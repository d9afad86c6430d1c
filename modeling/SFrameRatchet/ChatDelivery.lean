import SFrameRatchet.ChatSpecimen
import SFrameRatchet.ChatWindows

/-! Concurrent unseals of one provider. Between its replay check and its acceptance
a call waits for the durable guard and for the decryption, and in that time another
call may check the same counter. As long as no call comes to its check meanwhile, a
window holds the last counters that were accepted, and delivers none of them twice. -/
namespace SFrameRatchet.ChatDelivery
open BigEndian Collections Coroutine Throwing Interleaving Crypto DurableReplay Replay Recency Chat ChatWindows
open SlidingReplayWindow (check_iff)

variable {K B : Type}

abbrev ChatStatus := Status (ChatSite ChatPlace) (Except JsError (Option Bytes))

instance : DecidableEq ChatStatus := instDecidableEqStatus

/-- What has passed the check of its window, and is not accepted yet. -/
def flightAt : ChatSite ChatPlace → Option (Slot × Ref)
  | .checking slot window _ | .opening slot window _ => some (slot, window)
  | _ => none

def flight : ChatStatus → Option (Slot × Ref)
  | .suspended site => flightAt site
  | _ => none

/-- What a call has been accepted for; `slot` is what its buffer claims to be for. -/
def took (slot : Option Slot) : ChatStatus → Option Slot
  | .suspended (.recording recorded _) => some recorded
  | .finished (.ok (some _)) => slot
  | _ => none

/-! ## Steps -/

/-- What one turn of an unseal does to the windows. -/
inductive Step (windowSize : ℕ) (claimed : Option Slot) :
    ChatSite ChatPlace → ChatProvider K → ChatStatus → ChatProvider K → Prop
  | idles {site s status s'} (same : replayPart s' = replayPart s) (grounded : flight status = none)
    (nothing : took claimed status = none) : Step windowSize claimed site s status s'
  | refused {slot s status s'} (made : replayPart s' = replayPart (s.getReplayWindow slot.context windowSize).2)
    (grounded : flight status = none) (nothing : took claimed status = none) :
    Step windowSize claimed (.own (.indexing (some slot))) s status s'
  | checks {slot s status s'} (made : replayPart s' = replayPart (s.getReplayWindow slot.context windowSize).2)
    (carried : slot.ctr < 2 ^ 64)
    (fresh : ((s.getReplayWindow slot.context windowSize).2.windows.read
      (s.getReplayWindow slot.context windowSize).1).check slot.ctr = true)
    (flies : flight status = some (slot, (s.getReplayWindow slot.context windowSize).1))
    (nothing : took claimed status = none) : Step windowSize claimed (.own (.indexing (some slot))) s status s'
  | flies {site slot window s status s'} (same : replayPart s' = replayPart s)
    (own : flightAt site = some (slot, window)) (still : flight status = some (slot, window))
    (nothing : took claimed status = none) : Step windowSize claimed site s status s'
  | accepts {slot window key sealedBytes s status s'}
    (same : replayPart s' = replayPart (s.acceptReplay window { slot, key, sealedBytes }))
    (grounded : flight status = none) (takes : took claimed status = some slot) :
    Step windowSize claimed (.opening slot window true) s status s'
  | records {slot guard s status s'} (same : replayPart s' = replayPart s) (grounded : flight status = none)
    (takes : took claimed status = some slot) : Step windowSize claimed (.recording slot guard) s status s'

/-- Every turn is a step; nothing is asked of the state at its beginning. -/
def stepping (windowSize : ℕ) (claimed : Option Slot) : Contract (ChatSite ChatPlace) (ChatProvider K) where
  assume _ _ := True
  moves site start next s := Step windowSize claimed site start (.suspended next) s

/-- The end of a call. -/
def Ends (windowSize : ℕ) (claimed : Option Slot) (site : ChatSite ChatPlace) (start : ChatProvider K)
    (outcome : Except JsError (Option Bytes)) (s : ChatProvider K) : Prop :=
  Step windowSize claimed site start (.finished outcome) s

section Calls
variable {at_ site : ChatSite ChatPlace} {start s : ChatProvider K} {α : Type} {windowSize : ℕ} {claimed : Option Slot}

/-- Nothing has happened to the windows. -/
def Idle (_ : ChatSite ChatPlace) (start s : ChatProvider K) : Prop := replayPart s = replayPart start

theorem idle_survives (grounded : flightAt site = none) (nothing : took claimed (.suspended site) = none) :
    Survives (stepping (K := K) windowSize claimed) Idle site :=
  fun _ _ _ now => ⟨.idles now grounded nothing, fun _ _ => rfl⟩

theorem promised_idle {outcome : Except JsError α} (grounded : flightAt site = none)
    (nothing : took claimed (.suspended site) = none) (now : Idle at_ start s) :
    Yields (stepping windowSize claimed) Idle (promised site outcome) (fun _ => True) at_ start s := by
  apply yields_bind (yields_pause (idle_survives grounded nothing) now)
  intro _ _ _ _ now _
  exact yields_settle now fun _ _ => trivial

theorem deriveAesKeyAndSalt_idle (runtime : ChatRuntime K B) (userKey : B) (rotations : ℕ) (context : SealContext)
    (now : Idle at_ start s) :
    Yields (stepping windowSize claimed) Idle (deriveAesKeyAndSalt runtime userKey rotations context) (fun _ => True)
      at_ start s := by
  apply yields_read
  split
  · exact ⟨now, trivial⟩
  · apply yields_bind (yields_pause (idle_survives rfl rfl) now)
    intro _ _ _ _ now _
    apply yields_bind (promised_idle rfl rfl now)
    intro _ _ _ _ now _
    apply yields_bind (promised_idle rfl rfl now)
    intro _ _ _ _ now _
    apply yields_bind (yields_update now)
    intro _ _ _ _ now _
    exact ⟨now, trivial⟩

/-- The last wait for the sender's key is the one before the replay check. -/
theorem senderKey_meets (runtime : ChatRuntime K B) (context : SealContext) (slot : Option Slot)
    (now : Idle at_ start s) :
    Meets (stepping windowSize claimed) (senderKey runtime context slot)
      (fun at_ start _ s => at_ = .own (.indexing slot) ∧ Idle at_ start s) (fun at_ start _ s => Idle at_ start s)
      at_ start s := by
  unfold senderKey
  apply meets_bind.mpr
  apply meets_read.mpr
  dsimp only
  apply meets_after (yields_pause (idle_survives rfl rfl) now) _ (fun _ _ _ _ now => now)
  intro _ _ _ s now _
  apply meets_bind.mpr
  apply meets_read.mpr
  apply meets_after (yields_update now) _ (fun _ _ _ _ now => now)
  intro _ _ _ _ now _
  apply meets_after (promised_idle rfl rfl now) _ (fun _ _ _ _ now => now)
  intro _ _ userKey _ now _
  split
  · apply meets_after (deriveAesKeyAndSalt_idle runtime userKey _ context now) _ (fun _ _ _ _ now => now)
    intro _ _ _ _ now _
    apply meets_after (yields_pause (idle_survives rfl rfl) now) _ (fun _ _ _ _ now => now)
    intro _ _ _ _ now _
    apply meets_bind.mpr
    apply meets_pause.mpr
    refine ⟨.idles now rfl rfl, fun later _ => ?_⟩
    apply meets_bind.mpr
    apply meets_settle.mpr
    cases Kid.makeKid 0 (peerIndexForUid runtime context.senderUid) with
    | error refused => exact rfl
    | ok kid => exact ⟨rfl, rfl⟩
  · exact now

/-- The counter of a slot has passed the check of a window. -/
def Flying (windowSize : ℕ) (slot : Slot) (window : Ref) (at_ : ChatSite ChatPlace) (start s : ChatProvider K) : Prop :=
  (at_ = .own (.indexing (some slot)) ∧ replayPart s = replayPart (start.getReplayWindow slot.context windowSize).2 ∧
    slot.ctr < 2 ^ 64 ∧ ((start.getReplayWindow slot.context windowSize).2.windows.read window).check slot.ctr = true ∧
      window = (start.getReplayWindow slot.context windowSize).1) ∨
    flightAt at_ = some (slot, window) ∧ Idle at_ start s

section Flying
variable {slot : Slot} {window : Ref} {status : ChatStatus} (flying : Flying windowSize slot window at_ start s)
include flying

theorem flying_onward (flies : flight status = some (slot, window)) (nothing : took claimed status = none) :
    Step windowSize claimed at_ start status s := by
  rcases flying with ⟨rfl, made, carried, fresh, rfl⟩ | ⟨own, same⟩
  · exact .checks made carried fresh flies nothing
  · exact .flies same own flies nothing

theorem flying_fails (grounded : flight status = none) (nothing : took claimed status = none) :
    Step windowSize claimed at_ start status s := by
  rcases flying with ⟨rfl, made, -, -, -⟩ | ⟨-, same⟩
  · exact .refused made grounded nothing
  · exact .idles same grounded nothing

end Flying

theorem flying_survives {slot : Slot} {window : Ref} (flies : flightAt site = some (slot, window)) :
    Survives (stepping (K := K) windowSize claimed) (Flying windowSize slot window) site := by
  intro at_ start s flying
  have nothing : took claimed (.suspended site) = none := by
    cases site <;> first | rfl | cases flies
  exact ⟨flying_onward flying flies nothing, fun later _ => .inr ⟨flies, rfl⟩⟩

theorem checkReplay_meets (settings : ReplaySettings) {slot : Slot} (carried : slot.ctr < 2 ^ 64)
    (here : at_ = .own (.indexing (some slot))) (now : Idle at_ start s) :
    Meets (stepping settings.replayWindow claimed) (checkReplay "sframe-chat" settings slot)
      (fun at_ start window s => Flying settings.replayWindow slot window at_ start s)
      (fun at_ start error s => Ends settings.replayWindow claimed at_ start (.error error) s) at_ start s := by
  obtain ⟨window, part⟩ := getReplayWindow_of now slot.context settings.replayWindow
  unfold checkReplay
  apply meets_bind.mpr
  apply meets_read.mpr
  generalize s.getReplayWindow slot.context settings.replayWindow = got at window part
  obtain ⟨found, made⟩ := got
  dsimp only at window part ⊢
  apply meets_bind.mpr
  apply meets_update.mpr
  have windows : made.windows = (start.getReplayWindow slot.context settings.replayWindow).2.windows :=
    congrArg (fun part => part.2.1) part
  split
  · rename_i fresh
    rw [windows] at fresh
    have flying : Flying settings.replayWindow slot found at_ start made := .inl ⟨here, part, carried, fresh, window⟩
    split
    · apply meets_bind.mpr
      apply meets_onGuard (fun guard => flying_survives rfl) _ flying
      · intro _ _ fresh _ flying
        split
        · exact flying
        · exact flying_fails flying rfl rfl
      · intro _ _ _ _ flying
        exact flying
    · exact flying
  · subst here
    exact Step.refused part rfl rfl

/-- The counter of a slot has been accepted into the window that let it pass. -/
def Recorded (slot : Slot) (at_ : ChatSite ChatPlace) (start s : ChatProvider K) : Prop :=
  (∃ window key sealedBytes, at_ = .opening slot window true ∧
    replayPart s = replayPart (start.acceptReplay window { slot, key, sealedBytes })) ∨
      (∃ guard, at_ = .recording slot guard) ∧ Idle at_ start s

theorem recorded_onward {slot : Slot} {status : ChatStatus} (recorded : Recorded slot at_ start s)
    (grounded : flight status = none) (takes : took claimed status = some slot) :
    Step windowSize claimed at_ start status s := by
  rcases recorded with ⟨window, key, sealedBytes, rfl, same⟩ | ⟨⟨guard, rfl⟩, same⟩
  · exact .accepts same grounded takes
  · exact .records same grounded takes

theorem recorded_survives {slot : Slot} (guard : GuardSite Unit) :
    Survives (stepping (K := K) windowSize claimed) (Recorded slot) (.recording slot guard) :=
  fun _ _ _ recorded => ⟨recorded_onward recorded rfl rfl, fun _ _ => .inr ⟨⟨guard, rfl⟩, rfl⟩⟩

theorem openChecked_meets (crypto : WebCrypto K) (settings : ReplaySettings) {slot : Slot} {window : Ref}
    (sealedBytes : Bytes) (key : SFrameKey K) (claims : claimed = some slot)
    (flying : Flying settings.replayWindow slot window at_ start s) :
    Meets (stepping settings.replayWindow claimed) (openChecked crypto settings slot window sealedBytes key)
      (fun at_ start plaintext s => Ends settings.replayWindow claimed at_ start (.ok (some plaintext)) s)
      (fun at_ start error s => Ends settings.replayWindow claimed at_ start (.error error) s) at_ start s := by
  unfold openChecked
  dsimp only
  apply meets_bind.mpr
  apply meets_promised.mpr
  generalize SFrame.sframeDecrypt crypto sealedBytes _ _ _ _ = opened
  refine ⟨flying_onward flying rfl rfl, fun opening _ => ?_⟩
  cases opened with
  | error refused => exact Step.idles rfl rfl rfl
  | ok plaintext =>
    apply meets_bind.mpr
    apply meets_update.mpr
    apply meets_bind.mpr
    apply meets_read.mpr
    split
    · apply meets_bind.mpr
      apply meets_onGuard recorded_survives
      · intro _ _ _ _ recorded
        exact recorded
      · exact .inl ⟨window, key, sealedBytes, rfl, rfl⟩
      · intro _ _ _ _ recorded
        exact recorded_onward recorded rfl claims
    · exact Step.accepts rfl rfl claims

/-- Every turn of an unseal is a step. -/
theorem unseal_meets (runtime : ChatRuntime K B) (settings : ReplaySettings) (sealedBytes : Bytes)
    (context : SealContext) :
    Meets (stepping settings.replayWindow (slotOf sealedBytes context).toOption)
      (unseal_ runtime settings sealedBytes context)
      (fun at_ start plaintext s =>
        Ends settings.replayWindow (slotOf sealedBytes context).toOption at_ start (.ok (some plaintext)) s)
      (fun at_ start error s =>
        Ends settings.replayWindow (slotOf sealedBytes context).toOption at_ start (.error error) s) .start s s := by
  generalize claims : (slotOf sealedBytes context).toOption = claimed
  unfold unseal_
  rw [claims]
  apply meets_bind.mpr
  apply meets_mono (senderKey_meets runtime context claimed rfl)
  · rintro at_ start ⟨key, use⟩ s ⟨here, now⟩
    apply meets_bind.mpr
    apply meets_settle.mpr
    cases parsed : slotOf sealedBytes context with
    | error refused => exact Step.idles now rfl rfl
    | ok slot =>
      have own : claimed = some slot := by rw [← claims, parsed]; rfl
      have carried := (slotOf_ok parsed).2
      apply meets_bind.mpr
      apply meets_mono (checkReplay_meets settings carried (own ▸ here) now)
      · intro at_ start window s flying
        apply meets_bind.mpr
        apply meets_update.mpr
        exact openChecked_meets runtime.crypto settings sealedBytes key own flying
      · intro _ _ _ _ ends
        exact ends
  · intro at_ start error s now
    exact Step.idles now rfl rfl

theorem program_meets (runtime : ChatRuntime K B) (settings : ReplaySettings) (sealedBytes : Bytes)
    (context : SealContext) :
    Meets (stepping settings.replayWindow (slotOf sealedBytes context).toOption)
      ((ChatCall.unseal_ sealedBytes context).program runtime settings)
      (fun at_ start value s =>
        Ends settings.replayWindow (slotOf sealedBytes context).toOption at_ start (.ok value) s)
      (fun at_ start error s =>
        Ends settings.replayWindow (slotOf sealedBytes context).toOption at_ start (.error error) s) .start s s := by
  apply meets_bind.mpr
  apply meets_mono (unseal_meets runtime settings sealedBytes context)
  · intro _ _ plaintext _ ends
    exact ends
  · intro _ _ _ _ ends
    exact ends

end Calls

/-! ## Calls -/

/-- Calls that are on their way have a counter each, and every delivery has an
acceptance of its own. -/
structure Delivering {ι : Type} (windowSize : ℕ) (claimed : ι → Option Slot) (s : ChatProvider K)
    (statuses : ι → ChatStatus) : Prop where
  remembers : Remembers windowSize s
  flying : ∀ call slot window, flight (statuses call) = some (slot, window) → OnItsWay windowSize s slot window
  single : ∀ call other slot window window', flight (statuses call) = some (slot, window) →
    flight (statuses other) = some (slot, window') → call = other
  taken : ∀ call slot, took (claimed call) (statuses call) = some slot → 1 ≤ count s slot
  twice : ∀ call other slot, call ≠ other → took (claimed call) (statuses call) = some slot →
    took (claimed other) (statuses other) = some slot → 2 ≤ count s slot

section Delivering
variable {ι : Type} [DecidableEq ι] {windowSize : ℕ} {claimed : ι → Option Slot} {s s' : ChatProvider K}
  {statuses : ι → ChatStatus} {call : ι} {site : ChatSite ChatPlace} {status : ChatStatus}

theorem Delivering.update (delivering : Delivering windowSize claimed s statuses)
    (remembers : Remembers windowSize s') (grown : ∀ slot, count s slot ≤ count s' slot)
    (others : ∀ other slot window, other ≠ call → flight (statuses other) = some (slot, window) →
      OnItsWay windowSize s' slot window)
    (own : ∀ slot window, flight status = some (slot, window) → OnItsWay windowSize s' slot window ∧
      ∀ other window', other ≠ call → flight (statuses other) ≠ some (slot, window'))
    (takes : ∀ slot, took (claimed call) status = some slot → 1 ≤ count s' slot ∧
      ∀ other, other ≠ call → took (claimed other) (statuses other) = some slot → 2 ≤ count s' slot) :
    Delivering windowSize claimed s' (Function.update statuses call status) where
  remembers := remembers
  flying other slot window flies := by
    by_cases same : other = call
    · subst same
      rw [Function.update_self] at flies
      exact (own slot window flies).1
    · rw [Function.update_of_ne same] at flies
      exact others other slot window same flies
  single one two slot window window' first second := by
    by_cases same : one = call
    · subst same
      by_contra apart
      rw [Function.update_self] at first
      rw [Function.update_of_ne (Ne.symm apart)] at second
      exact (own slot window first).2 two window' (Ne.symm apart) second
    · rw [Function.update_of_ne same] at first
      by_cases here : two = call
      · subst here
        rw [Function.update_self] at second
        exact absurd first ((own slot window' second).2 one window same)
      · rw [Function.update_of_ne here] at second
        exact delivering.single one two slot window window' first second
  taken other slot took := by
    by_cases same : other = call
    · subst same
      rw [Function.update_self] at took
      exact (takes slot took).1
    · rw [Function.update_of_ne same] at took
      exact (delivering.taken other slot took).trans (grown slot)
  twice one two slot apart first second := by
    by_cases same : one = call
    · subst same
      rw [Function.update_self] at first
      rw [Function.update_of_ne (Ne.symm apart)] at second
      exact (takes slot first).2 two (Ne.symm apart) second
    · rw [Function.update_of_ne same] at first
      by_cases here : two = call
      · subst here
        rw [Function.update_self] at second
        exact (takes slot second).2 one same first
      · rw [Function.update_of_ne here] at second
        exact (delivering.twice one two slot apart first second).trans (grown slot)

omit [DecidableEq ι] in
/-- The windows as they are after one has been asked for. -/
theorem Delivering.asked (delivering : Delivering windowSize claimed s statuses) {slot : Slot}
    (keeps : s.keepsRooms slot.context.roomId = true)
    (made : replayPart s' = replayPart (s.getReplayWindow slot.context windowSize).2) :
    Remembers windowSize s' ∧ (∀ slot, count s' slot = count s slot) ∧
      ∀ slot window, OnItsWay windowSize s slot window → OnItsWay windowSize s' slot window := by
  obtain ⟨remembers, -, still, received⟩ := remembers_getReplayWindow delivering.remembers keeps
  refine ⟨remembers_of remembers made, fun other => ?_, fun other window way => ?_⟩
  · rw [count_of made, count, received, count]
  · apply onItsWay_of _ made
    rw [OnItsWay, received]
    exact ⟨still _ _ way.1, way.2⟩

/-- A step keeps the deliveries apart, when no room has to go and no other call is
on its way with the counter that comes to its check. -/
theorem Delivering.step (delivering : Delivering windowSize claimed s statuses) (positive : windowSize ≠ 0)
    (waits : statuses call = .suspended site) (step : Step windowSize (claimed call) site s status s')
    (keeps : ∀ slot, site = .own (.indexing (some slot)) → s.keepsRooms slot.context.roomId = true)
    (first : ∀ slot, site = .own (.indexing (some slot)) →
      ∀ other window, flight (statuses other) ≠ some (slot, window)) :
    Delivering windowSize claimed s' (Function.update statuses call status) := by
  cases step with
  | idles same grounded nothing =>
    apply delivering.update (remembers_of delivering.remembers same) (fun slot => (count_of same slot).ge)
    · intro other slot window _ flies
      exact onItsWay_of (delivering.flying other slot window flies) same
    · intro slot window flies
      cases grounded.symm.trans flies
    · intro slot takes
      cases nothing.symm.trans takes
  | refused made grounded nothing =>
    obtain ⟨remembers, counts, ways⟩ := delivering.asked (keeps _ rfl) made
    apply delivering.update remembers (fun slot => (counts slot).ge)
    · intro other slot window _ flies
      exact ways slot window (delivering.flying other slot window flies)
    · intro slot window flies
      cases grounded.symm.trans flies
    · intro slot takes
      cases nothing.symm.trans takes
  | @checks slot _ _ _ made carried fresh flies nothing =>
    obtain ⟨remembers, counts, ways⟩ := delivering.asked (keeps _ rfl) made
    apply delivering.update remembers (fun slot => (counts slot).ge)
    · intro other slot window _ flies
      exact ways slot window (delivering.flying other slot window flies)
    · intro other window own
      cases flies.symm.trans own
      refine ⟨?_, fun other window' _ => first slot rfl other window'⟩
      obtain ⟨remembered, there, -, -⟩ := remembers_getReplayWindow delivering.remembers (keeps _ rfl)
      obtain ⟨-, size, queue⟩ := remembered.held _ _ there
      apply onItsWay_of _ made
      refine ⟨there, carried, ?_⟩
      rw [← queue]
      apply (check_iff (by rw [size]; exact positive) carried _).mp fresh
      rw [queue]
      intro ctr member
      exact remembered.carried _ ctr ((rtake_sublist _ _).subset member)
    · intro slot takes
      cases nothing.symm.trans takes
  | @flies _ slot window _ _ _ same own still nothing =>
    have here : flight (statuses call) = some (slot, window) := by rw [waits]; exact own
    apply delivering.update (remembers_of delivering.remembers same) (fun slot => (count_of same slot).ge)
    · intro other slot window _ flies
      exact onItsWay_of (delivering.flying other slot window flies) same
    · intro other window' flies
      cases still.symm.trans flies
      refine ⟨onItsWay_of (delivering.flying call slot window here) same, fun other window' apart flies => ?_⟩
      exact apart (delivering.single other call slot window' window flies here)
    · intro slot takes
      cases nothing.symm.trans takes
  | @accepts slot window key sealedBytes _ _ _ same grounded takes =>
    have here : flight (statuses call) = some (slot, window) := by rw [waits]; rfl
    have way := delivering.flying call slot window here
    have counts (other : Slot) : count s' other = count s other + if slot = other then 1 else 0 := by
      rw [count_of same]
      exact count_acceptReplay s window ⟨slot, key, sealedBytes⟩ other
    apply delivering.update (remembers_of (remembers_acceptReplay delivering.remembers positive way) same)
    · intro other
      rw [counts]
      exact Nat.le_add_right _ _
    · intro other slot' window' apart flies
      apply onItsWay_of _ same
      apply onItsWay_acceptReplay (delivering.flying other slot' window' flies)
      rintro rfl
      exact apart (delivering.single other call slot window' window flies here)
    · intro slot window flies
      cases grounded.symm.trans flies
    · intro other own
      cases takes.symm.trans own
      rw [counts, if_pos rfl]
      refine ⟨Nat.le_add_left _ _, fun other _ takes' => ?_⟩
      have once := delivering.taken other slot takes'
      omega
  | @records slot guard _ _ _ same grounded takes =>
    have here : took (claimed call) (statuses call) = some slot := by rw [waits]; rfl
    apply delivering.update (remembers_of delivering.remembers same) (fun slot => (count_of same slot).ge)
    · intro other slot window _ flies
      exact onItsWay_of (delivering.flying other slot window flies) same
    · intro slot window flies
      cases grounded.symm.trans flies
    · intro other own
      cases takes.symm.trans own
      rw [count_of same]
      refine ⟨delivering.taken call slot here, fun other apart takes' => ?_⟩
      exact delivering.twice other call slot apart takes' here

end Delivering

/-! ## Runs -/

/-- The calls of a run in which buffers are unsealed and nothing else happens. -/
def unsealing {ι : Type} (frames : ι → Bytes × SealContext) (call : ι) : ChatCall :=
  .unseal_ (frames call).1 (frames call).2

/-- No room has to go for the window of another one. -/
def KeepsRooms : ChatSite ChatPlace → ChatProvider K → Prop
  | .own (.indexing (some slot)), s => s.keepsRooms slot.context.roomId = true
  | _, _ => True

instance (site : ChatSite ChatPlace) (s : ChatProvider K) : Decidable (KeepsRooms site s) := by
  unfold KeepsRooms
  split <;> infer_instance

section Gates
variable {ι : Type}

def keepsRooms : ChatPool ι K → ι → ChatPool ι K → Prop := whereAllowed KeepsRooms

/-- A call that comes to its replay check finds no other one that has passed it with
the same counter and is not accepted yet. -/
def InTurn (before : ChatPool ι K) (call : ι) : Prop :=
  ∀ slot, before.statuses call = .suspended (.own (.indexing (some slot))) →
    ∀ other, (flight (before.statuses other)).map Prod.fst ≠ some slot

/-- The gate of the runs in which the checks of a counter come one after the other. -/
def checksInTurn (before : ChatPool ι K) (call : ι) (after : ChatPool ι K) : Prop :=
  keepsRooms before call after ∧ InTurn before call

instance (before : ChatPool ι K) (call : ι) (after : ChatPool ι K) : Decidable (keepsRooms before call after) :=
  inferInstanceAs (Decidable (whereAllowed KeepsRooms before call after))

instance [Fintype ι] (before : ChatPool ι K) (call : ι) : Decidable (InTurn before call) :=
  match held : before.statuses call with
  | .suspended (.own (.indexing (some slot))) =>
    decidable_of_iff (∀ other, (flight (before.statuses other)).map Prod.fst ≠ some slot)
      ⟨fun first other same => by cases held.symm.trans same; exact first, fun first => first slot held⟩
  | .suspended (.own (.indexing none)) | .suspended .start | .suspended (.own (.asking ..))
  | .suspended (.own (.answered ..)) | .suspended (.own .digesting) | .suspended (.own .derivingKey)
  | .suspended (.own (.derivingBits ..)) | .suspended (.own .derived) | .suspended (.own .allocating)
  | .suspended (.own .sealing) | .suspended (.checking ..) | .suspended (.opening ..) | .suspended (.recording ..)
  | .suspended (.clears ..) | .suspended (.clearing ..) | .running | .finished _ =>
    isTrue fun _ same => by cases held.symm.trans same

instance [Fintype ι] (before : ChatPool ι K) (call : ι) (after : ChatPool ι K) :
    Decidable (checksInTurn before call after) :=
  inferInstanceAs (Decidable (keepsRooms before call after ∧ InTurn before call))

end Gates

/-- A call has delivered the counter of a slot. -/
def Delivers {ι : Type} (frames : ι → Bytes × SealContext) (last : ChatPool ι K) (call : ι) (slot : Slot) : Prop :=
  slotOf (frames call).1 (frames call).2 = .ok slot ∧ ∃ plaintext, last.statuses call = .finished (.ok (some plaintext))

/-- What has been accepted from the sender of a slot beside the slot itself. -/
def others (s : ChatProvider K) (slot : Slot) : List (Acceptance K) :=
  s.accepted.filter fun acceptance => acceptance.slot.context = slot.context ∧ acceptance.slot.ctr ≠ slot.ctr

/-- A counter of a sender is delivered once, if fewer others have been accepted from
the sender than its window holds. -/
def AtMostOnce {ι : Type} (windowSize : ℕ) (frames : ι → Bytes × SealContext) (last : ChatPool ι K) : Prop :=
  ∀ slot, (others last.shared slot).length < windowSize → ∀ call other, Delivers frames last call slot →
    Delivers frames last other slot → call = other

theorem others_received (s : ChatProvider K) (slot : Slot) :
    ((s.received slot.context).filter (· ≠ slot.ctr)).length = (others s slot).length := by
  rw [ProviderState.received, List.filter_map, List.length_map, List.filter_filter, others]
  congr 1
  apply List.filter_congr
  intro acceptance _
  simp [Bool.and_comm]

theorem delivering_launch {ι : Type} (settings : ReplaySettings) (store : OrderedMap String (List ℕ))
    (claimed : ι → Option Slot) :
    Delivering settings.replayWindow claimed (.create settings {} store : ChatProvider K)
      fun _ => .suspended .start where
  remembers := remembers_create settings _ store
  flying _ _ _ flies := by cases flies
  single _ _ _ _ _ flies := by cases flies
  taken _ _ takes := by cases takes
  twice _ _ _ _ takes := by cases takes

/-- In every run of unseals in which no room has to go, and in which no call comes to
its replay check while another one has passed it with the same counter and is not
accepted yet, a counter is delivered once. -/
theorem unseals_at_most_once {ι : Type} [DecidableEq ι] (runtime : ChatRuntime K B) (settings : ReplaySettings)
    (store : OrderedMap String (List ℕ)) (frames : ι → Bytes × SealContext) {last : ChatPool ι K}
    (run : Runs checksInTurn (launch runtime settings (.create settings {} store) (unsealing frames)) last) :
    AtMostOnce settings.replayWindow frames last := by
  intro slot few
  have positive : settings.replayWindow ≠ 0 := by omega
  have delivering : Delivering settings.replayWindow
      (fun call => (slotOf (frames call).1 (frames call).2).toOption) last.shared last.statuses := by
    refine runs_invariant
      (fun call => stepping settings.replayWindow (slotOf (frames call).1 (frames call).2).toOption)
      (fun call => Ends settings.replayWindow (slotOf (frames call).1 (frames call).2).toOption)
      (Delivering settings.replayWindow fun call => (slotOf (frames call).1 (frames call).2).toOption)
      (delivering_launch settings store _) (launch_follows fun call s _ => ?_)
      (fun _ _ _ _ _ _ _ _ => trivial) (fun before call site after delivering waits passes _ moved => ?_) run
    · apply Contract.keeps_mono (program_meets runtime settings (frames call).1 (frames call).2)
      intro _ _ outcome _ ends
      cases outcome with
      | ok value => exact ends
      | error refused => exact ends
    · have keeps (slot : Slot) (own : site = .own (.indexing (some slot))) :
          before.shared.keepsRooms slot.context.roomId = true := by
        subst own
        exact passes.1 _ waits
      have first (slot : Slot) (own : site = .own (.indexing (some slot))) (other : ι) (window : Ref) :
          flight (before.statuses other) ≠ some (slot, window) := by
        subst own
        intro flies
        exact passes.2 slot waits other (congrArg (Option.map Prod.fst) flies)
      generalize after.statuses call = status at moved
      cases status with
      | running => exact moved.elim
      | suspended next => exact delivering.step positive waits moved keeps first
      | finished outcome => exact delivering.step positive waits moved keeps first
  intro call other first second
  by_contra apart
  have taken (call : ι) (delivers : Delivers frames last call slot) :
      took (slotOf (frames call).1 (frames call).2).toOption (last.statuses call) = some slot := by
    obtain ⟨claims, plaintext, ended⟩ := delivers
    rw [ended, claims]
    rfl
  have twice := delivering.twice call other slot apart (taken call first) (taken other second)
  have many := spaced_repeated (delivering.remembers.spaced slot.context) twice
  rw [others_received] at many
  omega

section Checked
open ChatSpecimen (runtime memorySettings provider ann)

/-- What ann has sealed first. -/
def mail : Bytes :=
  match alone (seal_ runtime [104, 105] ann) (provider memorySettings) with
  | some (.ok sealedBytes, _) => sealedBytes
  | _ => []

/-- Two copies of one buffer. -/
def copies (_ : Fin 2) : Bytes × SealContext := (mail, ann)

/-- Both copies pass the check before one is accepted. -/
theorem copies_unsealed_twice : ¬ ∀ last : ChatPool (Fin 2) Bytes,
    Runs keepsRooms (launch runtime memorySettings (provider memorySettings) (unsealing copies)) last →
      AtMostOnce memorySettings.replayWindow copies last := by
  intro once
  have result : ((launch runtime memorySettings (provider memorySettings) (unsealing copies)).followPassing keepsRooms
      (List.replicate 8 0 ++ List.replicate 5 1 ++ [0, 1])).map (fun pool =>
        (pool.statuses 0, pool.statuses 1, (others pool.shared ⟨ann, 0⟩).length)) =
      some (.finished (.ok (some [104, 105])), .finished (.ok (some [104, 105])), 0) := by
    decide +kernel
  have claims : slotOf mail ann = .ok ⟨ann, 0⟩ := by decide +kernel
  obtain ⟨last, followed, shape⟩ := Option.map_eq_some_iff.mp result
  simp only [Prod.mk.injEq] at shape
  obtain ⟨first, second, none⟩ := shape
  have same := once last (followPassing_runs followed) ⟨ann, 0⟩ (by rw [none]; decide) 0 1 ⟨claims, _, first⟩
    ⟨claims, _, second⟩
  cases same

/-- The first copy is accepted before the second one comes to its check. -/
theorem unseals_at_most_once_in_turn : ∃ last : ChatPool (Fin 2) Bytes,
    last.statuses 0 = .finished (.ok (some [104, 105])) ∧ AtMostOnce memorySettings.replayWindow copies last := by
  have result : ((launch runtime memorySettings (provider memorySettings) (unsealing copies)).followPassing checksInTurn
      (List.replicate 9 0 ++ List.replicate 5 1)).map (fun pool => pool.statuses 0) =
      some (.finished (.ok (some [104, 105]))) := by
    decide +kernel
  obtain ⟨last, followed, shape⟩ := Option.map_eq_some_iff.mp result
  exact ⟨last, shape, unseals_at_most_once runtime memorySettings ∅ copies (followPassing_runs followed)⟩

end Checked
end SFrameRatchet.ChatDelivery
