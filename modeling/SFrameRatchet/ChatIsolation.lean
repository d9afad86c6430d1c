import SFrameRatchet.ChatClearing
import SFrameRatchet.MlsSpecimen

/-! Conversations and the durable guard. In memory a sender's window is found by room
and by sender; the guard has one name for both, with a bar between them, and a bar
may stand in a room or in a sender too. What the calls on one conversation do to the
answers for another comes down to whether they have names of their own. -/
namespace SFrameRatchet.ChatIsolation
open BigEndian Collections Coroutine Throwing Crypto DurableReplay DurableWindow Chat

section Providers
variable {K X P : Type}

/-- The guard's answer to a check. -/
def answer (s : ProviderState K X) (context : SealContext) (ctr : ℕ) : Option Bool :=
  ((check () (durableKey context) ctr).solo s.origin).map Prod.fst

/-- The counters that the guard has stored under the name of a conversation. -/
def kept (s : ProviderState K X) (context : SealContext) : List ℕ :=
  stored s.origin ((s.origin.tabs ()).storeKey (durableKey context))

/-- The state after calls that are made one after the other. -/
def performs : List (ChatTask K X P (Option Bytes)) → ProviderState K X → Option (ProviderState K X)
  | [], s => some s
  | task :: rest, s => (alone task s).bind fun result => performs rest result.2

/-- No sequence of such calls changes the guard's answer to any check for a conversation. -/
def Isolated (on : ChatTask K X P (Option Bytes) → Prop) (s : ProviderState K X) (context : SealContext) : Prop :=
  ∀ history, (∀ task ∈ history, on task) → ∀ s', performs history s = some s' → ∀ ctr,
    answer s' context ctr = answer s context ctr

/-- The guard is the one that the provider was constructed with, and neither a call
nor a clear is under way. -/
structure Idle (settings : ReplaySettings) (s : ProviderState K X) : Prop where
  resting : Resting () s.origin
  settings : (s.origin.tabs ()).settings = (true, settings.durable.getD ("", 0))
  clearing : s.clearing = []

/-- The two conversations have names of their own, and when the room of the first is
dropped, no sender of it takes the name of the second along with what is stored. -/
def Apart (s : ProviderState K X) (pair other : SealContext) : Prop :=
  durableKey pair ≠ durableKey other ∧ (pair.roomId ≠ other.roomId → kept s other ≠ [] →
    ∀ senderUid, (s.windowOf ⟨pair.roomId, senderUid⟩).isSome → durableKey ⟨pair.roomId, senderUid⟩ ≠ durableKey other)

/-- An acceptance by the guard itself. -/
def recordAccept (context : SealContext) (ctr : ℕ) : ChatTask K X P (Option Bytes) := do
  onGuard (.recording ⟨context, ctr⟩) (DurableReplay.accept () (durableKey context) ctr)
  return none

/-- The clear of a key that an earlier call has started. -/
def settleStarted (key : String) : ChatTask K X P (Option Bytes) := do
  settleClear key
  return none

/-! ## What calls on the first conversation keep -/

/-- What is stored for the second conversation is there still, and no window of the
first one's room and no clear under way has its name. -/
structure Confined (settings : ReplaySettings) (pair other : SealContext) (held : List ℕ) (s : ProviderState K X) :
    Prop where
  resting : Resting () s.origin
  settings : (s.origin.tabs ()).settings = (true, settings.durable.getD ("", 0))
  kept : kept s other = held
  windows : pair.roomId ≠ other.roomId → held ≠ [] → ∀ senderUid, (s.windowOf ⟨pair.roomId, senderUid⟩).isSome →
    durableKey ⟨pair.roomId, senderUid⟩ ≠ durableKey other
  clearing : held ≠ [] → durableKey other ∉ s.clearing

variable {settings : ReplaySettings} {pair other : SealContext} {held : List ℕ} {s : ProviderState K X}

/-- The answers are what is stored. -/
theorem answer_eq (resting : Resting () s.origin) (positive : (s.origin.tabs ()).window ≠ 0) (ctr : ℕ) :
    answer s other ctr = some (decide (ctr ∉ kept s other)) := by
  obtain ⟨o', ran, -⟩ := solo_check resting positive (durableKey other) ctr
  rw [answer, ran]
  rfl

theorem kept_congr {o : Origin Unit} (same : (o.tabs ()).settings = (s.origin.tabs ()).settings)
    (stores : stored o ((s.origin.tabs ()).storeKey (durableKey other)) = kept s other) :
    kept { s with origin := o } other = kept s other := by
  rw [kept, storeKey_congr same, stores]

/-- A guard that remembers nothing has stored nothing. -/
theorem kept_disabled (resting : Resting () s.origin) (disabled : (s.origin.tabs ()).window = 0) :
    kept s other = [] := by
  have short := (resting.bounded ((s.origin.tabs ()).storeKey (durableKey other))).2
  rw [disabled] at short
  exact List.length_eq_zero_iff.mp (Nat.le_zero.mp short)

theorem confined_own (own : X) (confined : Confined settings pair other held s) :
    Confined settings pair other held { s with own } :=
  ⟨confined.resting, confined.settings, confined.kept, confined.windows, confined.clearing⟩

/-- A task of the guard that leaves alone what is stored for the second conversation. -/
theorem confined_onGuard {α : Type} {place : GuardSite Unit → ChatSite P} {task : Task Unit α}
    (ends : ∀ s : ProviderState K X, Confined settings pair other held s → ∃ value o',
      task.solo s.origin = some (value, o') ∧ Resting () o' ∧
        (o'.tabs ()).settings = (s.origin.tabs ()).settings ∧
          stored o' ((s.origin.tabs ()).storeKey (durableKey other)) = ChatIsolation.kept s other) :
    Completes (Confined settings pair other held) (onGuard place task : ChatTask K X P α) := by
  intro s confined
  obtain ⟨value, o', ran, rests, same, stores⟩ := ends s confined
  refine ⟨.ok value, { s with origin := o' }, by rw [alone_onGuard, ran]; rfl, rests, same.trans confined.settings, ?_,
    confined.windows, confined.clearing⟩
  exact (kept_congr same stores).trans confined.kept

theorem confined_check (place : GuardSite Unit → ChatSite P) (key : String) (ctr : ℕ) :
    Completes (Confined settings pair other held) (onGuard place (check () key ctr) : ChatTask K X P Bool) := by
  apply confined_onGuard
  intro s confined
  obtain ⟨value, o', ran, rests, same, stores⟩ := check_ends confined.resting key ctr
  exact ⟨value, o', ran, rests, same, stores _⟩

theorem confined_accept (apart : (settings.durable.getD ("", 0)).2 ≠ 0 → durableKey pair ≠ durableKey other)
    (place : GuardSite Unit → ChatSite P) (ctr : ℕ) : Completes (Confined settings pair other held)
      (onGuard place (accept () (durableKey pair) ctr) : ChatTask K X P Unit) := by
  apply confined_onGuard
  intro s confined
  obtain ⟨o', ran, rests, same, stores⟩ := accept_ends confined.resting (durableKey pair) ctr
  refine ⟨(), o', ran, rests, same, stores _ ?_⟩
  have window : (s.origin.tabs ()).window = (settings.durable.getD ("", 0)).2 := congrArg (·.2.2) confined.settings
  by_cases remembers : (s.origin.tabs ()).window = 0
  · exact .inr remembers
  · rw [window] at remembers
    exact .inl fun same => apart remembers (storeKey_injective _ same.symm)

/-- A room that is asked for a window gets one for that sender at most. -/
theorem windowOf_getReplayWindow {windowSize : ℕ} {senderUid : String}
    (there : ((s.getReplayWindow pair windowSize).2.windowOf ⟨pair.roomId, senderUid⟩).isSome) :
    senderUid = pair.senderUid ∨ (s.windowOf ⟨pair.roomId, senderUid⟩).isSome := by
  unfold ProviderState.getReplayWindow at there
  dsimp only at there
  split at there
  · exact .inr there
  · have room (table : OrderedMap String (OrderedMap String Ref)) {senders : OrderedMap String Ref}
        (made : table.get? pair.roomId = some senders) :
        (if s.replayWindows.has pair.roomId = true then table else evictOldReplayRooms table).get? pair.roomId = none ∨
          (if s.replayWindows.has pair.roomId = true then table else evictOldReplayRooms table).get? pair.roomId =
            some senders := by
      split
      · exact .inr made
      · exact made ▸ get?_evictOldReplayRooms table pair.roomId
    have made := room _ ((OrderedMap.get?_set s.replayWindows pair.roomId pair.roomId
      (((s.replayWindows.get? pair.roomId).getD ∅).set pair.senderUid s.windows.next)).trans (if_pos rfl))
    simp only [ProviderState.windowOf] at there ⊢
    rcases made with gone | made
    · rw [gone] at there
      cases there
    · rw [made, Option.bind_some, OrderedMap.get?_set] at there
      split at there
      · exact .inl ‹_›
      · refine .inr ?_
        cases held : s.replayWindows.get? pair.roomId with
        | none => simp [held] at there
        | some senders => simpa [held] using there

section Kept
variable (apart : (settings.durable.getD ("", 0)).2 ≠ 0 → durableKey pair ≠ durableKey other)
include apart

theorem confined_getReplayWindow (confined : Confined settings pair other held s) (windowSize : ℕ) :
    Confined settings pair other held (s.getReplayWindow pair windowSize).2 where
  resting := by
    rw [ProviderState.getReplayWindow_origin]
    exact confined.resting
  settings := by
    rw [ProviderState.getReplayWindow_origin]
    exact confined.settings
  kept := by
    rw [ChatIsolation.kept, ProviderState.getReplayWindow_origin]
    exact confined.kept
  windows rooms some senderUid there := by
    rcases windowOf_getReplayWindow there with rfl | known
    · refine apart fun disabled => some ?_
      have window : (s.origin.tabs ()).window = (settings.durable.getD ("", 0)).2 :=
        congrArg (·.2.2) confined.settings
      exact confined.kept.symm.trans (kept_disabled confined.resting (window.trans disabled))
    · exact confined.windows rooms some senderUid known
  clearing some := by
    rw [ProviderState.getReplayWindow_clearing]
    exact confined.clearing some

/-- The way of a buffer that claims to be from the first conversation. -/
theorem confined_checkReplay (name : String) (ctr : ℕ) : Completes (Confined settings pair other held)
    (checkReplay name settings ⟨pair, ctr⟩ : ChatTask K X P Ref) := by
  intro s confined
  have asked := confined_getReplayWindow apart confined settings.replayWindow
  simp only [checkReplay, alone_bind, alone_read, alone_update, Option.bind_some]
  split
  · split
    · refine completes_bind (confined_check _ _ _) (fun fresh => ?_) _ asked
      split
      · exact completes_pure _
      · exact completes_throw _
    · exact ⟨_, _, rfl, asked⟩
  · exact ⟨_, _, rfl, asked⟩

theorem confined_openChecked (crypto : WebCrypto K) (ctr : ℕ) (window : Ref) (sealedBytes : Bytes)
    (key : SFrameKey K) : Completes (Confined settings pair other held)
      (openChecked crypto settings ⟨pair, ctr⟩ window sealedBytes key : ChatTask K X P Bytes) := by
  apply completes_bind (completes_promised _ _)
  intro plaintext
  refine completes_updated (fun _ => ?_) fun s confined =>
    ⟨confined.resting, confined.settings, confined.kept, confined.windows, confined.clearing⟩
  apply completes_read
  intro s
  split
  · apply completes_bind (confined_accept apart _ _)
    intro _
    exact completes_pure _
  · exact completes_pure _

theorem confined_recordAccept (ctr : ℕ) :
    Completes (Confined settings pair other held) (recordAccept pair ctr : ChatTask K X P (Option Bytes)) := by
  apply completes_bind (confined_accept apart _ _)
  intro _
  exact completes_pure _

end Kept

theorem confined_dropReplayWindows (rooms : pair.roomId ≠ other.roomId)
    (confined : Confined settings pair other held s) :
    Confined settings pair other held (s.dropReplayWindows settings pair.roomId) where
  resting := confined.resting
  settings := confined.settings
  kept := confined.kept
  windows _ _ senderUid there := by
    simp [ProviderState.windowOf, ProviderState.dropReplayWindows] at there
  clearing some member := by
    rcases ProviderState.mem_dropReplayWindows.mp member with earlier | ⟨-, senderUid, there, same⟩
    · exact confined.clearing some earlier
    · exact confined.windows rooms some senderUid there same

/-- A clear deletes what is stored under its own name. -/
theorem confined_settleStarted {key : String} {s' : ProviderState K X} {outcome : Except JsError (Option Bytes)}
    (confined : Confined settings pair other held s)
    (ran : alone (settleStarted key : ChatTask K X P (Option Bytes)) s = some (outcome, s')) :
    Confined settings pair other held s' := by
  by_cases started : key ∈ s.clearing
  · obtain ⟨o', cleared, rests, same, stores⟩ := clear_ends confined.resting key
    have ends : s' = { s with clearing := s.clearing.erase key, origin := o' } := by
      simp [settleStarted, settleClear, started, alone_onGuard, cleared] at ran
      exact ran.2.symm
    subst ends
    refine ⟨rests, same.trans confined.settings, ?_, confined.windows, fun some member =>
      confined.clearing some (List.mem_of_mem_erase member)⟩
    have still := confined.kept
    refine (kept_congr same ?_).trans still
    rcases stores ((s.origin.tabs ()).storeKey (durableKey other)) with stored | ⟨own, none⟩
    · exact stored
    · by_cases some : held = []
      · rw [none, still, some]
      · rw [← storeKey_injective _ own] at started
        exact absurd started (confined.clearing some)
  · simp [settleStarted, settleClear, started] at ran

/-! ## Isolation -/

/-- What a provider offers for one conversation: an acceptance, the drop of its room
where that is not the room of the second one, and the clears of what was started.
All of it keeps the second one confined where the two have names of their own. -/
structure Concerns (settings : ReplaySettings) (pair other : SealContext)
    (on : ChatTask K X P (Option Bytes) → Prop) : Prop where
  confined : ((settings.durable.getD ("", 0)).2 ≠ 0 → durableKey pair ≠ durableKey other) → ∀ task, on task →
    ∀ held s outcome s', Confined settings pair other held s → alone task s = some (outcome, s') →
      Confined settings pair other held s'
  accepts : ∀ ctr, on (recordAccept pair ctr)
  drops : pair.roomId ≠ other.roomId → ∃ task, on task ∧ ∀ s, ∃ own,
    alone task s = some (.ok none, ({ s with own } : ProviderState K X).dropReplayWindows settings pair.roomId)
  settles : ∀ key, on (settleStarted key)

section Isolation
variable {on : ChatTask K X P (Option Bytes) → Prop} (concerns : Concerns settings pair other on)
include concerns

theorem confined_performs (apart : (settings.durable.getD ("", 0)).2 ≠ 0 → durableKey pair ≠ durableKey other)
    {history : List (ChatTask K X P (Option Bytes))} {s' : ProviderState K X}
    (confined : Confined settings pair other held s) (made : ∀ task ∈ history, on task)
    (ran : performs history s = some s') : Confined settings pair other held s' := by
  induction history generalizing s with
  | nil =>
    cases ran
    exact confined
  | cons task rest ih =>
    obtain ⟨⟨outcome, middle⟩, one, onward⟩ := Option.bind_eq_some_iff.mp ran
    have next := concerns.confined apart task (made task List.mem_cons_self) held s outcome middle confined one
    exact ih next (fun task member => made task (List.mem_cons_of_mem _ member)) onward

variable (idle : Idle settings s)
include idle

/-- An acceptance under a shared name is an acceptance of both. -/
theorem not_isolated_of_shared (positive : (s.origin.tabs ()).window ≠ 0)
    (shared : durableKey pair = durableKey other) :
    ¬ Isolated on s other := by
  intro isolated
  obtain ⟨ctr, fresh⟩ := Infinite.exists_notMem_finset (kept s other).toFinset
  rw [List.mem_toFinset] at fresh
  obtain ⟨o', ran, rests, same, stores⟩ := solo_accept idle.resting positive (durableKey pair) ctr
  have ends : performs [(recordAccept pair ctr : ChatTask K X P (Option Bytes))] s = some { s with origin := o' } := by
    simp [performs, recordAccept, alone_onGuard, ran]
  have never := isolated _ (by simpa using concerns.accepts ctr) _ ends ctr
  have named : (o'.tabs ()).storeKey (durableKey other) = (s.origin.tabs ()).storeKey (durableKey other) :=
    storeKey_congr same _
  have recorded : ctr ∈ kept { s with origin := o' } other := by
    change ctr ∈ stored o' ((o'.tabs ()).storeKey (durableKey other))
    rw [named, stores, ← shared, if_pos ⟨rfl, shared ▸ fresh⟩]
    exact Recency.mem_rtake_concat positive
  rw [answer_eq rests (by rw [show (o'.tabs ()).window = _ from congrArg (·.2.2) same]; exact positive),
    answer_eq idle.resting positive] at never
  simp [recorded, fresh] at never

/-- A sender of the first room takes along what is stored under its name. -/
theorem not_isolated_of_dropped (positive : (s.origin.tabs ()).window ≠ 0) (rooms : pair.roomId ≠ other.roomId)
    (some : kept s other ≠ []) {senderUid : String} (there : (s.windowOf ⟨pair.roomId, senderUid⟩).isSome)
    (shared : durableKey ⟨pair.roomId, senderUid⟩ = durableKey other) : ¬ Isolated on s other := by
  intro isolated
  obtain ⟨ctr, member⟩ := List.exists_mem_of_ne_nil _ some
  obtain ⟨drop, made, drops⟩ := concerns.drops rooms
  obtain ⟨own, dropped⟩ := drops s
  let fullKey := (s.origin.tabs ()).storeKey (durableKey other)
  generalize after : ({ s with own } : ProviderState K X).dropReplayWindows settings pair.roomId = d at dropped
  have origin : d.origin = s.origin := by
    rw [← after]
    rfl
  have started : durableKey other ∈ d.clearing := by
    rw [← after]
    exact ProviderState.mem_dropReplayWindows.mpr
      (.inr ⟨ProviderState.durableAvailable_of_positive idle.settings positive, senderUid, there, shared⟩)
  have clears : (clear () (durableKey other)).solo d.origin = Option.some ((), cleared s.origin () fullKey) := by
    rw [origin, solo_clear idle.resting positive]
  have ends : performs [drop, settleStarted (durableKey other)] s = Option.some
      { d with clearing := d.clearing.erase (durableKey other), origin := cleared s.origin () fullKey } := by
    simp [performs, settleStarted, settleClear, dropped, started, alone_onGuard, clears]
  have never := isolated _ (by simp [made, concerns.settles]) _ ends ctr
  have settings : ((cleared s.origin () fullKey).tabs ()).settings = (s.origin.tabs ()).settings := by
    rw [cleared, Origin.forget, atTab_tabs]
    rfl
  have none : kept { d with clearing := d.clearing.erase (durableKey other), origin := cleared s.origin () fullKey }
      other = [] := by
    change stored (cleared s.origin () fullKey) (((cleared s.origin () fullKey).tabs ()).storeKey (durableKey other)) =
      []
    rw [storeKey_congr settings, stored_cleared, if_pos rfl]
  rw [answer_eq (cleared_resting idle.resting fullKey)
      (by rw [show ((cleared s.origin () fullKey).tabs ()).window = _ from congrArg (·.2.2) settings]; exact positive),
    answer_eq idle.resting positive, none] at never
  simp [member] at never

/-- What a conversation's calls do to the answers for another one. -/
theorem isolated_iff : Isolated on s other ↔ ((s.origin.tabs ()).window ≠ 0 → Apart s pair other) := by
  have window : (s.origin.tabs ()).window = (settings.durable.getD ("", 0)).2 := congrArg (·.2.2) idle.settings
  constructor
  · intro isolated positive
    refine ⟨fun shared => not_isolated_of_shared concerns idle positive shared isolated,
      fun rooms some senderUid there shared => ?_⟩
    exact not_isolated_of_dropped concerns idle positive rooms some there shared isolated
  · intro apart history made s' ran ctr
    have confined : Confined settings pair other (kept s other) s := {
      resting := idle.resting
      settings := idle.settings
      kept := rfl
      windows := fun rooms some =>
        (apart fun disabled => some (kept_disabled idle.resting disabled)).2 rooms some
      clearing := fun _ member => by
        rw [idle.clearing] at member
        cases member }
    rw [window] at apart
    have still := confined_performs concerns (fun positive => (apart positive).1) confined made ran
    have window' : (s'.origin.tabs ()).window = (settings.durable.getD ("", 0)).2 := congrArg (·.2.2) still.settings
    by_cases positive : (settings.durable.getD ("", 0)).2 = 0
    · simp [answer, check, window, window', positive]
    · rw [answer_eq still.resting (by rwa [window']), answer_eq idle.resting (by rwa [window]), still.kept]

end Isolation

/-- Rooms without a bar are told apart by the names of their conversations. -/
theorem durableKey_injective_of_barless (barless : '|' ∉ pair.roomId.toList) (barless' : '|' ∉ other.roomId.toList)
    (same : durableKey pair = durableKey other) : pair = other := by
  have lists : pair.roomId.toList ++ '|' :: pair.senderUid.toList =
      other.roomId.toList ++ '|' :: other.senderUid.toList := by
    have lists := congrArg String.toList same
    simpa [durableKey, toString] using lists
  have front {room sender : List Char} (barless : '|' ∉ room) :
      (room ++ '|' :: sender).takeWhile (· ≠ '|') = room := by
    rw [List.takeWhile_append_of_pos]
    · simp
    · intro letter member
      rw [decide_eq_true_eq]
      rintro rfl
      exact barless member
  have rooms : pair.roomId.toList = other.roomId.toList := by
    rw [← front barless, lists, front barless']
  rw [rooms, List.append_cancel_left_eq, List.cons.injEq] at lists
  obtain ⟨roomId, senderUid⟩ := pair
  obtain ⟨roomId', senderUid'⟩ := other
  rw [SealContext.mk.injEq]
  exact ⟨String.toList_inj.mp rooms, String.toList_inj.mp lists.2⟩

/-- Conversations of such rooms are apart. -/
theorem apart_of_barless (barless : '|' ∉ pair.roomId.toList) (barless' : '|' ∉ other.roomId.toList)
    (distinct : pair ≠ other) : Apart s pair other := by
  constructor
  · intro same
    exact distinct (durableKey_injective_of_barless barless barless' same)
  · intro rooms _ senderUid _ same
    have whole : SealContext.mk pair.roomId senderUid = other := durableKey_injective_of_barless barless barless' same
    exact rooms (congrArg (·.roomId) whole)

end Providers

/-! ## The two providers -/

section Chat
variable {K B : Type} (runtime : ChatRuntime K B) (settings : ReplaySettings) (pair other : SealContext)

/-- The calls on a conversation that are not on another one too; a rotation is on
every conversation of its room. -/
inductive ChatOn : ChatCallTask K (Option Bytes) → Prop
  | accept (ctr : ℕ) : ChatOn (recordAccept pair ctr)
  | seal_ (plaintext : Bytes) : ChatOn ((ChatCall.seal_ plaintext pair).program runtime settings)
  | unseal_ (sealedBytes : Bytes) : ChatOn ((ChatCall.unseal_ sealedBytes pair).program runtime settings)
  | rotate (rooms : pair.roomId ≠ other.roomId) : ChatOn ((ChatCall.rotate pair.roomId).program runtime settings)
  | settleClear (key : String) : ChatOn ((ChatCall.settleClear key).program runtime settings)

theorem chat_concerns : Concerns settings pair other (ChatOn runtime settings pair other) where
  accepts := .accept
  settles := .settleClear
  drops rooms := ⟨_, .rotate rooms, fun s => ⟨_, rfl⟩⟩
  confined apart task on held s outcome s' confined ran := by
    have ends (completes : Completes (Confined settings pair other held) task) :
        Confined settings pair other held s' := by
      obtain ⟨outcome, last, done, still⟩ := completes s confined
      rw [done] at ran
      cases ran
      exact still
    have untouched : ∀ (s : ChatProvider K) own, Confined settings pair other held s →
        Confined settings pair other held { s with own } := fun _ own now => confined_own own now
    cases on with
    | accept ctr => exact ends (confined_recordAccept apart ctr)
    | seal_ plaintext =>
      exact ends (completes_bind (ChatClearing.seal_completes untouched runtime plaintext pair) fun _ =>
        completes_pure _)
    | unseal_ sealedBytes =>
      apply ends
      refine completes_bind ?_ fun _ => completes_pure _
      apply completes_bind (ChatClearing.senderKey_completes untouched runtime pair _)
      rintro ⟨key, use⟩
      cases parsed : Header.parseHeader sealedBytes with
      | error refused =>
        rw [slotOf, parsed]
        exact completes_throw _
      | ok hdr =>
        rw [slotOf, parsed]
        apply completes_bind (confined_checkReplay apart _ hdr.ctr)
        intro window
        exact completes_updated (fun _ => confined_openChecked apart _ _ _ _ _) fun _ now => confined_own _ now
    | rotate rooms =>
      cases ran
      exact confined_dropReplayWindows rooms (confined_own _ confined)
    | settleClear key => exact confined_settleStarted confined ran

end Chat

section Mls
variable {K : Type} (runtime : MlsChat.MlsRuntime K) (settings : ReplaySettings) (pair other : SealContext)
open MlsChat

/-- The calls on a conversation that are not on another one too. -/
inductive MlsOn : MlsTask K (Option Bytes) → Prop
  | accept (ctr : ℕ) : MlsOn (recordAccept pair ctr)
  | seal_ (plaintext : Bytes) : MlsOn ((MlsCall.seal_ plaintext pair).program runtime settings)
  | unseal_ (sealedBytes : Bytes) : MlsOn ((MlsCall.unseal_ sealedBytes pair).program runtime settings)
  | setEpoch (rooms : pair.roomId ≠ other.roomId) (params : MlsEpochParams) :
      MlsOn ((MlsCall.setEpoch pair.roomId params).program runtime settings)
  | clearEpoch (rooms : pair.roomId ≠ other.roomId) : MlsOn ((MlsCall.clearEpoch pair.roomId).program runtime settings)
  | settleClear (key : String) : MlsOn ((MlsCall.settleClear key).program runtime settings)

theorem mls_concerns : Concerns settings pair other (MlsOn runtime settings pair other) where
  accepts := .accept
  settles := .settleClear
  drops rooms := ⟨_, .clearEpoch rooms, fun s => ⟨_, rfl⟩⟩
  confined apart task on held s outcome s' confined ran := by
    have ends (completes : Completes (Confined settings pair other held) task) :
        Confined settings pair other held s' := by
      obtain ⟨outcome, last, done, still⟩ := completes s confined
      rw [done] at ran
      cases ran
      exact still
    have untouched : ∀ (s : MlsProvider K) own, Confined settings pair other held s →
        Confined settings pair other held { s with own } := fun _ own now => confined_own own now
    cases on with
    | accept ctr => exact ends (confined_recordAccept apart ctr)
    | seal_ plaintext =>
      apply ends
      refine completes_bind ?_ fun _ => completes_pure _
      apply completes_read
      intro s
      apply completes_bind (completes_settle _)
      intro use
      refine completes_updated (fun _ => ?_) fun _ now => untouched _ _ now
      apply completes_bind (completes_promised _ _)
      intro ctr
      exact completes_updated (fun _ => completes_promised _ _) fun _ now => untouched _ _ now
    | unseal_ sealedBytes =>
      apply ends
      refine completes_bind ?_ fun _ => completes_pure _
      apply completes_read
      intro s
      apply completes_bind (completes_settle _)
      rintro ⟨peerId, key, ctr⟩
      apply completes_bind (confined_checkReplay apart _ ctr)
      intro window
      exact confined_openChecked apart _ _ _ _ _
    | setEpoch rooms params =>
      apply ends
      refine completes_bind ?_ fun _ => completes_pure _
      unfold MlsChat.setEpoch
      dsimp only
      split
      · exact completes_throw _
      · apply completes_bind (completes_promised _ _)
        intro roomState s now
        exact ⟨_, _, rfl, confined_dropReplayWindows rooms (confined_own _ now)⟩
    | clearEpoch rooms =>
      cases ran
      exact confined_dropReplayWindows rooms (confined_own _ confined)
    | settleClear key => exact confined_settleStarted confined ran

end Mls

/-- Calls on one conversation leave the guard's answers for another one alone, in
either provider, exactly if the two have durable keys of their own, and so has the
other one and every sender whose window goes with the room of the first. -/
theorem conversations_isolated_iff {K B M : Type} (chat : ChatRuntime K B) (mls : MlsChat.MlsRuntime M)
    (settings : ReplaySettings) (pair other : SealContext) :
    (∀ s : ChatProvider K, Idle settings s → (Isolated (ChatOn chat settings pair other) s other ↔
        ((s.origin.tabs ()).window ≠ 0 → Apart s pair other))) ∧
      ∀ s : MlsChat.MlsProvider M, Idle settings s → (Isolated (MlsOn mls settings pair other) s other ↔
        ((s.origin.tabs ()).window ≠ 0 → Apart s pair other)) :=
  ⟨fun _ idle => isolated_iff (chat_concerns chat settings pair other) idle,
    fun _ idle => isolated_iff (mls_concerns mls settings pair other) idle⟩

section Checked
open ChatSpecimen (settings ann)

/-- A provider that has just been constructed is idle. -/
theorem idle_create {K X : Type} (own : X) : Idle settings (.create settings own ∅ : ProviderState K X) where
  resting := (ChatClearing.guarded_create (K := Bytes) settings).resting
  settings := rfl
  clearing := rfl

theorem ann_isolated : Isolated (ChatOn ChatSpecimen.runtime settings ann ⟨"hall", "ann"⟩)
      (ChatSpecimen.provider settings) ⟨"hall", "ann"⟩ ∧
    Isolated (MlsOn MlsSpecimen.runtime settings ann ⟨"hall", "ann"⟩)
      (.create settings {} ∅ : MlsChat.MlsProvider Bytes) ⟨"hall", "ann"⟩ := by
  have both := conversations_isolated_iff ChatSpecimen.runtime MlsSpecimen.runtime settings ann ⟨"hall", "ann"⟩
  exact ⟨(both.1 _ (idle_create _)).mpr fun _ => apart_of_barless (by decide) (by decide) (by decide),
    (both.2 _ (idle_create _)).mpr fun _ => apart_of_barless (by decide) (by decide) (by decide)⟩

/-- Two conversations whose rooms and senders differ. -/
def barred : SealContext := ⟨"a|b", "c"⟩
def barring : SealContext := ⟨"a", "b|c"⟩

/-- What is sent in the first of them. -/
def barredMail : Bytes :=
  match alone (seal_ ChatSpecimen.runtime [104, 105] barred) (ChatSpecimen.provider settings) with
  | some (.ok sealedBytes, _) => sealedBytes
  | _ => []

/-- Once it is received, its counter is taken in the other one. -/
theorem received_in_both : ¬ ∀ s : ChatProvider Bytes, Idle settings s → ∀ pair other, pair ≠ other →
    Isolated (ChatOn ChatSpecimen.runtime settings pair other) s other := by
  intro isolated
  have result : (performs [(ChatCall.unseal_ barredMail barred).program ChatSpecimen.runtime settings]
      (ChatSpecimen.provider settings)).map (fun s =>
        (answer s barring 0, answer (ChatSpecimen.provider settings) barring 0)) = some (some false, some true) := by
    decide +kernel
  obtain ⟨s, ran, shape⟩ := Option.map_eq_some_iff.mp result
  simp only [Prod.mk.injEq] at shape
  have never := isolated _ (idle_create _) barred barring (by decide) _ (by simpa using .unseal_ _) s ran 0
  cases shape.1.symm.trans (never.trans shape.2)

end Checked
end SFrameRatchet.ChatIsolation
