import Mathlib.Tactic.FinCases
import SFrameRatchet.ChatSpecimen

/-! Rotation and the keys of later calls. A rotation empties the room's cache, but a
derivation that is under way then puts its key into the cache afterwards. As long
as no derivation does so, what is cached for a room was derived from a base key
that was returned after the last rotation, and a call uses no older one. -/
namespace SFrameRatchet.ChatRotation
open BigEndian Collections Coroutine Throwing Interleaving Crypto DurableReplay Chat

variable {K B : Type}

/-- What is cached for a room has been derived since its last rotation. -/
def CacheCurrent (s : ChatState K) : Prop :=
  ∀ room uid keys, s.keyCache.get room uid = some keys → keys.rotations = s.rotations room

/-- A call uses a key whose base key was returned after every rotation that came
before the call. -/
def UsesCurrent (s : ChatState K) : Prop := ∀ use ∈ s.uses, use.began ≤ use.derived

/-- What a derivation puts into the cache is not older than the last rotation. -/
def StoresCurrent : ChatSite ChatPlace → ChatProvider K → Prop
  | .own (.derivingBits roomId rotations), s => s.own.rotations roomId = rotations
  | _, _ => True

instance (site : ChatSite ChatPlace) (s : ChatProvider K) : Decidable (StoresCurrent site s) :=
  match site with
  | .own (.derivingBits roomId rotations) => inferInstanceAs (Decidable (s.own.rotations roomId = rotations))
  | .own (.asking ..) | .own (.answered ..) | .own .digesting | .own .derivingKey | .own .derived
  | .own (.indexing _) | .own .allocating | .own .sealing | .start | .checking .. | .opening .. | .recording ..
  | .clears _ | .clearing _ => isTrue trivial

/-! ## Steps -/

structure Current (s : ChatState K) : Prop where
  cache : CacheCurrent s
  uses : UsesCurrent s

/-- The rotations that a call has found when it began, while it still asks for its
base key. -/
def begun : ChatSite ChatPlace → Option (String × ℕ)
  | .own (.asking roomId began) | .own (.answered roomId began) => some (roomId, began)
  | _ => none

/-- No rotation is taken back. -/
def Fits (s : ChatState K) (site : ChatSite ChatPlace) : Prop :=
  ∀ roomId began, begun site = some (roomId, began) → began ≤ s.rotations roomId

def Grows (s s' : ChatState K) : Prop := ∀ roomId, s.rotations roomId ≤ s'.rotations roomId

/-- A call is resumed where the keys are current, and leaves them so. -/
def rotating : Contract (ChatSite ChatPlace) (ChatProvider K) where
  assume site s := Current s.own ∧ Fits s.own site ∧ StoresCurrent site s
  moves _ start next s := Current s.own ∧ Grows start.own s.own ∧ Fits s.own next

/-- What a call keeps from one wait to the next. -/
def Keeping (_ : ChatSite ChatPlace) (start s : ChatProvider K) : Prop := Current s.own ∧ Grows start.own s.own

section Calls
variable {at_ site : ChatSite ChatPlace} {start s : ChatProvider K} {α : Type}

theorem keeping_resumed (resumed : rotating.assume site s) : Keeping site s s := ⟨resumed.1, fun _ => le_rfl⟩

theorem survives (idle : begun site = none) : Survives (rotating (K := K)) Keeping site := by
  intro at_ start s now
  refine ⟨⟨now.1, now.2, fun roomId began asks => ?_⟩, fun later resumed => keeping_resumed resumed⟩
  rw [idle] at asks
  cases asks

theorem promised_keeps {outcome : Except JsError α} (idle : begun site = none) (now : Keeping at_ start s) :
    Yields rotating Keeping (promised site outcome) (fun _ => True) at_ start s := by
  apply yields_bind (yields_pause (survives idle) now)
  intro _ _ _ _ now _
  exact yields_settle now fun _ _ => trivial

theorem onGuard_keeps {place : GuardSite Unit → ChatSite ChatPlace} (idle : ∀ here, begun (place here) = none)
    (task : Task Unit α) (now : Keeping at_ start s) :
    Yields rotating Keeping (onGuard place task) (fun _ => True) at_ start s := by
  apply meets_onGuard (fun here => survives (idle here))
  · intro _ _ _ _ now
    exact now
  · exact now
  · intro _ _ _ _ now
    exact ⟨now, trivial⟩

/-- A change of anything but the cache, the rotations and the uses. -/
theorem keeping_of {s' : ChatProvider K} (now : Keeping at_ start s) (cache : s'.own.keyCache = s.own.keyCache)
    (rotated : s'.own.rotated = s.own.rotated) (uses : s'.own.uses = s.own.uses) : Keeping at_ start s' := by
  obtain ⟨⟨current, used⟩, grows⟩ := now
  refine ⟨⟨?_, ?_⟩, ?_⟩
  · simpa only [CacheCurrent, ChatState.rotations, cache, rotated] using current
  · simpa only [UsesCurrent, uses] using used
  · simpa only [Grows, ChatState.rotations, rotated] using grows

/-- A key that is taken from the cache or derived is not older than the call's
base key. -/
theorem deriveAesKeyAndSalt_keeps (runtime : ChatRuntime K B) (userKey : B) {rotations began : ℕ}
    {context : SealContext} (now : Keeping at_ start s) (known : began ≤ s.own.rotations context.roomId)
    (answered : began ≤ rotations) :
    Yields rotating Keeping (deriveAesKeyAndSalt runtime userKey rotations context)
      (fun keys => began ≤ keys.rotations) at_ start s := by
  apply yields_read
  cases held : s.own.keyCache.get context.roomId context.senderUid with
  | some cached =>
    exact ⟨now, known.trans (now.1.cache _ _ _ held).ge⟩
  | none =>
    apply yields_bind (yields_pause (survives rfl) now)
    intro _ _ _ _ now _
    apply yields_bind (promised_keeps rfl now)
    intro _ _ aesCryptoKey _ now _
    apply meets_bind.mpr
    apply meets_promised.mpr
    refine ⟨⟨now.1, now.2, nofun⟩, fun later resumed => ?_⟩
    cases runtime.deriveBits userKey (runtime.digest (textEncode context.roomId)) (infoSalt context.senderUid)
        (12 * 8) with
    | error refused => exact keeping_resumed resumed
    | ok salt =>
      refine ⟨⟨⟨fun room uid keys found => ?_, resumed.1.uses⟩, fun _ => le_rfl⟩, answered⟩
      rcases KeyDerivationCache.get_set found with ⟨rfl, -, rfl⟩ | earlier
      · exact resumed.2.2.symm
      · exact resumed.1.cache room uid keys earlier

theorem senderKey_keeps (runtime : ChatRuntime K B) (context : SealContext) (slot : Option Slot)
    (now : Keeping at_ start s) :
    Yields rotating Keeping (senderKey runtime context slot) (fun result => result.2.began ≤ result.2.derived)
      at_ start s := by
  apply yields_read
  dsimp only
  generalize start_ : s.own.rotations context.roomId = began
  apply meets_bind.mpr
  apply meets_pause.mpr
  constructor
  · refine ⟨now.1, now.2, fun roomId other asks => ?_⟩
    cases asks
    exact start_.ge
  · intro asked resumed
    have sofar : began ≤ asked.own.rotations context.roomId := resumed.2.1 _ _ rfl
    apply yields_read
    apply meets_bind.mpr
    apply meets_update.mpr
    apply meets_bind.mpr
    apply meets_promised.mpr
    constructor
    · refine ⟨⟨resumed.1.cache, resumed.1.uses⟩, fun _ => le_rfl, fun roomId other asks => ?_⟩
      cases asks
      exact sofar
    · intro later resumed
      cases runtime.getKey context.roomId asked.own.answered with
      | error refused => exact keeping_resumed resumed
      | ok userKey =>
        have known : began ≤ later.own.rotations context.roomId := resumed.2.1 _ _ rfl
        dsimp only
        split
        · apply yields_bind (deriveAesKeyAndSalt_keeps runtime userKey (keeping_resumed resumed) known sofar)
          intro _ _ keys _ now fresh
          apply yields_bind (yields_pause (survives rfl) now)
          intro _ _ _ _ now _
          apply yields_bind (yields_pause (survives rfl) now)
          intro _ _ _ _ now _
          apply yields_bind (yields_settle now fun _ _ => trivial)
          intro _ _ kid _ now _
          exact ⟨now, fresh⟩
        · exact keeping_resumed resumed

theorem noteUse_keeps {use : KeyUse} (fresh : use.began ≤ use.derived) (now : Keeping at_ start s) :
    Yields rotating Keeping (noteUse use) (fun _ => True) at_ start s := by
  apply yields_update
  refine ⟨⟨now.1.cache, fun other member => ?_⟩, now.2⟩
  rcases List.mem_append.mp member with earlier | last
  · exact now.1.uses other earlier
  · rw [List.mem_singleton.mp last]
    exact fresh

theorem seal_keeps (runtime : ChatRuntime K B) (plaintext : Bytes) (context : SealContext)
    (now : Keeping at_ start s) :
    Yields rotating Keeping (seal_ runtime plaintext context) (fun _ => True) at_ start s := by
  apply yields_bind (senderKey_keeps runtime context none now)
  intro _ _ result _ now fresh
  apply yields_read
  apply yields_bind (yields_update (keeping_of now rfl rfl rfl))
  intro _ _ _ _ now _
  apply yields_bind (promised_keeps rfl now)
  intro _ _ _ _ now _
  apply yields_bind (noteUse_keeps fresh now)
  intro _ _ _ _ now _
  exact promised_keeps rfl now

theorem checkReplay_keeps (settings : ReplaySettings) (slot : Slot) (now : Keeping at_ start s) :
    Yields rotating Keeping (checkReplay "sframe-chat" settings slot) (fun _ => True) at_ start s := by
  have same := s.getReplayWindow_own slot.context settings.replayWindow
  apply yields_read
  generalize s.getReplayWindow slot.context settings.replayWindow = got at same
  obtain ⟨window, found⟩ := got
  dsimp only at same ⊢
  have now : Keeping at_ start found := keeping_of now (by rw [same]) (by rw [same]) (by rw [same])
  apply yields_bind (yields_update now)
  intro _ _ _ _ now _
  split
  · split
    · apply yields_bind (onGuard_keeps (fun _ => rfl) _ now)
      intro _ _ fresh _ now _
      split
      · exact ⟨now, trivial⟩
      · exact now
    · exact ⟨now, trivial⟩
  · exact now

theorem openChecked_keeps (crypto : WebCrypto K) (settings : ReplaySettings) (slot : Slot) (window : Ref)
    (sealedBytes : Bytes) (key : SFrameKey K) (now : Keeping at_ start s) :
    Yields rotating Keeping (openChecked crypto settings slot window sealedBytes key) (fun _ => True) at_ start s := by
  apply yields_bind (promised_keeps rfl now)
  intro _ _ _ _ now _
  apply yields_bind (yields_update (keeping_of now rfl rfl rfl))
  intro _ _ _ _ now _
  apply yields_read
  split
  · apply yields_bind (onGuard_keeps (fun _ => rfl) _ now)
    intro _ _ _ _ now _
    exact ⟨now, trivial⟩
  · exact ⟨now, trivial⟩

theorem unseal_keeps (runtime : ChatRuntime K B) (settings : ReplaySettings) (sealedBytes : Bytes)
    (context : SealContext) (now : Keeping at_ start s) :
    Yields rotating Keeping (unseal_ runtime settings sealedBytes context) (fun _ => True) at_ start s := by
  apply yields_bind (senderKey_keeps runtime context _ now)
  intro _ _ result _ now fresh
  apply yields_bind (yields_settle now fun _ _ => trivial)
  intro _ _ slot _ now _
  apply yields_bind (checkReplay_keeps settings slot now)
  intro _ _ window _ now _
  apply yields_bind (noteUse_keeps fresh now)
  intro _ _ _ _ now _
  exact openChecked_keeps runtime.crypto settings slot window sealedBytes _ now

/-- A rotation leaves nothing cached for its room. -/
theorem rotate_keeps (settings : ReplaySettings) (roomId : String) (now : Keeping at_ start s) :
    Keeping at_ start (rotate settings s roomId) := by
  have count (room : String) : (rotate settings s roomId).own.rotations room =
      s.own.rotations room + if room = roomId then 1 else 0 := by
    change (s.own.rotated ++ [roomId]).count room = s.own.rotated.count room + _
    rw [List.count_append, List.count_singleton]
    by_cases own : room = roomId
    · simp [own]
    · simp [own, Ne.symm own]
  refine ⟨⟨fun room uid keys found => ?_, now.1.uses⟩, fun room => ?_⟩
  · change (s.own.keyCache.evictRoom roomId).get room uid = some keys at found
    rw [KeyDerivationCache.get_evictRoom] at found
    split at found
    · cases found
    · rename_i other
      rw [count, if_neg other]
      exact now.1.cache room uid keys found
  · rw [count]
    exact (now.2 room).trans (Nat.le_add_right _ _)

theorem settleClear_keeps (key : String) (now : Keeping at_ start s) :
    Yields rotating Keeping (settleClear key) (fun _ => True) at_ start s := by
  apply yields_bind (yields_pauseUntil (survives rfl) _ now)
  intro _ _ _ _ now _
  apply yields_bind (yields_update (keeping_of now rfl rfl rfl))
  intro _ _ _ _ now _
  exact onGuard_keeps (fun _ => rfl) _ now

/-- Every call keeps the keys current. -/
theorem program_keeps (runtime : ChatRuntime K B) (settings : ReplaySettings) (call : ChatCall)
    (now : Keeping .start s s) :
    Yields rotating Keeping (call.program runtime settings) (fun _ => True) .start s s := by
  cases call with
  | seal_ plaintext context =>
    apply yields_bind (seal_keeps runtime plaintext context now)
    intro _ _ _ _ now _
    exact ⟨now, trivial⟩
  | unseal_ sealedBytes context =>
    apply yields_bind (unseal_keeps runtime settings sealedBytes context now)
    intro _ _ _ _ now _
    exact ⟨now, trivial⟩
  | rotate roomId =>
    apply yields_bind (yields_update (rotate_keeps settings roomId now))
    intro _ _ _ _ now _
    exact ⟨now, trivial⟩
  | settleClear key =>
    apply yields_bind (settleClear_keeps key now)
    intro _ _ _ _ now _
    exact ⟨now, trivial⟩

end Calls

/-! ## Runs -/

/-- The gate of the runs in which no derivation stores a key that a rotation has
made old. -/
def storesCurrent {ι : Type} : ChatPool ι K → ι → ChatPool ι K → Prop := whereAllowed StoresCurrent

instance {ι : Type} (before : ChatPool ι K) (call : ι) (after : ChatPool ι K) :
    Decidable (storesCurrent before call after) :=
  inferInstanceAs (Decidable (whereAllowed StoresCurrent before call after))

/-- The keys are current, and no call has seen a rotation that is yet to come. -/
structure Ordered {ι : Type} (s : ChatProvider K)
    (statuses : ι → Status (ChatSite ChatPlace) (Except JsError (Option Bytes))) : Prop where
  current : Current s.own
  fits : ∀ call site, statuses call = .suspended site → Fits s.own site

theorem current_create : Current ({} : ChatState K) where
  cache room uid keys found := by simp [KeyDerivationCache.get] at found
  uses use member := by cases member

/-- In every run in which no derivation comes to store its key after a rotation of
the room since its base key was returned, a call that begins after a rotation uses
a key whose base key was returned after it. -/
theorem rotation_takes_effect {ι : Type} [DecidableEq ι] (runtime : ChatRuntime K B) (settings : ReplaySettings)
    (store : OrderedMap String (List ℕ)) (calls : ι → ChatCall) {last : ChatPool ι K}
    (run : Runs storesCurrent (launch runtime settings (.create settings {} store) calls) last) :
    UsesCurrent last.shared.own := by
  have ordered : Ordered last.shared last.statuses := by
    refine runs_invariant (fun _ => rotating) (fun _ _ start _ s => Current s.own ∧ Grows start.own s.own) Ordered
      ⟨current_create, ?_⟩ (launch_follows fun call s resumed => ?_)
      (fun before call site after ordered waits _ passes =>
        ⟨ordered.current, ordered.fits call site waits, passes site waits⟩)
      (fun before call site after ordered waits _ _ moved => ?_) run
    · intro call site waits
      cases waits
      exact nofun
    · apply Contract.keeps_mono (program_keeps runtime settings (calls call) ⟨resumed.1, fun _ => le_rfl⟩)
      intro _ _ outcome _ now
      cases outcome with
      | ok value => exact now.1
      | error refused => exact now
    · have grown (grows : Grows before.shared.own after.shared.own) (current : Current after.shared.own)
          (own : ∀ site, after.statuses call = .suspended site → Fits after.shared.own site) :
          Ordered after.shared (Function.update before.statuses call (after.statuses call)) := by
        refine ⟨current, fun other site waits => ?_⟩
        by_cases same : other = call
        · subst same
          rw [Function.update_self] at waits
          exact own site waits
        · rw [Function.update_of_ne same] at waits
          intro roomId began asks
          exact (ordered.fits other site waits roomId began asks).trans (grows roomId)
      generalize reached : after.statuses call = status at moved
      rw [reached] at grown
      cases status with
      | running => exact moved.elim
      | suspended next =>
        apply grown moved.2.1 moved.1
        intro site waits
        cases waits
        exact moved.2.2
      | finished outcome =>
        apply grown moved.2 moved.1
        intro site waits
        cases waits
  exact ordered.current.uses

section Checked
open ChatSpecimen (runtime memorySettings provider ann)

/-- A message is sealed, the room rotated, and another message sealed. -/
def around : Fin 3 → ChatCall
  | 0 => .seal_ [104, 105] ann
  | 1 => .rotate "room"
  | 2 => .seal_ [104, 111] ann

/-- A derivation that the rotation comes in the middle of leaves its key to a call
that begins after the rotation. -/
theorem old_key_outlives_rotation : ¬ ∀ last : ChatPool (Fin 3) Bytes,
    Runs anyTurn (launch runtime memorySettings (provider memorySettings) around) last →
      UsesCurrent last.shared.own := by
  intro current
  have result : ((launch runtime memorySettings (provider memorySettings) around).followPassing anyTurn
      [0, 0, 0, 0, 0, 1, 0, 0, 2, 2, 2, 2, 2, 2]).map (fun pool => pool.shared.own.uses) =
      some [{ roomId := "room", derived := 0, began := 1 }] := by
    decide +kernel
  obtain ⟨last, followed, uses⟩ := Option.map_eq_some_iff.mp result
  have fresh := current last (followPassing_runs followed) ⟨"room", 0, 1⟩
    (by rw [uses]; exact List.mem_singleton_self _)
  cases fresh

/-- The first message is sealed before the room is rotated. -/
theorem rotation_takes_effect_after_seal : ∃ last : ChatPool (Fin 3) Bytes,
    last.shared.own.uses = [{ roomId := "room", derived := 0, began := 0 },
      { roomId := "room", derived := 1, began := 1 }] ∧
      UsesCurrent last.shared.own := by
  have result : ((launch runtime memorySettings (provider memorySettings) around).followPassing storesCurrent
      ([0, 0, 0, 0, 0, 0, 0, 0, 0, 0, 1] ++ List.replicate 10 2)).map (fun pool => pool.shared.own.uses) =
      some [{ roomId := "room", derived := 0, began := 0 }, { roomId := "room", derived := 1, began := 1 }] := by
    decide +kernel
  obtain ⟨last, followed, uses⟩ := Option.map_eq_some_iff.mp result
  exact ⟨last, uses, rotation_takes_effect runtime memorySettings ∅ around (followPassing_runs followed)⟩

end Checked
end SFrameRatchet.ChatRotation
