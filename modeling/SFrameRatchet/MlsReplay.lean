import SFrameRatchet.ChatWindows
import SFrameRatchet.MlsSpecimen

/-! Replays around the epochs of a room. Whenever an epoch is set the windows of the
room are forgotten, as if its keys were new; a frame that was accepted before is
refused from then on only because its key is gone. -/
namespace SFrameRatchet.MlsReplay
open BigEndian Collections Coroutine Throwing Crypto DurableReplay Replay Recency Chat ChatWindows MlsChat
open SlidingReplayWindow (check_iff)

variable {K : Type}

/-- What happens to a room, one after the other: an epoch is set, a buffer is unsealed
and awaited, or a clear that was started goes on. -/
inductive RoomOperation where
  | setEpoch (params : MlsEpochParams)
  | unseal_ (sealedBytes : Bytes) (context : SealContext)
  | settleClear (key : String)

section History
variable (runtime : MlsRuntime K) (settings : ReplaySettings) (roomId : String)

def RoomOperation.call : RoomOperation → MlsCall
  | setEpoch params => .setEpoch roomId params
  | unseal_ sealedBytes context => .unseal_ sealedBytes context
  | settleClear key => .settleClear key

def RoomOperation.perform (operation : RoomOperation) (s : MlsProvider K) : Option (MlsProvider K) :=
  (alone ((operation.call roomId).program runtime settings) s).map Prod.snd

/-- The state after a history of operations. -/
def performAll : List RoomOperation → MlsProvider K → Option (MlsProvider K)
  | [], s => some s
  | operation :: rest, s => (operation.perform runtime settings roomId s).bind (performAll rest)

/-- An epoch brings back no key under which something has been accepted. -/
def BringsFreshKeys : RoomOperation → MlsProvider K → Prop
  | .setEpoch params, s =>
    match deriveRoomEpoch runtime params with
    | .ok roomState => ∀ acceptance ∈ s.accepted, acceptance.key ∉ roomState.keys.values
    | .error _ => True
  | _, _ => True

/-- No operation of a history does. -/
def BringsFreshKeysOnly : List RoomOperation → MlsProvider K → Prop
  | [], _ => True
  | operation :: rest, s => BringsFreshKeys runtime operation s ∧
    ∀ s' ∈ operation.perform runtime settings roomId s, BringsFreshKeysOnly rest s'

instance [DecidableEq K] (operation : RoomOperation) (s : MlsProvider K) :
    Decidable (BringsFreshKeys runtime operation s) := by
  cases operation with
  | setEpoch params =>
    dsimp only [BringsFreshKeys]
    cases deriveRoomEpoch runtime params <;> (dsimp only; infer_instance)
  | _ => exact isTrue trivial

instance decidableBringsFreshKeysOnly [DecidableEq K] : (history : List RoomOperation) → (s : MlsProvider K) →
    Decidable (BringsFreshKeysOnly runtime settings roomId history s)
  | [], _ => isTrue trivial
  | operation :: rest, s =>
    have := decidableBringsFreshKeysOnly rest
    inferInstanceAs (Decidable (_ ∧ ∀ s' ∈ operation.perform runtime settings roomId s, _))

end History

/-- The counters that have been accepted from a sender, oldest first. -/
def counters (log : List (Acceptance K)) (context : SealContext) : List ℕ :=
  (log.filter fun acceptance => acceptance.slot.context = context).map fun acceptance => acceptance.slot.ctr

/-- Between two acceptances of a counter under one key, as many others of the sender
are accepted as a window holds. -/
def ReplayProtected (windowSize : ℕ) (log : List (Acceptance K)) : Prop :=
  ∀ before first between second after, log = before ++ first :: (between ++ second :: after) →
    second.slot = first.slot → second.key = first.key →
      windowSize ≤ ((counters between first.slot.context).filter (· ≠ first.slot.ctr)).dedup.length

/-! ## Acceptances -/

section Acceptances
variable {windowSize : ℕ} {older current : List (Acceptance K)} {acceptance : Acceptance K}

theorem counters_append (log later : List (Acceptance K)) (context : SealContext) :
    counters (log ++ later) context = counters log context ++ counters later context := by
  simp [counters]

theorem counters_cons_own (first : Acceptance K) (log : List (Acceptance K)) :
    counters (first :: log) first.slot.context = first.slot.ctr :: counters log first.slot.context := by
  simp [counters]

/-- A key whose acceptances are all in the last part of the log is protected by the
window that this part went through. -/
theorem protected_concat (guarded : ReplayProtected windowSize (older ++ current))
    (past : ∀ earlier ∈ older, earlier.key ≠ acceptance.key)
    (spaced : Spaced windowSize (counters (current ++ [acceptance]) acceptance.slot.context)) :
    ReplayProtected windowSize (older ++ current ++ [acceptance]) := by
  intro before first between second after split slot key
  rcases List.eq_nil_or_concat after with rfl | ⟨earlier, last, rfl⟩
  · have parts : older ++ current ++ [acceptance] = before ++ first :: between ++ [second] := by simpa using split
    obtain ⟨logged, single⟩ := List.append_inj' parts rfl
    cases single
    have recent : ∃ rest, current = rest ++ first :: between := by
      rcases List.append_eq_append_iff.mp logged with ⟨rest, -, same⟩ | ⟨rest, same, onward⟩
      · exact ⟨rest, same⟩
      · cases rest with
        | nil => exact ⟨[], onward.symm⟩
        | cons other rest =>
          cases onward
          exact absurd key.symm (past first (by rw [same]; simp))
    obtain ⟨rest, rfl⟩ := recent
    have context : acceptance.slot.context = first.slot.context := congrArg Slot.context slot
    have parted : counters (rest ++ first :: between ++ [acceptance]) acceptance.slot.context =
        counters rest first.slot.context ++ first.slot.ctr ::
          (counters between first.slot.context ++ first.slot.ctr :: []) := by
      rw [context, counters_append, counters_append, counters_cons_own, ← context, counters_cons_own, context,
        congrArg Slot.ctr slot]
      simp [counters]
    exact spaced_between spaced parted
  · have parts : older ++ current ++ [acceptance] = before ++ first :: (between ++ second :: earlier) ++ [last] := by
      simpa using split
    exact guarded before first between second earlier (List.append_inj_left' parts rfl) slot key

end Acceptances

/-! ## Operations -/

/-- The room has been through all but its last epoch with keys that are gone, and its
windows hold what has been accepted since. -/
structure Receiving (roomId : String) (windowSize : ℕ) (s : MlsProvider K) (older current : List (Acceptance K)) :
    Prop where
  accepted : s.accepted = older ++ current
  rooms : ∀ other, other ≠ roomId → s.own.roomEpochs.get? other = none
  table : ∀ other, other ≠ roomId → s.replayWindows.get? other = none
  remembers : Remembers windowSize { s with accepted := current }
  past : ∀ roomState, s.own.roomEpochs.get? roomId = some roomState →
    ∀ acceptance ∈ older, acceptance.key ∉ roomState.keys.values
  guarded : ReplayProtected windowSize s.accepted

section Operations
variable {runtime : MlsRuntime K} {settings : ReplaySettings} {roomId : String} {s s' : MlsProvider K}
  {older current : List (Acceptance K)}

theorem receiving_create (settings : ReplaySettings) (store : OrderedMap String (List ℕ)) :
    Receiving roomId settings.replayWindow (.create settings {} store : MlsProvider K) [] [] where
  accepted := rfl
  rooms _ _ := rfl
  table _ _ := rfl
  remembers := remembers_create settings _ store
  past _ installed := by cases installed
  guarded before first between second after split := by simp [ProviderState.create] at split

/-- The windows and the guard are told apart from the acceptances. -/
theorem getReplayWindow_logged (s : MlsProvider K) (log : List (Acceptance K)) (context : SealContext)
    (windowSize : ℕ) : ({ s with accepted := log } : MlsProvider K).getReplayWindow context windowSize =
      ((s.getReplayWindow context windowSize).1,
        { (s.getReplayWindow context windowSize).2 with accepted := log }) := by
  unfold ProviderState.getReplayWindow
  dsimp only
  split <;> rfl

/-- With one room there is always place for its windows. -/
theorem Receiving.keepsRooms (receiving : Receiving roomId settings.replayWindow s older current) :
    s.keepsRooms roomId = true := by
  by_cases held : s.replayWindows.has roomId = true
  · simp [ProviderState.keepsRooms, held]
  · have empty : s.replayWindows.keys = [] := by
      apply List.eq_nil_iff_forall_not_mem.mpr
      intro other member
      rw [OrderedMap.mem_keys] at member
      by_cases same : other = roomId
      · subst same
        exact held member
      · rw [receiving.table other same] at member
        cases member
    simp [ProviderState.keepsRooms, empty, maxReplayRooms]

/-- A buffer of the room asks for its window. -/
theorem Receiving.asked (receiving : Receiving roomId settings.replayWindow s older current) {context : SealContext}
    (own : context.roomId = roomId) (origin : Origin Unit) :
    Receiving roomId settings.replayWindow { (s.getReplayWindow context settings.replayWindow).2 with origin }
      older current ∧
    (s.getReplayWindow context settings.replayWindow).2.windowOf context =
      some (s.getReplayWindow context settings.replayWindow).1 := by
  subst own
  have keeps := receiving.keepsRooms
  obtain ⟨remembers, there, -, -⟩ :=
    remembers_getReplayWindow (s := { s with accepted := current }) receiving.remembers keeps
  rw [getReplayWindow_logged] at remembers there
  refine ⟨⟨?_, ?_, ?_, remembers_of remembers rfl, ?_, ?_⟩, there⟩
  · exact (s.getReplayWindow_accepted context settings.replayWindow).trans receiving.accepted
  · intro other apart
    change (s.getReplayWindow context settings.replayWindow).2.own.roomEpochs.get? other = none
    rw [s.getReplayWindow_own]
    exact receiving.rooms other apart
  · intro other apart
    change (s.getReplayWindow context settings.replayWindow).2.replayWindows.get? other = none
    rcases ProviderState.getReplayWindow_cases keeps settings.replayWindow with
      ⟨window, -, got⟩ | ⟨-, table, got, -, same⟩
    · rw [got]
      exact receiving.table other apart
    · rw [got]
      exact (same other apart).trans (receiving.table other apart)
  · intro roomState installed
    change (s.getReplayWindow context settings.replayWindow).2.own.roomEpochs.get? context.roomId = _ at installed
    rw [s.getReplayWindow_own] at installed
    exact receiving.past roomState installed
  · change ReplayProtected _ (s.getReplayWindow context settings.replayWindow).2.accepted
    rw [s.getReplayWindow_accepted]
    exact receiving.guarded

/-- A buffer of the room is accepted, into the window that let it pass. -/
theorem Receiving.acceptReplay (receiving : Receiving roomId settings.replayWindow s older current)
    (positive : settings.replayWindow ≠ 0) {window : Ref} (acceptance : Acceptance K) {roomState : RoomEpochState K}
    (there : s.windowOf acceptance.slot.context = some window) (fits : acceptance.slot.ctr < 2 ^ 64)
    (fresh : (s.windows.read window).check acceptance.slot.ctr = true)
    (installed : s.own.roomEpochs.get? roomId = some roomState) (own : acceptance.key ∈ roomState.keys.values)
    (origin : Origin Unit) :
    Receiving roomId settings.replayWindow { s.acceptReplay window acceptance with origin } older
      (current ++ [acceptance]) := by
  obtain ⟨-, size, queue⟩ := receiving.remembers.held _ _ there
  have way : OnItsWay settings.replayWindow ({ s with accepted := current } : MlsProvider K)
    acceptance.slot window := by
    refine ⟨there, fits, ?_⟩
    rw [← queue]
    apply (check_iff (by rw [size]; exact positive) fits _).mp fresh
    rw [queue]
    intro ctr member
    exact receiving.remembers.carried _ ctr ((rtake_sublist _ _).subset member)
  have remembers := remembers_acceptReplay receiving.remembers positive way
  refine ⟨?_, receiving.rooms, receiving.table, remembers_of remembers rfl, receiving.past, ?_⟩
  · change s.accepted ++ [acceptance] = _
    rw [receiving.accepted, List.append_assoc]
  · change ReplayProtected _ (s.accepted ++ [acceptance])
    rw [receiving.accepted]
    apply protected_concat
    · rw [← receiving.accepted]
      exact receiving.guarded
    · intro earlier member same
      exact receiving.past roomState installed earlier member (same ▸ own)
    · exact remembers.spaced acceptance.slot.context

/-- What a buffer is opened with is a key of the room, at a counter that a header carries. -/
theorem unsealingKey_ok {context : SealContext} {sealedBytes : Bytes} {peerId : String} {key : SFrameKey K} {ctr : ℕ}
    (found : unsealingKey s context sealedBytes = .ok (peerId, key, ctr)) :
    ∃ roomState, s.own.roomEpochs.get? context.roomId = some roomState ∧ roomState.keys.get? peerId = some key ∧
      ctr < 2 ^ 64 := by
  unfold unsealingKey at found
  split at found
  · cases found
  · rename_i roomState installed
    refine ⟨roomState, installed, ?_⟩
    obtain ⟨hdr, parsed, rfl, -, -, held⟩ := openingKey_ok found
    exact ⟨held, Header.parseHeader_fits parsed⟩

theorem Receiving.unseal (receiving : Receiving roomId settings.replayWindow s older current)
    (positive : settings.replayWindow ≠ 0) {sealedBytes : Bytes} {context : SealContext}
    {outcome : Except JsError Bytes}
    (ran : alone (MlsChat.unseal_ runtime settings sealedBytes context) s = some (outcome, s')) :
    ∃ current, Receiving roomId settings.replayWindow s' older current := by
  unfold MlsChat.unseal_ at ran
  simp only [alone_bind, alone_read, alone_settle, Option.bind_some] at ran
  cases found : unsealingKey s context sealedBytes with
  | error refused =>
    rw [found] at ran
    cases ran
    exact ⟨current, receiving⟩
  | ok opening =>
    obtain ⟨peerId, key, ctr⟩ := opening
    obtain ⟨roomState, installed, held, fits⟩ := unsealingKey_ok found
    have own : context.roomId = roomId := by
      by_contra apart
      cases (receiving.rooms _ apart).symm.trans installed
    rw [found] at ran
    dsimp only at ran
    cases checked : alone (checkReplay "createMlsChatProvider" settings ⟨context, ctr⟩ : MlsTask K Ref) s with
    | none => simp [checked] at ran
    | some result =>
      obtain ⟨passed, middle⟩ := result
      obtain ⟨⟨origin, rfl⟩, passes⟩ := alone_checkReplay checked
      obtain ⟨asked, there⟩ := receiving.asked own origin
      rw [checked, Option.bind_some] at ran
      cases passed with
      | error refused =>
        cases ran
        exact ⟨current, asked⟩
      | ok window =>
        obtain ⟨rfl, fresh, -⟩ := passes window rfl
        obtain ⟨-, last, rfl⟩ := alone_openChecked ran
        cases outcome with
        | error refused => exact ⟨current, asked.accepted, asked.rooms, asked.table, remembers_of asked.remembers rfl,
            asked.past, asked.guarded⟩
        | ok plaintext =>
          have still : (s.getReplayWindow context settings.replayWindow).2.own.roomEpochs.get? roomId =
              some roomState := by
            rw [s.getReplayWindow_own, ← own]
            exact installed
          have member := OrderedMap.mem_values.mpr ⟨peerId, held⟩
          exact ⟨_, asked.acceptReplay positive ⟨⟨context, ctr⟩, key, sealedBytes⟩ there fits fresh still member last⟩

/-- A room that gets keys under which nothing has been accepted starts afresh. -/
theorem Receiving.install (receiving : Receiving roomId settings.replayWindow s older current)
    {roomState : RoomEpochState K} (fresh : ∀ acceptance ∈ s.accepted, acceptance.key ∉ roomState.keys.values) :
    Receiving roomId settings.replayWindow (installEpoch settings s roomId roomState) (older ++ current) [] := by
  have noWindow (context : SealContext) : (installEpoch settings s roomId roomState).windowOf context = none := by
    change ((s.replayWindows.delete roomId).get? context.roomId).bind _ = none
    rw [OrderedMap.get?_delete]
    split
    · rfl
    · rename_i apart
      rw [receiving.table _ apart]
      rfl
  constructor
  · change s.accepted = _
    rw [receiving.accepted, List.append_nil]
  · intro other apart
    change (s.own.roomEpochs.set roomId roomState).get? other = none
    rw [OrderedMap.get?_set, if_neg apart]
    exact receiving.rooms other apart
  · intro other apart
    change (s.replayWindows.delete roomId).get? other = none
    rw [OrderedMap.get?_delete, if_neg apart]
    exact receiving.table other apart
  · constructor
    · intro context window there
      cases (noWindow context).symm.trans there
    · intro _ _
      rfl
    · intro context _ window there
      cases (noWindow context).symm.trans there
    · intro _ _ member
      cases member
    · intro context before entry after split
      simp [ProviderState.received] at split
  · intro installed there acceptance member
    change (s.own.roomEpochs.set roomId roomState).get? roomId = some installed at there
    rw [OrderedMap.get?_set, if_pos rfl] at there
    cases there
    rw [← receiving.accepted] at member
    exact fresh acceptance member
  · exact receiving.guarded

/-- Only these parts of the state count. -/
theorem Receiving.rest (receiving : Receiving roomId settings.replayWindow s older current) (own : s'.own = s.own)
    (same : replayPart s' = replayPart s) : Receiving roomId settings.replayWindow s' older current := by
  obtain ⟨own', replayWindows, windows, origin, clearing, accepted⟩ := s'
  cases own
  cases same
  exact ⟨receiving.accepted, receiving.rooms, receiving.table, remembers_of receiving.remembers rfl, receiving.past,
    receiving.guarded⟩

/-- An operation that brings no key back keeps the room protected. -/
theorem Receiving.perform (receiving : Receiving roomId settings.replayWindow s older current)
    (positive : settings.replayWindow ≠ 0) {operation : RoomOperation}
    (fresh : BringsFreshKeys runtime operation s)
    (performed : operation.perform runtime settings roomId s = some s') :
    ∃ older current, Receiving roomId settings.replayWindow s' older current := by
  obtain ⟨⟨outcome, last⟩, ran, rfl⟩ := Option.map_eq_some_iff.mp performed
  cases operation with
  | setEpoch params =>
    simp only [RoomOperation.call, MlsCall.program, MlsChat.setEpoch, alone_bind] at ran
    split at ran
    · cases ran
      exact ⟨older, current, receiving⟩
    · rw [alone_bind, alone_promised, Option.bind_some] at ran
      dsimp only [BringsFreshKeys] at fresh
      cases derived : deriveRoomEpoch runtime params with
      | error refused =>
        rw [derived] at ran
        cases ran
        exact ⟨older, current, receiving⟩
      | ok roomState =>
        rw [derived] at ran fresh
        cases ran
        exact ⟨_, _, receiving.install fresh⟩
  | unseal_ sealedBytes context =>
    simp only [RoomOperation.call, MlsCall.program, alone_bind] at ran
    cases opened : alone (MlsChat.unseal_ runtime settings sealedBytes context) s with
    | none => simp [opened] at ran
    | some result =>
      obtain ⟨opening, final⟩ := result
      obtain ⟨current, still⟩ := receiving.unseal positive opened
      rw [opened] at ran
      cases opening with
      | error refused =>
        cases ran
        exact ⟨older, current, still⟩
      | ok plaintext =>
        cases ran
        exact ⟨older, current, still⟩
  | settleClear key =>
    by_cases started : key ∈ s.clearing
    · simp only [RoomOperation.call, MlsCall.program, Chat.settleClear, alone_bind, alone_pauseUntil, started,
        List.contains_eq_mem, decide_true, ↓reduceIte, Option.bind_some, alone_update, alone_onGuard] at ran
      cases cleared : (clear () key).solo s.origin with
      | none => simp [cleared] at ran
      | some answer =>
        rw [cleared] at ran
        cases ran
        exact ⟨older, current, receiving.rest rfl rfl⟩
    · simp [RoomOperation.call, MlsCall.program, Chat.settleClear, started] at ran

theorem Receiving.performAll (receiving : Receiving roomId settings.replayWindow s older current)
    (positive : settings.replayWindow ≠ 0) {history : List RoomOperation}
    (fresh : BringsFreshKeysOnly runtime settings roomId history s)
    (ran : performAll runtime settings roomId history s = some s') :
    ∃ older current, Receiving roomId settings.replayWindow s' older current := by
  induction history generalizing s older current with
  | nil =>
    cases ran
    exact ⟨older, current, receiving⟩
  | cons operation rest ih =>
    obtain ⟨middle, first, onward⟩ := Option.bind_eq_some_iff.mp ran
    obtain ⟨older, current, next⟩ := receiving.perform positive fresh.1 first
    exact ih next (fresh.2 middle first) onward

end Operations

/-- After any history of a room in which no epoch brings back a key under which
something has been accepted, every frame that was accepted twice under one key had as
many other counters of its sender accepted in between as a window holds. -/
theorem replay_protected (runtime : MlsRuntime K) (settings : ReplaySettings) (positive : settings.replayWindow ≠ 0)
    (roomId : String) (store : OrderedMap String (List ℕ)) (history : List RoomOperation)
    (fresh : BringsFreshKeysOnly runtime settings roomId history (.create settings {} store)) {last : MlsProvider K}
    (ran : performAll runtime settings roomId history (.create settings {} store) = some last) :
    ReplayProtected settings.replayWindow last.accepted := by
  obtain ⟨_, _, receiving⟩ := (receiving_create settings store).performAll positive fresh ran
  exact receiving.guarded

section Checked
open MlsSpecimen (runtime settings provider params ann mail)

/-- The epoch is delivered twice, and the frame is accepted after each time. -/
def repeated : List RoomOperation := [.setEpoch (params 1), .unseal_ mail ann, .setEpoch (params 1), .unseal_ mail ann]

/-- Two acceptances, of one slot under one key. -/
def acceptsAgain : List (Acceptance Bytes) → Bool
  | [first, second] => decide (second.slot = first.slot ∧ second.key = first.key)
  | _ => false

theorem epoch_repeated_replays : ¬ ∀ last, performAll runtime settings "room" repeated provider = some last →
    ReplayProtected settings.replayWindow last.accepted := by
  intro guarded
  have result : ((performAll runtime settings "room" repeated provider).map fun s => acceptsAgain s.accepted) =
      some true := by
    decide +kernel
  obtain ⟨last, ran, shape⟩ := Option.map_eq_some_iff.mp result
  unfold acceptsAgain at shape
  split at shape
  · rename_i first second log
    obtain ⟨slot, key⟩ := of_decide_eq_true shape
    have few := guarded last ran [] first [] second [] log slot key
    exact Nat.not_succ_le_zero 1 few
  · cases shape

/-- A second epoch has keys of its own. -/
theorem replay_protected_anew : ∃ last, performAll runtime settings "room" [.setEpoch (params 1), .unseal_ mail ann,
    .setEpoch (params 2), .unseal_ mail ann] provider = some last ∧ last.accepted.length = 1 ∧
      ReplayProtected settings.replayWindow last.accepted := by
  have result : (performAll runtime settings "room" [.setEpoch (params 1), .unseal_ mail ann, .setEpoch (params 2),
      .unseal_ mail ann] provider).map (fun s => s.accepted.length) = some 1 := by
    decide +kernel
  obtain ⟨last, ran, one⟩ := Option.map_eq_some_iff.mp result
  refine ⟨last, ran, one, replay_protected runtime settings (by decide) "room" ∅ _ ?_ ran⟩
  decide +kernel

end Checked
end SFrameRatchet.MlsReplay
