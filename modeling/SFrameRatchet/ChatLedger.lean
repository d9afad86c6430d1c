import SFrameRatchet.ChatShared
import SFrameRatchet.DurableWindow

/-! What a chat provider knows between two calls, without the way it is stored: the
rooms it has windows for, the counters in each window, and those that the durable
guard has stored under each name. What becomes of a buffer depends on nothing else,
and the calls of the provider, one after the other, are steps of this ledger. -/
namespace SFrameRatchet.Chat
open BigEndian Collections Coroutine Throwing Crypto DurableReplay DurableWindow Replay

/-- What a provider remembers of the counters it has accepted, and the rooms that it
has windows for, oldest first. `accepted` is history. -/
@[ext] structure Ledger where
  rooms : List String
  memory : SealContext → List ℕ
  guard : String → List ℕ
  accepted : List Slot

namespace Ledger
variable (ledger : Ledger) (settings : ReplaySettings) (name : String) (slot : Slot)

/-- How many rooms have to go when another one comes. -/
def excess (roomId : String) : ℕ := (ledger.rooms ++ [roomId]).length - maxReplayRooms

/-- The rooms that have to go when a buffer comes for a room. -/
def gone (roomId : String) : List String :=
  if roomId ∈ ledger.rooms then [] else (ledger.rooms ++ [roomId]).take (ledger.excess roomId)

/-- A buffer comes to its replay check: its room gets a window, and the oldest rooms go
when there are too many. -/
def enter (roomId : String) : Ledger where
  rooms := if roomId ∈ ledger.rooms then ledger.rooms else (ledger.rooms ++ [roomId]).drop (ledger.excess roomId)
  memory context := if context.roomId ∈ ledger.gone roomId then [] else ledger.memory context
  guard := ledger.guard
  accepted := ledger.accepted

variable {ledger} in
theorem enter_known {roomId : String} (known : roomId ∈ ledger.rooms) : ledger.enter roomId = ledger := by
  simp [enter, gone, known]

/-- The room that the buffer is for is not among those that go. -/
theorem not_mem_gone (roomId : String) : roomId ∉ ledger.gone roomId := by
  unfold gone
  split
  · exact List.not_mem_nil
  · rename_i absent
    have older : ledger.excess roomId ≤ ledger.rooms.length := by
      simp only [excess, List.length_append, List.length_singleton, maxReplayRooms]
      omega
    rw [List.take_append_of_le_length older]
    exact fun member => absent (List.mem_of_mem_take member)

variable {ledger} in
/-- There are never too many rooms. -/
theorem enter_few (few : ledger.rooms.length ≤ maxReplayRooms) (roomId : String) :
    (ledger.enter roomId).rooms.length ≤ maxReplayRooms := by
  unfold enter
  dsimp only
  split
  · exact few
  · simp only [List.length_drop, excess]
    omega

/-- One room comes at most. -/
theorem enter_rooms_le (roomId : String) : (ledger.enter roomId).rooms.length ≤ ledger.rooms.length + 1 := by
  unfold enter
  dsimp only
  split
  · exact Nat.le_succ _
  · simp only [List.length_drop, List.length_append, List.length_singleton]
    omega

/-- The error of a counter that has been seen. -/
def replayed (kind : String) : JsError :=
  .chatReplay (s!"{name}: {kind}replay detected (ctr={slot.ctr}, room={slot.context.roomId}, " ++
    s!"uid={slot.context.senderUid})") slot.context.roomId slot.context.senderUid slot.ctr

/-- Whether the guard, if there is one, has the counter of a slot. -/
def Guards : Prop := settings.durable.isSome ∧ slot.ctr ∈ ledger.guard (durableKey slot.context)

instance : Decidable (ledger.Guards settings slot) := inferInstanceAs (Decidable (_ ∧ _))

/-- The replay check, in memory first. -/
def refusal : Option JsError :=
  if slot.ctr ∈ ledger.memory slot.context then some (replayed name slot "")
  else if ledger.Guards settings slot then some (replayed name slot "durable cross-reload ")
  else none

/-- Record an acceptance. -/
def record : Ledger :=
  { rooms := ledger.rooms
    memory := Function.update ledger.memory slot.context
      ((ledger.memory slot.context ++ [slot.ctr]).rtake settings.replayWindow)
    guard := match settings.durable with
      | some (_, window) => Function.update ledger.guard (durableKey slot.context)
          ((ledger.guard (durableKey slot.context) ++ [slot.ctr]).rtake window)
      | none => ledger.guard
    accepted := ledger.accepted ++ [slot] }

/-- What becomes of a buffer with a slot, when its key opens it so. -/
def receive (opened : Except JsError Bytes) : Except JsError Bytes × Ledger :=
  let entered := ledger.enter slot.context.roomId
  match entered.refusal settings name slot, opened with
  | some refused, _ => (.error refused, entered)
  | none, .error failed => (.error failed, entered)
  | none, .ok plaintext => (.ok plaintext, entered.record settings slot)

end Ledger

namespace Ledger

/-! ## Ledgers with other rooms -/

variable {ledger other : Ledger} {settings : ReplaySettings} {name : String} {slot : Slot} {roomId : String}
  {opened : Except JsError Bytes}

/-- A room comes without another one having to go. -/
def Roomy (ledger : Ledger) (roomId : String) : Prop := roomId ∈ ledger.rooms ∨ ledger.rooms.length < maxReplayRooms

theorem enter_roomy (roomy : ledger.Roomy roomId) : ledger.enter roomId = { ledger with
    rooms := if roomId ∈ ledger.rooms then ledger.rooms else ledger.rooms ++ [roomId] } := by
  by_cases known : roomId ∈ ledger.rooms
  · rw [enter_known known, if_pos known]
  · have none : ledger.excess roomId = 0 := by
      have room := roomy.resolve_left known
      simp only [excess, List.length_append, List.length_singleton]
      omega
    simp [enter, gone, known, none]

/-- The ledger remembers what the other one does, with no room that the other has not. -/
structure Behind (ledger other : Ledger) : Prop where
  memory : ledger.memory = other.memory
  guard : ledger.guard = other.guard
  accepted : ledger.accepted = other.accepted
  rooms : ledger.rooms ⊆ other.rooms
  nodup : ledger.rooms.Nodup

/-- A ledger behind another one has room where that has. -/
theorem Behind.roomy (behind : ledger.Behind other) (few : other.rooms.length ≤ maxReplayRooms)
    (roomy : other.Roomy roomId) : ledger.Roomy roomId := by
  by_cases known : roomId ∈ ledger.rooms
  · exact .inl known
  · apply Or.inr
    rcases roomy with listed | room
    · have more : (roomId :: ledger.rooms).length ≤ other.rooms.length :=
        (List.subperm_of_subset (List.nodup_cons.mpr ⟨known, behind.nodup⟩)
          (List.cons_subset.mpr ⟨listed, behind.rooms⟩)).length_le
      rw [List.length_cons] at more
      omega
    · exact lt_of_le_of_lt (List.subperm_of_subset behind.nodup behind.rooms).length_le room

theorem Behind.enter (behind : ledger.Behind other) (few : other.rooms.length ≤ maxReplayRooms)
    (roomy : other.Roomy roomId) : (ledger.enter roomId).Behind (other.enter roomId) := by
  rw [enter_roomy (behind.roomy few roomy), enter_roomy roomy]
  refine ⟨behind.memory, behind.guard, behind.accepted, fun room member => ?_, ?_⟩
  · dsimp only at member ⊢
    split at member
    · rename_i known
      rw [if_pos (behind.rooms known)]
      exact behind.rooms member
    · split
      · rename_i listed
        rcases List.mem_append.mp member with old | new
        · exact behind.rooms old
        · exact List.mem_singleton.mp new ▸ listed
      · rcases List.mem_append.mp member with old | new
        · exact List.mem_append_left _ (behind.rooms old)
        · exact List.mem_append_right _ new
  · dsimp only
    split
    · exact behind.nodup
    · rename_i absent
      exact Recency.nodup_append_singleton behind.nodup absent

/-- A ledger is behind the one with another room. -/
theorem behind_enter (roomy : ledger.Roomy roomId) (nodup : ledger.rooms.Nodup) :
    ledger.Behind (ledger.enter roomId) := by
  rw [enter_roomy roomy]
  refine ⟨rfl, rfl, rfl, fun room member => ?_, nodup⟩
  dsimp only
  split
  · exact member
  · exact List.mem_append_left _ member

theorem Behind.record (behind : ledger.Behind other) (settings : ReplaySettings) (slot : Slot) :
    (ledger.record settings slot).Behind (other.record settings slot) := by
  obtain ⟨memory, guard, accepted, rooms, nodup⟩ := behind
  refine ⟨?_, ?_, ?_, rooms, nodup⟩ <;> simp only [Ledger.record, memory, guard, accepted]

/-- The two give a buffer the same reply. -/
theorem Behind.receive (behind : ledger.Behind other) (few : other.rooms.length ≤ maxReplayRooms)
    (roomy : other.Roomy slot.context.roomId) :
    (ledger.receive settings name slot opened).1 = (other.receive settings name slot opened).1 ∧
      (ledger.receive settings name slot opened).2.Behind (other.receive settings name slot opened).2 := by
  have entered := behind.enter few roomy
  have same : (ledger.enter slot.context.roomId).refusal settings name slot =
      (other.enter slot.context.roomId).refusal settings name slot :=
    if_congr (by rw [entered.memory]) rfl (if_congr (by rw [Guards, entered.guard, Guards]) rfl rfl)
  unfold Ledger.receive
  dsimp only
  rw [same]
  cases (other.enter slot.context.roomId).refusal settings name slot with
  | some refused => exact ⟨rfl, entered⟩
  | none =>
    cases opened with
    | error failed => exact ⟨rfl, entered⟩
    | ok plaintext => exact ⟨rfl, entered.record settings slot⟩

/-! ## What has been accepted -/

/-- A window remembers nothing but what has been accepted. -/
def Honest (ledger : Ledger) : Prop := ∀ context, ∀ ctr ∈ ledger.memory context, ⟨context, ctr⟩ ∈ ledger.accepted

/-- A room that comes brings no counters. -/
theorem mem_enter {context : SealContext} {ctr : ℕ} (member : ctr ∈ (ledger.enter roomId).memory context) :
    ctr ∈ ledger.memory context := by
  simp only [Ledger.enter] at member
  split at member
  · cases member
  · exact member

theorem Honest.enter (honest : ledger.Honest) (roomId : String) : (ledger.enter roomId).Honest :=
  fun context ctr member => honest context ctr (mem_enter member)

theorem Honest.record (honest : ledger.Honest) (settings : ReplaySettings) (slot : Slot) :
    (ledger.record settings slot).Honest := by
  intro context ctr member
  simp only [Ledger.record] at member ⊢
  by_cases own : context = slot.context
  · subst own
    rw [Function.update_self] at member
    rcases List.mem_append.mp ((Recency.rtake_sublist _ _).subset member) with old | new
    · exact List.mem_append_left _ (honest _ _ old)
    · rw [List.mem_singleton.mp new]
      exact List.mem_append_right _ (List.mem_singleton_self _)
  · rw [Function.update_of_ne own] at member
    exact List.mem_append_left _ (honest _ _ member)

/-- A buffer is refused, does not open, or is recorded. -/
theorem receive_cases (ledger : Ledger) (settings : ReplaySettings) (name : String) (slot : Slot)
    (opened : Except JsError Bytes) :
    (∃ refused, ledger.receive settings name slot opened = (.error refused, ledger.enter slot.context.roomId)) ∨
      ∃ plaintext, opened = .ok plaintext ∧ (ledger.enter slot.context.roomId).refusal settings name slot = none ∧
        ledger.receive settings name slot opened =
          (.ok plaintext, (ledger.enter slot.context.roomId).record settings slot) := by
  unfold receive
  dsimp only
  cases (ledger.enter slot.context.roomId).refusal settings name slot with
  | some refused => exact .inl ⟨refused, rfl⟩
  | none =>
    cases opened with
    | error failed => exact .inl ⟨failed, rfl⟩
    | ok plaintext => exact .inr ⟨plaintext, rfl, rfl, rfl⟩

end Ledger

/-! ## Rooms that have to go -/

/-- The oldest rooms go, as many as there are too many. -/
theorem evictOldReplayRooms_drops (table : OrderedMap String (OrderedMap String Ref)) :
    (evictOldReplayRooms table).keys = table.keys.drop (table.keys.length - maxReplayRooms) ∧
      ∀ roomId, (evictOldReplayRooms table).get? roomId =
        if roomId ∈ table.keys.take (table.keys.length - maxReplayRooms) then none else table.get? roomId := by
  suffices rounds : ∀ rounds (table : OrderedMap String (OrderedMap String Ref)),
      table.keys.length - maxReplayRooms ≤ rounds →
      (evictRounds rounds table).keys = table.keys.drop (table.keys.length - maxReplayRooms) ∧
        ∀ roomId, (evictRounds rounds table).get? roomId =
          if roomId ∈ table.keys.take (table.keys.length - maxReplayRooms) then none else table.get? roomId from
    rounds _ table (Nat.sub_le _ _)
  intro rounds
  induction rounds with
  | zero =>
    intro table enough
    rw [Nat.le_zero.mp enough]
    exact ⟨rfl, fun roomId => by simp [evictRounds]⟩
  | succ rounds ih =>
    intro table enough
    rw [evictRounds]
    split
    · rename_i many
      cases keys : table.keys with
      | nil => simp [keys] at many
      | cons oldest rest =>
        have kept := OrderedMap.keys_delete_oldest keys
        have length : table.keys.length = rest.length + 1 := by rw [keys, List.length_cons]
        have excess : rest.length + 1 - maxReplayRooms = rest.length - maxReplayRooms + 1 := by omega
        obtain ⟨left, found⟩ := ih (table.delete oldest) (by rw [kept]; omega)
        dsimp only
        rw [kept] at left found
        constructor
        · rw [left, List.length_cons, excess, List.drop_succ_cons]
        · intro roomId
          rw [found, List.length_cons, excess, List.take_succ_cons, OrderedMap.get?_delete]
          by_cases own : roomId = oldest
          · simp [own]
          · simp [own]
    · rename_i few
      rw [Nat.sub_eq_zero_of_le (not_lt.mp few)]
      exact ⟨rfl, fun roomId => by simp⟩

/-! ## The ledger of a provider -/

section Providers
variable {K X P : Type}

/-- The counters in the window of a sender. -/
def remembered (s : ProviderState K X) (context : SealContext) : List ℕ :=
  (s.windowOf context).elim [] fun window => (s.windows.read window).queue

def ledgerOf (s : ProviderState K X) : Ledger where
  rooms := s.replayWindows.keys
  memory := remembered s
  guard key := stored s.origin ((s.origin.tabs ()).storeKey key)
  accepted := s.accepted.map Acceptance.slot

/-- A provider between two calls: every sender's window is its own, of the size that
the provider was constructed with, and the guard is at rest. -/
structure Ready (settings : ReplaySettings) (s : ProviderState K X) : Prop where
  few : s.replayWindows.keys.length ≤ maxReplayRooms
  resting : Resting () s.origin
  held : ∀ context window, s.windowOf context = some window → window < s.windows.next ∧
    (s.windows.read window).windowSize = settings.replayWindow ∧ ∀ ctr ∈ (s.windows.read window).queue, ctr < 2 ^ 64
  apart : ∀ context other window, s.windowOf context = some window → s.windowOf other = some window → context = other
  settings : (s.origin.tabs ()).settings = (true, settings.durable.getD ("", 0))

variable {settings : ReplaySettings} {s : ProviderState K X} {context : SealContext}

theorem Ready.own (ready : Ready settings s) (own : X) : Ready settings { s with own } :=
  ⟨ready.few, ready.resting, ready.held, ready.apart, ready.settings⟩

/-- A provider that has just been constructed, on an empty store. -/
theorem ready_create (settings : ReplaySettings) (own : X) :
    Ready settings (.create settings own ∅ : ProviderState K X) where
  few := Nat.zero_le _
  resting := by
    refine ⟨rfl, fun _ => rfl, fun _ => rfl, rfl, rfl, fun _ => ⟨List.nodup_nil, Nat.zero_le _⟩, ?_, ?_, ?_⟩ <;>
      (intro key ref held; cases held)
  held context window there := by cases there
  apart context other window there := by cases there
  settings := rfl

/-- A sender without a window gets one; the rooms that have to go lose theirs. -/
theorem getReplayWindow_missing (missing : s.windowOf context = none) (windowSize : ℕ) :
    ∃ replayWindows, s.getReplayWindow context windowSize = (s.windows.next,
        { s with replayWindows, windows := s.windows.alloc { windowSize } }) ∧
      replayWindows.keys = ((ledgerOf s).enter context.roomId).rooms ∧
      ∀ other, ({ s with replayWindows } : ProviderState K X).windowOf other =
        if other = context then some s.windows.next
        else if other.roomId ∈ (ledgerOf s).gone context.roomId then none else s.windowOf other := by
  have absent : ((s.replayWindows.get? context.roomId).getD ∅).get? context.senderUid = none := by
    cases room : s.replayWindows.get? context.roomId with
    | none => rfl
    | some senders => simpa [ProviderState.windowOf, room] using missing
  let made := s.replayWindows.set context.roomId
    (((s.replayWindows.get? context.roomId).getD ∅).set context.senderUid s.windows.next)
  let table := if s.replayWindows.has context.roomId then made else evictOldReplayRooms made
  have known : s.replayWindows.has context.roomId = true ↔ context.roomId ∈ s.replayWindows.keys :=
    OrderedMap.mem_keys.symm
  have found (other : SealContext) : (table.get? other.roomId) =
      if other.roomId ∈ (ledgerOf s).gone context.roomId then none else made.get? other.roomId := by
    by_cases held : context.roomId ∈ s.replayWindows.keys
    · have none : (ledgerOf s).gone context.roomId = [] := if_pos held
      simp [table, none, known.mpr held]
    · have keys : made.keys = s.replayWindows.keys ++ [context.roomId] := by
        rw [OrderedMap.keys_set, if_neg (mt known.mp held)]
      have drops := (evictOldReplayRooms_drops made).2 other.roomId
      have some : (ledgerOf s).gone context.roomId =
          made.keys.take (made.keys.length - maxReplayRooms) := by
        rw [keys]
        exact if_neg held
      rw [some, ← drops]
      simp only [table, if_neg (mt known.mp held)]
  refine ⟨table, ?_, ?_, fun other => ?_⟩
  · unfold ProviderState.getReplayWindow
    dsimp only
    rw [absent]
  · by_cases held : context.roomId ∈ s.replayWindows.keys
    · rw [Ledger.enter_known held]
      simp [table, made, known.mpr held, OrderedMap.keys_set, ledgerOf]
    · have keys : made.keys = s.replayWindows.keys ++ [context.roomId] := by
        rw [OrderedMap.keys_set, if_neg (mt known.mp held)]
      have rooms : ((ledgerOf s).enter context.roomId).rooms = made.keys.drop (made.keys.length - maxReplayRooms) := by
        rw [keys]
        exact if_neg held
      rw [rooms, ← (evictOldReplayRooms_drops made).1]
      simp only [table, if_neg (mt known.mp held)]
  · simp only [ProviderState.windowOf, found]
    by_cases room : other.roomId = context.roomId
    · have stays : other.roomId ∉ (ledgerOf s).gone context.roomId := room ▸ (ledgerOf s).not_mem_gone context.roomId
      rw [if_neg stays]
      by_cases same : other = context
      · subst same
        simp [made]
      · have sender : other.senderUid ≠ context.senderUid := by
          intro equal
          cases other
          cases context
          simp_all
        simp only [made, room, OrderedMap.get?_set, ↓reduceIte, Option.bind_some, sender, same]
        rw [if_neg ((ledgerOf s).not_mem_gone context.roomId)]
        cases s.replayWindows.get? context.roomId <;> rfl
    · have apart : other ≠ context := fun same => room (congrArg SealContext.roomId same)
      rw [if_neg apart]
      split
      · rfl
      · simp [made, room]

theorem getReplayWindow_held {window : Ref} (held : s.windowOf context = some window) (windowSize : ℕ) :
    s.getReplayWindow context windowSize = (window, s) := by
  have there : ((s.replayWindows.get? context.roomId).getD ∅).get? context.senderUid = some window := by
    cases room : s.replayWindows.get? context.roomId with
    | none => simp [ProviderState.windowOf, room] at held
    | some senders => simpa [ProviderState.windowOf, room] using held
  unfold ProviderState.getReplayWindow
  dsimp only
  rw [there]

/-- Asking for a window is a step of the ledger. -/
theorem ready_getReplayWindow (ready : Ready settings s) (context : SealContext) :
    Ready settings (s.getReplayWindow context settings.replayWindow).2 ∧
      ledgerOf (s.getReplayWindow context settings.replayWindow).2 = (ledgerOf s).enter context.roomId ∧
      (s.getReplayWindow context settings.replayWindow).2.windowOf context =
        some (s.getReplayWindow context settings.replayWindow).1 := by
  cases held : s.windowOf context with
  | some window =>
    have known : context.roomId ∈ (ledgerOf s).rooms := by
      apply OrderedMap.mem_keys.mpr
      obtain ⟨senders, room, -⟩ := Option.bind_eq_some_iff.mp held
      rw [room]
      rfl
    rw [getReplayWindow_held held, Ledger.enter_known known]
    exact ⟨ready, rfl, held⟩
  | none =>
    obtain ⟨table, got, rooms, found⟩ := getReplayWindow_missing held settings.replayWindow
    rw [got]
    have windowOf (other : SealContext) : ({ s with
        replayWindows := table, windows := s.windows.alloc { windowSize := settings.replayWindow } } :
          ProviderState K X).windowOf other = if other = context then some s.windows.next
        else if other.roomId ∈ (ledgerOf s).gone context.roomId then none else s.windowOf other := found other
    have older {other : SealContext} {window : Ref} (there : s.windowOf other = some window) :
        (s.windows.alloc { windowSize := settings.replayWindow }).read window = s.windows.read window := by
      rw [Heap.read_alloc, if_neg (Nat.ne_of_lt (ready.held other window there).1)]
    refine ⟨⟨?_, ready.resting, fun other window there => ?_, fun first second window one two =>
      ?_, ready.settings⟩, ?_, ?_⟩
    · dsimp only
      rw [rooms]
      exact Ledger.enter_few ready.few context.roomId
    · rw [windowOf] at there
      split at there
      · cases there
        refine ⟨Nat.lt_succ_self _, ?_⟩
        dsimp only
        rw [Heap.read_alloc, if_pos rfl]
        exact ⟨rfl, nofun⟩
      · split at there
        · cases there
        · obtain ⟨below, size, carried⟩ := ready.held other window there
          dsimp only
          rw [older there]
          exact ⟨Nat.lt_succ_of_lt below, size, carried⟩
    · rw [windowOf] at one two
      have old {other : SealContext} (there : (if other.roomId ∈ (ledgerOf s).gone context.roomId then none
          else s.windowOf other) = some window) : s.windowOf other = some window := by
        split at there
        · cases there
        · exact there
      split at one
      · rename_i own
        cases one
        split at two
        · rename_i same
          exact own.trans same.symm
        · exact absurd (ready.held _ _ (old two)).1 (lt_irrefl _)
      · split at two
        · cases two
          exact absurd (ready.held _ _ (old one)).1 (lt_irrefl _)
        · exact ready.apart first second window (old one) (old two)
    · refine Ledger.ext rooms (funext fun other => ?_) rfl rfl
      change remembered _ other = if other.roomId ∈ (ledgerOf s).gone context.roomId then [] else remembered s other
      simp only [remembered, windowOf]
      by_cases own : other = context
      · subst own
        rw [if_neg ((ledgerOf s).not_mem_gone _), if_pos rfl, held]
        simp
      · rw [if_neg own]
        split
        · rfl
        · cases there : s.windowOf other with
          | none => rfl
          | some window => exact congrArg (·.queue) (older there)
    · rw [windowOf, if_pos rfl]

/-- A window lets through the counters that it does not remember. -/
theorem ready_check (ready : Ready settings s) {window : Ref} (held : s.windowOf context = some window) {ctr : ℕ}
    (fits : ctr < 2 ^ 64) : (s.windows.read window).check ctr = true ↔ ctr ∉ (ledgerOf s).memory context := by
  obtain ⟨-, size, carried⟩ := ready.held context window held
  have queue : (ledgerOf s).memory context = (s.windows.read window).queue := by
    simp [ledgerOf, remembered, held]
  rw [queue]
  by_cases positive : settings.replayWindow = 0
  · have empty : (s.windows.read window).queue = [] := by
      have bounded := (s.windows.read window).bounded
      rw [size, positive] at bounded
      exact List.length_eq_zero_iff.mp (Nat.le_zero.mp bounded)
    simp [SlidingReplayWindow.check, size, positive, empty]
  · exact SlidingReplayWindow.check_iff (by rw [size]; exact positive) fits carried

theorem Ready.durableAvailable (ready : Ready settings s) : s.durableAvailable settings = settings.durable.isSome := by
  have available : (s.origin.tabs ()).available = true := congrArg (·.1) ready.settings
  rw [ProviderState.durableAvailable, available, Bool.and_true]

/-- The guard changes with what it stores. -/
theorem ready_origin (ready : Ready settings s) {o : Origin Unit} (resting : Resting () o)
    (same : (o.tabs ()).settings = (s.origin.tabs ()).settings) : Ready settings { s with origin := o } :=
  ⟨ready.few, resting, ready.held, ready.apart, same.trans ready.settings⟩

theorem ledgerOf_origin (s : ProviderState K X) {o : Origin Unit}
    (same : (o.tabs ()).settings = (s.origin.tabs ()).settings) : ledgerOf { s with origin := o } =
      { ledgerOf s with guard := fun key => stored o ((s.origin.tabs ()).storeKey key) } := by
  refine Ledger.ext rfl rfl (funext fun key => ?_) rfl
  exact congrArg (stored o) (storeKey_congr same key)

/-- Run alone, a check of the guard answers from its store, which it leaves as it is. -/
theorem guard_check (ready : Ready settings s) (key : String) (ctr : ℕ) : ∃ o',
    (check () key ctr).solo s.origin = some (decide (ctr ∉ (ledgerOf s).guard key), o') ∧
      Ready settings { s with origin := o' } ∧ ledgerOf { s with origin := o' } = ledgerOf s := by
  have ends : ∃ o', (check () key ctr).solo s.origin = some (decide (ctr ∉ (ledgerOf s).guard key), o') ∧
      Resting () o' ∧ (o'.tabs ()).settings = (s.origin.tabs ()).settings ∧
        ∀ fullKey, stored o' fullKey = stored s.origin fullKey := by
    by_cases positive : (s.origin.tabs ()).window = 0
    · have short := (ready.resting.bounded ((s.origin.tabs ()).storeKey key)).2
      rw [positive, Nat.le_zero, List.length_eq_zero_iff] at short
      refine ⟨s.origin, ?_, ready.resting, rfl, fun _ => rfl⟩
      simp [check, positive, ledgerOf, short]
    · obtain ⟨o', ran, rests, store, same⟩ := solo_check ready.resting positive key ctr
      exact ⟨o', ran, rests, same, fun _ => by rw [stored, stored, store]⟩
  obtain ⟨o', ran, rests, same, stores⟩ := ends
  refine ⟨o', ran, ready_origin ready rests same, ?_⟩
  rw [ledgerOf_origin s same]
  exact Ledger.ext rfl rfl (funext fun key => stores _) rfl

/-- Run alone, an acceptance of a counter that is not stored is stored as the last one. -/
theorem guard_accept (ready : Ready settings s) {key : String} {ctr : ℕ} (fresh : ctr ∉ (ledgerOf s).guard key) :
    ∃ o', (accept () key ctr).solo s.origin = some ((), o') ∧ Ready settings { s with origin := o' } ∧
      ledgerOf { s with origin := o' } = { ledgerOf s with
        guard := Function.update (ledgerOf s).guard key
          (((ledgerOf s).guard key ++ [ctr]).rtake (settings.durable.getD ("", 0)).2) } := by
  have window : (s.origin.tabs ()).window = (settings.durable.getD ("", 0)).2 := congrArg (·.2.2) ready.settings
  have ends : ∃ o', (accept () key ctr).solo s.origin = some ((), o') ∧ Resting () o' ∧
      (o'.tabs ()).settings = (s.origin.tabs ()).settings ∧ ∀ other, stored o' ((s.origin.tabs ()).storeKey other) =
        Function.update (ledgerOf s).guard key (((ledgerOf s).guard key ++ [ctr]).rtake (s.origin.tabs ()).window)
          other := by
    by_cases positive : (s.origin.tabs ()).window = 0
    · have short := (ready.resting.bounded ((s.origin.tabs ()).storeKey key)).2
      rw [positive, Nat.le_zero, List.length_eq_zero_iff] at short
      refine ⟨s.origin, by simp [accept, positive], ready.resting, rfl, fun other => ?_⟩
      by_cases own : other = key
      · subst own
        simp [positive, short, List.rtake]
      · simp [own, ledgerOf]
    · obtain ⟨o', ran, rests, same, stores⟩ := solo_accept ready.resting positive key ctr
      refine ⟨o', ran, rests, same, fun other => ?_⟩
      rw [stores]
      by_cases own : other = key
      · subst own
        rw [if_pos ⟨rfl, fresh⟩, Function.update_self]
        rfl
      · rw [if_neg fun both => own (storeKey_injective _ both.1), Function.update_of_ne own]
        rfl
  obtain ⟨o', ran, rests, same, stores⟩ := ends
  refine ⟨o', ran, ready_origin ready rests same, ?_⟩
  rw [ledgerOf_origin s same, ← window]
  exact Ledger.ext rfl rfl (funext stores) rfl

/-! ## The way of a sealed buffer -/

/-- The replay check, run alone, is the one of the ledger. -/
theorem checkReplay_ledger (ready : Ready settings s) (name : String) {slot : Slot} (fits : slot.ctr < 2 ^ 64) :
    ∃ s' outcome, alone (checkReplay name settings slot : ChatTask K X P Ref) s = some (outcome, s') ∧
      Ready settings s' ∧ ledgerOf s' = (ledgerOf s).enter slot.context.roomId ∧ s'.own = s.own ∧
      match (ledgerOf s').refusal settings name slot with
      | some refused => outcome = .error refused
      | none => ∃ window, outcome = .ok window ∧ s'.windowOf slot.context = some window := by
  obtain ⟨asked, ledger, there⟩ := ready_getReplayWindow ready slot.context
  have passes := ready_check asked there fits
  have own : (s.getReplayWindow slot.context settings.replayWindow).2.own = s.own :=
    ProviderState.getReplayWindow_own s slot.context settings.replayWindow
  unfold checkReplay
  simp only [alone_bind, alone_read, alone_update, Option.bind_some]
  generalize s.getReplayWindow slot.context settings.replayWindow = got at asked ledger there passes own
  obtain ⟨window, made⟩ := got
  dsimp only at asked ledger there passes own ⊢
  by_cases seen : slot.ctr ∈ (ledgerOf made).memory slot.context
  · have refused : (made.windows.read window).check slot.ctr = false := by
      rw [← Bool.not_eq_true, passes]
      exact not_not.mpr seen
    refine ⟨made, _, by rw [refused]; rfl, asked, ledger, own, ?_⟩
    rw [Ledger.refusal, if_pos seen]
    rfl
  · simp only [passes.mpr seen, ↓reduceIte, asked.durableAvailable]
    by_cases durable : settings.durable.isSome = true
    · obtain ⟨o', ran, ready', same⟩ := guard_check asked (durableKey slot.context) slot.ctr
      simp only [durable, ↓reduceIte, alone_bind, alone_onGuard, ran, Option.map_some, Option.bind_some]
      by_cases stored : slot.ctr ∈ (ledgerOf made).guard (durableKey slot.context)
      · refine ⟨_, _, by simp only [stored, not_true_eq_false, decide_false, Bool.false_eq_true, ↓reduceIte]; rfl,
          ready', same.trans ledger, own, ?_⟩
        rw [same, Ledger.refusal, if_neg seen, if_pos ⟨durable, stored⟩]
        rfl
      · refine ⟨_, _, by simp only [stored, not_false_eq_true, decide_true, ↓reduceIte]; rfl, ready', same.trans ledger,
          own, ?_⟩
        rw [same, Ledger.refusal, if_neg seen, if_neg fun both => stored both.2]
        exact ⟨window, rfl, there⟩
    · refine ⟨made, _, by simp only [durable]; rfl, asked, ledger, own, ?_⟩
      rw [Ledger.refusal, if_neg seen, if_neg fun both => durable both.1]
      exact ⟨window, rfl, there⟩

/-- A window that lets a counter through takes it in as the last one. -/
theorem accept_queue_of_fresh {window : SlidingReplayWindow} {ctr : ℕ} (fresh : window.check ctr = true) :
    (window.accept ctr).queue = (window.queue ++ [ctr]).rtake window.windowSize := by
  by_cases positive : window.windowSize = 0
  · have bounded := window.bounded
    rw [positive, Nat.le_zero, List.length_eq_zero_iff] at bounded
    simp [SlidingReplayWindow.accept, positive, bounded, List.rtake]
  · rw [SlidingReplayWindow.accept_queue positive fresh, SlidingReplayWindow.evicted_concat positive]

/-- An acceptance in memory is the one of the ledger, but for the guard. -/
theorem ready_acceptReplay (ready : Ready settings s) {window : Ref} {acceptance : Acceptance K}
    (held : s.windowOf acceptance.slot.context = some window) (fits : acceptance.slot.ctr < 2 ^ 64)
    (fresh : acceptance.slot.ctr ∉ (ledgerOf s).memory acceptance.slot.context) :
    Ready settings (s.acceptReplay window acceptance) ∧ ledgerOf (s.acceptReplay window acceptance) =
      { ledgerOf s with
        memory := Function.update (ledgerOf s).memory acceptance.slot.context
          (((ledgerOf s).memory acceptance.slot.context ++ [acceptance.slot.ctr]).rtake settings.replayWindow)
        accepted := (ledgerOf s).accepted ++ [acceptance.slot] } := by
  have queue : ((s.windows.read window).accept acceptance.slot.ctr).queue =
      ((ledgerOf s).memory acceptance.slot.context ++ [acceptance.slot.ctr]).rtake settings.replayWindow := by
    rw [accept_queue_of_fresh ((ready_check ready held fits).mpr fresh), (ready.held _ _ held).2.1]
    simp [ledgerOf, remembered, held]
  have read (other : Ref) : (s.acceptReplay window acceptance).windows.read other =
      if other = window then (s.windows.read window).accept acceptance.slot.ctr else s.windows.read other :=
    Heap.read_write ..
  refine ⟨⟨ready.few, ready.resting, fun context other there => ?_, ready.apart, ready.settings⟩, ?_⟩
  · obtain ⟨below, size, carried⟩ := ready.held context other there
    rw [read]
    split
    · rename_i same
      subst same
      refine ⟨below, by rw [SlidingReplayWindow.accept_windowSize]; exact size, fun ctr member => ?_⟩
      rcases SlidingReplayWindow.mem_accept member with old | rfl
      · exact carried ctr old
      · exact fits
    · exact ⟨below, size, carried⟩
  · refine Ledger.ext rfl (funext fun context => ?_) rfl (by simp [ledgerOf, ProviderState.acceptReplay])
    have windowOf : (s.acceptReplay window acceptance).windowOf context = s.windowOf context := rfl
    change remembered _ context = Function.update (ledgerOf s).memory acceptance.slot.context _ context
    rw [remembered, windowOf]
    by_cases own : context = acceptance.slot.context
    · subst own
      rw [Function.update_self, held, ← queue]
      exact congrArg (·.queue) ((read window).trans (if_pos rfl))
    · rw [Function.update_of_ne own]
      cases there : s.windowOf context with
      | none => simp [ledgerOf, remembered, there]
      | some other =>
        have apart : other ≠ window := by
          rintro rfl
          exact own (ready.apart _ _ _ there held)
        simp [ledgerOf, remembered, there, read, apart]

/-- A buffer that has passed the check is opened, and recorded when it opens. -/
theorem openChecked_ledger (ready : Ready settings s) (crypto : WebCrypto K) {slot : Slot} {window : Ref}
    (held : s.windowOf slot.context = some window) (fits : slot.ctr < 2 ^ 64) (name : String)
    (passes : (ledgerOf s).refusal settings name slot = none) (sealedBytes : Bytes) (key : SFrameKey K) :
    ∃ s', alone (openChecked crypto settings slot window sealedBytes key : ChatTask K X P Bytes) s =
        some (SFrame.sframeDecrypt crypto sealedBytes (fun _ _ _ _ => some key) .fixed none .prefixed, s') ∧
      Ready settings s' ∧ s'.own = s.own ∧ ledgerOf s' =
        match SFrame.sframeDecrypt crypto sealedBytes (fun _ _ _ _ => some key) .fixed none .prefixed with
        | .ok _ => (ledgerOf s).record settings slot
        | .error _ => ledgerOf s := by
  obtain ⟨fresh, unguarded⟩ : slot.ctr ∉ (ledgerOf s).memory slot.context ∧ ¬ (ledgerOf s).Guards settings slot := by
    unfold Ledger.refusal at passes
    split at passes
    · cases passes
    · split at passes
      · cases passes
      · exact ⟨‹_›, ‹_›⟩
  unfold openChecked
  dsimp only
  rw [alone_bind, alone_promised, Option.bind_some]
  cases opened : SFrame.sframeDecrypt crypto sealedBytes (fun _ _ _ _ => some key) .fixed none .prefixed with
  | error refused => exact ⟨s, rfl, ready, rfl, rfl⟩
  | ok plaintext =>
    obtain ⟨accepted, ledger⟩ :=
      @ready_acceptReplay _ _ settings s ready window { slot, key, sealedBytes } held fits fresh
    have own : (s.acceptReplay window { slot, key, sealedBytes }).own = s.own := rfl
    simp only [alone_bind, alone_read, alone_update, Option.bind_some]
    generalize s.acceptReplay window { slot, key, sealedBytes } = t at accepted ledger own
    rw [accepted.durableAvailable]
    cases durable : settings.durable with
    | none =>
      refine ⟨t, rfl, accepted, own, ?_⟩
      rw [ledger, Ledger.record, durable]
    | some guard =>
      have unstored : slot.ctr ∉ (ledgerOf t).guard (durableKey slot.context) := by
        rw [ledger]
        exact fun stored => unguarded ⟨by rw [durable]; rfl, stored⟩
      obtain ⟨o', ran, ready', stored⟩ := guard_accept accepted unstored
      refine ⟨{ t with origin := o' }, ?_, ready', own, ?_⟩
      · simp only [Option.isSome_some, ↓reduceIte]
        rw [alone_bind, alone_onGuard, ran]
        rfl
      · rw [stored, ledger, Ledger.record, durable]
        rfl

end Providers
end SFrameRatchet.Chat
