import SFrameRatchet.DurableReplay
import SFrameRatchet.Replay
import SFrameRatchet.SFrame
import SFrameRatchet.Throwing

/-! What the two chat providers have in common, `chat/shared.ts` and its copy in
`chat/index.ts`: the replay windows of the rooms, the durable guard behind them,
and the way of a sealed buffer from its replay check to its acceptance. A window
is an object that a call in flight may hold after its room was dropped. -/
namespace SFrameRatchet.Chat
open BigEndian Collections Coroutine Throwing Crypto DurableReplay Replay

/-- The room and the sender of a call. -/
structure SealContext where
  roomId : String
  senderUid : String
  deriving DecidableEq

/-- What a replay window tells apart: a counter of a sender in a room. -/
@[ext] structure Slot where
  context : SealContext
  ctr : ℕ
  deriving DecidableEq

/-! ## Construction -/

inductive CtrStrategy where
  | random64
  | monotonicIdb
  deriving DecidableEq

/-- `ReplayCtrOptions`; an empty string is as good as none. -/
structure ReplayCtrOptions where
  ctrStrategy : CtrStrategy := .random64
  ctrKeyspace : String := ""
  replayWindow : ℕ := 1024
  durableReplay : Option Bool := none
  durableReplayNamespace : String := ""
  durableReplayWindow : Option ℕ := none

/-- What a provider has been constructed with; the durable window never remembers
more than the one in memory. -/
structure ReplaySettings where
  replayWindow : ℕ
  durable : Option (String × ℕ)
  backed : ∀ guard ∈ durable, guard.2 ≤ replayWindow

/-- The checks of both constructors, which name themselves and the option of the
namespace in their errors. -/
def createReplayCtrState (opts : ReplayCtrOptions) (providerName namespaceOption : String) :
    Except JsError ReplaySettings :=
  let durableReplayWindow := opts.durableReplayWindow.getD opts.replayWindow
  if opts.ctrStrategy = .monotonicIdb ∧ opts.ctrKeyspace = "" then
    .error (.error s!"{providerName}: ctrKeyspace is required when ctrStrategy is monotonic-idb")
  else if opts.durableReplay = some true ∧ opts.durableReplayNamespace = "" then
    .error (.error s!"{providerName}: {namespaceOption} is required when durableReplay is true")
  else if opts.durableReplay = some false ∨ opts.durableReplayNamespace = "" then
    .ok { replayWindow := opts.replayWindow, durable := none, backed := nofun }
  else if within : durableReplayWindow ≤ opts.replayWindow then
    .ok { replayWindow := opts.replayWindow
          durable := some (opts.durableReplayNamespace, durableReplayWindow)
          backed := by simpa using within }
  else
    .error (.error (s!"{providerName}: durableReplayWindow ({durableReplayWindow}) must be <= " ++
      s!"replayWindow ({opts.replayWindow})"))

/-! ## State -/

/-- A buffer that has been accepted, and the key that opened it. -/
structure Acceptance (K : Type) where
  slot : Slot
  key : SFrameKey K
  sealedBytes : Bytes
  deriving DecidableEq

/-- The state of a provider: its own part, the windows by room and sender, and the
page's guard. `clearing` names the keys whose clear has been started by a call that
does not wait for it, and `accepted` is history. -/
structure ProviderState (K X : Type) where
  own : X
  replayWindows : OrderedMap String (OrderedMap String Ref) := ∅
  windows : Heap SlidingReplayWindow := ⟨fun _ => .new 0, 0⟩
  origin : Origin Unit
  clearing : List String := []
  accepted : List (Acceptance K) := []

/-- Where a call waits; `P` has the places of one provider's own code. A buffer
that has passed the check in memory is on its way to the window it passed. -/
inductive ChatSite (P : Type) where
  | start
  | own (place : P)
  | checking (slot : Slot) (window : Ref) (guard : GuardSite Unit)
  | opening (slot : Slot) (window : Ref) (opens : Bool)
  | recording (slot : Slot) (guard : GuardSite Unit)
  /-- For the moment at which a clear that was started goes on. -/
  | clears (key : String)
  | clearing (guard : GuardSite Unit)
  deriving DecidableEq

abbrev ChatTask (K X P α : Type) := Async (ChatSite P) (ProviderState K X) JsError α

def maxReplayRooms : ℕ := 1024

/-- The loop of `evictOldReplayRooms`; every round removes a room. -/
def evictRounds : ℕ → OrderedMap String (OrderedMap String Ref) → OrderedMap String (OrderedMap String Ref)
  | 0, replayWindows => replayWindows
  | rounds + 1, replayWindows =>
    if replayWindows.keys.length > maxReplayRooms then
      match replayWindows.keys with
      | [] => replayWindows
      | oldest :: _ => evictRounds rounds (replayWindows.delete oldest)
    else replayWindows

def evictOldReplayRooms (replayWindows : OrderedMap String (OrderedMap String Ref)) :
    OrderedMap String (OrderedMap String Ref) :=
  evictRounds replayWindows.keys.length replayWindows

/-- Up to the cap no room has to go. -/
theorem evictOldReplayRooms_small {replayWindows : OrderedMap String (OrderedMap String Ref)}
    (small : replayWindows.keys.length ≤ maxReplayRooms) : evictOldReplayRooms replayWindows = replayWindows := by
  unfold evictOldReplayRooms
  cases replayWindows.keys.length with
  | zero => rfl
  | succ rounds => rw [evictRounds, if_neg (by omega)]

/-- A room that had to go has no windows, and the others have theirs. -/
theorem get?_evictOldReplayRooms (replayWindows : OrderedMap String (OrderedMap String Ref)) (roomId : String) :
    (evictOldReplayRooms replayWindows).get? roomId = none ∨
      (evictOldReplayRooms replayWindows).get? roomId = replayWindows.get? roomId := by
  unfold evictOldReplayRooms
  generalize replayWindows.keys.length = rounds
  induction rounds generalizing replayWindows with
  | zero => exact .inr rfl
  | succ rounds ih =>
    rw [evictRounds]
    split
    · split
      · exact .inr rfl
      · rename_i oldest _ _
        rcases ih (replayWindows.delete oldest) with gone | same
        · exact .inl gone
        · rw [same, OrderedMap.get?_delete]
          split
          · exact .inl rfl
          · exact .inr rfl
    · exact .inr rfl

def durableKey (context : SealContext) : String := s!"{context.roomId}|{context.senderUid}"

/-- Within one room the senders have keys of their own. -/
theorem durableKey_injective (roomId : String) :
    Function.Injective fun senderUid => durableKey ⟨roomId, senderUid⟩ := by
  intro first second same
  simp only [durableKey] at same
  exact (String.append_right_inj _).mp same

namespace ProviderState
variable {K X : Type}

/-- A provider that has just been constructed, on what earlier pages have stored. -/
def create (settings : ReplaySettings) (own : X) (store : OrderedMap String (List ℕ)) : ProviderState K X :=
  let guard := settings.durable.getD ("", 0)
  { own, origin := reopened guard.1 guard.2 store [] }

variable (self : ProviderState K X)

/-- The window of a sender, which is made when it is first asked for. -/
def getReplayWindow (context : SealContext) (windowSize : ℕ) : Ref × ProviderState K X :=
  let inner := (self.replayWindows.get? context.roomId).getD ∅
  match inner.get? context.senderUid with
  | some window => (window, self)
  | none =>
    let made := self.replayWindows.set context.roomId (inner.set context.senderUid self.windows.next)
    (self.windows.next, { self with
      replayWindows := if self.replayWindows.has context.roomId then made else evictOldReplayRooms made
      windows := self.windows.alloc (.new windowSize) })

/-- The window of a sender, if there is one. -/
def windowOf (context : SealContext) : Option Ref :=
  (self.replayWindows.get? context.roomId).bind fun senders => senders.get? context.senderUid

/-- Asking for a window of the room does not make another room go. -/
def keepsRooms (roomId : String) : Bool :=
  self.replayWindows.has roomId || decide (self.replayWindows.keys.length < maxReplayRooms)

/-- The counters that have been accepted from a sender, oldest first. -/
def received (context : SealContext) : List ℕ :=
  (self.accepted.filter fun acceptance => acceptance.slot.context = context).map fun acceptance => acceptance.slot.ctr

/-- Record a counter in the window that let it pass. -/
def acceptReplay (window : Ref) (acceptance : Acceptance K) : ProviderState K X :=
  { self with
    windows := self.windows.write window ((self.windows.read window).accept acceptance.slot.ctr)
    accepted := self.accepted ++ [acceptance] }

/-- `durable?.available`. -/
def durableAvailable (settings : ReplaySettings) : Bool := settings.durable.isSome && (self.origin.tabs ()).available

/-- Forget the windows of a room, and start the clears of the senders they were for. -/
def dropReplayWindows (settings : ReplaySettings) (roomId : String) : ProviderState K X :=
  let senders := (self.replayWindows.get? roomId).getD ∅
  { self with
    replayWindows := self.replayWindows.delete roomId
    clearing := self.clearing ++
      if self.durableAvailable settings then senders.keys.map fun senderUid => durableKey ⟨roomId, senderUid⟩ else [] }

variable {self : ProviderState K X} {context : SealContext}

/-- A window is there already, or a fresh one takes its place among the others. -/
theorem getReplayWindow_cases (keeps : self.keepsRooms context.roomId = true) (windowSize : ℕ) :
    (∃ window, self.windowOf context = some window ∧ self.getReplayWindow context windowSize = (window, self)) ∨
      self.windowOf context = none ∧ ∃ replayWindows, self.getReplayWindow context windowSize = (self.windows.next,
        { self with replayWindows, windows := self.windows.alloc { windowSize } }) ∧
        (∀ other, ({ self with replayWindows } : ProviderState K X).windowOf other =
          if other = context then some self.windows.next else self.windowOf other) ∧
        ∀ roomId, roomId ≠ context.roomId → replayWindows.get? roomId = self.replayWindows.get? roomId := by
  unfold getReplayWindow
  dsimp only
  split
  · rename_i window held
    refine .inl ⟨window, ?_, rfl⟩
    cases room : self.replayWindows.get? context.roomId with
    | none => simp [room] at held
    | some senders => simpa [windowOf, room] using held
  · rename_i missing
    have made : (if self.replayWindows.has context.roomId = true then
          self.replayWindows.set context.roomId
            (((self.replayWindows.get? context.roomId).getD ∅).set context.senderUid self.windows.next)
        else evictOldReplayRooms (self.replayWindows.set context.roomId
          (((self.replayWindows.get? context.roomId).getD ∅).set context.senderUid self.windows.next))) =
        self.replayWindows.set context.roomId
          (((self.replayWindows.get? context.roomId).getD ∅).set context.senderUid self.windows.next) := by
      split
      · rfl
      · rename_i absent
        apply evictOldReplayRooms_small
        rw [OrderedMap.keys_set_absent (by simpa using absent)]
        simpa [keepsRooms, absent, Nat.succ_le_iff] using keeps
    refine .inr ⟨?_, _, rfl, fun other => ?_, fun roomId apart => ?_⟩
    · cases room : self.replayWindows.get? context.roomId with
      | none => simp [windowOf, room]
      | some senders => simpa [windowOf, room] using missing
    · simp only [windowOf, made, OrderedMap.get?_set]
      by_cases room : other.roomId = context.roomId
      · by_cases sender : other.senderUid = context.senderUid
        · have same : other = context := by
            cases other
            cases context
            simp_all
          simp [same]
        · have apart : other ≠ context := fun same => sender (congrArg SealContext.senderUid same)
          simp only [room, ↓reduceIte, Option.bind_some, OrderedMap.get?_set, sender, apart]
          cases self.replayWindows.get? context.roomId <;> rfl
      · have apart : other ≠ context := fun same => room (congrArg SealContext.roomId same)
        simp only [room, ↓reduceIte, apart]
    · rw [made, OrderedMap.get?_set, if_neg apart]

/-- Asking for a window changes the windows only. -/
theorem getReplayWindow_snd (self : ProviderState K X) (context : SealContext) (windowSize : ℕ) :
    ∃ replayWindows windows, (self.getReplayWindow context windowSize).2 = { self with replayWindows, windows } := by
  unfold getReplayWindow
  dsimp only
  split
  · exact ⟨_, _, rfl⟩
  · exact ⟨_, _, rfl⟩

section Rest
variable (self : ProviderState K X) (context : SealContext) (windowSize : ℕ)

@[simp] theorem getReplayWindow_own : (self.getReplayWindow context windowSize).2.own = self.own := by
  obtain ⟨_, _, asked⟩ := self.getReplayWindow_snd context windowSize
  rw [asked]

@[simp] theorem getReplayWindow_origin : (self.getReplayWindow context windowSize).2.origin = self.origin := by
  obtain ⟨_, _, asked⟩ := self.getReplayWindow_snd context windowSize
  rw [asked]

@[simp] theorem getReplayWindow_clearing : (self.getReplayWindow context windowSize).2.clearing = self.clearing := by
  obtain ⟨_, _, asked⟩ := self.getReplayWindow_snd context windowSize
  rw [asked]

@[simp] theorem getReplayWindow_accepted : (self.getReplayWindow context windowSize).2.accepted = self.accepted := by
  obtain ⟨_, _, asked⟩ := self.getReplayWindow_snd context windowSize
  rw [asked]

end Rest

/-- A guard that remembers something was constructed with a namespace. -/
theorem durableAvailable_of_positive {settings : ReplaySettings}
    (same : (self.origin.tabs ()).settings = (true, settings.durable.getD ("", 0)))
    (positive : (self.origin.tabs ()).window ≠ 0) : self.durableAvailable settings = true := by
  have available : (self.origin.tabs ()).available = true := congrArg (·.1) same
  have window : (self.origin.tabs ()).window = (settings.durable.getD ("", 0)).2 := congrArg (·.2.2) same
  cases named : settings.durable with
  | none =>
    rw [named] at window
    exact absurd window positive
  | some guard => simp [durableAvailable, named, available]

/-- Dropping a room starts the clears of the senders that have a window. -/
theorem mem_dropReplayWindows {settings : ReplaySettings} {roomId key : String} :
    key ∈ (self.dropReplayWindows settings roomId).clearing ↔ key ∈ self.clearing ∨
      self.durableAvailable settings = true ∧
        ∃ senderUid, (self.windowOf ⟨roomId, senderUid⟩).isSome ∧ durableKey ⟨roomId, senderUid⟩ = key := by
  have window (senderUid : String) : senderUid ∈ ((self.replayWindows.get? roomId).getD ∅).keys ↔
      (self.windowOf ⟨roomId, senderUid⟩).isSome := by
    rw [OrderedMap.mem_keys, windowOf]
    cases self.replayWindows.get? roomId <;> simp
  unfold dropReplayWindows
  by_cases durable : self.durableAvailable settings = true
  · simp [durable, window]
  · simp [durable]

theorem received_append (earlier : List (Acceptance K)) (acceptance : Acceptance K) (context : SealContext) :
    ({ self with accepted := earlier ++ [acceptance] } : ProviderState K X).received context =
      ({ self with accepted := earlier } : ProviderState K X).received context ++
        if acceptance.slot.context = context then [acceptance.slot.ctr] else [] := by
  by_cases own : acceptance.slot.context = context
  · simp [received, own]
  · simp [received, own]

end ProviderState

/-! ## The way of a sealed buffer -/

section Calls
variable {K X P : Type}

/-- Run a task of the page's durable guard. -/
def onGuard {α : Type} (place : GuardSite Unit → ChatSite P) (task : Task Unit α) : ChatTask K X P α :=
  inside place ProviderState.origin (fun s origin => { s with origin }) task

theorem alone_onGuard {α : Type} (place : GuardSite Unit → ChatSite P) (task : Task Unit α) (s : ProviderState K X) :
    alone (onGuard place task : ChatTask K X P α) s =
      (task.solo s.origin).map fun result => (.ok result.1, { s with origin := result.2 }) := by
  rw [onGuard, alone_inside]
  · intro _
    rfl
  · intro _ _
    rfl
  · intro _ _ _
    rfl

/-- The guard leaves alone what is not its own. -/
theorem meets_onGuard {α : Type} {contract : Contract (ChatSite P) (ProviderState K X)}
    {holds : ChatSite P → ProviderState K X → ProviderState K X → Prop} {place : GuardSite Unit → ChatSite P}
    {task : Task Unit α} {returns : ChatSite P → ProviderState K X → α → ProviderState K X → Prop}
    {throws : ChatSite P → ProviderState K X → JsError → ProviderState K X → Prop} {at_ : ChatSite P}
    {start s : ProviderState K X} (survives : ∀ here, Survives contract holds (place here))
    (untouched : ∀ at_ start s origin, holds at_ start s → holds at_ start { s with origin })
    (now : holds at_ start s) (after : ∀ at_ start value s, holds at_ start s → returns at_ start value s) :
    Meets contract (onGuard place task) returns throws at_ start s :=
  meets_inside survives untouched now after

/-- The replay check in memory, and the durable one when that passes. -/
def checkReplay (name : String) (settings : ReplaySettings) (slot : Slot) : ChatTask K X P Ref := do
  let s ← read
  let (window, s) := s.getReplayWindow slot.context settings.replayWindow
  update fun _ => s
  let replayed (kind : String) : JsError :=
    .chatReplay (s!"{name}: {kind}replay detected (ctr={slot.ctr}, room={slot.context.roomId}, " ++
      s!"uid={slot.context.senderUid})") slot.context.roomId slot.context.senderUid slot.ctr
  if (s.windows.read window).check slot.ctr then
    if s.durableAvailable settings then
      let fresh ← onGuard (.checking slot window) (DurableReplay.check () (durableKey slot.context) slot.ctr)
      if fresh then return window else throw (replayed "durable cross-reload ")
    else return window
  else throw (replayed "")

/-- Open a buffer that has passed the check, and record its counter. -/
def openChecked (crypto : WebCrypto K) (settings : ReplaySettings) (slot : Slot) (window : Ref) (sealedBytes : Bytes)
    (key : SFrameKey K) : ChatTask K X P Bytes := do
  let opened := SFrame.sframeDecrypt crypto sealedBytes (fun _ _ _ _ => some key) .fixed none .prefixed
  let plaintext ← promised (.opening slot window opened.toBool) opened
  update fun s => s.acceptReplay window { slot, key, sealedBytes }
  let s ← read
  if s.durableAvailable settings then
    onGuard (.recording slot) (DurableReplay.accept () (durableKey slot.context) slot.ctr)
  return plaintext

/-- The clear of a key that a call has started without waiting for it. -/
def settleClear (key : String) : ChatTask K X P Unit := do
  pauseUntil (.clears key) fun s => s.clearing.contains key
  update fun s => { s with clearing := s.clearing.erase key }
  onGuard .clearing (DurableReplay.clear () key)

/-- Run alone, a check asks the window, and then the guard if there is one. -/
theorem alone_checkReplay {name : String} {settings : ReplaySettings} {slot : Slot} {s s' : ProviderState K X}
    {outcome : Except JsError Ref}
    (ran : alone (checkReplay name settings slot : ChatTask K X P Ref) s = some (outcome, s')) :
    (∃ origin, s' = { (s.getReplayWindow slot.context settings.replayWindow).2 with origin }) ∧
      ∀ window, outcome = .ok window → window = (s.getReplayWindow slot.context settings.replayWindow).1 ∧
        (s'.windows.read window).check slot.ctr = true ∧
          ((s.getReplayWindow slot.context settings.replayWindow).2.durableAvailable settings = true →
            ((DurableReplay.check () (durableKey slot.context) slot.ctr).solo
              (s.getReplayWindow slot.context settings.replayWindow).2.origin).map Prod.fst = some true) := by
  unfold checkReplay at ran
  simp only [alone_bind, alone_read, alone_update, Option.bind_some] at ran
  generalize s.getReplayWindow slot.context settings.replayWindow = got at ran ⊢
  obtain ⟨found, made⟩ := got
  dsimp only at ran ⊢
  split at ran
  · rename_i fresh
    split at ran
    · rw [alone_bind, alone_onGuard] at ran
      cases asked : (DurableReplay.check () (durableKey slot.context) slot.ctr).solo made.origin with
      | none => simp [asked] at ran
      | some answer =>
        simp only [asked, Option.map_some, Option.bind_some] at ran
        split at ran
        · rename_i passes
          cases ran
          refine ⟨⟨_, rfl⟩, fun window same => ?_⟩
          cases same
          exact ⟨rfl, fresh, fun _ => congrArg some passes⟩
        · cases ran
          exact ⟨⟨_, rfl⟩, nofun⟩
    · rename_i memory
      cases ran
      refine ⟨⟨_, rfl⟩, fun window same => ?_⟩
      cases same
      exact ⟨rfl, fresh, fun durable => absurd durable memory⟩
  · cases ran
    exact ⟨⟨_, rfl⟩, nofun⟩

/-- Run alone, an opening accepts what it opens, and nothing else. -/
theorem alone_openChecked {crypto : WebCrypto K} {settings : ReplaySettings} {slot : Slot} {window : Ref}
    {sealedBytes : Bytes} {key : SFrameKey K} {s s' : ProviderState K X} {outcome : Except JsError Bytes}
    (ran : alone (openChecked crypto settings slot window sealedBytes key : ChatTask K X P Bytes) s =
      some (outcome, s')) :
    SFrame.sframeDecrypt crypto sealedBytes (fun _ _ _ _ => some key) .fixed none .prefixed = outcome ∧
      ∃ origin, s' = { (match outcome with
        | .ok _ => s.acceptReplay window { slot, key, sealedBytes }
        | .error _ => s) with origin } := by
  unfold openChecked at ran
  dsimp only at ran
  rw [alone_bind, alone_promised, Option.bind_some] at ran
  cases opened : SFrame.sframeDecrypt crypto sealedBytes (fun _ _ _ _ => some key) .fixed none .prefixed with
  | error refused =>
    rw [opened] at ran
    cases ran
    exact ⟨rfl, _, rfl⟩
  | ok plaintext =>
    rw [opened] at ran
    simp only [alone_bind, alone_read, alone_update, Option.bind_some] at ran
    split at ran
    · rw [alone_bind, alone_onGuard] at ran
      cases recorded : (DurableReplay.accept () (durableKey slot.context) slot.ctr).solo
          (s.acceptReplay window { slot, key, sealedBytes }).origin with
      | none => simp [recorded] at ran
      | some answer =>
        simp only [recorded, Option.map_some, Option.bind_some] at ran
        cases ran
        exact ⟨rfl, _, rfl⟩
    · cases ran
      exact ⟨rfl, _, rfl⟩

end Calls
end SFrameRatchet.Chat
