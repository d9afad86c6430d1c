import SFrameRatchet.ChatShared

/-! What the replay windows of a provider remember: the counters that were accepted
last from each sender. It is kept by everything that happens between a check and an
acceptance, whichever provider's own state goes with it. -/
namespace SFrameRatchet.ChatWindows
open BigEndian Collections Crypto Replay Recency Chat
open SlidingReplayWindow (accept_queue evicted_concat check_iff)

variable {K X : Type}

/-- The part of the state that replays are told by. -/
def replayPart (s : ProviderState K X) := (s.replayWindows, s.windows, s.accepted)

/-- A window is asked for in the same way wherever the windows are the same. -/
theorem getReplayWindow_of {s s' : ProviderState K X} (same : replayPart s' = replayPart s) (context : SealContext)
    (windowSize : ℕ) : (s'.getReplayWindow context windowSize).1 = (s.getReplayWindow context windowSize).1 ∧
      replayPart (s'.getReplayWindow context windowSize).2 = replayPart (s.getReplayWindow context windowSize).2 := by
  simp only [replayPart, Prod.mk.injEq] at same
  obtain ⟨table, windows, accepted⟩ := same
  simp only [ProviderState.getReplayWindow, table, windows]
  split
  · exact ⟨rfl, by simp only [replayPart, table, windows, accepted]⟩
  · exact ⟨rfl, by simp only [replayPart, accepted]⟩

/-- Every sender's window holds the last counters that were accepted from it. -/
structure Remembers (windowSize : ℕ) (s : ProviderState K X) : Prop where
  held : ∀ context window, s.windowOf context = some window → window < s.windows.next ∧
    (s.windows.read window).windowSize = windowSize ∧
      (s.windows.read window).queue = (s.received context).rtake windowSize
  missing : ∀ context, s.windowOf context = none → s.received context = []
  apart : ∀ context other window, s.windowOf context = some window → s.windowOf other = some window → context = other
  carried : ∀ context, ∀ ctr ∈ s.received context, ctr < 2 ^ 64
  spaced : ∀ context, Spaced windowSize (s.received context)

/-- How often a counter has been accepted. -/
def count (s : ProviderState K X) (slot : Slot) : ℕ := (s.received slot.context).count slot.ctr

/-- A counter on its way to a window is not in it. -/
def OnItsWay (windowSize : ℕ) (s : ProviderState K X) (slot : Slot) (window : Ref) : Prop :=
  s.windowOf slot.context = some window ∧ slot.ctr < 2 ^ 64 ∧ slot.ctr ∉ (s.received slot.context).rtake windowSize

section Remembers
variable {windowSize : ℕ} {s s' : ProviderState K X}

theorem windowOf_of (same : replayPart s' = replayPart s) (context : SealContext) :
    s'.windowOf context = s.windowOf context := by
  have table : s'.replayWindows = s.replayWindows := congrArg (fun part => part.1) same
  rw [ProviderState.windowOf, table, ProviderState.windowOf]

theorem received_of (same : replayPart s' = replayPart s) (context : SealContext) :
    s'.received context = s.received context := by
  have accepted : s'.accepted = s.accepted := congrArg (fun part => part.2.2) same
  rw [ProviderState.received, accepted, ProviderState.received]

theorem remembers_of (remembers : Remembers windowSize s) (same : replayPart s' = replayPart s) :
    Remembers windowSize s' := by
  have windows : s'.windows = s.windows := congrArg (fun part => part.2.1) same
  constructor
  · intro context window
    rw [windowOf_of same, received_of same, windows]
    exact remembers.held context window
  · intro context
    rw [windowOf_of same, received_of same]
    exact remembers.missing context
  · intro context other window
    rw [windowOf_of same, windowOf_of same]
    exact remembers.apart context other window
  · intro context
    rw [received_of same]
    exact remembers.carried context
  · intro context
    rw [received_of same]
    exact remembers.spaced context

/-- Asking for a window, with no room to go, changes nothing but that it is there. -/
theorem remembers_getReplayWindow (remembers : Remembers windowSize s) {context : SealContext}
    (keeps : s.keepsRooms context.roomId = true) :
    Remembers windowSize (s.getReplayWindow context windowSize).2 ∧
      (s.getReplayWindow context windowSize).2.windowOf context = some (s.getReplayWindow context windowSize).1 ∧
      (∀ other window, s.windowOf other = some window →
        (s.getReplayWindow context windowSize).2.windowOf other = some window) ∧
      ∀ other, (s.getReplayWindow context windowSize).2.received other = s.received other := by
  rcases ProviderState.getReplayWindow_cases keeps windowSize with ⟨window, held, got⟩ | ⟨missing, table, got, holds, -⟩
  · rw [got]
    exact ⟨remembers, held, fun _ _ there => there, fun _ => rfl⟩
  · rw [got]
    have windowOf (other : SealContext) :
        ({ s with replayWindows := table, windows := s.windows.alloc { windowSize } } : ProviderState K X).windowOf
          other =
          if other = context then some s.windows.next else s.windowOf other := holds other
    refine ⟨⟨?_, ?_, ?_, remembers.carried, remembers.spaced⟩, ?_, ?_, fun _ => rfl⟩
    · intro other window there
      rw [windowOf] at there
      change window < s.windows.next + 1 ∧ ((s.windows.alloc _).read window).windowSize = windowSize ∧
        ((s.windows.alloc _).read window).queue = (s.received other).rtake windowSize
      rw [Heap.read_alloc]
      split at there
      · rename_i own
        subst own
        cases there
        rw [if_pos rfl, remembers.missing other missing]
        exact ⟨Nat.lt_succ_self _, rfl, (List.rtake_nil _).symm⟩
      · obtain ⟨old, size, queue⟩ := remembers.held other window there
        rw [if_neg (Nat.ne_of_lt old)]
        exact ⟨Nat.lt_succ_of_lt old, size, queue⟩
    · intro other gone
      rw [windowOf] at gone
      split at gone
      · cases gone
      · exact remembers.missing other gone
    · intro first second window one two
      rw [windowOf] at one two
      split at one
      · rename_i own
        cases one
        split at two
        · rename_i same
          exact own.trans same.symm
        · exact absurd (remembers.held _ _ two).1 (lt_irrefl _)
      · split at two
        · cases two
          exact absurd (remembers.held _ _ one).1 (lt_irrefl _)
        · exact remembers.apart first second window one two
    · rw [windowOf, if_pos rfl]
    · intro other window there
      rw [windowOf]
      split
      · rename_i own
        rw [own, missing] at there
        cases there
      · exact there

theorem received_acceptReplay (s : ProviderState K X) (window : Ref) (acceptance : Acceptance K)
    (context : SealContext) :
    (s.acceptReplay window acceptance).received context =
      s.received context ++ if acceptance.slot.context = context then [acceptance.slot.ctr] else [] :=
  ProviderState.received_append s.accepted acceptance context

/-- An acceptance of a counter that is not in its window. -/
theorem remembers_acceptReplay (remembers : Remembers windowSize s) (positive : windowSize ≠ 0) {window : Ref}
    {acceptance : Acceptance K} (way : OnItsWay windowSize s acceptance.slot window) :
    Remembers windowSize (s.acceptReplay window acceptance) := by
  obtain ⟨there, fits, fresh⟩ := way
  obtain ⟨-, size, queue⟩ := remembers.held _ _ there
  have received := received_acceptReplay s window acceptance
  constructor
  · intro context other holds
    obtain ⟨old, otherSize, otherQueue⟩ := remembers.held context other holds
    change other < s.windows.next ∧ ((s.windows.write _ _).read other).windowSize = windowSize ∧
      ((s.windows.write _ _).read other).queue = _
    rw [Heap.read_write, received]
    split
    · rename_i same
      subst same
      obtain rfl := remembers.apart _ _ _ there holds
      refine ⟨old, by rw [SlidingReplayWindow.accept_windowSize]; exact size, ?_⟩
      have takes : (s.windows.read other).check acceptance.slot.ctr = true := by
        rw [check_iff (by rw [size]; exact positive) fits, queue]
        · exact fresh
        · rw [queue]
          intro ctr member
          exact remembers.carried _ ctr ((rtake_sublist _ _).subset member)
      rw [accept_queue (by rw [size]; exact positive) takes, evicted_concat (by rw [size]; exact positive), size, queue,
        if_pos rfl]
      exact rtake_concat.symm
    · rename_i different
      have apart : acceptance.slot.context ≠ context := by
        rintro rfl
        exact different (Option.some.inj (holds.symm.trans there))
      rw [if_neg apart, List.append_nil]
      exact ⟨old, otherSize, otherQueue⟩
  · intro context gone
    have apart : acceptance.slot.context ≠ context := by
      rintro rfl
      cases there.symm.trans gone
    rw [received, if_neg apart, List.append_nil]
    exact remembers.missing context gone
  · exact remembers.apart
  · intro context ctr member
    rw [received] at member
    rcases List.mem_append.mp member with earlier | last
    · exact remembers.carried context ctr earlier
    · split at last
      · rw [List.mem_singleton.mp last]
        exact fits
      · cases last
  · intro context
    rw [received]
    split
    · rename_i own
      subst own
      exact spaced_concat (remembers.spaced _) fresh
    · rw [List.append_nil]
      exact remembers.spaced context

theorem count_acceptReplay (s : ProviderState K X) (window : Ref) (acceptance : Acceptance K) (slot : Slot) :
    count (s.acceptReplay window acceptance) slot = count s slot + if acceptance.slot = slot then 1 else 0 := by
  rw [count, received_acceptReplay, count, List.count_append]
  congr 1
  by_cases own : acceptance.slot = slot
  · simp [own]
  · rw [if_neg own]
    split
    · rename_i sender
      have apart : acceptance.slot.ctr ≠ slot.ctr := fun same => own (Slot.ext sender same)
      simp [apart]
    · simp

/-- The acceptance of another counter lets a counter through. -/
theorem onItsWay_acceptReplay {slot : Slot} {window other : Ref} {acceptance : Acceptance K}
    (way : OnItsWay windowSize s slot window) (apart : acceptance.slot ≠ slot) :
    OnItsWay windowSize (s.acceptReplay other acceptance) slot window := by
  obtain ⟨there, fits, fresh⟩ := way
  refine ⟨there, fits, fun member => ?_⟩
  rw [received_acceptReplay] at member
  split at member
  · rename_i sender
    rw [rtake_concat] at member
    rcases List.mem_append.mp ((rtake_sublist _ _).subset member) with earlier | last
    · exact fresh earlier
    · exact apart (Slot.ext sender (List.mem_singleton.mp last).symm)
  · rw [List.append_nil] at member
    exact fresh member

theorem onItsWay_of {slot : Slot} {window : Ref} (way : OnItsWay windowSize s slot window)
    (same : replayPart s' = replayPart s) : OnItsWay windowSize s' slot window := by
  rw [OnItsWay, windowOf_of same, received_of same]
  exact way

theorem count_of (same : replayPart s' = replayPart s) (slot : Slot) : count s' slot = count s slot := by
  rw [count, received_of same, count]

end Remembers

theorem remembers_create (settings : ReplaySettings) (own : X) (store : OrderedMap String (List ℕ)) :
    Remembers settings.replayWindow (.create settings own store : ProviderState K X) where
  held context window there := by cases there
  missing context _ := rfl
  apart context other window there := by cases there
  carried context ctr member := by cases member
  spaced context before entry after split := by simp [ProviderState.received, ProviderState.create] at split

end SFrameRatchet.ChatWindows
