import SFrameRatchet.Bytes
import SFrameRatchet.Recency

/-! The sliding replay window of `internal/replay.ts`. The window remembers the
last distinct counters it accepted, in order; counters are told apart by their
low 64 bits, which is all a header can carry. -/
namespace SFrameRatchet.Replay
open ConstantTime

/-- The set of remembered counters and the queue they leave it by. Both hold
the same counters in the same order, no two of which compare equal. -/
structure SlidingReplayWindow where
  windowSize : ℕ
  seen : List ℕ := []
  queue : List ℕ := []
  agree : seen = queue := by rfl
  distinct : queue.Pairwise fun first second => ctBigintEqual first second = false := by simp
  bounded : queue.length ≤ windowSize := by simp
  deriving DecidableEq

namespace SlidingReplayWindow

/-- A window that has seen nothing. -/
abbrev new (windowSize : ℕ) : SlidingReplayWindow := { windowSize }

/-- Whether the set holds a counter, by a scan with the branchless comparison. -/
def scan (seen : List ℕ) (ctr : ℕ) : Bool := seen.any fun other => ctBigintEqual other ctr

/-- Whether a counter would be accepted; a window of size zero takes all. -/
def check (window : SlidingReplayWindow) (ctr : ℕ) : Bool :=
  if window.windowSize = 0 then true else !scan window.seen ctr

/-- The queue without its oldest counter, when there is no room for another. -/
def evicted (window : SlidingReplayWindow) : List ℕ :=
  if window.queue.length ≥ window.windowSize then window.queue.tail else window.queue

/-- The set after the oldest counter of a full queue was deleted from it. -/
def evictedSeen (window : SlidingReplayWindow) : List ℕ :=
  if window.queue.length ≥ window.windowSize then
    match window.queue with
    | [] => window.seen
    | oldest :: _ => window.seen.filter (· ≠ oldest)
  else window.seen

theorem evictedSeen_eq (window : SlidingReplayWindow) : window.evictedSeen = window.evicted := by
  unfold evictedSeen evicted
  split
  · rw [window.agree]
    have distinct := window.distinct
    generalize window.queue = queue at distinct
    cases queue with
    | nil => rfl
    | cons oldest rest =>
      obtain ⟨first, -⟩ := List.pairwise_cons.mp distinct
      have others : ∀ ctr ∈ rest, ctr ≠ oldest := by
        intro ctr member same
        have apart := first ctr member
        rw [same, ctBigintEqual_iff.mpr rfl] at apart
        cases apart
      change (oldest :: rest).filter (· ≠ oldest) = rest
      rw [List.filter_cons_of_neg (by simp), List.filter_eq_self.mpr (by simpa using others)]
  · exact window.agree

theorem evicted_sublist (window : SlidingReplayWindow) : window.evicted.Sublist window.queue := by
  unfold evicted
  split
  · exact List.tail_sublist _
  · exact List.Sublist.refl _

theorem evicted_length (window : SlidingReplayWindow) (positive : window.windowSize ≠ 0) :
    window.evicted.length < window.windowSize := by
  have bounded := window.bounded
  unfold evicted
  split
  · rw [List.length_tail]; omega
  · omega

theorem scan_false {seen : List ℕ} {ctr : ℕ} :
    scan seen ctr = false ↔ ∀ other ∈ seen, ctBigintEqual other ctr = false := by
  simp [scan]

/-- Record a counter. A full queue drops its oldest; a counter that is still
remembered keeps its place. -/
def accept (window : SlidingReplayWindow) (ctr : ℕ) : SlidingReplayWindow :=
  if positive : window.windowSize = 0 then window
  else if fresh : scan window.seen ctr = true then window
  else
    { windowSize := window.windowSize
      seen := window.evictedSeen ++ [ctr]
      queue := window.evicted ++ [ctr]
      agree := by rw [evictedSeen_eq]
      distinct := by
        rw [Bool.not_eq_true, scan_false, window.agree] at fresh
        refine List.pairwise_append.mpr ⟨window.distinct.sublist window.evicted_sublist,
          List.pairwise_singleton _ _, fun other member last same => ?_⟩
        rw [List.mem_singleton.mp same]
        exact fresh other (window.evicted_sublist.subset member)
      bounded := by
        have room := window.evicted_length positive
        simp only [List.length_append, List.length_singleton]
        omega }

/-- Forget everything. -/
def clear (window : SlidingReplayWindow) : SlidingReplayWindow :=
  { windowSize := window.windowSize }

/-- A counter is refused exactly while the queue of a window remembers it. -/
theorem check_eq_false {window : SlidingReplayWindow} {ctr : ℕ} (positive : window.windowSize ≠ 0) :
    window.check ctr = false ↔ ∃ other ∈ window.queue, ctBigintEqual other ctr = true := by
  simp [check, positive, scan, window.agree]

@[simp] theorem accept_windowSize (window : SlidingReplayWindow) (ctr : ℕ) :
    (window.accept ctr).windowSize = window.windowSize := by
  unfold accept
  split
  · rfl
  · split <;> rfl

/-- Accepting a counter the window does not remember appends it. -/
theorem accept_queue {window : SlidingReplayWindow} {ctr : ℕ} (positive : window.windowSize ≠ 0)
    (fresh : window.check ctr = true) : (window.accept ctr).queue = window.evicted ++ [ctr] := by
  have missing : scan window.seen ctr = false := by simpa [check, positive] using fresh
  simp [accept, positive, missing]

/-- Counters that a header can carry are told apart as they are. -/
theorem check_iff {window : SlidingReplayWindow} {ctr : ℕ} (positive : window.windowSize ≠ 0) (fits : ctr < 2 ^ 64)
    (carried : ∀ other ∈ window.queue, other < 2 ^ 64) : window.check ctr = true ↔ ctr ∉ window.queue := by
  rw [← not_iff_not, Bool.not_eq_true, check_eq_false positive, not_not]
  refine ⟨fun ⟨other, member, same⟩ => ?_, fun member => ⟨ctr, member, ctBigintEqual_iff.mpr rfl⟩⟩
  have equal := ctBigintEqual_iff.mp same
  have below := carried other member
  rwa [show ctr = other by omega]

theorem accept_known {window : SlidingReplayWindow} {ctr : ℕ} (known : window.check ctr = false) :
    window.accept ctr = window := by
  have positive : window.windowSize ≠ 0 := fun zero => by simp [check, zero] at known
  have there : scan window.seen ctr = true := by simpa [check, positive] using known
  simp [accept, positive, there]

/-- Making room and appending keeps the end of the queue. -/
theorem evicted_concat {window : SlidingReplayWindow} (positive : window.windowSize ≠ 0) (ctr : ℕ) :
    window.evicted ++ [ctr] = (window.queue ++ [ctr]).rtake window.windowSize := by
  have bounded := window.bounded
  have single : [ctr].rtake window.windowSize = [ctr] :=
    Recency.rtake_of_length_le (by simp only [List.length_singleton]; omega)
  rw [Recency.rtake_append, single, List.length_singleton, evicted]
  split
  · rw [List.rtake, show window.queue.length - (window.windowSize - 1) = 1 by omega, List.drop_one]
  · rw [Recency.rtake_of_length_le (by omega)]

/-- Whatever a window remembers after an acceptance, it remembered before or it
is the counter accepted. -/
theorem mem_accept {window : SlidingReplayWindow} {ctr other : ℕ}
    (member : other ∈ (window.accept ctr).queue) : other ∈ window.queue ∨ other = ctr := by
  unfold accept at member
  split at member
  · exact .inl member
  · split at member
    · exact .inl member
    · rcases List.mem_append.mp member with old | new
      · exact .inl (window.evicted_sublist.subset old)
      · exact .inr (List.mem_singleton.mp new)

/-- A counter above everything remembered is accepted. -/
theorem check_above {window : SlidingReplayWindow} {ctr : ℕ} (fits : ctr < 2 ^ 64)
    (above : ∀ other ∈ window.queue, other < ctr) : window.check ctr = true := by
  by_cases positive : window.windowSize = 0
  · simp [check, positive]
  · by_contra refused
    obtain ⟨other, member, same⟩ := (check_eq_false positive).mp (by simpa using refused)
    have below := above other member
    have equal := ctBigintEqual_iff.mp same
    omega

/-! ## Histories of a window -/

/-- An operation on a window. -/
inductive Operation where
  | check (ctr : ℕ)
  | accept (ctr : ℕ)
  | clear
  deriving DecidableEq

/-- The counter of an operation is one that a header can carry. -/
def Operation.Fits : Operation → Prop
  | .check ctr | .accept ctr => ctr < 2 ^ 64
  | .clear => True

/-- The window after an operation; a check leaves it alone. -/
def perform (window : SlidingReplayWindow) : Operation → SlidingReplayWindow
  | .check _ => window
  | .accept ctr => window.accept ctr
  | .clear => window.clear

/-- The counters newly accepted since the last clear, oldest first. An acceptance
is new unless its counter is among the last `size` of them. -/
def newlyAccepted (size : ℕ) (log : List ℕ) : Operation → List ℕ
  | .check _ => log
  | .accept ctr => if ctr ∈ log.rtake size then log else log ++ [ctr]
  | .clear => []

/-- What a window of some size holds after the counters of a log. -/
structure Remembers (size : ℕ) (log : List ℕ) (window : SlidingReplayWindow) : Prop where
  sized : window.windowSize = size
  last : window.queue = log.rtake size
  carried : ∀ ctr ∈ window.queue, ctr < 2 ^ 64

section Histories
variable {size : ℕ} {log : List ℕ} {window : SlidingReplayWindow}

theorem Remembers.check_eq_false (held : Remembers size log window) (positive : 1 ≤ size) {ctr : ℕ}
    (fits : ctr < 2 ^ 64) : window.check ctr = false ↔ ctr ∈ log.rtake size := by
  have known := check_iff (by rw [held.sized]; omega) fits held.carried
  rw [← Bool.not_eq_true, known, not_not, held.last]

/-- A step of the window is a step of the log. -/
theorem Remembers.perform (held : Remembers size log window) (positive : 1 ≤ size) {operation : Operation}
    (fits : operation.Fits) : Remembers size (newlyAccepted size log operation) (window.perform operation) := by
  cases operation with
  | check ctr => exact held
  | clear =>
    have none : ([] : List ℕ).rtake size = [] := List.rtake_nil _
    exact ⟨held.sized, none.symm, fun ctr among => absurd among List.not_mem_nil⟩
  | accept ctr =>
    have there := held.check_eq_false positive fits
    by_cases member : ctr ∈ log.rtake size
    · simp only [SlidingReplayWindow.perform, newlyAccepted, if_pos member, accept_known (there.mpr member)]
      exact held
    · have fresh : window.check ctr = true := by simpa using mt there.mp member
      have sized : window.windowSize ≠ 0 := by rw [held.sized]; omega
      have appended : (window.accept ctr).queue = (log ++ [ctr]).rtake size := by
        rw [accept_queue sized fresh, evicted_concat sized, held.last, held.sized, ← Recency.rtake_concat]
      refine ⟨?_, ?_, ?_⟩
      · exact (accept_windowSize window ctr).trans held.sized
      · rw [newlyAccepted, if_neg member]
        exact appended
      · intro other among
        rcases mem_accept among with old | rfl
        · exact held.carried other old
        · exact fits

theorem Remembers.performs (held : Remembers size log window) (positive : 1 ≤ size) {operations : List Operation}
    (fit : ∀ operation ∈ operations, operation.Fits) :
    Remembers size (operations.foldl (newlyAccepted size) log)
      (operations.foldl SlidingReplayWindow.perform window) := by
  induction operations generalizing log window with
  | nil => exact held
  | cons operation rest ih =>
    exact ih (held.perform positive (fit operation List.mem_cons_self)) fun other member =>
      fit other (List.mem_cons_of_mem _ member)

theorem remembers_new (size : ℕ) : Remembers size [] { windowSize := size } :=
  ⟨rfl, by simp, by simp⟩

theorem queue_nodup (window : SlidingReplayWindow) : window.queue.Nodup :=
  window.distinct.imp fun apart same => by
    rw [same, ctBigintEqual_iff.mpr rfl] at apart
    cases apart

end Histories

/-- **The last counters.** Whatever is done with a new window, its set and its queue
hold the same counters, each once and no more than its size; it refuses exactly the
last so many that were newly accepted since it was cleared. -/
theorem remembers_last_distinct (size : ℕ) (positive : 1 ≤ size) (operations : List Operation)
    (fit : ∀ operation ∈ operations, operation.Fits) :
    let window := operations.foldl SlidingReplayWindow.perform { windowSize := size }
    let log := operations.foldl (newlyAccepted size) []
    window.seen.Nodup ∧ window.queue.Nodup ∧ (∀ ctr, ctr ∈ window.seen ↔ ctr ∈ window.queue) ∧
      window.queue.length ≤ size ∧ window.queue = log.rtake size ∧
      ∀ ctr, ctr < 2 ^ 64 → (window.check ctr = false ↔ ctr ∈ log.rtake size) := by
  intro window log
  have held : Remembers size log window := (remembers_new size).performs positive fit
  have bounded : window.queue.length ≤ size := held.sized ▸ window.bounded
  refine ⟨?_, window.queue_nodup, ?_, bounded, held.last, fun ctr => held.check_eq_false positive⟩
  · rw [window.agree]
    exact window.queue_nodup
  · intro ctr
    rw [window.agree]

/-- Three counters through a window of two: the first is forgotten, and accepting
the second again does not renew it. -/
theorem remembers_last_distinct_two :
    let operations : List Operation := [.accept 5, .accept 6, .accept 7, .accept 6, .check 5]
    (∀ operation ∈ operations, operation.Fits) ∧
      operations.foldl (newlyAccepted 2) [] = [5, 6, 7] ∧
      ((operations.foldl SlidingReplayWindow.perform { windowSize := 2 }).check 6 = false ↔
        6 ∈ (operations.foldl (newlyAccepted 2) []).rtake 2) := by
  intro operations
  have fit : ∀ operation ∈ operations, operation.Fits := by simp [operations, Operation.Fits]
  exact ⟨fit, rfl, (remembers_last_distinct 2 (by omega) operations fit).2.2.2.2.2 6 (by omega)⟩

end SlidingReplayWindow
end SFrameRatchet.Replay
