import Mathlib.Data.List.Basic
import Mathlib.Tactic.TypeStar

/-! Counts that start over, and alarms. The entries of a log are counted since the last one
that resets the count; an alarm is what an entry raises in view of the entries before it. -/
namespace SFrameRatchet.Tally

variable {M A : Type*}

section Count
variable (resets counts : M → Bool)

/-- The entries since the last one that resets. -/
def since (log : List M) : List M := (log.reverse.takeWhile fun entry => !resets entry).reverse

/-- How many of these count. -/
def tally (log : List M) : ℕ := (since resets log).countP counts

theorem since_snoc (log : List M) (entry : M) :
    since resets (log ++ [entry]) = if resets entry then [] else since resets log ++ [entry] := by
  unfold since
  rw [List.reverse_append, List.reverse_singleton, List.singleton_append, List.takeWhile_cons]
  cases resets entry <;> simp

@[simp] theorem tally_nil : tally resets counts [] = 0 := rfl

/-- One more entry starts the count over, adds to it or leaves it as it is. -/
theorem tally_snoc (log : List M) (entry : M) : tally resets counts (log ++ [entry]) =
    if resets entry then 0 else tally resets counts log + if counts entry then 1 else 0 := by
  unfold tally
  rw [since_snoc]
  split
  · rfl
  · rw [List.countP_append, List.countP_singleton]

end Count

section Alarms
variable (raises : List M → M → List A)

/-- What the entries of a log raise, each in view of those before it. -/
def alarms (past : List M) : List M → List A
  | [] => []
  | entry :: rest => raises past entry ++ alarms (past ++ [entry]) rest

theorem alarms_append (past log more : List M) :
    alarms raises past (log ++ more) = alarms raises past log ++ alarms raises (past ++ log) more := by
  induction log generalizing past with
  | nil => simp [alarms]
  | cons entry rest ih => simp [alarms, ih]

theorem alarms_snoc (log : List M) (entry : M) :
    alarms raises [] (log ++ [entry]) = alarms raises [] log ++ raises log entry := by
  simp [alarms_append, alarms]

end Alarms
end SFrameRatchet.Tally
