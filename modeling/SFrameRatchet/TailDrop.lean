import Mathlib.Data.List.Basic
import Mathlib.Tactic.TypeStar

/-! A bounded queue that drops its newest entry when it is full. What may happen to
such a queue, its bound and the number of overflows that have been reported is a
relation, labelled with the entries that are evicted; the oldest is never one of them, and
each is reported. As long as the bound leaves room
for two entries and is never set below the length of the queue, pushing is a step of it. -/
namespace SFrameRatchet.TailDrop

structure Shelf (α : Type*) where
  queue : List α
  cap : ℕ
  overflows : ℕ

variable {α : Type*}

inductive Step : Shelf α → List α → Shelf α → Prop where
  | park (queue : List α) (cap overflows : ℕ) (entry : α) (room : queue.length < cap) :
      Step ⟨queue, cap, overflows⟩ [] ⟨queue ++ [entry], cap, overflows⟩
  /-- The newest entry makes room, an older one stays, and one overflow is reported. -/
  | evict (front : List α) (newest : α) (cap overflows : ℕ) (entry : α) (older : front ≠ [])
      (full : (front ++ [newest]).length = cap) :
      Step ⟨front ++ [newest], cap, overflows⟩ [newest] ⟨front ++ [entry], cap, overflows + 1⟩
  | take (queue : List α) (cap overflows : ℕ) : Step ⟨queue, cap, overflows⟩ [] ⟨[], cap, overflows⟩
  | resize (queue : List α) (cap overflows cap' : ℕ) (fits : queue.length ≤ cap') (several : 2 ≤ cap') :
      Step ⟨queue, cap, overflows⟩ [] ⟨queue, cap', overflows⟩

/-- A change evicts nothing and leaves the shelf alone, or it is a step and evicts what the step does. -/
def Evicts (s t : Shelf α) (evicted : List α) : Prop := t = s ∧ evicted = [] ∨ Step s evicted t

/-- The oldest entry stays where it is, unless all that wait are taken at once. -/
def OldestStays (before after : List α) : Prop := before = [] ∨ after = [] ∨ after.head? = before.head?

/-- There is room for two entries, and the queue is within its bound. -/
structure Shelf.Bounded (s : Shelf α) : Prop where
  several : 2 ≤ s.cap
  within : s.queue.length ≤ s.cap

def Shelf.push (s : Shelf α) (entry : α) : Shelf α :=
  if s.cap ≤ s.queue.length then ⟨s.queue.dropLast ++ [entry], s.cap, s.overflows + 1⟩
  else ⟨s.queue ++ [entry], s.cap, s.overflows⟩

variable {s t : Shelf α} {evicted : List α}

theorem step_bounded (bounded : s.Bounded) (step : Step s evicted t) : t.Bounded := by
  obtain ⟨several, within⟩ := bounded
  cases step with
  | park queue cap overflows entry room => exact ⟨several, by simpa using Nat.succ_le_of_lt room⟩
  | evict front newest cap overflows entry older full => exact ⟨several, by simpa using within⟩
  | take queue cap overflows => exact ⟨several, Nat.zero_le _⟩
  | resize queue cap overflows cap' fits room => exact ⟨room, fits⟩

/-- **One overflow for each eviction.** -/
theorem evicts_overflows (evicts : Evicts s t evicted) : t.overflows = s.overflows + evicted.length := by
  rcases evicts with ⟨rfl, rfl⟩ | step
  · rfl
  · cases step <;> rfl

/-- **The oldest entry is never evicted.** -/
theorem evicts_oldest (evicts : Evicts s t evicted) : OldestStays s.queue t.queue := by
  rcases evicts with ⟨rfl, rfl⟩ | step
  · exact .inr (.inr rfl)
  · cases step with
    | park queue cap overflows entry room =>
      cases queue with
      | nil => exact .inl rfl
      | cons oldest rest => exact .inr (.inr rfl)
    | evict front newest cap overflows entry older full =>
      obtain ⟨oldest, rest, rfl⟩ := List.exists_cons_of_ne_nil older
      exact .inr (.inr rfl)
    | take queue cap overflows => exact .inr (.inl rfl)
    | resize queue cap overflows cap' fits several => exact .inr (.inr rfl)

theorem evicts_bounded (bounded : s.Bounded) (evicts : Evicts s t evicted) : t.Bounded := by
  rcases evicts with ⟨rfl, rfl⟩ | step
  · exact bounded
  · exact step_bounded bounded step

theorem push_steps (bounded : s.Bounded) (entry : α) : ∃ evicted, Step s evicted (s.push entry) := by
  obtain ⟨queue, cap, overflows⟩ := s
  obtain ⟨several, within⟩ := bounded
  unfold Shelf.push
  dsimp only at several within ⊢
  split
  · rename_i full
    obtain ⟨front, newest, rfl⟩ : ∃ front newest, queue = front ++ [newest] := by
      have filled : queue ≠ [] := by
        intro empty
        rw [empty, List.length_nil] at full
        omega
      exact ⟨_, _, (List.dropLast_append_getLast filled).symm⟩
    have older : front ≠ [] := by
      intro empty
      rw [empty, List.nil_append, List.length_singleton] at full
      omega
    rw [List.dropLast_concat]
    exact ⟨_, .evict front newest cap overflows entry older (Nat.le_antisymm within full)⟩
  · exact ⟨_, .park queue cap overflows entry (by omega)⟩

end SFrameRatchet.TailDrop
