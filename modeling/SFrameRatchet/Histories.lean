import Mathlib.Data.List.Induction
import Mathlib.Data.List.Infix

/-! Histories of a deterministic state machine. A property of its states that a step
keeps exactly when the step is safe holds through a history exactly when every step
of the history is safe. -/
namespace SFrameRatchet.Histories

variable {S O : Type*} {step : S → O → S} {first : S} {holds : S → Prop} {safe : S → O → Prop}

/-- A property that holds at first and is kept by safe steps holds through histories
of safe steps. -/
theorem holds_of_safe (start : holds first) (keeps : ∀ state op, holds state → safe state op → holds (step state op))
    {ops : List O} (each : ∀ earlier op, earlier ++ [op] <+: ops → safe (earlier.foldl step first) op) :
    ∀ earlier, earlier <+: ops → holds (earlier.foldl step first) := by
  intro earlier within
  induction earlier using List.reverseRecOn with
  | nil => exact start
  | append_singleton earlier op ih =>
    rw [List.foldl_append]
    exact keeps _ op (ih ((List.prefix_append _ _).trans within)) (each earlier op within)

theorem holds_iff_safe (start : holds first) (keeps : ∀ state op, holds state → (holds (step state op) ↔ safe state op))
    (ops : List O) : (∀ earlier, earlier <+: ops → holds (earlier.foldl step first)) ↔
      ∀ earlier op, earlier ++ [op] <+: ops → safe (earlier.foldl step first) op := by
  refine ⟨fun always earlier op within => ?_, holds_of_safe start fun state op now => (keeps state op now).mpr⟩
  have after := always (earlier ++ [op]) within
  rw [List.foldl_append] at after
  exact (keeps _ op (always earlier ((List.prefix_append _ _).trans within))).mp after

end SFrameRatchet.Histories
