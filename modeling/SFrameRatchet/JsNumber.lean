import Mathlib.Algebra.Order.Floor.Ring
import Mathlib.Data.Rat.Floor
import Mathlib.Order.WithBotTop

/-! Numbers of the scripting runtime: the finite ones, the two infinite ones, and
the one that is not a number, of which no comparison holds. The signs of zero are
not told apart. -/
namespace SFrameRatchet

inductive JsNumber where
  | nan
  | number (value : WithBotTop ℚ)
  deriving DecidableEq

namespace JsNumber

def finite (value : ℚ) : JsNumber := .number (value : WithBotTop ℚ)

/-- `a < b` -/
def lt : JsNumber → JsNumber → Bool
  | number a, number b => decide (a < b)
  | _, _ => false

/-- `a <= b` -/
def le : JsNumber → JsNumber → Bool
  | number a, number b => decide (a ≤ b)
  | _, _ => false

/-- A function of finite numbers that leaves the others as they are. -/
def mapFinite (f : ℚ → ℚ) : JsNumber → JsNumber
  | nan => nan
  | number value => number (WithBot.map (WithTop.map f) value)

/-- `Number.isInteger` -/
def isInteger : JsNumber → Bool
  | number (some (some value)) => decide (value.den = 1)
  | _ => false

/-- `Math.floor` -/
def floor : JsNumber → JsNumber := mapFinite fun value => ⌊value⌋

/-- `Math.trunc` -/
def trunc : JsNumber → JsNumber := mapFinite fun value => if 0 ≤ value then ⌊value⌋ else ⌈value⌉

/-- `Math.max` of two numbers. -/
def max : JsNumber → JsNumber → JsNumber
  | number a, number b => number (a ⊔ b)
  | _, _ => nan

/-- The number as a template literal spells it. -/
def text : JsNumber → String
  | nan => "NaN"
  | number ⊥ => "-Infinity"
  | number (some ⊤) => "Infinity"
  | number (some (some value)) => toString value

@[simp] theorem lt_finite (a b : ℚ) : lt (finite a) (finite b) = decide (a < b) := by
  simp [lt, finite]

@[simp] theorem le_finite (a b : ℚ) : le (finite a) (finite b) = decide (a ≤ b) := by
  simp [le, finite]

theorem finite_injective : Function.Injective finite := fun a b same => by
  exact WithBotTop.coe_injective (number.inj same)

/-- The integers from zero to below a bound, as a loop over an array checks them. -/
theorem isInteger_below {n : ℕ} {v : JsNumber} :
    (v.isInteger = true ∧ lt v (finite 0) = false ∧ le (finite n) v = false) ↔ ∃ i < n, v = finite (i : ℕ) := by
  constructor
  · intro ⟨whole, natural, small⟩
    match v with
    | number (some (some value)) =>
      change lt (finite value) (finite 0) = false at natural
      change le (finite n) (finite value) = false at small
      rw [lt_finite, decide_eq_false_iff_not, not_lt] at natural
      rw [le_finite, decide_eq_false_iff_not, not_le] at small
      have numerator : (value.num : ℚ) = value := Rat.den_eq_one_iff value |>.mp (of_decide_eq_true whole)
      obtain ⟨i, same⟩ := Int.eq_ofNat_of_zero_le (Rat.num_nonneg.mpr natural)
      have place : value = (i : ℕ) := by rw [← numerator, same]; simp
      exact ⟨i, by rw [place] at small; exact_mod_cast small, congrArg finite place⟩
  · rintro ⟨i, small, rfl⟩
    refine ⟨decide_eq_true (Rat.den_natCast i), ?_, ?_⟩
    · rw [lt_finite, decide_eq_false_iff_not, not_lt]
      exact Nat.cast_nonneg i
    · rw [le_finite, decide_eq_false_iff_not, not_le]
      exact_mod_cast small

@[simp] theorem floor_finite (value : ℚ) : floor (finite value) = finite ⌊value⌋ := rfl

@[simp] theorem trunc_finite (value : ℚ) :
    trunc (finite value) = finite (if 0 ≤ value then ⌊value⌋ else ⌈value⌉) := rfl

@[simp] theorem max_finite (a b : ℚ) : max (finite a) (finite b) = finite (a ⊔ b) := by
  simp only [max, finite, number.injEq]
  rcases le_total a b with below | below <;> simp [below]

theorem le_of_not_lt {a b : WithBotTop ℚ} (above : lt (number a) (number b) = false) : b ≤ a :=
  not_lt.mp (of_decide_eq_false above)

/-- A number that is not negative is not below its integer part. -/
theorem trunc_le {value : WithBotTop ℚ} (natural : lt (number value) (finite 0) = false) :
    ∃ whole, trunc (number value) = number whole ∧ whole ≤ value := by
  refine ⟨_, rfl, ?_⟩
  cases value using WithBotTop.rec with
  | bot => exact le_rfl
  | top => exact le_rfl
  | coe value =>
    have positive : 0 ≤ value := by simpa [lt, finite] using natural
    change WithBotTop.coe (if 0 ≤ value then (⌊value⌋ : ℚ) else (⌈value⌉ : ℚ)) ≤ _
    rw [if_pos positive, WithBotTop.coe_le_coe]
    exact Int.floor_le value

end JsNumber
end SFrameRatchet
