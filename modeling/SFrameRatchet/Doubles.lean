import Mathlib.Data.Nat.Size
import SFrameRatchet.BigEndian

/-! Natural numbers in binary floating point. A number with more significant bits
than the precision holds is rounded to the nearest one that fits, ties to even.
Rounding leaves what fits alone and never takes a larger number below the bound. -/
namespace SFrameRatchet.Doubles
open BigEndian

/-- Round to `precision` significant bits, to the nearest and in a tie to the even. -/
def roundTo (precision value : ℕ) : ℕ :=
  let unit := 2 ^ (Nat.size value - precision)
  let down := value / unit
  let rest := value % unit
  if 2 * rest > unit ∨ (2 * rest = unit ∧ down % 2 = 1) then (down + 1) * unit else down * unit

variable {precision value : ℕ}

/-- A number that fits is not rounded. -/
theorem roundTo_exact (fits : value < 2 ^ precision) : roundTo precision value = value := by
  have short : Nat.size value - precision = 0 := Nat.sub_eq_zero_of_le (Nat.size_le.mpr fits)
  simp [roundTo, short, Nat.mod_one]

/-- Rounding does not go below the multiple of the unit under a number. -/
theorem down_le_roundTo (precision value : ℕ) :
    value / 2 ^ (Nat.size value - precision) * 2 ^ (Nat.size value - precision) ≤ roundTo precision value := by
  unfold roundTo
  dsimp only
  split
  · exact Nat.mul_le_mul_right _ (Nat.le_succ _)
  · exact le_rfl

/-- A number that does not fit stays above the bound. -/
theorem le_roundTo (positive : 0 < precision) (above : 2 ^ precision ≤ value) :
    2 ^ precision ≤ roundTo precision value := by
  have long : precision < Nat.size value := Nat.lt_size.mpr above
  obtain ⟨extra, size⟩ : ∃ extra, Nat.size value = precision + extra + 1 := ⟨Nat.size value - precision - 1, by omega⟩
  have top : 2 ^ (precision + extra) ≤ value := Nat.lt_size.mp (by omega)
  have unit : Nat.size value - precision = extra + 1 := by omega
  refine le_trans ?_ (down_le_roundTo precision value)
  rw [unit]
  have half : 2 ^ (precision - 1) ≤ value / 2 ^ (extra + 1) := by
    rw [Nat.le_div_iff_mul_le (Nat.two_pow_pos _), ← pow_add,
      show precision - 1 + (extra + 1) = precision + extra by omega]
    exact top
  calc 2 ^ precision ≤ 2 ^ (precision - 1 + (extra + 1)) := Nat.pow_le_pow_right (by omega) (by omega)
    _ = 2 ^ (precision - 1) * 2 ^ (extra + 1) := pow_add 2 _ _
    _ ≤ _ := Nat.mul_le_mul_right _ half

/-- The number a byte string spells, summed up with rounding after each operation. -/
def readRounded (precision : ℕ) (bytes : List UInt8) : ℕ :=
  bytes.foldl (fun sum byte => roundTo precision (roundTo precision (sum * 256) + byte.toNat)) 0

/-- A rounded sum is the exact one as long as that fits, and does not fit either
when the exact one does not. -/
theorem readRounded_spec (positive : 0 < precision) (bytes : List UInt8) :
    (readBytes bytes < 2 ^ precision ∧ readRounded precision bytes = readBytes bytes) ∨
      (2 ^ precision ≤ readBytes bytes ∧ 2 ^ precision ≤ readRounded precision bytes) := by
  induction bytes using List.reverseRecOn with
  | nil => exact .inl ⟨by simp, rfl⟩
  | append_singleton bytes byte ih =>
    have next : readRounded precision (bytes ++ [byte]) =
        roundTo precision (roundTo precision (readRounded precision bytes * 256) + byte.toNat) := by
      simp [readRounded]
    rw [next, readBytes_append_singleton]
    by_cases fits : readBytes bytes * 256 + byte.toNat < 2 ^ precision
    · left
      have same : readRounded precision bytes = readBytes bytes := by
        rcases ih with ⟨-, same⟩ | ⟨above, -⟩
        · exact same
        · omega
      have product : readBytes bytes * 256 < 2 ^ precision := lt_of_le_of_lt (Nat.le_add_right _ _) fits
      rw [same, roundTo_exact product, roundTo_exact fits]
      exact ⟨fits, rfl⟩
    · right
      refine ⟨by omega, le_roundTo positive ?_⟩
      by_cases short : readRounded precision bytes * 256 < 2 ^ precision
      · rw [roundTo_exact short]
        rcases ih with ⟨-, same⟩ | ⟨-, above⟩ <;> omega
      · have large := le_roundTo positive (Nat.le_of_not_lt short)
        omega

end SFrameRatchet.Doubles
