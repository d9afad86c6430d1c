import Mathlib.Algebra.Order.Ring.Nat
import Mathlib.Tactic.Ring
import Mathlib.Data.List.Induction
import Mathlib.Data.List.Zip

/-! Natural numbers as big-endian byte strings: a fixed width that drops what
does not fit, and the reader that takes a string of any length. -/
namespace SFrameRatchet.BigEndian

/-- The number a byte string spells, most significant byte first. -/
def readBytes (bytes : List UInt8) : ℕ := bytes.foldl (fun sum byte => sum * 256 + byte.toNat) 0

/-- The low `width` bytes of a number, most significant first. -/
def fixedBytes : ℕ → ℕ → List UInt8
  | 0, _ => []
  | width + 1, value => fixedBytes width (value >>> 8) ++ [UInt8.ofNat (value &&& 0xff)]

theorem low_byte_toNat (value : ℕ) : (UInt8.ofNat (value &&& 0xff)).toNat = value % 256 := by
  rw [show (0xff : ℕ) = 2 ^ 8 - 1 from rfl, Nat.and_two_pow_sub_one_eq_mod]
  simp

@[simp] theorem readBytes_nil : readBytes [] = 0 := rfl

theorem readBytes_append_singleton (bytes : List UInt8) (byte : UInt8) :
    readBytes (bytes ++ [byte]) = readBytes bytes * 256 + byte.toNat := by
  simp [readBytes]

theorem readBytes_append (high low : List UInt8) :
    readBytes (high ++ low) = readBytes high * 256 ^ low.length + readBytes low := by
  induction low using List.reverseRecOn with
  | nil => simp
  | append_singleton low byte ih =>
    rw [← List.append_assoc, readBytes_append_singleton, ih, readBytes_append_singleton,
      List.length_append, List.length_singleton, pow_succ]
    ring

theorem readBytes_lt (bytes : List UInt8) : readBytes bytes < 256 ^ bytes.length := by
  induction bytes using List.reverseRecOn with
  | nil => simp
  | append_singleton bytes byte ih =>
    have bound := byte.toNat_lt
    rw [readBytes_append_singleton, List.length_append, List.length_singleton, pow_succ]
    omega

@[simp] theorem fixedBytes_length (width value : ℕ) : (fixedBytes width value).length = width := by
  induction width generalizing value with
  | zero => rfl
  | succ width ih => simp [fixedBytes, ih]

theorem readBytes_fixedBytes (width value : ℕ) :
    readBytes (fixedBytes width value) = value % 256 ^ width := by
  induction width generalizing value with
  | zero => simp [fixedBytes, Nat.mod_one]
  | succ width ih =>
    rw [fixedBytes, readBytes_append_singleton, ih, low_byte_toNat, Nat.shiftRight_eq_div_pow,
      show (2 : ℕ) ^ 8 = 256 from rfl, pow_succ 256 width, mul_comm (256 ^ width) 256, Nat.mod_mul]
    ring

/-- Numbers that fit the width have different spellings. -/
theorem fixedBytes_injective {width first second : ℕ} (firstFits : first < 256 ^ width)
    (secondFits : second < 256 ^ width)
    (same : fixedBytes width first = fixedBytes width second) : first = second := by
  have spelled := congrArg readBytes same
  rwa [readBytes_fixedBytes, readBytes_fixedBytes, Nat.mod_eq_of_lt firstFits,
    Nat.mod_eq_of_lt secondFits] at spelled

/-- Two masks by one string of bytes agree only where the masked bytes do. -/
theorem xor_injective {mask first second : List UInt8}
    (firstWidth : first.length = mask.length) (secondWidth : second.length = mask.length)
    (same : List.zipWith (· ^^^ ·) first mask = List.zipWith (· ^^^ ·) second mask) :
    first = second := by
  induction mask generalizing first second with
  | nil =>
    rw [List.eq_nil_of_length_eq_zero firstWidth, List.eq_nil_of_length_eq_zero secondWidth]
  | cons byte mask ih =>
    cases first with
    | nil => simp at firstWidth
    | cons head first =>
      cases second with
      | nil => simp at secondWidth
      | cons other second =>
        simp only [List.zipWith_cons_cons, List.cons.injEq] at same
        have heads : head = other := by
          have cancelled := congrArg (· ^^^ byte) same.1
          simpa [UInt8.xor_assoc] using cancelled
        rw [heads, ih (by simpa using firstWidth) (by simpa using secondWidth) same.2]

end SFrameRatchet.BigEndian
