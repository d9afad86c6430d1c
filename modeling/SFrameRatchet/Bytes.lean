import Mathlib.Data.List.Basic
import Mathlib.Data.List.Infix
import SFrameRatchet.BigEndian

/-! Byte arrays and the branchless comparisons of `internal/constant-time.ts`.
Each comparison folds the differences of all bytes and looks at the result
once; the theorems say which ordinary comparison it computes. -/
namespace SFrameRatchet

/-- The contents of a `Uint8Array`. A `subarray(a, b)` is a `take` of a `drop`. -/
abbrev Bytes := List UInt8

namespace ConstantTime

/-- Branchless equality of two byte arrays of one length. -/
def ctEqual (a b : Bytes) : Bool :=
  if a.length ≠ b.length then false
  else (List.zipWith (· ^^^ ·) a b).foldl (· ||| ·) 0 == 0

/-- Whether `frame` ends with `trailer`; an empty trailer always matches. -/
def ctEndsWith (frame trailer : Bytes) : Bool :=
  if frame.length < trailer.length then false
  else ctEqual (frame.drop (frame.length - trailer.length)) trailer

/-- The low `width` bytes of a bigint, least significant first. -/
def littleEndian : ℕ → ℕ → Bytes
  | 0, _ => []
  | width + 1, value => UInt8.ofNat (value &&& 0xff) :: littleEndian width (value >>> 8)

/-- A fixed 8-byte little-endian array; higher bytes are dropped. -/
def bigintToBytes64 (value : ℕ) : Bytes := littleEndian 8 value

/-- Branchless equality of the low 64 bits of two bigints. -/
def ctBigintEqual (a b : ℕ) : Bool := ctEqual (bigintToBytes64 a) (bigintToBytes64 b)

private theorem fold_or_eq_zero (differences : Bytes) (sum : UInt8) :
    differences.foldl (· ||| ·) sum = 0 ↔ sum = 0 ∧ ∀ byte ∈ differences, byte = 0 := by
  induction differences generalizing sum with
  | nil => simp
  | cons byte rest ih => simp [ih, and_assoc]

private theorem differences_zero {a b : Bytes} (width : a.length = b.length) :
    (∀ byte ∈ List.zipWith (· ^^^ ·) a b, byte = 0) ↔ a = b := by
  induction a generalizing b with
  | nil => simp [List.eq_nil_of_length_eq_zero width.symm]
  | cons head a ih =>
    cases b with
    | nil => simp at width
    | cons other b =>
      simp only [List.zipWith_cons_cons, List.forall_mem_cons, UInt8.xor_eq_zero_iff,
        ih (by simpa using width), List.cons.injEq]

theorem ctEqual_iff {a b : Bytes} : ctEqual a b = true ↔ a = b := by
  by_cases width : a.length = b.length
  · simp [ctEqual, width, fold_or_eq_zero, differences_zero width]
  · simp only [ctEqual, width, ne_eq, not_false_eq_true, ↓reduceIte, Bool.false_eq_true,
      false_iff]
    exact fun same => width (congrArg List.length same)

theorem ctEndsWith_iff {frame trailer : Bytes} : ctEndsWith frame trailer = true ↔ trailer <:+ frame := by
  by_cases short : frame.length < trailer.length
  · simp only [ctEndsWith, short, ↓reduceIte, Bool.false_eq_true, false_iff]
    exact fun ends => absurd ends.length_le (Nat.not_le.mpr short)
  · rw [ctEndsWith, if_neg short, ctEqual_iff, List.suffix_iff_eq_drop]
    exact eq_comm

/-- What is left of a frame once a trailer it ends with is stripped. -/
theorem append_endsWith (body trailer : Bytes) : ctEndsWith (body ++ trailer) trailer = true :=
  ctEndsWith_iff.mpr (List.suffix_append body trailer)

private theorem littleEndian_inj {width a b : ℕ} :
    littleEndian width a = littleEndian width b ↔ a % 256 ^ width = b % 256 ^ width := by
  induction width generalizing a b with
  | zero => simp [littleEndian, Nat.mod_one]
  | succ width ih =>
    simp only [littleEndian, List.cons.injEq, ih, ← UInt8.toNat_inj, BigEndian.low_byte_toNat,
      Nat.shiftRight_eq_div_pow, show (2 : ℕ) ^ 8 = 256 from rfl, pow_succ 256 width,
      mul_comm (256 ^ width) 256, Nat.mod_mul]
    omega

/-- Two counters are compared by their low 64 bits. -/
theorem ctBigintEqual_iff {a b : ℕ} : ctBigintEqual a b = true ↔ a % 2 ^ 64 = b % 2 ^ 64 :=
  ctEqual_iff.trans littleEndian_inj

end ConstantTime

/-- Overwrite key material with zeros. -/
def zeroize (bytes : Bytes) : Bytes := bytes.map fun _ => 0

end SFrameRatchet
