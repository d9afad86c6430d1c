import Mathlib.Tactic.IntervalCases
import SFrameRatchet.Sas

/-! The encodings of a short authentication string. The emoji are the groups of six
bits of its first 48, from the most significant end on, and the decimal groups tell
any two strings apart. -/
namespace SFrameRatchet.Sas
open BigEndian

/-- The positions at which the `i`-th group of six bits is read. -/
def emojiReads (i : ℕ) : List ℕ :=
  let bitOffset := i * 6
  let byteIdx := bitOffset / 8
  if 8 - bitOffset % 8 ≥ 6 then [byteIdx] else [byteIdx, byteIdx + 1]

/-- A group depends on the bytes that are read for it and on no other. -/
theorem emojiIndex_congr {bytes other : Bytes} {i : ℕ}
    (same : ∀ position ∈ emojiReads i, other[position]? = bytes[position]?) :
    emojiIndex other i = emojiIndex bytes i := by
  have first : byteAt other (i * 6 / 8) = byteAt bytes (i * 6 / 8) := by
    rw [byteAt, byteAt, same]
    unfold emojiReads
    dsimp only
    split <;> simp
  unfold emojiIndex
  dsimp only
  rw [first]
  split
  · rfl
  · rename_i straddles
    have second : byteAt other (i * 6 / 8 + 1) = byteAt bytes (i * 6 / 8 + 1) := by
      rw [byteAt, byteAt, same]
      unfold emojiReads
      dsimp only
      rw [if_neg straddles]
      simp
    rw [second]

/-- Six bits of two bytes side by side. -/
theorem slice_eq {offset high low : ℕ} (inside : offset < 8) (fits : low < 256) :
    (if 8 - offset ≥ 6 then (high &&& (1 <<< (8 - offset) - 1)) >>> (8 - offset - 6)
      else ((high &&& (1 <<< (8 - offset) - 1)) <<< (6 - (8 - offset))) ||| (low >>> (8 - (6 - (8 - offset))))) =
      (high * 256 + low) / 2 ^ (10 - offset) % 64 := by
  rw [Nat.one_shiftLeft, Nat.and_two_pow_sub_one_eq_mod]
  split
  · rw [Nat.shiftRight_eq_div_pow]
    interval_cases offset <;> omega
  · have short : low >>> (8 - (6 - (8 - offset))) < 2 ^ (6 - (8 - offset)) := by
      rw [Nat.shiftRight_eq_div_pow]
      interval_cases offset <;> omega
    rw [← Nat.shiftLeft_add_eq_or_of_lt short, Nat.shiftLeft_eq, Nat.shiftRight_eq_div_pow]
    interval_cases offset <;> omega

/-- Six bits of a number that lie in two adjacent bytes of its spelling. -/
theorem readBytes_slice (high : List UInt8) (first second : UInt8) (low : List UInt8) {start : ℕ}
    (inside : start ≤ 10) :
    readBytes (high ++ first :: second :: low) / 2 ^ (8 * low.length + start) % 64 =
      (first.toNat * 256 + second.toNat) / 2 ^ start % 64 := by
  have split : high ++ first :: second :: low = (high ++ [first, second]) ++ low := by simp
  have word : readBytes (high ++ [first, second]) = readBytes high * 65536 + (first.toNat * 256 + second.toNat) := by
    rw [readBytes_append]
    simp [readBytes]
  have below := readBytes_lt low
  have upper : readBytes ((high ++ [first, second]) ++ low) / 256 ^ low.length = readBytes
    (high ++ [first, second]) := by
    rw [readBytes_append, Nat.add_comm, Nat.add_mul_div_right _ _ (Nat.pow_pos (by omega)),
      Nat.div_eq_of_lt below, zero_add]
  rw [split, pow_add, pow_mul, ← Nat.div_div_eq_div_mul, show (2 : ℕ) ^ 8 = 256 from rfl, upper, word]
  interval_cases start <;> omega

theorem byteAt_eq {bytes : Bytes} {position : ℕ} (inside : position < bytes.length) :
    byteAt bytes position = bytes[position].toNat := by
  rw [byteAt, List.getElem?_eq_getElem inside]
  rfl

/-- No group is read beyond the sixth byte. -/
theorem emojiReads_lt {i : ℕ} (inside : i < 7) : ∀ position ∈ emojiReads i, position < 6 := by
  unfold emojiReads
  dsimp only
  split
  · simp only [List.forall_mem_singleton]
    omega
  · simp only [List.forall_mem_cons, List.not_mem_nil, IsEmpty.forall_iff, implies_true, and_true]
    omega

/-- A group is six bits of the 48. -/
theorem emojiIndex_eq {bytes : Bytes} (long : 6 ≤ bytes.length) {i : ℕ} (inside : i < 7) :
    emojiIndex bytes i = readBytes (bytes.take 6) / 2 ^ (42 - 6 * i) % 64 := by
  have six : (bytes.take 6).length = 6 := List.length_take_of_le long
  rw [emojiIndex_congr fun position member => (List.getElem?_take_of_lt (emojiReads_lt inside position member)).symm]
  generalize bytes.take 6 = leading at *
  have place : i * 6 / 8 + 1 < leading.length := by omega
  have around : leading = leading.take (i * 6 / 8) ++ leading[i * 6 / 8] :: leading[i * 6 / 8 + 1] ::
      leading.drop (i * 6 / 8 + 2) := by
    rw [← List.drop_eq_getElem_cons, ← List.drop_eq_getElem_cons, List.take_append_drop]
  have start : 42 - 6 * i = 8 * (leading.drop (i * 6 / 8 + 2)).length + (10 - i * 6 % 8) := by
    rw [List.length_drop]
    omega
  have read := readBytes_slice (leading.take (i * 6 / 8)) leading[i * 6 / 8] leading[i * 6 / 8 + 1]
    (leading.drop (i * 6 / 8 + 2)) (show 10 - i * 6 % 8 ≤ 10 by omega)
  rw [← around, ← start] at read
  rw [read, ← slice_eq (by omega) (UInt8.toNat_lt _)]
  simp only [emojiIndex, byteAt_eq place, byteAt_eq (Nat.lt_of_succ_lt place)]

theorem decimal_group {high low : UInt8} :
    ((high.toNat <<< 8) ||| low.toNat) % sasDecimalMod = high.toNat * 256 + low.toNat := by
  have bound := high.toNat_lt
  have fits := low.toNat_lt
  rw [← Nat.shiftLeft_add_eq_or_of_lt fits, Nat.shiftLeft_eq, sasDecimalMod]
  omega

/-- The six bytes behind three decimal groups. -/
theorem decimalSas_injective {bytes other : Bytes} (long : 6 ≤ bytes.length) (otherLong : 6 ≤ other.length)
    (same : generateDecimalSas bytes = generateDecimalSas other) : bytes.take 6 = other.take 6 := by
  have shown {bytes : Bytes} (long : 6 ≤ bytes.length) :
      ∃ a b c d e f rest, bytes = a :: b :: c :: d :: e :: f :: rest ∧
      generateDecimalSas bytes = .ok [a.toNat * 256 + b.toNat, c.toNat * 256 + d.toNat, e.toNat * 256 + f.toNat] := by
    match bytes with
    | [] | [_] | [_, _] | [_, _, _] | [_, _, _, _] | [_, _, _, _, _] => simp at long
    | a :: b :: c :: d :: e :: f :: rest =>
      refine ⟨a, b, c, d, e, f, rest, rfl, ?_⟩
      rw [generateDecimalSas, if_neg (by simp [sasDecimalGroupCount])]
      simp [sasDecimalGroupCount, List.range_succ, byteAt, decimal_group]
  obtain ⟨a, b, c, d, e, f, rest, rfl, first⟩ := shown long
  obtain ⟨a', b', c', d', e', f', rest', rfl, second⟩ := shown otherLong
  rw [first, second] at same
  simp only [Except.ok.injEq, List.cons.injEq, and_true] at same
  have word {high low high' low' : UInt8} (same : high.toNat * 256 + low.toNat = high'.toNat * 256 + low'.toNat) :
      high = high' ∧ low = low' := by
    have bound := low.toNat_lt
    have bound' := low'.toNat_lt
    exact ⟨UInt8.toNat_inj.mp (by omega), UInt8.toNat_inj.mp (by omega)⟩
  obtain ⟨rfl, rfl⟩ := word same.1
  obtain ⟨rfl, rfl⟩ := word same.2.1
  obtain ⟨rfl, rfl⟩ := word same.2.2
  rfl

/-- **The encodings are faithful.** The emoji spell the leading 42 of the first 48
bits, each by a place in the table, and the decimal groups spell all of them. -/
theorem sas_faithful :
    (∀ bytes : Bytes, 6 ≤ bytes.length → ∃ entries, generateEmojiSas bytes = .ok entries ∧ entries.length = 7 ∧
      ∀ i < 7, emojiIndex bytes i = readBytes (bytes.take 6) / 2 ^ (42 - 6 * i) % 64 ∧
        emojiIndex bytes i < sasEmojiTable.length ∧ entries[i]? = sasEmojiTable[emojiIndex bytes i]? ∧
        (∀ position ∈ emojiReads i, position < 6) ∧
        ∀ other, (∀ position ∈ emojiReads i, other[position]? = bytes[position]?) →
          emojiIndex other i = emojiIndex bytes i) ∧
    ∀ bytes other : Bytes, 6 ≤ bytes.length → 6 ≤ other.length → bytes.take 6 ≠ other.take 6 →
      generateDecimalSas bytes ≠ generateDecimalSas other := by
  constructor
  · intro bytes long
    refine ⟨_, if_neg (Nat.not_lt.mpr long), by simp [sasEmojiCount], fun i inside => ?_⟩
    have spelled := emojiIndex_eq long inside
    have listed : emojiIndex bytes i < sasEmojiTable.length := spelled ▸ Nat.mod_lt _ (by decide)
    refine ⟨spelled, listed, ?_, emojiReads_lt inside, fun other same => emojiIndex_congr same⟩
    rw [List.getElem?_map, List.getElem?_range (by exact inside), Option.map_some, List.getElem?_eq_getElem listed,
      Option.getD_some]
  · exact fun bytes other long otherLong apart same => apart (decimalSas_injective long otherLong same)

end SFrameRatchet.Sas
