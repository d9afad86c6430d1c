import Mathlib.Data.Nat.Digits.Lemmas
import SFrameRatchet.Bytes
import SFrameRatchet.Errors

/-! The SFrame header codec of `sframe-header.ts`. A header is a config byte,
a key identifier and a counter; the writer always extends both fields, the
reader also takes three-bit inline fields. -/
namespace SFrameRatchet.Header
open BigEndian

/-- A parsed header; the ciphertext starts at `bodyOffset`. -/
structure SFrameHeader where
  kid : ℕ
  ctr : ℕ
  bodyOffset : ℕ
  deriving DecidableEq, Repr

def sframeKidWidth : ℕ := 4

/-- The bytes of a counter without leading zeros; zero is one zero byte. -/
def minimalBigEndian (v : ℕ) : Except JsError Bytes :=
  if v = 0 then .ok [0]
  else
    -- the loop pushes the low byte and shifts until nothing is left
    let bytes := ((Nat.digits 256 v).map UInt8.ofNat).reverse
    if bytes.length > 8 then .error (.rangeError "sframe: field exceeds 8 bytes") else .ok bytes

def fixedBigEndian (v width : ℕ) : Except JsError Bytes :=
  if v >>> (8 * width) ≠ 0 then .error (.rangeError s!"sframe: value exceeds {width} bytes")
  else .ok (fixedBytes width v)

/-- The config byte: both fields extended, with their lengths minus one. -/
def configByte (klen clen : ℕ) : UInt8 :=
  UInt8.ofNat (0b1000_1000 ||| ((klen &&& 0b111) <<< 4) ||| (clen &&& 0b111))

def serializeHeader (kid ctr : ℤ) : Except JsError Bytes :=
  if kid < 0 ∨ kid > 0xffffffff then .error (.rangeError s!"sframe: kid out of range: {kid}")
  else if ctr < 0 ∨ ctr > 0xffffffffffffffff then
    .error (.rangeError s!"sframe: ctr out of range: {ctr}")
  else do
    let kidBytes ← fixedBigEndian kid.toNat sframeKidWidth
    let ctrBytes ← minimalBigEndian ctr.toNat
    return configByte (sframeKidWidth - 1) (ctrBytes.length - 1) :: (kidBytes ++ ctrBytes)

/-- A key identifier field; what is not a safe integer is rejected. The
floating-point sum is exact up to that bound and stays above it afterwards. -/
def readBigEndianNumber (buf : Bytes) (off len : ℕ) : Except JsError ℕ :=
  let out := readBytes ((buf.drop off).take len)
  if out > 2 ^ 53 - 1 then
    .error (.headerParse "sframe: extended KID exceeds safe integer range" buf.length)
  else .ok out

def readBigEndianBigInt (buf : Bytes) (off len : ℕ) : ℕ := readBytes ((buf.drop off).take len)

/-- The key identifier and the offset behind it: extended when the high bit of
the config byte says so, else the three bits of its length field. -/
def parseKid (buf : Bytes) (cfg : UInt8) : Except JsError (ℕ × ℕ) :=
  let klen := ((cfg >>> 4) &&& 0b111).toNat
  if cfg &&& 0b1000_0000 ≠ 0 then
    if buf.length < 1 + (klen + 1) then .error (.headerParse "sframe: short kid" buf.length)
    else (readBigEndianNumber buf 1 (klen + 1)).map fun kid => (kid, 1 + (klen + 1))
  else .ok (klen, 1)

/-- The counter and the offset behind it. -/
def parseCtr (buf : Bytes) (cfg : UInt8) (offset : ℕ) : Except JsError (ℕ × ℕ) :=
  let clen := (cfg &&& 0b111).toNat
  if cfg &&& 0b0000_1000 ≠ 0 then
    if buf.length < offset + (clen + 1) then .error (.headerParse "sframe: short ctr" buf.length)
    else .ok (readBigEndianBigInt buf offset (clen + 1), offset + (clen + 1))
  else .ok (clen, offset)

def parseHeader (buf : Bytes) : Except JsError SFrameHeader :=
  match buf with
  | [] => .error (.headerParse "sframe: empty buffer" 0)
  | cfg :: _ => do
    let kid ← parseKid buf cfg
    let ctr ← parseCtr buf cfg kid.2
    return { kid := kid.1, ctr := ctr.1, bodyOffset := ctr.2 }

/-! ## What the writer produces and the reader takes back -/

theorem digits_length_le {v : ℕ} (fits : v < 2 ^ 64) : (Nat.digits 256 v).length ≤ 8 := by
  rw [Nat.digits_length_le_iff (by norm_num)]
  simpa using fits

private theorem readBytes_digits (digits : List ℕ) (bytes : ∀ digit ∈ digits, digit < 256) :
    readBytes ((digits.map UInt8.ofNat).reverse) = Nat.ofDigits 256 digits := by
  induction digits with
  | nil => rfl
  | cons digit rest ih =>
    have small : digit < 256 := bytes digit List.mem_cons_self
    have tail := ih fun other member => bytes other (List.mem_cons_of_mem _ member)
    rw [List.map_cons, List.reverse_cons, readBytes_append_singleton, tail, Nat.ofDigits_cons]
    have low : (UInt8.ofNat digit).toNat = digit := by simpa using Nat.mod_eq_of_lt small
    rw [low]
    ring

/-- A counter below `2^64` takes one to eight bytes and reads back as itself. -/
theorem minimalBigEndian_reads {v : ℕ} (fits : v < 2 ^ 64) :
    ∃ bytes, minimalBigEndian v = .ok bytes ∧ bytes ≠ [] ∧ bytes.length ≤ 8 ∧ readBytes bytes = v := by
  by_cases zero : v = 0
  · exact ⟨[0], by simp [minimalBigEndian, zero], by simp, by simp, by simp [readBytes, zero]⟩
  · have short := digits_length_le fits
    have width : ((Nat.digits 256 v).map UInt8.ofNat).reverse.length ≤ 8 := by simpa using short
    refine ⟨_, by rw [minimalBigEndian, if_neg zero, if_neg (by omega)], ?_, width, ?_⟩
    · simpa using Nat.digits_ne_nil_iff_ne_zero.mpr zero
    · rw [readBytes_digits _ fun digit member => Nat.digits_lt_base (by norm_num) member,
        Nat.ofDigits_digits]

theorem fixedBigEndian_ok {v : ℕ} (fits : v ≤ 0xffffffff) :
    fixedBigEndian v sframeKidWidth = .ok (fixedBytes sframeKidWidth v) := by
  have none : v >>> (8 * sframeKidWidth) = 0 := by
    rw [Nat.shiftRight_eq_div_pow]
    exact Nat.div_eq_of_lt (by simp only [sframeKidWidth]; omega)
  simp [fixedBigEndian, none]

/-- What a header consists of, and that the writer refuses everything else. -/
theorem serializeHeader_ok {kid ctr : ℤ} {header : Bytes}
    (written : serializeHeader kid ctr = .ok header) :
    (0 ≤ kid ∧ kid ≤ 0xffffffff) ∧ (0 ≤ ctr ∧ ctr ≤ 0xffffffffffffffff) ∧
      ∃ ctrBytes, minimalBigEndian ctr.toNat = .ok ctrBytes ∧ header =
        configByte 3 (ctrBytes.length - 1) :: (fixedBytes sframeKidWidth kid.toNat ++ ctrBytes) := by
  unfold serializeHeader at written
  split at written
  · cases written
  · rename_i kidRange
    split at written
    · cases written
    · rename_i ctrRange
      push Not at kidRange ctrRange
      rw [fixedBigEndian_ok (by omega)] at written
      obtain ⟨ctrBytes, held, -⟩ := minimalBigEndian_reads (v := ctr.toNat) (by omega)
      rw [held] at written
      cases written
      exact ⟨kidRange, ctrRange, ctrBytes, held, rfl⟩

private theorem configByte_fields : ∀ clen < 8,
    ((configByte 3 clen >>> 4) &&& 0b111).toNat = 3 ∧ configByte 3 clen &&& 0b1000_0000 ≠ 0 ∧
      configByte 3 clen &&& 0b0000_1000 ≠ 0 ∧ (configByte 3 clen &&& 0b111).toNat = clen := by
  decide

/-- A serialized header parses back to its fields in front of any bytes. -/
theorem parseHeader_serializeHeader {kid ctr : ℤ} {header : Bytes}
    (written : serializeHeader kid ctr = .ok header) (body : Bytes) :
    parseHeader (header ++ body) = .ok ⟨kid.toNat, ctr.toNat, header.length⟩ := by
  obtain ⟨kidRange, ctrRange, ctrBytes, minimal, rfl⟩ := serializeHeader_ok written
  obtain ⟨bytes, again, nonempty, width, reads⟩ := minimalBigEndian_reads (v := ctr.toNat) (by omega)
  obtain rfl : ctrBytes = bytes := Except.ok.inj (minimal.symm.trans again)
  have positive : 0 < ctrBytes.length := List.length_pos_iff.mpr nonempty
  have kidWidth : (fixedBytes sframeKidWidth kid.toNat).length = 4 := fixedBytes_length _ _
  obtain ⟨klen, kExt, cExt, clen⟩ := configByte_fields (ctrBytes.length - 1) (by omega)
  generalize configByte 3 (ctrBytes.length - 1) = cfg at klen kExt cExt clen
  generalize held : fixedBytes sframeKidWidth kid.toNat = kidBytes at kidWidth
  have kidReads : readBytes kidBytes = kid.toNat := by
    rw [← held, readBytes_fixedBytes, Nat.mod_eq_of_lt (by simp only [sframeKidWidth]; omega)]
  have kidField : parseKid (cfg :: (kidBytes ++ ctrBytes) ++ body) cfg = .ok (kid.toNat, 5) := by
    have taken : ((cfg :: (kidBytes ++ ctrBytes) ++ body).drop 1).take 4 = kidBytes := by
      simp [← kidWidth]
    have fits : ¬ kid.toNat > 2 ^ 53 - 1 := by omega
    simp only [parseKid, klen, if_pos kExt, readBigEndianNumber, taken, kidReads, if_neg fits]
    rw [if_neg (by simp [kidWidth])]
    rfl
  have ctrField : parseCtr (cfg :: (kidBytes ++ ctrBytes) ++ body) cfg 5 =
      .ok (ctr.toNat, 5 + ctrBytes.length) := by
    have taken : ((cfg :: (kidBytes ++ ctrBytes) ++ body).drop 5).take ctrBytes.length = ctrBytes := by
      have split : cfg :: (kidBytes ++ ctrBytes) ++ body = (cfg :: kidBytes) ++ (ctrBytes ++ body) := by
        simp
      rw [split, List.drop_left' (by simp [kidWidth]), List.take_left' rfl]
    have count : ctrBytes.length - 1 + 1 = ctrBytes.length := by omega
    simp only [parseCtr, clen, if_pos cExt, count, readBigEndianBigInt, taken, reads]
    rw [if_neg (by simp [kidWidth]; omega)]
  have offset : 5 + ctrBytes.length = (cfg :: (kidBytes ++ ctrBytes)).length := by
    simp [kidWidth]; omega
  rw [← offset]
  simp only [List.cons_append] at kidField ctrField ⊢
  simp only [parseHeader, kidField, ctrField, bind, Except.bind, pure, Except.pure]

/-- A counter field has eight bytes at the most. -/
theorem parseHeader_fits {buf : Bytes} {hdr : SFrameHeader} (parsed : parseHeader buf = .ok hdr) :
    hdr.ctr < 2 ^ 64 := by
  cases buf with
  | nil => cases parsed
  | cons cfg rest =>
    have short : (cfg &&& 0b111).toNat ≤ 7 := by
      rw [UInt8.toNat_and]
      exact Nat.and_le_right
    simp only [parseHeader, bind, Except.bind, pure, Except.pure] at parsed
    split at parsed
    · cases parsed
    · rename_i kid _
      split at parsed
      · cases parsed
      · rename_i ctr field
        cases parsed
        dsimp only
        unfold parseCtr at field
        dsimp only at field
        split at field
        · split at field
          · cases field
          · cases field
            apply lt_of_lt_of_le (readBytes_lt _)
            apply le_trans (Nat.pow_le_pow_right (by omega) (List.length_take_le _ _))
            exact le_trans (Nat.pow_le_pow_right (by omega) (Nat.succ_le_succ short)) (by norm_num)
        · cases field
          exact lt_of_le_of_lt short (by norm_num)

/-! ## Headers as a code -/

/-- The writer takes every key identifier of 32 bits and every counter of 64. -/
theorem serializeHeader_total {kid ctr : ℤ} (kidRange : 0 ≤ kid ∧ kid ≤ 2 ^ 32 - 1)
    (ctrRange : 0 ≤ ctr ∧ ctr ≤ 2 ^ 64 - 1) : ∃ header, serializeHeader kid ctr = .ok header := by
  have kidInside : ¬ (kid < 0 ∨ kid > 0xffffffff) := by omega
  have ctrInside : ¬ (ctr < 0 ∨ ctr > 0xffffffffffffffff) := by omega
  obtain ⟨ctrBytes, held, -⟩ := minimalBigEndian_reads (v := ctr.toNat) (by omega)
  unfold serializeHeader
  rw [if_neg kidInside, if_neg ctrInside, fixedBigEndian_ok (by omega), held]
  exact ⟨_, rfl⟩

theorem serializeHeader_refuses {kid ctr : ℤ}
    (outside : ¬ (0 ≤ kid ∧ kid ≤ 2 ^ 32 - 1) ∨ ¬ (0 ≤ ctr ∧ ctr ≤ 2 ^ 64 - 1)) :
    ∃ message, serializeHeader kid ctr = .error (.rangeError message) := by
  unfold serializeHeader
  split
  · exact ⟨_, rfl⟩
  · rename_i kidInside
    have ctrOutside : ctr < 0 ∨ ctr > 0xffffffffffffffff := by omega
    rw [if_pos ctrOutside]
    exact ⟨_, rfl⟩

/-- What follows a header does not matter for what it says. -/
theorem serializeHeader_unique {kid ctr kid' ctr' : ℤ} {header header' body body' : Bytes}
    (written : serializeHeader kid ctr = .ok header) (written' : serializeHeader kid' ctr' = .ok header')
    (same : header ++ body = header' ++ body') : kid = kid' ∧ ctr = ctr' ∧ header = header' := by
  obtain ⟨⟨kidLow, -⟩, ⟨ctrLow, -⟩, -⟩ := serializeHeader_ok written
  obtain ⟨⟨kidLow', -⟩, ⟨ctrLow', -⟩, -⟩ := serializeHeader_ok written'
  have parsed := parseHeader_serializeHeader written body
  rw [same, parseHeader_serializeHeader written' body'] at parsed
  obtain ⟨kids, ctrs, lengths⟩ := SFrameHeader.mk.inj (Except.ok.inj parsed)
  refine ⟨by omega, by omega, ?_⟩
  exact (List.append_inj same lengths.symm).1

/-- **Headers form a code.** The writer takes exactly the identifiers of 32 bits
and the counters of 64 bits; the reader takes them back in front of any bytes, so
no header is written for two pairs, and none is the beginning of another. -/
theorem headers_decode_uniquely :
    (∀ kid ctr : ℤ, 0 ≤ kid ∧ kid ≤ 2 ^ 32 - 1 → 0 ≤ ctr ∧ ctr ≤ 2 ^ 64 - 1 →
      ∃ header, serializeHeader kid ctr = .ok header ∧
        ∀ body, parseHeader (header ++ body) = .ok ⟨kid.toNat, ctr.toNat, header.length⟩) ∧
    (∀ kid ctr : ℤ, ¬ (0 ≤ kid ∧ kid ≤ 2 ^ 32 - 1) ∨ ¬ (0 ≤ ctr ∧ ctr ≤ 2 ^ 64 - 1) →
      ∃ message, serializeHeader kid ctr = .error (.rangeError message)) ∧
    (∀ (kid ctr kid' ctr' : ℤ) header, serializeHeader kid ctr = .ok header →
      serializeHeader kid' ctr' = .ok header → kid = kid' ∧ ctr = ctr') ∧
    ∀ (kid ctr kid' ctr' : ℤ) header header', serializeHeader kid ctr = .ok header →
      serializeHeader kid' ctr' = .ok header' → header <+: header' → header = header' := by
  refine ⟨?_, fun kid ctr => serializeHeader_refuses, ?_, ?_⟩
  · intro kid ctr kidRange ctrRange
    obtain ⟨header, written⟩ := serializeHeader_total kidRange ctrRange
    exact ⟨header, written, parseHeader_serializeHeader written⟩
  · intro kid ctr kid' ctr' header written written'
    obtain ⟨kids, ctrs, -⟩ := serializeHeader_unique written written' (Eq.refl (header ++ []))
    exact ⟨kids, ctrs⟩
  · rintro kid ctr kid' ctr' header header' written written' ⟨rest, extended⟩
    have same : header ++ rest = header' ++ [] := by rw [extended, List.append_nil]
    exact (serializeHeader_unique written written' same).2.2

end SFrameRatchet.Header
