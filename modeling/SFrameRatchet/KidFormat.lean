import SFrameRatchet.Doubles
import SFrameRatchet.Errors
import Mathlib.Data.Nat.Bitwise
import Mathlib.Tactic.Ring

/-! Key identifiers: the fixed 32-bit split of `ratchet-ids.ts` and the MLS
layout of `kid-format.ts` behind one codec. A codec for the MLS layout carries
the proof that its widths were validated, as `makeKidCodec` has done. -/
namespace SFrameRatchet.Kid

/-- `(epoch << 16) | peerIndex`, both 16 bits wide. -/
def makeKid (epoch peerIndex : ℤ) : Except JsError ℕ :=
  if epoch < 0 ∨ epoch > 0xffff then
    .error (.rangeError s!"epoch out of range [0, 0xffff]: {epoch}")
  else if peerIndex < 0 ∨ peerIndex > 0xffff then
    .error (.rangeError s!"peerIndex out of range [0, 0xffff]: {peerIndex}")
  else .ok (((epoch.toNat &&& 0xffff) <<< 16) ||| (peerIndex.toNat &&& 0xffff))

/-- The inverse of `makeKid`; the shift works on the low 32 bits. -/
def splitKid (kid : ℕ) : ℤ × ℤ := (((kid % 2 ^ 32) >>> 16 : ℕ), (kid &&& 0xffff : ℕ))

structure MlsKidConfig where
  nEpochBits : ℤ
  nIndexBits : ℤ
  contextId : ℤ
  deriving DecidableEq, Repr

def validateMlsBitRange (nEpochBits nIndexBits : ℤ) : Except JsError Unit :=
  if nEpochBits < 1 then
    .error (.rangeError s!"mls-kid: nEpochBits must be an integer ≥ 1, got {nEpochBits}")
  else if nIndexBits < 1 then
    .error (.rangeError s!"mls-kid: nIndexBits must be an integer ≥ 1, got {nIndexBits}")
  else if nEpochBits ≥ 63 then
    .error (.rangeError s!"mls-kid: nEpochBits must be < 63, got {nEpochBits}")
  else if nIndexBits ≥ 64 - nEpochBits then
    .error (.rangeError
      s!"mls-kid: nIndexBits must be < 64 - nEpochBits ({64 - nEpochBits}), got {nIndexBits}")
  else if nEpochBits + nIndexBits ≥ 64 then
    .error (.rangeError
      s!"mls-kid: nEpochBits + nIndexBits must be < 64, got {nEpochBits + nIndexBits}")
  else .ok ()

theorem validateMlsBitRange_ok {nEpochBits nIndexBits : ℤ} : validateMlsBitRange nEpochBits nIndexBits = .ok () ↔
    1 ≤ nEpochBits ∧ 1 ≤ nIndexBits ∧ nEpochBits + nIndexBits < 64 := by
  unfold validateMlsBitRange
  repeat' split
  all_goals simp only [reduceCtorEq, false_iff, true_iff]
  all_goals omega

def encodeMlsKid (epoch index : ℤ) (config : MlsKidConfig) : Except JsError ℕ := do
  validateMlsBitRange config.nEpochBits config.nIndexBits
  let e := config.nEpochBits.toNat
  let s := config.nIndexBits.toNat
  let epochMax : ℕ := 1 <<< e - 1
  if epoch < 0 ∨ epoch > epochMax then
    throw (.rangeError s!"mls-kid: epoch out of range [0, 2^{e} - 1 = {epochMax}]: {epoch}")
  let indexMax : ℕ := 1 <<< s - 1
  if index < 0 ∨ index > indexMax then
    throw (.rangeError s!"mls-kid: index out of range [0, 2^{s} - 1 = {indexMax}]: {index}")
  let contextBits := 64 - e - s
  let contextMax : ℕ := 1 <<< contextBits - 1
  if config.contextId < 0 ∨ config.contextId > contextMax then
    throw (.rangeError
      s!"mls-kid: contextId out of range [0, 2^{contextBits} - 1 = {contextMax}]: {config.contextId}")
  return (config.contextId.toNat <<< (e + s)) ||| (index.toNat <<< e) ||| epoch.toNat

/-- The epoch, index and context fields of a key identifier. -/
def mlsFields (kid : ℕ) (config : MlsKidConfig) : ℤ × ℤ × ℤ :=
  let e := config.nEpochBits.toNat
  let s := config.nIndexBits.toNat
  ((kid &&& (1 <<< e - 1) : ℕ), ((kid >>> e) &&& (1 <<< s - 1) : ℕ), (kid >>> (e + s) : ℕ))

/-- `Number` of a bigint: a double has 53 significant bits. -/
def numberOf (value : ℤ) : ℤ := (Doubles.roundTo 53 value.toNat : ℕ)

/-- The epoch and the index become numbers, the context stays a bigint. -/
def decodeMlsKid (kid : ℤ) (config : MlsKidConfig) : Except JsError (ℤ × ℤ × ℤ) := do
  validateMlsBitRange config.nEpochBits config.nIndexBits
  if kid < 0 ∨ kid > 0xffffffffffffffff then
    throw (.rangeError s!"mls-kid: kid out of range [0, 2^64 - 1]: {kid}")
  let (epoch, index, contextId) := mlsFields kid.toNat config
  return (numberOf epoch, numberOf index, contextId)

/-- The codec of a room; `makeKidCodec` builds no other. -/
inductive KidCodec where
  | fixed
  | mls (config : MlsKidConfig)
      (valid : validateMlsBitRange config.nEpochBits config.nIndexBits = .ok ())
  deriving DecidableEq

inductive KidFormat where
  | fixed
  | mls
  deriving DecidableEq, Repr

def makeKidCodec (format : KidFormat) (mlsConfig : Option MlsKidConfig) : Except JsError KidCodec :=
  match format, mlsConfig with
  | .fixed, _ => .ok .fixed
  | .mls, none =>
    .error (.error "kid-format: mlsConfig is required when kidFormat is \"mls\"")
  | .mls, some config =>
    match valid : validateMlsBitRange config.nEpochBits config.nIndexBits with
    | .ok () => .ok (.mls config valid)
    | .error refused => .error refused

namespace KidCodec

def encode : KidCodec → ℤ → ℤ → Except JsError ℕ
  | fixed, epoch, peerIndex => makeKid epoch peerIndex
  | mls config _, epoch, peerIndex => do
    let big ← encodeMlsKid epoch peerIndex config
    if big > 0xffffffff then
      throw (.rangeError (s!"kid-format: MLS KID {big}n exceeds 32-bit wire width " ++
        "(serializeHeader supports up to 32 bits); use a smaller config or contextId"))
    return big

/-- The epoch and peer index of a parsed key identifier. A parsed identifier
is a safe integer, so the range check of `decodeMlsKid` lets it through and the
fields need no rounding. -/
def decode : KidCodec → ℕ → ℤ × ℤ
  | fixed, kid => splitKid kid
  | mls config _, kid => ((mlsFields kid config).1, (mlsFields kid config).2.1)

end KidCodec

/-- A safe integer is a number as it is. -/
theorem numberOf_exact {value : ℤ} (natural : 0 ≤ value) (safe : value < 2 ^ 53) : numberOf value = value := by
  rw [numberOf, Doubles.roundTo_exact (by omega), Int.toNat_of_nonneg natural]

/-- What is no safe integer does not become one. -/
theorem numberOf_unsafe {value : ℤ} (large : 2 ^ 53 ≤ value) : 2 ^ 53 ≤ numberOf value := by
  have above : 2 ^ 53 ≤ Doubles.roundTo 53 value.toNat := Doubles.le_roundTo (by omega) (by omega)
  rw [numberOf]
  exact_mod_cast above

theorem mlsFields_bounds (kid : ℕ) (config : MlsKidConfig) :
    (0 ≤ (mlsFields kid config).1 ∧ (mlsFields kid config).1 ≤ kid) ∧
      0 ≤ (mlsFields kid config).2.1 ∧ (mlsFields kid config).2.1 ≤ kid := by
  have epoch : kid &&& (1 <<< config.nEpochBits.toNat - 1) ≤ kid := Nat.and_le_left
  have index : (kid >>> config.nEpochBits.toNat) &&& (1 <<< config.nIndexBits.toNat - 1) ≤ kid :=
    Nat.and_le_left.trans (Nat.shiftRight_le _ _)
  exact ⟨⟨Int.natCast_nonneg _, Int.ofNat_le.mpr epoch⟩, Int.natCast_nonneg _, Int.ofNat_le.mpr index⟩

/-- On what a header can hold, the MLS codec decodes as `decodeMlsKid` does. -/
theorem decodeMlsKid_ok {config : MlsKidConfig} {kid : ℕ} (safe : kid < 2 ^ 53)
    (valid : validateMlsBitRange config.nEpochBits config.nIndexBits = .ok ()) :
    (decodeMlsKid kid config).map (fun fields => (fields.1, fields.2.1)) =
      .ok ((KidCodec.mls config valid).decode kid) := by
  have range : ¬ ((kid : ℤ) < 0 ∨ (kid : ℤ) > 0xffffffffffffffff) := by omega
  obtain ⟨epoch, index⟩ := mlsFields_bounds kid config
  simp only [decodeMlsKid, valid, bind, Except.bind, if_neg range, pure, Except.pure, Int.toNat_natCast]
  rw [numberOf_exact epoch.1 (by omega), numberOf_exact index.1 (by omega)]
  rfl

theorem decode_epoch_nonneg (codec : KidCodec) (kid : ℕ) : 0 ≤ (codec.decode kid).1 := by
  cases codec <;> exact Int.natCast_nonneg _

theorem decode_peerIndex_nonneg (codec : KidCodec) (kid : ℕ) : 0 ≤ (codec.decode kid).2 := by
  cases codec <;> exact Int.natCast_nonneg _

theorem splitKid_makeKid {epoch peerIndex : ℤ} {kid : ℕ} (made : makeKid epoch peerIndex = .ok kid) :
    splitKid kid = (epoch, peerIndex) ∧ kid ≤ 0xffffffff := by
  unfold makeKid at made
  split at made
  · cases made
  · rename_i epochRange
    split at made
    · cases made
    · rename_i indexRange
      obtain rfl := Except.ok.inj made
      push Not at epochRange indexRange
      obtain ⟨e, rfl⟩ := Int.eq_ofNat_of_zero_le epochRange.1
      obtain ⟨p, rfl⟩ := Int.eq_ofNat_of_zero_le indexRange.1
      have epochSmall : e < 2 ^ 16 := by omega
      have indexSmall : p < 2 ^ 16 := by omega
      have masked (n : ℕ) (small : n < 2 ^ 16) : n &&& 0xffff = n := by
        rw [show (0xffff : ℕ) = 2 ^ 16 - 1 from rfl, Nat.and_two_pow_sub_one_eq_mod,
          Nat.mod_eq_of_lt small]
      simp only [Int.toNat_natCast, masked e epochSmall, masked p indexSmall]
      have joined : (e <<< 16) ||| p = e * 2 ^ 16 + p := by
        rw [← Nat.shiftLeft_add_eq_or_of_lt indexSmall, Nat.shiftLeft_eq]
      rw [joined]
      refine ⟨?_, by omega⟩
      simp only [splitKid, Nat.shiftRight_eq_div_pow, Prod.mk.injEq, Nat.cast_inj]
      rw [show (0xffff : ℕ) = 2 ^ 16 - 1 from rfl, Nat.and_two_pow_sub_one_eq_mod]
      omega

/-- Three fields side by side in one number. -/
theorem packed_eq {e s epoch index : ℕ} (context : ℕ) (epochFits : epoch < 2 ^ e)
    (indexFits : index < 2 ^ s) :
    (context <<< (e + s)) ||| (index <<< e) ||| epoch = (context * 2 ^ s + index) * 2 ^ e + epoch := by
  have high : (context <<< (e + s)) ||| (index <<< e) = (context * 2 ^ s + index) <<< e := by
    rw [show context <<< (e + s) = (context <<< s) <<< e by rw [Nat.add_comm, Nat.shiftLeft_add],
      ← Nat.shiftLeft_or_distrib, ← Nat.shiftLeft_add_eq_or_of_lt indexFits,
      Nat.shiftLeft_eq context]
  rw [high, ← Nat.shiftLeft_add_eq_or_of_lt epochFits, Nat.shiftLeft_eq]

private theorem mlsFields_packed {config : MlsKidConfig} {epoch index : ℕ}
    (context : 0 ≤ config.contextId) (epochFits : epoch < 2 ^ config.nEpochBits.toNat)
    (indexFits : index < 2 ^ config.nIndexBits.toNat) :
    mlsFields ((config.contextId.toNat * 2 ^ config.nIndexBits.toNat + index) *
      2 ^ config.nEpochBits.toNat + epoch) config = ((epoch : ℤ), (index : ℤ), config.contextId) := by
  simp only [mlsFields, Nat.one_shiftLeft, Nat.and_two_pow_sub_one_eq_mod,
    Nat.shiftRight_eq_div_pow, pow_add]
  have low (high : ℕ) : (high * 2 ^ config.nEpochBits.toNat + epoch) / 2 ^ config.nEpochBits.toNat =
      high := by
    rw [mul_comm, Nat.mul_add_div (Nat.two_pow_pos _), Nat.div_eq_of_lt epochFits, add_zero]
  have middle : (config.contextId.toNat * 2 ^ config.nIndexBits.toNat + index) /
      2 ^ config.nIndexBits.toNat = config.contextId.toNat := by
    rw [mul_comm, Nat.mul_add_div (Nat.two_pow_pos _), Nat.div_eq_of_lt indexFits, add_zero]
  rw [← Nat.div_div_eq_div_mul, low, middle, Nat.mul_add_mod_of_lt epochFits,
    Nat.mul_add_mod_of_lt indexFits, Int.toNat_of_nonneg context]

theorem mlsFields_encodeMlsKid {epoch index : ℤ} {config : MlsKidConfig} {kid : ℕ}
    (made : encodeMlsKid epoch index config = .ok kid) :
    mlsFields kid config = (epoch, index, config.contextId) := by
  unfold encodeMlsKid at made
  cases valid : validateMlsBitRange config.nEpochBits config.nIndexBits with
  | error refused => simp [valid, bind, Except.bind] at made
  | ok _ =>
    simp only [valid, bind, Except.bind, pure, Except.pure, throw, throwThe, MonadExceptOf.throw,
      Nat.one_shiftLeft] at made
    split at made
    · cases made
    · rename_i epochRange
      split at made
      · cases made
      · rename_i indexRange
        split at made
        · cases made
        · rename_i contextRange
          obtain rfl := Except.ok.inj made
          push Not at epochRange indexRange contextRange
          obtain ⟨ep, rfl⟩ := Int.eq_ofNat_of_zero_le epochRange.1
          obtain ⟨idx, rfl⟩ := Int.eq_ofNat_of_zero_le indexRange.1
          have epochFits : ep < 2 ^ config.nEpochBits.toNat := by
            have bound : ep ≤ 2 ^ config.nEpochBits.toNat - 1 := Int.ofNat_le.mp epochRange.2
            have positive := Nat.two_pow_pos config.nEpochBits.toNat
            omega
          have indexFits : idx < 2 ^ config.nIndexBits.toNat := by
            have bound : idx ≤ 2 ^ config.nIndexBits.toNat - 1 := Int.ofNat_le.mp indexRange.2
            have positive := Nat.two_pow_pos config.nIndexBits.toNat
            omega
          simp only [Int.toNat_natCast, packed_eq config.contextId.toNat epochFits indexFits]
          exact mlsFields_packed contextRange.1 epochFits indexFits

/-- What a codec encodes, it decodes to the same epoch and peer index. -/
theorem decode_encode {codec : KidCodec} {epoch peerIndex : ℤ} {kid : ℕ}
    (made : codec.encode epoch peerIndex = .ok kid) :
    codec.decode kid = (epoch, peerIndex) ∧ kid ≤ 0xffffffff := by
  cases codec with
  | fixed => exact splitKid_makeKid made
  | mls config valid =>
    simp only [KidCodec.encode, bind, Except.bind] at made
    cases encoded : encodeMlsKid epoch peerIndex config with
    | error refused => rw [encoded] at made; cases made
    | ok big =>
      rw [encoded] at made
      simp only at made
      split at made
      · cases made
      · rename_i small
        obtain rfl := Except.ok.inj made
        have fields := mlsFields_encodeMlsKid encoded
        exact ⟨by simp only [KidCodec.decode, fields], by omega⟩

end SFrameRatchet.Kid
