import SFrameRatchet.KidAliasing

/-! The MLS layout of key identifiers packs three fields of variable width into 64
bits. Packing loses nothing, and an identifier is packed again from its fields; only
what a double cannot hold gets lost on the way through a number. -/
namespace SFrameRatchet.MlsKids
open Kid KidAliasing

/-- A value that an unsigned field of so many bits can hold. -/
def Fits (bits value : ℤ) : Prop := 0 ≤ value ∧ value < 2 ^ bits.toNat

/-- `Number.isSafeInteger` of an integer. -/
def SafeInteger (value : ℤ) : Prop := |value| < 2 ^ 53

instance (bits value : ℤ) : Decidable (Fits bits value) := inferInstanceAs (Decidable (_ ∧ _))

/-- The bits above the epoch and the index. -/
def contextBits (config : MlsKidConfig) : ℤ := 64 - config.nEpochBits - config.nIndexBits

variable {config : MlsKidConfig} {epoch index : ℤ} {kid : ℕ}

theorem not_fits_iff {bits value : ℤ} :
    value < 0 ∨ value > ((1 <<< bits.toNat - 1 : ℕ) : ℤ) ↔ ¬ Fits bits value := by
  have positive := Nat.two_pow_pos bits.toNat
  have last : ((1 <<< bits.toNat - 1 : ℕ) : ℤ) = 2 ^ bits.toNat - 1 := by
    rw [Nat.one_shiftLeft, Nat.cast_sub positive]
    simp
  rw [last, Fits]
  omega

/-- The bits that validated widths leave for the context. -/
theorem contextBits_toNat (valid : validateMlsBitRange config.nEpochBits config.nIndexBits = .ok ()) :
    (contextBits config).toNat = 64 - config.nEpochBits.toNat - config.nIndexBits.toNat ∧
      config.nEpochBits.toNat + config.nIndexBits.toNat + (contextBits config).toNat = 64 := by
  have widths := validateMlsBitRange_ok.mp valid
  rw [contextBits]
  omega

/-- Encoding succeeds when each field fits, and puts the fields side by side. -/
theorem encodeMlsKid_ok (valid : validateMlsBitRange config.nEpochBits config.nIndexBits = .ok ()) :
    encodeMlsKid epoch index config = .ok kid ↔
      (Fits config.nEpochBits epoch ∧ Fits config.nIndexBits index ∧ Fits (contextBits config) config.contextId) ∧
        kid = (config.contextId.toNat * 2 ^ config.nIndexBits.toNat + index.toNat) * 2 ^ config.nEpochBits.toNat +
          epoch.toNat := by
  unfold encodeMlsKid
  simp only [valid, bind, Except.bind, pure, Except.pure, throw, throwThe, MonadExceptOf.throw,
    ← (contextBits_toNat valid).1, not_fits_iff]
  by_cases epochFits : Fits config.nEpochBits epoch
  · by_cases indexFits : Fits config.nIndexBits index
    · by_cases contextFits : Fits (contextBits config) config.contextId
      · have packed := packed_eq config.contextId.toNat
          (show epoch.toNat < 2 ^ config.nEpochBits.toNat by exact_mod_cast (Int.toNat_lt epochFits.1).mpr epochFits.2)
          (show index.toNat < 2 ^ config.nIndexBits.toNat by exact_mod_cast (Int.toNat_lt indexFits.1).mpr indexFits.2)
        simp only [epochFits, indexFits, contextFits, not_true_eq_false, ↓reduceIte, packed, Except.ok.injEq, and_self,
          true_and, eq_comm]
      · simp [epochFits, indexFits, contextFits]
    · simp [epochFits, indexFits]
  · simp [epochFits]

theorem encodeMlsKid_lt (valid : validateMlsBitRange config.nEpochBits config.nIndexBits = .ok ())
    (encoded : encodeMlsKid epoch index config = .ok kid) : kid < 2 ^ 64 := by
  obtain ⟨⟨epochFits, indexFits, contextFits⟩, rfl⟩ := (encodeMlsKid_ok valid).mp encoded
  have natural {bits value : ℤ} (fits : Fits bits value) : value.toNat + 1 ≤ 2 ^ bits.toNat := by
    exact_mod_cast (Int.toNat_lt fits.1).mpr fits.2
  calc _ < (config.contextId.toNat * 2 ^ config.nIndexBits.toNat + index.toNat + 1) * 2 ^ config.nEpochBits.toNat := by
        rw [add_mul _ 1, one_mul]
        exact Nat.add_lt_add_left (natural epochFits) _
    _ ≤ ((config.contextId.toNat + 1) * 2 ^ config.nIndexBits.toNat) * 2 ^ config.nEpochBits.toNat := by
        apply Nat.mul_le_mul_right _
        rw [add_mul _ 1, one_mul, add_assoc]
        exact Nat.add_le_add_left (natural indexFits) _
    _ ≤ (2 ^ (contextBits config).toNat * 2 ^ config.nIndexBits.toNat) * 2 ^ config.nEpochBits.toNat :=
        Nat.mul_le_mul_right _ (Nat.mul_le_mul_right _ (natural contextFits))
    _ = 2 ^ 64 := by
        rw [← pow_add, ← pow_add, ← (contextBits_toNat valid).2]
        congr 1
        omega

/-- Decoding reads the three fields, the lower two of them as numbers. -/
theorem decodeMlsKid_eq (valid : validateMlsBitRange config.nEpochBits config.nIndexBits = .ok ())
    (small : kid < 2 ^ 64) :
    decodeMlsKid kid config = .ok (numberOf (mlsFields kid config).1, numberOf (mlsFields kid config).2.1,
      (mlsFields kid config).2.2) := by
  have range : ¬ ((kid : ℤ) < 0 ∨ (kid : ℤ) > 0xffffffffffffffff) := by omega
  simp only [decodeMlsKid, valid, bind, Except.bind, if_neg range, pure, Except.pure, Int.toNat_natCast]

/-- A number that is a safe integer was one before it was rounded. -/
theorem numberOf_safe {value : ℤ} (natural : 0 ≤ value) (safe : SafeInteger (numberOf value)) :
    numberOf value = value := by
  apply numberOf_exact natural
  by_contra large
  have above := numberOf_unsafe (not_lt.mp large)
  exact absurd ((le_abs_self _).trans_lt safe) (not_lt.mpr above)

/-- An identifier is packed from its own fields. -/
theorem encodeMlsKid_mlsFields (valid : validateMlsBitRange config.nEpochBits config.nIndexBits = .ok ())
    (small : kid < 2 ^ 64) :
    encodeMlsKid (mlsFields kid config).1 (mlsFields kid config).2.1
      { config with contextId := (mlsFields kid config).2.2 } = .ok kid := by
  have bits := (contextBits_toNat valid).2
  have whole := (contextBits_toNat valid).1
  refine (@encodeMlsKid_fields { config with contextId := (mlsFields kid config).2.2 } valid kid kid).mpr ⟨?_, ?_⟩
  · have above : kid >>> (config.nEpochBits.toNat + config.nIndexBits.toNat) < 2 ^ (contextBits config).toNat := by
      rw [Nat.shiftRight_eq_div_pow]
      apply Nat.div_lt_of_lt_mul
      rw [← pow_add, bits]
      exact small
    simp only [mlsFields, ← whole]
    exact ⟨Int.natCast_nonneg _, by exact_mod_cast Nat.le_sub_one_of_lt above⟩
  · simp only [mlsFields, Int.toNat_natCast, Nat.shiftRight_eq_div_pow]
    exact (Nat.div_add_mod' kid _).symm

/-- **The layout loses nothing.** Encoding fails exactly when a field exceeds its
width; otherwise it gives 64 bits that decode to the same fields, and every
identifier whose fields are safe integers is encoded again from them. -/
theorem mlsKid_bijective (valid : validateMlsBitRange config.nEpochBits config.nIndexBits = .ok ())
    (context : Fits (contextBits config) config.contextId) :
    (∀ epoch index, SafeInteger epoch → SafeInteger index →
      ((∃ refused, encodeMlsKid epoch index config = .error refused) ↔
        ¬ (Fits config.nEpochBits epoch ∧ Fits config.nIndexBits index)) ∧
      ∀ kid, encodeMlsKid epoch index config = .ok kid →
        kid < 2 ^ 64 ∧ decodeMlsKid kid config = .ok (epoch, index, config.contextId)) ∧
    ∀ kid : ℕ, kid < 2 ^ 64 → ∀ epoch index contextId, decodeMlsKid kid config = .ok (epoch, index, contextId) →
      SafeInteger epoch → SafeInteger index → encodeMlsKid epoch index { config with contextId } = .ok kid := by
  constructor
  · intro epoch index epochSafe indexSafe
    constructor
    · cases encoded : encodeMlsKid epoch index config with
      | ok kid =>
        obtain ⟨⟨epochFits, indexFits, -⟩, -⟩ := (encodeMlsKid_ok valid).mp encoded
        exact ⟨nofun, fun exceeds => absurd ⟨epochFits, indexFits⟩ exceeds⟩
      | error refused =>
        refine ⟨fun _ fits => ?_, fun _ => ⟨refused, rfl⟩⟩
        have made := (encodeMlsKid_ok valid).mpr ⟨⟨fits.1, fits.2, context⟩, rfl⟩
        cases encoded.symm.trans made
    · intro kid encoded
      have small := encodeMlsKid_lt valid encoded
      obtain ⟨⟨epochFits, indexFits, -⟩, -⟩ := (encodeMlsKid_ok valid).mp encoded
      have own := numberOf_exact epochFits.1 ((le_abs_self _).trans_lt epochSafe)
      have peer := numberOf_exact indexFits.1 ((le_abs_self _).trans_lt indexSafe)
      refine ⟨small, ?_⟩
      rw [decodeMlsKid_eq valid small, mlsFields_encodeMlsKid encoded, own, peer]
  · intro kid small epoch index contextId decoded epochSafe indexSafe
    rw [decodeMlsKid_eq valid small] at decoded
    obtain ⟨rfl, rest⟩ := Prod.mk.inj (Except.ok.inj decoded)
    obtain ⟨rfl, rfl⟩ := Prod.mk.inj rest
    obtain ⟨epochBounds, indexBounds⟩ := mlsFields_bounds kid config
    rw [numberOf_safe epochBounds.1 epochSafe, numberOf_safe indexBounds.1 indexSafe]
    exact encodeMlsKid_mlsFields valid small

/-- The widest epoch field, with one bit for each of the others. -/
def widest : MlsKidConfig := ⟨62, 1, 1⟩

theorem mlsKid_bijective_widest : (¬ ∃ refused, encodeMlsKid (2 ^ 53 - 1) 1 widest = .error refused) ∧
    ∀ kid, encodeMlsKid (2 ^ 53 - 1) 1 widest = .ok kid →
      kid < 2 ^ 64 ∧ decodeMlsKid kid widest = .ok (2 ^ 53 - 1, 1, 1) := by
  obtain ⟨fails, decodes⟩ := (@mlsKid_bijective widest rfl (by decide)).1 (2 ^ 53 - 1) 1 (by norm_num [SafeInteger])
    (by norm_num [SafeInteger])
  exact ⟨fun refused => fails.mp refused (by decide), decodes⟩

end SFrameRatchet.MlsKids
