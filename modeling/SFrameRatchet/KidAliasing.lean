import SFrameRatchet.Header
import SFrameRatchet.KidFormat

/-! Key identifiers that name one sender twice. A header can hold identifiers of
up to 53 bits; the fixed split drops what is above 32 bits, and the MLS layout
drops the context field without a look at it. -/
namespace SFrameRatchet.KidAliasing
open Header Kid

/-- If the sender that an identifier names has an identifier, it is this one. -/
def NotAliased (codec : KidCodec) (kid : ℕ) : Prop :=
  ∀ made, codec.encode (codec.decode kid).1 (codec.decode kid).2 = .ok made → made = kid

/-- The identifier lies in the range of its layout: it has 32 bits, or the context
of its room. Elsewhere nothing is aliased where the room's own context and the
lower fields do not fit in 32 bits. -/
def InLayout : KidCodec → ℕ → Prop
  | .fixed, kid => kid ≤ 0xffffffff
  | .mls config _, kid =>
    let width := config.nEpochBits.toNat + config.nIndexBits.toNat
    (kid / 2 ^ width : ℕ) = config.contextId ∨ config.contextId < 0 ∨
      config.contextId * 2 ^ width + (kid % 2 ^ width : ℕ) > 0xffffffff

instance (codec : KidCodec) (kid : ℕ) : Decidable (InLayout codec kid) := by
  unfold InLayout
  split <;> infer_instance

/-! ## The fixed layout -/

theorem makeKid_splitKid (kid : ℕ) : makeKid (splitKid kid).1 (splitKid kid).2 = .ok (kid % 2 ^ 32) := by
  have epoch : (kid % 2 ^ 32) >>> 16 < 2 ^ 16 := by
    rw [Nat.shiftRight_eq_div_pow]
    omega
  have peer : kid &&& 0xffff = kid % 2 ^ 16 := Nat.and_two_pow_sub_one_eq_mod kid 16
  have small : kid % 2 ^ 16 < 2 ^ 16 := Nat.mod_lt _ (by norm_num)
  have masked (n : ℕ) (fits : n < 2 ^ 16) : n &&& 0xffff = n := by
    rw [show (0xffff : ℕ) = 2 ^ 16 - 1 from rfl, Nat.and_two_pow_sub_one_eq_mod, Nat.mod_eq_of_lt fits]
  have epochInside : ¬ ((((kid % 2 ^ 32) >>> 16 : ℕ) : ℤ) < 0 ∨ (((kid % 2 ^ 32) >>> 16 : ℕ) : ℤ) > 0xffff) := by
    omega
  have peerInside : ¬ (((kid % 2 ^ 16 : ℕ) : ℤ) < 0 ∨ ((kid % 2 ^ 16 : ℕ) : ℤ) > 0xffff) := by omega
  simp only [makeKid, splitKid, peer, if_neg epochInside, if_neg peerInside, Int.toNat_natCast, masked _ epoch,
    masked _ small]
  rw [← Nat.shiftLeft_add_eq_or_of_lt small, Nat.shiftLeft_eq, Nat.shiftRight_eq_div_pow]
  congr 1
  omega

/-! ## The MLS layout -/

section Mls
variable {config : MlsKidConfig}

/-- Packing the fields of an identifier puts the room's context above them. -/
theorem encodeMlsKid_fields (valid : validateMlsBitRange config.nEpochBits config.nIndexBits = .ok ())
    (kid made : ℕ) :
    encodeMlsKid (mlsFields kid config).1 (mlsFields kid config).2.1 config = .ok made ↔
      (0 ≤ config.contextId ∧
        config.contextId ≤ (2 ^ (64 - config.nEpochBits.toNat - config.nIndexBits.toNat) - 1 : ℕ)) ∧
      made = config.contextId.toNat * 2 ^ (config.nEpochBits.toNat + config.nIndexBits.toNat) +
        kid % 2 ^ (config.nEpochBits.toNat + config.nIndexBits.toNat) := by
  have epoch := Nat.mod_lt kid (Nat.two_pow_pos config.nEpochBits.toNat)
  have index := Nat.mod_lt (kid / 2 ^ config.nEpochBits.toNat) (Nat.two_pow_pos config.nIndexBits.toNat)
  have lower : kid % 2 ^ (config.nEpochBits.toNat + config.nIndexBits.toNat) =
      kid / 2 ^ config.nEpochBits.toNat % 2 ^ config.nIndexBits.toNat * 2 ^ config.nEpochBits.toNat +
        kid % 2 ^ config.nEpochBits.toNat := by
    rw [pow_add, Nat.mod_mul]
    ring
  have packed := packed_eq config.contextId.toNat epoch index
  simp only [encodeMlsKid, mlsFields, valid, bind, Except.bind, Nat.one_shiftLeft, Nat.and_two_pow_sub_one_eq_mod,
    Nat.shiftRight_eq_div_pow, throw, throwThe, MonadExceptOf.throw, pure, Except.pure, Int.toNat_natCast, packed]
  rw [if_neg (by omega), if_neg (by omega)]
  split
  · constructor
    · intro never
      cases never
    · omega
  · rw [Except.ok.injEq, lower, pow_add, add_mul, ← mul_assoc]
    constructor
    · rintro rfl
      refine ⟨by omega, by ring⟩
    · rintro ⟨-, rfl⟩
      ring

theorem encode_decode_mls (valid : validateMlsBitRange config.nEpochBits config.nIndexBits = .ok ()) (kid made : ℕ) :
    (KidCodec.mls config valid).encode ((KidCodec.mls config valid).decode kid).1
        ((KidCodec.mls config valid).decode kid).2 = .ok made ↔
      (0 ≤ config.contextId ∧
        config.contextId ≤ (2 ^ (64 - config.nEpochBits.toNat - config.nIndexBits.toNat) - 1 : ℕ)) ∧
      made = config.contextId.toNat * 2 ^ (config.nEpochBits.toNat + config.nIndexBits.toNat) +
        kid % 2 ^ (config.nEpochBits.toNat + config.nIndexBits.toNat) ∧ made ≤ 0xffffffff := by
  have fields := encodeMlsKid_fields valid kid
  simp only [KidCodec.encode, KidCodec.decode, bind, Except.bind]
  cases encoded : encodeMlsKid (mlsFields kid config).1 (mlsFields kid config).2.1 config with
  | error refused =>
    refine ⟨fun never => (by cases never), ?_⟩
    rintro ⟨inside, rfl, -⟩
    have written := (fields _).mpr ⟨inside, rfl⟩
    rw [encoded] at written
    cases written
  | ok big =>
    obtain ⟨inside, rfl⟩ := (fields big).mp encoded
    dsimp only
    split
    · refine ⟨fun never => (by cases never), ?_⟩
      rintro ⟨-, rfl, small⟩
      omega
    · simp only [pure, Except.pure, Except.ok.injEq]
      constructor
      · rintro rfl
        exact ⟨inside, rfl, by omega⟩
      · exact fun same => same.2.1.symm

end Mls

/-! ## Aliases -/

theorem notAliased_iff (codec : KidCodec) (kid : ℕ) : NotAliased codec kid ↔ InLayout codec kid := by
  cases codec with
  | fixed =>
    simp only [NotAliased, InLayout, KidCodec.encode, KidCodec.decode, makeKid_splitKid, Except.ok.injEq]
    constructor
    · intro same
      have := same _ rfl
      omega
    · rintro small _ rfl
      omega
  | mls config valid =>
    have width : config.nEpochBits.toNat + config.nIndexBits.toNat < 64 := by
      have widths := validateMlsBitRange_ok.mp valid
      omega
    simp only [NotAliased, InLayout, encode_decode_mls]
    generalize wide : config.nEpochBits.toNat + config.nIndexBits.toNat = bits at *
    have split : kid = kid / 2 ^ bits * 2 ^ bits + kid % 2 ^ bits := (Nat.div_add_mod' kid _).symm
    have positive := Nat.two_pow_pos bits
    constructor
    · intro own
      by_contra outside
      push Not at outside
      obtain ⟨apart, natural, small⟩ := outside
      obtain ⟨context, same⟩ := Int.eq_ofNat_of_zero_le natural
      rw [same] at apart small
      have fits : context * 2 ^ bits + kid % 2 ^ bits ≤ 0xffffffff := by exact_mod_cast small
      have room : context < 2 ^ (64 - bits) := by
        apply lt_of_mul_lt_mul_right _ (Nat.zero_le (2 ^ bits))
        rw [← pow_add, Nat.sub_add_cancel width.le]
        omega
      have known := own _ ⟨⟨natural, ?_⟩, rfl, ?_⟩
      · rw [same, Int.toNat_natCast] at known
        have equal : context = kid / 2 ^ bits := by
          apply Nat.eq_of_mul_eq_mul_right positive
          omega
        exact apart (by exact_mod_cast equal.symm)
      · rw [same, Nat.sub_sub, wide]
        omega
      · rw [same]
        exact fits
    · rintro inside made ⟨⟨natural, -⟩, rfl, small⟩
      obtain ⟨context, same⟩ := Int.eq_ofNat_of_zero_le natural
      rw [same] at inside small ⊢
      rw [Int.toNat_natCast] at small ⊢
      have own : kid / 2 ^ bits = context := by
        rcases inside with own | negative | large
        · exact_mod_cast own
        · omega
        · have beyond : context * 2 ^ bits + kid % 2 ^ bits > 0xffffffff := by exact_mod_cast large
          omega
      rw [← own]
      exact split.symm

/-- **Identifiers that are not aliased.** Exactly the identifiers in the range of
the room's layout are not taken for another one, and no two of them name one
sender whose identifier can be written. -/
theorem kids_own_iff (codec : KidCodec) (kid : ℕ) :
    (NotAliased codec kid ↔ InLayout codec kid) ∧
      ∀ kid' own, InLayout codec kid → InLayout codec kid' → codec.decode kid' = codec.decode kid →
        codec.encode (codec.decode kid).1 (codec.decode kid).2 = .ok own → kid' = kid := by
  refine ⟨notAliased_iff codec kid, fun kid' own inside inside' same encoded => ?_⟩
  have first := (notAliased_iff codec kid).mpr inside own encoded
  have second := (notAliased_iff codec kid').mpr inside' own (by rw [same]; exact encoded)
  exact second.symm.trans first

/-- A header with an identifier of five bytes. -/
def wideHeader : Bytes := [0b1100_1000, 1, 0, 7, 0, 9, 0]

/-- It names peer 9 of epoch 7, whose own identifier has four bytes. -/
theorem wide_kid_aliases : ¬ ∀ format mlsConfig codec buf hdr, makeKidCodec format mlsConfig = .ok codec →
    parseHeader buf = .ok hdr → NotAliased codec hdr.kid := by
  intro own
  have parsed : parseHeader wideHeader = .ok ⟨2 ^ 32 + 7 * 2 ^ 16 + 9, 0, 7⟩ := by decide
  have encoded := own .fixed none .fixed wideHeader _ rfl parsed (7 * 2 ^ 16 + 9) (by decide)
  cases encoded

end SFrameRatchet.KidAliasing
