import SFrameRatchet.HeaderGrammar
import SFrameRatchet.SFrame
import SFrameRatchet.Specimen

/-! The AEAD layer under one key. A buffer carries its header in front, and the
header is what the counter, and so the IV, are read from. The additional data fixes
where the clear prefix ends, so a buffer that opens is one that was sealed, down to
the bytes of its header. -/
namespace SFrameRatchet.SFrame
open BigEndian Kid Crypto Header

variable {K : Type}

/-- A frame sealed under the key. -/
structure SealedFrame where
  plaintext : Bytes
  ctr : ℕ
  aadPrefix : Option Bytes := none

/-- The call of the AEAD that seals a frame in a form. -/
def Encrypts (crypto : WebCrypto K) (key : SFrameKey K) (form : AadForm) (frame : SealedFrame) (iv aad ct : Bytes) :
    Prop :=
  ∃ header, serializeHeader key.kid frame.ctr = .ok header ∧ deriveIv key.salt frame.ctr = .ok iv ∧
    aad = buildAad frame.aadPrefix header form ∧ crypto.encrypt key.cryptoKey iv aad frame.plaintext = some ct

/-- An ideal AEAD under a key that has sealed these frames, all of them in one form:
it opens what it has been given to seal, and nothing else. -/
structure Ideal (crypto : WebCrypto K) (key : SFrameKey K) (form : AadForm) (frames : Set SealedFrame) : Prop where
  opens : ∀ iv aad ct plaintext, crypto.decrypt key.cryptoKey iv aad ct = some plaintext ↔
    ∃ frame ∈ frames, frame.plaintext = plaintext ∧ Encrypts crypto key form frame iv aad ct
  tagged : ∀ frame ∈ frames, ∀ iv aad ct, Encrypts crypto key form frame iv aad ct →
    ct.length = frame.plaintext.length + aeadTagBytes

variable {crypto : WebCrypto K} {key : SFrameKey K} {frames : Set SealedFrame} {kidCodec : KidCodec}
  {aadPrefix : Option Bytes} {form : AadForm} {buf plaintext : Bytes}

/-- A buffer in front of which a header was written reads back as that header. -/
theorem sframeDecrypt_header {header ct : Bytes} {ctr : ℕ} (written : serializeHeader key.kid ctr = .ok header) :
    sframeDecrypt crypto (header ++ ct) (fun _ _ _ _ => some key) kidCodec aadPrefix form = .ok plaintext ↔
      aeadTagBytes ≤ ct.length ∧ ∃ iv, deriveIv key.salt ctr = .ok iv ∧
        crypto.decrypt key.cryptoKey iv (buildAad aadPrefix header form) ct = some plaintext := by
  have parsed := parseHeader_serializeHeader written ct
  rw [sframeDecrypt_ok parsed]
  simp only [List.length_append, List.take_left, List.drop_left, Int.toNat_natCast]
  exact and_congr_left' (by omega)

/-- What the layer has sealed it opens, with the same prefix and form. -/
theorem sframeDecrypt_sframeEncrypt (correct : crypto.Correct) {ctr : ℕ}
    (sealed : sframeEncrypt crypto plaintext key ctr aadPrefix form = .ok buf) :
    sframeDecrypt crypto buf (fun _ _ _ _ => some key) kidCodec aadPrefix form = .ok plaintext := by
  obtain ⟨header, iv, ct, written, derived, made, rfl⟩ := sframeEncrypt_ok.mp sealed
  refine (sframeDecrypt_header written).mpr ⟨?_, iv, derived, correct.opens made⟩
  rw [correct.tagged made]
  exact Nat.le_add_left _ _

/-! ## What the additional data fixes -/

/-- The canonical form fixes the length of the prefix up to 16 bits, and all its bytes. -/
theorem buildAad_canonical_parts {first second : Option Bytes} {header other : Bytes}
    (same : buildAad first header .canonical = buildAad second other .canonical) :
    (first.getD []).length % 65536 = (second.getD []).length % 65536 ∧
      first.getD [] ++ header = second.getD [] ++ other := by
  simp only [buildAad, List.cons.injEq] at same
  obtain ⟨high, low, rest⟩ := same
  have highBytes := congrArg UInt8.toNat high
  have lowBytes := congrArg UInt8.toNat low
  rw [low_byte_toNat, low_byte_toNat] at highBytes lowBytes
  simp only [Nat.shiftRight_eq_div_pow] at highBytes
  exact ⟨by omega, rest⟩

/-- The canonical form tells the prefix from the header: their length is known to
within a header, and the two length bytes say the rest. -/
theorem buildAad_canonical_inj {first second : Option Bytes} {header other : Bytes} (short : header.length ≤ 17)
    (shortOther : other.length ≤ 17)
    (same : buildAad first header .canonical = buildAad second other .canonical) :
    first.getD [] = second.getD [] ∧ header = other := by
  obtain ⟨length, rest⟩ := buildAad_canonical_parts same
  have total := congrArg List.length rest
  rw [List.length_append, List.length_append] at total
  exact List.append_inj rest (by omega)

/-- The canonical form of a prefix that its two length bytes can count, behind
which any bytes may stand. -/
theorem buildAad_canonical_counted {first second : Option Bytes} {header other : Bytes}
    (counted : (first.getD []).length < 65536) (countedOther : (second.getD []).length < 65536)
    (same : buildAad first header .canonical = buildAad second other .canonical) :
    first.getD [] = second.getD [] ∧ header = other := by
  obtain ⟨length, rest⟩ := buildAad_canonical_parts same
  exact List.append_inj rest (by omega)

/-- The first byte of a header that is written here. -/
theorem serializeHeader_head {kid ctr : ℤ} {header : Bytes} (written : serializeHeader kid ctr = .ok header) :
    ∃ first rest, header = first :: rest ∧ 0xb8 ≤ first.toNat := by
  obtain ⟨-, range, ctrBytes, minimal, rfl⟩ := serializeHeader_ok written
  obtain ⟨bytes, again, nonempty, width, -⟩ := minimalBigEndian_reads (v := ctr.toNat) (by omega)
  obtain rfl : ctrBytes = bytes := Except.ok.inj (minimal.symm.trans again)
  have positive := List.length_pos_iff.mpr nonempty
  have marked : ∀ clen < 8, 0xb8 ≤ (configByte 3 clen).toNat := by decide
  exact ⟨_, _, rfl, marked _ (by omega)⟩

/-- **The canonical form is unambiguous.** It fixes the prefix and what follows it,
and under a short prefix it is none of the forms that begin with a header. -/
theorem canonical_aad_separate :
    (∀ (p q : Option Bytes) (h k : Bytes), (p.getD []).length < 65536 → (q.getD []).length < 65536 →
      buildAad p h .canonical = buildAad q k .canonical → p.getD [] = q.getD [] ∧ h = k) ∧
    ∀ kid ctr kid' ctr' h k, serializeHeader kid ctr = .ok h → serializeHeader kid' ctr' = .ok k →
      ∀ p q : Option Bytes, (p.getD []).length < 0xb800 → buildAad p h .canonical ≠ buildAad q k .header := by
  refine ⟨fun p q h k => buildAad_canonical_counted, fun kid ctr kid' ctr' h k _ written p q short same => ?_⟩
  obtain ⟨first, rest, rfl, marked⟩ := serializeHeader_head written
  simp only [buildAad, List.cons.injEq] at same
  have leading := congrArg UInt8.toNat same.1
  rw [low_byte_toNat, Nat.shiftRight_eq_div_pow] at leading
  omega

theorem parseHeader_bodyOffset {buf : Bytes} {hdr : SFrameHeader} (parsed : parseHeader buf = .ok hdr) :
    hdr.bodyOffset ≤ 17 := by
  cases buf with
  | nil => cases parsed
  | cons cfg rest =>
    rw [(parseHeader_ok.mp parsed).2]
    exact headerOf_bodyOffset_le cfg rest

theorem serializeHeader_length {kid ctr : ℤ} {header : Bytes} (written : serializeHeader kid ctr = .ok header) :
    header.length ≤ 17 := parseHeader_bodyOffset (parseHeader_serializeHeader written [])

/-! ## What opens -/

/-- Where the additional data fixes the header, a buffer opens to the plaintexts of the
frames that were sealed into it. -/
theorem opens_iff (ideal : Ideal crypto key form frames) {agrees : SealedFrame → Prop}
    (fixes : ∀ frame, ∀ header other : Bytes, header.length ≤ 17 → other.length ≤ 17 →
      (buildAad aadPrefix header form = buildAad frame.aadPrefix other form ↔ agrees frame ∧ header = other)) :
    sframeDecrypt crypto buf (fun _ _ _ _ => some key) kidCodec aadPrefix form = .ok plaintext ↔
      ∃ frame ∈ frames, frame.plaintext = plaintext ∧ agrees frame ∧
        sframeEncrypt crypto plaintext key frame.ctr frame.aadPrefix form = .ok buf := by
  constructor
  · intro opened
    cases parsed : parseHeader buf with
    | error refused => simp [sframeDecrypt, parsed, bind, Except.bind] at opened
    | ok hdr =>
      obtain ⟨-, iv, -, verified⟩ := (sframeDecrypt_ok parsed).mp opened
      obtain ⟨frame, member, rfl, header, written, derived, aad, made⟩ := (ideal.opens _ _ _ _).mp verified
      have short : (buf.take hdr.bodyOffset).length ≤ 17 :=
        (List.length_take_le _ _).trans (parseHeader_bodyOffset parsed)
      obtain ⟨agreed, same⟩ := (fixes frame _ _ short (serializeHeader_length written)).mp aad
      refine ⟨frame, member, rfl, agreed, sframeEncrypt_ok.mpr ⟨header, iv, _, written, derived, aad ▸ made, ?_⟩⟩
      rw [← same, List.take_append_drop]
  · rintro ⟨frame, member, rfl, agreed, sealed⟩
    obtain ⟨header, iv, ct, written, derived, made, rfl⟩ := sframeEncrypt_ok.mp sealed
    have short := serializeHeader_length written
    have performed : Encrypts crypto key form frame iv (buildAad frame.aadPrefix header form) ct :=
      ⟨header, written, derived, rfl, made⟩
    refine (sframeDecrypt_header written).mpr ⟨?_, iv, derived, (ideal.opens _ _ _ _).mpr ⟨frame, member, rfl, ?_⟩⟩
    · rw [ideal.tagged frame member _ _ _ performed]
      exact Nat.le_add_left _ _
    · rw [(fixes frame header header short short).mpr ⟨agreed, rfl⟩]
      exact performed

/-- The layer seals under every identifier of 32 bits. -/
theorem sframeEncrypt_total (correct : crypto.Correct) (salted : key.salt.length = ivBytes) {ctr : ℕ}
    (fits : ctr ≤ 2 ^ 64 - 1) (plaintext : Bytes) (aadPrefix : Option Bytes) (form : AadForm) :
    (key.kid ≤ 2 ^ 32 - 1 → ∃ buf, sframeEncrypt crypto plaintext key ctr aadPrefix form = .ok buf) ∧
      (key.kid > 2 ^ 32 - 1 → ∃ message, sframeEncrypt crypto plaintext key ctr aadPrefix form = .error
        (.rangeError message)) := by
  constructor
  · intro narrow
    have kidRange : 0 ≤ (key.kid : ℤ) ∧ (key.kid : ℤ) ≤ 2 ^ 32 - 1 := by omega
    have ctrRange : 0 ≤ (ctr : ℤ) ∧ (ctr : ℤ) ≤ 2 ^ 64 - 1 := by omega
    obtain ⟨header, written⟩ := serializeHeader_total kidRange ctrRange
    have derived : deriveIv key.salt ctr = .ok (List.zipWith (· ^^^ ·) (fixedBytes ivBytes ctr) key.salt) := by
      simp [deriveIv, salted]
    obtain ⟨ct, made⟩ := correct.seals key.cryptoKey _ (buildAad aadPrefix header form) plaintext
    exact ⟨_, sframeEncrypt_ok.mpr ⟨header, _, ct, written, derived, made, rfl⟩⟩
  · intro wide
    have outside : ¬ (0 ≤ (key.kid : ℤ) ∧ (key.kid : ℤ) ≤ 2 ^ 32 - 1) ∨ ¬ (0 ≤ (ctr : ℤ) ∧ (ctr : ℤ) ≤ 2 ^ 64 - 1) := by
      omega
    obtain ⟨message, refused⟩ := serializeHeader_refuses outside
    exact ⟨message, by simp [sframeEncrypt, refused, bind, Except.bind]⟩

/-- **The AEAD layer.** What is sealed under a key opens with the same prefix and form,
and is rejected beforehand only for an identifier that no header can carry. Under an
ideal AEAD a buffer opens in the form that all frames were sealed in exactly when it is
one of them, in the canonical form together with its prefix. -/
theorem sframe_roundTrip_integrity (key : SFrameKey K) (kidCodec : KidCodec) :
    (∀ crypto : WebCrypto K, crypto.Correct → key.salt.length = ivBytes →
      ∀ plaintext ctr aadPrefix form, ctr ≤ 2 ^ 64 - 1 →
      (key.kid ≤ 2 ^ 32 - 1 → ∃ buf, sframeEncrypt crypto plaintext key ctr aadPrefix form = .ok buf) ∧
      (key.kid > 2 ^ 32 - 1 → ∃ message,
        sframeEncrypt crypto plaintext key ctr aadPrefix form = .error (.rangeError message)) ∧
      ∀ buf, sframeEncrypt crypto plaintext key ctr aadPrefix form = .ok buf →
        sframeDecrypt crypto buf (fun _ _ _ _ => some key) kidCodec aadPrefix form = .ok plaintext) ∧
    (∀ (crypto : WebCrypto K) (frames : Set SealedFrame), Ideal crypto key .header frames → ∀ aadPrefix buf plaintext,
      sframeDecrypt crypto buf (fun _ _ _ _ => some key) kidCodec aadPrefix .header = .ok plaintext ↔
        ∃ frame ∈ frames, frame.plaintext = plaintext ∧
          sframeEncrypt crypto plaintext key frame.ctr frame.aadPrefix .header = .ok buf) ∧
    (∀ (crypto : WebCrypto K) (frames : Set SealedFrame), Ideal crypto key .canonical frames →
      ∀ aadPrefix buf plaintext,
      sframeDecrypt crypto buf (fun _ _ _ _ => some key) kidCodec aadPrefix .canonical = .ok plaintext ↔
        ∃ frame ∈ frames, frame.plaintext = plaintext ∧ frame.aadPrefix.getD [] = aadPrefix.getD [] ∧
          sframeEncrypt crypto plaintext key frame.ctr frame.aadPrefix .canonical = .ok buf) := by
  refine ⟨?_, ?_, ?_⟩
  · intro crypto correct salted plaintext ctr aadPrefix form fits
    obtain ⟨seals, refuses⟩ := sframeEncrypt_total correct salted fits plaintext aadPrefix form
    exact ⟨seals, refuses, fun buf => sframeDecrypt_sframeEncrypt correct⟩
  · intro crypto frames ideal aadPrefix buf plaintext
    have all : sframeDecrypt crypto buf (fun _ _ _ _ => some key) kidCodec aadPrefix .header = .ok plaintext ↔
        ∃ frame ∈ frames, frame.plaintext = plaintext ∧ True ∧
          sframeEncrypt crypto plaintext key frame.ctr frame.aadPrefix .header = .ok buf :=
      opens_iff ideal fun _ _ _ _ _ => by simp [buildAad]
    simpa using all
  · intro crypto frames ideal aadPrefix buf plaintext
    refine opens_iff ideal fun frame header other short shortOther => ⟨fun same => ?_, fun ⟨prefixes, same⟩ => ?_⟩
    · obtain ⟨prefixes, headers⟩ := buildAad_canonical_inj short shortOther same
      exact ⟨prefixes.symm, headers⟩
    · simp only [buildAad, prefixes, same]

/-- An ideal AEAD whose key has sealed one frame. -/
def openingOnly (crypto : WebCrypto K) (key : SFrameKey K) (form : AadForm) (frame : SealedFrame) : WebCrypto K :=
  { crypto with
    decrypt := fun _ iv aad ct =>
      match serializeHeader key.kid frame.ctr, deriveIv key.salt frame.ctr with
      | .ok header, .ok own =>
        if iv = own ∧ aad = buildAad frame.aadPrefix header form ∧
            crypto.encrypt key.cryptoKey iv aad frame.plaintext = some ct then some frame.plaintext
        else none
      | _, _ => none }

theorem openingOnly_ideal (correct : crypto.Correct) (key : SFrameKey K) (form : AadForm) (frame : SealedFrame) :
    Ideal (openingOnly crypto key form frame) key form {frame} where
  opens iv aad ct plaintext := by
    simp only [Set.mem_singleton_iff, exists_eq_left, Encrypts, openingOnly]
    cases serializeHeader key.kid frame.ctr with
    | error refused => simp
    | ok header =>
      cases deriveIv key.salt frame.ctr with
      | error refused => simp
      | ok own =>
        simp only [Except.ok.injEq, exists_eq_left', Option.ite_none_right_eq_some, Option.some.injEq,
          eq_comm (a := own)]
        tauto
  tagged := by
    rintro _ rfl iv aad ct ⟨header, -, -, -, made⟩
    exact correct.tagged made

theorem sframe_roundTrip_integrity_specimen :
    let key : SFrameKey Bytes := (Specimen.keyOf 0 1 7).toSFrameKey
    let frame : SealedFrame := ⟨[1, 2, 3], 5, some [9]⟩
    (∀ buf, sframeEncrypt Specimen.crypto [1, 2, 3] key 5 (some [9]) .canonical = .ok buf →
      sframeDecrypt Specimen.crypto buf (fun _ _ _ _ => some key) .fixed (some [9]) .canonical = .ok [1, 2, 3]) ∧
    (∀ buf, sframeDecrypt (openingOnly Specimen.crypto key .header frame) buf
      (fun _ _ _ _ => some key) .fixed none .header =
      .ok [1, 2, 3] → ∃ sealed ∈ ({frame} : Set SealedFrame), sealed.plaintext = [1, 2, 3]) ∧
    (∀ buf, sframeDecrypt (openingOnly Specimen.crypto key .canonical frame) buf (fun _ _ _ _ => some key) .fixed none
      .canonical = .ok [1, 2, 3] → ∃ sealed ∈ ({frame} : Set SealedFrame), sealed.aadPrefix.getD [] = []) := by
  intro key frame
  obtain ⟨opens, headers, canonicals⟩ := sframe_roundTrip_integrity key .fixed
  refine ⟨?_, fun buf opened => ?_, fun buf opened => ?_⟩
  · exact (opens Specimen.crypto Specimen.crypto_correct rfl [1, 2, 3] 5 (some [9]) .canonical (by norm_num)).2.2
  · obtain ⟨sealed, member, same, -⟩ := (headers _ {frame} (openingOnly_ideal Specimen.crypto_correct key .header frame)
      none buf [1, 2, 3]).mp opened
    exact ⟨sealed, member, same⟩
  · obtain ⟨sealed, member, -, same, -⟩ := (canonicals _ {frame}
      (openingOnly_ideal Specimen.crypto_correct key .canonical frame) none buf [1, 2, 3]).mp opened
    exact ⟨sealed, member, same⟩

end SFrameRatchet.SFrame
