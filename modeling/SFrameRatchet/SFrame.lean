import SFrameRatchet.Crypto
import SFrameRatchet.Header

/-! The AEAD layer of `sframe.ts`. Each function is what the promise of its
source settles to; the suspension that the promise costs belongs to the caller,
because the key and the additional data are fixed before it. -/
namespace SFrameRatchet.SFrame
open BigEndian Kid Crypto Header

def ivBytes : ℕ := 12

/-- How the additional data is made of the clear codec bytes and the header;
`prefixed` is the source's `'prefix'`. -/
inductive AadForm where
  | header
  | prefixed
  | canonical
  deriving DecidableEq, Repr

/-- The additional data; an absent prefix counts as an empty one. -/
def buildAad (aadPrefix : Option Bytes) (header : Bytes) (form : AadForm) : Bytes :=
  let leading := aadPrefix.getD []
  match form with
  | .header => header
  | .prefixed => if leading.length = 0 then header else leading ++ header
  | .canonical =>
    UInt8.ofNat ((leading.length >>> 8) &&& 0xff) :: UInt8.ofNat (leading.length &&& 0xff) ::
      (leading ++ header)

/-- `IV = salt XOR left-padded big-endian CTR`, twelve bytes. -/
def deriveIv (salt : Bytes) (ctr : ℕ) : Except JsError Bytes :=
  if salt.length ≠ ivBytes then
    .error (.error s!"sframe: salt must be {ivBytes} bytes, got {salt.length}")
  else .ok (List.zipWith (· ^^^ ·) (fixedBytes ivBytes ctr) salt)

/-- Under one salt, counters that a header can carry have different IVs. -/
theorem deriveIv_injective {salt iv : Bytes} {first second : ℕ} (firstFits : first < 2 ^ 64)
    (secondFits : second < 2 ^ 64) (one : deriveIv salt first = .ok iv)
    (other : deriveIv salt second = .ok iv) : first = second := by
  unfold deriveIv at one other
  split at one
  · cases one
  · rename_i width
    push Not at width
    simp only [width, not_true_eq_false, ↓reduceIte, Except.ok.injEq, ne_eq] at one other
    have padded := xor_injective (by simp [width]) (by simp [width]) (one.trans other.symm)
    exact fixedBytes_injective (by simp only [ivBytes]; omega) (by simp only [ivBytes]; omega) padded

/-- `Uint8Array.prototype.set`: overwrite from an offset on. -/
def setBytes (target source : Bytes) (offset : ℕ) : Except JsError Bytes :=
  if target.length < offset + source.length then
    .error (.rangeError "offset is out of bounds")
  else .ok (target.take offset ++ source ++ target.drop (offset + source.length))

section Layer
variable {K : Type} (crypto : WebCrypto K)

/-- `[header][AES-GCM ciphertext + 16B tag]` under a key at a counter. -/
def sframeEncrypt (plaintext : Bytes) (key : SFrameKey K) (ctr : ℕ) (aadPrefix : Option Bytes)
    (aadForm : AadForm) : Except JsError Bytes := do
  let header ← serializeHeader key.kid ctr
  let iv ← deriveIv key.salt ctr
  match crypto.encrypt key.cryptoKey iv (buildAad aadPrefix header aadForm) plaintext with
  | none => throw .operationError
  | some ct => return header ++ ct

/-- The ciphertext that `sframeEncryptInto` awaits. -/
def sealBody (header body : Bytes) (key : SFrameKey K) (ctr : ℕ) (aadPrefix : Option Bytes)
    (aadForm : AadForm) : Except JsError Bytes := do
  let iv ← deriveIv key.salt ctr
  match crypto.encrypt key.cryptoKey iv (buildAad aadPrefix header aadForm) body with
  | none => throw .operationError
  | some ct => return ct

/-- Seal into a wire buffer at an offset; returns the buffer and the number of
bytes written. -/
def sframeEncryptInto (out : Bytes) (offset : ℕ) (header body : Bytes) (key : SFrameKey K)
    (ctr : ℕ) (aadPrefix : Option Bytes) (aadForm : AadForm) : Except JsError (Bytes × ℕ) := do
  let ct ← sealBody crypto header body key ctr aadPrefix aadForm
  let out ← setBytes out header offset
  let out ← setBytes out ct (offset + header.length)
  return (out, header.length + ct.length)

/-- Open a full SFrame buffer. The resolver sees the parsed key identifier,
its epoch and peer index, and the counter. -/
def sframeDecrypt (sframe : Bytes) (resolveKey : ℕ → ℤ → ℤ → ℕ → Option (SFrameKey K))
    (kidCodec : KidCodec) (aadPrefix : Option Bytes) (aadForm : AadForm) : Except JsError Bytes := do
  let hdr ← parseHeader sframe
  if sframe.length < hdr.bodyOffset + aeadTagBytes then
    throw (.aeadAuth "sframe: frame too short for tag" hdr.kid none none hdr.ctr)
  let (epoch, peerIndex) := kidCodec.decode hdr.kid
  match resolveKey hdr.kid epoch peerIndex hdr.ctr with
  | none =>
    throw (.keyNotFound s!"sframe: key not found for kid={hdr.kid}" hdr.kid epoch peerIndex)
  | some key =>
    let iv ← deriveIv key.salt hdr.ctr
    let aad := buildAad aadPrefix (sframe.take hdr.bodyOffset) aadForm
    match crypto.decrypt key.cryptoKey iv aad (sframe.drop hdr.bodyOffset) with
    | some plaintext => return plaintext
    | none =>
      throw (.aeadAuth s!"sframe: AEAD auth failed for kid={hdr.kid} ctr={hdr.ctr}" hdr.kid
        (some epoch) (some peerIndex) hdr.ctr)

variable {crypto} {plaintext buf : Bytes} {key : SFrameKey K} {ctr : ℕ} {aadPrefix : Option Bytes} {aadForm : AadForm}

/-- A sealed buffer is its header and the ciphertext under the header's counter. -/
theorem sframeEncrypt_ok : sframeEncrypt crypto plaintext key ctr aadPrefix aadForm = .ok buf ↔
    ∃ header iv ct, serializeHeader key.kid ctr = .ok header ∧ deriveIv key.salt ctr = .ok iv ∧
      crypto.encrypt key.cryptoKey iv (buildAad aadPrefix header aadForm) plaintext = some ct ∧ buf = header ++ ct := by
  unfold sframeEncrypt
  cases written : serializeHeader key.kid ctr with
  | error refused => simp [bind, Except.bind]
  | ok header =>
    cases derived : deriveIv key.salt ctr with
    | error refused => simp [bind, Except.bind]
    | ok iv =>
      cases made : crypto.encrypt key.cryptoKey iv (buildAad aadPrefix header aadForm) plaintext with
      | none => simp [bind, Except.bind, made, throw, throwThe, MonadExceptOf.throw]
      | some ct => simp [bind, Except.bind, made, pure, Except.pure, eq_comm]

/-- A buffer opens under a key when the AEAD opens what follows its header. -/
theorem sframeDecrypt_ok {hdr : SFrameHeader} (parsed : parseHeader buf = .ok hdr) {kidCodec : KidCodec} :
    sframeDecrypt crypto buf (fun _ _ _ _ => some key) kidCodec aadPrefix aadForm = .ok plaintext ↔
      hdr.bodyOffset + aeadTagBytes ≤ buf.length ∧ ∃ iv, deriveIv key.salt hdr.ctr = .ok iv ∧
        crypto.decrypt key.cryptoKey iv (buildAad aadPrefix (buf.take hdr.bodyOffset) aadForm)
          (buf.drop hdr.bodyOffset) = some plaintext := by
  simp only [sframeDecrypt, parsed, bind, Except.bind]
  by_cases short : buf.length < hdr.bodyOffset + aeadTagBytes
  · simp [short, throw, throwThe, MonadExceptOf.throw, Nat.not_le.mpr short]
  · simp only [if_neg short, Nat.not_lt.mp short, true_and]
    cases derived : deriveIv key.salt hdr.ctr with
    | error refused => simp
    | ok iv =>
      cases opened : crypto.decrypt key.cryptoKey iv (buildAad aadPrefix (buf.take hdr.bodyOffset) aadForm)
          (buf.drop hdr.bodyOffset) with
      | none => simp [opened, throw, throwThe, MonadExceptOf.throw]
      | some body => simp [opened, pure, Except.pure]

end Layer
end SFrameRatchet.SFrame
