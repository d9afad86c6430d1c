import SFrameRatchet.Bytes
import SFrameRatchet.KidFormat

/-! The cryptographic boundary. WebCrypto is a parameter with the laws a proof
may ask of it; the key schedule of `ratchet-crypto.ts` on top of it is the
program's own. A sender's bundles form a chain: each ratchet step derives the
next raw key from the last and leaves the salt as it is. -/
namespace SFrameRatchet.Crypto
open BigEndian Kid

inductive CipherSuite where
  | aes128GcmSha256
  | aes256GcmSha512
  deriving DecidableEq, Repr

/-- The suite as its source's string. -/
def CipherSuite.name : CipherSuite → String
  | aes128GcmSha256 => "AES_128_GCM_SHA256"
  | aes256GcmSha512 => "AES_256_GCM_SHA512"

inductive Hash where
  | sha256
  | sha512
  deriving DecidableEq, Repr

structure SuiteParams where
  hash : Hash
  aeadKeyBytes : ℕ
  chainKeyBytes : ℕ

def suiteParams : CipherSuite → SuiteParams
  | .aes128GcmSha256 => ⟨.sha256, 16, 32⟩
  | .aes256GcmSha512 => ⟨.sha512, 32, 64⟩

def defaultCipherSuite : CipherSuite := .aes128GcmSha256

def aeadTagBytes : ℕ := 16

/-- The part of WebCrypto the library calls, over the runtime's `CryptoKey`
objects. AES-GCM takes a key, an IV, the additional data and the text, and may
reject; HKDF takes the hash, the key material, the info and a length. -/
structure WebCrypto (K : Type) where
  encrypt : K → Bytes → Bytes → Bytes → Option Bytes
  decrypt : K → Bytes → Bytes → Bytes → Option Bytes
  importAesKey : Bytes → K
  hkdfExtractExpand : Bytes → Bytes → ℕ → Hash → Bytes

/-- Correctness of the AEAD: it seals everything, adds one tag, and opens what
it sealed under the same key, IV and additional data. -/
structure WebCrypto.Correct {K : Type} (crypto : WebCrypto K) : Prop where
  seals : ∀ key iv aad plaintext, ∃ sealed, crypto.encrypt key iv aad plaintext = some sealed
  tagged : ∀ {key iv aad plaintext sealed}, crypto.encrypt key iv aad plaintext = some sealed →
    sealed.length = plaintext.length + aeadTagBytes
  opens : ∀ {key iv aad plaintext sealed}, crypto.encrypt key iv aad plaintext = some sealed →
    crypto.decrypt key iv aad sealed = some plaintext

/-- `SFrameKey`: a key as the AEAD path uses it. -/
structure SFrameKey (K : Type) where
  kid : ℕ
  epoch : ℤ
  peerIndex : ℤ
  cryptoKey : K
  salt : Bytes
  deriving DecidableEq

/-- `SFrameKey & { rawKey }`: a key the ratchet can chain from. -/
structure RatchetKey (K : Type) extends SFrameKey K where
  rawKey : Bytes
  deriving DecidableEq

/-! ## The key schedule -/

/-- `TextEncoder.encode`. -/
def textEncode (text : String) : Bytes := text.toUTF8.data.toList

def sframeInfoKey : Bytes := textEncode "sframe/v1/key"
def sframeInfoSalt : Bytes := textEncode "sframe/v1/salt"
def sframeInfoRatchetStep : Bytes := textEncode "sframe/v1/ratchet-step"
def sframeSaltBytes : ℕ := 12

def peerIndexBe16 (peerIndex : ℤ) : Except JsError Bytes :=
  if peerIndex < 0 ∨ peerIndex > 0xffff then
    .error (.rangeError s!"peerIndex out of range [0, 0xffff]: {peerIndex}")
  else .ok (fixedBytes 2 peerIndex.toNat)

def hkdfInfo (base : Bytes) (peerIndex : ℤ) : Except JsError Bytes :=
  (peerIndexBe16 peerIndex).map fun index => base ++ index

section Schedule
variable {K : Type} (crypto : WebCrypto K)

/-- A sender's bundle at ratchet step zero. -/
def deriveSenderKeys (chainKey : Bytes) (epoch peerIndex : ℤ) (suite : CipherSuite)
    (kidCodec : KidCodec) : Except JsError (RatchetKey K) := do
  let params := suiteParams suite
  if chainKey.length ≠ params.chainKeyBytes then
    throw (.error (s!"ratchet: chain key must be {params.chainKeyBytes} bytes for suite " ++
      s!"{suite.name}, got {chainKey.length}"))
  let keyInfo ← hkdfInfo sframeInfoKey peerIndex
  let saltInfo ← hkdfInfo sframeInfoSalt peerIndex
  let keyRaw := crypto.hkdfExtractExpand chainKey keyInfo params.aeadKeyBytes params.hash
  let salt := crypto.hkdfExtractExpand chainKey saltInfo sframeSaltBytes params.hash
  let kid ← kidCodec.encode epoch peerIndex
  return { kid, epoch, peerIndex, cryptoKey := crypto.importAesKey keyRaw, salt, rawKey := keyRaw }

/-- The next bundle of the within-epoch chain; the salt stays fixed. -/
def deriveNextSenderKey (rawKey salt : Bytes) (epoch peerIndex : ℤ) (suite : CipherSuite)
    (kidCodec : KidCodec) : Except JsError (RatchetKey K) := do
  let params := suiteParams suite
  let info ← hkdfInfo sframeInfoRatchetStep peerIndex
  let nextRaw := crypto.hkdfExtractExpand rawKey info params.aeadKeyBytes params.hash
  let kid ← kidCodec.encode epoch peerIndex
  return { kid, epoch, peerIndex, cryptoKey := crypto.importAesKey nextRaw, salt, rawKey := nextRaw }

end Schedule
end SFrameRatchet.Crypto
