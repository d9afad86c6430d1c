import SFrameRatchet.WorkerRuns

/-! A runtime small enough to compute with: AES-GCM and HKDF are replaced by
one checksum over all their inputs. It is a correct AEAD, so the laws asked of
WebCrypto can be met, and runs of the worker over it can be evaluated. -/
namespace SFrameRatchet.Specimen
open BigEndian Collections Kid Header Crypto SFrame Media

/-- A checksum of a byte string in `width` bytes. -/
def digest (width : ℕ) (bytes : Bytes) : Bytes :=
  fixedBytes width (readBytes (1 :: bytes) % (2 ^ 127 - 1))

def crypto : WebCrypto Bytes where
  encrypt key iv aad plaintext :=
    some (plaintext ++ digest aeadTagBytes (key ++ iv ++ aad ++ plaintext))
  decrypt key iv aad ciphertext :=
    let body := ciphertext.take (ciphertext.length - aeadTagBytes)
    if ciphertext = body ++ digest aeadTagBytes (key ++ iv ++ aad ++ body) then some body else none
  importAesKey raw := raw
  hkdfExtractExpand material info length _ := digest length (material ++ info)

theorem crypto_correct : crypto.Correct where
  seals key iv aad plaintext := ⟨_, rfl⟩
  tagged := by
    intro key iv aad plaintext ciphertext sealed
    obtain rfl := Option.some.inj sealed
    simp [digest]
  opens := by
    intro key iv aad plaintext ciphertext sealed
    obtain rfl := Option.some.inj sealed
    have body : (plaintext ++ digest aeadTagBytes (key ++ iv ++ aad ++ plaintext)).take
        ((plaintext ++ digest aeadTagBytes (key ++ iv ++ aad ++ plaintext)).length - aeadTagBytes) =
        plaintext := List.take_left' (by simp [digest])
    simp only [crypto, body, ↓reduceIte]

/-- What opens is as long as the ciphertext without its tag. -/
theorem decrypt_length {key iv aad ciphertext plaintext : Bytes}
    (opened : crypto.decrypt key iv aad ciphertext = some plaintext) :
    plaintext.length = ciphertext.length - aeadTagBytes := by
  simp only [crypto] at opened
  split at opened
  · obtain rfl := Option.some.inj opened
    simp
  · cases opened

/-- What a buffer opens to is shorter by the header and the tag. -/
theorem opened_shorter {buf plaintext : Bytes} {resolveKey : ℕ → ℤ → ℤ → ℕ → Option (SFrameKey Bytes)}
    {kidCodec : KidCodec} {aadPrefix : Option Bytes} {aadForm : AadForm}
    (opened : sframeDecrypt crypto buf resolveKey kidCodec aadPrefix aadForm = .ok plaintext) :
    ∃ hdr, parseHeader buf = .ok hdr ∧ plaintext.length + hdr.bodyOffset + aeadTagBytes = buf.length := by
  cases parsed : parseHeader buf with
  | error refused => simp [sframeDecrypt, parsed, bind, Except.bind] at opened
  | ok hdr =>
    refine ⟨hdr, rfl, ?_⟩
    simp only [sframeDecrypt, parsed, bind, Except.bind] at opened
    split at opened
    · cases opened
    · rename_i long
      split at opened
      · cases opened
      · split at opened
        · cases opened
        · split at opened
          · rename_i plaintext verified
            cases opened
            have body := decrypt_length verified
            rw [List.length_drop] at body
            omega
          · cases opened

/-- No durable guard. -/
def guard : ReplayGuard Unit where
  create _ _ := ()
  available _ := false
  check _ _ _ := (true, ())
  accept _ _ _ := ()
  clear _ _ := ()

def runtime : Runtime Bytes Unit := ⟨crypto, guard, 16⟩

/-- The bundle of a sender whose raw key repeats one byte. -/
def bundle (byte : UInt8) : PerSenderKeyBundle Bytes :=
  { cryptoKey := List.replicate 16 byte, salt := List.replicate 12 1, rawKey := List.replicate 16 byte }

/-- Key bundles for peers 0, 1, ... in order. -/
def bundles (bytes : List UInt8) : KeyBundles Bytes :=
  (bytes.foldl (fun table byte => (table.1.set table.2 (bundle byte), table.2 + 1))
    ((∅ : KeyBundles Bytes), (0 : ℤ))).1

/-- The key a bundle gives at ratchet step zero. -/
def keyOf (epoch peerIndex : ℤ) (byte : UInt8) : RatchetKey Bytes :=
  let secret := bundle byte
  { kid := ((Kid.makeKid epoch peerIndex).toOption).getD 0, epoch, peerIndex
    cryptoKey := secret.cryptoKey, salt := secret.salt, rawKey := secret.rawKey }

/-- The key one ratchet step further. -/
def stepOf (key : RatchetKey Bytes) : RatchetKey Bytes :=
  ((deriveNextSenderKey crypto key.rawKey key.salt key.epoch key.peerIndex defaultCipherSuite
    .fixed).toOption).getD key

/-- A payload as this version's sender writes it, without a clear prefix. -/
def sealedBy (key : RatchetKey Bytes) (ctr : ℕ) (plaintext : Bytes) : Bytes :=
  ((sframeEncrypt crypto plaintext key.toSFrameKey ctr none .header).toOption).getD []

/-- A worker with one epoch installed. -/
def installed (epoch selfPeerIndex : ℤ) (bytes : List UInt8) : Worker Bytes Unit :=
  (((Worker.createWorkerState (K := Bytes) (G := Unit)).installEpoch epoch selfPeerIndex
    (bundles bytes)).toOption).getD Worker.createWorkerState

end SFrameRatchet.Specimen
