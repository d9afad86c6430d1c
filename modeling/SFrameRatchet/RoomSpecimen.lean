import SFrameRatchet.RoomRatchet
import SFrameRatchet.Specimen

/-! A client small enough to compute with: X25519 is replaced by addition and the
random source by a counter, over the checksum runtime. The two ends of an
exchange still agree, so the laws asked of a platform can be met. -/
namespace SFrameRatchet.RoomSpecimen
open BigEndian Crypto JsObject KeyWrap Room

def platform : Platform Bytes where
  crypto := Specimen.crypto
  publicKey privateKey := privateKey
  sharedSecret mine theirs := .ok (fixedBytes 32 (readBytes mine + readBytes theirs))
  secretKey drawn := fixedBytes 32 (drawn + 1)
  randomValues drawn length := fixedBytes length (drawn + 1)

theorem platform_correct : platform.Correct where
  aead := Specimen.crypto_correct
  expands := by
    intro material info length _
    simp [platform, Specimen.crypto, Specimen.digest]
  draws drawn length := by simp [platform]
  commutes mine theirs := ⟨_, rfl, by simp only [platform, Nat.add_comm]⟩

/-- A client named by one letter, whose private key repeats a byte. -/
def client (name : Char) (byte : UInt8) : RatchetOptions :=
  { identity := { peerId := utf16 [name], publicKey := List.replicate 32 byte
                  privateKey := List.replicate 32 byte }
    suite := defaultCipherSuite, kidCodec := .fixed }

/-- What the others know of a client. -/
def peer (options : RatchetOptions) : PeerIdentity := ⟨options.identity.peerId, options.identity.publicKey⟩

end SFrameRatchet.RoomSpecimen
