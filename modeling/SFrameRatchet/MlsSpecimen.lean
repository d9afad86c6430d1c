import SFrameRatchet.MlsChat
import SFrameRatchet.Specimen

/-! An MLS chat runtime small enough to compute with, over the checksum runtime. A
sender's uid is its peer id, and the allocator counts. -/
namespace SFrameRatchet.MlsSpecimen
open BigEndian Collections Throwing Crypto Chat MlsChat

def runtime : MlsRuntime Bytes where
  crypto := Specimen.crypto
  suite := .aes128GcmSha256
  uidToPeerId := id
  nextCtr _ _ number := .ok number

/-- An epoch of ann and bob, with a chain key of its own. -/
def params (epoch : ℕ) : MlsEpochParams where
  epoch := epoch
  peerIndexMap := (OrderedMap.set ∅ "ann" 0).set "bob" 1
  chainKey := List.replicate 32 (UInt8.ofNat epoch)

theorem no_guard_backed : ∀ guard ∈ (none : Option (String × ℕ)), guard.2 ≤ 2 := fun _ member => by cases member

/-- A window of two counters in memory only. -/
def settings : ReplaySettings := { replayWindow := 2, durable := none, backed := no_guard_backed }

/-- A provider on an empty store. -/
def provider : MlsProvider Bytes := .create settings {} ∅

def ann : SealContext := ⟨"room", "ann"⟩
def bob : SealContext := ⟨"room", "bob"⟩

/-- What ann has sealed first in the first epoch. -/
def mail : Bytes :=
  match alone (MlsChat.setEpoch runtime settings "room" (params 1)) provider with
  | some (_, s) => match alone (MlsChat.seal_ runtime [104, 105] ann) s with
    | some (.ok sealedBytes, _) => sealedBytes
    | _ => []
  | none => []

end SFrameRatchet.MlsSpecimen
