import SFrameRatchet.ChatProvider
import SFrameRatchet.Specimen

/-! A chat runtime small enough to compute with, over the checksum runtime. A base
key is a number: the application returns how often it has been asked before. -/
namespace SFrameRatchet.ChatSpecimen
open BigEndian Collections Crypto Chat

def runtime : ChatRuntime Bytes ℕ where
  crypto := Specimen.crypto
  digest := Specimen.digest 32
  usages _ := ["deriveKey", "deriveBits"]
  deriveKey base salt info := .ok (Specimen.digest 16 (UInt8.ofNat base :: salt ++ info))
  deriveBits base salt info length := .ok (Specimen.digest (length / 8) (UInt8.ofNat base :: salt ++ info))
  getKey _ answered := .ok answered
  nextCtr _ _ allocated := .ok allocated

/-- A window of two counters in memory, and as many in the store. -/
def settings : ReplaySettings := { replayWindow := 2, durable := some ("app", 2), backed := by decide }

/-- A window of two counters in memory only. -/
def memorySettings : ReplaySettings := { replayWindow := 2, durable := none, backed := nofun }

/-- A provider on an empty store. -/
def provider (settings : ReplaySettings) : ChatProvider Bytes := .create settings {} ∅

def ann : SealContext := ⟨"room", "ann"⟩

end SFrameRatchet.ChatSpecimen
