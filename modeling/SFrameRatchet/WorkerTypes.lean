import Mathlib.Algebra.Order.Floor.Ring
import Mathlib.Data.Rat.Floor
import SFrameRatchet.CodecPartial
import SFrameRatchet.Collections
import SFrameRatchet.Replay

/-! The data of the encoded-frame worker (`worker-types.ts`): its messages, its
state, and the objects that calls hold on to after the state has dropped them.
A history rides along with the state; no function of the worker reads it. -/
namespace SFrameRatchet.Media
open Collections Crypto Kid SFrame CodecPartial Replay

inductive Role where
  | sender
  | receiver
  deriving DecidableEq, Repr

inductive Side where
  | encode
  | decode
  deriving DecidableEq, Repr

/-- `RTCEncodedVideoFrame.type`; audio frames have none. -/
inductive FrameType where
  | key
  | delta
  deriving DecidableEq, Repr

structure EncodedFrame where
  data : Bytes
  type : Option FrameType := none
  deriving DecidableEq, Inhabited

def EncodedFrame.kind (frame : EncodedFrame) : Option FrameKind :=
  match frame.type with
  | some .key => some .key
  | some .delta => some .inter
  | none => none

structure PerSenderKeyBundle (K : Type) where
  cryptoKey : K
  salt : Bytes
  rawKey : Bytes
  deriving DecidableEq

abbrev KeyBundles (K : Type) := OrderedMap ℤ (PerSenderKeyBundle K)

structure InitMsg where
  role : Role
  peerId : String
  peerIndex : ℤ
  suite : Option CipherSuite := none
  preEpochQueueCap : Option ℚ := none
  kidFormat : Option KidFormat := none
  mlsConfig : Option MlsKidConfig := none
  durableReplay : Bool := false
  durableReplayNamespace : Option String := none
  durableReplayWindow : Option ℚ := none

inductive InMsg (K : Type) where
  | init (msg : InitMsg)
  | epoch (epoch selfPeerIndex : ℤ) (keys : KeyBundles K)
  | rotate (newEpoch selfPeerIndex : ℤ) (keys : KeyBundles K)
  | streams (side : Side) (codec : Option Codec)
  | setSifTrailer (trailer : Option Bytes)
  | setRatchetWindow (size : ℚ)
  | setMetricsEnabled (enabled : Bool)
  | setReplayWindow (size : ℚ)
  | setFailureTolerance (tolerance : ℚ)
  | teardown

inductive QueueDrop where
  | preEpochFull
  | staleEpoch
  | replay
  deriving DecidableEq, Repr

inductive MetricsEvent where
  | encrypt (epoch peerIndex : ℤ) (bytes : ℕ) (codec : Option Codec)
  | decrypt (epoch peerIndex : ℤ) (bytes : ℕ)
  | decryptFail (code : String) (epoch peerIndex : Option ℤ)
  | ratchetRetry (epoch peerIndex : ℤ) (steps : ℕ) (succeeded : Bool)
  | queueDrop (reason : QueueDrop) (epoch : Option ℤ)
  | replayDrop (epoch peerIndex : ℤ) (ctr : ℕ)
  | keyInvalidated (epoch peerIndex : ℤ) (failures : ℕ)
  | epochAdvance (fromEpoch toEpoch : ℤ)
  | encodeDrop (code : String)
  deriving DecidableEq, Repr

inductive DecryptFailure where
  | staleEpoch
  | decryptFailed
  | queueOverflow
  | decryptFailedAfterEpoch
  | replay
  | keyInvalid
  deriving DecidableEq, Repr

inductive EncryptFailure where
  | encodeFailed
  | noEpoch
  deriving DecidableEq, Repr

inductive OutMsg where
  | ready
  | metrics (event : MetricsEvent)
  | decryptFailure (reason : DecryptFailure) (kid : Option ℤ) (epoch peerIndex : Option ℤ)
      (ctr : Option ℕ) (detail : Option String)
  | encryptFailure (reason : EncryptFailure) (detail : String)
  | epochApplied (epoch : ℤ)
  | decryptStarved (peerIndex : Option ℤ) (framesDropped : ℕ) (sinceMs : ℚ)
  deriving DecidableEq, Repr

structure EpochEntry (K : Type) where
  epoch : ℤ
  selfPeerIndex : ℤ
  keys : OrderedMap ℤ (RatchetKey K)
  ratchetSteps : OrderedMap ℤ ℕ

instance {K : Type} : Inhabited (EpochEntry K) := ⟨⟨0, 0, ∅, ∅⟩⟩

inductive PromiseState where
  | pending
  | fulfilled (plaintext : Bytes)
  | rejected (reason : JsError)
  deriving DecidableEq, Inhabited

def PromiseState.settled : PromiseState → Bool
  | pending => false
  | _ => true

/-- A replay window and its identity: a window that the table has dropped can
still be accepted into by the call that holds it, and nobody can see that. -/
structure WindowObject where
  id : ℕ
  window : SlidingReplayWindow
  deriving DecidableEq

def preEpochQueueCapDefault : ℕ := 50
def starveCoalesceMs : ℚ := 1000

/-- `WorkerState`. Failure counts and ratchet promises are keyed by the pair
that their source's `epoch:peerIndex` string spells. -/
structure WorkerState (K G : Type) where
  role : Option Role := none
  peerId : Option String := none
  selfPeerIndex : Option ℤ := none
  suite : CipherSuite := defaultCipherSuite
  kidCodec : KidCodec := .fixed
  epochs : OrderedMap ℤ Ref := ∅
  currentEpoch : ℤ := -1
  currentMinValidEpoch : ℤ := 0
  ctr : ℕ := 0
  wipeTimers : OrderedMap ℤ Unit := ∅
  preEpochQueue : List Ref := []
  draining : Bool := false
  pendingDrain : Bool := false
  codec : Option Codec := none
  sifTrailer : Option Bytes := none
  ratchetWindowSize : ℕ := 8
  replayWindowSize : ℕ := 64
  replayWindows : OrderedMap ℤ (OrderedMap ℤ WindowObject) := ∅
  metricsEnabled : Bool := false
  preEpochQueueCap : ℕ := preEpochQueueCapDefault
  starveActive : Bool := false
  starveSinceMs : ℚ := 0
  starveFramesDropped : ℕ := 0
  starveLastEmitMs : ℚ := 0
  starvePeerIndex : Option ℤ := none
  failureCounts : OrderedMap (ℤ × ℤ) ℕ := ∅
  failureTolerance : ℤ := -1
  ratchetPromises : OrderedMap (ℤ × ℤ) Ref := ∅
  formatCache : OrderedMap ℤ (OrderedMap ℤ FormatGuess) := ∅
  encryptStarveActive : Bool := false
  encryptStarveSinceMs : ℚ := 0
  encryptStarveFramesDropped : ℕ := 0
  encryptStarveLastEmitMs : ℚ := 0
  durableReplay : Option G := none

/-- The objects that the state and the calls refer to, the clock, and what has
been posted to the main thread. -/
structure Surroundings (K : Type) where
  entries : Heap (EpochEntry K) := default
  promises : Heap PromiseState := default
  frames : Heap EncodedFrame := default
  nextWindow : ℕ := 0
  clock : ℚ := 0
  emitted : List OutMsg := []

/-- One call of AES-GCM encryption, with the counter behind its IV. -/
structure Sealing (K : Type) where
  epoch : ℤ
  peerIndex : ℤ
  ctr : ℕ
  cryptoKey : K
  iv : Bytes

/-- The sender and counter that a replay check is about. -/
structure Slot where
  epoch : ℤ
  peerIndex : ℤ
  ctr : ℕ
  deriving DecidableEq, Repr

/-- A frame object as it came, and the trailer configured at that time. -/
structure Arrival where
  ref : Ref
  frame : EncodedFrame
  sifTrailer : Option Bytes

/-- What has happened so far. -/
structure History (K : Type) where
  /-- Every frame object that has arrived. -/
  arrived : List Arrival := []
  /-- Every encryption, oldest first. -/
  sealings : List (Sealing K) := []
  /-- Every header that `decodeFrame` has found in a frame, before the gates. -/
  resolved : List (Ref × Slot) := []
  /-- Every replay check that passed. -/
  checked : List Slot := []
  /-- Every counter recorded after a successful decryption, with its frame. -/
  accepted : List (Slot × Ref) := []
  /-- Every frame that was given its decrypted bytes. -/
  delivered : List (Slot × Ref) := []
  /-- Every frame passed to `controller.enqueue`, with its bytes then. -/
  enqueued : List (Side × Ref × Bytes) := []

/-- The worker as a run sees it. -/
structure Worker (K G : Type) extends WorkerState K G, Surroundings K, History K

/-- The durable replay guard as the worker uses it: a store with some state,
asked before a frame is opened and told afterwards. `clear` is started and not
awaited. -/
structure ReplayGuard (G : Type) where
  create : String → ℚ → G
  available : G → Bool
  check : G → String → ℕ → Bool × G
  accept : G → String → ℕ → G
  clear : G → String → G

/-- What the worker runs on. A run in which no loop passes `patience` rounds is
a run of the program; the theorems hold for every `patience`. -/
structure Runtime (K G : Type) where
  crypto : WebCrypto K
  guard : ReplayGuard G
  patience : ℕ

end SFrameRatchet.Media
