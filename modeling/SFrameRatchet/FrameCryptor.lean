import SFrameRatchet.Interleaving
import SFrameRatchet.KeyWrap
import SFrameRatchet.StrictFips
import SFrameRatchet.Throwing
import SFrameRatchet.WorkerTypes

/-! The main thread's half of a worker, `frame-cryptor.ts`. It posts to the worker and is
told of the worker's signals; keys are derived here and only the bundles are posted. -/
namespace SFrameRatchet.Cryptor
open Collections Throwing Coroutine Interleaving Crypto JsObject Kid KeyWrap Media Fips

variable {K : Type}

/-- What `supportsSFrame` finds in the browser. -/
structure SFrameSupport where
  native : Bool
  fallback : Bool

/-- A sender or receiver of a peer connection, as `installTransform` meets it. -/
structure Endpoint where
  id : ℕ
  /-- The constructor of `RTCRtpScriptTransform` takes the worker. -/
  constructs : Bool
  /-- The endpoint takes the transform. -/
  assigns : Bool
  /-- What `createEncodedStreams` does, where the endpoint has it. -/
  createEncodedStreams : Option (Except JsError Unit)

structure FrameCryptorOptions where
  role : Role
  peerId : JsString
  peerIndex : ℤ
  suite : Option CipherSuite := none
  preEpochQueueCap : Option ℚ := none
  kidFormat : Option KidFormat := none
  mlsConfig : Option MlsKidConfig := none
  allowTransitOnly : Bool := false

structure EpochParams where
  epoch : ℤ
  peerIndexMap : PlainObject ℤ
  chainKey : Bytes

/-- What reaches the worker: a message, or the event of a native transform. -/
inductive Posted (K : Type) where
  | message (msg : InMsg K)
  | rtctransform (side : Side)

/-- What the worker posts: that its script runs, a signal, or a handler's exception. -/
inductive FromWorker where
  | spawned
  | signal (msg : OutMsg)
  | error (detail : String)
  deriving DecidableEq

/-- A call of one of the application's callbacks. -/
inductive Notice where
  | onEpochApplied (epoch : ℤ)
  | onDecryptStarved (peerIndex : Option ℤ) (framesDropped : ℕ) (sinceMs : ℚ)
  | onWorkerError (detail : String)
  deriving DecidableEq

/-- The read-only fields. -/
structure Settings where
  role : Role
  peerId : JsString
  suite : CipherSuite
  preEpochQueueCap : Option ℚ
  kidFormat : Option KidFormat
  mlsConfig : Option MlsKidConfig
  kidCodec : KidCodec
  transitOnly : Bool

/-- The mutable fields, with the transforms that are in place at endpoints, what has been
posted and what the application has been told. -/
structure FrameCryptor (K : Type) where
  currentPeerIndex : Property ℤ
  /-- What `detach` undoes; nothing for streams. -/
  attached : List (Option ℕ) := []
  initialised : Bool := false
  appliedEpoch : ℤ := -1
  /-- The worker's messages are listened to. -/
  workerListener : Bool := true
  transforms : OrderedMap ℕ Side := ∅
  posted : List (Posted K) := []
  notices : List Notice := []

/-- `new FrameCryptor(opts)`, over a worker that events can be listened to. -/
def create (active : Active) (support : SFrameSupport) (opts : FrameCryptorOptions) :
    Except Refusal (Settings × FrameCryptor K) := do
  let suite := opts.suite.getD defaultCipherSuite
  assertSuiteAllowed active suite
  let kidCodec ← (makeKidCodec (opts.kidFormat.getD .fixed) opts.mlsConfig).mapError .thrown
  let transitOnly := !support.native && !support.fallback
  if transitOnly && !opts.allowTransitOnly then
    throw (.thrown (.error ("FrameCryptor: browser exposes neither RTCRtpScriptTransform nor " ++
      "createEncodedStreams — SFrame E2E encryption is unavailable. " ++
      "Set `allowTransitOnly: true` in FrameCryptorOptions to explicitly " ++
      "opt into transit-only mode (DTLS transport encryption only).")))
  return ({ role := opts.role, peerId := opts.peerId, suite, preEpochQueueCap := opts.preEpochQueueCap
            kidFormat := opts.kidFormat, mlsConfig := opts.mlsConfig, kidCodec, transitOnly },
    { currentPeerIndex := .own opts.peerIndex })

/-- Where a call waits. -/
inductive CryptorSite where
  | start
  /-- For the key table. -/
  | deriving
  deriving DecidableEq

abbrev CryptorTask (K α : Type) := Async CryptorSite (FrameCryptor K) JsError α

namespace FrameCryptor

def post (self : FrameCryptor K) (posted : Posted K) : FrameCryptor K := { self with posted := self.posted ++ [posted] }

def notice (self : FrameCryptor K) (told : Notice) : FrameCryptor K := { self with notices := self.notices ++ [told] }

/-- What a message from the worker brings about. Its other signals are for telemetry. -/
def handleWorkerMessage (self : FrameCryptor K) : FromWorker → FrameCryptor K
  | .signal (.epochApplied epoch) => { self with appliedEpoch := epoch }.notice (.onEpochApplied epoch)
  | .signal (.decryptStarved peerIndex framesDropped sinceMs) =>
    self.notice (.onDecryptStarved peerIndex framesDropped sinceMs)
  | .error detail => self.notice (.onWorkerError detail)
  | _ => self

/-- A message event, if anybody listens. -/
def hear (self : FrameCryptor K) (msg : FromWorker) : FrameCryptor K :=
  if self.workerListener then self.handleWorkerMessage msg else self

/-- Detach all transforms. -/
def detach (self : FrameCryptor K) : FrameCryptor K :=
  let self := { self with
    transforms := self.attached.foldl (fun table endpoint => match endpoint with
      | some id => table.delete id
      | none => table) self.transforms
    attached := [], workerListener := false }
  if self.initialised then { self.post (.message .teardown) with initialised := false } else self

end FrameCryptor

section Methods
variable (crypto : WebCrypto K) (settings : Settings)

/-- A property's value in a message; a function of the object's prototype is refused. -/
def structuredClone : Property ℤ → Except JsError ℤ
  | .own value => .ok value
  | _ => .error (.error "DataCloneError")

def initMsg (peerIndex : ℤ) : InitMsg :=
  { role := settings.role, peerId := String.ofList (fromUtf16 settings.peerId), peerIndex, suite := some settings.suite
    preEpochQueueCap := settings.preEpochQueueCap, kidFormat := settings.kidFormat, mlsConfig := settings.mlsConfig }

def ensureInit : CryptorTask K Unit := do
  let self ← read
  if self.initialised then return ()
  else do
    let peerIndex ← settle (structuredClone self.currentPeerIndex)
    update fun self => { self.post (.message (.init (initMsg settings peerIndex))) with initialised := true }

/-- The native path; tells whether the transform is in place. A transform that the
endpoint does not take has been constructed all the same. -/
def installNative (support : SFrameSupport) (endpoint : Endpoint) (side : Side) : CryptorTask K Bool :=
  if support.native && endpoint.constructs then do
    update fun self => self.post (.rtctransform side)
    if endpoint.assigns then do
      update fun self => { self with
        transforms := self.transforms.set endpoint.id side, attached := self.attached ++ [some endpoint.id] }
      return true
    else return false
  else return false

def installTransform (support : SFrameSupport) (endpoint : Endpoint) (side : Side) : CryptorTask K Unit := do
  let installed ← installNative support endpoint side
  if installed then return ()
  else if support.fallback then
    match endpoint.createEncodedStreams with
    | some created => do
      settle created
      update fun self => { self.post (.message (.streams side none)) with attached := self.attached ++ [none] }
    | none => return ()
  else return ()

/-- The two `attach` methods differ in the side. -/
def attach (side : Side) (support : SFrameSupport) (endpoint : Endpoint) : CryptorTask K Unit :=
  if settings.transitOnly then return ()
  else do
    ensureInit settings
    installTransform support endpoint side

def attachSender (support : SFrameSupport) (sender : Endpoint) : CryptorTask K Unit :=
  attach settings .encode support sender

def attachReceiver (support : SFrameSupport) (receiver : Endpoint) : CryptorTask K Unit :=
  attach settings .decode support receiver

/-- The bundles of a key table. -/
def bundlesOf (table : OrderedMap ℤ (RatchetKey K)) : KeyBundles K :=
  table.mapValues fun _ key => { cryptoKey := key.cryptoKey, salt := key.salt, rawKey := key.rawKey }

/-- What installs an epoch: on the sender's side it is rotated to as well. -/
def installing (role : Role) (epoch selfPeerIndex : ℤ) (keys : KeyBundles K) : List (Posted K) :=
  match role with
  | .sender => [.message (.epoch epoch selfPeerIndex keys), .message (.rotate epoch selfPeerIndex keys)]
  | .receiver => [.message (.epoch epoch selfPeerIndex keys)]

/-- Install a new epoch. The chain key is read before the call waits. -/
def setEpoch (params : EpochParams) : CryptorTask K Unit := do
  ensureInit settings
  let selfPeerIndex := params.peerIndexMap.get settings.peerId
  if selfPeerIndex = .undefined then throw (.error "FrameCryptor: peerIndexMap missing self")
  update fun self => { self with currentPeerIndex := selfPeerIndex }
  let table ← promised .deriving
    (deriveEpochKeyTable crypto params.chainKey params.epoch params.peerIndexMap settings.suite settings.kidCodec)
  let selfPeerIndex ← settle (structuredClone selfPeerIndex)
  update fun self => { self with
    posted := self.posted ++ installing settings.role params.epoch selfPeerIndex (bundlesOf table) }

end Methods

/-- What goes on at a cryptor: calls of the application, and messages of the worker. -/
inductive CryptorCall where
  | attachSender (support : SFrameSupport) (sender : Endpoint)
  | attachReceiver (support : SFrameSupport) (receiver : Endpoint)
  | setEpoch (params : EpochParams)
  | detach
  | workerMessage (msg : FromWorker)

def CryptorCall.program (crypto : WebCrypto K) (settings : Settings) : CryptorCall → CryptorTask K Unit
  | attachSender support sender => Cryptor.attachSender settings support sender
  | attachReceiver support receiver => Cryptor.attachReceiver settings support receiver
  | setEpoch params => Cryptor.setEpoch crypto settings params
  | detach => update FrameCryptor.detach
  | workerMessage msg => update fun self => self.hear msg

/-- A cryptor with some calls under way. -/
abbrev CryptorPool (ι K : Type) := Pool ι CryptorSite (FrameCryptor K) (Except JsError Unit)

/-- The calls of a run, none of which has begun. -/
def launch {ι : Type} (crypto : WebCrypto K) (settings : Settings) (self : FrameCryptor K) (calls : ι → CryptorCall) :
    CryptorPool ι K :=
  .launch .start self fun call => ((calls call).program crypto settings).run

end SFrameRatchet.Cryptor
