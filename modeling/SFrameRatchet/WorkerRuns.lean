import SFrameRatchet.Interleaving
import SFrameRatchet.WorkerFrame

/-! The message handler of `worker-state.ts`, and runs of the worker: any number
of messages, timers, transforms and direct calls over one state, interleaved at
their suspensions. A frame that arrives is an object of its own. -/
namespace SFrameRatchet.Media
open Collections Crypto Kid CodecPartial Throwing Coroutine Interleaving

variable {K G : Type} (runtime : Runtime K G)

/-- The part of an init message that installs or drops the durable guard. -/
def initDurable (msg : InitMsg) : Task K G Unit :=
  if msg.durableReplay then do
    let namespace_ := msg.durableReplayNamespace.getD ""
    if namespace_ = "" then
      throw (.error "worker init: durableReplayNamespace is required when durableReplay is true")
    else
      let state ← read
      let durableWindow : ℚ := msg.durableReplayWindow.getD state.replayWindowSize
      if durableWindow > state.replayWindowSize then
        throw (.error (s!"worker init: durableReplayWindow ({durableWindow}) must be <= " ++
          s!"replayWindowSize ({state.replayWindowSize})"))
      else update fun state => { state with
        durableReplay := some (runtime.guard.create namespace_ durableWindow) }
  else update fun state => { state with durableReplay := none }

/-- The part of an init message that chooses the layout of key identifiers. -/
def initKidCodec (msg : InitMsg) : Task K G Unit :=
  match msg.kidFormat with
  | none => return ()
  | some format => do
    let codec ← settle (makeKidCodec format msg.mlsConfig)
    update fun state => { state with kidCodec := codec }

/-- The part of an init message that bounds the pre-epoch queue. -/
def initQueueCap (msg : InitMsg) : Task K G Unit :=
  match msg.preEpochQueueCap with
  | none => return ()
  | some cap =>
    if cap > 0 then update fun state => { state with preEpochQueueCap := ⌊cap⌋.toNat }
    else return ()

/-- `init`: the fields are set one after the other, up to the first that throws. -/
def handleInit (msg : InitMsg) : Task K G Unit := do
  update fun state => { state with
    role := some msg.role, peerId := some msg.peerId, selfPeerIndex := some msg.peerIndex
    suite := msg.suite.getD state.suite }
  initKidCodec msg
  initQueueCap msg
  initDurable runtime msg
  update fun state => state.emit .ready

/-- `epoch` and `rotate`: install, then drain the frames that waited for it. -/
def handleEpoch (epoch selfPeerIndex : ℤ) (keys : KeyBundles K) : Task K G Unit := do
  let state ← read
  let installed ← settle (state.installEpoch epoch selfPeerIndex keys)
  update fun _ => installed
  drainPreEpochQueue runtime

/-- A tolerance below minus one counts as unlimited. -/
def clampTolerance (tolerance : ℚ) : ℤ := if ⌊tolerance⌋ < -1 then -1 else ⌊tolerance⌋

def handleMessage : InMsg K → Task K G Unit
  | .init msg => handleInit runtime msg
  | .epoch epoch selfPeerIndex keys => handleEpoch runtime epoch selfPeerIndex keys
  | .rotate newEpoch selfPeerIndex keys => handleEpoch runtime newEpoch selfPeerIndex keys
  | .streams _ codec => update fun state => { state with codec := codec.or state.codec }
  | .setSifTrailer trailer => update fun state => { state with sifTrailer := trailer }
  | .setRatchetWindow size => update fun state => { state with ratchetWindowSize := ⌊size⌋.toNat }
  | .setMetricsEnabled enabled => update fun state => { state with metricsEnabled := enabled }
  | .setReplayWindow size => update fun state =>
    { state with replayWindowSize := ⌊size⌋.toNat, replayWindows := ∅ }
  | .setFailureTolerance tolerance => update fun state =>
    { state with failureTolerance := clampTolerance tolerance, failureCounts := ∅ }
  | .teardown => update Worker.teardown

/-- A wipe timer that has not been cancelled fires. -/
def fireWipeTimer (epoch : ℤ) : Task K G Unit := do
  let state ← read
  if state.wipeTimers.has epoch then update fun state => state.wipeEpoch runtime.guard epoch
  else return ()

/-- A worker that has got another frame object. -/
def receiveFrame (frame : EncodedFrame) (w : Worker K G) : Worker K G :=
  { w with
    frames := w.frames.alloc frame
    arrived := w.arrived ++ [⟨w.frames.next, frame, w.sifTrailer⟩] }

/-- A frame object arrives. -/
def receive (frame : EncodedFrame) : Task K G Ref := do
  let state ← read
  update (receiveFrame frame)
  return state.frames.next

/-- Everything that can be going on in a worker. -/
inductive Call (K : Type) where
  | message (msg : InMsg K)
  | wipeTimer (epoch : ℤ)
  | tick (elapsed : ℕ)
  | transform (side : Side) (frame : EncodedFrame)
  | encodeFrame (frame : EncodedFrame)
  | decodeFrame (frame : EncodedFrame)
  | tryDecryptWithRatchet (opening : Opening)
  | drainPreEpochQueue

/-- What a call resolved to. -/
inductive Outcome where
  | done
  | decoded (path : Path)
  | plaintext (bytes : Bytes)
  deriving DecidableEq

def Call.program : Call K → Task K G Outcome
  | .message msg => do
    handleMessage runtime msg
    return .done
  | .wipeTimer epoch => do
    fireWipeTimer runtime epoch
    return .done
  | .tick elapsed => do
    update fun state => { state with clock := state.clock + elapsed }
    return .done
  | .transform .encode frame => do
    let ref ← receive frame
    encodeTransform runtime ref frame.kind
    return .done
  | .transform .decode frame => do
    let ref ← receive frame
    decodeTransform runtime ref
    return .done
  | .encodeFrame frame => do
    let ref ← receive frame
    Media.encodeFrame runtime ref frame.kind
    return .done
  | .decodeFrame frame => do
    let ref ← receive frame
    let path ← Media.decodeFrame runtime ref
    return .decoded path
  | .tryDecryptWithRatchet opening => do
    let bytes ← Media.tryDecryptWithRatchet runtime (fun point => { point := .ratchet point }) opening
    return .plaintext bytes
  | .drainPreEpochQueue => do
    Media.drainPreEpochQueue runtime
    return .done

/-- The worker with some calls under way. -/
abbrev WorkerPool (ι : Type) (K G : Type) :=
  Pool ι AwaitPoint (Worker K G) (Except JsError Outcome)

/-- The calls of a run, none of which has begun. -/
def launch {ι : Type} (w : Worker K G) (calls : ι → Call K) : WorkerPool ι K G :=
  .launch { point := .start } w fun call => ((calls call).program runtime).run

end SFrameRatchet.Media
