import SFrameRatchet.Throwing
import SFrameRatchet.WorkerState

/-! The frame pipeline of `worker-frame.ts`: encoding, format resolution,
decryption with the ratchet window, decoding, and the pre-epoch queue. Between
two suspensions a call is alone with the state; every suspension is one `await`
of the source, or several with nothing shared between them. What a call awaits
is computed before it suspends, as WebCrypto copies its inputs when called. -/
namespace SFrameRatchet.Media
open Collections Crypto Kid Header SFrame CodecPartial Replay ConstantTime Throwing Coroutine

/-- Where `tryDecryptWithRatchet` waits; `key` is the dedup key. -/
inductive RatchetPoint where
  | stepZero
  /-- For the promise that was in flight. -/
  | inFlight (key : ℤ × ℤ) (promise : Ref)
  /-- For the second attempt at step zero, after that promise. -/
  | retry (key : ℤ × ℤ) (promise : Ref) (opens : Bool)
  /-- For a promise another caller has set in the meantime. -/
  | afterAwait (promise : Ref)
  | derive (step : ℕ)
  | opening (step : ℕ)
  | settled (promise : Ref)
  | returned
  | exhausted
  deriving DecidableEq

inductive Point where
  | start
  | probe
  | probed
  | durableCheck
  | ratchet (point : RatchetPoint)
  | durableAccept
  | seal
  /-- For `decodeFrame`, which has left these bytes in the frame. -/
  | decoded (data : Bytes)
  | encoded (data : Bytes)
  | rerun
  deriving DecidableEq

/-- What a suspended call shows: where it waits, the frame it works on, the
bytes it has left to decode, and the counter it has checked against the replay
window but not accepted yet, with the window it will accept into. -/
structure AwaitPoint where
  point : Point
  frame : Option Ref := none
  payload : Option Bytes := none
  slot : Option (Slot × ℕ) := none
  deriving DecidableEq

/-- How `decodeFrame` returned. -/
inductive Path where
  | passedThrough
  | parked
  | opened (guess : FormatGuess) (plaintext : Bytes)
  deriving DecidableEq

/-- A call on the worker. -/
abbrev Task (K G : Type) (α : Type) := Async AwaitPoint (Worker K G) JsError α

variable {K G : Type} (runtime : Runtime K G)

/-! ## Encoding -/

/-- The frame on the wire: clear prefix, header, ciphertext with tag, and the
trailer outside the AEAD. -/
def wireFrame (plaintext header : Bytes) (n : ℕ) (key : SFrameKey K) (ctr : ℕ)
    (trailer : Option Bytes) : Except JsError Bytes := do
  let body := plaintext.drop n
  let trailerBytes := trailer.getD []
  let wire := List.replicate
    (n + header.length + body.length + aeadTagBytes + trailerBytes.length) (0 : UInt8)
  let wire ← if n > 0 then setBytes wire (plaintext.take n) 0 else .ok wire
  let (wire, written) ← sframeEncryptInto runtime.crypto wire n header body key ctr none .header
  if trailer.isSome then setBytes wire trailerBytes (n + written) else .ok wire

/-- Note the encryption that `sframeEncryptInto` starts, when it gets that far. -/
def noteSealing (w : Worker K G) (key : SFrameKey K) (ctr : ℕ) : Worker K G :=
  match deriveIv key.salt ctr with
  | .error _ => w
  | .ok iv => { w with
      sealings := w.sealings ++ [⟨key.epoch, key.peerIndex, ctr, key.cryptoKey, iv⟩] }

def encodeFrame (frame : Ref) (frameKind : Option FrameKind) : Task K G Unit := do
  let state ← read
  match state.epochs.get? state.currentEpoch with
  | none => throw (.error "worker: no active send epoch")
  | some ref =>
    let entry := state.entries.read ref
    match entry.keys.get? entry.selfPeerIndex with
    | none => throw (.error "worker: no self key in current epoch")
    | some key => do
      let ctr := state.ctr
      update fun state => { state with ctr := ctr + 1 }
      let plaintext := (state.frames.read frame).data
      let n := min (getUnencryptedBytes state.codec frameKind) plaintext.length
      let header ← settle (serializeHeader key.kid ctr)
      update fun state => noteSealing state key.toSFrameKey ctr
      pause { point := .seal, frame := some frame }
      let wire ← settle (wireFrame runtime plaintext header n key.toSFrameKey ctr state.sifTrailer)
      update fun state => { state with
        frames := state.frames.write frame { state.frames.read frame with data := wire } }
      update fun state =>
        state.emitMetric (.encrypt key.epoch key.peerIndex plaintext.length state.codec)
      update Worker.clearEncryptStarve

/-! ## Format resolution -/

/-- A format that opened a frame at step zero, with what the header said. -/
structure Probed where
  guess : FormatGuess
  plaintext : Bytes
  kid : ℕ
  epoch : ℤ
  peerIndex : ℤ
  ctr : ℕ

/-- The clear prefix as additional data: absent when it is empty. -/
def aadPrefixOf (payload : Bytes) (prefixLen : ℕ) : Option Bytes :=
  if prefixLen > 0 then some (payload.take prefixLen) else none

/-- One candidate of the probe: the header fields, and what opening yields.
There is nothing to await when the header does not parse, the tag does not fit
or the key is unknown. -/
def probeAttempt (w : Worker K G) (payload : Bytes) (guess : FormatGuess) :
    Option (SFrameHeader × ℤ × ℤ × Except JsError Bytes) :=
  let buf := payload.drop guess.prefixLen
  match parseHeader buf with
  | .error _ => none
  | .ok hdr =>
    if buf.length < hdr.bodyOffset + 16 then none
    else
      let (epoch, peerIndex) := w.kidCodec.decode hdr.kid
      match w.cachedKey epoch peerIndex with
      | none => none
      | some key => some (hdr, epoch, peerIndex,
          sframeDecrypt runtime.crypto buf (fun _ _ _ _ => some key.toSFrameKey) w.kidCodec
            (aadPrefixOf payload guess.prefixLen) guess.aadForm)

/-- Try the candidates in order; the first that opens is the sender's format. -/
def probeFormat (frame : Ref) (payload : Bytes) : List FormatGuess → Task K G (Option Probed)
  | [] => pure none
  | guess :: rest => do
    let state ← read
    match probeAttempt runtime state payload guess with
    | none => probeFormat frame payload rest
    | some (hdr, epoch, peerIndex, opened) => do
      pause { point := .probe, frame := some frame, payload := some payload }
      match opened with
      | .ok plaintext =>
        return some { guess, plaintext, kid := hdr.kid, epoch, peerIndex, ctr := hdr.ctr }
      | .error _ => probeFormat frame payload rest

/-- The cached format of the sender that the header at `codecN` names. -/
def cachedFormat (w : Worker K G) (payload : Bytes) (codecN : ℕ) : Option FormatGuess :=
  if codecN < payload.length then
    match parseHeader (payload.drop codecN) with
    | .error _ => none
    | .ok tHdr =>
      let (tEpoch, tPeer) := w.kidCodec.decode tHdr.kid
      w.getFormatCache tEpoch tPeer
  else none

/-- The format of a payload: cached, probed, or the default for the ratchet. -/
def resolveFormat (frame : Ref) (payload : Bytes) (codec : Option Codec)
    (frameKind : Option FrameKind) : Task K G (FormatGuess × Option Probed) := do
  let state ← read
  let codecN := min (getUnencryptedBytes codec frameKind) payload.length
  match cachedFormat state payload codecN with
  | some cached => return (cached, none)
  | none => do
    let probed ← probeFormat runtime frame payload (formatCandidates codec frameKind)
    pause { point := .probed, frame := some frame, payload := some payload }
    match probed with
    | some found => return (found.guess, some found)
    | none => return (⟨codecN, .header⟩, none)

/-! ## Decryption with the ratchet window -/

/-- The key a frame's header names, in the tables as they are now. -/
def resolveCached (w : Worker K G) : ℕ → ℤ → ℤ → ℕ → Option (SFrameKey K) :=
  fun _ epoch peerIndex _ => (w.cachedKey epoch peerIndex).map (·.toSFrameKey)

/-- Inside the retry loop the derived key stands in for the cached one. -/
def resolveNext (w : Worker K G) (next : RatchetKey K) (epoch peerIndex : ℤ) :
    ℕ → ℤ → ℤ → ℕ → Option (SFrameKey K) := fun _ e pi _ =>
  if e = epoch ∧ pi = peerIndex then some next.toSFrameKey
  else (w.cachedKey e pi).map (·.toSFrameKey)

/-- Success at a step: advance the key cached in the entry. -/
def advanceKey (w : Worker K G) (ref : Ref) (peerIndex : ℤ) (next : RatchetKey K) (step : ℕ) :
    Worker K G :=
  let entry := w.entries.read ref
  let steps := (entry.ratchetSteps.get? peerIndex).getD 0 + step
  let advanced := { entry with
    keys := entry.keys.set peerIndex next
    ratchetSteps := entry.ratchetSteps.set peerIndex steps }
  { w with entries := w.entries.write ref advanced }

/-- What one call of `tryDecryptWithRatchet` works on. -/
structure Opening where
  buf : Bytes
  epoch : ℤ
  peerIndex : ℤ
  aadPrefix : Option Bytes := none
  aadForm : AadForm := .header

/-- The steps of the retry loop from `step` on, chaining from `currentRaw`. -/
def retrySteps (site : RatchetPoint → AwaitPoint) (o : Opening) (entry : Ref) (salt : Bytes) :
    ℕ → ℕ → Bytes → Task K G Bytes
  | 0, _, _ => do
    pauseUntil (site .exhausted) fun _ => false
    throw .operationError
  | patience + 1, step, currentRaw => do
    let state ← read
    if step ≤ state.ratchetWindowSize then do
      let derived := deriveNextSenderKey runtime.crypto currentRaw salt o.epoch o.peerIndex
        state.suite state.kidCodec
      pause (site (.derive step))
      let next ← settle derived
      let state ← read
      let opened := sframeDecrypt runtime.crypto o.buf (resolveNext state next o.epoch o.peerIndex)
        state.kidCodec o.aadPrefix o.aadForm
      pause (site (.opening step))
      match opened with
      | .ok plaintext => do
        update fun state => advanceKey state entry o.peerIndex next step
        update fun state => state.emitMetric (.ratchetRetry o.epoch o.peerIndex step true)
        return plaintext
      | .error _ => retrySteps site o entry salt patience (step + 1) next.rawKey
    else do
      update fun state =>
        state.emitMetric (.ratchetRetry o.epoch o.peerIndex state.ratchetWindowSize false)
      throw (.ratchetWindowExhausted (s!"sframe: ratchet window exhausted " ++
        s!"({state.ratchetWindowSize} steps) for epoch={o.epoch} peer={o.peerIndex}")
        o.epoch o.peerIndex state.ratchetWindowSize)

def keyNotFoundFor (epoch peerIndex : ℤ) : JsError :=
  .keyNotFound s!"sframe: key not found for epoch={epoch} peer={peerIndex}" none epoch peerIndex

/-- The retry loop of one caller; it starts from the key cached in the entry. -/
def retryLoop (site : RatchetPoint → AwaitPoint) (o : Opening) (entry : Ref) : Task K G Bytes := do
  let state ← read
  match (state.entries.read entry).keys.get? o.peerIndex with
  | none => throw (keyNotFoundFor o.epoch o.peerIndex)
  | some currentKey =>
    retrySteps runtime site o entry currentKey.salt runtime.patience 1 currentKey.rawKey

/-- Run the retry loop under a dedup promise; the promise leaves the map after
it has settled. -/
def runRetryLoop (site : RatchetPoint → AwaitPoint) (o : Opening) (entry : Ref) :
    Task K G Bytes := do
  let state ← read
  let promise := state.promises.next
  let dedupKey := (o.epoch, o.peerIndex)
  update fun state => { state with
    promises := state.promises.alloc .pending
    ratchetPromises := state.ratchetPromises.set dedupKey promise }
  let outcome ← attempt (retryLoop runtime site o entry)
  update fun state => { state with
    promises := state.promises.write promise (match outcome with
      | .ok plaintext => .fulfilled plaintext
      | .error reason => .rejected reason) }
  pause (site (.settled promise))
  update fun state => { state with ratchetPromises := state.ratchetPromises.delete dedupKey }
  settle outcome

/-- What a settled promise holds. -/
def awaitPromise (at_ : AwaitPoint) (promise : Ref) : Task K G Bytes := do
  pauseUntil at_ fun state => (state.promises.read promise).settled
  let state ← read
  match state.promises.read promise with
  | .fulfilled plaintext => return plaintext
  | .rejected reason => throw reason
  | .pending => throw .operationError

/-- An attempt with the key cached now; `at_` learns whether it opens. -/
def openCached (at_ : Bool → AwaitPoint) (o : Opening) : Task K G Bytes := do
  let state ← read
  let opened := sframeDecrypt runtime.crypto o.buf (resolveCached state) state.kidCodec
    o.aadPrefix o.aadForm
  pause (at_ opened.toOption.isSome)
  settle opened

/-- Await the promise in flight, then try the advanced key. `none` when that
does not open the frame, or when the promise was rejected. -/
def awaitInFlight (site : RatchetPoint → AwaitPoint) (o : Opening) (promise : Ref) :
    Task K G (Option Bytes) := do
  let dedupKey := (o.epoch, o.peerIndex)
  match ← attempt (awaitPromise (site (.inFlight dedupKey promise)) promise) with
  | .error _ => return none
  | .ok _ => do
    match ← attempt (openCached runtime (fun opens => site (.retry dedupKey promise opens)) o) with
    | .ok plaintext => return some plaintext
    | .error _ => return none

/-- Look at the map once more. A promise that another caller has set meanwhile
is awaited, and what it resolves to is returned as it is. -/
def recheckThenLoop (site : RatchetPoint → AwaitPoint) (o : Opening) (entry : Ref)
    (inFlight : Option Ref) : Task K G Bytes := do
  let state ← read
  let afterAwait := state.ratchetPromises.get? (o.epoch, o.peerIndex)
  match afterAwait with
  | none => runRetryLoop runtime site o entry
  | some promise =>
    if some promise = inFlight then runRetryLoop runtime site o entry
    else do
      match ← attempt (awaitPromise (site (.afterAwait promise)) promise) with
      | .ok plaintext => return plaintext
      | .error _ => runRetryLoop runtime site o entry

def tryDecryptWithRatchet (site : RatchetPoint → AwaitPoint) (o : Opening) : Task K G Bytes := do
  let state ← read
  match state.epochs.get? o.epoch with
  | none => throw (.keyNotFound s!"sframe: no epoch entry for epoch={o.epoch}" none o.epoch o.peerIndex)
  | some entry =>
    match (state.entries.read entry).keys.get? o.peerIndex with
    | none => throw (keyNotFoundFor o.epoch o.peerIndex)
    | some _ => do
      match ← attempt (openCached runtime (fun _ => site .stepZero) o) with
      | .ok plaintext => return plaintext
      | .error firstError => do
        let state ← read
        if state.ratchetWindowSize = 0 then throw firstError
        else
          let inFlight := state.ratchetPromises.get? (o.epoch, o.peerIndex)
          match inFlight with
          | none => recheckThenLoop runtime site o entry none
          | some promise => do
            match ← awaitInFlight runtime site o promise with
            | some plaintext => return plaintext
            | none => recheckThenLoop runtime site o entry inFlight

/-! ## Decoding -/

/-- The header fields as far as the failure handler knows them. -/
structure HeaderVars where
  kid : ℤ := -1
  epoch : ℤ := -1
  peerIndex : ℤ := -1
  ctr : ℕ := 0

def Probed.vars (probed : Probed) : HeaderVars :=
  { kid := probed.kid, epoch := probed.epoch, peerIndex := probed.peerIndex, ctr := probed.ctr }

def nonnegative (value : ℤ) : Option ℤ := if value ≥ 0 then some value else none

def HeaderVars.hint (vars : HeaderVars) : Option ℤ × Option ℤ :=
  (nonnegative vars.epoch, nonnegative vars.peerIndex)

/-- The failure handler of `decodeFrame`: count an AEAD failure against the key
that the header named, and report what no gate has reported yet. -/
def failDecode (w : Worker K G) (vars : HeaderVars) (err : JsError) : Worker K G :=
  let counted :=
    if vars.epoch ≥ 0 ∧ vars.peerIndex ≥ 0 ∧ err.isAeadFailure then
      w.recordFailure vars.epoch vars.peerIndex
    else w
  let metric := MetricsEvent.decryptFail err.code vars.hint.1 vars.hint.2
  match err with
  | .staleEpoch .. | .replay .. | .keyInvalid .. => counted.emitMetric metric
  | _ => (counted.emitMetric metric).emit (.decryptFailure .decryptFailed (nonnegative vars.kid)
      vars.hint.1 vars.hint.2 (some vars.ctr) (some err.message))

/-- Strip the trailer; nothing is left to decode of a frame without it. -/
def sifPayload (sifTrailer : Option Bytes) (raw : Bytes) : Option Bytes :=
  match sifTrailer with
  | none => some raw
  | some trailer =>
    if ctEndsWith raw trailer then some (raw.take (raw.length - trailer.length)) else none

/-- The gate failure that both decode paths report before they drop a frame. -/
def reportDrop (w : Worker K G) (reason : DecryptFailure) (hdr : SFrameHeader) (epoch peerIndex : ℤ) :
    Worker K G :=
  w.emit (.decryptFailure reason (some hdr.kid) (some epoch) (some peerIndex) (some hdr.ctr) none)

def reportReplay (w : Worker K G) (hdr : SFrameHeader) (epoch peerIndex : ℤ) : Worker K G :=
  ((reportDrop w .replay hdr epoch peerIndex).emitMetric (.queueDrop .replay (some epoch))).emitMetric
    (.replayDrop epoch peerIndex hdr.ctr)

def reportKeyInvalid (w : Worker K G) (hdr : SFrameHeader) (epoch peerIndex : ℤ) : Worker K G :=
  (reportDrop w .keyInvalid hdr epoch peerIndex).emitMetric
    (.decryptFail "KEY_INVALID" (some epoch) (some peerIndex))

/-- The durable guard, when there is one and it is usable. -/
def durableGuard (w : Worker K G) : Option G :=
  w.durableReplay.filter runtime.guard.available

/-- Ask the durable guard about a counter; without a guard every counter is new. -/
def durableCheck (at_ : AwaitPoint) (slot : Slot) : Task K G Bool := do
  let state ← read
  match durableGuard runtime state with
  | none => return true
  | some durable => do
    let (answer, durable) := runtime.guard.check durable
      (Worker.durableReplayKey slot.epoch slot.peerIndex) slot.ctr
    update fun state => { state with durableReplay := some durable }
    pause at_
    return answer

def durableAccept (at_ : AwaitPoint) (slot : Slot) : Task K G Unit := do
  let state ← read
  match durableGuard runtime state with
  | none => return ()
  | some durable => do
    update fun state => { state with durableReplay := some (runtime.guard.accept durable
      (Worker.durableReplayKey slot.epoch slot.peerIndex) slot.ctr) }
    pause at_

/-- The replay check of a frame: the window it will be accepted into, when its
counter is new there. A check that passes is noted. -/
def checkReplay (slot : Slot) : Task K G (Option ℕ) := do
  let state ← read
  let (object, state') := state.getReplayWindow slot.epoch slot.peerIndex
  update fun _ => state'
  if object.window.check slot.ctr then do
    update fun state => { state with checked := state.checked ++ [slot] }
    return some object.id
  else return none

/-- The plaintext of a frame that passed the gates, with its format cached. -/
def openResolved (frame : Ref) (held : Slot × ℕ) (payload : Bytes) (guess : FormatGuess)
    (probed : Option Probed) : Task K G Bytes := do
  let slot := held.1
  match probed with
  | some found => do
    update fun state => state.setFormatCache slot.epoch slot.peerIndex guess
    return found.plaintext
  | none => do
    let site (point : RatchetPoint) : AwaitPoint :=
      { point := .ratchet point, frame := some frame, payload := some payload, slot := some held }
    let outcome ← attempt (tryDecryptWithRatchet runtime site
      { buf := payload.drop guess.prefixLen, epoch := slot.epoch, peerIndex := slot.peerIndex
        aadPrefix := aadPrefixOf payload guess.prefixLen, aadForm := guess.aadForm })
    pause (site .returned)
    let opened ← settle outcome
    update fun state => state.setFormatCache slot.epoch slot.peerIndex guess
    return opened

/-- Accept the counter, then give the frame its bytes: the clear prefix and the
decrypted rest. -/
def acceptFrame (frame : Ref) (held : Slot × ℕ) (payload : Bytes) (guess : FormatGuess)
    (opened : Bytes) : Task K G Unit := do
  let slot := held.1
  update fun state => state.acceptReplay slot held.2 frame
  durableAccept runtime { point := .durableAccept, frame := some frame, payload := some payload } slot
  update fun state => state.recordSuccess slot.epoch slot.peerIndex
  update fun state => { state with
    frames := state.frames.write frame
      { state.frames.read frame with data := payload.take guess.prefixLen ++ opened }
    delivered := state.delivered ++ [(slot, frame)] }
  update Worker.clearStarve

/-- The gates of `decodeFrame` and what follows them. -/
def decodePayload (frame : Ref) (payload : Bytes) (guess : FormatGuess) (probed : Option Probed)
    (hdr : SFrameHeader) : Task K G Path := do
  let state ← read
  let (epoch, peerIndex) := state.kidCodec.decode hdr.kid
  let slot : Slot := ⟨epoch, peerIndex, hdr.ctr⟩
  if epoch < state.currentMinValidEpoch then do
    update fun state => (reportDrop state .staleEpoch hdr epoch peerIndex).emitMetric
      (.queueDrop .staleEpoch (some epoch))
    throw (.staleEpoch (s!"sframe: stale epoch {epoch} " ++
      s!"(min valid: {state.currentMinValidEpoch})") epoch state.currentMinValidEpoch hdr.kid)
  else if state.currentEpoch = -1 then do
    -- still waiting for the first epoch: not an error for the caller
    update fun state => state.enqueuePreEpoch frame peerIndex
    return .parked
  else do
    match ← checkReplay slot with
    | none => do
      update fun state => reportReplay state hdr epoch peerIndex
      throw (.replay s!"sframe: replay detected (epoch={epoch} peer={peerIndex} ctr={hdr.ctr})"
        epoch peerIndex hdr.ctr)
    | some object => do
      let held := (slot, object)
      if !(← durableCheck runtime
          { point := .durableCheck, frame := some frame, payload := some payload, slot := some held }
          slot) then do
        update fun state => reportReplay state hdr epoch peerIndex
        throw (.replay (s!"sframe: durable cross-reload replay detected " ++
          s!"(epoch={epoch} peer={peerIndex} ctr={hdr.ctr})") epoch peerIndex hdr.ctr)
      else do
        let state ← read
        if state.isKeyInvalid epoch peerIndex then do
          update fun state => reportKeyInvalid state hdr epoch peerIndex
          throw (.keyInvalid (s!"sframe: key invalid for epoch={epoch} peer={peerIndex} " ++
            "(failures exceeded tolerance)") epoch peerIndex
            ((state.failureCounts.get? (epoch, peerIndex)).getD 0))
        else do
          let opened ← openResolved runtime frame held payload guess probed
          acceptFrame runtime frame held payload guess opened
          update fun state => state.emitMetric
            (.decrypt epoch peerIndex (guess.prefixLen + opened.length))
          return .opened guess opened

def decodeFrame (frame : Ref) : Task K G Path := do
  let state ← read
  let raw := state.frames.read frame
  match sifPayload state.sifTrailer raw.data with
  | none => return .passedThrough
  | some payload => do
    let (guess, probed) ← resolveFormat runtime frame payload state.codec raw.kind
    let state ← read
    match parseHeader (payload.drop guess.prefixLen) with
    | .error err => do
      update fun state => failDecode state ((probed.map Probed.vars).getD {}) err
      throw err
    | .ok hdr =>
      let (epoch, peerIndex) := state.kidCodec.decode hdr.kid
      let vars := (probed.map Probed.vars).getD
        { kid := hdr.kid, epoch, peerIndex, ctr := hdr.ctr }
      update fun state =>
        { state with resolved := state.resolved ++ [(frame, ⟨epoch, peerIndex, hdr.ctr⟩)] }
      tryCatch (decodePayload runtime frame payload guess probed hdr) fun err => do
        update fun state => failDecode state vars err
        throw err

/-! ## The pre-epoch queue -/

/-- The failure handler of the drain: the key to count against is the one that
the error's own context names. -/
def failDrain (w : Worker K G) (err : JsError) : Worker K G :=
  let counted := match err with
    | .aeadAuth _ _ (some epoch) (some peerIndex) _ => w.recordFailure epoch peerIndex
    | .ratchetWindowExhausted _ epoch peerIndex _ => w.recordFailure epoch peerIndex
    | _ => w
  counted.emit (.decryptFailure .decryptFailedAfterEpoch none none none none (some err.message))

/-- The gates of the drain and what follows them. -/
def drainPayload (frame : Ref) (raw : Bytes) (guess : FormatGuess) (probed : Option Probed)
    (hdr : SFrameHeader) : Task K G Unit := do
  let state ← read
  let (epoch, peerIndex) := state.kidCodec.decode hdr.kid
  let slot : Slot := ⟨epoch, peerIndex, hdr.ctr⟩
  if epoch < state.currentMinValidEpoch then return ()
  else
    match state.cachedKey epoch peerIndex with
    | none => update fun state => state.pushToQueue frame (some peerIndex)
    | some _ => do
      match ← checkReplay slot with
      | none => update fun state => reportReplay state hdr epoch peerIndex
      | some object => do
        let held := (slot, object)
        if !(← durableCheck runtime
            { point := .durableCheck, frame := some frame, payload := some raw, slot := some held }
            slot) then
          update fun state => reportReplay state hdr epoch peerIndex
        else do
          let state ← read
          if state.isKeyInvalid epoch peerIndex then
            update fun state => reportKeyInvalid state hdr epoch peerIndex
          else do
            let opened ← openResolved runtime frame held raw guess probed
            acceptFrame runtime frame held raw guess opened

/-- One queued frame. Its bytes are taken as they are, trailer included. -/
def drainFrame (frame : Ref) : Task K G Unit := do
  let state ← read
  let raw := state.frames.read frame
  tryCatch (do
    let (guess, probed) ← resolveFormat runtime frame raw.data state.codec raw.kind
    let hdr ← settle (parseHeader (raw.data.drop guess.prefixLen))
    drainPayload runtime frame raw.data guess probed hdr) fun err =>
      update fun state => failDrain state err

def drainFrames : List Ref → Task K G Unit
  | [] => return ()
  | frame :: rest => do
    drainFrame runtime frame
    drainFrames rest

/-- Passes over the queue. A drain that finds another one running leaves a note,
and the running one goes over the queue once more when it is done. Nobody
awaits that second pass, so it goes on in the same call. -/
def drainPasses : ℕ → Task K G Unit
  | 0 => pauseUntil { point := .rerun } fun _ => false
  | patience + 1 => do
    let state ← read
    if state.draining then update fun state => { state with pendingDrain := true }
    else do
      update fun state => { state with draining := true, preEpochQueue := [] }
      drainFrames runtime state.preEpochQueue
      update fun state => { state with draining := false }
      let state ← read
      if state.pendingDrain then do
        update fun state => { state with pendingDrain := false }
        drainPasses patience
      else return ()

def drainPreEpochQueue : Task K G Unit := drainPasses runtime runtime.patience

/-! ## The pipe -/

/-- What the encode side does with a frame that it drops. -/
def dropEncoded (w : Worker K G) (err : JsError) : Worker K G :=
  let reason : EncryptFailure :=
    if err.message = "worker: no active send epoch" then .noEpoch else .encodeFailed
  let metricCode := if reason = .noEpoch then "NO_EPOCH" else err.code
  (w.emitMetric (.encodeDrop metricCode)).noteEncryptDrop reason err.message

/-- `controller.enqueue`. -/
def enqueueFrame (side : Side) (frame : Ref) (w : Worker K G) : Worker K G :=
  { w with enqueued := w.enqueued ++ [(side, frame, (w.frames.read frame).data)] }

/-- The transformer of an encode pipe; a frame that fails is dropped. -/
def encodeTransform (frame : Ref) (frameKind : Option FrameKind) : Task K G Unit :=
  tryCatch (do
    encodeFrame runtime frame frameKind
    let state ← read
    pause { point := .encoded (state.frames.read frame).data, frame := some frame }
    update (enqueueFrame .encode frame)) fun err => update fun state => dropEncoded state err

/-- The transformer of a decode pipe: whatever `decodeFrame` returned from is
passed on. -/
def decodeTransform (frame : Ref) : Task K G Unit :=
  tryCatch (do
    let _ ← decodeFrame runtime frame
    let state ← read
    pause { point := .decoded (state.frames.read frame).data, frame := some frame }
    update (enqueueFrame .decode frame)) fun _ => return ()

/-! ## Reports are bookkeeping -/

section Books
variable (w : Worker K G)

@[simp] theorem unsignalled_reportReplay (hdr : SFrameHeader) (epoch peerIndex : ℤ) :
    (reportReplay w hdr epoch peerIndex).unsignalled = w.unsignalled := by
  simp [reportReplay, reportDrop]

@[simp] theorem unsignalled_reportKeyInvalid (hdr : SFrameHeader) (epoch peerIndex : ℤ) :
    (reportKeyInvalid w hdr epoch peerIndex).unsignalled = w.unsignalled := by
  simp [reportKeyInvalid, reportDrop]

@[simp] theorem unalarmed_dropEncoded (err : JsError) : (dropEncoded w err).unalarmed = w.unalarmed :=
  (Worker.unalarmed_noteEncryptDrop _ _ _).trans (Worker.unalarmed_of_unsignalled (w.unsignalled_emitMetric _))

@[simp] theorem unbooked_failDecode (vars : HeaderVars) (err : JsError) :
    (failDecode w vars err).unbooked = w.unbooked := by
  have posted (v : Worker K G) (msg : OutMsg) : (v.emit msg).unbooked = v.unbooked := rfl
  unfold failDecode
  dsimp only
  split <;> split <;> simp [posted]

@[simp] theorem unbooked_failDrain (err : JsError) : (failDrain w err).unbooked = w.unbooked := by
  have posted (v : Worker K G) (msg : OutMsg) : (v.emit msg).unbooked = v.unbooked := rfl
  unfold failDrain
  dsimp only
  split <;> simp [posted]

@[simp] theorem core_reportDrop (reason : DecryptFailure) (hdr : SFrameHeader) (epoch peerIndex : ℤ) :
    (reportDrop w reason hdr epoch peerIndex).core = w.core := rfl

@[simp] theorem core_reportReplay (hdr : SFrameHeader) (epoch peerIndex : ℤ) :
    (reportReplay w hdr epoch peerIndex).core = w.core :=
  Worker.core_of_unbooked (Worker.unbooked_of_unsignalled (unsignalled_reportReplay w hdr epoch peerIndex))

@[simp] theorem core_reportKeyInvalid (hdr : SFrameHeader) (epoch peerIndex : ℤ) :
    (reportKeyInvalid w hdr epoch peerIndex).core = w.core :=
  Worker.core_of_unbooked (Worker.unbooked_of_unsignalled (unsignalled_reportKeyInvalid w hdr epoch peerIndex))

@[simp] theorem core_failDecode (vars : HeaderVars) (err : JsError) : (failDecode w vars err).core = w.core :=
  Worker.core_of_unbooked (unbooked_failDecode w vars err)

@[simp] theorem core_failDrain (err : JsError) : (failDrain w err).core = w.core :=
  Worker.core_of_unbooked (unbooked_failDrain w err)

@[simp] theorem core_dropEncoded (err : JsError) : (dropEncoded w err).core = w.core :=
  congr_erased Worker.core (unalarmed_dropEncoded w err) fun _ => rfl

end Books
end SFrameRatchet.Media
