import SFrameRatchet.Bookkeeping
import SFrameRatchet.Tracing
import SFrameRatchet.WorkerRuns

/-! The changes that the worker's calls make, one by one. What frames wait for, who has
been given one and the two alarms are the posture of the worker; a frame that is parked,
a queue that is taken, a frame that is decrypted and the verdict on one that is to be
sent change it, and nothing else of a call does. -/
namespace SFrameRatchet.WorkerChanges
open Collections Crypto Kid Header SFrame CodecPartial Throwing Coroutine Media Tracing

variable {K G : Type} {runtime : Runtime K G}

/-! ## The posture -/

def posture (w : Worker K G) :=
  (w.preEpochQueue, w.preEpochQueueCap, w.delivered,
    (w.starveActive, w.starveSinceMs, w.starveFramesDropped, w.starveLastEmitMs),
    (w.encryptStarveActive, w.encryptStarveSinceMs, w.encryptStarveFramesDropped, w.encryptStarveLastEmitMs),
    w.emitted.filter alarming)

variable {w w' : Worker K G}

theorem posture_posted (posted : Posted w w') : posture w' = posture w := by
  have heard : w'.emitted.filter alarming = w.emitted.filter alarming := posted.filter fun _ loud => loud
  obtain ⟨more, counts, rfl, -⟩ := posted
  simp only [posture, heard]

theorem posture_getReplayWindow (w : Worker K G) (epoch peerIndex : ℤ) :
    posture (w.getReplayWindow epoch peerIndex).2 = posture w := by
  obtain ⟨windows, next, fetched⟩ := Worker.getReplayWindow_snd w epoch peerIndex
  rw [fetched]
  rfl

theorem posture_acceptReplay (w : Worker K G) (slot : Slot) (object frame : ℕ) :
    posture (w.acceptReplay slot object frame) = posture w := by
  obtain ⟨windows, accepted⟩ := Worker.acceptReplay_eq w slot object frame
  rw [accepted]
  rfl

theorem posture_noteSealing (w : Worker K G) (key : SFrameKey K) (ctr : ℕ) :
    posture (noteSealing w key ctr) = posture w := by
  unfold noteSealing
  split <;> rfl

theorem posture_installEpoch {epoch selfPeerIndex : ℤ} {keys : KeyBundles K}
    (ok : w.installEpoch epoch selfPeerIndex keys = .ok w') : posture w' = posture w := by
  have reset (peers : List ℤ) (v : Worker K G) :
      posture (peers.foldl (fun state pi => state.resetFailureCount epoch pi) v) = posture v := by
    induction peers generalizing v with
    | nil => rfl
    | cons peer rest ih => exact ih _
  unfold Worker.installEpoch at ok
  cases made : Worker.installKeys w.kidCodec epoch keys.entries ∅ with
  | error refused => simp [made, bind, Except.bind] at ok
  | ok table =>
    simp only [made, bind, Except.bind] at ok
    generalize fresh : keys.keys.foldl _ _ = state at ok
    have same : posture state = posture w := fresh ▸ reset _ _
    split at ok
    · generalize scheduled : { state with
        currentEpoch := epoch, selfPeerIndex := some selfPeerIndex
        ctr := 0 }.scheduleWipeOfEpochsBelow epoch = v at ok
      have still : posture v = posture w := scheduled ▸ same
      have applied : posture (v.emit (.epochApplied epoch)) = posture w :=
        (posture_posted (posted_emit v rfl)).trans still
      split at ok <;> cases ok
      · exact (posture_posted (posted_emitMetric _ _)).trans applied
      · exact applied
    · cases ok
      exact same

/-! ## Readings of changes -/

/-- What a reading knows of the state a turn began in, its changes and the state reached. -/
abbrev Trace (K G : Type) := Worker K G → List (Worker K G × Worker K G) → Worker K G → Prop

/-- A reading that nothing outside the posture matters to. -/
structure Onlooking (holds : Trace K G) : Prop where
  fresh : ∀ w, holds w [] w
  aside : ∀ {start past w w'}, holds start past w → posture w' = posture w → holds start (past ++ [(w, w')]) w'

/-- A worker that has given a frame its decrypted bytes. -/
def give (w : Worker K G) (slot : Slot) (frame : Ref) (data : Bytes) : Worker K G :=
  { w with
    frames := w.frames.write frame { w.frames.read frame with data }
    delivered := w.delivered ++ [(slot, frame)] }

/-- A reading that follows all that decoding does to the posture. A frame that is given its
bytes ends the alarm with the next change. -/
structure Following (holds : Trace K G) : Prop extends Onlooking holds where
  parked : ∀ {start past w}, holds start past w → ∀ frame peerIndex,
    holds start (past ++ [(w, w.pushToQueue frame peerIndex)]) (w.pushToQueue frame peerIndex)
  given : ∀ {start past w}, holds start past w → ∀ slot frame data,
    holds start ((past ++ [(w, give w slot frame data)]) ++
      [(give w slot frame data, (give w slot frame data).clearStarve)]) (give w slot frame data).clearStarve
  taken : ∀ {start past w}, holds start past w →
    holds start (past ++ [(w, { w with draining := true, preEpochQueue := [] })])
      { w with draining := true, preEpochQueue := [] }

variable {holds : Trace K G} {start : Worker K G} {past : List (Worker K G × Worker K G)} {α : Type}

section Onlooking
variable (onlooking : Onlooking holds)

include onlooking

theorem looks_read {rest : Worker K G → Task K G α} (now : holds start past w)
    (next : ∀ past, holds start past w → Tracks holds (rest w) start past w) :
    Tracks holds (read >>= rest) start past w :=
  tracks_read (next _ (onlooking.aside now rfl))

theorem looks_update {change : Worker K G → Worker K G} (now : holds start past w)
    (same : posture (change w) = posture w) :
    Tracks holds (update change : Task K G Unit) start past w :=
  tracks_update (onlooking.aside now same)

theorem looks_pause (site : AwaitPoint) (now : holds start past w) :
    Tracks holds (pause site : Task K G Unit) start past w :=
  tracks_pause onlooking.fresh now

/-! ### Formats, the guard and the replay windows -/

theorem probeFormat_tracks (frame : Ref) (payload : Bytes) (candidates : List FormatGuess) (now : holds start past w) :
    Tracks holds (probeFormat runtime frame payload candidates) start past w := by
  induction candidates generalizing start past w with
  | nil => exact tracks_pure now
  | cons guess rest ih =>
    refine looks_read onlooking now fun _ now => ?_
    split
    · exact ih now
    · refine tracks_bind (looks_pause onlooking _ now) fun _ _ _ _ now => ?_
      split
      · exact tracks_pure now
      · exact ih now

theorem resolveFormat_tracks (frame : Ref) (payload : Bytes) (codec : Option Codec) (frameKind : Option FrameKind)
    (now : holds start past w) : Tracks holds (resolveFormat runtime frame payload codec frameKind) start past w := by
  refine looks_read onlooking now fun _ now => ?_
  dsimp only
  split
  · exact tracks_pure now
  · refine tracks_bind (probeFormat_tracks onlooking frame payload _ now) fun probed _ _ _ now => ?_
    refine tracks_bind (looks_pause onlooking _ now) fun _ _ _ _ now => ?_
    cases probed with
    | none => exact tracks_pure now
    | some found => exact tracks_pure now

theorem durableCheck_tracks (site : AwaitPoint) (slot : Slot) (now : holds start past w) :
    Tracks holds (durableCheck runtime site slot) start past w := by
  refine looks_read onlooking now fun _ now => ?_
  split
  · exact tracks_pure now
  · refine tracks_bind (looks_update onlooking now rfl) fun _ _ _ _ now => ?_
    exact tracks_bind (looks_pause onlooking _ now) fun _ _ _ _ now => tracks_pure now

theorem durableAccept_tracks (site : AwaitPoint) (slot : Slot) (now : holds start past w) :
    Tracks holds (durableAccept runtime site slot) start past w := by
  refine looks_read onlooking now fun _ now => ?_
  split
  · exact tracks_pure now
  · exact tracks_bind (looks_update onlooking now rfl) fun _ _ _ _ now => looks_pause onlooking _ now

theorem checkReplay_tracks (slot : Slot) (now : holds start past w) :
    Tracks holds (checkReplay slot) start past w := by
  refine looks_read onlooking now fun _ now => ?_
  have fetched := posture_getReplayWindow w slot.epoch slot.peerIndex
  rcases got : w.getReplayWindow slot.epoch slot.peerIndex with ⟨object, state'⟩
  rw [got] at fetched
  refine tracks_bind (looks_update onlooking now fetched) fun _ _ _ _ now => ?_
  split
  · exact tracks_bind (looks_update onlooking now rfl) fun _ _ _ _ now => tracks_pure now
  · exact tracks_pure now

/-! ### The ratchet -/

variable {site : RatchetPoint → AwaitPoint} {o : Opening} {entry : Ref}

theorem openCached_tracks (sites : Bool → AwaitPoint) (o : Opening) (now : holds start past w) :
    Tracks holds (openCached runtime sites o) start past w :=
  looks_read onlooking now fun _ now => tracks_bind (looks_pause onlooking _ now) fun _ _ _ _ now => tracks_settle now

theorem awaitPromise_tracks (place : AwaitPoint) (promise : Ref) (now : holds start past w) :
    Tracks holds (awaitPromise place promise) start past w := by
  refine tracks_bind (tracks_pauseUntil onlooking.fresh now) fun _ _ _ w now => ?_
  refine looks_read onlooking now fun _ now => ?_
  cases w.promises.read promise with
  | pending => exact tracks_throw now
  | fulfilled plaintext => exact tracks_pure now
  | rejected reason => exact tracks_throw now

theorem retrySteps_tracks (salt : Bytes) (patience step : ℕ) (currentRaw : Bytes) (now : holds start past w) :
    Tracks holds (retrySteps runtime site o entry salt patience step currentRaw) start past w := by
  induction patience generalizing step currentRaw start past w with
  | zero => exact tracks_bind (tracks_pauseUntil onlooking.fresh now) fun _ _ _ _ now => tracks_throw now
  | succ patience ih =>
    refine looks_read onlooking now fun _ now => ?_
    split
    · refine tracks_bind (looks_pause onlooking _ now) fun _ _ _ _ now => ?_
      refine tracks_bind (tracks_settle now) fun next _ _ _ now => ?_
      refine looks_read onlooking now fun _ now => ?_
      refine tracks_bind (looks_pause onlooking _ now) fun _ _ _ _ now => ?_
      split
      · refine tracks_bind (looks_update onlooking now rfl) fun _ _ _ w now => ?_
        exact tracks_bind (looks_update onlooking now (posture_posted (posted_emitMetric w _)))
          fun _ _ _ _ now => tracks_pure now
      · exact ih _ _ now
    · exact tracks_bind (looks_update onlooking now (posture_posted (posted_emitMetric _ _)))
        fun _ _ _ _ now => tracks_throw now

theorem runRetryLoop_tracks (now : holds start past w) :
    Tracks holds (runRetryLoop runtime site o entry) start past w := by
  have loop {start w : Worker K G} {past : List (Worker K G × Worker K G)} (now : holds start past w) :
      Tracks holds (retryLoop runtime site o entry) start past w := by
    refine looks_read onlooking now fun _ now => ?_
    split
    · exact tracks_throw now
    · exact retrySteps_tracks onlooking _ _ _ _ now
  refine looks_read onlooking now fun _ now => ?_
  refine tracks_bind (looks_update onlooking now rfl) fun _ _ _ _ now => ?_
  refine tracks_bind (tracks_attempt (loop now)) fun _ _ _ _ now => ?_
  refine tracks_bind (looks_update onlooking now rfl) fun _ _ _ _ now => ?_
  refine tracks_bind (looks_pause onlooking _ now) fun _ _ _ _ now => ?_
  exact tracks_bind (looks_update onlooking now rfl) fun _ _ _ _ now => tracks_settle now

theorem recheckThenLoop_tracks (inFlight : Option Ref) (now : holds start past w) :
    Tracks holds (recheckThenLoop runtime site o entry inFlight) start past w := by
  refine looks_read onlooking now fun _ now => ?_
  dsimp only
  split
  · exact runRetryLoop_tracks onlooking now
  · split
    · exact runRetryLoop_tracks onlooking now
    · refine tracks_bind (tracks_attempt (awaitPromise_tracks onlooking _ _ now)) fun outcome _ _ _ now => ?_
      cases outcome with
      | ok plaintext => exact tracks_pure now
      | error reason => exact runRetryLoop_tracks onlooking now

theorem awaitInFlight_tracks (o : Opening) (promise : Ref) (now : holds start past w) :
    Tracks holds (awaitInFlight runtime site o promise) start past w := by
  refine tracks_bind (tracks_attempt (awaitPromise_tracks onlooking _ _ now)) fun outcome _ _ _ now => ?_
  cases outcome with
  | error reason => exact tracks_pure now
  | ok other =>
    refine tracks_bind (tracks_attempt (openCached_tracks onlooking _ o now)) fun retried _ _ _ now => ?_
    cases retried with
    | ok plaintext => exact tracks_pure now
    | error refused => exact tracks_pure now

theorem tryDecryptWithRatchet_tracks (o : Opening) (now : holds start past w) :
    Tracks holds (tryDecryptWithRatchet runtime site o) start past w := by
  refine looks_read onlooking now fun _ now => ?_
  split
  · exact tracks_throw now
  · split
    · exact tracks_throw now
    · refine tracks_bind (tracks_attempt (openCached_tracks onlooking _ o now)) fun outcome _ _ w now => ?_
      cases outcome with
      | ok plaintext => exact tracks_pure now
      | error firstError =>
        refine looks_read onlooking now fun _ now => ?_
        split
        · exact tracks_throw now
        · dsimp only
          split
          · exact recheckThenLoop_tracks onlooking none now
          · refine tracks_bind (awaitInFlight_tracks onlooking o _ now) fun retried _ _ _ now => ?_
            cases retried with
            | some plaintext => exact tracks_pure now
            | none => exact recheckThenLoop_tracks onlooking _ now

theorem openResolved_tracks (frame : Ref) (held : Slot × ℕ) (payload : Bytes) (guess : FormatGuess)
    (probed : Option Probed) (now : holds start past w) :
    Tracks holds (openResolved runtime frame held payload guess probed) start past w := by
  cases probed with
  | some found => exact tracks_bind (looks_update onlooking now rfl) fun _ _ _ _ now => tracks_pure now
  | none =>
    refine tracks_bind (tracks_attempt (tryDecryptWithRatchet_tracks onlooking _ now)) fun outcome _ _ _ now => ?_
    refine tracks_bind (looks_pause onlooking _ now) fun _ _ _ _ now => ?_
    refine tracks_bind (tracks_settle now) fun opened _ _ _ now => ?_
    exact tracks_bind (looks_update onlooking now rfl) fun _ _ _ _ now => tracks_pure now

end Onlooking

/-! ## Decoding -/

section Following
variable (following : Following holds)

include following

theorem acceptFrame_tracks (frame : Ref) (held : Slot × ℕ) (payload : Bytes) (guess : FormatGuess) (opened : Bytes)
    (now : holds start past w) : Tracks holds (acceptFrame runtime frame held payload guess opened) start past w := by
  have onlooking := following.toOnlooking
  refine tracks_bind (looks_update onlooking now (posture_acceptReplay w _ _ _)) fun _ _ _ _ now => ?_
  refine tracks_bind (durableAccept_tracks onlooking _ _ now) fun _ _ _ w now => ?_
  refine tracks_bind (looks_update onlooking now (posture_posted (posted_recordSuccess w _ _))) fun _ _ _ w now => ?_
  exact tracks_onward (tracks_update (following.given now held.1 frame (payload.take guess.prefixLen ++ opened)))

/-- A report is thrown. -/
theorem report_tracks {report : Worker K G → Worker K G} (now : holds start past w) (posted : Posted w (report w))
    (refused : JsError) : Tracks holds (do update report; throw refused : Task K G α) start past w :=
  tracks_bind (looks_update following.toOnlooking now (posture_posted posted)) fun _ _ _ _ now => tracks_throw now

theorem decodePayload_tracks (frame : Ref) (payload : Bytes) (guess : FormatGuess) (probed : Option Probed)
    (hdr : SFrameHeader) (now : holds start past w) :
    Tracks holds (decodePayload runtime frame payload guess probed hdr) start past w := by
  have onlooking := following.toOnlooking
  refine looks_read onlooking now fun _ now => ?_
  dsimp only
  split
  · exact report_tracks following now (posted_reportStale w hdr _ _ _) _
  · split
    · exact tracks_bind (tracks_update (following.parked now frame _)) fun _ _ _ _ now => tracks_pure now
    · refine tracks_bind (checkReplay_tracks onlooking _ now) fun object _ _ w now => ?_
      cases object with
      | none => exact report_tracks following now (posted_reportReplay w hdr _ _) _
      | some object =>
        refine tracks_bind (durableCheck_tracks onlooking _ _ now) fun fresh _ _ w now => ?_
        split
        · exact report_tracks following now (posted_reportReplay w hdr _ _) _
        · refine looks_read onlooking now fun _ now => ?_
          split
          · exact report_tracks following now (posted_reportKeyInvalid w hdr _ _) _
          · refine tracks_bind (openResolved_tracks onlooking _ _ _ _ _ now) fun opened _ _ _ now => ?_
            refine tracks_bind (acceptFrame_tracks following _ _ _ _ opened now) fun _ _ _ w now => ?_
            exact tracks_bind (looks_update onlooking now (posture_posted (posted_emitMetric w _)))
              fun _ _ _ _ now => tracks_pure now

theorem decodeFrame_tracks (frame : Ref) (now : holds start past w) :
    Tracks holds (decodeFrame runtime frame) start past w := by
  have onlooking := following.toOnlooking
  refine looks_read onlooking now fun _ now => ?_
  dsimp only
  split
  · exact tracks_pure now
  · refine tracks_bind (resolveFormat_tracks onlooking _ _ _ _ now) fun resolved _ _ w now => ?_
    refine looks_read onlooking now fun _ now => ?_
    split
    · exact report_tracks following now (posted_failDecode w _ _) _
    · refine tracks_bind (looks_update onlooking now rfl) fun _ _ _ _ now => ?_
      refine tracks_tryCatch (decodePayload_tracks following _ _ _ _ _ now) fun refused _ _ w now => ?_
      exact report_tracks following now (posted_failDecode w _ refused) refused

theorem decodeTransform_tracks (frame : Ref) (now : holds start past w) :
    Tracks holds (decodeTransform runtime frame) start past w := by
  have onlooking := following.toOnlooking
  refine tracks_tryCatch ?_ fun _ _ _ _ now => tracks_pure now
  refine tracks_bind (decodeFrame_tracks following frame now) fun _ _ _ _ now => ?_
  refine looks_read onlooking now fun _ now => ?_
  exact tracks_bind (looks_pause onlooking _ now) fun _ _ _ _ now => looks_update onlooking now rfl

/-! ## The drain and the messages -/

theorem drainPayload_tracks (frame : Ref) (raw : Bytes) (guess : FormatGuess) (probed : Option Probed)
    (hdr : SFrameHeader) (now : holds start past w) :
    Tracks holds (drainPayload runtime frame raw guess probed hdr) start past w := by
  have onlooking := following.toOnlooking
  refine looks_read onlooking now fun _ now => ?_
  dsimp only
  split
  · exact tracks_pure now
  · split
    · exact tracks_update (following.parked now frame _)
    · refine tracks_bind (checkReplay_tracks onlooking _ now) fun object _ _ w now => ?_
      cases object with
      | none => exact looks_update onlooking now (posture_posted (posted_reportReplay w hdr _ _))
      | some object =>
        refine tracks_bind (durableCheck_tracks onlooking _ _ now) fun fresh _ _ w now => ?_
        split
        · exact looks_update onlooking now (posture_posted (posted_reportReplay w hdr _ _))
        · refine looks_read onlooking now fun _ now => ?_
          split
          · exact looks_update onlooking now (posture_posted (posted_reportKeyInvalid w hdr _ _))
          · refine tracks_bind (openResolved_tracks onlooking _ _ _ _ _ now) fun opened _ _ _ now => ?_
            exact acceptFrame_tracks following _ _ _ _ opened now

theorem drainFrame_tracks (frame : Ref) (now : holds start past w) :
    Tracks holds (drainFrame runtime frame) start past w := by
  have onlooking := following.toOnlooking
  refine looks_read onlooking now fun _ now => ?_
  refine tracks_tryCatch ?_ fun refused _ _ w now =>
    looks_update onlooking now (posture_posted (posted_failDrain w refused))
  refine tracks_bind (resolveFormat_tracks onlooking _ _ _ _ now) fun resolved _ _ _ now => ?_
  exact tracks_bind (tracks_settle now) fun hdr _ _ _ now => drainPayload_tracks following _ _ _ _ hdr now

theorem drainFrames_tracks (queue : List Ref) (now : holds start past w) :
    Tracks holds (drainFrames runtime queue) start past w := by
  induction queue generalizing start past w with
  | nil => exact tracks_pure now
  | cons frame rest ih => exact tracks_bind (drainFrame_tracks following frame now) fun _ _ _ _ now => ih now

theorem drainPreEpochQueue_tracks (now : holds start past w) :
    Tracks holds (drainPreEpochQueue runtime) start past w := by
  have onlooking := following.toOnlooking
  unfold drainPreEpochQueue
  generalize runtime.patience = patience
  induction patience generalizing start past w with
  | zero => exact tracks_pauseUntil onlooking.fresh now
  | succ patience ih =>
    refine looks_read onlooking now fun _ now => ?_
    split
    · exact looks_update onlooking now rfl
    · refine tracks_bind (tracks_update (following.taken now)) fun _ _ _ _ now => ?_
      refine tracks_bind (drainFrames_tracks following _ now) fun _ _ _ _ now => ?_
      refine tracks_bind (looks_update onlooking now rfl) fun _ _ _ _ now => ?_
      refine looks_read onlooking now fun _ now => ?_
      split
      · exact tracks_bind (looks_update onlooking now rfl) fun _ _ _ _ now => ih now
      · exact tracks_pure now

theorem handleEpoch_tracks (epoch selfPeerIndex : ℤ) (keys : KeyBundles K) (now : holds start past w) :
    Tracks holds (handleEpoch runtime epoch selfPeerIndex keys) start past w := by
  refine looks_read following.toOnlooking now fun _ now => ?_
  refine tracks_settled now fun installed ok => ?_
  refine tracks_bind (looks_update following.toOnlooking now (posture_installEpoch ok)) fun _ _ _ _ now => ?_
  exact drainPreEpochQueue_tracks following now

end Following

/-- An init message may set the bound of the queue. -/
theorem handleInit_tracks (onlooking : Onlooking holds) {msg : InitMsg}
    (sized : ∀ {start past w} (cap : ℚ), msg.preEpochQueueCap = some cap → 0 < cap → holds start past w →
      holds start (past ++ [(w, { w with preEpochQueueCap := ⌊cap⌋.toNat })])
        { w with preEpochQueueCap := ⌊cap⌋.toNat })
    (now : holds start past w) : Tracks holds (handleInit runtime msg) start past w := by
  refine tracks_bind (looks_update onlooking now rfl) fun _ _ _ _ now => ?_
  refine tracks_bind ?_ fun _ _ _ _ now => tracks_bind ?_ fun _ _ _ _ now => tracks_bind ?_ fun _ _ _ w now => ?_
  · unfold initKidCodec
    split
    · exact tracks_pure now
    · exact tracks_bind (tracks_settle now) fun _ _ _ _ now => looks_update onlooking now rfl
  · unfold initQueueCap
    split
    · exact tracks_pure now
    · rename_i cap asked
      split
      · rename_i positive
        exact tracks_update (sized cap asked positive now)
      · exact tracks_pure now
  · unfold initDurable
    split
    · dsimp only
      split
      · exact tracks_throw now
      · refine looks_read onlooking now fun _ now => ?_
        split
        · exact tracks_throw now
        · exact looks_update onlooking now rfl
    · exact looks_update onlooking now rfl
  · exact looks_update onlooking now (posture_posted (posted_emit w rfl))

/-! ## Calls -/

/-- The calls that encode a frame. -/
def encoding : Call K → Bool
  | .encodeFrame _ | .transform .encode _ => true
  | _ => false

theorem receive_tracks (onlooking : Onlooking holds) (frame : EncodedFrame) (now : holds start past w) :
    Tracks holds (receive frame : Task K G Ref) start past w :=
  looks_read onlooking now fun _ now => tracks_bind (looks_update onlooking now rfl) fun _ _ _ _ now => tracks_pure now

/-- **Any call but an init message or an encode call**, where a teardown is followed too. -/
theorem program_tracks (following : Following holds) {call : Call K} (decodes : encoding call = false)
    (other : ∀ msg, call ≠ .message (.init msg))
    (torn : call = .message .teardown → ∀ {start past w}, holds start past w →
      holds start (past ++ [(w, w.teardown)]) w.teardown)
    (now : holds start past w) : Tracks holds (call.program runtime) start past w := by
  have onlooking := following.toOnlooking
  have done {program : Task K G Unit} (tracks : Tracks holds program start past w) :
      Tracks holds (do program; return .done : Task K G Outcome) start past w :=
    tracks_bind tracks fun _ _ _ _ now => tracks_pure now
  cases call with
  | message msg =>
    apply done
    cases msg with
    | init msg => exact absurd rfl (other msg)
    | epoch epoch selfPeerIndex keys => exact handleEpoch_tracks following epoch selfPeerIndex keys now
    | rotate epoch selfPeerIndex keys => exact handleEpoch_tracks following epoch selfPeerIndex keys now
    | teardown => exact tracks_update (torn rfl now)
    | streams | setSifTrailer | setRatchetWindow | setMetricsEnabled | setReplayWindow | setFailureTolerance =>
      exact looks_update onlooking now rfl
  | wipeTimer epoch =>
    refine done (looks_read onlooking now fun _ now => ?_)
    split
    · exact looks_update onlooking now rfl
    · exact tracks_pure now
  | tick elapsed => exact done (looks_update onlooking now rfl)
  | transform side frame =>
    cases side with
    | encode => cases decodes
    | decode =>
      refine tracks_bind (receive_tracks onlooking frame now) fun ref _ _ _ now => ?_
      exact tracks_bind (decodeTransform_tracks following ref now) fun _ _ _ _ now => tracks_pure now
  | encodeFrame frame => cases decodes
  | decodeFrame frame =>
    refine tracks_bind (receive_tracks onlooking frame now) fun ref _ _ _ now => ?_
    exact tracks_bind (decodeFrame_tracks following ref now) fun _ _ _ _ now => tracks_pure now
  | tryDecryptWithRatchet opening =>
    exact tracks_bind (tryDecryptWithRatchet_tracks onlooking opening now) fun _ _ _ _ now => tracks_pure now
  | drainPreEpochQueue => exact done (drainPreEpochQueue_tracks following now)

/-- An encode call ends the alarm of its side, or rings it. -/
theorem encode_tracks (onlooking : Onlooking holds) {call : Call K} (encodes : encoding call = true)
    (encoded : ∀ {start past w}, holds start past w →
      holds start (past ++ [(w, w.clearEncryptStarve)]) w.clearEncryptStarve)
    (dropped : ∀ {start past w}, holds start past w →
      ∀ err, holds start (past ++ [(w, dropEncoded w err)]) (dropEncoded w err))
    (now : holds start past w) : Tracks holds (call.program runtime) start past w := by
  have encodeFrame_tracks (frame : Ref) (frameKind : Option FrameKind) {start w : Worker K G}
      {past : List (Worker K G × Worker K G)} (now : holds start past w) :
      Tracks holds (encodeFrame runtime frame frameKind) start past w := by
    refine looks_read onlooking now fun _ now => ?_
    split
    · exact tracks_throw now
    · dsimp only
      split
      · exact tracks_throw now
      · refine tracks_bind (looks_update onlooking now rfl) fun _ _ _ _ now => ?_
        refine tracks_bind (tracks_settle now) fun header _ _ w now => ?_
        refine tracks_bind (looks_update onlooking now (posture_noteSealing w _ _)) fun _ _ _ _ now => ?_
        refine tracks_bind (looks_pause onlooking _ now) fun _ _ _ _ now => ?_
        refine tracks_bind (tracks_settle now) fun wire _ _ _ now => ?_
        refine tracks_bind (looks_update onlooking now rfl) fun _ _ _ w now => ?_
        refine tracks_bind (looks_update onlooking now (posture_posted (posted_emitMetric w _))) fun _ _ _ _ now => ?_
        exact tracks_update (encoded now)
  cases call with
  | encodeFrame frame =>
    refine tracks_bind (receive_tracks onlooking frame now) fun ref _ _ _ now => ?_
    exact tracks_bind (encodeFrame_tracks ref _ now) fun _ _ _ _ now => tracks_pure now
  | transform side frame =>
    cases side with
    | decode => cases encodes
    | encode =>
      refine tracks_bind (receive_tracks onlooking frame now) fun ref _ _ _ now => ?_
      refine tracks_bind ?_ fun _ _ _ _ now => tracks_pure now
      refine tracks_tryCatch ?_ fun err _ _ _ now => tracks_update (dropped now err)
      refine tracks_bind (encodeFrame_tracks ref _ now) fun _ _ _ _ now => ?_
      refine looks_read onlooking now fun _ now => ?_
      exact tracks_bind (looks_pause onlooking _ now) fun _ _ _ _ now => looks_update onlooking now rfl
  | message | wipeTimer | tick | decodeFrame | tryDecryptWithRatchet | drainPreEpochQueue => cases encodes

end SFrameRatchet.WorkerChanges
