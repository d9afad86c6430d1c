import SFrameRatchet.Bookkeeping
import SFrameRatchet.Readings

/-! The way of a frame for readings that are not about the ratchet. Unsealing knows
which keys open a frame, and what its readings may be about is limited by that; a
reading that only has to get through the search for a format, the durable guard and
the ratchet needs less of them. -/
namespace SFrameRatchet.FrameWalk
open Collections Crypto Kid Header SFrame CodecPartial Throwing Coroutine Media

variable {K G : Type} {runtime : Runtime K G} {contract : Contract AwaitPoint (Worker K G)} {holds : Reading K G}
  {at_ : AwaitPoint} {start w w' : Worker K G}

/-! ## The search for a format -/

/-- Searching for a format changes nothing. -/
theorem probeFormat_yields (frame : Ref) (payload : Bytes)
    (survives : Survives contract holds { point := .probe, frame := some frame, payload := some payload })
    (candidates : List FormatGuess) (now : holds at_ start w) :
    Yields contract holds (probeFormat runtime frame payload candidates) (fun _ => True) at_ start w := by
  induction candidates generalizing at_ start w with
  | nil => exact ⟨now, trivial⟩
  | cons guess rest ih =>
    apply yields_read
    split
    · exact ih now
    · refine yields_bind (yields_pause survives now) fun _ _ _ _ now _ => ?_
      split
      · exact ⟨now, trivial⟩
      · exact ih now

/-- A plaintext from the probe comes after a suspension. -/
theorem resolveFormat_meets (frame : Ref) (payload : Bytes) (codec : Option Codec) (frameKind : Option FrameKind)
    (probes : Survives contract holds { point := .probe, frame := some frame, payload := some payload })
    (probed : Survives contract holds { point := .probed, frame := some frame, payload := some payload })
    (now : holds at_ start w) :
    Meets contract (resolveFormat runtime frame payload codec frameKind)
      (fun at_ start resolved w => holds at_ start w ∧ (resolved.2.isSome → at_.point = .probed))
      (fun at_ start _ w => holds at_ start w) at_ start w := by
  unfold resolveFormat
  simp only [meets_bind, meets_read]
  split
  · exact ⟨now, fun never => by cases never⟩
  · refine meets_after (probeFormat_yields frame payload probes _ now) (fun _ _ outcome w now _ => ?_)
      fun _ _ _ _ now => now
    simp only [meets_bind, meets_pause]
    obtain ⟨allowed, resumes⟩ := probed _ _ _ now
    refine ⟨allowed, fun later assumed => ?_⟩
    cases outcome with
    | none => exact ⟨resumes later assumed, fun never => by cases never⟩
    | some found => exact ⟨resumes later assumed, fun _ => rfl⟩

/-! ## Signals -/

/-- The signal of a frame that a full queue has dropped. -/
def reportsOverflow : OutMsg → Bool
  | .decryptFailure .queueOverflow .. => true
  | _ => false

/-- Signals are added, and none of them is about an overflow. -/
def Signals (w w' : Worker K G) : Prop :=
  ∃ more, w'.emitted = w.emitted ++ more ∧ ∀ msg ∈ more, reportsOverflow msg = false

theorem signals_of_same (same : w'.emitted = w.emitted) : Signals w w' := ⟨[], by simp [same], nofun⟩

theorem signals_refl (w : Worker K G) : Signals w w := signals_of_same rfl

theorem signals_trans {v : Worker K G} (first : Signals w w') (second : Signals w' v) : Signals w v := by
  obtain ⟨more, emitted, quiet⟩ := first
  obtain ⟨further, emittedNext, quietNext⟩ := second
  refine ⟨more ++ further, by rw [emittedNext, emitted, List.append_assoc], fun msg member => ?_⟩
  rcases List.mem_append.mp member with early | late
  · exact quiet msg early
  · exact quietNext msg late

theorem signals_emit (w : Worker K G) {msg : OutMsg} (quiet : reportsOverflow msg = false) : Signals w (w.emit msg) :=
  ⟨[msg], rfl, by simpa using quiet⟩

theorem signals_posted (posted : Posted w w') : Signals w w' := by
  obtain ⟨more, counts, rfl, quiet⟩ := posted
  refine ⟨more, rfl, fun msg member => ?_⟩
  have still := quiet msg member
  unfold reportsOverflow
  split
  · cases still
  · rfl

theorem signals_emitMetric (w : Worker K G) (event : MetricsEvent) : Signals w (w.emitMetric event) :=
  signals_posted (posted_emitMetric w event)

/-! ## The ratchet -/

/-- The worker without its promises and signals. -/
def beyondRatchet (w : Worker K G) : Worker K G :=
  { w with promises := default, ratchetPromises := ∅, emitted := [] }

/-- The reading is about neither, but for overflows that have been reported, and lets a
key of an entry advance. -/
structure Bystander (holds : Reading K G) (entry : Ref) (peerIndex : ℤ) : Prop where
  quiet : ∀ {at_ start w w'}, holds at_ start w → beyondRatchet w' = beyondRatchet w → Signals w w' →
    holds at_ start w'
  advances : ∀ {at_ start w}, holds at_ start w → ∀ next step,
    holds at_ start (advanceKey w entry peerIndex next step)

theorem beyondRatchet_emitMetric (w : Worker K G) (event : MetricsEvent) :
    beyondRatchet (w.emitMetric event) = beyondRatchet w := by
  unfold Worker.emitMetric
  split <;> rfl

theorem openCached_yields {sites : Bool → AwaitPoint} (survives : ∀ opens, Survives contract holds (sites opens))
    (o : Opening) (now : holds at_ start w) :
    Yields contract holds (openCached runtime sites o) (fun _ => True) at_ start w :=
  yields_read (yields_bind (yields_pause (survives _) now) fun _ _ _ _ later _ =>
    yields_settle later fun _ _ => trivial)

theorem awaitPromise_yields {place : AwaitPoint} (survives : Survives contract holds place) (promise : Ref)
    (now : holds at_ start w) :
    Yields contract holds (awaitPromise place promise) (fun _ => True) at_ start w := by
  refine yields_bind (yields_pauseUntil survives _ now) fun _ _ _ w now _ => yields_read ?_
  cases w.promises.read promise with
  | pending => exact now
  | fulfilled plaintext => exact ⟨now, trivial⟩
  | rejected reason => exact now

/-- What is left to do when a sender's key has been found in an entry. -/
def openUnder (runtime : Runtime K G) (site : RatchetPoint → AwaitPoint) (o : Opening) (entry : Ref) :
    Task K G Bytes := do
  match ← attempt (openCached runtime (fun _ => site .stepZero) o) with
  | .ok plaintext => return plaintext
  | .error firstError => do
    let state ← read
    if state.ratchetWindowSize = 0 then throw firstError
    else
      let inFlight := state.ratchetPromises.get? (o.epoch, o.peerIndex)
      match inFlight with
      | none => recheckThenLoop runtime site o entry none
      | some promise => do
        match ← awaitInFlight runtime site o promise with
        | some plaintext => return plaintext
        | none => recheckThenLoop runtime site o entry inFlight

theorem tryDecryptWithRatchet_eq (site : RatchetPoint → AwaitPoint) (o : Opening) :
    tryDecryptWithRatchet runtime site o = (do
      let state ← read
      match state.epochs.get? o.epoch with
      | none => throw (.keyNotFound s!"sframe: no epoch entry for epoch={o.epoch}" none o.epoch o.peerIndex)
      | some entry =>
        match (state.entries.read entry).keys.get? o.peerIndex with
        | none => throw (keyNotFoundFor o.epoch o.peerIndex)
        | some _ => openUnder runtime site o entry) := rfl

section Ratchet
variable {site : RatchetPoint → AwaitPoint} (survives : ∀ point, Survives contract holds (site point))

section Entry
variable {o : Opening} {entry : Ref} (bystander : Bystander holds entry o.peerIndex)

include survives

theorem awaitInFlight_yields (o : Opening) (promise : Ref) (now : holds at_ start w) :
    Yields contract holds (awaitInFlight runtime site o promise) (fun _ => True) at_ start w := by
  refine yields_bind (yields_attempt (awaitPromise_yields (survives _) promise now)) fun _ _ outcome _ now _ => ?_
  cases outcome with
  | error reason => exact ⟨now, trivial⟩
  | ok other =>
    refine yields_bind (yields_attempt (openCached_yields (fun _ => survives _) o now)) fun _ _ retried _ now _ => ?_
    cases retried with
    | ok plaintext => exact ⟨now, trivial⟩
    | error refused => exact ⟨now, trivial⟩

include bystander

theorem retrySteps_yields (salt : Bytes) (patience step : ℕ) (currentRaw : Bytes)
    (now : holds at_ start w) :
    Yields contract holds (retrySteps runtime site o entry salt patience step currentRaw)
      (fun _ => True) at_ start w := by
  induction patience generalizing step currentRaw at_ start w with
  | zero => exact yields_bind (yields_pauseUntil (survives _) _ now) fun _ _ _ _ now _ => now
  | succ patience ih =>
    apply yields_read
    split
    · refine yields_bind (yields_pause (survives _) now) fun _ _ _ _ now _ => ?_
      refine yields_bind (yields_settle now fun _ derived => derived) fun _ _ next _ now _ => ?_
      refine yields_read (yields_bind (yields_pause (survives _) now) fun _ _ _ w now _ => ?_)
      split
      · refine yields_bind (yields_update (bystander.advances now next step)) fun _ _ _ w now _ => ?_
        refine yields_bind (yields_update (bystander.quiet now (beyondRatchet_emitMetric w _) (signals_emitMetric w _)))
          ?_
        exact fun _ _ _ _ now _ => ⟨now, trivial⟩
      · exact ih _ _ now
    · refine yields_bind (yields_update (bystander.quiet now (beyondRatchet_emitMetric _ _) (signals_emitMetric _ _)))
        ?_
      exact fun _ _ _ _ now _ => now

theorem runRetryLoop_yields (now : holds at_ start w) :
    Yields contract holds (runRetryLoop runtime site o entry) (fun _ => True) at_ start w := by
  have loop {at_ : AwaitPoint} {start w : Worker K G} (now : holds at_ start w) :
      Yields contract holds (retryLoop runtime site o entry) (fun _ => True) at_ start w := by
    apply yields_read
    split
    · exact now
    · exact retrySteps_yields survives bystander _ _ _ _ now
  refine yields_read (yields_bind (yields_update (bystander.quiet now rfl (signals_refl _))) fun _ _ _ w now _ => ?_)
  refine yields_bind (yields_attempt (loop now)) fun _ _ outcome _ now _ => ?_
  refine yields_bind (yields_update (bystander.quiet now rfl (signals_refl _))) fun _ _ _ _ now _ => ?_
  refine yields_bind (yields_pause (survives _) now) fun _ _ _ _ now _ => ?_
  exact yields_bind (yields_update (bystander.quiet now rfl (signals_refl _))) fun _ _ _ _ now _ =>
    yields_settle now fun _ _ => trivial

theorem recheckThenLoop_yields (inFlight : Option Ref) (now : holds at_ start w) :
    Yields contract holds (recheckThenLoop runtime site o entry inFlight) (fun _ => True) at_ start w := by
  apply yields_read
  dsimp only
  split
  · exact runRetryLoop_yields survives bystander now
  · rename_i promise found
    split
    · exact runRetryLoop_yields survives bystander now
    · refine yields_bind (yields_attempt (awaitPromise_yields (survives _) promise now)) fun _ _ outcome _ now _ => ?_
      cases outcome with
      | ok plaintext => exact ⟨now, trivial⟩
      | error reason => exact runRetryLoop_yields survives bystander now

/-- What `tryDecryptWithRatchet` does with an entry that has a key of the sender. -/
theorem openUnder_yields (now : holds at_ start w) :
    Yields contract holds (openUnder runtime site o entry) (fun _ => True) at_ start w := by
  refine yields_bind (yields_attempt (openCached_yields (fun _ => survives _) o now)) fun _ _ outcome _ now _ => ?_
  cases outcome with
  | ok plaintext => exact ⟨now, trivial⟩
  | error firstError =>
    apply yields_read
    split
    · exact now
    · dsimp only
      split
      · exact recheckThenLoop_yields survives bystander none now
      · rename_i promise flying
        refine yields_bind (awaitInFlight_yields survives o promise now) fun _ _ retried _ now _ => ?_
        cases retried with
        | some plaintext => exact ⟨now, trivial⟩
        | none => exact recheckThenLoop_yields survives bystander _ now

end Entry

include survives

theorem tryDecryptWithRatchet_yields (bystander : ∀ entry peerIndex, Bystander holds entry peerIndex) (o : Opening)
    (now : holds at_ start w) :
    Yields contract holds (tryDecryptWithRatchet runtime site o) (fun _ => True) at_ start w := by
  rw [tryDecryptWithRatchet_eq]
  apply yields_read
  split
  · exact now
  · rename_i entry installed
    split
    · exact now
    · exact openUnder_yields survives (bystander _ _) now

end Ratchet
/-! ## Encoding -/

/-- The worker without what encoding works on. -/
def beyondEncoding (w : Worker K G) : Worker K G :=
  { w with
    ctr := 0, sealings := [], frames := default, enqueued := [], emitted := []
    encryptStarveActive := false, encryptStarveSinceMs := 0, encryptStarveFramesDropped := 0
    encryptStarveLastEmitMs := 0 }

/-- What encoding a frame does to the worker: the frame is written, no other one is, and
signals are added, of which none is about an overflow. -/
structure Encodes (frame : Ref) (w w' : Worker K G) : Prop where
  same : beyondEncoding w' = beyondEncoding w
  next : w'.frames.next = w.frames.next
  others : ∀ other, other ≠ frame → w'.frames.read other = w.frames.read other
  emitted : Signals w w'

/-- The reading does not depend on what encoding a frame works on. -/
def Unencoded (holds : Reading K G) (frame : Ref) : Prop :=
  ∀ at_ start w w', holds at_ start w → Encodes frame w w' → holds at_ start w'

theorem encodes_of {frame : Ref} (same : beyondEncoding w' = beyondEncoding w) (frames : w'.frames = w.frames)
    (emitted : Signals w w') : Encodes frame w w' where
  same := same
  next := by rw [frames]
  others _ _ := by rw [frames]
  emitted := emitted

theorem encodes_noteSealing (frame : Ref) (w : Worker K G) (key : SFrameKey K) (ctr : ℕ) :
    Encodes frame w (noteSealing w key ctr) := by
  unfold noteSealing
  split
  · exact encodes_of rfl rfl (signals_refl _)
  · exact encodes_of rfl rfl (signals_refl _)

theorem encodes_emitMetric (frame : Ref) (w : Worker K G) (event : MetricsEvent) :
    Encodes frame w (w.emitMetric event) := by
  unfold Worker.emitMetric
  split
  · exact encodes_of rfl rfl (signals_emit _ rfl)
  · exact encodes_of rfl rfl (signals_refl _)

theorem encodes_clearEncryptStarve (frame : Ref) (w : Worker K G) : Encodes frame w w.clearEncryptStarve := by
  unfold Worker.clearEncryptStarve
  split
  · exact encodes_of rfl rfl (signals_refl _)
  · exact encodes_of rfl rfl (signals_refl _)

theorem encodes_trans {frame : Ref} {v : Worker K G} (first : Encodes frame w w') (second : Encodes frame w' v) :
    Encodes frame w v where
  same := second.same.trans first.same
  next := second.next.trans first.next
  others other apart := (second.others other apart).trans (first.others other apart)
  emitted := signals_trans first.emitted second.emitted

theorem encodes_dropEncoded (frame : Ref) (w : Worker K G) (err : JsError) : Encodes frame w (dropEncoded w err) := by
  have noted (v : Worker K G) (reason : EncryptFailure) (detail : String) :
      Encodes frame v (v.noteEncryptDrop reason detail) := by
    unfold Worker.noteEncryptDrop
    split
    · exact encodes_of rfl rfl (signals_emit _ rfl)
    · dsimp only
      split
      · exact encodes_of rfl rfl (signals_emit _ rfl)
      · exact encodes_of rfl rfl (signals_refl _)
  exact encodes_trans (encodes_emitMetric frame w _) (noted _ _ _)

theorem encodes_write (frame : Ref) (w : Worker K G) (frame' : EncodedFrame) :
    Encodes frame w { w with frames := w.frames.write frame frame' } where
  same := rfl
  next := rfl
  others other apart := by simp [apart]
  emitted := signals_refl _

section Encoding
variable {frame : Ref} (unencoded : Unencoded holds frame)
  (survives : ∀ point, point ≠ .start → Survives contract holds { point, frame := some frame })
include unencoded survives

theorem encodeFrame_yields (frameKind : Option FrameKind) (now : holds at_ start w) :
    Yields contract holds (Media.encodeFrame runtime frame frameKind) (fun _ => True) at_ start w := by
  apply yields_read
  split
  · exact now
  · dsimp only
    split
    · exact now
    · refine yields_bind (yields_update (unencoded _ _ w _ now (encodes_of rfl rfl (signals_refl _))))
        fun _ _ _ _ now _ => ?_
      refine yields_bind (yields_settle now fun _ written => written) fun _ _ _ w now _ => ?_
      refine yields_bind (yields_update (unencoded _ _ w _ now (encodes_noteSealing frame w _ _)))
        fun _ _ _ _ now _ => ?_
      refine yields_bind (yields_pause (survives _ nofun) now) fun _ _ _ _ now _ => ?_
      refine yields_bind (yields_settle now fun _ wired => wired) fun _ _ _ w now _ => ?_
      refine yields_bind (yields_update (unencoded _ _ w _ now (encodes_write frame w _))) fun _ _ _ w now _ => ?_
      refine yields_bind (yields_update (unencoded _ _ w _ now (encodes_emitMetric frame w _)))
        fun _ _ _ w now _ => ?_
      exact yields_update (unencoded _ _ w _ now (encodes_clearEncryptStarve frame w))

theorem encodeTransform_yields (frameKind : Option FrameKind) (now : holds at_ start w) :
    Yields contract holds (encodeTransform runtime frame frameKind) (fun _ => True) at_ start w := by
  refine meets_tryCatch.mpr (meets_mono (yields_bind (encodeFrame_yields unencoded survives frameKind now) ?_)
    (fun _ _ _ _ held => held) fun _ _ error w now =>
      yields_update (unencoded _ _ w _ now (encodes_dropEncoded frame w error)))
  intro _ _ _ w now _
  exact yields_read (yields_bind (yields_pause (survives _ nofun) now) fun _ _ _ w now _ =>
    yields_update (unencoded _ _ w _ now (encodes_of rfl rfl (signals_refl _))))

end Encoding
end SFrameRatchet.FrameWalk
