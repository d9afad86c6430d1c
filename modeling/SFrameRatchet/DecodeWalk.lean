import SFrameRatchet.FrameWalk
import SFrameRatchet.Unsealing

/-! The way of a frame through a decoder and a drain, for readings that are about
neither. What is left for such a reading to say of a call is what it says of the
messages, of the wipe timers and of the encoder. -/
namespace SFrameRatchet.DecodeWalk
open Collections Crypto Kid Header SFrame CodecPartial Throwing Coroutine Media Unsealing

variable {K G : Type} {runtime : Runtime K G}

/-- The worker without what decoding and draining work on beside the keys, the queue and
the frames. -/
def besideQueue (w : Worker K G) : Worker K G :=
  { w.core with
    promises := default, ratchetPromises := ∅, durableReplay := none, replayWindows := ∅, nextWindow := 0
    draining := false, pendingDrain := false, resolved := [], checked := [], accepted := [], delivered := [] }

/-- A reading that what decoding and draining do with certain frames keeps. -/
structure Walked (holds : Reading K G) (mine : Ref → Prop) : Prop where
  beside : ∀ {at_ start w w'}, holds at_ start w → besideQueue w' = besideQueue w → holds at_ start w'
  queued : ∀ {at_ start w}, holds at_ start w → ∀ ref ∈ w.preEpochQueue, mine ref
  parked : ∀ {at_ start w}, holds at_ start w → ∀ ref peerIndex, mine ref →
    holds at_ start (w.pushToQueue ref peerIndex)
  taken : ∀ {at_ start w}, holds at_ start w → holds at_ start { w with draining := true, preEpochQueue := [] }
  written : ∀ {at_ start w}, holds at_ start w → ∀ ref frame, mine ref →
    holds at_ start { w with frames := w.frames.write ref frame }

/-- The worker without the queue and the frames as well, and without the keys, the frames
that have come and the time. -/
def beyondDecoding (w : Worker K G) : Worker K G :=
  { besideQueue w with
    entries := { (default : Heap (EpochEntry K)) with next := w.entries.next }
    preEpochQueue := [], frames := default, clock := 0, arrived := [], enqueued := [] }

/-- The reading does not depend on what decoding and draining work on. -/
def Undecoded (holds : Reading K G) : Prop :=
  ∀ at_ start w w', holds at_ start w → beyondDecoding w' = beyondDecoding w → holds at_ start w'

variable {holds : Reading K G} {contract : Contract AwaitPoint (Worker K G)} {at_ : AwaitPoint}
  {start w w' : Worker K G} {mine : Ref → Prop}

namespace Undecoded
variable (undecoded : Undecoded holds)

include undecoded

theorem walked : Walked holds fun _ => True where
  beside now same := undecoded _ _ _ _ now (congrArg
    (fun v => { v with
      entries := { (default : Heap (EpochEntry K)) with next := v.entries.next }
      preEpochQueue := [], frames := default, clock := 0, arrived := [], enqueued := [] }) same)
  queued _ _ _ := trivial
  parked {_ _ w} now ref peerIndex _ := by
    obtain ⟨kept, -, same⟩ := Worker.core_pushToQueue w ref peerIndex
    exact undecoded _ _ w _ now (congrArg beyondDecoding same : beyondDecoding (w.pushToQueue ref peerIndex).core = _)
  taken now := undecoded _ _ _ _ now rfl
  written now _ _ _ := undecoded _ _ _ _ now rfl

/-- Such a reading is not about keys. -/
def ring : Keyring runtime holds where
  known _ _ _ := True
  names _ _ := True
  codecs _ := True
  quiet {_ _ w w'} now same := undecoded.walked.beside now
    (congrArg besideQueue same : besideQueue (beyondPromises w') = besideQueue (beyondPromises w))
  codec _ := trivial
  installed _ _ := trivial
  held _ _ _ := trivial
  derives _ _ _ := trivial
  advances now _ _ _ := undecoded _ _ _ _ now rfl

end Undecoded

namespace Walked
variable (walked : Walked holds mine)

include walked

theorem windowless : Windowless holds := fun _ _ w w' now same => walked.beside now
  (congrArg besideQueue same : besideQueue (beyondReplay w') = besideQueue (beyondReplay w))

theorem core (now : holds at_ start w) (same : w'.core = w.core) : holds at_ start w' :=
  walked.beside now (congrArg besideQueue same : besideQueue w'.core = besideQueue w.core)

theorem delivered (now : holds at_ start w) (slot : Slot) {ref : Ref} (own : mine ref) (data : Bytes) :
    holds at_ start (deliver w slot ref data) := by
  have written : holds at_ start { w with frames := w.frames.write ref { w.frames.read ref with data } } :=
    walked.written now ref _ own
  exact walked.beside written rfl

end Walked

/-! ## Frames -/

section Frames
variable (ring : Keyring runtime holds) (walked : Walked holds mine)
  (survives : ∀ site, Within site → (∀ ref, site.frame = some ref → mine ref) → Survives contract holds site)

include survives

/-- The reading survives where a call waits for one of its frames. -/
private theorem survives_own {ref : Ref} (own : mine ref) (site : AwaitPoint) (frame : site.frame = some ref)
    (within : Within site) : Survives contract holds site := by
  refine survives site within fun other same => ?_
  rw [← Option.some.inj (frame.symm.trans same)]
  exact own

include ring walked

theorem acceptFrame_yields {frame : Ref} (own : mine frame) (held : Slot × ℕ) (payload : Bytes) (guess : FormatGuess)
    (opened : Bytes) (now : holds at_ start w) :
    Yields contract holds (acceptFrame runtime frame held payload guess opened) (fun _ => True) at_ start w := by
  have waits := survives_own survives own
  refine meets_mono (acceptFrame_delivers ring frame held payload guess opened (waits _ rfl trivial)
    (walked.windowless.accepts now held.1 held.2 frame)) ?_ fun _ _ _ _ now => now
  rintro _ _ - w ⟨v, now, delivered⟩
  exact ⟨walked.core (walked.delivered now held.1 own _) delivered, trivial⟩

theorem decodePayload_yields {frame : Ref} (own : mine frame) (payload : Bytes) (guess : FormatGuess)
    (probed : Option Probed) (hdr : SFrameHeader) (now : holds at_ start w) :
    Yields contract holds (decodePayload runtime frame payload guess probed hdr) (fun _ => True) at_ start w := by
  refine meets_mono (decodePayload_ends ring walked.windowless frame payload guess probed hdr
    (fun site same _ within => survives_own survives own site same within) now) ?_ fun _ _ _ _ now => now
  intro at_ start path w ended
  cases path with
  | passedThrough => exact ended.elim
  | parked =>
    obtain ⟨v, peerIndex, now, rfl⟩ := ended
    exact ⟨walked.parked now frame peerIndex own, trivial⟩
  | opened format opened =>
    obtain ⟨-, -, v, slot, now, delivered⟩ := ended
    exact ⟨walked.core (walked.delivered now slot own _) delivered, trivial⟩

theorem decodeFrame_yields {ref : Ref} (own : mine ref) (now : holds at_ start w) :
    Yields contract holds (decodeFrame runtime ref) (fun _ => True) at_ start w := by
  apply yields_read
  dsimp only
  split
  · exact ⟨now, trivial⟩
  · rename_i payload stripped
    have waits := survives_own survives own
    refine yields_bind (resolveFormat_yields ring ref payload _ _ (waits _ rfl trivial) (waits _ rfl trivial) now)
      fun _ _ resolved w now _ => yields_read ?_
    cases parseHeader (payload.drop resolved.1.prefixLen) with
    | error refused =>
      exact yields_bind (yields_update (walked.core now (core_failDecode _ _ _))) fun _ _ _ _ now _ => now
    | ok hdr =>
      refine yields_bind (yields_update (walked.beside now rfl)) fun _ _ _ _ now _ => meets_tryCatch.mpr ?_
      refine meets_mono (decodePayload_yields ring walked survives own payload resolved.1 resolved.2 hdr now)
        (fun _ _ _ _ held => held) ?_
      exact fun _ _ refused w now =>
        yields_bind (yields_update (walked.core now (core_failDecode w _ refused))) fun _ _ _ _ now _ => now

theorem drainPayload_yields {frame : Ref} (own : mine frame) (raw : Bytes) (guess : FormatGuess)
    (probed : Option Probed) (hdr : SFrameHeader) (now : holds at_ start w) :
    Yields contract holds (drainPayload runtime frame raw guess probed hdr) (fun _ => True) at_ start w := by
  have waits := survives_own survives own
  apply yields_read
  dsimp only
  split
  · exact ⟨now, trivial⟩
  · split
    · exact yields_update (walked.parked now frame _ own)
    · refine yields_bind (checkReplay_yields walked.windowless.unchecked _ now) fun _ _ object _ now _ => ?_
      cases object with
      | none => exact yields_update (walked.core now (core_reportReplay _ _ _ _))
      | some object =>
        refine yields_bind (durableCheck_yields ring.guardless (waits _ rfl (by simp [Within])) _ now)
          fun _ _ answer _ now _ => ?_
        split
        · exact yields_update (walked.core now (core_reportReplay _ _ _ _))
        · apply yields_read
          split
          · exact yields_update (walked.core now (core_reportKeyInvalid _ _ _ _))
          · refine yields_bind (openResolved_yields ring frame _ raw guess probed
              (fun _ => waits _ rfl (by simp [Within])) now) fun _ _ opened _ now _ => ?_
            exact acceptFrame_yields ring walked survives own _ raw guess opened now

theorem drainFrame_yields {ref : Ref} (own : mine ref) (now : holds at_ start w) :
    Yields contract holds (drainFrame runtime ref) (fun _ => True) at_ start w := by
  have waits := survives_own survives own
  refine yields_read (meets_tryCatch.mpr ?_)
  refine meets_mono (yields_bind (resolveFormat_yields ring ref _ _ _ (waits _ rfl trivial) (waits _ rfl trivial) now)
    fun _ _ resolved _ now _ => ?_) (fun _ _ _ _ held => held) ?_
  · refine yields_bind (yields_settle now fun _ parsed => parsed) fun _ _ hdr _ now _ => ?_
    exact drainPayload_yields ring walked survives own _ _ _ hdr now
  · exact fun _ _ error w now => yields_update (walked.core now (core_failDrain w error))

theorem drainFrames_yields {queue : List Ref} (own : ∀ ref ∈ queue, mine ref) (now : holds at_ start w) :
    Yields contract holds (drainFrames runtime queue) (fun _ => True) at_ start w := by
  induction queue generalizing at_ start w with
  | nil => exact ⟨now, trivial⟩
  | cons ref rest ih =>
    refine yields_bind (drainFrame_yields ring walked survives (own ref List.mem_cons_self) now) fun _ _ _ _ now _ => ?_
    exact ih (fun other member => own other (List.mem_cons_of_mem ref member)) now

theorem drainPreEpochQueue_yields (now : holds at_ start w) :
    Yields contract holds (drainPreEpochQueue runtime) (fun _ => True) at_ start w := by
  unfold drainPreEpochQueue
  generalize runtime.patience = patience
  induction patience generalizing at_ start w with
  | zero => exact yields_pauseUntil (survives { point := .rerun } trivial fun _ never => by cases never) _ now
  | succ patience ih =>
    apply yields_read
    split
    · exact yields_update (walked.beside now rfl)
    · have own := walked.queued now
      refine yields_bind (yields_update (walked.taken now)) fun _ _ _ _ now _ => ?_
      refine yields_bind (drainFrames_yields ring walked survives own now) fun _ _ _ w now _ => ?_
      refine yields_bind (yields_update (walked.beside now rfl)) fun _ _ _ w now _ => yields_read ?_
      split
      · exact yields_bind (yields_update (walked.beside now rfl)) fun _ _ _ _ now _ => ih now
      · exact ⟨now, trivial⟩

/-! ## Epochs and other messages -/

theorem handleEpoch_yields {epoch selfPeerIndex : ℤ} {keys : KeyBundles K} (now : holds at_ start w)
    (installs : ∀ installed, w.installEpoch epoch selfPeerIndex keys = .ok installed → holds at_ start installed) :
    Yields contract holds (handleEpoch runtime epoch selfPeerIndex keys) (fun _ => True) at_ start w := by
  simp only [Yields, handleEpoch, meets_bind, meets_read, meets_settle]
  split
  · rename_i installed ok
    exact drainPreEpochQueue_yields ring walked survives (installs installed ok)
  · exact now

/-- A message keeps a reading that is not about the configuration either. -/
theorem handleMessage_yields (unconfigured : Unconfigured holds) {msg : InMsg K} (now : holds at_ start w)
    (installs : ∀ epoch selfPeerIndex keys, msg = .epoch epoch selfPeerIndex keys ∨
      msg = .rotate epoch selfPeerIndex keys →
      ∀ installed, w.installEpoch epoch selfPeerIndex keys = .ok installed → holds at_ start installed)
    (tearsDown : msg = .teardown → holds at_ start w.teardown) :
    Yields contract holds (handleMessage runtime msg) (fun _ => True) at_ start w := by
  refine Media.handleMessage_yields unconfigured now (fun epoch selfPeerIndex keys named => ?_) tearsDown
  exact handleEpoch_yields ring walked survives now fun installed ok => installs _ _ _ named installed ok

end Frames

/-! ## Calls -/

section Calls
variable (undecoded : Undecoded holds) (survives : ∀ site, Survives contract holds site)

include undecoded survives

theorem decodeTransform_yields (ref : Ref) (now : holds at_ start w) :
    Yields contract holds (decodeTransform runtime ref) (fun _ => True) at_ start w := by
  refine meets_tryCatch.mpr (meets_mono (yields_bind (decodeFrame_yields undecoded.ring undecoded.walked
    (fun site _ _ => survives site) trivial now) ?_)
    (fun _ _ _ _ held => held) fun _ _ _ _ now => ⟨now, trivial⟩)
  intro _ _ _ w now _
  exact yields_read (yields_bind (yields_pause (survives _) now) fun _ _ _ w now _ =>
    yields_update (undecoded _ _ _ _ now rfl))

/-- A pipe adds nothing to what its encoder does but signals and what it enqueues. -/
theorem encodeTransform_yields (ref : Ref) (frameKind : Option FrameKind)
    (encodes : Yields contract holds (Media.encodeFrame runtime ref frameKind) (fun _ => True) at_ start w) :
    Yields contract holds (encodeTransform runtime ref frameKind) (fun _ => True) at_ start w := by
  refine meets_tryCatch.mpr (meets_mono (yields_bind encodes ?_) (fun _ _ _ _ held => held) fun _ _ error w now =>
    yields_update (undecoded.walked.core now (core_dropEncoded w error)))
  intro _ _ _ w now _
  exact yields_read (yields_bind (yields_pause (survives _) now) fun _ _ _ w now _ =>
    yields_update (undecoded _ _ _ _ now rfl))

/-- Every call keeps such a reading when its messages, its encoder and its timer do. -/
theorem program_yields {call : Call K} (now : holds at_ start w)
    (messages : ∀ msg, call = .message msg →
      Yields contract holds (handleMessage runtime msg) (fun _ => True) at_ start w)
    (encodes : ∀ ref frameKind w, holds at_ start w →
      Yields contract holds (Media.encodeFrame runtime ref frameKind) (fun _ => True) at_ start w)
    (wipes : ∀ epoch, call = .wipeTimer epoch → w.wipeTimers.has epoch = true →
      holds at_ start (w.wipeEpoch runtime.guard epoch)) :
    Yields contract holds (call.program runtime) (fun _ => True) at_ start w := by
  have done {program : Task K G Unit} (yields : Yields contract holds program (fun _ => True) at_ start w) :
      Yields contract holds (do program; return .done : Task K G Outcome) (fun _ => True) at_ start w :=
    yields_bind yields fun _ _ _ _ now _ => ⟨now, trivial⟩
  have received {α : Type} (frame : EncodedFrame) {rest : Ref → Task K G α}
      (next : ∀ ref w, holds at_ start w → Yields contract holds (rest ref) (fun _ => True) at_ start w) :
      Yields contract holds (receive frame >>= rest) (fun _ => True) at_ start w := by
    simp only [Yields, receive, meets_bind, meets_read, meets_update, meets_pure]
    exact next _ _ (undecoded _ _ _ _ now rfl)
  cases call with
  | message msg => exact done (messages msg rfl)
  | wipeTimer epoch =>
    refine done (yields_read ?_)
    split
    · rename_i pending
      exact yields_update (wipes epoch rfl pending)
    · exact ⟨now, trivial⟩
  | tick elapsed => exact done (yields_update (undecoded _ _ _ _ now rfl))
  | transform side frame =>
    cases side with
    | encode =>
      exact received frame fun ref w now => yields_bind
        (encodeTransform_yields undecoded survives ref _ (encodes ref _ w now)) fun _ _ _ _ now _ => ⟨now, trivial⟩
    | decode =>
      exact received frame fun ref w now => yields_bind (decodeTransform_yields undecoded survives ref now)
        fun _ _ _ _ now _ => ⟨now, trivial⟩
  | encodeFrame frame =>
    exact received frame fun ref w now => yields_bind (encodes ref _ w now) fun _ _ _ _ now _ => ⟨now, trivial⟩
  | decodeFrame frame =>
    exact received frame fun ref w now => yields_bind (decodeFrame_yields undecoded.ring undecoded.walked
    (fun site _ _ => survives site) trivial now)
      fun _ _ _ _ now _ => ⟨now, trivial⟩
  | tryDecryptWithRatchet opening =>
    exact yields_bind (tryDecryptWithRatchet_yields undecoded.ring (fun _ => survives _) opening now)
      fun _ _ _ _ now _ => ⟨now, trivial⟩
  | drainPreEpochQueue => exact done (drainPreEpochQueue_yields undecoded.ring undecoded.walked
      (fun site _ _ => survives site) now)

end Calls
end SFrameRatchet.DecodeWalk
