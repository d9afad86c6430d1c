import SFrameRatchet.FrameWalk
import SFrameRatchet.Notes
import SFrameRatchet.Specimen
import SFrameRatchet.TailDrop
import SFrameRatchet.WorkerChanges

/-! The discipline of the pre-epoch queue. `pushToQueue` is the push of a queue that
drops its newest entry, and everything else a call does to the queue is to take it as a
whole or to set its bound. Frames stand in the queue in the order in which they came, as
long as none is parked past one that came earlier or while a drain holds some. -/
namespace SFrameRatchet.QueueDiscipline
open Collections Crypto Kid Header SFrame CodecPartial Throwing Coroutine Interleaving Media FrameWalk Notes TailDrop
  Tracing WorkerChanges

variable {K G ι : Type} {runtime : Runtime K G}

/-! ## The queue as a shelf -/

/-- How many overflows have been reported. -/
def overflows (w : Worker K G) : ℕ := w.emitted.countP reportsOverflow

def shelf (w : Worker K G) : TailDrop.Shelf Ref := ⟨w.preEpochQueue, w.preEpochQueueCap, overflows w⟩

variable {start w w' : Worker K G}

theorem overflows_signals (signals : Signals w w') : overflows w' = overflows w := by
  obtain ⟨more, emitted, quiet⟩ := signals
  have none : more.countP reportsOverflow = 0 := List.countP_eq_zero.mpr fun msg member => by simp [quiet msg member]
  rw [overflows, emitted, List.countP_append, none]
  rfl

theorem signals_noteStarveDrop (w : Worker K G) (peerIndex : Option ℤ) : Signals w (w.noteStarveDrop peerIndex) := by
  unfold Worker.noteStarveDrop
  split
  · exact signals_emit _ rfl
  · dsimp only
    split
    · exact signals_emit _ rfl
    · exact signals_refl w

/-- **Parking a frame** pushes it onto the shelf. -/
theorem shelf_pushToQueue (w : Worker K G) (frame : Ref) (peerIndex : Option ℤ) :
    shelf (w.pushToQueue frame peerIndex) = (shelf w).push frame := by
  by_cases full : w.preEpochQueueCap ≤ w.preEpochQueue.length
  · have pushed : (shelf w).push frame = ⟨w.preEpochQueue.dropLast ++ [frame], w.preEpochQueueCap, overflows w + 1⟩ :=
      if_pos full
    rw [pushed]
    simp only [Worker.pushToQueue, ge_iff_le, full, ↓reduceIte]
    generalize dropped : { w with preEpochQueue := w.preEpochQueue.dropLast }.emit
      (.decryptFailure .queueOverflow none none none none none) = v
    have counted : overflows v = overflows w + 1 := by
      rw [← dropped]
      simp [overflows, Worker.emit, reportsOverflow]
    have signals := signals_trans (signals_emitMetric v (.queueDrop .preEpochFull none))
      (signals_noteStarveDrop (v.emitMetric (.queueDrop .preEpochFull none)) peerIndex)
    have same : ((v.emitMetric (.queueDrop .preEpochFull none)).noteStarveDrop peerIndex).core = v.core := by simp
    have queue := congrArg (·.preEpochQueue) same
    have cap := congrArg (·.preEpochQueueCap) same
    have total := (overflows_signals signals).trans counted
    simp only [Worker.core] at queue cap
    have left : v.preEpochQueue = w.preEpochQueue.dropLast ∧ v.preEpochQueueCap = w.preEpochQueueCap := by
      rw [← dropped]
      exact ⟨rfl, rfl⟩
    rw [left.1] at queue
    rw [left.2] at cap
    generalize (v.emitMetric (.queueDrop .preEpochFull none)).noteStarveDrop peerIndex = room at *
    rw [← queue, ← cap, ← total]
    rfl
  · have pushed : (shelf w).push frame = ⟨w.preEpochQueue ++ [frame], w.preEpochQueueCap, overflows w⟩ := if_neg full
    rw [pushed]
    simp only [Worker.pushToQueue, ge_iff_le, full, ↓reduceIte]
    rfl

/-- What the discipline of the queue is about. -/
def lane (w : Worker K G) := (shelf w, w.draining, w.currentEpoch, w.frames.next)

theorem lane_core (same : w'.core = w.core) (signals : Signals w w') : lane w' = lane w := by
  have around := congrArg (fun v => (v.preEpochQueue, v.preEpochQueueCap, v.draining, v.currentEpoch, v.frames.next))
    same
  simp only [Worker.core, Prod.mk.injEq] at around
  obtain ⟨queue, cap, draining, current, next⟩ := around
  simp only [lane, shelf, queue, cap, draining, current, next, overflows_signals signals]

theorem lane_encodes {frame : Ref} (encodes : Encodes frame w w') : lane w' = lane w := by
  have around := congrArg (fun v => (v.preEpochQueue, v.preEpochQueueCap, v.draining, v.currentEpoch)) encodes.same
  simp only [beyondEncoding, Prod.mk.injEq] at around
  obtain ⟨queue, cap, draining, current⟩ := around
  simp only [lane, shelf, queue, cap, draining, current, encodes.next, overflows_signals encodes.emitted]

/-! ## Reports -/

theorem lane_posted (posted : Posted w w') : lane w' = lane w :=
  lane_core (posted.view Worker.core fun _ _ _ => rfl) (signals_posted posted)

theorem lane_clearStarve (w : Worker K G) : lane w.clearStarve = lane w := by
  unfold Worker.clearStarve
  split <;> rfl

theorem lane_acceptReplay (w : Worker K G) (slot : Slot) (object frame : ℕ) :
    lane (w.acceptReplay slot object frame) = lane w := by
  obtain ⟨windows, accepted⟩ := Worker.acceptReplay_eq w slot object frame
  rw [accepted]
  rfl

theorem signals_installEpoch {epoch selfPeerIndex : ℤ} {keys : KeyBundles K}
    (ok : w.installEpoch epoch selfPeerIndex keys = .ok w') : Signals w w' := by
  obtain ⟨more, posted, quiet⟩ := posted_installEpoch ok
  refine ⟨more, posted, fun msg member => ?_⟩
  have still := quiet msg member
  unfold reportsOverflow
  split
  · cases still
  · rfl

/-! ## Parts of calls that leave the queue alone -/

/-- The reading is about the lane and nothing else of the state reached. -/
def Laned (holds : Reading K G) : Prop :=
  ∀ at_ start w w', holds at_ start w → lane w' = lane w → holds at_ start w'

section Laned
variable {holds : Reading K G} (laned : Laned holds) {contract : Contract AwaitPoint (Worker K G)} {at_ : AwaitPoint}

include laned

theorem Laned.bystander (entry : Ref) (peerIndex : ℤ) : Bystander holds entry peerIndex where
  quiet {_ _ w w'} now same signals := by
    apply laned _ _ w w' now
    have around := congrArg (fun v => (v.preEpochQueue, v.preEpochQueueCap, v.draining, v.currentEpoch, v.frames.next))
      same
    simp only [beyondRatchet, Prod.mk.injEq] at around
    obtain ⟨queue, cap, draining, current, next⟩ := around
    simp only [lane, shelf, queue, cap, draining, current, next, overflows_signals signals]
  advances now _ _ := laned _ _ _ _ now rfl

theorem Laned.guardless : Guardless holds := fun _ _ _ _ now => laned _ _ _ _ now rfl

theorem Laned.unencoded (frame : Ref) : Unencoded holds frame :=
  fun _ _ _ _ now encodes => laned _ _ _ _ now (lane_encodes encodes)

theorem Laned.unchecked : Unchecked holds := fun _ _ w w' now same =>
  laned _ _ _ _ now (congrArg lane same : lane (beyondChecks w') = lane (beyondChecks w))

variable {frame : Ref} {payload : Bytes} {held : Slot × ℕ}

theorem openResolved_yields (guess : FormatGuess) (probed : Option Probed)
    (survives : ∀ point, Survives contract holds
      { point := .ratchet point, frame := some frame, payload := some payload, slot := some held })
    (now : holds at_ start w) :
    Yields contract holds (openResolved runtime frame held payload guess probed) (fun _ => True) at_ start w := by
  cases probed with
  | some found => exact yields_bind (yields_update (laned _ _ w _ now rfl)) fun _ _ _ _ now _ => ⟨now, trivial⟩
  | none =>
    refine yields_bind (yields_attempt (tryDecryptWithRatchet_yields survives laned.bystander _ now))
      fun _ _ outcome _ now _ => ?_
    refine yields_bind (yields_pause (survives _) now) fun _ _ _ _ now _ => ?_
    refine yields_bind (yields_settle now fun _ opens => opens) fun _ _ opened w now _ => ?_
    exact yields_bind (yields_update (laned _ _ w _ now rfl)) fun _ _ _ _ now _ => ⟨now, trivial⟩

theorem acceptFrame_yields (guess : FormatGuess) (opened : Bytes)
    (survives : Survives contract holds { point := .durableAccept, frame := some frame, payload := some payload })
    (now : holds at_ start w) :
    Yields contract holds (acceptFrame runtime frame held payload guess opened) (fun _ => True) at_ start w := by
  have accepted := laned _ _ w _ now (lane_acceptReplay w held.1 held.2 frame)
  refine yields_bind (yields_update accepted) fun _ _ _ _ now _ => ?_
  refine yields_bind (durableAccept_yields laned.guardless survives _ now) fun _ _ _ w now _ => ?_
  refine yields_bind (yields_update (laned _ _ w _ now (lane_posted (posted_recordSuccess w _ _)))) fun _ _ _ w now _ =>
    ?_
  refine yields_bind (yields_update (laned _ _ w _ now rfl)) fun _ _ _ w now _ => ?_
  exact yields_update (laned _ _ w _ now (lane_clearStarve w))

end Laned

/-- Parking a frame puts it behind the others. -/
theorem pushToQueue_parts (w : Worker K G) (frame : Ref) (peerIndex : Option ℤ) :
    (∃ kept, kept.Sublist w.preEpochQueue ∧ (w.pushToQueue frame peerIndex).preEpochQueue = kept ++ [frame]) ∧
      (w.pushToQueue frame peerIndex).draining = w.draining ∧
        (w.pushToQueue frame peerIndex).frames.next = w.frames.next := by
  obtain ⟨kept, fewer, same⟩ := Worker.core_pushToQueue w frame peerIndex
  have parts := congrArg (fun v => (v.preEpochQueue, v.draining, v.frames.next)) same
  simp only [Worker.core, Prod.mk.injEq] at parts
  exact ⟨⟨kept, fewer, parts.1⟩, parts.2⟩

/-! ## Decoding -/

/-- The frame that a call decodes. -/
def decoding : Call K → Option EncodedFrame
  | .decodeFrame frame | .transform .decode frame => some frame
  | _ => none

/-- The frame whose format a decode call searches for at a site. -/
def seeking (site : AwaitPoint) : Option Ref :=
  match site.point with
  | .probe | .probed => site.frame
  | _ => none

theorem seeking_frame {site : AwaitPoint} {ref : Ref} (seeks : seeking site = some ref) : site.frame = some ref := by
  unfold seeking at seeks
  split at seeks
  · exact seeks
  · exact seeks
  · cases seeks

/-- The format of a frame that arrives is cached, so its header is found without waiting. -/
def foundAtOnce (w : Worker K G) (frame : EncodedFrame) : Bool :=
  match sifPayload w.sifTrailer frame.data with
  | none => false
  | some payload => (cachedFormat w payload (min (getUnencryptedBytes w.codec frame.kind) payload.length)).isSome

/-- A decode call that is resumed at the site is done with its search for a format. -/
def Decides (w : Worker K G) (frame : EncodedFrame) (site : AwaitPoint) : Prop :=
  site.point = .probed ∨ site.point = .start ∧ foundAtOnce w frame = true

/-- Whose header a decode call has found since it was resumed. -/
def Own (at_ : AwaitPoint) (start : Worker K G) (ref : Ref) (w : Worker K G) : Prop :=
  seeking at_ = some ref ∨ at_ = { point := .start } ∧ start.frames.next ≤ ref ∧ ref < w.frames.next

/-- A decode call parks its frame. -/
structure Parks (frame : EncodedFrame) (at_ : AwaitPoint) (start : Worker K G) (ref : Ref) (w : Worker K G) : Prop where
  current : start.currentEpoch = -1
  decides : Decides start frame at_
  own : Own at_ start ref w
  queue : ∃ kept, kept.Sublist start.preEpochQueue ∧ w.preEpochQueue = kept ++ [ref]

/-- What a decode call does between two suspensions, and the frame whose format it
searches for at the second. -/
structure Sought (frame : EncodedFrame) (at_ : AwaitPoint) (start : Worker K G) (seeks : Option Ref) (w : Worker K G) :
    Prop where
  next : start.frames.next ≤ w.frames.next
  draining : w.draining = start.draining
  queue : w.preEpochQueue = start.preEpochQueue ∨ seeks = none ∧ ∃ ref, Parks frame at_ start ref w
  own : ∀ ref, seeks = some ref → Own at_ start ref w

/-- The call has found the header of its frame and has done nothing since. -/
structure Deciding (frame : EncodedFrame) (ref : Ref) (at_ : AwaitPoint) (start w : Worker K G) : Prop where
  shelf : shelf w = shelf start
  draining : w.draining = start.draining
  current : w.currentEpoch = start.currentEpoch
  next : start.frames.next ≤ w.frames.next
  decides : Decides start frame at_
  own : Own at_ start ref w

section Decoding
variable {frame : EncodedFrame} {ref : Ref} {at_ : AwaitPoint}

def searches (frame : EncodedFrame) : Contract AwaitPoint (Worker K G) where
  assume _ _ := True
  moves at_ start site w := Sought frame at_ start (seeking site) w

/-- The call is done with its frame, or on the way from the header to its bytes. -/
def Past (frame : EncodedFrame) : Reading K G := fun at_ start w => Sought frame at_ start none w

theorem own_lane {v : Worker K G} (own : Own at_ start ref w) (next : v.frames.next = w.frames.next) :
    Own at_ start ref v := by
  rw [Own, next]
  exact own

theorem past_laned : Laned (Past frame : Reading K G) := by
  intro at_ start w w' now same
  simp only [lane, Prod.mk.injEq] at same
  obtain ⟨shelves, draining, -, next⟩ := same
  have queue : w'.preEpochQueue = w.preEpochQueue := congrArg TailDrop.Shelf.queue shelves
  refine ⟨next ▸ now.next, draining.trans now.draining, ?_, nofun⟩
  rcases now.queue with still | ⟨-, ref, parks⟩
  · exact .inl (queue.trans still)
  · exact .inr ⟨rfl, ref, parks.current, parks.decides, own_lane parks.own next, queue ▸ parks.queue⟩

theorem past_refl (site : AwaitPoint) (w : Worker K G) : Past frame site w w :=
  ⟨le_rfl, rfl, .inl rfl, nofun⟩

theorem past_survives {site : AwaitPoint} (quiet : seeking site = none) :
    Survives (searches frame) (Past frame : Reading K G) site := by
  intro at_ start w now
  refine ⟨?_, fun later _ => past_refl site later⟩
  change Sought frame at_ start (seeking site) w
  rw [quiet]
  exact now

theorem past_of_deciding (deciding : Deciding frame ref at_ start w) : Past frame at_ start w :=
  ⟨deciding.next, deciding.draining, .inl (congrArg TailDrop.Shelf.queue deciding.shelf), nofun⟩

theorem past_of_parked (deciding : Deciding frame ref at_ start w) (current : w.currentEpoch = -1) (peerIndex : ℤ) :
    Past frame at_ start (w.enqueuePreEpoch ref peerIndex) := by
  obtain ⟨⟨kept, fewer, queue⟩, draining, next⟩ := pushToQueue_parts w ref (some peerIndex)
  have waiting : w.preEpochQueue = start.preEpochQueue := congrArg TailDrop.Shelf.queue deciding.shelf
  refine ⟨next ▸ deciding.next, draining.trans deciding.draining, .inr ⟨rfl, ref, ?_⟩, nofun⟩
  exact ⟨deciding.current ▸ current, deciding.decides, own_lane deciding.own next, kept, waiting ▸ fewer, queue⟩

/-- A drop is reported and thrown. -/
theorem drop_meets {report : Worker K G → Worker K G} (same : ∀ v, lane (report v) = lane v) (refused : JsError)
    {α : Type} {result : α → Prop} (now : Past frame at_ start w) :
    Yields (searches frame) (Past frame) (do update report; throw refused : Task K G α) result at_ start w :=
  yields_bind (yields_update (past_laned _ _ w _ now (same w))) fun _ _ _ _ now _ => now

theorem decodePayload_yields (deciding : Deciding frame ref at_ start w) (payload : Bytes) (guess : FormatGuess)
    (probed : Option Probed) (hdr : SFrameHeader) :
    Yields (searches frame) (Past frame) (decodePayload runtime ref payload guess probed hdr) (fun _ => True)
      at_ start w := by
  have now := past_of_deciding deciding
  apply yields_read
  dsimp only
  split
  · exact drop_meets (fun v => lane_posted (posted_reportStale v hdr _ _ _)) _ now
  · split
    · rename_i waiting
      exact yields_bind (yields_update (past_of_parked deciding waiting _)) fun _ _ _ _ now _ => ⟨now, trivial⟩
    · refine yields_bind (checkReplay_yields past_laned.unchecked _ now) fun _ _ object _ now _ => ?_
      cases object with
      | none => exact drop_meets (fun v => lane_posted (posted_reportReplay v hdr _ _)) _ now
      | some object =>
        refine yields_bind (durableCheck_yields past_laned.guardless (past_survives rfl) _ now) fun _ _ fresh _ now _ =>
          ?_
        split
        · exact drop_meets (fun v => lane_posted (posted_reportReplay v hdr _ _)) _ now
        · apply yields_read
          split
          · exact drop_meets (fun v => lane_posted (posted_reportKeyInvalid v hdr _ _)) _ now
          · refine yields_bind (openResolved_yields past_laned guess probed (fun _ => past_survives rfl) now)
              fun _ _ opened _ now _ => ?_
            refine yields_bind (acceptFrame_yields past_laned guess opened (past_survives rfl) now)
              fun _ _ _ w now _ => ?_
            exact yields_bind (yields_update (past_laned _ _ w _ now (lane_posted (posted_emitMetric w _))))
              fun _ _ _ _ now _ => ⟨now, trivial⟩

/-- The call searches for the format of its frame, since it has come or since it was resumed. -/
def Searching (frame : EncodedFrame) (ref : Ref) : Reading K G := fun at_ start w =>
  at_ = { point := .start } ∧ ref = start.frames.next ∧ w = receiveFrame frame start ∨
    seeking at_ = some ref ∧ w = start

theorem searching_survives {site : AwaitPoint} (seeks : seeking site = some ref) :
    Survives (searches frame) (Searching frame ref : Reading K G) site := by
  intro at_ start w now
  refine ⟨?_, fun later _ => .inr ⟨seeks, rfl⟩⟩
  change Sought frame at_ start (seeking site) w
  rw [seeks]
  rcases now with ⟨begins, rfl, rfl⟩ | ⟨sought, rfl⟩
  · have next : (receiveFrame frame start).frames.next = start.frames.next + 1 := rfl
    refine ⟨Nat.le_succ _, rfl, .inl rfl, ?_⟩
    rintro other same
    obtain rfl := Option.some.inj same
    exact .inr ⟨begins, le_rfl, by rw [next]; exact Nat.lt_succ_self _⟩
  · refine ⟨le_rfl, rfl, .inl rfl, ?_⟩
    rintro other same
    obtain rfl := Option.some.inj same
    exact .inl sought

theorem past_of_searching (searching : Searching frame ref at_ start w) : Past frame at_ start w := by
  rcases searching with ⟨-, rfl, rfl⟩ | ⟨-, rfl⟩
  · exact ⟨Nat.le_succ _, rfl, .inl rfl, nofun⟩
  · exact past_refl at_ w

/-- **The search for a format** ends at once, or where the call has waited for its end. -/
theorem resolveFormat_decides {start : Worker K G} {payload : Bytes}
    (stripped : sifPayload start.sifTrailer frame.data = some payload) :
    Meets (searches frame) (resolveFormat runtime start.frames.next payload start.codec frame.kind)
      (fun at_ start' _ w => Deciding frame start.frames.next at_ start' w) (fun at_ start' _ w =>
        Past frame at_ start' w)
      { point := .start } start (receiveFrame frame start) := by
  have searching : Searching frame start.frames.next { point := .start } start (receiveFrame frame start) :=
    .inl ⟨rfl, rfl, rfl⟩
  have probing : Yields (searches frame) (Searching frame start.frames.next)
      (probeFormat runtime start.frames.next payload (formatCandidates start.codec frame.kind)) (fun _ => True)
      { point := .start } start (receiveFrame frame start) :=
    FrameWalk.probeFormat_yields start.frames.next payload (searching_survives rfl) _ searching
  unfold resolveFormat
  simp only [meets_bind, meets_read]
  have same : cachedFormat (receiveFrame frame start) payload (min (getUnencryptedBytes start.codec frame.kind)
      payload.length) = cachedFormat start payload (min (getUnencryptedBytes start.codec frame.kind) payload.length) :=
        rfl
  rw [same]
  cases cached : cachedFormat start payload (min (getUnencryptedBytes start.codec frame.kind) payload.length) with
  | some guess =>
    have found : foundAtOnce start frame = true := by simp only [foundAtOnce, stripped, cached, Option.isSome_some]
    exact ⟨rfl, rfl, rfl, Nat.le_succ _, .inr ⟨rfl, found⟩, .inr ⟨rfl, le_rfl, Nat.lt_succ_self _⟩⟩
  | none =>
    refine meets_after probing (fun _ _ outcome w now _ => ?_) fun _ _ _ _ now => past_of_searching now
    simp only [meets_bind, meets_pause]
    have survives : Survives (searches frame) (Searching frame start.frames.next : Reading K G)
        { point := .probed, frame := some start.frames.next, payload := some payload } := searching_survives rfl
    refine ⟨(survives _ _ _ now).1, fun later _ => ?_⟩
    have decides : Deciding frame start.frames.next
        { point := .probed, frame := some start.frames.next, payload := some payload } later later :=
      ⟨rfl, rfl, rfl, le_rfl, .inl rfl, .inl rfl⟩
    cases outcome with
    | none => exact decides
    | some found => exact decides

theorem decodeFrame_yields (start : Worker K G) :
    Yields (searches frame) (Past frame) (decodeFrame runtime start.frames.next) (fun _ => True)
      { point := .start } start (receiveFrame frame start) := by
  have arrived : (receiveFrame frame start).frames.read start.frames.next = frame := by simp [receiveFrame]
  have trailer : (receiveFrame frame start).sifTrailer = start.sifTrailer := rfl
  apply yields_read
  rw [arrived, trailer]
  dsimp only
  cases stripped : sifPayload start.sifTrailer frame.data with
  | none => exact ⟨past_of_searching (.inl ⟨rfl, rfl, rfl⟩), trivial⟩
  | some payload =>
    refine meets_bind.mpr (meets_mono (resolveFormat_decides stripped) (fun at_ start' resolved w deciding => ?_)
      fun _ _ _ _ now => now)
    apply yields_read
    cases parseHeader (payload.drop resolved.1.prefixLen) with
    | error refused => exact drop_meets (fun v => lane_posted (posted_failDecode v _ _)) _ (past_of_deciding deciding)
    | ok hdr =>
      have noted : Deciding frame start.frames.next at_ start' { w with resolved := w.resolved ++
          [(start.frames.next, ⟨(w.kidCodec.decode hdr.kid).1, (w.kidCodec.decode hdr.kid).2, hdr.ctr⟩)] } :=
        ⟨deciding.shelf, deciding.draining, deciding.current, deciding.next, deciding.decides, deciding.own⟩
      simp only [Yields, meets_bind, meets_update, meets_tryCatch]
      refine meets_mono (decodePayload_yields noted payload resolved.1 resolved.2 hdr) (fun _ _ _ _ held => held) ?_
      intro at_ start' refused w now
      exact past_laned _ _ w _ now (lane_posted (posted_failDecode w _ refused))

theorem decodeTransform_yields (start : Worker K G) :
    Yields (searches frame) (Past frame) (decodeTransform runtime start.frames.next) (fun _ => True)
      { point := .start } start (receiveFrame frame start) := by
  refine meets_tryCatch.mpr (meets_mono (yields_bind (decodeFrame_yields start) ?_)
    (fun _ _ _ _ held => held) fun _ _ _ _ now => ⟨now, trivial⟩)
  intro _ _ _ w now _
  exact yields_read (yields_bind (yields_pause (past_survives rfl) now) fun _ _ _ w now _ =>
    yields_update (past_laned _ _ w _ now rfl))

end Decoding

/-! ## Everything else -/

/-- What is remembered of a call: where a decode call waits, and the frames that a drain
has in its hand. -/
structure Note where
  site : AwaitPoint := { point := .start }
  hand : Option (List Ref) := none

def inHand (frames : List Ref) : Note := { hand := some frames }

/-- The queue, and behind it the frames in a hand. -/
def line (w : Worker K G) (note : Note) : List Ref := w.preEpochQueue ++ note.hand.getD []

/-- What a call other than a decode call makes of the queue and its hand. -/
structure Held (first : Note) (start : Worker K G) (last : Note) (w : Worker K G) : Prop where
  next : start.frames.next ≤ w.frames.next
  line : (line w last).Sublist (line start first)
  busy : (first.hand.isSome → start.draining = true) → last.hand.isSome → w.draining = true
  aside : first.hand = none → start.draining = true → last.hand = none ∧ w.draining = true

section Held
variable {first note last : Note}

theorem held_trans {v : Worker K G} (earlier : Held first start note w) (later : Held note w last v) :
    Held first start last v where
  next := earlier.next.trans later.next
  line := later.line.trans earlier.line
  busy was := later.busy (earlier.busy was)
  aside empty draining := by
    obtain ⟨empty, draining⟩ := earlier.aside empty draining
    exact later.aside empty draining

/-- What leaves the queue alone may let go of a part of the hand. -/
theorem held_of_shelf (shelves : shelf w' = shelf w) (draining : w'.draining = w.draining)
    (next : w'.frames.next = w.frames.next) (hands : (last.hand.getD []).Sublist (note.hand.getD []))
    (keeps : last.hand.isSome = note.hand.isSome) : Held note w last w' := by
  have queue : w'.preEpochQueue = w.preEpochQueue := congrArg TailDrop.Shelf.queue shelves
  constructor
  · exact le_of_eq next.symm
  · rw [line, line, queue]
    exact hands.append_left _
  · intro busy some
    rw [draining]
    exact busy (keeps ▸ some)
  · intro empty busy
    rw [empty, Option.isSome_none, Option.isSome_eq_false_iff, Option.isNone_iff_eq_none] at keeps
    exact ⟨keeps, draining.trans busy⟩

theorem held_of_lane (same : lane w' = lane w) (hands : (last.hand.getD []).Sublist (note.hand.getD []))
    (keeps : last.hand.isSome = note.hand.isSome) : Held note w last w' := by
  simp only [lane, Prod.mk.injEq] at same
  exact held_of_shelf same.1 same.2.1 same.2.2.2 hands keeps

theorem held_refl (note : Note) (w : Worker K G) : Held note w note w :=
  held_of_lane rfl (List.Sublist.refl _) rfl

def holding : Terms AwaitPoint Note (Worker K G) where
  assume _ _ _ := True
  fits _ _ := True
  carried := Held
  refl := held_refl
  trans := held_trans

/-- A part of a call that has one note when it begins and another when it returns. -/
abbrev Leads {α : Type} (program : Task K G α) (note last : Note) (w : Worker K G) : Prop :=
  Accounts holding program (fun _ reached _ => reached = last) (fun _ reached _ => reached = note) note w

/-- A part that does not throw. -/
abbrev Finishes (program : Task K G Unit) (note last : Note) (w : Worker K G) : Prop :=
  Accounts holding program (fun _ reached _ => reached = last) (fun _ _ _ => False) note w

variable {α β : Type}

/-- The part leaves the lane alone. -/
def Steady : Reading K G := fun _ start w => lane w = lane start

theorem steady_laned : Laned (Steady : Reading K G) := fun _ _ _ _ now same => same.trans now

theorem steady_survives (site : AwaitPoint) : Survives ((holding (K := K) (G := G)).still note) Steady site :=
  fun _ _ _ now => ⟨⟨trivial, held_of_lane now (List.Sublist.refl _) rfl⟩, fun _ _ => rfl⟩

theorem stays {program : Task K G α} {result : α → Prop}
    (kept : Yields (holding.still note) Steady program result { point := .start } w w) :
    Leads program note note w :=
  accounts_still kept (fun _ _ _ now => held_of_lane now (List.Sublist.refl _) rfl) (fun _ _ _ _ _ _ => rfl)
    fun _ _ _ _ _ => rfl

theorem stays_update {change : Worker K G → Worker K G} (same : lane (change w) = lane w) :
    Finishes (update change) note note w :=
  accounts_update note (held_of_lane same (List.Sublist.refl _) rfl) rfl

theorem finishes_bind {program rest : Task K G Unit} {middle : Note} (kept : Finishes program note middle w)
    (further : ∀ w, Finishes rest middle last w) : Finishes (do program; rest) note last w := by
  apply accounts_bind
  apply accounts_mono kept
  · rintro _ _ w rfl
    exact further w
  · exact fun _ _ _ never => never.elim

/-- What comes after a part that keeps the note. -/
theorem stays_bind {program : Task K G α} {rest : α → Task K G β} (kept : Leads program note note w)
    (further : ∀ value w, Leads (rest value) note last w) : Leads (program >>= rest) note last w := by
  apply accounts_bind
  apply accounts_mono kept
  · rintro value _ w rfl
    exact further value w
  · exact fun _ _ _ thrown => thrown

theorem held_installEpoch {epoch selfPeerIndex : ℤ} {keys : KeyBundles K}
    (ok : w.installEpoch epoch selfPeerIndex keys = .ok w') : Held {} w {} w' := by
  obtain ⟨table, -, same⟩ := Worker.core_installEpoch ok
  have around : (w'.preEpochQueue, w'.preEpochQueueCap, w'.draining, w'.frames.next) =
      (w.preEpochQueue, w.preEpochQueueCap, w.draining, w.frames.next) := by
    have part : (w'.preEpochQueue, w'.preEpochQueueCap, w'.draining, w'.frames.next) =
      (w'.core.preEpochQueue, w'.core.preEpochQueueCap, w'.core.draining, w'.core.frames.next) := rfl
    rw [part, same]
    split <;> rfl
  simp only [Prod.mk.injEq] at around
  obtain ⟨queue, cap, draining, next⟩ := around
  refine held_of_shelf ?_ draining next (List.Sublist.refl _) rfl
  rw [shelf, queue, cap, overflows_signals (signals_installEpoch ok)]
  rfl

/-! ### The drain -/

variable {frame : Ref} {rest : List Ref}

theorem held_drop (same : lane w' = lane w) : Held (inHand (frame :: rest)) w (inHand rest) w' :=
  held_of_lane same (List.sublist_cons_self frame rest) rfl

theorem drops {change : Worker K G → Worker K G} (same : lane (change w) = lane w) :
    Leads (update change) (inHand (frame :: rest)) (inHand rest) w :=
  accounts_update _ (held_drop same) rfl

/-- A frame that waits on goes back behind those that came earlier. -/
theorem held_requeue (peerIndex : Option ℤ) :
    Held (inHand (frame :: rest)) w (inHand rest) (w.pushToQueue frame peerIndex) := by
  obtain ⟨⟨kept, fewer, queue⟩, draining, next⟩ := pushToQueue_parts w frame peerIndex
  constructor
  · exact le_of_eq next.symm
  · simp only [line, inHand, queue, Option.getD_some, List.append_assoc, List.cons_append, List.nil_append]
    exact fewer.append_right _
  · intro busy some
    rw [draining]
    exact busy rfl
  · nofun

theorem drainPayload_leads (raw : Bytes) (guess : FormatGuess) (probed : Option Probed) (hdr : SFrameHeader) :
    Leads (drainPayload runtime frame raw guess probed hdr) (inHand (frame :: rest)) (inHand rest) w := by
  apply accounts_read
  dsimp only
  split
  · exact accounts_onward _ (held_drop rfl) (accounts_pure rfl)
  · split
    · exact accounts_update _ (held_requeue _) rfl
    · refine stays_bind (stays (checkReplay_yields steady_laned.unchecked _ rfl)) fun object w => ?_
      cases object with
      | none => exact drops (lane_posted (posted_reportReplay w hdr _ _))
      | some object =>
        refine stays_bind (stays (durableCheck_yields steady_laned.guardless (steady_survives _) _ rfl))
          fun fresh w => ?_
        split
        · exact drops (lane_posted (posted_reportReplay w hdr _ _))
        · apply accounts_read
          split
          · exact drops (lane_posted (posted_reportKeyInvalid w hdr _ _))
          · refine stays_bind (stays (openResolved_yields steady_laned guess probed (fun _ => steady_survives _) rfl))
              fun opened w => accounts_ending ?_
            apply accounts_mono (stays (acceptFrame_yields steady_laned guess opened (steady_survives _) rfl))
            · rintro _ _ w rfl
              exact ⟨_, held_drop rfl, rfl⟩
            · exact fun _ _ _ thrown => thrown

theorem drainFrame_finishes :
    Finishes (drainFrame runtime frame) (inHand (frame :: rest)) (inHand rest) w := by
  have resolves (payload : Bytes) (codec : Option Codec) (frameKind : Option FrameKind) :
      Leads (resolveFormat runtime frame payload codec frameKind) (inHand (frame :: rest))
        (inHand (frame :: rest)) w := by
    apply stays
    apply meets_mono (resolveFormat_meets frame payload codec frameKind (steady_survives _) (steady_survives _) rfl)
    · exact fun _ _ _ _ held => ⟨held.1, trivial⟩
    · exact fun _ _ _ _ now => now
  apply accounts_read
  apply accounts_tryCatch
  apply accounts_mono (stays_bind (resolves _ _ _) fun resolved w => ?_) (fun _ _ _ held => held)
  · rintro refused _ w rfl
    exact accounts_update _ (held_drop (lane_posted (posted_failDrain w refused))) rfl
  · apply accounts_bind
    apply accounts_settle
    · exact fun hdr _ => drainPayload_leads _ _ _ hdr
    · exact fun _ _ => rfl

theorem drainFrames_finishes (queue : List Ref) :
    Finishes (drainFrames runtime queue) (inHand queue) (inHand []) w := by
  induction queue generalizing w with
  | nil => exact accounts_pure rfl
  | cons frame rest ih => exact finishes_bind drainFrame_finishes fun _ => ih

/-- A drain takes the whole queue into its hand. -/
theorem held_take (idle : w.draining = false) :
    Held {} w (inHand w.preEpochQueue) { w with draining := true, preEpochQueue := [] } := by
  constructor
  · exact le_rfl
  · simp [line, inHand]
  · exact fun _ _ => rfl
  · intro _ busy
    rw [idle] at busy
    cases busy

theorem held_release : Held (inHand []) w {} { w with draining := false } := by
  constructor
  · exact le_rfl
  · exact List.Sublist.refl _
  · nofun
  · nofun

theorem drainPreEpochQueue_finishes : Finishes (drainPreEpochQueue runtime) {} {} w := by
  unfold drainPreEpochQueue
  generalize runtime.patience = patience
  induction patience generalizing w with
  | zero => exact accounts_pauseUntil {} trivial (held_refl {} w) fun _ _ _ => rfl
  | succ patience ih =>
    apply accounts_read
    split
    · exact stays_update rfl
    · rename_i idle
      rw [Bool.not_eq_true] at idle
      apply accounts_bind
      apply accounts_update (inHand w.preEpochQueue) (held_take idle)
      refine finishes_bind (drainFrames_finishes _) fun w => ?_
      apply accounts_bind
      apply accounts_update {} held_release
      apply accounts_read
      split
      · exact finishes_bind (stays_update rfl) fun _ => ih
      · exact accounts_pure rfl

/-! ### Messages -/

theorem handleEpoch_leads (epoch selfPeerIndex : ℤ) (keys : KeyBundles K) :
    Leads (handleEpoch runtime epoch selfPeerIndex keys) {} {} w := by
  apply accounts_read
  apply accounts_bind
  apply accounts_settle
  · intro installed ok
    apply accounts_bind
    apply accounts_update {} (held_installEpoch ok)
    exact accounts_mono drainPreEpochQueue_finishes (fun _ _ _ held => held) fun _ _ _ never => never.elim
  · exact fun _ _ => rfl

end Held

section Messages
variable {msg : InitMsg}

theorem held_resize (cap : ℕ) : Held {} w {} { w with preEpochQueueCap := cap } := by
  constructor
  · exact le_rfl
  · exact List.Sublist.refl _
  · exact id
  · exact fun empty busy => ⟨empty, busy⟩

theorem leads_of_finishes {program : Task K G Unit} {note last : Note}
    (finishes : Finishes program note last w) : Leads program note last w :=
  accounts_mono finishes (fun _ _ _ held => held) fun _ _ _ never => never.elim

theorem handleInit_leads : Leads (handleInit runtime msg) {} {} w := by
  have codecs (w : Worker K G) : Leads (initKidCodec msg) {} {} w := by
    unfold initKidCodec
    split
    · exact accounts_pure rfl
    · apply accounts_bind
      exact accounts_settle (fun _ _ => leads_of_finishes (stays_update rfl)) fun _ _ => rfl
  have caps (w : Worker K G) : Leads (initQueueCap msg) {} {} w := by
    unfold initQueueCap
    split
    · exact accounts_pure rfl
    · split
      · exact accounts_update {} (held_resize _) rfl
      · exact accounts_pure rfl
  have guards (w : Worker K G) : Leads (initDurable runtime msg) {} {} w := by
    unfold initDurable
    split
    · dsimp only
      split
      · exact accounts_throw rfl
      · apply accounts_read
        split
        · exact accounts_throw rfl
        · exact leads_of_finishes (stays_update rfl)
    · exact leads_of_finishes (stays_update rfl)
  refine stays_bind (leads_of_finishes (stays_update rfl)) fun _ w => ?_
  refine stays_bind (codecs w) fun _ w => stays_bind (caps w) fun _ w => stays_bind (guards w) fun _ w => ?_
  exact leads_of_finishes (stays_update (lane_posted (posted_emit w rfl)))

end Messages

theorem held_teardown : Held {} w {} w.teardown := by
  constructor
  · exact le_rfl
  · exact List.nil_sublist _
  · exact id
  · exact fun empty busy => ⟨empty, busy⟩

theorem handleMessage_leads (msg : InMsg K) : Leads (handleMessage runtime msg) {} {} w := by
  cases msg with
  | init msg => exact handleInit_leads
  | epoch epoch selfPeerIndex keys => exact handleEpoch_leads epoch selfPeerIndex keys
  | rotate epoch selfPeerIndex keys => exact handleEpoch_leads epoch selfPeerIndex keys
  | teardown => exact accounts_update {} held_teardown rfl
  | streams | setSifTrailer | setRatchetWindow | setMetricsEnabled | setReplayWindow | setFailureTolerance =>
    exact leads_of_finishes (stays_update rfl)

theorem held_receive (frame : EncodedFrame) : Held {} w {} (receiveFrame frame w) where
  next := Nat.le_succ _
  line := List.Sublist.refl _
  busy := id
  aside empty busy := ⟨empty, busy⟩

/-- **Any call but a decode call** keeps its hand to itself. -/
theorem program_leads {call : Call K} (other : decoding call = none) : Leads (call.program runtime) {} {} w := by
  have done {program : Task K G Unit} (leads : Leads program {} {} w) :
      Leads (do program; return .done : Task K G Outcome) {} {} w :=
    stays_bind leads fun _ _ => accounts_pure rfl
  have received (frame : EncodedFrame) {rest : Ref → Task K G Outcome}
      (next : ∀ ref w, Leads (rest ref) {} {} w) : Leads (receive frame >>= rest) {} {} w := by
    apply accounts_bind
    apply accounts_read
    apply accounts_bind
    exact accounts_update {} (held_receive frame) (accounts_pure (next _ _))
  cases call with
  | message msg => exact done (handleMessage_leads msg)
  | wipeTimer epoch =>
    refine done (accounts_read ?_)
    split
    · exact leads_of_finishes (stays_update rfl)
    · exact accounts_pure rfl
  | tick elapsed => exact done (leads_of_finishes (stays_update rfl))
  | transform side frame =>
    cases side with
    | decode => cases other
    | encode =>
      exact received frame fun ref w => stays_bind (stays (encodeTransform_yields (steady_laned.unencoded ref)
        (fun _ _ => steady_survives _) _ rfl)) fun _ _ => accounts_pure rfl
  | encodeFrame frame =>
    exact received frame fun ref w => stays_bind (stays (encodeFrame_yields (steady_laned.unencoded ref)
      (fun _ _ => steady_survives _) _ rfl)) fun _ _ => accounts_pure rfl
  | decodeFrame frame => cases other
  | tryDecryptWithRatchet opening =>
    exact stays_bind (stays (tryDecryptWithRatchet_yields (fun _ => steady_survives _) steady_laned.bystander opening
      rfl)) fun _ _ => accounts_pure rfl
  | drainPreEpochQueue => exact done (leads_of_finishes drainPreEpochQueue_finishes)

/-! ## Runs -/

def waitingAt (site : AwaitPoint) : Note := { site }

def decodePact (frame : EncodedFrame) : Pact AwaitPoint Note (Worker K G) where
  assume _ _ _ := True
  fits site note := note.site = site
  carried first start last w := Sought frame first.site start (seeking last.site) w ∧ last.hand = none

def pact (call : Call K) : Pact AwaitPoint Note (Worker K G) :=
  match decoding call with
  | some frame => decodePact frame
  | none => holding.toPact

/-- A decode call that has ended searches no longer. -/
def Ends (call : Call K) (_ : Except JsError Outcome) (note : Note) (_ : Worker K G) : Prop :=
  (decoding call).isSome → seeking note.site = none

theorem decodes_noted {call : Call K} {frame : EncodedFrame} (decodes : decoding call = some frame) (w : Worker K G) :
    Noted (decodePact frame) (call.program runtime).run (Ends call) {} w w := by
  have yields : Yields (searches frame) (Past frame) (call.program runtime) (fun _ => True)
    { point := .start } w w := by
    have received {α : Type} {program : Ref → Task K G α} {result : α → Outcome}
        (decoded : Yields (searches frame) (Past frame) (program w.frames.next) (fun _ => True) { point := .start } w
          (receiveFrame frame w)) :
        Yields (searches frame) (Past frame) (do
          let ref ← receive frame
          let value ← program ref
          return result value : Task K G Outcome) (fun _ => True) { point := .start } w w := by
      simp only [Yields, receive, meets_bind, meets_read, meets_update, meets_pure]
      exact meets_mono decoded (fun _ _ _ _ held => held) fun _ _ _ _ now => now
    cases call with
    | decodeFrame other =>
      cases decodes
      exact received (decodeFrame_yields w)
    | transform side other =>
      cases side with
      | encode => cases decodes
      | decode =>
        cases decodes
        exact received (decodeTransform_yields w)
    | message | wipeTimer | tick | encodeFrame | tryDecryptWithRatchet | drainPreEpochQueue => cases decodes
  have begins : ({} : Note) = waitingAt { point := .start } := rfl
  have moves (at_ : AwaitPoint) (start : Worker K G) (site : AwaitPoint) (w : Worker K G)
      (moved : (searches frame).moves at_ start site w) :
        (decodePact (K := K) (G := G) frame).fits site (waitingAt site) ∧
        (decodePact frame).carried (waitingAt at_) start (waitingAt site) w := ⟨rfl, moved, rfl⟩
  rw [begins]
  refine noted_of_sited waitingAt moves (fun _ _ _ => trivial) yields ?_
  intro at_ start outcome w held
  have past : Past frame at_ start w := by
    cases outcome with
    | ok value => exact held.1
    | error refused => exact held
  exact ⟨{}, ⟨past, rfl⟩, fun _ => rfl⟩

/-- Every call keeps its pact. -/
theorem program_noted (call : Call K) (w : Worker K G) :
    Noted (pact call) (call.program runtime).run (Ends call) {} w w := by
  unfold pact
  split
  · rename_i frame decodes
    exact decodes_noted decodes w
  · rename_i other
    apply noted_mono (program_leads other)
    intro outcome note w held decodes
    rw [other] at decodes
    cases decodes

/-- Frames wait in the order in which they came, those in a hand behind those in the queue,
and before those that are still searched for. -/
structure InLine (calls : ι → Call K) (w : Worker K G) (statuses : ι → Status AwaitPoint (Except JsError Outcome))
    (notes : ι → Note) : Prop where
  busy : ∀ call, (notes call).hand.isSome → w.draining = true
  alone : ∀ call other, (notes call).hand.isSome → (notes other).hand.isSome → call = other
  queue : w.preEpochQueue.Pairwise (· < ·)
  sorted : ∀ call, (line w (notes call)).Pairwise (· < ·)
  arrived : ∀ call, ∀ ref ∈ line w (notes call), ref < w.frames.next
  handless : ∀ call, (decoding (calls call)).isSome → (notes call).hand = none
  sought : ∀ call ref, (decoding (calls call)).isSome → seeking (notes call).site = some ref →
    statuses call = .suspended (notes call).site ∧ ref < w.frames.next ∧
      ∀ other, ∀ earlier ∈ line w (notes other), earlier < ref

/-- A call that finds the header of its frame before any epoch is current does so while
no drain is in progress, and when no frame that came earlier is still searched for. -/
def InOrder (calls : ι → Call K) (before : WorkerPool ι K G) (call : ι) : Prop :=
  ∀ frame site, decoding (calls call) = some frame → before.statuses call = .suspended site →
    Decides before.shared frame site → before.shared.currentEpoch = -1 → before.shared.draining = false ∧
      ∀ other at_ ref, other ≠ call → (decoding (calls other)).isSome → before.statuses other = .suspended at_ →
        seeking at_ = some ref → ∃ own, site.frame = some own ∧ own < ref

/-- The bound that an init message sets leaves room for two frames and for those that wait. -/
def Fits (w : Worker K G) : Call K → Prop
  | .message (.init msg) => ∀ cap, msg.preEpochQueueCap = some cap → 0 < cap →
    2 ≤ ⌊cap⌋.toNat ∧ w.preEpochQueue.length ≤ ⌊cap⌋.toNat
  | _ => True

/-- The turns of a run in which init messages set fitting bounds, and frames are parked in
the order in which they came. -/
def Disciplined (calls : ι → Call K) (before : WorkerPool ι K G) (call : ι) (_ : WorkerPool ι K G) : Prop :=
  Fits before.shared (calls call) ∧ InOrder calls before call

section Turns
variable [DecidableEq ι] {calls : ι → Call K}
  {statuses : ι → Status AwaitPoint (Except JsError Outcome)} {notes : ι → Note} {call : ι} {note : Note}
  {status : Status AwaitPoint (Except JsError Outcome)}

/-- Where nothing is parked, everything that waits has waited before. -/
theorem inLine_of_lines (inLine : InLine calls start statuses notes) (next : start.frames.next ≤ w.frames.next)
    (busy : ∀ other, (Function.update notes call note other).hand.isSome → w.draining = true)
    (alone : ∀ one other, (Function.update notes call note one).hand.isSome →
      (Function.update notes call note other).hand.isSome → one = other)
    (lines : ∀ other, ∃ before, (line w (Function.update notes call note other)).Sublist (line start (notes before)))
    (handless : (decoding (calls call)).isSome → note.hand = none)
    (sought : ∀ ref, (decoding (calls call)).isSome → seeking note.site = some ref → status = .suspended note.site ∧
      (seeking (notes call).site = some ref ∨ start.frames.next ≤ ref ∧ ref < w.frames.next)) :
    InLine calls w (Function.update statuses call status) (Function.update notes call note) := by
  constructor
  · exact busy
  · exact alone
  · obtain ⟨before, fewer⟩ := lines call
    exact (inLine.sorted before).sublist ((List.sublist_append_left _ _).trans fewer)
  · intro other
    obtain ⟨before, fewer⟩ := lines other
    exact (inLine.sorted before).sublist fewer
  · intro other ref member
    obtain ⟨before, fewer⟩ := lines other
    exact (inLine.arrived before ref (fewer.subset member)).trans_le next
  · rw [Function.forall_update_iff notes fun other note => (decoding (calls other)).isSome → note.hand = none]
    exact ⟨handless, fun other _ => inLine.handless other⟩
  · have behind {ref : Ref} (after : ∀ before, ∀ earlier ∈ line start (notes before), earlier < ref) (other : ι) :
        ∀ earlier ∈ line w (Function.update notes call note other), earlier < ref := by
      intro earlier member
      obtain ⟨before, fewer⟩ := lines other
      exact after before earlier (fewer.subset member)
    intro one ref decodes seeks
    by_cases same : one = call
    · subst same
      simp only [Function.update_self] at seeks ⊢
      obtain ⟨suspended, origin⟩ := sought ref decodes seeks
      refine ⟨suspended, ?_⟩
      rcases origin with old | ⟨fresh, known⟩
      · obtain ⟨-, known, after⟩ := inLine.sought one ref decodes old
        exact ⟨known.trans_le next, behind after⟩
      · exact ⟨known, behind fun before earlier member => (inLine.arrived before earlier member).trans_le fresh⟩
    · simp only [Function.update_of_ne same] at seeks ⊢
      obtain ⟨suspended, known, after⟩ := inLine.sought one ref decodes seeks
      exact ⟨suspended, known.trans_le next, behind after⟩

/-- A call other than a decode call puts back at most what was in its hand. -/
theorem inLine_held (inLine : InLine calls start statuses notes) (other : decoding (calls call) = none)
    (held : Held (notes call) start note w) :
    InLine calls w (Function.update statuses call status) (Function.update notes call note) := by
  -- another call's hand means that a drain is in progress, and not this call's
  have aside {one : ι} (different : one ≠ call) (some : (notes one).hand.isSome) :
      (notes call).hand = none ∧ note.hand = none ∧ w.draining = true := by
    have empty : (notes call).hand = none := by
      rw [← Option.isNone_iff_eq_none, ← Option.isSome_eq_false_iff, Bool.eq_false_iff]
      exact fun own => different (inLine.alone one call some own)
    exact ⟨empty, held.aside empty (inLine.busy one some)⟩
  have nothing : ¬ (decoding (calls call)).isSome := by simp [other]
  apply inLine_of_lines inLine held.next
  · rw [Function.forall_update_iff notes fun _ note => note.hand.isSome → w.draining = true]
    exact ⟨held.busy (inLine.busy call), fun one different some => (aside different some).2.2⟩
  · intro one other someOne someOther
    by_cases sameOne : one = call
    · by_cases sameOther : other = call
      · exact sameOne.trans sameOther.symm
      · subst sameOne
        rw [Function.update_self] at someOne
        rw [Function.update_of_ne sameOther] at someOther
        rw [(aside sameOther someOther).2.1] at someOne
        cases someOne
    · rw [Function.update_of_ne sameOne] at someOne
      by_cases sameOther : other = call
      · subst sameOther
        rw [Function.update_self, (aside sameOne someOne).2.1] at someOther
        cases someOther
      · rw [Function.update_of_ne sameOther] at someOther
        exact inLine.alone one other someOne someOther
  · intro one
    by_cases same : one = call
    · subst same
      rw [Function.update_self]
      exact ⟨one, held.line⟩
    · rw [Function.update_of_ne same]
      cases hand : (notes one).hand with
      | none =>
        refine ⟨call, List.Sublist.trans ?_ held.line⟩
        rw [line, hand, Option.getD_none, List.append_nil]
        exact List.sublist_append_left _ _
      | some frames =>
        obtain ⟨empty, kept, -⟩ := aside same (by rw [hand]; rfl)
        have fewer := held.line
        simp only [line, empty, kept, Option.getD_none, List.append_nil] at fewer
        exact ⟨one, fewer.append_right _⟩
  · exact fun decodes => absurd decodes nothing
  · exact fun _ decodes => absurd decodes nothing

/-- A decode call parks its frame behind those that came earlier. -/
theorem inLine_parks {frame : EncodedFrame} {site : AwaitPoint} {ref : Ref}
    (inLine : InLine calls start statuses notes) (decodes : decoding (calls call) = some frame)
    (at_ : (notes call).site = site) (sought : Sought frame site start none w) (empty : note.hand = none)
    (ended : seeking note.site = none) (parks : Parks frame site start ref w) (idle : start.draining = false)
    (foremost : ∀ other at_ later, other ≠ call → (decoding (calls other)).isSome →
      statuses other = .suspended at_ → seeking at_ = some later → ∃ own, site.frame = some own ∧ own < later) :
    InLine calls w (Function.update statuses call status) (Function.update notes call note) := by
  have emptyHanded (one : ι) : (notes one).hand = none := by
    rw [← Option.isNone_iff_eq_none, ← Option.isSome_eq_false_iff, Bool.eq_false_iff]
    intro some
    rw [inLine.busy one some] at idle
    cases idle
  have emptyAfter : ∀ one, (Function.update notes call note one).hand = none := by
    rw [Function.forall_update_iff notes fun _ note => note.hand = none]
    exact ⟨empty, fun one _ => emptyHanded one⟩
  have before (one : ι) : line start (notes one) = start.preEpochQueue := by
    rw [line, emptyHanded one, Option.getD_none, List.append_nil]
  have after (one : ι) : line w (Function.update notes call note one) = w.preEpochQueue := by
    rw [line, emptyAfter one, Option.getD_none, List.append_nil]
  have decoded : (decoding (calls call)).isSome := by rw [decodes]; rfl
  have place : (∀ earlier ∈ start.preEpochQueue, earlier < ref) ∧ ref < w.frames.next := by
    rcases parks.own with seeks | ⟨-, fresh, known⟩
    · obtain ⟨-, known, earlier⟩ := inLine.sought call ref decoded (at_ ▸ seeks)
      exact ⟨before call ▸ earlier call, known.trans_le sought.next⟩
    · refine ⟨fun earlier member => ?_, known⟩
      exact (inLine.arrived call earlier (before call ▸ member)).trans_le fresh
  obtain ⟨kept, fewer, queue⟩ := parks.queue
  have members {earlier : Ref} (member : earlier ∈ w.preEpochQueue) :
      earlier ∈ start.preEpochQueue ∨ earlier = ref := by
    rw [queue, List.mem_append, List.mem_singleton] at member
    exact member.imp (fun old => fewer.subset old) id
  have ordered : w.preEpochQueue.Pairwise (· < ·) := by
    rw [queue, List.pairwise_append]
    refine ⟨inLine.queue.sublist fewer, List.pairwise_singleton _ _, fun earlier member last own => ?_⟩
    rw [List.mem_singleton] at own
    exact own ▸ place.1 earlier (fewer.subset member)
  constructor
  · intro one some
    rw [emptyAfter one] at some
    cases some
  · intro one _ some
    rw [emptyAfter one] at some
    cases some
  · exact ordered
  · exact fun one => after one ▸ ordered
  · intro one earlier member
    rw [after one] at member
    rcases members member with old | rfl
    · exact (inLine.arrived call earlier (before call ▸ old)).trans_le sought.next
    · exact place.2
  · exact fun one _ => emptyAfter one
  · intro one later decodes seeks
    have different : one ≠ call := by
      rintro rfl
      rw [Function.update_self, ended] at seeks
      cases seeks
    simp only [Function.update_of_ne different] at seeks ⊢
    obtain ⟨suspended, known, behind⟩ := inLine.sought one later decodes seeks
    obtain ⟨own, named, earlier⟩ := foremost one _ later different decodes suspended seeks
    refine ⟨suspended, known.trans_le sought.next, fun other waiting member => ?_⟩
    rw [after other] at member
    rcases members member with old | rfl
    · exact behind call waiting (before call ▸ old)
    · rcases parks.own with seeks | ⟨rfl, -⟩
      · rw [seeking_frame seeks] at named
        exact Option.some.inj named ▸ earlier
      · cases named

/-- A decode call that parks nothing leaves the queue alone. -/
theorem inLine_sought {frame : EncodedFrame} {site : AwaitPoint}
    (inLine : InLine calls start statuses notes) (decodes : decoding (calls call) = some frame)
    (at_ : (notes call).site = site) (sought : Sought frame site start (seeking note.site) w) (empty : note.hand = none)
    (same : w.preEpochQueue = start.preEpochQueue)
    (shown : (seeking note.site).isSome → status = .suspended note.site) :
    InLine calls w (Function.update statuses call status) (Function.update notes call note) := by
  have decoded : (decoding (calls call)).isSome := by rw [decodes]; rfl
  have emptyBefore := inLine.handless call decoded
  have hands (one : ι) : (Function.update notes call note one).hand = (notes one).hand := by
    by_cases own : one = call
    · subst own
      rw [Function.update_self, empty, emptyBefore]
    · rw [Function.update_of_ne own]
  apply inLine_of_lines inLine sought.next
  · intro one some
    rw [hands one] at some
    rw [sought.draining]
    exact inLine.busy one some
  · intro one other someOne someOther
    rw [hands] at someOne someOther
    exact inLine.alone one other someOne someOther
  · intro one
    refine ⟨one, ?_⟩
    rw [line, line, same, hands one]
  · exact fun _ => empty
  · intro ref _ seeks
    refine ⟨shown (by rw [seeks]; rfl), (sought.own ref seeks).imp (fun old => at_ ▸ old) And.right⟩

/-- A turn in order keeps the frames in line. -/
theorem inLine_turn {before after : WorkerPool ι K G} {site : AwaitPoint}
    (inLine : InLine calls before.shared before.statuses notes)
    (fits : (pact (G := G) (calls call)).fits site (notes call)) (waits : before.statuses call = .suspended site)
    (inOrder : InOrder calls before call)
    (carried : (pact (calls call)).carried (notes call) before.shared note after.shared)
    (reached : Reached (pact (calls call)) (Ends (calls call)) note after.shared (after.statuses call)) :
    InLine calls after.shared (Function.update before.statuses call (after.statuses call))
      (Function.update notes call note) := by
  cases decodes : decoding (calls call) with
  | none =>
    simp only [pact, decodes] at carried
    exact inLine_held inLine decodes carried
  | some frame =>
    simp only [pact, decodes] at fits carried reached
    obtain ⟨sought, empty⟩ := carried
    have at_ : (notes call).site = site := fits
    rw [at_] at sought
    rcases sought.queue with same | ⟨ended, ref, parks⟩
    · apply inLine_sought inLine decodes at_ sought empty same
      intro some
      cases status : after.statuses call with
      | running =>
        rw [status] at reached
        exact reached.elim
      | suspended next =>
        rw [status] at reached
        have paused : note.site = next := reached
        rw [paused]
      | finished outcome =>
        rw [status] at reached
        have ended : seeking note.site = none := reached (by rw [decodes]; rfl)
        rw [ended] at some
        cases some
    · obtain ⟨idle, foremost⟩ := inOrder frame site decodes waits parks.decides parks.current
      rw [ended] at sought
      exact inLine_parks inLine decodes at_ sought empty ended parks idle foremost

omit [DecidableEq ι] in
theorem inLine_launch (empty : start.preEpochQueue = []) : InLine calls start statuses fun _ => {} where
  busy _ := nofun
  alone _ _ := nofun
  queue := by
    rw [empty]
    exact List.Pairwise.nil
  sorted _ := by
    rw [line, empty]
    exact List.Pairwise.nil
  arrived _ := by
    rw [line, empty]
    exact nofun
  handless _ _ := rfl
  sought _ _ _ := nofun

end Turns

/-- Where frames are parked in the order in which they came, the queue lists them so. -/
theorem runs_inLine [DecidableEq ι] {calls : ι → Call K} {first : Worker K G} {last : WorkerPool ι K G}
    (empty : first.preEpochQueue = [])
    (runs : Runs (fun before call _ => InOrder calls before call) (launch runtime first calls) last) :
    last.shared.preEpochQueue.Pairwise (· < ·) := by
  have keeping : Keeping (fun call => pact (calls call)) (fun call => Ends (calls call)) (InLine calls) last := by
    refine runs_keeping _ _ _ (fun _ _ _ _ _ _ _ _ => ?_) ?_ ?_ runs
    · unfold pact
      split <;> trivial
    · exact fun before call site after notes note inLine fits waits passes carried reached =>
        inLine_turn inLine (fits call site waits) waits passes carried reached
    · apply launch_keeping (fun _ => {}) (inLine_launch empty)
      · intro call
        unfold pact
        split
        · rfl
        · trivial
      · exact fun call w _ => program_noted (calls call) w
  obtain ⟨notes, inLine, -⟩ := keeping
  exact inLine.queue

/-! ## Evictions -/

/-- What a change has evicted from the queue. -/
def Evicted (change : Worker K G × Worker K G) (evicted : List Ref) : Prop :=
  Evicts (shelf change.1) (shelf change.2) evicted

/-- What a call knows of the queue on its way: what each of its changes has evicted, and
that there is an overflow for each. -/
def Sheltered (call : Call K) : Trace K G := fun start past w =>
  Fits start call → (shelf start).Bounded → Fits w call ∧ (shelf w).Bounded ∧
    ∃ evictions, List.Forall₂ Evicted past evictions ∧ overflows w = overflows start + evictions.flatten.length

section Evictions
variable {call : Call K} {past : List (Worker K G × Worker K G)}

theorem shelf_posture (same : posture w' = posture w) : shelf w' = shelf w := by
  have heard (v : Worker K G) : overflows v = (v.emitted.filter alarming).countP reportsOverflow := by
    rw [List.countP_filter, overflows]
    congr 1
    funext msg
    unfold reportsOverflow alarming
    split <;> rfl
  simp only [posture, Prod.mk.injEq] at same
  simp only [shelf, heard, same]

theorem sheltered_change (now : Sheltered call start past w)
    (step : Fits w call → (shelf w).Bounded → Fits w' call ∧ ∃ evicted, Evicts (shelf w) (shelf w') evicted) :
    Sheltered call start (past ++ [(w, w')]) w' := by
  intro fits bounded
  obtain ⟨still, within, evictions, evicted, counted⟩ := now fits bounded
  obtain ⟨fits, more, evicts⟩ := step still within
  refine ⟨fits, evicts_bounded within evicts, evictions ++ [more], List.rel_append evicted (.cons evicts .nil), ?_⟩
  have reported : overflows w' = overflows w + more.length := evicts_overflows evicts
  rw [reported, counted, List.flatten_append, List.length_append, List.flatten_singleton, Nat.add_assoc]

theorem sheltered_onlooking (call : Call K) : Onlooking (Sheltered call : Trace K G) where
  fresh _ fits bounded := ⟨fits, bounded, [], .nil, rfl⟩
  aside {_ _ w w'} now same := by
    have shelves := shelf_posture same
    have queue : w'.preEpochQueue = w.preEpochQueue := congrArg TailDrop.Shelf.queue shelves
    refine sheltered_change now fun fits _ => ⟨?_, [], .inl ⟨shelves, rfl⟩⟩
    unfold Fits at fits ⊢
    rwa [queue]

/-- Only an init message sets the bound. -/
theorem fits_unless_init (other : ∀ msg, call ≠ .message (.init msg)) (w : Worker K G) : Fits w call := by
  unfold Fits
  split
  · rename_i msg
    exact absurd rfl (other msg)
  · trivial

theorem shelf_take (w : Worker K G) : ∃ evicted, Evicts (shelf w) ⟨[], w.preEpochQueueCap, overflows w⟩ evicted :=
  ⟨[], .inr (.take _ _ _)⟩

theorem sheltered_following (other : ∀ msg, call ≠ .message (.init msg)) : Following (Sheltered call : Trace K G) where
  toOnlooking := sheltered_onlooking call
  parked {_ _ w} now frame peerIndex := sheltered_change now fun _ bounded => by
    obtain ⟨evicted, step⟩ := push_steps bounded frame
    rw [shelf_pushToQueue]
    exact ⟨fits_unless_init other _, evicted, .inr step⟩
  given {_ _ w} now slot frame data := by
    have written : shelf (give w slot frame data) = shelf w := rfl
    have cleared : shelf (give w slot frame data).clearStarve = shelf w := by
      rw [← written]
      exact congrArg Prod.fst (lane_clearStarve (give w slot frame data))
    refine sheltered_change (sheltered_change now fun _ _ => ?_) fun _ _ => ?_
    · exact ⟨fits_unless_init other _, [], .inl ⟨written, rfl⟩⟩
    · exact ⟨fits_unless_init other _, [], .inl ⟨cleared.trans written.symm, rfl⟩⟩
  taken {_ _ w} now := sheltered_change now fun _ _ => ⟨fits_unless_init other _, shelf_take w⟩

/-- **Each change of a call** leaves the queue alone or is a step of it. -/
theorem program_sheltered (call : Call K) (w : Worker K G) :
    Traces (Sheltered call) (call.program runtime).run w [] w := by
  have onlooking := sheltered_onlooking (G := G) call
  by_cases inits : ∃ msg, call = .message (.init msg)
  · obtain ⟨msg, rfl⟩ := inits
    refine tracks_bind (handleInit_tracks onlooking (fun cap asked positive now => ?_) (onlooking.fresh w))
      fun _ _ _ _ now => tracks_pure now
    refine sheltered_change now fun fits _ => ⟨fits, ?_⟩
    obtain ⟨several, within⟩ := fits cap asked positive
    exact ⟨[], .inr (.resize _ _ _ _ within several)⟩
  · have other : ∀ msg, call ≠ .message (.init msg) := fun msg same => inits ⟨msg, same⟩
    cases encodes : encoding call with
    | true =>
      apply encode_tracks onlooking encodes
      · intro _ _ w now
        have shelves : shelf w.clearEncryptStarve = shelf w :=
          congrArg Prod.fst (lane_encodes (encodes_clearEncryptStarve 0 w))
        exact sheltered_change now fun _ _ => ⟨fits_unless_init other _, [], .inl ⟨shelves, rfl⟩⟩
      · intro _ _ w now err
        have shelves : shelf (dropEncoded w err) = shelf w :=
          congrArg Prod.fst (lane_encodes (encodes_dropEncoded 0 w err))
        exact sheltered_change now fun _ _ => ⟨fits_unless_init other _, [], .inl ⟨shelves, rfl⟩⟩
      · exact onlooking.fresh w
    | false =>
      apply program_tracks (sheltered_following other) encodes other
      · exact fun _ _ _ w now => sheltered_change now fun _ _ => ⟨fits_unless_init other _, shelf_take w⟩
      · exact onlooking.fresh w

end Evictions

section Checked
open Specimen (sealedBy keyOf)

def early (byte : UInt8) : EncodedFrame := { data := sealedBy (keyOf 0 0 7) 0 [byte] }

def bounding (cap : ℚ) : Call Bytes :=
  .message (.init { role := .receiver, peerId := "ann", peerIndex := 0, preEpochQueueCap := some cap })

/-- Two frames come after a bound has been set. -/
def bounded (cap : ℚ) : Fin 3 → Call Bytes
  | 0 => bounding cap
  | 1 => .decodeFrame (early 1)
  | 2 => .decodeFrame (early 2)

/-- The bound is lowered when three frames wait. -/
def lowered : Fin 4 → Call Bytes
  | 0 => .decodeFrame (early 1)
  | 1 => .decodeFrame (early 2)
  | 2 => .decodeFrame (early 3)
  | 3 => bounding 2

/-- A frame that has begun to be decoded before the drain is parked while the drain holds an earlier one. -/
def overtaken : Fin 3 → Call Bytes
  | 0 => .decodeFrame (early 1)
  | 1 => .drainPreEpochQueue
  | 2 => .decodeFrame (early 2)

/-- The queue at the end of a schedule, its bound, and how many overflows were reported. -/
def shelfAfter {n : ℕ} (calls : Fin n → Call Bytes) (schedule : List (Fin n)) : Option (List Ref × ℕ × ℕ) :=
  ((launch Specimen.runtime Worker.createWorkerState calls).followPassing anyTurn schedule).map fun last =>
    (last.shared.preEpochQueue, last.shared.preEpochQueueCap, overflows last.shared)

theorem reached_of_shelfAfter {n : ℕ} {calls : Fin n → Call Bytes} {schedule : List (Fin n)} {queue : List Ref}
    {cap reported : ℕ} (computed : shelfAfter calls schedule = some (queue, cap, reported)) :
    ∃ last, Runs anyTurn (launch Specimen.runtime Worker.createWorkerState calls) last ∧
      shelf last.shared = ⟨queue, cap, reported⟩ := by
  obtain ⟨last, followed, same⟩ := Option.map_eq_some_iff.mp computed
  simp only [Prod.mk.injEq] at same
  obtain ⟨rfl, rfl, rfl⟩ := same
  exact ⟨last, followPassing_runs followed, rfl⟩

/-- Frames come after room has been made for two. -/
def crowding : Fin 4 → Call Bytes
  | 0 => bounding 2
  | 1 => .decodeFrame (early 1)
  | 2 => .decodeFrame (early 2)
  | 3 => .decodeFrame (early 3)

/-- A decode call searches for the format of its frame. -/
def searching {n : ℕ} (pool : WorkerPool (Fin n) Bytes Unit) (call : Fin n) : Bool :=
  match pool.statuses call with
  | .suspended site => (seeking site).isSome
  | _ => false

/-- One frame after the other, with little in the queue and no drain. -/
def Unhurried {n : ℕ} (before : WorkerPool (Fin n) Bytes Unit) (call : Fin n) (_ : WorkerPool (Fin n) Bytes Unit) :
    Prop :=
  before.shared.preEpochQueue.length ≤ 2 ∧ before.shared.draining = false ∧
    ∀ other, other ≠ call → searching before other = false

instance {n : ℕ} (before : WorkerPool (Fin n) Bytes Unit) (call : Fin n) (after : WorkerPool (Fin n) Bytes Unit) :
    Decidable (Unhurried before call after) :=
  inferInstanceAs (Decidable (_ ∧ _ ∧ ∀ other, other ≠ call → searching before other = false))

theorem disciplined_of_unhurried {before after : WorkerPool (Fin 4) Bytes Unit} {call : Fin 4}
    (unhurried : Unhurried before call after) : Disciplined crowding before call after := by
  obtain ⟨few, idle, alone⟩ := unhurried
  constructor
  · match call with
    | 0 =>
      rintro cap ⟨⟩ -
      exact ⟨by decide +kernel, few⟩
    | 1 | 2 | 3 => trivial
  · refine fun frame site _ _ _ _ => ⟨idle, fun other at_ ref different _ waits seeks => ?_⟩
    have quiet := alone other different
    rw [searching, waits] at quiet
    simp [seeks] at quiet

end Checked

end SFrameRatchet.QueueDiscipline
