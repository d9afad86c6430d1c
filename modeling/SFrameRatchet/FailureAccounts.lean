import SFrameRatchet.SoloOpening
import SFrameRatchet.Specimen
import SFrameRatchet.Tally

/-! Failure accounting over calls made one after the other. A log says what became of each
frame and when an account was closed; the counts of the worker, its verdict on a key and
the metric of an invalidated key are what the log says, as long as the drain meets no frame
whose failure does not name its sender. -/
namespace SFrameRatchet.FailureAccounts
open Collections Crypto Kid Header SFrame CodecPartial Throwing Coroutine Media SoloDecoding SoloOpening Tally

variable {K G : Type} {runtime : Runtime K G}

/-! ## The log -/

/-- What matters to the accounts: a frame of a sender failed to open, with the tolerance
and the switch of the metrics at that time; one was opened; an epoch was installed; all
accounts were closed. -/
inductive Mark where
  | failed (sender : ℤ × ℤ) (tolerance : ℤ) (metricsEnabled : Bool)
  | opened (sender : ℤ × ℤ)
  | installed (epoch : ℤ) (peers : List ℤ)
  | cleared
  deriving DecidableEq

def Mark.resets (sender : ℤ × ℤ) : Mark → Bool
  | .failed .. => false
  | .opened other => other = sender
  | .installed epoch peers => sender.1 = epoch && peers.contains sender.2
  | .cleared => true

def Mark.fails (sender : ℤ × ℤ) : Mark → Bool
  | .failed other _ _ => other = sender
  | _ => false

/-- The failures of a sender since its account was last closed. -/
def failures (sender : ℤ × ℤ) (log : List Mark) : ℕ := tally (Mark.resets sender) (Mark.fails sender) log

/-- A failure that takes the count of its sender past the tolerance is announced, when
metrics are posted at all. -/
def announces (past : List Mark) : Mark → List MetricsEvent
  | .failed sender tolerance metricsEnabled =>
    if metricsEnabled ∧ (failures sender past : ℤ) ≤ tolerance ∧ tolerance < failures sender past + 1 then
      [.keyInvalidated sender.1 sender.2 (failures sender past + 1)]
    else []
  | _ => []

/-- The crossings of the tolerance in a log. -/
def crossings (log : List Mark) : List MetricsEvent := alarms announces [] log

def invalidation : OutMsg → Option MetricsEvent
  | .metrics (.keyInvalidated epoch peerIndex failures) => some (.keyInvalidated epoch peerIndex failures)
  | _ => none

/-- The keys that the worker has announced as invalidated. -/
def invalidations (w : Worker K G) : List MetricsEvent := w.emitted.filterMap invalidation

/-- **The accounts are right**: under a tolerance every count is what the log says and a key
is invalid when its count exceeds the tolerance; every crossing was announced once. -/
structure Accounted (log : List Mark) (w : Worker K G) : Prop where
  counted : 0 ≤ w.failureTolerance →
    ∀ sender, (w.failureCounts.get? sender).getD 0 = failures sender log
  invalid : 0 ≤ w.failureTolerance →
    ∀ epoch peerIndex, w.isKeyInvalid epoch peerIndex = true ↔ w.failureTolerance < failures (epoch, peerIndex) log
  announced : invalidations w = crossings log

/-! ## What becomes of a frame -/

/-- A frame fails with the two errors of the AEAD, and is opened when it is given its bytes. -/
def outcomeMarks {α : Type} (w : Worker K G) (sender : ℤ × ℤ) (result : Except JsError α × Worker K G) : List Mark :=
  match result.1 with
  | .error refused =>
    if refused.isAeadFailure then [.failed sender w.failureTolerance w.metricsEnabled] else []
  | .ok _ => if result.2.delivered = w.delivered then [] else [.opened sender]

/-- The marks of a payload: its sender is who the header names in the format that the
payload is taken for. -/
def payloadMarks (runtime : Runtime K G) {α : Type} (w : Worker K G) (ref : Ref) (payload : Bytes)
    (result : Option (Except JsError α × Worker K G)) : List Mark :=
  match parseHeader (payload.drop (formatOf runtime w ref payload).1.prefixLen) with
  | .error _ => []
  | .ok hdr => (result.map (outcomeMarks w (w.kidCodec.decode hdr.kid))).getD []

/-- A frame on the live path. -/
def liveMarks (runtime : Runtime K G) (w : Worker K G) (ref : Ref) : List Mark :=
  match sifPayload w.sifTrailer (w.frames.read ref).data with
  | none => []
  | some payload => payloadMarks runtime w ref payload (alone (decodeFrame runtime ref) w)

/-- What the drain tries with a frame, before its failure handler. -/
def drainAttempt (runtime : Runtime K G) (w : Worker K G) (ref : Ref) : Task K G Unit := do
  let raw := w.frames.read ref
  let (guess, probed) ← resolveFormat runtime ref raw.data w.codec raw.kind
  let hdr ← settle (parseHeader (raw.data.drop guess.prefixLen))
  drainPayload runtime ref raw.data guess probed hdr

theorem alone_drainFrame_eq (w : Worker K G) (ref : Ref) : alone (drainFrame runtime ref) w =
    (alone (drainAttempt runtime w ref) w).map fun result => match result.1 with
      | .ok () => (.ok (), result.2)
      | .error refused => (.ok (), failDrain result.2 refused) := by
  simp only [drainFrame, alone_bind, alone_read, Option.bind_some, alone_tryCatch, drainAttempt]
  cases alone (resolveFormat runtime ref _ w.codec _) w with
  | none => rfl
  | some resolved =>
    obtain ⟨_ | value, v⟩ := resolved
    · rfl
    · simp only [Option.bind_some, alone_settle, alone_update]
      cases parseHeader ((w.frames.read ref).data.drop value.1.prefixLen) with
      | error refused => rfl
      | ok hdr =>
        dsimp only [Option.bind_some]
        cases alone (drainPayload runtime ref (w.frames.read ref).data value.1 value.2 hdr) v with
        | none => rfl
        | some result => obtain ⟨_ | _, _⟩ := result <;> rfl

def drainedMarks (runtime : Runtime K G) (w : Worker K G) (ref : Ref) : List Mark :=
  payloadMarks runtime w ref (w.frames.read ref).data (alone (drainAttempt runtime w ref) w)

/-- The frames of a drain, one after the other. -/
def drainMarks (runtime : Runtime K G) : List Ref → Worker K G → List Mark
  | [], _ => []
  | ref :: rest, w => drainedMarks runtime w ref ++
    match alone (drainFrame runtime ref) w with
    | none => []
    | some (_, v) => drainMarks runtime rest v

/-- A worker whose drain has taken the queue. -/
def taken (w : Worker K G) : Worker K G := { w with draining := true, preEpochQueue := [] }

/-- What a call adds to the log. -/
def callMarks (runtime : Runtime K G) (w : Worker K G) : Call K → List Mark
  | .message (.epoch epoch selfPeerIndex keys) | .message (.rotate epoch selfPeerIndex keys) =>
    match w.installEpoch epoch selfPeerIndex keys with
    | .error _ => []
    | .ok installed => .installed epoch keys.keys :: drainMarks runtime installed.preEpochQueue (taken installed)
  | .message (.setFailureTolerance _) | .message .teardown => [.cleared]
  | .transform .decode frame | .decodeFrame frame => liveMarks runtime (receiveFrame frame w) w.frames.next
  | .drainPreEpochQueue => drainMarks runtime w.preEpochQueue (taken w)
  | _ => []

/-! ## Failures that name no sender -/

/-- A frame passes the gates of the drain with a ciphertext too short for a tag, and there is
no ratchet window: what it fails with does not say whose it is. -/
def Nameless (runtime : Runtime K G) (w : Worker K G) (ref : Ref) : Prop :=
  0 ≤ w.failureTolerance ∧ w.ratchetWindowSize = 0 ∧
    let buf := (w.frames.read ref).data.drop (formatOf runtime w ref (w.frames.read ref).data).1.prefixLen
    ∃ hdr, parseHeader buf = .ok hdr ∧ buf.length < hdr.bodyOffset + aeadTagBytes ∧
      w.currentMinValidEpoch ≤ (slotOf w hdr).epoch ∧
      (w.cachedKey (slotOf w hdr).epoch (slotOf w hdr).peerIndex).isSome ∧
      senderRefusal runtime w (slotOf w hdr) = none

/-- No frame of a drain is such. -/
def Named (runtime : Runtime K G) : List Ref → Worker K G → Prop
  | [], _ => True
  | ref :: rest, w => ¬ Nameless runtime w ref ∧
    ∀ outcome v, alone (drainFrame runtime ref) w = some (outcome, v) → Named runtime rest v

/-- No frame of the drain that a call makes is such. -/
def CallNamed (runtime : Runtime K G) (w : Worker K G) : Call K → Prop
  | .message (.epoch epoch selfPeerIndex keys) | .message (.rotate epoch selfPeerIndex keys) =>
    ∀ installed, w.installEpoch epoch selfPeerIndex keys = .ok installed →
      Named runtime installed.preEpochQueue (taken installed)
  | .drainPreEpochQueue => Named runtime w.preEpochQueue (taken w)
  | _ => True

/-- Calls made one after the other on a fresh worker, each under some condition, with the
log of what became of the frames. -/
inductive InTurn (runtime : Runtime K G) (condition : Worker K G → Call K → Prop) : List Mark → Worker K G → Prop where
  | created : InTurn runtime condition [] Worker.createWorkerState
  | called {log : List Mark} {w w' : Worker K G} {outcome : Except JsError Outcome} (call : Call K)
      (earlier : InTurn runtime condition log w) (allowed : condition w call)
      (ran : alone (call.program runtime) w = some (outcome, w')) :
      InTurn runtime condition (log ++ callMarks runtime w call) w'

/-! ## The books

What the accounts are about, and what counting depends on. Signals about other things leave
the books alone. -/

def invalidates (msg : OutMsg) : Bool := (invalidation msg).isSome

def books (w : Worker K G) : Worker K G :=
  { (Worker.createWorkerState : Worker K G) with
    failureCounts := w.failureCounts, failureTolerance := w.failureTolerance, metricsEnabled := w.metricsEnabled
    ratchetWindowSize := w.ratchetWindowSize, kidCodec := w.kidCodec
    draining := w.draining, pendingDrain := w.pendingDrain
    delivered := w.delivered, emitted := w.emitted.filter invalidates }

/-- The marks have been entered: the counts are those of the log, and so are the announcements. -/
structure Entered (log : List Mark) (w : Worker K G) : Prop where
  counted : 0 ≤ w.failureTolerance → ∀ sender, (w.failureCounts.get? sender).getD 0 = failures sender log
  announced : invalidations w = crossings log

section Books
variable (w : Worker K G)

theorem invalidations_books : invalidations (books w) = invalidations w := by
  unfold invalidations books
  rw [List.filterMap_filter]
  congr 1
  funext msg
  unfold invalidates
  cases invalidation msg <;> rfl

theorem Entered.of_books {log : List Mark} {w w' : Worker K G} (entered : Entered log w) (same : books w' = books w) :
    Entered log w' where
  counted tolerates sender := by
    have tolerance := congrArg (·.failureTolerance) same
    have counts := congrArg (·.failureCounts) same
    simp only [books] at tolerance counts
    rw [counts]
    exact entered.counted (tolerance ▸ tolerates) sender
  announced := by
    rw [← invalidations_books, same, invalidations_books]
    exact entered.announced

theorem Entered.accounted {log : List Mark} {w : Worker K G} (entered : Entered log w) : Accounted log w where
  counted := entered.counted
  invalid tolerates epoch peerIndex := by
    have count := entered.counted tolerates (epoch, peerIndex)
    rw [Worker.isKeyInvalid, if_neg (Int.not_lt.mpr tolerates), decide_eq_true_eq, ← count]
  announced := entered.announced

/-! ### Signals -/

theorem books_emit {msg : OutMsg} (quiet : invalidates msg = false) : books (w.emit msg) = books w := by
  simp [books, Worker.emit, List.filter_append, quiet]

theorem books_emitMetric {event : MetricsEvent} (quiet : invalidates (.metrics event) = false) :
    books (w.emitMetric event) = books w := by
  unfold Worker.emitMetric
  split
  · exact books_emit w quiet
  · rfl

theorem books_reportReplay (hdr : SFrameHeader) (epoch peerIndex : ℤ) :
    books (reportReplay w hdr epoch peerIndex) = books w := by
  unfold reportReplay reportDrop
  rw [books_emitMetric _ rfl, books_emitMetric _ rfl, books_emit _ rfl]

theorem books_reportKeyInvalid (hdr : SFrameHeader) (epoch peerIndex : ℤ) :
    books (reportKeyInvalid w hdr epoch peerIndex) = books w := by
  unfold reportKeyInvalid reportDrop
  rw [books_emitMetric _ rfl, books_emit _ rfl]

theorem books_noteStarveDrop (peerIndex : Option ℤ) : books (w.noteStarveDrop peerIndex) = books w := by
  unfold Worker.noteStarveDrop
  split
  · exact books_emit _ rfl
  · dsimp only
    split
    · exact books_emit _ rfl
    · rfl

theorem books_clearStarve : books w.clearStarve = books w := by
  unfold Worker.clearStarve
  split <;> rfl

theorem books_pushToQueue (ref : Ref) (peerIndex : Option ℤ) : books (w.pushToQueue ref peerIndex) = books w := by
  have room (v : Worker K G) (queue : List Ref) : books { v with preEpochQueue := queue } = books v := rfl
  unfold Worker.pushToQueue
  dsimp only
  rw [room]
  split
  · rw [books_noteStarveDrop, books_emitMetric _ rfl, books_emit _ rfl, room]
  · rfl

theorem books_getReplayWindow (epoch peerIndex : ℤ) : books (w.getReplayWindow epoch peerIndex).2 = books w := by
  obtain ⟨windows, next, same⟩ := Worker.getReplayWindow_snd w epoch peerIndex
  rw [same]
  rfl

theorem books_acceptReplay (slot : Slot) (object frame : ℕ) : books (w.acceptReplay slot object frame) = books w := by
  obtain ⟨windows, same⟩ := Worker.acceptReplay_eq w slot object frame
  rw [same]
  rfl

/-! ### Counting -/

/-- Counting is done in the books. -/
theorem books_recordSuccess (epoch peerIndex : ℤ) :
    books (w.recordSuccess epoch peerIndex) = (books w).recordSuccess epoch peerIndex := by
  by_cases unlimited : w.failureTolerance < 0
  · have alike : (books w).failureTolerance < 0 := unlimited
    rw [Worker.recordSuccess, Worker.recordSuccess, if_pos unlimited, if_pos alike]
  · have alike : ¬ (books w).failureTolerance < 0 := unlimited
    rw [Worker.recordSuccess, Worker.recordSuccess, if_neg unlimited, if_neg alike]
    rfl

end Books

section Entries
variable {log : List Mark} {w : Worker K G}

theorem failures_failed (sender other : ℤ × ℤ) (tolerance : ℤ) (metricsEnabled : Bool) :
    failures sender (log ++ [.failed other tolerance metricsEnabled]) =
      failures sender log + if other = sender then 1 else 0 := by
  simp [failures, tally_snoc, Mark.resets, Mark.fails]

theorem failures_opened (sender other : ℤ × ℤ) :
    failures sender (log ++ [.opened other]) = if other = sender then 0 else failures sender log := by
  simp [failures, tally_snoc, Mark.resets, Mark.fails]

theorem crossings_quiet {mark : Mark} (quiet : announces log mark = []) :
    crossings (log ++ [mark]) = crossings log := by
  simp [crossings, alarms_snoc, quiet]

/-- **A failure is entered once**, and announced when it takes the count past the tolerance. -/
theorem Entered.recordFailure (entered : Entered log w) (epoch peerIndex : ℤ) :
    Entered (log ++ [.failed (epoch, peerIndex) w.failureTolerance w.metricsEnabled])
      (w.recordFailure epoch peerIndex) := by
  have raised : crossings (log ++ [.failed (epoch, peerIndex) w.failureTolerance w.metricsEnabled]) =
      crossings log ++ announces log (.failed (epoch, peerIndex) w.failureTolerance w.metricsEnabled) :=
    alarms_snoc announces log _
  by_cases unlimited : w.failureTolerance < 0
  · have same : w.recordFailure epoch peerIndex = w := if_pos unlimited
    have silent : announces log (.failed (epoch, peerIndex) w.failureTolerance w.metricsEnabled) = [] := by
      refine if_neg fun crosses => ?_
      omega
    rw [same]
    exact ⟨fun tolerates => absurd unlimited (Int.not_lt.mpr tolerates),
      by rw [raised, silent, List.append_nil]; exact entered.announced⟩
  · have count := entered.counted (Int.not_lt.mp unlimited) (epoch, peerIndex)
    generalize counting :
      { w with failureCounts := w.failureCounts.set (epoch, peerIndex) (failures (epoch, peerIndex) log + 1) } = v
    have tolerance : v.failureTolerance = w.failureTolerance := by rw [← counting]
    have switch : v.metricsEnabled = w.metricsEnabled := by rw [← counting]
    have before : invalidations v = crossings log := by rw [← counting]; exact entered.announced
    have set (sender : ℤ × ℤ) : (v.failureCounts.get? sender).getD 0 = failures sender log +
        if (epoch, peerIndex) = sender then 1 else 0 := by
      rw [← counting]
      dsimp only
      rw [OrderedMap.get?_set]
      by_cases own : sender = (epoch, peerIndex)
      · simp [own]
      · simpa [own, Ne.symm own] using entered.counted (Int.not_lt.mp unlimited) sender
    have records : w.recordFailure epoch peerIndex =
        if (failures (epoch, peerIndex) log : ℤ) ≤ w.failureTolerance ∧
            ((failures (epoch, peerIndex) log + 1 : ℕ) : ℤ) > w.failureTolerance then
          v.emitMetric (.keyInvalidated epoch peerIndex (failures (epoch, peerIndex) log + 1))
        else v := by
      rw [Worker.recordFailure, if_neg unlimited, ← counting, count]
    rw [records]
    split
    · rename_i crosses
      unfold Worker.emitMetric
      rw [switch]
      split
      · rename_i posts
        refine ⟨fun _ sender => (set sender).trans (failures_failed sender _ _ _).symm, ?_⟩
        have alarm : announces log (.failed (epoch, peerIndex) w.failureTolerance w.metricsEnabled) =
            [.keyInvalidated epoch peerIndex (failures (epoch, peerIndex) log + 1)] := if_pos ⟨posts, by omega⟩
        rw [raised, alarm, ← before]
        simp [invalidations, Worker.emit, List.filterMap_append, invalidation]
      · rename_i silent
        refine ⟨fun _ sender => (set sender).trans (failures_failed sender _ _ _).symm, ?_⟩
        have none : announces log (.failed (epoch, peerIndex) w.failureTolerance w.metricsEnabled) = [] :=
          if_neg fun posts => silent posts.1
        rw [raised, none, List.append_nil, before]
    · rename_i stays
      refine ⟨fun _ sender => (set sender).trans (failures_failed sender _ _ _).symm, ?_⟩
      have none : announces log (.failed (epoch, peerIndex) w.failureTolerance w.metricsEnabled) = [] :=
        if_neg fun posts => stays (by omega)
      rw [raised, none, List.append_nil, before]

theorem Entered.recordSuccess (entered : Entered log w) (epoch peerIndex : ℤ) :
    Entered (log ++ [.opened (epoch, peerIndex)]) (w.recordSuccess epoch peerIndex) := by
  by_cases unlimited : w.failureTolerance < 0
  · have same : w.recordSuccess epoch peerIndex = w := if_pos unlimited
    rw [same]
    exact ⟨fun tolerates => absurd unlimited (Int.not_lt.mpr tolerates),
      entered.announced.trans (crossings_quiet rfl).symm⟩
  · have cleared : w.recordSuccess epoch peerIndex =
        { w with failureCounts := w.failureCounts.set (epoch, peerIndex) 0 } := if_neg unlimited
    rw [cleared]
    refine ⟨fun tolerates sender => ?_, entered.announced.trans (crossings_quiet rfl).symm⟩
    dsimp only
    rw [OrderedMap.get?_set, failures_opened]
    by_cases own : sender = (epoch, peerIndex)
    · simp [own]
    · simpa [own, Ne.symm own] using entered.counted tolerates sender

end Entries

/-! ## One frame -/

/-- The sender that the context of an AEAD failure names. -/
def contextOf : JsError → Option (ℤ × ℤ)
  | .aeadAuth _ _ (some epoch) (some peerIndex) _ => some (epoch, peerIndex)
  | .ratchetWindowExhausted _ epoch peerIndex _ => some (epoch, peerIndex)
  | _ => none

/-- The counting part of the drain's failure handler. -/
def chargeContext (w : Worker K G) (refused : JsError) : Worker K G :=
  match contextOf refused with
  | some sender => w.recordFailure sender.1 sender.2
  | none => w

theorem books_failDrain (w : Worker K G) (refused : JsError) :
    books (failDrain w refused) = books (chargeContext w refused) := by
  unfold failDrain
  rw [books_emit _ rfl]
  cases refused with
  | aeadAuth message kid epoch peerIndex ctr => cases epoch <;> cases peerIndex <;> rfl
  | _ => rfl

/-- The counting part of the failure handler of `decodeFrame`. -/
def chargeVars (w : Worker K G) (vars : HeaderVars) (refused : JsError) : Worker K G :=
  if vars.epoch ≥ 0 ∧ vars.peerIndex ≥ 0 ∧ refused.isAeadFailure then w.recordFailure vars.epoch vars.peerIndex else w

theorem books_failDecode (w : Worker K G) (vars : HeaderVars) (refused : JsError) :
    books (failDecode w vars refused) = books (chargeVars w vars refused) := by
  have quiet (v : Worker K G) (code : String) (epoch peerIndex : Option ℤ) :
      books (v.emitMetric (.decryptFail code epoch peerIndex)) = books v := books_emitMetric v rfl
  unfold failDecode
  dsimp only
  split
  · exact quiet _ _ _ _
  · exact quiet _ _ _ _
  · exact quiet _ _ _ _
  · rw [books_emit _ rfl, quiet]
    rfl

/-- The bytes in which a payload's header stands, when it is taken for a format. -/
abbrev bufOf (payload : Bytes) (guess : FormatGuess) : Bytes := payload.drop guess.prefixLen

/-- What opening a payload fails with: an AEAD failure names the sender, unless there is no
window and the tag does not fit. -/
def Attributed (w₀ : Worker K G) (buf : Bytes) (sender : ℤ × ℤ) (refused : JsError) : Prop :=
  (refused.isAeadFailure = true → contextOf refused = some sender ∨
    w₀.ratchetWindowSize = 0 ∧ ∃ hdr, parseHeader buf = .ok hdr ∧ buf.length < hdr.bodyOffset + aeadTagBytes) ∧
  (refused.isAeadFailure = false → contextOf refused = none)

section Frame
variable {w₀ w : Worker K G} {at_ : AwaitPoint} {start : Worker K G} {ref : Ref} {payload : Bytes} {guess : FormatGuess}
  {probed : Option Probed} {hdr : SFrameHeader}

theorem attributed_plain {buf : Bytes} {sender : ℤ × ℤ} {refused : JsError} (plain : refused.isAeadFailure = false)
    (silent : contextOf refused = none) : Attributed w₀ buf sender refused :=
  ⟨fun failed => absurd (plain.symm.trans failed) Bool.false_ne_true, fun _ => silent⟩

/-- Opening a frame leaves the books alone. -/
theorem keeps_books (parsed : parseHeader (bufOf payload guess) = .ok hdr) {slot : Slot} (own : slotOf w₀ hdr = slot) :
    Keeps runtime (fun w => books w = books w₀) (Unopened (bufOf payload guess) w₀.kidCodec)
      (Attributed w₀ (bufOf payload guess) (slot.epoch, slot.peerIndex)) (openingOf payload guess slot) where
  promised same _ _ := same
  advances same _ _ _ := same
  retries {w} same _ _ := (books_emitMetric w rfl).trans same
  attempts {w} same := by
    have codec : w.kidCodec = w₀.kidCodec := congrArg (·.kidCodec) same
    rw [← codec]
    exact sframeDecrypt_throws _ _ _ _ _ _
  windowless {w} same windowless refused failed := by
    have size : w.ratchetWindowSize = w₀.ratchetWindowSize := congrArg (·.ratchetWindowSize) same
    cases failed with
    | unparsed | unknown | unsalted => exact attributed_plain rfl rfl
    | short message hdr parsed short => exact ⟨fun _ => .inr ⟨size ▸ windowless, hdr, parsed, short⟩, nofun⟩
    | refused message other parsedOther =>
      obtain rfl := Except.ok.inj (parsed.symm.trans parsedOther)
      exact ⟨fun _ => .inl (by rw [← own]; rfl), nofun⟩
  derives := by
    rintro _ ⟨message, rfl | rfl⟩
    · exact attributed_plain rfl rfl
    · exact attributed_plain rfl rfl
  missing _ := attributed_plain rfl rfl
  exhausted _ _ := ⟨fun _ => .inl rfl, nofun⟩
  stuck := attributed_plain rfl rfl

theorem delivered_recordSuccess (w : Worker K G) (epoch peerIndex : ℤ) :
    (w.recordSuccess epoch peerIndex).delivered = w.delivered := by
  unfold Worker.recordSuccess
  split <;> rfl

/-- The books after a frame has been opened. -/
def paid (w₀ : Worker K G) (slot : Slot) (ref : Ref) : Worker K G :=
  { w₀.recordSuccess slot.epoch slot.peerIndex with delivered := w₀.delivered ++ [(slot, ref)] }

theorem books_paid (same : books w = books w₀) (slot : Slot) (ref : Ref) :
    books (paid w slot ref) = books (paid w₀ slot ref) := by
  have counted : books (w.recordSuccess slot.epoch slot.peerIndex) = books
    (w₀.recordSuccess slot.epoch slot.peerIndex) := by
    rw [books_recordSuccess, same, books_recordSuccess]
  have delivered : w.delivered = w₀.delivered := congrArg (·.delivered) same
  change { books (w.recordSuccess slot.epoch slot.peerIndex) with delivered := w.delivered ++ [(slot, ref)] } =
    { books (w₀.recordSuccess slot.epoch slot.peerIndex) with delivered := w₀.delivered ++ [(slot, ref)] }
  rw [counted, delivered]

/-- A frame that has passed the gates is opened and its account closed, or fails as said. -/
theorem openAndAccept_books (parsed : parseHeader (bufOf payload guess) = .ok hdr) {slot : Slot}
    (own : slotOf w₀ hdr = slot) (object : ℕ) (same : books w = books w₀) :
    Meets (solo fun w => books w = books w₀) (openAndAccept runtime ref (slot, object) payload guess probed)
      (fun _ _ _ w => books w = books (paid w₀ slot ref))
      (fun _ _ refused w => books w = books w₀ ∧
        Attributed w₀ (bufOf payload guess) (slot.epoch, slot.peerIndex) refused)
      at_ start w := by
  have keeps : Keeps runtime (fun w => books w = books w₀) (Unopened (bufOf payload guess) w₀.kidCodec)
      (Attributed w₀ (bufOf payload guess) (slot.epoch, slot.peerIndex)) (openingOf payload guess (slot, object).1) :=
    keeps_books parsed own
  refine meets_bind.mpr (meets_mono (openResolved_opens keeps (fun same => same) ref probed same)
    (fun at_ start opened v same => ?_) fun _ _ _ _ held => held)
  have accepted := (books_acceptReplay v slot object ref).trans same
  simp only [acceptFrame, meets_bind, meets_update, meets_pure]
  refine meets_mono (durableAccept_opens (fun w => books w = books w₀) (fun _ _ same => same) _ slot accepted)
    (fun _ _ _ v same => ?_) fun _ _ _ _ held => held
  rw [books_clearStarve, delivered_recordSuccess]
  exact books_paid same slot ref

/-! ### The gates -/

theorem books_windowAsked (w : Worker K G) (slot : Slot) : books (windowAsked w slot) = books w :=
  books_getReplayWindow w slot.epoch slot.peerIndex

theorem books_bothAsked (runtime : Runtime K G) (w : Worker K G) (slot : Slot) :
    books (bothAsked runtime w slot) = books w := by
  have passed : books (windowPassed w slot) = books w := books_windowAsked w slot
  unfold bothAsked guardAsked
  split
  · exact passed
  · exact passed

theorem senderRefusal_passes {slot : Slot} (takes : ¬ windowTakes w slot = false)
    (grants : ¬ guardTakes runtime w slot = false) (trusted : ¬ w.isKeyInvalid slot.epoch slot.peerIndex = true) :
    senderRefusal runtime w slot = none := by
  rw [senderRefusal, if_neg takes, if_neg grants, if_neg trusted]

/-- How an opening behind the gates ends. -/
theorem openAndAccept_ends (parsed : parseHeader (bufOf payload guess) = .ok hdr) {object : ℕ}
    {outcome : Except JsError Bytes} {v : Worker K G}
    (ran : alone (openAndAccept runtime ref (slotOf w₀ hdr, object) payload guess probed)
      (bothAsked runtime w₀ (slotOf w₀ hdr)) = some (outcome, v)) :
    (∀ opened, outcome = .ok opened → books v = books (paid w₀ (slotOf w₀ hdr) ref)) ∧
      ∀ refused, outcome = .error refused → books v = books w₀ ∧ Attributed w₀ (bufOf payload guess)
        ((slotOf w₀ hdr).epoch, (slotOf w₀ hdr).peerIndex) refused := by
  obtain ⟨_, _, ended⟩ := meets_alone (fun moved => moved) (openAndAccept_books parsed rfl object
    (books_bothAsked runtime w₀ (slotOf w₀ hdr)) : Meets _ _ _ _ { point := .start } w₀ _) ran
  cases outcome with
  | ok opened => exact ⟨fun _ _ => ended, nofun⟩
  | error refused => exact ⟨nofun, fun other same => by cases same; exact ended⟩

/-- How a frame that the live path takes up ends: parked, opened, or refused. -/
theorem decodePayload_ends (parsed : parseHeader (bufOf payload guess) = .ok hdr)
    {outcome : Except JsError Path} {v : Worker K G}
    (ran : alone (decodePayload runtime ref payload guess probed hdr) w₀ = some (outcome, v)) :
    (∀ path, outcome = .ok path → books v = books w₀ ∨ books v = books (paid w₀ (slotOf w₀ hdr) ref)) ∧
      ∀ refused, outcome = .error refused → books v = books w₀ ∧ Attributed w₀ (bufOf payload guess)
        ((slotOf w₀ hdr).epoch, (slotOf w₀ hdr).peerIndex) refused := by
  have gate {refused : JsError} {w' : Worker K G} (same : books w' = books w₀)
      (plain : refused.isAeadFailure = false) (silent : contextOf refused = none)
      (ends : (.error refused, w') = (outcome, v)) :
      (∀ path, outcome = .ok path → books v = books w₀ ∨ books v = books (paid w₀ (slotOf w₀ hdr) ref)) ∧
        ∀ refused, outcome = .error refused → books v = books w₀ ∧ Attributed w₀ (bufOf payload guess)
          ((slotOf w₀ hdr).epoch, (slotOf w₀ hdr).peerIndex) refused := by
    obtain ⟨rfl, rfl⟩ := Prod.mk.inj ends
    exact ⟨fun _ never => (by cases never), fun other own => by cases own; exact ⟨same, attributed_plain plain silent⟩⟩
  by_cases stale : (slotOf w₀ hdr).epoch < w₀.currentMinValidEpoch
  · simp only [slotOf] at stale
    simp only [decodePayload, alone_bind, alone_read, Option.bind_some, if_pos stale, alone_update, alone_throw] at ran
    refine gate ?_ rfl rfl (Option.some.inj ran)
    rw [books_emitMetric _ rfl, reportDrop, books_emit _ rfl]
  · by_cases early : w₀.currentEpoch = -1
    · rw [decodePayload_parks stale early] at ran
      obtain ⟨rfl, rfl⟩ := Prod.mk.inj (Option.some.inj ran)
      exact ⟨fun _ _ => .inl (books_pushToQueue w₀ ref _), fun _ never => by cases never⟩
    · obtain ⟨first, second, third, asks, -⟩ := decodePayload_asks runtime ref payload guess probed stale early rfl
      have asked := ran
      rw [asks, alone_askSender] at asked
      split at asked
      · simp only [alone_bind, alone_update, Option.bind_some, alone_throw] at asked
        exact gate ((books_reportReplay _ _ _ _).trans (books_windowAsked _ _)) rfl rfl (Option.some.inj asked)
      · rename_i takes
        split at asked
        · simp only [alone_bind, alone_update, Option.bind_some, alone_throw] at asked
          exact gate ((books_reportReplay _ _ _ _).trans (books_bothAsked _ _ _)) rfl rfl (Option.some.inj asked)
        · rename_i grants
          split at asked
          · simp only [alone_bind, alone_update, Option.bind_some, alone_throw] at asked
            exact gate ((books_reportKeyInvalid _ _ _ _).trans (books_bothAsked _ _ _)) rfl rfl (Option.some.inj asked)
          · rename_i trusted
            rw [decodePayload_opens stale early (senderRefusal_passes takes grants trusted)] at ran
            obtain ⟨⟨opening, v'⟩, opened, ended⟩ := Option.map_eq_some_iff.mp ran
            obtain ⟨returned, threw⟩ := openAndAccept_ends parsed opened
            cases opening with
            | ok plaintext =>
              obtain ⟨rfl, rfl⟩ := Prod.mk.inj ended
              refine ⟨fun _ _ => .inr ?_, fun _ never => by cases never⟩
              rw [books_emitMetric _ rfl]
              exact returned plaintext rfl
            | error refused =>
              obtain ⟨rfl, rfl⟩ := Prod.mk.inj ended
              exact ⟨fun _ never => (by cases never), fun other same => by cases same; exact threw refused rfl⟩

/-- How a frame that the drain takes up ends; it fails only behind the gates. -/
theorem drainPayload_ends (parsed : parseHeader (bufOf payload guess) = .ok hdr)
    {outcome : Except JsError Unit} {v : Worker K G}
    (ran : alone (drainPayload runtime ref payload guess probed hdr) w₀ = some (outcome, v)) :
    (outcome = .ok () → books v = books w₀ ∨ books v = books (paid w₀ (slotOf w₀ hdr) ref)) ∧
      ∀ refused, outcome = .error refused → books v = books w₀ ∧ Attributed w₀ (bufOf payload guess)
        ((slotOf w₀ hdr).epoch, (slotOf w₀ hdr).peerIndex) refused ∧
        w₀.currentMinValidEpoch ≤ (slotOf w₀ hdr).epoch ∧
        (w₀.cachedKey (slotOf w₀ hdr).epoch (slotOf w₀ hdr).peerIndex).isSome ∧
        senderRefusal runtime w₀ (slotOf w₀ hdr) = none := by
  have returns {w' : Worker K G} (same : books w' = books w₀) (ends : (.ok (), w') = (outcome, v)) :
      (outcome = .ok () → books v = books w₀ ∨ books v = books (paid w₀ (slotOf w₀ hdr) ref)) ∧
      ∀ refused, outcome = .error refused → books v = books w₀ ∧ Attributed w₀ (bufOf payload guess)
        ((slotOf w₀ hdr).epoch, (slotOf w₀ hdr).peerIndex) refused ∧
        w₀.currentMinValidEpoch ≤ (slotOf w₀ hdr).epoch ∧
        (w₀.cachedKey (slotOf w₀ hdr).epoch (slotOf w₀ hdr).peerIndex).isSome ∧
        senderRefusal runtime w₀ (slotOf w₀ hdr) = none := by
    obtain ⟨rfl, rfl⟩ := Prod.mk.inj ends
    exact ⟨fun _ => .inl same, nofun⟩
  by_cases stale : (slotOf w₀ hdr).epoch < w₀.currentMinValidEpoch
  · rw [(drainPayload_stale stale).1] at ran
    exact returns rfl (Option.some.inj ran)
  · cases cached : w₀.cachedKey (slotOf w₀ hdr).epoch (slotOf w₀ hdr).peerIndex with
    | none =>
      rw [drainPayload_requeues stale cached] at ran
      rw [cached] at returns
      exact returns (books_pushToQueue w₀ ref _) (Option.some.inj ran)
    | some key =>
      rw [cached] at returns
      have asked := ran
      rw [(drainPayload_asks runtime ref payload guess probed stale rfl cached).1, alone_askSender] at asked
      split at asked
      · exact returns ((books_reportReplay _ _ _ _).trans (books_windowAsked _ _)) (Option.some.inj asked)
      · rename_i takes
        split at asked
        · exact returns ((books_reportReplay _ _ _ _).trans (books_bothAsked _ _ _)) (Option.some.inj asked)
        · rename_i grants
          split at asked
          · exact returns ((books_reportKeyInvalid _ _ _ _).trans (books_bothAsked _ _ _)) (Option.some.inj asked)
          · rename_i trusted
            have passes := senderRefusal_passes takes grants trusted
            rw [drainPayload_opens stale cached passes] at ran
            obtain ⟨⟨opening, v'⟩, opened, ended⟩ := Option.map_eq_some_iff.mp ran
            obtain ⟨rfl, rfl⟩ := Prod.mk.inj ended
            obtain ⟨returned, threw⟩ := openAndAccept_ends parsed opened
            cases opening with
            | ok plaintext => exact ⟨fun _ => .inr (returned plaintext rfl), nofun⟩
            | error refused =>
              refine ⟨nofun, fun other same => ?_⟩
              cases same
              obtain ⟨unchanged, attributed⟩ := threw refused rfl
              exact ⟨unchanged, attributed, Int.not_lt.mp stale, rfl, passes⟩

end Frame

/-! ## Entering a frame -/

def flags (w : Worker K G) : Bool × Bool := (w.draining, w.pendingDrain)

theorem flags_of_books {w w' : Worker K G} (same : books w' = books w) : flags w' = flags w :=
  (congrArg flags same : flags (books w') = flags (books w))

theorem flags_recordFailure (w : Worker K G) (epoch peerIndex : ℤ) :
    flags (w.recordFailure epoch peerIndex) = flags w :=
  (congrArg flags (Worker.core_recordFailure w epoch peerIndex) : flags
    (w.recordFailure epoch peerIndex).core = flags w.core)

theorem flags_recordSuccess (w : Worker K G) (epoch peerIndex : ℤ) :
    flags (w.recordSuccess epoch peerIndex) = flags w :=
  (congrArg flags (Worker.core_recordSuccess w epoch peerIndex) : flags
    (w.recordSuccess epoch peerIndex).core = flags w.core)

/-- The marks have been entered, and the drain is as it was. -/
def Enters (w : Worker K G) (marks : List Mark) (v : Worker K G) : Prop :=
  flags v = flags w ∧ ∀ log, Entered log w → Entered (log ++ marks) v

section Enters
variable {w v : Worker K G}

theorem enters_of_books (same : books v = books w) : Enters w [] v :=
  ⟨flags_of_books same, fun log entered => by rw [List.append_nil]; exact entered.of_books same⟩

theorem enters_trans {marks more : List Mark} {u : Worker K G} (first : Enters w marks v) (second : Enters v more u) :
    Enters w (marks ++ more) u :=
  ⟨second.1.trans first.1, fun log entered => by
    rw [← List.append_assoc]
    exact second.2 _ (first.2 log entered)⟩

/-- A frame that returns is opened, or leaves no mark. -/
theorem enters_returned {α : Type} {value : α} {slot : Slot} {ref : Ref}
    (ends : books v = books w ∨ books v = books (paid w slot ref)) :
    Enters w (outcomeMarks w (slot.epoch, slot.peerIndex) (.ok value, v)) v := by
  rcases ends with same | opened
  · have kept : v.delivered = w.delivered := congrArg (·.delivered) same
    have unmarked : outcomeMarks w (slot.epoch, slot.peerIndex) ((.ok value, v) : Except JsError α × Worker K G) = [] :=
      if_pos kept
    rw [unmarked]
    exact enters_of_books same
  · have grown : v.delivered = w.delivered ++ [(slot, ref)] := congrArg (·.delivered) opened
    have marked : outcomeMarks w (slot.epoch, slot.peerIndex) ((.ok value, v) : Except JsError α × Worker K G) =
        [.opened (slot.epoch, slot.peerIndex)] := if_neg (by rw [grown]; simp)
    rw [marked]
    refine ⟨(flags_of_books opened).trans (flags_recordSuccess w slot.epoch slot.peerIndex), fun log entered => ?_⟩
    obtain ⟨counted, announced⟩ := entered.recordSuccess slot.epoch slot.peerIndex
    have settled : Entered (log ++ [.opened (slot.epoch, slot.peerIndex)]) (paid w slot ref) := ⟨counted, announced⟩
    exact settled.of_books opened

/-- A frame that fails is charged to its sender, or leaves no mark. -/
theorem enters_failed {α : Type} {refused : JsError} {sender : ℤ × ℤ} {final u : Worker K G} (same : books v = books w)
    (charges : refused.isAeadFailure = true → books final = books (v.recordFailure sender.1 sender.2))
    (spares : refused.isAeadFailure = false → books final = books v) :
    Enters w (outcomeMarks w sender ((.error refused, u) : Except JsError α × Worker K G)) final := by
  cases fails : refused.isAeadFailure with
  | false =>
    have unmarked : outcomeMarks w sender ((.error refused, u) : Except JsError α × Worker K G) = [] :=
      if_neg (by simp [fails])
    rw [unmarked]
    exact enters_of_books ((spares fails).trans same)
  | true =>
    have marked : outcomeMarks w sender ((.error refused, u) : Except JsError α × Worker K G) =
        [.failed sender w.failureTolerance w.metricsEnabled] := if_pos fails
    rw [marked]
    refine ⟨(flags_of_books (charges fails)).trans ((flags_recordFailure v _ _).trans (flags_of_books same)),
      fun log entered => ?_⟩
    have tolerance : v.failureTolerance = w.failureTolerance := congrArg (·.failureTolerance) same
    have switch : v.metricsEnabled = w.metricsEnabled := congrArg (·.metricsEnabled) same
    have charged := (entered.of_books same).recordFailure sender.1 sender.2
    rw [tolerance, switch] at charged
    exact charged.of_books (charges fails)

end Enters

/-- What a probe has opened is what the header says in the format it has found. -/
theorem firstOpened_names {w : Worker K G} {payload : Bytes} {candidates : List FormatGuess} {found : Probed}
    (opened : firstOpened runtime w payload candidates = some found) :
    ∃ hdr, parseHeader (bufOf payload found.guess) = .ok hdr ∧ found.vars =
      { kid := hdr.kid, epoch := (slotOf w hdr).epoch, peerIndex := (slotOf w hdr).peerIndex, ctr := hdr.ctr } := by
  induction candidates with
  | nil => cases opened
  | cons guess rest ih =>
    unfold firstOpened at opened
    split at opened
    · rename_i hdr epoch peerIndex plaintext attempted
      obtain rfl := Option.some.inj opened
      unfold probeAttempt at attempted
      dsimp only at attempted
      split at attempted
      · cases attempted
      · rename_i parsed
        split at attempted
        · cases attempted
        · split at attempted
          · cases attempted
          · simp only [Option.some.injEq, Prod.mk.injEq] at attempted
            obtain ⟨rfl, rfl, rfl, -⟩ := attempted
            exact ⟨_, parsed, rfl⟩
    · exact ih opened

/-- The live path counts against the sender that the header names, probed or not. -/
theorem countedVars_eq {w : Worker K G} {ref : Ref} {payload : Bytes} {hdr : SFrameHeader}
    (parsed : parseHeader (bufOf payload (formatOf runtime w ref payload).1) = .ok hdr) :
    countedVars w (formatOf runtime w ref payload).2 hdr =
      { kid := hdr.kid, epoch := (slotOf w hdr).epoch, peerIndex := (slotOf w hdr).peerIndex, ctr := hdr.ctr } := by
  unfold formatOf resolution at parsed ⊢
  split
  · rfl
  · rename_i uncached
    rw [uncached] at parsed
    dsimp only at parsed
    split
    · rename_i found opened
      rw [opened] at parsed
      obtain ⟨other, parsedOther, names⟩ := firstOpened_names opened
      obtain rfl := Except.ok.inj (parsed.symm.trans parsedOther)
      exact names
    · rfl

section Paths
variable {w v : Worker K G} {ref : Ref}

theorem unparsed_plain {refused : JsError} (unparsed : Unparsed refused) :
    refused.isAeadFailure = false ∧ contextOf refused = none := by
  obtain ⟨message, bufferLength, rfl⟩ := unparsed
  exact ⟨rfl, rfl⟩

theorem chargeVars_plain (w : Worker K G) (vars : HeaderVars) {refused : JsError}
    (plain : refused.isAeadFailure = false) : chargeVars w vars refused = w :=
  if_neg (by simp [plain])

/-- **The live path enters a frame once.** -/
theorem decodeFrame_enters {outcome : Except JsError Path}
    (ran : alone (decodeFrame runtime ref) w = some (outcome, v)) : Enters w (liveMarks runtime w ref) v := by
  unfold liveMarks
  cases stripped : sifPayload w.sifTrailer (w.frames.read ref).data with
  | none =>
    simp only [decodeFrame, alone_bind, alone_read, Option.bind_some, stripped, alone_pure] at ran
    cases ran
    exact enters_of_books rfl
  | some payload =>
    dsimp only
    rw [ran]
    unfold payloadMarks
    cases parsed : parseHeader (payload.drop (formatOf runtime w ref payload).1.prefixLen) with
    | error unparsed =>
      obtain ⟨plain, -⟩ := unparsed_plain (parseHeader_throws _ _ parsed)
      rw [alone_decodeFrame_unparsed stripped parsed] at ran
      cases ran
      exact enters_of_books ((books_failDecode _ _ _).trans (by rw [chargeVars_plain _ _ plain]))
    | ok hdr =>
      rw [alone_decodeFrame stripped parsed] at ran
      obtain ⟨⟨result, v'⟩, decoded, ended⟩ := Option.map_eq_some_iff.mp ran
      obtain ⟨returned, threw⟩ := decodePayload_ends parsed decoded
      cases result with
      | ok path =>
        obtain ⟨rfl, rfl⟩ := Prod.mk.inj ended
        have unnoted : books (noted w ref hdr) = books w := rfl
        have ends : books v' = books w ∨ books v' = books (paid w (slotOf w hdr) ref) :=
          (returned path rfl).imp_right fun opened => opened.trans (books_paid unnoted (slotOf w hdr) ref)
        exact (enters_returned ends : Enters w (outcomeMarks w _ (.ok path, v')) v')
      | error refused =>
        obtain ⟨rfl, rfl⟩ := Prod.mk.inj ended
        obtain ⟨same, -⟩ := threw refused rfl
        generalize charging : failDecode v' (countedVars w (formatOf runtime w ref payload).2 hdr) refused = final
        suffices charged : Enters w (outcomeMarks w (w.kidCodec.decode hdr.kid)
            ((.error refused, final) : Except JsError Path × Worker K G)) final from charged
        subst charging
        refine enters_failed (v := v') same (fun fails => ?_) fun plain => ?_
        · rw [books_failDecode, countedVars_eq parsed, chargeVars,
            if_pos ⟨decode_epoch_nonneg w.kidCodec hdr.kid, decode_peerIndex_nonneg w.kidCodec hdr.kid, fails⟩]
          rfl
        · rw [books_failDecode, chargeVars_plain _ _ plain]

theorem alone_drainAttempt {raw : Bytes} (own : (w.frames.read ref).data = raw) {hdr : SFrameHeader}
    (parsed : parseHeader (raw.drop (formatOf runtime w ref raw).1.prefixLen) = .ok hdr) :
    alone (drainAttempt runtime w ref) w = alone (drainPayload runtime ref raw (formatOf runtime w ref raw).1
      (formatOf runtime w ref raw).2 hdr) w := by
  subst own
  simp only [formatOf] at parsed ⊢
  simp only [drainAttempt, alone_bind, alone_resolveFormat, Option.bind_some, alone_settle, parsed]

/-- **The drain enters a frame once**, when its failure names its sender. -/
theorem drainFrame_enters (named : ¬ Nameless runtime w ref) {outcome : Except JsError Unit}
    (ran : alone (drainFrame runtime ref) w = some (outcome, v)) : Enters w (drainedMarks runtime w ref) v := by
  unfold drainedMarks payloadMarks
  generalize own : (w.frames.read ref).data = raw
  cases parsed : parseHeader (raw.drop (formatOf runtime w ref raw).1.prefixLen) with
  | error unparsed =>
    obtain ⟨-, silent⟩ := unparsed_plain (parseHeader_throws _ _ parsed)
    rw [alone_drainFrame_unparsed own parsed] at ran
    cases ran
    exact enters_of_books ((books_failDrain _ _).trans (by rw [chargeContext, silent]))
  | ok hdr =>
    rw [alone_drainFrame_eq, alone_drainAttempt own parsed] at ran
    rw [alone_drainAttempt own parsed]
    obtain ⟨⟨result, v'⟩, drained, ended⟩ := Option.map_eq_some_iff.mp ran
    obtain ⟨returned, threw⟩ := drainPayload_ends parsed drained
    rw [drained]
    cases result with
    | ok done =>
      obtain ⟨rfl, rfl⟩ := Prod.mk.inj ended
      exact enters_returned (returned rfl)
    | error refused =>
      obtain ⟨rfl, rfl⟩ := Prod.mk.inj ended
      obtain ⟨same, ⟨attributed, silent⟩, live, cached, passes⟩ := threw refused rfl
      suffices charged : Enters w (outcomeMarks w (w.kidCodec.decode hdr.kid)
          ((.error refused, v') : Except JsError Unit × Worker K G)) (failDrain v' refused) from charged
      refine enters_failed (v := v') same (fun fails => ?_) fun plain => ?_
      · rw [books_failDrain, chargeContext]
        rcases attributed fails with names | ⟨windowless, other, parsedOther, short⟩
        · rw [names]
          rfl
        · -- the failure names nobody: nothing is counted, and without a tolerance nothing is to be
          have tolerance : v'.failureTolerance = w.failureTolerance := congrArg (·.failureTolerance) same
          have unlimited : v'.failureTolerance < 0 := by
            rw [tolerance]
            by_contra tolerates
            refine named ⟨Int.not_lt.mp tolerates, windowless, ?_⟩
            rw [own]
            obtain rfl := Except.ok.inj (parsed.symm.trans parsedOther)
            exact ⟨hdr, parsed, short, live, cached, passes⟩
          have uncounted (epoch peerIndex : ℤ) : v'.recordFailure epoch peerIndex = v' := if_pos unlimited
          rw [uncounted]
          cases contextOf refused with
          | none => rfl
          | some sender => exact congrArg books (uncounted _ _)
      · rw [books_failDrain, chargeContext, silent plain]

end Paths

/-! ## Calls -/

/-- The drain handles what a frame fails with. -/
theorem drainFrame_returns {w v : Worker K G} {ref : Ref} {outcome : Except JsError Unit}
    (ran : alone (drainFrame runtime ref) w = some (outcome, v)) : outcome = .ok () := by
  rw [alone_drainFrame_eq] at ran
  obtain ⟨⟨tried, _⟩, -, ended⟩ := Option.map_eq_some_iff.mp ran
  cases tried <;> cases ended <;> rfl

theorem drainFrames_enters {queue : List Ref} {w v : Worker K G} (named : Named runtime queue w)
    {outcome : Except JsError Unit} (ran : alone (drainFrames runtime queue) w = some (outcome, v)) :
    outcome = .ok () ∧ Enters w (drainMarks runtime queue w) v := by
  induction queue generalizing w with
  | nil =>
    cases ran
    exact ⟨rfl, enters_of_books rfl⟩
  | cons ref rest ih =>
    obtain ⟨own, later⟩ := named
    simp only [drainFrames, alone_bind] at ran
    unfold drainMarks
    cases drained : alone (drainFrame runtime ref) w with
    | none => simp [drained] at ran
    | some result =>
      obtain ⟨first, u⟩ := result
      obtain rfl := drainFrame_returns drained
      rw [drained, Option.bind_some] at ran
      obtain ⟨returns, entered⟩ := ih (later _ _ drained) ran
      exact ⟨returns, enters_trans (drainFrame_enters own drained) entered⟩

/-- A drain with none before it goes over the queue once. -/
theorem drainPreEpochQueue_enters {w v : Worker K G} (settled : flags w = (false, false))
    (named : Named runtime w.preEpochQueue (taken w)) {outcome : Except JsError Unit}
    (ran : alone (drainPreEpochQueue runtime) w = some (outcome, v)) :
    Enters w (drainMarks runtime w.preEpochQueue (taken w)) v := by
  obtain ⟨idle, unasked⟩ := Prod.mk.inj settled
  unfold drainPreEpochQueue at ran
  cases budget : runtime.patience with
  | zero =>
    rw [budget] at ran
    cases ran
  | succ patience =>
    rw [budget] at ran
    simp only [drainPasses, alone_bind, alone_read, Option.bind_some, idle, Bool.false_eq_true, ↓reduceIte,
      alone_update] at ran
    change ((alone (drainFrames runtime w.preEpochQueue) (taken w)).bind _) = _ at ran
    cases drained : alone (drainFrames runtime w.preEpochQueue) (taken w) with
    | none => simp [drained] at ran
    | some result =>
      obtain ⟨first, u⟩ := result
      obtain ⟨rfl, kept, entered⟩ := drainFrames_enters named drained
      have asked : u.pendingDrain = false := (congrArg Prod.snd kept).trans unasked
      simp only [drained, Option.bind_some, asked, Bool.false_eq_true, ↓reduceIte, alone_pure] at ran
      cases ran
      refine ⟨?_, fun log held => ?_⟩
      · rw [settled]
        rfl
      · obtain ⟨counted, announced⟩ := entered log ⟨held.counted, held.announced⟩
        exact ⟨counted, announced⟩

theorem failures_installed (sender : ℤ × ℤ) (log : List Mark) (epoch : ℤ) (peers : List ℤ) :
    failures sender (log ++ [.installed epoch peers]) =
      if sender.1 = epoch ∧ sender.2 ∈ peers then 0 else failures sender log := by
  simp [failures, tally_snoc, Mark.resets, Mark.fails]

/-- Closing the accounts of an epoch's peers. -/
theorem resets_enter (w : Worker K G) (epoch : ℤ) (peers : List ℤ) :
    Enters w [.installed epoch peers] (peers.foldl (fun state pi => state.resetFailureCount epoch pi) w) := by
  have reset (v : Worker K G) :
      let closed := peers.foldl (fun state pi => state.resetFailureCount epoch pi) v
      flags closed = flags v ∧ closed.failureTolerance = v.failureTolerance ∧ closed.emitted = v.emitted ∧
        ∀ sender, closed.failureCounts.get? sender =
          if sender.1 = epoch ∧ sender.2 ∈ peers then none else v.failureCounts.get? sender := by
    induction peers generalizing v with
    | nil => exact ⟨rfl, rfl, rfl, fun sender => by simp⟩
    | cons peer rest ih =>
      obtain ⟨flags, tolerance, emitted, counts⟩ := ih (v.resetFailureCount epoch peer)
      refine ⟨flags, tolerance, emitted, fun sender => ?_⟩
      rw [List.foldl_cons, counts, Worker.resetFailureCount, OrderedMap.get?_delete]
      obtain ⟨e, p⟩ := sender
      by_cases own : e = epoch
      · by_cases first : p = peer
        · simp [own, first]
        · simp [own, first]
      · simp [own]
  obtain ⟨kept, tolerance, emitted, counts⟩ := reset w
  refine ⟨kept, fun log entered => ⟨fun tolerates sender => ?_, ?_⟩⟩
  · rw [counts, failures_installed]
    split
    · rfl
    · exact entered.counted (tolerance ▸ tolerates) sender
  · rw [invalidations, emitted, crossings_quiet rfl]
    exact entered.announced

/-- An installed epoch closes the accounts of its senders. -/
theorem installEpoch_enters {w installed : Worker K G} {epoch selfPeerIndex : ℤ} {keys : KeyBundles K}
    (ok : w.installEpoch epoch selfPeerIndex keys = .ok installed) :
    Enters w [.installed epoch keys.keys] installed := by
  unfold Worker.installEpoch at ok
  cases made : Worker.installKeys w.kidCodec epoch keys.entries ∅ with
  | error refused => simp [made, bind, Except.bind] at ok
  | ok table =>
    simp only [made, bind, Except.bind] at ok
    have closed := resets_enter (w.withEntry epoch selfPeerIndex table) epoch keys.keys
    unfold Worker.withEntry at closed
    generalize keys.keys.foldl _ _ = fresh at ok closed
    have enters {v : Worker K G} (same : books v = books fresh) : Enters w [.installed epoch keys.keys] v :=
      ⟨(flags_of_books same).trans closed.1, fun log entered =>
        (closed.2 log ⟨entered.counted, entered.announced⟩).of_books same⟩
    split at ok
    · split at ok
      · cases ok
        exact enters ((books_emitMetric _ rfl).trans (books_emit _ rfl))
      · cases ok
        exact enters (books_emit _ rfl)
    · cases ok
      exact enters rfl

/-! ### Calls that are not about frames -/

section Quiet
variable {w₀ w v : Worker K G} {at_ : AwaitPoint} {start : Worker K G}

/-- A change of the worker that the accounts are not about. -/
theorem enters_unnoticed (kept : flags v = flags w) (tolerance : v.failureTolerance = w.failureTolerance)
    (counts : v.failureCounts = w.failureCounts) (same : invalidations v = invalidations w) : Enters w [] v := by
  refine ⟨kept, fun log entered => ?_⟩
  rw [List.append_nil]
  refine ⟨fun tolerates sender => ?_, same.trans entered.announced⟩
  rw [counts]
  exact entered.counted (tolerance ▸ tolerates) sender

/-- The accounts are all closed. -/
theorem enters_cleared (kept : flags v = flags w) (counts : v.failureCounts = ∅)
    (same : invalidations v = invalidations w) : Enters w [.cleared] v := by
  refine ⟨kept, fun log entered => ⟨fun _ sender => ?_, ?_⟩⟩
  · rw [counts, failures, tally_snoc]
    rfl
  · rw [same, crossings_quiet rfl]
    exact entered.announced

theorem encodeFrame_opens (ref : Ref) (frameKind : Option FrameKind) (same : books w = books w₀) :
    Opens (fun w => books w = books w₀) (fun _ => True) (Media.encodeFrame runtime ref frameKind) at_ start w := by
  apply opens_read
  split
  · exact ⟨same, trivial⟩
  · dsimp only
    split
    · exact ⟨same, trivial⟩
    · refine opens_bind (opens_update same) fun _ _ _ w same => ?_
      refine opens_bind (opens_settle same fun _ _ => trivial) fun _ _ _ w same => ?_
      have sealing (key : SFrameKey K) (ctr : ℕ) : books (noteSealing w key ctr) = books w := by
        unfold noteSealing
        split <;> rfl
      refine opens_bind (opens_update ((sealing _ _).trans same)) fun _ _ _ w same => ?_
      refine opens_bind (opens_pause same) fun _ _ _ w same => ?_
      refine opens_bind (opens_settle same fun _ _ => trivial) fun _ _ _ w same => ?_
      refine opens_bind (opens_update same) fun _ _ _ w same => ?_
      refine opens_bind (opens_update ((books_emitMetric w rfl).trans same)) fun _ _ _ w same => ?_
      have ended : books w.clearEncryptStarve = books w := by
        unfold Worker.clearEncryptStarve
        split <;> rfl
      exact opens_update (ended.trans same)

theorem encodeTransform_opens (ref : Ref) (frameKind : Option FrameKind) (same : books w = books w₀) :
    Opens (fun w => books w = books w₀) (fun _ => True) (encodeTransform runtime ref frameKind) at_ start w := by
  refine meets_tryCatch.mpr (meets_mono (opens_bind (encodeFrame_opens ref frameKind same) fun _ _ _ w same => ?_)
    (fun _ _ _ _ held => held) fun _ _ refused w held => ?_)
  · exact opens_read (opens_bind (opens_pause same) fun _ _ _ _ same => opens_update same)
  · have noted (v : Worker K G) (reason : EncryptFailure) (detail : String) :
        books (v.noteEncryptDrop reason detail) = books v := by
      unfold Worker.noteEncryptDrop
      split
      · exact books_emit _ rfl
      · dsimp only
        split
        · exact books_emit _ rfl
        · rfl
    exact opens_update ((noted _ _ _).trans ((books_emitMetric w rfl).trans held.1))

theorem handleInit_opens (msg : InitMsg) (enters : Enters w₀ [] w) :
    Opens (Enters w₀ []) (fun _ => True) (handleInit runtime msg) at_ start w := by
  have onward {v v' : Worker K G} (enters : Enters w₀ [] v) (next : Enters v [] v') : Enters w₀ [] v' :=
    enters_trans enters next
  refine opens_bind (opens_update (onward enters (enters_unnoticed rfl rfl rfl rfl))) fun _ _ _ w enters => ?_
  refine opens_bind ?_ fun _ _ _ w enters => opens_bind ?_ fun _ _ _ w enters => opens_bind ?_ fun _ _ _ w enters => ?_
  · unfold initKidCodec
    split
    · exact enters
    · refine opens_bind (opens_settle enters fun _ _ => trivial) fun _ _ _ w enters => ?_
      exact opens_update (onward enters (enters_unnoticed rfl rfl rfl rfl))
  · unfold initQueueCap
    split
    · exact enters
    · split
      · exact opens_update (onward enters (enters_unnoticed rfl rfl rfl rfl))
      · exact enters
  · unfold initDurable
    split
    · dsimp only
      split
      · exact ⟨enters, trivial⟩
      · apply opens_read
        split
        · exact ⟨enters, trivial⟩
        · exact opens_update (onward enters (enters_unnoticed rfl rfl rfl rfl))
    · exact opens_update (onward enters (enters_unnoticed rfl rfl rfl rfl))
  · exact opens_update (onward enters (enters_of_books (books_emit w rfl)))

end Quiet

/-! ### Calls -/

section Calls
variable {w v : Worker K G}

theorem handleEpoch_enters (settled : flags w = (false, false)) {epoch selfPeerIndex : ℤ} {keys : KeyBundles K}
    (named : ∀ installed, w.installEpoch epoch selfPeerIndex keys = .ok installed →
      Named runtime installed.preEpochQueue (taken installed)) {outcome : Except JsError Unit}
    (ran : alone (handleEpoch runtime epoch selfPeerIndex keys) w = some (outcome, v)) :
    Enters w (match w.installEpoch epoch selfPeerIndex keys with
      | .error _ => []
      | .ok installed => .installed epoch keys.keys :: drainMarks runtime installed.preEpochQueue (taken installed))
          v := by
  simp only [handleEpoch, alone_bind, alone_read, Option.bind_some, alone_settle, alone_update] at ran
  cases made : w.installEpoch epoch selfPeerIndex keys with
  | error refused =>
    simp only [made] at ran
    cases ran
    exact enters_of_books rfl
  | ok installed =>
    simp only [made] at ran
    have closed := installEpoch_enters made
    exact enters_trans closed (drainPreEpochQueue_enters (closed.1.trans settled) (named installed made) ran)

theorem handleMessage_enters (settled : flags w = (false, false)) {msg : InMsg K}
    (named : CallNamed runtime w (.message msg))
    {outcome : Except JsError Unit} (ran : alone (handleMessage runtime msg) w = some (outcome, v)) :
    Enters w (callMarks runtime w (.message msg)) v := by
  cases msg with
  | init msg =>
    have opens : Opens (Enters w []) (fun _ => True) (handleInit runtime msg) { point := .start } w w :=
      handleInit_opens msg (enters_of_books rfl)
    obtain ⟨_, _, ended⟩ := meets_alone (fun moved => moved) opens ran
    cases outcome with
    | ok done => exact ended
    | error refused => exact ended.1
  | epoch epoch selfPeerIndex keys => exact handleEpoch_enters settled named ran
  | rotate newEpoch selfPeerIndex keys => exact handleEpoch_enters settled named ran
  | streams | setSifTrailer | setRatchetWindow | setMetricsEnabled | setReplayWindow =>
    cases ran
    exact enters_unnoticed rfl rfl rfl rfl
  | setFailureTolerance | teardown =>
    cases ran
    exact enters_cleared rfl rfl rfl

/-- What a call returns is not about the worker. -/
theorem alone_returning {α β : Type} {program : Task K G α} {value : α → β} {outcome : Except JsError β}
    (ran : alone (program >>= fun result => return value result) w = some (outcome, v)) :
    ∃ result, alone program w = some (result, v) := by
  rw [alone_bind] at ran
  obtain ⟨⟨result, _⟩, own, ended⟩ := Option.bind_eq_some_iff.mp ran
  cases result <;> cases ended <;> exact ⟨_, own⟩

/-- A frame object that arrives is not about the accounts. -/
theorem alone_receive {α : Type} (frame : EncodedFrame) (rest : Ref → Task K G α) :
    alone (receive frame >>= rest) w = alone (rest w.frames.next) (receiveFrame frame w) := by
  simp [receive]

theorem enters_received {frame : EncodedFrame} {marks : List Mark} (enters : Enters (receiveFrame frame w) marks v) :
    Enters w marks v :=
  ⟨enters.1, fun log entered => enters.2 log ⟨entered.counted, entered.announced⟩⟩

theorem decodeTransform_enters {ref : Ref} {outcome : Except JsError Unit}
    (ran : alone (decodeTransform runtime ref) w = some (outcome, v)) : Enters w (liveMarks runtime w ref) v := by
  simp only [decodeTransform, alone_tryCatch, alone_bind] at ran
  cases decoded : alone (decodeFrame runtime ref) w with
  | none => simp [decoded] at ran
  | some result =>
    obtain ⟨tried, u⟩ := result
    have entered := decodeFrame_enters decoded
    cases tried with
    | error refused =>
      simp only [decoded, Option.bind_some, alone_pure] at ran
      cases ran
      exact entered
    | ok path =>
      simp only [decoded, Option.bind_some, alone_read, alone_pause, alone_update] at ran
      cases ran
      have passed := enters_trans entered (enters_of_books (v := enqueueFrame .decode ref u) rfl)
      rwa [List.append_nil] at passed

theorem tryDecryptWithRatchet_enters {site : RatchetPoint → AwaitPoint} {o : Opening} {outcome : Except JsError Bytes}
    (ran : alone (tryDecryptWithRatchet runtime site o) w = some (outcome, v)) : Enters w [] v := by
  have keeps : Keeps runtime (fun v => books v = books w) (fun _ => True) (fun _ => True) o :=
    { promised := fun same _ _ => same
      advances := fun same _ _ _ => same
      retries := fun {v} same _ _ => (books_emitMetric v rfl).trans same
      attempts := fun _ _ _ => trivial
      windowless := fun _ _ _ _ => trivial
      derives := fun _ _ => trivial
      missing := fun _ => trivial
      exhausted := fun _ _ => trivial
      stuck := trivial }
  have opens : Opens (fun v => books v = books w) (fun _ => True) (tryDecryptWithRatchet runtime site o)
      { point := .start } w w := tryDecryptWithRatchet_opens keeps site rfl
  obtain ⟨_, _, ended⟩ := meets_alone (fun moved => moved) opens ran
  cases outcome with
  | ok plaintext => exact enters_of_books ended
  | error refused => exact enters_of_books ended.1

/-- **Every call enters its marks.** -/
theorem call_enters (settled : flags w = (false, false)) (call : Call K) (named : CallNamed runtime w call)
    {outcome : Except JsError Outcome} (ran : alone (call.program runtime) w = some (outcome, v)) :
    Enters w (callMarks runtime w call) v := by
  have encoded {program : Task K G Unit} {u : Worker K G} {result : Except JsError Unit}
      (opens : Opens (fun v => books v = books u) (fun _ => True) program { point := .start } u u)
      (ran : alone program u = some (result, v)) : Enters u [] v := by
    obtain ⟨_, _, ended⟩ := meets_alone (fun moved => moved) opens ran
    cases result with
    | ok done => exact enters_of_books ended
    | error refused => exact enters_of_books ended.1
  cases call with
  | message msg =>
    obtain ⟨result, ran⟩ := alone_returning ran
    exact handleMessage_enters settled named ran
  | wipeTimer epoch =>
    obtain ⟨result, ran⟩ := alone_returning ran
    simp only [fireWipeTimer, alone_bind, alone_read, Option.bind_some] at ran
    split at ran
    · cases ran
      exact enters_unnoticed rfl rfl rfl rfl
    · cases ran
      exact enters_of_books rfl
  | tick elapsed =>
    cases ran
    exact enters_unnoticed rfl rfl rfl rfl
  | transform side frame =>
    cases side with
    | encode =>
      have ran := (alone_receive frame _).symm.trans ran
      obtain ⟨result, ran⟩ := alone_returning ran
      exact enters_received (encoded (encodeTransform_opens _ _ rfl) ran)
    | decode =>
      have ran := (alone_receive frame _).symm.trans ran
      obtain ⟨result, ran⟩ := alone_returning ran
      exact enters_received (decodeTransform_enters ran)
  | encodeFrame frame =>
    have ran := (alone_receive frame _).symm.trans ran
    obtain ⟨result, ran⟩ := alone_returning ran
    exact enters_received (encoded (encodeFrame_opens _ _ rfl) ran)
  | decodeFrame frame =>
    have ran := (alone_receive frame _).symm.trans ran
    obtain ⟨result, ran⟩ := alone_returning ran
    exact enters_received (decodeFrame_enters ran)
  | tryDecryptWithRatchet opening =>
    obtain ⟨result, ran⟩ := alone_returning ran
    exact tryDecryptWithRatchet_enters ran
  | drainPreEpochQueue =>
    obtain ⟨result, ran⟩ := alone_returning ran
    exact drainPreEpochQueue_enters settled named ran

/-- The accounts of every state reached, with nothing of a drain left over. -/
theorem inTurn_entered {log : List Mark} (run : InTurn runtime (CallNamed runtime) log w) :
    flags w = (false, false) ∧ Entered log w := by
  induction run with
  | created =>
    refine ⟨rfl, fun tolerates => ?_, rfl⟩
    exact absurd tolerates (show ¬ (0 : ℤ) ≤ -1 by decide)
  | called call earlier allowed ran ih =>
    obtain ⟨settled, entered⟩ := ih
    obtain ⟨kept, next⟩ := call_enters settled call allowed ran
    exact ⟨kept.trans settled, next _ entered⟩

end Calls

/-- **Failure accounting.** Calls are made one after the other on a fresh worker: frames are
decoded and drained, epochs installed, tolerances set, sessions ended. As long as no drain
meets a frame that passes its gates with a ciphertext too short for a tag while there is a
tolerance and no ratchet window, the accounts are right in every state reached. -/
theorem failures_accounted {log : List Mark} {w : Worker K G} (run : InTurn runtime (CallNamed runtime) log w) :
    Accounted log w :=
  (inTurn_entered run).2.accounted

/-! ## Two runs -/

section Runs
open Specimen (bundles)

variable {condition : Worker Bytes Unit → Call Bytes → Prop} {log : List Mark} {w : Worker Bytes Unit}

/-- The worker after a call that has nothing to wait for. -/
def after (w : Worker Bytes Unit) (call : Call Bytes) : Worker Bytes Unit :=
  ((alone (call.program Specimen.runtime) w).map Prod.snd).getD w

theorem inTurn_after (call : Call Bytes) (earlier : InTurn Specimen.runtime condition log w)
    (allowed : condition w call)
    (ends : (alone (call.program Specimen.runtime) w).isSome = true) :
    InTurn Specimen.runtime condition (log ++ callMarks Specimen.runtime w call) (after w call) := by
  obtain ⟨⟨outcome, v⟩, ran⟩ := Option.isSome_iff_exists.mp ends
  have ended : after w call = v := by rw [after, ran]; rfl
  rw [ended]
  exact .called call earlier allowed ran

/-- The receiver tolerates no failure, and has no ratchet window. -/
def strict : Worker Bytes Unit :=
  after (after .createWorkerState (.message (.setFailureTolerance 0))) (.message (.setRatchetWindow 0))

/-- The message that brings the keys of two senders. -/
def keysArrive : Call Bytes := .message (.epoch 0 1 (bundles [7, 9]))

/-- A header of the first sender, without room for a tag. -/
def headerOnly : Call Bytes := .decodeFrame { data := [3] }

theorem strict_inTurn {condition : Worker Bytes Unit → Call Bytes → Prop}
    (tolerance : condition .createWorkerState (.message (.setFailureTolerance 0)))
    (window : condition (after .createWorkerState (.message (.setFailureTolerance 0)))
      (.message (.setRatchetWindow 0))) :
    InTurn Specimen.runtime condition [.cleared] strict :=
  inTurn_after _ (inTurn_after _ .created tolerance rfl) window rfl

/-- A frame without room for a tag comes before the keys: the drain fails to open it, and
counts nothing. -/
theorem drain_miscounts : ¬ ∀ log w, InTurn Specimen.runtime (fun _ _ => True) log w → Accounted log w := by
  intro accounted
  have begun : InTurn Specimen.runtime (fun _ _ => True) [.cleared] strict := strict_inTurn trivial trivial
  have early := inTurn_after headerOnly begun trivial (by decide +kernel)
  have drained := inTurn_after keysArrive early trivial (by decide +kernel)
  have count := (accounted _ _ drained).counted (by decide +kernel) (0, 0)
  have uncounted : ((after (after strict headerOnly) keysArrive).failureCounts.get? (0, 0)).getD 0 = 0 := by
    decide +kernel
  have failed : failures (0, 0) ([.cleared] ++ callMarks Specimen.runtime strict headerOnly ++
      callMarks Specimen.runtime (after strict headerOnly) keysArrive) = 1 := by
    decide +kernel
  rw [uncounted, failed] at count
  cases count

/-- The same frame after the keys is counted on the live path. -/
theorem failures_accounted_live : Accounted [.cleared, .installed 0 [0, 1], .failed (0, 0) 0 false]
    (after (after strict keysArrive) headerOnly) := by
  have unqueued (installed : Worker Bytes Unit) (ok : strict.installEpoch 0 1 (bundles [7, 9]) = .ok installed) :
      installed.preEpochQueue = [] := by
    obtain ⟨table, -, same⟩ := Worker.core_installEpoch ok
    have queue := congrArg (·.preEpochQueue) same
    split at queue <;> exact queue
  have keyed : InTurn Specimen.runtime (CallNamed Specimen.runtime)
      ([.cleared] ++ callMarks Specimen.runtime strict keysArrive) (after strict keysArrive) := by
    refine inTurn_after keysArrive (strict_inTurn trivial trivial) (fun installed ok => ?_) (by decide +kernel)
    rw [unqueued installed ok]
    trivial
  have failed := inTurn_after headerOnly keyed trivial (by decide +kernel)
  have log : [Mark.cleared] ++ callMarks Specimen.runtime strict keysArrive ++
      callMarks Specimen.runtime (after strict keysArrive) headerOnly =
      [.cleared, .installed 0 [0, 1], .failed (0, 0) 0 false] := by
    decide +kernel
  exact log ▸ failures_accounted failed

end Runs
end SFrameRatchet.FailureAccounts
