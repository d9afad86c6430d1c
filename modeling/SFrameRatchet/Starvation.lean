import SFrameRatchet.Coalescing
import SFrameRatchet.QueueDiscipline

/-! The starvation signals of the worker. Frames that do not fit into the pre-epoch
queue and frames that the encoder gives up each have an alarm among the fields of the
state; `noteStarveDrop` and `clearStarve` move the one, `noteEncryptDrop` and
`clearEncryptStarve` the other, and nothing else of the worker but a teardown does. A run
is told by what can be seen of it: an overflow that is reported, a frame that is handed
over, an encode call that ends with its frame or without. -/
namespace SFrameRatchet.Starvation
open Coalescing Collections Coroutine Interleaving Media QueueDiscipline Throwing Tracing WorkerChanges

variable {K G : Type}

/-! ## The alarms among the fields -/

def isStarved : OutMsg → Bool
  | .decryptStarved .. => true
  | _ => false

def isEncryptFailure : OutMsg → Bool
  | .encryptFailure .. => true
  | _ => false

/-- Every `decrypt_starved` so far. -/
def starvations (w : Worker K G) : List OutMsg := w.emitted.filter isStarved

/-- Every `encrypt_failure` so far. -/
def encryptFailures (w : Worker K G) : List OutMsg := w.emitted.filter isEncryptFailure

def decodeAlarm (w : Worker K G) : Option (Episode ℚ) :=
  if w.starveActive then some ⟨w.starveSinceMs, w.starveFramesDropped, w.starveLastEmitMs⟩ else none

def encodeAlarm (w : Worker K G) : Option (Episode ℚ) :=
  if w.encryptStarveActive then
    some ⟨w.encryptStarveSinceMs, w.encryptStarveFramesDropped, w.encryptStarveLastEmitMs⟩
  else none

/-- A `decrypt_starved` with the drops of its episode and how long it has lasted. -/
def Reports (msg : OutMsg) (framesDropped : ℕ) (sinceMs : ℚ) : Prop :=
  ∃ peerIndex, msg = .decryptStarved peerIndex framesDropped sinceMs

/-- What the main thread reads of the decode side, and what its signals depend on. -/
def decodeSide (w : Worker K G) := (decodeAlarm w, starvations w)

/-- The same for the encode side. -/
def encodeSide (w : Worker K G) := (encodeAlarm w, encryptFailures w)

/-! ## Drops and recoveries -/

section Operations
variable (w : Worker K G)

@[simp] theorem starvations_emit (msg : OutMsg) :
    starvations (w.emit msg) = starvations w ++ [msg].filter isStarved := by
  simp [starvations, Worker.emit]

@[simp] theorem encryptFailures_emit (msg : OutMsg) :
    encryptFailures (w.emit msg) = encryptFailures w ++ [msg].filter isEncryptFailure := by
  simp [encryptFailures, Worker.emit]

theorem decodeSide_emit {msg : OutMsg} (other : isStarved msg = false) : decodeSide (w.emit msg) = decodeSide w :=
  Prod.ext rfl (by simp [decodeSide, other])

theorem encodeSide_emit {msg : OutMsg} (other : isEncryptFailure msg = false) :
    encodeSide (w.emit msg) = encodeSide w :=
  Prod.ext rfl (by simp [encodeSide, other])

theorem sides_emitMetric (event : MetricsEvent) :
    decodeSide (w.emitMetric event) = decodeSide w ∧ encodeSide (w.emitMetric event) = encodeSide w := by
  unfold Worker.emitMetric
  split
  · exact ⟨decodeSide_emit w rfl, encodeSide_emit w rfl⟩
  · exact ⟨rfl, rfl⟩

/-- A drop moves the alarm of the decode side, and posts what the move posts. -/
theorem noteStarveDrop_moves (peerIndex : Option ℤ) : ∃ posted,
    starvations (w.noteStarveDrop peerIndex) = starvations w ++ posted ∧
    Moves starveCoalesceMs Reports (decodeAlarm w) (.dropped w.clock posted)
      (decodeAlarm (w.noteStarveDrop peerIndex)) ∧
    encodeSide (w.noteStarveDrop peerIndex) = encodeSide w := by
  cases active : w.starveActive with
  | false =>
    have noted : w.noteStarveDrop peerIndex = { w with
        starveActive := true, starveSinceMs := w.clock, starveFramesDropped := 1
        starveLastEmitMs := w.clock, starvePeerIndex := peerIndex }.emit (.decryptStarved peerIndex 1 0) := by
      simp [Worker.noteStarveDrop, active]
    have quiet : decodeAlarm w = none := by simp [decodeAlarm, active]
    rw [noted, quiet]
    refine ⟨[.decryptStarved peerIndex 1 0], starvations_emit _ _, ?_, encodeSide_emit _ rfl⟩
    exact .signal none w.clock _ rfl ⟨peerIndex, by simp [note]⟩
  | true =>
    have under : decodeAlarm w = some ⟨w.starveSinceMs, w.starveFramesDropped, w.starveLastEmitMs⟩ := by
      simp [decodeAlarm, active]
    by_cases old : starveCoalesceMs ≤ w.clock - w.starveLastEmitMs
    · have noted : w.noteStarveDrop peerIndex = { w with
          starveFramesDropped := w.starveFramesDropped + 1, starvePeerIndex := peerIndex.or w.starvePeerIndex
          starveLastEmitMs := w.clock }.emit (.decryptStarved (peerIndex.or w.starvePeerIndex)
            (w.starveFramesDropped + 1) (w.clock - w.starveSinceMs)) := by
        simp [Worker.noteStarveDrop, active, old]
      have moved : Moves starveCoalesceMs Reports (decodeAlarm w) (.dropped w.clock [.decryptStarved
          (peerIndex.or w.starvePeerIndex) (w.starveFramesDropped + 1) (w.clock - w.starveSinceMs)])
          (some (note starveCoalesceMs w.clock (decodeAlarm w))) :=
        .signal _ _ _ (by simpa [under, signals] using old) ⟨peerIndex.or w.starvePeerIndex, by rw [under, note]⟩
      rw [noted]
      refine ⟨[_], starvations_emit _ _, ?_, encodeSide_emit _ rfl⟩
      rw [under, note, if_pos old] at moved
      rw [under]
      simpa [decodeAlarm, Worker.emit, active] using moved
    · have noted : w.noteStarveDrop peerIndex = { w with
          starveFramesDropped := w.starveFramesDropped + 1
          starvePeerIndex := peerIndex.or w.starvePeerIndex } := by
        simp [Worker.noteStarveDrop, active, old]
      have moved : Moves starveCoalesceMs Reports (decodeAlarm w) (.dropped w.clock [])
          (some (note starveCoalesceMs w.clock (decodeAlarm w))) :=
        .quiet _ _ (by simpa [under, signals] using old)
      rw [noted]
      refine ⟨[], (List.append_nil _).symm, ?_, rfl⟩
      rw [under, note, if_neg old] at moved
      rw [under]
      simpa [decodeAlarm, active] using moved

theorem clearStarve_sides :
    starvations w.clearStarve = starvations w ∧ decodeAlarm w.clearStarve = none ∧
      encodeSide w.clearStarve = encodeSide w := by
  unfold Worker.clearStarve
  cases active : w.starveActive with
  | false => exact ⟨rfl, by simp [decodeAlarm, active], rfl⟩
  | true => exact ⟨rfl, rfl, rfl⟩

/-- A full queue gives up a frame: the drop is noted, and nothing else is starvation. -/
theorem pushToQueue_moves (frame : Ref) (peerIndex : Option ℤ) (full : w.preEpochQueue.length ≥ w.preEpochQueueCap) :
    ∃ posted, starvations (w.pushToQueue frame peerIndex) = starvations w ++ posted ∧
      Moves starveCoalesceMs Reports (decodeAlarm w) (.dropped w.clock posted)
        (decodeAlarm (w.pushToQueue frame peerIndex)) ∧
      encodeSide (w.pushToQueue frame peerIndex) = encodeSide w := by
  let evicted := { w with preEpochQueue := w.preEpochQueue.dropLast }.emit
    (.decryptFailure .queueOverflow none none none none none)
  have reported : decodeSide (evicted.emitMetric (.queueDrop .preEpochFull none)) = decodeSide w ∧
      encodeSide (evicted.emitMetric (.queueDrop .preEpochFull none)) = encodeSide w := by
    obtain ⟨decode, encode⟩ := sides_emitMetric evicted (.queueDrop .preEpochFull none)
    exact ⟨decode.trans (decodeSide_emit _ rfl), encode.trans (encodeSide_emit _ rfl)⟩
  have clock : (evicted.emitMetric (.queueDrop .preEpochFull none)).clock = w.clock := by
    unfold Worker.emitMetric
    split <;> rfl
  obtain ⟨posted, starved, moves, encode⟩ :=
    noteStarveDrop_moves (evicted.emitMetric (.queueDrop .preEpochFull none)) peerIndex
  have parked : w.pushToQueue frame peerIndex =
      let room := (evicted.emitMetric (.queueDrop .preEpochFull none)).noteStarveDrop peerIndex
      { room with preEpochQueue := room.preEpochQueue ++ [frame] } := by
    unfold Worker.pushToQueue
    rw [if_pos full]
  rw [parked]
  refine ⟨posted, ?_, ?_, encode.trans reported.2⟩
  · exact starved.trans (congrArg (· ++ posted) (congrArg Prod.snd reported.1))
  · rw [clock, show decodeAlarm _ = decodeAlarm w from congrArg Prod.fst reported.1] at moves
    exact moves

/-- A frame that the encoder gives up moves the alarm of the encode side. -/
theorem noteEncryptDrop_moves (reason : EncryptFailure) (detail : String) : ∃ posted,
    encryptFailures (w.noteEncryptDrop reason detail) = encryptFailures w ++ posted ∧
    Moves starveCoalesceMs (fun _ _ _ => True) (encodeAlarm w) (.dropped w.clock posted)
      (encodeAlarm (w.noteEncryptDrop reason detail)) ∧
    decodeSide (w.noteEncryptDrop reason detail) = decodeSide w := by
  cases active : w.encryptStarveActive with
  | false =>
    have noted : w.noteEncryptDrop reason detail = { w with
        encryptStarveActive := true, encryptStarveSinceMs := w.clock, encryptStarveFramesDropped := 1
        encryptStarveLastEmitMs := w.clock }.emit (.encryptFailure reason detail) := by
      simp [Worker.noteEncryptDrop, active]
    have quiet : encodeAlarm w = none := by simp [encodeAlarm, active]
    rw [noted, quiet]
    exact ⟨[_], encryptFailures_emit _ _, .signal none w.clock _ rfl trivial, decodeSide_emit _ rfl⟩
  | true =>
    have under : encodeAlarm w =
        some ⟨w.encryptStarveSinceMs, w.encryptStarveFramesDropped, w.encryptStarveLastEmitMs⟩ := by
      simp [encodeAlarm, active]
    by_cases old : starveCoalesceMs ≤ w.clock - w.encryptStarveLastEmitMs
    · have noted : w.noteEncryptDrop reason detail = { w with
          encryptStarveFramesDropped := w.encryptStarveFramesDropped + 1
          encryptStarveLastEmitMs := w.clock }.emit (.encryptFailure reason detail) := by
        simp [Worker.noteEncryptDrop, active, old]
      have moved : Moves starveCoalesceMs (fun _ _ _ => True) (encodeAlarm w)
          (.dropped w.clock [OutMsg.encryptFailure reason detail])
            (some (note starveCoalesceMs w.clock (encodeAlarm w))) :=
        .signal _ _ _ (by simpa [under, signals] using old) trivial
      rw [noted]
      refine ⟨[_], encryptFailures_emit _ _, ?_, decodeSide_emit _ rfl⟩
      rw [under, note, if_pos old] at moved
      rw [under]
      simpa [encodeAlarm, Worker.emit, active] using moved
    · have noted : w.noteEncryptDrop reason detail =
          { w with encryptStarveFramesDropped := w.encryptStarveFramesDropped + 1 } := by
        simp [Worker.noteEncryptDrop, active, old]
      have moved : Moves (σ := OutMsg) starveCoalesceMs (fun _ _ _ => True) (encodeAlarm w) (.dropped w.clock [])
          (some (note starveCoalesceMs w.clock (encodeAlarm w))) :=
        .quiet _ _ (by simpa [under, signals] using old)
      rw [noted]
      refine ⟨[], (List.append_nil _).symm, ?_, rfl⟩
      rw [under, note, if_neg old] at moved
      rw [under]
      simpa [encodeAlarm, active] using moved

theorem clearEncryptStarve_sides :
    encryptFailures w.clearEncryptStarve = encryptFailures w ∧ encodeAlarm w.clearEncryptStarve = none ∧
      decodeSide w.clearEncryptStarve = decodeSide w := by
  unfold Worker.clearEncryptStarve
  cases active : w.encryptStarveActive with
  | false => exact ⟨rfl, by simp [encodeAlarm, active], rfl⟩
  | true => exact ⟨rfl, rfl, rfl⟩

theorem dropEncoded_moves (err : JsError) : ∃ posted,
    encryptFailures (dropEncoded w err) = encryptFailures w ++ posted ∧
    Moves starveCoalesceMs (fun _ _ _ => True) (encodeAlarm w) (.dropped w.clock posted)
      (encodeAlarm (dropEncoded w err)) ∧
    decodeSide (dropEncoded w err) = decodeSide w := by
  unfold dropEncoded
  generalize (if err.message = "worker: no active send epoch" then EncryptFailure.noEpoch else .encodeFailed) = reason
  obtain ⟨decode, encode⟩ := sides_emitMetric w (.encodeDrop (if reason = .noEpoch then "NO_EPOCH" else err.code))
  have clock : (w.emitMetric (.encodeDrop (if reason = .noEpoch then "NO_EPOCH" else err.code))).clock = w.clock := by
    unfold Worker.emitMetric
    split <;> rfl
  obtain ⟨posted, refused, moves, other⟩ := noteEncryptDrop_moves
    (w.emitMetric (.encodeDrop (if reason = .noEpoch then "NO_EPOCH" else err.code))) reason err.message
  refine ⟨posted, ?_, ?_, other.trans decode⟩
  · exact refused.trans (congrArg (· ++ posted) (congrArg Prod.snd encode))
  · rw [clock, show encodeAlarm _ = encodeAlarm w from congrArg Prod.fst encode] at moves
    exact moves

end Operations

/-! ## What is seen of a run -/

/-- What a worker has posted since. -/
def since (read : Worker K G → List OutMsg) (before after : Worker K G) : List OutMsg :=
  (read after).drop (read before).length

/-- What a change means to the decode side: an overflow is a drop, and a frame that is
handed over a recovery. -/
def decodeMarks (change : Worker K G × Worker K G) : List (Mark ℚ OutMsg) :=
  if overflows change.1 < overflows change.2 then
    [.dropped change.1.clock (since starvations change.1 change.2)]
  else if change.1.delivered.length < change.2.delivered.length then [.recovered]
  else []

/-- What a turn means to the encode side: an encode call that has its sealed frame is a
recovery, and a pipe that ends without one to pass on has dropped it. -/
def encodeMarks (call : Call K) (start : Worker K G) (status : Status AwaitPoint (Except JsError Outcome))
    (w : Worker K G) : List (Mark ℚ OutMsg) :=
  match call, status with
  | .encodeFrame _, .finished (.ok _) => [.recovered]
  | .transform .encode _, .suspended ⟨.encoded _, _, _, _⟩ => [.recovered]
  | .transform .encode _, .finished _ =>
    if start.enqueued.length < w.enqueued.length then []
    else [.dropped start.clock (since encryptFailures start w)]
  | _, _ => []

variable {ι : Type} [DecidableEq ι] {runtime : Runtime K G} {calls : ι → Call K}

/-- The marks of a turn on the decode side and on the encode side. -/
def turnMarks (calls : ι → Call K) (before : WorkerPool ι K G) (call : ι) (after : WorkerPool ι K G) :
    List (List (Mark ℚ OutMsg) × List (Mark ℚ OutMsg)) :=
  [((turnChanges before call).flatMap decodeMarks,
    encodeMarks (calls call) before.shared (after.statuses call) after.shared)]

/-! ## Alarms that follow -/

/-- An alarm follows its history, and nothing was posted since `before` but its signals. -/
def Sounds (tells : OutMsg → ℕ → ℚ → Prop) (before : List OutMsg) (log : List (Mark ℚ OutMsg))
    (side : Option (Episode ℚ) × List OutMsg) : Prop :=
  Follows starveCoalesceMs tells log side.1 ∧ side.2 = before ++ posts log

/-- An alarm that has followed its history still does after more marks. -/
def Rings (tells : OutMsg → ℕ → ℚ → Prop) (start : Option (Episode ℚ) × List OutMsg) (marks : List (Mark ℚ OutMsg))
    (side : Option (Episode ℚ) × List OutMsg) : Prop :=
  ∀ before log, Sounds tells before log start → Sounds tells before (log ++ marks) side

variable {start w w' : Worker K G} {tells : OutMsg → ℕ → ℚ → Prop} {posted : List OutMsg}
  {side side' first : Option (Episode ℚ) × List OutMsg} {marks : List (Mark ℚ OutMsg)}

theorem since_eq {read : Worker K G → List OutMsg} (grown : read w = read start ++ posted) :
    since read start w = posted := by
  rw [since, grown, List.drop_left]

theorem rings_refl : Rings tells side [] side := fun before log sounds => by
  rwa [List.append_nil]

theorem rings_trans {more : List (Mark ℚ OutMsg)} (earlier : Rings tells first marks side)
    (later : Rings tells side more side') : Rings tells first (marks ++ more) side' := fun before log sounds => by
  rw [← List.append_assoc]
  exact later before (log ++ marks) (earlier before log sounds)

theorem rings_dropped {alarm : Option (Episode ℚ)} {now : ℚ}
    (moves : Moves starveCoalesceMs tells side.1 (.dropped now posted) alarm) :
    Rings tells side [.dropped now posted] (alarm, side.2 ++ posted) := fun before log sounds => by
  refine ⟨.next sounds.1 moves, ?_⟩
  rw [sounds.2, posts_dropped, List.append_assoc]

theorem rings_recovered (side : Option (Episode ℚ) × List OutMsg) : Rings tells side [.recovered] (none, side.2) :=
  fun before log sounds => by
  refine ⟨.next sounds.1 (.recover _), ?_⟩
  rw [sounds.2, posts_recovered]

/-! ## The decode side, change by change -/

/-- The alarm of the decode side follows what the changes of a turn mean to it. -/
def Heard : Trace K G := fun start past w => Rings Reports (decodeSide start) (past.flatMap decodeMarks) (decodeSide w)

/-- The encode side stays as it was. -/
def Still : Trace K G := fun start _ w => encodeSide w = encodeSide start

variable {past : List (Worker K G × Worker K G)}

theorem heard_change (now : Heard start past w)
    (rings : Rings Reports (decodeSide w) (decodeMarks (w, w')) (decodeSide w')) :
    Heard start (past ++ [(w, w')]) w' := by
  rw [Heard, List.flatMap_append, List.flatMap_singleton]
  exact rings_trans now rings

/-- A change that is neither an overflow nor a delivery means nothing. -/
theorem decodeMarks_aside (counted : overflows w' = overflows w) (delivered : w'.delivered = w.delivered) :
    decodeMarks (w, w') = [] := by
  simp [decodeMarks, counted, delivered]

theorem heard_aside (now : Heard start past w) (counted : overflows w' = overflows w)
    (delivered : w'.delivered = w.delivered) (same : decodeSide w' = decodeSide w) :
    Heard start (past ++ [(w, w')]) w' := by
  apply heard_change now
  rw [decodeMarks_aside counted delivered, same]
  exact rings_refl

theorem sides_posture (same : posture w' = posture w) :
    decodeSide w' = decodeSide w ∧ encodeSide w' = encodeSide w := by
  have starved (v : Worker K G) : starvations v = (v.emitted.filter alarming).filter isStarved := by
    rw [List.filter_filter, starvations]
    congr 1
    funext msg
    cases msg <;> rfl
  have refused (v : Worker K G) : encryptFailures v = (v.emitted.filter alarming).filter isEncryptFailure := by
    rw [List.filter_filter, encryptFailures]
    congr 1
    funext msg
    cases msg <;> rfl
  simp only [posture, Prod.mk.injEq] at same
  constructor
  · simp only [decodeSide, decodeAlarm, starved, same]
  · simp only [encodeSide, encodeAlarm, refused, same]

theorem heard_onlooking : Onlooking (Heard : Trace K G) where
  fresh _ := rings_refl
  aside now same := heard_aside now (congrArg TailDrop.Shelf.overflows (shelf_posture same))
    (congrArg (fun fields => fields.2.2.1) same) (sides_posture same).1

/-- A frame that is parked is a drop if the queue is full. -/
theorem heard_pushToQueue (now : Heard start past w) (frame : Ref) (peerIndex : Option ℤ) :
    Heard start (past ++ [(w, w.pushToQueue frame peerIndex)]) (w.pushToQueue frame peerIndex) := by
  have pushed := congrArg TailDrop.Shelf.overflows (shelf_pushToQueue w frame peerIndex)
  change overflows (w.pushToQueue frame peerIndex) = _ at pushed
  by_cases full : w.preEpochQueueCap ≤ w.preEpochQueue.length
  · obtain ⟨posted, grown, moves, -⟩ := pushToQueue_moves w frame peerIndex full
    have counted : overflows (w.pushToQueue frame peerIndex) = overflows w + 1 := by
      have shelved : (shelf w).push frame = ⟨w.preEpochQueue.dropLast ++ [frame],
        w.preEpochQueueCap, overflows w + 1⟩ :=
        if_pos full
      rw [pushed, shelved]
    have marks : decodeMarks (w, w.pushToQueue frame peerIndex) = [.dropped w.clock posted] := by
      simp only [decodeMarks, counted, Nat.lt_succ_self, ↓reduceIte, since_eq grown]
    apply heard_change now
    rw [marks, decodeSide, decodeSide, grown]
    exact rings_dropped moves
  · have parked : w.pushToQueue frame peerIndex = { w with preEpochQueue := w.preEpochQueue ++ [frame] } := by
      unfold Worker.pushToQueue
      rw [if_neg full]
    rw [parked]
    exact heard_aside now rfl rfl rfl

/-- A frame that is handed over is a recovery, whether an episode was under way or not. -/
theorem heard_give (now : Heard start past w) (slot : Slot) (frame : Ref) (data : Bytes) :
    Heard start ((past ++ [(w, give w slot frame data)]) ++
      [(give w slot frame data, (give w slot frame data).clearStarve)]) (give w slot frame data).clearStarve := by
  have given : decodeMarks (w, give w slot frame data) = [.recovered] := by
    have counted : ¬ overflows w < overflows (give w slot frame data) := Nat.lt_irrefl _
    have handed : w.delivered.length < (give w slot frame data).delivered.length := by simp [give]
    simp only [decodeMarks, counted, handed, ↓reduceIte]
  have cleared : decodeMarks (give w slot frame data, (give w slot frame data).clearStarve) = [] := by
    apply decodeMarks_aside
    · exact congrArg (fun lane => lane.1.overflows) (lane_clearStarve (give w slot frame data))
    · unfold Worker.clearStarve
      split <;> rfl
  obtain ⟨kept, ended, -⟩ := clearStarve_sides (give w slot frame data)
  have rung : Rings Reports (decodeSide w) [.recovered] (decodeSide (give w slot frame data).clearStarve) := by
    have side : decodeSide (give w slot frame data).clearStarve = (none, starvations w) := Prod.ext ended kept
    rw [side]
    exact rings_recovered (decodeSide w)
  unfold Heard
  rw [List.append_assoc, List.flatMap_append, List.flatMap_append, List.flatMap_singleton,
    List.flatMap_singleton, given,
    cleared, List.append_nil]
  exact rings_trans now rung

theorem heard_following : Following (Heard : Trace K G) where
  toOnlooking := heard_onlooking
  parked := heard_pushToQueue
  given := heard_give
  taken now := heard_aside now rfl rfl rfl

theorem still_following : Following (Still : Trace K G) where
  fresh _ := rfl
  aside now same := (sides_posture same).2.trans now
  parked {_ _ w} now frame peerIndex := by
    refine Eq.trans ?_ now
    by_cases full : w.preEpochQueueCap ≤ w.preEpochQueue.length
    · obtain ⟨-, -, -, other⟩ := pushToQueue_moves w frame peerIndex full
      exact other
    · unfold Worker.pushToQueue
      rw [if_neg full]
      rfl
  given {_ _ w} now slot frame data := by
    obtain ⟨-, -, other⟩ := clearStarve_sides (give w slot frame data)
    exact other.trans now
  taken now := now

/-- **Each change of a call** moves the alarm of the decode side as it means to. -/
theorem program_heard {call : Call K} (lasting : call ≠ .message .teardown) (w : Worker K G) :
    Traces Heard (call.program runtime).run w [] w := by
  have fresh : Heard w [] w := rings_refl
  by_cases inits : ∃ msg, call = .message (.init msg)
  · obtain ⟨msg, rfl⟩ := inits
    exact tracks_bind (handleInit_tracks heard_onlooking (fun _ _ _ now => heard_aside now rfl rfl rfl) fresh)
      fun _ _ _ _ now => tracks_pure now
  · have other : ∀ msg, call ≠ .message (.init msg) := fun msg same => inits ⟨msg, same⟩
    have aside {start w w' : Worker K G} {past : List (Worker K G × Worker K G)} {frame : Ref}
      (now : Heard start past w)
        (encodes : FrameWalk.Encodes frame w w') (same : decodeSide w' = decodeSide w) :
        Heard start (past ++ [(w, w')]) w' :=
      heard_aside now (congrArg (fun lane => lane.1.overflows) (lane_encodes encodes))
        (congrArg (·.delivered) encodes.same) same
    cases encodes : encoding call with
    | true =>
      apply encode_tracks heard_onlooking encodes _ _ fresh
      · intro _ _ w now
        obtain ⟨-, -, same⟩ := clearEncryptStarve_sides w
        exact aside now (FrameWalk.encodes_clearEncryptStarve 0 w) same
      · intro _ _ w now err
        obtain ⟨-, -, -, same⟩ := dropEncoded_moves w err
        exact aside now (FrameWalk.encodes_dropEncoded 0 w err) same
    | false => exact program_tracks heard_following encodes other (fun torn => absurd torn lasting) fresh

/-- A call that encodes nothing leaves the encode side as it was. -/
theorem program_still {call : Call K} (lasting : call ≠ .message .teardown) (w : Worker K G) :
    Traces (fun start past w => encoding call = false → Still start past w) (call.program runtime).run w [] w := by
  cases decodes : encoding call with
  | true => exact traces_always fun _ _ _ never => absurd never (by simp)
  | false =>
    simp only [true_imp_iff]
    by_cases inits : ∃ msg, call = .message (.init msg)
    · obtain ⟨msg, rfl⟩ := inits
      exact tracks_bind (handleInit_tracks still_following.toOnlooking (fun _ _ _ now => now) rfl)
        fun _ _ _ _ now => tracks_pure now
    · exact program_tracks still_following decodes (fun msg same => inits ⟨msg, same⟩) (fun torn =>
        absurd torn lasting) rfl

/-! ## The encode side, turn by turn -/

/-- What a turn of an encode call means to the encode side is what happens to it. -/
def Answers (call : Call K) (start : Worker K G) (status : Status AwaitPoint (Except JsError Outcome))
    (w : Worker K G) :
    Prop :=
  encoding call = true →
    Rings (fun _ _ _ => True) (encodeSide start) (encodeMarks call start status w) (encodeSide w)

def answering (call : Call K) : Contract AwaitPoint (Worker K G) where
  assume _ _ := True
  moves _ start next w := Answers call start (.suspended next) w

/-- What a frame that is sealed or given up is told by has not changed yet. -/
def Pending (_ : AwaitPoint) (start w : Worker K G) : Prop :=
  w.clock = start.clock ∧ w.enqueued = start.enqueued ∧ encodeSide w = encodeSide start

/-- The frame is sealed and the alarm is off. -/
def Sealed (_ : AwaitPoint) (start : Worker K G) (_ : Unit) (w : Worker K G) : Prop :=
  encodeSide w = (none, encryptFailures start)

/-- A call that counts its frame and clears the alarm ends the episode and posts nothing. -/
theorem encodeSide_recovered (w : Worker K G) (event : MetricsEvent) :
    encodeSide (w.emitMetric event).clearEncryptStarve = (none, encryptFailures w) := by
  obtain ⟨kept, ended, -⟩ := clearEncryptStarve_sides (w.emitMetric event)
  have posted := congrArg Prod.snd (sides_emitMetric w event).2
  exact Prod.ext ended (kept.trans posted)

variable {at_ : AwaitPoint} {call : Call K}

theorem answers_of_pending {status : Status AwaitPoint (Except JsError Outcome)} (pending : Pending at_ start w)
    (silent : encodeMarks call start status w = []) : Answers call start status w := by
  intro _
  rw [silent, pending.2.2]
  exact rings_refl

theorem answers_of_sealed {status : Status AwaitPoint (Except JsError Outcome)} {done : Unit}
    (encoded : Sealed at_ start done w) (marked : encodeMarks call start status w = [.recovered]) :
    Answers call start status w := by
  intro _
  rw [marked, encoded]
  exact rings_recovered (encodeSide start)

/-- A frame that waits to be sealed means nothing yet. -/
theorem encodeMarks_sealing (call : Call K) (start w : Worker K G) (frame : Ref) :
    encodeMarks call start (.suspended { point := .seal, frame := some frame }) w = [] := by
  unfold encodeMarks
  split <;> simp_all

/-- A call that encodes nothing means nothing to the encode side. -/
theorem encodeMarks_decoding {status : Status AwaitPoint (Except JsError Outcome)} (decodes : encoding call = false) :
    encodeMarks call start status w = [] := by
  unfold encodeMarks
  split <;> simp_all [encoding]

/-- **A frame is sealed**, and its alarm is off, or it fails and nothing has changed. -/
theorem encodeFrame_meets (frame : Ref) (frameKind : Option CodecPartial.FrameKind) (pending : Pending at_ start w) :
    Meets (answering call) (encodeFrame runtime frame frameKind) Sealed (fun at_ start _ w => Pending at_ start w)
      at_ start w := by
  simp only [encodeFrame, meets_bind, meets_read]
  split
  · exact pending
  · split
    · exact pending
    · rename_i key held
      simp only [meets_bind, meets_update, meets_settle]
      split
      · refine meets_pause.mpr ⟨?_, fun later _ => ?_⟩
        · have waits : Pending at_ start (noteSealing { w with ctr := w.ctr + 1 } key.toSFrameKey w.ctr) := by
            unfold noteSealing
            split <;> exact pending
          exact answers_of_pending waits (encodeMarks_sealing ..)
        · split
          · rename_i wire written
            exact encodeSide_recovered _ _
          · exact ⟨rfl, rfl, rfl⟩
      · exact pending

/-- **A pipe** passes its sealed frame on, or drops the frame. -/
theorem encodeTransform_answers {arriving : EncodedFrame} (frame : Ref) (frameKind : Option CodecPartial.FrameKind)
    (pending : Pending at_ start w) :
    Meets (answering (.transform .encode arriving)) (encodeTransform runtime frame frameKind)
      (fun _ start _ w => ∀ outcome, Answers (.transform .encode arriving) start (.finished outcome) w)
      (fun _ _ _ _ => False) at_ start w := by
  refine meets_tryCatch.mpr (meets_bind.mpr (meets_mono (encodeFrame_meets frame frameKind pending) ?_ ?_))
  · intro at_ start _ w encoded
    simp only [meets_bind, meets_read, meets_update, meets_pause]
    refine ⟨answers_of_sealed encoded rfl, fun later _ outcome => ?_⟩
    intro _
    have passed : encodeMarks (.transform .encode arriving) later (.finished outcome)
      (enqueueFrame .encode frame later) = [] := by
      simp [encodeMarks, enqueueFrame]
    rw [passed]
    exact rings_refl
  · intro at_ start err w pending
    simp only [meets_update]
    intro outcome _
    obtain ⟨clock, enqueued, side⟩ := pending
    obtain ⟨posted, grown, moves, -⟩ := dropEncoded_moves w err
    have nothing : (dropEncoded w err).enqueued = start.enqueued :=
      (congrArg (·.enqueued) (unalarmed_dropEncoded w err)).trans enqueued
    have refused : encryptFailures w = encryptFailures start := congrArg Prod.snd side
    have dropped : encodeMarks (.transform .encode arriving) start (.finished outcome) (dropEncoded w err) =
        [.dropped start.clock posted] := by
      rw [refused] at grown
      simp only [encodeMarks, nothing, Nat.lt_irrefl, ↓reduceIte, since_eq grown]
    have alarm : encodeAlarm w = encodeAlarm start := congrArg Prod.fst side
    rw [dropped, encodeSide, encodeSide, grown, refused, ← clock, ← alarm]
    exact rings_dropped moves

/-- **Each turn of a call** moves the alarm of the encode side as it means to. -/
theorem program_answers (call : Call K) (w : Worker K G) :
    (answering call).Keeps (call.program runtime).run
    (fun _ start outcome w => Answers call start (.finished outcome) w)
      { point := .start } w w := by
  cases encodes : encoding call with
  | false =>
    have vacuous (start : Worker K G) (status : Status AwaitPoint (Except JsError Outcome)) (w : Worker K G) :
        Answers call start status w := fun loud => absurd (encodes.symm.trans loud) Bool.false_ne_true
    exact Contract.keeps_always (fun _ _ _ _ => vacuous _ _ _) fun _ _ _ _ => vacuous _ _ _
  | true =>
    apply keeps_of_meets
    cases call with
    | encodeFrame frame =>
      have begun : Pending { point := .start } w (receiveFrame frame w) := ⟨rfl, rfl, rfl⟩
      simp only [Call.program, receive, meets_bind, meets_read, meets_update, meets_pure]
      apply meets_mono (encodeFrame_meets w.frames.next frame.kind begun)
      · exact fun _ _ _ _ encoded => answers_of_sealed encoded rfl
      · exact fun _ _ _ _ pending => answers_of_pending pending rfl
    | transform side frame =>
      cases side with
      | decode => cases encodes
      | encode =>
        have begun : Pending { point := .start } w (receiveFrame frame w) := ⟨rfl, rfl, rfl⟩
        simp only [Call.program, receive, meets_bind, meets_read, meets_update, meets_pure]
        apply meets_mono (encodeTransform_answers w.frames.next frame.kind begun)
        · exact fun _ _ _ _ answers => answers _
        · exact fun _ _ _ _ never => never.elim
    | message | wipeTimer | tick | decodeFrame | tryDecryptWithRatchet | drainPreEpochQueue => cases encodes

/-! ## Runs -/

variable {before after : WorkerPool ι K G} {index : ι}

/-- **Each turn of a run** moves both alarms as it means to. -/
theorem turn_rings {first : Worker K G} (lasting : ∀ call, calls call ≠ .message .teardown)
    (runs : Runs anyTurn (launch runtime first calls) before) (taken : before.turn index = some after) :
    Rings Reports (decodeSide before.shared) ((turnChanges before index).flatMap decodeMarks)
      (decodeSide after.shared) ∧
    Rings (fun _ _ _ => True) (encodeSide before.shared)
      (encodeMarks (calls index) before.shared (after.statuses index) after.shared) (encodeSide after.shared) := by
  constructor
  · have heard := runs_traces (fun call => program_heard (lasting call)) runs taken
    exact heard
  · cases encodes : encoding (calls index) with
    | false =>
      have still := runs_traces (fun call => program_still (lasting call)) runs taken encodes
      have nothing : encodeMarks (calls index) before.shared (after.statuses index) after.shared = [] :=
        encodeMarks_decoding encodes
      rw [nothing, still]
      exact rings_refl
    | true =>
      obtain ⟨site, -, -, -, moved⟩ := runs_moved (fun call => answering (calls call))
        (fun call _ start outcome w => Answers (calls call) start (.finished outcome) w) (fun _ _ => True) trivial
        (launch_follows fun call w _ => program_answers (calls call) w) (fun _ _ _ _ _ _ _ _ => trivial)
        (fun _ _ _ _ _ _ _ _ _ => trivial) runs taken trivial
      have answers : Answers (calls index) before.shared (after.statuses index) after.shared := by
        generalize after.statuses index = status at moved ⊢
        cases status with
        | running => exact moved.elim
        | suspended next => exact moved
        | finished outcome => exact moved
      exact answers encodes

theorem sides_quiet {w : Worker K G} (decode : w.starveActive = false) (encode : w.encryptStarveActive = false) :
    decodeSide w = (none, starvations w) ∧ encodeSide w = (none, encryptFailures w) :=
  ⟨Prod.ext (by simp [decodeSide, decodeAlarm, decode]) rfl, Prod.ext (by simp [encodeSide, encodeAlarm, encode]) rfl⟩

section Checked
open Specimen

/-- Frames come to a queue with room for one before the epoch does; a frame is sent before it and one after it. -/
def crowded : Fin 10 → Call Bytes
  | 0 => bounding 1
  | 1 => .decodeFrame (early 1)
  | 2 => .decodeFrame (early 2)
  | 3 => .tick 400
  | 4 => .decodeFrame (early 3)
  | 5 => .tick 600
  | 6 => .decodeFrame (early 4)
  | 7 => .transform .encode { data := [1] }
  | 8 => .message (.epoch 0 0 (bundles [7]))
  | 9 => .transform .encode { data := [2] }

end Checked
end SFrameRatchet.Starvation
