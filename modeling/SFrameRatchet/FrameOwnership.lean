import SFrameRatchet.DecodeWalk

/-! Whose a frame object is. A call that encodes or decodes works on the object it has
received, and a drain on objects that it has found in the pre-epoch queue. As long as
`decodeFrame` has not returned, the object of its call has never been in the queue, and
nobody else touches it. -/
namespace SFrameRatchet.FrameOwnership
open Collections Crypto Kid Header SFrame CodecPartial Throwing Coroutine Interleaving Media Unsealing DecodeWalk

variable {K G : Type} {runtime : Runtime K G}

/-- The frame that a call brings with it. -/
def brings : Call K → Option EncodedFrame
  | .transform _ frame | .encodeFrame frame | .decodeFrame frame => some frame
  | _ => none

/-- The frame that a call brings to be decoded. -/
def toDecode : Call K → Option EncodedFrame
  | .transform .decode frame | .decodeFrame frame => some frame
  | _ => none

/-- The object that a call works on: the one its site names, or the next one, which it
receives in its first turn. -/
def objectOf (at_ : AwaitPoint) (start : Worker K G) : Ref := at_.frame.getD start.frames.next

/-- `decodeFrame` has not returned yet. -/
def Undelivered (site : AwaitPoint) : Prop := ∀ data, site.point ≠ .decoded data

/-- The call has left `decodeFrame` neither to pass its frame on nor to return from it. -/
def Unreturned : Status AwaitPoint (Except JsError Outcome) → Prop
  | .suspended site => Undelivered site
  | .finished outcome => ∀ path, outcome ≠ .ok (.decoded path)
  | .running => False

/-- What a suspended call knows of its object: it is there, and it is as it came as long
as it is being decoded. -/
def Held (call : Call K) (site : AwaitPoint) (w : Worker K G) : Prop :=
  ∀ ref, site.frame = some ref → (brings call).isSome → ref < w.frames.next ∧
    ∀ frame, toDecode call = some frame → Undelivered site → w.frames.read ref = frame

/-- Of the objects that have never been queued, only the call's own has changed. -/
structure Apart (seen : List Ref) (at_ : AwaitPoint) (start w : Worker K G) : Prop where
  grown : start.frames.next ≤ w.frames.next
  others : ∀ ref < start.frames.next, ref ∉ seen → at_.frame ≠ some ref →
    w.frames.read ref = start.frames.read ref

/-- A turn of a call. Only a call that decodes puts its own object into the queue, and
`decodeFrame` has returned then; headers are found in one's own object only, which is as it
came until then. -/
structure Worked (seen : List Ref) (call : Call K) (at_ : AwaitPoint) (start : Worker K G)
    (status : Status AwaitPoint (Except JsError Outcome)) (w : Worker K G) : Prop extends Apart seen at_ start w where
  queued : ∀ ref ∈ w.preEpochQueue, ref ∈ seen ∨ (toDecode call).isSome ∧ ref = objectOf at_ start ∧ ¬ Unreturned status
  made : (brings call).isSome → objectOf at_ start < w.frames.next
  sited : ∀ site ref, status = .suspended site → site.frame = some ref →
    if (brings call).isSome then ref = objectOf at_ start else ref ∈ seen
  underway : ∀ site, status = .suspended site → (toDecode call).isSome → Undelivered at_
  found : ∀ frame, toDecode call = some frame → ∃ headers, w.resolved = start.resolved ++ headers ∧
    ∀ header ∈ headers, header.1 = objectOf at_ start ∧ Undelivered at_
  intact : ∀ frame, toDecode call = some frame → Undelivered at_ → Unreturned status →
    w.frames.read (objectOf at_ start) = frame

def working (seen : List Ref) (call : Call K) : Contract AwaitPoint (Worker K G) where
  assume at_ w := (∀ ref ∈ w.preEpochQueue, ref ∈ seen) ∧ Held call at_ w
  moves at_ start next w := Worked seen call at_ start (.suspended next) w

variable {seen : List Ref} {call : Call K} {at_ : AwaitPoint} {start w w' : Worker K G}

theorem apart_refl (seen : List Ref) (at_ : AwaitPoint) (w : Worker K G) : Apart seen at_ w w :=
  ⟨Nat.le_refl _, fun _ _ _ _ => rfl⟩

/-- An object that was there and is not the one that the site names is not the call's. -/
theorem ne_objectOf {ref : Ref} (there : ref < start.frames.next) (apart : at_.frame ≠ some ref) :
    ref ≠ objectOf at_ start := by
  unfold objectOf
  cases named : at_.frame with
  | none => exact Nat.ne_of_lt there
  | some own => exact fun same => apart (by rw [named, same]; rfl)

/-! ## Calls that bring no frame -/

/-- The queue holds what has been in it before, and the objects are apart. -/
structure Minding (seen : List Ref) (at_ : AwaitPoint) (start w : Worker K G) : Prop extends
    Apart seen at_ start w where
  queued : ∀ ref ∈ w.preEpochQueue, ref ∈ seen

private def objects (w : Worker K G) := (w.frames, w.preEpochQueue)

theorem minding_of (now : Minding seen at_ start w) (same : objects w' = objects w) : Minding seen at_ start w' := by
  simp only [objects, Prod.mk.injEq] at same
  obtain ⟨frames, queue⟩ := same
  constructor
  · constructor
    · rw [frames]; exact now.grown
    · rw [frames]; exact now.others
  · rw [queue]; exact now.queued

theorem minding_core (now : Minding seen at_ start w) (same : w'.core = w.core) : Minding seen at_ start w' :=
  minding_of now (congrArg objects same : objects w'.core = objects w.core)

theorem minding_quiet : Quiet (Minding seen : Reading K G) := fun _ _ w w' now same =>
  minding_of now (congrArg objects same : objects (beyondOpening w') = objects (beyondOpening w))

theorem minding_parked (now : Minding seen at_ start w) {ref : Ref} (known : ref ∈ seen) (peerIndex : Option ℤ) :
    Minding seen at_ start (w.pushToQueue ref peerIndex) := by
  obtain ⟨kept, sub, same⟩ := Worker.core_pushToQueue w ref peerIndex
  have parked : Minding seen at_ start { w with preEpochQueue := kept ++ [ref] } := by
    refine ⟨⟨now.grown, now.others⟩, fun other member => ?_⟩
    rcases List.mem_append.mp member with old | new
    · exact now.queued other (sub.subset old)
    · rw [List.mem_singleton.mp new]
      exact known
  exact minding_core parked same

theorem minding_written (now : Minding seen at_ start w) {ref : Ref} (known : ref ∈ seen) (frame : EncodedFrame) :
    Minding seen at_ start { w with frames := w.frames.write ref frame } := by
  refine ⟨⟨now.grown, fun other there unseen apart => ?_⟩, now.queued⟩
  have different : other ≠ ref := fun same => unseen (same ▸ known)
  rw [Heap.read_write, if_neg different]
  exact now.others other there unseen apart

theorem minding_walked : Walked (Minding seen : Reading K G) (· ∈ seen) where
  beside {_ _ w w'} now same :=
    minding_of now (congrArg objects same : objects (besideQueue w') = objects (besideQueue w))
  queued now := now.queued
  parked now _ peerIndex known := minding_parked now known peerIndex
  taken now := ⟨⟨now.grown, now.others⟩, by simp⟩
  written now _ frame known := minding_written now known frame

theorem minding_survives (empty : brings call = none) (site : AwaitPoint) (_ : Within site)
    (known : ∀ ref, site.frame = some ref → ref ∈ seen) :
    Survives (working seen call) (Minding seen : Reading K G) site := by
  have idle : toDecode call = none := by
    cases call with
    | transform | encodeFrame | decodeFrame => cases empty
    | message | wipeTimer | tick | tryDecryptWithRatchet | drainPreEpochQueue => rfl
  refine fun _ _ w now => ⟨⟨now.toApart, fun ref member => .inl (now.queued ref member), ?_, ?_, ?_, ?_, ?_⟩,
    fun later assumed => ⟨apart_refl seen site later, assumed.1⟩⟩
  · simp [empty]
  · intro next ref suspended own
    cases suspended
    simpa [empty] using known ref own
  · simp [idle]
  · simp [idle]
  · simp [idle]

theorem handleMessage_minds {msg : InMsg K} (now : Minding seen at_ start w) :
    Yields (working seen (.message msg)) (Minding seen) (handleMessage runtime msg) (fun _ => True) at_ start w := by
  have unconfigured : Unconfigured (Minding seen : Reading K G) := fun _ _ w w' now same =>
    minding_of now (congrArg objects same : objects (beyondConfiguration w') = objects (beyondConfiguration w))
  refine handleMessage_yields (.any minding_quiet) minding_walked (minding_survives rfl) unconfigured now ?_ fun _ => ?_
  · intro epoch selfPeerIndex keys _ installed ok
    obtain ⟨made, -, same⟩ := Worker.core_installEpoch ok
    have unchanged : objects installed = objects w := by
      split at same
      · exact (congrArg objects same : objects installed.core = _)
      · exact (congrArg objects same : objects installed.core = _)
    exact minding_of now unchanged
  · exact ⟨⟨now.grown, now.others⟩, by simp [Worker.teardown]⟩

/-! ## Calls that bring a frame -/

/-- An object that the call has received. -/
structure Working (seen : List Ref) (ref : Ref) (at_ : AwaitPoint) (start w : Worker K G) : Prop extends
    Minding seen at_ start w where
  own : ref = objectOf at_ start
  made : ref < w.frames.next

/-- The object of a frame that is being decoded. -/
structure Decoding (seen : List Ref) (frame : EncodedFrame) (ref : Ref) (at_ : AwaitPoint) (start w : Worker K G) :
    Prop extends Working seen ref at_ start w where
  underway : Undelivered at_
  intact : w.frames.read ref = frame
  found : ∃ headers, w.resolved = start.resolved ++ headers ∧ ∀ header ∈ headers, header.1 = ref

variable {ref : Ref} {frame : EncodedFrame}

theorem working_unencoded : FrameWalk.Unencoded (Working seen ref : Reading K G) ref := by
  intro at_ start w w' now encodes
  have queue : w'.preEpochQueue = w.preEpochQueue :=
    (congrArg (·.preEpochQueue) encodes.same : (FrameWalk.beyondEncoding w').preEpochQueue = _)
  refine ⟨⟨⟨?_, fun other there unseen apart => ?_⟩, ?_⟩, now.own, ?_⟩
  · rw [encodes.next]; exact now.grown
  · have different : other ≠ ref := by
      rw [now.own, objectOf]
      rintro rfl
      cases named : at_.frame with
      | none => simp [named] at there
      | some own => simp [named] at apart
    rw [encodes.others other different]
    exact now.others other there unseen apart
  · rw [queue]; exact now.queued
  · rw [encodes.next]; exact now.made

/-- A call that has ended waits nowhere. -/
theorem finished_waits {outcome : Except JsError Outcome} {motive : AwaitPoint → Ref → Prop} (site : AwaitPoint)
    (ref : Ref) (suspended : Status.finished outcome = .suspended site) : motive site ref := by
  cases suspended

theorem working_worked (brought : (brings call).isSome) (encoded : toDecode call = none)
    (now : Working seen ref at_ start w) {status : Status AwaitPoint (Except JsError Outcome)}
    (named : ∀ site other, status = .suspended site → site.frame = some other → other = ref) :
    Worked seen call at_ start status w := by
  refine ⟨now.toApart, fun other member => .inl (now.queued other member), fun _ => now.own ▸ now.made,
    fun site other suspended own => ?_, ?_, ?_, ?_⟩
  · rw [if_pos brought, named site other suspended own]
    exact now.own
  · simp [encoded]
  · simp [encoded]
  · simp [encoded]

theorem working_survives (brought : (brings call).isSome) (encoded : toDecode call = none) (point : Point) :
    Survives (working seen call) (Working seen ref : Reading K G) { point, frame := some ref } := by
  refine fun _ _ w now => ⟨working_worked brought encoded now fun site other suspended own => ?_,
    fun later assumed => ?_⟩
  · cases suspended
    exact (Option.some.inj own).symm
  · exact ⟨⟨apart_refl _ _ _, assumed.1⟩, rfl, (assumed.2 ref rfl brought).1⟩

theorem decoding_of (now : Decoding seen frame ref at_ start w) (same : objects w' = objects w)
    (resolved : w'.resolved = w.resolved) : Decoding seen frame ref at_ start w' := by
  have frames : w'.frames = w.frames := congrArg Prod.fst same
  refine ⟨⟨minding_of now.toMinding same, now.own, ?_⟩, now.underway, ?_, ?_⟩
  · rw [frames]; exact now.made
  · rw [frames]; exact now.intact
  · rw [resolved]; exact now.found

theorem decoding_core (now : Decoding seen frame ref at_ start w) (same : w'.core = w.core) :
    Decoding seen frame ref at_ start w' :=
  decoding_of now (congrArg objects same : objects w'.core = objects w.core)
    (congrArg (·.resolved) same : w'.core.resolved = w.core.resolved)

theorem decoding_quiet : Quiet (Decoding seen frame ref : Reading K G) := fun _ _ w w' now same =>
  decoding_of now (congrArg objects same : objects (beyondOpening w') = objects (beyondOpening w))
    (congrArg (·.resolved) same : (beyondOpening w').resolved = (beyondOpening w).resolved)

theorem decoding_windowless : Windowless (Decoding seen frame ref : Reading K G) := fun _ _ w w' now same =>
  decoding_of now (congrArg objects same : objects (beyondReplay w') = objects (beyondReplay w))
    (congrArg (·.resolved) same : (beyondReplay w').resolved = (beyondReplay w).resolved)

theorem brings_of_toDecode (decodes : toDecode call = some frame) : brings call = some frame := by
  cases call with
  | transform side _ =>
    cases side with
    | encode => cases decodes
    | decode => exact decodes
  | decodeFrame => exact decodes
  | message | wipeTimer | tick | encodeFrame | tryDecryptWithRatchet | drainPreEpochQueue => cases decodes

theorem decoding_worked (decodes : toDecode call = some frame) (now : Decoding seen frame ref at_ start w)
    {status : Status AwaitPoint (Except JsError Outcome)}
    (named : ∀ site other, status = .suspended site → site.frame = some other → other = ref) :
    Worked seen call at_ start status w := by
  refine ⟨now.toApart, fun other member => .inl (now.queued other member), fun _ => now.own ▸ now.made,
    fun site other suspended own => ?_, fun _ _ _ => now.underway, ?_, ?_⟩
  · rw [brings_of_toDecode decodes, named site other suspended own]
    exact now.own
  · intro _ _
    obtain ⟨headers, resolved, own⟩ := now.found
    exact ⟨headers, resolved, fun header member => ⟨(own header member).trans now.own, now.underway⟩⟩
  · intro other same _ _
    rw [← now.own, now.intact]
    exact Option.some.inj (decodes.symm.trans same)

theorem decoding_survives (decodes : toDecode call = some frame) (site : AwaitPoint) (own : site.frame = some ref)
    (within : Within site) : Survives (working seen call) (Decoding seen frame ref : Reading K G) site := by
  have undelivered : Undelivered site := fun data same => by simp [Within, same] at within
  refine fun _ _ w now => ⟨decoding_worked decodes now fun next other suspended named => ?_, fun later assumed => ?_⟩
  · cases suspended
    exact (Option.some.inj (own.symm.trans named)).symm
  · obtain ⟨made, held⟩ := assumed.2 ref own (by simp [brings_of_toDecode decodes])
    refine ⟨⟨⟨apart_refl _ _ _, assumed.1⟩, by simp [objectOf, own], made⟩, undelivered,
      held frame decodes undelivered, [], ?_⟩
    simp

/-- What is left of an object that `decodeFrame` has returned from: it may have been
written, or it may wait in the queue. -/
structure Released (seen : List Ref) (ref : Ref) (at_ : AwaitPoint) (start w : Worker K G) : Prop extends
    Apart seen at_ start w where
  own : ref = objectOf at_ start
  made : ref < w.frames.next
  underway : Undelivered at_
  queued : ∀ other ∈ w.preEpochQueue, other ∈ seen ∨ other = ref
  found : ∃ headers, w.resolved = start.resolved ++ headers ∧ ∀ header ∈ headers, header.1 = ref

theorem released_of (now : Released seen ref at_ start w) (same : objects w' = objects w)
    (resolved : w'.resolved = w.resolved) : Released seen ref at_ start w' := by
  simp only [objects, Prod.mk.injEq] at same
  obtain ⟨frames, queue⟩ := same
  refine ⟨⟨?_, ?_⟩, now.own, ?_, now.underway, ?_, ?_⟩
  · rw [frames]; exact now.grown
  · rw [frames]; exact now.others
  · rw [frames]; exact now.made
  · rw [queue]; exact now.queued
  · rw [resolved]; exact now.found

theorem released_core (now : Released seen ref at_ start w) (same : w'.core = w.core) :
    Released seen ref at_ start w' :=
  released_of now (congrArg objects same : objects w'.core = objects w.core)
    (congrArg (·.resolved) same : w'.core.resolved = w.core.resolved)

theorem released_decoding (now : Decoding seen frame ref at_ start w) : Released seen ref at_ start w :=
  ⟨now.toApart, now.own, now.made, now.underway, fun other member => .inl (now.queued other member), now.found⟩

theorem released_parked (now : Decoding seen frame ref at_ start w) (peerIndex : Option ℤ) :
    Released seen ref at_ start (w.pushToQueue ref peerIndex) := by
  obtain ⟨kept, sub, same⟩ := Worker.core_pushToQueue w ref peerIndex
  have parked : Released seen ref at_ start { w with preEpochQueue := kept ++ [ref] } := by
    refine ⟨⟨now.grown, now.others⟩, now.own, now.made, now.underway, fun other member => ?_, now.found⟩
    rcases List.mem_append.mp member with old | new
    · exact .inl (now.queued other (sub.subset old))
    · exact .inr (List.mem_singleton.mp new)
  exact released_core parked same

theorem released_delivered (now : Decoding seen frame ref at_ start w) (slot : Slot) (data : Bytes) :
    Released seen ref at_ start (deliver w slot ref data) := by
  refine ⟨⟨now.grown, fun other there unseen apart => ?_⟩, now.own, now.made, now.underway,
    fun other member => .inl (now.queued other member), now.found⟩
  have different : other ≠ ref := now.own ▸ ne_objectOf there apart
  simp only [deliver, Heap.read_write, if_neg different]
  exact now.others other there unseen apart

/-- `decodeFrame` returns from an object that it has opened, parked or let through, and
throws with the object as it came. -/
theorem decodeFrame_works (decodes : toDecode call = some frame) (now : Decoding seen frame ref at_ start w) :
    Meets (working seen call) (decodeFrame runtime ref)
      (fun at_ start _ w => Released seen ref at_ start w)
      (fun at_ start _ w => Decoding seen frame ref at_ start w) at_ start w := by
  have ring : Keyring runtime (Decoding seen frame ref : Reading K G) := .any decoding_quiet
  have survives := @decoding_survives K G seen call ref frame decodes
  have thrown : ∀ at_ start (error : JsError) (w : Worker K G), Decoding seen frame ref at_ start w →
      Decoding seen frame ref at_ start w := fun _ _ _ _ now => now
  simp only [decodeFrame, meets_bind, meets_read]
  split
  · exact released_decoding now
  · rename_i payload stripped
    refine meets_after (resolveFormat_yields ring ref payload _ _ (survives _ rfl trivial) (survives _ rfl trivial) now)
      (fun at_ start resolved w now _ => ?_) thrown
    simp only [meets_bind, meets_read]
    cases parseHeader (payload.drop resolved.1.prefixLen) with
    | error refused =>
      simp only [meets_bind, meets_update, meets_throw]
      exact decoding_core now (core_failDecode _ _ _)
    | ok hdr =>
      simp only [meets_bind, meets_update, meets_tryCatch, meets_throw]
      have noted (slot : Slot) :
          Decoding seen frame ref at_ start { w with resolved := w.resolved ++ [(ref, slot)] } := by
        obtain ⟨headers, resolved, own⟩ := now.found
        refine ⟨⟨minding_of now.toMinding rfl, now.own, now.made⟩, now.underway, now.intact,
          headers ++ [(ref, slot)], ?_, ?_⟩
        · simp only [resolved, List.append_assoc]
        · intro header member
          rcases List.mem_append.mp member with old | new
          · exact own header old
          · rw [List.mem_singleton.mp new]
      refine meets_mono (decodePayload_ends ring decoding_windowless ref payload resolved.1 resolved.2 hdr
        (fun site own _ => survives site own) (noted _)) ?_ ?_
      · intro at_ start path w ended
        cases path with
        | passedThrough => exact ended.elim
        | parked =>
          obtain ⟨v, peerIndex, now, rfl⟩ := ended
          exact released_parked now peerIndex
        | opened format opened =>
          obtain ⟨-, -, v, slot, now, delivered⟩ := ended
          exact released_core (released_delivered now slot _) delivered
      · exact fun _ _ refused w now => decoding_core now (core_failDecode w _ refused)

theorem released_worked (decodes : toDecode call = some frame) (now : Released seen ref at_ start w)
    {status : Status AwaitPoint (Except JsError Outcome)} (returned : ¬ Unreturned status)
    (named : ∀ site other, status = .suspended site → site.frame = some other → other = ref) :
    Worked seen call at_ start status w := by
  refine ⟨now.toApart, fun other member => ?_, fun _ => now.own ▸ now.made, fun site other suspended own => ?_,
    fun _ _ _ => now.underway, fun _ _ => ?_, ?_⟩
  · rcases now.queued other member with known | rfl
    · exact .inl known
    · exact .inr ⟨by simp [decodes], now.own, returned⟩
  · rw [brings_of_toDecode decodes, named site other suspended own]
    exact now.own
  · obtain ⟨headers, resolved, own⟩ := now.found
    exact ⟨headers, resolved, fun header member => ⟨(own header member).trans now.own, now.underway⟩⟩
  · exact fun _ _ _ unreturned => absurd unreturned returned

/-! ## Calls -/

/-- A call that suspends and ends as the pact demands. -/
abbrev Works (runtime : Runtime K G) (seen : List Ref) (call : Call K) (at_ : AwaitPoint) (start w : Worker K G) :
    Prop :=
  Meets (working seen call) (call.program runtime)
    (fun at_ start value w => Worked seen call at_ start (.finished (.ok value)) w)
    (fun at_ start refused w => Worked seen call at_ start (.finished (.error refused)) w) at_ start w

/-- A call that brings no frame minds the queue to its end. -/
theorem works_of_minds (empty : brings call = none)
    (minds : Yields (working seen call) (Minding seen) (call.program runtime) (fun _ => True) at_ start w) :
    Works runtime seen call at_ start w := by
  have idle : toDecode call = none := by
    cases decodes : toDecode call with
    | none => rfl
    | some frame => cases empty.symm.trans (brings_of_toDecode decodes)
  have ended {at_ : AwaitPoint} {start w : Worker K G} (now : Minding seen at_ start w)
      (outcome : Except JsError Outcome) : Worked seen call at_ start (.finished outcome) w :=
    ⟨now.toApart, fun ref member => .inl (now.queued ref member), by simp [empty], finished_waits,
      by simp [idle], by simp [idle], by simp [idle]⟩
  exact meets_mono minds (fun _ _ value _ held => ended held.1 (.ok value))
    fun _ _ refused _ now => ended now (.error refused)

/-- A pipe suspends when `decodeFrame` has returned, and drops what it threw on. -/
theorem decodeTransform_works (now : Decoding seen frame ref at_ start w) :
    Meets (working seen (.transform .decode frame)) (decodeTransform runtime ref)
      (fun at_ start _ w => Worked seen (.transform .decode frame) at_ start (.finished (.ok .done)) w)
      (fun _ _ _ _ => False) at_ start w := by
  have decodes : toDecode (.transform .decode frame : Call K) = some frame := rfl
  refine meets_tryCatch.mpr (meets_bind.mpr (meets_mono (decodeFrame_works decodes now) ?_ ?_))
  · intro at_ start path w released
    simp only [meets_bind, meets_read, meets_pause, meets_update]
    refine ⟨released_worked decodes released (fun undelivered => undelivered _ rfl) fun site other suspended own => ?_,
      fun later assumed => ?_⟩
    · cases suspended
      exact (Option.some.inj own).symm
    · refine ⟨⟨Nat.le_refl _, fun _ _ _ _ => rfl⟩, fun other member => .inl (assumed.1 other member),
        fun brought => (assumed.2 _ rfl brought).1, finished_waits, (fun _ never => by cases never), ?_, ?_⟩
      · exact fun _ _ => ⟨[], by simp [enqueueFrame], by simp⟩
      · exact fun _ _ undelivered => absurd rfl (undelivered _)
  · intro at_ start _ w now
    exact decoding_worked decodes now finished_waits

/-- Every call works on its own object, and on those that it has found in the queue. -/
theorem program_works (call : Call K) (queued : ∀ ref ∈ w.preEpochQueue, ref ∈ seen) :
    Works runtime seen call { point := .start } w w := by
  have begun : Minding seen { point := .start } w w := ⟨apart_refl _ _ _, queued⟩
  have received (frame : EncodedFrame) :
      Working seen w.frames.next { point := .start } w (receiveFrame frame w) := by
    refine ⟨⟨⟨Nat.le_succ _, fun ref there _ _ => ?_⟩, queued⟩, rfl, Nat.lt_succ_self _⟩
    simp [receiveFrame, Nat.ne_of_lt there]
  have came (frame : EncodedFrame) :
      Decoding seen frame w.frames.next { point := .start } w (receiveFrame frame w) :=
    ⟨received frame, fun _ => by simp, by simp [receiveFrame], [], by simp [receiveFrame], by simp⟩
  have done {program : Task K G Unit}
      (minds : Yields (working seen call) (Minding seen) program (fun _ => True) { point := .start } w w) :
      Yields (working seen call) (Minding seen) (do program; return .done : Task K G Outcome) (fun _ => True)
        { point := .start } w w :=
    yields_bind minds fun _ _ _ _ now _ => ⟨now, trivial⟩
  cases call with
  | message msg => exact works_of_minds rfl (done (handleMessage_minds begun))
  | wipeTimer epoch =>
    refine works_of_minds rfl (done (yields_read ?_))
    split
    · exact yields_update (minding_of begun rfl)
    · exact ⟨begun, trivial⟩
  | tick elapsed => exact works_of_minds rfl (done (yields_update (minding_of begun rfl)))
  | tryDecryptWithRatchet opening =>
    refine works_of_minds rfl (yields_bind (tryDecryptWithRatchet_yields (.any minding_quiet)
      (fun _ => minding_survives rfl _ (by simp [Within]) fun _ never => by cases never) opening begun) fun _ _ _ _ now
        _ => ⟨now, trivial⟩)
  | drainPreEpochQueue =>
    exact works_of_minds rfl (done (drainPreEpochQueue_yields (.any minding_quiet) minding_walked
      (minding_survives rfl) begun))
  | transform side frame =>
    simp only [Works, Call.program]
    cases side with
    | encode =>
      simp only [receive, meets_bind, meets_read, meets_update, meets_pure]
      refine meets_mono (FrameWalk.encodeTransform_yields working_unencoded
        (fun point _ => working_survives rfl rfl point) _ (received frame)) ?_ ?_
      · exact fun _ _ _ _ held => working_worked rfl rfl held.1 finished_waits
      · exact fun _ _ _ _ now => working_worked rfl rfl now finished_waits
    | decode =>
      simp only [receive, meets_bind, meets_read, meets_update, meets_pure]
      exact meets_mono (decodeTransform_works (came frame)) (fun _ _ _ _ held => held) fun _ _ _ _ never => never.elim
  | encodeFrame frame =>
    simp only [Works, Call.program, receive, meets_bind, meets_read, meets_update, meets_pure]
    refine meets_mono (FrameWalk.encodeFrame_yields working_unencoded
      (fun point _ => working_survives rfl rfl point) _ (received frame)) ?_ ?_
    · exact fun _ _ _ _ held => working_worked rfl rfl held.1 finished_waits
    · exact fun _ _ _ _ now => working_worked rfl rfl now finished_waits
  | decodeFrame frame =>
    simp only [Works, Call.program, receive, meets_bind, meets_read, meets_update, meets_pure]
    refine meets_mono (decodeFrame_works rfl (came frame)) ?_ ?_
    · intro _ _ path _ released
      exact released_worked rfl released (fun unreturned => unreturned path rfl) finished_waits
    · exact fun _ _ _ _ now => decoding_worked rfl now finished_waits

/-! ## Runs -/

section Runs
variable {ι : Type} [DecidableEq ι] {calls : ι → Call K}

/-- Nobody else has the object of a call that brings a frame, and as long as the frame is
being decoded it has never been in the queue. -/
structure Owned (calls : ι → Call K) (seen : List Ref) (w : Worker K G)
    (statuses : ι → Status AwaitPoint (Except JsError Outcome)) : Prop where
  made : ∀ ref ∈ seen, ref < w.frames.next
  held : ∀ call site, statuses call = .suspended site → Held (calls call) site w
  drained : ∀ call site ref, statuses call = .suspended site → site.frame = some ref → brings (calls call) = none →
    ref ∈ seen
  unseen : ∀ call site ref, statuses call = .suspended site → site.frame = some ref →
    (toDecode (calls call)).isSome → Undelivered site → ref ∉ seen
  apart : ∀ call other site site' ref, call ≠ other → statuses call = .suspended site →
    statuses other = .suspended site' → (brings (calls call)).isSome → (brings (calls other)).isSome →
    site.frame = some ref → site'.frame ≠ some ref

variable {statuses : ι → Status AwaitPoint (Except JsError Outcome)} {site : AwaitPoint} {call : ι}
  {reached : Status AwaitPoint (Except JsError Outcome)}

omit [DecidableEq ι] in
/-- The object of another call is not the one that a resumed call works on. -/
theorem owned_ne (owned : Owned calls seen start statuses) (waits : statuses call = .suspended site)
    (brought : (brings (calls call)).isSome) {other : ι} (different : other ≠ call) {site' : AwaitPoint}
    (suspended : statuses other = .suspended site') (brought' : (brings (calls other)).isSome) {ref : Ref}
    (own : site'.frame = some ref) : ref ≠ objectOf site start :=
  ne_objectOf (owned.held other site' suspended ref own brought').1
    fun same => owned.apart other call site' site ref different suspended waits brought' brought own same

omit [DecidableEq ι] in
/-- A turn leaves the object of another call that decodes alone. -/
theorem owned_read (owned : Owned calls seen start statuses) (waits : statuses call = .suspended site)
    (worked : Worked seen (calls call) site start reached w) {other : ι} (different : other ≠ call)
    {site' : AwaitPoint} (suspended : statuses other = .suspended site') (decodes : (toDecode (calls other)).isSome)
    (undelivered : Undelivered site') {ref : Ref} (own : site'.frame = some ref) :
    w.frames.read ref = start.frames.read ref := by
  have brought : (brings (calls other)).isSome := by
    obtain ⟨frame, same⟩ := Option.isSome_iff_exists.mp decodes
    simp [brings_of_toDecode same]
  have unseen := owned.unseen other site' ref suspended own decodes undelivered
  refine worked.others ref (owned.held other site' suspended ref own brought).1 unseen fun same => ?_
  cases brings' : brings (calls call) with
  | none => exact unseen (owned.drained call site ref waits same brings')
  | some frame =>
    exact owned.apart other call site' site ref different suspended waits brought (by simp [brings']) own same

omit [DecidableEq ι] in
/-- The object that a call works on has not been in the queue before its turn. -/
theorem owned_unseen (owned : Owned calls seen start statuses) (waits : statuses call = .suspended site)
    (decodes : (toDecode (calls call)).isSome) (undelivered : Undelivered site) : objectOf site start ∉ seen := by
  intro member
  cases named : site.frame with
  | none =>
    rw [objectOf, named] at member
    exact Nat.lt_irrefl _ (owned.made _ member)
  | some ref =>
    rw [objectOf, named] at member
    exact owned.unseen call site ref waits named decodes undelivered member

theorem owned_step (owned : Owned calls seen start statuses) (waits : statuses call = .suspended site)
    (worked : Worked seen (calls call) site start reached w) :
    Owned calls (seen ++ w.preEpochQueue) w (Function.update statuses call reached) := by
  have brings_of {other : ι} (decodes : (toDecode (calls other)).isSome) : (brings (calls other)).isSome := by
    obtain ⟨frame, same⟩ := Option.isSome_iff_exists.mp decodes
    simp [brings_of_toDecode same]
  constructor
  · intro ref member
    rcases List.mem_append.mp member with old | queued
    · exact (owned.made ref old).trans_le worked.grown
    · rcases worked.queued ref queued with known | ⟨decodes, rfl, -⟩
      · exact (owned.made ref known).trans_le worked.grown
      · exact worked.made (brings_of decodes)
  · intro other site' suspended ref own brought
    by_cases equal : other = call
    · subst equal
      rw [Function.update_self] at suspended
      obtain rfl : ref = objectOf site start := by simpa [brought] using worked.sited site' ref suspended own
      refine ⟨worked.made brought, fun frame decodes undelivered => ?_⟩
      subst suspended
      exact worked.intact frame decodes (worked.underway site' rfl (by simp [decodes])) undelivered
    · rw [Function.update_of_ne equal] at suspended
      obtain ⟨there, intact⟩ := owned.held other site' suspended ref own brought
      refine ⟨there.trans_le worked.grown, fun frame decodes undelivered => ?_⟩
      rw [owned_read owned waits worked equal suspended (by simp [decodes]) undelivered own]
      exact intact frame decodes undelivered
  · intro other site' ref suspended own empty
    apply List.mem_append_left
    by_cases equal : other = call
    · subst equal
      rw [Function.update_self] at suspended
      simpa [empty] using worked.sited site' ref suspended own
    · rw [Function.update_of_ne equal] at suspended
      exact owned.drained other site' ref suspended own empty
  · intro other site' ref suspended own decodes undelivered member
    by_cases equal : other = call
    · subst equal
      rw [Function.update_self] at suspended
      obtain rfl : ref = objectOf site start := by
        simpa [brings_of decodes] using worked.sited site' ref suspended own
      have unseen := owned_unseen owned waits decodes (worked.underway site' suspended decodes)
      rcases List.mem_append.mp member with old | queued
      · exact unseen old
      · rcases worked.queued _ queued with known | ⟨-, -, returned⟩
        · exact unseen known
        · exact returned (by rw [suspended]; exact undelivered)
    · rw [Function.update_of_ne equal] at suspended
      have unseen := owned.unseen other site' ref suspended own decodes undelivered
      rcases List.mem_append.mp member with old | queued
      · exact unseen old
      · rcases worked.queued ref queued with known | ⟨mine, same, -⟩
        · exact unseen known
        · exact owned_ne owned waits (brings_of mine) equal suspended (brings_of decodes) own same
  · intro one two site₁ site₂ ref different first second brought₁ brought₂ own₁ own₂
    by_cases equal : one = call
    · subst equal
      rw [Function.update_self] at first
      rw [Function.update_of_ne (Ne.symm different)] at second
      have same : ref = objectOf site start := by simpa [brought₁] using worked.sited site₁ ref first own₁
      exact owned_ne owned waits brought₁ (Ne.symm different) second brought₂ own₂ same
    · rw [Function.update_of_ne equal] at first
      by_cases equal' : two = call
      · subst equal'
        rw [Function.update_self] at second
        have same : ref = objectOf site start := by simpa [brought₂] using worked.sited site₂ ref second own₂
        exact owned_ne owned waits brought₂ equal first brought₁ own₁ same
      · rw [Function.update_of_ne equal'] at second
        exact owned.apart one two site₁ site₂ ref different first second brought₁ brought₂ own₁ own₂

/-- The gate of the turns at which a call may assume what it does of the queue and of its
object. -/
def Sound (calls : ι → Call K) (seen : List Ref) : WorkerPool ι K G → ι → WorkerPool ι K G → Prop :=
  fun before call _ => (∀ ref ∈ before.shared.preEpochQueue, ref ∈ seen) ∧
    ∀ site, before.statuses call = .suspended site → Held (calls call) site before.shared

variable {w₀ : Worker K G} {before after : WorkerPool ι K G}

/-- Every turn of a sound run works on its own object and on those seen. -/
theorem turn_worked (run : Runs (Sound calls seen) (launch runtime w₀ calls) before)
    (taken : before.turn call = some after) (sound : Sound calls seen before call after) :
    ∃ site, before.statuses call = .suspended site ∧
      Worked seen (calls call) site before.shared (after.statuses call) after.shared := by
  have moved := runs_moved (fun call => working seen (calls call))
    (fun call at_ start outcome w => Worked seen (calls call) at_ start (.finished outcome) w) (fun _ _ => True)
    trivial ?follows (fun before call site after _ waits _ sound => ⟨sound.1, sound.2 site waits⟩)
    (fun _ _ _ _ _ _ _ _ _ => trivial) run taken sound
  case follows =>
    refine launch_follows fun call w assumed => ?_
    refine Contract.keeps_mono (program_works (calls call) assumed.1) fun _ _ outcome _ worked => ?_
    cases outcome <;> exact worked
  obtain ⟨site, waits, -, -, moved⟩ := moved
  refine ⟨site, waits, ?_⟩
  generalize after.statuses call = status at moved
  cases status with
  | running => exact moved.elim
  | suspended next => exact moved
  | finished result => exact moved

/-- In any interleaving nobody touches the object of a frame that is being decoded. -/
theorem recorded_owned (queued : ∀ ref ∈ w₀.preEpochQueue, ref < w₀.frames.next) {record : List Ref}
    (run : Recorded (·.preEpochQueue) (launch runtime w₀ calls) record before) :
    (∀ seen, record ⊆ seen → Runs (Sound calls seen) (launch runtime w₀ calls) before) ∧
    before.shared.preEpochQueue ⊆ record ∧ Owned calls record before.shared before.statuses := by
  induction run with
  | start =>
    have begun (call : ι) (site : AwaitPoint) (ref : Ref)
        (suspended : (launch runtime w₀ calls).statuses call = .suspended site) : site.frame ≠ some ref := by
      cases suspended
      simp
    refine ⟨fun _ _ => .start, List.Subset.refl _, queued, fun call site suspended ref own _ => ?_, ?_, ?_, ?_⟩
    · exact absurd own (begun call site ref suspended)
    · exact fun call site ref suspended own => absurd own (begun call site ref suspended)
    · exact fun call site ref suspended own => absurd own (begun call site ref suspended)
    · exact fun call _ site _ ref _ suspended _ _ _ own => absurd own (begun call site ref suspended)
  | @turn record before call after _ taken ih =>
    obtain ⟨runs, known, owned⟩ := ih
    have sound {seen : List Ref} (within : record ⊆ seen) : Sound calls seen before call after :=
      ⟨fun ref member => within (known member), owned.held call⟩
    obtain ⟨site, waits, worked⟩ := turn_worked (runs record (List.Subset.refl _)) taken (sound (List.Subset.refl _))
    refine ⟨fun seen within => ?_, List.subset_append_right _ _, ?_⟩
    · have earlier := List.Subset.trans (List.subset_append_left _ _) within
      exact (runs seen earlier).turn taken (sound earlier)
    · have others := owned_step owned waits worked
      have same : after.statuses = Function.update before.statuses call (after.statuses call) := turn_statuses taken
      rw [same]
      exact others

/-- **A frame that is not opened is left as it came.** In every run, a call that finds
headers and leaves `decodeFrame` neither to pass its frame on nor to return from it has the
object of these headers as it came. -/
theorem turn_intact (queued : ∀ ref ∈ w₀.preEpochQueue, ref < w₀.frames.next)
    {gate : WorkerPool ι K G → ι → WorkerPool ι K G → Prop} (run : Runs gate (launch runtime w₀ calls) before)
    {frame : EncodedFrame} (decodes : toDecode (calls call) = some frame) (taken : before.turn call = some after)
    (unreturned : Unreturned (after.statuses call)) :
    ∃ headers, after.shared.resolved = before.shared.resolved ++ headers ∧
      ∀ header ∈ headers, after.shared.frames.read header.1 = frame := by
  obtain ⟨record, recorded⟩ := runs_recorded (·.preEpochQueue) run
  obtain ⟨runs, known, owned⟩ := recorded_owned queued recorded
  obtain ⟨site, -, worked⟩ := turn_worked (runs record (List.Subset.refl _)) taken
    ⟨fun ref member => known member, owned.held call⟩
  obtain ⟨headers, resolved, found⟩ := worked.found frame decodes
  refine ⟨headers, resolved, fun header member => ?_⟩
  obtain ⟨own, undelivered⟩ := found header member
  rw [own]
  exact worked.intact frame decodes undelivered unreturned

end Runs
end SFrameRatchet.FrameOwnership
