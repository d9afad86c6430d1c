import SFrameRatchet.QueueDiscipline
import SFrameRatchet.QueueLedger

/-! What calls do to the ledger of the queue, one step at a time. Most steps leave the
queue alone; frames are parked, taken into the hand of a drain, and from there put back,
dropped, passed over or decrypted; and keys come and go. -/
namespace SFrameRatchet.QueueSteps
open Collections Crypto Kid Header SFrame CodecPartial Coroutine Media EpochTable FrameWalk QueueLedger
open Reinstall (Registered)

variable {K G ι : Type} [DecidableEq ι] {codec : Option Codec} {call : ι} {first note last : Note}
  {start w w' : Worker K G} {notes : ι → Note} {fates : Fates}

/-! ## Signals -/

/-- Signals are posted, and failures and starvation counted. -/
structure Posts (w w' : Worker K G) : Prop where
  core : w'.core = w.core
  formats : w'.formatCache = w.formatCache
  emitted : w.emitted <+: w'.emitted

section Posts
omit [DecidableEq ι]

theorem posts_refl (w : Worker K G) : Posts w w := ⟨rfl, rfl, List.prefix_refl _⟩

theorem Posts.trans {v : Worker K G} (posts : Posts w w') (further : Posts w' v) : Posts w v :=
  ⟨further.core.trans posts.core, further.formats.trans posts.formats, posts.emitted.trans further.emitted⟩

theorem posts_posted (posted : Posted w w') : Posts w w' where
  core := posted.view Worker.core fun _ _ _ => rfl
  formats := posted.view (·.formatCache) fun _ _ _ => rfl
  emitted := by
    obtain ⟨more, counts, rfl, -⟩ := posted
    exact List.prefix_append _ _

theorem posts_noteStarveDrop (w : Worker K G) (peerIndex : Option ℤ) : Posts w (w.noteStarveDrop peerIndex) := by
  refine ⟨Worker.core_noteStarveDrop w peerIndex, ?_, ?_⟩ <;> unfold Worker.noteStarveDrop <;> split
  · rfl
  · dsimp only
    split <;> rfl
  · exact List.prefix_append _ _
  · dsimp only
    split
    · exact List.prefix_append _ _
    · exact List.prefix_refl _

theorem posts_clearStarve (w : Worker K G) : Posts w w.clearStarve := by
  refine ⟨Worker.core_clearStarve w, ?_, ?_⟩ <;> unfold Worker.clearStarve <;> split <;> rfl

end Posts

/-! ## Steps aside -/

/-- A call leaves the queue alone and writes no frame but its own; what it remembers of
a frame in its hand and of an entry may change. -/
theorem carried_still (still : Knows start first → Still start w) (sane : Sane codec start → Sane codec w)
    (same : queuePart w = queuePart start) (next : w.frames.next = start.frames.next)
    (frames : ∀ ref, first.own ≠ some ref → w.frames.read ref = start.frames.read ref) (own : note.own = first.own)
    (hand : note.hand = first.hand) (owing : note.owing = first.owing)
    (knows : Registered start → Knows start first → Knows w note) :
    Carried codec call first start note w where
  sane := sane
  keeps notes fates here kept := by
    subst here
    simp only [queuePart, Prod.mk.injEq] at same
    obtain ⟨queue, draining, pending, delivered⟩ := same
    have still := still (kept.knows call)
    have outside (ref : Ref) (member : ref ∈ fates.all start.preEpochQueue) :
        w.frames.read ref = start.frames.read ref :=
      frames ref fun owns => (kept.ledger.owned call ref owns).2.1 member
    refine ⟨fates, ?_, by rw [queue]; exact List.Subset.refl _⟩
    apply kept_step kept still (sane kept.sane)
    · rw [queue, delivered, next]
      exact ledger_kept kept.ledger own
    · rw [draining, pending]
      exact drains_owing kept.drains hand fun owes => owing.trans owes
    · exact reported_grown kept.reported still.emitted
    · exact fun ref member written => absurd (outside ref member) written
    · exact fun ref member => .inl member
    · exact knows kept.registered (kept.knows call)
    · apply waiting_still kept.waiting still (fun asked => pending.trans asked) fun owes => owing.trans owes
      intro ref member
      rw [queue] at member
      exact .inl ⟨member, outside ref (fates.mem_queue member)⟩

theorem carried_refl (note : Note) (w : Worker K G) : Carried codec call note w note w :=
  carried_still (fun _ => still_of rfl rfl (List.prefix_refl _)) id rfl rfl (fun _ _ => rfl) rfl rfl rfl fun _ => id

theorem sane_of (sane : Sane codec start) (configured : w.codec = start.codec)
    (formats : w.formatCache = start.formatCache) : Sane codec w where
  configured := configured.trans sane.configured
  formats := by
    unfold Worker.getFormatCache
    rw [formats]
    exact sane.formats

/-- Signals, accounts, promises, windows and the durable guard are not what the queue
is about. -/
theorem carried_idle (note : Note) (tables : tablePart w = tablePart start) (queue : queuePart w = queuePart start)
    (heaps : (w.entries, w.frames, w.formatCache) = (start.entries, start.frames, start.formatCache))
    (emitted : start.emitted <+: w.emitted) : Carried codec call note start note w := by
  simp only [Prod.mk.injEq] at heaps
  obtain ⟨entries, frames, formats⟩ := heaps
  have still := still_of tables entries emitted
  apply carried_still fun _ => still
  · exact fun sane => sane_of sane (congrArg (·.2.2.2.2) tables) formats
  · exact queue
  · rw [frames]
  · exact fun _ _ => by rw [frames]
  · rfl
  · rfl
  · rfl
  · exact fun _ => knows_still still fun _ _ _ => by rw [frames]

/-- What posts signals and counts failures is not what the queue is about. -/
theorem carried_posts (note : Note) (posts : Posts start w) : Carried codec call note start note w := by
  apply carried_idle note
  · exact (congrArg tablePart posts.core : tablePart w.core = tablePart start.core)
  · exact (congrArg queuePart posts.core : queuePart w.core = queuePart start.core)
  · have entries : w.entries = start.entries := (congrArg (·.entries) posts.core : w.core.entries = start.core.entries)
    have frames : w.frames = start.frames := (congrArg (·.frames) posts.core : w.core.frames = start.core.frames)
    rw [entries, frames, posts.formats]
  · exact posts.emitted

/-- A call remembers something else of its hand and of an entry. -/
theorem carried_note (own : note.own = first.own) (hand : note.hand = first.hand) (owing : note.owing = first.owing)
    (knows : Registered w → Knows w first → Knows w note) : Carried codec call first w note w :=
  carried_still (fun _ => still_of rfl rfl (List.prefix_refl _)) id rfl rfl (fun _ _ => rfl) own hand owing knows

theorem carried_setFormatCache (note : Note) (w : Worker K G) (epoch peerIndex : ℤ) {guess : FormatGuess}
    (length : guess.prefixLen = getUnencryptedBytes codec none) :
    Carried codec call note w note (w.setFormatCache epoch peerIndex guess) := by
  refine carried_still (fun _ => still_of rfl rfl (List.prefix_refl _)) (fun sane => ⟨sane.configured, ?_⟩) rfl rfl
    (fun _ _ => rfl) rfl rfl rfl fun _ knows => ⟨knows.bytes, knows.entry⟩
  intro e p other cached
  simp only [Worker.getFormatCache, Worker.setFormatCache, OrderedMap.get?_set] at cached
  split at cached
  · simp only [Option.bind_some, OrderedMap.get?_set] at cached
    split at cached
    · cases cached
      exact length
    · rename_i same _
      subst same
      apply sane.formats e p
      unfold Worker.getFormatCache
      cases inner : w.formatCache.get? e with
      | none => simp [inner] at cached
      | some held => simpa [inner] using cached
  · exact sane.formats e p other cached

/-- A key advances in the entry in which it was found. -/
theorem carried_advanceKey (w : Worker K G) {entry : Ref} {peerIndex : ℤ} (held : note.entry = some (entry, peerIndex))
    (next : RatchetKey K) (step : ℕ) : Carried codec call note w note (advanceKey w entry peerIndex next step) := by
  have still (knows : Knows w note) : Still w (advanceKey w entry peerIndex next step) := by
    refine ⟨rfl, rfl, fun other peer => ?_, List.prefix_refl _⟩
    simp only [advanceKey, Heap.read_write]
    split
    · rename_i same
      subst same
      simp only [OrderedMap.get?_set]
      split
      · rename_i same
        subst same
        exact (knows.entry _ _ held).2.symm
      · rfl
    · rfl
  exact carried_still still (fun sane => ⟨sane.configured, sane.formats⟩) rfl rfl (fun _ _ => rfl) rfl rfl
    rfl fun _ knows => knows_still (still knows) (fun _ _ _ => rfl) knows

/-- A call has got a frame. -/
theorem carried_receive (frame : EncodedFrame) (w : Worker K G) :
    Carried codec call {} w { own := some w.frames.next } (receiveFrame frame w) where
  sane sane := ⟨sane.configured, sane.formats⟩
  keeps notes fates here kept := by
    have still : Still w (receiveFrame frame w) := still_of rfl rfl (List.prefix_refl _)
    have read {ref : Ref} (old : ref < w.frames.next) : (receiveFrame frame w).frames.read ref = w.frames.read ref := by
      simp [receiveFrame, Heap.read_alloc, Nat.ne_of_lt old]
    have sameHand : ({ own := some w.frames.next } : Note).hand = (notes call).hand := by rw [here]
    have owes : (notes call).owing = true → ({ own := some w.frames.next } : Note).owing = true := by
      rw [here]
      exact id
    refine ⟨fates, ?_, List.Subset.refl _⟩
    apply kept_step kept still ⟨kept.sane.configured, kept.sane.formats⟩
    · exact ledger_received kept.ledger rfl
    · exact drains_owing kept.drains sameHand owes
    · exact kept.reported
    · exact fun ref member written => absurd (read (kept.ledger.made ref member)) written
    · exact fun ref member => .inl member
    · exact knows_nothing _ rfl rfl
    · apply waiting_still kept.waiting still id owes
      exact fun ref member => .inl ⟨member, read (kept.ledger.made ref (fates.mem_queue member))⟩

/-! ## Frames in and out of the queue -/

/-- A signal is where the signals ended. -/
theorem signal_next {emitted longer : List OutMsg} {event : OutMsg} (grown : emitted ++ [event] <+: longer)
    (reports : ReportsDrop event) : ∃ event, longer[emitted.length]? = some event ∧ ReportsDrop event := by
  obtain ⟨more, rfl⟩ := grown
  exact ⟨event, by simp, reports⟩

/-- A frame has been put behind those in the queue, of which a full one has lost its last,
with a signal. -/
structure Parked (ref : Ref) (before lost : List Ref) (w v : Worker K G) : Prop where
  split : w.preEpochQueue = before ++ lost
  few : lost = [] ∨ ∃ last, lost = [last]
  queue : v.preEpochQueue = before ++ [ref]
  flags : (v.draining, v.pendingDrain, v.delivered) = (w.draining, w.pendingDrain, w.delivered)
  frames : v.frames = w.frames
  formats : v.formatCache = w.formatCache
  still : Still w v
  signal : lost ≠ [] → ∃ event, v.emitted[w.emitted.length]? = some event ∧ ReportsDrop event

theorem parked_of {ref : Ref} {before lost : List Ref} {v : Worker K G} (split : w.preEpochQueue = before ++ lost)
    (few : lost = [] ∨ ∃ last, lost = [last]) (core : v.core = { w with preEpochQueue := before ++ [ref] }.core)
    (formats : v.formatCache = w.formatCache) (emitted : w.emitted <+: v.emitted)
    (signal : lost ≠ [] → ∃ event, v.emitted[w.emitted.length]? = some event ∧ ReportsDrop event) :
    Parked ref before lost w v where
  split := split
  few := few
  queue := (congrArg (·.preEpochQueue) core : v.core.preEpochQueue = _)
  flags := (congrArg (fun u => (u.draining, u.pendingDrain, u.delivered)) core :
    (v.core.draining, v.core.pendingDrain, v.core.delivered) = _)
  frames := (congrArg (·.frames) core : v.core.frames = _)
  formats := formats
  still := still_of (congrArg tablePart core : tablePart v.core = _) (congrArg (·.entries) core : v.core.entries = _)
    emitted
  signal := signal

theorem parked_pushToQueue (w : Worker K G) (ref : Ref) (peerIndex : Option ℤ) :
    ∃ before lost, Parked ref before lost w (w.pushToQueue ref peerIndex) := by
  by_cases full : w.preEpochQueueCap ≤ w.preEpochQueue.length
  · generalize signalled : { w with preEpochQueue := w.preEpochQueue.dropLast }.emit
      (.decryptFailure .queueOverflow none none none none none) = u
    have pushed : w.pushToQueue ref peerIndex =
      { (u.emitMetric (.queueDrop .preEpochFull none)).noteStarveDrop peerIndex with
        preEpochQueue := ((u.emitMetric (.queueDrop .preEpochFull none)).noteStarveDrop peerIndex).preEpochQueue ++
          [ref] } := by
      rw [← signalled]
      simp only [Worker.pushToQueue, ge_iff_le, full, ↓reduceIte]
    have more := (posts_posted (posted_emitMetric u (.queueDrop .preEpochFull none))).trans
      (posts_noteStarveDrop _ peerIndex)
    have inner : ((u.emitMetric (.queueDrop .preEpochFull none)).noteStarveDrop peerIndex).core =
        { w with preEpochQueue := w.preEpochQueue.dropLast }.core := by
      rw [more.core, ← signalled, Worker.core_emit]
    have grown : w.emitted ++ [.decryptFailure .queueOverflow none none none none none] <+:
        (w.pushToQueue ref peerIndex).emitted := by
      rw [pushed]
      have first : u.emitted = w.emitted ++ [.decryptFailure .queueOverflow none none none none none] := by
        rw [← signalled]
        rfl
      rw [← first]
      exact more.emitted
    refine ⟨w.preEpochQueue.dropLast, w.preEpochQueue.drop (w.preEpochQueue.length - 1), parked_of ?_ ?_ ?_ ?_ ?_ ?_⟩
    · rw [List.dropLast_eq_take, List.take_append_drop]
    · rcases w.preEpochQueue.eq_nil_or_concat with empty | ⟨before, last, split⟩
      · simp [empty]
      · exact .inr ⟨last, by simp [split]⟩
    · rw [pushed]
      exact congrArg (fun v => { v with preEpochQueue := v.preEpochQueue ++ [ref] }) inner
    · rw [pushed]
      apply more.formats.trans
      rw [← signalled]
      rfl
    · exact (List.prefix_append _ _).trans grown
    · exact fun _ => signal_next grown trivial
  · have pushed : w.pushToQueue ref peerIndex = { w with preEpochQueue := w.preEpochQueue ++ [ref] } := by
      simp only [Worker.pushToQueue, ge_iff_le, full, ↓reduceIte]
    rw [pushed]
    exact ⟨w.preEpochQueue, [], parked_of (List.append_nil _).symm (.inl rfl) rfl rfl (List.prefix_refl _)
      fun never => absurd rfl never⟩

theorem reported_parked {ref : Ref} {before lost : List Ref} (parked : Parked ref before lost start w)
    (reported : Reported start.emitted fates.dropped) :
    Reported w.emitted (fates.losing lost start.emitted.length).dropped :=
  reported_losing reported parked.still.emitted parked.few parked.signal

/-- Before the first epoch nothing can be opened. -/
theorem not_openable_before (registered : Registered w) (waits : w.currentEpoch = -1) (ref : Ref) :
    ¬ Openable w ref := by
  rintro ⟨sender, names, -, keyed⟩
  obtain ⟨hdr, -, rfl⟩ := Option.map_eq_some_iff.mp names
  have early := decode_epoch_nonneg w.kidCodec hdr.kid
  have installed := registered.reached (w.kidCodec.decode hdr.kid).1
  unfold Worker.cachedKey at keyed
  cases held : w.epochs.get? (w.kidCodec.decode hdr.kid).1 with
  | none =>
    rw [held] at keyed
    cases keyed
  | some entry =>
    have late := installed (by rw [OrderedMap.has, held]; rfl)
    omega

/-- A frame is parked behind the others. -/
theorem carried_park {ref : Ref} (w : Worker K G) (peerIndex : Option ℤ) (own : first.own = some ref)
    (hand : first.hand = none) (owing : first.owing = false) (waits : w.currentEpoch = -1) :
    Carried codec call first w {} (w.pushToQueue ref peerIndex) := by
  obtain ⟨before, lost, parked⟩ := parked_pushToQueue w ref peerIndex
  generalize w.pushToQueue ref peerIndex = v at parked
  have flags := parked.flags
  simp only [Prod.mk.injEq] at flags
  obtain ⟨draining, pending, delivered⟩ := flags
  have sane (sane : Sane codec w) : Sane codec v :=
    sane_of sane (congrArg (·.2.2.2.2) parked.still.tables) parked.formats
  refine ⟨sane, fun notes fates here kept => ?_⟩
  subst here
  obtain ⟨made, apart, undelivered⟩ := kept.ledger.owned call ref own
  obtain ⟨released, free⟩ := ledger_released kept.ledger own (show ({} : Note).own = none from rfl)
  have joined : ((fates.losing lost w.emitted.length).all (before ++ [ref])).Perm
    (ref :: fates.all w.preEpochQueue) := by
    apply List.perm_iff_count.mpr
    intro other
    simp only [Fates.all, Fates.losing, parked.split, List.map_append, List.map_map, List.count_append, List.count_cons,
      List.count_nil, Function.comp_def, List.map_id']
    omega
  have owes : (notes call).owing = true → ({} : Note).owing = true := by
    intro owed
    rw [owing] at owed
    cases owed
  refine ⟨fates.losing lost w.emitted.length, ?_, ?_⟩
  · apply kept_step kept parked.still (sane kept.sane)
    · rw [parked.queue, delivered, parked.frames]
      exact ledger_joined released made apart undelivered free joined rfl
    · rw [draining, pending]
      exact drains_owing kept.drains hand.symm owes
    · exact reported_parked parked kept.reported
    · exact fun other _ written => absurd (by rw [parked.frames]) written
    · exact fun other member => .inl member
    · exact knows_nothing _ rfl rfl
    · apply waiting_still kept.waiting parked.still (fun asked => pending.trans asked) owes
      intro other member
      have current : v.currentEpoch = w.currentEpoch := congrArg (·.2.1) parked.still.tables
      exact .inr (not_openable_before (registered_still parked.still kept.registered) (current.trans waits) other)
  · rw [parked.queue]
    intro other member
    exact joined.mem_iff.mpr (List.mem_cons_of_mem _ member)

/-- What becomes of the first frame in the hand of the drain in progress. -/
structure Settles (notes : ι → Note) (ref : Ref) (rest : List Ref) (fates : Fates) (start : Worker K G) (later : Fates)
    (w : Worker K G) : Prop where
  hand : later.hand = rest
  ledger : Ledger w.preEpochQueue (w.delivered.map Prod.snd) w.frames.next notes later
  reported : Reported w.emitted later.dropped
  stale : ∀ other ∈ later.stale, other ∈ fates.stale ∨ Stale w other
  closed : ∀ other ∈ w.preEpochQueue, other ∈ start.preEpochQueue ∨ ¬ Openable w other
  listed : fates.all start.preEpochQueue ⊆ later.all w.preEpochQueue

/-- The drain in progress is done with the first frame in its hand. -/
theorem carried_hand {ref : Ref} {rest : List Ref} (hand : first.hand = some (ref :: rest)) (still : Still start w)
    (formats : w.formatCache = start.formatCache)
    (flags : (w.draining, w.pendingDrain) = (start.draining, start.pendingDrain))
    (frames : ∀ other, other ≠ ref → w.frames.read other = start.frames.read other)
    (settles : ∀ (notes : ι → Note) fates, notes call = first → fates.hand = ref :: rest →
      Kept codec start notes fates → ∃ later, Settles notes ref rest fates start later w) :
    Carried codec call first start { first with hand := some rest, bytes := none } w := by
  simp only [Prod.mk.injEq] at flags
  obtain ⟨draining, pending⟩ := flags
  have sane (sane : Sane codec start) : Sane codec w := sane_of sane (congrArg (·.2.2.2.2) still.tables) formats
  refine ⟨sane, fun notes fates here kept => ?_⟩
  have inHand : fates.hand = ref :: rest := kept.drains.held call _ (here ▸ hand)
  obtain ⟨later, settled⟩ := settles notes fates here inHand kept
  subst here
  have mine : (notes call).hand.isSome := by rw [hand]; rfl
  have once := kept.ledger.once
  simp only [Fates.all, inHand, List.nodup_append, List.mem_append, List.mem_cons] at once
  refine ⟨later, ?_, settled.listed⟩
  apply kept_step kept still (sane kept.sane)
  · exact ledger_kept settled.ledger rfl
  · rw [draining, pending]
    exact drains_moved kept.drains mine rfl settled.hand id
  · exact settled.reported
  · intro other _ written
    have own : other = ref := by
      by_contra different
      exact written (frames other different)
    refine ⟨fun member => ?_, _, hand⟩
    exact once.2.1.2.1.2.2 other member ref (.inl (.inl rfl)) own
  · exact settled.stale
  · constructor
    · intro other frame never
      cases never
    · intro entry peer same
      rw [still.stock, still.keys]
      exact (kept.knows call).entry entry peer same
  · apply waiting_still kept.waiting still (fun asked => pending.trans asked)
    · exact id
    · intro other member
      rcases settled.closed other member with earlier | shut
      · refine .inl ⟨earlier, frames other ?_⟩
        rintro rfl
        exact once.2.1.2.1.2.1.2.2 other (.inl rfl) other earlier rfl
      · exact .inr shut

/-! ### Out of the hand of a drain -/

omit [DecidableEq ι] in
/-- What the drain knows of the sender of the first frame in its hand. -/
theorem named_first {ref : Ref} {frame : EncodedFrame} {hdr : SFrameHeader} (bytes : first.bytes = some (ref, frame))
    (parsed : parseHeader (frame.data.drop (getUnencryptedBytes codec none)) = .ok hdr) (knows : Knows w first)
    (sane : Sane codec w) : named w ref = some (w.kidCodec.decode hdr.kid) := by
  rw [named, (knows.bytes ref frame bytes).1, sane.configured, parsed]
  rfl

section Hand
variable {ref : Ref} {rest : List Ref} (hand : first.hand = some (ref :: rest))

include hand

/-- Without a key for it, the frame goes back behind the queue. -/
theorem carried_requeue {frame : EncodedFrame} {hdr : SFrameHeader} (bytes : first.bytes = some (ref, frame))
    (parsed : parseHeader (frame.data.drop (getUnencryptedBytes codec none)) = .ok hdr)
    (missing : w.cachedKey (w.kidCodec.decode hdr.kid).1 (w.kidCodec.decode hdr.kid).2 = none) (peerIndex : Option ℤ) :
    Carried codec call first w { first with hand := some rest, bytes := none } (w.pushToQueue ref peerIndex) := by
  obtain ⟨before, lost, parked⟩ := parked_pushToQueue w ref peerIndex
  generalize w.pushToQueue ref peerIndex = v at parked
  have flags := parked.flags
  simp only [Prod.mk.injEq] at flags
  obtain ⟨draining, pending, delivered⟩ := flags
  apply carried_hand hand parked.still parked.formats (by rw [draining, pending]) (fun _ _ => by rw [parked.frames])
  intro notes fates here inHand kept
  have moved : ({ fates.losing lost w.emitted.length with hand := rest }.all (before ++ [ref])).Perm
      (fates.all w.preEpochQueue) := by
    apply List.perm_iff_count.mpr
    intro other
    simp only [Fates.all, Fates.losing, inHand, parked.split, List.map_append, List.map_map, List.count_append,
      List.count_cons, List.count_nil, Function.comp_def, List.map_id']
    omega
  refine ⟨{ fates.losing lost w.emitted.length with hand := rest }, rfl, ?_, ?_, fun _ => .inl,
    fun other member => ?_, ?_⟩
  · rw [parked.queue, delivered, parked.frames]
    exact ledger_moved kept.ledger moved rfl
  · exact reported_parked parked kept.reported
  · rw [parked.queue, List.mem_append, List.mem_singleton] at member
    rcases member with earlier | rfl
    · exact .inl (parked.split ▸ List.mem_append_left _ earlier)
    · refine .inr fun openable => ?_
      obtain ⟨sender, names, -, keyed⟩ := openable_still parked.still (by rw [parked.frames]) openable
      rw [named_first bytes parsed (here ▸ kept.knows call) kept.sane, Option.some.injEq] at names
      rw [← names, missing] at keyed
      cases keyed
  · rw [parked.queue]
    exact fun _ => moved.mem_iff.mpr

/-- The frame is dropped, and the drop signalled. -/
theorem carried_drop {event : OutMsg} (posts : Posts (start.emit event) w) (reports : ReportsDrop event) :
    Carried codec call first start { first with hand := some rest, bytes := none } w := by
  have core : w.core = start.core := posts.core
  have grown : start.emitted <+: w.emitted := (List.prefix_append _ _).trans posts.emitted
  have parts : (w.preEpochQueue, w.draining, w.pendingDrain, w.delivered, w.frames) =
      (start.preEpochQueue, start.draining, start.pendingDrain, start.delivered, start.frames) :=
    (congrArg (fun v => (v.preEpochQueue, v.draining, v.pendingDrain, v.delivered, v.frames)) core :
      (w.core.preEpochQueue, w.core.draining, w.core.pendingDrain, w.core.delivered, w.core.frames) = _)
  simp only [Prod.mk.injEq] at parts
  obtain ⟨queue, draining, pending, delivered, frames⟩ := parts
  have still : Still start w := still_of (congrArg tablePart core : tablePart w.core = _)
    (congrArg (·.entries) core : w.core.entries = _) grown
  apply carried_hand hand still posts.formats (by rw [draining, pending]) (fun _ _ => by rw [frames])
  intro notes fates here inHand kept
  have moved : ({ fates with dropped := fates.dropped ++ [(ref, start.emitted.length)], hand := rest }.all
      start.preEpochQueue).Perm (fates.all start.preEpochQueue) := by
    apply List.perm_iff_count.mpr
    intro other
    simp only [Fates.all, inHand, List.map_append, List.map_cons, List.map_nil, List.count_append, List.count_cons,
      List.count_nil]
    omega
  refine ⟨{ fates with dropped := fates.dropped ++ [(ref, start.emitted.length)], hand := rest }, rfl, ?_, ?_,
    fun _ => .inl, fun _ member => .inl (queue ▸ member), ?_⟩
  · rw [queue, delivered, frames]
    exact ledger_moved kept.ledger moved rfl
  · exact reported_more kept.reported grown ref (signal_next posts.emitted reports)
  · rw [queue]
    exact fun _ => moved.mem_iff.mpr

/-- A frame of an epoch that has passed is passed over. -/
theorem carried_stale {frame : EncodedFrame} {hdr : SFrameHeader} (w : Worker K G)
    (bytes : first.bytes = some (ref, frame))
    (parsed : parseHeader (frame.data.drop (getUnencryptedBytes codec none)) = .ok hdr)
    (stale : (w.kidCodec.decode hdr.kid).1 < w.currentMinValidEpoch) :
    Carried codec call first w { first with hand := some rest, bytes := none } w := by
  apply carried_hand hand (still_of rfl rfl (List.prefix_refl _)) rfl rfl fun _ _ => rfl
  intro notes fates here inHand kept
  have moved : ({ fates with stale := fates.stale ++ [ref], hand := rest }.all w.preEpochQueue).Perm
      (fates.all w.preEpochQueue) := by
    apply List.perm_iff_count.mpr
    intro other
    simp only [Fates.all, inHand, List.count_append, List.count_cons, List.count_nil]
    omega
  refine ⟨{ fates with stale := fates.stale ++ [ref], hand := rest }, rfl, ledger_moved kept.ledger moved rfl,
    kept.reported, fun other member => ?_, fun _ => .inl, fun _ => moved.mem_iff.mpr⟩
  rcases List.mem_append.mp member with earlier | last
  · exact .inl earlier
  · rw [List.mem_singleton.mp last]
    exact .inr ⟨_, named_first bytes parsed (here ▸ kept.knows call) kept.sane, stale⟩

/-- The frame is decrypted. -/
theorem carried_decrypt (w : Worker K G) (slot : Slot) (frame : EncodedFrame) :
    Carried codec call first w { first with hand := some rest, bytes := none }
      { w with frames := w.frames.write ref frame, delivered := w.delivered ++ [(slot, ref)] } := by
  have others {other : Ref} (different : other ≠ ref) :
      (w.frames.write ref frame).read other = w.frames.read other := by
    simp [different]
  have still : Still w { w with frames := w.frames.write ref frame, delivered := w.delivered ++ [(slot, ref)] } :=
    still_of rfl rfl (List.prefix_refl _)
  apply carried_hand hand still rfl rfl fun _ => others
  intro notes fates here inHand kept
  have moved : ({ fates with decrypted := fates.decrypted ++ [ref], hand := rest }.all w.preEpochQueue).Perm
      (fates.all w.preEpochQueue) := by
    apply List.perm_iff_count.mpr
    intro other
    simp only [Fates.all, inHand, List.count_append, List.count_cons, List.count_nil]
    omega
  have listed : ref ∈ fates.all w.preEpochQueue := mem_of_hand kept.drains (here ▸ hand) List.mem_cons_self _
  refine ⟨{ fates with decrypted := fates.decrypted ++ [ref], hand := rest }, rfl, ?_, kept.reported, fun _ => .inl,
    fun _ => .inl, fun _ => moved.mem_iff.mpr⟩
  have fresh : ref ∉ fates.decrypted := by
    have once := kept.ledger.once
    simp only [Fates.all, inHand, List.nodup_append, List.mem_append, List.mem_cons] at once
    exact fun again => once.2.2 ref again ref (.inr (.inr (.inl (.inl rfl)))) rfl
  simp only [List.map_append, List.map_cons, List.map_nil]
  apply ledger_sent kept.ledger (kept.ledger.made ref listed) _ moved
  · intro other member
    rw [List.count_append, kept.ledger.counted other member, List.count_singleton]
    by_cases same : ref = other
    · subst same
      simp [fresh]
    · simp [same, Ne.symm same]
  · exact fun other owns => (kept.ledger.owned other ref owns).2.1 listed

end Hand

/-- A call delivers its own frame, which has never been in the queue. -/
theorem carried_deliver {ref : Ref} (w : Worker K G) (slot : Slot) (frame : EncodedFrame) :
    Carried codec call { own := some ref } w {}
      { w with frames := w.frames.write ref frame, delivered := w.delivered ++ [(slot, ref)] } where
  sane sane := ⟨sane.configured, sane.formats⟩
  keeps notes fates here kept := by
    have own : (notes call).own = some ref := by rw [here]
    obtain ⟨made, apart, -⟩ := kept.ledger.owned call ref own
    obtain ⟨released, free⟩ := ledger_released kept.ledger own (show ({} : Note).own = none from rfl)
    have others {other : Ref} (different : other ≠ ref) :
        (w.frames.write ref frame).read other = w.frames.read other := by
      simp [different]
    have outside {other : Ref} (member : other ∈ fates.all w.preEpochQueue) : other ≠ ref := by
      rintro rfl
      exact apart member
    have still : Still w { w with frames := w.frames.write ref frame, delivered := w.delivered ++ [(slot, ref)] } :=
      still_of rfl rfl (List.prefix_refl _)
    refine ⟨fates, ?_, List.Subset.refl _⟩
    apply kept_step kept still ⟨kept.sane.configured, kept.sane.formats⟩
    · simp only [List.map_append, List.map_cons, List.map_nil]
      apply ledger_sent released made free (List.Perm.refl _)
      intro other member
      rw [List.count_append, kept.ledger.counted other member, List.count_singleton]
      simp [(outside member).symm]
    · exact drains_owing kept.drains (by rw [here]) fun owes => by rw [here] at owes; cases owes
    · exact kept.reported
    · exact fun other member written => absurd (others (outside member)) written
    · exact fun other member => .inl member
    · exact knows_nothing _ rfl rfl
    · apply waiting_still kept.waiting still id fun owes => by rw [here] at owes; cases owes
      exact fun other member => .inl ⟨member, others (outside (fates.mem_queue member))⟩

/-- A call is done with its frame. -/
theorem carried_forget {ref : Ref} (w : Worker K G) : Carried codec call { own := some ref } w {} w where
  sane := id
  keeps notes fates here kept := by
    refine ⟨fates, ?_, List.Subset.refl _⟩
    apply kept_step kept (still_of rfl rfl (List.prefix_refl _)) kept.sane
    · exact (ledger_released kept.ledger (by rw [here]) rfl).1
    · exact drains_owing kept.drains (by rw [here]) fun owes => by rw [here] at owes; cases owes
    · exact kept.reported
    · exact fun _ _ written => absurd rfl written
    · exact fun _ => .inl
    · exact knows_nothing _ rfl rfl
    · exact waiting_note (fun owes => by rw [here] at owes; cases owes) kept.waiting

/-- Encoding writes the frame of its call. -/
theorem carried_encodes {ref : Ref} (encodes : Encodes ref start w) :
    Carried codec call { own := some ref } start { own := some ref } w := by
  have part : (tablePart w, queuePart w, w.entries, w.formatCache) =
      (tablePart start, queuePart start, start.entries, start.formatCache) :=
    (congrArg (fun v => (tablePart v, queuePart v, v.entries, v.formatCache)) encodes.same :
      (tablePart (beyondEncoding w), queuePart (beyondEncoding w), _, _) = _)
  simp only [Prod.mk.injEq] at part
  obtain ⟨tables, queue, entries, formats⟩ := part
  obtain ⟨more, emitted, -⟩ := encodes.emitted
  have still : Still start w := still_of tables entries ⟨more, emitted.symm⟩
  apply carried_still fun _ => still
  · exact fun sane => sane_of sane (congrArg (·.2.2.2.2) tables) formats
  · exact queue
  · exact encodes.next
  · exact fun other apart => encodes.others other fun same => apart (congrArg some same.symm)
  · rfl
  · rfl
  · rfl
  · exact fun _ _ => knows_nothing w rfl rfl

/-! ## Drains -/

/-- The worker without its queue and the flags of the drains. -/
def beyondQueue (w : Worker K G) : Worker K G :=
    { w with preEpochQueue := [], draining := false, pendingDrain := false }

/-- A step of a drain, or of a call without a frame, that touches nothing else. -/
theorem carried_drain (same : beyondQueue w = beyondQueue start) (own : note.own = first.own)
    (unknown : note.bytes = none ∧ note.entry = none)
    (moves : ∀ (notes : ι → Note) fates, notes call = first → Kept codec start notes fates → ∃ inHand,
      (inHand ++ w.preEpochQueue).Perm (fates.hand ++ start.preEpochQueue) ∧
        Drains w.draining w.pendingDrain (Function.update notes call note) inHand ∧
          Waiting w (Function.update notes call note)) : Carried codec call first start note w := by
  have parts : (tablePart w, w.entries, w.emitted, w.formatCache, w.frames, w.delivered) =
      (tablePart start, start.entries, start.emitted, start.formatCache, start.frames, start.delivered) :=
    (congrArg (fun v => (tablePart v, v.entries, v.emitted, v.formatCache, v.frames, v.delivered)) same :
      (tablePart (beyondQueue w), _, _, _, _, _) = _)
  simp only [Prod.mk.injEq] at parts
  obtain ⟨tables, entries, emitted, formats, frames, delivered⟩ := parts
  have sane (sane : Sane codec start) : Sane codec w := sane_of sane (congrArg (·.2.2.2.2) tables) formats
  refine ⟨sane, fun notes fates here kept => ?_⟩
  obtain ⟨inHand, permuted, drains, waiting⟩ := moves notes fates here kept
  have moved : ({ fates with hand := inHand }.all w.preEpochQueue).Perm (fates.all start.preEpochQueue) :=
    ((permuted.append_left _).append_left _).append_left _
  refine ⟨{ fates with hand := inHand }, ?_, fun _ => moved.mem_iff.mpr⟩
  apply kept_step kept (still_of tables entries (emitted ▸ List.prefix_refl _)) (sane kept.sane)
  · rw [delivered, frames]
    exact ledger_kept (ledger_moved kept.ledger moved rfl) (by rw [here, own])
  · exact drains
  · exact emitted ▸ kept.reported
  · exact fun _ _ written => absurd (by rw [frames]) written
  · exact fun _ => .inl
  · exact knows_nothing w unknown.1 unknown.2
  · exact waiting

/-- A drain finds another in progress, and leaves a note. -/
theorem carried_ask (busy : w.draining = true) (own : first.own = none) (hand : first.hand = none) :
    Carried codec call first w {} { w with pendingDrain := true } := by
  refine carried_drain rfl own.symm ⟨rfl, rfl⟩ fun notes fates here kept => ?_
  exact ⟨fates.hand, List.Perm.refl _, drains_note kept.drains (by rw [here, hand]) fun _ => .inl busy, .inr (.inl rfl)⟩

/-- A drain takes the whole queue into its hand. -/
theorem carried_take (idle : w.draining = false) (own : first.own = none) :
    Carried codec call first w { hand := some w.preEpochQueue } { w with draining := true, preEpochQueue := [] } := by
  refine carried_drain rfl own.symm ⟨rfl, rfl⟩ fun notes fates here kept => ?_
  refine ⟨w.preEpochQueue, ?_, drains_begin kept.drains idle rfl rfl, .inl fun _ never => absurd never List.not_mem_nil⟩
  rw [kept.drains.idle idle, List.append_nil, List.nil_append]

/-- A drain is done, and owes another pass when it was asked for one. -/
theorem carried_release (w : Worker K G) :
    Carried codec call { hand := some [] } w { owing := w.pendingDrain } { w with draining := false } := by
  refine carried_drain rfl rfl ⟨rfl, rfl⟩ fun notes fates here kept => ?_
  refine ⟨fates.hand, List.Perm.refl _, drains_end kept.drains (by rw [here]) rfl rfl, ?_⟩
  exact waiting_note (fun owes => by rw [here] at owes; cases owes) kept.waiting

/-- The drain that owes the pass takes up the note. -/
theorem carried_owing (w : Worker K G) :
    Carried codec call { owing := true } w { owing := true } { w with pendingDrain := false } := by
  refine carried_drain rfl rfl ⟨rfl, rfl⟩ fun notes fates here kept => ?_
  have owed : ∃ other, (Function.update notes call { owing := true } other).owing = true :=
    ⟨call, by rw [Function.update_self]⟩
  exact ⟨fates.hand, List.Perm.refl _, drains_note kept.drains (by rw [here]) (by simp), .inr (.inr owed)⟩

/-! ## Keys come and go -/

/-- A call without a frame changes the epochs and their entries. No epoch gets valid again,
and no entry loses a key. -/
theorem carried_keys {owing : Bool} (queue : queuePart w = queuePart start) (frames : w.frames = start.frames)
    (emitted : start.emitted <+: w.emitted) (codecs : (w.kidCodec, w.codec) = (start.kidCodec, start.codec))
    (formats : ∀ epoch peerIndex guess, w.getFormatCache epoch peerIndex = some guess →
      start.getFormatCache epoch peerIndex = some guess)
    (valid : start.currentMinValidEpoch ≤ w.currentMinValidEpoch) (stock : start.entries.next ≤ w.entries.next)
    (keys : ∀ entry peerIndex, entry < start.entries.next → ((start.entries.read entry).keys.get? peerIndex).isSome →
      ((w.entries.read entry).keys.get? peerIndex).isSome)
    (registered : Registered start → Registered w)
    (waiting : ∀ notes : ι → Note, notes call = {} → Waiting start notes →
      Waiting w (Function.update notes call { owing })) : Carried codec call {} start { owing } w := by
  simp only [queuePart, Prod.mk.injEq] at queue codecs
  obtain ⟨queue, draining, pending, delivered⟩ := queue
  obtain ⟨kidCodec, configured⟩ := codecs
  have sane (sane : Sane codec start) : Sane codec w :=
    ⟨configured.trans sane.configured, fun _ _ _ held => sane.formats _ _ _ (formats _ _ _ held)⟩
  have names (ref : Ref) : named w ref = named start ref := by rw [named, named, frames, kidCodec, configured]
  refine ⟨sane, fun notes fates here kept => ⟨fates, ?_, by rw [queue]; exact List.Subset.refl _⟩⟩
  constructor
  · rw [queue, delivered, frames]
    exact ledger_kept kept.ledger (by rw [here])
  · rw [draining, pending]
    exact drains_owing kept.drains (by rw [here]) fun owes => by rw [here] at owes; cases owes
  · exact reported_grown kept.reported emitted
  · intro ref member
    obtain ⟨sender, named, past⟩ := kept.past ref member
    exact ⟨sender, (names ref).trans named, past.trans_le valid⟩
  · exact sane kept.sane
  · exact registered kept.registered
  · apply knows_update
    · intro other
      refine ⟨fun ref frame same => ?_, fun entry peerIndex same => ?_⟩
      · rw [frames]
        exact (kept.knows other).bytes ref frame same
      · obtain ⟨made, keyed⟩ := (kept.knows other).entry entry peerIndex same
        exact ⟨made.trans_le stock, keys entry peerIndex made keyed⟩
    · exact knows_nothing _ rfl rfl
  · exact waiting notes here kept.waiting

/-- An epoch is installed; the call that does it has yet to go over the queue. -/
theorem carried_install {epoch selfPeerIndex : ℤ} {keys : KeyBundles K}
    (ok : start.installEpoch epoch selfPeerIndex keys = .ok w) : Carried codec call {} start { owing := true } w := by
  obtain ⟨table, -, core⟩ := Worker.core_installEpoch ok
  have parts : (queuePart w, w.frames, w.kidCodec, w.codec, w.currentMinValidEpoch, w.entries) =
      (queuePart start, start.frames, start.kidCodec, start.codec, start.currentMinValidEpoch,
        start.entries.alloc { epoch, selfPeerIndex, keys := table, ratchetSteps := ∅ }) := by
    have part : (queuePart w, w.frames, w.kidCodec, w.codec, w.currentMinValidEpoch, w.entries) =
        (queuePart w.core, w.core.frames, w.core.kidCodec, w.core.codec, w.core.currentMinValidEpoch, w.core.entries) :=
          rfl
    rw [part, core]
    split <;> rfl
  simp only [Prod.mk.injEq] at parts
  obtain ⟨queue, frames, kidCodec, configured, valid, entries⟩ := parts
  obtain ⟨more, emitted, -⟩ := QueueDiscipline.signals_installEpoch ok
  apply carried_keys queue frames ⟨more, emitted.symm⟩ (by rw [kidCodec, configured])
  · unfold Worker.getFormatCache
    rw [(Worker.installEpoch_accounts ok).1]
    exact fun _ _ _ => id
  · exact valid.ge
  · rw [entries, Heap.next_alloc]
    exact Nat.le_succ _
  · intro entry peerIndex made keyed
    rw [entries, Heap.read_alloc, if_neg (Nat.ne_of_lt made)]
    exact keyed
  · exact fun registered => Reinstall.registered_installEpoch registered ok
  · exact fun notes _ _ => .inr (.inr ⟨call, by rw [Function.update_self]⟩)

/-- A wiped epoch opens nothing any more. -/
theorem carried_wipe (guard : ReplayGuard G) (w : Worker K G) (epoch : ℤ) :
    Carried codec call {} w {} (w.wipeEpoch guard epoch) := by
  have keys (entry : Ref) (peerIndex : ℤ) :
      (((w.wipeEpoch guard epoch).entries.read entry).keys.get? peerIndex).isSome =
      ((w.entries.read entry).keys.get? peerIndex).isSome := by
    unfold Worker.wipeEpoch
    dsimp only
    split
    · rename_i ref held
      rw [Heap.read_write]
      split
      · rename_i same
        subst same
        simp [Worker.zeroizeEntry]
      · rfl
    · rfl
  have valid : w.currentMinValidEpoch ≤ (w.wipeEpoch guard epoch).currentMinValidEpoch := by
    unfold Worker.wipeEpoch
    dsimp only
    split <;> omega
  have cached {e p : ℤ} (keyed : ((w.wipeEpoch guard epoch).cachedKey e p).isSome) : (w.cachedKey e p).isSome := by
    have epochs : (w.wipeEpoch guard epoch).epochs = w.epochs.delete epoch := rfl
    unfold Worker.cachedKey at keyed ⊢
    rw [epochs, OrderedMap.get?_delete] at keyed
    split at keyed
    · cases keyed
    · cases held : w.epochs.get? e with
      | none =>
        rw [held] at keyed
        cases keyed
      | some entry =>
        rw [held] at keyed
        exact (keys entry p).symm.trans keyed
  have stock : (w.wipeEpoch guard epoch).entries.next = w.entries.next := by
    unfold Worker.wipeEpoch
    dsimp only
    split <;> rfl
  refine carried_keys rfl rfl (List.prefix_refl _) rfl ?_ valid stock.ge ?_ ?_ ?_
  · intro e p guess held
    unfold Worker.getFormatCache at held ⊢
    have formats : (w.wipeEpoch guard epoch).formatCache = w.formatCache.delete epoch := rfl
    rw [formats, OrderedMap.get?_delete] at held
    split at held
    · cases held
    · exact held
  · exact fun entry peerIndex _ keyed => (keys entry peerIndex).trans keyed
  · exact fun registered => Reinstall.registered_wipeEpoch registered guard epoch
  · intro notes here waiting
    rw [← here, Function.update_eq_self]
    rcases waiting with closed | asked
    · refine .inl fun ref member => ?_
      rintro ⟨sender, names, within, keyed⟩
      exact closed ref member ⟨sender, names, valid.trans within, cached keyed⟩
    · exact .inr asked

end SFrameRatchet.QueueSteps
