import SFrameRatchet.AlikeWorkers
import SFrameRatchet.FailureAccounts

/-! The same frame on the live path and in a drain. The two are separate copies of the
same gates; they agree on what becomes of a frame and on everything a later frame depends
on, but for the trailer, which only the live path strips, and for failures that do not name
their sender, which only the live path counts. -/
namespace SFrameRatchet.DrainAgreement
open Collections ConstantTime Crypto Kid Header SFrame CodecPartial Throwing Coroutine SideBySide Media
open AlikeWorkers SoloDecoding SoloOpening FailureAccounts

variable {K G : Type} {runtime : Runtime K G}

/-! ## Both paths on one frame -/

/-- What becomes of a frame. -/
inductive Fate where
  | accepted
  | dropped
  | parked
  | passedThrough
  deriving DecidableEq

/-- What the live path has made of a frame. -/
def liveFate : Except JsError Path → Fate
  | .error _ => .dropped
  | .ok .passedThrough => .passedThrough
  | .ok .parked => .parked
  | .ok (.opened ..) => .accepted

/-- What a drain has made of the frame that it found in the queue of `start`. -/
def drainFate (start : Worker K G) (ref : Ref) (w : Worker K G) : Fate :=
  if w.delivered ≠ start.delivered then .accepted
  else if ref ∈ w.preEpochQueue then .parked
  else .dropped

/-- The worker with one frame in the queue, and no drain over it yet. -/
def queued (w : Worker K G) (ref : Ref) : Worker K G :=
  { w with preEpochQueue := [ref], draining := false, pendingDrain := false }

/-- The frame has fared alike on both paths, and so have its sender and its epoch. -/
structure Agrees (start : Worker K G) (ref : Ref) (outcome : Except JsError Path) (live : Worker K G)
    (drained : Worker K G) : Prop where
  data : (drained.frames.read ref).data = (live.frames.read ref).data
  fate : drainFate start ref drained = liveFate outcome
  /-- The keys of every epoch, with their ratchet cursors. -/
  entries : ∀ epoch, entryOf drained epoch = entryOf live epoch
  windows : drained.replayWindows = live.replayWindows
  formats : drained.formatCache = live.formatCache
  failures : drained.failureCounts = live.failureCounts

/-- Both paths come to an end with a frame and agree on it, or neither does. -/
def Alongside (runtime : Runtime K G) (w : Worker K G) (ref : Ref) : Prop :=
  Lockstep (decodeFrame runtime ref) (drainPreEpochQueue runtime)
    (fun outcome live _ drained => Agrees w ref outcome live drained) w (queued w ref)

/-- The epoch and the sender that the frame names have a key, with the trailer stripped or not. -/
structure Ready (runtime : Runtime K G) (w : Worker K G) (ref : Ref) : Prop where
  current : w.currentEpoch ≠ -1
  keyed : ∀ payload hdr, payload = (w.frames.read ref).data ∨
      sifPayload w.sifTrailer (w.frames.read ref).data = some payload →
    parseHeader (payload.drop (formatOf runtime w ref payload).1.prefixLen) = .ok hdr →
    (w.cachedKey (slotOf w hdr).epoch (slotOf w hdr).peerIndex).isSome

section Frame
variable {w v : Worker K G} {ref : Ref}

/-! ## The drain of one frame -/

theorem flags_failDrain (w : Worker K G) (refused : JsError) : flags (failDrain w refused) = flags w :=
  (congrArg flags (core_failDrain w refused) : flags (failDrain w refused).core = flags w.core)

/-- A drained frame leaves the flags of the drain alone. -/
theorem drainFrame_flags {outcome : Except JsError Unit} (ran : alone (drainFrame runtime ref) w = some (outcome, v)) :
    flags v = flags w := by
  generalize own : (w.frames.read ref).data = raw at *
  cases parsed : parseHeader (raw.drop (formatOf runtime w ref raw).1.prefixLen) with
  | error unparsed =>
    rw [alone_drainFrame_unparsed own parsed] at ran
    cases ran
    exact flags_failDrain w unparsed
  | ok hdr =>
    rw [alone_drainFrame own parsed] at ran
    obtain ⟨⟨result, v'⟩, drained, ended⟩ := Option.map_eq_some_iff.mp ran
    obtain ⟨returned, threw⟩ := drainPayload_ends parsed drained
    cases result with
    | ok done =>
      obtain ⟨rfl, rfl⟩ := Prod.mk.inj ended
      rcases returned rfl with same | opened
      · exact flags_of_books same
      · exact (flags_of_books opened).trans (flags_recordSuccess w _ _)
    | error refused =>
      obtain ⟨rfl, rfl⟩ := Prod.mk.inj ended
      exact (flags_failDrain v' refused).trans (flags_of_books (threw refused rfl).1)

/-- A drain over one frame is done when it is done with the frame. -/
theorem alone_drainQueued (patient : 0 < runtime.patience) (w : Worker K G) (ref : Ref) :
    alone (drainPreEpochQueue runtime) (queued w ref) =
      (alone (drainFrame runtime ref) (taken (queued w ref))).map
        fun result => (.ok (), { result.2 with draining := false }) := by
  obtain ⟨patience, budget⟩ : ∃ patience, runtime.patience = patience + 1 := ⟨runtime.patience - 1, by omega⟩
  unfold drainPreEpochQueue
  rw [budget]
  have idle : (queued w ref).draining = false := rfl
  simp only [drainPasses, alone_bind, alone_read, Option.bind_some, idle, Bool.false_eq_true, ↓reduceIte, alone_update]
  change ((alone (drainFrames runtime [ref]) (taken (queued w ref))).bind _) = _
  simp only [drainFrames, alone_bind]
  cases drained : alone (drainFrame runtime ref) (taken (queued w ref)) with
  | none => rfl
  | some result =>
    obtain ⟨outcome, v⟩ := result
    obtain rfl := drainFrame_returns drained
    have unasked : v.pendingDrain = false := congrArg Prod.snd (drainFrame_flags drained)
    simp only [Option.bind_some, alone_pure, unasked, Bool.false_eq_true, ↓reduceIte, Option.map_some]

/-! ## Alike workers -/

variable {w' : Worker K G}

theorem Alike.slotOf (alike : Alike w w') (hdr : SFrameHeader) : slotOf w' hdr = SoloDecoding.slotOf w hdr := by
  have codec := alike.field (·.kidCodec) fun _ => rfl
  simp only [SoloDecoding.slotOf, codec]

theorem Alike.formatOf (alike : Alike w w') (ref : Ref) (payload : Bytes) :
    formatOf runtime w' ref payload = SoloDecoding.formatOf runtime w ref payload := by
  have codec := alike.field (·.codec) fun _ => rfl
  have frames := alike.field (·.frames) fun _ => rfl
  have resolves : InStep Alike (resolveFormat runtime ref payload w.codec (w.frames.read ref).kind)
      (resolveFormat runtime ref payload w.codec (w.frames.read ref).kind) w w' := resolveFormat_inStep _ _ _ _ _ alike
  have both := inStep_outcome resolves
  rw [alone_resolveFormat, alone_resolveFormat] at both
  simp only [Option.map_some, Option.some.injEq, Except.ok.injEq] at both
  rw [SoloDecoding.formatOf, SoloDecoding.formatOf, codec, frames, both]

/-- What has been posted is no part of what workers are compared by. -/
theorem signalled_of_mute (same : mute v = mute w) : Signalled w v :=
  ⟨(congrArg view same : view (mute v) = view (mute w)), (congrArg (·.failureCounts) same : (mute v).failureCounts = _),
    (congrArg (·.epochs) same : (mute v).epochs = _), (congrArg (·.entries) same : (mute v).entries = _)⟩

section Gates
variable (alike : Alike w w') (slot : Slot)

include alike

theorem Alike.windowTakes : windowTakes w' slot = SoloDecoding.windowTakes w slot := by
  rw [SoloDecoding.windowTakes, SoloDecoding.windowTakes, (alike.getReplayWindow slot.epoch slot.peerIndex).1]

theorem Alike.windowHeld : windowHeld w' slot = SoloDecoding.windowHeld w slot := by
  rw [SoloDecoding.windowHeld, SoloDecoding.windowHeld, (alike.getReplayWindow slot.epoch slot.peerIndex).1]

theorem Alike.windowAsked : Alike (windowAsked w slot) (SoloDecoding.windowAsked w' slot) :=
  (alike.getReplayWindow slot.epoch slot.peerIndex).2

theorem Alike.guardTakes : guardTakes runtime w' slot = SoloDecoding.guardTakes runtime w slot := by
  rw [SoloDecoding.guardTakes, SoloDecoding.guardTakes, alike.durableGuard]

theorem Alike.bothAsked : Alike (bothAsked runtime w slot) (SoloDecoding.bothAsked runtime w' slot) := by
  have passed : Alike (windowPassed w slot) (windowPassed w' slot) :=
    (Alike.windowAsked alike slot).change (fun v => { v with checked := v.checked ++ [slot] }) (fun _ => rfl)
      fun _ => ⟨rfl, rfl, rfl, rfl⟩
  simp only [SoloDecoding.bothAsked, guardAsked, passed.durableGuard]
  split
  · exact passed
  · rename_i durable _
    exact passed.change (fun v => { v with durableReplay := some (guardAnswer runtime slot durable).2 }) (fun _ => rfl)
      fun _ => ⟨rfl, rfl, rfl, rfl⟩

theorem Alike.passes (passes : senderRefusal runtime w slot = none) : senderRefusal runtime w' slot = none := by
  obtain ⟨takes, grants, trusted⟩ := senderRefusal_none passes
  simp [senderRefusal, Alike.windowTakes alike, Alike.guardTakes alike, alike.keyInvalid, takes, grants, trusted]

theorem Alike.refused {reason : DecryptFailure} (refuses : senderRefusal runtime w slot = some (reason, v)) :
    ∃ v', senderRefusal runtime w' slot = some (reason, v') ∧ Alike v v' := by
  rcases senderRefusal_some refuses with ⟨takes, rfl, rfl⟩ | ⟨takes, rfl, ⟨grants, rfl⟩ | ⟨grants, invalid, rfl⟩⟩
  · refine ⟨_, ?_, Alike.windowAsked alike slot⟩
    simp [senderRefusal, Alike.windowTakes alike, takes]
  · refine ⟨_, ?_, Alike.bothAsked alike slot⟩
    simp [senderRefusal, Alike.windowTakes alike, Alike.guardTakes alike, takes, grants]
  · refine ⟨_, ?_, Alike.bothAsked alike slot⟩
    simp [senderRefusal, Alike.windowTakes alike, Alike.guardTakes alike, alike.keyInvalid, takes, grants, invalid]

end Gates
/-! ## Charges -/

theorem signalled_failDecode (w : Worker K G) (vars : HeaderVars) (refused : JsError) :
    Signalled (chargeVars w vars refused) (failDecode w vars refused) := by
  have posted (v : Worker K G) (event : MetricsEvent) (msg : OutMsg) :
      Signalled v ((v.emitMetric event).emit msg) := (signalled_emitMetric v event).trans (signalled_emit _ msg)
  unfold failDecode
  dsimp only
  split
  · exact signalled_emitMetric _ _
  · exact signalled_emitMetric _ _
  · exact signalled_emitMetric _ _
  · exact posted _ _ _

theorem signalled_failDrain (w : Worker K G) (refused : JsError) :
    Signalled (chargeContext w refused) (failDrain w refused) := by
  unfold failDrain
  cases refused with
  | aeadAuth message kid epoch peerIndex ctr => cases epoch <;> cases peerIndex <;> exact signalled_emit _ _
  | _ => exact signalled_emit _ _

/-- Both handlers charge the same sender. -/
def ChargesAlike (w : Worker K G) (vars : HeaderVars) (refused : JsError) : Prop :=
  chargeContext w refused = chargeVars w vars refused

theorem chargesAlike_plain {refused : JsError} (w : Worker K G) (vars : HeaderVars)
    (plain : refused.isAeadFailure = false) (silent : contextOf refused = none) : ChargesAlike w vars refused := by
  unfold ChargesAlike
  rw [chargeVars_plain w vars plain, chargeContext, silent]

theorem chargesAlike_unlimited (unlimited : w.failureTolerance < 0) (vars : HeaderVars) (refused : JsError) :
    ChargesAlike w vars refused := by
  have uncounted (epoch peerIndex : ℤ) : w.recordFailure epoch peerIndex = w := if_pos unlimited
  unfold ChargesAlike chargeContext chargeVars
  rw [uncounted, ite_self]
  split
  · exact uncounted _ _
  · rfl

theorem chargesAlike_named {refused : JsError} (w : Worker K G) {vars : HeaderVars}
    (counted : 0 ≤ vars.epoch ∧ 0 ≤ vars.peerIndex)
    (fails : refused.isAeadFailure = true) (names : contextOf refused = some (vars.epoch, vars.peerIndex)) :
    ChargesAlike w vars refused := by
  unfold ChargesAlike chargeContext chargeVars
  rw [names, if_pos ⟨counted.1, counted.2, fails⟩]

theorem failureCounts_recordFailure (w : Worker K G) (epoch peerIndex : ℤ) :
    (w.recordFailure epoch peerIndex).failureCounts = if w.failureTolerance < 0 then w.failureCounts
      else w.failureCounts.set (epoch, peerIndex) ((w.failureCounts.get? (epoch, peerIndex)).getD 0 + 1) := by
  by_cases unlimited : w.failureTolerance < 0
  · rw [if_pos unlimited, Worker.recordFailure, if_pos unlimited]
  · rw [if_neg unlimited]
    exact (signalled_recordFailure unlimited epoch peerIndex).counts

theorem failureCounts_recordSuccess (w : Worker K G) (epoch peerIndex : ℤ) :
    (w.recordSuccess epoch peerIndex).failureCounts = if w.failureTolerance < 0 then w.failureCounts
      else w.failureCounts.set (epoch, peerIndex) 0 := by
  unfold Worker.recordSuccess
  split <;> rfl

/-- What the account of a key depends on. -/
def accounts (w : Worker K G) : OrderedMap (ℤ × ℤ) ℕ × ℤ := (w.failureCounts, w.failureTolerance)

theorem accounts_of_books {v : Worker K G} (same : books v = books w) : accounts v = accounts w :=
  (congrArg accounts same : accounts (books v) = accounts (books w))

theorem failureCounts_chargeVars {v : Worker K G} (same : accounts v = accounts w) (vars : HeaderVars)
    (refused : JsError) :
    (chargeVars v vars refused).failureCounts = (chargeVars w vars refused).failureCounts := by
  obtain ⟨counts, tolerance⟩ := Prod.mk.inj same
  unfold chargeVars
  split
  · rw [failureCounts_recordFailure, failureCounts_recordFailure, counts, tolerance]
  · exact counts

theorem Alike.chargeVars (alike : Alike w w') (vars : HeaderVars) (refused : JsError) :
    Alike (chargeVars w vars refused) (FailureAccounts.chargeVars w' vars refused) := by
  unfold FailureAccounts.chargeVars
  split
  · exact alike.recordFailure _ _
  · exact alike

/-! ## How a frame ends -/

theorem agrees_of_alike {outcome : Except JsError Path} {live drained : Worker K G} (alike : Alike live drained)
    (counts : drained.failureCounts = live.failureCounts) (fate : drainFate w ref drained = liveFate outcome) :
    Agrees w ref outcome live { drained with draining := false } where
  data := by rw [alike.field (·.frames) fun _ => rfl]
  fate := fate
  entries := alike.entryOf
  windows := alike.field (·.replayWindows) fun _ => rfl
  formats := alike.field (·.formatCache) fun _ => rfl
  failures := counts

/-- Failing leaves a frame undelivered, and the queue as it was. -/
theorem drainFate_failDrain {refused : JsError} (spared : v.delivered = w.delivered) (idle : v.preEpochQueue = []) :
    drainFate w ref (failDrain v refused) = .dropped := by
  have delivered : (failDrain v refused).delivered = v.delivered :=
    (congrArg (·.delivered) (core_failDrain v refused) : (failDrain v refused).core.delivered = v.core.delivered)
  have queue : (failDrain v refused).preEpochQueue = v.preEpochQueue :=
    (congrArg (·.preEpochQueue) (core_failDrain v refused) : (failDrain v refused).core.preEpochQueue = _)
  rw [drainFate, delivered, queue, if_neg (not_not.mpr spared), idle]
  rfl

/-- Both handlers take the same failure. -/
theorem agrees_failed {vars : HeaderVars} {refused : JsError} {live drained : Worker K G} (alike : Alike live drained)
    (same : accounts drained = accounts live) (charges : ChargesAlike drained vars refused)
    (spared : drained.delivered = w.delivered) (idle : drained.preEpochQueue = []) :
    Agrees w ref (.error refused) (failDecode live vars refused)
      { failDrain drained refused with draining := false } := by
  have left := signalled_failDecode live vars refused
  have right := signalled_failDrain drained refused
  rw [charges] at right
  refine agrees_of_alike ((Alike.chargeVars alike vars refused).signal left right) ?_ (drainFate_failDrain spared idle)
  rw [right.counts, left.counts, failureCounts_chargeVars same]

/-! ## Opening -/

theorem openAndAccept_inStep (alike : Alike w w') (ref : Ref) (held : Slot × ℕ) (payload : Bytes) (guess : FormatGuess)
    (probed : Option Probed) :
    InStep Alike (openAndAccept runtime ref held payload guess probed)
      (openAndAccept runtime ref held payload guess probed) w w' := by
  refine inStep_bind (openResolved_inStep _ _ _ _ _ _ _ rfl alike) fun opened _ _ alike => ?_
  exact inStep_bind (acceptFrame_inStep _ _ _ _ _ alike) fun _ _ _ alike => inStep_pure alike opened

/-- Opening a frame does not park any. -/
theorem keeps_unqueued (runtime : Runtime K G) (o : Opening) :
    Keeps runtime (fun w => w.preEpochQueue = []) (fun _ => True) (fun _ => True) o where
  promised unqueued _ _ := unqueued
  advances unqueued _ _ _ := unqueued
  retries {w} unqueued _ _ := by
    unfold Worker.emitMetric
    split
    · exact unqueued
    · exact unqueued
  attempts _ _ _ := trivial
  windowless _ _ _ _ := trivial
  derives _ _ := trivial
  missing _ := trivial
  exhausted _ _ := trivial
  stuck := trivial

theorem openAndAccept_unqueued {held : Slot × ℕ} {payload : Bytes} {guess : FormatGuess} {probed : Option Probed}
    (unqueued : w.preEpochQueue = []) {refused : JsError}
    (ran : alone (openAndAccept runtime ref held payload guess probed) w = some (.error refused, v)) :
    v.preEpochQueue = [] := by
  have opens : Opens (fun w => w.preEpochQueue = []) (fun _ => True)
    (openResolved runtime ref held payload guess probed)
      { point := .start } w w :=
    openResolved_opens (keeps_unqueued runtime _) (fun unqueued => unqueued) ref probed unqueued
  have whole : Meets (solo fun w => w.preEpochQueue = []) (openAndAccept runtime ref held payload guess probed)
      (fun _ _ _ _ => True) (fun _ _ _ w => w.preEpochQueue = []) { point := .start } w w := by
    refine meets_bind.mpr (meets_mono opens (fun at_ start opened w now => ?_) fun _ _ _ _ held => held.1)
    apply meets_bind.mpr
    simp only [acceptFrame, meets_bind, meets_update, meets_pure]
    have accepted : (w.acceptReplay held.1 held.2 ref).preEpochQueue = [] := by
      obtain ⟨windows, same⟩ := Worker.acceptReplay_eq w held.1 held.2 ref
      rw [same]
      exact now
    have accepts : Opens (fun w => w.preEpochQueue = []) (fun _ => True) (durableAccept runtime
        { point := .durableAccept, frame := some ref, payload := some payload } held.1) at_ start _ :=
      durableAccept_opens (fun w => w.preEpochQueue = []) (fun _ _ now => now) _ held.1 accepted
    exact meets_mono accepts (fun _ _ _ _ _ => trivial) fun _ _ _ _ held => held.1
  obtain ⟨_, _, ended⟩ := meets_alone (fun moved => moved) whole ran
  exact ended

/-- What a buffer is refused with that has no room for a tag. -/
def tooShort (hdr : SFrameHeader) : JsError := .aeadAuth "sframe: frame too short for tag" hdr.kid none none hdr.ctr

/-- A tag that does not fit is reported at once when there is no ratchet window, without a sender. -/
theorem openAndAccept_short (windowless : w.ratchetWindowSize = 0) {hdr : SFrameHeader} {payload : Bytes}
    {guess : FormatGuess} (parsed : parseHeader (bufOf payload guess) = .ok hdr)
    (short : (bufOf payload guess).length < hdr.bodyOffset + aeadTagBytes) {slot : Slot} (object : ℕ)
    (cached : (w.cachedKey slot.epoch slot.peerIndex).isSome) :
    alone (openAndAccept runtime ref (slot, object) payload guess none) w =
      some (.error (tooShort hdr), w) := by
  have refused : sframeDecrypt runtime.crypto (bufOf payload guess) (resolveCached w) w.kidCodec
      (aadPrefixOf payload guess.prefixLen) guess.aadForm =
      .error (tooShort hdr) := by
    simp only [sframeDecrypt, parsed, bind, Except.bind, if_pos short]
    rfl
  obtain ⟨key, held⟩ := Option.isSome_iff_exists.mp cached
  obtain ⟨entry, installed, held⟩ := Option.bind_eq_some_iff.mp held
  simp only [openAndAccept, openResolved, tryDecryptWithRatchet, openCached, alone_bind, alone_attempt, alone_read,
    Option.bind_some, Option.map_some, installed, held, alone_pause, refused, alone_settle, windowless, alone_throw,
    ↓reduceIte]

/-! ## The gates -/

theorem plain_of_refusal {refused : JsError} {reason : DecryptFailure} (gate : refusalOf refused = some reason) :
    refused.isAeadFailure = false ∧ contextOf refused = none := by
  cases refused with
  | staleEpoch | replay | keyInvalid => exact ⟨rfl, rfl⟩
  | _ => cases gate

/-- Asking the gates changes nothing but what they answer from. -/
theorem asked_eq (runtime : Runtime K G) (w : Worker K G) (slot : Slot) :
    (∃ windows next, windowAsked w slot = { w with replayWindows := windows, nextWindow := next }) ∧
      ∃ windows next checked durable, bothAsked runtime w slot =
        { w with replayWindows := windows, nextWindow := next, checked := checked, durableReplay := durable } := by
  obtain ⟨windows, next, same⟩ := Worker.getReplayWindow_snd w slot.epoch slot.peerIndex
  refine ⟨⟨windows, next, same⟩, ?_⟩
  simp only [bothAsked, guardAsked, windowPassed, windowAsked, same]
  split
  · exact ⟨windows, next, _, w.durableReplay, rfl⟩
  · exact ⟨windows, next, _, _, rfl⟩

/-- What a refusal leaves alone. -/
structure Unmoved (w v : Worker K G) : Prop where
  delivered : v.delivered = w.delivered
  queue : v.preEpochQueue = w.preEpochQueue
  accounts : accounts v = accounts w

theorem unmoved_of_mute (same : mute v = mute w) : Unmoved w v :=
  ⟨(congrArg (·.delivered) same : (mute v).delivered = _),
    (congrArg (·.preEpochQueue) same : (mute v).preEpochQueue = _),
    (congrArg accounts same : accounts (mute v) = accounts (mute w))⟩

theorem Unmoved.trans {u : Worker K G} (first : Unmoved w v) (second : Unmoved v u) : Unmoved w u :=
  ⟨second.delivered.trans first.delivered, second.queue.trans first.queue, second.accounts.trans first.accounts⟩

theorem unmoved_bothAsked (runtime : Runtime K G) (w : Worker K G) (slot : Slot) :
    Unmoved w (bothAsked runtime w slot) := by
  obtain ⟨windows, next, checked, durable, same⟩ := (asked_eq runtime w slot).2
  rw [same]
  exact ⟨rfl, rfl, rfl⟩

theorem unmoved_refused {slot : Slot} {reason : DecryptFailure}
    (refuses : senderRefusal runtime w slot = some (reason, v)) :
    Unmoved w v := by
  rcases senderRefusal_some refuses with ⟨-, -, rfl⟩ | ⟨-, rfl, -⟩
  · obtain ⟨windows, next, same⟩ := (asked_eq runtime w slot).1
    rw [same]
    exact ⟨rfl, rfl, rfl⟩
  · exact unmoved_bothAsked runtime w slot

/-- A frame that the gates refuse is dropped by both. -/
theorem agrees_refused {vars : HeaderVars} {refused : JsError} {reason : DecryptFailure} {live drained : Worker K G}
    (gate : refusalOf refused = some reason) (alike : Alike live drained) (same : accounts drained = accounts live)
    (spared : drained.delivered = w.delivered) (idle : drained.preEpochQueue = []) :
    Agrees w ref (.error refused) (failDecode live vars refused) { drained with draining := false } := by
  have left := signalled_failDecode live vars refused
  rw [chargeVars_plain live vars (plain_of_refusal gate).1] at left
  refine agrees_of_alike (alike.signal left (signalled_refl _)) ?_ ?_
  · rw [left.counts]
    exact congrArg Prod.fst same
  · rw [drainFate, if_neg (not_not.mpr spared), idle]
    rfl

/-! ## The agreement -/

/-- What the two handlers make of how the gates and the opening have ended. -/
def Handled (w : Worker K G) (ref : Ref) (vars : HeaderVars) (outcome : Except JsError Path) (live : Worker K G)
    (outcome' : Except JsError Unit) (drained : Worker K G) : Prop :=
  match outcome, outcome' with
  | .ok path, .ok () => Agrees w ref (.ok path) live { drained with draining := false }
  | .error refused, .ok () =>
    Agrees w ref (.error refused) (failDecode live vars refused) { drained with draining := false }
  | .error refused, .error refused' =>
    Agrees w ref (.error refused) (failDecode live vars refused) { failDrain drained refused' with draining := false }
  | .ok _, .error _ => False

section Payload
variable {u : Worker K G} {payload : Bytes} {guess : FormatGuess} {probed : Option Probed} {hdr : SFrameHeader}

/-- The accounts of an opened frame are closed alike. -/
theorem accounts_paid {v : Worker K G} {slot : Slot} (opened : books v = books (paid w slot ref)) :
    v.failureCounts = (if w.failureTolerance < 0 then w.failureCounts
      else w.failureCounts.set (slot.epoch, slot.peerIndex) 0) ∧ v.delivered = w.delivered ++ [(slot, ref)] := by
  refine ⟨?_, congrArg (·.delivered) opened⟩
  have counts : v.failureCounts = (w.recordSuccess slot.epoch slot.peerIndex).failureCounts :=
    congrArg (·.failureCounts) opened
  rw [counts, failureCounts_recordSuccess]

/-- Behind the gates both paths run the same opening, and charge for it alike. -/
theorem opening_agrees (alike : Alike w u) (same : accounts u = accounts w) (spared : u.delivered = w.delivered)
    (idle : u.preEpochQueue = []) (parsed : parseHeader (bufOf payload guess) = .ok hdr) {vars : HeaderVars}
    (charged : ∀ refused, Attributed u (bufOf payload guess) ((slotOf w hdr).epoch, (slotOf w hdr).peerIndex) refused →
      ∀ v : Worker K G, accounts v = accounts u → ChargesAlike v vars refused) (object : ℕ) :
    Lockstep (openAndAccept runtime ref (slotOf w hdr, object) payload guess probed)
      (openAndAccept runtime ref (slotOf w hdr, object) payload guess probed)
      (fun outcome live outcome' drained => match outcome, outcome' with
        | .ok opened, .ok _ => ∀ event, Agrees w ref (.ok (.opened guess opened)) (live.emitMetric event)
            { drained with draining := false }
        | .error refused, .error refused' => Agrees w ref (.error refused) (failDecode live vars refused)
            { failDrain drained refused' with draining := false }
        | _, _ => False)
      (bothAsked runtime w (slotOf w hdr)) (bothAsked runtime u (slotOf w hdr)) := by
  have own : slotOf u hdr = slotOf w hdr := Alike.slotOf alike hdr
  have both : InStep Alike (openAndAccept runtime ref (slotOf w hdr, object) payload guess probed) _
      (bothAsked runtime w (slotOf w hdr)) (bothAsked runtime u (slotOf w hdr)) :=
    openAndAccept_inStep (Alike.bothAsked alike (slotOf w hdr)) ref _ payload guess probed
  unfold InStep Lockstep at both
  unfold Lockstep
  rcases ran : alone (openAndAccept runtime ref (slotOf w hdr, object) payload guess probed)
      (bothAsked runtime w (slotOf w hdr)) with _ | ⟨outcome, live⟩ <;>
    rcases ran' : alone (openAndAccept runtime ref (slotOf w hdr, object) payload guess probed)
      (bothAsked runtime u (slotOf w hdr)) with _ | ⟨outcome', drained⟩ <;> simp only [ran, ran'] at both
  · trivial
  · obtain ⟨rfl, now⟩ := both
    obtain ⟨opens, fails⟩ := openAndAccept_ends parsed ran
    have ran' : alone (openAndAccept runtime ref (slotOf u hdr, object) payload guess probed)
        (bothAsked runtime u (slotOf u hdr)) = some (outcome', drained) := by rw [own]; exact ran'
    obtain ⟨opens', fails'⟩ := openAndAccept_ends parsed ran'
    rw [own] at opens' fails'
    cases outcome' with
    | ok opened =>
      intro event
      obtain ⟨counts, -⟩ := accounts_paid (opens opened rfl)
      obtain ⟨counts', delivered⟩ := accounts_paid (opens' opened rfl)
      have posted := signalled_emitMetric live event
      refine agrees_of_alike (now.signal posted (signalled_refl _)) ?_ ?_
      · obtain ⟨accounted, tolerance⟩ := Prod.mk.inj same
        rw [counts', posted.counts, counts, accounted, tolerance]
      · rw [drainFate, delivered, spared, if_pos (by simp)]
        rfl
    | error refused =>
      obtain ⟨kept, -⟩ := fails refused rfl
      obtain ⟨kept', attributed⟩ := fails' refused rfl
      have accounted := accounts_of_books kept'
      refine agrees_failed now ?_ (charged refused attributed drained accounted) ?_ ?_
      · rw [accounted, same, accounts_of_books kept]
      · exact (congrArg (·.delivered) kept' : (books drained).delivered = _).trans spared
      · exact openAndAccept_unqueued ((unmoved_bothAsked runtime u _).queue.trans idle) ran'

/-- Both paths take a frame through the same gates. -/
theorem payload_agrees (alike : Alike w u) (same : accounts u = accounts w) (spared : u.delivered = w.delivered)
    (idle : u.preEpochQueue = []) (parsed : parseHeader (bufOf payload guess) = .ok hdr) {vars : HeaderVars}
    (charged : w.currentMinValidEpoch ≤ (slotOf w hdr).epoch → senderRefusal runtime w (slotOf w hdr) = none →
      ∀ refused, Attributed u (bufOf payload guess) ((slotOf w hdr).epoch, (slotOf w hdr).peerIndex) refused →
        ∀ v : Worker K G, accounts v = accounts u → ChargesAlike v vars refused)
    (current : w.currentEpoch ≠ -1) (cached : (w.cachedKey (slotOf w hdr).epoch (slotOf w hdr).peerIndex).isSome) :
    Lockstep (decodePayload runtime ref payload guess probed hdr) (drainPayload runtime ref payload guess probed hdr)
      (Handled w ref vars) w u := by
  have own : slotOf u hdr = slotOf w hdr := Alike.slotOf alike hdr
  have oldest : u.currentMinValidEpoch = w.currentMinValidEpoch := alike.field (·.currentMinValidEpoch) fun _ => rfl
  unfold Lockstep
  by_cases stale : (slotOf w hdr).epoch < w.currentMinValidEpoch
  · obtain ⟨refused, live, ran, gate, muted⟩ :
      ∃ refused live, alone (decodePayload runtime ref payload guess probed hdr) w =
        some (.error refused, live) ∧ refusalOf refused = some .staleEpoch ∧ mute live = mute w :=
      (decodePayload_stale stale).1
    rw [ran, (drainPayload_stale (by rw [own, oldest]; exact stale)).1]
    have kept := unmoved_of_mute muted
    exact agrees_refused gate (alike.signal (signalled_of_mute muted) (signalled_refl _))
      (same.trans kept.accounts.symm) spared idle
  · obtain ⟨key, held⟩ := Option.isSome_iff_exists.mp cached
    have held' : u.cachedKey (slotOf u hdr).epoch (slotOf u hdr).peerIndex = some key := by
      rw [own, alike.cachedKey, held]
    have live' : ¬ (slotOf u hdr).epoch < u.currentMinValidEpoch := by rw [own, oldest]; exact stale
    cases refuses : senderRefusal runtime w (slotOf w hdr) with
    | some refusal =>
      obtain ⟨reason, v⟩ := refusal
      obtain ⟨v', refuses', now⟩ := Alike.refused alike _ refuses
      obtain ⟨refused, live, ran, gate, muted⟩ : ∃ refused live, alone (decodePayload runtime ref payload guess probed
          hdr) w = some (.error refused, live) ∧ refusalOf refused = some reason ∧ mute live = mute v :=
        (decodePayload_refused stale current refuses).1
      obtain ⟨drained, ran', -, muted'⟩ : ∃ drained, alone (drainPayload runtime ref payload guess probed hdr) u =
          some (.ok (), drained) ∧ Reports reason u drained ∧ mute drained = mute v' :=
        (drainPayload_refused live' held' (by rw [own]; exact refuses')).1
      rw [ran, ran']
      have kept := (unmoved_refused refuses).trans (unmoved_of_mute muted)
      have kept' := (unmoved_refused refuses').trans (unmoved_of_mute muted')
      exact agrees_refused gate (now.signal (signalled_of_mute muted) (signalled_of_mute muted'))
        (kept'.accounts.trans (same.trans kept.accounts.symm)) (kept'.delivered.trans spared) (kept'.queue.trans idle)
    | none =>
      have opening := @opening_agrees _ _ runtime w ref u payload guess probed hdr alike same spared idle parsed vars
        (charged (Int.not_lt.mp stale) refuses) (windowHeld w (slotOf w hdr))
      rw [decodePayload_opens stale current refuses, drainPayload_opens live' held' (by
        rw [own]; exact Alike.passes alike _ refuses), own, Alike.windowHeld alike]
      unfold Lockstep at opening
      rcases ran : alone (openAndAccept runtime ref (slotOf w hdr, windowHeld w (slotOf w hdr)) payload guess probed)
          (bothAsked runtime w (slotOf w hdr)) with _ | ⟨outcome, live⟩ <;>
        rcases ran' : alone (openAndAccept runtime ref (slotOf w hdr, windowHeld w (slotOf w hdr)) payload guess probed)
          (bothAsked runtime u (slotOf w hdr)) with _ | ⟨outcome', drained⟩ <;> simp only [ran, ran'] at opening
      · trivial
      · cases outcome <;> cases outcome' <;> first
          | exact opening.elim
          | exact opening _
          | exact opening

end Payload

/-- A frame whose failure would name its sender fares alike on both paths. -/
theorem drainFrame_agrees {u : Worker K G} (alike : Alike w u) (same : accounts u = accounts w)
    (spared : u.delivered = w.delivered) (idle : u.preEpochQueue = []) {raw : Bytes}
    (own : (w.frames.read ref).data = raw) (plain : sifPayload w.sifTrailer raw = some raw)
    (ready : Ready runtime w ref) (named : ¬ Nameless runtime w ref) :
    Lockstep (decodeFrame runtime ref) (drainFrame runtime ref)
      (fun outcome live _ drained => Agrees w ref outcome live { drained with draining := false }) w u := by
  have own' : (u.frames.read ref).data = raw := by rw [alike.field (·.frames) fun _ => rfl, own]
  have format : formatOf runtime u ref raw = formatOf runtime w ref raw := Alike.formatOf alike ref raw
  have stripped : sifPayload w.sifTrailer (w.frames.read ref).data = some raw := by rw [own, plain]
  unfold Lockstep
  cases parsed : parseHeader (raw.drop (formatOf runtime w ref raw).1.prefixLen) with
  | error refused =>
    obtain ⟨unfailed, silent⟩ := unparsed_plain (parseHeader_throws _ _ parsed)
    rw [alone_decodeFrame_unparsed stripped parsed, alone_drainFrame_unparsed own' (by rw [format]; exact parsed)]
    exact agrees_failed alike same (chargesAlike_plain _ _ unfailed silent) spared idle
  | ok hdr =>
    have cached := ready.keyed raw hdr (.inl own.symm) parsed
    have taken : Lockstep (decodePayload runtime ref raw (formatOf runtime w ref raw).1
      (formatOf runtime w ref raw).2 hdr)
        (drainPayload runtime ref raw (formatOf runtime w ref raw).1 (formatOf runtime w ref raw).2 hdr)
        (Handled (noted w ref hdr) ref (countedVars w (formatOf runtime w ref raw).2 hdr)) (noted w ref hdr) u := by
      refine payload_agrees (alike.signal ⟨rfl, rfl, rfl, rfl⟩ (signalled_refl _) : Alike (noted w ref hdr) u) same
        spared
        idle parsed ?_ ready.current cached
      rintro live passes refused ⟨fails, silent⟩ v counted
      rw [countedVars_eq parsed]
      cases failed : refused.isAeadFailure with
      | false => exact chargesAlike_plain v _ failed (silent failed)
      | true =>
        rcases fails failed with names | ⟨windowless, other, parsedOther, short⟩
        · exact chargesAlike_named v ⟨decode_epoch_nonneg w.kidCodec hdr.kid,
            decode_peerIndex_nonneg w.kidCodec hdr.kid⟩
            failed names
        · -- the drain does not know whose failure it is, so there must be nothing to count
          have tolerance : v.failureTolerance = w.failureTolerance := congrArg Prod.snd (counted.trans same)
          have size : u.ratchetWindowSize = w.ratchetWindowSize := alike.field (·.ratchetWindowSize) fun _ => rfl
          refine chargesAlike_unlimited ?_ _ refused
          rw [tolerance]
          by_contra tolerates
          refine named ⟨Int.not_lt.mp tolerates, size.symm.trans windowless, ?_⟩
          rw [own]
          obtain rfl := Except.ok.inj (parsed.symm.trans parsedOther)
          have unnoted : Alike (noted w ref hdr) w := ⟨rfl, .inl rfl, .inl ⟨rfl, rfl⟩⟩
          exact ⟨hdr, parsed, short, live, cached, Alike.passes unnoted _ passes⟩
    rw [alone_decodeFrame stripped parsed, alone_drainFrame own' (by rw [format]; exact parsed), format]
    unfold Lockstep at taken
    rcases ran : alone (decodePayload runtime ref raw (formatOf runtime w ref raw).1 (formatOf runtime w ref raw).2 hdr)
        (noted w ref hdr) with _ | ⟨outcome, live⟩ <;>
      rcases ran' : alone (drainPayload runtime ref raw (formatOf runtime w ref raw).1
        (formatOf runtime w ref raw).2 hdr)
        u with _ | ⟨outcome', drained⟩ <;> simp only [ran, ran'] at taken
    · trivial
    · have unnoted {outcome : Except JsError Path} {live drained : Worker K G}
          (agrees : Agrees (noted w ref hdr) ref outcome live drained) : Agrees w ref outcome live drained :=
        ⟨agrees.data, agrees.fate, agrees.entries, agrees.windows, agrees.formats, agrees.failures⟩
      cases outcome with
      | ok path =>
        cases outcome' with
        | ok done => exact unnoted taken
        | error refused => exact taken.elim
      | error refused =>
        cases outcome' with
        | ok done => exact unnoted taken
        | error refused => exact unnoted taken

theorem alongside_named (patient : 0 < runtime.patience)
    (plain : sifPayload w.sifTrailer (w.frames.read ref).data = some (w.frames.read ref).data)
    (ready : Ready runtime w ref) (named : ¬ Nameless runtime w ref) : Alongside runtime w ref := by
  refine lockstep_compute (fun _ => .ok ()) (fun v : Worker K G => { v with draining := false })
    (alone_drainQueued patient w ref) ?_
  exact drainFrame_agrees ⟨rfl, .inl rfl, .inl ⟨rfl, rfl⟩⟩ rfl rfl rfl rfl plain ready named

/-- What a probe has opened has room for a tag. -/
theorem firstOpened_fits {payload : Bytes} {candidates : List FormatGuess} {found : Probed}
    (opened : firstOpened runtime w payload candidates = some found) {hdr : SFrameHeader}
    (parsed : parseHeader (bufOf payload found.guess) = .ok hdr) :
    hdr.bodyOffset + aeadTagBytes ≤ (bufOf payload found.guess).length := by
  induction candidates with
  | nil => cases opened
  | cons guess rest ih =>
    unfold firstOpened at opened
    split at opened
    · rename_i other epoch peerIndex plaintext attempted
      obtain rfl := Option.some.inj opened
      unfold probeAttempt at attempted
      dsimp only at attempted parsed
      rw [parsed] at attempted
      dsimp only at attempted
      split at attempted
      · cases attempted
      · rename_i fits
        exact Nat.not_lt.mp fits
    · exact ih opened

/-- A format that a short payload is taken for was not found by opening it. -/
theorem formatOf_short {raw : Bytes} {hdr : SFrameHeader}
    (parsed : parseHeader (bufOf raw (formatOf runtime w ref raw).1) = .ok hdr)
    (short : (bufOf raw (formatOf runtime w ref raw).1).length < hdr.bodyOffset + aeadTagBytes) :
    (formatOf runtime w ref raw).2 = none := by
  unfold formatOf resolution at parsed short ⊢
  split
  · rfl
  · rename_i uncached
    rw [uncached] at parsed short
    dsimp only at parsed short
    split
    · rename_i found opened
      rw [opened] at parsed short
      exact absurd (firstOpened_fits opened parsed) (Nat.not_le.mpr short)
    · rfl

section Short
variable {raw : Bytes} {guess : FormatGuess} {hdr : SFrameHeader} (windowless : w.ratchetWindowSize = 0)
  (parsed : parseHeader (bufOf raw guess) = .ok hdr)
  (short : (bufOf raw guess).length < hdr.bodyOffset + aeadTagBytes)
  (live : w.currentMinValidEpoch ≤ (slotOf w hdr).epoch)
  (cached : (w.cachedKey (slotOf w hdr).epoch (slotOf w hdr).peerIndex).isSome)
  (passes : senderRefusal runtime w (slotOf w hdr) = none)

include windowless parsed short cached in
theorem openAndAccept_asked (object : ℕ) :
    alone (openAndAccept runtime ref (slotOf w hdr, object) raw guess none) (bothAsked runtime w (slotOf w hdr)) =
      some (.error (tooShort hdr), bothAsked runtime w (slotOf w hdr)) := by
  obtain ⟨windows, next, checked, durable, same⟩ := (asked_eq runtime w (slotOf w hdr)).2
  refine openAndAccept_short ?_ parsed short object ?_
  · rw [same]
    exact windowless
  · rw [same]
    exact cached

include windowless parsed short live cached passes

theorem decodePayload_short (current : w.currentEpoch ≠ -1) : alone (decodePayload runtime ref raw guess none hdr) w =
    some (.error (tooShort hdr), bothAsked runtime w (slotOf w hdr)) := by
  rw [decodePayload_opens (Int.not_lt.mpr live) current passes, openAndAccept_asked windowless parsed short cached]
  rfl

theorem drainPayload_short : alone (drainPayload runtime ref raw guess none hdr) w =
    some (.error (tooShort hdr), bothAsked runtime w (slotOf w hdr)) := by
  obtain ⟨key, held⟩ := Option.isSome_iff_exists.mp cached
  rw [drainPayload_opens (Int.not_lt.mpr live) held passes, openAndAccept_asked windowless parsed short cached]
  rfl

end Short

/-- **A failure that names nobody** is counted on the live path only. -/
theorem not_alongside_nameless (patient : 0 < runtime.patience)
    (plain : sifPayload w.sifTrailer (w.frames.read ref).data = some (w.frames.read ref).data)
    (current : w.currentEpoch ≠ -1) (nameless : Nameless runtime w ref) : ¬ Alongside runtime w ref := by
  obtain ⟨tolerates, windowless, hdr, parsed, short, live, cached, passes⟩ := nameless
  intro agree
  have unprobed := formatOf_short parsed short
  have noting : Alike w (noted w ref hdr) := ⟨rfl, .inl rfl, .inl ⟨rfl, rfl⟩⟩
  have taking : Alike w (taken (queued w ref)) := ⟨rfl, .inl rfl, .inl ⟨rfl, rfl⟩⟩
  have format : formatOf runtime (taken (queued w ref)) ref (w.frames.read ref).data = _ := Alike.formatOf taking ref _
  have drained : alone (drainFrame runtime ref) (taken (queued w ref)) =
      some (.ok (), failDrain (bothAsked runtime (taken (queued w ref)) (slotOf w hdr)) (tooShort hdr)) := by
    have ends : alone (drainPayload runtime ref (w.frames.read ref).data
      (formatOf runtime w ref (w.frames.read ref).data).1
        none hdr) (taken (queued w ref)) = _ :=
      drainPayload_short windowless parsed short live cached (Alike.passes taking _ passes)
    have whole := @alone_drainFrame _ _ runtime (taken (queued w ref)) hdr ref _ rfl
      (by rw [show (taken (queued w ref)).frames = w.frames from rfl, format]; exact parsed)
    rw [whole, show (taken (queued w ref)).frames = w.frames from rfl, format, unprobed, ends]
    rfl
  have decoded : alone (decodePayload runtime ref (w.frames.read ref).data
    (formatOf runtime w ref (w.frames.read ref).data).1
      none hdr) (noted w ref hdr) = some (.error (tooShort hdr), bothAsked runtime (noted w ref hdr) (slotOf w hdr)) :=
    decodePayload_short windowless parsed short live cached (Alike.passes noting _ passes) current
  unfold Alongside Lockstep at agree
  rw [alone_decodeFrame plain parsed, alone_drainQueued patient, drained, unprobed, decoded] at agree
  have counts : (failDrain (bothAsked runtime (taken (queued w ref)) (slotOf w hdr)) (tooShort hdr)).failureCounts =
      (failDecode (bothAsked runtime (noted w ref hdr) (slotOf w hdr))
        (countedVars w none hdr) (tooShort hdr)).failureCounts :=
    agree.failures
  have spared := (unmoved_bothAsked runtime (taken (queued w ref)) (slotOf w hdr)).accounts
  have charged := (unmoved_bothAsked runtime (noted w ref hdr) (slotOf w hdr)).accounts
  obtain ⟨left, -⟩ := Prod.mk.inj spared
  obtain ⟨right, tolerance⟩ := Prod.mk.inj charged
  rw [(signalled_failDrain _ _).counts, (signalled_failDecode _ _ _).counts, chargeContext, chargeVars,
    if_pos ⟨decode_epoch_nonneg w.kidCodec hdr.kid, decode_peerIndex_nonneg w.kidCodec hdr.kid, rfl⟩,
    failureCounts_recordFailure, if_neg (by rw [tolerance]; exact Int.not_lt.mpr tolerates), right] at counts
  have raised := congrArg (fun table => (table.get? ((slotOf w hdr).epoch, (slotOf w hdr).peerIndex)).getD 0)
    (left.symm.trans counts)
  rw [OrderedMap.get?_set] at raised
  simp [taken, queued, noted, countedVars] at raised

/-- Without a trailer to strip, the two paths agree on a frame exactly when the failure that
it may end in names its sender. -/
theorem alongside_iff (patient : 0 < runtime.patience)
    (plain : sifPayload w.sifTrailer (w.frames.read ref).data = some (w.frames.read ref).data)
    (ready : Ready runtime w ref) : Alongside runtime w ref ↔ ¬ Nameless runtime w ref :=
  ⟨fun agree nameless => not_alongside_nameless patient plain ready.current nameless agree,
    fun named => alongside_named patient plain ready named⟩

/-- A drain passes no frame through. -/
theorem not_alongside_unstripped (untrailed : sifPayload w.sifTrailer (w.frames.read ref).data = none) :
    ¬ Alongside runtime w ref := by
  intro agree
  have passes : alone (decodeFrame runtime ref) w = some (.ok .passedThrough, w) := by
    simp only [decodeFrame, alone_bind, alone_read, Option.bind_some, untrailed, alone_pure]
  unfold Alongside Lockstep at agree
  rw [passes] at agree
  cases drained : alone (drainPreEpochQueue runtime) (queued w ref) with
  | none => simp only [drained] at agree
  | some result =>
    rw [drained] at agree
    have fate : drainFate w ref result.2 = .passedThrough := agree.fate
    unfold drainFate at fate
    split at fate
    · cases fate
    · split at fate
      · cases fate
      · cases fate

/-- A frame whose bytes come out differently has not fared alike. -/
theorem not_alongside_apart {opened left : Bytes}
    (decoded : (alone (decodeFrame runtime ref) w).map (fun result => (result.2.frames.read ref).data) = some opened)
    (drained : (alone (drainPreEpochQueue runtime) (queued w ref)).map (fun result => (result.2.frames.read ref).data) =
      some left) (apart : left ≠ opened) : ¬ Alongside runtime w ref := by
  intro agree
  obtain ⟨⟨outcome, live⟩, lived, rfl⟩ := Option.map_eq_some_iff.mp decoded
  obtain ⟨⟨outcome', last⟩, ended, rfl⟩ := Option.map_eq_some_iff.mp drained
  unfold Alongside Lockstep at agree
  rw [lived, ended] at agree
  exact apart agree.data

end Frame

/-! ## Configurations -/

/-- What the embedding application configures of decoding. -/
structure Settings where
  codec : Option Codec
  sifTrailer : Option Bytes
  ratchetWindowSize : ℕ
  replayWindowSize : ℕ
  failureTolerance : ℤ

def Configured (settings : Settings) (w : Worker K G) : Prop :=
  w.codec = settings.codec ∧ w.sifTrailer = settings.sifTrailer ∧ w.ratchetWindowSize = settings.ratchetWindowSize ∧
    w.replayWindowSize = settings.replayWindowSize ∧ w.failureTolerance = settings.failureTolerance

/-- A worker under some settings, with one key installed and one frame. -/
def furnished (settings : Settings) (key : RatchetKey K) (frame : EncodedFrame) : Worker K G :=
  { (Worker.createWorkerState : Worker K G) with
    codec := settings.codec, sifTrailer := settings.sifTrailer
    ratchetWindowSize := settings.ratchetWindowSize, replayWindowSize := settings.replayWindowSize
    failureTolerance := settings.failureTolerance
    currentEpoch := 0, epochs := (∅ : OrderedMap ℤ Ref).set 0 0
    entries := Heap.alloc default
      { epoch := 0, selfPeerIndex := 0, keys := (∅ : OrderedMap ℤ (RatchetKey K)).set 0 key, ratchetSteps := ∅ }
    frames := Heap.alloc default frame }

/-- Clear bytes for a codec, and a header with nothing behind it. -/
def bareFrame (codec : Option Codec) (ctr : UInt8) : EncodedFrame :=
  { data := List.replicate (getUnencryptedBytes codec none) 0 ++ [ctr] }

section Settings
variable {settings : Settings} {key : RatchetKey K}

theorem configured_furnished (frame : EncodedFrame) : Configured settings (furnished settings key frame : Worker K G) :=
  ⟨rfl, rfl, rfl, rfl, rfl⟩

theorem cachedKey_furnished (frame : EncodedFrame) :
    (furnished settings key frame : Worker K G).cachedKey 0 0 = some key := by
  have first : (default : Heap (EpochEntry K)).next = 0 := rfl
  simp [Worker.cachedKey, furnished, OrderedMap.get?_set, first]

theorem firstOpened_tagless {w : Worker K G} {payload : Bytes} (tagless : payload.length < aeadTagBytes)
    (candidates : List FormatGuess) : firstOpened runtime w payload candidates = none := by
  have nothing (guess : FormatGuess) : probeAttempt runtime w payload guess = none := by
    unfold probeAttempt
    dsimp only
    split
    · rfl
    · rw [if_pos]
      rw [List.length_drop]
      simp only [aeadTagBytes] at tagless
      omega
  induction candidates with
  | nil => rfl
  | cons guess rest ih => rw [firstOpened, nothing]; exact ih

/-- A payload without room for a tag is taken for the configured format. -/
theorem formatOf_tagless {w : Worker K G} {ref : Ref} {payload : Bytes} (uncached : w.formatCache = ∅)
    (tagless : payload.length < aeadTagBytes) :
    formatOf runtime w ref payload = (⟨codecPrefix payload w.codec (w.frames.read ref).kind, .header⟩, none) := by
  have cached (codecN : ℕ) : cachedFormat w payload codecN = none := by
    unfold cachedFormat Worker.getFormatCache
    rw [uncached]
    split
    · split
      · rfl
      · rfl
    · rfl
  rw [formatOf, resolution, cached, firstOpened_tagless tagless]

theorem getUnencryptedBytes_le (codec : Option Codec) : getUnencryptedBytes codec none ≤ 3 := by
  rcases codec with _ | (_ | _ | _ | _ | _) <;> decide

theorem bufOf_bareFrame (ctr : UInt8) :
    bufOf (bareFrame settings.codec ctr).data (formatOf runtime (furnished settings key (bareFrame settings.codec ctr) :
      Worker K G) 0 (bareFrame settings.codec ctr).data).1 = [ctr] := by
  have bound := getUnencryptedBytes_le settings.codec
  have length : (bareFrame settings.codec ctr).data.length = getUnencryptedBytes settings.codec none + 1 := by
    simp [bareFrame]
  rw [formatOf_tagless rfl (by rw [length, aeadTagBytes]; omega)]
  have whole : codecPrefix (bareFrame settings.codec ctr).data settings.codec none =
    getUnencryptedBytes settings.codec none := by
    rw [codecPrefix, length]
    omega
  change (bareFrame settings.codec ctr).data.drop
    (codecPrefix (bareFrame settings.codec ctr).data settings.codec none) = [ctr]
  rw [whole, bareFrame]
  simp

/-- One byte that names epoch 0, peer 0 and a counter below 8. -/
theorem parseHeader_byte {ctr : UInt8} (small : ctr = 3 ∨ ctr = 4) :
    parseHeader [ctr] = .ok { kid := 0, ctr := ctr.toNat, bodyOffset := 1 } := by
  rcases small with rfl | rfl <;> rfl

theorem ready_furnished {ctr : UInt8} (small : ctr = 3 ∨ ctr = 4)
    (unstripped : ∀ payload, sifPayload settings.sifTrailer (bareFrame settings.codec ctr).data = some payload →
      payload = (bareFrame settings.codec ctr).data) :
    Ready runtime (furnished settings key (bareFrame settings.codec ctr) : Worker K G) 0 where
  current := (by decide : (0 : ℤ) ≠ -1)
  keyed := by
    intro payload hdr found parsed
    have whole : payload = (bareFrame settings.codec ctr).data := found.elim id (unstripped payload)
    subst whole
    have reads : parseHeader (bufOf (bareFrame settings.codec ctr).data (formatOf runtime (furnished settings key
        (bareFrame settings.codec ctr) : Worker K G) 0 (bareFrame settings.codec ctr).data).1) = _ :=
      (congrArg parseHeader (bufOf_bareFrame ctr)).trans (parseHeader_byte small)
    obtain rfl := Except.ok.inj (reads.symm.trans parsed)
    have sender : slotOf (furnished settings key (bareFrame settings.codec ctr) : Worker K G)
        { kid := 0, ctr := ctr.toNat, bodyOffset := 1 } = ⟨0, 0, ctr.toNat⟩ := by
      have fields : Kid.KidCodec.fixed.decode 0 = (0, 0) := by decide
      exact congrArg (fun sender : ℤ × ℤ => (⟨sender.1, sender.2, ctr.toNat⟩ : Slot)) fields
    rw [sender]
    exact Option.isSome_iff_exists.mpr ⟨key, cachedKey_furnished _⟩

theorem nameless_furnished (windowless : settings.ratchetWindowSize = 0) (tolerates : 0 ≤ settings.failureTolerance) :
    Nameless runtime (furnished settings key (bareFrame settings.codec 3) : Worker K G) 0 := by
  refine ⟨tolerates, windowless, { kid := 0, ctr := 3, bodyOffset := 1 }, ?_, ?_, ?_, rfl, ?_⟩
  · exact (congrArg parseHeader (bufOf_bareFrame 3)).trans (parseHeader_byte (.inl rfl))
  · exact lt_of_eq_of_lt (congrArg List.length (bufOf_bareFrame 3)) (by decide)
  · exact le_refl (0 : ℤ)
  · refine senderRefusal_passes ?_ Bool.noConfusion ?_
    · have fresh : Replay.SlidingReplayWindow.check { windowSize := settings.replayWindowSize } 3 = true := by
        simp [Replay.SlidingReplayWindow.check, Replay.SlidingReplayWindow.scan]
      exact fun refused => Bool.noConfusion (fresh.symm.trans refused)
    · have trusted : ¬ ((0 : ℕ) : ℤ) > settings.failureTolerance := by omega
      have spared : (furnished settings key (bareFrame settings.codec 3) : Worker K G).isKeyInvalid 0 0 = false :=
        (if_neg (Int.not_lt.mpr tolerates)).trans (decide_eq_false trusted)
      exact fun invalid => Bool.noConfusion (spared.symm.trans invalid)

/-- A frame that does not end as a trailer does is not stripped of it. -/
theorem sifPayload_bareFrame {trailer : Bytes} {ctr : UInt8} (given : settings.sifTrailer = some trailer)
    (ends : trailer ≠ []) (other : ctr ≠ trailer.getLast ends) :
    sifPayload settings.sifTrailer (bareFrame settings.codec ctr).data = none := by
  rw [given, sifPayload, if_neg]
  intro trailed
  have same := (ctEndsWith_iff.mp trailed).getLast ends
  simp only [bareFrame, List.getLast_concat] at same
  exact other same.symm

theorem sifPayload_bare (bare : settings.sifTrailer.getD [] = []) (raw : Bytes) :
    sifPayload settings.sifTrailer raw = some raw := by
  unfold sifPayload
  split
  · rfl
  · rename_i trailer given
    obtain rfl : trailer = [] := by simpa [given] using bare
    rw [if_pos (ctEndsWith_iff.mpr List.nil_suffix)]
    simp

end Settings

/-- **The drain agrees with the live path** in every state and on every frame whose sender has
a key, under the settings without a trailer that count no failure or have a ratchet window,
and under no others. -/
theorem drain_agrees_iff [Nonempty K] (patient : 0 < runtime.patience) (settings : Settings) :
    (∀ (w : Worker K G) ref, Configured settings w → Ready runtime w ref → Alongside runtime w ref) ↔
      settings.sifTrailer.getD [] = [] ∧ (0 < settings.ratchetWindowSize ∨ settings.failureTolerance < 0) := by
  constructor
  · intro agrees
    obtain ⟨cryptoKey⟩ := ‹Nonempty K›
    let key : RatchetKey K := { kid := 0, epoch := 0, peerIndex := 0, cryptoKey, salt := [], rawKey := [] }
    have bare : settings.sifTrailer.getD [] = [] := by
      by_contra trailed
      obtain ⟨trailer, given⟩ : ∃ trailer, settings.sifTrailer = some trailer :=
        Option.ne_none_iff_exists'.mp fun untrailed => trailed (by rw [untrailed]; rfl)
      have ends : trailer ≠ [] := fun empty => trailed (by rw [given, empty]; rfl)
      obtain ⟨ctr, small, other⟩ : ∃ ctr : UInt8, (ctr = 3 ∨ ctr = 4) ∧ ctr ≠ trailer.getLast ends := by
        by_cases last : (3 : UInt8) = trailer.getLast ends
        · exact ⟨4, .inr rfl, last ▸ by decide⟩
        · exact ⟨3, .inl rfl, last⟩
      have untrailed := sifPayload_bareFrame given ends other
      exact not_alongside_unstripped untrailed (agrees (furnished settings key _) 0 (configured_furnished _)
        (ready_furnished small fun payload same => absurd (untrailed.symm.trans same) nofun))
    refine ⟨bare, ?_⟩
    by_contra never
    push Not at never
    obtain ⟨windowless, tolerates⟩ := never
    refine not_alongside_nameless patient (sifPayload_bare bare _) (by decide : (0 : ℤ) ≠ -1)
      (nameless_furnished (Nat.le_zero.mp windowless) tolerates)
      (agrees (furnished settings key _) 0 (configured_furnished _) (ready_furnished (.inl rfl) ?_))
    exact fun payload same => (Option.some.inj ((sifPayload_bare bare _).symm.trans same)).symm
  · rintro ⟨bare, counting⟩ w ref ⟨-, trailer, window, -, tolerance⟩ ready
    apply alongside_named patient (by rw [trailer, sifPayload_bare bare]) ready
    rintro ⟨tolerates, windowless, -⟩
    rw [window] at windowless
    rw [tolerance] at tolerates
    omega

section Checked
open Specimen (installed keyOf sealedBy)

def AgreesUnder (settings : Settings) : Prop :=
  ∀ (w : Worker Bytes Unit) ref, Configured settings w → Ready Specimen.runtime w ref → Alongside Specimen.runtime w ref

/-- The defaults, a window with a count, a count without a window, and a trailer. -/
theorem drain_agrees_iff_configured :
    AgreesUnder ⟨none, none, 8, 64, -1⟩ ∧ AgreesUnder ⟨some .vp8, some [], 2, 16, 3⟩ ∧
      ¬ AgreesUnder ⟨some .opus, none, 0, 64, 3⟩ ∧ ¬ AgreesUnder ⟨none, some [9, 9], 8, 64, -1⟩ := by
  have patient : 0 < Specimen.runtime.patience := by decide
  exact ⟨(drain_agrees_iff patient _).mpr (by decide), (drain_agrees_iff patient _).mpr (by decide),
    fun agrees => absurd ((drain_agrees_iff patient _).mp agrees) (by decide),
    fun agrees => absurd ((drain_agrees_iff patient _).mp agrees) (by decide)⟩

/-- A worker under a trailer, and an authentic frame that carries it. -/
def trailed : Worker Bytes Unit :=
  { installed 0 0 [7] with
    sifTrailer := some [9, 9]
    frames := Heap.alloc default { data := sealedBy (keyOf 0 0 7) 3 [1, 2, 3] ++ [9, 9] } }

/-- The sender that a payload is taken to name has a key. -/
def keyedAt (payload : Bytes) : Bool :=
  match parseHeader (payload.drop (formatOf Specimen.runtime trailed 0 payload).1.prefixLen) with
  | .error _ => true
  | .ok hdr => (trailed.cachedKey (slotOf trailed hdr).epoch (slotOf trailed hdr).peerIndex).isSome

theorem ready_trailed : Ready Specimen.runtime trailed 0 where
  current := by decide +kernel
  keyed := by
    intro payload hdr found parsed
    have whole : keyedAt (trailed.frames.read 0).data = true := by decide +kernel
    have stripped : sifPayload trailed.sifTrailer (trailed.frames.read 0).data = some
      (sealedBy (keyOf 0 0 7) 3 [1, 2, 3]) ∧
        keyedAt (sealedBy (keyOf 0 0 7) 3 [1, 2, 3]) = true := by decide +kernel
    have keyed : keyedAt payload = true := by
      rcases found with rfl | found
      · exact whole
      · obtain rfl := Option.some.inj (stripped.1.symm.trans found)
        exact stripped.2
    rw [keyedAt, parsed] at keyed
    exact keyed

theorem not_alongside_trailed : ¬ Alongside Specimen.runtime trailed 0 := by
  have decoded : (alone (decodeFrame Specimen.runtime 0) trailed).map (fun result => (result.2.frames.read 0).data) =
      some [1, 2, 3] := by decide +kernel
  have drained : (alone (drainPreEpochQueue Specimen.runtime) (queued trailed 0)).map
      (fun result => (result.2.frames.read 0).data) = some (sealedBy (keyOf 0 0 7) 3 [1, 2, 3] ++ [9, 9]) := by
    decide +kernel
  have apart : sealedBy (keyOf 0 0 7) 3 [1, 2, 3] ++ [9, 9] ≠ [1, 2, 3] := by decide +kernel
  exact not_alongside_apart decoded drained apart

/-- A drain leaves the trailer on, and so drops a frame that the live path opens. -/
theorem trailer_left_on : ¬ ∀ (w : Worker Bytes Unit) ref, Ready Specimen.runtime w ref →
    Alongside Specimen.runtime w ref := by
  simp only [not_forall]
  exact ⟨trailed, 0, ready_trailed, not_alongside_trailed⟩

end Checked
end SFrameRatchet.DrainAgreement
