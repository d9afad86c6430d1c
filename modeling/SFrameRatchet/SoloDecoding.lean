import SFrameRatchet.WorkerFrame

/-! A frame decoded with no other call in between: the format its payload is
taken for, the verdict of the gates, and the state in which it is opened. The
live path and the drain differ in a few branches; what each does up to the
opening is one equation here, and the opening itself is the same program. -/
namespace SFrameRatchet.SoloDecoding
open Collections Crypto Kid Header SFrame CodecPartial Throwing Coroutine Media

variable {K G : Type} (runtime : Runtime K G)

/-! ## Formats -/

/-- The first candidate that opens, with what it opens to. -/
def firstOpened (w : Worker K G) (payload : Bytes) : List FormatGuess → Option Probed
  | [] => none
  | guess :: rest =>
    match probeAttempt runtime w payload guess with
    | some (hdr, epoch, peerIndex, .ok plaintext) =>
      some { guess, plaintext, kid := hdr.kid, epoch, peerIndex, ctr := hdr.ctr }
    | _ => firstOpened w payload rest

/-- The number of clear bytes that the configured codec leaves in a payload. -/
def codecPrefix (payload : Bytes) (codec : Option Codec) (frameKind : Option FrameKind) : ℕ :=
  min (getUnencryptedBytes codec frameKind) payload.length

/-- The format a payload is taken for, and the opening when a probe found it. -/
def resolution (w : Worker K G) (payload : Bytes) (codec : Option Codec) (frameKind : Option FrameKind) :
    FormatGuess × Option Probed :=
  match cachedFormat w payload (codecPrefix payload codec frameKind) with
  | some cached => (cached, none)
  | none =>
    match firstOpened runtime w payload (formatCandidates codec frameKind) with
    | some found => (found.guess, some found)
    | none => (⟨codecPrefix payload codec frameKind, .header⟩, none)

/-- The probe has something to open: the sender's format is not cached, and some
candidate names a key that is installed and leaves room for a tag. -/
def Probes (w : Worker K G) (payload : Bytes) (codec : Option Codec) (frameKind : Option FrameKind) : Prop :=
  cachedFormat w payload (codecPrefix payload codec frameKind) = none ∧
    ∃ guess ∈ formatCandidates codec frameKind, (probeAttempt runtime w payload guess).isSome

/-- A site at which a caller awaits `sframeDecrypt`: one AEAD attempt. -/
def AeadAttempt (site : AwaitPoint) : Prop :=
  match site.point with
  | .probe | .ratchet .stepZero | .ratchet (.retry ..) | .ratchet (.opening _) => True
  | _ => False

variable {runtime} (w : Worker K G) (ref : Ref) (payload : Bytes) (codec : Option Codec)
  (frameKind : Option FrameKind)

theorem alone_probeFormat (candidates : List FormatGuess) :
    alone (probeFormat runtime ref payload candidates) w =
      some (.ok (firstOpened runtime w payload candidates), w) := by
  induction candidates with
  | nil => rfl
  | cons guess rest ih =>
    simp only [probeFormat, alone_bind, alone_read, Option.bind_some, firstOpened]
    rcases probeAttempt runtime w payload guess with _ | ⟨hdr, epoch, peerIndex, _ | plaintext⟩
    · exact ih
    · simpa only [alone_bind, alone_pause, Option.bind_some] using ih
    · rfl

theorem visits_probeFormat (candidates : List FormatGuess) :
    (∃ site ∈ visits (probeFormat runtime ref payload candidates) w, AeadAttempt site) ↔
      ∃ guess ∈ candidates, (probeAttempt runtime w payload guess).isSome := by
  induction candidates with
  | nil => simp [probeFormat]
  | cons guess rest ih =>
    simp only [probeFormat, visits_bind, visits_read, alone_read, List.nil_append, List.exists_mem_cons_iff]
    rcases probeAttempt runtime w payload guess with _ | ⟨hdr, epoch, peerIndex, opened⟩
    · simpa using ih
    · simp [AeadAttempt]

theorem alone_resolveFormat : alone (resolveFormat runtime ref payload codec frameKind) w =
    some (.ok (resolution runtime w payload codec frameKind), w) := by
  simp only [resolveFormat, alone_bind, alone_read, Option.bind_some, resolution, codecPrefix]
  cases cachedFormat w payload (min (getUnencryptedBytes codec frameKind) payload.length) with
  | some cached => rfl
  | none =>
    simp only [alone_bind, alone_probeFormat, Option.bind_some, alone_pause]
    cases firstOpened runtime w payload (formatCandidates codec frameKind) <;> rfl

theorem visits_resolveFormat :
    (∃ site ∈ visits (resolveFormat runtime ref payload codec frameKind) w, AeadAttempt site) ↔
      Probes runtime w payload codec frameKind := by
  simp only [resolveFormat, visits_bind, visits_read, alone_read, List.nil_append, Probes, codecPrefix]
  cases cachedFormat w payload (min (getUnencryptedBytes codec frameKind) payload.length) with
  | some cached => simp
  | none =>
    simp only [visits_bind, alone_probeFormat, visits_pause, alone_pause, true_and]
    rw [← visits_probeFormat w ref payload]
    cases firstOpened runtime w payload (formatCandidates codec frameKind)
      <;> simp [AeadAttempt, or_and_right, exists_or]

/-! ## Gates -/

variable (runtime) (slot : Slot)

/-- Whether the replay window of a sender takes a counter. -/
def windowTakes : Bool := (w.getReplayWindow slot.epoch slot.peerIndex).1.window.check slot.ctr

/-- The worker after the window was asked. -/
def windowAsked : Worker K G := (w.getReplayWindow slot.epoch slot.peerIndex).2

/-- The worker after the window has let a counter pass. -/
def windowPassed : Worker K G :=
  { windowAsked w slot with checked := (windowAsked w slot).checked ++ [slot] }

/-- The window object that a frame will be accepted into. -/
def windowHeld : ℕ := (w.getReplayWindow slot.epoch slot.peerIndex).1.id

/-- What the durable guard answers about a counter, and its state then. -/
def guardAnswer (durable : G) : Bool × G :=
  runtime.guard.check durable (Worker.durableReplayKey slot.epoch slot.peerIndex) slot.ctr

/-- Whether the durable guard takes a counter; without a guard every counter is new. -/
def guardTakes : Bool := ((durableGuard runtime w).map fun durable => (guardAnswer runtime slot durable).1).getD true

/-- The worker after the durable guard was asked. -/
def guardAsked : Worker K G :=
  match durableGuard runtime w with
  | none => w
  | some durable => { w with durableReplay := some (guardAnswer runtime slot durable).2 }

/-- The worker in which a frame that passed both checks is opened. -/
def bothAsked : Worker K G := guardAsked runtime (windowPassed w slot) slot

/-- Why a sender's counter is refused, and in which state. -/
def senderRefusal : Option (DecryptFailure × Worker K G) :=
  if windowTakes w slot = false then some (.replay, windowAsked w slot)
  else if guardTakes runtime w slot = false then some (.replay, bothAsked runtime w slot)
  else if w.isKeyInvalid slot.epoch slot.peerIndex then some (.keyInvalid, bothAsked runtime w slot)
  else none

variable {runtime}

theorem alone_checkReplay : alone (checkReplay slot) w =
    if windowTakes w slot then some (.ok (some (windowHeld w slot)), windowPassed w slot)
    else some (.ok none, windowAsked w slot) := by
  cases takes : windowTakes w slot with
  | true =>
    have passes : (w.getReplayWindow slot.epoch slot.peerIndex).1.window.check slot.ctr = true := takes
    simp only [checkReplay, alone_bind, alone_read, Option.bind_some, alone_update, if_pos passes, alone_pure]
    rfl
  | false =>
    have refuses : ¬ (w.getReplayWindow slot.epoch slot.peerIndex).1.window.check slot.ctr = true := by
      rw [show (w.getReplayWindow slot.epoch slot.peerIndex).1.window.check slot.ctr = false from takes]
      simp
    simp only [checkReplay, alone_bind, alone_read, Option.bind_some, alone_update, if_neg refuses, alone_pure]
    rfl

theorem alone_durableCheck (at_ : AwaitPoint) : alone (durableCheck runtime at_ slot) w =
    some (.ok (guardTakes runtime w slot), guardAsked runtime w slot) := by
  simp only [durableCheck, alone_bind, alone_read, Option.bind_some, guardTakes, guardAsked]
  cases durableGuard runtime w <;> rfl

theorem guardTakes_windowPassed : guardTakes runtime (windowPassed w slot) slot = guardTakes runtime w slot := by
  obtain ⟨windows, next, same⟩ := Worker.getReplayWindow_snd w slot.epoch slot.peerIndex
  simp only [windowPassed, windowAsked, same, guardTakes, durableGuard]

theorem isKeyInvalid_bothAsked (runtime : Runtime K G) (w : Worker K G) (slot : Slot) (epoch peerIndex : ℤ) :
    (bothAsked runtime w slot).isKeyInvalid epoch peerIndex = w.isKeyInvalid epoch peerIndex := by
  obtain ⟨windows, next, same⟩ := Worker.getReplayWindow_snd w slot.epoch slot.peerIndex
  simp only [bothAsked, guardAsked, windowPassed, windowAsked, same]
  split <;> rfl

/-- The sender and counter that a header names. -/
def slotOf (hdr : SFrameHeader) : Slot := ⟨(w.kidCodec.decode hdr.kid).1, (w.kidCodec.decode hdr.kid).2, hdr.ctr⟩

/-- A worker without what it has posted to the main thread. -/
def mute : Worker K G := { w with emitted := [] }

/-- The gate that an error of `decodeFrame` names. -/
def refusalOf : JsError → Option DecryptFailure
  | .staleEpoch .. => some .staleEpoch
  | .replay .. => some .replay
  | .keyInvalid .. => some .keyInvalid
  | _ => none

@[simp] theorem mute_emitMetric (event : MetricsEvent) : mute (w.emitMetric event) = mute w := by
  unfold Worker.emitMetric
  split <;> rfl

@[simp] theorem mute_reportReplay (hdr : SFrameHeader) (epoch peerIndex : ℤ) :
    mute (reportReplay w hdr epoch peerIndex) = mute w := by
  simp only [reportReplay, mute_emitMetric]
  rfl

@[simp] theorem mute_reportKeyInvalid (hdr : SFrameHeader) (epoch peerIndex : ℤ) :
    mute (reportKeyInvalid w hdr epoch peerIndex) = mute w := by
  simp only [reportKeyInvalid, mute_emitMetric]
  rfl

/-- The gates of one sender, with what is done behind each. -/
def askSender (runtime : Runtime K G) {α : Type} (slot : Slot) (site : ℕ → AwaitPoint) (replayed : Task K G α)
    (replayedBefore : ℕ → Task K G α) (invalid : ℕ → Worker K G → Task K G α) (opens : ℕ → Task K G α) :
    Task K G α := do
  match ← checkReplay slot with
  | none => replayed
  | some object => do
    if !(← durableCheck runtime (site object) slot) then replayedBefore object
    else do
      let state ← read
      if state.isKeyInvalid slot.epoch slot.peerIndex then invalid object state
      else opens object

theorem alone_askSender {α : Type} (site : ℕ → AwaitPoint) (replayed : Task K G α)
    (replayedBefore : ℕ → Task K G α) (invalid : ℕ → Worker K G → Task K G α) (opens : ℕ → Task K G α) :
    alone (askSender runtime slot site replayed replayedBefore invalid opens) w =
      if windowTakes w slot = false then alone replayed (windowAsked w slot)
      else if guardTakes runtime w slot = false then
        alone (replayedBefore (windowHeld w slot)) (bothAsked runtime w slot)
      else if w.isKeyInvalid slot.epoch slot.peerIndex then
        alone (invalid (windowHeld w slot) (bothAsked runtime w slot)) (bothAsked runtime w slot)
      else alone (opens (windowHeld w slot)) (bothAsked runtime w slot) := by
  simp only [askSender, alone_bind, alone_checkReplay]
  cases windowTakes w slot with
  | false => rfl
  | true =>
    simp only [↓reduceIte, Option.bind_some, alone_bind, alone_durableCheck, guardTakes_windowPassed,
      Bool.true_eq_false]
    cases guardTakes runtime w slot with
    | false => rfl
    | true =>
      have later := isKeyInvalid_bothAsked runtime w slot slot.epoch slot.peerIndex
      rw [bothAsked] at later
      simp only [Bool.not_true, Bool.false_eq_true, ↓reduceIte, alone_bind, alone_read, Option.bind_some, later,
        Bool.true_eq_false]
      cases w.isKeyInvalid slot.epoch slot.peerIndex <;> rfl

theorem visits_askSender {α : Type} {site : ℕ → AwaitPoint} {replayed : Task K G α}
    {replayedBefore : ℕ → Task K G α} {invalid : ℕ → Worker K G → Task K G α} {opens : ℕ → Task K G α}
    (refuses : senderRefusal runtime w slot ≠ none) (asking : ∀ object, ¬ AeadAttempt (site object))
    (first : ∀ v, visits replayed v = []) (second : ∀ object v, visits (replayedBefore object) v = [])
    (third : ∀ object state v, visits (invalid object state) v = []) :
    ∀ visited ∈ visits (askSender runtime slot site replayed replayedBefore invalid opens) w,
      ¬ AeadAttempt visited := by
  have durable (object : ℕ) (v : Worker K G) :
      ∀ visited ∈ visits (durableCheck runtime (site object) slot) v, ¬ AeadAttempt visited := by
    simp only [durableCheck, visits_bind, visits_read, alone_read, List.nil_append]
    cases durableGuard runtime v with
    | none => simp
    | some durable => simpa using asking object
  have window (v : Worker K G) : visits (checkReplay slot) v = [] := by
    simp only [checkReplay, visits_bind, visits_read, alone_read, visits_update, alone_update, List.nil_append]
    split <;> rfl
  have later := isKeyInvalid_bothAsked runtime w slot slot.epoch slot.peerIndex
  rw [bothAsked] at later
  intro visited member
  simp only [askSender, visits_bind, window, alone_checkReplay, List.nil_append] at member
  unfold senderRefusal at refuses
  cases takes : windowTakes w slot with
  | false => simp [takes, first] at member
  | true =>
    simp only [takes, ↓reduceIte, visits_bind, alone_durableCheck, guardTakes_windowPassed,
      List.mem_append] at member
    rcases member with asked | member
    · exact durable _ _ visited asked
    · cases grants : guardTakes runtime w slot with
      | false => simp [grants, second] at member
      | true =>
        simp only [takes, grants, Bool.true_eq_false, ↓reduceIte, ne_eq, ite_eq_right_iff, reduceCtorEq, imp_false,
          Bool.not_eq_true, Bool.not_eq_false] at refuses
        simp [grants, later, refuses, third] at member

/-! ## The two paths -/

/-- What opening a payload in a format works on. -/
def openingOf (payload : Bytes) (guess : FormatGuess) (slot : Slot) : Opening where
  buf := payload.drop guess.prefixLen
  epoch := slot.epoch
  peerIndex := slot.peerIndex
  aadPrefix := aadPrefixOf payload guess.prefixLen
  aadForm := guess.aadForm

/-- What is done with a frame that passed the gates. -/
def openAndAccept (runtime : Runtime K G) (ref : Ref) (held : Slot × ℕ) (payload : Bytes) (guess : FormatGuess)
    (probed : Option Probed) : Task K G Bytes := do
  let opened ← openResolved runtime ref held payload guess probed
  acceptFrame runtime ref held payload guess opened
  return opened

/-- Where a call waits for the durable guard. -/
def guardSite (ref : Ref) (payload : Bytes) (slot : Slot) (object : ℕ) : AwaitPoint :=
  { point := .durableCheck, frame := some ref, payload := some payload, slot := some (slot, object) }

variable {w} {guess : FormatGuess} {probed : Option Probed} {hdr : SFrameHeader} {ref : Ref} {payload : Bytes}

/-- The live path asks about a header of a live epoch, once an epoch is there. -/
theorem decodePayload_asks (runtime : Runtime K G) (ref : Ref) (payload : Bytes) (guess : FormatGuess)
    (probed : Option Probed) (live : ¬ (slotOf w hdr).epoch < w.currentMinValidEpoch) (current : w.currentEpoch ≠ -1)
    {slot : Slot} (own : slotOf w hdr = slot) :
    ∃ (first second third : String),
      let asking := askSender runtime slot (guardSite ref payload slot)
        (do
          update fun state => reportReplay state hdr slot.epoch slot.peerIndex
          throw (.replay first slot.epoch slot.peerIndex hdr.ctr))
        (fun _ => do
          update fun state => reportReplay state hdr slot.epoch slot.peerIndex
          throw (.replay second slot.epoch slot.peerIndex hdr.ctr))
        (fun _ state => do
          update fun state => reportKeyInvalid state hdr slot.epoch slot.peerIndex
          throw (.keyInvalid third slot.epoch slot.peerIndex
            ((state.failureCounts.get? (slot.epoch, slot.peerIndex)).getD 0)))
        (fun object => do
          let opened ← openResolved runtime ref (slot, object) payload guess probed
          acceptFrame runtime ref (slot, object) payload guess opened
          update fun state => state.emitMetric
            (.decrypt slot.epoch slot.peerIndex (guess.prefixLen + opened.length))
          return .opened guess opened)
      alone (decodePayload runtime ref payload guess probed hdr) w = alone asking w ∧
        visits (decodePayload runtime ref payload guess probed hdr) w = visits asking w := by
  refine ⟨s!"sframe: replay detected (epoch={slot.epoch} peer={slot.peerIndex} ctr={hdr.ctr})",
    s!"sframe: durable cross-reload replay detected " ++
      s!"(epoch={slot.epoch} peer={slot.peerIndex} ctr={hdr.ctr})",
    s!"sframe: key invalid for epoch={slot.epoch} peer={slot.peerIndex} " ++ "(failures exceeded tolerance)", ?_⟩
  subst own
  simp only [slotOf] at live
  refine ⟨?_, ?_⟩
  · rw [decodePayload, alone_bind, alone_read]
    simp only [Option.bind_some, if_neg live, if_neg current]
    rfl
  · rw [decodePayload, visits_bind, visits_read, alone_read]
    simp only [List.nil_append, if_neg live, if_neg current]
    rfl

/-- The drain asks about a header of a live epoch whose sender has a key. -/
theorem drainPayload_asks (runtime : Runtime K G) (ref : Ref) (payload : Bytes) (guess : FormatGuess)
    (probed : Option Probed) (live : ¬ (slotOf w hdr).epoch < w.currentMinValidEpoch) {slot : Slot}
    (own : slotOf w hdr = slot) {key : RatchetKey K} (cached : w.cachedKey slot.epoch slot.peerIndex = some key) :
    let asking := askSender runtime slot (guardSite ref payload slot)
      (update fun state => reportReplay state hdr slot.epoch slot.peerIndex)
      (fun _ => update fun state => reportReplay state hdr slot.epoch slot.peerIndex)
      (fun _ _ => update fun state => reportKeyInvalid state hdr slot.epoch slot.peerIndex)
      (fun object => do
        let opened ← openResolved runtime ref (slot, object) payload guess probed
        acceptFrame runtime ref (slot, object) payload guess opened)
    alone (drainPayload runtime ref payload guess probed hdr) w = alone asking w ∧
      visits (drainPayload runtime ref payload guess probed hdr) w = visits asking w := by
  subst own
  simp only [slotOf] at live cached
  refine ⟨?_, ?_⟩
  · rw [drainPayload, alone_bind, alone_read]
    simp only [Option.bind_some, if_neg live, cached]
    rfl
  · rw [drainPayload, visits_bind, visits_read, alone_read]
    simp only [List.nil_append, if_neg live, cached]
    rfl

/-- A failure with some reason has been posted since. -/
def Reports (reason : DecryptFailure) (start w : Worker K G) : Prop :=
  ∃ posted, w.emitted = start.emitted ++ posted ∧
    ∃ kid epoch peerIndex ctr detail, OutMsg.decryptFailure reason kid epoch peerIndex ctr detail ∈ posted

theorem emitted_emitMetric (w : Worker K G) (event : MetricsEvent) :
    ∃ posted, (w.emitMetric event).emitted = w.emitted ++ posted := by
  unfold Worker.emitMetric
  split
  · exact ⟨_, rfl⟩
  · exact ⟨[], by simp⟩

theorem reports_emitMetric {start w : Worker K G} {reason : DecryptFailure} (reports : Reports reason start w)
    (event : MetricsEvent) : Reports reason start (w.emitMetric event) := by
  obtain ⟨posted, emitted, kid, epoch, peerIndex, ctr, detail, member⟩ := reports
  obtain ⟨more, later⟩ := emitted_emitMetric w event
  exact ⟨posted ++ more, by rw [later, emitted, List.append_assoc], kid, epoch, peerIndex, ctr, detail,
    List.mem_append_left _ member⟩

theorem reports_reportDrop (w : Worker K G) (reason : DecryptFailure) (hdr : SFrameHeader) (epoch peerIndex : ℤ) :
    Reports reason w (reportDrop w reason hdr epoch peerIndex) :=
  ⟨_, rfl, _, _, _, _, _, List.mem_singleton_self _⟩

theorem emitted_bothAsked (runtime : Runtime K G) (w : Worker K G) (slot : Slot) :
    (bothAsked runtime w slot).emitted = w.emitted := by
  obtain ⟨windows, next, same⟩ := Worker.getReplayWindow_snd w slot.epoch slot.peerIndex
  simp only [bothAsked, guardAsked, windowPassed, windowAsked, same]
  split <;> rfl

theorem emitted_windowAsked (w : Worker K G) (slot : Slot) : (windowAsked w slot).emitted = w.emitted := by
  obtain ⟨windows, next, same⟩ := Worker.getReplayWindow_snd w slot.epoch slot.peerIndex
  simp only [windowAsked, same]

/-- The three ways in which a sender's counter is refused. -/
theorem senderRefusal_some {slot : Slot} {reason : DecryptFailure} {v : Worker K G}
    (refuses : senderRefusal runtime w slot = some (reason, v)) :
    windowTakes w slot = false ∧ reason = .replay ∧ v = windowAsked w slot ∨
    windowTakes w slot = true ∧ v = bothAsked runtime w slot ∧
      (guardTakes runtime w slot = false ∧ reason = .replay ∨
        guardTakes runtime w slot = true ∧ w.isKeyInvalid slot.epoch slot.peerIndex = true ∧
          reason = .keyInvalid) := by
  unfold senderRefusal at refuses
  split at refuses
  · rename_i takes
    obtain ⟨rfl, rfl⟩ := Prod.mk.inj (Option.some.inj refuses)
    exact .inl ⟨takes, rfl, rfl⟩
  · rename_i takes
    refine .inr ⟨by simpa using takes, ?_⟩
    split at refuses
    · rename_i grants
      obtain ⟨rfl, rfl⟩ := Prod.mk.inj (Option.some.inj refuses)
      exact ⟨rfl, .inl ⟨grants, rfl⟩⟩
    · rename_i grants
      split at refuses
      · rename_i invalid
        obtain ⟨rfl, rfl⟩ := Prod.mk.inj (Option.some.inj refuses)
        exact ⟨rfl, .inr ⟨by simpa using grants, invalid, rfl⟩⟩
      · cases refuses

theorem senderRefusal_none {slot : Slot} (passes : senderRefusal runtime w slot = none) :
    windowTakes w slot = true ∧ guardTakes runtime w slot = true ∧
      w.isKeyInvalid slot.epoch slot.peerIndex = false := by
  unfold senderRefusal at passes
  split at passes
  · cases passes
  · rename_i takes
    split at passes
    · cases passes
    · rename_i grants
      split at passes
      · cases passes
      · rename_i invalid
        exact ⟨by simpa using takes, by simpa using grants, by simpa using invalid⟩

theorem decodePayload_stale (stale : (slotOf w hdr).epoch < w.currentMinValidEpoch) :
    (∃ refused w', alone (decodePayload runtime ref payload guess probed hdr) w = some (.error refused, w') ∧
      refusalOf refused = some .staleEpoch ∧ mute w' = mute w) ∧
    visits (decodePayload runtime ref payload guess probed hdr) w = [] := by
  simp only [slotOf] at stale
  refine ⟨?_, ?_⟩
  · simp only [decodePayload, alone_bind, alone_read, Option.bind_some, if_pos stale, alone_update, alone_throw]
    exact ⟨_, _, rfl, rfl, (mute_emitMetric _ _).trans rfl⟩
  · simp only [decodePayload, visits_bind, visits_read, alone_read, if_pos stale, visits_update, alone_update,
      visits_throw, List.append_nil]

/-- Before the first epoch a frame is parked. -/
theorem decodePayload_parks (live : ¬ (slotOf w hdr).epoch < w.currentMinValidEpoch) (early : w.currentEpoch = -1) :
    alone (decodePayload runtime ref payload guess probed hdr) w =
      some (.ok .parked, w.enqueuePreEpoch ref (slotOf w hdr).peerIndex) := by
  simp only [slotOf] at live ⊢
  simp only [decodePayload, alone_bind, alone_read, Option.bind_some, if_neg live, if_pos early, alone_update,
    alone_pure]

theorem drainPayload_stale (stale : (slotOf w hdr).epoch < w.currentMinValidEpoch) :
    alone (drainPayload runtime ref payload guess probed hdr) w = some (.ok (), w) ∧
    visits (drainPayload runtime ref payload guess probed hdr) w = [] := by
  simp only [slotOf] at stale
  refine ⟨?_, ?_⟩
  · simp only [drainPayload, alone_bind, alone_read, Option.bind_some, if_pos stale, alone_pure]
  · simp only [drainPayload, visits_bind, visits_read, alone_read, if_pos stale, visits_pure, List.append_nil]

/-- A frame whose sender has no key goes back to the queue. -/
theorem drainPayload_requeues (live : ¬ (slotOf w hdr).epoch < w.currentMinValidEpoch)
    (missing : w.cachedKey (slotOf w hdr).epoch (slotOf w hdr).peerIndex = none) :
    alone (drainPayload runtime ref payload guess probed hdr) w =
      some (.ok (), w.pushToQueue ref (some (slotOf w hdr).peerIndex)) := by
  simp only [slotOf] at live missing ⊢
  simp only [drainPayload, alone_bind, alone_read, Option.bind_some, if_neg live, missing, alone_update]

section Live
variable (live : ¬ (slotOf w hdr).epoch < w.currentMinValidEpoch)

include live

theorem decodePayload_refused (current : w.currentEpoch ≠ -1) {reason : DecryptFailure} {v : Worker K G}
    (refuses : senderRefusal runtime w (slotOf w hdr) = some (reason, v)) :
    (∃ refused w', alone (decodePayload runtime ref payload guess probed hdr) w = some (.error refused, w') ∧
      refusalOf refused = some reason ∧ mute w' = mute v) ∧
    ∀ site ∈ visits (decodePayload runtime ref payload guess probed hdr) w, ¬ AeadAttempt site := by
  obtain ⟨first, second, third, asks, sites⟩ := decodePayload_asks runtime ref payload guess probed live current rfl
  refine ⟨?_, ?_⟩
  · rw [asks, alone_askSender]
    rcases senderRefusal_some refuses with ⟨takes, rfl, rfl⟩ | ⟨takes, rfl, ⟨grants, rfl⟩ | ⟨grants, invalid, rfl⟩⟩
    · simp only [takes, ↓reduceIte, alone_bind, alone_update, Option.bind_some, alone_throw]
      exact ⟨_, _, rfl, rfl, by simp⟩
    · simp only [takes, grants, Bool.true_eq_false, ↓reduceIte, alone_bind, alone_update, Option.bind_some, alone_throw]
      exact ⟨_, _, rfl, rfl, by simp⟩
    · simp only [takes, grants, invalid, Bool.true_eq_false, ↓reduceIte, alone_bind, alone_update, Option.bind_some,
        alone_throw]
      exact ⟨_, _, rfl, rfl, by simp⟩
  · rw [sites]
    exact visits_askSender w _ (by simp [refuses]) (fun _ => id) (fun _ => rfl) (fun _ _ => rfl) fun _ _ _ => rfl

theorem decodePayload_opens (current : w.currentEpoch ≠ -1)
    (passes : senderRefusal runtime w (slotOf w hdr) = none) :
    alone (decodePayload runtime ref payload guess probed hdr) w =
      (alone (openAndAccept runtime ref (slotOf w hdr, windowHeld w (slotOf w hdr)) payload guess probed)
        (bothAsked runtime w (slotOf w hdr))).map fun result => match result.1 with
          | .ok opened => (.ok (.opened guess opened), result.2.emitMetric
              (.decrypt (slotOf w hdr).epoch (slotOf w hdr).peerIndex (guess.prefixLen + opened.length)))
          | .error refused => (.error refused, result.2) := by
  obtain ⟨first, second, third, asks, -⟩ := decodePayload_asks runtime ref payload guess probed live current rfl
  obtain ⟨takes, grants, trusted⟩ := senderRefusal_none passes
  rw [asks, alone_askSender]
  simp only [takes, grants, trusted, Bool.true_eq_false, Bool.false_eq_true, ↓reduceIte, openAndAccept, alone_bind]
  cases alone (openResolved runtime ref (slotOf w hdr, windowHeld w (slotOf w hdr)) payload guess probed)
      (bothAsked runtime w (slotOf w hdr)) with
  | none => rfl
  | some result =>
    obtain ⟨_ | opened, v⟩ := result
    · rfl
    · simp only [Option.bind_some]
      cases alone (acceptFrame runtime ref (slotOf w hdr, windowHeld w (slotOf w hdr)) payload guess opened) v with
      | none => rfl
      | some result => obtain ⟨_ | _, _⟩ := result <;> rfl

theorem drainPayload_refused {key : RatchetKey K}
    (cached : w.cachedKey (slotOf w hdr).epoch (slotOf w hdr).peerIndex = some key) {reason : DecryptFailure}
    {v : Worker K G} (refuses : senderRefusal runtime w (slotOf w hdr) = some (reason, v)) :
    (∃ w', alone (drainPayload runtime ref payload guess probed hdr) w = some (.ok (), w') ∧
      Reports reason w w' ∧ mute w' = mute v) ∧
    ∀ site ∈ visits (drainPayload runtime ref payload guess probed hdr) w, ¬ AeadAttempt site := by
  obtain ⟨asks, sites⟩ := drainPayload_asks runtime ref payload guess probed live rfl cached
  have reported {v : Worker K G} (same : v.emitted = w.emitted) {reason : DecryptFailure} {w' : Worker K G}
      (reports : Reports reason v w') : Reports reason w w' := by
    unfold Reports at reports ⊢
    rwa [← same]
  refine ⟨?_, ?_⟩
  · rw [asks, alone_askSender]
    rcases senderRefusal_some refuses with ⟨takes, rfl, rfl⟩ | ⟨takes, rfl, ⟨grants, rfl⟩ | ⟨grants, invalid, rfl⟩⟩
    · simp only [takes, ↓reduceIte, alone_update]
      refine ⟨_, rfl, reported (emitted_windowAsked w (slotOf w hdr)) ?_, by simp⟩
      exact reports_emitMetric (reports_emitMetric (reports_reportDrop _ _ _ _ _) _) _
    · simp only [takes, grants, Bool.true_eq_false, ↓reduceIte, alone_update]
      refine ⟨_, rfl, reported (emitted_bothAsked runtime w (slotOf w hdr)) ?_, by simp⟩
      exact reports_emitMetric (reports_emitMetric (reports_reportDrop _ _ _ _ _) _) _
    · simp only [takes, grants, invalid, Bool.true_eq_false, ↓reduceIte, alone_update]
      refine ⟨_, rfl, reported (emitted_bothAsked runtime w (slotOf w hdr)) ?_, by simp⟩
      exact reports_emitMetric (reports_reportDrop _ _ _ _ _) _
  · rw [sites]
    exact visits_askSender w _ (by simp [refuses]) (fun _ => id) (fun _ => rfl) (fun _ _ => rfl) fun _ _ _ => rfl

theorem drainPayload_opens {key : RatchetKey K}
    (cached : w.cachedKey (slotOf w hdr).epoch (slotOf w hdr).peerIndex = some key)
    (passes : senderRefusal runtime w (slotOf w hdr) = none) :
    alone (drainPayload runtime ref payload guess probed hdr) w =
      (alone (openAndAccept runtime ref (slotOf w hdr, windowHeld w (slotOf w hdr)) payload guess probed)
        (bothAsked runtime w (slotOf w hdr))).map fun result => (result.1.map fun _ => (), result.2) := by
  obtain ⟨asks, -⟩ := drainPayload_asks runtime ref payload guess probed live rfl cached
  obtain ⟨takes, grants, trusted⟩ := senderRefusal_none passes
  rw [asks, alone_askSender]
  simp only [takes, grants, trusted, Bool.true_eq_false, Bool.false_eq_true, ↓reduceIte, openAndAccept, alone_bind]
  cases alone (openResolved runtime ref (slotOf w hdr, windowHeld w (slotOf w hdr)) payload guess probed)
      (bothAsked runtime w (slotOf w hdr)) with
  | none => rfl
  | some result =>
    obtain ⟨_ | opened, v⟩ := result
    · rfl
    · simp only [Option.bind_some]
      cases alone (acceptFrame runtime ref (slotOf w hdr, windowHeld w (slotOf w hdr)) payload guess opened) v with
      | none => rfl
      | some result => obtain ⟨_ | _, _⟩ := result <;> rfl

end Live

/-- The worker that has noted the header of a frame. -/
def noted (w : Worker K G) (ref : Ref) (hdr : SFrameHeader) : Worker K G :=
  { w with resolved := w.resolved ++ [(ref, slotOf w hdr)] }

/-- The sender that the failure handler of the live path counts against. -/
def countedVars (w : Worker K G) (probed : Option Probed) (hdr : SFrameHeader) : HeaderVars :=
  (probed.map Probed.vars).getD
    { kid := hdr.kid, epoch := (slotOf w hdr).epoch, peerIndex := (slotOf w hdr).peerIndex, ctr := hdr.ctr }

/-- The format that a frame object's payload is taken for. -/
def formatOf (runtime : Runtime K G) (w : Worker K G) (ref : Ref) (payload : Bytes) : FormatGuess × Option Probed :=
  resolution runtime w payload w.codec (w.frames.read ref).kind

theorem alone_decodeFrame (stripped : sifPayload w.sifTrailer (w.frames.read ref).data = some payload)
    (parsed : parseHeader (payload.drop (formatOf runtime w ref payload).1.prefixLen) = .ok hdr) :
    alone (decodeFrame runtime ref) w =
      (alone (decodePayload runtime ref payload (formatOf runtime w ref payload).1 (formatOf runtime w ref payload).2
        hdr) (noted w ref hdr)).map fun result => match result.1 with
          | .ok path => (.ok path, result.2)
          | .error refused => (.error refused,
              failDecode result.2 (countedVars w (formatOf runtime w ref payload).2 hdr) refused) := by
  simp only [formatOf] at parsed ⊢
  simp only [decodeFrame, alone_bind, alone_read, Option.bind_some, stripped, alone_resolveFormat, parsed,
    alone_update, alone_tryCatch, noted, slotOf]
  cases alone (decodePayload runtime ref payload _ _ hdr) _ with
  | none => rfl
  | some result =>
    obtain ⟨_ | path, v⟩ := result
    · simp only [Option.bind_some, alone_throw, countedVars, slotOf]
      rfl
    · rfl

theorem alone_decodeFrame_unparsed (stripped : sifPayload w.sifTrailer (w.frames.read ref).data = some payload)
    {refused : JsError}
    (unparsed : parseHeader (payload.drop (formatOf runtime w ref payload).1.prefixLen) = .error refused) :
    alone (decodeFrame runtime ref) w = some (.error refused,
      failDecode w (((formatOf runtime w ref payload).2.map Probed.vars).getD {}) refused) := by
  simp only [formatOf] at unparsed ⊢
  simp only [decodeFrame, alone_bind, alone_read, Option.bind_some, stripped, alone_resolveFormat, unparsed,
    alone_update, alone_throw]

theorem visits_decodeFrame (stripped : sifPayload w.sifTrailer (w.frames.read ref).data = some payload)
    (parsed : parseHeader (payload.drop (formatOf runtime w ref payload).1.prefixLen) = .ok hdr) :
    visits (decodeFrame runtime ref) w =
      visits (resolveFormat runtime ref payload w.codec (w.frames.read ref).kind) w ++
        visits (decodePayload runtime ref payload (formatOf runtime w ref payload).1
          (formatOf runtime w ref payload).2 hdr) (noted w ref hdr) := by
  simp only [formatOf] at parsed ⊢
  simp only [decodeFrame, visits_bind, visits_read, alone_read, List.nil_append, stripped, alone_resolveFormat, parsed,
    visits_update, alone_update, visits_tryCatch, noted, slotOf, visits_throw]
  congr 1
  cases alone (decodePayload runtime ref payload _ _ hdr) _ with
  | none => simp
  | some result => obtain ⟨_ | _, _⟩ := result <;> simp

theorem alone_drainFrame {raw : Bytes} (own : (w.frames.read ref).data = raw)
    (parsed : parseHeader (raw.drop (formatOf runtime w ref raw).1.prefixLen) = .ok hdr) :
    alone (drainFrame runtime ref) w =
      (alone (drainPayload runtime ref raw (formatOf runtime w ref raw).1 (formatOf runtime w ref raw).2 hdr) w).map
        fun result => match result.1 with
          | .ok () => (.ok (), result.2)
          | .error refused => (.ok (), failDrain result.2 refused) := by
  simp only [formatOf] at parsed ⊢
  simp only [drainFrame, alone_bind, alone_read, Option.bind_some, own, alone_tryCatch, alone_resolveFormat,
    alone_settle, parsed]
  cases alone (drainPayload runtime ref raw _ _ hdr) w with
  | none => rfl
  | some result => obtain ⟨_ | _, v⟩ := result <;> rfl

theorem alone_drainFrame_unparsed {raw : Bytes} (own : (w.frames.read ref).data = raw) {refused : JsError}
    (unparsed : parseHeader (raw.drop (formatOf runtime w ref raw).1.prefixLen) = .error refused) :
    alone (drainFrame runtime ref) w = some (.ok (), failDrain w refused) := by
  simp only [formatOf] at unparsed
  simp only [drainFrame, alone_bind, alone_read, Option.bind_some, own, alone_tryCatch, alone_resolveFormat,
    alone_settle, unparsed, alone_update]

theorem visits_drainFrame {raw : Bytes} (own : (w.frames.read ref).data = raw)
    (parsed : parseHeader (raw.drop (formatOf runtime w ref raw).1.prefixLen) = .ok hdr) :
    visits (drainFrame runtime ref) w =
      visits (resolveFormat runtime ref raw w.codec (w.frames.read ref).kind) w ++
        visits (drainPayload runtime ref raw (formatOf runtime w ref raw).1 (formatOf runtime w ref raw).2 hdr) w := by
  simp only [formatOf] at parsed ⊢
  simp only [drainFrame, visits_bind, visits_read, alone_bind, alone_read, Option.bind_some, List.nil_append, own,
    visits_tryCatch, alone_resolveFormat, visits_settle, alone_settle, parsed, visits_update, List.append_assoc]
  congr 1
  cases alone (drainPayload runtime ref raw _ _ hdr) w with
  | none => simp
  | some result => obtain ⟨_ | _, _⟩ := result <;> simp

end SFrameRatchet.SoloDecoding
