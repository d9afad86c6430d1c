import SFrameRatchet.SoloOpening
import SFrameRatchet.Specimen

/-! What the gates save. A frame of a wiped epoch, a replayed counter and a key
that has failed too often are refused before the frame is opened, but the format
is resolved before the gates, and the search for a format opens frames too. -/
namespace SFrameRatchet.GateCost
open Collections Crypto Kid Header SFrame CodecPartial Throwing Coroutine Media SoloDecoding SoloOpening

variable {K G : Type} {runtime : Runtime K G} {w w₀ : Worker K G} {ref : Ref}

/-! ## Refusals come from the gates only -/

/-- What opening a frame posts are metrics, and it delivers nothing. -/
structure Metered (start w : Worker K G) : Prop where
  emitted : ∃ events : List MetricsEvent, w.emitted = start.emitted ++ events.map .metrics
  delivered : w.delivered = start.delivered

theorem metered_refl (w : Worker K G) : Metered w w := ⟨⟨[], by simp⟩, rfl⟩

theorem metered_of (metered : Metered w₀ w) {w' : Worker K G} (emitted : w'.emitted = w.emitted)
    (delivered : w'.delivered = w.delivered) : Metered w₀ w' :=
  ⟨emitted ▸ metered.emitted, delivered.trans metered.delivered⟩

theorem metered_emitMetric (metered : Metered w₀ w) (event : MetricsEvent) : Metered w₀ (w.emitMetric event) := by
  unfold Worker.emitMetric
  split
  · obtain ⟨events, emitted⟩ := metered.emitted
    exact ⟨⟨events ++ [event], by simp [Worker.emit, emitted]⟩, metered.delivered⟩
  · exact metered

/-- What opening a frame throws names no gate. -/
theorem keeps_metered (runtime : Runtime K G) (w₀ : Worker K G) (o : Opening) :
    Keeps runtime (Metered w₀) (refusalOf · = none) (refusalOf · = none) o where
  promised metered _ _ := metered_of metered rfl rfl
  advances metered _ _ _ := metered_of metered rfl rfl
  retries metered _ _ := metered_emitMetric metered _
  attempts {w} _ := throws_mono (sframeDecrypt_throws _ _ _ w.kidCodec _ _) fun _ failed => by cases failed <;> rfl
  windowless _ _ _ own := own
  derives := by rintro _ ⟨message, rfl | rfl⟩ <;> rfl
  missing _ := rfl
  exhausted _ _ := rfl
  stuck := rfl

/-- What has been posted since are metrics. -/
def Measured (start w : Worker K G) : Prop :=
  ∃ events : List MetricsEvent, w.emitted = start.emitted ++ events.map .metrics

theorem metered_recordSuccess (metered : Metered w₀ w) (epoch peerIndex : ℤ) :
    Metered w₀ (w.recordSuccess epoch peerIndex) := by
  unfold Worker.recordSuccess
  split
  · exact metered
  · exact metered_of metered rfl rfl

theorem clearStarve_logs (w : Worker K G) :
    w.clearStarve.emitted = w.emitted ∧ w.clearStarve.delivered = w.delivered := by
  unfold Worker.clearStarve
  split <;> exact ⟨rfl, rfl⟩

/-- A frame that passed the gates is refused by none of them, and delivered
when it is opened. -/
theorem openAndAccept_ends {held : Slot × ℕ} {payload : Bytes} {guess : FormatGuess} {probed : Option Probed}
    {outcome : Except JsError Bytes} {w' : Worker K G}
    (ran : alone (openAndAccept runtime ref held payload guess probed) w = some (outcome, w')) :
    (∀ opened, outcome = .ok opened → Measured w w' ∧ w'.delivered = w.delivered ++ [(held.1, ref)]) ∧
      ∀ refused, outcome = .error refused → Metered w w' ∧ refusalOf refused = none := by
  have accepts : Meets (solo (Metered w)) (openAndAccept runtime ref held payload guess probed)
      (fun _ _ _ w' => Measured w w' ∧ w'.delivered = w.delivered ++ [(held.1, ref)])
      (fun _ _ refused w' => Metered w w' ∧ refusalOf refused = none) { point := .start } w w := by
    refine meets_bind.mpr (meets_mono (openResolved_opens (keeps_metered runtime w _)
      (fun metered => metered_of metered rfl rfl) ref probed (metered_refl w))
      (fun at_ start opened v metered => ?_) fun _ _ _ _ held => held)
    obtain ⟨windows, accepted⟩ := Worker.acceptReplay_eq v held.1 held.2 ref
    have noted : Metered w (v.acceptReplay held.1 held.2 ref) :=
      metered_of metered (by rw [accepted]) (by rw [accepted])
    simp only [acceptFrame, meets_bind, meets_update, meets_pure]
    refine meets_mono (durableAccept_opens (Metered w) (fun _ _ metered => metered_of metered rfl rfl) _ held.1 noted)
      (fun _ _ _ v metered => ?_) fun _ _ _ _ held => held
    have counted := metered_recordSuccess metered held.1.epoch held.1.peerIndex
    simp only [Measured, clearStarve_logs]
    exact ⟨counted.emitted, by rw [counted.delivered]⟩
  obtain ⟨_, _, ended⟩ := meets_alone (fun moved => moved) accepts ran
  cases outcome with
  | ok opened => exact ⟨fun _ _ => ended, fun _ never => (by cases never)⟩
  | error refused =>
    refine ⟨fun _ never => (by cases never), fun other same => ?_⟩
    obtain rfl := Except.error.inj same
    exact ended

/-! ## What a gate refuses, and what that costs -/

/-- The gate that refuses a header on the live path; a frame that comes before
any epoch is parked instead. -/
def decodeRefusal (runtime : Runtime K G) (w : Worker K G) (slot : Slot) : Option DecryptFailure :=
  if slot.epoch < w.currentMinValidEpoch then some .staleEpoch
  else if w.currentEpoch = -1 then none
  else (senderRefusal runtime w slot).map Prod.fst

/-- The gate that refuses a header in the drain; a frame without a key goes back
to the queue instead. -/
def drainRefusal (runtime : Runtime K G) (w : Worker K G) (slot : Slot) : Option DecryptFailure :=
  if slot.epoch < w.currentMinValidEpoch then some .staleEpoch
  else if w.cachedKey slot.epoch slot.peerIndex |>.isNone then none
  else (senderRefusal runtime w slot).map Prod.fst

/-- `decodeFrame` throws at a gate only when it has opened nothing. -/
def DecodeSaves (runtime : Runtime K G) (w : Worker K G) (ref : Ref) : Prop :=
  ∀ refused w', alone (decodeFrame runtime ref) w = some (.error refused, w') → refusalOf refused ≠ none →
    ∀ site ∈ visits (decodeFrame runtime ref) w, ¬ AeadAttempt site

/-- The frame was discarded without a word: the drain's way with a stale frame. -/
def Discarded (start w : Worker K G) : Prop :=
  w.emitted = start.emitted ∧ w.delivered = start.delivered ∧ w.preEpochQueue = start.preEpochQueue

/-- The reasons that the gates give. -/
def IsGate (reason : DecryptFailure) : Prop := reason = .staleEpoch ∨ reason = .replay ∨ reason = .keyInvalid

variable {payload : Bytes} {hdr : SFrameHeader}

theorem senderRefusal_noted (w : Worker K G) (ref : Ref) (hdr : SFrameHeader) (slot : Slot) :
     (senderRefusal runtime (noted w ref hdr) slot).map Prod.fst =
    (senderRefusal runtime w slot).map Prod.fst := by
  have window : windowTakes (noted w ref hdr) slot = windowTakes w slot := by
    simp only [windowTakes, Worker.getReplayWindow_fst]
    rfl
  have guard : guardTakes runtime (noted w ref hdr) slot = guardTakes runtime w slot := rfl
  have trusted : (noted w ref hdr).isKeyInvalid = w.isKeyInvalid := rfl
  simp only [senderRefusal, window, guard, trusted]
  split
  · rfl
  · split
    · rfl
    · split <;> rfl

theorem decodePayload_gated (ref : Ref) (payload : Bytes) (guess : FormatGuess) (probed : Option Probed)
    {reason : DecryptFailure} (refuses : decodeRefusal runtime w (slotOf w hdr) = some reason) :
    (∃ refused w', alone (decodePayload runtime ref payload guess probed hdr) (noted w ref hdr) =
        some (.error refused, w') ∧ refusalOf refused = some reason) ∧
      ∀ site ∈ visits (decodePayload runtime ref payload guess probed hdr) (noted w ref hdr), ¬ AeadAttempt site := by
  unfold decodeRefusal at refuses
  split at refuses
  · rename_i stale
    obtain rfl := Option.some.inj refuses
    have behind : (slotOf (noted w ref hdr) hdr).epoch < (noted w ref hdr).currentMinValidEpoch := stale
    obtain ⟨⟨refused, w', ran, own, -⟩, sites⟩ := decodePayload_stale behind
    exact ⟨⟨refused, w', ran, own⟩, by rw [sites]; simp⟩
  · rename_i live
    split at refuses
    · cases refuses
    · rename_i current
      rw [← senderRefusal_noted w ref hdr] at refuses
      obtain ⟨⟨_, v⟩, refusing, rfl⟩ := Option.map_eq_some_iff.mp refuses
      have ahead : ¬ (slotOf (noted w ref hdr) hdr).epoch < (noted w ref hdr).currentMinValidEpoch := live
      obtain ⟨⟨refused, w', ran, own, -⟩, sites⟩ := decodePayload_refused ahead current refusing
      exact ⟨⟨refused, w', ran, own⟩, sites⟩

/-- What no gate refuses ends otherwise than with a refusal. -/
theorem decodePayload_ungated {guess : FormatGuess} {probed : Option Probed} {refused : JsError} {w' : Worker K G}
    (passes : decodeRefusal runtime w (slotOf w hdr) = none)
    (ran : alone (decodePayload runtime ref payload guess probed hdr) (noted w ref hdr) = some (.error refused, w')) :
    refusalOf refused = none := by
  unfold decodeRefusal at passes
  split at passes
  · cases passes
  · rename_i live
    have ahead : ¬ (slotOf (noted w ref hdr) hdr).epoch < (noted w ref hdr).currentMinValidEpoch := live
    split at passes
    · rename_i early
      rw [decodePayload_parks ahead early] at ran
      cases ran
    · rename_i current
      rw [← senderRefusal_noted w ref hdr, Option.map_eq_none_iff] at passes
      rw [decodePayload_opens ahead current passes] at ran
      obtain ⟨⟨outcome, v⟩, opened, ended⟩ := Option.map_eq_some_iff.mp ran
      cases outcome with
      | ok plaintext => cases ended
      | error other =>
        cases ended
        exact ((openAndAccept_ends opened).2 _ rfl).2

theorem drainPayload_gated (ref : Ref) (payload : Bytes) (guess : FormatGuess) (probed : Option Probed)
    {reason : DecryptFailure} (refuses : drainRefusal runtime w (slotOf w hdr) = some reason) :
    (∃ w', alone (drainPayload runtime ref payload guess probed hdr) w = some (.ok (), w') ∧
        (Discarded w w' ∨ ∃ reason, IsGate reason ∧ Reports reason w w')) ∧
      ∀ site ∈ visits (drainPayload runtime ref payload guess probed hdr) w, ¬ AeadAttempt site := by
  unfold drainRefusal at refuses
  split at refuses
  · rename_i stale
    obtain ⟨ran, sites⟩ := drainPayload_stale stale
    exact ⟨⟨w, ran, .inl ⟨rfl, rfl, rfl⟩⟩, by rw [sites]; simp⟩
  · rename_i live
    split at refuses
    · cases refuses
    · rename_i found
      obtain ⟨key, cached⟩ := Option.ne_none_iff_exists'.mp (by simpa using found)
      obtain ⟨⟨_, v⟩, refusing, rfl⟩ := Option.map_eq_some_iff.mp refuses
      obtain ⟨⟨w', ran, reports, -⟩, sites⟩ := drainPayload_refused live cached refusing
      refine ⟨⟨w', ran, .inr ⟨_, ?_, reports⟩⟩, sites⟩
      rcases senderRefusal_some refusing with ⟨-, rfl, -⟩ | ⟨-, -, ⟨-, rfl⟩ | ⟨-, -, rfl⟩⟩
      · exact .inr (.inl rfl)
      · exact .inr (.inl rfl)
      · exact .inr (.inr rfl)

/-- A message that tells the main thread of a gate. -/
def NamesGate : OutMsg → Prop
  | .decryptFailure reason .. => IsGate reason
  | _ => False

/-- What the drain has posted since names no gate, and the frame has not
vanished: it is delivered or queued again, or its failure was posted. -/
structure Answered (start w : Worker K G) : Prop where
  unnamed : ∃ posted, w.emitted = start.emitted ++ posted ∧ ∀ msg ∈ posted, ¬ NamesGate msg
  seen : ¬ Discarded start w

theorem answered_ungated {start : Worker K G} (answered : Answered start w) :
    ¬ (Discarded start w ∨ ∃ reason, IsGate reason ∧ Reports reason start w) := by
  rintro (discarded | ⟨reason, gate, posted, emitted, kid, epoch, peerIndex, ctr, detail, member⟩)
  · exact answered.seen discarded
  · obtain ⟨others, same, unnamed⟩ := answered.unnamed
    obtain rfl := List.append_cancel_left (same.symm.trans emitted)
    exact unnamed _ member gate

theorem measured_unnamed {start : Worker K G} (measured : Measured start w) :
    ∃ posted, w.emitted = start.emitted ++ posted ∧ ∀ msg ∈ posted, ¬ NamesGate msg := by
  obtain ⟨events, emitted⟩ := measured
  refine ⟨_, emitted, fun msg member => ?_⟩
  obtain ⟨event, -, rfl⟩ := List.mem_map.mp member
  exact id

theorem metered_recordFailure (metered : Metered w₀ w) (epoch peerIndex : ℤ) :
    Metered w₀ (w.recordFailure epoch peerIndex) := by
  unfold Worker.recordFailure
  split
  · exact metered
  · dsimp only
    have counted (counts : OrderedMap (ℤ × ℤ) ℕ) : Metered w₀ { w with failureCounts := counts } :=
      metered_of metered rfl rfl
    split
    · exact metered_emitMetric (counted _) _
    · exact counted _

/-- Whatever a frame failed with in the drain, the failure is posted. -/
theorem answered_failDrain {start : Worker K G} (metered : Metered start w) (refused : JsError) :
    Answered start (failDrain w refused) := by
  have counted (v : Worker K G) (metered : Metered start v) (detail : Option String) :
      Answered start (v.emit (.decryptFailure .decryptFailedAfterEpoch none none none none detail)) := by
    obtain ⟨posted, emitted, unnamed⟩ := measured_unnamed metered.emitted
    refine ⟨⟨posted ++ [_], by rw [Worker.emit, emitted, List.append_assoc], fun msg member => ?_⟩, fun discarded => ?_⟩
    · rcases List.mem_append.mp member with early | last
      · exact unnamed msg early
      · rw [List.mem_singleton.mp last]
        simp [NamesGate, IsGate]
    · have same := discarded.1
      rw [Worker.emit, emitted, List.append_assoc] at same
      simp at same
  unfold failDrain
  dsimp only
  split
  · exact counted _ (metered_recordFailure metered _ _) _
  · exact counted _ (metered_recordFailure metered _ _) _
  · exact counted _ metered _

/-- A frame that goes back to the queue is in it, or pushes another one out. -/
theorem answered_pushToQueue (w : Worker K G) (ref : Ref) (peerIndex : Option ℤ) :
    Answered w (w.pushToQueue ref peerIndex) := by
  unfold Worker.pushToQueue
  dsimp only
  split
  · have starved (v : Worker K G) : ∃ posted, (v.noteStarveDrop peerIndex).emitted = v.emitted ++ posted ∧
        ∀ msg ∈ posted, ¬ NamesGate msg := by
      unfold Worker.noteStarveDrop
      split
      · exact ⟨_, rfl, by simp [NamesGate]⟩
      · dsimp only
        split
        · exact ⟨_, rfl, by simp [NamesGate]⟩
        · exact ⟨[], by simp, by simp⟩
    generalize dropped : Worker.emit { w with preEpochQueue := w.preEpochQueue.dropLast }
      (.decryptFailure .queueOverflow none none none none none) = v
    have overflow : v.emitted = w.emitted ++ [.decryptFailure .queueOverflow none none none none none] := by
      rw [← dropped]
      rfl
    obtain ⟨events, measured⟩ := (metered_emitMetric (metered_refl v) (.queueDrop .preEpochFull none)).emitted
    obtain ⟨posted, later, unnamed⟩ := starved (v.emitMetric (.queueDrop .preEpochFull none))
    rw [measured, overflow, List.append_assoc, List.append_assoc] at later
    refine ⟨⟨_, later, fun msg member => ?_⟩, fun discarded => ?_⟩
    · rcases List.mem_append.mp member with first | member
      · rw [List.mem_singleton.mp first]
        simp [NamesGate, IsGate]
      · rcases List.mem_append.mp member with metric | last
        · obtain ⟨event, -, rfl⟩ := List.mem_map.mp metric
          exact id
        · exact unnamed msg last
    · have same : _ = w.emitted := discarded.1
      rw [later] at same
      simp at same
  · refine ⟨⟨[], by simp, by simp⟩, fun discarded => ?_⟩
    have same : w.preEpochQueue ++ [ref] = w.preEpochQueue := discarded.2.2
    simp at same

theorem drainPayload_ungated {guess : FormatGuess} {probed : Option Probed} {outcome : Except JsError Unit}
    {w' : Worker K G} (passes : drainRefusal runtime w (slotOf w hdr) = none)
    (ran : alone (drainPayload runtime ref payload guess probed hdr) w = some (outcome, w')) :
    (outcome = .ok () → Answered w w') ∧ ∀ refused, outcome = .error refused → Metered w w' := by
  unfold drainRefusal at passes
  split at passes
  · cases passes
  · rename_i live
    split at passes
    · rename_i missing
      rw [drainPayload_requeues live (by simpa using missing)] at ran
      obtain ⟨rfl, rfl⟩ := Prod.mk.inj (Option.some.inj ran)
      exact ⟨fun _ => answered_pushToQueue w ref _, fun _ never => (by cases never)⟩
    · rename_i found
      obtain ⟨key, cached⟩ := Option.ne_none_iff_exists'.mp (by simpa using found)
      rw [drainPayload_opens live cached (Option.map_eq_none_iff.mp passes)] at ran
      obtain ⟨⟨opening, v⟩, opened, ended⟩ := Option.map_eq_some_iff.mp ran
      obtain ⟨rfl, rfl⟩ := Prod.mk.inj ended
      obtain ⟨windows, next, asked⟩ := Worker.getReplayWindow_snd w (slotOf w hdr).epoch (slotOf w hdr).peerIndex
      have emitted := emitted_bothAsked runtime w (slotOf w hdr)
      have delivered : (bothAsked runtime w (slotOf w hdr)).delivered = w.delivered := by
        simp only [bothAsked, guardAsked, windowPassed, windowAsked, asked]
        split <;> rfl
      cases opening with
      | ok plaintext =>
        obtain ⟨measured, grown⟩ := (openAndAccept_ends opened).1 plaintext rfl
        refine ⟨fun _ => ⟨?_, fun discarded => ?_⟩, fun _ never => (by cases never)⟩
        · exact measured_unnamed (by rwa [Measured, emitted] at measured)
        · have same := discarded.2.1
          rw [grown, delivered] at same
          simp at same
      | error refused =>
        refine ⟨fun never => (by cases never), fun _ _ => ?_⟩
        obtain ⟨metered, -⟩ := (openAndAccept_ends opened).2 refused rfl
        exact ⟨by simpa only [emitted] using metered.emitted, metered.delivered.trans delivered⟩

/-! ## When a refusal costs nothing -/

/-- There is nothing to search a format with: it is cached for whoever the bytes behind the
codec's own prefix name, or no candidate names an installed key and leaves room for a tag. -/
def Searchless (runtime : Runtime K G) (w : Worker K G) (payload : Bytes) (frameKind : Option FrameKind) : Prop :=
  (cachedFormat w payload (codecPrefix payload w.codec frameKind)).isSome ∨
    ∀ guess ∈ formatCandidates w.codec frameKind, probeAttempt runtime w payload guess = none

theorem searchless_iff (w : Worker K G) (payload : Bytes) (frameKind : Option FrameKind) :
    Searchless runtime w payload frameKind ↔ ¬ Probes runtime w payload w.codec frameKind := by
  unfold Searchless Probes
  cases cachedFormat w payload (codecPrefix payload w.codec frameKind) with
  | some guess => simp
  | none => simp [Option.isSome_iff_ne_none]

/-- Where the gates of a frame make no attempt, the frame has cost one when its format was
searched for. -/
theorem costless_iff (w : Worker K G) (ref : Ref) (payload : Bytes) (frameKind : Option FrameKind)
    {gates : List AwaitPoint} (clear : ∀ site ∈ gates, ¬ AeadAttempt site) :
    (∀ site ∈ visits (resolveFormat runtime ref payload w.codec frameKind) w ++ gates, ¬ AeadAttempt site) ↔
      Searchless runtime w payload frameKind := by
  rw [searchless_iff, ← visits_resolveFormat w ref payload]
  constructor
  · rintro costless ⟨site, member, attempt⟩
    exact costless site (List.mem_append_left gates member) attempt
  · intro searchless site member attempt
    rcases List.mem_append.mp member with resolving | gated
    · exact searchless ⟨site, resolving, attempt⟩
    · exact clear site gated attempt

/-- The live path, one frame at a time. -/
theorem decodeFrame_costless_iff (stripped : sifPayload w.sifTrailer (w.frames.read ref).data = some payload)
    {refused : JsError} {w' : Worker K G} (ran : alone (decodeFrame runtime ref) w = some (.error refused, w'))
    (gated : refusalOf refused ≠ none) :
    (∀ site ∈ visits (decodeFrame runtime ref) w, ¬ AeadAttempt site) ↔
      Searchless runtime w payload (w.frames.read ref).kind := by
  cases parsed : parseHeader (payload.drop (formatOf runtime w ref payload).1.prefixLen) with
  | error unparsed =>
    rw [alone_decodeFrame_unparsed stripped parsed] at ran
    cases ran
    exact absurd (by obtain ⟨_, _, rfl⟩ := parseHeader_throws _ _ parsed; rfl) gated
  | ok hdr =>
    rw [alone_decodeFrame stripped parsed] at ran
    obtain ⟨⟨outcome, v⟩, decoded, ended⟩ := Option.map_eq_some_iff.mp ran
    cases outcome with
    | ok path => cases ended
    | error other =>
      cases ended
      cases refuses : decodeRefusal runtime w (slotOf w hdr) with
      | none => exact absurd (decodePayload_ungated refuses decoded) gated
      | some reason =>
        rw [visits_decodeFrame stripped parsed]
        exact costless_iff w ref payload _ (decodePayload_gated ref payload _ _ refuses).2

/-- The drain, one frame at a time. -/
theorem drainFrame_costless_iff {w' : Worker K G} (ran : alone (drainFrame runtime ref) w = some (.ok (), w'))
    (gated : Discarded w w' ∨ ∃ reason, IsGate reason ∧ Reports reason w w') :
    (∀ site ∈ visits (drainFrame runtime ref) w, ¬ AeadAttempt site) ↔
      Searchless runtime w (w.frames.read ref).data (w.frames.read ref).kind := by
  generalize own : (w.frames.read ref).data = raw
  cases parsed : parseHeader (raw.drop (formatOf runtime w ref raw).1.prefixLen) with
  | error unparsed =>
    rw [alone_drainFrame_unparsed own parsed] at ran
    cases ran
    exact absurd gated (answered_ungated (answered_failDrain (metered_refl w) unparsed))
  | ok hdr =>
    rw [alone_drainFrame own parsed] at ran
    obtain ⟨⟨outcome, v⟩, drained, ended⟩ := Option.map_eq_some_iff.mp ran
    cases refuses : drainRefusal runtime w (slotOf w hdr) with
    | none =>
      obtain ⟨returned, threw⟩ := drainPayload_ungated refuses drained
      cases outcome with
      | ok done =>
        cases ended
        exact absurd gated (answered_ungated (returned rfl))
      | error refused =>
        cases ended
        exact absurd gated (answered_ungated (answered_failDrain (threw refused rfl) refused))
    | some reason =>
      rw [visits_drainFrame own parsed]
      exact costless_iff w ref raw _ (drainPayload_gated ref raw _ _ refuses).2

/-- **The cost of a refusal.** A frame that a gate refuses, on the live path or in the
drain, has cost no AEAD attempt exactly when a format was cached, before the call, for
whoever the bytes behind the codec's own prefix name, or no candidate format had anything to
open. -/
theorem refusals_cost_nothing_iff (runtime : Runtime K G) (w : Worker K G) (ref : Ref) :
    (∀ payload refused w', sifPayload w.sifTrailer (w.frames.read ref).data = some payload →
      alone (decodeFrame runtime ref) w = some (.error refused, w') → refusalOf refused ≠ none →
      ((∀ site ∈ visits (decodeFrame runtime ref) w, ¬ AeadAttempt site) ↔
        Searchless runtime w payload (w.frames.read ref).kind)) ∧
    (∀ w', alone (drainFrame runtime ref) w = some (.ok (), w') →
      (Discarded w w' ∨ ∃ reason, IsGate reason ∧ Reports reason w w') →
      ((∀ site ∈ visits (drainFrame runtime ref) w, ¬ AeadAttempt site) ↔
        Searchless runtime w (w.frames.read ref).data (w.frames.read ref).kind)) :=
  ⟨fun _ _ _ stripped ran gated => decodeFrame_costless_iff stripped ran gated,
    fun _ ran gated => drainFrame_costless_iff ran gated⟩

/-! ## A key that has failed is tried again -/

open Specimen (installed sealedBy keyOf)

/-- A receiver with no tolerance whose first sender has failed once, and a
frame that names this sender, sealed under another key. -/
def intolerantReceiver : Worker Bytes Unit :=
  let failed := { installed 0 1 [7, 9] with failureTolerance := 0 }.recordFailure 0 0
  { failed with frames := failed.frames.alloc { data := sealedBy (keyOf 0 0 66) 3 [1, 2, 3] } }

/-- The refusal that a call has ended with. -/
def refusalIn : Except JsError Path → Option DecryptFailure
  | .ok _ => none
  | .error refused => refusalOf refused

/-- The frame is refused as naming an invalid key, after the search for a format
has tried to open it with that key. -/
theorem invalid_key_probed : ¬ ∀ w ref, DecodeSaves Specimen.runtime w ref := by
  intro saves
  have refusal : ((alone (decodeFrame Specimen.runtime 0) intolerantReceiver).map fun result =>
      (result.1.toOption, refusalIn result.1)) = some (none, some .keyInvalid) := by
    decide +kernel
  have probed : ∃ site ∈ visits (decodeFrame Specimen.runtime 0) intolerantReceiver, site.point = .probe := by
    decide +kernel
  obtain ⟨⟨outcome, w'⟩, ran, ended⟩ := Option.map_eq_some_iff.mp refusal
  obtain ⟨site, member, probing⟩ := probed
  cases outcome with
  | ok path => cases ended
  | error refused =>
    obtain ⟨-, own⟩ := Prod.mk.inj ended
    have own : refusalOf refused = some .keyInvalid := own
    exact saves intolerantReceiver 0 refused w' ran (by rw [own]; simp) site member (by simp [AeadAttempt, probing])

/-- The same receiver, with the sender's format cached. -/
def cachingReceiver : Worker Bytes Unit := intolerantReceiver.setFormatCache 0 0 ⟨0, .header⟩

/-- The same frame is refused at no cost. -/
theorem refusals_cost_nothing_cached : ∃ refused w',
    alone (decodeFrame Specimen.runtime 0) cachingReceiver = some (.error refused, w') ∧
      refusalOf refused = some .keyInvalid ∧
      ∀ site ∈ visits (decodeFrame Specimen.runtime 0) cachingReceiver, ¬ AeadAttempt site := by
  have refusal : ((alone (decodeFrame Specimen.runtime 0) cachingReceiver).map fun result =>
      (result.1.toOption, refusalIn result.1)) = some (none, some .keyInvalid) := by
    decide +kernel
  obtain ⟨⟨outcome, w'⟩, ran, ended⟩ := Option.map_eq_some_iff.mp refusal
  cases outcome with
  | ok path => cases ended
  | error refused =>
    obtain ⟨-, own⟩ := Prod.mk.inj ended
    have own : refusalOf refused = some .keyInvalid := own
    have costless := (refusals_cost_nothing_iff Specimen.runtime cachingReceiver 0).1 _ refused w' rfl ran
      (by rw [own]; simp)
    exact ⟨refused, w', ran, own, costless.mpr (.inl (by decide +kernel))⟩

end SFrameRatchet.GateCost
