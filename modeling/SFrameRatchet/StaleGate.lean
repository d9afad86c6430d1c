import Mathlib.Tactic.FinCases
import SFrameRatchet.EpochTable
import SFrameRatchet.FrameOwnership
import SFrameRatchet.Specimen

/-! The gate that refuses frames of wiped epochs. Epochs may arrive late,
repeated or out of order, and a timer both deletes an entry and raises the
lowest valid epoch; whatever the order, the gate never opens again and never
closes on the current epoch. -/
namespace SFrameRatchet.StaleGate
open Collections Header SFrame CodecPartial Throwing Coroutine Interleaving Media EpochTable Unsealing
open FrameOwnership (toDecode Unreturned turn_intact)

variable {K G : Type} {runtime : Runtime K G}

/-- Timers are pending for earlier epochs only, so the gate stays at or below
the current epoch, whose entry is installed. -/
structure Gate (w : Worker K G) : Prop where
  begun : -1 ≤ w.currentEpoch
  valid : w.currentMinValidEpoch ≤ max w.currentEpoch 0
  earlier : ∀ epoch, w.wipeTimers.has epoch = true → epoch < w.currentEpoch
  current : 0 ≤ w.currentEpoch → w.epochs.has w.currentEpoch = true

/-- Neither the current epoch nor the gate has gone back. -/
structure Onward (start w : Worker K G) : Prop where
  current : start.currentEpoch ≤ w.currentEpoch
  valid : start.currentMinValidEpoch ≤ w.currentMinValidEpoch

variable {start middle w w' : Worker K G}

theorem Onward.refl (w : Worker K G) : Onward w w := ⟨le_refl _, le_refl _⟩

theorem Onward.trans (first : Onward start middle) (second : Onward middle w) : Onward start w :=
  ⟨first.current.trans second.current, first.valid.trans second.valid⟩

theorem gate_created : Gate (Worker.createWorkerState : Worker K G) where
  begun := le_refl _
  valid := le_refl _
  earlier _ pending := by cases pending
  current never := by cases never

theorem gate_of (gate : Gate w) (same : epochTable w' = epochTable w) : Gate w' := by
  simp only [epochTable, Prod.mk.injEq] at same
  obtain ⟨epochs, current, valid, timers⟩ := same
  constructor
  · rw [current]; exact gate.begun
  · rw [valid, current]; exact gate.valid
  · rw [timers, current]; exact gate.earlier
  · rw [epochs, current]; exact gate.current

theorem onward_of (onward : Onward start w) (same : epochTable w' = epochTable w) : Onward start w' := by
  simp only [epochTable, Prod.mk.injEq] at same
  obtain ⟨-, current, valid, -⟩ := same
  constructor
  · rw [current]; exact onward.current
  · rw [valid]; exact onward.valid

theorem gate_installEpoch (gate : Gate w) {epoch selfPeerIndex : ℤ} {keys : KeyBundles K}
    (ok : w.installEpoch epoch selfPeerIndex keys = .ok w') : Gate w' ∧ Onward w w' := by
  obtain ⟨ref, table⟩ := epochTable_installEpoch ok
  split at table
  · rename_i above
    have advanced : Gate ({ w with
        epochs := w.epochs.set epoch ref, currentEpoch := epoch }.scheduleWipeOfEpochsBelow epoch) := by
      refine ⟨gate.begun.trans (Int.le_of_lt above), ?_, fun other pending => ?_, fun _ => ?_⟩
      · exact gate.valid.trans (max_le_max_right 0 (Int.le_of_lt above))
      · rcases scheduled_iff.mp pending with before | ⟨-, below⟩
        · exact (gate.earlier other before).trans above
        · exact below
      · exact OrderedMap.has_set.mpr (.inl rfl)
    have onward : Onward w ({ w with
        epochs := w.epochs.set epoch ref, currentEpoch := epoch }.scheduleWipeOfEpochsBelow epoch) :=
      ⟨Int.le_of_lt above, le_refl _⟩
    exact ⟨gate_of advanced table, onward_of onward table⟩
  · have entered : Gate { w with epochs := w.epochs.set epoch ref } :=
      { gate with current := fun current => OrderedMap.has_set.mpr (.inr (gate.current current)) }
    have onward : Onward w { w with epochs := w.epochs.set epoch ref } := ⟨le_refl _, le_refl _⟩
    exact ⟨gate_of entered table, onward_of onward table⟩

theorem gate_wipeEpoch (gate : Gate w) {epoch : ℤ} (pending : w.wipeTimers.has epoch = true)
    (guard : ReplayGuard G) : Gate (w.wipeEpoch guard epoch) ∧ Onward w (w.wipeEpoch guard epoch) := by
  have below := gate.earlier epoch pending
  have valid := gate.valid
  refine ⟨⟨gate.begun, ?_, fun other timed => ?_, fun current => ?_⟩, le_refl _, ?_⟩
  · simp only [Worker.wipeEpoch]
    split <;> omega
  · exact gate.earlier other (OrderedMap.has_delete.mp timed).2
  · exact OrderedMap.has_delete.mpr ⟨Int.ne_of_gt below, gate.current current⟩
  · simp only [Worker.wipeEpoch]
    split <;> omega

/-! ## What a decoding call does in a turn -/

/-- A call that decodes a frame. -/
def Decodes : Call K → Prop
  | .decodeFrame _ | .transform .decode _ => True
  | _ => False

/-- No frame object that was there has other contents. -/
def Unwritten (start w : Worker K G) : Prop :=
  ∀ ref < start.frames.next, w.frames.read ref = start.frames.read ref

/-- Headers found since are of epochs that the gate lets pass. -/
def Live (start w : Worker K G) : Prop :=
  ∃ found, w.resolved = start.resolved ++ found ∧
    ∀ header ∈ found, start.currentMinValidEpoch ≤ header.2.epoch

/-- The call has ended without a frame: `decodeFrame` threw, and a pipe dropped
what it was given. -/
def Rejected (call : Call K) (status : Status AwaitPoint (Except JsError Outcome)) : Prop :=
  match call, status with
  | .decodeFrame _, .finished (.error _) => True
  | .transform .decode _, .finished (.ok .done) => True
  | _, _ => False

/-- `decodeFrame` has returned, for a pipe to pass the frame on or to its caller. -/
def Returned (status : Status AwaitPoint (Except JsError Outcome)) : Prop :=
  match status with
  | .suspended site => ∃ data, site.point = .decoded data
  | .finished outcome => ∃ path, outcome = .ok (.decoded path)
  | .running => False

/-- A turn of a decoding call: it finds headers of live epochs only, or it drops
its frame; and it leaves all frames as they are until it returns. -/
structure Judged (call : Call K) (start : Worker K G) (status : Status AwaitPoint (Except JsError Outcome))
    (w : Worker K G) : Prop where
  live : Live start w ∨ Rejected call status ∧ Unwritten start w ∧ w.enqueued = start.enqueued
  unwritten : Unwritten start w ∨ Returned status

def Turned (call : Call K) (start : Worker K G) (status : Status AwaitPoint (Except JsError Outcome))
    (w : Worker K G) : Prop :=
  Gate w ∧ Onward start w ∧ (Decodes call → Judged call start status w)

def gating (call : Call K) : Contract AwaitPoint (Worker K G) where
  assume _ w := Gate w
  moves _ start next w := Turned call start (.suspended next) w

/-! ## Calls -/

/-- What a call other than a decoding one knows of the state. -/
def Keeping : Reading K G := fun _ start w => Gate w ∧ Onward start w

theorem keeping_tabular : Tabular (Keeping : Reading K G) :=
  fun _ _ _ _ now same => ⟨gate_of now.1 same, onward_of now.2 same⟩

theorem keeping_survives {call : Call K} (other : ¬ Decodes call) (site : AwaitPoint) :
    Survives (gating call) (Keeping : Reading K G) site :=
  fun _ _ _ now => ⟨⟨now.1, now.2, fun decodes => absurd decodes other⟩,
    fun later gate => ⟨gate, Onward.refl later⟩⟩

/-- What a decoding call keeps when it drops its frame. -/
structure Dropping (start w : Worker K G) : Prop where
  gate : Gate w
  table : epochTable w = epochTable start
  unwritten : Unwritten start w
  enqueued : w.enqueued = start.enqueued

/-- What it keeps up to the gate, and behind it until the frame is opened. -/
structure Decoding (at_ : AwaitPoint) (start w : Worker K G) : Prop extends Dropping start w where
  live : Live start w

variable {at_ : AwaitPoint} {call : Call K}

theorem unwritten_refl (w : Worker K G) : Unwritten w w := fun _ _ => rfl

theorem live_refl (w : Worker K G) : Live w w := ⟨[], by simp, by simp⟩

theorem Dropping.onward (now : Dropping start w) : Onward start w := onward_of (Onward.refl start) now.table

private def dropped (w : Worker K G) := (epochTable w, w.frames, w.enqueued)

theorem dropping_of (now : Dropping start w) (same : dropped w' = dropped w) : Dropping start w' := by
  simp only [dropped, Prod.mk.injEq] at same
  obtain ⟨table, frames, enqueued⟩ := same
  constructor
  · exact gate_of now.gate table
  · rw [table]; exact now.table
  · unfold Unwritten; rw [frames]; exact now.unwritten
  · rw [enqueued]; exact now.enqueued

theorem dropping_core (now : Dropping start w) (same : w'.core = w.core) : Dropping start w' :=
  dropping_of now (congrArg dropped same : dropped w'.core = dropped w.core)

theorem decoding_of (now : Decoding at_ start w) (same : dropped w' = dropped w)
    (resolved : w'.resolved = w.resolved) : Decoding at_ start w' := by
  refine ⟨dropping_of now.toDropping same, ?_⟩
  unfold Live
  rw [resolved]
  exact now.live

theorem decoding_core (now : Decoding at_ start w) (same : w'.core = w.core) : Decoding at_ start w' :=
  decoding_of now (congrArg dropped same : dropped w'.core = dropped w.core)
    (congrArg (·.resolved) same : w'.core.resolved = w.core.resolved)

theorem decoding_quiet : Quiet (Decoding : Reading K G) := fun _ _ w w' now same =>
  decoding_of now (congrArg dropped same : dropped (beyondOpening w') = dropped (beyondOpening w))
    (congrArg (·.resolved) same : (beyondOpening w').resolved = (beyondOpening w).resolved)

theorem decoding_windowless : Windowless (Decoding : Reading K G) := fun _ _ w w' now same =>
  decoding_of now (congrArg dropped same : dropped (beyondReplay w') = dropped (beyondReplay w))
    (congrArg (·.resolved) same : (beyondReplay w').resolved = (beyondReplay w).resolved)

theorem decoding_survives (site : AwaitPoint) : Survives (gating call) (Decoding : Reading K G) site :=
  fun _ _ _ now => ⟨⟨now.gate, now.onward, fun _ => ⟨.inl now.live, .inl now.unwritten⟩⟩,
    fun later gate => ⟨⟨gate, rfl, unwritten_refl later, rfl⟩, live_refl later⟩⟩

/-- A header of a live epoch leaves the reading as it is. -/
theorem decoding_resolved (now : Decoding at_ start w) (ref : Ref) (slot : Slot)
    (live : w.currentMinValidEpoch ≤ slot.epoch) :
    Decoding at_ start { w with resolved := w.resolved ++ [(ref, slot)] } := by
  obtain ⟨found, resolved, lives⟩ := now.live
  have valid : w.currentMinValidEpoch = start.currentMinValidEpoch := congrArg (·.2.2.1) now.table
  refine ⟨dropping_of now.toDropping rfl, found ++ [(ref, slot)], ?_, fun header member => ?_⟩
  · simp only [resolved, List.append_assoc]
  · rcases List.mem_append.mp member with old | new
    · exact lives header old
    · obtain rfl := List.mem_singleton.mp new
      exact valid ▸ live

/-- `decodeFrame` returns with headers of live epochs only; where it throws, it
has left the frames as they are. -/
theorem decodeFrame_gated (ref : Ref) (now : Decoding at_ start w) :
    Meets (gating call) (decodeFrame runtime ref)
      (fun _ start _ w => Gate w ∧ epochTable w = epochTable start ∧ Live start w)
      (fun _ start _ w => Dropping start w) at_ start w := by
  have ring : Keyring runtime (Decoding : Reading K G) := .any decoding_quiet
  simp only [decodeFrame, meets_bind, meets_read]
  split
  · exact ⟨now.gate, now.table, now.live⟩
  · rename_i payload stripped
    refine meets_after (resolveFormat_yields ring ref payload _ _ (decoding_survives _) (decoding_survives _) now)
      (fun at_ start resolved w now _ => ?_) fun _ _ _ _ now => now.toDropping
    simp only [meets_bind, meets_read]
    cases parseHeader (payload.drop resolved.1.prefixLen) with
    | error refused =>
      simp only [meets_bind, meets_update, meets_throw]
      exact dropping_core now.toDropping (core_failDecode _ _ _)
    | ok hdr =>
      simp only [meets_bind, meets_update, meets_tryCatch, meets_throw]
      by_cases stale : (w.kidCodec.decode hdr.kid).1 < w.currentMinValidEpoch
      · simp only [decodePayload, meets_bind, meets_read, if_pos stale, meets_update, meets_throw]
        refine dropping_core (dropping_core ?_ (Worker.core_emitMetric _ _)) (core_failDecode _ _ _)
        have noted (slot : Slot) : Dropping start { w with resolved := w.resolved ++ [(ref, slot)] } :=
          dropping_of now.toDropping rfl
        exact dropping_core (noted _) (core_reportDrop _ _ _ _ _)
      · have noted := decoding_resolved now ref ⟨_, (w.kidCodec.decode hdr.kid).2, hdr.ctr⟩
          (Int.not_lt.mp stale)
        refine meets_mono (decodePayload_ends ring decoding_windowless ref payload resolved.1 resolved.2 hdr
          (fun _ _ _ _ => decoding_survives _) noted) ?_ ?_
        · intro at_ start path w ended
          cases path with
          | passedThrough => exact ended.elim
          | parked =>
            obtain ⟨v, peerIndex, now, rfl⟩ := ended
            obtain ⟨kept, -, same⟩ := Worker.core_pushToQueue v ref peerIndex
            have queued : Decoding at_ start { v with preEpochQueue := kept ++ [ref] } := decoding_of now rfl rfl
            have parked := decoding_core queued same
            exact ⟨parked.gate, parked.table, parked.live⟩
          | opened format opened =>
            obtain ⟨-, -, v, slot, now, delivered⟩ := ended
            have table : epochTable w = epochTable (deliver v slot ref _) := epochTable_core delivered
            have resolved : w.resolved = v.resolved := congrArg (·.resolved) delivered
            refine ⟨gate_of now.gate table, table.trans now.table, ?_⟩
            unfold Live
            rw [resolved]
            exact now.live
        · exact fun _ _ refused w now => dropping_core now.toDropping (core_failDecode w _ refused)

theorem turned_of_dropping (now : Dropping start w) {status : Status AwaitPoint (Except JsError Outcome)}
    (rejected : Decodes call → Rejected call status) : Turned call start status w :=
  ⟨now.gate, now.onward, fun decodes =>
    ⟨.inr ⟨rejected decodes, now.unwritten, now.enqueued⟩, .inl now.unwritten⟩⟩

theorem turned_of_returned (gate : Gate w) (table : epochTable w = epochTable start) (live : Live start w)
    {status : Status AwaitPoint (Except JsError Outcome)} (returned : Returned status) :
    Turned call start status w :=
  ⟨gate, onward_of (Onward.refl start) table, fun _ => ⟨.inl live, .inr returned⟩⟩

/-- A pipe suspends when `decodeFrame` has returned, and drops what it threw on. -/
theorem decodeTransform_gated (frame : EncodedFrame) (ref : Ref) (now : Decoding at_ start w) :
    Meets (gating (.transform .decode frame)) (decodeTransform runtime ref)
      (fun _ start _ w => Turned (.transform .decode frame : Call K) start (.finished (.ok .done)) w)
      (fun _ _ _ _ => False) at_ start w := by
  refine meets_tryCatch.mpr (meets_bind.mpr (meets_mono (decodeFrame_gated ref now) ?_ ?_))
  · rintro at_ start path w ⟨gate, table, live⟩
    simp only [meets_bind, meets_read, meets_pause, meets_update]
    refine ⟨turned_of_returned gate table live ⟨_, rfl⟩, fun later gate => ?_⟩
    exact ⟨gate_of gate rfl, onward_of (Onward.refl later) rfl, fun _ => ⟨.inl (live_refl later), .inl fun _ _ => rfl⟩⟩
  · exact fun _ _ _ w dropping => turned_of_dropping dropping fun _ => trivial

/-- Every call turns as the gate demands. -/
theorem program_gated {call : Call K} (session : call ≠ .message .teardown) (gate : Gate w) :
    Meets (gating call) (call.program runtime)
      (fun _ start value w => Turned call start (.finished (.ok value)) w)
      (fun _ start refused w => Turned call start (.finished (.error refused)) w) { point := .start } w w := by
  have received (frame : EncodedFrame) : Decoding { point := .start } w (receiveFrame frame w) := by
    refine ⟨⟨gate_of gate rfl, rfl, fun ref below => ?_, rfl⟩, live_refl w⟩
    simp [receiveFrame, Nat.ne_of_lt below]
  by_cases decodes : Decodes call
  · cases call with
    | decodeFrame frame =>
      simp only [Call.program, receive, meets_bind, meets_read, meets_update, meets_pure]
      refine meets_mono (decodeFrame_gated _ (received frame)) ?_ ?_
      · rintro _ _ path _ ⟨gate, table, live⟩
        exact turned_of_returned gate table live ⟨path, rfl⟩
      · exact fun _ _ _ _ dropping => turned_of_dropping dropping fun _ => trivial
    | transform side frame =>
      cases side with
      | encode => exact decodes.elim
      | decode =>
        simp only [Call.program, receive, meets_bind, meets_read, meets_update, meets_pure]
        exact meets_mono (decodeTransform_gated frame _ (received frame)) (fun _ _ _ _ turned => turned)
          fun _ _ _ _ never => never.elim
    | message | wipeTimer | tick | encodeFrame | tryDecryptWithRatchet | drainPreEpochQueue => exact decodes.elim
  · have keeps : Yields (gating call) Keeping (call.program runtime) (fun _ => True) { point := .start } w w := by
      refine program_yields keeping_tabular.stocked (keeping_survives decodes) ⟨gate, Onward.refl w⟩ ?_ ?_ ?_
      · exact fun _ _ _ _ _ ok => gate_installEpoch gate ok
      · exact fun _ _ pending => gate_wipeEpoch gate pending runtime.guard
      · exact fun same => absurd same session
    refine meets_mono keeps ?_ ?_
    · exact fun _ _ _ _ kept => ⟨kept.1.1, kept.1.2, fun decoding => absurd decoding decodes⟩
    · exact fun _ _ _ _ kept => ⟨kept.1, kept.2, fun decoding => absurd decoding decodes⟩

/-! ## Runs -/

variable {ι : Type} [DecidableEq ι] {calls : ι → Call K} {first middle before after : WorkerPool ι K G}

/-- Every turn of a run is a turn that the gate demands. -/
theorem runs_turned (session : ∀ call, calls call ≠ .message .teardown)
    (run : Runs anyTurn (launch runtime Worker.createWorkerState calls) before) {call : ι}
    (taken : before.turn call = some after) :
    Turned (calls call) before.shared (after.statuses call) after.shared := by
  have turned := runs_moved (fun call => gating (calls call))
    (fun call _ start outcome w => Turned (calls call) start (.finished outcome) w) (fun w _ => Gate w)
    gate_created ?follows (fun _ _ _ _ gate _ _ _ => gate) ?preserves run taken trivial
  case follows =>
    refine launch_follows fun call w gate => ?_
    refine Contract.keeps_mono (program_gated (session call) gate) fun _ _ outcome _ turned => ?_
    cases outcome <;> exact turned
  case preserves =>
    intro before call at_ after _ _ _ _ moved
    generalize after.statuses call = reached at moved
    cases reached with
    | running => exact moved.elim
    | suspended next => exact moved.1
    | finished result => exact moved.1
  obtain ⟨site, -, -, -, moved⟩ := turned
  generalize after.statuses call = reached at moved
  cases reached with
  | running => exact moved.elim
  | suspended next => exact moved
  | finished result => exact moved

theorem runs_gate (session : ∀ call, calls call ≠ .message .teardown)
    (run : Runs anyTurn (launch runtime Worker.createWorkerState calls) before) : Gate before.shared := by
  cases run with
  | start => exact gate_created
  | turn earlier taken _ => exact (runs_turned session earlier taken).1

theorem runs_onward (session : ∀ call, calls call ≠ .message .teardown)
    (earlier : Runs anyTurn (launch runtime Worker.createWorkerState calls) middle)
    (later : Runs anyTurn middle before) : Onward middle.shared before.shared := by
  induction later with
  | start => exact Onward.refl _
  | turn further taken _ ih => exact ih.trans (runs_turned session (earlier.trans further) taken).2.1

theorem decodes_of_toDecode {call : Call K} {frame : EncodedFrame} (brought : toDecode call = some frame) :
    Decodes call := by
  cases call with
  | transform side _ =>
    cases side with
    | encode => cases brought
    | decode => trivial
  | decodeFrame => trivial
  | message | wipeTimer | tick | encodeFrame | tryDecryptWithRatchet | drainPreEpochQueue => cases brought

theorem unreturned_of_rejected {call : Call K} {status : Status AwaitPoint (Except JsError Outcome)}
    (rejected : Rejected call status) : Unreturned status := by
  unfold Rejected at rejected
  split at rejected
  · exact fun _ => nofun
  · exact fun _ => nofun
  · exact rejected.elim

/-- In every run without a teardown the current epoch and the lowest valid one
never go back, the gate stays at or below the current epoch, and the current
epoch is installed. From any state on, a call whose frame has a header below the
gate of that state drops the frame, whose object is as it came, and leaves all other
frames as they are, as it did in its turns before. -/
theorem stale_frames_rejected (session : ∀ call, calls call ≠ .message .teardown)
    (earlier : Runs anyTurn (launch runtime Worker.createWorkerState calls) middle)
    (later : Runs anyTurn middle before) :
    (middle.shared.currentEpoch ≤ before.shared.currentEpoch ∧
      middle.shared.currentMinValidEpoch ≤ before.shared.currentMinValidEpoch) ∧
    before.shared.currentMinValidEpoch ≤ max before.shared.currentEpoch 0 ∧
    (0 ≤ before.shared.currentEpoch → before.shared.epochs.has before.shared.currentEpoch = true) ∧
    ∀ call frame after, toDecode (calls call) = some frame → before.turn call = some after →
      (Unwritten before.shared after.shared ∨ Returned (after.statuses call)) ∧
      ∀ ref slot, after.shared.resolved = before.shared.resolved ++ [(ref, slot)] →
        slot.epoch < middle.shared.currentMinValidEpoch →
        Rejected (calls call) (after.statuses call) ∧ after.shared.frames.read ref = frame ∧
          Unwritten before.shared after.shared ∧ after.shared.enqueued = before.shared.enqueued := by
  have onward := runs_onward session earlier later
  have gate := runs_gate session (earlier.trans later)
  refine ⟨⟨onward.current, onward.valid⟩, gate.valid, gate.current, fun call frame after brought taken => ?_⟩
  have judged := (runs_turned session (earlier.trans later) taken).2.2 (decodes_of_toDecode brought)
  refine ⟨judged.unwritten, fun ref slot resolved stale => ?_⟩
  rcases judged.live with ⟨found, added, lives⟩ | ⟨rejected, unwritten, enqueued⟩
  · obtain rfl := List.append_cancel_left (resolved.symm.trans added)
    have live := lives (ref, slot) (List.mem_singleton_self _)
    exact absurd (stale.trans_le onward.valid) (Int.not_lt.mpr live)
  · have empty : ∀ ref ∈ (Worker.createWorkerState : Worker K G).preEpochQueue,
        ref < (Worker.createWorkerState : Worker K G).frames.next := fun _ never => by cases never
    obtain ⟨headers, added, intact⟩ := turn_intact empty (earlier.trans later) brought taken
      (unreturned_of_rejected rejected)
    obtain rfl := List.append_cancel_left (resolved.symm.trans added)
    exact ⟨rejected, intact (ref, slot) (List.mem_singleton_self _), unwritten, enqueued⟩

section Checked
open Specimen (sealedBy keyOf bundles)

/-- An epoch is replaced and wiped, and then one of its frames comes in. -/
def wiped : Fin 4 → Call Bytes
  | 0 => .message (.epoch 0 1 (bundles [7, 9]))
  | 1 => .message (.rotate 1 1 (bundles [8, 9]))
  | 2 => .wipeTimer 0
  | 3 => .decodeFrame { data := sealedBy (keyOf 0 0 7) 0 [1, 2, 3] }

theorem stale_frames_rejected_wiped : ∃ before after : WorkerPool (Fin 4) Bytes Unit,
    before.turn 3 = some after ∧ before.shared.currentMinValidEpoch = 1 ∧
      Rejected (wiped 3) (after.statuses 3) ∧
      (after.shared.frames.read 0).data = sealedBy (keyOf 0 0 7) 0 [1, 2, 3] := by
  have result : ((launch Specimen.runtime Worker.createWorkerState wiped).followPassing anyTurn [0, 1, 2, 3]).bind
      (fun before => (before.turn 3).map fun after =>
        (before.shared.currentMinValidEpoch, before.shared.resolved, after.shared.resolved)) =
      some (1, [], [(0, ⟨0, 0, 0⟩)]) := by
    decide +kernel
  obtain ⟨before, followed, turned⟩ := Option.bind_eq_some_iff.mp result
  obtain ⟨after, taken, logs⟩ := Option.map_eq_some_iff.mp turned
  simp only [Prod.mk.injEq] at logs
  obtain ⟨gate, none, one⟩ := logs
  have run := followPassing_runs followed
  have judged := (stale_frames_rejected (fun call => by fin_cases call <;> simp [wiped]) run .start).2.2.2 3 _ after
    rfl taken
  obtain ⟨rejected, intact, -⟩ := judged.2 0 ⟨0, 0, 0⟩ (by rw [none, one]; rfl) (by rw [gate]; decide)
  exact ⟨before, after, taken, gate, rejected, by rw [intact]⟩

end Checked

end SFrameRatchet.StaleGate
