import Mathlib.Tactic.FinCases
import SFrameRatchet.DecodeWalk
import SFrameRatchet.StreamRoundTrip

/-! What a teardown leaves of a session. It resets the worker but for the signal of
frames that could not be decoded and the flags of the drain, so what it leaves is the
worker of a new session when neither is set and no call under way has a frame to open. -/
namespace SFrameRatchet.SessionReset
open Collections Crypto Kid Header SFrame CodecPartial Throwing Coroutine Interleaving Media Worker Unsealing DecodeWalk

variable {K G : Type} {runtime : Runtime K G}

/-- A worker as created, with the configuration of this one. The objects that calls may
still refer to, the clock and what has been posted are no part of a session. -/
def refreshed (w : Worker K G) : Worker K G :=
  { (createWorkerState : Worker K G) with
    role := w.role, peerId := w.peerId, suite := w.suite, kidCodec := w.kidCodec
    codec := w.codec, sifTrailer := w.sifTrailer
    ratchetWindowSize := w.ratchetWindowSize, replayWindowSize := w.replayWindowSize
    metricsEnabled := w.metricsEnabled, preEpochQueueCap := w.preEpochQueueCap
    failureTolerance := w.failureTolerance
    toSurroundings := w.toSurroundings, toHistory := w.toHistory }

/-- Nothing of a session is left. -/
def Rested (w : Worker K G) : Prop := w = refreshed w

/-- No frame is counted as waiting for a key. -/
def Unstarved (w : Worker K G) : Prop :=
  w.starveActive = false ∧ w.starveSinceMs = 0 ∧ w.starveFramesDropped = 0 ∧ w.starveLastEmitMs = 0 ∧
    w.starvePeerIndex = none

/-- No drain is in progress, and none has been asked for. -/
def Undrained (w : Worker K G) : Prop := w.draining = false ∧ w.pendingDrain = false

variable {w w' start : Worker K G} {at_ : AwaitPoint}

/-- What a teardown resets is everything but the signal of starved frames and the flags of the drain. -/
theorem rested_teardown_iff : Rested w.teardown ↔ Unstarved w ∧ Undrained w := by
  constructor
  · intro rested
    have kept {α : Type} (field : Worker K G → α) : field w.teardown = field (refreshed w.teardown) :=
      congrArg field rested
    exact ⟨⟨kept (·.starveActive), kept (·.starveSinceMs), kept (·.starveFramesDropped), kept (·.starveLastEmitMs),
      kept (·.starvePeerIndex)⟩, kept (·.draining), kept (·.pendingDrain)⟩
  · rintro ⟨⟨active, since, dropped, last, peer⟩, draining, pending⟩
    calc w.teardown = { refreshed w.teardown with
          starveActive := w.starveActive, starveSinceMs := w.starveSinceMs
          starveFramesDropped := w.starveFramesDropped, starveLastEmitMs := w.starveLastEmitMs
          starvePeerIndex := w.starvePeerIndex, draining := w.draining, pendingDrain := w.pendingDrain } := rfl
      _ = refreshed w.teardown := by rw [active, since, dropped, last, peer, draining, pending]; rfl

/-- A frame dropped from a full queue is still counted after the teardown. -/
example : ¬ Rested ((({ createWorkerState with preEpochQueueCap := 1 } : Worker Unit Unit).pushToQueue 0
      none).pushToQueue
    1 none).teardown := by
  rw [rested_teardown_iff]
  rintro ⟨⟨active, -⟩, -⟩
  cases active

theorem rested_of (rested : Rested w) (same : w'.toWorkerState = w.toWorkerState) : Rested w' := by
  have state : w.toWorkerState = (refreshed w).toWorkerState := congrArg (·.toWorkerState) rested
  have own : (refreshed w').toWorkerState = (refreshed w).toWorkerState := by
    simp only [refreshed, same]
  have kept : w'.toWorkerState = (refreshed w').toWorkerState := same.trans (state.trans own.symm)
  calc w' = { w' with toWorkerState := w'.toWorkerState } := rfl
    _ = { w' with toWorkerState := (refreshed w').toWorkerState } := by rw [kept]
    _ = refreshed w' := rfl

theorem Rested.emitMetric (rested : Rested w) (event : MetricsEvent) : Rested (w.emitMetric event) := by
  apply rested_of rested
  unfold Worker.emitMetric
  split <;> rfl

theorem Rested.clearEncryptStarve (rested : Rested w) : Rested w.clearEncryptStarve := by
  have inactive : w.encryptStarveActive = false := congrArg (·.encryptStarveActive) rested
  unfold Worker.clearEncryptStarve
  rw [inactive]
  exact rested

/-! ## Calls under way -/

/-- A call that encodes a frame. -/
def Encoder : Call K → Prop
  | .encodeFrame _ | .transform .encode _ => True
  | _ => False

/-- A call that no session is part of. -/
def Timed : Call K → Prop
  | .wipeTimer _ | .tick _ => True
  | _ => False

theorem timed_encodes_nothing {call : Call K} (timed : Timed call) : ¬ Encoder call := by
  cases call with
  | wipeTimer epoch => exact id
  | tick elapsed => exact id
  | _ => cases timed

/-- What is left of the call leaves a worker alone that has nothing of a session: it waits
for its ciphertext or for its pipe, or it is a timer. -/
def Settling (call : Call K) (site : AwaitPoint) : Prop := Timed call ∨ ¬ Within site

/-- The key that a frame would be encoded with. -/
def selfKey (w : Worker K G) : Option (RatchetKey K) :=
  (w.epochs.get? w.currentEpoch).bind fun ref => (w.entries.read ref).keys.get? (w.entries.read ref).selfPeerIndex

/-- The key to encode with, if there is one, has a salt that IVs can be derived from. -/
def Salted (w : Worker K G) : Prop := ∀ key, selfKey w = some key → key.salt.length = ivBytes

def settling (call : Call K) : Contract AwaitPoint (Worker K G) where
  assume site w := site.point = .start → Encoder call → Salted w
  moves at_ start next w := Settling call at_ → Rested start → Rested w ∧ Settling call next

/-- Wherever the call leaves the worker alone, it has. -/
def Kept (call : Call K) : Reading K G := fun at_ start w => Settling call at_ → Rested start → Rested w

/-- The call has more to do than to leave the worker alone. -/
def Busy (call : Call K) : Reading K G := fun at_ _ _ => ¬ Settling call at_

variable {call : Call K}

theorem busy_undecoded : Undecoded (Busy call : Reading K G) := fun _ _ _ _ busy _ => busy

theorem busy_survives (untimed : ¬ Timed call) (site : AwaitPoint) (within : Within site) :
    Survives (settling call) (Busy call : Reading K G) site := by
  intro at_ start w busy
  exact ⟨fun settling => absurd settling busy, fun _ _ settling => settling.elim untimed (absurd within)⟩

/-! ## What each call does -/

theorem refreshed_idle (rested : Rested w) : w.currentEpoch = -1 ∧ w.wipeTimers = ∅ :=
  ⟨congrArg (·.currentEpoch) rested, congrArg (·.wipeTimers) rested⟩

theorem encodeFrame_settles (correct : runtime.crypto.Correct) (ref : Ref) (frameKind : Option FrameKind)
    (busy : ¬ Settling call at_) (salted : Salted w) :
    Meets (settling call) (Media.encodeFrame runtime ref frameKind) (fun at_ start _ w => Kept call at_ start w)
      (fun at_ _ _ _ => ¬ Settling call at_) at_ start w := by
  simp only [Media.encodeFrame, meets_bind, meets_read]
  split
  · exact busy
  · rename_i entry current
    split
    · exact busy
    · rename_i key held
      have salt : key.salt.length = ivBytes := salted key (by simp [selfKey, current, held])
      simp only [meets_bind, meets_update, meets_settle]
      split
      · rename_i header written
        obtain ⟨iv, derived⟩ : ∃ iv, deriveIv key.salt w.ctr = .ok iv := by simp [deriveIv, salt]
        refine meets_pause.mpr ⟨fun settling => absurd settling busy, fun later _ => ?_⟩
        obtain ⟨ct, -, wired⟩ := StreamRoundTrip.wireFrame_ok correct
          (n := min (getUnencryptedBytes w.codec frameKind) (w.frames.read ref).data.length)
          written (Nat.min_le_right _ _) derived w.sifTrailer
        rw [wired]
        intro _ rested
        refine Rested.clearEncryptStarve (Rested.emitMetric ?_ _)
        exact rested_of rested rfl
      · exact busy

/-- A pipe waits to pass its frame on, and then it does. -/
theorem enqueued_settles (side : Side) (ref : Ref) {site : AwaitPoint} (tail : ¬ Within site)
    (kept : Kept call at_ start w) :
    Meets (settling call) (do pause site; update (enqueueFrame side ref) : Task K G Unit)
      (fun at_ start _ w => Kept call at_ start w) (fun at_ _ _ _ => ¬ Settling call at_) at_ start w := by
  simp only [meets_bind, meets_pause, meets_update]
  exact ⟨fun settling rested => ⟨kept settling rested, .inr tail⟩, fun _ _ _ rested => rested_of rested rfl⟩

theorem encodeTransform_settles (correct : runtime.crypto.Correct) (ref : Ref) (frameKind : Option FrameKind)
    (busy : ¬ Settling call at_) (salted : Salted w) :
    Meets (settling call) (encodeTransform runtime ref frameKind) (fun at_ start _ w => Kept call at_ start w)
      (fun at_ _ _ _ => ¬ Settling call at_) at_ start w := by
  refine meets_tryCatch.mpr (meets_bind.mpr (meets_mono (encodeFrame_settles correct ref frameKind busy salted) ?_ ?_))
  · intro at_ start _ w kept
    refine meets_bind.mpr (meets_read.mpr ?_)
    exact meets_mono (enqueued_settles .encode ref (fun within => within) kept) (fun _ _ _ _ kept => kept)
      fun _ _ _ _ busy settling => absurd settling busy
  · exact fun _ _ _ _ busy settling => absurd settling busy

theorem decodeTransform_settles (untimed : ¬ Timed call) (ref : Ref) (busy : ¬ Settling call at_) :
    Meets (settling call) (decodeTransform runtime ref) (fun at_ start _ w => Kept call at_ start w)
      (fun at_ _ _ _ => ¬ Settling call at_) at_ start w := by
  have decoded : Yields (settling call) (Busy call) (decodeFrame runtime ref) (fun _ => True) at_ start w :=
    decodeFrame_yields busy_undecoded.ring busy_undecoded.walked (fun site within _ =>
      busy_survives untimed site within)
      trivial busy
  refine meets_tryCatch.mpr (meets_bind.mpr (meets_mono decoded ?_ ?_))
  · rintro at_ start _ w ⟨busy, -⟩
    refine meets_bind.mpr (meets_read.mpr ?_)
    exact meets_mono (enqueued_settles .decode ref (fun within => within) fun settling => absurd settling busy)
      (fun _ _ _ _ kept => kept) fun _ _ _ _ busy settling => absurd settling busy
  · exact fun _ _ _ _ busy settling => absurd settling busy

/-- A turn that ends the call. -/
def Settled (call : Call K) (at_ : AwaitPoint) (start : Worker K G) (_ : Except JsError Outcome) (w : Worker K G) :
    Prop := Kept call at_ start w

/-- What a call returns does not matter. -/
theorem settles_done {α : Type} {program : Task K G α} {outcome : α → Outcome}
    (kept : Meets (settling call) program (fun at_ start _ w => Kept call at_ start w)
      (fun at_ _ _ _ => ¬ Settling call at_) at_ start w) :
    (settling call).Keeps (program >>= fun value => Pure.pure (outcome value) : Task K G Outcome).run (Settled call)
      at_ start w := by
  apply keeps_of_meets
  simp only [meets_bind, meets_pure]
  exact meets_mono kept (fun _ _ _ _ kept => kept) fun _ _ _ _ busy settling => absurd settling busy

/-- A call with more to do than to leave the worker alone promises nothing. -/
theorem settles_busy {α : Type} {program : Task K G α} {outcome : α → Outcome} {returns : α → Prop}
    (busy : Yields (settling call) (Busy call) program returns at_ start w) :
    (settling call).Keeps (program >>= fun value => Pure.pure (outcome value) : Task K G Outcome).run (Settled call)
      at_ start w :=
  settles_done (meets_mono busy (fun _ _ _ _ held settling => absurd settling held.1) fun _ _ _ _ busy => busy)

theorem program_settles (correct : runtime.crypto.Correct) (call : Call K) {w : Worker K G}
    (salted : (settling call).assume { point := .start } w) :
    (settling call).Keeps (call.program runtime).run (Settled call) { point := .start } w w := by
  have survives (untimed : ¬ Timed call) (site : AwaitPoint) (within : Within site)
      (_ : ∀ ref, site.frame = some ref → True) := @busy_survives K G call untimed site within
  have busy (untimed : ¬ Timed call) : ¬ Settling call { point := .start } :=
    fun settling => settling.elim untimed (absurd trivial)
  have ring : Keyring runtime (Busy call : Reading K G) := busy_undecoded.ring
  have walked : Walked (Busy call : Reading K G) fun _ => True := busy_undecoded.walked
  cases call with
  | message msg =>
    exact settles_busy (handleMessage_yields ring walked (survives id) (fun _ _ _ _ busy _ => busy) (busy id)
      (fun _ _ _ _ _ _ => busy id) fun _ => busy id)
  | wipeTimer epoch =>
    apply settles_done
    unfold fireWipeTimer
    simp only [meets_bind, meets_read]
    split
    · rename_i pending
      intro _ rested
      rw [(refreshed_idle rested).2] at pending
      cases pending
    · exact fun _ rested => rested
  | tick elapsed => exact settles_done fun _ rested => rested_of rested rfl
  | transform side frame =>
    cases side with
    | encode => exact settles_done (encodeTransform_settles correct _ _ (busy id) (salted rfl trivial))
    | decode => exact settles_done (decodeTransform_settles id _ (busy id))
  | encodeFrame frame => exact settles_done (encodeFrame_settles correct _ _ (busy id) (salted rfl trivial))
  | decodeFrame frame => exact settles_busy (decodeFrame_yields ring walked (survives id) trivial (busy id))
  | tryDecryptWithRatchet opening =>
    exact settles_busy (tryDecryptWithRatchet_yields ring (fun _ => survives id _ (by trivial) fun _ _ => trivial)
      opening (busy id))
  | drainPreEpochQueue => exact settles_busy (drainPreEpochQueue_yields ring walked (survives id) (busy id))

/-! ## Runs -/

section Runs
variable {ι : Type} [DecidableEq ι] {calls : ι → Call K}

/-- Frames are encoded under salts that IVs can be derived from. -/
def saltsWell (calls : ι → Call K) : WorkerPool ι K G → ι → WorkerPool ι K G → Prop := fun before call _ =>
  ∀ site, before.statuses call = .suspended site → site.point = .start → Encoder (calls call) → Salted before.shared

/-- Calls under way go on, timers fire and time passes. -/
def inFlight (calls : ι → Call K) : WorkerPool ι K G → ι → WorkerPool ι K G → Prop := fun before call _ =>
  Timed (calls call) ∨ ∀ site, before.statuses call = .suspended site → site.point ≠ .start

/-- No session is left to disturb: no starvation to signal, no drain, and no call with a frame to open. -/
structure Quiet (calls : ι → Call K) (pool : WorkerPool ι K G) : Prop where
  unstarved : Unstarved pool.shared
  undrained : Undrained pool.shared
  settling : ∀ call site, pool.statuses call = .suspended site → site.point = .start ∨ Settling (calls call) site

theorem runs_settling (correct : runtime.crypto.Correct) {last : WorkerPool ι K G}
    (runs : Runs (saltsWell calls) (launch runtime createWorkerState calls) last) (call : ι) :
    Follows (settling (calls call)) (Settled (calls call)) (last.calls call) :=
  (runs_follow (fun call => settling (calls call)) (fun call => Settled (calls call)) (fun _ _ => True) trivial
    (launch_follows fun call _ salted => program_settles correct (calls call) salted)
    (fun _ _ site _ _ waits _ well => well site waits) (fun _ _ _ _ _ _ _ _ _ => trivial) runs).2 call

/-- A teardown is over in one turn, which resets the worker it finds. -/
def tearing (call : Call K) : Contract AwaitPoint (Worker K G) where
  assume _ _ := True
  moves _ _ _ _ := call ≠ .message .teardown

def Torn (call : Call K) (_ : AwaitPoint) (start : Worker K G) (outcome : Except JsError Outcome) (w : Worker K G) :
    Prop := call = .message .teardown → outcome = .ok .done ∧ w = start.teardown

omit [DecidableEq ι] in
theorem program_tears (call : Call K) (w : Worker K G) :
    (tearing call).Keeps (call.program runtime).run (Torn call) { point := .start } w w := by
  by_cases torn : call = .message .teardown
  · subst torn
    exact fun _ => ⟨rfl, rfl⟩
  · exact Contract.keeps_always (fun _ _ _ _ => torn) fun _ _ _ _ same => absurd same torn

theorem runs_torn {last after : WorkerPool ι K G} {call : ι} (torn : calls call = .message .teardown)
    {gate : WorkerPool ι K G → ι → WorkerPool ι K G → Prop}
    (runs : Runs gate (launch runtime createWorkerState calls) last) (taken : last.turn call = some after) :
    after.shared = last.shared.teardown ∧ after.statuses call = .finished (.ok .done) ∧
      ∀ other, other ≠ call → after.calls other = last.calls other := by
  have follows : Follows (tearing (calls call)) (Torn (calls call)) (last.calls call) :=
    (runs_follow (fun call => tearing (calls call)) (fun call => Torn (calls call)) (fun _ _ => True) trivial
      (launch_follows fun call state _ => program_tears (calls call) state) (fun _ _ _ _ _ _ _ _ => trivial)
      (fun _ _ _ _ _ _ _ _ _ => trivial) runs).2 call
  obtain ⟨site, waits, moved, -, -, others⟩ := @turn_moves _ _ _ _ _ (fun call => tearing (calls call))
    (fun call => Torn (calls call)) _ _ _ follows (fun _ _ => trivial) taken
  cases status : after.statuses call with
  | running => rw [status] at moved; exact moved.elim
  | suspended next => rw [status] at moved; exact absurd torn moved
  | finished outcome =>
    rw [status] at moved
    obtain ⟨rfl, reset⟩ := moved torn
    exact ⟨reset, rfl, others⟩

/-- What is under way when a quiet session is torn down leaves the worker alone. -/
theorem settling_rests {first last : WorkerPool ι K G}
    (follows : ∀ call, Follows (settling (calls call)) (Settled (calls call)) (first.calls call))
    (rested : Rested first.shared)
    (tails : ∀ call site, first.statuses call = .suspended site → site.point = .start ∨ Settling (calls call) site)
    (runs : Runs (inFlight calls) first last) : Rested last.shared := by
  refine (runs_invariant (fun call => settling (calls call)) (fun call => Settled (calls call))
    (fun shared statuses => Rested shared ∧
      ∀ call site, statuses call = .suspended site → site.point = .start ∨ Settling (calls call) site)
    ⟨rested, tails⟩ follows ?_ ?_ runs).1
  · rintro before call site after - waits - (timed | begun) initial encoder
    · exact absurd encoder (timed_encodes_nothing timed)
    · exact absurd initial (begun site waits)
  · rintro before call site after ⟨rested, tails⟩ waits passes - moved
    have settles : Settling (calls call) site := by
      rcases passes with timed | begun
      · exact .inl timed
      · exact (tails call site waits).resolve_left (begun site waits)
    cases status : after.statuses call with
    | running => rw [status] at moved; exact moved.elim
    | suspended next =>
      rw [status] at moved
      obtain ⟨rested, onward⟩ := moved settles rested
      refine ⟨rested, fun other place suspended => ?_⟩
      by_cases same : other = call
      · subst same
        rw [Function.update_self] at suspended
        cases suspended
        exact .inr onward
      · rw [Function.update_of_ne same] at suspended
        exact tails other place suspended
    | finished outcome =>
      rw [status] at moved
      refine ⟨moved settles rested, fun other place suspended => ?_⟩
      by_cases same : other = call
      · subst same
        rw [Function.update_self] at suspended
        cases suspended
      · rw [Function.update_of_ne same] at suspended
        exact tails other place suspended

/-- **A teardown ends a quiet session.** From then on, whatever was under way does, the
worker is the one of a new session under the same configuration. -/
theorem teardown_resets (correct : runtime.crypto.Correct) (calls : ι → Call K) {before after last : WorkerPool ι K G}
    {call : ι} (runs : Runs (saltsWell calls) (launch runtime createWorkerState calls) before)
    (quiet : Quiet calls before) (torn : calls call = .message .teardown) (taken : before.turn call = some after)
    (onward : Runs (inFlight calls) after last) : last.shared = refreshed last.shared := by
  obtain ⟨reset, ended, others⟩ := runs_torn torn runs taken
  have status (other : ι) (different : other ≠ call) : after.statuses other = before.statuses other :=
    congrArg Proc.status (others other different)
  refine settling_rests (fun other => ?_) ?_ (fun other site waits => ?_) onward
  · by_cases same : other = call
    · subst same
      cases left : after.calls other with
      | pure outcome => trivial
      | act update next => simp [Pool.statuses, left, Proc.status] at ended
      | await site ready rest => simp [Pool.statuses, left, Proc.status] at ended
    · rw [others other same]
      exact runs_settling correct runs other
  · rw [reset]
    exact rested_teardown_iff.mpr ⟨quiet.unstarved, quiet.undrained⟩
  · by_cases same : other = call
    · subst same
      rw [ended] at waits
      cases waits
    · exact quiet.settling other site ((status other same).symm.trans waits)

end Runs

/-! ## Sessions on the specimen runtime -/

section Checked
open Specimen

/-- Where a call waits. -/
def siteOf : Status AwaitPoint (Except JsError Outcome) → Option AwaitPoint
  | .suspended site => some site
  | _ => none

theorem suspended_of_siteOf {status : Status AwaitPoint (Except JsError Outcome)} {site : AwaitPoint}
    (waits : siteOf status = some site) : status = .suspended site := by
  cases status with
  | suspended place => exact congrArg Status.suspended (Option.some.inj waits)
  | running => cases waits
  | finished outcome => cases waits

/-- A frame whose format is being looked for when the session is torn down. -/
def decodedAcross : Fin 2 → Call Bytes
  | 0 => .decodeFrame { data := [3] }
  | 1 => .message .teardown

/-- The decode parks its frame in the queue that the teardown has emptied. -/
theorem decode_outlives_teardown : ¬ ∀ (before after last : WorkerPool (Fin 2) Bytes Unit) (call : Fin 2),
    Runs anyTurn (launch Specimen.runtime createWorkerState decodedAcross) before →
    before.turn call = some after → decodedAcross call = .message .teardown → Runs (inFlight decodedAcross) after last →
    (∀ call site, last.statuses call ≠ .suspended site) → last.shared = refreshed last.shared := by
  intro resets
  have result : ((launch Specimen.runtime createWorkerState decodedAcross).followPassing anyTurn [0]).bind
      (fun before => (before.turn 1).bind fun after => (after.turn 0).map fun last =>
        (siteOf (after.statuses 0), last.shared.preEpochQueue, siteOf (last.statuses 0), siteOf (last.statuses 1))) =
      some (some { point := .probed, frame := some 0, payload := some [3] }, [0], none, none) := by
    decide +kernel
  obtain ⟨before, followed, turned⟩ := Option.bind_eq_some_iff.mp result
  obtain ⟨after, torn, resumed⟩ := Option.bind_eq_some_iff.mp turned
  obtain ⟨last, taken, shape⟩ := Option.map_eq_some_iff.mp resumed
  simp only [Prod.mk.injEq] at shape
  obtain ⟨waits, parked, first, second⟩ := shape
  have begun : inFlight decodedAcross after 0 last := by
    refine .inr fun site waiting => ?_
    rw [suspended_of_siteOf waits] at waiting
    cases waiting
    decide
  have reset := resets before after last 1 (followPassing_runs followed) torn rfl (.turn .start taken begun)
    (fun call site waiting => by
      fin_cases call
      · cases first.symm.trans (congrArg siteOf waiting)
      · cases second.symm.trans (congrArg siteOf waiting))
  have emptied : last.shared.preEpochQueue = [] := congrArg (·.preEpochQueue) reset
  rw [parked] at emptied
  cases emptied

/-- A frame that waits for its ciphertext when the session is torn down. -/
def encodedAcross : Fin 3 → Call Bytes
  | 0 => .message (.epoch 0 0 (bundles [7]))
  | 1 => .transform .encode { data := [3] }
  | 2 => .message .teardown

instance (w : Worker Bytes Unit) : Decidable (Unstarved w) := inferInstanceAs (Decidable (_ ∧ _))

instance (w : Worker Bytes Unit) : Decidable (Undrained w) := inferInstanceAs (Decidable (_ ∧ _))

theorem teardown_resets_encoding : ∃ before after last : WorkerPool (Fin 3) Bytes Unit,
    before.statuses 1 = .suspended { point := .seal, frame := some 0 } ∧ before.turn 2 = some after ∧
      Runs (inFlight encodedAcross) after last ∧ last.shared.enqueued.length = 1 ∧
        last.shared = refreshed last.shared := by
  have result : ((launch Specimen.runtime createWorkerState encodedAcross).turn 0).bind (fun one =>
      (one.turn 1).bind fun before => (before.turn 2).bind fun after => (after.turn 1).bind fun resumed =>
        (resumed.turn 1).map fun last => decide
          ((selfKey one.shared).map (·.salt.length) = some 12 ∧ (Unstarved before.shared ∧ Undrained before.shared) ∧
            siteOf (before.statuses 0) = none ∧ siteOf (before.statuses 1) = some { point := .seal, frame := some 0 } ∧
            siteOf (before.statuses 2) = some { point := .start } ∧
            (siteOf (after.statuses 1)).map (·.point) = some .seal ∧
            (siteOf (resumed.statuses 1)).map (·.point) ≠ some .start ∧ last.shared.enqueued.length = 1)) =
              some true := by
    decide +kernel
  obtain ⟨one, installs, result⟩ := Option.bind_eq_some_iff.mp result
  obtain ⟨before, begins, result⟩ := Option.bind_eq_some_iff.mp result
  obtain ⟨after, torn, result⟩ := Option.bind_eq_some_iff.mp result
  obtain ⟨resumed, resumes, result⟩ := Option.bind_eq_some_iff.mp result
  obtain ⟨last, ends, shape⟩ := Option.map_eq_some_iff.mp result
  obtain ⟨salt, ⟨unstarved, undrained⟩, settled, seals, begun, sealing, enqueues, sent⟩ := of_decide_eq_true shape
  have installed : Runs (saltsWell encodedAcross) (launch Specimen.runtime createWorkerState encodedAcross) one :=
    .turn .start installs fun _ _ _ encoder => encoder.elim
  have ran : Runs (saltsWell encodedAcross) (launch Specimen.runtime createWorkerState encodedAcross) before := by
    refine .turn installed begins fun _ _ _ _ key own => ?_
    rw [own] at salt
    exact Option.some.inj salt
  have quiet : Quiet encodedAcross before := by
    refine ⟨unstarved, undrained, fun call site waits => ?_⟩
    fin_cases call
    · cases settled.symm.trans (congrArg siteOf waits)
    · cases seals.symm.trans (congrArg siteOf waits)
      exact .inr (.inr id)
    · cases begun.symm.trans (congrArg siteOf waits)
      exact .inl rfl
  have onward : Runs (inFlight encodedAcross) after last := by
    refine .turn (.turn .start resumes ?_) ends ?_
    · refine .inr fun site waits initial => ?_
      rw [waits] at sealing
      cases (Option.some.inj sealing).symm.trans initial
    · refine .inr fun site waits initial => enqueues ?_
      rw [waits]
      exact congrArg some initial
  exact ⟨before, after, last, suspended_of_siteOf seals, torn, onward, sent,
    teardown_resets Specimen.crypto_correct encodedAcross ran quiet rfl torn onward⟩

end Checked
end SFrameRatchet.SessionReset
