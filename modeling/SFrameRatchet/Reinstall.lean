import SFrameRatchet.AlikeWorkers
import SFrameRatchet.EpochTable
import SFrameRatchet.SoloDecoding
import SFrameRatchet.Specimen

/-! An epoch message that comes once more. Installing replaces the whole entry,
ratcheted keys and cursors included, so the second message goes unnoticed as
long as the entry is still the one the first has made. -/
namespace SFrameRatchet.Reinstall
open Collections Crypto Kid Header SFrame CodecPartial Throwing Coroutine Interleaving SideBySide Media EpochTable
  AlikeWorkers

variable {K G : Type} (runtime : Runtime K G)

/-- A frame that arrives to be encoded or decoded. -/
structure FrameCall where
  side : Side
  frame : EncodedFrame

def FrameCall.call (frameCall : FrameCall) : Call K :=
  match frameCall.side with
  | .encode => .encodeFrame frameCall.frame
  | .decode => .decodeFrame frameCall.frame

/-- What a sequence of calls comes to, one after the other: the outcome of each
and the bytes it leaves in its frame. -/
def outcomes : List FrameCall → Worker K G → Option (List (Except JsError Outcome × Bytes))
  | [], _ => some []
  | frameCall :: rest, w => do
    let (outcome, later) ← alone (frameCall.call.program runtime) w
    let others ← outcomes rest later
    return (outcome, (later.frames.read w.frames.next).data) :: others

section Continuing
variable {ι : Type} [DecidableEq ι]

/-- A call that has begun and not ended. -/
def underWay : Status AwaitPoint (Except JsError Outcome) → Bool
  | .suspended site => site ≠ { point := .start }
  | _ => false

/-- What a sequence of calls may come to after a run: the outcome of each and the bytes it
leaves in its frame. The calls of the run that are under way go on between them. -/
inductive Continues : WorkerPool ι K G → List FrameCall → List (Except JsError Outcome × Bytes) → Prop where
  | ended : Continues pool [] []
  | turn {call : ι} (goes : underWay (pool.statuses call) = true) (taken : pool.turn call = some next)
      (later : Continues next frames results) : Continues pool frames results
  | frame (ran : alone (frameCall.call.program runtime) pool.shared = some (outcome, w))
      (later : Continues { pool with shared := w } rest results) :
      Continues pool (frameCall :: rest) ((outcome, (w.frames.read pool.shared.frames.next).data) :: results)

/-- A message is delivered, and changes nothing for the frames that come later. -/
def Unnoticed (pool : WorkerPool ι K G) (msg : InMsg K) : Prop :=
  ∃ delivered, alone (handleMessage runtime msg) pool.shared = some (.ok (), delivered) ∧
    ∀ frames results, Continues runtime { pool with shared := delivered } frames results ↔
      Continues runtime pool frames results

/-- No call is under way. -/
def Settled (pool : WorkerPool ι K G) : Prop := ∀ call, underWay (pool.statuses call) = false

end Continuing

/-- The entry that a message with these bundles installs. -/
def givenEntry (w : Worker K G) (epoch selfPeerIndex : ℤ) (bundles : KeyBundles K) : Option (EpochEntry K) :=
  (Worker.installKeys w.kidCodec epoch bundles.entries ∅).toOption.map fun keys =>
    { epoch, selfPeerIndex, keys, ratchetSteps := ∅ }

/-- The entry of an epoch is the one that its bundles give: no key of it has been
ratcheted, and key identifiers are laid out as they were. -/
def AsInstalled (w : Worker K G) (epoch selfPeerIndex : ℤ) (bundles : KeyBundles K) : Prop :=
  ∃ entry, entryOf w epoch = some entry ∧ givenEntry w epoch selfPeerIndex bundles = some entry

/-- A frame names no sender with a key, wherever its header is looked for. -/
def Keyless (w : Worker K G) (frame : Ref) : Prop :=
  ∀ n hdr, parseHeader ((w.frames.read frame).data.drop n) = .ok hdr →
    w.cachedKey (w.kidCodec.decode hdr.kid).1 (w.kidCodec.decode hdr.kid).2 = none

/-- There is nothing to open in the pre-epoch queue, or somebody is at it. -/
def QueueKeyless (w : Worker K G) : Prop := w.draining = true ∨ ∀ frame ∈ w.preEpochQueue, Keyless w frame

variable {runtime} {w w' v : Worker K G}

/-! ## Where no call is under way -/

section Settled
variable {ι : Type} [DecidableEq ι] {pool : WorkerPool ι K G} {frames : List FrameCall}
  {results : List (Except JsError Outcome × Bytes)}

theorem outcomes_of_continues (settled : Settled pool) (continues : Continues runtime pool frames results) :
    outcomes runtime frames pool.shared = some results := by
  induction continues with
  | ended => rfl
  | turn goes =>
    rw [settled] at goes
    cases goes
  | frame ran _ ih =>
    have others := ih settled
    dsimp only at others
    simp only [outcomes, Option.bind_eq_bind, ran, Option.bind_some, others]
    rfl

theorem continues_of_outcomes (came : outcomes runtime frames pool.shared = some results) :
    Continues runtime pool frames results := by
  induction frames generalizing pool results with
  | nil =>
    cases came
    exact .ended
  | cons frameCall rest ih =>
    obtain ⟨⟨outcome, w⟩, ran, came⟩ := Option.bind_eq_some_iff.mp came
    obtain ⟨others, later, came⟩ := Option.bind_eq_some_iff.mp came
    cases came
    have further : Continues runtime { pool with shared := w } rest others := ih later
    exact .frame ran further

theorem continues_iff (settled : Settled pool) :
    Continues runtime pool frames results ↔ outcomes runtime frames pool.shared = some results :=
  ⟨outcomes_of_continues settled, continues_of_outcomes⟩

end Settled

/-! ## Alike workers give the same outcomes -/

theorem receive_inStep (frame : EncodedFrame) (alike : Alike w w') :
    InStep Alike (receive frame : Task K G Ref) (receive frame) w w' := by
  have frames := alike.field (·.frames) fun _ => rfl
  apply inStep_read
  rw [frames]
  refine inStep_bind (inStep_change alike (fun _ => rfl) fun _ => ⟨rfl, rfl, rfl, rfl⟩) fun _ _ _ alike => ?_
  exact inStep_pure alike _

variable (runtime) in
theorem frameCall_inStep (frameCall : FrameCall) (alike : Alike w w') :
    InStep Alike (frameCall.call.program runtime) (frameCall.call.program runtime) w w' := by
  obtain ⟨side, frame⟩ := frameCall
  cases side with
  | encode =>
    refine inStep_bind (receive_inStep frame alike) fun ref _ _ alike => ?_
    exact inStep_bind (encodeFrame_inStep ref _ alike) fun _ _ _ alike => inStep_pure alike _
  | decode =>
    refine inStep_bind (receive_inStep frame alike) fun ref _ _ alike => ?_
    exact inStep_bind (decodeFrame_inStep ref alike) fun _ _ _ alike => inStep_pure alike _

theorem outcomes_alike (frames : List FrameCall) (alike : Alike w w') :
    outcomes runtime frames w' = outcomes runtime frames w := by
  induction frames generalizing w w' with
  | nil => rfl
  | cons frameCall rest ih =>
    have next := alike.field (·.frames) fun _ => rfl
    have both := frameCall_inStep runtime frameCall alike
    unfold InStep Lockstep at both
    simp only [outcomes]
    rcases ran : alone (frameCall.call.program runtime) w with _ | ⟨outcome, last⟩ <;>
      rcases ran' : alone (frameCall.call.program runtime) w' with _ | ⟨outcome', last'⟩ <;>
      simp only [ran, ran'] at both
    · rfl
    · obtain ⟨rfl, alike⟩ := both
      have frames := alike.field (·.frames) fun _ => rfl
      simp only [Option.bind_eq_bind, Option.bind_some, ih alike, frames, next]

/-! ## A drain without keys -/

/-- What has changed is signals; these frames may have gone back to the queue. -/
structure Requeued (frames : List Ref) (w v : Worker K G) : Prop where
  signalled : Signalled w v
  queue : ∀ frame ∈ v.preEpochQueue, frame ∈ w.preEpochQueue ∨ frame ∈ frames
  draining : v.draining = w.draining
  pendingDrain : v.pendingDrain = w.pendingDrain

theorem keyless_of (signalled : Signalled w v) {frame : Ref} (keyless : Keyless w frame) : Keyless v frame := by
  have frames := signalled.field (·.frames) fun _ => rfl
  have codec := signalled.field (·.kidCodec) fun _ => rfl
  unfold Keyless Worker.cachedKey
  rw [frames, codec, signalled.epochs, signalled.entries]
  exact keyless

theorem requeued_refl (w : Worker K G) : Requeued [] w w :=
  ⟨signalled_refl w, fun _ member => .inl member, rfl, rfl⟩

theorem Requeued.append {first second : List Ref} {u : Worker K G} (earlier : Requeued first w v)
    (later : Requeued second v u) : Requeued (first ++ second) w u where
  signalled := earlier.signalled.trans later.signalled
  queue frame member := by
    rw [List.mem_append]
    rcases later.queue frame member with held | again
    · exact (earlier.queue frame held).imp_right .inl
    · exact .inr (.inr again)
  draining := later.draining.trans earlier.draining
  pendingDrain := later.pendingDrain.trans earlier.pendingDrain

theorem requeued_pushToQueue (w : Worker K G) (frame : Ref) (peerIndex : Option ℤ) :
    Requeued [frame] w (w.pushToQueue frame peerIndex) := by
  obtain ⟨kept, sublist, same⟩ := Worker.core_pushToQueue w frame peerIndex
  have queue : (w.pushToQueue frame peerIndex).preEpochQueue = kept ++ [frame] :=
    (congrArg (·.preEpochQueue) same : (w.pushToQueue frame peerIndex).core.preEpochQueue = _)
  have draining : (w.pushToQueue frame peerIndex).draining = w.draining :=
    (congrArg (·.draining) same : (w.pushToQueue frame peerIndex).core.draining = _)
  have pending : (w.pushToQueue frame peerIndex).pendingDrain = w.pendingDrain :=
    (congrArg (·.pendingDrain) same : (w.pushToQueue frame peerIndex).core.pendingDrain = _)
  refine ⟨signalled_pushToQueue w frame peerIndex, fun other member => ?_, draining, pending⟩
  rw [queue] at member
  exact (List.mem_append.mp member).imp_left fun held => sublist.subset held

/-- With an unlimited tolerance the drain's failures count for nothing. -/
theorem requeued_failDrain (tolerant : w.failureTolerance < 0) (err : JsError) :
    Requeued [] w (failDrain w err) := by
  have uncounted (epoch peerIndex : ℤ) : w.recordFailure epoch peerIndex = w := by
    unfold Worker.recordFailure
    rw [if_pos tolerant]
  have posted (msg : OutMsg) : Requeued [] w (w.emit msg) :=
    ⟨signalled_emit w msg, fun _ member => .inl member, rfl, rfl⟩
  unfold failDrain
  dsimp only
  split
  · rw [uncounted]
    exact posted _
  · rw [uncounted]
    exact posted _
  · exact posted _

section Passes
variable (runtime)

/-- A frame that no key can open goes back to the queue, or is dropped. -/
theorem drainFrame_keyless (tolerant : w.failureTolerance < 0) {frame : Ref} (keyless : Keyless w frame) :
    ∃ v, alone (drainFrame runtime frame) w = some (.ok (), v) ∧ Requeued [frame] w v := by
  have dropped {v : Worker K G} (requeued : Requeued [] w v) : Requeued [frame] w v :=
    requeued.append ⟨signalled_refl v, fun _ member => .inl member, rfl, rfl⟩
  cases parsed : parseHeader ((w.frames.read frame).data.drop
      (SoloDecoding.formatOf runtime w frame (w.frames.read frame).data).1.prefixLen) with
  | error refused =>
    exact ⟨_, SoloDecoding.alone_drainFrame_unparsed rfl parsed, dropped (requeued_failDrain tolerant refused)⟩
  | ok hdr =>
    have missing := keyless _ hdr parsed
    rw [SoloDecoding.alone_drainFrame rfl parsed]
    by_cases stale : (SoloDecoding.slotOf w hdr).epoch < w.currentMinValidEpoch
    · rw [(SoloDecoding.drainPayload_stale stale).1]
      exact ⟨w, rfl, dropped (requeued_refl w)⟩
    · rw [SoloDecoding.drainPayload_requeues stale missing]
      exact ⟨_, rfl, requeued_pushToQueue w frame _⟩

theorem drainFrames_keyless (frames : List Ref) (tolerant : w.failureTolerance < 0)
    (keyless : ∀ frame ∈ frames, Keyless w frame) :
    ∃ v, alone (drainFrames runtime frames) w = some (.ok (), v) ∧ Requeued frames w v := by
  induction frames generalizing w with
  | nil => exact ⟨w, rfl, requeued_refl w⟩
  | cons frame rest ih =>
    obtain ⟨v, first, requeued⟩ := drainFrame_keyless runtime tolerant
      (keyless frame List.mem_cons_self)
    have tolerance := requeued.signalled.field (·.failureTolerance) fun _ => rfl
    obtain ⟨u, others, further⟩ := ih (tolerance ▸ tolerant) fun other member =>
      keyless_of requeued.signalled (keyless other (List.mem_cons_of_mem _ member))
    refine ⟨u, ?_, requeued.append further⟩
    simp only [drainFrames, alone_bind, first, Option.bind_some, others]

/-- One pass, when nobody has asked for another. -/
theorem drainPasses_once (patience : ℕ) (tolerant : w.failureTolerance < 0) (idle : w.draining = false)
    (keyless : ∀ frame ∈ w.preEpochQueue, Keyless w frame) :
    ∃ v, Signalled w v ∧ v.draining = false ∧ v.pendingDrain = w.pendingDrain ∧
      (∀ frame ∈ v.preEpochQueue, Keyless v frame) ∧
      alone (drainPasses runtime (patience + 1)) w =
        if w.pendingDrain then alone (drainPasses runtime patience) { v with pendingDrain := false }
        else some (.ok (), v) := by
  have taken : Signalled w { w with draining := true, preEpochQueue := [] } := ⟨rfl, rfl, rfl, rfl⟩
  obtain ⟨u, drained, requeued⟩ := drainFrames_keyless runtime w.preEpochQueue
    (w := { w with draining := true, preEpochQueue := [] }) tolerant
    fun frame member => keyless_of taken (keyless frame member)
  have signalled : Signalled w { u with draining := false } :=
    (taken.trans requeued.signalled).trans ⟨rfl, rfl, rfl, rfl⟩
  refine ⟨{ u with draining := false }, signalled, rfl, requeued.pendingDrain, fun frame member => ?_, ?_⟩
  · refine keyless_of signalled (keyless frame ?_)
    exact (requeued.queue frame member).resolve_left List.not_mem_nil
  · have pending : u.pendingDrain = w.pendingDrain := requeued.pendingDrain
    simp only [drainPasses, alone_bind, alone_read, Option.bind_some, idle, Bool.false_eq_true, ↓reduceIte,
      alone_update, drained, pending]
    split
    · simp only [alone_bind, alone_update, Option.bind_some]
    · rfl

end Passes

theorem drainPreEpochQueue_keyless (patient : 2 ≤ runtime.patience) (tolerant : w.failureTolerance < 0)
    (keyless : QueueKeyless w) :
    ∃ v, alone (drainPreEpochQueue runtime) w = some (.ok (), v) ∧ Signalled w v := by
  obtain ⟨patience, same⟩ := Nat.exists_eq_add_of_le' patient
  unfold drainPreEpochQueue
  rw [same]
  cases busy : w.draining with
  | true =>
    refine ⟨{ w with pendingDrain := true }, ?_, ⟨rfl, rfl, rfl, rfl⟩⟩
    simp only [drainPasses, alone_bind, alone_read, Option.bind_some, busy, ↓reduceIte, alone_update]
  | false =>
    have waiting := keyless.resolve_left (by simp [busy])
    obtain ⟨v, signalled, idle, pending, left, pass⟩ := drainPasses_once runtime (patience + 1)
      tolerant busy waiting
    cases again : w.pendingDrain with
    | false =>
      rw [again] at pass
      exact ⟨v, pass, signalled⟩
    | true =>
      have noted : Signalled v { v with pendingDrain := false } := ⟨rfl, rfl, rfl, rfl⟩
      have tolerance := signalled.field (·.failureTolerance) fun _ => rfl
      obtain ⟨u, further, -, -, -, second⟩ := drainPasses_once runtime patience
        (w := { v with pendingDrain := false }) (tolerance ▸ tolerant) idle
        fun frame member => keyless_of noted (left frame member)
      rw [again, if_pos rfl] at pass
      refine ⟨u, pass.trans second, (signalled.trans noted).trans further⟩

/-! ## Entries of their own -/

/-- Every installed epoch has an entry of its own, made before now, and none is
above the current one. -/
structure Registered (w : Worker K G) : Prop where
  own : OwnEntries w
  made : ∀ epoch ref, w.epochs.get? epoch = some ref → ref < w.entries.next
  reached : ∀ epoch, w.epochs.has epoch = true → epoch ≤ w.currentEpoch

theorem registered_of (registered : Registered w)
    (same : (epochTable w', w'.entries.next) = (epochTable w, w.entries.next)) : Registered w' := by
  simp only [epochTable, Prod.mk.injEq] at same
  obtain ⟨⟨epochs, current, -, -⟩, next⟩ := same
  constructor
  · unfold OwnEntries
    rw [epochs]
    exact registered.own
  · rw [epochs, next]
    exact registered.made
  · rw [epochs, current]
    exact registered.reached

theorem registered_created : Registered (Worker.createWorkerState : Worker K G) where
  own _ _ _ never := by cases never
  made _ _ never := by cases never
  reached _ never := by cases never

/-- An entry made now belongs to no other epoch. -/
theorem registered_withEntry (registered : Registered w) {epoch : ℤ} (selfPeerIndex : ℤ)
    (keys : OrderedMap ℤ (RatchetKey K)) (reached : epoch ≤ w.currentEpoch) :
    Registered (w.withEntry epoch selfPeerIndex keys) := by
  have fresh {other : ℤ} (held : w.epochs.get? other = some w.entries.next) : False :=
    Nat.lt_irrefl _ (registered.made other _ held)
  constructor
  · intro first second ref found again
    simp only [Worker.withEntry, OrderedMap.get?_set] at found again
    split at found <;> split at again
    · rename_i here there
      exact here.trans there.symm
    · obtain rfl := Option.some.inj found
      exact (fresh again).elim
    · obtain rfl := Option.some.inj again
      exact (fresh found).elim
    · exact registered.own _ _ _ found again
  · intro other ref found
    simp only [Worker.withEntry, OrderedMap.get?_set, Heap.next_alloc] at found ⊢
    split at found
    · cases found
      exact Nat.lt_succ_self _
    · exact Nat.lt_succ_of_lt (registered.made other ref found)
  · intro other installed
    rcases OrderedMap.has_set.mp installed with rfl | held
    · exact reached
    · exact registered.reached other held

theorem registered_installEpoch (registered : Registered w) {epoch selfPeerIndex : ℤ} {keys : KeyBundles K}
    (ok : w.installEpoch epoch selfPeerIndex keys = .ok v) : Registered v := by
  obtain ⟨table, -, same⟩ := Worker.core_installEpoch ok
  have copied {u : Worker K G} (same : v.core = u.core) (registered : Registered u) : Registered v :=
    registered_of registered (congrArg (fun v => (epochTable v, v.entries.next)) same :
      (epochTable v.core, v.core.entries.next) = (epochTable u.core, u.core.entries.next))
  split at same
  · rename_i above
    have raised : Registered { w with currentEpoch := epoch } :=
      ⟨registered.own, registered.made, fun other held => by have := registered.reached other held; dsimp only; omega⟩
    have entered := registered_withEntry raised selfPeerIndex table (le_refl epoch)
    exact copied same ⟨entered.own, entered.made, entered.reached⟩
  · exact copied same (registered_withEntry registered selfPeerIndex table (by omega))

theorem registered_wipeEpoch (registered : Registered w) (guard : ReplayGuard G) (epoch : ℤ) :
    Registered (w.wipeEpoch guard epoch) := by
  have kept {other : ℤ} {ref : Ref} (held : (w.epochs.delete epoch).get? other = some ref) :
      w.epochs.get? other = some ref := by
    rw [OrderedMap.get?_delete] at held
    split at held
    · cases held
    · exact held
  constructor
  · exact fun _ _ _ found again => registered.own _ _ _ (kept found) (kept again)
  · intro other ref found
    have made := registered.made other ref (kept found)
    unfold Worker.wipeEpoch
    dsimp only
    split <;> exact made
  · exact fun other held => registered.reached other (OrderedMap.has_delete.mp held).2

theorem registered_teardown (w : Worker K G) : Registered w.teardown where
  own _ _ _ never := by cases never
  made _ _ never := by cases never
  reached _ never := by cases never

/-- A call is resumed with entries in order, and leaves them so. -/
def registering : Contract AwaitPoint (Worker K G) where
  assume _ w := Registered w
  moves _ _ _ w := Registered w

theorem runs_registered {ι : Type} [DecidableEq ι] (calls : ι → Call K) {last : WorkerPool ι K G}
    (run : Runs anyTurn (launch runtime Worker.createWorkerState calls) last) : Registered last.shared := by
  refine runs_invariant (fun _ => registering) (fun _ _ _ _ w => Registered w)
    (fun w _ => Registered w) registered_created (launch_follows fun call w assumed => ?_)
    (fun before call at_ after registered _ _ _ => registered)
    (fun before call at_ after _ _ _ _ moved => ?_) run
  · have survives (site : AwaitPoint) : Survives registering (fun _ _ (w : Worker K G) => Registered w) site :=
      fun _ _ _ now => ⟨now, fun _ later => later⟩
    refine Contract.keeps_mono (program_yields (fun _ _ _ _ now same => registered_of now same)
      survives assumed ?_ ?_ ?_) fun _ _ result _ holds => ?_
    · exact fun _ _ _ _ _ ok => registered_installEpoch assumed ok
    · exact fun epoch _ _ => registered_wipeEpoch assumed runtime.guard epoch
    · exact fun _ => registered_teardown w
    · cases result with
      | ok value => exact holds.1
      | error refused => exact holds
  · generalize after.statuses call = reached at moved
    cases reached with
    | running => exact moved.elim
    | suspended next => exact moved
    | finished result => exact moved

/-! ## The message once more -/

theorem installEpoch_behind {epoch : ℤ} (selfPeerIndex : ℤ) {bundles : KeyBundles K}
    {keys : OrderedMap ℤ (RatchetKey K)}
    (made : Worker.installKeys w.kidCodec epoch bundles.entries ∅ = .ok keys) (reached : epoch ≤ w.currentEpoch) :
    ∃ counts, w.installEpoch epoch selfPeerIndex bundles =
      .ok (recount (w.withEntry epoch selfPeerIndex keys) counts) := by
  have resets (peers : List ℤ) (v : Worker K G) :
      ∃ counts, peers.foldl (fun state peer => state.resetFailureCount epoch peer) v = recount v counts := by
    induction peers generalizing v with
    | nil => exact ⟨v.failureCounts, rfl⟩
    | cons peer rest ih => exact ih (v.resetFailureCount epoch peer)
  obtain ⟨counts, reset⟩ := resets bundles.keys (w.withEntry epoch selfPeerIndex keys)
  have behind : ¬ epoch > w.currentEpoch := by omega
  refine ⟨counts, ?_⟩
  unfold Worker.withEntry at reset
  simp only [Worker.installEpoch, made, bind, Except.bind, reset, behind, ↓reduceIte]
  rfl

/-- Nobody can tell the second entry from the first. -/
theorem alike_reinstalled (registered : Registered w) {epoch selfPeerIndex : ℤ} {keys : OrderedMap ℤ (RatchetKey K)}
    (asBefore : entryOf w epoch = some { epoch, selfPeerIndex, keys, ratchetSteps := ∅ })
    (reached : epoch ≤ w.currentEpoch) (tolerant : w.failureTolerance < 0) (counts : OrderedMap (ℤ × ℤ) ℕ) :
    Alike w (recount (w.withEntry epoch selfPeerIndex keys) counts) := by
  refine ⟨rfl, .inr tolerant, .inr ⟨registered.own, ?_, fun other => ?_⟩⟩
  · exact (registered_withEntry registered selfPeerIndex keys reached).own
  · simp only [entryOf, recount, Worker.withEntry, OrderedMap.get?_set]
    by_cases same : other = epoch
    · subst same
      simpa [entryOf] using asBefore.symm
    · rw [if_neg same]
      cases found : w.epochs.get? other with
      | none => rfl
      | some ref => simp [Nat.ne_of_lt (registered.made other ref found)]

theorem unnoticed_of_registered (registered : Registered w) (patient : 2 ≤ runtime.patience)
    (tolerant : w.failureTolerance < 0) {epoch selfPeerIndex : ℤ} {bundles : KeyBundles K}
    (asInstalled : AsInstalled w epoch selfPeerIndex bundles) (keyless : QueueKeyless w) :
    ∃ delivered, alone (handleEpoch runtime epoch selfPeerIndex bundles) w = some (.ok (), delivered) ∧
      ∀ frames, outcomes runtime frames delivered = outcomes runtime frames w := by
  obtain ⟨entry, asBefore, given⟩ := asInstalled
  obtain ⟨keys, made, rfl⟩ := Option.map_eq_some_iff.mp given
  have made : Worker.installKeys w.kidCodec epoch bundles.entries ∅ = .ok keys := by
    cases installed : Worker.installKeys w.kidCodec epoch bundles.entries ∅ with
    | error refused => rw [installed] at made; cases made
    | ok found => rw [installed] at made; rw [Option.some.inj made]
  have reached : epoch ≤ w.currentEpoch := by
    obtain ⟨ref, found, -⟩ := Option.map_eq_some_iff.mp asBefore
    exact registered.reached epoch (by simp [OrderedMap.has, found])
  obtain ⟨counts, installed⟩ := installEpoch_behind selfPeerIndex made reached
  have alike := alike_reinstalled registered asBefore reached tolerant counts
  have waiting : QueueKeyless (recount (w.withEntry epoch selfPeerIndex keys) counts) := by
    refine keyless.imp id fun keyless frame member n hdr parsed => ?_
    rw [alike.cachedKey]
    exact keyless frame member n hdr parsed
  obtain ⟨delivered, drained, signalled⟩ := drainPreEpochQueue_keyless
    (w := recount (w.withEntry epoch selfPeerIndex keys) counts) patient tolerant waiting
  refine ⟨delivered, ?_, fun frames => ?_⟩
  · simp only [handleEpoch, alone_bind, alone_read, Option.bind_some, installed, alone_settle, alone_update]
    exact drained
  · exact outcomes_alike frames (alike.signal (signalled_refl w) signalled)

/-- In every state that a worker can reach, an `epoch` or `rotate` message goes
unnoticed if no call is under way, the epoch's entry is still the one the message gives and
no frame in the pre-epoch queue names a sender with a key. -/
theorem reinstall_unnoticed {ι : Type} [DecidableEq ι] (calls : ι → Call K) {last : WorkerPool ι K G}
    (run : Runs anyTurn (launch runtime Worker.createWorkerState calls) last) (patient : 2 ≤ runtime.patience)
    (tolerant : last.shared.failureTolerance = -1) (settled : Settled last) {epoch selfPeerIndex : ℤ}
    {bundles : KeyBundles K} (asInstalled : AsInstalled last.shared epoch selfPeerIndex bundles)
    (keyless : QueueKeyless last.shared) :
    Unnoticed runtime last (.epoch epoch selfPeerIndex bundles) ∧
      Unnoticed runtime last (.rotate epoch selfPeerIndex bundles) := by
  obtain ⟨delivered, handled, same⟩ := unnoticed_of_registered (runs_registered calls run) patient
    (by rw [tolerant]; omega) asInstalled keyless
  have unnoticed (frames : List FrameCall) (results : List (Except JsError Outcome × Bytes)) :
      Continues runtime { last with shared := delivered } frames results ↔ Continues runtime last frames results := by
    have idle : Settled { last with shared := delivered } := settled
    rw [continues_iff idle, continues_iff settled, same frames]
  exact ⟨⟨delivered, handled, unnoticed⟩, ⟨delivered, handled, unnoticed⟩⟩

section Checked
open Specimen (bundles sealedBy keyOf stepOf)

/-- An epoch, a window of one ratchet step, and a frame of peer 0 one step down. -/
def advancedOnce : Fin 3 → Call Bytes
  | 0 => .message (.epoch 0 1 (bundles [7, 9]))
  | 1 => .message (.setRatchetWindow 1)
  | 2 => .decodeFrame { data := sealedBy (stepOf (keyOf 0 0 7)) 1 [1] }

/-- A frame of peer 0 two steps down. -/
def twoStepsDown : List FrameCall := [⟨.decode, { data := sealedBy (stepOf (stepOf (keyOf 0 0 7))) 2 [2] }⟩]

/-- Whether each call of a sequence has succeeded. -/
def successes (w : Worker Bytes Unit) (frames : List FrameCall) : Option (List Bool) :=
  (outcomes Specimen.runtime frames w).map fun results => results.map fun result => result.1.toOption.isSome

/-- None of three calls is under way. -/
def idle (pool : WorkerPool (Fin 3) Bytes Unit) : Bool :=
  (List.finRange 3).all fun call => !underWay (pool.statuses call)

theorem settled_of_idle {pool : WorkerPool (Fin 3) Bytes Unit} (rests : idle pool = true) : Settled pool := by
  intro call
  have rests := List.all_eq_true.mp rests call (List.mem_finRange call)
  simpa using rests

/-- The message takes the key back to where the window no longer reaches. -/
theorem reinstall_rewinds : ¬ ∀ last, Runs anyTurn
    (launch Specimen.runtime Worker.createWorkerState advancedOnce) last →
      last.shared.failureTolerance = -1 → last.shared.epochs.has 0 = true →
        Unnoticed Specimen.runtime last (.epoch 0 1 (bundles [7, 9])) := by
  intro unnoticed
  have result : ((launch Specimen.runtime Worker.createWorkerState advancedOnce).followPassing anyTurn
      [0, 1, 2, 2, 2, 2, 2, 2, 2, 2, 2]).map (fun pool =>
        (pool.shared.failureTolerance, idle pool && pool.shared.epochs.has 0, successes pool.shared twoStepsDown,
          (alone (handleMessage Specimen.runtime (.epoch 0 1 (bundles [7, 9]))) pool.shared).map fun delivered =>
            successes delivered.2 twoStepsDown)) =
      some (-1, true, some [true], some (some [false])) := by
    decide +kernel
  obtain ⟨last, followed, looked⟩ := Option.map_eq_some_iff.mp result
  simp only [Prod.mk.injEq] at looked
  obtain ⟨tolerant, ready, without, redelivered⟩ := looked
  obtain ⟨rests, installed⟩ := Bool.and_eq_true_iff.mp ready
  have settled : Settled last := settled_of_idle rests
  obtain ⟨delivered, handled, same⟩ := unnoticed last (followPassing_runs followed) tolerant installed
  rw [handled, Option.map_some, Option.some.injEq] at redelivered
  obtain ⟨results, came, succeeds⟩ := Option.map_eq_some_iff.mp without
  have still := (same twoStepsDown results).mpr (continues_of_outcomes came)
  have after : Settled { last with shared := delivered } := settled
  rw [successes, outcomes_of_continues after still, Option.map_some, succeeds] at redelivered
  cases redelivered

/-- With the key where it was, nobody notices. -/
theorem reinstall_unnoticed_untouched : ∃ last : WorkerPool (Fin 3) Bytes Unit, last.shared.epochs.has 0 = true ∧
    Unnoticed Specimen.runtime last (.epoch 0 1 (bundles [7, 9])) ∧
      Unnoticed Specimen.runtime last (.rotate 0 1 (bundles [7, 9])) := by
  have result : ((launch Specimen.runtime Worker.createWorkerState advancedOnce).followPassing anyTurn [0, 1]).map
      (fun pool => (idle pool && pool.shared.epochs.has 0, pool.shared.failureTolerance, pool.shared.preEpochQueue,
        entryOf pool.shared 0, givenEntry pool.shared 0 1 (bundles [7, 9]))) =
      some (true, -1, [], givenEntry (Worker.createWorkerState (K := Bytes) (G := Unit)) 0 1 (bundles [7, 9]),
        givenEntry (Worker.createWorkerState (K := Bytes) (G := Unit)) 0 1 (bundles [7, 9])) := by
    rfl
  obtain ⟨last, followed, looked⟩ := Option.map_eq_some_iff.mp result
  simp only [Prod.mk.injEq] at looked
  obtain ⟨ready, tolerant, empty, asBefore, given⟩ := looked
  obtain ⟨rests, installed⟩ := Bool.and_eq_true_iff.mp ready
  have some : ∃ entry, givenEntry (Worker.createWorkerState (K := Bytes) (G := Unit)) 0 1 (bundles [7, 9]) =
      some entry := ⟨_, rfl⟩
  obtain ⟨entry, made⟩ := some
  refine ⟨last, installed, reinstall_unnoticed advancedOnce (followPassing_runs followed) (by decide) tolerant
    (settled_of_idle rests) ⟨entry, asBefore.trans made, given.trans made⟩ (.inr fun frame member => ?_)⟩
  rw [empty] at member
  cases member

end Checked
end SFrameRatchet.Reinstall
