import SFrameRatchet.SideBySide
import SFrameRatchet.Unsealing

/-! Workers that differ only in what no frame's outcome depends on: signals, the
pre-epoch queue, failure counts that nobody looks at, and where in the heap an
epoch's entry lies. Encoding and decoding a frame on two such workers has the
same outcome and leaves two such workers. -/
namespace SFrameRatchet.AlikeWorkers
open Collections Crypto Kid Header SFrame CodecPartial Replay Throwing Coroutine SideBySide Media

variable {K G : Type} {runtime : Runtime K G}

/-- A worker without its epochs and without what frames do not depend on. -/
def view (w : Worker K G) : Worker K G :=
  { w with
    epochs := ∅, entries := default, failureCounts := ∅
    preEpochQueue := [], draining := false, pendingDrain := false, emitted := [], resolved := []
    starveActive := false, starveSinceMs := 0, starveFramesDropped := 0, starveLastEmitMs := 0
    starvePeerIndex := none
    encryptStarveActive := false, encryptStarveSinceMs := 0, encryptStarveFramesDropped := 0
    encryptStarveLastEmitMs := 0 }

/-- Every installed epoch has an entry of its own. -/
def OwnEntries (w : Worker K G) : Prop :=
  ∀ epoch other ref, w.epochs.get? epoch = some ref → w.epochs.get? other = some ref → epoch = other

/-- The entry installed for an epoch. -/
def entryOf (w : Worker K G) (epoch : ℤ) : Option (EpochEntry K) := (w.epochs.get? epoch).map w.entries.read

/-- The same entries are installed, in one heap or in two. -/
def SameEntries (w w' : Worker K G) : Prop :=
  (w'.epochs = w.epochs ∧ w'.entries = w.entries) ∨
    (OwnEntries w ∧ OwnEntries w' ∧ ∀ epoch, entryOf w' epoch = entryOf w epoch)

structure Alike (w w' : Worker K G) : Prop where
  same : view w' = view w
  counts : w'.failureCounts = w.failureCounts ∨ w.failureTolerance < 0
  entries : SameEntries w w'

/-- What has changed since is in the view of neither. -/
structure Signalled (w v : Worker K G) : Prop where
  same : view v = view w
  counts : v.failureCounts = w.failureCounts
  epochs : v.epochs = w.epochs
  entries : v.entries = w.entries

section Relation
variable {w w' v v' : Worker K G}

theorem signalled_refl (w : Worker K G) : Signalled w w := ⟨rfl, rfl, rfl, rfl⟩

theorem Signalled.trans {u : Worker K G} (first : Signalled w v) (second : Signalled v u) : Signalled w u :=
  ⟨second.same.trans first.same, second.counts.trans first.counts, second.epochs.trans first.epochs,
    second.entries.trans first.entries⟩

/-- A field of the view is the same on both sides. -/
theorem Alike.field (alike : Alike w w') {α : Type} (field : Worker K G → α)
    (seen : ∀ v, field (view v) = field v) : field w' = field w := by
  rw [← seen w', alike.same, seen]

theorem Signalled.field (signalled : Signalled w v) {α : Type} (field : Worker K G → α)
    (seen : ∀ v, field (view v) = field v) : field v = field w := by
  rw [← seen v, signalled.same, seen]

/-- Signals on either side change nothing that matters. -/
theorem Alike.signal (alike : Alike w w') (left : Signalled w v) (right : Signalled w' v') : Alike v v' := by
  refine ⟨right.same.trans (alike.same.trans left.same.symm), ?_, ?_⟩
  · rw [left.counts, right.counts, left.field (·.failureTolerance) fun _ => rfl]
    exact alike.counts
  · have table (u u' : Worker K G) (epochs : u'.epochs = u.epochs) (entries : u'.entries = u.entries) :
        entryOf u' = entryOf u := by
      funext epoch
      simp only [entryOf, epochs, entries]
    rcases alike.entries with ⟨epochs, entries⟩ | ⟨own, own', lookups⟩
    · refine .inl ⟨?_, ?_⟩
      · rw [left.epochs, right.epochs, epochs]
      · rw [left.entries, right.entries, entries]
    · refine .inr ⟨?_, ?_, fun epoch => ?_⟩
      · unfold OwnEntries
        rw [left.epochs]
        exact own
      · unfold OwnEntries
        rw [right.epochs]
        exact own'
      · rw [table _ _ left.epochs left.entries, table _ _ right.epochs right.entries]
        exact lookups epoch

/-- A change that works on the view, the same on both sides. -/
theorem Alike.change (alike : Alike w w') (change : Worker K G → Worker K G)
    (works : ∀ v, view (change v) = view (change (view v)))
    (quiet : ∀ v, (change v).epochs = v.epochs ∧ (change v).entries = v.entries ∧
      (change v).failureCounts = v.failureCounts ∧ (change v).failureTolerance = v.failureTolerance) :
    Alike (change w) (change w') := by
  obtain ⟨epochs, entries, counts, tolerance⟩ := quiet w
  obtain ⟨epochs', entries', counts', -⟩ := quiet w'
  refine ⟨?_, ?_, ?_⟩
  · rw [works w', alike.same, ← works w]
  · rw [counts, counts', tolerance]
    exact alike.counts
  · rcases alike.entries with ⟨table, heap⟩ | ⟨own, own', lookups⟩
    · exact .inl ⟨by rw [epochs, epochs', table], by rw [entries, entries', heap]⟩
    · refine .inr ⟨?_, ?_, fun epoch => ?_⟩
      · unfold OwnEntries
        rw [epochs]
        exact own
      · unfold OwnEntries
        rw [epochs']
        exact own'
      · simp only [entryOf, epochs, entries, epochs', entries']
        exact lookups epoch

theorem Alike.entryOf (alike : Alike w w') (epoch : ℤ) : entryOf w' epoch = AlikeWorkers.entryOf w epoch := by
  rcases alike.entries with ⟨epochs, entries⟩ | ⟨-, -, lookups⟩
  · simp only [AlikeWorkers.entryOf, epochs, entries]
  · exact lookups epoch

theorem Alike.cachedKey (alike : Alike w w') (epoch peerIndex : ℤ) :
    w'.cachedKey epoch peerIndex = w.cachedKey epoch peerIndex := by
  have key (v : Worker K G) : v.cachedKey epoch peerIndex =
      (AlikeWorkers.entryOf v epoch).bind fun entry => entry.keys.get? peerIndex := by
    simp only [Worker.cachedKey, AlikeWorkers.entryOf]
    cases v.epochs.get? epoch <;> rfl
  rw [key, key, alike.entryOf]

/-- An epoch is installed on both sides or on neither, with the same entry. -/
theorem Alike.installed (alike : Alike w w') (epoch : ℤ) :
    (w.epochs.get? epoch = none ∧ w'.epochs.get? epoch = none) ∨
      ∃ ref ref', w.epochs.get? epoch = some ref ∧ w'.epochs.get? epoch = some ref' ∧
        w'.entries.read ref' = w.entries.read ref := by
  have same := alike.entryOf epoch
  simp only [AlikeWorkers.entryOf] at same
  cases found : w.epochs.get? epoch with
  | none =>
    cases found' : w'.epochs.get? epoch with
    | none => exact .inl ⟨rfl, rfl⟩
    | some ref' => simp [found, found'] at same
  | some ref =>
    cases found' : w'.epochs.get? epoch with
    | none => simp [found, found'] at same
    | some ref' => exact .inr ⟨ref, ref', rfl, rfl, by simpa [found, found'] using same⟩

/-- The key of one sender advances on both sides. -/
theorem Alike.advanceKey (alike : Alike w w') {epoch peerIndex : ℤ} {ref ref' : Ref}
    (found : w.epochs.get? epoch = some ref) (found' : w'.epochs.get? epoch = some ref') (next : RatchetKey K)
    (step : ℕ) : Alike (advanceKey w ref peerIndex next step) (advanceKey w' ref' peerIndex next step) := by
  have here := alike.entryOf epoch
  simp only [AlikeWorkers.entryOf, found, found', Option.map_some, Option.some.injEq] at here
  refine ⟨alike.same, alike.counts, ?_⟩
  rcases alike.entries with ⟨epochs, entries⟩ | ⟨own, own', lookups⟩
  · obtain rfl : ref' = ref := by
      rw [epochs, found] at found'
      exact (Option.some.inj found').symm
    exact .inl ⟨epochs, by simp only [Media.advanceKey, entries]⟩
  · refine .inr ⟨own, own', fun other => ?_⟩
    have advanced (v : Worker K G) (own : OwnEntries v) {ref : Ref} (found : v.epochs.get? epoch = some ref) :
        AlikeWorkers.entryOf (Media.advanceKey v ref peerIndex next step) other =
          if other = epoch then some { v.entries.read ref with
            keys := (v.entries.read ref).keys.set peerIndex next
            ratchetSteps := (v.entries.read ref).ratchetSteps.set peerIndex
              (((v.entries.read ref).ratchetSteps.get? peerIndex).getD 0 + step) }
          else AlikeWorkers.entryOf v other := by
      simp only [AlikeWorkers.entryOf, Media.advanceKey]
      by_cases same : other = epoch
      · subst same
        simp [found]
      · cases held : v.epochs.get? other with
        | none => simp [same]
        | some entry =>
          have apart : entry ≠ ref := fun equal => same (own other epoch ref (equal ▸ held) found)
          simp [same, apart]
    rw [advanced w own found, advanced w' own' found', here, lookups other]

/-! ## Signals -/

theorem signalled_alarms (same : v.unalarmed = w.unalarmed) : Signalled w v where
  same := congr_erased view same fun _ => rfl
  counts := congr_erased (·.failureCounts) same fun _ => rfl
  epochs := congr_erased (·.epochs) same fun _ => rfl
  entries := congr_erased (·.entries) same fun _ => rfl

theorem signalled_signals (same : v.unsignalled = w.unsignalled) : Signalled w v :=
  signalled_alarms (Worker.unalarmed_of_unsignalled same)

theorem signalled_emit (w : Worker K G) (msg : OutMsg) : Signalled w (w.emit msg) := signalled_signals rfl

theorem signalled_emitMetric (w : Worker K G) (event : MetricsEvent) : Signalled w (w.emitMetric event) :=
  signalled_signals (w.unsignalled_emitMetric event)

theorem signalled_pushToQueue (w : Worker K G) (frame : Ref) (peerIndex : Option ℤ) :
    Signalled w (w.pushToQueue frame peerIndex) := by
  obtain ⟨kept, -, same⟩ := w.unsignalled_pushToQueue frame peerIndex
  have queued : Signalled w { w with preEpochQueue := kept ++ [frame] } := ⟨rfl, rfl, rfl, rfl⟩
  exact queued.trans (signalled_signals same)

/-! ## Failure counts -/

theorem Alike.keyInvalid (alike : Alike w w') (epoch peerIndex : ℤ) :
    w'.isKeyInvalid epoch peerIndex = w.isKeyInvalid epoch peerIndex := by
  have tolerance := alike.field (·.failureTolerance) fun _ => rfl
  simp only [Worker.isKeyInvalid, tolerance]
  rcases alike.counts with counts | tolerant
  · rw [counts]
  · rw [if_pos tolerant, if_pos tolerant]

/-- A worker with other failure counts. -/
def recount (w : Worker K G) (counts : OrderedMap (ℤ × ℤ) ℕ) : Worker K G := { w with failureCounts := counts }

theorem signalled_recordFailure (counted : ¬ w.failureTolerance < 0) (epoch peerIndex : ℤ) :
    Signalled (recount w (w.failureCounts.set (epoch, peerIndex)
      ((w.failureCounts.get? (epoch, peerIndex)).getD 0 + 1))) (w.recordFailure epoch peerIndex) := by
  unfold Worker.recordFailure
  rw [if_neg counted]
  dsimp only
  split
  · exact signalled_emitMetric _ _
  · exact signalled_refl _

/-- Counting one more failure, or none, is the same on both sides. -/
theorem Alike.recordFailure (alike : Alike w w') (epoch peerIndex : ℤ) :
    Alike (w.recordFailure epoch peerIndex) (w'.recordFailure epoch peerIndex) := by
  have tolerance := alike.field (·.failureTolerance) fun _ => rfl
  by_cases tolerant : w.failureTolerance < 0
  · have tolerant' : w'.failureTolerance < 0 := tolerance ▸ tolerant
    unfold Worker.recordFailure
    rw [if_pos tolerant, if_pos tolerant']
    exact alike
  · have counts : w'.failureCounts = w.failureCounts := alike.counts.resolve_right tolerant
    have left := signalled_recordFailure tolerant epoch peerIndex
    have right := signalled_recordFailure (tolerance ▸ tolerant) (w := w') epoch peerIndex
    rw [counts] at right
    have raised (counts : OrderedMap (ℤ × ℤ) ℕ) : Alike (recount w counts) (recount w' counts) :=
      ⟨alike.same, .inl rfl, alike.entries⟩
    exact (raised _).signal left right

theorem Alike.recordSuccess (alike : Alike w w') (epoch peerIndex : ℤ) :
    Alike (w.recordSuccess epoch peerIndex) (w'.recordSuccess epoch peerIndex) := by
  have tolerance := alike.field (·.failureTolerance) fun _ => rfl
  unfold Worker.recordSuccess
  by_cases tolerant : w.failureTolerance < 0
  · rw [if_pos tolerant, if_pos (tolerance ▸ tolerant)]
    exact alike
  · rw [if_neg tolerant, if_neg (tolerance ▸ tolerant), alike.counts.resolve_right tolerant]
    exact ⟨alike.same, .inl rfl, alike.entries⟩

theorem Alike.failDecode (alike : Alike w w') (vars : HeaderVars) (err : JsError) :
    Alike (failDecode w vars err) (failDecode w' vars err) := by
  have signal (v : Worker K G) (msg : OutMsg) (event : MetricsEvent) :
      Signalled v ((v.emitMetric event).emit msg) := (signalled_emitMetric v event).trans (signalled_emit _ msg)
  have counted : Alike
      (if vars.epoch ≥ 0 ∧ vars.peerIndex ≥ 0 ∧ err.isAeadFailure = true then
        w.recordFailure vars.epoch vars.peerIndex else w)
      (if vars.epoch ≥ 0 ∧ vars.peerIndex ≥ 0 ∧ err.isAeadFailure = true then
        w'.recordFailure vars.epoch vars.peerIndex else w') := by
    split
    · exact alike.recordFailure _ _
    · exact alike
  unfold Media.failDecode
  dsimp only
  split
  · exact counted.signal (signalled_emitMetric _ _) (signalled_emitMetric _ _)
  · exact counted.signal (signalled_emitMetric _ _) (signalled_emitMetric _ _)
  · exact counted.signal (signalled_emitMetric _ _) (signalled_emitMetric _ _)
  · exact counted.signal (signal _ _ _) (signal _ _ _)

end Relation

/-! ## Formats -/

section Walk
variable {w w' : Worker K G}

theorem Alike.probeAttempt (alike : Alike w w') (payload : Bytes) (guess : FormatGuess) :
    probeAttempt runtime w' payload guess = Media.probeAttempt runtime w payload guess := by
  have codec := alike.field (·.kidCodec) fun _ => rfl
  simp only [Media.probeAttempt, codec, alike.cachedKey]

theorem Alike.cachedFormat (alike : Alike w w') (payload : Bytes) (codecN : ℕ) :
    cachedFormat w' payload codecN = Media.cachedFormat w payload codecN := by
  have codec := alike.field (·.kidCodec) fun _ => rfl
  have cache := alike.field (·.formatCache) fun _ => rfl
  simp only [Media.cachedFormat, Worker.getFormatCache, codec, cache]

theorem probeFormat_inStep (frame frame' : Ref) (payload : Bytes) (candidates : List FormatGuess)
    (alike : Alike w w') :
    InStep Alike (probeFormat runtime frame payload candidates) (probeFormat runtime frame' payload candidates)
      w w' := by
  induction candidates generalizing w w' with
  | nil => exact inStep_pure alike none
  | cons guess rest ih =>
    apply inStep_read
    rw [alike.probeAttempt]
    cases probeAttempt runtime w payload guess with
    | none => exact ih alike
    | some attempted =>
      obtain ⟨hdr, epoch, peerIndex, opened⟩ := attempted
      refine inStep_bind (inStep_pause alike _ _) fun _ _ _ alike => ?_
      cases opened with
      | ok plaintext => exact inStep_pure alike _
      | error refused => exact ih alike

theorem resolveFormat_inStep (frame frame' : Ref) (payload : Bytes) (codec : Option Codec)
    (frameKind : Option FrameKind) (alike : Alike w w') :
    InStep Alike (resolveFormat runtime frame payload codec frameKind)
      (resolveFormat runtime frame' payload codec frameKind) w w' := by
  apply inStep_read
  dsimp only
  rw [alike.cachedFormat]
  split
  · exact inStep_pure alike _
  · refine inStep_bind (probeFormat_inStep frame frame' payload _ alike) fun probed _ _ alike => ?_
    refine inStep_bind (inStep_pause alike _ _) fun _ _ _ alike => ?_
    cases probed with
    | some found => exact inStep_pure alike _
    | none => exact inStep_pure alike _

/-! ## The ratchet -/

/-- An opening with the keys in the tables is the same on both sides. -/
theorem Alike.resolveCached (alike : Alike w w') : resolveCached w' = Media.resolveCached w := by
  funext kid epoch peerIndex ctr
  simp only [Media.resolveCached, alike.cachedKey]

theorem Alike.resolveNext (alike : Alike w w') (next : RatchetKey K) (epoch peerIndex : ℤ) :
    resolveNext w' next epoch peerIndex = Media.resolveNext w next epoch peerIndex := by
  funext kid e pi ctr
  simp only [Media.resolveNext, alike.cachedKey]

/-- Alike workers in which an epoch has been found. -/
structure Found (epoch : ℤ) (entry entry' : Ref) (w w' : Worker K G) : Prop where
  alike : Alike w w'
  left : w.epochs.get? epoch = some entry
  right : w'.epochs.get? epoch = some entry'

/-- The entry found is the same on both sides. -/
theorem Found.read {epoch : ℤ} {entry entry' : Ref} (found : Found epoch entry entry' w w') :
    w'.entries.read entry' = w.entries.read entry := by
  have same := found.alike.entryOf epoch
  simpa only [AlikeWorkers.entryOf, found.left, found.right, Option.map_some, Option.some.injEq] using same

/-- What leaves the tables of both alone keeps the entry found. -/
theorem Found.tables {epoch : ℤ} {entry entry' : Ref} {v v' : Worker K G} (found : Found epoch entry entry' w w')
    (alike : Alike v v') (left : v.epochs = w.epochs) (right : v'.epochs = w'.epochs) :
    Found epoch entry entry' v v' := ⟨alike, left ▸ found.left, right ▸ found.right⟩

theorem Found.emitMetric {epoch : ℤ} {entry entry' : Ref} (found : Found epoch entry entry' w w')
    (event : MetricsEvent) : Found epoch entry entry' (w.emitMetric event) (w'.emitMetric event) := by
  have left := signalled_emitMetric w event
  have right := signalled_emitMetric w' event
  exact found.tables (found.alike.signal left right) left.epochs right.epochs

section Ratchet
variable {o : Opening} {entry entry' : Ref} (site site' : RatchetPoint → AwaitPoint)

theorem openCached_inStep (at_ at_' : Bool → AwaitPoint) (found : Found o.epoch entry entry' w w') :
    InStep (Found o.epoch entry entry') (openCached runtime at_ o) (openCached runtime at_' o) w w' := by
  have codec := found.alike.field (·.kidCodec) fun _ => rfl
  apply inStep_read
  rw [found.alike.resolveCached, codec]
  exact inStep_bind (inStep_pause found _ _) fun _ _ _ found => inStep_settle found _

theorem awaitPromise_inStep (at_ at_' : AwaitPoint) (promise : Ref) (found : Found o.epoch entry entry' w w') :
    InStep (Found o.epoch entry entry') (awaitPromise at_ promise) (awaitPromise at_' promise) w w' := by
  have promises := found.alike.field (·.promises) fun _ => rfl
  refine inStep_bind (inStep_pauseUntil found _ _ (by rw [promises])) fun _ _ _ found => ?_
  have promises := found.alike.field (·.promises) fun _ => rfl
  apply inStep_read
  rw [promises]
  split
  · exact inStep_pure found _
  · exact inStep_throw found _
  · exact inStep_throw found _

theorem awaitInFlight_inStep (promise : Ref) (found : Found o.epoch entry entry' w w') :
    InStep (Found o.epoch entry entry') (awaitInFlight runtime site o promise) (awaitInFlight runtime site' o promise)
      w w' := by
  refine inStep_attempt (awaitPromise_inStep _ _ promise found) fun outcome _ _ found => ?_
  cases outcome with
  | error reason => exact inStep_pure found none
  | ok _ =>
    refine inStep_attempt (openCached_inStep _ _ found) fun retried _ _ found => ?_
    cases retried with
    | ok plaintext => exact inStep_pure found _
    | error refused => exact inStep_pure found _

theorem retrySteps_inStep (salt : Bytes) (patience step : ℕ) (currentRaw : Bytes)
    (found : Found o.epoch entry entry' w w') :
    InStep (Found o.epoch entry entry') (retrySteps runtime site o entry salt patience step currentRaw)
      (retrySteps runtime site' o entry' salt patience step currentRaw) w w' := by
  induction patience generalizing w w' step currentRaw with
  | zero => exact inStep_bind (inStep_pauseUntil found _ _ rfl) fun _ _ _ found => inStep_throw found _
  | succ patience ih =>
    have window := found.alike.field (·.ratchetWindowSize) fun _ => rfl
    have suite := found.alike.field (·.suite) fun _ => rfl
    have codec := found.alike.field (·.kidCodec) fun _ => rfl
    apply inStep_read
    rw [window]
    split
    · rw [suite, codec]
      refine inStep_bind (inStep_pause found _ _) fun _ _ _ found => ?_
      refine inStep_bind (inStep_settle found _) fun next v v' found => inStep_read ?_
      have codec := found.alike.field (·.kidCodec) fun _ => rfl
      rw [found.alike.resolveNext, codec]
      refine inStep_bind (inStep_pause found _ _) fun _ v v' found => ?_
      split
      · have advanced : Found o.epoch entry entry' (advanceKey v entry o.peerIndex next step)
            (advanceKey v' entry' o.peerIndex next step) :=
          found.tables (found.alike.advanceKey found.left found.right next step) rfl rfl
        refine inStep_bind (inStep_update advanced) fun _ _ _ found => ?_
        exact inStep_bind (inStep_update (found.emitMetric _)) fun _ _ _ found => inStep_pure found _
      · exact ih _ _ found
    · refine inStep_bind (inStep_update ?_) fun _ _ _ found => inStep_throw found _
      rw [window]
      exact found.emitMetric _

theorem retryLoop_inStep (found : Found o.epoch entry entry' w w') :
    InStep (Found o.epoch entry entry') (retryLoop runtime site o entry) (retryLoop runtime site' o entry') w w' := by
  apply inStep_read
  rw [found.read]
  split
  · exact inStep_throw found _
  · exact retrySteps_inStep site site' _ _ _ _ found

/-- Both sides note the same about a promise. -/
theorem inStep_promises {change : Worker K G → Worker K G} (found : Found o.epoch entry entry' w w')
    (works : ∀ v, view (change v) = view (change (view v)))
    (quiet : ∀ v, (change v).epochs = v.epochs ∧ (change v).entries = v.entries ∧
      (change v).failureCounts = v.failureCounts ∧ (change v).failureTolerance = v.failureTolerance) :
    InStep (Found o.epoch entry entry') (update change : Task K G Unit) (update change : Task K G Unit) w w' :=
  inStep_update (found.tables (found.alike.change _ works quiet) (quiet w).1 (quiet w').1)

theorem runRetryLoop_inStep (found : Found o.epoch entry entry' w w') :
    InStep (Found o.epoch entry entry') (runRetryLoop runtime site o entry) (runRetryLoop runtime site' o entry')
      w w' := by
  have promises := found.alike.field (·.promises) fun _ => rfl
  apply inStep_read
  rw [promises]
  refine inStep_bind (inStep_promises found (fun _ => rfl) fun _ => ⟨rfl, rfl, rfl, rfl⟩) ?_
  intro _ _ _ found
  refine inStep_attempt (retryLoop_inStep site site' found) fun outcome _ _ found => ?_
  refine inStep_bind (inStep_promises found (fun _ => rfl) fun _ => ⟨rfl, rfl, rfl, rfl⟩) ?_
  intro _ _ _ found
  refine inStep_bind (inStep_pause found _ _) fun _ _ _ found => ?_
  refine inStep_bind (inStep_promises found (fun _ => rfl) fun _ => ⟨rfl, rfl, rfl, rfl⟩) ?_
  exact fun _ _ _ found => inStep_settle found outcome

theorem recheckThenLoop_inStep (inFlight : Option Ref) (found : Found o.epoch entry entry' w w') :
    InStep (Found o.epoch entry entry') (recheckThenLoop runtime site o entry inFlight)
      (recheckThenLoop runtime site' o entry' inFlight) w w' := by
  have flying := found.alike.field (·.ratchetPromises) fun _ => rfl
  apply inStep_read
  rw [flying]
  dsimp only
  split
  · exact runRetryLoop_inStep site site' found
  · split
    · exact runRetryLoop_inStep site site' found
    · refine inStep_attempt (awaitPromise_inStep _ _ _ found) fun outcome _ _ found => ?_
      cases outcome with
      | ok plaintext => exact inStep_pure found _
      | error reason => exact runRetryLoop_inStep site site' found

end Ratchet

theorem tryDecryptWithRatchet_inStep (site site' : RatchetPoint → AwaitPoint) (o : Opening) (alike : Alike w w') :
    InStep Alike (tryDecryptWithRatchet runtime site o) (tryDecryptWithRatchet runtime site' o) w w' := by
  apply inStep_read
  rcases alike.installed o.epoch with ⟨left, right⟩ | ⟨entry, entry', left, right, same⟩
  · rw [left, right]
    exact inStep_throw alike _
  · have found : Found o.epoch entry entry' w w' := ⟨alike, left, right⟩
    apply inStep_mono ?_ fun _ _ (found : Found o.epoch entry entry' _ _) => found.alike
    simp only [left, right, same]
    split
    · exact inStep_throw found _
    · refine inStep_attempt (openCached_inStep _ _ found) fun outcome v v' found => ?_
      cases outcome with
      | ok plaintext => exact inStep_pure found _
      | error firstError =>
        have window := found.alike.field (·.ratchetWindowSize) fun _ => rfl
        have flying := found.alike.field (·.ratchetPromises) fun _ => rfl
        apply inStep_read
        rw [window, flying]
        split
        · exact inStep_throw found _
        · split
          · exact recheckThenLoop_inStep site site' none found
          · refine inStep_bind (awaitInFlight_inStep site site' _ found) fun retried _ _ found => ?_
            cases retried with
            | some plaintext => exact inStep_pure found _
            | none => exact recheckThenLoop_inStep site site' _ found

/-! ## The gates and what follows them -/

/-- Both sides change alike. -/
theorem inStep_change {change : Worker K G → Worker K G} (alike : Alike w w')
    (works : ∀ v, view (change v) = view (change (view v)))
    (quiet : ∀ v, (change v).epochs = v.epochs ∧ (change v).entries = v.entries ∧
      (change v).failureCounts = v.failureCounts ∧ (change v).failureTolerance = v.failureTolerance) :
    InStep Alike (update change : Task K G Unit) (update change : Task K G Unit) w w' :=
  inStep_update (alike.change _ works quiet)

theorem Alike.getReplayWindow (alike : Alike w w') (epoch peerIndex : ℤ) :
    (w'.getReplayWindow epoch peerIndex).1 = (w.getReplayWindow epoch peerIndex).1 ∧
      Alike (w.getReplayWindow epoch peerIndex).2 (w'.getReplayWindow epoch peerIndex).2 := by
  constructor
  · rw [Worker.getReplayWindow_fst, Worker.getReplayWindow_fst]
    exact alike.field (fun v => (v.windowOf epoch peerIndex).getD
      ⟨v.nextWindow, { windowSize := v.replayWindowSize }⟩) fun _ => rfl
  · refine alike.change (fun v => (v.getReplayWindow epoch peerIndex).2) (fun v => ?_) fun v => ?_
    · unfold Worker.getReplayWindow
      cases held : ((v.replayWindows.get? epoch).getD ∅).get? peerIndex with
      | none =>
        have held' : (((view v).replayWindows.get? epoch).getD ∅).get? peerIndex = none := held
        simp only [held, held']
        rfl
      | some window =>
        have held' : (((view v).replayWindows.get? epoch).getD ∅).get? peerIndex = some window := held
        simp only [held, held']
        rfl
    · obtain ⟨windows, next, same⟩ := Worker.getReplayWindow_snd v epoch peerIndex
      rw [same]
      exact ⟨rfl, rfl, rfl, rfl⟩

theorem checkReplay_inStep (slot : Slot) (alike : Alike w w') :
    InStep Alike (checkReplay slot : Task K G (Option ℕ)) (checkReplay slot) w w' := by
  have both := alike.getReplayWindow slot.epoch slot.peerIndex
  apply inStep_read
  rcases got : w.getReplayWindow slot.epoch slot.peerIndex with ⟨object, v⟩
  rcases got' : w'.getReplayWindow slot.epoch slot.peerIndex with ⟨object', v'⟩
  rw [got, got'] at both
  obtain ⟨rfl, fetched⟩ := both
  refine inStep_bind (inStep_update fetched) fun _ _ _ alike => ?_
  split
  · exact inStep_bind (inStep_change alike (fun _ => rfl) fun _ => ⟨rfl, rfl, rfl, rfl⟩) fun _ _ _ alike =>
      inStep_pure alike _
  · exact inStep_pure alike none

theorem Alike.durableGuard (alike : Alike w w') : durableGuard runtime w' = Media.durableGuard runtime w := by
  have durable := alike.field (·.durableReplay) fun _ => rfl
  simp only [Media.durableGuard, durable]

theorem durableCheck_inStep (at_ at_' : AwaitPoint) (slot : Slot) (alike : Alike w w') :
    InStep Alike (durableCheck runtime at_ slot) (durableCheck runtime at_' slot) w w' := by
  apply inStep_read
  rw [alike.durableGuard]
  split
  · exact inStep_pure alike true
  · refine inStep_bind (inStep_change alike (fun _ => rfl) fun _ => ⟨rfl, rfl, rfl, rfl⟩) fun _ _ _ alike => ?_
    exact inStep_bind (inStep_pause alike _ _) fun _ _ _ alike => inStep_pure alike _

theorem durableAccept_inStep (at_ at_' : AwaitPoint) (slot : Slot) (alike : Alike w w') :
    InStep Alike (durableAccept runtime at_ slot) (durableAccept runtime at_' slot) w w' := by
  apply inStep_read
  rw [alike.durableGuard]
  split
  · exact inStep_pure alike ()
  · refine inStep_bind (inStep_change alike (fun _ => rfl) fun _ => ⟨rfl, rfl, rfl, rfl⟩) fun _ _ _ alike => ?_
    exact inStep_pause alike _ _

theorem setFormatCache_inStep (epoch peerIndex : ℤ) (guess : FormatGuess) (alike : Alike w w') :
    InStep Alike (update fun state => state.setFormatCache epoch peerIndex guess : Task K G Unit)
      (update fun state => state.setFormatCache epoch peerIndex guess : Task K G Unit) w w' :=
  inStep_change alike (fun _ => rfl) fun _ => ⟨rfl, rfl, rfl, rfl⟩

theorem openResolved_inStep (frame frame' : Ref) (held held' : Slot × ℕ) (payload : Bytes) (guess : FormatGuess)
    (probed : Option Probed) (slot : held'.1 = held.1) (alike : Alike w w') :
    InStep Alike (openResolved runtime frame held payload guess probed)
      (openResolved runtime frame' held' payload guess probed) w w' := by
  unfold openResolved
  rw [slot]
  cases probed with
  | some found => exact inStep_bind (setFormatCache_inStep _ _ _ alike) fun _ _ _ alike => inStep_pure alike _
  | none =>
    refine inStep_attempt (tryDecryptWithRatchet_inStep _ _ _ alike) fun outcome _ _ alike => ?_
    refine inStep_bind (inStep_pause alike _ _) fun _ _ _ alike => ?_
    refine inStep_bind (inStep_settle alike _) fun opened _ _ alike => ?_
    exact inStep_bind (setFormatCache_inStep _ _ _ alike) fun _ _ _ alike => inStep_pure alike _

theorem Alike.acceptReplay (alike : Alike w w') (slot : Slot) (object frame : ℕ) :
    Alike (w.acceptReplay slot object frame) (w'.acceptReplay slot object frame) := by
  refine alike.change (fun v => v.acceptReplay slot object frame) (fun v => ?_) fun v => ?_
  · unfold Worker.acceptReplay
    dsimp only [view]
    split
    · rfl
    · split
      · rfl
      · split <;> rfl
  · obtain ⟨windows, same⟩ := Worker.acceptReplay_eq v slot object frame
    rw [same]
    exact ⟨rfl, rfl, rfl, rfl⟩

theorem acceptFrame_inStep (frame : Ref) (held : Slot × ℕ) (payload : Bytes) (guess : FormatGuess) (opened : Bytes)
    (alike : Alike w w') :
    InStep Alike (acceptFrame runtime frame held payload guess opened)
      (acceptFrame runtime frame held payload guess opened) w w' := by
  refine inStep_bind (inStep_update (alike.acceptReplay _ _ _)) fun _ _ _ alike => ?_
  refine inStep_bind (durableAccept_inStep _ _ _ alike) fun _ _ _ alike => ?_
  refine inStep_bind (inStep_update (alike.recordSuccess _ _)) fun _ _ _ alike => ?_
  refine inStep_bind (inStep_change alike (fun _ => rfl) fun _ => ⟨rfl, rfl, rfl, rfl⟩) fun _ _ _ alike => ?_
  exact inStep_update (alike.signal (signalled_signals (Worker.unsignalled_clearStarve _))
    (signalled_signals (Worker.unsignalled_clearStarve _)))

/-- A failure for which a key counts as invalid is the same on both sides. -/
theorem Alike.failures (alike : Alike w w') {epoch peerIndex : ℤ} (invalid : w.isKeyInvalid epoch peerIndex = true) :
    w'.failureCounts = w.failureCounts := by
  refine alike.counts.resolve_right fun tolerant => ?_
  simp [Worker.isKeyInvalid, tolerant] at invalid

theorem decodePayload_inStep (frame : Ref) (payload : Bytes) (guess : FormatGuess) (probed : Option Probed)
    (hdr : SFrameHeader) (alike : Alike w w') :
    InStep Alike (decodePayload runtime frame payload guess probed hdr)
      (decodePayload runtime frame payload guess probed hdr) w w' := by
  have codec := alike.field (·.kidCodec) fun _ => rfl
  have oldest := alike.field (·.currentMinValidEpoch) fun _ => rfl
  have current := alike.field (·.currentEpoch) fun _ => rfl
  apply inStep_read
  rw [codec, oldest, current]
  dsimp only
  split
  · refine inStep_bind (inStep_update (alike.signal ?_ ?_)) fun _ _ _ alike => inStep_throw alike _
    · exact (signalled_emit w _).trans (signalled_emitMetric _ _)
    · exact (signalled_emit w' _).trans (signalled_emitMetric _ _)
  · split
    · refine inStep_bind (inStep_update (alike.signal ?_ ?_)) fun _ _ _ alike => inStep_pure alike _
      · exact signalled_pushToQueue w _ _
      · exact signalled_pushToQueue w' _ _
    · refine inStep_bind (checkReplay_inStep _ alike) fun checked v v' alike => ?_
      cases checked with
      | none =>
        refine inStep_bind (inStep_update (alike.signal ?_ ?_)) fun _ _ _ alike => inStep_throw alike _
        · exact signalled_signals (unsignalled_reportReplay v _ _ _)
        · exact signalled_signals (unsignalled_reportReplay v' _ _ _)
      | some object =>
        refine inStep_bind (durableCheck_inStep _ _ _ alike) fun answer v v' alike => ?_
        split
        · refine inStep_bind (inStep_update (alike.signal ?_ ?_)) fun _ _ _ alike => inStep_throw alike _
          · exact signalled_signals (unsignalled_reportReplay v _ _ _)
          · exact signalled_signals (unsignalled_reportReplay v' _ _ _)
        · apply inStep_read
          rw [alike.keyInvalid]
          split
          · rename_i invalid
            rw [alike.failures invalid]
            refine inStep_bind (inStep_update (alike.signal ?_ ?_)) fun _ _ _ alike => inStep_throw alike _
            · exact signalled_signals (unsignalled_reportKeyInvalid v _ _ _)
            · exact signalled_signals (unsignalled_reportKeyInvalid v' _ _ _)
          · refine inStep_bind (openResolved_inStep _ _ _ _ _ _ _ rfl alike) fun opened _ _ alike => ?_
            refine inStep_bind (acceptFrame_inStep _ _ _ _ _ alike) fun _ v v' alike => ?_
            refine inStep_bind (inStep_update (alike.signal ?_ ?_)) fun _ _ _ alike => inStep_pure alike _
            · exact signalled_emitMetric v _
            · exact signalled_emitMetric v' _

theorem decodeFrame_inStep (frame : Ref) (alike : Alike w w') :
    InStep Alike (decodeFrame runtime frame) (decodeFrame runtime frame) w w' := by
  have frames := alike.field (·.frames) fun _ => rfl
  have trailer := alike.field (·.sifTrailer) fun _ => rfl
  have codec := alike.field (·.codec) fun _ => rfl
  apply inStep_read
  rw [frames, trailer, codec]
  dsimp only
  split
  · exact inStep_pure alike _
  · refine inStep_bind (resolveFormat_inStep _ _ _ _ _ alike) fun resolved v v' alike => ?_
    obtain ⟨guess, probed⟩ := resolved
    have codec := alike.field (·.kidCodec) fun _ => rfl
    apply inStep_read
    split
    · exact inStep_bind (inStep_update (alike.failDecode _ _)) fun _ _ _ alike => inStep_throw alike _
    · rw [codec]
      refine inStep_bind (inStep_change alike (fun _ => rfl) fun _ => ⟨rfl, rfl, rfl, rfl⟩) ?_
      intro _ _ _ alike
      refine inStep_tryCatch (decodePayload_inStep _ _ _ _ _ alike) fun error _ _ alike => ?_
      exact inStep_bind (inStep_update (alike.failDecode _ _)) fun _ _ _ alike => inStep_throw alike _

/-! ## Encoding -/

theorem Alike.noteSealing (alike : Alike w w') (key : SFrameKey K) (ctr : ℕ) :
    Alike (noteSealing w key ctr) (Media.noteSealing w' key ctr) := by
  unfold Media.noteSealing
  split
  · exact alike
  · rename_i iv _
    exact alike.change (fun v => { v with
      sealings := v.sealings ++ [⟨key.epoch, key.peerIndex, ctr, key.cryptoKey, iv⟩] }) (fun _ => rfl)
      fun _ => ⟨rfl, rfl, rfl, rfl⟩

theorem encodeFrame_inStep (frame : Ref) (frameKind : Option FrameKind) (alike : Alike w w') :
    InStep Alike (encodeFrame runtime frame frameKind) (encodeFrame runtime frame frameKind) w w' := by
  have current := alike.field (·.currentEpoch) fun _ => rfl
  have ctr := alike.field (·.ctr) fun _ => rfl
  have frames := alike.field (·.frames) fun _ => rfl
  have trailer := alike.field (·.sifTrailer) fun _ => rfl
  have codec := alike.field (·.codec) fun _ => rfl
  apply inStep_read
  rw [current, ctr, frames, trailer, codec]
  rcases alike.installed w.currentEpoch with ⟨left, right⟩ | ⟨entry, entry', left, right, same⟩
  · rw [left, right]
    exact inStep_throw alike _
  · simp only [left, right, same]
    split
    · exact inStep_throw alike _
    · refine inStep_bind (inStep_change alike (fun _ => rfl) fun _ => ⟨rfl, rfl, rfl, rfl⟩) ?_
      intro _ _ _ alike
      refine inStep_bind (inStep_settle alike _) fun header _ _ alike => ?_
      refine inStep_bind (inStep_update (alike.noteSealing _ _)) fun _ _ _ alike => ?_
      refine inStep_bind (inStep_pause alike _ _) fun _ _ _ alike => ?_
      refine inStep_bind (inStep_settle alike _) fun wire _ _ alike => ?_
      refine inStep_bind (inStep_change alike (fun _ => rfl) fun _ => ⟨rfl, rfl, rfl, rfl⟩) ?_
      intro _ v v' alike
      refine inStep_bind (inStep_update (alike.signal ?_ ?_)) fun _ v v' alike => ?_
      · exact signalled_emitMetric v _
      · exact signalled_emitMetric v' _
      · exact inStep_update (alike.signal (signalled_alarms v.unalarmed_clearEncryptStarve)
          (signalled_alarms v'.unalarmed_clearEncryptStarve))

end Walk

end SFrameRatchet.AlikeWorkers
