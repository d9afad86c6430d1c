import SFrameRatchet.WorkerRuns

/-! Readings of the worker: what a part of a call knows of the state it was
resumed in and of the state it has reached, and the readings that configuring
the worker keeps. -/
namespace SFrameRatchet.Media
open Collections Crypto Kid CodecPartial Throwing Coroutine

variable {K G : Type}

/-- What a call knows of the site it was resumed at, the state there and the
state now. -/
abbrev Reading (K G : Type) := AwaitPoint → Worker K G → Worker K G → Prop

/-! ## Since -/

section Since
variable (start w : Worker K G)

/-- The headers that have been found since a state, the replay checks passed, the
frames accepted and the frames delivered. -/
def foundSince : List (Ref × Slot) := w.resolved.drop start.resolved.length
def checkedSince : List Slot := w.checked.drop start.checked.length
def acceptedSince : List (Slot × Ref) := w.accepted.drop start.accepted.length
def deliveredSince : List (Slot × Ref) := w.delivered.drop start.delivered.length

end Since

/-! ## Messages -/

section Messages
variable {runtime : Runtime K G} {contract : Contract AwaitPoint (Worker K G)} {holds : Reading K G}
  {at_ : AwaitPoint} {start w : Worker K G}

/-- The worker without its configuration and its signals. Replacing the replay
windows or the failure counts by empty ones is part of configuring them. -/
def beyondConfiguration (w : Worker K G) : Worker K G :=
  { w with
    role := none, peerId := none, selfPeerIndex := none, suite := defaultCipherSuite, kidCodec := .fixed
    codec := none, sifTrailer := none, ratchetWindowSize := 0, replayWindowSize := 0, replayWindows := ∅
    metricsEnabled := false, preEpochQueueCap := 0, failureCounts := ∅, failureTolerance := 0
    durableReplay := none, emitted := [] }

/-- The reading does not depend on the configuration. -/
def Unconfigured (holds : Reading K G) : Prop :=
  ∀ at_ start w w', holds at_ start w → beyondConfiguration w' = beyondConfiguration w → holds at_ start w'

/-- The same, but with the replay windows and their size. -/
def beyondSettings (w : Worker K G) : Worker K G :=
  { beyondConfiguration w with replayWindowSize := w.replayWindowSize, replayWindows := w.replayWindows }

/-- The reading depends on nothing of the configuration but the replay windows. -/
def WindowsAside (holds : Reading K G) : Prop :=
  ∀ at_ start w w', holds at_ start w → beyondSettings w' = beyondSettings w → holds at_ start w'

theorem beyondConfiguration_settings {w' : Worker K G} (same : beyondSettings w' = beyondSettings w) :
    beyondConfiguration w' = beyondConfiguration w :=
  (congrArg beyondConfiguration same : beyondConfiguration (beyondSettings w') = beyondConfiguration (beyondSettings w))

theorem Unconfigured.windowsAside (unconfigured : Unconfigured holds) : WindowsAside holds :=
  fun _ _ _ _ now same => unconfigured _ _ _ _ now (beyondConfiguration_settings same)

section Init
variable (aside : WindowsAside holds)

include aside

theorem configure_yields (now : holds at_ start w) {change : Worker K G → Worker K G}
    (same : beyondSettings (change w) = beyondSettings w) :
    Yields contract holds (update change : Task K G Unit) (fun _ => True) at_ start w :=
  yields_update (aside _ _ _ _ now same)

theorem initKidCodec_yields (now : holds at_ start w) (msg : InitMsg) :
    Yields contract holds (initKidCodec msg) (fun _ => True) at_ start w := by
  unfold initKidCodec
  split
  · exact ⟨now, trivial⟩
  · exact yields_bind (yields_settle now fun _ made => made) fun _ _ _ _ now _ =>
      configure_yields aside now rfl

theorem initQueueCap_yields (now : holds at_ start w) (msg : InitMsg) :
    Yields contract holds (initQueueCap msg) (fun _ => True) at_ start w := by
  unfold initQueueCap
  split
  · exact ⟨now, trivial⟩
  · split
    · exact configure_yields aside now rfl
    · exact ⟨now, trivial⟩

theorem initDurable_yields (now : holds at_ start w) (msg : InitMsg) :
    Yields contract holds (initDurable runtime msg) (fun _ => True) at_ start w := by
  unfold initDurable
  split
  · dsimp only
    split
    · exact now
    · apply yields_read
      split
      · exact now
      · exact configure_yields aside now rfl
  · exact configure_yields aside now rfl

theorem handleInit_yields (now : holds at_ start w) (msg : InitMsg) :
    Yields contract holds (handleInit runtime msg) (fun _ => True) at_ start w := by
  refine yields_bind (configure_yields aside now rfl) fun _ _ _ _ now _ => ?_
  refine yields_bind (initKidCodec_yields aside now msg) fun _ _ _ _ now _ => ?_
  refine yields_bind (initQueueCap_yields aside now msg) fun _ _ _ _ now _ => ?_
  refine yields_bind (initDurable_yields aside now msg) fun _ _ _ _ now _ => ?_
  exact configure_yields aside now rfl

/-- Beyond the configuration, a message installs an epoch, empties the replay
windows or ends the session. -/
theorem handleMessage_yields_aside (now : holds at_ start w) {msg : InMsg K}
    (installs : ∀ epoch selfPeerIndex keys,
      msg = .epoch epoch selfPeerIndex keys ∨ msg = .rotate epoch selfPeerIndex keys →
      Yields contract holds (handleEpoch runtime epoch selfPeerIndex keys) (fun _ => True) at_ start w)
    (resizes : ∀ size, msg = .setReplayWindow size →
      holds at_ start { w with replayWindowSize := ⌊size⌋.toNat, replayWindows := ∅ })
    (tearsDown : msg = .teardown → holds at_ start w.teardown) :
    Yields contract holds (handleMessage runtime msg) (fun _ => True) at_ start w := by
  cases msg with
  | init msg => exact handleInit_yields aside now msg
  | epoch epoch selfPeerIndex keys => exact installs _ _ _ (.inl rfl)
  | rotate newEpoch selfPeerIndex keys => exact installs _ _ _ (.inr rfl)
  | teardown => exact yields_update (tearsDown rfl)
  | setReplayWindow size => exact yields_update (resizes size rfl)
  | streams | setSifTrailer | setRatchetWindow | setMetricsEnabled | setFailureTolerance =>
    exact configure_yields aside now rfl

end Init

/-- Beyond the configuration, a message installs an epoch or ends the session. -/
theorem handleMessage_yields (unconfigured : Unconfigured holds) (now : holds at_ start w) {msg : InMsg K}
    (installs : ∀ epoch selfPeerIndex keys,
      msg = .epoch epoch selfPeerIndex keys ∨ msg = .rotate epoch selfPeerIndex keys →
      Yields contract holds (handleEpoch runtime epoch selfPeerIndex keys) (fun _ => True) at_ start w)
    (tearsDown : msg = .teardown → holds at_ start w.teardown) :
    Yields contract holds (handleMessage runtime msg) (fun _ => True) at_ start w := by
  exact handleMessage_yields_aside unconfigured.windowsAside now installs
    (fun size _ => unconfigured _ _ _ _ now rfl) tearsDown

end Messages
/-! ## Gates -/

section Gates
variable {runtime : Runtime K G} {contract : Contract AwaitPoint (Worker K G)} {holds : Reading K G}
  {at_ : AwaitPoint} {start w : Worker K G}

/-- The worker without its replay windows and the checks that they have passed. -/
def beyondChecks (w : Worker K G) : Worker K G :=
  { w with replayWindows := ∅, nextWindow := 0, checked := [] }

/-- The reading does not depend on what checking a counter changes. -/
def Unchecked (holds : Reading K G) : Prop :=
  ∀ at_ start w w', holds at_ start w → beyondChecks w' = beyondChecks w → holds at_ start w'

theorem checkReplay_yields (unchecked : Unchecked holds) (slot : Slot) (now : holds at_ start w) :
    Yields contract holds (checkReplay slot) (fun _ => True) at_ start w := by
  obtain ⟨windows, next, fetched⟩ := Worker.getReplayWindow_snd w slot.epoch slot.peerIndex
  simp only [Yields, checkReplay, meets_bind, meets_read, meets_update]
  split
  · exact ⟨unchecked _ _ _ _ now (by rw [fetched]; rfl), trivial⟩
  · exact ⟨unchecked _ _ _ _ now (by rw [fetched]; rfl), trivial⟩

/-- The reading is not about the durable guard. -/
def Guardless (holds : Reading K G) : Prop :=
  ∀ at_ start w durableReplay, holds at_ start w → holds at_ start { w with durableReplay }

theorem durableCheck_yields (guardless : Guardless holds) {site : AwaitPoint} (survives : Survives contract holds site)
    (slot : Slot) (now : holds at_ start w) :
    Yields contract holds (durableCheck runtime site slot) (fun _ => True) at_ start w := by
  apply yields_read
  split
  · exact ⟨now, trivial⟩
  · refine yields_bind (yields_update (guardless _ _ w _ now)) fun _ _ _ _ now _ => ?_
    exact yields_bind (yields_pause survives now) fun _ _ _ _ now _ => ⟨now, trivial⟩

theorem durableAccept_yields (guardless : Guardless holds) {site : AwaitPoint} (survives : Survives contract holds site)
    (slot : Slot) (now : holds at_ start w) :
    Yields contract holds (durableAccept runtime site slot) (fun _ => True) at_ start w := by
  apply yields_read
  split
  · exact ⟨now, trivial⟩
  · exact yields_bind (yields_update (guardless _ _ w _ now)) fun _ _ _ _ now _ => yields_pause survives now

end Gates
end SFrameRatchet.Media
