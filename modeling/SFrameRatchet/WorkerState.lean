import SFrameRatchet.WorkerTypes

/-! State bookkeeping of the worker (`worker-state.ts`): failure accounting,
epoch installation, the grace-window wipe and teardown, and the small pieces of
`worker-frame.ts` that only touch the state. Every function is the atomic effect
of its source. -/
namespace SFrameRatchet.Media
open Collections Crypto Kid SFrame CodecPartial Replay

variable {K G : Type}

/-- What does not go by some part of the worker is the same of two workers that are the
same without it. -/
theorem congr_erased {α : Type*} {erase : Worker K G → Worker K G} {w w' : Worker K G} (f : Worker K G → α)
    (same : erase w' = erase w) (blind : ∀ v, f (erase v) = f v) : f w' = f w := by
  rw [← blind w', same, blind]

namespace Worker

/-- A worker in its initial state; no call has been made yet. -/
def createWorkerState : Worker K G := {}

def emit (w : Worker K G) (msg : OutMsg) : Worker K G := { w with emitted := w.emitted ++ [msg] }

/-- Post a metric, when metrics are enabled. -/
def emitMetric (w : Worker K G) (event : MetricsEvent) : Worker K G :=
  if w.metricsEnabled then w.emit (.metrics event) else w

/-! ## Failure accounting -/

def isKeyInvalid (w : Worker K G) (epoch peerIndex : ℤ) : Bool :=
  if w.failureTolerance < 0 then false
  else decide (((w.failureCounts.get? (epoch, peerIndex)).getD 0 : ℤ) > w.failureTolerance)

def recordFailure (w : Worker K G) (epoch peerIndex : ℤ) : Worker K G :=
  if w.failureTolerance < 0 then w
  else
    let prev := (w.failureCounts.get? (epoch, peerIndex)).getD 0
    let next := prev + 1
    let counted := { w with failureCounts := w.failureCounts.set (epoch, peerIndex) next }
    -- exactly once, at the transition into the invalid state
    if (prev : ℤ) ≤ w.failureTolerance ∧ (next : ℤ) > w.failureTolerance then
      counted.emitMetric (.keyInvalidated epoch peerIndex next)
    else counted

def recordSuccess (w : Worker K G) (epoch peerIndex : ℤ) : Worker K G :=
  if w.failureTolerance < 0 then w
  else { w with failureCounts := w.failureCounts.set (epoch, peerIndex) 0 }

def resetFailureCount (w : Worker K G) (epoch peerIndex : ℤ) : Worker K G :=
  { w with failureCounts := w.failureCounts.delete (epoch, peerIndex) }

/-! ## Epochs -/

/-- The key table of an epoch message, in the message's order. -/
def installKeys (kidCodec : KidCodec) (epoch : ℤ) :
    List (ℤ × PerSenderKeyBundle K) → OrderedMap ℤ (RatchetKey K) →
      Except JsError (OrderedMap ℤ (RatchetKey K))
  | [], keys => .ok keys
  | (peerIndex, bundle) :: rest, keys => do
    let kid ← kidCodec.encode epoch peerIndex
    installKeys kidCodec epoch rest (keys.set peerIndex
      { kid, epoch, peerIndex, cryptoKey := bundle.cryptoKey, salt := bundle.salt,
        rawKey := bundle.rawKey })

/-- Keys are installed for epochs a header can name, as the bundles carry them. -/
theorem installKeys_held {kidCodec : KidCodec} {epoch peerIndex : ℤ} {key : RatchetKey K}
    {bundles : List (ℤ × PerSenderKeyBundle K)} {keys made : OrderedMap ℤ (RatchetKey K)}
    (installed : installKeys kidCodec epoch bundles keys = .ok made)
    (held : made.get? peerIndex = some key) : keys.get? peerIndex = some key ∨
      0 ≤ epoch ∧ ∃ bundle ∈ bundles.map Prod.snd, bundle.cryptoKey = key.cryptoKey ∧
        bundle.salt = key.salt ∧ bundle.rawKey = key.rawKey := by
  induction bundles generalizing keys with
  | nil => cases installed; exact .inl held
  | cons entry rest ih =>
    obtain ⟨peer, bundle⟩ := entry
    unfold installKeys at installed
    cases encoded : kidCodec.encode epoch peer with
    | error refused => simp [encoded, bind, Except.bind] at installed
    | ok kid =>
      simp only [encoded, bind, Except.bind] at installed
      rcases ih installed with early | ⟨named, later, member, same⟩
      · rw [OrderedMap.get?_set] at early
        split at early
        · obtain rfl := Option.some.inj early
          have named := decode_epoch_nonneg kidCodec kid
          rw [(decode_encode encoded).1] at named
          exact .inr ⟨named, bundle, by simp, rfl, rfl, rfl⟩
        · exact .inl early
      · exact .inr ⟨named, later, List.mem_cons_of_mem _ member, same⟩

/-- Give every epoch below the new one a timer that wipes it. -/
def scheduleWipeOfEpochsBelow (w : Worker K G) (newEpoch : ℤ) : Worker K G :=
  let schedule (timers : OrderedMap ℤ Unit) (epoch : ℤ) :=
    if epoch ≥ newEpoch then timers
    else if timers.has epoch then timers
    else timers.set epoch ()
  { w with wipeTimers := w.epochs.keys.foldl schedule w.wipeTimers }

def installEpoch (w : Worker K G) (epoch selfPeerIndex : ℤ) (bundles : KeyBundles K) :
    Except JsError (Worker K G) := do
  let keys ← installKeys w.kidCodec epoch bundles.entries ∅
  let entry : EpochEntry K := { epoch, selfPeerIndex, keys, ratchetSteps := ∅ }
  let installed := { w with
    epochs := w.epochs.set epoch w.entries.next
    entries := w.entries.alloc entry }
  let fresh := bundles.keys.foldl (fun state pi => state.resetFailureCount epoch pi) installed
  if epoch > w.currentEpoch then
    let advanced := { fresh with
      currentEpoch := epoch, selfPeerIndex := some selfPeerIndex, ctr := 0 }
    let scheduled := (advanced.scheduleWipeOfEpochsBelow epoch).emit (.epochApplied epoch)
    return if w.currentEpoch ≥ 0 then scheduled.emitMetric (.epochAdvance w.currentEpoch epoch)
      else scheduled
  else return fresh

/-- The worker in which an epoch has got its entry, whatever is current. -/
def withEntry (w : Worker K G) (epoch selfPeerIndex : ℤ) (keys : OrderedMap ℤ (RatchetKey K)) :
    Worker K G :=
  { w with
    epochs := w.epochs.set epoch w.entries.next
    entries := w.entries.alloc { epoch, selfPeerIndex, keys, ratchetSteps := ∅ } }

/-- The key of the durable guard for a sender. -/
def durableReplayKey (epoch peerIndex : ℤ) : String := s!"{epoch}|{peerIndex}"

/-- Zeroize the raw keys of an entry in place; its `CryptoKey`s stay usable for
whoever still holds the entry. -/
def zeroizeEntry (entry : EpochEntry K) : EpochEntry K :=
  { entry with keys := entry.keys.mapValues fun _ key => { key with rawKey := zeroize key.rawKey } }

/-- Start a durable clear for every peer of a wiped entry. -/
def clearDurable (guard : ReplayGuard G) (epoch : ℤ) (peers : List ℤ) (durable : G) : G :=
  peers.foldl (fun store peerIndex => guard.clear store (durableReplayKey epoch peerIndex)) durable

def wipeEpoch (guard : ReplayGuard G) (w : Worker K G) (epoch : ℤ) : Worker K G :=
  let entry := w.epochs.get? epoch
  let entries := match entry with
    | some ref => w.entries.write ref (zeroizeEntry (w.entries.read ref))
    | none => w.entries
  let peers := match entry with
    | some ref => (w.entries.read ref).keys.keys
    | none => []
  { w with
    entries
    epochs := w.epochs.delete epoch
    wipeTimers := w.wipeTimers.delete epoch
    replayWindows := w.replayWindows.delete epoch
    formatCache := w.formatCache.delete epoch
    durableReplay := w.durableReplay.map fun durable =>
      if guard.available durable then clearDurable guard epoch peers durable else durable
    currentMinValidEpoch :=
      if epoch + 1 > w.currentMinValidEpoch then epoch + 1 else w.currentMinValidEpoch }

/-- Reset the session; the configuration stays. -/
def teardown (w : Worker K G) : Worker K G :=
  { w with
    wipeTimers := ∅
    epochs := ∅
    replayWindows := ∅
    formatCache := ∅
    preEpochQueue := []
    ctr := 0
    currentEpoch := -1
    currentMinValidEpoch := 0
    selfPeerIndex := none
    failureCounts := ∅
    ratchetPromises := ∅
    encryptStarveActive := false
    encryptStarveSinceMs := 0
    encryptStarveFramesDropped := 0
    encryptStarveLastEmitMs := 0
    durableReplay := none }

/-! ## Replay windows and the format cache -/

/-- Get or create the window of a sender, at the current window size. -/
def getReplayWindow (w : Worker K G) (epoch peerIndex : ℤ) : WindowObject × Worker K G :=
  let inner := (w.replayWindows.get? epoch).getD ∅
  match inner.get? peerIndex with
  | some window => (window, w)
  | none =>
    let window : WindowObject := ⟨w.nextWindow, .new w.replayWindowSize⟩
    (window, { w with
      replayWindows := w.replayWindows.set epoch (inner.set peerIndex window)
      nextWindow := w.nextWindow + 1 })

/-- Accept a counter into a window object held by a call, and note the frame. -/
def acceptReplay (w : Worker K G) (slot : Slot) (object frame : ℕ) : Worker K G :=
  let noted := { w with accepted := w.accepted ++ [(slot, frame)] }
  match w.replayWindows.get? slot.epoch with
  | none => noted
  | some inner =>
    match inner.get? slot.peerIndex with
    | none => noted
    | some held =>
      if held.id = object then
        let moved := { held with window := held.window.accept slot.ctr }
        { noted with
          replayWindows := w.replayWindows.set slot.epoch (inner.set slot.peerIndex moved) }
      else noted

def getFormatCache (w : Worker K G) (epoch peerIndex : ℤ) : Option FormatGuess :=
  (w.formatCache.get? epoch).bind fun inner => inner.get? peerIndex

def setFormatCache (w : Worker K G) (epoch peerIndex : ℤ) (guess : FormatGuess) : Worker K G :=
  let inner := (w.formatCache.get? epoch).getD ∅
  { w with formatCache := w.formatCache.set epoch (inner.set peerIndex guess) }

/-- The key cached for a sender, if its epoch is installed. -/
def cachedKey (w : Worker K G) (epoch peerIndex : ℤ) : Option (RatchetKey K) :=
  (w.epochs.get? epoch).bind fun entry => (w.entries.read entry).keys.get? peerIndex

/-! ## Starvation signals -/

def noteEncryptDrop (w : Worker K G) (reason : EncryptFailure) (detail : String) : Worker K G :=
  if !w.encryptStarveActive then
    { w with
      encryptStarveActive := true
      encryptStarveSinceMs := w.clock
      encryptStarveFramesDropped := 1
      encryptStarveLastEmitMs := w.clock }.emit (.encryptFailure reason detail)
  else
    let counted := { w with encryptStarveFramesDropped := w.encryptStarveFramesDropped + 1 }
    if w.clock - w.encryptStarveLastEmitMs ≥ starveCoalesceMs then
      { counted with encryptStarveLastEmitMs := w.clock }.emit (.encryptFailure reason detail)
    else counted

def clearEncryptStarve (w : Worker K G) : Worker K G :=
  if !w.encryptStarveActive then w
  else { w with
    encryptStarveActive := false
    encryptStarveSinceMs := 0
    encryptStarveFramesDropped := 0
    encryptStarveLastEmitMs := 0 }

def noteStarveDrop (w : Worker K G) (peerIndex : Option ℤ) : Worker K G :=
  if !w.starveActive then
    { w with
      starveActive := true
      starveSinceMs := w.clock
      starveFramesDropped := 1
      starveLastEmitMs := w.clock
      starvePeerIndex := peerIndex }.emit (.decryptStarved peerIndex 1 0)
  else
    let counted := { w with
      starveFramesDropped := w.starveFramesDropped + 1
      starvePeerIndex := peerIndex.or w.starvePeerIndex }
    if w.clock - w.starveLastEmitMs ≥ starveCoalesceMs then
      { counted with starveLastEmitMs := w.clock }.emit
        (.decryptStarved counted.starvePeerIndex counted.starveFramesDropped
          (w.clock - w.starveSinceMs))
    else counted

def clearStarve (w : Worker K G) : Worker K G :=
  if !w.starveActive then w
  else { w with
    starveActive := false
    starveSinceMs := 0
    starveFramesDropped := 0
    starveLastEmitMs := 0
    starvePeerIndex := none }

/-- Park a frame; a full queue first drops its newest entry. -/
def pushToQueue (w : Worker K G) (frame : Ref) (peerIndex : Option ℤ) : Worker K G :=
  let room :=
    if w.preEpochQueue.length ≥ w.preEpochQueueCap then
      (({ w with preEpochQueue := w.preEpochQueue.dropLast }.emit
        (.decryptFailure .queueOverflow none none none none none)).emitMetric
          (.queueDrop .preEpochFull none)).noteStarveDrop peerIndex
    else w
  { room with preEpochQueue := room.preEpochQueue ++ [frame] }

def enqueuePreEpoch (w : Worker K G) (frame : Ref) (peerIndex : ℤ) : Worker K G :=
  w.pushToQueue frame (some peerIndex)

/-! ## What the window table holds -/

/-- The window of a sender, if the table has one. -/
def windowOf (w : Worker K G) (epoch peerIndex : ℤ) : Option WindowObject :=
  (w.replayWindows.get? epoch).bind fun inner => inner.get? peerIndex

/-- A window that the table does not have yet is new and remembers nothing. -/
theorem getReplayWindow_fst (w : Worker K G) (epoch peerIndex : ℤ) :
    (w.getReplayWindow epoch peerIndex).1 = (w.windowOf epoch peerIndex).getD
      ⟨w.nextWindow, { windowSize := w.replayWindowSize }⟩ := by
  unfold getReplayWindow windowOf
  cases w.replayWindows.get? epoch with
  | none => rfl
  | some inner =>
    cases held : inner.get? peerIndex with
    | none => simp [held]
    | some window => simp [held]

/-- Getting a window changes the table for its sender, and nothing else of the
worker but the supply of new windows. -/
theorem windowOf_getReplayWindow (w : Worker K G) (epoch peerIndex e p : ℤ) :
    (w.getReplayWindow epoch peerIndex).2.windowOf e p =
      if e = epoch ∧ p = peerIndex then some (w.getReplayWindow epoch peerIndex).1
      else w.windowOf e p := by
  unfold getReplayWindow windowOf
  dsimp only
  split
  · rename_i window held
    split
    · rename_i same
      obtain ⟨rfl, rfl⟩ := same
      cases table : w.replayWindows.get? e with
      | none => simp [table] at held
      | some inner => simpa [table] using held
    · rfl
  · rename_i missing
    by_cases sameEpoch : e = epoch
    · subst sameEpoch
      by_cases samePeer : p = peerIndex
      · simp [samePeer]
      · cases w.replayWindows.get? e <;> simp [samePeer]
    · simp [sameEpoch]

theorem getReplayWindow_snd (w : Worker K G) (epoch peerIndex : ℤ) :
    ∃ windows next, (w.getReplayWindow epoch peerIndex).2 =
      { w with replayWindows := windows, nextWindow := next } := by
  unfold getReplayWindow
  dsimp only
  split
  · exact ⟨w.replayWindows, w.nextWindow, rfl⟩
  · exact ⟨_, _, rfl⟩

/-- An acceptance reaches the table when the window held is still there. -/
theorem windowOf_acceptReplay (w : Worker K G) (slot : Slot) (object frame : ℕ) (e p : ℤ) :
    (w.acceptReplay slot object frame).windowOf e p =
      if e = slot.epoch ∧ p = slot.peerIndex then
        (w.windowOf e p).map fun held =>
          if held.id = object then { held with window := held.window.accept slot.ctr } else held
      else w.windowOf e p := by
  unfold acceptReplay windowOf
  dsimp only
  cases table : w.replayWindows.get? slot.epoch with
  | none =>
    dsimp only
    split
    · rename_i same; simp [same, table]
    · rfl
  | some inner =>
    dsimp only
    cases held : inner.get? slot.peerIndex with
    | none =>
      dsimp only
      split
      · rename_i same; simp [same, table, held]
      · rfl
    | some window =>
      dsimp only
      by_cases own : window.id = object
      · by_cases sameEpoch : e = slot.epoch
        · by_cases samePeer : p = slot.peerIndex
          · simp [own, sameEpoch, samePeer, table, held]
          · simp [own, sameEpoch, samePeer, table]
        · simp [own, sameEpoch]
      · rw [if_neg own]
        split
        · rename_i same; simp [same, table, held, own]
        · rfl

theorem acceptReplay_eq (w : Worker K G) (slot : Slot) (object frame : ℕ) :
    ∃ windows, w.acceptReplay slot object frame =
      { w with replayWindows := windows, accepted := w.accepted ++ [(slot, frame)] } := by
  unfold acceptReplay
  dsimp only
  split
  · exact ⟨_, rfl⟩
  · split
    · exact ⟨_, rfl⟩
    · split <;> exact ⟨_, rfl⟩

@[simp] theorem getFormatCache_setFormatCache (w : Worker K G) (epoch peerIndex : ℤ)
    (guess : FormatGuess) :
    (w.setFormatCache epoch peerIndex guess).getFormatCache epoch peerIndex = some guess := by
  simp [getFormatCache, setFormatCache]

/-! ## The books

A worker keeps books: it posts signals, has an alarm on either side behind some of them,
and counts failures. Each bookkeeping function is looked into once, here; what does not go
by the books is the same before and after it. -/

/-- The worker without its signals and the alarm of the decode side. -/
def unsignalled (w : Worker K G) : Worker K G :=
  { w with
    emitted := []
    starveActive := false, starveSinceMs := 0, starveFramesDropped := 0, starveLastEmitMs := 0
    starvePeerIndex := none }

/-- The worker without its signals and either alarm. -/
def unalarmed (w : Worker K G) : Worker K G :=
  { w.unsignalled with
    encryptStarveActive := false, encryptStarveSinceMs := 0, encryptStarveFramesDropped := 0
    encryptStarveLastEmitMs := 0 }

/-- The worker without what decoding keeps books of: signals, its alarm and failures. -/
def unbooked (w : Worker K G) : Worker K G := { w.unsignalled with failureCounts := ∅ }

section Books
variable (w : Worker K G)

@[simp] theorem unsignalled_emit (msg : OutMsg) : (w.emit msg).unsignalled = w.unsignalled := rfl

@[simp] theorem unsignalled_emitMetric (event : MetricsEvent) : (w.emitMetric event).unsignalled = w.unsignalled := by
  unfold emitMetric
  split <;> rfl

@[simp] theorem unsignalled_noteStarveDrop (peerIndex : Option ℤ) :
    (w.noteStarveDrop peerIndex).unsignalled = w.unsignalled := by
  unfold noteStarveDrop
  split
  · rfl
  · dsimp only
    split <;> rfl

@[simp] theorem unsignalled_clearStarve : w.clearStarve.unsignalled = w.unsignalled := by
  unfold clearStarve
  split <;> rfl

@[simp] theorem unalarmed_noteEncryptDrop (reason : EncryptFailure) (detail : String) :
    (w.noteEncryptDrop reason detail).unalarmed = w.unalarmed := by
  unfold noteEncryptDrop
  split
  · rfl
  · dsimp only
    split <;> rfl

@[simp] theorem unalarmed_clearEncryptStarve : w.clearEncryptStarve.unalarmed = w.unalarmed := by
  unfold clearEncryptStarve
  split <;> rfl

theorem unalarmed_of_unsignalled {w w' : Worker K G} (same : w'.unsignalled = w.unsignalled) :
    w'.unalarmed = w.unalarmed := congr_erased unalarmed same fun _ => rfl

theorem unbooked_of_unsignalled {w w' : Worker K G} (same : w'.unsignalled = w.unsignalled) :
    w'.unbooked = w.unbooked := congr_erased unbooked same fun _ => rfl

@[simp] theorem unbooked_emitMetric (event : MetricsEvent) : (w.emitMetric event).unbooked = w.unbooked :=
  unbooked_of_unsignalled (w.unsignalled_emitMetric event)

@[simp] theorem unbooked_recordFailure (epoch peerIndex : ℤ) :
    (w.recordFailure epoch peerIndex).unbooked = w.unbooked := by
  unfold recordFailure
  split
  · rfl
  · dsimp only
    split
    · rw [unbooked_emitMetric]
      rfl
    · rfl

@[simp] theorem unbooked_recordSuccess (epoch peerIndex : ℤ) :
    (w.recordSuccess epoch peerIndex).unbooked = w.unbooked := by
  unfold recordSuccess
  split <;> rfl

end Books

/-- A frame is parked behind the others, of which the last may go; the rest is bookkeeping. -/
theorem unsignalled_pushToQueue (w : Worker K G) (frame : Ref) (peerIndex : Option ℤ) :
    ∃ kept, kept.Sublist w.preEpochQueue ∧
      (w.pushToQueue frame peerIndex).unsignalled = { w with preEpochQueue := kept ++ [frame] }.unsignalled := by
  unfold pushToQueue
  split
  · refine ⟨w.preEpochQueue.dropLast, List.dropLast_sublist _, ?_⟩
    generalize room : (({ w with preEpochQueue := w.preEpochQueue.dropLast }.emit
      (.decryptFailure .queueOverflow none none none none none)).emitMetric
        (.queueDrop .preEpochFull none)).noteStarveDrop peerIndex = other
    have same : other.unsignalled = { w with preEpochQueue := w.preEpochQueue.dropLast }.unsignalled := by
      rw [← room]; simp
    change { other.unsignalled with preEpochQueue := other.unsignalled.preEpochQueue ++ [frame] } = _
    rw [same]
    rfl
  · exact ⟨w.preEpochQueue, List.Sublist.refl _, rfl⟩

/-! ## The core

What is left of a worker without its books and its format cache, so that a statement
about the core passes through all bookkeeping. -/

def core (w : Worker K G) : Worker K G :=
  { w with
    emitted := [], failureCounts := ∅, formatCache := ∅
    starveActive := false, starveSinceMs := 0, starveFramesDropped := 0, starveLastEmitMs := 0
    starvePeerIndex := none
    encryptStarveActive := false, encryptStarveSinceMs := 0, encryptStarveFramesDropped := 0
    encryptStarveLastEmitMs := 0 }

theorem core_of_unbooked {w w' : Worker K G} (same : w'.unbooked = w.unbooked) : w'.core = w.core :=
  congr_erased core same fun _ => rfl

section Core
variable (w : Worker K G)

@[simp] theorem core_emit (msg : OutMsg) : (w.emit msg).core = w.core := rfl

@[simp] theorem core_emitMetric (event : MetricsEvent) : (w.emitMetric event).core = w.core :=
  core_of_unbooked (w.unbooked_emitMetric event)

@[simp] theorem core_recordFailure (epoch peerIndex : ℤ) : (w.recordFailure epoch peerIndex).core = w.core :=
  core_of_unbooked (w.unbooked_recordFailure epoch peerIndex)

@[simp] theorem core_recordSuccess (epoch peerIndex : ℤ) : (w.recordSuccess epoch peerIndex).core = w.core :=
  core_of_unbooked (w.unbooked_recordSuccess epoch peerIndex)

@[simp] theorem core_resetFailureCount (epoch peerIndex : ℤ) :
    (w.resetFailureCount epoch peerIndex).core = w.core := rfl

@[simp] theorem core_setFormatCache (epoch peerIndex : ℤ) (guess : FormatGuess) :
    (w.setFormatCache epoch peerIndex guess).core = w.core := rfl

@[simp] theorem core_clearEncryptStarve : w.clearEncryptStarve.core = w.core :=
  congr_erased core w.unalarmed_clearEncryptStarve fun _ => rfl

@[simp] theorem core_noteStarveDrop (peerIndex : Option ℤ) : (w.noteStarveDrop peerIndex).core = w.core :=
  core_of_unbooked (unbooked_of_unsignalled (w.unsignalled_noteStarveDrop peerIndex))

@[simp] theorem core_clearStarve : w.clearStarve.core = w.core :=
  core_of_unbooked (unbooked_of_unsignalled w.unsignalled_clearStarve)

end Core

/-- An installed epoch has an entry with the message's keys. It becomes the
current one, with the counter at zero, exactly when it is above the last. -/
theorem core_installEpoch {w installed : Worker K G} {epoch selfPeerIndex : ℤ}
    {bundles : KeyBundles K} (ok : w.installEpoch epoch selfPeerIndex bundles = .ok installed) :
    ∃ keys, installKeys w.kidCodec epoch bundles.entries ∅ = .ok keys ∧
      installed.core = (if epoch > w.currentEpoch then
        ({ w.withEntry epoch selfPeerIndex keys with
            currentEpoch := epoch, selfPeerIndex := some selfPeerIndex
            ctr := 0 }.scheduleWipeOfEpochsBelow epoch).core
      else (w.withEntry epoch selfPeerIndex keys).core) := by
  unfold installEpoch at ok
  cases made : installKeys w.kidCodec epoch bundles.entries ∅ with
  | error refused => simp [made, bind, Except.bind] at ok
  | ok keys =>
    simp only [made, bind, Except.bind] at ok
    have reset (peers : List ℤ) (state : Worker K G) :
        (peers.foldl (fun state pi => state.resetFailureCount epoch pi) state).core = state.core := by
      induction peers generalizing state with
      | nil => rfl
      | cons peer rest ih => exact (ih _).trans (core_resetFailureCount state epoch peer)
    refine ⟨keys, rfl, ?_⟩
    split at ok
    · rename_i above
      rw [if_pos above]
      generalize fresh : bundles.keys.foldl _ _ = state at ok
      have same : state.core = (w.withEntry epoch selfPeerIndex keys).core := fresh ▸ reset _ _
      have advance : ({ state with
          currentEpoch := epoch, selfPeerIndex := some selfPeerIndex
          ctr := 0 }.scheduleWipeOfEpochsBelow epoch).core =
          ({ state.core with
            currentEpoch := epoch, selfPeerIndex := some selfPeerIndex
            ctr := 0 }.scheduleWipeOfEpochsBelow epoch).core := rfl
      split at ok <;> cases ok <;> simp only [core_emitMetric, core_emit] <;>
        rw [advance, same] <;> rfl
    · rename_i below
      rw [if_neg below]
      cases ok
      exact reset _ _

/-- Each bundle of an epoch message becomes a key under its codec's identifier. -/
theorem installKeys_lookup {kidCodec : KidCodec} {epoch peerIndex : ℤ} {bundle : PerSenderKeyBundle K}
    {bundles : List (ℤ × PerSenderKeyBundle K)} {keys made : OrderedMap ℤ (RatchetKey K)}
    (nodup : (bundles.map Prod.fst).Nodup) (carried : OrderedMap.lookup peerIndex bundles = some bundle)
    (ok : installKeys kidCodec epoch bundles keys = .ok made) :
    ∃ kid, kidCodec.encode epoch peerIndex = .ok kid ∧ made.get? peerIndex = some
      { kid, epoch, peerIndex, cryptoKey := bundle.cryptoKey, salt := bundle.salt, rawKey := bundle.rawKey } := by
  have kept (rest : List (ℤ × PerSenderKeyBundle K)) :
      ∀ (keys made : OrderedMap ℤ (RatchetKey K)), peerIndex ∉ rest.map Prod.fst →
        installKeys kidCodec epoch rest keys = .ok made → made.get? peerIndex = keys.get? peerIndex := by
    induction rest with
    | nil => rintro keys made - ⟨⟩; rfl
    | cons entry rest ih =>
      intro keys made absent ok
      rw [List.map_cons, List.mem_cons, not_or] at absent
      obtain ⟨first, others⟩ := absent
      cases encoded : kidCodec.encode epoch entry.1 with
      | error refused => simp [installKeys, encoded, bind, Except.bind] at ok
      | ok kid =>
        simp only [installKeys, encoded, bind, Except.bind] at ok
        rw [ih _ made others ok, OrderedMap.get?_set, if_neg first]
  induction bundles generalizing keys with
  | nil => cases carried
  | cons entry rest ih =>
    obtain ⟨absent, nodup⟩ := List.nodup_cons.mp nodup
    cases encoded : kidCodec.encode epoch entry.1 with
    | error refused => simp [installKeys, encoded, bind, Except.bind] at ok
    | ok kid =>
      simp only [installKeys, encoded, bind, Except.bind] at ok
      unfold OrderedMap.lookup at carried
      split at carried
      · rename_i same
        cases carried
        subst same
        exact ⟨kid, encoded, by rw [kept rest _ made absent ok, OrderedMap.get?_set, if_pos rfl]⟩
      · exact ih nodup carried ok

/-- An install neither fills the format cache nor raises a failure count. -/
theorem installEpoch_accounts {w w' : Worker K G} {epoch selfPeerIndex : ℤ} {bundles : KeyBundles K}
    (ok : w.installEpoch epoch selfPeerIndex bundles = .ok w') :
    w'.formatCache = w.formatCache ∧ ∀ sender, w'.failureCounts.get? sender = none ∨
      w'.failureCounts.get? sender = w.failureCounts.get? sender := by
  have reset (peers : List ℤ) (v : Worker K G) :
      (peers.foldl (fun state pi => state.resetFailureCount epoch pi) v).formatCache = v.formatCache ∧
      ∀ sender, (peers.foldl (fun state pi => state.resetFailureCount epoch pi) v).failureCounts.get? sender = none ∨
        (peers.foldl (fun state pi => state.resetFailureCount epoch pi) v).failureCounts.get? sender =
          v.failureCounts.get? sender := by
    induction peers generalizing v with
    | nil => exact ⟨rfl, fun _ => .inr rfl⟩
    | cons peer rest ih =>
      refine ⟨(ih _).1, fun sender => ?_⟩
      rcases (ih (v.resetFailureCount epoch peer)).2 sender with gone | same
      · exact .inl gone
      · simp only [resetFailureCount, OrderedMap.get?_delete] at same
        split at same
        · exact .inl same
        · exact .inr same
  unfold installEpoch at ok
  cases made : installKeys w.kidCodec epoch bundles.entries ∅ with
  | error refused => simp [made, bind, Except.bind] at ok
  | ok keys =>
    simp only [made, bind, Except.bind] at ok
    have fresh := reset bundles.keys (w.withEntry epoch selfPeerIndex keys)
    split at ok
    · split at ok <;> cases ok
      · unfold emitMetric
        split <;> exact fresh
      · exact fresh
    · cases ok
      exact fresh

/-- Parking a frame changes the queue and nothing else of the core. -/
theorem core_pushToQueue (w : Worker K G) (frame : Ref) (peerIndex : Option ℤ) :
    ∃ kept, kept.Sublist w.preEpochQueue ∧
      (w.pushToQueue frame peerIndex).core = { w with preEpochQueue := kept ++ [frame] }.core := by
  obtain ⟨kept, fewer, same⟩ := w.unsignalled_pushToQueue frame peerIndex
  exact ⟨kept, fewer, core_of_unbooked (unbooked_of_unsignalled same)⟩

end Worker
end SFrameRatchet.Media
