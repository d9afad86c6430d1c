import Mathlib.Tactic.FinCases
import SFrameRatchet.Reinstall
import SFrameRatchet.SoloOpening
import SFrameRatchet.Specimen

/-! The frames of one sender leave the others alone. What a worker keeps for a sender, its
key, cursor, replay window, format and failures, is touched by a decoder only if a header
that it has found names that sender, whatever the frame is and however it ends. -/
namespace SFrameRatchet.SenderIsolation
open Collections Crypto Kid Header SFrame CodecPartial Throwing Coroutine Interleaving Media Unsealing AlikeWorkers

variable {K G : Type} {runtime : Runtime K G}

/-- What frames of all senders are decoded with. -/
def setup (w : Worker K G) :=
  (w.codec, w.sifTrailer, w.kidCodec, w.suite, w.ratchetWindowSize, w.replayWindowSize, w.failureTolerance, w.epochs,
    w.currentEpoch, w.currentMinValidEpoch)

/-- How far the key of a sender has advanced. -/
def cursor (epoch peerIndex : ℤ) (w : Worker K G) : Option ℕ :=
  (w.epochs.get? epoch).bind fun entry => (w.entries.read entry).ratchetSteps.get? peerIndex

/-- What a worker keeps for one sender. -/
def account (epoch peerIndex : ℤ) (w : Worker K G) :=
  (w.cachedKey epoch peerIndex, cursor epoch peerIndex w, w.windowOf epoch peerIndex, w.getFormatCache epoch peerIndex,
    w.failureCounts.get? (epoch, peerIndex))

/-- All that the decoding of a sender's frames goes by. -/
def about (epoch peerIndex : ℤ) (w : Worker K G) := (setup w, account epoch peerIndex w)

/-- The same, with the headers that have been found. -/
def seen (epoch peerIndex : ℤ) (w : Worker K G) := (about epoch peerIndex w, w.resolved)

/-- A header that names another sender. -/
def Elsewhere (epoch peerIndex other peer : ℤ) : Prop := ¬ (other = epoch ∧ peer = peerIndex)

variable {epoch peerIndex other peer : ℤ} {w w' base : Worker K G}

/-! ## Updates for another sender -/

theorem seen_signals (same : w'.unsignalled = w.unsignalled) : seen epoch peerIndex w' = seen epoch peerIndex w :=
  congr_erased (seen epoch peerIndex) same fun _ => rfl

theorem seen_pushToQueue (w : Worker K G) (frame : Ref) (hint : Option ℤ) :
    seen epoch peerIndex (w.pushToQueue frame hint) = seen epoch peerIndex w := by
  obtain ⟨kept, -, same⟩ := w.unsignalled_pushToQueue frame hint
  exact (seen_signals same).trans rfl

theorem seen_windows {replayWindows : OrderedMap ℤ (OrderedMap ℤ WindowObject)}
    (kept : Worker.windowOf { w with replayWindows } epoch peerIndex = w.windowOf epoch peerIndex) :
    seen epoch peerIndex { w with replayWindows } = seen epoch peerIndex w := by
  unfold seen about account
  rw [kept]
  rfl

theorem seen_counts {failureCounts : OrderedMap (ℤ × ℤ) ℕ}
    (kept : failureCounts.get? (epoch, peerIndex) = w.failureCounts.get? (epoch, peerIndex)) :
    seen epoch peerIndex { w with failureCounts } = seen epoch peerIndex w := by
  unfold seen about account
  dsimp only
  rw [kept]
  rfl

section Elsewhere
variable (elsewhere : Elsewhere epoch peerIndex other peer)

include elsewhere

theorem seen_setFormatCache (w : Worker K G) (guess : FormatGuess) :
    seen epoch peerIndex (w.setFormatCache other peer guess) = seen epoch peerIndex w := by
  have formats : (w.setFormatCache other peer guess).getFormatCache epoch peerIndex =
    w.getFormatCache epoch peerIndex := by
    unfold Worker.getFormatCache Worker.setFormatCache
    by_cases same : epoch = other
    · subst same
      have apart : peerIndex ≠ peer := fun equal => elsewhere ⟨rfl, equal.symm⟩
      cases held : w.formatCache.get? epoch <;> simp [apart]
    · simp [same]
  unfold seen about account
  rw [formats]
  rfl

theorem seen_getReplayWindow (w : Worker K G) :
    seen epoch peerIndex (w.getReplayWindow other peer).2 = seen epoch peerIndex w := by
  have windows := w.windowOf_getReplayWindow other peer epoch peerIndex
  rw [if_neg (fun same => elsewhere ⟨same.1.symm, same.2.symm⟩)] at windows
  obtain ⟨table, next, same⟩ := w.getReplayWindow_snd other peer
  rw [same] at windows ⊢
  exact seen_windows windows

theorem seen_acceptReplay (w : Worker K G) (ctr object frame : ℕ) :
    seen epoch peerIndex (w.acceptReplay ⟨other, peer, ctr⟩ object frame) = seen epoch peerIndex w := by
  have windows := w.windowOf_acceptReplay ⟨other, peer, ctr⟩ object frame epoch peerIndex
  rw [if_neg (fun same => elsewhere ⟨same.1.symm, same.2.symm⟩)] at windows
  obtain ⟨table, same⟩ := w.acceptReplay_eq ⟨other, peer, ctr⟩ object frame
  rw [same] at windows ⊢
  exact seen_windows windows

theorem seen_recordSuccess (w : Worker K G) :
    seen epoch peerIndex (w.recordSuccess other peer) = seen epoch peerIndex w := by
  unfold Worker.recordSuccess
  split
  · rfl
  · apply seen_counts
    rw [OrderedMap.get?_set, if_neg (fun same => elsewhere ⟨(Prod.mk.inj same).1.symm, (Prod.mk.inj same).2.symm⟩)]

theorem seen_recordFailure (w : Worker K G) :
    seen epoch peerIndex (w.recordFailure other peer) = seen epoch peerIndex w := by
  have counted (count : ℕ) : seen epoch peerIndex { w with failureCounts := w.failureCounts.set (other, peer) count } =
      seen epoch peerIndex w := by
    apply seen_counts
    rw [OrderedMap.get?_set, if_neg (fun same => elsewhere ⟨(Prod.mk.inj same).1.symm, (Prod.mk.inj same).2.symm⟩)]
  unfold Worker.recordFailure
  split
  · rfl
  · dsimp only
    split
    · exact (seen_signals (Worker.unsignalled_emitMetric _ _)).trans (counted _)
    · exact counted _

/-- An entry that is found under one epoch is not installed for another one. -/
theorem seen_advanceKey (own : OwnEntries w) {entry : Ref} (found : w.epochs.get? other = some entry)
    (next : RatchetKey K) (step : ℕ) : seen epoch peerIndex
    (advanceKey w entry peer next step) = seen epoch peerIndex w := by
  have apart {ref : Ref} (installed : w.epochs.get? epoch = some ref) (same : ref = entry) : peerIndex ≠ peer := by
    subst same
    exact fun equal => elsewhere ⟨own _ _ _ found installed, equal.symm⟩
  have keys : (advanceKey w entry peer next step).cachedKey epoch peerIndex = w.cachedKey epoch peerIndex := by
    unfold Worker.cachedKey advanceKey
    dsimp only
    cases installed : w.epochs.get? epoch with
    | none => rfl
    | some ref =>
      by_cases same : ref = entry
      · subst same
        simp [apart installed rfl]
      · simp [same]
  have cursors : cursor epoch peerIndex (advanceKey w entry peer next step) = cursor epoch peerIndex w := by
    unfold cursor advanceKey
    dsimp only
    cases installed : w.epochs.get? epoch with
    | none => rfl
    | some ref =>
      by_cases same : ref = entry
      · subst same
        simp [apart installed rfl]
      · simp [same]
  unfold seen about account
  rw [keys, cursors]
  rfl

end Elsewhere

/-- A failure is counted against the sender that the header named. -/
theorem seen_failDecode (w : Worker K G) {vars : HeaderVars} {refused : JsError}
    (elsewhere : refused.isAeadFailure = true → Elsewhere epoch peerIndex vars.epoch vars.peerIndex) :
    seen epoch peerIndex (failDecode w vars refused) = seen epoch peerIndex w := by
  have counted : seen epoch peerIndex (if vars.epoch ≥ 0 ∧ vars.peerIndex ≥ 0 ∧ refused.isAeadFailure then
      w.recordFailure vars.epoch vars.peerIndex else w) = seen epoch peerIndex w := by
    split
    · rename_i counts
      exact seen_recordFailure (elsewhere counts.2.2) w
    · rfl
  unfold failDecode
  dsimp only
  split
  · exact (seen_signals (Worker.unsignalled_emitMetric _ _)).trans counted
  · exact (seen_signals (Worker.unsignalled_emitMetric _ _)).trans counted
  · exact (seen_signals (Worker.unsignalled_emitMetric _ _)).trans counted
  · exact (seen_signals (Worker.unsignalled_emitMetric _ _)).trans counted

/-! ## Decoding for another sender -/

/-- A reading that goes by what is seen of one sender. -/
structure Aloof (holds : Reading K G) (epoch peerIndex : ℤ) : Prop where
  of : ∀ {at_ start w w'}, holds at_ start w → seen epoch peerIndex w' = seen epoch peerIndex w → holds at_ start w'
  advances : ∀ {at_ start w other peer entry}, holds at_ start w → w.epochs.get? other = some entry →
    Elsewhere epoch peerIndex other peer → ∀ {at_ start w}, holds at_ start w → ∀ next step,
    holds at_ start (advanceKey w entry peer next step)

/-- A site inside a decoder that does not show a counter of the sender. -/
def Passes (epoch peerIndex : ℤ) (site : AwaitPoint) : Prop :=
  Within site ∧ ∀ held, site.slot = some held → Elsewhere epoch peerIndex held.1.epoch held.1.peerIndex

theorem passes_slot (elsewhere : Elsewhere epoch peerIndex other peer) {site : AwaitPoint} (within : Within site)
    {ctr object : ℕ} (shows : site.slot = some (⟨other, peer, ctr⟩, object)) : Passes epoch peerIndex site := by
  refine ⟨within, fun held shown => ?_⟩
  obtain rfl := Option.some.inj (shows.symm.trans shown)
  exact elsewhere

theorem passes_slotless {site : AwaitPoint} (within : Within site) (shows : site.slot = none) :
    Passes epoch peerIndex site := ⟨within, fun held shown => by rw [shows] at shown; cases shown⟩

section Walk
variable {contract : Contract AwaitPoint (Worker K G)} {holds : Reading K G} {at_ : AwaitPoint} {start : Worker K G}
  (aloof : Aloof holds epoch peerIndex)

include aloof

theorem aloof_guardless : Guardless holds := fun _ _ _ _ now => aloof.of now rfl

theorem aloof_bystander {entry : Ref} (now : holds at_ start w) (installed : w.epochs.get? other = some entry)
    (elsewhere : Elsewhere epoch peerIndex other peer) : FrameWalk.Bystander holds entry peer where
  quiet {_ _ w w'} now same _ := aloof.of now
    (congrArg (seen epoch peerIndex) same : seen epoch peerIndex (FrameWalk.beyondRatchet w') =
      seen epoch peerIndex (FrameWalk.beyondRatchet w))
  advances now' := aloof.advances now installed elsewhere now'

theorem checkReplay_aloof (elsewhere : Elsewhere epoch peerIndex other peer) (ctr : ℕ) (now : holds at_ start w) :
    Yields contract holds (checkReplay ⟨other, peer, ctr⟩) (fun _ => True) at_ start w := by
  have asked := aloof.of now (seen_getReplayWindow elsewhere w)
  simp only [Yields, checkReplay, meets_bind, meets_read, meets_update]
  split
  · exact ⟨aloof.of asked rfl, trivial⟩
  · exact ⟨asked, trivial⟩

variable (survives : ∀ site, Passes epoch peerIndex site → Survives contract holds site)

include survives

theorem openResolved_aloof (elsewhere : Elsewhere epoch peerIndex other peer) (frame : Ref) (ctr object : ℕ)
    (payload : Bytes) (guess : FormatGuess) (probed : Option Probed) (now : holds at_ start w) :
    Yields contract holds (openResolved runtime frame (⟨other, peer, ctr⟩, object) payload guess probed)
      (fun _ => True) at_ start w := by
  cases probed with
  | some found =>
    exact yields_bind (yields_update (aloof.of now (seen_setFormatCache elsewhere w guess)))
      fun _ _ _ _ now _ => ⟨now, trivial⟩
  | none =>
    have opens {site : RatchetPoint → AwaitPoint} (survives : ∀ point, Survives contract holds (site point))
        (o : Opening) (own : o.epoch = other ∧ o.peerIndex = peer) :
        Yields contract holds (tryDecryptWithRatchet runtime site o) (fun _ => True) at_ start w := by
      obtain ⟨rfl, rfl⟩ := own
      rw [FrameWalk.tryDecryptWithRatchet_eq]
      apply yields_read
      split
      · exact now
      · rename_i entry installed
        split
        · exact now
        · exact FrameWalk.openUnder_yields survives (aloof_bystander aloof now installed elsewhere) now
    refine yields_bind (yields_attempt
      (opens (fun _ => survives _ (passes_slot elsewhere (by simp [Within]) rfl)) _ ⟨rfl, rfl⟩))
      fun _ _ outcome _ now _ => ?_
    refine yields_bind (yields_pause (survives _ (passes_slot elsewhere (by simp [Within]) rfl)) now)
      fun _ _ _ _ now _ => ?_
    refine yields_bind (yields_settle now fun _ _ => trivial) fun _ _ opened w now _ => ?_
    exact yields_bind (yields_update (aloof.of now (seen_setFormatCache elsewhere w guess)))
      fun _ _ _ _ now _ => ⟨now, trivial⟩

theorem acceptFrame_aloof (elsewhere : Elsewhere epoch peerIndex other peer) (frame : Ref) (ctr object : ℕ)
    (payload : Bytes) (guess : FormatGuess) (opened : Bytes) (now : holds at_ start w) :
    Yields contract holds (acceptFrame runtime frame (⟨other, peer, ctr⟩, object) payload guess opened)
      (fun _ => True) at_ start w := by
  refine yields_bind (yields_update (aloof.of now (seen_acceptReplay elsewhere w ctr object frame)))
    fun _ _ _ _ now _ => ?_
  refine yields_bind (durableAccept_yields (aloof_guardless aloof)
    (survives _ (passes_slotless (by simp [Within]) rfl)) _ now)
    fun _ _ _ w now _ => ?_
  refine yields_bind (yields_update (aloof.of now (seen_recordSuccess elsewhere w))) fun _ _ _ w now _ => ?_
  refine yields_bind (yields_update (aloof.of now rfl)) fun _ _ _ w now _ => ?_
  exact yields_update (aloof.of now (seen_signals w.unsignalled_clearStarve))

/-- **Another sender's header.** Whatever the gates and the opening come to, what is seen
of the sender is as it was. -/
theorem decodePayload_aloof (frame : Ref) (payload : Bytes) (guess : FormatGuess) (probed : Option Probed)
    (hdr : SFrameHeader) (now : holds at_ start w)
    (elsewhere : Elsewhere epoch peerIndex (w.kidCodec.decode hdr.kid).1 (w.kidCodec.decode hdr.kid).2) :
    Yields contract holds (decodePayload runtime frame payload guess probed hdr) (fun _ => True) at_ start w := by
  unfold decodePayload
  apply yields_read
  dsimp only
  split
  · refine yields_bind (yields_update (aloof.of now (seen_signals (Worker.unsignalled_emitMetric _ _))))
      fun _ _ _ _ now _ => now
  · split
    · exact yields_bind (yields_update (aloof.of now (seen_pushToQueue w frame _))) fun _ _ _ _ now _ => ⟨now, trivial⟩
    · refine yields_bind (checkReplay_aloof aloof elsewhere hdr.ctr now) fun _ _ object w now _ => ?_
      cases object with
      | none =>
        exact yields_bind (yields_update (aloof.of now (seen_signals (unsignalled_reportReplay w hdr _ _))))
          fun _ _ _ _ now _ => now
      | some object =>
        refine yields_bind (durableCheck_yields (aloof_guardless aloof)
          (survives _ (passes_slot elsewhere (by simp [Within]) rfl)) _ now) fun _ _ answer w now _ => ?_
        split
        · exact yields_bind (yields_update (aloof.of now (seen_signals (unsignalled_reportReplay w hdr _ _))))
            fun _ _ _ _ now _ => now
        · apply yields_read
          split
          · exact yields_bind (yields_update (aloof.of now (seen_signals (unsignalled_reportKeyInvalid w hdr _ _))))
              fun _ _ _ _ now _ => now
          · refine yields_bind (openResolved_aloof aloof survives elsewhere frame hdr.ctr object
              payload guess probed now)
              fun _ _ opened _ now _ => ?_
            refine yields_bind (acceptFrame_aloof aloof survives elsewhere frame hdr.ctr object
              payload guess opened now)
              fun _ _ _ w now _ => ?_
            exact yields_bind (yields_update (aloof.of now (seen_signals (w.unsignalled_emitMetric _)))) fun _ _ _ _ now
              _ => ⟨now, trivial⟩

end Walk

/-! ## Turns -/

/-- A header that names the sender has been found since. -/
def Named (epoch peerIndex : ℤ) (start w : Worker K G) : Prop :=
  ∃ found ∈ foundSince start w, ¬ Elsewhere epoch peerIndex found.2.epoch found.2.peerIndex

/-- What a turn leaves as it was, for a sender that none of its headers names. -/
structure Spared (base : Worker K G) (epoch peerIndex : ℤ) (start w : Worker K G) : Prop where
  setup : setup w = setup base
  grown : start.resolved <+: w.resolved
  account : Named epoch peerIndex start w ∨ account epoch peerIndex w = account epoch peerIndex base

/-- A call does not wait with a counter of the sender, and finds and leaves what is kept
for it as it was, until a header names it. -/
def sparing (base : Worker K G) (epoch peerIndex : ℤ) : Contract AwaitPoint (Worker K G) where
  assume at_ w := about epoch peerIndex w = about epoch peerIndex base ∧
    ∀ held, at_.slot = some held → Elsewhere epoch peerIndex held.1.epoch held.1.peerIndex
  moves _ start next w := setup w = setup base ∧ (Named epoch peerIndex start w ∨
    account epoch peerIndex w = account epoch peerIndex base ∧
      ∀ held, next.slot = some held → Elsewhere epoch peerIndex held.1.epoch held.1.peerIndex)

section Turns
variable {at_ : AwaitPoint} {start : Worker K G}

theorem named_of (named : Named epoch peerIndex start w) (same : w'.resolved = w.resolved) :
    Named epoch peerIndex start w' := by
  unfold Named foundSince at named ⊢
  rw [same]
  exact named

theorem spared_refl (same : about epoch peerIndex w = about epoch peerIndex base) : Spared base epoch peerIndex w w :=
  ⟨(Prod.mk.inj same).1, List.prefix_refl _, .inr (Prod.mk.inj same).2⟩

theorem spared_of (now : Spared base epoch peerIndex start w)
    (same : seen epoch peerIndex w' = seen epoch peerIndex w) :
    Spared base epoch peerIndex start w' := by
  obtain ⟨about, resolved⟩ := Prod.mk.inj same
  obtain ⟨setup, account⟩ := Prod.mk.inj about
  refine ⟨setup.trans now.setup, resolved ▸ now.grown, ?_⟩
  rcases now.account with named | kept
  · exact .inl (named_of named resolved)
  · exact .inr (account.trans kept)

theorem epochs_of_setup (same : setup w = setup base) : w.epochs = base.epochs := by
  simp only [setup, Prod.mk.injEq] at same
  exact same.2.2.2.2.2.2.2.1

theorem aloof_spared (own : OwnEntries base) :
    Aloof (fun _ start (w : Worker K G) => Spared base epoch peerIndex start w) epoch peerIndex where
  of now same := spared_of now same
  advances {_ _ w other peer entry} now installed elsewhere _ _ v later next step := by
    have table := epochs_of_setup later.setup
    have ownNow : OwnEntries v := by
      unfold OwnEntries
      rw [table]
      exact own
    have found : v.epochs.get? other = some entry := by
      rw [table, ← epochs_of_setup now.setup]
      exact installed
    exact spared_of later (seen_advanceKey elsewhere ownNow found next step)

theorem spared_survives {site : AwaitPoint}
    (passes : ∀ held, site.slot = some held → Elsewhere epoch peerIndex held.1.epoch held.1.peerIndex) :
    Survives (sparing base epoch peerIndex) (fun _ start w => Spared base epoch peerIndex start w) site :=
  fun _ _ _ now => ⟨⟨now.setup, now.account.imp_right fun kept => ⟨kept, passes⟩⟩, fun _ assumed =>
    spared_refl assumed.1⟩

/-! ### A header of the sender itself -/

/-- The sender has been named; the durable guard is not asked. -/
def Unguarded (runtime : Runtime K G) (base : Worker K G) (epoch peerIndex : ℤ) : Reading K G := fun _ start w =>
  Spared base epoch peerIndex start w ∧ Named epoch peerIndex start w ∧ durableGuard runtime w = none

theorem named_spared (now : Spared base epoch peerIndex start w) (named : Named epoch peerIndex start w)
    (same : (setup w', w'.resolved) = (setup w, w.resolved)) :
    Spared base epoch peerIndex start w' ∧ Named epoch peerIndex start w' := by
  obtain ⟨setup, resolved⟩ := Prod.mk.inj same
  have named := named_of named resolved
  exact ⟨⟨setup.trans now.setup, resolved ▸ now.grown, .inl named⟩, named⟩

theorem named_core (now : Spared base epoch peerIndex start w) (named : Named epoch peerIndex start w)
    (same : w'.core = w.core) : Spared base epoch peerIndex start w' ∧ Named epoch peerIndex start w' :=
  named_spared now named (congrArg (fun v => (setup v, v.resolved)) same :
    (setup w'.core, w'.core.resolved) = (setup w.core, w.core.resolved))

theorem unguarded_of (now : Unguarded runtime base epoch peerIndex at_ start w)
    (same : (setup w', w'.resolved, w'.durableReplay) = (setup w, w.resolved, w.durableReplay)) :
    Unguarded runtime base epoch peerIndex at_ start w' := by
  obtain ⟨setup, resolved, durable⟩ := by simpa only [Prod.mk.injEq] using same
  obtain ⟨spared, named⟩ := named_spared now.1 now.2.1 (Prod.ext setup resolved)
  refine ⟨spared, named, ?_⟩
  unfold durableGuard
  rw [durable]
  exact now.2.2

theorem unguarded_core (now : Unguarded runtime base epoch peerIndex at_ start w) (same : w'.core = w.core) :
    Unguarded runtime base epoch peerIndex at_ start w' :=
  unguarded_of now (congrArg (fun v => (setup v, v.resolved, v.durableReplay)) same :
    (setup w'.core, w'.core.resolved, w'.core.durableReplay) = (setup w.core, w.core.resolved, w.core.durableReplay))

/-- A call does not come back from where it waits with a counter of the sender. -/
theorem unguarded_survives {site : AwaitPoint} {ctr object : ℕ}
    (shows : site.slot = some (⟨epoch, peerIndex, ctr⟩, object)) :
    Survives (sparing base epoch peerIndex) (Unguarded runtime base epoch peerIndex) site :=
  fun _ _ _ now => ⟨⟨now.1.setup, .inl now.2.1⟩, fun _ assumed => absurd ⟨rfl, rfl⟩ (assumed.2 _ shows)⟩

theorem unguarded_bystander (entry : Ref) (peer : ℤ) :
    FrameWalk.Bystander (Unguarded runtime base epoch peerIndex) entry peer where
  quiet {_ _ w w'} now same _ := unguarded_of now (congrArg (fun v => (setup v, v.resolved, v.durableReplay)) same :
    (setup (FrameWalk.beyondRatchet w'), (FrameWalk.beyondRatchet w').resolved,
      (FrameWalk.beyondRatchet w').durableReplay) =
      (setup (FrameWalk.beyondRatchet w), (FrameWalk.beyondRatchet w).resolved,
        (FrameWalk.beyondRatchet w).durableReplay))
  advances now _ _ := unguarded_of now rfl

theorem checkReplay_named (slot : Slot) (now : Spared base epoch peerIndex start w)
    (named : Named epoch peerIndex start w) :
    Yields (sparing base epoch peerIndex)
      (fun _ start w => Spared base epoch peerIndex start w ∧ Named epoch peerIndex start w) (checkReplay slot)
      (fun _ => True) at_ start w := by
  obtain ⟨windows, next, same⟩ := w.getReplayWindow_snd slot.epoch slot.peerIndex
  simp only [Yields, checkReplay, meets_bind, meets_read, meets_update, same]
  split
  · exact ⟨named_spared now named rfl, trivial⟩
  · exact ⟨named_spared now named rfl, trivial⟩

/-- Where the guard is asked, the call waits with the counter. -/
theorem durableCheck_named {site : AwaitPoint} {ctr object : ℕ}
    (shows : site.slot = some (⟨epoch, peerIndex, ctr⟩, object)) (slot : Slot)
    (now : Spared base epoch peerIndex start w)
    (named : Named epoch peerIndex start w) :
    Yields (sparing base epoch peerIndex) (Unguarded runtime base epoch peerIndex) (durableCheck runtime site slot)
      (fun _ => True) at_ start w := by
  unfold durableCheck Yields
  simp only [meets_bind, meets_read]
  split
  · rename_i unguarded
    exact ⟨⟨now, named, unguarded⟩, trivial⟩
  · simp only [meets_bind, meets_update, meets_pause]
    exact ⟨⟨now.setup, .inl named⟩, fun _ assumed => absurd ⟨rfl, rfl⟩ (assumed.2 _ shows)⟩

theorem openResolved_named (frame : Ref) (ctr object : ℕ) (payload : Bytes) (guess : FormatGuess)
    (probed : Option Probed) (now : Unguarded runtime base epoch peerIndex at_ start w) :
    Yields (sparing base epoch peerIndex) (Unguarded runtime base epoch peerIndex)
      (openResolved runtime frame (⟨epoch, peerIndex, ctr⟩, object) payload guess probed)
        (fun _ => True) at_ start w := by
  cases probed with
  | some found =>
    exact yields_bind (yields_update (unguarded_core now (Worker.core_setFormatCache w _ _ _)))
      fun _ _ _ _ now _ => ⟨now, trivial⟩
  | none =>
    refine yields_bind (yields_attempt (FrameWalk.tryDecryptWithRatchet_yields (fun _ => unguarded_survives rfl)
      unguarded_bystander _ now)) fun _ _ outcome _ now _ => ?_
    refine yields_bind (yields_pause (unguarded_survives rfl) now) fun _ _ _ _ now _ => ?_
    refine yields_bind (yields_settle now fun _ _ => trivial) fun _ _ opened w now _ => ?_
    exact yields_bind (yields_update (unguarded_core now (Worker.core_setFormatCache w _ _ _)))
      fun _ _ _ _ now _ => ⟨now, trivial⟩

theorem acceptFrame_named (frame : Ref) (held : Slot × ℕ) (payload : Bytes) (guess : FormatGuess) (opened : Bytes)
    (now : Unguarded runtime base epoch peerIndex at_ start w) :
    Yields (sparing base epoch peerIndex) (Unguarded runtime base epoch peerIndex)
      (acceptFrame runtime frame held payload guess opened) (fun _ => True) at_ start w := by
  obtain ⟨windows, same⟩ := w.acceptReplay_eq held.1 held.2 frame
  refine yields_bind (yields_update (unguarded_of now (by rw [same]; rfl))) fun at_ start _ w now _ => ?_
  have accepted : Yields (sparing base epoch peerIndex) (Unguarded runtime base epoch peerIndex)
      (durableAccept runtime { point := .durableAccept, frame := some frame, payload := some payload } held.1)
      (fun _ => True) at_ start w := by
    apply yields_read
    rw [now.2.2]
    exact ⟨now, trivial⟩
  refine yields_bind accepted fun _ _ _ w now _ => ?_
  refine yields_bind (yields_update (unguarded_core now (Worker.core_recordSuccess w _ _))) fun _ _ _ w now _ => ?_
  refine yields_bind (yields_update (unguarded_of now rfl)) fun _ _ _ w now _ => ?_
  exact yields_update (unguarded_core now (Worker.core_clearStarve w))

/-- A header of the sender itself has been noted before anything is done to its account. -/
theorem decodePayload_named (frame : Ref) (payload : Bytes) (guess : FormatGuess) (probed : Option Probed)
    (hdr : SFrameHeader) (now : Spared base epoch peerIndex start w) (named : Named epoch peerIndex start w)
    (own : w.kidCodec.decode hdr.kid = (epoch, peerIndex)) :
    Yields (sparing base epoch peerIndex)
      (fun _ start w => Spared base epoch peerIndex start w ∧ Named epoch peerIndex start w)
      (decodePayload runtime frame payload guess probed hdr) (fun _ => True) at_ start w := by
  unfold decodePayload
  apply yields_read
  rw [own]
  dsimp only
  split
  · exact yields_bind (yields_update (named_core now named (by simp))) fun _ _ _ _ now _ => now
  · split
    · obtain ⟨kept, -, same⟩ := w.core_pushToQueue frame (some peerIndex)
      have parked := named_core (w := { w with preEpochQueue := kept ++ [frame] }) ⟨now.setup,
        now.grown, .inl named⟩ named same
      exact yields_bind (yields_update parked) fun _ _ _ _ now _ => ⟨now, trivial⟩
    · refine yields_bind (checkReplay_named _ now named) fun _ _ object w now _ => ?_
      cases object with
      | none => exact yields_bind (yields_update (named_core now.1 now.2 (by simp))) fun _ _ _ _ now _ => now
      | some object =>
        apply meets_bind.mpr
        refine meets_mono (durableCheck_named rfl _ now.1 now.2) (fun at_ start answer w held => ?_) ?_
        · have now := held.1
          split
          · exact yields_bind (yields_update (named_core now.1 now.2.1 (by simp))) fun _ _ _ _ now _ => now
          · apply yields_read
            split
            · exact yields_bind (yields_update (named_core now.1 now.2.1 (by simp))) fun _ _ _ _ now _ => now
            · have opens : Yields (sparing base epoch peerIndex) (Unguarded runtime base epoch peerIndex) (do
                  let opened ← openResolved runtime frame (⟨epoch, peerIndex, hdr.ctr⟩, object) payload guess probed
                  acceptFrame runtime frame (⟨epoch, peerIndex, hdr.ctr⟩, object) payload guess opened
                  update fun state => state.emitMetric (.decrypt epoch peerIndex (guess.prefixLen + opened.length))
                  return Path.opened guess opened) (fun _ => True) at_ start w := by
                refine yields_bind (openResolved_named frame hdr.ctr object payload guess probed now)
                  fun _ _ opened _ now _ => ?_
                refine yields_bind (acceptFrame_named frame _ payload guess opened now) fun _ _ _ w now _ => ?_
                exact yields_bind (yields_update (unguarded_core now (Worker.core_emitMetric w _)))
                  fun _ _ _ _ now _ => ⟨now, trivial⟩
              exact meets_mono opens (fun _ _ _ _ held => ⟨⟨held.1.1, held.1.2.1⟩, trivial⟩)
                fun _ _ _ _ held => ⟨held.1, held.2.1⟩
        · exact fun _ _ _ _ held => ⟨held.1, held.2.1⟩

/-! ### Frames -/

/-- What the probe has opened names the sender that the header names in the format found. -/
def Consistent (codec : KidCodec) (payload : Bytes) (resolved : FormatGuess × Option Probed) : Prop :=
  ∀ found, resolved.2 = some found → ∀ hdr, parseHeader (payload.drop resolved.1.prefixLen) = .ok hdr →
    (found.epoch, found.peerIndex) = codec.decode hdr.kid

theorem probeAttempt_consistent {payload : Bytes} {guess : FormatGuess} {hdr : SFrameHeader} {e p : ℤ}
    {opened : Except JsError Bytes} (attempted : probeAttempt runtime w payload guess = some (hdr, e, p, opened)) :
    parseHeader (payload.drop guess.prefixLen) = .ok hdr ∧ (e, p) = w.kidCodec.decode hdr.kid := by
  unfold probeAttempt at attempted
  dsimp only at attempted
  split at attempted
  · cases attempted
  · rename_i parsed
    split at attempted
    · cases attempted
    · split at attempted
      · cases attempted
      · simp only [Option.some.injEq, Prod.mk.injEq] at attempted
        obtain ⟨rfl, rfl, rfl, -⟩ := attempted
        exact ⟨parsed, rfl⟩

theorem probeFormat_spared (frame : Ref) (payload : Bytes) (candidates : List FormatGuess)
    (now : Spared base epoch peerIndex start w) :
    Yields (sparing base epoch peerIndex) (fun _ start w => Spared base epoch peerIndex start w)
      (probeFormat runtime frame payload candidates)
      (fun probed => ∀ found, probed = some found → Consistent base.kidCodec payload (found.guess, some found))
      at_ start w := by
  induction candidates generalizing at_ start w with
  | nil => exact ⟨now, fun _ never => by cases never⟩
  | cons guess rest ih =>
    apply yields_read
    split
    · exact ih now
    · rename_i hdr e p opened attempted
      obtain ⟨parsed, named⟩ := probeAttempt_consistent attempted
      have codec : w.kidCodec = base.kidCodec := congrArg (·.2.2.1) now.setup
      refine yields_bind (yields_pause (spared_survives fun _ never => by cases never) now) fun _ _ _ _ now _ => ?_
      split
      · refine ⟨now, fun found same other own hdr parsedAgain => ?_⟩
        obtain rfl := Option.some.inj same
        obtain rfl := Option.some.inj own
        obtain rfl := Except.ok.inj (parsed.symm.trans parsedAgain)
        exact named.trans (by rw [codec])
      · exact ih now

theorem resolveFormat_spared (frame : Ref) (payload : Bytes) (codec : Option Codec) (frameKind : Option FrameKind)
    (now : Spared base epoch peerIndex start w) :
    Yields (sparing base epoch peerIndex) (fun _ start w => Spared base epoch peerIndex start w)
      (resolveFormat runtime frame payload codec frameKind) (Consistent base.kidCodec payload) at_ start w := by
  apply yields_read
  dsimp only
  split
  · exact ⟨now, fun _ never => by cases never⟩
  · refine yields_bind (probeFormat_spared frame payload _ now) fun _ _ probed _ now consistent => ?_
    refine yields_bind (yields_pause (spared_survives fun _ never => by cases never) now) fun _ _ _ _ now _ => ?_
    cases probed with
    | some found => exact ⟨now, consistent found rfl⟩
    | none => exact ⟨now, fun _ never => by cases never⟩

theorem spared_resolved (now : Spared base epoch peerIndex start w) (header : Ref × Slot) :
    Spared base epoch peerIndex start { w with resolved := w.resolved ++ [header] } := by
  refine ⟨now.setup, now.grown.trans (List.prefix_append _ _), now.account.imp_left fun named => ?_⟩
  obtain ⟨found, member, own⟩ := named
  refine ⟨found, ?_, own⟩
  unfold foundSince at member ⊢
  rw [List.drop_append_of_le_length now.grown.length_le]
  exact List.mem_append_left _ member

theorem named_resolved (now : Spared base epoch peerIndex start w) (ref : Ref) {slot : Slot}
    (own : ¬ Elsewhere epoch peerIndex slot.epoch slot.peerIndex) :
    Named epoch peerIndex start { w with resolved := w.resolved ++ [(ref, slot)] } := by
  refine ⟨(ref, slot), ?_, own⟩
  unfold foundSince
  rw [List.drop_append_of_le_length now.grown.length_le]
  exact List.mem_append_right _ (List.mem_singleton_self _)

theorem encode_unencoded (frame : Ref) :
    FrameWalk.Unencoded (fun _ start (w : Worker K G) => Spared base epoch peerIndex start w) frame :=
  fun _ _ w w' now encodes => spared_of now (congrArg (seen epoch peerIndex) encodes.same :
    seen epoch peerIndex (FrameWalk.beyondEncoding w') = seen epoch peerIndex (FrameWalk.beyondEncoding w))

variable (own : OwnEntries base)

include own

/-- The gates behind a header that has been noted, with the handler of their failures. -/
theorem decodePayload_spared (frame : Ref) (payload : Bytes) (guess : FormatGuess) (probed : Option Probed)
    (hdr : SFrameHeader) {vars : HeaderVars} (names : (vars.epoch, vars.peerIndex) = w.kidCodec.decode hdr.kid)
    (now : Spared base epoch peerIndex start w)
    (noted : ¬ Elsewhere epoch peerIndex (w.kidCodec.decode hdr.kid).1 (w.kidCodec.decode hdr.kid).2 →
      Named epoch peerIndex start w) :
    Yields (sparing base epoch peerIndex) (fun _ start w => Spared base epoch peerIndex start w)
      (tryCatch (decodePayload runtime frame payload guess probed hdr) fun err => do
        update fun state => failDecode state vars err
        throw err) (fun _ => True) at_ start w := by
  apply meets_tryCatch.mpr
  by_cases elsewhere : Elsewhere epoch peerIndex (w.kidCodec.decode hdr.kid).1 (w.kidCodec.decode hdr.kid).2
  · refine meets_mono (decodePayload_aloof (aloof_spared own) (fun site passes =>
      spared_survives passes.2) frame payload
      guess probed hdr now elsewhere) (fun _ _ _ _ held => held) fun _ _ refused w now => ?_
    rw [← names] at elsewhere
    exact yields_bind (yields_update (spared_of now (seen_failDecode w fun _ => elsewhere))) fun _ _ _ _ now _ => now
  · have same : w.kidCodec.decode hdr.kid = (epoch, peerIndex) := Prod.ext_iff.mpr (not_not.mp elsewhere)
    refine meets_mono (decodePayload_named frame payload guess probed hdr now (noted elsewhere) same)
      (fun _ _ _ _ held => ⟨held.1.1, trivial⟩) fun _ _ refused w held => ?_
    exact yields_bind (yields_update (named_core held.1 held.2 (core_failDecode w vars refused)).1) fun _ _ _ _ now _ =>
      now

/-- **One frame.** Whatever it is and whoever it names, the sender's account is as it was
unless it names the sender. -/
theorem decodeFrame_spared (ref : Ref) (now : Spared base epoch peerIndex start w) :
    Yields (sparing base epoch peerIndex) (fun _ start w => Spared base epoch peerIndex start w)
      (decodeFrame runtime ref) (fun _ => True) at_ start w := by
  unfold decodeFrame
  apply yields_read
  dsimp only
  split
  · exact ⟨now, trivial⟩
  · rename_i payload stripped
    refine yields_bind (resolveFormat_spared ref payload _ _ now) fun _ _ resolved w now consistent => ?_
    obtain ⟨guess, probed⟩ := resolved
    apply yields_read
    cases parsed : parseHeader (payload.drop guess.prefixLen) with
    | error refused =>
      obtain ⟨message, length, rfl⟩ := SoloOpening.parseHeader_throws _ refused parsed
      exact yields_bind (yields_update (spared_of now (seen_failDecode w fun never => by cases never)))
        fun _ _ _ _ now _ => now
    | ok hdr =>
      have codec : w.kidCodec = base.kidCodec := congrArg (·.2.2.1) now.setup
      simp only [Yields, meets_bind, meets_update]
      apply decodePayload_spared own ref payload guess probed hdr
      · cases probed with
        | none => rfl
        | some found => exact (consistent found rfl hdr parsed).trans (by rw [codec])
      · exact spared_resolved now _
      · exact fun named => named_resolved now ref named

theorem decodeTransform_spared (ref : Ref) (now : Spared base epoch peerIndex start w) :
    Yields (sparing base epoch peerIndex) (fun _ start w => Spared base epoch peerIndex start w)
      (decodeTransform runtime ref) (fun _ => True) at_ start w := by
  refine meets_tryCatch.mpr (meets_mono (yields_bind (decodeFrame_spared own ref now) ?_)
    (fun _ _ _ _ held => held) fun _ _ _ _ now => ⟨now, trivial⟩)
  intro _ _ _ _ now _
  exact yields_read (yields_bind (yields_pause (spared_survives fun _ never => by cases never) now) fun _ _ _ _ now _ =>
    yields_update (spared_of now rfl))

/-- Calls that encode and decode frames while the clock goes on. -/
def MovesFrames : Call K → Prop
  | .transform .. | .encodeFrame _ | .decodeFrame _ | .tick _ => True
  | _ => False

theorem program_spared {call : Call K} (moves : MovesFrames call) (now : Spared base epoch peerIndex start w) :
    Yields (sparing base epoch peerIndex) (fun _ start w => Spared base epoch peerIndex start w)
      (call.program runtime) (fun _ => True) at_ start w := by
  have slotless {site : AwaitPoint} (shows : site.slot = none) :
      Survives (sparing base epoch peerIndex) (fun _ start w => Spared base epoch peerIndex start w) site :=
    spared_survives fun _ shown => by rw [shows] at shown; cases shown
  have received (frame : EncodedFrame) {α : Type} {rest : Ref → Task K G α}
      (next : ∀ ref w, Spared base epoch peerIndex start w → Yields (sparing base epoch peerIndex)
        (fun _ start w => Spared base epoch peerIndex start w) (rest ref) (fun _ => True) at_ start w) :
      Yields (sparing base epoch peerIndex) (fun _ start w => Spared base epoch peerIndex start w)
        (receive frame >>= rest) (fun _ => True) at_ start w := by
    simp only [Yields, receive, meets_bind, meets_read, meets_update, meets_pure]
    exact next _ _ (spared_of now rfl)
  cases call with
  | transform side frame =>
    cases side with
    | encode =>
      exact received frame fun ref w now => yields_bind (FrameWalk.encodeTransform_yields (encode_unencoded ref)
        (fun _ _ => slotless rfl) _ now) fun _ _ _ _ now _ => ⟨now, trivial⟩
    | decode =>
      exact received frame fun ref w now => yields_bind (decodeTransform_spared own ref now) fun _ _ _ _ now _ =>
        ⟨now, trivial⟩
  | encodeFrame frame =>
    exact received frame fun ref w now => yields_bind (FrameWalk.encodeFrame_yields (encode_unencoded ref)
      (fun _ _ => slotless rfl) _ now) fun _ _ _ _ now _ => ⟨now, trivial⟩
  | decodeFrame frame =>
    exact received frame fun ref w now => yields_bind (decodeFrame_spared own ref now) fun _ _ _ _ now _ =>
      ⟨now, trivial⟩
  | tick elapsed => exact yields_bind (yields_update (spared_of now rfl)) fun _ _ _ _ now _ => ⟨now, trivial⟩
  | message | wipeTimer | tryDecryptWithRatchet | drainPreEpochQueue => exact moves.elim

end Turns

/-! ## Runs -/

/-- The turns that find no header of the sender. -/
def findsOthers {ι : Type} (epoch peerIndex : ℤ) (before : WorkerPool ι K G) (_ : ι) (after : WorkerPool ι K G) :
    Prop :=
  ∀ found ∈ foundSince before.shared after.shared, ¬ (found.2.epoch = epoch ∧ found.2.peerIndex = peerIndex)

instance {ι : Type} (before : WorkerPool ι K G) (call : ι) (after : WorkerPool ι K G) :
    Decidable (findsOthers epoch peerIndex before call after) := by
  unfold findsOthers
  infer_instance

/-- What is left of a sender's account after a turn, and where the calls wait then. -/
def Spares (base : Worker K G) (epoch peerIndex : ℤ) {ι : Type} (w : Worker K G)
    (statuses : ι → Status AwaitPoint (Except JsError Outcome)) : Prop :=
  about epoch peerIndex w = about epoch peerIndex base ∧ ∀ call site, statuses call = .suspended site →
    ∀ held, site.slot = some held → Elsewhere epoch peerIndex held.1.epoch held.1.peerIndex

theorem spares_moved {ι : Type} [DecidableEq ι] {before after : WorkerPool ι K G} {call : ι} {site : AwaitPoint}
    (spares : Spares base epoch peerIndex before.shared before.statuses)
    (passes : findsOthers epoch peerIndex before call after)
    (moved : Moved (sparing base epoch peerIndex) (fun _ start _ w => setup w = setup base ∧
      (Named epoch peerIndex start w ∨ account epoch peerIndex w = account epoch peerIndex base))
      site before.shared (after.statuses call) after.shared) :
    Spares base epoch peerIndex after.shared (Function.update before.statuses call (after.statuses call)) := by
  have unnamed : ¬ Named epoch peerIndex before.shared after.shared := by
    rintro ⟨found, member, own⟩
    exact passes found member (not_not.mp own)
  have kept (same : about epoch peerIndex after.shared = about epoch peerIndex base)
      (shows : ∀ next, after.statuses call = .suspended next → ∀ held, next.slot = some held →
        Elsewhere epoch peerIndex held.1.epoch held.1.peerIndex) :
      Spares base epoch peerIndex after.shared (Function.update before.statuses call (after.statuses call)) := by
    refine ⟨same, fun other site waits => ?_⟩
    by_cases own : other = call
    · subst own
      rw [Function.update_self] at waits
      exact shows site waits
    · rw [Function.update_of_ne own] at waits
      exact spares.2 other site waits
  generalize after.statuses call = reached at moved kept
  cases reached with
  | running => exact moved.elim
  | suspended next =>
    obtain ⟨setup, moved⟩ := moved
    obtain ⟨account, elsewhere⟩ := moved.resolve_left unnamed
    apply kept (Prod.ext setup account)
    intro _ same
    cases same
    exact elsewhere
  | finished outcome =>
    obtain ⟨setup, moved⟩ := moved
    apply kept (Prod.ext setup (moved.resolve_left unnamed))
    intro _ never
    cases never

/-- **Isolation.** In any interleaving of encoders and decoders, whatever their frames are,
what is kept for a sender stays as it is as long as no decoder finds a header of it. -/
theorem others_untouched {ι : Type} [DecidableEq ι] {calls : ι → Call K} (moves : ∀ call, MovesFrames (calls call))
    {first : Worker K G} (own : OwnEntries first) {last : WorkerPool ι K G}
    (run : Runs (findsOthers epoch peerIndex) (launch runtime first calls) last) :
    account epoch peerIndex last.shared = account epoch peerIndex first := by
  have spares : Spares first epoch peerIndex last.shared last.statuses := by
    refine runs_invariant (fun _ => sparing first epoch peerIndex)
      (fun _ _ start _ w => setup w = setup first ∧
        (Named epoch peerIndex start w ∨ account epoch peerIndex w = account epoch peerIndex first))
      (Spares first epoch peerIndex) ⟨rfl, fun call site waits held shows => ?_⟩
        (launch_follows fun call w assumed => ?_)
      (fun before call site after spares waits _ _ => ⟨spares.1, spares.2 call site waits⟩)
      (fun before call site after spares _ passes _ moved => spares_moved spares passes moved) run
    · cases waits
      cases shows
    · apply Contract.keeps_mono (program_spared own (moves call) (spared_refl assumed.1))
      intro _ start outcome w held
      cases outcome with
      | ok value => exact ⟨held.1.setup, held.1.account⟩
      | error refused => exact ⟨held.setup, held.account⟩
  exact (Prod.mk.inj spares.1).2

section Checked
open Specimen (installed keyOf sealedBy)

/-- A frame of the first of three senders twice, and one of the third that is forged. -/
def othersFrames : Fin 3 → Call Bytes
  | 0 => .transform .decode ⟨sealedBy (keyOf 0 0 7) 0 [1, 2], none⟩
  | 1 => .decodeFrame ⟨sealedBy (keyOf 0 0 7) 0 [1, 2], none⟩
  | 2 => .decodeFrame ⟨sealedBy (keyOf 0 2 9) 5 [3], none⟩

/-- The second sender's account after such frames. -/
theorem others_untouched_second : ∃ last : WorkerPool (Fin 3) Bytes Unit, last.shared.resolved.length = 3 ∧
    account 0 1 last.shared = account 0 1 (installed 0 3 [7, 8, 4]) := by
  have result : ((launch Specimen.runtime (installed 0 3 [7, 8, 4]) othersFrames).followPassing (findsOthers 0 1)
      [0, 1, 2, 0, 1, 2, 0, 1, 2, 2, 0]).map (fun pool => pool.shared.resolved.length) = some 3 := by
    decide +kernel
  obtain ⟨last, followed, length⟩ := Option.map_eq_some_iff.mp result
  refine ⟨last, length, others_untouched (fun call => ?_) (fun first other ref found again => ?_)
    (followPassing_runs followed)⟩
  · fin_cases call <;> trivial
  · have only {epoch : ℤ} (found : (installed 0 3 [7, 8, 4]).epochs.get? epoch = some ref) : epoch = 0 := by
      have listed := OrderedMap.mem_keys.mpr (Option.isSome_iff_exists.mpr ⟨ref, found⟩)
      exact List.mem_singleton.mp listed
    exact (only found).trans (only again).symm

end Checked
end SFrameRatchet.SenderIsolation
