import SFrameRatchet.FrameWalk
import SFrameRatchet.Reinstall

/-! The tables that the worker keeps for each sender, and the keys. A live frame gets
its replay window before its key is looked up, and its format is cached after it was
opened, whatever has happened to its epoch in between; the queue looks for the key
first. What keeps the tables within the keys is that no header names a sender without
one, that no frame is accepted after its key has gone, and that no epoch is installed
anew without a sender that it had. -/
namespace SFrameRatchet.SenderTables
open Collections Crypto Kid Header SFrame CodecPartial Replay Throwing Coroutine Interleaving Media EpochTable FrameWalk

variable {K G : Type} {runtime : Runtime K G}

/-- The senders of an epoch that have a replay window or a cached format. -/
def senders (w : Worker K G) (epoch : ℤ) : List ℤ :=
  ((w.replayWindows.get? epoch).getD ∅).keys ++ ((w.formatCache.get? epoch).getD ∅).keys

/-- A sender whose key is installed. -/
def Keyed (w : Worker K G) (epoch peerIndex : ℤ) : Prop := (w.cachedKey epoch peerIndex).isSome = true

instance (w : Worker K G) (epoch peerIndex : ℤ) : Decidable (Keyed w epoch peerIndex) := by
  unfold Keyed
  infer_instance

/-- The tables know no sender whose key is not installed. -/
def WithinKeys (w : Worker K G) : Prop := ∀ epoch, ∀ peerIndex ∈ senders w epoch, Keyed w epoch peerIndex

/-- A header that passes the stale gate, once there is an epoch at all, names a sender
whose key is installed; and no frame is accepted of one whose key is not. -/
def Expected (start w : Worker K G) : Prop :=
  (∀ header ∈ foundSince start w, start.currentMinValidEpoch ≤ header.2.epoch → start.currentEpoch ≠ -1 →
    Keyed start header.2.epoch header.2.peerIndex) ∧
  ∀ acceptance ∈ acceptedSince start w, Keyed start acceptance.1.epoch acceptance.1.peerIndex

instance (start w : Worker K G) : Decidable (Expected start w) := by
  unfold Expected
  infer_instance

/-- The epoch that a call installs has keys for the senders that the tables know. -/
def Covers (call : Call K) (w : Worker K G) : Prop :=
  match call with
  | .message (.epoch epoch _ keys) | .message (.rotate epoch _ keys) =>
    ∀ peerIndex ∈ senders w epoch, keys.has peerIndex = true
  | _ => True

instance (call : Call K) (w : Worker K G) : Decidable (Covers call w) :=
  match call with
  | .message (.epoch epoch _ keys) | .message (.rotate epoch _ keys) =>
    inferInstanceAs (Decidable (∀ peerIndex ∈ senders w epoch, keys.has peerIndex = true))
  | .message (.init _) | .message (.streams ..) | .message (.setSifTrailer _) | .message (.setRatchetWindow _)
  | .message (.setMetricsEnabled _) | .message (.setReplayWindow _) | .message (.setFailureTolerance _)
  | .message .teardown | .wipeTimer _ | .tick _ | .transform .. | .encodeFrame _ | .decodeFrame _
  | .tryDecryptWithRatchet _ | .drainPreEpochQueue => isTrue trivial

/-! ## The tables -/

variable {start base w w' : Worker K G} {epoch peerIndex : ℤ}

theorem mem_senders : peerIndex ∈ senders w epoch ↔
    (w.windowOf epoch peerIndex).isSome ∨ (w.getFormatCache epoch peerIndex).isSome := by
  rw [senders, List.mem_append, OrderedMap.mem_keys, OrderedMap.mem_keys, Worker.windowOf, Worker.getFormatCache]
  cases w.replayWindows.get? epoch <;> cases w.formatCache.get? epoch <;> simp

/-- Asking for a window makes one for that sender at most. -/
theorem senders_getReplayWindow {e p : ℤ} (member : peerIndex ∈ senders (w.getReplayWindow e p).2 epoch) :
    epoch = e ∧ peerIndex = p ∨ peerIndex ∈ senders w epoch := by
  obtain ⟨windows, next, asked⟩ := w.getReplayWindow_snd e p
  rw [mem_senders, Worker.windowOf_getReplayWindow] at member
  rw [mem_senders]
  have formats : (w.getReplayWindow e p).2.getFormatCache epoch peerIndex = w.getFormatCache epoch peerIndex := by
    rw [asked]
    rfl
  rw [formats] at member
  split at member
  · exact .inl ‹_›
  · exact .inr member

theorem senders_setFormatCache {e p : ℤ} {guess : FormatGuess}
    (member : peerIndex ∈ senders (w.setFormatCache e p guess) epoch) :
    epoch = e ∧ peerIndex = p ∨ peerIndex ∈ senders w epoch := by
  rw [mem_senders] at member ⊢
  rcases member with window | format
  · exact .inr (.inl window)
  · simp only [Worker.getFormatCache, Worker.setFormatCache, OrderedMap.get?_set] at format ⊢
    by_cases sameEpoch : epoch = e
    · subst sameEpoch
      by_cases samePeer : peerIndex = p
      · exact .inl ⟨rfl, samePeer⟩
      · rw [if_pos rfl, Option.bind_some, OrderedMap.get?_set, if_neg samePeer] at format
        refine .inr (.inr ?_)
        cases held : w.formatCache.get? epoch with
        | none => simp [held] at format
        | some inner => simpa [held] using format
    · rw [if_neg sameEpoch] at format
      exact .inr (.inr format)

/-- An acceptance moves a window that is there. -/
theorem senders_acceptReplay {slot : Slot} {object frame : ℕ}
    (member : peerIndex ∈ senders (w.acceptReplay slot object frame) epoch) : peerIndex ∈ senders w epoch := by
  obtain ⟨windows, accepted⟩ := w.acceptReplay_eq slot object frame
  rw [mem_senders, Worker.windowOf_acceptReplay] at member
  rw [mem_senders]
  rcases member with window | format
  · split at window
    · exact .inl (by simpa using window)
    · exact .inl window
  · rw [accepted] at format
    exact .inr format

/-- A key that has advanced is a key. -/
theorem keyed_advanceKey (keyed : Keyed w epoch peerIndex) (entry : Ref) (peer : ℤ) (next : RatchetKey K) (step : ℕ) :
    Keyed (advanceKey w entry peer next step) epoch peerIndex := by
  unfold Keyed Worker.cachedKey advanceKey at *
  dsimp only at *
  cases installed : w.epochs.get? epoch with
  | none => simp [installed] at keyed
  | some ref =>
    simp only [installed, Option.bind_some, Heap.read_write] at keyed ⊢
    split
    · rename_i same
      subst same
      simp only [OrderedMap.get?_set]
      split
      · rfl
      · exact keyed
    · exact keyed

/-! ## What a frame does to them -/

/-- The parts of a worker that the tables and the keys are in. -/
def tables (w : Worker K G) :=
  (epochTable w, w.entries, w.resolved, w.accepted, w.replayWindows, w.formatCache)

/-- A sender is named by a header that the stale gate lets pass, or by an accepted
frame. -/
def Noticed (start w : Worker K G) (epoch peerIndex : ℤ) : Prop :=
  (∃ header ∈ foundSince start w, header.2.epoch = epoch ∧ header.2.peerIndex = peerIndex ∧
    start.currentMinValidEpoch ≤ epoch ∧ start.currentEpoch ≠ -1) ∨
  ∃ acceptance ∈ acceptedSince start w, acceptance.1.epoch = epoch ∧ acceptance.1.peerIndex = peerIndex

/-- No key is lost, and the tables get entries for senders with a key, and for those
that have been noticed. -/
structure Grown (base w : Worker K G) : Prop where
  table : epochTable w = epochTable base
  next : w.entries.next = base.entries.next
  keyed : ∀ epoch peerIndex, Keyed base epoch peerIndex → Keyed w epoch peerIndex
  resolved : base.resolved <+: w.resolved
  accepted : base.accepted <+: w.accepted
  senders : ∀ epoch, ∀ peerIndex ∈ senders w epoch,
    peerIndex ∈ SenderTables.senders base epoch ∨ Keyed w epoch peerIndex ∨ Noticed base w epoch peerIndex

theorem grown_refl (w : Worker K G) : Grown w w :=
  ⟨rfl, rfl, fun _ _ keyed => keyed, List.prefix_refl _, List.prefix_refl _, fun _ _ member => .inl member⟩

theorem grown_of (grown : Grown base w) (same : tables w' = tables w) : Grown base w' := by
  simp only [tables, Prod.mk.injEq] at same
  obtain ⟨table, entries, resolved, accepted, windows, formats⟩ := same
  have epochs : w'.epochs = w.epochs := congrArg (·.1) table
  have keyed (epoch peerIndex : ℤ) : Keyed w' epoch peerIndex ↔ Keyed w epoch peerIndex := by
    rw [Keyed, Keyed, Worker.cachedKey, Worker.cachedKey, epochs, entries]
  have noticed (epoch peerIndex : ℤ) : Noticed base w' epoch peerIndex ↔ Noticed base w epoch peerIndex := by
    unfold Noticed foundSince acceptedSince
    rw [resolved, accepted]
  have listed (epoch : ℤ) : SenderTables.senders w' epoch = SenderTables.senders w epoch := by
    rw [SenderTables.senders, SenderTables.senders, windows, formats]
  constructor
  · exact table.trans grown.table
  · rw [entries]
    exact grown.next
  · exact fun epoch peerIndex held => (keyed _ _).mpr (grown.keyed epoch peerIndex held)
  · rw [resolved]
    exact grown.resolved
  · rw [accepted]
    exact grown.accepted
  · intro epoch peerIndex member
    rw [listed] at member
    rw [keyed, noticed]
    exact grown.senders epoch peerIndex member

theorem grown_advance (grown : Grown base w) (entry : Ref) (peer : ℤ) (next : RatchetKey K) (step : ℕ) :
    Grown base (advanceKey w entry peer next step) where
  table := grown.table
  next := grown.next
  keyed epoch peerIndex held := keyed_advanceKey (grown.keyed epoch peerIndex held) entry peer next step
  resolved := grown.resolved
  accepted := grown.accepted
  senders epoch peerIndex member := by
    rcases grown.senders epoch peerIndex member with old | keyed | noticed
    · exact .inl old
    · exact .inr (.inl (keyed_advanceKey keyed entry peer next step))
    · exact .inr (.inr noticed)

/-- What has been noticed stays noticed. -/
theorem noticed_mono (noticed : Noticed base w epoch peerIndex) (resolved : w.resolved <+: w'.resolved)
    (accepted : w.accepted <+: w'.accepted) : Noticed base w' epoch peerIndex := by
  unfold Noticed foundSince acceptedSince at *
  rcases noticed with ⟨header, member, named⟩ | ⟨acceptance, member, named⟩
  · exact .inl ⟨header, (resolved.drop _).subset member, named⟩
  · exact .inr ⟨acceptance, (accepted.drop _).subset member, named⟩

theorem grown_resolved (grown : Grown base w) (header : Ref × Slot) :
    Grown base { w with resolved := w.resolved ++ [header] } where
  table := grown.table
  next := grown.next
  keyed := grown.keyed
  resolved := grown.resolved.trans (List.prefix_append _ _)
  accepted := grown.accepted
  senders epoch peerIndex member := by
    rcases grown.senders epoch peerIndex member with old | keyed | noticed
    · exact .inl old
    · exact .inr (.inl keyed)
    · exact .inr (.inr (noticed_mono noticed (List.prefix_append _ _) (List.prefix_refl _)))

/-- The sender of a header that has just been found is noticed. -/
theorem noticed_resolved (grown : Grown base w) (ref : Ref) {slot : Slot} (live : w.currentMinValidEpoch ≤ slot.epoch)
    (current : w.currentEpoch ≠ -1) :
    Noticed base { w with resolved := w.resolved ++ [(ref, slot)] } slot.epoch slot.peerIndex := by
  have same := grown.table
  simp only [epochTable, Prod.mk.injEq] at same
  obtain ⟨-, epoch, valid, -⟩ := same
  refine .inl ⟨(ref, slot), ?_, rfl, rfl, valid ▸ live, epoch ▸ current⟩
  rw [foundSince, List.drop_append_of_le_length grown.resolved.length_le]
  exact List.mem_append_right _ (List.mem_singleton_self _)

theorem grown_getReplayWindow (grown : Grown base w)
    (expected : Keyed w epoch peerIndex ∨ Noticed base w epoch peerIndex) :
    Grown base (w.getReplayWindow epoch peerIndex).2 := by
  obtain ⟨windows, next, asked⟩ := w.getReplayWindow_snd epoch peerIndex
  have listed {e p : ℤ} (member : p ∈ senders (w.getReplayWindow epoch peerIndex).2 e) := senders_getReplayWindow member
  rw [asked] at listed ⊢
  refine ⟨grown.table, grown.next, grown.keyed, grown.resolved, grown.accepted, fun e p member => ?_⟩
  rcases listed member with ⟨rfl, rfl⟩ | old
  · exact .inr expected
  · exact grown.senders e p old

/-- A frame whose format is cached is accepted next. -/
theorem grown_accept (grown : Grown base w) (slot : Slot) (guess : FormatGuess) (object frame : ℕ) :
    Grown base ((w.setFormatCache slot.epoch slot.peerIndex guess).acceptReplay slot object frame) := by
  obtain ⟨windows, accepted⟩ := (w.setFormatCache slot.epoch slot.peerIndex guess).acceptReplay_eq slot object frame
  have within : w.accepted <+: w.accepted ++ [(slot, frame)] := List.prefix_append _ _
  have listed {e p : ℤ} (member : p ∈ senders ((w.setFormatCache slot.epoch slot.peerIndex guess).acceptReplay slot
      object frame) e) := senders_setFormatCache (senders_acceptReplay member)
  rw [accepted] at listed ⊢
  refine ⟨grown.table, grown.next, grown.keyed, grown.resolved, grown.accepted.trans within, fun e p member => ?_⟩
  rcases listed member with ⟨rfl, rfl⟩ | old
  · refine .inr (.inr (.inr ⟨(slot, frame), ?_, rfl, rfl⟩))
    change (slot, frame) ∈ (w.accepted ++ [(slot, frame)]).drop base.accepted.length
    rw [List.drop_append_of_le_length grown.accepted.length_le]
    exact List.mem_append_right _ (List.mem_singleton_self _)
  · rcases grown.senders e p old with known | keyed | noticed
    · exact .inl known
    · exact .inr (.inl keyed)
    · exact .inr (.inr (noticed_mono noticed (List.prefix_refl _) within))

/-! The books and the queue are no part of the tables. -/

theorem tables_books (same : w'.unbooked = w.unbooked) : tables w' = tables w := congr_erased tables same fun _ => rfl

theorem tables_signals (same : w'.unsignalled = w.unsignalled) : tables w' = tables w :=
  tables_books (Worker.unbooked_of_unsignalled same)

theorem tables_pushToQueue (w : Worker K G) (frame : Ref) (peerIndex : Option ℤ) :
    tables (w.pushToQueue frame peerIndex) = tables w := by
  obtain ⟨kept, -, same⟩ := w.unsignalled_pushToQueue frame peerIndex
  exact (tables_signals same).trans rfl

/-! ## Turns -/

/-- What a message or a timer does first, apart from configuring the worker. -/
inductive First (runtime : Runtime K G) : Call K → Worker K G → Worker K G → Prop
  | installs {call : Call K} {start base : Worker K G} {epoch selfPeerIndex : ℤ} {keys : KeyBundles K}
      (named : Installs call epoch selfPeerIndex keys) (ok : start.installEpoch epoch selfPeerIndex keys = .ok base) :
      First runtime call start base
  | wipes {epoch : ℤ} {start : Worker K G} :
      First runtime (.wipeTimer epoch) start (start.wipeEpoch runtime.guard epoch)
  | tearsDown {start : Worker K G} : First runtime (.message .teardown) start start.teardown

/-- A turn grows the tables, from the state it starts in or from what its first step
makes of that; in the latter case nothing is found or accepted in it. -/
def Turned (runtime : Runtime K G) (call : Call K) : Reading K G := fun at_ start w =>
  ∃ base, Grown base w ∧ (base = start ∨ at_.point = .start ∧ First runtime call start base ∧
    w.resolved = base.resolved ∧ w.accepted = base.accepted)

/-- The same, when the call has been suspended before if `paused`. -/
def Turning (runtime : Runtime K G) (call : Call K) (paused : Bool) : Reading K G := fun at_ start w =>
  Turned runtime call at_ start w ∧ (paused = true → at_.point ≠ .start)

def turning (runtime : Runtime K G) (call : Call K) : Contract AwaitPoint (Worker K G) where
  assume _ _ := True
  moves at_ start _ w := Turned runtime call at_ start w

section Turns
variable {call : Call K} {paused : Bool} {at_ : AwaitPoint}

theorem turned_refl (at_ : AwaitPoint) (w : Worker K G) : Turned runtime call at_ w w := ⟨w, grown_refl w, .inl rfl⟩

theorem turned_of (now : Turned runtime call at_ start w) (same : tables w' = tables w) :
    Turned runtime call at_ start w' := by
  obtain ⟨base, grown, begun⟩ := now
  refine ⟨base, grown_of grown same, ?_⟩
  rw [show w'.resolved = w.resolved from congrArg (·.2.2.1) same,
    show w'.accepted = w.accepted from congrArg (·.2.2.2.1) same]
  exact begun

theorem turning_of (now : Turning runtime call paused at_ start w) (same : tables w' = tables w) :
    Turning runtime call paused at_ start w' := ⟨turned_of now.1 same, now.2⟩

theorem turning_survives (site : AwaitPoint) (suspended : site.point ≠ .start) :
    Survives (turning runtime call) (Turning runtime call paused) site :=
  fun _ _ _ now => ⟨now.1, fun later _ => ⟨turned_refl site later, fun _ => suspended⟩⟩

theorem turning_bystander (entry : Ref) (peerIndex : ℤ) :
    Bystander (Turning runtime call paused) entry peerIndex where
  quiet {_ _ w w'} now same _ :=
    turning_of now (congrArg tables same : tables (beyondRatchet w') = tables (beyondRatchet w))
  advances {_ _ w} now next step := by
    obtain ⟨⟨base, grown, begun⟩, suspended⟩ := now
    exact ⟨⟨base, grown_advance grown entry peerIndex next step, begun⟩, suspended⟩

theorem turning_guardless : Guardless (Turning runtime call paused) := fun _ _ _ _ now => turning_of now rfl

/-- The step from which a reading of the tables counts, once the call has been
suspended. -/
theorem Turned.grown (now : Turned runtime call at_ start w) (suspended : at_.point ≠ .start) : Grown start w := by
  obtain ⟨base, grown, rfl | ⟨begins, -⟩⟩ := now
  · exact grown
  · exact absurd begins suspended

/-! ### Frames -/

/-- A frame gets its window where its sender has a key, or has been noticed. -/
theorem checkReplay_turned (slot : Slot) (now : Turning runtime call paused at_ start w)
    (expected : Keyed w slot.epoch slot.peerIndex ∨ Grown start w ∧ Noticed start w slot.epoch slot.peerIndex) :
    Yields (turning runtime call) (Turning runtime call paused) (checkReplay slot) (fun _ => True) at_ start w := by
  have asked : Turning runtime call paused at_ start (w.getReplayWindow slot.epoch slot.peerIndex).2 := by
    refine ⟨?_, now.2⟩
    rcases expected with keyed | ⟨grown, noticed⟩
    · obtain ⟨base, grown, begun⟩ := now.1
      obtain ⟨windows, next, same⟩ := w.getReplayWindow_snd slot.epoch slot.peerIndex
      refine ⟨base, grown_getReplayWindow grown (.inl keyed), ?_⟩
      rw [same]
      exact begun
    · exact ⟨start, grown_getReplayWindow grown (.inr noticed), .inl rfl⟩
  simp only [Yields, checkReplay, meets_bind, meets_read, meets_update]
  split
  · exact ⟨turning_of asked rfl, trivial⟩
  · exact ⟨asked, trivial⟩

/-- A frame is opened after a suspension, and its format is cached last. -/
theorem openResolved_turned (frame : Ref) (held : Slot × ℕ) (payload : Bytes) (guess : FormatGuess)
    (probed : Option Probed) (now : Turning runtime call probed.isSome at_ start w) :
    Meets (turning runtime call) (openResolved runtime frame held payload guess probed)
      (fun at_ start _ w => ∃ v, Turning runtime call true at_ start v ∧
        w = v.setFormatCache held.1.epoch held.1.peerIndex guess)
      (fun at_ start _ w => Turned runtime call at_ start w) at_ start w := by
  cases probed with
  | some found =>
    simp only [openResolved, meets_bind, meets_update, meets_pure]
    exact ⟨w, now, rfl⟩
  | none =>
    refine meets_after (yields_attempt (tryDecryptWithRatchet_yields
      (fun point => turning_survives _ (by simp)) turning_bystander _ now)) (fun _ _ outcome w now _ =>
        ?_) fun _ _ _ _ now => now.1
    simp only [meets_bind, meets_pause, meets_settle, meets_update, meets_pure]
    refine ⟨now.1, fun later _ => ?_⟩
    cases outcome with
    | error refused => exact turned_refl _ later
    | ok opened => exact ⟨later, ⟨turned_refl _ later, fun _ => by simp⟩, rfl⟩

/-- The frame of a cached format is accepted. -/
theorem acceptFrame_turned (frame : Ref) (held : Slot × ℕ) (payload : Bytes) (guess : FormatGuess) (opened : Bytes)
    (now : Turning runtime call true at_ start w) :
    Yields (turning runtime call) (Turning runtime call true) (acceptFrame runtime frame held payload guess opened)
      (fun _ => True) at_ start (w.setFormatCache held.1.epoch held.1.peerIndex guess) := by
  have accepted : Turning runtime call true at_ start
      ((w.setFormatCache held.1.epoch held.1.peerIndex guess).acceptReplay held.1 held.2 frame) :=
    ⟨⟨start, grown_accept (now.1.grown (now.2 rfl)) held.1 guess held.2 frame, .inl rfl⟩, now.2⟩
  refine yields_bind (yields_update accepted) fun _ _ _ _ now _ => ?_
  refine yields_bind (durableAccept_yields turning_guardless (turning_survives _ (by simp)) held.1 now)
    fun _ _ _ w now _ => ?_
  refine yields_bind (yields_update (turning_of now (tables_books (w.unbooked_recordSuccess _ _)))) fun _ _ _ w now _ =>
    ?_
  refine yields_bind (yields_update (turning_of now rfl)) fun _ _ _ w now _ => ?_
  exact yields_update (turning_of now (tables_signals w.unsignalled_clearStarve))

/-- A drop is reported and thrown. -/
private theorem report_turned {report : Worker K G → Worker K G} (now : Turned runtime call at_ start w)
    (same : tables (report w) = tables w) (refused : JsError) {α : Type} :
    Meets (turning runtime call) (do update report; throw refused : Task K G α)
      (fun at_ start _ w => Turned runtime call at_ start w) (fun at_ start _ w => Turned runtime call at_ start w)
      at_ start w := by
  simp only [meets_bind, meets_update, meets_throw]
  exact turned_of now same

/-- The gates behind a header that has been noted. -/
theorem decodePayload_turned (frame : Ref) (payload : Bytes) (guess : FormatGuess) (probed : Option Probed)
    (hdr : SFrameHeader) (now : Turning runtime call probed.isSome at_ start w) (grown : Grown start w)
    (noticed : w.currentMinValidEpoch ≤ (w.kidCodec.decode hdr.kid).1 → w.currentEpoch ≠ -1 →
      Noticed start w (w.kidCodec.decode hdr.kid).1 (w.kidCodec.decode hdr.kid).2) :
    Meets (turning runtime call) (decodePayload runtime frame payload guess probed hdr)
      (fun at_ start _ w => Turned runtime call at_ start w) (fun at_ start _ w => Turned runtime call at_ start w)
      at_ start w := by
  have thrown : ∀ at_ start (error : JsError) w, Turning runtime call probed.isSome at_ start w →
      Turned runtime call at_ start w := fun _ _ _ _ now => now.1
  simp only [decodePayload, meets_bind, meets_read]
  split
  · exact report_turned now.1 (tables_signals (by simp [reportDrop])) _
  · rename_i live
    split
    · simp only [meets_bind, meets_update, meets_pure]
      exact turned_of now.1 (tables_pushToQueue w frame _)
    · rename_i current
      have expected := noticed (Int.not_lt.mp live) current
      refine meets_after (checkReplay_turned ⟨_, _, hdr.ctr⟩ now (.inr ⟨grown, expected⟩))
        (fun _ _ object w now _ => ?_) thrown
      cases object with
      | none => exact report_turned now.1 (tables_signals (unsignalled_reportReplay w _ _ _)) _
      | some object =>
        refine meets_after (durableCheck_yields turning_guardless (turning_survives _ (by simp)) _ now)
          (fun _ _ answer w now _ => ?_) thrown
        split
        · exact report_turned now.1 (tables_signals (unsignalled_reportReplay _ _ _ _)) _
        · simp only [meets_bind, meets_read]
          split
          · exact report_turned now.1 (tables_signals (unsignalled_reportKeyInvalid _ _ _ _)) _
          · refine meets_bind.mpr (meets_mono (openResolved_turned frame _ payload guess probed now) ?_
              fun _ _ _ _ now => now)
            rintro _ _ opened w ⟨v, now, rfl⟩
            refine meets_bind.mpr (meets_mono (acceptFrame_turned frame _ payload guess opened now) ?_
              fun _ _ _ _ now => now.1)
            rintro _ _ - w ⟨now, -⟩
            simp only [meets_bind, meets_update, meets_pure]
            exact turned_of now.1 (tables_signals (w.unsignalled_emitMetric _))

/-- A call that neither installs nor wipes. -/
def Plain (runtime : Runtime K G) (call : Call K) : Prop := ∀ start base, ¬ First runtime call start base

theorem decodeFrame_turned (plain : Plain runtime call) (ref : Ref) (now : Turning runtime call false at_ start w) :
    Meets (turning runtime call) (decodeFrame runtime ref)
      (fun at_ start _ w => Turned runtime call at_ start w) (fun at_ start _ w => Turned runtime call at_ start w)
      at_ start w := by
  simp only [decodeFrame, meets_bind, meets_read]
  split
  · exact now.1
  · rename_i payload stripped
    refine meets_bind.mpr (meets_mono (resolveFormat_meets ref payload _ _ (turning_survives _ (by simp))
      (turning_survives _ (by simp)) now) ?_ fun _ _ _ _ now => now.1)
    rintro at_ start ⟨guess, probed⟩ w ⟨now, suspended⟩
    simp only [meets_bind, meets_read]
    cases parseHeader (payload.drop guess.prefixLen) with
    | error refused => exact report_turned now.1 (tables_books (unbooked_failDecode w _ refused)) _
    | ok hdr =>
      obtain ⟨base, grown, rfl | ⟨-, begins, -⟩⟩ := now.1
      · simp only [meets_bind, meets_update, meets_tryCatch, meets_throw]
        have noted := grown_resolved grown (ref, ⟨(w.kidCodec.decode hdr.kid).1,
          (w.kidCodec.decode hdr.kid).2, hdr.ctr⟩)
        refine meets_mono (decodePayload_turned ref payload guess probed hdr
          ⟨⟨base, noted, .inl rfl⟩, fun probes => by rw [suspended probes]; simp⟩ noted
          fun live current => noticed_resolved grown ref live current) (fun _ _ _ _ now => now) ?_
        exact fun _ _ refused w now => turned_of now (tables_books (unbooked_failDecode w _ refused))
      · exact absurd begins (plain _ _)

theorem decodeTransform_turned (plain : Plain runtime call) (ref : Ref) (now : Turning runtime call false at_ start w) :
    Yields (turning runtime call) (Turned runtime call) (decodeTransform runtime ref) (fun _ => True) at_ start w := by
  refine meets_tryCatch.mpr (meets_bind.mpr (meets_mono (decodeFrame_turned plain ref now) ?_ ?_))
  · intro at_ start path w now
    simp only [meets_bind, meets_read, meets_pause, meets_update]
    exact ⟨now, fun later _ => ⟨turned_of (turned_refl _ later) rfl, trivial⟩⟩
  · exact fun _ _ _ _ now => ⟨now, trivial⟩

/-- The queue looks for the key before it makes a window. -/
theorem drainPayload_turned (frame : Ref) (raw : Bytes) (guess : FormatGuess) (probed : Option Probed)
    (hdr : SFrameHeader) (now : Turning runtime call probed.isSome at_ start w) :
    Meets (turning runtime call) (drainPayload runtime frame raw guess probed hdr)
      (fun at_ start _ w => Turned runtime call at_ start w) (fun at_ start _ w => Turned runtime call at_ start w)
      at_ start w := by
  have thrown : ∀ at_ start (error : JsError) w, Turning runtime call probed.isSome at_ start w →
      Turned runtime call at_ start w := fun _ _ _ _ now => now.1
  simp only [drainPayload, meets_bind, meets_read]
  split
  · exact now.1
  · split
    · exact turned_of now.1 (tables_pushToQueue w frame _)
    · rename_i key cached
      have keyed : Keyed w (w.kidCodec.decode hdr.kid).1 (w.kidCodec.decode hdr.kid).2 := by
        rw [Keyed, cached]
        rfl
      refine meets_after (checkReplay_turned ⟨_, _, hdr.ctr⟩ now (.inl keyed)) (fun _ _ object w now _ => ?_) thrown
      cases object with
      | none => exact turned_of now.1 (tables_signals (unsignalled_reportReplay w _ _ _))
      | some object =>
        refine meets_after (durableCheck_yields turning_guardless (turning_survives _ (by simp)) _ now)
          (fun _ _ answer w now _ => ?_) thrown
        split
        · exact turned_of now.1 (tables_signals (unsignalled_reportReplay w _ _ _))
        · simp only [meets_bind, meets_read]
          split
          · exact turned_of now.1 (tables_signals (unsignalled_reportKeyInvalid w _ _ _))
          · refine meets_bind.mpr (meets_mono (openResolved_turned frame _ raw guess probed now) ?_
              fun _ _ _ _ now => now)
            rintro _ _ opened w ⟨v, now, rfl⟩
            exact meets_mono (acceptFrame_turned frame _ raw guess opened now) (fun _ _ _ _ held => held.1.1)
              fun _ _ _ _ now => now.1

theorem drainFrame_turned (ref : Ref) (now : Turning runtime call false at_ start w) :
    Yields (turning runtime call) (Turning runtime call false) (drainFrame runtime ref)
      (fun _ => True) at_ start w := by
  have whole {at_ : AwaitPoint} {start w : Worker K G} (now : Turned runtime call at_ start w) :
      Turning runtime call false at_ start w := ⟨now, nofun⟩
  refine yields_read (meets_tryCatch.mpr (meets_bind.mpr (meets_mono (resolveFormat_meets ref _ _ _
    (turning_survives _ (by simp)) (turning_survives _ (by simp)) now) ?_ ?_)))
  · rintro at_ start ⟨guess, probed⟩ w ⟨now, suspended⟩
    simp only [meets_bind, meets_settle]
    cases parseHeader ((_ : EncodedFrame).data.drop guess.prefixLen) with
    | error refused => exact ⟨whole (turned_of now.1 (tables_books (unbooked_failDrain w refused))), trivial⟩
    | ok hdr =>
      refine meets_mono (drainPayload_turned ref _ guess probed hdr ⟨now.1,
        fun probes => by rw [suspended probes]; simp⟩)
        (fun _ _ _ _ now => ⟨whole now, trivial⟩) ?_
      exact fun _ _ refused w now => ⟨whole (turned_of now (tables_books (unbooked_failDrain w refused))), trivial⟩
  · exact fun _ _ refused w now => ⟨turning_of now (tables_books (unbooked_failDrain w refused)), trivial⟩

theorem drainFrames_turned (queue : List Ref) (now : Turning runtime call false at_ start w) :
    Yields (turning runtime call) (Turning runtime call false) (drainFrames runtime queue) (fun _ => True)
      at_ start w := by
  induction queue generalizing at_ start w with
  | nil => exact ⟨now, trivial⟩
  | cons ref rest ih => exact yields_bind (drainFrame_turned ref now) fun _ _ _ _ now _ => ih now

theorem drainPreEpochQueue_turned (now : Turning runtime call false at_ start w) :
    Yields (turning runtime call) (Turning runtime call false) (drainPreEpochQueue runtime) (fun _ => True)
      at_ start w := by
  unfold drainPreEpochQueue
  generalize runtime.patience = patience
  induction patience generalizing at_ start w with
  | zero => exact yields_pauseUntil (turning_survives _ (by simp)) _ now
  | succ patience ih =>
    apply yields_read
    split
    · exact yields_update (turning_of now rfl)
    · refine yields_bind (yields_update (turning_of now rfl)) fun _ _ _ _ now _ => ?_
      refine yields_bind (drainFrames_turned _ now) fun _ _ _ w now _ => ?_
      refine yields_bind (yields_update (turning_of now rfl)) fun _ _ _ w now _ => yields_read ?_
      split
      · exact yields_bind (yields_update (turning_of now rfl)) fun _ _ _ _ now _ => ih now
      · exact ⟨now, trivial⟩

theorem turning_unencoded (frame : Ref) : Unencoded (Turning runtime call paused) frame := fun _ _ w w' now encodes =>
  turning_of now (congrArg tables encodes.same : tables (beyondEncoding w') = tables (beyondEncoding w))

/-! ### Calls -/

theorem turned_aside : WindowsAside (Turned runtime call) := by
  intro at_ start w w' now same
  exact turned_of now (congrArg tables same : tables (beyondSettings w') = tables (beyondSettings w))

/-- Without the windows the tables know fewer senders. -/
theorem grown_emptied (w : Worker K G) (size : ℕ) :
    Grown w { w with replayWindowSize := size, replayWindows := ∅ } where
  table := rfl
  next := rfl
  keyed _ _ keyed := keyed
  resolved := List.prefix_refl _
  accepted := List.prefix_refl _
  senders epoch peerIndex member := by
    rw [mem_senders] at member ⊢
    rcases member with never | format
    · cases never
    · exact .inl (.inr format)

theorem handleEpoch_turned {epoch selfPeerIndex : ℤ} {keys : KeyBundles K}
    (named : Installs call epoch selfPeerIndex keys) (begins : at_.point = .start) :
    Yields (turning runtime call) (Turned runtime call) (handleEpoch runtime epoch selfPeerIndex keys)
      (fun _ => True) at_ w w := by
  simp only [Yields, handleEpoch, meets_bind, meets_read, meets_settle]
  split
  · rename_i installed ok
    rw [meets_update]
    have now : Turning runtime call false at_ w installed :=
      ⟨⟨installed, grown_refl installed, .inr ⟨begins, .installs named ok, rfl, rfl⟩⟩, fun never => by cases never⟩
    exact meets_mono (drainPreEpochQueue_turned now) (fun _ _ _ _ held => ⟨held.1.1, trivial⟩) fun _ _ _ _ now => now.1
  · exact turned_refl at_ w

theorem program_turned (call : Call K) (w : Worker K G) :
    Yields (turning runtime call) (Turned runtime call) (call.program runtime) (fun _ => True)
      { point := .start } w w := by
  have done {program : Task K G Unit}
      (yields : Yields (turning runtime call) (Turned runtime call) program (fun _ => True) { point := .start } w w) :
      Yields (turning runtime call) (Turned runtime call) (do program; return .done : Task K G Outcome)
        (fun _ => True) { point := .start } w w :=
    yields_bind yields fun _ _ _ _ now _ => ⟨now, trivial⟩
  have turns {α : Type} {program : Task K G α} {w : Worker K G} {at_ : AwaitPoint} {start : Worker K G}
      (yields : Yields (turning runtime call) (Turning runtime call false) program (fun _ => True) at_ start w) :
      Yields (turning runtime call) (Turned runtime call) program (fun _ => True) at_ start w :=
    meets_mono yields (fun _ _ _ _ held => ⟨held.1.1, trivial⟩) fun _ _ _ _ now => now.1
  have fresh : Turned runtime call { point := .start } w w := turned_refl _ w
  have unpaused {at_ : AwaitPoint} : false = true → at_.point ≠ .start := fun never => by cases never
  have received (frame : EncodedFrame) {rest : Ref → Task K G Outcome}
      (next : ∀ ref w', Turning runtime call false { point := .start } w w' →
        Yields (turning runtime call) (Turned runtime call) (rest ref) (fun _ => True) { point := .start } w w') :
      Yields (turning runtime call) (Turned runtime call) (receive frame >>= rest) (fun _ => True)
        { point := .start } w w := by
    simp only [Yields, receive, meets_bind, meets_read, meets_update, meets_pure]
    exact next _ _ ⟨turned_of fresh rfl, unpaused⟩
  cases call with
  | message msg =>
    refine done (handleMessage_yields_aside turned_aside fresh (fun epoch selfPeerIndex keys own => ?_) ?_ ?_)
    · refine handleEpoch_turned ?_ rfl
      rcases own with rfl | rfl
      · exact .inl rfl
      · exact .inr rfl
    · exact fun size _ => ⟨w, grown_emptied w _, .inl rfl⟩
    · rintro rfl
      exact ⟨w.teardown, grown_refl _, .inr ⟨rfl, .tearsDown, rfl, rfl⟩⟩
  | wipeTimer epoch =>
    refine done (yields_read ?_)
    split
    · exact yields_update ⟨w.wipeEpoch runtime.guard epoch, grown_refl _, .inr ⟨rfl, .wipes, rfl, rfl⟩⟩
    · exact ⟨fresh, trivial⟩
  | tick elapsed => exact done (yields_update (turned_of fresh rfl))
  | transform side frame =>
    cases side with
    | encode =>
      exact received frame fun ref w now => yields_bind (turns (encodeTransform_yields (turning_unencoded ref)
        (fun _ later => turning_survives _ later) _ now))
        fun _ _ _ _ now _ => ⟨now, trivial⟩
    | decode =>
      have plain : Plain runtime (.transform .decode frame) := by
        rintro start base (⟨never | never, -⟩ | - | -)
        · cases never
        · cases never
      exact received frame fun ref w now => yields_bind (decodeTransform_turned plain ref now)
        fun _ _ _ _ now _ => ⟨now, trivial⟩
  | encodeFrame frame =>
    exact received frame fun ref w now => yields_bind (turns (encodeFrame_yields (turning_unencoded ref)
      (fun _ later => turning_survives _ later) _ now))
      fun _ _ _ _ now _ => ⟨now, trivial⟩
  | decodeFrame frame =>
    have plain : Plain runtime (.decodeFrame frame) := by
      rintro start base (⟨never | never, -⟩ | - | -)
      · cases never
      · cases never
    refine received frame fun ref w now => meets_bind.mpr (meets_mono (decodeFrame_turned plain ref now) ?_ ?_)
    · exact fun _ _ _ _ now => ⟨now, trivial⟩
    · exact fun _ _ _ _ now => now
  | tryDecryptWithRatchet opening =>
    exact yields_bind (turns (tryDecryptWithRatchet_yields
      (fun point => turning_survives _ (by simp)) turning_bystander opening ⟨fresh, unpaused⟩)) fun _ _ _ _ now _ =>
        ⟨now, trivial⟩
  | drainPreEpochQueue => exact done (turns (drainPreEpochQueue_turned ⟨fresh, unpaused⟩))

end Turns

/-! ## Runs -/

theorem keyed_iff : Keyed w epoch peerIndex ↔
    ∃ ref key, w.epochs.get? epoch = some ref ∧ (w.entries.read ref).keys.get? peerIndex = some key := by
  unfold Keyed Worker.cachedKey
  cases w.epochs.get? epoch with
  | none => simp
  | some ref => simp [Option.isSome_iff_exists]

theorem withinKeys_grown (within : WithinKeys start) (grown : Grown start w) (expected : Expected start w) :
    WithinKeys w := by
  intro epoch peerIndex member
  rcases grown.senders epoch peerIndex member with old | keyed | found | accepted
  · exact grown.keyed _ _ (within epoch peerIndex old)
  · exact keyed
  · obtain ⟨header, found, rfl, rfl, live, current⟩ := found
    exact grown.keyed _ _ (expected.1 header found live current)
  · obtain ⟨acceptance, accepted, rfl, rfl⟩ := accepted
    exact grown.keyed _ _ (expected.2 acceptance accepted)

/-- An epoch is installed with keys for every sender that the tables know of it, and
no other epoch loses its keys. -/
theorem withinKeys_installEpoch (within : WithinKeys start) (registered : Reinstall.Registered start)
    {call : Call K} {epoch selfPeerIndex : ℤ} {keys : KeyBundles K} (named : Installs call epoch selfPeerIndex keys)
    (covers : Covers call start) (ok : start.installEpoch epoch selfPeerIndex keys = .ok w) : WithinKeys w := by
  have carried : ∀ peerIndex ∈ senders start epoch, keys.has peerIndex = true := by
    rcases named with rfl | rfl <;> exact covers
  obtain ⟨made, installed, same⟩ := Worker.core_installEpoch ok
  have formats := (Worker.installEpoch_accounts ok).1
  have parts : w.replayWindows = start.replayWindows ∧
      w.epochs = start.epochs.set epoch start.entries.next ∧
      w.entries = start.entries.alloc { epoch, selfPeerIndex, keys := made, ratchetSteps := ∅ } := by
    split at same
    all_goals exact ⟨congrArg (·.replayWindows) same, congrArg (·.epochs) same, congrArg (·.entries) same⟩
  obtain ⟨windows, epochs, entries⟩ := parts
  intro other peerIndex member
  have known : peerIndex ∈ senders start other := by
    unfold senders at member
    rw [windows, formats] at member
    exact member
  rw [keyed_iff, epochs, entries]
  by_cases own : other = epoch
  · subst own
    obtain ⟨bundle, listed⟩ := Option.isSome_iff_exists.mp (carried peerIndex known)
    obtain ⟨kid, -, held⟩ := Worker.installKeys_lookup keys.nodup listed installed
    exact ⟨start.entries.next,
      _, by rw [OrderedMap.get?_set, if_pos rfl], by rw [Heap.read_alloc, if_pos rfl]; exact held⟩
  · obtain ⟨ref, key, found, held⟩ := keyed_iff.mp (within other peerIndex known)
    have older := registered.made other ref found
    refine ⟨ref, key, by rw [OrderedMap.get?_set, if_neg own]; exact found, ?_⟩
    rw [Heap.read_alloc, if_neg (Nat.ne_of_lt older)]
    exact held

/-- A wiped epoch takes its senders with it. -/
theorem withinKeys_wipeEpoch (within : WithinKeys start) (guard : ReplayGuard G) (wiped : ℤ) :
    WithinKeys (start.wipeEpoch guard wiped) := by
  intro epoch peerIndex member
  by_cases own : epoch = wiped
  · subst own
    rw [mem_senders] at member
    simp [Worker.wipeEpoch, Worker.windowOf, Worker.getFormatCache] at member
  · have known : peerIndex ∈ senders start epoch := by
      rw [mem_senders] at member ⊢
      simpa [Worker.wipeEpoch, Worker.windowOf, Worker.getFormatCache, own] using member
    obtain ⟨ref, key, found, held⟩ := keyed_iff.mp (within epoch peerIndex known)
    rw [keyed_iff]
    have kept : (start.wipeEpoch guard wiped).epochs.get? epoch = some ref := by
      simp [Worker.wipeEpoch, own, found]
    cases entry : start.epochs.get? wiped with
    | none => exact ⟨ref, key, kept, by simpa [Worker.wipeEpoch, entry] using held⟩
    | some zeroized =>
      by_cases same : ref = zeroized
      · subst same
        refine ⟨ref, { key with rawKey := zeroize key.rawKey }, kept, ?_⟩
        simp [Worker.wipeEpoch, entry, Worker.zeroizeEntry, held]
      · exact ⟨ref, key, kept, by simpa [Worker.wipeEpoch, entry, same] using held⟩

theorem withinKeys_teardown (w : Worker K G) : WithinKeys w.teardown := by
  intro epoch peerIndex never
  cases never

/-- A turn of any call leaves the tables within the keys. -/
theorem withinKeys_turned {at_ : AwaitPoint} {call : Call K} (within : WithinKeys start)
    (registered : Reinstall.Registered start) (expected : Expected start w)
    (covers : at_.point = .start → Covers call start)
    (turned : Turned runtime call at_ start w) : WithinKeys w ∧ Reinstall.Registered w := by
  obtain ⟨base, grown, begun⟩ := turned
  have onward (registered : Reinstall.Registered base) : Reinstall.Registered w :=
    Reinstall.registered_of registered (Prod.ext grown.table grown.next)
  rcases begun with rfl | ⟨begins, first, resolved, accepted⟩
  · exact ⟨withinKeys_grown within grown expected, onward registered⟩
  · have quiet : Expected base w := by
      constructor
      · intro header found
        simp [foundSince, resolved] at found
      · intro acceptance since
        simp [acceptedSince, accepted] at since
    cases first with
    | installs named ok =>
      exact ⟨withinKeys_grown (withinKeys_installEpoch within registered named (covers begins) ok) grown quiet,
        onward (Reinstall.registered_installEpoch registered ok)⟩
    | wipes =>
      exact ⟨withinKeys_grown (withinKeys_wipeEpoch within _ _) grown quiet,
        onward (Reinstall.registered_wipeEpoch registered _ _)⟩
    | tearsDown =>
      exact ⟨withinKeys_grown (withinKeys_teardown start) grown quiet, onward (Reinstall.registered_teardown start)⟩

/-- The gate of the runs in which headers name known senders, frames are accepted
while their key is there, and epochs are installed with all their senders. -/
def knownSenders {ι : Type} (calls : ι → Call K) : WorkerPool ι K G → ι → WorkerPool ι K G → Prop :=
  fun before call after => Expected before.shared after.shared ∧
    whereAllowed (fun at_ w => at_.point = .start → Covers (calls call) w) before call after

instance {ι : Type} (calls : ι → Call K) (before : WorkerPool ι K G) (call : ι) (after : WorkerPool ι K G) :
    Decidable (knownSenders calls before call after) :=
  inferInstanceAs (Decidable (Expected before.shared after.shared ∧
    whereAllowed (fun at_ w => at_.point = .start → Covers (calls call) w) before call after))

/-- In every state of such a run the tables know only senders with a key. -/
theorem tables_within_keys {ι : Type} [DecidableEq ι] (calls : ι → Call K) {last : WorkerPool ι K G}
    (run : Runs (knownSenders calls) (launch runtime Worker.createWorkerState calls) last) :
    WithinKeys last.shared := by
  refine And.left (runs_invariant (fun call => turning runtime (calls call))
    (fun call at_ start _ w => Turned runtime (calls call) at_ start w)
    (fun w _ => WithinKeys w ∧ Reinstall.Registered w) ⟨?_, Reinstall.registered_created⟩
    (launch_follows fun call w _ => ?_) (fun _ _ _ _ _ _ _ _ => trivial)
    (fun before call at_ after holds waits passes _ moved => ?_) run)
  · intro epoch peerIndex never
    cases never
  · refine Contract.keeps_mono (program_turned (calls call) w) fun _ _ result _ holds => ?_
    cases result with
    | ok value => exact holds.1
    | error refused => exact holds
  · have turned : Turned runtime (calls call) at_ before.shared after.shared := by
      generalize after.statuses call = reached at moved
      cases reached with
      | running => exact moved.elim
      | suspended next => exact moved
      | finished result => exact moved
    exact withinKeys_turned holds.1 holds.2 passes.1 (passes.2 at_ waits) turned

section Checked
open Specimen (bundles keyOf sealedBy)

/-- An epoch of two senders, then a frame that names a sixth. -/
def madeUpSender : Fin 2 → Call Bytes
  | 0 => .message (.epoch 0 0 (bundles [7, 8]))
  | 1 => .decodeFrame { data := sealedBy (keyOf 0 5 9) 0 [1] }

/-- Whether a call has ended. -/
def ended : Status AwaitPoint (Except JsError Outcome) → Bool
  | .finished _ => true
  | _ => false

/-- Nobody has the key, and the sender has a replay window. -/
theorem made_up_sender_stays : ¬ ∀ last : WorkerPool (Fin 2) Bytes Unit,
    Runs anyTurn (launch Specimen.runtime Worker.createWorkerState madeUpSender) last →
      (∀ call, ∃ outcome, last.statuses call = .finished outcome) → WithinKeys last.shared := by
  intro within
  have result : ((launch Specimen.runtime Worker.createWorkerState madeUpSender).followPassing anyTurn
      [0, 1, 1, 1]).map (fun pool => ((List.finRange 2).map fun call => ended (pool.statuses call),
        senders pool.shared 0, decide (Keyed pool.shared 0 5))) = some ([true, true], [5], false) := by
    decide +kernel
  obtain ⟨last, followed, shape⟩ := Option.map_eq_some_iff.mp result
  simp only [Prod.mk.injEq] at shape
  obtain ⟨ends, known, keyless⟩ := shape
  have keyed := within last (followPassing_runs followed) (fun call => ?_) 0 5 (by rw [known]; decide)
  · exact of_decide_eq_false keyless keyed
  · have finished : ∀ call ∈ List.finRange 2, ended (last.statuses call) = true := by
      simpa [List.finRange] using ends
    have here := finished call (List.mem_finRange call)
    unfold ended at here
    split at here
    · exact ⟨_, by assumption⟩
    · cases here

/-- The same epoch, and a frame of its second sender. -/
def knownSender : Fin 2 → Call Bytes
  | 0 => .message (.epoch 0 0 (bundles [7, 8]))
  | 1 => .decodeFrame { data := sealedBy (keyOf 0 1 8) 0 [1] }

theorem tables_within_keys_known : ∃ last : WorkerPool (Fin 2) Bytes Unit,
    senders last.shared 0 = [1, 1] ∧ WithinKeys last.shared := by
  have result : ((launch Specimen.runtime Worker.createWorkerState knownSender).followPassing
      (knownSenders knownSender) [0, 1, 1, 1]).map (fun pool => senders pool.shared 0) = some [1, 1] := by
    decide +kernel
  obtain ⟨last, followed, known⟩ := Option.map_eq_some_iff.mp result
  exact ⟨last, known, tables_within_keys knownSender (followPassing_runs followed)⟩

end Checked
end SFrameRatchet.SenderTables
