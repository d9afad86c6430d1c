import SFrameRatchet.FrameCryptor
import SFrameRatchet.PartyQueue

/-! The turns of a party: it hears what its cryptor has posted, its timers fire, and frames
are encoded and decoded. Each turn leaves it attending to the same conversation. -/
namespace SFrameRatchet.Party
open Collections Crypto Kid Header SFrame CodecPartial Replay Throwing Coroutine Media SoloDecoding StreamRoundTrip
  Reinstall Cryptor

variable {K G : Type} {runtime : Runtime K G} {terms : Terms K} {heard heard' : Set Slot} {w w' v : Worker K G}
  {flight other : Flight} {ref : Ref} {waiting rest : List (Ref × Flight)} {index : ℤ → Option ℤ} {epoch : ℤ}

/-- The index that a worker sends under in each epoch it has installed. -/
def Voiced (index : ℤ → Option ℤ) (w : Worker K G) : Prop :=
  ∀ epoch ref, w.epochs.get? epoch = some ref → index epoch = some (w.entries.read ref).selfPeerIndex

theorem voiced_of (voiced : Voiced index w) (stands : standing w' = standing w) : Voiced index w' := by
  simp only [standing, Prod.mk.injEq] at stands
  unfold Voiced
  rw [stands.2.1.1, stands.2.1.2.1]
  exact voiced

/-! ## Installing and forgetting an epoch -/

/-- What installing an epoch changes. -/
structure Installed (w : Worker K G) (epoch : ℤ) (w' : Worker K G) : Prop where
  layout : w'.kidCodec = w.kidCodec
  current : w'.currentEpoch = if epoch > w.currentEpoch then epoch else w.currentEpoch
  ctr : w'.ctr = if epoch > w.currentEpoch then 0 else w.ctr
  valid : w'.currentMinValidEpoch = w.currentMinValidEpoch
  epochs : ∀ other, w'.epochs.has other = true ↔ other = epoch ∨ w.epochs.has other = true
  timers : ∀ other, w'.wipeTimers.has other = true → w.wipeTimers.has other = true ∨
    epoch > w.currentEpoch ∧ other < epoch
  queue : w'.preEpochQueue = w.preEpochQueue
  frames : w'.frames = w.frames
  idle : (w'.draining, w'.pendingDrain) = (w.draining, w.pendingDrain)

private def underneath (w : Worker K G) :=
  ((w.codec, w.sifTrailer, w.kidCodec, w.failureTolerance, w.durableReplay), (w.epochs, w.entries),
    w.currentMinValidEpoch, w.replayWindows, w.preEpochQueue, w.frames, (w.draining, w.pendingDrain))

theorem tuned_installEpoch (tuned : Tuned terms heard w) (voiced : Voiced index w)
    (layout : w.kidCodec = terms.kidCodec)
    {peerIndex : ℤ} (seat : index epoch = some peerIndex)
    (ok : w.installEpoch epoch peerIndex (terms.bundles epoch) = .ok w') :
    Tuned terms heard w' ∧ Voiced index w' ∧ Installed w epoch w' := by
  obtain ⟨keys, made, same⟩ := Worker.core_installEpoch ok
  obtain ⟨formats, -⟩ := Worker.installEpoch_accounts ok
  -- either way the worker has got the entry, and what else changes is not underneath
  have entered : underneath w' = underneath (w.withEntry epoch peerIndex keys) := by
    have cores : underneath w'.core = _ := congrArg underneath same
    split at cores <;> exact cores
  simp only [underneath, Prod.mk.injEq, Worker.withEntry] at entered
  obtain ⟨⟨codec, trailer, codecs, tolerance, guard⟩, ⟨epochs, entries⟩, valid, windows, queue, frames, idle⟩ := entered
  have held {other : ℤ} {ref : Ref} (found : w'.epochs.get? other = some ref) :
      other = epoch ∧ w'.entries.read ref = { epoch, selfPeerIndex := peerIndex, keys, ratchetSteps := ∅ } ∨
        w.epochs.get? other = some ref ∧ w'.entries.read ref = w.entries.read ref := by
    rw [epochs, OrderedMap.get?_set] at found
    rw [entries, Heap.read_alloc]
    split at found
    · rename_i own
      cases found
      exact .inl ⟨own, if_pos rfl⟩
    · exact .inr ⟨found, if_neg (Nat.ne_of_lt (tuned.registered.made other ref found))⟩
  refine ⟨⟨?_, ?_, ?_, ?_, ?_, ?_, ?_, ?_, registered_installEpoch tuned.registered ok⟩, ?_, ?_⟩
  · exact codec.trans tuned.codec
  · exact trailer.trans tuned.trailer
  · rw [tolerance]; exact tuned.tolerant
  · exact guard.trans tuned.unguarded
  · exact fun _ _ => codecs.trans layout
  · simp only [Worker.getFormatCache, formats]; exact tuned.formats
  · simp only [Worker.windowOf, windows]; exact tuned.windows
  · intro other ref found
    rcases held found with ⟨rfl, entry⟩ | ⟨found, entry⟩
    · rw [entry, Terms.keys, ← layout]; exact made
    · rw [entry]; exact tuned.installed other ref found
  · intro other ref found
    rcases held found with ⟨rfl, entry⟩ | ⟨found, entry⟩
    · rw [entry, seat]
    · rw [entry]; exact voiced other ref found
  · refine ⟨codecs, ?_, ?_, valid, ?_, ?_, queue, frames, Prod.ext idle.1 idle.2⟩
    · have current := congrArg (·.currentEpoch) same
      split at current
      · rename_i above; rw [if_pos above]; exact current
      · rename_i below; rw [if_neg below]; exact current
    · have ctr := congrArg (·.ctr) same
      split at ctr
      · rename_i above; rw [if_pos above]; exact ctr
      · rename_i below; rw [if_neg below]; exact ctr
    · intro other
      rw [epochs, OrderedMap.has_set]
    · intro other pending
      obtain ⟨entry, table⟩ := EpochTable.epochTable_installEpoch ok
      split at table
      · rename_i above
        have timers : w'.wipeTimers = _ := congrArg (fun table => table.2.2.2) table
        rw [timers] at pending
        exact (EpochTable.scheduled_iff.mp pending).imp id fun scheduled => ⟨above, scheduled.2⟩
      · have timers : w'.wipeTimers = w.wipeTimers := congrArg (fun table => table.2.2.2) table
        exact .inl (timers ▸ pending)

theorem tuned_wipeEpoch (tuned : Tuned terms heard w) (voiced : Voiced index w) (epoch : ℤ) :
    Tuned terms heard (w.wipeEpoch runtime.guard epoch) ∧ Voiced index (w.wipeEpoch runtime.guard epoch) := by
  have held {other : ℤ} {ref : Ref} (found : (w.wipeEpoch runtime.guard epoch).epochs.get? other = some ref) :
      w.epochs.get? other = some ref ∧ (w.wipeEpoch runtime.guard epoch).entries.read ref = w.entries.read ref := by
    simp only [Worker.wipeEpoch, OrderedMap.get?_delete] at found ⊢
    split at found
    · cases found
    · rename_i apart
      refine ⟨found, ?_⟩
      split
      · rename_i wiped here
        rw [Heap.read_write, if_neg]
        rintro rfl
        exact apart (tuned.registered.own _ _ _ found here)
      · rfl
  refine ⟨⟨tuned.codec, tuned.trailer, tuned.tolerant, ?_, ?_, ?_, ?_, ?_,
    registered_wipeEpoch tuned.registered runtime.guard epoch⟩, ?_⟩
  · simp only [Worker.wipeEpoch, tuned.unguarded, Option.map_none]
  · exact fun other installed => tuned.layout other (OrderedMap.has_delete.mp installed).2
  · intro other peer guess cached
    simp only [Worker.getFormatCache, Worker.wipeEpoch, OrderedMap.get?_delete] at cached
    split at cached
    · cases cached
    · exact tuned.formats other peer guess cached
  · intro other peer window found
    simp only [Worker.windowOf, Worker.wipeEpoch, OrderedMap.get?_delete] at found
    split at found
    · cases found
    · exact tuned.windows other peer window found
  · intro other ref found
    rw [(held found).2]
    exact tuned.installed other ref (held found).1
  · intro other ref found
    rw [(held found).2]
    exact voiced other ref (held found).1

theorem tuned_teardown (tuned : Tuned terms heard w) : Tuned terms heard w.teardown ∧ Voiced index w.teardown := by
  refine ⟨⟨tuned.codec, tuned.trailer, tuned.tolerant, rfl, ?_, ?_, ?_, ?_, registered_teardown w⟩, ?_⟩
  · intro other never; cases never
  · intro other peer guess never; cases never
  · intro other peer window never; cases never
  · intro other ref never; cases never
  · intro other ref never; cases never

/-- The current epoch has its keys, is valid and has no timer. -/
structure Abiding (w : Worker K G) : Prop where
  held : w.currentEpoch ≠ -1 → w.epochs.has w.currentEpoch = true
  valid : w.currentMinValidEpoch ≤ max 0 w.currentEpoch
  timers : ∀ epoch, w.wipeTimers.has epoch = true → epoch < w.currentEpoch

theorem abiding_of (abides : Abiding w) (stands : standing w' = standing w) : Abiding w' := by
  simp only [standing, Prod.mk.injEq] at stands
  obtain ⟨-, ⟨epochs, -, current, valid, timers⟩, -⟩ := stands
  refine ⟨?_, ?_, ?_⟩
  · rw [epochs, current]; exact abides.held
  · rw [valid, current]; exact abides.valid
  · rw [timers, current]; exact abides.timers

theorem abiding_installed (abides : Abiding w) (installed : Installed w epoch w') (floor : -1 ≤ w.currentEpoch) :
    Abiding w' := by
  obtain ⟨held, valid, timers⟩ := abides
  have current := installed.current
  refine ⟨fun _ => ?_, ?_, fun other pending => ?_⟩
  · rw [installed.epochs, current]
    split
    · exact .inl rfl
    · rename_i below
      by_cases same : epoch = w.currentEpoch
      · exact .inl same.symm
      · exact .inr (held (by omega))
  · rw [installed.valid, current]
    split <;> omega
  · rw [current]
    rcases installed.timers other pending with before | ⟨above, below⟩
    · have earlier := timers other before
      split <;> omega
    · rw [if_pos above]
      exact below

theorem abiding_wipeEpoch (abides : Abiding w) (due : w.wipeTimers.has epoch = true) :
    Abiding (w.wipeEpoch runtime.guard epoch) := by
  have below := abides.timers epoch due
  refine ⟨fun current => OrderedMap.has_delete.mpr ⟨ne_of_gt below, abides.held current⟩, ?_, fun other pending =>
    abides.timers other (OrderedMap.has_delete.mp pending).2⟩
  have valid := abides.valid
  simp only [Worker.wipeEpoch]
  split <;> omega

theorem abiding_teardown (w : Worker K G) : Abiding w.teardown where
  held never := absurd rfl never
  valid := by simp [Worker.teardown]
  timers _ never := by cases never

/-- A frame of the current epoch is live. -/
theorem live_current (abides : Abiding w) (floor : -1 ≤ w.currentEpoch) (current : w.currentEpoch ≠ -1)
    (same : flight.slot.epoch = w.currentEpoch) : Live w flight := by
  have valid := abides.valid
  refine ⟨same ▸ abides.held current, ?_⟩
  omega

/-! ## What a party hears -/

/-- How far a conversation has come: whether the worker is initialised, whether it has been
given an epoch since then, and the highest epoch of all. -/
structure Stage where
  opened : Bool
  keyed : Bool
  top : ℤ

/-- What can be said next, and what that leads to. Epochs only go up. -/
inductive Says (terms : Terms K) (settings : Settings) (index : ℤ → Option ℤ) : Stage → Posted K → Stage → Prop where
  | init {stage : Stage} (closed : stage.opened = false) (peerIndex : ℤ) :
      Says terms settings index stage (.message (.init (initMsg settings peerIndex)))
        { stage with opened := true, keyed := false }
  | streams {stage : Stage} (opened : stage.opened = true) (side : Side) :
      Says terms settings index stage (.message (.streams side none)) stage
  | rtctransform {stage : Stage} (opened : stage.opened = true) (side : Side) :
      Says terms settings index stage (.rtctransform side) stage
  | epoch {stage : Stage} {epoch peerIndex : ℤ} {keys : OrderedMap ℤ (RatchetKey K)} (opened : stage.opened = true)
      (above : stage.top < epoch) (seat : index epoch = some peerIndex) (laid : terms.keys epoch = .ok keys) :
      Says terms settings index stage (.message (.epoch epoch peerIndex (terms.bundles epoch)))
        { stage with keyed := true, top := epoch }
  | rotate {stage : Stage} {peerIndex : ℤ} {keys : OrderedMap ℤ (RatchetKey K)} (opened : stage.opened = true)
      (keyed : stage.keyed = true) (seat : index stage.top = some peerIndex) (laid : terms.keys stage.top = .ok keys) :
      Says terms settings index stage (.message (.rotate stage.top peerIndex (terms.bundles stage.top))) stage
  | teardown {stage : Stage} (opened : stage.opened = true) :
      Says terms settings index stage (.message .teardown) { stage with opened := false, keyed := false }

/-- The worker's side of a post. A native transform's event only sets up its pipe. -/
def hearing (runtime : Runtime K G) : Posted K → Task K G Unit
  | .message msg => handleMessage runtime msg
  | .rtctransform _ => pure ()

/-- A party's worker at a stage of the conversation. -/
structure Attending (runtime : Runtime K G) (terms : Terms K) (index : ℤ → Option ℤ) (stage : Stage) (heard : Set Slot)
    (waiting : List (Ref × Flight)) (w : Worker K G) : Prop where
  seated : Seated runtime terms heard waiting w
  voiced : Voiced index w
  layout : w.kidCodec = .fixed ∨ w.kidCodec = terms.kidCodec
  ready : stage.opened = true → w.kidCodec = terms.kidCodec
  current : w.currentEpoch = if stage.keyed then stage.top else -1
  floor : -1 ≤ stage.top
  quiet : stage.opened = false → stage.keyed = false
  asleep : ∀ entry ∈ waiting, ¬ Live w entry.2
  abides : Abiding w

variable {stage stage' : Stage} {settings : Settings}

/-- The settings describe the layout of key identifiers that they ask for. -/
def LaidOut (terms : Terms K) (settings : Settings) : Prop :=
  makeKidCodec (settings.kidFormat.getD .fixed) settings.mlsConfig = .ok terms.kidCodec

theorem attending_of (attends : Attending runtime terms index stage heard waiting w) (tuned : Tuned terms heard w')
    (stands : standing w' = standing w) (queue : w'.preEpochQueue = w.preEpochQueue) (frames : w'.frames = w.frames) :
    Attending runtime terms index stage heard waiting w' := by
  have fields := stands
  simp only [standing, Prod.mk.injEq] at fields
  obtain ⟨⟨-, -, layout, -⟩, ⟨-, -, current, -⟩, -, draining, pending⟩ := fields
  refine ⟨seated_of attends.seated tuned queue frames (Prod.ext draining pending),
    voiced_of attends.voiced stands, ?_, ?_, ?_,
    attends.floor, attends.quiet, fun entry member live =>
      attends.asleep entry member ((live_of_standing stands).mp live),
    abiding_of attends.abides stands⟩
  · rw [layout]; exact attends.layout
  · rw [layout]; exact attends.ready
  · rw [current]; exact attends.current

theorem attends_init (laidOut : LaidOut terms settings) (attends : Attending runtime terms index stage heard waiting w)
    (closed : stage.opened = false) (peerIndex : ℤ) {outcome : Except JsError Unit}
    (ran : alone (handleInit runtime (initMsg settings peerIndex)) w = some (outcome, w')) :
    Attending runtime terms index { stage with opened := true, keyed := false } heard waiting w' := by
  have current := attends.current
  rw [attends.quiet closed] at current
  let named : Worker K G := { w with
    role := some settings.role, peerId := some (initMsg settings peerIndex).peerId, selfPeerIndex := some peerIndex
    suite := settings.suite }
  -- the layout that the message asks for is the agreed one; a default is never changed
  have codecs : alone (initKidCodec (initMsg settings peerIndex)) named =
      some (.ok (), { named with kidCodec := terms.kidCodec }) := by
    unfold LaidOut at laidOut
    cases format : settings.kidFormat with
    | none =>
      rw [format] at laidOut
      have fixed : terms.kidCodec = .fixed := (Except.ok.inj laidOut).symm
      have same : named.kidCodec = terms.kidCodec := by
        rcases attends.layout with fresh | agreed
        · exact fresh.trans fixed.symm
        · exact agreed
      simp only [initKidCodec, initMsg, format, alone_pure, ← same]
    | some format' =>
      rw [format] at laidOut
      simp only [initKidCodec, initMsg, format, Option.getD_some] at laidOut ⊢
      simp only [laidOut, alone_bind, alone_settle, Option.bind_some, alone_update]
  obtain ⟨cap, capped⟩ : ∃ cap, alone (initQueueCap (initMsg settings peerIndex))
      { named with kidCodec := terms.kidCodec } =
        some (.ok (), { named with kidCodec := terms.kidCodec, preEpochQueueCap := cap }) := by
    unfold initQueueCap
    split
    · exact ⟨_, rfl⟩
    · split <;> exact ⟨_, rfl⟩
  have whole : w' = ({ named with
      kidCodec := terms.kidCodec, preEpochQueueCap := cap, durableReplay := none } : Worker K G).emit .ready := by
    have unguarded : alone (initDurable runtime (initMsg settings peerIndex))
        { named with kidCodec := terms.kidCodec, preEpochQueueCap := cap } =
        some (.ok (), { named with kidCodec := terms.kidCodec, preEpochQueueCap := cap, durableReplay := none }) := rfl
    have ran' : alone (handleInit runtime (initMsg settings peerIndex)) w = some (.ok (), ({ named with
        kidCodec := terms.kidCodec, preEpochQueueCap := cap, durableReplay := none } : Worker K G).emit .ready) := by
      simp only [handleInit, alone_bind, alone_update, Option.bind_some]
      change (alone (initKidCodec (initMsg settings peerIndex)) named).bind _ = _
      simp only [codecs, Option.bind_some, capped, unguarded]
    rw [ran'] at ran
    cases ran
    rfl
  subst whole
  have tuned : Tuned terms heard (({ named with
      kidCodec := terms.kidCodec, preEpochQueueCap := cap, durableReplay := none } : Worker K G).emit .ready) :=
    { attends.seated.tuned with
      unguarded := rfl, layout := fun _ _ => rfl, formats := attends.seated.tuned.formats
      windows := attends.seated.tuned.windows, installed := attends.seated.tuned.installed
      registered := registered_of attends.seated.tuned.registered rfl }
  exact ⟨seated_of attends.seated tuned rfl rfl rfl, attends.voiced, .inr rfl, fun _ => rfl, current, attends.floor,
    fun never => (by cases never), attends.asleep,
    ⟨attends.abides.held, attends.abides.valid, attends.abides.timers⟩⟩

/-- A slot that a party at this stage has sealed under. -/
def Issued (stage : Stage) (w : Worker K G) (slot : Slot) : Prop :=
  slot.epoch < stage.top ∨ slot.epoch = stage.top ∧ (stage.keyed = true → slot.ctr < w.ctr)

/-- What hearing something leaves: an epoch that is said is installed, and what waited for it is opened. -/
structure Hears (runtime : Runtime K G) (terms : Terms K) (index : ℤ → Option ℤ) (stage stage' : Stage)
    (heard : Set Slot)
    (waiting : List (Ref × Flight)) (w w' : Worker K G) : Prop where
  attends : ∃ heard' rest, Attending runtime terms index stage' heard' rest w' ∧ Settled heard waiting heard' rest
  opened : ∀ entry ∈ waiting, Live w' entry.2 →
    w'.frames.read entry.1 = { entry.2.frame with data := entry.2.plain }
  issued : ∀ slot, Issued stage w slot → Issued stage' w' slot

theorem hears_of (attends : Attending runtime terms index stage' heard waiting w')
    (issued : ∀ slot, Issued stage w slot → Issued stage' w' slot) :
    Hears runtime terms index stage stage' heard waiting w w' where
  attends := ⟨heard, waiting, attends, settled_refl heard waiting⟩
  opened entry member live := absurd live (attends.asleep entry member)
  issued := issued

theorem attends_epoch (correct : runtime.crypto.Correct) (attends : Attending runtime terms index stage heard waiting w)
    (opened : stage.opened = true) {peerIndex : ℤ} (seat : index epoch = some peerIndex)
    {keys : OrderedMap ℤ (RatchetKey K)} (laid : terms.keys epoch = .ok keys)
    (reaches : stage.top < epoch ∨ stage.keyed = true ∧ epoch = stage.top) {outcome : Except JsError Unit}
    (ran : alone (handleEpoch runtime epoch peerIndex (terms.bundles epoch)) w = some (outcome, w')) :
    Hears runtime terms index stage { stage with keyed := true, top := epoch } heard waiting w w' := by
  have layout := attends.ready opened
  have below : w.currentEpoch ≤ epoch ∧ (w.currentEpoch = epoch → stage.keyed = true ∧ epoch = stage.top) := by
    have current := attends.current
    have floor := attends.floor
    split at current
    · rename_i keyed
      rcases reaches with above | ⟨-, same⟩
      · exact ⟨by omega, fun equal => ⟨keyed, by omega⟩⟩
      · exact ⟨by omega, fun _ => ⟨keyed, same⟩⟩
    · rename_i keyless
      rcases reaches with above | ⟨keyed, -⟩
      · exact ⟨by omega, fun equal => by omega⟩
      · exact absurd keyed keyless
  cases installs : w.installEpoch epoch peerIndex (terms.bundles epoch) with
  | error refused =>
    have made : Worker.installKeys w.kidCodec epoch (terms.bundles epoch).entries ∅ = .ok keys := by
      rw [layout]; exact laid
    unfold Worker.installEpoch at installs
    simp only [made, bind, Except.bind] at installs
    split at installs <;> cases installs
  | ok v =>
    obtain ⟨tuned, voiced, installed⟩ := tuned_installEpoch attends.seated.tuned attends.voiced layout seat installs
    simp only [handleEpoch, alone_bind, alone_read, Option.bind_some, installs, alone_settle, alone_update] at ran
    have seated := seated_of attends.seated tuned installed.queue installed.frames installed.idle
    obtain ⟨heard', rest, seated', settled, stands, asleep, drains⟩ := drainPreEpochQueue_seated correct seated ran
    have fields := stands
    simp only [standing, Prod.mk.injEq] at fields
    obtain ⟨⟨-, -, layout', -⟩, ⟨-, -, current', -⟩, ctr', -⟩ := fields
    have current : v.currentEpoch = epoch := by
      rw [installed.current]
      split
      · rfl
      · omega
    have codecs : w'.kidCodec = terms.kidCodec := layout'.trans (installed.layout.trans layout)
    have floor : -1 ≤ w.currentEpoch := by
      have current := attends.current
      have floor := attends.floor
      split at current <;> omega
    refine ⟨⟨heard', rest, ⟨seated', voiced_of voiced stands, .inr codecs, fun _ => codecs,
      current'.trans current, ?_, ?_,
      asleep, abiding_of (abiding_installed attends.abides installed floor) stands⟩, settled⟩, fun entry member live =>
        drains entry member ((live_of_standing stands).mp live), ?_⟩
    · have floor := attends.floor
      rcases reaches with above | ⟨-, rfl⟩
      · dsimp only; omega
      · exact floor
    · intro closed
      rw [opened] at closed
      cases closed
    · intro slot issued
      rcases reaches with above | ⟨keyed, rfl⟩
      · rcases issued with earlier | ⟨same, -⟩
        · exact .inl (lt_trans earlier above)
        · exact .inl (lt_of_eq_of_lt same above)
      · refine issued.imp_right fun latest => ⟨latest.1, fun _ => ?_⟩
        have now := attends.current
        rw [if_pos keyed] at now
        rw [ctr', installed.ctr, if_neg (by omega)]
        exact latest.2 keyed

/-- **What is said is attended to.** -/
theorem hears_said (correct : runtime.crypto.Correct) (laidOut : LaidOut terms settings)
    (attends : Attending runtime terms index stage heard waiting w) {posted : Posted K}
    (said : Says terms settings index stage posted stage') {outcome : Except JsError Unit}
    (ran : alone (hearing runtime posted) w = some (outcome, w')) :
    Hears runtime terms index stage stage' heard waiting w w' := by
  cases said with
  | init closed peerIndex =>
    have ran : alone (handleInit runtime (initMsg settings peerIndex)) w = some (outcome, w') := ran
    exact hears_of (attends_init laidOut attends closed peerIndex ran) fun slot issued => issued.imp_right fun latest =>
      ⟨latest.1, fun never => by cases never⟩
  | streams opened side =>
    simp only [hearing, handleMessage, alone_update, Option.some.injEq, Prod.mk.injEq] at ran
    obtain ⟨-, rfl⟩ := ran
    exact hears_of (attending_of attends (tuned_of attends.seated.tuned rfl rfl rfl) rfl rfl rfl) fun _ issued => issued
  | rtctransform opened side =>
    simp only [hearing, alone_pure, Option.some.injEq, Prod.mk.injEq] at ran
    obtain ⟨-, rfl⟩ := ran
    exact hears_of attends fun _ issued => issued
  | epoch opened above seat laid => exact attends_epoch correct attends opened seat laid (.inl above) ran
  | rotate opened keyed seat laid =>
    have heard := attends_epoch correct attends opened seat laid (.inr ⟨keyed, rfl⟩) ran
    have same : { stage with keyed := true } = stage := by
      cases stage; simp_all
    rw [same] at heard
    exact heard
  | teardown opened =>
    simp only [hearing, handleMessage, alone_update, Option.some.injEq, Prod.mk.injEq] at ran
    obtain ⟨-, rfl⟩ := ran
    obtain ⟨tuned, voiced⟩ := @tuned_teardown _ _ _ _ _ index attends.seated.tuned
    have silent (entry : Ref × Flight) : entry ∉ ([] : List (Ref × Flight)) := List.not_mem_nil
    refine ⟨⟨heard, [], ⟨⟨tuned, ⟨?_, ?_, ?_, .nil⟩, rfl, ?_, attends.seated.idle⟩, voiced, attends.layout, ?_, rfl,
      attends.floor,
      fun _ => rfl, ?_, abiding_teardown w⟩, List.nil_sublist _, fun _ => .inl⟩, fun entry _ live => ?_, ?_⟩
    all_goals try exact fun entry member => absurd member (silent entry)
    · intro never; cases never
    · cases live.1
    · exact fun slot issued => issued.imp_right fun latest => ⟨latest.1, fun never => by cases never⟩

/-- A timer takes keys and windows away, and nothing that waits. -/
theorem attends_wipeTimer (attends : Attending runtime terms index stage heard waiting w) (epoch : ℤ)
    {outcome : Except JsError Unit} (ran : alone (fireWipeTimer runtime epoch) w = some (outcome, w')) :
    Attending runtime terms index stage heard waiting w' ∧ w'.ctr = w.ctr := by
  simp only [fireWipeTimer, alone_bind, alone_read, Option.bind_some] at ran
  split at ran
  · rename_i due
    simp only [alone_update, Option.some.injEq, Prod.mk.injEq] at ran
    obtain ⟨-, rfl⟩ := ran
    obtain ⟨tuned, voiced⟩ := @tuned_wipeEpoch _ _ runtime _ _ _ _ attends.seated.tuned attends.voiced epoch
    refine ⟨⟨seated_of attends.seated tuned rfl rfl rfl, voiced, attends.layout, attends.ready, attends.current,
      attends.floor,
      attends.quiet, fun entry member live =>
        attends.asleep entry member ⟨?_, ?_⟩, abiding_wipeEpoch attends.abides due⟩, rfl⟩
    · exact (OrderedMap.has_delete.mp live.1).2
    · refine le_trans ?_ live.2
      simp only [Worker.wipeEpoch]
      split <;> omega
  · simp only [alone_pure, Option.some.injEq, Prod.mk.injEq] at ran
    obtain ⟨-, rfl⟩ := ran
    exact ⟨attends, rfl⟩

/-! ## Frames -/

theorem seated_receiveFrame (seated : Seated runtime terms heard waiting w) (frame : EncodedFrame) :
    Seated runtime terms heard waiting (receiveFrame frame w) := by
  refine ⟨tuned_of seated.tuned rfl rfl rfl, ⟨fun entry member => ?_, seated.waits.sealed, seated.waits.fresh,
    seated.waits.ordered⟩, seated.queue, fun entry member => ?_, seated.idle⟩
  · simp only [receiveFrame, Heap.read_alloc, if_neg (Nat.ne_of_lt (seated.made entry member))]
    exact seated.waits.holds entry member
  · exact Nat.lt_succ_of_lt (seated.made entry member)

/-- What a frame at the decoder leaves: unless it was live, it waits, or is gone. -/
theorem seated_decoded (seated : Seated runtime terms heard waiting w) (asleep : ∀ entry ∈ waiting, ¬ Live w entry.2)
    (sealed : Sealed runtime terms flight) (fresh : Fresh heard flight)
    (after : ∀ entry ∈ waiting, Precedes entry.2 flight)
    (above : ∀ entry ∈ waiting, entry.1 < ref) (made : ref < w.frames.next) (holds : w.frames.read ref = flight.frame)
    {outcome : Except JsError Path} (fate : Fate terms heard w ref flight outcome w') :
    ∃ heard' rest, Seated runtime terms heard' rest w' ∧ Settled heard (waiting ++ [(ref, flight)]) heard' rest ∧
      ∀ entry ∈ rest, ¬ Live w entry.2 := by
  by_cases live : Live w flight
  · obtain ⟨-, tuned, stands, queue, frames⟩ := fate_live fate live
    simp only [standing, Prod.mk.injEq] at stands
    refine ⟨_, waiting, ⟨tuned, ⟨fun entry member => ?_, seated.waits.sealed, fun entry member => ?_,
      seated.waits.ordered⟩,
      queue.trans seated.queue, ?_, ?_⟩, ⟨List.sublist_append_left _ _, ?_⟩, asleep⟩
    · rw [frames, Heap.read_write, if_neg (Nat.ne_of_lt (above entry member))]
      exact seated.waits.holds entry member
    · -- what waits is of another epoch than a live frame
      intro ctr again
      rcases again with same | old
      · refine absurd ?_ (asleep entry member)
        have epoch : entry.2.slot.epoch = flight.slot.epoch := by rw [← same]
        unfold Live at live ⊢
        rw [epoch]
        exact live
      · exact seated.waits.fresh entry member ctr old
    · rw [frames]; exact seated.made
    · rw [stands.2.2.2.1, stands.2.2.2.2]; exact seated.idle
    · rintro slot (rfl | old)
      · exact .inr ⟨_, List.mem_append_right _ (List.mem_singleton_self _), rfl⟩
      · exact .inl old
  · obtain ⟨tuned, stands, queue, frames⟩ := fate_dead fate live
    simp only [standing, Prod.mk.injEq] at stands
    have joined : w'.preEpochQueue.Sublist ((waiting ++ [(ref, flight)]).map Prod.fst) := by
      simpa [seated.queue] using queue
    obtain ⟨rest, sublist, queue⟩ := List.sublist_map_iff.mp joined
    have among (entry : Ref × Flight) (member : entry ∈ rest) : entry ∈ waiting ∨ entry = (ref, flight) := by
      simpa using sublist.subset member
    refine ⟨heard, rest, ⟨tuned, ⟨fun entry member => ?_, fun entry member => ?_, fun entry member => ?_, ?_⟩, queue,
      fun entry member => ?_, ?_⟩, ⟨sublist, fun _ => .inl⟩, fun entry member => ?_⟩
    · rw [frames]
      rcases among entry member with old | rfl
      · exact seated.waits.holds entry old
      · exact holds
    · rcases among entry member with old | rfl
      · exact seated.waits.sealed entry old
      · exact sealed
    · rcases among entry member with old | rfl
      · exact seated.waits.fresh entry old
      · exact fresh
    · apply List.Pairwise.sublist sublist
      refine List.pairwise_append.mpr ⟨seated.waits.ordered, List.pairwise_singleton _ _,
        fun entry member last own => ?_⟩
      rw [List.mem_singleton.mp own]
      exact ⟨above entry member, after entry member⟩
    · rw [frames]
      rcases among entry member with old | rfl
      · exact seated.made entry old
      · exact made
    · rw [stands.2.2.2.1, stands.2.2.2.2]; exact seated.idle
    · rcases among entry member with old | rfl
      · exact asleep entry old
      · exact live

/-- **A frame comes.** -/
theorem attends_decodes (correct : runtime.crypto.Correct)
    (attends : Attending runtime terms index stage heard waiting w)
    (sealed : Sealed runtime terms flight) (fresh : Fresh heard flight)
    (after : ∀ entry ∈ waiting, Precedes entry.2 flight) :
    ∃ outcome w', alone (receive flight.frame >>= decodeFrame runtime) w = some (outcome, w') ∧
      (∃ heard' rest, Attending runtime terms index stage heard' rest w' ∧
        Settled heard (waiting ++ [(w.frames.next, flight)]) heard' rest) ∧ w'.ctr = w.ctr ∧
      (Live w flight → outcome = .ok (.opened ⟨0, .header⟩ flight.plain) ∧
        w'.frames.read w.frames.next = { flight.frame with data := flight.plain }) ∧
      (¬ Live w flight → (outcome = .ok .parked ∨ ∃ refused, outcome = .error refused) ∧
        w'.frames.read w.frames.next = flight.frame) := by
  have seated := seated_receiveFrame attends.seated flight.frame
  have holds : (receiveFrame flight.frame w).frames.read w.frames.next = flight.frame := by simp [receiveFrame]
  have made : w.frames.next < (receiveFrame flight.frame w).frames.next := Nat.lt_succ_self _
  obtain ⟨outcome, w', decodes, fate⟩ := decodeFrame_fate correct seated.tuned sealed fresh holds
  refine ⟨outcome, w', ?_, ?_, ?_, fun live => ?_, fun dead => ?_⟩
  · simp only [receive, alone_bind, alone_read, Option.bind_some, alone_update, alone_pure]
    exact decodes
  · obtain ⟨heard', rest, seated', settled, asleep⟩ := seated_decoded seated attends.asleep sealed fresh after
      attends.seated.made made holds fate
    have stands : standing w' = standing w := by
      by_cases live : Live (receiveFrame flight.frame w) flight
      · exact (fate_live fate live).2.2.1
      · exact (fate_dead fate live).2.1
    have fields := stands
    simp only [standing, Prod.mk.injEq] at fields
    obtain ⟨⟨-, -, layout, -⟩, ⟨-, -, current, -⟩, -⟩ := fields
    refine ⟨heard', rest, ⟨seated', voiced_of attends.voiced stands, ?_, ?_, current.trans attends.current,
      attends.floor,
      attends.quiet, fun entry member live => asleep entry member ((live_of_standing stands).mp live),
      abiding_of attends.abides stands⟩, settled⟩
    · rw [layout]; exact attends.layout
    · rw [layout]; exact attends.ready
  · by_cases live : Live (receiveFrame flight.frame w) flight
    · have stands := (fate_live fate live).2.2.1
      simp only [standing, Prod.mk.injEq] at stands
      exact stands.2.2.1
    · have stands := (fate_dead fate live).2.1
      simp only [standing, Prod.mk.injEq] at stands
      exact stands.2.2.1
  · obtain ⟨opens, -, -, -, frames⟩ := fate_live fate live
    refine ⟨opens, ?_⟩
    rw [frames, Heap.read_write, if_pos rfl, holds]
  · have dead : ¬ Live (receiveFrame flight.frame w) flight := dead
    cases fate with
    | opened live => exact absurd live dead
    | parked _ _ _ _ _ frames =>
      refine ⟨.inl rfl, ?_⟩
      rw [frames, holds]
    | refused _ _ _ _ frames =>
      refine ⟨.inr ⟨_, rfl⟩, ?_⟩
      rw [frames, holds]

/-- Encoding changes the frame, the counter and nothing else that is kept. -/
def besideEncoding (w : Worker K G) := kept { w with ctr := 0, frames := default }

theorem kept_beside (same : kept w' = kept w) : besideEncoding w' = besideEncoding w := by
  simp only [besideEncoding, kept, standing, Prod.mk.injEq] at same ⊢
  exact ⟨⟨same.1.1, same.1.2.1, trivial, same.1.2.2.2⟩, same.2.1, same.2.2.1, same.2.2.2.1, trivial⟩

theorem tuned_beside (tuned : Tuned terms heard w) (same : besideEncoding w' = besideEncoding w) :
    Tuned terms heard w' := by
  have without {v : Worker K G} (tuned : Tuned terms heard v) :
      Tuned terms heard { v with ctr := 0, frames := default } :=
    ⟨tuned.codec, tuned.trailer, tuned.tolerant, tuned.unguarded, tuned.layout, tuned.formats, tuned.windows,
      tuned.installed,
      registered_of tuned.registered rfl⟩
  have again := tuned_kept (without tuned) same
  exact ⟨again.codec, again.trailer, again.tolerant, again.unguarded, again.layout, again.formats, again.windows,
    again.installed, registered_of again.registered rfl⟩

/-- The worker after a frame has been given its bytes on the wire. -/
def sentAs (w : Worker K G) (ref : Ref) (wire : Bytes) (event : MetricsEvent) : Worker K G :=
  (({ w with frames := w.frames.write ref { w.frames.read ref with data := wire } } : Worker K G).emitMetric
    event).clearEncryptStarve

theorem kept_sentAs (w : Worker K G) (ref : Ref) (wire : Bytes) (event : MetricsEvent) :
    kept (sentAs w ref wire event) =
      kept { w with frames := w.frames.write ref { w.frames.read ref with data := wire } } := by
  have same : (sentAs w ref wire event).unalarmed =
      { w with frames := w.frames.write ref { w.frames.read ref with data := wire } }.unalarmed :=
    (Worker.unalarmed_clearEncryptStarve _).trans
    (Worker.unalarmed_of_unsignalled (Worker.unsignalled_emitMetric _ event))
  exact congr_erased kept same fun _ => rfl

/-- What a frame looks like that has been encoded. -/
theorem alone_encodeFrame (correct : runtime.crypto.Correct) (codec : w.codec = none) (trailer : w.sifTrailer = none)
    (ref : Ref) (kind : Option FrameKind) {outcome : Except JsError Unit}
    (ran : alone (encodeFrame runtime ref kind) w = some (outcome, w')) :
    besideEncoding w' = besideEncoding w ∧ w.ctr ≤ w'.ctr ∧ w'.frames.next = w.frames.next ∧
      (∀ other, other ≠ ref → w'.frames.read other = w.frames.read other) ∧
      (outcome = .ok () → w'.ctr = w.ctr + 1 ∧ w.ctr < 2 ^ 64 ∧ (w'.frames.read ref).type = (w.frames.read ref).type ∧
        ∃ entry full, w.epochs.get? w.currentEpoch = some entry ∧
          (w.entries.read entry).keys.get? (w.entries.read entry).selfPeerIndex = some full ∧
          OnWire runtime full.toSFrameKey w.ctr 0 (w.frames.read ref).data [] (w'.frames.read ref).data) := by
  simp only [encodeFrame, alone_bind, alone_read, Option.bind_some] at ran
  cases installed : w.epochs.get? w.currentEpoch with
  | none =>
    simp only [installed, alone_throw, Option.some.injEq, Prod.mk.injEq] at ran
    obtain ⟨rfl, rfl⟩ := ran
    exact ⟨rfl, le_refl _, rfl, fun _ _ => rfl, fun never => by cases never⟩
  | some entry =>
    cases held : (w.entries.read entry).keys.get? (w.entries.read entry).selfPeerIndex with
    | none =>
      simp only [installed, held, alone_throw, Option.some.injEq, Prod.mk.injEq] at ran
      obtain ⟨rfl, rfl⟩ := ran
      exact ⟨rfl, le_refl _, rfl, fun _ _ => rfl, fun never => by cases never⟩
    | some full =>
      simp only [installed, held, alone_bind, alone_update, Option.bind_some, alone_settle] at ran
      cases written : serializeHeader full.kid w.ctr with
      | error refused =>
        simp only [written, Option.some.injEq, Prod.mk.injEq] at ran
        obtain ⟨rfl, rfl⟩ := ran
        exact ⟨rfl, Nat.le_succ _, rfl, fun _ _ => rfl, fun never => by cases never⟩
      | ok header =>
        have tagged : FastPath.Tagged runtime.crypto := fun _ _ _ _ _ made => correct.tagged made
        -- the note of the encryption and the count of the counter, before the encryption itself
        obtain ⟨v, noted, beside, frames, ctr⟩ :
          ∃ v, noteSealing { w with ctr := w.ctr + 1 } full.toSFrameKey w.ctr = v ∧
            besideEncoding v = besideEncoding w ∧ v.frames = w.frames ∧ v.ctr = w.ctr + 1 := by
          unfold noteSealing
          split <;> exact ⟨_, rfl, rfl, rfl, rfl⟩
        simp only [written, noted, alone_pause, Option.bind_some] at ran
        simp only [codec, trailer, getUnencryptedBytes, Nat.zero_min] at ran
        cases wired : wireFrame runtime (w.frames.read ref).data header 0 full.toSFrameKey w.ctr none with
        | error refused =>
          simp only [wired, Option.some.injEq, Prod.mk.injEq] at ran
          obtain ⟨rfl, rfl⟩ := ran
          exact ⟨beside, ctr ▸ Nat.le_succ _, congrArg Heap.next frames, fun _ _ => congrArg (Heap.read · _) frames,
            fun never => by cases never⟩
        | ok wire =>
          simp only [wired, Option.some.injEq, Prod.mk.injEq] at ran
          obtain ⟨rfl, after⟩ := ran
          have after : w' = sentAs v ref wire (.encrypt full.epoch full.peerIndex
            (w.frames.read ref).data.length v.codec) :=
            after.symm
          have same := kept_sentAs v ref wire (.encrypt full.epoch full.peerIndex
            (w.frames.read ref).data.length v.codec)
          rw [← after] at same
          have left := kept_beside same
          simp only [kept, standing, Prod.mk.injEq] at same
          obtain ⟨⟨-, -, ctr', -⟩, -, -, -, frames'⟩ := same
          rw [frames] at frames'
          have sealing := FastPath.wireFrame_eq tagged (Nat.zero_le (w.frames.read ref).data.length) written none
          rw [wired] at sealing
          refine ⟨left.trans beside, ?_, by rw [frames', Heap.next_write], fun other apart => ?_,
            fun _ => ⟨ctr'.trans ctr, ?_, ?_, entry, full, rfl, held, ?_⟩⟩
          · rw [ctr', ctr]; exact Nat.le_succ _
          · rw [frames', Heap.read_write, if_neg apart]
          · have range := (serializeHeader_ok written).2.1
            omega
          · rw [frames', Heap.read_write, if_pos rfl]
          · rw [frames', Heap.read_write, if_pos rfl]
            cases sealed : sframeEncrypt runtime.crypto ((w.frames.read ref).data.drop 0) full.toSFrameKey w.ctr none
                .header with
            | error refused => rw [sealed] at sealing; cases sealing
            | ok buf =>
              rw [sealed] at sealing
              obtain ⟨header', iv, ct, written', derived, encrypted, rfl⟩ := sframeEncrypt_ok.mp sealed
              exact ⟨header', iv, ct, written', derived, encrypted, Except.ok.inj sealing⟩

/-- What the next frame is sealed under. -/
def nextSlot (w : Worker K G) : Slot where
  epoch := w.currentEpoch
  peerIndex := ((w.epochs.get? w.currentEpoch).map fun entry => (w.entries.read entry).selfPeerIndex).getD 0
  ctr := w.ctr

/-- **A frame goes out.** What is put on the wire is sealed under the next slot. -/
theorem attends_encodes (correct : runtime.crypto.Correct)
    (attends : Attending runtime terms index stage heard waiting w)
    (frame : EncodedFrame) {outcome : Except JsError Unit}
    (ran : alone (receive frame >>= fun ref => encodeFrame runtime ref frame.kind) w = some (outcome, w')) :
    Attending runtime terms index stage heard waiting w' ∧ w.ctr ≤ w'.ctr ∧
      (outcome = .ok () → stage.keyed = true ∧ w'.ctr = w.ctr + 1 ∧ (nextSlot w).epoch = stage.top ∧
        index stage.top = some (nextSlot w).peerIndex ∧
        Sealed runtime terms ⟨nextSlot w, frame.data, w'.frames.read w.frames.next⟩) := by
  simp only [receive, alone_bind, alone_read, Option.bind_some, alone_update, alone_pure] at ran
  have seated := seated_receiveFrame attends.seated frame
  have holds : (receiveFrame frame w).frames.read w.frames.next = frame := by simp [receiveFrame]
  obtain ⟨same, more, next, others, success⟩ := alone_encodeFrame correct seated.tuned.codec seated.tuned.trailer
    w.frames.next frame.kind ran
  have tuned := tuned_beside seated.tuned same
  simp only [besideEncoding, kept, standing, Prod.mk.injEq] at same
  obtain ⟨⟨⟨-, -, layout, -⟩, ⟨epochs, entries, current, valid, timers⟩, -, draining, pending⟩, -, -, queue, -⟩ := same
  have attends' : Attending runtime terms index stage heard waiting w' := by
    refine ⟨⟨tuned, ⟨fun entry member => ?_, seated.waits.sealed, seated.waits.fresh, seated.waits.ordered⟩,
      queue.trans seated.queue, fun entry member => ?_, ?_⟩, ?_, ?_, ?_, current.trans attends.current, attends.floor,
      attends.quiet, fun entry member live => attends.asleep entry member ?_, ⟨?_, ?_, ?_⟩⟩
    · rw [others entry.1 (Nat.ne_of_lt (attends.seated.made entry member))]
      exact seated.waits.holds entry member
    · rw [next]; exact seated.made entry member
    · rw [draining, pending]; exact seated.idle
    · unfold Voiced
      rw [epochs, entries]
      exact attends.voiced
    · rw [layout]; exact attends.layout
    · rw [layout]; exact attends.ready
    · unfold Live at live ⊢
      rw [epochs, valid] at live
      exact live
    · rw [epochs, current]; exact attends.abides.held
    · rw [valid, current]; exact attends.abides.valid
    · rw [timers, current]; exact attends.abides.timers
  refine ⟨attends', more, fun sent => ?_⟩
  obtain ⟨counted, fits, type, entry, full, installed, held, onWire⟩ := success sent
  -- the key is the one agreed on for the current epoch, so that epoch is the latest said
  have installed : w.epochs.get? w.currentEpoch = some entry := installed
  have peer : (nextSlot w).peerIndex = (w.entries.read entry).selfPeerIndex := by simp [nextSlot, installed]
  have agreed : terms.key w.currentEpoch (nextSlot w).peerIndex = some full := by
    rw [Terms.key, attends.seated.tuned.installed w.currentEpoch entry installed, peer]
    exact held
  have keyed : stage.keyed = true := by
    by_contra keyless
    have current := attends.current
    rw [if_neg keyless] at current
    have nonnegative := decode_epoch_nonneg terms.kidCodec full.kid
    rw [(decode_encode (key_named agreed).1).1] at nonnegative
    omega
  have now := attends.current
  rw [if_pos keyed] at now
  rw [holds] at onWire
  refine ⟨keyed, counted, now, ?_, full, agreed, fits, onWire⟩
  rw [← now, peer]
  exact attends.voiced w.currentEpoch entry installed

end SFrameRatchet.Party
