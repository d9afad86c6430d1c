import SFrameRatchet.EpochTable
import SFrameRatchet.Notes
import SFrameRatchet.Recency
import SFrameRatchet.Specimen

/-! Media frames and replays. A frame is checked against the window of its sender
before the durable guard and the ratchet are waited for, and accepted afterwards.
As long as no other frame passes the check with the same counter in between, a
window holds the last counters that were accepted, and a counter is delivered once. -/
namespace SFrameRatchet.MediaDelivery
open Collections Crypto Kid Header SFrame CodecPartial Replay Recency Throwing Coroutine Interleaving Media EpochTable
  FrameWalk Notes
open SlidingReplayWindow (check_iff accept_queue evicted_concat mem_accept)

variable {K G : Type} {runtime : Runtime K G}

/-- Every window has the worker's size, and remembers counters that a header can
carry. -/
def WellSized (w : Worker K G) : Prop := ∀ epoch peerIndex object, w.windowOf epoch peerIndex = some object →
  object.window.windowSize = w.replayWindowSize ∧ ∀ ctr ∈ object.window.queue, ctr < 2 ^ 64

/-- What the window of a sender remembers. -/
def remembered (w : Worker K G) (epoch peerIndex : ℤ) : List ℕ :=
  ((w.windowOf epoch peerIndex).map fun object => object.window.queue).getD []

def IsFrom (epoch peerIndex : ℤ) (acceptance : Slot × Ref) : Prop :=
  acceptance.1.epoch = epoch ∧ acceptance.1.peerIndex = peerIndex

instance (epoch peerIndex : ℤ) (acceptance : Slot × Ref) : Decidable (IsFrom epoch peerIndex acceptance) :=
  inferInstanceAs (Decidable (_ ∧ _))

/-- The counters of a sender: those that its window remembered at first, and those
accepted since. -/
def received (base w : Worker K G) (epoch peerIndex : ℤ) : List ℕ :=
  remembered base epoch peerIndex ++ ((acceptedSince base w).filter (IsFrom epoch peerIndex)).map (·.1.ctr)

/-- The part of a worker that replays are told by. -/
def replayPart (w : Worker K G) := (w.replayWindows, w.replayWindowSize, w.checked, w.accepted, w.delivered)

/-! ## Windows -/

/-- A counter that has passed the check of a window is not in it. -/
def Approaching (base w : Worker K G) (epoch peerIndex : ℤ) (flight : Slot × ℕ) : Prop :=
  flight.1.epoch = epoch → flight.1.peerIndex = peerIndex →
    flight.1.ctr < 2 ^ 64 ∧ (∃ object, w.windowOf epoch peerIndex = some object ∧ object.id = flight.2) ∧
      flight.1.ctr ∉ (received base w epoch peerIndex).rtake base.replayWindowSize

/-- The window of a sender holds the last counters of it, and no two of the counters
that have passed its check are the same. -/
structure Tracked (base : Worker K G) (epoch peerIndex : ℤ) (w : Worker K G) (flight : Option (Slot × ℕ))
    (beside : Slot × ℕ → Prop) : Prop where
  size : w.replayWindowSize = base.replayWindowSize
  grown : base.accepted <+: w.accepted
  held : ∀ object, w.windowOf epoch peerIndex = some object → object.window.windowSize = base.replayWindowSize ∧
    object.window.queue = (received base w epoch peerIndex).rtake base.replayWindowSize
  missing : w.windowOf epoch peerIndex = none → received base w epoch peerIndex = []
  carried : ∀ ctr ∈ received base w epoch peerIndex, ctr < 2 ^ 64
  spaced : Spaced base.replayWindowSize (received base w epoch peerIndex)
  own : ∀ way, flight = some way → Approaching base w epoch peerIndex way
  others : ∀ way, beside way → Approaching base w epoch peerIndex way
  apart : ∀ way other, flight = some way → beside other → other.1 ≠ way.1

section Windows
variable {base w w' : Worker K G} {epoch peerIndex : ℤ} {flight : Option (Slot × ℕ)} {beside : Slot × ℕ → Prop}

theorem windowOf_of (same : replayPart w' = replayPart w) (epoch peerIndex : ℤ) :
    w'.windowOf epoch peerIndex = w.windowOf epoch peerIndex := by
  have windows : w'.replayWindows = w.replayWindows := congrArg (·.1) same
  rw [Worker.windowOf, windows, Worker.windowOf]

theorem received_of (same : replayPart w' = replayPart w) (epoch peerIndex : ℤ) :
    received base w' epoch peerIndex = received base w epoch peerIndex := by
  have accepted : w'.accepted = w.accepted := congrArg (·.2.2.2.1) same
  rw [received, acceptedSince, accepted, received, acceptedSince]

theorem approaching_of {way : Slot × ℕ} (windows : w'.windowOf epoch peerIndex = w.windowOf epoch peerIndex)
    (accepted : received base w' epoch peerIndex = received base w epoch peerIndex)
    (approaching : Approaching base w epoch peerIndex way) : Approaching base w' epoch peerIndex way := by
  unfold Approaching
  rw [windows, accepted]
  exact approaching

theorem tracked_of (tracked : Tracked base epoch peerIndex w flight beside)
    (windows : w'.windowOf epoch peerIndex = w.windowOf epoch peerIndex)
    (size : w'.replayWindowSize = w.replayWindowSize)
    (accepted : w'.accepted = w.accepted) : Tracked base epoch peerIndex w' flight beside := by
  have listed : received base w' epoch peerIndex = received base w epoch peerIndex := by
    rw [received, acceptedSince, accepted, received, acceptedSince]
  constructor
  · exact size.trans tracked.size
  · rw [accepted]
    exact tracked.grown
  · rw [windows, listed]
    exact tracked.held
  · rw [windows, listed]
    exact tracked.missing
  · rw [listed]
    exact tracked.carried
  · rw [listed]
    exact tracked.spaced
  · exact fun flight same => approaching_of windows listed (tracked.own flight same)
  · exact fun flight other => approaching_of windows listed (tracked.others flight other)
  · exact tracked.apart

theorem tracked_part (tracked : Tracked base epoch peerIndex w flight beside) (same : replayPart w' = replayPart w) :
    Tracked base epoch peerIndex w' flight beside :=
  tracked_of tracked (windowOf_of same _ _) (congrArg (·.2.1) same) (congrArg (·.2.2.2.1) same)

/-- A counter that is not accepted after all is out of the way. -/
theorem tracked_drop (tracked : Tracked base epoch peerIndex w flight beside) :
    Tracked base epoch peerIndex w none beside :=
  { tracked with own := nofun, apart := nofun }

/-- What a window remembers at first is the beginning of the record. -/
theorem tracked_base (sized : WellSized base) : Tracked base epoch peerIndex base none fun _ => False := by
  have nothing : received base base epoch peerIndex = remembered base epoch peerIndex := by
    simp [received, acceptedSince]
  have within : (remembered base epoch peerIndex).length ≤ base.replayWindowSize ∧
      (remembered base epoch peerIndex).Nodup ∧ ∀ ctr ∈ remembered base epoch peerIndex, ctr < 2 ^ 64 := by
    unfold remembered
    cases there : base.windowOf epoch peerIndex with
    | none => simp
    | some object =>
      obtain ⟨size, carried⟩ := sized epoch peerIndex object there
      refine ⟨size ▸ object.window.bounded, ?_, carried⟩
      apply object.window.distinct.imp
      rintro ctr other apart rfl
      rw [ConstantTime.ctBigintEqual_iff.mpr rfl] at apart
      cases apart
  obtain ⟨short, nodup, carried⟩ := within
  constructor
  · rfl
  · exact List.prefix_refl _
  · intro object there
    rw [nothing, rtake_of_length_le short, remembered, there]
    exact ⟨(sized epoch peerIndex object there).1, rfl⟩
  · intro missing
    rw [nothing, remembered, missing]
    rfl
  · rw [nothing]
    exact carried
  · rw [nothing]
    intro before ctr after split member
    rw [split] at nodup
    exact (List.nodup_append.mp nodup).2.2 ctr ((rtake_sublist _ _).subset member) ctr List.mem_cons_self rfl
  · exact nofun
  · exact nofun
  · exact nofun

/-- Asking for a window changes nothing but that it is there. -/
theorem tracked_getReplayWindow (tracked : Tracked base epoch peerIndex w flight beside) (e p : ℤ) :
    Tracked base epoch peerIndex (w.getReplayWindow e p).2 flight beside := by
  have windows := w.windowOf_getReplayWindow e p epoch peerIndex
  have first := w.getReplayWindow_fst e p
  obtain ⟨table, next, asked⟩ := w.getReplayWindow_snd e p
  have listed : received base (w.getReplayWindow e p).2 epoch peerIndex = received base w epoch peerIndex := by
    rw [asked]
    rfl
  have size : (w.getReplayWindow e p).2.replayWindowSize = w.replayWindowSize := by rw [asked]
  have accepted : (w.getReplayWindow e p).2.accepted = w.accepted := by rw [asked]
  by_cases there : (w.windowOf epoch peerIndex).isSome ∨ ¬ (epoch = e ∧ peerIndex = p)
  · -- the sender's window is the one it was
    refine tracked_of tracked ?_ size accepted
    rw [windows]
    split
    · rename_i same
      obtain ⟨rfl, rfl⟩ := same
      obtain ⟨object, held⟩ := Option.isSome_iff_exists.mp (there.resolve_right (by simp))
      rw [first, held, Option.getD_some]
    · rfl
  · simp only [not_or, Bool.not_eq_true, Option.isSome_eq_false_iff, Option.isNone_iff_eq_none, not_not] at there
    obtain ⟨missing, rfl, rfl⟩ := there
    rw [if_pos ⟨rfl, rfl⟩, first, missing, Option.getD_none] at windows
    have empty := tracked.missing missing
    have nobody {way : Slot × ℕ} (approaching : Approaching base w epoch peerIndex way) :
        Approaching base (w.getReplayWindow epoch peerIndex).2 epoch peerIndex way := by
      intro sameEpoch samePeer
      obtain ⟨-, ⟨object, held, -⟩, -⟩ := approaching sameEpoch samePeer
      cases missing.symm.trans held
    constructor
    · exact size.trans tracked.size
    · rw [accepted]
      exact tracked.grown
    · intro object held
      rw [windows] at held
      cases held
      rw [listed, empty]
      exact ⟨tracked.size, (List.rtake_nil _).symm⟩
    · intro gone
      cases windows.symm.trans gone
    · rw [listed]
      exact tracked.carried
    · rw [listed]
      exact tracked.spaced
    · exact fun flight same => nobody (tracked.own flight same)
    · exact fun flight other => nobody (tracked.others flight other)
    · exact tracked.apart

/-- A counter that passes the check, and that no other frame has passed it with, is on
its way. -/
theorem tracked_check (positive : base.replayWindowSize ≠ 0) (tracked : Tracked base epoch peerIndex w none beside)
    {slot : Slot} (fits : slot.ctr < 2 ^ 64) {object : WindowObject}
    (there : w.windowOf slot.epoch slot.peerIndex = some object) (fresh : object.window.check slot.ctr = true)
    (first : ∀ way, beside way → way.1 ≠ slot) :
    Tracked base epoch peerIndex { w with checked := w.checked ++ [slot] } (some (slot, object.id)) beside := by
  have same : Tracked base epoch peerIndex { w with checked := w.checked ++ [slot] } none beside :=
    tracked_of tracked rfl rfl rfl
  refine { same with own := ?_, apart := ?_ }
  · rintro flight ⟨⟩ rfl rfl
    obtain ⟨size, queue⟩ := tracked.held object there
    refine ⟨fits, ⟨object, there, rfl⟩, ?_⟩
    change slot.ctr ∉ (received base w slot.epoch slot.peerIndex).rtake base.replayWindowSize
    rw [← queue]
    apply (check_iff (by rw [size]; exact positive) fits _).mp fresh
    rw [queue]
    exact fun ctr member => tracked.carried ctr ((rtake_sublist _ _).subset member)
  · rintro flight other ⟨⟩ flying
    exact first other flying

theorem received_acceptReplay (grown : base.accepted <+: w.accepted) (slot : Slot) (object frame : ℕ) :
    received base (w.acceptReplay slot object frame) epoch peerIndex = received base w epoch peerIndex ++
      if slot.epoch = epoch ∧ slot.peerIndex = peerIndex then [slot.ctr] else [] := by
  obtain ⟨windows, accepted⟩ := w.acceptReplay_eq slot object frame
  rw [received, accepted, received, acceptedSince, acceptedSince, List.drop_append_of_le_length grown.length_le,
    List.filter_append, List.map_append, List.append_assoc]
  congr 2
  by_cases own : slot.epoch = epoch ∧ slot.peerIndex = peerIndex
  · rw [if_pos own]
    simp [IsFrom, own]
  · rw [if_neg own]
    simp [IsFrom, own]

/-- The acceptance of a counter on its way moves the window of its sender. -/
theorem tracked_acceptReplay (positive : base.replayWindowSize ≠ 0) {slot : Slot} {object : ℕ}
    (tracked : Tracked base epoch peerIndex w (some (slot, object)) beside) (frame : Ref) :
    Tracked base epoch peerIndex (w.acceptReplay slot object frame) none beside := by
  have windows := w.windowOf_acceptReplay slot object frame epoch peerIndex
  have listed : received base (w.acceptReplay slot object frame) epoch peerIndex = _ :=
    received_acceptReplay tracked.grown slot object frame
  obtain ⟨table, accepted⟩ := w.acceptReplay_eq slot object frame
  have size : (w.acceptReplay slot object frame).replayWindowSize = base.replayWindowSize := by
    rw [accepted]
    exact tracked.size
  have grown : base.accepted <+: (w.acceptReplay slot object frame).accepted := by
    rw [accepted]
    exact tracked.grown.trans (List.prefix_append _ _)
  by_cases own : slot.epoch = epoch ∧ slot.peerIndex = peerIndex
  · obtain ⟨rfl, rfl⟩ := own
    obtain ⟨fits, ⟨held, there, rfl⟩, fresh⟩ := tracked.own _ rfl rfl rfl
    obtain ⟨heldSize, queue⟩ := tracked.held held there
    rw [if_pos ⟨rfl, rfl⟩] at listed
    rw [if_pos ⟨rfl, rfl⟩, there, Option.map_some, if_pos rfl] at windows
    constructor
    · exact size
    · exact grown
    · intro other found
      rw [windows] at found
      cases found
      have takes : held.window.check slot.ctr = true := by
        rw [check_iff (by rw [heldSize]; exact positive) fits, queue]
        · exact fresh
        · rw [queue]
          exact fun ctr member => tracked.carried ctr ((rtake_sublist _ _).subset member)
      refine ⟨by rw [SlidingReplayWindow.accept_windowSize]; exact heldSize, ?_⟩
      rw [listed, accept_queue (by rw [heldSize]; exact positive) takes,
        evicted_concat (by rw [heldSize]; exact positive),
        heldSize, queue]
      exact rtake_concat.symm
    · intro gone
      cases windows.symm.trans gone
    · intro ctr member
      rw [listed] at member
      rcases List.mem_append.mp member with earlier | last
      · exact tracked.carried ctr earlier
      · rw [List.mem_singleton.mp last]
        exact fits
    · rw [listed]
      exact spaced_concat tracked.spaced fresh
    · exact nofun
    · intro flight flying sameEpoch samePeer
      obtain ⟨carried, ⟨other, held', same⟩, missed⟩ := tracked.others flight flying sameEpoch samePeer
      cases there.symm.trans held'
      refine ⟨carried, ⟨_, windows, same⟩, fun member => ?_⟩
      rw [listed, rtake_concat] at member
      rcases List.mem_append.mp ((rtake_sublist _ _).subset member) with earlier | last
      · exact missed earlier
      · apply tracked.apart _ flight rfl flying
        obtain ⟨⟨e, p, c⟩, o⟩ := flight
        cases sameEpoch
        cases samePeer
        cases List.mem_singleton.mp last
        rfl
    · exact nofun
  · rw [if_neg own, List.append_nil] at listed
    rw [if_neg fun same => own ⟨same.1.symm, same.2.symm⟩] at windows
    constructor
    · exact size
    · exact grown
    · rw [windows, listed]
      exact tracked.held
    · rw [windows, listed]
      exact tracked.missing
    · rw [listed]
      exact tracked.carried
    · rw [listed]
      exact tracked.spaced
    · exact nofun
    · exact fun flight flying => approaching_of windows listed (tracked.others flight flying)
    · exact nofun

/-! The size of the windows. -/

theorem wellSized_of (sized : WellSized w) (windows : w'.replayWindows = w.replayWindows)
    (size : w'.replayWindowSize = w.replayWindowSize) : WellSized w' := by
  unfold WellSized Worker.windowOf
  rw [windows, size]
  exact sized

theorem wellSized_getReplayWindow (sized : WellSized w) (e p : ℤ) : WellSized (w.getReplayWindow e p).2 := by
  intro epoch peerIndex object held
  have size : (w.getReplayWindow e p).2.replayWindowSize = w.replayWindowSize := by
    obtain ⟨table, next, asked⟩ := w.getReplayWindow_snd e p
    rw [asked]
  rw [w.windowOf_getReplayWindow e p] at held
  rw [size]
  split at held
  · cases held
    rw [w.getReplayWindow_fst e p]
    cases there : w.windowOf e p with
    | none => exact ⟨rfl, nofun⟩
    | some object => exact sized e p object there
  · exact sized epoch peerIndex object held

theorem wellSized_acceptReplay (sized : WellSized w) {slot : Slot} (fits : slot.ctr < 2 ^ 64) (object frame : ℕ) :
    WellSized (w.acceptReplay slot object frame) := by
  intro epoch peerIndex found held
  have size : (w.acceptReplay slot object frame).replayWindowSize = w.replayWindowSize := by
    obtain ⟨table, accepted⟩ := w.acceptReplay_eq slot object frame
    rw [accepted]
  rw [w.windowOf_acceptReplay slot object frame] at held
  rw [size]
  split at held
  · obtain ⟨old, there, rfl⟩ := Option.map_eq_some_iff.mp held
    obtain ⟨oldSize, carried⟩ := sized epoch peerIndex old there
    split
    · refine ⟨by rw [SlidingReplayWindow.accept_windowSize]; exact oldSize, fun ctr member => ?_⟩
      rcases mem_accept member with earlier | rfl
      · exact carried ctr earlier
      · exact fits
    · exact ⟨oldSize, carried⟩
  · exact sized epoch peerIndex found held

end Windows
/-! ## Terms -/

/-- What a call remembers: the counter that has passed the check, with its window, and
the frame that was accepted but not delivered yet. -/
structure Note where
  flight : Option (Slot × ℕ) := none
  taken : Option (Slot × Ref) := none

/-- What is delivered was accepted before, and so was what is still to be delivered. -/
structure Delivering (base w : Worker K G) (taken : Option (Slot × Ref)) : Prop where
  accepted : base.accepted <+: w.accepted
  delivered : base.delivered <+: w.delivered
  own : ∀ delivery ∈ deliveredSince base w, delivery ∈ acceptedSince base w
  due : ∀ delivery, taken = some delivery → delivery ∈ acceptedSince base w

/-- What calls make of the windows. Where a call drops none of the sender's, the
sender's window stays on track if no check was passed with a counter on its way. -/
structure Carried (base : Worker K G) (epoch peerIndex : ℤ) (leaves : Prop) (first : Note) (start : Worker K G)
    (note : Note) (w : Worker K G) : Prop where
  checked : start.checked <+: w.checked
  accepted : start.accepted <+: w.accepted
  sized : WellSized start → WellSized w
  delivers : Delivering base start first.taken → Delivering base w note.taken
  tracks : leaves → base.replayWindowSize ≠ 0 → ∀ beside, Tracked base epoch peerIndex start first.flight beside →
    (∀ slot ∈ checkedSince start w, ∀ way, beside way → way.1 ≠ slot) →
    Tracked base epoch peerIndex w note.flight beside

section Terms
variable {base start w w' : Worker K G} {epoch peerIndex : ℤ} {leaves : Prop} {first note last : Note}

theorem mem_drop_of_le {α : Type} {log : List α} {entry : α} {few many : ℕ} (within : few ≤ many)
    (member : entry ∈ log.drop many) : entry ∈ log.drop few :=
  (List.drop_sublist_drop_left log within).subset member

theorem Carried.trans (carried : Carried base epoch peerIndex leaves first start note w)
    (further : Carried base epoch peerIndex leaves note w last w') :
    Carried base epoch peerIndex leaves first start last w' where
  checked := carried.checked.trans further.checked
  accepted := carried.accepted.trans further.accepted
  sized sized := further.sized (carried.sized sized)
  delivers delivering := further.delivers (carried.delivers delivering)
  tracks leave positive beside tracked apart := by
    apply further.tracks leave positive beside
    · apply carried.tracks leave positive beside tracked
      exact fun slot member => apart slot ((further.checked.drop _).subset member)
    · exact fun slot member => apart slot (mem_drop_of_le carried.checked.length_le member)

variable (base epoch peerIndex leaves) in
theorem carried_idle (note : Note) (same : replayPart w = replayPart start) :
    Carried base epoch peerIndex leaves note start note w := by
  have tracked {beside : Slot × ℕ → Prop} (tracked : Tracked base epoch peerIndex start note.flight beside) :=
    tracked_part tracked same
  simp only [replayPart, Prod.mk.injEq] at same
  obtain ⟨windows, size, checked, accepted, delivered⟩ := same
  constructor
  · rw [checked]
  · rw [accepted]
  · exact fun sized => wellSized_of sized windows size
  · rintro ⟨before, sent, own, due⟩
    constructor
    · rw [accepted]
      exact before
    · rw [delivered]
      exact sent
    · rw [deliveredSince, delivered, acceptedSince, accepted]
      exact own
    · rw [acceptedSince, accepted]
      exact due
  · exact fun _ _ _ now _ => tracked now

/-- The terms of a call that drops no window of the sender if `leaves`. -/
def terms (base : Worker K G) (epoch peerIndex : ℤ) (leaves : Prop) : Terms AwaitPoint Note (Worker K G) where
  assume _ _ _ := True
  fits site note := site.slot = note.flight
  carried := Carried base epoch peerIndex leaves
  refl note _ := carried_idle base epoch peerIndex leaves note rfl
  trans carried further := carried.trans further

/-- A call may forget what has failed. -/
theorem carried_drop (note : Note) (w : Worker K G) : Carried base epoch peerIndex leaves note w {} w where
  checked := List.prefix_refl _
  accepted := List.prefix_refl _
  sized sized := sized
  delivers delivering := { delivering with due := nofun }
  tracks _ _ _ tracked _ := tracked_drop tracked

/-- The windows are as they were. -/
def Idle : Reading K G := fun _ start w => replayPart w = replayPart start

theorem idle_survives {site : AwaitPoint} (fits : site.slot = note.flight) :
    Survives ((terms (K := K) (G := G) base epoch peerIndex leaves).still note) Idle site :=
  fun _ _ _ now => ⟨⟨fits, carried_idle base epoch peerIndex leaves note now⟩, fun _ _ => rfl⟩

theorem idle_bystander (entry : Ref) (peerIndex : ℤ) : Bystander (Idle : Reading K G) entry peerIndex where
  quiet {_ _ w w'} now same _ :=
    (congrArg replayPart same : replayPart (beyondRatchet w') = replayPart (beyondRatchet w)).trans now
  advances now _ _ := now

theorem idle_guardless : Guardless (Idle : Reading K G) := fun _ _ _ _ now => now

theorem idle_unencoded (frame : Ref) : Unencoded (Idle : Reading K G) frame := fun _ _ w w' now encodes =>
  (congrArg replayPart encodes.same : replayPart (beyondEncoding w') = replayPart (beyondEncoding w)).trans now

theorem idle_aside : WindowsAside (Idle : Reading K G) := fun _ _ w w' now same =>
  (congrArg replayPart same : replayPart (beyondSettings w') = replayPart (beyondSettings w)).trans now

theorem replayPart_core (same : w'.core = w.core) : replayPart w' = replayPart w :=
  (congrArg replayPart same : replayPart w'.core = replayPart w.core)

/-! ### Frames -/

variable {α : Type}

/-- A part of a call that has one note when it begins and another when it returns. -/
abbrev Leads (terms : Terms AwaitPoint Note (Worker K G)) (program : Task K G α) (note last : Note) (w : Worker K G) :
    Prop :=
  Accounts terms program (fun _ reached _ => reached = last) (fun _ _ _ => True) note w

theorem stays_idle {program : Task K G α} {result : α → Prop}
    (kept : Yields ((terms base epoch peerIndex leaves).still note) Idle program result { point := .start } w w) :
    Leads (terms base epoch peerIndex leaves) program note note w :=
  accounts_still kept (fun _ _ _ now => carried_idle base epoch peerIndex leaves note now) (fun _ _ _ _ _ _ => rfl)
    fun _ _ _ _ _ => trivial

theorem stays_update {change : Worker K G → Worker K G} (same : replayPart (change w) = replayPart w) :
    Leads (terms base epoch peerIndex leaves) (update change) note note w :=
  accounts_update note (carried_idle base epoch peerIndex leaves note same) rfl

theorem leads_bind {β : Type} {program : Task K G α} {rest : α → Task K G β} {middle : Note}
    (kept : Leads (terms base epoch peerIndex leaves) program note middle w)
    (further : ∀ value w, Leads (terms base epoch peerIndex leaves) (rest value) middle last w) :
    Leads (terms base epoch peerIndex leaves) (program >>= rest) note last w := by
  apply accounts_bind
  apply accounts_mono kept
  · rintro value _ w rfl
    exact further value w
  · exact fun _ _ _ failed => failed

/-- Asking the window of a sender whether a counter is new. -/
theorem checkReplay_accounts (slot : Slot) (fits : slot.ctr < 2 ^ 64) :
    Accounts (terms base epoch peerIndex leaves) (checkReplay slot)
      (fun object last _ => last = { flight := object.map (slot, ·) }) (fun _ _ _ => True) {} w := by
  have there : (w.getReplayWindow slot.epoch slot.peerIndex).2.windowOf slot.epoch slot.peerIndex =
      some (w.getReplayWindow slot.epoch slot.peerIndex).1 := by
    rw [Worker.windowOf_getReplayWindow, if_pos ⟨rfl, rfl⟩]
  have asks : Carried base epoch peerIndex leaves {} w {} (w.getReplayWindow slot.epoch slot.peerIndex).2 := by
    obtain ⟨windows, next, asked⟩ := w.getReplayWindow_snd slot.epoch slot.peerIndex
    constructor
    · rw [asked]
    · rw [asked]
    · exact fun sized => wellSized_getReplayWindow sized _ _
    · rw [asked]
      exact fun delivering => ⟨delivering.accepted, delivering.delivered, delivering.own, delivering.due⟩
    · exact fun _ _ _ tracked _ => tracked_getReplayWindow tracked _ _
  apply accounts_read
  generalize w.getReplayWindow slot.epoch slot.peerIndex = got at there asks
  obtain ⟨object, asked⟩ := got
  apply accounts_bind
  apply accounts_update {} asks
  dsimp only at there ⊢
  split
  · rename_i fresh
    apply accounts_bind
    refine accounts_update { flight := some (slot, object.id) } ?_ (accounts_pure rfl)
    constructor
    · exact List.prefix_append _ _
    · exact List.prefix_refl _
    · exact fun sized => wellSized_of sized rfl rfl
    · exact fun delivering => ⟨delivering.accepted, delivering.delivered, delivering.own, nofun⟩
    · intro _ positive beside tracked apart
      apply tracked_check positive tracked fits there fresh
      refine fun way flying => apart slot ?_ way flying
      simp [checkedSince]
  · exact accounts_pure rfl

theorem durableCheck_stays {site : AwaitPoint} (fits : site.slot = note.flight) (slot : Slot) :
    Leads (terms base epoch peerIndex leaves) (durableCheck runtime site slot) note note w :=
  stays_idle (durableCheck_yields idle_guardless (idle_survives fits) slot rfl)

/-- A frame is opened with its counter on the way. -/
theorem openResolved_stays (frame : Ref) (held : Slot × ℕ) (payload : Bytes) (guess : FormatGuess)
    (probed : Option Probed) :
    Leads (terms base epoch peerIndex leaves) (openResolved runtime frame held payload guess probed)
      { flight := some held } { flight := some held } w := by
  cases probed with
  | some found => exact leads_bind (stays_update rfl) fun _ _ => accounts_pure rfl
  | none =>
    refine leads_bind (stays_idle (yields_attempt (tryDecryptWithRatchet_yields
      (fun _ => idle_survives rfl) idle_bystander _ rfl))) fun outcome w => ?_
    refine leads_bind (stays_idle (yields_pause (idle_survives rfl) rfl)) fun _ w => ?_
    apply accounts_bind
    apply accounts_settle
    · exact fun opened _ => leads_bind (stays_update rfl) fun _ _ => accounts_pure rfl
    · exact fun _ _ => trivial

theorem accepts (slot : Slot) (object : ℕ) (fits : slot.ctr < 2 ^ 64) (frame : Ref) :
    Carried base epoch peerIndex leaves { flight := some (slot, object) } w { taken := some (slot, frame) }
      (w.acceptReplay slot object frame) := by
  obtain ⟨windows, accepted⟩ := w.acceptReplay_eq slot object frame
  constructor
  · rw [accepted]
  · rw [accepted]
    exact List.prefix_append _ _
  · exact fun sized => wellSized_acceptReplay sized fits _ _
  · rintro ⟨before, sent, own, -⟩
    have more : acceptedSince base (w.acceptReplay slot object frame) = acceptedSince base w ++ [(slot, frame)] := by
      rw [acceptedSince, accepted]
      exact List.drop_append_of_le_length before.length_le
    constructor
    · rw [accepted]
      exact before.trans (List.prefix_append _ _)
    · rw [accepted]
      exact sent
    · rw [more, accepted]
      exact fun delivery member => List.mem_append_left _ (own delivery member)
    · rintro delivery ⟨⟩
      rw [more]
      exact List.mem_append_right _ (List.mem_singleton_self _)
  · exact fun _ positive _ tracked _ => tracked_acceptReplay positive tracked frame

theorem sends (slot : Slot) (frame : Ref) (frames : Heap EncodedFrame) :
    Carried base epoch peerIndex leaves { taken := some (slot, frame) } w {}
      { w with frames, delivered := w.delivered ++ [(slot, frame)] } := by
  constructor
  · exact List.prefix_refl _
  · exact List.prefix_refl _
  · exact fun sized => wellSized_of sized rfl rfl
  · rintro ⟨before, sent, own, due⟩
    refine ⟨before, sent.trans (List.prefix_append _ _), fun delivery member => ?_, nofun⟩
    rw [deliveredSince, List.drop_append_of_le_length sent.length_le] at member
    rcases List.mem_append.mp member with earlier | last
    · exact own delivery earlier
    · rw [List.mem_singleton.mp last]
      exact due _ rfl
  · exact fun _ _ _ tracked _ => tracked_of tracked rfl rfl rfl

/-- An opened frame is accepted, and then delivered. -/
theorem acceptFrame_leads (frame : Ref) {held : Slot × ℕ} (fits : held.1.ctr < 2 ^ 64) (payload : Bytes)
    (guess : FormatGuess) (opened : Bytes) :
    Leads (terms base epoch peerIndex leaves) (acceptFrame runtime frame held payload guess opened)
      { flight := some held } {} w := by
  refine leads_bind (accounts_update { taken := some (held.1, frame) } (accepts held.1 held.2 fits frame) rfl)
    fun _ w => ?_
  refine leads_bind (stays_idle (durableAccept_yields idle_guardless (idle_survives rfl) held.1 rfl)) fun _ w => ?_
  refine leads_bind (stays_update (replayPart_core (Worker.core_recordSuccess w _ _))) fun _ w => ?_
  refine leads_bind (accounts_update {} (sends held.1 frame _) rfl) fun _ w => ?_
  exact stays_update (replayPart_core (Worker.core_clearStarve w))

/-- A drop is reported and thrown. -/
theorem report_leads {report : Worker K G → Worker K G} (same : (report w).core = w.core) (refused : JsError) :
    Leads (terms base epoch peerIndex leaves) (do update report; throw refused : Task K G α) note last w := by
  apply leads_bind (stays_update (replayPart_core same))
  intro _ w
  exact accounts_throw trivial

theorem replayPart_pushToQueue (w : Worker K G) (frame : Ref) (peerIndex : Option ℤ) :
    replayPart (w.pushToQueue frame peerIndex) = replayPart w := by
  obtain ⟨kept, -, same⟩ := Worker.core_pushToQueue w frame peerIndex
  exact (congrArg replayPart same : replayPart (w.pushToQueue frame peerIndex).core = _)

theorem decodePayload_leads (frame : Ref) (payload : Bytes) (guess : FormatGuess) (probed : Option Probed)
    {hdr : SFrameHeader} (fits : hdr.ctr < 2 ^ 64) :
    Leads (terms base epoch peerIndex leaves) (decodePayload runtime frame payload guess probed hdr) {} {} w := by
  apply accounts_read
  dsimp only
  split
  · exact report_leads (by simp) _
  · split
    · exact leads_bind (stays_update (replayPart_pushToQueue w frame _)) fun _ _ => accounts_pure rfl
    · apply accounts_bind
      apply accounts_mono (checkReplay_accounts ⟨_, _, hdr.ctr⟩ fits)
      · rintro (_ | object) _ w rfl
        · exact report_leads (by simp) _
        · apply leads_bind (durableCheck_stays rfl _)
          intro answer w
          split
          · exact report_leads (by simp) _
          · apply accounts_read
            split
            · exact report_leads (by simp) _
            · apply leads_bind (openResolved_stays frame _ payload guess probed)
              intro opened w
              apply leads_bind (acceptFrame_leads frame fits payload guess opened)
              intro _ w
              exact leads_bind (stays_update (replayPart_core (Worker.core_emitMetric w _))) fun _ _ =>
                accounts_pure rfl
      · exact fun _ _ _ _ => trivial

/-- Whoever handles a failure has forgotten what was on its way. -/
theorem catches {program : Task K G α} {handler : JsError → Task K G α}
    (kept : Leads (terms base epoch peerIndex leaves) program note {} w)
    (handled : ∀ err w, Leads (terms base epoch peerIndex leaves) (handler err) {} {} w) :
    Leads (terms base epoch peerIndex leaves) (tryCatch program handler) note {} w := by
  apply accounts_tryCatch
  apply accounts_mono kept
  · exact fun _ _ _ same => same
  · exact fun err failed w _ => accounts_onward {} (carried_drop failed w) (handled err w)

theorem resolveFormat_leads (frame : Ref) (payload : Bytes) (codec : Option Codec) (frameKind : Option FrameKind) :
    Leads (terms base epoch peerIndex leaves) (resolveFormat runtime frame payload codec frameKind) {} {} w := by
  apply stays_idle
  apply meets_mono (resolveFormat_meets frame payload codec frameKind (idle_survives rfl) (idle_survives rfl) rfl)
  · exact fun _ _ _ _ held => ⟨held.1, trivial⟩
  · exact fun _ _ _ _ now => now

theorem decodeFrame_leads (ref : Ref) :
    Leads (terms base epoch peerIndex leaves) (decodeFrame runtime ref) {} {} w := by
  apply accounts_read
  dsimp only
  split
  · exact accounts_pure rfl
  · rename_i payload stripped
    refine leads_bind (resolveFormat_leads ref payload _ _) fun resolved w => accounts_read ?_
    cases parsed : parseHeader (payload.drop resolved.1.prefixLen) with
    | error refused => exact report_leads (core_failDecode _ _ _) _
    | ok hdr =>
      refine leads_bind (stays_update rfl) fun _ w => ?_
      apply catches (decodePayload_leads ref payload _ _ (parseHeader_fits parsed))
      exact fun refused w => report_leads (core_failDecode w _ refused) _

theorem decodeTransform_leads (ref : Ref) :
    Leads (terms base epoch peerIndex leaves) (decodeTransform runtime ref) {} {} w := by
  refine catches (leads_bind (decodeFrame_leads ref) fun _ w => accounts_read ?_) fun _ _ => accounts_pure rfl
  refine leads_bind (accounts_pause {} rfl (carried_idle base epoch peerIndex leaves {} rfl) fun _ _ => rfl) fun _ w =>
    ?_
  exact stays_update rfl

theorem drainPayload_leads (frame : Ref) (raw : Bytes) (guess : FormatGuess) (probed : Option Probed)
    {hdr : SFrameHeader} (fits : hdr.ctr < 2 ^ 64) :
    Leads (terms base epoch peerIndex leaves) (drainPayload runtime frame raw guess probed hdr) {} {} w := by
  apply accounts_read
  dsimp only
  split
  · exact accounts_pure rfl
  · split
    · exact stays_update (replayPart_pushToQueue w frame _)
    · apply accounts_bind
      apply accounts_mono (checkReplay_accounts ⟨_, _, hdr.ctr⟩ fits)
      · rintro (_ | object) _ w rfl
        · exact stays_update (replayPart_core (core_reportReplay w _ _ _))
        · refine leads_bind (durableCheck_stays rfl _) fun answer w => ?_
          split
          · exact accounts_onward {} (carried_drop _ w) (stays_update (replayPart_core (core_reportReplay w _ _ _)))
          · apply accounts_read
            split
            · exact accounts_onward {} (carried_drop _ w)
                (stays_update (replayPart_core (core_reportKeyInvalid w _ _ _)))
            · refine leads_bind (openResolved_stays frame _ raw guess probed) fun opened w => ?_
              exact acceptFrame_leads frame fits raw guess opened
      · exact fun _ _ _ _ => trivial

theorem drainFrame_leads (ref : Ref) :
    Leads (terms base epoch peerIndex leaves) (drainFrame runtime ref) {} {} w := by
  apply accounts_read
  refine catches (leads_bind (resolveFormat_leads ref _ _ _) fun resolved w => ?_) ?_
  · apply accounts_bind
    apply accounts_settle
    · exact fun hdr parsed => drainPayload_leads ref _ _ _ (parseHeader_fits parsed)
    · exact fun _ _ => trivial
  · exact fun refused w => stays_update (replayPart_core (core_failDrain w refused))

theorem drainFrames_leads (queue : List Ref) :
    Leads (terms base epoch peerIndex leaves) (drainFrames runtime queue) {} {} w := by
  induction queue generalizing w with
  | nil => exact accounts_pure rfl
  | cons ref rest ih => exact leads_bind (drainFrame_leads ref) fun _ _ => ih

theorem drainPreEpochQueue_leads :
    Leads (terms base epoch peerIndex leaves) (drainPreEpochQueue runtime) {} {} w := by
  unfold drainPreEpochQueue
  generalize runtime.patience = patience
  induction patience generalizing w with
  | zero => exact accounts_pauseUntil {} rfl (carried_idle base epoch peerIndex leaves {} rfl) fun _ _ _ => rfl
  | succ patience ih =>
    apply accounts_read
    split
    · exact stays_update rfl
    · refine leads_bind (stays_update rfl) fun _ w => leads_bind (drainFrames_leads _) fun _ w => ?_
      refine leads_bind (stays_update rfl) fun _ w => accounts_read ?_
      split
      · exact leads_bind (stays_update rfl) fun _ _ => ih
      · exact accounts_pure rfl

/-! ### Calls -/

/-- A call that drops no replay window of an epoch. -/
def Leaves (epoch : ℤ) : Call K → Prop
  | .message .teardown | .message (.setReplayWindow _) => False
  | .wipeTimer other => other ≠ epoch
  | _ => True

instance (epoch : ℤ) : (call : Call K) → Decidable (Leaves epoch call)
  | .message .teardown | .message (.setReplayWindow _) => isFalse id
  | .wipeTimer other => inferInstanceAs (Decidable (other ≠ epoch))
  | .message (.init _) | .message (.epoch ..) | .message (.rotate ..) | .message (.streams ..)
  | .message (.setSifTrailer _) | .message (.setRatchetWindow _) | .message (.setMetricsEnabled _)
  | .message (.setFailureTolerance _) | .tick _ | .transform .. | .encodeFrame _ | .decodeFrame _
  | .tryDecryptWithRatchet _ | .drainPreEpochQueue => isTrue trivial

theorem wellSized_emptied (w : Worker K G) (size : ℕ) :
    WellSized { w with replayWindowSize := size, replayWindows := ∅ } := by
  intro _ _ _ never
  cases never

theorem windowOf_wipeEpoch (guard : ReplayGuard G) (w : Worker K G) (wiped epoch peerIndex : ℤ) :
    (w.wipeEpoch guard wiped).windowOf epoch peerIndex =
      if epoch = wiped then none else w.windowOf epoch peerIndex := by
  simp only [Worker.windowOf, Worker.wipeEpoch, OrderedMap.get?_delete]
  split <;> rfl

/-- A call that may drop windows drops whole windows. -/
theorem carried_dropping (drops : ¬ leaves) (sized : WellSized w → WellSized w')
    (histories : (w'.checked, w'.accepted, w'.delivered) = (w.checked, w.accepted, w.delivered)) :
    Carried base epoch peerIndex leaves note w note w' := by
  simp only [Prod.mk.injEq] at histories
  obtain ⟨checked, accepted, delivered⟩ := histories
  constructor
  · rw [checked]
  · rw [accepted]
  · exact sized
  · rintro ⟨before, sent, own, due⟩
    constructor
    · rw [accepted]
      exact before
    · rw [delivered]
      exact sent
    · rw [deliveredSince, delivered, acceptedSince, accepted]
      exact own
    · rw [acceptedSince, accepted]
      exact due
  · exact fun leave => absurd leave drops

theorem carried_wipeEpoch (guard : ReplayGuard G) (wiped : ℤ) (other : leaves → wiped ≠ epoch) :
    Carried base epoch peerIndex leaves note w note (w.wipeEpoch guard wiped) where
  checked := List.prefix_refl _
  accepted := List.prefix_refl _
  sized sized e p object held := by
    rw [windowOf_wipeEpoch] at held
    split at held
    · cases held
    · exact sized e p object held
  delivers delivering := ⟨delivering.accepted, delivering.delivered, delivering.own, delivering.due⟩
  tracks leave _ _ tracked _ := by
    refine tracked_of tracked ?_ rfl rfl
    rw [windowOf_wipeEpoch, if_neg (other leave).symm]

theorem handleEpoch_leads (e selfPeerIndex : ℤ) (keys : KeyBundles K) :
    Leads (terms base epoch peerIndex leaves) (handleEpoch runtime e selfPeerIndex keys) {} {} w := by
  apply accounts_read
  apply accounts_bind
  apply accounts_settle
  · intro installed ok
    refine leads_bind (stays_update ?_) fun _ _ => drainPreEpochQueue_leads
    obtain ⟨table, -, same⟩ := Worker.core_installEpoch ok
    have part : replayPart installed = replayPart installed.core := rfl
    rw [part, same]
    split <;> rfl
  · exact fun _ _ => trivial

theorem handleMessage_leads (msg : InMsg K) :
    Leads (terms base epoch peerIndex (Leaves epoch (.message msg))) (handleMessage runtime msg) {} {} w := by
  have configures (quiet : ∀ size, msg ≠ .setReplayWindow size) (stays : msg ≠ .teardown)
      (old : ∀ e selfPeerIndex keys, msg ≠ .epoch e selfPeerIndex keys ∧ msg ≠ .rotate e selfPeerIndex keys) :
      Leads (terms base epoch peerIndex (Leaves epoch (.message msg))) (handleMessage runtime msg) {} {} w := by
    apply stays_idle
    apply handleMessage_yields_aside idle_aside rfl
    · rintro e selfPeerIndex keys (same | same)
      · exact absurd same (old e selfPeerIndex keys).1
      · exact absurd same (old e selfPeerIndex keys).2
    · exact fun size same => absurd same (quiet size)
    · exact fun same => absurd same stays
  cases msg with
  | epoch e selfPeerIndex keys => exact handleEpoch_leads e selfPeerIndex keys
  | rotate e selfPeerIndex keys => exact handleEpoch_leads e selfPeerIndex keys
  | teardown =>
    refine accounts_update {} (carried_dropping id (fun _ => ?_) rfl) rfl
    intro _ _ _ never
    cases never
  | setReplayWindow size => exact accounts_update {} (carried_dropping id (fun _ => wellSized_emptied w _) rfl) rfl
  | init | streams | setSifTrailer | setRatchetWindow | setMetricsEnabled | setFailureTolerance =>
    exact configures nofun nofun fun _ _ _ => ⟨nofun, nofun⟩

theorem program_leads (call : Call K) :
    Leads (terms base epoch peerIndex (Leaves epoch call)) (call.program runtime) {} {} w := by
  have received {leaves : Prop} (frame : EncodedFrame) {rest : Ref → Task K G Outcome}
      (next : ∀ ref w, Leads (terms base epoch peerIndex leaves) (rest ref) {} {} w) :
      Leads (terms base epoch peerIndex leaves) (receive frame >>= rest) {} {} w :=
    leads_bind (accounts_read (leads_bind (stays_update rfl) fun _ _ => accounts_pure rfl)) next
  cases call with
  | message msg => exact leads_bind (handleMessage_leads msg) fun _ _ => accounts_pure rfl
  | wipeTimer wiped =>
    refine leads_bind (accounts_read ?_) fun _ _ => accounts_pure rfl
    split
    · exact accounts_update {} (carried_wipeEpoch runtime.guard wiped id) rfl
    · exact accounts_pure rfl
  | tick elapsed => exact leads_bind (stays_update rfl) fun _ _ => accounts_pure rfl
  | transform side frame =>
    cases side with
    | encode =>
      refine received frame fun ref w => leads_bind (stays_idle (encodeTransform_yields (idle_unencoded ref)
        (fun _ _ => idle_survives rfl) _ rfl)) fun _ _ => accounts_pure rfl
    | decode => exact received frame fun ref _ => leads_bind (decodeTransform_leads ref) fun _ _ => accounts_pure rfl
  | encodeFrame frame =>
    exact received frame fun ref w => leads_bind (stays_idle (encodeFrame_yields (idle_unencoded ref)
      (fun _ _ => idle_survives rfl) _ rfl)) fun _ _ => accounts_pure rfl
  | decodeFrame frame =>
    exact received frame fun ref _ => leads_bind (decodeFrame_leads ref) fun _ _ => accounts_pure rfl
  | tryDecryptWithRatchet opening =>
    exact leads_bind (stays_idle (tryDecryptWithRatchet_yields (fun _ => idle_survives rfl) idle_bystander opening rfl))
      fun _ _ => accounts_pure rfl
  | drainPreEpochQueue => exact leads_bind drainPreEpochQueue_leads fun _ _ => accounts_pure rfl

end Terms

/-! ## Pools -/

section Pools
variable {ι : Type} {base w w' : Worker K G} {epoch peerIndex : ℤ}

/-- The counter that has passed the check of the call that shows a status. -/
def flightOf : Status AwaitPoint (Except JsError Outcome) → Option (Slot × ℕ)
  | .suspended site => site.slot
  | _ => none

/-- What calls beside one have on their way. -/
def besides (statuses : ι → Status AwaitPoint (Except JsError Outcome)) (call : ι) (way : Slot × ℕ) : Prop :=
  ∃ other, other ≠ call ∧ flightOf (statuses other) = some way

/-- The window of a sender is on track for every call, and all that was delivered
has been accepted. -/
structure Fair (base : Worker K G) (epoch peerIndex : ℤ) (w : Worker K G)
    (statuses : ι → Status AwaitPoint (Except JsError Outcome)) (notes : ι → Note) : Prop where
  tracks : ∀ call, Tracked base epoch peerIndex w (flightOf (statuses call)) (besides statuses call)
  delivers : ∀ call, Delivering base w (notes call).taken

variable [DecidableEq ι] {statuses : ι → Status AwaitPoint (Except JsError Outcome)} {call : ι}
  {status : Status AwaitPoint (Except JsError Outcome)}

/-- What one call has left on track is on track for all. -/
theorem tracked_all (tracks : ∀ call, Tracked base epoch peerIndex w (flightOf (statuses call)) (besides statuses call))
    (tracked : Tracked base epoch peerIndex w' (flightOf status) (besides statuses call)) (other : ι) :
    Tracked base epoch peerIndex w' (flightOf (Function.update statuses call status other))
      (besides (Function.update statuses call status) other) := by
  by_cases same : other = call
  · subst same
    have alike : besides (Function.update statuses other status) other = besides statuses other := by
      funext way
      apply propext
      constructor
      · rintro ⟨third, different, flies⟩
        rw [Function.update_of_ne different] at flies
        exact ⟨third, different, flies⟩
      · rintro ⟨third, different, flies⟩
        refine ⟨third, different, ?_⟩
        rw [Function.update_of_ne different]
        exact flies
    rw [Function.update_self, alike]
    exact tracked
  · rw [Function.update_of_ne same]
    refine { tracked with own := ?_, others := ?_, apart := ?_ }
    · exact fun way flies => tracked.others way ⟨other, same, flies⟩
    · rintro way ⟨third, different, flies⟩
      by_cases moved : third = call
      · subst moved
        rw [Function.update_self] at flies
        exact tracked.own way flies
      · rw [Function.update_of_ne moved] at flies
        exact tracked.others way ⟨third, moved, flies⟩
    · rintro way beside flies ⟨third, different, flying⟩
      by_cases moved : third = call
      · subst moved
        rw [Function.update_self] at flying
        exact (tracked.apart beside way flying ⟨other, same, flies⟩).symm
      · rw [Function.update_of_ne moved] at flying
        exact (tracks other).apart way beside flies ⟨third, different, flying⟩

/-- What is due stays due when more is accepted. -/
theorem delivering_due {taken moved : Option (Slot × Ref)} (delivering : Delivering base w taken)
    (reached : Delivering base w' moved) (grown : w.accepted <+: w'.accepted) : Delivering base w' taken where
  accepted := reached.accepted
  delivered := reached.delivered
  own := reached.own
  due delivery same := (grown.drop _).subset (delivering.due delivery same)

/-- No frame passes the check for a slot that another call has passed it for, which
has neither been accepted nor failed yet. -/
def checksInTurn (before : WorkerPool ι K G) (call : ι) (after : WorkerPool ι K G) : Prop :=
  ∀ slot ∈ checkedSince before.shared after.shared, ∀ other, other ≠ call →
    (flightOf (before.statuses other)).map Prod.fst ≠ some slot

instance [Fintype ι] (before : WorkerPool ι K G) (call : ι) (after : WorkerPool ι K G) :
    Decidable (checksInTurn before call after) :=
  inferInstanceAs (Decidable (∀ slot ∈ checkedSince before.shared after.shared, ∀ other, other ≠ call →
    (flightOf (before.statuses other)).map Prod.fst ≠ some slot))

/-- One turn that leaves the sender's window alone and checks in turn. -/
theorem fair_turn {leaves : Prop} {before after : WorkerPool ι K G} {site : AwaitPoint} {notes : ι → Note} {note : Note}
    (leave : leaves) (positive : base.replayWindowSize ≠ 0)
    (fair : Fair base epoch peerIndex before.shared before.statuses notes)
    (fits : site.slot = (notes call).flight) (waits : before.statuses call = .suspended site)
    (inTurn : checksInTurn before call after)
    (carried : Carried base epoch peerIndex leaves (notes call) before.shared note after.shared)
    (reached : ∀ next, after.statuses call = .suspended next → next.slot = note.flight) :
    Fair base epoch peerIndex after.shared (Function.update before.statuses call (after.statuses call))
      (Function.update notes call note) := by
  have flies : flightOf (before.statuses call) = (notes call).flight := by
    rw [waits]
    exact fits
  have tracked : Tracked base epoch peerIndex after.shared note.flight (besides before.statuses call) := by
    apply carried.tracks leave positive
    · rw [← flies]
      exact fair.tracks call
    · rintro slot checked way ⟨other, different, flying⟩ rfl
      exact inTurn way.1 checked other different (congrArg (Option.map Prod.fst) flying)
  have delivering := carried.delivers (fair.delivers call)
  constructor
  · apply tracked_all fair.tracks
    generalize after.statuses call = status at reached
    cases status with
    | suspended next =>
      rw [flightOf, reached next rfl]
      exact tracked
    | running => exact tracked_drop tracked
    | finished outcome => exact tracked_drop tracked
  · intro other
    by_cases same : other = call
    · subst same
      rw [Function.update_self]
      exact delivering
    · rw [Function.update_of_ne same]
      exact delivering_due (fair.delivers other) delivering carried.accepted

end Pools

/-! ## Runs -/

section Runs
variable {ι : Type} [DecidableEq ι] {first : Worker K G} {calls : ι → Call K} {last : WorkerPool ι K G}

/-- What a call has promised when it is over. -/
def Ends (outcome : Except JsError Outcome) (note : Note) (_ : Worker K G) : Prop :=
  match outcome with
  | .ok _ => note = {}
  | .error _ => True

omit [DecidableEq ι] in
theorem launch_fair (sized : WellSized first) (epoch peerIndex : ℤ) :
    Fair first epoch peerIndex first (launch runtime first calls).statuses fun _ => {} where
  tracks call := by
    have nobody : besides (launch runtime first calls).statuses call = fun _ => False := by
      funext way
      apply propext
      constructor
      · rintro ⟨other, -, flies⟩
        cases flies
      · exact False.elim
    rw [nobody]
    exact tracked_base sized
  delivers _ := by
    constructor
    · exact List.prefix_refl _
    · exact List.prefix_refl _
    · intro delivery member
      simp [deliveredSince] at member
    · exact nofun

/-- In a run of calls that drop no window of a sender and check in turn, the sender's
window holds the last counters accepted from it, and all that was delivered has been
accepted. -/
theorem runs_fair (sized : WellSized first) (positive : first.replayWindowSize ≠ 0) {epoch : ℤ} (peerIndex : ℤ)
    (leave : ∀ call, Leaves epoch (calls call)) (run : Runs checksInTurn (launch runtime first calls) last) :
    ∃ notes : ι → Note, Fair first epoch peerIndex last.shared last.statuses notes := by
  have keeping : Keeping (fun call => terms first epoch peerIndex (Leaves epoch (calls call))) (fun _ => Ends)
      (Fair first epoch peerIndex) last := by
    refine runs_keeping _ _ _ (fun _ _ _ _ _ _ _ _ => trivial) ?_ ?_ run
    · intro before call site after notes note fair fits waits inTurn carried reached
      apply fair_turn (leave call) positive fair (fits call site waits) waits inTurn carried
      intro next same
      rw [same] at reached
      exact reached
    · apply launch_keeping (fun _ => {}) (launch_fair sized epoch peerIndex) (fun _ => rfl)
      intro call w _
      apply noted_mono (program_leads (calls call))
      intro outcome note w held
      cases outcome with
      | ok value => exact held
      | error refused => trivial
  obtain ⟨notes, fair, -⟩ := keeping
  exact ⟨notes, fair⟩

/-- Of two members of a list one comes first. -/
theorem split_apart {α : Type} {log : List α} {one other : α} (first : one ∈ log) (second : other ∈ log)
    (different : one ≠ other) : ∃ before between after, log = before ++ one :: (between ++ other :: after) ∨
      log = before ++ other :: (between ++ one :: after) := by
  obtain ⟨before, after, rfl⟩ := List.append_of_mem first
  rcases List.mem_append.mp second with early | late
  · obtain ⟨earlier, between, rfl⟩ := List.append_of_mem early
    exact ⟨earlier, between, after, .inr (by simp)⟩
  · rcases List.mem_cons.mp late with same | later
    · exact absurd same.symm different
    · obtain ⟨between, rest, rfl⟩ := List.append_of_mem later
      exact ⟨before, between, rest, .inl rfl⟩

/-- Between two acceptances of a slot fewer others of its sender than a window holds
have been accepted. -/
def FewBetween (size : ℕ) (accepted : List (Slot × Ref)) (slot : Slot) : Prop :=
  ∀ before one between other after, accepted = before ++ (slot, one) :: (between ++ (slot, other) :: after) →
    (between.filter fun acceptance => IsFrom slot.epoch slot.peerIndex acceptance ∧ acceptance.1 ≠ slot).length < size

theorem fewBetween_of_few {size : ℕ} {accepted : List (Slot × Ref)} (few : accepted.length < size) (slot : Slot) :
    FewBetween size accepted slot := by
  rintro before one between other after rfl
  have within := List.length_filter_le
    (fun acceptance => decide (IsFrom slot.epoch slot.peerIndex acceptance ∧ acceptance.1 ≠ slot)) between
  simp only [List.length_append, List.length_cons] at few
  omega

theorem accepted_once {base w : Worker K G} {slot : Slot} {flight : Option (Slot × ℕ)} {beside : Slot × ℕ → Prop}
    (tracked : Tracked base slot.epoch slot.peerIndex w flight beside)
    (few : FewBetween base.replayWindowSize (acceptedSince base w) slot) {before between after : List (Slot × Ref)}
    {one other : Ref} : acceptedSince base w ≠ before ++ (slot, one) :: (between ++ (slot, other) :: after) := by
  intro split
  have own (frame : Ref) : decide (IsFrom slot.epoch slot.peerIndex (slot, frame)) = true := by simp [IsFrom]
  have enough := few before one between other after split
  have listed : received base w slot.epoch slot.peerIndex =
      (remembered base slot.epoch slot.peerIndex ++
        (before.filter (IsFrom slot.epoch slot.peerIndex)).map (·.1.ctr)) ++ slot.ctr ::
          ((between.filter (IsFrom slot.epoch slot.peerIndex)).map (·.1.ctr) ++ slot.ctr ::
            (after.filter (IsFrom slot.epoch slot.peerIndex)).map (·.1.ctr)) := by
    simp [received, split, List.filter_append, own]
  have many := spaced_between tracked.spaced listed
  have others : (((between.filter (IsFrom slot.epoch slot.peerIndex)).map (·.1.ctr)).filter (· ≠ slot.ctr)).length =
      (between.filter fun acceptance => IsFrom slot.epoch slot.peerIndex acceptance ∧ acceptance.1 ≠ slot).length := by
    rw [List.filter_map, List.length_map, List.filter_filter]
    congr 1
    apply List.filter_congr
    rintro ⟨⟨e, p, ctr⟩, frame⟩ -
    obtain ⟨epoch, peerIndex, counter⟩ := slot
    simp only [IsFrom, Function.comp_apply, ne_eq, Slot.mk.injEq, decide_not, Bool.decide_and]
    by_cases from_ : e = epoch ∧ p = peerIndex
    · simp [from_]
    · simp only [not_and] at from_
      grind
  have short := (List.dedup_sublist (((between.filter (IsFrom slot.epoch slot.peerIndex)).map
    (·.1.ctr)).filter (· ≠ slot.ctr))).length_le
  omega

/-- At most one frame has been delivered with a slot since a state. -/
def DeliveredOnce (first last : Worker K G) (slot : Slot) : Prop :=
  ∀ one other, (slot, one) ∈ deliveredSince first last → (slot, other) ∈ deliveredSince first last → one = other

/-- **At most once.** From a worker with windows of its own size, in every run whose
frames are checked in turn and in which no call drops a window of the slot's epoch, one
frame at most is delivered with a slot unless as many others as a window holds are
accepted from its sender in between. -/
theorem delivers_at_most_once (sized : WellSized first) (positive : first.replayWindowSize ≠ 0) (slot : Slot)
    (leave : ∀ call, Leaves slot.epoch (calls call)) (run : Runs checksInTurn (launch runtime first calls) last)
    (few : FewBetween first.replayWindowSize (acceptedSince first last.shared) slot) :
    DeliveredOnce first last.shared slot := by
  intro one other delivered again
  by_contra different
  cases isEmpty_or_nonempty ι with
  | inl nobody =>
    cases run with
    | start => simp [deliveredSince, launch, Pool.launch] at delivered
    | turn earlier taken passes => exact nobody.elim ‹ι›
  | inr somebody =>
    obtain ⟨call⟩ := somebody
    obtain ⟨notes, fair⟩ := runs_fair sized positive slot.peerIndex leave run
    have tracked := fair.tracks call
    have own := (fair.delivers call).own
    obtain ⟨before, between, after, split | split⟩ := split_apart (own _ delivered) (own _ again)
      fun same => different (congrArg Prod.snd same)
    · exact accepted_once tracked few split
    · exact accepted_once tracked few split

/-- Every state that calls reach from such a worker is such a worker. -/
theorem wellSized_runs (sized : WellSized first) (run : Runs anyTurn (launch runtime first calls) last) :
    WellSized last.shared := by
  have keeping : Keeping (fun call => terms first 0 0 (Leaves 0 (calls call))) (fun _ => Ends)
      (fun w _ _ => WellSized w) last := by
    refine runs_keeping _ _ _ (fun _ _ _ _ _ _ _ _ => trivial) ?_ ?_ run
    · exact fun _ _ _ _ _ _ sized _ _ _ carried _ => carried.sized sized
    · apply launch_keeping (fun _ => {}) sized (fun _ => rfl)
      intro call w _
      apply noted_mono (program_leads (calls call))
      intro outcome note w held
      cases outcome with
      | ok value => exact held
      | error refused => trivial
  obtain ⟨notes, sized, -⟩ := keeping
  exact sized

end Runs

section Checked
open Specimen (bundles keyOf sealedBy)

/-- A frame of peer 1, and two copies of its next one. -/
def copies : Fin 3 → Call Bytes
  | 0 => .decodeFrame { data := sealedBy (keyOf 0 1 8) 0 [1] }
  | _ => .decodeFrame { data := sealedBy (keyOf 0 1 8) 1 [2] }

/-- The format is known from the first frame, and both copies of the second pass the
check before either is accepted. -/
theorem copies_delivered_twice : ¬ ∀ last : WorkerPool (Fin 3) Bytes Unit,
    Runs anyTurn (launch Specimen.runtime (Specimen.installed 0 0 [7, 8]) copies) last →
      FewBetween 64 (acceptedSince (Specimen.installed 0 0 [7, 8]) last.shared) ⟨0, 1, 1⟩ →
        DeliveredOnce (Specimen.installed 0 0 [7, 8]) last.shared ⟨0, 1, 1⟩ := by
  intro once
  have result : ((launch Specimen.runtime (Specimen.installed 0 0 [7, 8]) copies).followPassing anyTurn
      [0, 0, 0, 1, 2, 1, 2, 1, 2]).map (fun pool =>
        (deliveredSince (Specimen.installed 0 0 [7, 8]) pool.shared,
          (acceptedSince (Specimen.installed 0 0 [7, 8]) pool.shared).length)) =
      some ([(⟨0, 1, 0⟩, 0), (⟨0, 1, 1⟩, 1), (⟨0, 1, 1⟩, 2)], 3) := by
    decide +kernel
  obtain ⟨last, followed, shape⟩ := Option.map_eq_some_iff.mp result
  simp only [Prod.mk.injEq] at shape
  obtain ⟨delivered, accepted⟩ := shape
  have same := once last (followPassing_runs followed) (fewBetween_of_few (by omega) _) 1 2
    (by simp [delivered]) (by simp [delivered])
  cases same

/-- The first copy is accepted before the second one comes to its check. -/
theorem delivers_at_most_once_in_turn : ∃ last : WorkerPool (Fin 3) Bytes Unit,
    deliveredSince (Specimen.installed 0 0 [7, 8]) last.shared = [(⟨0, 1, 0⟩, 0), (⟨0, 1, 1⟩, 1)] ∧
      DeliveredOnce (Specimen.installed 0 0 [7, 8]) last.shared ⟨0, 1, 1⟩ := by
  have result : ((launch Specimen.runtime (Specimen.installed 0 0 [7, 8]) copies).followPassing checksInTurn
      [0, 0, 0, 1, 1, 1, 2]).map (fun pool =>
        (deliveredSince (Specimen.installed 0 0 [7, 8]) pool.shared,
          (acceptedSince (Specimen.installed 0 0 [7, 8]) pool.shared).length)) =
      some ([(⟨0, 1, 0⟩, 0), (⟨0, 1, 1⟩, 1)], 2) := by
    decide +kernel
  have windows : (Specimen.installed 0 0 [7, 8]).replayWindows = ∅ ∧
      (Specimen.installed 0 0 [7, 8]).replayWindowSize = 64 := by
    constructor <;> rfl
  have sized : WellSized (Specimen.installed 0 0 [7, 8]) := by
    intro epoch peerIndex object held
    rw [Worker.windowOf, windows.1] at held
    cases held
  obtain ⟨last, followed, shape⟩ := Option.map_eq_some_iff.mp result
  simp only [Prod.mk.injEq] at shape
  obtain ⟨delivered, accepted⟩ := shape
  refine ⟨last, delivered, delivers_at_most_once sized (by rw [windows.2]; omega) ⟨0, 1, 1⟩ (fun call => ?_)
    (followPassing_runs followed) (fewBetween_of_few (by rw [windows.2]; omega) _)⟩
  cases call using Fin.cases <;> trivial

end Checked
end SFrameRatchet.MediaDelivery
