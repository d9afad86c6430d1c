import SFrameRatchet.PartyFrames

/-! The frames that wait for an epoch at a party. A drain opens those of the epochs that are
installed by now, in their order, and leaves the others where they are. -/
namespace SFrameRatchet.Party
open Collections Crypto Kid Header SFrame CodecPartial Replay Throwing Coroutine Media SoloDecoding StreamRoundTrip
  Reinstall

variable {K G : Type} {runtime : Runtime K G} {terms : Terms K} {heard heard' : Set Slot} {w w' v : Worker K G}
  {flight other : Flight} {ref : Ref} {waiting rest : List (Ref × Flight)}

/-- If one sender has sealed both frames in one epoch, the first was the first. -/
def Precedes (first second : Flight) : Prop :=
  first.slot.epoch = second.slot.epoch → first.slot.peerIndex = second.slot.peerIndex →
    first.slot.ctr < second.slot.ctr

/-- Frames that wait in the order in which they came. -/
structure Waiting (runtime : Runtime K G) (terms : Terms K) (heard : Set Slot) (w : Worker K G)
    (waiting : List (Ref × Flight)) : Prop where
  holds : ∀ entry ∈ waiting, w.frames.read entry.1 = entry.2.frame
  sealed : ∀ entry ∈ waiting, Sealed runtime terms entry.2
  fresh : ∀ entry ∈ waiting, Fresh heard entry.2
  ordered : waiting.Pairwise fun first second => first.1 < second.1 ∧ Precedes first.2 second.2

theorem Waiting.apart (waits : Waiting runtime terms heard w waiting) : (waiting.map Prod.fst).Nodup :=
  List.pairwise_map.mpr (waits.ordered.imp fun ordered => Nat.ne_of_lt ordered.1)

theorem Fresh.insert (fresh : Fresh heard other) (precedes : Precedes flight other) :
    Fresh (insert flight.slot heard) other := by
  intro ctr member
  rcases member with same | old
  · have epoch := congrArg Slot.epoch same
    have peer := congrArg Slot.peerIndex same
    have counter : ctr = flight.slot.ctr := congrArg Slot.ctr same
    rw [counter]
    exact precedes epoch.symm peer.symm
  · exact fresh ctr old

theorem live_of_standing (stands : standing w' = standing w) : Live w' flight ↔ Live w flight := by
  simp only [standing, Prod.mk.injEq] at stands
  unfold Live
  rw [stands.2.1.1, stands.2.1.2.2.2.1]

/-- What a drain of some frames makes of the worker. -/
structure Drained (terms : Terms K) (heard : Set Slot) (w : Worker K G) (waiting : List (Ref × Flight))
    (w' : Worker K G) : Prop where
  tuned : Tuned terms ({ slot | slot ∈ heard ∨ ∃ entry ∈ waiting, Live w entry.2 ∧ entry.2.slot = slot }) w'
  stands : standing w' = standing w
  opened : ∀ entry ∈ waiting, Live w entry.2 →
    w'.frames.read entry.1 = { entry.2.frame with data := entry.2.plain }
  others : ∀ ref, (∀ entry ∈ waiting, Live w entry.2 → entry.1 ≠ ref) → w'.frames.read ref = w.frames.read ref
  next : w'.frames.next = w.frames.next
  queue : w'.preEpochQueue.Sublist (w.preEpochQueue ++ waiting.map Prod.fst)
  left : ∀ entry ∈ waiting, entry.1 ∈ w'.preEpochQueue → entry.1 ∈ w.preEpochQueue ∨ ¬ Live w entry.2

theorem drained_nil (tuned : Tuned terms heard w) : Drained terms heard w [] w where
  tuned := tuned.mono fun _ => .inl
  stands := rfl
  opened _ never := by cases never
  others _ _ := rfl
  next := rfl
  queue := by simp
  left _ never := by cases never

/-- The fate of a live frame. -/
theorem fate_live {outcome : Except JsError Path} (fate : Fate terms heard w ref flight outcome v)
    (live : Live w flight) :
    outcome = .ok (.opened ⟨0, .header⟩ flight.plain) ∧ Tuned terms (insert flight.slot heard) v ∧
      standing v = standing w ∧ v.preEpochQueue = w.preEpochQueue ∧
      v.frames = w.frames.write ref { w.frames.read ref with data := flight.plain } := by
  cases fate with
  | opened _ tuned stands queue frames => exact ⟨rfl, tuned, stands, queue, frames⟩
  | parked dead => exact absurd live dead
  | refused dead => exact absurd live dead

/-- The fate of any other frame. -/
theorem fate_dead {outcome : Except JsError Path} (fate : Fate terms heard w ref flight outcome v)
    (dead : ¬ Live w flight) :
    Tuned terms heard v ∧ standing v = standing w ∧ v.preEpochQueue.Sublist (w.preEpochQueue ++ [ref]) ∧
      v.frames = w.frames := by
  cases fate with
  | opened live => exact absurd live dead
  | parked _ tuned stands held queue frames =>
    refine ⟨tuned, stands, ?_, frames⟩
    rw [queue]
    exact held.append (List.Sublist.refl _)
  | refused _ tuned stands queue frames =>
    refine ⟨tuned, stands, ?_, frames⟩
    rw [queue]
    exact List.sublist_append_left _ _

/-- One frame more. -/
theorem drained_cons {outcome : Except JsError Path} (fate : Fate terms heard w ref flight outcome v)
    (holds : w.frames.read ref = flight.frame) (later : ∀ entry ∈ waiting, ref < entry.1)
    (drained : ∀ heard', Tuned terms heard' v → (heard' = heard ∨ heard' = insert flight.slot heard) →
      Drained terms heard' v waiting w') :
    Drained terms heard w ((ref, flight) :: waiting) w' := by
  by_cases live : Live w flight
  · obtain ⟨-, tuned, stands, queue, frames⟩ := fate_live fate live
    have drained := drained _ tuned (.inr rfl)
    have same (entry : Ref × Flight) : Live v entry.2 ↔ Live w entry.2 := live_of_standing stands
    constructor
    · apply drained.tuned.mono
      rintro slot ((rfl | old) | ⟨entry, member, live', rfl⟩)
      · exact .inr ⟨_, List.mem_cons_self, live, rfl⟩
      · exact .inl old
      · exact .inr ⟨entry, List.mem_cons_of_mem _ member, (same entry).mp live', rfl⟩
    · exact drained.stands.trans stands
    · intro entry member live'
      rcases List.mem_cons.mp member with rfl | member
      · rw [drained.others ref fun entry member _ => (Nat.ne_of_gt (later entry member)), frames, Heap.read_write,
          if_pos rfl, holds]
      · exact drained.opened entry member ((same entry).mpr live')
    · intro other apart
      have own : ref ≠ other := apart (ref, flight) List.mem_cons_self live
      rw [drained.others other fun entry member live' =>
        apart entry (List.mem_cons_of_mem _ member) ((same entry).mp live'),
        frames, Heap.read_write, if_neg (Ne.symm own)]
    · rw [drained.next, frames, Heap.next_write]
    · rw [List.map_cons]
      apply drained.queue.trans
      rw [queue]
      exact (List.Sublist.refl _).append (List.sublist_cons_self _ _)
    · intro entry member again
      rcases List.mem_cons.mp member with rfl | member
      · rcases List.mem_append.mp (drained.queue.subset again) with before | behind
        · exact .inl (queue ▸ before)
        · obtain ⟨entry, member, same⟩ := List.mem_map.mp behind
          exact absurd same (Nat.ne_of_gt (later entry member))
      · exact (drained.left entry member again).imp (fun held => queue ▸ held) fun dead live' =>
          dead ((same entry).mpr live')
  · obtain ⟨tuned, stands, queue, frames⟩ := fate_dead fate live
    have drained := drained _ tuned (.inl rfl)
    have same (entry : Ref × Flight) : Live v entry.2 ↔ Live w entry.2 := live_of_standing stands
    constructor
    · apply drained.tuned.mono
      rintro slot (old | ⟨entry, member, live', rfl⟩)
      · exact .inl old
      · exact .inr ⟨entry, List.mem_cons_of_mem _ member, (same entry).mp live', rfl⟩
    · exact drained.stands.trans stands
    · intro entry member live'
      rcases List.mem_cons.mp member with rfl | member
      · exact absurd live' live
      · exact drained.opened entry member ((same entry).mpr live')
    · intro other apart
      rw [drained.others other fun entry member live' =>
        apart entry (List.mem_cons_of_mem _ member) ((same entry).mp live'),
        frames]
    · rw [drained.next, frames]
    · rw [List.map_cons]
      apply drained.queue.trans
      simpa using queue.append (List.Sublist.refl (waiting.map Prod.fst))
    · intro entry member again
      rcases List.mem_cons.mp member with rfl | member
      · exact .inr live
      · rcases drained.left entry member again with before | dead
        · rcases List.mem_append.mp (queue.subset before) with old | own
          · exact .inl old
          · exact absurd (List.mem_singleton.mp own) (Nat.ne_of_gt (later entry member))
        · exact .inr fun live' => dead ((same entry).mpr live')

/-- A drain of frames that wait goes through all of them. -/
theorem drainFrames_drained (correct : runtime.crypto.Correct) (waiting : List (Ref × Flight)) :
    ∀ {heard : Set Slot} {w : Worker K G}, Tuned terms heard w → Waiting runtime terms heard w waiting →
      ∃ w', alone (drainFrames runtime (waiting.map Prod.fst)) w = some (.ok (), w') ∧
        Drained terms heard w waiting w' := by
  induction waiting with
  | nil => exact fun tuned _ => ⟨_, rfl, drained_nil tuned⟩
  | cons entry rest ih =>
    intro heard w tuned waits
    obtain ⟨ref, flight⟩ := entry
    obtain ⟨ahead, ordered⟩ := List.pairwise_cons.mp waits.ordered
    obtain ⟨outcome, v, drains, fate⟩ := @drainFrame_fate _ _ runtime terms heard w flight ref correct tuned
      (waits.sealed _ List.mem_cons_self) (waits.fresh _ List.mem_cons_self) (waits.holds _ List.mem_cons_self)
    -- the frames behind it are as they were
    have kept (entry : Ref × Flight) (member : entry ∈ rest) : v.frames.read entry.1 = entry.2.frame := by
      have apart : entry.1 ≠ ref := Nat.ne_of_gt (ahead entry member).1
      rw [← waits.holds entry (List.mem_cons_of_mem _ member)]
      by_cases live : Live w flight
      · rw [(fate_live fate live).2.2.2.2, Heap.read_write, if_neg apart]
      · rw [(fate_dead fate live).2.2.2]
    have behind (heard' : Set Slot) (some_heard : heard' = heard ∨ heard' = insert flight.slot heard) :
        Waiting runtime terms heard' v rest := by
      refine ⟨kept, fun entry member => waits.sealed entry (List.mem_cons_of_mem _ member),
        fun entry member => ?_, ordered⟩
      have fresh := waits.fresh entry (List.mem_cons_of_mem _ member)
      rcases some_heard with rfl | rfl
      · exact fresh
      · exact fresh.insert (ahead entry member).2
    have tuned' : ∃ heard', Tuned terms heard' v ∧ (heard' = heard ∨ heard' = insert flight.slot heard) := by
      by_cases live : Live w flight
      · exact ⟨_, (fate_live fate live).2.1, .inr rfl⟩
      · exact ⟨_, (fate_dead fate live).1, .inl rfl⟩
    obtain ⟨heard', tuned', some_heard⟩ := tuned'
    obtain ⟨w', ran, -⟩ := ih tuned' (behind heard' some_heard)
    refine ⟨w', ?_, drained_cons fate (waits.holds _ List.mem_cons_self) (fun entry member =>
      (ahead entry member).1) ?_⟩
    · simp only [List.map_cons, drainFrames, alone_bind, drains, Option.bind_some, ran]
    · intro heard'' tuned'' some_heard
      obtain ⟨w'', ran', drained⟩ := ih tuned'' (behind heard'' some_heard)
      rw [ran] at ran'
      cases ran'
      exact drained

/-! ## A worker with frames that wait -/

/-- A party's worker between two turns: its queue holds these frames, and no drain is in progress. -/
structure Seated (runtime : Runtime K G) (terms : Terms K) (heard : Set Slot) (waiting : List (Ref × Flight))
    (w : Worker K G) : Prop where
  tuned : Tuned terms heard w
  waits : Waiting runtime terms heard w waiting
  queue : w.preEpochQueue = waiting.map Prod.fst
  made : ∀ entry ∈ waiting, entry.1 < w.frames.next
  idle : w.draining = false ∧ w.pendingDrain = false

/-- What a party has heard once it has opened the frames that are live. -/
def heardOf (heard : Set Slot) (waiting : List (Ref × Flight)) (w : Worker K G) : Set Slot :=
  { slot | slot ∈ heard ∨ ∃ entry ∈ waiting, Live w entry.2 ∧ entry.2.slot = slot }

/-- What is left to wait for after a drain. -/
theorem waiting_drained (waits : Waiting runtime terms heard w waiting) (taken : w.preEpochQueue = [])
    (drained : Drained terms heard w waiting w') : ∃ rest, rest.Sublist waiting ∧
      w'.preEpochQueue = rest.map Prod.fst ∧ Waiting runtime terms (heardOf heard waiting w) w' rest ∧
      ∀ entry ∈ rest, ¬ Live w entry.2 := by
  obtain ⟨rest, sublist, queue⟩ := List.sublist_map_iff.mp (by simpa [taken] using drained.queue)
  have dead (entry : Ref × Flight) (member : entry ∈ rest) : ¬ Live w entry.2 := by
    have again : entry.1 ∈ w'.preEpochQueue := queue ▸ List.mem_map_of_mem member
    exact (drained.left entry (sublist.subset member) again).resolve_left (by simp [taken])
  refine ⟨rest, sublist, queue, ⟨fun entry member => ?_, fun entry member => waits.sealed entry (sublist.subset member),
    fun entry member ctr heard => ?_, waits.ordered.sublist sublist⟩, dead⟩
  · rw [drained.others entry.1 ?_, waits.holds entry (sublist.subset member)]
    intro other member' live same
    have own : other = entry := List.inj_on_of_nodup_map waits.apart member' (sublist.subset member) same
    rw [own] at live
    exact dead entry member live
  · rcases heard with old | ⟨other, member', live, same⟩
    · exact waits.fresh entry (sublist.subset member) ctr old
    · have epoch : other.2.slot.epoch = entry.2.slot.epoch := by rw [same]
      refine absurd ?_ (dead entry member)
      unfold Live at live ⊢
      rw [← epoch]
      exact live

/-- What has been heard and what still waits comes from before. -/
structure Settled (heard : Set Slot) (waiting : List (Ref × Flight)) (heard' : Set Slot)
    (rest : List (Ref × Flight)) : Prop where
  rest : rest.Sublist waiting
  heard : ∀ slot ∈ heard', slot ∈ heard ∨ ∃ entry ∈ waiting, entry.2.slot = slot

theorem settled_refl (heard : Set Slot) (waiting : List (Ref × Flight)) : Settled heard waiting heard waiting :=
  ⟨List.Sublist.refl _, fun _ => .inl⟩

theorem Settled.fresh (settled : Settled heard waiting heard' rest) (fresh : Fresh heard flight)
    (after : ∀ entry ∈ waiting, Precedes entry.2 flight) : Fresh heard' flight := by
  intro ctr member
  rcases settled.heard _ member with old | ⟨entry, waits, same⟩
  · exact fresh ctr old
  · have precedes := after entry waits
    unfold Precedes at precedes
    rw [same] at precedes
    exact precedes rfl rfl

theorem seated_of (seated : Seated runtime terms heard waiting w) (tuned : Tuned terms heard w')
    (queue : w'.preEpochQueue = w.preEpochQueue) (frames : w'.frames = w.frames)
    (idle : (w'.draining, w'.pendingDrain) = (w.draining, w.pendingDrain)) :
    Seated runtime terms heard waiting w' := by
  simp only [Prod.mk.injEq] at idle
  refine ⟨tuned, ⟨?_, seated.waits.sealed, seated.waits.fresh, seated.waits.ordered⟩, queue.trans seated.queue, ?_, ?_⟩
  · rw [frames]; exact seated.waits.holds
  · rw [frames]; exact seated.made
  · rw [idle.1, idle.2]; exact seated.idle

/-- **A drain.** All that waits for an epoch that is live by now is opened; the rest waits on. -/
theorem drainPreEpochQueue_seated (correct : runtime.crypto.Correct) (seated : Seated runtime terms heard waiting w)
    {outcome : Except JsError Unit} (ran : alone (drainPreEpochQueue runtime) w = some (outcome, w')) :
    ∃ heard' rest, Seated runtime terms heard' rest w' ∧ Settled heard waiting heard' rest ∧
      standing w' = standing w ∧ (∀ entry ∈ rest, ¬ Live w' entry.2) ∧
      ∀ entry ∈ waiting, Live w entry.2 → w'.frames.read entry.1 = { entry.2.frame with data := entry.2.plain } := by
  obtain ⟨idle, settled⟩ := seated.idle
  unfold drainPreEpochQueue at ran
  cases shape : runtime.patience with
  | zero =>
    rw [shape] at ran
    simp [drainPasses] at ran
  | succ patience =>
    have tuned : Tuned terms heard { w with draining := true, preEpochQueue := [] } :=
      { seated.tuned with
        formats := seated.tuned.formats, windows := seated.tuned.windows, installed := seated.tuned.installed
        registered := registered_of seated.tuned.registered rfl }
    have waits : Waiting runtime terms heard { w with draining := true, preEpochQueue := [] } waiting :=
      ⟨seated.waits.holds, seated.waits.sealed, seated.waits.fresh, seated.waits.ordered⟩
    obtain ⟨v, drains, drained⟩ := drainFrames_drained correct waiting tuned waits
    obtain ⟨rest, sublist, queue, waits', asleep⟩ := waiting_drained waits rfl drained
    have stands := drained.stands
    simp only [standing, Prod.mk.injEq] at stands
    obtain ⟨⟨codec, trailer, kidCodec, tolerance, guard⟩, ⟨epochs, entries, current, valid, timers⟩, ctr, -, pending⟩ :=
      stands
    have pending : v.pendingDrain = false := pending.trans settled
    rw [shape] at ran
    simp only [drainPasses, alone_bind, alone_read, Option.bind_some, idle, Bool.false_eq_true, ↓reduceIte,
      alone_update, seated.queue, drains, pending, alone_pure, Option.some.injEq, Prod.mk.injEq] at ran
    obtain ⟨rfl, rfl⟩ := ran
    refine ⟨_, rest, ⟨?_, ⟨waits'.holds, waits'.sealed, waits'.fresh, waits'.ordered⟩, queue, fun entry member => ?_,
      rfl, rfl⟩, ⟨sublist, ?_⟩, ?_, fun entry member live => asleep entry member ?_, drained.opened⟩
    · exact { drained.tuned with
        formats := drained.tuned.formats, windows := drained.tuned.windows, installed := drained.tuned.installed
        registered := registered_of drained.tuned.registered rfl }
    · have made := seated.made entry (sublist.subset member)
      exact Nat.lt_of_lt_of_eq made drained.next.symm
    · rintro slot (old | ⟨entry, member, -, same⟩)
      · exact .inl old
      · exact .inr ⟨entry, member, same⟩
    · simp only [standing, codec, trailer, kidCodec, tolerance, guard, epochs, entries, current, valid,
        timers, ctr, idle,
        settled]
    · unfold Live at live ⊢
      rw [← epochs, ← valid]
      exact live

end SFrameRatchet.Party
