import SFrameRatchet.DurableSteps

/-! What one guard remembers. The cache may let a window go once what it holds is
stored, and it keeps those that are being hydrated or persisted; but a call that
waits for its window does not count. As long as every accept finds its window
still in the cache, what a check sees is what was accepted most recently. -/
namespace SFrameRatchet.DurableCache
open Collections Coroutine Interleaving DurableReplay DurableSteps Recency

/-- The counters accepted for a key, oldest first. -/
def acceptances (o : Origin Unit) (fullKey : String) : List ℕ := entriesOf fullKey o.accepted

/-- The keys of the persists that have not settled. -/
def pending (o : Origin Unit) : List String := (o.tabs ()).persistTail.drop (o.tabs ()).persisted

/-- A window with the most recent counters of a log. -/
structure Mirrors (window : ℕ) (win : MemWindow) (log : List ℕ) : Prop where
  order : win.order = recent window log
  agrees : win.Agrees

/-- A window has held the most recent counters of its key at some time since those
of a base were accepted. -/
def Since (window : ℕ) (base : List ℕ) (o : Origin Unit) (fullKey : String) (ref : Ref) : Prop :=
  ∃ log, base <+: log ∧ log <+: acceptances o fullKey ∧ Mirrors window (o.windows.read ref) log

/-- The cache and the store agree on what has been accepted. -/
structure Sound (window : ℕ) (o : Origin Unit) : Prop where
  size : (o.tabs ()).window = window
  cached : ∀ key ref, (o.tabs ()).mem.get? key = some ref → Mirrors window (o.windows.read ref) (acceptances o key)
  saved : ∀ key, key ∉ pending o → stored o key = recent window (acceptances o key)
  known : ∀ key, stored o key ⊆ acceptances o key
  chain : (o.tabs ()).persisted ≤ (o.tabs ()).persistTail.length
  counted : ∀ key, (o.tabs ()).persisting.get? key = if key ∈ pending o then some ((pending o).count key) else none
  pinned : ∀ key, (o.tabs ()).mem.get? key = none → key ∉ pending o
  loading : ∀ key hydration, (o.tabs ()).hydrating.get? key = some hydration →
    (o.tabs ()).mem.get? key = none ∧ (o.hydrations.read hydration).window = none

/-- What a call at a point knows. -/
def Fine (window : ℕ) (o : Origin Unit) (fullKey : String) : GuardPoint → Prop
  | .opening hydration => (o.tabs ()).hydrating.get? fullKey = some hydration
  | .reading hydration seen => (o.tabs ()).hydrating.get? fullKey = some hydration ∧ seen = stored o fullKey
  | .chained ref link => (o.tabs ()).mem.get? fullKey = some ref ∧ (o.tabs ()).persisted ≤ link ∧
      (o.tabs ()).persistTail[link]? = some fullKey
  | .persisting ref stage => (o.tabs ()).mem.get? fullKey = some ref ∧
      (o.tabs ()).persistTail[(o.tabs ()).persisted]? = some fullKey ∧
      match stage with
      | .merging seen => seen ⊆ acceptances o fullKey
      | .written | .unlocked => fullKey ∉ (pending o).tail → stored o fullKey = recent window (acceptances o fullKey)
      | _ => True
  | _ => True

/-- A hydration and a link have one call each that brings them to their end. -/
def mark (o : Origin Unit) : String → GuardPoint → Option (Ref ⊕ ℕ)
  | _, .opening hydration | _, .reading hydration _ => some (.inl hydration)
  | _, .chained _ link => some (.inr link)
  | _, .persisting _ _ => some (.inr (o.tabs ()).persisted)
  | _, _ => none

/-- The key and the window in which a call is about to record its counter. -/
def recording? (call : Call Unit) (site : GuardSite Unit) (o : Origin Unit) : Option (String × Ref) :=
  match call, site with
  | .accept _ _ ctr, .within _ fullKey _ point =>
    ((o.windowAt point).filter fun ref => ctr ∉ (o.windows.read ref).set).map fun ref => (fullKey, ref)
  | _, _ => none

/-- A counter is recorded in a window that is still in the cache. -/
def recordsCached (call : Call Unit) (site : GuardSite Unit) (o : Origin Unit) : Prop :=
  ∀ record ∈ recording? call site o, (o.tabs ()).mem.get? record.1 = some record.2

instance (call : Call Unit) (site : GuardSite Unit) (o : Origin Unit) : Decidable (recordsCached call site o) :=
  inferInstanceAs (Decidable (∀ record ∈ recording? call site o, (o.tabs ()).mem.get? record.1 = some record.2))

section Steps
variable {window : ℕ} {o o' : Origin Unit} {call : Call Unit} {fullKey key : String} {site : GuardSite Unit}
  {status : GuardStatus Unit} {ref hydration : Ref} {seen : List ℕ} {ctr : ℕ}

/-! ## Parts of the state -/

theorem mem_pending {link : ℕ} (later : (o.tabs ()).persisted ≤ link)
    (named : (o.tabs ()).persistTail[link]? = some key) :
    key ∈ pending o := by
  have there : (pending o)[link - (o.tabs ()).persisted]? = some key := by
    rw [pending, List.getElem?_drop, Nat.add_sub_cancel' later, named]
  exact List.mem_of_getElem? there

theorem pending_head (named : (o.tabs ()).persistTail[(o.tabs ()).persisted]? = some key) :
    pending o = key :: (pending o).tail := by
  obtain ⟨short, same⟩ := List.getElem?_eq_some_iff.mp named
  rw [pending, List.drop_eq_getElem_cons short, same, List.tail_cons]

theorem pending_recordAccept (fullKey : String) (ref : Ref) (ctr : ℕ)
    (chain : (o.tabs ()).persisted ≤ (o.tabs ()).persistTail.length) :
    pending (o.recordAccept () fullKey ref ctr) = pending o ++ [fullKey] :=
  List.drop_append_of_le_length chain

theorem pending_releasePersist : pending (o.releasePersist () fullKey) = (pending o).tail :=
  List.tail_drop.symm

theorem acceptances_recordAccept : acceptances (o.recordAccept () fullKey ref ctr) key =
    acceptances o key ++ if key = fullKey then [ctr] else [] :=
  entriesOf_append fullKey key o.accepted [ctr]

theorem step_acceptances (step : Step call fullKey site o status o') (key : String) :
    acceptances o key <+: acceptances o' key := by
  cases step with
  | records =>
    rw [acceptances_recordAccept]
    exact List.prefix_append _ _
  | _ => exact List.prefix_rfl

theorem Mirrors.push {win : MemWindow} {log : List ℕ} (mirrors : Mirrors window win log) (fresh : ctr ∉ win.set) :
    Mirrors window (win.push ctr window) (log ++ [ctr]) := by
  obtain ⟨order, agrees⟩ := mirrors.agrees.push fresh window
  refine ⟨?_, agrees⟩
  have new : ctr ∉ recent window log := by
    rw [← mirrors.order]
    simpa [mirrors.agrees.set] using fresh
  rw [order, mirrors.order, recent_concat new]

/-! ## What a step does to the state -/

section Effects
variable (sound : Sound window o)
include sound

theorem sound_beginHydration (missing : (o.tabs ()).mem.get? fullKey = none)
    (allocated : ∀ key hydration, (o.tabs ()).hydrating.get? key = some hydration → hydration < o.hydrations.next) :
    Sound window (o.beginHydration () fullKey) := by
  refine { sound with loading := fun key hydration under => ?_ }
  change ((o.tabs ()).hydrating.set fullKey o.hydrations.next).get? key = some hydration at under
  change (o.tabs ()).mem.get? key = none ∧ ((o.hydrations.alloc _).read hydration).window = none
  rw [OrderedMap.get?_set] at under
  rw [Heap.read_alloc]
  split at under
  · rename_i own
    rw [own, if_pos (Option.some.inj under).symm]
    exact ⟨missing, rfl⟩
  · rw [if_neg (Nat.ne_of_lt (allocated key hydration under))]
    exact sound.loading key hydration under

/-- What is read for a key that is not in the cache is all there is to remember. -/
theorem stored_missing (missing : (o.tabs ()).mem.get? fullKey = none) :
    stored o fullKey = recent window (acceptances o fullKey) :=
  sound.saved fullKey (sound.pinned fullKey missing)

theorem persisting_iff : (o.tabs ()).persisting.has key = true ↔ key ∈ pending o := by
  rw [OrderedMap.has, sound.counted]
  split <;> simp [*]

theorem sound_endHydration (positive : window ≠ 0) (missing : (o.tabs ()).mem.get? fullKey = none)
    (allocated : ∀ key ref, (o.tabs ()).mem.get? key = some ref → ref < o.windows.next)
    (own : ∀ key, (o.tabs ()).hydrating.get? key = some hydration → key = fullKey) :
    Sound window (o.endHydration () fullKey hydration (stored o fullKey)) := by
  obtain ⟨fresh, others, rest⟩ := endHydration_mem o () fullKey hydration (stored o fullKey)
  generalize ended : o.endHydration () fullKey hydration (stored o fullKey) = after at fresh others rest ⊢
  have guard {α : Type} (f : DurableReplayGuard → α) := congrArg f rest
  have tail : (after.tabs ()).persistTail = (o.tabs ()).persistTail := guard (·.persistTail)
  have done : (after.tabs ()).persisted = (o.tabs ()).persisted := guard (·.persisted)
  have waiting : pending after = pending o := by rw [pending, tail, done, pending]
  have log (key : String) : acceptances after key = acceptances o key := by rw [← ended]; rfl
  have store (key : String) : stored after key = stored o key := by rw [← ended]; rfl
  have windows (ref : Ref) : after.windows.read ref = if ref = o.windows.next then
      { set := (sliceLast (o.tabs ()).window (stored o fullKey)).toFinset,
        order := sliceLast (o.tabs ()).window (stored o fullKey), fullKey } else o.windows.read ref := by
    rw [← ended]
    exact Heap.read_alloc _ _ _
  refine ⟨(guard (·.window)).trans sound.size, fun key ref held => ?_, fun key idle => ?_, fun key => ?_, ?_,
    fun key => ?_, fun key gone => ?_, fun key other under => ?_⟩
  · rw [windows, log]
    rcases others key ref held with ⟨rfl, rfl⟩ | ⟨-, old⟩
    · have order : sliceLast (o.tabs ()).window (stored o key) = recent window (acceptances o key) := by
        rw [sound.size, sliceLast_eq positive, stored_missing sound missing, rtake_of_length_le recent_length]
      rw [if_pos rfl, order]
      exact ⟨rfl, rfl, recent_nodup⟩
    · rw [if_neg (Nat.ne_of_lt (allocated key ref old))]
      exact sound.cached key ref old
  · rw [waiting] at idle
    rw [store, log, sound.saved key idle]
  · rw [store, log]
    exact sound.known key
  · rw [tail, done]
    exact sound.chain
  · rw [waiting]
    exact (congrArg (fun map => map.get? key) (guard (·.persisting))).trans (sound.counted key)
  · rw [waiting]
    by_cases same : key = fullKey
    · rw [same, fresh] at gone
      cases gone
    · cases held : (o.tabs ()).mem.get? key with
      | none => exact sound.pinned key held
      | some ref =>
        rcases ended ▸ endHydration_kept o () fullKey hydration (stored o fullKey) held same with kept | ⟨-, idle⟩
        · rw [kept] at gone
          cases gone
        · exact fun persists => absurd ((persisting_iff sound).mpr persists) (by simp [idle])
  · have before : (o.tabs ()).hydrating.get? key = some other ∧ key ≠ fullKey := by
      have same := congrArg (fun map => map.get? key) (guard (·.hydrating))
      rw [OrderedMap.get?_delete] at same
      rw [same] at under
      split at under
      · cases under
      · exact ⟨under, ‹_›⟩
    obtain ⟨absent, unended⟩ := sound.loading key other before.1
    constructor
    · cases held : (after.tabs ()).mem.get? key with
      | none => rfl
      | some ref =>
        rcases others key ref held with ⟨same, -⟩ | ⟨-, old⟩
        · exact absurd same before.2
        · exact absurd (old.symm.trans absent) (by simp)
    · have different : other ≠ hydration := fun same => before.2 (own key (same ▸ before.1))
      have still : after.hydrations.read other = o.hydrations.read other := by
        rw [← ended]
        exact (Heap.read_write _ _ _ _).trans (if_neg different)
      rw [still, unended]

theorem sound_recordAccept (held : (o.tabs ()).mem.get? fullKey = some ref) (fresh : ctr ∉ (o.windows.read ref).set)
    (apart : ∀ key, (o.tabs ()).mem.get? key = some ref → key = fullKey) :
    Sound window (o.recordAccept () fullKey ref ctr) := by
  have waiting := pending_recordAccept fullKey ref ctr sound.chain
  refine ⟨sound.size, fun key other there => ?_, fun key idle => ?_, fun key => ?_, ?_, fun key => ?_,
    fun key gone => ?_,
    sound.loading⟩
  · change (o.tabs ()).mem.get? key = some other at there
    change Mirrors window ((o.windows.write ref _).read other) _
    rw [Heap.read_write, acceptances_recordAccept]
    by_cases own : key = fullKey
    · subst own
      rw [if_pos rfl, if_pos (Option.some.inj (there.symm.trans held)), sound.size]
      exact (sound.cached key ref held).push fresh
    · rw [if_neg own, List.append_nil, if_neg fun same : other = ref => own (apart key (same ▸ there))]
      exact sound.cached key other there
  · rw [waiting, List.mem_append, not_or, List.mem_singleton] at idle
    rw [acceptances_recordAccept, if_neg idle.2, List.append_nil]
    exact sound.saved key idle.1
  · rw [acceptances_recordAccept]
    exact List.Subset.trans (sound.known key) (List.subset_append_left _ _)
  · change (o.tabs ()).persisted ≤ ((o.tabs ()).persistTail ++ [fullKey]).length
    rw [List.length_append]
    exact sound.chain.trans (Nat.le_add_right _ _)
  · change ((o.tabs ()).persisting.set fullKey (((o.tabs ()).persisting.get? fullKey).getD 0 + 1)).get? key = _
    rw [OrderedMap.get?_set, waiting, List.count_append, sound.counted]
    by_cases own : key = fullKey
    · subst own
      by_cases before : key ∈ pending o
      · simp [before]
      · simp [before, List.count_eq_zero_of_not_mem before]
    · simp [own, Ne.symm own, sound.counted]
  · change (o.tabs ()).mem.get? key = none at gone
    rw [waiting, List.mem_append, not_or, List.mem_singleton]
    refine ⟨sound.pinned key gone, ?_⟩
    rintro rfl
    exact absurd (gone.symm.trans held) (by simp)

theorem sound_merge (positive : window ≠ 0) (held : (o.tabs ()).mem.get? fullKey = some ref)
    (apart : ∀ key, (o.tabs ()).mem.get? key = some ref → key = fullKey) (read : seen ⊆ acceptances o fullKey) :
    Sound window (o.merge () fullKey ref seen) ∧
      stored (o.merge () fullKey ref seen) fullKey = recent window (acceptances o fullKey) := by
  have union : merged (o.tabs ()).window seen (o.windows.read ref).order = recent window (acceptances o fullKey) := by
    rw [sound.size, merged_eq positive, (sound.cached fullKey ref held).order, recent_absorb read]
  have store (key : String) : stored (o.merge () fullKey ref seen) key =
      if key = fullKey then recent window (acceptances o fullKey) else stored o key := by
    rw [stored_merge, union]
  refine ⟨⟨sound.size, fun key other there => ?_, fun key idle => ?_, fun key => ?_, sound.chain, sound.counted,
    sound.pinned, sound.loading⟩, by rw [store, if_pos rfl]⟩
  · change (o.tabs ()).mem.get? key = some other at there
    change Mirrors window ((o.windows.write ref _).read other) (acceptances o key)
    rw [Heap.read_write]
    split
    · rename_i own
      rw [apart key (own ▸ there), union]
      exact ⟨rfl, rfl, recent_nodup⟩
    · exact sound.cached key other there
  · rw [store]
    split
    · rename_i own
      rw [own]
      rfl
    · exact sound.saved key idle
  · rw [store]
    split
    · rename_i own
      rw [own]
      exact fun _ member => mem_of_recent member
    · exact sound.known key

theorem sound_releasePersist (head : pending o = fullKey :: (pending o).tail)
    (written : fullKey ∉ (pending o).tail → stored o fullKey = recent window (acceptances o fullKey)) :
    Sound window (o.releasePersist () fullKey) := by
  refine ⟨sound.size, sound.cached, fun key idle => ?_, sound.known, ?_, fun key => ?_, fun key gone =>
    ?_, sound.loading⟩
  · rw [pending_releasePersist] at idle
    by_cases own : key = fullKey
    · subst own
      exact written idle
    · apply sound.saved key
      rw [head, List.mem_cons, not_or]
      exact ⟨own, idle⟩
  · have positive : 0 < (pending o).length := by
      rw [head]
      exact Nat.succ_pos _
    rw [pending, List.length_drop] at positive
    change (o.tabs ()).persisted + 1 ≤ (o.tabs ()).persistTail.length
    omega
  · have count : (o.tabs ()).persisting.get? fullKey = some ((pending o).tail.count fullKey + 1) := by
      rw [sound.counted, head]
      simp
    have others : key ≠ fullKey → (o.tabs ()).persisting.get? key =
        if key ∈ (pending o).tail then some ((pending o).tail.count key) else none := by
      intro own
      rw [sound.counted, head]
      by_cases later : key ∈ (pending o).tail <;> simp [own, Ne.symm own, later]
    rw [pending_releasePersist]
    change ((o.tabs ()).releasePersisting fullKey).persisting.get? key = _
    rw [DurableReplayGuard.releasePersisting, count, Option.getD_some, Nat.add_sub_cancel]
    by_cases last : fullKey ∈ (pending o).tail
    · have positive := List.count_pos_iff.mpr last
      simp only [Nat.ne_of_gt positive, ↓reduceIte, OrderedMap.get?_set]
      by_cases own : key = fullKey
      · simp [own, last]
      · rw [if_neg own]
        exact others own
    · simp only [List.count_eq_zero_of_not_mem last, ↓reduceIte, OrderedMap.get?_delete]
      by_cases own : key = fullKey
      · simp [own, last]
      · rw [if_neg own]
        exact others own
  · rw [pending_releasePersist]
    exact fun persists => sound.pinned key gone (List.mem_of_mem_tail persists)

/-! ## What a step does to what other calls know -/

variable {point : GuardPoint} (fine : Fine window o key point)
include fine

omit sound in
theorem fine_beginHydration (idle : (o.tabs ()).hydrating.get? fullKey = none) :
    Fine window (o.beginHydration () fullKey) key point := by
  have under {hydration : Ref} (before : (o.tabs ()).hydrating.get? key = some hydration) :
      ((o.tabs ()).hydrating.set fullKey o.hydrations.next).get? key = some hydration := by
    rw [OrderedMap.get?_set, if_neg]
    · exact before
    · rintro rfl
      exact absurd (before.symm.trans idle) (by simp)
  cases point with
  | opening hydration => exact under fine
  | reading hydration read => exact ⟨under fine.1, fine.2⟩
  | _ => exact fine

theorem fine_endHydration (missing : (o.tabs ()).mem.get? fullKey = none)
    (own : (o.tabs ()).hydrating.get? fullKey = some hydration)
    (apart : mark o key point ≠ some (.inl hydration)) :
    Fine window (o.endHydration () fullKey hydration seen) key point := by
  obtain ⟨-, -, rest⟩ := endHydration_mem o () fullKey hydration seen
  have kept {ref : Ref} (held : (o.tabs ()).mem.get? key = some ref) (persists : key ∈ pending o) :
      ((o.endHydration () fullKey hydration seen).tabs ()).mem.get? key = some ref := by
    have other : key ≠ fullKey := by
      rintro rfl
      exact absurd (held.symm.trans missing) (by simp)
    rcases endHydration_kept o () fullKey hydration seen held other with kept | ⟨-, idle⟩
    · exact kept
    · exact absurd ((persisting_iff sound).mpr persists) (by simp [idle])
  generalize ended : o.endHydration () fullKey hydration seen = after at rest kept ⊢
  have guard {α : Type} (f : DurableReplayGuard → α) := congrArg f rest
  have tail : (after.tabs ()).persistTail = (o.tabs ()).persistTail := guard (·.persistTail)
  have done : (after.tabs ()).persisted = (o.tabs ()).persisted := guard (·.persisted)
  have store : stored after key = stored o key := by rw [← ended]; rfl
  have log : acceptances after key = acceptances o key := by rw [← ended]; rfl
  have under {other : Ref} (before : (o.tabs ()).hydrating.get? key = some other) (different : other ≠ hydration) :
      (after.tabs ()).hydrating.get? key = some other := by
    have same := congrArg (fun map => map.get? key) (guard (·.hydrating))
    rw [OrderedMap.get?_delete, if_neg] at same
    · exact same.trans before
    · rintro rfl
      exact different (Option.some.inj (before.symm.trans own))
  cases point with
  | opening other => exact under fine fun same => apart (congrArg (fun h => some (Sum.inl h)) same)
  | reading other read =>
    exact ⟨under fine.1 fun same => apart (congrArg (fun h => some (Sum.inl h)) same), fine.2.trans store.symm⟩
  | chained ref link =>
    obtain ⟨held, later, named⟩ := fine
    refine ⟨kept held (mem_pending later named), ?_, ?_⟩
    · rw [done]
      exact later
    · rw [tail]
      exact named
  | persisting ref stage =>
    obtain ⟨held, named, known⟩ := fine
    refine ⟨kept held (mem_pending (le_refl _) named), ?_, ?_⟩
    · rw [tail, done]
      exact named
    · have waiting : pending after = pending o := by rw [pending, tail, done, pending]
      rw [waiting, store, log]
      exact known
  | _ => trivial

theorem fine_recordAccept : Fine window (o.recordAccept () fullKey ref ctr) key point := by
  have named {link : ℕ} (before : (o.tabs ()).persistTail[link]? = some key) :
      ((o.tabs ()).persistTail ++ [fullKey])[link]? = some key := by
    rw [List.getElem?_append_left (List.getElem?_eq_some_iff.mp before).1]
    exact before
  cases point with
  | chained other link => exact ⟨fine.1, fine.2.1, named fine.2.2⟩
  | persisting other stage =>
    obtain ⟨held, before, known⟩ := fine
    refine ⟨held, named before, ?_⟩
    have saved (written : key ∉ (pending o).tail → stored o key = recent window (acceptances o key)) :
        key ∉ (pending (o.recordAccept () fullKey ref ctr)).tail →
          stored o key = recent window (acceptances (o.recordAccept () fullKey ref ctr) key) := by
      intro idle
      rw [pending_recordAccept _ _ _ sound.chain, pending_head before, List.cons_append, List.tail_cons,
        List.mem_append,
        not_or, List.mem_singleton] at idle
      rw [acceptances_recordAccept, if_neg idle.2, List.append_nil]
      exact written idle.1
    cases stage with
    | merging read =>
      change read ⊆ acceptances (o.recordAccept () fullKey ref ctr) key
      rw [acceptances_recordAccept]
      exact List.Subset.trans known (List.subset_append_left _ _)
    | written => exact saved known
    | unlocked => exact saved known
    | _ => trivial
  | _ => exact fine

theorem fine_merge (held : (o.tabs ()).mem.get? fullKey = some ref)
    (apart : mark o key point ≠ some (.inr (o.tabs ()).persisted)) :
    Fine window (o.merge () fullKey ref seen) key point := by
  cases point with
  | reading hydration read =>
    refine ⟨fine.1, ?_⟩
    rw [stored_merge, if_neg]
    · exact fine.2
    · rintro rfl
      exact absurd (held.symm.trans (sound.loading key hydration fine.1).1) (by simp)
  | persisting other stage => exact absurd rfl apart
  | _ => exact fine

omit sound in
theorem fine_releasePersist (apart : mark o key point ≠ some (.inr (o.tabs ()).persisted)) :
    Fine window (o.releasePersist () fullKey) key point := by
  cases point with
  | chained other link =>
    obtain ⟨held, later, named⟩ := fine
    have different : link ≠ (o.tabs ()).persisted := fun same => apart (congrArg (fun l => some (Sum.inr l)) same)
    exact ⟨held, Nat.lt_of_le_of_ne later (Ne.symm different), named⟩
  | persisting other stage => exact absurd rfl apart
  | _ => exact fine

end Effects

end Steps

/-! ## Steps -/

/-- From here on an accept has recorded its counter, or has found it recorded. -/
def pastRecord : GuardStatus Unit → Bool
  | .finished _ => true
  | .suspended (.within _ _ _ (.chained _ _)) => true
  | .suspended (.within _ _ _ (.persisting _ _)) => true
  | .suspended (.within _ _ _ .settled) => true
  | _ => false

def Recorded (o : Origin Unit) (call : Call Unit) (fullKey : String) (status : GuardStatus Unit) : Prop :=
  ∀ tab key ctr, call = .accept tab key ctr → pastRecord status = true → ctr ∈ acceptances o fullKey

structure Caching {ι : Type} (calls : ι → Call Unit) (keys : ι → String) (window : ℕ) (o : Origin Unit)
    (statuses : ι → GuardStatus Unit) : Prop where
  sound : Sound window o
  past : ∀ key ref, Window o key ref → Since window [] o key ref
  fine : ∀ c point, statuses c = .suspended ((calls c).site (keys c) point) → Fine window o (keys c) point
  alone : Exclusive calls keys (mark o) statuses
  recorded : ∀ c, Recorded o (calls c) (keys c) (statuses c)

/-- What is recorded goes into the cache. -/
theorem recording_cached {o : Origin Unit} {call : Call Unit} {tab : Unit} {key fullKey : String} {ctr : ℕ}
    {point : GuardPoint} {ref : Ref} (cached : recordsCached call (call.site fullKey point) o)
    (is : call = .accept tab key ctr) (handed : o.windowAt point = some ref) (fresh : ctr ∉ (o.windows.read ref).set) :
    (o.tabs ()).mem.get? fullKey = some ref := by
  apply cached (fullKey, ref)
  rw [is]
  simp [recording?, Call.site, handed, fresh]

/-- A step, and what is known before it. -/
structure Turn {ι : Type} (calls : ι → Call Unit) (keys : ι → String) (window : ℕ) (o : Origin Unit)
    (statuses : ι → GuardStatus Unit) (c : ι) (site : GuardSite Unit) (status : GuardStatus Unit) (o' : Origin Unit) :
    Prop where
  caching : Caching calls keys window o statuses
  owned : Owned calls keys o statuses
  noClear : (calls c).caller ≠ .clear
  waits : statuses c = .suspended site
  cached : recordsCached (calls c) site o
  step : Step (calls c) (keys c) site o status o'

section Turns
variable {ι : Type} {calls : ι → Call Unit} {keys : ι → String} {window : ℕ} {o o' : Origin Unit}
  {statuses : ι → GuardStatus Unit} {c : ι} {site : GuardSite Unit} {status : GuardStatus Unit}
  (turn : Turn calls keys window o statuses c site status o')
include turn

theorem turn_sound (positive : window ≠ 0) : Sound window o' := by
  obtain ⟨caching, owned, noClear, waits, cached, step⟩ := turn
  have sound := caching.sound
  have same {key key' : String} {ref : Ref} (held : (o.tabs ()).mem.get? key = some ref)
      (there : (o.tabs ()).mem.get? key' = some ref) : key' = key :=
    (owned.cached () key' ref there).2.symm.trans (owned.cached () key ref held).2
  cases step with
  | begins _ missing =>
    exact sound_beginHydration sound missing fun key hydration under => (owned.hydrating () key hydration under).1
  | ends =>
    obtain ⟨under, read⟩ := caching.fine c _ waits
    subst read
    refine sound_endHydration sound positive (sound.loading _ _ under).1
      (fun key ref held => (owned.cached () key ref held).1) fun key other => ?_
    exact (owned.hydrating () key _ other).2.symm.trans (owned.hydrating () (keys c) _ under).2
  | records is handed fresh =>
    have held := recording_cached cached is handed fresh
    exact sound_recordAccept sound held fresh fun key there => same held there
  | merges =>
    obtain ⟨held, -, known⟩ := caching.fine c _ waits
    exact (sound_merge sound positive held (fun key there => same held there) known).1
  | releases =>
    obtain ⟨-, named, written⟩ := caching.fine c _ waits
    exact sound_releasePersist sound (pending_head named) written
  | opens is | deletes is | forgets is => exact absurd is noClear
  | locks | unlocks => exact { sound with }
  | _ => exact sound

/-- Whatever a step writes to is in the cache. -/
theorem turn_read {ref : Ref} (allocated : ref < o.windows.next) :
    o'.windows.read ref = o.windows.read ref ∨ (o'.tabs ()).mem.get? (keys c) = some ref := by
  obtain ⟨caching, -, -, waits, cached, step⟩ := turn
  have written {own : Ref} {win : MemWindow} (held : (o.tabs ()).mem.get? (keys c) = some own) :
      (o.windows.write own win).read ref = o.windows.read ref ∨ (o.tabs ()).mem.get? (keys c) = some ref := by
    rw [Heap.read_write]
    by_cases same : ref = own
    · exact .inr (same ▸ held)
    · exact .inl (if_neg same)
  cases step with
  | ends => exact .inl ((Heap.read_alloc _ _ _).trans (if_neg (Nat.ne_of_lt allocated)))
  | records is handed fresh => exact written (recording_cached cached is handed fresh)
  | merges => exact written (caching.fine c _ waits).1
  | _ => exact .inl rfl

theorem turn_handed {point : GuardPoint} {ref : Ref} (here : site = (calls c).site (keys c) point)
    (handed : o.windowAt point = some ref) : Since window [] o (keys c) ref :=
  turn.caching.past (keys c) ref (handed_window turn.owned (here ▸ turn.waits) handed)

/-- The call knows what its step has led to. -/
theorem turn_fine (positive : window ≠ 0) (point : GuardPoint)
    (here : status = .suspended ((calls c).site (keys c) point)) : Fine window o' (keys c) point := by
  obtain ⟨caching, owned, noClear, waits, cached, step⟩ := turn
  have sound := caching.sound
  have fine := caching.fine c
  cases step with
  | cached | joins | ends | releases => cases here; trivial
  | begins =>
    cases here
    change ((o.tabs ()).hydrating.set (keys c) o.hydrations.next).get? (keys c) = _
    rw [OrderedMap.get?_set, if_pos rfl]
  | reads =>
    cases here
    exact ⟨fine _ waits, rfl⟩
  | records is handed fresh =>
    cases here
    have held := recording_cached cached is handed fresh
    refine ⟨held, sound.chain, ?_⟩
    change ((o.tabs ()).persistTail ++ [keys c])[(o.tabs ()).persistTail.length]? = some (keys c)
    rw [List.getElem?_append_right (le_refl _), Nat.sub_self, List.getElem?_cons_zero]
  | dequeues _ next =>
    cases here
    obtain ⟨held, -, named⟩ := fine _ waits
    exact ⟨held, by rw [next]; exact named, trivial⟩
  | locks | unlocks =>
    cases here
    exact fine _ waits
  | rereads =>
    cases here
    obtain ⟨held, named, -⟩ := fine _ waits
    exact ⟨held, named, sound.known _⟩
  | merges =>
    cases here
    obtain ⟨held, named, known⟩ := fine _ waits
    have own (key : String) (there : (o.tabs ()).mem.get? key = some _) : key = keys c :=
      (owned.cached () key _ there).2.symm.trans (owned.cached () (keys c) _ held).2
    exact ⟨held, named, fun _ => (sound_merge sound positive held own known).2⟩
  | opens is | deletes is | forgets is => exact absurd is noClear
  | answers | known | settles => cases here

/-- So do the other calls. -/
theorem turn_others (other : ι) (point : GuardPoint) (others : other ≠ c)
    (here : statuses other = .suspended ((calls other).site (keys other) point)) :
    Fine window o' (keys other) point := by
  obtain ⟨caching, owned, noClear, waits, cached, step⟩ := turn
  have sound := caching.sound
  have fine := caching.fine other point here
  cases step with
  | begins _ _ idle => exact fine_beginHydration fine idle
  | ends =>
    obtain ⟨under, -⟩ := caching.fine c _ waits
    exact fine_endHydration sound fine (sound.loading _ _ under).1 under
      (caching.alone.apart waits rfl other point others here)
  | records => exact fine_recordAccept sound fine
  | merges =>
    obtain ⟨held, -⟩ := caching.fine c _ waits
    exact fine_merge sound fine held (caching.alone.apart waits rfl other point others here)
  | releases => exact fine_releasePersist fine (caching.alone.apart waits rfl other point others here)
  | opens is | deletes is | forgets is => exact absurd is noClear
  | _ => exact fine

theorem turn_alone [DecidableEq ι] : Exclusive calls keys (mark o') (Function.update statuses c status) := by
  obtain ⟨caching, owned, noClear, waits, cached, step⟩ := turn
  refine exclusive_update caching.alone (fun other point a others here marked => ?_) fun point a here
    marked other point'
    others there => ?_
  · cases step with
    | releases =>
      have apart := caching.alone.apart waits rfl other point others here
      cases point with
      | persisting => exact absurd rfl apart
      | _ => exact marked
    | @ends hydration seen =>
      obtain ⟨-, -, rest⟩ := endHydration_mem o () (keys c) hydration seen
      have done := congrArg DurableReplayGuard.persisted rest
      cases point with
      | persisting => exact (congrArg (fun link => some (Sum.inr link)) done).symm.trans marked
      | _ => exact marked
    | _ => exact marked
  · have linked {link : ℕ} (marked' : mark o (keys other) point' = some (.inr link)) :
        link < (o.tabs ()).persistTail.length := by
      have fine := caching.fine other point' there
      cases point' with
      | chained =>
        cases marked'
        exact (List.getElem?_eq_some_iff.mp fine.2.2).1
      | persisting =>
        cases marked'
        exact (List.getElem?_eq_some_iff.mp fine.2.1).1
      | _ => cases marked'
    have hydrated {hydration : Ref} (marked' : mark o (keys other) point' = some (.inl hydration)) :
        hydration < o.hydrations.next := by
      cases point' with
      | opening | reading =>
        cases marked'
        exact (owned.followed other _ hydration there rfl).1
      | _ => cases marked'
    cases step with
    | begins =>
      cases here
      cases marked
      exact fun marked' => absurd (hydrated marked') (lt_irrefl _)
    | records =>
      cases here
      cases marked
      exact fun marked' => absurd (linked marked') (lt_irrefl _)
    | dequeues _ next =>
      cases here
      cases marked
      exact caching.alone.apart waits (congrArg (fun link => some (Sum.inr link)) next.symm) other point' others there
    | reads | locks | rereads | merges | unlocks =>
      cases here
      cases marked
      exact caching.alone.apart waits rfl other point' others there
    | opens is | deletes is | forgets is => exact absurd is noClear
    | answers | known | settles => cases here
    | cached | joins | ends | releases =>
      cases here
      cases marked

/-- A counter that an accept has got past is among those accepted. -/
theorem turn_recorded [DecidableEq ι] (other : ι) :
    Recorded o' (calls other) (keys other) (Function.update statuses c status other) := by
  intro tab key ctr is past
  have grown := step_acceptances turn.step (keys other)
  by_cases own : other = c
  · subst own
    rw [Function.update_self] at past
    have before := turn.caching.recorded other tab key ctr is
    have handed (point : GuardPoint) (ref : Ref) (here : site = (calls other).site (keys other) point)
        (there : o.windowAt point = some ref) := turn_handed turn here there
    obtain ⟨caching, owned, noClear, waits, cached, step⟩ := turn
    rw [waits] at before
    cases step with
    | known is' there old =>
      obtain ⟨log, -, until_, mirrors⟩ := handed _ _ rfl there
      cases is.symm.trans is'
      rw [mirrors.agrees.set, List.mem_toFinset, mirrors.order] at old
      exact until_.subset (mem_of_recent old)
    | records is' =>
      cases is.symm.trans is'
      rw [acceptances_recordAccept, if_pos rfl]
      exact List.mem_append_right _ List.mem_cons_self
    | answers is' => cases is.symm.trans is'
    | dequeues | locks | rereads | merges | unlocks | releases | settles => exact grown.subset (before rfl)
    | opens is | deletes is | forgets is => exact absurd is noClear
    | _ => cases past
  · rw [Function.update_of_ne own] at past
    exact grown.subset (turn.caching.recorded other tab key ctr is past)

/-- A window that has been recent since some time is one that has still. -/
theorem turn_since [DecidableEq ι] (positive : window ≠ 0) {base : List ℕ} {key : String} {ref : Ref}
    (window_ : Window o key ref) (since : Since window base o key ref) : Since window base o' key ref := by
  obtain ⟨log, before, until_, mirrors⟩ := since
  have grown := step_acceptances turn.step key
  rcases turn_read turn window_.1 with same | held
  · exact ⟨log, before, until_.trans grown, same ▸ mirrors⟩
  · have owned := step_owned turn.owned turn.waits turn.step
    obtain rfl : keys c = key := (owned.cached () _ ref held).2.symm.trans (step_window turn.step window_).2
    exact ⟨_, before.trans (until_.trans grown), List.prefix_rfl, (turn_sound turn positive).cached _ ref held⟩

theorem turn_past [DecidableEq ι] (positive : window ≠ 0) (key : String) (ref : Ref) (window_ : Window o' key ref) :
    Since window [] o' key ref := by
  have owned := step_owned turn.owned turn.waits turn.step
  by_cases old : ref < o.windows.next
  · have before : Window o key ref := ⟨old, (step_window turn.step ⟨old, rfl⟩).2.symm.trans window_.2⟩
    exact turn_since turn positive before (turn.caching.past key ref before)
  · -- only the end of a hydration makes a window, and puts it into the cache
    have new : (o'.tabs ()).mem.get? (keys c) = some ref := by
      have step := turn.step
      cases step with
      | @ends hydration seen =>
        have last : ref < o.windows.next + 1 := window_.1
        rw [Nat.le_antisymm (Nat.lt_succ_iff.mp last) (Nat.not_lt.mp old)]
        exact (endHydration_mem o () (keys c) hydration seen).1
      | _ => exact absurd window_.1 old
    obtain rfl : keys c = key := (owned.cached () _ ref new).2.symm.trans window_.2
    exact ⟨_, List.nil_prefix, List.prefix_rfl, (turn_sound turn positive).cached _ ref new⟩

/-- Every step of a call that records in the cache keeps all that is known. -/
theorem turn_caching [DecidableEq ι] (positive : window ≠ 0) :
    Caching calls keys window o' (Function.update statuses c status) :=
  ⟨turn_sound turn positive, turn_past turn positive, everywhere_update (turn_others turn) (turn_fine turn positive),
    turn_alone turn, turn_recorded turn⟩

end Turns

/-! ## A check -/

/-- What a check that started after some counters were accepted has found out. -/
def Looking (window : ℕ) (base : List ℕ) (o : Origin Unit) (call : Call Unit) (fullKey : String)
    (status : GuardStatus Unit) :
    Prop :=
  base <+: acceptances o fullKey ∧ ∀ tab key ctr, call = .check tab key ctr →
    (∀ point ref, status = .suspended (call.site fullKey point) → o.windowAt point = some ref →
      Since window base o fullKey ref) ∧
    (∀ hydration, status = .suspended (call.site fullKey (.inFlight hydration)) →
      (o.hydrations.read hydration).window = none → (o.tabs ()).hydrating.get? fullKey = some hydration) ∧
    (status = .finished (some true) → ∃ log, base <+: log ∧ log <+: acceptances o fullKey ∧ ctr ∉ recent window log)

section Looking
variable {ι : Type} [DecidableEq ι] {calls : ι → Call Unit} {keys : ι → String} {window : ℕ} {o o' : Origin Unit}
  {statuses : ι → GuardStatus Unit} {c : ι} {site : GuardSite Unit} {status : GuardStatus Unit} {base : List ℕ}

omit [DecidableEq ι] in
/-- A window that is in the cache now has been recent ever since. -/
theorem cached_since (sound : Sound window o) {key : String} {ref : Ref} (grown : base <+: acceptances o key)
    (held : (o.tabs ()).mem.get? key = some ref) : Since window base o key ref :=
  ⟨_, grown, List.prefix_rfl, sound.cached key ref held⟩

omit [DecidableEq ι] in
/-- Its own steps. -/
theorem turn_looking (turn : Turn calls keys window o statuses c site status o') (positive : window ≠ 0)
    (looking : Looking window base o (calls c) (keys c) (statuses c)) :
    Looking window base o' (calls c) (keys c) status := by
  obtain ⟨grown, found⟩ := looking
  have grown' := grown.trans (step_acceptances turn.step (keys c))
  refine ⟨grown', fun tab key ctr is => ?_⟩
  have sound := turn.caching.sound
  have sound' := turn_sound turn positive
  obtain ⟨handed, -, -⟩ := found tab key ctr is
  obtain ⟨caching, owned, noClear, waits, cached, step⟩ := turn
  refine ⟨fun point ref here there => ?_, fun hydration here ended => ?_, fun answered => ?_⟩
  · cases step with
    | cached _ held =>
      cases here
      cases there
      exact cached_since sound grown held
    | joins _ _ under =>
      cases here
      exact absurd (there.symm.trans (sound.loading _ _ under).2) (by simp)
    | @ends hydration seen =>
      cases here
      cases there
      exact cached_since sound' grown' (endHydration_mem o () (keys c) hydration seen).1
    | answers | known | settles | forgets => cases here
    | _ =>
      cases here
      cases there
  · cases step with
    | joins _ _ under =>
      cases here
      exact under
    | _ => cases here
  · cases step with
    | answers is' there =>
      cases is.symm.trans is'
      obtain ⟨log, before, until_, mirrors⟩ := handed _ _ waits there
      have unseen := of_decide_eq_true (Option.some.inj (Status.finished.inj answered))
      rw [mirrors.agrees.set, List.mem_toFinset, mirrors.order] at unseen
      exact ⟨log, before, until_, unseen⟩
    | known is' => cases is.symm.trans is'
    | _ => cases answered

/-- Steps of other calls. -/
theorem turn_overlooked (turn : Turn calls keys window o statuses c site status o') (positive : window ≠ 0) {other : ι}
    (looking : Looking window base o (calls other) (keys other) (statuses other)) :
    Looking window base o' (calls other) (keys other) (statuses other) := by
  obtain ⟨grown, found⟩ := looking
  have more := step_acceptances turn.step (keys other)
  have grown' := grown.trans more
  refine ⟨grown', fun tab key ctr is => ?_⟩
  obtain ⟨handed, under, answered⟩ := found tab key ctr is
  have sound := turn.caching.sound
  have sound' := turn_sound turn positive
  have onward {ref : Ref} (window_ : Window o (keys other) ref) (since : Since window base o (keys other) ref) :
      Since window base o' (keys other) ref := turn_since turn positive window_ since
  have owned := turn.owned
  refine ⟨fun point ref here there => ?_, fun hydration here unended => ?_, fun found => ?_⟩
  · by_cases before : o.windowAt point = some ref
    · exact onward (handed_window owned here before) (handed point ref here before)
    · -- the hydration that the check waits for has ended in this step
      cases point with
      | inFlight hydration =>
        obtain ⟨allocated, named⟩ := owned.followed other _ hydration here rfl
        obtain ⟨-, -, -, waits, -, step⟩ := turn
        cases step with
        | begins =>
          change ((o.hydrations.alloc _).read hydration).window = some ref at there
          rw [Heap.read_alloc, if_neg (Nat.ne_of_lt allocated)] at there
          exact absurd there before
        | @ends own seen =>
          change ((o.hydrations.write own _).read hydration).window = some ref at there
          rw [Heap.read_write] at there
          split at there
          · rename_i same
            have equal : keys other = keys c := named.symm.trans (same ▸ (owned.followed c _ own waits rfl).2)
            cases there
            rw [equal] at grown' ⊢
            exact cached_since sound' grown' (endHydration_mem o () (keys c) own seen).1
          · exact absurd there before
        | _ => exact absurd there before
      | hydrated => exact absurd there before
      | _ => cases there
  · obtain ⟨allocated, -⟩ := owned.followed other _ hydration here rfl
    obtain ⟨caching, -, noClear, waits, -, step⟩ := turn
    cases step with
    | begins _ _ idle =>
      change ((o.hydrations.alloc _).read hydration).window = none at unended
      rw [Heap.read_alloc, if_neg (Nat.ne_of_lt allocated)] at unended
      have before := under hydration here unended
      change ((o.tabs ()).hydrating.set (keys c) o.hydrations.next).get? (keys other) = _
      rw [OrderedMap.get?_set, if_neg]
      · exact before
      · intro same
        rw [same, idle] at before
        cases before
    | @ends own seen =>
      change ((o.hydrations.write own _).read hydration).window = none at unended
      rw [Heap.read_write] at unended
      split at unended
      · cases unended
      · rename_i different
        have before := under hydration here unended
        obtain ⟨-, -, rest⟩ := endHydration_mem o () (keys c) own seen
        have same := congrArg (fun guard : DurableReplayGuard => guard.hydrating.get? (keys other)) rest
        rw [OrderedMap.get?_delete, if_neg] at same
        · exact same.trans before
        · intro equal
          rw [equal, (caching.fine c _ waits).1] at before
          exact different (Option.some.inj before).symm
    | opens is | deletes is | forgets is => exact absurd is noClear
    | _ => exact under hydration here unended
  · obtain ⟨log, before, until_, unseen⟩ := answered found
    exact ⟨log, before, until_.trans more, unseen⟩

end Looking

/-! ## Runs -/

section Runs
variable {ι : Type} [DecidableEq ι]

/-- The other counters accepted for a key since a counter was, as of an earlier time. -/
def acceptedSince (ctr : ℕ) (before now : Origin Unit) (fullKey : String) : List ℕ :=
  ((newer ctr (acceptances before fullKey) ++
    (acceptances now fullKey).drop (acceptances before fullKey).length).filter (· ≠ ctr)).dedup

/-- A check that starts once a counter is accepted takes it for a new one only after
as many others have been accepted as the guard remembers. -/
def RefusesAccepted (gate : GuardPool ι Unit → ι → GuardPool ι Unit → Prop) (window : ℕ) (start : Origin Unit)
    (calls : ι → Call Unit) : Prop :=
  ∀ middle last accepting checking key ctr, calls accepting = .accept () key ctr → calls checking = .check () key ctr →
    Runs gate (launch start calls) middle → middle.statuses accepting = .finished none →
    middle.statuses checking = .suspended .start → Runs gate middle last →
    last.statuses checking = .finished (some true) →
    window ≤ (acceptedSince ctr middle.shared last.shared ((start.tabs ()).storeKey key)).length

/-- Every accept that records its counter does so in the cache. -/
def allRecordCached (calls : ι → Call Unit) : GuardPool ι Unit → ι → GuardPool ι Unit → Prop :=
  fun before c => whereAllowed (recordsCached (calls c)) before c

instance (calls : ι → Call Unit) (before : GuardPool ι Unit) (c : ι) (after : GuardPool ι Unit) :
    Decidable (allRecordCached calls before c after) :=
  inferInstanceAs (Decidable (whereAllowed (recordsCached (calls c)) before c after))

/-- **No false acceptance.** As long as accepts record their counters in windows
that the cache has, a check does not take an accepted counter for a new one. -/
theorem guard_refuses_accepted (namespace_ : String) {window : ℕ} (positive : window ≠ 0)
    (store : OrderedMap String (List ℕ)) (accepted : List (String × ℕ))
    (remembered : ∀ fullKey, (store.get? fullKey).getD [] = recent window (entriesOf fullKey accepted))
    {calls : ι → Call Unit} (noClear : ∀ c, (calls c).caller ≠ .clear) :
    RefusesAccepted (allRecordCached calls) window (reopened namespace_ window store accepted) calls := by
  intro middle last accepting checking key ctr isAccept isCheck early ended waits late answered
  have begins : Caching calls (storeKeys namespace_ window calls) window (reopened namespace_ window store accepted)
      fun _ => .suspended .start := by
    refine ⟨⟨rfl, ?_, fun key _ => remembered key, fun key => ?_, le_refl _, fun _ => rfl,
      fun _ _ => List.not_mem_nil, ?_⟩,
      ?_, ?_, ?_, ?_⟩
    · intro key ref held
      cases held
    · rw [stored, reopened, remembered]
      exact fun _ member => mem_of_recent member
    · intro key hydration under
      cases under
    · intro key ref window_
      exact absurd window_.1 (Nat.not_lt_zero _)
    · intro c point here
      cases here
    · intro first second point point' a here
      cases here
    · intro c tab key ctr _ past
      cases past
  obtain ⟨stepping, caching⟩ := runs_step (Caching calls (storeKeys namespace_ window calls) window)
    (reopened_stepping namespace_ positive store accepted calls) begins
    (fun before c site after _ owned caching waits passes step =>
      turn_caching ⟨caching, owned, noClear c, waits, passes site waits, step⟩ positive) early
  have keyed (c : ι) (named : (calls c).key = key) :
      storeKeys namespace_ window calls c = ((reopened namespace_ window store accepted).tabs ()).storeKey key := by
    rw [← named]
    rfl
  have recorded : ctr ∈ acceptances middle.shared (storeKeys namespace_ window calls accepting) :=
    caching.recorded accepting () key ctr isAccept (by rw [ended]; rfl)
  rw [keyed accepting (by rw [isAccept]; rfl), ← keyed checking (by rw [isCheck]; rfl)] at recorded
  have looking : Looking window (acceptances middle.shared (storeKeys namespace_ window calls checking)) middle.shared
      (calls checking) (storeKeys namespace_ window calls checking) (middle.statuses checking) := by
    refine ⟨List.prefix_rfl, fun _ _ _ _ => ⟨fun point ref here => ?_, fun hydration here => ?_, fun found => ?_⟩⟩
    · rw [waits] at here
      cases here
    · rw [waits] at here
      cases here
    · rw [waits] at found
      cases found
  obtain ⟨-, -, looked⟩ :=
    runs_step (fun o statuses => Caching calls (storeKeys namespace_ window calls) window o statuses ∧
      Looking window (acceptances middle.shared (storeKeys namespace_ window calls checking)) o (calls checking)
        (storeKeys namespace_ window calls checking) (statuses checking)) stepping ⟨caching, looking⟩
    (fun before c site after _ owned holds waits passes step => by
      have turn : Turn calls (storeKeys namespace_ window calls) window before.shared before.statuses c site
          (after.statuses c) after.shared := ⟨holds.1, owned, noClear c, waits, passes site waits, step⟩
      refine ⟨turn_caching turn positive, ?_⟩
      by_cases own : checking = c
      · subst own
        rw [Function.update_self]
        exact turn_looking turn positive holds.2
      · rw [Function.update_of_ne own]
        exact turn_overlooked turn positive holds.2) late
  obtain ⟨log, grown, until_, unseen⟩ := (looked.2 () key ctr isCheck).2.2 answered
  rw [← keyed checking (by rw [isCheck]; rfl)]
  exact forgotten_since recorded grown until_ unseen

end Runs

section Checked

/-! A run with a counter that is recorded in the cache, and then with another one. -/

def newerFirst : Fin 3 → Call Unit
  | 0 => .accept () "room" 7
  | 1 => .accept () "room" 8
  | 2 => .check () "room" 7

theorem guard_refuses_until_forgotten : ∃ middle last : GuardPool (Fin 3) Unit,
    middle.statuses 0 = .finished none ∧ last.statuses 2 = .finished (some true) ∧
      1 ≤ (acceptedSince 7 middle.shared last.shared "sframe-replay|app|room").length := by
  have result : ((launch (opened "app" 1) newerFirst).followPassing (allRecordCached newerFirst)
      (List.replicate 11 0)).bind (fun middle =>
        (middle.followPassing (allRecordCached newerFirst) (List.replicate 9 1 ++ [2, 2])).map fun last =>
          (middle.statuses 0, middle.statuses 2, last.statuses 2)) =
      some (.finished none, .suspended .start, .finished (some true)) := by
    decide +kernel
  obtain ⟨middle, early, onward⟩ := Option.bind_eq_some_iff.mp result
  obtain ⟨last, late, shape⟩ := Option.map_eq_some_iff.mp onward
  simp only [Prod.mk.injEq] at shape
  exact ⟨middle, last, shape.1, shape.2.2, guard_refuses_accepted "app" (by decide) ∅ [] (fun _ => rfl) (by decide)
    middle last 0 2 "room" 7 rfl rfl (followPassing_runs early) shape.1 shape.2.1 (followPassing_runs late) shape.2.2⟩

/-! A run that fills the cache, and then one that lets a window go from it. -/

/-- A short name for every number. -/
def name (n : ℕ) : String := String.ofList (List.replicate (n / 16) 'x' ++ List.replicate (n % 16) 'y')

def fullName (n : ℕ) : String := ((opened "app" 1 : Origin Unit).tabs ()).storeKey (name n)

theorem fullName_injective : Function.Injective fullName := by
  intro n other same
  have named := storeKey_injective _ same
  have long := congrArg (fun text => text.toList.count 'x') named
  have short := congrArg (fun text => text.toList.count 'y') named
  simp only [name, String.toList_ofList, List.count_append, List.count_replicate] at long short
  simp only [beq_self_eq_true, ↓reduceIte, Char.reduceBEq, Bool.false_eq_true, Nat.add_zero, Nat.zero_add] at long short
  omega

/-- The cache has a window for each of the first names. -/
def namedWindows (n : ℕ) : OrderedMap String Ref :=
  ⟨(List.range n).map fun i => (fullName i, i), by
    rw [List.map_map]
    exact List.nodup_range.map fullName_injective⟩

theorem namedWindows_get? {n other : ℕ} (later : n ≤ other) : (namedWindows n).get? (fullName other) = none := by
  rw [← Option.not_isSome_iff_eq_none, ← OrderedMap.mem_keys]
  simp only [namedWindows, OrderedMap.keys, List.map_map, List.mem_map, List.mem_range, Function.comp_apply, not_exists,
    not_and]
  intro earlier below same
  have := fullName_injective same
  omega

theorem namedWindows_set (n : ℕ) : (namedWindows n).set (fullName n) n = namedWindows (n + 1) := by
  have absent : fullName n ∉ (namedWindows n).entries.map Prod.fst := by
    have missing := namedWindows_get? (le_refl n)
    rw [← Option.not_isSome_iff_eq_none, ← OrderedMap.mem_keys] at missing
    exact missing
  refine OrderedMap.ext_entries ((OrderedMap.store_absent absent).trans ?_)
  simp [namedWindows, List.range_succ]

/-- A guard that has hydrated the first names, one after the other. -/
def filled : ℕ → Origin Unit
  | 0 => opened "app" 1
  | n + 1 => ((filled n).beginHydration () (fullName n)).endHydration () (fullName n) (filled n).hydrations.next []

theorem filled_eq {n : ℕ} (fits : n ≤ replayMemCacheCap) :
    (filled n).tabs () = { namespace_ := "app", window := 1, mem := namedWindows n } ∧ (filled n).windows.next = n ∧
      (filled n).store = ∅ := by
  induction n with
  | zero => exact ⟨rfl, rfl, rfl⟩
  | succ n ih =>
    obtain ⟨guard, next, store⟩ := ih (Nat.le_of_succ_le fits)
    refine ⟨?_, congrArg (· + 1) next, store⟩
    have small : (namedWindows (n + 1)).keys.length ≤ replayMemCacheCap := by
      simpa [namedWindows, OrderedMap.keys] using fits
    simp only [filled, Origin.endHydration, Origin.beginHydration, atTab_tabs, atTab_windows, guard,
      next, namedWindows_set]
    rw [trimMemCache_small _ _ small, OrderedMap.delete_set_empty]

/-- The checks that fill the cache; then an accept for the first name, while a check
for another name lets the window go and a check for the first one reads it anew;
and at last a check for what was accepted. -/
def losing (c : ℕ) : Call Unit :=
  if c < 256 then .check () (name c) 0
  else if c = 256 then .accept () (name 0) 7
  else if c = 257 then .check () (name 256) 0
  else if c = 258 then .check () (name 0) 0
  else .check () (name 0) 7

/-- The first calls have ended. -/
def filledPool (n : ℕ) : GuardPool ℕ Unit :=
  ⟨filled n, fun c => if c < n then .pure (some true) else (launch (filled n) losing).calls c⟩

theorem filled_solo {n : ℕ} (fits : n < replayMemCacheCap) :
    (losing n).program.solo (filled n) = some (some true, filled (n + 1)) := by
  obtain ⟨guard, next, store⟩ := filled_eq (Nat.le_of_lt fits)
  have below : n < 256 := fits
  have missing : (namedWindows n).get? (fullName n) = none := namedWindows_get? (le_refl n)
  have named : ((filled n).tabs ()).storeKey (name n) = fullName n := by rw [guard]; rfl
  have read : stored (filled n) (fullName n) = [] := by rw [stored, store]; rfl
  have hydrated := solo_hydrate_missing (filled n) () (fullName n) .check (by rw [guard]; exact missing)
    (by rw [guard]; rfl)
  rw [read] at hydrated
  have unseen : ((filled (n + 1)).windows.read (filled n).windows.next).set = ∅ := by
    change (((filled n).windows.alloc _).read _).set = ∅
    rw [Heap.read_alloc, if_pos rfl]
    simp [sliceLast]
  simp only [losing, below, ↓reduceIte, Call.program, check, Proc.solo_bind, Proc.solo_get, Option.bind_some, named]
  simp only [guard, Bool.not_true, Nat.one_ne_zero, decide_false, Bool.or_self, Bool.false_eq_true, ↓reduceIte,
    Proc.solo_bind, hydrated, Option.bind_some, Proc.solo_get, Proc.solo_pure]
  change some (some (decide (0 ∉ ((filled (n + 1)).windows.read (filled n).windows.next).set)), filled (n + 1)) = _
  rw [unseen]
  rfl

theorem filledPool_runs {n : ℕ} (fits : n < replayMemCacheCap) : Runs anyTurn (filledPool n) (filledPool (n + 1)) := by
  have taken : (filledPool n).turn n = some ⟨((losing n).program.advance (filled n)).1,
      Function.update (filledPool n).calls n ((losing n).program.advance (filled n)).2⟩ := by
    simp [Pool.turn, filledPool, launch, Pool.launch]
  have ended : (⟨filled (n + 1), Function.update (filledPool n).calls n (.pure (some true))⟩ : GuardPool ℕ Unit) =
      filledPool (n + 1) := by
    refine congrArg (Pool.mk _) (funext fun c => ?_)
    by_cases own : c = n
    · subst own
      simp [filledPool]
    · have same : c < n + 1 ↔ c < n := by omega
      simp [filledPool, own, same, launch, Pool.launch]
  exact ended ▸ (Runs.start.turn taken trivial).trans (solo_runs (filled_solo fits))

theorem filledPool_reached {n : ℕ} (fits : n ≤ replayMemCacheCap) : Runs anyTurn (filledPool 0) (filledPool n) := by
  induction n with
  | zero => exact .start
  | succ n ih => exact (ih (Nat.le_of_succ_le fits)).trans (filledPool_runs fits)

/-- The same pool, with its cache written out. -/
def crowdedPool (n : ℕ) : GuardPool ℕ Unit :=
  ⟨{ filled n with tabs := fun _ => { namespace_ := "app", window := 1, mem := namedWindows n } },
    fun c => if c < n then .pure (some true) else .await .start (fun _ => true) (losing c).program⟩

theorem crowdedPool_reached {n : ℕ} (fits : n ≤ replayMemCacheCap) :
    Runs anyTurn (launch (opened "app" 1) losing) (crowdedPool n) := by
  have reached : Runs anyTurn (launch (opened "app" 1) losing) (filledPool n) := filledPool_reached fits
  have guard : (filled n).tabs = fun _ => { namespace_ := "app", window := 1, mem := namedWindows n } :=
    funext fun _ => (filled_eq fits).1
  have same : filledPool n = crowdedPool n := by
    rw [crowdedPool, ← guard]
    rfl
  exact same ▸ reached

/-- A window that is let go while an accept waits for it loses what is accepted. -/
theorem evicted_window_accepts_again : ¬ RefusesAccepted anyTurn 1 (opened "app" 1) losing := by
  intro refuses
  have result : ((crowdedPool 256).followPassing anyTurn
      ([256, 257, 257, 257, 256] ++ List.replicate 4 258 ++ List.replicate 7 256)).bind (fun middle =>
        (middle.followPassing anyTurn [259, 259]).map fun last => (middle.statuses 256, middle.statuses 259,
          last.statuses 259, (acceptedSince 7 middle.shared last.shared (fullName 0)).length)) =
      some (.finished none, .suspended .start, .finished (some true), 0) := by
    decide +kernel
  obtain ⟨middle, early, onward⟩ := Option.bind_eq_some_iff.mp result
  obtain ⟨last, late, shape⟩ := Option.map_eq_some_iff.mp onward
  simp only [Prod.mk.injEq] at shape
  obtain ⟨accepted, waits, answered, none⟩ := shape
  have newer := refuses middle last 256 259 (name 0) 7 rfl rfl
    ((crowdedPool_reached (le_refl _)).trans (followPassing_runs early))
    accepted waits (followPassing_runs late) answered
  rw [show ((opened "app" 1 : Origin Unit).tabs ()).storeKey (name 0) = fullName 0 from rfl, none] at newer
  exact absurd newer (by decide)

end Checked

end SFrameRatchet.DurableCache
