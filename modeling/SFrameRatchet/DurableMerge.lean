import SFrameRatchet.DurableSteps

/-! Persists of several tabs. A persist puts all that its window holds behind what
is stored, so what the window has from earlier on comes to the front again. As
long as that cuts nothing off, or repeats the end of what is stored, the store
holds the most recent counters of all tabs. -/
namespace SFrameRatchet.DurableMerge
open Collections Coroutine Interleaving DurableReplay DurableSteps Recency

variable {T : Type}

/-- The counters persisted for a key, in the order in which they got to the store. -/
def persists (o : Origin T) (fullKey : String) : List ℕ := entriesOf fullKey o.saved

/-- The store holds the most recent of the counters persisted. -/
def HoldsRecent (window : ℕ) (o : Origin T) : Prop := ∀ fullKey, recent window (persists o fullKey) ⊆ stored o fullKey

/-- Nothing is cut off when a window is merged into the store, or the store is in
persist order and ends with what the window has from before. -/
def InStep (window : ℕ) (o : Origin T) (fullKey : String) (win : MemWindow) : Prop :=
  (stored o fullKey ++ win.order).dedup.length ≤ window ∨
    stored o fullKey = recent window (persists o fullKey) ∧
      win.order.filter (· ∉ win.unsaved) <:+ (stored o fullKey).filter (· ∉ win.unsaved)

instance (window : ℕ) (o : Origin T) (fullKey : String) (win : MemWindow) : Decidable (InStep window o fullKey win) :=
  inferInstanceAs (Decidable (_ ∨ _))

/-- The key and the window of a merge that is about to be made. -/
def merging? : GuardSite T → Option (String × Ref)
  | .within _ fullKey _ (.persisting ref (.merging _)) => some (fullKey, ref)
  | _ => none

/-- The windows that are merged are in step. -/
def mergesInStep (window : ℕ) (site : GuardSite T) (o : Origin T) : Prop :=
  ∀ merge ∈ merging? site, InStep window o merge.1 (o.windows.read merge.2)

instance (window : ℕ) (site : GuardSite T) (o : Origin T) : Decidable (mergesInStep window site o) :=
  inferInstanceAs (Decidable (∀ merge ∈ merging? site, InStep window o merge.1 (o.windows.read merge.2)))

/-- A window holds the most recent of what it was filled with and accepted into it. -/
structure Filled (window : ℕ) (win : MemWindow) : Prop where
  agrees : win.Agrees
  recent : ∃ older, win.order = recent window (older ++ win.unsaved)

theorem filled_push {window ctr : ℕ} {win : MemWindow} (filled : Filled window win) (fresh : ctr ∉ win.set) :
    Filled window (win.push ctr window) := by
  obtain ⟨order, agrees⟩ := filled.agrees.push fresh window
  obtain ⟨older, held⟩ := filled.recent
  refine ⟨agrees, older, ?_⟩
  have new : ctr ∉ recent window (older ++ win.unsaved) := by
    rw [← held]
    simpa [filled.agrees.set] using fresh
  change _ = recent window (older ++ (win.unsaved ++ [ctr]))
  rw [order, held, ← List.append_assoc, recent_concat new]

theorem filled_of_nodup {window : ℕ} {order : List ℕ} {fullKey : String} (nodup : order.Nodup)
    (short : order.length ≤ window) : Filled window { set := order.toFinset, order, fullKey } :=
  ⟨⟨rfl, nodup⟩, order, by rw [List.append_nil, recent_of_nodup nodup short]⟩

/-- **Merging.** What is stored together with a window in step has all of the
recent counters. -/
theorem merged_recent {window : ℕ} (positive : window ≠ 0) {o : Origin T} {fullKey : String} {win : MemWindow}
    (filled : Filled window win) (holds : recent window (persists o fullKey) ⊆ stored o fullKey)
    (inStep : InStep window o fullKey win) :
    recent window (persists o fullKey ++ win.unsaved) ⊆ merged window (stored o fullKey) win.order := by
  obtain ⟨older, held⟩ := filled.recent
  rw [merged_eq positive, ← recent_append]
  rcases inStep with fits | ⟨ordered, last⟩
  · intro ctr member
    have whole : recent window (stored o fullKey ++ win.order) = (stored o fullKey ++ win.order).dedup :=
      rtake_of_length_le fits
    rw [whole, List.mem_dedup, List.mem_append]
    rw [recent_append_eq] at member
    rcases List.mem_append.mp member with old | new
    · exact .inl (holds (by simpa using (List.mem_filter.mp ((rtake_sublist _ _).subset old)).1))
    · rw [held, recent_append_eq]
      exact .inr (List.mem_append_right _ new)
  · rw [held] at last ⊢
    rw [recent_repeat (ordered ▸ recent_nodup) last, ordered]
    exact List.Subset.refl _

theorem persists_merge (o : Origin T) (tab : T) (fullKey : String) (ref : Ref) (seen : List ℕ) (key : String) :
    persists (o.merge tab fullKey ref seen) key =
      persists o key ++ if key = fullKey then (o.windows.read ref).unsaved else [] :=
  entriesOf_append fullKey key o.saved _

/-! ## The lock -/

/-- The lock that a persist has. -/
def locked (fullKey : String) : GuardPoint → Option String
  | .persisting _ .opening | .persisting _ (.merging _) | .persisting _ .written => some fullKey
  | _ => none

/-- What a call at a point knows of the store and of the locks. -/
def Fine (o : Origin T) (fullKey : String) : GuardPoint → Prop
  | .reading _ seen => seen.Nodup
  | .persisting _ .opening | .persisting _ .written => fullKey ∈ o.locks
  | .persisting _ (.merging seen) => fullKey ∈ o.locks ∧ seen = stored o fullKey
  | _ => True

theorem fine_locked {o : Origin T} {fullKey lock : String} {point : GuardPoint} (fine : Fine o fullKey point)
    (locks : locked fullKey point = some lock) : fullKey = lock ∧ fullKey ∈ o.locks := by
  cases point with
  | persisting ref stage =>
    cases stage with
    | opening | written => exact ⟨Option.some.inj locks, fine⟩
    | merging seen => exact ⟨Option.some.inj locks, fine.1⟩
    | lock | unlocked => cases locks
  | _ => cases locks

theorem fine_of {o o' : Origin T} {fullKey : String} {point : GuardPoint} (fine : Fine o fullKey point)
    (locks : locked fullKey point = some fullKey → fullKey ∈ o'.locks ∧ stored o' fullKey = stored o fullKey) :
    Fine o' fullKey point := by
  unfold Fine at fine ⊢
  split at fine
  · exact fine
  · exact (locks rfl).1
  · exact (locks rfl).1
  · exact ⟨(locks rfl).1, fine.2.trans (locks rfl).2.symm⟩
  · trivial

/-- One persist at a time merges into what is stored for a key. -/
structure Merging {ι : Type} (calls : ι → Call T) (keys : ι → String) (window : ℕ) (o : Origin T)
    (statuses : ι → GuardStatus T) : Prop where
  size : ∀ tab, (o.tabs tab).window = window
  distinct : ∀ key, (stored o key).Nodup
  holds : HoldsRecent window o
  filled : ∀ ref, Filled window (o.windows.read ref)
  fine : ∀ c point, statuses c = .suspended ((calls c).site (keys c) point) → Fine o (keys c) point
  alone : Exclusive calls keys locked statuses

section Steps
variable {ι : Type} [DecidableEq ι] {calls : ι → Call T} {keys : ι → String} {window : ℕ} {o o' : Origin T}
  {statuses : ι → GuardStatus T} {c : ι} {site : GuardSite T} {status : GuardStatus T}

/-- A call that keeps its lock is alone with it. -/
theorem alone_update (merging : Merging calls keys window o statuses) (waits : statuses c = .suspended site)
    (keeps : ∀ point, status = .suspended ((calls c).site (keys c) point) → locked (keys c) point = some (keys c) →
      ∃ old, site = (calls c).site (keys c) old ∧ locked (keys c) old = some (keys c)) :
    Exclusive calls keys locked (Function.update statuses c status) := by
  refine exclusive_update merging.alone (fun _ _ _ _ _ marked => marked) fun point lock here marked => ?_
  have own : keys c = lock := by
    unfold locked at marked
    split at marked
    all_goals first | exact Option.some.inj marked | cases marked
  subst own
  obtain ⟨old, before, held⟩ := keeps point here marked
  exact merging.alone.apart (before ▸ waits) held

/-- A step that leaves the store and the locks alone. -/
theorem merging_frame (merging : Merging calls keys window o statuses) (waits : statuses c = .suspended site)
    (size : ∀ tab, (o'.tabs tab).window = window) (store : o'.store = o.store) (saved : o'.saved = o.saved)
    (filled : ∀ ref, Filled window (o'.windows.read ref)) (locks : o'.locks = o.locks)
    (own : ∀ point, status = .suspended ((calls c).site (keys c) point) → Fine o' (keys c) point ∧
      (locked (keys c) point = some (keys c) → ∃ old, site = (calls c).site (keys c) old ∧
        locked (keys c) old = some (keys c))) :
    Merging calls keys window o' (Function.update statuses c status) := by
  have same : stored o' = stored o := funext fun key => by rw [stored, stored, store]
  refine ⟨size, ?_, ?_, filled, everywhere_update (fun other point _ here => ?_) fun point here => (own point here).1,
    alone_update merging waits fun point here held => (own point here).2 held⟩
  · rw [same]
    exact merging.distinct
  · intro key
    rw [same, persists, saved]
    exact merging.holds key
  · refine fine_of (merging.fine other point here) fun held => ?_
    rw [locks, same]
    exact ⟨(fine_locked (merging.fine other point here) held).2, rfl⟩

variable [DecidableEq T]

theorem step_merging (positive : window ≠ 0) (merging : Merging calls keys window o statuses)
    (noClear : (calls c).caller ≠ .clear) (waits : statuses c = .suspended site) (inStep : mergesInStep window site o)
    (step : Step (calls c) (keys c) site o status o') :
    Merging calls keys window o' (Function.update statuses c status) := by
  have size (tab : T) : (o'.tabs tab).window = window :=
    (congrArg (·.2.2) (step_settings step tab)).trans (merging.size tab)
  cases step with
  | cached | joins | begins | answers | known | dequeues | releases | settles =>
    refine merging_frame merging waits size rfl rfl merging.filled rfl fun point here => ?_
    cases here
    try exact ⟨trivial, fun held => by cases held⟩
  | reads =>
    refine merging_frame merging waits size rfl rfl merging.filled rfl fun point here => ?_
    cases here
    exact ⟨merging.distinct _, fun held => by cases held⟩
  | rereads =>
    refine merging_frame merging waits size rfl rfl merging.filled rfl fun point here => ?_
    cases here
    exact ⟨⟨merging.fine c _ waits, rfl⟩, fun _ => ⟨_, rfl, rfl⟩⟩
  | @ends hydration seen =>
    refine merging_frame merging waits size rfl rfl (fun ref => ?_) rfl fun point here => ?_
    · change Filled window ((o.windows.alloc _).read ref)
      rw [Heap.read_alloc]
      split
      · rw [merging.size, sliceLast_eq positive]
        apply filled_of_nodup ((merging.fine c _ waits).sublist (rtake_sublist _ _))
        rw [length_rtake]
        exact Nat.min_le_left _ _
      · exact merging.filled ref
    · cases here
      exact ⟨trivial, fun held => by cases held⟩
  | records _ _ fresh =>
    refine merging_frame merging waits size rfl rfl (fun ref => ?_) rfl fun point here => ?_
    · change Filled window ((o.windows.write _ _).read ref)
      rw [Heap.read_write]
      split
      · rw [merging.size]
        exact filled_push (merging.filled _) fresh
      · exact merging.filled ref
    · cases here
      exact ⟨trivial, fun held => by cases held⟩
  | locks _ free =>
    refine ⟨size, merging.distinct, merging.holds, merging.filled, everywhere_update (fun other point _ here => ?_)
      fun point here => ?_, exclusive_update merging.alone (fun _ _ _ _ _ marked => marked) ?_⟩
    · exact fine_of (merging.fine other point here) fun held =>
        ⟨List.mem_cons_of_mem _ (fine_locked (merging.fine other point here) held).2, rfl⟩
    · cases here
      exact List.mem_cons_self
    · intro point lock here marked other point' _ there marked'
      cases here
      obtain ⟨same, taken⟩ := fine_locked (merging.fine other point' there) marked'
      rw [same, ← Option.some.inj marked] at taken
      exact free taken
  | unlocks =>
    refine ⟨size, merging.distinct, merging.holds, merging.filled, everywhere_update (fun other point others here => ?_)
      fun point here => ?_, alone_update merging waits fun point here held => ?_⟩
    · refine fine_of (merging.fine other point here) fun held => ?_
      have apart : keys other ≠ keys c := fun same =>
        merging.alone.apart waits rfl other point others here (same ▸ held)
      exact ⟨(List.mem_erase_of_ne apart).mpr (fine_locked (merging.fine other point here) held).2, rfl⟩
    · cases here
      trivial
    · cases here
      cases held
  | @merges ref seen =>
    obtain ⟨taken, read⟩ := merging.fine c _ waits
    have union : merged ((o.tabs (calls c).tab).window) seen (o.windows.read ref).order =
        merged window (stored o (keys c)) (o.windows.read ref).order := by
      rw [merging.size, read]
    have store (key : String) : stored (o.merge (calls c).tab (keys c) ref seen) key =
        if key = keys c then merged window (stored o (keys c)) (o.windows.read ref).order else stored o key := by
      rw [stored_merge, union]
    have nodup : (merged window (stored o (keys c)) (o.windows.read ref).order).Nodup := by
      rw [merged_eq positive]
      exact recent_nodup
    refine ⟨size, fun key => ?_, fun key => ?_, fun other => ?_, everywhere_update
      (fun other point others here => ?_) fun point here => ?_, alone_update merging waits fun point here held => ?_⟩
    · rw [store]
      split
      · exact nodup
      · exact merging.distinct key
    · rw [store, persists_merge]
      split
      · rename_i own
        subst own
        exact merged_recent positive (merging.filled ref) (merging.holds _) (inStep _ rfl)
      · rw [List.append_nil]
        exact merging.holds key
    · change Filled window ((o.windows.write ref _).read other)
      rw [Heap.read_write]
      split
      · rw [union]
        refine ⟨⟨rfl, nodup⟩, merged window (stored o (keys c)) (o.windows.read ref).order, ?_⟩
        rw [List.append_nil, merged_eq positive, recent_recent]
      · exact merging.filled other
    · refine fine_of (merging.fine other point here) fun held => ?_
      have apart : keys other ≠ keys c := fun same =>
        merging.alone.apart waits rfl other point others here (same ▸ held)
      have kept := (fine_locked (merging.fine other point here) held).2
      exact ⟨kept, by rw [store, if_neg apart]⟩
    · cases here
      exact taken
    · cases here
      exact ⟨_, rfl, rfl⟩
  | opens is | deletes is | forgets is => exact absurd is noClear

end Steps

/-! ## Runs -/

section Runs
variable {ι : Type} [DecidableEq ι] [DecidableEq T]

/-- **Recency across tabs.** Whatever the tabs do, and whenever each has hydrated,
the store holds the most recent of the counters persisted for every key, as long
as the windows that are merged are in step. -/
theorem store_keeps_recent (namespace_ : String) {window : ℕ} (positive : window ≠ 0) {calls : ι → Call T}
    (noClear : ∀ c, (calls c).caller ≠ .clear) {last : GuardPool ι T}
    (runs : Runs (whereAllowed (mergesInStep window)) (launch (opened namespace_ window) calls) last) :
    HoldsRecent window last.shared := by
  have begins : Merging calls (storeKeys namespace_ window calls) window (opened namespace_ window)
      fun _ => .suspended .start := by
    refine ⟨fun _ => rfl, fun _ => List.nodup_nil, fun _ ctr member => ?_, fun _ => ?_, ?_, ?_⟩
    · cases mem_of_recent member
    · exact ⟨⟨rfl, List.nodup_nil⟩, [], (recent_of_nodup List.nodup_nil (Nat.zero_le _)).symm⟩
    · intro c point here
      cases here
    · intro c other point point' lock here
      cases here
  exact (runs_step (Merging calls _ window) (reopened_stepping namespace_ positive ∅ [] calls) begins
    (fun before c site after _ _ merging waits passes step =>
    step_merging positive merging (noClear c) waits (passes site waits) step) runs).2.holds

end Runs

section Checked

/-- One tab accepts two counters, a second tab a third one, and the first tab a
fourth, with what it has had before. -/
def stale : Fin 4 → Call Bool
  | 0 => .accept true "room" 1
  | 1 => .accept true "room" 2
  | 2 => .accept false "room" 3
  | 3 => .accept true "room" 4

/-- The turns of an accept that has to hydrate, and of one that has not. -/
def hydrating (c : Fin 4) : List (Fin 4) := List.replicate 11 c

def cached (c : Fin 4) : List (Fin 4) := List.replicate 9 c

theorem store_keeps_recent_of_two : ∃ last : GuardPool (Fin 4) Bool,
    stored last.shared "sframe-replay|app|room" = [2, 3] ∧ HoldsRecent 2 last.shared := by
  have result : ((launch (opened "app" 2) stale).followPassing (whereAllowed (mergesInStep 2))
      (hydrating 0 ++ cached 1 ++ hydrating 2)).map (fun pool => stored pool.shared "sframe-replay|app|room") =
        some [2, 3] := by
    decide +kernel
  obtain ⟨last, followed, held⟩ := Option.map_eq_some_iff.mp result
  have noClear : ∀ c, (stale c).caller ≠ .clear := by decide
  exact ⟨last, held, store_keeps_recent "app" (by decide) noClear (followPassing_runs followed)⟩

theorem stale_window_drops : ¬ ∀ last, Runs anyTurn (launch (opened "app" 2) stale) last →
    HoldsRecent 2 last.shared := by
  intro holds
  have result : ((launch (opened "app" 2) stale).followPassing anyTurn
      (hydrating 0 ++ cached 1 ++ hydrating 2 ++ cached 3)).map (fun pool =>
        (persists pool.shared "sframe-replay|app|room", stored pool.shared "sframe-replay|app|room")) =
          some ([1, 2, 3, 4], [2, 4]) := by
    decide +kernel
  obtain ⟨last, followed, shape⟩ := Option.map_eq_some_iff.mp result
  simp only [Prod.mk.injEq] at shape
  have kept := holds last (followPassing_runs followed) "sframe-replay|app|room"
  rw [shape.1, shape.2] at kept
  exact absurd (@kept 3) (by decide)

end Checked

end SFrameRatchet.DurableMerge
