import SFrameRatchet.DurableReplay
import SFrameRatchet.Replay

/-! One operation of the durable guard after the other. The cache, its eviction,
the hydrations and the merges come down to the store, and the store holds for
every key what one replay window in memory would hold. -/
namespace SFrameRatchet.DurableWindow
open Collections Coroutine DurableReplay Recency Replay
open SlidingReplayWindow (check_iff accept_known accept_queue evicted_concat mem_accept)

variable {T : Type} [DecidableEq T] {tab : T} {o : Origin T}

/-! ## Between two operations -/

/-- No call is under way on the guard of a tab, and its cache agrees with the store. -/
structure Resting (tab : T) (o : Origin T) : Prop where
  available : (o.tabs tab).available = true
  hydrating : ∀ key, (o.tabs tab).hydrating.get? key = none
  persisting : ∀ key, (o.tabs tab).persisting.get? key = none
  chain : (o.tabs tab).persisted = (o.tabs tab).persistTail.length
  locks : o.locks = []
  bounded : ∀ key, (stored o key).Nodup ∧ (stored o key).length ≤ (o.tabs tab).window
  cached : ∀ key ref, (o.tabs tab).mem.get? key = some ref →
    (o.windows.read ref).order = stored o key ∧ (o.windows.read ref).Agrees
  allocated : ∀ key ref, (o.tabs tab).mem.get? key = some ref → ref < o.windows.next
  keyed : ∀ key ref, (o.tabs tab).mem.get? key = some ref → (o.windows.read ref).fullKey = key

/-- A hydration with no other call in between leaves the store alone and puts the
key's window into the cache. -/
theorem solo_hydrate (resting : Resting tab o) (positive : (o.tabs tab).window ≠ 0) (fullKey : String)
    (caller : Caller) : ∃ ref o', (hydrate tab fullKey caller).solo o = some (ref, o') ∧ Resting tab o' ∧
      o'.store = o.store ∧ (o'.tabs tab).settings = (o.tabs tab).settings ∧
        (o'.tabs tab).mem.get? fullKey = some ref := by
  simp only [hydrate, Proc.solo_bind, Proc.solo_get, Option.bind_some]
  cases cached : (o.tabs tab).mem.get? fullKey with
  | some ref =>
    exact ⟨ref, o, rfl, resting, rfl, rfl, cached⟩
  | none =>
    simp only [resting.hydrating, Proc.solo_bind, Proc.solo_get, Proc.solo_modify, Proc.solo_yield, Option.bind_some,
      Proc.solo_pure]
    have guard : (o.beginHydration tab fullKey).tabs tab =
        { o.tabs tab with hydrating := (o.tabs tab).hydrating.set fullKey o.hydrations.next } := by
      simp [Origin.beginHydration]
    obtain ⟨fresh, others, rest⟩ := endHydration_mem (o.beginHydration tab fullKey) tab fullKey o.hydrations.next
      (((o.beginHydration tab fullKey).store.get? fullKey).getD [])
    rw [guard] at others rest
    rw [show (o.beginHydration tab fullKey).windows.next = o.windows.next from rfl] at fresh others
    have same {α : Type} (f : DurableReplayGuard → α) : f _ = f _ := congrArg f rest
    have window := same (·.window)
    refine ⟨_, _, rfl, ⟨?_, ?_, ?_, ?_, ?_, ?_, ?_, ?_, ?_⟩, rfl, ?_, fresh⟩
    · exact (same (·.available)).trans resting.available
    · intro key
      rw [same (·.hydrating)]
      by_cases own : key = fullKey <;> simp [own, resting.hydrating]
    · intro key
      rw [same (·.persisting)]
      exact resting.persisting key
    · exact (same (·.persisted)).trans (resting.chain.trans (congrArg List.length (same (·.persistTail)).symm))
    · exact resting.locks
    · intro key
      rw [window]
      exact resting.bounded key
    · intro key ref held
      change ((o.windows.alloc _).read ref).order = stored o key ∧ ((o.windows.alloc _).read ref).Agrees
      rw [Heap.read_alloc]
      rcases others key ref held with ⟨rfl, rfl⟩ | ⟨-, old⟩
      · obtain ⟨nodup, short⟩ := resting.bounded key
        have order : sliceLast (o.tabs tab).window (stored o key) = stored o key := by
          rw [sliceLast_eq positive, rtake_of_length_le short]
        have read : sliceLast ((o.beginHydration tab key).tabs tab).window
            (((o.beginHydration tab key).store.get? key).getD []) = stored o key := by
          rw [guard]
          exact order
        rw [read, if_pos rfl]
        exact ⟨rfl, rfl, nodup⟩
      · rw [if_neg (Nat.ne_of_lt (resting.allocated key ref old))]
        exact resting.cached key ref old
    · intro key ref held
      change ref < o.windows.next + 1
      rcases others key ref held with ⟨-, rfl⟩ | ⟨-, old⟩
      · exact Nat.lt_succ_self _
      · exact Nat.lt_succ_of_lt (resting.allocated key ref old)
    · intro key ref held
      change ((o.windows.alloc _).read ref).fullKey = key
      rw [Heap.read_alloc]
      rcases others key ref held with ⟨rfl, rfl⟩ | ⟨-, old⟩
      · rw [if_pos rfl]
      · rw [if_neg (Nat.ne_of_lt (resting.allocated key ref old))]
        exact resting.keyed key ref old
    · simp only [DurableReplayGuard.settings, Prod.mk.injEq]
      exact ⟨same (·.available), same (·.namespace_), window⟩

theorem solo_check (resting : Resting tab o) (positive : (o.tabs tab).window ≠ 0) (key : String) (ctr : ℕ) :
    ∃ o', (check tab key ctr).solo o = some (decide (ctr ∉ stored o ((o.tabs tab).storeKey key)), o') ∧
      Resting tab o' ∧ o'.store = o.store ∧ (o'.tabs tab).settings = (o.tabs tab).settings := by
  obtain ⟨ref, o', ran, rests, store, same, cached⟩ :=
    solo_hydrate resting positive ((o.tabs tab).storeKey key) .check
  obtain ⟨order, agrees⟩ := rests.cached _ _ cached
  refine ⟨o', ?_, rests, store, same⟩
  simp only [check, Proc.solo_bind, Proc.solo_get, Option.bind_some, resting.available, positive, Bool.not_true,
    decide_false, Bool.or_self, Bool.false_eq_true, ↓reduceIte, ran, Proc.solo_pure, agrees.set, order,
    List.mem_toFinset]
  rw [show stored o' = stored o from funext fun _ => by rw [stored, stored, store]]

/-- What a persist writes is the pushed window itself. -/
theorem merged_pushed {window ctr : ℕ} {seen : List ℕ} (positive : window ≠ 0) (nodup : seen.Nodup)
    (fresh : ctr ∉ seen) : merged window seen ((seen ++ [ctr]).rtake window) = (seen ++ [ctr]).rtake window := by
  have distinct := nodup_append_singleton nodup fresh
  have recently : (seen ++ [ctr]).rtake window = recent window (seen ++ [ctr]) := by rw [recent, distinct.dedup]
  rw [merged_eq positive, recently, recent_absorb (List.subset_append_left _ _)]

/-- The state that an accept of a new counter leaves, with no other call in between. -/
def acceptedNew (o : Origin T) (tab : T) (fullKey : String) (ref : Ref) (ctr : ℕ) : Origin T :=
  let recorded := o.recordAccept tab fullKey ref ctr
  let locked := { recorded with locks := fullKey :: recorded.locks }
  let written := locked.merge tab fullKey ref ((locked.store.get? fullKey).getD [])
  { written with locks := written.locks.erase fullKey }.releasePersist tab fullKey

theorem acceptedNew_tabs (o : Origin T) (tab : T) (fullKey : String) (ref : Ref) (ctr : ℕ) :
    (acceptedNew o tab fullKey ref ctr).tabs tab =
      { ((o.tabs tab).markPersisting fullKey).releasePersisting fullKey with
        persistTail := (o.tabs tab).persistTail ++ [fullKey], persisted := (o.tabs tab).persisted + 1 } := by
  simp [acceptedNew, Origin.releasePersist, Origin.merge, Origin.recordAccept, DurableReplayGuard.markPersisting,
    DurableReplayGuard.releasePersisting]

theorem acceptedNew_locks (o : Origin T) (tab : T) (fullKey : String) (ref : Ref) (ctr : ℕ) :
    (acceptedNew o tab fullKey ref ctr).locks = o.locks := by
  simp [acceptedNew, Origin.releasePersist, Origin.merge, Origin.recordAccept, Origin.atTab]

section AcceptNew
variable {fullKey : String} {ref : Ref} {ctr : ℕ} (resting : Resting tab o) (positive : (o.tabs tab).window ≠ 0)
  (cached : (o.tabs tab).mem.get? fullKey = some ref) (fresh : ctr ∉ stored o fullKey)

include resting positive cached fresh

/-- The window and the store end up with the same counters. -/
theorem acceptedNew_seen :
    let seen := (stored o fullKey ++ [ctr]).rtake (o.tabs tab).window
    (acceptedNew o tab fullKey ref ctr).store = o.store.set fullKey seen ∧
      (acceptedNew o tab fullKey ref ctr).windows.next = o.windows.next ∧
      ∀ other, (acceptedNew o tab fullKey ref ctr).windows.read other =
        if other = ref then { set := seen.toFinset, order := seen, fullKey := (o.windows.read ref).fullKey }
        else o.windows.read other := by
  obtain ⟨order, agrees⟩ := resting.cached fullKey ref cached
  obtain ⟨pushed, -⟩ := agrees.push (by rw [agrees.set, order]; simpa using fresh) (o.tabs tab).window
  rw [order] at pushed
  have seen := merged_pushed positive (resting.bounded fullKey).1 fresh
  have window : ((o.recordAccept tab fullKey ref ctr).tabs tab).window = (o.tabs tab).window := by
    simp [Origin.recordAccept, DurableReplayGuard.markPersisting]
  have key : ((o.windows.read ref).push ctr (o.tabs tab).window).fullKey = (o.windows.read ref).fullKey := rfl
  have recorded : (o.recordAccept tab fullKey ref ctr).windows.read ref =
      (o.windows.read ref).push ctr (o.tabs tab).window := by
    simp [Origin.recordAccept]
  have union : merged ((o.recordAccept tab fullKey ref ctr).tabs tab).window (stored o fullKey)
      ((o.recordAccept tab fullKey ref ctr).windows.read ref).order =
      (stored o fullKey ++ [ctr]).rtake (o.tabs tab).window := by
    rw [window, recorded, pushed, seen]
  refine ⟨congrArg (o.store.set fullKey) union, rfl, fun other => ?_⟩
  change (((o.recordAccept tab fullKey ref ctr).windows.write ref
    { (o.recordAccept tab fullKey ref ctr).windows.read ref with
    set := (merged _ (stored o fullKey) _).toFinset, order := merged _ (stored o fullKey) _, unsaved := [] }).read
      other) = _
  rw [Heap.read_write, union, recorded]
  split
  · rfl
  · exact (Heap.read_write _ _ _ _).trans (if_neg ‹_›)

theorem acceptedNew_resting : Resting tab (acceptedNew o tab fullKey ref ctr) := by
  obtain ⟨store, next, windows⟩ := acceptedNew_seen resting positive cached fresh
  have guard := acceptedNew_tabs o tab fullKey ref ctr
  have same {α : Type} (f : DurableReplayGuard → α) := congrArg f guard
  have mem : ((acceptedNew o tab fullKey ref ctr).tabs tab).mem = (o.tabs tab).mem := same (·.mem)
  have window : ((acceptedNew o tab fullKey ref ctr).tabs tab).window = (o.tabs tab).window := same (·.window)
  have seen (key : String) : stored (acceptedNew o tab fullKey ref ctr) key =
      if key = fullKey then (stored o fullKey ++ [ctr]).rtake (o.tabs tab).window else stored o key := by
    rw [stored, store, OrderedMap.get?_set]
    split <;> rfl
  obtain ⟨nodup, short⟩ := resting.bounded fullKey
  have distinct : ((stored o fullKey ++ [ctr]).rtake (o.tabs tab).window).Nodup :=
    (nodup_append_singleton nodup fresh).sublist (rtake_sublist _ _)
  refine ⟨?_, ?_, ?_, ?_, ?_, ?_, ?_, ?_, ?_⟩
  · exact (same (·.available)).trans resting.available
  · intro key
    exact (congrArg (fun map => map.get? key) (same (·.hydrating))).trans (resting.hydrating key)
  · intro key
    rw [same (·.persisting)]
    simp only [DurableReplayGuard.releasePersisting, DurableReplayGuard.markPersisting, OrderedMap.get?_set,
      resting.persisting]
    by_cases own : key = fullKey <;> simp [own, resting.persisting]
  · rw [same (·.persisted), same (·.persistTail), resting.chain, List.length_append, List.length_singleton]
  · rw [acceptedNew_locks, resting.locks]
  · intro key
    rw [seen, window]
    split
    · refine ⟨distinct, ?_⟩
      rw [length_rtake]
      exact Nat.min_le_left _ _
    · exact resting.bounded key
  · intro key other held
    rw [mem] at held
    rw [windows, seen]
    by_cases own : other = ref
    · subst own
      obtain rfl : key = fullKey := (resting.keyed key other held).symm.trans (resting.keyed fullKey other cached)
      simp only [↓reduceIte]
      exact ⟨trivial, rfl, distinct⟩
    · have apart : key ≠ fullKey := by
        rintro rfl
        exact own (Option.some.inj (held.symm.trans cached))
      rw [if_neg own, if_neg apart]
      exact resting.cached key other held
  · intro key other held
    rw [mem] at held
    rw [next]
    exact resting.allocated key other held
  · intro key other held
    rw [mem] at held
    rw [windows]
    split
    · rename_i own
      subst own
      exact resting.keyed key other held
    · exact resting.keyed key other held

end AcceptNew

theorem solo_accept (resting : Resting tab o) (positive : (o.tabs tab).window ≠ 0) (key : String) (ctr : ℕ) :
    ∃ o', (accept tab key ctr).solo o = some ((), o') ∧ Resting tab o' ∧
      (o'.tabs tab).settings = (o.tabs tab).settings ∧ ∀ fullKey, stored o' fullKey =
        if fullKey = (o.tabs tab).storeKey key ∧ ctr ∉ stored o fullKey then
          (stored o fullKey ++ [ctr]).rtake (o.tabs tab).window
        else stored o fullKey := by
  obtain ⟨ref, h, ran, rests, store, same, cached⟩ := solo_hydrate resting positive ((o.tabs tab).storeKey key) .accept
  obtain ⟨order, agrees⟩ := rests.cached _ _ cached
  have seen (fullKey : String) : stored h fullKey = stored o fullKey := by rw [stored, stored, store]
  have window : (h.tabs tab).window = (o.tabs tab).window := congrArg (fun settings => settings.2.2) same
  simp only [accept, Proc.solo_bind, Proc.solo_get, Option.bind_some, resting.available, positive, Bool.not_true,
    decide_false, Bool.or_self, Bool.false_eq_true, ↓reduceIte, ran, agrees.set, order, seen, List.mem_toFinset]
  by_cases known : ctr ∈ stored o ((o.tabs tab).storeKey key)
  · rw [if_pos known]
    refine ⟨h, rfl, rests, same, fun fullKey => ?_⟩
    rw [seen, if_neg]
    rintro ⟨rfl, fresh⟩
    exact fresh known
  · rw [if_neg known]
    have fresh : ctr ∉ stored h ((o.tabs tab).storeKey key) := by rwa [seen]
    have chained : ((h.recordAccept tab ((o.tabs tab).storeKey key) ref ctr).tabs tab).persisted =
        (h.tabs tab).persistTail.length := by
      simp [Origin.recordAccept, DurableReplayGuard.markPersisting, rests.chain]
    have unlocked : (o.tabs tab).storeKey key ∉ (h.recordAccept tab ((o.tabs tab).storeKey key) ref ctr).locks := by
      simp [Origin.recordAccept, Origin.atTab, rests.locks]
    simp only [persistMerged, Proc.solo_bind, Proc.solo_modify, Proc.solo_awaitUntil, Option.bind_some, chained,
      decide_true, ↓reduceIte, unlocked, not_false_eq_true, Proc.solo_yield, Proc.solo_get]
    refine ⟨acceptedNew h tab ((o.tabs tab).storeKey key) ref ctr, rfl,
      acceptedNew_resting rests (by rwa [window]) cached fresh, ?_, fun fullKey => ?_⟩
    · rw [← same, acceptedNew_tabs]
      rfl
    · rw [stored, (acceptedNew_seen rests (by rwa [window]) cached fresh).1, OrderedMap.get?_set, seen, window]
      by_cases own : fullKey = (o.tabs tab).storeKey key
      · subst own
        simp [known]
      · rw [if_neg own, if_neg (fun both => own both.1)]
        exact seen fullKey

/-- The state that a clear leaves, with no other call in between. -/
def cleared (o : Origin T) (tab : T) (fullKey : String) : Origin T :=
  { o with store := o.store.delete fullKey }.forget tab fullKey

theorem stored_cleared (o : Origin T) (fullKey key : String) :
    stored (cleared o tab fullKey) key = if key = fullKey then [] else stored o key := by
  change ((o.store.delete fullKey).get? key).getD [] = _
  rw [OrderedMap.get?_delete]
  split <;> rfl

theorem cleared_resting (resting : Resting tab o) (fullKey : String) : Resting tab (cleared o tab fullKey) := by
  have guard : (cleared o tab fullKey).tabs tab = { o.tabs tab with
      mem := (o.tabs tab).mem.delete fullKey
      hydrating := (o.tabs tab).hydrating.delete fullKey
      persisting := (o.tabs tab).persisting.delete fullKey } := by
    rw [cleared, Origin.forget, atTab_tabs]
  have held {key : String} {ref : Ref} (there : ((cleared o tab fullKey).tabs tab).mem.get? key = some ref) :
      key ≠ fullKey ∧ (o.tabs tab).mem.get? key = some ref := by
    rw [guard, OrderedMap.get?_delete] at there
    split at there
    · cases there
    · exact ⟨‹_›, there⟩
  refine ⟨?_, ?_, ?_, ?_, resting.locks, ?_, ?_, ?_, ?_⟩
  · rw [guard]
    exact resting.available
  · intro key
    rw [guard]
    by_cases own : key = fullKey <;> simp [own, resting.hydrating]
  · intro key
    rw [guard]
    by_cases own : key = fullKey <;> simp [own, resting.persisting]
  · rw [guard]
    exact resting.chain
  · intro key
    rw [guard, stored_cleared]
    split
    · simp
    · exact resting.bounded key
  · intro key ref there
    obtain ⟨other, old⟩ := held there
    rw [stored_cleared, if_neg other]
    exact resting.cached key ref old
  · intro key ref there
    exact resting.allocated key ref (held there).2
  · intro key ref there
    exact resting.keyed key ref (held there).2

theorem solo_clear (resting : Resting tab o) (positive : (o.tabs tab).window ≠ 0) (key : String) :
    (clear tab key).solo o = some ((), cleared o tab ((o.tabs tab).storeKey key)) := by
  simp only [clear, Proc.solo_bind, Proc.solo_get, Option.bind_some, resting.available, positive, Bool.not_true,
    decide_false, Bool.or_self, Bool.false_eq_true, ↓reduceIte, Proc.solo_yield, Proc.solo_modify]
  rfl

/-! What each operation stores, whether the guard remembers anything or not. -/

theorem check_ends (resting : Resting tab o) (key : String) (ctr : ℕ) :
    ∃ answer o', (check tab key ctr).solo o = some (answer, o') ∧ Resting tab o' ∧
      (o'.tabs tab).settings = (o.tabs tab).settings ∧ ∀ fullKey, stored o' fullKey = stored o fullKey := by
  by_cases positive : (o.tabs tab).window = 0
  · exact ⟨true, o, by simp [check, positive], resting, rfl, fun _ => rfl⟩
  · obtain ⟨o', ran, rests, store, settings⟩ := solo_check resting positive key ctr
    exact ⟨_, o', ran, rests, settings, fun _ => by rw [stored, stored, store]⟩

theorem accept_ends (resting : Resting tab o) (key : String) (ctr : ℕ) :
    ∃ o', (accept tab key ctr).solo o = some ((), o') ∧ Resting tab o' ∧
      (o'.tabs tab).settings = (o.tabs tab).settings ∧
        ∀ fullKey, fullKey ≠ (o.tabs tab).storeKey key ∨ (o.tabs tab).window = 0 →
          stored o' fullKey = stored o fullKey := by
  by_cases positive : (o.tabs tab).window = 0
  · exact ⟨o, by simp [accept, positive], resting, rfl, fun _ _ => rfl⟩
  · obtain ⟨o', ran, rests, settings, store⟩ := solo_accept resting positive key ctr
    refine ⟨o', ran, rests, settings, fun fullKey other => ?_⟩
    rw [store, if_neg fun own => (other.resolve_right positive) own.1]

theorem clear_ends (resting : Resting tab o) (key : String) :
    ∃ o', (clear tab key).solo o = some ((), o') ∧ Resting tab o' ∧
      (o'.tabs tab).settings = (o.tabs tab).settings ∧
        ∀ fullKey, stored o' fullKey = stored o fullKey ∨
          fullKey = (o.tabs tab).storeKey key ∧ stored o' fullKey = [] := by
  by_cases positive : (o.tabs tab).window = 0
  · exact ⟨o, by simp [clear, positive], resting, rfl, fun _ => .inl rfl⟩
  · refine ⟨_, solo_clear resting positive key, cleared_resting resting _, ?_, fun fullKey => ?_⟩
    · rw [cleared, Origin.forget, atTab_tabs]
      rfl
    · rw [stored_cleared]
      split
      · exact .inr ⟨‹_›, rfl⟩
      · exact .inl rfl

/-! ## Sequences of operations -/

theorem reloaded_resting (resting : Resting tab o) : Resting tab (o.atTab tab reloaded) := by
  have guard := atTab_tabs o tab reloaded
  have same {α : Type} (f : DurableReplayGuard → α) := congrArg f guard
  refine ⟨?_, ?_, ?_, ?_, resting.locks, ?_, ?_, ?_, ?_⟩
  · exact (same (·.available)).trans resting.available
  · intro key
    rw [guard]
    rfl
  · intro key
    rw [guard]
    rfl
  · rw [guard]
    rfl
  · intro key
    rw [guard]
    exact resting.bounded key
  · intro key ref there
    rw [guard] at there
    cases there
  · intro key ref there
    rw [guard] at there
    cases there
  · intro key ref there
    rw [guard] at there
    cases there

/-- What a single tab does with its guard, one after the other. -/
inductive Operation where
  | check (key : String) (ctr : ℕ)
  | accept (key : String) (ctr : ℕ)
  | clear (key : String)
  | reload

/-- The counter that an operation is about, if it is about one. -/
def Operation.ctr? : Operation → Option ℕ
  | check _ ctr => some ctr
  | accept _ ctr => some ctr
  | clear _ => none
  | reload => none

/-- An operation, awaited. -/
def Operation.perform (tab : T) : Operation → Task T (Option Bool)
  | check key ctr => (Call.check tab key ctr).program
  | accept key ctr => (Call.accept tab key ctr).program
  | clear key => (Call.clear tab key).program
  | reload => do
    Proc.modify fun o => o.atTab tab reloaded
    return none

/-- The answers to a sequence of operations. -/
def performAll (tab : T) : List Operation → Task T (List Bool)
  | [] => return []
  | operation :: rest => do
    let answer ← operation.perform tab
    let answers ← performAll tab rest
    return answer.toList ++ answers

/-- One replay window for every key. -/
abbrev Windows := String → SlidingReplayWindow

/-- The same operations on windows in memory; a reload does not touch them. -/
def windowAnswers (windows : Windows) : List Operation → List Bool
  | [] => []
  | .check key ctr :: rest => (windows key).check ctr :: windowAnswers windows rest
  | .accept key ctr :: rest => windowAnswers (Function.update windows key ((windows key).accept ctr)) rest
  | .clear key :: rest => windowAnswers (Function.update windows key (windows key).clear) rest
  | .reload :: rest => windowAnswers windows rest

/-- The store holds for every key what its window in memory holds. -/
structure Matches (tab : T) (o : Origin T) (windows : Windows) : Prop where
  resting : Resting tab o
  size : ∀ key, (windows key).windowSize = (o.tabs tab).window
  queue : ∀ key, stored o ((o.tabs tab).storeKey key) = (windows key).queue
  carried : ∀ key, ∀ ctr ∈ (windows key).queue, ctr < 2 ^ 64

omit [DecidableEq T] in
/-- A match for the same settings and for what the operation has changed. -/
theorem matches_of {windows windows' : Windows} {o' : Origin T} (matched : Matches tab o windows)
    (resting : Resting tab o') (same : (o'.tabs tab).settings = (o.tabs tab).settings)
    (size : ∀ key, (windows' key).windowSize = (windows key).windowSize)
    (queue : ∀ key, stored o' ((o.tabs tab).storeKey key) = (windows' key).queue)
    (carried : ∀ key, ∀ ctr ∈ (windows' key).queue, ctr < 2 ^ 64) : Matches tab o' windows' := by
  have namespace_ : (o'.tabs tab).namespace_ = (o.tabs tab).namespace_ := congrArg (·.2.1) same
  have window : (o'.tabs tab).window = (o.tabs tab).window := congrArg (·.2.2) same
  refine ⟨resting, fun key => ?_, fun key => ?_, carried⟩
  · rw [size, matched.size, window]
  · rw [← queue, DurableReplayGuard.storeKey, DurableReplayGuard.storeKey, namespace_]

/-- One operation keeps the match, and answers as the window does. -/
theorem perform_matches {windows : Windows} (matched : Matches tab o windows) (positive : (o.tabs tab).window ≠ 0)
    (operation : Operation) (carried : ∀ ctr ∈ operation.ctr?, ctr < 2 ^ 64) :
    ∃ answer o' windows', (operation.perform tab).solo o = some (answer, o') ∧ Matches tab o' windows' ∧
      (o'.tabs tab).settings = (o.tabs tab).settings ∧
        ∀ rest, windowAnswers windows (operation :: rest) = answer.toList ++ windowAnswers windows' rest := by
  have size (key : String) : (windows key).windowSize ≠ 0 := by rwa [matched.size]
  have takes (key : String) {ctr : ℕ} (fits : ctr < 2 ^ 64) := check_iff (size key) fits (matched.carried key)
  cases operation with
  | check key ctr =>
    have fits := carried ctr rfl
    obtain ⟨o', ran, rests, store, same⟩ := solo_check matched.resting positive key ctr
    refine ⟨some (decide (ctr ∉ stored o ((o.tabs tab).storeKey key))), o', windows, ?_, ?_, same, fun rest => ?_⟩
    · simp only [Operation.perform, Call.program, Proc.solo_bind, ran, Option.bind_some, Proc.solo_pure]
    · refine matches_of matched rests same (fun _ => rfl) (fun key => ?_) matched.carried
      rw [← matched.queue key, stored, store, stored]
    · have answer : decide (ctr ∉ stored o ((o.tabs tab).storeKey key)) = (windows key).check ctr := by
        rw [matched.queue, Bool.eq_iff_iff, decide_eq_true_eq, takes key fits]
      rw [answer]
      rfl
  | accept key ctr =>
    have fits := carried ctr rfl
    obtain ⟨o', ran, rests, same, seen⟩ := solo_accept matched.resting positive key ctr
    refine ⟨none, o', Function.update windows key ((windows key).accept ctr), ?_, ?_, same, fun rest => rfl⟩
    · simp only [Operation.perform, Call.program, Proc.solo_bind, ran, Option.bind_some, Proc.solo_pure]
    · refine matches_of matched rests same (fun other => ?_) (fun other => ?_) (fun other => ?_)
      · by_cases own : other = key
        · subst own; simp
        · simp [own]
      · simp only [seen, (storeKey_injective (o.tabs tab)).eq_iff, matched.queue]
        by_cases own : other = key
        · subst own
          rw [Function.update_self]
          by_cases fresh : ctr ∈ (windows other).queue
          · have known : (windows other).check ctr = false := by
              rw [← Bool.not_eq_true, takes other fits]
              exact fun absent => absent fresh
            rw [accept_known known]
            simp [fresh]
          · rw [accept_queue (size other) ((takes other fits).mpr fresh), evicted_concat (size other), matched.size]
            simp [fresh]
        · simp [own]
      · by_cases own : other = key
        · subst own
          rw [Function.update_self]
          intro seen member
          rcases mem_accept member with old | rfl
          · exact matched.carried other seen old
          · exact fits
        · rw [Function.update_of_ne own]
          exact matched.carried other
  | clear key =>
    have guard : ((cleared o tab ((o.tabs tab).storeKey key)).tabs tab).settings = (o.tabs tab).settings := by
      rw [cleared, Origin.forget, atTab_tabs]
      rfl
    refine ⟨none, cleared o tab ((o.tabs tab).storeKey key), Function.update windows key (windows key).clear, ?_, ?_,
      guard, fun rest => rfl⟩
    · simp only [Operation.perform, Call.program, Proc.solo_bind, solo_clear matched.resting positive,
        Option.bind_some, Proc.solo_pure]
    · refine matches_of matched (cleared_resting matched.resting _) guard (fun other => ?_) (fun other => ?_)
        (fun other => ?_)
      · by_cases own : other = key
        · subst own
          rw [Function.update_self]
          rfl
        · rw [Function.update_of_ne own]
      · simp only [stored_cleared, (storeKey_injective (o.tabs tab)).eq_iff, matched.queue]
        by_cases own : other = key
        · subst own
          rw [Function.update_self, if_pos rfl]
          rfl
        · rw [Function.update_of_ne own, if_neg own]
      · by_cases own : other = key
        · subst own
          rw [Function.update_self]
          intro seen member
          cases member
        · rw [Function.update_of_ne own]
          exact matched.carried other
  | reload =>
    have guard : ((o.atTab tab reloaded).tabs tab).settings = (o.tabs tab).settings := by
      rw [atTab_tabs]
      rfl
    refine ⟨none, o.atTab tab reloaded, windows, rfl, ?_, guard, fun rest => rfl⟩
    exact matches_of matched (reloaded_resting matched.resting) guard (fun _ => rfl) matched.queue matched.carried

/-- A disabled guard answers as windows of size zero do. -/
theorem performAll_disabled {windows : Windows} (disabled : (o.tabs tab).window = 0)
    (size : ∀ key, (windows key).windowSize = 0) (operations : List Operation) :
    ∃ o', (performAll tab operations).solo o = some (windowAnswers windows operations, o') := by
  induction operations generalizing o windows with
  | nil => exact ⟨o, rfl⟩
  | cons operation rest ih =>
    cases operation with
    | check key ctr =>
      obtain ⟨last, onward⟩ := ih disabled size
      refine ⟨last, ?_⟩
      simp [performAll, Operation.perform, Call.program, check, disabled, onward, windowAnswers,
        SlidingReplayWindow.check, size]
    | accept key ctr =>
      obtain ⟨last, onward⟩ := ih disabled size
      have same : Function.update windows key ((windows key).accept ctr) = windows := by
        rw [Function.update_eq_self_iff, SlidingReplayWindow.accept, dif_pos (size key)]
      refine ⟨last, ?_⟩
      simp [performAll, Operation.perform, Call.program, accept, disabled, onward, windowAnswers, same]
    | clear key =>
      have still (other : String) : (Function.update windows key (windows key).clear other).windowSize = 0 := by
        by_cases own : other = key
        · subst own
          rw [Function.update_self]
          exact size other
        · rw [Function.update_of_ne own]
          exact size other
      obtain ⟨last, onward⟩ := ih disabled still
      refine ⟨last, ?_⟩
      simp [performAll, Operation.perform, Call.program, clear, disabled, onward, windowAnswers]
    | reload =>
      have still : ((o.atTab tab reloaded).tabs tab).window = 0 := by
        rw [atTab_tabs]
        exact disabled
      obtain ⟨last, onward⟩ := ih still size
      refine ⟨last, ?_⟩
      simp [performAll, Operation.perform, onward, windowAnswers]

/-- Along any operations the match is kept. -/
theorem performAll_matches {windows : Windows} (matched : Matches tab o windows) (positive : (o.tabs tab).window ≠ 0)
    (operations : List Operation) (carried : ∀ operation ∈ operations, ∀ ctr ∈ operation.ctr?, ctr < 2 ^ 64) :
    ∃ o', (performAll tab operations).solo o = some (windowAnswers windows operations, o') := by
  induction operations generalizing o windows with
  | nil => exact ⟨o, rfl⟩
  | cons operation rest ih =>
    obtain ⟨answer, o', windows', ran, matched', same, answers⟩ :=
      perform_matches matched positive operation (carried operation List.mem_cons_self)
    have window : (o'.tabs tab).window = (o.tabs tab).window := congrArg (fun settings => settings.2.2) same
    obtain ⟨last, onward⟩ := ih matched' (by rwa [window]) fun other member =>
      carried other (List.mem_cons_of_mem _ member)
    refine ⟨last, ?_⟩
    simp only [performAll, Proc.solo_bind, ran, Option.bind_some, onward, Proc.solo_pure, answers]

/-- **Refinement.** The guard answers every sequence of operations of one tab,
reloads among them, as windows in memory do that are never lost. The counters
are those that a header can carry. -/
theorem guard_answers_as_windows (tab : T) (namespace_ : String) (window : ℕ) (operations : List Operation)
    (carried : ∀ operation ∈ operations, ∀ ctr ∈ operation.ctr?, ctr < 2 ^ 64) :
    ((performAll tab operations).solo (opened namespace_ window)).map Prod.fst =
      some (windowAnswers (fun _ => { windowSize := window }) operations) := by
  by_cases positive : window = 0
  · have disabled : ((opened namespace_ window : Origin T).tabs tab).window = 0 := positive
    have size (key : String) : ((fun _ => { windowSize := window } : Windows) key).windowSize = 0 := positive
    obtain ⟨last, ran⟩ := performAll_disabled disabled size operations
    rw [ran]
    rfl
  · have matched : Matches tab (opened namespace_ window) fun _ => { windowSize := window } := by
      refine ⟨⟨rfl, fun _ => rfl, fun _ => rfl, rfl, rfl, fun _ => ⟨List.nodup_nil, Nat.zero_le _⟩, ?_, ?_, ?_⟩,
        fun _ => rfl, fun _ => rfl, ?_⟩
      · intro key ref held
        cases held
      · intro key ref held
        cases held
      · intro key ref held
        cases held
      · intro key ctr member
        cases member
    obtain ⟨last, ran⟩ := performAll_matches matched positive operations carried
    rw [ran]
    rfl

theorem guard_answers_after_reload : ((performAll () [.accept "room" 7, .reload, .check "room" 7, .check "hall" 7]).solo
    (opened "app" 2)).map Prod.fst = some [false, true] :=
  guard_answers_as_windows () "app" 2 _ (by decide)

end SFrameRatchet.DurableWindow
