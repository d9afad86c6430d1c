import SFrameRatchet.DurableSteps

/-! The clear of a key, with other calls under way. It deletes what is stored and
then forgets what is cached, but it stops nobody: a persist that is still to come
writes its window back, and a hydration that has read before hands out what it
has read. As long as neither happens, nothing of the key is left. -/
namespace SFrameRatchet.DurableClear
open Collections Coroutine Interleaving DurableReplay DurableSteps

/-- A clear has had the key deleted from the store. -/
def hasDeleted : GuardStatus Unit → Bool
  | .suspended (.within _ _ _ .deleted) | .finished _ => true
  | _ => false

/-- A clear has ended. -/
def hasForgotten : GuardStatus Unit → Bool
  | .finished _ => true
  | _ => false

/-- A call does not write a window back after the deletion, and does not bring back
what it has read before it. -/
def bringsNothingBack (site : GuardSite Unit) (clearing : GuardStatus Unit) : Bool :=
  match site with
  | .within _ _ _ (.persisting _ (.merging _)) => !hasDeleted clearing
  | .within _ _ _ (.reading _ seen) => seen.isEmpty || !hasForgotten clearing
  | _ => true

section Gate
variable {ι : Type} [DecidableEq ι]

/-- The calls for the key of a clear bring nothing back. -/
def undisturbed (calls : ι → Call Unit) (z : ι) : GuardPool ι Unit → ι → GuardPool ι Unit → Prop :=
  fun before c => whereAllowed (fun site _ => (calls c).key = (calls z).key →
    bringsNothingBack site (before.statuses z) = true) before c

instance (calls : ι → Call Unit) (z : ι) (before : GuardPool ι Unit) (c : ι) (after : GuardPool ι Unit) :
    Decidable (undisturbed calls z before c after) :=
  inferInstanceAs (Decidable (whereAllowed (fun site _ => (calls c).key = (calls z).key →
    bringsNothingBack site (before.statuses z) = true) before c after))

end Gate

/-! ## What is left of a key -/

/-- A persist that has not been merged. -/
def unmerged : GuardPoint → Bool
  | .chained _ _ | .persisting _ .lock | .persisting _ .opening | .persisting _ (.merging _) => true
  | _ => false

section Left
variable {ι : Type} (calls : ι → Call Unit) (keys : ι → String) (z : ι) (o : Origin Unit)
    (statuses : ι → GuardStatus Unit)

/-- A call for a key waits at a point. -/
def Waits (fullKey : String) (at_ : GuardPoint → Prop) : Prop :=
  ∃ c point, keys c = fullKey ∧ statuses c = .suspended ((calls c).site (keys c) point) ∧ at_ point

/-- A key that is being hydrated has a call that hydrates it. -/
def Hydrated (fullKey : String) : Prop :=
  ∀ hydration, (o.tabs ()).hydrating.get? fullKey = some hydration → Waits calls keys statuses fullKey fun point =>
    point = .opening hydration ∨ ∃ seen, point = .reading hydration seen

/-- Once a clear has deleted its key nothing is stored, and once it has ended nothing
is cached, unless there is a persist that cannot go on. -/
structure Gone : Prop where
  deleted : hasDeleted (statuses z) = true → stored o (keys z) = []
  forgotten : hasForgotten (statuses z) = true →
    Waits calls keys statuses (keys z) (fun point => unmerged point = true) ∨
      ∀ ref, (o.tabs ()).mem.get? (keys z) = some ref → (o.windows.read ref).set = ∅

end Left

section Steps
variable {ι : Type} [DecidableEq ι] {calls : ι → Call Unit} {keys : ι → String} {z : ι} {o o' : Origin Unit}
  {statuses : ι → GuardStatus Unit} {c : ι} {site : GuardSite Unit} {status : GuardStatus Unit}

/-- A call still waits after a step of another one, or of its own that leads on. -/
theorem waits_update {fullKey : String} {before after : GuardPoint → Prop}
    (weaker : ∀ point, before point → after point)
    (waits : Waits calls keys statuses fullKey before)
    (own : ∀ point, statuses c = .suspended ((calls c).site (keys c) point) → before point → keys c = fullKey →
      ∃ next, status = .suspended ((calls c).site (keys c) next) ∧ after next) :
    Waits calls keys (Function.update statuses c status) fullKey after := by
  obtain ⟨w, point, named, here, holds⟩ := waits
  by_cases same : w = c
  · subst same
    obtain ⟨next, there, leads⟩ := own point here holds named
    exact ⟨w, next, named, by rw [Function.update_self, there], leads⟩
  · exact ⟨w, point, named, by rw [Function.update_of_ne same, here], weaker point holds⟩

theorem step_hydrated (waits : statuses c = .suspended site) (step : Step (calls c) (keys c) site o status o')
    {fullKey : String} (hydrated : Hydrated calls keys o statuses fullKey) :
    Hydrated calls keys o' (Function.update statuses c status) fullKey := by
  intro hydration under
  have kept (before : (o.tabs ()).hydrating.get? fullKey = some hydration)
      (own : ∀ point, statuses c = .suspended ((calls c).site (keys c) point) →
        (point = .opening hydration ∨ ∃ seen, point = .reading hydration seen) → keys c = fullKey →
        ∃ next, status = .suspended ((calls c).site (keys c) next) ∧
          (next = .opening hydration ∨ ∃ seen, next = .reading hydration seen)) :
      Waits calls keys (Function.update statuses c status) fullKey fun point =>
        point = .opening hydration ∨ ∃ seen, point = .reading hydration seen :=
    waits_update (fun _ => id) (hydrated hydration before) own
  cases step with
  | begins =>
    change ((o.tabs ()).hydrating.set (keys c) o.hydrations.next).get? fullKey = some hydration at under
    rw [OrderedMap.get?_set] at under
    split at under
    · rename_i same
      cases under
      exact ⟨c, _, same.symm, Function.update_self .., .inl rfl⟩
    · exact kept under fun _ _ _ same => absurd same.symm ‹_›
  | @ends own seen =>
    obtain ⟨-, -, rest⟩ := endHydration_mem o () (keys c) own seen
    have same := congrArg (fun guard : DurableReplayGuard => guard.hydrating.get? fullKey) rest
    rw [OrderedMap.get?_delete] at same
    rw [same] at under
    split at under
    · cases under
    · exact kept under fun _ _ _ same => absurd same.symm ‹_›
  | forgets =>
    change ((o.tabs ()).hydrating.delete (keys c)).get? fullKey = some hydration at under
    rw [OrderedMap.get?_delete] at under
    split at under
    · cases under
    · exact kept under fun _ _ _ same => absurd same.symm ‹_›
  | reads =>
    refine kept under fun point here holds _ => ?_
    cases here.symm.trans waits
    rcases holds with same | ⟨seen, same⟩
    · cases same
      exact ⟨_, rfl, .inr ⟨_, rfl⟩⟩
    · cases same
  | answers _ handed | known _ handed | records _ handed =>
    refine kept under fun point here holds _ => ?_
    cases here.symm.trans waits
    rcases holds with same | ⟨seen, same⟩ <;> cases same <;> cases handed
  | _ =>
    refine kept under fun point here holds _ => ?_
    rcases holds with same | ⟨seen, same⟩ <;> cases same <;> cases here.symm.trans waits

/-- The clear's own steps. -/
theorem clear_gone (gone : Gone calls keys z o statuses) (is : (calls z).caller = .clear)
    (waits : statuses z = .suspended site) (step : Step (calls z) (keys z) site o status o') :
    Gone calls keys z o' (Function.update statuses z status) := by
  cases step with
  | opens =>
    refine ⟨fun deleted => ?_, fun forgotten => ?_⟩
    · rw [Function.update_self] at deleted
      cases deleted
    · rw [Function.update_self] at forgotten
      cases forgotten
  | deletes =>
    refine ⟨fun _ => ?_, fun forgotten => ?_⟩
    · change ((o.store.delete (keys z)).get? (keys z)).getD [] = []
      rw [OrderedMap.get?_delete, if_pos rfl]
      rfl
    · rw [Function.update_self] at forgotten
      cases forgotten
  | forgets =>
    refine ⟨fun _ => gone.deleted (by rw [waits]; rfl), fun _ => .inr fun ref held => ?_⟩
    change ((o.tabs ()).mem.delete (keys z)).get? (keys z) = some ref at held
    rw [OrderedMap.get?_delete, if_pos rfl] at held
    cases held
  | answers is' | known is' | records is' =>
    rw [is'] at is
    cases is
  | cached hydrates | joins hydrates | begins hydrates | reads hydrates | ends hydrates => exact absurd is hydrates
  | dequeues accepts | locks accepts | rereads accepts | merges accepts | unlocks accepts | releases accepts
  | settles accepts => cases accepts.symm.trans is

/-- Other calls' steps, when they bring nothing back. -/
theorem other_gone (gone : Gone calls keys z o statuses) (owned : Owned calls keys o statuses) (others : z ≠ c)
    (waits : statuses c = .suspended site) (quiet : keys c = keys z → bringsNothingBack site (statuses z) = true)
    (step : Step (calls c) (keys c) site o status o') :
    Gone calls keys z o' (Function.update statuses c status) := by
  refine ⟨fun deleted => ?_, fun forgotten => ?_⟩
  · rw [Function.update_of_ne others] at deleted
    have before := gone.deleted deleted
    cases step with
    | merges =>
      rw [stored_merge]
      split
      · rename_i same
        exact absurd (quiet same.symm) (by simp [bringsNothingBack, Call.site, deleted])
      · exact before
    | deletes =>
      change ((o.store.delete (keys c)).get? (keys z)).getD [] = []
      rw [OrderedMap.get?_delete]
      split
      · rfl
      · exact before
    | _ => exact before
  · rw [Function.update_of_ne others] at forgotten
    have deleted : hasDeleted (statuses z) = true := by
      generalize statuses z = clearing at forgotten
      cases clearing with
      | finished => rfl
      | _ => cases forgotten
    rcases gone.forgotten forgotten with stuck | empty
    · refine .inl (waits_update (fun _ => id) stuck fun point here holds same => ?_)
      cases step with
      | dequeues | locks | rereads =>
        cases here.symm.trans waits
        exact ⟨_, rfl, rfl⟩
      | merges =>
        exact absurd (quiet same) (by simp [bringsNothingBack, Call.site, deleted])
      | answers _ handed | known _ handed | records _ handed =>
        cases here.symm.trans waits
        cases point with
        | hydrated | inFlight => cases holds
        | _ => cases handed
      | _ =>
        cases here.symm.trans waits
        try cases holds
    · have old {ref : Ref} (held : (o.tabs ()).mem.get? (keys z) = some ref) : Window o (keys z) ref :=
        owned.cached () (keys z) ref held
      -- a window of another key
      have apart {own ref : Ref} {win : MemWindow} (held : (o.tabs ()).mem.get? (keys z) = some ref)
          (window_ : Window o (keys c) own) (other : keys c ≠ keys z) :
            ((o.windows.write own win).read ref).set = ∅ := by
        rw [Heap.read_write, if_neg]
        · exact empty ref held
        · rintro rfl
          exact other (window_.2.symm.trans (old held).2)
      cases step with
      | records _ handed =>
        by_cases same : keys c = keys z
        · exact .inl ⟨c, _, same, Function.update_self .., rfl⟩
        · exact .inr fun ref held => apart held (handed_window owned waits handed) same
      | merges =>
        refine .inr fun ref held => apart held (owned.held c _ _ waits rfl) fun same => ?_
        exact absurd (quiet same) (by simp [bringsNothingBack, Call.site, deleted])
      | @ends hydration seen =>
        refine .inr fun ref held => ?_
        obtain ⟨-, others, -⟩ := endHydration_mem o () (keys c) hydration seen
        change ((o.windows.alloc _).read ref).set = ∅
        rw [Heap.read_alloc]
        rcases others (keys z) ref held with ⟨same, rfl⟩ | ⟨-, before⟩
        · have nothing : seen = [] := by
            have silent := quiet same.symm
            simpa [bringsNothingBack, Call.site, forgotten] using silent
          rw [if_pos rfl, nothing]
          simp [sliceLast, List.rtake]
        · rw [if_neg (Nat.ne_of_lt (old before).1)]
          exact empty ref before
      | forgets =>
        refine .inr fun ref held => ?_
        change ((o.tabs ()).mem.delete (keys c)).get? (keys z) = some ref at held
        rw [OrderedMap.get?_delete] at held
        split at held
        · cases held
        · exact empty ref held
      | _ => exact .inr empty

end Steps

/-! ## Runs -/

/-- A check of a key takes every counter for a new one. -/
def TakesAll (o : Origin Unit) (key : String) : Prop := ∀ ctr, ((check () key ctr).solo o).map Prod.fst = some true

theorem takesAll_disabled {o : Origin Unit} (windowless : (o.tabs ()).window = 0) (key : String) : TakesAll o key := by
  intro ctr
  simp [check, windowless]

theorem takesAll_of {o : Origin Unit} {call : Call Unit} {fullKey : String} (serves : Serves o call fullKey)
    (store : stored o fullKey = []) (idle : (o.tabs ()).hydrating.get? fullKey = none)
    (empty : ∀ ref, (o.tabs ()).mem.get? fullKey = some ref → (o.windows.read ref).set = ∅) : TakesAll o call.key := by
  intro ctr
  obtain ⟨available, positive, named⟩ := serves
  simp only [check, Proc.solo_bind, Proc.solo_get, Option.bind_some, available, positive, Bool.not_true, decide_false,
    Bool.or_self, Bool.false_eq_true, ↓reduceIte, named]
  cases held : (o.tabs ()).mem.get? fullKey with
  | some ref =>
    have hydrated : (hydrate () fullKey .check).solo o = some (ref, o) := by
      simp only [hydrate, Proc.solo_bind, Proc.solo_get, Option.bind_some, held, Proc.solo_yield, Proc.solo_pure]
    simp [hydrated, empty ref held]
  | none =>
    have unseen : (((o.beginHydration () fullKey).endHydration () fullKey o.hydrations.next []).windows.read
        o.windows.next).set = ∅ := by
      change ((o.windows.alloc _).read _).set = ∅
      rw [Heap.read_alloc, if_pos rfl]
      simp [sliceLast, List.rtake]
    simp [solo_hydrate_missing o () fullKey .check held idle, store, unseen]

section Runs
variable {ι : Type} [DecidableEq ι]

/-- Once a clear and the other calls for its key have ended, and no accept for the
key has started after it, a check takes every counter for a new one, on the guard
and on one that is opened anew. -/
def ClearsAll (gate : GuardPool ι Unit → ι → GuardPool ι Unit → Prop) (start : Origin Unit) (calls : ι → Call Unit)
    (z : ι) : Prop :=
  ∀ middle last key, calls z = .clear () key → Runs anyTurn (launch start calls) middle →
    middle.statuses z = .suspended .start →
    (∀ c ctr, calls c = .accept () key ctr → middle.statuses c ≠ .suspended .start) → Runs gate middle last →
    (∀ c, (calls c).key = key → ∃ answer, last.statuses c = .finished answer) →
    TakesAll last.shared key ∧ TakesAll (last.shared.atTab () reloaded) key

/-- **Clearing.** A clear leaves nothing of its key behind, as long as the calls for
the key bring nothing back. -/
theorem clear_leaves_nothing (namespace_ : String) (window : ℕ) (store : OrderedMap String (List ℕ))
    (accepted : List (String × ℕ)) (calls : ι → Call Unit) (z : ι) :
    ClearsAll (undisturbed calls z) (reopened namespace_ window store accepted) calls z := by
  intro middle last key is early waits _ late settled
  rcases Nat.eq_zero_or_pos window with rfl | positive
  · have same := runs_disabled (fun _ => rfl) (early.trans (late.mono fun _ _ _ _ => trivial))
    rw [same]
    exact ⟨takesAll_disabled rfl key, takesAll_disabled rfl key⟩
  have apart (c : ι) (same : storeKeys namespace_ window calls c = storeKeys namespace_ window calls z) :
      (calls c).key = (calls z).key := storeKey_injective _ same
  obtain ⟨stepping, hydrated⟩ := runs_step
    (fun o statuses => Hydrated calls (storeKeys namespace_ window calls) o statuses
      (storeKeys namespace_ window calls z))
    (reopened_stepping namespace_ positive.ne' store accepted calls) (fun hydration under => by cases under)
    (fun before c site after _ _ hydrated waits _ step => step_hydrated waits step hydrated) early
  have begins : Gone calls (storeKeys namespace_ window calls) z middle.shared middle.statuses := by
    constructor <;> intro ended <;> rw [waits] at ended <;> cases ended
  obtain ⟨stepping, hydrated, gone⟩ := runs_step
    (fun o statuses => Hydrated calls (storeKeys namespace_ window calls) o statuses
      (storeKeys namespace_ window calls z) ∧
      Gone calls (storeKeys namespace_ window calls) z o statuses) stepping ⟨hydrated, begins⟩
    (fun before c site after _ owned holds waits passes step => by
      refine ⟨step_hydrated waits step holds.1, ?_⟩
      by_cases own : z = c
      · subst own
        exact clear_gone holds.2 (by rw [is]; rfl) waits step
      · exact other_gone holds.2 owned own waits (fun same => passes site waits (apart c same)) step) late
  have nobody (P : GuardPoint → Prop) :
      ¬ Waits calls (storeKeys namespace_ window calls) last.statuses (storeKeys namespace_ window calls z) P := by
    rintro ⟨c, point, same, here, -⟩
    obtain ⟨answer, ended⟩ := settled c ((apart c same).trans (by rw [is]; rfl))
    cases here.symm.trans ended
  obtain ⟨answer, ended⟩ := settled z (by rw [is]; rfl)
  have nothing := gone.deleted (by rw [ended]; rfl)
  have empty := (gone.forgotten (by rw [ended]; rfl)).resolve_left (nobody _)
  have idle : (last.shared.tabs ()).hydrating.get? (storeKeys namespace_ window calls z) = none := by
    cases under : (last.shared.tabs ()).hydrating.get? (storeKeys namespace_ window calls z) with
    | none => rfl
    | some hydration => exact absurd (hydrated hydration under) (nobody _)
  have named : (calls z).key = key := by rw [is]; rfl
  have serves := stepping.serves z
  have anew : Serves (last.shared.atTab () reloaded) (calls z) (storeKeys namespace_ window calls z) :=
    serves_of_settings serves rfl
  rw [← named]
  refine ⟨takesAll_of serves nothing idle empty, takesAll_of anew nothing rfl fun ref held => ?_⟩
  cases held

end Runs

section Checked

/-- An accept and a clear of one key. -/
def acceptAndClear : Fin 2 → Call Unit
  | 0 => .accept () "room" 1
  | 1 => .clear () "room"

/-- The clear comes while the accept is under way: the merge is in time, and what is left of
the accept brings nothing back. -/
theorem clear_leaves_nothing_accepted : ∃ middle last : GuardPool (Fin 2) Unit,
    middle.statuses 0 = .suspended (.within () "sframe-replay|app|room" .accept (.persisting 0 (.merging []))) ∧
      middle.statuses 1 = .suspended .start ∧ Runs (undisturbed acceptAndClear 1) middle last ∧
        last.shared.accepted.length = 1 ∧ TakesAll last.shared "room" ∧
          TakesAll (last.shared.atTab () reloaded) "room" := by
  have result : ((launch (opened "app" 1) acceptAndClear).followPassing anyTurn (List.replicate 7 0)).bind
      (fun middle => (middle.followPassing (undisturbed acceptAndClear 1) [1, 0, 1, 0, 1, 0, 0]).map fun last =>
        (middle.statuses 0, middle.statuses 1, last.statuses 0, last.statuses 1, last.shared.accepted.length)) =
      some (.suspended (.within () "sframe-replay|app|room" .accept (.persisting 0 (.merging []))), .suspended .start,
        .finished none, .finished none, 1) := by
    decide +kernel
  obtain ⟨middle, early, onward⟩ := Option.bind_eq_some_iff.mp result
  obtain ⟨last, late, shape⟩ := Option.map_eq_some_iff.mp onward
  simp only [Prod.mk.injEq] at shape
  obtain ⟨begun, waits, settled, cleared, history⟩ := shape
  have runs := followPassing_runs late
  refine ⟨middle, last, begun, waits, runs, history,
    clear_leaves_nothing "app" 1 ∅ [] acceptAndClear 1 middle last "room"
    rfl (followPassing_runs early) waits (fun c ctr is => ?_) runs fun c _ => ?_⟩
  · match c with
    | 0 =>
      rw [begun]
      exact nofun
    | 1 => cases is
  · match c with
    | 0 => exact ⟨none, settled⟩
    | 1 => exact ⟨none, cleared⟩

/-- A persist that has read before a clear writes its counter back after it. -/
theorem cleared_counter_written_back : ¬ ClearsAll anyTurn (opened "app" 1) acceptAndClear 1 := by
  intro clears
  have result : ((launch (opened "app" 1) acceptAndClear).followPassing anyTurn (List.replicate 7 0)).bind
      (fun middle => (middle.followPassing anyTurn ([1, 1, 1] ++ List.replicate 4 0)).map fun last =>
        (middle.statuses 0, middle.statuses 1, last.statuses 0, last.statuses 1,
          ((check () "room" 1).solo last.shared).map Prod.fst)) =
      some (.suspended (.within () "sframe-replay|app|room" .accept (.persisting 0 (.merging []))), .suspended .start,
        .finished none, .finished none, some false) := by
    decide +kernel
  obtain ⟨middle, early, onward⟩ := Option.bind_eq_some_iff.mp result
  obtain ⟨last, late, shape⟩ := Option.map_eq_some_iff.mp onward
  simp only [Prod.mk.injEq] at shape
  obtain ⟨begun, waits, settled, cleared, refused⟩ := shape
  obtain ⟨takes, -⟩ := clears middle last "room" rfl (followPassing_runs early) waits (fun c ctr is => by
    match c with
    | 0 =>
      rw [begun]
      exact nofun
    | 1 => cases is) (followPassing_runs late) fun c _ => by
    match c with
    | 0 => exact ⟨none, settled⟩
    | 1 => exact ⟨none, cleared⟩
  exact absurd ((takes 1).symm.trans refused) (by decide)

end Checked

end SFrameRatchet.DurableClear
