import SFrameRatchet.DurableReplay

/-! The steps of calls on durable replay guards. Whatever the interleaving, a turn
of a call is one of a few steps, and what every step preserves holds in every
run. Windows and hydrations belong to the key they were made for. -/
namespace SFrameRatchet.DurableSteps
open Collections Coroutine Interleaving DurableReplay

variable {T : Type} [DecidableEq T]

abbrev GuardStatus (T : Type) := Status (GuardSite T) (Option Bool)

instance : DecidableEq (GuardStatus T) := inferInstance

/-- What one turn of a call does on a guard that is not disabled. -/
inductive Step (call : Call T) (fullKey : String) : GuardSite T → Origin T → GuardStatus T → Origin T → Prop
  | cached (hydrates : call.caller ≠ .clear) (held : (o.tabs call.tab).mem.get? fullKey = some ref) :
    Step call fullKey .start o (.suspended (call.site fullKey (.hydrated ref))) o
  | joins (hydrates : call.caller ≠ .clear) (missing : (o.tabs call.tab).mem.get? fullKey = none)
    (under : (o.tabs call.tab).hydrating.get? fullKey = some hydration) :
    Step call fullKey .start o (.suspended (call.site fullKey (.inFlight hydration))) o
  | begins (hydrates : call.caller ≠ .clear) (missing : (o.tabs call.tab).mem.get? fullKey = none)
    (idle : (o.tabs call.tab).hydrating.get? fullKey = none) :
    Step call fullKey .start o (.suspended (call.site fullKey (.opening o.hydrations.next)))
      (o.beginHydration call.tab fullKey)
  | reads (hydrates : call.caller ≠ .clear) : Step call fullKey (call.site fullKey (.opening hydration)) o
      (.suspended (call.site fullKey (.reading hydration (stored o fullKey)))) o
  | ends (hydrates : call.caller ≠ .clear) : Step call fullKey (call.site fullKey (.reading hydration seen)) o
      (.suspended (call.site fullKey (.hydrated o.windows.next))) (o.endHydration call.tab fullKey hydration seen)
  | answers (is : call = .check tab key ctr) (handed : o.windowAt point = some ref) :
    Step call fullKey (call.site fullKey point) o (.finished (some (decide (ctr ∉ (o.windows.read ref).set)))) o
  | known (is : call = .accept tab key ctr) (handed : o.windowAt point = some ref)
    (old : ctr ∈ (o.windows.read ref).set) : Step call fullKey (call.site fullKey point) o (.finished none) o
  | records (is : call = .accept tab key ctr) (handed : o.windowAt point = some ref)
    (fresh : ctr ∉ (o.windows.read ref).set) :
    Step call fullKey (call.site fullKey point) o
      (.suspended (call.site fullKey (.chained ref (o.tabs call.tab).persistTail.length)))
      (o.recordAccept call.tab fullKey ref ctr)
  | dequeues (accepts : call.caller = .accept) (next : (o.tabs call.tab).persisted = link) :
    Step call fullKey (call.site fullKey (.chained ref link)) o
      (.suspended (call.site fullKey (.persisting ref .lock))) o
  | locks (accepts : call.caller = .accept) (free : fullKey ∉ o.locks) :
    Step call fullKey (call.site fullKey (.persisting ref .lock)) o
      (.suspended (call.site fullKey (.persisting ref .opening))) { o with locks := fullKey :: o.locks }
  | rereads (accepts : call.caller = .accept) : Step call fullKey (call.site fullKey (.persisting ref .opening)) o
      (.suspended (call.site fullKey (.persisting ref (.merging (stored o fullKey))))) o
  | merges (accepts : call.caller = .accept) : Step call fullKey (call.site fullKey (.persisting ref (.merging seen))) o
      (.suspended (call.site fullKey (.persisting ref .written))) (o.merge call.tab fullKey ref seen)
  | unlocks (accepts : call.caller = .accept) : Step call fullKey (call.site fullKey (.persisting ref .written)) o
      (.suspended (call.site fullKey (.persisting ref .unlocked))) { o with locks := o.locks.erase fullKey }
  | releases (accepts : call.caller = .accept) : Step call fullKey (call.site fullKey (.persisting ref .unlocked)) o
      (.suspended (call.site fullKey .settled)) (o.releasePersist call.tab fullKey)
  | settles (accepts : call.caller = .accept) : Step call fullKey (call.site fullKey .settled) o (.finished none) o
  | opens (is : call.caller = .clear) : Step call fullKey .start o (.suspended (call.site fullKey .clearing)) o
  | deletes (is : call.caller = .clear) :
      Step call fullKey (call.site fullKey .clearing) o (.suspended (call.site fullKey .deleted))
      { o with store := o.store.delete fullKey }
  | forgets (is : call.caller = .clear) :
    Step call fullKey (call.site fullKey .deleted) o (.finished none) (o.forget call.tab fullKey)

/-- The guard of a call is not disabled, and this is what it calls the key. -/
structure Serves (o : Origin T) (call : Call T) (fullKey : String) : Prop where
  available : (o.tabs call.tab).available = true
  positive : (o.tabs call.tab).window ≠ 0
  named : (o.tabs call.tab).storeKey call.key = fullKey

def stepping (call : Call T) (fullKey : String) : Contract (GuardSite T) (Origin T) where
  assume _ o := Serves o call fullKey
  moves site start next o := Step call fullKey site start (.suspended next) o

def stepped (call : Call T) (fullKey : String) (site : GuardSite T) (start : Origin T) (answer : Option Bool)
    (o : Origin T) : Prop :=
  Step call fullKey site start (.finished answer) o

variable {call : Call T} {fullKey : String} {o : Origin T}

/-- A hydration hands its caller a window. -/
theorem keeps_hydrate (hydrates : call.caller ≠ .clear) :
    (stepping call fullKey).Keeps (hydrate call.tab fullKey call.caller)
      (fun site start ref now => Serves now call fullKey ∧ start = now ∧
        ∃ point, site = call.site fullKey point ∧ now.windowAt point = some ref) .start o o := by
  simp only [hydrate, Contract.keeps_bind, Contract.keeps_get]
  cases held : (o.tabs call.tab).mem.get? fullKey with
  | some ref =>
    refine ⟨.cached hydrates held, fun later _ serves => ?_⟩
    exact ⟨serves, rfl, .hydrated ref, rfl, rfl⟩
  | none =>
    cases under : (o.tabs call.tab).hydrating.get? fullKey with
    | some hydration =>
      refine ⟨.joins hydrates held under, fun later ready serves => ?_⟩
      obtain ⟨ref, there⟩ := Option.isSome_iff_exists.mp ready
      refine ⟨serves, rfl, .inFlight hydration, rfl, ?_⟩
      change (later.hydrations.read hydration).window = some ((later.hydrations.read hydration).window.getD 0)
      rw [there]
      rfl
    | none =>
      refine ⟨.begins hydrates held under, fun _ _ _ =>
        ⟨.reads hydrates, fun later _ _ => ⟨.ends hydrates, fun _ _ serves => ?_⟩⟩⟩
      exact ⟨serves, rfl, .hydrated later.windows.next, rfl, rfl⟩

/-- Every turn of a call is one of the steps. -/
theorem program_steps (serves : Serves o call fullKey) :
    (stepping call fullKey).Keeps call.program (stepped call fullKey) .start o o := by
  obtain ⟨available, positive, named⟩ := serves
  cases call with
  | check tab key ctr =>
    simp only [Call.tab, Call.key] at available positive named
    simp only [Call.program, check, Contract.keeps_bind, Contract.keeps_get, available, positive, Bool.not_true,
      decide_false, Bool.or_self, Bool.false_eq_true, ↓reduceIte, named]
    refine Contract.keeps_mono (keeps_hydrate (fun never => by cases never)) ?_
    rintro _ now ref _ ⟨-, rfl, point, rfl, handed⟩
    exact Step.answers rfl handed
  | accept tab key ctr =>
    simp only [Call.tab, Call.key] at available positive named
    simp only [Call.program, accept, Contract.keeps_bind, Contract.keeps_get, available, positive, Bool.not_true,
      decide_false, Bool.or_self, Bool.false_eq_true, ↓reduceIte, named]
    refine Contract.keeps_mono (keeps_hydrate (fun never => by cases never)) ?_
    rintro _ now ref _ ⟨-, rfl, point, rfl, handed⟩
    split
    · exact Step.known rfl handed ‹_›
    · refine ⟨Step.records rfl handed ‹_›, fun later ready _ => ?_⟩
      have next : (later.tabs tab).persisted = (now.tabs tab).persistTail.length := by simpa using ready
      refine ⟨Step.dequeues rfl next, fun _ ready _ => ?_⟩
      have free := of_decide_eq_true ready
      exact ⟨Step.locks rfl free, fun _ _ _ => ⟨Step.rereads rfl, fun _ _ _ => ⟨Step.merges rfl, fun _ _ _ =>
        ⟨Step.unlocks rfl, fun _ _ _ => ⟨Step.releases rfl, fun _ _ _ => Step.settles rfl⟩⟩⟩⟩⟩
  | clear tab key =>
    simp only [Call.tab, Call.key] at available positive named
    simp only [Call.program, clear, Contract.keeps_bind, Contract.keeps_get, available, positive, Bool.not_true,
      decide_false, Bool.or_self, Bool.false_eq_true, ↓reduceIte, named]
    exact ⟨Step.opens rfl, fun _ _ _ => ⟨Step.deletes rfl, fun _ _ _ => Step.forgets rfl⟩⟩

variable {site : GuardSite T} {status : GuardStatus T} {o' : Origin T}

/-- A call works on the guard of its own tab. -/
theorem step_elsewhere (step : Step call fullKey site o status o') {tab : T} (apart : tab ≠ call.tab) :
    o'.tabs tab = o.tabs tab := by
  cases step <;> simp [Origin.beginHydration, Origin.endHydration, Origin.recordAccept, Origin.merge,
    Origin.releasePersist, Origin.forget, Origin.atTab, apart]

/-- No step changes the configuration of a guard. -/
theorem step_settings (step : Step call fullKey site o status o') (tab : T) :
    (o'.tabs tab).settings = (o.tabs tab).settings := by
  by_cases own : tab = call.tab
  · subst own
    cases step with
    | @ends hydration seen =>
      obtain ⟨-, -, rest⟩ := endHydration_mem o call.tab fullKey hydration seen
      exact (congrArg DurableReplayGuard.settings rest :)
    | _ => simp [Origin.beginHydration, Origin.recordAccept, Origin.merge, Origin.releasePersist, Origin.forget,
        Origin.atTab, DurableReplayGuard.markPersisting, DurableReplayGuard.releasePersisting,
        DurableReplayGuard.settings]
  · rw [step_elsewhere step own]

omit [DecidableEq T] in
theorem serves_of_settings {o' : Origin T} (serves : Serves o call fullKey)
    (same : (o'.tabs call.tab).settings = (o.tabs call.tab).settings) : Serves o' call fullKey := by
  have available : (o'.tabs call.tab).available = (o.tabs call.tab).available := congrArg (·.1) same
  have namespace_ : (o'.tabs call.tab).namespace_ = (o.tabs call.tab).namespace_ := congrArg (·.2.1) same
  have window : (o'.tabs call.tab).window = (o.tabs call.tab).window := congrArg (·.2.2) same
  refine ⟨available.trans serves.available, window ▸ serves.positive, ?_⟩
  rw [DurableReplayGuard.storeKey, namespace_]
  exact serves.named

/-! ## Ownership -/

/-- A window that has been made for a key. -/
def Window (o : Origin T) (fullKey : String) (ref : Ref) : Prop :=
  ref < o.windows.next ∧ (o.windows.read ref).fullKey = fullKey

/-- A hydration that has been begun for a key. -/
def Hydrates (o : Origin T) (fullKey : String) (hydration : Ref) : Prop :=
  hydration < o.hydrations.next ∧ (o.hydrations.read hydration).fullKey = fullKey

/-- The window that a call holds at a point. -/
def holds : GuardPoint → Option Ref
  | .hydrated ref | .chained ref _ | .persisting ref _ => some ref
  | _ => none

/-- The hydration that a call knows of at a point. -/
def follows : GuardPoint → Option Ref
  | .opening hydration | .reading hydration _ | .inFlight hydration => some hydration
  | _ => none

omit [DecidableEq T] in
/-- Writing a window does not change what it is a window of. -/
theorem window_written {key : String} {own ref : Ref} {win : MemWindow}
    (same : win.fullKey = (o.windows.read own).fullKey) (window : Window o key ref) :
    ref < (o.windows.write own win).next ∧ ((o.windows.write own win).read ref).fullKey = key := by
  obtain ⟨allocated, named⟩ := window
  refine ⟨allocated, ?_⟩
  rw [Heap.read_write]
  split
  · rename_i written
    rw [same, ← written, named]
  · exact named

/-- A window stays the window of its key. -/
theorem step_window (step : Step call fullKey site o status o') {key : String} {ref : Ref}
    (window : Window o key ref) : Window o' key ref := by
  obtain ⟨allocated, named⟩ := window
  cases step with
  | ends =>
    refine ⟨Nat.lt_succ_of_lt allocated, ?_⟩
    change ((o.windows.alloc _).read ref).fullKey = key
    rw [Heap.read_alloc, if_neg (Nat.ne_of_lt allocated)]
    exact named
  | records => exact window_written rfl ⟨allocated, named⟩
  | merges => exact window_written rfl ⟨allocated, named⟩
  | _ => exact ⟨allocated, named⟩

/-- So does a hydration, when the call's own is one for its key. -/
theorem step_hydrates (step : Step call fullKey site o status o')
    (followed : ∀ point own, site = call.site fullKey point → follows point = some own → Hydrates o fullKey own)
    {key : String} {hydration : Ref} (hydrates : Hydrates o key hydration) : Hydrates o' key hydration := by
  obtain ⟨allocated, named⟩ := hydrates
  cases step with
  | begins =>
    refine ⟨Nat.lt_succ_of_lt allocated, ?_⟩
    change ((o.hydrations.alloc _).read hydration).fullKey = key
    rw [Heap.read_alloc, if_neg (Nat.ne_of_lt allocated)]
    exact named
  | @ends own seen =>
    refine ⟨allocated, ?_⟩
    change ((o.hydrations.write own _).read hydration).fullKey = key
    rw [Heap.read_write]
    split
    · exact (followed (.reading own seen) own rfl rfl).2.symm.trans (‹hydration = own› ▸ named)
    · exact named
  | _ => exact ⟨allocated, named⟩

/-- The window of a hydration that has just ended. -/
theorem endHydration_window (o : Origin T) (tab : T) (fullKey : String) (hydration : Ref) (seen : List ℕ) :
    Window (o.endHydration tab fullKey hydration seen) fullKey o.windows.next := by
  refine ⟨Nat.lt_succ_self _, ?_⟩
  change ((o.windows.alloc _).read o.windows.next).fullKey = fullKey
  rw [Heap.read_alloc, if_pos rfl]

/-- A hydration that has just been begun. -/
theorem beginHydration_hydrates (o : Origin T) (tab : T) (fullKey : String) :
    Hydrates (o.beginHydration tab fullKey) fullKey o.hydrations.next := by
  refine ⟨Nat.lt_succ_self _, ?_⟩
  change ((o.hydrations.alloc _).read o.hydrations.next).fullKey = fullKey
  rw [Heap.read_alloc, if_pos rfl]

/-- Every table and every call knows windows and hydrations of its key only. -/
structure Owned {ι : Type} (calls : ι → Call T) (keys : ι → String) (o : Origin T) (statuses : ι → GuardStatus T) :
    Prop where
  cached : ∀ tab key ref, (o.tabs tab).mem.get? key = some ref → Window o key ref
  hydrating : ∀ tab key hydration, (o.tabs tab).hydrating.get? key = some hydration → Hydrates o key hydration
  hydrated : ∀ hydration ref, hydration < o.hydrations.next → (o.hydrations.read hydration).window = some ref →
    Window o (o.hydrations.read hydration).fullKey ref
  held : ∀ c point ref, statuses c = .suspended ((calls c).site (keys c) point) → holds point = some ref →
    Window o (keys c) ref
  followed : ∀ c point hydration, statuses c = .suspended ((calls c).site (keys c) point) →
    follows point = some hydration → Hydrates o (keys c) hydration

section Owned
variable {ι : Type} [DecidableEq ι] {calls : ι → Call T} {keys : ι → String} {statuses : ι → GuardStatus T} {c : ι}

omit [DecidableEq T] [DecidableEq ι] in
/-- What a call is handed is a window of its key. -/
theorem handed_window (owned : Owned calls keys o statuses) {point : GuardPoint} {ref : Ref}
    (waits : statuses c = .suspended ((calls c).site (keys c) point)) (handed : o.windowAt point = some ref) :
    Window o (keys c) ref := by
  cases point with
  | hydrated window =>
    cases handed
    exact owned.held c _ ref waits rfl
  | inFlight hydration =>
    obtain ⟨allocated, named⟩ := owned.followed c _ hydration waits rfl
    exact named ▸ owned.hydrated hydration ref allocated handed
  | _ => cases handed

theorem step_owned (owned : Owned calls keys o statuses) (waits : statuses c = .suspended site)
    (step : Step (calls c) (keys c) site o status o') : Owned calls keys o' (Function.update statuses c status) := by
  have followed (point : GuardPoint) (own : Ref) (here : site = (calls c).site (keys c) point)
      (follows : follows point = some own) : Hydrates o (keys c) own :=
    owned.followed c point own (here ▸ waits) follows
  have kept {key : String} {ref : Ref} (window : Window o key ref) : Window o' key ref := step_window step window
  have keeps {key : String} {hydration : Ref} (hydrates : Hydrates o key hydration) : Hydrates o' key hydration :=
    step_hydrates step followed hydrates
  refine ⟨fun tab key ref held => ?_, fun tab key hydration under => ?_, fun hydration ref allocated ended => ?_,
    fun other point ref stays held => ?_, fun other point hydration stays follows => ?_⟩
  · by_cases own : tab = (calls c).tab
    · subst own
      cases step with
      | @ends hydration seen =>
        obtain ⟨-, others, -⟩ := endHydration_mem o (calls c).tab (keys c) hydration seen
        rcases others key ref held with ⟨rfl, rfl⟩ | ⟨-, old⟩
        · exact endHydration_window o _ _ _ _
        · exact kept (owned.cached _ key ref old)
      | forgets =>
        rw [Origin.forget, atTab_tabs, OrderedMap.get?_delete] at held
        split at held
        · cases held
        · exact kept (owned.cached _ key ref held)
      | begins | records | releases =>
        refine kept (owned.cached (calls c).tab key ref ?_)
        simpa [Origin.beginHydration, Origin.recordAccept, Origin.releasePersist,
          DurableReplayGuard.markPersisting, DurableReplayGuard.releasePersisting, Origin.atTab] using held
      | _ => exact kept (owned.cached _ key ref held)
    · rw [step_elsewhere step own] at held
      exact kept (owned.cached tab key ref held)
  · by_cases own : tab = (calls c).tab
    · subst own
      cases step with
      | begins =>
        rw [Origin.beginHydration, atTab_tabs, OrderedMap.get?_set] at under
        split at under
        · rename_i own
          rw [own, ← Option.some.inj under]
          exact beginHydration_hydrates o _ _
        · exact keeps (owned.hydrating _ key hydration under)
      | @ends own seen =>
        obtain ⟨-, -, rest⟩ := endHydration_mem o (calls c).tab (keys c) own seen
        have same := congrArg (fun guard : DurableReplayGuard => guard.hydrating.get? key) rest
        rw [OrderedMap.get?_delete] at same
        rw [same] at under
        split at under
        · cases under
        · exact keeps (owned.hydrating _ key hydration under)
      | forgets =>
        rw [Origin.forget, atTab_tabs, OrderedMap.get?_delete] at under
        split at under
        · cases under
        · exact keeps (owned.hydrating _ key hydration under)
      | records | releases =>
        refine keeps (owned.hydrating (calls c).tab key hydration ?_)
        simpa [Origin.recordAccept, Origin.releasePersist, DurableReplayGuard.markPersisting,
          DurableReplayGuard.releasePersisting, Origin.atTab] using under
      | _ => exact keeps (owned.hydrating _ key hydration under)
    · rw [step_elsewhere step own] at under
      exact keeps (owned.hydrating tab key hydration under)
  · cases step with
    | begins =>
      change ((o.hydrations.alloc _).read hydration).window = some ref at ended
      change Window _ ((o.hydrations.alloc _).read hydration).fullKey ref
      rw [Heap.read_alloc] at ended ⊢
      split at ended
      · cases ended
      · rename_i older
        rw [if_neg older]
        exact kept (owned.hydrated hydration ref (Nat.lt_of_le_of_ne (Nat.lt_succ_iff.mp allocated) older) ended)
    | ends =>
      change ((o.hydrations.write _ _).read hydration).window = some ref at ended
      change Window _ ((o.hydrations.write _ _).read hydration).fullKey ref
      rw [Heap.read_write] at ended ⊢
      split at ended
      · rename_i same
        rw [if_pos same, ← Option.some.inj ended]
        exact endHydration_window o _ _ _ _
      · rename_i other
        rw [if_neg other]
        exact kept (owned.hydrated hydration ref allocated ended)
    | _ => exact kept (owned.hydrated hydration ref allocated ended)
  · by_cases own : other = c
    · subst own
      rw [Function.update_self] at stays
      cases step with
      | cached _ there =>
        cases stays
        cases held
        exact owned.cached _ _ ref there
      | ends =>
        cases stays
        cases held
        exact endHydration_window o _ _ _ _
      | records _ handed =>
        cases stays
        cases held
        exact kept (handed_window owned waits handed)
      | dequeues | locks | rereads | merges | unlocks =>
        cases stays
        cases held
        exact kept (owned.held _ _ ref waits rfl)
      | answers | known | settles | forgets => cases stays
      | _ =>
        cases stays
        cases held
    · rw [Function.update_of_ne own] at stays
      exact kept (owned.held other point ref stays held)
  · by_cases own : other = c
    · subst own
      rw [Function.update_self] at stays
      cases step with
      | joins _ _ under =>
        cases stays
        cases follows
        exact owned.hydrating _ _ hydration under
      | begins =>
        cases stays
        cases follows
        exact beginHydration_hydrates o _ _
      | reads =>
        cases stays
        cases follows
        exact owned.followed _ _ hydration waits rfl
      | answers | known | settles | forgets => cases stays
      | _ =>
        cases stays
        cases follows
    · rw [Function.update_of_ne own] at stays
      exact keeps (owned.followed other point hydration stays follows)

end Owned

/-! ## What the calls know -/

section Update
variable {ι : Type} [DecidableEq ι] {calls : ι → Call T} {keys : ι → String} {statuses : ι → GuardStatus T} {c : ι}
  {status : GuardStatus T}

omit [DecidableEq T]

/-- What holds at the point of every call: at those of the calls that wait, and at
the one that the step has led to. -/
theorem everywhere_update {Fine : String → GuardPoint → Prop}
    (others : ∀ other point, other ≠ c → statuses other = .suspended ((calls other).site (keys other) point) →
      Fine (keys other) point)
    (own : ∀ point, status = .suspended ((calls c).site (keys c) point) → Fine (keys c) point) (other : ι)
    (point : GuardPoint)
    (here : Function.update statuses c status other = .suspended ((calls other).site (keys other) point)) :
    Fine (keys other) point := by
  by_cases same : other = c
  · subst same
    rw [Function.update_self] at here
    exact own point here
  · rw [Function.update_of_ne same] at here
    exact others other point same here

/-- A mark that one call has at a time. -/
def Exclusive {A : Type} (calls : ι → Call T) (keys : ι → String) (mark : String → GuardPoint → Option A)
    (statuses : ι → GuardStatus T) : Prop :=
  ∀ first second point point' a, statuses first = .suspended ((calls first).site (keys first) point) →
    statuses second = .suspended ((calls second).site (keys second) point') → mark (keys first) point = some a →
      mark (keys second) point' = some a → first = second

/-- A step keeps marks exclusive when nobody else has the mark it leads to. -/
theorem exclusive_update {A : Type} {mark mark' : String → GuardPoint → Option A}
    (exclusive : Exclusive calls keys mark statuses)
    (others : ∀ other point a, other ≠ c → statuses other = .suspended ((calls other).site (keys other) point) →
      mark' (keys other) point = some a → mark (keys other) point = some a)
    (own : ∀ point a, status = .suspended ((calls c).site (keys c) point) → mark' (keys c) point = some a →
      ∀ other point', other ≠ c → statuses other = .suspended ((calls other).site (keys other) point') →
        mark (keys other) point' ≠ some a) :
    Exclusive calls keys mark' (Function.update statuses c status) := by
  intro first second point point' a here there marked marked'
  by_cases same : first = c <;> by_cases same' : second = c
  · rw [same, same']
  · subst same
    rw [Function.update_self] at here
    rw [Function.update_of_ne same'] at there
    exact absurd (others second point' a same' there marked') (own point a here marked second point' same' there)
  · subst same'
    rw [Function.update_self] at there
    rw [Function.update_of_ne same] at here
    exact absurd (others first point a same here marked) (own point' a there marked' first point same here)
  · rw [Function.update_of_ne same] at here
    rw [Function.update_of_ne same'] at there
    exact exclusive first second point point' a here there (others first point a same here marked)
      (others second point' a same' there marked')

omit [DecidableEq ι] in
/-- Nobody else has the mark that a call has. -/
theorem Exclusive.apart {A : Type} {mark : String → GuardPoint → Option A}
    (exclusive : Exclusive calls keys mark statuses)
    {point : GuardPoint} {a : A} (waits : statuses c = .suspended ((calls c).site (keys c) point))
    (marked : mark (keys c) point = some a) (other : ι) (point' : GuardPoint) (others : other ≠ c)
    (here : statuses other = .suspended ((calls other).site (keys other) point')) :
    mark (keys other) point' ≠ some a :=
  fun marked' => others (exclusive other c point' point a here waits marked' marked)

end Update

/-! ## Runs -/

section Runs
variable {ι : Type} [DecidableEq ι] {calls : ι → Call T} {keys : ι → String}

/-- Calls on guards, in one origin. -/
abbrev GuardPool (ι T : Type) := Pool ι (GuardSite T) (Origin T) (Option Bool)

def launch (start : Origin T) (calls : ι → Call T) : GuardPool ι T :=
  .launch .start start fun c => (calls c).program

/-- A pool of calls that have taken nothing but steps. -/
structure Stepping (calls : ι → Call T) (keys : ι → String) (pool : GuardPool ι T) : Prop where
  serves : ∀ c, Serves pool.shared (calls c) (keys c)
  owned : Owned calls keys pool.shared pool.statuses
  follows : ∀ c, Follows (stepping (calls c) (keys c)) (stepped (calls c) (keys c)) (pool.calls c)

omit [DecidableEq ι] in
theorem launch_stepping {start : Origin T} (serves : ∀ c, Serves start (calls c) (keys c))
    (owned : Owned calls keys start fun _ => .suspended .start) : Stepping calls keys (launch start calls) :=
  ⟨serves, owned, launch_follows fun _ _ serves => program_steps serves⟩

/-- The keys of calls, as guards of one namespace call them. -/
def storeKeys (namespace_ : String) (window : ℕ) (calls : ι → Call T) (c : ι) : String :=
  ((opened namespace_ window : Origin T).tabs (calls c).tab).storeKey (calls c).key

omit [DecidableEq ι] in
theorem reopened_stepping (namespace_ : String) {window : ℕ} (positive : window ≠ 0)
    (store : OrderedMap String (List ℕ)) (accepted : List (String × ℕ)) (calls : ι → Call T) :
    Stepping calls (storeKeys namespace_ window calls) (launch (reopened namespace_ window store accepted) calls) := by
  refine launch_stepping (fun _ => ⟨rfl, positive, rfl⟩) ⟨?_, ?_, ?_, ?_, ?_⟩
  · intro tab key ref held
    cases held
  · intro tab key hydration under
    cases under
  · intro hydration ref allocated
    exact absurd allocated (Nat.not_lt_zero _)
  · intro c point ref here
    cases here
  · intro c point hydration here
    cases here

/-- A guard without a window is disabled. -/
def disabled (call : Call T) : Contract (GuardSite T) (Origin T) where
  assume _ o := (o.tabs call.tab).window = 0
  moves _ start _ o := o = start

omit [DecidableEq ι] in
theorem program_disabled {call : Call T} {o : Origin T} (windowless : (o.tabs call.tab).window = 0) :
    (disabled call).Keeps call.program (fun _ start _ o => o = start) .start o o := by
  cases call with
  | check tab key ctr =>
    have none : (o.tabs tab).window = 0 := windowless
    simp [Call.program, check, none]
  | accept tab key ctr =>
    have none : (o.tabs tab).window = 0 := windowless
    simp [Call.program, accept, none]
  | clear tab key =>
    have none : (o.tabs tab).window = 0 := windowless
    simp [Call.program, clear, none]

/-- Where no guard has a window, nothing happens. -/
theorem runs_disabled {start : Origin T} {last : GuardPool ι T} (windowless : ∀ tab, (start.tabs tab).window = 0)
    (runs : Runs anyTurn (launch start calls) last) : last.shared = start := by
  refine runs_invariant (fun c => disabled (calls c)) (fun _ _ start _ o => o = start) (fun o _ => o = start) rfl
    (launch_follows fun _ _ windowless => program_disabled windowless) ?_ ?_ runs
  · intro _ c _ _ same _ _ _
    change (_ : ℕ) = 0
    rw [same]
    exact windowless _
  · intro before c _ after same _ _ _ moved
    generalize after.statuses c = status at moved
    cases status with
    | running => exact moved.elim
    | suspended next => exact moved.trans same
    | finished answer => exact moved.trans same

/-- **The step rule.** What every step preserves, by whichever call, holds in every
pool that a run can reach. -/
theorem runs_step {gate : GuardPool ι T → ι → GuardPool ι T → Prop} {first last : GuardPool ι T}
    (invariant : Origin T → (ι → GuardStatus T) → Prop) (stepping : Stepping calls keys first)
    (begins : invariant first.shared first.statuses)
    (preserves : ∀ before c site after, (∀ c, Serves before.shared (calls c) (keys c)) →
      Owned calls keys before.shared before.statuses → invariant before.shared before.statuses →
      before.statuses c = .suspended site → gate before c after →
      Step (calls c) (keys c) site before.shared (after.statuses c) after.shared →
      invariant after.shared (Function.update before.statuses c (after.statuses c)))
    (runs : Runs gate first last) : Stepping calls keys last ∧ invariant last.shared last.statuses := by
  obtain ⟨⟨serves, owned, holds⟩, follows⟩ := runs_follow (fun c => DurableSteps.stepping (calls c) (keys c))
    (fun c => stepped (calls c) (keys c)) (fun o statuses =>
      (∀ c, Serves o (calls c) (keys c)) ∧ Owned calls keys o statuses ∧ invariant o statuses)
    ⟨stepping.serves, stepping.owned, begins⟩ stepping.follows (fun _ c _ _ holds _ _ _ => holds.1 c)
    (fun before c site after ⟨serves, owned, holds⟩ waits passes _ moved => by
      have step : Step (calls c) (keys c) site before.shared (after.statuses c) after.shared := by
        generalize after.statuses c = status at moved
        cases status with
        | running => cases moved
        | suspended next => exact moved
        | finished answer => exact moved
      exact ⟨fun other => serves_of_settings (serves other) (step_settings step _), step_owned owned waits step,
        preserves before c site after serves owned holds waits passes step⟩) runs
  exact ⟨⟨serves, owned, follows⟩, holds⟩

end Runs

end SFrameRatchet.DurableSteps
