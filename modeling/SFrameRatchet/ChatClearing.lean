import SFrameRatchet.ChatSpecimen
import SFrameRatchet.DurableWindow

/-! Rotation and the durable guard. A rotation clears the keys of those senders that
have a window in memory, but after a reload, or when a room had to go, the store
still knows senders that memory has forgotten. What a rotation leaves behind is what
is stored for them. -/
namespace SFrameRatchet.ChatClearing
open BigEndian Collections Coroutine Throwing Interleaving Crypto DurableReplay DurableWindow Chat

variable {K B : Type}

abbrev ChatStatus := Status (ChatSite ChatPlace) (Except JsError (Option Bytes))

instance : DecidableEq ChatStatus := inferInstance

/-- What a page does, one after the other: a call that it waits for, or a reload. -/
inductive PageOperation where
  | call (made : ChatCall)
  | reload

/-- The provider of a page that has just been loaded, with the store as it is. -/
def reloadedPage (s : ChatProvider K) : ChatProvider K :=
  { own := {}, origin := s.origin.atTab () reloaded, accepted := s.accepted }

section History
variable (runtime : ChatRuntime K B) (settings : ReplaySettings)

def PageOperation.perform : PageOperation → ChatProvider K → Option (ChatProvider K)
  | call made, s => (alone (made.program runtime settings) s).map Prod.snd
  | reload, s => some (reloadedPage s)

/-- The state after a history of operations. -/
def performAll : List PageOperation → ChatProvider K → Option (ChatProvider K)
  | [], s => some s
  | operation :: rest, s => (operation.perform runtime settings s).bind (performAll rest)

end History

/-- The key under which the guard stores what it knows of a sender. -/
def storeKey (s : ChatProvider K) (context : SealContext) : String :=
  (s.origin.tabs ()).storeKey (durableKey context)

/-- The counters of a sender that are in the store. -/
def persisted (s : ChatProvider K) (context : SealContext) : List ℕ := stored s.origin (storeKey s context)

/-- The guard rejects no counter of a sender. -/
def RejectsNothing (s : ChatProvider K) (context : SealContext) : Prop :=
  ∀ ctr, ((check () (durableKey context) ctr).solo s.origin).map Prod.fst = some true

/-! ## Between two operations -/

/-- The guard of the page is the one it was constructed with, and no call is under
way on it. -/
structure Guarded (guard : String × ℕ) (s : ChatProvider K) : Prop where
  resting : Resting () s.origin
  settings : (s.origin.tabs ()).settings = (true, guard)

/-- Run alone, a part of a call ends, and leaves the guard at rest. -/
def Rests {α : Type} (guard : String × ℕ) (task : ChatCallTask K α) : Prop :=
  ∀ s, Guarded guard s → ∃ outcome s', alone task s = some (outcome, s') ∧ Guarded guard s'

section Rests
variable {guard : String × ℕ} {α β : Type}

theorem rests_onGuard {place : GuardSite Unit → ChatSite ChatPlace} {task : Task Unit α}
    (rests : ∀ o : Origin Unit, Resting () o → (o.tabs ()).settings = (true, guard) → ∃ value o',
      task.solo o = some (value, o') ∧ Resting () o' ∧ (o'.tabs ()).settings = (true, guard)) :
    Rests guard (onGuard place task : ChatCallTask K α) := by
  intro s guarded
  obtain ⟨value, o', ran, resting, same⟩ := rests s.origin guarded.resting guarded.settings
  refine ⟨.ok value, { s with origin := o' }, ?_, resting, same⟩
  rw [alone_onGuard, ran]
  rfl

/-- The three tasks of the guard end, whether it remembers anything or not. -/
theorem check_rests {o : Origin Unit} (resting : Resting () o) (same : (o.tabs ()).settings = (true, guard))
    (key : String) (ctr : ℕ) : ∃ value o', (check () key ctr).solo o = some (value, o') ∧ Resting () o' ∧
      (o'.tabs ()).settings = (true, guard) := by
  obtain ⟨answer, o', ran, rests, settings, -⟩ := check_ends resting key ctr
  exact ⟨answer, o', ran, rests, settings.trans same⟩

theorem accept_rests {o : Origin Unit} (resting : Resting () o) (same : (o.tabs ()).settings = (true, guard))
    (key : String) (ctr : ℕ) : ∃ value o', (accept () key ctr).solo o = some (value, o') ∧ Resting () o' ∧
      (o'.tabs ()).settings = (true, guard) := by
  obtain ⟨o', ran, rests, settings, -⟩ := accept_ends resting key ctr
  exact ⟨(), o', ran, rests, settings.trans same⟩

theorem clear_rests {o : Origin Unit} (resting : Resting () o) (same : (o.tabs ()).settings = (true, guard))
    (key : String) : ∃ value o', (clear () key).solo o = some (value, o') ∧ Resting () o' ∧
      (o'.tabs ()).settings = (true, guard) := by
  obtain ⟨o', ran, rests, settings, -⟩ := clear_ends resting key
  exact ⟨(), o', ran, rests, settings.trans same⟩

/-- The search for a key touches nothing but the provider's own state. -/
theorem senderKey_completes {holds : ChatProvider K → Prop} (untouched : ∀ s own, holds s → holds { s with own })
    (runtime : ChatRuntime K B) (context : SealContext) (slot : Option Slot) :
    Completes holds (senderKey runtime context slot) := by
  apply completes_read
  intro s
  apply completes_bind (completes_pause _)
  intro _
  apply completes_read
  intro s
  refine completes_updated (fun _ => ?_) fun _ now => untouched _ _ now
  apply completes_bind (completes_promised _ _)
  intro userKey
  split
  · apply completes_bind
    · apply completes_read
      intro s
      split
      · exact completes_pure _
      · apply completes_bind (completes_pause _)
        intro _
        apply completes_bind (completes_promised _ _)
        intro _
        apply completes_bind (completes_promised _ _)
        intro _
        refine completes_updated (fun _ => ?_) fun _ now => untouched _ _ now
        exact completes_pure _
    · intro keys
      apply completes_bind (completes_pause _)
      intro _
      apply completes_bind (completes_pause _)
      intro _
      apply completes_bind (completes_settle _)
      intro _
      exact completes_pure _
  · exact completes_throw _

theorem seal_completes {holds : ChatProvider K → Prop} (untouched : ∀ s own, holds s → holds { s with own })
    (runtime : ChatRuntime K B) (plaintext : Bytes) (context : SealContext) :
    Completes holds (seal_ runtime plaintext context) := by
  apply completes_bind (senderKey_completes untouched runtime context none)
  intro _
  apply completes_read
  intro s
  refine completes_updated (fun _ => ?_) fun _ now => untouched _ _ now
  apply completes_bind (completes_promised _ _)
  intro _
  refine completes_updated (fun _ => ?_) fun _ now => untouched _ _ now
  exact completes_promised _ _

/-- What a guard is at rest with does not depend on the provider's own state. -/
theorem guarded_own (s : ChatProvider K) (own : ChatState K) (guarded : Guarded guard s) :
    Guarded guard { s with own } :=
  ⟨guarded.resting, guarded.settings⟩

theorem checkReplay_rests (settings : ReplaySettings) (slot : Slot) :
    Rests guard (checkReplay "sframe-chat" settings slot : ChatCallTask K Ref) := by
  intro s guarded
  have same := s.getReplayWindow_origin slot.context settings.replayWindow
  have asked : Guarded guard (s.getReplayWindow slot.context settings.replayWindow).2 :=
    ⟨by rw [same]; exact guarded.resting, by rw [same]; exact guarded.settings⟩
  simp only [checkReplay, alone_bind, alone_read, alone_update, Option.bind_some]
  split
  · split
    · exact completes_bind (rests_onGuard fun o resting same => check_rests resting same _ _)
        (fun fresh => by split <;> first | exact completes_pure _ | exact completes_throw _) _ asked
    · exact ⟨_, _, rfl, asked⟩
  · exact ⟨_, _, rfl, asked⟩

theorem unseal_rests (runtime : ChatRuntime K B) (settings : ReplaySettings) (sealedBytes : Bytes)
    (context : SealContext) : Rests guard (unseal_ runtime settings sealedBytes context) := by
  apply completes_bind (senderKey_completes guarded_own runtime context _)
  intro _
  apply completes_bind (completes_settle _)
  intro slot
  apply completes_bind (checkReplay_rests settings slot)
  intro window
  refine completes_updated (fun _ => ?_) fun _ now => ⟨now.resting, now.settings⟩
  apply completes_bind (completes_promised _ _)
  intro _
  refine completes_updated (fun _ => ?_) fun _ now => ⟨now.resting, now.settings⟩
  apply completes_read
  intro s
  split
  · apply completes_bind (rests_onGuard fun o resting same => accept_rests resting same _ _)
    intro _
    exact completes_pure _
  · exact completes_pure _

/-- An operation that ends leaves the guard at rest. -/
theorem perform_guarded (runtime : ChatRuntime K B) (settings : ReplaySettings) (operation : PageOperation)
    {s s' : ChatProvider K} (guarded : Guarded guard s) (ran : operation.perform runtime settings s = some s') :
    Guarded guard s' := by
  have ends {task : ChatCallTask K (Option Bytes)} (rests : Rests guard task)
      (ran : (alone task s).map Prod.snd = some s') : Guarded guard s' := by
    obtain ⟨outcome, last, done, still⟩ := rests s guarded
    rw [done] at ran
    cases ran
    exact still
  cases operation with
  | reload =>
    cases ran
    refine ⟨reloaded_resting guarded.resting, ?_⟩
    change ((s.origin.atTab () reloaded).tabs ()).settings = _
    rw [atTab_tabs]
    exact guarded.settings
  | call made =>
    cases made with
    | seal_ plaintext context =>
      exact ends (completes_bind (seal_completes guarded_own runtime plaintext context) fun _ => completes_pure _) ran
    | unseal_ sealedBytes context =>
      exact ends (completes_bind (unseal_rests runtime settings sealedBytes context) fun _ => completes_pure _) ran
    | rotate roomId =>
      cases ran
      exact ⟨guarded.resting, guarded.settings⟩
    | settleClear key =>
      obtain ⟨value, o', done, rests⟩ := clear_rests guarded.resting guarded.settings key
      by_cases started : key ∈ s.clearing
      · simp [PageOperation.perform, ChatCall.program, settleClear, started, alone_onGuard, done] at ran
        subst ran
        exact ⟨rests.1, rests.2⟩
      · simp [PageOperation.perform, ChatCall.program, settleClear, started] at ran

theorem performAll_guarded (runtime : ChatRuntime K B) (settings : ReplaySettings) {history : List PageOperation}
    {s s' : ChatProvider K} (guarded : Guarded guard s) (ran : performAll runtime settings history s = some s') :
    Guarded guard s' := by
  induction history generalizing s with
  | nil =>
    cases ran
    exact guarded
  | cons operation rest ih =>
    obtain ⟨middle, first, onward⟩ := Option.bind_eq_some_iff.mp ran
    exact ih (perform_guarded runtime settings operation guarded first) onward

end Rests

/-! ## Clears under way -/

/-- What one turn of a clear does, while the guard remembers anything. -/
inductive ClearStep (key : String) : ChatSite ChatPlace → ChatProvider K → ChatStatus → ChatProvider K → Prop
  | begins {s} : ClearStep key .start s (.suspended (.clears key)) s
  | opens {s fullKey} (started : key ∈ s.clearing) (named : fullKey = (s.origin.tabs ()).storeKey key) :
    ClearStep key (.clears key) s (.suspended (.clearing (.within () fullKey .clear .clearing)))
      { s with clearing := s.clearing.erase key }
  | deletes {s fullKey} : ClearStep key (.clearing (.within () fullKey .clear .clearing)) s
      (.suspended (.clearing (.within () fullKey .clear .deleted)))
      { s with origin := { s.origin with store := s.origin.store.delete fullKey } }
  | forgets {s fullKey} : ClearStep key (.clearing (.within () fullKey .clear .deleted)) s (.finished (.ok none))
      { s with origin := s.origin.forget () fullKey }

/-- Every turn is a step where the guard is enabled. -/
def clearing (key : String) : Contract (ChatSite ChatPlace) (ChatProvider K) where
  assume _ s := (s.origin.tabs ()).available = true ∧ (s.origin.tabs ()).window ≠ 0
  moves site start next s := ClearStep key site start (.suspended next) s

theorem settleClear_meets (runtime : ChatRuntime K B) (settings : ReplaySettings) (key : String)
    (s : ChatProvider K) : Meets (clearing key) ((ChatCall.settleClear key).program runtime settings)
      (fun site start value s => ClearStep key site start (.finished (.ok value)) s)
      (fun site start error s => ClearStep key site start (.finished (.error error)) s) .start s s := by
  apply meets_bind.mpr
  apply meets_bind.mpr
  apply meets_pauseUntil.mpr
  refine ⟨.begins, fun asked ready enabled => ?_⟩
  have started : key ∈ asked.clearing := by simpa using ready
  apply meets_bind.mpr
  apply meets_update.mpr
  apply meets_inside_iff.mpr
  unfold DurableReplay.clear
  simp only [Proc.embed_bind, Contract.keeps_bind, Contract.keeps_embed_get, enabled.1, enabled.2, Bool.not_true,
    decide_false, Bool.or_self, Bool.false_eq_true, ↓reduceIte, Proc.embed_yield, Contract.keeps_yield,
    Proc.embed_modify, Contract.keeps_modify]
  exact ⟨.opens started rfl, fun _ _ => ⟨.deletes, fun _ _ => ClearStep.forgets⟩⟩

/-- A clear has taken up the key that it was started for. -/
def under : ChatStatus → Bool
  | .suspended (.clearing _) | .finished _ => true
  | _ => false

/-- A clear has had its key deleted from the store. -/
def hasDeleted : ChatStatus → Bool
  | .suspended (.clearing (.within _ _ _ .deleted)) | .finished _ => true
  | _ => false

/-- Clears that began over a guard at rest touch nothing but their own keys. -/
structure Clears {ι : Type} (first : ChatProvider K) (keys : ι → String) (s : ChatProvider K)
    (statuses : ι → ChatStatus) : Prop where
  settings : (s.origin.tabs ()).settings = (first.origin.tabs ()).settings
  idle : ∀ fullKey, (s.origin.tabs ()).hydrating.get? fullKey = none
  windows : s.origin.windows = first.origin.windows
  waiting : ∀ key ∈ first.clearing, key ∈ s.clearing ∨ ∃ call, keys call = key ∧ under (statuses call) = true
  known : ∀ key ∈ s.clearing, key ∈ first.clearing
  owned : ∀ call, under (statuses call) = true → keys call ∈ first.clearing
  named : ∀ call fullKey caller point, statuses call = .suspended (.clearing (.within () fullKey caller point)) →
    fullKey = (first.origin.tabs ()).storeKey (keys call)
  untouched : ∀ fullKey, (∀ call, under (statuses call) = true →
    (first.origin.tabs ()).storeKey (keys call) ≠ fullKey) →
    stored s.origin fullKey = stored first.origin fullKey ∧
      (s.origin.tabs ()).mem.get? fullKey = (first.origin.tabs ()).mem.get? fullKey
  deleted : ∀ call, hasDeleted (statuses call) = true →
    stored s.origin ((first.origin.tabs ()).storeKey (keys call)) = []
  forgotten : ∀ call outcome, statuses call = .finished outcome →
    (s.origin.tabs ()).mem.get? ((first.origin.tabs ()).storeKey (keys call)) = none

section Clears
variable {ι : Type} [DecidableEq ι] {first s s' : ChatProvider K} {keys : ι → String} {statuses : ι → ChatStatus}
  {call : ι} {site : ChatSite ChatPlace} {status : ChatStatus}

theorem forget_guard (o : Origin Unit) (fullKey : String) : (o.forget () fullKey).tabs () = { o.tabs () with
    mem := (o.tabs ()).mem.delete fullKey
    hydrating := (o.tabs ()).hydrating.delete fullKey
    persisting := (o.tabs ()).persisting.delete fullKey } := by
  rw [Origin.forget, atTab_tabs]

theorem stored_delete (o : Origin Unit) (fullKey key : String) :
    stored { o with store := o.store.delete fullKey } key = if key = fullKey then [] else stored o key := by
  change ((o.store.delete fullKey).get? key).getD [] = _
  rw [OrderedMap.get?_delete]
  split <;> rfl

theorem Clears.update (clears : Clears first keys s statuses)
    (settings : (s'.origin.tabs ()).settings = (s.origin.tabs ()).settings)
    (idle : ∀ fullKey, (s'.origin.tabs ()).hydrating.get? fullKey = none)
    (windows : s'.origin.windows = s.origin.windows)
    (under_ : under (statuses call) = true → under status = true)
    (waiting : ∀ key ∈ s.clearing, key ∈ s'.clearing ∨ keys call = key ∧ under status = true)
    (known : ∀ key ∈ s'.clearing, key ∈ s.clearing) (owned : under status = true → keys call ∈ first.clearing)
    (named : ∀ fullKey caller point, status = .suspended (.clearing (.within () fullKey caller point)) →
      fullKey = (first.origin.tabs ()).storeKey (keys call))
    (untouched : ∀ fullKey, (under status = true → (first.origin.tabs ()).storeKey (keys call) ≠ fullKey) →
      stored s'.origin fullKey = stored s.origin fullKey ∧
        (s'.origin.tabs ()).mem.get? fullKey = (s.origin.tabs ()).mem.get? fullKey)
    (shrinks : ∀ fullKey, (stored s.origin fullKey = [] → stored s'.origin fullKey = []) ∧
      ((s.origin.tabs ()).mem.get? fullKey = none → (s'.origin.tabs ()).mem.get? fullKey = none))
    (deleted : hasDeleted status = true → stored s'.origin ((first.origin.tabs ()).storeKey (keys call)) = [])
    (forgotten : ∀ outcome, status = .finished outcome →
      (s'.origin.tabs ()).mem.get? ((first.origin.tabs ()).storeKey (keys call)) = none) :
    Clears first keys s' (Function.update statuses call status) where
  settings := settings.trans clears.settings
  idle := idle
  windows := windows.trans clears.windows
  waiting key started := by
    rcases clears.waiting key started with waits | ⟨other, own, there⟩
    · rcases waiting key waits with waits | ⟨own, there⟩
      · exact .inl waits
      · exact .inr ⟨call, own, by rw [Function.update_self]; exact there⟩
    · refine .inr ⟨other, own, ?_⟩
      by_cases same : other = call
      · subst same
        rw [Function.update_self]
        exact under_ there
      · rw [Function.update_of_ne same]
        exact there
  known key there := clears.known key (known key there)
  owned other there := by
    by_cases same : other = call
    · subst same
      rw [Function.update_self] at there
      exact owned there
    · rw [Function.update_of_ne same] at there
      exact clears.owned other there
  named other fullKey caller point there := by
    by_cases same : other = call
    · subst same
      rw [Function.update_self] at there
      exact named fullKey caller point there
    · rw [Function.update_of_ne same] at there
      exact clears.named other fullKey caller point there
  untouched fullKey apart := by
    have own : under status = true → (first.origin.tabs ()).storeKey (keys call) ≠ fullKey := fun there =>
      apart call (by rw [Function.update_self]; exact there)
    obtain ⟨storing, caching⟩ := untouched fullKey own
    obtain ⟨before, cached⟩ := clears.untouched fullKey fun other there => by
      by_cases same : other = call
      · subst same
        exact own (under_ there)
      · exact apart other (by rw [Function.update_of_ne same]; exact there)
    exact ⟨storing.trans before, caching.trans cached⟩
  deleted other there := by
    by_cases same : other = call
    · subst same
      rw [Function.update_self] at there
      exact deleted there
    · rw [Function.update_of_ne same] at there
      exact (shrinks _).1 (clears.deleted other there)
  forgotten other outcome there := by
    by_cases same : other = call
    · subst same
      rw [Function.update_self] at there
      exact forgotten outcome there
    · rw [Function.update_of_ne same] at there
      exact (shrinks _).2 (clears.forgotten other outcome there)

/-- A step of a clear touches nothing but its own key. -/
theorem Clears.step (clears : Clears first keys s statuses) (waits : statuses call = .suspended site)
    (step : ClearStep (keys call) site s status s') : Clears first keys s' (Function.update statuses call status) := by
  cases step with
  | begins =>
    apply clears.update
    · rfl
    · exact clears.idle
    · rfl
    · intro there
      rw [waits] at there
      cases there
    · exact fun key waits => .inl waits
    · exact fun key there => there
    · exact fun never => by cases never
    · exact fun _ _ _ never => by cases never
    · exact fun fullKey _ => ⟨rfl, rfl⟩
    · exact fun fullKey => ⟨id, id⟩
    · exact fun never => by cases never
    · exact fun _ never => by cases never
  | @opens _ fullKey started named =>
    have own : fullKey = (first.origin.tabs ()).storeKey (keys call) := by
      rw [named, DurableReplayGuard.storeKey, DurableReplayGuard.storeKey,
        show (s.origin.tabs ()).namespace_ = (first.origin.tabs ()).namespace_ from congrArg (·.2.1) clears.settings]
    apply clears.update
    · rfl
    · exact clears.idle
    · rfl
    · exact fun _ => rfl
    · intro key there
      by_cases same : keys call = key
      · exact .inr ⟨same, rfl⟩
      · exact .inl ((List.mem_erase_of_ne (Ne.symm same)).mpr there)
    · exact fun key there => List.mem_of_mem_erase there
    · exact fun _ => clears.known _ started
    · intro other caller point there
      cases there
      exact own
    · exact fun other _ => ⟨rfl, rfl⟩
    · exact fun other => ⟨id, id⟩
    · exact fun never => by cases never
    · exact fun _ never => by cases never
  | @deletes _ fullKey =>
    have own := clears.named call fullKey .clear .clearing waits
    apply clears.update
    · rfl
    · exact clears.idle
    · rfl
    · exact fun _ => rfl
    · exact fun key waits => .inl waits
    · exact fun key there => there
    · exact fun _ => clears.owned call (by rw [waits]; rfl)
    · intro other caller point there
      cases there
      exact own
    · intro other apart
      refine ⟨?_, rfl⟩
      rw [stored_delete, if_neg]
      rintro rfl
      exact apart rfl own.symm
    · intro other
      refine ⟨fun nothing => ?_, id⟩
      rw [stored_delete]
      split
      · rfl
      · exact nothing
    · intro _
      rw [stored_delete, if_pos own.symm]
    · exact fun _ never => by cases never
  | @forgets _ fullKey =>
    have own := clears.named call fullKey .clear .deleted waits
    have guard := forget_guard s.origin fullKey
    have cached (other : String) : ((s.origin.forget () fullKey).tabs ()).mem.get? other =
        if other = fullKey then none else (s.origin.tabs ()).mem.get? other := by
      rw [guard, OrderedMap.get?_delete]
    apply clears.update
    · change ((s.origin.forget () fullKey).tabs ()).settings = _
      rw [guard]
      rfl
    · intro other
      change ((s.origin.forget () fullKey).tabs ()).hydrating.get? other = none
      rw [guard, OrderedMap.get?_delete]
      split
      · rfl
      · exact clears.idle other
    · rfl
    · exact fun _ => rfl
    · exact fun key waits => .inl waits
    · exact fun key there => there
    · exact fun _ => clears.owned call (by rw [waits]; rfl)
    · exact fun _ _ _ never => by cases never
    · intro other apart
      refine ⟨rfl, ?_⟩
      change ((s.origin.forget () fullKey).tabs ()).mem.get? other = _
      rw [cached, if_neg]
      rintro rfl
      exact apart rfl own.symm
    · intro other
      refine ⟨id, fun missing => ?_⟩
      change ((s.origin.forget () fullKey).tabs ()).mem.get? other = none
      rw [cached]
      split
      · rfl
      · exact missing
    · exact fun _ => clears.deleted call (by rw [waits]; rfl)
    · intro _ _
      change ((s.origin.forget () fullKey).tabs ()).mem.get? _ = none
      rw [cached, if_pos own.symm]

end Clears

/-! ## What a rotation leaves behind -/

/-- A clear has ended, or has nothing to do. -/
def atRest : ChatStatus → Bool
  | .suspended .start | .suspended (.clears _) | .finished _ => true
  | _ => false

/-- The clears that have been started have settled, and no other call is in flight. -/
def Settled {ι : Type} (last : ChatPool ι K) : Prop :=
  last.shared.clearing = [] ∧ ∀ call, atRest (last.statuses call) = true

/-- With nobody hydrating, a check asks the cache or the store, which agree. -/
theorem solo_check_answer {o : Origin Unit} (key : String) (available : (o.tabs ()).available = true)
    (positive : (o.tabs ()).window ≠ 0) (idle : (o.tabs ()).hydrating.get? ((o.tabs ()).storeKey key) = none)
    (short : (stored o ((o.tabs ()).storeKey key)).length ≤ (o.tabs ()).window)
    (cached : ∀ ref, (o.tabs ()).mem.get? ((o.tabs ()).storeKey key) = some ref →
      (o.windows.read ref).set = (stored o ((o.tabs ()).storeKey key)).toFinset) (ctr : ℕ) :
    ((check () key ctr).solo o).map Prod.fst = some (decide (ctr ∉ stored o ((o.tabs ()).storeKey key))) := by
  simp only [check, Proc.solo_bind, Proc.solo_get, Option.bind_some, available, positive, Bool.not_true, decide_false,
    Bool.or_self, Bool.false_eq_true, ↓reduceIte]
  cases held : (o.tabs ()).mem.get? ((o.tabs ()).storeKey key) with
  | some ref =>
    have hydrated : (hydrate () ((o.tabs ()).storeKey key) .check).solo o = some (ref, o) := by
      simp only [hydrate, Proc.solo_bind, Proc.solo_get, Option.bind_some, held, Proc.solo_yield, Proc.solo_pure]
    simp [hydrated, cached ref held]
  | none =>
    have guard : ((o.beginHydration () ((o.tabs ()).storeKey key)).tabs ()).window = (o.tabs ()).window := by
      simp [Origin.beginHydration]
    have read : (((o.beginHydration () ((o.tabs ()).storeKey key)).endHydration () ((o.tabs ()).storeKey key)
        o.hydrations.next (stored o ((o.tabs ()).storeKey key))).windows.read o.windows.next).set =
          (stored o ((o.tabs ()).storeKey key)).toFinset := by
      change ((o.windows.alloc _).read _).set = _
      rw [Heap.read_alloc, if_pos rfl]
      simp only [guard]
      rw [sliceLast_eq positive, Recency.rtake_of_length_le short]
    simp [solo_hydrate_missing o () ((o.tabs ()).storeKey key) .check held idle, read]

/-- A guard that remembers something was constructed with a namespace. -/
theorem durable_of_positive {settings : ReplaySettings} {s : ChatProvider K}
    (guarded : Guarded (settings.durable.getD ("", 0)) s) (positive : (s.origin.tabs ()).window ≠ 0) :
    s.durableAvailable settings = true :=
  ProviderState.durableAvailable_of_positive guarded.settings positive

theorem guarded_create (settings : ReplaySettings) :
    Guarded (settings.durable.getD ("", 0)) (.create settings {} ∅ : ChatProvider K) := by
  refine ⟨⟨rfl, fun _ => rfl, fun _ => rfl, rfl, rfl, fun _ => ⟨List.nodup_nil, Nat.zero_le _⟩, ?_, ?_, ?_⟩, rfl⟩
  · intro key ref held
    cases held
  · intro key ref held
    cases held
  · intro key ref held
    cases held

theorem clears_launch {ι : Type} {guard : String × ℕ} {first : ChatProvider K} (guarded : Guarded guard first)
    (keys : ι → String) : Clears first keys first fun _ => .suspended .start where
  settings := rfl
  idle := guarded.resting.hydrating
  windows := rfl
  waiting key there := .inl there
  known key there := there
  owned call there := by cases there
  named _ _ _ _ there := by cases there
  untouched _ _ := ⟨rfl, rfl⟩
  deleted _ there := by cases there
  forgotten _ _ there := by cases there

/-- The guard stays as it is. -/
def unchanged (o : Origin Unit) : Contract (ChatSite ChatPlace) (ChatProvider K) where
  assume _ s := s.origin = o
  moves _ _ _ s := s.origin = o

theorem settleClear_unchanged (runtime : ChatRuntime K B) (settings : ReplaySettings) (key : String) {o : Origin Unit}
    (disabled : (o.tabs ()).window = 0) {s : ChatProvider K} (same : s.origin = o) :
    Meets (unchanged o) ((ChatCall.settleClear key).program runtime settings) (fun _ _ _ s => s.origin = o)
      (fun _ _ _ s => s.origin = o) .start s s := by
  apply meets_bind.mpr
  apply meets_bind.mpr
  apply meets_pauseUntil.mpr
  refine ⟨same, fun asked _ still => ?_⟩
  have off : (asked.origin.tabs ()).window = 0 := by
    rw [show asked.origin = o from still]
    exact disabled
  apply meets_bind.mpr
  apply meets_update.mpr
  apply meets_inside_iff.mpr
  unfold DurableReplay.clear
  simp only [Proc.embed_bind, Contract.keeps_bind, Contract.keeps_embed_get, off, decide_true, Bool.or_true,
    ↓reduceIte]
  exact still

/-- The clears of a guard that remembers nothing do nothing. -/
theorem clears_disabled {ι : Type} [DecidableEq ι] (runtime : ChatRuntime K B) (settings : ReplaySettings)
    (first : ChatProvider K) (disabled : (first.origin.tabs ()).window = 0) (keys : ι → String) {last : ChatPool ι K}
    (run : Runs anyTurn (launch runtime settings first fun call => .settleClear (keys call)) last) :
    last.shared.origin = first.origin := by
  refine runs_invariant (fun _ => unchanged first.origin)
    (fun _ _ _ _ s => s.origin = first.origin) (fun s _ => s.origin = first.origin) rfl
    (launch_follows fun call s same => ?_) (fun _ _ _ _ same _ _ _ => same)
    (fun before call site after _ _ _ _ moved => ?_) run
  · apply Contract.keeps_mono (settleClear_unchanged runtime settings (keys call) disabled same)
    intro _ _ outcome _ same
    cases outcome with
    | ok value => exact same
    | error refused => exact same
  · generalize after.statuses call = reached at moved
    cases reached with
    | running => exact moved.elim
    | suspended next => exact moved
    | finished outcome => exact moved

/-- The clears of a guard that remembers leave its other keys alone. -/
theorem clears_run {ι : Type} [DecidableEq ι] (runtime : ChatRuntime K B) (settings : ReplaySettings)
    {guard : String × ℕ} {first : ChatProvider K} (guarded : Guarded guard first)
    (positive : (first.origin.tabs ()).window ≠ 0) (keys : ι → String) {last : ChatPool ι K}
    (run : Runs anyTurn (launch runtime settings first fun call => .settleClear (keys call)) last) :
    Clears first keys last.shared last.statuses := by
  refine runs_invariant (fun call => clearing (keys call))
    (fun call site start outcome s => ClearStep (keys call) site start (.finished outcome) s) (Clears first keys)
    (clears_launch guarded keys) (launch_follows fun call s _ => ?_)
    (fun before call site after clears _ _ _ => ?_) (fun before call site after clears waits _ _ moved => ?_) run
  · apply Contract.keeps_mono (settleClear_meets runtime settings (keys call) s)
    intro _ _ outcome _ step
    cases outcome with
    | ok value => exact step
    | error refused => exact step
  · have same := clears.settings
    exact ⟨(congrArg (·.1) same).trans guarded.resting.available, fun none =>
      positive ((congrArg (·.2.2) same).symm.trans none)⟩
  · generalize after.statuses call = status at moved
    cases status with
    | running => exact moved.elim
    | suspended next => exact clears.step waits moved
    | finished outcome => exact clears.step waits moved

section Settled
variable {ι : Type} {guard : String × ℕ} {first s : ChatProvider K} {keys : ι → String} {statuses : ι → ChatStatus}
  (clears : Clears first keys s statuses) (rests : ∀ call, atRest (statuses call) = true)
include clears

theorem storeKey_same (context : SealContext) : storeKey s context = storeKey first context := by
  rw [storeKey, storeKey, DurableReplayGuard.storeKey, DurableReplayGuard.storeKey,
    show (s.origin.tabs ()).namespace_ = (first.origin.tabs ()).namespace_ from congrArg (·.2.1) clears.settings]

include rests

/-- Once the clears are at rest, a sender's key has been cleared or is as it was. -/
theorem settled_key (fullKey : String) :
    (stored s.origin fullKey = [] ∧ (s.origin.tabs ()).mem.get? fullKey = none ∧
      ∃ call, (first.origin.tabs ()).storeKey (keys call) = fullKey ∧ under (statuses call) = true) ∨
    (stored s.origin fullKey = stored first.origin fullKey ∧
      (s.origin.tabs ()).mem.get? fullKey = (first.origin.tabs ()).mem.get? fullKey ∧
        ∀ call, under (statuses call) = true → (first.origin.tabs ()).storeKey (keys call) ≠ fullKey) := by
  by_cases cleared : ∃ call, (first.origin.tabs ()).storeKey (keys call) = fullKey ∧ under (statuses call) = true
  · obtain ⟨call, rfl, there⟩ := cleared
    have ended : ∃ outcome, statuses call = .finished outcome := by
      have rest := rests call
      generalize statuses call = status at there rest
      cases status with
      | running => cases there
      | finished outcome => exact ⟨outcome, rfl⟩
      | suspended site =>
        cases site with
        | start => cases there
        | clears => cases there
        | _ => cases rest
    obtain ⟨outcome, ended⟩ := ended
    exact .inl ⟨clears.deleted call (by rw [ended]; rfl), clears.forgotten call outcome ended, call, rfl, there⟩
  · have apart (call : ι) (there : under (statuses call) = true) :
        (first.origin.tabs ()).storeKey (keys call) ≠ fullKey := fun same => cleared ⟨call, same, there⟩
    obtain ⟨storing, caching⟩ := clears.untouched fullKey apart
    exact .inr ⟨storing, caching, apart⟩

/-- The guard then rejects what it has stored, and nothing else. -/
theorem settled_rejects (guarded : Guarded guard first) (positive : (first.origin.tabs ()).window ≠ 0)
    (context : SealContext) : RejectsNothing s context ↔ persisted s context = [] := by
  have window : (s.origin.tabs ()).window = (first.origin.tabs ()).window := congrArg (·.2.2) clears.settings
  have available : (s.origin.tabs ()).available = true :=
    (congrArg (·.1) clears.settings).trans guarded.resting.available
  have answer := solo_check_answer (durableKey context) available (by rw [window]; exact positive)
    (clears.idle _) (by
      rcases settled_key clears rests (storeKey s context) with ⟨nothing, -, -⟩ | ⟨same, -, -⟩
      · exact le_of_eq_of_le (congrArg List.length nothing) (Nat.zero_le _)
      · exact le_of_eq_of_le (congrArg List.length same) (window ▸ (guarded.resting.bounded _).2)) (by
      intro ref held
      rcases settled_key clears rests (storeKey s context) with ⟨-, gone, -⟩ | ⟨same, kept, -⟩
      · cases gone.symm.trans held
      · obtain ⟨order, agrees⟩ := guarded.resting.cached _ ref (kept.symm.trans held)
        rw [clears.windows, agrees.set, order]
        exact congrArg List.toFinset same.symm)
  constructor
  · intro nothing
    apply List.eq_nil_iff_forall_not_mem.mpr
    intro ctr member
    have takes := (answer ctr).symm.trans (nothing ctr)
    simp only [Option.some.injEq, decide_eq_true_eq] at takes
    exact takes member
  · intro nothing ctr
    rw [answer ctr, decide_eq_true]
    intro member
    rw [show stored s.origin ((s.origin.tabs ()).storeKey (durableKey context)) = [] from nothing] at member
    cases member

end Settled

/-- A rotation starts the clears of the senders that have a window in memory. -/
theorem started_iff (settings : ReplaySettings) {s : ChatProvider K} (roomId senderUid : String)
    (available : s.durableAvailable settings = true) :
    durableKey ⟨roomId, senderUid⟩ ∈ (rotate settings s roomId).clearing ↔
      (s.windowOf ⟨roomId, senderUid⟩).isSome ∨ durableKey ⟨roomId, senderUid⟩ ∈ s.clearing := by
  have dropped : durableKey ⟨roomId, senderUid⟩ ∈ (rotate settings s roomId).clearing ↔ _ :=
    ProviderState.mem_dropReplayWindows
  rw [dropped, or_comm]
  refine or_congr ⟨?_, fun there => ⟨available, senderUid, there, rfl⟩⟩ Iff.rfl
  rintro ⟨-, uid, there, same⟩
  rwa [durableKey_injective roomId same] at there

/-- After any history of calls and reloads, once a rotation and the clears that have
been started have settled, the guard rejects no counter from the room exactly if
every sender of the room that the store knew had a window in memory when the room
was rotated, or a clear of its key had been started before. -/
theorem rotation_clears_guard {ι : Type} [DecidableEq ι] (runtime : ChatRuntime K B) (settings : ReplaySettings)
    (history : List PageOperation) (roomId : String) {s : ChatProvider K}
    (ran : performAll runtime settings history (.create settings {} ∅) = some s) (keys : ι → String)
    {last : ChatPool ι K}
    (run : Runs anyTurn (launch runtime settings (rotate settings s roomId) fun call => .settleClear (keys call)) last)
    (settled : Settled last) :
    (∀ senderUid, RejectsNothing last.shared ⟨roomId, senderUid⟩) ↔
      ∀ senderUid, persisted s ⟨roomId, senderUid⟩ ≠ [] →
        (s.windowOf ⟨roomId, senderUid⟩).isSome ∨ durableKey ⟨roomId, senderUid⟩ ∈ s.clearing := by
  have guarded := performAll_guarded runtime settings (guarded_create settings) ran
  have rotated : Guarded (settings.durable.getD ("", 0)) (rotate settings s roomId) :=
    ⟨guarded.resting, guarded.settings⟩
  by_cases positive : (s.origin.tabs ()).window = 0
  · have same : last.shared.origin = s.origin :=
      clears_disabled runtime settings (rotate settings s roomId) positive keys run
    have nothing (context : SealContext) : persisted s context = [] := by
      have short := (guarded.resting.bounded (storeKey s context)).2
      rw [positive] at short
      exact List.length_eq_zero_iff.mp (Nat.le_zero.mp short)
    constructor
    · intro _ senderUid some
      exact absurd (nothing _) some
    · intro _ senderUid ctr
      have disabled : (last.shared.origin.tabs ()).window = 0 := by
        rw [same]
        exact positive
      simp [check, disabled]
  · have clears := clears_run runtime settings rotated positive keys run
    have answers (senderUid : String) := settled_rejects clears settled.2 rotated positive ⟨roomId, senderUid⟩
    simp only [answers]
    refine forall_congr' fun senderUid => ?_
    have named := storeKey_same clears ⟨roomId, senderUid⟩
    rw [← started_iff settings roomId senderUid (durable_of_positive guarded positive)]
    rcases settled_key clears settled.2 (storeKey last.shared ⟨roomId, senderUid⟩) with
      ⟨nothing, -, call, own, there⟩ | ⟨same, -, apart⟩
    · have key : keys call = durableKey ⟨roomId, senderUid⟩ := by
        rw [named] at own
        exact storeKey_injective _ own
      exact ⟨fun _ _ => key ▸ clears.owned call there, fun _ => nothing⟩
    · rw [show persisted last.shared ⟨roomId, senderUid⟩ = persisted s ⟨roomId, senderUid⟩ by
        rw [persisted, persisted, same, named]; rfl]
      refine ⟨fun nothing some => absurd nothing some, fun cleared => ?_⟩
      by_contra some
      rcases clears.waiting _ (cleared some) with waits | ⟨call, own, there⟩
      · rw [settled.1] at waits
        cases waits
      · apply apart call there
        rw [own, named]
        rfl

section Checked
open ChatSpecimen (runtime settings provider ann)

/-- What ann has sealed first. -/
def mail : Bytes :=
  match alone (seal_ runtime [104, 105] ann) (provider settings) with
  | some (.ok sealedBytes, _) => sealedBytes
  | _ => []

/-- The clear of ann's key. -/
def annsKey (_ : Fin 1) : String := durableKey ann

/-- After a reload, a rotation does not clear what ann had sent before. -/
theorem reload_outlives_rotation : ¬ ∀ history s,
    performAll runtime settings history (.create settings {} ∅) = some s →
      ∀ last : ChatPool (Fin 1) Bytes,
        Runs anyTurn (launch runtime settings (rotate settings s "room") fun call => .settleClear (annsKey call)) last →
        Settled last → ∀ senderUid, RejectsNothing last.shared ⟨"room", senderUid⟩ := by
  intro clears
  have result : (performAll runtime settings [.call (.unseal_ mail ann), .reload] (provider settings)).map (fun s =>
      ((rotate settings s "room").clearing,
        ((check () (durableKey ann) 0).solo (rotate settings s "room").origin).map Prod.fst)) =
      some ([], some false) := by
    decide +kernel
  obtain ⟨s, ran, shape⟩ := Option.map_eq_some_iff.mp result
  simp only [Prod.mk.injEq] at shape
  obtain ⟨none, refused⟩ := shape
  have takes := clears _ s ran _ .start ⟨none, fun _ => rfl⟩ "ann" 0
  cases refused.symm.trans takes

/-- Before it, it does. -/
theorem rotation_clears_ann : ∃ (s : ChatProvider Bytes) (last : ChatPool (Fin 1) Bytes),
    persisted s ann = [0] ∧ last.shared.clearing = [] ∧
      ((∀ senderUid, RejectsNothing last.shared ⟨"room", senderUid⟩) ↔
        ∀ senderUid, persisted s ⟨"room", senderUid⟩ ≠ [] →
          (s.windowOf ⟨"room", senderUid⟩).isSome ∨ durableKey ⟨"room", senderUid⟩ ∈ s.clearing) := by
  have result : (performAll runtime settings [.call (.unseal_ mail ann)] (provider settings)).map (fun s =>
      (persisted s ann, ((launch runtime settings (rotate settings s "room")
        fun call => .settleClear (annsKey call)).followPassing anyTurn [0, 0, 0, 0]).map fun pool =>
          (pool.shared.clearing, pool.statuses 0))) =
      some ([0], some ([], .finished (.ok none))) := by
    decide +kernel
  obtain ⟨s, ran, shape⟩ := Option.map_eq_some_iff.mp result
  simp only [Prod.mk.injEq] at shape
  obtain ⟨stored, cleared⟩ := shape
  obtain ⟨last, followed, shape⟩ := Option.map_eq_some_iff.mp cleared
  simp only [Prod.mk.injEq] at shape
  obtain ⟨none, ended⟩ := shape
  refine ⟨s, last, stored, none, rotation_clears_guard runtime settings _ "room" ran annsKey
    (followPassing_runs followed) ⟨none, fun call => ?_⟩⟩
  rw [Subsingleton.elim call 0, ended]
  rfl

end Checked
end SFrameRatchet.ChatClearing
