import SFrameRatchet.Coroutine

/-! Coroutines that may throw, the meaning of an asynchronous function. A
suspension stands for one `await`; a throw unwinds to the nearest handler and
does not suspend. Each rule splits the outcome of the first part into what it
returned and what it threw, so that the two never have to be kept apart in the
middle of a proof. -/
namespace SFrameRatchet.Throwing
open Coroutine

/-- A coroutine that returns a value or throws an error. -/
abbrev Async (L : Type u) (S : Type v) (E : Type w) (α : Type w) := ExceptT E (Proc L S) α

variable {L : Type u} {S : Type} {E : Type} {α β : Type}

/-- Read the shared state. -/
def read : Async L S E S := ExceptT.lift Proc.get

/-- Update the shared state. -/
def update (change : S → S) : Async L S E Unit := ExceptT.lift (Proc.modify change)

/-- Suspend at a site that any later turn may resume. -/
def pause (site : L) : Async L S E Unit := ExceptT.lift (Proc.yield site)

/-- Suspend at a site until the shared state makes it ready. -/
def pauseUntil (site : L) (ready : S → Bool) : Async L S E Unit :=
  ExceptT.lift (Proc.awaitUntil site ready)

/-- Return or throw what has been computed. -/
def settle (outcome : Except E α) : Async L S E α := ExceptT.mk (Pure.pure outcome)

/-- Wait at a site for an outcome that is settled when it is asked for. -/
def promised (site : L) (outcome : Except E α) : Async L S E α := do
  pause site
  settle outcome

/-- Run a part and go on with its outcome, whether it returned or threw. -/
def attempt (program : Async L S E α) : Async L S E (Except E α) := ExceptT.lift program.run

/-- Run a coroutine that does not throw on one part of the state. -/
def inside {M : Type v} {R : Type} (place : L → M) (part : R → S) (put : R → S → R) (task : Proc L S α) :
    Async M R E α :=
  ExceptT.lift (task.embed place part put)

/-- Run with no other coroutine in between. -/
def alone (program : Async L S E α) (state : S) : Option (Except E α × S) :=
  Proc.solo program.run state

section Alone

@[simp] theorem alone_pure (value : α) (state : S) :
    alone (Pure.pure value : Async L S E α) state = some (.ok value, state) := rfl

@[simp] theorem alone_throw (error : E) (state : S) :
    alone (throw error : Async L S E α) state = some (.error error, state) := rfl

@[simp] theorem alone_settle (outcome : Except E α) (state : S) :
    alone (settle outcome : Async L S E α) state = some (outcome, state) := rfl

@[simp] theorem alone_read (state : S) :
    alone (read : Async L S E S) state = some (.ok state, state) := rfl

@[simp] theorem alone_update (change : S → S) (state : S) :
    alone (update change : Async L S E Unit) state = some (.ok (), change state) := rfl

@[simp] theorem alone_pause (site : L) (state : S) :
    alone (pause site : Async L S E Unit) state = some (.ok (), state) := rfl

@[simp] theorem alone_pauseUntil (site : L) (ready : S → Bool) (state : S) :
    alone (pauseUntil site ready : Async L S E Unit) state =
      if ready state then some (.ok (), state) else none := rfl

/-- A sequence throws what its first part throws and runs on from what it
returns. -/
@[simp] theorem alone_bind (program : Async L S E α) (rest : α → Async L S E β) (state : S) :
    alone (program >>= rest) state = (alone program state).bind fun result =>
      match result.1 with
      | .ok value => alone (rest value) result.2
      | .error error => some (.error error, result.2) := by
  change Proc.solo (Proc.bind program.run (ExceptT.bindCont rest)) state = _
  rw [show Proc.bind program.run (ExceptT.bindCont rest) =
    program.run >>= ExceptT.bindCont rest from rfl, Proc.solo_bind]
  simp only [alone]
  congr 1
  funext result
  obtain ⟨outcome, later⟩ := result
  cases outcome <;> rfl

@[simp] theorem alone_promised (site : L) (outcome : Except E α) (state : S) :
    alone (promised site outcome : Async L S E α) state = some (outcome, state) := by
  simp [promised]

/-- A handler runs on what its body throws. -/
@[simp] theorem alone_tryCatch (program : Async L S E α) (handler : E → Async L S E α) (state : S) :
    alone (tryCatch program handler) state = (alone program state).bind fun result =>
      match result.1 with
      | .ok value => some (.ok value, result.2)
      | .error error => alone (handler error) result.2 := by
  change Proc.solo (program.run >>= fun outcome => match outcome with
    | .ok value => Pure.pure (Except.ok value)
    | .error error => (handler error).run) state = _
  rw [Proc.solo_bind]
  simp only [alone]
  congr 1
  funext result
  obtain ⟨outcome, later⟩ := result
  cases outcome <;> rfl

/-- An attempt always returns. -/
@[simp] theorem alone_attempt (program : Async L S E α) (state : S) :
    alone (attempt program) state =
      (alone program state).map fun result => (.ok result.1, result.2) := by
  change Proc.solo (program.run >>= fun outcome => Pure.pure (Except.ok outcome)) state = _
  rw [Proc.solo_bind, alone]
  cases Proc.solo program.run state <;> rfl

theorem alone_inside {M : Type v} {R : Type} (place : L → M) {part : R → S} {put : R → S → R}
    (own : ∀ whole, put whole (part whole) = whole) (found : ∀ whole state, part (put whole state) = state)
    (again : ∀ whole state other, put (put whole state) other = put whole other) (task : Proc L S α) (whole : R) :
    alone (inside place part put task : Async M R E α) whole =
      (task.solo (part whole)).map fun result => (.ok result.1, put whole result.2) := by
  change Proc.solo (task.embed place part put >>= fun value => Pure.pure (Except.ok value)) whole = _
  rw [Proc.solo_bind, Proc.solo_embed place own found again]
  cases task.solo (part whole) <;> rfl

end Alone

/-- Run alone, a program ends, and keeps what holds. -/
def Completes (holds : S → Prop) (program : Async L S E α) : Prop :=
  ∀ state, holds state → ∃ outcome last, alone program state = some (outcome, last) ∧ holds last

section Completion
variable {holds : S → Prop}

theorem completes_bind {program : Async L S E α} {rest : α → Async L S E β} (first : Completes holds program)
    (second : ∀ value, Completes holds (rest value)) : Completes holds (program >>= rest) := by
  intro state now
  obtain ⟨outcome, middle, ran, kept⟩ := first state now
  cases outcome with
  | ok value =>
    obtain ⟨outcome, last, onward, ends⟩ := second value middle kept
    exact ⟨outcome, last, by simp only [alone_bind, ran, Option.bind_some, onward], ends⟩
  | error error => exact ⟨.error error, middle, by simp only [alone_bind, ran, Option.bind_some], kept⟩

theorem completes_settle (outcome : Except E α) : Completes holds (settle outcome : Async L S E α) :=
  fun state now => ⟨outcome, state, rfl, now⟩

theorem completes_pure (value : α) : Completes holds (Pure.pure value : Async L S E α) :=
  completes_settle (.ok value)

theorem completes_throw (error : E) : Completes holds (throw error : Async L S E α) :=
  completes_settle (.error error)

theorem completes_pause (site : L) : Completes holds (pause site : Async L S E Unit) :=
  fun state now => ⟨_, state, rfl, now⟩

theorem completes_promised (site : L) (outcome : Except E α) :
    Completes holds (promised site outcome : Async L S E α) :=
  completes_bind (completes_pause site) fun _ => completes_settle outcome

theorem completes_updated {change : S → S} {rest : Unit → Async L S E α} (next : ∀ done, Completes holds (rest done))
    (kept : ∀ state, holds state → holds (change state)) : Completes holds (update change >>= rest) :=
  completes_bind (fun state now => ⟨_, change state, rfl, kept state now⟩) next

/-- A read whose continuation keeps what holds, whatever it has read. -/
theorem completes_read {rest : S → Async L S E α} (next : ∀ state, Completes holds (rest state)) :
    Completes holds (read >>= rest) :=
  completes_bind (fun state now => ⟨_, state, rfl, now⟩) next

end Completion

/-- The sites at which a run with no other coroutine in between suspends. -/
def visits (program : Async L S E α) (state : S) : List L := Proc.visits program.run state

section Visits

@[simp] theorem visits_pure (value : α) (state : S) :
    visits (Pure.pure value : Async L S E α) state = [] := rfl

@[simp] theorem visits_throw (error : E) (state : S) :
    visits (throw error : Async L S E α) state = [] := rfl

@[simp] theorem visits_settle (outcome : Except E α) (state : S) :
    visits (settle outcome : Async L S E α) state = [] := rfl

@[simp] theorem visits_read (state : S) : visits (read : Async L S E S) state = [] := rfl

@[simp] theorem visits_update (change : S → S) (state : S) :
    visits (update change : Async L S E Unit) state = [] := rfl

@[simp] theorem visits_pause (site : L) (state : S) :
    visits (pause site : Async L S E Unit) state = [site] := rfl

@[simp] theorem visits_bind (program : Async L S E α) (rest : α → Async L S E β) (state : S) :
    visits (program >>= rest) state = visits program state ++
      match alone program state with
      | some (.ok value, later) => visits (rest value) later
      | _ => [] := by
  change Proc.visits (Proc.bind program.run (ExceptT.bindCont rest)) state = _
  rw [show Proc.bind program.run (ExceptT.bindCont rest) =
    program.run >>= ExceptT.bindCont rest from rfl, Proc.visits_bind]
  simp only [visits, alone]
  congr 1
  rcases Proc.solo program.run state with _ | ⟨outcome, later⟩
  · rfl
  · cases outcome <;> rfl

@[simp] theorem visits_tryCatch (program : Async L S E α) (handler : E → Async L S E α) (state : S) :
    visits (tryCatch program handler) state = visits program state ++
      match alone program state with
      | some (.error error, later) => visits (handler error) later
      | _ => [] := by
  change Proc.visits (program.run >>= fun outcome => match outcome with
    | .ok value => Pure.pure (Except.ok value)
    | .error error => (handler error).run) state = _
  rw [Proc.visits_bind]
  simp only [visits, alone]
  congr 1
  rcases Proc.solo program.run state with _ | ⟨outcome, later⟩
  · rfl
  · cases outcome <;> rfl

end Visits

/-! ## Contracts of throwing coroutines -/

variable {contract : Contract L S} {site : L} {start state : S}

/-- The program keeps the contract; `returns` holds where it returns and
`throws` where it throws. -/
def Meets (contract : Contract L S) (program : Async L S E α) (returns : L → S → α → S → Prop)
    (throws : L → S → E → S → Prop) (site : L) (start state : S) : Prop :=
  contract.Keeps program.run (fun site start outcome state =>
    match outcome with
    | .ok value => returns site start value state
    | .error error => throws site start error state) site start state

section Rules
variable {returns other : L → S → α → S → Prop} {throws otherThrows : L → S → E → S → Prop}

theorem meets_mono {program : Async L S E α}
    (kept : Meets contract program returns throws site start state)
    (value : ∀ site start value state, returns site start value state → other site start value state)
    (error : ∀ site start error state,
      throws site start error state → otherThrows site start error state) :
    Meets contract program other otherThrows site start state := by
  refine Contract.keeps_mono kept fun site start outcome state held => ?_
  cases outcome with
  | ok result => exact value _ _ _ _ held
  | error failure => exact error _ _ _ _ held

/-- What a program returns or throws when it runs alone is as promised. -/
theorem meets_alone {program : Async L S E α} {outcome : Except E α} {final : S}
    (resumes : ∀ {site start next state}, contract.moves site start next state →
      contract.assume next state)
    (kept : Meets contract program returns throws site start state)
    (ran : alone program state = some (outcome, final)) :
    ∃ site start, match outcome with
      | .ok value => returns site start value final
      | .error error => throws site start error final :=
  Contract.keeps_solo resumes kept ran

/-- What a program returns and throws, read as one outcome. -/
theorem keeps_of_meets {program : Async L S E α} {finish : L → S → Except E α → S → Prop}
    (kept : Meets contract program (fun site start value state => finish site start (.ok value) state)
      (fun site start error state => finish site start (.error error) state) site start state) :
    contract.Keeps program.run finish site start state := by
  apply Contract.keeps_mono kept
  intro _ _ outcome _ held
  cases outcome with
  | ok value => exact held
  | error error => exact held

@[simp] theorem meets_pure {value : α} :
    Meets contract (Pure.pure value : Async L S E α) returns throws site start state ↔
      returns site start value state := Iff.rfl

@[simp] theorem meets_throw {error : E} :
    Meets contract (throw error : Async L S E α) returns throws site start state ↔
      throws site start error state := Iff.rfl

@[simp] theorem meets_settle {outcome : Except E α} :
    Meets contract (settle outcome : Async L S E α) returns throws site start state ↔
      match outcome with
      | .ok value => returns site start value state
      | .error error => throws site start error state := Iff.rfl

@[simp] theorem meets_read {returns : L → S → S → S → Prop} :
    Meets contract (read : Async L S E S) returns throws site start state ↔
      returns site start state state := Iff.rfl

@[simp] theorem meets_update {change : S → S} {returns : L → S → Unit → S → Prop} :
    Meets contract (update change : Async L S E Unit) returns throws site start state ↔
      returns site start () (change state) := Iff.rfl

/-- A coroutine on one part of the state throws nothing. -/
theorem meets_inside_iff {M : Type v} {R : Type} {contract : Contract M R} {place : L → M} {part : R → S}
    {put : R → S → R} {task : Proc L S α} {returns : M → R → α → R → Prop} {throws : M → R → E → R → Prop} {site : M}
    {start state : R} : Meets contract (inside place part put task : Async M R E α) returns throws site start state ↔
      contract.Keeps (task.embed place part put) returns site start state := by
  change contract.Keeps (task.embed place part put >>= fun value => Pure.pure (Except.ok value)) _ site start state ↔ _
  rw [Contract.keeps_bind]
  exact Iff.rfl

@[simp] theorem meets_pauseUntil {next : L} {ready : S → Bool} {returns : L → S → Unit → S → Prop} :
    Meets contract (pauseUntil next ready : Async L S E Unit) returns throws site start state ↔
      contract.moves site start next state ∧
        ∀ later, ready later = true → contract.assume next later → returns next later () later :=
  Iff.rfl

@[simp] theorem meets_pause {next : L} {returns : L → S → Unit → S → Prop} :
    Meets contract (pause next : Async L S E Unit) returns throws site start state ↔
      contract.moves site start next state ∧
        ∀ later, contract.assume next later → returns next later () later := by
  change Meets contract (pauseUntil next fun _ => true) returns throws site start state ↔ _
  simp

@[simp] theorem meets_bind {program : Async L S E α} {rest : α → Async L S E β}
    {returns : L → S → β → S → Prop} :
    Meets contract (program >>= rest) returns throws site start state ↔
      Meets contract program
        (fun site start value state => Meets contract (rest value) returns throws site start state)
        throws site start state := by
  change contract.Keeps (program.run >>= ExceptT.bindCont rest) _ site start state ↔ _
  rw [Contract.keeps_bind]
  refine ⟨fun kept => Contract.keeps_mono kept ?_, fun kept => Contract.keeps_mono kept ?_⟩ <;>
    intro site start outcome state held <;> cases outcome <;> exact held

@[simp] theorem meets_promised {next : L} {outcome : Except E α} :
    Meets contract (promised next outcome : Async L S E α) returns throws site start state ↔
      contract.moves site start next state ∧ ∀ later, contract.assume next later → match outcome with
        | .ok value => returns next later value later
        | .error error => throws next later error later := by
  simp only [promised, meets_bind, meets_pause, meets_settle]

@[simp] theorem meets_tryCatch {program : Async L S E α} {handler : E → Async L S E α} :
    Meets contract (tryCatch program handler) returns throws site start state ↔
      Meets contract program returns
        (fun site start error state => Meets contract (handler error) returns throws site start state)
        site start state := by
  change contract.Keeps (program.run >>= fun outcome => match outcome with
    | .ok value => Pure.pure (Except.ok value)
    | .error error => (handler error).run) _ site start state ↔ _
  rw [Contract.keeps_bind]
  refine ⟨fun kept => Contract.keeps_mono kept ?_, fun kept => Contract.keeps_mono kept ?_⟩ <;>
    intro site start outcome state held <;> cases outcome <;> exact held

@[simp] theorem meets_attempt {program : Async L S E α} {returns : L → S → Except E α → S → Prop} :
    Meets contract (attempt program) returns throws site start state ↔
      Meets contract program (fun site start value state => returns site start (.ok value) state)
        (fun site start error state => returns site start (.error error) state) site start state := by
  change contract.Keeps (program.run >>= fun outcome => Pure.pure (Except.ok outcome)) _
    site start state ↔ _
  rw [Contract.keeps_bind]
  refine ⟨fun kept => Contract.keeps_mono kept ?_, fun kept => Contract.keeps_mono kept ?_⟩ <;>
    intro site start outcome state held <;> cases outcome <;> exact held

end Rules

/-! ## Readings

A reading is what a part of a coroutine knows of the site and the state it was
resumed in and of the state it has reached. One that a part keeps wherever it
suspends and ends is kept by every sequence of such parts. -/

/-- A part of a call keeps a reading wherever it suspends and ends, and what it
returns has a property. -/
def Yields (contract : Contract L S) (holds : L → S → S → Prop) (program : Async L S E α) (result : α → Prop)
    (at_ : L) (start w : S) : Prop :=
  Meets contract program (fun at_ start value w => holds at_ start w ∧ result value)
    (fun at_ start _ w => holds at_ start w) at_ start w

/-- The reading allows a suspension at a site and is there again afterwards. -/
def Survives (contract : Contract L S) (holds : L → S → S → Prop) (site : L) : Prop :=
  ∀ at_ start w, holds at_ start w → contract.moves at_ start site w ∧
    ∀ later, contract.assume site later → holds site later later

section Readings
variable {holds : L → S → S → Prop} {at_ : L} {w : S}

theorem yields_mono {program : Async L S E α} {result other : α → Prop}
    (yields : Yields contract holds program result at_ start w) (weaker : ∀ value, result value → other value) :
    Yields contract holds program other at_ start w :=
  meets_mono yields (fun _ _ value _ held => ⟨held.1, weaker value held.2⟩) (fun _ _ _ _ held => held)

theorem yields_bind {program : Async L S E α} {rest : α → Async L S E β} {middle : α → Prop} {result : β → Prop}
    (first : Yields contract holds program middle at_ start w)
    (second : ∀ at_ start value w, holds at_ start w → middle value →
      Yields contract holds (rest value) result at_ start w) :
    Yields contract holds (program >>= rest) result at_ start w :=
  meets_bind.mpr (meets_mono first (fun at_ start value w held => second at_ start value w held.1 held.2)
    (fun _ _ _ _ held => held))

theorem yields_attempt {program : Async L S E α} {result : α → Prop}
    (yields : Yields contract holds program result at_ start w) :
    Yields contract holds (attempt program) (fun outcome => ∀ value, outcome = .ok value → result value)
      at_ start w := by
  refine meets_attempt.mpr (meets_mono yields ?_ ?_)
  · intro _ _ value w held
    refine ⟨held.1, fun other same => ?_⟩
    cases same
    exact held.2
  · intro _ _ error w held
    exact ⟨held, fun other same => by cases same⟩

theorem yields_pauseUntil {site : L} (survives : Survives contract holds site)
    (ready : S → Bool) (now : holds at_ start w) :
    Yields contract holds (pauseUntil site ready : Async L S E Unit) (fun _ => True) at_ start w := by
  obtain ⟨allowed, resumes⟩ := survives at_ start w now
  exact meets_pauseUntil.mpr ⟨allowed, fun later _ assumed => ⟨resumes later assumed, trivial⟩⟩

theorem yields_pause {site : L} (survives : Survives contract holds site) (now : holds at_ start w) :
    Yields contract holds (pause site : Async L S E Unit) (fun _ => True) at_ start w := by
  obtain ⟨allowed, resumes⟩ := survives at_ start w now
  exact meets_pause.mpr ⟨allowed, fun later assumed => ⟨resumes later assumed, trivial⟩⟩

theorem yields_settle {outcome : Except E α} {result : α → Prop} (now : holds at_ start w)
    (own : ∀ value, outcome = .ok value → result value) :
    Yields contract holds (settle outcome) result at_ start w := by
  cases outcome with
  | ok value => exact ⟨now, own value rfl⟩
  | error refused => exact now

/-- What comes after a part that keeps a reading may end otherwise. -/
theorem meets_after {program : Async L S E α} {rest : α → Async L S E β} {middle : α → Prop}
    {returns : L → S → β → S → Prop} {throws : L → S → E → S → Prop}
    (first : Yields contract holds program middle at_ start w)
    (second : ∀ at_ start value w, holds at_ start w → middle value →
      Meets contract (rest value) returns throws at_ start w)
    (thrown : ∀ at_ start error w, holds at_ start w → throws at_ start error w) :
    Meets contract (program >>= rest) returns throws at_ start w :=
  meets_bind.mpr (meets_mono first (fun at_ start value w held => second at_ start value w held.1 held.2) thrown)

theorem yields_read {rest : S → Async L S E α} {result : α → Prop}
    (next : Yields contract holds (rest w) result at_ start w) :
    Yields contract holds (read >>= rest) result at_ start w := by
  simpa only [Yields, meets_bind, meets_read] using next

theorem yields_update {change : S → S} (changed : holds at_ start (change w)) :
    Yields contract holds (update change : Async L S E Unit) (fun _ => True) at_ start w :=
  ⟨changed, trivial⟩

/-- A coroutine on another part of the state keeps a reading that does not look at
that part, and throws nothing. -/
theorem meets_inside {M : Type v} {R : Type} {contract : Contract M R} {holds : M → R → R → Prop} {place : L → M}
    {part : R → S} {put : R → S → R} {task : Proc L S α} {returns : M → R → α → R → Prop}
    {throws : M → R → E → R → Prop} {at_ : M} {start w : R}
    (survives : ∀ here, Survives contract holds (place here))
    (untouched : ∀ at_ start w other, holds at_ start w → holds at_ start (put w other)) (now : holds at_ start w)
    (after : ∀ at_ start value w, holds at_ start w → returns at_ start value w) :
    Meets contract (inside place part put task : Async M R E α) returns throws at_ start w := by
  apply meets_inside_iff.mpr
  apply Contract.keeps_mono (Contract.keeps_embed untouched (fun here => survives here) now)
  intro at_ start value w held
  exact after at_ start value w held

end Readings
end SFrameRatchet.Throwing
