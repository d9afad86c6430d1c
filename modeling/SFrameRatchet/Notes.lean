import SFrameRatchet.Interleaving
import SFrameRatchet.Throwing

/-! Contracts with notes. A note is what the proof about a call remembers and no
program computes: it is chosen anew wherever the call suspends, and may speak of
local variables that the site does not show. Where what can happen to a note and the
state together is a reflexive and transitive relation, the parts of a program are
followed one after the other, each from where the last one ended; a call whose notes
are read off its sites may keep an ordinary contract. -/
namespace SFrameRatchet.Notes
open Coroutine Interleaving Throwing

/-- What a call with some note may assume at a site when it is resumed, the notes
that fit a site, and what the calls make of a note and the state. -/
structure Pact (L : Type u) (N : Type w) (S : Type v) where
  assume : L → N → S → Prop
  fits : L → N → Prop
  carried : N → S → N → S → Prop

/-- A pact whose steps compose. -/
structure Terms (L : Type u) (N : Type w) (S : Type v) extends Pact L N S where
  refl : ∀ note state, carried note state note state
  trans : ∀ {first start middle reached last state}, carried first start middle reached →
    carried middle reached last state → carried first start last state

instance {L : Type u} {N : Type w} {S : Type v} : CoeOut (Terms L N S) (Pact L N S) := ⟨Terms.toPact⟩

variable {ι : Type t} {L : Type u} {N : Type w} {S : Type v} {α β : Type x}

/-- The program keeps the pact: its current atomic part began with the note `first`
in the state `start` and has reached `state`; `post` holds of the result, a last note
and the state in which the program ends. -/
def Noted (pact : Pact L N S) : Proc L S α → (α → N → S → Prop) → N → S → S → Prop
  | .pure value, post, first, start, state => ∃ last, pact.carried first start last state ∧ post value last state
  | .act update next, post, first, start, state => Noted pact (next state) post first start (update state)
  | .await site ready rest, post, first, start, state => ∃ note, pact.fits site note ∧
    pact.carried first start note state ∧
      ∀ later, ready later = true → pact.assume site note later → Noted pact rest post note later later

section Rules
variable {terms : Terms L N S} {post other : α → N → S → Prop} {first note : N} {start reached state : S}

/-- An atomic part may be followed from where an earlier piece of it has ended. -/
theorem noted_onward {program : Proc L S α} (carried : terms.carried first start note reached)
    (kept : Noted terms program post note reached state) : Noted terms program post first start state := by
  induction program generalizing state with
  | pure value =>
    obtain ⟨last, further, held⟩ := kept
    exact ⟨last, terms.trans carried further, held⟩
  | act update next ih => exact ih state kept
  | await site ready rest ih =>
    obtain ⟨last, fits, further, resumes⟩ := kept
    exact ⟨last, fits, terms.trans carried further, resumes⟩

theorem noted_mono {program : Proc L S α} (kept : Noted terms program post first start state)
    (weaker : ∀ value note state, post value note state → other value note state) :
    Noted terms program other first start state := by
  induction program generalizing first start state with
  | pure value =>
    obtain ⟨last, carried, held⟩ := kept
    exact ⟨last, carried, weaker _ _ _ held⟩
  | act update next ih => exact ih state kept
  | await site ready rest ih =>
    obtain ⟨note, fits, carried, resumes⟩ := kept
    exact ⟨note, fits, carried, fun later isReady assumed => ih (resumes later isReady assumed)⟩

/-- A program may end with another note than the one it has followed. -/
theorem noted_ending {program : Proc L S α} (kept : Noted terms program
      (fun value note state => ∃ last, terms.carried note state last state ∧ post value last state) first start state) :
    Noted terms program post first start state := by
  induction program generalizing first start state with
  | pure value =>
    obtain ⟨last, carried, other, further, held⟩ := kept
    exact ⟨other, terms.trans carried further, held⟩
  | act update next ih => exact ih state kept
  | await site ready rest ih =>
    obtain ⟨note, fits, carried, resumes⟩ := kept
    exact ⟨note, fits, carried, fun later isReady assumed => ih (resumes later isReady assumed)⟩

theorem noted_bind {program : Proc L S α} {rest : α → Proc L S β} {after : β → N → S → Prop}
    (kept : Noted terms program (fun value note state => Noted terms (rest value) after note state state)
      first start state) : Noted terms (program >>= rest) after first start state := by
  change Noted terms (program.bind rest) after first start state
  induction program generalizing first start state with
  | pure value =>
    obtain ⟨last, carried, held⟩ := kept
    exact noted_onward carried held
  | act update next ih => exact ih state kept
  | await site ready rest' ih =>
    obtain ⟨note, fits, carried, resumes⟩ := kept
    exact ⟨note, fits, carried, fun later isReady assumed => ih (resumes later isReady assumed)⟩

/-- The contract of the calls that leave a note as it is. -/
def Terms.still (terms : Terms L N S) (note : N) : Contract L S where
  assume site state := terms.assume site note state
  moves _ start site state := terms.fits site note ∧ terms.carried note start note state

/-- A program that keeps this contract keeps the terms. -/
theorem noted_of_keeps {program : Proc L S α} {ends : L → S → α → S → Prop} {site : L}
    (kept : (terms.still note).Keeps program ends site start state)
    (held : ∀ site start value state, ends site start value state →
      terms.carried note start note state ∧ post value note state) : Noted terms program post note start state := by
  induction program generalizing site start state with
  | pure value =>
    obtain ⟨carried, held⟩ := held _ _ _ _ kept
    exact ⟨note, carried, held⟩
  | act update next ih => exact ih state kept
  | await next ready rest ih =>
    obtain ⟨⟨fits, carried⟩, resumes⟩ := kept
    exact ⟨note, fits, carried, fun later isReady assumed => ih (resumes later isReady assumed)⟩

end Rules

/-- A program that keeps a contract keeps the pact in which its sites are its notes. -/
theorem noted_of_sited {pact : Pact L N S} {contract : Contract L S} (noteAt : L → N)
    (moves : ∀ at_ start site state, contract.moves at_ start site state →
      pact.fits site (noteAt site) ∧ pact.carried (noteAt at_) start (noteAt site) state)
    (assumes : ∀ site later, pact.assume site (noteAt site) later → contract.assume site later)
    {program : Proc L S α} {ends : L → S → α → S → Prop} {post : α → N → S → Prop} {at_ : L} {start state : S}
    (kept : contract.Keeps program ends at_ start state)
    (held : ∀ at_ start value state, ends at_ start value state →
      ∃ last, pact.carried (noteAt at_) start last state ∧ post value last state) :
    Noted pact program post (noteAt at_) start state := by
  induction program generalizing at_ start state with
  | pure value => exact held _ _ _ _ kept
  | act update next ih => exact ih state kept
  | await site ready rest ih =>
    obtain ⟨moved, resumes⟩ := kept
    obtain ⟨fits, carried⟩ := moves _ _ _ _ moved
    exact ⟨noteAt site, fits, carried, fun later isReady assumed => ih (resumes later isReady (assumes _ _ assumed))⟩

/-! ## Throwing coroutines -/

section Throwing
variable {S E α β : Type} {terms : Terms L N S} {note : N} {state : S}

/-- The program keeps the terms from a note and a state; `returns` holds where it
returns and `throws` where it throws. -/
def Accounts (terms : Terms L N S) (program : Async L S E α) (returns : α → N → S → Prop)
    (throws : E → N → S → Prop) (note : N) (state : S) : Prop :=
  Noted terms program.run (fun outcome note state => match outcome with
    | .ok value => returns value note state
    | .error error => throws error note state) note state state

variable {returns other : α → N → S → Prop} {throws otherThrows : E → N → S → Prop}

theorem accounts_mono {program : Async L S E α} (kept : Accounts terms program returns throws note state)
    (value : ∀ value note state, returns value note state → other value note state)
    (error : ∀ error note state, throws error note state → otherThrows error note state) :
    Accounts terms program other otherThrows note state := by
  apply noted_mono kept
  intro outcome note state held
  cases outcome with
  | ok result => exact value _ _ _ held
  | error failure => exact error _ _ _ held

theorem accounts_pure {value : α} (held : returns value note state) :
    Accounts terms (Pure.pure value : Async L S E α) returns throws note state :=
  ⟨note, terms.refl note state, held⟩

theorem accounts_throw {error : E} (held : throws error note state) :
    Accounts terms (throw error : Async L S E α) returns throws note state :=
  ⟨note, terms.refl note state, held⟩

theorem accounts_settle {outcome : Except E α} (value : ∀ value, outcome = .ok value → returns value note state)
    (error : ∀ error, outcome = .error error → throws error note state) :
    Accounts terms (settle outcome : Async L S E α) returns throws note state := by
  cases outcome with
  | ok result => exact accounts_pure (value result rfl)
  | error failure => exact accounts_throw (error failure rfl)

theorem accounts_bind {program : Async L S E α} {rest : α → Async L S E β} {returns : β → N → S → Prop}
    (kept : Accounts terms program (fun value note state => Accounts terms (rest value) returns throws note state)
      throws note state) : Accounts terms (program >>= rest) returns throws note state := by
  change Noted terms (program.run >>= ExceptT.bindCont rest) _ note state state
  apply noted_bind
  apply noted_mono kept
  intro outcome note state held
  cases outcome with
  | ok value => exact held
  | error error => exact ⟨note, terms.refl note state, held⟩

theorem accounts_tryCatch {program : Async L S E α} {handler : E → Async L S E α}
    (kept : Accounts terms program returns (fun error note state =>
      Accounts terms (handler error) returns throws note state) note state) :
    Accounts terms (tryCatch program handler) returns throws note state := by
  change Noted terms (program.run >>= fun outcome => match outcome with
    | .ok value => Pure.pure (Except.ok value)
    | .error error => (handler error).run) _ note state state
  apply noted_bind
  apply noted_mono kept
  intro outcome note state held
  cases outcome with
  | ok value => exact ⟨note, terms.refl note state, held⟩
  | error error => exact held

theorem accounts_attempt {program : Async L S E α} {returns : Except E α → N → S → Prop}
    (kept : Accounts terms program (fun value note state => returns (.ok value) note state)
      (fun error note state => returns (.error error) note state) note state) :
    Accounts terms (attempt program) returns throws note state := by
  change Noted terms (program.run >>= fun outcome => Pure.pure (Except.ok outcome)) _ note state state
  apply noted_bind
  apply noted_mono kept
  intro outcome note state held
  refine ⟨note, terms.refl note state, ?_⟩
  cases outcome with
  | ok value => exact held
  | error error => exact held

theorem accounts_read {rest : S → Async L S E α} (next : Accounts terms (rest state) returns throws note state) :
    Accounts terms (read >>= rest) returns throws note state :=
  accounts_bind ⟨note, terms.refl note state, next⟩

/-- A change of the state, with the note that goes with it. -/
theorem accounts_update {change : S → S} {returns : Unit → N → S → Prop} (last : N)
    (carried : terms.carried note state last (change state)) (held : returns () last (change state)) :
    Accounts terms (update change : Async L S E Unit) returns throws note state :=
  ⟨last, carried, held⟩

theorem accounts_pauseUntil {site : L} {ready : S → Bool} {returns : Unit → N → S → Prop} (last : N)
    (fits : terms.fits site last) (carried : terms.carried note state last state)
    (resumes : ∀ later, ready later = true → terms.assume site last later → returns () last later) :
    Accounts terms (pauseUntil site ready : Async L S E Unit) returns throws note state :=
  ⟨last, fits, carried, fun later isReady assumed => ⟨last, terms.refl last later, resumes later isReady assumed⟩⟩

theorem accounts_pause {site : L} {returns : Unit → N → S → Prop} (last : N) (fits : terms.fits site last)
    (carried : terms.carried note state last state)
    (resumes : ∀ later, terms.assume site last later → returns () last later) :
    Accounts terms (pause site : Async L S E Unit) returns throws note state :=
  accounts_pauseUntil last fits carried fun later _ assumed => resumes later assumed

/-- What comes before may be accounted for by another note. -/
theorem accounts_onward {program : Async L S E α} (last : N) (carried : terms.carried note state last state)
    (kept : Accounts terms program returns throws last state) : Accounts terms program returns throws note state :=
  noted_onward carried kept

/-- What the program ends with may be accounted for by another note. -/
theorem accounts_closing {program : Async L S E α}
    (kept : Accounts terms program (fun value note state => ∃ last, terms.carried note state last state ∧
      returns value last state) (fun error note state => ∃ last, terms.carried note state last state ∧
        throws error last state) note state) : Accounts terms program returns throws note state := by
  apply noted_ending
  apply noted_mono kept
  intro outcome note state held
  cases outcome with
  | ok value => exact held
  | error error => exact held

theorem accounts_ending {program : Async L S E α}
    (kept : Accounts terms program (fun value note state => ∃ last, terms.carried note state last state ∧
      returns value last state) throws note state) : Accounts terms program returns throws note state :=
  accounts_closing (accounts_mono kept (fun _ _ _ held => held) fun _ note state held =>
    ⟨note, terms.refl note state, held⟩)

/-- A part that keeps a reading while its note stays as it is. -/
theorem accounts_still {program : Async L S E α} {holds : L → S → S → Prop} {result : α → Prop} {at_ : L}
    (kept : Yields (terms.still note) holds program result at_ state state)
    (carried : ∀ at_ start state, holds at_ start state → terms.carried note start note state)
    (value : ∀ at_ start value state, holds at_ start state → result value → returns value note state)
    (error : ∀ at_ start error state, holds at_ start state → throws error note state) :
    Accounts terms program returns throws note state := by
  apply noted_of_keeps kept
  intro at_ start outcome state held
  cases outcome with
  | ok result => exact ⟨carried _ _ _ held.1, value _ _ _ _ held.1 held.2⟩
  | error failure => exact ⟨carried _ _ _ held, error _ _ _ _ held⟩

end Throwing

/-! ## Runs -/

/-- A waiting program keeps the terms from every state in which it may be resumed. -/
def Waits (pact : Pact L N S) (finish : α → N → S → Prop) (note : N) : Proc L S α → Prop
  | .pure _ => True
  | .act .. => False
  | .await site ready rest => pact.fits site note ∧ ∀ later, ready later = true → pact.assume site note later →
    Noted pact rest finish note later later

/-- What the note of a call is about when the call shows a status. -/
def Reached (pact : Pact L N S) (finish : α → N → S → Prop) (note : N) (state : S) : Status L α → Prop
  | .running => False
  | .suspended site => pact.fits site note
  | .finished value => finish value note state

theorem noted_advance {pact : Pact L N S} {finish : α → N → S → Prop} {program : Proc L S α} {first : N}
    {start state : S} (kept : Noted pact program finish first start state) :
    ∃ note, pact.carried first start note (program.advance state).1 ∧
      Reached pact finish note (program.advance state).1 (program.advance state).2.status ∧
        Waits pact finish note (program.advance state).2 := by
  induction program generalizing state with
  | pure value =>
    obtain ⟨last, carried, held⟩ := kept
    exact ⟨last, carried, held, trivial⟩
  | act update next ih => exact ih state kept
  | await site ready rest ih =>
    obtain ⟨note, fits, carried, resumes⟩ := kept
    exact ⟨note, carried, fits, fits, resumes⟩

section Runs
variable [DecidableEq ι] (pacts : ι → Pact L N S) (finish : ι → α → N → S → Prop)
  (invariant : S → (ι → Status L α) → (ι → N) → Prop)

/-- The invariant holds with notes for all calls under which they wait. -/
def Keeping (pool : Pool ι L S α) : Prop :=
  ∃ notes : ι → N, invariant pool.shared pool.statuses notes ∧
    ∀ call, Waits (pacts call) (finish call) (notes call) (pool.calls call)

omit [DecidableEq ι] in
/-- The notes of waiting calls fit their sites. -/
theorem fits_of_waits {pool : Pool ι L S α} {notes : ι → N}
    (waiting : ∀ call, Waits (pacts call) (finish call) (notes call) (pool.calls call)) {call : ι} {site : L}
    (waits : pool.statuses call = .suspended site) : (pacts call).fits site (notes call) := by
  have kept := waiting call
  simp only [Pool.statuses] at waits
  generalize pool.calls call = program at waits kept
  cases program with
  | pure value => cases waits
  | act update next => cases waits
  | await here ready rest =>
    cases waits
    exact kept.1

variable {gate : Pool ι L S α → ι → Pool ι L S α → Prop}
  (grants : ∀ (before : Pool ι L S α) call site (after : Pool ι L S α) notes,
    invariant before.shared before.statuses notes → before.statuses call = .suspended site → gate before call after →
    (pacts call).assume site (notes call) before.shared)
  (preserves : ∀ (before : Pool ι L S α) call site (after : Pool ι L S α) notes note,
    invariant before.shared before.statuses notes →
    (∀ other at_, before.statuses other = .suspended at_ → (pacts other).fits at_ (notes other)) →
    before.statuses call = .suspended site → gate before call after →
    (pacts call).carried (notes call) before.shared note after.shared →
    Reached (pacts call) (finish call) note after.shared (after.statuses call) →
    invariant after.shared (Function.update before.statuses call (after.statuses call))
      (Function.update notes call note))

include grants preserves

/-- One turn of a call that keeps its terms. -/
theorem turn_keeping {before after : Pool ι L S α} {call : ι} (keeping : Keeping pacts finish invariant before)
    (taken : before.turn call = some after) (passes : gate before call after) :
    Keeping pacts finish invariant after := by
  obtain ⟨notes, holds, waiting⟩ := keeping
  have turned := taken
  unfold Pool.turn at turned
  generalize held : before.calls call = program at turned
  cases program with
  | pure value => cases turned
  | act update next => cases turned
  | await site ready rest =>
    have waits : before.statuses call = .suspended site := by simp [Pool.statuses, held, Proc.status]
    by_cases isReady : ready before.shared = true
    · simp only [isReady, ↓reduceIte, Option.some.injEq] at turned
      have assumed := grants before call site after notes holds waits passes
      have waited := waiting call
      rw [held] at waited
      obtain ⟨note, carried, reached, waitsAgain⟩ := noted_advance (waited.2 before.shared isReady assumed)
      have shared : after.shared = (rest.advance before.shared).1 := by rw [← turned]
      have own : after.calls call = (rest.advance before.shared).2 := by rw [← turned]; simp
      have others (other : ι) (different : other ≠ call) : after.calls other = before.calls other :=
        turn_others taken different
      have status : after.statuses call = (rest.advance before.shared).2.status := by simp [Pool.statuses, own]
      rw [← shared] at carried
      rw [← shared, ← status] at reached
      have statuses : after.statuses = Function.update before.statuses call (after.statuses call) := turn_statuses taken
      refine ⟨Function.update notes call note, ?_, fun other => ?_⟩
      · rw [statuses]
        exact preserves before call site after notes note holds
          (fun other at_ suspended => fits_of_waits pacts finish waiting suspended) waits passes carried reached
      · by_cases same : other = call
        · subst same
          rw [Function.update_self, own]
          exact waitsAgain
        · rw [Function.update_of_ne same, others other same]
          exact waiting other
    · simp [isReady] at turned

/-- **The run rule.** What holds at first with some notes, and is preserved by
whatever the calls may do under theirs, holds in every pool that a run reaches. -/
theorem runs_keeping {first last : Pool ι L S α} (keeping : Keeping pacts finish invariant first)
    (runs : Runs gate first last) : Keeping pacts finish invariant last := by
  induction runs with
  | start => exact keeping
  | turn earlier taken passes ih => exact turn_keeping pacts finish invariant grants preserves ih taken passes

end Runs

/-- Calls that have not begun keep their terms under a note for the beginning. -/
theorem launch_keeping {pacts : ι → Pact L N S} {finish : ι → α → N → S → Prop}
    {invariant : S → (ι → Status L α) → (ι → N) → Prop} {programs : ι → Proc L S α} {site : L} {shared : S}
    (note : ι → N) (begins : invariant shared (Pool.launch site shared programs).statuses note)
    (fits : ∀ call, (pacts call).fits site (note call))
    (kept : ∀ call state, (pacts call).assume site (note call) state →
      Noted (pacts call) (programs call) (finish call) (note call) state state) :
    Keeping pacts finish invariant (Pool.launch site shared programs) :=
  ⟨note, begins, fun call => ⟨fits call, fun later _ assumed => kept call later assumed⟩⟩

end SFrameRatchet.Notes
