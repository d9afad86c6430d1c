import Mathlib.Logic.Relation
import Mathlib.Logic.Function.Basic

/-! Cooperative coroutines over one shared state. A coroutine runs without
interruption from one suspension to the next; everything between two
suspensions is atomic for every other coroutine. Each suspension carries a
site, the part of the program counter and of the local variables that a
statement about an interleaving may speak of. -/
namespace SFrameRatchet.Coroutine

/-- A coroutine: a value, an atomic update whose continuation sees the state
before the update, or a suspension that may be resumed once `ready` holds. -/
inductive Proc (L : Type u) (S : Type v) (α : Type w) where
  | pure (value : α)
  | act (update : S → S) (next : S → Proc L S α)
  | await (site : L) (ready : S → Bool) (next : Proc L S α)

/-- What the other coroutines can see of one coroutine. -/
inductive Status (L : Type u) (α : Type w) where
  | running
  | suspended (site : L)
  | finished (value : α)
  deriving DecidableEq

namespace Proc

def bind : Proc L S α → (α → Proc L S β) → Proc L S β
  | pure value, rest => rest value
  | act update next, rest => act update fun state => (next state).bind rest
  | await site ready next, rest => await site ready (next.bind rest)

instance : Monad (Proc L S) where
  pure := Proc.pure
  bind := Proc.bind

/-- Read the shared state. -/
def get : Proc L S S := act id pure

/-- Update the shared state. -/
def modify (update : S → S) : Proc L S Unit := act update fun _ => pure ()

/-- Update the shared state and return a value computed with the update. -/
def modifyGet (update : S → α × S) : Proc L S α :=
  act (fun state => (update state).2) fun state => pure (update state).1

/-- Suspend at a site until another coroutine, or nobody, makes it ready. -/
def awaitUntil (site : L) (ready : S → Bool) : Proc L S Unit := await site ready (pure ())

/-- Suspend at a site that any later turn may resume. -/
def yield (site : L) : Proc L S Unit := awaitUntil site fun _ => true

/-- Run the atomic part in front of the next suspension. -/
def advance : Proc L S α → S → S × Proc L S α
  | pure value, state => (state, pure value)
  | act update next, state => (next state).advance (update state)
  | await site ready next, state => (state, await site ready next)

def status : Proc L S α → Status L α
  | pure value => .finished value
  | act .. => .running
  | await site .. => .suspended site

/-- Run with no other coroutine in between. A suspension that is not ready
then stays so forever, and the run has no result. -/
def solo : Proc L S α → S → Option (α × S)
  | pure value, state => some (value, state)
  | act update next, state => (next state).solo (update state)
  | await _ ready next, state => if ready state then next.solo state else none

/-- The sites at which a run with no other coroutine in between suspends. -/
def visits : Proc L S α → S → List L
  | pure _, _ => []
  | act update next, state => (next state).visits (update state)
  | await site ready next, state => site :: if ready state then next.visits state else []

/-- A coroutine over one part of a larger state, with its sites among larger ones. -/
def embed (site : L → M) (part : R → S) (put : R → S → R) : Proc L S α → Proc M R α
  | pure value => pure value
  | act update next =>
    act (fun whole => put whole (update (part whole))) fun whole => (next (part whole)).embed site part put
  | await here ready next => await (site here) (fun whole => ready (part whole)) (next.embed site part put)

section Solo
variable {L : Type u} {S : Type v} {α β : Type w}

@[simp] theorem solo_pure (value : α) (state : S) :
    (Pure.pure value : Proc L S α).solo state = some (value, state) := rfl

@[simp] theorem solo_get (state : S) : (get : Proc L S S).solo state = some (state, state) := rfl

@[simp] theorem solo_modify (update : S → S) (state : S) :
    (modify update : Proc L S Unit).solo state = some ((), update state) := rfl

@[simp] theorem solo_modifyGet (update : S → α × S) (state : S) :
    (modifyGet update : Proc L S α).solo state = some (update state) := rfl

@[simp] theorem solo_awaitUntil (site : L) (ready : S → Bool) (state : S) :
    (awaitUntil site ready : Proc L S Unit).solo state =
      if ready state then some ((), state) else none := rfl

@[simp] theorem solo_yield (site : L) (state : S) :
    (yield site : Proc L S Unit).solo state = some ((), state) := rfl

/-- Running a sequence alone is running its parts one after the other. -/
@[simp] theorem solo_bind (program : Proc L S α) (rest : α → Proc L S β) (state : S) :
    (program >>= rest).solo state =
      (program.solo state).bind fun result => (rest result.1).solo result.2 := by
  change (program.bind rest).solo state = _
  induction program generalizing state with
  | pure value => rfl
  | act update next ih => exact ih state (update state)
  | await site ready next ih =>
    simp only [Proc.bind, solo]
    split
    · exact ih state
    · rfl

@[simp] theorem visits_pure (value : α) (state : S) :
    (Pure.pure value : Proc L S α).visits state = [] := rfl

@[simp] theorem visits_get (state : S) : (get : Proc L S S).visits state = [] := rfl

@[simp] theorem visits_modify (update : S → S) (state : S) :
    (modify update : Proc L S Unit).visits state = [] := rfl

@[simp] theorem visits_yield (site : L) (state : S) :
    (yield site : Proc L S Unit).visits state = [site] := rfl

/-- A sequence visits what its first part visits, and then its second part
when the first one ends. -/
@[simp] theorem visits_bind (program : Proc L S α) (rest : α → Proc L S β) (state : S) :
    (program >>= rest).visits state = program.visits state ++
      match program.solo state with
      | some result => (rest result.1).visits result.2
      | none => [] := by
  change (program.bind rest).visits state = _
  induction program generalizing state with
  | pure value => rfl
  | act update next ih => exact ih state (update state)
  | await site ready next ih =>
    simp only [Proc.bind, visits, solo]
    split
    · rw [ih]; rfl
    · rfl

/-- Run alone, an embedded coroutine changes its part as it does by itself. -/
theorem solo_embed {M : Type u'} {R : Type v'} (site : L → M) {part : R → S} {put : R → S → R}
    (own : ∀ whole, put whole (part whole) = whole) (found : ∀ whole state, part (put whole state) = state)
    (again : ∀ whole state other, put (put whole state) other = put whole other) (program : Proc L S α) (whole : R) :
    (program.embed site part put).solo whole =
      (program.solo (part whole)).map fun result => (result.1, put whole result.2) := by
  induction program generalizing whole with
  | pure value => simp [embed, solo, own]
  | act update next ih =>
    simp only [embed, solo, ih, found]
    congr 1
    funext result
    rw [again]
  | await here ready next ih =>
    simp only [embed, solo]
    split
    · exact ih whole
    · rfl

end Solo

section Embed
variable {L : Type u} {S : Type v} {α β : Type w} {M : Type u'} {R : Type v'} (site : L → M) (part : R → S)
  (put : R → S → R)

@[simp] theorem embed_pure (value : α) :
    (Pure.pure value : Proc L S α).embed site part put = Pure.pure value := rfl

@[simp] theorem embed_bind (program : Proc L S α) (rest : α → Proc L S β) :
    (program >>= rest).embed site part put =
      program.embed site part put >>= fun value => (rest value).embed site part put := by
  change (program.bind rest).embed site part put = Proc.bind _ _
  induction program with
  | pure value => rfl
  | act update next ih => simp only [Proc.bind, embed, ih]
  | await here ready next ih => simp only [Proc.bind, embed, ih]

@[simp] theorem embed_modify (update : S → S) : (modify update : Proc L S Unit).embed site part put =
    modify fun whole => put whole (update (part whole)) := rfl

@[simp] theorem embed_yield (here : L) :
    (yield here : Proc L S Unit).embed site part put = yield (site here) := rfl

end Embed
end Proc

/-! ## Contracts

A contract says what a coroutine may rely on when it is resumed at a site, and
what it promises about the atomic part that brought it to its next site. -/

/-- What holds on resumption at a site, and which steps from a site and state
to the next site and state are allowed. -/
structure Contract (L : Type u) (S : Type v) where
  assume : L → S → Prop
  moves : L → S → L → S → Prop

variable {L : Type u} {S : Type v} {α β : Type w}

namespace Contract

/-- The program keeps the contract when its current atomic part started at
site `site` in state `start` and has reached `state`; `post` holds of that site
and start, the result, and the state in which the program ends. -/
def Keeps (contract : Contract L S) :
    Proc L S α → (L → S → α → S → Prop) → L → S → S → Prop
  | .pure value, post, site, start, state => post site start value state
  | .act update next, post, site, start, state =>
    contract.Keeps (next state) post site start (update state)
  | .await next ready rest, post, site, start, state => contract.moves site start next state ∧
    ∀ later, ready later = true → contract.assume next later →
      contract.Keeps rest post next later later

variable {contract : Contract L S} {post other : L → S → α → S → Prop} {site : L} {start state : S}

theorem keeps_mono {program : Proc L S α}
    (kept : contract.Keeps program post site start state)
    (weaker : ∀ site start value state, post site start value state → other site start value state) :
    contract.Keeps program other site start state := by
  induction program generalizing site start state with
  | pure value => exact weaker _ _ _ _ kept
  | act update next ih => exact ih state kept
  | await next ready rest ih =>
    exact ⟨kept.1, fun later isReady assumed => ih (kept.2 later isReady assumed)⟩

/-- A sequence keeps the contract when its first part does and establishes
what its second part needs. -/
@[simp] theorem keeps_bind {program : Proc L S α} {rest : α → Proc L S β}
    {after : L → S → β → S → Prop} :
    contract.Keeps (program >>= rest) after site start state ↔
      contract.Keeps program
        (fun site start value state => contract.Keeps (rest value) after site start state)
        site start state := by
  change contract.Keeps (program.bind rest) after site start state ↔ _
  induction program generalizing site start state with
  | pure value => exact Iff.rfl
  | act update next ih => exact ih state
  | await next ready rest' ih =>
    exact and_congr Iff.rfl (forall_congr' fun later => imp_congr Iff.rfl
      (imp_congr Iff.rfl ih))

/-- Run alone, a program is resumed in the state in which it suspended; where
the moves of a contract grant what it assumes, the result is as promised. -/
theorem keeps_solo {program : Proc L S α} {value : α} {final : S}
    (resumes : ∀ {site start next state}, contract.moves site start next state →
      contract.assume next state)
    (kept : contract.Keeps program post site start state)
    (ran : program.solo state = some (value, final)) : ∃ site start, post site start value final := by
  induction program generalizing site start state with
  | pure result => cases ran; exact ⟨_, _, kept⟩
  | act update next ih => exact ih state kept ran
  | await next ready rest ih =>
    unfold Proc.solo at ran
    split at ran
    · rename_i isReady
      exact ih (kept.2 state isReady (resumes kept.1)) ran
    · cases ran

/-- A contract that allows every move is kept by every program. -/
theorem keeps_always {program : Proc L S α} (moves : ∀ site start next state, contract.moves site start next state)
    (ends : ∀ site start value state, post site start value state) :
    contract.Keeps program post site start state := by
  induction program generalizing site start state with
  | pure value => exact ends site start value state
  | act update next ih => exact ih state
  | await next ready rest ih => exact ⟨moves site start next state, fun later _ _ => ih⟩

@[simp] theorem keeps_pure {value : α} :
    contract.Keeps (pure value) post site start state ↔ post site start value state := Iff.rfl

@[simp] theorem keeps_get {post : L → S → S → S → Prop} :
    contract.Keeps Proc.get post site start state ↔ post site start state state := Iff.rfl

@[simp] theorem keeps_modify {update : S → S} {post : L → S → Unit → S → Prop} :
    contract.Keeps (Proc.modify update) post site start state ↔
      post site start () (update state) := Iff.rfl

@[simp] theorem keeps_modifyGet {update : S → α × S} :
    contract.Keeps (Proc.modifyGet update) post site start state ↔
      post site start (update state).1 (update state).2 := Iff.rfl

@[simp] theorem keeps_awaitUntil {next : L} {ready : S → Bool} {post : L → S → Unit → S → Prop} :
    contract.Keeps (Proc.awaitUntil next ready) post site start state ↔
      contract.moves site start next state ∧
        ∀ later, ready later = true → contract.assume next later → post next later () later :=
  Iff.rfl

@[simp] theorem keeps_yield {next : L} {post : L → S → Unit → S → Prop} :
    contract.Keeps (Proc.yield next) post site start state ↔
      contract.moves site start next state ∧
        ∀ later, contract.assume next later → post next later () later := by
  simp [Proc.yield]

@[simp] theorem keeps_embed_get {M : Type u'} {R : Type v'} {contract : Contract M R} {place : L → M}
    {part : R → S} {put : R → S → R} {post : M → R → S → R → Prop} {site : M} {start whole : R} :
    contract.Keeps ((Proc.get : Proc L S S).embed place part put) post site start whole ↔
      post site start (part whole) (put whole (part whole)) := Iff.rfl

/-- An embedded coroutine keeps what its part cannot touch, where it survives its
sites. -/
theorem keeps_embed {M : Type u'} {R : Type v'} {contract : Contract M R} {place : L → M} {part : R → S}
    {put : R → S → R} {holds : M → R → R → Prop}
    (untouched : ∀ site start whole state, holds site start whole → holds site start (put whole state))
    (survives : ∀ next site start whole, holds site start whole → contract.moves site start (place next) whole ∧
      ∀ later, contract.assume (place next) later → holds (place next) later later)
    {program : Proc L S α} {site : M} {start whole : R} (now : holds site start whole) :
    contract.Keeps (program.embed place part put) (fun site start _ whole => holds site start whole)
      site start whole := by
  induction program generalizing site start whole with
  | pure value => exact now
  | act update next ih => exact ih _ (untouched _ _ _ _ now)
  | await next ready rest ih =>
    obtain ⟨allowed, resumes⟩ := survives next site start whole now
    exact ⟨allowed, fun later _ assumed => ih (resumes later assumed)⟩

end Contract
end SFrameRatchet.Coroutine
