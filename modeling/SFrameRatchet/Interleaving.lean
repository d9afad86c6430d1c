import SFrameRatchet.Coroutine

/-! Interleavings of any number of coroutines over one shared state. A turn
resumes one suspended call and runs it to its next suspension; a run is any
sequence of turns. The invariant rule lifts a contract kept by every call to a
property of every state and every result a run can reach. -/
namespace SFrameRatchet.Interleaving
open Coroutine

/-- The shared state and what is left to run of each call. -/
structure Pool (ι : Type t) (L : Type u) (S : Type v) (α : Type w) where
  shared : S
  calls : ι → Proc L S α

variable {ι : Type t} {L : Type u} {S : Type v} {α : Type w}

/-- Every call waits for its first turn at the same site. -/
def Pool.launch (site : L) (shared : S) (programs : ι → Proc L S α) : Pool ι L S α :=
  ⟨shared, fun call => .await site (fun _ => true) (programs call)⟩

def Pool.statuses (pool : Pool ι L S α) : ι → Status L α := fun call => (pool.calls call).status

variable [DecidableEq ι]

/-- Resume one call; there is no turn for a call that has finished or whose
suspension is not ready. -/
def Pool.turn (pool : Pool ι L S α) (call : ι) : Option (Pool ι L S α) :=
  match pool.calls call with
  | .await _ ready rest =>
    if ready pool.shared then
      some ⟨(rest.advance pool.shared).1,
        Function.update pool.calls call (rest.advance pool.shared).2⟩
    else none
  | _ => none

/-- A turn leaves the other calls where they are. -/
theorem turn_others {before after : Pool ι L S α} {call other : ι} (taken : before.turn call = some after)
    (different : other ≠ call) : after.calls other = before.calls other := by
  unfold Pool.turn at taken
  split at taken
  · split at taken
    · obtain rfl := Option.some.inj taken
      exact Function.update_of_ne different _ _
    · cases taken
  · cases taken

theorem turn_statuses {before after : Pool ι L S α} {call : ι} (taken : before.turn call = some after) :
    after.statuses = Function.update before.statuses call (after.statuses call) := by
  funext other
  by_cases same : other = call
  · subst same
    rw [Function.update_self]
  · rw [Function.update_of_ne same, Pool.statuses, Pool.statuses, turn_others taken same]

/-- The pools reached by runs all of whose turns pass the gate. -/
inductive Runs (gate : Pool ι L S α → ι → Pool ι L S α → Prop) (first : Pool ι L S α) :
    Pool ι L S α → Prop where
  | start : Runs gate first first
  | turn (earlier : Runs gate first before) (taken : before.turn call = some after)
      (passes : gate before call after) : Runs gate first after

theorem Runs.trans {gate : Pool ι L S α → ι → Pool ι L S α → Prop} {first middle last : Pool ι L S α}
    (earlier : Runs gate first middle) (later : Runs gate middle last) : Runs gate first last := by
  induction later with
  | start => exact earlier
  | turn _ taken passes ih => exact ih.turn taken passes

/-- A run may pass a wider gate as well. -/
theorem Runs.mono {gate wider : Pool ι L S α → ι → Pool ι L S α → Prop} {first last : Pool ι L S α}
    (runs : Runs gate first last) (weaker : ∀ before call after, gate before call after → wider before call after) :
    Runs wider first last := by
  induction runs with
  | start => exact .start
  | turn _ taken passes ih => exact ih.turn taken (weaker _ _ _ passes)

/-- The gate that every turn passes: all interleavings. -/
def anyTurn : Pool ι L S α → ι → Pool ι L S α → Prop := fun _ _ _ => True

instance (before : Pool ι L S α) (call : ι) (after : Pool ι L S α) :
    Decidable (anyTurn before call after) := isTrue trivial

/-- A run in any interleaving, with all that was seen in the states between its turns. -/
inductive Recorded {β : Type x} (observe : S → List β) (first : Pool ι L S α) : List β → Pool ι L S α → Prop where
  | start : Recorded observe first (observe first.shared) first
  | turn (earlier : Recorded observe first record before) (taken : before.turn call = some after) :
      Recorded observe first (record ++ observe after.shared) after

/-- Every run has a record. -/
theorem runs_recorded {β : Type x} {gate : Pool ι L S α → ι → Pool ι L S α → Prop} {first last : Pool ι L S α}
    (observe : S → List β) (runs : Runs gate first last) : ∃ record, Recorded observe first record last := by
  induction runs with
  | start => exact ⟨_, .start⟩
  | turn _ taken _ ih =>
    obtain ⟨record, recorded⟩ := ih
    exact ⟨_, recorded.turn taken⟩

/-- The gate that a turn passes when the site it resumes at and the shared
state at that moment allow it. -/
def whereAllowed (allowed : L → S → Prop) : Pool ι L S α → ι → Pool ι L S α → Prop :=
  fun before call _ => ∀ site, before.statuses call = .suspended site → allowed site before.shared

instance (allowed : L → S → Prop) [∀ site shared, Decidable (allowed site shared)]
    (before : Pool ι L S α) (call : ι) (after : Pool ι L S α) :
    Decidable (whereAllowed allowed before call after) :=
  match held : before.statuses call with
  | .suspended site => decidable_of_iff (allowed site before.shared)
      ⟨fun passes other same => by cases held.symm.trans same; exact passes,
        fun passes => passes site held⟩
  | .running => isTrue fun other same => by cases held.symm.trans same
  | .finished _ => isTrue fun other same => by cases held.symm.trans same

/-- The pool after the turns of one schedule, each of which must pass a gate. -/
def Pool.followPassing (pool : Pool ι L S α) (gate : Pool ι L S α → ι → Pool ι L S α → Prop)
    [∀ before call after, Decidable (gate before call after)] : List ι → Option (Pool ι L S α)
  | [] => some pool
  | call :: rest => (pool.turn call).bind fun next =>
    if gate pool call next then next.followPassing gate rest else none

theorem followPassing_runs {first last : Pool ι L S α}
    {gate : Pool ι L S α → ι → Pool ι L S α → Prop}
    [∀ before call after, Decidable (gate before call after)] {schedule : List ι}
    (followed : first.followPassing gate schedule = some last) : Runs gate first last := by
  suffices extend : ∀ middle, Runs gate first middle →
      middle.followPassing gate schedule = some last → Runs gate first last from
    extend first .start followed
  clear followed
  induction schedule with
  | nil =>
    intro middle reached same
    cases same
    exact reached
  | cons call rest ih =>
    intro middle reached rest_followed
    obtain ⟨next, taken, onward⟩ := Option.bind_eq_some_iff.mp rest_followed
    split at onward
    · rename_i passes
      exact ih next (reached.turn taken passes) onward
    · cases onward

/-- A call may run to its end with no other one in between. -/
theorem solo_runs {shared final : S} {calls : ι → Proc L S α} {call : ι} {program : Proc L S α} {value : α}
    (ran : program.solo shared = some (value, final)) :
    Runs anyTurn ⟨(program.advance shared).1, Function.update calls call (program.advance shared).2⟩
      ⟨final, Function.update calls call (.pure value)⟩ := by
  induction program generalizing shared with
  | pure result =>
    cases ran
    exact .start
  | act update next ih => exact ih shared ran
  | await site ready next ih =>
    unfold Proc.solo at ran
    split at ran
    · rename_i isReady
      have taken : Pool.turn ⟨shared, Function.update calls call (.await site ready next)⟩ call =
          some ⟨(next.advance shared).1, Function.update calls call (next.advance shared).2⟩ := by
        simp [Pool.turn, isReady]
      exact (Runs.start.turn taken trivial).trans (ih ran)
    · cases ran

/-- A waiting call keeps its contract from whatever state it is resumed in. -/
def Follows (contract : Contract L S) (finish : L → S → α → S → Prop) : Proc L S α → Prop
  | .pure _ => True
  | .act .. => False
  | .await site ready rest => ∀ state, ready state = true → contract.assume site state →
    contract.Keeps rest finish site state state

/-- The atomic part that led from a site and state to a status and state. -/
def Moved (contract : Contract L S) (finish : L → S → α → S → Prop) (site : L) (start : S) :
    Status L α → S → Prop
  | .running, _ => False
  | .suspended next, state => contract.moves site start next state
  | .finished value, state => finish site start value state

section Rules
variable {contract : Contract L S} {finish : L → S → α → S → Prop}

/-- The atomic part of a program that keeps its contract makes an allowed
move and leaves a program that keeps it as well. -/
theorem keeps_advance {program : Proc L S α} {site : L} {start state : S}
    (kept : contract.Keeps program finish site start state) :
    Moved contract finish site start (program.advance state).2.status (program.advance state).1 ∧
      Follows contract finish (program.advance state).2 := by
  induction program generalizing state with
  | pure value => exact ⟨kept, trivial⟩
  | act update next ih => exact ih state kept
  | await next ready rest ih => exact kept

end Rules

section Invariant
variable {contract : ι → Contract L S} {finish : ι → L → S → α → S → Prop}

omit [DecidableEq ι] in
theorem launch_follows {programs : ι → Proc L S α} {site : L} {shared : S}
    (kept : ∀ call state, (contract call).assume site state →
      (contract call).Keeps (programs call) (finish call) site state state) (call : ι) :
    Follows (contract call) (finish call) ((Pool.launch site shared programs).calls call) :=
  fun state _ assumed => kept call state assumed

/-- One turn of a call that follows its contract: the site it left, the move
it made, and the other calls as they were. -/
theorem turn_moves {before after : Pool ι L S α} {call : ι}
    (follows : Follows (contract call) (finish call) (before.calls call))
    (assumed : ∀ site, before.statuses call = .suspended site →
      (contract call).assume site before.shared)
    (taken : before.turn call = some after) :
    ∃ site, before.statuses call = .suspended site ∧
      Moved (contract call) (finish call) site before.shared (after.statuses call) after.shared ∧
      after.statuses = Function.update before.statuses call (after.statuses call) ∧
      Follows (contract call) (finish call) (after.calls call) ∧
      ∀ other, other ≠ call → after.calls other = before.calls other := by
  have turned := taken
  unfold Pool.turn at taken
  generalize held : before.calls call = program at follows taken
  cases program with
  | pure value => cases taken
  | act update next => cases taken
  | await site ready rest =>
    have waits : before.statuses call = .suspended site := by simp [Pool.statuses, held, Proc.status]
    by_cases isReady : ready before.shared = true
    · simp only [isReady, ↓reduceIte, Option.some.injEq] at taken
      subst taken
      have kept := keeps_advance (follows before.shared isReady (assumed site waits))
      refine ⟨site, waits, ?_, turn_statuses turned, ?_, fun other different => turn_others turned different⟩
      · simpa [Pool.statuses] using kept.1
      · simpa using kept.2
    · simp [isReady] at taken

section Runs
variable (contract : ι → Contract L S) (finish : ι → L → S → α → S → Prop)
  {first last : Pool ι L S α} {gate : Pool ι L S α → ι → Pool ι L S α → Prop}
  (invariant : S → (ι → Status L α) → Prop)
  (begins : invariant first.shared first.statuses)
  (follows : ∀ call, Follows (contract call) (finish call) (first.calls call))
  (grants : ∀ before call site after, invariant before.shared before.statuses →
    before.statuses call = .suspended site → before.turn call = some after →
    gate before call after → (contract call).assume site before.shared)
  (preserves : ∀ before call site after, invariant before.shared before.statuses →
    before.statuses call = .suspended site → gate before call after →
    (contract call).assume site before.shared →
    Moved (contract call) (finish call) site before.shared (after.statuses call) after.shared →
    invariant after.shared (Function.update before.statuses call (after.statuses call)))

include begins follows grants preserves

/-- Along a run the invariant holds and every call goes on keeping its contract. -/
theorem runs_follow (runs : Runs gate first last) : invariant last.shared last.statuses ∧
    ∀ call, Follows (contract call) (finish call) (last.calls call) := by
  induction runs with
  | start => exact ⟨begins, follows⟩
  | @turn before call after earlier taken passes ih =>
    obtain ⟨holds, following⟩ := ih
    obtain ⟨site, waits, moved, same, follows', others⟩ := turn_moves (following call)
      (fun site waits => grants before call site after holds waits taken passes) taken
    refine ⟨?_, fun other => ?_⟩
    · rw [same]
      exact preserves before call site after holds waits passes
        (grants before call site after holds waits taken passes) moved
    · by_cases equal : other = call
      · subst equal; exact follows'
      · rw [others other equal]; exact following other

/-- **The invariant rule.** A property of the shared state and of what every
call shows of itself holds in every pool a run can reach, when every call
keeps its contract, the invariant grants what a resumed call assumes, and
every allowed move preserves the invariant. -/
theorem runs_invariant (runs : Runs gate first last) : invariant last.shared last.statuses :=
  (runs_follow contract finish invariant begins follows grants preserves runs).1

/-- **The turn rule.** Every turn of such a run makes a move that its call's
contract allows. -/
theorem runs_moved {call : ι} {after : Pool ι L S α} (runs : Runs gate first last)
    (taken : last.turn call = some after) (passes : gate last call after) :
    ∃ site, last.statuses call = .suspended site ∧ invariant last.shared last.statuses ∧
      (contract call).assume site last.shared ∧
      Moved (contract call) (finish call) site last.shared (after.statuses call) after.shared := by
  obtain ⟨holds, following⟩ := runs_follow contract finish invariant begins follows grants preserves runs
  have assumed (site : L) (waits : last.statuses call = .suspended site) :
      (contract call).assume site last.shared := grants last call site after holds waits taken passes
  obtain ⟨site, waits, moved, -⟩ := turn_moves (following call) assumed taken
  exact ⟨site, waits, holds, assumed site waits, moved⟩

end Runs
end Invariant
end SFrameRatchet.Interleaving
