import SFrameRatchet.Interleaving
import SFrameRatchet.Throwing

/-! Contracts with a rely. A coroutine keeps what it has read in local variables
that its sites do not show; it may go on using them after a suspension when the
others leave alone what they were read from. A rely says what the others leave
alone between a suspension at a site and the resumption there; the run rule asks
that every move of the others respects it. -/
namespace SFrameRatchet.RelyGuarantee
open Coroutine Interleaving Throwing

/-- A contract, and how the state at a resumption relates to the state at the
suspension. -/
structure Reliance (L : Type u) (S : Type v) extends Contract L S where
  rely : L → S → S → Prop

variable {ι : Type t} {L : Type u} {S : Type v} {α β : Type w}

/-- The program keeps the contract when every resumption respects the rely. -/
def Relies (reliance : Reliance L S) :
    Proc L S α → (L → S → α → S → Prop) → L → S → S → Prop
  | .pure value, post, site, start, state => post site start value state
  | .act update next, post, site, start, state =>
    Relies reliance (next state) post site start (update state)
  | .await next ready rest, post, site, start, state => reliance.moves site start next state ∧
    ∀ later, ready later = true → reliance.assume next later → reliance.rely next state later →
      Relies reliance rest post next later later

section Rules
variable {reliance : Reliance L S} {post other : L → S → α → S → Prop} {site : L} {start state : S}

theorem relies_mono {program : Proc L S α} (kept : Relies reliance program post site start state)
    (weaker : ∀ site start value state, post site start value state → other site start value state) :
    Relies reliance program other site start state := by
  induction program generalizing site start state with
  | pure value => exact weaker _ _ _ _ kept
  | act update next ih => exact ih state kept
  | await next ready rest ih =>
    exact ⟨kept.1, fun later isReady assumed relied => ih (kept.2 later isReady assumed relied)⟩

/-- A program that needs no rely keeps its contract under any. -/
theorem relies_of_keeps {program : Proc L S α}
    (kept : reliance.toContract.Keeps program post site start state) :
    Relies reliance program post site start state := by
  induction program generalizing site start state with
  | pure value => exact kept
  | act update next ih => exact ih state kept
  | await next ready rest ih =>
    exact ⟨kept.1, fun later isReady assumed _ => ih (kept.2 later isReady assumed)⟩

theorem relies_bind {program : Proc L S α} {rest : α → Proc L S β} {after : L → S → β → S → Prop} :
    Relies reliance (program >>= rest) after site start state ↔
      Relies reliance program (fun site start value state => Relies reliance (rest value) after site start state)
        site start state := by
  change Relies reliance (program.bind rest) after site start state ↔ _
  induction program generalizing site start state with
  | pure value => exact Iff.rfl
  | act update next ih => exact ih state
  | await next ready rest' ih =>
    exact and_congr Iff.rfl (forall_congr' fun later => imp_congr Iff.rfl
      (imp_congr Iff.rfl (imp_congr Iff.rfl ih)))

end Rules

/-! ## Throwing coroutines -/

section Throwing
variable {S E α β : Type} {reliance : Reliance L S} {site : L} {start state : S}

/-- `Meets` under a rely. -/
def Fulfils (reliance : Reliance L S) (program : Async L S E α) (returns : L → S → α → S → Prop)
    (throws : L → S → E → S → Prop) (site : L) (start state : S) : Prop :=
  Relies reliance program.run (fun site start outcome state =>
    match outcome with
    | .ok value => returns site start value state
    | .error error => throws site start error state) site start state

variable {returns other : L → S → α → S → Prop} {throws otherThrows : L → S → E → S → Prop}

theorem fulfils_mono {program : Async L S E α} (kept : Fulfils reliance program returns throws site start state)
    (value : ∀ site start value state, returns site start value state → other site start value state)
    (error : ∀ site start error state, throws site start error state → otherThrows site start error state) :
    Fulfils reliance program other otherThrows site start state := by
  refine relies_mono kept fun site start outcome state held => ?_
  cases outcome with
  | ok result => exact value _ _ _ _ held
  | error failure => exact error _ _ _ _ held

theorem fulfils_of_meets {program : Async L S E α}
    (kept : Meets reliance.toContract program returns throws site start state) :
    Fulfils reliance program returns throws site start state := relies_of_keeps kept

/-- What a program returns and throws, read as one outcome. -/
theorem relies_of_fulfils {program : Async L S E α} {finish : L → S → Except E α → S → Prop}
    (kept : Fulfils reliance program (fun site start value state => finish site start (.ok value) state)
      (fun site start error state => finish site start (.error error) state) site start state) :
    Relies reliance program.run finish site start state := by
  apply relies_mono kept
  intro _ _ outcome _ held
  cases outcome with
  | ok value => exact held
  | error error => exact held

@[simp] theorem fulfils_pure {value : α} :
    Fulfils reliance (Pure.pure value : Async L S E α) returns throws site start state ↔
      returns site start value state := Iff.rfl

@[simp] theorem fulfils_throw {error : E} :
    Fulfils reliance (throw error : Async L S E α) returns throws site start state ↔
      throws site start error state := Iff.rfl

@[simp] theorem fulfils_settle {outcome : Except E α} :
    Fulfils reliance (settle outcome : Async L S E α) returns throws site start state ↔
      match outcome with
      | .ok value => returns site start value state
      | .error error => throws site start error state := Iff.rfl

@[simp] theorem fulfils_read {returns : L → S → S → S → Prop} :
    Fulfils reliance (read : Async L S E S) returns throws site start state ↔
      returns site start state state := Iff.rfl

@[simp] theorem fulfils_update {change : S → S} {returns : L → S → Unit → S → Prop} :
    Fulfils reliance (update change : Async L S E Unit) returns throws site start state ↔
      returns site start () (change state) := Iff.rfl

@[simp] theorem fulfils_pauseUntil {next : L} {ready : S → Bool} {returns : L → S → Unit → S → Prop} :
    Fulfils reliance (pauseUntil next ready : Async L S E Unit) returns throws site start state ↔
      reliance.moves site start next state ∧ ∀ later, ready later = true → reliance.assume next later →
        reliance.rely next state later → returns next later () later := Iff.rfl

@[simp] theorem fulfils_pause {next : L} {returns : L → S → Unit → S → Prop} :
    Fulfils reliance (pause next : Async L S E Unit) returns throws site start state ↔
      reliance.moves site start next state ∧ ∀ later, reliance.assume next later →
        reliance.rely next state later → returns next later () later := by
  change Fulfils reliance (pauseUntil next fun _ => true) returns throws site start state ↔ _
  simp

@[simp] theorem fulfils_bind {program : Async L S E α} {rest : α → Async L S E β} {returns : L → S → β → S → Prop} :
    Fulfils reliance (program >>= rest) returns throws site start state ↔
      Fulfils reliance program
        (fun site start value state => Fulfils reliance (rest value) returns throws site start state)
        throws site start state := by
  change Relies reliance (program.run >>= ExceptT.bindCont rest) _ site start state ↔ _
  rw [relies_bind]
  refine ⟨fun kept => relies_mono kept ?_, fun kept => relies_mono kept ?_⟩ <;>
    intro site start outcome state held <;> cases outcome <;> exact held

@[simp] theorem fulfils_tryCatch {program : Async L S E α} {handler : E → Async L S E α} :
    Fulfils reliance (tryCatch program handler) returns throws site start state ↔
      Fulfils reliance program returns
        (fun site start error state => Fulfils reliance (handler error) returns throws site start state)
        site start state := by
  change Relies reliance (program.run >>= fun outcome => match outcome with
    | .ok value => Pure.pure (Except.ok value)
    | .error error => (handler error).run) _ site start state ↔ _
  rw [relies_bind]
  refine ⟨fun kept => relies_mono kept ?_, fun kept => relies_mono kept ?_⟩ <;>
    intro site start outcome state held <;> cases outcome <;> exact held

@[simp] theorem fulfils_attempt {program : Async L S E α} {returns : L → S → Except E α → S → Prop} :
    Fulfils reliance (attempt program) returns throws site start state ↔
      Fulfils reliance program (fun site start value state => returns site start (.ok value) state)
        (fun site start error state => returns site start (.error error) state) site start state := by
  change Relies reliance (program.run >>= fun outcome => Pure.pure (Except.ok outcome)) _ site start state ↔ _
  rw [relies_bind]
  refine ⟨fun kept => relies_mono kept ?_, fun kept => relies_mono kept ?_⟩ <;>
    intro site start outcome state held <;> cases outcome <;> exact held

/-- A part that needs no rely keeps a reading, and the rest goes on from it. -/
theorem fulfils_after {holds : L → S → S → Prop} {program : Async L S E α} {rest : α → Async L S E β}
    {middle : α → Prop} {returns : L → S → β → S → Prop}
    (first : Yields reliance.toContract holds program middle site start state)
    (second : ∀ site start value state, holds site start state → middle value →
      Fulfils reliance (rest value) returns throws site start state)
    (thrown : ∀ site start error state, holds site start state → throws site start error state) :
    Fulfils reliance (program >>= rest) returns throws site start state :=
  fulfils_bind.mpr (fulfils_mono (fulfils_of_meets first)
    (fun site start value state held => second site start value state held.1 held.2) thrown)

end Throwing

/-! ## Runs -/

/-- A waiting program, left in a state, keeps its contract from every state in
which it may be resumed. -/
def Waits (reliance : Reliance L S) (finish : L → S → α → S → Prop) (left : S) : Proc L S α → Prop
  | .pure _ => True
  | .act .. => False
  | .await site ready rest => ∀ state, ready state = true → reliance.assume site state →
    reliance.rely site left state → Relies reliance rest finish site state state

theorem relies_advance {reliance : Reliance L S} {finish : L → S → α → S → Prop} {program : Proc L S α} {site : L}
    {start state : S} (kept : Relies reliance program finish site start state) :
    Moved reliance.toContract finish site start (program.advance state).2.status (program.advance state).1 ∧
      Waits reliance finish (program.advance state).1 (program.advance state).2 := by
  induction program generalizing state with
  | pure value => exact ⟨kept, trivial⟩
  | act update next ih => exact ih state kept
  | await next ready rest ih => exact kept

section Runs
variable [DecidableEq ι] (reliance : ι → Reliance L S) (finish : ι → L → S → α → S → Prop)
  (invariant : S → (ι → Status L α) → Prop)

/-- The invariant holds, and every call waits with its rely respected since some
state in which it was left. -/
def Relying (pool : Pool ι L S α) : Prop :=
  invariant pool.shared pool.statuses ∧ ∃ left : ι → S, ∀ call,
    Waits (reliance call) (finish call) (left call) (pool.calls call) ∧
      ∀ site, pool.statuses call = .suspended site → (reliance call).rely site (left call) pool.shared

variable {gate : Pool ι L S α → ι → Pool ι L S α → Prop}
  (settled : ∀ call site state, (reliance call).rely site state state)
  (grants : ∀ (before : Pool ι L S α) call site (after : Pool ι L S α), invariant before.shared before.statuses →
    before.statuses call = .suspended site → before.turn call = some after → gate before call after →
    (reliance call).assume site before.shared)
  (respects : ∀ (before : Pool ι L S α) call at_ (after : Pool ι L S α) other site left,
    invariant before.shared before.statuses → before.statuses call = .suspended at_ →
    (reliance call).assume at_ before.shared →
    Moved (reliance call).toContract (finish call) at_ before.shared (after.statuses call) after.shared →
    other ≠ call → before.statuses other = .suspended site → (reliance other).rely site left before.shared →
    (reliance other).rely site left after.shared)
  (preserves : ∀ (before : Pool ι L S α) call site (after : Pool ι L S α),
    invariant before.shared before.statuses → before.statuses call = .suspended site →
    (reliance call).assume site before.shared →
    Moved (reliance call).toContract (finish call) site before.shared (after.statuses call) after.shared →
    invariant after.shared (Function.update before.statuses call (after.statuses call)))

include settled grants respects preserves

/-- One turn of a call that relies on the others. -/
theorem turn_relying {before after : Pool ι L S α} {call : ι} (relying : Relying reliance finish invariant before)
    (taken : before.turn call = some after) (passes : gate before call after) :
    Relying reliance finish invariant after := by
  obtain ⟨holds, left, waiting⟩ := relying
  have turned := taken
  unfold Pool.turn at turned
  generalize held : before.calls call = program at turned
  cases program with
  | pure value => cases turned
  | act update next => cases turned
  | await site ready rest =>
    have waits : before.statuses call = .suspended site := by simp [Pool.statuses, held, Proc.status]
    have assumed := grants before call site after holds waits taken passes
    by_cases isReady : ready before.shared = true
    · simp only [isReady, ↓reduceIte, Option.some.injEq] at turned
      obtain ⟨waited, relied⟩ := waiting call
      rw [held] at waited
      obtain ⟨moved, waitsAgain⟩ := relies_advance (waited before.shared isReady assumed (relied site waits))
      have shared : after.shared = (rest.advance before.shared).1 := by rw [← turned]
      have own : after.calls call = (rest.advance before.shared).2 := by rw [← turned]; simp
      have others (other : ι) (different : other ≠ call) : after.calls other = before.calls other :=
        turn_others taken different
      have status : after.statuses call = (rest.advance before.shared).2.status := by simp [Pool.statuses, own]
      rw [← shared, ← status] at moved
      have statuses : after.statuses = Function.update before.statuses call (after.statuses call) := turn_statuses taken
      refine ⟨?_, Function.update left call after.shared, fun other => ?_⟩
      · rw [statuses]
        exact preserves before call site after holds waits assumed moved
      · by_cases same : other = call
        · subst same
          simp only [Function.update_self]
          refine ⟨?_, fun next _ => settled other next after.shared⟩
          rw [own, shared]
          exact waitsAgain
        · rw [Function.update_of_ne same, others other same]
          refine ⟨(waiting other).1, fun next suspended => ?_⟩
          have early : before.statuses other = .suspended next := by
            rw [statuses, Function.update_of_ne same] at suspended
            exact suspended
          exact respects before call site after other next (left other) holds waits assumed moved same early
            ((waiting other).2 next early)
    · simp [isReady] at turned

/-- **The run rule.** What holds at first, and is preserved by every move that
the relies allow, holds in every pool that a run reaches. -/
theorem runs_relying {first last : Pool ι L S α} (relying : Relying reliance finish invariant first)
    (runs : Runs gate first last) : Relying reliance finish invariant last := by
  induction runs with
  | start => exact relying
  | turn earlier taken passes ih =>
    exact turn_relying reliance finish invariant settled grants respects preserves ih taken passes

omit [DecidableEq ι] grants respects preserves in
/-- Calls that have not begun rely on the state they were launched in. -/
theorem launch_relying {programs : ι → Proc L S α} {site : L} {shared : S}
    (begins : invariant shared (Pool.launch site shared programs).statuses)
    (kept : ∀ call state, (reliance call).assume site state →
      Relies (reliance call) (programs call) (finish call) site state state) :
    Relying reliance finish invariant (Pool.launch site shared programs) := by
  refine ⟨begins, fun _ => shared, fun call => ⟨fun state _ assumed _ => kept call state assumed, ?_⟩⟩
  intro next _
  exact settled call next shared

end Runs
end SFrameRatchet.RelyGuarantee
