import SFrameRatchet.Interleaving
import SFrameRatchet.Throwing

/-! Changes one by one. A turn makes any number of changes to the shared state before
it suspends; a reading that follows them all says what every turn of a call does on its
way, and not only from where to where it leads. -/
namespace SFrameRatchet.Tracing
open Coroutine Interleaving Throwing

variable {ι : Type t} {L : Type u} {S : Type} {E α β : Type}

/-! ## Changes -/

/-- The changes in front of the next suspension, each with the state before and after it. -/
def changes {α : Type w} : Proc L S α → S → List (S × S)
  | .pure _, _ => []
  | .act update next, state => (state, update state) :: changes (next state) (update state)
  | .await .., _ => []

/-! ## Readings of changes -/

/-- A reading that is kept at every suspension and at the end, of the state a turn began
in, the changes it has made and the state it has reached. -/
def Traces {α : Type w} (holds : S → List (S × S) → S → Prop) : Proc L S α → S → List (S × S) → S → Prop
  | .pure _, start, past, state => holds start past state
  | .act update next, start, past, state =>
    Traces holds (next state) start (past ++ [(state, update state)]) (update state)
  | .await _ ready rest, start, past, state => holds start past state ∧
    ∀ later, ready later = true → Traces holds rest later [] later

variable {holds : S → List (S × S) → S → Prop} {start state : S} {past : List (S × S)}

theorem traces_bind {α β : Type w} {program : Proc L S α} {rest : α → Proc L S β}
    (first : Traces holds program start past state)
    (second : ∀ value start past state, holds start past state → Traces holds (rest value) start past state) :
    Traces holds (program >>= rest) start past state := by
  change Traces holds (program.bind rest) start past state
  induction program generalizing start past state with
  | pure value => exact second value start past state first
  | act update next ih => exact ih state first
  | await site ready next ih => exact ⟨first.1, fun later isReady => ih (first.2 later isReady)⟩

/-- A reading that says nothing is kept by every program. -/
theorem traces_always {α : Type w} {program : Proc L S α} (always : ∀ start past state, holds start past state) :
    Traces holds program start past state := by
  induction program generalizing start past state with
  | pure value => exact always start past state
  | act update next ih => exact ih state
  | await site ready rest ih => exact ⟨always start past state, fun _ _ => ih⟩

/-- A suspended program keeps the reading when it is resumed. -/
def Waiting {α : Type w} (holds : S → List (S × S) → S → Prop) : Proc L S α → Prop
  | .await _ ready rest => ∀ later, ready later = true → Traces holds rest later [] later
  | _ => True

/-- The atomic part of a program keeps the reading, and so does what is left of it. -/
theorem traces_advance {α : Type w} {program : Proc L S α} (kept : Traces holds program start past state) :
    holds start (past ++ changes program state) (program.advance state).1 ∧
      Waiting holds (program.advance state).2 := by
  induction program generalizing past state with
  | pure value =>
    rw [changes, List.append_nil]
    exact ⟨kept, trivial⟩
  | act update next ih =>
    have onward := ih state kept
    rwa [List.append_assoc] at onward
  | await site ready rest ih =>
    rw [changes, List.append_nil]
    exact kept

/-! ## Throwing coroutines -/

/-- The program keeps the reading, whatever it returns or throws. -/
def Tracks (holds : S → List (S × S) → S → Prop) (program : Async L S E α) (start : S)
    (past : List (S × S)) (state : S) :
    Prop :=
  Traces holds program.run start past state

section Rules

theorem tracks_pure {value : α} (now : holds start past state) :
    Tracks holds (pure value : Async L S E α) start past state := now

theorem tracks_throw {error : E} (now : holds start past state) :
    Tracks holds (throw error : Async L S E α) start past state := now

theorem tracks_bind {program : Async L S E α} {rest : α → Async L S E β} (first : Tracks holds program start past state)
    (second : ∀ value start past state, holds start past state → Tracks holds (rest value) start past state) :
    Tracks holds (program >>= rest) start past state := by
  apply traces_bind first
  intro outcome start past state now
  cases outcome with
  | ok value => exact second value start past state now
  | error error => exact now

theorem tracks_tryCatch {program : Async L S E α} {handler : E → Async L S E α}
    (first : Tracks holds program start past state)
    (second : ∀ error start past state, holds start past state → Tracks holds (handler error) start past state) :
    Tracks holds (tryCatch program handler) start past state := by
  apply traces_bind first
  intro outcome start past state now
  cases outcome with
  | ok value => exact now
  | error error => exact second error start past state now

theorem tracks_attempt {program : Async L S E α} (first : Tracks holds program start past state) :
    Tracks holds (attempt program) start past state :=
  traces_bind first fun _ _ _ _ now => now

theorem tracks_read {rest : S → Async L S E α}
    (next : Tracks holds (rest state) start (past ++ [(state, state)]) state) :
    Tracks holds (read >>= rest) start past state := next

/-- What comes after a change may go by the state that it has made. -/
theorem tracks_onward {change : S → S} {rest : Unit → Async L S E α}
    (next : Tracks holds (rest ()) start (past ++ [(state, change state)]) (change state)) :
    Tracks holds (update change >>= rest) start past state := next

theorem tracks_update {change : S → S} (now : holds start (past ++ [(state, change state)]) (change state)) :
    Tracks holds (update change : Async L S E Unit) start past state := now

theorem tracks_settle {outcome : Except E α} (now : holds start past state) :
    Tracks holds (settle outcome : Async L S E α) start past state := now

/-- What comes after something has been settled knows what it is. -/
theorem tracks_settled {outcome : Except E α} {rest : α → Async L S E β} (now : holds start past state)
    (next : ∀ value, outcome = .ok value → Tracks holds (rest value) start past state) :
    Tracks holds (settle outcome >>= rest) start past state := by
  cases outcome with
  | ok value => exact next value rfl
  | error error => exact now

theorem tracks_pauseUntil {site : L} {ready : S → Bool} (fresh : ∀ later, holds later [] later)
    (now : holds start past state) : Tracks holds (pauseUntil site ready : Async L S E Unit) start past state :=
  ⟨now, fun later _ => fresh later⟩

theorem tracks_pause {site : L} (fresh : ∀ later, holds later [] later) (now : holds start past state) :
    Tracks holds (pause site : Async L S E Unit) start past state :=
  tracks_pauseUntil fresh now

end Rules

/-! ## Turns and runs -/

section Runs
variable {α : Type w} [DecidableEq ι] {γ : Type x}

/-- The changes that the next turn of a call makes. -/
def turnChanges (pool : Pool ι L S α) (call : ι) : List (S × S) :=
  match pool.calls call with
  | .await _ _ rest => changes rest pool.shared
  | _ => []

/-- A run whose turns pass a gate, with an account of each of them. -/
inductive Logged (log : Pool ι L S α → ι → Pool ι L S α → List γ) (gate : Pool ι L S α → ι → Pool ι L S α → Prop)
    (first : Pool ι L S α) : List γ → Pool ι L S α → Prop where
  | start : Logged log gate first [] first
  | turn {entries : List γ} {before after : Pool ι L S α} {call : ι} (earlier : Logged log gate first entries before)
      (taken : before.turn call = some after) (passes : gate before call after) :
      Logged log gate first (entries ++ log before call after) after

/-- A run with all the changes it makes. -/
abbrev Traced (gate : Pool ι L S α → ι → Pool ι L S α → Prop) (first : Pool ι L S α) :
    List (S × S) → Pool ι L S α → Prop :=
  Logged (fun before call _ => turnChanges before call) gate first

variable {gate : Pool ι L S α → ι → Pool ι L S α → Prop} {first before after last : Pool ι L S α} {call : ι}

theorem runs_of_logged {log : Pool ι L S α → ι → Pool ι L S α → List γ} {entries : List γ}
    (run : Logged log gate first entries last) : Runs gate first last := by
  induction run with
  | start => exact .start
  | turn _ taken passes ih => exact ih.turn taken passes

/-- Every run has an account of its turns. -/
theorem logged_of_runs (log : Pool ι L S α → ι → Pool ι L S α → List γ) (runs : Runs gate first last) :
    ∃ entries, Logged log gate first entries last := by
  induction runs with
  | start => exact ⟨[], .start⟩
  | turn _ taken passes ih =>
    obtain ⟨entries, earlier⟩ := ih
    exact ⟨_, earlier.turn taken passes⟩

/-- The pool after the turns of one schedule, with the account of them. -/
def followLogged (log : Pool ι L S α → ι → Pool ι L S α → List γ) (pool : Pool ι L S α) :
    List ι → Option (List γ × Pool ι L S α)
  | [] => some ([], pool)
  | call :: rest => (pool.turn call).bind fun next =>
    (followLogged log next rest).map fun onward => (log pool call next ++ onward.1, onward.2)

theorem followLogged_logged {log : Pool ι L S α → ι → Pool ι L S α → List γ} {schedule : List ι} {entries : List γ}
    (followed : followLogged log first schedule = some (entries, last)) : Logged log anyTurn first entries last := by
  suffices extend : ∀ past middle entries, Logged log anyTurn first past middle →
      followLogged log middle schedule = some (entries, last) → Logged log anyTurn first (past ++ entries) last from
    extend [] first entries .start followed
  clear followed
  induction schedule with
  | nil =>
    intro past middle entries reached same
    cases same
    rwa [List.append_nil]
  | cons call rest ih =>
    intro past middle entries reached followed
    obtain ⟨next, taken, onward⟩ := Option.bind_eq_some_iff.mp followed
    obtain ⟨⟨later, pool⟩, further, same⟩ := Option.map_eq_some_iff.mp onward
    cases same
    rw [← List.append_assoc]
    exact ih _ next later (reached.turn taken trivial) further

variable {holds : ι → S → List (S × S) → S → Prop}

theorem turn_traces (waiting : ∀ call, Waiting (holds call) (before.calls call))
    (taken : before.turn call = some after) :
    holds call before.shared (turnChanges before call) after.shared ∧
      ∀ call, Waiting (holds call) (after.calls call) := by
  have own := waiting call
  unfold turnChanges
  unfold Pool.turn at taken
  split at taken
  · rename_i site ready rest waits
    split at taken
    · rename_i isReady
      obtain rfl := Option.some.inj taken
      rw [waits] at own ⊢
      obtain ⟨made, left⟩ := traces_advance (own before.shared isReady)
      refine ⟨made, fun other => ?_⟩
      dsimp only
      by_cases same : other = call
      · subst same
        rwa [Function.update_self]
      · rw [Function.update_of_ne same]
        exact waiting other
    · cases taken
  · cases taken

/-- **Every turn of a run** makes its changes as its call's reading has it. -/
theorem runs_traces {site : L} {shared : S} {programs : ι → Proc L S α}
    (traces : ∀ call state, Traces (holds call) (programs call) state [] state)
    (runs : Runs gate (Pool.launch site shared programs) before) (taken : before.turn call = some after) :
    holds call before.shared (turnChanges before call) after.shared := by
  have waiting : ∀ call, Waiting (holds call) (before.calls call) := by
    induction runs generalizing call after with
    | start => exact fun call later _ => traces call later
    | turn _ earlier _ ih => exact (turn_traces (ih earlier) earlier).2
  exact (turn_traces waiting taken).1

end Runs
end SFrameRatchet.Tracing
