import SFrameRatchet.Throwing

/-! Two coroutines run alone side by side. Their runs are compared part by part:
a rule for each construct passes a relation between the two states, and between
the two outcomes, on to the next part. One construct on one side alone is passed
by computing it. -/
namespace SFrameRatchet.SideBySide
open Coroutine Throwing

variable {L M : Type u} {S T E F α β γ δ : Type}

/-- From two states, either both programs end, related as stated, or neither does. -/
def Lockstep (program : Async L S E α) (other : Async M T F β)
    (post : Except E α → S → Except F β → T → Prop) (state : S) (state' : T) : Prop :=
  match alone program state, alone other state' with
  | some (outcome, last), some (outcome', last') => post outcome last outcome' last'
  | none, none => True
  | _, _ => False

/-- Both programs end with the same outcome in related states, or neither ends. -/
def InStep (related : S → T → Prop) (program : Async L S E α) (other : Async M T E α) (state : S) (state' : T) :
    Prop :=
  Lockstep program other (fun outcome last outcome' last' => outcome' = outcome ∧ related last last') state state'

section Rules
variable {program : Async L S E α} {other : Async M T F β} {post weaker : Except E α → S → Except F β → T → Prop}
  {state : S} {state' : T}

theorem lockstep_mono (both : Lockstep program other post state state')
    (implies : ∀ outcome last outcome' last', post outcome last outcome' last' → weaker outcome last outcome' last') :
    Lockstep program other weaker state state' := by
  unfold Lockstep at both ⊢
  split
  · rename_i ran ran'
    rw [ran, ran'] at both
    exact implies _ _ _ _ both
  · trivial
  · rename_i apart apart'
    split at both
    · rename_i ran ran'
      exact apart _ _ _ _ ran ran'
    · rename_i ran ran'
      exact apart' ran ran'
    · exact both

/-- Sequences are related when their first parts lead to related second parts. -/
theorem lockstep_bind {rest : α → Async L S E γ} {rest' : β → Async M T F δ}
    {after : Except E γ → S → Except F δ → T → Prop}
    (first : Lockstep program other (fun outcome last outcome' last' =>
      match outcome, outcome' with
      | .ok value, .ok value' => Lockstep (rest value) (rest' value') after last last'
      | .error error, .error error' => after (.error error) last (.error error') last'
      | _, _ => False) state state') :
    Lockstep (program >>= rest) (other >>= rest') after state state' := by
  unfold Lockstep at first
  unfold Lockstep
  rw [alone_bind, alone_bind]
  rcases ran : alone program state with _ | ⟨outcome, last⟩ <;>
    rcases ran' : alone other state' with _ | ⟨outcome', last'⟩ <;> simp only [ran, ran'] at first
  · trivial
  · cases outcome <;> cases outcome' <;> first
      | exact first.elim
      | simpa only [Option.bind_some] using first

theorem lockstep_tryCatch {handler : E → Async L S E α} {handler' : F → Async M T F β}
    (body : Lockstep program other (fun outcome last outcome' last' =>
      match outcome, outcome' with
      | .ok value, .ok value' => post (.ok value) last (.ok value') last'
      | .error error, .error error' => Lockstep (handler error) (handler' error') post last last'
      | _, _ => False) state state') :
    Lockstep (tryCatch program handler) (tryCatch other handler') post state state' := by
  unfold Lockstep at body
  unfold Lockstep
  rw [alone_tryCatch, alone_tryCatch]
  rcases ran : alone program state with _ | ⟨outcome, last⟩ <;>
    rcases ran' : alone other state' with _ | ⟨outcome', last'⟩ <;> simp only [ran, ran'] at body
  · trivial
  · cases outcome <;> cases outcome' <;> first
      | exact body.elim
      | simpa only [Option.bind_some] using body

/-- What one side does alone may be computed. -/
theorem lockstep_compute {M' : Type u} {T' F' β' : Type} {computed : Async M' T' F' β'} {start : T'}
    {post : Except E α → S → Except F β → T → Prop} (outcome : Except F' β' → Except F β) (last : T' → T)
    (same : alone other state' = (alone computed start).map fun result => (outcome result.1, last result.2))
    (both : Lockstep program computed (fun value here value' there => post value here (outcome value') (last there))
      state start) : Lockstep program other post state state' := by
  unfold Lockstep at both ⊢
  rw [same]
  rcases ran : alone program state with _ | ⟨value, here⟩ <;>
    rcases ran' : alone computed start with _ | ⟨value', there⟩ <;> simp only [ran, ran'] at both
  · trivial
  · exact both

end Rules

section InStep
variable {related : S → T → Prop} {state : S} {state' : T}

theorem inStep_mono {weaker : S → T → Prop} {program : Async L S E α} {other : Async M T E α}
    (both : InStep related program other state state')
    (implies : ∀ last last', related last last' → weaker last last') :
    InStep weaker program other state state' := by
  apply lockstep_mono both
  rintro outcome last outcome' last' ⟨same, now⟩
  exact ⟨same, implies last last' now⟩

theorem inStep_pure (now : related state state') (value : α) :
    InStep related (Pure.pure value : Async L S E α) (Pure.pure value : Async M T E α) state state' :=
  And.intro rfl now

theorem inStep_throw (now : related state state') (error : E) :
    InStep related (throw error : Async L S E α) (throw error : Async M T E α) state state' := And.intro rfl now

theorem inStep_settle (now : related state state') (outcome : Except E α) :
    InStep related (settle outcome : Async L S E α) (settle outcome : Async M T E α) state state' := And.intro rfl now

theorem inStep_update {change : S → S} {change' : T → T} (changed : related (change state) (change' state')) :
    InStep related (update change : Async L S E Unit) (update change' : Async M T E Unit) state state' :=
  And.intro rfl changed

theorem inStep_pause (now : related state state') (site : L) (site' : M) :
    InStep related (pause site : Async L S E Unit) (pause site' : Async M T E Unit) state state' := And.intro rfl now

theorem inStep_pauseUntil (now : related state state') (site : L) (site' : M) {ready : S → Bool} {ready' : T → Bool}
    (same : ready' state' = ready state) :
    InStep related (pauseUntil site ready : Async L S E Unit) (pauseUntil site' ready' : Async M T E Unit)
      state state' := by
  unfold InStep Lockstep
  rw [alone_pauseUntil, alone_pauseUntil, same]
  cases ready state
  · trivial
  · exact ⟨rfl, now⟩

theorem inStep_read {rest : S → Async L S E α} {rest' : T → Async M T E α}
    (next : InStep related (rest state) (rest' state') state state') :
    InStep related (read >>= rest) (read >>= rest') state state' := by
  simpa only [InStep, Lockstep, alone_bind, alone_read, Option.bind_some] using next

theorem inStep_bind {program : Async L S E α} {other : Async M T E α} {rest : α → Async L S E β}
    {rest' : α → Async M T E β} (first : InStep related program other state state')
    (next : ∀ value last last', related last last' → InStep related (rest value) (rest' value) last last') :
    InStep related (program >>= rest) (other >>= rest') state state' := by
  apply lockstep_bind
  apply lockstep_mono first
  rintro _ last outcome last' ⟨rfl, now⟩
  cases outcome with
  | ok value => exact next value last last' now
  | error error => exact And.intro rfl now

theorem inStep_attempt {program : Async L S E α} {other : Async M T E α} {rest : Except E α → Async L S E β}
    {rest' : Except E α → Async M T E β} (first : InStep related program other state state')
    (next : ∀ outcome last last', related last last' → InStep related (rest outcome) (rest' outcome) last last') :
    InStep related (attempt program >>= rest) (attempt other >>= rest') state state' := by
  unfold InStep Lockstep at first
  unfold InStep Lockstep
  rw [alone_bind, alone_bind, alone_attempt, alone_attempt]
  rcases ran : alone program state with _ | ⟨outcome, last⟩ <;>
    rcases ran' : alone other state' with _ | ⟨outcome', last'⟩ <;> simp only [ran, ran'] at first
  · trivial
  · obtain ⟨rfl, now⟩ := first
    exact next outcome' last last' now

theorem inStep_tryCatch {program : Async L S E α} {other : Async M T E α} {handler : E → Async L S E α}
    {handler' : E → Async M T E α} (body : InStep related program other state state')
    (handles : ∀ error last last', related last last' → InStep related (handler error) (handler' error) last last') :
    InStep related (tryCatch program handler) (tryCatch other handler') state state' := by
  apply lockstep_tryCatch
  apply lockstep_mono body
  rintro _ last outcome last' ⟨rfl, now⟩
  cases outcome with
  | ok value => exact And.intro rfl now
  | error error => exact handles error last last' now

/-- The outcomes of both runs are one. -/
theorem inStep_outcome {program : Async L S E α} {other : Async M T E α}
    (both : InStep related program other state state') :
    (alone other state').map Prod.fst = (alone program state).map Prod.fst := by
  unfold InStep Lockstep at both
  rcases ran : alone program state with _ | ⟨outcome, last⟩ <;>
    rcases ran' : alone other state' with _ | ⟨outcome', last'⟩ <;> simp only [ran, ran'] at both
  · rfl
  · obtain ⟨rfl, -⟩ := both
    rfl

end InStep
end SFrameRatchet.SideBySide
