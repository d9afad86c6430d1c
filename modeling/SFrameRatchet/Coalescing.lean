import Mathlib.Algebra.Order.Group.Defs
import Mathlib.Data.List.Basic
import Mathlib.Tactic.TypeStar

/-! A coalesced signal. A fault that lasts drops one item after the other; the first
drop of an episode is signalled, a later one when the last signal is a period old,
and a recovery ends the episode. A history is told by its marks alone; the alarm
keeps three numbers, and they are enough for every history to be coalesced. -/
namespace SFrameRatchet.Coalescing

/-- What happens to an alarm: a drop, with its time and the signals posted for it, or
a recovery. -/
inductive Mark (T σ : Type*) where
  | dropped (time : T) (posted : List σ)
  | recovered
  deriving DecidableEq

variable {T σ : Type*}

/-! ## Histories -/

/-- The drops since the last recovery, oldest first. -/
def episode : List (Mark T σ) → List (T × List σ) :=
  List.foldl (fun drops mark => match mark with
    | .dropped time posted => drops ++ [(time, posted)]
    | .recovered => []) []

@[simp] theorem episode_nil : episode ([] : List (Mark T σ)) = [] := rfl

@[simp] theorem episode_dropped (log : List (Mark T σ)) (time : T) (posted : List σ) :
    episode (log ++ [.dropped time posted]) = episode log ++ [(time, posted)] := by
  simp [episode]

@[simp] theorem episode_recovered (log : List (Mark T σ)) : episode (log ++ [.recovered]) = [] := by
  simp [episode]

/-- When an episode has signalled. -/
def signalled (drops : List (T × List σ)) : List T :=
  (drops.filter fun drop => !drop.2.isEmpty).map Prod.fst

theorem signalled_quiet (drops : List (T × List σ)) (now : T) : signalled (drops ++ [(now, [])]) = signalled drops := by
  simp [signalled]

theorem signalled_signal (drops : List (T × List σ)) (now : T) (signal : σ) :
    signalled (drops ++ [(now, [signal])]) = signalled drops ++ [now] := by
  simp [signalled]

/-- When an episode began, for a drop that comes now. -/
def began (drops : List (T × List σ)) (now : T) : T := (drops.head?.map Prod.fst).getD now

/-- The signals of a history. -/
def posts (log : List (Mark T σ)) : List σ :=
  log.flatMap fun mark => match mark with
    | .dropped _ posted => posted
    | .recovered => []

@[simp] theorem posts_nil : posts ([] : List (Mark T σ)) = [] := rfl

@[simp] theorem posts_dropped (log : List (Mark T σ)) (time : T) (posted : List σ) :
    posts (log ++ [.dropped time posted]) = posts log ++ posted := by
  simp [posts]

@[simp] theorem posts_recovered (log : List (Mark T σ)) : posts (log ++ [.recovered]) = posts log := by
  simp [posts]

variable [AddCommGroup T] [LinearOrder T]

/-- What a drop posts after the earlier drops of its episode. `tells` is what a signal
is to tell: how many drops the episode has, and how long it has lasted. -/
structure Lawful (period : T) (tells : σ → ℕ → T → Prop) (drops : List (T × List σ)) (now : T) (posted : List σ) :
    Prop where
  first : drops = [] → posted.length = 1
  spaced : ∀ last, (signalled drops).getLast? = some last → posted ≠ [] → period ≤ now - last
  due : ∀ last, (signalled drops).getLast? = some last → period ≤ now - last → posted.length = 1
  once : posted.length ≤ 1
  exact : ∀ signal ∈ posted, tells signal (drops.length + 1) (now - began drops now)

/-- Every drop of the history posts what it should. -/
def Coalesced (period : T) (tells : σ → ℕ → T → Prop) (log : List (Mark T σ)) : Prop :=
  ∀ before time posted after, log = before ++ .dropped time posted :: after →
    Lawful period tells (episode before) time posted

/-! ## The alarm -/

/-- An episode under way. -/
structure Episode (T : Type*) where
  since : T
  dropped : ℕ
  lastEmit : T

/-- Whether a drop is to be signalled. -/
def signals (period now : T) : Option (Episode T) → Bool
  | none => true
  | some under => decide (period ≤ now - under.lastEmit)

/-- The episode that a drop begins or goes on with. -/
def note (period now : T) : Option (Episode T) → Episode T
  | none => ⟨now, 1, now⟩
  | some under => ⟨under.since, under.dropped + 1, if period ≤ now - under.lastEmit then now else under.lastEmit⟩

/-- One mark of an alarm. -/
inductive Moves (period : T) (tells : σ → ℕ → T → Prop) : Option (Episode T) → Mark T σ → Option
    (Episode T) → Prop where
  | quiet (alarm : Option (Episode T)) (now : T) (early : signals period now alarm = false) :
      Moves period tells alarm (.dropped now []) (some (note period now alarm))
  | signal (alarm : Option (Episode T)) (now : T) (signal : σ) (due : signals period now alarm = true)
      (told : tells signal (note period now alarm).dropped (now - (note period now alarm).since)) :
      Moves period tells alarm (.dropped now [signal]) (some (note period now alarm))
  | recover (alarm : Option (Episode T)) : Moves period tells alarm .recovered none

/-- The alarm after the marks of a history. -/
inductive Follows (period : T) (tells : σ → ℕ → T → Prop) : List (Mark T σ) → Option (Episode T) → Prop where
  | start : Follows period tells [] none
  | next {log : List (Mark T σ)} {mark : Mark T σ} {alarm alarm' : Option (Episode T)}
      (earlier : Follows period tells log alarm) (moves : Moves period tells alarm mark alarm') :
      Follows period tells (log ++ [mark]) alarm'

/-! ## The alarm remembers enough -/

/-- What the alarm knows of an episode. -/
def Remembers (drops : List (T × List σ)) : Option (Episode T) → Prop
  | none => drops = []
  | some under => drops.head?.map Prod.fst = some under.since ∧ drops.length = under.dropped ∧
      (signalled drops).getLast? = some under.lastEmit

variable {period now : T} {tells : σ → ℕ → T → Prop} {drops : List (T × List σ)} {posted : List σ}
  {alarm alarm' : Option (Episode T)} {log : List (Mark T σ)} {mark : Mark T σ}

/-- A drop knows when its episode began and which drop of it it is. -/
theorem note_told (period now : T) (remembers : Remembers drops alarm) :
    (note period now alarm).since = began drops now ∧ (note period now alarm).dropped = drops.length + 1 := by
  cases alarm with
  | none =>
    obtain rfl : drops = [] := remembers
    exact ⟨rfl, rfl⟩
  | some under =>
    obtain ⟨since, dropped, -⟩ := remembers
    constructor
    · simp [note, began, since]
    · simp [note, dropped]

theorem remembers_dropped (remembers : Remembers drops alarm)
    (last : (signalled (drops ++ [(now, posted)])).getLast? = some (note period now alarm).lastEmit) :
    Remembers (drops ++ [(now, posted)]) (some (note period now alarm)) := by
  obtain ⟨since, dropped⟩ := note_told period now remembers
  refine ⟨?_, ?_, last⟩
  · rw [since, began]
    cases drops with
    | nil => rfl
    | cons first rest => rfl
  · rw [dropped, List.length_append, List.length_singleton]

/-- A move keeps what the alarm knows of the history. -/
theorem moves_remembers (moves : Moves period tells alarm mark alarm') (remembers : Remembers (episode log) alarm) :
    Remembers (episode (log ++ [mark])) alarm' := by
  cases moves with
  | quiet now early =>
    rw [episode_dropped]
    apply remembers_dropped remembers
    rw [signalled_quiet]
    cases alarm with
    | none => exact absurd early (by simp [signals])
    | some under =>
      have young : ¬ period ≤ now - under.lastEmit := by simpa [signals] using early
      rw [remembers.2.2, note, if_neg young]
  | signal now signal due told =>
    rw [episode_dropped]
    apply remembers_dropped remembers
    rw [signalled_signal, List.getLast?_concat]
    cases alarm with
    | none => rfl
    | some under =>
      have old : period ≤ now - under.lastEmit := by simpa [signals] using due
      rw [note, if_pos old]
  | recover => exact episode_recovered log

/-- The drop of a move is lawful. -/
theorem moves_lawful (moves : Moves period tells alarm (.dropped now posted) alarm')
    (remembers : Remembers drops alarm) : Lawful period tells drops now posted := by
  have last {last : T} (some : (signalled drops).getLast? = some last) :
      ∃ under, alarm = .some under ∧ under.lastEmit = last := by
    cases alarm with
    | none =>
      obtain rfl : drops = [] := remembers
      simp [signalled] at some
    | some under => exact ⟨under, rfl, Option.some.inj (remembers.2.2.symm.trans some)⟩
  cases moves with
  | quiet _ early =>
    refine ⟨fun none => ?_, fun _ _ some => absurd rfl some, fun _ signalled old => ?_, Nat.zero_le 1, nofun⟩
    · cases alarm with
      | none => exact absurd early (by simp [signals])
      | some under => exact absurd remembers.1 (by simp [none])
    · obtain ⟨under, rfl, rfl⟩ := last signalled
      simp [signals, old] at early
  | signal _ signal due told =>
    refine ⟨fun _ => rfl, fun _ signalled _ => ?_, fun _ _ _ => rfl, le_refl 1, ?_⟩
    · obtain ⟨under, rfl, rfl⟩ := last signalled
      simpa [signals] using due
    · obtain ⟨since, dropped⟩ := note_told period now remembers
      rw [since, dropped] at told
      simpa using told

theorem follows_remembers (follows : Follows period tells log alarm) : Remembers (episode log) alarm := by
  induction follows with
  | start => rfl
  | next earlier moves ih => exact moves_remembers moves ih

/-- The history of an alarm is coalesced. -/
theorem follows_coalesced (follows : Follows period tells log alarm) : Coalesced period tells log := by
  induction follows with
  | start =>
    intro before time posted after split
    simp at split
  | @next log mark alarm alarm' earlier moves ih =>
    intro before time posted after split
    rcases List.eq_nil_or_concat after with rfl | ⟨after, last, rfl⟩
    · obtain ⟨rfl, same⟩ := List.append_inj' split rfl
      obtain rfl := List.singleton_inj.mp same
      exact moves_lawful moves (follows_remembers earlier)
    · rw [List.concat_eq_append, ← List.cons_append, ← List.append_assoc] at split
      exact ih before time posted after (List.append_inj' split rfl).1

end SFrameRatchet.Coalescing
