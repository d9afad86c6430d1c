import SFrameRatchet.MlsSpecimen

/-! Epochs of one room that are set at the same time. A call derives the keys of its
epoch before it looks at the room, so the epoch that is installed last is the one
whose derivation ends last, whatever the order in which the calls were made. -/
namespace SFrameRatchet.MlsEpochOrder
open BigEndian Collections Coroutine Throwing Interleaving Crypto KeyWrap Chat MlsChat

variable {K : Type}

/-! ## One call -/

/-- What one turn of a call does to the room. -/
inductive Step (runtime : MlsRuntime K) (settings : ReplaySettings) (roomId : String) (params : MlsEpochParams) :
    ChatSite (MlsPlace K) → MlsProvider K → MlsStatus K → MlsProvider K → Prop
  | refuses {error s} : Step runtime settings roomId params .start s (.finished (.error error)) s
  | derives {s} : Step runtime settings roomId params .start s (.suspended (.own .deriving_)) s
  | fails {error s} : Step runtime settings roomId params (.own .deriving_) s (.finished (.error error)) s
  | installs {roomState s} (derived : deriveRoomEpoch runtime params = .ok roomState) :
    Step runtime settings roomId params (.own .deriving_) s (.finished (.ok none))
      (installEpoch settings s roomId roomState)

/-- Every turn is a step; nothing is asked of the state at its beginning. -/
def stepping (runtime : MlsRuntime K) (settings : ReplaySettings) (roomId : String) (params : MlsEpochParams) :
    Contract (ChatSite (MlsPlace K)) (MlsProvider K) where
  assume _ _ := True
  moves site start next s := Step runtime settings roomId params site start (.suspended next) s

section Calls
variable (runtime : MlsRuntime K) (settings : ReplaySettings) (roomId : String) (params : MlsEpochParams)

/-- The end of a call. -/
def Ends (site : ChatSite (MlsPlace K)) (start : MlsProvider K) (outcome : Except JsError (Option Bytes))
    (s : MlsProvider K) : Prop :=
  Step runtime settings roomId params site start (.finished outcome) s

/-- Every turn of a call is a step. -/
theorem program_keeps (s : MlsProvider K) :
    (stepping runtime settings roomId params).Keeps ((MlsCall.setEpoch roomId params).program runtime settings).run
      (Ends runtime settings roomId params) .start s s := by
  apply keeps_of_meets
  apply meets_bind.mpr
  unfold setEpoch
  dsimp only
  split
  · exact Step.refuses
  · apply meets_bind.mpr
    apply meets_promised.mpr
    refine ⟨.derives, fun later _ => ?_⟩
    cases derived : deriveRoomEpoch runtime params with
    | error refused => exact Step.fails
    | ok roomState => exact Step.installs derived

variable {runtime settings roomId params}

theorem getEpoch_installEpoch (settings : ReplaySettings) (roomId : String) (s : MlsProvider K)
    (roomState : RoomEpochState K) :
    getEpoch (installEpoch settings s roomId roomState) roomId = some roomState.epoch := by
  change ((s.own.roomEpochs.set roomId roomState).get? roomId).map (·.epoch) = _
  rw [OrderedMap.get?_set, if_pos rfl]
  rfl

end Calls

/-! ## Runs -/

section Runs
variable {ι : Type} (runtime : MlsRuntime K) (settings : ReplaySettings) (roomId : String) (params : ι → MlsEpochParams)

/-- The calls of a run in which epochs of a room are set and nothing else happens. -/
def setting (call : ι) : MlsCall := .setEpoch roomId (params call)

/-- A call that begins is for no lower epoch than those that have begun. -/
def BeginsInOrder (before : MlsPool ι K) (call : ι) : Prop :=
  before.statuses call = .suspended .start → ∀ other, before.statuses other ≠ .suspended .start →
    (params other).epoch ≤ (params call).epoch

/-- The keys of an epoch can be derived. -/
def Derivable (call : ι) : Prop := (deriveRoomEpoch runtime (params call)).toBool = true

/-- A call that goes on to install its epoch leaves none behind that was made before it. -/
def InstallsInOrder (before : MlsPool ι K) (call : ι) : Prop :=
  before.statuses call = .suspended (.own .deriving_) → Derivable runtime params call → ∀ other,
    before.statuses other = .suspended (.own .deriving_) → Derivable runtime params other →
      (params call).epoch ≤ (params other).epoch

instance [Fintype ι] [DecidableEq K] (before : MlsPool ι K) (call : ι) : Decidable (BeginsInOrder params before call) :=
  inferInstanceAs (Decidable (_ → ∀ _, _ → _))

instance (call : ι) : Decidable (Derivable runtime params call) := inferInstanceAs (Decidable (_ = _))

instance [Fintype ι] [DecidableEq K] (before : MlsPool ι K) (call : ι) :
    Decidable (InstallsInOrder runtime params before call) :=
  inferInstanceAs (Decidable (_ → _ → ∀ _, _ → _ → _))

def beginsInOrder (before : MlsPool ι K) (call : ι) (_ : MlsPool ι K) : Prop := BeginsInOrder params before call

/-- The gate of the runs in which the calls are made in the order of their epochs,
and come to install them in the order in which they were made. -/
def inOrder (before : MlsPool ι K) (call : ι) (_ : MlsPool ι K) : Prop :=
  BeginsInOrder params before call ∧ InstallsInOrder runtime params before call

instance [Fintype ι] [DecidableEq K] (before : MlsPool ι K) (call : ι) (after : MlsPool ι K) :
    Decidable (beginsInOrder params before call after) :=
  inferInstanceAs (Decidable (BeginsInOrder params before call))

instance [Fintype ι] [DecidableEq K] (before : MlsPool ι K) (call : ι) (after : MlsPool ι K) :
    Decidable (inOrder runtime params before call after) :=
  inferInstanceAs (Decidable (BeginsInOrder params before call ∧ InstallsInOrder runtime params before call))

/-- The room is behind every call that is still to install its epoch, and the epoch
it has is that of a call which has begun. -/
structure Advancing (s : MlsProvider K) (statuses : ι → MlsStatus K) : Prop where
  behind : ∀ epoch call, getEpoch s roomId = some epoch → statuses call = .suspended (.own .deriving_) →
    Derivable runtime params call → epoch ≤ (params call).epoch
  begun : ∀ epoch, getEpoch s roomId = some epoch → ∃ call, statuses call ≠ .suspended .start ∧
    (params call).epoch = epoch

/-- The room has come at least as far as an epoch. -/
def Reaches (epoch : ℤ) (s : MlsProvider K) : Prop := ∃ reached, getEpoch s roomId = some reached ∧ epoch ≤ reached

variable {runtime settings roomId params} [DecidableEq ι]
  {s s' : MlsProvider K} {statuses : ι → MlsStatus K} {call : ι} {site : ChatSite (MlsPlace K)} {status : MlsStatus K}

/-- A call that does not touch the room. -/
theorem Advancing.update (advancing : Advancing runtime roomId params s statuses)
    (moves : status ≠ .suspended .start)
    (own : ∀ epoch, getEpoch s roomId = some epoch → status = .suspended (.own .deriving_) →
      epoch ≤ (params call).epoch) :
    Advancing runtime roomId params s (Function.update statuses call status) := by
  constructor
  · intro epoch other installed waits derivable
    by_cases same : other = call
    · subst same
      rw [Function.update_self] at waits
      exact own epoch installed waits
    · rw [Function.update_of_ne same] at waits
      exact advancing.behind epoch other installed waits derivable
  · intro epoch installed
    obtain ⟨other, begun, same⟩ := advancing.begun epoch installed
    refine ⟨other, ?_, same⟩
    by_cases here : other = call
    · subst here
      rw [Function.update_self]
      exact moves
    · rw [Function.update_of_ne here]
      exact begun

/-- A step in order keeps the room behind the calls that are to come. -/
theorem Advancing.step {before : MlsPool ι K}
    (advancing : Advancing runtime roomId params before.shared before.statuses)
    (waits : before.statuses call = .suspended site)
    (ordered : BeginsInOrder params before call ∧ InstallsInOrder runtime params before call)
    (step : Step runtime settings roomId (params call) site before.shared status s') :
    Advancing runtime roomId params s' (Function.update before.statuses call status) ∧
      ∀ epoch, Reaches roomId epoch before.shared → Reaches roomId epoch s' := by
  generalize shared : before.shared = s at advancing step ⊢
  cases step with
  | refuses =>
    refine ⟨advancing.update (by nofun) ?_, fun _ reaches => reaches⟩
    intro _ _ never
    cases never
  | derives =>
    refine ⟨advancing.update (by nofun) ?_, fun _ reaches => reaches⟩
    intro epoch installed _
    obtain ⟨other, begun, rfl⟩ := advancing.begun epoch installed
    exact ordered.1 waits other begun
  | fails =>
    refine ⟨advancing.update (by nofun) ?_, fun _ reaches => reaches⟩
    intro _ _ never
    cases never
  | @installs roomState _ derived =>
    have derivable : Derivable runtime params call := by
      rw [Derivable, derived]
      rfl
    have epoch_ := (deriveRoomEpoch_ok derived).1
    have installed := getEpoch_installEpoch settings roomId s roomState
    refine ⟨⟨?_, ?_⟩, ?_⟩
    · intro epoch other here other_ derivable'
      cases installed.symm.trans here
      rw [epoch_]
      by_cases same : other = call
      · subst same
        exact le_refl _
      · rw [Function.update_of_ne same] at other_
        exact ordered.2 waits derivable other other_ derivable'
    · intro epoch here
      cases installed.symm.trans here
      refine ⟨call, ?_, epoch_.symm⟩
      rw [Function.update_self]
      nofun
    · rintro epoch ⟨reached, held, most⟩
      refine ⟨_, installed, ?_⟩
      rw [epoch_]
      exact most.trans (advancing.behind reached call held waits derivable)

theorem Advancing.moved {before : MlsPool ι K}
    (advancing : Advancing runtime roomId params before.shared before.statuses)
    (waits : before.statuses call = .suspended site)
    (ordered : BeginsInOrder params before call ∧ InstallsInOrder runtime params before call)
    (moved : Moved (stepping runtime settings roomId (params call)) (Ends runtime settings roomId (params call)) site
      before.shared status s') :
    Advancing runtime roomId params s' (Function.update before.statuses call status) ∧
      ∀ epoch, Reaches roomId epoch before.shared → Reaches roomId epoch s' := by
  cases status with
  | running => exact moved.elim
  | suspended next => exact advancing.step waits ordered moved
  | finished outcome => exact advancing.step waits ordered moved

omit [DecidableEq ι] in
theorem advancing_launch (settings : ReplaySettings) (store : OrderedMap String (List ℕ)) :
    Advancing runtime roomId params (.create settings {} store) fun _ => .suspended .start where
  behind _ _ installed := by cases installed
  begun _ installed := by cases installed

end Runs

/-- In every run of calls that are made in the order of their epochs, in which no call
comes to install its epoch while one that was made before it is still to do so, the
epoch of the room never goes back. -/
theorem epochs_advance {ι : Type} [DecidableEq ι] (runtime : MlsRuntime K) (settings : ReplaySettings)
    (store : OrderedMap String (List ℕ)) (roomId : String) (params : ι → MlsEpochParams) {middle last : MlsPool ι K}
    (earlier : Runs (inOrder runtime params)
      (launch runtime settings (.create settings {} store) (setting roomId params)) middle)
    (later : Runs (inOrder runtime params) middle last) {epoch : ℤ}
    (installed : getEpoch middle.shared roomId = some epoch) :
    ∃ reached, getEpoch last.shared roomId = some reached ∧ epoch ≤ reached := by
  have follows (call : ι) : Follows (stepping runtime settings roomId (params call))
      (Ends runtime settings roomId (params call))
      ((launch runtime settings (.create settings {} store) (setting roomId params)).calls call) :=
    launch_follows (fun call s _ => program_keeps runtime settings roomId (params call) s) call
  obtain ⟨advancing, following⟩ := runs_follow (fun call => stepping runtime settings roomId (params call))
    (fun call => Ends runtime settings roomId (params call)) (Advancing runtime roomId params)
    (advancing_launch settings store) follows (fun _ _ _ _ _ _ _ _ => trivial)
    (fun before call site after advancing waits ordered _ moved => (advancing.moved waits ordered moved).1) earlier
  have both := runs_invariant (fun call => stepping runtime settings roomId (params call))
    (fun call => Ends runtime settings roomId (params call))
    (fun s statuses => Advancing runtime roomId params s statuses ∧ Reaches roomId epoch s)
    ⟨advancing, epoch, installed, le_refl epoch⟩ following (fun _ _ _ _ _ _ _ _ => trivial)
    (fun before call site after held waits ordered _ moved => by
      obtain ⟨still, reaches⟩ := held.1.moved waits ordered moved
      exact ⟨still, reaches epoch held.2⟩) later
  exact both.2

section Checked
open MlsSpecimen (runtime settings provider)

/-- The first two epochs. -/
def twoEpochs (call : Fin 2) : MlsEpochParams := MlsSpecimen.params (call + 1)

/-- The derivation of the first epoch ends last. -/
theorem epoch_replaced_by_lower : ¬ ∀ middle last : MlsPool (Fin 2) Bytes,
    Runs (beginsInOrder twoEpochs) (launch runtime settings provider (setting "room" twoEpochs)) middle →
      Runs (beginsInOrder twoEpochs) middle last → ∀ epoch, getEpoch middle.shared "room" = some epoch →
        ∃ reached, getEpoch last.shared "room" = some reached ∧ epoch ≤ reached := by
  intro advance
  have result : ((launch runtime settings provider (setting "room" twoEpochs)).followPassing (beginsInOrder twoEpochs)
      [0, 1, 1]).map (fun middle => (getEpoch middle.shared "room",
        (middle.followPassing (beginsInOrder twoEpochs) [0]).map fun last => getEpoch last.shared "room")) =
      some (some 2, some (some 1)) := by
    decide +kernel
  obtain ⟨middle, first, shape⟩ := Option.map_eq_some_iff.mp result
  simp only [Prod.mk.injEq] at shape
  obtain ⟨installed, onward⟩ := shape
  obtain ⟨last, second, replaced⟩ := Option.map_eq_some_iff.mp onward
  obtain ⟨reached, held, least⟩ :=
    advance middle last (followPassing_runs first) (followPassing_runs second) 2 installed
  cases replaced.symm.trans held
  exact absurd least (by decide)

/-- The derivations end in the order of the calls. -/
theorem epochs_advance_in_order : ∃ middle last : MlsPool (Fin 2) Bytes, getEpoch middle.shared "room" = some 1 ∧
    getEpoch last.shared "room" = some 2 ∧
      ∃ reached, getEpoch last.shared "room" = some reached ∧ 1 ≤ reached := by
  have result : ((launch runtime settings provider (setting "room" twoEpochs)).followPassing (inOrder runtime twoEpochs)
      [0, 1, 0]).map (fun middle => (getEpoch middle.shared "room",
        (middle.followPassing (inOrder runtime twoEpochs) [1]).map fun last => getEpoch last.shared "room")) =
      some (some 1, some (some 2)) := by
    decide +kernel
  obtain ⟨middle, first, shape⟩ := Option.map_eq_some_iff.mp result
  simp only [Prod.mk.injEq] at shape
  obtain ⟨installed, onward⟩ := shape
  obtain ⟨last, second, replaced⟩ := Option.map_eq_some_iff.mp onward
  exact ⟨middle, last, installed, replaced,
    epochs_advance runtime settings ∅ "room" twoEpochs (followPassing_runs first)
    (followPassing_runs second) installed⟩

end Checked
end SFrameRatchet.MlsEpochOrder
