import Mathlib.Tactic.FinCases
import SFrameRatchet.EpochTable
import SFrameRatchet.Specimen

/-! The grace window of an epoch: from the moment a later one becomes current
until its timer wipes it. Timers are scheduled when the current epoch advances,
for the epochs installed at that time, so an epoch that arrives after a later
one has none. -/
namespace SFrameRatchet.GraceWipe
open Collections Throwing Coroutine Interleaving Media EpochTable

variable {K G : Type} (runtime : Runtime K G)

/-- Every epoch below the current one has a timer that will wipe it. -/
def Retiring (w : Worker K G) : Prop :=
  ∀ epoch, w.epochs.has epoch = true → epoch < w.currentEpoch → w.wipeTimers.has epoch = true

/-- The epoch that a call installs is not behind the current one, or has its
timer already. -/
def Timely (call : Call K) (w : Worker K G) : Prop :=
  match call with
  | .message (.epoch epoch ..) | .message (.rotate epoch ..) =>
    w.currentEpoch ≤ epoch ∨ w.wipeTimers.has epoch = true
  | _ => True

instance (call : Call K) (w : Worker K G) : Decidable (Timely call w) := by
  unfold Timely
  split <;> infer_instance

variable {runtime} {w w' : Worker K G}

theorem retiring_created : Retiring (Worker.createWorkerState : Worker K G) := by
  intro _ installed
  cases installed

theorem retiring_of (retiring : Retiring w) (same : epochTable w' = epochTable w) : Retiring w' := by
  simp only [epochTable, Prod.mk.injEq] at same
  obtain ⟨epochs, current, -, timers⟩ := same
  unfold Retiring
  rw [epochs, current, timers]
  exact retiring

theorem retiring_tabular : Tabular fun _ _ (w : Worker K G) => Retiring w :=
  fun _ _ _ _ retiring same => retiring_of retiring same

theorem retiring_installEpoch (retiring : Retiring w) {call : Call K} {epoch selfPeerIndex : ℤ}
    {keys : KeyBundles K} (installs : Installs call epoch selfPeerIndex keys) (timely : Timely call w)
    (ok : w.installEpoch epoch selfPeerIndex keys = .ok w') : Retiring w' := by
  obtain ⟨ref, table⟩ := epochTable_installEpoch ok
  have inTime : w.currentEpoch ≤ epoch ∨ w.wipeTimers.has epoch = true := by
    rcases installs with rfl | rfl <;> exact timely
  split at table
  · refine retiring_of ?_ table
    intro other installed behind
    exact scheduled_iff.mpr (.inr ⟨installed, behind⟩)
  · refine retiring_of ?_ table
    intro other installed behind
    rcases OrderedMap.has_set.mp installed with rfl | held
    · exact inTime.resolve_left (Int.not_le.mpr behind)
    · exact retiring other held behind

theorem retiring_wipeEpoch (retiring : Retiring w) (guard : ReplayGuard G) (epoch : ℤ) :
    Retiring (w.wipeEpoch guard epoch) := by
  intro other installed behind
  obtain ⟨apart, held⟩ := OrderedMap.has_delete.mp installed
  exact OrderedMap.has_delete.mpr ⟨apart, retiring other held behind⟩

theorem retiring_teardown (w : Worker K G) : Retiring w.teardown := by
  intro _ installed
  cases installed

/-! ## Runs -/

/-- A call begins when what it installs is timely; it leaves no epoch without a
timer wherever it suspends. -/
def retires (call : Call K) : Contract AwaitPoint (Worker K G) where
  assume at_ w := Retiring w ∧ (at_.point = .start → Timely call w)
  moves _ _ _ w := Retiring w

theorem program_retires {call : Call K} (assumed : (retires call).assume { point := .start } w) :
    Yields (retires call) (fun _ _ w => Retiring w) (call.program runtime) (fun _ => True) { point := .start } w w := by
  obtain ⟨retiring, timely⟩ := assumed
  have survives (site : AwaitPoint) : Survives (retires call) (fun _ _ (w : Worker K G) => Retiring w) site :=
    fun _ _ _ now => ⟨now, fun _ later => later.1⟩
  refine program_yields retiring_tabular.stocked survives retiring ?_ ?_ ?_
  · exact fun _ _ _ installs _ ok => retiring_installEpoch retiring installs (timely rfl) ok
  · exact fun epoch _ _ => retiring_wipeEpoch retiring runtime.guard epoch
  · exact fun _ => retiring_teardown w

/-- The gate of the runs in which epochs are installed in time. -/
def installsTimely {ι : Type} (calls : ι → Call K) : WorkerPool ι K G → ι → WorkerPool ι K G → Prop :=
  fun before call => whereAllowed (fun at_ w => at_.point = .start → Timely (calls call) w) before call

instance {ι : Type} (calls : ι → Call K) (before : WorkerPool ι K G) (call : ι) (after : WorkerPool ι K G) :
    Decidable (installsTimely calls before call after) :=
  inferInstanceAs (Decidable (whereAllowed (fun at_ w => at_.point = .start → Timely (calls call) w) before call
    after))

/-- In every run that installs no epoch behind the current one without a timer,
each epoch below the current one has its timer in every state; where no timer is
pending, none of them is left. -/
theorem old_epochs_retire {ι : Type} [DecidableEq ι] (calls : ι → Call K) {last : WorkerPool ι K G}
    (run : Runs (installsTimely calls) (launch runtime Worker.createWorkerState calls) last) :
    Retiring last.shared ∧ ((∀ epoch, last.shared.wipeTimers.has epoch = false) →
      ∀ epoch, last.shared.epochs.has epoch = true → last.shared.currentEpoch ≤ epoch) := by
  have retiring : Retiring last.shared := by
    refine runs_invariant (fun call => retires (calls call)) (fun _ _ _ _ w => Retiring w)
      (fun w _ => Retiring w) retiring_created (launch_follows fun call w assumed => ?_)
      (fun before call at_ after retiring waits _ passes => ⟨retiring, passes at_ waits⟩)
      (fun before call at_ after _ _ _ _ moved => ?_) run
    · refine Contract.keeps_mono (program_retires assumed) fun _ _ result _ holds => ?_
      cases result with
      | ok value => exact holds.1
      | error refused => exact holds
    · generalize after.statuses call = reached at moved
      cases reached with
      | running => exact moved.elim
      | suspended next => exact moved
      | finished result => exact moved
  refine ⟨retiring, fun fired epoch installed => ?_⟩
  by_contra behind
  have pending := retiring epoch installed (Int.not_le.mp behind)
  rw [fired epoch] at pending
  cases pending

section Checked
open Specimen (bundles)

/-- Two epochs, the later one first. -/
def lateEpoch : Fin 2 → Call Bytes
  | 0 => .message (.epoch 1 0 (bundles [7]))
  | 1 => .message (.epoch 0 0 (bundles [8]))

/-- An epoch that arrives after a later one is never wiped. -/
theorem late_epoch_stays : ¬ ∀ last : WorkerPool (Fin 2) Bytes Unit,
    Runs anyTurn (launch Specimen.runtime Worker.createWorkerState lateEpoch) last → Retiring last.shared := by
  intro retires
  have result : ((launch Specimen.runtime Worker.createWorkerState lateEpoch).followPassing anyTurn [0, 1]).map
      (fun pool => (pool.shared.epochs.has 0, pool.shared.currentEpoch, pool.shared.wipeTimers.has 0)) =
      some (true, 1, false) := by
    decide +kernel
  obtain ⟨last, followed, shape⟩ := Option.map_eq_some_iff.mp result
  simp only [Prod.mk.injEq] at shape
  have pending := retires last (followPassing_runs followed) 0 shape.1 (by rw [shape.2.1]; decide)
  rw [shape.2.2] at pending
  cases pending

/-- Two epochs in order, then the first one's timer. -/
def inOrder : Fin 3 → Call Bytes
  | 0 => .message (.epoch 0 0 (bundles [7]))
  | 1 => .message (.rotate 1 0 (bundles [8]))
  | 2 => .wipeTimer 0

theorem old_epochs_retire_in_order : ∃ last : WorkerPool (Fin 3) Bytes Unit,
    last.shared.epochs.keys = [1] ∧ Retiring last.shared ∧
      ((∀ epoch, last.shared.wipeTimers.has epoch = false) →
        ∀ epoch, last.shared.epochs.has epoch = true → last.shared.currentEpoch ≤ epoch) := by
  have result : ((launch Specimen.runtime Worker.createWorkerState inOrder).followPassing (installsTimely inOrder)
      [0, 1, 2]).map (fun pool => pool.shared.epochs.keys) = some [1] := by
    decide +kernel
  obtain ⟨last, followed, keys⟩ := Option.map_eq_some_iff.mp result
  exact ⟨last, keys, old_epochs_retire inOrder (followPassing_runs followed)⟩

end Checked
end SFrameRatchet.GraceWipe
