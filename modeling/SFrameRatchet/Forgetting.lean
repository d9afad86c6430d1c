import Mathlib.Tactic.FinCases
import SFrameRatchet.RatchetInvariants
import SFrameRatchet.RoomSpecimen

/-! Forgetting the epochs of a room. A timer is scheduled for the epoch that was
current when a later one takes its place, and for no other, so an epoch that is
installed behind the current one stays unless its timer happens to be pending. -/
namespace SFrameRatchet.Forgetting
open BigEndian Collections Coroutine Throwing Interleaving Crypto JsObject Kid KeyWrap PeerIds Room RoomRatchet

variable {K : Type}

/-- Every epoch but the current one has a timer that will forget it. -/
def Retiring (r : RoomRatchet K) : Prop :=
  ∀ epoch, r.epochs.has epoch = true → epoch ≠ r.currentEpoch → epoch ∈ r.forgetTimers

/-- The version about to be installed is the current one, or is behind it and has
its timer, or takes the place of an epoch that gets one. No epoch below zero
does; only a room whose one member cannot be listed can have it. -/
def Timely (version : ℤ) (r : RoomRatchet K) : Prop :=
  version = r.currentEpoch ∨ version < r.currentEpoch ∧ version ∈ r.forgetTimers ∨
    r.currentEpoch < version ∧ (0 ≤ r.currentEpoch ∨ r.epochs.has r.currentEpoch = false)

instance (version : ℤ) (r : RoomRatchet K) : Decidable (Timely version r) := by
  unfold Timely
  infer_instance

/-- A call that is about to install an epoch does so in time. -/
def InTime : RatchetSite → RoomRatchet K → Prop
  | .keying draft true, r => Timely draft.version r
  | _, _ => True

instance (site : RatchetSite) (r : RoomRatchet K) : Decidable (InTime site r) := by
  unfold InTime
  split <;> infer_instance

def retention (r : RoomRatchet K) := (r.epochs, r.currentEpoch, r.forgetTimers)

variable {r r' : RoomRatchet K} {version : ℤ} {entry : EpochState K}

theorem retiring_create (initialPeers : List PeerIdentity) : Retiring (create initialPeers : RoomRatchet K) := by
  intro _ installed
  cases installed

theorem retiring_of (retiring : Retiring r) (same : retention r' = retention r) : Retiring r' := by
  simp only [retention, Prod.mk.injEq] at same
  obtain ⟨epochs, current, timers⟩ := same
  unfold Retiring
  rw [epochs, current, timers]
  exact retiring

theorem retention_install (r : RoomRatchet K) (version : ℤ) (entry : EpochState K) :
    retention (r.install version entry) = (r.epochs.set version entry, max r.currentEpoch version,
      if 0 ≤ r.currentEpoch ∧ r.currentEpoch < version then r.forgetTimers ++ [r.currentEpoch]
      else r.forgetTimers) := by
  simp [retention]

/-- A timely installation leaves no epoch without a timer. -/
theorem retiring_install (retiring : Retiring r) (timely : Timely version r) (entry : EpochState K) :
    Retiring (r.install version entry) := by
  have table := retention_install r version entry
  simp only [retention, Prod.mk.injEq] at table
  obtain ⟨epochs, current, timers⟩ := table
  have kept (epoch : ℤ) (pending : epoch ∈ r.forgetTimers) :
      epoch ∈ (r.install version entry).forgetTimers := by
    rw [timers]
    split
    · exact List.mem_append_left _ pending
    · exact pending
  intro epoch installed apart
  rw [epochs, OrderedMap.has_set] at installed
  rw [current] at apart
  by_cases old : epoch = r.currentEpoch
  · -- The epoch that was current has been left behind.
    subst old
    have behind : r.currentEpoch < version := by
      by_contra ahead
      exact apart (max_eq_left (not_lt.mp ahead)).symm
    rcases timely with same | ⟨older, -⟩ | ⟨-, real | absent⟩
    · exact absurd same behind.ne'
    · exact absurd older behind.le.not_gt
    · rw [timers, if_pos ⟨real, behind⟩]
      exact List.mem_append_right _ List.mem_cons_self
    · rcases installed with same | held
      · exact absurd same behind.ne
      · rw [absent] at held
        cases held
  · rcases installed with rfl | held
    · rcases timely with same | ⟨-, pending⟩ | ⟨later, -⟩
      · exact absurd same old
      · exact kept _ pending
      · exact absurd (max_eq_right later.le).symm apart
    · exact kept epoch (retiring epoch held old)

theorem retiring_forgetEpoch (retiring : Retiring r) (epoch : ℤ) : Retiring (r.forgetEpoch epoch) := by
  intro other installed apart
  rw [forgetEpoch_epochs] at installed
  rw [forgetEpoch_currentEpoch] at apart
  rw [forgetEpoch_forgetTimers]
  exact retiring other (OrderedMap.has_delete.mp installed).2 apart

/-- A timer that has fired takes its epoch with it. -/
theorem retiring_fired (retiring : Retiring r) (epoch : ℤ) :
    Retiring ({ r with forgetTimers := r.forgetTimers.erase epoch }.forgetEpoch epoch) := by
  intro other installed apart
  rw [forgetEpoch_epochs] at installed
  rw [forgetEpoch_currentEpoch] at apart
  rw [forgetEpoch_forgetTimers]
  obtain ⟨different, held⟩ := OrderedMap.has_delete.mp installed
  exact (List.mem_erase_of_ne different).mpr (retiring other held apart)

/-- All that the calls do preserves this, when epochs are installed in time. -/
theorem retiring_preserved : Preserved InTime (Retiring : RoomRatchet K → Prop) where
  replaces _ retiring := retiring_of retiring rfl
  draws retiring := retiring_of retiring rfl
  stores _ retiring := retiring_of retiring rfl
  installs entry retiring timely := retiring_install retiring timely entry
  verifies _ _ _ retiring _ := retiring_of retiring rfl
  forgets epoch retiring := retiring_forgetEpoch retiring epoch
  fires epoch retiring := retiring_fired retiring epoch

/-! ## Runs -/

/-- The gate of the runs in which epochs are installed in time. -/
def installsTimely {ι : Type} : RatchetPool ι K → ι → RatchetPool ι K → Prop :=
  whereAllowed InTime

instance {ι : Type} (before : RatchetPool ι K) (call : ι) (after : RatchetPool ι K) :
    Decidable (installsTimely before call after) :=
  inferInstanceAs (Decidable (whereAllowed InTime before call after))

/-- In every run that installs no epoch behind the current one without a timer,
each epoch but the current one has its timer in every state; once all timers
have fired, only the current one is left. -/
theorem old_epochs_are_forgotten {ι : Type} [DecidableEq ι] (platform : Platform K) (options : RatchetOptions)
    (initialPeers : List PeerIdentity) (calls : ι → RatchetCall) {last : RatchetPool ι K}
    (run : Runs installsTimely (launch platform options (create initialPeers) calls) last) :
    Retiring last.shared ∧ (last.shared.forgetTimers = [] →
      ∀ epoch, last.shared.epochs.has epoch = true → epoch = last.shared.currentEpoch) := by
  have retiring : Retiring last.shared := retiring_preserved.runs_preserve (retiring_create initialPeers) run
  refine ⟨retiring, fun fired epoch installed => ?_⟩
  by_contra apart
  have pending := retiring epoch installed apart
  rw [fired] at pending
  cases pending

section Checked
open RoomSpecimen (platform client peer)

/-- Epoch one, then epoch zero. -/
def lateVersion : Fin 2 → RatchetCall
  | 0 => .startNewEpoch [] (some 1) none
  | 1 => .startNewEpoch [] (some 0) none

/-- A version that is installed after a later one is never forgotten. -/
theorem late_version_stays : ¬ ∀ last : RatchetPool (Fin 2) Bytes,
    Runs anyTurn (launch platform (client 'a' 1) (create []) lateVersion) last →
      Retiring last.shared ∧ (last.shared.forgetTimers = [] →
        ∀ epoch, last.shared.epochs.has epoch = true → epoch = last.shared.currentEpoch) := by
  intro retires
  have result : ((launch platform (client 'a' 1) (create []) lateVersion).followPassing anyTurn
      [0, 0, 1, 1]).map (fun pool => (pool.shared.epochs.has 0, pool.shared.currentEpoch,
        pool.shared.forgetTimers)) = some (true, 1, []) := by
    decide +kernel
  obtain ⟨last, followed, shape⟩ := Option.map_eq_some_iff.mp result
  simp only [Prod.mk.injEq] at shape
  have pending := (retires last (followPassing_runs followed)).1 0 shape.1 (by rw [shape.2.1]; decide)
  rw [shape.2.2] at pending
  cases pending

/-- Two epochs in order, the first one again before its timer, and the timer. -/
def inOrder : Fin 4 → RatchetCall
  | 0 => .startNewEpoch [peer (client 'b' 2)] none none
  | 1 => .rotateOnMemberChange (.join (peer (client 'c' 3)))
  | 2 => .startNewEpoch [] (some 0) none
  | 3 => .forgetTimer 0

theorem old_epochs_are_forgotten_in_order : ∃ last : RatchetPool (Fin 4) Bytes,
    last.shared.epochs.keys = [1] ∧ Retiring last.shared ∧ (last.shared.forgetTimers = [] →
      ∀ epoch, last.shared.epochs.has epoch = true → epoch = last.shared.currentEpoch) := by
  have result : ((launch platform (client 'a' 1) (create []) inOrder).followPassing installsTimely
      [0, 0, 1, 1, 2, 2, 3, 3]).map (fun pool => pool.shared.epochs.keys) = some [1] := by
    decide +kernel
  obtain ⟨last, followed, kept⟩ := Option.map_eq_some_iff.mp result
  exact ⟨last, kept, old_epochs_are_forgotten platform (client 'a' 1) [] inOrder (followPassing_runs followed)⟩

end Checked
end SFrameRatchet.Forgetting
