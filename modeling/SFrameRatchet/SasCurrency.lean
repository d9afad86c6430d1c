import Mathlib.Tactic.FinCases
import SFrameRatchet.RatchetInvariants
import SFrameRatchet.RoomSpecimen

/-! The epoch of a stored authentication string. An advance wipes the strings of
older epochs, but a call that was deriving one stores it all the same, and so does
a call that installs an epoch behind the current one. Where no call does either,
each string is one of the current epoch. -/
namespace SFrameRatchet.SasCurrency
open Collections Coroutine Throwing Interleaving Room RoomRatchet

variable {K : Type}

/-- Every stored string is one of the current epoch. -/
def SasCurrent (r : RoomRatchet K) : Prop :=
  ∀ peerId state, r.sasState.get? peerId = some state → state.epoch = r.currentEpoch

/-- A call that is about to store a string has derived it for the current epoch. -/
def StoresCurrent (site : RatchetSite) (r : RoomRatchet K) : Prop :=
  ∀ version, site.verifies = some version → version = r.currentEpoch

instance (site : RatchetSite) (r : RoomRatchet K) : Decidable (StoresCurrent site r) :=
  match held : site.verifies with
  | some version => decidable_of_iff (version = r.currentEpoch)
      ⟨fun same other stored => by cases held.symm.trans stored; exact same, fun current => current version held⟩
  | none => isTrue fun _ stored => by cases held.symm.trans stored

variable {r r' : RoomRatchet K} {version : ℤ} {entry : EpochState K}

/-! ## Steps -/

theorem sasCurrent_create (initialPeers : List PeerIdentity) : SasCurrent (create initialPeers : RoomRatchet K) := by
  intro _ _ stored
  cases stored

theorem sasCurrent_of (current : SasCurrent r) (strings : r'.sasState = r.sasState)
    (epoch : r'.currentEpoch = r.currentEpoch) : SasCurrent r' := by
  unfold SasCurrent
  rw [strings, epoch]
  exact current

/-- What a loop over entries leaves of a table was there, and none of them names it
to be dropped. -/
theorem left_of_entries {κ ν : Type} [DecidableEq κ] (drops : ν → Prop) [DecidablePred drops]
    {entries : List (κ × ν)} {table : OrderedMap κ ν} {key : κ} {value : ν}
    (left : (entries.foldl (fun table entry => if drops entry.2 then table.delete entry.1 else table) table).get? key =
      some value) :
    table.get? key = some value ∧ ∀ other, (key, other) ∈ entries → ¬ drops other := by
  induction entries generalizing table with
  | nil => exact ⟨left, fun _ none => by cases none⟩
  | cons entry rest ih =>
    obtain ⟨kept, later⟩ := ih left
    have apart : table.get? key = some value ∧ (drops entry.2 → entry.1 ≠ key) := by
      dsimp only at kept
      split at kept
      · rw [OrderedMap.get?_delete] at kept
        split at kept
        · cases kept
        · rename_i different
          exact ⟨kept, fun _ same => different same.symm⟩
      · rename_i spared
        exact ⟨kept, fun drops => absurd drops spared⟩
    refine ⟨apart.1, fun other member drops => ?_⟩
    rcases List.mem_cons.mp member with rfl | old
    · exact apart.2 drops rfl
    · exact later other old drops

/-- A string that an advance leaves is not older than the epoch it advances to. -/
theorem left_of_wipe {peerId : JsObject.JsString} {state : PeerSasState}
    (left : (r.wipeSasForRotation version).sasState.get? peerId = some state) :
    r.sasState.get? peerId = some state ∧ version ≤ state.epoch := by
  obtain ⟨held, spared⟩ := left_of_entries (fun state : PeerSasState => state.epoch < version) left
  exact ⟨held, not_lt.mp (spared state (OrderedMap.mem_entries.mpr held))⟩

/-- Where all strings are current, an advance leaves none. -/
theorem sasCurrent_install (current : SasCurrent r) : SasCurrent (r.install version entry) := by
  intro peerId state stored
  rw [install_currentEpoch]
  by_cases advances : version > r.currentEpoch
  · have left : ({ r with epochs := r.epochs.set version entry, currentEpoch := version }.wipeSasForRotation
        version).sasState.get? peerId = some state := by
      simp only [install, advances, ↓reduceIte] at stored
      split at stored <;> exact stored
    obtain ⟨held, newer⟩ := left_of_wipe left
    have old : state.epoch = r.currentEpoch := current peerId state held
    omega
  · have held : r.sasState.get? peerId = some state := by
      simpa only [install, advances, ↓reduceIte] using stored
    rw [current peerId state held]
    omega

theorem sasCurrent_setSas {peerId : JsObject.JsString} {data : Sas.SasData} (current : SasCurrent r)
    (same : version = r.currentEpoch) : SasCurrent (r.setSas peerId version data) := by
  intro other state stored
  change (r.sasState.set peerId _).get? other = some state at stored
  rw [OrderedMap.get?_set] at stored
  split at stored
  · cases stored
    exact same
  · exact current other state stored

theorem sasCurrent_forgetEpoch (current : SasCurrent r) (epoch : ℤ) : SasCurrent (r.forgetEpoch epoch) := by
  apply sasCurrent_of current
  · unfold forgetEpoch
    split <;> rfl
  · exact forgetEpoch_currentEpoch r epoch

theorem sasCurrent_preserved : Preserved StoresCurrent (SasCurrent : RoomRatchet K → Prop) where
  replaces _ current := sasCurrent_of current rfl rfl
  draws current := sasCurrent_of current rfl rfl
  stores _ current := sasCurrent_of current rfl rfl
  installs _ current _ := sasCurrent_install current
  verifies _ _ stores current allowed := sasCurrent_setSas current (allowed _ stores)
  forgets epoch current := sasCurrent_forgetEpoch current epoch
  fires epoch current := by
    apply sasCurrent_forgetEpoch
    exact sasCurrent_of current rfl rfl

/-! ## Runs -/

/-- The gate of the runs in which strings are stored for the current epoch only. -/
def storesCurrent {ι : Type} : RatchetPool ι K → ι → RatchetPool ι K → Prop := whereAllowed StoresCurrent

instance {ι : Type} (before : RatchetPool ι K) (call : ι) (after : RatchetPool ι K) :
    Decidable (storesCurrent before call after) :=
  inferInstanceAs (Decidable (whereAllowed StoresCurrent before call after))

/-- The call has not begun, or has ended. -/
def resting : Status RatchetSite (Except JsError (List EpochAnnouncement)) → Bool
  | .suspended .start | .finished _ => true
  | _ => false

/-- No call is in flight. -/
def Idle {ι : Type} (pool : RatchetPool ι K) : Prop := ∀ call, resting (pool.statuses call) = true

instance {ι : Type} [Fintype ι] (pool : RatchetPool ι K) : Decidable (Idle pool) :=
  inferInstanceAs (Decidable (∀ _, _))

/-- In every run in which no call stores a string for another epoch than the
current one, every stored string is one of the current epoch. -/
theorem stored_strings_are_current {ι : Type} [DecidableEq ι] (platform : KeyWrap.Platform K)
    (options : RatchetOptions) (initialPeers : List PeerIdentity) (calls : ι → RatchetCall) {last : RatchetPool ι K}
    (run : Runs storesCurrent (launch platform options (create initialPeers) calls) last) : SasCurrent last.shared :=
  sasCurrent_preserved.runs_preserve (sasCurrent_create initialPeers) run

section Checked
open RoomSpecimen (platform client peer)

/-- What a sends to b for the epoch of a version. -/
def mail (version : ℤ) : List EpochAnnouncement :=
  match alone (RoomRatchet.startNewEpoch platform (client 'a' 1) [peer (client 'b' 2)] (some version) none)
    (create []) with
  | some (.ok msgs, _) => msgs
  | _ => []

/-- b is told of epochs, each in a call of its own. -/
def told (versions : List ℤ) (call : Fin 2) : RatchetCall :=
  match (versions.flatMap mail)[call.val]? with
  | some msg => .consumeEpochAnnouncement msg
  | none => .forgetEpoch 0

/-- An announcement that comes late leaves a string of its own epoch. -/
theorem late_announcement_string : ¬ ∀ last : RatchetPool (Fin 2) Bytes,
    Runs anyTurn (launch platform (client 'b' 2) (create []) (told [1, 0])) last → Idle last →
      SasCurrent last.shared := by
  intro current
  have result : ((launch platform (client 'b' 2) (create []) (told [1, 0])).followPassing anyTurn
      [0, 0, 0, 0, 0, 0, 1, 1, 1, 1, 1, 1]).map (fun pool => (decide (Idle pool), pool.shared.currentEpoch,
        (pool.shared.sasState.get? (client 'a' 1).identity.peerId).map PeerSasState.epoch)) =
      some (true, 1, some 0) := by
    decide +kernel
  obtain ⟨last, followed, shape⟩ := Option.map_eq_some_iff.mp result
  simp only [Prod.mk.injEq, decide_eq_true_eq, Option.map_eq_some_iff] at shape
  obtain ⟨idle, epoch, state, stored, old⟩ := shape
  have same := current last (followPassing_runs followed) idle _ state stored
  omega

theorem stored_strings_are_current_told : ∃ last : RatchetPool (Fin 2) Bytes,
    last.shared.sasState.keys = [(client 'a' 1).identity.peerId] ∧ last.shared.currentEpoch = 1 ∧
      SasCurrent last.shared := by
  have result : ((launch platform (client 'b' 2) (create []) (told [0, 1])).followPassing storesCurrent
      [0, 0, 0, 0, 0, 0, 1, 1, 1, 1, 1, 1]).map (fun pool => (pool.shared.sasState.keys, pool.shared.currentEpoch)) =
      some ([(client 'a' 1).identity.peerId], 1) := by
    decide +kernel
  obtain ⟨last, followed, shape⟩ := Option.map_eq_some_iff.mp result
  simp only [Prod.mk.injEq] at shape
  exact ⟨last, shape.1, shape.2, stored_strings_are_current platform (client 'b' 2) [] (told [0, 1])
    (followPassing_runs followed)⟩

end Checked
end SFrameRatchet.SasCurrency
