import SFrameRatchet.RoomRatchet

/-! Invariants of the ratchet. One that the calls preserve in each of the changes
that they make, where a gate lets them go on, holds in every state of every run
through that gate. -/
namespace SFrameRatchet.Room
open BigEndian Collections Coroutine Throwing Interleaving Crypto JsObject KeyWrap RoomRatchet

variable {K : Type}

/-- The version for which a call is about to store an authentication string. -/
def RatchetSite.verifies : RatchetSite → Option ℤ
  | .wrapping draft true => some draft.version
  | .unwrapping version true => some version
  | _ => none

/-- The calls preserve an invariant of the ratchet. Epochs, strings and timers change
on resumption at a site of their own, which a gate must allow. -/
structure Preserved (allowed : RatchetSite → RoomRatchet K → Prop) (invariant : RoomRatchet K → Prop) : Prop where
  replaces : ∀ {r} peers, invariant r → invariant { r with peers }
  draws : ∀ {r}, invariant r → invariant r.draw
  stores : ∀ {r} bytes, invariant r → invariant (r.store bytes)
  installs : ∀ {draft r} entry, invariant r → allowed (.keying draft true) r →
    invariant (r.install draft.version entry)
  verifies : ∀ {site version r} peerId data, site.verifies = some version → invariant r → allowed site r →
    invariant (r.setSas peerId version data)
  forgets : ∀ {r} epoch, invariant r → invariant (r.forgetEpoch epoch)
  fires : ∀ {r} epoch, invariant r →
    invariant ({ r with forgetTimers := r.forgetTimers.erase epoch }.forgetEpoch epoch)

/-- A call is resumed where the gate allows it, and leaves the invariant at each wait. -/
def granting (allowed : RatchetSite → RoomRatchet K → Prop) (invariant : RoomRatchet K → Prop) :
    Contract RatchetSite (RoomRatchet K) where
  assume site r := invariant r ∧ allowed site r
  moves _ _ _ r := invariant r

namespace Preserved
variable {allowed : RatchetSite → RoomRatchet K → Prop} {invariant : RoomRatchet K → Prop}
  {platform : Platform K} {options : RatchetOptions} {site : RatchetSite} {start r : RoomRatchet K} {α : Type}

/-- The part of a call leaves the invariant wherever it waits and ends. -/
def Leaves (allowed : RatchetSite → RoomRatchet K → Prop) (invariant : RoomRatchet K → Prop) (part : RatchetTask K α)
    (site : RatchetSite) (start r : RoomRatchet K) : Prop :=
  Yields (granting allowed invariant) (fun _ _ r => invariant r) part (fun _ => True) site start r

theorem survives (site : RatchetSite) : Survives (granting allowed invariant) (fun _ _ r => invariant r) site :=
  fun _ _ _ now => ⟨now, fun _ resumed => resumed.1⟩

theorem awaiting_leaves {next : RatchetSite} {outcome : Except JsError α}
    (now : invariant r) :
    Leaves allowed invariant (awaiting next outcome) site start r := by
  apply yields_bind (yields_pause (survives next) now)
  intro _ _ _ _ now _
  exact yields_settle now fun _ _ => trivial

theorem installEpoch_leaves (preserved : Preserved allowed invariant) (draft : EpochDraft) (now : invariant r) :
    Leaves allowed invariant (installEpoch platform options draft) site start r := by
  unfold installEpoch
  dsimp only
  split
  · exact now
  · apply yields_read
    generalize deriveEpochKeyTable platform.crypto _ _ _ _ _ = derived
    apply meets_bind.mpr
    apply meets_awaiting.mpr
    refine ⟨now, fun later resumed => ?_⟩
    cases derived with
    | error refused => exact resumed.1
    | ok keys => exact ⟨preserved.installs _ resumed.1 resumed.2, trivial⟩

theorem installSas_leaves (preserved : Preserved allowed invariant) {next : Bool → RatchetSite} {epoch : ℤ}
    (own : (next true).verifies = some epoch) (peerId : JsString) (dhSecret : Bytes) (now : invariant r) :
    Leaves allowed invariant (installSas platform next peerId epoch dhSecret) site start r := by
  unfold installSas
  dsimp only
  generalize Sas.computeSas platform.crypto dhSecret = computed
  apply meets_bind.mpr
  apply meets_awaiting.mpr
  refine ⟨now, fun later resumed => ?_⟩
  cases computed with
  | error refused => exact resumed.1
  | ok data => exact ⟨preserved.verifies peerId data own resumed.1 resumed.2, trivial⟩

theorem wrapChainKeyForPeer_leaves (preserved : Preserved allowed invariant) (peer : PeerIdentity) (draft : EpochDraft)
    (now : invariant r) :
    Leaves allowed invariant (wrapChainKeyForPeer platform options peer draft) site start r := by
  apply yields_read
  apply yields_bind (yields_update (preserved.draws now))
  intro _ _ _ _ now _
  apply yields_bind (awaiting_leaves now)
  intro _ _ _ _ now _
  apply yields_bind (yields_pause (survives _) now)
  intro _ _ _ _ now _
  apply yields_read
  apply yields_bind (yields_update (preserved.draws now))
  intro _ _ _ _ now _
  apply yields_bind (awaiting_leaves now)
  intro _ _ _ _ now _
  exact ⟨now, trivial⟩

theorem announce_leaves (preserved : Preserved allowed invariant) (draft : EpochDraft) (members : List PeerIdentity)
    (out : List EpochAnnouncement) (now : invariant r) :
    Leaves allowed invariant (announce platform options draft members out) site start r := by
  induction members generalizing out site start r with
  | nil => exact ⟨now, trivial⟩
  | cons peer rest ih =>
    unfold announce
    split
    · exact ih out now
    · apply yields_bind (preserved.wrapChainKeyForPeer_leaves peer draft now)
      intro _ _ _ _ now _
      apply yields_bind (preserved.installSas_leaves rfl _ _ now)
      intro _ _ _ _ now _
      exact ih _ now

theorem beginEpoch_leaves (preserved : Preserved allowed invariant) (members : List PeerIdentity) (version : Option ℤ)
    (viaChainKey : Option Ref) (now : invariant r) :
    Leaves allowed invariant (beginEpoch platform options members version viaChainKey) site start r := by
  apply yields_bind (yields_update (preserved.replaces _ now))
  intro _ _ _ _ now _
  apply yields_read
  cases viaChainKey with
  | some chainKey => exact ⟨now, trivial⟩
  | none =>
    dsimp only
    split
    · apply yields_bind (yields_update (preserved.draws (preserved.stores _ now)))
      intro _ _ _ _ now _
      exact ⟨now, trivial⟩
    · exact now

theorem startNewEpoch_leaves (preserved : Preserved allowed invariant) (members : List PeerIdentity)
    (version : Option ℤ)
    (viaChainKey : Option Ref) (now : invariant r) :
    Leaves allowed invariant (RoomRatchet.startNewEpoch platform options members version viaChainKey) site start r := by
  apply yields_bind (preserved.beginEpoch_leaves members version viaChainKey now)
  intro _ _ draft _ now _
  apply yields_bind (preserved.installEpoch_leaves draft now)
  intro _ _ _ _ now _
  exact preserved.announce_leaves draft members [] now

theorem consumeEpochAnnouncement_leaves (preserved : Preserved allowed invariant) (msg : EpochAnnouncement)
    (now : invariant r) :
    Leaves allowed invariant (RoomRatchet.consumeEpochAnnouncement platform options msg) site start r := by
  unfold RoomRatchet.consumeEpochAnnouncement
  split
  · exact ⟨now, trivial⟩
  · apply yields_bind (yields_settle now fun _ checked => checked)
    intro _ _ _ _ now _
    apply yields_bind (awaiting_leaves now)
    intro _ _ _ _ now _
    apply yields_bind (yields_pause (survives _) now)
    intro _ _ _ _ now _
    apply yields_bind (awaiting_leaves now)
    intro _ _ _ _ now _
    apply yields_read
    apply yields_bind (yields_update (preserved.stores _ now))
    intro _ _ _ _ now _
    apply yields_bind (preserved.installEpoch_leaves _ now)
    intro _ _ _ _ now _
    exact preserved.installSas_leaves rfl _ _ now

theorem rotateOnMemberChange_leaves (preserved : Preserved allowed invariant) (delta : MemberChange)
    (now : invariant r) :
    Leaves allowed invariant (RoomRatchet.rotateOnMemberChange platform options delta) site start r := by
  apply yields_bind (yields_update ?_)
  · intro _ _ _ _ now _
    apply yields_read
    split
    · exact preserved.startNewEpoch_leaves _ _ _ now
    · exact ⟨now, trivial⟩
  · cases delta <;> exact preserved.replaces _ now

theorem rewrapCurrentEpochFor_leaves (preserved : Preserved allowed invariant) (peer : PeerIdentity)
    (now : invariant r) :
    Leaves allowed invariant (RoomRatchet.rewrapCurrentEpochFor platform options peer) site start r := by
  apply yields_read
  split
  · split
    · exact ⟨now, trivial⟩
    · apply yields_bind (preserved.wrapChainKeyForPeer_leaves peer _ now)
      intro _ _ _ _ now _
      apply yields_bind (preserved.installSas_leaves rfl _ _ now)
      intro _ _ _ _ now _
      exact ⟨now, trivial⟩
  · exact ⟨now, trivial⟩

/-- Every call preserves the invariant from its first turn to its end. -/
theorem program_leaves (preserved : Preserved allowed invariant) (call : RatchetCall) (now : invariant r) :
    Leaves allowed invariant (call.program platform options) .start r r := by
  cases call with
  | startNewEpoch members version viaChainKey => exact preserved.startNewEpoch_leaves _ _ _ now
  | consumeEpochAnnouncement msg =>
    apply yields_bind (preserved.consumeEpochAnnouncement_leaves msg now)
    intro _ _ _ _ now _
    exact ⟨now, trivial⟩
  | rotateOnMemberChange delta => exact preserved.rotateOnMemberChange_leaves delta now
  | rewrapCurrentEpochFor peer => exact preserved.rewrapCurrentEpochFor_leaves peer now
  | forgetEpoch epoch =>
    apply yields_bind (yields_update (preserved.forgets epoch now))
    intro _ _ _ _ now _
    exact ⟨now, trivial⟩
  | forgetTimer epoch =>
    have fires : Leaves allowed invariant (RoomRatchet.forgetTimer epoch) .start r r := by
      apply meets_bind.mpr
      apply meets_pauseUntil.mpr
      exact ⟨now, fun later _ resumed => ⟨preserved.fires epoch resumed.1, trivial⟩⟩
    apply yields_bind fires
    intro _ _ _ _ now _
    exact ⟨now, trivial⟩

/-- The invariant holds in every state that a run through the gate reaches. -/
theorem runs_preserve (preserved : Preserved allowed invariant) {ι : Type} [DecidableEq ι] {calls : ι → RatchetCall}
    {last : RatchetPool ι K} (begins : invariant r)
    (run : Runs (whereAllowed allowed) (launch platform options r calls) last) : invariant last.shared := by
  refine runs_invariant (fun _ => granting allowed invariant) (fun _ _ _ _ r => invariant r)
    (fun r _ => invariant r) begins (launch_follows fun call r resumed => ?_)
    (fun before call site after holds waits _ passes => ⟨holds, passes site waits⟩)
    (fun before call site after _ _ _ _ moved => ?_) run
  · apply Contract.keeps_mono (preserved.program_leaves (calls call) resumed.1)
    intro _ _ outcome _ holds
    cases outcome with
    | ok value => exact holds.1
    | error refused => exact holds
  · generalize after.statuses call = reached at moved
    cases reached with
    | running => exact moved.elim
    | suspended next => exact moved
    | finished outcome => exact moved

end Preserved
end SFrameRatchet.Room
