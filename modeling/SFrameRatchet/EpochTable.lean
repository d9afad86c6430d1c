import SFrameRatchet.DecodeWalk

/-! The epochs a worker has installed, the current one, the lowest valid one and
the wipe timers. Only the messages that install an epoch, the timers and the
teardown touch them, so a reading of them is carried through every call by what
it says of these three steps. -/
namespace SFrameRatchet.EpochTable
open Collections Crypto Kid Header SFrame CodecPartial Throwing Coroutine Media Unsealing

variable {K G : Type} {runtime : Runtime K G}

def epochTable (w : Worker K G) := (w.epochs, w.currentEpoch, w.currentMinValidEpoch, w.wipeTimers)

/-- The reading is about the epoch table and nothing else. -/
def Tabular (holds : Reading K G) : Prop :=
  ∀ at_ start w w', holds at_ start w → epochTable w' = epochTable w → holds at_ start w'

/-- The reading is about the epoch table and how many entries there have been. -/
def Stocked (holds : Reading K G) : Prop :=
  ∀ at_ start w w', holds at_ start w → (epochTable w', w'.entries.next) = (epochTable w, w.entries.next) →
    holds at_ start w'

theorem Tabular.stocked {holds : Reading K G} (tabular : Tabular holds) : Stocked holds :=
  fun _ _ w w' now same => tabular _ _ w w' now (Prod.mk.inj same).1

variable {holds : Reading K G} {contract : Contract AwaitPoint (Worker K G)} {at_ : AwaitPoint}
  {start w w' : Worker K G}

namespace Stocked
variable (stocked : Stocked holds)

include stocked

theorem undecoded : DecodeWalk.Undecoded holds := by
  intro _ _ w w' now same
  have table (v : Worker K G) : epochTable (DecodeWalk.beyondDecoding v) = epochTable v := rfl
  have next (v : Worker K G) : (DecodeWalk.beyondDecoding v).entries.next = v.entries.next := rfl
  apply stocked _ _ w w' now
  rw [← table, ← table w, ← next, ← next w, same]

theorem unconfigured : Unconfigured holds := fun _ _ w w' now same =>
  stocked _ _ w w' now (congrArg (fun v => (epochTable v, v.entries.next)) same :
    (epochTable (beyondConfiguration w'), (beyondConfiguration w').entries.next) = _)

theorem unencoded (frame : Ref) : FrameWalk.Unencoded holds frame := fun _ _ w w' now encodes =>
  stocked _ _ w w' now (congrArg (fun v => (epochTable v, v.entries.next)) encodes.same :
    (epochTable (FrameWalk.beyondEncoding w'), (FrameWalk.beyondEncoding w').entries.next) = _)

end Stocked

/-! ## The steps that change the table -/

theorem epochTable_core (same : w'.core = w.core) : epochTable w' = epochTable w :=
  (congrArg epochTable same : epochTable w'.core = epochTable w.core)

theorem epochTable_installEpoch {epoch selfPeerIndex : ℤ} {bundles : KeyBundles K}
    (ok : w.installEpoch epoch selfPeerIndex bundles = .ok w') :
    ∃ ref, epochTable w' = if epoch > w.currentEpoch then
        epochTable ({ w with epochs := w.epochs.set epoch ref, currentEpoch := epoch }.scheduleWipeOfEpochsBelow
          epoch)
      else epochTable { w with epochs := w.epochs.set epoch ref } := by
  obtain ⟨keys, -, same⟩ := Worker.core_installEpoch ok
  refine ⟨w.entries.next, ?_⟩
  have table : epochTable w' = epochTable w'.core := rfl
  rw [table, same]
  split <;> rfl

/-- A timer is pending for an epoch when it was before, or when the epoch has
just fallen below the new one. -/
theorem scheduled_iff {epoch newEpoch : ℤ} :
    (w.scheduleWipeOfEpochsBelow newEpoch).wipeTimers.has epoch = true ↔
      w.wipeTimers.has epoch = true ∨ w.epochs.has epoch = true ∧ epoch < newEpoch := by
  have listed : w.epochs.has epoch = true ↔ epoch ∈ w.epochs.keys := OrderedMap.mem_keys.symm
  simp only [listed, Worker.scheduleWipeOfEpochsBelow]
  generalize w.epochs.keys = installed
  generalize w.wipeTimers = timers
  induction installed generalizing timers with
  | nil => simp
  | cons first rest ih =>
    apply (ih _).trans
    dsimp only
    split
    · rename_i kept
      by_cases same : epoch = first
      · simp [same, Int.not_lt.mpr kept]
      · simp [same]
    · rename_i below
      split
      · rename_i pending
        by_cases same : epoch = first
        · simp [same, pending]
        · simp [same]
      · rw [OrderedMap.has_set, List.mem_cons]
        by_cases same : epoch = first
        · simp [same, Int.not_le.mp below]
        · simp [same]

/-! ## Calls -/

/-- The epoch, own index and keys that a message installs. -/
def Installs (call : Call K) (epoch selfPeerIndex : ℤ) (keys : KeyBundles K) : Prop :=
  call = .message (.epoch epoch selfPeerIndex keys) ∨ call = .message (.rotate epoch selfPeerIndex keys)

/-- Every call keeps a reading of the table that its first step keeps. -/
theorem program_yields (stocked : Stocked holds) (survives : ∀ site, Survives contract holds site) {call : Call K}
    (now : holds at_ start w)
    (installs : ∀ epoch selfPeerIndex keys, Installs call epoch selfPeerIndex keys → ∀ installed,
      w.installEpoch epoch selfPeerIndex keys = .ok installed → holds at_ start installed)
    (wipes : ∀ epoch, call = .wipeTimer epoch → w.wipeTimers.has epoch = true →
      holds at_ start (w.wipeEpoch runtime.guard epoch))
    (tearsDown : call = .message .teardown → holds at_ start w.teardown) :
    Yields contract holds (call.program runtime) (fun _ => True) at_ start w := by
  refine DecodeWalk.program_yields stocked.undecoded survives now (fun msg own => ?_)
    (fun ref _ _ now => FrameWalk.encodeFrame_yields (stocked.unencoded ref) (fun _ _ => survives _) _ now) wipes
  subst own
  refine DecodeWalk.handleMessage_yields stocked.undecoded.ring stocked.undecoded.walked
    (fun site _ _ => survives site) stocked.unconfigured now ?_ fun same => tearsDown (by rw [same])
  intro epoch selfPeerIndex keys named
  exact installs _ _ _ (named.imp (congrArg Call.message) (congrArg Call.message))

end SFrameRatchet.EpochTable
