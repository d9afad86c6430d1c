import SFrameRatchet.WorkerFrame

/-! What is posted to the main thread when a frame fails or an epoch comes. Such a report
adds messages and counts failures, and nothing else of the worker changes; that frames
are given up for want of room or of a key is signalled elsewhere. -/
namespace SFrameRatchet.Media
open Header

variable {K G : Type} {w w' : Worker K G}

/-- The signals of frames that are given up for want of room or of a key. -/
def alarming : OutMsg → Bool
  | .decryptFailure .queueOverflow .. => true
  | .decryptStarved .. => true
  | .encryptFailure .. => true
  | _ => false

/-- Messages are added, none of them alarming, and failures are counted. -/
def Posted (w w' : Worker K G) : Prop :=
  ∃ more failureCounts, w' = { w with emitted := w.emitted ++ more, failureCounts } ∧ ∀ msg ∈ more, alarming msg = false

theorem posted_counts (w : Worker K G) (failureCounts : Collections.OrderedMap (ℤ × ℤ) ℕ) :
    Posted w { w with failureCounts } :=
  ⟨[], failureCounts, by rw [List.append_nil], nofun⟩

theorem posted_refl (w : Worker K G) : Posted w w := posted_counts w w.failureCounts

theorem Posted.trans {v : Worker K G} (first : Posted w w') (second : Posted w' v) : Posted w v := by
  obtain ⟨more, counts, rfl, quiet⟩ := first
  obtain ⟨further, recounts, rfl, quietNext⟩ := second
  refine ⟨more ++ further, recounts, by simp only [List.append_assoc], fun msg member => ?_⟩
  rcases List.mem_append.mp member with early | late
  · exact quiet msg early
  · exact quietNext msg late

theorem posted_emit (w : Worker K G) {msg : OutMsg} (quiet : alarming msg = false) : Posted w (w.emit msg) :=
  ⟨[msg], w.failureCounts, rfl, by simpa using quiet⟩

theorem posted_emitMetric (w : Worker K G) (event : MetricsEvent) : Posted w (w.emitMetric event) := by
  unfold Worker.emitMetric
  split
  · exact posted_emit w rfl
  · exact posted_refl w

theorem posted_recordSuccess (w : Worker K G) (epoch peerIndex : ℤ) : Posted w (w.recordSuccess epoch peerIndex) := by
  unfold Worker.recordSuccess
  split
  · exact posted_refl w
  · exact posted_counts w _

theorem posted_recordFailure (w : Worker K G) (epoch peerIndex : ℤ) : Posted w (w.recordFailure epoch peerIndex) := by
  unfold Worker.recordFailure
  split
  · exact posted_refl w
  · dsimp only
    split
    · exact (posted_counts w _).trans (posted_emitMetric _ _)
    · exact posted_counts w _

theorem posted_reportDrop (w : Worker K G) (reason : DecryptFailure) (other : reason ≠ .queueOverflow)
    (hdr : SFrameHeader)
    (epoch peerIndex : ℤ) : Posted w (reportDrop w reason hdr epoch peerIndex) := by
  apply posted_emit
  cases reason <;> first | rfl | exact absurd rfl other

theorem posted_reportStale (w : Worker K G) (hdr : SFrameHeader) (epoch peerIndex : ℤ) (event : MetricsEvent) :
    Posted w ((reportDrop w .staleEpoch hdr epoch peerIndex).emitMetric event) :=
  (posted_reportDrop w .staleEpoch nofun hdr epoch peerIndex).trans (posted_emitMetric _ event)

theorem posted_reportReplay (w : Worker K G) (hdr : SFrameHeader) (epoch peerIndex : ℤ) :
    Posted w (reportReplay w hdr epoch peerIndex) :=
  ((posted_reportDrop w .replay nofun hdr epoch peerIndex).trans (posted_emitMetric _ _)).trans (posted_emitMetric _ _)

theorem posted_reportKeyInvalid (w : Worker K G) (hdr : SFrameHeader) (epoch peerIndex : ℤ) :
    Posted w (reportKeyInvalid w hdr epoch peerIndex) :=
  (posted_reportDrop w .keyInvalid nofun hdr epoch peerIndex).trans (posted_emitMetric _ _)

theorem posted_failDecode (w : Worker K G) (vars : HeaderVars) (err : JsError) : Posted w (failDecode w vars err) := by
  unfold failDecode
  dsimp only
  generalize counted : (if vars.epoch ≥ 0 ∧ vars.peerIndex ≥ 0 ∧ err.isAeadFailure then
    w.recordFailure vars.epoch vars.peerIndex else w) = v
  have counts : Posted w v := by
    rw [← counted]
    split
    · exact posted_recordFailure w _ _
    · exact posted_refl w
  split
  · exact counts.trans (posted_emitMetric _ _)
  · exact counts.trans (posted_emitMetric _ _)
  · exact counts.trans (posted_emitMetric _ _)
  · exact (counts.trans (posted_emitMetric _ _)).trans (posted_emit _ rfl)

theorem posted_failDrain (w : Worker K G) (err : JsError) : Posted w (failDrain w err) := by
  unfold failDrain
  dsimp only
  split
  · exact (posted_recordFailure w _ _).trans (posted_emit _ rfl)
  · exact (posted_recordFailure w _ _).trans (posted_emit _ rfl)
  · exact posted_emit w rfl

/-- An install posts that the epoch is current, and forgets failures. -/
theorem posted_installEpoch {epoch selfPeerIndex : ℤ} {keys : KeyBundles K}
    (ok : w.installEpoch epoch selfPeerIndex keys = .ok w') :
    ∃ more, w'.emitted = w.emitted ++ more ∧ ∀ msg ∈ more, alarming msg = false := by
  have reset (peers : List ℤ) (v : Worker K G) :
      (peers.foldl (fun state pi => state.resetFailureCount epoch pi) v).emitted = v.emitted := by
    induction peers generalizing v with
    | nil => rfl
    | cons peer rest ih => exact ih _
  unfold Worker.installEpoch at ok
  cases made : Worker.installKeys w.kidCodec epoch keys.entries ∅ with
  | error refused => simp [made, bind, Except.bind] at ok
  | ok table =>
    simp only [made, bind, Except.bind] at ok
    generalize fresh : keys.keys.foldl _ _ = state at ok
    have same : state.emitted = w.emitted := fresh ▸ reset _ _
    split at ok
    · generalize scheduled : { state with
        currentEpoch := epoch, selfPeerIndex := some selfPeerIndex
        ctr := 0 }.scheduleWipeOfEpochsBelow epoch = v at ok
      replace same : v.emitted = w.emitted := by
        rw [← scheduled]
        exact same
      have applied : Posted v (v.emit (.epochApplied epoch)) := posted_emit v rfl
      split at ok <;> cases ok
      · obtain ⟨more, counts, posted, quiet⟩ := applied.trans (posted_emitMetric _ (.epochAdvance w.currentEpoch epoch))
        rw [posted]
        exact ⟨more, congrArg (· ++ more) same, quiet⟩
      · obtain ⟨more, counts, posted, quiet⟩ := applied
        rw [posted]
        exact ⟨more, congrArg (· ++ more) same, quiet⟩
    · cases ok
      exact ⟨[], by rw [same, List.append_nil], nofun⟩

/-! ## What does not go by reports -/

/-- Whatever goes by neither the messages nor the failures is left alone. -/
theorem Posted.view {α : Type*} (posted : Posted w w') (view : Worker K G → α)
    (blind : ∀ (v : Worker K G) emitted failureCounts, view { v with emitted, failureCounts } = view v) :
    view w' = view w := by
  obtain ⟨more, counts, rfl, -⟩ := posted
  exact blind w _ _

/-- A report is not heard where one listens for alarming signals. -/
theorem Posted.filter (posted : Posted w w') {listens : OutMsg → Bool}
    (loud : ∀ msg, listens msg = true → alarming msg = true) :
    w'.emitted.filter listens = w.emitted.filter listens := by
  obtain ⟨more, counts, rfl, quiet⟩ := posted
  have nothing : more.filter listens = [] := by
    rw [List.filter_eq_nil_iff]
    intro msg member hears
    cases (loud msg hears).symm.trans (quiet msg member)
  rw [List.filter_append, nothing, List.append_nil]

end SFrameRatchet.Media
