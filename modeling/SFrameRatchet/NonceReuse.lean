import Mathlib.Tactic.FinCases
import SFrameRatchet.Readings
import SFrameRatchet.Specimen

/-! Under which keys and IVs a worker seals over whole runs of messages and
encoded frames. The counter is one field for all keys; what protects a key is
that the counter only goes up while the key's epoch is the current one, so the
question is whether an epoch can become the current one again. -/
namespace SFrameRatchet.NonceReuse
open Collections Crypto Kid Header SFrame CodecPartial Throwing Coroutine Interleaving Media

variable {K G : Type}

/-- The calls of a sending worker: messages, wipe timers, the passing of time
and frames to encode. -/
inductive SenderCall (K : Type) where
  | message (msg : InMsg K)
  | wipeTimer (epoch : ℤ)
  | tick (elapsed : ℕ)
  | encodeFrame (frame : EncodedFrame)
  | transform (frame : EncodedFrame)

def SenderCall.call : SenderCall K → Call K
  | message msg => .message msg
  | wipeTimer epoch => .wipeTimer epoch
  | tick elapsed => .tick elapsed
  | encodeFrame frame => .encodeFrame frame
  | transform frame => .transform .encode frame

/-- The epoch and the bundles that a call installs. -/
def SenderCall.installs : SenderCall K → Option (ℤ × KeyBundles K)
  | message (.epoch epoch _ keys) => some (epoch, keys)
  | message (.rotate newEpoch _ keys) => some (newEpoch, keys)
  | _ => none

/-- Bundles carry a key with a salt. -/
def Carried (keys : KeyBundles K) (cryptoKey : K) (salt : Bytes) : Prop :=
  ∃ bundle ∈ keys.values, bundle.cryptoKey = cryptoKey ∧ bundle.salt = salt

/-- No key of the bundles has sealed anything, and none comes with two salts. -/
def Unspent (keys : KeyBundles K) (sealings : List (Sealing K)) : Prop :=
  (∀ bundle ∈ keys.values, ∀ earlier ∈ sealings, earlier.cryptoKey ≠ bundle.cryptoKey) ∧
    ∀ bundle ∈ keys.values, ∀ other ∈ keys.values, bundle.cryptoKey = other.cryptoKey →
      bundle.salt = other.salt

instance [DecidableEq K] (keys : KeyBundles K) (sealings : List (Sealing K)) :
    Decidable (Unspent keys sealings) := inferInstanceAs (Decidable (_ ∧ _))

/-- What a call that makes another epoch the current one installs is unspent. -/
def AdvancesUnspent (call : SenderCall K) (w : Worker K G) : Prop :=
  match call.installs with
  | some (epoch, keys) => epoch > w.currentEpoch → Unspent keys w.sealings
  | none => True

instance [DecidableEq K] (call : SenderCall K) (w : Worker K G) :
    Decidable (AdvancesUnspent call w) := by
  unfold AdvancesUnspent
  split <;> infer_instance

/-- Two encryptions differ in their key or in their IV. -/
def Apart (first second : Sealing K) : Prop :=
  ¬ (first.cryptoKey = second.cryptoKey ∧ first.iv = second.iv)

/-! ## The invariant -/

/-- Whatever the current epoch's keys have sealed, they sealed below the
counter. -/
structure Nonces (table : ℤ → KeyBundles K) (w : Worker K G) : Prop where
  queue : w.preEpochQueue = []
  allocated : ∀ epoch ref, w.epochs.get? epoch = some ref → ref < w.entries.next
  keys : ∀ epoch ref peerIndex key, w.epochs.get? epoch = some ref →
    (w.entries.read ref).keys.get? peerIndex = some key →
    0 ≤ epoch ∧ Carried (table epoch) key.cryptoKey key.salt
  oneSalt : 0 ≤ w.currentEpoch → ∀ cryptoKey salt other,
    Carried (table w.currentEpoch) cryptoKey salt → Carried (table w.currentEpoch) cryptoKey other →
    salt = other
  spent : 0 ≤ w.currentEpoch → ∀ earlier ∈ w.sealings, ∀ salt,
    Carried (table w.currentEpoch) earlier.cryptoKey salt →
    deriveIv salt earlier.ctr = .ok earlier.iv ∧ earlier.ctr < w.ctr
  small : ∀ earlier ∈ w.sealings, earlier.ctr < 2 ^ 64
  apart : w.sealings.Pairwise Apart

variable {table : ℤ → KeyBundles K} {w w' : Worker K G}

theorem nonces_created : Nonces table (Worker.createWorkerState : Worker K G) where
  queue := rfl
  allocated _ _ held := by cases held
  keys _ _ _ _ held := by cases held
  oneSalt never := by cases never
  spent never := by cases never
  small _ member := by cases member
  apart := .nil

/-- The invariant is about these fields. -/
private def noncing (w : Worker K G) :=
  (w.preEpochQueue, w.epochs, w.entries, w.currentEpoch, w.sealings, w.ctr)

private theorem nonces_of (holds : Nonces table w) (same : noncing w' = noncing w) :
    Nonces table w' := by
  simp only [noncing, Prod.mk.injEq] at same
  obtain ⟨queue, epochs, entries, current, sealings, ctr⟩ := same
  constructor
  · rw [queue]; exact holds.queue
  · rw [epochs, entries]; exact holds.allocated
  · rw [epochs, entries]; exact holds.keys
  · rw [current]; exact holds.oneSalt
  · rw [current, sealings, ctr]; exact holds.spent
  · rw [sealings]; exact holds.small
  · rw [sealings]; exact holds.apart

theorem nonces_of_core (holds : Nonces table w) (same : w'.core = w.core) : Nonces table w' :=
  nonces_of holds (congrArg noncing same : noncing w'.core = noncing w.core)

/-- Giving an epoch an entry with its own bundles keeps the invariant. -/
theorem nonces_withEntry (holds : Nonces table w) {epoch : ℤ} (selfPeerIndex : ℤ)
    {keys : OrderedMap ℤ (RatchetKey K)}
    (made : Worker.installKeys w.kidCodec epoch (table epoch).entries ∅ = .ok keys) :
    Nonces table (w.withEntry epoch selfPeerIndex keys) where
  queue := holds.queue
  allocated other ref held := by
    simp only [Worker.withEntry, OrderedMap.get?_set, Heap.next_alloc] at held ⊢
    split at held
    · cases held; exact Nat.lt_succ_self _
    · exact Nat.lt_succ_of_lt (holds.allocated other ref held)
  keys other ref peerIndex key held cached := by
    simp only [Worker.withEntry, OrderedMap.get?_set, Heap.read_alloc] at held cached
    split at held
    · rename_i same
      subst same
      cases held
      rw [if_pos rfl] at cached
      rcases Worker.installKeys_held made cached with early | ⟨named, bundle, member, cryptoKey, salt, -⟩
      · cases early
      · exact ⟨named, bundle, member, cryptoKey, salt⟩
    · rw [if_neg (Nat.ne_of_lt (holds.allocated other ref held))] at cached
      exact holds.keys other ref peerIndex key held cached
  oneSalt := holds.oneSalt
  spent := holds.spent
  small := holds.small
  apart := holds.apart

theorem nonces_installEpoch (holds : Nonces table w) {epoch selfPeerIndex : ℤ}
    (unspent : epoch > w.currentEpoch → Unspent (table epoch) w.sealings)
    (installed : w.installEpoch epoch selfPeerIndex (table epoch) = .ok w') : Nonces table w' := by
  obtain ⟨keys, made, same⟩ := Worker.core_installEpoch installed
  have entered := nonces_withEntry holds selfPeerIndex made
  split at same
  · rename_i above
    obtain ⟨untouched, oneSalt⟩ := unspent above
    refine nonces_of_core (w := { w.withEntry epoch selfPeerIndex keys with
      currentEpoch := epoch, selfPeerIndex := some selfPeerIndex
      ctr := 0 }.scheduleWipeOfEpochsBelow epoch) ?_ same
    refine ⟨entered.queue, entered.allocated, entered.keys, ?_, ?_, entered.small, entered.apart⟩
    · rintro - cryptoKey salt other ⟨first, member, rfl, rfl⟩ ⟨second, member', same, rfl⟩
      exact oneSalt first member second member' same.symm
    · rintro - earlier member salt ⟨bundle, carried, equal, -⟩
      exact absurd equal.symm (untouched bundle carried earlier member)
  · exact nonces_of_core entered same

theorem nonces_wipeEpoch (holds : Nonces table w) (guard : ReplayGuard G) (epoch : ℤ) :
    Nonces table (w.wipeEpoch guard epoch) where
  queue := holds.queue
  allocated other ref held := by
    simp only [Worker.wipeEpoch, OrderedMap.get?_delete] at held ⊢
    split at held
    · cases held
    · split <;> exact holds.allocated other ref held
  keys other ref peerIndex key held cached := by
    simp only [Worker.wipeEpoch, OrderedMap.get?_delete] at held cached
    split at held
    · cases held
    · split at cached
      · rename_i wiped installed
        rw [Heap.read_write] at cached
        split at cached
        · rename_i same
          subst same
          simp only [Worker.zeroizeEntry, OrderedMap.get?_mapValues] at cached
          obtain ⟨full, before, rfl⟩ := Option.map_eq_some_iff.mp cached
          exact holds.keys other ref peerIndex full held before
        · exact holds.keys other ref peerIndex key held cached
      · exact holds.keys other ref peerIndex key held cached
  oneSalt := holds.oneSalt
  spent := holds.spent
  small := holds.small
  apart := holds.apart

/-- After teardown no epoch is the current one. -/
theorem nonces_teardown (holds : Nonces table w) : Nonces table w.teardown where
  queue := rfl
  allocated _ _ held := by cases held
  keys _ _ _ _ held := by cases held
  oneSalt never := by cases never
  spent never := by cases never
  small := holds.small
  apart := holds.apart

/-- One more encryption at the counter, under a key of the current epoch. -/
theorem nonces_noteSealing (holds : Nonces table w) {entry : Ref} {peerIndex : ℤ}
    {key : RatchetKey K} (installed : w.epochs.get? w.currentEpoch = some entry)
    (held : (w.entries.read entry).keys.get? peerIndex = some key) (fits : w.ctr < 2 ^ 64) :
    Nonces table (noteSealing { w with ctr := w.ctr + 1 } key.toSFrameKey w.ctr) := by
  obtain ⟨named, carried⟩ := holds.keys _ _ _ _ installed held
  have counted : Nonces table { w with ctr := w.ctr + 1 } :=
    { holds with spent := fun current earlier member salt carries =>
        have ⟨iv, below⟩ := holds.spent current earlier member salt carries
        ⟨iv, Nat.lt_succ_of_lt below⟩ }
  unfold noteSealing
  split
  · exact counted
  · rename_i iv derived
    refine { counted with spent := ?_, small := ?_, apart := ?_ }
    · intro current earlier member salt carries
      rcases List.mem_append.mp member with old | new
      · exact counted.spent current earlier old salt carries
      · obtain rfl := List.mem_singleton.mp new
        obtain rfl := holds.oneSalt current _ _ _ carried carries
        exact ⟨derived, Nat.lt_succ_self _⟩
    · intro earlier member
      rcases List.mem_append.mp member with old | new
      · exact holds.small earlier old
      · obtain rfl := List.mem_singleton.mp new
        exact fits
    · refine List.pairwise_append.mpr ⟨holds.apart, List.pairwise_singleton _ _, ?_⟩
      rintro earlier member new fresh ⟨sameKey, sameIv⟩
      obtain rfl := List.mem_singleton.mp fresh
      dsimp only at sameKey sameIv
      obtain ⟨earlierIv, below⟩ := holds.spent named earlier member key.salt (sameKey ▸ carried)
      have equal := deriveIv_injective (holds.small earlier member) fits earlierIv
        (sameIv ▸ derived)
      omega

/-! ## Calls -/

variable (runtime : Runtime K G) (table : ℤ → KeyBundles K)

/-- A call is resumed with the invariant, and with unspent keys if it is about
to make an epoch the current one; it keeps the invariant wherever it suspends. -/
def sending (call : SenderCall K) : Contract AwaitPoint (Worker K G) where
  assume _ w := Nonces table w ∧ AdvancesUnspent call w
  moves _ _ _ w := Nonces table w

/-- A part of a call keeps the invariant, however it ends. -/
abbrev Kept {α : Type} (call : SenderCall K) (program : Task K G α) (at_ : AwaitPoint)
    (start w : Worker K G) : Prop :=
  Yields (sending table call) (fun _ _ w => Nonces table w) program (fun _ => True) at_ start w

variable {runtime table} {call : SenderCall K} {at_ : AwaitPoint} {start : Worker K G}

theorem encodeFrame_kept (holds : Nonces table w) (frame : Ref) (frameKind : Option FrameKind) :
    Kept table call (Media.encodeFrame runtime frame frameKind) at_ start w := by
  apply yields_read
  split
  · exact holds
  · rename_i entry installed
    dsimp only
    split
    · exact holds
    · rename_i key held
      simp only [Yields, meets_bind, meets_update, meets_settle, meets_pause]
      split
      · rename_i header written
        obtain ⟨-, range, -⟩ := serializeHeader_ok written
        have sealed := nonces_noteSealing holds installed held (by omega)
        refine ⟨sealed, fun later assumed => ?_⟩
        split
        · refine ⟨nonces_of_core ?_ (Worker.core_clearEncryptStarve _), trivial⟩
          refine nonces_of_core ?_ (Worker.core_emitMetric _ _)
          exact nonces_of assumed.1 rfl
        · exact assumed.1
      · refine { holds with spent := ?_ }
        intro current earlier member salt carries
        obtain ⟨iv, below⟩ := holds.spent current earlier member salt carries
        exact ⟨iv, Nat.lt_succ_of_lt below⟩

/-- There is nothing to drain. -/
theorem drainPreEpochQueue_kept (holds : Nonces table w) :
    Kept table call (Media.drainPreEpochQueue runtime) at_ start w := by
  unfold Media.drainPreEpochQueue
  generalize runtime.patience = patience
  induction patience generalizing w with
  | zero =>
    simp only [Yields, drainPasses, meets_pauseUntil]
    exact ⟨holds, fun later never => by cases never⟩
  | succ patience ih =>
    apply yields_read
    split
    · exact yields_update (nonces_of holds rfl)
    · simp only [Yields, meets_bind, meets_update, holds.queue, drainFrames, meets_pure, meets_read]
      split
      · exact ih (nonces_of holds (by simp [noncing, holds.queue]))
      · exact ⟨nonces_of holds (by simp [noncing, holds.queue]), trivial⟩

theorem handleEpoch_kept (holds : Nonces table w) {epoch selfPeerIndex : ℤ}
    (unspent : epoch > w.currentEpoch → Unspent (table epoch) w.sealings) :
    Kept table call (handleEpoch runtime epoch selfPeerIndex (table epoch)) at_ start w := by
  simp only [Yields, handleEpoch, meets_bind, meets_read, meets_settle]
  split
  · rename_i installed ok
    exact drainPreEpochQueue_kept (nonces_installEpoch holds unspent ok)
  · exact holds

theorem nonces_unconfigured : Unconfigured fun _ _ (w : Worker K G) => Nonces table w :=
  fun _ _ w w' holds same =>
    nonces_of holds (congrArg noncing same : noncing (beyondConfiguration w') = noncing (beyondConfiguration w))

theorem handleMessage_kept (holds : Nonces table w) {msg : InMsg K}
    (own : ∀ epoch keys, (SenderCall.message msg).installs = some (epoch, keys) → keys = table epoch)
    (unspent : AdvancesUnspent (.message msg) w) :
    Kept table call (handleMessage runtime msg) at_ start w := by
  refine handleMessage_yields nonces_unconfigured holds (fun epoch selfPeerIndex keys installs => ?_)
    fun _ => nonces_teardown holds
  rcases installs with rfl | rfl
  · obtain rfl := own epoch keys rfl
    exact handleEpoch_kept holds unspent
  · obtain rfl := own epoch keys rfl
    exact handleEpoch_kept holds unspent

theorem fireWipeTimer_kept (holds : Nonces table w) (epoch : ℤ) :
    Kept table call (fireWipeTimer runtime epoch) at_ start w := by
  apply yields_read
  split
  · exact yields_update (nonces_wipeEpoch holds runtime.guard epoch)
  · exact ⟨holds, trivial⟩

theorem receive_kept (holds : Nonces table w) (frame : EncodedFrame) :
    Kept table call (receive frame) at_ start w :=
  yields_read (yields_bind (yields_update (nonces_of holds rfl)) fun _ _ _ _ holds _ => ⟨holds, trivial⟩)

theorem encodeTransform_kept (holds : Nonces table w) (frame : Ref) (frameKind : Option FrameKind) :
    Kept table call (encodeTransform runtime frame frameKind) at_ start w := by
  refine meets_tryCatch.mpr (meets_mono (yields_bind (encodeFrame_kept holds frame frameKind) ?_)
    (fun _ _ _ _ held => held) ?_)
  · intro _ _ _ later sealed _
    simp only [Yields, meets_bind, meets_read, meets_pause]
    exact ⟨sealed, fun last assumed => ⟨nonces_of assumed.1 rfl, trivial⟩⟩
  · intro _ _ error later dropped
    exact yields_update (nonces_of_core dropped (core_dropEncoded later error))

theorem program_kept (holds : Nonces table w)
    (own : ∀ epoch keys, call.installs = some (epoch, keys) → keys = table epoch)
    (unspent : AdvancesUnspent call w) :
    Kept table call (call.call.program runtime) at_ start w := by
  cases call with
  | message msg =>
    exact yields_bind (handleMessage_kept holds own unspent) fun _ _ _ _ holds _ => ⟨holds, trivial⟩
  | wipeTimer epoch => exact yields_bind (fireWipeTimer_kept holds epoch) fun _ _ _ _ holds _ => ⟨holds, trivial⟩
  | tick elapsed =>
    exact yields_bind (yields_update (nonces_of holds rfl)) fun _ _ _ _ holds _ => ⟨holds, trivial⟩
  | encodeFrame frame =>
    exact yields_bind (receive_kept holds frame) fun _ _ ref _ holds _ =>
      yields_bind (encodeFrame_kept holds ref frame.kind) fun _ _ _ _ holds _ => ⟨holds, trivial⟩
  | transform frame =>
    exact yields_bind (receive_kept holds frame) fun _ _ ref _ holds _ =>
      yields_bind (encodeTransform_kept holds ref frame.kind) fun _ _ _ _ holds _ => ⟨holds, trivial⟩

/-! ## Runs -/

/-- The gate of the runs in which only unspent epochs become the current one. -/
def advancesUnspent {ι : Type} (calls : ι → SenderCall K) :
    WorkerPool ι K G → ι → WorkerPool ι K G → Prop :=
  fun before call _ => AdvancesUnspent (calls call) before.shared

instance {ι : Type} [DecidableEq K] (calls : ι → SenderCall K) (before : WorkerPool ι K G) (call : ι)
    (after : WorkerPool ι K G) : Decidable (advancesUnspent calls before call after) :=
  inferInstanceAs (Decidable (AdvancesUnspent (calls call) before.shared))

/-- In every run whose epochs carry the same bundles at each install and in
which only unspent epochs become the current one, no two encryptions share
their key and their IV. -/
theorem sealings_apart {ι : Type} [DecidableEq ι] (table : ℤ → KeyBundles K) (calls : ι → SenderCall K)
    (own : ∀ call epoch keys, (calls call).installs = some (epoch, keys) → keys = table epoch)
    {last : WorkerPool ι K G}
    (run : Runs (advancesUnspent calls)
      (launch runtime Worker.createWorkerState fun call => (calls call).call) last) :
    last.shared.sealings.Pairwise Apart := by
  have invariant := runs_invariant (fun call => sending table (calls call))
    (fun _ _ _ _ w => Nonces table w) (fun w _ => Nonces table w) nonces_created
    (launch_follows fun call w assumed => ?_) (fun before call at_ after holds _ _ passes => ⟨holds, passes⟩)
    (fun before call at_ after _ _ _ _ moved => ?_) run
  · exact invariant.apart
  · refine Contract.keeps_mono (program_kept assumed.1 (own call) assumed.2) fun _ _ result _ holds => ?_
    cases result with
    | ok value => exact holds.1
    | error refused => exact holds
  · generalize after.statuses call = reached at moved
    cases reached with
    | running => exact moved.elim
    | suspended next => exact moved
    | finished result => exact moved

section Checked
open Specimen (bundles)

/-- An epoch installed, a frame sent, the session torn down, and the same epoch
installed and sent in once more. -/
def reinstalled : Fin 5 → SenderCall Bytes
  | 0 | 3 => .message (.epoch 0 0 (bundles [7]))
  | 1 => .encodeFrame { data := [1] }
  | 2 => .message .teardown
  | 4 => .encodeFrame { data := [2] }

/-- The epoch carries one table of bundles, and yet the counter starts over
under a key that has been used. -/
theorem teardown_reuses_nonce :
    (∀ call epoch keys, (reinstalled call).installs = some (epoch, keys) → keys = bundles [7]) ∧
    ¬ ∀ last, Runs anyTurn
      (launch Specimen.runtime Worker.createWorkerState fun call => (reinstalled call).call) last →
        last.shared.sealings.Pairwise Apart := by
  refine ⟨fun call epoch keys installed => ?_, fun never => ?_⟩
  · fin_cases call <;> cases installed <;> rfl
  have result : (((launch Specimen.runtime Worker.createWorkerState
      fun call => (reinstalled call).call).followPassing anyTurn [0, 1, 2, 3, 4]).map fun pool =>
        pool.shared.sealings.map fun s => (s.cryptoKey, s.iv)) =
      some [(List.replicate 16 7, List.replicate 12 1), (List.replicate 16 7, List.replicate 12 1)] := by
    decide +kernel
  obtain ⟨last, followed, sealings⟩ := Option.map_eq_some_iff.mp result
  have apart := (never last (followPassing_runs followed)).map (fun s => (s.cryptoKey, s.iv))
    (S := fun first second => first ≠ second)
    (fun _ _ apart same => apart ⟨congrArg Prod.fst same, congrArg Prod.snd same⟩)
  rw [sealings] at apart
  simp at apart

/-- Two epochs with keys of their own, a frame sent in each. -/
def advanced : Fin 4 → SenderCall Bytes
  | 0 => .message (.epoch 0 0 (bundles [7]))
  | 1 => .encodeFrame { data := [1] }
  | 2 => .message (.rotate 1 0 (bundles [8]))
  | 3 => .encodeFrame { data := [2] }

theorem sealings_apart_advanced : ∃ last : WorkerPool (Fin 4) Bytes Unit,
    last.shared.sealings.length = 2 ∧ last.shared.sealings.Pairwise Apart := by
  have result : (((launch Specimen.runtime Worker.createWorkerState
      fun call => (advanced call).call).followPassing (advancesUnspent advanced) [0, 1, 2, 3]).map
        fun pool => pool.shared.sealings.length) = some 2 := by
    decide +kernel
  obtain ⟨last, followed, two⟩ := Option.map_eq_some_iff.mp result
  refine ⟨last, two, sealings_apart (fun epoch => bundles (if epoch = 0 then [7] else [8])) advanced
    (fun call epoch keys installed => ?_) (followPassing_runs followed)⟩
  fin_cases call <;> cases installed <;> rfl

end Checked
end SFrameRatchet.NonceReuse
