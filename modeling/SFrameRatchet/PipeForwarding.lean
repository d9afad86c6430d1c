import SFrameRatchet.DecodeWalk
import SFrameRatchet.Specimen

/-! What a decode pipe passes on over whole runs. `decodeFrame` returns in the
same way from a frame it opened, one it let through and one it parked, and the
pipe enqueues whatever the frame holds then. A frame in transit belongs to its
transform alone until it is parked. -/
namespace SFrameRatchet.PipeForwarding
open Collections Crypto Kid Header SFrame CodecPartial Throwing Coroutine Interleaving Media Unsealing DecodeWalk

variable {K G ι : Type}

/-- The calls of a receiving worker: messages, wipe timers, the passing of time,
frames that come through a decode pipe, and drains. -/
inductive PipeCall (K : Type) where
  | message (msg : InMsg K)
  | wipeTimer (epoch : ℤ)
  | tick (elapsed : ℕ)
  | transform (frame : EncodedFrame)
  | drain

def PipeCall.call : PipeCall K → Call K
  | message msg => .message msg
  | wipeTimer epoch => .wipeTimer epoch
  | tick elapsed => .tick elapsed
  | transform frame => .transform .decode frame
  | drain => .drainPreEpochQueue

/-- The bundles that a call installs. -/
def PipeCall.installs : PipeCall K → List (PerSenderKeyBundle K)
  | message (.epoch _ _ keys) => keys.values
  | message (.rotate _ _ keys) => keys.values
  | _ => []

/-- The frames that have come, and what has been passed on, since a state. -/
def arrivals (w₀ w : Worker K G) : List Arrival := w.arrived.drop w₀.arrived.length
def forwarded (w₀ w : Worker K G) : List (Side × Ref × Bytes) := w.enqueued.drop w₀.enqueued.length

section Run
variable (runtime : Runtime K G) (w₀ : Worker K G) (calls : ι → PipeCall K)

/-- The keys the worker is given in a run, and what its ratchet derives from
them. The raw key of a wiped epoch is zero. -/
inductive Key : RatchetKey K → Prop where
  | first (held : (w₀.entries.read ref).keys.get? peerIndex = some key) : Key key
  | bundle (carried : bundle ∈ (calls call).installs) (cryptoKey : bundle.cryptoKey = key.cryptoKey)
      (salt : bundle.salt = key.salt) (rawKey : bundle.rawKey = key.rawKey) : Key key
  | wiped (earlier : Key key) : Key { key with rawKey := zeroize key.rawKey }
  | ratcheted (earlier : Key key)
      (derived : deriveNextSenderKey runtime.crypto key.rawKey key.salt epoch peerIndex suite kidCodec =
        .ok next) : Key next

/-- A payload opens behind its clear prefix under one of the keys. -/
def Opens (payload : Bytes) (guess : FormatGuess) (plaintext : Bytes) : Prop :=
  ∃ kidCodec key, Key runtime w₀ calls key ∧
    sframeDecrypt runtime.crypto (payload.drop guess.prefixLen) (fun _ _ _ _ => some key.toSFrameKey) kidCodec
      (aadPrefixOf payload guess.prefixLen) guess.aadForm = .ok plaintext

/-- What may be passed on of a frame: the frame as it came, when it does not end
with the trailer configured then, or its clear prefix and what the rest of it
opens to. -/
def Forwardable (arrival : Arrival) (data : Bytes) : Prop :=
  sifPayload arrival.sifTrailer arrival.frame.data = none ∧ data = arrival.frame.data ∨
    ∃ payload guess plaintext, sifPayload arrival.sifTrailer arrival.frame.data = some payload ∧
      Opens runtime w₀ calls payload guess plaintext ∧ data = payload.take guess.prefixLen ++ plaintext

/-! ## The invariant -/

/-- What is true of the worker between any two turns. -/
structure Pipes (w : Worker K G) : Prop where
  keys : ∀ ref peerIndex key, (w.entries.read ref).keys.get? peerIndex = some key → Key runtime w₀ calls key
  arrived : w₀.arrived <+: w.arrived
  enqueued : w₀.enqueued <+: w.enqueued
  grown : w₀.frames.next ≤ w.frames.next
  fresh : ((arrivals w₀ w).map Arrival.ref).Nodup
  bounded : ∀ arrival ∈ arrivals w₀ w, w₀.frames.next ≤ arrival.ref ∧ arrival.ref < w.frames.next
  forwards : ∀ sent ∈ forwarded w₀ w, ∃ arrival ∈ arrivals w₀ w, arrival.ref = sent.2.1 ∧
    Forwardable runtime w₀ calls arrival sent.2.2

/-- No frame of the run waits in the pre-epoch queue. -/
def Unparked (w : Worker K G) : Prop := ∀ ref ∈ w.preEpochQueue, ref < w₀.frames.next

instance (w : Worker K G) : Decidable (Unparked w₀ w) := inferInstanceAs (Decidable (∀ ref ∈ _, _))

/-- What a suspended transform relies on: its frame still holds what it held on
arrival, and once it is decoded, what may be passed on. -/
def Holding (frame : EncodedFrame) (at_ : AwaitPoint) (w : Worker K G) : Prop :=
  ∀ ref, at_.frame = some ref → ∃ arrival ∈ arrivals w₀ w, arrival.ref = ref ∧ arrival.frame = frame ∧
    match at_.point with
    | .decoded data => (w.frames.read ref).data = data ∧ Forwardable runtime w₀ calls arrival data
    | _ => w.frames.read ref = frame ∧ sifPayload arrival.sifTrailer frame.data = at_.payload

def Relies (call : PipeCall K) (at_ : AwaitPoint) (w : Worker K G) : Prop :=
  match call with
  | .transform frame => Holding runtime w₀ calls frame at_ w
  | _ => ∀ ref, at_.frame = some ref → ref < w₀.frames.next

/-- Of the frames that had arrived in the run, only one's own has changed. -/
def Undisturbed (own : Option Ref) (start w : Worker K G) : Prop :=
  start.frames.next ≤ w.frames.next ∧ start.arrived <+: w.arrived ∧
    ∀ ref, w₀.frames.next ≤ ref → ref < start.frames.next → own ≠ some ref →
      w.frames.read ref = start.frames.read ref

/-- A transform does not take another caller's plaintext for its own. -/
def OwnPlaintext (call : PipeCall K) (at_ : AwaitPoint) (w : Worker K G) : Prop :=
  match call with
  | .transform _ => ForeignRejected at_ w
  | _ => True

instance (call : PipeCall K) (at_ : AwaitPoint) (w : Worker K G) : Decidable (OwnPlaintext call at_ w) := by
  unfold OwnPlaintext
  split <;> infer_instance

/-- A frame is the call's own, or has come since the call was resumed. -/
def Owns (ref : Ref) (at_ : AwaitPoint) (start : Worker K G) : Prop :=
  at_.frame = some ref ∨ at_.frame = none ∧ start.frames.next ≤ ref

def piping (call : PipeCall K) : Contract AwaitPoint (Worker K G) where
  assume at_ w := Pipes runtime w₀ calls w ∧ Unparked w₀ w ∧ Relies runtime w₀ calls call at_ w ∧
    OwnPlaintext call at_ w
  moves at_ start next w := Pipes runtime w₀ calls w ∧ Undisturbed w₀ at_.frame start w ∧
    (∀ ref, next.frame = some ref → w₀.frames.next ≤ ref → Owns ref at_ start) ∧
    (Unparked w₀ w → Relies runtime w₀ calls call next w)

/-- How every call may end. -/
def Harmless (at_ : AwaitPoint) (start w : Worker K G) : Prop :=
  Pipes runtime w₀ calls w ∧ Undisturbed w₀ at_.frame start w

end Run

variable {runtime : Runtime K G} {w₀ : Worker K G} {calls : ι → PipeCall K} {at_ : AwaitPoint}
  {start w w' : Worker K G}

theorem undisturbed_refl (own : Option Ref) : Undisturbed w₀ own w w :=
  ⟨Nat.le_refl _, List.prefix_rfl, fun _ _ _ _ => rfl⟩

theorem arrivals_grow (grown : start.arrived <+: w.arrived) {arrival : Arrival}
    (member : arrival ∈ arrivals w₀ start) : arrival ∈ arrivals w₀ w :=
  (grown.drop _).subset member

/-! ## What keeps the invariant -/

/-- The frames in transit and the queue. -/
private def transit (w : Worker K G) := (w.frames, w.arrived, w.enqueued, w.preEpochQueue)

theorem pipes_of (pipes : Pipes runtime w₀ calls w)
    (same : (w'.frames.next, w'.arrived, w'.enqueued) = (w.frames.next, w.arrived, w.enqueued))
    (keys : ∀ ref peerIndex key, (w'.entries.read ref).keys.get? peerIndex = some key → Key runtime w₀ calls key) :
    Pipes runtime w₀ calls w' := by
  simp only [Prod.mk.injEq] at same
  obtain ⟨next, arrived, enqueued⟩ := same
  have came : arrivals w₀ w' = arrivals w₀ w := by rw [arrivals, arrivals, arrived]
  have sent : forwarded w₀ w' = forwarded w₀ w := by rw [forwarded, forwarded, enqueued]
  constructor
  · exact keys
  · rw [arrived]; exact pipes.arrived
  · rw [enqueued]; exact pipes.enqueued
  · rw [next]; exact pipes.grown
  · rw [came]; exact pipes.fresh
  · rw [came, next]; exact pipes.bounded
  · rw [came, sent]; exact pipes.forwards

theorem pipes_quiet (pipes : Pipes runtime w₀ calls w)
    (same : (w'.entries, transit w') = (w.entries, transit w)) : Pipes runtime w₀ calls w' := by
  simp only [transit, Prod.mk.injEq] at same
  obtain ⟨entries, frames, arrived, enqueued, -⟩ := same
  exact pipes_of pipes (by rw [frames, arrived, enqueued]) (entries ▸ pipes.keys)

theorem pipes_refl : Pipes runtime w₀ calls w₀ where
  keys _ _ _ held := .first held
  arrived := List.prefix_rfl
  enqueued := List.prefix_rfl
  grown := Nat.le_refl _
  fresh := by simp [arrivals]
  bounded := by simp [arrivals]
  forwards := by simp [forwarded]

/-- A frame arrives under a reference of its own. -/
theorem pipes_receive (pipes : Pipes runtime w₀ calls w) (frame : EncodedFrame) :
    Pipes runtime w₀ calls (receiveFrame frame w) := by
  have appended : arrivals w₀ (receiveFrame frame w) =
      arrivals w₀ w ++ [⟨w.frames.next, frame, w.sifTrailer⟩] := by
    simp only [arrivals, receiveFrame]
    exact List.drop_append_of_le_length pipes.arrived.length_le
  refine ⟨pipes.keys, pipes.arrived.trans (List.prefix_append _ _), pipes.enqueued,
    Nat.le_succ_of_le pipes.grown, ?_, ?_, ?_⟩
  · rw [appended, List.map_append, List.nodup_append]
    refine ⟨pipes.fresh, List.nodup_singleton _, ?_⟩
    rintro earlier member later new rfl
    obtain ⟨arrival, held, rfl⟩ := List.mem_map.mp member
    obtain same := List.mem_singleton.mp new
    exact Nat.lt_irrefl _ (same ▸ (pipes.bounded arrival held).2)
  · rw [appended]
    intro arrival member
    rcases List.mem_append.mp member with old | new
    · obtain ⟨low, high⟩ := pipes.bounded arrival old
      exact ⟨low, Nat.lt_succ_of_lt high⟩
    · obtain rfl := List.mem_singleton.mp new
      exact ⟨pipes.grown, Nat.lt_succ_self _⟩
  · intro sent member
    obtain ⟨arrival, held, same, forwardable⟩ := pipes.forwards sent member
    exact ⟨arrival, appended ▸ List.mem_append_left _ held, same, forwardable⟩

/-- What may be passed on of a frame is enqueued. -/
theorem pipes_enqueue (pipes : Pipes runtime w₀ calls w) {arrival : Arrival} (side : Side)
    (member : arrival ∈ arrivals w₀ w)
    (forwardable : Forwardable runtime w₀ calls arrival (w.frames.read arrival.ref).data) :
    Pipes runtime w₀ calls (enqueueFrame side arrival.ref w) := by
  refine ⟨pipes.keys, pipes.arrived, pipes.enqueued.trans (List.prefix_append _ _), pipes.grown, pipes.fresh,
    pipes.bounded, fun sent held => ?_⟩
  have appended : forwarded w₀ (enqueueFrame side arrival.ref w) =
      forwarded w₀ w ++ [(side, arrival.ref, (w.frames.read arrival.ref).data)] :=
    List.drop_append_of_le_length pipes.enqueued.length_le
  rw [appended] at held
  rcases List.mem_append.mp held with old | new
  · exact pipes.forwards sent old
  · obtain rfl := List.mem_singleton.mp new
    exact ⟨arrival, member, rfl, forwardable⟩

theorem pipes_advanceKey (pipes : Pipes runtime w₀ calls w) {next : RatchetKey K}
    (known : Key runtime w₀ calls next) (ref : Ref) (peerIndex : ℤ) (step : ℕ) :
    Pipes runtime w₀ calls (advanceKey w ref peerIndex next step) := by
  refine pipes_of pipes rfl fun other pi key held => ?_
  simp only [advanceKey, Heap.read_write] at held
  split at held
  · rename_i same
    subst same
    rw [OrderedMap.get?_set] at held
    split at held
    · cases held
      exact known
    · exact pipes.keys _ pi key held
  · exact pipes.keys _ pi key held

theorem pipes_wipeEpoch (pipes : Pipes runtime w₀ calls w) (epoch : ℤ) :
    Pipes runtime w₀ calls (w.wipeEpoch runtime.guard epoch) := by
  refine pipes_of pipes rfl fun ref peerIndex key held => ?_
  simp only [Worker.wipeEpoch] at held
  split at held
  · rw [Heap.read_write] at held
    split at held
    · simp only [Worker.zeroizeEntry, OrderedMap.get?_mapValues] at held
      obtain ⟨full, before, rfl⟩ := Option.map_eq_some_iff.mp held
      exact .wiped (pipes.keys _ peerIndex full before)
    · exact pipes.keys ref peerIndex key held
  · exact pipes.keys ref peerIndex key held

theorem pipes_installEpoch (pipes : Pipes runtime w₀ calls w) {call : ι} {epoch selfPeerIndex : ℤ}
    {keys : KeyBundles K} (installs : (calls call).installs = keys.values)
    (installed : w.installEpoch epoch selfPeerIndex keys = .ok w') :
    Pipes runtime w₀ calls w' ∧ transit w' = transit w := by
  obtain ⟨made, ok, same⟩ := Worker.core_installEpoch installed
  have entries : w'.entries = (w.withEntry epoch selfPeerIndex made).entries := by
    split at same
    · exact (congrArg (·.entries) same : w'.core.entries = _)
    · exact (congrArg (·.entries) same : w'.core.entries = _)
  have unchanged : transit w' = transit w := by
    split at same
    · exact (congrArg transit same : transit w'.core = _)
    · exact (congrArg transit same : transit w'.core = _)
  refine ⟨pipes_of pipes ?_ fun ref peerIndex key held => ?_, unchanged⟩
  · exact congrArg (fun t : Heap EncodedFrame × List Arrival × List (Side × Ref × Bytes) × List Ref =>
      (t.1.next, t.2.1, t.2.2.1)) unchanged
  · rw [entries] at held
    simp only [Worker.withEntry, Heap.read_alloc] at held
    split at held
    · rcases Worker.installKeys_held ok held with early | ⟨-, bundle, member, cryptoKey, salt, rawKey⟩
      · cases early
      · have carried : bundle ∈ (calls call).installs := by rw [installs]; exact member
        exact .bundle carried cryptoKey salt rawKey
    · exact pipes.keys ref peerIndex key held

/-! ## Readings -/

/-- A reading about the pipes and the frames in transit. -/
structure Piped (runtime : Runtime K G) (w₀ : Worker K G) (calls : ι → PipeCall K) (holds : Reading K G) :
    Prop where
  pipes : ∀ {at_ start w}, holds at_ start w → Pipes runtime w₀ calls w
  carries : ∀ {at_ start w w'}, holds at_ start w → Pipes runtime w₀ calls w' → transit w' = transit w →
    holds at_ start w'

section Piped
variable {holds : Reading K G} (piped : Piped runtime w₀ calls holds)
include piped

theorem piped_quiet (now : holds at_ start w) (same : (w'.entries, transit w') = (w.entries, transit w)) :
    holds at_ start w' :=
  piped.carries now (pipes_quiet (piped.pipes now) same) (congrArg Prod.snd same)

theorem piped_core (now : holds at_ start w) (same : w'.core = w.core) : holds at_ start w' :=
  piped_quiet piped now (congrArg (fun v => (v.entries, transit v)) same :
    ((fun v => (v.entries, transit v)) w'.core) = _)

theorem piped_windowless : Windowless holds := fun _ _ w w' now same =>
  piped_quiet piped now (congrArg (fun v => (v.entries, transit v)) same :
    ((fun v => (v.entries, transit v)) (beyondReplay w')) = (fun v => (v.entries, transit v)) (beyondReplay w))

end Piped

/-- The keys of the run. -/
def keyring {holds : Reading K G} (piped : Piped runtime w₀ calls holds) : Keyring runtime holds where
  known _ _ key := Key runtime w₀ calls key
  names _ _ := True
  codecs _ := True
  quiet {_ _ w w'} now same := piped_quiet piped now (congrArg (fun v => (v.entries, transit v)) same :
    ((fun v => (v.entries, transit v)) (beyondPromises w')) = (fun v => (v.entries, transit v)) (beyondPromises w))
  codec _ := trivial
  installed _ _ := trivial
  held now _ found := (piped.pipes now).keys _ _ _ found
  derives _ known derived := .ratcheted known derived
  advances now _ known step := piped.carries now (pipes_advanceKey (piped.pipes now) known _ _ step) rfl

theorem opens_of_opened {holds : Reading K G} {piped : Piped runtime w₀ calls holds} {payload plaintext : Bytes}
    {guess : FormatGuess} (opened : (keyring piped).OpenedFrame payload guess plaintext) :
    Opens runtime w₀ calls payload guess plaintext := by
  obtain ⟨kidCodec, hdr, key, -, -, known, opened⟩ := opened
  exact ⟨kidCodec, key, known, opened⟩

/-! ## A transform -/

/-- Until a frame is accepted it is as it came, and its payload is what is left
of it without the trailer. -/
structure Transforming (runtime : Runtime K G) (w₀ : Worker K G) (calls : ι → PipeCall K) (frame : EncodedFrame)
    (ref : Ref) (payload : Bytes) (at_ : AwaitPoint) (start w : Worker K G) : Prop where
  harmless : Harmless runtime w₀ calls at_ start w
  owns : Owns ref at_ start
  held : ∃ arrival ∈ arrivals w₀ w, arrival.ref = ref ∧ arrival.frame = frame ∧ w.frames.read ref = frame ∧
    sifPayload arrival.sifTrailer frame.data = some payload

variable {frame : EncodedFrame} {ref : Ref} {payload : Bytes}

theorem undisturbed_transit {own : Option Ref} (undisturbed : Undisturbed w₀ own start w)
    (same : transit w' = transit w) : Undisturbed w₀ own start w' := by
  simp only [transit, Prod.mk.injEq] at same
  obtain ⟨frames, arrived, -⟩ := same
  unfold Undisturbed
  rw [frames, arrived]
  exact undisturbed

theorem transforming_piped : Piped runtime w₀ calls (Transforming runtime w₀ calls frame ref payload) where
  pipes now := now.harmless.1
  carries {_ _ w w'} now pipes same := by
    refine ⟨⟨pipes, undisturbed_transit now.harmless.2 same⟩, now.owns, ?_⟩
    have frames : w'.frames = w.frames := congrArg Prod.fst same
    have arrived : arrivals w₀ w' = arrivals w₀ w := congrArg (fun t => t.2.1.drop w₀.arrived.length) same
    rw [frames, arrived]
    exact now.held

theorem transforming_survives : SurvivesOpening (piping runtime w₀ calls (.transform frame))
    (Transforming runtime w₀ calls frame ref payload) ref payload := by
  intro site own rest within at_ start w now
  have undecoded (data : Bytes) : site.point ≠ .decoded data := fun same => by simp [Within, same] at within
  constructor
  · refine ⟨now.harmless.1, now.harmless.2, fun other same _ => ?_, fun _ other same => ?_⟩
    · obtain rfl := Option.some.inj (own.symm.trans same)
      exact now.owns
    · obtain rfl := Option.some.inj (own.symm.trans same)
      obtain ⟨arrival, member, isRef, isFrame, reads, stripped⟩ := now.held
      refine ⟨arrival, member, isRef, isFrame, ?_⟩
      split
      · rename_i data decoded
        exact absurd decoded (undecoded data)
      · exact ⟨reads, stripped.trans rest.symm⟩
  · rintro later ⟨pipes, -, relies, -⟩
    obtain ⟨arrival, member, isRef, isFrame, kept⟩ := relies ref own
    refine ⟨⟨pipes, undisturbed_refl _⟩, .inl own, arrival, member, isRef, isFrame, ?_⟩
    split at kept
    · rename_i data decoded
      exact absurd decoded (undecoded data)
    · exact ⟨kept.1, kept.2.trans rest⟩

/-- What is left to do with a frame that `decodeFrame` has returned from: it
may be passed on, if it is not parked. -/
def Decoded (runtime : Runtime K G) (w₀ : Worker K G) (calls : ι → PipeCall K) (frame : EncodedFrame)
    (ref : Ref) (at_ : AwaitPoint) (start w : Worker K G) : Prop :=
  Harmless runtime w₀ calls at_ start w ∧ Owns ref at_ start ∧
    (Unparked w₀ w → ∃ arrival ∈ arrivals w₀ w, arrival.ref = ref ∧ arrival.frame = frame ∧
      Forwardable runtime w₀ calls arrival (w.frames.read ref).data)

/-- A frame in transit is parked. -/
theorem decoded_parked (now : Transforming runtime w₀ calls frame ref payload at_ start w)
    (peerIndex : Option ℤ) : Decoded runtime w₀ calls frame ref at_ start (w.pushToQueue ref peerIndex) := by
  obtain ⟨kept, -, same⟩ := Worker.core_pushToQueue w ref peerIndex
  have entries : (w.pushToQueue ref peerIndex).entries = w.entries := congrArg (·.entries) same
  have queue : (w.pushToQueue ref peerIndex).preEpochQueue = kept ++ [ref] := congrArg (·.preEpochQueue) same
  have frames : (w.pushToQueue ref peerIndex).frames = w.frames := congrArg (·.frames) same
  have arrived : (w.pushToQueue ref peerIndex).arrived = w.arrived := congrArg (·.arrived) same
  have enqueued : (w.pushToQueue ref peerIndex).enqueued = w.enqueued := congrArg (·.enqueued) same
  refine ⟨⟨pipes_of now.harmless.1 (by rw [frames, arrived, enqueued]) (entries ▸ now.harmless.1.keys), ?_⟩,
    now.owns, fun unparked => ?_⟩
  · unfold Undisturbed
    rw [frames, arrived]
    exact now.harmless.2
  · obtain ⟨arrival, member, rfl, -⟩ := now.held
    have below := unparked arrival.ref (by rw [queue]; simp)
    exact absurd below (Nat.not_lt.mpr (now.harmless.1.bounded arrival member).1)

/-- A frame in transit gets its decrypted bytes. -/
theorem decoded_delivered (now : Transforming runtime w₀ calls frame ref payload at_ start w)
    {guess : FormatGuess} {plaintext : Bytes} (opens : Opens runtime w₀ calls payload guess plaintext) (slot : Slot)
    (delivered : w'.core = (deliver w slot ref (payload.take guess.prefixLen ++ plaintext)).core) :
    Decoded runtime w₀ calls frame ref at_ start w' := by
  have entries : w'.entries = w.entries := congrArg (·.entries) delivered
  have frames : w'.frames = w.frames.write ref
      { w.frames.read ref with data := payload.take guess.prefixLen ++ plaintext } := congrArg (·.frames) delivered
  have arrived : w'.arrived = w.arrived := congrArg (·.arrived) delivered
  have enqueued : w'.enqueued = w.enqueued := congrArg (·.enqueued) delivered
  refine ⟨⟨pipes_of now.harmless.1 (by rw [frames, arrived, enqueued]; rfl) (entries ▸ now.harmless.1.keys), ?_⟩,
    now.owns, fun _ => ?_⟩
  · unfold Undisturbed
    rw [frames, arrived]
    refine ⟨now.harmless.2.1, now.harmless.2.2.1, fun other low high others => ?_⟩
    have apart : other ≠ ref := by
      rintro rfl
      rcases now.owns with own | ⟨-, later⟩
      · exact others own
      · exact absurd high (Nat.not_lt.mpr later)
    rw [Heap.read_write, if_neg apart]
    exact now.harmless.2.2.2 other low high others
  · obtain ⟨arrival, member, isRef, isFrame, -, stripped⟩ := now.held
    have same : arrivals w₀ w' = arrivals w₀ w := by rw [arrivals, arrivals, arrived]
    refine ⟨arrival, same ▸ member, isRef, isFrame, .inr ⟨payload, guess, plaintext, ?_, opens, ?_⟩⟩
    · rw [isFrame]; exact stripped
    · rw [frames]; simp

/-- A drop is reported to the main thread and thrown. -/
private theorem transforming_fails {report : Worker K G → Worker K G} (call : PipeCall K)
    (now : Transforming runtime w₀ calls frame ref payload at_ start w) (same : (report w).core = w.core)
    (refused : JsError) {α : Type} {returns : AwaitPoint → Worker K G → α → Worker K G → Prop} :
    Meets (piping runtime w₀ calls call) (do update report; throw refused : Task K G α) returns
      (fun at_ start _ w => Harmless runtime w₀ calls at_ start w) at_ start w := by
  simp only [meets_bind, meets_update, meets_throw]
  exact (piped_core transforming_piped now same).harmless

/-- **How a frame in transit is decoded.** -/
theorem decodeFrame_decodes {arrival : Arrival} (harmless : Harmless runtime w₀ calls at_ start w)
    (owns : Owns arrival.ref at_ start) (member : arrival ∈ arrivals w₀ w)
    (reads : w.frames.read arrival.ref = arrival.frame) (trailer : arrival.sifTrailer = w.sifTrailer) :
    Meets (piping runtime w₀ calls (.transform arrival.frame)) (Media.decodeFrame runtime arrival.ref)
      (fun at_ start _ w => Decoded runtime w₀ calls arrival.frame arrival.ref at_ start w)
      (fun at_ start _ w => Harmless runtime w₀ calls at_ start w) at_ start w := by
  simp only [Media.decodeFrame, meets_bind, meets_read, reads]
  cases stripped : sifPayload w.sifTrailer arrival.frame.data with
  | none =>
    refine ⟨harmless, owns, fun _ => ⟨arrival, member, rfl, rfl, .inl ⟨?_, ?_⟩⟩⟩
    · rw [trailer]; exact stripped
    · rw [reads]
  | some payload =>
    have now : Transforming runtime w₀ calls arrival.frame arrival.ref payload at_ start w :=
      ⟨harmless, owns, arrival, member, rfl, rfl, reads, by rw [trailer]; exact stripped⟩
    have piped : Piped runtime w₀ calls (Transforming runtime w₀ calls arrival.frame arrival.ref payload) :=
      transforming_piped
    refine meets_after (resolveFormat_yields (keyring piped) arrival.ref payload _ _
      (transforming_survives _ rfl rfl trivial) (transforming_survives _ rfl rfl trivial) now)
      (fun _ _ resolved w now own => ?_) (fun _ _ _ _ now => now.harmless)
    simp only [meets_bind, meets_read]
    split
    · exact transforming_fails _ now (by simp) _
    · rename_i hdr parsed
      refine meets_after (yields_update (piped_quiet piped now rfl)) (fun _ _ _ w now _ => ?_)
        (fun _ _ _ _ now => now.harmless)
      refine meets_tryCatch.mpr (meets_mono (decodePayload_ends (keyring piped) (piped_windowless piped)
        arrival.ref payload resolved.1 resolved.2 hdr transforming_survives now) ?_ ?_)
      · intro _ _ path w ended
        cases path with
        | passedThrough => exact ended.elim
        | parked =>
          obtain ⟨v, peerIndex, now, rfl⟩ := ended
          exact decoded_parked now peerIndex
        | opened format plaintext =>
          obtain ⟨rfl, opens, v, slot, now, delivered⟩ := ended
          have opened := opens own fun _ =>
            unshared_of_foreign (fun assumed => assumed.2.2.2) fun _ => rfl
          exact decoded_delivered now (opens_of_opened opened) slot delivered
      · intro _ _ error w now
        exact transforming_fails _ now (by simp) _

/-- **A decode pipe.** What it enqueues may be passed on. -/
theorem decodeTransform_forwards {arrival : Arrival} (harmless : Harmless runtime w₀ calls at_ start w)
    (owns : Owns arrival.ref at_ start) (member : arrival ∈ arrivals w₀ w)
    (reads : w.frames.read arrival.ref = arrival.frame) (trailer : arrival.sifTrailer = w.sifTrailer) :
    Yields (piping runtime w₀ calls (.transform arrival.frame)) (Harmless runtime w₀ calls)
      (decodeTransform runtime arrival.ref) (fun _ => True) at_ start w := by
  unfold decodeTransform
  refine meets_tryCatch.mpr (meets_bind.mpr (meets_mono
    (decodeFrame_decodes harmless owns member reads trailer) ?_ (fun _ _ _ _ harmless => ⟨harmless, trivial⟩)))
  rintro at_ start path w ⟨⟨pipes, undisturbed⟩, owns, decoded⟩
  simp only [meets_bind, meets_read, meets_pause, meets_update]
  refine ⟨⟨pipes, undisturbed, fun ref same _ => ?_, fun unparked ref same => ?_⟩, ?_⟩
  · obtain rfl := Option.some.inj same
    exact owns
  · obtain rfl := Option.some.inj same
    obtain ⟨own, member, isRef, isFrame, forwardable⟩ := decoded unparked
    exact ⟨own, member, isRef, isFrame, rfl, forwardable⟩
  · rintro later ⟨pipes, -, relies, -⟩
    obtain ⟨own, member, isRef, isFrame, same, forwardable⟩ := relies arrival.ref rfl
    rw [← same] at forwardable
    have enqueued := pipes_enqueue pipes .decode member (isRef.symm ▸ forwardable)
    rw [isRef] at enqueued
    exact ⟨⟨enqueued, undisturbed_refl _⟩, trivial⟩

/-! ## A drain -/

/-- A call that works on no frame of the run. -/
structure Serving (runtime : Runtime K G) (w₀ : Worker K G) (calls : ι → PipeCall K)
    (at_ : AwaitPoint) (start w : Worker K G) : Prop where
  pipes : Pipes runtime w₀ calls w
  unparked : Unparked w₀ w
  undisturbed : Undisturbed w₀ none start w

theorem serving_piped : Piped runtime w₀ calls (Serving runtime w₀ calls) where
  pipes now := now.pipes
  carries now pipes same := by
    refine ⟨pipes, ?_, undisturbed_transit now.undisturbed same⟩
    simp only [transit, Prod.mk.injEq] at same
    unfold Unparked
    rw [same.2.2.2]
    exact now.unparked

theorem undisturbed_any {own : Option Ref} (undisturbed : Undisturbed w₀ none start w) :
    Undisturbed w₀ own start w :=
  ⟨undisturbed.1, undisturbed.2.1, fun ref low high _ => undisturbed.2.2 ref low high (by simp)⟩

variable {call : PipeCall K}

theorem serving_survives (serves : ∀ frame, call ≠ .transform frame) {site : AwaitPoint}
    (below : ∀ ref, site.frame = some ref → ref < w₀.frames.next) :
    Survives (piping runtime w₀ calls call) (Serving runtime w₀ calls) site := by
  intro at_ start w now
  refine ⟨⟨now.pipes, undisturbed_any now.undisturbed, fun ref same low => ?_, fun _ => ?_⟩, ?_⟩
  · exact absurd (below ref same) (Nat.not_lt.mpr low)
  · cases call with
    | transform frame => exact absurd rfl (serves frame)
    | message | wipeTimer | tick | drain => exact below
  · rintro later ⟨pipes, unparked, -, -⟩
    exact ⟨pipes, unparked, undisturbed_refl _⟩

/-- A frame from before the run waits, or waits again. -/
theorem serving_parked (now : Serving runtime w₀ calls at_ start w) (below : ref < w₀.frames.next)
    (peerIndex : Option ℤ) : Serving runtime w₀ calls at_ start (w.pushToQueue ref peerIndex) := by
  obtain ⟨kept, sub, same⟩ := Worker.core_pushToQueue w ref peerIndex
  have parked : Serving runtime w₀ calls at_ start { w with preEpochQueue := kept ++ [ref] } := by
    refine ⟨pipes_of now.pipes rfl now.pipes.keys, fun other member => ?_, now.undisturbed⟩
    rcases List.mem_append.mp member with old | new
    · exact now.unparked other (sub.subset old)
    · obtain rfl := List.mem_singleton.mp new
      exact below
  exact piped_core serving_piped parked same

theorem serving_written (now : Serving runtime w₀ calls at_ start w) (below : ref < w₀.frames.next)
    (frame : EncodedFrame) :
    Serving runtime w₀ calls at_ start { w with frames := w.frames.write ref frame } := by
  refine ⟨pipes_of now.pipes rfl now.pipes.keys, now.unparked, now.undisturbed.1, now.undisturbed.2.1, ?_⟩
  intro other low high own
  have apart : other ≠ ref := by
    rintro rfl
    exact absurd below (Nat.not_lt.mpr low)
  simp only [Heap.read_write, if_neg apart]
  exact now.undisturbed.2.2 other low high own

/-- A part of a call keeps to the frames from before the run. -/
abbrev Served (runtime : Runtime K G) (w₀ : Worker K G) (calls : ι → PipeCall K) (call : PipeCall K) {α : Type}
    (program : Task K G α) (at_ : AwaitPoint) (start w : Worker K G) : Prop :=
  Yields (piping runtime w₀ calls call) (Serving runtime w₀ calls) program (fun _ => True) at_ start w

/-- A drain keeps to the frames from before the run. -/
theorem serving_walked : Walked (Serving runtime w₀ calls) fun ref => ref < w₀.frames.next where
  beside {_ _ w w'} now same := piped_quiet serving_piped now (congrArg (fun v => (v.entries, transit v)) same :
    ((fun v => (v.entries, transit v)) (besideQueue w')) = (fun v => (v.entries, transit v)) (besideQueue w))
  queued now := now.unparked
  parked now ref peerIndex below := serving_parked now below peerIndex
  taken now := ⟨pipes_of now.pipes rfl now.pipes.keys, by simp [Unparked], now.undisturbed⟩
  written now _ frame below := serving_written now below frame

theorem drainPreEpochQueue_served (serves : ∀ frame, call ≠ .transform frame)
    (now : Serving runtime w₀ calls at_ start w) :
    Served runtime w₀ calls call (drainPreEpochQueue runtime) at_ start w :=
  drainPreEpochQueue_yields (keyring serving_piped) serving_walked
    (fun _ _ below => serving_survives serves below) now

/-! ## Messages and timers -/

theorem serving_unconfigured : Unconfigured (Serving runtime w₀ calls) := fun _ _ w w' now same =>
  piped_quiet serving_piped now (congrArg (fun v => (v.entries, transit v)) same :
    ((fun v => (v.entries, transit v)) (beyondConfiguration w')) =
      (fun v => (v.entries, transit v)) (beyondConfiguration w))

theorem handleEpoch_served (serves : ∀ frame, call ≠ .transform frame)
    (now : Serving runtime w₀ calls at_ start w) {id : ι} {epoch selfPeerIndex : ℤ} {keys : KeyBundles K}
    (installs : (calls id).installs = keys.values) :
    Served runtime w₀ calls call (handleEpoch runtime epoch selfPeerIndex keys) at_ start w := by
  simp only [Yields, handleEpoch, meets_bind, meets_read, meets_settle]
  split
  · rename_i installed ok
    obtain ⟨pipes, same⟩ := pipes_installEpoch now.pipes installs ok
    exact drainPreEpochQueue_served serves (serving_piped.carries now pipes same)
  · exact now

theorem handleMessage_served {id : ι} {msg : InMsg K} (own : calls id = .message msg)
    (now : Serving runtime w₀ calls at_ start w) :
    Served runtime w₀ calls (.message msg) (handleMessage runtime msg) at_ start w := by
  refine handleMessage_yields serving_unconfigured now (fun epoch selfPeerIndex keys installs => ?_) fun _ => ?_
  · have named : (calls id).installs = keys.values := by
      rcases installs with rfl | rfl <;> rw [own] <;> rfl
    exact handleEpoch_served (by simp) now named
  · exact ⟨pipes_of now.pipes rfl now.pipes.keys, by simp [Unparked, Worker.teardown], now.undisturbed⟩

theorem fireWipeTimer_served (now : Serving runtime w₀ calls at_ start w) (epoch : ℤ) :
    Served runtime w₀ calls call (fireWipeTimer runtime epoch) at_ start w := by
  apply yields_read
  split
  · exact yields_update (serving_piped.carries now (pipes_wipeEpoch now.pipes epoch) rfl)
  · exact ⟨now, trivial⟩

/-! ## Runs -/

/-- Every call keeps to its contract. -/
theorem program_harmless {id : ι} (assumed : (piping runtime w₀ calls (calls id)).assume at_ w)
    (resumed : at_.frame = none) :
    Yields (piping runtime w₀ calls (calls id)) (Harmless runtime w₀ calls) ((calls id).call.program runtime)
      (fun _ => True) at_ w w := by
  obtain ⟨pipes, unparked, -, -⟩ := assumed
  have now : Serving runtime w₀ calls at_ w w := ⟨pipes, unparked, undisturbed_refl _⟩
  have harmless {at_ : AwaitPoint} {start w : Worker K G} (now : Serving runtime w₀ calls at_ start w) :
      Harmless runtime w₀ calls at_ start w := ⟨now.pipes, undisturbed_any now.undisturbed⟩
  have serves {program : Task K G Unit} (served : Served runtime w₀ calls (calls id) program at_ w w) :
      Yields (piping runtime w₀ calls (calls id)) (Harmless runtime w₀ calls)
        (do program; return .done : Task K G Outcome) (fun _ => True) at_ w w :=
    meets_after served (fun _ _ _ _ now _ => ⟨harmless now, trivial⟩) fun _ _ _ _ now => harmless now
  cases same : calls id with
  | message msg =>
    rw [same] at serves
    exact serves (handleMessage_served same now)
  | wipeTimer epoch =>
    rw [same] at serves
    exact serves (fireWipeTimer_served now epoch)
  | tick elapsed =>
    rw [same] at serves
    exact serves (yields_update (piped_quiet serving_piped now rfl))
  | drain =>
    rw [same] at serves
    exact serves (drainPreEpochQueue_served (by simp) now)
  | transform frame =>
    have came : Harmless runtime w₀ calls at_ w (receiveFrame frame w) := by
      refine ⟨pipes_receive pipes frame, Nat.le_succ _, List.prefix_append _ _, fun ref _ high _ => ?_⟩
      simp [receiveFrame, Nat.ne_of_lt high]
    have member : (⟨w.frames.next, frame, w.sifTrailer⟩ : Arrival) ∈ arrivals w₀ (receiveFrame frame w) := by
      simp only [arrivals, receiveFrame]
      rw [List.drop_append_of_le_length pipes.arrived.length_le]
      simp
    have forwards := decodeTransform_forwards came (.inr ⟨resumed, Nat.le_refl _⟩) member
      (by simp [receiveFrame]) rfl
    simp only [Yields, PipeCall.call, Call.program, receive, meets_bind, meets_read, meets_update, meets_pure]
    exact forwards

/-- What holds of the worker and of the calls that are under way: no two of
them work on one frame of the run. -/
structure Piping (runtime : Runtime K G) (w₀ : Worker K G) (calls : ι → PipeCall K) (w : Worker K G)
    (statuses : ι → Status AwaitPoint (Except JsError Outcome)) : Prop where
  pipes : Pipes runtime w₀ calls w
  unparked : Unparked w₀ w
  relies : ∀ call site, statuses call = .suspended site → Relies runtime w₀ calls (calls call) site w
  apart : ∀ call other site otherSite ref, call ≠ other → statuses call = .suspended site →
    statuses other = .suspended otherSite → site.frame = some ref → otherSite.frame = some ref →
    ref < w₀.frames.next

theorem relies_bounded (pipes : Pipes runtime w₀ calls w) {call : PipeCall K} {site : AwaitPoint}
    (relies : Relies runtime w₀ calls call site w) {ref : Ref} (own : site.frame = some ref) :
    ref < w.frames.next := by
  cases call with
  | transform frame =>
    obtain ⟨arrival, member, rfl, -⟩ := relies ref own
    exact (pipes.bounded arrival member).2
  | message | wipeTimer | tick | drain => exact Nat.lt_of_lt_of_le (relies ref own) pipes.grown

/-- What another call relies on outlasts a step that leaves its frame alone. -/
theorem relies_kept (pipes : Pipes runtime w₀ calls start) {own : Option Ref}
    (undisturbed : Undisturbed w₀ own start w) {call : PipeCall K} {site : AwaitPoint}
    (relies : Relies runtime w₀ calls call site start)
    (others : ∀ ref, site.frame = some ref → w₀.frames.next ≤ ref → own ≠ some ref) :
    Relies runtime w₀ calls call site w := by
  cases call with
  | message | wipeTimer | tick | drain => exact relies
  | transform frame =>
    intro ref same
    obtain ⟨arrival, member, isRef, isFrame, kept⟩ := relies ref same
    have low := (pipes.bounded arrival member).1
    have high := (pipes.bounded arrival member).2
    rw [isRef] at low high
    have reads := undisturbed.2.2 ref low high (others ref same low)
    refine ⟨arrival, arrivals_grow undisturbed.2.1 member, isRef, isFrame, ?_⟩
    rw [reads]
    exact kept

/-- The gate of the runs in which no frame is parked on arrival and no transform
takes another caller's plaintext. -/
def OpensOnArrival [DecidableEq ι] (w₀ : Worker K G) (calls : ι → PipeCall K) :
    WorkerPool ι K G → ι → WorkerPool ι K G → Prop :=
  fun before call after => whereAllowed (OwnPlaintext (calls call)) before call after ∧ Unparked w₀ after.shared

instance [DecidableEq ι] (calls : ι → PipeCall K) (before : WorkerPool ι K G) (call : ι)
    (after : WorkerPool ι K G) : Decidable (OpensOnArrival w₀ calls before call after) :=
  inferInstanceAs (Decidable (_ ∧ _))

private theorem piping_step [DecidableEq ι] {statuses : ι → Status AwaitPoint (Except JsError Outcome)}
    {call : ι} {site : AwaitPoint} {reached : Status AwaitPoint (Except JsError Outcome)}
    (piping : Piping runtime w₀ calls start statuses) (waits : statuses call = .suspended site)
    (harmless : Harmless runtime w₀ calls site start w) (unparked : Unparked w₀ w)
    (next : ∀ site', reached = .suspended site' → Relies runtime w₀ calls (calls call) site' w ∧
      ∀ ref, site'.frame = some ref → w₀.frames.next ≤ ref → Owns ref site start) :
    Piping runtime w₀ calls w (Function.update statuses call reached) := by
  obtain ⟨pipes, undisturbed⟩ := harmless
  have elsewhere {other : ι} (different : other ≠ call) {site' : AwaitPoint}
      (suspended : Function.update statuses call reached other = .suspended site') :
      statuses other = .suspended site' := by
    rwa [Function.update_of_ne different] at suspended
  have foreign {other : ι} (different : other ≠ call) {site' : AwaitPoint} {site'' : AwaitPoint} {ref : Ref}
      (suspended : statuses other = .suspended site') (arrived : reached = .suspended site'')
      (frame : site'.frame = some ref) (own : site''.frame = some ref) : ref < w₀.frames.next := by
    by_contra high
    rcases (next site'' arrived).2 ref own (Nat.not_lt.mp high) with same | ⟨-, later⟩
    · exact high (piping.apart other call site' site ref different suspended waits frame same)
    · exact absurd (relies_bounded piping.pipes (piping.relies other site' suspended) frame) (Nat.not_lt.mpr later)
  refine ⟨pipes, unparked, fun other site' suspended => ?_, fun one two site₁ site₂ ref different first second => ?_⟩
  · by_cases equal : other = call
    · subst equal
      rw [Function.update_self] at suspended
      exact (next site' suspended).1
    · have before := elsewhere equal suspended
      refine relies_kept piping.pipes undisturbed (piping.relies other site' before) fun ref frame low own => ?_
      exact absurd (piping.apart other call site' site ref equal before waits frame own) (Nat.not_lt.mpr low)
  · by_cases equal : one = call
    · subst equal
      rw [Function.update_self] at first
      exact fun own frame => foreign (Ne.symm different) (elsewhere (Ne.symm different) second) first frame own
    · by_cases equal' : two = call
      · subst equal'
        rw [Function.update_self] at second
        exact fun frame own => foreign equal (elsewhere equal first) second frame own
      · exact piping.apart one two site₁ site₂ ref different (elsewhere equal first) (elsewhere equal' second)

/-- Over every run of messages, timers, decode transforms and drains in which no
frame is parked on arrival and no transform takes another caller's plaintext:
whatever has been enqueued may be passed on of the frame object it is about. -/
theorem forwards_only_opened [DecidableEq ι] (queued : Unparked w₀ w₀) {last : WorkerPool ι K G}
    (run : Runs (OpensOnArrival w₀ calls) (launch runtime w₀ fun call => (calls call).call) last) :
    ((arrivals w₀ last.shared).map Arrival.ref).Nodup ∧
    ∀ sent ∈ forwarded w₀ last.shared, ∃ arrival ∈ arrivals w₀ last.shared, arrival.ref = sent.2.1 ∧
      Forwardable runtime w₀ calls arrival sent.2.2 := by
  have invariant := runs_invariant (fun call => piping runtime w₀ calls (calls call))
    (fun _ at_ start _ w => Harmless runtime w₀ calls at_ start w) (Piping runtime w₀ calls) ?_ ?_ ?_ ?_ run
  · exact ⟨invariant.pipes.fresh, invariant.pipes.forwards⟩
  · refine ⟨pipes_refl, queued, fun call site suspended => ?_, fun call other site _ ref _ suspended _ own => ?_⟩
    · cases suspended
      unfold Relies
      split
      · exact fun _ never => by cases never
      · exact fun _ never => by cases never
    · cases suspended
      cases own
  · refine launch_follows fun call w assumed => ?_
    refine Contract.keeps_mono (program_harmless assumed rfl) fun _ _ result _ held => ?_
    cases result with
    | ok value => exact held.1
    | error refused => exact held
  · intro before call site after holds waits _ passes
    exact ⟨holds.pipes, holds.unparked, holds.relies call site waits, passes.1 site waits⟩
  · intro before call site after holds waits passes _ moved
    refine piping_step holds waits ?_ passes.2 fun site' suspended => ?_
    · generalize after.statuses call = reached at moved
      cases reached with
      | running => exact moved.elim
      | suspended next => exact ⟨moved.1, moved.2.1⟩
      | finished result => exact moved
    · rw [suspended] at moved
      exact ⟨moved.2.2.2 passes.2, moved.2.2.1⟩

section Checked
open Specimen (sealedBy keyOf installed bundles)

/-- A worker of no epoch, and a frame that comes too early. -/
def early : Fin 1 → PipeCall Bytes := fun _ => .transform { data := sealedBy (keyOf 0 0 7) 0 [1, 2, 3] }

/-- A frame that is parked is passed on as it came. -/
theorem parked_forwarded_sealed : ¬ ∀ last : WorkerPool (Fin 1) Bytes Unit,
    Runs anyTurn (launch Specimen.runtime Worker.createWorkerState fun call => (early call).call) last →
    ∀ sent ∈ forwarded Worker.createWorkerState last.shared,
      ∃ arrival ∈ arrivals Worker.createWorkerState last.shared, arrival.ref = sent.2.1 ∧
        Forwardable Specimen.runtime Worker.createWorkerState early arrival sent.2.2 := by
  intro forwards
  have result : ((launch Specimen.runtime Worker.createWorkerState fun call => (early call).call).followPassing
      anyTurn [0, 0, 0]).map (fun pool => (pool.shared.enqueued.map fun sent => sent.2.2,
        pool.shared.arrived.map fun arrival => (arrival.frame.data, arrival.sifTrailer))) =
      some ([sealedBy (keyOf 0 0 7) 0 [1, 2, 3]], [(sealedBy (keyOf 0 0 7) 0 [1, 2, 3], none)]) := by
    decide +kernel
  obtain ⟨last, followed, logs⟩ := Option.map_eq_some_iff.mp result
  simp only [Prod.mk.injEq] at logs
  obtain ⟨sent, member, data⟩ : ∃ sent ∈ last.shared.enqueued, sent.2.2 = sealedBy (keyOf 0 0 7) 0 [1, 2, 3] := by
    rw [← List.mem_map, logs.1]
    exact List.mem_singleton_self _
  obtain ⟨arrival, member, -, forwardable⟩ := forwards last (followPassing_runs followed) sent member
  have came : (arrival.frame.data, arrival.sifTrailer) ∈ last.shared.arrived.map fun arrival =>
      (arrival.frame.data, arrival.sifTrailer) := List.mem_map_of_mem (List.mem_of_mem_drop member)
  rw [logs.2, List.mem_singleton, Prod.mk.injEq] at came
  rw [data] at forwardable
  rcases forwardable with ⟨through, -⟩ | ⟨payload, guess, plaintext, stripped, ⟨kidCodec, key, -, opened⟩, whole⟩
  · rw [came.2] at through
    cases through
  · rw [came.1, came.2] at stripped
    obtain rfl := Option.some.inj stripped
    obtain ⟨hdr, -, shorter⟩ := Specimen.opened_shorter opened
    have lengths := congrArg List.length whole
    simp only [List.length_append, List.length_take, List.length_drop, aeadTagBytes] at lengths shorter
    omega

/-- An epoch comes, then a frame. -/
def inTime : Fin 2 → PipeCall Bytes
  | 0 => .message (.epoch 0 1 (bundles [7, 9]))
  | 1 => .transform { data := sealedBy (keyOf 0 0 7) 0 [1, 2, 3] }

theorem forwards_only_opened_in_time : ∃ last : WorkerPool (Fin 2) Bytes Unit,
    last.shared.enqueued = [(.decode, 0, [1, 2, 3])] ∧
    ((arrivals Worker.createWorkerState last.shared).map Arrival.ref).Nodup ∧
    ∀ sent ∈ forwarded Worker.createWorkerState last.shared,
      ∃ arrival ∈ arrivals Worker.createWorkerState last.shared, arrival.ref = sent.2.1 ∧
        Forwardable Specimen.runtime Worker.createWorkerState inTime arrival sent.2.2 := by
  have result : ((launch Specimen.runtime Worker.createWorkerState fun call => (inTime call).call).followPassing
      (OpensOnArrival Worker.createWorkerState inTime) [0, 1, 1, 1, 1]).map (fun pool => pool.shared.enqueued) =
      some [(.decode, 0, [1, 2, 3])] := by
    decide +kernel
  obtain ⟨last, followed, enqueued⟩ := Option.map_eq_some_iff.mp result
  exact ⟨last, enqueued, forwards_only_opened (by simp [Unparked, Worker.createWorkerState])
    (followPassing_runs followed)⟩

end Checked
end SFrameRatchet.PipeForwarding
