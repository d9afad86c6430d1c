import SFrameRatchet.FrameOwnership
import SFrameRatchet.Specimen

/-! Whose plaintext a caller gets when several callers share the retry loops of
one sender. Callers hand each other promises through the dedup map; a promise
may stand for another caller's frame, so what matters is which promises a
caller returns from and which it only waits for. -/
namespace SFrameRatchet.RatchetDedup
open Collections Crypto Kid Header SFrame CodecPartial Throwing Coroutine Interleaving Media Unsealing
open FrameOwnership (Apart objectOf)

variable {K G : Type} (runtime : Runtime K G)

/-- The keys of one sender: a cached key and everything the ratchet derives
from it. The salt is the same throughout. -/
inductive Ratcheted (w₀ : Worker K G) (peerIndex : ℤ) (first : RatchetKey K) :
    ℕ → RatchetKey K → Prop where
  | cached : Ratcheted w₀ peerIndex first 0 first
  | step (earlier : Ratcheted w₀ peerIndex first n key)
      (derived : deriveNextSenderKey runtime.crypto key.rawKey key.salt epoch peerIndex w₀.suite
        w₀.kidCodec = .ok next) : Ratcheted w₀ peerIndex first (n + 1) next

/-- A plaintext is what this very buffer opens to, under the key of the sender
that its header names, some steps down that sender's ratchet. -/
def OwnOpening (w₀ : Worker K G) (buf : Bytes) (aadPrefix : Option Bytes) (aadForm : AadForm)
    (plaintext : Bytes) : Prop :=
  ∃ hdr first key n, parseHeader buf = .ok hdr ∧
    w₀.cachedKey (w₀.kidCodec.decode hdr.kid).1 (w₀.kidCodec.decode hdr.kid).2 = some first ∧
    Ratcheted runtime w₀ (w₀.kidCodec.decode hdr.kid).2 first n key ∧
    sframeDecrypt runtime.crypto buf (fun _ _ _ _ => some key.toSFrameKey) w₀.kidCodec
      aadPrefix aadForm = .ok plaintext

/-- What decides how a frame is opened has stayed as it was, except that keys
have moved down their ratchets. -/
structure Keyed (w₀ w : Worker K G) : Prop where
  suite : w.suite = w₀.suite
  kidCodec : w.kidCodec = w₀.kidCodec
  epochs : w.epochs = w₀.epochs
  sifTrailer : w.sifTrailer = w₀.sifTrailer
  keys : ∀ ref peerIndex key, (w.entries.read ref).keys.get? peerIndex = some key →
    ∃ first n, (w₀.entries.read ref).keys.get? peerIndex = some first ∧
      Ratcheted runtime w₀ peerIndex first n key

variable {runtime} {w₀ w w' : Worker K G}

theorem keyed_refl : Keyed runtime w₀ w₀ :=
  ⟨rfl, rfl, rfl, rfl, fun _ _ key held => ⟨key, 0, held, .cached⟩⟩

/-- Keying is about these fields. -/
private def keying (w : Worker K G) :=
  (w.suite, w.kidCodec, w.epochs, w.sifTrailer, w.entries)

private theorem keyed_of (keyed : Keyed runtime w₀ w) (same : keying w' = keying w) :
    Keyed runtime w₀ w' := by
  simp only [keying, Prod.mk.injEq] at same
  obtain ⟨suite, kidCodec, epochs, sifTrailer, entries⟩ := same
  refine ⟨suite.trans keyed.suite, kidCodec.trans keyed.kidCodec, epochs.trans keyed.epochs,
    sifTrailer.trans keyed.sifTrailer, fun ref peerIndex key held => ?_⟩
  rw [entries] at held
  exact keyed.keys ref peerIndex key held

theorem keyed_advance (keyed : Keyed runtime w₀ w) {ref : Ref} {peerIndex : ℤ} {step n : ℕ}
    {first next : RatchetKey K} (initial : (w₀.entries.read ref).keys.get? peerIndex = some first)
    (ratcheted : Ratcheted runtime w₀ peerIndex first n next) :
    Keyed runtime w₀ (advanceKey w ref peerIndex next step) where
  suite := keyed.suite
  kidCodec := keyed.kidCodec
  epochs := keyed.epochs
  sifTrailer := keyed.sifTrailer
  keys other pi key held := by
    simp only [advanceKey, Heap.read_write] at held
    split at held
    · rename_i same
      subst same
      rw [OrderedMap.get?_set] at held
      split at held
      · rename_i equal
        subst equal
        cases held
        exact ⟨first, n, initial, ratcheted⟩
      · exact keyed.keys _ pi key held
    · exact keyed.keys _ pi key held

/-! ## What one caller may rely on, and keeps -/

/-- The calls whose results are at stake. -/
inductive DecryptCall where
  | tryDecryptWithRatchet (opening : Opening)
  | decodeFrame (frame : EncodedFrame)

def DecryptCall.call : DecryptCall → Call K
  | tryDecryptWithRatchet opening => .tryDecryptWithRatchet opening
  | decodeFrame frame => .decodeFrame frame

/-- What `decodeFrame` says it opened is the frame's own payload behind the
clear prefix. -/
def OwnFrame (runtime : Runtime K G) (w₀ : Worker K G) (payload : Bytes) (guess : FormatGuess) (plaintext : Bytes) :
    Prop :=
  OwnOpening runtime w₀ (payload.drop guess.prefixLen) (aadPrefixOf payload guess.prefixLen)
    guess.aadForm plaintext

/-- The call decodes a frame whose tag verifies under a key of the sender that its header names. -/
def Verifies (runtime : Runtime K G) (w₀ : Worker K G) (call : DecryptCall) : Prop :=
  ∃ frame payload guess plaintext, call = .decodeFrame frame ∧
    sifPayload w₀.sifTrailer frame.data = some payload ∧ OwnFrame runtime w₀ payload guess plaintext

/-- What a log has got more is about the object of this call, whose tag verifies. -/
def Admits (runtime : Runtime K G) (w₀ : Worker K G) (call : DecryptCall) (object : Ref)
    (before log : List (Slot × Ref)) : Prop :=
  ∃ added, log = before ++ added ∧ ∀ entry ∈ added, entry.2 = object ∧ Verifies runtime w₀ call

/-- What a call does in a turn: it keeps the keying, writes no object but its own, and
accepts and delivers its own frame only, when its tag verifies. -/
structure Turning (runtime : Runtime K G) (w₀ : Worker K G) (call : DecryptCall) (at_ : AwaitPoint)
    (start w : Worker K G) : Prop extends Apart [] at_ start w where
  keyed : Keyed runtime w₀ w
  arrived : start.arrived ⊆ w.arrived
  accepted : Admits runtime w₀ call (objectOf at_ start) start.accepted w.accepted
  delivered : Admits runtime w₀ call (objectOf at_ start) start.delivered w.delivered

/-- The object of a frame that is being decoded: it is there, and it is as it came. -/
structure Handling (runtime : Runtime K G) (w₀ : Worker K G) (frame : EncodedFrame) (ref : Ref) (at_ : AwaitPoint)
    (start w : Worker K G) : Prop extends Turning runtime w₀ (.decodeFrame frame) at_ start w where
  own : ref = objectOf at_ start
  made : ref < w.frames.next
  came : ⟨ref, frame, w₀.sifTrailer⟩ ∈ w.arrived
  intact : w.frames.read ref = frame

/-- What a suspended call knows of its object. -/
def InHand (w₀ : Worker K G) (call : DecryptCall) (site : AwaitPoint) (w : Worker K G) : Prop :=
  ∀ frame ref, call = .decodeFrame frame → site.frame = some ref →
    ref < w.frames.next ∧ ⟨ref, frame, w₀.sifTrailer⟩ ∈ w.arrived ∧ w.frames.read ref = frame

/-- The object that the sites of a call name. -/
def named : DecryptCall → Ref → Option Ref
  | .decodeFrame _, object => some object
  | .tryDecryptWithRatchet _, _ => none

/-- What a call may assume, and what holds when it suspends. -/
def dedup (runtime : Runtime K G) (w₀ : Worker K G) (call : DecryptCall) : Contract AwaitPoint (Worker K G) where
  assume at_ w := Keyed runtime w₀ w ∧ ForeignRejected at_ w ∧ InHand w₀ call at_ w
  moves at_ start next w := Turning runtime w₀ call at_ start w ∧ next.frame = named call (objectOf at_ start) ∧
    InHand w₀ call next w

variable {call : DecryptCall} {at_ : AwaitPoint} {start : Worker K G}

theorem verifies_decodes (verifies : Verifies runtime w₀ call) : ∃ frame, call = .decodeFrame frame :=
  verifies.imp fun _ found => found.choose_spec.choose_spec.choose_spec.1

theorem admits_refl {object : Ref} (log : List (Slot × Ref)) : Admits runtime w₀ call object log log :=
  ⟨[], by simp, by simp⟩

theorem admits_more {object : Ref} {before log : List (Slot × Ref)} (admits : Admits runtime w₀ call object before log)
    (verifies : Verifies runtime w₀ call) (slot : Slot) :
    Admits runtime w₀ call object before (log ++ [(slot, object)]) := by
  obtain ⟨added, rfl, own⟩ := admits
  refine ⟨added ++ [(slot, object)], List.append_assoc _ _ _, fun entry member => ?_⟩
  rcases List.mem_append.mp member with old | new
  · exact own entry old
  · rw [List.mem_singleton.mp new]
    exact ⟨rfl, verifies⟩

theorem turning_refl (keyed : Keyed runtime w₀ w) : Turning runtime w₀ call at_ w w :=
  ⟨FrameOwnership.apart_refl _ _ _, keyed, List.Subset.refl _, admits_refl _, admits_refl _⟩

/-- The objects, and what has been noted of them. -/
private def handled (w : Worker K G) := (w.frames, w.arrived, w.accepted, w.delivered)

/-- A reading about the keying, the objects and what has been noted of them. -/
structure Guarded (runtime : Runtime K G) (w₀ : Worker K G) (holds : Reading K G) : Prop where
  keyed : ∀ {at_ start w}, holds at_ start w → Keyed runtime w₀ w
  carries : ∀ {at_ start w w'}, holds at_ start w → Keyed runtime w₀ w' → handled w' = handled w → holds at_ start w'

theorem turning_guarded : Guarded runtime w₀ (Turning runtime w₀ call) where
  keyed now := now.keyed
  carries now keyed same := by
    simp only [handled, Prod.mk.injEq] at same
    obtain ⟨frames, arrived, accepted, delivered⟩ := same
    refine ⟨⟨?_, ?_⟩, keyed, ?_, ?_, ?_⟩
    · rw [frames]; exact now.grown
    · rw [frames]; exact now.others
    · rw [arrived]; exact now.arrived
    · rw [accepted]; exact now.accepted
    · rw [delivered]; exact now.delivered

theorem handling_guarded {frame : EncodedFrame} {ref : Ref} : Guarded runtime w₀ (Handling runtime w₀ frame ref) where
  keyed now := now.keyed
  carries now keyed same := by
    have turning := turning_guarded.carries now.toTurning keyed same
    simp only [handled, Prod.mk.injEq] at same
    obtain ⟨frames, arrived, -, -⟩ := same
    refine ⟨turning, now.own, ?_, ?_, ?_⟩
    · rw [frames]; exact now.made
    · rw [arrived]; exact now.came
    · rw [frames]; exact now.intact

section Guarded
variable {holds : Reading K G} (guarded : Guarded runtime w₀ holds)
include guarded

theorem guarded_of (now : holds at_ start w) (same : keying w' = keying w) (unchanged : handled w' = handled w) :
    holds at_ start w' :=
  guarded.carries now (keyed_of (guarded.keyed now) same) unchanged

theorem guarded_core (now : holds at_ start w) (same : w'.core = w.core) : holds at_ start w' :=
  guarded_of guarded now (congrArg keying same : keying w'.core = keying w.core)
    (congrArg handled same : handled w'.core = handled w.core)

theorem guarded_unchecked : Unchecked holds := fun _ _ w w' now same =>
  guarded_of guarded now (congrArg keying same : keying (beyondChecks w') = keying (beyondChecks w))
    (congrArg handled same : handled (beyondChecks w') = handled (beyondChecks w))

end Guarded

/-- The keys of the senders installed at first, with what their ratchets derive. -/
def keyring {holds : Reading K G} (guarded : Guarded runtime w₀ holds) : Keyring runtime holds where
  known epoch peerIndex key := ∃ first n, w₀.cachedKey epoch peerIndex = some first ∧
    Ratcheted runtime w₀ peerIndex first n key
  names epoch ref := w₀.epochs.get? epoch = some ref
  codecs kidCodec := kidCodec = w₀.kidCodec
  quiet {_ _ w w'} now same :=
    guarded_of guarded now (congrArg keying same : keying (beyondPromises w') = keying (beyondPromises w))
      (congrArg handled same : handled (beyondPromises w') = handled (beyondPromises w))
  codec now := (guarded.keyed now).kidCodec
  installed now found := (guarded.keyed now).epochs ▸ found
  held := by
    intro _ _ w epoch ref peerIndex key now named found
    obtain ⟨first, n, initial, ratcheted⟩ := (guarded.keyed now).keys ref peerIndex key found
    exact ⟨first, n, by simp [Worker.cachedKey, named, initial], ratcheted⟩
  derives := by
    rintro _ _ w epoch peerIndex key next now ⟨first, n, initial, ratcheted⟩ derived
    rw [(guarded.keyed now).suite, (guarded.keyed now).kidCodec] at derived
    exact ⟨first, n + 1, initial, ratcheted.step derived⟩
  advances := by
    rintro _ _ w epoch ref peerIndex next now named ⟨first, n, initial, ratcheted⟩ step
    obtain ⟨_, same, initial⟩ := Option.bind_eq_some_iff.mp initial
    obtain rfl := Option.some.inj (named.symm.trans same)
    exact guarded.carries now (keyed_advance (guarded.keyed now) initial ratcheted) rfl

theorem own_of_opened {holds : Reading K G} {guarded : Guarded runtime w₀ holds} {buf plaintext : Bytes}
    {aadPrefix : Option Bytes} {aadForm : AadForm} (opened : (keyring guarded).Opened buf aadPrefix aadForm plaintext) :
    OwnOpening runtime w₀ buf aadPrefix aadForm plaintext := by
  obtain ⟨_, hdr, key, rfl, parsed, ⟨first, n, initial, ratcheted⟩, opened⟩ := opened
  exact ⟨hdr, first, key, n, parsed, initial, ratcheted, opened⟩

/-! ## A frame and a buffer -/

theorem turning_survives {opening : Opening} (point : Point) :
    Survives (dedup runtime w₀ (.tryDecryptWithRatchet opening)) (Turning runtime w₀ (.tryDecryptWithRatchet opening))
      { point } :=
  fun _ _ _ now => ⟨⟨now, rfl, nofun⟩, fun _ assumed => turning_refl assumed.1⟩

/-- **The caller's own plaintext.** Whatever `tryDecryptWithRatchet` returns is
an opening of the buffer it was given. -/
theorem tryDecryptWithRatchet_turns {o : Opening}
    (now : Turning runtime w₀ (.tryDecryptWithRatchet o) at_ start w) :
    Yields (dedup runtime w₀ (.tryDecryptWithRatchet o)) (Turning runtime w₀ (.tryDecryptWithRatchet o))
      (Media.tryDecryptWithRatchet runtime (fun point => { point := .ratchet point }) o)
      (fun plaintext => OwnOpening runtime w₀ o.buf o.aadPrefix o.aadForm plaintext) at_ start w :=
  yields_mono (tryDecryptWithRatchet_yields (keyring turning_guarded) (fun _ => turning_survives _) o now)
    fun _ own => own_of_opened (own (unshared_of_foreign (fun assumed => assumed.2.1) fun _ => rfl))

variable {frame : EncodedFrame} {ref : Ref}

theorem handling_survives (site : AwaitPoint) (own : site.frame = some ref) :
    Survives (dedup runtime w₀ (.decodeFrame frame)) (Handling runtime w₀ frame ref) site := by
  refine fun at_ start w now => ⟨⟨now.toTurning, by rw [own, now.own]; rfl, fun other ref' same named => ?_⟩,
    fun later assumed => ?_⟩
  · obtain rfl := DecryptCall.decodeFrame.inj same
    obtain rfl := Option.some.inj (own.symm.trans named)
    exact ⟨now.made, now.came, now.intact⟩
  · obtain ⟨made, came, intact⟩ := assumed.2.2 frame ref rfl own
    exact ⟨turning_refl assumed.1, by simp [objectOf, own], made, came, intact⟩

/-- What `decodeFrame` leaves of the object of a frame: a frame that it has opened holds the
clear prefix and its own plaintext, any other is as it came. -/
def Left (runtime : Runtime K G) (w₀ : Worker K G) (frame : EncodedFrame) (object : Ref) (w : Worker K G) :
    Path → Prop
  | .opened guess plaintext => ∃ payload, sifPayload w₀.sifTrailer frame.data = some payload ∧
      OwnFrame runtime w₀ payload guess plaintext ∧
      w.frames.read object = { frame with data := payload.take guess.prefixLen ++ plaintext }
  | _ => w.frames.read object = frame

/-- A frame gets its decrypted bytes. -/
theorem turning_delivered (now : Handling runtime w₀ frame ref at_ start w)
    (verifies : Verifies runtime w₀ (.decodeFrame frame)) (slot : Slot) (data : Bytes) :
    Turning runtime w₀ (.decodeFrame frame) at_ start (deliver w slot ref data) where
  grown := now.grown
  others other there unseen apart := by
    have different : other ≠ ref := now.own ▸ FrameOwnership.ne_objectOf there apart
    simp only [deliver, Heap.read_write, if_neg different]
    exact now.others other there unseen apart
  keyed := keyed_of now.keyed rfl
  arrived := now.arrived
  accepted := now.accepted
  delivered := now.own ▸ admits_more (now.own ▸ now.delivered) verifies slot

/-- A frame that has passed the gates is parked or opened. -/
theorem decodePayload_turns {payload : Bytes} (stripped : sifPayload w₀.sifTrailer frame.data = some payload)
    (now : Handling runtime w₀ frame ref at_ start w) (guess : FormatGuess) {probed : Option Probed}
    (hdr : SFrameHeader)
    (own : ∀ found, probed = some found →
      (keyring (@handling_guarded K G runtime w₀ frame ref)).OpenedFrame payload guess found.plaintext) :
    Meets (dedup runtime w₀ (.decodeFrame frame)) (decodePayload runtime ref payload guess probed hdr)
      (fun at_ start path w => Turning runtime w₀ (.decodeFrame frame) at_ start w ∧ ref = objectOf at_ start ∧
        ref < w.frames.next ∧ ⟨ref, frame, w₀.sifTrailer⟩ ∈ w.arrived ∧ Left runtime w₀ frame ref w path)
      (fun at_ start _ w => Handling runtime w₀ frame ref at_ start w) at_ start w := by
  have opens {opened : Bytes} (opens : (keyring handling_guarded).OpensFrame (dedup runtime w₀ (.decodeFrame frame)) ref
      payload guess probed opened) : OwnFrame runtime w₀ payload guess opened :=
    own_of_opened (opens own fun _ => unshared_of_foreign (fun assumed => assumed.2.1) fun _ => rfl)
  refine meets_mono (decodePayload_accepts (keyring handling_guarded) (guarded_unchecked handling_guarded) ref payload
    guess probed hdr ?_ (fun site named _ _ => handling_survives site named) now) ?_ (fun _ _ _ _ now => now)
  · intro at_ start w slot object opened now own
    obtain ⟨windows, accepted⟩ := Worker.acceptReplay_eq w slot object ref
    have verifies : Verifies runtime w₀ (.decodeFrame frame) :=
      ⟨frame, payload, guess, opened, rfl, stripped, opens own⟩
    rw [accepted]
    exact { now with
      keyed := keyed_of now.keyed rfl
      accepted := now.own ▸ admits_more (now.own ▸ now.accepted) verifies slot }
  · intro at_ start path w ended
    cases path with
    | passedThrough => exact ended.elim
    | parked =>
      obtain ⟨v, peerIndex, now, rfl⟩ := ended
      obtain ⟨kept, -, same⟩ := Worker.core_pushToQueue v ref peerIndex
      have queued : Handling runtime w₀ frame ref at_ start { v with preEpochQueue := kept ++ [ref] } :=
        guarded_of handling_guarded now rfl rfl
      have parked := guarded_core handling_guarded queued same
      exact ⟨parked.toTurning, parked.own, parked.made, parked.came, parked.intact⟩
    | opened format plaintext =>
      obtain ⟨rfl, own, v, slot, now, delivered⟩ := ended
      have verifies : Verifies runtime w₀ (.decodeFrame frame) :=
        ⟨frame, payload, format, plaintext, rfl, stripped, opens own⟩
      have given := turning_delivered now verifies slot (payload.take format.prefixLen ++ plaintext)
      have frames : w.frames = v.frames.write ref
          { v.frames.read ref with data := payload.take format.prefixLen ++ plaintext } := congrArg (·.frames) delivered
      have arrived : w.arrived = v.arrived := congrArg (·.arrived) delivered
      refine ⟨guarded_core turning_guarded given delivered, now.own, ?_, ?_, payload, stripped, opens own, ?_⟩
      · rw [frames]; exact now.made
      · rw [arrived]; exact now.came
      · rw [frames, Heap.read_write, if_pos rfl, now.intact]

/-- **The frame's own plaintext.** Whatever `decodeFrame` opens is an opening
of the frame it was given, and the frame holds it then. -/
theorem decodeFrame_turns (now : Handling runtime w₀ frame ref at_ start w) :
    Meets (dedup runtime w₀ (.decodeFrame frame)) (Media.decodeFrame runtime ref)
      (fun at_ start path w => Turning runtime w₀ (.decodeFrame frame) at_ start w ∧ ref = objectOf at_ start ∧
        ref < w.frames.next ∧ ⟨ref, frame, w₀.sifTrailer⟩ ∈ w.arrived ∧ Left runtime w₀ frame ref w path)
      (fun at_ start _ w => Handling runtime w₀ frame ref at_ start w) at_ start w := by
  have thrown : ∀ at_ start (error : JsError) (w : Worker K G), Handling runtime w₀ frame ref at_ start w →
      Handling runtime w₀ frame ref at_ start w := fun _ _ _ _ now => now
  simp only [Media.decodeFrame, meets_bind, meets_read, now.intact]
  cases stripped : sifPayload w.sifTrailer frame.data with
  | none => exact ⟨now.toTurning, now.own, now.made, now.came, now.intact⟩
  | some payload =>
    rw [now.keyed.sifTrailer] at stripped
    refine meets_after (resolveFormat_yields (keyring handling_guarded) ref payload _ _ (handling_survives _ rfl)
      (handling_survives _ rfl) now) (fun at_ start resolved w now own => ?_) thrown
    simp only [meets_bind, meets_read]
    cases parseHeader (payload.drop resolved.1.prefixLen) with
    | error refused =>
      simp only [meets_bind, meets_update, meets_throw]
      exact guarded_core handling_guarded now (core_failDecode _ _ _)
    | ok hdr =>
      simp only [meets_bind, meets_update, meets_tryCatch, meets_throw]
      have noted (slot : Slot) : Handling runtime w₀ frame ref at_ start
          { w with resolved := w.resolved ++ [(ref, slot)] } := guarded_of handling_guarded now rfl rfl
      refine meets_mono (decodePayload_turns stripped (noted _) resolved.1 hdr own) (fun _ _ _ _ held => held) ?_
      exact fun _ _ refused w now => guarded_core handling_guarded now (core_failDecode w _ refused)

/-! ## Runs -/

/-- A call that has returned its own plaintext, if it has returned one. The object of a
frame that was not opened is as it came. -/
def OwnResult (runtime : Runtime K G) (w₀ w : Worker K G) (object : Ref) : DecryptCall → Except JsError Outcome → Prop
  | .tryDecryptWithRatchet o, outcome => ∀ bytes, outcome = .ok (.plaintext bytes) →
    OwnOpening runtime w₀ o.buf o.aadPrefix o.aadForm bytes
  | .decodeFrame frame, .ok (.decoded path) => Left runtime w₀ frame object w path
  | .decodeFrame frame, _ => w.frames.read object = frame

/-- How a call may end. -/
def Ended (runtime : Runtime K G) (w₀ : Worker K G) (call : DecryptCall) (at_ : AwaitPoint) (start : Worker K G)
    (outcome : Except JsError Outcome) (w : Worker K G) : Prop :=
  Turning runtime w₀ call at_ start w ∧ OwnResult runtime w₀ w (objectOf at_ start) call outcome ∧
    ∀ frame, call = .decodeFrame frame → objectOf at_ start < w.frames.next ∧
      ⟨objectOf at_ start, frame, w₀.sifTrailer⟩ ∈ w.arrived

theorem program_turns (keyed : Keyed runtime w₀ w) (call : DecryptCall) :
    Meets (dedup runtime w₀ call) (call.call.program runtime)
      (fun at_ start value w => Ended runtime w₀ call at_ start (.ok value) w)
      (fun at_ start refused w => Ended runtime w₀ call at_ start (.error refused) w) { point := .start } w w := by
  cases call with
  | tryDecryptWithRatchet o =>
    simp only [DecryptCall.call, Call.program, meets_bind, meets_pure]
    refine meets_mono (tryDecryptWithRatchet_turns (turning_refl keyed)) ?_ ?_
    · rintro _ _ bytes _ ⟨now, own⟩
      refine ⟨now, fun other same => ?_, fun _ never => by cases never⟩
      cases same
      exact own
    · exact fun _ _ _ _ now => ⟨now, (fun _ never => by cases never), fun _ never => by cases never⟩
  | decodeFrame frame =>
    have came : Handling runtime w₀ frame w.frames.next { point := .start } w (receiveFrame frame w) := by
      refine ⟨⟨⟨Nat.le_succ _, fun ref there _ _ => ?_⟩, keyed_of keyed rfl, List.subset_append_left _ _,
        admits_refl _, admits_refl _⟩, rfl, Nat.lt_succ_self _, ?_, ?_⟩
      · simp [receiveFrame, Nat.ne_of_lt there]
      · simp [receiveFrame, keyed.sifTrailer]
      · simp [receiveFrame]
    simp only [DecryptCall.call, Call.program, receive, meets_bind, meets_read, meets_update, meets_pure]
    refine meets_mono (decodeFrame_turns came) ?_ ?_
    · rintro at_ start path w ⟨turning, own, made, came, left⟩
      refine ⟨turning, own ▸ left, fun other same => ?_⟩
      obtain rfl := DecryptCall.decodeFrame.inj same
      exact own ▸ ⟨made, came⟩
    · intro at_ start refused w now
      refine ⟨now.toTurning, now.own ▸ now.intact, fun other same => ?_⟩
      obtain rfl := DecryptCall.decodeFrame.inj same
      exact now.own ▸ ⟨now.made, now.came⟩

section Runs
variable {ι : Type}

/-- The call has had its first turn. -/
def Begun (status : Status AwaitPoint (Except JsError Outcome)) : Prop := status ≠ .suspended { point := .start }

/-- The object of a call whose frame has a tag that verifies. -/
def Admitted (runtime : Runtime K G) (w₀ : Worker K G) (calls : ι → DecryptCall) (objects : ι → Ref)
    (statuses : ι → Status AwaitPoint (Except JsError Outcome)) (ref : Ref) : Prop :=
  ∃ call, Begun (statuses call) ∧ objects call = ref ∧ Verifies runtime w₀ (calls call)

/-- Every call that decodes has received an object of its own. Whatever a call returns is
its own plaintext, which its object holds then, and no frame is accepted or delivered
whose own tag does not verify. -/
structure OwnPlaintexts (runtime : Runtime K G) (w₀ : Worker K G) (calls : ι → DecryptCall) (objects : ι → Ref)
    (w : Worker K G) (statuses : ι → Status AwaitPoint (Except JsError Outcome)) : Prop where
  received : ∀ call frame, calls call = .decodeFrame frame → Begun (statuses call) →
    w₀.frames.next ≤ objects call ∧ ⟨objects call, frame, w₀.sifTrailer⟩ ∈ w.arrived
  apart : ∀ call other frame frame', calls call = .decodeFrame frame → calls other = .decodeFrame frame' →
    Begun (statuses call) → Begun (statuses other) → objects call = objects other → call = other
  results : ∀ call outcome, statuses call = .finished outcome →
    OwnResult runtime w₀ w (objects call) (calls call) outcome
  accepted : ∀ entry ∈ acceptedSince w₀ w, Admitted runtime w₀ calls objects statuses entry.2
  delivered : ∀ entry ∈ deliveredSince w₀ w, Admitted runtime w₀ calls objects statuses entry.2

/-- What is true between any two turns: the keying, and what the suspended calls know of
their objects. -/
structure Deduped (runtime : Runtime K G) (w₀ : Worker K G) (calls : ι → DecryptCall) (objects : ι → Ref)
    (w : Worker K G) (statuses : ι → Status AwaitPoint (Except JsError Outcome)) : Prop extends
    OwnPlaintexts runtime w₀ calls objects w statuses where
  keyed : Keyed runtime w₀ w
  grown : w₀.frames.next ≤ w.frames.next
  acceptedOn : w₀.accepted <+: w.accepted
  deliveredOn : w₀.delivered <+: w.delivered
  made : ∀ call frame, calls call = .decodeFrame frame → Begun (statuses call) → objects call < w.frames.next
  waiting : ∀ call site, statuses call = .suspended site → site = { point := .start } ∨
    site.frame = named (calls call) (objects call) ∧ InHand w₀ (calls call) site w

variable {calls : ι → DecryptCall} {objects : ι → Ref}
  {statuses : ι → Status AwaitPoint (Except JsError Outcome)} {site : AwaitPoint} {id : ι}

theorem deduped_launch (objects : ι → Ref) : Deduped runtime w₀ calls objects w₀
    (launch runtime w₀ fun call => (calls call).call).statuses where
  received _ _ _ begun := absurd rfl begun
  apart _ _ _ _ _ _ begun := absurd rfl begun
  results _ _ never := by cases never
  accepted := by simp [acceptedSince]
  delivered := by simp [deliveredSince]
  keyed := keyed_refl
  grown := Nat.le_refl _
  acceptedOn := List.prefix_rfl
  deliveredOn := List.prefix_rfl
  made _ _ _ begun := absurd rfl begun
  waiting _ site suspended := by
    cases suspended
    exact .inl rfl

/-- A call that decodes goes on with the object it has. -/
theorem objectOf_begun (deduped : Deduped runtime w₀ calls objects start statuses)
    (waits : statuses id = .suspended site) {frame : EncodedFrame} (decodes : calls id = .decodeFrame frame)
    (begun : Begun (statuses id)) : objectOf site start = objects id := by
  rcases deduped.waiting id site waits with rfl | ⟨same, -⟩
  · exact absurd waits begun
  · rw [objectOf, same, decodes]
    rfl

/-- The object of another call is not the one that a resumed call works on. -/
theorem ne_objectOf (deduped : Deduped runtime w₀ calls objects start statuses) (waits : statuses id = .suspended site)
    {other : ι} (different : other ≠ id) {frame : EncodedFrame} (decodes : calls other = .decodeFrame frame)
    (begun : Begun (statuses other)) : site.frame ≠ some (objects other) := by
  intro same
  rcases deduped.waiting id site waits with rfl | ⟨names, -⟩
  · cases same
  · cases call : calls id with
    | tryDecryptWithRatchet o =>
      rw [names, call] at same
      cases same
    | decodeFrame frame' =>
      rw [names, call] at same
      have here : Begun (statuses id) := by
        rw [waits]
        rintro ⟨⟩
        rw [call] at names
        cases names
      exact different (deduped.apart other id frame frame' decodes call begun here (Option.some.inj same).symm)

/-- The objects of the other calls stay as they are. -/
theorem read_other (deduped : Deduped runtime w₀ calls objects start statuses) (waits : statuses id = .suspended site)
    (turning : Turning runtime w₀ (calls id) site start w) {other : ι} (different : other ≠ id) {frame : EncodedFrame}
    (decodes : calls other = .decodeFrame frame) (begun : Begun (statuses other)) :
    w.frames.read (objects other) = start.frames.read (objects other) :=
  turning.others _ (deduped.made other frame decodes begun) List.not_mem_nil
    (ne_objectOf deduped waits different decodes begun)

theorem ownResult_of {object : Ref} {outcome : Except JsError Outcome}
    (result : OwnResult runtime w₀ start object call outcome)
    (same : ∀ frame, call = .decodeFrame frame → w.frames.read object = start.frames.read object) :
    OwnResult runtime w₀ w object call outcome := by
  cases call with
  | tryDecryptWithRatchet o => exact result
  | decodeFrame frame =>
    have same := same frame rfl
    cases outcome with
    | error refused => exact same.trans result
    | ok value =>
      cases value with
      | decoded path =>
        cases path with
        | opened guess plaintext =>
          obtain ⟨payload, stripped, own, holds⟩ := result
          exact ⟨payload, stripped, own, same.trans holds⟩
        | parked | passedThrough => exact same.trans result
      | done | plaintext => exact same.trans result

variable {reached : Status AwaitPoint (Except JsError Outcome)}

theorem turning_moved
    (moved : Moved (dedup runtime w₀ (calls id)) (Ended runtime w₀ (calls id)) site start reached w) :
    Turning runtime w₀ (calls id) site start w := by
  cases reached with
  | running => exact moved.elim
  | suspended next => exact moved.1
  | finished outcome => exact moved.1

/-- A call that decodes has its object from its first turn on. -/
theorem object_moved
    (moved : Moved (dedup runtime w₀ (calls id)) (Ended runtime w₀ (calls id)) site start reached w)
    {frame : EncodedFrame} (decodes : calls id = .decodeFrame frame) : Begun reached ∧
    objectOf site start < w.frames.next ∧ ⟨objectOf site start, frame, w₀.sifTrailer⟩ ∈ w.arrived := by
  cases reached with
  | running => exact moved.elim
  | suspended next =>
    obtain ⟨-, names, inHand⟩ := moved
    rw [decodes] at names
    obtain ⟨made, came, -⟩ := inHand frame _ decodes names
    refine ⟨?_, made, came⟩
    rintro ⟨⟩
    cases names
  | finished outcome =>
    obtain ⟨made, came⟩ := moved.2.2 frame decodes
    refine ⟨?_, made, came⟩
    rintro ⟨⟩

variable [DecidableEq ι]

/-- What a log says is about objects of calls, and stays so. -/
theorem admitted_turn (deduped : Deduped runtime w₀ calls objects start statuses)
    (waits : statuses id = .suspended site)
    {before earlier log : List (Slot × Ref)} (grown : before <+: earlier)
    (admits : Admits runtime w₀ (calls id) (objectOf site start) earlier log)
    (begins : ∀ frame, calls id = .decodeFrame frame → Begun reached)
    (held : ∀ entry ∈ earlier.drop before.length, Admitted runtime w₀ calls objects statuses entry.2) :
    ∀ entry ∈ log.drop before.length, Admitted runtime w₀ calls (Function.update objects id (objectOf site start))
      (Function.update statuses id reached) entry.2 := by
  obtain ⟨added, rfl, own⟩ := admits
  intro entry member
  rw [List.drop_append_of_le_length grown.length_le] at member
  rcases List.mem_append.mp member with old | new
  · obtain ⟨call, begun, same, verifies⟩ := held entry old
    by_cases equal : call = id
    · subst equal
      obtain ⟨frame, decodes⟩ := verifies_decodes verifies
      refine ⟨call, by simpa using begins frame decodes, ?_, verifies⟩
      rw [Function.update_self, objectOf_begun deduped waits decodes begun, same]
    · exact ⟨call, by simpa [equal] using begun, by simpa [equal] using same, verifies⟩
  · obtain ⟨same, verifies⟩ := own entry new
    obtain ⟨frame, decodes⟩ := verifies_decodes verifies
    exact ⟨id, by simpa using begins frame decodes, by simpa using same.symm, verifies⟩

section Moved
variable (deduped : Deduped runtime w₀ calls objects start statuses) (waits : statuses id = .suspended site)
  (moved : Moved (dedup runtime w₀ (calls id)) (Ended runtime w₀ (calls id)) site start reached w)

include deduped waits moved

theorem received_moved {call : ι} {frame : EncodedFrame} (decodes : calls call = .decodeFrame frame)
    (begun : Begun (Function.update statuses id reached call)) :
    w₀.frames.next ≤ Function.update objects id (objectOf site start) call ∧
      ⟨Function.update objects id (objectOf site start) call, frame, w₀.sifTrailer⟩ ∈ w.arrived := by
  by_cases equal : call = id
  · subst equal
    rw [Function.update_self]
    refine ⟨?_, (object_moved moved decodes).2.2⟩
    by_cases before : Begun (statuses call)
    · rw [objectOf_begun deduped waits decodes before]
      exact (deduped.received call frame decodes before).1
    · obtain rfl : site = { point := .start } := by simpa [Begun, waits] using before
      exact deduped.grown
  · rw [Function.update_of_ne equal] at begun ⊢
    obtain ⟨low, came⟩ := deduped.received call frame decodes begun
    exact ⟨low, (turning_moved moved).arrived came⟩

theorem results_moved {call : ι} {outcome : Except JsError Outcome}
    (finished : Function.update statuses id reached call = .finished outcome) :
    OwnResult runtime w₀ w (Function.update objects id (objectOf site start) call) (calls call) outcome := by
  by_cases equal : call = id
  · subst equal
    rw [Function.update_self] at finished ⊢
    subst finished
    exact moved.2.1
  · rw [Function.update_of_ne equal] at finished ⊢
    refine ownResult_of (deduped.results call outcome finished) fun frame decodes => ?_
    exact read_other deduped waits (turning_moved moved) equal decodes (by rw [finished]; rintro ⟨⟩)

/-- What the other calls know of their objects is still true. -/
theorem waiting_moved {call : ι} {site' : AwaitPoint}
    (suspended : Function.update statuses id reached call = .suspended site') : site' = { point := .start } ∨
      site'.frame = named (calls call) (Function.update objects id (objectOf site start) call) ∧
        InHand w₀ (calls call) site' w := by
  have turning := turning_moved moved
  by_cases equal : call = id
  · subst equal
    rw [Function.update_self] at suspended ⊢
    subst suspended
    exact .inr moved.2
  · rw [Function.update_of_ne equal] at suspended ⊢
    refine (deduped.waiting call site' suspended).imp_right fun held => ⟨held.1, fun frame ref decodes same => ?_⟩
    obtain ⟨made, came, intact⟩ := held.2 frame ref decodes same
    have names : objects call = ref := by
      rw [held.1, decodes] at same
      exact Option.some.inj same
    have begun : Begun (statuses call) := by
      rw [suspended]
      rintro ⟨⟩
      cases same
    have reads := read_other deduped waits turning equal decodes begun
    rw [names] at reads
    exact ⟨made.trans_le turning.grown, turning.arrived came, reads.trans intact⟩

omit moved

/-- No two calls that decode have one object. -/
theorem apart_moved {one two : ι} {frame frame' : EncodedFrame} (decodes : calls one = .decodeFrame frame)
    (decodes' : calls two = .decodeFrame frame') (begun : Begun (Function.update statuses id reached one))
    (begun' : Begun (Function.update statuses id reached two))
    (same : Function.update objects id (objectOf site start) one = Function.update objects id (objectOf site start) two) :
    one = two := by
  have others {other : ι} (different : other ≠ id) {frame : EncodedFrame} (decodes : calls other = .decodeFrame frame)
      (begun : Begun (statuses other)) : objects other ≠ objectOf site start :=
    FrameOwnership.ne_objectOf (deduped.made other frame decodes begun)
      (ne_objectOf deduped waits different decodes begun)
  by_cases equal : one = id
  · subst equal
    by_cases equal' : two = one
    · exact equal'.symm
    · rw [Function.update_of_ne equal'] at begun' same
      rw [Function.update_self] at same
      exact absurd same.symm (others equal' decodes' begun')
  · rw [Function.update_of_ne equal] at begun same
    by_cases equal' : two = id
    · subst equal'
      rw [Function.update_self] at same
      exact absurd same (others equal decodes begun)
    · rw [Function.update_of_ne equal'] at begun' same
      exact deduped.apart one two frame frame' decodes decodes' begun begun' same

end Moved

/-- A turn keeps what is true between the turns. -/
theorem deduped_step (deduped : Deduped runtime w₀ calls objects start statuses) (waits : statuses id = .suspended site)
    (moved : Moved (dedup runtime w₀ (calls id)) (Ended runtime w₀ (calls id)) site start reached w) :
    Deduped runtime w₀ calls (Function.update objects id (objectOf site start)) w
      (Function.update statuses id reached) := by
  have turning := turning_moved moved
  have begins (frame : EncodedFrame) (decodes : calls id = .decodeFrame frame) : Begun reached :=
    (object_moved moved decodes).1
  constructor
  · constructor
    · exact fun call frame decodes begun => received_moved deduped waits moved decodes begun
    · exact fun one two frame frame' decodes decodes' begun begun' same =>
        apart_moved deduped waits decodes decodes' begun begun' same
    · exact fun call outcome finished => results_moved deduped waits moved finished
    · exact admitted_turn deduped waits deduped.acceptedOn turning.accepted begins deduped.accepted
    · exact admitted_turn deduped waits deduped.deliveredOn turning.delivered begins deduped.delivered
  · exact turning.keyed
  · exact deduped.grown.trans turning.grown
  · obtain ⟨added, same, -⟩ := turning.accepted
    exact deduped.acceptedOn.trans ⟨added, same.symm⟩
  · obtain ⟨added, same, -⟩ := turning.delivered
    exact deduped.deliveredOn.trans ⟨added, same.symm⟩
  · intro call frame decodes begun
    by_cases equal : call = id
    · subst equal
      rw [Function.update_self]
      exact (object_moved moved decodes).2.1
    · rw [Function.update_of_ne equal] at begun ⊢
      exact (deduped.made call frame decodes begun).trans_le turning.grown
  · exact fun call site' suspended => waiting_moved deduped waits moved suspended

/-- Over every run in which no caller resumes with another caller's fulfilled
promise, whatever the number of callers and their order: every frame object is the one its
call received, a call that returns a plaintext returns an opening of its own buffer, under
the key of the sender its header names at some step of that sender's ratchet, its object
holds this plaintext behind the clear prefix, and a frame whose own tag does not verify is
neither accepted nor delivered, and stays as it came. -/
theorem returns_own_plaintext {last : WorkerPool ι K G}
    (run : Runs (whereAllowed ForeignRejected) (launch runtime w₀ fun call => (calls call).call) last) :
    ∃ objects, OwnPlaintexts runtime w₀ calls objects last.shared last.statuses := by
  have invariant := runs_invariant (fun call => dedup runtime w₀ (calls call))
    (fun call at_ start outcome w => Ended runtime w₀ (calls call) at_ start outcome w)
    (fun w statuses => ∃ objects, Deduped runtime w₀ calls objects w statuses)
    ⟨fun _ => 0, deduped_launch _⟩ (launch_follows fun call w assumed => ?follows) ?grants ?preserves run
  case follows =>
    refine Contract.keeps_mono (program_turns assumed.1 (calls call)) fun _ _ outcome _ held => ?_
    cases outcome <;> exact held
  case grants =>
    rintro before call site after ⟨objects, deduped⟩ waits _ passes
    refine ⟨deduped.keyed, passes site waits, ?_⟩
    rcases deduped.waiting call site waits with rfl | ⟨-, inHand⟩
    · exact fun _ _ _ never => by cases never
    · exact inHand
  case preserves =>
    rintro before call site after ⟨objects, deduped⟩ waits - - moved
    exact ⟨_, deduped_step deduped waits moved⟩
  obtain ⟨objects, deduped⟩ := invariant
  exact ⟨objects, deduped.toOwnPlaintexts⟩

end Runs

/-! ## A run with three callers -/

section Checked
open Specimen (sealedBy keyOf stepOf installed)

/-- A receiver of epoch 0 that tries one ratchet step. -/
def oneStepReceiver : Worker Bytes Unit := { installed 0 1 [7, 9] with ratchetWindowSize := 1 }

/-- A forged frame, the sender's frame one step down its ratchet, and a second
forged frame, all naming peer 0 of epoch 0. -/
def forgedAroundGenuine : Fin 3 → DecryptCall
  | 0 => .decodeFrame { data := sealedBy (keyOf 0 0 66) 1 [0] }
  | 1 => .decodeFrame { data := sealedBy (stepOf (keyOf 0 0 7)) 2 [1, 2, 3] }
  | 2 => .decodeFrame { data := sealedBy (keyOf 0 0 66) 3 [0] }

def threeCallers : WorkerPool (Fin 3) Bytes Unit :=
  launch Specimen.runtime oneStepReceiver fun call => (forgedAroundGenuine call).call

/-- The first caller exhausts its window; the second starts a loop of its own
before the third looks at the map again. -/
def thirdLooksLate : List (Fin 3) :=
  [0, 0, 0, 0, 1, 1, 1, 1, 2, 2, 2, 2, 0, 1, 2, 0, 0, 0, 1, 2, 1, 1, 1, 2, 2]

/-- The second frame has a body of three bytes, the third one of a single byte. -/
private theorem forged_not_opened (w : Worker Bytes Unit) (object : Ref) :
    ¬ OwnResult Specimen.runtime oneStepReceiver w object (forgedAroundGenuine 2)
      (.ok (.decoded (.opened ⟨0, .header⟩ [1, 2, 3]))) := by
  rintro ⟨payload, stripped, ⟨hdr, first, key, n, parsed, cached, ratcheted, opened⟩, -⟩
  obtain rfl : sealedBy (keyOf 0 0 66) 3 [0] = payload := Option.some.inj stripped
  have header : parseHeader (sealedBy (keyOf 0 0 66) 3 [0]) = .ok ⟨0, 3, 6⟩ := by decide +kernel
  have length : (sealedBy (keyOf 0 0 66) 3 [0]).length = 23 := by decide +kernel
  obtain rfl := Except.ok.inj (header.symm.trans parsed)
  simp only [List.drop_zero, sframeDecrypt, header, bind, Except.bind, length] at opened
  cases iv : deriveIv key.salt 3 with
  | error refused => simp [iv, aeadTagBytes] at opened
  | ok bytes =>
    simp only [iv, aeadTagBytes] at opened
    split at opened
    · cases opened
    · split at opened
      · rename_i plaintext verified
        have short := Specimen.decrypt_length verified
        cases opened
        simp [length, aeadTagBytes] at short
      · cases opened

/-- The third caller returns the plaintext of the second one's frame. -/
theorem returns_other_plaintext : ¬ ∀ last, Runs anyTurn threeCallers last → ∃ objects,
    OwnPlaintexts Specimen.runtime oneStepReceiver forgedAroundGenuine objects last.shared last.statuses := by
  intro authentic
  have result : ((threeCallers.followPassing anyTurn thirdLooksLate).map fun pool =>
      pool.statuses 2) = some (.finished (.ok (.decoded (.opened ⟨0, .header⟩ [1, 2, 3])))) := by
    decide +kernel
  obtain ⟨last, followed, status⟩ := Option.map_eq_some_iff.mp result
  obtain ⟨objects, own⟩ := authentic last (followPassing_runs followed)
  exact forged_not_opened _ _ (own.results 2 _ status)

/-- The sender's frame one step down its ratchet, decoded with the two forged
ones waiting: its object holds the plaintext. -/
theorem returns_own_plaintext_stepped : ∃ (last : WorkerPool (Fin 3) Bytes Unit) (object : Ref),
    (last.shared.frames.read object).data = [1, 2, 3] ∧
    OwnResult Specimen.runtime oneStepReceiver last.shared object (forgedAroundGenuine 1)
      (.ok (.decoded (.opened ⟨0, .header⟩ [1, 2, 3]))) := by
  have result : ((threeCallers.followPassing (whereAllowed ForeignRejected)
      [0, 1, 1, 1, 1, 1, 2, 1, 1, 1, 1]).map fun pool => pool.statuses 1) =
        some (.finished (.ok (.decoded (.opened ⟨0, .header⟩ [1, 2, 3])))) := by
    decide +kernel
  obtain ⟨last, followed, status⟩ := Option.map_eq_some_iff.mp result
  obtain ⟨objects, own⟩ := returns_own_plaintext (followPassing_runs followed)
  have result := own.results 1 _ status
  have holds := result
  obtain ⟨payload, -, -, holds⟩ := holds
  exact ⟨last, objects 1, by rw [holds]; rfl, result⟩

end Checked

end SFrameRatchet.RatchetDedup
