import SFrameRatchet.ForgedFrame
import SFrameRatchet.WindowExact

/-! One authentic frame at a receiver that no other call is working on. The frame
is sealed in one wire format, under a key some steps down its sender's chain. It
is opened when the format it is taken for is its own and the ratchet reaches its
key; a frame taken for another format is lost. -/
namespace SFrameRatchet.AuthenticFrames
open Collections Crypto Kid Header SFrame CodecPartial Throwing Coroutine Media RatchetCursor RatchetDedup SoloDecoding
  ForgedFrame WindowExact

variable {K G : Type} (runtime : Runtime K G)

/-- A sender as a receiver knows it: where its key is, and the key cached there. -/
structure Sender (K : Type) where
  epoch : ℤ
  peerIndex : ℤ
  cached : RatchetKey K

/-- The receiver has the sender's key, with the key identifier that is its own. -/
structure Serves (w : Worker K G) (suite : CipherSuite) (kidCodec : KidCodec) (sender : Sender K) : Prop where
  sameSuite : w.suite = suite
  sameCodec : w.kidCodec = kidCodec
  held : w.cachedKey sender.epoch sender.peerIndex = some sender.cached
  own : kidCodec.encode sender.epoch sender.peerIndex = .ok sender.cached.kid

/-- A payload that a sender has sealed: the clear prefix of the format, and the
rest sealed at a counter, some steps down from the key that the receiver has. -/
structure AuthenticFrame (suite : CipherSuite) (kidCodec : KidCodec) (sender : Sender K) where
  format : FormatGuess
  step : ℕ
  key : RatchetKey K
  ctr : ℕ
  clear : Bytes
  body : Bytes
  buf : Bytes
  clears : clear.length = format.prefixLen
  stepped : keyAt runtime suite kidCodec sender.epoch sender.peerIndex sender.cached step = .ok key
  sealed : sframeEncrypt runtime.crypto body key.toSFrameKey ctr (aadPrefixOf clear format.prefixLen) format.aadForm =
    .ok buf

variable {runtime} {suite : CipherSuite} {kidCodec : KidCodec} {sender : Sender K}

namespace AuthenticFrame
variable (frame : AuthenticFrame runtime suite kidCodec sender)

def payload : Bytes := frame.clear ++ frame.buf

def slot : Slot := ⟨sender.epoch, sender.peerIndex, frame.ctr⟩

/-- What the sender had before it sealed the frame. -/
def original : Bytes := frame.clear ++ frame.body

/-- No format that the receiver considers opens the payload under a key that the
window reaches, but the frame's own format and key: the AEAD is ideal. -/
def Only (w : Worker K G) (kind : Option FrameKind) : Prop :=
  ∀ guess epoch peerIndex first n key plaintext, Considered w frame.payload kind guess →
    w.cachedKey epoch peerIndex = some first → Ratcheted runtime w peerIndex first n key → n ≤ w.ratchetWindowSize →
    sframeDecrypt runtime.crypto (frame.payload.drop guess.prefixLen) (fun _ _ _ _ => some key.toSFrameKey) w.kidCodec
      (aadPrefixOf frame.payload guess.prefixLen) guess.aadForm = .ok plaintext →
    guess = frame.format ∧ epoch = sender.epoch ∧ peerIndex = sender.peerIndex ∧ n = frame.step

/-- The receiver takes the payload for the frame's own format: the format it
remembers for the sender that it reads where its codec's prefix ends; else the
candidate that a probe opens, or the codec's own. -/
def TakenRight (w : Worker K G) (kind : Option FrameKind) : Prop :=
  match cachedFormat w frame.payload (codecPrefix frame.payload w.codec kind) with
  | some cached => cached = frame.format
  | none => frame.step = 0 ∧ frame.format ∈ formatCandidates w.codec kind ∨
      frame.format = ⟨codecPrefix frame.payload w.codec kind, .header⟩

instance (w : Worker K G) (kind : Option FrameKind) : Decidable (frame.TakenRight w kind) := by
  unfold TakenRight
  split <;> infer_instance

end AuthenticFrame

/-- The key and format tables once the frame is accepted. -/
def AuthenticFrame.settled (frame : AuthenticFrame runtime suite kidCodec sender) (w : Worker K G) : Worker K G :=
  let advanced := match w.epochs.get? sender.epoch with
    | none => w
    | some entry => if frame.step = 0 then w else advanceKey w entry sender.peerIndex frame.key frame.step
  advanced.setFormatCache sender.epoch sender.peerIndex frame.format

variable {w w' v : Worker K G}

theorem ratcheted_of_keyAt {epoch peerIndex : ℤ} {first key : RatchetKey K} {n : ℕ}
    (reached : keyAt runtime w.suite w.kidCodec epoch peerIndex first n = .ok key) :
    Ratcheted runtime w peerIndex first n key := by
  induction n generalizing key with
  | zero =>
    obtain rfl := Except.ok.inj reached
    exact .cached
  | succ n ih =>
    unfold keyAt at reached
    cases earlier : keyAt runtime w.suite w.kidCodec epoch peerIndex first n with
    | error refused => simp [earlier, bind, Except.bind] at reached
    | ok middle =>
      simp only [earlier, bind, Except.bind] at reached
      exact (ih earlier).step reached

/-- What a probe opens, it opens under the key cached for the header's sender. -/
theorem probeAttempt_ok {payload plaintext : Bytes} {guess : FormatGuess} {hdr : SFrameHeader} {epoch peerIndex : ℤ}
    (attempted : probeAttempt runtime w payload guess = some (hdr, epoch, peerIndex, .ok plaintext)) :
    ∃ key, w.cachedKey epoch peerIndex = some key ∧
      sframeDecrypt runtime.crypto (payload.drop guess.prefixLen) (fun _ _ _ _ => some key.toSFrameKey) w.kidCodec
        (aadPrefixOf payload guess.prefixLen) guess.aadForm = .ok plaintext := by
  unfold probeAttempt at attempted
  dsimp only at attempted
  split at attempted
  · cases attempted
  · split at attempted
    · cases attempted
    · split at attempted
      · cases attempted
      · rename_i key cached
        simp only [Option.some.injEq, Prod.mk.injEq] at attempted
        obtain ⟨-, rfl, rfl, opened⟩ := attempted
        exact ⟨key, cached, opened⟩

/-! ## The frame's own format -/

section Own
variable (frame : AuthenticFrame runtime suite kidCodec sender)

theorem drop_payload : frame.payload.drop frame.format.prefixLen = frame.buf := by
  rw [AuthenticFrame.payload, ← frame.clears, List.drop_left]

theorem take_payload : frame.payload.take frame.format.prefixLen = frame.clear := by
  rw [AuthenticFrame.payload, ← frame.clears, List.take_left]

/-- The receiver opens what the sender sealed, in the frame's own format. -/
theorem sealed_own (slot : Slot) : sframeEncrypt runtime.crypto frame.body frame.key.toSFrameKey frame.ctr
    (openingOf frame.payload frame.format slot).aadPrefix (openingOf frame.payload frame.format slot).aadForm =
      .ok (openingOf frame.payload frame.format slot).buf := by
  have whole : frame.clear.take frame.format.prefixLen = frame.clear := by
    rw [← frame.clears, List.take_length]
  have aadPrefix : aadPrefixOf frame.payload frame.format.prefixLen =
      aadPrefixOf frame.clear frame.format.prefixLen := by
    simp only [aadPrefixOf, take_payload, whole]
  simp only [openingOf, drop_payload, aadPrefix, frame.sealed]

variable (serves : Serves w suite kidCodec sender)

include serves

theorem kid_own : frame.key.kid = sender.cached.kid := keyAt_kid serves.own frame.stepped

theorem parse_own : ∃ hdr, parseHeader (frame.payload.drop frame.format.prefixLen) = .ok hdr ∧
    slotOf w hdr = frame.slot := by
  obtain ⟨header, iv, ct, written, -, -, same⟩ := sframeEncrypt_ok.mp frame.sealed
  refine ⟨⟨frame.key.kid, frame.ctr, header.length⟩, ?_, ?_⟩
  · rw [drop_payload, same]
    simpa using parseHeader_serializeHeader written ct
  · have sender := (decode_encode serves.own).1
    simp only [slotOf, serves.sameCodec, kid_own frame serves, sender, AuthenticFrame.slot]

theorem named_own : Named w (openingOf frame.payload frame.format frame.slot) := by
  obtain ⟨hdr, parsed, same⟩ := parse_own frame serves
  simp only [slotOf, AuthenticFrame.slot, Slot.mk.injEq] at same
  exact ⟨hdr, parsed, Prod.ext same.1 same.2.1⟩

/-- Step zero in the frame's own format. -/
theorem probeAttempt_own (correct : runtime.crypto.Correct) (now : frame.step = 0) : ∃ hdr,
    probeAttempt runtime w frame.payload frame.format =
      some (hdr, sender.epoch, sender.peerIndex, .ok frame.body) := by
  have key : frame.key = sender.cached := by
    have stepped := frame.stepped
    rw [now] at stepped
    exact (Except.ok.inj stepped).symm
  have opens := opening_sealed (w := w) (o := openingOf frame.payload frame.format frame.slot) correct
    (sealed_own frame _)
  obtain ⟨hdr, parsed, same⟩ := parse_own frame serves
  simp only [slotOf, AuthenticFrame.slot, Slot.mk.injEq] at same
  have long := ((sframeDecrypt_ok parsed).mp opens).1
  refine ⟨hdr, ?_⟩
  rw [key] at opens
  simp only [probeAttempt, parsed, same.1, same.2.1, serves.held]
  rw [if_neg (by simp only [aeadTagBytes] at long; omega)]
  exact congrArg (fun opened => some (hdr, sender.epoch, sender.peerIndex, opened)) opens

/-! ## The format it is taken for -/

variable {kind : Option FrameKind} (only : frame.Only w kind)

include only

omit serves in
/-- A probe opens no candidate but the frame's own format, at step zero. -/
theorem opened_own {guess : FormatGuess} (among : guess ∈ formatCandidates w.codec kind) {hdr : SFrameHeader}
    {epoch peerIndex : ℤ} {plaintext : Bytes}
    (attempted : probeAttempt runtime w frame.payload guess = some (hdr, epoch, peerIndex, .ok plaintext)) :
    guess = frame.format ∧ frame.step = 0 := by
  obtain ⟨key, cached, opens⟩ := probeAttempt_ok attempted
  obtain ⟨own, -, -, now⟩ := only guess epoch peerIndex key 0 key plaintext (.inl among) cached .cached
    (Nat.zero_le _) opens
  exact ⟨own, now.symm⟩

theorem firstOpened_own (correct : runtime.crypto.Correct) (now : frame.step = 0) {candidates : List FormatGuess}
    (among : ∀ guess ∈ candidates, guess ∈ formatCandidates w.codec kind) (member : frame.format ∈ candidates) :
    ∃ found, firstOpened runtime w frame.payload candidates = some found ∧ found.guess = frame.format ∧
      found.plaintext = frame.body := by
  obtain ⟨hdr, own⟩ := probeAttempt_own frame serves correct now
  induction candidates with
  | nil => cases member
  | cons guess rest ih =>
    have later := ih fun other member => among other (List.mem_cons_of_mem _ member)
    rcases attempted : probeAttempt runtime w frame.payload guess with _ | ⟨read, epoch, peerIndex, _ | plaintext⟩
    · simp only [firstOpened, attempted]
      refine later ((List.mem_cons.mp member).resolve_left fun same => ?_)
      rw [← same, own] at attempted
      cases attempted
    · simp only [firstOpened, attempted]
      refine later ((List.mem_cons.mp member).resolve_left fun same => ?_)
      rw [← same, own] at attempted
      cases attempted
    · obtain ⟨rfl, -⟩ := opened_own frame only (among _ List.mem_cons_self) attempted
      rw [own] at attempted
      cases attempted
      simp only [firstOpened, own]
      exact ⟨_, rfl, rfl, rfl⟩

omit serves in
theorem firstOpened_other {candidates : List FormatGuess}
    (among : ∀ guess ∈ candidates, guess ∈ formatCandidates w.codec kind)
    (other : ¬ (frame.step = 0 ∧ frame.format ∈ candidates)) :
    firstOpened runtime w frame.payload candidates = none := by
  induction candidates with
  | nil => rfl
  | cons guess rest ih =>
    have later := ih (fun other member => among other (List.mem_cons_of_mem _ member)) fun held =>
      other ⟨held.1, List.mem_cons_of_mem _ held.2⟩
    rcases attempted : probeAttempt runtime w frame.payload guess with _ | ⟨read, epoch, peerIndex, _ | plaintext⟩
    · simpa only [firstOpened, attempted] using later
    · simpa only [firstOpened, attempted] using later
    · obtain ⟨rfl, now⟩ := opened_own frame only (among _ List.mem_cons_self) attempted
      exact absurd ⟨now, List.mem_cons_self⟩ other

/-- A frame that is taken for its own format is opened by the probe, or left to
the ratchet. -/
theorem resolution_right (correct : runtime.crypto.Correct) (right : frame.TakenRight w kind) :
    ∃ probed, resolution runtime w frame.payload w.codec kind = (frame.format, probed) ∧
      ∀ found, probed = some found → frame.step = 0 ∧ found.plaintext = frame.body := by
  unfold AuthenticFrame.TakenRight at right
  unfold resolution
  cases cached : cachedFormat w frame.payload (codecPrefix frame.payload w.codec kind) with
  | some guess =>
    rw [cached] at right
    obtain rfl : guess = frame.format := right
    exact ⟨none, rfl, nofun⟩
  | none =>
    rw [cached] at right
    dsimp only at right ⊢
    by_cases probes : frame.step = 0 ∧ frame.format ∈ formatCandidates w.codec kind
    · obtain ⟨found, first, own, body⟩ := firstOpened_own frame serves only correct probes.1 (fun _ => id) probes.2
      rw [first]
      refine ⟨some found, ?_, ?_⟩
      · dsimp only
        rw [own]
      rintro _ ⟨⟩
      exact ⟨probes.1, body⟩
    · rw [firstOpened_other frame only (fun _ => id) probes]
      rw [← right.resolve_left probes]
      exact ⟨none, rfl, nofun⟩

omit serves in
/-- A frame that is taken for another format has been opened by no probe. -/
theorem resolution_wrong (wrong : ¬ frame.TakenRight w kind) : ∃ guess,
    resolution runtime w frame.payload w.codec kind = (guess, none) ∧ guess ≠ frame.format ∧
      (Considered w frame.payload kind guess ∨ frame.payload.drop guess.prefixLen = []) := by
  unfold AuthenticFrame.TakenRight at wrong
  unfold resolution
  cases cached : cachedFormat w frame.payload (codecPrefix frame.payload w.codec kind) with
  | some guess =>
    rw [cached] at wrong
    exact ⟨guess, rfl, wrong, .inl (.inr cached)⟩
  | none =>
    rw [cached] at wrong
    dsimp only at wrong ⊢
    push Not at wrong
    rw [firstOpened_other frame only (fun _ => id) (by simpa using wrong.1)]
    refine ⟨_, rfl, Ne.symm wrong.2, ?_⟩
    by_cases fits : getUnencryptedBytes w.codec kind ≤ frame.payload.length
    · have first : ⟨getUnencryptedBytes w.codec kind, .header⟩ ∈ formatCandidates w.codec kind :=
        List.mem_of_head? (formatCandidates_first w.codec kind)
      exact .inl (.inl (by simpa [codecPrefix, Nat.min_eq_left fits] using first))
    · exact .inr (by simp [codecPrefix]; omega)

end Own

/-! ## What a decoded frame leaves -/

/-- A worker without what one decoded frame leaves besides keys and formats: what
is erased from it anyway, the frames and who got them, and the queue. -/
def beyondOutcome (w : Worker K G) : Worker K G :=
  { beyondTraces w with
    accepted := [], delivered := [], arrived := [], frames := default, preEpochQueue := []
    starveActive := false, starveSinceMs := 0, starveFramesDropped := 0, starveLastEmitMs := 0
    starvePeerIndex := none }

theorem beyondOutcome_of_lasting (same : lasting w' = lasting w) : beyondOutcome w' = beyondOutcome w :=
  congr_erased beyondOutcome same fun _ => rfl

theorem beyondOutcome_books (same : w'.unbooked = w.unbooked) : beyondOutcome w' = beyondOutcome w :=
  congr_erased beyondOutcome same fun _ => rfl

@[simp] theorem beyondOutcome_windowAsked (slot : Slot) : beyondOutcome (windowAsked w slot) = beyondOutcome w := by
  obtain ⟨windows, next, asked⟩ := Worker.getReplayWindow_snd w slot.epoch slot.peerIndex
  rw [windowAsked, asked]
  rfl

@[simp] theorem beyondOutcome_bothAsked (slot : Slot) :
    beyondOutcome (bothAsked runtime w slot) = beyondOutcome w := by
  have asked : beyondOutcome (windowPassed w slot) = beyondOutcome w := beyondOutcome_windowAsked slot
  unfold bothAsked guardAsked
  split
  · exact asked
  · exact asked

theorem frames_windowAsked (slot : Slot) : (windowAsked w slot).frames = w.frames := by
  obtain ⟨windows, next, asked⟩ := Worker.getReplayWindow_snd w slot.epoch slot.peerIndex
  rw [windowAsked, asked]

theorem frames_bothAsked (slot : Slot) : (bothAsked runtime w slot).frames = w.frames := by
  have asked : (windowPassed w slot).frames = w.frames := frames_windowAsked slot
  unfold bothAsked guardAsked
  split
  · exact asked
  · exact asked

@[simp] theorem beyondOutcome_acceptReplay (slot : Slot) (object frame : ℕ) :
    beyondOutcome (w.acceptReplay slot object frame) = beyondOutcome w := by
  obtain ⟨windows, same⟩ := Worker.acceptReplay_eq w slot object frame
  rw [same]
  rfl

theorem beyondOutcome_enqueuePreEpoch (ref : Ref) (peerIndex : ℤ) :
    beyondOutcome (w.enqueuePreEpoch ref peerIndex) = beyondOutcome w := by
  obtain ⟨kept, -, same⟩ := w.unsignalled_pushToQueue ref (some peerIndex)
  exact (beyondOutcome_books (Worker.unbooked_of_unsignalled same)).trans rfl

/-- An accepted frame has its clear prefix and what was opened. -/
theorem acceptFrame_ends (ref : Ref) (held : Slot × ℕ) (payload opened : Bytes) (guess : FormatGuess) :
    ∃ w', alone (acceptFrame runtime ref held payload guess opened) w = some (.ok (), w') ∧
      (w'.frames.read ref).data = payload.take guess.prefixLen ++ opened ∧ beyondOutcome w' = beyondOutcome w := by
  have finish (v : Worker K G) (same : beyondOutcome v = beyondOutcome w) :
      let noted := v.recordSuccess held.1.epoch held.1.peerIndex
      let written := { noted with
        frames := noted.frames.write ref { noted.frames.read ref with data := payload.take guess.prefixLen ++ opened }
        delivered := noted.delivered ++ [(held.1, ref)] }
      (written.clearStarve.frames.read ref).data = payload.take guess.prefixLen ++ opened ∧
        beyondOutcome written.clearStarve = beyondOutcome w := by
    intro noted written
    have frames : written.clearStarve.frames = written.frames :=
      congrArg (·.frames) (Worker.core_clearStarve written)
    refine ⟨by rw [frames]; simp [written], ?_⟩
    calc beyondOutcome written.clearStarve = beyondOutcome written :=
        beyondOutcome_books (Worker.unbooked_of_unsignalled written.unsignalled_clearStarve)
      _ = beyondOutcome noted := rfl
      _ = beyondOutcome v := beyondOutcome_books (Worker.unbooked_recordSuccess _ _ _)
      _ = beyondOutcome w := same
  simp only [acceptFrame, durableAccept, alone_bind, alone_update, alone_read, Option.bind_some]
  cases durableGuard runtime (w.acceptReplay held.1 held.2 ref) with
  | none =>
    simp only [alone_pure, Option.bind_some]
    exact ⟨_, rfl, finish _ (beyondOutcome_acceptReplay _ _ _)⟩
  | some durable =>
    simp only [alone_bind, alone_update, alone_pause, Option.bind_some]
    exact ⟨_, rfl, finish _ (beyondOutcome_acceptReplay _ _ _)⟩

/-- A frame that was not opened: its bytes are as they were, and so is what later
frames depend on. -/
structure Lost (w : Worker K G) (result : Except JsError Path) (w' : Worker K G) : Prop where
  unopened : ∀ guess opened, result ≠ .ok (.opened guess opened)
  frames : w'.frames = w.frames
  rest : beyondOutcome w' = beyondOutcome w

theorem lost_of_lasting {refused : JsError} (same : lasting w' = lasting w) : Lost w (.error refused) w' :=
  ⟨nofun, congr_erased (·.frames) same fun _ => rfl, beyondOutcome_of_lasting same⟩

/-- The gates let a counter of a sender pass. -/
structure Admitted (runtime : Runtime K G) (w : Worker K G) (slot : Slot) : Prop where
  live : w.currentMinValidEpoch ≤ slot.epoch
  current : w.currentEpoch ≠ -1
  passes : senderRefusal runtime w slot = none

theorem admitted_noted (ref : Ref) (hdr : SFrameHeader) (slot : Slot) :
    Admitted runtime (noted w ref hdr) slot ↔ Admitted runtime w slot := by
  have window : windowTakes (noted w ref hdr) slot = windowTakes w slot := by
    rw [windowTakes_eq, windowTakes_eq]
    rfl
  have same : senderRefusal runtime (noted w ref hdr) slot = none ↔ senderRefusal runtime w slot = none := by
    have durable : guardTakes runtime (noted w ref hdr) slot = guardTakes runtime w slot := rfl
    have trusted : (noted w ref hdr).isKeyInvalid slot.epoch slot.peerIndex =
      w.isKeyInvalid slot.epoch slot.peerIndex := rfl
    unfold senderRefusal
    rw [window, durable, trusted]
    split
    · simp
    · split
      · simp
      · split <;> simp
  constructor
  · exact fun admitted => ⟨admitted.live, admitted.current, same.mp admitted.passes⟩
  · exact fun admitted => ⟨admitted.live, admitted.current, same.mpr admitted.passes⟩

variable {ref : Ref} {payload : Bytes}

/-- A frame that a gate stops, or that nothing opens, is lost. -/
theorem decodePayload_loses (ref : Ref) (hdr : SFrameHeader) {guess : FormatGuess} {probed : Option Probed}
    (idle : w.ratchetPromises = ∅) (patient : w.ratchetWindowSize < runtime.patience)
    (closed : ¬ Admitted runtime w (slotOf w hdr) ∨
      probed = none ∧ Sealed runtime w (openingOf payload guess (slotOf w hdr))) :
    ∃ result w', alone (decodePayload runtime ref payload guess probed hdr) w = some (result, w') ∧
      Lost w result w' := by
  by_cases stale : (slotOf w hdr).epoch < w.currentMinValidEpoch
  · obtain ⟨⟨refused, w', ran, -, same⟩, -⟩ := decodePayload_stale stale
    exact ⟨_, w', ran, lost_of_lasting (lasting_of_mute same)⟩
  by_cases current : w.currentEpoch = -1
  · refine ⟨_, _, decodePayload_parks stale current, nofun, ?_, beyondOutcome_enqueuePreEpoch _ _⟩
    obtain ⟨kept, -, same⟩ := Worker.core_pushToQueue w ref (some (slotOf w hdr).peerIndex)
    exact (congrArg (·.frames) same : (w.pushToQueue ref (some (slotOf w hdr).peerIndex)).core.frames = _)
  cases refuses : senderRefusal runtime w (slotOf w hdr) with
  | some refusal =>
    obtain ⟨reason, v⟩ := refusal
    obtain ⟨⟨refused, w', ran, -, same⟩, -⟩ := decodePayload_refused stale current refuses
    have asked : v = windowAsked w (slotOf w hdr) ∨ v = bothAsked runtime w (slotOf w hdr) := by
      rcases senderRefusal_some refuses with ⟨-, -, own⟩ | ⟨-, own, -⟩
      · exact .inl own
      · exact .inr own
    have later := lasting_of_mute same
    refine ⟨_, w', ran, nofun, (congr_erased (·.frames) later fun _ => rfl).trans ?_,
      (beyondOutcome_of_lasting later).trans ?_⟩
    · rcases asked with rfl | rfl
      · exact frames_windowAsked _
      · exact frames_bothAsked _
    · rcases asked with rfl | rfl
      · exact beyondOutcome_windowAsked _
      · exact beyondOutcome_bothAsked _
  | none =>
    obtain ⟨rfl, sealed⟩ := closed.resolve_left fun stopped => stopped ⟨by omega, current, refuses⟩
    have asked : beyondOutcome (bothAsked runtime w (slotOf w hdr)) = beyondOutcome w := beyondOutcome_bothAsked _
    have flying : (bothAsked runtime w (slotOf w hdr)).ratchetPromises = ∅ :=
      (congr_erased (·.ratchetPromises) asked fun _ => rfl).trans idle
    have window : (bothAsked runtime w (slotOf w hdr)).ratchetWindowSize = w.ratchetWindowSize :=
      congr_erased (·.ratchetWindowSize) asked fun _ => rfl
    obtain ⟨refused, w', ran, same⟩ := openAndAccept_fails ref
      (slotOf w hdr, windowHeld w (slotOf w hdr)) (sealed_bothAsked sealed _) flying (by rwa [window])
    refine ⟨.error refused, w', ?_, nofun, ?_, (beyondOutcome_of_lasting same).trans asked⟩
    · rw [decodePayload_opens stale current refuses, ran]
      rfl
    · exact (congr_erased (·.frames) same fun _ => rfl).trans (frames_bothAsked _)

section Later
variable (same : beyondOutcome v = beyondOutcome w)

include same

theorem cachedKey_congr : v.cachedKey = w.cachedKey := congr_erased (·.cachedKey) same fun _ => rfl

theorem serves_congr (serves : Serves w suite kidCodec sender) : Serves v suite kidCodec sender where
  sameSuite := (congr_erased (·.suite) same fun _ => rfl).trans serves.sameSuite
  sameCodec := (congr_erased (·.kidCodec) same fun _ => rfl).trans serves.sameCodec
  held := (congrFun (congrFun (cachedKey_congr same) _) _).trans serves.held
  own := serves.own

theorem considered_congr {kind : Option FrameKind} {guess : FormatGuess} :
    Considered v payload kind guess ↔ Considered w payload kind guess := by
  have codec : v.codec = w.codec := congr_erased (·.codec) same fun _ => rfl
  have cached (n : ℕ) : cachedFormat v payload n = cachedFormat w payload n :=
    congr_erased (cachedFormat · payload n) same fun _ => rfl
  simp only [Considered, codec, cached]

theorem only_congr (frame : AuthenticFrame runtime suite kidCodec sender) {kind : Option FrameKind}
    (only : frame.Only w kind) : frame.Only v kind := by
  have codec : v.kidCodec = w.kidCodec := congr_erased (·.kidCodec) same fun _ => rfl
  have suites : v.suite = w.suite := congr_erased (·.suite) same fun _ => rfl
  have window : v.ratchetWindowSize = w.ratchetWindowSize := congr_erased (·.ratchetWindowSize) same fun _ => rfl
  intro guess epoch peerIndex first n key plaintext considered cached stepped within opened
  rw [cachedKey_congr same] at cached
  rw [codec] at opened
  exact only guess epoch peerIndex first n key plaintext ((considered_congr same).mp considered) cached
    (ratcheted_congr stepped suites codec) (by rwa [← window]) opened

/-- What an accepted frame does to the tables, it does whatever else is there. -/
theorem settled_congr (frame : AuthenticFrame runtime suite kidCodec sender) :
    beyondOutcome (frame.settled v) = beyondOutcome (frame.settled w) := by
  have erased (v : Worker K G) : beyondOutcome (frame.settled v) = frame.settled (beyondOutcome v) := by
    simp only [AuthenticFrame.settled, beyondOutcome, beyondTraces]
    cases v.epochs.get? sender.epoch with
    | none => rfl
    | some entry =>
      dsimp only
      split <;> rfl
  rw [erased, same, erased]

end Later

section Decoding
variable (frame : AuthenticFrame runtime suite kidCodec sender) {kind : Option FrameKind}

theorem buf_nonempty : frame.buf ≠ [] := by
  obtain ⟨header, iv, ct, written, -, -, same⟩ := sframeEncrypt_ok.mp frame.sealed
  intro empty
  have parsed := parseHeader_serializeHeader written ct
  rw [← same, empty] at parsed
  cases parsed

/-- The format that a frame is rightly taken for is one of those considered. -/
theorem considered_right (right : frame.TakenRight w kind) : Considered w frame.payload kind frame.format := by
  unfold AuthenticFrame.TakenRight at right
  split at right
  · rename_i cached own
    exact .inr (right ▸ own)
  · refine .inl ?_
    rcases right with ⟨-, among⟩ | own
    · exact among
    · have first : ⟨getUnencryptedBytes w.codec kind, .header⟩ ∈ formatCandidates w.codec kind :=
        List.mem_of_head? (formatCandidates_first w.codec kind)
      have short : frame.format.prefixLen = min (getUnencryptedBytes w.codec kind) frame.payload.length := by
        rw [own]
        rfl
      have long : frame.clear.length < frame.payload.length := by
        have some := List.length_pos_of_ne_nil (buf_nonempty frame)
        simp only [AuthenticFrame.payload, List.length_append]
        omega
      rw [frame.clears] at long
      have clear : codecPrefix frame.payload w.codec kind = getUnencryptedBytes w.codec kind := by
        unfold codecPrefix
        omega
      rw [own, clear]
      exact first

variable (correct : runtime.crypto.Correct) (serves : Serves w suite kidCodec sender) (only : frame.Only w kind)
  (idle : w.ratchetPromises = ∅) (patient : w.ratchetWindowSize < runtime.patience)

include correct serves only idle patient

/-- Behind the gates a frame is opened in its own format, with its own key. -/
theorem openAndAccept_opens (ref : Ref) (considered : Considered w frame.payload kind frame.format)
    (within : frame.step ≤ w.ratchetWindowSize) {probed : Option Probed}
    (agrees : ∀ found, probed = some found → frame.step = 0 ∧ found.plaintext = frame.body) (object : ℕ) :
    ∃ w', alone (openAndAccept runtime ref (frame.slot, object) frame.payload frame.format probed) w =
        some (.ok frame.body, w') ∧ (w'.frames.read ref).data = frame.original ∧
      beyondOutcome w' = beyondOutcome (frame.settled w) := by
  have accepted (v : Worker K G) : ∃ w',
      alone (acceptFrame runtime ref (frame.slot, object) frame.payload frame.format frame.body) v = some (.ok (), w') ∧
        (w'.frames.read ref).data = frame.original ∧ beyondOutcome w' = beyondOutcome v := by
    obtain ⟨w', ran, data, rest⟩ := acceptFrame_ends ref (frame.slot, object) frame.payload frame.body frame.format
    rw [take_payload] at data
    exact ⟨w', ran, data, rest⟩
  obtain ⟨entry, installed, held⟩ := Option.bind_eq_some_iff.mp serves.held
  cases probed with
  | some found =>
    obtain ⟨now, body⟩ := agrees found rfl
    obtain ⟨w', ran, data, rest⟩ := accepted (w.setFormatCache sender.epoch sender.peerIndex frame.format)
    refine ⟨w', ?_, data, ?_⟩
    · rw [← body] at ran ⊢
      simp only [openAndAccept, openResolved, alone_bind, alone_update, Option.bind_some, alone_pure]
      simp only [AuthenticFrame.slot] at ran ⊢
      rw [ran]
      rfl
    · simp only [AuthenticFrame.settled, installed, now, ↓reduceIte, rest]
  | none =>
    have reached : further runtime w (openingOf frame.payload frame.format frame.slot) sender.cached frame.step =
        .ok frame.key := by
      change keyAt runtime w.suite w.kidCodec sender.epoch sender.peerIndex sender.cached frame.step = .ok frame.key
      rw [serves.sameSuite, serves.sameCodec, frame.stepped]
    have first : ∀ n < frame.step, ∀ other, ¬ OpensAt runtime w (openingOf frame.payload frame.format frame.slot)
        sender.cached n other := by
      rintro n before other ⟨key, earlier, opened⟩
      obtain ⟨-, -, -, same⟩ := only _ _ _ _ n key other considered serves.held (ratcheted_of_keyAt earlier)
        (by omega) opened
      omega
    obtain ⟨v, ran, flying, after⟩ := tryDecryptWithRatchet_finds
      (fun point =>
        { point := .ratchet point, frame := some ref, payload := some frame.payload,
          slot := some (frame.slot, object) })
      entry (named_own frame serves) installed held (by rw [idle]; rfl) reached
      (opening_sealed correct (sealed_own frame frame.slot)) within patient first
    let advanced := if frame.step = 0 then w else advanceKey w entry sender.peerIndex frame.key frame.step
    have promises : advanced.ratchetPromises = w.ratchetPromises := by
      dsimp only [advanced]
      split <;> rfl
    have searched : beyondOutcome v = beyondOutcome advanced := by
      calc beyondOutcome v = { beyondOutcome (beyondSearch v) with ratchetPromises := v.ratchetPromises } := rfl
        _ = { beyondOutcome (beyondSearch advanced) with ratchetPromises := advanced.ratchetPromises } := by
          rw [after, flying, promises]
          rfl
        _ = beyondOutcome advanced := rfl
    obtain ⟨w', finished, data, rest⟩ := accepted (v.setFormatCache sender.epoch sender.peerIndex frame.format)
    refine ⟨w', ?_, data, ?_⟩
    · simp only [openingOf, AuthenticFrame.slot] at ran finished ⊢
      simp only [openAndAccept, openResolved, alone_bind, alone_attempt, ran, Option.map_some, Option.bind_some,
        alone_pause, alone_settle, alone_update, alone_pure, finished]
    · simp only [AuthenticFrame.settled, installed]
      rw [rest]
      exact congrArg (·.setFormatCache sender.epoch sender.peerIndex frame.format) searched

end Decoding

/-! ## The whole call -/

section Whole
variable (frame : AuthenticFrame runtime suite kidCodec sender)
  (stripped : sifPayload w.sifTrailer (w.frames.read ref).data = some frame.payload)
  (serves : Serves w suite kidCodec sender) (correct : runtime.crypto.Correct)
  (only : frame.Only w (w.frames.read ref).kind)
  (idle : w.ratchetPromises = ∅) (patient : w.ratchetWindowSize < runtime.patience)

include stripped serves correct only idle patient

/-- A frame that the gates admit and that is taken for its own format is
decoded, when the window reaches its key. -/
theorem decodeFrame_accepts (admitted : Admitted runtime w frame.slot)
    (right : frame.TakenRight w (w.frames.read ref).kind) (within : frame.step ≤ w.ratchetWindowSize) :
    ∃ w', alone (decodeFrame runtime ref) w = some (.ok (.opened frame.format frame.body), w') ∧
      (w'.frames.read ref).data = frame.original ∧ beyondOutcome w' = beyondOutcome (frame.settled w) := by
  obtain ⟨probed, resolved, agrees⟩ := resolution_right frame serves only correct right
  have format : formatOf runtime w ref frame.payload = (frame.format, probed) := resolved
  obtain ⟨hdr, parsed, own⟩ := parse_own frame serves
  have here : slotOf (noted w ref hdr) hdr = frame.slot := own
  have admitted := (admitted_noted ref hdr frame.slot).mpr admitted
  have asked : beyondOutcome (bothAsked runtime (noted w ref hdr) frame.slot) = beyondOutcome w :=
    beyondOutcome_bothAsked _
  obtain ⟨w', ran, data, rest⟩ := openAndAccept_opens frame correct (serves_congr asked serves)
    (only_congr asked frame only) ((congr_erased (·.ratchetPromises) asked fun _ => rfl).trans idle)
    (by rwa [congr_erased (·.ratchetWindowSize) asked fun _ => rfl]) ref
    ((considered_congr asked).mpr (considered_right frame right))
    (by rwa [congr_erased (·.ratchetWindowSize) asked fun _ => rfl]) agrees (windowHeld (noted w ref hdr) frame.slot)
  refine ⟨w'.emitMetric (.decrypt sender.epoch sender.peerIndex (frame.format.prefixLen + frame.body.length)),
    ?_, ?_, ?_⟩
  · rw [alone_decodeFrame stripped (by rw [format]; exact parsed), format]
    dsimp only
    rw [decodePayload_opens (by rw [here]; exact not_lt.mpr admitted.live) admitted.current
      (by rw [here]; exact admitted.passes), here, ran]
    rfl
  · have same : (w'.emitMetric (.decrypt sender.epoch sender.peerIndex
        (frame.format.prefixLen + frame.body.length))).frames = w'.frames :=
      congr_erased (·.frames) (lasting_posted (posted_emitMetric w' _)) fun _ => rfl
    rw [same, data]
  · rw [beyondOutcome_books (Worker.unbooked_emitMetric _ _), rest, settled_congr asked]

/-- Any other frame is lost. -/
theorem decodeFrame_loses (other : ¬ (Admitted runtime w frame.slot ∧ frame.TakenRight w (w.frames.read ref).kind ∧
      frame.step ≤ w.ratchetWindowSize)) :
    ∃ result w', alone (decodeFrame runtime ref) w = some (result, w') ∧ Lost w result w' := by
  -- what is done with a header, once the format is settled
  have ends {guess : FormatGuess} {probed : Option Probed} {hdr : SFrameHeader}
      (format : formatOf runtime w ref frame.payload = (guess, probed))
      (parsed : parseHeader (frame.payload.drop guess.prefixLen) = .ok hdr)
      (closed : ¬ Admitted runtime (noted w ref hdr) (slotOf w hdr) ∨
        probed = none ∧ Sealed runtime (noted w ref hdr) (openingOf frame.payload guess (slotOf w hdr))) :
      ∃ result w', alone (decodeFrame runtime ref) w = some (result, w') ∧ Lost w result w' := by
    have still : (noted w ref hdr).ratchetPromises = ∅ := idle
    obtain ⟨result, v, ran, lost⟩ := decodePayload_loses ref hdr still patient closed
    rw [alone_decodeFrame stripped (by rw [format]; exact parsed), format, ran]
    cases result with
    | ok path => exact ⟨_, _, rfl, lost.unopened, lost.frames, lost.rest⟩
    | error refused =>
      have failed := lasting_posted (posted_failDecode v (countedVars w probed hdr) refused)
      exact ⟨_, _, rfl, nofun, (congr_erased (·.frames) failed fun _ => rfl).trans lost.frames,
        (beyondOutcome_of_lasting failed).trans lost.rest⟩
  by_cases right : frame.TakenRight w (w.frames.read ref).kind
  · obtain ⟨probed, resolved, agrees⟩ := resolution_right frame serves only correct right
    obtain ⟨hdr, parsed, own⟩ := parse_own frame serves
    apply ends resolved parsed
    rw [own, admitted_noted]
    refine or_iff_not_imp_left.mpr fun admitted => ?_
    have beyond : ¬ frame.step ≤ w.ratchetWindowSize := fun within => other ⟨not_not.mp admitted, right, within⟩
    constructor
    · cases probed with
      | none => rfl
      | some found =>
        have now := (agrees found rfl).1
        omega
    · intro epoch peerIndex first n key plaintext cached stepped within opened
      have same := (only _ _ _ first n key plaintext (considered_right frame right) cached
        (ratcheted_congr stepped rfl rfl) within opened).2.2.2
      have reach : n ≤ w.ratchetWindowSize := within
      omega
  · obtain ⟨guess, resolved, foreign, considered⟩ := resolution_wrong frame only right
    cases parsed : parseHeader (frame.payload.drop guess.prefixLen) with
    | error unparsed =>
      have format : formatOf runtime w ref frame.payload = (guess, none) := resolved
      refine ⟨_, _, alone_decodeFrame_unparsed stripped (by rw [format]; exact parsed), ?_⟩
      exact lost_of_lasting (lasting_posted (posted_failDecode _ _ _))
    | ok hdr =>
      refine ends resolved parsed (.inr ⟨rfl, ?_⟩)
      intro epoch peerIndex first n key plaintext cached stepped within opened
      refine foreign (only guess epoch peerIndex first n key plaintext (considered.resolve_right fun nothing => ?_)
        cached (ratcheted_congr stepped rfl rfl) within opened).1
      rw [nothing] at parsed
      cases parsed

end Whole
end SFrameRatchet.AuthenticFrames
