import SFrameRatchet.FormatTolerance

/-! A sender that changes its wire format. The receiver takes a frame for the
format it remembers of the sender that it reads at the end of the codec's clear
bytes, and forgets no format when that does not open; so the frames of the new
format are lost for as long as they are read as their own sender's. -/
namespace SFrameRatchet.StaleFormat
open Collections Crypto Kid Header SFrame CodecPartial Throwing Coroutine Media SoloDecoding ForgedFrame AuthenticFrames
  FormatTolerance

variable {K G : Type} (runtime : Runtime K G) (suite : CipherSuite) (kidCodec : KidCodec) (sender : Sender K)

/-- An authentic frame, and the frame object that brings it. -/
structure Arrival where
  frame : AuthenticFrame runtime suite kidCodec sender
  raw : EncodedFrame

variable {runtime} {suite} {kidCodec} {sender}

/-- The worker that a frame has come to. -/
abbrev arrive (w : Worker K G) (arrival : Arrival runtime suite kidCodec sender) :
    Worker K G := receiveFrame arrival.raw w

/-- The frame is decoded to its original bytes. -/
def Decodes (w : Worker K G) (arrival : Arrival runtime suite kidCodec sender) : Prop :=
  ∃ w', alone (decodeFrame runtime w.frames.next) (arrive w arrival) =
      some (.ok (.opened arrival.frame.format arrival.frame.body), w') ∧
    (w'.frames.read w.frames.next).data = arrival.frame.original

/-- The worker after the call, however it ended. -/
def afterwards (w : Worker K G) (arrival : Arrival runtime suite kidCodec sender) : Worker K G :=
  ((alone (decodeFrame runtime w.frames.next) (arrive w arrival)).map Prod.snd).getD w

/-- All of the frames decode, one after the other. -/
def AllDecode : Worker K G → List (Arrival runtime suite kidCodec sender) → Prop
  | _, [] => True
  | w, arrival :: rest => Decodes w arrival ∧ AllDecode (afterwards w arrival) rest

/-- At most the first frame is lost. -/
def Recovers (w : Worker K G) : List (Arrival runtime suite kidCodec sender) → Prop
  | [] => True
  | first :: rest => AllDecode (afterwards w first) rest

/-- The gates admit the frames, one after the other. -/
def AllAdmitted : Worker K G → List (Arrival runtime suite kidCodec sender) → Prop
  | _, [] => True
  | w, arrival :: rest =>
    Admitted runtime (arrive w arrival) arrival.frame.slot ∧ AllAdmitted (afterwards w arrival) rest

/-- The sender that is read some bytes into a payload. -/
def readSender (w : Worker K G) (payload : Bytes) (codecN : ℕ) : Option (ℤ × ℤ) :=
  if codecN < payload.length then
    match parseHeader (payload.drop codecN) with
    | .error _ => none
    | .ok hdr => some (w.kidCodec.decode hdr.kid)
  else none

namespace Arrival
variable (arrival : Arrival runtime suite kidCodec sender) (w : Worker K G)

/-- The sender that is read where the codec's clear bytes end. -/
def reads : Option (ℤ × ℤ) :=
  readSender w arrival.frame.payload (codecPrefix arrival.frame.payload w.codec arrival.raw.kind)

def ReadAsOwn : Prop := arrival.reads w = some (sender.epoch, sender.peerIndex)

/-- Another sender is read there, of which another format is remembered. -/
def Misread : Prop := ∃ other cached, arrival.reads w = some other ∧ other ≠ (sender.epoch, sender.peerIndex) ∧
  w.getFormatCache other.1 other.2 = some cached ∧ cached ≠ arrival.frame.format

end Arrival

variable {w v : Worker K G} {own : FormatGuess}

theorem cachedFormat_eq (w : Worker K G) (payload : Bytes) (codecN : ℕ) :
    cachedFormat w payload codecN =
      (readSender w payload codecN).bind fun read => w.getFormatCache read.1 read.2 := by
  unfold cachedFormat readSender
  split
  · cases parseHeader (payload.drop codecN) with
    | error refused => rfl
    | ok hdr => rfl
  · rfl

/-! ## Along a run -/

/-- A worker without what decoded frames leave besides keys. -/
def beyondFormats (w : Worker K G) : Worker K G := { beyondOutcome w with formatCache := ∅ }

theorem beyondFormats_of (same : beyondOutcome v = beyondOutcome w) : beyondFormats v = beyondFormats w :=
  congrArg (fun v : Worker K G => { v with formatCache := ∅ }) same

/-- What stays as it was while frames of one sender come: all but the format
remembered for that sender. -/
structure Along (w v : Worker K G) (sender : Sender K) (own : FormatGuess) : Prop where
  rest : beyondFormats v = beyondFormats w
  formats : ∀ epoch peerIndex, v.getFormatCache epoch peerIndex =
    if (epoch, peerIndex) = (sender.epoch, sender.peerIndex) then some own else w.getFormatCache epoch peerIndex

/-- What the frames of a run have in common: the receiver can strip and open
them, in one format that it considers, under the key that it has. -/
structure Fits (w : Worker K G) (format : FormatGuess) (arrival : Arrival runtime suite kidCodec sender) : Prop where
  stripped : sifPayload w.sifTrailer arrival.raw.data = some arrival.frame.payload
  written : arrival.frame.format = format
  candidate : format ∈ formatCandidates w.codec arrival.raw.kind
  now : arrival.frame.step = 0
  only : arrival.frame.Only w arrival.raw.kind

theorem getFormatCache_beyond (same : beyondOutcome v = beyondOutcome w) (epoch peerIndex : ℤ) :
    v.getFormatCache epoch peerIndex = w.getFormatCache epoch peerIndex :=
  congr_erased (·.getFormatCache epoch peerIndex) same fun _ => rfl

theorem along_lost (along : Along w v sender own) {v' : Worker K G} (same : beyondOutcome v' = beyondOutcome v) :
    Along w v' sender own where
  rest := (beyondFormats_of same).trans along.rest
  formats epoch peerIndex := (getFormatCache_beyond same epoch peerIndex).trans (along.formats epoch peerIndex)

theorem along_start (stale : w.getFormatCache sender.epoch sender.peerIndex = some own) : Along w w sender own := by
  refine ⟨rfl, fun epoch peerIndex => ?_⟩
  split
  · rename_i same
    obtain ⟨rfl, rfl⟩ := Prod.mk.inj same
    exact stale
  · rfl

theorem along_arrive (along : Along w v sender own) (arrival : Arrival runtime suite kidCodec sender) :
    Along w (arrive v arrival) sender own := along_lost along rfl

theorem getFormatCache_set (w : Worker K G) (epoch peerIndex e p : ℤ) (guess : FormatGuess) :
    (w.setFormatCache epoch peerIndex guess).getFormatCache e p =
      if (e, p) = (epoch, peerIndex) then some guess else w.getFormatCache e p := by
  simp only [Worker.getFormatCache, Worker.setFormatCache, OrderedMap.get?_set, Prod.mk.injEq]
  by_cases sameEpoch : e = epoch
  · subst sameEpoch
    by_cases samePeer : p = peerIndex
    · simp [samePeer]
    · cases w.formatCache.get? e <;> simp [samePeer]
  · simp [sameEpoch]

theorem along_accepted (along : Along w v sender own) {frame : AuthenticFrame runtime suite kidCodec sender}
    (now : frame.step = 0) {v' : Worker K G} (same : beyondOutcome v' = beyondOutcome (frame.settled v)) :
    Along w v' sender frame.format := by
  have settled : frame.settled v = v.setFormatCache sender.epoch sender.peerIndex frame.format := by
    simp only [AuthenticFrame.settled, now, ↓reduceIte]
    cases v.epochs.get? sender.epoch <;> rfl
  rw [settled] at same
  constructor
  · exact (beyondFormats_of same).trans along.rest
  · intro epoch peerIndex
    rw [getFormatCache_beyond same, getFormatCache_set, along.formats]
    split <;> rfl

section Along
variable (along : Along w v sender own)

include along

theorem serves_along (serves : Serves w suite kidCodec sender) : Serves v suite kidCodec sender where
  sameSuite := (congr_erased (·.suite) along.rest fun _ => rfl).trans serves.sameSuite
  sameCodec := (congr_erased (·.kidCodec) along.rest fun _ => rfl).trans serves.sameCodec
  held := (congr_erased (·.cachedKey sender.epoch sender.peerIndex) along.rest fun _ => rfl).trans serves.held
  own := serves.own

variable (arrival : Arrival runtime suite kidCodec sender)

theorem reads_along : arrival.reads v = arrival.reads w := by
  have codec : v.codec = w.codec := congr_erased (·.codec) along.rest fun _ => rfl
  have kids : v.kidCodec = w.kidCodec := congr_erased (·.kidCodec) along.rest fun _ => rfl
  simp only [Arrival.reads, readSender, codec, kids]

/-- What a run has come to remember of a frame's reading. -/
theorem cachedFormat_along :
    cachedFormat v arrival.frame.payload (codecPrefix arrival.frame.payload v.codec arrival.raw.kind) =
      (arrival.reads w).bind fun read => if read = (sender.epoch, sender.peerIndex) then some own
        else w.getFormatCache read.1 read.2 := by
  rw [cachedFormat_eq, ← reads_along along arrival]
  simp only [along.formats]
  rfl

variable {format : FormatGuess}
  (among : w.getFormatCache sender.epoch sender.peerIndex = some own ∨ own = format)

include among

theorem fits_along (fits : Fits w format arrival) : Fits v format arrival := by
  have codec : v.codec = w.codec := congr_erased (·.codec) along.rest fun _ => rfl
  have trailer : v.sifTrailer = w.sifTrailer := congr_erased (·.sifTrailer) along.rest fun _ => rfl
  have kids : v.kidCodec = w.kidCodec := congr_erased (·.kidCodec) along.rest fun _ => rfl
  have suites : v.suite = w.suite := congr_erased (·.suite) along.rest fun _ => rfl
  have window : v.ratchetWindowSize = w.ratchetWindowSize := congr_erased (·.ratchetWindowSize) along.rest fun _ => rfl
  have keys : v.cachedKey = w.cachedKey := congr_erased (·.cachedKey) along.rest fun _ => rfl
  refine ⟨by rw [trailer]; exact fits.stripped, fits.written, by rw [codec]; exact fits.candidate, fits.now, ?_⟩
  intro guess epoch peerIndex first n key plaintext considered cached stepped within opened
  rw [keys] at cached
  rw [kids] at opened
  refine fits.only guess epoch peerIndex first n key plaintext ?_ cached (ratcheted_congr stepped suites kids)
    (by rwa [← window]) opened
  rcases considered with candidate | remembered
  · rw [codec] at candidate
    exact .inl candidate
  · rw [cachedFormat_along along arrival] at remembered
    obtain ⟨read, same, held⟩ := Option.bind_eq_some_iff.mp remembered
    split at held
    · rename_i itself
      obtain rfl := Option.some.inj held
      rcases among with old | rfl
      · refine .inr ?_
        rw [cachedFormat_eq]
        refine Option.bind_eq_some_iff.mpr ⟨read, same, ?_⟩
        rw [itself]
        exact old
      · exact .inl fits.candidate
    · refine .inr ?_
      rw [cachedFormat_eq]
      exact Option.bind_eq_some_iff.mpr ⟨read, same, held⟩

omit among in
theorem takenRight_along (fits : Fits w format arrival) : arrival.frame.TakenRight v arrival.raw.kind ↔
    ¬ arrival.Misread w ∧ (arrival.ReadAsOwn w → own = format) := by
  have codec : v.codec = w.codec := congr_erased (·.codec) along.rest fun _ => rfl
  unfold AuthenticFrame.TakenRight Arrival.Misread Arrival.ReadAsOwn
  rw [cachedFormat_along along arrival, codec, fits.written, fits.now]
  cases reads : arrival.reads w with
  | none => simp [fits.candidate]
  | some read =>
    simp only [Option.bind_some]
    by_cases itself : read = (sender.epoch, sender.peerIndex)
    · simp [itself]
    · simp only [itself, ↓reduceIte]
      cases held : w.getFormatCache read.1 read.2 with
      | none => simp [fits.candidate, itself, held]
      | some cached => simp [itself, held]

end Along

/-! ## One frame, and all of them -/

section Runs
variable {format : FormatGuess} (serves : Serves w suite kidCodec sender) (correct : runtime.crypto.Correct)
  (idle : w.ratchetPromises = ∅) (patient : w.ratchetWindowSize < runtime.patience)

include serves correct idle patient

/-- Whether a frame decodes, and what is remembered of its sender then. -/
theorem decodes_along (along : Along w v sender own)
    (among : w.getFormatCache sender.epoch sender.peerIndex = some own ∨ own = format)
    {arrival : Arrival runtime suite kidCodec sender} (fits : Fits w format arrival) :
    (Decodes v arrival ↔ Admitted runtime (arrive v arrival) arrival.frame.slot ∧
      ¬ arrival.Misread w ∧ (arrival.ReadAsOwn w → own = format)) ∧
    (Decodes v arrival → Along w (afterwards v arrival) sender format) ∧
    (¬ Decodes v arrival → Along w (afterwards v arrival) sender own) := by
  have here := along_arrive along arrival
  have raw : (arrive v arrival).frames.read v.frames.next = arrival.raw := by simp [receiveFrame]
  have fitting := fits_along here arrival among fits
  have stripped : sifPayload (arrive v arrival).sifTrailer ((arrive v arrival).frames.read v.frames.next).data =
      some arrival.frame.payload := by
    rw [raw]
    exact fitting.stripped
  have only : arrival.frame.Only (arrive v arrival) ((arrive v arrival).frames.read v.frames.next).kind := by
    rw [raw]
    exact fitting.only
  have still : (arrive v arrival).ratchetPromises = ∅ :=
    (congr_erased (·.ratchetPromises) here.rest fun _ => rfl).trans idle
  have window : (arrive v arrival).ratchetWindowSize = w.ratchetWindowSize :=
    congr_erased (·.ratchetWindowSize) here.rest fun _ => rfl
  have right := takenRight_along here arrival fits
  rw [← right]
  by_cases held : Admitted runtime (arrive v arrival) arrival.frame.slot ∧
      arrival.frame.TakenRight (arrive v arrival) arrival.raw.kind
  · have taken := held.2
    rw [← raw] at taken
    obtain ⟨w', ran, data, rest⟩ := decodeFrame_accepts arrival.frame stripped (serves_along here serves) correct only
      still (by rwa [window]) held.1 taken (by rw [fits.now]; omega)
    have decodes : Decodes v arrival := ⟨w', ran, data⟩
    have after : afterwards v arrival = w' := by simp only [afterwards, ran, Option.map_some, Option.getD_some]
    refine ⟨⟨fun _ => held, fun _ => decodes⟩, fun _ => ?_, fun never => absurd decodes never⟩
    rw [after, ← fits.written]
    exact along_accepted here fits.now rest
  · obtain ⟨result, w', ran, lost⟩ := decodeFrame_loses arrival.frame stripped (serves_along here serves) correct only
      still (by rwa [window]) (by rw [raw]; exact fun whole => held ⟨whole.1, whole.2.1⟩)
    have never : ¬ Decodes v arrival := by
      rintro ⟨other, again, -⟩
      rw [ran] at again
      cases again
      exact lost.unopened _ _ rfl
    have after : afterwards v arrival = w' := by simp only [afterwards, ran, Option.map_some, Option.getD_some]
    refine ⟨⟨fun decodes => absurd decodes never, fun whole => absurd whole held⟩, fun decodes => absurd decodes never,
      fun _ => ?_⟩
    rw [after]
    exact along_lost here lost.rest

/-- All frames decode when the gates admit them, none is read as another sender's,
and the first is not read as its own sender's while that one's format is stale. -/
theorem allDecode_along {arrivals : List (Arrival runtime suite kidCodec sender)} (along : Along w v sender own)
    (among : w.getFormatCache sender.epoch sender.peerIndex = some own ∨ own = format)
    (fits : ∀ arrival ∈ arrivals, Fits w format arrival) :
    AllDecode v arrivals ↔ AllAdmitted v arrivals ∧ (∀ arrival ∈ arrivals, ¬ arrival.Misread w) ∧
      ∀ first ∈ arrivals.head?, first.ReadAsOwn w → own = format := by
  induction arrivals generalizing v own with
  | nil => simp [AllDecode, AllAdmitted]
  | cons arrival rest ih =>
    obtain ⟨decodes, right, -⟩ :=
      decodes_along serves correct idle patient along among (fits arrival List.mem_cons_self)
    simp only [AllDecode, AllAdmitted, List.mem_cons, forall_eq_or_imp, List.head?_cons, Option.mem_def,
      Option.some.injEq, forall_eq']
    by_cases decoded : Decodes v arrival
    · have later := ih (right decoded) (.inr rfl) fun other member => fits other (List.mem_cons_of_mem _ member)
      have passed := decodes.mp decoded
      rw [later]
      constructor
      · rintro ⟨-, admitted, known, -⟩
        exact ⟨⟨passed.1, admitted⟩, ⟨passed.2.1, known⟩, passed.2.2⟩
      · rintro ⟨⟨-, admitted⟩, ⟨-, known⟩, -⟩
        exact ⟨decoded, admitted, known, fun _ _ _ => rfl⟩
    · simp only [decoded, false_and, false_iff]
      rintro ⟨⟨admitted, -⟩, ⟨known, -⟩, own⟩
      exact decoded (decodes.mpr ⟨admitted, known, own⟩)

section Stale
variable {cached : FormatGuess} (stale : w.getFormatCache sender.epoch sender.peerIndex = some cached)
  (changed : cached ≠ format) (first : Arrival runtime suite kidCodec sender)
  {rest : List (Arrival runtime suite kidCodec sender)} (fits : ∀ arrival ∈ first :: rest, Fits w format arrival)

include stale changed fits

/-- The first frame decodes when the gates admit it and it is read as nobody's
whose format is another one. -/
theorem first_decodes : Decodes w first ↔
    Admitted runtime (arrive w first) first.frame.slot ∧ ¬ first.Misread w ∧ ¬ first.ReadAsOwn w := by
  have decodes := (decodes_along serves correct idle patient (along_start stale) (.inl stale)
    (fits first List.mem_cons_self)).1
  rwa [imp_congr_right fun _ => iff_false_intro changed] at decodes

/-- What is left to ask of the rest, when it is known whether the first decodes. -/
theorem rest_decodes : Recovers w (first :: rest) ↔ AllAdmitted (afterwards w first) rest ∧
    (∀ arrival ∈ rest, ¬ arrival.Misread w) ∧ ∀ second ∈ rest.head?, second.ReadAsOwn w → Decodes w first := by
  obtain ⟨-, right, wrong⟩ :=
    decodes_along serves correct idle patient (along_start stale) (.inl stale) (fits first List.mem_cons_self)
  have known (arrival : Arrival runtime suite kidCodec sender) (member : arrival ∈ rest) : Fits w format arrival :=
    fits arrival (List.mem_cons_of_mem _ member)
  by_cases decoded : Decodes w first
  · have later := allDecode_along serves correct idle patient (right decoded) (.inr rfl) known
    simpa [Recovers, decoded] using later
  · have later := allDecode_along serves correct idle patient (wrong decoded) (.inl stale) known
    simpa [Recovers, decoded, changed] using later

/-- **A stale format.** Frames come in another format than the one remembered of
their sender. All but the first decode exactly when the gates admit them, none
is read as another sender's with a format of its own, and the second is not read
as its own sender's, unless the first already has decoded. -/
theorem recovers_iff : Recovers w (first :: rest) ↔ AllAdmitted (afterwards w first) rest ∧
    (∀ arrival ∈ rest, ¬ arrival.Misread w) ∧ ∀ second ∈ rest.head?, second.ReadAsOwn w →
      Admitted runtime (arrive w first) first.frame.slot ∧ ¬ first.Misread w ∧ ¬ first.ReadAsOwn w := by
  rw [rest_decodes serves correct idle patient stale changed first fits,
    first_decodes serves correct idle patient stale changed first fits]

end Stale

omit correct idle patient in
/-- A frame whose clear prefix is the codec's is read as its own sender's. -/
theorem readAsOwn_of_sameLength {arrival : Arrival runtime suite kidCodec sender}
    (same : arrival.frame.format.prefixLen =
    codecPrefix arrival.frame.payload w.codec arrival.raw.kind) : arrival.ReadAsOwn w := by
  obtain ⟨hdr, parsed, own⟩ := parse_own arrival.frame serves
  simp only [slotOf, AuthenticFrame.slot, Slot.mk.injEq] at own
  have long : arrival.frame.format.prefixLen < arrival.frame.payload.length := by
    by_contra short
    rw [List.drop_eq_nil_of_le (by omega)] at parsed
    cases parsed
  simp only [Arrival.ReadAsOwn, Arrival.reads, readSender, ← same, long, ↓reduceIte, parsed, Option.some.injEq]
  exact Prod.ext own.1 own.2.1

/-- A sender that keeps the codec's clear prefix never gets its new format through. -/
theorem not_recovers_of_prefix {cached : FormatGuess}
    (stale : w.getFormatCache sender.epoch sender.peerIndex = some cached) (changed : cached ≠ format)
    (first second : Arrival runtime suite kidCodec sender) (rest : List (Arrival runtime suite kidCodec sender))
    (fits : ∀ arrival ∈ first :: second :: rest, Fits w format arrival)
    (keeps : ∀ arrival ∈ [first, second], arrival.frame.format.prefixLen =
      codecPrefix arrival.frame.payload w.codec arrival.raw.kind) : ¬ Recovers w (first :: second :: rest) := by
  rw [rest_decodes serves correct idle patient stale changed first fits]
  rintro ⟨-, -, own⟩
  have decoded := own second rfl (readAsOwn_of_sameLength serves (keeps second (by simp)))
  have unread := ((first_decodes serves correct idle patient stale changed first fits).mp decoded).2.2
  exact unread (readAsOwn_of_sameLength serves (keeps first (by simp)))

end Runs

section Checked
open Specimen (keyOf)

/-- Frames of the first sender with the canonical additional data. -/
def canonicalAt (ctr : ℕ) (small : ctr < 8) :
    AuthenticFrame Specimen.runtime defaultCipherSuite .fixed firstSender where
  format := ⟨0, .canonical⟩
  step := 0
  key := keyOf 0 0 7
  ctr
  clear := []
  body := [1, 2, 3]
  buf := sealedIn ⟨0, .canonical⟩ (keyOf 0 0 7) ctr [] [1, 2, 3]
  clears := canonicalFrame.clears
  stepped := canonicalFrame.stepped
  sealed := by interval_cases ctr <;> rfl

/-- Three of them, each in a frame object of its own. -/
def canonicals : List (Arrival Specimen.runtime defaultCipherSuite .fixed firstSender) :=
  [⟨canonicalAt 1 (by decide), { data := (canonicalAt 1 (by decide)).payload }⟩,
    ⟨canonicalAt 2 (by decide), { data := (canonicalAt 2 (by decide)).payload }⟩,
    ⟨canonicalAt 3 (by decide), { data := (canonicalAt 3 (by decide)).payload }⟩]

/-- A receiver that has decoded a frame of the first sender in the old format. -/
def staleReceiver : Worker Bytes Unit :=
  ((alone (decodeFrame Specimen.runtime 0) (receives 0 (Specimen.sealedBy (keyOf 0 0 7) 0 [9]))).map Prod.snd).getD
    (receives 0 [])

theorem staleReceiver_caches : staleReceiver.getFormatCache 0 0 = some ⟨0, .header⟩ := by decide +kernel

theorem staleReceiver_fits : ∀ arrival ∈ canonicals, Fits staleReceiver ⟨0, .canonical⟩ arrival := by
  have codec : staleReceiver.codec = none := by rfl
  have plain : ∀ arrival ∈ canonicals, sifPayload staleReceiver.sifTrailer arrival.raw.data =
    some arrival.frame.payload ∧
      arrival.frame.format = ⟨0, .canonical⟩ ∧ arrival.frame.step = 0 ∧ arrival.raw.kind = none ∧
      cachedFormat staleReceiver arrival.frame.payload (codecPrefix arrival.frame.payload none none) =
        some ⟨0, .header⟩ := by
    decide +kernel
  have fails : ∀ arrival ∈ canonicals, ∀ guess ∈ formatCandidates none none, ∀ held ∈ withinOneStep,
        (guess = arrival.frame.format ∧ held.1 = 0 ∧ held.2.1 = arrival.frame.step) ∨
          (sframeDecrypt Specimen.crypto (arrival.frame.payload.drop guess.prefixLen)
            (fun _ _ _ _ => some held.2.2.toSFrameKey) .fixed (aadPrefixOf arrival.frame.payload guess.prefixLen)
            guess.aadForm).toOption = none := by
    decide +kernel
  intro arrival member
  obtain ⟨stripped, written, now, kind, remembered⟩ := plain arrival member
  refine ⟨stripped, written, by rw [codec, kind]; decide, now, ?_⟩
  rw [kind]
  refine only_receives _ (by decide +kernel) (by rfl) (by rfl) (by rfl) (fun guess considered => ?_)
    (fails arrival member)
  rcases considered with candidate | cached
  · exact candidate
  · rw [codec, remembered] at cached
    obtain rfl := Option.some.inj cached
    decide

/-- None of three frames in the new format decodes. -/
theorem canonicals_lost : staleReceiver.getFormatCache 0 0 = some ⟨0, .header⟩ ∧
    (∀ arrival ∈ canonicals, Fits staleReceiver ⟨0, .canonical⟩ arrival ∧
      Admitted Specimen.runtime (arrive staleReceiver arrival) arrival.frame.slot) ∧
    ¬ Recovers staleReceiver canonicals := by
  refine ⟨staleReceiver_caches, fun arrival member => ⟨staleReceiver_fits arrival member, ?_⟩, ?_⟩
  · have admits : ∀ arrival ∈ canonicals, staleReceiver.currentMinValidEpoch ≤ arrival.frame.slot.epoch ∧
        staleReceiver.currentEpoch ≠ -1 ∧
          (senderRefusal Specimen.runtime (arrive staleReceiver arrival) arrival.frame.slot).isNone := by
      decide +kernel
    obtain ⟨live, current, passes⟩ := admits arrival member
    exact ⟨live, current, Option.isNone_iff_eq_none.mp passes⟩
  · exact not_recovers_of_prefix ⟨by rfl, by rfl, by rfl, by rfl⟩ Specimen.crypto_correct (by rfl) (by decide +kernel)
      staleReceiver_caches (by decide) _ _ _ staleReceiver_fits (by decide +kernel)

/-- A VP9 frame of the first sender, with its first byte in the clear. -/
def vp9At (ctr : ℕ) (small : ctr < 8) : AuthenticFrame Specimen.runtime defaultCipherSuite .fixed firstSender where
  format := ⟨1, .canonical⟩
  step := 0
  key := keyOf 0 0 7
  ctr
  clear := [128]
  body := [1, 2, 3]
  buf := sealedIn ⟨1, .canonical⟩ (keyOf 0 0 7) ctr [128] [1, 2, 3]
  clears := rfl
  stepped := canonicalFrame.stepped
  sealed := by interval_cases ctr <;> rfl

def vp9s : List (Arrival Specimen.runtime defaultCipherSuite .fixed firstSender) :=
  [⟨vp9At 1 (by decide), { data := (vp9At 1 (by decide)).payload }⟩,
    ⟨vp9At 2 (by decide), { data := (vp9At 2 (by decide)).payload }⟩,
    ⟨vp9At 3 (by decide), { data := (vp9At 3 (by decide)).payload }⟩]

/-- A receiver of VP9 that has decoded a frame of the first sender without a clear byte. -/
def staleVp9 : Worker Bytes Unit :=
  let receiver := { receives 1 (Specimen.sealedBy (keyOf 0 0 7) 0 [9]) with codec := some .vp9 }
  ((alone (decodeFrame Specimen.runtime 0) receiver).map Prod.snd).getD receiver

theorem staleVp9_caches : staleVp9.getFormatCache 0 0 = some ⟨0, .header⟩ := by decide +kernel

theorem staleVp9_fits : ∀ arrival ∈ vp9s, Fits staleVp9 ⟨1, .canonical⟩ arrival := by
  have codec : staleVp9.codec = some .vp9 := by rfl
  have plain : ∀ arrival ∈ vp9s, sifPayload staleVp9.sifTrailer arrival.raw.data = some arrival.frame.payload ∧
      arrival.frame.format = ⟨1, .canonical⟩ ∧ arrival.frame.step = 0 ∧ arrival.raw.kind = none ∧
      cachedFormat staleVp9 arrival.frame.payload (codecPrefix arrival.frame.payload (some .vp9) none) = none := by
    decide +kernel
  have fails : ∀ arrival ∈ vp9s, ∀ guess ∈ formatCandidates (some .vp9) none, ∀ held ∈ withinOneStep,
        (guess = arrival.frame.format ∧ held.1 = 0 ∧ held.2.1 = arrival.frame.step) ∨
          (sframeDecrypt Specimen.crypto (arrival.frame.payload.drop guess.prefixLen)
            (fun _ _ _ _ => some held.2.2.toSFrameKey) .fixed (aadPrefixOf arrival.frame.payload guess.prefixLen)
            guess.aadForm).toOption = none := by
    decide +kernel
  intro arrival member
  obtain ⟨stripped, written, now, kind, unread⟩ := plain arrival member
  refine ⟨stripped, written, by rw [codec, kind]; decide, now, ?_⟩
  rw [kind]
  refine only_receives _ (by decide +kernel) (by rfl) (by rfl) (by rfl) (fun guess considered => ?_)
    (fails arrival member)
  rcases considered with candidate | cached
  · exact candidate
  · rw [codec, unread] at cached
    cases cached

/-- Frames read as their own sender's are lost; where the clear byte names somebody else, frames get through. -/
theorem recovers_iff_canonicals :
    (Recovers staleReceiver canonicals ↔
      AllAdmitted (afterwards staleReceiver (canonicals.head (by decide))) canonicals.tail ∧
        (∀ arrival ∈ canonicals.tail, ¬ arrival.Misread staleReceiver) ∧
        ∀ second ∈ canonicals.tail.head?, second.ReadAsOwn staleReceiver →
          Admitted Specimen.runtime (arrive staleReceiver (canonicals.head (by decide)))
              (canonicals.head (by decide)).frame.slot ∧
            ¬ (canonicals.head (by decide)).Misread staleReceiver ∧
            ¬ (canonicals.head (by decide)).ReadAsOwn staleReceiver) ∧
    Recovers staleVp9 vp9s := by
  constructor
  · exact recovers_iff ⟨by rfl, by rfl, by rfl, by rfl⟩ Specimen.crypto_correct (by rfl) (by decide +kernel)
      staleReceiver_caches (by decide) _ staleReceiver_fits
  · have read : ∀ arrival ∈ vp9s, arrival.reads staleVp9 = some (0, 184) := by decide +kernel
    have forgotten : staleVp9.getFormatCache 0 184 = none := by decide +kernel
    refine (recovers_iff ⟨by rfl, by rfl, by rfl, by rfl⟩ Specimen.crypto_correct (by rfl) (by decide +kernel)
      staleVp9_caches (by decide) _ staleVp9_fits).mpr ⟨?_, ?_, ?_⟩
    · exact ⟨⟨by decide +kernel, by decide +kernel, Option.isNone_iff_eq_none.mp (by decide +kernel)⟩,
        ⟨by decide +kernel, by decide +kernel, Option.isNone_iff_eq_none.mp (by decide +kernel)⟩, trivial⟩
    · rintro arrival member ⟨other, cached, reads, -, remembered, -⟩
      obtain rfl := Option.some.inj ((read arrival (List.mem_cons_of_mem _ member)).symm.trans reads)
      rw [forgotten] at remembered
      cases remembered
    · intro second member own
      have reads := read second (List.mem_cons_of_mem _ (List.mem_of_mem_head? member))
      cases reads.symm.trans own

end Checked
end SFrameRatchet.StaleFormat
