import SFrameRatchet.AuthenticFrames

/-! The formats a receiver tries and the steps its ratchet goes are two searches.
A probe tries every format, with the key that is cached; the ratchet tries every
key, in the format that the codec leaves as a default. A frame in another format
under a further key is found by neither. -/
namespace SFrameRatchet.FormatTolerance
open Collections Crypto Kid Header SFrame CodecPartial Throwing Coroutine Media SoloDecoding ForgedFrame AuthenticFrames

variable {K G : Type} {runtime : Runtime K G} {suite : CipherSuite} {kidCodec : KidCodec} {sender : Sender K}

/-- **Format tolerance and the ratchet window.** A frame is sealed in a candidate
format, at most a window of steps down its sender's chain, and no format is
remembered for whoever the receiver reads where the codec's clear bytes end. It
is decoded to its original bytes exactly when the gates admit it and one of the
two searches comes to it: the key is the cached one, or the format the default. -/
theorem format_tolerance_iff {w : Worker K G} {ref : Ref} (frame : AuthenticFrame runtime suite kidCodec sender)
    (stripped : sifPayload w.sifTrailer (w.frames.read ref).data = some frame.payload)
    (candidate : frame.format ∈ formatCandidates w.codec (w.frames.read ref).kind)
    (within : frame.step ≤ w.ratchetWindowSize) (serves : Serves w suite kidCodec sender)
    (uncached : cachedFormat w frame.payload (codecPrefix frame.payload w.codec (w.frames.read ref).kind) = none)
    (correct : runtime.crypto.Correct) (only : frame.Only w (w.frames.read ref).kind) (idle : w.ratchetPromises = ∅)
    (patient : w.ratchetWindowSize < runtime.patience) :
    (∃ w', alone (decodeFrame runtime ref) w = some (.ok (.opened frame.format frame.body), w') ∧
        (w'.frames.read ref).data = frame.original) ↔
      Admitted runtime w frame.slot ∧
        (frame.step = 0 ∨ frame.format = ⟨codecPrefix frame.payload w.codec (w.frames.read ref).kind, .header⟩) := by
  have right : frame.TakenRight w (w.frames.read ref).kind ↔
      frame.step = 0 ∨ frame.format = ⟨codecPrefix frame.payload w.codec (w.frames.read ref).kind, .header⟩ := by
    unfold AuthenticFrame.TakenRight
    rw [uncached]
    simp only [candidate, and_true]
  rw [← right]
  constructor
  · rintro ⟨w', ran, -⟩
    by_contra other
    obtain ⟨result, v, lost, unopened⟩ := decodeFrame_loses frame stripped serves correct only idle patient
      fun held => other ⟨held.1, held.2.1⟩
    rw [ran] at lost
    cases lost
    exact unopened.unopened _ _ rfl
  · rintro ⟨admitted, taken⟩
    obtain ⟨w', ran, data, -⟩ :=
      decodeFrame_accepts frame stripped serves correct only idle patient admitted taken within
    exact ⟨w', ran, data⟩

section Checked
open Specimen (installed keyOf stepOf)

/-- The first sender, as a receiver of its bundle knows it. -/
def firstSender : Sender Bytes := ⟨0, 0, keyOf 0 0 7⟩

def sealedIn (format : FormatGuess) (key : RatchetKey Bytes) (ctr : ℕ) (clear body : Bytes) : Bytes :=
  ((sframeEncrypt Specimen.crypto body key.toSFrameKey ctr (aadPrefixOf clear format.prefixLen)
    format.aadForm).toOption).getD []

/-- Frames with the canonical additional data, under the cached key and under the next. -/
def canonicalFrame : AuthenticFrame Specimen.runtime defaultCipherSuite .fixed firstSender where
  format := ⟨0, .canonical⟩
  step := 0
  key := keyOf 0 0 7
  ctr := 3
  clear := []
  body := [1, 2, 3]
  buf := sealedIn ⟨0, .canonical⟩ (keyOf 0 0 7) 3 [] [1, 2, 3]
  clears := rfl
  stepped := rfl
  sealed := rfl

def canonicalStep : AuthenticFrame Specimen.runtime defaultCipherSuite .fixed firstSender where
  format := ⟨0, .canonical⟩
  step := 1
  key := stepOf (keyOf 0 0 7)
  ctr := 3
  clear := []
  body := [1, 2, 3]
  buf := sealedIn ⟨0, .canonical⟩ (stepOf (keyOf 0 0 7)) 3 [] [1, 2, 3]
  clears := rfl
  stepped := rfl
  sealed := rfl

/-- A receiver with some window, to which one frame has come. -/
def receives (window : ℕ) (data : Bytes) : Worker Bytes Unit :=
  let receiver := { installed 0 1 [7, 9] with ratchetWindowSize := window }
  receiveFrame { data } receiver

/-- At such a receiver with a window of one step, what opens a frame is found by trying four keys. -/
theorem only_receives {frame : AuthenticFrame Specimen.runtime defaultCipherSuite .fixed firstSender}
    {w : Worker Bytes Unit} (codec : Option Codec) {kind : Option FrameKind} (window : w.ratchetWindowSize ≤ 1)
    (suite : w.suite = defaultCipherSuite) (fixed : w.kidCodec = .fixed)
    (keys : w.cachedKey = (installed 0 1 [7, 9]).cachedKey)
    (known : ∀ guess, Considered w frame.payload kind guess → guess ∈ formatCandidates codec kind)
    (fails : ∀ guess ∈ formatCandidates codec kind, ∀ held ∈ withinOneStep,
      (guess = frame.format ∧ held.1 = 0 ∧ held.2.1 = frame.step) ∨
        (sframeDecrypt Specimen.crypto (frame.payload.drop guess.prefixLen) (fun _ _ _ _ => some held.2.2.toSFrameKey)
          .fixed (aadPrefixOf frame.payload guess.prefixLen) guess.aadForm).toOption = none) :
    frame.Only w kind := by
  intro guess epoch peerIndex first n key plaintext considered cached stepped within opened
  obtain ⟨own, reached, member, same⟩ := opened_withinOneStep keys suite fixed window cached stepped within opened
  rcases fails guess (known guess considered) _ member with ⟨format, peer, step⟩ | closed
  · exact ⟨format, own, peer, step⟩
  · rw [same] at closed
    cases closed

/-- A frame in the default format, under the next key. -/
def headerStep : AuthenticFrame Specimen.runtime defaultCipherSuite .fixed firstSender where
  format := ⟨0, .header⟩
  step := 1
  key := stepOf (keyOf 0 0 7)
  ctr := 3
  clear := []
  body := [1, 2, 3]
  buf := sealedIn ⟨0, .header⟩ (stepOf (keyOf 0 0 7)) 3 [] [1, 2, 3]
  clears := rfl
  stepped := rfl
  sealed := rfl

/-- A frame under the cached key without a window, and one a step down with a window. -/
theorem format_tolerance_iff_canonical :
    ((∃ w', alone (decodeFrame Specimen.runtime 0) (receives 0 canonicalFrame.payload) =
        some (.ok (.opened canonicalFrame.format canonicalFrame.body), w') ∧
        (w'.frames.read 0).data = canonicalFrame.original) ↔
      Admitted Specimen.runtime (receives 0 canonicalFrame.payload) canonicalFrame.slot ∧
        (canonicalFrame.step = 0 ∨
          canonicalFrame.format = ⟨codecPrefix canonicalFrame.payload none none, .header⟩)) ∧
    ((∃ w', alone (decodeFrame Specimen.runtime 0) (receives 1 headerStep.payload) =
        some (.ok (.opened headerStep.format headerStep.body), w') ∧ (w'.frames.read 0).data = headerStep.original) ↔
      Admitted Specimen.runtime (receives 1 headerStep.payload) headerStep.slot ∧
        (headerStep.step = 0 ∨ headerStep.format = ⟨codecPrefix headerStep.payload none none, .header⟩)) := by
  have only (frame : AuthenticFrame Specimen.runtime defaultCipherSuite .fixed firstSender) {window : ℕ}
    (small : window ≤ 1)
      (uncached : cachedFormat (receives window frame.payload) frame.payload
        (codecPrefix frame.payload none none) = none)
      (fails : ∀ guess ∈ formatCandidates none none, ∀ held ∈ withinOneStep,
        (guess = frame.format ∧ held.1 = 0 ∧ held.2.1 = frame.step) ∨
          (sframeDecrypt Specimen.crypto (frame.payload.drop guess.prefixLen) (fun _ _ _ _ => some held.2.2.toSFrameKey)
            .fixed (aadPrefixOf frame.payload guess.prefixLen) guess.aadForm).toOption = none) :
      frame.Only (receives window frame.payload) none := by
    refine only_receives _ small rfl rfl rfl (fun guess considered => considered.resolve_right ?_) fails
    rw [show (receives window frame.payload).codec = none from rfl, uncached]
    nofun
  have fresh : cachedFormat (receives 0 canonicalFrame.payload) canonicalFrame.payload
      (codecPrefix canonicalFrame.payload none none) = none := by decide +kernel
  have freshStep : cachedFormat (receives 1 headerStep.payload) headerStep.payload
      (codecPrefix headerStep.payload none none) = none := by decide +kernel
  constructor
  · exact format_tolerance_iff canonicalFrame rfl (by decide) (by decide) ⟨rfl, rfl, rfl, rfl⟩ fresh
      Specimen.crypto_correct (only _ (by decide) fresh (by decide +kernel)) rfl (by decide)
  · exact format_tolerance_iff headerStep rfl (by decide) (by decide) ⟨rfl, rfl, rfl, rfl⟩ freshStep
      Specimen.crypto_correct (only _ (by decide) freshStep (by decide +kernel)) rfl (by decide)

/-- A frame in a candidate format, one step down, is within the window and not decoded. -/
theorem canonical_step_lost :
    let w := receives 2 canonicalStep.payload
    canonicalStep.format ∈ formatCandidates w.codec none ∧ canonicalStep.step ≤ w.ratchetWindowSize ∧
      w.getFormatCache 0 0 = none ∧ Admitted Specimen.runtime w canonicalStep.slot ∧
      ¬ ∃ w', alone (decodeFrame Specimen.runtime 0) w =
        some (.ok (.opened canonicalStep.format canonicalStep.body), w') := by
  refine ⟨by decide, by decide, by decide +kernel, ⟨by decide +kernel, by decide +kernel, by rfl⟩, ?_⟩
  rintro ⟨w', ran⟩
  have refused : (alone (decodeFrame Specimen.runtime 0) (receives 2 canonicalStep.payload)).map
      (fun result => result.1.toOption.isSome) = some false := by
    decide +kernel
  rw [ran] at refused
  cases refused

end Checked
end SFrameRatchet.FormatTolerance
