import SFrameRatchet.FormatTolerance
import SFrameRatchet.StreamRoundTrip

/-! Frames shorter than the clear prefix of their codec. The sender's prefix ends
with the frame; the receiver looks for the header behind as many bytes as the
codec leaves in the clear, and of those the wire has enough. -/
namespace SFrameRatchet.ShortFrames
open Collections Crypto Kid Header SFrame CodecPartial Throwing Coroutine Media SoloDecoding ForgedFrame AuthenticFrames
  StreamRoundTrip

variable {K G : Type} {runtime : Runtime K G}

/-- No candidate looks for a header before the codec's clear bytes end. -/
theorem formatCandidates_prefix (codec : Option Codec) (kind : Option FrameKind) :
    ∀ guess ∈ formatCandidates codec kind, getUnencryptedBytes codec kind ≤ guess.prefixLen := by
  rcases codec with _ | (_ | _ | _ | _ | _) <;> rcases kind with _ | (_ | _) <;> decide

/-- The frame as it is sealed at the sender's first counter. -/
def SealedFirst {suite : CipherSuite} {kidCodec : KidCodec} {sender : Sender K}
    (sent : AuthenticFrame runtime suite kidCodec sender) (codec : Option Codec) (frame : EncodedFrame) : Prop :=
  let n := min (getUnencryptedBytes codec frame.kind) frame.data.length
  sent.format = ⟨n, .header⟩ ∧ sent.step = 0 ∧ sent.ctr = 0 ∧ sent.clear = frame.data.take n ∧
    sent.body = frame.data.drop n

variable {key : SFrameKey K} {codec : Option Codec} {trailer : Option Bytes} {ctr : ℕ} {receiver : Worker K G}

/-- What goes over the wire is an authentic frame, in the clamped format. -/
theorem authentic_of_onWire {full : RatchetKey K} (sender : Sender K) (suite : CipherSuite) (kidCodec : KidCodec)
    (cached : sender.cached = full) (same : full.toSFrameKey = key) {n : ℕ} {plaintext wire : Bytes}
    (onWire : OnWire runtime key ctr n plaintext (trailer.getD []) wire) (fits : n ≤ plaintext.length) :
    ∃ sent : AuthenticFrame runtime suite kidCodec sender, sent.format = ⟨n, .header⟩ ∧ sent.step = 0 ∧
      sent.ctr = ctr ∧ sent.clear = plaintext.take n ∧ sent.body = plaintext.drop n ∧
      sifPayload trailer wire = some sent.payload := by
  obtain ⟨payload, header, iv, ct, stripped, clear, behind, -, written, derived, sealed⟩ :=
    payload_stripped onWire fits
  subst cached same
  have whole : payload = plaintext.take n ++ (header ++ ct) := by rw [← clear, ← behind, List.take_append_drop]
  refine ⟨{
    format := ⟨n, .header⟩, step := 0, key := sender.cached, ctr, clear := plaintext.take n, body := plaintext.drop n
    buf := header ++ ct
    clears := by simpa using fits
    stepped := by rfl
    sealed := sframeEncrypt_ok.mpr ⟨header, iv, ct, written, derived, sealed, rfl⟩ }, rfl, rfl, rfl, rfl, rfl, ?_⟩
  rw [stripped, whole]
  rfl

/-- The wire is longer than the frame. -/
theorem longer_onWire (correct : runtime.crypto.Correct) {n : ℕ} {plaintext ending wire : Bytes}
    (onWire : OnWire runtime key ctr n plaintext ending wire) : plaintext.length < wire.length := by
  obtain ⟨header, iv, ct, -, -, sealed, rfl⟩ := onWire
  have tagged := correct.tagged sealed
  simp only [List.length_append, List.length_drop, List.length_take, aeadTagBytes] at tagged ⊢
  omega

/-- A frame that is sealed behind a shorter prefix is taken for no format of the codec's. -/
theorem not_takenRight_of_short {suite : CipherSuite} {kidCodec : KidCodec} {sender : Sender K}
    {sent : AuthenticFrame runtime suite kidCodec sender} {kind : Option FrameKind}
    (formats : receiver.formatCache = ∅) (short : sent.format.prefixLen < getUnencryptedBytes receiver.codec kind) :
    ¬ sent.TakenRight receiver kind := by
  have uncached (n : ℕ) : cachedFormat receiver sent.payload n = none := by
    unfold cachedFormat Worker.getFormatCache
    simp only [formats, OrderedMap.get?_empty, Option.bind_none]
    split
    · split <;> rfl
    · rfl
  have long : sent.format.prefixLen < sent.payload.length := by
    have some := List.length_pos_of_ne_nil (buf_nonempty sent)
    have clears := sent.clears
    simp only [AuthenticFrame.payload, List.length_append]
    omega
  unfold AuthenticFrame.TakenRight
  rw [uncached]
  rintro (⟨-, candidate⟩ | default)
  · have bound := formatCandidates_prefix _ _ _ candidate
    omega
  · have clear : sent.format.prefixLen = codecPrefix sent.payload receiver.codec kind := by rw [default]
    unfold codecPrefix at clear
    omega

/-- What a sender makes of a frame opens in no other format: the AEAD is ideal. -/
def OpensOnce (runtime : Runtime K G) (receiver : Worker K G) (epoch self : ℤ) (codec : Option Codec)
    (frame : EncodedFrame) : Prop :=
  ∀ (sender : Sender K) (sent : AuthenticFrame runtime receiver.suite receiver.kidCodec sender),
    sender.epoch = epoch → sender.peerIndex = self → Serves receiver receiver.suite receiver.kidCodec sender →
      SealedFirst sent codec frame → sent.Only receiver frame.kind

/-- **Short frames.** One epoch is installed on both sides. The first frame gets
through to the receiver exactly when it is as long as its codec's clear prefix. -/
theorem short_frames_iff (correct : runtime.crypto.Correct) {sender₀ receiver₀ sender receiver : Worker K G}
    {epoch self other : ℤ} {bundles : KeyBundles K} {bundle : PerSenderKeyBundle K} (before : BeforeEpochs sender₀)
    (before' : BeforeEpochs receiver₀) (layout : receiver₀.kidCodec = sender₀.kidCodec)
    (codecs : receiver₀.codec = sender₀.codec) (trailers : receiver₀.sifTrailer = sender₀.sifTrailer)
    (carried : bundles.get? self = some bundle) (salt : bundle.salt.length = ivBytes)
    (sends : sender₀.installEpoch epoch self bundles = .ok sender)
    (listens : receiver₀.installEpoch epoch other bundles = .ok receiver) (idle : receiver.ratchetPromises = ∅)
    (patient : receiver.ratchetWindowSize < runtime.patience) (frame : EncodedFrame)
    (ideal : frame.data.length < getUnencryptedBytes sender₀.codec frame.kind →
      OpensOnce runtime receiver epoch self sender₀.codec frame) :
    RoundTrips runtime sender receiver [frame] ↔ getUnencryptedBytes sender₀.codec frame.kind ≤ frame.data.length := by
  obtain ⟨key, kid, -, salts, rfl, rfl, encoded, sending, listening, granted⟩ :=
    session_installed runtime before before' layout codecs trailers carried sends listens
  rw [← salts] at salt
  constructor
  · intro goesRound
    by_contra short
    obtain ⟨sent, ran, -, onWire⟩ := encodes_clamped correct sending kid salt (by norm_num) frame
    obtain ⟨path, received, decoded, data, -⟩ := (roundTrips_cons [] ran).mp goesRound
    generalize (sent.frames.read sender.frames.next).data = wire at onWire decoded
    obtain ⟨full, cached, same⟩ := Option.map_eq_some_iff.mp listening.cached
    let peer : Sender K := ⟨key.epoch, key.peerIndex, full⟩
    obtain ⟨authentic, format, now, first, clear, body, stripped⟩ :=
      authentic_of_onWire peer receiver.suite receiver.kidCodec rfl same onWire (Nat.min_le_right _ _)
    have serves : Serves receiver receiver.suite receiver.kidCodec peer := by
      refine ⟨rfl, rfl, cached, ?_⟩
      rw [show peer.cached.kid = key.kid from congrArg (·.kid) same]
      exact encoded
    have only := ideal (by omega) peer authentic rfl rfl serves ⟨format, now, first, clear, body⟩
    have arrived : beyondOutcome (receiveFrame { frame with data := wire } receiver) = beyondOutcome receiver := rfl
    have stored : (receiveFrame { frame with data := wire } receiver).frames.read receiver.frames.next =
        { frame with data := wire } := by simp [receiveFrame]
    have formats : receiver.formatCache = ∅ := (Worker.installEpoch_accounts listens).1.trans before'.formats
    have wrong : ¬ authentic.TakenRight (receiveFrame { frame with data := wire } receiver) frame.kind := by
      refine not_takenRight_of_short formats ?_
      rw [format]
      have codec : (receiveFrame { frame with data := wire } receiver).codec = sender₀.codec := listening.codec
      rw [codec]
      change min (getUnencryptedBytes sender₀.codec frame.kind) frame.data.length < _
      omega
    have stripped : sifPayload (receiveFrame { frame with data := wire } receiver).sifTrailer
        ((receiveFrame { frame with data := wire } receiver).frames.read receiver.frames.next).data =
          some authentic.payload := by
      rw [stored, show (receiveFrame { frame with data := wire } receiver).sifTrailer = sender₀.sifTrailer from
        listening.trailer]
      exact stripped
    obtain ⟨result, w', lost, unopened⟩ := decodeFrame_loses authentic stripped
      (serves_congr arrived serves) correct (by rw [stored]; exact only_congr arrived authentic only) idle patient
      (by rw [stored]; exact fun held => wrong held.2.1)
    obtain ⟨-, rfl⟩ := Prod.mk.inj (Option.some.inj (decoded.symm.trans lost))
    rw [unopened.frames, stored] at data
    have longer := longer_onWire correct onWire
    have same : wire.length = frame.data.length := congrArg List.length data
    omega
  · intro long
    exact roundTrips_same correct kid salt (clearBytes sender₀.codec frame.type) [frame] (by norm_num) sending listening
      granted (.inl rfl) fun other member => by
        obtain rfl := List.mem_singleton.mp member
        exact ⟨rfl, long⟩

section Checked
open Specimen (installed bundles keyOf)
open FormatTolerance (firstSender sealedIn only_receives)

/-- Both sides of a VP8 session with a ratchet window of one step. -/
def atRest : Worker Bytes Unit := { Worker.createWorkerState with codec := some .vp8, ratchetWindowSize := 1 }
def shortSender : Worker Bytes Unit := { installed 0 0 [7, 9] with codec := some .vp8, ratchetWindowSize := 1 }
def shortReceiver : Worker Bytes Unit := { installed 0 1 [7, 9] with codec := some .vp8, ratchetWindowSize := 1 }

/-- A key frame of three bytes. -/
def shortFrame : EncodedFrame := ⟨[1, 2, 3], some .key⟩

/-- A key frame that is shorter than its clear prefix does not get through. -/
theorem short_frame_lost : ¬ ∀ frame : EncodedFrame, RoundTrips Specimen.runtime shortSender shortReceiver [frame] := by
  intro goRound
  obtain ⟨wires, sent, received, encodes, decodes⟩ := goRound shortFrame
  have computed : ((alone (encodeStream Specimen.runtime [shortFrame]) shortSender).bind fun result =>
      match result.1 with
      | .ok wires => (alone (decodeStream Specimen.runtime (List.zipWith (fun wire frame =>
          { frame with data := wire }) wires [shortFrame])) shortReceiver).map fun result => result.1.toOption
      | .error _ => none) = some none := by
    decide +kernel
  simp only [encodes, decodes, Option.bind_some, Option.map_some, Option.some.injEq] at computed
  cases computed

theorem only_shortFrame {sent : AuthenticFrame Specimen.runtime defaultCipherSuite .fixed firstSender}
    (first : SealedFirst sent (some .vp8) shortFrame) : sent.Only shortReceiver (some .key) := by
  obtain ⟨format, now, ctr, clear, body⟩ := first
  have key : sent.key = keyOf 0 0 7 := by
    have stepped := sent.stepped
    rw [now] at stepped
    exact (Except.ok.inj stepped).symm
  have buf : sealedIn ⟨3, .header⟩ (keyOf 0 0 7) 0 [1, 2, 3] [] = sent.buf := by
    have sealed := sent.sealed
    rw [format, ctr, clear, body, key] at sealed
    unfold sealedIn
    rw [show sframeEncrypt Specimen.crypto [] _ 0 (aadPrefixOf [1, 2, 3] 3) .header = .ok sent.buf from sealed]
    rfl
  have payload : sent.payload = [1, 2, 3] ++ sealedIn ⟨3, .header⟩ (keyOf 0 0 7) 0 [1, 2, 3] [] := by
    rw [AuthenticFrame.payload, clear, buf]
    rfl
  refine only_receives (some .vp8) (le_refl 1) rfl rfl rfl (fun guess considered => ?_) ?_
  · apply considered.resolve_right
    have uncached : cachedFormat shortReceiver ([1, 2, 3] ++ sealedIn ⟨3, .header⟩ (keyOf 0 0 7) 0 [1, 2, 3] [])
        (codecPrefix ([1, 2, 3] ++ sealedIn ⟨3, .header⟩ (keyOf 0 0 7) 0 [1, 2, 3] []) (some .vp8) (some .key)) =
          none := by
      decide +kernel
    rw [payload, show shortReceiver.codec = some .vp8 from rfl, uncached]
    exact fun never => by cases never
  · rw [payload, format, now]
    decide +kernel

theorem short_frames_iff_vp8 : RoundTrips Specimen.runtime shortSender shortReceiver [shortFrame] ↔
    getUnencryptedBytes (some .vp8) shortFrame.kind ≤ shortFrame.data.length := by
  have before : BeforeEpochs atRest := ⟨rfl, rfl, rfl, rfl, rfl, rfl⟩
  have opens (_ : shortFrame.data.length < getUnencryptedBytes (some .vp8) shortFrame.kind) :
      OpensOnce Specimen.runtime shortReceiver 0 0 (some .vp8) shortFrame := by
    rintro ⟨epoch, peerIndex, cached⟩ sent rfl rfl serves first
    have own : shortReceiver.cachedKey 0 0 = some (keyOf 0 0 7) := by rfl
    obtain rfl : keyOf 0 0 7 = cached := Option.some.inj (own.symm.trans serves.held)
    exact only_shortFrame first
  exact short_frames_iff Specimen.crypto_correct before before rfl rfl rfl
    (show (bundles [7, 9]).get? 0 = some (Specimen.bundle 7) from rfl) rfl
    (show atRest.installEpoch 0 0 (bundles [7, 9]) = .ok shortSender from rfl)
    (show atRest.installEpoch 0 1 (bundles [7, 9]) = .ok shortReceiver from rfl) rfl (by decide) shortFrame
    opens

end Checked
end SFrameRatchet.ShortFrames
