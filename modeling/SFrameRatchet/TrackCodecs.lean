import SFrameRatchet.StreamRoundTrip

/-! Tracks with codecs of their own that share a worker. A streams message names
its track's codec, and the worker keeps the last one named for all of them; the
receiver keeps one format for each sender, whichever track a frame is of. A
track is processed by its own codec while the others leave as many bytes in the
clear. -/
namespace SFrameRatchet.TrackCodecs
open Collections Crypto Kid Header SFrame CodecPartial Throwing Coroutine Media StreamRoundTrip

variable {K G : Type} (runtime : Runtime K G)

/-- What a streams message attaches. -/
structure Pipe where
  side : Side
  codec : Option Codec
  deriving DecidableEq

/-- The worker of a sender and that of one of its receivers, with the pipes
attached to each so far. -/
structure Session (K G : Type) where
  sender : Worker K G
  receiver : Worker K G
  senderPipes : List Pipe := []
  receiverPipes : List Pipe := []

/-- A streams message to one of the workers, or a frame that flows from an
encode pipe to a decode pipe, both attached with the same codec. -/
inductive TrackEvent where
  | attachSender (pipe : Pipe)
  | attachReceiver (pipe : Pipe)
  | flow (codec : Option Codec) (frame : EncodedFrame)

/-- The worker after a streams message. -/
def attached (pipe : Pipe) (w : Worker K G) : Worker K G := { w with codec := pipe.codec.or w.codec }

theorem streams_alone (pipe : Pipe) (w : Worker K G) :
    alone (handleMessage runtime (.streams pipe.side pipe.codec)) w = some (.ok (), attached pipe w) := rfl

def Session.attachSender (session : Session K G) (pipe : Pipe) : Session K G :=
  { session with sender := attached pipe session.sender, senderPipes := session.senderPipes ++ [pipe] }

def Session.attachReceiver (session : Session K G) (pipe : Pipe) : Session K G :=
  { session with receiver := attached pipe session.receiver, receiverPipes := session.receiverPipes ++ [pipe] }

/-- Both ends have a pipe of a track with this codec. -/
def Session.Carries (session : Session K G) (codec : Option Codec) : Prop :=
  ⟨.encode, codec⟩ ∈ session.senderPipes ∧ ⟨.decode, codec⟩ ∈ session.receiverPipes

instance (session : Session K G) (codec : Option Codec) : Decidable (session.Carries codec) :=
  inferInstanceAs (Decidable (_ ∧ _))

/-- A frame leaves the sender with `n` bytes in the clear, and the receiver opens
it behind as many and has its bytes again. -/
def Flows (key : SFrameKey K) (trailer : Option Bytes) (ctr n : ℕ) (frame : EncodedFrame)
    (session next : Session K G) : Prop :=
  ∃ sent received, alone (encodeFrame runtime session.sender.frames.next frame.kind)
      (receiveFrame frame session.sender) = some (.ok (), sent) ∧
    OnWire runtime key ctr n frame.data (trailer.getD []) (sent.frames.read session.sender.frames.next).data ∧
    alone (decodeFrame runtime session.receiver.frames.next) (receiveFrame
        { frame with data := (sent.frames.read session.sender.frames.next).data } session.receiver) =
      some (.ok (.opened ⟨n, .header⟩ (frame.data.drop n)), received) ∧
    (received.frames.read session.receiver.frames.next).data = frame.data ∧
    next = { session with sender := sent, receiver := received }

/-- Every frame of a session is processed with the clear bytes of its own
track's codec, at both ends, and gets through. -/
def Isolated (key : SFrameKey K) (trailer : Option Bytes) : ℕ → Session K G → List TrackEvent → Prop
  | _, _, [] => True
  | ctr, session, .attachSender pipe :: rest => Isolated key trailer ctr (session.attachSender pipe) rest
  | ctr, session, .attachReceiver pipe :: rest => Isolated key trailer ctr (session.attachReceiver pipe) rest
  | ctr, session, .flow codec frame :: rest =>
    if session.Carries codec then
      ∃ next, Flows runtime key trailer ctr (clearBytes codec frame.type) frame session next ∧
        Isolated key trailer (ctr + 1) next rest
    else Isolated key trailer ctr session rest

/-- Every frame has `n` clear bytes, by its own track's codec and by the codecs
that the streams messages to each end have named last. -/
def OneLength (n : ℕ) : Option Codec → Option Codec → List TrackEvent → Prop
  | _, _, [] => True
  | sender, receiver, .attachSender pipe :: rest => OneLength n (pipe.codec.or sender) receiver rest
  | sender, receiver, .attachReceiver pipe :: rest => OneLength n sender (pipe.codec.or receiver) rest
  | sender, receiver, .flow codec frame :: rest =>
    (clearBytes codec frame.type = n ∧ clearBytes sender frame.type = n ∧ clearBytes receiver frame.type = n ∧
      n ≤ frame.data.length) ∧ OneLength n sender receiver rest

variable {runtime} {key : SFrameKey K} {trailer : Option Bytes} {ctr : ℕ} {w : Worker K G} {codec : Option Codec}

theorem sending_attached (sends : Sending key codec trailer ctr w) (pipe : Pipe) :
    Sending key (pipe.codec.or codec) trailer ctr (attached pipe w) where
  held := sends.held
  codec := by rw [← sends.codec]; rfl
  trailer := sends.trailer
  ctr := sends.ctr

theorem listening_attached {format : Option FormatGuess} (listens : Listening key codec trailer ctr format w)
    (pipe : Pipe) : Listening key (pipe.codec.or codec) trailer ctr format (attached pipe w) where
  codec := by rw [← listens.codec]; rfl
  trailer := listens.trailer
  named := listens.named
  cached := listens.cached
  valid := listens.valid
  current := listens.current
  replay := listens.replay
  trusted := listens.trusted
  format := listens.format

/-- One frame of a track gets through while the codecs agree on its clear bytes. -/
theorem flows_agreed (correct : runtime.crypto.Correct) (kid : key.kid ≤ 0xffffffff)
    (salt : key.salt.length = ivBytes) {session : Session K G} {sender receiver : Option Codec}
    {format : Option FormatGuess} (sends : Sending key sender trailer ctr session.sender)
    (listens : Listening key receiver trailer ctr format session.receiver)
    (granted : Granted runtime.guard key ctr session.receiver) (room : ctr < 2 ^ 64) {n : ℕ} {frame : EncodedFrame}
    (known : format = none ∨ format = some ⟨n, .header⟩) (sealing : clearBytes sender frame.type = n)
    (opening : clearBytes receiver frame.type = n) (long : n ≤ frame.data.length) :
    ∃ next, Flows runtime key trailer ctr n frame session next ∧
      next.senderPipes = session.senderPipes ∧ next.receiverPipes = session.receiverPipes ∧
      Sending key sender trailer (ctr + 1) next.sender ∧
      Listening key receiver trailer (ctr + 1) (some ⟨n, .header⟩) next.receiver ∧
      Granted runtime.guard key (ctr + 1) next.receiver := by
  subst sealing
  obtain ⟨sent, encoded, sends', onWire⟩ := encodes_next correct sends kid salt room frame long
  rw [← opening] at onWire known long
  obtain ⟨received, decoded, listens', granted', data⟩ :=
    decodes_next correct listens granted room known onWire long
  rw [opening] at decoded onWire listens'
  exact ⟨{ session with sender := sent, receiver := received },
    ⟨sent, received, encoded, onWire, decoded, data, rfl⟩, rfl, rfl, sends', listens', granted'⟩

/-- **Tracks that agree on their clear bytes.** Whatever pipes are attached at
either end, in any order and between any frames: as long as the codec named last
at each end leaves as many bytes of a frame in the clear as the codec of its own
track, and all frames leave the same number, every frame is processed with the
clear bytes of its own codec and gets through. -/
theorem tracks_isolated (correct : runtime.crypto.Correct) (kid : key.kid ≤ 0xffffffff)
    (salt : key.salt.length = ivBytes) (n : ℕ) (events : List TrackEvent) {session : Session K G}
    {sender receiver : Option Codec} {format : Option FormatGuess} (known : format = none ∨ format = some ⟨n, .header⟩)
    (agreed : OneLength n sender receiver events) (sends : Sending key sender trailer ctr session.sender)
    (listens : Listening key receiver trailer ctr format session.receiver)
    (granted : Granted runtime.guard key ctr session.receiver) (room : ctr + events.length ≤ 2 ^ 64) :
    Isolated runtime key trailer ctr session events := by
  induction events generalizing session sender receiver format ctr with
  | nil => exact trivial
  | cons event rest ih =>
    rw [List.length_cons] at room
    cases event with
    | attachSender pipe =>
      exact ih known agreed (sending_attached sends pipe) listens granted (by omega)
    | attachReceiver pipe =>
      exact ih known agreed sends (listening_attached listens pipe) granted (by omega)
    | flow codec frame =>
      obtain ⟨⟨own, sealing, opening, long⟩, agreed⟩ := agreed
      unfold Isolated
      split
      · obtain ⟨next, flows, -, -, sends, listens, granted⟩ := flows_agreed correct kid salt sends listens granted
          (by omega) known sealing opening long
        rw [own]
        exact ⟨next, flows, ih (.inr rfl) agreed sends listens granted (by omega)⟩
      · exact ih known agreed sends listens granted (by omega)

/-! ## Two tracks on one worker -/

section Checked
open Specimen (bundles installed)

/-- Both ends of epoch 0, before any pipe. -/
def unattached : Session Bytes Unit := { sender := installed 0 0 [7, 9], receiver := installed 0 1 [7, 9] }

/-- The sender's key. -/
def senderKey : SFrameKey Bytes := (Specimen.keyOf 0 0 7).toSFrameKey

/-- An audio and a video track at the sender, and the audio track at the receiver. -/
def audioAndVideo : List TrackEvent :=
  [.attachSender ⟨.encode, some .opus⟩, .attachSender ⟨.encode, some .vp8⟩, .attachReceiver ⟨.decode, some .opus⟩,
    .flow (some .opus) ⟨[1, 2, 3, 4, 5], none⟩]

/-- The audio frame goes out with the clear bytes of the video codec, and does not open. -/
theorem audio_frame_lost : ¬ ∀ events, Isolated Specimen.runtime senderKey none 0 unattached events := by
  intro isolated
  obtain ⟨next, ⟨sent, received, encoded, -, decoded, -⟩, -⟩ := isolated audioAndVideo
  have computed : ((alone (encodeFrame Specimen.runtime 0 none) (receiveFrame ⟨[1, 2, 3, 4, 5], none⟩
      (attached ⟨.encode, some .vp8⟩ (attached ⟨.encode, some .opus⟩ unattached.sender)))).bind fun result =>
        (alone (decodeFrame Specimen.runtime 0) (receiveFrame
          { data := (result.2.frames.read 0).data, type := none }
          (attached ⟨.decode, some .opus⟩ unattached.receiver))).map fun result => result.1.toOption) =
      some none := by
    decide +kernel
  have encoded : alone (encodeFrame Specimen.runtime 0 none) (receiveFrame ⟨[1, 2, 3, 4, 5], none⟩
      (attached ⟨.encode, some .vp8⟩ (attached ⟨.encode, some .opus⟩ unattached.sender))) = some (.ok (), sent) :=
    encoded
  have decoded : alone (decodeFrame Specimen.runtime 0) (receiveFrame
      { data := (sent.frames.read 0).data, type := none } (attached ⟨.decode, some .opus⟩ unattached.receiver)) =
        some (.ok (.opened ⟨1, .header⟩ [2, 3, 4, 5]), received) := decoded
  rw [encoded, Option.bind_some, decoded] at computed
  cases computed

/-- An audio and a video track whose codecs both leave one byte in the clear. -/
def oneClearByte : List TrackEvent :=
  [.attachSender ⟨.encode, some .opus⟩, .attachReceiver ⟨.decode, some .h264⟩, .attachSender ⟨.encode, some .h264⟩,
    .attachReceiver ⟨.decode, some .opus⟩, .flow (some .opus) ⟨[1, 2, 3], none⟩,
    .flow (some .h264) ⟨[4, 5, 6, 7], some .key⟩]

theorem tracks_isolated_one_byte : ∃ key : SFrameKey Bytes,
    Isolated Specimen.runtime key none 0 unattached oneClearByte := by
  have before : BeforeEpochs (Worker.createWorkerState : Worker Bytes Unit) := ⟨rfl, rfl, rfl, rfl, rfl, rfl⟩
  have sent : (Worker.createWorkerState : Worker Bytes Unit).installEpoch 0 0 (bundles [7, 9]) =
      .ok unattached.sender := rfl
  have received : (Worker.createWorkerState : Worker Bytes Unit).installEpoch 0 1 (bundles [7, 9]) =
      .ok unattached.receiver := rfl
  have carried : (bundles [7, 9]).get? 0 = some (Specimen.bundle 7) := rfl
  obtain ⟨key, kid, -, salt, -, -, -, sends, listens, granted⟩ :=
    session_installed Specimen.runtime before before rfl rfl rfl carried sent received
  refine ⟨key, tracks_isolated Specimen.crypto_correct kid (by rw [salt]; rfl) 1 oneClearByte (.inl rfl) ?_
    sends listens granted (by norm_num [oneClearByte])⟩
  simp [OneLength, oneClearByte, clearBytes, EncodedFrame.kind, getUnencryptedBytes, Worker.createWorkerState]

end Checked
end SFrameRatchet.TrackCodecs
