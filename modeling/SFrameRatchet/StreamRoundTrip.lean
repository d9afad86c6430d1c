import SFrameRatchet.FastPath

/-! One sender and one receiver over a sequence of frames. The sender chooses a
clear prefix for each frame by its kind; the receiver remembers one format for
each sender, so the two agree on a frame when its prefix is as long as the first
frame's. -/
namespace SFrameRatchet.StreamRoundTrip
open BigEndian Collections Crypto Kid Header SFrame CodecPartial Replay ConstantTime Throwing Coroutine Media
open Unsealing

variable {K G : Type} (runtime : Runtime K G)

/-- The bytes each frame leaves the sender with. -/
def encodeStream : List EncodedFrame → Task K G (List Bytes)
  | [] => return []
  | frame :: rest => do
    let ref ← receive frame
    encodeFrame runtime ref frame.kind
    let state ← read
    let wires ← encodeStream rest
    return (state.frames.read ref).data :: wires

/-- The bytes each frame has after it was decoded. -/
def decodeStream : List EncodedFrame → Task K G (List Bytes)
  | [] => return []
  | frame :: rest => do
    let ref ← receive frame
    let _ ← decodeFrame runtime ref
    let state ← read
    let opened ← decodeStream rest
    return (state.frames.read ref).data :: opened

/-- The receiver gets every frame back from what the sender made of it. -/
def RoundTrips (sender receiver : Worker K G) (frames : List EncodedFrame) : Prop :=
  ∃ wires sent received, alone (encodeStream runtime frames) sender = some (.ok wires, sent) ∧
    alone (decodeStream runtime
        (List.zipWith (fun wire frame => { frame with data := wire }) wires frames)) receiver =
      some (.ok (frames.map (·.data)), received)

/-- How many bytes of a frame of some type stay in the clear. -/
def clearBytes (codec : Option Codec) (type : Option FrameType) : ℕ :=
  getUnencryptedBytes codec (EncodedFrame.mk [] type).kind

/-! ## What goes over the wire -/

variable {runtime}

/-- Clear prefix, header, ciphertext and trailer, one behind the other. -/
theorem wireFrame_ok (correct : runtime.crypto.Correct) {plaintext iv : Bytes} {n ctr : ℕ}
    {key : SFrameKey K} {header : Bytes} (written : serializeHeader key.kid ctr = .ok header)
    (fits : n ≤ plaintext.length) (derived : deriveIv key.salt ctr = .ok iv)
    (trailer : Option Bytes) :
    ∃ ct, runtime.crypto.encrypt key.cryptoKey iv header (plaintext.drop n) = some ct ∧
      wireFrame runtime plaintext header n key ctr trailer =
        .ok (plaintext.take n ++ (header ++ ct) ++ trailer.getD []) := by
  obtain ⟨ct, sealed⟩ := correct.seals key.cryptoKey iv header (plaintext.drop n)
  refine ⟨ct, sealed, ?_⟩
  have tagged : FastPath.Tagged runtime.crypto := fun _ _ _ _ _ made => correct.tagged made
  have whole : sframeEncrypt runtime.crypto (plaintext.drop n) key ctr none .header = .ok (header ++ ct) :=
    sframeEncrypt_ok.mpr ⟨header, iv, ct, written, derived, sealed, rfl⟩
  rw [FastPath.wireFrame_eq tagged fits written, whole]
  rfl

/-- The receiver opens the header and ciphertext that the sender wrote. -/
theorem decrypt_sealed {crypto : WebCrypto K} (correct : crypto.Correct) {key : SFrameKey K} {ctr : ℕ}
    {header iv ct body : Bytes} (written : serializeHeader key.kid ctr = .ok header)
    (derived : deriveIv key.salt ctr = .ok iv)
    (sealed : crypto.encrypt key.cryptoKey iv header body = some ct)
    {resolveKey : ℕ → ℤ → ℤ → ℕ → Option (SFrameKey K)} {kidCodec : KidCodec}
    (resolved : resolveKey key.kid (kidCodec.decode key.kid).1 (kidCodec.decode key.kid).2 ctr = some key)
    (aadPrefix : Option Bytes) :
    sframeDecrypt crypto (header ++ ct) resolveKey kidCodec aadPrefix .header = .ok body := by
  have parsed : parseHeader (header ++ ct) = .ok ⟨key.kid, ctr, header.length⟩ := by
    simpa using parseHeader_serializeHeader written ct
  have long : ¬ (header ++ ct).length < header.length + aeadTagBytes := by
    rw [List.length_append, correct.tagged sealed]; omega
  simp only [sframeDecrypt, parsed, bind, Except.bind, if_neg long, resolved, derived, buildAad,
    List.take_left, List.drop_left, correct.opens sealed, pure, Except.pure]

/-! ## The sender -/

/-- A sender with its own key of the current epoch, at some counter. -/
structure Sending (key : SFrameKey K) (codec : Option Codec) (trailer : Option Bytes) (ctr : ℕ)
    (w : Worker K G) : Prop where
  held : ∃ entry full, w.epochs.get? w.currentEpoch = some entry ∧
    (w.entries.read entry).keys.get? (w.entries.read entry).selfPeerIndex = some full ∧
    full.toSFrameKey = key
  codec : w.codec = codec
  trailer : w.sifTrailer = trailer
  ctr : w.ctr = ctr

private def sendingParts (w : Worker K G) :=
  (w.epochs, w.currentEpoch, w.entries, w.codec, w.sifTrailer, w.ctr)

variable {key : SFrameKey K} {codec : Option Codec} {trailer : Option Bytes} {ctr : ℕ} {w w' : Worker K G}

private theorem sending_of (sends : Sending key codec trailer ctr w)
    (same : sendingParts w' = sendingParts w) : Sending key codec trailer ctr w' := by
  simp only [sendingParts, Prod.mk.injEq] at same
  obtain ⟨epochs, current, entries, codec, trailer, ctr⟩ := same
  constructor
  · rw [epochs, current, entries]; exact sends.held
  · rw [codec]; exact sends.codec
  · rw [trailer]; exact sends.trailer
  · rw [ctr]; exact sends.ctr

theorem sending_of_core (sends : Sending key codec trailer ctr w) (same : w'.core = w.core) :
    Sending key codec trailer ctr w' :=
  sending_of sends (congrArg sendingParts same : sendingParts w'.core = sendingParts w.core)

/-- The bytes of a frame on the wire, under some key at some counter. -/
def OnWire (runtime : Runtime K G) (key : SFrameKey K) (ctr : ℕ) (n : ℕ) (plaintext ending wire : Bytes) :
    Prop :=
  ∃ header iv ct, serializeHeader key.kid ctr = .ok header ∧ deriveIv key.salt ctr = .ok iv ∧
    runtime.crypto.encrypt key.cryptoKey iv header (plaintext.drop n) = some ct ∧
    wire = plaintext.take n ++ (header ++ ct) ++ ending

theorem encodeFrame_alone (correct : runtime.crypto.Correct) (sends : Sending key codec trailer ctr w)
    (kid : key.kid ≤ 0xffffffff) (salt : key.salt.length = ivBytes) (room : ctr < 2 ^ 64)
    (ref : Ref) (kind : Option FrameKind) :
    ∃ w', alone (encodeFrame runtime ref kind) w = some (.ok (), w') ∧
      Sending key codec trailer (ctr + 1) w' ∧
      OnWire runtime key ctr (min (getUnencryptedBytes codec kind) (w.frames.read ref).data.length)
        (w.frames.read ref).data (trailer.getD []) (w'.frames.read ref).data := by
  obtain ⟨⟨entry, full, installed, held, rfl⟩, rfl, rfl, rfl⟩ := sends
  obtain ⟨ctrBytes, minimal, -⟩ := minimalBigEndian_reads room
  have written : ∃ header, serializeHeader full.kid w.ctr = .ok header := by
    have kidRange : ¬ ((full.kid : ℤ) < 0 ∨ (full.kid : ℤ) > 0xffffffff) := by omega
    have ctrRange : ¬ ((w.ctr : ℤ) < 0 ∨ (w.ctr : ℤ) > 0xffffffffffffffff) := by omega
    simp only [serializeHeader, if_neg kidRange, if_neg ctrRange, Int.toNat_natCast, fixedBigEndian_ok kid,
      minimal, bind, Except.bind]
    exact ⟨_, rfl⟩
  obtain ⟨header, written⟩ := written
  obtain ⟨iv, derived⟩ : ∃ iv, deriveIv full.salt w.ctr = .ok iv := by simp [deriveIv, salt]
  obtain ⟨ct, sealed, wired⟩ := wireFrame_ok correct
    (n := min (getUnencryptedBytes w.codec kind) (w.frames.read ref).data.length)
    written (Nat.min_le_right _ _) derived w.sifTrailer
  simp only [encodeFrame, alone_bind, alone_read, Option.bind_some, installed, held, alone_update, alone_settle,
    written, alone_pause, wired]
  refine ⟨_, rfl, ?_, ?_⟩
  · refine sending_of_core ?_ (Worker.core_clearEncryptStarve _)
    refine sending_of_core ?_ (Worker.core_emitMetric _ _)
    simp only [noteSealing, derived]
    exact ⟨⟨entry, full, installed, held, rfl⟩, rfl, rfl, rfl⟩
  · have data (v v' : Worker K G) (same : v.core = v'.core) : v.frames = v'.frames :=
      congrArg (·.frames) same
    rw [data _ _ (Worker.core_clearEncryptStarve _), data _ _ (Worker.core_emitMetric _ _)]
    simp only [Heap.read_write, ↓reduceIte]
    exact ⟨header, iv, ct, written, derived, sealed, rfl⟩

/-! ## The receiver -/

/-- A receiver with the sender's key, that remembers no counter from `ctr` on
and has resolved the sender's format as given. -/
structure Listening (key : SFrameKey K) (codec : Option Codec) (trailer : Option Bytes) (ctr : ℕ)
    (format : Option FormatGuess) (w : Worker K G) : Prop where
  codec : w.codec = codec
  trailer : w.sifTrailer = trailer
  named : w.kidCodec.decode key.kid = (key.epoch, key.peerIndex)
  cached : (w.cachedKey key.epoch key.peerIndex).map (·.toSFrameKey) = some key
  valid : w.currentMinValidEpoch ≤ key.epoch
  current : w.currentEpoch ≠ -1
  replay : ∀ window, w.windowOf key.epoch key.peerIndex = some window →
    ∀ other ∈ window.window.queue, other < ctr
  trusted : w.isKeyInvalid key.epoch key.peerIndex = false
  format : w.getFormatCache key.epoch key.peerIndex = format

/-- A durable guard that takes a sender's counters as they come. -/
def Grants (guard : ReplayGuard G) (name : String) (ctr : ℕ) (durable : G) : Prop :=
  ∃ takes : ℕ → G → Prop, takes ctr durable ∧ ∀ next store, takes next store →
    takes (next + 1) store ∧ (guard.check store name next).1 = true ∧
      takes (next + 1) (guard.check store name next).2 ∧
      takes (next + 1) (guard.accept (guard.check store name next).2 name next)

/-- The guard of a worker, if it has one, takes a sender's counters. -/
def Granted (guard : ReplayGuard G) (key : SFrameKey K) (ctr : ℕ) (w : Worker K G) : Prop :=
  ∀ durable, w.durableReplay = some durable →
    Grants guard (Worker.durableReplayKey key.epoch key.peerIndex) ctr durable

/-- The guard has let a counter pass and is about to be told of it. -/
def Passed (guard : ReplayGuard G) (key : SFrameKey K) (ctr : ℕ) (w : Worker K G) : Prop :=
  Granted guard key (ctr + 1) w ∧ ∀ durable, w.durableReplay = some durable →
    guard.available durable = true → Grants guard (Worker.durableReplayKey key.epoch key.peerIndex) (ctr + 1)
      (guard.accept durable (Worker.durableReplayKey key.epoch key.peerIndex) ctr)

private def listeningParts (w : Worker K G) :=
  (w.codec, w.sifTrailer, w.kidCodec, w.epochs, w.entries, w.currentMinValidEpoch, w.currentEpoch,
    w.replayWindows, w.failureTolerance, w.failureCounts, w.formatCache)

variable {format : Option FormatGuess}

private theorem listening_of (listens : Listening key codec trailer ctr format w)
    (same : listeningParts w' = listeningParts w) : Listening key codec trailer ctr format w' := by
  simp only [listeningParts, Prod.mk.injEq] at same
  obtain ⟨codec, trailer, kidCodec, epochs, entries, valid, current, windows, tolerance, counts, formats⟩ := same
  constructor
  · rw [codec]; exact listens.codec
  · rw [trailer]; exact listens.trailer
  · rw [kidCodec]; exact listens.named
  · rw [Worker.cachedKey, epochs, entries]; exact listens.cached
  · rw [valid]; exact listens.valid
  · rw [current]; exact listens.current
  · rw [Worker.windowOf, windows]; exact listens.replay
  · rw [Worker.isKeyInvalid, tolerance, counts]; exact listens.trusted
  · rw [Worker.getFormatCache, formats]; exact listens.format

theorem listening_emitMetric (listens : Listening key codec trailer ctr format w) (event : MetricsEvent) :
    Listening key codec trailer ctr format (w.emitMetric event) := by
  unfold Worker.emitMetric
  split
  · exact listening_of listens rfl
  · exact listens

theorem listening_clearStarve (listens : Listening key codec trailer ctr format w) :
    Listening key codec trailer ctr format w.clearStarve := by
  unfold Worker.clearStarve
  split
  · exact listens
  · exact listening_of listens rfl

theorem listening_setFormatCache (listens : Listening key codec trailer ctr format w) (guess : FormatGuess) :
    Listening key codec trailer ctr (some guess)
      (w.setFormatCache key.epoch key.peerIndex guess) :=
  { listens with
    cached := listens.cached, replay := listens.replay, trusted := listens.trusted
    format := Worker.getFormatCache_setFormatCache w _ _ guess }

theorem listening_recordSuccess (listens : Listening key codec trailer ctr format w) :
    Listening key codec trailer ctr format (w.recordSuccess key.epoch key.peerIndex) := by
  unfold Worker.recordSuccess
  split
  · exact listens
  · rename_i counts
    refine { listens with
      cached := listens.cached, replay := listens.replay, format := listens.format, trusted := ?_ }
    simp only [Worker.isKeyInvalid, if_neg counts, OrderedMap.get?_set, ↓reduceIte, Option.getD_some,
      decide_eq_false_iff_not]
    omega

theorem listening_getReplayWindow (listens : Listening key codec trailer ctr format w) :
    Listening key codec trailer ctr format (w.getReplayWindow key.epoch key.peerIndex).2 ∧
      ∀ other ∈ (w.getReplayWindow key.epoch key.peerIndex).1.window.queue, other < ctr := by
  have fetched : ∀ other ∈ (w.getReplayWindow key.epoch key.peerIndex).1.window.queue, other < ctr := by
    rw [Worker.getReplayWindow_fst]
    cases held : w.windowOf key.epoch key.peerIndex with
    | none => intro other member; cases member
    | some window => exact listens.replay window held
  refine ⟨?_, fetched⟩
  have windows := Worker.windowOf_getReplayWindow w key.epoch key.peerIndex key.epoch key.peerIndex
  obtain ⟨table, next, same⟩ := Worker.getReplayWindow_snd w key.epoch key.peerIndex
  rw [same] at windows ⊢
  refine { listens with
    cached := listens.cached, trusted := listens.trusted, format := listens.format, replay := ?_ }
  rw [windows, if_pos ⟨rfl, rfl⟩]
  intro window held
  cases held
  exact fetched

theorem listening_acceptReplay (listens : Listening key codec trailer ctr format w) (object frame : ℕ) :
    Listening key codec trailer (ctr + 1) format
      (w.acceptReplay ⟨key.epoch, key.peerIndex, ctr⟩ object frame) := by
  have windows := Worker.windowOf_acceptReplay w ⟨key.epoch, key.peerIndex, ctr⟩ object frame key.epoch
    key.peerIndex
  obtain ⟨table, same⟩ := Worker.acceptReplay_eq w ⟨key.epoch, key.peerIndex, ctr⟩ object frame
  rw [same] at windows ⊢
  refine { listens with
    cached := listens.cached, trusted := listens.trusted, format := listens.format, replay := ?_ }
  rw [windows, if_pos ⟨rfl, rfl⟩]
  intro window held other member
  obtain ⟨before, kept, rfl⟩ := Option.map_eq_some_iff.mp held
  have below := listens.replay before kept
  split at member
  · rcases SlidingReplayWindow.mem_accept member with old | new
    · exact Nat.lt_succ_of_lt (below other old)
    · exact new ▸ Nat.lt_succ_self _
  · exact Nat.lt_succ_of_lt (below other member)

theorem checkReplay_alone (listens : Listening key codec trailer ctr format w) (fits : ctr < 2 ^ 64) :
    ∃ object w', alone (checkReplay ⟨key.epoch, key.peerIndex, ctr⟩) w = some (.ok (some object), w') ∧
      Listening key codec trailer ctr format w' ∧ w'.durableReplay = w.durableReplay ∧
      w'.frames = w.frames := by
  obtain ⟨after, below⟩ := listening_getReplayWindow listens
  have passes := SlidingReplayWindow.check_above fits below
  obtain ⟨table, next, same⟩ := Worker.getReplayWindow_snd w key.epoch key.peerIndex
  rw [same] at after
  simp only [checkReplay, alone_bind, alone_read, Option.bind_some, alone_update, passes, ↓reduceIte,
    alone_pure, same]
  exact ⟨_, _, rfl, listening_of after rfl, rfl, rfl⟩

theorem durableCheck_alone (listens : Listening key codec trailer ctr format w)
    (granted : Granted runtime.guard key ctr w) (at_ : AwaitPoint) :
    ∃ w', alone (durableCheck runtime at_ ⟨key.epoch, key.peerIndex, ctr⟩) w = some (.ok true, w') ∧
      Listening key codec trailer ctr format w' ∧ Passed runtime.guard key ctr w' ∧
      w'.frames = w.frames := by
  cases held : durableGuard runtime w with
  | none =>
    simp only [durableCheck, alone_bind, alone_read, Option.bind_some, held, alone_pure]
    refine ⟨w, rfl, listens, ⟨fun durable installed => ?_, fun durable installed usable => ?_⟩, rfl⟩
    · obtain ⟨takes, now, on⟩ := granted durable installed
      exact ⟨takes, (on ctr durable now).1, on⟩
    · exact absurd usable (by simpa [durableGuard, installed] using held)
  | some durable =>
    obtain ⟨installed, -⟩ := Option.filter_eq_some_iff.mp held
    obtain ⟨takes, now, on⟩ := granted durable installed
    obtain ⟨-, answer, checked, accepted⟩ := on ctr durable now
    simp only [durableCheck, alone_bind, alone_read, Option.bind_some, held, alone_update, alone_pause,
      alone_pure, answer]
    refine ⟨_, rfl, listening_of listens rfl, ⟨?_, ?_⟩, rfl⟩
    · rintro - ⟨⟩
      exact ⟨takes, checked, on⟩
    · rintro - ⟨⟩ -
      exact ⟨takes, accepted, on⟩

/-- The plaintext behind the clear prefix, whether the probe has it already or
the key cached now opens it. -/
theorem openResolved_alone (listens : Listening key codec trailer ctr format w)
    (passed : Passed runtime.guard key ctr w) {payload opened : Bytes} (guess : FormatGuess)
    {probed : Option Probed} (frame : Ref) (object : ℕ)
    (probes : ∀ found, probed = some found → found.plaintext = opened)
    (opens : probed = none → sframeDecrypt runtime.crypto (payload.drop guess.prefixLen) (resolveCached w)
      w.kidCodec (aadPrefixOf payload guess.prefixLen) guess.aadForm = .ok opened) :
    ∃ w', alone (openResolved runtime frame (⟨key.epoch, key.peerIndex, ctr⟩, object) payload guess probed) w =
        some (.ok opened, w') ∧
      Listening key codec trailer ctr (some guess) w' ∧ Passed runtime.guard key ctr w' ∧
      w'.frames = w.frames := by
  refine ⟨w.setFormatCache key.epoch key.peerIndex guess, ?_, listening_setFormatCache listens guess,
    passed, rfl⟩
  cases probed with
  | some found =>
    simp only [openResolved, alone_bind, alone_update, Option.bind_some, alone_pure, probes found rfl]
  | none =>
    obtain ⟨full, cached, -⟩ := Option.map_eq_some_iff.mp listens.cached
    obtain ⟨entry, installed, held⟩ := Option.bind_eq_some_iff.mp cached
    simp only [openResolved, tryDecryptWithRatchet, openCached, alone_bind, alone_attempt, alone_read,
      Option.bind_some, installed, held, alone_pause, alone_settle, opens rfl, Option.map_some, alone_pure,
      alone_update]

theorem acceptFrame_alone (listens : Listening key codec trailer ctr format w)
    (passed : Passed runtime.guard key ctr w) (frame : Ref) (object : ℕ) (payload opened : Bytes)
    (guess : FormatGuess) :
    ∃ w', alone (acceptFrame runtime frame (⟨key.epoch, key.peerIndex, ctr⟩, object) payload guess opened) w =
        some (.ok (), w') ∧
      Listening key codec trailer (ctr + 1) format w' ∧ Granted runtime.guard key (ctr + 1) w' ∧
      (w'.frames.read frame).data = payload.take guess.prefixLen ++ opened := by
  have accepted := listening_acceptReplay listens object frame
  have finish (v : Worker K G) (listens : Listening key codec trailer (ctr + 1) format v)
      (granted : Granted runtime.guard key (ctr + 1) v) :
      let noted := v.recordSuccess key.epoch key.peerIndex
      let written := { noted with
        frames := noted.frames.write frame
          { noted.frames.read frame with data := payload.take guess.prefixLen ++ opened }
        delivered := noted.delivered ++ [((⟨key.epoch, key.peerIndex, ctr⟩ : Slot), frame)] }
      Listening key codec trailer (ctr + 1) format written.clearStarve ∧
        Granted runtime.guard key (ctr + 1) written.clearStarve ∧
        (written.clearStarve.frames.read frame).data = payload.take guess.prefixLen ++ opened := by
    have counted := listening_recordSuccess listens
    intro noted written
    have same : written.clearStarve.durableReplay = v.durableReplay :=
      (congrArg (·.durableReplay) (Worker.core_clearStarve written) : _).trans
        (congrArg (·.durableReplay) (Worker.core_recordSuccess v key.epoch key.peerIndex))
    have frames : written.clearStarve.frames = written.frames :=
      congrArg (·.frames) (Worker.core_clearStarve written)
    refine ⟨listening_clearStarve (listening_of counted rfl), fun durable held => ?_, ?_⟩
    · exact granted durable (same ▸ held)
    · rw [frames]; simp [written]
  obtain ⟨table, replayed⟩ := Worker.acceptReplay_eq w ⟨key.epoch, key.peerIndex, ctr⟩ object frame
  have durable : (w.acceptReplay ⟨key.epoch, key.peerIndex, ctr⟩ object frame).durableReplay =
      w.durableReplay := by rw [replayed]
  cases held : durableGuard runtime (w.acceptReplay ⟨key.epoch, key.peerIndex, ctr⟩ object frame) with
  | none =>
    simp only [acceptFrame, durableAccept, alone_bind, alone_update, alone_read, Option.bind_some, held,
      alone_pure]
    exact ⟨_, rfl, finish _ accepted fun store installed => passed.1 store (durable ▸ installed)⟩
  | some store =>
    obtain ⟨installed, usable⟩ := Option.filter_eq_some_iff.mp held
    simp only [acceptFrame, durableAccept, alone_bind, alone_update, alone_read, Option.bind_some, held,
      alone_pause]
    refine ⟨_, rfl, finish _ (listening_of accepted rfl) ?_⟩
    rintro - ⟨⟩
    exact passed.2 store (durable ▸ installed) usable

/-- A payload as the receiver sees it, with the trailer stripped. -/
theorem payload_stripped {n : ℕ} {plaintext wire : Bytes}
    (onWire : OnWire runtime key ctr n plaintext (trailer.getD []) wire) (long : n ≤ plaintext.length) :
    ∃ payload header iv ct, sifPayload trailer wire = some payload ∧ payload.take n = plaintext.take n ∧
      payload.drop n = header ++ ct ∧ n < payload.length ∧ serializeHeader key.kid ctr = .ok header ∧
      deriveIv key.salt ctr = .ok iv ∧
      runtime.crypto.encrypt key.cryptoKey iv header (plaintext.drop n) = some ct := by
  obtain ⟨header, iv, ct, written, derived, sealed, rfl⟩ := onWire
  have width : (plaintext.take n).length = n := by simpa using long
  obtain ⟨-, -, ctrBytes, -, shape⟩ := serializeHeader_ok written
  refine ⟨plaintext.take n ++ (header ++ ct), header, iv, ct, ?_, List.take_left' width,
    List.drop_left' width, ?_, written, derived, sealed⟩
  · cases trailer with
    | none => simp [sifPayload]
    | some ending =>
      simp only [sifPayload, Option.getD_some, append_endsWith, ↓reduceIte, Option.some.injEq]
      exact List.take_left' (by simp only [List.length_append]; omega)
  · simp only [List.length_append, width, shape, List.length_cons]
    omega

theorem resolveFormat_alone (correct : runtime.crypto.Correct)
    (listens : Listening key codec trailer ctr format w) {kind : Option FrameKind}
    {payload plaintext header iv ct : Bytes} (frame : Ref)
    (known : format = none ∨ format = some ⟨getUnencryptedBytes codec kind, .header⟩)
    (behind : payload.drop (getUnencryptedBytes codec kind) = header ++ ct)
    (long : getUnencryptedBytes codec kind < payload.length)
    (written : serializeHeader key.kid ctr = .ok header) (derived : deriveIv key.salt ctr = .ok iv)
    (sealed : runtime.crypto.encrypt key.cryptoKey iv header plaintext = some ct) :
    ∃ probed, alone (resolveFormat runtime frame payload codec kind) w =
        some (.ok (⟨getUnencryptedBytes codec kind, .header⟩, probed), w) ∧
      ∀ found, probed = some found → found.plaintext = plaintext := by
  have parsed : parseHeader (header ++ ct) = .ok ⟨key.kid, ctr, header.length⟩ := by
    simpa using parseHeader_serializeHeader written ct
  have inside : min (getUnencryptedBytes codec kind) payload.length = getUnencryptedBytes codec kind :=
    Nat.min_eq_left (Nat.le_of_lt long)
  have lookup : cachedFormat w payload (getUnencryptedBytes codec kind) = format := by
    simp only [cachedFormat, if_pos long, behind, parsed, listens.named, listens.format]
  rcases known with rfl | rfl
  · obtain ⟨rest, candidates⟩ : ∃ rest, formatCandidates codec kind =
        ⟨getUnencryptedBytes codec kind, .header⟩ :: rest := by
      have first := formatCandidates_first codec kind
      cases shape : formatCandidates codec kind with
      | nil => simp [shape] at first
      | cons guess rest => rw [shape] at first; exact ⟨rest, by rw [Option.some.inj first]⟩
    obtain ⟨full, cached, same⟩ := Option.map_eq_some_iff.mp listens.cached
    have tagged : ¬ (header ++ ct).length < header.length + 16 := by
      rw [List.length_append, correct.tagged sealed, aeadTagBytes]; omega
    have opens : sframeDecrypt runtime.crypto (header ++ ct) (fun _ _ _ _ => some key) w.kidCodec
        (aadPrefixOf payload (getUnencryptedBytes codec kind)) .header = .ok plaintext :=
      decrypt_sealed correct written derived sealed rfl _
    have attempted : probeAttempt runtime w payload ⟨getUnencryptedBytes codec kind, .header⟩ =
        some (⟨key.kid, ctr, header.length⟩, key.epoch, key.peerIndex, .ok plaintext) := by
      simp only [probeAttempt, behind, parsed, if_neg tagged, listens.named, cached, same, opens]
    simp only [resolveFormat, alone_bind, alone_read, Option.bind_some, inside, lookup, candidates, probeFormat,
      attempted, alone_pause, alone_pure]
    exact ⟨_, rfl, fun found same => by cases same; rfl⟩
  · simp only [resolveFormat, alone_bind, alone_read, Option.bind_some, inside, lookup, alone_pure]
    exact ⟨_, rfl, fun found same => by cases same⟩

/-- **One frame.** A frame under the sender's next counter, in the format that
the receiver has resolved or will resolve, is opened to its own bytes. -/
theorem decodeFrame_alone (correct : runtime.crypto.Correct)
    (listens : Listening key codec trailer ctr format w) (granted : Granted runtime.guard key ctr w)
    (fits : ctr < 2 ^ 64) {ref : Ref} {plaintext : Bytes} {kind : Option FrameKind}
    (kinds : (w.frames.read ref).kind = kind)
    (known : format = none ∨ format = some ⟨getUnencryptedBytes codec kind, .header⟩)
    (onWire : OnWire runtime key ctr (getUnencryptedBytes codec kind) plaintext (trailer.getD [])
      (w.frames.read ref).data)
    (long : getUnencryptedBytes codec kind ≤ plaintext.length) :
    ∃ w', alone (decodeFrame runtime ref) w = some (.ok (.opened ⟨getUnencryptedBytes codec kind, .header⟩
        (plaintext.drop (getUnencryptedBytes codec kind))), w') ∧
      Listening key codec trailer (ctr + 1) (some ⟨getUnencryptedBytes codec kind, .header⟩) w' ∧
      Granted runtime.guard key (ctr + 1) w' ∧ (w'.frames.read ref).data = plaintext := by
  obtain ⟨payload, header, iv, ct, stripped, clear, behind, inside, written, derived, sealed⟩ :=
    payload_stripped onWire long
  have parsed : parseHeader (header ++ ct) = .ok ⟨key.kid, ctr, header.length⟩ := by
    simpa using parseHeader_serializeHeader written ct
  obtain ⟨probed, resolved, probes⟩ := resolveFormat_alone correct listens ref known behind inside written
    derived sealed
  have heard : Listening key codec trailer ctr format
      { w with resolved := w.resolved ++ [(ref, (⟨key.epoch, key.peerIndex, ctr⟩ : Slot))] } :=
    listening_of listens rfl
  obtain ⟨object, checked, ranCheck, listens₁, sameGuard, frames₁⟩ := checkReplay_alone heard fits
  have granted₁ : Granted runtime.guard key ctr checked := fun durable held => granted durable (sameGuard ▸ held)
  obtain ⟨asked, ranDurable, listens₂, passed, frames₂⟩ := durableCheck_alone listens₁ granted₁
    { point := .durableCheck, frame := some ref, payload := some payload
      slot := some (⟨key.epoch, key.peerIndex, ctr⟩, object) }
  have opens : sframeDecrypt runtime.crypto (payload.drop (getUnencryptedBytes codec kind)) (resolveCached asked)
      asked.kidCodec (aadPrefixOf payload (getUnencryptedBytes codec kind)) .header =
      .ok (plaintext.drop (getUnencryptedBytes codec kind)) := by
    obtain ⟨full, cached, same⟩ := Option.map_eq_some_iff.mp listens₂.cached
    rw [behind]
    exact decrypt_sealed correct written derived sealed
      (by simp only [resolveCached, listens₂.named, cached, Option.map_some, same]) _
  obtain ⟨opened, ranOpen, listens₃, passed₃, frames₃⟩ := openResolved_alone listens₂ passed
    ⟨getUnencryptedBytes codec kind, .header⟩ ref object probes fun _ => opens
  obtain ⟨accepted, ranAccept, listens₄, granted₄, data⟩ := acceptFrame_alone listens₃ passed₃ ref object payload
    (plaintext.drop (getUnencryptedBytes codec kind)) ⟨getUnencryptedBytes codec kind, .header⟩
  have live : ¬ key.epoch < w.currentMinValidEpoch := Int.not_lt.mpr listens.valid
  simp only [decodeFrame, alone_bind, alone_read, Option.bind_some, listens.trailer, stripped, listens.codec,
    kinds, resolved, behind, parsed, listens.named, decodePayload, alone_tryCatch, if_neg live,
    alone_update, if_neg listens.current, ranCheck, ranDurable, Bool.not_true, Bool.false_eq_true,
    ↓reduceIte, listens₂.trusted, ranOpen, ranAccept, alone_pure]
  refine ⟨_, rfl, listening_emitMetric listens₄ _, ?_, ?_⟩
  · intro durable held
    exact granted₄ durable ((congrArg (·.durableReplay) (Worker.core_emitMetric accepted _)).symm.trans held)
  · have frames : (accepted.emitMetric (.decrypt key.epoch key.peerIndex (getUnencryptedBytes codec kind +
        (plaintext.drop (getUnencryptedBytes codec kind)).length))).frames = accepted.frames :=
      congrArg (·.frames) (Worker.core_emitMetric accepted _)
    rw [frames, data, clear, List.take_append_drop]

/-! ## A frame in another format

Under a cached prefix that is not the frame's own, either the header does not
parse, or a byte of the header ends up in the clear. -/

/-- Until it is accepted, a frame keeps its bytes. -/
private def unwritten (ref : Ref) (raw : EncodedFrame) : Contract AwaitPoint (Worker K G) where
  assume _ w := w.frames.read ref = raw
  moves _ _ _ w := w.frames.read ref = raw

private theorem unwritten_survives (ref : Ref) (raw : EncodedFrame) (site : AwaitPoint) :
    Survives (unwritten (K := K) (G := G) ref raw) (fun _ _ w => w.frames.read ref = raw) site :=
  fun _ _ _ now => ⟨now, fun _ assumed => assumed⟩

private def unwrittenRing (ref : Ref) (raw : EncodedFrame) :
    Keyring runtime fun _ _ (w : Worker K G) => w.frames.read ref = raw :=
  .any fun _ _ w w' now same => by
    have frames : w'.frames = w.frames := congrArg (·.frames) same
    rw [frames]
    exact now

/-- However a payload was decoded, the frame then has its old bytes or starts
with the payload's clear prefix. -/
theorem decodePayload_data {ref : Ref} {payload : Bytes} {guess : FormatGuess} {probed : Option Probed}
    {hdr : SFrameHeader} {path : Path}
    (ran : alone (decodePayload runtime ref payload guess probed hdr) w = some (.ok path, w')) :
    (w'.frames.read ref).data = (w.frames.read ref).data ∨
      ∃ opened, (w'.frames.read ref).data = payload.take guess.prefixLen ++ opened := by
  have survives := unwritten_survives (K := K) (G := G) ref (w.frames.read ref)
  let ring : Keyring runtime _ := unwrittenRing ref (w.frames.read ref)
  have windowless : Windowless fun _ _ (v : Worker K G) => v.frames.read ref = w.frames.read ref := by
    intro _ _ v v' now same
    have frames : v'.frames = v.frames := congrArg (·.frames) same
    rw [frames]
    exact now
  have ends : Meets (unwritten ref (w.frames.read ref)) (decodePayload runtime ref payload guess probed hdr) _ _
      { point := .start } w w :=
    decodePayload_ends ring windowless ref payload guess probed hdr (fun _ _ _ _ => survives _) rfl
  obtain ⟨_, _, ended⟩ := meets_alone (fun moved => moved) ends ran
  cases path with
  | passedThrough => exact ended.elim
  | parked =>
    obtain ⟨v, peerIndex, now, rfl⟩ := ended
    obtain ⟨kept, -, same⟩ := Worker.core_pushToQueue v ref peerIndex
    have frames : (v.pushToQueue ref peerIndex).frames = v.frames := congrArg (·.frames) same
    exact .inl (by rw [frames, now])
  | opened format opened =>
    obtain ⟨rfl, -, v, slot, now, delivered⟩ := ended
    have frames : w'.frames = (deliver v slot ref (payload.take format.prefixLen ++ opened)).frames :=
      congrArg (·.frames) delivered
    exact .inr ⟨opened, by rw [frames]; simp [deliver]⟩

/-- Ten bytes that do not survive the other prefix length of VP8. -/
def spoiler : Option FrameType → Bytes
  | some .key => [0, 0, 0, 0xff, 0xff, 0xff, 0xff, 0xff, 0xff, 0xff]
  | _ => [0, 0, 0, 0, 0, 0, 0, 0, 0, 0]

/-- A key identifier field of eight bytes that start with six high ones is out
of range. -/
private theorem parseHeader_refuses (tail : Bytes) (long : 2 ≤ tail.length) :
    ∃ refused, parseHeader (0xff :: 0xff :: 0xff :: 0xff :: 0xff :: 0xff :: 0xff :: tail) = .error refused := by
  obtain ⟨first, second, rest, rfl⟩ : ∃ first second rest, tail = first :: second :: rest := by
    match tail, long with
    | first :: second :: rest, _ => exact ⟨first, second, rest, rfl⟩
  have high := readBytes_append [0xff, 0xff, 0xff, 0xff, 0xff, 0xff] [first, second]
  have leading : readBytes [0xff, 0xff, 0xff, 0xff, 0xff, 0xff] = 256 ^ 6 - 1 := by decide
  have large : readBytes ([0xff, 0xff, 0xff, 0xff, 0xff, 0xff] ++ [first, second]) > 2 ^ 53 - 1 := by
    rw [high, leading]
    simp only [List.length_cons, List.length_nil]
    omega
  have extended : (0xff : UInt8) &&& 0b1000_0000 ≠ 0 := by decide
  have width : (((0xff : UInt8) >>> 4) &&& 0b111).toNat = 7 := by decide
  cases parsed : parseHeader (0xff :: 0xff :: 0xff :: 0xff :: 0xff :: 0xff :: 0xff :: first :: second :: rest) with
  | error refused => exact ⟨refused, rfl⟩
  | ok hdr =>
    simp only [parseHeader, parseKid, if_pos extended, width, readBigEndianNumber, List.drop_succ_cons,
      List.drop_zero, List.take_succ_cons, List.take_zero, List.length_cons] at parsed
    rw [if_neg (by omega), if_pos (by simpa using large)] at parsed
    cases parsed

/-- The first byte of a header is not zero. -/
private theorem header_nonzero {header : Bytes} (written : serializeHeader key.kid ctr = .ok header) :
    ∃ cfg rest, header = cfg :: rest ∧ cfg ≠ 0 ∧ 1 ≤ rest.length := by
  obtain ⟨-, range, ctrBytes, minimal, rfl⟩ := serializeHeader_ok written
  obtain ⟨bytes, again, nonempty, width, -⟩ := minimalBigEndian_reads (v := (ctr : ℤ).toNat) (by omega)
  obtain rfl : ctrBytes = bytes := Except.ok.inj (minimal.symm.trans again)
  have bound : ∀ clen < 8, configByte 3 clen ≠ 0 := by decide
  have positive := List.length_pos_iff.mpr nonempty
  refine ⟨_, _, rfl, bound _ (by omega), ?_⟩
  rw [List.length_append]
  omega

theorem decodeFrame_mismatch {length : ℕ} {type : Option FrameType}
    (listens : Listening key (some .vp8) trailer ctr (some ⟨length, .header⟩) w)
    (known : length = 3 ∨ length = 10) (other : length ≠ clearBytes (some .vp8) type) {ref : Ref}
    (own : (w.frames.read ref).type = type)
    (onWire : OnWire runtime key ctr (clearBytes (some .vp8) type) (spoiler type) (trailer.getD [])
      (w.frames.read ref).data) {path : Path}
    (ran : alone (decodeFrame runtime ref) w = some (.ok path, w')) :
    (w'.frames.read ref).data ≠ spoiler type := by
  have long : clearBytes (some .vp8) type ≤ (spoiler type).length := by
    rcases type with _ | (_ | _) <;> decide
  obtain ⟨payload, header, iv, ct, stripped, clear, behind, inside, written, derived, sealed⟩ :=
    payload_stripped onWire long
  have parsed : parseHeader (header ++ ct) = .ok ⟨key.kid, ctr, header.length⟩ := by
    simpa using parseHeader_serializeHeader written ct
  obtain ⟨cfg, rest, rfl, nonzero, more⟩ := header_nonzero written
  have kinds : getUnencryptedBytes (some .vp8) (w.frames.read ref).kind = clearBytes (some .vp8) type := by
    subst own; rfl
  have lookup : cachedFormat w payload (clearBytes (some .vp8) type) = some ⟨length, .header⟩ := by
    simp only [cachedFormat, if_pos inside, behind, parsed, listens.named, listens.format]
  have resolved : alone (resolveFormat runtime ref payload (some .vp8) (w.frames.read ref).kind) w =
      some (.ok (⟨length, .header⟩, none), w) := by
    simp only [resolveFormat, alone_bind, alone_read, Option.bind_some, kinds,
      Nat.min_eq_left (Nat.le_of_lt inside), lookup, alone_pure]
  have whole : payload = (spoiler type).take (clearBytes (some .vp8) type) ++ (cfg :: rest ++ ct) := by
    rw [← clear, ← behind, List.take_append_drop]
  simp only [decodeFrame, alone_bind, alone_read, Option.bind_some, listens.trailer, stripped, listens.codec,
    resolved] at ran
  cases reparsed : parseHeader (payload.drop length) with
  | error refused =>
    simp only [reparsed, alone_bind, alone_update, Option.bind_some, alone_throw] at ran
    cases ran
  | ok hdr =>
    simp only [reparsed, alone_bind, alone_update, Option.bind_some, alone_tryCatch] at ran
    obtain ⟨⟨outcome, later⟩, ranPayload, rethrown⟩ := Option.bind_eq_some_iff.mp ran
    cases outcome with
    | error refused =>
      simp only [alone_throw] at rethrown
      cases rethrown
    | ok reached =>
      cases rethrown
      rcases known with rfl | rfl
      · -- a key frame under the shorter prefix: its clear bytes are taken for a header
        obtain rfl : type = some .key := by
          rcases type with _ | (_ | _)
          · exact absurd rfl other
          · rfl
          · exact absurd rfl other
        obtain ⟨refused, never⟩ := parseHeader_refuses (cfg :: rest ++ ct)
          (by simp only [List.length_append, List.length_cons]; omega)
        have shifted : payload.drop 3 = 0xff :: 0xff :: 0xff :: 0xff :: 0xff :: 0xff :: 0xff ::
            (cfg :: rest ++ ct) := by
          rw [whole]; rfl
        rw [shifted, never] at reparsed
        cases reparsed
      · -- another frame under the longer prefix: its header is taken for clear bytes
        have short : clearBytes (some .vp8) type = 3 ∧ spoiler type = List.replicate 10 0 := by
          rcases type with _ | (_ | _)
          · exact ⟨rfl, rfl⟩
          · exact absurd rfl other
          · exact ⟨rfl, rfl⟩
        rw [short.1, short.2] at whole
        have third : payload[3]? = some cfg := by rw [whole]; rfl
        have wire : (w.frames.read ref).data[3]? = some cfg := by
          obtain ⟨header, _, body, again, _, _, data⟩ := onWire
          obtain rfl := Except.ok.inj (written.symm.trans again)
          rw [data, short.1, short.2]
          rfl
        have zero : (spoiler type)[3]? = some 0 := by rw [short.2]; rfl
        intro same
        rw [← same] at zero
        rcases decodePayload_data ranPayload with kept | ⟨opened, written⟩
        · rw [kept, wire] at zero
          exact nonzero (Option.some.inj zero)
        · have inPrefix : 3 < (payload.take 10).length := by
            rw [whole]
            simp only [List.length_take, List.length_append, List.length_cons, List.length_replicate]
            omega
          rw [written, List.getElem?_append_left inPrefix, List.getElem?_take_of_lt (by omega), third] at zero
          exact nonzero (Option.some.inj zero)

/-! ## Sequences -/

/-- A sequence goes round when its first frame does and the others do from
there on. -/
theorem roundTrips_cons {sender receiver sent : Worker K G} {frame : EncodedFrame} (rest : List EncodedFrame)
    (encoded : alone (encodeFrame runtime sender.frames.next frame.kind) (receiveFrame frame sender) =
      some (.ok (), sent)) :
    RoundTrips runtime sender receiver (frame :: rest) ↔ ∃ path received,
      alone (decodeFrame runtime receiver.frames.next) (receiveFrame
          { frame with data := (sent.frames.read sender.frames.next).data } receiver) = some (.ok path, received) ∧
        (received.frames.read receiver.frames.next).data = frame.data ∧
        RoundTrips runtime sent received rest := by
  constructor
  · rintro ⟨wires, sentLast, receivedLast, encodes, decodes⟩
    simp only [encodeStream, receive, alone_bind, alone_read, alone_update, alone_pure, Option.bind_some,
      encoded] at encodes
    obtain ⟨⟨outcome, after⟩, onward, done⟩ := Option.bind_eq_some_iff.mp encodes
    cases outcome with
    | error refused => cases done
    | ok wires =>
      cases done
      simp only [List.zipWith_cons_cons, decodeStream, receive, alone_bind, alone_read, alone_update, alone_pure,
        Option.bind_some, List.map_cons] at decodes
      obtain ⟨⟨outcome, received⟩, decoded, decodes⟩ := Option.bind_eq_some_iff.mp decodes
      cases outcome with
      | error refused => cases decodes
      | ok path =>
        obtain ⟨⟨outcome, last⟩, decodesRest, done⟩ := Option.bind_eq_some_iff.mp decodes
        cases outcome with
        | error refused => cases done
        | ok opened =>
          simp only [Option.some.injEq, Prod.mk.injEq, Except.ok.injEq, List.cons.injEq] at done
          obtain ⟨⟨data, rfl⟩, rfl⟩ := done
          exact ⟨path, received, decoded, data, wires, after, last, onward, decodesRest⟩
  · rintro ⟨path, received, decoded, data, wires, after, last, onward, decodesRest⟩
    refine ⟨(sent.frames.read sender.frames.next).data :: wires, after, last, ?_, ?_⟩
    · simp only [encodeStream, receive, alone_bind, alone_read, alone_update, alone_pure, Option.bind_some,
        encoded, onward]
    · simp only [List.zipWith_cons_cons, decodeStream, receive, alone_bind, alone_read, alone_update, alone_pure,
        Option.bind_some, List.map_cons, decoded, decodesRest, data]

/-- The sender's side of one frame, whose clear prefix ends with it if it is short. -/
theorem encodes_clamped (correct : runtime.crypto.Correct) (sends : Sending key codec trailer ctr w)
    (kid : key.kid ≤ 0xffffffff) (salt : key.salt.length = ivBytes) (room : ctr < 2 ^ 64) (frame : EncodedFrame) :
    ∃ sent, alone (encodeFrame runtime w.frames.next frame.kind) (receiveFrame frame w) = some (.ok (), sent) ∧
      Sending key codec trailer (ctr + 1) sent ∧
      OnWire runtime key ctr (min (clearBytes codec frame.type) frame.data.length) frame.data (trailer.getD [])
        (sent.frames.read w.frames.next).data := by
  have added : Sending key codec trailer ctr (receiveFrame frame w) := sending_of sends rfl
  have stored : ((receiveFrame frame w).frames.read w.frames.next) = frame := by simp [receiveFrame]
  obtain ⟨sent, encoded, sends, onWire⟩ := encodeFrame_alone correct added kid salt room w.frames.next frame.kind
  rw [stored] at onWire
  exact ⟨sent, encoded, sends, onWire⟩

/-- The sender's side of one frame of a sequence. -/
theorem encodes_next (correct : runtime.crypto.Correct) (sends : Sending key codec trailer ctr w)
    (kid : key.kid ≤ 0xffffffff) (salt : key.salt.length = ivBytes) (room : ctr < 2 ^ 64)
    (frame : EncodedFrame) (long : clearBytes codec frame.type ≤ frame.data.length) :
    ∃ sent, alone (encodeFrame runtime w.frames.next frame.kind) (receiveFrame frame w) = some (.ok (), sent) ∧
      Sending key codec trailer (ctr + 1) sent ∧
      OnWire runtime key ctr (clearBytes codec frame.type) frame.data (trailer.getD [])
        (sent.frames.read w.frames.next).data := by
  have clamped := encodes_clamped correct sends kid salt room frame
  rwa [Nat.min_eq_left long] at clamped

/-- The receiver's side of one frame in the format it has resolved, or will. -/
theorem decodes_next (correct : runtime.crypto.Correct)
    (listens : Listening key codec trailer ctr format w) (granted : Granted runtime.guard key ctr w)
    (fits : ctr < 2 ^ 64) {frame : EncodedFrame} {wire : Bytes}
    (known : format = none ∨ format = some ⟨clearBytes codec frame.type, .header⟩)
    (onWire : OnWire runtime key ctr (clearBytes codec frame.type) frame.data (trailer.getD []) wire)
    (long : clearBytes codec frame.type ≤ frame.data.length) :
    ∃ received, alone (decodeFrame runtime w.frames.next) (receiveFrame { frame with data := wire } w) =
        some (.ok (.opened ⟨clearBytes codec frame.type, .header⟩
          (frame.data.drop (clearBytes codec frame.type))), received) ∧
      Listening key codec trailer (ctr + 1) (some ⟨clearBytes codec frame.type, .header⟩) received ∧
      Granted runtime.guard key (ctr + 1) received ∧ (received.frames.read w.frames.next).data = frame.data := by
  have added : Listening key codec trailer ctr format (receiveFrame { frame with data := wire } w) :=
    listening_of listens rfl
  have stored : (receiveFrame { frame with data := wire } w).frames.read w.frames.next =
      { frame with data := wire } := by simp [receiveFrame]
  have kinds : ((receiveFrame { frame with data := wire } w).frames.read w.frames.next).kind = frame.kind := by
    rw [stored]; rfl
  exact decodeFrame_alone correct added granted fits kinds known (by rw [stored]; exact onWire) long

/-- **A sequence in one format.** -/
theorem roundTrips_same (correct : runtime.crypto.Correct) (kid : key.kid ≤ 0xffffffff)
    (salt : key.salt.length = ivBytes) (length : ℕ) (frames : List EncodedFrame) :
    ∀ {ctr : ℕ} {sender receiver : Worker K G}, ctr + frames.length ≤ 2 ^ 64 →
      Sending key codec trailer ctr sender → Listening key codec trailer ctr format receiver →
      Granted runtime.guard key ctr receiver → format = none ∨ format = some ⟨length, .header⟩ →
      (∀ frame ∈ frames, clearBytes codec frame.type = length ∧ length ≤ frame.data.length) →
      RoundTrips runtime sender receiver frames := by
  induction frames generalizing format with
  | nil =>
    intro ctr sender receiver _ _ _ _ _ _
    exact ⟨[], sender, receiver, rfl, rfl⟩
  | cons frame rest ih =>
    intro ctr sender receiver room sends listens granted known same
    obtain ⟨clear, long⟩ := same frame List.mem_cons_self
    simp only [List.length_cons] at room
    subst clear
    obtain ⟨sent, encoded, sends', onWire⟩ := encodes_next correct sends kid salt (by omega) frame long
    rw [roundTrips_cons rest encoded]
    obtain ⟨received, decoded, listens', granted', data⟩ :=
      decodes_next correct listens granted (by omega) known onWire long
    exact ⟨_, received, decoded, data, ih (by omega) sends' listens' granted' (.inr rfl)
      fun other member => same other (List.mem_cons_of_mem _ member)⟩

/-- Only VP8 has two prefix lengths. -/
theorem clearBytes_differ {codec : Option Codec} {first other : Option FrameType}
    (differ : clearBytes codec first ≠ clearBytes codec other) : codec = some .vp8 := by
  rcases codec with _ | (_ | _ | _ | _ | _)
  all_goals first | rfl | exact absurd rfl differ

theorem clearBytes_vp8 (type : Option FrameType) :
    clearBytes (some .vp8) type = 3 ∨ clearBytes (some .vp8) type = 10 := by
  rcases type with _ | (_ | _) <;> simp [clearBytes, EncodedFrame.kind, getUnencryptedBytes]

/-- A frame of each type with the bytes that do not survive. -/
def spoiled (type : Option FrameType) : EncodedFrame := ⟨spoiler type, type⟩

theorem spoiled_long (type : Option FrameType) :
    clearBytes (some .vp8) type ≤ (spoiled type).data.length := by
  rcases type with _ | (_ | _) <;> decide

/-- **A sequence in two formats.** The first frame outside the cached format
does not go round. -/
theorem roundTrips_mixed (correct : runtime.crypto.Correct) (kid : key.kid ≤ 0xffffffff)
    (salt : key.salt.length = ivBytes) {length : ℕ} (prefixes : length = 3 ∨ length = 10)
    (types : List (Option FrameType)) :
    ∀ {ctr : ℕ} {sender receiver : Worker K G}, ctr + types.length ≤ 2 ^ 64 →
      Sending key (some .vp8) trailer ctr sender →
      Listening key (some .vp8) trailer ctr (some ⟨length, .header⟩) receiver →
      Granted runtime.guard key ctr receiver → (∃ type ∈ types, clearBytes (some .vp8) type ≠ length) →
      ¬ RoundTrips runtime sender receiver (types.map spoiled) := by
  induction types with
  | nil =>
    rintro ctr sender receiver _ _ _ _ ⟨_, never, _⟩
    cases never
  | cons type rest ih =>
    intro ctr sender receiver room sends listens granted differs goesRound
    simp only [List.length_cons] at room
    obtain ⟨sent, encoded, sends', onWire⟩ := encodes_next correct sends kid salt (by omega) (spoiled type)
      (spoiled_long type)
    rw [List.map_cons, roundTrips_cons _ encoded] at goesRound
    obtain ⟨path, received, decoded, data, onward⟩ := goesRound
    by_cases same : clearBytes (some .vp8) type = length
    · subst same
      obtain ⟨received', decoded', listens', granted', _⟩ :=
        decodes_next correct listens granted (by omega) (.inr rfl) onWire (spoiled_long type)
      obtain ⟨-, rfl⟩ : path = _ ∧ received = received' := by
        simpa using decoded.symm.trans decoded'
      refine ih (by omega) sends' listens' granted' ?_ onward
      obtain ⟨other, member, differ⟩ := differs
      rcases List.mem_cons.mp member with rfl | later
      · exact absurd rfl differ
      · exact ⟨other, later, differ⟩
    · have added : Listening key (some .vp8) trailer ctr (some ⟨length, .header⟩) (receiveFrame
          { spoiled type with data := (sent.frames.read sender.frames.next).data } receiver) := listening_of listens rfl
      have stored : (receiveFrame { spoiled type with
          data := (sent.frames.read sender.frames.next).data } receiver).frames.read receiver.frames.next =
          { spoiled type with data := (sent.frames.read sender.frames.next).data } := by simp [receiveFrame]
      exact decodeFrame_mismatch added prefixes (fun equal => same equal.symm) (by rw [stored]; rfl)
        (by rw [stored]; exact onWire) decoded data

/-- Every sequence of frames of the given types goes round exactly when all of
them have clear prefixes of one length, which leaves out only VP8 with key
frames and others in one sequence. -/
theorem round_trips_iff (correct : runtime.crypto.Correct) (kid : key.kid ≤ 0xffffffff)
    (salt : key.salt.length = ivBytes) {sender receiver : Worker K G}
    (sends : Sending key codec trailer ctr sender)
    (listens : Listening key codec trailer ctr none receiver) (granted : Granted runtime.guard key ctr receiver)
    (types : List (Option FrameType)) (room : ctr + types.length ≤ 2 ^ 64) :
    (∀ frames : List EncodedFrame, frames.map (·.type) = types →
      (∀ frame ∈ frames, clearBytes codec frame.type ≤ frame.data.length) →
      RoundTrips runtime sender receiver frames) ↔
    ∀ first ∈ types, ∀ other ∈ types, clearBytes codec first = clearBytes codec other := by
  constructor
  · intro goRound first firstMember other otherMember
    by_contra differ
    obtain rfl := clearBytes_differ differ
    cases types with
    | nil => cases firstMember
    | cons type rest =>
      obtain ⟨mixed, member, differs⟩ : ∃ mixed ∈ rest, clearBytes (some .vp8) mixed ≠ clearBytes (some .vp8) type := by
        by_contra none
        push Not at none
        have all : ∀ t ∈ type :: rest, clearBytes (some .vp8) t = clearBytes (some .vp8) type := by
          simpa using none
        exact differ ((all first firstMember).trans (all other otherMember).symm)
      have goesRound := goRound ((type :: rest).map spoiled) (by simp [spoiled, Function.comp_def]) (by
        intro frame member
        obtain ⟨t, -, rfl⟩ := List.mem_map.mp member
        exact spoiled_long t)
      simp only [List.length_cons] at room
      obtain ⟨sent, encoded, sends', onWire⟩ := encodes_next correct sends kid salt (by omega) (spoiled type)
        (spoiled_long type)
      rw [List.map_cons, roundTrips_cons _ encoded] at goesRound
      obtain ⟨path, received, decoded, -, onward⟩ := goesRound
      obtain ⟨received', decoded', listens', granted', _⟩ :=
        decodes_next correct listens granted (by omega) (.inl rfl) onWire (spoiled_long type)
      obtain ⟨-, rfl⟩ : path = _ ∧ received = received' := by
        simpa using decoded.symm.trans decoded'
      exact roundTrips_mixed correct kid salt (clearBytes_vp8 type) rest (by omega) sends' listens' granted'
        ⟨mixed, member, differs⟩ onward
  · intro same frames typed long
    subst typed
    cases frames with
    | nil => exact ⟨[], sender, receiver, rfl, rfl⟩
    | cons frame rest =>
      refine roundTrips_same correct kid salt (clearBytes codec frame.type) (frame :: rest)
        (by simpa using room) sends listens granted (.inl rfl) fun other member => ?_
      have equal := same other.type (List.mem_map_of_mem member) frame.type (List.mem_map_of_mem List.mem_cons_self)
      exact ⟨equal, equal ▸ long other member⟩

/-! ## One session -/

/-- A worker before its first epoch, however it is configured. -/
structure BeforeEpochs (w : Worker K G) : Prop where
  current : w.currentEpoch = -1
  valid : w.currentMinValidEpoch = 0
  windows : w.replayWindows = ∅
  formats : w.formatCache = ∅
  counts : w.failureCounts = ∅
  guard : w.durableReplay = none

/-- One epoch with the same bundles on both sides, before any frame. -/
theorem session_installed (runtime : Runtime K G) {sender₀ receiver₀ sender receiver : Worker K G}
    {epoch self other : ℤ} {bundles : KeyBundles K} {bundle : PerSenderKeyBundle K} (before : BeforeEpochs sender₀)
    (before' : BeforeEpochs receiver₀) (layout : receiver₀.kidCodec = sender₀.kidCodec)
    (codecs : receiver₀.codec = sender₀.codec) (trailers : receiver₀.sifTrailer = sender₀.sifTrailer)
    (carried : bundles.get? self = some bundle)
    (sends : sender₀.installEpoch epoch self bundles = .ok sender)
    (listens : receiver₀.installEpoch epoch other bundles = .ok receiver) :
    ∃ key, key.kid ≤ 0xffffffff ∧ key.cryptoKey = bundle.cryptoKey ∧ key.salt = bundle.salt ∧
      key.epoch = epoch ∧ key.peerIndex = self ∧ receiver.kidCodec.encode epoch self = .ok key.kid ∧
      Sending key sender₀.codec sender₀.sifTrailer 0 sender ∧
      Listening key sender₀.codec sender₀.sifTrailer 0 none receiver ∧
      Granted runtime.guard key 0 receiver := by
  obtain ⟨keys, made, sent⟩ := Worker.core_installEpoch sends
  obtain ⟨keys', made', received⟩ := Worker.core_installEpoch listens
  rw [layout] at made'
  obtain rfl := Except.ok.inj (made.symm.trans made')
  obtain ⟨kid, encoded, held⟩ := Worker.installKeys_lookup bundles.nodup carried made
  obtain ⟨decoded, small⟩ := decode_encode encoded
  have named := decode_epoch_nonneg sender₀.kidCodec kid
  rw [decoded] at named
  rw [before.current, if_pos (by omega)] at sent
  rw [before'.current, if_pos (by omega)] at received
  obtain ⟨formats, counts⟩ := Worker.installEpoch_accounts listens
  have layout' : receiver.kidCodec = sender₀.kidCodec := (congrArg (·.kidCodec) received).trans layout
  refine ⟨⟨kid, epoch, self, bundle.cryptoKey, bundle.salt⟩, small, rfl, rfl, rfl, rfl, by rw [layout', encoded],
    ?_, ?_, ?_⟩
  · refine sending_of_core ?_ sent
    let full : RatchetKey K := { kid, epoch, peerIndex := self, cryptoKey := bundle.cryptoKey
                                 salt := bundle.salt, rawKey := bundle.rawKey }
    refine ⟨⟨sender₀.entries.next, full, ?_, ?_, rfl⟩, rfl, rfl, rfl⟩
    · simp [Worker.scheduleWipeOfEpochsBelow, Worker.withEntry]
    · simpa [Worker.scheduleWipeOfEpochsBelow, Worker.withEntry] using held
  · have part {α : Type} (field : Worker K G → α) (erased : ∀ v : Worker K G, field v.core = field v) :
        field receiver = _ := (erased receiver).symm.trans ((congrArg field received).trans (erased _))
    constructor
    · rw [part (·.codec) fun _ => rfl]; exact codecs
    · rw [part (·.sifTrailer) fun _ => rfl]; exact trailers
    · rw [part (·.kidCodec) fun _ => rfl]
      change receiver₀.kidCodec.decode kid = _
      rw [layout]; exact decoded
    · rw [Worker.cachedKey, part (·.epochs) fun _ => rfl, part (·.entries) fun _ => rfl]
      simp [Worker.scheduleWipeOfEpochsBelow, Worker.withEntry, held]
    · rw [part (·.currentMinValidEpoch) fun _ => rfl]
      change receiver₀.currentMinValidEpoch ≤ epoch
      rw [before'.valid]; exact named
    · rw [part (·.currentEpoch) fun _ => rfl]
      change epoch ≠ -1
      omega
    · intro window found
      rw [Worker.windowOf, part (·.replayWindows) fun _ => rfl] at found
      have none : receiver₀.replayWindows = ∅ := before'.windows
      simp [Worker.scheduleWipeOfEpochsBelow, Worker.withEntry, none] at found
    · have zero : (receiver.failureCounts.get? (epoch, self)).getD 0 = 0 := by
        rcases counts (epoch, self) with gone | same
        · rw [gone]; rfl
        · rw [same, before'.counts]; rfl
      simp only [Worker.isKeyInvalid, zero]
      split
      · rfl
      · simp only [decide_eq_false_iff_not]; omega
    · rw [Worker.getFormatCache, formats, before'.formats]
      rfl
  · intro durable installed
    have none : receiver.durableReplay = receiver₀.durableReplay := congrArg (·.durableReplay) received
    rw [none, before'.guard] at installed
    cases installed

/-! ## Two formats in one sequence -/

section Checked
open Specimen (bundles installed)

/-- Both sides of a VP8 session with a trailer. -/
def vp8Sender : Worker Bytes Unit := { installed 0 0 [7, 9] with codec := some .vp8, sifTrailer := some [0xca] }
def vp8Receiver : Worker Bytes Unit := { installed 0 1 [7, 9] with codec := some .vp8, sifTrailer := some [0xca] }

/-- A key frame, then another one. -/
def keyThenDelta : List EncodedFrame := [⟨[0, 0, 0, 0, 0, 0, 0, 0, 0, 0], some .key⟩, ⟨[1, 2, 3, 4], some .delta⟩]

/-- A receiver that has seen a key frame does not open the next one. -/
theorem mixed_kinds_lost : ¬ ∀ frames : List EncodedFrame,
    frames.map (·.type) = [some .key, some .delta] →
    (∀ frame ∈ frames, clearBytes (some .vp8) frame.type ≤ frame.data.length) →
    RoundTrips Specimen.runtime vp8Sender vp8Receiver frames := by
  intro goRound
  obtain ⟨wires, sent, received, encodes, decodes⟩ := goRound keyThenDelta rfl (by decide)
  have computed : ((alone (encodeStream Specimen.runtime keyThenDelta) vp8Sender).bind fun result =>
      match result.1 with
      | .ok wires => (alone (decodeStream Specimen.runtime (List.zipWith (fun wire frame =>
          { frame with data := wire }) wires keyThenDelta)) vp8Receiver).map fun result => result.1.toOption
      | .error _ => none) = some none := by
    decide +kernel
  simp only [encodes, decodes, Option.bind_some, Option.map_some, Option.some.injEq] at computed
  cases computed

/-- Two key frames do go round. -/
theorem round_trips_iff_keys : (∀ frames : List EncodedFrame, frames.map (·.type) = [some .key, some .key] →
      (∀ frame ∈ frames, clearBytes (some .vp8) frame.type ≤ frame.data.length) →
      RoundTrips Specimen.runtime vp8Sender vp8Receiver frames) ↔
    ∀ first ∈ [some FrameType.key, some .key], ∀ other ∈ [some .key, some .key],
      clearBytes (some .vp8) first = clearBytes (some .vp8) other := by
  have before : BeforeEpochs ({ (Worker.createWorkerState : Worker Bytes Unit) with
    codec := some .vp8, sifTrailer := some [0xca] }) := ⟨rfl, rfl, rfl, rfl, rfl, rfl⟩
  have sent : ({ Worker.createWorkerState with codec := some .vp8, sifTrailer := some [0xca] } :
      Worker Bytes Unit).installEpoch 0 0 (bundles [7, 9]) = .ok vp8Sender := rfl
  have received : ({ Worker.createWorkerState with codec := some .vp8, sifTrailer := some [0xca] } :
      Worker Bytes Unit).installEpoch 0 1 (bundles [7, 9]) = .ok vp8Receiver := rfl
  have carried : (bundles [7, 9]).get? 0 = some (Specimen.bundle 7) := rfl
  obtain ⟨key, kid, -, salt, -, -, -, sends, listens, granted⟩ :=
    session_installed Specimen.runtime before before rfl rfl rfl carried sent received
  exact round_trips_iff Specimen.crypto_correct kid (by rw [salt]; rfl) sends listens granted _ (by norm_num)

end Checked
end SFrameRatchet.StreamRoundTrip
