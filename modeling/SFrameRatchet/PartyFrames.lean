import SFrameRatchet.Party

/-! What becomes of the frames that reach a party. A sealed frame of an installed and valid
epoch is opened; any other is parked or refused, and is forgotten but for the queue. -/
namespace SFrameRatchet.Party
open Collections Crypto Kid Header SFrame CodecPartial Replay Throwing Coroutine Media SoloDecoding StreamRoundTrip
  Reinstall

variable {K G : Type} {runtime : Runtime K G} {terms : Terms K} {heard : Set Slot} {w w' v : Worker K G}
  {flight : Flight} {key : RatchetKey K} {header iv ct : Bytes} {ref : Ref}

/-- The keys of the frame's epoch are installed, and the epoch is still valid. -/
def Live (w : Worker K G) (flight : Flight) : Prop :=
  w.epochs.has flight.slot.epoch = true ∧ w.currentMinValidEpoch ≤ flight.slot.epoch

/-- No counter of the frame's sender that has been heard is above the frame's. -/
def Fresh (heard : Set Slot) (flight : Flight) : Prop :=
  ∀ ctr, (⟨flight.slot.epoch, flight.slot.peerIndex, ctr⟩ : Slot) ∈ heard → ctr < flight.slot.ctr

/-- What a decoder makes of a frame, and how it leaves the worker. -/
inductive Fate (terms : Terms K) (heard : Set Slot) (w : Worker K G) (ref : Ref) (flight : Flight) :
    Except JsError Path → Worker K G → Prop where
  | opened {left : Worker K G} (live : Live w flight) (tuned : Tuned terms (insert flight.slot heard) left)
      (stands : standing left = standing w) (queue : left.preEpochQueue = w.preEpochQueue)
      (frames : left.frames = w.frames.write ref { w.frames.read ref with data := flight.plain }) :
      Fate terms heard w ref flight (.ok (.opened ⟨0, .header⟩ flight.plain)) left
  | parked {left : Worker K G} {room : List Ref} (dead : ¬ Live w flight) (tuned : Tuned terms heard left)
      (stands : standing left = standing w) (held : room.Sublist w.preEpochQueue)
      (queue : left.preEpochQueue = room ++ [ref]) (frames : left.frames = w.frames) :
      Fate terms heard w ref flight (.ok .parked) left
  | refused {left : Worker K G} {refusal : JsError} (dead : ¬ Live w flight) (tuned : Tuned terms heard left)
      (stands : standing left = standing w) (queue : left.preEpochQueue = w.preEpochQueue)
      (frames : left.frames = w.frames) : Fate terms heard w ref flight (.error refusal) left

/-- What a live frame meets. -/
theorem live_meets (tuned : Tuned terms heard w) (agreed : terms.key flight.slot.epoch flight.slot.peerIndex = some key)
    (live : Live w flight) (header : Bytes) :
    slotOf w (headerOf key flight header) = flight.slot ∧ w.currentEpoch ≠ -1 ∧
      w.cachedKey flight.slot.epoch flight.slot.peerIndex = some key := by
  have named := slotOf_sealed agreed (tuned.layout _ live.1) header
  refine ⟨named, ?_, cachedKey_of_installed tuned live.1 agreed⟩
  have nonnegative := decode_epoch_nonneg w.kidCodec key.kid
  have epoch : (w.kidCodec.decode key.kid).1 = flight.slot.epoch := congrArg Slot.epoch named
  have reached := tuned.registered.reached _ live.1
  omega

/-- A frame whose slot has a key is of an installed epoch. -/
theorem cached_meets (tuned : Tuned terms heard w)
    (agreed : terms.key flight.slot.epoch flight.slot.peerIndex = some key)
    {found : RatchetKey K} (cached : w.cachedKey (slotOf w (headerOf key flight header)).epoch
      (slotOf w (headerOf key flight header)).peerIndex = some found) :
    slotOf w (headerOf key flight header) = flight.slot ∧ w.epochs.has flight.slot.epoch = true ∧ found = key := by
  have named := slotOf_sealed agreed (cachedKey_agreed tuned cached).2 header
  rw [named] at cached
  obtain ⟨entry, installed, -⟩ := Option.bind_eq_some_iff.mp cached
  exact ⟨named, by simp [OrderedMap.has, installed],
    Option.some.inj ((cachedKey_agreed tuned cached).1.symm.trans agreed)⟩

theorem kept_mute (same : mute w' = mute w) : kept w' = kept w :=
  (congrArg kept same : kept (mute w') = kept (mute w))

theorem tuned_pushToQueue (tuned : Tuned terms heard w) (ref : Ref) (hint : Option ℤ) :
    Tuned terms heard (w.pushToQueue ref hint) ∧ standing (w.pushToQueue ref hint) = standing w ∧
      (w.pushToQueue ref hint).frames = w.frames ∧
      ∃ room, room.Sublist w.preEpochQueue ∧ (w.pushToQueue ref hint).preEpochQueue = room ++ [ref] := by
  obtain ⟨room, fewer, parked⟩ := w.unsignalled_pushToQueue ref hint
  have same : kept (w.pushToQueue ref hint) = kept { w with preEpochQueue := room ++ [ref] } :=
    kept_books (Worker.unbooked_of_unsignalled parked)
  simp only [kept, Prod.mk.injEq] at same
  obtain ⟨stands, formats, windows, queue, frames⟩ := same
  exact ⟨tuned_of tuned stands formats windows, stands, frames, room, fewer, queue⟩

/-- The worker that a refusal leaves. -/
theorem tuned_refused (tuned : Tuned terms heard w) {slot : Slot} {reason : DecryptFailure}
    (refuses : senderRefusal runtime w slot = some (reason, v)) :
    Tuned terms heard v ∧ standing v = standing w ∧ v.preEpochQueue = w.preEpochQueue ∧ v.frames = w.frames := by
  rcases senderRefusal_some refuses with ⟨-, -, rfl⟩ | ⟨-, rfl, -⟩
  · obtain ⟨windows, next, same⟩ := Worker.getReplayWindow_snd w slot.epoch slot.peerIndex
    refine ⟨tuned_getReplayWindow tuned slot, ?_⟩
    rw [windowAsked, same]
    exact ⟨rfl, rfl, rfl⟩
  · exact tuned_bothAsked tuned slot

theorem fate_refused (dead : ¬ Live w flight) (tuned : Tuned terms heard v) (stands : standing v = standing w)
    (queue : v.preEpochQueue = w.preEpochQueue) (frames : v.frames = w.frames) (same : kept w' = kept v)
    (refusal : JsError) : Fate terms heard w ref flight (.error refusal) w' := by
  have tuned' := tuned_kept tuned same
  simp only [kept, Prod.mk.injEq] at same
  obtain ⟨stands', -, -, queue', frames'⟩ := same
  exact .refused dead tuned' (stands'.trans stands) (queue'.trans queue) (frames'.trans frames)

/-- The checks of a frame leave what it is opened with. -/
theorem tables_bothAsked (tuned : Tuned terms heard w) (named : slotOf w (headerOf key flight header) = flight.slot)
    (cached : w.cachedKey flight.slot.epoch flight.slot.peerIndex = some key) :
    slotOf (bothAsked runtime w flight.slot) (headerOf key flight header) = flight.slot ∧
      (bothAsked runtime w flight.slot).cachedKey flight.slot.epoch flight.slot.peerIndex = some key := by
  have stands := (@tuned_bothAsked _ _ terms runtime heard w tuned flight.slot).2.1
  simp only [standing, Prod.mk.injEq] at stands
  obtain ⟨⟨-, -, layout, -⟩, ⟨epochs, entries, -⟩, -⟩ := stands
  unfold slotOf Worker.cachedKey at *
  rw [layout, epochs, entries]
  exact ⟨named, cached⟩

/-- A probe that opened the frame found the key of its slot. -/
def ProbedAs (w : Worker K G) (key : RatchetKey K) (flight : Flight) (header : Bytes) (probed : Option Probed) : Prop :=
  ∀ found, probed = some found → found.plaintext = flight.plain ∧
    w.cachedKey (slotOf w (headerOf key flight header)).epoch (slotOf w (headerOf key flight header)).peerIndex ≠ none

theorem decodePayload_fate (correct : runtime.crypto.Correct) (tuned : Tuned terms heard w)
    (agreed : terms.key flight.slot.epoch flight.slot.peerIndex = some key)
    (parts : Parts runtime key flight header iv ct) (fits : flight.slot.ctr < 2 ^ 64) (fresh : Fresh heard flight)
    (ref : Ref) {probed : Option Probed} (probes : ProbedAs w key flight header probed) :
    ∃ outcome w', alone (decodePayload runtime ref flight.frame.data ⟨0, .header⟩ probed (headerOf key flight header))
      w =
      some (outcome, w') ∧ Fate terms heard w ref flight outcome w' := by
  by_cases stale : (slotOf w (headerOf key flight header)).epoch < w.currentMinValidEpoch
  · obtain ⟨⟨refusal, u, ran, -, muted⟩, -⟩ := @decodePayload_stale _ _ runtime w ⟨0, .header⟩ probed
      (headerOf key flight header) ref flight.frame.data stale
    refine ⟨_, u, ran, fate_refused (fun live => ?_) tuned rfl rfl rfl (kept_mute muted) refusal⟩
    rw [(live_meets tuned agreed live header).1] at stale
    exact absurd live.2 (Int.not_le.mpr stale)
  by_cases early : w.currentEpoch = -1
  · obtain ⟨parks, stands, frames, room, held, queue⟩ :=
      tuned_pushToQueue tuned ref (some (slotOf w (headerOf key flight header)).peerIndex)
    exact ⟨_, _, decodePayload_parks stale early,
      .parked (fun live => (live_meets tuned agreed live header).2.1 early) parks stands held queue frames⟩
  cases refuses : senderRefusal runtime w (slotOf w (headerOf key flight header)) with
  | some refusal =>
    obtain ⟨reason, u⟩ := refusal
    obtain ⟨⟨refusal, u', ran, -, muted⟩, -⟩ := @decodePayload_refused _ _ runtime w ⟨0, .header⟩ probed
      (headerOf key flight header) ref flight.frame.data stale early reason u refuses
    obtain ⟨tuned', stands, queue, frames⟩ := tuned_refused tuned refuses
    refine ⟨_, u', ran, fate_refused (fun live => ?_) tuned' stands queue frames (kept_mute muted) refusal⟩
    rw [(live_meets tuned agreed live header).1, senderRefusal_fresh tuned fits fresh] at refuses
    cases refuses
  | none =>
    obtain ⟨asked, stands, queue, frames⟩ := @tuned_bothAsked _ _ terms runtime heard w tuned
      (slotOf w (headerOf key flight header))
    rw [decodePayload_opens stale early refuses]
    cases cached : w.cachedKey (slotOf w (headerOf key flight header)).epoch
        (slotOf w (headerOf key flight header)).peerIndex with
    | none =>
      obtain rfl : probed = none := by
        cases probed with
        | none => rfl
        | some found => exact absurd cached (probes found rfl).2
      have missing : (bothAsked runtime w (slotOf w (headerOf key flight header))).cachedKey
          (slotOf w (headerOf key flight header)).epoch (slotOf w (headerOf key flight header)).peerIndex = none := by
        simp only [standing, Prod.mk.injEq] at stands
        rw [Worker.cachedKey, stands.2.1.1, stands.2.1.2.1]
        exact cached
      obtain ⟨refusal, opening⟩ := @alone_openAndAccept_keyless _ _ runtime _ _ missing ref
        (windowHeld w (slotOf w (headerOf key flight header))) flight.frame.data ⟨0, .header⟩
      rw [opening]
      refine ⟨_, _, rfl, fate_refused (fun live => ?_) asked stands queue frames rfl refusal⟩
      rw [(live_meets tuned agreed live header).1, (live_meets tuned agreed live header).2.2] at cached
      cases cached
    | some found =>
      obtain ⟨named, installed, rfl⟩ := cached_meets tuned agreed cached
      rw [named] at stale cached asked stands queue frames ⊢
      obtain ⟨named', cached'⟩ := tables_bothAsked tuned named cached
      rw [alone_openAndAccept correct asked parts cached' named' ref _ fun found same => (probes found same).1]
      obtain ⟨accepted, stands', queue', frames'⟩ :=
        tuned_opened asked ref flight.slot (windowHeld w flight.slot) flight.plain
      have reported := kept_books (Worker.unbooked_emitMetric (opened (bothAsked runtime w flight.slot) ref flight.slot
        (windowHeld w flight.slot) flight.plain)
        (.decrypt flight.slot.epoch flight.slot.peerIndex (0 + flight.plain.length)))
      have tuned' := tuned_kept accepted reported
      simp only [kept, Prod.mk.injEq] at reported
      obtain ⟨stands'', -, -, queue'', frames''⟩ := reported
      refine ⟨_, _, rfl, .opened ⟨installed, ?_⟩ tuned' (stands''.trans (stands'.trans stands))
        (queue''.trans (queue'.trans queue)) ?_⟩
      · exact Int.not_lt.mp stale
      · rw [frames'', frames', frames]

/-- **A frame at a decoder.** -/
theorem decodeFrame_fate (correct : runtime.crypto.Correct) (tuned : Tuned terms heard w)
    (sealed : Sealed runtime terms flight) (fresh : Fresh heard flight) (holds : w.frames.read ref = flight.frame) :
    ∃ outcome w', alone (decodeFrame runtime ref) w = some (outcome, w') ∧
      Fate terms heard w ref flight outcome w' := by
  obtain ⟨key, header, iv, ct, agreed, parts⟩ := parts_of_sealed sealed
  obtain ⟨format, probes⟩ := resolution_sealed correct tuned agreed parts (w.frames.read ref).kind
  rw [← tuned.codec] at format probes
  have stripped : sifPayload w.sifTrailer (w.frames.read ref).data = some flight.frame.data := by
    rw [tuned.trailer, holds]; rfl
  have parsed : parseHeader (flight.frame.data.drop (formatOf runtime w ref flight.frame.data).1.prefixLen) =
      .ok (headerOf key flight header) := by
    rw [formatOf, format]
    exact parseHeader_sealed parts
  rw [alone_decodeFrame stripped parsed]
  have noted : Tuned terms heard (noted w ref (headerOf key flight header)) := tuned_of tuned rfl rfl rfl
  obtain ⟨outcome, u, ran, fate⟩ :=
    decodePayload_fate correct noted agreed parts sealed.choose_spec.2.1 fresh ref probes
  rw [formatOf, format, ran]
  cases fate with
  | opened live tuned' stands queue frames => exact ⟨_, u, rfl, .opened live tuned' stands queue frames⟩
  | parked dead tuned' stands held queue frames => exact ⟨_, u, rfl, .parked dead tuned' stands held queue frames⟩
  | refused dead tuned' stands queue frames =>
    have dead : ¬ Live w flight := dead
    exact ⟨_, _, rfl, fate_refused dead tuned' stands queue frames (kept_books (unbooked_failDecode u _ _)) _⟩

/-- A frame that is taken from the queue meets the same fate as one at a decoder. -/
theorem drainFrame_fate (correct : runtime.crypto.Correct) (tuned : Tuned terms heard w)
    (sealed : Sealed runtime terms flight) (fresh : Fresh heard flight) (holds : w.frames.read ref = flight.frame) :
    ∃ outcome w', alone (drainFrame runtime ref) w = some (.ok (), w') ∧ Fate terms heard w ref flight outcome w' := by
  obtain ⟨key, header, iv, ct, agreed, parts⟩ := parts_of_sealed sealed
  obtain ⟨format, probes⟩ := resolution_sealed correct tuned agreed parts (w.frames.read ref).kind
  rw [← tuned.codec] at format probes
  have parsed : parseHeader (flight.frame.data.drop (formatOf runtime w ref flight.frame.data).1.prefixLen) =
      .ok (headerOf key flight header) := by
    rw [formatOf, format]
    exact parseHeader_sealed parts
  rw [alone_drainFrame (congrArg (·.data) holds) parsed, formatOf, format]
  by_cases stale : (slotOf w (headerOf key flight header)).epoch < w.currentMinValidEpoch
  · rw [(drainPayload_stale stale).1]
    refine ⟨.error .operationError, w, rfl, fate_refused (fun live => ?_) tuned rfl rfl rfl rfl _⟩
    rw [(live_meets tuned agreed live header).1] at stale
    exact absurd live.2 (Int.not_le.mpr stale)
  cases cached : w.cachedKey (slotOf w (headerOf key flight header)).epoch
      (slotOf w (headerOf key flight header)).peerIndex with
  | none =>
    obtain ⟨parks, stands, frames, room, held, queue⟩ :=
      tuned_pushToQueue tuned ref (some (slotOf w (headerOf key flight header)).peerIndex)
    rw [drainPayload_requeues stale cached]
    refine ⟨_, _, rfl, .parked (fun live => ?_) parks stands held queue frames⟩
    rw [(live_meets tuned agreed live header).1, (live_meets tuned agreed live header).2.2] at cached
    cases cached
  | some found =>
    obtain ⟨named, installed, rfl⟩ := cached_meets tuned agreed cached
    have passes : senderRefusal runtime w (slotOf w (headerOf found flight header)) = none := by
      rw [named]
      exact senderRefusal_fresh tuned sealed.choose_spec.2.1 fresh
    rw [drainPayload_opens stale cached passes]
    obtain ⟨asked, stands, queue, frames⟩ := @tuned_bothAsked _ _ terms runtime heard w tuned flight.slot
    rw [named] at stale cached ⊢
    obtain ⟨named', cached'⟩ := tables_bothAsked tuned named cached
    rw [alone_openAndAccept correct asked parts cached' named' ref _ fun found same => (probes found same).1]
    obtain ⟨accepted, stands', queue', frames'⟩ :=
      tuned_opened asked ref flight.slot (windowHeld w flight.slot) flight.plain
    refine ⟨_, _, rfl, .opened ⟨installed, Int.not_lt.mp stale⟩ accepted (stands'.trans stands) (queue'.trans queue) ?_⟩
    rw [frames', frames]

end SFrameRatchet.Party
