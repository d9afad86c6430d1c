import SFrameRatchet.Reinstall
import SFrameRatchet.StreamRoundTrip

/-! One party of a conference: a worker that its own cryptor has configured, so that no codec,
trailer, tolerance or durable guard is set. All parties install the same bundles for an
epoch, and the frames that reach them are sealed with these. -/
namespace SFrameRatchet.Party
open Collections Crypto Kid Header SFrame CodecPartial Replay Throwing Coroutine Media SoloDecoding StreamRoundTrip
  Reinstall

variable {K G : Type}

/-! ## What the parties go by -/

/-- How key identifiers are laid out, and the bundles of each epoch. -/
structure Terms (K : Type) where
  kidCodec : KidCodec
  bundles : ℤ → KeyBundles K

namespace Terms

/-- The key table that every party installs for an epoch. -/
def keys (terms : Terms K) (epoch : ℤ) : Except JsError (OrderedMap ℤ (RatchetKey K)) :=
  Worker.installKeys terms.kidCodec epoch (terms.bundles epoch).entries ∅

def key (terms : Terms K) (epoch peerIndex : ℤ) : Option (RatchetKey K) :=
  (terms.keys epoch).toOption.bind fun keys => keys.get? peerIndex

end Terms

/-- A key is laid out for the epoch and the index that it is installed under. -/
theorem installKeys_named {kidCodec : KidCodec} {epoch peerIndex : ℤ} {key : RatchetKey K}
    {bundles : List (ℤ × PerSenderKeyBundle K)} {keys made : OrderedMap ℤ (RatchetKey K)}
    (installed : Worker.installKeys kidCodec epoch bundles keys = .ok made) (held : made.get? peerIndex = some key) :
    keys.get? peerIndex = some key ∨
      kidCodec.encode epoch peerIndex = .ok key.kid ∧ key.epoch = epoch ∧ key.peerIndex = peerIndex := by
  induction bundles generalizing keys with
  | nil => cases installed; exact .inl held
  | cons entry rest ih =>
    unfold Worker.installKeys at installed
    cases encoded : kidCodec.encode epoch entry.1 with
    | error refused => simp [encoded, bind, Except.bind] at installed
    | ok kid =>
      simp only [encoded, bind, Except.bind] at installed
      rcases ih installed with early | named
      · rw [OrderedMap.get?_set] at early
        split at early
        · rename_i same
          obtain rfl := Option.some.inj early
          exact .inr ⟨same ▸ encoded, rfl, same.symm⟩
        · exact .inl early
      · exact .inr named

variable {terms : Terms K} {epoch peerIndex : ℤ} {key : RatchetKey K}

theorem key_named (held : terms.key epoch peerIndex = some key) :
    terms.kidCodec.encode epoch peerIndex = .ok key.kid ∧ key.epoch = epoch ∧ key.peerIndex = peerIndex := by
  obtain ⟨keys, made, held⟩ := Option.bind_eq_some_iff.mp held
  have made : terms.keys epoch = .ok keys := by
    cases shape : terms.keys epoch with
    | error refused => simp [shape, Except.toOption] at made
    | ok table => simpa [shape, Except.toOption] using made
  exact (installKeys_named made held).resolve_left (by simp)

/-- A frame on its way: who has sealed it under which counter, and from what. -/
structure Flight where
  slot : Slot
  plain : Bytes
  frame : EncodedFrame

/-- The frame was sealed with the key of its slot. -/
def Sealed (runtime : Runtime K G) (terms : Terms K) (flight : Flight) : Prop :=
  ∃ key, terms.key flight.slot.epoch flight.slot.peerIndex = some key ∧ flight.slot.ctr < 2 ^ 64 ∧
    OnWire runtime key.toSFrameKey flight.slot.ctr 0 flight.plain [] flight.frame.data

/-! ## A party's worker -/

/-- The part of a worker that only messages, timers and its own frames touch. -/
def standing (w : Worker K G) :=
  ((w.codec, w.sifTrailer, w.kidCodec, w.failureTolerance, w.durableReplay),
    (w.epochs, w.entries, w.currentEpoch, w.currentMinValidEpoch, w.wipeTimers), (w.ctr, w.draining, w.pendingDrain))

/-- A worker with nothing but agreed keys, that remembers only counters it has heard, and only
the format that all parties send. -/
structure Tuned (terms : Terms K) (heard : Set Slot) (w : Worker K G) : Prop where
  codec : w.codec = none
  trailer : w.sifTrailer = none
  tolerant : w.failureTolerance < 0
  unguarded : w.durableReplay = none
  layout : ∀ epoch, w.epochs.has epoch = true → w.kidCodec = terms.kidCodec
  formats : ∀ epoch peerIndex guess, w.getFormatCache epoch peerIndex = some guess → guess = ⟨0, .header⟩
  windows : ∀ epoch peerIndex window, w.windowOf epoch peerIndex = some window →
    ∀ ctr ∈ window.window.queue, (⟨epoch, peerIndex, ctr⟩ : Slot) ∈ heard
  installed : ∀ epoch ref, w.epochs.get? epoch = some ref → terms.keys epoch = .ok (w.entries.read ref).keys
  registered : Registered w

variable {runtime : Runtime K G} {heard heard' : Set Slot} {w w' v : Worker K G}

theorem Tuned.mono (tuned : Tuned terms heard w) (more : heard ⊆ heard') : Tuned terms heard' w :=
  { tuned with
    windows := fun epoch peerIndex window held ctr member =>
      more (tuned.windows epoch peerIndex window held ctr member) }

theorem tuned_of (tuned : Tuned terms heard w) (stands : standing w' = standing w)
    (formats : w'.formatCache = w.formatCache) (windows : w'.replayWindows = w.replayWindows) :
    Tuned terms heard w' := by
  simp only [standing, Prod.mk.injEq] at stands
  obtain ⟨⟨codec, trailer, kidCodec, tolerance, guard⟩, ⟨epochs, entries, current, valid, timers⟩, -⟩ := stands
  constructor
  · rw [codec]; exact tuned.codec
  · rw [trailer]; exact tuned.trailer
  · rw [tolerance]; exact tuned.tolerant
  · rw [guard]; exact tuned.unguarded
  · rw [epochs, kidCodec]; exact tuned.layout
  · simp only [Worker.getFormatCache, formats]; exact tuned.formats
  · simp only [Worker.windowOf, windows]; exact tuned.windows
  · rw [epochs, entries]; exact tuned.installed
  · apply registered_of tuned.registered
    simp only [EpochTable.epochTable, epochs, entries, current, valid, timers]

/-- A key in the tables is the one agreed on. -/
theorem cachedKey_agreed (tuned : Tuned terms heard w) (cached : w.cachedKey epoch peerIndex = some key) :
    terms.key epoch peerIndex = some key ∧ w.kidCodec = terms.kidCodec := by
  obtain ⟨ref, installed, held⟩ := Option.bind_eq_some_iff.mp cached
  refine ⟨?_, tuned.layout epoch (by simp [OrderedMap.has, installed])⟩
  unfold Terms.key
  rw [tuned.installed epoch ref installed]
  exact held

theorem cachedKey_of_installed (tuned : Tuned terms heard w) (installed : w.epochs.has epoch = true)
    (agreed : terms.key epoch peerIndex = some key) : w.cachedKey epoch peerIndex = some key := by
  obtain ⟨ref, held⟩ := Option.isSome_iff_exists.mp installed
  unfold Terms.key at agreed
  rw [tuned.installed epoch ref held] at agreed
  simp only [Worker.cachedKey, held, Option.bind_some]
  exact agreed

/-! ## What keeps a party's worker tuned -/

/-- All that signals and failure counts leave alone. -/
def kept (w : Worker K G) := (standing w, w.formatCache, w.replayWindows, w.preEpochQueue, w.frames)

theorem tuned_kept (tuned : Tuned terms heard w) (same : kept w' = kept w) : Tuned terms heard w' := by
  simp only [kept, Prod.mk.injEq] at same
  exact tuned_of tuned same.1 same.2.1 same.2.2.1

theorem kept_books (same : w'.unbooked = w.unbooked) : kept w' = kept w := congr_erased kept same fun _ => rfl

theorem tuned_getReplayWindow (tuned : Tuned terms heard w) (slot : Slot) :
    Tuned terms heard (w.getReplayWindow slot.epoch slot.peerIndex).2 := by
  have table := Worker.windowOf_getReplayWindow w slot.epoch slot.peerIndex
  obtain ⟨windows, next, same⟩ := Worker.getReplayWindow_snd w slot.epoch slot.peerIndex
  rw [same] at table ⊢
  refine { tuned with formats := tuned.formats, installed := tuned.installed, windows := ?_
                      registered := registered_of tuned.registered rfl }
  intro epoch peerIndex window held ctr member
  rw [table] at held
  split at held
  · rename_i own
    obtain ⟨rfl, rfl⟩ := own
    cases held
    rw [Worker.getReplayWindow_fst] at member
    cases before : w.windowOf slot.epoch slot.peerIndex with
    | none => rw [before] at member; cases member
    | some window => rw [before] at member; exact tuned.windows _ _ window before ctr member
  · exact tuned.windows _ _ window held ctr member

theorem tuned_acceptReplay (tuned : Tuned terms heard w) (slot : Slot) (object frame : ℕ) :
    Tuned terms (insert slot heard) (w.acceptReplay slot object frame) := by
  have table := Worker.windowOf_acceptReplay w slot object frame
  obtain ⟨windows, same⟩ := Worker.acceptReplay_eq w slot object frame
  rw [same] at table ⊢
  refine { tuned with formats := tuned.formats, installed := tuned.installed, windows := ?_
                      registered := registered_of tuned.registered rfl }
  intro epoch peerIndex window held ctr member
  rw [table] at held
  split at held
  · rename_i own
    obtain ⟨rfl, rfl⟩ := own
    obtain ⟨before, there, rfl⟩ := Option.map_eq_some_iff.mp held
    split at member
    · rcases SlidingReplayWindow.mem_accept member with old | rfl
      · exact .inr (tuned.windows _ _ before there ctr old)
      · exact .inl rfl
    · exact .inr (tuned.windows _ _ before there ctr member)
  · exact .inr (tuned.windows _ _ window held ctr member)

theorem tuned_setFormatCache (tuned : Tuned terms heard w) (epoch peerIndex : ℤ) :
    Tuned terms heard (w.setFormatCache epoch peerIndex ⟨0, .header⟩) := by
  refine { tuned with windows := tuned.windows, installed := tuned.installed, formats := ?_
                      registered := registered_of tuned.registered rfl }
  intro other peer guess held
  simp only [Worker.getFormatCache, Worker.setFormatCache, OrderedMap.get?_set] at held
  split at held
  · rename_i same
    rw [Option.bind_some, OrderedMap.get?_set] at held
    split at held
    · exact (Option.some.inj held).symm
    · apply tuned.formats other peer
      subst same
      unfold Worker.getFormatCache
      cases table : w.formatCache.get? other with
      | none => simp [table] at held
      | some inner => simpa [table] using held
  · exact tuned.formats other peer guess held

/-- Both checks that a frame passes before it is opened. -/
theorem tuned_bothAsked (tuned : Tuned terms heard w) (slot : Slot) :
    Tuned terms heard (bothAsked runtime w slot) ∧ standing (bothAsked runtime w slot) = standing w ∧
      (bothAsked runtime w slot).preEpochQueue = w.preEpochQueue ∧ (bothAsked runtime w slot).frames = w.frames := by
  have asked := tuned_getReplayWindow tuned slot
  obtain ⟨windows, next, same⟩ := Worker.getReplayWindow_snd w slot.epoch slot.peerIndex
  have unguarded : durableGuard runtime (windowPassed w slot) = none := by
    simp only [durableGuard, windowPassed, windowAsked, same, tuned.unguarded, Option.filter_none]
  unfold bothAsked guardAsked
  rw [unguarded]
  refine ⟨tuned_of asked rfl rfl rfl, ?_, ?_, ?_⟩
  all_goals simp only [windowPassed, windowAsked, same, standing]

/-! ## A sealed frame -/

/-- The parts of a sealed frame. -/
structure Parts (runtime : Runtime K G) (key : RatchetKey K) (flight : Flight) (header iv ct : Bytes) : Prop where
  data : flight.frame.data = header ++ ct
  written : serializeHeader key.kid flight.slot.ctr = .ok header
  derived : deriveIv key.salt flight.slot.ctr = .ok iv
  seals : runtime.crypto.encrypt key.cryptoKey iv header flight.plain = some ct

section Sealed
variable {flight : Flight} {header iv ct : Bytes}

theorem parts_of_sealed (sealed : Sealed runtime terms flight) : ∃ key header iv ct,
    terms.key flight.slot.epoch flight.slot.peerIndex = some key ∧ Parts runtime key flight header iv ct := by
  obtain ⟨key, agreed, -, header, iv, ct, written, derived, seals, data⟩ := sealed
  exact ⟨key, header, iv, ct, agreed, by simpa using data, written, derived, seals⟩

/-- The header at the start of a sealed frame. -/
def headerOf (key : RatchetKey K) (flight : Flight) (header : Bytes) : SFrameHeader :=
  ⟨key.kid, flight.slot.ctr, header.length⟩

theorem parseHeader_sealed (parts : Parts runtime key flight header iv ct) :
    parseHeader flight.frame.data = .ok (headerOf key flight header) := by
  rw [parts.data]
  simpa [headerOf] using parseHeader_serializeHeader parts.written ct

/-- Where the keys of the frame's epoch are installed, the header names its slot. -/
theorem slotOf_sealed (agreed : terms.key flight.slot.epoch flight.slot.peerIndex = some key)
    (layout : w.kidCodec = terms.kidCodec) (header : Bytes) : slotOf w (headerOf key flight header) = flight.slot := by
  unfold slotOf headerOf
  rw [layout, (decode_encode (key_named agreed).1).1]

theorem sframeDecrypt_sealed (correct : runtime.crypto.Correct) (parts : Parts runtime key flight header iv ct)
    {resolveKey : ℕ → ℤ → ℤ → ℕ → Option (SFrameKey K)} {kidCodec : KidCodec}
    (resolved : resolveKey key.kid (kidCodec.decode key.kid).1 (kidCodec.decode key.kid).2 flight.slot.ctr =
      some key.toSFrameKey) :
    sframeDecrypt runtime.crypto flight.frame.data resolveKey kidCodec none .header = .ok flight.plain := by
  rw [parts.data]
  exact decrypt_sealed correct parts.written parts.derived parts.seals resolved none

/-- Whatever is cached or probed, a sealed frame is taken for what it is. -/
theorem resolution_sealed (correct : runtime.crypto.Correct) (tuned : Tuned terms heard w)
    (agreed : terms.key flight.slot.epoch flight.slot.peerIndex = some key)
    (parts : Parts runtime key flight header iv ct) (kind : Option FrameKind) :
    (resolution runtime w flight.frame.data none kind).1 = ⟨0, .header⟩ ∧
      ∀ found, (resolution runtime w flight.frame.data none kind).2 = some found → found.plaintext = flight.plain ∧
        w.cachedKey (slotOf w (headerOf key flight header)).epoch (slotOf w (headerOf key flight header)).peerIndex ≠
          none := by
  have parsed := parseHeader_sealed parts
  have length : ¬ flight.frame.data.length < header.length + 16 := by
    rw [parts.data, List.length_append, correct.tagged parts.seals, aeadTagBytes]
    omega
  unfold resolution
  cases cached : cachedFormat w flight.frame.data (codecPrefix flight.frame.data none kind) with
  | some guess =>
    refine ⟨?_, fun found never => by cases never⟩
    simp only [cachedFormat, codecPrefix, getUnencryptedBytes, Nat.zero_min, List.drop_zero, parsed] at cached
    split at cached
    · exact tuned.formats _ _ _ cached
    · cases cached
  | none =>
    dsimp only
    -- without a key there is nothing to try; with one, the first candidate opens the frame
    cases held : w.cachedKey (slotOf w (headerOf key flight header)).epoch
      (slotOf w (headerOf key flight header)).peerIndex with
    | none =>
      have attempts (guess : FormatGuess) (whole : guess.prefixLen = 0) :
          probeAttempt runtime w flight.frame.data guess = none := by
        simp only [slotOf, headerOf] at held
        simp only [probeAttempt, whole, List.drop_zero, parsed, headerOf, if_neg length, held]
      have none_found : firstOpened runtime w flight.frame.data (formatCandidates none kind) = none := by
        simp only [formatCandidates, getUnencryptedBytes, ↓reduceIte, firstOpened,
          attempts ⟨0, .header⟩ rfl, attempts ⟨0, .canonical⟩ rfl]
      rw [none_found]
      exact ⟨by simp [codecPrefix, getUnencryptedBytes], fun found never => by cases never⟩
    | some full =>
      have layout := (cachedKey_agreed tuned held).2
      have named := slotOf_sealed agreed layout header
      rw [named] at held
      obtain rfl : full = key := Option.some.inj ((cachedKey_agreed tuned held).1.symm.trans agreed)
      have opens : sframeDecrypt runtime.crypto flight.frame.data (fun _ _ _ _ => some full.toSFrameKey) w.kidCodec none
          .header = .ok flight.plain := sframeDecrypt_sealed correct parts rfl
      have epoch : (w.kidCodec.decode full.kid).1 = flight.slot.epoch := congrArg Slot.epoch named
      have peer : (w.kidCodec.decode full.kid).2 = flight.slot.peerIndex := congrArg Slot.peerIndex named
      have attempted : probeAttempt runtime w flight.frame.data ⟨0, .header⟩ = some (headerOf full flight header,
          flight.slot.epoch, flight.slot.peerIndex, .ok flight.plain) := by
        simp only [probeAttempt, List.drop_zero, parsed, headerOf, if_neg length, aadPrefixOf, gt_iff_lt, lt_irrefl,
          ↓reduceIte, epoch, peer, held, opens]
      simp only [formatCandidates, getUnencryptedBytes, ↓reduceIte, firstOpened, attempted]
      refine ⟨trivial, fun found same => ?_⟩
      cases same
      exact ⟨rfl, Option.some_ne_none full⟩

/-- The worker that has accepted a frame. -/
def opened (w : Worker K G) (ref : Ref) (slot : Slot) (object : ℕ) (plain : Bytes) : Worker K G :=
  (Unsealing.deliver (((w.setFormatCache slot.epoch slot.peerIndex ⟨0, .header⟩).acceptReplay slot object
    ref).recordSuccess
    slot.epoch slot.peerIndex) slot ref plain).clearStarve

theorem alone_openAndAccept (correct : runtime.crypto.Correct) (tuned : Tuned terms heard w)
    (parts : Parts runtime key flight header iv ct)
    (cached : w.cachedKey flight.slot.epoch flight.slot.peerIndex = some key)
    (named : slotOf w (headerOf key flight header) = flight.slot) (ref : Ref) (object : ℕ) {probed : Option Probed}
    (probes : ∀ found, probed = some found → found.plaintext = flight.plain) :
    alone (openAndAccept runtime ref (flight.slot, object) flight.frame.data ⟨0, .header⟩ probed) w =
      some (.ok flight.plain, opened w ref flight.slot object flight.plain) := by
  have accepts : alone (acceptFrame runtime ref (flight.slot, object) flight.frame.data ⟨0, .header⟩ flight.plain)
      (w.setFormatCache flight.slot.epoch flight.slot.peerIndex ⟨0, .header⟩) =
      some (.ok (), opened w ref flight.slot object flight.plain) := by
    obtain ⟨windows, same⟩ := Worker.acceptReplay_eq
      (w.setFormatCache flight.slot.epoch flight.slot.peerIndex ⟨0, .header⟩) flight.slot object ref
    have unguarded : durableGuard runtime ((w.setFormatCache flight.slot.epoch flight.slot.peerIndex
        ⟨0, .header⟩).acceptReplay flight.slot object ref) = none := by
      rw [same]
      simp only [durableGuard, Worker.setFormatCache, tuned.unguarded, Option.filter_none]
    simp only [acceptFrame, durableAccept, alone_bind, alone_update, alone_read, Option.bind_some,
      unguarded, alone_pure,
      List.take_zero, List.nil_append]
    rfl
  unfold openAndAccept
  cases probed with
  | some found =>
    simp only [openResolved, alone_bind, alone_update, Option.bind_some, alone_pure, probes found rfl, accepts]
  | none =>
    obtain ⟨entry, installed, held⟩ := Option.bind_eq_some_iff.mp cached
    have opens : sframeDecrypt runtime.crypto flight.frame.data (resolveCached w) w.kidCodec none .header =
        .ok flight.plain := by
      apply sframeDecrypt_sealed correct parts
      have epoch : (w.kidCodec.decode key.kid).1 = flight.slot.epoch := congrArg Slot.epoch named
      have peer : (w.kidCodec.decode key.kid).2 = flight.slot.peerIndex := congrArg Slot.peerIndex named
      rw [resolveCached, epoch, peer, cached]
      rfl
    simp only [openResolved, tryDecryptWithRatchet, openCached, alone_bind, alone_attempt, alone_read,
      Option.bind_some, installed, held, alone_pause, alone_settle, List.drop_zero, aadPrefixOf, gt_iff_lt, lt_irrefl,
      ↓reduceIte, opens, Option.map_some, alone_pure, alone_update, accepts]

/-- A sender without a key is not opened, and nothing is kept of the frame. -/
theorem alone_openAndAccept_keyless {slot : Slot} (missing : w.cachedKey slot.epoch slot.peerIndex = none) (ref : Ref)
    (object : ℕ) (payload : Bytes) (guess : FormatGuess) :
    ∃ refused, alone (openAndAccept runtime ref (slot, object) payload guess none) w = some (.error refused, w) := by
  unfold openAndAccept
  cases installed : w.epochs.get? slot.epoch with
  | none =>
    simp only [openResolved, tryDecryptWithRatchet, alone_bind, alone_attempt, alone_read, Option.bind_some, installed,
      alone_throw, Option.map_some, alone_pause, alone_settle]
    exact ⟨_, rfl⟩
  | some entry =>
    have unheld : (w.entries.read entry).keys.get? slot.peerIndex = none := by
      simpa [Worker.cachedKey, installed] using missing
    simp only [openResolved, tryDecryptWithRatchet, alone_bind, alone_attempt, alone_read, Option.bind_some, installed,
      unheld, alone_throw, Option.map_some, alone_pause, alone_settle]
    exact ⟨_, rfl⟩

theorem tuned_opened (tuned : Tuned terms heard w) (ref : Ref) (slot : Slot) (object : ℕ) (plain : Bytes) :
    Tuned terms (insert slot heard) (opened w ref slot object plain) ∧
      standing (opened w ref slot object plain) = standing w ∧
      (opened w ref slot object plain).preEpochQueue = w.preEpochQueue ∧
      (opened w ref slot object plain).frames = w.frames.write ref { w.frames.read ref with data := plain } := by
  have accepted := tuned_acceptReplay (tuned_setFormatCache tuned slot.epoch slot.peerIndex) slot object ref
  obtain ⟨windows, same⟩ :=
    Worker.acceptReplay_eq (w.setFormatCache slot.epoch slot.peerIndex ⟨0, .header⟩) slot object ref
  rw [same] at accepted
  have whole : opened w ref slot object plain = (Unsealing.deliver (Worker.recordSuccess
      ({ w.setFormatCache slot.epoch slot.peerIndex ⟨0, .header⟩ with
        replayWindows := windows, accepted := w.accepted ++ [(slot, ref)] } : Worker K G)
      slot.epoch slot.peerIndex) slot ref plain).clearStarve := by
    unfold opened
    rw [same]
    rfl
  rw [whole]
  have counted := kept_books (Worker.unbooked_recordSuccess
    ({ w.setFormatCache slot.epoch slot.peerIndex ⟨0, .header⟩ with
    replayWindows := windows, accepted := w.accepted ++ [(slot, ref)] } : Worker K G) slot.epoch slot.peerIndex)
  have cleared := kept_books (Worker.unbooked_of_unsignalled (Worker.unsignalled_clearStarve
    (Unsealing.deliver (Worker.recordSuccess ({ w.setFormatCache slot.epoch slot.peerIndex ⟨0, .header⟩ with
      replayWindows := windows, accepted := w.accepted ++ [(slot, ref)] } : Worker K G)
      slot.epoch slot.peerIndex) slot ref plain)))
  simp only [kept, Prod.mk.injEq] at counted cleared
  obtain ⟨stands, formats, replays, queue, frames⟩ := counted
  obtain ⟨stands', formats', replays', queue', frames'⟩ := cleared
  refine ⟨tuned_of accepted (stands'.trans stands) (formats'.trans formats) (replays'.trans replays),
    stands'.trans stands, queue'.trans queue, ?_⟩
  rw [frames']
  unfold Unsealing.deliver
  rw [frames]
  rfl

/-- A counter above all that was heard passes the gates. -/
theorem senderRefusal_fresh (tuned : Tuned terms heard w) {slot : Slot} (fits : slot.ctr < 2 ^ 64)
    (fresh : ∀ ctr, (⟨slot.epoch, slot.peerIndex, ctr⟩ : Slot) ∈ heard → ctr < slot.ctr) :
    senderRefusal runtime w slot = none := by
  have takes : windowTakes w slot = true := by
    apply SlidingReplayWindow.check_above fits
    intro other member
    rw [Worker.getReplayWindow_fst] at member
    cases held : w.windowOf slot.epoch slot.peerIndex with
    | none => rw [held] at member; cases member
    | some window => rw [held] at member; exact fresh other (tuned.windows _ _ window held other member)
  have granted : guardTakes runtime w slot = true := by
    simp only [guardTakes, durableGuard, tuned.unguarded, Option.filter_none, Option.map_none, Option.getD_none]
  have valid : w.isKeyInvalid slot.epoch slot.peerIndex = false := by
    rw [Worker.isKeyInvalid, if_pos tuned.tolerant]
  simp [senderRefusal, takes, granted, valid]

end Sealed
end SFrameRatchet.Party
