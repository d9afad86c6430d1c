import SFrameRatchet.RatchetDedup
import SFrameRatchet.SoloDecoding
import SFrameRatchet.Specimen

/-! A frame that nobody holding an installed key has sealed. Whatever route it
takes through the gates, the format probe and the ratchet, decoding it fails,
and what later frames depend on stays as it was. -/
namespace SFrameRatchet.ForgedFrame
open Collections Crypto Kid Header SFrame CodecPartial Replay Throwing Coroutine Media Unsealing
    RatchetDedup SoloDecoding

variable {K G : Type} {runtime : Runtime K G} {w w' w₀ : Worker K G} {ref : Ref} {payload : Bytes}

/-- The formats a payload may be taken for: the candidates of the receiver's
codec, and the format it remembers for the sender. -/
def Considered (w : Worker K G) (payload : Bytes) (frameKind : Option FrameKind) (guess : FormatGuess) : Prop :=
  guess ∈ formatCandidates w.codec frameKind ∨
    cachedFormat w payload (codecPrefix payload w.codec frameKind) = some guess

/-- Some format opens a payload under some installed key, advanced by at most as
many steps as the ratchet window has. -/
def Authentic (runtime : Runtime K G) (w : Worker K G) (payload : Bytes) (frameKind : Option FrameKind) : Prop :=
  ∃ guess epoch peerIndex first n key plaintext, Considered w payload frameKind guess ∧
    w.cachedKey epoch peerIndex = some first ∧ Ratcheted runtime w peerIndex first n key ∧ n ≤ w.ratchetWindowSize ∧
    sframeDecrypt runtime.crypto (payload.drop guess.prefixLen) (fun _ _ _ _ => some key.toSFrameKey) w.kidCodec
      (aadPrefixOf payload guess.prefixLen) guess.aadForm = .ok plaintext

/-! ## What may change -/

/-- A call on the durable guard. -/
inductive GuardCall where
  | check (name : String) (ctr : ℕ)
  | accept (name : String) (ctr : ℕ)
  | clear (name : String)

/-- What a guard answers to a sequence of calls: whether it is available, and
what its checks say. -/
def answers (guard : ReplayGuard G) : G → List GuardCall → List (Bool × Bool)
  | _, [] => []
  | durable, .check name ctr :: rest =>
    (guard.available durable, (guard.check durable name ctr).1) :: answers guard (guard.check durable name ctr).2 rest
  | durable, .accept name ctr :: rest => answers guard (guard.accept durable name ctr) rest
  | durable, .clear name :: rest => answers guard (guard.clear durable name) rest

/-- Asking a guard changes none of its later answers. -/
def AsksOnly (guard : ReplayGuard G) : Prop :=
  ∀ durable name ctr calls, answers guard (guard.check durable name ctr).2 calls = answers guard durable calls

/-- A worker without its signals, failure counts and replay state, and without
what only the history tells. -/
def beyondTraces (w : Worker K G) : Worker K G :=
  { w with
    emitted := [], failureCounts := ∅, promises := default, checked := [], resolved := []
    replayWindows := ∅, nextWindow := 0, durableReplay := none }

/-- What the replay window of a sender remembers; a window that the table does
not have yet will be empty. -/
def remembered (w : Worker K G) (epoch peerIndex : ℤ) : SlidingReplayWindow :=
  ((w.windowOf epoch peerIndex).map WindowObject.window).getD (.new w.replayWindowSize)

/-- The replay check asks what is remembered. -/
theorem windowTakes_eq (w : Worker K G) (slot : Slot) :
    windowTakes w slot = (remembered w slot.epoch slot.peerIndex).check slot.ctr := by
  rw [windowTakes, Worker.getReplayWindow_fst, remembered]
  cases w.windowOf slot.epoch slot.peerIndex <;> rfl

/-- Every sender's window remembers what it did, the durable guard will answer
as before, and nothing else has changed. -/
structure Intact (guard : ReplayGuard G) (w w' : Worker K G) : Prop where
  rest : beyondTraces w' = beyondTraces w
  windows : ∀ epoch peerIndex, remembered w' epoch peerIndex = remembered w epoch peerIndex
  durable : ∀ calls, w'.durableReplay.map (answers guard · calls) = w.durableReplay.map (answers guard · calls)

/-- A worker without its signals and failure counts, and without the promises. -/
def lasting (w : Worker K G) : Worker K G := { w with emitted := [], failureCounts := ∅, promises := default }

/-- The same, whatever promises are in flight. -/
def beyondFlight (w : Worker K G) : Worker K G := { lasting w with ratchetPromises := ∅ }

theorem lasting_of_mute (same : mute w' = mute w) : lasting w' = lasting w := by
  change lasting (mute w') = lasting (mute w)
  rw [same]

theorem lasting_posted (posted : Posted w w') : lasting w' = lasting w := posted.view lasting fun _ _ _ => rfl

theorem intact_refl (guard : ReplayGuard G) (w : Worker K G) : Intact guard w w := ⟨rfl, fun _ _ => rfl, fun _ => rfl⟩

/-- What lasts decides what is intact. -/
theorem intact_of_lasting {guard : ReplayGuard G} {v : Worker K G} (intact : Intact guard w v)
    (same : lasting w' = lasting v) : Intact guard w w' where
  rest := (congr_erased beyondTraces same fun _ => rfl).trans intact.rest
  windows epoch peerIndex :=
    (congr_erased (remembered · epoch peerIndex) same fun _ => rfl).trans (intact.windows epoch peerIndex)
  durable calls :=
    (congr_erased (·.durableReplay.map (answers guard · calls)) same fun _ => rfl).trans (intact.durable calls)

/-- A window that is made in order to be asked is empty. -/
theorem intact_windowAsked {guard : ReplayGuard G} (intact : Intact guard w₀ w) (slot : Slot) :
    Intact guard w₀ (windowAsked w slot) := by
  obtain ⟨windows, next, asked⟩ := Worker.getReplayWindow_snd w slot.epoch slot.peerIndex
  refine ⟨?_, fun epoch peerIndex => ?_, ?_⟩
  · rw [← intact.rest, windowAsked, asked]
    rfl
  · have size : (w.getReplayWindow slot.epoch slot.peerIndex).2.replayWindowSize = w.replayWindowSize := by rw [asked]
    rw [← intact.windows epoch peerIndex, windowAsked, remembered, Worker.windowOf_getReplayWindow]
    simp only [size, remembered]
    split
    · rename_i own
      rw [own.1, own.2, Worker.getReplayWindow_fst]
      cases w.windowOf slot.epoch slot.peerIndex <;> rfl
    · rfl
  · rw [windowAsked, asked]
    exact intact.durable

theorem intact_bothAsked (asks : AsksOnly runtime.guard) (intact : Intact runtime.guard w₀ w) (slot : Slot) :
    Intact runtime.guard w₀ (bothAsked runtime w slot) := by
  have asked := intact_windowAsked intact slot
  have passed : Intact runtime.guard w₀ (windowPassed w slot) := ⟨asked.rest, asked.windows, asked.durable⟩
  unfold bothAsked guardAsked
  split
  · exact passed
  · rename_i durable usable
    have there : (windowPassed w slot).durableReplay = some durable := (Option.filter_eq_some_iff.mp usable).1
    refine ⟨passed.rest, passed.windows, fun calls => ?_⟩
    rw [← passed.durable calls, there]
    exact congrArg some (asks durable _ _ calls)

/-! ## Nothing opens -/

section Forged
variable {frameKind : Option FrameKind} (forged : ¬ Authentic runtime w₀ payload frameKind)

include forged

/-- No candidate opens at step zero. -/
theorem firstOpened_none {candidates : List FormatGuess}
    (among : ∀ guess ∈ candidates, guess ∈ formatCandidates w₀.codec frameKind) :
    firstOpened runtime w₀ payload candidates = none := by
  induction candidates with
  | nil => rfl
  | cons guess rest ih =>
    have later := ih fun other member => among other (List.mem_cons_of_mem _ member)
    simp only [firstOpened]
    split
    · rename_i hdr epoch peerIndex plaintext attempted
      refine absurd ?_ forged
      unfold probeAttempt at attempted
      dsimp only at attempted
      split at attempted
      · cases attempted
      · split at attempted
        · cases attempted
        · split at attempted
          · cases attempted
          · rename_i parsed _ key cached
            simp only [Option.some.injEq, Prod.mk.injEq] at attempted
            obtain ⟨-, -, -, opened⟩ := attempted
            exact ⟨guess, _, _, key, 0, key, plaintext, .inl (among guess List.mem_cons_self), cached, .cached,
              Nat.zero_le _, opened⟩
    · exact later

/-- The format found is none that a probe has found. -/
theorem resolution_forged {guess : FormatGuess} {probed : Option Probed}
    (resolved : resolution runtime w₀ payload w₀.codec frameKind = (guess, probed)) :
    probed = none ∧ (Considered w₀ payload frameKind guess ∨ payload.drop guess.prefixLen = []) := by
  unfold resolution at resolved
  split at resolved
  · rename_i cached
    obtain ⟨rfl, rfl⟩ := Prod.mk.inj resolved
    exact ⟨rfl, .inl (.inr cached)⟩
  · rw [firstOpened_none forged fun _ member => member] at resolved
    obtain ⟨rfl, rfl⟩ := Prod.mk.inj resolved
    refine ⟨rfl, ?_⟩
    by_cases fits : getUnencryptedBytes w₀.codec frameKind ≤ payload.length
    · have first : ⟨getUnencryptedBytes w₀.codec frameKind, .header⟩ ∈ formatCandidates w₀.codec frameKind :=
        List.mem_of_head? (formatCandidates_first w₀.codec frameKind)
      exact .inl (.inl (by simpa [codecPrefix, Nat.min_eq_left fits] using first))
    · exact .inr (by simp [codecPrefix]; omega)

/-- An installed key opens the payload in no considered format, however many
steps of the window it is advanced. -/
theorem considered_fails {guess : FormatGuess} (considered : Considered w₀ payload frameKind guess)
    {epoch peerIndex : ℤ} {first key : RatchetKey K} {n : ℕ} (cached : w₀.cachedKey epoch peerIndex = some first)
    (stepped : Ratcheted runtime w₀ peerIndex first n key) (within : n ≤ w₀.ratchetWindowSize) (plaintext : Bytes) :
    sframeDecrypt runtime.crypto (payload.drop guess.prefixLen) (fun _ _ _ _ => some key.toSFrameKey) w₀.kidCodec
      (aadPrefixOf payload guess.prefixLen) guess.aadForm ≠ .ok plaintext := fun opened =>
  forged ⟨guess, epoch, peerIndex, first, n, key, plaintext, considered, cached, stepped, within, opened⟩

end Forged

/-! ## The ratchet -/

/-- A buffer that no installed key opens within the window of steps. -/
def Sealed (runtime : Runtime K G) (w : Worker K G) (o : Opening) : Prop :=
  ∀ epoch peerIndex first n key plaintext, w.cachedKey epoch peerIndex = some first →
    Ratcheted runtime w peerIndex first n key → n ≤ w.ratchetWindowSize →
      sframeDecrypt runtime.crypto o.buf (fun _ _ _ _ => some key.toSFrameKey) w.kidCodec o.aadPrefix o.aadForm ≠
        .ok plaintext

section Ratchet
variable {o : Opening} (sealed : Sealed runtime w₀ o)

include sealed

theorem openCached_fails (same : lasting w = lasting w₀) (sites : Bool → AwaitPoint) :
    ∃ refused, alone (openCached runtime sites o) w = some (.error refused, w) := by
  have tables : resolveCached w = resolveCached w₀ := congr_erased resolveCached same fun _ => rfl
  have codec : w.kidCodec = w₀.kidCodec := congr_erased (·.kidCodec) same fun _ => rfl
  simp only [openCached, alone_bind, alone_read, Option.bind_some, alone_pause, alone_settle, tables, codec]
  cases opened : sframeDecrypt runtime.crypto o.buf (resolveCached w₀) w₀.kidCodec o.aadPrefix o.aadForm with
  | error refused => exact ⟨refused, rfl⟩
  | ok plaintext =>
    obtain ⟨hdr, key, parsed, resolved, own⟩ := decrypt_resolves opened
    obtain ⟨full, cached, rfl⟩ := Option.map_eq_some_iff.mp resolved
    exact absurd own (sealed _ _ full 0 full plaintext cached .cached (Nat.zero_le _))

/-- The retry loop fails at every step, and then its window is exhausted. -/
theorem retrySteps_fails (site : RatchetPoint → AwaitPoint) (entry : Ref) {first : RatchetKey K}
    (cached : w₀.cachedKey o.epoch o.peerIndex = some first) (patience step : ℕ) {key : RatchetKey K}
    (salt : key.salt = first.salt) (stepped : Ratcheted runtime w₀ o.peerIndex first step key)
    (within : step ≤ w₀.ratchetWindowSize) (patient : w₀.ratchetWindowSize < patience + step)
    (same : beyondFlight w = beyondFlight w₀) :
    ∃ refused w', alone (retrySteps runtime site o entry first.salt patience (step + 1) key.rawKey) w =
      some (.error refused, w') ∧ lasting w' = lasting w := by
  have window : w.ratchetWindowSize = w₀.ratchetWindowSize := congr_erased (·.ratchetWindowSize) same fun _ => rfl
  have suite : w.suite = w₀.suite := congr_erased (·.suite) same fun _ => rfl
  have codec : w.kidCodec = w₀.kidCodec := congr_erased (·.kidCodec) same fun _ => rfl
  have tables (next : RatchetKey K) :
      resolveNext w next o.epoch o.peerIndex = resolveNext w₀ next o.epoch o.peerIndex :=
    congr_erased (resolveNext · next o.epoch o.peerIndex) same fun _ => rfl
  induction patience generalizing step key with
  | zero => omega
  | succ patience ih =>
    simp only [retrySteps, alone_bind, alone_read, Option.bind_some, window, suite, codec]
    split
    · rename_i more
      rw [← salt]
      cases derived : deriveNextSenderKey runtime.crypto key.rawKey key.salt o.epoch o.peerIndex w₀.suite
        w₀.kidCodec with
      | error refused =>
        simp only [alone_bind, alone_pause, Option.bind_some, alone_settle]
        exact ⟨refused, w, rfl, rfl⟩
      | ok next =>
        have further := stepped.step derived
        simp only [alone_bind, alone_pause, Option.bind_some, alone_settle, alone_read, tables, codec]
        cases opened : sframeDecrypt runtime.crypto o.buf (resolveNext w₀ next o.epoch o.peerIndex) w₀.kidCodec
            o.aadPrefix o.aadForm with
        | ok plaintext =>
          obtain ⟨hdr, used, parsed, resolved, own⟩ := decrypt_resolves opened
          unfold resolveNext at resolved
          split at resolved
          · obtain rfl := Option.some.inj resolved
            exact absurd own (sealed _ _ first _ next plaintext cached further more)
          · obtain ⟨full, other, rfl⟩ := Option.map_eq_some_iff.mp resolved
            exact absurd own (sealed _ _ full 0 full plaintext other .cached (Nat.zero_le _))
        | error refused =>
          dsimp only
          rw [salt]
          exact ih (step + 1) ((next_salt derived).trans salt) further more (by omega)
    · simp only [alone_bind, alone_update, Option.bind_some, alone_throw]
      exact ⟨_, _, rfl, lasting_posted (posted_emitMetric _ _)⟩

/-- The loop under its promise, which is gone from the map afterwards. -/
theorem runRetryLoop_fails (site : RatchetPoint → AwaitPoint) {entry : Ref}
    (named : w₀.epochs.get? o.epoch = some entry) (idle : w₀.ratchetPromises = ∅)
    (patient : w₀.ratchetWindowSize < runtime.patience) (same : lasting w = lasting w₀) :
    ∃ refused w', alone (runRetryLoop runtime site o entry) w = some (.error refused, w') ∧
      lasting w' = lasting w₀ := by
  have entries : w.entries = w₀.entries := congr_erased (·.entries) same fun _ => rfl
  have flying : w.ratchetPromises = ∅ := (congr_erased (·.ratchetPromises) same fun _ => rfl).trans idle
  have loop (v : Worker K G) (alike : beyondFlight v = beyondFlight w₀) :
      ∃ refused w', alone (retryLoop runtime site o entry) v = some (.error refused, w') ∧ lasting w' = lasting v := by
    have table : v.entries = w₀.entries := congr_erased (·.entries) alike fun _ => rfl
    simp only [retryLoop, alone_bind, alone_read, Option.bind_some, table]
    cases held : (w₀.entries.read entry).keys.get? o.peerIndex with
    | none => exact ⟨_, v, rfl, rfl⟩
    | some key =>
      have cached : w₀.cachedKey o.epoch o.peerIndex = some key := by simp [Worker.cachedKey, named, held]
      exact retrySteps_fails sealed site entry cached runtime.patience 0 rfl .cached (Nat.zero_le _) patient alike
  have started : beyondFlight { w with
      promises := w.promises.alloc .pending
      ratchetPromises := w.ratchetPromises.set (o.epoch, o.peerIndex) w.promises.next } = beyondFlight w₀ :=
    congrArg (fun v : Worker K G => { v with ratchetPromises := ∅ }) same
  obtain ⟨refused, v, ran, spent⟩ := loop _ started
  simp only [runRetryLoop, alone_bind, alone_read, Option.bind_some, alone_update, alone_attempt, ran, Option.map_some,
    alone_pause, alone_settle]
  refine ⟨refused, _, rfl, ?_⟩
  have flown : v.ratchetPromises = (∅ : OrderedMap (ℤ × ℤ) Ref).set (o.epoch, o.peerIndex) w.promises.next :=
    (congr_erased (·.ratchetPromises) spent fun _ => rfl).trans (by rw [flying])
  calc lasting { v with
        promises := v.promises.write w.promises.next (.rejected refused)
        ratchetPromises := v.ratchetPromises.delete (o.epoch, o.peerIndex) }
      = { lasting v with ratchetPromises := v.ratchetPromises.delete (o.epoch, o.peerIndex) } := rfl
    _ = { lasting w with ratchetPromises := ∅ } := by
      rw [spent, flown, OrderedMap.delete_set_empty]
      rfl
    _ = { lasting w₀ with ratchetPromises := ∅ } := by rw [same]
    _ = lasting w₀ := by
      rw [← idle]
      rfl

theorem tryDecryptWithRatchet_fails (site : RatchetPoint → AwaitPoint) (idle : w₀.ratchetPromises = ∅)
    (patient : w₀.ratchetWindowSize < runtime.patience) (same : lasting w = lasting w₀) :
    ∃ refused w', alone (tryDecryptWithRatchet runtime site o) w = some (.error refused, w') ∧
      lasting w' = lasting w₀ := by
  have epochs : w.epochs = w₀.epochs := congr_erased (·.epochs) same fun _ => rfl
  have entries : w.entries = w₀.entries := congr_erased (·.entries) same fun _ => rfl
  have window : w.ratchetWindowSize = w₀.ratchetWindowSize := congr_erased (·.ratchetWindowSize) same fun _ => rfl
  have flying : w.ratchetPromises = ∅ := (congr_erased (·.ratchetPromises) same fun _ => rfl).trans idle
  obtain ⟨firstError, stepZero⟩ := openCached_fails sealed same fun _ => site .stepZero
  simp only [tryDecryptWithRatchet, alone_bind, alone_read, Option.bind_some, epochs, entries]
  cases named : w₀.epochs.get? o.epoch with
  | none => exact ⟨_, w, rfl, same⟩
  | some entry =>
    dsimp only
    cases (w₀.entries.read entry).keys.get? o.peerIndex with
    | none => exact ⟨_, w, rfl, same⟩
    | some key =>
      simp only [alone_bind, alone_attempt, stepZero, Option.map_some, Option.bind_some, alone_read, window, flying,
        OrderedMap.get?_empty]
      split
      · exact ⟨_, w, rfl, same⟩
      · simp only [recheckThenLoop, alone_bind, alone_read, Option.bind_some, flying, OrderedMap.get?_empty]
        exact runRetryLoop_fails sealed site named idle patient same

end Ratchet

/-! ## The frame -/

/-- Behind the gates a forged frame is not opened. -/
theorem openAndAccept_fails (ref : Ref) {guess : FormatGuess} (held : Slot × ℕ)
    (sealed : Sealed runtime w (openingOf payload guess held.1))
    (idle : w.ratchetPromises = ∅) (patient : w.ratchetWindowSize < runtime.patience) :
    ∃ refused w', alone (openAndAccept runtime ref held payload guess none) w = some (.error refused, w') ∧
      lasting w' = lasting w := by
  obtain ⟨refused, w', ran, same⟩ := tryDecryptWithRatchet_fails sealed
    (fun point => { point := .ratchet point, frame := some ref, payload := some payload, slot := some held })
    idle patient rfl
  refine ⟨refused, w', ?_, same⟩
  simp only [openingOf] at ran
  simp only [openAndAccept, openResolved, alone_bind, alone_attempt, ran, Option.map_some,
    Option.bind_some, alone_pause,
    alone_settle]

/-- Ratcheted keys depend on the suite and the layout of key identifiers only. -/
theorem ratcheted_congr {peerIndex : ℤ} {first key : RatchetKey K} {n : ℕ}
    (stepped : Ratcheted runtime w peerIndex first n key) (suite : w.suite = w'.suite)
    (codec : w.kidCodec = w'.kidCodec) : Ratcheted runtime w' peerIndex first n key := by
  induction stepped with
  | cached => exact .cached
  | step _ derived ih =>
    rw [suite, codec] at derived
    exact ih.step derived

/-- The gates leave what opening depends on as it was. -/
theorem sealed_bothAsked {o : Opening} (sealed : Sealed runtime w o) (slot : Slot) :
    Sealed runtime (bothAsked runtime w slot) o := by
  obtain ⟨windows, next, asked⟩ := Worker.getReplayWindow_snd w slot.epoch slot.peerIndex
  have tables : (bothAsked runtime w slot).cachedKey = w.cachedKey ∧ (bothAsked runtime w slot).suite = w.suite ∧
      (bothAsked runtime w slot).kidCodec = w.kidCodec ∧
      (bothAsked runtime w slot).ratchetWindowSize = w.ratchetWindowSize := by
    simp only [bothAsked, guardAsked, windowPassed, windowAsked, asked]
    split <;> exact ⟨rfl, rfl, rfl, rfl⟩
  obtain ⟨keys, suite, codec, window⟩ := tables
  intro epoch peerIndex first n key plaintext cached stepped within
  rw [codec]
  exact sealed epoch peerIndex first n key plaintext (by rw [← keys]; exact cached)
    (ratcheted_congr stepped suite codec) (by rw [← window]; exact within)

theorem decodePayload_fails {guess : FormatGuess} {hdr : SFrameHeader} (asks : AsksOnly runtime.guard)
    (current : w.currentEpoch ≠ -1) (idle : w.ratchetPromises = ∅) (patient : w.ratchetWindowSize < runtime.patience)
    (sealed : Sealed runtime w (openingOf payload guess (slotOf w hdr))) :
    ∃ refused w', alone (decodePayload runtime ref payload guess none hdr) w = some (.error refused, w') ∧
      Intact runtime.guard w w' := by
  by_cases stale : (slotOf w hdr).epoch < w.currentMinValidEpoch
  · obtain ⟨⟨refused, w', ran, -, same⟩, -⟩ := decodePayload_stale stale
    exact ⟨refused, w', ran, intact_of_lasting (intact_refl _ w) (lasting_of_mute same)⟩
  · cases refuses : senderRefusal runtime w (slotOf w hdr) with
    | some refusal =>
      obtain ⟨reason, v⟩ := refusal
      obtain ⟨⟨refused, w', ran, -, same⟩, -⟩ := decodePayload_refused stale current refuses
      refine ⟨refused, w', ran, intact_of_lasting ?_ (lasting_of_mute same)⟩
      rcases senderRefusal_some refuses with ⟨-, -, rfl⟩ | ⟨-, rfl, -⟩
      · exact intact_windowAsked (intact_refl _ w) _
      · exact intact_bothAsked asks (intact_refl _ w) _
    | none =>
      have asked := intact_bothAsked asks (intact_refl runtime.guard w) (slotOf w hdr)
      have flying : (bothAsked runtime w (slotOf w hdr)).ratchetPromises = ∅ :=
        (congr_erased (·.ratchetPromises) asked.rest fun _ => rfl).trans idle
      have window : (bothAsked runtime w (slotOf w hdr)).ratchetWindowSize = w.ratchetWindowSize :=
        congr_erased (·.ratchetWindowSize) asked.rest fun _ => rfl
      obtain ⟨refused, w', ran, same⟩ := openAndAccept_fails ref
        (slotOf w hdr, windowHeld w (slotOf w hdr)) (sealed_bothAsked sealed _) flying (by rwa [window])
      refine ⟨refused, w', ?_, intact_of_lasting asked same⟩
      rw [decodePayload_opens stale current refuses, ran]
      rfl

/-- **Forged frames.** A frame that carries a payload which no installed key
opens, in any considered format and within the ratchet window, is rejected once
an epoch is there, and the receiver is left intact. -/
theorem forged_frame_rejected (asks : AsksOnly runtime.guard) (current : w.currentEpoch ≠ -1)
    (idle : w.ratchetPromises = ∅) (patient : w.ratchetWindowSize < runtime.patience)
    (stripped : sifPayload w.sifTrailer (w.frames.read ref).data = some payload)
    (forged : ¬ Authentic runtime w payload (w.frames.read ref).kind) :
    ∃ refused w', alone (decodeFrame runtime ref) w = some (.error refused, w') ∧
      (w'.frames.read ref).data = (w.frames.read ref).data ∧ Intact runtime.guard w w' := by
  suffices rejects : ∃ refused w', alone (decodeFrame runtime ref) w = some (.error refused, w') ∧
      Intact runtime.guard w w' by
    obtain ⟨refused, w', ran, intact⟩ := rejects
    exact ⟨refused, w', ran, congr_erased (fun v => (v.frames.read ref).data) intact.rest fun _ => rfl, intact⟩
  obtain ⟨guess, probed, resolved⟩ : ∃ guess probed, formatOf runtime w ref payload = (guess, probed) := ⟨_, _, rfl⟩
  obtain ⟨rfl, considered⟩ := resolution_forged forged resolved
  have format : (formatOf runtime w ref payload).1 = guess := by rw [resolved]
  cases parsed : parseHeader (payload.drop guess.prefixLen) with
  | error unparsed =>
    refine ⟨unparsed, _, alone_decodeFrame_unparsed stripped (by rw [format]; exact parsed), ?_⟩
    exact intact_of_lasting (intact_refl _ w) (lasting_posted (posted_failDecode _ _ _))
  | ok hdr =>
    have considered : Considered w payload (w.frames.read ref).kind guess := by
      refine considered.resolve_right fun nothing => ?_
      rw [nothing] at parsed
      cases parsed
    have sealed : Sealed runtime (noted w ref hdr) (openingOf payload guess (slotOf (noted w ref hdr) hdr)) :=
      fun epoch peerIndex first n key plaintext cached stepped within =>
        considered_fails forged considered cached (ratcheted_congr stepped rfl rfl) within plaintext
    have rejected : ∃ refused w', alone (decodePayload runtime ref payload guess none hdr) (noted w ref hdr) =
        some (.error refused, w') ∧ Intact runtime.guard (noted w ref hdr) w' :=
      decodePayload_fails asks current idle patient sealed
    obtain ⟨refused, w', ran, intact⟩ := rejected
    refine ⟨refused, failDecode w' (countedVars w none hdr) refused, ?_, ?_⟩
    · rw [alone_decodeFrame stripped (by rw [format]; exact parsed), resolved, ran]
      rfl
    · have later := intact_of_lasting intact (lasting_posted (posted_failDecode w' (countedVars w none hdr) refused))
      exact ⟨later.rest, later.windows, later.durable⟩

/-! ## Keys that open alike -/

/-- A key opens whatever another one with the same secrets does. -/
theorem sframeDecrypt_alike {crypto : WebCrypto K} {buf : Bytes} {key key' : SFrameKey K} {codec : KidCodec}
    {aadPrefix : Option Bytes} {aadForm : AadForm} (secret : key.cryptoKey = key'.cryptoKey)
    (salt : key.salt = key'.salt) :
    sframeDecrypt crypto buf (fun _ _ _ _ => some key) codec aadPrefix aadForm =
      sframeDecrypt crypto buf (fun _ _ _ _ => some key') codec aadPrefix aadForm := by
  simp only [sframeDecrypt, secret, salt]

/-- Derived from the same secrets, keys have the same ones, whatever epochs they are for. -/
theorem derive_alike {crypto : WebCrypto K} {rawKey salt : Bytes} {epoch epoch' peerIndex : ℤ} {suite : CipherSuite}
    {codec : KidCodec} {next next' : RatchetKey K}
    (derived : deriveNextSenderKey crypto rawKey salt epoch peerIndex suite codec = .ok next)
    (other : deriveNextSenderKey crypto rawKey salt epoch' peerIndex suite codec = .ok next') :
    next.cryptoKey = next'.cryptoKey ∧ next.salt = next'.salt ∧ next.rawKey = next'.rawKey := by
  unfold deriveNextSenderKey at derived other
  cases info : hkdfInfo sframeInfoRatchetStep peerIndex with
  | error refused => simp [info, bind, Except.bind] at derived
  | ok bytes =>
    cases encoded : codec.encode epoch peerIndex with
    | error refused => simp [info, encoded, bind, Except.bind] at derived
    | ok kid =>
      cases named : codec.encode epoch' peerIndex with
      | error refused => simp [info, named, bind, Except.bind] at other
      | ok kid' =>
        simp only [info, encoded, named, bind, Except.bind, pure, Except.pure, Except.ok.injEq] at derived other
        subst derived other
        exact ⟨rfl, rfl, rfl⟩

/-- As many steps down the chain of a key there is one set of secrets. -/
theorem ratcheted_alike {peerIndex : ℤ} {first key key' : RatchetKey K} {n : ℕ}
    (stepped : Ratcheted runtime w peerIndex first n key) (other : Ratcheted runtime w peerIndex first n key') :
    key.cryptoKey = key'.cryptoKey ∧ key.salt = key'.salt ∧ key.rawKey = key'.rawKey := by
  induction stepped generalizing key' with
  | cached =>
    cases other
    exact ⟨rfl, rfl, rfl⟩
  | step earlier derived ih =>
    cases other with
    | step earlier' derived' =>
      obtain ⟨-, salt, rawKey⟩ := ih earlier'
      rw [salt, rawKey] at derived
      exact derive_alike derived derived'

/-! ## A foreign key -/

section Checked
open Specimen (installed sealedBy keyOf stepOf)

/-- The keys that a receiver of the first two senders has. -/
theorem cachedKey_installed {epoch peerIndex : ℤ} {first : RatchetKey Bytes}
    (cached : (installed 0 1 [7, 9]).cachedKey epoch peerIndex = some first) :
    (epoch, peerIndex, first) ∈ [(0, 0, keyOf 0 0 7), (0, 1, keyOf 0 1 9)] := by
  have table : (installed 0 1 [7, 9]).epochs.entries = [(0, 0)] := by rfl
  have keys : ((installed 0 1 [7, 9]).entries.read 0).keys.entries = [(0, keyOf 0 0 7), (1, keyOf 0 1 9)] := by rfl
  obtain ⟨entry, installed, held⟩ := Option.bind_eq_some_iff.mp cached
  have epochs := OrderedMap.mem_of_lookup installed
  rw [table, List.mem_singleton, Prod.mk.injEq] at epochs
  obtain ⟨rfl, rfl⟩ := epochs
  have member := OrderedMap.mem_of_lookup held
  rw [keys] at member
  simpa using member

/-- What a window of one step reaches at such a receiver: senders, steps and keys. -/
def withinOneStep : List (ℤ × ℕ × RatchetKey Bytes) :=
  [(0, 0, keyOf 0 0 7), (0, 1, stepOf (keyOf 0 0 7)), (1, 0, keyOf 0 1 9), (1, 1, stepOf (keyOf 0 1 9))]

/-- Whatever such a receiver opens, one of these keys opens. -/
theorem opened_withinOneStep {w : Worker Bytes Unit} {epoch peerIndex : ℤ} {first key : RatchetKey Bytes} {n : ℕ}
    {buf plaintext : Bytes} {aadPrefix : Option Bytes} {aadForm : AadForm}
    (keys : w.cachedKey = (installed 0 1 [7, 9]).cachedKey)
    (suite : w.suite = defaultCipherSuite) (fixed : w.kidCodec = .fixed) (window : w.ratchetWindowSize ≤ 1)
    (cached : w.cachedKey epoch peerIndex = some first) (stepped : Ratcheted Specimen.runtime w peerIndex first n key)
    (within : n ≤ w.ratchetWindowSize) (opened : sframeDecrypt Specimen.crypto buf (fun _ _ _ _ => some key.toSFrameKey)
      w.kidCodec aadPrefix aadForm = .ok plaintext) :
    epoch = 0 ∧ ∃ reached, (peerIndex, n, reached) ∈ withinOneStep ∧
      sframeDecrypt Specimen.crypto buf (fun _ _ _ _ => some reached.toSFrameKey) .fixed aadPrefix aadForm =
        .ok plaintext := by
  have near : n = 0 ∨ n = 1 := by omega
  have reaches {reached : RatchetKey Bytes} (other : Ratcheted Specimen.runtime w peerIndex first n reached) :
      sframeDecrypt Specimen.crypto buf (fun _ _ _ _ => some reached.toSFrameKey) .fixed aadPrefix aadForm =
        .ok plaintext := by
    obtain ⟨secret, salt, -⟩ := ratcheted_alike stepped other
    rw [← fixed, ← sframeDecrypt_alike secret salt]
    exact opened
  have derives (held : ℤ × ℤ × RatchetKey Bytes) (member : held ∈ [((0 : ℤ), (0 : ℤ), keyOf 0 0 7),
    (0, 1, keyOf 0 1 9)]) :
      deriveNextSenderKey Specimen.crypto held.2.2.rawKey held.2.2.salt 0 held.2.1 defaultCipherSuite .fixed =
        .ok (stepOf held.2.2) := by
    simp only [List.mem_cons, List.not_mem_nil, or_false] at member
    rcases member with rfl | rfl <;> rfl
  rw [keys] at cached
  have member := cachedKey_installed cached
  have next := derives _ member
  rw [← suite, ← fixed] at next
  simp only [List.mem_cons, Prod.mk.injEq, List.not_mem_nil, or_false] at member
  rcases near with rfl | rfl
  · rcases member with ⟨rfl, rfl, rfl⟩ | ⟨rfl, rfl, rfl⟩ <;> exact ⟨rfl, _, by simp [withinOneStep], reaches .cached⟩
  · have stepped := reaches (Ratcheted.step .cached next)
    rcases member with ⟨rfl, rfl, rfl⟩ | ⟨rfl, rfl, rfl⟩ <;> exact ⟨rfl, _, by simp [withinOneStep], stepped⟩

/-- A receiver with a ratchet window, and a frame of its first sender sealed under a key
that is not installed. -/
def foreignFrame : Worker Bytes Unit :=
  let receiver := { installed 0 1 [7, 9] with ratchetWindowSize := 1 }
  { receiver with frames := receiver.frames.alloc { data := sealedBy (keyOf 0 0 66) 3 [1, 2, 3] } }

private theorem foreignFrame_forged :
    ¬ Authentic Specimen.runtime foreignFrame (sealedBy (keyOf 0 0 66) 3 [1, 2, 3]) none := by
  rintro ⟨guess, epoch, peerIndex, first, n, key, plaintext, considered, cached, stepped, within, opened⟩
  have uncached : cachedFormat foreignFrame (sealedBy (keyOf 0 0 66) 3 [1, 2, 3])
      (codecPrefix (sealedBy (keyOf 0 0 66) 3 [1, 2, 3]) foreignFrame.codec none) = none := by decide +kernel
  have candidate : guess ∈ formatCandidates none none := considered.resolve_right (by rw [uncached]; simp)
  have fails : ∀ guess ∈ formatCandidates none none, ∀ held ∈ withinOneStep,
      (sframeDecrypt Specimen.crypto ((sealedBy (keyOf 0 0 66) 3 [1, 2, 3]).drop guess.prefixLen)
        (fun _ _ _ _ => some held.2.2.toSFrameKey) .fixed
          (aadPrefixOf (sealedBy (keyOf 0 0 66) 3 [1, 2, 3]) guess.prefixLen)
        guess.aadForm).toOption = none := by
    decide +kernel
  obtain ⟨-, reached, member, same⟩ :=
    opened_withinOneStep (by rfl) (by rfl) (by rfl) (by decide) cached stepped within opened
  have never := fails guess candidate _ member
  rw [same] at never
  cases never

theorem forged_frame_rejected_foreign : ∃ refused w',
    alone (decodeFrame Specimen.runtime 0) foreignFrame = some (.error refused, w') ∧
      (w'.frames.read 0).data = (foreignFrame.frames.read 0).data ∧
        Intact Specimen.runtime.guard foreignFrame w' :=
  forged_frame_rejected (fun _ _ _ _ => rfl) (by decide) rfl (by decide) (by decide +kernel) foreignFrame_forged

end Checked

end SFrameRatchet.ForgedFrame
