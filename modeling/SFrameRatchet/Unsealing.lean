import SFrameRatchet.Readings

/-! How a frame is opened, for any reading of the worker that lasts over the
suspensions. The search for a format and the ratchet touch keys, promises, the
durable guard and signals; what they return is an opening of the frame they were
given, under a key of the ring, unless it was taken from another caller. -/
namespace SFrameRatchet.Unsealing
open Collections Crypto Kid Header SFrame CodecPartial Throwing Coroutine Media

variable {K G : Type} {runtime : Runtime K G}

/-! ## Keys -/

/-- The worker without promises, the durable guard and signals. -/
def beyondPromises (w : Worker K G) : Worker K G :=
  { w.core with promises := default, ratchetPromises := ∅, durableReplay := none }

/-- The keys that a reading vouches for. Entries are named by the epoch they
were found under; what an entry holds and what the ratchet derives from it is
known for that epoch. -/
structure Keyring (runtime : Runtime K G) (holds : Reading K G) where
  known : ℤ → ℤ → RatchetKey K → Prop
  names : ℤ → Ref → Prop
  codecs : KidCodec → Prop
  quiet : ∀ {at_ start w w'}, holds at_ start w → beyondPromises w' = beyondPromises w → holds at_ start w'
  codec : ∀ {at_ start w}, holds at_ start w → codecs w.kidCodec
  installed : ∀ {at_ start w epoch ref}, holds at_ start w → w.epochs.get? epoch = some ref → names epoch ref
  held : ∀ {at_ start w epoch ref peerIndex key}, holds at_ start w → names epoch ref →
    (w.entries.read ref).keys.get? peerIndex = some key → known epoch peerIndex key
  derives : ∀ {at_ start w epoch peerIndex key next}, holds at_ start w → known epoch peerIndex key →
    deriveNextSenderKey runtime.crypto key.rawKey key.salt epoch peerIndex w.suite w.kidCodec = .ok next →
    known epoch peerIndex next
  advances : ∀ {at_ start w epoch ref peerIndex next}, holds at_ start w → names epoch ref →
    known epoch peerIndex next → ∀ step, holds at_ start (advanceKey w ref peerIndex next step)

/-- The worker without what opening a frame works on. -/
def beyondOpening (w : Worker K G) : Worker K G :=
  { beyondPromises w with entries := default }

/-- The reading does not depend on what opening a frame works on. -/
def Quiet (holds : Reading K G) : Prop :=
  ∀ at_ start w w', holds at_ start w → beyondOpening w' = beyondOpening w → holds at_ start w'

/-- A reading that is not about keys vouches for all of them. -/
def Keyring.any {holds : Reading K G} (quiet : Quiet holds) : Keyring runtime holds where
  known _ _ _ := True
  names _ _ := True
  codecs _ := True
  quiet now same := quiet _ _ _ _ now (by simp only [beyondOpening, same])
  codec _ := trivial
  installed _ _ := trivial
  held _ _ _ := trivial
  derives _ _ _ := trivial
  advances now _ _ _ := quiet _ _ _ _ now rfl

namespace Keyring
variable {holds : Reading K G} (ring : Keyring runtime holds)

/-- A plaintext is what a buffer opens to, under a key known for the sender that
the buffer's header names. -/
def Opened (buf : Bytes) (aadPrefix : Option Bytes) (aadForm : AadForm) (plaintext : Bytes) : Prop :=
  ∃ kidCodec hdr key, ring.codecs kidCodec ∧ parseHeader buf = .ok hdr ∧
    ring.known (kidCodec.decode hdr.kid).1 (kidCodec.decode hdr.kid).2 key ∧
    sframeDecrypt runtime.crypto buf (fun _ _ _ _ => some key.toSFrameKey) kidCodec aadPrefix aadForm =
      .ok plaintext

/-- A payload opened behind its clear prefix. -/
def OpenedFrame (payload : Bytes) (guess : FormatGuess) (plaintext : Bytes) : Prop :=
  ring.Opened (payload.drop guess.prefixLen) (aadPrefixOf payload guess.prefixLen) guess.aadForm plaintext

variable {at_ : AwaitPoint} {start w w' : Worker K G}

include ring in
theorem quiet_core (now : holds at_ start w) (same : w'.core = w.core) : holds at_ start w' :=
  ring.quiet now (by simp only [beyondPromises, same])

theorem cached (now : holds at_ start w) {epoch peerIndex : ℤ} {key : RatchetKey K}
    (cached : w.cachedKey epoch peerIndex = some key) : ring.known epoch peerIndex key := by
  obtain ⟨ref, installed, held⟩ := Option.bind_eq_some_iff.mp cached
  exact ring.held now (ring.installed now installed) held

end Keyring

/-! ## Promises of other callers -/

/-- A caller that awaited the promise which another caller had set in the
meantime finds it rejected: there is nothing to return as it is. -/
def ForeignRejected (at_ : AwaitPoint) (w : Worker K G) : Prop :=
  match at_.point with
  | .ratchet (.afterAwait promise) =>
    match w.promises.read promise with
    | .fulfilled _ => False
    | _ => True
  | _ => True

instance (at_ : AwaitPoint) (w : Worker K G) : Decidable (ForeignRejected at_ w) := by
  unfold ForeignRejected
  split
  · split <;> infer_instance
  · infer_instance

/-- A contract whose callers find such promises rejected. -/
def Unshared (contract : Contract AwaitPoint (Worker K G)) (site : RatchetPoint → AwaitPoint) : Prop :=
  ∀ promise later, contract.assume (site (.afterAwait promise)) later →
    ∀ plaintext, later.promises.read promise ≠ .fulfilled plaintext

theorem unshared_of_foreign {contract : Contract AwaitPoint (Worker K G)} {site : RatchetPoint → AwaitPoint}
    (assumes : ∀ {at_ w}, contract.assume at_ w → ForeignRejected at_ w)
    (ratchets : ∀ point, (site point).point = .ratchet point) : Unshared contract site := by
  intro promise later assumed plaintext fulfilled
  have foreign := assumes assumed
  simp only [ForeignRejected, ratchets, fulfilled] at foreign

/-! ## Opening a buffer -/

/-- Opening a buffer fixes the header, and the key the resolver gave for it. -/
theorem decrypt_resolves {crypto : WebCrypto K} {buf plaintext : Bytes}
    {resolveKey : ℕ → ℤ → ℤ → ℕ → Option (SFrameKey K)} {codec : KidCodec}
    {aadPrefix : Option Bytes} {aadForm : AadForm}
    (opened : sframeDecrypt crypto buf resolveKey codec aadPrefix aadForm = .ok plaintext) :
    ∃ hdr key, parseHeader buf = .ok hdr ∧
      resolveKey hdr.kid (codec.decode hdr.kid).1 (codec.decode hdr.kid).2 hdr.ctr = some key ∧
      sframeDecrypt crypto buf (fun _ _ _ _ => some key) codec aadPrefix aadForm = .ok plaintext := by
  cases parsed : parseHeader buf with
  | error refused => simp [sframeDecrypt, parsed, bind, Except.bind] at opened
  | ok hdr =>
    cases resolved : resolveKey hdr.kid (codec.decode hdr.kid).1 (codec.decode hdr.kid).2 hdr.ctr with
    | none =>
      simp only [sframeDecrypt, parsed, bind, Except.bind, resolved] at opened
      split at opened <;> cases opened
    | some key =>
      refine ⟨hdr, key, rfl, resolved, ?_⟩
      simpa only [sframeDecrypt, parsed, bind, Except.bind, resolved] using opened

theorem next_salt {crypto : WebCrypto K} {rawKey salt : Bytes} {epoch peerIndex : ℤ}
    {suite : CipherSuite} {codec : KidCodec} {next : RatchetKey K}
    (derived : deriveNextSenderKey crypto rawKey salt epoch peerIndex suite codec = .ok next) :
    next.salt = salt := by
  unfold deriveNextSenderKey at derived
  cases info : hkdfInfo sframeInfoRatchetStep peerIndex with
  | error refused => simp [info, bind, Except.bind] at derived
  | ok bytes =>
    cases encoded : codec.encode epoch peerIndex with
    | error refused => simp [info, encoded, bind, Except.bind] at derived
    | ok kid =>
      simp only [info, encoded, bind, Except.bind, pure, Except.pure, Except.ok.injEq] at derived
      rw [← derived]

section Opened
variable {holds : Reading K G} {ring : Keyring runtime holds} {at_ : AwaitPoint} {start w : Worker K G}
  {o : Opening} {plaintext : Bytes}

theorem opened_of_resolved (codec : ring.codecs w.kidCodec) {resolveKey : ℕ → ℤ → ℤ → ℕ → Option (SFrameKey K)}
    (resolves : ∀ kid epoch peerIndex ctr key, resolveKey kid epoch peerIndex ctr = some key →
      ∃ full, ring.known epoch peerIndex full ∧ full.toSFrameKey = key)
    (opened : sframeDecrypt runtime.crypto o.buf resolveKey w.kidCodec o.aadPrefix o.aadForm = .ok plaintext) :
    ring.Opened o.buf o.aadPrefix o.aadForm plaintext := by
  obtain ⟨hdr, key, parsed, resolved, under⟩ := decrypt_resolves opened
  obtain ⟨full, known, rfl⟩ := resolves _ _ _ _ _ resolved
  exact ⟨w.kidCodec, hdr, full, codec, parsed, known, under⟩

/-- With the key cached now. -/
theorem opened_of_cached (now : holds at_ start w)
    (opened : sframeDecrypt runtime.crypto o.buf (resolveCached w) w.kidCodec o.aadPrefix o.aadForm =
      .ok plaintext) : ring.Opened o.buf o.aadPrefix o.aadForm plaintext := by
  refine opened_of_resolved (ring.codec now) (fun kid epoch peerIndex ctr key resolved => ?_) opened
  obtain ⟨full, cached, rfl⟩ := Option.map_eq_some_iff.mp resolved
  exact ⟨full, ring.cached now cached, rfl⟩

/-- With a key the retry loop has derived. -/
theorem opened_of_next (now : holds at_ start w) {next : RatchetKey K}
    (known : ring.known o.epoch o.peerIndex next)
    (opened : sframeDecrypt runtime.crypto o.buf (resolveNext w next o.epoch o.peerIndex) w.kidCodec
      o.aadPrefix o.aadForm = .ok plaintext) : ring.Opened o.buf o.aadPrefix o.aadForm plaintext := by
  refine opened_of_resolved (ring.codec now) (fun kid epoch peerIndex ctr key resolved => ?_) opened
  unfold resolveNext at resolved
  split at resolved
  · rename_i same
    obtain ⟨rfl, rfl⟩ := same
    exact ⟨next, known, Option.some.inj resolved⟩
  · obtain ⟨full, cached, rfl⟩ := Option.map_eq_some_iff.mp resolved
    exact ⟨full, ring.cached now cached, rfl⟩

end Opened

/-! ## Formats -/

section Walk
variable {contract : Contract AwaitPoint (Worker K G)} {holds : Reading K G} (ring : Keyring runtime holds)
  {at_ : AwaitPoint} {start w : Worker K G}

theorem probeAttempt_opened (now : holds at_ start w) {payload plaintext : Bytes} {guess : FormatGuess}
    {hdr : SFrameHeader} {epoch peerIndex : ℤ}
    (attempted : probeAttempt runtime w payload guess = some (hdr, epoch, peerIndex, .ok plaintext)) :
    ring.OpenedFrame payload guess plaintext := by
  unfold probeAttempt at attempted
  cases parsed : parseHeader (payload.drop guess.prefixLen) with
  | error refused => simp [parsed] at attempted
  | ok found =>
    simp only [parsed] at attempted
    split at attempted
    · cases attempted
    · split at attempted
      · cases attempted
      · rename_i key cached
        obtain ⟨rfl, rfl, rfl, opened⟩ := by
          simpa only [Option.some.injEq, Prod.mk.injEq] using attempted
        exact ⟨w.kidCodec, found, key, ring.codec now, parsed, ring.cached now cached, opened⟩

theorem probeFormat_yields (frame : Ref) (payload : Bytes)
    (survives : Survives contract holds { point := .probe, frame := some frame, payload := some payload })
    (candidates : List FormatGuess) (now : holds at_ start w) :
    Yields contract holds (probeFormat runtime frame payload candidates)
      (fun probed => ∀ found, probed = some found → ring.OpenedFrame payload found.guess found.plaintext)
      at_ start w := by
  induction candidates generalizing at_ start w with
  | nil => exact ⟨now, fun _ same => by cases same⟩
  | cons guess rest ih =>
    apply yields_read
    split
    · exact ih now
    · rename_i hdr epoch peerIndex opened attempted
      refine yields_bind (yields_pause survives now) fun _ _ _ _ later _ => ?_
      cases opened with
      | ok plaintext =>
        refine ⟨later, fun found same => ?_⟩
        cases same
        exact probeAttempt_opened ring now attempted
      | error refused => exact ih later

theorem resolveFormat_yields (frame : Ref) (payload : Bytes) (codec : Option Codec) (frameKind : Option FrameKind)
    (probes : Survives contract holds { point := .probe, frame := some frame, payload := some payload })
    (probed : Survives contract holds { point := .probed, frame := some frame, payload := some payload })
    (now : holds at_ start w) :
    Yields contract holds (resolveFormat runtime frame payload codec frameKind)
      (fun resolved => ∀ found, resolved.2 = some found →
        ring.OpenedFrame payload resolved.1 found.plaintext) at_ start w := by
  apply yields_read
  dsimp only
  split
  · exact ⟨now, fun _ same => by cases same⟩
  · refine yields_bind (probeFormat_yields ring frame payload probes _ now) fun _ _ outcome _ now own => ?_
    refine yields_bind (yields_pause probed now) fun _ _ _ _ now _ => ?_
    cases outcome with
    | none => exact ⟨now, fun _ same => by cases same⟩
    | some found =>
      refine ⟨now, fun other same => ?_⟩
      cases same
      exact own _ rfl

/-! ## The ratchet -/

theorem openCached_yields {sites : Bool → AwaitPoint} (survives : ∀ answer, Survives contract holds (sites answer))
    (o : Opening) (now : holds at_ start w) :
    Yields contract holds (openCached runtime sites o)
      (fun plaintext => ring.Opened o.buf o.aadPrefix o.aadForm plaintext) at_ start w :=
  yields_read (yields_bind (yields_pause (survives _) now) fun _ _ _ _ later _ =>
    yields_settle later fun _ opened => opened_of_cached now opened)

variable {site : RatchetPoint → AwaitPoint} (survives : ∀ point, Survives contract holds (site point))

include survives

theorem retrySteps_yields (o : Opening) {entry : Ref} (named : ring.names o.epoch entry) {salt : Bytes}
    (patience step : ℕ) {key : RatchetKey K} (same : key.salt = salt)
    (known : ring.known o.epoch o.peerIndex key) (now : holds at_ start w) :
    Yields contract holds (retrySteps runtime site o entry salt patience step key.rawKey)
      (fun plaintext => ring.Opened o.buf o.aadPrefix o.aadForm plaintext) at_ start w := by
  induction patience generalizing step key at_ start w with
  | zero => exact yields_bind (yields_pauseUntil (survives _) _ now) fun _ _ _ _ now _ => now
  | succ patience ih =>
    subst same
    apply yields_read
    split
    · refine yields_bind (yields_pause (survives _) now) fun _ _ _ _ resumed _ => ?_
      refine yields_bind (yields_mono (yields_settle resumed fun _ derived => derived) fun next derived =>
        (⟨next_salt derived, ring.derives now known derived⟩ :
          next.salt = key.salt ∧ ring.known o.epoch o.peerIndex next)) ?_
      rintro _ _ next w current ⟨salt, further⟩
      refine yields_read (yields_bind (yields_pause (survives _) current) fun _ _ _ later now _ => ?_)
      split
      · rename_i plaintext opened
        refine yields_bind (yields_update (ring.advances now named further step)) fun _ _ _ _ now _ => ?_
        apply yields_bind (yields_update (ring.quiet_core now (Worker.core_emitMetric _ _)))
        exact fun _ _ _ _ now _ => ⟨now, opened_of_next current further opened⟩
      · exact ih _ salt further now
    · apply yields_bind (yields_update (ring.quiet_core now (Worker.core_emitMetric _ _)))
      exact fun _ _ _ _ now _ => now

theorem retryLoop_yields (o : Opening) {entry : Ref} (named : ring.names o.epoch entry)
    (now : holds at_ start w) :
    Yields contract holds (retryLoop runtime site o entry)
      (fun plaintext => ring.Opened o.buf o.aadPrefix o.aadForm plaintext) at_ start w := by
  apply yields_read
  split
  · exact now
  · rename_i key found
    exact retrySteps_yields ring survives o named _ _ rfl (ring.held now named found) now

theorem runRetryLoop_yields (o : Opening) {entry : Ref} (named : ring.names o.epoch entry)
    (now : holds at_ start w) :
    Yields contract holds (runRetryLoop runtime site o entry)
      (fun plaintext => ring.Opened o.buf o.aadPrefix o.aadForm plaintext) at_ start w := by
  refine yields_read (yields_bind (yields_update (ring.quiet now rfl)) fun _ _ _ w now _ => ?_)
  refine yields_bind (yields_attempt (retryLoop_yields ring survives o named now)) fun _ _ outcome _ now own => ?_
  refine yields_bind (yields_update (ring.quiet now rfl)) fun _ _ _ _ now _ => ?_
  refine yields_bind (yields_pause (survives _) now) fun _ _ _ _ now _ => ?_
  exact yields_bind (yields_update (ring.quiet now rfl)) fun _ _ _ _ now _ => yields_settle now own

/-- A promise in flight is only waited for: what it resolves to is dropped. -/
theorem awaitInFlight_yields (o : Opening) (promise : Ref) (now : holds at_ start w) :
    Yields contract holds (awaitInFlight runtime site o promise)
      (fun retried => ∀ plaintext, retried = some plaintext →
        ring.Opened o.buf o.aadPrefix o.aadForm plaintext) at_ start w := by
  have settles : Yields contract holds
      (awaitPromise (site (.inFlight (o.epoch, o.peerIndex) promise)) promise) (fun _ => True) at_ start w := by
    refine yields_bind (yields_pauseUntil (survives _) _ now) fun _ _ _ w now _ => yields_read ?_
    cases w.promises.read promise with
    | pending => exact now
    | fulfilled plaintext => exact ⟨now, trivial⟩
    | rejected reason => exact now
  refine yields_bind (yields_attempt settles) fun _ _ outcome _ now _ => ?_
  cases outcome with
  | error reason => exact ⟨now, fun _ same => by cases same⟩
  | ok other =>
    refine yields_bind (yields_attempt (openCached_yields ring (fun _ => survives _) o now)) ?_
    intro _ _ retried _ now own
    cases retried with
    | ok plaintext =>
      refine ⟨now, fun other same => ?_⟩
      cases same
      exact own _ rfl
    | error refused => exact ⟨now, fun _ same => by cases same⟩

/-- A promise set in the meantime is returned from, unless it is rejected. -/
theorem recheckThenLoop_yields (o : Opening) {entry : Ref} (named : ring.names o.epoch entry)
    (inFlight : Option Ref) (now : holds at_ start w) :
    Yields contract holds (recheckThenLoop runtime site o entry inFlight)
      (fun plaintext => Unshared contract site → ring.Opened o.buf o.aadPrefix o.aadForm plaintext)
      at_ start w := by
  have loop {at_ : AwaitPoint} {start w : Worker K G} (now : holds at_ start w) :
      Yields contract holds (runRetryLoop runtime site o entry)
        (fun plaintext => Unshared contract site → ring.Opened o.buf o.aadPrefix o.aadForm plaintext)
        at_ start w :=
    yields_mono (runRetryLoop_yields ring survives o named now) fun _ own _ => own
  apply yields_read
  dsimp only
  split
  · exact loop now
  · rename_i promise found
    split
    · exact loop now
    · have foreign : Yields contract holds (awaitPromise (site (.afterAwait promise)) promise)
          (fun _ => ¬ Unshared contract site) at_ start w := by
        simp only [Yields, awaitPromise, meets_bind, meets_pauseUntil, meets_read]
        obtain ⟨allowed, resumes⟩ := survives (.afterAwait promise) at_ start w now
        refine ⟨allowed, fun later _ assumed => ?_⟩
        cases held : later.promises.read promise with
        | pending => exact resumes later assumed
        | rejected reason => exact resumes later assumed
        | fulfilled plaintext =>
          exact ⟨resumes later assumed, fun unshared => unshared promise later assumed plaintext held⟩
      refine yields_bind (yields_attempt foreign) fun _ _ outcome _ now shared => ?_
      cases outcome with
      | ok plaintext => exact ⟨now, fun unshared => absurd unshared (shared plaintext rfl)⟩
      | error reason => exact loop now

/-- **The caller's own plaintext.** Whatever `tryDecryptWithRatchet` returns is
an opening of the buffer it was given, or another caller's fulfilled promise. -/
theorem tryDecryptWithRatchet_yields (o : Opening) (now : holds at_ start w) :
    Yields contract holds (tryDecryptWithRatchet runtime site o)
      (fun plaintext => Unshared contract site → ring.Opened o.buf o.aadPrefix o.aadForm plaintext)
      at_ start w := by
  apply yields_read
  split
  · exact now
  · rename_i entry installed
    have named := ring.installed now installed
    split
    · exact now
    · refine yields_bind (yields_attempt (openCached_yields ring (fun _ => survives _) o now)) ?_
      intro _ _ outcome _ now own
      cases outcome with
      | ok plaintext => exact ⟨now, fun _ => own plaintext rfl⟩
      | error firstError =>
        apply yields_read
        split
        · exact now
        · dsimp only
          split
          · exact recheckThenLoop_yields ring survives o named none now
          · rename_i promise flying
            refine yields_bind (awaitInFlight_yields ring survives o promise now) fun _ _ retried _ now own => ?_
            cases retried with
            | some plaintext => exact ⟨now, fun _ => own plaintext rfl⟩
            | none => exact recheckThenLoop_yields ring survives o named _ now

end Walk

/-! ## The gates and the opening of one frame -/

section Gates
variable {contract : Contract AwaitPoint (Worker K G)} {holds : Reading K G} (ring : Keyring runtime holds)
  {at_ : AwaitPoint} {start w : Worker K G}

/-- The worker without its replay windows and what they have noted. -/
def beyondReplay (w : Worker K G) : Worker K G :=
  { w with replayWindows := ∅, nextWindow := 0, checked := [], accepted := [] }

/-- The reading does not depend on the replay windows. -/
def Windowless (holds : Reading K G) : Prop :=
  ∀ at_ start w w', holds at_ start w → beyondReplay w' = beyondReplay w → holds at_ start w'

theorem Windowless.unchecked (windowless : Windowless holds) : Unchecked holds := fun _ _ w w' now same =>
  windowless _ _ w w' now (congrArg beyondReplay same : beyondReplay (beyondChecks w') = beyondReplay (beyondChecks w))

theorem Windowless.accepts (windowless : Windowless holds) (now : holds at_ start w) (slot : Slot)
    (object frame : ℕ) : holds at_ start (w.acceptReplay slot object frame) := by
  obtain ⟨windows, accepted⟩ := Worker.acceptReplay_eq w slot object frame
  exact windowless _ _ _ _ now (by rw [accepted]; rfl)

include ring

theorem Keyring.guardless : Guardless holds := fun _ _ _ _ now => ring.quiet now rfl

theorem openResolved_yields (frame : Ref) (held : Slot × ℕ) (payload : Bytes) (guess : FormatGuess)
    (probed : Option Probed)
    (survives : ∀ point, Survives contract holds
      { point := .ratchet point, frame := some frame, payload := some payload, slot := some held })
    (now : holds at_ start w) :
    Yields contract holds (openResolved runtime frame held payload guess probed)
      (fun opened => (∀ found, probed = some found → ring.OpenedFrame payload guess found.plaintext) →
        Unshared contract (fun point =>
          { point := .ratchet point, frame := some frame, payload := some payload, slot := some held }) →
        ring.OpenedFrame payload guess opened) at_ start w := by
  cases probed with
  | some found =>
    exact yields_bind (yields_update (ring.quiet_core now (Worker.core_setFormatCache _ _ _ _)))
      fun _ _ _ _ now _ => ⟨now, fun own _ => own found rfl⟩
  | none =>
    apply yields_bind (yields_attempt (tryDecryptWithRatchet_yields ring survives _ now))
    intro _ _ outcome _ now opens
    refine yields_bind (yields_pause (survives _) now) fun _ _ _ _ now _ => ?_
    refine yields_bind (yields_settle now opens) fun _ _ opened _ now opens => ?_
    exact yields_bind (yields_update (ring.quiet_core now (Worker.core_setFormatCache _ _ _ _)))
      fun _ _ _ _ now _ => ⟨now, fun _ => opens⟩

/-- The worker in which a frame has got its decrypted bytes. -/
def deliver (w : Worker K G) (slot : Slot) (frame : Ref) (data : Bytes) : Worker K G :=
  { w with
    frames := w.frames.write frame { w.frames.read frame with data }
    delivered := w.delivered ++ [(slot, frame)] }

/-- Accepting a frame keeps a reading up to the delivery. -/
theorem acceptFrame_delivers (frame : Ref) (held : Slot × ℕ) (payload : Bytes) (guess : FormatGuess) (opened : Bytes)
    (survives : Survives contract holds
      { point := .durableAccept, frame := some frame, payload := some payload })
    (noted : holds at_ start (w.acceptReplay held.1 held.2 frame)) :
    Meets contract (acceptFrame runtime frame held payload guess opened)
      (fun at_ start _ w => ∃ v, holds at_ start v ∧
        w.core = (deliver v held.1 frame (payload.take guess.prefixLen ++ opened)).core)
      (fun at_ start _ w => holds at_ start w) at_ start w := by
  refine meets_after (yields_update noted) (fun _ _ _ _ now _ => ?_) fun _ _ _ _ now => now
  refine meets_after (durableAccept_yields ring.guardless survives held.1 now)
    (fun _ _ _ w now _ => ?_) fun _ _ _ _ now => now
  simp only [meets_bind, meets_update]
  refine ⟨_, ring.quiet_core now (Worker.core_recordSuccess w held.1.epoch held.1.peerIndex), ?_⟩
  rw [Worker.core_clearStarve]
  rfl

/-- The sites inside decoding and draining, without those of the encoder and the pipes. -/
def Within (site : AwaitPoint) : Prop :=
  match site.point with
  | .seal | .encoded _ | .decoded _ => False
  | _ => True

/-- The reading survives wherever a frame waits to be opened. -/
def SurvivesOpening (contract : Contract AwaitPoint (Worker K G)) (holds : Reading K G) (frame : Ref)
    (payload : Bytes) : Prop :=
  ∀ site, site.frame = some frame → site.payload = some payload → Within site → Survives contract holds site

/-- A drop is reported to the main thread and thrown. -/
private theorem report_yields {report : Worker K G → Worker K G} (now : holds at_ start w)
    (same : (report w).core = w.core) (refused : JsError) {α : Type}
    {returns : AwaitPoint → Worker K G → α → Worker K G → Prop} :
    Meets contract (do update report; throw refused : Task K G α) returns (fun at_ start _ w => holds at_ start w)
      at_ start w := by
  simp only [meets_bind, meets_update, meets_throw]
  exact ring.quiet_core now same

/-- What has been opened of a frame is an opening of its payload, when what the probe
found is one and no promise of another caller is taken for it. -/
def Keyring.OpensFrame (contract : Contract AwaitPoint (Worker K G)) (frame : Ref) (payload : Bytes)
    (guess : FormatGuess) (probed : Option Probed) (opened : Bytes) : Prop :=
  (∀ found, probed = some found → ring.OpenedFrame payload guess found.plaintext) →
    (∀ held, Unshared contract fun point =>
      { point := .ratchet point, frame := some frame, payload := some payload, slot := some held }) →
    ring.OpenedFrame payload guess opened

/-- **How a decoded frame ends.** It is parked or delivered by a step from a
state of the reading, which accepting what was opened keeps, and what is delivered is
an opening of its payload. -/
theorem decodePayload_accepts (unchecked : Unchecked holds) (frame : Ref) (payload : Bytes)
    (guess : FormatGuess) (probed : Option Probed) (hdr : SFrameHeader)
    (accepts : ∀ at_ start w slot object opened, holds at_ start w →
      ring.OpensFrame contract frame payload guess probed opened → holds at_ start (w.acceptReplay slot object frame))
    (survives : SurvivesOpening contract holds frame payload) (now : holds at_ start w) :
    Meets contract (decodePayload runtime frame payload guess probed hdr)
      (fun at_ start path w => match path with
        | .passedThrough => False
        | .parked => ∃ v peerIndex, holds at_ start v ∧ w = v.pushToQueue frame peerIndex
        | .opened format opened => format = guess ∧ ring.OpensFrame contract frame payload guess probed opened ∧
          ∃ v slot, holds at_ start v ∧
            w.core = (deliver v slot frame (payload.take guess.prefixLen ++ opened)).core)
      (fun at_ start _ w => holds at_ start w) at_ start w := by
  have thrown : ∀ at_ start (error : JsError) w, holds at_ start w → holds at_ start w := fun _ _ _ _ now => now
  simp only [decodePayload, meets_bind, meets_read]
  split
  · exact report_yields ring now (by simp) _
  · split
    · simp only [meets_bind, meets_update, meets_pure]
      exact ⟨w, _, now, rfl⟩
    · refine meets_after (checkReplay_yields unchecked _ now) (fun _ _ object _ now _ => ?_) thrown
      cases object with
      | none => exact report_yields ring now (by simp) _
      | some object =>
        refine meets_after (durableCheck_yields ring.guardless (survives _ rfl rfl (by simp [Within])) _ now)
          (fun _ _ answer _ now _ => ?_) thrown
        split
        · exact report_yields ring now (by simp) _
        · simp only [meets_bind, meets_read]
          split
          · exact report_yields ring now (by simp) _
          · refine meets_after (openResolved_yields ring frame _ payload guess probed
              (fun _ => survives _ rfl rfl (by simp [Within])) now) (fun _ _ opened _ now opens => ?_) thrown
            have own : ring.OpensFrame contract frame payload guess probed opened :=
              fun own unshared => opens own (unshared _)
            refine meets_bind.mpr (meets_mono (acceptFrame_delivers ring frame _ payload guess opened
              (survives _ rfl rfl (by simp [Within])) (accepts _ _ _ _ _ _ now own)) ?_ thrown)
            rintro _ _ - w ⟨v, now, delivered⟩
            simp only [meets_bind, meets_update, meets_pure]
            exact ⟨trivial, own, v, _, now, (Worker.core_emitMetric w _).trans delivered⟩

/-- The same, for readings that are not about replays. -/
theorem decodePayload_ends (windowless : Windowless holds) (frame : Ref) (payload : Bytes)
    (guess : FormatGuess) (probed : Option Probed) (hdr : SFrameHeader)
    (survives : SurvivesOpening contract holds frame payload) (now : holds at_ start w) :
    Meets contract (decodePayload runtime frame payload guess probed hdr)
      (fun at_ start path w => match path with
        | .passedThrough => False
        | .parked => ∃ v peerIndex, holds at_ start v ∧ w = v.pushToQueue frame peerIndex
        | .opened format opened => format = guess ∧ ring.OpensFrame contract frame payload guess probed opened ∧
          ∃ v slot, holds at_ start v ∧
            w.core = (deliver v slot frame (payload.take guess.prefixLen ++ opened)).core)
      (fun at_ start _ w => holds at_ start w) at_ start w :=
  decodePayload_accepts ring windowless.unchecked frame payload guess probed hdr
    (fun _ _ _ slot object _ now _ => windowless.accepts now slot object frame) survives now

end Gates
end SFrameRatchet.Unsealing
