import SFrameRatchet.SoloDecoding

/-! Opening a frame with no other call in between: what it keeps of the worker, and what it
throws. The ratchet swallows the errors of its attempts, so that a statement about an opening is
about the few updates the ratchet makes, about the error of the first attempt, and about the
errors of deriving keys. -/
namespace SFrameRatchet.SoloOpening
open Collections Crypto Kid Header SFrame CodecPartial Throwing Coroutine Media SoloDecoding

variable {K G : Type} {runtime : Runtime K G} {α β : Type}

/-! ## Errors -/

/-- What the computation throws is as said. -/
def Throws (thrown : JsError → Prop) (outcome : Except JsError α) : Prop :=
  ∀ refused, outcome = .error refused → thrown refused

section Errors
variable {thrown : JsError → Prop}

theorem throws_ok (value : α) : Throws thrown (.ok value : Except JsError α) := fun _ never => by cases never

theorem throws_error {refused : JsError} (own : thrown refused) : Throws thrown (.error refused : Except JsError α) :=
  fun _ same => by cases same; exact own

theorem throws_mono {other : JsError → Prop} {outcome : Except JsError α} (throws : Throws thrown outcome)
    (weaker : ∀ refused, thrown refused → other refused) : Throws other outcome :=
  fun refused failed => weaker refused (throws refused failed)

theorem throws_bind {outcome : Except JsError α} {rest : α → Except JsError β} (first : Throws thrown outcome)
    (second : ∀ value, Throws thrown (rest value)) : Throws thrown (outcome >>= rest) := by
  cases outcome with
  | error refused => exact throws_error (first refused rfl)
  | ok value => exact second value

/-- A check that throws, and what comes after it. -/
theorem throws_guard {fails : Prop} [Decidable fails] {refused : JsError} {rest : Unit → Except JsError α}
    (own : thrown refused) (passes : Throws thrown (rest ())) :
    Throws thrown (if fails then throw refused >>= rest else rest ()) := by
  split
  · exact throws_error own
  · exact passes

end Errors

/-- An error of a header that does not parse. -/
def Unparsed (refused : JsError) : Prop := ∃ message bufferLength, refused = .headerParse message bufferLength

theorem parseHeader_throws (buf : Bytes) : Throws Unparsed (parseHeader buf) := by
  cases buf with
  | nil => exact throws_error ⟨_, _, rfl⟩
  | cons cfg rest =>
    refine throws_bind ?_ fun kid => throws_bind ?_ fun ctr => throws_ok _
    · simp only [parseKid, readBigEndianNumber]
      split
      · split
        · exact throws_error ⟨_, _, rfl⟩
        · split
          · exact throws_error ⟨_, _, rfl⟩
          · exact throws_ok _
      · exact throws_ok _
    · simp only [parseCtr]
      split
      · split
        · exact throws_error ⟨_, _, rfl⟩
        · exact throws_ok _
      · exact throws_ok _

/-- An error of an argument out of range. -/
def OutOfRange (refused : JsError) : Prop := ∃ message, refused = .error message ∨ refused = .rangeError message

theorem encode_throws (kidCodec : KidCodec) (epoch peerIndex : ℤ) :
    Throws OutOfRange (kidCodec.encode epoch peerIndex) := by
  cases kidCodec with
  | fixed =>
    simp only [KidCodec.encode, makeKid]
    split
    · exact throws_error ⟨_, .inr rfl⟩
    · split
      · exact throws_error ⟨_, .inr rfl⟩
      · exact throws_ok _
  | mls config valid =>
    refine throws_bind ?_ fun big => throws_guard ⟨_, .inr rfl⟩ (throws_ok _)
    unfold encodeMlsKid
    rw [valid]
    exact throws_bind (throws_ok _) fun _ => throws_guard ⟨_, .inr rfl⟩
      (throws_guard ⟨_, .inr rfl⟩ (throws_guard ⟨_, .inr rfl⟩ (throws_ok _)))

theorem deriveNextSenderKey_throws (crypto : WebCrypto K) (rawKey salt : Bytes) (epoch peerIndex : ℤ)
    (suite : CipherSuite) (kidCodec : KidCodec) :
    Throws OutOfRange (deriveNextSenderKey crypto rawKey salt epoch peerIndex suite kidCodec) := by
  refine throws_bind ?_ fun info => throws_bind (encode_throws kidCodec epoch peerIndex) fun kid => throws_ok _
  simp only [hkdfInfo, peerIndexBe16]
  split
  · exact throws_error ⟨_, .inr rfl⟩
  · exact throws_ok _

/-- How opening a buffer fails. Only a tag that does not fit is reported without the
sender that the header names. -/
inductive Unopened (buf : Bytes) (kidCodec : KidCodec) : JsError → Prop where
  | unparsed (message : String) (bufferLength : ℕ) : Unopened buf kidCodec (.headerParse message bufferLength)
  | short (message : String) (hdr : SFrameHeader) (parsed : parseHeader buf = .ok hdr)
      (short : buf.length < hdr.bodyOffset + aeadTagBytes) :
      Unopened buf kidCodec (.aeadAuth message hdr.kid none none hdr.ctr)
  | unknown (message : String) (kid : Option ℕ) (epoch peerIndex : ℤ) :
      Unopened buf kidCodec (.keyNotFound message kid epoch peerIndex)
  | unsalted (message : String) : Unopened buf kidCodec (.error message)
  | refused (message : String) (hdr : SFrameHeader) (parsed : parseHeader buf = .ok hdr) :
      Unopened buf kidCodec (.aeadAuth message hdr.kid (some (kidCodec.decode hdr.kid).1)
        (some (kidCodec.decode hdr.kid).2) hdr.ctr)

theorem sframeDecrypt_throws (crypto : WebCrypto K) (buf : Bytes)
    (resolveKey : ℕ → ℤ → ℤ → ℕ → Option (SFrameKey K)) (kidCodec : KidCodec) (aadPrefix : Option Bytes)
    (aadForm : AadForm) :
    Throws (Unopened buf kidCodec) (sframeDecrypt crypto buf resolveKey kidCodec aadPrefix aadForm) := by
  unfold sframeDecrypt
  cases parsed : parseHeader buf with
  | error refused =>
    obtain ⟨message, bufferLength, rfl⟩ := parseHeader_throws buf refused parsed
    exact throws_error (.unparsed _ _)
  | ok hdr =>
    change Throws _ (if buf.length < hdr.bodyOffset + aeadTagBytes then _ else _)
    split
    · rename_i short
      exact throws_error (.short _ hdr parsed short)
    · dsimp only
      split
      · exact throws_error (.unknown _ _ _ _)
      · refine throws_bind ?_ fun iv => ?_
        · unfold deriveIv
          split
          · exact throws_error (.unsalted _)
          · exact throws_ok _
        · split
          · exact throws_ok _
          · exact throws_error (.refused _ hdr parsed)

/-! ## Openings -/

/-- With no other call in between, every state is one of this call. -/
def solo (holds : Worker K G → Prop) : Contract AwaitPoint (Worker K G) where
  assume _ w := holds w
  moves _ _ _ w := holds w

/-- What an opening keeps of the worker, and what it throws; `first` is said of the error
of its first attempt, which is thrown when there is no window. -/
structure Keeps (runtime : Runtime K G) (holds : Worker K G → Prop) (first thrown : JsError → Prop) (o : Opening) :
    Prop where
  promised : ∀ {w}, holds w → ∀ promises ratchetPromises, holds { w with promises, ratchetPromises }
  advances : ∀ {w}, holds w → ∀ entry next step, holds (advanceKey w entry o.peerIndex next step)
  retries : ∀ {w}, holds w → ∀ steps succeeded,
    holds (w.emitMetric (.ratchetRetry o.epoch o.peerIndex steps succeeded))
  attempts : ∀ {w}, holds w → Throws first
    (sframeDecrypt runtime.crypto o.buf (resolveCached w) w.kidCodec o.aadPrefix o.aadForm)
  windowless : ∀ {w}, holds w → w.ratchetWindowSize = 0 → ∀ refused, first refused → thrown refused
  derives : ∀ refused, OutOfRange refused → thrown refused
  missing : ∀ message, thrown (.keyNotFound message none o.epoch o.peerIndex)
  exhausted : ∀ message attempts, thrown (.ratchetWindowExhausted message o.epoch o.peerIndex attempts)
  stuck : thrown .operationError

/-- The part keeps what holds, and what it throws is as said. -/
abbrev Opens (holds : Worker K G → Prop) (thrown : JsError → Prop) (program : Task K G α) (at_ : AwaitPoint)
    (start w : Worker K G) : Prop :=
  Meets (solo holds) program (fun _ _ _ w => holds w) (fun _ _ refused w => holds w ∧ thrown refused) at_ start w

variable {holds : Worker K G → Prop} {first thrown : JsError → Prop} {at_ : AwaitPoint} {start w : Worker K G}

theorem opens_bind {program : Task K G α} {rest : α → Task K G β} (opens : Opens holds thrown program at_ start w)
    (onward : ∀ at_ start value w, holds w → Opens holds thrown (rest value) at_ start w) :
    Opens holds thrown (program >>= rest) at_ start w :=
  meets_bind.mpr (meets_mono opens (fun at_ start value w now => onward at_ start value w now)
    fun _ _ _ _ held => held)

theorem opens_read {rest : Worker K G → Task K G α} (next : Opens holds thrown (rest w) at_ start w) :
    Opens holds thrown (read >>= rest) at_ start w := by
  simpa only [Opens, meets_bind, meets_read] using next

theorem opens_attempt {program : Task K G α} {rest : Except JsError α → Task K G β}
    (opens : Opens holds first program at_ start w)
    (onward : ∀ at_ start outcome w, holds w → Throws first outcome → Opens holds thrown (rest outcome) at_ start w) :
    Opens holds thrown (attempt program >>= rest) at_ start w := by
  refine meets_bind.mpr (meets_attempt.mpr (meets_mono opens ?_ ?_))
  · exact fun at_ start value w now => onward at_ start (.ok value) w now (throws_ok value)
  · exact fun at_ start refused w held => onward at_ start (.error refused) w held.1 (throws_error held.2)

theorem opens_pauseUntil {site : AwaitPoint} {ready : Worker K G → Bool} (now : holds w) :
    Opens holds thrown (pauseUntil site ready) at_ start w :=
  meets_pauseUntil.mpr ⟨now, fun _ _ later => later⟩

theorem opens_pause {site : AwaitPoint} (now : holds w) : Opens holds thrown (pause site) at_ start w :=
  opens_pauseUntil now

theorem opens_settle {outcome : Except JsError α} (now : holds w) (own : Throws thrown outcome) :
    Opens holds thrown (settle outcome) at_ start w := by
  cases outcome with
  | ok value => exact now
  | error refused => exact ⟨now, own refused rfl⟩

theorem opens_update {change : Worker K G → Worker K G} (now : holds (change w)) :
    Opens holds thrown (update change) at_ start w := now

section Ratchet
variable {o : Opening} (keeps : Keeps runtime holds first thrown o) (site : RatchetPoint → AwaitPoint) (entry : Ref)

include keeps

theorem openCached_opens (sites : Bool → AwaitPoint) (now : holds w) :
    Opens holds first (openCached runtime sites o) at_ start w :=
  opens_read (opens_bind (opens_pause now) fun _ _ _ _ later => opens_settle later (keeps.attempts now))

theorem retrySteps_opens (salt : Bytes) (patience step : ℕ) (currentRaw : Bytes) (now : holds w) :
    Opens holds thrown (retrySteps runtime site o entry salt patience step currentRaw) at_ start w := by
  induction patience generalizing step currentRaw at_ start w with
  | zero => exact opens_bind (opens_pauseUntil now) fun _ _ _ _ now => ⟨now, keeps.stuck⟩
  | succ patience ih =>
    apply opens_read
    split
    · refine opens_bind (opens_pause now) fun _ _ _ _ now => ?_
      have derived := throws_mono (deriveNextSenderKey_throws runtime.crypto currentRaw salt o.epoch o.peerIndex
        w.suite w.kidCodec) keeps.derives
      refine opens_bind (opens_settle now derived) fun _ _ next w now => ?_
      refine opens_read (opens_bind (opens_pause now) fun _ _ _ _ now => ?_)
      split
      · refine opens_bind (opens_update (keeps.advances now entry next step)) fun _ _ _ _ now => ?_
        exact opens_bind (opens_update (keeps.retries now _ _)) fun _ _ _ _ now => now
      · exact ih _ _ now
    · exact opens_bind (opens_update (keeps.retries now _ _)) fun _ _ _ _ now => ⟨now, keeps.exhausted _ _⟩

theorem runRetryLoop_opens (now : holds w) : Opens holds thrown (runRetryLoop runtime site o entry) at_ start w := by
  have loop {at_ : AwaitPoint} {start w : Worker K G} (now : holds w) :
      Opens holds thrown (retryLoop runtime site o entry) at_ start w := by
    apply opens_read
    split
    · exact ⟨now, keeps.missing _⟩
    · exact retrySteps_opens keeps site entry _ _ _ _ now
  refine opens_read (opens_bind (opens_update (keeps.promised now _ _)) fun _ _ _ _ now => ?_)
  refine opens_attempt (loop now) fun _ _ outcome w now own => ?_
  refine opens_bind (opens_update (keeps.promised now _ w.ratchetPromises)) fun _ _ _ _ now => ?_
  refine opens_bind (opens_pause now) fun _ _ _ w now => ?_
  exact opens_bind (opens_update (keeps.promised now w.promises _)) fun _ _ _ _ now => opens_settle now own

omit keeps in
theorem awaitPromise_meets (place : AwaitPoint) (promise : Ref) (now : holds w) :
    Meets (solo holds) (awaitPromise place promise) (fun _ _ _ w => holds w) (fun _ _ _ w => holds w)
      at_ start w := by
  simp only [awaitPromise, meets_bind, meets_pauseUntil, meets_read]
  refine ⟨now, fun later _ now => ?_⟩
  cases later.promises.read promise <;> exact now

theorem recheckThenLoop_opens (inFlight : Option Ref) (now : holds w) :
    Opens holds thrown (recheckThenLoop runtime site o entry inFlight) at_ start w := by
  apply opens_read
  dsimp only
  split
  · exact runRetryLoop_opens keeps site entry now
  · split
    · exact runRetryLoop_opens keeps site entry now
    · -- what the other caller's promise was rejected with is dropped
      refine meets_bind.mpr (meets_attempt.mpr (meets_mono (awaitPromise_meets _ _ now) ?_ ?_))
      · exact fun _ _ _ _ now => now
      · exact fun _ _ _ _ now => runRetryLoop_opens keeps site entry now

theorem awaitInFlight_opens (promise : Ref) (now : holds w) :
    Opens holds thrown (awaitInFlight runtime site o promise) at_ start w := by
  refine meets_bind.mpr (meets_attempt.mpr (meets_mono (awaitPromise_meets _ _ now) ?_ ?_))
  · refine fun _ _ _ _ now => opens_attempt (openCached_opens keeps _ now) fun _ _ outcome _ now _ => ?_
    cases outcome <;> exact now
  · exact fun _ _ _ _ now => now

theorem tryDecryptWithRatchet_opens (now : holds w) :
    Opens holds thrown (tryDecryptWithRatchet runtime site o) at_ start w := by
  apply opens_read
  split
  · exact ⟨now, keeps.missing _⟩
  · split
    · exact ⟨now, keeps.missing _⟩
    · refine opens_attempt (openCached_opens keeps _ now) fun _ _ outcome _ now own => ?_
      cases outcome with
      | ok plaintext => exact now
      | error firstError =>
        apply opens_read
        split
        · rename_i windowless
          exact ⟨now, keeps.windowless now windowless _ (own firstError rfl)⟩
        · dsimp only
          split
          · exact recheckThenLoop_opens keeps site _ none now
          · refine opens_bind (awaitInFlight_opens keeps site _ now) fun _ _ retried _ now => ?_
            cases retried with
            | some plaintext => exact now
            | none => exact recheckThenLoop_opens keeps site _ _ now

end Ratchet

theorem durableAccept_opens (holds : Worker K G → Prop)
    (guardless : ∀ w durableReplay, holds w → holds { w with durableReplay }) (site : AwaitPoint) (slot : Slot)
    (now : holds w) :
    Opens holds thrown (durableAccept runtime site slot) at_ start w := by
  apply opens_read
  split
  · exact now
  · exact opens_bind (opens_update (guardless _ _ now)) fun _ _ _ _ now => opens_pause now

theorem openResolved_opens {held : Slot × ℕ} {payload : Bytes} {guess : FormatGuess}
    (keeps : Keeps runtime holds first thrown (openingOf payload guess held.1))
    (caches : ∀ {w}, holds w → holds (w.setFormatCache held.1.epoch held.1.peerIndex guess)) (ref : Ref)
    (probed : Option Probed) (now : holds w) :
    Opens holds thrown (openResolved runtime ref held payload guess probed) at_ start w := by
  cases probed with
  | some found => exact opens_bind (opens_update (caches now)) fun _ _ _ _ now => now
  | none =>
    refine opens_attempt (tryDecryptWithRatchet_opens keeps _ now) fun _ _ outcome _ now own => ?_
    refine opens_bind (opens_pause now) fun _ _ _ _ now => ?_
    refine opens_bind (opens_settle now own) fun _ _ opened _ now => ?_
    exact opens_bind (opens_update (caches now)) fun _ _ _ _ now => now

end SFrameRatchet.SoloOpening
