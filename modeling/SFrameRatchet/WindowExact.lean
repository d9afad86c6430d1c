import SFrameRatchet.RatchetCursor
import SFrameRatchet.SoloDecoding

/-! How far the ratchet reaches. A buffer is tried with the cached key and then
with as many further keys as the window has steps; a call that runs alone
returns what the first key that opens the buffer gives, and leaves that key in
the entry. -/
namespace SFrameRatchet.WindowExact
open Collections Crypto Kid Header SFrame Throwing Coroutine Media RatchetCursor Unsealing

variable {K G : Type} (runtime : Runtime K G)

/-- What a buffer opens to under one key. -/
def opening (w : Worker K G) (o : Opening) (key : RatchetKey K) : Except JsError Bytes :=
  sframeDecrypt runtime.crypto o.buf (fun _ _ _ _ => some key.toSFrameKey) w.kidCodec o.aadPrefix o.aadForm

/-- The key some steps down from the cached one. -/
def further (w : Worker K G) (o : Opening) (cached : RatchetKey K) (n : ℕ) : Except JsError (RatchetKey K) :=
  keyAt runtime w.suite w.kidCodec o.epoch o.peerIndex cached n

/-- The key some steps down opens the buffer. -/
def OpensAt (w : Worker K G) (o : Opening) (cached : RatchetKey K) (n : ℕ) (plaintext : Bytes) : Prop :=
  ∃ key, further runtime w o cached n = .ok key ∧ opening runtime w o key = .ok plaintext

/-- The buffer's header names the sender it is opened for. -/
def Named (w : Worker K G) (o : Opening) : Prop :=
  ∃ hdr, parseHeader o.buf = .ok hdr ∧ w.kidCodec.decode hdr.kid = (o.epoch, o.peerIndex)

/-- A worker without the promises and what it has posted. -/
def beyondSearch (w : Worker K G) : Worker K G :=
  { w with promises := default, ratchetPromises := ∅, emitted := [] }

variable {runtime} {w w' v : Worker K G} {o : Opening} {cached : RatchetKey K} {plaintext : Bytes}

/-! ## Keys -/

theorem keyAt_add {suite : CipherSuite} {kidCodec : KidCodec} {epoch peerIndex : ℤ} {first middle : RatchetKey K}
    {n : ℕ} (reached : keyAt runtime suite kidCodec epoch peerIndex first n = .ok middle) (more : ℕ) :
    keyAt runtime suite kidCodec epoch peerIndex first (n + more) =
      keyAt runtime suite kidCodec epoch peerIndex middle more := by
  induction more with
  | zero => exact reached
  | succ more ih => rw [Nat.add_succ, keyAt, keyAt, ih]

theorem keyAt_salt {suite : CipherSuite} {kidCodec : KidCodec} {epoch peerIndex : ℤ} {first key : RatchetKey K} {n : ℕ}
    (reached : keyAt runtime suite kidCodec epoch peerIndex first n = .ok key) : key.salt = first.salt := by
  induction n generalizing key with
  | zero =>
    obtain rfl := Except.ok.inj reached
    rfl
  | succ n ih =>
    unfold keyAt at reached
    cases earlier : keyAt runtime suite kidCodec epoch peerIndex first n with
    | error refused => simp [earlier, bind, Except.bind] at reached
    | ok middle =>
      simp only [earlier, bind, Except.bind] at reached
      exact (next_salt reached).trans (ih earlier)

theorem keyAt_earlier {suite : CipherSuite} {kidCodec : KidCodec} {epoch peerIndex : ℤ} {first key : RatchetKey K}
    {n earlier : ℕ} (reached : keyAt runtime suite kidCodec epoch peerIndex first n = .ok key) (before : earlier ≤ n) :
    ∃ middle, keyAt runtime suite kidCodec epoch peerIndex first earlier = .ok middle := by
  induction n generalizing key with
  | zero =>
    obtain rfl : earlier = 0 := by omega
    exact ⟨key, reached⟩
  | succ n ih =>
    rcases Nat.lt_or_eq_of_le before with inside | rfl
    · unfold keyAt at reached
      cases last : keyAt runtime suite kidCodec epoch peerIndex first n with
      | error refused => simp [last, bind, Except.bind] at reached
      | ok middle => exact ih last (by omega)
    · exact ⟨key, reached⟩

/-- Whether the next key can be derived depends on the sender alone. -/
theorem keyAt_kid {suite : CipherSuite} {kidCodec : KidCodec} {epoch peerIndex : ℤ} {first key : RatchetKey K} {n : ℕ}
    (own : kidCodec.encode epoch peerIndex = .ok first.kid)
    (reached : keyAt runtime suite kidCodec epoch peerIndex first n = .ok key) : key.kid = first.kid := by
  cases n with
  | zero =>
    obtain rfl := Except.ok.inj reached
    rfl
  | succ n =>
    unfold keyAt at reached
    cases earlier : keyAt runtime suite kidCodec epoch peerIndex first n with
    | error refused => simp [earlier, bind, Except.bind] at reached
    | ok middle =>
      simp only [earlier, bind, Except.bind, deriveNextSenderKey, own] at reached
      cases info : hkdfInfo sframeInfoRatchetStep peerIndex with
      | error refused => simp [info] at reached
      | ok bytes =>
        simp only [info, pure, Except.pure, Except.ok.injEq] at reached
        rw [← reached]

/-! ## One attempt -/

theorem decrypt_named (named : Named w o) {resolveKey : ℕ → ℤ → ℤ → ℕ → Option (SFrameKey K)} {key : RatchetKey K}
    (resolves : ∀ kid ctr, resolveKey kid o.epoch o.peerIndex ctr = some key.toSFrameKey) :
    sframeDecrypt runtime.crypto o.buf resolveKey w.kidCodec o.aadPrefix o.aadForm = opening runtime w o key := by
  obtain ⟨hdr, parsed, sender⟩ := named
  simp only [opening, sframeDecrypt, parsed, bind, Except.bind, sender, resolves]

theorem decrypt_cached (named : Named w o) (held : w.cachedKey o.epoch o.peerIndex = some cached) :
    sframeDecrypt runtime.crypto o.buf (resolveCached w) w.kidCodec o.aadPrefix o.aadForm =
      opening runtime w o cached := by
  apply decrypt_named named
  intro kid ctr
  simp only [resolveCached, held, Option.map_some]

theorem decrypt_next (named : Named w o) (next : RatchetKey K) :
    sframeDecrypt runtime.crypto o.buf (resolveNext w next o.epoch o.peerIndex) w.kidCodec o.aadPrefix o.aadForm =
      opening runtime w o next := by
  apply decrypt_named named
  intro kid ctr
  simp only [resolveNext, and_self, ↓reduceIte]

/-! ## The search -/

section Search
variable (site : RatchetPoint → AwaitPoint) (entry : Ref) (named : Named w o)

include named

/-- One round of the loop. -/
theorem retrySteps_round (patience done : ℕ) {current : RatchetKey K}
    (here : further runtime w o cached done = .ok current) (more : done + 1 ≤ w.ratchetWindowSize) :
    alone (retrySteps runtime site o entry cached.salt (patience + 1) (done + 1) current.rawKey) w =
      match further runtime w o cached (done + 1) with
      | .error refused => some (.error refused, w)
      | .ok next => match opening runtime w o next with
        | .ok plaintext => some (.ok plaintext, (advanceKey w entry o.peerIndex next (done + 1)).emitMetric
            (.ratchetRetry o.epoch o.peerIndex (done + 1) true))
        | .error _ => alone (retrySteps runtime site o entry cached.salt patience (done + 1 + 1) next.rawKey) w := by
  have salt : cached.salt = current.salt := (keyAt_salt here).symm
  have chain : further runtime w o cached (done + 1) = deriveNextSenderKey runtime.crypto current.rawKey
      cached.salt o.epoch o.peerIndex w.suite w.kidCodec := by
    unfold further at here ⊢
    simp only [keyAt, here, bind, Except.bind, salt]
  simp only [retrySteps, alone_bind, alone_read, Option.bind_some, if_pos more, alone_pause, alone_settle, ← chain]
  cases further runtime w o cached (done + 1) with
  | error refused => rfl
  | ok next =>
    simp only [decrypt_next named]
    cases opening runtime w o next with
    | error refused => rfl
    | ok plaintext => rfl

/-- The loop stops at the first key that opens the buffer. -/
theorem retrySteps_finds {last : RatchetKey K} {step : ℕ} (reached : further runtime w o cached step = .ok last)
    (opens : opening runtime w o last = .ok plaintext) (within : step ≤ w.ratchetWindowSize) (patience done : ℕ)
    {current : RatchetKey K} (here : further runtime w o cached done = .ok current) (before : done < step)
    (patient : step ≤ patience + done)
    (first : ∀ n, done < n → n < step → ∀ other, ¬ OpensAt runtime w o cached n other) :
    alone (retrySteps runtime site o entry cached.salt patience (done + 1) current.rawKey) w =
      some (.ok plaintext,
        (advanceKey w entry o.peerIndex last step).emitMetric (.ratchetRetry o.epoch o.peerIndex step true)) := by
  induction patience generalizing done current with
  | zero => omega
  | succ patience ih =>
    obtain ⟨next, derived⟩ := keyAt_earlier reached (show done + 1 ≤ step by omega)
    rw [retrySteps_round site entry named patience done here (by omega), show further runtime w o cached (done + 1) =
      .ok next from derived]
    dsimp only
    rcases Nat.lt_or_eq_of_le (show done + 1 ≤ step by omega) with inside | rfl
    · cases opened : opening runtime w o next with
      | ok other => exact absurd ⟨next, derived, opened⟩ (first (done + 1) (by omega) inside other)
      | error refused =>
        exact ih (done + 1) derived inside (by omega) fun n after => first n (by omega)
    · obtain rfl : next = last := Except.ok.inj (derived.symm.trans reached)
      rw [opens]

/-- A loop that comes to no key that opens the buffer leaves the keys alone. -/
theorem retrySteps_misses (patience done : ℕ) {current : RatchetKey K}
    (here : further runtime w o cached done = .ok current) (within : done ≤ w.ratchetWindowSize)
    (patient : w.ratchetWindowSize < patience + done)
    (closed : ∀ n, done < n → n ≤ w.ratchetWindowSize → ∀ other, ¬ OpensAt runtime w o cached n other) :
    ∃ refused w', alone (retrySteps runtime site o entry cached.salt patience (done + 1) current.rawKey) w =
      some (.error refused, w') ∧ w' = { w with emitted := w'.emitted } := by
  induction patience generalizing done current with
  | zero => omega
  | succ patience ih =>
    by_cases more : done + 1 ≤ w.ratchetWindowSize
    · rw [retrySteps_round site entry named patience done here more]
      cases derived : further runtime w o cached (done + 1) with
      | error refused => exact ⟨refused, w, rfl, rfl⟩
      | ok next =>
        dsimp only
        cases opened : opening runtime w o next with
        | ok other => exact absurd ⟨next, derived, opened⟩ (closed (done + 1) (by omega) more other)
        | error refused => exact ih (done + 1) derived more (by omega) fun n after => closed n (by omega)
    · simp only [retrySteps, alone_bind, alone_read, Option.bind_some, if_neg more, alone_update, alone_throw]
      refine ⟨_, _, rfl, ?_⟩
      unfold Worker.emitMetric
      split <;> rfl

/-! ## The whole call -/

variable (installed : w.epochs.get? o.epoch = some entry)
  (held : (w.entries.read entry).keys.get? o.peerIndex = some cached)
  (idle : w.ratchetPromises.get? (o.epoch, o.peerIndex) = none)

include installed held idle

/-- A buffer that the cached key does not open goes to the loop, which runs under
a promise. -/
theorem alone_tryDecryptWithRatchet :
    alone (tryDecryptWithRatchet runtime site o) w = match opening runtime w o cached with
      | .ok plaintext => some (.ok plaintext, w)
      | .error refused =>
        if w.ratchetWindowSize = 0 then some (.error refused, w)
        else (alone (retrySteps runtime site o entry cached.salt runtime.patience 1 cached.rawKey)
          { w with
            promises := w.promises.alloc .pending
            ratchetPromises := w.ratchetPromises.set (o.epoch, o.peerIndex) w.promises.next }).map fun result =>
              (result.1, { result.2 with
                promises := result.2.promises.write w.promises.next (match result.1 with
                  | .ok plaintext => .fulfilled plaintext
                  | .error reason => .rejected reason)
                ratchetPromises := result.2.ratchetPromises.delete (o.epoch, o.peerIndex) }) := by
  have cachedKey : w.cachedKey o.epoch o.peerIndex = some cached := by simp [Worker.cachedKey, installed, held]
  simp only [tryDecryptWithRatchet, alone_bind, alone_read, Option.bind_some, installed, held, alone_attempt,
    openCached, decrypt_cached named cachedKey, alone_pause, alone_settle, Option.map_some]
  cases opening runtime w o cached with
  | ok plaintext => rfl
  | error refused =>
    simp only [alone_bind, alone_read, Option.bind_some, idle]
    split
    · rfl
    · simp only [recheckThenLoop, alone_bind, alone_read, Option.bind_some, idle, runRetryLoop, alone_update,
        alone_attempt, retryLoop, held]
      cases alone (retrySteps runtime site o entry cached.salt runtime.patience 1 cached.rawKey) _ with
      | none => rfl
      | some result => rfl

/-- The call returns what the first key within the window that opens the buffer
gives, and the cursor has moved to that key. -/
theorem tryDecryptWithRatchet_finds {last : RatchetKey K} {step : ℕ}
    (reached : further runtime w o cached step = .ok last) (opens : opening runtime w o last = .ok plaintext)
    (within : step ≤ w.ratchetWindowSize) (patient : w.ratchetWindowSize < runtime.patience)
    (first : ∀ n < step, ∀ other, ¬ OpensAt runtime w o cached n other) :
    ∃ w', alone (tryDecryptWithRatchet runtime site o) w = some (.ok plaintext, w') ∧
      w'.ratchetPromises = w.ratchetPromises ∧
      beyondSearch w' = beyondSearch (if step = 0 then w else advanceKey w entry o.peerIndex last step) := by
  rw [alone_tryDecryptWithRatchet site entry named installed held idle]
  by_cases zero : step = 0
  · subst zero
    obtain rfl : cached = last := Except.ok.inj reached
    rw [opens]
    exact ⟨w, rfl, rfl, rfl⟩
  · cases opened : opening runtime w o cached with
    | ok other => exact absurd ⟨cached, rfl, opened⟩ (first 0 (by omega) other)
    | error refused =>
      have found := retrySteps_finds (w := { w with
          promises := w.promises.alloc .pending
          ratchetPromises := w.ratchetPromises.set (o.epoch, o.peerIndex) w.promises.next }) site entry
        named reached opens within runtime.patience 0 rfl (by omega) (by omega)
        fun n _ before => first n before
      dsimp only
      rw [if_neg (by omega), if_neg zero, found]
      refine ⟨_, rfl, ?_, ?_⟩
      · refine Eq.trans ?_ (OrderedMap.delete_set_absent idle w.promises.next)
        simp only [Worker.emitMetric]
        split <;> rfl
      · simp only [Worker.emitMetric]
        split <;> rfl

theorem tryDecryptWithRatchet_misses (patient : w.ratchetWindowSize < runtime.patience)
    (closed : ∀ n ≤ w.ratchetWindowSize, ∀ other, ¬ OpensAt runtime w o cached n other) :
    ∃ refused w', alone (tryDecryptWithRatchet runtime site o) w = some (.error refused, w') ∧
      w'.ratchetPromises = w.ratchetPromises ∧ beyondSearch w' = beyondSearch w := by
  rw [alone_tryDecryptWithRatchet site entry named installed held idle]
  cases opened : opening runtime w o cached with
  | ok other => exact absurd ⟨cached, rfl, opened⟩ (closed 0 (Nat.zero_le _) other)
  | error refused =>
    dsimp only
    split
    · exact ⟨refused, w, rfl, rfl, rfl⟩
    · obtain ⟨exhausted, v, missed, same⟩ := retrySteps_misses (w := { w with
          promises := w.promises.alloc .pending
          ratchetPromises := w.ratchetPromises.set (o.epoch, o.peerIndex) w.promises.next }) site entry
        named runtime.patience 0 rfl (Nat.zero_le _) (by omega) fun n _ inside => closed n inside
      rw [missed]
      refine ⟨exhausted, _, rfl, ?_, ?_⟩
      · rw [same]
        exact OrderedMap.delete_set_absent idle w.promises.next
      · rw [same]
        rfl

end Search

/-! ## A sealed buffer -/

/-- Of the keys that the window reaches, no other than the sealing one opens the
buffer: the AEAD is ideal, and each step has a key of its own. -/
def OnlyStep (runtime : Runtime K G) (w : Worker K G) (o : Opening) (first : RatchetKey K) (bound sealed : ℕ) : Prop :=
  ∀ n ≤ bound, n ≠ sealed → ∀ key, keyAt runtime w.suite w.kidCodec o.epoch o.peerIndex first n = .ok key →
    ∀ plaintext, opening runtime w o key ≠ .ok plaintext

/-- The key that sealed a buffer opens it. -/
theorem opening_sealed (correct : runtime.crypto.Correct) {key : RatchetKey K} {ctr : ℕ}
    (sealed : sframeEncrypt runtime.crypto plaintext key.toSFrameKey ctr o.aadPrefix o.aadForm = .ok o.buf) :
    opening runtime w o key = .ok plaintext := by
  obtain ⟨header, iv, ct, written, derived, encrypted, same⟩ := sframeEncrypt_ok.mp sealed
  have parsed : parseHeader o.buf = .ok ⟨key.kid, ctr, header.length⟩ := by
    rw [same]
    simpa using parseHeader_serializeHeader written ct
  refine (sframeDecrypt_ok parsed).mpr ⟨?_, iv, derived, ?_⟩
  · rw [same, List.length_append, correct.tagged encrypted]
    dsimp only
    omega
  · rw [same]
    simpa using correct.opens encrypted

theorem named_sealed {key : RatchetKey K} {ctr : ℕ}
    (sealed : sframeEncrypt runtime.crypto plaintext key.toSFrameKey ctr o.aadPrefix o.aadForm = .ok o.buf)
    (own : w.kidCodec.encode o.epoch o.peerIndex = .ok key.kid) : Named w o := by
  obtain ⟨header, iv, ct, written, -, -, same⟩ := sframeEncrypt_ok.mp sealed
  refine ⟨⟨key.kid, ctr, header.length⟩, ?_, (decode_encode own).1⟩
  rw [same]
  simpa using parseHeader_serializeHeader written ct

/-- **The ratchet window is exact.** A buffer sealed under the key `t` steps down
its sender's chain opens exactly when the cursor stands at or at most a window
before `t`. The cursor and the cached key are at `t` then; otherwise the call
rejects, and no key and no cursor has moved. -/
theorem window_exact (correct : runtime.crypto.Correct) (site : RatchetPoint → AwaitPoint) {entry : Ref}
    (installed : w.epochs.get? o.epoch = some entry)
    (held : (w.entries.read entry).keys.get? o.peerIndex = some cached) {first key : RatchetKey K}
    (onCursor : keyAt runtime w.suite w.kidCodec o.epoch o.peerIndex first (cursor w o.epoch o.peerIndex) = .ok cached)
    (own : w.kidCodec.encode o.epoch o.peerIndex = .ok first.kid) {t ctr : ℕ}
    (stepped : keyAt runtime w.suite w.kidCodec o.epoch o.peerIndex first t = .ok key)
    (sealed : sframeEncrypt runtime.crypto plaintext key.toSFrameKey ctr o.aadPrefix o.aadForm = .ok o.buf)
    (only : OnlyStep runtime w o first (cursor w o.epoch o.peerIndex + w.ratchetWindowSize) t)
    (idle : w.ratchetPromises.get? (o.epoch, o.peerIndex) = none)
    (patient : w.ratchetWindowSize < runtime.patience) :
    ∃ outcome w', alone (tryDecryptWithRatchet runtime site o) w = some (outcome, w') ∧
      (outcome = .ok plaintext ↔
        cursor w o.epoch o.peerIndex ≤ t ∧ t ≤ cursor w o.epoch o.peerIndex + w.ratchetWindowSize) ∧
      (outcome = .ok plaintext →
        cursor w' o.epoch o.peerIndex = t ∧ w'.cachedKey o.epoch o.peerIndex = some key) ∧
      (outcome ≠ .ok plaintext →
        (∃ refused, outcome = .error refused) ∧ w'.epochs = w.epochs ∧ w'.entries = w.entries) := by
  have named : Named w o := named_sealed sealed (by rw [keyAt_kid own stepped]; exact own)
  have opens := opening_sealed (w := w) correct sealed
  have chain (n : ℕ) : further runtime w o cached n =
      keyAt runtime w.suite w.kidCodec o.epoch o.peerIndex first (cursor w o.epoch o.peerIndex + n) :=
    (keyAt_add onCursor n).symm
  have misses (n : ℕ) (inside : n ≤ w.ratchetWindowSize) (other : cursor w o.epoch o.peerIndex + n ≠ t)
      (plaintext : Bytes) : ¬ OpensAt runtime w o cached n plaintext := by
    rintro ⟨key, reached, opened⟩
    rw [chain] at reached
    exact only _ (by omega) other key reached plaintext opened
  by_cases within : cursor w o.epoch o.peerIndex ≤ t ∧ t ≤ cursor w o.epoch o.peerIndex + w.ratchetWindowSize
  · obtain ⟨step, same⟩ := Nat.exists_eq_add_of_le within.1
    have reached : further runtime w o cached step = .ok key := by rw [chain, ← same, stepped]
    obtain ⟨w', ran, -, after⟩ := tryDecryptWithRatchet_finds site entry named installed held idle reached opens
      (by omega) patient fun n before => misses n (by omega) (by omega)
    have tables : w'.epochs = w.epochs ∧
        w'.entries = (if step = 0 then w else advanceKey w entry o.peerIndex key step).entries := by
      have epochs := congrArg (fun v : Worker K G => v.epochs) after
      have entries := congrArg (fun v : Worker K G => v.entries) after
      refine ⟨epochs.trans ?_, entries⟩
      split <;> rfl
    refine ⟨.ok plaintext, w', ran, by simp [within], fun _ => ?_, fun never => absurd rfl never⟩
    simp only [cursor, Worker.cachedKey, tables.1, tables.2, installed, Option.bind_some]
    have here : cursor w o.epoch o.peerIndex = ((w.entries.read entry).ratchetSteps.get? o.peerIndex).getD 0 := by
      simp only [cursor, installed]
    split
    · rename_i zero
      subst zero
      obtain rfl : cached = key := Except.ok.inj reached
      exact ⟨by omega, held⟩
    · simp only [advanceKey, Heap.read_write, OrderedMap.get?_set, ↓reduceIte, Option.getD_some]
      exact ⟨by omega, trivial⟩
  · obtain ⟨refused, w', ran, -, after⟩ := tryDecryptWithRatchet_misses site entry named installed held idle patient
      fun n inside other => misses n inside (by omega) other
    refine ⟨.error refused, w', ran, by simp [within], fun never => (by cases never), fun _ => ⟨⟨refused, rfl⟩, ?_, ?_⟩⟩
    · exact (congrArg (fun v : Worker K G => v.epochs) after : (beyondSearch w').epochs = _)
    · exact (congrArg (fun v : Worker K G => v.entries) after : (beyondSearch w').entries = _)

section Checked
open Specimen (keyOf stepOf sealedBy)

/-- A frame of the first sender two steps down. -/
def twoDown : Opening where
  buf := sealedBy (stepOf (stepOf (keyOf 0 0 7))) 3 [1, 2, 3]
  epoch := 0
  peerIndex := 0

theorem window_exact_two_down : ∃ outcome w',
    alone (tryDecryptWithRatchet Specimen.runtime (fun point => { point := .ratchet point }) twoDown) twoStepReceiver =
      some (outcome, w') ∧ (outcome = .ok [1, 2, 3] ↔ 0 ≤ 2 ∧ 2 ≤ 0 + 2) ∧
      (outcome = .ok [1, 2, 3] →
        cursor w' 0 0 = 2 ∧ w'.cachedKey 0 0 = some (stepOf (stepOf (keyOf 0 0 7)))) ∧
      (outcome ≠ .ok [1, 2, 3] → (∃ refused, outcome = .error refused) ∧
        w'.epochs = twoStepReceiver.epochs ∧ w'.entries = twoStepReceiver.entries) := by
  have only : OnlyStep Specimen.runtime twoStepReceiver twoDown (keyOf 0 0 7) (0 + 2) 2 := by
    have fails : ∀ n ≤ 2, n ≠ 2 → (do
        let key ← keyAt Specimen.runtime defaultCipherSuite .fixed 0 0 (keyOf 0 0 7) n
        opening Specimen.runtime twoStepReceiver twoDown key).toOption = none := by
      decide +kernel
    intro n within other key reached plaintext opened
    have never := fails n within other
    rw [show keyAt Specimen.runtime defaultCipherSuite .fixed 0 0 (keyOf 0 0 7) n = .ok key from reached] at never
    simp only [bind, Except.bind, opened] at never
    cases never
  have sealed : sframeEncrypt Specimen.crypto [1, 2, 3] (stepOf (stepOf (keyOf 0 0 7))).toSFrameKey (3 : ℕ)
      twoDown.aadPrefix twoDown.aadForm = .ok twoDown.buf := rfl
  have onCursor : keyAt Specimen.runtime twoStepReceiver.suite twoStepReceiver.kidCodec twoDown.epoch twoDown.peerIndex
      (keyOf 0 0 7) (cursor twoStepReceiver twoDown.epoch twoDown.peerIndex) = .ok (keyOf 0 0 7) := rfl
  exact window_exact Specimen.crypto_correct _ rfl rfl onCursor rfl rfl sealed only rfl (by decide)

end Checked
end SFrameRatchet.WindowExact
