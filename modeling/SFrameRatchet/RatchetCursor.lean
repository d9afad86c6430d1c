import SFrameRatchet.FrameWalk
import SFrameRatchet.RatchetDedup
import SFrameRatchet.RelyGuarantee

/-! The cursor of a sender's ratchet when several callers share its retry loops.
A loop chains from the key that is cached when it starts and adds its own steps
when it ends, so the cursor tells the key's position only while nobody else's
loop for the same sender ends in between. The dedup map is what keeps the loops
apart: a pending promise in it stands for the loop under way. -/
namespace SFrameRatchet.RatchetCursor
open Collections Crypto Kid Header SFrame CodecPartial Throwing Coroutine Interleaving RelyGuarantee Media
open RatchetDedup (DecryptCall)

variable {K G : Type}

/-- The key some steps down the ratchet from a first one. -/
def keyAt (runtime : Runtime K G) (suite : CipherSuite) (kidCodec : KidCodec) (epoch peerIndex : ℤ)
    (first : RatchetKey K) : ℕ → Except JsError (RatchetKey K)
  | 0 => .ok first
  | n + 1 => do
    let key ← keyAt runtime suite kidCodec epoch peerIndex first n
    deriveNextSenderKey runtime.crypto key.rawKey key.salt epoch peerIndex suite kidCodec

/-- `ratchetSteps(peer)` of an installed epoch. -/
def cursor (w : Worker K G) (epoch peerIndex : ℤ) : ℕ :=
  match w.epochs.get? epoch with
  | none => 0
  | some ref => ((w.entries.read ref).ratchetSteps.get? peerIndex).getD 0

/-- The promise of a pair in the dedup map has not settled. -/
def promisePending (w : Worker K G) (pair : ℤ × ℤ) : Bool :=
  (w.ratchetPromises.get? pair).any fun promise => !(w.promises.read promise).settled

/-- The pair that a call decrypts for, as far as it shows at a site. -/
def dedupKey (call : DecryptCall) (at_ : AwaitPoint) : Option (ℤ × ℤ) :=
  match call with
  | .tryDecryptWithRatchet o => some (o.epoch, o.peerIndex)
  | .decodeFrame _ => at_.slot.map fun held => (held.1.epoch, held.1.peerIndex)

/-- The pair whose retry loop a call is running where it waits. -/
def loopAt (key : AwaitPoint → Option (ℤ × ℤ)) (at_ : AwaitPoint) : Option (ℤ × ℤ) :=
  match at_.point with
  | .ratchet (.derive _) | .ratchet (.opening _) | .ratchet .exhausted => key at_
  | _ => none

/-- A caller that goes on once a promise has settled, to take its own out of the
map or to start a loop after another caller's failure, finds no pending promise
of its pair in the map. -/
def FindsNonePending (key : AwaitPoint → Option (ℤ × ℤ)) (at_ : AwaitPoint) (w : Worker K G) : Prop :=
  match at_.point with
  | .ratchet (.settled _) => (key at_).any (promisePending w) = false
  | .ratchet (.afterAwait promise) =>
    match w.promises.read promise with
    | .rejected _ => (key at_).any (promisePending w) = false
    | _ => True
  | _ => True

/-- What is asked only after a rejection. -/
def decidableRejected (p : Prop) [Decidable p] : (state : PromiseState) →
    Decidable (match state with
      | .rejected _ => p
      | _ => True)
  | .rejected _ => inferInstanceAs (Decidable p)
  | .pending | .fulfilled _ => isTrue trivial

instance (key : AwaitPoint → Option (ℤ × ℤ)) : (at_ : AwaitPoint) → (w : Worker K G) →
    Decidable (FindsNonePending key at_ w)
  | { point := .ratchet (.settled promise), frame, payload, slot }, w => inferInstanceAs (Decidable
      ((key { point := .ratchet (.settled promise), frame, payload, slot }).any (promisePending w) = false))
  | { point := .ratchet (.afterAwait promise), frame, payload, slot }, w => decidableRejected
      ((key { point := .ratchet (.afterAwait promise), frame, payload, slot }).any (promisePending w) = false)
      (w.promises.read promise)
  | { point := .ratchet .stepZero, .. }, _ | { point := .ratchet (.inFlight ..), .. }, _
  | { point := .ratchet (.retry ..), .. }, _ | { point := .ratchet (.derive _), .. }, _
  | { point := .ratchet (.opening _), .. }, _ | { point := .ratchet .returned, .. }, _
  | { point := .ratchet .exhausted, .. }, _ | { point := .start, .. }, _ | { point := .probe, .. }, _
  | { point := .probed, .. }, _ | { point := .durableCheck, .. }, _ | { point := .durableAccept, .. }, _
  | { point := .seal, .. }, _ | { point := .decoded _, .. }, _ | { point := .encoded _, .. }, _
  | { point := .rerun, .. }, _ => isTrue trivial

/-- The keys that were installed, each epoch in an entry of its own, and the
position of every cached key below them. -/
structure Installed (runtime : Runtime K G) (origin : ℤ → ℤ → RatchetKey K) (w : Worker K G) : Prop where
  own : ∀ {epoch other ref}, w.epochs.get? epoch = some ref → w.epochs.get? other = some ref → epoch = other
  promised : ∀ {pair promise}, w.ratchetPromises.get? pair = some promise → promise < w.promises.next
  keys : ∀ {epoch peerIndex key}, w.cachedKey epoch peerIndex = some key →
    keyAt runtime w.suite w.kidCodec epoch peerIndex (origin epoch peerIndex) (cursor w epoch peerIndex) = .ok key

/-- Every cached raw key is the installed one iterated to the cursor. -/
def OnCursor (runtime : Runtime K G) (origin : ℤ → ℤ → RatchetKey K) (w : Worker K G) : Prop :=
  ∀ epoch peerIndex key, w.cachedKey epoch peerIndex = some key →
    (keyAt runtime w.suite w.kidCodec epoch peerIndex (origin epoch peerIndex)
      (cursor w epoch peerIndex)).map (·.rawKey) = .ok key.rawKey

/-- Two calls that run a retry loop run it for different pairs. -/
def OneLoopEach {ι : Type} (calls : ι → DecryptCall) (statuses : ι → Status AwaitPoint (Except JsError Outcome)) :
    Prop :=
  ∀ call other at_ site pair, statuses call = .suspended at_ → statuses other = .suspended site →
    loopAt (dedupKey (calls call)) at_ = some pair → loopAt (dedupKey (calls other)) site = some pair → call = other

/-! ## What a turn does to the ratchet -/

/-- The part of the worker that the ratchet works on. -/
def ratcheting (w : Worker K G) :=
  (w.epochs, w.suite, w.kidCodec, w.entries, w.promises, w.ratchetPromises)

/-- What the position of a key depends on. -/
def keying (w : Worker K G) := (w.epochs, w.suite, w.kidCodec, w.entries)

/-- The worker in which a loop has put its promise into the map. -/
def begun (w : Worker K G) (pair : ℤ × ℤ) : Worker K G :=
  { w with
    promises := w.promises.alloc .pending
    ratchetPromises := w.ratchetPromises.set pair w.promises.next }

def resolvePromise (w : Worker K G) (promise : Ref) (outcome : PromiseState) : Worker K G :=
  { w with promises := w.promises.write promise outcome }

/-- The worker in which a pair has no promise in the map. -/
def left (w : Worker K G) (pair : ℤ × ℤ) : Worker K G :=
  { w with ratchetPromises := w.ratchetPromises.delete pair }

section States
variable {w w' : Worker K G}

theorem keying_of (same : ratcheting w' = ratcheting w) : keying w' = keying w := by
  simp only [ratcheting, Prod.mk.injEq] at same
  obtain ⟨epochs, suite, kidCodec, entries, -, -⟩ := same
  simp only [keying, epochs, suite, kidCodec, entries]

theorem ratcheting_of_core (same : w'.core = w.core) : ratcheting w' = ratcheting w :=
  (congrArg ratcheting same : ratcheting w'.core = ratcheting w.core)

theorem cachedKey_of (same : keying w' = keying w) (epoch peerIndex : ℤ) :
    w'.cachedKey epoch peerIndex = w.cachedKey epoch peerIndex := by
  simp only [keying, Prod.mk.injEq] at same
  obtain ⟨epochs, -, -, entries⟩ := same
  simp only [Worker.cachedKey, epochs, entries]

theorem cursor_of (same : keying w' = keying w) (epoch peerIndex : ℤ) :
    cursor w' epoch peerIndex = cursor w epoch peerIndex := by
  simp only [keying, Prod.mk.injEq] at same
  obtain ⟨epochs, -, -, entries⟩ := same
  simp only [cursor, epochs, entries]

/-- An advanced key is found under its epoch and peer index, and no other key moves. -/
theorem cachedKey_advanceKey (own : ∀ {epoch other ref}, w.epochs.get? epoch = some ref →
      w.epochs.get? other = some ref → epoch = other)
    {epoch : ℤ} {ref : Ref} (found : w.epochs.get? epoch = some ref) (peerIndex : ℤ) (next : RatchetKey K)
    (step : ℕ) (e p : ℤ) : (advanceKey w ref peerIndex next step).cachedKey e p =
      if (e, p) = (epoch, peerIndex) then some next else w.cachedKey e p := by
  simp only [Worker.cachedKey, advanceKey]
  cases held : w.epochs.get? e with
  | none =>
    have other : e ≠ epoch := fun same => by rw [same, found] at held; cases held
    simp [other]
  | some entry =>
    simp only [Option.bind_some, Heap.read_write]
    by_cases same : entry = ref
    · obtain rfl := own held (same ▸ found)
      by_cases peer : p = peerIndex <;> simp [same, peer]
    · have other : e ≠ epoch := fun equal => by
        rw [equal, found] at held
        exact same (Option.some.inj held).symm
      simp [same, other]

theorem cursor_advanceKey (own : ∀ {epoch other ref}, w.epochs.get? epoch = some ref →
      w.epochs.get? other = some ref → epoch = other)
    {epoch : ℤ} {ref : Ref} (found : w.epochs.get? epoch = some ref) (peerIndex : ℤ) (next : RatchetKey K)
    (step : ℕ) (e p : ℤ) : cursor (advanceKey w ref peerIndex next step) e p =
      if (e, p) = (epoch, peerIndex) then cursor w epoch peerIndex + step else cursor w e p := by
  simp only [cursor, advanceKey, found]
  cases held : w.epochs.get? e with
  | none =>
    have other : e ≠ epoch := fun same => by rw [same, found] at held; cases held
    simp [other]
  | some entry =>
    simp only [Heap.read_write]
    by_cases same : entry = ref
    · obtain rfl := own held (same ▸ found)
      by_cases peer : p = peerIndex <;> simp [same, peer]
    · have other : e ≠ epoch := fun equal => by
        rw [equal, found] at held
        exact same (Option.some.inj held).symm
      simp [same, other]

end States

/-! ## Soundness of the cursor -/

section Sound
variable (runtime : Runtime K G) (origin : ℤ → ℤ → RatchetKey K) (w₀ : Worker K G)

/-- The keys have moved down their ratchets as their cursors say; what else the
ratchet reads has stayed as it was. -/
structure Sound (w : Worker K G) : Prop extends Installed runtime origin w where
  epochs : w.epochs = w₀.epochs
  suite : w.suite = w₀.suite
  kidCodec : w.kidCodec = w₀.kidCodec

/-- How the ratchet's part of the worker changes in a turn, by the pair of the
loop that the call runs before and after it. -/
inductive Effect (start : Worker K G) : Option (ℤ × ℤ) → Option (ℤ × ℤ) → Worker K G → Prop where
  | quiet {loop w} (same : ratcheting w = ratcheting start) : Effect start loop loop w
  | begins {pair w} (alone : promisePending start pair = false)
      (same : ratcheting w = ratcheting (begun start pair)) : Effect start none (some pair) w
  /-- A loop that fails before its first suspension. -/
  | fails {pair} (outcome : PromiseState) {w} (alone : promisePending start pair = false)
      (same : ratcheting w = ratcheting (resolvePromise (begun start pair) start.promises.next outcome)) :
      Effect start none none w
  | ends {pair promise} (outcome : PromiseState) {v w} (mapped : start.ratchetPromises.get? pair = some promise)
      (advanced : v = start ∨ ∃ ref next step, start.epochs.get? pair.1 = some ref ∧
        keyAt runtime w₀.suite w₀.kidCodec pair.1 pair.2 (origin pair.1 pair.2) (cursor start pair.1 pair.2 + step) =
          .ok next ∧ v = advanceKey start ref pair.2 next step)
      (settled : outcome.settled = true)
      (same : ratcheting w = ratcheting (resolvePromise v promise outcome)) : Effect start (some pair) none w
  | leaves {pair w} (alone : promisePending start pair = false)
      (same : ratcheting w = ratcheting (left start pair)) : Effect start none none w

variable {runtime origin w₀} {start w w' : Worker K G} {before after : Option (ℤ × ℤ)}

theorem sound_of (sound : Sound runtime origin w₀ w) (same : keying w' = keying w)
    (promised : ∀ {pair promise}, w'.ratchetPromises.get? pair = some promise → promise < w'.promises.next) :
    Sound runtime origin w₀ w' := by
  simp only [keying, Prod.mk.injEq] at same
  obtain ⟨epochs, suite, kidCodec, entries⟩ := same
  refine ⟨⟨?_, promised, ?_⟩, epochs.trans sound.epochs, suite.trans sound.suite, kidCodec.trans sound.kidCodec⟩
  · intro epoch other ref found again
    rw [epochs] at found again
    exact sound.own found again
  · intro epoch peerIndex key cached
    simp only [Worker.cachedKey, cursor, epochs, suite, kidCodec, entries] at cached ⊢
    exact sound.keys cached

theorem sound_advance (sound : Sound runtime origin w₀ w) {epoch peerIndex : ℤ} {ref : Ref} {next : RatchetKey K}
    {step : ℕ} (found : w.epochs.get? epoch = some ref)
    (further : keyAt runtime w₀.suite w₀.kidCodec epoch peerIndex (origin epoch peerIndex)
      (cursor w epoch peerIndex + step) = .ok next) :
    Sound runtime origin w₀ (advanceKey w ref peerIndex next step) where
  own {_ _ _} found other := sound.own found other
  promised {_ _} mapped := sound.promised mapped
  keys {e p key} cached := by
    rw [cachedKey_advanceKey sound.own found] at cached
    rw [cursor_advanceKey sound.own found]
    change keyAt runtime w.suite w.kidCodec _ _ _ _ = _
    split at cached
    · rename_i same
      obtain ⟨rfl, rfl⟩ := Prod.mk.inj same
      obtain rfl := Option.some.inj cached
      rw [if_pos rfl, sound.suite, sound.kidCodec]
      exact further
    · rename_i other
      rw [if_neg other]
      exact sound.keys cached
  epochs := sound.epochs
  suite := sound.suite
  kidCodec := sound.kidCodec

theorem promised_begun (sound : Sound runtime origin w₀ start) (pair : ℤ × ℤ) {other : ℤ × ℤ} {promise : Ref}
    (mapped : (begun start pair).ratchetPromises.get? other = some promise) :
    promise < (begun start pair).promises.next := by
  simp only [begun, OrderedMap.get?_set, Heap.next_alloc] at mapped ⊢
  split at mapped
  · obtain rfl := Option.some.inj mapped
    exact Nat.lt_succ_self _
  · exact Nat.lt_succ_of_lt (sound.promised mapped)

/-- Whatever a turn does, the cursors stay right. -/
theorem sound_effect (sound : Sound runtime origin w₀ start) (effect : Effect runtime origin w₀ start before after w) :
    Sound runtime origin w₀ w := by
  have carried {v : Worker K G} (sound : Sound runtime origin w₀ v) (same : ratcheting w = ratcheting v) :
      Sound runtime origin w₀ w := by
    have fields := same
    simp only [ratcheting, Prod.mk.injEq] at fields
    refine sound_of sound (keying_of same) fun mapped => ?_
    rw [fields.2.2.2.2.2] at mapped
    rw [fields.2.2.2.2.1]
    exact sound.promised mapped
  cases effect with
  | quiet same => exact carried sound same
  | @begins pair _ _ same =>
    have begins : Sound runtime origin w₀ (begun start pair) := sound_of sound rfl (promised_begun sound pair)
    exact carried begins same
  | @fails pair outcome _ _ same =>
    have fails : Sound runtime origin w₀ (resolvePromise (begun start pair) start.promises.next outcome) :=
      sound_of sound rfl (promised_begun sound pair)
    exact carried fails same
  | @leaves pair _ _ same =>
    have leaves : Sound runtime origin w₀ (left start pair) := sound_of sound rfl fun mapped => by
      simp only [left, OrderedMap.get?_delete] at mapped
      split at mapped
      · cases mapped
      · exact sound.promised mapped
    exact carried leaves same
  | @ends _ promise outcome v _ _ advanced _ same =>
    have advanced : Sound runtime origin w₀ v := by
      rcases advanced with rfl | ⟨ref, next, step, found, further, rfl⟩
      · exact sound
      · exact sound_advance sound found further
    have ends : Sound runtime origin w₀ (resolvePromise v promise outcome) := sound_of advanced rfl advanced.promised
    exact carried ends same

/-- No turn takes a cursor back. -/
theorem cursor_effect (sound : Sound runtime origin w₀ start) (effect : Effect runtime origin w₀ start before after w)
    (epoch peerIndex : ℤ) : cursor start epoch peerIndex ≤ cursor w epoch peerIndex := by
  have stays (same : keying w = keying start) : cursor start epoch peerIndex ≤ cursor w epoch peerIndex :=
    (cursor_of same epoch peerIndex).ge
  cases effect with
  | quiet same => exact stays (keying_of same)
  | begins _ same => have same := keying_of same; exact stays same
  | fails _ _ same => have same := keying_of same; exact stays same
  | leaves _ same => have same := keying_of same; exact stays same
  | ends _ _ advanced _ same =>
    have same := keying_of same
    rcases advanced with rfl | ⟨ref, next, step, found, -, rfl⟩
    · exact stays same
    · rw [cursor_of (w := advanceKey start ref _ next step) same, cursor_advanceKey sound.own found]
      split
      · rename_i equal
        obtain ⟨rfl, rfl⟩ := Prod.mk.inj equal
        exact Nat.le_add_right _ _
      · exact le_refl _

end Sound

/-! ## What one caller relies on, and keeps -/

/-- What the others leave alone while a call waits: promises that have settled,
and, while it runs a loop, the promise, the key and the cursor of its pair. -/
structure Undisturbed (key : AwaitPoint → Option (ℤ × ℤ)) (at_ : AwaitPoint) (left w : Worker K G) : Prop where
  next : left.promises.next ≤ w.promises.next
  settled : ∀ promise, promise < left.promises.next → (left.promises.read promise).settled = true →
    (w.promises.read promise).settled = true
  mapped : ∀ pair, loopAt key at_ = some pair → w.ratchetPromises.get? pair = left.ratchetPromises.get? pair
  cached : ∀ pair, loopAt key at_ = some pair → w.cachedKey pair.1 pair.2 = left.cachedKey pair.1 pair.2
  cursor : ∀ pair, loopAt key at_ = some pair → cursor w pair.1 pair.2 = cursor left pair.1 pair.2

section Caller
variable (runtime : Runtime K G) (origin : ℤ → ℤ → RatchetKey K) (w₀ : Worker K G)
  (key : AwaitPoint → Option (ℤ × ℤ))

def sharing : Reliance AwaitPoint (Worker K G) where
  assume at_ w := Sound runtime origin w₀ w ∧ FindsNonePending key at_ w
  moves at_ start next w := Effect runtime origin w₀ start (loopAt key at_) (loopAt key next) w
  rely := Undisturbed key

/-- The call has not touched the ratchet since it was resumed outside a loop. -/
structure Fresh (at_ : AwaitPoint) (start w : Worker K G) : Prop where
  sound : Sound runtime origin w₀ start
  outside : loopAt key at_ = none
  same : ratcheting w = ratcheting start

/-- The call runs no loop, or no longer. -/
structure Calm (at_ : AwaitPoint) (start w : Worker K G) : Prop where
  sound : Sound runtime origin w₀ start
  outside : loopAt key at_ = none
  effect : Effect runtime origin w₀ start none none w

/-- The call runs the loop of a pair, under a promise that the map holds; it has
started in this turn, or it was resumed in it. -/
structure Running (pair : ℤ × ℤ) (promise : Ref) (at_ : AwaitPoint) (start w : Worker K G) : Prop where
  sound : Sound runtime origin w₀ start
  mapped : w.ratchetPromises.get? pair = some promise
  turn : (loopAt key at_ = none ∧ promisePending start pair = false ∧ promise = start.promises.next ∧
      ratcheting w = ratcheting (begun start pair)) ∨
    (loopAt key at_ = some pair ∧ ratcheting w = ratcheting start)

/-- The loop has succeeded in this turn, and advanced the key. -/
structure Advanced (pair : ℤ × ℤ) (promise : Ref) (entry : Ref) (at_ : AwaitPoint) (start w : Worker K G) : Prop where
  sound : Sound runtime origin w₀ start
  mapped : start.ratchetPromises.get? pair = some promise
  within : loopAt key at_ = some pair
  further : ∃ next step, keyAt runtime w₀.suite w₀.kidCodec pair.1 pair.2 (origin pair.1 pair.2)
    (cursor start pair.1 pair.2 + step) = .ok next ∧
      ratcheting w = ratcheting (advanceKey start entry pair.2 next step)

variable {runtime origin w₀ key} {at_ site : AwaitPoint} {start w w' : Worker K G} {pair : ℤ × ℤ} {promise : Ref}

theorem effect_of {loop loop' : Option (ℤ × ℤ)} (effect : Effect runtime origin w₀ start loop loop' w)
    (same : ratcheting w' = ratcheting w) : Effect runtime origin w₀ start loop loop' w' := by
  cases effect with
  | quiet earlier => exact .quiet (same.trans earlier)
  | begins alone earlier => exact .begins alone (same.trans earlier)
  | fails outcome alone earlier => exact .fails outcome alone (same.trans earlier)
  | ends outcome mapped advanced settled earlier => exact .ends outcome mapped advanced settled (same.trans earlier)
  | leaves alone earlier => exact .leaves alone (same.trans earlier)

theorem fresh_of (fresh : Fresh runtime origin w₀ key at_ start w) (same : ratcheting w' = ratcheting w) :
    Fresh runtime origin w₀ key at_ start w' := ⟨fresh.sound, fresh.outside, same.trans fresh.same⟩

theorem calm_of (calm : Calm runtime origin w₀ key at_ start w) (same : ratcheting w' = ratcheting w) :
    Calm runtime origin w₀ key at_ start w' := ⟨calm.sound, calm.outside, effect_of calm.effect same⟩

theorem calm_of_fresh (fresh : Fresh runtime origin w₀ key at_ start w) : Calm runtime origin w₀ key at_ start w :=
  ⟨fresh.sound, fresh.outside, .quiet fresh.same⟩

theorem calm_survives (outside : loopAt key site = none) :
    Survives (sharing runtime origin w₀ key).toContract (Calm runtime origin w₀ key) site := by
  intro at_ start w calm
  constructor
  · change Effect runtime origin w₀ start (loopAt key at_) (loopAt key site) w
    rw [calm.outside, outside]
    exact calm.effect
  · exact fun later assumed => ⟨assumed.1, outside, .quiet rfl⟩

theorem fresh_survives (outside : loopAt key site = none) :
    Survives (sharing runtime origin w₀ key).toContract (Fresh runtime origin w₀ key) site := by
  intro at_ start w fresh
  constructor
  · exact (calm_survives outside at_ start w (calm_of_fresh fresh)).1
  · exact fun later assumed => ⟨assumed.1, outside, rfl⟩

/-- A loop goes on at its next suspension with the key and the cursor it had. -/
theorem running_survives (within : loopAt key site = some pair)
    (running : Running runtime origin w₀ key pair promise at_ start w) :
    Effect runtime origin w₀ start (loopAt key at_) (loopAt key site) w ∧
      ∀ later, Sound runtime origin w₀ later → Undisturbed key site w later →
        Running runtime origin w₀ key pair promise site later later ∧
          cursor later pair.1 pair.2 = cursor w pair.1 pair.2 := by
  constructor
  · rw [within]
    rcases running.turn with ⟨outside, alone, -, same⟩ | ⟨resumed, same⟩
    · rw [outside]
      exact .begins alone same
    · rw [resumed]
      exact .quiet same
  · intro later sound undisturbed
    have mapped := (undisturbed.mapped pair within).trans running.mapped
    exact ⟨⟨sound, mapped, .inr ⟨within, rfl⟩⟩, undisturbed.cursor pair within⟩

/-- A loop reads what the ratchet started with. -/
theorem running_keying (running : Running runtime origin w₀ key pair promise at_ start w) :
    keying w = keying start := by
  rcases running.turn with ⟨-, -, -, same⟩ | ⟨-, same⟩
  · have same := keying_of same
    exact same
  · exact keying_of same

theorem running_suite (running : Running runtime origin w₀ key pair promise at_ start w) :
    w.suite = w₀.suite ∧ w.kidCodec = w₀.kidCodec := by
  have same := running_keying running
  simp only [keying, Prod.mk.injEq] at same
  exact ⟨same.2.1.trans running.sound.suite, same.2.2.1.trans running.sound.kidCodec⟩

/-- A call waits at sites that show where its ratchet is and for which pair. -/
structure Sites (key : AwaitPoint → Option (ℤ × ℤ)) (site : RatchetPoint → AwaitPoint) (o : Opening) : Prop where
  point : ∀ here, (site here).point = .ratchet here
  pair : ∀ here, key (site here) = some (o.epoch, o.peerIndex)

/-! ## The retry loop -/

variable {o : Opening} {entry : Ref} {sites : RatchetPoint → AwaitPoint}

theorem keyAt_succ {suite : CipherSuite} {kidCodec : KidCodec} {epoch peerIndex : ℤ} {first current next : RatchetKey K}
    {n : ℕ} (further : keyAt runtime suite kidCodec epoch peerIndex first n = .ok current)
    (derived : deriveNextSenderKey runtime.crypto current.rawKey current.salt epoch peerIndex suite kidCodec =
      .ok next) : keyAt runtime suite kidCodec epoch peerIndex first (n + 1) = .ok next := by
  simp only [keyAt, further, bind, Except.bind, derived]

theorem retrySteps_fulfils (shown : Sites key sites o) (patience : ℕ) {n : ℕ} {current : RatchetKey K}
    (further : keyAt runtime w₀.suite w₀.kidCodec o.epoch o.peerIndex (origin o.epoch o.peerIndex)
      (cursor w o.epoch o.peerIndex + n) = .ok current)
    (running : Running runtime origin w₀ key (o.epoch, o.peerIndex) promise at_ start w) :
    Fulfils (sharing runtime origin w₀ key)
      (retrySteps runtime sites o entry current.salt patience (n + 1) current.rawKey)
      (fun at_ start _ w => Advanced runtime origin w₀ key (o.epoch, o.peerIndex) promise entry at_ start w)
      (fun at_ start _ w => Running runtime origin w₀ key (o.epoch, o.peerIndex) promise at_ start w) at_ start w := by
  induction patience generalizing n current at_ start w with
  | zero =>
    have within : loopAt key (sites .exhausted) = some (o.epoch, o.peerIndex) := by
      simp [loopAt, shown.point, shown.pair]
    simp only [retrySteps, fulfils_bind, fulfils_pauseUntil]
    exact ⟨(running_survives within running).1, fun _ never => by cases never⟩
  | succ patience ih =>
    have derives : loopAt key (sites (.derive (n + 1))) = some (o.epoch, o.peerIndex) := by
      simp [loopAt, shown.point, shown.pair]
    have opens : loopAt key (sites (.opening (n + 1))) = some (o.epoch, o.peerIndex) := by
      simp [loopAt, shown.point, shown.pair]
    obtain ⟨suite, kidCodec⟩ := running_suite running
    simp only [retrySteps, fulfils_bind, fulfils_read]
    split
    · simp only [fulfils_bind, fulfils_pause]
      obtain ⟨moved, resumes⟩ := running_survives derives running
      refine ⟨moved, fun later assumed undisturbed => ?_⟩
      obtain ⟨running, stays⟩ := resumes later assumed.1 undisturbed
      rw [fulfils_settle]
      split
      · rename_i next derived
        rw [suite, kidCodec] at derived
        have further := keyAt_succ further derived
        simp only [fulfils_read]
        obtain ⟨moved, resumes⟩ := running_survives opens running
        refine ⟨moved, fun last assumed undisturbed => ?_⟩
        obtain ⟨running, again⟩ := resumes last assumed.1 undisturbed
        have same : cursor last o.epoch o.peerIndex = cursor w o.epoch o.peerIndex := again.trans stays
        rw [← same] at further
        split
        · simp only [fulfils_bind, fulfils_update, fulfils_pure]
          refine ⟨running.sound, running.mapped, opens, next, n + 1, further, ?_⟩
          exact ratcheting_of_core (Worker.core_emitMetric _ _)
        · have salt := Unsealing.next_salt derived
          rw [← salt]
          exact ih further running
      · exact running
    · simp only [fulfils_bind, fulfils_update, fulfils_throw]
      have quiet (event : MetricsEvent) : ratcheting (w.emitMetric event) = ratcheting w :=
        ratcheting_of_core (Worker.core_emitMetric w event)
      refine ⟨running.sound, ?_, ?_⟩
      · have same := quiet (.ratchetRetry o.epoch o.peerIndex w.ratchetWindowSize false)
        simp only [ratcheting, Prod.mk.injEq] at same
        rw [same.2.2.2.2.2]
        exact running.mapped
      · rcases running.turn with ⟨outside, alone, fresh, same⟩ | ⟨resumed, same⟩
        · exact .inl ⟨outside, alone, fresh, (quiet _).trans same⟩
        · exact .inr ⟨resumed, (quiet _).trans same⟩

theorem retryLoop_fulfils (shown : Sites key sites o) (found : w₀.epochs.get? o.epoch = some entry)
    (running : Running runtime origin w₀ key (o.epoch, o.peerIndex) promise at_ start w) :
    Fulfils (sharing runtime origin w₀ key) (retryLoop runtime sites o entry)
      (fun at_ start _ w => Advanced runtime origin w₀ key (o.epoch, o.peerIndex) promise entry at_ start w)
      (fun at_ start _ w => Running runtime origin w₀ key (o.epoch, o.peerIndex) promise at_ start w) at_ start w := by
  simp only [retryLoop, fulfils_bind, fulfils_read]
  split
  · exact running
  · rename_i current held
    have same := running_keying running
    have cached : start.cachedKey o.epoch o.peerIndex = some current := by
      rw [← cachedKey_of same]
      simp only [keying, Prod.mk.injEq] at same
      simp only [Worker.cachedKey, same.1, running.sound.epochs, found, Option.bind_some, held]
    have further := running.sound.keys cached
    rw [running.sound.suite, running.sound.kidCodec, ← cursor_of same] at further
    exact retrySteps_fulfils shown _ further running

/-- The loop takes its promise out of the map when it has settled. -/
theorem settled_leaves (shown : Sites key sites o) {outcome : Except JsError Bytes}
    (effect : Effect runtime origin w₀ start (loopAt key at_) none w) :
    Fulfils (sharing runtime origin w₀ key) (do
        pause (sites (.settled promise))
        update fun state => { state with ratchetPromises := state.ratchetPromises.delete (o.epoch, o.peerIndex) }
        settle outcome)
      (fun at_ start _ w => Calm runtime origin w₀ key at_ start w)
      (fun at_ start _ w => Calm runtime origin w₀ key at_ start w) at_ start w := by
  have outside : loopAt key (sites (.settled promise)) = none := by simp [loopAt, shown.point]
  simp only [fulfils_bind, fulfils_pause, fulfils_update, fulfils_settle]
  refine ⟨?_, fun later assumed _ => ?_⟩
  · change Effect runtime origin w₀ start (loopAt key at_) (loopAt key (sites (.settled promise))) w
    rw [outside]
    exact effect
  · have alone : promisePending later (o.epoch, o.peerIndex) = false := by
      have none := assumed.2
      simpa only [FindsNonePending, shown.point, shown.pair, Option.any_some] using none
    have calm : Calm runtime origin w₀ key (sites (.settled promise)) later (left later (o.epoch, o.peerIndex)) :=
      ⟨assumed.1, outside, .leaves alone rfl⟩
    cases outcome with
    | ok plaintext => exact calm
    | error refused => exact calm

theorem runRetryLoop_fulfils (shown : Sites key sites o) (found : w₀.epochs.get? o.epoch = some entry)
    (alone : promisePending start (o.epoch, o.peerIndex) = false)
    (fresh : Fresh runtime origin w₀ key at_ start w) :
    Fulfils (sharing runtime origin w₀ key) (runRetryLoop runtime sites o entry)
      (fun at_ start _ w => Calm runtime origin w₀ key at_ start w)
      (fun at_ start _ w => Calm runtime origin w₀ key at_ start w) at_ start w := by
  have same : ratcheting (begun w (o.epoch, o.peerIndex)) = ratcheting (begun start (o.epoch, o.peerIndex)) := by
    have same := fresh.same
    simp only [ratcheting, Prod.mk.injEq] at same
    simp only [ratcheting, begun, same]
  have next : w.promises.next = start.promises.next := by
    have same := fresh.same
    simp only [ratcheting, Prod.mk.injEq] at same
    rw [same.2.2.2.2.1]
  have running : Running runtime origin w₀ key (o.epoch, o.peerIndex) w.promises.next at_ start
      (begun w (o.epoch, o.peerIndex)) :=
    ⟨fresh.sound, by simp [begun], .inl ⟨fresh.outside, alone, next, same⟩⟩
  unfold runRetryLoop
  rw [fulfils_bind, fulfils_read]
  dsimp only
  rw [fulfils_bind, fulfils_update, fulfils_bind, fulfils_attempt]
  refine fulfils_mono (retryLoop_fulfils shown found running) ?_ ?_
  · intro at_ start plaintext w advanced
    obtain ⟨next, step, further, same⟩ := advanced.further
    apply settled_leaves shown
    rw [advanced.within]
    have opened : start.epochs.get? o.epoch = some entry := by rw [advanced.sound.epochs, found]
    refine .ends (.fulfilled plaintext) advanced.mapped (.inr ⟨entry, next, step, opened, further, rfl⟩) rfl ?_
    simp only [ratcheting, Prod.mk.injEq] at same
    simp only [ratcheting, resolvePromise, same]
  · intro at_ start refused w running
    apply settled_leaves shown
    rcases running.turn with ⟨outside, alone, fresh, same⟩ | ⟨resumed, same⟩
    · rw [outside, fresh]
      refine .fails (.rejected refused) alone ?_
      simp only [ratcheting, Prod.mk.injEq] at same
      simp only [ratcheting, resolvePromise, same]
    · rw [resumed]
      have mapped := running.mapped
      simp only [ratcheting, Prod.mk.injEq] at same
      rw [same.2.2.2.2.2] at mapped
      refine .ends (.rejected refused) mapped (.inl rfl) rfl ?_
      simp only [ratcheting, resolvePromise, same]

/-! ## Waiting for promises -/

/-- A promise that exists has settled. -/
def Resolved (promise : Ref) (w : Worker K G) : Prop :=
  promise < w.promises.next ∧ (w.promises.read promise).settled = true

theorem resolved_undisturbed {w later : Worker K G} (undisturbed : Undisturbed key site w later)
    (resolved : Resolved promise w) : Resolved promise later :=
  ⟨resolved.1.trans_le undisturbed.next, undisturbed.settled promise resolved.1 resolved.2⟩

/-- An attempt with the cached key changes nothing, and settled promises stay settled. -/
theorem openCached_fulfils {places : Bool → AwaitPoint} (outside : ∀ opens, loopAt key (places opens) = none)
    (fresh : Fresh runtime origin w₀ key at_ start w) :
    Fulfils (sharing runtime origin w₀ key) (openCached runtime places o)
      (fun at_ start _ w => Fresh runtime origin w₀ key at_ start w)
      (fun at_ start _ last => Fresh runtime origin w₀ key at_ start last ∧
        ∀ promise, Resolved promise w → Resolved promise last) at_ start w := by
  simp only [openCached, fulfils_bind, fulfils_read, fulfils_pause, fulfils_settle]
  obtain ⟨moved, resumes⟩ := fresh_survives (outside _) at_ start w fresh
  refine ⟨moved, fun later assumed undisturbed => ?_⟩
  have fresh := resumes later assumed
  split
  · exact fresh
  · exact ⟨fresh, fun _ resolved => resolved_undisturbed undisturbed resolved⟩

theorem awaitPromise_fulfils (outside : loopAt key site = none) (allocated : promise < w.promises.next)
    (fresh : Fresh runtime origin w₀ key at_ start w) :
    Fulfils (sharing runtime origin w₀ key) (awaitPromise site promise : Task K G Bytes)
      (fun at_ start _ w => Fresh runtime origin w₀ key at_ start w ∧ Resolved promise w)
      (fun at_ start _ w => Fresh runtime origin w₀ key at_ start w ∧ Resolved promise w ∧
        start = w ∧ FindsNonePending key site w ∧ ∃ reason, w.promises.read promise = .rejected reason)
      at_ start w := by
  simp only [awaitPromise, fulfils_bind, fulfils_read, fulfils_pauseUntil]
  obtain ⟨moved, resumes⟩ := fresh_survives outside at_ start w fresh
  refine ⟨moved, fun later settled assumed undisturbed => ?_⟩
  have fresh := resumes later assumed
  have resolved : Resolved promise later := ⟨allocated.trans_le undisturbed.next, settled⟩
  split
  · exact ⟨fresh, resolved⟩
  · rename_i reason rejected
    exact ⟨fresh, resolved, rfl, assumed.2, reason, rejected⟩
  · rename_i pending
    rw [pending] at settled
    cases settled

/-- What the map holds has been allocated. -/
theorem fresh_promised (fresh : Fresh runtime origin w₀ key at_ start w)
    (mapped : w.ratchetPromises.get? pair = some promise) : promise < w.promises.next := by
  have same := fresh.same
  simp only [ratcheting, Prod.mk.injEq] at same
  obtain ⟨-, -, -, -, promises, map⟩ := same
  rw [map] at mapped
  rw [promises]
  exact fresh.sound.promised mapped

theorem awaitInFlight_fulfils (shown : Sites key sites o)
    (mapped : w.ratchetPromises.get? (o.epoch, o.peerIndex) = some promise)
    (fresh : Fresh runtime origin w₀ key at_ start w) :
    Fulfils (sharing runtime origin w₀ key) (awaitInFlight runtime sites o promise)
      (fun at_ start plaintext w => Fresh runtime origin w₀ key at_ start w ∧
        (plaintext = none → Resolved promise w))
      (fun at_ start _ w => Fresh runtime origin w₀ key at_ start w) at_ start w := by
  have waits : loopAt key (sites (.inFlight (o.epoch, o.peerIndex) promise)) = none := by
    simp [loopAt, shown.point]
  have retries (opens : Bool) : loopAt key (sites (.retry (o.epoch, o.peerIndex) promise opens)) = none := by
    simp [loopAt, shown.point]
  unfold awaitInFlight
  rw [fulfils_bind, fulfils_attempt]
  refine fulfils_mono (awaitPromise_fulfils waits (fresh_promised fresh mapped) fresh) ?_ ?_
  · rintro at_ start _ w ⟨fresh, resolved⟩
    dsimp only
    rw [fulfils_bind, fulfils_attempt]
    refine fulfils_mono (openCached_fulfils retries fresh) ?_ ?_
    · intro _ _ plaintext _ fresh
      exact ⟨fresh, fun never => by cases never⟩
    · rintro _ _ _ _ ⟨fresh, kept⟩
      exact ⟨fresh, fun _ => kept promise resolved⟩
  · rintro at_ start _ w ⟨fresh, resolved, -⟩
    exact ⟨fresh, fun _ => resolved⟩

/-- A settled promise in the map is not a pending one. -/
theorem alone_of_resolved (fresh : Fresh runtime origin w₀ key at_ start w)
    (settled : ∀ promise, w.ratchetPromises.get? pair = some promise → (w.promises.read promise).settled = true) :
    promisePending start pair = false := by
  have same := fresh.same
  simp only [ratcheting, Prod.mk.injEq] at same
  obtain ⟨-, -, -, -, promises, map⟩ := same
  simp only [promises, map] at settled
  unfold promisePending
  cases mapped : start.ratchetPromises.get? pair with
  | none => rfl
  | some promise => simp [settled promise mapped]

theorem recheckThenLoop_fulfils (shown : Sites key sites o) (found : w₀.epochs.get? o.epoch = some entry)
    {inFlight : Option Ref} (resolved : ∀ promise, inFlight = some promise → Resolved promise w)
    (fresh : Fresh runtime origin w₀ key at_ start w) :
    Fulfils (sharing runtime origin w₀ key) (recheckThenLoop runtime sites o entry inFlight)
      (fun at_ start _ w => Calm runtime origin w₀ key at_ start w)
      (fun at_ start _ w => Calm runtime origin w₀ key at_ start w) at_ start w := by
  unfold recheckThenLoop
  rw [fulfils_bind, fulfils_read]
  dsimp only
  split
  · rename_i unmapped
    refine runRetryLoop_fulfils shown found (alone_of_resolved fresh fun promise mapped => ?_) fresh
    rw [unmapped] at mapped
    cases mapped
  · rename_i promise mapped
    split
    · rename_i same
      refine runRetryLoop_fulfils shown found (alone_of_resolved fresh fun other again => ?_) fresh
      obtain rfl := Option.some.inj (mapped.symm.trans again)
      exact (resolved promise same.symm).2
    · have waits : loopAt key (sites (.afterAwait promise)) = none := by simp [loopAt, shown.point]
      rw [fulfils_bind, fulfils_attempt]
      refine fulfils_mono (awaitPromise_fulfils waits (fresh_promised fresh mapped) fresh) ?_ ?_
      · rintro _ _ _ _ ⟨fresh, -⟩
        exact calm_of_fresh fresh
      · rintro at_ start _ w ⟨fresh, -, rfl, none, reason, rejected⟩
        have alone : promisePending start (o.epoch, o.peerIndex) = false := by
          simpa only [FindsNonePending, shown.point, shown.pair, rejected, Option.any_some] using none
        exact runRetryLoop_fulfils shown found alone fresh

/-- **One caller.** Whatever a caller does to the ratchet, it does in turns that
the cursor survives, as long as it finds no pending promise where it looks. -/
theorem tryDecryptWithRatchet_fulfils (shown : Sites key sites o)
    (fresh : Fresh runtime origin w₀ key at_ start w) :
    Fulfils (sharing runtime origin w₀ key) (tryDecryptWithRatchet runtime sites o)
      (fun at_ start _ w => Calm runtime origin w₀ key at_ start w)
      (fun at_ start _ w => Calm runtime origin w₀ key at_ start w) at_ start w := by
  have first (opens : Bool) : loopAt key (sites .stepZero) = none := by simp [loopAt, shown.point]
  unfold tryDecryptWithRatchet
  rw [fulfils_bind, fulfils_read]
  split
  · exact calm_of_fresh fresh
  · rename_i entry installed
    have found : w₀.epochs.get? o.epoch = some entry := by
      have same := keying_of fresh.same
      simp only [keying, Prod.mk.injEq] at same
      rw [← fresh.sound.epochs, ← same.1, installed]
    split
    · exact calm_of_fresh fresh
    · rw [fulfils_bind, fulfils_attempt]
      refine fulfils_mono (openCached_fulfils first fresh) ?_ ?_
      · intro _ _ _ _ fresh
        exact calm_of_fresh fresh
      · rintro at_ start firstError w ⟨fresh, -⟩
        dsimp only
        rw [fulfils_bind, fulfils_read]
        split
        · exact calm_of_fresh fresh
        · split
          · exact recheckThenLoop_fulfils shown found (fun _ never => by cases never) fresh
          · rename_i promise mapped
            rw [fulfils_bind]
            refine fulfils_mono (awaitInFlight_fulfils shown mapped fresh) ?_ ?_
            · rintro _ _ plaintext _ ⟨fresh, resolved⟩
              cases plaintext with
              | some plaintext => exact calm_of_fresh fresh
              | none =>
                refine recheckThenLoop_fulfils shown found (fun other same => ?_) fresh
                obtain rfl := Option.some.inj (mapped.symm.trans same)
                exact resolved rfl
            · intro _ _ _ _ fresh
              exact calm_of_fresh fresh

/-! ## Frames -/

section Frames
variable {holds : Reading K G} {contract : Contract AwaitPoint (Worker K G)}

theorem resolveFormat_yields (frame : Ref) (payload : Bytes) (codec : Option Codec) (frameKind : Option FrameKind)
    (probes : Survives contract holds { point := .probe, frame := some frame, payload := some payload })
    (probed : Survives contract holds { point := .probed, frame := some frame, payload := some payload })
    (now : holds at_ start w) :
    Yields contract holds (resolveFormat runtime frame payload codec frameKind) (fun _ => True) at_ start w :=
  meets_mono (FrameWalk.resolveFormat_meets frame payload codec frameKind probes probed now)
    (fun _ _ _ _ held => ⟨held.1, trivial⟩) fun _ _ _ _ now => now

/-- The gates read and write nothing that the ratchet works on. -/
theorem unchecked_of_quiet (quiet : ∀ at_ start w w', holds at_ start w → ratcheting w' = ratcheting w →
      holds at_ start w') : Unchecked holds :=
  fun _ _ w w' now same =>
    quiet _ _ w w' now (congrArg ratcheting same : ratcheting (beyondChecks w') = ratcheting (beyondChecks w))

theorem guardless_of_quiet (quiet : ∀ at_ start w w', holds at_ start w → ratcheting w' = ratcheting w →
      holds at_ start w') : Guardless holds :=
  fun _ _ w _ now => quiet _ _ w _ now rfl

theorem acceptFrame_yields (quiet : ∀ at_ start w w', holds at_ start w → ratcheting w' = ratcheting w →
      holds at_ start w') (frame : Ref) (held : Slot × ℕ) (payload : Bytes) (guess : FormatGuess) (opened : Bytes)
    (survives : Survives contract holds { point := .durableAccept, frame := some frame, payload := some payload })
    (now : holds at_ start w) :
    Yields contract holds (acceptFrame runtime frame held payload guess opened) (fun _ => True) at_ start w := by
  obtain ⟨windows, accepted⟩ := Worker.acceptReplay_eq w held.1 held.2 frame
  refine yields_bind (yields_update (quiet _ _ w _ now (by rw [accepted]; rfl))) fun _ _ _ w now _ => ?_
  refine yields_bind (durableAccept_yields (guardless_of_quiet quiet) survives held.1 now) fun _ _ _ w now _ => ?_
  refine yields_bind (yields_update (quiet _ _ w _ now (ratcheting_of_core (by simp)))) fun _ _ _ w now _ => ?_
  refine yields_bind (yields_update (quiet _ _ w _ now rfl)) fun _ _ _ w now _ => ?_
  exact yields_update (quiet _ _ w _ now (ratcheting_of_core (by simp)))

end Frames

/-- The pair of a frame, which it shows once it has passed its replay check. -/
abbrev framesKey (at_ : AwaitPoint) : Option (ℤ × ℤ) := at_.slot.map fun held => (held.1.epoch, held.1.peerIndex)

theorem openResolved_fulfils (frame : Ref) (held : Slot × ℕ) (payload : Bytes) (guess : FormatGuess)
    (probed : Option Probed) (fresh : Fresh runtime origin w₀ framesKey at_ start w) :
    Fulfils (sharing runtime origin w₀ framesKey) (openResolved runtime frame held payload guess probed)
      (fun at_ start _ w => Calm runtime origin w₀ framesKey at_ start w)
      (fun at_ start _ w => Calm runtime origin w₀ framesKey at_ start w) at_ start w := by
  cases probed with
  | some found =>
    simp only [openResolved, fulfils_bind, fulfils_update, fulfils_pure]
    exact calm_of_fresh (fresh_of fresh rfl)
  | none =>
    have shown : Sites framesKey
        (fun point => { point := .ratchet point, frame := some frame, payload := some payload, slot := some held })
        { buf := payload.drop guess.prefixLen, epoch := held.1.epoch, peerIndex := held.1.peerIndex
          aadPrefix := aadPrefixOf payload guess.prefixLen, aadForm := guess.aadForm } :=
      ⟨fun _ => rfl, fun _ => rfl⟩
    have returned (at_ : AwaitPoint) (start w : Worker K G) (outcome : Except JsError Bytes)
        (calm : Calm runtime origin w₀ framesKey at_ start w) :
        Fulfils (sharing runtime origin w₀ framesKey) (do
            pause { point := .ratchet .returned, frame := some frame, payload := some payload, slot := some held }
            let opened ← settle outcome
            update fun state => state.setFormatCache held.1.epoch held.1.peerIndex guess
            return opened)
          (fun at_ start _ w => Calm runtime origin w₀ framesKey at_ start w)
          (fun at_ start _ w => Calm runtime origin w₀ framesKey at_ start w) at_ start w := by
      refine fulfils_after (yields_pause (calm_survives rfl) calm) (fun _ _ _ _ calm _ => ?_) fun _ _ _ _ calm => calm
      rw [fulfils_bind, fulfils_settle]
      cases outcome with
      | ok opened =>
        simp only [fulfils_bind, fulfils_update, fulfils_pure]
        exact calm_of calm rfl
      | error refused => exact calm
    simp only [openResolved]
    rw [fulfils_bind, fulfils_attempt]
    refine fulfils_mono (tryDecryptWithRatchet_fulfils shown fresh) ?_ ?_
    · exact fun _ _ _ _ calm => returned _ _ _ _ calm
    · exact fun _ _ _ _ calm => returned _ _ _ _ calm

/-- A drop is reported to the main thread and thrown. -/
private theorem report_fulfils {report : Worker K G → Worker K G}
    (fresh : Fresh runtime origin w₀ framesKey at_ start w)
    (same : (report w).core = w.core) (refused : JsError) {α : Type} :
    Fulfils (sharing runtime origin w₀ framesKey) (do update report; throw refused : Task K G α)
      (fun at_ start _ w => Calm runtime origin w₀ framesKey at_ start w)
      (fun at_ start _ w => Calm runtime origin w₀ framesKey at_ start w) at_ start w := by
  simp only [fulfils_bind, fulfils_update, fulfils_throw]
  exact calm_of_fresh (fresh_of fresh (ratcheting_of_core same))

theorem decodePayload_fulfils (frame : Ref) (payload : Bytes) (guess : FormatGuess) (probed : Option Probed)
    (hdr : SFrameHeader) (fresh : Fresh runtime origin w₀ framesKey at_ start w) :
    Fulfils (sharing runtime origin w₀ framesKey) (decodePayload runtime frame payload guess probed hdr)
      (fun at_ start _ w => Calm runtime origin w₀ framesKey at_ start w)
      (fun at_ start _ w => Calm runtime origin w₀ framesKey at_ start w) at_ start w := by
  have freshly : ∀ at_ start (w w' : Worker K G), Fresh runtime origin w₀ framesKey at_ start w →
      ratcheting w' = ratcheting w → Fresh runtime origin w₀ framesKey at_ start w' := fun _ _ _ _ => fresh_of
  have calmly : ∀ at_ start (w w' : Worker K G), Calm runtime origin w₀ framesKey at_ start w →
      ratcheting w' = ratcheting w → Calm runtime origin w₀ framesKey at_ start w' := fun _ _ _ _ => calm_of
  have thrown : ∀ at_ start (_ : JsError) w, Fresh runtime origin w₀ framesKey at_ start w →
      Calm runtime origin w₀ framesKey at_ start w := fun _ _ _ _ => calm_of_fresh
  unfold decodePayload
  rw [fulfils_bind, fulfils_read]
  dsimp only
  split
  · exact report_fulfils fresh (by simp) _
  · split
    · simp only [fulfils_bind, fulfils_update, fulfils_pure]
      obtain ⟨kept, -, same⟩ := Worker.core_pushToQueue w frame
        (some (w.kidCodec.decode hdr.kid).2)
      have parked := ratcheting_of_core same
      exact calm_of_fresh (fresh_of fresh parked)
    · refine fulfils_after (checkReplay_yields (unchecked_of_quiet freshly) _ fresh)
        (fun _ _ object _ fresh _ => ?_) thrown
      cases object with
      | none => exact report_fulfils fresh (by simp) _
      | some object =>
        refine fulfils_after (durableCheck_yields (guardless_of_quiet freshly) (fresh_survives rfl) _ fresh)
          (fun _ _ answer _ fresh _ => ?_) thrown
        split
        · exact report_fulfils fresh (by simp) _
        · rw [fulfils_bind, fulfils_read]
          split
          · exact report_fulfils fresh (by simp) _
          · rw [fulfils_bind]
            refine fulfils_mono (openResolved_fulfils frame _ payload guess probed fresh) ?_
              (fun _ _ _ _ calm => calm)
            intro _ _ opened w calm
            refine fulfils_after (acceptFrame_yields calmly frame _ payload guess opened (calm_survives rfl) calm)
              (fun _ _ _ w calm _ => ?_) (fun _ _ _ _ calm => calm)
            simp only [fulfils_bind, fulfils_update, fulfils_pure]
            exact calm_of calm (ratcheting_of_core (Worker.core_emitMetric _ _))

theorem decodeFrame_fulfils (frame : Ref) (fresh : Fresh runtime origin w₀ framesKey at_ start w) :
    Fulfils (sharing runtime origin w₀ framesKey) (Media.decodeFrame runtime frame)
      (fun at_ start _ w => Calm runtime origin w₀ framesKey at_ start w)
      (fun at_ start _ w => Calm runtime origin w₀ framesKey at_ start w) at_ start w := by
  unfold Media.decodeFrame
  rw [fulfils_bind, fulfils_read]
  dsimp only
  split
  · exact calm_of_fresh fresh
  · rename_i payload _
    refine fulfils_after (resolveFormat_yields frame payload _ _ (fresh_survives rfl) (fresh_survives rfl) fresh)
      (fun _ _ resolved w fresh _ => ?_) (fun _ _ _ _ => calm_of_fresh)
    rw [fulfils_bind, fulfils_read]
    split
    · exact report_fulfils fresh (by simp) _
    · rw [fulfils_bind, fulfils_update, fulfils_tryCatch]
      refine fulfils_mono (decodePayload_fulfils frame payload _ _ _ (fresh_of fresh rfl)) (fun _ _ _ _ calm => calm) ?_
      intro _ _ refused w calm
      simp only [fulfils_bind, fulfils_update, fulfils_throw]
      exact calm_of calm (ratcheting_of_core (by simp))

end Caller

/-! ## Any number of callers -/

section Callers
variable {runtime : Runtime K G} {origin : ℤ → ℤ → RatchetKey K} {w₀ : Worker K G} {start w : Worker K G}
  {loop loop' : Option (ℤ × ℤ)}

theorem effect_next (effect : Effect runtime origin w₀ start loop loop' w) :
    start.promises.next ≤ w.promises.next := by
  have promises {v : Worker K G} (same : ratcheting w = ratcheting v) : w.promises = v.promises := by
    simp only [ratcheting, Prod.mk.injEq] at same
    exact same.2.2.2.2.1
  cases effect with
  | quiet same => rw [promises same]
  | begins _ same => rw [promises same]; exact Nat.le_succ _
  | fails _ _ same => rw [promises same]; exact Nat.le_succ _
  | ends _ _ advanced _ same =>
    rw [promises same]
    rcases advanced with rfl | ⟨_, _, _, _, _, rfl⟩ <;> exact le_refl _
  | leaves _ same => rw [promises same]; exact le_refl _

/-- A promise that has settled stays so. -/
theorem effect_settled (effect : Effect runtime origin w₀ start loop loop' w) {promise : Ref}
    (allocated : promise < start.promises.next) (settled : (start.promises.read promise).settled = true) :
    (w.promises.read promise).settled = true := by
  have promises {v : Worker K G} (same : ratcheting w = ratcheting v) : w.promises = v.promises := by
    simp only [ratcheting, Prod.mk.injEq] at same
    exact same.2.2.2.2.1
  have old : promise ≠ start.promises.next := Nat.ne_of_lt allocated
  cases effect with
  | quiet same => rw [promises same]; exact settled
  | begins _ same => rw [promises same]; simpa [begun, old] using settled
  | fails _ _ same => rw [promises same]; simpa [resolvePromise, begun, old] using settled
  | leaves _ same => rw [promises same]; exact settled
  | @ends _ own outcome v _ _ advanced written same =>
    have kept : v.promises = start.promises := by
      rcases advanced with rfl | ⟨_, _, _, _, _, rfl⟩ <;> rfl
    rw [promises same]
    simp only [resolvePromise, kept, Heap.read_write]
    split
    · exact written
    · exact settled

/-- A turn of one call leaves the loop of another call's pair alone. -/
theorem effect_elsewhere (sound : Sound runtime origin w₀ start)
    (effect : Effect runtime origin w₀ start loop loop' w) {pair : ℤ × ℤ} {promise : Ref}
    (mapped : start.ratchetPromises.get? pair = some promise)
    (pending : (start.promises.read promise).settled = false)
    (apart : ∀ own, loop = some own → own ≠ pair ∧
      start.ratchetPromises.get? own ≠ start.ratchetPromises.get? pair) :
    w.ratchetPromises.get? pair = some promise ∧ (w.promises.read promise).settled = false ∧
      w.cachedKey pair.1 pair.2 = start.cachedKey pair.1 pair.2 ∧
      cursor w pair.1 pair.2 = cursor start pair.1 pair.2 := by
  have parts {v : Worker K G} (same : ratcheting w = ratcheting v) :
      w.promises = v.promises ∧ w.ratchetPromises = v.ratchetPromises := by
    simp only [ratcheting, Prod.mk.injEq] at same
    exact same.2.2.2.2
  have fresh : promise ≠ start.promises.next := Nat.ne_of_lt (sound.promised mapped)
  have distinct {own : ℤ × ℤ} (alone : promisePending start own = false) : pair ≠ own := by
    intro same
    simp [← same, promisePending, mapped, pending] at alone
  have unmoved (same : keying w = keying start) : w.cachedKey pair.1 pair.2 = start.cachedKey pair.1 pair.2 ∧
      cursor w pair.1 pair.2 = cursor start pair.1 pair.2 := ⟨cachedKey_of same _ _, cursor_of same _ _⟩
  cases effect with
  | quiet same =>
    obtain ⟨promises, map⟩ := parts same
    rw [promises, map]
    exact ⟨mapped, pending, unmoved (keying_of same)⟩
  | @begins own _ alone same =>
    obtain ⟨promises, map⟩ := parts same
    have keyed := keying_of same
    refine ⟨?_, ?_, unmoved keyed⟩
    · rw [map]; simpa [begun, distinct alone] using mapped
    · rw [promises]; simpa [begun, fresh] using pending
  | @fails own outcome _ alone same =>
    obtain ⟨promises, map⟩ := parts same
    have keyed := keying_of same
    refine ⟨?_, ?_, unmoved keyed⟩
    · rw [map]; simpa [resolvePromise, begun, distinct alone] using mapped
    · rw [promises]; simpa [resolvePromise, begun, fresh] using pending
  | @leaves own _ alone same =>
    obtain ⟨promises, map⟩ := parts same
    have keyed := keying_of same
    refine ⟨?_, ?_, unmoved keyed⟩
    · rw [map]; simpa [left, distinct alone] using mapped
    · rw [promises]; exact pending
  | @ends own other outcome v _ held advanced _ same =>
    obtain ⟨promises, map⟩ := parts same
    obtain ⟨differs, unequal⟩ := apart own rfl
    have another : promise ≠ other := by
      intro equal
      rw [held, mapped, equal] at unequal
      exact unequal rfl
    have keyed := keying_of same
    rcases advanced with rfl | ⟨ref, next, step, found, -, rfl⟩
    · refine ⟨?_, ?_, unmoved keyed⟩
      · rw [map]; exact mapped
      · rw [promises]; simpa [resolvePromise, another] using pending
    · have elsewhere : (pair.1, pair.2) ≠ (own.1, own.2) := fun equal => differs equal.symm
      have keyed : keying w = keying (advanceKey start ref own.2 next step) := keyed
      refine ⟨?_, ?_, ?_, ?_⟩
      · rw [map]; exact mapped
      · rw [promises]
        simp only [resolvePromise, Heap.read_write, another, ↓reduceIte]
        exact pending
      · rw [cachedKey_of keyed, cachedKey_advanceKey sound.own found, if_neg elsewhere]
      · rw [cursor_of keyed, cursor_advanceKey sound.own found, if_neg elsewhere]

variable {ι : Type}

/-- The pair whose loop a call shows that it runs. -/
def loopOf (key : AwaitPoint → Option (ℤ × ℤ)) (status : Status AwaitPoint (Except JsError Outcome)) : Option (ℤ × ℤ) :=
  match status with
  | .suspended at_ => loopAt key at_
  | _ => none

/-- The loops under way stand in the map with pending promises, each in its own. -/
structure Apart (runtime : Runtime K G) (origin : ℤ → ℤ → RatchetKey K) (w₀ : Worker K G) (calls : ι → DecryptCall)
    (w : Worker K G) (statuses : ι → Status AwaitPoint (Except JsError Outcome)) : Prop where
  sound : Sound runtime origin w₀ w
  mapped : ∀ {call pair}, loopOf (dedupKey (calls call)) (statuses call) = some pair →
    ∃ promise, w.ratchetPromises.get? pair = some promise ∧ (w.promises.read promise).settled = false
  apart : ∀ {call other pair pair'}, call ≠ other → loopOf (dedupKey (calls call)) (statuses call) = some pair →
    loopOf (dedupKey (calls other)) (statuses other) = some pair' →
    pair ≠ pair' ∧ w.ratchetPromises.get? pair ≠ w.ratchetPromises.get? pair'

variable [DecidableEq ι] {calls : ι → DecryptCall} {statuses : ι → Status AwaitPoint (Except JsError Outcome)}

/-- The loop that a turn of a call starts or goes on with, in the map afterwards. -/
theorem effect_own (sound : Sound runtime origin w₀ start) {pair : ℤ × ℤ}
    (effect : Effect runtime origin w₀ start loop (some pair) w)
    (mapped : loop = some pair → ∃ promise, start.ratchetPromises.get? pair = some promise ∧
      (start.promises.read promise).settled = false) :
    (∃ promise, w.ratchetPromises.get? pair = some promise ∧ (w.promises.read promise).settled = false) ∧
      ∀ other promise, start.ratchetPromises.get? other = some promise →
        (start.promises.read promise).settled = false →
        (loop = some pair → pair ≠ other ∧ start.ratchetPromises.get? pair ≠ start.ratchetPromises.get? other) →
        pair ≠ other ∧ w.ratchetPromises.get? pair ≠ some promise := by
  have parts {v : Worker K G} (same : ratcheting w = ratcheting v) :
      w.promises = v.promises ∧ w.ratchetPromises = v.ratchetPromises := by
    simp only [ratcheting, Prod.mk.injEq] at same
    exact same.2.2.2.2
  cases effect with
  | quiet same =>
    obtain ⟨promises, map⟩ := parts same
    rw [promises, map]
    refine ⟨mapped rfl, fun other promise held _ apart => ?_⟩
    rw [← held]
    exact apart rfl
  | begins alone same =>
    obtain ⟨promises, map⟩ := parts same
    rw [promises, map]
    refine ⟨⟨start.promises.next, by simp [begun], by simp [begun, PromiseState.settled]⟩, ?_⟩
    intro other promise held pending _
    constructor
    · rintro rfl
      simp [promisePending, held, pending] at alone
    · have old := sound.promised held
      simp only [begun, OrderedMap.get?_set, ↓reduceIte, ne_eq, Option.some.injEq]
      exact Nat.ne_of_gt old

/-- Every turn keeps the loops apart. -/
theorem apart_effect (held : Apart runtime origin w₀ calls start statuses) {call : ι}
    {status : Status AwaitPoint (Except JsError Outcome)}
    (effect : Effect runtime origin w₀ start (loopOf (dedupKey (calls call)) (statuses call))
      (loopOf (dedupKey (calls call)) status) w) :
    Apart runtime origin w₀ calls w (Function.update statuses call status) := by
  have elsewhere {other : ι} (different : other ≠ call) {pair : ℤ × ℤ}
      (runs : loopOf (dedupKey (calls other)) (statuses other) = some pair) : ∃ promise,
      start.ratchetPromises.get? pair = some promise ∧ (start.promises.read promise).settled = false ∧
        w.ratchetPromises.get? pair = some promise ∧ (w.promises.read promise).settled = false := by
    obtain ⟨promise, mapped, pending⟩ := held.mapped runs
    obtain ⟨map, kept, -⟩ := effect_elsewhere held.sound effect mapped pending
      fun own same => held.apart different.symm same runs
    exact ⟨promise, mapped, pending, map, kept⟩
  have mine {pair : ℤ × ℤ} (runs : loopOf (dedupKey (calls call)) status = some pair) :=
    effect_own held.sound (runs ▸ effect) held.mapped
  have against {other : ι} (different : other ≠ call) {pair pair' : ℤ × ℤ}
      (runs : loopOf (dedupKey (calls call)) status = some pair)
      (others : loopOf (dedupKey (calls other)) (statuses other) = some pair') :
      pair ≠ pair' ∧ w.ratchetPromises.get? pair ≠ w.ratchetPromises.get? pair' := by
    obtain ⟨promise, mapped, pending, map, -⟩ := elsewhere different others
    rw [map]
    exact (mine runs).2 pair' promise mapped pending fun same => held.apart different.symm same others
  refine ⟨sound_effect held.sound effect, ?_, ?_⟩
  · intro other pair runs
    by_cases same : other = call
    · subst same
      rw [Function.update_self] at runs
      exact (mine runs).1
    · rw [Function.update_of_ne same] at runs
      obtain ⟨promise, -, -, map, pending⟩ := elsewhere same runs
      exact ⟨promise, map, pending⟩
  · intro one other pair pair' different runs runs'
    by_cases own : one = call
    · subst own
      rw [Function.update_self] at runs
      rw [Function.update_of_ne different.symm] at runs'
      exact against different.symm runs runs'
    · rw [Function.update_of_ne own] at runs
      by_cases same : other = call
      · subst same
        rw [Function.update_self] at runs'
        obtain ⟨pairs, promises⟩ := against own runs' runs
        exact ⟨pairs.symm, promises.symm⟩
      · rw [Function.update_of_ne same] at runs'
        obtain ⟨promise, mapped, -, map, -⟩ := elsewhere own runs
        obtain ⟨promise', mapped', -, map', -⟩ := elsewhere same runs'
        have apart := held.apart different runs runs'
        rw [mapped, mapped'] at apart
        rw [map, map']
        exact apart

omit [DecidableEq ι] in
/-- What another call relies on survives every turn. -/
theorem undisturbed_effect (held : Apart runtime origin w₀ calls start statuses) {call other : ι}
    (different : other ≠ call) {site : AwaitPoint} (waits : statuses other = .suspended site)
    (effect : Effect runtime origin w₀ start (loopOf (dedupKey (calls call)) (statuses call)) loop' w)
    {since : Worker K G} (undisturbed : Undisturbed (dedupKey (calls other)) site since start) :
    Undisturbed (dedupKey (calls other)) site since w := by
  have kept {pair : ℤ × ℤ} (within : loopAt (dedupKey (calls other)) site = some pair) :
      w.ratchetPromises.get? pair = start.ratchetPromises.get? pair ∧
        w.cachedKey pair.1 pair.2 = start.cachedKey pair.1 pair.2 ∧
        cursor w pair.1 pair.2 = cursor start pair.1 pair.2 := by
    have runs : loopOf (dedupKey (calls other)) (statuses other) = some pair := by simp [loopOf, waits, within]
    obtain ⟨promise, mapped, pending⟩ := held.mapped runs
    obtain ⟨map, -, keys⟩ := effect_elsewhere held.sound effect mapped pending
      fun own same => held.apart different.symm same runs
    exact ⟨map.trans mapped.symm, keys⟩
  constructor
  · exact undisturbed.next.trans (effect_next effect)
  · intro promise allocated settled
    exact effect_settled effect (allocated.trans_le undisturbed.next) (undisturbed.settled promise allocated settled)
  · exact fun pair within => (kept within).1.trans (undisturbed.mapped pair within)
  · exact fun pair within => (kept within).2.1.trans (undisturbed.cached pair within)
  · exact fun pair within => (kept within).2.2.trans (undisturbed.cursor pair within)

end Callers

/-! ## Runs -/

section Runs
variable {ι : Type} [DecidableEq ι] {runtime : Runtime K G} {origin : ℤ → ℤ → RatchetKey K} {w₀ : Worker K G}

/-- The turns in which a caller that looks at the dedup map, after a promise has
settled, finds no pending promise of its pair there. -/
def findsNonePending (calls : ι → DecryptCall) : WorkerPool ι K G → ι → WorkerPool ι K G → Prop :=
  fun before call after => whereAllowed (FindsNonePending (dedupKey (calls call))) before call after

instance (calls : ι → DecryptCall) (before : WorkerPool ι K G) (call : ι) (after : WorkerPool ι K G) :
    Decidable (findsNonePending calls before call after) := by
  unfold findsNonePending
  infer_instance

/-- From one pool of a run to a later one: the cached keys are where the cursors
say, no cursor has gone back, and no pair has two retry loops under way. -/
structure CursorKept (runtime : Runtime K G) (origin : ℤ → ℤ → RatchetKey K) (calls : ι → DecryptCall)
    (middle last : WorkerPool ι K G) : Prop where
  onCursor : OnCursor runtime origin last.shared
  forward : ∀ epoch peerIndex, cursor middle.shared epoch peerIndex ≤ cursor last.shared epoch peerIndex
  oneLoop : OneLoopEach calls last.statuses

/-- What a call ends with does not matter to the ratchet. -/
def ended (runtime : Runtime K G) (origin : ℤ → ℤ → RatchetKey K) (w₀ : Worker K G)
    (key : AwaitPoint → Option (ℤ × ℤ)) (at_ : AwaitPoint) (start : Worker K G) (_ : Except JsError Outcome)
    (w : Worker K G) : Prop := Effect runtime origin w₀ start (loopAt key at_) none w

theorem program_relies (call : DecryptCall) {state : Worker K G}
    (assumed : (sharing runtime origin w₀ (dedupKey call)).assume { point := .start } state) :
    Relies (sharing runtime origin w₀ (dedupKey call)) (call.call.program runtime).run
      (ended runtime origin w₀ (dedupKey call)) { point := .start } state state := by
  have finished (at_ : AwaitPoint) (start w : Worker K G) (calm : Calm runtime origin w₀ (dedupKey call) at_ start w)
      (outcome : Except JsError Outcome) : ended runtime origin w₀ (dedupKey call) at_ start outcome w := by
    change Effect runtime origin w₀ start (loopAt (dedupKey call) at_) none w
    rw [calm.outside]
    exact calm.effect
  apply relies_of_fulfils
  cases call with
  | tryDecryptWithRatchet o =>
    have fresh : Fresh runtime origin w₀ (dedupKey (.tryDecryptWithRatchet o)) { point := .start } state state :=
      ⟨assumed.1, rfl, rfl⟩
    have shown : Sites (dedupKey (.tryDecryptWithRatchet o)) (fun point => { point := .ratchet point }) o :=
      ⟨fun _ => rfl, fun _ => rfl⟩
    simp only [DecryptCall.call, Call.program, fulfils_bind, fulfils_pure]
    exact fulfils_mono (tryDecryptWithRatchet_fulfils shown fresh) (fun _ _ _ _ calm => finished _ _ _ calm _)
      (fun _ _ _ _ calm => finished _ _ _ calm _)
  | decodeFrame frame =>
    have fresh : Fresh runtime origin w₀ framesKey { point := .start } state (receiveFrame frame state) :=
      ⟨assumed.1, rfl, rfl⟩
    simp only [DecryptCall.call, Call.program, receive, fulfils_bind, fulfils_read, fulfils_update, fulfils_pure]
    exact fulfils_mono (decodeFrame_fulfils state.frames.next fresh) (fun _ _ _ _ calm => finished _ _ _ calm _)
      (fun _ _ _ _ calm => finished _ _ _ calm _)

/-- A turn of a call has an effect on the ratchet. -/
theorem moved_effect {key : AwaitPoint → Option (ℤ × ℤ)} {at_ : AwaitPoint} {start w : Worker K G}
    {status : Status AwaitPoint (Except JsError Outcome)}
    (moved : Moved (sharing runtime origin w₀ key).toContract (ended runtime origin w₀ key) at_ start status w) :
    Effect runtime origin w₀ start (loopOf key (.suspended at_)) (loopOf key status) w := by
  cases status with
  | running => exact moved.elim
  | suspended next => exact moved
  | finished outcome => exact moved

/-- In a run through the gate, a property of the worker that every effect of a
turn keeps goes on holding. -/
theorem runs_apart {calls : ι → DecryptCall} {first last : WorkerPool ι K G} {kept : Worker K G → Prop}
    (keeps : ∀ start loop loop' w, Sound runtime origin w₀ start → kept start →
      Effect runtime origin w₀ start loop loop' w → kept w)
    (relying : Relying (fun call => sharing runtime origin w₀ (dedupKey (calls call)))
      (fun call => ended runtime origin w₀ (dedupKey (calls call)))
      (fun w statuses => Apart runtime origin w₀ calls w statuses ∧ kept w) first)
    (run : Runs (findsNonePending calls) first last) :
    Relying (fun call => sharing runtime origin w₀ (dedupKey (calls call)))
      (fun call => ended runtime origin w₀ (dedupKey (calls call)))
      (fun w statuses => Apart runtime origin w₀ calls w statuses ∧ kept w) last := by
  refine runs_relying _ _ _ ?_ ?_ ?_ ?_ relying run
  · intro call site state
    exact ⟨le_refl _, fun _ _ settled => settled, fun _ _ => rfl, fun _ _ => rfl, fun _ _ => rfl⟩
  · intro before call site after holds waits _ passes
    exact ⟨holds.1.sound, passes site waits⟩
  · intro before call at_ after other site since holds waits _ moved different waiting undisturbed
    have effect := moved_effect moved
    rw [← waits] at effect
    exact undisturbed_effect holds.1 different waiting effect undisturbed
  · intro before call site after holds waits _ moved
    have effect := moved_effect moved
    rw [← waits] at effect
    exact ⟨apart_effect holds.1 effect, keeps _ _ _ _ holds.1.sound holds.2 effect⟩

/-- **The cursor under concurrency.** Whatever the number of callers and their
order, as long as a caller that looks at the dedup map after a promise has
settled finds no pending promise of its pair there: every cached raw key is the
installed one iterated to its cursor, no cursor goes back, and every pair has
one retry loop at a time. -/
theorem cursor_kept (calls : ι → DecryptCall) (installed : Installed runtime origin w₀)
    {middle last : WorkerPool ι K G}
    (earlier : Runs (findsNonePending calls) (launch runtime w₀ fun call => (calls call).call) middle)
    (later : Runs (findsNonePending calls) middle last) : CursorKept runtime origin calls middle last := by
  have begins : Relying (fun call => sharing runtime origin w₀ (dedupKey (calls call)))
      (fun call => ended runtime origin w₀ (dedupKey (calls call)))
      (fun w statuses => Apart runtime origin w₀ calls w statuses ∧ True)
      (launch runtime w₀ fun call => (calls call).call) := by
    apply launch_relying
    · intro call site state
      exact ⟨le_refl _, fun _ _ settled => settled, fun _ _ => rfl, fun _ _ => rfl, fun _ _ => rfl⟩
    · refine ⟨⟨⟨installed, rfl, rfl, rfl⟩, ?_, ?_⟩, trivial⟩
      · intro call pair never
        cases never
      · intro call other pair pair' _ never
        cases never
    · exact fun call state assumed => program_relies (calls call) assumed
  obtain ⟨holds, since, waiting⟩ := runs_apart (fun _ _ _ _ _ _ _ => trivial) begins earlier
  have onward : Relying (fun call => sharing runtime origin w₀ (dedupKey (calls call)))
      (fun call => ended runtime origin w₀ (dedupKey (calls call)))
      (fun w statuses => Apart runtime origin w₀ calls w statuses ∧
        ∀ epoch peerIndex, cursor middle.shared epoch peerIndex ≤ cursor w epoch peerIndex) last := by
    apply runs_apart ?_ ⟨⟨holds.1, fun _ _ => le_refl _⟩, since, waiting⟩ later
    intro start _ _ w sound kept effect epoch peerIndex
    exact (kept epoch peerIndex).trans (cursor_effect sound effect epoch peerIndex)
  obtain ⟨⟨apart, forward⟩, -⟩ := onward
  refine ⟨?_, forward, ?_⟩
  · intro epoch peerIndex key cached
    rw [apart.sound.keys cached]
    rfl
  · intro call other at_ site pair waits waits' loops loops'
    by_contra different
    have runs : loopOf (dedupKey (calls call)) (last.statuses call) = some pair := by simp [loopOf, waits, loops]
    have runs' : loopOf (dedupKey (calls other)) (last.statuses other) = some pair := by simp [loopOf, waits', loops']
    exact (apart.apart different runs runs').1 rfl

end Runs

/-! ## A run with four callers -/

section Checked
open Specimen (sealedBy keyOf stepOf installed)

/-- A receiver of epoch 0 that tries two ratchet steps. -/
def twoStepReceiver : Worker Bytes Unit := { installed 0 1 [7, 9] with ratchetWindowSize := 2 }

/-- The keys that the receiver got. -/
def installedKeys (_ : ℤ) (peerIndex : ℤ) : RatchetKey Bytes := if peerIndex = 0 then keyOf 0 0 7 else keyOf 0 1 9

/-- Two forged frames, and the sender's frames two steps and one step down its ratchet. -/
def forgedThenGenuine : Fin 4 → DecryptCall
  | 0 => .decodeFrame { data := sealedBy (keyOf 0 0 66) 1 [0] }
  | 1 => .decodeFrame { data := sealedBy (keyOf 0 0 66) 2 [0] }
  | 2 => .decodeFrame { data := sealedBy (stepOf (stepOf (keyOf 0 0 7))) 3 [1, 2, 3] }
  | 3 => .decodeFrame { data := sealedBy (stepOf (keyOf 0 0 7)) 4 [4, 5, 6] }

def fourCallers : WorkerPool (Fin 4) Bytes Unit :=
  launch Specimen.runtime twoStepReceiver fun call => (forgedThenGenuine call).call

/-- Both forged frames exhaust the window, one after the other. The two callers
that waited for the second one's promise start their loops together. -/
def wokenTogether : List (Fin 4) :=
  [0, 0, 0, 0, 1, 1, 1, 1, 2, 2, 2, 2, 3, 3, 3, 3, 0, 1, 2, 3, 0, 0, 0, 0, 0, 1, 2, 3, 1, 1, 1, 1, 1,
    2, 3, 2, 2, 2, 2, 3, 3]

/-- The cursor has counted three steps, and the key is one step down. -/
theorem cursor_outruns_key : ¬ ∀ middle last, Runs anyTurn fourCallers middle → Runs anyTurn middle last →
    CursorKept Specimen.runtime installedKeys forgedThenGenuine middle last := by
  intro kept
  have result : ((fourCallers.followPassing anyTurn wokenTogether).map fun pool =>
      (pool.shared.cachedKey 0 0).map fun key =>
        decide ((keyAt Specimen.runtime pool.shared.suite pool.shared.kidCodec 0 0 (installedKeys 0 0)
          (cursor pool.shared 0 0)).toOption.map (·.rawKey) = some key.rawKey)) = some (some false) := by
    decide +kernel
  obtain ⟨last, followed, looked⟩ := Option.map_eq_some_iff.mp result
  obtain ⟨key, cached, strayed⟩ := Option.map_eq_some_iff.mp looked
  have onCursor := (kept _ last .start (followPassing_runs followed)).onCursor 0 0 key cached
  apply of_decide_eq_false strayed
  cases at_ : keyAt Specimen.runtime last.shared.suite last.shared.kidCodec 0 0 (installedKeys 0 0)
      (cursor last.shared 0 0) with
  | error refused => rw [at_] at onCursor; cases onCursor
  | ok found =>
    rw [at_] at onCursor
    simpa [Except.toOption, Except.map] using onCursor

/-- The keys of the receiver's two senders. -/
def installedTable : OrderedMap ℤ (RatchetKey Bytes) :=
  ((∅ : OrderedMap ℤ (RatchetKey Bytes)).set 0 (keyOf 0 0 7)).set 1 (keyOf 0 1 9)

theorem twoStepReceiver_installed : Installed Specimen.runtime installedKeys twoStepReceiver := by
  have epochs : twoStepReceiver.epochs = (∅ : OrderedMap ℤ Ref).set 0 0 := by rfl
  have entry : twoStepReceiver.entries.read 0 = ⟨0, 1, installedTable, ∅⟩ := by rfl
  constructor
  · intro epoch other ref found again
    simp only [epochs, OrderedMap.get?_set, OrderedMap.get?_empty] at found again
    split at found
    · split at again
      · omega
      · cases again
    · cases found
  · intro pair promise never
    cases never
  · intro epoch peerIndex key cached
    simp only [Worker.cachedKey, cursor, epochs, OrderedMap.get?_set, OrderedMap.get?_empty] at cached ⊢
    split at cached
    · rename_i same
      subst same
      simp only [Option.bind_some, entry, installedTable, OrderedMap.get?_set, OrderedMap.get?_empty] at cached
      simp only [↓reduceIte, entry, OrderedMap.get?_empty, Option.getD_none, keyAt, installedKeys]
      split at cached
      · obtain rfl := Option.some.inj cached
        rename_i same
        simp [same]
      · split at cached
        · obtain rfl := Option.some.inj cached
          rename_i same
          simp [same]
        · cases cached
    · cases cached

/-- One frame after the other, the cursor counts the steps of both. -/
theorem cursor_kept_genuine : ∃ middle last : WorkerPool (Fin 4) Bytes Unit,
    cursor middle.shared 0 0 = 1 ∧ cursor last.shared 0 0 = 2 ∧
      CursorKept Specimen.runtime installedKeys forgedThenGenuine middle last := by
  have earlier : ((fourCallers.followPassing (findsNonePending forgedThenGenuine)
      [3, 3, 3, 3, 3, 3, 3, 3, 3]).map fun pool => (cursor pool.shared 0 0,
        (pool.followPassing (findsNonePending forgedThenGenuine) [2, 2, 2, 2, 2, 2]).map fun pool =>
          cursor pool.shared 0 0)) = some (1, some 2) := by decide +kernel
  obtain ⟨middle, followed, looked⟩ := Option.map_eq_some_iff.mp earlier
  obtain ⟨one, rest⟩ := Prod.mk.inj looked
  obtain ⟨last, onward, two⟩ := Option.map_eq_some_iff.mp rest
  exact ⟨middle, last, one, two, cursor_kept forgedThenGenuine twoStepReceiver_installed
    (followPassing_runs followed) (followPassing_runs onward)⟩

end Checked
end SFrameRatchet.RatchetCursor
