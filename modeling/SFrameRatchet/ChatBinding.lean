import SFrameRatchet.ChatLedger
import SFrameRatchet.ChatProvider
import SFrameRatchet.FrameIntegrity

/-! Sealing and unsealing in chat mode, one call after the other, under base keys that
stay what they are. The cache of derived keys is then without effect, and what a call
returns is told by the ledger of the provider. -/
namespace SFrameRatchet.ChatBinding
open BigEndian Collections Coroutine Throwing Crypto Header SFrame DurableReplay Chat

variable {K B : Type}

/-! ## Keys -/

/-- The application has one base key for every room, from which a key and a salt are
derived for every sender. -/
structure Keyed (runtime : ChatRuntime K B) (keyOf : SealContext → SFrameKey K) : Prop where
  base : ∀ roomId, ∃ base, (∀ answered, runtime.getKey roomId answered = .ok base) ∧
    (runtime.usages base).contains "deriveKey" = true ∧ ∀ senderUid,
      runtime.deriveKey base (runtime.digest (textEncode roomId)) (infoKey senderUid) =
        .ok (keyOf ⟨roomId, senderUid⟩).cryptoKey ∧
      runtime.deriveBits base (runtime.digest (textEncode roomId)) (infoSalt senderUid) (12 * 8) =
        .ok (keyOf ⟨roomId, senderUid⟩).salt
  salted : ∀ context, (keyOf context).salt.length = ivBytes
  identified : ∀ context, Kid.makeKid 0 (peerIndexForUid runtime context.senderUid) = .ok (keyOf context).kid ∧
    (keyOf context).epoch = 0 ∧ (keyOf context).peerIndex = peerIndexForUid runtime context.senderUid

/-- The cache holds nothing but what would be derived. -/
def Warm (keyOf : SealContext → SFrameKey K) (s : ChatProvider K) : Prop :=
  ∀ roomId senderUid keys, s.own.keyCache.get roomId senderUid = some keys →
    keys.aesCryptoKey = (keyOf ⟨roomId, senderUid⟩).cryptoKey ∧ keys.salt = (keyOf ⟨roomId, senderUid⟩).salt

theorem warm_of {keyOf : SealContext → SFrameKey K} {s : ChatProvider K} {own : ChatState K}
    (warm : Warm keyOf { s with own }) {s' : ChatProvider K} (same : s'.own = own) : Warm keyOf s' := by
  unfold Warm
  rw [same]
  exact warm

section Keys
variable {runtime : ChatRuntime K B} {keyOf : SealContext → SFrameKey K} {s : ChatProvider K} {context : SealContext}

/-- A key is found in the cache or derived, and it is the same. -/
theorem derive_alone (keyed : Keyed runtime keyOf) (warm : Warm keyOf s) {base : B}
    (returned : ∀ answered, runtime.getKey context.roomId answered = .ok base) (rotations : ℕ) :
    ∃ keys own, alone (deriveAesKeyAndSalt runtime base rotations context) s = some (.ok keys, { s with own }) ∧
      keys.aesCryptoKey = (keyOf context).cryptoKey ∧ keys.salt = (keyOf context).salt ∧
      Warm keyOf { s with own } ∧ own.allocated = s.own.allocated := by
  obtain ⟨same, answers, -, derives⟩ := keyed.base context.roomId
  obtain rfl : same = base := Except.ok.inj ((answers 0).symm.trans (returned 0))
  obtain ⟨key, salt⟩ := derives context.senderUid
  unfold deriveAesKeyAndSalt
  rw [alone_bind, alone_read, Option.bind_some]
  dsimp only
  cases cached : s.own.keyCache.get context.roomId context.senderUid with
  | some keys =>
    obtain ⟨sameKey, sameSalt⟩ := warm _ _ keys cached
    exact ⟨keys, s.own, rfl, sameKey, sameSalt, warm, rfl⟩
  | none =>
    simp only [alone_bind, alone_pause, alone_promised, Option.bind_some, key, salt, alone_update, alone_pure]
    refine ⟨_, _, rfl, rfl, rfl, fun roomId senderUid keys found => ?_, rfl⟩
    rcases KeyDerivationCache.get_set found with ⟨rfl, rfl, rfl⟩ | earlier
    · exact ⟨rfl, rfl⟩
    · exact warm roomId senderUid keys earlier

variable (context) in
/-- Both calls come to the key of their context. -/
theorem senderKey_alone (keyed : Keyed runtime keyOf) (warm : Warm keyOf s) (slot : Option Slot) :
    ∃ use own, alone (senderKey runtime context slot) s = some (.ok (keyOf context, use), { s with own }) ∧
      Warm keyOf { s with own } ∧ own.allocated = s.own.allocated := by
  obtain ⟨base, answers, usable, -⟩ := keyed.base context.roomId
  obtain ⟨kid, epoch, peerIndex⟩ := keyed.identified context
  let asked : ChatProvider K := { s with own.answered := s.own.answered + 1 }
  obtain ⟨keys, own, derived, key, salt, warm', allocated⟩ :=
    derive_alone (s := asked) keyed warm answers (s.own.rotations context.roomId)
  have same : ({ kid := (keyOf context).kid, epoch := 0, peerIndex := peerIndexForUid runtime context.senderUid
                 cryptoKey := keys.aesCryptoKey, salt := keys.salt } : SFrameKey K) = keyOf context := by
    rw [key, salt, ← epoch, ← peerIndex]
  unfold senderKey
  simp only [alone_bind, alone_read, alone_pause, alone_update, alone_promised, Option.bind_some, answers, usable,
    ↓reduceIte]
  change ∃ use own', ((alone (deriveAesKeyAndSalt runtime base (s.own.rotations context.roomId) context) asked).bind
    _) = _ ∧ _
  rw [derived]
  refine ⟨⟨context.roomId, keys.rotations, s.own.rotations context.roomId⟩, own, ?_, warm', allocated⟩
  simp only [Option.bind_some, alone_settle, kid, alone_pure, same]
  rfl

end Keys
/-! ## Calls -/

/-- A call that seals or unseals. -/
inductive Mail where
  | seal_ (plaintext : Bytes) (context : SealContext)
  | unseal_ (sealedBytes : Bytes) (context : SealContext)
  deriving DecidableEq

def Mail.call : Mail → ChatCall
  | seal_ plaintext context => .seal_ plaintext context
  | unseal_ sealedBytes context => .unseal_ sealedBytes context

abbrev Reply := Except JsError (Option Bytes)

/-- What the replies depend on: the ledger, and how often the allocator has answered. -/
structure Standing where
  ledger : Ledger
  allocated : ℕ

def standing (s : ChatProvider K) : Standing := ⟨ledgerOf s, s.own.allocated⟩

section Calls
variable (runtime : ChatRuntime K B) (settings : ReplaySettings) (keyOf : SealContext → SFrameKey K)

/-- What a sealed buffer opens to in a context. -/
def opening (sealedBytes : Bytes) (context : SealContext) : Except JsError Bytes :=
  sframeDecrypt runtime.crypto sealedBytes (fun _ _ _ _ => some (keyOf context)) .fixed none .prefixed

/-- The reply to a call, and where the provider stands then. -/
def Mail.pass (now : Standing) : Mail → Reply × Standing
  | seal_ plaintext context =>
    (((runtime.nextCtr context.roomId context.senderUid now.allocated).bind fun ctr =>
        sframeEncrypt runtime.crypto plaintext (keyOf context) ctr none .prefixed).map some,
      { now with allocated := now.allocated + 1 })
  | unseal_ sealedBytes context =>
    match slotOf sealedBytes context with
    | .error refused => (.error refused, now)
    | .ok slot =>
      let received := now.ledger.receive settings "sframe-chat" slot (opening runtime keyOf sealedBytes context)
      (received.1.map some, { now with ledger := received.2 })

/-- A provider between two calls, with any windows and anything in its cache. -/
structure Settled (s : ChatProvider K) : Prop where
  ready : Ready settings s
  warm : Warm keyOf s

variable {runtime settings keyOf} {s : ChatProvider K}

theorem unseal_passes (keyed : Keyed runtime keyOf) (settled : Settled settings keyOf s) (sealedBytes : Bytes)
    (context : SealContext) : ∃ s',
      alone ((Mail.unseal_ sealedBytes context).call.program runtime settings) s =
        some ((Mail.unseal_ sealedBytes context).pass runtime settings keyOf (standing s) |>.1, s') ∧
      Settled settings keyOf s' ∧
      standing s' = ((Mail.unseal_ sealedBytes context).pass runtime settings keyOf (standing s)).2 := by
  obtain ⟨use, own, found, warm, allocated⟩ :=
    senderKey_alone context keyed settled.warm (slotOf sealedBytes context).toOption
  have ready : Ready settings { s with own } := settled.ready.own own
  simp only [Mail.call, ChatCall.program, unseal_, alone_bind, found, Option.bind_some, alone_settle, Mail.pass]
  cases parsed : slotOf sealedBytes context with
  | error refused =>
    refine ⟨{ s with own }, rfl, ⟨ready, warm⟩, ?_⟩
    change Standing.mk _ _ = Standing.mk _ _
    rw [allocated]
    rfl
  | ok slot =>
    have fits := (slotOf_ok parsed).2
    obtain ⟨checked, outcome, ran, ready', ledger, same, verdict⟩ :=
      checkReplay_ledger (P := ChatPlace) ready "sframe-chat" fits
    have start : (ledgerOf s).enter slot.context.roomId = ledgerOf checked := ledger.symm
    simp only [ran, Option.bind_some]
    cases refusal : (ledgerOf checked).refusal settings "sframe-chat" slot with
    | some refused =>
      rw [refusal] at verdict
      obtain rfl := verdict
      refine ⟨checked, ?_, ⟨ready', warm_of warm same⟩, ?_⟩
      · simp only [standing, Ledger.receive, start, refusal]
        rfl
      · simp only [standing, Ledger.receive, start, refusal, same, allocated]
    | none =>
      rw [refusal] at verdict
      obtain ⟨window, rfl, there⟩ := verdict
      let used : ChatProvider K := { checked with own.uses := checked.own.uses ++ [use] }
      have usedReady : Ready settings used := ready'.own _
      obtain ⟨last, opened, ready'', kept, ends⟩ :=
        openChecked_ledger (P := ChatPlace) usedReady runtime.crypto there fits
        "sframe-chat" refusal sealedBytes (keyOf context)
      have cache : last.own.keyCache = own.keyCache := by rw [kept]; exact congrArg (·.keyCache) same
      have count : last.own.allocated = s.own.allocated := by
        rw [kept]
        exact (congrArg (·.allocated) same).trans allocated
      simp only [noteUse, alone_update, Option.bind_some]
      change ∃ s', ((alone (openChecked runtime.crypto settings slot window sealedBytes (keyOf context)) used).bind _) =
        _ ∧ _
      rw [opened]
      have warm'' : Warm keyOf last := by
        unfold Warm
        rw [cache]
        exact warm
      refine ⟨last, ?_, ⟨ready'', warm''⟩, ?_⟩
      · simp only [standing, Ledger.receive, start, refusal, opening]
        cases sframeDecrypt runtime.crypto sealedBytes (fun _ _ _ _ => some (keyOf context)) .fixed none .prefixed
          <;> rfl
      · simp only [standing, Ledger.receive, start, refusal, opening, count, ends]
        cases sframeDecrypt runtime.crypto sealedBytes (fun _ _ _ _ => some (keyOf context)) .fixed none .prefixed
          <;> rfl

theorem seal_passes (keyed : Keyed runtime keyOf) (settled : Settled settings keyOf s) (plaintext : Bytes)
    (context : SealContext) : ∃ s',
      alone ((Mail.seal_ plaintext context).call.program runtime settings) s =
        some ((Mail.seal_ plaintext context).pass runtime settings keyOf (standing s) |>.1, s') ∧
      Settled settings keyOf s' ∧
      standing s' = ((Mail.seal_ plaintext context).pass runtime settings keyOf (standing s)).2 := by
  obtain ⟨use, own, found, warm, allocated⟩ := senderKey_alone context keyed settled.warm none
  have ready : Ready settings { s with own } := settled.ready.own own
  simp only [Mail.call, ChatCall.program, seal_, alone_bind, found, Option.bind_some, alone_read, alone_update,
    alone_promised, Mail.pass, allocated, standing]
  cases runtime.nextCtr context.roomId context.senderUid s.own.allocated with
  | error refused => exact ⟨_, rfl, ⟨ready.own _, warm⟩, rfl⟩
  | ok ctr =>
    simp only [noteUse, alone_update, Option.bind_some, Except.bind]
    cases sframeEncrypt runtime.crypto plaintext (keyOf context) ctr none .prefixed with
    | error refused => exact ⟨_, rfl, ⟨ready.own _, warm⟩, rfl⟩
    | ok sealedBytes => exact ⟨_, rfl, ⟨ready.own _, warm⟩, rfl⟩

/-- Every call ends, with the reply of the ledger. -/
theorem mail_passes (keyed : Keyed runtime keyOf) (settled : Settled settings keyOf s) (mail : Mail) : ∃ s',
    alone (mail.call.program runtime settings) s = some ((mail.pass runtime settings keyOf (standing s)).1, s') ∧
      Settled settings keyOf s' ∧ standing s' = (mail.pass runtime settings keyOf (standing s)).2 := by
  cases mail with
  | seal_ plaintext context => exact seal_passes keyed settled plaintext context
  | unseal_ sealedBytes context => exact unseal_passes keyed settled sealedBytes context

variable (runtime settings keyOf) in
/-- An unseal rejects, and its room has come to have a window at most, or it resolves
with what its buffer opens to, and its slot is recorded. -/
theorem unseal_cases (now : Standing) (sealedBytes : Bytes) (context : SealContext) :
    (∃ refused ledger, (Mail.unseal_ sealedBytes context).pass runtime settings keyOf now =
        (.error refused, { now with ledger }) ∧
      ((∃ malformed, slotOf sealedBytes context = .error malformed) ∧ ledger = now.ledger ∨
        ∃ slot, slotOf sealedBytes context = .ok slot ∧ ledger = now.ledger.enter context.roomId)) ∨
    ∃ slot plaintext, slotOf sealedBytes context = .ok slot ∧
      opening runtime keyOf sealedBytes context = .ok plaintext ∧
      (Mail.unseal_ sealedBytes context).pass runtime settings keyOf now =
        (.ok (some plaintext), { now with ledger := (now.ledger.enter context.roomId).record settings slot }) := by
  cases parsed : slotOf sealedBytes context with
  | error refused => exact .inl ⟨refused, now.ledger, by simp only [Mail.pass, parsed], .inl ⟨⟨refused, rfl⟩, rfl⟩⟩
  | ok slot =>
    have same : slot.context = context := (slotOf_ok parsed).1
    simp only [Mail.pass, parsed]
    rcases now.ledger.receive_cases settings "sframe-chat" slot (opening runtime keyOf sealedBytes context) with
      ⟨refused, received⟩ | ⟨plaintext, opens, -, received⟩
    · rw [received, same]
      exact .inl ⟨refused, _, rfl, .inr ⟨slot, rfl, rfl⟩⟩
    · rw [received, same]
      exact .inr ⟨slot, plaintext, rfl, opens, rfl⟩

theorem pass_honest {now : Standing} (honest : now.ledger.Honest) (mail : Mail) :
    (mail.pass runtime settings keyOf now).2.ledger.Honest := by
  cases mail with
  | seal_ plaintext context => exact honest
  | unseal_ sealedBytes context =>
    rcases unseal_cases runtime settings keyOf now sealedBytes context with
      ⟨refused, ledger, passed, ⟨-, rfl⟩ | ⟨slot, -, rfl⟩⟩ | ⟨slot, plaintext, -, -, passed⟩
    · rw [passed]
      exact honest
    · rw [passed]
      exact honest.enter _
    · rw [passed]
      exact (honest.enter _).record settings slot

/-- What a call adds to what has been accepted is a slot that its buffer opens for. -/
theorem pass_accepted (now : Standing) (mail : Mail) {slot : Slot}
    (member : slot ∈ (mail.pass runtime settings keyOf now).2.ledger.accepted) :
    slot ∈ now.ledger.accepted ∨ ∃ sealedBytes plaintext, mail = .unseal_ sealedBytes slot.context ∧
      slotOf sealedBytes slot.context = .ok slot ∧ opening runtime keyOf sealedBytes slot.context = .ok plaintext := by
  cases mail with
  | seal_ plaintext context => exact .inl member
  | unseal_ sealedBytes context =>
    rcases unseal_cases runtime settings keyOf now sealedBytes context with
      ⟨refused, ledger, passed, ⟨-, rfl⟩ | ⟨other, -, rfl⟩⟩ | ⟨other, plaintext, parsed, opens, passed⟩
    · rw [passed] at member
      exact .inl member
    · rw [passed] at member
      exact .inl member
    · rw [passed] at member
      rcases List.mem_append.mp member with earlier | last
      · exact .inl earlier
      · obtain rfl := List.mem_singleton.mp last
        obtain rfl : slot.context = context := (slotOf_ok parsed).1
        exact .inr ⟨sealedBytes, plaintext, rfl, parsed, opens⟩

end Calls
/-! ## What has been sealed -/

section Sealed
variable (runtime : ChatRuntime K B) (keyOf : SealContext → SFrameKey K) (sent : SealContext → Bytes → ℕ → Prop)

/-- A buffer is what a plaintext was sealed into; `sent` tells what has been sealed in
each context, and with which counters. -/
def SealedAs (context : SealContext) (plaintext : Bytes) (ctr : ℕ) (sealedBytes : Bytes) : Prop :=
  sent context plaintext ctr ∧ sframeEncrypt runtime.crypto plaintext (keyOf context) ctr none .prefixed =
    .ok sealedBytes

/-- The buffer has been sealed in the context. -/
def Authentic (context : SealContext) (sealedBytes : Bytes) : Prop :=
  ∃ plaintext ctr, SealedAs runtime keyOf sent context plaintext ctr sealedBytes

/-- The derived keys differ, each of them opens what has been sealed under it and nothing
else, and no counter is used twice with a key. A buffer is sealed in one context only. -/
structure Ideal : Prop where
  keys : ∀ context other, (keyOf context).cryptoKey = (keyOf other).cryptoKey → context = other
  seals : ∀ key iv aad plaintext, ∃ ct, runtime.crypto.encrypt key iv aad plaintext = some ct
  tagged : ∀ key iv aad plaintext ct, runtime.crypto.encrypt key iv aad plaintext = some ct →
    ct.length = plaintext.length + aeadTagBytes
  opens : ∀ key iv aad ct plaintext, runtime.crypto.decrypt key iv aad ct = some plaintext ↔
    ∃ context ctr, (keyOf context).cryptoKey = key ∧ sent context plaintext ctr ∧
      Encrypts runtime.crypto (keyOf context) .prefixed ⟨plaintext, ctr, none⟩ iv aad ct
  counters : ∀ context plaintext other ctr, sent context plaintext ctr → sent context other ctr → plaintext = other
  buffers : ∀ context other sealedBytes, Authentic runtime keyOf sent context sealedBytes →
    Authentic runtime keyOf sent other sealedBytes → context = other

variable {runtime keyOf sent} {context : SealContext} {plaintext sealedBytes : Bytes} {ctr : ℕ}

/-- In its context a buffer opens to what was sealed into it there. -/
theorem opening_iff (ideal : Ideal runtime keyOf sent) : opening runtime keyOf sealedBytes context = .ok plaintext ↔
    ∃ ctr, SealedAs runtime keyOf sent context plaintext ctr sealedBytes := by
  unfold opening
  constructor
  · intro opened
    cases parsed : parseHeader sealedBytes with
    | error refused => simp [sframeDecrypt, parsed, bind, Except.bind] at opened
    | ok hdr =>
      obtain ⟨-, iv, -, body⟩ := (sframeDecrypt_ok parsed).mp opened
      obtain ⟨other, ctr, same, sealed, header, written, derived, aad, made⟩ := (ideal.opens _ _ _ _ _).mp body
      obtain rfl := ideal.keys _ _ same
      obtain rfl : sealedBytes.take hdr.bodyOffset = header := aad
      exact ⟨ctr, sealed, sframeEncrypt_ok.mpr
        ⟨_, iv, _, written, derived, made, (List.take_append_drop _ _).symm⟩⟩
  · rintro ⟨ctr, sealed, made⟩
    obtain ⟨header, iv, ct, written, derived, encrypted, rfl⟩ := sframeEncrypt_ok.mp made
    refine (sframeDecrypt_header written).mpr ⟨?_, iv, derived, ?_⟩
    · rw [ideal.tagged _ _ _ _ _ encrypted]
      exact Nat.le_add_left _ _
    · exact (ideal.opens _ _ _ _ _).mpr ⟨context, ctr, rfl, sealed, header, written, derived, rfl, encrypted⟩

/-- A buffer carries the counter that it was sealed with. -/
theorem sealedAs_slot (sealed : SealedAs runtime keyOf sent context plaintext ctr sealedBytes) (other : SealContext) :
    slotOf sealedBytes other = .ok ⟨other, ctr⟩ := by
  obtain ⟨header, iv, ct, written, -, -, rfl⟩ := sframeEncrypt_ok.mp sealed.2
  unfold slotOf
  rw [parseHeader_serializeHeader written ct]
  rfl

/-- In one context a counter tells what has been sealed with it. -/
theorem sealedAs_unique (ideal : Ideal runtime keyOf sent) {other otherBytes : Bytes}
    (sealed : SealedAs runtime keyOf sent context plaintext ctr sealedBytes)
    (again : SealedAs runtime keyOf sent context other ctr otherBytes) :
    other = plaintext ∧ otherBytes = sealedBytes := by
  obtain rfl := ideal.counters _ _ _ _ again.1 sealed.1
  exact ⟨rfl, Except.ok.inj (again.2.symm.trans sealed.2)⟩

/-- Sealing succeeds at every counter of 64 bits. -/
theorem seal_total (keyed : Keyed runtime keyOf) (ideal : Ideal runtime keyOf sent) (context : SealContext)
    (plaintext : Bytes) {ctr : ℕ} (fits : ctr < 2 ^ 64) :
    ∃ sealedBytes, sframeEncrypt runtime.crypto plaintext (keyOf context) ctr none .prefixed = .ok sealedBytes := by
  have narrow : (keyOf context).kid ≤ 0xffffffff := (Kid.splitKid_makeKid (keyed.identified context).1).2
  obtain ⟨header, written⟩ : ∃ header, serializeHeader (keyOf context).kid ctr = .ok header :=
    serializeHeader_total (by omega) (by omega)
  have derived : deriveIv (keyOf context).salt ctr = .ok _ := if_neg (not_not.mpr (keyed.salted context))
  obtain ⟨ct, made⟩ := ideal.seals (keyOf context).cryptoKey _ (buildAad none header .prefixed) plaintext
  exact ⟨_, sframeEncrypt_ok.mpr ⟨header, _, ct, written, derived, made, rfl⟩⟩

end Sealed
end SFrameRatchet.ChatBinding
