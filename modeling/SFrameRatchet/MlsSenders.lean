import SFrameRatchet.ChatClearing
import SFrameRatchet.MlsSpecimen

/-! Whose frame an unseal opens. The key is that of the peer whose index the buffer
carries; the uid of the caller's context is asked only for the replay window. So a
frame opens under any context whose window has not seen its counter. -/
namespace SFrameRatchet.MlsSenders
open BigEndian Collections Throwing Crypto Kid Header SFrame DurableReplay DurableWindow Chat MlsChat

variable {K : Type}

/-- A member has sealed a buffer in the epoch of a room; `sealed_` tells what each
member has sealed in it, and with which counters. -/
def SealedBy (crypto : WebCrypto K) (roomState : RoomEpochState K) (sealed_ : String → Bytes → ℕ → Prop)
    (peerId : String) (sealedBytes : Bytes) : Prop :=
  ∃ key plaintext ctr, roomState.keys.get? peerId = some key ∧ sealed_ peerId plaintext ctr ∧
    sframeEncrypt crypto plaintext key ctr none .prefixed = .ok sealedBytes

/-- Under a member's key exactly that opens which the member has sealed. -/
structure OpensSealed (crypto : WebCrypto K) (roomState : RoomEpochState K) (sealed_ : String → Bytes → ℕ → Prop) :
    Prop where
  opens : ∀ peerId key iv header body plaintext, roomState.keys.get? peerId = some key →
    (crypto.decrypt key.cryptoKey iv header body = some plaintext ↔ ∃ ctr, sealed_ peerId plaintext ctr ∧
      serializeHeader key.kid ctr = .ok header ∧ deriveIv key.salt ctr = .ok iv ∧
        crypto.encrypt key.cryptoKey iv header plaintext = some body)
  tagged : ∀ key iv header body plaintext, crypto.encrypt key iv header plaintext = some body →
    body.length = plaintext.length + aeadTagBytes

/-- Neither the window of a sender nor the durable guard has seen a counter. -/
def Unseen (settings : ReplaySettings) (s : MlsProvider K) (slot : Slot) : Prop :=
  ((s.getReplayWindow slot.context settings.replayWindow).2.windows.read
    (s.getReplayWindow slot.context settings.replayWindow).1).check slot.ctr = true ∧
  (s.durableAvailable settings = true →
    ((check () (durableKey slot.context) slot.ctr).solo s.origin).map Prod.fst = some true)

/-- A buffer carries the index of another member than the one whom the context names,
that member has sealed it, and the context has not seen its counter. -/
def Misattributed (runtime : MlsRuntime K) (settings : ReplaySettings) (sealed_ : String → Bytes → ℕ → Prop)
    (roomState : RoomEpochState K) (s : MlsProvider K) (context : SealContext) (sealedBytes : Bytes) : Prop :=
  ∃ peerId key ctr, openingKey roomState context.roomId sealedBytes = .ok (peerId, key, ctr) ∧
    peerId ≠ runtime.uidToPeerId context.senderUid ∧
      SealedBy runtime.crypto roomState sealed_ peerId sealedBytes ∧ Unseen settings s ⟨context, ctr⟩

/-! ## Keys -/

section Keys
variable {crypto : WebCrypto K} {roomState : RoomEpochState K} {sealed_ : String → Bytes → ℕ → Prop} {roomId : String}
  {sealedBytes : Bytes} {peerId : String} {key : SFrameKey K} {ctr : ℕ}

/-- What a key was found for opens with it if its member has sealed it. -/
theorem opens_iff (ideal : OpensSealed crypto roomState sealed_)
    (found : openingKey roomState roomId sealedBytes = .ok (peerId, key, ctr)) :
    (∃ plaintext, sframeDecrypt crypto sealedBytes (fun _ _ _ _ => some key) .fixed none .prefixed = .ok plaintext) ↔
      SealedBy crypto roomState sealed_ peerId sealedBytes := by
  obtain ⟨hdr, parsed, -, -, -, held⟩ := openingKey_ok found
  constructor
  · rintro ⟨plaintext, opened⟩
    obtain ⟨-, iv, -, body⟩ := (sframeDecrypt_ok parsed).mp opened
    obtain ⟨ctr, own, written, derived, made⟩ := (ideal.opens _ _ _ _ _ _ held).mp body
    exact ⟨key, plaintext, ctr, held, own, sframeEncrypt_ok.mpr
      ⟨_, iv, _, written, derived, made, (List.take_append_drop _ _).symm⟩⟩
  · rintro ⟨same, plaintext, ctr, again, own, made⟩
    obtain rfl : key = same := Option.some.inj (held.symm.trans again)
    obtain ⟨header, iv, ct, written, derived, encrypted, rfl⟩ := sframeEncrypt_ok.mp made
    have read := parseHeader_serializeHeader written ct
    obtain rfl := Except.ok.inj (parsed.symm.trans read)
    refine ⟨plaintext, (sframeDecrypt_ok parsed).mpr ⟨?_, iv, derived, ?_⟩⟩
    · dsimp only
      rw [List.length_append, ideal.tagged _ _ _ _ _ encrypted]
      omega
    · dsimp only
      rw [List.take_left, List.drop_left]
      exact (ideal.opens _ _ _ _ _ _ held).mpr ⟨ctr, own, written, derived, encrypted⟩

/-- In a map without repeated indices, the index in a buffer is that of the member who
has sealed it. -/
theorem sealedBy_named {runtime : MlsRuntime K} {params : MlsEpochParams}
    (derived : deriveRoomEpoch runtime params = .ok roomState) (distinct : params.peerIndexMap.values.Nodup)
    (found : openingKey roomState roomId sealedBytes = .ok (peerId, key, ctr)) {member : String}
    (sealed : SealedBy runtime.crypto roomState sealed_ member sealedBytes) : peerId = member := by
  obtain ⟨hdr, parsed, -, -, named, -⟩ := openingKey_ok found
  obtain ⟨own, plaintext, _, held, -, made⟩ := sealed
  obtain ⟨header, iv, ct, written, -, -, rfl⟩ := sframeEncrypt_ok.mp made
  obtain rfl := Except.ok.inj (parsed.symm.trans (parseHeader_serializeHeader written ct))
  obtain ⟨-, keys, peers⟩ := deriveRoomEpoch_ok derived
  obtain ⟨index, full, listed, bundle, rfl⟩ := keys _ _ held
  obtain ⟨kid, -, -⟩ := deriveSenderKeys_fields bundle
  have split : splitKid full.kid = (params.epoch, index) := (splitKid_makeKid kid).1
  have names : params.peerIndexMap.get? peerId = some index := by
    have listed := peers _ _ named
    rwa [show (splitKid ((full.toSFrameKey.kid : ℤ)).toNat).2 = index from congrArg Prod.snd split] at listed
  exact congrArg Prod.fst (List.inj_on_of_nodup_map distinct (OrderedMap.mem_entries.mpr names)
    (OrderedMap.mem_entries.mpr listed) rfl)

end Keys

/-! ## Calls -/

section Calls
variable {runtime : MlsRuntime K} {settings : ReplaySettings} {s : MlsProvider K} {slot : Slot} {sealedBytes : Bytes}
  {key : SFrameKey K}

/-- A counter that has not been seen passes the check. -/
theorem checkReplay_unseen (name : String) (resting : Resting () s.origin) (unseen : Unseen settings s slot) :
    ∃ window s', alone (checkReplay name settings slot : MlsTask K Ref) s = some (.ok window, s') ∧
      Resting () s'.origin := by
  obtain ⟨fresh, guard⟩ := unseen
  have same := s.getReplayWindow_origin slot.context settings.replayWindow
  have available : (s.getReplayWindow slot.context settings.replayWindow).2.durableAvailable settings =
      s.durableAvailable settings := by
    rw [ProviderState.durableAvailable, same, ProviderState.durableAvailable]
  simp only [checkReplay, alone_bind, alone_read, alone_update, Option.bind_some, fresh, ↓reduceIte, available]
  split
  · rename_i durable
    obtain ⟨value, o', asked, rests, -⟩ := ChatClearing.check_rests resting
      (show (s.origin.tabs ()).settings = (true, (s.origin.tabs ()).settings.2) from
        Prod.ext resting.available rfl) (durableKey slot.context) slot.ctr
    have passes := guard durable
    rw [asked] at passes
    obtain rfl := Option.some.inj passes
    simp only [alone_bind, alone_onGuard, same, asked, Option.map_some, Option.bind_some]
    exact ⟨_, _, rfl, rests⟩
  · refine ⟨_, _, rfl, ?_⟩
    rw [same]
    exact resting

/-- A buffer that opens is returned. -/
theorem openChecked_opens (settings : ReplaySettings) (slot : Slot) (window : Ref) {plaintext : Bytes}
    (resting : Resting () s.origin)
    (opened : sframeDecrypt runtime.crypto sealedBytes (fun _ _ _ _ => some key) .fixed none
      .prefixed = .ok plaintext) :
    ∃ s', alone (openChecked runtime.crypto settings slot window sealedBytes key : MlsTask K Bytes) s =
      some (.ok plaintext, s') := by
  simp only [openChecked, opened, alone_bind, alone_promised, Option.bind_some, alone_update, alone_read]
  split
  · obtain ⟨value, o', recorded, -⟩ := ChatClearing.accept_rests resting
      (show (s.origin.tabs ()).settings = (true, (s.origin.tabs ()).settings.2) from
        Prod.ext resting.available rfl) (durableKey slot.context) slot.ctr
    simp only [alone_bind, alone_onGuard]
    rw [show (s.acceptReplay window { slot, key, sealedBytes }).origin = s.origin from rfl, recorded]
    exact ⟨_, rfl⟩
  · exact ⟨_, rfl⟩

/-- What an unseal returns was opened with the key that the buffer named. -/
theorem unseal_opened {context : SealContext} {plaintext : Bytes} {s' : MlsProvider K}
    (ran : alone (MlsChat.unseal_ runtime settings sealedBytes context) s = some (.ok plaintext, s')) :
    ∃ peerId key ctr, unsealingKey s context sealedBytes = .ok (peerId, key, ctr) ∧ Unseen settings s ⟨context, ctr⟩ ∧
      sframeDecrypt runtime.crypto sealedBytes (fun _ _ _ _ => some key) .fixed none .prefixed = .ok plaintext := by
  unfold MlsChat.unseal_ at ran
  simp only [alone_bind, alone_read, alone_settle, Option.bind_some] at ran
  cases found : unsealingKey s context sealedBytes with
  | error refused =>
    rw [found] at ran
    cases ran
  | ok opening =>
    obtain ⟨peerId, key, ctr⟩ := opening
    rw [found] at ran
    dsimp only at ran
    cases checked : alone (checkReplay "createMlsChatProvider" settings ⟨context, ctr⟩ : MlsTask K Ref) s with
    | none => simp [checked] at ran
    | some result =>
      obtain ⟨passed, middle⟩ := result
      rw [checked, Option.bind_some] at ran
      cases passed with
      | error refused => cases ran
      | ok window =>
        refine ⟨peerId, key, ctr, rfl, ?_, (alone_openChecked ran).1⟩
        obtain ⟨⟨origin, rfl⟩, passes⟩ := alone_checkReplay checked
        obtain ⟨rfl, fresh, guard⟩ := passes window rfl
        refine ⟨fresh, fun durable => ?_⟩
        have same := s.getReplayWindow_origin context settings.replayWindow
        rw [ProviderState.durableAvailable, same] at guard
        exact guard durable

end Calls

/-- In a room whose epoch was set with a map without repeated indices, an unseal opens
only what the member named by its context has sealed, exactly if the buffer is not one
that another member has sealed, at a counter that the context has not seen. -/
theorem unseal_binds_sender_iff (runtime : MlsRuntime K) (settings : ReplaySettings)
    (sealed_ : String → Bytes → ℕ → Prop) {params : MlsEpochParams} {roomState : RoomEpochState K}
    (derived : deriveRoomEpoch runtime params = .ok roomState) (distinct : params.peerIndexMap.values.Nodup)
    (ideal : OpensSealed runtime.crypto roomState sealed_) (s : MlsProvider K) (resting : Resting () s.origin)
    (context : SealContext) (installed : s.own.roomEpochs.get? context.roomId = some roomState) (sealedBytes : Bytes) :
    (∀ plaintext s', alone (MlsChat.unseal_ runtime settings sealedBytes context) s = some (.ok plaintext, s') →
      SealedBy runtime.crypto roomState sealed_ (runtime.uidToPeerId context.senderUid) sealedBytes) ↔
    ¬ Misattributed runtime settings sealed_ roomState s context sealedBytes := by
  have opening : unsealingKey s context sealedBytes = openingKey roomState context.roomId sealedBytes := by
    simp only [unsealingKey, installed]
  constructor
  · rintro binds ⟨peerId, key, ctr, found, apart, sealed, unseen⟩
    obtain ⟨plaintext, opened⟩ := (opens_iff ideal found).mpr sealed
    obtain ⟨window, middle, checked, rests⟩ := checkReplay_unseen "createMlsChatProvider" resting unseen
    obtain ⟨last, returned⟩ := openChecked_opens settings ⟨context, ctr⟩ window rests opened
    have ran : alone (MlsChat.unseal_ runtime settings sealedBytes context) s = some (.ok plaintext, last) := by
      simp only [MlsChat.unseal_, alone_bind, alone_read, alone_settle, Option.bind_some, opening, found, checked,
        returned]
    exact apart (sealedBy_named derived distinct found (binds plaintext last ran))
  · intro bound plaintext s' ran
    obtain ⟨peerId, key, ctr, found, unseen, opened⟩ := unseal_opened ran
    rw [opening] at found
    have sealed := (opens_iff ideal found).mp ⟨plaintext, opened⟩
    by_cases named : peerId = runtime.uidToPeerId context.senderUid
    · exact named ▸ sealed
    · exact absurd ⟨peerId, key, ctr, found, named, sealed, unseen⟩ bound

section Checked
open MlsSpecimen (settings params ann bob mail)

/-- The room in its first epoch. -/
def firstEpoch : RoomEpochState Bytes :=
  match deriveRoomEpoch MlsSpecimen.runtime (params 1) with
  | .ok roomState => roomState
  | .error _ => { epoch := 0, keys := ∅, indexToPeerId := ∅ }

/-- Ann has sealed one frame, and nobody anything else. -/
def onlyMail (peerId : String) (plaintext : Bytes) (ctr : ℕ) : Prop := peerId = "ann" ∧ plaintext = [104, 105] ∧ ctr = 0

/-- Ann's key, and the IV of its first counter. -/
def annsKey : Bytes × Bytes :=
  match (firstEpoch.keys.get? "ann").map fun key => (key.cryptoKey, deriveIv key.salt 0) with
  | some (cryptoKey, .ok iv) => (cryptoKey, iv)
  | _ => ([], [])

/-- The checksum runtime, with an AEAD that opens that frame only. -/
def runtime : MlsRuntime Bytes :=
  { MlsSpecimen.runtime with
    crypto := { Specimen.crypto with
      decrypt := fun key iv header body =>
        if (key, iv) = annsKey ∧ header = mail.take 6 ∧ body = mail.drop 6 then some [104, 105] else none } }

/-- The provider in the first epoch of the room. -/
def provider : MlsProvider Bytes :=
  { MlsSpecimen.provider with own.roomEpochs := (∅ : OrderedMap String (RoomEpochState Bytes)).set "room" firstEpoch }

theorem firstEpoch_derived : deriveRoomEpoch runtime (params 1) = .ok firstEpoch := by
  have made : (deriveRoomEpoch MlsSpecimen.runtime (params 1)).toBool = true := by decide +kernel
  change deriveRoomEpoch MlsSpecimen.runtime (params 1) = _
  unfold firstEpoch
  cases derived : deriveRoomEpoch MlsSpecimen.runtime (params 1) with
  | error refused =>
    rw [derived] at made
    cases made
  | ok roomState => rfl

/-- Ann's key is not bob's, and the frame is what it seals first. -/
theorem firstEpoch_keys : ∀ entry ∈ firstEpoch.keys.entries, (entry.1 = "ann" ↔ entry.2.cryptoKey = annsKey.1) ∧
    (entry.1 = "ann" → serializeHeader entry.2.kid 0 = .ok (mail.take 6) ∧ deriveIv entry.2.salt 0 = .ok annsKey.2 ∧
      Specimen.crypto.encrypt annsKey.1 annsKey.2 (mail.take 6) [104, 105] = some (mail.drop 6)) := by
  decide +kernel

theorem runtime_opensSealed : OpensSealed runtime.crypto firstEpoch onlyMail where
  opens peerId key iv header body plaintext held := by
    obtain ⟨named, seals⟩ := firstEpoch_keys (peerId, key) (OrderedMap.mem_entries.mpr held)
    constructor
    · intro opened
      simp only [runtime] at opened
      split at opened
      · rename_i cond
        obtain ⟨holder, rfl, rfl⟩ := cond
        obtain rfl := Option.some.inj opened
        have ann := named.mpr (congrArg Prod.fst holder)
        obtain ⟨written, derived, made⟩ := seals ann
        refine ⟨0, And.intro ann ⟨rfl, rfl⟩, written, ?_, ?_⟩
        · rw [show iv = annsKey.2 from congrArg Prod.snd holder]
          exact derived
        · rw [show key.cryptoKey = annsKey.1 from congrArg Prod.fst holder,
            show iv = annsKey.2 from congrArg Prod.snd holder]
          exact made
      · cases opened
    · rintro ⟨ctr, ⟨ann, rfl, rfl⟩, written, derived, made⟩
      obtain ⟨writes, derives, makes⟩ := seals ann
      obtain rfl := Except.ok.inj (written.symm.trans writes)
      obtain rfl := Except.ok.inj (derived.symm.trans derives)
      have same : key.cryptoKey = annsKey.1 := named.mp ann
      rw [same] at made ⊢
      obtain rfl := Option.some.inj (made.symm.trans makes)
      simp [runtime]
  tagged _ _ _ _ _ made := Specimen.crypto_correct.tagged made

/-- Bob's context opens what ann has sealed. -/
theorem other_sender_opens : OpensSealed runtime.crypto firstEpoch onlyMail ∧ ¬ ∀ context sealedBytes plaintext s',
    alone (MlsChat.unseal_ runtime settings sealedBytes context) provider = some (.ok plaintext, s') →
      SealedBy runtime.crypto firstEpoch onlyMail (runtime.uidToPeerId context.senderUid) sealedBytes := by
  refine ⟨runtime_opensSealed, fun binds => ?_⟩
  have result : (alone (MlsChat.unseal_ runtime settings mail bob) provider).map Prod.fst = some (.ok [104, 105]) := by
    decide +kernel
  obtain ⟨⟨outcome, s'⟩, ran, rfl⟩ := Option.map_eq_some_iff.mp result
  obtain ⟨key, plaintext, ctr, -, ⟨never, -⟩, -⟩ := binds bob mail _ _ ran
  exact absurd never (by decide)

/-- Ann's own context is one that no other member's frame goes to. -/
theorem unseal_binds_ann : (alone (MlsChat.unseal_ runtime settings mail ann) provider).map Prod.fst =
      some (.ok [104, 105]) ∧
    ((∀ plaintext s', alone (MlsChat.unseal_ runtime settings mail ann) provider = some (.ok plaintext, s') →
        SealedBy runtime.crypto firstEpoch onlyMail (runtime.uidToPeerId ann.senderUid) mail) ↔
      ¬ Misattributed runtime settings onlyMail firstEpoch provider ann mail) :=
  ⟨by decide +kernel,
    unseal_binds_sender_iff runtime settings onlyMail firstEpoch_derived (by decide) runtime_opensSealed provider
      (ChatClearing.guarded_create settings (K := Bytes)).resting ann rfl mail⟩

end Checked
end SFrameRatchet.MlsSenders
