import SFrameRatchet.Announcing
import SFrameRatchet.RoomSpecimen

/-! What a call leaves behind when it rejects. The members are replaced before the
first refusal and the epoch is installed before the recipients are served, so a
call that rejects leaves the room as it was only where those writes change
nothing. An announcement is consumed without a trace up to its installation. -/
namespace SFrameRatchet.RejectedCalls
open BigEndian Collections Throwing Crypto JsObject KeyWrap PeerIds Sas Room RoomRatchet Announcing

variable {K : Type}

/-- The same members, epochs and strings. -/
structure SameRoom (r r' : RoomRatchet K) : Prop where
  peers : r'.peers = r.peers
  epochs : r'.epochs = r.epochs
  currentEpoch : r'.currentEpoch = r.currentEpoch
  sasState : r'.sasState = r.sasState

section Conditions
variable (platform : Platform K) (options : RatchetOptions) (r : RoomRatchet K)

/-- The string for a recipient whose chain key can be wrapped, with what is drawn
from a number on. -/
def exchange (version : ℤ) (chainKey : Bytes) (drawn : ℕ) (peer : PeerIdentity) : Except JsError SasData :=
  match x25519Dh platform (platform.secretKey drawn) peer.publicKey with
  | .error refused => .error refused
  | .ok dhSecret =>
    match wrapChainKey platform chainKey (deriveWrapKey platform dhSecret version)
      (platform.randomValues (drawn + 1) wrapIvBytes) with
    | .error refused => .error refused
    | .ok _ => computeSas platform.crypto dhSecret

/-- Whether all recipients can be served, and the strings up to the first that
cannot. -/
def served (version : ℤ) (chainKey : Bytes) : ℕ → List PeerIdentity → OrderedMap JsString PeerSasState →
    Bool × OrderedMap JsString PeerSasState
  | _, [], strings => (true, strings)
  | drawn, peer :: rest, strings =>
    if peer.peerId = options.identity.peerId then served version chainKey drawn rest strings
    else match exchange platform version chainKey drawn peer with
      | .ok data =>
        served version chainKey (drawn + 2) rest (strings.set peer.peerId { epoch := version, data, verified := false })
      | .error _ => (false, strings)

/-- The key table of a draft. -/
def derived (draft : EpochDraft) : Except JsError (OrderedMap ℤ (RatchetKey K)) :=
  deriveEpochKeyTable platform.crypto draft.minted draft.version draft.peerIndexMap options.suite options.kidCodec

/-- What a draft installs. -/
def drafted (draft : EpochDraft) (keys : OrderedMap ℤ (RatchetKey K)) : EpochState K :=
  { epoch := draft.version, chainKey := draft.chainKey, peerIndexMap := draft.peerIndexMap
    selfPeerIndex := draft.peerIndexMap.get options.identity.peerId, keys }

/-- The draft is installed as it is, and not as a later epoch. -/
def Reinstalls (draft : EpochDraft) (keys : OrderedMap ℤ (RatchetKey K)) : Prop :=
  draft.version ≤ r.currentEpoch ∧ r.epochs.get? draft.version = some (drafted options draft keys)

/-- The draft that a call begins with. -/
def begun (members : List PeerIdentity) (version : Option ℤ) : Option Ref → EpochDraft
  | some chainKey =>
    { version := version.getD (r.currentEpoch + 1), chainKey, minted := r.chainKeys.read chainKey
      peerIndexMap := buildPeerIndexMap (options.identity.peerId :: members.map PeerIdentity.peerId) }
  | none =>
    { version := version.getD (r.currentEpoch + 1), chainKey := r.chainKeys.next
      minted := platform.randomValues r.drawn (suiteParams options.suite).chainKeyBytes
      peerIndexMap := buildPeerIndexMap (options.identity.peerId :: members.map PeerIdentity.peerId) }

/-- The call may begin an epoch with these members. -/
def authorized (members : List PeerIdentity) (viaChainKey : Option Ref) : Bool :=
  viaChainKey.isSome || isAuthoritativeAuthor { r with peers := peerMap members } options

/-- A new epoch that is refused at once leaves the room as it was if the members
are the ones it had; one that is installed does if all recipients are served, or
if it was there and so were the strings that are stored. -/
def StartKeeps (members : List PeerIdentity) (version : Option ℤ) (viaChainKey : Option Ref) : Prop :=
  let draft := begun platform options r members version viaChainKey
  let drawn := if viaChainKey.isSome then r.drawn else r.drawn + 1
  let service := served platform options draft.version draft.minted drawn members r.sasState
  if authorized options r members viaChainKey = true ∧
      draft.peerIndexMap.get options.identity.peerId ≠ .undefined then
    match derived platform options draft with
    | .ok keys => service.1 = true ∨
      peerMap members = r.peers ∧ Reinstalls options r draft keys ∧ service.2 = r.sasState
    | .error _ => peerMap members = r.peers
  else peerMap members = r.peers

/-- An announcement that has been installed leaves the room as it was only if it
was there, or goes through. -/
def ConsumeKeeps (msg : EpochAnnouncement) : Prop :=
  ∀ dhSecret minted keys,
    let draft : EpochDraft := { version := msg.version, chainKey := r.chainKeys.next, minted
                                peerIndexMap := msg.peerIndexMap }
    msg.forPeer = options.identity.peerId → checkPeerIndexMap options msg.peerIndexMap = .ok () →
    x25519Dh platform options.identity.privateKey msg.ephemeralPub = .ok dhSecret →
    unwrapChainKey platform msg.keyWrapped msg.iv (deriveWrapKey platform dhSecret msg.version) = .ok minted →
    derived platform options draft = .ok keys →
    (∃ data, computeSas platform.crypto dhSecret = .ok data) ∨ Reinstalls options r draft keys

/-- The members after a change. -/
def changed (delta : MemberChange) : OrderedMap JsString PeerIdentity :=
  match delta with
  | .join peer | .reconnect peer => r.peers.set peer.peerId peer
  | .leave peerId => r.peers.delete peerId

/-- When a call that rejects leaves the room as it was. -/
def Keeps : RatchetCall → Prop
  | .startNewEpoch members version viaChainKey => StartKeeps platform options r members version viaChainKey
  | .consumeEpochAnnouncement msg => ConsumeKeeps platform options r msg
  | .rotateOnMemberChange delta =>
    isAuthoritativeAuthor { r with peers := changed r delta } options = true →
      StartKeeps platform options r (changed r delta).values none none
  | .rewrapCurrentEpochFor _ | .forgetEpoch _ | .forgetTimer _ => True

end Conditions

/-! ## The recipients -/

section Serving
variable {platform : Platform K} {options : RatchetOptions} {draft : EpochDraft} {r : RoomRatchet K}

/-- The loop over the members stores the strings of those that it serves. -/
theorem alone_announce_served (platform : Platform K) (members : List PeerIdentity) (out : List EpochAnnouncement)
    (held : r.chainKeys.read draft.chainKey = draft.minted) : ∃ outcome r',
      alone (announce platform options draft members out) r = some (outcome, r') ∧
        r'.peers = r.peers ∧ r'.epochs = r.epochs ∧ r'.currentEpoch = r.currentEpoch ∧
          (outcome.toBool, r'.sasState) =
            served platform options draft.version draft.minted r.drawn members r.sasState := by
  induction members generalizing out r with
  | nil => exact ⟨.ok out, r, rfl, rfl, rfl, rfl, rfl⟩
  | cons peer rest ih =>
    unfold announce served
    by_cases own : peer.peerId = options.identity.peerId
    · rw [if_pos own, if_pos own]
      exact ih out held
    · rw [if_neg own, if_neg own]
      cases agreed : x25519Dh platform (platform.secretKey r.drawn) peer.publicKey with
      | error refused =>
        have answered : exchange platform draft.version draft.minted r.drawn peer = .error refused := by
          simp only [exchange, agreed]
        rw [answered]
        refine ⟨.error refused, r.draw, ?_, rfl, rfl, rfl, rfl⟩
        simp [wrapChainKeyForPeer, agreed, draw]
      | ok dhSecret =>
        cases wrapped : wrapChainKey platform draft.minted (deriveWrapKey platform dhSecret draft.version)
            (platform.randomValues (r.drawn + 1) wrapIvBytes) with
        | error refused =>
          have answered : exchange platform draft.version draft.minted r.drawn peer = .error refused := by
            simp only [exchange, agreed, wrapped]
          rw [answered]
          refine ⟨.error refused, r.draw.draw, ?_, rfl, rfl, rfl, rfl⟩
          simp [wrapChainKeyForPeer, agreed, draw, held, wrapped]
        | ok keyWrapped =>
          have answered : exchange platform draft.version draft.minted r.drawn peer =
              computeSas platform.crypto dhSecret := by
            simp only [exchange, agreed, wrapped]
          rw [answered]
          cases shown : computeSas platform.crypto dhSecret with
          | error refused =>
            refine ⟨.error refused, r.draw.draw, ?_, rfl, rfl, rfl, rfl⟩
            simp [wrapChainKeyForPeer, installSas, agreed, draw, held, wrapped, shown]
          | ok data =>
            have next := @ih (r.draw.draw.setSas peer.peerId draft.version data)
            obtain ⟨outcome, r', ran, same⟩ := next _ held
            refine ⟨outcome, r', ?_, same⟩
            simp only [wrapChainKeyForPeer, alone_bind, alone_read, Option.bind_some, alone_update, alone_awaiting,
              agreed, alone_pause, draw, held, wrapped, alone_pure, alone_installSas shown]
            exact ran

/-- Who is served does not depend on the strings that are stored. -/
theorem served_fst (version : ℤ) (chainKey : Bytes) (drawn : ℕ) (members : List PeerIdentity)
    (strings other : OrderedMap JsString PeerSasState) :
    (served platform options version chainKey drawn members strings).1 =
      (served platform options version chainKey drawn members other).1 := by
  induction members generalizing drawn strings other with
  | nil => rfl
  | cons peer rest ih =>
    unfold served
    split
    · exact ih _ _ _
    · split
      · exact ih _ _ _
      · rfl

end Serving

/-! ## The calls -/

/-- If the call rejects, it leaves the room as it was. -/
def KeepsOn {α : Type} (r : RoomRatchet K) (result : Option (Except JsError α × RoomRatchet K)) : Prop :=
  ∀ error r', result = some (.error error, r') → SameRoom r r'

section Calls
variable {platform : Platform K} {options : RatchetOptions} {r r' : RoomRatchet K} {α : Type}

theorem keepsOn_error {error : JsError} :
    KeepsOn r (some ((.error error : Except JsError α), r')) ↔ SameRoom r r' := by
  constructor
  · intro keeps
    exact keeps error r' rfl
  · intro same _ _ result
    cases result
    exact same

theorem keepsOn_ok {value : α} : KeepsOn r (some ((.ok value : Except JsError α), r')) := by
  intro _ _ result
  cases result

theorem keepsOn_outcome {outcome : Except JsError α} :
    KeepsOn r (some (outcome, r')) ↔ outcome.toBool = true ∨ SameRoom r r' := by
  cases outcome with
  | ok value => exact iff_of_true keepsOn_ok (.inl rfl)
  | error error => exact keepsOn_error.trans ⟨.inr, fun either => either.resolve_left (by simp [Except.toBool])⟩

/-- What comes after the call's own part returns nothing of its own. -/
theorem keepsOn_returned {part : RatchetTask K Unit} {value : α} :
    KeepsOn r (alone (do part; return value) r) ↔ KeepsOn r (alone part r) := by
  simp only [alone_bind, alone_pure]
  rcases alone part r with _ | ⟨outcome, later⟩
  · exact iff_of_true (fun _ _ none => by cases none) (fun _ _ none => by cases none)
  · cases outcome with
    | ok done => exact iff_of_true keepsOn_ok keepsOn_ok
    | error error => exact keepsOn_error.trans keepsOn_error.symm

@[simp] theorem install_drawn {version : ℤ} {entry : EpochState K} :
    (r.install version entry).drawn = r.drawn := by
  simp only [install]
  split
  · split <;> rfl
  · rfl

theorem reinstalls_iff (options : RatchetOptions) (draft : EpochDraft) (keys : OrderedMap ℤ (RatchetKey K))
    (first : RoomRatchet K)
    (epochs : first.epochs = r.epochs) (current : first.currentEpoch = r.currentEpoch) :
    (first.install draft.version (drafted options draft keys)).epochs = r.epochs ∧
      (first.install draft.version (drafted options draft keys)).currentEpoch = r.currentEpoch ↔
        Reinstalls options r draft keys := by
  rw [install_epochs, install_currentEpoch, epochs, current, OrderedMap.set_eq_self, max_eq_left_iff, Reinstalls,
    and_comm]

theorem install_sasState {version : ℤ} {entry : EpochState K} (stays : version ≤ r.currentEpoch) :
    (r.install version entry).sasState = r.sasState := by
  simp only [install, gt_iff_lt, not_lt.mpr stays, ↓reduceIte]

theorem alone_installDraft {draft : EpochDraft} {first : RoomRatchet K}
    (own : draft.peerIndexMap.get options.identity.peerId ≠ .undefined)
    (held : first.chainKeys.read draft.chainKey = draft.minted) :
    alone (installEpoch platform options draft) first = some (match derived platform options draft with
      | .ok keys => (.ok (), first.install draft.version (drafted options draft keys))
      | .error error => (.error error, first)) := by
  rw [alone_installEpoch own, held]
  rfl

/-- The ratchet after the synchronous part of a call that may begin an epoch. -/
def opened (platform : Platform K) (options : RatchetOptions) (r : RoomRatchet K) (members : List PeerIdentity)
    (viaChainKey : Option Ref) : RoomRatchet K :=
  match viaChainKey with
  | some _ => { r with peers := peerMap members }
  | none => ({ r with peers := peerMap members }.store
      (platform.randomValues r.drawn (suiteParams options.suite).chainKeyBytes)).draw

theorem alone_beginEpoch_ok {members : List PeerIdentity} {version : Option ℤ} {viaChainKey : Option Ref}
    (may : authorized options r members viaChainKey = true) :
    alone (beginEpoch platform options members version viaChainKey) r =
      some (.ok (begun platform options r members version viaChainKey),
        opened platform options r members viaChainKey) := by
  simp only [beginEpoch, alone_bind, alone_update, Option.bind_some, alone_read]
  cases viaChainKey with
  | some chainKey => rfl
  | none =>
    have author : isAuthoritativeAuthor { r with peers := peerMap members } options = true := may
    simp only [author, ↓reduceIte, alone_bind, alone_update, Option.bind_some, alone_pure]
    rfl

theorem alone_beginEpoch_error (platform : Platform K) {members : List PeerIdentity} (version : Option ℤ)
    {viaChainKey : Option Ref}
    (mayNot : ¬ authorized options r members viaChainKey = true) : ∃ error,
    alone (beginEpoch platform options members version viaChainKey) r =
      some (.error error, { r with peers := peerMap members }) := by
  cases viaChainKey with
  | some chainKey => exact absurd rfl mayNot
  | none =>
    have other : ¬ isAuthoritativeAuthor { r with peers := peerMap members } options = true := mayNot
    refine ⟨.error "ratchet: non-authoritative author called startNewEpoch without viaChainKey", ?_⟩
    simp only [beginEpoch, alone_bind, alone_update, Option.bind_some, alone_read, other]
    rfl

theorem opened_held {members : List PeerIdentity} {version : Option ℤ} {viaChainKey : Option Ref} :
    (opened platform options r members viaChainKey).chainKeys.read
        (begun platform options r members version viaChainKey).chainKey =
      (begun platform options r members version viaChainKey).minted := by
  cases viaChainKey with
  | some chainKey => rfl
  | none => simp [opened, begun, store, draw]

/-- A draft that has been installed is announced; the room is the same if it is
reinstalled, and the strings are the same. -/
theorem announced_keeps_iff {draft : EpochDraft} {keys : OrderedMap ℤ (RatchetKey K)} {members : List PeerIdentity}
    {first : RoomRatchet K} (held : first.chainKeys.read draft.chainKey = draft.minted)
    (epochs : first.epochs = r.epochs) (current : first.currentEpoch = r.currentEpoch)
    (strings : first.sasState = r.sasState) :
    KeepsOn r (alone (announce platform options draft members [])
        (first.install draft.version (drafted options draft keys))) ↔
      (served platform options draft.version draft.minted first.drawn members r.sasState).1 = true ∨
        first.peers = r.peers ∧ Reinstalls options r draft keys ∧
          (served platform options draft.version draft.minted first.drawn members r.sasState).2 = r.sasState := by
  have reinstalls := reinstalls_iff options draft keys first epochs current
  have installed : (first.install draft.version (drafted options draft keys)).chainKeys.read draft.chainKey =
      draft.minted := by
    rw [install_chainKeys]
    exact held
  obtain ⟨outcome, r', ran, peers', epochs', current', service⟩ := alone_announce_served platform members [] installed
  rw [install_drawn] at service
  rw [install_peers] at peers'
  have all : outcome.toBool =
      (served platform options draft.version draft.minted first.drawn members r.sasState).1 :=
    (congrArg Prod.fst service).trans (served_fst _ _ _ _ _ _)
  have kept (stays : draft.version ≤ r.currentEpoch) : r'.sasState =
      (served platform options draft.version draft.minted first.drawn members r.sasState).2 := by
    rw [install_sasState (current ▸ stays), strings] at service
    exact congrArg Prod.snd service
  rw [ran, keepsOn_outcome, all]
  apply or_congr Iff.rfl
  constructor
  · intro same
    have again := reinstalls.mp ⟨epochs'.symm.trans same.epochs, current'.symm.trans same.currentEpoch⟩
    exact ⟨peers'.symm.trans same.peers, again, (kept again.1).symm.trans same.sasState⟩
  · rintro ⟨peers, again, same⟩
    obtain ⟨table, epoch⟩ := reinstalls.mpr again
    exact ⟨peers'.trans peers, epochs'.trans table, current'.trans epoch, (kept again.1).trans same⟩

/-- A call that begins an epoch, on a ratchet whose members may have been replaced
before. -/
theorem start_keeps_iff (peers : OrderedMap JsString PeerIdentity) (members : List PeerIdentity)
    (version : Option ℤ) (viaChainKey : Option Ref) :
    KeepsOn r (alone (RoomRatchet.startNewEpoch platform options members version viaChainKey) { r with peers }) ↔
      StartKeeps platform options r members version viaChainKey := by
  have replaced : alone (RoomRatchet.startNewEpoch platform options members version viaChainKey) { r with peers } =
      alone (RoomRatchet.startNewEpoch platform options members version viaChainKey) r := rfl
  have refused : SameRoom r { r with peers := peerMap members } ↔ peerMap members = r.peers :=
    ⟨SameRoom.peers, fun same => ⟨same, rfl, rfl, rfl⟩⟩
  have opened_same : SameRoom r (opened platform options r members viaChainKey) ↔ peerMap members = r.peers := by
    cases viaChainKey with
    | some chainKey => exact refused
    | none => exact ⟨SameRoom.peers, fun same => ⟨same, rfl, rfl, rfl⟩⟩
  rw [replaced, RoomRatchet.startNewEpoch, alone_bind]
  unfold StartKeeps
  dsimp only
  by_cases may : authorized options r members viaChainKey = true
  · rw [alone_beginEpoch_ok may, Option.bind_some]
    dsimp only
    by_cases own : (begun platform options r members version viaChainKey).peerIndexMap.get
        options.identity.peerId = .undefined
    · rw [if_neg (fun both => both.2 own)]
      simp only [alone_bind, installEpoch, own, ↓reduceIte, alone_throw, Option.bind_some]
      exact keepsOn_error.trans opened_same
    · rw [if_pos ⟨may, own⟩, alone_bind, alone_installDraft own opened_held, Option.bind_some]
      cases derived platform options (begun platform options r members version viaChainKey) with
      | error refused => exact keepsOn_error.trans opened_same
      | ok keys =>
        have drawn : (opened platform options r members viaChainKey).drawn =
            if viaChainKey.isSome then r.drawn else r.drawn + 1 := by
          cases viaChainKey <;> rfl
        have peers : (opened platform options r members viaChainKey).peers = peerMap members := by
          cases viaChainKey <;> rfl
        rw [← drawn, ← peers]
        refine announced_keeps_iff opened_held ?_ ?_ ?_ <;> cases viaChainKey <;> rfl
  · obtain ⟨error, ran⟩ := alone_beginEpoch_error platform version may
    rw [if_neg (fun both => may both.1), ran]
    exact keepsOn_error.trans refused

/-- An unwrapped chain key is installed and its string stored; the room is the same
if that string can be shown, or the epoch was there. -/
theorem unwrapped_keeps_iff {draft : EpochDraft} {site : Bool → RatchetSite} {sender : JsString} {dhSecret : Bytes}
    (own : draft.peerIndexMap.get options.identity.peerId ≠ .undefined) (fresh : draft.chainKey = r.chainKeys.next) :
    KeepsOn r (alone (do
        installEpoch platform options draft
        installSas platform site sender draft.version dhSecret) (r.store draft.minted)) ↔
      ∀ keys, derived platform options draft = .ok keys →
        (∃ data, computeSas platform.crypto dhSecret = .ok data) ∨ Reinstalls options r draft keys := by
  have held : (r.store draft.minted).chainKeys.read draft.chainKey = draft.minted := by simp [store, fresh]
  rw [alone_bind, alone_installDraft own held, Option.bind_some]
  cases derived platform options draft with
  | error refused =>
    apply iff_of_true
    · exact keepsOn_error.mpr ⟨rfl, rfl, rfl, rfl⟩
    · intro _ none
      cases none
  | ok keys =>
    have only : (∀ found, (Except.ok keys : Except JsError _) = .ok found →
        (∃ data, computeSas platform.crypto dhSecret = .ok data) ∨ Reinstalls options r draft found) ↔
        (∃ data, computeSas platform.crypto dhSecret = .ok data) ∨ Reinstalls options r draft keys :=
      ⟨fun keeps => keeps keys rfl, fun keeps _ same => by cases same; exact keeps⟩
    rw [only]
    dsimp only
    cases shown : computeSas platform.crypto dhSecret with
    | ok data =>
      rw [alone_installSas shown]
      exact iff_of_true keepsOn_ok (.inl ⟨data, rfl⟩)
    | error refused =>
      have refusal : alone (installSas platform site sender draft.version dhSecret)
          ((r.store draft.minted).install draft.version (drafted options draft keys)) =
            some (.error refused, (r.store draft.minted).install draft.version (drafted options draft keys)) := by
        simp only [installSas, shown, alone_bind, alone_awaiting, Option.bind_some]
      have again := reinstalls_iff (r := r) options draft keys (r.store draft.minted) rfl rfl
      rw [refusal, keepsOn_error]
      simp only [reduceCtorEq, exists_false, false_or]
      constructor
      · intro same
        exact again.mp ⟨same.epochs, same.currentEpoch⟩
      · intro reinstalls
        obtain ⟨table, epoch⟩ := again.mpr reinstalls
        exact ⟨install_peers _ _ _, table, epoch, install_sasState reinstalls.1⟩

/-- Up to its installation an announcement is consumed without a trace. -/
theorem consume_keeps_iff (msg : EpochAnnouncement) :
    KeepsOn r (alone (RoomRatchet.consumeEpochAnnouncement platform options msg) r) ↔
      ConsumeKeeps platform options r msg := by
  have unchanged {error : JsError} : KeepsOn r (some ((.error error : Except JsError Unit), r)) :=
    keepsOn_error.mpr ⟨rfl, rfl, rfl, rfl⟩
  unfold RoomRatchet.consumeEpochAnnouncement
  by_cases mine : msg.forPeer = options.identity.peerId
  · rw [if_neg (not_not.mpr mine)]
    cases checked : checkPeerIndexMap options msg.peerIndexMap with
    | error refused =>
      simp only [alone_bind, alone_settle, Option.bind_some]
      exact iff_of_true unchanged fun _ _ _ _ valid => by cases checked.symm.trans valid
    | ok _ =>
      have own := checkPeerIndexMap_own checked
      cases agreed : x25519Dh platform options.identity.privateKey msg.ephemeralPub with
      | error refused =>
        simp only [alone_bind, alone_settle, Option.bind_some, alone_awaiting]
        exact iff_of_true unchanged fun _ _ _ _ _ secret => by cases agreed.symm.trans secret
      | ok dhSecret =>
        cases unwrapped : unwrapChainKey platform msg.keyWrapped msg.iv
            (deriveWrapKey platform dhSecret msg.version) with
        | error refused =>
          simp only [alone_bind, alone_settle, Option.bind_some, alone_awaiting, alone_pause, unwrapped]
          refine iff_of_true unchanged fun _ _ _ _ _ secret opens => ?_
          cases agreed.symm.trans secret
          cases unwrapped.symm.trans opens
        | ok minted =>
          let draft : EpochDraft := { version := msg.version, chainKey := r.chainKeys.next, minted
                                      peerIndexMap := msg.peerIndexMap }
          have ownDraft : draft.peerIndexMap.get options.identity.peerId ≠ .undefined := own
          simp only [alone_bind, alone_settle, Option.bind_some, alone_awaiting, alone_pause, unwrapped, alone_read,
            alone_update]
          rw [← alone_bind]
          refine (unwrapped_keeps_iff ownDraft rfl).trans ⟨?_, ?_⟩
          · intro keeps _ _ keys _ _ _ secret opens table
            cases agreed.symm.trans secret
            cases unwrapped.symm.trans opens
            exact keeps keys table
          · intro keeps keys table
            exact keeps dhSecret minted keys mine checked agreed unwrapped table
  · rw [if_pos mine]
    exact iff_of_true keepsOn_ok fun _ _ _ forMe => absurd forMe mine

/-- Wrapping a chain key draws values and does nothing else. -/
theorem alone_wrapChainKeyForPeer_draws (platform : Platform K) (options : RatchetOptions) (r : RoomRatchet K)
    (peer : PeerIdentity) (draft : EpochDraft) : ∃ outcome drawn,
    alone (wrapChainKeyForPeer platform options peer draft) r = some (outcome, { r with drawn }) := by
  simp only [wrapChainKeyForPeer, alone_bind, alone_read, Option.bind_some, alone_update, alone_awaiting]
  cases x25519Dh platform (platform.secretKey r.drawn) peer.publicKey with
  | error refused => exact ⟨.error refused, _, rfl⟩
  | ok dhSecret =>
    simp only [alone_pause, Option.bind_some]
    split
    · exact ⟨_, _, rfl⟩
    · exact ⟨_, _, rfl⟩

/-- Wrapping the current chain key once more stores a string at its end only. -/
theorem rewrap_keeps (peer : PeerIdentity) :
    KeepsOn r (alone (RoomRatchet.rewrapCurrentEpochFor platform options peer) r) := by
  simp only [RoomRatchet.rewrapCurrentEpochFor, alone_bind, alone_read, Option.bind_some]
  split
  · split
    · exact keepsOn_ok
    · rename_i entry _
      let draft : EpochDraft := { version := entry.epoch, chainKey := entry.chainKey
                                  minted := r.chainKeys.read entry.chainKey, peerIndexMap := entry.peerIndexMap }
      obtain ⟨outcome, drawn, wrapped⟩ := alone_wrapChainKeyForPeer_draws platform options r peer draft
      rw [alone_bind, wrapped, Option.bind_some]
      cases outcome with
      | error refused => exact keepsOn_error.mpr ⟨rfl, rfl, rfl, rfl⟩
      | ok sent =>
        cases shown : computeSas platform.crypto sent.2 with
        | error refused =>
          simp only [installSas, shown, alone_bind, alone_awaiting, Option.bind_some]
          exact keepsOn_error.mpr ⟨rfl, rfl, rfl, rfl⟩
        | ok data =>
          simp only [alone_bind, alone_installSas shown, Option.bind_some, alone_pure]
          exact keepsOn_ok
  · exact keepsOn_ok

end Calls

/-- A call that rejects leaves the room as it was exactly where what it has written
by then changes nothing. -/
theorem rejection_keeps_room_iff (platform : Platform K) (options : RatchetOptions) (r : RoomRatchet K)
    (call : RatchetCall) :
    KeepsOn r (alone (call.program platform options) r) ↔ Keeps platform options r call := by
  cases call with
  | startNewEpoch members version viaChainKey => exact start_keeps_iff r.peers members version viaChainKey
  | consumeEpochAnnouncement msg => exact keepsOn_returned.trans (consume_keeps_iff msg)
  | rotateOnMemberChange delta =>
    have begins : alone (RoomRatchet.rotateOnMemberChange platform options delta) r =
        if isAuthoritativeAuthor { r with peers := changed r delta } options = true then
          alone (RoomRatchet.startNewEpoch platform options (changed r delta).values none none)
            { r with peers := changed r delta }
        else some (.ok [], { r with peers := changed r delta }) := by
      simp only [RoomRatchet.rotateOnMemberChange, alone_bind, alone_update, Option.bind_some, alone_read]
      cases delta <;> exact apply_ite (fun part => alone part _) _ _ _
    change KeepsOn r (alone (RoomRatchet.rotateOnMemberChange platform options delta) r) ↔ _
    rw [begins]
    by_cases author : isAuthoritativeAuthor { r with peers := changed r delta } options = true
    · rw [if_pos author]
      exact (start_keeps_iff _ _ none none).trans ⟨fun keeps _ => keeps, fun keeps => keeps author⟩
    · rw [if_neg author]
      exact iff_of_true keepsOn_ok fun may => absurd may author
  | rewrapCurrentEpochFor peer => exact iff_of_true (rewrap_keeps peer) trivial
  | forgetEpoch epoch => exact iff_of_true keepsOn_ok trivial
  | forgetTimer epoch =>
    refine iff_of_true (keepsOn_returned.mpr fun error r' fired => ?_) trivial
    simp only [RoomRatchet.forgetTimer, alone_bind, alone_pauseUntil, alone_update] at fired
    split at fired <;> cases fired

section Checked
open RoomSpecimen (platform client peer)

/-- A call that may not begin an epoch has replaced the members all the same. -/
theorem refused_author_replaces_members :
    ¬ KeepsOn (create [peer (client 'c' 3)]) (alone (RatchetCall.program platform (client 'b' 2)
      (.startNewEpoch [peer (client 'a' 1)] none none)) (create [peer (client 'c' 3)])) := by
  intro keeps
  have result : (alone (RatchetCall.program platform (client 'b' 2) (.startNewEpoch [peer (client 'a' 1)] none none))
      (create [peer (client 'c' 3)])).map (fun result => (result.1.toBool, result.2.peers.keys)) =
        some (false, [(client 'a' 1).identity.peerId]) := by
    decide +kernel
  obtain ⟨⟨outcome, after⟩, ran, shape⟩ := Option.map_eq_some_iff.mp result
  simp only [Prod.mk.injEq] at shape
  obtain ⟨rejected, members⟩ := shape
  cases outcome with
  | ok msgs => cases rejected
  | error refused =>
    rw [(keeps refused after ran).peers] at members
    revert members
    decide +kernel

end Checked
end SFrameRatchet.RejectedCalls
