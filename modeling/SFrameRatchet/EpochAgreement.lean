import Mathlib.Tactic.IntervalCases
import SFrameRatchet.Announcing
import SFrameRatchet.RoomSpecimen

/-! One epoch in a whole room: the author starts it, every member consumes the
announcement addressed to it, and afterwards all hold the same. They do unless
a peer id is lost from the map or the codec cannot name one of the senders. -/
namespace SFrameRatchet.EpochAgreement
open BigEndian Collections Throwing Crypto JsObject PlainObject Kid KeyWrap PeerIds Sas Room RoomRatchet Announcing

variable {K : Type}

/-- An author with the smallest peer id and members with distinct ones; the suite
and the layout of key identifiers are agreed on. -/
structure Gathering (platform : Platform K) where
  suite : CipherSuite
  kidCodec : KidCodec
  author : Client platform
  members : List (Client platform)
  smallest : ∀ member ∈ members, author.identity.peerId < member.identity.peerId
  distinct : (members.map fun member => member.identity.peerId).Nodup

namespace Gathering
variable {platform : Platform K} (room : Gathering platform)

def options (client : Client platform) : RatchetOptions :=
  { identity := client.identity, suite := room.suite, kidCodec := room.kidCodec }

/-- What the author is told of the members. -/
def peers : List PeerIdentity := room.members.map fun member => ⟨member.identity.peerId, member.identity.publicKey⟩

def peerIds : List JsString := room.author.identity.peerId :: room.peers.map PeerIdentity.peerId

/-- The number of the epoch that the author starts. -/
def version : ℤ := room.author.ratchet.currentEpoch + 1

end Gathering

/-- Two clients hold an epoch alike. -/
structure SameEpoch (version : ℤ) (mine theirs : RoomRatchet K) (own other : EpochState K) : Prop where
  installed : mine.epochs.get? version = some own
  consumed : theirs.epochs.get? version = some other
  numbered : own.epoch = version ∧ other.epoch = version
  chainKey : mine.chainKeys.read own.chainKey = theirs.chainKeys.read other.chainKey
  peerIndexMap : own.peerIndexMap = other.peerIndexMap
  keys : own.keys = other.keys

/-- The author starts an epoch and announces it to each member in turn; every
member consumes its announcement, and holds the epoch and the secret's string as
the author does. The epoch is current unless a member was ahead of it. -/
def Agrees {platform : Platform K} (room : Gathering platform) : Prop :=
  ∃ announcements mine, alone (RoomRatchet.startNewEpoch platform (room.options room.author) room.peers none none)
      room.author.ratchet = some (.ok announcements, mine) ∧
    mine.currentEpoch = room.version ∧ (mine.epochs.get? room.version).isSome ∧
    List.Forall₂ (fun (member : Client platform) msg => msg.forPeer = member.identity.peerId ∧
      ∃ theirs own other data, alone (RoomRatchet.consumeEpochAnnouncement platform (room.options member) msg)
          member.ratchet = some (.ok (), theirs) ∧
        theirs.currentEpoch = max member.ratchet.currentEpoch room.version ∧
        SameEpoch room.version mine theirs own other ∧
        mine.getSas member.identity.peerId = some data ∧
        theirs.getSas room.author.identity.peerId = some data) room.members announcements

/-- No peer id is lost from the middle of the map, and there is a key identifier
for every index in it. -/
def Nameable {platform : Platform K} (room : Gathering platform) : Prop :=
  LostIsLast room.peerIds ∧ ∀ index < (room.peerIds.filter (· ≠ protoName)).length,
    (∃ bytes, peerIndexBe16 index = .ok bytes) ∧ ∃ kid, room.kidCodec.encode room.version index = .ok kid

section Epoch
variable {platform : Platform K} {room : Gathering platform}

theorem peerIds_nodup (room : Gathering platform) : room.peerIds.Nodup := by
  have names : room.peers.map PeerIdentity.peerId = room.members.map fun member => member.identity.peerId := by
    simp [Gathering.peers]
  unfold Gathering.peerIds
  rw [names]
  refine List.nodup_cons.mpr ⟨fun member => ?_, room.distinct⟩
  obtain ⟨other, held, same⟩ := List.mem_map.mp member
  exact absurd same.symm (room.smallest other held).ne

/-- What the author installs and announces. -/
def Gathering.draft (room : Gathering platform) : EpochDraft :=
  { version := room.version, chainKey := room.author.ratchet.chainKeys.next
    minted := platform.randomValues room.author.ratchet.drawn (suiteParams room.suite).chainKeyBytes
    peerIndexMap := buildPeerIndexMap room.peerIds }

/-- The author once it has drawn a chain key. -/
def Gathering.begun (room : Gathering platform) : RoomRatchet K :=
  ({ room.author.ratchet with peers := peerMap room.peers }.store room.draft.minted).draw

theorem mem_keys_peerMap {peers : List PeerIdentity} {peerId : JsString} (held : peerId ∈ (peerMap peers).keys) :
    peerId ∈ peers.map PeerIdentity.peerId := by
  obtain ⟨peer, found⟩ := Option.isSome_iff_exists.mp (OrderedMap.mem_keys.mp held)
  obtain ⟨listed, rfl⟩ := get?_peerMap found
  exact List.mem_map.mpr ⟨peer, listed, rfl⟩

theorem alone_beginEpoch (room : Gathering platform) :
    alone (beginEpoch platform (room.options room.author) room.peers none none) room.author.ratchet =
      some (.ok room.draft, room.begun) := by
  have authoritative : isAuthoritativeAuthor { room.author.ratchet with peers := peerMap room.peers }
      (room.options room.author) = true := by
    refine decide_eq_true (sort_head fun other held => ?_)
    obtain ⟨peer, listed, rfl⟩ := List.mem_map.mp (mem_keys_peerMap held)
    obtain ⟨member, present, rfl⟩ := List.mem_map.mp listed
    exact (room.smallest member present).le
  simp only [beginEpoch, alone_bind, alone_update, Option.bind_some, alone_read, authoritative, ↓reduceIte,
    alone_pure, Option.getD_none]
  rfl

theorem begun_held (room : Gathering platform) :
    room.begun.chainKeys.read room.draft.chainKey = room.draft.minted := by
  simp [Gathering.begun, Gathering.draft, store, draw]

/-- The table that every member of the room derives. -/
def Gathering.derived (room : Gathering platform) : Except JsError (OrderedMap ℤ (RatchetKey K)) :=
  deriveEpochKeyTable platform.crypto room.draft.minted room.version room.draft.peerIndexMap room.suite room.kidCodec

/-- Without a gap in the map there is a table when every index can be named. -/
theorem derived_ok (correct : platform.Correct) (last : LostIsLast room.peerIds) :
    (∃ keys, room.derived = .ok keys) ↔ ∀ index < (room.peerIds.filter (· ≠ protoName)).length,
      (∃ bytes, peerIndexBe16 index = .ok bytes) ∧ ∃ kid, room.kidCodec.encode room.version index = .ok kid := by
  have listed := values_buildPeerIndexMap (peerIds_nodup room)
  rw [listedIndices_range (peerIds_nodup room) last] at listed
  have sized : room.draft.minted.length = (suiteParams room.suite).chainKeyBytes := correct.draws _ _
  unfold Gathering.derived
  rw [deriveEpochKeyTable_ok]
  simp only [deriveSenderKeys_ok, sized, true_and]
  constructor
  · intro all index small
    exact all _ (listed.mem_iff.mpr (List.mem_map.mpr ⟨index, List.mem_range.mpr small, rfl⟩))
  · intro all idx member
    obtain ⟨index, small, rfl⟩ := List.mem_map.mp (listed.mem_iff.mp member)
    exact all index (List.mem_range.mp small)

/-- What a client installs when it holds the chain key in a buffer. -/
def Gathering.entry (room : Gathering platform) (client : Client platform) (chainKey : Ref)
    (keys : OrderedMap ℤ (RatchetKey K)) : EpochState K :=
  { epoch := room.version, chainKey, peerIndexMap := room.draft.peerIndexMap
    selfPeerIndex := room.draft.peerIndexMap.get client.identity.peerId, keys }

theorem alone_installDraft (room : Gathering platform) :
    alone (installEpoch platform (room.options room.author) room.draft) room.begun =
      some (match room.derived with
        | .ok keys => (.ok (), room.begun.install room.version (room.entry room.author room.draft.chainKey keys))
        | .error error => (.error error, room.begun)) := by
  rw [alone_installEpoch (get_buildPeerIndexMap (peerIds_nodup room) List.mem_cons_self), begun_held room]
  rfl

theorem alone_startNewEpoch_error {error : JsError} (refused : room.derived = .error error) :
    alone (RoomRatchet.startNewEpoch platform (room.options room.author) room.peers none none)
      room.author.ratchet = some (.error error, room.begun) := by
  simp only [RoomRatchet.startNewEpoch, alone_bind, alone_beginEpoch, Option.bind_some, alone_installDraft, refused]

theorem alone_startNewEpoch_ok (correct : platform.Correct) {keys : OrderedMap ℤ (RatchetKey K)}
    (derived : room.derived = .ok keys) : ∃ msgs mine,
      alone (RoomRatchet.startNewEpoch platform (room.options room.author) room.peers none none)
        room.author.ratchet = some (.ok msgs, mine) ∧
      mine.currentEpoch = room.version ∧
      mine.epochs.get? room.version = some (room.entry room.author room.draft.chainKey keys) ∧
      mine.chainKeys.read room.draft.chainKey = room.draft.minted ∧
      List.Forall₂ (fun peer msg => ∃ dhSecret data,
        Announces platform room.author.identity.peerId room.draft peer msg dhSecret ∧
          computeSas platform.crypto dhSecret = .ok data ∧ mine.getSas peer.peerId = some data) room.peers msgs := by
  have keyed (peer : PeerIdentity) (member : peer ∈ room.peers) :
      ∃ privateKey, peer.publicKey = platform.publicKey privateKey := by
    obtain ⟨client, -, rfl⟩ := List.mem_map.mp member
    exact ⟨_, client.keyed⟩
  have distinct := List.nodup_cons.mp (peerIds_nodup room)
  have others (peer : PeerIdentity) (member : peer ∈ room.peers) :
      peer.peerId ≠ (room.options room.author).identity.peerId :=
    fun same => distinct.1 (List.mem_map.mpr ⟨peer, member, same⟩)
  obtain ⟨msgs, mine, ran, ⟨epochs, current, buffers⟩, each, -⟩ := alone_announce correct keyed others distinct.2
    (show (room.begun.install room.version
      (room.entry room.author room.draft.chainKey keys)).chainKeys.read room.draft.chainKey = room.draft.minted by
        rw [install_chainKeys, begun_held]) []
  refine ⟨msgs, mine, ?_, ?_, ?_, ?_, each⟩
  · simp only [RoomRatchet.startNewEpoch, alone_bind, alone_beginEpoch, Option.bind_some, alone_installDraft, derived,
      ran, List.nil_append]
  · rw [current, install_currentEpoch]
    exact max_eq_right (by simp only [Gathering.version, Gathering.begun, store, draw]; omega)
  · rw [epochs, install_epochs, OrderedMap.get?_set, if_pos rfl]
  · rw [buffers, install_chainKeys, begun_held]

/-- A member that can read the map and derive the table installs what it is sent. -/
theorem alone_consumeEpochAnnouncement (correct : platform.Correct) {member : Client platform}
    {msg : EpochAnnouncement} {dhSecret : Bytes} {data : SasData} {keys : OrderedMap ℤ (RatchetKey K)}
    (announces : Announces platform room.author.identity.peerId room.draft
      ⟨member.identity.peerId, member.identity.publicKey⟩ msg dhSecret)
    (shown : computeSas platform.crypto dhSecret = .ok data) (present : member.identity.peerId ∈ room.peerIds)
    (valid : validatePeerIndexMap (asNumbers room.draft.peerIndexMap) = .valid) (derived : room.derived = .ok keys) :
    ∃ theirs, alone (RoomRatchet.consumeEpochAnnouncement platform (room.options member) msg) member.ratchet =
        some (.ok (), theirs) ∧
      theirs.currentEpoch = max member.ratchet.currentEpoch room.version ∧
      theirs.epochs.get? room.version = some (room.entry member member.ratchet.chainKeys.next keys) ∧
      theirs.chainKeys.read member.ratchet.chainKeys.next = room.draft.minted ∧
      theirs.getSas room.author.identity.peerId = some data := by
  have own := get_buildPeerIndexMap (peerIds_nodup room) present
  have checked : checkPeerIndexMap (room.options member) room.draft.peerIndexMap = .ok () := by
    unfold checkPeerIndexMap
    rw [valid]
    exact if_pos (hasProperty_iff.mpr own)
  obtain ⟨agreed, unwrapped⟩ :
      x25519Dh platform (room.options member).identity.privateKey msg.ephemeralPub = .ok dhSecret ∧ _ :=
    announces.unwraps correct member.keyed
  obtain ⟨version, sender, forPeer, map, -⟩ := announces
  rw [version] at unwrapped
  have installs : alone (installEpoch platform (room.options member)
      { version := room.version, chainKey := member.ratchet.chainKeys.next, minted := room.draft.minted
        peerIndexMap := room.draft.peerIndexMap }) (member.ratchet.store room.draft.minted) =
      some (.ok (), (member.ratchet.store room.draft.minted).install room.version
        (room.entry member member.ratchet.chainKeys.next keys)) := by
    have held : (member.ratchet.store room.draft.minted).chainKeys.read member.ratchet.chainKeys.next =
        room.draft.minted := by simp [store]
    have table : deriveEpochKeyTable platform.crypto room.draft.minted room.version room.draft.peerIndexMap
        (room.options member).suite (room.options member).kidCodec = .ok keys := derived
    rw [alone_installEpoch own]
    simp only [held, table]
    rfl
  refine ⟨((member.ratchet.store room.draft.minted).install room.version
    (room.entry member member.ratchet.chainKeys.next keys)).setSas msg.sender room.version data, ?_, ?_, ?_, ?_, ?_⟩
  · unfold RoomRatchet.consumeEpochAnnouncement
    rw [if_neg (not_not.mpr (show msg.forPeer = (room.options member).identity.peerId from forPeer))]
    simp only [alone_bind, alone_settle, map, checked, Option.bind_some, alone_awaiting, agreed, alone_pause,
      unwrapped, alone_read, alone_update, version]
    rw [show room.draft.version = room.version from rfl, installs]
    simp only [Option.bind_some, alone_installSas shown]
  · exact install_currentEpoch _ _ _
  · change ((member.ratchet.store room.draft.minted).install _ _).epochs.get? _ = _
    rw [install_epochs, OrderedMap.get?_set, if_pos rfl]
  · change ((member.ratchet.store room.draft.minted).install _ _).chainKeys.read _ = _
    rw [install_chainKeys]
    simp [store]
  · simp [getSas, setSas, sender]

/-- What is consumed without an error has passed the recipient's check. -/
theorem consumed_checked {options : RatchetOptions} {r r' : RoomRatchet K} {msg : EpochAnnouncement}
    (mine : msg.forPeer = options.identity.peerId)
    (consumed : alone (RoomRatchet.consumeEpochAnnouncement platform options msg) r = some (.ok (), r')) :
    validatePeerIndexMap (asNumbers msg.peerIndexMap) = .valid := by
  unfold RoomRatchet.consumeEpochAnnouncement at consumed
  rw [if_neg (not_not.mpr mine)] at consumed
  cases checked : validatePeerIndexMap (asNumbers msg.peerIndexMap) with
  | valid => rfl
  | invalid reason => simp [checkPeerIndexMap, checked] at consumed

theorem agrees_of_nameable (correct : platform.Correct) (nameable : Nameable room) : Agrees room := by
  obtain ⟨keys, derived⟩ := (derived_ok correct nameable.1).mpr nameable.2
  obtain ⟨msgs, mine, ran, current, installed, held, each⟩ := alone_startNewEpoch_ok correct derived
  refine ⟨msgs, mine, ran, current, by rw [installed]; rfl, ?_⟩
  rw [Gathering.peers, List.forall₂_map_left_iff] at each
  refine List.forall₂_iff_get.mpr ⟨each.length_eq, fun i inside within => ?_⟩
  obtain ⟨dhSecret, data, announces, shown, stored⟩ := (List.forall₂_iff_get.mp each).2 i inside within
  have member : room.members.get ⟨i, inside⟩ ∈ room.members := List.get_mem _ _
  have below := room.smallest _ member
  have present : (room.members.get ⟨i, inside⟩).identity.peerId ∈ room.peerIds :=
    List.mem_cons_of_mem _ (List.mem_map.mpr ⟨_, List.mem_map.mpr ⟨_, member, rfl⟩, rfl⟩)
  have valid : validatePeerIndexMap (asNumbers room.draft.peerIndexMap) = .valid := by
    refine (buildPeerIndexMap_valid (peerIds_nodup room)).mpr ⟨?_, nameable.1⟩
    -- Of two different peer ids at most one is lost.
    by_cases lost : room.author.identity.peerId = protoName
    · exact ⟨_, present, fun same => below.ne (lost.trans same.symm)⟩
    · exact ⟨_, List.mem_cons_self, lost⟩
  obtain ⟨theirs, consumed, current, installs, buffer, shows⟩ :=
    alone_consumeEpochAnnouncement correct announces shown present valid derived
  exact ⟨announces.forPeer, theirs, _, _, data, consumed, current,
    ⟨installed, installs, ⟨rfl, rfl⟩, held.trans buffer.symm, rfl, rfl⟩, stored, shows⟩

theorem nameable_of_agrees (correct : platform.Correct) (agrees : Agrees room) : Nameable room := by
  obtain ⟨announcements, mine, ran, -, -, each⟩ := agrees
  obtain ⟨keys, derived⟩ : ∃ keys, room.derived = .ok keys := by
    cases derived : room.derived with
    | ok keys => exact ⟨keys, rfl⟩
    | error refused => simp [alone_startNewEpoch_error derived] at ran
  obtain ⟨msgs, mine', ran', -, -, -, announced⟩ := alone_startNewEpoch_ok correct derived
  obtain ⟨rfl, rfl⟩ : msgs = announcements ∧ mine' = mine := by simpa using ran'.symm.trans ran
  have last : LostIsLast room.peerIds := by
    rw [Gathering.peers, List.forall₂_map_left_iff] at announced
    cases members : room.members with
    | nil =>
      have alone : room.peerIds = [room.author.identity.peerId] := by
        simp [Gathering.peerIds, Gathering.peers, members]
      intro named other member
      rw [alone, List.mem_singleton] at named member
      exact (member.trans named.symm).le
    | cons member rest =>
      rw [members] at announced each
      cases each with
      | cons first _ =>
        cases announced with
        | cons sent _ =>
          obtain ⟨forPeer, theirs, -, -, -, consumed, -⟩ := first
          obtain ⟨_, _, announces, -⟩ := sent
          have valid := consumed_checked forPeer consumed
          rw [announces.peerIndexMap] at valid
          exact ((buildPeerIndexMap_valid (peerIds_nodup room)).mp valid).2
  exact ⟨last, (derived_ok correct last).mp ⟨keys, derived⟩⟩

end Epoch

/-- The author and all its members agree on a new epoch exactly when every peer
id keeps its place in the map and every index has a key identifier. -/
theorem members_agree_iff {platform : Platform K} (correct : platform.Correct) (room : Gathering platform) :
    Agrees room ↔ Nameable room :=
  ⟨nameable_of_agrees correct, agrees_of_nameable correct⟩

section Checked
open RoomSpecimen (platform platform_correct)

/-- A client that has no epoch yet. -/
def newcomer (peerId : JsString) (byte : UInt8) : Client platform where
  identity := { peerId, publicKey := List.replicate 32 byte, privateKey := List.replicate 32 byte }
  ratchet := create []
  keyed := rfl

/-- An author and two members, one of which is named as the accessor is. -/
def lostRoom : Gathering platform where
  suite := .aes128GcmSha256
  kidCodec := .fixed
  author := newcomer (utf16 ['A']) 1
  members := [newcomer (utf16 ['a']) 2, newcomer protoName 3]
  smallest := by decide
  distinct := by decide

/-- The map of such a room has a gap, and its members refuse the epoch. -/
theorem lost_member_splits_room : ¬ Agrees lostRoom := fun agrees =>
  absurd (nameable_of_agrees platform_correct agrees).1 (by decide)

/-- An author and two members. -/
def smallRoom : Gathering platform where
  suite := .aes256GcmSha512
  kidCodec := .fixed
  author := newcomer (utf16 ['a']) 1
  members := [newcomer (utf16 ['c']) 2, newcomer (utf16 ['b']) 3]
  smallest := by decide
  distinct := by decide

theorem members_of_small_room_agree : Agrees smallRoom := by
  refine (members_agree_iff platform_correct smallRoom).mpr ⟨by decide, fun index small => ?_⟩
  have three : index < 3 := small
  interval_cases index
  all_goals exact ⟨⟨_, rfl⟩, _, rfl⟩

end Checked
end SFrameRatchet.EpochAgreement
