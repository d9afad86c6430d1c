import SFrameRatchet.Interleaving
import SFrameRatchet.KeyWrap
import SFrameRatchet.Sas
import SFrameRatchet.Throwing

/-! The room ratchet of `ratchet.ts`: the epoch axis of one client. An author
mints a chain key and wraps it for every member, a member unwraps and installs
it; an installed epoch schedules the timer of the one that was current before.
Chain keys are buffers that the table, a running call and the application may
share, so zeroing one is seen by all of them. -/
namespace SFrameRatchet.Room
open BigEndian Collections Coroutine Throwing Interleaving Crypto JsObject Kid KeyWrap PeerIds Sas

structure IdentityKeyPair where
  peerId : JsString
  publicKey : Bytes
  privateKey : Bytes
  deriving DecidableEq

structure PeerIdentity where
  peerId : JsString
  publicKey : Bytes
  deriving DecidableEq

inductive MemberChange where
  | join (peer : PeerIdentity)
  | leave (peerId : JsString)
  | reconnect (peer : PeerIdentity)

structure EpochAnnouncement where
  version : ℤ
  sender : JsString
  forPeer : JsString
  keyWrapped : Bytes
  iv : Bytes
  ephemeralPub : Bytes
  peerIndexMap : PlainObject ℤ

/-- What is installed for one epoch; the chain key is a buffer. -/
structure EpochState (K : Type) where
  epoch : ℤ
  chainKey : Ref
  peerIndexMap : PlainObject ℤ
  selfPeerIndex : Property ℤ
  keys : OrderedMap ℤ (RatchetKey K)

structure PeerSasState where
  epoch : ℤ
  data : SasData
  verified : Bool

/-- The read-only fields. -/
structure RatchetOptions where
  identity : IdentityKeyPair
  suite : CipherSuite
  kidCodec : KidCodec

/-- The mutable fields, with the buffers of the client, the pending timers, and
how many random values the client has drawn. -/
structure RoomRatchet (K : Type) where
  peers : OrderedMap JsString PeerIdentity := ∅
  epochs : OrderedMap ℤ (EpochState K) := ∅
  currentEpoch : ℤ := -1
  sasState : OrderedMap JsString PeerSasState := ∅
  chainKeys : Heap Bytes := default
  forgetTimers : List ℤ := []
  drawn : ℕ := 0

/-- A running call's epoch: its number, its buffer, what was in the buffer when the
call got it, and the map. -/
structure EpochDraft where
  version : ℤ
  chainKey : Ref
  minted : Bytes
  peerIndexMap : PlainObject ℤ

/-- Where a call waits. -/
inductive RatchetSite where
  | start
  /-- For the key table; `derives` tells whether there will be one. -/
  | keying (draft : EpochDraft) (derives : Bool)
  /-- For a recipient's wrapped key, or for its authentication string; `verifies`
  tells whether that string comes next. -/
  | wrapping (draft : EpochDraft) (verifies : Bool)
  /-- For what an announcement is unwrapped with, or its authentication string. -/
  | unwrapping (version : ℤ) (verifies : Bool)
  | timer (epoch : ℤ)

abbrev RatchetTask (K α : Type) := Async RatchetSite (RoomRatchet K) JsError α

/-- Wait for a result that is settled when it is asked for. -/
def awaiting {K α : Type} (site : RatchetSite) (outcome : Except JsError α) : RatchetTask K α := do
  pause site
  settle outcome

@[simp] theorem alone_awaiting {K α : Type} (site : RatchetSite) (outcome : Except JsError α)
    (r : RoomRatchet K) : alone (awaiting site outcome) r = some (outcome, r) := by
  simp [awaiting]

@[simp] theorem meets_awaiting {K α : Type} {contract : Contract RatchetSite (RoomRatchet K)}
    {next site : RatchetSite} {start r : RoomRatchet K} {outcome : Except JsError α}
    {returns : RatchetSite → RoomRatchet K → α → RoomRatchet K → Prop}
    {throws : RatchetSite → RoomRatchet K → JsError → RoomRatchet K → Prop} :
    Meets contract (awaiting next outcome) returns throws site start r ↔ contract.moves site start next r ∧
      ∀ later, contract.assume next later → match outcome with
        | .ok value => returns next later value later
        | .error error => throws next later error later := by
  simp only [awaiting, meets_bind, meets_pause]
  cases outcome <;> exact Iff.rfl

namespace RoomRatchet
variable {K : Type}

/-- `new Map(peers.map((p) => [p.peerId, p]))`. -/
def peerMap (peers : List PeerIdentity) : OrderedMap JsString PeerIdentity :=
  peers.foldl (fun table peer => table.set peer.peerId peer) ∅

/-- A peer is found under its own id. -/
theorem get?_peerMap {peers : List PeerIdentity} {peerId : JsString} {peer : PeerIdentity}
    (found : (peerMap peers).get? peerId = some peer) : peer ∈ peers ∧ peer.peerId = peerId := by
  rcases OrderedMap.foldl_set_found _ _ found with ⟨listed, member, named, rfl⟩ | none
  · exact ⟨member, named⟩
  · cases none

/-- `new RoomRatchet(opts)`, past the check of the suite. -/
def create (initialPeers : List PeerIdentity) : RoomRatchet K := { peers := peerMap initialPeers }

def isAuthoritativeAuthor (self : RoomRatchet K) (options : RatchetOptions) : Bool :=
  (sort (options.identity.peerId :: self.peers.keys)).head? = some options.identity.peerId

/-- A fresh buffer; its reference is `chainKeys.next`. -/
def store (self : RoomRatchet K) (bytes : Bytes) : RoomRatchet K :=
  { self with chainKeys := self.chainKeys.alloc bytes }

def draw (self : RoomRatchet K) : RoomRatchet K := { self with drawn := self.drawn + 1 }

def wipeSasForRotation (self : RoomRatchet K) (newEpoch : ℤ) : RoomRatchet K :=
  { self with
    sasState := self.sasState.entries.foldl (fun table entry =>
      if entry.2.epoch < newEpoch then table.delete entry.1 else table) self.sasState }

/-- The part of `installEpoch` after its `await`. -/
def install (self : RoomRatchet K) (version : ℤ) (entry : EpochState K) : RoomRatchet K :=
  let prev := self.currentEpoch
  let self := { self with epochs := self.epochs.set version entry }
  if version > prev then
    let self := { self with currentEpoch := version }.wipeSasForRotation version
    if prev ≥ 0 then { self with forgetTimers := self.forgetTimers ++ [prev] } else self
  else self

section Install
variable (self : RoomRatchet K) (version : ℤ) (entry : EpochState K)

@[simp] theorem install_epochs : (self.install version entry).epochs = self.epochs.set version entry := by
  simp only [install]
  split
  · split <;> rfl
  · rfl

@[simp] theorem install_peers : (self.install version entry).peers = self.peers := by
  simp only [install]
  split
  · split <;> rfl
  · rfl

@[simp] theorem install_chainKeys : (self.install version entry).chainKeys = self.chainKeys := by
  simp only [install]
  split
  · split <;> rfl
  · rfl

@[simp] theorem install_currentEpoch :
    (self.install version entry).currentEpoch = max self.currentEpoch version := by
  simp only [install]
  split
  · rename_i advances
    rw [max_eq_right (le_of_lt advances)]
    split <;> rfl
  · rename_i stays
    exact (max_eq_left (not_lt.mp stays)).symm

/-- Only an advance schedules a timer, for the epoch that it takes the place of. -/
@[simp] theorem install_forgetTimers : (self.install version entry).forgetTimers =
    if 0 ≤ self.currentEpoch ∧ self.currentEpoch < version then self.forgetTimers ++ [self.currentEpoch]
    else self.forgetTimers := by
  by_cases advances : version > self.currentEpoch
  · by_cases real : self.currentEpoch ≥ 0
    · simp only [install, advances, real, and_self, ↓reduceIte]
      rfl
    · simp only [install, advances, real, false_and, ↓reduceIte]
      rfl
  · simp only [install, advances, and_false, ↓reduceIte]

end Install

/-- Drop an epoch's key material, zeroing its chain key first. -/
def forgetEpoch (self : RoomRatchet K) (epoch : ℤ) : RoomRatchet K :=
  let self := match self.epochs.get? epoch with
    | some entry =>
      let bytes := self.chainKeys.read entry.chainKey
      { self with chainKeys := self.chainKeys.write entry.chainKey (List.replicate bytes.length 0) }
    | none => self
  { self with epochs := self.epochs.delete epoch }

section Forget
variable (self : RoomRatchet K) (epoch : ℤ)

@[simp] theorem forgetEpoch_peers : (self.forgetEpoch epoch).peers = self.peers := by
  unfold forgetEpoch
  split <;> rfl

@[simp] theorem forgetEpoch_epochs : (self.forgetEpoch epoch).epochs = self.epochs.delete epoch := by
  unfold forgetEpoch
  split <;> rfl

@[simp] theorem forgetEpoch_currentEpoch : (self.forgetEpoch epoch).currentEpoch = self.currentEpoch := by
  unfold forgetEpoch
  split <;> rfl

@[simp] theorem forgetEpoch_forgetTimers : (self.forgetEpoch epoch).forgetTimers = self.forgetTimers := by
  unfold forgetEpoch
  split <;> rfl

@[simp] theorem forgetEpoch_next : (self.forgetEpoch epoch).chainKeys.next = self.chainKeys.next := by
  unfold forgetEpoch
  split <;> rfl

/-- Only the buffer of the epoch's own chain key is zeroed. -/
theorem forgetEpoch_read {ref : Ref} (apart : ∀ entry, self.epochs.get? epoch = some entry → entry.chainKey ≠ ref) :
    (self.forgetEpoch epoch).chainKeys.read ref = self.chainKeys.read ref := by
  unfold forgetEpoch
  split
  · rename_i entry held
    simp [Ne.symm (apart entry held)]
  · rfl

end Forget

def setSas (self : RoomRatchet K) (peerId : JsString) (epoch : ℤ) (data : SasData) : RoomRatchet K :=
  { self with sasState := self.sasState.set peerId { epoch, data, verified := false } }

def getSas (self : RoomRatchet K) (peerId : JsString) : Option SasData :=
  (self.sasState.get? peerId).map PeerSasState.data

def markSasVerified (self : RoomRatchet K) (peerId : JsString) (verified : Bool) : RoomRatchet K :=
  match self.sasState.get? peerId with
  | some state => { self with sasState := self.sasState.set peerId { state with verified } }
  | none => self

/-- The bytes of an installed epoch's chain key. -/
def getEpochChainKey (self : RoomRatchet K) (epoch : ℤ) : Option Bytes :=
  (self.epochs.get? epoch).map fun entry => self.chainKeys.read entry.chainKey

/-- The map of an installed epoch. -/
def getEpochPeerIndexMap (self : RoomRatchet K) (epoch : ℤ) : Option (PlainObject ℤ) :=
  (self.epochs.get? epoch).map EpochState.peerIndexMap

def currentPeerIndexMap (self : RoomRatchet K) : PlainObject ℤ :=
  (self.getEpochPeerIndexMap self.currentEpoch).getD ∅

/-- `undefined` before the first epoch. -/
def selfPeerIndex (self : RoomRatchet K) : Property ℤ :=
  match self.epochs.get? self.currentEpoch with
  | some state => state.selfPeerIndex
  | none => .undefined

def getReceivingKey (self : RoomRatchet K) (epoch peerIndex : ℤ) : Option (RatchetKey K) :=
  (self.epochs.get? epoch).bind fun state => state.keys.get? peerIndex

/-- The error of a client that has no key to seal with. -/
structure NoSendingKey where
  message : String
  epoch : ℤ
  peerIndex : Option (Property ℤ)
  deriving DecidableEq

/-- The key that this client seals with; an inherited index names none. -/
def advanceSending (self : RoomRatchet K) : Except NoSendingKey (RatchetKey K) :=
  match self.epochs.get? self.currentEpoch with
  | none => .error ⟨"ratchet: no active epoch", self.currentEpoch, none⟩
  | some state =>
    match state.selfPeerIndex with
    | .own peerIndex =>
      match state.keys.get? peerIndex with
      | some key => .ok key
      | none => .error ⟨"ratchet: no self key in current epoch", self.currentEpoch, some state.selfPeerIndex⟩
    | _ => .error ⟨"ratchet: no self key in current epoch", self.currentEpoch, some state.selfPeerIndex⟩

def isSasVerified (self : RoomRatchet K) (peerId : JsString) : Bool :=
  ((self.sasState.get? peerId).map PeerSasState.verified).getD false

/-! ## The asynchronous methods -/

section Methods
variable (platform : Platform K) (options : RatchetOptions)

def installEpoch (draft : EpochDraft) : RatchetTask K Unit := do
  let selfPeerIndex := draft.peerIndexMap.get options.identity.peerId
  if selfPeerIndex = .undefined then
    throw (.error "ratchet: self peer_id missing from peer_index_map")
  let self ← read
  let derived := deriveEpochKeyTable platform.crypto (self.chainKeys.read draft.chainKey) draft.version
    draft.peerIndexMap options.suite options.kidCodec
  let keys ← awaiting (.keying draft derived.toBool) derived
  update fun self => self.install draft.version
    { epoch := draft.version, chainKey := draft.chainKey, peerIndexMap := draft.peerIndexMap, selfPeerIndex, keys }

/-- Derive and store what a user compares; the secret is not used again. -/
def installSas (site : Bool → RatchetSite) (peerId : JsString) (epoch : ℤ) (dhSecret : Bytes) :
    RatchetTask K Unit := do
  let computed := computeSas platform.crypto dhSecret
  let data ← awaiting (site computed.toBool) computed
  update fun self => self.setSas peerId epoch data

/-- Wrap a chain key for one recipient, under a fresh ephemeral key pair; the
secret is returned with the announcement. -/
def wrapChainKeyForPeer (peer : PeerIdentity) (draft : EpochDraft) : RatchetTask K (EpochAnnouncement × Bytes) := do
  let self ← read
  let ephemeral := platform.secretKey self.drawn
  update draw
  let dhSecret ← awaiting (.wrapping draft false) (x25519Dh platform ephemeral peer.publicKey)
  pause (.wrapping draft false)
  let wrapKey := deriveWrapKey platform dhSecret draft.version
  let self ← read
  let iv := platform.randomValues self.drawn wrapIvBytes
  update draw
  let keyWrapped ← awaiting (.wrapping draft false)
    (wrapChainKey platform (self.chainKeys.read draft.chainKey) wrapKey iv)
  return ({ version := draft.version, sender := options.identity.peerId, forPeer := peer.peerId, keyWrapped, iv,
            ephemeralPub := platform.publicKey ephemeral, peerIndexMap := draft.peerIndexMap }, dhSecret)

/-- The loop of `startNewEpoch` over the members. -/
def announce (draft : EpochDraft) : List PeerIdentity → List EpochAnnouncement →
    RatchetTask K (List EpochAnnouncement)
  | [], out => return out
  | peer :: rest, out => do
    if peer.peerId = options.identity.peerId then announce draft rest out
    else
      let (announcement, dhSecret) ← wrapChainKeyForPeer platform options peer draft
      installSas platform (.wrapping draft) peer.peerId draft.version dhSecret
      announce draft rest (out ++ [announcement])

/-- The synchronous part of `startNewEpoch`: the members are replaced before the
author is found not to be one. -/
def beginEpoch (members : List PeerIdentity) (version : Option ℤ) (viaChainKey : Option Ref) :
    RatchetTask K EpochDraft := do
  update fun self => { self with peers := peerMap members }
  let self ← read
  let peerIndexMap := buildPeerIndexMap (options.identity.peerId :: members.map PeerIdentity.peerId)
  let version := version.getD (self.currentEpoch + 1)
  match viaChainKey with
  | some chainKey => return { version, chainKey, minted := self.chainKeys.read chainKey, peerIndexMap }
  | none =>
    if self.isAuthoritativeAuthor options then
      let minted := platform.randomValues self.drawn (suiteParams options.suite).chainKeyBytes
      update fun self => (self.store minted).draw
      return { version, chainKey := self.chainKeys.next, minted, peerIndexMap }
    else throw (.error "ratchet: non-authoritative author called startNewEpoch without viaChainKey")

/-- Mint or re-wrap a chain key and emit one announcement per recipient. -/
def startNewEpoch (members : List PeerIdentity) (version : Option ℤ) (viaChainKey : Option Ref) :
    RatchetTask K (List EpochAnnouncement) := do
  let draft ← beginEpoch platform options members version viaChainKey
  installEpoch platform options draft
  announce platform options draft members []

/-- What a recipient requires of the map it is sent. -/
def checkPeerIndexMap (peerIndexMap : PlainObject ℤ) : Except JsError Unit :=
  match validatePeerIndexMap (asNumbers peerIndexMap) with
  | .invalid reason => .error (.error s!"ratchet: invalid peer_index_map ({reason.name})")
  | .valid =>
    if peerIndexMap.hasProperty options.identity.peerId then .ok ()
    else .error (.error "ratchet: peer_index_map missing self")

/-- Consume an announcement; one for another peer is dropped. -/
def consumeEpochAnnouncement (msg : EpochAnnouncement) : RatchetTask K Unit :=
  if msg.forPeer ≠ options.identity.peerId then return ()
  else do
    settle (checkPeerIndexMap options msg.peerIndexMap)
    let dhSecret ← awaiting (.unwrapping msg.version false)
      (x25519Dh platform options.identity.privateKey msg.ephemeralPub)
    pause (.unwrapping msg.version false)
    let wrapKey := deriveWrapKey platform dhSecret msg.version
    let minted ← awaiting (.unwrapping msg.version false) (unwrapChainKey platform msg.keyWrapped msg.iv wrapKey)
    let self ← read
    update fun self => self.store minted
    installEpoch platform options
      { version := msg.version, chainKey := self.chainKeys.next, minted, peerIndexMap := msg.peerIndexMap }
    installSas platform (.unwrapping msg.version) msg.sender msg.version dhSecret

/-- Bump to a new epoch on a membership change. -/
def rotateOnMemberChange (delta : MemberChange) : RatchetTask K (List EpochAnnouncement) := do
  update fun self => match delta with
    | .join peer | .reconnect peer => { self with peers := self.peers.set peer.peerId peer }
    | .leave peerId => { self with peers := self.peers.delete peerId }
  let self ← read
  if self.isAuthoritativeAuthor options then
    startNewEpoch platform options self.peers.values none none
  else return []

/-- Wrap the current chain key once more, for one peer. -/
def rewrapCurrentEpochFor (peer : PeerIdentity) : RatchetTask K (List EpochAnnouncement) := do
  let self ← read
  if self.isAuthoritativeAuthor options then
    match self.epochs.get? self.currentEpoch with
    | none => return []
    | some entry =>
      let draft : EpochDraft := { version := entry.epoch, chainKey := entry.chainKey
                                  minted := self.chainKeys.read entry.chainKey, peerIndexMap := entry.peerIndexMap }
      let (announcement, dhSecret) ← wrapChainKeyForPeer platform options peer draft
      installSas platform (.wrapping draft) peer.peerId entry.epoch dhSecret
      return [announcement]
  else return []

/-- The timer of an epoch, which may fire once for each time it was scheduled. -/
def forgetTimer (epoch : ℤ) : RatchetTask K Unit := do
  pauseUntil (.timer epoch) fun self => self.forgetTimers.contains epoch
  update fun self => { self with forgetTimers := self.forgetTimers.erase epoch }.forgetEpoch epoch

end Methods
end RoomRatchet

/-- The calls that run on one ratchet; the announcements are what they return. -/
inductive RatchetCall where
  | startNewEpoch (members : List PeerIdentity) (version : Option ℤ) (viaChainKey : Option Ref)
  | consumeEpochAnnouncement (msg : EpochAnnouncement)
  | rotateOnMemberChange (delta : MemberChange)
  | rewrapCurrentEpochFor (peer : PeerIdentity)
  | forgetEpoch (epoch : ℤ)
  | forgetTimer (epoch : ℤ)

open RoomRatchet in
def RatchetCall.program {K : Type} (platform : Platform K) (options : RatchetOptions) :
    RatchetCall → RatchetTask K (List EpochAnnouncement)
  | startNewEpoch members version viaChainKey =>
    RoomRatchet.startNewEpoch platform options members version viaChainKey
  | consumeEpochAnnouncement msg => do
    RoomRatchet.consumeEpochAnnouncement platform options msg
    return []
  | rotateOnMemberChange delta => RoomRatchet.rotateOnMemberChange platform options delta
  | rewrapCurrentEpochFor peer => RoomRatchet.rewrapCurrentEpochFor platform options peer
  | forgetEpoch epoch => do
    update fun self => self.forgetEpoch epoch
    return []
  | forgetTimer epoch => do
    RoomRatchet.forgetTimer epoch
    return []

/-- The ratchet with some calls under way. -/
abbrev RatchetPool (ι K : Type) := Pool ι RatchetSite (RoomRatchet K) (Except JsError (List EpochAnnouncement))

/-- The calls of a run, none of which has begun. -/
def launch {ι K : Type} (platform : Platform K) (options : RatchetOptions) (r : RoomRatchet K)
    (calls : ι → RatchetCall) : RatchetPool ι K :=
  .launch .start r fun call => ((calls call).program platform options).run

end SFrameRatchet.Room
