import SFrameRatchet.ChatShared
import SFrameRatchet.KeyWrap

/-! The chat provider of `chat/mls.ts`, which is driven by the epochs of an MLS
group. A room has the keys of one epoch at a time, a key for every peer; who opens a
buffer is told by the buffer, and whose replay window it goes through by the caller. -/
namespace SFrameRatchet.MlsChat
open BigEndian Collections Coroutine Throwing Interleaving Crypto Kid Header KeyWrap Chat

/-- `peerIndexMap` lists the peers in the order of `Object.keys`. -/
structure MlsEpochParams where
  epoch : ℤ
  peerIndexMap : OrderedMap String ℤ
  chainKey : Bytes

structure RoomEpochState (K : Type) where
  epoch : ℤ
  keys : OrderedMap String (SFrameKey K)
  indexToPeerId : OrderedMap ℤ String

/-- What the provider runs on and what it has been constructed with. -/
structure MlsRuntime (K : Type) where
  crypto : WebCrypto K
  suite : CipherSuite
  uidToPeerId : String → String
  nextCtr : String → String → ℕ → Except JsError ℕ

/-- The key that a call seals with, and what it was found by. -/
structure SenderUse (K : Type) where
  context : SealContext
  epoch : ℤ
  peerId : String
  key : SFrameKey K
  deriving DecidableEq

/-- What has been sealed, under which key and counter. -/
structure MlsSealing (K : Type) where
  use : SenderUse K
  ctr : ℕ
  plaintext : Bytes
  deriving DecidableEq

/-- The provider's own state: the rooms, how often the allocator has been asked, and
what has been sealed, oldest first. -/
structure MlsState (K : Type) where
  roomEpochs : OrderedMap String (RoomEpochState K) := ∅
  allocated : ℕ := 0
  sealings : List (MlsSealing K) := []

/-- Where a call waits outside of what the providers share. -/
inductive MlsPlace (K : Type) where
  | deriving_
  /-- For the answer of the allocator to its request of this number. -/
  | allocating (use : SenderUse K) (number : ℕ)
  | sealing
  deriving DecidableEq

abbrev MlsProvider (K : Type) := ProviderState K (MlsState K)
abbrev MlsTask (K α : Type) := ChatTask K (MlsState K) (MlsPlace K) α

section Provider
variable {K : Type} (runtime : MlsRuntime K) (settings : ReplaySettings)

/-- The keys of an epoch. The derivations run at once; of two peers with one index
the one that is listed last is found by it. -/
def deriveRoomEpoch (params : MlsEpochParams) : Except JsError (RoomEpochState K) := do
  let peers := params.peerIndexMap.entries
  params.peerIndexMap.values.forM (refusedAtOnce params.chainKey runtime.suite)
  let keys ← peers.mapM fun peer =>
    deriveSenderKeys runtime.crypto params.chainKey params.epoch peer.2 runtime.suite .fixed
  return {
    epoch := params.epoch
    keys := (peers.zip keys).foldl (fun keys peer => keys.set peer.1.1 peer.2.toSFrameKey) ∅
    indexToPeerId := peers.foldl (fun index peer => index.set peer.2 peer.1) ∅ }

/-- A room gets the keys of an epoch, and forgets what it has received. -/
def installEpoch (s : MlsProvider K) (roomId : String) (roomState : RoomEpochState K) : MlsProvider K :=
  { s with own.roomEpochs := s.own.roomEpochs.set roomId roomState }.dropReplayWindows settings roomId

def setEpoch (roomId : String) (params : MlsEpochParams) : MlsTask K Unit := do
  let { chainKeyBytes, .. } := suiteParams runtime.suite
  if params.chainKey.length ≠ chainKeyBytes then
    throw (.error (s!"createMlsChatProvider: chainKey must be {chainKeyBytes} bytes for suite " ++
      s!"{runtime.suite.name}, got {params.chainKey.length}"))
  else
    let roomState ← promised (.own .deriving_) (deriveRoomEpoch runtime params)
    update fun s => installEpoch settings s roomId roomState

def noEpoch (roomId : String) : JsError := .error s!"createMlsChatProvider: no epoch installed for room {roomId}"

/-- The key that a sender seals with. -/
def sealingKey (s : MlsProvider K) (context : SealContext) : Except JsError (SenderUse K) :=
  match s.own.roomEpochs.get? context.roomId with
  | none => .error (noEpoch context.roomId)
  | some roomState =>
    let peerId := runtime.uidToPeerId context.senderUid
    match roomState.keys.get? peerId with
    | none => .error (.error
        (s!"createMlsChatProvider: sender {context.senderUid} (peerId {peerId}) is not a member " ++
        s!"of epoch {roomState.epoch} in room {context.roomId}"))
    | some key => .ok { context, epoch := roomState.epoch, peerId, key }

/-- `seal` and its name in the source, which is a keyword here. -/
def seal_ (plaintext : Bytes) (context : SealContext) : MlsTask K Bytes := do
  let s ← read
  let use ← settle (sealingKey runtime s context)
  update fun s => { s with own.allocated := s.own.allocated + 1 }
  let ctr ← promised (.own (.allocating use s.own.allocated))
    (runtime.nextCtr context.roomId context.senderUid s.own.allocated)
  update fun s => { s with own.sealings := s.own.sealings ++ [{ use, ctr, plaintext }] }
  promised (.own .sealing) (SFrame.sframeEncrypt runtime.crypto plaintext use.key ctr none .prefixed)

/-- The peer whose index a buffer carries, its key, and the counter. An empty peer id
is as good as none. -/
def openingKey (roomState : RoomEpochState K) (roomId : String) (sealedBytes : Bytes) :
    Except JsError (String × SFrameKey K × ℕ) := do
  let hdr ← parseHeader sealedBytes
  let (epoch, peerIndex) := KidCodec.fixed.decode hdr.kid
  if epoch ≠ roomState.epoch then
    throw (.staleEpoch (s!"createMlsChatProvider: stale epoch {epoch} (current {roomState.epoch}) for room " ++
      s!"{roomId}") epoch roomState.epoch hdr.kid)
  else match (roomState.indexToPeerId.get? peerIndex).filter (· ≠ "") with
    | none => throw (.keyNotFound (s!"createMlsChatProvider: unknown peerIndex {peerIndex} in epoch {epoch} for " ++
        s!"room {roomId}") hdr.kid epoch peerIndex)
    | some peerId => match roomState.keys.get? peerId with
      | none => throw (.keyNotFound s!"createMlsChatProvider: no key for peerId {peerId} in epoch {epoch}" hdr.kid
          epoch peerIndex)
      | some key => return (peerId, key, hdr.ctr)

/-- What a buffer is to be opened with in a room. -/
def unsealingKey (s : MlsProvider K) (context : SealContext) (sealedBytes : Bytes) :
    Except JsError (String × SFrameKey K × ℕ) :=
  match s.own.roomEpochs.get? context.roomId with
  | none => .error (noEpoch context.roomId)
  | some roomState => openingKey roomState context.roomId sealedBytes

def unseal_ (sealedBytes : Bytes) (context : SealContext) : MlsTask K Bytes := do
  let s ← read
  let (_, key, ctr) ← settle (unsealingKey s context sealedBytes)
  let window ← checkReplay "createMlsChatProvider" settings ⟨context, ctr⟩
  openChecked runtime.crypto settings ⟨context, ctr⟩ window sealedBytes key

/-- `clearEpoch`, past the notice to the application. -/
def clearEpoch (s : MlsProvider K) (roomId : String) : MlsProvider K :=
  { s with own.roomEpochs := s.own.roomEpochs.delete roomId }.dropReplayWindows settings roomId

def getEpoch (s : MlsProvider K) (roomId : String) : Option ℤ := (s.own.roomEpochs.get? roomId).map (·.epoch)

end Provider

/-! ## The keys of an epoch -/

section Keys
variable {K : Type} {runtime : MlsRuntime K} {params : MlsEpochParams} {roomState : RoomEpochState K}

/-- The keys of an epoch are those of the peers in its map, and an index finds a peer
that has it. -/
theorem deriveRoomEpoch_ok (derived : deriveRoomEpoch runtime params = .ok roomState) :
    roomState.epoch = params.epoch ∧
      (∀ peerId key, roomState.keys.get? peerId = some key →
        ∃ index full, params.peerIndexMap.get? peerId = some index ∧
        deriveSenderKeys runtime.crypto params.chainKey params.epoch index runtime.suite .fixed = .ok full ∧
          full.toSFrameKey = key) ∧
      ∀ index peerId, roomState.indexToPeerId.get? index = some peerId →
        params.peerIndexMap.get? peerId = some index := by
  unfold deriveRoomEpoch at derived
  dsimp only at derived
  cases atOnce : params.peerIndexMap.values.forM (refusedAtOnce params.chainKey runtime.suite) with
  | error refused =>
    rw [atOnce] at derived
    cases derived
  | ok _ =>
    rw [atOnce] at derived
    simp only [bind, Except.bind] at derived
    split at derived
    · cases derived
    · rename_i keys made
      cases derived
      refine ⟨rfl, fun peerId key held => ?_, fun index peerId held => ?_⟩
      · rcases OrderedMap.foldl_set_found _ _ held with ⟨peer, member, rfl, rfl⟩ | never
        · exact ⟨peer.1.2, peer.2, OrderedMap.mem_entries.mp (List.of_mem_zip member).1, mapM_zip made peer member, rfl⟩
        · cases never
      · rcases OrderedMap.foldl_set_found _ _ held with ⟨peer, member, rfl, rfl⟩ | never
        · exact OrderedMap.mem_entries.mp member
        · cases never

/-- The key of a sender carries its epoch and its index. -/
theorem deriveSenderKeys_fields {crypto : WebCrypto K} {chainKey : Bytes} {epoch index : ℤ} {suite : CipherSuite}
    {full : RatchetKey K} (derived : deriveSenderKeys crypto chainKey epoch index suite .fixed = .ok full) :
    makeKid epoch index = .ok full.kid ∧ full.epoch = epoch ∧ full.peerIndex = index := by
  unfold deriveSenderKeys at derived
  simp only [bind, Except.bind, pure, Except.pure, throw, throwThe, MonadExceptOf.throw] at derived
  split at derived
  · cases derived
  · split at derived
    · cases derived
    · split at derived
      · cases derived
      · split at derived
        · cases derived
        · rename_i kid made
          cases derived
          exact ⟨made, rfl, rfl⟩

/-- The peer is found by the index in the header. -/
theorem openingKey_ok {roomId : String} {sealedBytes : Bytes} {peerId : String} {key : SFrameKey K} {ctr : ℕ}
    (found : openingKey roomState roomId sealedBytes = .ok (peerId, key, ctr)) : ∃ hdr,
      parseHeader sealedBytes = .ok hdr ∧ hdr.ctr = ctr ∧ (splitKid hdr.kid).1 = roomState.epoch ∧
        roomState.indexToPeerId.get? (splitKid hdr.kid).2 = some peerId ∧ roomState.keys.get? peerId = some key := by
  unfold openingKey at found
  cases parsed : parseHeader sealedBytes with
  | error refused => simp [parsed, bind, Except.bind] at found
  | ok hdr =>
    simp only [parsed, bind, Except.bind] at found
    split at found
    · cases found
    · rename_i current
      split at found
      · cases found
      · rename_i listed
        split at found
        · cases found
        · rename_i held
          cases found
          exact ⟨hdr, rfl, rfl, not_not.mp current, (Option.filter_eq_some_iff.mp listed).1, held⟩

end Keys

/-- The calls on one provider, and the clears that they leave behind. -/
inductive MlsCall where
  | setEpoch (roomId : String) (params : MlsEpochParams)
  | seal_ (plaintext : Bytes) (context : SealContext)
  | unseal_ (sealedBytes : Bytes) (context : SealContext)
  | clearEpoch (roomId : String)
  | settleClear (key : String)

/-- Sealing and unsealing return bytes. -/
def MlsCall.program {K : Type} (runtime : MlsRuntime K) (settings : ReplaySettings) :
    MlsCall → MlsTask K (Option Bytes)
  | setEpoch roomId params => do
    MlsChat.setEpoch runtime settings roomId params
    return none
  | seal_ plaintext context => do
    let sealedBytes ← MlsChat.seal_ runtime plaintext context
    return some sealedBytes
  | unseal_ sealedBytes context => do
    let plaintext ← MlsChat.unseal_ runtime settings sealedBytes context
    return some plaintext
  | clearEpoch roomId => do
    update fun s => MlsChat.clearEpoch settings s roomId
    return none
  | settleClear key => do
    Chat.settleClear key
    return none

abbrev MlsStatus (K : Type) := Status (ChatSite (MlsPlace K)) (Except JsError (Option Bytes))

instance {K : Type} [DecidableEq K] : DecidableEq (MlsStatus K) := inferInstance

abbrev MlsPool (ι K : Type) := Pool ι (ChatSite (MlsPlace K)) (MlsProvider K) (Except JsError (Option Bytes))

/-- The calls of a run, none of which has begun. -/
def launch {ι K : Type} (runtime : MlsRuntime K) (settings : ReplaySettings) (s : MlsProvider K)
    (calls : ι → MlsCall) : MlsPool ι K :=
  .launch .start s fun call => ((calls call).program runtime settings).run

end SFrameRatchet.MlsChat
