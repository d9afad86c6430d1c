import SFrameRatchet.Announcing
import SFrameRatchet.AuthoredMaps
import SFrameRatchet.FrameCryptor
import SFrameRatchet.RoomSpecimen

/-! The clients of a room over an unreliable signalling channel. One of them mints the epochs and
announces them; the announcements may be lost, repeated and delivered in any order, epochs may be
forgotten at any time, and lost announcements may be made again. Whoever holds an epoch holds it
as it was minted. A turn is one call that runs to its end. -/
namespace SFrameRatchet.Signalling
open Collections Throwing Coroutine Crypto JsObject PlainObject Kid KeyWrap PeerIds Sas Room RoomRatchet
    Announcing Cryptor

variable {K ι : Type}

/-- The clients of a room; the one with the smallest peer id mints the epochs. -/
structure Roster (platform : Platform K) (ι : Type) where
  suite : CipherSuite
  kidCodec : KidCodec
  identity : ι → IdentityKeyPair
  author : ι
  keyed : ∀ i, (identity i).publicKey = platform.publicKey (identity i).privateKey
  distinct : ∀ i j, (identity i).peerId = (identity j).peerId → i = j
  smallest : ∀ i, (identity author).peerId ≤ (identity i).peerId

variable {platform : Platform K}

def Roster.options (roster : Roster platform ι) (i : ι) : RatchetOptions :=
  { identity := roster.identity i, suite := roster.suite, kidCodec := roster.kidCodec }

/-- The peer is a client of the room, under its own public key. -/
def Roster.Known (roster : Roster platform ι) (peer : PeerIdentity) : Prop :=
  ∃ i, peer = ⟨(roster.identity i).peerId, (roster.identity i).publicKey⟩

/-- The peers are clients of the room, each under its own id. -/
def Roster.Lists (roster : Roster platform ι) (peers : OrderedMap JsString PeerIdentity) : Prop :=
  ∀ peerId peer, peers.get? peerId = some peer → roster.Known peer ∧ peer.peerId = peerId

/-- The clients, all that has ever been announced, and the epochs that each client has handed on. -/
structure Assembly (ι K : Type) where
  clients : ι → RoomRatchet K
  announced : List EpochAnnouncement
  handed : ι → List EpochParams

/-- Nobody has an epoch. -/
def gather (initialPeers : ι → List PeerIdentity) : Assembly ι K where
  clients i := create (initialPeers i)
  announced := []
  handed _ := []

/-- The members once a change has taken place. -/
def membersAfter (delta : MemberChange) (peers : OrderedMap JsString PeerIdentity) : OrderedMap JsString PeerIdentity :=
  match delta with
  | .join peer | .reconnect peer => peers.set peer.peerId peer
  | .leave peerId => peers.delete peerId

/-- The peer that a change is about, if it is told with its key. -/
def newcomer : MemberChange → Option PeerIdentity
  | .join peer | .reconnect peer => some peer
  | .leave _ => none

/-- The calls that a client of the room makes. Peers are told with their own keys, only the author
starts epochs, and the others know of it. -/
inductive Permitted (roster : Roster platform ι) (a : Assembly ι K) (i : ι) : RatchetCall → Prop where
  | starts {members : List PeerIdentity} (own : i = roster.author) (known : ∀ peer ∈ members, roster.Known peer) :
      Permitted roster a i (.startNewEpoch members none none)
  | consumes {msg : EpochAnnouncement} (sent : msg ∈ a.announced) : Permitted roster a i (.consumeEpochAnnouncement msg)
  | rotates {delta : MemberChange} (known : ∀ peer, newcomer delta = some peer → roster.Known peer)
      (led : i = roster.author ∨
        (roster.identity roster.author).peerId ∈ (membersAfter delta (a.clients i).peers).keys) :
      Permitted roster a i (.rotateOnMemberChange delta)
  | rewraps {peer : PeerIdentity} (known : roster.Known peer) : Permitted roster a i (.rewrapCurrentEpochFor peer)
  | forgets (epoch : ℤ) : Permitted roster a i (.forgetEpoch epoch)
  | fires (epoch : ℤ) : Permitted roster a i (.forgetTimer epoch)

/-- What a call has returned is sent. -/
def published : Except JsError (List EpochAnnouncement) → List EpochAnnouncement
  | .ok announcements => announcements
  | .error _ => []

section Steps
variable [DecidableEq ι]

/-- One client has had a turn. -/
def Assembly.turn (a : Assembly ι K) (i : ι) (r : RoomRatchet K) (announced : List EpochAnnouncement) : Assembly ι K :=
  { a with clients := Function.update a.clients i r, announced := a.announced ++ announced }

/-- One client hands an epoch to its cryptor. -/
def Assembly.hand (a : Assembly ι K) (i : ι) (params : EpochParams) : Assembly ι K :=
  { a with handed := Function.update a.handed i (a.handed i ++ [params]) }

/-- One turn, of any client, at any time. -/
inductive Step (roster : Roster platform ι) : Assembly ι K → Assembly ι K → Prop where
  | calls {a : Assembly ι K} {i : ι} {call : RatchetCall} (permitted : Permitted roster a i call)
      {outcome : Except JsError (List EpochAnnouncement)} {r : RoomRatchet K}
      (ran : alone (call.program platform (roster.options i)) (a.clients i) = some (outcome, r)) :
      Step roster a (a.turn i r (published outcome))
  | hands {a : Assembly ι K} {i : ι} {params : EpochParams}
      (chainKey : (a.clients i).getEpochChainKey params.epoch = some params.chainKey)
      (peerIndexMap : (a.clients i).getEpochPeerIndexMap params.epoch = some params.peerIndexMap) :
      Step roster a (a.hand i params)

/-- Any number of turns. -/
inductive Reachable (roster : Roster platform ι) (start : Assembly ι K) : Assembly ι K → Prop where
  | start : Reachable roster start start
  | step {a a' : Assembly ι K} (reached : Reachable roster start a) (step : Step roster a a') :
      Reachable roster start a'

/-- Make a call. -/
def Assembly.call (a : Assembly ι K) (roster : Roster platform ι) (i : ι) (call : RatchetCall) :
    Option (Assembly ι K) :=
  (alone (call.program platform (roster.options i)) (a.clients i)).map fun done => a.turn i done.2 (published done.1)

theorem reachable_call {roster : Roster platform ι} {start a a' : Assembly ι K}
    (reached : Reachable roster start a) {i : ι}
    {call : RatchetCall} (permitted : Permitted roster a i call) (called : a.call roster i call = some a') :
    Reachable roster start a' := by
  obtain ⟨done, ran, rfl⟩ := Option.map_eq_some_iff.mp called
  exact reached.step (.calls permitted ran)

end Steps

/-! ## The ledger -/

/-- What was minted for an epoch. -/
structure Record where
  chainKey : Bytes
  peerIndexMap : PlainObject ℤ

variable {roster : Roster platform ι} {ledger ledger' : ℤ → Option Record} {i : ι} {r r' : RoomRatchet K} {version : ℤ}
  {entry : EpochState K}

/-- A client's epoch is the one on record. -/
structure Holds (roster : Roster platform ι) (ledger : ℤ → Option Record) (i : ι) (chainKeys : Heap Bytes) (version : ℤ)
    (entry : EpochState K) : Prop where
  recorded : ledger version = some ⟨chainKeys.read entry.chainKey, entry.peerIndexMap⟩
  numbered : entry.epoch = version
  seat : entry.selfPeerIndex = entry.peerIndexMap.get (roster.identity i).peerId
  derived : deriveEpochKeyTable platform.crypto (chainKeys.read entry.chainKey) version entry.peerIndexMap roster.suite
    roster.kidCodec = .ok entry.keys

/-- All epochs of a client are on record, in buffers of their own, and it knows only clients of the
room. -/
structure Faithful (roster : Roster platform ι) (ledger : ℤ → Option Record) (i : ι) (r : RoomRatchet K) : Prop where
  holds : ∀ version entry, r.epochs.get? version = some entry → Holds roster ledger i r.chainKeys version entry
  made : ∀ version entry, r.epochs.get? version = some entry → entry.chainKey < r.chainKeys.next
  apart : ∀ version entry version' entry', r.epochs.get? version = some entry → r.epochs.get? version' = some entry' →
    entry.chainKey = entry'.chainKey → version = version'
  lists : roster.Lists r.peers

/-- What is on record stays there. -/
def Extends (ledger ledger' : ℤ → Option Record) : Prop :=
  ∀ version record, ledger version = some record → ledger' version = some record

theorem faithful_mono (faithful : Faithful roster ledger i r) (more : Extends ledger ledger') :
    Faithful roster ledger' i r where
  holds version entry held := { faithful.holds version entry held with
    recorded := more _ _ (faithful.holds version entry held).recorded }
  made := faithful.made
  apart := faithful.apart
  lists := faithful.lists

/-- Two clients that keep to one record hold an epoch alike. -/
theorem holds_same {j : ι} {chainKeys chainKeys' : Heap Bytes} {other : EpochState K}
    (mine : Holds roster ledger i chainKeys version entry) (theirs : Holds roster ledger j chainKeys' version other) :
    chainKeys.read entry.chainKey = chainKeys'.read other.chainKey ∧ entry.peerIndexMap = other.peerIndexMap ∧
      entry.keys = other.keys := by
  have same := Option.some.inj (mine.recorded.symm.trans theirs.recorded)
  simp only [Record.mk.injEq] at same
  obtain ⟨chainKey, map⟩ := same
  have derived := mine.derived
  rw [chainKey, map] at derived
  exact ⟨chainKey, map, Except.ok.inj (derived.symm.trans theirs.derived)⟩

/-- A change that leaves the epochs and their buffers alone. -/
theorem faithful_same (faithful : Faithful roster ledger i r) (epochs : r'.epochs = r.epochs)
    (chainKeys : r'.chainKeys = r.chainKeys) (lists : roster.Lists r'.peers) :
    Faithful roster ledger i r' := by
  constructor
  · rw [epochs, chainKeys]
    exact faithful.holds
  · rw [epochs, chainKeys]
    exact faithful.made
  · rw [epochs]
    exact faithful.apart
  · exact lists

theorem faithful_store (faithful : Faithful roster ledger i r) (bytes : Bytes) :
    Faithful roster ledger i (r.store bytes) := by
  have kept (version : ℤ) (entry : EpochState K) (held : r.epochs.get? version = some entry) :
      (r.store bytes).chainKeys.read entry.chainKey = r.chainKeys.read entry.chainKey := by
    simp [store, Nat.ne_of_lt (faithful.made version entry held)]
  constructor
  · intro version entry held
    obtain ⟨recorded, numbered, seat, derived⟩ := faithful.holds version entry held
    rw [← kept version entry held] at recorded derived
    exact ⟨recorded, numbered, seat, derived⟩
  · exact fun version entry held => Nat.lt_succ_of_lt (faithful.made version entry held)
  · exact faithful.apart
  · exact faithful.lists

/-- An epoch is installed in a buffer that no other epoch has. -/
theorem faithful_install (faithful : Faithful roster ledger i r)
    (holds : Holds roster ledger i r.chainKeys version entry)
    (made : entry.chainKey < r.chainKeys.next)
    (fresh : ∀ version' entry', r.epochs.get? version' = some entry' → entry'.chainKey ≠ entry.chainKey) :
    Faithful roster ledger i (r.install version entry) := by
  have either {version' : ℤ} {entry' : EpochState K}
    (held : (r.install version entry).epochs.get? version' = some entry') :
      version' = version ∧ entry' = entry ∨ r.epochs.get? version' = some entry' := by
    rw [install_epochs, OrderedMap.get?_set] at held
    split at held
    · rename_i same
      exact .inl ⟨same, (Option.some.inj held).symm⟩
    · exact .inr held
  constructor
  · intro version' entry' held
    rw [install_chainKeys]
    rcases either held with ⟨rfl, rfl⟩ | old
    · exact holds
    · exact faithful.holds version' entry' old
  · intro version' entry' held
    rw [install_chainKeys]
    rcases either held with ⟨rfl, rfl⟩ | old
    · exact made
    · exact faithful.made version' entry' old
  · intro first one second two held held' same
    rcases either held with ⟨rfl, rfl⟩ | old <;> rcases either held' with ⟨rfl, rfl⟩ | old'
    · rfl
    · exact absurd same.symm (fresh second two old')
    · exact absurd same (fresh first one old)
    · exact faithful.apart first one second two old old' same
  · rw [install_peers]
    exact faithful.lists

theorem faithful_forget (faithful : Faithful roster ledger i r) (epoch : ℤ) :
    Faithful roster ledger i (r.forgetEpoch epoch) := by
  have either {version : ℤ} {entry : EpochState K} (held : (r.forgetEpoch epoch).epochs.get? version = some entry) :
      version ≠ epoch ∧ r.epochs.get? version = some entry := by
    rw [forgetEpoch_epochs, OrderedMap.get?_delete] at held
    split at held
    · cases held
    · rename_i other
      exact ⟨other, held⟩
  constructor
  · intro version entry held
    obtain ⟨other, old⟩ := either held
    have kept : (r.forgetEpoch epoch).chainKeys.read entry.chainKey = r.chainKeys.read entry.chainKey :=
      forgetEpoch_read r epoch fun forgotten gone same => other (faithful.apart _ _ _ _ old gone same.symm)
    obtain ⟨recorded, numbered, seat, derived⟩ := faithful.holds version entry old
    rw [← kept] at recorded derived
    exact ⟨recorded, numbered, seat, derived⟩
  · intro version entry held
    rw [forgetEpoch_next]
    exact faithful.made version entry (either held).2
  · exact fun first one second two held held' => faithful.apart first one second two (either held).2 (either held').2
  · rw [forgetEpoch_peers]
    exact faithful.lists

/-! ## What a call does -/

/-- The announcement wraps what is on record, for a client of the room. -/
def Told (roster : Roster platform ι) (ledger : ℤ → Option Record) (msg : EpochAnnouncement) : Prop :=
  ∃ sender draft peer dhSecret, Announces platform sender draft peer msg dhSecret ∧ roster.Known peer ∧
    ledger draft.version = some ⟨draft.minted, draft.peerIndexMap⟩

theorem told_mono {msg : EpochAnnouncement} (told : Told roster ledger msg) (more : Extends ledger ledger') :
    Told roster ledger' msg := by
  obtain ⟨sender, draft, peer, dhSecret, announces, known, recorded⟩ := told
  exact ⟨sender, draft, peer, dhSecret, announces, known, more _ _ recorded⟩

/-- Whatever is on record can be installed. -/
structure Sound (roster : Roster platform ι) (ledger : ℤ → Option Record) : Prop where
  numbered : ∀ version record, ledger version = some record → 0 ≤ version
  built : ∀ version record, ledger version = some record → ∃ peerIds, record.peerIndexMap = buildPeerIndexMap peerIds
  derived : ∀ version record, ledger version = some record →
    ∃ keys, deriveEpochKeyTable platform.crypto record.chainKey version record.peerIndexMap roster.suite
      roster.kidCodec = .ok keys

/-- What a client installs for an epoch. -/
def entryOf (roster : Roster platform ι) (i : ι) (draft : EpochDraft) (keys : OrderedMap ℤ (RatchetKey K)) :
    EpochState K where
  epoch := draft.version
  chainKey := draft.chainKey
  peerIndexMap := draft.peerIndexMap
  selfPeerIndex := draft.peerIndexMap.get (roster.identity i).peerId
  keys := keys

/-- The ratchet after an announced epoch has been consumed, in a buffer of its own. -/
def consumed (roster : Roster platform ι) (i : ι) (r : RoomRatchet K) (draft : EpochDraft)
    (keys : OrderedMap ℤ (RatchetKey K)) : RoomRatchet K :=
  (r.store draft.minted).install draft.version (entryOf roster i { draft with chainKey := r.chainKeys.next } keys)

section Calls
variable {draft : EpochDraft} {peer : PeerIdentity} {msg : EpochAnnouncement} {sender : JsString} {dhSecret : Bytes}
  {keys : OrderedMap ℤ (RatchetKey K)} {outcome : Except JsError (List EpochAnnouncement)}

theorem holds_entryOf {chainKeys : Heap Bytes} (numbered : draft.version = version)
    (held : chainKeys.read draft.chainKey = draft.minted)
    (recorded : ledger version = some ⟨draft.minted, draft.peerIndexMap⟩)
    (derived : deriveEpochKeyTable platform.crypto draft.minted version draft.peerIndexMap roster.suite
      roster.kidCodec =
      .ok keys) : Holds roster ledger i chainKeys version (entryOf roster i draft keys) := by
  unfold entryOf
  constructor
  · rw [held]
    exact recorded
  · exact numbered
  · rfl
  · rw [held]
    exact derived

theorem known_keyed (known : roster.Known peer) : ∃ privateKey, peer.publicKey = platform.publicKey privateKey := by
  obtain ⟨i, rfl⟩ := known
  exact ⟨_, roster.keyed i⟩

/-- The client that an announcement is for installs what was announced. -/
theorem alone_consumeEpochAnnouncement (correct : platform.Correct)
    (announces : Announces platform sender draft peer msg dhSecret)
    (known : roster.Known peer)
    (derived : deriveEpochKeyTable platform.crypto draft.minted draft.version draft.peerIndexMap
      roster.suite roster.kidCodec = .ok keys) (forPeer : msg.forPeer = (roster.identity i).peerId)
    (checked : checkPeerIndexMap (roster.options i) draft.peerIndexMap = .ok ()) :
    ∃ data, computeSas platform.crypto dhSecret = .ok data ∧
      alone (RoomRatchet.consumeEpochAnnouncement platform (roster.options i) msg) r =
        some (.ok (), (consumed roster i r draft keys).setSas sender draft.version data) := by
  obtain ⟨j, rfl⟩ := known
  obtain rfl : i = j := roster.distinct i j (forPeer.symm.trans announces.forPeer)
  obtain ⟨data, shown⟩ := computeSas_correct correct dhSecret
  obtain ⟨agreed, unwrapped⟩ := announces.unwraps correct (roster.keyed i)
  rw [announces.version] at unwrapped
  have mine : x25519Dh platform (roster.options i).identity.privateKey msg.ephemeralPub = .ok dhSecret := agreed
  have installs : alone (installEpoch platform (roster.options i)
      { version := draft.version, chainKey := r.chainKeys.next, minted := draft.minted,
        peerIndexMap := draft.peerIndexMap })
      (r.store draft.minted) = some (.ok (), consumed roster i r draft keys) := by
    have held : (r.store draft.minted).chainKeys.read r.chainKeys.next = draft.minted := by simp [store]
    have table : deriveEpochKeyTable platform.crypto draft.minted draft.version draft.peerIndexMap
      (roster.options i).suite
        (roster.options i).kidCodec = .ok keys := derived
    rw [@alone_installEpoch K platform ⟨draft.version, r.chainKeys.next, draft.minted,
      draft.peerIndexMap⟩ (roster.options i)
      (r.store draft.minted) (checkPeerIndexMap_own checked)]
    simp only [held, table]
    rfl
  refine ⟨data, shown, ?_⟩
  unfold RoomRatchet.consumeEpochAnnouncement
  rw [if_neg (not_not.mpr (show msg.forPeer = (roster.options i).identity.peerId from forPeer))]
  simp only [alone_bind, alone_settle, announces.peerIndexMap, checked, Option.bind_some, alone_awaiting,
    mine, alone_pause,
    unwrapped, alone_read, alone_update, announces.version, installs, announces.sender, alone_installSas shown]

/-- A client that an announcement is not for, or that finds fault with its map, stays as it is. -/
theorem alone_consume_refused (refused : msg.forPeer ≠ (roster.identity i).peerId ∨
    checkPeerIndexMap (roster.options i) msg.peerIndexMap ≠ .ok ()) :
    ∃ outcome, alone (RoomRatchet.consumeEpochAnnouncement platform (roster.options i) msg) r = some (outcome, r) := by
  unfold RoomRatchet.consumeEpochAnnouncement
  split
  · exact ⟨.ok (), rfl⟩
  · rename_i mine
    rcases refused with other | faulty
    · exact absurd other mine
    · cases checked : checkPeerIndexMap (roster.options i) msg.peerIndexMap with
      | ok _ => exact absurd checked faulty
      | error error => exact ⟨.error error, by simp⟩

theorem faithful_consumed (faithful : Faithful roster ledger i r)
    (recorded : ledger draft.version = some ⟨draft.minted, draft.peerIndexMap⟩)
    (derived : deriveEpochKeyTable platform.crypto draft.minted draft.version draft.peerIndexMap roster.suite
      roster.kidCodec =
      .ok keys) : Faithful roster ledger i (consumed roster i r draft keys) := by
  have held : (r.store draft.minted).chainKeys.read r.chainKeys.next = draft.minted := by simp [store]
  apply faithful_install (faithful_store faithful draft.minted)
  · apply holds_entryOf
    · rfl
    · exact held
    · exact recorded
    · exact derived
  · exact Nat.lt_succ_self _
  · intro version' entry' old same
    exact absurd same (Nat.ne_of_lt (faithful.made version' entry' old))

/-- A consumer keeps to the record, and its epoch does not go back. -/
theorem faithful_consumes (correct : platform.Correct) (sound : Sound roster ledger)
    (faithful : Faithful roster ledger i r)
    (told : Told roster ledger msg) {outcome : Except JsError Unit}
    (ran : alone (RoomRatchet.consumeEpochAnnouncement platform (roster.options i) msg) r = some (outcome, r')) :
    Faithful roster ledger i r' ∧ r.currentEpoch ≤ r'.currentEpoch := by
  obtain ⟨sender, draft, peer, dhSecret, announces, known, recorded⟩ := told
  obtain ⟨keys, derived⟩ := sound.derived _ _ recorded
  by_cases forPeer : msg.forPeer = (roster.identity i).peerId
  · by_cases checked : checkPeerIndexMap (roster.options i) draft.peerIndexMap = .ok ()
    · obtain ⟨data, -, consumes⟩ :=
        alone_consumeEpochAnnouncement (r := r) correct announces known derived forPeer checked
      obtain ⟨-, rfl⟩ := Prod.mk.inj (Option.some.inj (consumes.symm.trans ran))
      have after := faithful_consumed faithful recorded derived
      refine ⟨faithful_same after rfl rfl after.lists, ?_⟩
      change _ ≤ (RoomRatchet.install _ _ _).currentEpoch
      rw [install_currentEpoch]
      exact le_max_left _ _
    · obtain ⟨_, stays⟩ := alone_consume_refused (r := r) (.inr (announces.peerIndexMap ▸ checked))
      obtain ⟨-, rfl⟩ := Prod.mk.inj (Option.some.inj (stays.symm.trans ran))
      exact ⟨faithful, le_refl _⟩
  · obtain ⟨_, stays⟩ := alone_consume_refused (r := r) (.inl forPeer)
    obtain ⟨-, rfl⟩ := Prod.mk.inj (Option.some.inj (stays.symm.trans ran))
    exact ⟨faithful, le_refl _⟩

/-- The loop over the members announces the draft to some of them, and installs strings only. -/
theorem alone_announces (correct : platform.Correct) {members : List PeerIdentity}
    (known : ∀ peer ∈ members, roster.Known peer)
    (held : r.chainKeys.read draft.chainKey = draft.minted) (out : List EpochAnnouncement) : ∃ msgs r',
      alone (announce platform (roster.options i) draft members out) r = some (.ok (out ++ msgs), r') ∧ SameTable r r' ∧
        r'.peers = r.peers ∧ ∀ msg ∈ msgs, ∃ peer dhSecret, roster.Known peer ∧
          Announces platform (roster.identity i).peerId draft peer msg dhSecret := by
  induction members generalizing out r with
  | nil => exact ⟨[], r, by simp [announce], ⟨rfl, rfl, rfl⟩, rfl, fun _ never => absurd never List.not_mem_nil⟩
  | cons peer rest ih =>
    simp only [List.forall_mem_cons] at known
    by_cases own : peer.peerId = (roster.options i).identity.peerId
    · obtain ⟨msgs, r', ran, same⟩ := ih known.2 held out
      refine ⟨msgs, r', ?_, same⟩
      simp only [announce, own, ↓reduceIte, ran]
    · obtain ⟨privateKey, keyed⟩ := known_keyed known.1
      obtain ⟨msg, dhSecret, wrapped, announces⟩ := alone_wrapChainKeyForPeer (roster.options i) correct keyed held
      obtain ⟨data, shown⟩ := computeSas_correct correct dhSecret
      obtain ⟨msgs, r', ran, table, peers, each⟩ :=
        ih (r := r.draw.draw.setSas peer.peerId draft.version data) known.2 held
        (out ++ [msg])
      refine ⟨msg :: msgs, r', ?_, table, peers, List.forall_mem_cons.mpr ⟨⟨peer, dhSecret, known.1, announces⟩, each⟩⟩
      simp only [announce, own, ↓reduceIte, alone_bind, wrapped, Option.bind_some, alone_installSas shown, ran,
        List.append_assoc, List.singleton_append]

/-- Wrapping an epoch once more announces what is on record. -/
theorem alone_rewraps (correct : platform.Correct) (faithful : Faithful roster ledger i r) (known : roster.Known peer) :
    ∃ msgs r', alone (RoomRatchet.rewrapCurrentEpochFor platform (roster.options i) peer) r = some (.ok msgs, r') ∧
      SameTable r r' ∧ r'.peers = r.peers ∧ (∀ msg ∈ msgs, Told roster ledger msg) ∧
      (r.isAuthoritativeAuthor (roster.options i) = true → ∀ entry, r.epochs.get? r.currentEpoch = some entry →
        ∃ msg dhSecret data, msgs = [msg] ∧ Announces platform (roster.identity i).peerId
          ⟨r.currentEpoch, entry.chainKey, r.chainKeys.read entry.chainKey, entry.peerIndexMap⟩ peer msg dhSecret ∧
          computeSas platform.crypto dhSecret = .ok data ∧ r'.getSas peer.peerId = some data) := by
  unfold RoomRatchet.rewrapCurrentEpochFor
  simp only [alone_bind, alone_read, Option.bind_some]
  split
  · cases held : r.epochs.get? r.currentEpoch with
    | none => exact ⟨[], r, rfl, ⟨rfl, rfl, rfl⟩, rfl, fun _ never => absurd never List.not_mem_nil,
        fun _ _ never => by cases never⟩
    | some entry =>
      have holds := faithful.holds _ _ held
      obtain ⟨privateKey, keyed⟩ := known_keyed known
      obtain ⟨msg, dhSecret, wrapped, announces⟩ := @alone_wrapChainKeyForPeer K platform
        ⟨entry.epoch, entry.chainKey, r.chainKeys.read entry.chainKey, entry.peerIndexMap⟩ peer privateKey r
          (roster.options i)
        correct keyed rfl
      obtain ⟨data, shown⟩ := computeSas_correct correct dhSecret
      refine ⟨[msg], r.draw.draw.setSas peer.peerId entry.epoch data, ?_, ⟨rfl, rfl, rfl⟩, rfl, ?_, ?_⟩
      · simp only [wrapped, alone_bind, Option.bind_some, alone_installSas shown, alone_pure]
      · intro other member
        rw [List.mem_singleton.mp member]
        refine ⟨_, _, peer, dhSecret, announces, known, ?_⟩
        rw [holds.numbered]
        exact holds.recorded
      · intro _ same found
        cases found
        rw [holds.numbered] at announces
        exact ⟨msg, dhSecret, data, rfl, announces, shown, by simp [getSas, setSas]⟩
  · rename_i stranger
    exact ⟨[], r, rfl, ⟨rfl, rfl, rfl⟩, rfl, fun _ never => absurd never List.not_mem_nil, fun leads =>
      absurd leads stranger⟩

/-- Nothing on record is ahead of the author. -/
structure Leads (ledger : ℤ → Option Record) (r : RoomRatchet K) : Prop where
  floor : -1 ≤ r.currentEpoch
  latest : ∀ version record, ledger version = some record → version ≤ r.currentEpoch

/-- What the author mints is put on record, and nothing else is. -/
structure Advanced (roster : Roster platform ι) (ledger ledger' : ℤ → Option Record) (i : ι) (r : RoomRatchet K)
    (outcome : Except JsError (List EpochAnnouncement)) : Prop where
  more : Extends ledger ledger'
  sound : Sound roster ledger'
  faithful : Faithful roster ledger' i r
  leads : i = roster.author → Leads ledger' r
  follows : i ≠ roster.author → ledger' = ledger
  told : ∀ msg ∈ published outcome, Told roster ledger' msg

/-- A call that mints nothing. -/
theorem advanced_idle (sound : Sound roster ledger) (leads : i = roster.author → Leads ledger r)
    (current : r.currentEpoch ≤ r'.currentEpoch) (faithful : Faithful roster ledger i r')
    (told : ∀ msg ∈ published outcome, Told roster ledger msg) : Advanced roster ledger ledger i r' outcome where
  more _ _ recorded := recorded
  sound := sound
  faithful := faithful
  leads own := ⟨(leads own).floor.trans current, fun version record recorded =>
    ((leads own).latest version record recorded).trans current⟩
  follows _ := rfl
  told := told

theorem never_told : ∀ msg ∈ ([] : List EpochAnnouncement), Told roster ledger msg :=
  fun _ never => absurd never List.not_mem_nil

theorem sound_record (sound : Sound roster ledger) {record : Record} (numbered : 0 ≤ version)
    (built : ∃ peerIds, record.peerIndexMap = buildPeerIndexMap peerIds)
    (derived : deriveEpochKeyTable platform.crypto record.chainKey version record.peerIndexMap roster.suite
      roster.kidCodec =
      .ok keys) : Sound roster (Function.update ledger version (some record)) := by
  have either {version' : ℤ} {record' : Record} (recorded : Function.update ledger version
    (some record) version' = some record') :
      version' = version ∧ record' = record ∨ ledger version' = some record' := by
    rw [Function.update_apply] at recorded
    split at recorded
    · rename_i same
      exact .inl ⟨same, (Option.some.inj recorded).symm⟩
    · exact .inr recorded
  constructor
  · intro version' record' recorded
    rcases either recorded with ⟨rfl, rfl⟩ | old
    · exact numbered
    · exact sound.numbered version' record' old
  · intro version' record' recorded
    rcases either recorded with ⟨rfl, rfl⟩ | old
    · exact built
    · exact sound.built version' record' old
  · intro version' record' recorded
    rcases either recorded with ⟨rfl, rfl⟩ | old
    · exact ⟨keys, derived⟩
    · exact sound.derived version' record' old

/-- The epoch that the author starts. -/
def minting (roster : Roster platform ι) (members : List PeerIdentity) (r : RoomRatchet K) : EpochDraft where
  version := r.currentEpoch + 1
  chainKey := r.chainKeys.next
  minted := platform.randomValues r.drawn (suiteParams roster.suite).chainKeyBytes
  peerIndexMap := buildPeerIndexMap ((roster.identity roster.author).peerId :: members.map PeerIdentity.peerId)

/-- The author once it has minted a chain key. -/
def begun (roster : Roster platform ι) (members : List PeerIdentity) (r : RoomRatchet K) : RoomRatchet K :=
  ({ r with peers := peerMap members }.store (minting roster members r).minted).draw

theorem alone_begins (roster : Roster platform ι) (members : List PeerIdentity) (r : RoomRatchet K) :
    (alone (beginEpoch platform (roster.options roster.author) members none none) r =
        some (.ok (minting roster members r), begun roster members r)) ∨
      ∃ refused, alone (beginEpoch platform (roster.options roster.author) members none none) r =
        some (.error refused, { r with peers := peerMap members }) := by
  simp only [beginEpoch, alone_bind, alone_update, Option.bind_some, alone_read, Option.getD_none]
  split
  · exact .inl rfl
  · exact .inr ⟨_, rfl⟩

theorem held_begun (roster : Roster platform ι) (members : List PeerIdentity) (r : RoomRatchet K) :
    (begun roster members r).chainKeys.read
    (minting roster members r).chainKey = (minting roster members r).minted := by
  simp [begun, minting, store, draw]

/-- The author installs the epoch that it has begun, or finds that it cannot. -/
theorem alone_installs (roster : Roster platform ι) (members : List PeerIdentity) (r : RoomRatchet K) :
    (∃ keys, deriveEpochKeyTable platform.crypto (minting roster members r).minted (minting roster members r).version
        (minting roster members r).peerIndexMap roster.suite roster.kidCodec = .ok keys ∧
      alone (installEpoch platform (roster.options roster.author) (minting roster members r)) (begun roster members r) =
        some (.ok (), (begun roster members r).install (minting roster members r).version
          (entryOf roster roster.author (minting roster members r) keys))) ∨
      ∃ refused, alone (installEpoch platform (roster.options roster.author) (minting roster members r))
        (begun roster members r) =
        some (.error refused, begun roster members r) := by
  by_cases own : (minting roster members r).peerIndexMap.get (roster.options roster.author).identity.peerId = .undefined
  · refine .inr ⟨.error "ratchet: self peer_id missing from peer_index_map", ?_⟩
    simp only [installEpoch, own, ↓reduceIte, alone_bind, alone_throw, Option.bind_some]
  · rw [alone_installEpoch own, held_begun]
    cases derived : deriveEpochKeyTable platform.crypto (minting roster members r).minted
      (minting roster members r).version
        (minting roster members r).peerIndexMap (roster.options roster.author).suite
          (roster.options roster.author).kidCodec with
    | ok keys => exact .inl ⟨keys, derived, rfl⟩
    | error refused => exact .inr ⟨refused, rfl⟩

/-- The record of the epoch that the author starts. -/
def recording (roster : Roster platform ι) (ledger : ℤ → Option Record) (members : List PeerIdentity)
    (r : RoomRatchet K) :
    ℤ → Option Record :=
  Function.update ledger (minting roster members r).version
    (some ⟨(minting roster members r).minted, (minting roster members r).peerIndexMap⟩)

/-- Its version is new to the record. -/
theorem extends_recording (leads : Leads ledger r) (members : List PeerIdentity) :
    Extends ledger (recording roster ledger members r) := by
  intro version record recorded
  unfold recording
  rw [Function.update_of_ne]
  · exact recorded
  · rintro rfl
    exact absurd (leads.latest _ _ recorded) (not_le.mpr (lt_add_one r.currentEpoch))

/-- The epoch that the author starts is on record once it is installed. -/
theorem faithful_minting (faithful : Faithful roster ledger roster.author r) (leads : Leads ledger r)
    {members : List PeerIdentity}
    (stored : Faithful roster ledger roster.author (begun roster members r))
    (derived : deriveEpochKeyTable platform.crypto (minting roster members r).minted (minting roster members r).version
      (minting roster members r).peerIndexMap roster.suite roster.kidCodec = .ok keys) :
    Faithful roster (recording roster ledger members r) roster.author ((begun roster members r).install
      (minting roster members r).version (entryOf roster roster.author (minting roster members r) keys)) := by
  apply faithful_install (faithful_mono stored (extends_recording leads members))
  · exact holds_entryOf rfl (held_begun roster members r) (Function.update_self _ _ _) derived
  · exact Nat.lt_succ_self _
  · intro version' entry' old same
    exact absurd same (Nat.ne_of_lt (faithful.made version' entry' old))

theorem leads_minting (leads : Leads ledger r) (members : List PeerIdentity) (entry : EpochState K) :
    Leads (recording roster ledger members r) ((begun roster members r).install
      (minting roster members r).version entry) := by
  have current : ((begun roster members r).install (minting roster members r).version entry).currentEpoch =
      r.currentEpoch + 1 := by
    rw [install_currentEpoch]
    exact max_eq_right (le_of_lt (lt_add_one r.currentEpoch))
  constructor
  · rw [current]
    exact leads.floor.trans (le_of_lt (lt_add_one _))
  · intro version record recorded
    rw [current]
    unfold recording at recorded
    rw [Function.update_apply] at recorded
    split at recorded
    · rename_i same
      exact same.le
    · exact (leads.latest version record recorded).trans (le_of_lt (lt_add_one _))

/-- The author starts an epoch. -/
theorem starts_advance (correct : platform.Correct) (sound : Sound roster ledger)
    (faithful : Faithful roster ledger roster.author r) (leads : Leads ledger r) {members : List PeerIdentity}
    (known : ∀ peer ∈ members, roster.Known peer)
    (ran : alone (RoomRatchet.startNewEpoch platform (roster.options roster.author) members none none) r =
      some (outcome, r')) :
    ∃ ledger', Advanced roster ledger ledger' roster.author r' outcome := by
  have peers : roster.Lists (peerMap members) := fun peerId peer held =>
    ⟨known peer (get?_peerMap held).1, (get?_peerMap held).2⟩
  have replaced : Faithful roster ledger roster.author { r with peers := peerMap members } :=
    faithful_same faithful rfl rfl peers
  have stored : Faithful roster ledger roster.author (begun roster members r) :=
    faithful_same (faithful_store replaced (minting roster members r).minted) rfl rfl peers
  unfold RoomRatchet.startNewEpoch at ran
  rw [alone_bind] at ran
  rcases alone_begins roster members r with begins | ⟨refused, fails⟩
  · rw [begins, Option.bind_some] at ran
    dsimp only at ran
    rw [alone_bind] at ran
    rcases alone_installs roster members r with ⟨keys, derived, installs⟩ | ⟨refused, fails⟩
    · rw [installs, Option.bind_some] at ran
      dsimp only at ran
      have installed := faithful_minting faithful leads stored derived
      have ahead : Leads (recording roster ledger members r)
        ((begun roster members r).install (minting roster members r).version
          (entryOf roster roster.author (minting roster members r) keys)) := leads_minting leads members _
      have held : ((begun roster members r).install (minting roster members r).version
          (entryOf roster roster.author (minting roster members r) keys)).chainKeys.read
            (minting roster members r).chainKey =
          (minting roster members r).minted := by
        rw [install_chainKeys, held_begun]
      obtain ⟨msgs, announcing, announced, ⟨epochs, current, buffers⟩, others, each⟩ :=
        alone_announces (i := roster.author) correct known held []
      rw [announced] at ran
      obtain ⟨rfl, rfl⟩ := Prod.mk.inj (Option.some.inj ran)
      refine ⟨recording roster ledger members r, extends_recording leads members, ?_, ?_, fun _ => ?_, fun other =>
        absurd rfl other, ?_⟩
      · refine sound_record sound ?_ ⟨_, rfl⟩ derived
        exact Int.add_nonneg_iff_neg_le.mpr leads.floor
      · apply faithful_same installed epochs buffers
        rw [others]
        exact installed.lists
      · exact ⟨current ▸ ahead.floor, current ▸ ahead.latest⟩
      · intro msg member
        obtain ⟨peer, dhSecret, known, announces⟩ := each msg (by simpa [published] using member)
        exact ⟨_, _, peer, dhSecret, announces, known, Function.update_self _ _ _⟩
    · rw [fails] at ran
      obtain ⟨rfl, rfl⟩ := Prod.mk.inj (Option.some.inj ran)
      exact ⟨ledger, advanced_idle sound (fun _ => leads) (le_refl _) stored never_told⟩
  · rw [fails] at ran
    obtain ⟨rfl, rfl⟩ := Prod.mk.inj (Option.some.inj ran)
    exact ⟨ledger, advanced_idle sound (fun _ => leads) (le_refl _) replaced never_told⟩

/-- A client that knows of the author does not lead. -/
theorem not_leading (other : i ≠ roster.author) (listed : (roster.identity roster.author).peerId ∈ r.peers.keys) :
    r.isAuthoritativeAuthor (roster.options i) = false := by
  refine decide_eq_false fun first => ?_
  have sorted := sort_pairwise ((roster.options i).identity.peerId :: r.peers.keys)
  have among : (roster.identity roster.author).peerId ∈ sort ((roster.options i).identity.peerId :: r.peers.keys) :=
    (sort_perm _).mem_iff.mpr (List.mem_cons_of_mem _ listed)
  generalize sort ((roster.options i).identity.peerId :: r.peers.keys) = names at first sorted among
  cases names with
  | nil => cases among
  | cons least rest =>
    obtain rfl : least = (roster.identity i).peerId := Option.some.inj first
    have below : (roster.identity i).peerId ≤ (roster.identity roster.author).peerId := by
      rcases List.mem_cons.mp among with same | later
      · exact same.ge
      · exact (List.pairwise_cons.mp sorted).1 _ later
    exact other (roster.distinct _ _ (le_antisymm below (roster.smallest i)))

/-- The author leads whoever it knows of. -/
theorem leading (faithful : Faithful roster ledger roster.author r) :
    r.isAuthoritativeAuthor (roster.options roster.author) = true := by
  refine decide_eq_true (sort_head fun other held => ?_)
  obtain ⟨peer, listed⟩ := Option.isSome_iff_exists.mp (OrderedMap.mem_keys.mp held)
  obtain ⟨⟨i, rfl⟩, rfl⟩ := faithful.lists other peer listed
  exact roster.smallest i

theorem lists_after {delta : MemberChange} {peers : OrderedMap JsString PeerIdentity} (lists : roster.Lists peers)
    (told : ∀ peer, newcomer delta = some peer → roster.Known peer) : roster.Lists (membersAfter delta peers) := by
  have added {fresh : PeerIdentity} (own : newcomer delta = some fresh) :
      roster.Lists (peers.set fresh.peerId fresh) := by
    intro peerId peer held
    rw [OrderedMap.get?_set] at held
    split at held
    · rename_i same
      cases held
      exact ⟨told _ own, same.symm⟩
    · exact lists peerId peer held
  cases delta with
  | join fresh => exact added rfl
  | reconnect fresh => exact added rfl
  | leave gone =>
    intro peerId peer held
    change (peers.delete gone).get? peerId = some peer at held
    rw [OrderedMap.get?_delete] at held
    split at held
    · cases held
    · exact lists peerId peer held

/-- A change of the members: they are replaced, and then the author starts an epoch for them. -/
theorem alone_rotates (delta : MemberChange) :
    alone (RoomRatchet.rotateOnMemberChange platform (roster.options i) delta) r =
      if ({ r with peers := membersAfter delta r.peers } : RoomRatchet K).isAuthoritativeAuthor
        (roster.options i) = true then
        alone (RoomRatchet.startNewEpoch platform (roster.options i) (membersAfter delta r.peers).values none none)
          { r with peers := membersAfter delta r.peers }
      else some (.ok [], { r with peers := membersAfter delta r.peers }) := by
  have decided (led : Bool) (starts : RatchetTask K (List EpochAnnouncement)) (r : RoomRatchet K) :
      alone (if led = true then starts else pure []) r = if led = true then alone starts r else some (.ok [], r) := by
    cases led <;> simp
  cases delta <;>
    simp only [RoomRatchet.rotateOnMemberChange, alone_bind, alone_update, Option.bind_some, alone_read,
      membersAfter, decided]
  all_goals rfl

/-- **A call.** Whatever a client of the room may call, all epochs stay on record. -/
theorem call_advances (correct : platform.Correct) {a : Assembly ι K} (sound : Sound roster ledger)
    (faithful : Faithful roster ledger i (a.clients i)) (leads : i = roster.author → Leads ledger (a.clients i))
    (told : ∀ msg ∈ a.announced, Told roster ledger msg) {call : RatchetCall} (permitted : Permitted roster a i call)
    (ran : alone (call.program platform (roster.options i)) (a.clients i) = some (outcome, r')) :
    ∃ ledger', Advanced roster ledger ledger' i r' outcome := by
  cases permitted with
  | starts own known =>
    subst own
    exact starts_advance correct sound faithful (leads rfl) known ran
  | @consumes msg sent =>
    simp only [RatchetCall.program, alone_bind] at ran
    obtain ⟨⟨result, after⟩, consumes, ends⟩ := Option.bind_eq_some_iff.mp ran
    obtain ⟨faithful', current⟩ := faithful_consumes correct sound faithful (told _ sent) consumes
    refine ⟨ledger, ?_⟩
    cases result with
    | ok _ =>
      obtain ⟨rfl, rfl⟩ := Prod.mk.inj (Option.some.inj ends)
      exact advanced_idle sound leads current faithful' never_told
    | error refused =>
      obtain ⟨rfl, rfl⟩ := Prod.mk.inj (Option.some.inj ends)
      exact advanced_idle sound leads current faithful' never_told
  | @rotates delta known led =>
    have peers := lists_after faithful.lists known
    have replaced : Faithful roster ledger i { a.clients i with peers := membersAfter delta (a.clients i).peers } :=
      faithful_same faithful rfl rfl peers
    change alone (RoomRatchet.rotateOnMemberChange platform (roster.options i) delta) _ = _ at ran
    rw [alone_rotates] at ran
    split at ran
    · rename_i leading
      by_cases own : i = roster.author
      · subst own
        apply starts_advance correct sound replaced ⟨(leads rfl).floor, (leads rfl).latest⟩ ?_ ran
        intro peer member
        obtain ⟨peerId, held⟩ := OrderedMap.mem_values.mp member
        exact (peers peerId peer held).1
      · rw [not_leading own (led.resolve_left own)] at leading
        cases leading
    · obtain ⟨rfl, rfl⟩ := Prod.mk.inj (Option.some.inj ran)
      exact ⟨ledger, advanced_idle sound leads (le_refl _) replaced never_told⟩
  | rewraps known =>
    obtain ⟨msgs, after, rewraps, ⟨epochs, current, buffers⟩, others, again, -⟩ := alone_rewraps correct faithful known
    obtain ⟨rfl, rfl⟩ := Prod.mk.inj (Option.some.inj (rewraps.symm.trans ran))
    exact ⟨ledger, advanced_idle sound leads current.ge
      (faithful_same faithful epochs buffers (others ▸ faithful.lists)) again⟩
  | forgets epoch =>
    simp only [RatchetCall.program, alone_bind, alone_update, Option.bind_some, alone_pure,
      Option.some.injEq, Prod.mk.injEq] at ran
    obtain ⟨rfl, rfl⟩ := ran
    exact ⟨ledger, advanced_idle sound leads (forgetEpoch_currentEpoch _ _).ge
      (faithful_forget faithful epoch) never_told⟩
  | fires epoch =>
    simp only [RatchetCall.program, RoomRatchet.forgetTimer, alone_bind, alone_pauseUntil] at ran
    split at ran
    · simp only [Option.bind_some, alone_update, alone_pure, Option.some.injEq, Prod.mk.injEq] at ran
      obtain ⟨rfl, rfl⟩ := ran
      have erased : Faithful roster ledger i
        { a.clients i with forgetTimers := (a.clients i).forgetTimers.erase epoch } :=
        faithful_same faithful rfl rfl faithful.lists
      refine ⟨ledger, advanced_idle sound leads ?_ (faithful_forget erased epoch) never_told⟩
      rw [forgetEpoch_currentEpoch]
    · cases ran

end Calls

/-! ## Rooms -/

/-- Every client keeps to the record, and so does all that was announced and handed on. -/
structure Kept (roster : Roster platform ι) (a : Assembly ι K) (ledger : ℤ → Option Record) : Prop where
  sound : Sound roster ledger
  faithful : ∀ i, Faithful roster ledger i (a.clients i)
  leads : Leads ledger (a.clients roster.author)
  told : ∀ msg ∈ a.announced, Told roster ledger msg
  handed : ∀ i, ∀ params ∈ a.handed i, ledger params.epoch = some ⟨params.chainKey, params.peerIndexMap⟩

/-- A room without epochs keeps to an empty record. -/
theorem kept_gather {initialPeers : ι → List PeerIdentity} (known : ∀ i, ∀ peer ∈ initialPeers i, roster.Known peer) :
    Kept roster (gather initialPeers : Assembly ι K) fun _ => none where
  sound := {
    numbered _ _ never := by cases never
    built _ _ never := by cases never
    derived _ _ never := by cases never }
  faithful i := {
    holds _ _ never := by cases never
    made _ _ never := by cases never
    apart _ _ _ _ never := by cases never
    lists _ peer held := ⟨known i peer (get?_peerMap held).1, (get?_peerMap held).2⟩ }
  leads := ⟨le_refl _, fun _ _ never => by cases never⟩
  told := never_told
  handed _ _ never := absurd never List.not_mem_nil

section Rooms
variable [DecidableEq ι] {a a' : Assembly ι K} {initialPeers : ι → List PeerIdentity}

/-- **A step.** -/
theorem kept_step (correct : platform.Correct) (kept : Kept roster a ledger) (step : Step roster a a') :
    ∃ ledger', Extends ledger ledger' ∧ Kept roster a' ledger' := by
  cases step with
  | @calls i call permitted outcome r ran =>
    obtain ⟨ledger', more, sound, faithful, leads, follows, told⟩ := call_advances correct kept.sound (kept.faithful i)
      (fun own => own ▸ kept.leads) kept.told permitted ran
    refine ⟨ledger', more, sound, fun j => ?_, ?_, fun msg member => ?_, fun j params member =>
      more _ _ (kept.handed j params member)⟩
    · by_cases same : j = i
      · subst same
        simpa [Assembly.turn] using faithful
      · simpa [Assembly.turn, same] using faithful_mono (kept.faithful j) more
    · by_cases same : i = roster.author
      · subst same
        simpa [Assembly.turn] using leads rfl
      · have others : (a.turn i r (published outcome)).clients roster.author = a.clients roster.author := by
          simp [Assembly.turn, Ne.symm same]
        rw [others, follows same]
        exact kept.leads
    · rcases List.mem_append.mp member with old | new
      · exact told_mono (kept.told msg old) more
      · exact told msg new
  | @hands i params chainKey peerIndexMap =>
    refine ⟨ledger, fun _ _ recorded => recorded, kept.sound, kept.faithful, kept.leads, kept.told,
      fun j other member => ?_⟩
    by_cases same : j = i
    · subst same
      simp only [Assembly.hand, Function.update_self] at member
      rcases List.mem_append.mp member with old | new
      · exact kept.handed j other old
      · rw [List.mem_singleton.mp new]
        obtain ⟨entry, held, bytes⟩ := Option.map_eq_some_iff.mp chainKey
        obtain ⟨entry', held', map⟩ := Option.map_eq_some_iff.mp peerIndexMap
        obtain rfl := Option.some.inj (held.symm.trans held')
        rw [← bytes, ← map]
        exact ((kept.faithful j).holds _ _ held).recorded
    · simp only [Assembly.hand, Function.update_of_ne same] at member
      exact kept.handed j other member

/-- Whatever turns were taken, there is a record that everyone keeps to. -/
theorem kept_reachable (correct : platform.Correct) (known : ∀ i, ∀ peer ∈ initialPeers i, roster.Known peer)
    (reached : Reachable roster (gather initialPeers) a) : ∃ ledger, Kept roster a ledger := by
  induction reached with
  | start => exact ⟨_, kept_gather known⟩
  | step _ step ih =>
    obtain ⟨ledger, kept⟩ := ih
    obtain ⟨ledger', -, kept'⟩ := kept_step correct kept step
    exact ⟨ledger', kept'⟩

end Rooms

section Specimen
open RoomSpecimen (client peer)

def duoIdentity : Fin 2 → IdentityKeyPair
  | 0 => (client 'a' 1).identity
  | 1 => (client 'b' 2).identity

theorem duo_keyed (i : Fin 2) : (duoIdentity i).publicKey = RoomSpecimen.platform.publicKey
    (duoIdentity i).privateKey := by
  revert i
  decide

theorem duo_distinct (i j : Fin 2) : (duoIdentity i).peerId = (duoIdentity j).peerId → i = j := by
  revert i j
  decide

theorem duo_smallest (i : Fin 2) : (duoIdentity 0).peerId ≤ (duoIdentity i).peerId := by
  revert i
  decide

/-- An author and one member. -/
def duo : Roster RoomSpecimen.platform (Fin 2) where
  suite := defaultCipherSuite
  kidCodec := .fixed
  identity := duoIdentity
  author := ⟨0, Nat.zero_lt_two⟩
  keyed := duo_keyed
  distinct := duo_distinct
  smallest := duo_smallest

theorem nobody : ∀ peer ∈ ([] : List PeerIdentity), duo.Known peer := fun _ never => absurd never List.not_mem_nil

/-- The epoch that the author starts. -/
def duoParams : EpochParams where
  epoch := 0
  peerIndexMap := buildPeerIndexMap [utf16 ['a'], utf16 ['b']]
  chainKey := RoomSpecimen.platform.randomValues 0 32

/-- The client shows this epoch. -/
def shows (a : Assembly (Fin 2) Bytes) (i : Fin 2) : Bool :=
  (a.clients i).getEpochChainKey 0 = some duoParams.chainKey ∧
    ((a.clients i).getEpochPeerIndexMap 0).map (fun map => map.entries) = some duoParams.peerIndexMap.entries

/-- The author starts the epoch, and the member consumes its announcement. -/
theorem duo_room : ∃ a : Assembly (Fin 2) Bytes, Reachable duo (gather fun _ => []) a ∧
    (∀ i, (a.clients i).getEpochChainKey 0 = some duoParams.chainKey ∧
      (a.clients i).getEpochPeerIndexMap 0 = some duoParams.peerIndexMap) ∧
    (a.clients 0).currentEpoch = 0 ∧ (a.clients 0).selfPeerIndex = .own 0 := by
  have result : ((gather fun _ => [] : Assembly (Fin 2) Bytes).call duo 0
    (.startNewEpoch [peer (client 'b' 2)] none none)).bind
      (fun a => a.announced.head?.bind fun msg => (a.call duo 1 (.consumeEpochAnnouncement msg)).map fun a' =>
        (shows a' 0, shows a' 1, (a'.clients 0).currentEpoch, (a'.clients 0).selfPeerIndex)) = some
          (true, true, 0, .own 0) := by
    decide +kernel
  obtain ⟨a, started, later⟩ := Option.bind_eq_some_iff.mp result
  obtain ⟨msg, first, later⟩ := Option.bind_eq_some_iff.mp later
  obtain ⟨a', taken, facts⟩ := Option.map_eq_some_iff.mp later
  simp only [Prod.mk.injEq] at facts
  obtain ⟨mine, theirs, current, seat⟩ := facts
  have known : ∀ other ∈ [peer (client 'b' 2)], duo.Known other := by
    intro other member
    rw [List.mem_singleton.mp member]
    exact ⟨1, rfl⟩
  have reached := reachable_call .start (.starts rfl known) started
  have both {i : Fin 2} (same : shows a' i = true) :
      (a'.clients i).getEpochChainKey 0 = some duoParams.chainKey ∧
        (a'.clients i).getEpochPeerIndexMap 0 = some duoParams.peerIndexMap := by
    obtain ⟨chainKey, entries⟩ := of_decide_eq_true same
    obtain ⟨map, held, listed⟩ := Option.map_eq_some_iff.mp entries
    exact ⟨chainKey, by rw [held, OrderedMap.ext_entries listed]⟩
  exact ⟨a', reachable_call reached (.consumes (List.mem_of_head? first)) taken,
    Fin.forall_fin_two.mpr ⟨both mine, both theirs⟩, current, seat⟩

end Specimen

section Rooms
variable [DecidableEq ι] {a : Assembly ι K} {initialPeers : ι → List PeerIdentity}

/-- **Agreement.** Whoever holds an epoch holds the same chain key, map and receiving keys of it as
anyone else, each in a seat of its own. -/
theorem holders_agree (correct : platform.Correct) (known : ∀ i, ∀ peer ∈ initialPeers i, roster.Known peer)
    (reached : Reachable roster (gather initialPeers) a) {i j : ι} {version : ℤ} {mine theirs : EpochState K}
    (own : (a.clients i).epochs.get? version = some mine) (other : (a.clients j).epochs.get? version = some theirs) :
    (a.clients i).getEpochChainKey version = (a.clients j).getEpochChainKey version ∧
      (a.clients i).getEpochPeerIndexMap version = (a.clients j).getEpochPeerIndexMap version ∧
      (∀ peerIndex, (a.clients i).getReceivingKey version peerIndex = (a.clients j).getReceivingKey version peerIndex) ∧
      ∀ peerIndex, mine.selfPeerIndex = .own peerIndex → theirs.selfPeerIndex = .own peerIndex → i = j := by
  obtain ⟨ledger, kept⟩ := kept_reachable correct known reached
  have holds := (kept.faithful i).holds version mine own
  have holds' := (kept.faithful j).holds version theirs other
  obtain ⟨chainKey, map, keys⟩ := holds_same holds holds'
  obtain ⟨peerIds, built⟩ := kept.sound.built version _ holds.recorded
  refine ⟨?_, ?_, fun peerIndex => ?_, fun peerIndex one two => ?_⟩
  · simp [getEpochChainKey, own, other, chainKey]
  · simp [getEpochPeerIndexMap, own, other, map]
  · simp [getReceivingKey, own, other, keys]
  · have built : mine.peerIndexMap = buildPeerIndexMap peerIds := built
    rw [holds.seat, built] at one
    rw [holds'.seat, ← map, built] at two
    exact roster.distinct i j (buildPeerIndexMap_apart one two)

theorem holders_agree_two : ∃ a : Assembly (Fin 2) Bytes, Reachable duo (gather fun _ => []) a ∧
    ((a.clients 0).getEpochChainKey 0).isSome ∧
    (a.clients 0).getEpochChainKey 0 = (a.clients 1).getEpochChainKey 0 := by
  obtain ⟨a, reached, held, -⟩ := duo_room
  obtain ⟨mine, own, -⟩ := Option.map_eq_some_iff.mp (held 0).1
  obtain ⟨theirs, other, -⟩ := Option.map_eq_some_iff.mp (held 1).1
  exact ⟨a, reached, by rw [(held 0).1]; rfl,
    (holders_agree RoomSpecimen.platform_correct (fun _ => nobody) reached own other).1⟩

/-- **Sending and receiving.** A client that holds its epoch and has a seat in it has a key to seal
with, named after the epoch and the seat, and whoever holds that epoch finds this key there. -/
theorem sender_found (correct : platform.Correct) (known : ∀ i, ∀ peer ∈ initialPeers i, roster.Known peer)
    (reached : Reachable roster (gather initialPeers) a) {i : ι} {peerIndex : ℤ}
    (seat : (a.clients i).selfPeerIndex = .own peerIndex) :
    ∃ key, (a.clients i).advanceSending = .ok key ∧
      roster.kidCodec.decode key.kid = ((a.clients i).currentEpoch, peerIndex) ∧
      ∀ j, ((a.clients j).epochs.get? (a.clients i).currentEpoch).isSome →
        (a.clients j).getReceivingKey (a.clients i).currentEpoch peerIndex = some key := by
  obtain ⟨ledger, kept⟩ := kept_reachable correct known reached
  unfold selfPeerIndex at seat
  split at seat
  · rename_i mine own
    have holds := (kept.faithful i).holds _ mine own
    have listed : peerIndex ∈ mine.peerIndexMap.values := by
      rw [holds.seat] at seat
      exact OrderedMap.mem_values.mpr ⟨_, PlainObject.get_own.mp seat⟩
    obtain ⟨key, made⟩ := (deriveEpochKeyTable_ok platform.crypto).mp ⟨_, holds.derived⟩ peerIndex listed
    have held : mine.keys.get? peerIndex = some key :=
      (get?_deriveEpochKeyTable platform.crypto holds.derived).mpr ⟨listed, made⟩
    refine ⟨key, ?_, ?_, fun j holder => ?_⟩
    · simp [advanceSending, own, seat, held]
    · exact (decode_encode (deriveSenderKeys_named platform.crypto made)).1
    · obtain ⟨theirs, other⟩ := Option.isSome_iff_exists.mp holder
      rw [(holds_same holds ((kept.faithful j).holds _ theirs other)).2.2] at held
      simp [getReceivingKey, other, held]
  · cases seat

theorem sender_found_author : ∃ (a : Assembly (Fin 2) Bytes) (key : RatchetKey Bytes), Reachable duo
    (gather fun _ => []) a ∧
    (a.clients 0).advanceSending = .ok key ∧ (a.clients 1).getReceivingKey 0 0 = some key := by
  obtain ⟨a, reached, held, current, seat⟩ := duo_room
  obtain ⟨theirs, other, -⟩ := Option.map_eq_some_iff.mp (held 1).1
  obtain ⟨key, sends, -, found⟩ := sender_found RoomSpecimen.platform_correct (fun _ => nobody) reached seat
  rw [current] at found
  exact ⟨a, key, reached, sends, found 1 (by rw [other]; rfl)⟩

/-- **Retry.** In every room that can be reached, a client that has a place in the author's epoch and
asks for it is sent one announcement, and once it has consumed this it holds the epoch as the author
does, and both show their users the same string. -/
theorem rewrap_reaches (correct : platform.Correct) (known : ∀ i, ∀ peer ∈ initialPeers i, roster.Known peer)
    (reached : Reachable roster (gather initialPeers) a) {j : ι} {entry : EpochState K}
    (held : (a.clients roster.author).epochs.get? (a.clients roster.author).currentEpoch = some entry)
    (placed : checkPeerIndexMap (roster.options j) entry.peerIndexMap = .ok ()) :
    ∃ msg mine theirs,
      alone (RoomRatchet.rewrapCurrentEpochFor platform (roster.options roster.author)
        ⟨(roster.identity j).peerId, (roster.identity j).publicKey⟩) (a.clients roster.author) = some
          (.ok [msg], mine) ∧
      alone (RoomRatchet.consumeEpochAnnouncement platform (roster.options j) msg) (a.clients j) = some
        (.ok (), theirs) ∧
      theirs.currentEpoch = max (a.clients j).currentEpoch mine.currentEpoch ∧
      theirs.getEpochChainKey mine.currentEpoch = mine.getEpochChainKey mine.currentEpoch ∧
      theirs.getEpochPeerIndexMap mine.currentEpoch = mine.getEpochPeerIndexMap mine.currentEpoch ∧
      ∃ data, mine.getSas (roster.identity j).peerId = some data ∧
        theirs.getSas (roster.identity roster.author).peerId = some data := by
  obtain ⟨ledger, kept⟩ := kept_reachable correct known reached
  have faithful := kept.faithful roster.author
  have member : roster.Known ⟨(roster.identity j).peerId, (roster.identity j).publicKey⟩ := ⟨j, rfl⟩
  obtain ⟨msgs, mine, rewraps, ⟨epochs, current, buffers⟩, -, -, again⟩ := alone_rewraps correct faithful member
  obtain ⟨msg, dhSecret, data, rfl, announces, shown, mySas⟩ := again (leading faithful) entry held
  have holds := faithful.holds _ entry held
  obtain ⟨data', shown', consumes⟩ :=
    alone_consumeEpochAnnouncement (r := a.clients j) correct announces member holds.derived
    announces.forPeer placed
  obtain rfl := Except.ok.inj (shown.symm.trans shown')
  refine ⟨msg, mine, _, rewraps, consumes, ?_, ?_, ?_, data, mySas, by simp [getSas, setSas]⟩
  · rw [current]
    exact install_currentEpoch _ _ _
  · rw [current]
    simp [getEpochChainKey, consumed, setSas, entryOf, epochs, held, buffers, store]
  · rw [current]
    simp [getEpochPeerIndexMap, consumed, setSas, entryOf, epochs, held]

theorem rewrap_reaches_member : ∃ (a : Assembly (Fin 2) Bytes) (msg : EpochAnnouncement)
    (mine theirs : RoomRatchet Bytes),
    Reachable duo (gather fun _ => []) a ∧
    alone (RoomRatchet.rewrapCurrentEpochFor RoomSpecimen.platform (duo.options 0)
      ⟨(duo.identity 1).peerId, (duo.identity 1).publicKey⟩) (a.clients 0) = some (.ok [msg], mine) ∧
    alone (RoomRatchet.consumeEpochAnnouncement RoomSpecimen.platform (duo.options 1) msg) (a.clients 1) =
      some (.ok (), theirs) ∧ theirs.getSas (duo.identity 0).peerId = mine.getSas (duo.identity 1).peerId := by
  obtain ⟨a, reached, held, current, -⟩ := duo_room
  obtain ⟨entry, own, map⟩ := Option.map_eq_some_iff.mp (held 0).2
  have placed : checkPeerIndexMap (duo.options 1) entry.peerIndexMap = .ok () := by
    rw [map]
    rfl
  have installed : (a.clients duo.author).epochs.get? (a.clients duo.author).currentEpoch = some entry := by
    change (a.clients 0).epochs.get? (a.clients 0).currentEpoch = some entry
    rw [current]
    exact own
  obtain ⟨msg, mine, theirs, rewraps, consumes, -, -, -, data, one, two⟩ :=
    rewrap_reaches RoomSpecimen.platform_correct (fun _ => nobody) reached installed placed
  exact ⟨a, msg, mine, theirs, reached, rewraps, consumes, two.trans one.symm⟩

end Rooms
end SFrameRatchet.Signalling
