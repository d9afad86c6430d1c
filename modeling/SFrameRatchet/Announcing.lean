import SFrameRatchet.RoomRatchet

/-! What an announcement carries from an author to a member: a chain key that the
member's private key unwraps, and the secret that both show to their users. -/
namespace SFrameRatchet.Announcing
open BigEndian Collections Throwing Crypto JsObject Kid KeyWrap PeerIds Sas Room RoomRatchet

variable {K : Type} (platform : Platform K)

/-- A client, whose public key belongs to its private key. -/
structure Client where
  identity : IdentityKeyPair
  ratchet : RoomRatchet K
  keyed : identity.publicKey = platform.publicKey identity.privateKey

/-- The announcement wraps the chain key of a draft for one peer, under a secret. -/
structure Announces (sender : JsString) (draft : EpochDraft) (peer : PeerIdentity) (msg : EpochAnnouncement)
    (dhSecret : Bytes) : Prop where
  version : msg.version = draft.version
  sender : msg.sender = sender
  forPeer : msg.forPeer = peer.peerId
  peerIndexMap : msg.peerIndexMap = draft.peerIndexMap
  wraps : ∃ ephemeral, msg.ephemeralPub = platform.publicKey ephemeral ∧
    x25519Dh platform ephemeral peer.publicKey = .ok dhSecret ∧
    wrapChainKey platform draft.minted (deriveWrapKey platform dhSecret draft.version) msg.iv = .ok msg.keyWrapped

variable {platform} {sender : JsString} {draft : EpochDraft} {peer : PeerIdentity} {msg : EpochAnnouncement}
  {dhSecret privateKey : Bytes}

/-- The owner of the public key finds the same secret and the same chain key. -/
theorem Announces.unwraps (announces : Announces platform sender draft peer msg dhSecret)
    (correct : platform.Correct) (keyed : peer.publicKey = platform.publicKey privateKey) :
    x25519Dh platform privateKey msg.ephemeralPub = .ok dhSecret ∧
      unwrapChainKey platform msg.keyWrapped msg.iv (deriveWrapKey platform dhSecret msg.version) =
        .ok draft.minted := by
  obtain ⟨ephemeral, sent, agreed, wrapped⟩ := announces.wraps
  obtain ⟨shared, mine, theirs⟩ := correct.commutes ephemeral privateKey
  have same : x25519Dh platform ephemeral peer.publicKey = .ok shared := by
    rw [keyed, x25519Dh, mine]
    rfl
  obtain rfl := Except.ok.inj (same.symm.trans agreed)
  refine ⟨by rw [sent, x25519Dh, theirs]; rfl, ?_⟩
  rw [announces.version]
  exact unwrapChainKey_wrapped platform correct.aead wrapped

/-- The string of a secret can always be shown. -/
theorem computeSas_correct (correct : platform.Correct) (dhSecret : Bytes) :
    ∃ data, computeSas platform.crypto dhSecret = .ok data :=
  computeSas_ok platform.crypto (correct.expands _ _ _ _)

/-! ## The methods with no other call in between -/

section Alone
variable {options : RatchetOptions} {r : RoomRatchet K}

theorem alone_wrapChainKeyForPeer (options : RatchetOptions) (correct : platform.Correct)
    (keyed : peer.publicKey = platform.publicKey privateKey)
    (held : r.chainKeys.read draft.chainKey = draft.minted) : ∃ msg dhSecret,
      alone (wrapChainKeyForPeer platform options peer draft) r = some (.ok (msg, dhSecret), r.draw.draw) ∧
        Announces platform options.identity.peerId draft peer msg dhSecret := by
  obtain ⟨shared, mine, -⟩ := correct.commutes (platform.secretKey r.drawn) privateKey
  have agreed : x25519Dh platform (platform.secretKey r.drawn) peer.publicKey = .ok shared := by
    rw [keyed, x25519Dh, mine]
    rfl
  obtain ⟨ciphertext, sealed⟩ := correct.aead.seals (deriveWrapKey platform shared draft.version)
    (platform.randomValues (r.drawn + 1) wrapIvBytes) [] draft.minted
  have wrapped : wrapChainKey platform draft.minted (deriveWrapKey platform shared draft.version)
      (platform.randomValues (r.drawn + 1) wrapIvBytes) = .ok ciphertext := by
    rw [wrapChainKey, sealed]
  let msg : EpochAnnouncement :=
    { version := draft.version, sender := options.identity.peerId, forPeer := peer.peerId, keyWrapped := ciphertext
      iv := platform.randomValues (r.drawn + 1) wrapIvBytes
      ephemeralPub := platform.publicKey (platform.secretKey r.drawn), peerIndexMap := draft.peerIndexMap }
  refine ⟨msg, shared, ?_, rfl, rfl, rfl, rfl, platform.secretKey r.drawn, rfl, agreed, wrapped⟩
  simp only [wrapChainKeyForPeer, alone_bind, alone_read, Option.bind_some, alone_update, alone_awaiting, agreed,
    alone_pause, draw, held, wrapped, alone_pure]
  rfl

theorem alone_installSas {site : Bool → RatchetSite} {peerId : JsString} {epoch : ℤ} {data : SasData}
    (shown : computeSas platform.crypto dhSecret = .ok data) :
    alone (installSas platform site peerId epoch dhSecret) r = some (.ok (), r.setSas peerId epoch data) := by
  simp only [installSas, alone_bind, alone_awaiting, shown, Option.bind_some, alone_update]

/-- The two ratchets have the same epochs. -/
def SameTable (r r' : RoomRatchet K) : Prop :=
  r'.epochs = r.epochs ∧ r'.currentEpoch = r.currentEpoch ∧ r'.chainKeys = r.chainKeys

/-- The loop over the members announces the draft to each of them in turn and
ends with a string for each. -/
theorem alone_announce (correct : platform.Correct) {members : List PeerIdentity}
    (keyed : ∀ peer ∈ members, ∃ privateKey, peer.publicKey = platform.publicKey privateKey)
    (others : ∀ peer ∈ members, peer.peerId ≠ options.identity.peerId)
    (distinct : (members.map PeerIdentity.peerId).Nodup)
    (held : r.chainKeys.read draft.chainKey = draft.minted) (out : List EpochAnnouncement) : ∃ msgs r',
      alone (announce platform options draft members out) r = some (.ok (out ++ msgs), r') ∧ SameTable r r' ∧
        List.Forall₂ (fun peer msg => ∃ dhSecret data,
          Announces platform options.identity.peerId draft peer msg dhSecret ∧
            computeSas platform.crypto dhSecret = .ok data ∧ r'.getSas peer.peerId = some data) members msgs ∧
        ∀ peerId ∉ members.map PeerIdentity.peerId, r'.getSas peerId = r.getSas peerId := by
  induction members generalizing out r with
  | nil => exact ⟨[], r, by simp [announce], ⟨rfl, rfl, rfl⟩, .nil, fun _ _ => rfl⟩
  | cons peer rest ih =>
    simp only [List.forall_mem_cons] at keyed others
    simp only [List.map_cons, List.nodup_cons] at distinct
    obtain ⟨⟨privateKey, own⟩, keyed⟩ := keyed
    obtain ⟨msg, dhSecret, wrapped, announces⟩ := alone_wrapChainKeyForPeer options correct own held
    obtain ⟨data, shown⟩ := computeSas_correct correct dhSecret
    obtain ⟨msgs, r', ran, table, each, kept⟩ := ih (r := r.draw.draw.setSas peer.peerId draft.version data) keyed
      others.2 distinct.2 held (out ++ [msg])
    refine ⟨msg :: msgs, r', ?_, table, .cons ⟨dhSecret, data, announces, shown, ?_⟩ each, fun peerId absent => ?_⟩
    · simp only [announce, others.1, ↓reduceIte, alone_bind, wrapped, Option.bind_some, alone_installSas shown, ran,
        List.append_assoc, List.singleton_append]
    · rw [kept _ distinct.1]
      simp [getSas, setSas]
    · simp only [List.map_cons, List.mem_cons, not_or] at absent
      rw [kept _ absent.2]
      simp [getSas, setSas, draw, absent.1]

theorem alone_installEpoch (own : draft.peerIndexMap.get options.identity.peerId ≠ .undefined) :
    alone (installEpoch platform options draft) r =
      some (match deriveEpochKeyTable platform.crypto (r.chainKeys.read draft.chainKey) draft.version
          draft.peerIndexMap options.suite options.kidCodec with
        | .ok keys => (.ok (), r.install draft.version
            { epoch := draft.version, chainKey := draft.chainKey, peerIndexMap := draft.peerIndexMap
              selfPeerIndex := draft.peerIndexMap.get options.identity.peerId, keys })
        | .error error => (.error error, r)) := by
  simp only [installEpoch, own, ↓reduceIte, alone_bind, alone_read, Option.bind_some, alone_awaiting]
  split
  · rename_i keys derived
    simp only [derived, alone_update]
  · rename_i error derived
    simp only [derived]

/-- What a recipient has checked lists it. -/
theorem checkPeerIndexMap_own {peerIndexMap : PlainObject ℤ}
    (checked : checkPeerIndexMap options peerIndexMap = .ok ()) :
    peerIndexMap.get options.identity.peerId ≠ .undefined := by
  unfold checkPeerIndexMap at checked
  split at checked
  · cases checked
  · split at checked
    · rename_i listed
      exact PlainObject.hasProperty_iff.mp listed
    · cases checked

end Alone
end SFrameRatchet.Announcing
