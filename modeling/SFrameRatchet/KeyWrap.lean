import SFrameRatchet.Collections
import SFrameRatchet.Crypto
import SFrameRatchet.PeerIds

/-! Chain keys in transit and at rest: the wrapping of `ratchet-crypto.ts`, by
which a chain key reaches one recipient, and the table of bundles that every
member derives from it. X25519 and the runtime's random source are parameters;
a random value is named by how many were drawn before it. -/
namespace SFrameRatchet.KeyWrap
open BigEndian Collections Crypto JsObject Kid

/-- The runtime of a client. The library that computes X25519 may refuse a
public key, with a message of its own. -/
structure Platform (K : Type) where
  crypto : WebCrypto K
  publicKey : Bytes → Bytes
  sharedSecret : Bytes → Bytes → Except String Bytes
  secretKey : ℕ → Bytes
  randomValues : ℕ → ℕ → Bytes

/-- What is asked of a runtime: AES-GCM opens what it sealed, HKDF and the random
source give as many bytes as were asked for, and the two ends of an X25519
exchange compute one secret. -/
structure Platform.Correct {K : Type} (platform : Platform K) : Prop where
  aead : platform.crypto.Correct
  expands : ∀ material info length hash,
    (platform.crypto.hkdfExtractExpand material info length hash).length = length
  draws : ∀ drawn length, (platform.randomValues drawn length).length = length
  commutes : ∀ mine theirs, ∃ shared,
    platform.sharedSecret mine (platform.publicKey theirs) = .ok shared ∧
      platform.sharedSecret theirs (platform.publicKey mine) = .ok shared

def wrapIvBytes : ℕ := 12
def wrapKeyBytes : ℕ := 32

/-- The label of the wrap key for one version. -/
def infoWrap (version : ℤ) : Bytes := textEncode s!"oxpulse/sframe/v1/epoch-wrap/{version}"

section Wrap
variable {K : Type} (platform : Platform K)

def x25519Dh (privateKey peerPublicKey : Bytes) : Except JsError Bytes :=
  (platform.sharedSecret privateKey peerPublicKey).mapError fun original =>
    .error ("x25519Dh: WebCrypto X25519 unavailable and @noble/curves fallback failed. " ++
      "Ensure @noble/curves is installed (npm install @noble/curves). " ++ "Original error: " ++ original)

/-- The wrap key does not depend on the suite of the call. -/
def deriveWrapKey (shared : Bytes) (version : ℤ) : K :=
  platform.crypto.importAesKey
    (platform.crypto.hkdfExtractExpand shared (infoWrap version) wrapKeyBytes .sha256)

def wrapChainKey (chainKey : Bytes) (wrapKey : K) (iv : Bytes) : Except JsError Bytes :=
  match platform.crypto.encrypt wrapKey iv [] chainKey with
  | some ciphertext => .ok ciphertext
  | none => .error .operationError

def unwrapChainKey (ciphertext iv : Bytes) (wrapKey : K) : Except JsError Bytes :=
  match platform.crypto.decrypt wrapKey iv [] ciphertext with
  | some chainKey => .ok chainKey
  | none => .error .operationError

theorem unwrapChainKey_wrapped {chainKey iv ciphertext : Bytes} {wrapKey : K} (correct : platform.crypto.Correct)
    (wrapped : wrapChainKey platform chainKey wrapKey iv = .ok ciphertext) :
    unwrapChainKey platform ciphertext iv wrapKey = .ok chainKey := by
  unfold wrapChainKey at wrapped
  split at wrapped
  · rename_i sealed
    cases wrapped
    rw [unwrapChainKey, correct.opens sealed]
  · cases wrapped

end Wrap

/-! ## The table of an epoch -/

section Table
variable {K : Type} (crypto : WebCrypto K)

/-- What the derivation of a bundle refuses before it waits for anything. -/
def refusedAtOnce (chainKey : Bytes) (suite : CipherSuite) (peerIndex : ℤ) : Except JsError Unit := do
  if chainKey.length ≠ (suiteParams suite).chainKeyBytes then
    throw (.error (s!"ratchet: chain key must be {(suiteParams suite).chainKeyBytes} bytes for suite " ++
      s!"{suite.name}, got {chainKey.length}"))
  discard (peerIndexBe16 peerIndex)

/-- A bundle for every entry of the map. All derivations run at once, and the
first refusal in time is the one that is thrown. -/
def deriveEpochKeyTable (chainKey : Bytes) (epoch : ℤ) (peerIndexMap : PlainObject ℤ) (suite : CipherSuite)
    (kidCodec : KidCodec) : Except JsError (OrderedMap ℤ (RatchetKey K)) := do
  peerIndexMap.values.forM (refusedAtOnce chainKey suite)
  let keys ← peerIndexMap.values.mapM fun idx => deriveSenderKeys crypto chainKey epoch idx suite kidCodec
  return (peerIndexMap.values.zip keys).foldl (fun table entry => table.set entry.1 entry.2) ∅

theorem deriveSenderKeys_ok {chainKey : Bytes} {epoch peerIndex : ℤ} {suite : CipherSuite} {kidCodec : KidCodec} :
    (∃ key, deriveSenderKeys crypto chainKey epoch peerIndex suite kidCodec = .ok key) ↔
      chainKey.length = (suiteParams suite).chainKeyBytes ∧ (∃ bytes, peerIndexBe16 peerIndex = .ok bytes) ∧
        ∃ kid, kidCodec.encode epoch peerIndex = .ok kid := by
  unfold deriveSenderKeys
  by_cases sized : chainKey.length = (suiteParams suite).chainKeyBytes
  · cases index : peerIndexBe16 peerIndex with
    | error refused => simp [sized, hkdfInfo, index, Except.map, bind, Except.bind]
    | ok bytes =>
      cases kidCodec.encode epoch peerIndex with
      | error refused => simp [sized, hkdfInfo, index, Except.map, bind, Except.bind]
      | ok kid => simp [sized, hkdfInfo, index, Except.map, bind, Except.bind, pure, Except.pure]
  · simp [sized, throw, throwThe, MonadExceptOf.throw, bind, Except.bind]

/-- A bundle has the key identifier of its epoch and index. -/
theorem deriveSenderKeys_named {chainKey : Bytes} {epoch peerIndex : ℤ} {suite : CipherSuite} {kidCodec : KidCodec}
    {key : RatchetKey K} (derived : deriveSenderKeys crypto chainKey epoch peerIndex suite kidCodec = .ok key) :
    kidCodec.encode epoch peerIndex = .ok key.kid := by
  obtain ⟨sized, ⟨bytes, index⟩, kid, encoded⟩ := (deriveSenderKeys_ok crypto).mp ⟨key, derived⟩
  unfold deriveSenderKeys at derived
  simp only [sized, ne_eq, not_true_eq_false, ↓reduceIte, hkdfInfo, index, encoded, Except.map, bind, Except.bind, pure,
    Except.pure, Except.ok.injEq] at derived
  rw [encoded, ← derived]

theorem refusedAtOnce_ok {chainKey : Bytes} {suite : CipherSuite} {peerIndex : ℤ} {bytes : Bytes}
    (sized : chainKey.length = (suiteParams suite).chainKeyBytes) (index : peerIndexBe16 peerIndex = .ok bytes) :
    refusedAtOnce chainKey suite peerIndex = .ok () := by
  simp [refusedAtOnce, sized, index, discard, Functor.discard, Functor.mapConst, Except.map]

/-- There is a table when every entry has its bundle. -/
theorem deriveEpochKeyTable_ok {chainKey : Bytes} {epoch : ℤ} {peerIndexMap : PlainObject ℤ} {suite : CipherSuite}
    {kidCodec : KidCodec} :
    (∃ keys, deriveEpochKeyTable crypto chainKey epoch peerIndexMap suite kidCodec = .ok keys) ↔
      ∀ idx ∈ peerIndexMap.values, ∃ key, deriveSenderKeys crypto chainKey epoch idx suite kidCodec = .ok key := by
  have bundles {indices : List ℤ} :
      (∃ keys, indices.mapM (fun idx => deriveSenderKeys crypto chainKey epoch idx suite kidCodec) = .ok keys) ↔
        ∀ idx ∈ indices, ∃ key, deriveSenderKeys crypto chainKey epoch idx suite kidCodec = .ok key := by
    induction indices with
    | nil => simp [pure, Except.pure]
    | cons idx rest ih =>
      rw [List.forall_mem_cons, ← ih, List.mapM_cons]
      cases deriveSenderKeys crypto chainKey epoch idx suite kidCodec with
      | error refused => simp [bind, Except.bind]
      | ok key =>
        cases rest.mapM fun idx => deriveSenderKeys crypto chainKey epoch idx suite kidCodec with
        | error refused => simp [bind, Except.bind]
        | ok keys => simp [bind, Except.bind, pure, Except.pure]
  have atOnce {indices : List ℤ}
      (all : ∀ idx ∈ indices, ∃ key, deriveSenderKeys crypto chainKey epoch idx suite kidCodec = .ok key) :
      indices.forM (refusedAtOnce chainKey suite) = .ok () := by
    induction indices with
    | nil => rfl
    | cons idx rest ih =>
      obtain ⟨sized, ⟨bytes, index⟩, -⟩ := (deriveSenderKeys_ok crypto).mp (all idx List.mem_cons_self)
      have later := ih fun other member => all other (List.mem_cons_of_mem _ member)
      change (refusedAtOnce chainKey suite idx >>= fun _ => rest.forM (refusedAtOnce chainKey suite)) = .ok ()
      rw [refusedAtOnce_ok sized index, later]
      rfl
  unfold deriveEpochKeyTable
  rw [← bundles]
  constructor
  · rintro ⟨table, made⟩
    cases first : peerIndexMap.values.forM (refusedAtOnce chainKey suite) with
    | error refused => simp [first, bind, Except.bind] at made
    | ok _ =>
      cases derived : peerIndexMap.values.mapM fun idx =>
        deriveSenderKeys crypto chainKey epoch idx suite kidCodec with
      | error refused => simp [first, derived, bind, Except.bind] at made
      | ok keys => exact ⟨keys, rfl⟩
  · rintro ⟨keys, made⟩
    rw [atOnce (bundles.mp ⟨keys, made⟩), made]
    exact ⟨_, rfl⟩

/-- The table has exactly the bundles of the indices that the map lists. -/
theorem get?_deriveEpochKeyTable {chainKey : Bytes} {epoch : ℤ} {peerIndexMap : PlainObject ℤ} {suite : CipherSuite}
    {kidCodec : KidCodec} {table : OrderedMap ℤ (RatchetKey K)}
    (derived : deriveEpochKeyTable crypto chainKey epoch peerIndexMap suite kidCodec = .ok table) {idx : ℤ}
    {key : RatchetKey K} : table.get? idx = some key ↔
      idx ∈ peerIndexMap.values ∧ deriveSenderKeys crypto chainKey epoch idx suite kidCodec = .ok key := by
  unfold deriveEpochKeyTable at derived
  cases first : peerIndexMap.values.forM (refusedAtOnce chainKey suite) with
  | error refused => simp [first, bind, Except.bind] at derived
  | ok _ =>
    cases made : peerIndexMap.values.mapM fun idx => deriveSenderKeys crypto chainKey epoch idx suite kidCodec with
    | error refused => simp [first, made, bind, Except.bind] at derived
    | ok keys =>
      simp only [first, made, bind, Except.bind, pure, Except.pure, Except.ok.injEq] at derived
      subst derived
      have own {found : RatchetKey K}
          (held : ((peerIndexMap.values.zip keys).foldl (fun table entry => table.set entry.1 entry.2)
            (∅ : OrderedMap ℤ (RatchetKey K))).get? idx = some found) :
          idx ∈ peerIndexMap.values ∧ deriveSenderKeys crypto chainKey epoch idx suite kidCodec = .ok found := by
        rcases OrderedMap.foldl_set_found _ _ held with ⟨entry, member, rfl, rfl⟩ | never
        · exact ⟨(List.of_mem_zip member).1, mapM_zip made entry member⟩
        · cases never
      refine ⟨own, fun listed => ?_⟩
      have sized : peerIndexMap.values.length = keys.length := by
        have same := congrArg List.length (mapM_ok.mp made)
        simpa using same
      obtain ⟨place, within, rfl⟩ := List.mem_iff_getElem.mp listed.1
      have member : (peerIndexMap.values[place], keys[place]) ∈ peerIndexMap.values.zip keys :=
        List.mem_iff_getElem.mpr ⟨place, by simp [within, ← sized], by simp⟩
      have listed' : (((peerIndexMap.values.zip keys).foldl (fun table entry => table.set entry.1 entry.2)
          (∅ : OrderedMap ℤ (RatchetKey K))).get? peerIndexMap.values[place]).isSome :=
        OrderedMap.foldl_set_held Prod.fst Prod.snd (.inl ⟨_, member, rfl⟩)
      obtain ⟨found, held⟩ := Option.isSome_iff_exists.mp listed'
      rw [held, Except.ok.inj ((own held).2.symm.trans listed.2)]

end Table
end SFrameRatchet.KeyWrap
