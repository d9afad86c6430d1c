import SFrameRatchet.AuthoredMaps
import SFrameRatchet.MlsKids

/-! The adapter of `mls/index.ts`, which takes the epoch of an MLS group to the frame
cryptor: the members become peer ids and the ids become indices, under a chain key
from the exporter. Each async function is what its promise settles to. -/
namespace SFrameRatchet.MlsRatchet
open Collections JsObject PlainObject PeerIds Crypto Kid MlsKids

/-- The part of `ts-mls` the adapter calls, over the states and the leaves of groups. -/
structure MlsLibrary (State Leaf Cs : Type) where
  epoch : State → ℕ
  exporterSecret : State → Bytes
  epochAuthenticator : State → Bytes
  getGroupMembers : State → List Leaf
  /-- The identity of a leaf with a basic credential. -/
  identity : Leaf → Option Bytes
  signaturePublicKey : Leaf → Bytes
  bytesToBase64 : Bytes → JsString
  mlsExporter : Bytes → String → Bytes → ℕ → Cs → Except JsError Bytes

def mlsExporterLabel : String := "sframe-ratchet/epoch"

def suiteByte : CipherSuite → UInt8
  | .aes128GcmSha256 => 4
  | .aes256GcmSha512 => 5

structure MlsEpochMaterial where
  epoch : ℤ
  peerIndexMap : PlainObject ℤ
  chainKey : Bytes
  epochAuthenticator : Bytes

/-- The guard against an epoch that key identifiers have no room for. -/
def guardEpoch (epoch : ℤ) (maxEpoch : JsNumber) : Except JsError Unit :=
  if maxEpoch.lt (.finite epoch) then
    .error (.rangeError (s!"deriveMlsEpochMaterial: MLS epoch {epoch} exceeds maxEpoch {maxEpoch.text} " ++
      "(KID format bit width). Use a larger nEpochBits or rotate the room."))
  else .ok ()

section Adapter
variable {State Leaf Cs : Type} (library : MlsLibrary State Leaf Cs)

def defaultCredentialToPeerId (leaf : Leaf) : JsString :=
  match library.identity leaf with
  | some identity => library.bytesToBase64 identity
  | none => library.bytesToBase64 (library.signaturePublicKey leaf)

def deriveMlsEpochMaterial (state : State) (cs : Cs) (suite : CipherSuite) (groupId : Bytes) (maxEpoch : JsNumber)
    (credentialToPeerId : Leaf → Except JsError JsString) : Except JsError MlsEpochMaterial := do
  let epoch := numberOf (library.epoch state)
  guardEpoch epoch maxEpoch
  let members := library.getGroupMembers state
  if members.length = 0 then throw (.error "deriveMlsEpochMaterial: MLS group has no members")
  let peerIds ← members.mapM credentialToPeerId
  let peerIndexMap := buildPeerIndexMap peerIds
  -- `validatePeerIndexMap` is called here, and what it returns is dropped
  let context := groupId ++ [suiteByte suite]
  let chainKey ← library.mlsExporter (library.exporterSecret state) mlsExporterLabel context
    (suiteParams suite).chainKeyBytes cs
  return { epoch, peerIndexMap, chainKey, epochAuthenticator := library.epochAuthenticator state }

structure MlsRatchetProviderOptions (Leaf : Type) where
  suite : CipherSuite
  groupId : Bytes
  maxEpoch : Option JsNumber := none
  nEpochBits : Option ℤ := none
  credentialToPeerId : Option (Leaf → Except JsError JsString) := none

structure MlsRatchetProvider (Leaf : Type) where
  suite : CipherSuite
  groupId : Bytes
  maxEpoch : JsNumber
  credentialToPeerId : Leaf → Except JsError JsString
  disposed : Bool := false

/-- `value << count`, on 32 bits and by the low five bits of the count. -/
def shiftLeft (value count : ℤ) : ℤ := (BitVec.ofInt 32 value <<< (count % 32).toNat).toInt

def createMlsRatchetProvider (opts : MlsRatchetProviderOptions Leaf) : MlsRatchetProvider Leaf where
  suite := opts.suite
  groupId := opts.groupId
  maxEpoch := opts.maxEpoch.getD (match opts.nEpochBits with
    | some nEpochBits => .finite (shiftLeft 1 nEpochBits - 1 : ℤ)
    | none => .finite 0xffff)
  credentialToPeerId := opts.credentialToPeerId.getD fun leaf => .ok (defaultCredentialToPeerId library leaf)

/-- Derive the material of an epoch and deliver it; the callbacks and the caller
see what was delivered. -/
def applyEpoch (provider : MlsRatchetProvider Leaf) (setEpoch : MlsEpochMaterial → Except JsError Unit) (state : State)
    (cs : Cs) : Except JsError MlsEpochMaterial := do
  if provider.disposed then throw (.error "MlsRatchetProvider: disposed")
  let material ← deriveMlsEpochMaterial library state cs provider.suite provider.groupId provider.maxEpoch
    provider.credentialToPeerId
  setEpoch material
  return material

end Adapter

/-! ## The bound on epochs -/

theorem guardEpoch_ok {epoch bound : ℤ} : guardEpoch epoch (.finite bound) = .ok () ↔ epoch ≤ bound := by
  unfold guardEpoch
  rw [JsNumber.lt_finite]
  by_cases within : epoch ≤ bound
  · have spared : ¬ (bound : ℚ) < (epoch : ℚ) := by exact_mod_cast not_lt.mpr within
    simp [spared, within]
  · have exceeded : (bound : ℚ) < (epoch : ℚ) := by exact_mod_cast not_le.mp within
    simp [exceeded, within]

theorem shiftLeft_one {count : ℤ} : shiftLeft 1 count = if count % 32 = 31 then -2 ^ 31 else 2 ^
    (count % 32).toNat := by
  have shifted : ∀ k < 32, (BitVec.ofInt 32 1 <<< k).toInt = if k = 31 then -2 ^ 31 else 2 ^ k := by decide
  have small : (count % 32).toNat < 32 := by omega
  rw [shiftLeft, shifted _ small]
  by_cases last : count % 32 = 31
  · rw [if_pos last, if_pos (by omega)]
  · rw [if_neg last, if_neg (by omega)]

section Bounds
variable {State Leaf Cs : Type} (library : MlsLibrary State Leaf Cs) {nEpochBits nIndexBits : ℤ}

/-- The epochs that the layout has room for. -/
theorem encodeMlsKid_epoch (valid : validateMlsBitRange nEpochBits nIndexBits = .ok ()) (epoch : ℕ) :
    (∃ kid, encodeMlsKid epoch 0 ⟨nEpochBits, nIndexBits, 0⟩ = .ok kid) ↔ (epoch : ℤ) ≤ 2 ^ nEpochBits.toNat - 1 := by
  have zero {bits : ℤ} : Fits bits 0 := ⟨le_rfl, by positivity⟩
  constructor
  · rintro ⟨kid, encoded⟩
    have fits := ((@encodeMlsKid_ok ⟨nEpochBits, nIndexBits, 0⟩ epoch 0 kid valid).mp encoded).1.1
    exact Int.le_sub_one_of_lt fits.2
  · intro small
    exact ⟨_, (@encodeMlsKid_ok ⟨nEpochBits, nIndexBits, 0⟩ epoch 0 _ valid).mpr
      ⟨⟨⟨Int.natCast_nonneg _, Int.lt_of_le_sub_one small⟩, zero, zero⟩, rfl⟩⟩

/-- **The bound on epochs.** A provider that is told the width of the epoch field lets
pass the epochs that the field can hold, up to a width of 30 bits. At 31 bits the bound
is negative and nothing passes; from 32 bits on it is that of a field 32 bits narrower. -/
theorem epoch_guard_agrees_iff (valid : validateMlsBitRange nEpochBits nIndexBits = .ok ())
    (opts : MlsRatchetProviderOptions Leaf) (unset : opts.maxEpoch = none) (told : opts.nEpochBits = some nEpochBits)
    (epoch : ℕ) (safe : epoch ≤ 2 ^ 53 - 1) :
    ((∃ kid, encodeMlsKid epoch 0 ⟨nEpochBits, nIndexBits, 0⟩ = .ok kid) ↔ (epoch : ℤ) ≤ 2 ^ nEpochBits.toNat - 1) ∧
    ((guardEpoch (numberOf epoch) (createMlsRatchetProvider library opts).maxEpoch = .ok () ↔
        (epoch : ℤ) ≤ 2 ^ nEpochBits.toNat - 1) ↔
      nEpochBits ≤ 30 ∨ nEpochBits = 31 ∧ 2 ^ 31 ≤ epoch ∨
        32 ≤ nEpochBits ∧ (epoch < 2 ^ (nEpochBits - 32).toNat ∨ 2 ^ nEpochBits.toNat ≤ epoch)) := by
  refine ⟨encodeMlsKid_epoch valid epoch, ?_⟩
  obtain ⟨low, positive, narrow⟩ := validateMlsBitRange_ok.mp valid
  have high : nEpochBits ≤ 62 := by omega
  clear positive narrow
  have bound : (createMlsRatchetProvider library opts).maxEpoch = .finite (shiftLeft 1 nEpochBits - 1 : ℤ) := by
    simp only [createMlsRatchetProvider, unset, told, Option.getD_none]
  rw [bound, guardEpoch_ok, numberOf_exact (Int.natCast_nonneg _) (by omega), shiftLeft_one]
  rcases lt_trichotomy nEpochBits 31 with narrow | rfl | wide
  · have same : nEpochBits % 32 = nEpochBits := by omega
    rw [same, if_neg (by omega)]
    exact ⟨fun _ => .inl (by omega), fun _ => Iff.rfl⟩
  · rw [if_pos (by norm_num), show (31 : ℤ).toNat = 31 from rfl]
    norm_num
    omega
  · have fewer : nEpochBits % 32 = nEpochBits - 32 := by omega
    have power : (2 : ℤ) ^ (nEpochBits - 32).toNat ≤ 2 ^ nEpochBits.toNat := pow_le_pow_right₀ (by norm_num) (by omega)
    rw [fewer, if_neg (by omega)]
    have first : epoch < 2 ^ (nEpochBits - 32).toNat ↔ (epoch : ℤ) < 2 ^ (nEpochBits - 32).toNat := by norm_cast
    have second : 2 ^ nEpochBits.toNat ≤ epoch ↔ (2 : ℤ) ^ nEpochBits.toNat ≤ epoch := by norm_cast
    rw [first, second]
    omega

end Bounds

/-! ## The indices of the members -/

/-- The call throws, or its map passes the check and gives each member an index that
no other member has. -/
def IndexedApart {Leaf : Type} (credentialToPeerId : Leaf → Except JsError JsString) (members : List Leaf) :
    Except JsError MlsEpochMaterial → Prop
  | .error _ => True
  | .ok material => validatePeerIndexMap (asNumbers material.peerIndexMap) = .valid ∧
    ∃ indices : List ℤ, indices.Nodup ∧
      members.map (fun leaf => (credentialToPeerId leaf).map material.peerIndexMap.get) =
        indices.map fun index => .ok (.own index)

/-- Every name is a property of its own, with an index that no other name has, in the map
of distinct names without the one whose assignment is lost; and only in such a map. -/
theorem buildPeerIndexMap_apart {peerIds : List JsString} (named : peerIds ≠ []) :
    (validatePeerIndexMap (asNumbers (buildPeerIndexMap peerIds)) = .valid ∧
      ∃ indices : List ℤ, indices.Nodup ∧ peerIds.map (buildPeerIndexMap peerIds).get = indices.map .own) ↔
      peerIds.Nodup ∧ protoName ∉ peerIds := by
  have listed {peerId : JsString} : peerId ∈ (buildPeerIndexMap peerIds).keys ↔ peerId ∈ peerIds ∧ peerId ≠ protoName :=
    Room.mem_keys_enumerate.trans (and_congr_left fun _ => (sort_perm peerIds).mem_iff)
  have own {peerId : JsString} {index : ℤ} :
      (buildPeerIndexMap peerIds).get peerId = .own index ↔ (buildPeerIndexMap peerIds).get? peerId = some index := by
    unfold PlainObject.get
    split
    · rename_i value found
      rw [found, Property.own.injEq, Option.some.injEq]
    · rename_i absent
      rw [absent]
      split <;> simp
  constructor
  · rintro ⟨-, indices, apart, assigned⟩
    have distinct : (peerIds.map (buildPeerIndexMap peerIds).get).Nodup :=
      assigned ▸ apart.map fun _ _ same => Property.own.inj same
    refine ⟨List.Nodup.of_map _ distinct, fun lost => ?_⟩
    obtain ⟨index, -, found⟩ := List.mem_map.mp (assigned ▸ List.mem_map_of_mem lost)
    have key := OrderedMap.mem_keys.mpr (by rw [own.mp found.symm]; rfl)
    exact (listed.mp key).2 rfl
  · rintro ⟨distinct, kept⟩
    obtain ⟨peerId, member⟩ := List.exists_mem_of_ne_nil _ named
    have apart {peerId : JsString} (member : peerId ∈ peerIds) : peerId ≠ protoName := fun same => kept (same ▸ member)
    have valid := (buildPeerIndexMap_valid distinct).mpr ⟨⟨peerId, member, apart member⟩, fun lost => absurd lost kept⟩
    have injective := ((validatePeerIndexMap_iff _).mp valid).2.injOn
    have held {peerId : JsString} (member : peerId ∈ peerIds) :
        ∃ index, (buildPeerIndexMap peerIds).get? peerId = some index :=
      Option.isSome_iff_exists.mp (OrderedMap.mem_keys.mp (listed.mpr ⟨member, apart member⟩))
    have key {peerId : JsString} (member : peerId ∈ peerIds) :
        peerId ∈ (asNumbers (buildPeerIndexMap peerIds)).keys := by
      obtain ⟨index, found⟩ := held member
      rw [OrderedMap.mem_keys, asNumbers, OrderedMap.get?_mapValues, found]
      rfl
    refine ⟨valid, peerIds.map fun peerId => ((buildPeerIndexMap peerIds).get? peerId).getD 0, ?_, ?_⟩
    · refine distinct.map_on fun peerId member other otherMember same => injective (key member) (key otherMember) ?_
      obtain ⟨index, found⟩ := held member
      obtain ⟨place, foundOther⟩ := held otherMember
      rw [found, foundOther, Option.getD_some, Option.getD_some] at same
      rw [asNumbers, OrderedMap.get?_mapValues, OrderedMap.get?_mapValues, found, foundOther, same]
    · rw [List.map_map]
      refine List.map_congr_left fun peerId member => ?_
      obtain ⟨index, found⟩ := held member
      rw [own.mpr found, Function.comp_apply, found, Option.getD_some]

/-- The peer ids of the members are told apart by an object literal. -/
def Distinguished {Leaf : Type} (credentialToPeerId : Leaf → Except JsError JsString) (members : List Leaf) : Prop :=
  ∃ peerIds : List JsString, members.map credentialToPeerId = peerIds.map .ok ∧ peerIds.Nodup ∧ protoName ∉ peerIds

section Members
variable {State Leaf Cs : Type} (library : MlsLibrary State Leaf Cs) (state : State) (cs : Cs) (suite : CipherSuite)
  (groupId : Bytes) (maxEpoch : JsNumber) (credentialToPeerId : Leaf → Except JsError JsString)

/-- The chain key of an epoch, if the exporter gives one. -/
def exported : Except JsError Bytes :=
  library.mlsExporter (library.exporterSecret state) mlsExporterLabel (groupId ++ [suiteByte suite])
    (suiteParams suite).chainKeyBytes cs

theorem deriveMlsEpochMaterial_ok {material : MlsEpochMaterial} :
    deriveMlsEpochMaterial library state cs suite groupId maxEpoch credentialToPeerId = .ok material ↔
      guardEpoch (numberOf (library.epoch state)) maxEpoch = .ok () ∧ library.getGroupMembers state ≠ [] ∧
      ∃ peerIds chainKey, (library.getGroupMembers state).map credentialToPeerId = peerIds.map .ok ∧
        exported library state cs suite groupId = .ok chainKey ∧
        material = ⟨numberOf (library.epoch state), buildPeerIndexMap peerIds, chainKey,
          library.epochAuthenticator state⟩ := by
  unfold deriveMlsEpochMaterial exported
  simp only [bind, Except.bind, pure, Except.pure, throw, throwThe, MonadExceptOf.throw, ← mapM_ok,
    List.length_eq_zero_iff]
  cases guardEpoch (numberOf (library.epoch state)) maxEpoch with
  | error refused => simp
  | ok _ =>
    by_cases none : library.getGroupMembers state = []
    · simp [none]
    · simp only [ne_eq, none, not_false_eq_true, true_and]
      cases (library.getGroupMembers state).mapM credentialToPeerId with
      | error refused => simp
      | ok peerIds =>
        cases library.mlsExporter (library.exporterSecret state) mlsExporterLabel (groupId ++ [suiteByte suite])
          (suiteParams suite).chainKeyBytes cs with
        | error refused => simp
        | ok chainKey => simp [eq_comm]

/-- What makes the call throw. -/
def Refuses : Prop :=
  (∃ refused, guardEpoch (numberOf (library.epoch state)) maxEpoch = .error refused) ∨
    library.getGroupMembers state = [] ∨
    (∃ leaf ∈ library.getGroupMembers state, ∃ refused, credentialToPeerId leaf = .error refused) ∨
    ∃ refused, exported library state cs suite groupId = .error refused

theorem deriveMlsEpochMaterial_error :
    (∃ refused, deriveMlsEpochMaterial library state cs suite groupId maxEpoch credentialToPeerId = .error refused) ↔
      Refuses library state cs suite groupId maxEpoch credentialToPeerId := by
  have thrown {α : Type} {outcome : Except JsError α} : (∃ refused, outcome = .error refused) ↔
    ¬ ∃ value, outcome = .ok value := by
    cases outcome <;> simp
  rw [Refuses, thrown, thrown, ← mapM_error, thrown, thrown]
  simp only [deriveMlsEpochMaterial_ok, ← mapM_ok]
  have guarded : (∃ value, guardEpoch (numberOf (library.epoch state)) maxEpoch = .ok value) ↔
      guardEpoch (numberOf (library.epoch state)) maxEpoch = .ok () :=
        ⟨fun ⟨_, passes⟩ => passes, fun passes => ⟨(), passes⟩⟩
  rw [guarded, ← not_and_or, ← not_not (a := library.getGroupMembers state = []), ← not_and_or,
    ← not_and_or, not_iff_not]
  constructor
  · rintro ⟨_, passes, some, peerIds, chainKey, named, key, rfl⟩
    exact ⟨passes, some, ⟨peerIds, named⟩, chainKey, key⟩
  · rintro ⟨passes, some, ⟨peerIds, named⟩, chainKey, key⟩
    exact ⟨_, passes, some, peerIds, chainKey, named, key, rfl⟩

/-- **Indices of their own.** Where the call does not throw, the members have indices of
their own exactly when their peer ids are distinct and none of them is `__proto__`. -/
theorem members_indexed_apart_iff :
    IndexedApart credentialToPeerId (library.getGroupMembers state)
        (deriveMlsEpochMaterial library state cs suite groupId maxEpoch credentialToPeerId) ↔
      Refuses library state cs suite groupId maxEpoch credentialToPeerId ∨
        Distinguished credentialToPeerId (library.getGroupMembers state) := by
  cases derived : deriveMlsEpochMaterial library state cs suite groupId maxEpoch credentialToPeerId with
  | error refused =>
    have refuses := (deriveMlsEpochMaterial_error library state cs suite groupId maxEpoch credentialToPeerId).mp
      ⟨refused, derived⟩
    exact ⟨fun _ => .inl refuses, fun _ => trivial⟩
  | ok material =>
    have settles : ¬ Refuses library state cs suite groupId maxEpoch credentialToPeerId := by
      rw [← deriveMlsEpochMaterial_error, derived]
      simp
    obtain ⟨-, some, peerIds, chainKey, named, -, rfl⟩ := (deriveMlsEpochMaterial_ok ..).mp derived
    have ids : peerIds ≠ [] := by
      rintro rfl
      exact some (List.map_eq_nil_iff.mp named)
    have indices (indices : List ℤ) :
        (library.getGroupMembers state).map (fun leaf =>
          (credentialToPeerId leaf).map (buildPeerIndexMap peerIds).get) =
          indices.map (fun index => .ok (.own index)) ↔
            peerIds.map (buildPeerIndexMap peerIds).get = indices.map .own := by
      have read : (library.getGroupMembers state).map (fun leaf =>
        (credentialToPeerId leaf).map (buildPeerIndexMap peerIds).get) =
          (peerIds.map (buildPeerIndexMap peerIds).get).map .ok := by
        have mapped := congrArg (List.map (Except.map (buildPeerIndexMap peerIds).get)) named
        simpa [List.map_map, Function.comp_def, Except.map] using mapped
      rw [read, show indices.map (fun index => (Except.ok (.own index) : Except JsError (Property ℤ))) =
        (indices.map Property.own).map .ok by simp]
      exact (List.map_injective_iff.mpr fun _ _ same => Except.ok.inj same).eq_iff
    have told : Distinguished credentialToPeerId (library.getGroupMembers state) ↔
      peerIds.Nodup ∧ protoName ∉ peerIds := by
      constructor
      · rintro ⟨others, same, distinct⟩
        obtain rfl := (List.map_injective_iff.mpr fun _ _ same => Except.ok.inj same) (named.symm.trans same)
        exact distinct
      · exact fun distinct => ⟨peerIds, named, distinct⟩
    simp only [IndexedApart, indices, settles, false_or, told]
    exact buildPeerIndexMap_apart ids

end Members

/-! ## Two devices of one user -/

section Checked

/-- A group whose two members have basic credentials with one identity. -/
def oneUser : MlsLibrary Unit (Fin 2) Unit where
  epoch _ := 0
  exporterSecret _ := []
  epochAuthenticator _ := []
  getGroupMembers _ := [0, 1]
  identity _ := some [7]
  signaturePublicKey _ := []
  bytesToBase64 _ := utf16 ['B', 'w', '=', '=']
  mlsExporter _ _ _ length _ := .ok (List.replicate length 0)

/-- Both members get the second index, and the map that fails its check is returned. -/
theorem members_share_index : ¬ ∀ (library : MlsLibrary Unit (Fin 2) Unit)
    (credentialToPeerId : Fin 2 → Except JsError JsString),
    IndexedApart credentialToPeerId (library.getGroupMembers ())
      (deriveMlsEpochMaterial library () () defaultCipherSuite [] (.finite 0xffff) credentialToPeerId) := by
  intro apart
  have both := apart oneUser fun leaf => .ok (defaultCredentialToPeerId oneUser leaf)
  have checked : (deriveMlsEpochMaterial oneUser () () defaultCipherSuite [] (.finite 0xffff) fun leaf =>
      .ok (defaultCredentialToPeerId oneUser leaf)).map (fun material =>
        validatePeerIndexMap (asNumbers material.peerIndexMap)) =
      .ok (.invalid .badValue) := by decide +kernel
  cases derived : deriveMlsEpochMaterial oneUser () () defaultCipherSuite [] (.finite 0xffff) fun leaf =>
      .ok (defaultCredentialToPeerId oneUser leaf) with
  | error refused => simp [derived, Except.map] at checked
  | ok material =>
    rw [derived] at both checked
    cases both.1.symm.trans (Except.ok.inj checked)

/-- No epoch passes at a width of 31 bits. -/
theorem wide_epochs_refused : ¬ ∀ nEpochBits nIndexBits, validateMlsBitRange nEpochBits nIndexBits = .ok () →
    ∀ epoch : ℕ, epoch ≤ 2 ^ 53 - 1 → (guardEpoch (numberOf epoch) (createMlsRatchetProvider oneUser
      { suite := defaultCipherSuite, groupId := [], nEpochBits := some nEpochBits }).maxEpoch = .ok () ↔
        (epoch : ℤ) ≤ 2 ^ nEpochBits.toNat - 1) := by
  intro agrees
  have passes := (agrees 31 8 rfl 0 (by norm_num)).mpr (by decide)
  cases passes

theorem epoch_guard_agrees_iff_default :
    ((∃ kid, encodeMlsKid (65535 : ℕ) 0 ⟨16, 8, 0⟩ = .ok kid) ↔ ((65535 : ℕ) : ℤ) ≤ 2 ^ (16 : ℤ).toNat - 1) ∧
    ((guardEpoch (numberOf (65535 : ℕ)) (createMlsRatchetProvider oneUser
        { suite := defaultCipherSuite, groupId := [], nEpochBits := some 16 }).maxEpoch = .ok () ↔
        ((65535 : ℕ) : ℤ) ≤ 2 ^ (16 : ℤ).toNat - 1) ↔
      (16 : ℤ) ≤ 30 ∨ (16 : ℤ) = 31 ∧ 2 ^ 31 ≤ 65535 ∨
        (32 : ℤ) ≤ 16 ∧ (65535 < 2 ^ ((16 : ℤ) - 32).toNat ∨ 2 ^ (16 : ℤ).toNat ≤ 65535)) :=
  @epoch_guard_agrees_iff _ _ _ oneUser 16 8 rfl _ rfl rfl 65535 (by norm_num)

end Checked
end SFrameRatchet.MlsRatchet
