import Mathlib.Data.Finset.Card
import SFrameRatchet.JsNumber
import SFrameRatchet.JsObject

/-! The peer index assignment of `ratchet-ids.ts`: the sorted peer ids of an
epoch, enumerated into an object, and the check that every recipient makes of
the object it is sent. -/
namespace SFrameRatchet.PeerIds
open Collections JsObject PlainObject

/-- The canonical assignment: sort and enumerate. -/
def buildPeerIndexMap (peerIds : List JsString) : PlainObject ℤ :=
  (sort peerIds).zipIdx.foldl (fun out entry => assign out entry.1 (entry.2 : ℤ)) ∅

inductive InvalidReason where
  | empty
  | duplicateIndex
  | gapOrOutOfRange
  | badValue
  deriving DecidableEq, Repr

/-- The reason as its source's string. -/
def InvalidReason.name : InvalidReason → String
  | empty => "empty"
  | duplicateIndex => "duplicate_index"
  | gapOrOutOfRange => "gap_or_out_of_range"
  | badValue => "bad_value"

inductive PeerIndexMapValidation where
  | valid
  | invalid (reason : InvalidReason)
  deriving DecidableEq, Repr

/-- The loop over the values, with those that were seen. -/
def scanValues (n : ℕ) (seen : List JsNumber) : List JsNumber → Except InvalidReason (List JsNumber)
  | [] => .ok seen
  | v :: rest =>
    if v.isInteger = false ∨ v.lt (.finite 0) = true ∨ JsNumber.le (.finite n) v = true then .error .badValue
    else if v ∈ seen then .error .duplicateIndex
    else scanValues n (v :: seen) rest

/-- An object may hold any number for a peer. -/
def validatePeerIndexMap (map : PlainObject JsNumber) : PeerIndexMapValidation :=
  if map.keys.length = 0 then .invalid .empty
  else match scanValues map.keys.length [] map.values with
    | .error reason => .invalid reason
    | .ok seen => if seen.length ≠ map.keys.length then .invalid .gapOrOutOfRange else .valid

/-! ## What the check accepts -/

/-- An index of a map with `n` keys. -/
def IsIndex (n : ℕ) (v : JsNumber) : Prop := ∃ i < n, v = .finite (i : ℕ)

theorem isIndex_iff {n : ℕ} {v : JsNumber} :
    IsIndex n v ↔ ¬ (v.isInteger = false ∨ v.lt (.finite 0) = true ∨ JsNumber.le (.finite n) v = true) := by
  rw [IsIndex, ← JsNumber.isInteger_below]
  simp

theorem scanValues_ok {n : ℕ} {seen final values : List JsNumber} :
    scanValues n seen values = .ok final ↔ final = values.reverse ++ seen ∧ values.Nodup ∧
      values.Disjoint seen ∧ ∀ v ∈ values, IsIndex n v := by
  induction values generalizing seen with
  | nil => simp [scanValues, eq_comm]
  | cons v rest ih =>
    unfold scanValues
    split
    · rename_i bad
      refine ⟨fun failed => (by cases failed), fun ⟨_, _, _, good⟩ => ?_⟩
      exact absurd bad (isIndex_iff.mp (good v List.mem_cons_self))
    · rename_i good
      rw [← isIndex_iff] at good
      split
      · rename_i repeated
        refine ⟨fun failed => (by cases failed), fun ⟨_, _, apart, _⟩ => ?_⟩
        exact absurd repeated (apart List.mem_cons_self)
      · rename_i fresh
        rw [ih]
        simp only [List.reverse_cons, List.append_assoc, List.singleton_append, List.nodup_cons,
          List.disjoint_cons_right, List.disjoint_cons_left, List.forall_mem_cons]
        constructor
        · rintro ⟨shape, nodup, ⟨absent, apart⟩, rest_good⟩
          exact ⟨shape, ⟨absent, nodup⟩, ⟨fresh, apart⟩, good, rest_good⟩
        · rintro ⟨shape, ⟨absent, nodup⟩, ⟨-, apart⟩, -, rest_good⟩
          exact ⟨shape, nodup, ⟨absent, apart⟩, rest_good⟩

theorem keys_length_eq {V : Type} (map : PlainObject V) : map.keys.length = map.values.length := by
  simp [OrderedMap.keys, OrderedMap.values]

/-- An object is valid when it is not empty and its values are distinct indices. -/
theorem validatePeerIndexMap_valid {map : PlainObject JsNumber} : validatePeerIndexMap map = .valid ↔
    map.values ≠ [] ∧ map.values.Nodup ∧ ∀ v ∈ map.values, IsIndex map.values.length v := by
  unfold validatePeerIndexMap
  rw [keys_length_eq]
  by_cases none : map.values = []
  · simp [none]
  · rw [if_neg (mt List.length_eq_zero_iff.mp none)]
    cases scanned : scanValues map.values.length [] map.values with
    | error reason =>
      simp only [reduceCtorEq, ne_eq, none, not_false_eq_true, true_and, false_iff]
      rintro ⟨nodup, good⟩
      rw [scanValues_ok.mpr ⟨rfl, nodup, List.disjoint_nil_right _, good⟩] at scanned
      cases scanned
    | ok seen =>
      obtain ⟨shape, nodup, -, good⟩ := scanValues_ok.mp scanned
      subst shape
      simpa [none, nodup] using good

theorem keys_map_get? {V : Type} (map : PlainObject V) : map.keys.map map.get? = map.values.map some := by
  simp only [OrderedMap.keys, OrderedMap.values, List.map_map]
  exact List.map_congr_left fun entry member => OrderedMap.mem_entries.mp member

/-- **What the check accepts**: the objects with at least one key whose values are in
bijection with the indices below the number of their keys. -/
theorem validatePeerIndexMap_iff (map : PlainObject JsNumber) : validatePeerIndexMap map = .valid ↔
    map.keys ≠ [] ∧ Set.BijOn map.get? {key | key ∈ map.keys}
      ((fun i : ℕ => some (.finite i)) '' Set.Iio map.keys.length) := by
  have listed := keys_map_get? map
  have sized := keys_length_eq map
  have empty : map.values = [] ↔ map.keys = [] := by
    rw [← List.length_eq_zero_iff, ← sized, List.length_eq_zero_iff]
  rw [validatePeerIndexMap_valid, ← sized, ne_eq, empty]
  refine and_congr_right fun _ => ⟨fun ⟨nodup, good⟩ => ?_, fun bijective => ⟨?_, fun v member => ?_⟩⟩
  · have maps : Set.MapsTo map.get? {key | key ∈ map.keys}
        ((fun i : ℕ => some (.finite i)) '' Set.Iio map.keys.length) := by
      intro key member
      have value : map.get? key ∈ map.values.map some := listed ▸ List.mem_map_of_mem member
      obtain ⟨v, held, same⟩ := List.mem_map.mp value
      obtain ⟨i, below, rfl⟩ := good v held
      exact ⟨i, below, same⟩
    have distinct : (map.keys.map map.get?).Nodup := listed ▸ nodup.map (Option.some_injective _)
    have injective : Set.InjOn map.get? {key | key ∈ map.keys} := fun _ one _ other same =>
      List.inj_on_of_nodup_map distinct one other same
    refine ⟨maps, injective, ?_⟩
    -- as many values as keys, so none of the indices is left out
    let indices := (Finset.range map.keys.length).image fun i : ℕ => some (JsNumber.finite i)
    have keys : map.keys.toFinset.card = map.keys.length := List.toFinset_card_of_nodup map.nodup
    have enough : indices.card ≤ map.keys.toFinset.card := Finset.card_image_le.trans (by rw [Finset.card_range, keys])
    have all := Finset.surjOn_of_injOn_of_card_le map.get? (by simpa [indices] using maps)
      (by simpa using injective) enough
    simpa [indices] using all
  · have distinct : (map.keys.map map.get?).Nodup :=
      map.nodup.map_on fun _ one _ other same => bijective.injOn one other same
    exact List.Nodup.of_map some (listed ▸ distinct)
  · obtain ⟨key, held⟩ := OrderedMap.mem_values.mp member
    obtain ⟨i, below, same⟩ := bijective.mapsTo (OrderedMap.mem_keys.mpr (by rw [held]; rfl))
    exact ⟨i, below, Option.some.inj (held.symm.trans same.symm)⟩

/-! ## The authored map -/

/-- Enumerating distinct names lists each of them once, but for the one whose
assignment is lost. -/
private theorem assignAll_perm {pairs : List (JsString × ℕ)} {obj : PlainObject ℤ}
    (nodup : (pairs.map Prod.fst).Nodup) (apart : (pairs.map Prod.fst).Disjoint obj.keys) :
    (pairs.foldl (fun out entry => assign out entry.1 (entry.2 : ℤ)) obj).entries.Perm
      ((pairs.filter (fun entry => entry.1 ≠ protoName)).map (fun entry => (entry.1, (entry.2 : ℤ))) ++
        obj.entries) := by
  induction pairs generalizing obj with
  | nil => simp
  | cons entry rest ih =>
    simp only [List.map_cons, List.nodup_cons, List.disjoint_cons_left] at nodup apart
    rw [List.foldl_cons]
    by_cases lost : entry.1 = protoName
    · have same : assign obj entry.1 (entry.2 : ℤ) = obj := by
        rw [lost]
        exact assign_proto (lost ▸ apart.1)
      rw [same, List.filter_cons_of_neg (by simp [lost])]
      exact ih nodup.2 apart.2
    · have listed : (assign obj entry.1 (entry.2 : ℤ)).entries.Perm ((entry.1, (entry.2 : ℤ)) :: obj.entries) :=
        assign_perm apart.1 lost
      rw [List.filter_cons_of_pos (by simpa using lost), List.map_cons]
      refine (ih nodup.2 ?_).trans ?_
      · have keys := listed.map Prod.fst
        intro key member held
        rcases List.mem_cons.mp (keys.mem_iff.mp held) with rfl | old
        · exact nodup.1 member
        · exact apart.2 member old
      · exact (listed.append_left _).trans List.perm_middle

/-- The index of a peer id is its place among the sorted ones. -/
theorem buildPeerIndexMap_perm {peerIds : List JsString} (distinct : peerIds.Nodup) :
    (buildPeerIndexMap peerIds).entries.Perm
      (((sort peerIds).zipIdx.filter (fun entry => entry.1 ≠ protoName)).map
        fun entry => (entry.1, (entry.2 : ℤ))) := by
  have sorted : ((sort peerIds).zipIdx.map Prod.fst).Nodup := by
    rw [List.zipIdx_map_fst]
    exact (sort_perm _).nodup_iff.mpr distinct
  have listed := @assignAll_perm _ (∅ : PlainObject ℤ) sorted (List.disjoint_nil_right _)
  rw [show (∅ : PlainObject ℤ).entries = [] from rfl, List.append_nil] at listed
  exact listed

/-- The places of the names that are listed. -/
def listedIndices (peerIds : List JsString) : List ℕ :=
  ((sort peerIds).zipIdx.filter fun entry => entry.1 ≠ protoName).map Prod.snd

theorem values_buildPeerIndexMap {peerIds : List JsString} (distinct : peerIds.Nodup) :
    (buildPeerIndexMap peerIds).values.Perm ((listedIndices peerIds).map Nat.cast) := by
  have listed := (buildPeerIndexMap_perm distinct).map Prod.snd
  rw [List.map_map] at listed
  rw [listedIndices, List.map_map]
  exact listed

/-- A peer finds a property under its own id; the one whose assignment is lost
finds the one that is inherited. -/
theorem get_buildPeerIndexMap {peerIds : List JsString} {peerId : JsString} (distinct : peerIds.Nodup)
    (member : peerId ∈ peerIds) : (buildPeerIndexMap peerIds).get peerId ≠ .undefined := by
  unfold PlainObject.get
  split
  · simp
  · rename_i absent
    split
    · simp
    · rename_i named
      exfalso
      have apart : peerId ≠ protoName := fun same => named (by rw [same]; decide)
      obtain ⟨index, place⟩ := List.mem_iff_getElem?.mp ((sort_perm _).mem_iff.mpr member)
      have entry : (peerId, index) ∈ (sort peerIds).zipIdx := List.mk_mem_zipIdx_iff_getElem?.mpr place
      have listed : (peerId, (index : ℤ)) ∈ (buildPeerIndexMap peerIds).entries :=
        (buildPeerIndexMap_perm distinct).mem_iff.mpr
          (List.mem_map.mpr ⟨_, List.mem_filter.mpr ⟨entry, by simpa using apart⟩, rfl⟩)
      have key : peerId ∈ (buildPeerIndexMap peerIds).keys := List.mem_map.mpr ⟨_, listed, rfl⟩
      rw [OrderedMap.mem_keys, absent] at key
      cases key

/-- All places are listed but that of the name whose assignment is lost. -/
private theorem listedIndices_split {peerIds before after : List JsString} (distinct : peerIds.Nodup)
    (split : sort peerIds = before ++ protoName :: after) :
    listedIndices peerIds = List.range' 0 before.length ++ List.range' (before.length + 1) after.length := by
  have kept {names : List JsString} (start : ℕ) (absent : protoName ∉ names) :
      ((names.zipIdx start).filter fun entry => entry.1 ≠ protoName).map Prod.snd =
        List.range' start names.length := by
    rw [List.filter_eq_self.mpr, List.zipIdx_map_snd]
    intro entry member
    have named := List.fst_mem_of_mem_zipIdx member
    simpa using fun same : entry.1 = protoName => absent (same ▸ named)
  have nodup : (before ++ protoName :: after).Nodup :=
    split ▸ (sort_perm _).nodup_iff.mpr distinct
  obtain ⟨-, tail, apart⟩ := List.nodup_append'.mp nodup
  rw [listedIndices, split, List.zipIdx_append, List.zipIdx_cons, List.filter_append,
    List.filter_cons_of_neg (by simp), List.map_append, kept 0 fun member => apart member List.mem_cons_self,
    Nat.zero_add, kept _ (List.nodup_cons.mp tail).1]

/-- No other name has its place after the one whose assignment is lost. -/
def LostIsLast (peerIds : List JsString) : Prop := protoName ∈ peerIds → ∀ other ∈ peerIds, other ≤ protoName

instance (peerIds : List JsString) : Decidable (LostIsLast peerIds) :=
  inferInstanceAs (Decidable (protoName ∈ peerIds → ∀ other ∈ peerIds, other ≤ protoName))

theorem lostIsLast_iff {peerIds before after : List JsString} (distinct : peerIds.Nodup)
    (split : sort peerIds = before ++ protoName :: after) : LostIsLast peerIds ↔ after = [] := by
  have sorted := sort_perm peerIds
  have order : (before ++ protoName :: after).Pairwise (· ≤ ·) := split ▸ sort_pairwise peerIds
  have nodup : (before ++ protoName :: after).Nodup := split ▸ sorted.nodup_iff.mpr distinct
  obtain ⟨-, tail, across⟩ := List.pairwise_append.mp order
  obtain ⟨-, tail_nodup, -⟩ := List.nodup_append'.mp nodup
  have mem {other : JsString} : other ∈ peerIds ↔ other ∈ before ∨ other = protoName ∨ other ∈ after := by
    rw [← sorted.mem_iff, split, List.mem_append, List.mem_cons]
  refine ⟨fun last => ?_, fun none _ other member => ?_⟩
  · by_contra some
    obtain ⟨other, member⟩ := List.exists_mem_of_ne_nil after some
    have below := (List.pairwise_cons.mp tail).1 other member
    have same := le_antisymm (last (mem.mpr (.inr (.inl rfl))) other (mem.mpr (.inr (.inr member)))) below
    exact (List.nodup_cons.mp tail_nodup).1 (same ▸ member)
  · rcases mem.mp member with earlier | rfl | later
    · exact across _ earlier _ List.mem_cons_self
    · exact le_rfl
    · rw [none] at later
      cases later

/-- Without a gap the indices are those of the names that are listed, in order. -/
theorem listedIndices_range {peerIds : List JsString} (distinct : peerIds.Nodup) (last : LostIsLast peerIds) :
    listedIndices peerIds = List.range (peerIds.filter (· ≠ protoName)).length := by
  have sorted := sort_perm peerIds
  rw [← (sorted.filter (· ≠ protoName)).length_eq, List.range_eq_range']
  by_cases named : protoName ∈ sort peerIds
  · obtain ⟨before, after, split⟩ := List.append_of_mem named
    obtain rfl := (lostIsLast_iff distinct split).mp last
    have absent : protoName ∉ before := fun member =>
      (List.nodup_append'.mp (split ▸ sorted.nodup_iff.mpr distinct)).2.2 member List.mem_cons_self
    have others : before.filter (· ≠ protoName) = before :=
      List.filter_eq_self.mpr fun other member => by simpa using fun same : other = protoName => absent (same ▸ member)
    rw [listedIndices_split distinct split, split, List.filter_append, others]
    simp
  · have entries : (sort peerIds).zipIdx.filter (fun entry => entry.1 ≠ protoName) = (sort peerIds).zipIdx := by
      refine List.filter_eq_self.mpr fun entry member => ?_
      have held := List.fst_mem_of_mem_zipIdx member
      simpa using fun same : entry.1 = protoName => named (same ▸ held)
    have names : (sort peerIds).filter (· ≠ protoName) = sort peerIds :=
      List.filter_eq_self.mpr fun other member => by simpa using fun same : other = protoName => named (same ▸ member)
    rw [listedIndices, entries, names, List.zipIdx_map_snd]

/-- Where a name follows the one that is lost, an index is as large as their number. -/
theorem listedIndices_gap {peerIds : List JsString} (distinct : peerIds.Nodup) (gap : ¬ LostIsLast peerIds) :
    (listedIndices peerIds).length ∈ listedIndices peerIds := by
  have named : protoName ∈ sort peerIds := by
    apply (sort_perm _).mem_iff.mpr
    by_contra absent
    exact gap fun named => absurd named absent
  obtain ⟨before, after, split⟩ := List.append_of_mem named
  have later : after ≠ [] := fun none => gap ((lostIsLast_iff distinct split).mpr none)
  have size := List.length_pos_iff.mpr later
  rw [listedIndices_split distinct split]
  refine List.mem_append_right _ (List.mem_range'_1.mpr ?_)
  simp only [List.length_append, List.length_range']
  omega

theorem listedIndices_nodup {peerIds : List JsString} : (listedIndices peerIds).Nodup := by
  have places : ((sort peerIds).zipIdx.map Prod.snd).Nodup := by
    rw [List.zipIdx_map_snd]
    exact List.nodup_range'
  exact places.sublist (List.filter_sublist.map Prod.snd)

/-- The map of an announcement, as a recipient reads it. -/
def asNumbers (map : PlainObject ℤ) : PlainObject JsNumber := map.mapValues fun _ index => .finite index

/-- Distinct natural indices are valid when each is below their number. -/
theorem validatePeerIndexMap_indices {map : PlainObject ℤ} {indices : List ℕ} (nodup : indices.Nodup)
    (listed : map.values.Perm (indices.map Nat.cast)) :
    validatePeerIndexMap (asNumbers map) = .valid ↔ indices ≠ [] ∧ ∀ index ∈ indices, index < indices.length := by
  have numbers : (asNumbers map).values.Perm (indices.map fun index : ℕ => JsNumber.finite (index : ℤ)) := by
    have cast := listed.map fun index : ℤ => JsNumber.finite index
    rw [List.map_map] at cast
    refine List.Perm.trans (List.Perm.of_eq ?_) cast
    simp [asNumbers, OrderedMap.mapValues, OrderedMap.values]
  rw [validatePeerIndexMap_valid, numbers.nodup_iff, numbers.length_eq, List.length_map]
  refine and_congr (not_congr ?_) ⟨fun held index member => ?_, fun small => ⟨?_, fun v member => ?_⟩⟩
  · rw [← List.length_eq_zero_iff, numbers.length_eq, List.length_map, List.length_eq_zero_iff]
  · obtain ⟨place, below, same⟩ := held.2 _ (numbers.mem_iff.mpr (List.mem_map.mpr ⟨index, member, rfl⟩))
    have equal : index = place := by exact_mod_cast JsNumber.finite_injective same
    rwa [equal]
  · exact nodup.map fun _ _ same => by exact_mod_cast JsNumber.finite_injective same
  · obtain ⟨index, held, rfl⟩ := List.mem_map.mp (numbers.mem_iff.mp member)
    exact ⟨index, small index held, by simp⟩

/-- The map made of distinct peer ids is valid when there is one to list and no
other has its place after the one that is lost. -/
theorem buildPeerIndexMap_valid {peerIds : List JsString} (distinct : peerIds.Nodup) :
    validatePeerIndexMap (asNumbers (buildPeerIndexMap peerIds)) = .valid ↔
      (∃ peerId ∈ peerIds, peerId ≠ protoName) ∧ LostIsLast peerIds := by
  rw [validatePeerIndexMap_indices listedIndices_nodup (values_buildPeerIndexMap distinct)]
  by_cases last : LostIsLast peerIds
  · rw [listedIndices_range distinct last]
    simp [last, List.range_eq_nil, List.filter_eq_nil_iff]
  · have large := listedIndices_gap distinct last
    refine ⟨fun ⟨_, small⟩ => absurd (small _ large) (lt_irrefl _), fun ⟨_, good⟩ => absurd good last⟩

end SFrameRatchet.PeerIds
