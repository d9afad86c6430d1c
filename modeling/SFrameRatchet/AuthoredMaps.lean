import Mathlib.Data.List.Dedup
import Mathlib.Data.List.Perm.Subperm
import SFrameRatchet.RoomRatchet

/-! The peer index map that an author makes of any list of members. The sorted ids
are enumerated as they are listed, so an id that is listed twice takes two places
and leaves one of them empty; the map passes its own check only when there is no
gap below the ids that it lists. -/
namespace SFrameRatchet.Room
open Collections JsObject PeerIds PlainObject RoomRatchet

/-- The map of a list is that of its set, and every recipient on the list takes it. -/
def Accepted (peerIds : List JsString) : Prop :=
  validatePeerIndexMap (asNumbers (buildPeerIndexMap peerIds)) = .valid ∧
  (∀ others : List JsString, others.Nodup → (∀ peerId, peerId ∈ others ↔ peerId ∈ peerIds) →
    buildPeerIndexMap peerIds = buildPeerIndexMap others) ∧
  ∀ recipient : RatchetOptions, recipient.identity.peerId ∈ peerIds →
    checkPeerIndexMap recipient (buildPeerIndexMap peerIds) = .ok ()

/-- Every id that can be listed is listed once, and no other has its place after
the one whose assignment is lost. -/
structure ListedOnce (peerIds : List JsString) : Prop where
  named : ∃ peerId ∈ peerIds, peerId ≠ protoName
  last : LostIsLast peerIds
  once : ∀ peerId ≠ protoName, peerIds.count peerId ≤ 1

/-! ## What the enumeration writes -/

/-- Enumerate names in their order. -/
def enumerate (names : List JsString) : PlainObject ℤ :=
  names.zipIdx.foldl (fun out entry => assign out entry.1 (entry.2 : ℤ)) ∅

theorem enumerate_concat (names : List JsString) (name : JsString) :
    enumerate (names ++ [name]) = assign (enumerate names) name (names.length : ℤ) := by
  simp [enumerate, List.zipIdx_append]

theorem get?_assign {obj : PlainObject ℤ} {key other : JsString} {value : ℤ} (apart : other ≠ protoName) :
    (assign obj key value).get? other = if other = key then some value else obj.get? other := by
  unfold assign
  split
  · rename_i lost
    rw [if_neg fun same => apart (same.trans lost.1)]
  · unfold define
    split
    · exact OrderedMap.get?_set obj key other value
    · rename_i absent
      have listed := List.perm_orderedInsert (fun entry next : JsString × ℤ =>
        Precedes entry.1 next.1) (key, value) obj.entries
      split
      · rename_i same
        subst same
        exact OrderedMap.mem_entries.mp (listed.mem_iff.mpr List.mem_cons_self)
      · rename_i different
        apply Option.ext
        intro found
        rw [← OrderedMap.mem_entries, ← OrderedMap.mem_entries]
        change (other, found) ∈ obj.entries.orderedInsert _ (key, value) ↔ _
        rw [listed.mem_iff, List.mem_cons]
        simp [different]

theorem has_proto_enumerate (names : List JsString) : protoName ∉ (enumerate names).keys := by
  induction names using List.reverseRecOn with
  | nil => exact List.not_mem_nil
  | append_singleton names name ih =>
    rw [enumerate_concat]
    unfold assign
    split
    · exact ih
    · rename_i kept
      have apart : name ≠ protoName := fun same => kept ⟨same, same ▸ ih⟩
      unfold define
      split
      · rw [OrderedMap.mem_keys, OrderedMap.get?_set, if_neg apart.symm, ← OrderedMap.mem_keys]
        exact ih
      · rename_i absent
        have listed := (List.perm_orderedInsert (fun entry next : JsString × ℤ => Precedes entry.1 next.1)
          (name, (names.length : ℤ)) (enumerate names).entries).map Prod.fst
        intro member
        rcases List.mem_cons.mp (listed.mem_iff.mp member) with same | early
        · exact apart same.symm
        · exact ih early

/-- A name that can be listed has the place where it was listed last. -/
theorem get?_enumerate {before after : List JsString} {name : JsString} (apart : name ≠ protoName)
    (absent : name ∉ after) : (enumerate (before ++ name :: after)).get? name = some (before.length : ℤ) := by
  induction after using List.reverseRecOn with
  | nil => rw [enumerate_concat, get?_assign apart, if_pos rfl]
  | append_singleton after other ih =>
    have different : name ≠ other := fun same => absent (List.mem_append_right _ (by simp [same]))
    rw [← List.cons_append, ← List.append_assoc, enumerate_concat, get?_assign apart, if_neg different]
    exact ih fun member => absent (List.mem_append_left _ member)

theorem mem_keys_enumerate {names : List JsString} {name : JsString} :
    name ∈ (enumerate names).keys ↔ name ∈ names ∧ name ≠ protoName := by
  by_cases apart : name = protoName
  · subst apart
    simp [has_proto_enumerate]
  · rw [OrderedMap.mem_keys]
    induction names using List.reverseRecOn with
    | nil => simp [enumerate]
    | append_singleton names other ih =>
      rw [enumerate_concat, get?_assign apart, List.mem_append, List.mem_singleton]
      split
      · rename_i same
        exact ⟨fun _ => ⟨.inr same, apart⟩, fun _ => rfl⟩
      · rename_i different
        simp [ih, different]

/-- No two names have one place. -/
theorem enumerate_apart {names : List JsString} {name other : JsString} {place : ℤ}
    (one : (enumerate names).get? name = some place) (two : (enumerate names).get? other = some place) :
    name = other := by
  have listed {name : JsString} {place : ℤ} (names : List JsString) (held : (enumerate names).get? name = some place) :
      name ≠ protoName := by
    rintro rfl
    exact has_proto_enumerate names (OrderedMap.mem_keys.mpr (Option.isSome_iff_exists.mpr ⟨place, held⟩))
  have below {name : JsString} {place : ℤ} (names : List JsString) (held : (enumerate names).get? name = some place) :
      place < names.length := by
    induction names using List.reverseRecOn with
    | nil => cases held
    | append_singleton names last ih =>
      have apart := listed _ held
      rw [enumerate_concat, get?_assign apart] at held
      rw [List.length_append, Nat.cast_add]
      split at held
      · obtain rfl := Option.some.inj held
        exact lt_add_one _
      · exact (ih held).trans (lt_add_one _)
  induction names using List.reverseRecOn with
  | nil => cases one
  | append_singleton names last ih =>
    have apart := listed _ one
    have apart' := listed _ two
    rw [enumerate_concat, get?_assign apart] at one
    rw [enumerate_concat, get?_assign apart'] at two
    split at one <;> split at two
    · rename_i same same'
      exact same.trans same'.symm
    · exact absurd (below names two) (by rw [← Option.some.inj one]; exact lt_irrefl _)
    · exact absurd (below names one) (by rw [← Option.some.inj two]; exact lt_irrefl _)
    · exact ih one two

/-- No two clients have one index in a map that an author makes. -/
theorem buildPeerIndexMap_apart {peerIds : List JsString} {peerId other : JsString} {peerIndex : ℤ}
    (one : (buildPeerIndexMap peerIds).get peerId = .own peerIndex)
    (two : (buildPeerIndexMap peerIds).get other = .own peerIndex) : peerId = other := by
  have first : (enumerate (sort peerIds)).get? peerId = some peerIndex := get_own.mp one
  have second : (enumerate (sort peerIds)).get? other = some peerIndex := get_own.mp two
  exact enumerate_apart first second

/-! ## Lists without a gap -/

/-- What is listed in the last place but for the name whose assignment is lost. -/
theorem split_last_listed {names : List JsString} (named : ∃ name ∈ names, name ≠ protoName) :
    ∃ before name after, names = before ++ name :: after ∧ name ≠ protoName ∧ ∀ other ∈ after, other = protoName := by
  induction names using List.reverseRecOn with
  | nil => simp at named
  | append_singleton names last ih =>
    by_cases lost : last = protoName
    · have early : ∃ name ∈ names, name ≠ protoName := by
        obtain ⟨name, member, apart⟩ := named
        rcases List.mem_append.mp member with early | same
        · exact ⟨name, early, apart⟩
        · exact absurd ((List.mem_singleton.mp same).trans lost) apart
      obtain ⟨before, name, after, rfl, apart, rest⟩ := ih early
      refine ⟨before, name, after ++ [last], by simp, apart, fun other member => ?_⟩
      rcases List.mem_append.mp member with within | same
      · exact rest other within
      · exact (List.mem_singleton.mp same).trans lost
    · exact ⟨names, last, [], rfl, lost, by simp⟩

/-- A map that passes the check was made of a list without a gap. -/
theorem listedOnce_of_valid {peerIds : List JsString}
    (valid : validatePeerIndexMap (asNumbers (buildPeerIndexMap peerIds)) = .valid) : ListedOnce peerIds := by
  obtain ⟨nonempty, -, small⟩ := validatePeerIndexMap_valid.mp valid
  have sorted := sort_perm peerIds
  have size : (asNumbers (buildPeerIndexMap peerIds)).values.length = (enumerate (sort peerIds)).keys.length := by
    simp [asNumbers, OrderedMap.mapValues, OrderedMap.values, OrderedMap.keys, buildPeerIndexMap, enumerate]
  have named : ∃ name ∈ sort peerIds, name ≠ protoName := by
    obtain ⟨key, member⟩ := List.exists_mem_of_length_pos (size ▸ List.length_pos_iff.mpr nonempty)
    exact ⟨key, mem_keys_enumerate.mp member⟩
  obtain ⟨before, name, after, split, apart, lost⟩ := split_last_listed named
  have order : (before ++ name :: after).Pairwise (· ≤ ·) := split ▸ sort_pairwise peerIds
  -- the last name has as many before it as there are keys, so all of them are its keys
  have place : before.length < (enumerate (sort peerIds)).keys.length := by
    have value : (enumerate (sort peerIds)).get? name = some (before.length : ℤ) := by
      rw [split]
      exact get?_enumerate apart fun member => apart (lost name member)
    have number : JsNumber.finite (before.length : ℤ) ∈ (asNumbers (buildPeerIndexMap peerIds)).values :=
      OrderedMap.mem_values.mpr ⟨name, by
        rw [asNumbers, OrderedMap.get?_mapValues, show (buildPeerIndexMap peerIds).get? name = _ from value]
        rfl⟩
    obtain ⟨place, below, same⟩ := small _ number
    have equal : before.length = place := by exact_mod_cast JsNumber.finite_injective same
    rwa [equal, ← size]
  have within : (enumerate (sort peerIds)).keys ⊆ before ++ [name] := by
    intro key member
    obtain ⟨held, other⟩ := mem_keys_enumerate.mp member
    rw [split, ← List.singleton_append, ← List.append_assoc] at held
    rcases List.mem_append.mp held with early | late
    · exact early
    · exact absurd (lost key late) other
  have all : (enumerate (sort peerIds)).keys.Perm (before ++ [name]) := by
    apply (List.Nodup.subperm (enumerate (sort peerIds)).nodup within).perm_of_length_le
    rw [List.length_append, List.length_singleton]
    exact place
  have distinct : (before ++ [name]).Nodup := all.nodup_iff.mp (enumerate (sort peerIds)).nodup
  have listed : ∀ peerId ∈ before ++ [name], peerId ≠ protoName := fun peerId member =>
    (mem_keys_enumerate.mp (all.mem_iff.mpr member)).2
  have parts : (before ++ [name] ++ after).Perm peerIds := by
    rw [List.append_assoc, List.singleton_append, ← split]
    exact sorted
  refine ⟨?_, fun held other member => ?_, fun peerId other => ?_⟩
  · exact ⟨name, parts.mem_iff.mp (by simp), apart⟩
  · rw [← parts.mem_iff, List.mem_append] at held member
    have behind : protoName ∈ after := held.resolve_left fun early => listed _ early rfl
    rcases member with early | late
    · rw [← List.singleton_append, ← List.append_assoc] at order
      exact (List.pairwise_append.mp order).2.2 other early protoName behind
    · exact le_of_eq (lost other late)
  · rw [← parts.count_eq, List.count_append, List.count_eq_zero.mpr fun member => other (lost peerId member)]
    exact List.nodup_iff_count_le_one.mp distinct peerId

theorem enumerate_lost (names : List JsString) (count : ℕ) :
    enumerate (names ++ List.replicate count protoName) = enumerate names := by
  induction count with
  | zero => simp
  | succ count ih =>
    rw [List.replicate_succ', ← List.append_assoc, enumerate_concat, ih]
    exact assign_proto (has_proto_enumerate names)

/-- Without a gap the map is that of the names that can be listed. -/
theorem ListedOnce.build_eq {peerIds : List JsString} (listed : ListedOnce peerIds) :
    buildPeerIndexMap peerIds = enumerate (sort (peerIds.filter (· ≠ protoName))) := by
  have others : peerIds.filter (fun peerId => !decide (peerId ≠ protoName)) =
      List.replicate (peerIds.count protoName) protoName := by
    simpa using List.filter_eq (l := peerIds) protoName
  have same : sort peerIds = sort (peerIds.filter (· ≠ protoName)) ++ List.replicate
    (peerIds.count protoName) protoName := by
    refine List.Perm.eq_of_pairwise' (sort_pairwise peerIds) ?_ ?_
    · refine List.pairwise_append.mpr ⟨sort_pairwise _, List.pairwise_replicate.mpr (.inr le_rfl), ?_⟩
      intro peerId early lost late
      obtain ⟨present, rfl⟩ := List.mem_replicate.mp late
      have member := (List.mem_filter.mp ((sort_perm _).mem_iff.mp early)).1
      exact listed.last (List.count_pos_iff.mp (Nat.pos_of_ne_zero present)) peerId member
    · have parts := List.filter_append_perm (fun peerId => decide (peerId ≠ protoName)) peerIds
      rw [others] at parts
      exact (sort_perm peerIds).trans (parts.symm.trans ((sort_perm _).symm.append_right _))
  change enumerate (sort peerIds) = _
  rw [same, enumerate_lost]

/-- Such a list is as good as any other of the same ids. -/
theorem ListedOnce.others {peerIds others : List JsString} (listed : ListedOnce peerIds) (nodup : others.Nodup)
    (same : ∀ peerId, peerId ∈ others ↔ peerId ∈ peerIds) :
    ListedOnce others ∧ buildPeerIndexMap peerIds = buildPeerIndexMap others := by
  have other : ListedOnce others := by
    refine ⟨?_, fun named peerId member => ?_, fun peerId _ => List.nodup_iff_count_le_one.mp nodup peerId⟩
    · obtain ⟨peerId, member, apart⟩ := listed.named
      exact ⟨peerId, (same peerId).mpr member, apart⟩
    · exact listed.last ((same protoName).mp named) peerId ((same peerId).mp member)
  refine ⟨other, ?_⟩
  have once : (peerIds.filter (· ≠ protoName)).Nodup := by
    refine List.nodup_iff_count_le_one.mpr fun peerId => ?_
    by_cases apart : peerId = protoName
    · rw [List.count_eq_zero.mpr fun member => by simp [apart] at member]
      exact Nat.zero_le 1
    · exact (List.Sublist.count_le peerId List.filter_sublist).trans (listed.once peerId apart)
  have perm : (peerIds.filter (· ≠ protoName)).Perm (others.filter (· ≠ protoName)) := by
    refine (List.perm_ext_iff_of_nodup once (nodup.filter _)).mpr fun peerId => ?_
    rw [List.mem_filter, List.mem_filter, same]
  rw [listed.build_eq, other.build_eq]
  congr 1
  exact List.Perm.eq_of_pairwise' (sort_pairwise _) (sort_pairwise _)
    ((sort_perm _).trans (perm.trans (sort_perm _).symm))

/-- **Authored maps.** The map made of an author and its members, in whatever way they
are listed, is the one of their set and is taken by every recipient exactly when each
id that can be listed is listed once, and none follows the one that is lost. -/
theorem authored_map_accepted_iff (author : JsString) (members : List PeerIdentity) :
    Accepted (author :: members.map PeerIdentity.peerId) ↔ ListedOnce (author :: members.map PeerIdentity.peerId) := by
  generalize author :: members.map PeerIdentity.peerId = peerIds
  refine ⟨fun accepted => listedOnce_of_valid accepted.1, fun listed => ?_⟩
  have nodup := List.nodup_dedup peerIds
  obtain ⟨distinct, same⟩ := listed.others nodup fun peerId => List.mem_dedup
  have valid : validatePeerIndexMap (asNumbers (buildPeerIndexMap peerIds)) = .valid := by
    rw [same, buildPeerIndexMap_valid nodup]
    exact ⟨distinct.named, distinct.last⟩
  refine ⟨valid, fun others once alike => (listed.others once alike).2, fun recipient member => ?_⟩
  have present := get_buildPeerIndexMap nodup (List.mem_dedup.mpr member)
  rw [← same] at present
  simp only [checkPeerIndexMap, valid, hasProperty_iff.mpr present, ↓reduceIte]

/-- An author that lists itself among the members leaves the first place empty. -/
theorem author_among_members_rejected :
    let author := utf16 ['a']
    let members : List PeerIdentity := [⟨utf16 ['a'], []⟩, ⟨utf16 ['b'], []⟩]
    ¬ Accepted (author :: members.map PeerIdentity.peerId) ∧
      validatePeerIndexMap (asNumbers (buildPeerIndexMap (author :: members.map PeerIdentity.peerId))) =
        .invalid .badValue := by
  intro author members
  have refused : validatePeerIndexMap (asNumbers (buildPeerIndexMap (author :: members.map PeerIdentity.peerId))) =
      .invalid .badValue := by
    decide +kernel
  refine ⟨fun accepted => ?_, refused⟩
  rw [accepted.1] at refused
  cases refused

end SFrameRatchet.Room
