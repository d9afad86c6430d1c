import SFrameRatchet.ChatProvider
import SFrameRatchet.Histories

/-! The cache of derived keys over whole histories. The keys are stored by room and
sender, but the order of their eviction is kept under one joined string, which is
split again at the first separator. The two stay in step as long as joining and
splitting do not confuse two pairs. -/
namespace SFrameRatchet.Chat.KeyDerivationCache
open Collections

variable {K : Type}

/-- An operation on the cache. -/
inductive Operation (K : Type) where
  | get (roomId senderUid : String)
  | set (roomId senderUid : String) (value : DerivedKeys K)
  | evictRoom (roomId : String)

/-- The cache after an operation; a lookup leaves it alone. -/
def perform (self : KeyDerivationCache K) : Operation K → KeyDerivationCache K
  | .get .. => self
  | .set roomId senderUid value => self.set roomId senderUid value
  | .evictRoom roomId => self.evictRoom roomId

def performAll (operations : List (Operation K)) : KeyDerivationCache K := operations.foldl perform {}

/-- The value last set for a pair. -/
def lastSet (room uid : String) (last : Option (DerivedKeys K)) : Operation K → Option (DerivedKeys K)
  | .set roomId senderUid value => if room = roomId ∧ uid = senderUid then some value else last
  | _ => last

/-- The pairs with a cached entry. -/
def cachedPairs (self : KeyDerivationCache K) : List (String × String) :=
  self.cache.entries.flatMap fun entry => entry.2.keys.map fun uid => (entry.1, uid)

/-- The keys of the eviction order are those of the cached pairs, one for each, and
there are no more than the cache is for. -/
structure InStep (state : KeyDerivationCache K) : Prop where
  bounded : state.cachedPairs.length ≤ cacheMax
  oneToOne : (state.cachedPairs.map fun pair => cacheKey pair.1 pair.2).Perm state.lruOrder.keys

/-- No two pairs are confused by an operation: a pair that is set shares its joined
key with no other cached pair, and when another must go for it, the oldest key has
its first separator behind the room of its pair. -/
def Distinguishes (self : KeyDerivationCache K) : Operation K → Prop
  | .set roomId senderUid _ =>
    (∀ room uid, (self.get room uid).isSome → cacheKey room uid = cacheKey roomId senderUid →
      room = roomId ∧ uid = senderUid) ∧
    (self.get roomId senderUid = none → self.lruOrder.keys.length ≥ cacheMax →
      ∀ room uid, (self.get room uid).isSome → self.lruOrder.keys.head? = some (cacheKey room uid) →
        separator ∉ room.toList)
  | _ => True

/-! ## Joined keys -/

theorem cacheKey_toList (room uid : String) : (cacheKey room uid).toList = room.toList ++ separator :: uid.toList := by
  simp [cacheKey]

/-- A joined key splits into its parts when the room has no separator. -/
theorem splitCacheKey_cacheKey {room uid : String} (plain : separator ∉ room.toList) :
    splitCacheKey (cacheKey room uid) = (room, uid) := by
  have before : ∀ char ∈ room.toList, decide (char ≠ separator) = true := by
    intro char member
    exact decide_eq_true fun same => plain (same ▸ member)
  unfold splitCacheKey
  rw [cacheKey_toList, List.takeWhile_append_of_pos before, List.dropWhile_append_of_pos before]
  simp

/-- The room that a key is split into has no separator. -/
theorem splitCacheKey_plain (key : String) : separator ∉ (splitCacheKey key).1.toList := by
  intro member
  simp only [splitCacheKey, String.toList_ofList] at member
  simpa using List.mem_takeWhile_imp member

/-! ## Cached pairs and listed keys -/

theorem mem_cachedPairs {self : KeyDerivationCache K} {room uid : String} :
    (room, uid) ∈ self.cachedPairs ↔ (self.get room uid).isSome := by
  simp only [cachedPairs, List.mem_flatMap, List.mem_map, Prod.mk.injEq]
  constructor
  · rintro ⟨⟨room', roomMap⟩, member, uid', listed, rfl, rfl⟩
    rw [get, OrderedMap.mem_entries.mp member]
    exact OrderedMap.mem_keys.mp listed
  · intro found
    cases held : self.cache.get? room with
    | none => simp [get, held] at found
    | some roomMap =>
      refine ⟨(room, roomMap), OrderedMap.mem_entries.mpr held, uid, ?_, rfl, rfl⟩
      rw [get, held] at found
      exact OrderedMap.mem_keys.mpr found

theorem cachedPairs_nodup (self : KeyDerivationCache K) : self.cachedPairs.Nodup := by
  rw [cachedPairs, List.nodup_flatMap]
  constructor
  · intro entry _
    exact entry.2.nodup.map fun first second same => (Prod.mk.inj same).2
  · have rooms : self.cache.entries.Pairwise fun first second => first.1 ≠ second.1 :=
      List.pairwise_map.mp self.cache.nodup
    refine rooms.imp fun {first second} apart pair left right => ?_
    obtain ⟨_, _, rfl⟩ := List.mem_map.mp left
    obtain ⟨_, _, same⟩ := List.mem_map.mp right
    exact apart (Prod.mk.inj same).1.symm

/-- How the two parts of a cache correspond, by what they look up. -/
structure Corresponds (state : KeyDerivationCache K) : Prop where
  listed : ∀ room uid, (state.get room uid).isSome → state.lruOrder.has (cacheKey room uid) = true
  held : ∀ key, state.lruOrder.has key = true → ∃ room uid, (state.get room uid).isSome ∧ cacheKey room uid = key
  distinct : ∀ room uid room' uid', (state.get room uid).isSome → (state.get room' uid').isSome →
    cacheKey room uid = cacheKey room' uid' → room = room' ∧ uid = uid'

theorem oneToOne_iff {self : KeyDerivationCache K} :
    (self.cachedPairs.map fun pair => cacheKey pair.1 pair.2).Perm self.lruOrder.keys ↔ Corresponds self := by
  constructor
  · intro perm
    have nodup := perm.nodup_iff.mpr self.lruOrder.nodup
    refine ⟨fun room uid found => ?_, fun key there => ?_, fun room uid room' uid' found found' same => ?_⟩
    · exact OrderedMap.mem_keys.mp (perm.subset (List.mem_map.mpr ⟨_, mem_cachedPairs.mpr found, rfl⟩))
    · obtain ⟨⟨room, uid⟩, member, rfl⟩ := List.mem_map.mp (perm.symm.subset (OrderedMap.mem_keys.mpr there))
      exact ⟨room, uid, mem_cachedPairs.mp member, rfl⟩
    · have pairs := List.inj_on_of_nodup_map nodup (mem_cachedPairs.mpr found) (mem_cachedPairs.mpr found') same
      exact Prod.mk.inj pairs
  · intro same
    have nodup : (self.cachedPairs.map fun pair => cacheKey pair.1 pair.2).Nodup := by
      refine List.Nodup.map_on ?_ self.cachedPairs_nodup
      rintro ⟨room, uid⟩ member ⟨room', uid'⟩ member' equal
      obtain ⟨rooms, uids⟩ := same.distinct room uid room' uid' (mem_cachedPairs.mp member)
        (mem_cachedPairs.mp member') equal
      rw [rooms, uids]
    refine (List.perm_ext_iff_of_nodup nodup self.lruOrder.nodup).mpr fun key => ?_
    rw [List.mem_map]
    constructor
    · rintro ⟨⟨room, uid⟩, member, rfl⟩
      exact OrderedMap.mem_keys.mpr (same.listed room uid (mem_cachedPairs.mp member))
    · intro member
      obtain ⟨room, uid, found, rfl⟩ := same.held key (OrderedMap.mem_keys.mp member)
      exact ⟨(room, uid), mem_cachedPairs.mpr found, rfl⟩

/-! ## Setting an entry -/

/-- The cache in which an entry is set: without the oldest, when there is no room. -/
def roomFor (self : KeyDerivationCache K) (roomId senderUid : String) : KeyDerivationCache K :=
  if !self.lruOrder.has (cacheKey roomId senderUid) && decide
    (self.lruOrder.keys.length ≥ cacheMax) then self.evictOldest
  else self

section Steps
variable {self : KeyDerivationCache K} {roomId senderUid : String} {value : DerivedKeys K}

theorem get_set_eq (room uid : String) : (self.set roomId senderUid value).get room uid =
    if room = roomId ∧ uid = senderUid then some value else (self.roomFor roomId senderUid).get room uid := by
  have shape : (self.set roomId senderUid value).cache = (self.roomFor roomId senderUid).cache.set roomId
      ((((self.roomFor roomId senderUid).cache.get? roomId).getD ∅).set senderUid value) := rfl
  rw [get, shape, OrderedMap.get?_set]
  by_cases own : room = roomId
  · subst own
    simp only [↓reduceIte, Option.bind_some, OrderedMap.get?_set, true_and]
    split
    · rfl
    · rw [get]
      cases (self.roomFor room senderUid).cache.get? room <;> rfl
  · simp [own, get]

theorem has_set_eq (key : String) : (self.set roomId senderUid value).lruOrder.has key = true ↔
    key = cacheKey roomId senderUid ∨ (self.roomFor roomId senderUid).lruOrder.has key = true := by
  change (((self.roomFor roomId senderUid).lruOrder.delete (cacheKey roomId senderUid)).set _ _).has key = true ↔ _
  rw [OrderedMap.has_set, OrderedMap.has_delete]
  tauto

theorem lruOrder_evictOldest {oldest : String} (first : self.lruOrder.keys.head? = some oldest) :
    self.evictOldest.lruOrder = self.lruOrder.delete oldest := by
  unfold evictOldest
  split
  · rename_i empty
    simp [empty] at first
  · rename_i keys
    rw [keys, List.head?_cons, Option.some.injEq] at first
    subst first
    dsimp only
    split <;> rfl

/-- Making room takes the pair that the oldest key is split into. -/
theorem get_evictOldest_eq {oldest : String} (first : self.lruOrder.keys.head? = some oldest) (room uid : String) :
    self.evictOldest.get room uid = if (room, uid) = splitCacheKey oldest then none else self.get room uid := by
  unfold evictOldest
  split
  · rename_i empty
    simp [empty] at first
  · rename_i keys
    rw [keys, List.head?_cons, Option.some.injEq] at first
    subst first
    generalize splitCacheKey _ = pair
    obtain ⟨oldRoom, oldUid⟩ := pair
    simp only [Prod.mk.injEq]
    cases held : self.cache.get? oldRoom with
    | none =>
      change self.get room uid = _
      split
      · rename_i same
        rw [get, same.1, held]
        rfl
      · rfl
    | some roomMap =>
      dsimp only
      by_cases own : room = oldRoom
      · subst own
        simp only [get, held, true_and, Option.bind_some]
        by_cases last : (roomMap.delete oldUid).keys = []
        · have gone : (roomMap.delete oldUid).get? uid = none := by
            rw [← Option.not_isSome_iff_eq_none, ← OrderedMap.mem_keys, last]
            exact List.not_mem_nil
          rw [OrderedMap.get?_delete] at gone
          simp [last, gone]
        · simp [last]
      · simp only [get, own, false_and, ↓reduceIte]
        split <;> simp [own]

/-- Room is made only for a pair that the order does not list, when it is full. -/
theorem roomFor_cases (self : KeyDerivationCache K) (roomId senderUid : String) :
    (self.roomFor roomId senderUid = self ∧
        (self.lruOrder.has (cacheKey roomId senderUid) = true ∨ self.lruOrder.keys.length < cacheMax)) ∨
      ∃ oldest, self.lruOrder.keys.head? = some oldest ∧ self.roomFor roomId senderUid = self.evictOldest ∧
        self.lruOrder.has (cacheKey roomId senderUid) = false ∧ self.lruOrder.keys.length ≥ cacheMax := by
  unfold roomFor
  split
  · rename_i full
    simp only [Bool.and_eq_true, Bool.not_eq_eq_eq_not, Bool.not_true, decide_eq_true_eq] at full
    cases keys : self.lruOrder.keys with
    | nil => simp [keys, cacheMax] at full
    | cons oldest rest => exact .inr ⟨oldest, rfl, rfl, full.1, keys ▸ full.2⟩
  · rename_i enough
    refine .inl ⟨rfl, ?_⟩
    by_cases listed : self.lruOrder.has (cacheKey roomId senderUid) = true
    · exact .inl listed
    · exact .inr (by simpa [listed] using enough)

/-- Taking the oldest key together with its own pair keeps the rest in step. -/
theorem Corresponds.evictOldest (same : Corresponds self) {oldest : String}
    (first : self.lruOrder.keys.head? = some oldest)
    (plain : ∀ room uid, (self.get room uid).isSome → cacheKey room uid = oldest → separator ∉ room.toList) :
    Corresponds self.evictOldest := by
  have listed : self.lruOrder.has oldest = true := OrderedMap.mem_keys.mp (List.mem_of_head? first)
  obtain ⟨oldRoom, oldUid, found, rfl⟩ := same.held oldest listed
  have order := lruOrder_evictOldest first
  have cached (room uid : String) : (self.evictOldest.get room uid).isSome ↔
      ¬ (room = oldRoom ∧ uid = oldUid) ∧ (self.get room uid).isSome := by
    rw [get_evictOldest_eq first, splitCacheKey_cacheKey (plain oldRoom oldUid found rfl)]
    simp only [Prod.mk.injEq]
    split <;> simp [*]
  refine ⟨fun room uid there => ?_, fun key there => ?_, fun room uid room' uid' there there' => ?_⟩
  · obtain ⟨other, still⟩ := (cached room uid).mp there
    rw [order, OrderedMap.has_delete]
    exact ⟨fun equal => other (same.distinct room uid oldRoom oldUid still found equal), same.listed room uid still⟩
  · rw [order, OrderedMap.has_delete] at there
    obtain ⟨room, uid, still, rfl⟩ := same.held key there.2
    refine ⟨room, uid, (cached room uid).mpr ⟨?_, still⟩, rfl⟩
    rintro ⟨rfl, rfl⟩
    exact there.1 rfl
  · exact same.distinct room uid room' uid' ((cached room uid).mp there).2 ((cached room' uid').mp there').2

theorem Corresponds.set (same : Corresponds self) (apart : Distinguishes self (.set roomId senderUid value)) :
    Corresponds (self.set roomId senderUid value) := by
  obtain ⟨own, plain⟩ := apart
  -- the room is made in step, and the new key is not listed for another pair
  obtain ⟨kept, unlisted⟩ : Corresponds (self.roomFor roomId senderUid) ∧
      ∀ room uid, ((self.roomFor roomId senderUid).get room uid).isSome →
        cacheKey room uid = cacheKey roomId senderUid → room = roomId ∧ uid = senderUid := by
    rcases roomFor_cases self roomId senderUid with ⟨whole, -⟩ | ⟨oldest, first, made, absent, full⟩
    · rw [whole]
      exact ⟨same, own⟩
    · rw [made]
      have missing : self.get roomId senderUid = none := by
        by_contra there
        have listed := same.listed roomId senderUid (Option.isSome_iff_ne_none.mpr there)
        rw [absent] at listed
        cases listed
      refine ⟨same.evictOldest first fun room uid found joined => ?_, fun room uid found => ?_⟩
      · exact plain missing full room uid found (joined ▸ first)
      · rw [get_evictOldest_eq first] at found
        split at found
        · cases found
        · exact own room uid found
  refine ⟨fun room uid found => ?_, fun key there => ?_, fun room uid room' uid' found found' joined => ?_⟩
  · rw [has_set_eq]
    rw [get_set_eq] at found
    split at found
    · rename_i set
      exact .inl (by rw [set.1, set.2])
    · exact .inr (kept.listed room uid found)
  · rcases has_set_eq key |>.mp there with rfl | early
    · exact ⟨roomId, senderUid, by simp [get_set_eq], rfl⟩
    · obtain ⟨room, uid, found, rfl⟩ := kept.held key early
      refine ⟨room, uid, ?_, rfl⟩
      rw [get_set_eq]
      split
      · rfl
      · exact found
  · rw [get_set_eq] at found found'
    split at found <;> split at found' <;> rename_i one two
    · rw [one.1, one.2, two.1, two.2]
      exact ⟨rfl, rfl⟩
    · obtain ⟨rfl, rfl⟩ := one
      exact absurd (unlisted room' uid' found' joined.symm) two
    · obtain ⟨rfl, rfl⟩ := two
      exact absurd (unlisted room uid found joined) one
    · exact kept.distinct room uid room' uid' found found' joined

/-- When both caches are in step, the pairs were kept apart. -/
theorem Corresponds.distinguishes (before : Corresponds self) (after : Corresponds (self.set roomId senderUid value)) :
    Distinguishes self (.set roomId senderUid value) := by
  have own (room uid : String) (found : (self.get room uid).isSome)
      (joined : cacheKey room uid = cacheKey roomId senderUid) : room = roomId ∧ uid = senderUid := by
    by_contra other
    have whole : self.roomFor roomId senderUid = self := by
      rcases roomFor_cases self roomId senderUid with ⟨whole, -⟩ | ⟨oldest, first, made, absent, full⟩
      · exact whole
      · rw [← joined, before.listed room uid found] at absent
        cases absent
    refine other (after.distinct room uid roomId senderUid ?_ (by simp [get_set_eq]) joined)
    rw [get_set_eq, if_neg other, whole]
    exact found
  refine ⟨own, fun missing full room uid found first member => ?_⟩
  have absent : self.lruOrder.has (cacheKey roomId senderUid) = false := by
    by_contra there
    obtain ⟨room', uid', found', joined⟩ := before.held _ (by simpa using there)
    obtain ⟨rfl, rfl⟩ := own room' uid' found' joined
    simp [missing] at found'
  have made : self.roomFor roomId senderUid = self.evictOldest := by
    simp [roomFor, absent, full]
  have kept : ¬ (room = roomId ∧ uid = senderUid) := by
    rintro ⟨rfl, rfl⟩
    simp [missing] at found
  have spared : (room, uid) ≠ splitCacheKey (cacheKey room uid) := by
    intro same
    apply splitCacheKey_plain (cacheKey room uid)
    rw [← same]
    exact member
  -- the pair of the oldest key stays, but its key goes
  have listed := after.listed room uid (by
    rw [get_set_eq, if_neg kept, made, get_evictOldest_eq first, if_neg spared]
    exact found)
  rw [has_set_eq, made, lruOrder_evictOldest first, OrderedMap.has_delete] at listed
  rcases listed with joined | ⟨gone, -⟩
  · exact kept (own room uid found joined)
  · exact gone rfl

/-! ## Evicting a room -/

theorem has_foldl_delete (name : String → String) (uids : List String) (order : OrderedMap String String)
    (key : String) :
    (uids.foldl (fun order uid => order.delete (name uid)) order).has key = true ↔
      key ∉ uids.map name ∧ order.has key = true := by
  induction uids generalizing order with
  | nil => simp
  | cons uid rest ih =>
    rw [List.foldl_cons, ih, OrderedMap.has_delete, List.map_cons, List.mem_cons]
    tauto

/-- The keys of a room's pairs leave the order with the room. -/
theorem Corresponds.evictRoom (same : Corresponds self) (roomId : String) : Corresponds (self.evictRoom roomId) := by
  have cached (room uid : String) : ((self.evictRoom roomId).get room uid).isSome ↔
      room ≠ roomId ∧ (self.get room uid).isSome := by
    rw [get_evictRoom]
    split <;> simp [*]
  have order (key : String) : (self.evictRoom roomId).lruOrder.has key = true ↔
      (∀ uid, (self.get roomId uid).isSome → cacheKey roomId uid ≠ key) ∧ self.lruOrder.has key = true := by
    unfold KeyDerivationCache.evictRoom get
    cases held : self.cache.get? roomId with
    | none => simp
    | some roomMap => simp [has_foldl_delete, OrderedMap.mem_keys]
  refine ⟨fun room uid there => ?_, fun key there => ?_, fun room uid room' uid' there there' => ?_⟩
  · obtain ⟨other, found⟩ := (cached room uid).mp there
    refine (order _).mpr ⟨fun uid' found' joined => ?_, same.listed room uid found⟩
    exact other (same.distinct roomId uid' room uid found' found joined).1.symm
  · obtain ⟨spared, listed⟩ := (order key).mp there
    obtain ⟨room, uid, found, rfl⟩ := same.held key listed
    refine ⟨room, uid, (cached room uid).mpr ⟨?_, found⟩, rfl⟩
    rintro rfl
    exact spared uid found rfl
  · exact same.distinct room uid room' uid' ((cached room uid).mp there).2 ((cached room' uid').mp there').2

end Steps

/-! ## The bound -/

theorem keys_delete_le (order : OrderedMap String String) (key : String) :
    (order.delete key).keys.length ≤ order.keys.length := by
  simp only [OrderedMap.keys, List.length_map, OrderedMap.delete]
  exact List.length_filter_le _ _

theorem keys_delete_lt {order : OrderedMap String String} {key : String} (there : order.has key = true) :
    (order.delete key).keys.length < order.keys.length := by
  obtain ⟨entry, member, rfl⟩ := List.mem_map.mp (OrderedMap.mem_keys.mpr there)
  simp only [OrderedMap.keys, List.length_map, OrderedMap.delete]
  exact List.length_filter_lt_length_iff_exists.mpr ⟨entry, member, by simp⟩

theorem keys_set_le {self : KeyDerivationCache K} (bounded : self.lruOrder.keys.length ≤ cacheMax)
    (roomId senderUid : String) (value : DerivedKeys K) :
    (self.set roomId senderUid value).lruOrder.keys.length ≤ cacheMax := by
  have absent : ((self.roomFor roomId senderUid).lruOrder.delete (cacheKey roomId senderUid)).has
      (cacheKey roomId senderUid) = false := by
    simp [OrderedMap.has]
  change (((self.roomFor roomId senderUid).lruOrder.delete _).set _ _).keys.length ≤ _
  rw [OrderedMap.keys_set_absent absent]
  have fewer := keys_delete_le (self.roomFor roomId senderUid).lruOrder (cacheKey roomId senderUid)
  rcases roomFor_cases self roomId senderUid with ⟨whole, listed | short⟩ | ⟨oldest, first, made, -, -⟩
  · have less := keys_delete_lt listed
    rw [whole]
    omega
  · rw [whole] at fewer ⊢
    omega
  · have less := keys_delete_lt (OrderedMap.mem_keys.mp (List.mem_of_head? first))
    rw [made, lruOrder_evictOldest first] at fewer ⊢
    omega

theorem keys_evictRoom_le (self : KeyDerivationCache K) (roomId : String) :
    (self.evictRoom roomId).lruOrder.keys.length ≤ self.lruOrder.keys.length := by
  have fewer (uids : List String) (order : OrderedMap String String) :
      (uids.foldl (fun order uid => order.delete (cacheKey roomId uid)) order).keys.length ≤ order.keys.length := by
    induction uids generalizing order with
    | nil => exact le_rfl
    | cons uid rest ih => exact (ih _).trans (keys_delete_le order _)
  unfold evictRoom
  split
  · exact le_rfl
  · exact fewer _ _

/-! ## Histories -/

@[simp] theorem performAll_concat (earlier : List (Operation K)) (operation : Operation K) :
    performAll (earlier ++ [operation]) = (performAll earlier).perform operation := by
  simp [performAll]

/-- The order never lists more keys than the cache is for. -/
theorem lruOrder_bounded (operations : List (Operation K)) :
    (performAll operations).lruOrder.keys.length ≤ cacheMax := by
  induction operations using List.reverseRecOn with
  | nil => exact Nat.zero_le _
  | append_singleton earlier operation ih =>
    rw [performAll_concat]
    cases operation with
    | get => exact ih
    | set roomId senderUid value => exact keys_set_le ih roomId senderUid value
    | evictRoom roomId => exact (keys_evictRoom_le _ roomId).trans ih

theorem inStep_iff (operations : List (Operation K)) : (performAll operations).InStep ↔ Corresponds
    (performAll operations) := by
  constructor
  · intro step
    exact oneToOne_iff.mp step.oneToOne
  · intro same
    have perm := oneToOne_iff.mpr same
    refine ⟨?_, perm⟩
    have length := perm.length_eq
    rw [List.length_map] at length
    rw [length]
    exact lruOrder_bounded operations

/-- A lookup finds nothing, or the value that was last set for its pair. -/
theorem get_lastSet (operations : List (Operation K)) (room uid : String) :
    (performAll operations).get room uid = none ∨
    (performAll operations).get room uid = operations.foldl (lastSet room uid) none := by
  induction operations using List.reverseRecOn with
  | nil => exact .inl rfl
  | append_singleton earlier operation ih =>
    rw [performAll_concat, List.foldl_append, List.foldl_cons, List.foldl_nil]
    cases operation with
    | get => exact ih
    | evictRoom roomId =>
      simp only [perform, get_evictRoom, lastSet]
      split
      · exact .inl rfl
      · exact ih
    | set roomId senderUid value =>
      simp only [perform, get_set_eq, lastSet]
      split
      · exact .inr rfl
      · rcases roomFor_cases (performAll earlier) roomId senderUid with ⟨whole, -⟩ | ⟨oldest, first, made, -, -⟩
        · rw [whole]
          exact ih
        · rw [made, get_evictOldest_eq first]
          split
          · exact .inl rfl
          · exact ih

/-- What the cache is for, after every step of a history. -/
def Sound (operations : List (Operation K)) : Prop := ∀ earlier, earlier <+: operations →
  (performAll earlier).InStep ∧
  (∀ room uid, (performAll earlier).get room uid = none ∨
    (performAll earlier).get room uid = earlier.foldl (lastSet room uid) none) ∧
  ∀ roomId room uid, ((performAll earlier).evictRoom roomId).get room uid =
    if room = roomId then none else (performAll earlier).get room uid

/-- A step stays in step exactly when it confuses no two pairs. -/
theorem corresponds_step (self : KeyDerivationCache K) (operation : Operation K) (now : Corresponds self) :
    Corresponds (self.perform operation) ↔ Distinguishes self operation := by
  cases operation with
  | get => exact ⟨fun _ => trivial, fun _ => now⟩
  | evictRoom roomId => exact ⟨fun _ => trivial, fun _ => now.evictRoom roomId⟩
  | set roomId senderUid value => exact ⟨now.distinguishes, now.set⟩

theorem corresponds_empty : Corresponds ({} : KeyDerivationCache K) :=
  ⟨fun _ _ => nofun, fun _ => nofun, fun _ _ _ _ => nofun⟩

theorem sound_iff (operations : List (Operation K)) :
    Sound operations ↔ ∀ earlier, earlier <+: operations → Corresponds (performAll earlier) := by
  constructor
  · intro sound earlier within
    exact (inStep_iff earlier).mp (sound earlier within).1
  · intro same earlier within
    exact ⟨(inStep_iff earlier).mpr (same earlier within), get_lastSet earlier, get_evictRoom (performAll earlier)⟩

/-- **The cache of derived keys.** Through a history a cache is what it is for exactly
when no operation of the history confuses two pairs. -/
theorem sound_iff_distinguishes (operations : List (Operation K)) : Sound operations ↔
    ∀ earlier operation, earlier ++ [operation] <+: operations → Distinguishes (performAll earlier) operation :=
  (sound_iff operations).trans (Histories.holds_iff_safe corresponds_empty corresponds_step operations)

/-- Two entries under one joined key: the order lists one of them. -/
theorem joined_pairs_confused : ¬ Sound (K := Unit)
    [.set "a\x00b" "c" ⟨(), [], 0⟩, .set "a" "b\x00c" ⟨(), [], 0⟩] := by
  intro sound
  have lengths := (sound _ List.prefix_rfl).1.oneToOne.length_eq
  rw [List.length_map] at lengths
  revert lengths
  decide +kernel

/-- What is cached for a pair has been set for it. -/
theorem mem_of_get {operations : List (Operation K)} {room uid : String} {value : DerivedKeys K}
    (found : (performAll operations).get room uid = some value) : .set room uid value ∈ operations := by
  have last : operations.foldl (lastSet room uid) none = some value := by
    rcases get_lastSet operations room uid with missing | same
    · rw [missing] at found
      cases found
    · rw [← same, found]
  clear found
  induction operations using List.reverseRecOn with
  | nil => cases last
  | append_singleton earlier operation ih =>
    rw [List.foldl_append, List.foldl_cons, List.foldl_nil] at last
    apply List.mem_append.mpr
    cases operation with
    | get => exact .inl (ih last)
    | evictRoom => exact .inl (ih last)
    | set roomId senderUid value' =>
      change (if room = roomId ∧ uid = senderUid then some value' else earlier.foldl (lastSet room uid) none) =
        _ at last
      by_cases same : room = roomId ∧ uid = senderUid
      · rw [if_pos same, Option.some.injEq] at last
        rw [same.1, same.2, last]
        exact .inr List.mem_cons_self
      · rw [if_neg same] at last
        exact .inl (ih last)

/-- Rooms without a separator are never confused, whatever the senders are. -/
theorem sound_of_plain_rooms {operations : List (Operation K)}
    (plain : ∀ roomId senderUid value, .set roomId senderUid value ∈ operations → separator ∉ roomId.toList) :
    Sound operations := by
  refine (sound_iff operations).mpr (Histories.holds_of_safe corresponds_empty
    (fun self operation now => (corresponds_step self operation now).mpr) fun earlier operation within => ?_)
  cases operation with
  | get => trivial
  | evictRoom => trivial
  | set roomId senderUid value =>
    have cached (room uid : String) (found : ((performAll earlier).get room uid).isSome) : separator ∉ room.toList := by
      obtain ⟨value, held⟩ := Option.isSome_iff_exists.mp found
      exact plain room uid value (within.subset (List.mem_append_left _ (mem_of_get held)))
    refine ⟨fun room uid found joined => ?_, fun _ _ room uid found _ => cached room uid found⟩
    have own : separator ∉ roomId.toList :=
      plain roomId senderUid value (within.subset (List.mem_append_right _ List.mem_cons_self))
    have split := congrArg splitCacheKey joined
    rw [splitCacheKey_cacheKey (cached room uid found), splitCacheKey_cacheKey own] at split
    exact Prod.mk.inj split

end SFrameRatchet.Chat.KeyDerivationCache
