import Mathlib.Data.List.Basic
import Mathlib.Logic.Function.Basic

/-! The collections of an object-oriented scripting runtime. A map iterates in
insertion order and keeps one entry per key; overwriting a key keeps its place.
A heap gives objects an identity, so that two holders of one reference see each
other's writes after the table that named the object has forgotten it. -/
namespace SFrameRatchet.Collections

/-- An insertion-ordered map with one entry for each key. -/
structure OrderedMap (K : Type u) (V : Type v) where
  entries : List (K × V)
  nodup : (entries.map Prod.fst).Nodup

namespace OrderedMap
variable {K : Type u} {V : Type v} [DecidableEq K]

def lookup (key : K) : List (K × V) → Option V
  | [] => none
  | entry :: rest => if entry.1 = key then some entry.2 else lookup key rest

/-- Overwrite in place, or append a new key at the end. -/
def store (key : K) (value : V) : List (K × V) → List (K × V)
  | [] => [(key, value)]
  | entry :: rest => if entry.1 = key then (key, value) :: rest else entry :: store key value rest

theorem mem_store_keys {key other : K} {value : V} {entries : List (K × V)} :
    other ∈ (store key value entries).map Prod.fst ↔
      other = key ∨ other ∈ entries.map Prod.fst := by
  induction entries with
  | nil => simp [store]
  | cons entry rest ih =>
    by_cases same : entry.1 = key
    · simp [store, same]
    · simp only [store, same, ↓reduceIte, List.map_cons, List.mem_cons, ih]
      exact or_left_comm

theorem store_nodup {key : K} {value : V} {entries : List (K × V)}
    (nodup : (entries.map Prod.fst).Nodup) : ((store key value entries).map Prod.fst).Nodup := by
  induction entries with
  | nil => simp [store]
  | cons entry rest ih =>
    obtain ⟨absent, tail⟩ := List.nodup_cons.mp nodup
    by_cases same : entry.1 = key
    · simpa [store, same] using nodup
    · simp only [store, same, ↓reduceIte, List.map_cons, List.nodup_cons]
      refine ⟨fun member => ?_, ih tail⟩
      rcases mem_store_keys.mp member with equal | held
      · exact same equal
      · exact absent held

theorem lookup_store (key other : K) (value : V) (entries : List (K × V)) :
    lookup other (store key value entries) =
      if other = key then some value else lookup other entries := by
  induction entries with
  | nil => simp [store, lookup, eq_comm]
  | cons entry rest ih =>
    by_cases same : entry.1 = key
    · by_cases wanted : other = key
      · simp [store, lookup, same, wanted]
      · simp [store, lookup, same, wanted, Ne.symm wanted]
    · simp only [store, same, ↓reduceIte, lookup, ih]
      by_cases wanted : other = key
      · subst wanted; simp [same]
      · simp [wanted]

theorem lookup_filter (key other : K) (entries : List (K × V)) :
    lookup other (entries.filter fun entry => entry.1 ≠ key) =
      if other = key then none else lookup other entries := by
  induction entries with
  | nil => simp [lookup]
  | cons entry rest ih =>
    by_cases same : entry.1 = key
    · rw [List.filter_cons_of_neg (by simp [same]), ih]
      by_cases wanted : other = key
      · simp [wanted]
      · simp [lookup, wanted, same, Ne.symm wanted]
    · rw [List.filter_cons_of_pos (by simp [same])]
      simp only [lookup, ih]
      by_cases wanted : other = key
      · subst wanted; simp [same]
      · simp [wanted]

theorem lookup_isSome {key : K} {entries : List (K × V)} :
    (lookup key entries).isSome ↔ key ∈ entries.map Prod.fst := by
  induction entries with
  | nil => simp [lookup]
  | cons entry rest ih =>
    by_cases same : entry.1 = key
    · simp [lookup, same]
    · simp [lookup, same, ih, Ne.symm same]

theorem mem_of_lookup {key : K} {value : V} {entries : List (K × V)} (found : lookup key entries = some value) :
    (key, value) ∈ entries := by
  induction entries with
  | nil => cases found
  | cons entry rest ih =>
    by_cases same : entry.1 = key
    · simp only [lookup, same, ↓reduceIte, Option.some.injEq] at found
      subst same found
      exact List.mem_cons_self
    · simp only [lookup, same, ↓reduceIte] at found
      exact List.mem_cons_of_mem _ (ih found)

theorem lookup_of_mem {key : K} {value : V} {entries : List (K × V)} (nodup : (entries.map Prod.fst).Nodup)
    (member : (key, value) ∈ entries) : lookup key entries = some value := by
  induction entries with
  | nil => cases member
  | cons entry rest ih =>
    obtain ⟨absent, tail⟩ := List.nodup_cons.mp nodup
    rcases List.mem_cons.mp member with rfl | later
    · simp [lookup]
    · have apart : entry.1 ≠ key := fun same => absent (List.mem_map.mpr ⟨_, later, same.symm⟩)
      simp only [lookup, apart, ↓reduceIte]
      exact ih tail later

def empty : OrderedMap K V := ⟨[], by simp⟩

instance : EmptyCollection (OrderedMap K V) := ⟨empty⟩
instance : Inhabited (OrderedMap K V) := ⟨∅⟩

def get? (map : OrderedMap K V) (key : K) : Option V := lookup key map.entries

def has (map : OrderedMap K V) (key : K) : Bool := (map.get? key).isSome

def set (map : OrderedMap K V) (key : K) (value : V) : OrderedMap K V :=
  ⟨store key value map.entries, store_nodup map.nodup⟩

def delete (map : OrderedMap K V) (key : K) : OrderedMap K V :=
  ⟨map.entries.filter fun entry => entry.1 ≠ key,
    map.nodup.sublist (List.filter_sublist.map Prod.fst)⟩

def keys (map : OrderedMap K V) : List K := map.entries.map Prod.fst

def values (map : OrderedMap K V) : List V := map.entries.map Prod.snd

/-- The same keys in the same places, with the values rewritten. -/
def mapValues {W : Type w} (map : OrderedMap K V) (f : K → V → W) : OrderedMap K W :=
  ⟨map.entries.map fun entry => (entry.1, f entry.1 entry.2), by
    simpa [Function.comp_def] using map.nodup⟩

@[simp] theorem get?_empty (key : K) : (∅ : OrderedMap K V).get? key = none := rfl

@[simp] theorem get?_set (map : OrderedMap K V) (key other : K) (value : V) :
    (map.set key value).get? other = if other = key then some value else map.get? other :=
  lookup_store key other value map.entries

@[simp] theorem get?_delete (map : OrderedMap K V) (key other : K) :
    (map.delete key).get? other = if other = key then none else map.get? other :=
  lookup_filter key other map.entries

@[simp] theorem get?_mapValues {W : Type w} (map : OrderedMap K V) (f : K → V → W) (key : K) :
    (map.mapValues f).get? key = (map.get? key).map (f key) := by
  change lookup key (map.entries.map fun entry => (entry.1, f entry.1 entry.2)) =
    (lookup key map.entries).map (f key)
  induction map.entries with
  | nil => rfl
  | cons entry rest ih =>
    by_cases same : entry.1 = key
    · simp [lookup, same]
    · simp only [List.map_cons, lookup, same, ↓reduceIte, ih]

/-- A new key goes to the end. -/
theorem store_absent {key : K} {value : V} {entries : List (K × V)} (absent : key ∉ entries.map Prod.fst) :
    store key value entries = entries ++ [(key, value)] := by
  induction entries with
  | nil => rfl
  | cons entry rest ih =>
    simp only [List.map_cons, List.mem_cons, not_or] at absent
    rw [store, if_neg (Ne.symm absent.1), ih absent.2, List.cons_append]

/-- An entry that is overwritten stays in its place. -/
theorem store_keys_held {key : K} {value : V} {entries : List (K × V)} (held : key ∈ entries.map Prod.fst) :
    (store key value entries).map Prod.fst = entries.map Prod.fst := by
  induction entries with
  | nil => cases held
  | cons entry rest ih =>
    by_cases same : entry.1 = key
    · simp [store, same]
    · simp only [List.map_cons, List.mem_cons, Ne.symm same, false_or] at held
      simp only [store, same, ↓reduceIte, List.map_cons, ih held]

/-- An assignment leaves the keys as they are, or puts a new one at the end. -/
theorem keys_set {map : OrderedMap K V} {key : K} {value : V} :
    (map.set key value).keys = if map.has key then map.keys else map.keys ++ [key] := by
  have member : map.has key = true ↔ key ∈ map.entries.map Prod.fst := lookup_isSome
  change (store key value map.entries).map Prod.fst = if map.has key then map.entries.map Prod.fst else _
  split
  · exact store_keys_held (member.mp ‹_›)
  · rename_i absent
    rw [store_absent (mt member.mpr absent)]
    simp [keys]

/-- A new key is the last one of the map. -/
theorem keys_set_absent {map : OrderedMap K V} {key : K} {value : V} (absent : map.has key = false) :
    (map.set key value).keys.length = map.keys.length + 1 := by
  rw [keys_set, absent, if_neg Bool.false_ne_true, List.length_append, List.length_singleton]

/-- Without its oldest key a map has the other ones. -/
theorem keys_delete_oldest {map : OrderedMap K V} {oldest : K} {rest : List K} (keys : map.keys = oldest :: rest) :
    (map.delete oldest).keys = rest := by
  have nodup : (oldest :: rest).Nodup := keys ▸ map.nodup
  obtain ⟨fresh, -⟩ := List.nodup_cons.mp nodup
  have filtered : (map.delete oldest).keys = map.keys.filter (· ≠ oldest) := by
    simp [delete, OrderedMap.keys, List.filter_map, Function.comp_def]
  rw [filtered, keys, List.filter_cons_of_neg (by simp)]
  apply List.filter_eq_self.mpr
  intro key member
  simpa using fun same : key = oldest => fresh (same ▸ member)

theorem store_held {key : K} {value : V} {entries : List (K × V)} (held : lookup key entries = some value) :
    store key value entries = entries := by
  induction entries with
  | nil => cases held
  | cons entry rest ih =>
    by_cases same : entry.1 = key
    · simp only [lookup, same, ↓reduceIte, Option.some.injEq] at held
      simp only [store, same, ↓reduceIte, List.cons.injEq, and_true]
      exact Prod.ext same.symm held.symm
    · simp only [lookup, same, ↓reduceIte] at held
      simp only [store, same, ↓reduceIte, ih held]

omit [DecidableEq K] in
/-- A map is its entries in their order. -/
theorem ext_entries {first second : OrderedMap K V} (same : first.entries = second.entries) : first = second := by
  cases first
  cases second
  cases same
  rfl

/-- A single entry comes and goes without a trace. -/
theorem filter_store_absent {key : K} {entries : List (K × V)} (absent : lookup key entries = none) (value : V) :
    (store key value entries).filter (fun entry => entry.1 ≠ key) = entries := by
  induction entries with
  | nil => simp [store]
  | cons entry rest ih =>
    by_cases same : entry.1 = key
    · simp [lookup, same] at absent
    · simp only [lookup, same, ↓reduceIte] at absent
      simpa [store, same] using ih absent

/-- An entry that comes and goes leaves no trace. -/
theorem delete_set_absent {map : OrderedMap K V} {key : K} (absent : map.get? key = none) (value : V) :
    (map.set key value).delete key = map := by
  cases map with
  | mk entries nodup =>
    change OrderedMap.mk _ _ = OrderedMap.mk _ _
    simp only [OrderedMap.mk.injEq]
    exact filter_store_absent absent value

theorem delete_set_empty (key : K) (value : V) : ((∅ : OrderedMap K V).set key value).delete key = ∅ :=
  delete_set_absent (get?_empty key) value

/-- Only an entry that is there already is stored without a trace. -/
theorem set_eq_self {map : OrderedMap K V} {key : K} {value : V} :
    map.set key value = map ↔ map.get? key = some value := by
  constructor
  · intro same
    rw [← same, get?_set, if_pos rfl]
  · intro held
    exact ext_entries (store_held held)

theorem has_set {map : OrderedMap K V} {key other : K} {value : V} :
    (map.set key value).has other = true ↔ other = key ∨ map.has other = true := by
  by_cases same : other = key <;> simp [has, same]

theorem has_delete {map : OrderedMap K V} {key other : K} :
    (map.delete key).has other = true ↔ other ≠ key ∧ map.has other = true := by
  by_cases same : other = key <;> simp [has, same]

/-- What many assignments leave under a key is what was there or what one of them assigned. -/
theorem foldl_set_found {A : Type*} (name : A → K) (value : A → V) {items : List A} {map : OrderedMap K V} {key : K}
    {found : V} (held : (items.foldl (fun map item => map.set (name item) (value item)) map).get? key = some found) :
    (∃ item ∈ items, name item = key ∧ value item = found) ∨ map.get? key = some found := by
  induction items generalizing map with
  | nil => exact .inr held
  | cons first rest ih =>
    rcases ih held with ⟨item, member, named⟩ | before
    · exact .inl ⟨item, List.mem_cons_of_mem _ member, named⟩
    · rw [get?_set] at before
      split at before
      · rename_i same
        exact .inl ⟨first, List.mem_cons_self, same.symm, Option.some.inj before⟩
      · exact .inr before

/-- What has been assigned, or was there, is found. -/
theorem foldl_set_held {A : Type*} (name : A → K) (value : A → V) {items : List A} {map : OrderedMap K V} {key : K}
    (held : (∃ item ∈ items, name item = key) ∨ (map.get? key).isSome) :
    ((items.foldl (fun map item => map.set (name item) (value item)) map).get? key).isSome := by
  induction items generalizing map with
  | nil => exact held.resolve_left fun never => absurd never.choose_spec.1 List.not_mem_nil
  | cons first rest ih =>
    apply ih
    rw [get?_set]
    rcases held with ⟨item, member, named⟩ | before
    · rcases List.mem_cons.mp member with rfl | later
      · exact .inr (by rw [if_pos named.symm]; rfl)
      · exact .inl ⟨item, later, named⟩
    · refine .inr ?_
      split
      · rfl
      · exact before

theorem mem_keys {map : OrderedMap K V} {key : K} : key ∈ map.keys ↔ (map.get? key).isSome :=
  lookup_isSome.symm

theorem mem_entries {map : OrderedMap K V} {key : K} {value : V} :
    (key, value) ∈ map.entries ↔ map.get? key = some value :=
  ⟨lookup_of_mem map.nodup, mem_of_lookup⟩

theorem mem_values {map : OrderedMap K V} {value : V} :
    value ∈ map.values ↔ ∃ key, map.get? key = some value := by
  simp [values, ← mem_entries]

end OrderedMap

/-- Objects by identity. Cells from `next` on have never been allocated. -/
structure Heap (α : Type u) where
  cells : ℕ → α
  next : ℕ := 0

/-- The identity of an object. -/
abbrev Ref := ℕ

namespace Heap
variable {α : Type u}

instance [Inhabited α] : Inhabited (Heap α) := ⟨{ cells := fun _ => default }⟩

def read (heap : Heap α) (ref : Ref) : α := heap.cells ref

def write (heap : Heap α) (ref : Ref) (value : α) : Heap α :=
  { heap with cells := Function.update heap.cells ref value }

/-- A fresh object; its reference is `heap.next`. -/
def alloc (heap : Heap α) (value : α) : Heap α :=
  { cells := Function.update heap.cells heap.next value, next := heap.next + 1 }

@[simp] theorem read_write (heap : Heap α) (ref other : Ref) (value : α) :
    (heap.write ref value).read other = if other = ref then value else heap.read other := by
  simp [read, write, Function.update_apply]

@[simp] theorem read_alloc (heap : Heap α) (other : Ref) (value : α) :
    (heap.alloc value).read other = if other = heap.next then value else heap.read other := by
  simp [read, alloc, Function.update_apply]

@[simp] theorem next_write (heap : Heap α) (ref : Ref) (value : α) :
    (heap.write ref value).next = heap.next := rfl

@[simp] theorem next_alloc (heap : Heap α) (value : α) :
    (heap.alloc value).next = heap.next + 1 := rfl

end Heap
/-! ## Lists -/

/-- Mapping with a function that may throw gives the results of all entries, or throws
what one of them throws. -/
theorem mapM_ok {ε : Type u} {α : Type v} {β : Type u} {f : α → Except ε β} {entries : List α} {results : List β} :
    entries.mapM f = .ok results ↔ entries.map f = results.map .ok := by
  induction entries generalizing results with
  | nil => simp [pure, Except.pure, eq_comm]
  | cons entry rest ih =>
    rw [List.mapM_cons]
    cases first : f entry with
    | error refused => cases results <;> simp [bind, Except.bind, first]
    | ok result =>
      cases others : rest.mapM f with
      | error refused =>
        have never : ¬ ∃ results : List β, rest.map f = results.map .ok := fun ⟨results, all⟩ => by
          rw [ih.mpr all] at others
          cases others
        cases results with
        | nil => simp [bind, Except.bind]
        | cons head tail =>
          simp only [bind, Except.bind, reduceCtorEq, List.map_cons, first, List.cons.injEq, false_iff]
          exact fun both => never ⟨tail, both.2⟩
      | ok found =>
        have all := ih.mp others
        cases results with
        | nil => simp [bind, Except.bind, pure, Except.pure]
        | cons head tail =>
          simp only [bind, Except.bind, pure, Except.pure, Except.ok.injEq, List.map_cons, first, List.cons.injEq, all]
          exact and_congr_right fun _ => (List.map_injective_iff.mpr fun _ _ same => Except.ok.inj same).eq_iff.symm

theorem mapM_error {ε : Type u} {α : Type v} {β : Type u} {f : α → Except ε β} {entries : List α} :
    (∃ refused, entries.mapM f = .error refused) ↔ ∃ entry ∈ entries, ∃ refused, f entry = .error refused := by
  induction entries with
  | nil => simp [pure, Except.pure]
  | cons entry rest ih =>
    rw [List.mapM_cons]
    cases first : f entry with
    | error refused => simp [bind, Except.bind, first]
    | ok result =>
      cases others : rest.mapM f with
      | error refused => simpa [bind, Except.bind, first, others] using ih
      | ok found => simpa [bind, Except.bind, pure, Except.pure, first, others] using ih

/-- Each of the results belongs to its item. -/
theorem mapM_zip {ε : Type u} {α : Type v} {β : Type u} {f : α → Except ε β} {items : List α} {results : List β}
    (made : items.mapM f = .ok results) : ∀ pair ∈ items.zip results, f pair.1 = .ok pair.2 := by
  intro pair member
  obtain ⟨place, within, rfl⟩ := List.mem_iff_getElem.mp member
  have found : (items.map f)[place]? = (results.map .ok)[place]? := by rw [mapM_ok.mp made]
  rw [List.length_zip, Nat.lt_min] at within
  simpa [within.1, within.2] using found

end SFrameRatchet.Collections
