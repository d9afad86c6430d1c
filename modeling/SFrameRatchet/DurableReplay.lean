import Mathlib.Data.Finset.Basic
import SFrameRatchet.Collections
import SFrameRatchet.Interleaving
import SFrameRatchet.Recency

/-! The durable replay guard of `chat/durable-replay.ts`: one guard in every tab
of an origin, over one IndexedDB store. Both IndexedDB and the Web Locks API
are there and every operation on the store succeeds. A request is served in the
order it was made, so what it reads or writes is settled when it is made, and
the caller learns of it later. The promise of an asynchronous helper that only
one caller awaits is run by that caller. -/
namespace SFrameRatchet.DurableReplay
open Collections Coroutine

def keyPrefix : String := "sframe-replay"
def replayMemCacheCap : ℕ := 256

/-- What a tab remembers for one key: the set and the order it is left in. The
other two fields are history: the key it was hydrated for, and what has been
accepted into it since it was last merged with the store. -/
structure MemWindow where
  set : Finset ℕ := ∅
  order : List ℕ := []
  fullKey : String := ""
  unsaved : List ℕ := []
  deriving Inhabited

/-- What callers of one hydration wait for, and the key it is for. -/
structure Hydration where
  window : Option Ref := none
  fullKey : String := ""
  deriving Inhabited

/-- The guard of one tab. `persistTail` names the keys of the links that have been
put on its chain of persists, `persisted` counts those that have settled. -/
structure DurableReplayGuard where
  available : Bool := true
  namespace_ : String
  window : ℕ
  mem : OrderedMap String Ref := ∅
  hydrating : OrderedMap String Ref := ∅
  persisting : OrderedMap String ℕ := ∅
  persistTail : List String := []
  persisted : ℕ := 0

/-- Everything of one origin: the tabs, their objects, the store and the locks,
and what has been accepted and persisted so far, oldest first. -/
structure Origin (T : Type) where
  tabs : T → DurableReplayGuard
  windows : Heap MemWindow := default
  hydrations : Heap Hydration := default
  store : OrderedMap String (List ℕ) := ∅
  locks : List String := []
  accepted : List (String × ℕ) := []
  saved : List (String × ℕ) := []

inductive Caller where
  | check
  | accept
  | clear
  deriving DecidableEq

/-- What the persist of an accepted counter waits for. -/
inductive PersistStage where
  | lock
  | opening
  | merging (seen : List ℕ)
  | written
  | unlocked
  deriving DecidableEq

inductive GuardPoint where
  /-- For the database, before a hydration. -/
  | opening (hydration : Ref)
  /-- For what a hydration reads. -/
  | reading (hydration : Ref) (seen : List ℕ)
  /-- For the window that is there. -/
  | hydrated (window : Ref)
  /-- For another caller's hydration. -/
  | inFlight (hydration : Ref)
  /-- For the links that are on the chain of persists already. -/
  | chained (window : Ref) (link : ℕ)
  | persisting (window : Ref) (stage : PersistStage)
  | settled
  /-- For the database, before a deletion. -/
  | clearing
  | deleted
  deriving DecidableEq

/-- Where a call waits. -/
inductive GuardSite (T : Type) where
  | start
  | within (tab : T) (fullKey : String) (caller : Caller) (point : GuardPoint)
  deriving DecidableEq

variable {T : Type} [DecidableEq T]

/-- A call on the guard of some tab. -/
abbrev Task (T α : Type) := Proc (GuardSite T) (Origin T) α

/-! ## Pieces -/

def DurableReplayGuard.storeKey (guard : DurableReplayGuard) (key : String) : String :=
  keyPrefix ++ "|" ++ guard.namespace_ ++ "|" ++ key

/-- Within one namespace keys are stored apart. -/
theorem storeKey_injective (guard : DurableReplayGuard) : Function.Injective guard.storeKey :=
  fun _ _ same => (String.append_right_inj _).mp same

/-- The loop of `dedupKeepLast`, from the end of the array to its front. -/
def dedupLoop (seen : Finset ℕ) : List ℕ → List ℕ
  | [] => []
  | ctr :: rest => if ctr ∈ seen then dedupLoop seen rest else ctr :: dedupLoop (insert ctr seen) rest

def dedupKeepLast (ctrs : List ℕ) : List ℕ := (dedupLoop ∅ ctrs.reverse).reverse

/-- `Array.prototype.slice` from `-count` on. -/
def sliceLast (count : ℕ) (ctrs : List ℕ) : List ℕ := if count = 0 then ctrs else ctrs.rtake count

/-- Drop oldest counters until the window is within bound. -/
def trimOrder (window : ℕ) (set : Finset ℕ) : List ℕ → Finset ℕ × List ℕ
  | [] => (set, [])
  | oldest :: rest =>
    if (oldest :: rest).length > window then trimOrder window (set.erase oldest) rest else (set, oldest :: rest)

def MemWindow.trim (win : MemWindow) (window : ℕ) : MemWindow :=
  { win with set := (trimOrder window win.set win.order).1, order := (trimOrder window win.set win.order).2 }

/-- Add a counter, and let the oldest ones go. -/
def MemWindow.push (win : MemWindow) (ctr window : ℕ) : MemWindow :=
  { win with
    set := insert ctr win.set
    order := win.order ++ [ctr]
    unsaved := win.unsaved ++ [ctr] }.trim window

/-- The persisted counters and the window's own, the latter last. -/
def merged (window : ℕ) (persistedSeen order : List ℕ) : List ℕ :=
  sliceLast window (dedupKeepLast (persistedSeen ++ order))

namespace DurableReplayGuard
variable (guard : DurableReplayGuard)

/-- Whether the cache may let a key go. -/
def evictable (justHydrated key : String) : Bool :=
  key ≠ justHydrated && !guard.hydrating.has key && !guard.persisting.has key

/-- The first key that the cache may let go. -/
def oldestEvictable (justHydrated : String) : Option String :=
  guard.mem.keys.find? (guard.evictable justHydrated)

/-- The loop of `trimMemCache`; every round removes a key. -/
def trimRounds (justHydrated : String) : ℕ → DurableReplayGuard → DurableReplayGuard
  | 0, guard => guard
  | rounds + 1, guard =>
    if guard.mem.keys.length > replayMemCacheCap then
      match guard.oldestEvictable justHydrated with
      | none => guard
      | some key => trimRounds justHydrated rounds { guard with mem := guard.mem.delete key }
    else guard

def trimMemCache (justHydrated : String) : DurableReplayGuard :=
  trimRounds justHydrated guard.mem.keys.length guard

def markPersisting (fullKey : String) : DurableReplayGuard :=
  { guard with persisting := guard.persisting.set fullKey ((guard.persisting.get? fullKey).getD 0 + 1) }

def releasePersisting (fullKey : String) : DurableReplayGuard :=
  let next := (guard.persisting.get? fullKey).getD 0 - 1
  { guard with persisting :=
      if next = 0 then guard.persisting.delete fullKey else guard.persisting.set fullKey next }

end DurableReplayGuard

namespace Origin
variable (o : Origin T)

/-- Change the guard of one tab. -/
def atTab (tab : T) (change : DurableReplayGuard → DurableReplayGuard) : Origin T :=
  { o with tabs := Function.update o.tabs tab (change (o.tabs tab)) }

/-- A hydration begins: its promise is put into the map. -/
def beginHydration (tab : T) (fullKey : String) : Origin T :=
  { o.atTab tab fun guard => { guard with hydrating := guard.hydrating.set fullKey o.hydrations.next } with
    hydrations := o.hydrations.alloc { fullKey } }

/-- A hydration ends with a window that holds what it has read. -/
def endHydration (tab : T) (fullKey : String) (hydration : Ref) (seen : List ℕ) : Origin T :=
  let order := sliceLast (o.tabs tab).window seen
  { o.atTab tab fun guard => { guard with
      mem := guard.mem.set fullKey o.windows.next
      hydrating := guard.hydrating.delete fullKey }.trimMemCache fullKey with
    windows := o.windows.alloc { set := order.toFinset, order, fullKey }
    hydrations := o.hydrations.write hydration { window := some o.windows.next, fullKey } }

/-- A counter goes into a window, and a persist of it on the chain. -/
def recordAccept (tab : T) (fullKey : String) (window : Ref) (ctr : ℕ) : Origin T :=
  { o.atTab tab fun guard => { guard.markPersisting fullKey with persistTail := guard.persistTail ++ [fullKey] } with
    windows := o.windows.write window ((o.windows.read window).push ctr (o.tabs tab).window)
    accepted := o.accepted ++ [(fullKey, ctr)] }

/-- The merge of a persist: the window takes over what is written. -/
def merge (tab : T) (fullKey : String) (window : Ref) (persistedSeen : List ℕ) : Origin T :=
  let win := o.windows.read window
  let seen := merged (o.tabs tab).window persistedSeen win.order
  { o with
    windows := o.windows.write window { win with set := seen.toFinset, order := seen, unsaved := [] }
    store := o.store.set fullKey seen
    saved := o.saved ++ win.unsaved.map fun ctr => (fullKey, ctr) }

/-- The last link of a persist settles. -/
def releasePersist (tab : T) (fullKey : String) : Origin T :=
  o.atTab tab fun guard => { guard.releasePersisting fullKey with persisted := guard.persisted + 1 }

/-- A key leaves the cache and the bookkeeping of its guard. -/
def forget (tab : T) (fullKey : String) : Origin T :=
  o.atTab tab fun guard => { guard with
    mem := guard.mem.delete fullKey
    hydrating := guard.hydrating.delete fullKey
    persisting := guard.persisting.delete fullKey }

end Origin

/-! ## The guard -/

section Guard
variable (tab : T)

def hydrate (fullKey : String) (caller : Caller) : Task T Ref := do
  let site := GuardSite.within tab fullKey caller
  let o ← Proc.get
  match (o.tabs tab).mem.get? fullKey with
  | some cached => do
    Proc.yield (site (.hydrated cached))
    return cached
  | none =>
    match (o.tabs tab).hydrating.get? fullKey with
    | some hydration => do
      Proc.awaitUntil (site (.inFlight hydration)) fun o => (o.hydrations.read hydration).window.isSome
      let o ← Proc.get
      return ((o.hydrations.read hydration).window.getD 0)
    | none => do
      let hydration := o.hydrations.next
      Proc.modify fun o => o.beginHydration tab fullKey
      Proc.yield (site (.opening hydration))
      let o ← Proc.get
      let seen := (o.store.get? fullKey).getD []
      Proc.yield (site (.reading hydration seen))
      let o ← Proc.get
      Proc.modify fun o => o.endHydration tab fullKey hydration seen
      Proc.yield (site (.hydrated o.windows.next))
      return o.windows.next

/-- Read, merge and write under the lock of the key. -/
def persistMerged (fullKey : String) (window : Ref) : Task T Unit := do
  let site (stage : PersistStage) := GuardSite.within tab fullKey .accept (.persisting window stage)
  Proc.awaitUntil (site .lock) fun o => fullKey ∉ o.locks
  Proc.modify fun o => { o with locks := fullKey :: o.locks }
  Proc.yield (site .opening)
  let o ← Proc.get
  let persistedSeen := (o.store.get? fullKey).getD []
  Proc.yield (site (.merging persistedSeen))
  Proc.modify fun o => o.merge tab fullKey window persistedSeen
  Proc.yield (site .written)
  Proc.modify fun o => { o with locks := o.locks.erase fullKey }
  Proc.yield (site .unlocked)

def check (key : String) (ctr : ℕ) : Task T Bool := do
  let o ← Proc.get
  let guard := o.tabs tab
  if !guard.available || guard.window = 0 then return true
  else do
    let window ← hydrate tab (guard.storeKey key) .check
    let o ← Proc.get
    return decide (ctr ∉ (o.windows.read window).set)

def accept (key : String) (ctr : ℕ) : Task T Unit := do
  let o ← Proc.get
  let guard := o.tabs tab
  if !guard.available || guard.window = 0 then return ()
  else do
    let fullKey := guard.storeKey key
    let window ← hydrate tab fullKey .accept
    let o ← Proc.get
    if ctr ∈ (o.windows.read window).set then return ()
    else do
      let link := (o.tabs tab).persistTail.length
      Proc.modify fun o => o.recordAccept tab fullKey window ctr
      Proc.awaitUntil (.within tab fullKey .accept (.chained window link)) fun o =>
        decide ((o.tabs tab).persisted = link)
      persistMerged tab fullKey window
      Proc.modify fun o => o.releasePersist tab fullKey
      Proc.yield (.within tab fullKey .accept .settled)

def clear (key : String) : Task T Unit := do
  let o ← Proc.get
  let guard := o.tabs tab
  if !guard.available || guard.window = 0 then return ()
  else do
    let fullKey := guard.storeKey key
    Proc.yield (.within tab fullKey .clear .clearing)
    Proc.modify fun o => { o with store := o.store.delete fullKey }
    Proc.yield (.within tab fullKey .clear .deleted)
    Proc.modify fun o => o.forget tab fullKey

end Guard

/-- A call on the guard of a tab. -/
inductive Call (T : Type) where
  | check (tab : T) (key : String) (ctr : ℕ)
  | accept (tab : T) (key : String) (ctr : ℕ)
  | clear (tab : T) (key : String)

namespace Call

def tab : Call T → T
  | check tab _ _ => tab
  | accept tab _ _ => tab
  | clear tab _ => tab

def key : Call T → String
  | check _ key _ => key
  | accept _ key _ => key
  | clear _ key => key

def caller : Call T → Caller
  | check .. => .check
  | accept .. => .accept
  | clear .. => .clear

/-- A place within the guard at which a call waits. -/
def site (call : Call T) (fullKey : String) (point : GuardPoint) : GuardSite T :=
  .within call.tab fullKey call.caller point

/-- Checks answer, the other calls only end. -/
def program : Call T → Task T (Option Bool)
  | check tab key ctr => do
    let answer ← DurableReplay.check tab key ctr
    return some answer
  | accept tab key ctr => do
    DurableReplay.accept tab key ctr
    return none
  | clear tab key => do
    DurableReplay.clear tab key
    return none

end Call

/-- The configuration of a guard. -/
def DurableReplayGuard.settings (guard : DurableReplayGuard) : Bool × String × ℕ :=
  (guard.available, guard.namespace_, guard.window)

theorem storeKey_congr {guard guard' : DurableReplayGuard} (same : guard'.settings = guard.settings) (key : String) :
    guard'.storeKey key = guard.storeKey key := by
  have named : guard'.namespace_ = guard.namespace_ := congrArg (·.2.1) same
  rw [DurableReplayGuard.storeKey, named, DurableReplayGuard.storeKey]

/-- The guard of a tab that has just been loaded, on the namespace of the one before. -/
def reloaded (guard : DurableReplayGuard) : DurableReplayGuard :=
  { available := guard.available, namespace_ := guard.namespace_, window := guard.window }

/-- Guards that have just been constructed, over an empty store. -/
def opened (namespace_ : String) (window : ℕ) : Origin T :=
  { tabs := fun _ => { namespace_ := namespace_, window := window } }

/-- The same over what earlier guards have accepted and stored. -/
def reopened (namespace_ : String) (window : ℕ) (store : OrderedMap String (List ℕ)) (accepted : List (String × ℕ)) :
    Origin T :=
  { opened namespace_ window with store := store, accepted := accepted }

/-- What the store holds for a key. -/
def stored (o : Origin T) (fullKey : String) : List ℕ := (o.store.get? fullKey).getD []

/-- The counters of one key in a history. -/
def entriesOf (fullKey : String) (history : List (String × ℕ)) : List ℕ :=
  (history.filter (·.1 = fullKey)).map (·.2)

/-- Counters are added to the history of their own key. -/
theorem entriesOf_append (fullKey key : String) (history : List (String × ℕ)) (ctrs : List ℕ) :
    entriesOf key (history ++ ctrs.map fun ctr => (fullKey, ctr)) =
      entriesOf key history ++ if key = fullKey then ctrs else [] := by
  rw [entriesOf, List.filter_append, List.map_append, ← entriesOf, List.filter_map, List.map_map]
  congr 1
  split
  · rename_i own
    subst own
    rw [List.filter_eq_self.mpr (by simp)]
    exact List.map_id _
  · rename_i other
    rw [List.filter_eq_nil_iff.mpr (by simpa using fun _ _ => Ne.symm other), List.map_nil]

/-- The window that a call is handed when it is resumed. -/
def Origin.windowAt (o : Origin T) : GuardPoint → Option Ref
  | .hydrated window => some window
  | .inFlight hydration => (o.hydrations.read hydration).window
  | _ => none

/-! ## What the pieces compute -/

theorem dedupLoop_eq (ctrs : List ℕ) (seen : Finset ℕ) :
    (dedupLoop seen ctrs).reverse = ctrs.reverse.dedup.filter (· ∉ seen) := by
  induction ctrs generalizing seen with
  | nil => rfl
  | cons ctr rest ih =>
    have last : [ctr].dedup = [ctr] := rfl
    rw [dedupLoop, List.reverse_cons, Recency.dedup_append, last, List.filter_append, List.filter_filter]
    split
    · rename_i known
      rw [ih, List.filter_cons_of_neg (by simpa using known), List.filter_nil, List.append_nil]
      refine List.filter_congr fun other _ => ?_
      by_cases own : other = ctr <;> simp [own, known]
    · rename_i unknown
      rw [List.reverse_cons, ih, List.filter_cons_of_pos (by simpa using unknown), List.filter_nil]
      congr 1
      refine List.filter_congr fun other _ => ?_
      by_cases own : other = ctr <;> simp [own, unknown]

/-- Every counter stays where it occurs last. -/
theorem dedupKeepLast_eq (ctrs : List ℕ) : dedupKeepLast ctrs = ctrs.dedup := by
  rw [dedupKeepLast, dedupLoop_eq, List.reverse_reverse]
  simp

theorem sliceLast_eq {count : ℕ} (positive : count ≠ 0) (ctrs : List ℕ) : sliceLast count ctrs = ctrs.rtake count :=
  if_neg positive

/-- A merge keeps the most recent counters of both. -/
theorem merged_eq {window : ℕ} (positive : window ≠ 0) (persistedSeen order : List ℕ) :
    merged window persistedSeen order = Recency.recent window (persistedSeen ++ order) := by
  rw [merged, sliceLast_eq positive, dedupKeepLast_eq, Recency.recent]

theorem trimOrder_eq (window : ℕ) (order : List ℕ) (nodup : order.Nodup) :
    trimOrder window order.toFinset order = ((order.rtake window).toFinset, order.rtake window) := by
  induction order with
  | nil => simp [trimOrder]
  | cons oldest rest ih =>
    obtain ⟨absent, later⟩ := List.nodup_cons.mp nodup
    rw [trimOrder]
    split
    · rename_i long
      have kept : (oldest :: rest).toFinset.erase oldest = rest.toFinset := by
        simp [absent]
      have cut : (oldest :: rest).rtake window = rest.rtake window := by
        rw [show oldest :: rest = [oldest] ++ rest from rfl, Recency.rtake_append,
          Nat.sub_eq_zero_of_le (by simp only [List.length_cons] at long; omega), List.rtake_zero, List.nil_append]
      rw [kept, ih later, cut]
    · rename_i fits
      rw [Recency.rtake_of_length_le (by omega)]

/-- The set and the order of a window hold the same counters, each once. -/
structure MemWindow.Agrees (win : MemWindow) : Prop where
  set : win.set = win.order.toFinset
  nodup : win.order.Nodup

theorem MemWindow.Agrees.push {win : MemWindow} (agrees : win.Agrees) {ctr : ℕ} (fresh : ctr ∉ win.set) (window : ℕ) :
    (win.push ctr window).order = (win.order ++ [ctr]).rtake window ∧ (win.push ctr window).Agrees := by
  have absent : ctr ∉ win.order := by simpa [agrees.set] using fresh
  have nodup := Recency.nodup_append_singleton agrees.nodup absent
  have grown : insert ctr win.set = (win.order ++ [ctr]).toFinset := by
    rw [agrees.set]
    ext other
    rw [Finset.mem_insert, List.mem_toFinset, List.mem_toFinset, List.mem_append, List.mem_singleton, or_comm]
  have trimmed := trimOrder_eq window (win.order ++ [ctr]) nodup
  simp only [MemWindow.push, MemWindow.trim, grown, trimmed]
  exact ⟨trivial, rfl, nodup.sublist (Recency.rtake_sublist _ _)⟩

section Cache
variable (guard : DurableReplayGuard) (just : String)

/-- What a trim of the cache leaves and what it lets go. -/
structure Trimmed (before after : DurableReplayGuard) : Prop where
  rest : { after with mem := before.mem } = before
  kept : ∀ key, after.mem.get? key = before.mem.get? key ∨
    after.mem.get? key = none ∧ key ≠ just ∧ before.hydrating.has key = false ∧ before.persisting.has key = false

theorem trimRounds_trimmed (rounds : ℕ) : Trimmed just guard (guard.trimRounds just rounds) := by
  induction rounds generalizing guard with
  | zero => exact ⟨rfl, fun _ => .inl rfl⟩
  | succ rounds ih =>
    rw [DurableReplayGuard.trimRounds]
    split
    · split
      · exact ⟨rfl, fun _ => .inl rfl⟩
      · rename_i oldest found
        have evictable := List.find?_some found
        simp only [DurableReplayGuard.evictable, Bool.and_eq_true, decide_eq_true_eq, Bool.not_eq_true'] at evictable
        obtain ⟨rest, kept⟩ := ih { guard with mem := guard.mem.delete oldest }
        refine ⟨?_, fun key => ?_⟩
        · rw [DurableReplayGuard.mk.injEq] at rest ⊢
          exact ⟨rest.1, rest.2.1, rest.2.2.1, rfl, rest.2.2.2.2⟩
        · by_cases own : key = oldest
          · subst own
            refine .inr ⟨?_, evictable.1.1, evictable.1.2, evictable.2⟩
            rcases kept key with same | ⟨gone, -⟩
            · rw [same, OrderedMap.get?_delete, if_pos rfl]
            · exact gone
          · rcases kept key with same | gone
            · rw [OrderedMap.get?_delete, if_neg own] at same
              exact .inl same
            · exact .inr gone
    · exact ⟨rfl, fun _ => .inl rfl⟩

/-- A cache that is not over its bound is left alone. -/
theorem trimMemCache_small (small : guard.mem.keys.length ≤ replayMemCacheCap) : guard.trimMemCache just = guard := by
  rw [DurableReplayGuard.trimMemCache]
  cases guard.mem.keys.length with
  | zero => rfl
  | succ rounds => rw [DurableReplayGuard.trimRounds, if_neg (Nat.not_lt.mpr small)]

theorem trimMemCache_trimmed : Trimmed just guard (guard.trimMemCache just) := trimRounds_trimmed guard just _

end Cache

@[simp] theorem atTab_tabs (o : Origin T) (tab : T) (change : DurableReplayGuard → DurableReplayGuard) :
    (o.atTab tab change).tabs tab = change (o.tabs tab) := by
  simp [Origin.atTab]

@[simp] theorem atTab_windows (o : Origin T) (tab : T) (change : DurableReplayGuard → DurableReplayGuard) :
    (o.atTab tab change).windows = o.windows := rfl

omit [DecidableEq T] in
theorem stored_merge (o : Origin T) (tab : T) (fullKey : String) (ref : Ref) (seen : List ℕ) (key : String) :
    stored (o.merge tab fullKey ref seen) key =
      if key = fullKey then merged (o.tabs tab).window seen (o.windows.read ref).order else stored o key := by
  change ((o.store.set fullKey _).get? key).getD [] = _
  rw [OrderedMap.get?_set]
  split <;> rfl

section EndHydration
variable (o : Origin T) (tab : T) (fullKey : String) (hydration : Ref) (seen : List ℕ)

/-- The end of a hydration trims the cache. -/
theorem endHydration_trimmed : Trimmed fullKey { o.tabs tab with
    mem := (o.tabs tab).mem.set fullKey o.windows.next
    hydrating := (o.tabs tab).hydrating.delete fullKey } ((o.endHydration tab fullKey hydration seen).tabs tab) := by
  simp only [Origin.endHydration, atTab_tabs]
  exact trimMemCache_trimmed _ fullKey

/-- The end of a hydration: the new window is in the cache, and others are gone
from it at most. -/
theorem endHydration_mem :
    ((o.endHydration tab fullKey hydration seen).tabs tab).mem.get? fullKey = some o.windows.next ∧
    (∀ key ref, ((o.endHydration tab fullKey hydration seen).tabs tab).mem.get? key = some ref →
      key = fullKey ∧ ref = o.windows.next ∨ key ≠ fullKey ∧ (o.tabs tab).mem.get? key = some ref) ∧
    { (o.endHydration tab fullKey hydration seen).tabs tab with mem := (o.tabs tab).mem } =
      { o.tabs tab with hydrating := (o.tabs tab).hydrating.delete fullKey } := by
  have trimmed := endHydration_trimmed o tab fullKey hydration seen
  refine ⟨?_, fun key ref held => ?_, ?_⟩
  · rcases trimmed.kept fullKey with kept | ⟨-, other, -⟩
    · simpa using kept
    · exact absurd rfl other
  · rcases trimmed.kept key with kept | ⟨gone, -⟩
    · rw [kept, OrderedMap.get?_set] at held
      split at held
      · exact .inl ⟨‹_›, (Option.some.inj held).symm⟩
      · exact .inr ⟨‹_›, held⟩
    · rw [gone] at held
      cases held
  · exact congrArg (fun guard : DurableReplayGuard => { guard with mem := (o.tabs tab).mem }) trimmed.rest

/-- A window is gone only if its key is not being persisted. -/
theorem endHydration_kept {key : String} {ref : Ref} (held : (o.tabs tab).mem.get? key = some ref)
    (other : key ≠ fullKey) :
    ((o.endHydration tab fullKey hydration seen).tabs tab).mem.get? key = some ref ∨
      ((o.endHydration tab fullKey hydration seen).tabs tab).mem.get? key = none ∧
        (o.tabs tab).persisting.has key = false := by
  rcases (endHydration_trimmed o tab fullKey hydration seen).kept key with kept | ⟨gone, -, -, idle⟩
  · rw [OrderedMap.get?_set, if_neg other] at kept
    exact .inl (kept.trans held)
  · exact .inr ⟨gone, idle⟩

/-- A hydration with no other call in between. -/
theorem solo_hydrate_missing (caller : Caller) (missing : (o.tabs tab).mem.get? fullKey = none)
    (idle : (o.tabs tab).hydrating.get? fullKey = none) : (hydrate tab fullKey caller).solo o =
      some (o.windows.next,
        (o.beginHydration tab fullKey).endHydration tab fullKey o.hydrations.next (stored o fullKey)) := by
  simp only [hydrate, Proc.solo_bind, Proc.solo_get, Option.bind_some, missing, idle, Proc.solo_modify, Proc.solo_yield,
    Proc.solo_pure]
  rfl

end EndHydration

end SFrameRatchet.DurableReplay
