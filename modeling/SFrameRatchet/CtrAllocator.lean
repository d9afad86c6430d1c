import Mathlib.Tactic.FinCases
import SFrameRatchet.Collections
import SFrameRatchet.Errors
import SFrameRatchet.Interleaving
import SFrameRatchet.Throwing

/-! The durable counters of `chat/ctr-allocator.ts`, one IndexedDB store for the
tabs of an origin. Readwrite transactions run one at a time, a request succeeds
before its transaction commits, and an abort takes its writes back. The promise of
an increment is resolved when its write succeeds, so a counter that is handed out
may be handed out again after an abort, and otherwise never is. -/
namespace SFrameRatchet.CtrAllocator
open Collections Coroutine Throwing Interleaving

/-- A running transaction, and the write that has succeeded in it. -/
structure Transaction where
  id : ℕ
  written : Option (String × ℕ) := none

/-- The committed counters, the transaction that runs, how many have been created
and which have been aborted, and the locks that are held. -/
structure Keyspace where
  counters : OrderedMap String ℕ := ∅
  active : Option Transaction := none
  created : ℕ := 0
  aborted : List ℕ := []
  locks : List String := []

/-- Where a call waits; a transaction is named by its number. -/
inductive AllocatorSite where
  | start
  | opening
  | locking
  | created (id : ℕ)
  | reading (id : ℕ)
  | writing (id currentValue : ℕ)
  | committing
  | aborting (id : ℕ)

abbrev AllocatorTask (α : Type) := Async AllocatorSite Keyspace JsError α

/-- What a tab has: the Web Locks API, and the database or why it does not open. -/
structure Tab where
  hasLocks : Bool
  db : Except JsError Unit

namespace Keyspace
variable (k : Keyspace)

def running (id : ℕ) : Bool := k.active.any fun tx => tx.id = id

/-- The committed counter of a key. -/
def counter (key : String) : ℕ := (k.counters.get? key).getD 0

/-- What the transaction that runs, or the next one, finds for a key. -/
def effective (key : String) : ℕ :=
  match k.active.bind Transaction.written with
  | some (written, value) => if key = written then value else k.counter key
  | none => k.counter key

/-- The write of a transaction becomes durable. -/
def commit : Keyspace :=
  match k.active.bind Transaction.written with
  | some (key, value) => { k with counters := k.counters.set key value, active := none }
  | none => k

/-- A transaction is given up, whether it runs or has yet to. -/
def abort (id : ℕ) : Keyspace :=
  { k with aborted := id :: k.aborted, active := k.active.filter fun tx => tx.id ≠ id }

end Keyspace

/-- Read, increment and write in a transaction of its own. -/
def atomicIncrement (idbKey : String) : AllocatorTask ℕ := do
  let k ← read
  let id := k.created
  update fun k => { k with created := k.created + 1 }
  pauseUntil (.created id) fun k => k.active.isNone || k.aborted.contains id
  let k ← read
  if k.aborted.contains id then throw .operationError
  else
    update fun k => { k with active := some { id } }
    pause (.reading id)
    let k ← read
    if k.running id then
      let currentValue := k.counter idbKey
      pause (.writing id currentValue)
      let k ← read
      if k.running id then
        update fun k => { k with active := some { id, written := some (idbKey, currentValue + 1) } }
        return currentValue
      else throw .operationError
    else throw .operationError

def idbKey (roomId senderUid : String) : String := s!"{roomId}|{senderUid}"
def lockName (keyspace roomId senderUid : String) : String := s!"sframe-ctr|{keyspace}|{roomId}|{senderUid}"

/-- The next counter for a sender of a room. -/
def next (keyspace : String) (tab : Tab) (roomId senderUid : String) : AllocatorTask ℕ := do
  pause .opening
  settle tab.db
  if tab.hasLocks then
    let lock := lockName keyspace roomId senderUid
    pauseUntil .locking fun k => !k.locks.contains lock
    update fun k => { k with locks := lock :: k.locks }
    let outcome ← attempt (atomicIncrement (idbKey roomId senderUid))
    update fun k => { k with locks := k.locks.erase lock }
    settle outcome
  else atomicIncrement (idbKey roomId senderUid)

/-- The calls of the tabs, and what the database does: only a write that has
succeeded is committed, and any transaction may be aborted. -/
inductive AllocatorCall where
  | next (tab : Tab) (roomId senderUid : String)
  | commit
  | abort (id : ℕ)

namespace AllocatorCall

def program (keyspace : String) : AllocatorCall → AllocatorTask (Option ℕ)
  | next tab roomId senderUid => do
    let ctr ← CtrAllocator.next keyspace tab roomId senderUid
    return some ctr
  | commit => do
    pauseUntil .committing fun k => (k.active.bind Transaction.written).isSome
    update Keyspace.commit
    return none
  | abort id => do
    pauseUntil (.aborting id) fun k => decide (id < k.created)
    update fun k => k.abort id
    return none

/-- The key that a call counts. -/
def key : AllocatorCall → Option String
  | next _ roomId senderUid => some (idbKey roomId senderUid)
  | commit | abort _ => none

end AllocatorCall

abbrev AllocatorPool (ι : Type) := Pool ι AllocatorSite Keyspace (Except JsError (Option ℕ))

/-- The calls of a run over counters that have been committed before it. -/
def launch {ι : Type} (keyspace : String) (counters : OrderedMap String ℕ) (calls : ι → AllocatorCall) :
    AllocatorPool ι :=
  .launch .start { counters } fun call => ((calls call).program keyspace).run

abbrev AllocatorStatus := Status AllocatorSite (Except JsError (Option ℕ))

/-! ## Steps -/

/-- The transaction of a call that has created one. -/
def AllocatorSite.transaction : AllocatorSite → Option ℕ
  | created id | reading id | writing id _ => some id
  | _ => none

/-- The keyspace but for its locks and the transactions that are lost. -/
def Keyspace.ledger (k : Keyspace) := (k.counters, k.active, k.created)

/-- What one turn of a call does to the counters. -/
inductive Step (key : Option String) : AllocatorSite → Keyspace → AllocatorStatus → Keyspace → Prop
  | waits {site next k k'} (early : next.transaction = none) (same : k'.ledger = k.ledger) :
    Step key site k (.suspended next) k'
  | creates {site k k'} (own : site.transaction = none)
    (same : k'.ledger = ({ k with created := k.created + 1 } : Keyspace).ledger) :
    Step key site k (.suspended (.created k.created)) k'
  | begins {id k} (idle : k.active = none) :
    Step key (.created id) k (.suspended (.reading id)) { k with active := some { id } }
  | reads {id counted k} (running : k.running id = true) (own : key = some counted) :
    Step key (.reading id) k (.suspended (.writing id (k.counter counted))) k
  | writes {id counted currentValue k k'} (running : k.running id = true) (own : key = some counted)
    (same : k'.ledger = ({ k with active := some { id, written := some (counted, currentValue + 1) } } :
      Keyspace).ledger) :
    Step key (.writing id currentValue) k (.finished (.ok (some currentValue))) k'
  | fails {site k error k'} (same : k'.ledger = k.ledger) : Step key site k (.finished (.error error)) k'
  | commits {k} : Step key .committing k (.finished (.ok none)) k.commit
  | aborts {id k} : Step key (.aborting id) k (.finished (.ok none)) (k.abort id)

/-- Every turn is a step; nothing is asked of the keyspace at its beginning. -/
def stepping (key : Option String) : Contract AllocatorSite Keyspace where
  assume _ _ := True
  moves site start next k := Step key site start (.suspended next) k

section Calls
variable {key : Option String} {counted : String} {site : AllocatorSite} {start k : Keyspace}

theorem atomicIncrement_meets (own : site.transaction = none) (same : k.ledger = start.ledger) :
    Meets (stepping (some counted)) (atomicIncrement counted)
      (fun site start value k => ∃ id, site = .writing id value ∧ start.running id = true ∧
        k = { start with active := some { id, written := some (counted, value + 1) } })
      (fun _ start _ k => k.ledger = start.ledger) site start k := by
  simp only [Keyspace.ledger, Prod.mk.injEq] at same
  obtain ⟨counters, active, created⟩ := same
  simp only [atomicIncrement, meets_bind, meets_read, meets_update, meets_pauseUntil]
  constructor
  · rw [created]
    apply Step.creates own
    simp only [Keyspace.ledger, counters, active]
  · intro first ready _
    split
    · exact rfl
    · rename_i kept
      have idle : first.active = none := by
        rcases Bool.or_eq_true_iff.mp ready with idle | gone
        · exact Option.isNone_iff_eq_none.mp idle
        · exact absurd gone kept
      simp only [meets_bind, meets_update, meets_pause, meets_read]
      refine ⟨.begins idle, fun second _ => ?_⟩
      split
      · rename_i running
        simp only [meets_bind, meets_pause, meets_read]
        refine ⟨.reads running rfl, fun third _ => ?_⟩
        split
        · rename_i still
          exact ⟨_, rfl, still, rfl⟩
        · exact rfl
      · exact rfl

/-- The end of a call. -/
def Ends (key : Option String) (site : AllocatorSite) (start : Keyspace) (outcome : Except JsError (Option ℕ))
    (k : Keyspace) : Prop :=
  Step key site start (.finished outcome) k

theorem next_meets (keyspace : String) (tab : Tab) (roomId senderUid : String) :
    Meets (stepping (some (idbKey roomId senderUid))) (next keyspace tab roomId senderUid)
      (fun site start value k => Ends (some (idbKey roomId senderUid)) site start (.ok (some value)) k)
      (fun site start error k => Ends (some (idbKey roomId senderUid)) site start (.error error) k) .start k k := by
  unfold next
  refine meets_bind.mpr (meets_pause.mpr ⟨.waits rfl rfl, fun first _ => ?_⟩)
  apply meets_bind.mpr
  cases tab.db with
  | error refused => exact Step.fails rfl
  | ok _ =>
    apply meets_settle.mpr
    dsimp only
    split
    · simp only [meets_bind, meets_pauseUntil, meets_update, meets_attempt, meets_settle]
      refine ⟨.waits rfl rfl, fun second _ _ => ?_⟩
      refine meets_mono (atomicIncrement_meets rfl rfl) ?_ ?_
      · rintro site start value k ⟨id, rfl, running, rfl⟩
        exact Step.writes running rfl rfl
      · intro site start error k same
        exact Step.fails same
    · refine meets_mono (atomicIncrement_meets rfl rfl) ?_ ?_
      · rintro site start value k ⟨id, rfl, running, rfl⟩
        exact Step.writes running rfl rfl
      · intro site start error k same
        exact Step.fails same

/-- Every call of the database and of its tabs moves in steps. -/
theorem program_meets (keyspace : String) (call : AllocatorCall) :
    Meets (stepping call.key) (call.program keyspace)
      (fun site start value k => Ends call.key site start (.ok value) k)
      (fun site start error k => Ends call.key site start (.error error) k) .start k k := by
  cases call with
  | next tab roomId senderUid =>
    apply meets_bind.mpr
    apply meets_mono (next_meets keyspace tab roomId senderUid)
    · intro site start value k ends
      exact ends
    · intro site start error k ends
      exact ends
  | commit =>
    refine meets_bind.mpr (meets_pauseUntil.mpr ⟨.waits rfl rfl, fun later _ _ => ?_⟩)
    exact Step.commits
  | abort id =>
    refine meets_bind.mpr (meets_pauseUntil.mpr ⟨.waits rfl rfl, fun later _ _ => ?_⟩)
    exact Step.aborts

end Calls

/-! ## The counters that have been handed out -/

/-- What a call shows of itself fits the keyspace. -/
def Fits (key : Option String) (k : Keyspace) : AllocatorStatus → Prop
  | .suspended (.created id) => id < k.created
  | .suspended (.reading id) => id < k.created ∧ ∀ tx, k.active = some tx → tx.id = id → tx.written = none
  | .suspended (.writing id currentValue) => id < k.created ∧ ∀ tx, k.active = some tx → tx.id = id →
    tx.written = none ∧ ∀ counted, key = some counted → currentValue = k.counter counted
  | .finished (.ok (some ctr)) => ∀ counted, key = some counted → ctr < k.effective counted
  | _ => True

/-- The transaction that a call has created. -/
def transaction : AllocatorStatus → Option ℕ
  | .suspended site => site.transaction
  | _ => none

section Fits
variable {key : Option String} {k k' : Keyspace} {status : AllocatorStatus}

theorem effective_of (counters : k'.counters = k.counters) (active : k'.active = k.active) (key : String) :
    k'.effective key = k.effective key := by
  simp only [Keyspace.effective, Keyspace.counter, counters, active]

/-- Neither the locks nor a new transaction change what fits. -/
theorem fits_of (fits : Fits key k status) (counters : k'.counters = k.counters) (active : k'.active = k.active)
    (created : k.created ≤ k'.created) : Fits key k' status := by
  unfold Fits at fits ⊢
  split
  · exact lt_of_lt_of_le fits created
  · rw [active]
    exact ⟨lt_of_lt_of_le fits.1 created, fits.2⟩
  · rw [active]
    refine ⟨lt_of_lt_of_le fits.1 created, fun tx running same => ?_⟩
    obtain ⟨unwritten, value⟩ := fits.2 tx running same
    refine ⟨unwritten, fun counted own => ?_⟩
    rw [value counted own, Keyspace.counter, Keyspace.counter, counters]
  · intro counted own
    rw [effective_of counters active]
    exact fits counted own
  · trivial

/-- A call whose transaction does not run in either state fits if no counter goes
back. -/
theorem fits_apart (fits : Fits key k status) (created : k.created = k'.created)
    (others : ∀ id, transaction status = some id → ∀ tx, k'.active = some tx → tx.id ≠ id)
    (grown : ∀ counted, k.effective counted ≤ k'.effective counted) : Fits key k' status := by
  unfold Fits at fits ⊢
  split
  · rw [← created]
    exact fits
  · rw [← created]
    exact ⟨fits.1, fun tx running same => absurd same (others _ rfl tx running)⟩
  · rw [← created]
    exact ⟨fits.1, fun tx running same => absurd same (others _ rfl tx running)⟩
  · intro counted own
    exact lt_of_lt_of_le (fits counted own) (grown counted)
  · trivial

/-- Committing makes durable what was effective. -/
theorem effective_commit (key : String) : k.commit.effective key = k.effective key := by
  unfold Keyspace.commit
  cases written : k.active.bind Transaction.written with
  | none => rfl
  | some write =>
    simp only [Keyspace.effective, Keyspace.counter, written, Option.bind_none, OrderedMap.get?_set]
    split <;> rfl

end Fits

/-- Transactions have one call each, and counters are handed out once for a key. -/
structure Tallied {ι : Type} (keys : ι → Option String) (k : Keyspace) (calls : ι → AllocatorStatus) : Prop where
  fits : ∀ call, Fits (keys call) k (calls call)
  single : ∀ call other id, transaction (calls call) = some id → transaction (calls other) = some id → call = other
  apart : ∀ call other key ctr, keys call = some key → keys other = some key →
    calls call = .finished (.ok (some ctr)) → calls other = .finished (.ok (some ctr)) → call = other

section Tally
variable {ι : Type} {keys : ι → Option String} {k k' : Keyspace} {calls : ι → AllocatorStatus} {call : ι}
  {site : AllocatorSite} {status : AllocatorStatus}

/-- A transaction that fits has been created. -/
theorem transaction_created {key : Option String} {id : ℕ} (fits : Fits key k status)
    (own : transaction status = some id) : id < k.created := by
  cases status with
  | running => cases own
  | finished outcome => cases own
  | suspended site =>
    cases site with
    | created _ =>
      cases own
      exact fits
    | reading _ =>
      cases own
      exact fits.1
    | writing _ _ =>
      cases own
      exact fits.1
    | start | opening | locking | committing | aborting _ => cases own

theorem Tallied.update [DecidableEq ι] (tallied : Tallied keys k calls)
    (others : ∀ other, other ≠ call → Fits (keys other) k' (calls other)) (own : Fits (keys call) k' status)
    (owns : ∀ id, transaction status = some id → ∀ other, other ≠ call → transaction (calls other) ≠ some id)
    (new : ∀ key ctr, keys call = some key → status = .finished (.ok (some ctr)) → ∀ other, other ≠ call →
      keys other = some key → calls other ≠ .finished (.ok (some ctr))) :
    Tallied keys k' (Function.update calls call status) where
  fits other := by
    by_cases same : other = call
    · subst same
      simpa using own
    · simpa [same] using others other same
  single one two id first second := by
    by_cases same : one = call
    · subst same
      by_contra apart
      rw [Function.update_self] at first
      rw [Function.update_of_ne (Ne.symm apart)] at second
      exact owns id first two (Ne.symm apart) second
    · rw [Function.update_of_ne same] at first
      by_cases here : two = call
      · subst here
        rw [Function.update_self] at second
        exact absurd first (owns id second one same)
      · rw [Function.update_of_ne here] at second
        exact tallied.single one two id first second
  apart one two key ctr counts counts' first second := by
    by_cases same : one = call
    · subst same
      by_contra apart
      rw [Function.update_self] at first
      rw [Function.update_of_ne (Ne.symm apart)] at second
      exact new key ctr counts first two (Ne.symm apart) counts' second
    · rw [Function.update_of_ne same] at first
      by_cases here : two = call
      · subst here
        rw [Function.update_self] at second
        exact absurd first (new key ctr counts' second one same counts)
      · rw [Function.update_of_ne here] at second
        exact tallied.apart one two key ctr counts counts' first second

/-- A call that ends with no counter. -/
theorem Tallied.ends [DecidableEq ι] (tallied : Tallied keys k calls) {outcome : Except JsError (Option ℕ)}
    (none : ∀ ctr, outcome ≠ .ok (some ctr)) (others : ∀ other, other ≠ call → Fits (keys other) k' (calls other)) :
    Tallied keys k' (Function.update calls call (.finished outcome)) := by
  apply tallied.update others
  · cases outcome with
    | error refused => trivial
    | ok value =>
      cases value with
      | none => trivial
      | some ctr => exact absurd rfl (none ctr)
  · intro _ owner
    cases owner
  · intro _ ctr _ ends
    cases ends
    exact absurd rfl (none ctr)

/-- A call that goes on in a transaction that no other call has. -/
theorem Tallied.waits [DecidableEq ι] (tallied : Tallied keys k calls) {next : AllocatorSite}
    (others : ∀ other, other ≠ call → Fits (keys other) k' (calls other))
    (own : Fits (keys call) k' (.suspended next))
    (owns : ∀ id, next.transaction = some id → ∀ other, other ≠ call → transaction (calls other) ≠ some id) :
    Tallied keys k' (Function.update calls call (.suspended next)) := by
  apply tallied.update others own owns
  intro _ _ _ ends
  cases ends

/-- A write that succeeds hands out the counter that it found. -/
theorem Tallied.writes [DecidableEq ι] (tallied : Tallied keys k calls) {id currentValue : ℕ} {counted : String}
    (here : Fits (keys call) k (.suspended (.writing id currentValue))) (running : k.running id = true)
    (own : keys call = some counted)
    (alone : ∀ other, other ≠ call → transaction (calls other) ≠ some id)
    (same : k'.ledger = ({ k with active := some { id, written := some (counted, currentValue + 1) } } :
      Keyspace).ledger) :
    Tallied keys k' (Function.update calls call (.finished (.ok (some currentValue)))) := by
  simp only [Keyspace.ledger, Prod.mk.injEq] at same
  obtain ⟨counters, active, created⟩ := same
  obtain ⟨tx, runs, same⟩ : ∃ tx, k.active = some tx ∧ tx.id = id := by
    cases active : k.active with
    | none => simp [Keyspace.running, active] at running
    | some tx => exact ⟨tx, rfl, by simpa [Keyspace.running, active] using running⟩
  obtain ⟨unwritten, current⟩ := here.2 tx runs same
  have before (key : String) : k.effective key = k.counter key := by
    simp [Keyspace.effective, runs, unwritten]
  have after (key : String) : k'.effective key = if key = counted then currentValue + 1 else k.counter key := by
    simp [Keyspace.effective, Keyspace.counter, active, counters]
  have value : currentValue = k.counter counted := current counted own
  apply tallied.update
  · intro other apart
    refine fits_apart (tallied.fits other) created.symm ?_ ?_
    · intro shared owner later found this
      rw [active] at found
      cases found
      exact alone other apart (owner.trans (congrArg some this.symm))
    · intro key
      rw [before, after]
      split
      · rename_i equal
        rw [equal, ← value]
        omega
      · exact le_rfl
  · intro key counts
    cases own.symm.trans counts
    rw [after, if_pos rfl]
    omega
  · intro _ owner
    cases owner
  · intro key ctr counts ends other _ counts' ends'
    cases ends
    cases own.symm.trans counts
    have below := tallied.fits other
    rw [ends'] at below
    have less : currentValue < k.effective counted := below counted counts'
    rw [before, ← value] at less
    omega

/-- A commit changes nothing that is effective. -/
theorem fits_commit {key : Option String} (fits : Fits key k status) : Fits key k.commit status := by
  cases written : k.active.bind Transaction.written with
  | none =>
    have same : k.commit = k := by simp [Keyspace.commit, written]
    rw [same]
    exact fits
  | some write =>
    have done : k.commit = { k with counters := k.counters.set write.1 write.2, active := none } := by
      simp [Keyspace.commit, written]
    refine fits_apart fits ?_ ?_ ?_
    · rw [done]
    · intro id _ tx running
      rw [done] at running
      cases running
    · intro key
      exact (effective_commit key).ge

/-- An abort of a transaction that has written nothing takes nothing back. -/
theorem fits_abort {key : Option String} {id : ℕ} (fits : Fits key k status)
    (kept : ∀ tx, k.active = some tx → tx.id = id → tx.written = none) : Fits key (k.abort id) status := by
  cases active : k.active with
  | none => exact fits_of fits rfl (by simp [Keyspace.abort, active]) le_rfl
  | some tx =>
    by_cases same : tx.id = id
    · have gone : (k.abort id).active = none := by simp [Keyspace.abort, active, same]
      refine fits_apart fits rfl ?_ ?_
      · intro _ _ later running
        rw [gone] at running
        cases running
      · intro key
        have before : k.effective key = k.counter key := by
          simp [Keyspace.effective, active, kept tx active same]
        have after : (k.abort id).effective key = k.counter key := by
          unfold Keyspace.effective
          rw [gone]
          rfl
        rw [before, after]
    · exact fits_of fits rfl (by simp [Keyspace.abort, active, same]) le_rfl

/-- No step but an abort of what has been written loses a counter. -/
theorem Tallied.step [DecidableEq ι] (tallied : Tallied keys k calls) (waits : calls call = .suspended site)
    (step : Step (keys call) site k status k')
    (kept : ∀ id, site = .aborting id → ∀ tx, k.active = some tx → tx.id = id → tx.written = none) :
    Tallied keys k' (Function.update calls call status) := by
  have here : Fits (keys call) k (.suspended site) := waits ▸ tallied.fits call
  have alone {id : ℕ} (own : site.transaction = some id) (other : ι) (apart : other ≠ call) :
      transaction (calls other) ≠ some id := by
    intro shared
    exact apart (tallied.single other call id shared (by rw [waits]; exact own))
  have still {other : ι} (same : k'.ledger = k.ledger) : Fits (keys other) k' (calls other) := by
    simp only [Keyspace.ledger, Prod.mk.injEq] at same
    exact fits_of (tallied.fits other) same.1 same.2.1 same.2.2.ge
  cases step with
  | @waits _ next _ _ early same =>
    apply tallied.waits (fun other _ => still same)
    · cases next <;> first | exact trivial | cases early
    · intro id own
      cases early.symm.trans own
  | creates own same =>
    simp only [Keyspace.ledger, Prod.mk.injEq] at same
    obtain ⟨counters, active, created⟩ := same
    apply tallied.waits
    · intro other _
      exact fits_of (tallied.fits other) counters active (by omega)
    · change k.created < k'.created
      omega
    · intro id fresh other _ shared
      cases fresh
      exact absurd (transaction_created (tallied.fits other) shared) (lt_irrefl _)
  | @begins id _ idle =>
    apply tallied.waits
    · intro other apart
      refine fits_apart (tallied.fits other) rfl ?_ ?_
      · intro shared owner tx running same
        cases running
        exact alone rfl other apart (owner.trans (congrArg some same.symm))
      · intro counted
        simp [Keyspace.effective, Keyspace.counter, idle]
    · refine ⟨here, fun tx running _ => ?_⟩
      cases running
      rfl
    · intro shared owner
      cases owner
      exact alone rfl
  | reads running own =>
    apply tallied.waits (fun other _ => tallied.fits other)
    · refine ⟨here.1, fun tx active same => ⟨here.2 tx active same, fun other counts => ?_⟩⟩
      cases own.symm.trans counts
      rfl
    · intro shared owner
      cases owner
      exact alone rfl
  | writes running own same => exact tallied.writes here running own (alone rfl) same
  | fails same => exact tallied.ends (by simp) fun other _ => still same
  | commits => exact tallied.ends (by simp) fun other _ => fits_commit (tallied.fits other)
  | @aborts id => exact tallied.ends (by simp) fun other _ => fits_abort (tallied.fits other) (kept id rfl)

end Tally

/-! ## Runs -/

/-- No transaction is aborted whose write has succeeded. -/
def LosesNothing : AllocatorSite → Keyspace → Prop
  | .aborting id, k => ∀ tx ∈ k.active, tx.id = id → tx.written = none
  | _, _ => True

instance (site : AllocatorSite) (k : Keyspace) : Decidable (LosesNothing site k) := by
  unfold LosesNothing
  split <;> infer_instance

/-- The gate of the runs in which no transaction loses a write. -/
def losesNothing {ι : Type} : AllocatorPool ι → ι → AllocatorPool ι → Prop := whereAllowed LosesNothing

instance {ι : Type} (before : AllocatorPool ι) (call : ι) (after : AllocatorPool ι) :
    Decidable (losesNothing before call after) :=
  inferInstanceAs (Decidable (whereAllowed LosesNothing before call after))

/-- Calls for one sender of one room return different counters. -/
def Apart {ι : Type} (calls : ι → AllocatorCall) (last : AllocatorPool ι) : Prop :=
  ∀ call other tab tab' roomId senderUid ctr, calls call = .next tab roomId senderUid →
    calls other = .next tab' roomId senderUid → last.statuses call = .finished (.ok (some ctr)) →
      last.statuses other = .finished (.ok (some ctr)) → call = other

/-- In every run in which no transaction is aborted after its write has succeeded,
the counters that are returned for a sender of a room are different. -/
theorem counters_apart {ι : Type} [DecidableEq ι] (keyspace : String) (counters : OrderedMap String ℕ)
    (calls : ι → AllocatorCall) {last : AllocatorPool ι}
    (run : Runs losesNothing (launch keyspace counters calls) last) : Apart calls last := by
  have begun (call : ι) : Fits (calls call).key { counters } (.suspended .start) := trivial
  have tallied : Tallied (fun call => (calls call).key) last.shared last.statuses := by
    refine runs_invariant (fun call => stepping (calls call).key) (fun call => Ends (calls call).key)
      (Tallied fun call => (calls call).key) ⟨begun, ?_, ?_⟩ (launch_follows fun call k _ => ?_)
      (fun _ _ _ _ _ _ _ _ => trivial) (fun before call site after tallied waits passes _ moved => ?_) run
    · intro _ _ _ owner
      cases owner
    · intro _ _ _ _ _ _ ends
      cases ends
    · apply Contract.keeps_mono (program_meets keyspace (calls call))
      intro site start outcome k ends
      cases outcome with
      | ok value => exact ends
      | error refused => exact ends
    · have kept (id : ℕ) (aborts : site = .aborting id) (tx : Transaction) (running : before.shared.active = some tx)
          (same : tx.id = id) : tx.written = none := by
        have allowed : LosesNothing site before.shared := passes site waits
        rw [aborts] at allowed
        exact allowed tx running same
      generalize after.statuses call = status at moved
      cases status with
      | running => exact moved.elim
      | suspended next => exact tallied.step waits moved kept
      | finished outcome => exact tallied.step waits moved kept
  intro call other tab tab' roomId senderUid ctr counts counts' ends ends'
  exact tallied.apart call other (idbKey roomId senderUid) ctr (by rw [counts]; rfl) (by rw [counts']; rfl) ends ends'

section Checked

def tab : Tab := { hasLocks := true, db := .ok () }

/-- Two increments of one tab, an abort of the first transaction and a commit. -/
def withAbort : Fin 4 → AllocatorCall
  | 0 | 1 => .next tab "room" "ann"
  | 2 => .abort 0
  | 3 => .commit

/-- A counter that was handed out before its transaction was aborted is handed out
again. -/
theorem aborted_counter_repeats : ¬ ∀ last : AllocatorPool (Fin 4),
    Runs anyTurn (launch "app" ∅ withAbort) last → Apart withAbort last := by
  intro apart
  have result : ((launch "app" ∅ withAbort).followPassing anyTurn
      [0, 0, 0, 0, 0, 0, 2, 2, 1, 1, 1, 1, 1, 1]).map (fun pool => (pool.statuses 0, pool.statuses 1)) =
      some (.finished (.ok (some 0)), .finished (.ok (some 0))) := by
    rfl
  obtain ⟨last, followed, shape⟩ := Option.map_eq_some_iff.mp result
  simp only [Prod.mk.injEq] at shape
  have same := apart last (followPassing_runs followed) 0 1 tab tab "room" "ann" 0 rfl rfl shape.1 shape.2
  cases same

/-- The first transaction commits before it could be aborted. -/
theorem counters_apart_committed : ∃ last : AllocatorPool (Fin 4), last.statuses 0 = .finished (.ok (some 0)) ∧
    last.statuses 1 = .finished (.ok (some 1)) ∧ Apart withAbort last := by
  have result : ((launch "app" ∅ withAbort).followPassing losesNothing
      [0, 0, 0, 0, 0, 0, 3, 3, 2, 2, 1, 1, 1, 1, 1, 1]).map (fun pool => (pool.statuses 0, pool.statuses 1)) =
      some (.finished (.ok (some 0)), .finished (.ok (some 1))) := by
    rfl
  obtain ⟨last, followed, shape⟩ := Option.map_eq_some_iff.mp result
  simp only [Prod.mk.injEq] at shape
  exact ⟨last, shape.1, shape.2, counters_apart "app" ∅ withAbort (followPassing_runs followed)⟩

end Checked
end SFrameRatchet.CtrAllocator
