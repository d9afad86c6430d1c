import Mathlib.Tactic.FinCases
import SFrameRatchet.MlsSpecimen

/-! Under which keys and counters a provider seals. A key is found by the peer id that
a sender's uid is mapped to and a counter is allocated for the uid itself, so two uids
of one peer share a key whose counters nobody keeps apart. -/
namespace SFrameRatchet.MlsNonces
open BigEndian Collections Coroutine Throwing Interleaving Crypto Kid KeyWrap Chat MlsChat

variable {K : Type}

/-- A call that sets an epoch or seals. -/
inductive SenderCall where
  | setEpoch (roomId : String) (params : MlsEpochParams)
  | seal_ (plaintext : Bytes) (context : SealContext)

def SenderCall.call : SenderCall → MlsCall
  | setEpoch roomId params => .setEpoch roomId params
  | seal_ plaintext context => .seal_ plaintext context

/-- The sender's key for an index of an epoch. -/
def senderKey (runtime : MlsRuntime K) (params : MlsEpochParams) (index : ℤ) : Except JsError (RatchetKey K) :=
  deriveSenderKeys runtime.crypto params.chainKey params.epoch index runtime.suite .fixed

/-- The allocator never answers twice with one counter for a sender. -/
def AllocatesOnce (runtime : MlsRuntime K) : Prop :=
  ∀ roomId senderUid first second ctr, runtime.nextCtr roomId senderUid first = .ok ctr →
    runtime.nextCtr roomId senderUid second = .ok ctr → first = second

section Calls
variable {ι : Type} (runtime : MlsRuntime K) (calls : ι → SenderCall)

/-- The parameters of an epoch of a room are delivered to it. -/
def Delivered (roomId : String) (params : MlsEpochParams) : Prop := ∃ call, calls call = .setEpoch roomId params

/-- Every epoch of every room has a chain key of its own, the same whenever it is
delivered, and a map in which no two peers have one index. -/
structure OwnChainKeys : Prop where
  same : ∀ roomId first second, Delivered calls roomId first → Delivered calls roomId second →
    first.epoch = second.epoch → first = second
  apart : ∀ roomId other first second, Delivered calls roomId first → Delivered calls other second →
    first.chainKey = second.chainKey → roomId = other ∧ first.epoch = second.epoch
  indices : ∀ roomId params, Delivered calls roomId params → params.peerIndexMap.values.Nodup

/-- Sender keys of different chain keys, or of different indices, are different. -/
def DerivesApart : Prop :=
  ∀ roomId other first second index next key nextKey, Delivered calls roomId first → Delivered calls other second →
    index ∈ first.peerIndexMap.values → next ∈ second.peerIndexMap.values → senderKey runtime first index = .ok key →
      senderKey runtime second next = .ok nextKey →
      key.cryptoKey = nextKey.cryptoKey → first.chainKey = second.chainKey ∧ index = next

end Calls

/-- No two frames are encrypted under one key with one counter. -/
def NoncesApart (log : List (MlsSealing K)) : Prop :=
  log.Pairwise fun first second => first.use.key.cryptoKey = second.use.key.cryptoKey → first.ctr = second.ctr →
    first.plaintext = second.plaintext

/-- Whoever seals as a peer of an epoch, nobody else has sealed as that peer. -/
def OneSenderPerPeer : ChatSite (MlsPlace K) → MlsProvider K → Prop
  | .own (.allocating use _), s => ∀ earlier ∈ s.own.sealings, earlier.use.context.roomId = use.context.roomId →
      earlier.use.epoch = use.epoch → earlier.use.peerId = use.peerId →
        earlier.use.context.senderUid = use.context.senderUid
  | _, _ => True

instance (site : ChatSite (MlsPlace K)) (s : MlsProvider K) : Decidable (OneSenderPerPeer site s) := by
  unfold OneSenderPerPeer
  split <;> infer_instance

/-! ## One call -/

/-- What one turn of a call does to the rooms and to the log. -/
inductive Step (runtime : MlsRuntime K) (settings : ReplaySettings) (call : SenderCall) :
    ChatSite (MlsPlace K) → MlsProvider K → MlsStatus K → MlsProvider K → Prop
  | idles {site status s} (here : ∀ use number, status ≠ .suspended (.own (.allocating use number))) :
    Step runtime settings call site s status s
  | installs {roomId params roomState s status} (own : call = .setEpoch roomId params)
    (derived : deriveRoomEpoch runtime params = .ok roomState)
    (here : ∀ use number, status ≠ .suspended (.own (.allocating use number))) :
    Step runtime settings call (.own .deriving_) s status (installEpoch settings s roomId roomState)
  | asks {use context s} (found : sealingKey runtime s context = .ok use) :
    Step runtime settings call .start s (.suspended (.own (.allocating use s.own.allocated)))
      { s with own.allocated := s.own.allocated + 1 }
  | seals {use number ctr plaintext s}
    (allocated : runtime.nextCtr use.context.roomId use.context.senderUid number = .ok ctr) :
    Step runtime settings call (.own (.allocating use number)) s (.suspended (.own .sealing))
      { s with own.sealings := s.own.sealings ++ [{ use, ctr, plaintext }] }

section Calls
variable (runtime : MlsRuntime K) (settings : ReplaySettings) (call : SenderCall)

/-- Every turn is a step; nothing is asked of the state at its beginning. -/
def stepping : Contract (ChatSite (MlsPlace K)) (MlsProvider K) where
  assume _ _ := True
  moves site start next s := Step runtime settings call site start (.suspended next) s

/-- The end of a call. -/
def Ends (site : ChatSite (MlsPlace K)) (start : MlsProvider K) (outcome : Except JsError (Option Bytes))
    (s : MlsProvider K) : Prop :=
  Step runtime settings call site start (.finished outcome) s

variable {runtime} in
/-- The key of a sender is found for its context. -/
theorem sealingKey_ok {s : MlsProvider K} {context : SealContext} {use : SenderUse K}
    (found : sealingKey runtime s context = .ok use) : use.context = context ∧ ∃ roomState,
      s.own.roomEpochs.get? context.roomId = some roomState ∧ use.epoch = roomState.epoch ∧
        roomState.keys.get? use.peerId = some use.key := by
  unfold sealingKey at found
  split at found
  · cases found
  · rename_i roomState installed
    dsimp only at found
    split at found
    · cases found
    · rename_i key held
      cases found
      exact ⟨rfl, roomState, installed, rfl, held⟩

/-- Every turn of a call is a step. -/
theorem program_keeps (s : MlsProvider K) : (stepping runtime settings call).Keeps
    (call.call.program runtime settings).run (Ends runtime settings call) .start s s := by
  apply keeps_of_meets
  cases call with
  | setEpoch roomId params =>
    apply meets_bind.mpr
    unfold setEpoch
    dsimp only
    split
    · exact Step.idles nofun
    · apply meets_bind.mpr
      apply meets_promised.mpr
      refine ⟨.idles nofun, fun later _ => ?_⟩
      cases derived : deriveRoomEpoch runtime params with
      | error refused => exact Step.idles nofun
      | ok roomState => exact Step.installs rfl derived nofun
  | seal_ plaintext context =>
    apply meets_bind.mpr
    unfold MlsChat.seal_
    apply meets_bind.mpr
    apply meets_read.mpr
    apply meets_bind.mpr
    apply meets_settle.mpr
    cases found : sealingKey runtime s context with
    | error refused => exact Step.idles nofun
    | ok use =>
      apply meets_bind.mpr
      apply meets_update.mpr
      apply meets_bind.mpr
      apply meets_promised.mpr
      refine ⟨.asks found, fun later _ => ?_⟩
      have own := (sealingKey_ok found).1
      cases allocated : runtime.nextCtr context.roomId context.senderUid s.own.allocated with
      | error refused => exact Step.idles nofun
      | ok ctr =>
        apply meets_bind.mpr
        apply meets_update.mpr
        apply meets_promised.mpr
        refine ⟨.seals (own ▸ allocated), fun last _ => ?_⟩
        split
        · exact Step.idles nofun
        · exact Step.idles nofun

end Calls

/-! ## Runs -/

section Runs
variable {ι : Type} (runtime : MlsRuntime K) (calls : ι → SenderCall)

/-- A key has been found in an epoch that was delivered to the room. -/
def Found (use : SenderUse K) : Prop :=
  ∃ params index full, Delivered calls use.context.roomId params ∧ params.epoch = use.epoch ∧
    params.peerIndexMap.get? use.peerId = some index ∧ senderKey runtime params index = .ok full ∧
      full.toSFrameKey = use.key

/-- A call waits for the answer to its request for a counter. -/
def Requests (status : MlsStatus K) (use : SenderUse K) (number : ℕ) : Prop :=
  status = .suspended (.own (.allocating use number))

/-- Every counter in the log answers a request that nobody waits for any more. -/
structure Sealing (s : MlsProvider K) (statuses : ι → MlsStatus K) : Prop where
  rooms : ∀ roomId roomState, s.own.roomEpochs.get? roomId = some roomState → ∃ params,
    Delivered calls roomId params ∧ deriveRoomEpoch runtime params = .ok roomState
  requests : ∀ call use number, Requests (statuses call) use number → number < s.own.allocated ∧ Found runtime calls use
  single : ∀ call other use next number, Requests (statuses call) use number → Requests (statuses other) next number →
    call = other
  logged : ∀ earlier ∈ s.own.sealings, Found runtime calls earlier.use ∧ ∃ number < s.own.allocated,
    runtime.nextCtr earlier.use.context.roomId earlier.use.context.senderUid number = .ok earlier.ctr
  answered : ∀ earlier ∈ s.own.sealings, ∀ call use number, Requests (statuses call) use number →
    runtime.nextCtr earlier.use.context.roomId earlier.use.context.senderUid number ≠ .ok earlier.ctr
  apart : NoncesApart s.own.sealings

variable {runtime calls}

/-- Two keys that are the same belong to one peer of one epoch of one room. -/
theorem same_key (own : OwnChainKeys calls) (derives : DerivesApart runtime calls) {first second : SenderUse K}
    (one : Found runtime calls first) (two : Found runtime calls second)
    (same : first.key.cryptoKey = second.key.cryptoKey) :
    first.context.roomId = second.context.roomId ∧ first.epoch = second.epoch ∧ first.peerId = second.peerId := by
  obtain ⟨params, index, full, delivered, epoch, listed, derived, key⟩ := one
  obtain ⟨others, next, other, deliveredOther, epochOther, listedOther, derivedOther, keyOther⟩ := two
  rw [← key, ← keyOther] at same
  have listed := OrderedMap.mem_entries.mpr listed
  have listedOther := OrderedMap.mem_entries.mpr listedOther
  obtain ⟨chain, rfl⟩ := derives _ _ params others index next full other delivered deliveredOther
    (List.mem_map.mpr ⟨_, listed, rfl⟩) (List.mem_map.mpr ⟨_, listedOther, rfl⟩) derived derivedOther same
  obtain ⟨room, epochs⟩ := own.apart _ _ params others delivered deliveredOther chain
  rw [← room] at deliveredOther
  obtain rfl := own.same _ params others delivered deliveredOther epochs
  refine ⟨room, epoch.symm.trans epochOther, ?_⟩
  exact congrArg Prod.fst (List.inj_on_of_nodup_map (own.indices _ params delivered) listed listedOther rfl)

variable [DecidableEq ι] {settings : ReplaySettings} {s s' : MlsProvider K} {statuses : ι → MlsStatus K} {call : ι}
  {site : ChatSite (MlsPlace K)} {status : MlsStatus K}

/-- A call that has stopped waiting, or never waited, for a counter. -/
theorem Sealing.quiet (sealing : Sealing runtime calls s statuses)
    (here : ∀ use number, status ≠ .suspended (.own (.allocating use number)))
    (rooms : ∀ roomId roomState, s'.own.roomEpochs.get? roomId = some roomState → ∃ params,
      Delivered calls roomId params ∧ deriveRoomEpoch runtime params = .ok roomState)
    (allocated : s'.own.allocated = s.own.allocated)
    (logged : ∀ earlier ∈ s'.own.sealings, earlier ∉ s.own.sealings → Found runtime calls earlier.use ∧
      (∃ number < s.own.allocated,
        runtime.nextCtr earlier.use.context.roomId earlier.use.context.senderUid number = .ok earlier.ctr) ∧
      ∀ other use number, other ≠ call → Requests (statuses other) use number →
        runtime.nextCtr earlier.use.context.roomId earlier.use.context.senderUid number ≠ .ok earlier.ctr)
    (apart : NoncesApart s'.own.sealings) : Sealing runtime calls s' (Function.update statuses call status) := by
  have others {other : ι} {use : SenderUse K} {number : ℕ}
      (asks : Requests (Function.update statuses call status other) use number) :
      other ≠ call ∧ Requests (statuses other) use number := by
    by_cases same : other = call
    · subst same
      rw [Function.update_self] at asks
      exact absurd asks (here use number)
    · rw [Function.update_of_ne same] at asks
      exact ⟨same, asks⟩
  refine ⟨rooms, ?_, ?_, ?_, ?_, apart⟩
  · intro other use number asks
    rw [allocated]
    exact sealing.requests other use number (others asks).2
  · intro first second use next number one two
    exact sealing.single first second use next number (others one).2 (others two).2
  · intro earlier member
    rw [allocated]
    by_cases old : earlier ∈ s.own.sealings
    · exact sealing.logged earlier old
    · exact ⟨(logged earlier member old).1, (logged earlier member old).2.1⟩
  · intro earlier member other use number asks
    by_cases old : earlier ∈ s.own.sealings
    · exact sealing.answered earlier old other use number (others asks).2
    · exact (logged earlier member old).2.2 other use number (others asks).1 (others asks).2

/-- A step keeps nonces apart, when nobody else has sealed as the peer. -/
theorem Sealing.step (sealing : Sealing runtime calls s statuses) (allocates : AllocatesOnce runtime)
    (own : OwnChainKeys calls) (derives : DerivesApart runtime calls) (waits : statuses call = .suspended site)
    (sole : OneSenderPerPeer site s) (step : Step runtime settings (calls call) site s status s') :
    Sealing runtime calls s' (Function.update statuses call status) := by
  cases step with
  | idles here =>
    apply sealing.quiet here sealing.rooms rfl _ sealing.apart
    intro earlier member fresh
    exact absurd member fresh
  | @installs roomId params roomState _ _ named derived here =>
    refine sealing.quiet here ?_ ?_ ?_ ?_
    · intro other held installed
      change (s.own.roomEpochs.set roomId roomState).get? other = some held at installed
      rw [OrderedMap.get?_set] at installed
      split at installed
      · rename_i same
        cases installed
        exact ⟨params, ⟨call, same ▸ named⟩, derived⟩
      · exact sealing.rooms other held installed
    · rfl
    · intro earlier member fresh
      exact absurd member fresh
    · exact sealing.apart
  | @asks use context _ found =>
    obtain ⟨rfl, roomState, installed, epoch, held⟩ := sealingKey_ok found
    obtain ⟨params, delivered, derived⟩ := sealing.rooms _ _ installed
    obtain ⟨same, keys, -⟩ := deriveRoomEpoch_ok derived
    obtain ⟨index, full, listed, key, shape⟩ := keys _ _ held
    have legit : Found runtime calls use :=
      ⟨params, index, full, delivered, (epoch.trans same).symm, listed, key, shape⟩
    have others {other : ι} {next : SenderUse K} {number : ℕ} (asks : Requests (Function.update statuses call
        (.suspended (.own (.allocating use s.own.allocated))) other) next number) :
        other = call ∧ next = use ∧ number = s.own.allocated ∨
          other ≠ call ∧ Requests (statuses other) next number := by
      by_cases same : other = call
      · subst same
        rw [Function.update_self] at asks
        cases asks
        exact .inl ⟨rfl, rfl, rfl⟩
      · rw [Function.update_of_ne same] at asks
        exact .inr ⟨same, asks⟩
    refine ⟨sealing.rooms, ?_, ?_, ?_, ?_, sealing.apart⟩
    · intro other next number asks
      rcases others asks with ⟨-, rfl, rfl⟩ | ⟨-, before⟩
      · exact ⟨Nat.lt_succ_self _, legit⟩
      · exact ⟨Nat.lt_succ_of_lt (sealing.requests other next number before).1,
          (sealing.requests other next number before).2⟩
    · intro first second next another number one two
      rcases others one with ⟨rfl, -, rfl⟩ | ⟨-, before⟩
      · rcases others two with ⟨rfl, -, -⟩ | ⟨-, before⟩
        · rfl
        · exact absurd (sealing.requests _ _ _ before).1 (lt_irrefl _)
      · rcases others two with ⟨-, -, rfl⟩ | ⟨-, later⟩
        · exact absurd (sealing.requests _ _ _ before).1 (lt_irrefl _)
        · exact sealing.single first second next another number before later
    · intro earlier member
      obtain ⟨legit, number, small, answer⟩ := sealing.logged earlier member
      exact ⟨legit, number, Nat.lt_succ_of_lt small, answer⟩
    · intro earlier member other next number asks again
      rcases others asks with ⟨-, -, rfl⟩ | ⟨-, before⟩
      · obtain ⟨-, number, small, answer⟩ := sealing.logged earlier member
        rw [allocates _ _ _ _ _ answer again] at small
        exact lt_irrefl _ small
      · exact sealing.answered earlier member other next number before again
  | @seals use number ctr plaintext _ answer =>
    have here : Requests (statuses call) use number := waits
    obtain ⟨small, legit⟩ := sealing.requests call use number here
    refine sealing.quiet ?_ sealing.rooms ?_ ?_ ?_
    · intro _ _ never
      cases never
    · rfl
    · intro earlier member fresh
      have latest : earlier = ⟨use, ctr, plaintext⟩ := by
        rcases List.mem_append.mp member with old | last
        · exact absurd old fresh
        · exact List.mem_singleton.mp last
      subst latest
      refine ⟨legit, ⟨number, small, answer⟩, fun other next another apart asks again => ?_⟩
      obtain rfl := allocates _ _ _ _ _ answer again
      exact apart (sealing.single other call next use number asks here)
    · apply List.pairwise_append.mpr
      refine ⟨sealing.apart, List.pairwise_singleton _ _, ?_⟩
      intro earlier member latest last key counter
      obtain rfl := List.mem_singleton.mp last
      exfalso
      obtain ⟨room, epoch, peer⟩ := same_key own derives (sealing.logged earlier member).1 legit key
      have sender := sole earlier member room epoch peer
      apply sealing.answered earlier member call use number here
      rw [room, sender, show earlier.ctr = ctr from counter]
      exact answer

omit [DecidableEq ι] in
theorem sealing_launch (settings : ReplaySettings) (store : OrderedMap String (List ℕ)) :
    Sealing runtime calls (.create settings {} store) fun _ => .suspended .start where
  rooms _ _ installed := by cases installed
  requests _ _ _ asks := by cases asks
  single _ _ _ _ _ asks := by cases asks
  logged _ member := by cases member
  answered _ member := by cases member
  apart := .nil

end Runs

/-- In every run of calls in which nobody seals as a peer of an epoch as whom another
sender has sealed in it, no two frames are sealed under one key with one counter. -/
theorem nonces_apart {ι : Type} [DecidableEq ι] (runtime : MlsRuntime K) (settings : ReplaySettings)
    (store : OrderedMap String (List ℕ)) (calls : ι → SenderCall) (allocates : AllocatesOnce runtime)
    (own : OwnChainKeys calls) (derives : DerivesApart runtime calls) {last : MlsPool ι K}
    (run : Runs (whereAllowed OneSenderPerPeer)
      (launch runtime settings (.create settings {} store) fun call => (calls call).call) last) :
    NoncesApart last.shared.own.sealings := by
  have sealing : Sealing runtime calls last.shared last.statuses := by
    apply runs_invariant (fun call => stepping runtime settings (calls call))
      (fun call => Ends runtime settings (calls call)) (Sealing runtime calls) (sealing_launch settings store)
      (launch_follows fun call s _ => program_keeps runtime settings (calls call) s) (fun _ _ _ _ _ _ _ _ => trivial)
      _ run
    intro before call site after sealing waits sole _ moved
    have allowed := sole site waits
    generalize after.statuses call = status at moved
    cases status with
    | running => exact moved.elim
    | suspended next => exact sealing.step allocates own derives waits allowed moved
    | finished outcome => exact sealing.step allocates own derives waits allowed moved
  exact sealing.apart

section Checked
open MlsSpecimen (runtime settings provider params ann)

/-- One epoch of the room, and two frames of one peer in it, by senders of two uids or of one. -/
def twoFrames (uid : String) : Fin 3 → SenderCall
  | 0 => .setEpoch "room" (params 1)
  | 1 => .seal_ [1] ann
  | 2 => .seal_ [2] ⟨"room", uid⟩

/-- Every uid is mapped to ann's peer id, and the allocator counts for each uid. -/
def aliasing : MlsRuntime Bytes :=
  { runtime with
    uidToPeerId := fun _ => "ann"
    nextCtr := fun _ senderUid number => .ok (if senderUid = "ann" then number + 1 else number) }

theorem aliasing_allocates : AllocatesOnce aliasing := by
  intro roomId senderUid first second ctr one two
  simp only [aliasing, Except.ok.injEq] at one two
  by_cases own : senderUid = "ann"
  · simp only [own, ↓reduceIte] at one two
    omega
  · simp only [own, ↓reduceIte] at one two
    omega

theorem runtime_allocates : AllocatesOnce runtime := by
  intro roomId senderUid first second ctr one two
  cases one
  cases two
  rfl

theorem twoFrames_delivered {uid roomId : String} {delivered : MlsEpochParams}
    (made : Delivered (twoFrames uid) roomId delivered) : roomId = "room" ∧ delivered = params 1 := by
  obtain ⟨call, made⟩ := made
  fin_cases call
  · cases made
    exact ⟨rfl, rfl⟩
  · cases made
  · cases made

theorem twoFrames_own (uid : String) : OwnChainKeys (twoFrames uid) where
  same _ _ _ one two _ := (twoFrames_delivered one).2.trans (twoFrames_delivered two).2.symm
  apart _ _ _ _ one two _ := by
    obtain ⟨rfl, rfl⟩ := twoFrames_delivered one
    obtain ⟨rfl, rfl⟩ := twoFrames_delivered two
    exact ⟨rfl, rfl⟩
  indices _ _ one := by
    obtain ⟨-, rfl⟩ := twoFrames_delivered one
    decide

theorem twoFrames_derives (uid : String) {named : MlsRuntime Bytes} (crypto : named.crypto = Specimen.crypto)
    (suite : named.suite = .aes128GcmSha256) : DerivesApart named (twoFrames uid) := by
  intro _ _ first second index next key nextKey one two member memberNext derived derivedNext same
  obtain ⟨-, rfl⟩ := twoFrames_delivered one
  obtain ⟨-, rfl⟩ := twoFrames_delivered two
  refine ⟨rfl, ?_⟩
  have apart : ∀ index ∈ (params 1).peerIndexMap.values, ∀ next ∈ (params 1).peerIndexMap.values,
      (senderKey runtime (params 1) index).map (·.cryptoKey) = (senderKey runtime (params 1) next).map (·.cryptoKey) →
        index = next := by
    decide +kernel
  apply apart index member next memberNext
  rw [senderKey, crypto, suite] at derived derivedNext
  rw [show senderKey runtime (params 1) index = .ok key from derived,
    show senderKey runtime (params 1) next = .ok nextKey from derivedNext]
  exact congrArg Except.ok same

/-- Two sealings of different plaintexts, under one key and with one counter. -/
def sharesNonce : List (MlsSealing Bytes) → Bool
  | [first, second] => decide (first.use.key.cryptoKey = second.use.key.cryptoKey ∧ first.ctr = second.ctr ∧
      first.plaintext ≠ second.plaintext)
  | _ => false

/-- Two senders that are one peer get one counter each, the same. -/
theorem nonce_shared_by_senders : AllocatesOnce aliasing ∧ OwnChainKeys (twoFrames "anna") ∧
    DerivesApart aliasing (twoFrames "anna") ∧ ∃ last : MlsPool (Fin 3) Bytes,
      Runs anyTurn (launch aliasing settings provider fun call => (twoFrames "anna" call).call) last ∧
        ¬ NoncesApart last.shared.own.sealings := by
  refine ⟨aliasing_allocates, twoFrames_own "anna", twoFrames_derives "anna" rfl rfl, ?_⟩
  have result : ((launch aliasing settings provider fun call => (twoFrames "anna" call).call).followPassing anyTurn
      [0, 0, 1, 2, 1, 2]).map (fun pool => sharesNonce pool.shared.own.sealings) = some true := by
    decide +kernel
  obtain ⟨last, followed, shape⟩ := Option.map_eq_some_iff.mp result
  refine ⟨last, followPassing_runs followed, fun apart => ?_⟩
  unfold sharesNonce at shape
  split at shape
  · rename_i first second log
    obtain ⟨key, ctr, different⟩ := of_decide_eq_true shape
    rw [log] at apart
    exact different (List.rel_of_pairwise_cons apart List.mem_cons_self key ctr)
  · cases shape

/-- One sender gets two counters. -/
theorem nonces_apart_for_ann : ∃ last : MlsPool (Fin 3) Bytes, last.shared.own.sealings.length = 2 ∧
    NoncesApart last.shared.own.sealings := by
  have result : ((launch runtime settings provider fun call => (twoFrames "ann" call).call).followPassing
      (whereAllowed OneSenderPerPeer) [0, 0, 1, 2, 2, 1, 1, 2]).map (fun pool => pool.shared.own.sealings.length) =
      some 2 := by
    decide +kernel
  obtain ⟨last, followed, two⟩ := Option.map_eq_some_iff.mp result
  exact ⟨last, two, nonces_apart runtime settings ∅ (twoFrames "ann") runtime_allocates (twoFrames_own "ann")
    (twoFrames_derives "ann" rfl rfl) (followPassing_runs followed)⟩

end Checked
end SFrameRatchet.MlsNonces
