import Mathlib.Tactic.FinCases
import SFrameRatchet.Announcing
import SFrameRatchet.RoomSpecimen

/-! The versions an author gives to its epochs. A call reads the current epoch
when it begins and installs the next one after a wait, so calls that overlap
between the two take the same version. Where none do, a version stands for one
chain key and one map, as long as no timer zeroes the key of an epoch that is
still being announced. -/
namespace SFrameRatchet.EpochVersions
open BigEndian Collections Coroutine Throwing Interleaving Crypto JsObject Kid KeyWrap PeerIds Room RoomRatchet
open Announcing

variable {K : Type}

/-- The calls of an author that leaves the version and the chain key to the
ratchet, and the timers. -/
inductive AuthorCall where
  | startNewEpoch (members : List PeerIdentity)
  | rotateOnMemberChange (delta : MemberChange)
  | forgetTimer (epoch : ℤ)

namespace AuthorCall

def call : AuthorCall → RatchetCall
  | startNewEpoch members => .startNewEpoch members none none
  | rotateOnMemberChange delta => .rotateOnMemberChange delta
  | forgetTimer epoch => .forgetTimer epoch

/-- The identities that a call tells the ratchet. -/
def tells : AuthorCall → List PeerIdentity
  | startNewEpoch members => members
  | rotateOnMemberChange (.join peer) | rotateOnMemberChange (.reconnect peer) => [peer]
  | rotateOnMemberChange (.leave _) | forgetTimer _ => []

end AuthorCall

abbrev RatchetStatus := Status RatchetSite (Except JsError (List EpochAnnouncement))

/-! ## Steps -/

/-- The epochs are the same, and the buffers that were there. -/
structure Grown (r r' : RoomRatchet K) : Prop where
  epochs : r'.epochs = r.epochs
  current : r'.currentEpoch = r.currentEpoch
  next : r.chainKeys.next ≤ r'.chainKeys.next
  buffers : ∀ ref, ref < r.chainKeys.next → r'.chainKeys.read ref = r.chainKeys.read ref

/-- A draft for the version after the current one, in a buffer of its own. -/
structure Drafted (draft : EpochDraft) (r r' : RoomRatchet K) : Prop where
  version : draft.version = r.currentEpoch + 1
  fresh : draft.chainKey = r.chainKeys.next
  stored : draft.chainKey < r'.chainKeys.next
  minted : r'.chainKeys.read draft.chainKey = draft.minted
  grown : Grown r r'

/-- A draft has been installed. -/
structure Installed (draft : EpochDraft) (r r' : RoomRatchet K) : Prop where
  epochs : ∃ entry : EpochState K, entry.chainKey = draft.chainKey ∧ r'.epochs = r.epochs.set draft.version entry
  current : r'.currentEpoch = max r.currentEpoch draft.version
  buffers : r'.chainKeys = r.chainKeys

section Steps
variable (platform : Platform K) (options : RatchetOptions) (given : PeerIdentity → Prop)

/-- The announcement wraps a draft for a peer that the author was told of. -/
def Carries (draft : EpochDraft) (msg : EpochAnnouncement) : Prop :=
  ∃ peer dhSecret, given peer ∧ Announces platform options.identity.peerId draft peer msg dhSecret

/-- What one turn of an author's call does. -/
inductive Step : RatchetSite → RoomRatchet K → RatchetStatus → RoomRatchet K → Prop
  | mints {draft r derives r'} (drafted : Drafted draft r r') :
    Step .start r (.suspended (.keying draft derives)) r'
  | declines {r outcome r'} (silent : ∀ msgs, outcome = .ok msgs → msgs = []) (grown : Grown r r') :
    Step .start r (.finished outcome) r'
  | sleeps {r epoch} : Step .start r (.suspended (.timer epoch)) r
  | refuses {draft r error r'} (grown : Grown r r') : Step (.keying draft false) r (.finished (.error error)) r'
  | installs {draft r r'} (installed : Installed draft r r') :
    Step (.keying draft true) r (.suspended (.wrapping draft false)) r'
  | keeps {draft r r'} (installed : Installed draft r r') : Step (.keying draft true) r (.finished (.ok [])) r'
  | wraps {draft verifies next r r'} (grown : Grown r r') :
    Step (.wrapping draft verifies) r (.suspended (.wrapping draft next)) r'
  | announces {draft verifies r msgs r'} (all : ∀ msg ∈ msgs, Carries platform options given draft msg)
    (grown : Grown r r') : Step (.wrapping draft verifies) r (.finished (.ok msgs)) r'
  | fails {draft verifies r error r'} (grown : Grown r r') :
    Step (.wrapping draft verifies) r (.finished (.error error)) r'
  | fires {epoch r} : Step (.timer epoch) r (.finished (.ok []))
    ({ r with forgetTimers := r.forgetTimers.erase epoch }.forgetEpoch epoch)

/-- The author has been told of all the peers it knows. -/
def Known (r : RoomRatchet K) : Prop := ∀ peerId peer, r.peers.get? peerId = some peer → given peer

/-- A call that announces an epoch finds the chain key it got. -/
def Holds : RatchetSite → RoomRatchet K → Prop
  | .wrapping draft _, r => r.chainKeys.read draft.chainKey = draft.minted
  | _, _ => True

def authoring : Contract RatchetSite (RoomRatchet K) where
  assume site r := Known given r ∧ Holds site r
  moves site start next r := Step platform options given site start (.suspended next) r ∧ Known given r

/-- The end of a call. -/
def Ends (site : RatchetSite) (start : RoomRatchet K) (outcome : Except JsError (List EpochAnnouncement))
    (r : RoomRatchet K) : Prop :=
  Step platform options given site start (.finished outcome) r ∧ Known given r

end Steps

theorem Grown.refl (r : RoomRatchet K) : Grown r r := ⟨rfl, rfl, le_rfl, fun _ _ => rfl⟩

/-- Neither new members nor random values nor strings touch the epochs. -/
theorem Grown.of {first r r' : RoomRatchet K} (grown : Grown first r) (epochs : r'.epochs = r.epochs)
    (current : r'.currentEpoch = r.currentEpoch) (buffers : r'.chainKeys = r.chainKeys) : Grown first r' where
  epochs := epochs.trans grown.epochs
  current := current.trans grown.current
  next := by rw [buffers]; exact grown.next
  buffers ref old := by rw [buffers]; exact grown.buffers ref old

section Calls
variable {platform : Platform K} {options : RatchetOptions} {given : PeerIdentity → Prop} {site : RatchetSite}
  {start r r' : RoomRatchet K} {draft : EpochDraft}

/-- The call has installed its draft and not waited since, or it has waited since. -/
def Underway (draft : EpochDraft) (site : RatchetSite) (start r : RoomRatchet K) : Prop :=
  site = .keying draft true ∧ Installed draft start r ∨ (∃ verifies, site = .wrapping draft verifies) ∧ Grown start r

theorem Underway.of (underway : Underway draft site start r) (epochs : r'.epochs = r.epochs)
    (current : r'.currentEpoch = r.currentEpoch) (buffers : r'.chainKeys = r.chainKeys) :
    Underway draft site start r' := by
  rcases underway with ⟨here, entry, advanced, same⟩ | ⟨here, grown⟩
  · refine .inl ⟨here, ?_, current.trans advanced, buffers.trans same⟩
    rw [epochs]
    exact entry
  · exact .inr ⟨here, grown.of epochs current buffers⟩

theorem Underway.moves (underway : Underway draft site start r) (known : Known given r) :
    (authoring platform options given).moves site start (.wrapping draft false) r := by
  rcases underway with ⟨rfl, installed⟩ | ⟨⟨_, rfl⟩, grown⟩
  · exact ⟨.installs installed, known⟩
  · exact ⟨.wraps grown, known⟩

theorem wrapChainKeyForPeer_meets {peer : PeerIdentity} (told : given peer)
    (underway : Underway draft site start r) (known : Known given r) :
    Meets (authoring platform options given) (wrapChainKeyForPeer platform options peer draft)
      (fun site start wrapped r => site = .wrapping draft false ∧ Grown start r ∧ Known given r ∧
        Carries platform options given draft wrapped.1)
      (fun site start _ r => site = .wrapping draft false ∧ Grown start r ∧ Known given r) site start r := by
  simp only [wrapChainKeyForPeer, meets_bind, meets_read, meets_update]
  have drawn : Underway draft site start r.draw := underway.of rfl rfl rfl
  refine meets_awaiting.mpr ⟨drawn.moves known, fun first resumed => ?_⟩
  cases agreed : x25519Dh platform (platform.secretKey r.drawn) peer.publicKey with
  | error refused => exact ⟨rfl, .refl first, resumed.1⟩
  | ok dhSecret =>
    refine meets_pause.mpr ⟨⟨.wraps (.refl first), resumed.1⟩, fun second resumed => ?_⟩
    refine meets_awaiting.mpr ⟨⟨.wraps ((Grown.refl second).of rfl rfl rfl), resumed.1⟩, fun third later => ?_⟩
    have held : second.chainKeys.read draft.chainKey = draft.minted := resumed.2
    rw [held]
    cases wrapped : wrapChainKey platform draft.minted (deriveWrapKey platform dhSecret draft.version)
        (platform.randomValues second.drawn wrapIvBytes) with
    | error refused => exact ⟨rfl, .refl third, later.1⟩
    | ok keyWrapped =>
      exact ⟨rfl, .refl third, later.1, peer, dhSecret, told, rfl, rfl, rfl, rfl, _, rfl, agreed, wrapped⟩

theorem announce_meets {members : List PeerIdentity} (told : ∀ peer ∈ members, given peer)
    {out : List EpochAnnouncement} (sent : ∀ msg ∈ out, Carries platform options given draft msg)
    (first : site = .keying draft true → out = []) (underway : Underway draft site start r)
    (known : Known given r) :
    Meets (authoring platform options given) (announce platform options draft members out)
      (fun site start msgs r => Ends platform options given site start (.ok msgs) r)
      (fun site start error r => Ends platform options given site start (.error error) r) site start r := by
  induction members generalizing out site start r with
  | nil =>
    rcases underway with ⟨rfl, installed⟩ | ⟨⟨_, rfl⟩, grown⟩
    · rw [first rfl]
      exact ⟨.keeps installed, known⟩
    · exact ⟨.announces sent grown, known⟩
  | cons peer rest ih =>
    rw [List.forall_mem_cons] at told
    unfold announce
    split
    · exact ih told.2 sent first underway known
    · refine meets_bind.mpr (meets_mono (wrapChainKeyForPeer_meets told.1 underway known) ?_ ?_)
      · rintro site start wrapped r ⟨rfl, grown, known, carries⟩
        refine meets_bind.mpr (meets_bind.mpr (meets_awaiting.mpr ⟨⟨.wraps grown, known⟩, fun later resumed => ?_⟩))
        cases Sas.computeSas platform.crypto wrapped.2 with
        | error refused => exact ⟨.fails (.refl later), resumed.1⟩
        | ok data =>
          refine ih told.2 (fun msg member => ?_) (fun here => by cases here)
            (.inr ⟨⟨_, rfl⟩, (Grown.refl later).of rfl rfl rfl⟩) resumed.1
          rcases List.mem_append.mp member with earlier | last
          · exact sent msg earlier
          · rw [List.mem_singleton.mp last]
            exact carries
      · rintro site start error r ⟨rfl, grown, known⟩
        exact ⟨.fails grown, known⟩

theorem installEpoch_meets (drafted : Drafted draft start r) (known : Known given r) :
    Meets (authoring platform options given) (installEpoch platform options draft)
      (fun site start _ r => site = .keying draft true ∧ Installed draft start r ∧ Known given r)
      (fun site start error r => Ends platform options given site start (.error error) r) .start start r := by
  unfold installEpoch
  dsimp only
  split
  · exact ⟨.declines (fun _ same => by cases same) drafted.grown, known⟩
  · refine meets_bind.mpr (meets_read.mpr (meets_bind.mpr (meets_awaiting.mpr ⟨⟨.mints drafted, known⟩, ?_⟩)))
    intro later resumed
    cases deriveEpochKeyTable platform.crypto (r.chainKeys.read draft.chainKey) draft.version draft.peerIndexMap
        options.suite options.kidCodec with
    | error refused => exact ⟨.refuses (.refl later), resumed.1⟩
    | ok keys =>
      refine meets_update.mpr ⟨rfl, ⟨⟨_, rfl, install_epochs _ _ _⟩, install_currentEpoch _ _ _,
        install_chainKeys _ _ _⟩, ?_⟩
      rw [Known, install_peers]
      exact resumed.1

/-- A call that begins an epoch does so with a chain key that it draws itself. -/
theorem startNewEpoch_meets {members : List PeerIdentity} (told : ∀ peer ∈ members, given peer)
    (grown : Grown start r) (buffers : r.chainKeys = start.chainKeys) :
    Meets (authoring platform options given) (RoomRatchet.startNewEpoch platform options members none none)
      (fun site start msgs r => Ends platform options given site start (.ok msgs) r)
      (fun site start error r => Ends platform options given site start (.error error) r) .start start r := by
  have known : Known given { r with peers := peerMap members } := fun _ peer found => told peer (get?_peerMap found).1
  refine meets_bind.mpr (meets_bind.mpr (meets_update.mpr (meets_bind.mpr (meets_read.mpr ?_))))
  dsimp only
  split
  · -- The chain key is drawn into a buffer that nobody has.
    refine meets_bind.mpr (meets_update.mpr (meets_pure.mpr (meets_bind.mpr ?_)))
    refine meets_mono (installEpoch_meets ⟨?_, ?_, ?_, ?_, ?_⟩ known) ?_ fun _ _ _ _ held => held
    · rw [Option.getD_none, grown.current]
    · rw [buffers]
    · exact Nat.lt_succ_self _
    · simp [store, draw]
    · refine ⟨grown.epochs, grown.current, ?_, fun ref old => ?_⟩
      · exact grown.next.trans (Nat.le_succ _)
      · have apart : ref ≠ start.chainKeys.next := Nat.ne_of_lt old
        simp [store, draw, apart, buffers]
    · rintro site start _ r ⟨rfl, installed, known⟩
      exact announce_meets told (fun _ none => by cases none) (fun _ => rfl) (.inl ⟨rfl, installed⟩) known
  · exact ⟨.declines (fun _ same => by cases same) (grown.of rfl rfl rfl), known⟩

theorem rotateOnMemberChange_meets {delta : MemberChange}
    (told : ∀ peer ∈ (AuthorCall.rotateOnMemberChange delta).tells, given peer) (known : Known given r) :
    Meets (authoring platform options given) (RoomRatchet.rotateOnMemberChange platform options delta)
      (fun site start msgs r => Ends platform options given site start (.ok msgs) r)
      (fun site start error r => Ends platform options given site start (.error error) r) .start r r := by
  have goesOn (peers : OrderedMap JsString PeerIdentity)
      (known : ∀ peerId peer, peers.get? peerId = some peer → given peer) :
      Meets (authoring platform options given)
        (if isAuthoritativeAuthor { r with peers } options then
          RoomRatchet.startNewEpoch platform options peers.values none none
        else return [])
        (fun site start msgs r => Ends platform options given site start (.ok msgs) r)
        (fun site start error r => Ends platform options given site start (.error error) r) .start r
        { r with peers } := by
    split
    · refine startNewEpoch_meets (fun peer member => ?_) ((Grown.refl r).of rfl rfl rfl) rfl
      obtain ⟨peerId, found⟩ := OrderedMap.mem_values.mp member
      exact known peerId peer found
    · exact ⟨.declines (fun _ same => by cases same; rfl) ((Grown.refl r).of rfl rfl rfl), known⟩
  have joined (peer : PeerIdentity) (told : given peer) (peerId : JsString) (other : PeerIdentity)
      (found : (r.peers.set peer.peerId peer).get? peerId = some other) : given other := by
    rw [OrderedMap.get?_set] at found
    split at found
    · cases found
      exact told
    · exact known peerId other found
  refine meets_bind.mpr (meets_update.mpr (meets_bind.mpr (meets_read.mpr ?_)))
  cases delta with
  | join peer => exact goesOn _ (joined peer (told peer List.mem_cons_self))
  | reconnect peer => exact goesOn _ (joined peer (told peer List.mem_cons_self))
  | leave peerId =>
    refine goesOn _ fun other peer found => ?_
    rw [OrderedMap.get?_delete] at found
    split at found
    · cases found
    · exact known other peer found

/-- Every call of an author moves in steps. -/
theorem program_meets {call : AuthorCall} (told : ∀ peer ∈ call.tells, given peer) (known : Known given r) :
    Meets (authoring platform options given) (call.call.program platform options)
      (fun site start msgs r => Ends platform options given site start (.ok msgs) r)
      (fun site start error r => Ends platform options given site start (.error error) r) .start r r := by
  cases call with
  | startNewEpoch members => exact startNewEpoch_meets told (.refl r) rfl
  | rotateOnMemberChange delta => exact rotateOnMemberChange_meets told known
  | forgetTimer epoch =>
    refine meets_bind.mpr (meets_bind.mpr (meets_pauseUntil.mpr ⟨⟨.sleeps, known⟩, fun later _ resumed => ?_⟩))
    refine meets_update.mpr ⟨.fires, ?_⟩
    rw [Known, forgetEpoch_peers]
    exact resumed.1

end Calls

/-! ## The epochs that have been installed -/

/-- A call is between reading its version and installing it. -/
def minting : RatchetStatus → Bool
  | .suspended (.keying _ true) => true
  | _ => false

/-- A call is announcing an epoch. -/
def announcing (epoch : ℤ) : RatchetStatus → Bool
  | .suspended (.wrapping draft _) => draft.version = epoch
  | _ => false

/-- The log of the installed drafts: each has a version and a buffer of its own. -/
structure Logged (log : List EpochDraft) (r : RoomRatchet K) : Prop where
  apart : log.Pairwise fun draft other => draft.version ≠ other.version
  past : ∀ draft ∈ log, draft.version ≤ r.currentEpoch
  allocated : ∀ draft ∈ log, draft.chainKey < r.chainKeys.next
  owned : ∀ draft ∈ log, ∀ epoch entry, r.epochs.get? epoch = some entry → entry.chainKey = draft.chainKey →
    epoch = draft.version
  stored : ∀ epoch entry, r.epochs.get? epoch = some entry → entry.chainKey < r.chainKeys.next

/-- A draft that is about to be installed: the next version, in a buffer that no
epoch has. -/
structure Pending (log : List EpochDraft) (draft : EpochDraft) (r : RoomRatchet K) : Prop where
  next : draft.version = r.currentEpoch + 1
  allocated : draft.chainKey < r.chainKeys.next
  minted : r.chainKeys.read draft.chainKey = draft.minted
  unowned : ∀ epoch entry, r.epochs.get? epoch = some entry → entry.chainKey ≠ draft.chainKey
  unlogged : ∀ other ∈ log, other.chainKey ≠ draft.chainKey

section Log
variable (platform : Platform K) (options : RatchetOptions) (given : PeerIdentity → Prop)

/-- What a call shows of itself fits the log. -/
def Fits (log : List EpochDraft) (r : RoomRatchet K) : RatchetStatus → Prop
  | .suspended (.keying draft true) => Pending log draft r
  | .suspended (.wrapping draft _) => draft ∈ log ∧ r.chainKeys.read draft.chainKey = draft.minted
  | .finished (.ok msgs) => ∀ msg ∈ msgs, ∃ draft ∈ log, Carries platform options given draft msg
  | _ => True

/-- The calls of an author and its installed epochs, with at most one call on its
way to install another. -/
structure Orderly {ι : Type} (log : List EpochDraft) (r : RoomRatchet K) (calls : ι → RatchetStatus) : Prop where
  logged : Logged log r
  fits : ∀ call, Fits platform options given log r (calls call)
  single : ∀ call other, minting (calls call) = true → minting (calls other) = true → call = other

end Log

section Orderly
variable {platform : Platform K} {options : RatchetOptions} {given : PeerIdentity → Prop} {log : List EpochDraft}
  {r r' : RoomRatchet K} {status : RatchetStatus} {draft : EpochDraft}

theorem Logged.grown (logged : Logged log r) (grown : Grown r r') : Logged log r' where
  apart := logged.apart
  past draft member := by rw [grown.current]; exact logged.past draft member
  allocated draft member := lt_of_lt_of_le (logged.allocated draft member) grown.next
  owned draft member epoch entry found := logged.owned draft member epoch entry (grown.epochs ▸ found)
  stored epoch entry found := lt_of_lt_of_le (logged.stored epoch entry (grown.epochs ▸ found)) grown.next

theorem Pending.grown (pending : Pending log draft r) (grown : Grown r r') : Pending log draft r' where
  next := by rw [grown.current]; exact pending.next
  allocated := lt_of_lt_of_le pending.allocated grown.next
  minted := by rw [grown.buffers _ pending.allocated]; exact pending.minted
  unowned epoch entry found := pending.unowned epoch entry (grown.epochs ▸ found)
  unlogged := pending.unlogged

theorem fits_grown (logged : Logged log r) (fits : Fits platform options given log r status) (grown : Grown r r') :
    Fits platform options given log r' status := by
  unfold Fits at fits ⊢
  split
  · exact Pending.grown fits grown
  · rename_i draft _
    exact ⟨fits.1, by rw [grown.buffers _ (logged.allocated draft fits.1)]; exact fits.2⟩
  · exact fits
  · trivial

/-- Installing a pending draft adds it to the log. -/
theorem Logged.installed (logged : Logged log r) (pending : Pending log draft r) (installed : Installed draft r r') :
    Logged (log ++ [draft]) r' := by
  obtain ⟨⟨entry, buffer, epochs⟩, current, buffers⟩ := installed
  have later : r.currentEpoch < draft.version := by rw [pending.next]; omega
  have reads {epoch : ℤ} {found : EpochState K} (held : r'.epochs.get? epoch = some found) :
      (epoch = draft.version ∧ found.chainKey = draft.chainKey) ∨ r.epochs.get? epoch = some found := by
    rw [epochs, OrderedMap.get?_set] at held
    split at held
    · rename_i same
      cases held
      exact .inl ⟨same, buffer⟩
    · exact .inr held
  have mem {other : EpochDraft} (member : other ∈ log ++ [draft]) : other ∈ log ∨ other = draft := by
    simpa using member
  constructor
  · refine List.pairwise_append.mpr ⟨logged.apart, List.pairwise_singleton _ _, fun other member last held => ?_⟩
    rw [List.mem_singleton.mp held]
    exact (lt_of_le_of_lt (logged.past other member) later).ne
  · intro other member
    rw [current, max_eq_right later.le]
    rcases mem member with old | rfl
    · exact (logged.past other old).trans later.le
    · exact le_rfl
  · intro other member
    rw [buffers]
    rcases mem member with old | rfl
    · exact logged.allocated other old
    · exact pending.allocated
  · intro other member epoch found held same
    rcases mem member with old | rfl
    · rcases reads held with ⟨rfl, new⟩ | before
      · exact absurd (same.symm.trans new) (pending.unlogged other old)
      · exact logged.owned other old epoch found before same
    · rcases reads held with ⟨here, -⟩ | before
      · exact here
      · exact absurd same (pending.unowned epoch found before)
  · intro epoch found held
    rw [buffers]
    rcases reads held with ⟨-, new⟩ | before
    · rw [new]
      exact pending.allocated
    · exact logged.stored epoch found before

section Update
variable {ι : Type} [DecidableEq ι] {calls : ι → RatchetStatus} {call : ι} {site : RatchetSite}

theorem Orderly.update {log' : List EpochDraft} (orderly : Orderly platform options given log r calls)
    (logged : Logged log' r') (others : ∀ other, other ≠ call → Fits platform options given log' r' (calls other))
    (own : Fits platform options given log' r' status)
    (alone : minting status = true → ∀ other, minting (calls other) = false) :
    Orderly platform options given log' r' (Function.update calls call status) where
  logged := logged
  fits other := by
    by_cases same : other = call
    · subst same
      rw [Function.update_self]
      exact own
    · rw [Function.update_of_ne same]
      exact others other same
  single first second one two := by
    by_cases mine : first = call
    · subst mine
      rw [Function.update_self] at one
      by_cases same : second = first
      · exact same.symm
      · rw [Function.update_of_ne same, alone one second] at two
        cases two
    · rw [Function.update_of_ne mine] at one
      by_cases same : second = call
      · subst same
        rw [Function.update_self] at two
        rw [alone two first] at one
        cases one
      · rw [Function.update_of_ne same] at two
        exact orderly.single first second one two

theorem Orderly.grown (orderly : Orderly platform options given log r calls) (grown : Grown r r')
    (own : Fits platform options given log r' status)
    (alone : minting status = true → ∀ other, minting (calls other) = false) :
    Orderly platform options given log r' (Function.update calls call status) :=
  orderly.update (orderly.logged.grown grown)
    (fun other _ => fits_grown orderly.logged (orderly.fits other) grown) own alone

/-- The installation of a pending draft; no other call has one. -/
theorem Orderly.installed (orderly : Orderly platform options given log r calls)
    (waits : calls call = .suspended (.keying draft true)) (installed : Installed draft r r')
    (own : Fits platform options given (log ++ [draft]) r' status) (settled : minting status = false) :
    Orderly platform options given (log ++ [draft]) r' (Function.update calls call status) := by
  have fits := orderly.fits call
  rw [waits] at fits
  refine orderly.update (orderly.logged.installed fits installed) (fun other apart => ?_) own fun mints => ?_
  · have others := orderly.fits other
    have idle : minting (calls other) = false := by
      by_contra busy
      rw [Bool.not_eq_false] at busy
      exact apart (orderly.single other call busy (by rw [waits]; rfl))
    unfold Fits at others ⊢
    split
    · rename_i pending
      rw [pending] at idle
      cases idle
    · rename_i announced
      rw [announced] at others
      exact ⟨List.mem_append_left _ others.1, by rw [installed.buffers]; exact others.2⟩
    · rename_i finished
      rw [finished] at others
      intro msg member
      obtain ⟨draft, logged, carries⟩ := others msg member
      exact ⟨draft, List.mem_append_left _ logged, carries⟩
    · trivial
  · rw [settled] at mints
    cases mints

/-- A timer that zeroes no chain key in use changes nothing that a call relies on. -/
theorem Orderly.fired (orderly : Orderly platform options given log r calls) {epoch : ℤ}
    (quiet : ∀ other, announcing epoch (calls other) = false) : Orderly platform options given log
      ({ r with forgetTimers := r.forgetTimers.erase epoch }.forgetEpoch epoch)
      (Function.update calls call (.finished (.ok []))) := by
  have table {other : ℤ} {entry : EpochState K}
      (found : ({ r with forgetTimers := r.forgetTimers.erase epoch }.forgetEpoch epoch).epochs.get? other =
        some entry) : r.epochs.get? other = some entry := by
    rw [forgetEpoch_epochs, OrderedMap.get?_delete] at found
    split at found
    · cases found
    · exact found
  have logged := orderly.logged
  refine orderly.update ⟨logged.apart, ?_, ?_, ?_, ?_⟩ (fun other _ => ?_) ?_ fun mints => by cases mints
  · rw [forgetEpoch_currentEpoch]
    exact logged.past
  · rw [forgetEpoch_next]
    exact logged.allocated
  · exact fun draft member other entry found same => logged.owned draft member other entry (table found) same
  · rw [forgetEpoch_next]
    exact fun other entry found => logged.stored other entry (table found)
  · have fits := orderly.fits other
    unfold Fits at fits ⊢
    split
    · rename_i pending
      rw [pending] at fits
      have pending : Pending log _ r := fits
      refine ⟨?_, ?_, ?_, fun other entry found => pending.unowned other entry (table found), pending.unlogged⟩
      · rw [forgetEpoch_currentEpoch]
        exact pending.next
      · rw [forgetEpoch_next]
        exact pending.allocated
      · rw [forgetEpoch_read]
        · exact pending.minted
        · exact pending.unowned epoch
    · rename_i draft _ announced
      rw [announced] at fits
      obtain ⟨member, minted⟩ : draft ∈ log ∧ r.chainKeys.read draft.chainKey = draft.minted := fits
      refine ⟨member, ?_⟩
      rw [forgetEpoch_read]
      · exact minted
      · intro entry found same
        have busy : announcing epoch (calls other) = true := by
          rw [announced]
          exact decide_eq_true (logged.owned draft member epoch entry found same).symm
        rw [quiet other] at busy
        cases busy
    · rename_i finished
      rw [finished] at fits
      exact fits
    · trivial
  · intro msg member
    cases member

/-- What a step of an author's call preserves. -/
theorem Orderly.step (orderly : Orderly platform options given log r calls) (waits : calls call = .suspended site)
    (step : Step platform options given site r status r')
    (alone : minting status = true → ∀ other, minting (calls other) = false)
    (quiet : ∀ epoch, site = .timer epoch → ∀ other, announcing epoch (calls other) = false) :
    ∃ log', Orderly platform options given log' r' (Function.update calls call status) := by
  have fits := orderly.fits call
  rw [waits] at fits
  cases step with
  | @mints draft _ derives _ drafted =>
    refine ⟨log, orderly.grown drafted.grown ?_ alone⟩
    cases derives with
    | false => trivial
    | true =>
      refine ⟨?_, drafted.stored, drafted.minted, fun epoch entry found same => ?_, fun other member same => ?_⟩
      · rw [drafted.grown.current]
        exact drafted.version
      · have below := orderly.logged.stored epoch entry (drafted.grown.epochs ▸ found)
        rw [same, drafted.fresh] at below
        exact Nat.lt_irrefl _ below
      · have below := orderly.logged.allocated other member
        rw [same, drafted.fresh] at below
        exact Nat.lt_irrefl _ below
  | @declines _ outcome _ silent grown =>
    refine ⟨log, orderly.grown grown ?_ alone⟩
    cases outcome with
    | error refused => trivial
    | ok msgs =>
      intro msg member
      rw [silent msgs rfl] at member
      cases member
  | sleeps => exact ⟨log, orderly.grown (.refl r) trivial alone⟩
  | refuses grown => exact ⟨log, orderly.grown grown trivial alone⟩
  | installs installed =>
    have pending : Pending log _ r := fits
    refine ⟨_, orderly.installed waits installed ⟨List.mem_append_right _ List.mem_cons_self, ?_⟩ rfl⟩
    rw [installed.buffers]
    exact pending.minted
  | keeps installed =>
    refine ⟨_, orderly.installed waits installed (fun msg member => ?_) rfl⟩
    cases member
  | wraps grown => exact ⟨log, orderly.grown grown (fits_grown orderly.logged fits grown) alone⟩
  | announces all grown =>
    exact ⟨log, orderly.grown grown (fun msg member => ⟨_, fits.1, all msg member⟩) alone⟩
  | fails grown => exact ⟨log, orderly.grown grown trivial alone⟩
  | fires => exact ⟨log, orderly.fired (quiet _ rfl)⟩

end Update
end Orderly

/-! ## Runs -/

/-- The epoch whose timer a call is waiting for. -/
def timing : RatchetStatus → Option ℤ
  | .suspended (.timer epoch) => some epoch
  | _ => none

/-- The gate of the runs in which no version is read while another is about to be
installed, and no timer fires for an epoch that is being announced. -/
def takesTurns {ι : Type} (before : RatchetPool ι K) (call : ι) (after : RatchetPool ι K) : Prop :=
  (minting (after.statuses call) = true → ∀ other, minting (before.statuses other) = false) ∧
    ∀ epoch ∈ timing (before.statuses call), ∀ other, announcing epoch (before.statuses other) = false

instance {ι : Type} [Fintype ι] (before : RatchetPool ι K) (call : ι) (after : RatchetPool ι K) :
    Decidable (takesTurns before call after) := by
  unfold takesTurns
  infer_instance

/-- An announcement that a call has returned. -/
def Returned {ι : Type} (pool : RatchetPool ι K) (msg : EpochAnnouncement) : Prop :=
  ∃ call msgs, pool.statuses call = .finished (.ok msgs) ∧ msg ∈ msgs

/-- The author's calls. -/
def launchAuthor {ι : Type} (platform : Platform K) (options : RatchetOptions) (r : RoomRatchet K)
    (calls : ι → AuthorCall) : RatchetPool ι K :=
  launch platform options r fun call => (calls call).call

/-- What an author is told of in a run. -/
def ToldOf {ι : Type} (r : RoomRatchet K) (calls : ι → AuthorCall) (peer : PeerIdentity) : Prop :=
  (∃ peerId, r.peers.get? peerId = some peer) ∨ ∃ call, peer ∈ (calls call).tells

/-- The chain keys of a ratchet are in buffers that it has. -/
def Allocated (r : RoomRatchet K) : Prop :=
  ∀ epoch entry, r.epochs.get? epoch = some entry → entry.chainKey < r.chainKeys.next

section Runs
variable {ι : Type} [DecidableEq ι] {platform : Platform K} {options : RatchetOptions} {r : RoomRatchet K}
  {calls : ι → AuthorCall} {last : RatchetPool ι K}

/-- The log of a run accounts for every announcement that has been returned. -/
theorem run_logged (allocated : Allocated r)
    (run : Runs takesTurns (launchAuthor platform options r calls) last) : ∃ log : List EpochDraft,
      (log.Pairwise fun draft other => draft.version ≠ other.version) ∧
      ∀ msg, Returned last msg → ∃ draft ∈ log, Carries platform options (ToldOf r calls) draft msg := by
  have begins : Known (ToldOf r calls) r ∧ ∃ log, Orderly platform options (ToldOf r calls) log r
      (launchAuthor platform options r calls).statuses :=
    ⟨fun peerId peer found => .inl ⟨peerId, found⟩, [], ⟨.nil, by simp, by simp, by simp, allocated⟩,
      fun _ => trivial, fun _ _ mints => by cases mints⟩
  obtain ⟨-, log, orderly⟩ := runs_invariant
    (fun _ => authoring platform options (ToldOf r calls))
    (fun _ => Ends platform options (ToldOf r calls))
    (fun r' statuses => Known (ToldOf r calls) r' ∧
      ∃ log, Orderly platform options (ToldOf r calls) log r' statuses)
    begins
    (launch_follows fun call state resumed => by
      refine Contract.keeps_mono (program_meets (fun peer member => .inr ⟨call, member⟩) resumed.1) ?_
      intro site start outcome r' ends
      cases outcome with
      | ok msgs => exact ends
      | error refused => exact ends)
    (fun before call site after held waits _ _ => by
      obtain ⟨known, log, orderly⟩ := held
      refine ⟨known, ?_⟩
      have fits := orderly.fits call
      rw [waits] at fits
      unfold Holds
      split
      · exact fits.2
      · trivial)
    (fun before call site after held waits passes _ moved => by
      obtain ⟨-, log, orderly⟩ := held
      obtain ⟨alone, quiet⟩ := passes
      have timed (epoch : ℤ) (here : site = .timer epoch) (other : ι) :
          announcing epoch (before.statuses other) = false := by
        refine quiet epoch ?_ other
        rw [waits, here]
        rfl
      generalize after.statuses call = status at moved alone
      cases status with
      | running => exact moved.elim
      | suspended next => exact ⟨moved.2, orderly.step waits moved.1 alone timed⟩
      | finished outcome => exact ⟨moved.2, orderly.step waits moved.1 alone timed⟩)
    run
  refine ⟨log, orderly.logged.apart, fun msg returned => ?_⟩
  obtain ⟨call, msgs, finished, member⟩ := returned
  have fits := orderly.fits call
  rw [finished] at fits
  exact fits msg member

end Runs

/-! ## Members -/

section Members
variable (platform : Platform K) (options : RatchetOptions)

/-- A member that announcements have reached one after the other. One that throws
leaves what it has done so far. -/
def consumed : RoomRatchet K → List EpochAnnouncement → RoomRatchet K
  | r, [] => r
  | r, msg :: rest =>
    match alone (RoomRatchet.consumeEpochAnnouncement platform options msg) r with
    | some (_, r') => consumed r' rest
    | none => r

/-- The entry is what a draft installs. -/
structure Holding (draft : EpochDraft) (buffers : Heap Bytes) (epoch : ℤ) (entry : EpochState K) : Prop where
  version : draft.version = epoch
  allocated : entry.chainKey < buffers.next
  chainKey : buffers.read entry.chainKey = draft.minted
  peerIndexMap : entry.peerIndexMap = draft.peerIndexMap
  keys : deriveEpochKeyTable platform.crypto draft.minted epoch draft.peerIndexMap options.suite options.kidCodec =
    .ok entry.keys

/-- All that the member has installed is in the author's log. -/
def HoldsLog (log : List EpochDraft) (r : RoomRatchet K) : Prop :=
  ∀ epoch entry, r.epochs.get? epoch = some entry →
    ∃ draft ∈ log, Holding platform options draft r.chainKeys epoch entry

variable {platform options} {log : List EpochDraft} {r : RoomRatchet K}

theorem holdsLog_store (holds : HoldsLog platform options log r) (bytes : Bytes) :
    HoldsLog platform options log (r.store bytes) := by
  intro epoch entry found
  obtain ⟨draft, member, holding⟩ := holds epoch entry found
  have apart : entry.chainKey ≠ r.chainKeys.next := Nat.ne_of_lt holding.allocated
  refine ⟨draft, member, holding.version, Nat.lt_succ_of_lt holding.allocated, ?_, holding.peerIndexMap, holding.keys⟩
  simp [store, apart, holding.chainKey]

/-- An announcement of a logged draft installs that draft, if anything. -/
theorem holdsLog_consume {author : JsString} {draft : EpochDraft} {peer : PeerIdentity} {msg : EpochAnnouncement}
    {dhSecret : Bytes} {outcome : Except JsError Unit} {r' : RoomRatchet K} (correct : platform.Correct)
    (holds : HoldsLog platform options log r) (member : draft ∈ log)
    (announces : Announces platform author draft peer msg dhSecret)
    (keyed : peer.peerId = options.identity.peerId → peer.publicKey = platform.publicKey options.identity.privateKey)
    (ran : alone (RoomRatchet.consumeEpochAnnouncement platform options msg) r = some (outcome, r')) :
    HoldsLog platform options log r' := by
  unfold RoomRatchet.consumeEpochAnnouncement at ran
  by_cases mine : msg.forPeer = options.identity.peerId
  · rw [if_neg (not_not.mpr mine)] at ran
    cases checked : checkPeerIndexMap options msg.peerIndexMap with
    | error refused =>
      simp only [alone_bind, alone_settle, checked, Option.bind_some, Option.some.injEq, Prod.mk.injEq] at ran
      rw [← ran.2]
      exact holds
    | ok _ =>
      obtain ⟨agreed, unwrapped⟩ := announces.unwraps correct (keyed (announces.forPeer.symm.trans mine))
      obtain ⟨data, shown⟩ := computeSas_correct correct dhSecret
      have stored := holdsLog_store holds draft.minted
      simp only [alone_bind, alone_settle, checked, Option.bind_some, alone_awaiting, agreed, alone_pause, unwrapped,
        alone_read, alone_update] at ran
      rw [alone_installEpoch (checkPeerIndexMap_own checked)] at ran
      have held : (r.store draft.minted).chainKeys.read r.chainKeys.next = draft.minted := by simp [store]
      simp only [held] at ran
      split at ran
      · rename_i keys derived
        simp only [Option.bind_some, alone_installSas shown, Option.some.injEq, Prod.mk.injEq] at ran
        rw [← ran.2]
        intro epoch entry found
        change ((r.store draft.minted).install _ _).epochs.get? epoch = some entry at found
        change ∃ draft ∈ log, Holding platform options draft ((r.store _).install _ _).chainKeys epoch entry
        rw [install_chainKeys]
        rw [install_epochs, OrderedMap.get?_set] at found
        split at found
        · rename_i here
          cases found
          subst here
          refine ⟨draft, member, announces.version.symm, Nat.lt_succ_self _, held, announces.peerIndexMap, ?_⟩
          rw [← announces.peerIndexMap]
          exact derived
        · exact stored epoch entry found
      · simp only [Option.bind_some, Option.some.injEq, Prod.mk.injEq] at ran
        rw [← ran.2]
        exact stored
  · rw [if_pos mine] at ran
    simp only [alone_pure, Option.some.injEq, Prod.mk.injEq] at ran
    rw [← ran.2]
    exact holds

theorem holdsLog_consumed {author : JsString} {given : PeerIdentity → Prop} {msgs : List EpochAnnouncement}
    (correct : platform.Correct)
    (keyed : ∀ peer, given peer → peer.peerId = options.identity.peerId →
      peer.publicKey = platform.publicKey options.identity.privateKey)
    (logged : ∀ msg ∈ msgs, ∃ draft ∈ log, ∃ peer dhSecret, given peer ∧
      Announces platform author draft peer msg dhSecret)
    (holds : HoldsLog platform options log r) : HoldsLog platform options log (consumed platform options r msgs) := by
  induction msgs generalizing r with
  | nil => exact holds
  | cons msg rest ih =>
    rw [List.forall_mem_cons] at logged
    obtain ⟨⟨draft, member, peer, dhSecret, told, announces⟩, later⟩ := logged
    unfold consumed
    split
    · rename_i outcome r' ran
      exact ih later (holdsLog_consume correct holds member announces (keyed peer told) ran)
    · exact holds

end Members

/-- The client and another one, both with nothing installed, hold the same for
each version after announcements have reached them in any order. -/
def HoldAlike {platform : Platform K} (suite : CipherSuite) (kidCodec : KidCodec) (first second : Client platform)
    (msgs others : List EpochAnnouncement) : Prop :=
  let one := consumed platform { identity := first.identity, suite, kidCodec } first.ratchet msgs
  let two := consumed platform { identity := second.identity, suite, kidCodec } second.ratchet others
  ∀ version own other, one.epochs.get? version = some own → two.epochs.get? version = some other →
    one.chainKeys.read own.chainKey = two.chainKeys.read other.chainKey ∧
      own.peerIndexMap = other.peerIndexMap ∧ own.keys = other.keys

/-- The author knows the client by the public key that it has. -/
def KnownBy {ι : Type} {platform : Platform K} (r : RoomRatchet K) (calls : ι → AuthorCall)
    (client : Client platform) : Prop :=
  ∀ peer, ToldOf r calls peer → peer.peerId = client.identity.peerId → peer.publicKey = client.identity.publicKey

/-- The announcements of one version carry one chain key and one map; members
that consume theirs, in any order, hold the same table for each version. -/
def VersionsAgree {ι : Type} (platform : Platform K) (options : RatchetOptions) (r : RoomRatchet K)
    (calls : ι → AuthorCall) (last : RatchetPool ι K) : Prop :=
  (∀ msg other, Returned last msg → Returned last other → msg.version = other.version →
    ∃ draft, Carries platform options (ToldOf r calls) draft msg ∧
      Carries platform options (ToldOf r calls) draft other) ∧
  (platform.Correct → ∀ suite kidCodec (first second : Client platform), KnownBy r calls first →
    KnownBy r calls second → first.ratchet.epochs = ∅ → second.ratchet.epochs = ∅ → ∀ msgs others,
    (∀ msg ∈ msgs, Returned last msg) → (∀ msg ∈ others, Returned last msg) →
    HoldAlike suite kidCodec first second msgs others)

/-- In every run that lets no two calls take one version, and no timer zero a
chain key that is being announced, a version stands for one chain key. -/
theorem one_chain_key_per_version {ι : Type} [DecidableEq ι] (platform : Platform K) (options : RatchetOptions)
    (r : RoomRatchet K) (allocated : Allocated r) (calls : ι → AuthorCall) {last : RatchetPool ι K}
    (run : Runs takesTurns (launchAuthor platform options r calls) last) :
    VersionsAgree platform options r calls last := by
  obtain ⟨log, apart, logged⟩ := run_logged allocated run
  have unique {draft other : EpochDraft} (one : draft ∈ log) (two : other ∈ log)
      (same : draft.version = other.version) : draft = other := by
    by_contra different
    have symmetric : Std.Symm fun draft other : EpochDraft => draft.version ≠ other.version :=
      ⟨fun _ _ far => far.symm⟩
    exact apart.forall one two different same
  constructor
  · intro msg other returned again same
    obtain ⟨draft, member, carries⟩ := logged msg returned
    obtain ⟨draft', member', carries'⟩ := logged other again
    obtain ⟨_, _, _, announces⟩ := id carries
    obtain ⟨_, _, _, announces'⟩ := id carries'
    obtain rfl := unique member member' (announces.version.symm.trans (same.trans announces'.version))
    exact ⟨draft, carries, carries'⟩
  · intro correct suite kidCodec first second known known' fresh fresh' msgs others all all' version own other
      held held'
    have holds (client : Client platform) (known : KnownBy r calls client) (fresh : client.ratchet.epochs = ∅)
        (msgs : List EpochAnnouncement) (all : ∀ msg ∈ msgs, Returned last msg) :
        HoldsLog platform { identity := client.identity, suite, kidCodec } log
          (consumed platform { identity := client.identity, suite, kidCodec } client.ratchet msgs) := by
      have keyed (peer : PeerIdentity) (told : ToldOf r calls peer) (same : peer.peerId = client.identity.peerId) :
          peer.publicKey = platform.publicKey client.identity.privateKey :=
        (known peer told same).trans client.keyed
      refine holdsLog_consumed correct keyed (fun msg member => logged msg (all msg member)) fun epoch entry found => ?_
      rw [fresh] at found
      cases found
    obtain ⟨draft, member, holding⟩ := holds first known fresh msgs all version own held
    obtain ⟨draft', member', holding'⟩ := holds second known' fresh' others all' version other held'
    obtain rfl := unique member member' (holding.version.trans holding'.version.symm)
    refine ⟨holding.chainKey.trans holding'.chainKey.symm, holding.peerIndexMap.trans holding'.peerIndexMap.symm, ?_⟩
    exact Except.ok.inj (holding.keys.symm.trans holding'.keys)

section Checked
open RoomSpecimen (platform client peer)

/-- Two epochs that begin at once. -/
def twoAtOnce : Fin 2 → AuthorCall
  | 0 => .startNewEpoch [peer (client 'b' 2)]
  | 1 => .rotateOnMemberChange (.join (peer (client 'b' 2)))

/-- The announcements that calls have returned. -/
def announcements {K : Type} {n : ℕ} (pool : RatchetPool (Fin n) K) : List EpochAnnouncement :=
  (List.finRange n).flatMap fun call =>
    match pool.statuses call with
    | .finished (.ok msgs) => msgs
    | _ => []

theorem returned_of_mem {K : Type} {n : ℕ} {pool : RatchetPool (Fin n) K} {msg : EpochAnnouncement}
    (member : msg ∈ announcements pool) : Returned pool msg := by
  obtain ⟨call, -, held⟩ := List.mem_flatMap.mp member
  split at held
  · rename_i msgs finished
    exact ⟨call, msgs, finished, held⟩
  · cases held

/-- The checksum runtime shows a wrapped chain key in front of its tag. -/
theorem carried_minted {options : RatchetOptions} {given : PeerIdentity → Prop} {draft : EpochDraft}
    {msg : EpochAnnouncement} (carries : Carries platform options given draft msg) :
    msg.keyWrapped.take (msg.keyWrapped.length - aeadTagBytes) = draft.minted := by
  obtain ⟨peer, dhSecret, -, announces⟩ := carries
  obtain ⟨-, -, -, wrapped⟩ := announces.wraps
  rw [← Except.ok.inj wrapped]
  exact List.take_left' (by simp [Specimen.digest])

/-- Two calls that overlap announce two chain keys for one version. -/
theorem overlapping_calls_share_version : ¬ ∀ last : RatchetPool (Fin 2) Bytes,
    Runs anyTurn (launchAuthor platform (client 'a' 1) (create []) twoAtOnce) last →
      VersionsAgree platform (client 'a' 1) (create []) twoAtOnce last := by
  intro agree
  have result : ((launchAuthor platform (client 'a' 1) (create []) twoAtOnce).followPassing anyTurn
      [0, 1, 0, 0, 0, 0, 0, 1, 1, 1, 1, 1]).map (fun pool => (announcements pool).map fun msg =>
        (msg.version, msg.keyWrapped.take (msg.keyWrapped.length - aeadTagBytes))) =
      some [(0, fixedBytes 32 1), (0, fixedBytes 32 2)] := by
    decide +kernel
  obtain ⟨last, followed, shape⟩ := Option.map_eq_some_iff.mp result
  obtain ⟨first, rest, list, one, more⟩ := List.map_eq_cons_iff.mp shape
  obtain ⟨second, others, pair, two, -⟩ := List.map_eq_cons_iff.mp more
  simp only [Prod.mk.injEq] at one two
  obtain ⟨draft, carries, carries'⟩ := (agree last (followPassing_runs followed)).1 first second
    (returned_of_mem (by simp [list])) (returned_of_mem (by simp [list, pair])) (one.1.trans two.1.symm)
  have same := (carried_minted carries).trans (carried_minted carries').symm
  rw [one.2, two.2] at same
  revert same
  decide

/-- Two epochs one after the other, and the timer of the first. -/
def oneByOne : Fin 3 → AuthorCall
  | 0 => .startNewEpoch [peer (client 'b' 2)]
  | 1 => .rotateOnMemberChange (.join (peer (client 'c' 3)))
  | 2 => .forgetTimer 0

theorem one_chain_key_per_version_one_by_one : ∃ last : RatchetPool (Fin 3) Bytes,
    (announcements last).map EpochAnnouncement.version = [0, 1, 1] ∧
      VersionsAgree platform (client 'a' 1) (create []) oneByOne last := by
  have result : ((launchAuthor platform (client 'a' 1) (create []) oneByOne).followPassing takesTurns
      [0, 0, 0, 0, 0, 0, 1, 1, 1, 1, 1, 1, 1, 1, 1, 1, 2, 2]).map
        (fun pool => (announcements pool).map EpochAnnouncement.version) = some [0, 1, 1] := by
    decide +kernel
  obtain ⟨last, followed, versions⟩ := Option.map_eq_some_iff.mp result
  exact ⟨last, versions, one_chain_key_per_version platform (client 'a' 1) (create [])
    (fun _ _ found => by cases found) oneByOne (followPassing_runs followed)⟩

end Checked
end SFrameRatchet.EpochVersions
