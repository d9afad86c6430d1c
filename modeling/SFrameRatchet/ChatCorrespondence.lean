import SFrameRatchet.ChatBinding
import SFrameRatchet.ChatSpecimen

/-! Runs of seals and unseals, one after the other. A sealed buffer opens when it first
comes to its context, and nothing else ever opens. A call that rejects such a thing
leaves at most windows for a room behind, and these are without effect until a room has
to go. -/
namespace SFrameRatchet.ChatBinding
open BigEndian Collections Coroutine Throwing Crypto Header SFrame Chat

variable {K B : Type}

/-! ## Runs -/

section Runs
variable (runtime : ChatRuntime K B) (settings : ReplaySettings) (keyOf : SealContext → SFrameKey K)

/-- Calls on a provider, each with its reply. -/
inductive Corresponds : ChatProvider K → List (Mail × Reply) → ChatProvider K → Prop where
  | done (s : ChatProvider K) : Corresponds s [] s
  | next {s s' last : ChatProvider K} {mail : Mail} {reply : Reply} {rest : List (Mail × Reply)}
      (ran : alone (mail.call.program runtime settings) s = some (reply, s')) (onward : Corresponds s' rest last) :
      Corresponds s ((mail, reply) :: rest) last

/-- Where a provider stands after some calls. -/
def after (now : Standing) (mails : List Mail) : Standing :=
  mails.foldl (fun now mail => (mail.pass runtime settings keyOf now).2) now

/-- The replies are those that the ledger tells. -/
def Told : Standing → List (Mail × Reply) → Prop
  | _, [] => True
  | now, (mail, reply) :: rest =>
    (mail.pass runtime settings keyOf now).1 = reply ∧ Told (mail.pass runtime settings keyOf now).2 rest

variable {runtime settings keyOf} {s last : ChatProvider K} {trace before rest : List (Mail × Reply)}

theorem corresponds_append : Corresponds runtime settings s (before ++ rest) last ↔
    ∃ middle, Corresponds runtime settings s before middle ∧ Corresponds runtime settings middle rest last := by
  induction before generalizing s with
  | nil =>
    constructor
    · exact fun ran => ⟨s, .done s, ran⟩
    · rintro ⟨middle, ⟨⟩, ran⟩
      exact ran
  | cons entry before ih =>
    constructor
    · intro ran
      cases ran with
      | next first onward =>
        obtain ⟨middle, one, other⟩ := ih.mp onward
        exact ⟨middle, .next first one, other⟩
    · rintro ⟨middle, one, other⟩
      cases one with
      | next first onward => exact .next first (ih.mpr ⟨middle, onward, other⟩)

/-- The calls and replies of a run tell where it ends. -/
theorem corresponds_unique {other : ChatProvider K} (ran : Corresponds runtime settings s trace last)
    (again : Corresponds runtime settings s trace other) : last = other := by
  induction ran with
  | done s =>
    cases again
    rfl
  | next first onward ih =>
    cases again with
    | next second onward' =>
      rw [first] at second
      cases second
      exact ih onward'

/-- A run keeps to the ledger. -/
theorem corresponds_told (keyed : Keyed runtime keyOf) (settled : Settled settings keyOf s)
    (ran : Corresponds runtime settings s trace last) : Told runtime settings keyOf (standing s) trace ∧
      Settled settings keyOf last ∧ standing last = after runtime settings keyOf (standing s) (trace.map Prod.fst) := by
  induction ran with
  | done s => exact ⟨trivial, settled, rfl⟩
  | @next s s' last mail reply rest first onward ih =>
    obtain ⟨t, passed, settled', stands⟩ := mail_passes keyed settled mail
    rw [first] at passed
    cases passed
    obtain ⟨told, ends, arrives⟩ := ih settled'
    rw [stands] at told arrives
    exact ⟨⟨rfl, told⟩, ends, arrives⟩

/-- What the ledger tells is what happens. -/
theorem told_corresponds (keyed : Keyed runtime keyOf) (settled : Settled settings keyOf s)
    (told : Told runtime settings keyOf (standing s) trace) : ∃ last, Corresponds runtime settings s trace last := by
  induction trace generalizing s with
  | nil => exact ⟨s, .done s⟩
  | cons entry rest ih =>
    obtain ⟨mail, reply⟩ := entry
    obtain ⟨rfl, told⟩ := told
    obtain ⟨s', passed, settled', stands⟩ := mail_passes keyed settled mail
    rw [← stands] at told
    obtain ⟨last, onward⟩ := ih settled' told
    exact ⟨last, .next passed onward⟩

/-- Every list of calls has its replies. -/
theorem corresponds_total (keyed : Keyed runtime keyOf) (settled : Settled settings keyOf s) (mails : List Mail) :
    ∃ trace last, trace.map Prod.fst = mails ∧ Corresponds runtime settings s trace last := by
  induction mails generalizing s with
  | nil => exact ⟨[], s, rfl, .done s⟩
  | cons mail mails ih =>
    obtain ⟨s', passed, settled', -⟩ := mail_passes keyed settled mail
    obtain ⟨trace, last, rfl, onward⟩ := ih settled'
    exact ⟨_, last, rfl, .next passed onward⟩

theorem after_honest {now : Standing} (honest : now.ledger.Honest) (mails : List Mail) :
    (after runtime settings keyOf now mails).ledger.Honest := by
  induction mails generalizing now with
  | nil => exact honest
  | cons mail mails ih => exact ih (pass_honest honest mail)

/-- What a run has accepted came in a buffer that opened. -/
theorem after_accepted {now : Standing} {mails : List Mail} {slot : Slot}
    (member : slot ∈ (after runtime settings keyOf now mails).ledger.accepted) :
    slot ∈ now.ledger.accepted ∨ ∃ sealedBytes plaintext, .unseal_ sealedBytes slot.context ∈ mails ∧
      slotOf sealedBytes slot.context = .ok slot ∧ opening runtime keyOf sealedBytes slot.context = .ok plaintext := by
  induction mails generalizing now with
  | nil => exact .inl member
  | cons mail mails ih =>
    rcases ih member with earlier | ⟨sealedBytes, plaintext, later, parsed, opens⟩
    · rcases pass_accepted now mail earlier with old | ⟨sealedBytes, plaintext, rfl, parsed, opens⟩
      · exact .inl old
      · exact .inr ⟨sealedBytes, plaintext, List.mem_cons_self, parsed, opens⟩
    · exact .inr ⟨sealedBytes, plaintext, List.mem_cons_of_mem _ later, parsed, opens⟩

end Runs

/-! ## Rooms that nobody has sealed for -/

section Rooms
variable {runtime : ChatRuntime K B} {settings : ReplaySettings} {keyOf : SealContext → SFrameKey K}
  {now other : Standing} {s last : ChatProvider K}

/-- The standing differs from the other one in rooms that only the other has. -/
structure Trails (now other : Standing) : Prop where
  behind : now.ledger.Behind other.ledger
  allocated : now.allocated = other.allocated
  few : other.ledger.rooms.length ≤ maxReplayRooms

/-- A call finds room for its buffer. -/
def Roomy (now : Standing) (mail : Mail) : Prop := ∀ sealedBytes context slot,
  mail = .unseal_ sealedBytes context → slotOf sealedBytes context = .ok slot → now.ledger.Roomy context.roomId

theorem pass_few (few : now.ledger.rooms.length ≤ maxReplayRooms) (mail : Mail) :
    (mail.pass runtime settings keyOf now).2.ledger.rooms.length ≤ maxReplayRooms := by
  cases mail with
  | seal_ plaintext context => exact few
  | unseal_ sealedBytes context =>
    rcases unseal_cases runtime settings keyOf now sealedBytes context with
      ⟨refused, ledger, passed, ⟨-, rfl⟩ | ⟨slot, -, rfl⟩⟩ | ⟨slot, plaintext, -, -, passed⟩
    · rw [passed]
      exact few
    · rw [passed]
      exact Ledger.enter_few few _
    · rw [passed]
      exact Ledger.enter_few few _

/-- A call brings one room at most. -/
theorem pass_rooms_le (now : Standing) (mail : Mail) :
    (mail.pass runtime settings keyOf now).2.ledger.rooms.length ≤ now.ledger.rooms.length + 1 := by
  cases mail with
  | seal_ plaintext context => exact Nat.le_succ _
  | unseal_ sealedBytes context =>
    rcases unseal_cases runtime settings keyOf now sealedBytes context with
      ⟨refused, ledger, passed, ⟨-, rfl⟩ | ⟨slot, -, rfl⟩⟩ | ⟨slot, plaintext, -, -, passed⟩
    · rw [passed]
      exact Nat.le_succ _
    · rw [passed]
      exact Ledger.enter_rooms_le _ _
    · rw [passed]
      exact Ledger.enter_rooms_le _ _

theorem after_rooms_le (now : Standing) (mails : List Mail) :
    (after runtime settings keyOf now mails).ledger.rooms.length ≤ now.ledger.rooms.length + mails.length := by
  induction mails generalizing now with
  | nil => exact le_rfl
  | cons mail mails ih =>
    calc
      _ ≤ (mail.pass runtime settings keyOf now).2.ledger.rooms.length + mails.length := ih _
      _ ≤ now.ledger.rooms.length + 1 + mails.length := Nat.add_le_add_right (pass_rooms_le now mail) _
      _ = now.ledger.rooms.length + (mail :: mails).length := by rw [List.length_cons]; omega

/-- The rooms are without effect on a call that finds room. -/
theorem pass_trails (trails : Trails now other) {mail : Mail} (roomy : Roomy other mail) :
    (mail.pass runtime settings keyOf now).1 = (mail.pass runtime settings keyOf other).1 ∧
      Trails (mail.pass runtime settings keyOf now).2 (mail.pass runtime settings keyOf other).2 := by
  have few : (mail.pass runtime settings keyOf other).2.ledger.rooms.length ≤ maxReplayRooms := pass_few trails.few mail
  cases mail with
  | seal_ plaintext context =>
    simp only [Mail.pass, trails.allocated]
    exact ⟨trivial, trails.behind, rfl, trails.few⟩
  | unseal_ sealedBytes context =>
    cases parsed : slotOf sealedBytes context with
    | error refused =>
      simp only [Mail.pass, parsed]
      exact ⟨trivial, trails⟩
    | ok slot =>
      have found : other.ledger.Roomy slot.context.roomId :=
        (slotOf_ok parsed).1 ▸ roomy sealedBytes context slot rfl parsed
      obtain ⟨same, behind⟩ := trails.behind.receive trails.few found
      simp only [Mail.pass, parsed] at few ⊢
      exact ⟨congrArg _ same, behind, trails.allocated, few⟩

/-- Nor are they on a run that finds room throughout. -/
theorem told_trails {trace : List (Mail × Reply)} (trails : Trails now other)
    (roomy : ∀ before entry rest, trace = before ++ entry :: rest →
      Roomy (after runtime settings keyOf other (before.map Prod.fst)) entry.1)
    (told : Told runtime settings keyOf other trace) : Told runtime settings keyOf now trace := by
  induction trace generalizing now other with
  | nil => trivial
  | cons entry trace ih =>
    obtain ⟨mail, reply⟩ := entry
    obtain ⟨rfl, onward⟩ := told
    obtain ⟨same, trails'⟩ := pass_trails trails (roomy [] _ _ rfl)
    refine ⟨same, ih trails' (fun before entry rest split => ?_) onward⟩
    exact roomy ((mail, _) :: before) entry rest (by rw [split, List.cons_append])

end Rooms

/-! ## What a run binds -/

section Binding
variable (runtime : ChatRuntime K B) (settings : ReplaySettings) (keyOf : SealContext → SFrameKey K)
  (sent : SealContext → Bytes → ℕ → Prop)

/-- The buffer has been sealed for another room or by another sender, or not at all. -/
def Foreign (context : SealContext) (sealedBytes : Bytes) : Prop :=
  (∃ other, (context.roomId ≠ other.roomId ∨ context.senderUid ≠ other.senderUid) ∧
      Authentic runtime keyOf sent other sealedBytes) ∨
    ∀ other, ¬ Authentic runtime keyOf sent other sealedBytes

/-- The call brings something foreign for a room without windows. -/
def Intrudes (s : ChatProvider K) (mail : Mail) : Prop := ∃ sealedBytes context slot,
  mail = .unseal_ sealedBytes context ∧ slotOf sealedBytes context = .ok slot ∧
    Foreign runtime keyOf sent context sealedBytes ∧ s.replayWindows.has context.roomId = false

/-- The call makes an older room go. -/
def Drops (s : ChatProvider K) (mail : Mail) : Prop := ∃ sealedBytes context slot,
  mail = .unseal_ sealedBytes context ∧ slotOf sealedBytes context = .ok slot ∧ s.keepsRooms context.roomId = false

/-- The guard has no counter of another conversation under the name of the one that a
sealed buffer comes to, and no room has to go once something foreign has come for a
room of its own. -/
structure Harmless (first : ChatProvider K) (trace : List (Mail × Reply)) : Prop where
  named : ∀ before sealedBytes context reply rest s slot, trace =
    before ++ (.unseal_ sealedBytes context, reply) :: rest →
    Corresponds runtime settings first before s → Authentic runtime keyOf sent context sealedBytes →
      slotOf sealedBytes context = .ok slot → (ledgerOf s).Guards settings slot → slot ∈ (ledgerOf s).accepted
  roomy : ∀ before intruder rest s, trace = before ++ intruder :: rest → Corresponds runtime settings first before s →
    Intrudes runtime keyOf sent s intruder.1 → ∀ between entry tail s', intruder :: rest = between ++ entry :: tail →
      Corresponds runtime settings s between s' → ¬ Drops s' entry.1

/-- Everything that is sealed in a run has been sent. -/
def Noted (first : ChatProvider K) (trace : List (Mail × Reply)) : Prop :=
  ∀ before plaintext context reply rest s ctr, trace = before ++ (.seal_ plaintext context, reply) :: rest →
    Corresponds runtime settings first before s →
      runtime.nextCtr context.roomId context.senderUid s.own.allocated = .ok ctr → sent context plaintext ctr

/-- What a run of seals and unseals is for. -/
structure Bound (first : ChatProvider K) (trace : List (Mail × Reply)) : Prop where
  /-- A seal returns what it seals the plaintext into. -/
  seals : ∀ before plaintext context reply rest s ctr, trace = before ++ (.seal_ plaintext context, reply) :: rest →
    Corresponds runtime settings first before s →
      runtime.nextCtr context.roomId context.senderUid s.own.allocated = .ok ctr → ctr < 2 ^ 64 →
        ∃ sealedBytes, reply = .ok (some sealedBytes) ∧ SealedAs runtime keyOf sent context plaintext ctr sealedBytes
  /-- The first unseal of it returns the plaintext. -/
  opens : ∀ before sealedBytes context reply rest plaintext ctr,
    trace = before ++ (.unseal_ sealedBytes context, reply) :: rest →
      SealedAs runtime keyOf sent context plaintext ctr sealedBytes → ⟨context, ctr⟩ ∉ (ledgerOf first).accepted →
        (∀ entry ∈ before, entry.1 ≠ .unseal_ sealedBytes context) → reply = .ok (some plaintext)
  /-- What is foreign to a context is rejected there. -/
  rejects : ∀ sealedBytes context reply, (.unseal_ sealedBytes context, reply) ∈ trace →
    Foreign runtime keyOf sent context sealedBytes → ∃ refused, reply = .error refused
  /-- Without such a call, the others return what they return with it. -/
  unaffected : ∀ before sealedBytes context reply rest, trace =
    before ++ (.unseal_ sealedBytes context, reply) :: rest →
    Foreign runtime keyOf sent context sealedBytes → ∃ last, Corresponds runtime settings first (before ++ rest) last

variable {runtime settings keyOf sent} {context : SealContext} {sealedBytes : Bytes} {first last s : ChatProvider K}
  {trace before rest : List (Mail × Reply)} {mail : Mail} {reply : Reply}

theorem noted_of_unseals (unseals : ∀ plaintext context, .seal_ plaintext context ∉ trace.map Prod.fst) :
    Noted runtime settings sent first trace := by
  intro before plaintext context reply rest s ctr split
  refine absurd ?_ (unseals plaintext context)
  rw [split, List.map_append]
  exact List.mem_append_right _ List.mem_cons_self

theorem foreign_iff (ideal : Ideal runtime keyOf sent) :
    Foreign runtime keyOf sent context sealedBytes ↔ ¬ Authentic runtime keyOf sent context sealedBytes := by
  constructor
  · rintro (⟨other, apart, sealed⟩ | never) own
    · obtain rfl := ideal.buffers _ _ _ own sealed
      rcases apart with room | sender
      · exact room rfl
      · exact sender rfl
    · exact never context own
  · intro other
    by_cases anywhere : ∃ elsewhere, Authentic runtime keyOf sent elsewhere sealedBytes
    · obtain ⟨elsewhere, sealed⟩ := anywhere
      refine .inl ⟨elsewhere, ?_, sealed⟩
      by_contra same
      push Not at same
      obtain rfl : context = elsewhere := by
        cases context
        cases elsewhere
        simpa using same
      exact other sealed
    · exact .inr fun elsewhere sealed => anywhere ⟨elsewhere, sealed⟩

variable (settings) in
/-- What is foreign does not open. -/
theorem foreign_refused (ideal : Ideal runtime keyOf sent) (foreign : Foreign runtime keyOf sent context sealedBytes)
    (now : Standing) : ∃ refused ledger, (Mail.unseal_ sealedBytes context).pass runtime settings keyOf now =
      (.error refused, { now with ledger }) ∧ ((∃ malformed, slotOf sealedBytes context = .error malformed) ∧
        ledger = now.ledger ∨ ∃ slot, slotOf sealedBytes context = .ok slot ∧
          ledger = now.ledger.enter context.roomId) := by
  rcases unseal_cases runtime settings keyOf now sealedBytes context with refused | ⟨slot, plaintext, -, opens, -⟩
  · exact refused
  · obtain ⟨ctr, sealed⟩ := (opening_iff ideal).mp opens
    exact absurd ⟨plaintext, ctr, sealed⟩ ((foreign_iff ideal).mp foreign)

/-- The first of some calls comes to the provider as it stands. -/
theorem corresponds_head (keyed : Keyed runtime keyOf) (settled : Settled settings keyOf s)
    (ran : Corresponds runtime settings s ((mail, reply) :: rest) last) :
    (mail.pass runtime settings keyOf (standing s)).1 = reply ∧
      Told runtime settings keyOf (mail.pass runtime settings keyOf (standing s)).2 rest :=
  (corresponds_told keyed settled ran).1

theorem keepsRooms_iff (s : ChatProvider K) (roomId : String) :
    s.keepsRooms roomId = true ↔ (ledgerOf s).Roomy roomId := by
  simp only [ProviderState.keepsRooms, Bool.or_eq_true, decide_eq_true_eq, Ledger.Roomy, ledgerOf, OrderedMap.mem_keys,
    OrderedMap.has]

/-- Without a guard, a run is harmless as long as all its rooms could be kept. -/
theorem harmless_of_few (keyed : Keyed runtime keyOf) (settled : Settled settings keyOf first)
    (volatile : settings.durable = none) (few : (ledgerOf first).rooms.length + trace.length ≤ maxReplayRooms) :
    Harmless runtime settings keyOf sent first trace := by
  constructor
  · intro before sealedBytes context reply rest s slot _ _ _ _ guards
    rw [Ledger.Guards, volatile] at guards
    cases guards.1
  · rintro before intruder rest s split arrives - between entry tail s' split' onward ⟨_, context, _, _, _, drops⟩
    have arrived := (corresponds_told keyed settled (corresponds_append.mpr ⟨s, arrives, onward⟩)).2.2
    have room : ¬ (ledgerOf s').rooms.length < maxReplayRooms := by
      rw [← Bool.not_eq_true, keepsRooms_iff] at drops
      exact fun less => drops (.inr less)
    have bounded : (standing s').ledger.rooms.length ≤
        (standing first).ledger.rooms.length + ((before ++ between).map Prod.fst).length :=
      arrived ▸ after_rooms_le (standing first) _
    rw [List.length_map, List.length_append] at bounded
    have length := congrArg List.length split
    rw [split', List.length_append, List.length_append, List.length_cons] at length
    change (ledgerOf s').rooms.length ≤ (ledgerOf first).rooms.length + _ at bounded
    omega

/-- A seal gets a counter from the allocator, and writes it into what it returns. -/
theorem run_seals (keyed : Keyed runtime keyOf) (ideal : Ideal runtime keyOf sent) (settled : Settled settings keyOf s)
    {plaintext : Bytes} (ran : Corresponds runtime settings s ((.seal_ plaintext context, reply) :: rest) last)
    {ctr : ℕ}
    (allocated : runtime.nextCtr context.roomId context.senderUid s.own.allocated = .ok ctr) (fits : ctr < 2 ^ 64)
    (noted : sent context plaintext ctr) : ∃ sealedBytes, reply = .ok (some sealedBytes) ∧
      SealedAs runtime keyOf sent context plaintext ctr sealedBytes := by
  obtain ⟨sealedBytes, made⟩ := seal_total keyed ideal context plaintext fits
  have returned := (corresponds_head keyed settled ran).1
  simp only [Mail.pass, standing, allocated, Except.bind, made] at returned
  exact ⟨sealedBytes, returned.symm, noted, made⟩

variable (settings) in
/-- A counter that has not been accepted in its conversation passes the check. -/
theorem refusal_fresh {ledger : Ledger} (honest : ledger.Honest) {slot : Slot}
    (fresh : slot ∉ ledger.accepted) (unguarded : ¬ ledger.Guards settings slot) :
    (ledger.enter slot.context.roomId).refusal settings "sframe-chat" slot = none := by
  have memory : slot.ctr ∉ (ledger.enter slot.context.roomId).memory slot.context :=
    fun member => fresh (honest.enter slot.context.roomId slot.context slot.ctr member)
  unfold Ledger.refusal
  rw [if_neg memory]
  exact if_neg unguarded

theorem run_opens (keyed : Keyed runtime keyOf) (ideal : Ideal runtime keyOf sent)
    (settled : Settled settings keyOf first)
    (honest : (ledgerOf first).Honest) (earlier : Corresponds runtime settings first before s)
    (ran : Corresponds runtime settings s ((.unseal_ sealedBytes context, reply) :: rest) last) {plaintext : Bytes}
    {ctr : ℕ} (sealed : SealedAs runtime keyOf sent context plaintext ctr sealedBytes)
    (named : (ledgerOf s).Guards settings ⟨context, ctr⟩ → ⟨context, ctr⟩ ∈ (ledgerOf s).accepted)
    (fresh : ⟨context, ctr⟩ ∉ (ledgerOf first).accepted)
    (never : ∀ entry ∈ before, entry.1 ≠ .unseal_ sealedBytes context) : reply = .ok (some plaintext) := by
  obtain ⟨-, settled', stands⟩ := corresponds_told keyed settled earlier
  have ledger := congrArg Standing.ledger stands
  have unseen : ⟨context, ctr⟩ ∉ (ledgerOf s).accepted := by
    intro member
    rw [show ledgerOf s = _ from ledger] at member
    rcases after_accepted member with old | ⟨otherBytes, other, called, parsed, opens⟩
    · exact fresh old
    · -- What has taken the counter was sealed with it, so it is the same buffer.
      obtain ⟨carried, again⟩ := (opening_iff ideal).mp opens
      obtain rfl : carried = ctr :=
        congrArg Slot.ctr (Except.ok.inj ((sealedAs_slot again context).symm.trans parsed))
      obtain ⟨-, rfl⟩ := sealedAs_unique ideal sealed again
      obtain ⟨entry, listed, call⟩ := List.mem_map.mp called
      exact never entry listed call
  have honest' : (ledgerOf s).Honest := by
    rw [show ledgerOf s = _ from ledger]
    exact after_honest honest _
  have passes := refusal_fresh settings honest' unseen fun guards => unseen (named guards)
  have returned := (corresponds_head keyed settled' ran).1
  simp only [Mail.pass, sealedAs_slot sealed context, standing, Ledger.receive, passes,
    (opening_iff ideal).mpr ⟨ctr, sealed⟩] at returned
  exact returned.symm

/-- What comes after a call with something foreign comes out the same without it. -/
theorem run_unaffected (keyed : Keyed runtime keyOf) (ideal : Ideal runtime keyOf sent)
    (settled : Settled settings keyOf s)
    (ran : Corresponds runtime settings s ((.unseal_ sealedBytes context, reply) :: rest) last)
    (foreign : Foreign runtime keyOf sent context sealedBytes)
    (roomy : Intrudes runtime keyOf sent s (.unseal_ sealedBytes context) → ∀ between entry tail s',
      (.unseal_ sealedBytes context, reply) :: rest = between ++ entry :: tail →
        Corresponds runtime settings s between s' → ¬ Drops s' entry.1) :
    ∃ last, Corresponds runtime settings s rest last := by
  apply told_corresponds keyed settled
  obtain ⟨-, told⟩ := corresponds_head keyed settled ran
  obtain ⟨refused, ledger, passed, ⟨-, same⟩ | ⟨slot, parsed, entered⟩⟩ :=
    foreign_refused settings ideal foreign (standing s)
  · rw [passed, same] at told
    exact told
  · by_cases known : context.roomId ∈ (ledgerOf s).rooms
    · rw [passed, entered, show (standing s).ledger = ledgerOf s from rfl, Ledger.enter_known known] at told
      exact told
    · have absent : s.replayWindows.has context.roomId = false := by
        rw [← Bool.not_eq_true]
        exact fun listed => known (OrderedMap.mem_keys.mpr listed)
      have keeps := roomy ⟨sealedBytes, context, slot, rfl, parsed, foreign, absent⟩
      have room : ∀ between entry tail s', (.unseal_ sealedBytes context, reply) :: rest = between ++ entry :: tail →
          Corresponds runtime settings s between s' → Roomy (standing s') entry.1 := by
        intro between entry tail s' split arrives b c slot call parsed
        apply (keepsRooms_iff s' c.roomId).mp
        rw [← Bool.not_eq_false]
        exact fun drops => keeps between entry tail s' split arrives ⟨b, c, slot, call, parsed, drops⟩
      have entry := room [] _ rest s rfl (.done s) sealedBytes context slot rfl parsed
      have trails : Trails (standing s) ((Mail.unseal_ sealedBytes context).pass runtime settings
        keyOf (standing s)).2 := by
        have few : ((Mail.unseal_ sealedBytes context).pass runtime settings keyOf (standing s)).2.ledger.rooms.length ≤
          maxReplayRooms := pass_few settled.ready.few _
        rw [passed] at few ⊢
        rw [entered] at few ⊢
        exact ⟨Ledger.behind_enter entry s.replayWindows.nodup, rfl, few⟩
      refine told_trails trails (fun before entry tail split => ?_) told
      rw [split, ← List.cons_append] at ran
      obtain ⟨s', arrives, -⟩ := corresponds_append.mp ran
      have stands := (corresponds_told keyed settled arrives).2.2
      have found := room _ entry tail s' (by rw [split, List.cons_append]) arrives
      rw [stands] at found
      exact found

/-- **What has been sealed opens, and nothing else leaves a trace.** Under ideal
cryptography, from any cache and any windows, every run of seals and unseals ends; if it
is harmless, the first unseal of a sealed buffer returns what was sealed, foreign buffers
are rejected, and the rest of the run is the same without such a call. -/
theorem chat_binds (keyed : Keyed runtime keyOf) (ideal : Ideal runtime keyOf sent)
    (settled : Settled settings keyOf first)
    (honest : (ledgerOf first).Honest) :
    (∀ mails, ∃ trace last, trace.map Prod.fst = mails ∧ Corresponds runtime settings first trace last) ∧
      ∀ trace last, Corresponds runtime settings first trace last → Noted runtime settings sent first trace →
        Harmless runtime settings keyOf sent first trace → Bound runtime settings keyOf sent first trace := by
  refine ⟨corresponds_total keyed settled, fun trace last ran noted harmless => ?_⟩
  constructor
  · intro before plaintext context reply rest s ctr split arrives allocated fits
    rw [split] at ran
    obtain ⟨middle, earlier, onward⟩ := corresponds_append.mp ran
    obtain rfl := corresponds_unique earlier arrives
    have settled' := (corresponds_told keyed settled earlier).2.1
    exact run_seals keyed ideal settled' onward allocated fits
      (noted before plaintext context reply rest middle ctr split earlier allocated)
  · intro before sealedBytes context reply rest plaintext ctr split sealed fresh never
    rw [split] at ran
    obtain ⟨middle, earlier, onward⟩ := corresponds_append.mp ran
    exact run_opens keyed ideal settled honest earlier onward sealed
      (harmless.named before sealedBytes context reply rest middle _ split earlier ⟨plaintext, ctr, sealed⟩
        (sealedAs_slot sealed context)) fresh never
  · intro sealedBytes context reply member foreign
    obtain ⟨before, rest, split⟩ := List.append_of_mem member
    rw [split] at ran
    obtain ⟨middle, earlier, onward⟩ := corresponds_append.mp ran
    have settled' := (corresponds_told keyed settled earlier).2.1
    obtain ⟨returned, -⟩ := corresponds_head keyed settled' onward
    obtain ⟨refused, ledger, passed, -⟩ := foreign_refused settings ideal foreign (standing middle)
    rw [passed] at returned
    exact ⟨refused, returned.symm⟩
  · intro before sealedBytes context reply rest split foreign
    rw [split] at ran
    obtain ⟨middle, earlier, onward⟩ := corresponds_append.mp ran
    have settled' := (corresponds_told keyed settled earlier).2.1
    obtain ⟨last', without⟩ := run_unaffected keyed ideal settled' onward foreign
      (harmless.roomy before _ rest middle split earlier)
    exact ⟨last', corresponds_append.mpr ⟨middle, earlier, without⟩⟩

end Binding
/-! ## A run that is harmless, and one that is not -/

section Checked
open ChatSpecimen (memorySettings ann)

/-- The two bytes of the sender's name that stand for it in a header. -/
def indexOf (senderUid : String) : ℕ := readBytes ((textEncode senderUid).take 2) &&& 0xffff

/-- A key that tells the room and the sender. -/
def keyOf (context : SealContext) : SFrameKey (Bytes × Bytes) where
  kid := indexOf context.senderUid
  epoch := 0
  peerIndex := indexOf context.senderUid
  cryptoKey := (textEncode context.roomId, infoKey context.senderUid)
  salt := List.replicate ivBytes 0

def hello : Bytes := [104, 105]

/-- Ann has sealed one plaintext, and nobody anything else. -/
def sent (context : SealContext) (plaintext : Bytes) (ctr : ℕ) : Prop := context = ann ∧ plaintext = hello ∧ ctr = 0

def tagged (plaintext : Bytes) : Bytes := plaintext ++ List.replicate aeadTagBytes 0

/-- Digests are what they are made of, and the AEAD opens what ann has sealed. -/
def runtime : ChatRuntime (Bytes × Bytes) Unit where
  crypto :=
    { encrypt := fun _ _ _ plaintext => some (tagged plaintext)
      decrypt := fun key iv aad ct =>
        if key = (keyOf ann).cryptoKey ∧ serializeHeader (keyOf ann).kid 0 = .ok aad ∧
          deriveIv (keyOf ann).salt 0 = .ok iv ∧ ct = tagged hello then some hello else none
      importAesKey := fun raw => (raw, [])
      hkdfExtractExpand := fun _ _ length _ => List.replicate length 0 }
  digest := id
  usages _ := ["deriveKey", "deriveBits"]
  deriveKey _ salt info := .ok (salt, info)
  deriveBits _ _ _ length := .ok (List.replicate (length / 8) 0)
  getKey _ _ := .ok ()
  nextCtr _ _ allocated := .ok allocated

/-- What ann's plaintext is sealed into. -/
def mail : Bytes :=
  match sframeEncrypt runtime.crypto hello (keyOf ann) 0 none .prefixed with
  | .ok sealedBytes => sealedBytes
  | .error _ => []

def provider : ChatProvider (Bytes × Bytes) := .create memorySettings {} ∅

theorem textEncode_injective : Function.Injective textEncode := fun first second same => by
  apply String.toByteArray_inj.mp
  exact ByteArray.ext (Array.ext' same)

theorem keyed : Keyed runtime keyOf where
  base roomId := ⟨(), fun _ => rfl, by decide, fun _ => ⟨rfl, rfl⟩⟩
  salted context := List.length_replicate
  identified context := by
    have narrow : indexOf context.senderUid ≤ 0xffff := Nat.and_le_right
    refine ⟨?_, rfl, rfl⟩
    change Kid.makeKid 0 (indexOf context.senderUid : ℕ) = .ok (indexOf context.senderUid)
    rw [Kid.makeKid, if_neg (by omega), if_neg (by omega)]
    simp [indexOf]

theorem ideal : Ideal runtime keyOf sent where
  keys context other same := by
    simp only [keyOf, Prod.mk.injEq, infoKey, List.append_cancel_left_eq] at same
    cases context
    cases other
    exact congrArg₂ SealContext.mk (textEncode_injective same.1) (textEncode_injective same.2)
  seals key iv aad plaintext := ⟨_, rfl⟩
  tagged key iv aad plaintext ct made := by
    obtain rfl := Option.some.inj made
    simp [tagged]
  opens key iv aad ct plaintext := by
    constructor
    · intro opened
      simp only [runtime] at opened
      split at opened
      · rename_i matches_
        obtain ⟨rfl, written, derived, rfl⟩ := matches_
        obtain rfl := Option.some.inj opened
        exact ⟨ann, 0, rfl, ⟨rfl, rfl, rfl⟩, aad, written, derived, rfl, rfl⟩
      · cases opened
    · rintro ⟨context, ctr, rfl, ⟨rfl, rfl, rfl⟩, header, written, derived, rfl, made⟩
      exact if_pos ⟨rfl, written, derived, (Option.some.inj made).symm⟩
  counters context plaintext other ctr one two := one.2.1.trans two.2.1.symm
  buffers := by
    rintro context other sealedBytes ⟨plaintext, ctr, one, -⟩ ⟨plaintext', ctr', two, -⟩
    exact one.1.trans two.1.symm

theorem settled : Settled memorySettings keyOf provider where
  ready := ready_create _ _
  warm roomId senderUid keys found := by cases found

theorem honest : (ledgerOf provider).Honest := fun context ctr member => by cases member

theorem mail_sealed : SealedAs runtime keyOf sent ann hello 0 mail := by
  obtain ⟨sealedBytes, made⟩ : ∃ sealedBytes, sframeEncrypt runtime.crypto hello (keyOf ann) 0 none .prefixed =
    .ok sealedBytes := seal_total keyed ideal ann hello (by omega)
  refine ⟨⟨rfl, rfl, rfl⟩, ?_⟩
  rw [mail, made]

theorem mail_foreign {context : SealContext} (room : context.roomId ≠ "room") :
    Foreign runtime keyOf sent context mail :=
  .inl ⟨ann, .inl room, hello, 0, mail_sealed⟩

/-- The rooms of a crowd: none of them is ann's. -/
def name (n : ℕ) : String := String.ofList (List.replicate n 'x')

theorem name_injective : Function.Injective name := fun first second same => by
  simpa using congrArg List.length (String.ofList_injective same)

theorem name_other (n : ℕ) : name n ≠ "room" := by
  intro same
  have chars : List.replicate n 'x' = ['r', 'o', 'o', 'm'] := String.ofList_injective same
  have first : 'r' ∈ List.replicate n 'x' := by
    rw [chars]
    exact List.mem_cons_self
  exact absurd (List.eq_of_mem_replicate first) (by decide)

/-- Ann's mail comes to a room of the crowd. -/
def astray (n : ℕ) : Mail := .unseal_ mail ⟨name n, "ann"⟩

/-- It is rejected, and has come to a replay check. -/
theorem astray_enters (now : Standing) (n : ℕ) : ∃ refused, (astray n).pass runtime memorySettings keyOf now =
    (.error refused, { now with ledger := now.ledger.enter (name n) }) := by
  have foreign : Foreign runtime keyOf sent ⟨name n, "ann"⟩ mail := mail_foreign (name_other n)
  obtain ⟨refused, ledger, passed, ⟨⟨malformed, parsed⟩, -⟩ | ⟨slot, -, rfl⟩⟩ :=
    foreign_refused memorySettings ideal foreign now
  · rw [sealedAs_slot mail_sealed] at parsed
    cases parsed
  · exact ⟨refused, passed⟩

/-- As long as there is room, the crowd takes it. -/
theorem crowd_enters {now : Standing} {n : ℕ} (few : now.ledger.rooms.length + n ≤ maxReplayRooms)
    (fresh : ∀ m < n, name m ∉ now.ledger.rooms) :
    after runtime memorySettings keyOf now ((List.range n).map astray) =
      { now with ledger := { now.ledger with rooms := now.ledger.rooms ++ (List.range n).map name } } := by
  induction n with
  | zero => simp [after]
  | succ n ih =>
    have earlier := ih (by omega) fun m less => fresh m (by omega)
    unfold after at earlier ⊢
    rw [List.range_succ, List.map_append, List.foldl_append, earlier]
    obtain ⟨refused, passed⟩ := astray_enters { now with
      ledger := { now.ledger with rooms := now.ledger.rooms ++ (List.range n).map name } } n
    have absent : name n ∉ now.ledger.rooms ++ (List.range n).map name := by
      intro member
      rcases List.mem_append.mp member with old | crowd
      · exact fresh n (by omega) old
      · obtain ⟨m, less, same⟩ := List.mem_map.mp crowd
        exact absurd (name_injective same) (List.mem_range.mp less).ne
    simp only [List.map_cons, List.map_nil, List.foldl_cons, List.foldl_nil, passed]
    rw [Ledger.enter_roomy (.inr (by simp only [List.length_append, List.length_map, List.length_range]; omega))]
    simp only [if_neg absent, List.map_append, List.map_cons, List.map_nil, List.append_assoc]

/-- Ann's mail comes to her own room, where it opens unless it is remembered. -/
theorem ann_passes (now : Standing) : (Mail.unseal_ mail ann).pass runtime memorySettings keyOf now =
    if 0 ∈ (now.ledger.enter "room").memory ann then
      (.error (Ledger.replayed "sframe-chat" ⟨ann, 0⟩ ""), { now with ledger := now.ledger.enter "room" })
    else (.ok (some hello), { now with ledger := (now.ledger.enter "room").record memorySettings ⟨ann, 0⟩ }) := by
  have opens : opening runtime keyOf mail ann = .ok hello := (opening_iff ideal).mpr ⟨0, mail_sealed⟩
  have unguarded : ¬ (now.ledger.enter "room").Guards memorySettings ⟨ann, 0⟩ := fun guards => by cases guards.1
  simp only [Mail.pass, sealedAs_slot mail_sealed ann, opens]
  unfold Ledger.receive Ledger.refusal
  dsimp only
  change (_ : Reply × Standing) = if 0 ∈ (now.ledger.enter "room").memory ann then _ else _
  by_cases seen : 0 ∈ (now.ledger.enter "room").memory ann
  · simp only [show ann.roomId = "room" from rfl, seen, ↓reduceIte]
    rfl
  · simp only [show ann.roomId = "room" from rfl, seen, unguarded, ↓reduceIte]
    rfl

/-- Ann's mail has been opened, and then it has come to a crowd of rooms. -/
def crowd (n : ℕ) : List Mail := .unseal_ mail ann :: (List.range n).map astray

theorem crowd_stands {n : ℕ} (few : n < maxReplayRooms) :
    (after runtime memorySettings keyOf (standing provider) (crowd n)).ledger.rooms =
        "room" :: (List.range n).map name ∧
      (after runtime memorySettings keyOf (standing provider) (crowd n)).ledger.memory ann = [0] := by
  have entered : (standing provider).ledger.enter "room" = { ledgerOf provider with rooms := ["room"] } :=
    Ledger.enter_roomy (.inr (by decide))
  let opened : Standing := ⟨({ ledgerOf provider with rooms := ["room"] } : Ledger).record memorySettings ⟨ann, 0⟩, 0⟩
  have first : ((Mail.unseal_ mail ann).pass runtime memorySettings keyOf (standing provider)).2 = opened := by
    rw [ann_passes, entered]
    exact congrArg Prod.snd (if_neg List.not_mem_nil)
  have rest := @crowd_enters opened n (by simp only [opened, Ledger.record, List.length_singleton]; omega)
    fun m _ member => name_other m (List.mem_singleton.mp member)
  rw [← first] at rest
  rw [show after runtime memorySettings keyOf (standing provider) (crowd n) = _ from rest, first]
  exact ⟨rfl, rfl⟩

/-- **Rejected calls make a provider forget.** When ann's mail has come to as many other
rooms as there can be, it is opened a second time; without the last of these calls, all of
which are rejected, it is not. -/
theorem rejected_calls_forget : Keyed runtime keyOf ∧ Ideal runtime keyOf sent ∧
    Settled memorySettings keyOf provider ∧ (ledgerOf provider).Honest ∧
      ¬ ∀ trace last, Corresponds runtime memorySettings provider trace last →
        Noted runtime memorySettings sent provider trace → Bound runtime memorySettings keyOf sent provider trace := by
  refine ⟨keyed, ideal, settled, honest, fun bound => ?_⟩
  obtain ⟨before, s, calls, arrives⟩ := corresponds_total keyed settled (crowd 1023)
  obtain ⟨-, settled', stands⟩ := corresponds_told keyed settled arrives
  obtain ⟨rooms, memory⟩ := @crowd_stands 1023 (by decide)
  rw [← calls, ← stands] at rooms memory
  -- The last room of the crowd takes the place of ann's.
  obtain ⟨refused, rejected⟩ := astray_enters (standing s) 1023
  have absent : name 1023 ∉ (standing s).ledger.rooms := by
    rw [rooms]
    intro member
    rcases List.mem_cons.mp member with own | crowded
    · exact name_other 1023 own
    · obtain ⟨m, less, same⟩ := List.mem_map.mp crowded
      exact absurd (name_injective same) (List.mem_range.mp less).ne
  have gone : (standing s).ledger.gone (name 1023) = ["room"] := by
    have excess : (standing s).ledger.excess (name 1023) = 1 := by
      simp [Ledger.excess, rooms, maxReplayRooms]
    rw [Ledger.gone, if_neg absent, excess, rooms]
    rfl
  have forgotten : ((standing s).ledger.enter (name 1023)).memory ann = [] := by
    have room : ann.roomId ∈ (standing s).ledger.gone (name 1023) := gone ▸ List.mem_singleton_self _
    exact if_pos room
  obtain ⟨s', ran, settled'', enters⟩ := mail_passes keyed settled' (astray 1023)
  rw [rejected] at ran enters
  obtain ⟨last, again, -⟩ := mail_passes keyed settled'' (.unseal_ mail ann)
  have unseen : 0 ∉ ((standing s').ledger.enter "room").memory ann := by
    rw [enters]
    intro member
    have earlier : 0 ∈ ((standing s).ledger.enter (name 1023)).memory ann := Ledger.mem_enter member
    rw [forgotten] at earlier
    cases earlier
  rw [ann_passes, if_neg unseen] at again
  have whole := corresponds_append.mpr ⟨s, arrives, .next ran (.next again (.done last))⟩
  have noted {rest : List (Mail × Reply)} (same : rest.map Prod.fst = [astray 1023, .unseal_ mail ann]) :
      Noted runtime memorySettings sent provider (before ++ rest) := by
    refine noted_of_unseals fun plaintext context member => ?_
    rw [List.map_append, calls, same] at member
    simp [crowd, astray] at member
  -- Without that call ann's mail is remembered.
  obtain ⟨last', without⟩ := (bound _ _ whole (noted rfl)).unaffected before mail _ _ _ rfl
    (mail_foreign (name_other 1023))
  obtain ⟨middle, earlier, onward⟩ := corresponds_append.mp without
  obtain rfl := corresponds_unique arrives earlier
  have returned := (corresponds_head keyed settled' onward).1
  have known : (standing s).ledger.enter "room" = (standing s).ledger :=
    Ledger.enter_known (rooms ▸ List.mem_cons_self)
  rw [ann_passes, known, memory, if_pos (List.mem_singleton_self 0)] at returned
  cases returned

/-- Ann's plaintext is sealed, and what it is sealed into is rejected elsewhere and opens
for her. -/
theorem ann_binds : ∃ trace last,
    trace.map Prod.fst = [.seal_ hello ann, astray 0, .unseal_ mail ann] ∧
      Corresponds runtime memorySettings provider trace last ∧
      Bound runtime memorySettings keyOf sent provider trace := by
  obtain ⟨total, binds⟩ := chat_binds keyed ideal settled honest
  obtain ⟨trace, last, calls, ran⟩ := total [.seal_ hello ann, astray 0, .unseal_ mail ann]
  refine ⟨trace, last, calls, ran, binds trace last ran ?_ ?_⟩
  · intro before plaintext context reply rest s ctr split arrives allocated
    rw [split, List.map_append, List.map_cons] at calls
    cases before with
    | nil =>
      cases arrives
      obtain rfl : 0 = ctr := Except.ok.inj allocated
      obtain ⟨rfl, rfl⟩ := Mail.seal_.inj (List.cons.inj calls).1
      exact ⟨rfl, rfl, rfl⟩
    | cons entry before =>
      have member : .seal_ plaintext context ∈ [astray 0, .unseal_ mail ann] := by
        rw [← (List.cons.inj calls).2]
        exact List.mem_append_right _ List.mem_cons_self
      simp [astray] at member
  · have three := congrArg List.length calls
    rw [List.length_map] at three
    exact harmless_of_few keyed settled rfl (three ▸ by decide)

end Checked
end SFrameRatchet.ChatBinding
