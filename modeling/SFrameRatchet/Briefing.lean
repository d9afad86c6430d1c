import SFrameRatchet.Conference
import SFrameRatchet.PostingOrder

/-! A conference whose parties are run by their cryptors. What the cryptors post comes from one
agreement for each epoch, so all parties are told the same keys, each of them in its own seat. -/
namespace SFrameRatchet.Briefing
open Collections Crypto JsObject Kid KeyWrap Throwing Media Cryptor PostingOrder Party Conference

variable {K G ι : Type}

/-! ## Tables -/

theorem installKeys_ok {kidCodec : KidCodec} {epoch : ℤ} {bundles : List (ℤ × PerSenderKeyBundle K)}
    (named : ∀ entry ∈ bundles, ∃ kid, kidCodec.encode epoch entry.1 = .ok kid) :
    ∀ keys, ∃ made, Worker.installKeys kidCodec epoch bundles keys = .ok made := by
  induction bundles with
  | nil => exact fun keys => ⟨keys, rfl⟩
  | cons entry rest ih =>
    intro keys
    obtain ⟨kid, encoded⟩ := named entry List.mem_cons_self
    obtain ⟨made, installed⟩ := ih (fun other member => named other (List.mem_cons_of_mem _ member))
      (keys.set entry.1 { kid, epoch, peerIndex := entry.1, cryptoKey := entry.2.cryptoKey, salt := entry.2.salt
                          rawKey := entry.2.rawKey })
    refine ⟨made, ?_⟩
    simp only [Worker.installKeys, encoded, bind, Except.bind, installed]

/-- The keys of a table are named in its epoch. -/
theorem table_named {crypto : WebCrypto K} {chainKey : Bytes} {epoch : ℤ} {peerIndexMap : PlainObject ℤ}
    {suite : CipherSuite} {kidCodec : KidCodec} {table : OrderedMap ℤ (RatchetKey K)}
    (derived : deriveEpochKeyTable crypto chainKey epoch peerIndexMap suite kidCodec = .ok table) {peerIndex : ℤ}
    {key : RatchetKey K} (held : table.get? peerIndex = some key) :
    ∃ kid, kidCodec.encode epoch peerIndex = .ok kid := by
  exact ⟨key.kid, deriveSenderKeys_named crypto ((get?_deriveEpochKeyTable crypto derived).mp held).2⟩

theorem bundlesOf_laid {crypto : WebCrypto K} {chainKey : Bytes} {epoch : ℤ} {peerIndexMap : PlainObject ℤ}
    {suite : CipherSuite} {kidCodec : KidCodec} {table : OrderedMap ℤ (RatchetKey K)}
    (derived : deriveEpochKeyTable crypto chainKey epoch peerIndexMap suite kidCodec = .ok table) :
    ∃ made, Worker.installKeys kidCodec epoch (bundlesOf table).entries ∅ = .ok made := by
  apply installKeys_ok
  intro entry member
  have held : (bundlesOf table).get? entry.1 = some entry.2 := OrderedMap.mem_entries.mp member
  rw [bundlesOf, OrderedMap.get?_mapValues] at held
  obtain ⟨key, found, -⟩ := Option.map_eq_some_iff.mp held
  exact table_named derived found

/-- An epoch that keys are derived for is a natural number. -/
theorem derived_nonneg {crypto : WebCrypto K} {settings : Settings} {given : EpochParams → Prop} {epoch peerIndex : ℤ}
    {keys : KeyBundles K} (derived : Derived crypto settings given epoch peerIndex keys) : 0 ≤ epoch := by
  obtain ⟨params, table, -, -, own, made, -⟩ := derived
  have listed : peerIndex ∈ params.peerIndexMap.values := OrderedMap.mem_values.mpr ⟨_, PlainObject.get_own.mp own⟩
  obtain ⟨-, -, kid, named⟩ :=
    (deriveSenderKeys_ok crypto).mp ((deriveEpochKeyTable_ok crypto).mp ⟨table, made⟩ peerIndex listed)
  have nonnegative := decode_epoch_nonneg settings.kidCodec kid
  rwa [(decode_encode named).1] at nonnegative

/-! ## One agreement for all -/

/-- The epochs that a cryptor has posted keys of, in order. -/
def epochsOf (posts : List (Posted K)) : List ℤ :=
  posts.filterMap fun posted => match posted with
    | .message (.epoch epoch _ _) => some epoch
    | _ => none

/-- The parties' cryptors are set up alike and are given one chain key and one map of distinct
indices for each epoch, in the order of the epochs. -/
structure Alike (crypto : WebCrypto K) (settings : ι → Settings) (given : EpochParams → Prop)
    (posts : ι → List (Posted K)) : Prop where
  laidOut : ∀ i, makeKidCodec ((settings i).kidFormat.getD .fixed) (settings i).mlsConfig = .ok (settings i).kidCodec
  alike : ∀ i j, (settings i).suite = (settings j).suite ∧ (settings i).kidCodec = (settings j).kidCodec
  one : ∀ params params', given params → given params' → params.epoch = params'.epoch → params = params'
  seats : ∀ params, given params → ∀ i j peerIndex, params.peerIndexMap.get (settings i).peerId = .own peerIndex →
    params.peerIndexMap.get (settings j).peerId = .own peerIndex → i = j
  conversation : ∀ i, ∃ opened, Conversation crypto (settings i) given opened (posts i)
  rising : ∀ i, (epochsOf (posts i)).Pairwise (· < ·)

variable {crypto : WebCrypto K} {settings : ι → Settings} {given : EpochParams → Prop} {posts : ι → List (Posted K)}
  {i j : ι} {epoch peerIndex peerIndex' : ℤ} {keys keys' : KeyBundles K}

section Terms
variable (alike : Alike crypto settings given posts)

include alike

/-- All parties derive the same bundles. -/
theorem derived_same (one : Derived crypto (settings i) given epoch peerIndex keys)
    (two : Derived crypto (settings j) given epoch peerIndex' keys') : keys = keys' := by
  obtain ⟨params, table, asked, named, -, derived, rfl⟩ := one
  obtain ⟨params', table', asked', named', -, derived', rfl⟩ := two
  obtain rfl := alike.one params params' asked asked' (named.trans named'.symm)
  rw [(alike.alike i j).1, (alike.alike i j).2, derived'] at derived
  rw [Except.ok.inj derived]

theorem derived_seat (one : Derived crypto (settings i) given epoch peerIndex keys)
    (two : Derived crypto (settings j) given epoch peerIndex keys') : i = j := by
  obtain ⟨params, table, asked, named, seat, -, -⟩ := one
  obtain ⟨params', table', asked', named', seat', -, -⟩ := two
  obtain rfl := alike.one params params' asked asked' (named.trans named'.symm)
  exact alike.seats params asked i j peerIndex seat seat'

theorem derived_own (one : Derived crypto (settings i) given epoch peerIndex keys)
    (two : Derived crypto (settings i) given epoch peerIndex' keys') : peerIndex = peerIndex' := by
  obtain ⟨params, table, asked, named, seat, -, -⟩ := one
  obtain ⟨params', table', asked', named', seat', -, -⟩ := two
  obtain rfl := alike.one params params' asked asked' (named.trans named'.symm)
  rw [seat] at seat'
  exact Property.own.inj seat'

end Terms

open Classical in
/-- What the parties derive for each epoch. -/
noncomputable def terms (crypto : WebCrypto K) (settings : ι → Settings) (given : EpochParams → Prop) (i : ι) :
    Terms K where
  kidCodec := (settings i).kidCodec
  bundles epoch :=
    if known : ∃ i peerIndex keys, Derived crypto (settings i) given epoch peerIndex
      keys then known.choose_spec.choose_spec.choose
    else ∅

open Classical in
/-- The seat of each party in an epoch that it has been told of. -/
noncomputable def seatOf (crypto : WebCrypto K) (settings : ι → Settings) (given : EpochParams → Prop)
    (i : ι) (epoch : ℤ) :
    Option ℤ :=
  if known : ∃ peerIndex keys, Derived crypto (settings i) given epoch peerIndex keys then some known.choose else none

theorem terms_bundles (alike : Alike crypto settings given posts)
    (derived : Derived crypto (settings i) given epoch peerIndex keys) (first : ι) :
    (terms crypto settings given first).bundles epoch = keys := by
  have known : ∃ i peerIndex keys, Derived crypto (settings i) given epoch peerIndex keys :=
    ⟨i, peerIndex, keys, derived⟩
  unfold terms
  dsimp only
  rw [dif_pos known]
  exact derived_same alike known.choose_spec.choose_spec.choose_spec derived

theorem seatOf_derived (alike : Alike crypto settings given posts)
    (derived : Derived crypto (settings i) given epoch peerIndex keys) :
    seatOf crypto settings given i epoch = some peerIndex := by
  have known : ∃ peerIndex keys, Derived crypto (settings i) given epoch peerIndex keys := ⟨peerIndex, keys, derived⟩
  unfold seatOf
  rw [dif_pos known]
  exact congrArg some (derived_own alike known.choose_spec.choose_spec derived)

theorem derived_of_seatOf (seat : seatOf crypto settings given i epoch = some peerIndex) :
    ∃ keys, Derived crypto (settings i) given epoch peerIndex keys := by
  unfold seatOf at seat
  split at seat
  · rename_i known
    obtain rfl := Option.some.inj seat
    exact known.choose_spec
  · cases seat

theorem apart_seatOf (alike : Alike crypto settings given posts) : Apart (seatOf crypto settings given) := by
  intro i j epoch peerIndex one two
  obtain ⟨keys, first⟩ := derived_of_seatOf one
  obtain ⟨keys', second⟩ := derived_of_seatOf two
  exact derived_seat alike first second

theorem terms_laid (alike : Alike crypto settings given posts)
    (derived : Derived crypto (settings i) given epoch peerIndex keys) (first : ι) :
    ∃ made, (terms crypto settings given first).keys epoch = .ok made := by
  unfold Terms.keys
  rw [terms_bundles alike derived first]
  obtain ⟨params, table, -, named, -, made, rfl⟩ := derived
  subst named
  have codec : (terms crypto settings given first).kidCodec = (settings i).kidCodec := (alike.alike first i).2
  rw [codec]
  exact bundlesOf_laid made

/-! ## From a conversation to an agenda -/

theorem agenda_append {terms : Terms K} {settings : Settings} {index : ℤ → Option ℤ} {stage stage' last : Stage}
    {first second : List (Posted K)} (one : Agenda terms settings index stage first stage')
    (two : Agenda terms settings index stage' second last) : Agenda terms settings index stage
    (first ++ second) last := by
  induction one with
  | done => exact two
  | next said _ ih => exact .next said (ih two)

theorem agenda_said {terms : Terms K} {settings : Settings} {index : ℤ → Option ℤ} {stage stage' last : Stage}
    {posts : List (Posted K)} {posted : Posted K} (before : Agenda terms settings index stage posts stage')
    (said : Says terms settings index stage' posted last) : Agenda terms settings index stage
    (posts ++ [posted]) last :=
  agenda_append before (.next said .done)

theorem epochsOf_append (first second : List (Posted K)) :
    epochsOf (first ++ second) = epochsOf first ++ epochsOf second :=
  List.filterMap_append

theorem epochsOf_installing (role : Role) (epoch peerIndex : ℤ) (keys : KeyBundles K) :
    epochsOf (installing role epoch peerIndex keys) = [epoch] := by
  cases role <;> rfl

/-- A conversation in which the epochs go up is an agenda. -/
theorem agenda_of_conversation (alike : Alike crypto settings given posts) (first : ι) {opened : Bool}
    {log : List (Posted K)}
    (conversation : Conversation crypto (settings i) given opened log) (rising : (epochsOf log).Pairwise (· < ·)) :
    ∃ stage, Agenda (terms crypto settings given first) (settings i) (seatOf crypto settings given i)
      ⟨false, false, -1⟩ log stage ∧
      stage.opened = opened ∧ (stage.top = -1 ∨ stage.top ∈ epochsOf log) := by
  induction conversation with
  | silence => exact ⟨_, .done, rfl, .inl rfl⟩
  | init _ peerIndex ih =>
    rw [epochsOf_append] at rising ⊢
    obtain ⟨stage, agenda, closed, top⟩ := ih (List.pairwise_append.mp rising).1
    exact ⟨_, agenda_said agenda (.init closed peerIndex), rfl, top.imp id (List.mem_append_left _)⟩
  | streams _ side ih =>
    rw [epochsOf_append] at rising ⊢
    obtain ⟨stage, agenda, opened, top⟩ := ih (List.pairwise_append.mp rising).1
    exact ⟨_, agenda_said agenda (.streams opened side), opened, top.imp id (List.mem_append_left _)⟩
  | rtctransform _ side ih =>
    rw [epochsOf_append] at rising ⊢
    obtain ⟨stage, agenda, opened, top⟩ := ih (List.pairwise_append.mp rising).1
    exact ⟨_, agenda_said agenda (.rtctransform opened side), opened, top.imp id (List.mem_append_left _)⟩
  | @epoch log epoch peerIndex keys _ derived ih =>
    rw [epochsOf_append, epochsOf_installing] at rising ⊢
    obtain ⟨earlier, -, later⟩ := List.pairwise_append.mp rising
    obtain ⟨stage, agenda, opened, top⟩ := ih earlier
    obtain ⟨made, laid⟩ := terms_laid alike derived first
    have seat := seatOf_derived alike derived
    have above : stage.top < epoch := by
      rcases top with none_yet | held
      · have nonnegative := derived_nonneg derived
        omega
      · exact later stage.top held epoch (List.mem_singleton_self epoch)
    have bundles := terms_bundles alike derived first
    refine ⟨{ stage with keyed := true, top := epoch }, ?_, opened,
      .inr (List.mem_append_right _ (List.mem_singleton_self _))⟩
    have said : Says (terms crypto settings given first) (settings i) (seatOf crypto settings given i) stage
        (.message (.epoch epoch peerIndex ((terms crypto settings given first).bundles epoch)))
        { stage with keyed := true, top := epoch } := .epoch opened above seat laid
    have again : Says (terms crypto settings given first) (settings i) (seatOf crypto settings given i)
        { stage with keyed := true, top := epoch }
        (.message (.rotate epoch peerIndex ((terms crypto settings given first).bundles epoch)))
        { stage with keyed := true, top := epoch } := .rotate opened rfl seat laid
    rw [bundles] at said again
    apply agenda_append agenda
    unfold installing
    split
    · exact .next said (.next again .done)
    · exact .next said .done
  | teardown _ ih =>
    rw [epochsOf_append] at rising ⊢
    obtain ⟨stage, agenda, opened, top⟩ := ih (List.pairwise_append.mp rising).1
    exact ⟨_, agenda_said agenda (.teardown opened), rfl, top.imp id (List.mem_append_left _)⟩

/-! ## Conferences -/

theorem agreed_alike {runtime : Runtime K G} (correct : runtime.crypto.Correct)
    (alike : Alike runtime.crypto settings given posts)
    (first : ι) :
    Agreed runtime (terms runtime.crypto settings given first) settings
      (seatOf runtime.crypto settings given) posts where
  correct := correct
  laidOut i := (alike.laidOut i).trans (congrArg Except.ok (alike.alike i first).2)
  apart := apart_seatOf alike
  agenda i := by
    obtain ⟨opened, conversation⟩ := alike.conversation i
    obtain ⟨stage, agenda, -⟩ := agenda_of_conversation alike first conversation (alike.rising i)
    exact ⟨stage, agenda⟩

section Room

/-- A sender and a receiver of one room. -/
def roomOf : Fin 2 → Settings
  | 0 => loneSender
  | 1 => { loneSender with role := .receiver, peerId := utf16 ['b'] }

def roomParams : EpochParams where
  epoch := 0
  peerIndexMap := PlainObject.define (PlainObject.define ∅ (utf16 ['a']) 0) (utf16 ['b']) 1
  chainKey := List.replicate 32 7

def roomTable : OrderedMap ℤ (RatchetKey Bytes) :=
  (deriveEpochKeyTable Specimen.crypto roomParams.chainKey 0 roomParams.peerIndexMap
    defaultCipherSuite .fixed).toOption.getD ∅

def roomPosts (i : Fin 2) : List (Posted Bytes) :=
  [.message (.init (initMsg (roomOf i) 0))] ++ installing (roomOf i).role 0 i.val (bundlesOf roomTable)

theorem room_set (i : Fin 2) : (roomOf i).suite = defaultCipherSuite ∧ (roomOf i).kidCodec = .fixed ∧
    (roomOf i).kidFormat = none ∧ roomParams.peerIndexMap.get (roomOf i).peerId = .own (i.val : ℤ) := by
  revert i
  decide

theorem room_derived (i : Fin 2) : Derived Specimen.crypto (roomOf i) (· = roomParams) 0 i.val
    (bundlesOf roomTable) := by
  have made : (deriveEpochKeyTable Specimen.crypto roomParams.chainKey 0 roomParams.peerIndexMap defaultCipherSuite
      .fixed).toOption.isSome = true := by decide +kernel
  obtain ⟨suite, layout, -, seat⟩ := room_set i
  refine ⟨roomParams, roomTable, rfl, rfl, seat, ?_, rfl⟩
  · rw [suite, layout]
    unfold roomTable
    cases derived : deriveEpochKeyTable Specimen.crypto roomParams.chainKey 0 roomParams.peerIndexMap
      defaultCipherSuite .fixed with
    | ok table => rfl
    | error refused => rw [derived] at made; cases made

theorem room_alike : Alike Specimen.crypto roomOf (· = roomParams) roomPosts where
  laidOut i := by rw [(room_set i).2.1, (room_set i).2.2.1]; rfl
  alike i j := ⟨(room_set i).1.trans (room_set j).1.symm, (room_set i).2.1.trans (room_set j).2.1.symm⟩
  one := by
    rintro _ _ rfl rfl _
    rfl
  seats := by
    rintro _ rfl i j peerIndex one two
    rw [(room_set i).2.2.2] at one
    rw [(room_set j).2.2.2, ← one] at two
    have same := Property.own.inj two
    omega
  conversation i := ⟨true, .epoch (.init .silence 0) (room_derived i)⟩
  rising i := by
    rw [roomPosts, epochsOf_append, epochsOf_installing]
    exact List.pairwise_singleton _ _

end Room

section Runs
variable [DecidableEq ι] {runtime : Runtime K G} {c : Meeting ι K G} {k : ι} {flight : Flight} {rest : List Flight}

/-- **Delivery.** Whatever the parties of a conference did before, and whatever was lost, a
frame that comes to a party is opened to the bytes that its sender gave exactly when its epoch
is live there, as the party's own epoch is. Otherwise it is parked or refused, and is left as
it came. -/
theorem frames_delivered (correct : runtime.crypto.Correct) (alike : Alike runtime.crypto settings given posts)
    (reached : Reachable runtime (convene posts) c) (next : c.wires i k = flight :: rest) :
    ∃ outcome w, alone (receiving runtime flight.frame) (c.members k).worker = some (outcome, w) ∧
      (Live (c.members k).worker flight → outcome = .ok (.opened ⟨0, .header⟩ flight.plain) ∧
        w.frames.read (c.members k).worker.frames.next = { flight.frame with data := flight.plain }) ∧
      (¬ Live (c.members k).worker flight → (outcome = .ok .parked ∨ ∃ refused, outcome = .error refused) ∧
        w.frames.read (c.members k).worker.frames.next = flight.frame) ∧
      (flight.slot.epoch = (c.members k).worker.currentEpoch → Live (c.members k).worker flight) :=
  opens_reachable (agreed_alike correct alike i) reached next

/-- The second of two frames comes, the first is lost. -/
theorem frames_delivered_second : ∃ c : Meeting (Fin 2) Bytes Unit, Reachable Specimen.runtime (convene roomPosts) c ∧
    ∃ flight w, c.wires 0 1 = [flight] ∧
      alone (receiving Specimen.runtime flight.frame) (c.members 1).worker = some
        (.ok (.opened ⟨0, .header⟩ [3]), w) := by
  have result : (([.hears 0, .hears 0, .hears 0, .hears 1, .hears 1, .sends 0 ⟨[1, 2], none⟩,
    .sends 0 ⟨[3], none⟩, .loses 0 1] :
      List (Turn (Fin 2))).foldlM (Meeting.perform Specimen.runtime) (convene roomPosts)).map (fun c =>
        ((c.wires 0 1).map fun flight => (flight.plain, flight.slot.epoch), (c.members 1).worker.currentEpoch)) =
      some ([([3], 0)], 0) := by
    decide +kernel
  obtain ⟨c, played, facts⟩ := Option.map_eq_some_iff.mp result
  obtain ⟨wire, current⟩ := Prod.mk.inj facts
  obtain ⟨flight, on, parts⟩ := List.map_eq_singleton_iff.mp wire
  obtain ⟨plain, epoch⟩ := Prod.mk.inj parts
  have reached := reachable_play .start played
  obtain ⟨outcome, w, decodes, opens, -, live⟩ := frames_delivered Specimen.crypto_correct room_alike reached on
  obtain ⟨rfl, -⟩ := opens (live (epoch.trans current.symm))
  rw [plain] at decodes
  exact ⟨c, reached, flight, w, on, decodes⟩

/-- **Waiting.** Every frame that waits at a party is one that was sent. Once the party is told of
its epoch the frame waits no more, and has the bytes that its sender gave. -/
theorem frames_awake (correct : runtime.crypto.Correct) (alike : Alike runtime.crypto settings given posts)
    (reached : Reachable runtime (convene posts) c) {posted : Posted K} {later : List (Posted K)}
    (next : (c.members k).pending = posted :: later) {outcome : Except JsError Unit} {w : Worker K G}
    (ran : alone (hearing runtime posted) (c.members k).worker = some (outcome, w))
    {ref : Ref} (waits : ref ∈ (c.members k).worker.preEpochQueue) :
    ∃ i, ∃ flight ∈ c.sent i, (c.members k).worker.frames.read ref = flight.frame ∧
      (Live w flight → ref ∉ w.preEpochQueue ∧ w.frames.read ref = { flight.frame with data := flight.plain }) :=
  wakes_reachable (agreed_alike correct alike k) reached next ran waits

/-- A frame comes before the keys. -/
theorem frames_awake_early : ∃ c : Meeting (Fin 2) Bytes Unit, Reachable Specimen.runtime (convene roomPosts) c ∧
    ∃ ref ∈ (c.members 1).worker.preEpochQueue, ∃ c' : Meeting (Fin 2) Bytes Unit,
      c.perform Specimen.runtime (.hears 1) = some c' ∧ ref ∉ (c'.members 1).worker.preEpochQueue ∧
      (c'.members 1).worker.frames.read ref = ⟨[1, 2], none⟩ := by
  have result : (([.hears 0, .hears 0, .hears 0, .hears 1, .sends 0 ⟨[1, 2], none⟩, .delivers 0 1] :
      List (Turn (Fin 2))).foldlM (Meeting.perform Specimen.runtime) (convene roomPosts)).bind (fun c =>
        (c.perform Specimen.runtime (.hears 1)).map fun c' =>
          ((c.members 1).worker.preEpochQueue.length, (c.sent 0).map (fun flight =>
            ({ flight.frame with data := flight.plain }, flight.slot.epoch)),
            (c.sent 1).length, (c'.members 1).worker.epochs.has 0, (c'.members 1).worker.currentMinValidEpoch)) =
      some (1, [(⟨[1, 2], none⟩, 0)], 0, true, 0) := by
    decide +kernel
  obtain ⟨c, played, heard⟩ := Option.bind_eq_some_iff.mp result
  obtain ⟨c', performed, facts⟩ := Option.map_eq_some_iff.mp heard
  simp only [Prod.mk.injEq] at facts
  obtain ⟨queue, sent, none_else, installed, valid⟩ := facts
  obtain ⟨posted, rest, outcome, w, next, ran, rfl⟩ := perform_hears performed
  have reached := reachable_play .start played
  obtain ⟨ref, alone⟩ := List.length_eq_one_iff.mp queue
  have waits : ref ∈ (c.members 1).worker.preEpochQueue := by simp [alone]
  obtain ⟨i, flight, among, -, wakes⟩ := frames_awake Specimen.crypto_correct room_alike reached next ran waits
  have first : i = 0 := by
    by_contra other
    obtain rfl : i = 1 := by omega
    rw [List.eq_nil_of_length_eq_zero none_else] at among
    cases among
  subst first
  obtain ⟨_, only, parts⟩ := List.map_eq_singleton_iff.mp sent
  rw [only] at among
  obtain rfl := List.mem_singleton.mp among
  obtain ⟨plain, epoch⟩ := Prod.mk.inj parts
  simp only [Meeting.turn, Function.update_self] at installed valid
  have live : Live w flight := by
    unfold Live
    rw [epoch]
    exact ⟨installed, le_of_eq valid⟩
  obtain ⟨left, bytes⟩ := wakes live
  refine ⟨c, reached, ref, waits, c.turn 1 ⟨w, rest⟩, performed, ?_, ?_⟩
  · simpa [Meeting.turn] using left
  · simp only [Meeting.turn, Function.update_self]
    rw [bytes, plain]

/-- **No slot twice.** No two frames of a conference are sealed under one epoch, index and counter,
whoever sent them and whether or not the workers were initialised anew in between. -/
theorem slots_distinct (correct : runtime.crypto.Correct) (alike : Alike runtime.crypto settings given posts)
    (reached : Reachable runtime (convene posts) c) (i : ι) :
    ((c.sent i).Pairwise fun flight later => flight.slot ≠ later.slot) ∧
      ∀ j, i ≠ j → ∀ flight ∈ c.sent i, ∀ other ∈ c.sent j, flight.slot ≠ other.slot := by
  obtain ⟨own, others⟩ := slots_reachable (agreed_alike correct alike i) reached
  exact ⟨own i, others i⟩

/-- A worker that is told its keys twice goes on counting. -/
theorem slots_distinct_two : ∃ c : Meeting (Fin 2) Bytes Unit, (c.sent 0).length = 2 ∧
    (c.sent 0).Pairwise fun flight later => flight.slot ≠ later.slot := by
  have result : (([.hears 0, .hears 0, .sends 0 ⟨[1, 2], none⟩, .hears 0, .sends 0 ⟨[1, 2], none⟩] :
      List (Turn (Fin 2))).foldlM (Meeting.perform Specimen.runtime) (convene roomPosts)).map (fun c =>
        (c.sent 0).length) =
      some 2 := by
    decide +kernel
  obtain ⟨c, played, two⟩ := Option.map_eq_some_iff.mp result
  exact ⟨c, two, (slots_distinct Specimen.crypto_correct room_alike (reachable_play .start played) 0).1⟩

end Runs
end SFrameRatchet.Briefing
