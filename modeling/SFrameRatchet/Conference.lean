import SFrameRatchet.PartyTurns

/-! A conference: workers that hear what their cryptors have posted, each in its own time, and
send each other frames over channels that lose frames but keep the order of the rest. A frame
that comes while its epoch is live at the receiver is opened to what was sent, in whatever order
the parties take their turns. A turn is one call that runs to its end. -/
namespace SFrameRatchet.Conference
open Collections Crypto Kid KeyWrap Throwing Coroutine Media Cryptor Party

variable {K G ι : Type}

/-- A worker, and what it has not heard yet. -/
structure Member (K G : Type) where
  worker : Worker K G
  pending : List (Posted K)

/-- The parties, the frames on their way between any two of them, and all that has been sent. -/
structure Meeting (ι K G : Type) where
  members : ι → Member K G
  wires : ι → ι → List Flight
  sent : ι → List Flight

/-- Nobody has heard anything. -/
def convene (posts : ι → List (Posted K)) : Meeting ι K G where
  members i := { worker := Worker.createWorkerState, pending := posts i }
  wires _ _ := []
  sent _ := []

section Steps
variable [DecidableEq ι] (runtime : Runtime K G)

/-- One party has had a turn. -/
def Meeting.turn (c : Meeting ι K G) (i : ι) (member : Member K G) : Meeting ι K G :=
  { c with members := Function.update c.members i member }

/-- A frame is put on the wire to every party. -/
def Meeting.broadcast (c : Meeting ι K G) (i : ι) (flight : Flight) : Meeting ι K G :=
  { c with
    wires := Function.update c.wires i fun k => c.wires i k ++ [flight]
    sent := Function.update c.sent i (c.sent i ++ [flight]) }

/-- A frame is taken off a wire. -/
def Meeting.take (c : Meeting ι K G) (i k : ι) (rest : List Flight) : Meeting ι K G :=
  { c with wires := Function.update c.wires i (Function.update (c.wires i) k rest) }

/-- Encode a frame, or decode it. -/
def sending (frame : EncodedFrame) : Task K G Unit := receive frame >>= fun ref => encodeFrame runtime ref frame.kind

def receiving (frame : EncodedFrame) : Task K G Path := receive frame >>= decodeFrame runtime

/-- One turn, of any party, at any time. -/
inductive Step : Meeting ι K G → Meeting ι K G → Prop where
  | hears {c : Meeting ι K G} (i : ι) {posted : Posted K} {rest : List (Posted K)}
      (next : (c.members i).pending = posted :: rest) {outcome : Except JsError Unit} {w : Worker K G}
      (ran : alone (hearing runtime posted) (c.members i).worker = some (outcome, w)) : Step c (c.turn i ⟨w, rest⟩)
  | wipes {c : Meeting ι K G} (i : ι) (epoch : ℤ) {outcome : Except JsError Unit} {w : Worker K G}
      (ran : alone (fireWipeTimer runtime epoch) (c.members i).worker = some (outcome, w)) :
      Step c (c.turn i ⟨w, (c.members i).pending⟩)
  | sends {c : Meeting ι K G} (i : ι) (frame : EncodedFrame) {w : Worker K G}
      (ran : alone (sending runtime frame) (c.members i).worker = some (.ok (), w)) :
      Step c ((c.turn i ⟨w, (c.members i).pending⟩).broadcast i
        ⟨nextSlot (c.members i).worker, frame.data, w.frames.read (c.members i).worker.frames.next⟩)
  | fails {c : Meeting ι K G} (i : ι) (frame : EncodedFrame) {refused : JsError} {w : Worker K G}
      (ran : alone (sending runtime frame) (c.members i).worker = some (.error refused, w)) :
      Step c (c.turn i ⟨w, (c.members i).pending⟩)
  | loses {c : Meeting ι K G} (i k : ι) {flight : Flight} {rest : List Flight} (next : c.wires i k = flight :: rest) :
      Step c (c.take i k rest)
  | delivers {c : Meeting ι K G} (i k : ι) {flight : Flight} {rest : List Flight}
      (next : c.wires i k = flight :: rest) {outcome : Except JsError Path} {w : Worker K G}
      (ran : alone (receiving runtime flight.frame) (c.members k).worker = some (outcome, w)) :
      Step c ((c.turn k ⟨w, (c.members k).pending⟩).take i k rest)

/-- Any number of turns. -/
inductive Reachable (start : Meeting ι K G) : Meeting ι K G → Prop where
  | start : Reachable start start
  | step {c c' : Meeting ι K G} (reached : Reachable start c) (step : Step runtime c c') : Reachable start c'

/-- A turn that is asked for. -/
inductive Turn (ι : Type) where
  | hears (i : ι)
  | wipes (i : ι) (epoch : ℤ)
  | sends (i : ι) (frame : EncodedFrame)
  | loses (i k : ι)
  | delivers (i k : ι)

/-- Take a turn, if there is something to hear or to take. -/
def Meeting.perform (c : Meeting ι K G) : Turn ι → Option (Meeting ι K G)
  | .hears i =>
    match (c.members i).pending with
    | [] => none
    | posted :: rest => (alone (hearing runtime posted) (c.members i).worker).map fun done => c.turn i ⟨done.2, rest⟩
  | .wipes i epoch =>
    (alone (fireWipeTimer runtime epoch) (c.members i).worker).map fun done => c.turn i ⟨done.2, (c.members i).pending⟩
  | .sends i frame =>
    (alone (sending runtime frame) (c.members i).worker).map fun done =>
      match done.1 with
      | .ok () => (c.turn i ⟨done.2, (c.members i).pending⟩).broadcast i
          ⟨nextSlot (c.members i).worker, frame.data, done.2.frames.read (c.members i).worker.frames.next⟩
      | .error _ => c.turn i ⟨done.2, (c.members i).pending⟩
  | .loses i k =>
    match c.wires i k with
    | [] => none
    | _ :: rest => some (c.take i k rest)
  | .delivers i k =>
    match c.wires i k with
    | [] => none
    | flight :: rest =>
      (alone (receiving runtime flight.frame) (c.members k).worker).map fun done =>
        (c.turn k ⟨done.2, (c.members k).pending⟩).take i k rest

variable {runtime}

theorem perform_hears {c c' : Meeting ι K G} {i : ι} (performed : c.perform runtime (.hears i) = some c') :
    ∃ posted rest outcome w, (c.members i).pending = posted :: rest ∧
      alone (hearing runtime posted) (c.members i).worker = some (outcome, w) ∧ c' = c.turn i ⟨w, rest⟩ := by
  unfold Meeting.perform at performed
  dsimp only at performed
  split at performed
  · cases performed
  · rename_i posted rest next
    obtain ⟨⟨outcome, w⟩, ran, rfl⟩ := Option.map_eq_some_iff.mp performed
    exact ⟨posted, rest, outcome, w, next, ran, rfl⟩

theorem step_perform {c c' : Meeting ι K G} {turn : Turn ι} (performed : c.perform runtime turn = some c') :
    Step runtime c c' := by
  cases turn with
  | hears i =>
    obtain ⟨posted, rest, outcome, w, next, ran, rfl⟩ := perform_hears performed
    exact .hears i next ran
  | wipes i epoch =>
    obtain ⟨done, ran, rfl⟩ := Option.map_eq_some_iff.mp performed
    exact .wipes i epoch ran
  | sends i frame =>
    obtain ⟨⟨outcome, w⟩, ran, rfl⟩ := Option.map_eq_some_iff.mp performed
    cases outcome with
    | ok value => exact .sends i frame ran
    | error refused => exact .fails i frame ran
  | loses i k =>
    unfold Meeting.perform at performed
    dsimp only at performed
    split at performed
    · cases performed
    · rename_i flight rest next
      cases performed
      exact .loses i k next
  | delivers i k =>
    unfold Meeting.perform at performed
    dsimp only at performed
    split at performed
    · cases performed
    · rename_i flight rest next
      obtain ⟨done, ran, rfl⟩ := Option.map_eq_some_iff.mp performed
      exact .delivers i k next ran

/-- A list of turns leads to a meeting that can be reached. -/
theorem reachable_play {start c c' : Meeting ι K G} (reached : Reachable runtime start c) {turns : List (Turn ι)}
    (played : turns.foldlM (Meeting.perform runtime) c = some c') : Reachable runtime start c' := by
  induction turns generalizing c with
  | nil =>
    cases played
    exact reached
  | cons turn turns ih =>
    rw [List.foldlM_cons] at played
    obtain ⟨next, performed, played⟩ := Option.bind_eq_some_iff.mp played
    exact ih (reached.step (step_perform performed)) played

end Steps

/-! ## Order -/

/-- What is left to be said, from one stage to another. -/
inductive Agenda (terms : Terms K) (settings : Settings) (index : ℤ → Option ℤ) :
    Stage → List (Posted K) → Stage → Prop where
  | done {stage : Stage} : Agenda terms settings index stage [] stage
  | next {stage stage' last : Stage} {posted : Posted K} {rest : List (Posted K)}
      (said : Says terms settings index stage posted stage') (onward : Agenda terms settings index stage' rest last) :
      Agenda terms settings index stage (posted :: rest) last

variable {runtime : Runtime K G} {terms : Terms K} {settings : ι → Settings} {index : ι → ℤ → Option ℤ}
  {c c' : Meeting ι K G}

/-- What the parties remember beside their workers. -/
structure Notes (ι : Type) where
  stage : ι → Stage
  heard : ι → Set Slot
  waiting : ι → List (Ref × Flight)

/-- A slot that this party has sealed under. -/
def From (index : ι → ℤ → Option ℤ) (c : Meeting ι K G) (notes : Notes ι) (i : ι) (slot : Slot) : Prop :=
  index i slot.epoch = some slot.peerIndex ∧ Issued (notes.stage i) (c.members i).worker slot

/-- Every party attends to its conversation, and behind whatever a party has heard or keeps
waiting, the frames come in the order in which they were sealed. -/
structure Orderly (runtime : Runtime K G) (terms : Terms K) (settings : ι → Settings) (index : ι → ℤ → Option ℤ)
    (c : Meeting ι K G) (notes : Notes ι) : Prop where
  agenda : ∀ i, ∃ last, Agenda terms (settings i) (index i) (notes.stage i) (c.members i).pending last
  attends : ∀ i, Attending runtime terms (index i) (notes.stage i) (notes.heard i) (notes.waiting i)
    (c.members i).worker
  sealed : ∀ i, ∀ flight ∈ c.sent i, Sealed runtime terms flight
  own : ∀ i, ∀ flight ∈ c.sent i, From index c notes i flight.slot
  ordered : ∀ i, (c.sent i).Pairwise Precedes
  carried : ∀ i k, (c.wires i k).Sublist (c.sent i)
  fresh : ∀ i k, ∀ flight ∈ c.wires i k, Fresh (notes.heard k) flight
  behind : ∀ i k, ∀ entry ∈ notes.waiting k, ∀ flight ∈ c.wires i k, Precedes entry.2 flight
  hearsay : ∀ k, ∀ slot ∈ notes.heard k, ∃ i, From index c notes i slot
  waits : ∀ k, ∀ entry ∈ notes.waiting k, ∃ i, entry.2 ∈ c.sent i

/-- No two parties have one index in an epoch. -/
def Apart (index : ι → ℤ → Option ℤ) : Prop :=
  ∀ i j epoch peerIndex, index i epoch = some peerIndex → index j epoch = some peerIndex → i = j

/-! ## Turns keep the order -/

/-- Frames of two parties are never taken for each other. -/
theorem precedes_of_from (apart : Apart index) {notes : Notes ι} {i k : ι} {first second : Flight}
    (one : From index c notes i first.slot)
    (two : From index c notes k second.slot) (other : i ≠ k) : Precedes first second := by
  intro epoch peer
  exact absurd (apart i k _ _ one.1 (by rw [epoch, peer]; exact two.1)) other

section Turns
variable [DecidableEq ι] {notes : Notes ι} {i k : ι}

/-- The notes after a turn of one party. -/
def Notes.turn (notes : Notes ι) (k : ι) (stage : Stage) (heard : Set Slot) (waiting : List (Ref × Flight)) :
    Notes ι where
  stage := Function.update notes.stage k stage
  heard := Function.update notes.heard k heard
  waiting := Function.update notes.waiting k waiting

theorem from_turn {member : Member K G} {stage : Stage} {heard : Set Slot} {waiting : List (Ref × Flight)}
    (issued : ∀ slot, Issued (notes.stage k) (c.members k).worker slot → Issued stage member.worker slot) {slot : Slot}
    (own : From index c notes i slot) : From index (c.turn k member) (notes.turn k stage heard waiting) i slot := by
  refine ⟨own.1, ?_⟩
  simp only [Meeting.turn, Notes.turn]
  by_cases same : i = k
  · subst same
    simpa using issued slot own.2
  · simpa [same] using own.2

/-- A turn of one party, at which some frames may have arrived. -/
theorem orderly_turn (orderly : Orderly runtime terms settings index c notes) {member : Member K G} {stage : Stage}
    {heard : Set Slot} {rest arrived : List (Ref × Flight)}
    (agenda : ∃ last, Agenda terms (settings k) (index k) stage member.pending last)
    (attends : Attending runtime terms (index k) stage heard rest member.worker)
    (issued : ∀ slot, Issued (notes.stage k) (c.members k).worker slot → Issued stage member.worker slot)
    (settled : Settled (notes.heard k) (notes.waiting k ++ arrived) heard rest)
    (arrival : ∀ entry ∈ arrived, ∃ i, entry.2 ∈ c.sent i)
    (ahead : ∀ entry ∈ arrived, ∀ i, ∀ flight ∈ c.wires i k, Precedes entry.2 flight) :
    Orderly runtime terms settings index (c.turn k member) (notes.turn k stage heard rest) := by
  have before (i : ι) (entry : Ref × Flight) (member : entry ∈ notes.waiting k ++ arrived) (flight : Flight)
      (on : flight ∈ c.wires i k) : Precedes entry.2 flight := by
    rcases List.mem_append.mp member with old | new
    · exact orderly.behind i k entry old flight on
    · exact ahead entry new i flight on
  have comes (entry : Ref × Flight) (member : entry ∈ notes.waiting k ++ arrived) : ∃ i, entry.2 ∈ c.sent i := by
    rcases List.mem_append.mp member with old | new
    · exact orderly.waits k entry old
    · exact arrival entry new
  constructor
  · intro i
    by_cases same : i = k
    · subst same
      simpa [Meeting.turn, Notes.turn] using agenda
    · simpa [Meeting.turn, Notes.turn, same] using orderly.agenda i
  · intro i
    by_cases same : i = k
    · subst same
      simpa [Meeting.turn, Notes.turn] using attends
    · simpa [Meeting.turn, Notes.turn, same] using orderly.attends i
  · exact orderly.sealed
  · exact fun i flight sent => from_turn issued (orderly.own i flight sent)
  · exact orderly.ordered
  · exact orderly.carried
  · intro i j flight on
    by_cases same : j = k
    · subst same
      simp only [Notes.turn, Function.update_self]
      exact settled.fresh (orderly.fresh i j flight on) fun entry member => before i entry member flight on
    · simpa [Notes.turn, same] using orderly.fresh i j flight on
  · intro i j entry member flight on
    by_cases same : j = k
    · subst same
      simp only [Notes.turn, Function.update_self] at member
      exact before i entry (settled.rest.subset member) flight on
    · simp only [Notes.turn, Function.update_of_ne same] at member
      exact orderly.behind i j entry member flight on
  · intro j slot member
    by_cases same : j = k
    · subst same
      simp only [Notes.turn, Function.update_self] at member
      rcases settled.heard slot member with old | ⟨entry, among, rfl⟩
      · obtain ⟨i, own⟩ := orderly.hearsay j slot old
        exact ⟨i, from_turn issued own⟩
      · obtain ⟨i, sent⟩ := comes entry among
        exact ⟨i, from_turn issued (orderly.own i entry.2 sent)⟩
    · simp only [Notes.turn, Function.update_of_ne same] at member
      obtain ⟨i, own⟩ := orderly.hearsay j slot member
      exact ⟨i, from_turn issued own⟩
  · intro j entry member
    by_cases same : j = k
    · subst same
      simp only [Notes.turn, Function.update_self] at member
      exact comes entry (settled.rest.subset member)
    · simp only [Notes.turn, Function.update_of_ne same] at member
      exact orderly.waits j entry member

theorem never_arrived {holds : Ref × Flight → Prop} : ∀ entry ∈ ([] : List (Ref × Flight)), holds entry :=
  fun _ never => absurd never List.not_mem_nil

/-- A turn at which nothing is heard and nothing opened, and no counter goes down. -/
theorem orderly_quiet (orderly : Orderly runtime terms settings index c notes) {w : Worker K G}
    (attends : Attending runtime terms (index k) (notes.stage k) (notes.heard k) (notes.waiting k) w)
    (more : (c.members k).worker.ctr ≤ w.ctr) :
    Orderly runtime terms settings index (c.turn k ⟨w, (c.members k).pending⟩) notes := by
  have same : notes.turn k (notes.stage k) (notes.heard k) (notes.waiting k) = notes := by
    simp [Notes.turn]
  have turned : Orderly runtime terms settings index (c.turn k ⟨w, (c.members k).pending⟩)
      (notes.turn k (notes.stage k) (notes.heard k) (notes.waiting k)) :=
    orderly_turn orderly (orderly.agenda k) attends
      (fun slot issued => issued.imp_right fun now => ⟨now.1, fun keyed => Nat.lt_of_lt_of_le (now.2 keyed) more⟩)
      (by simpa using settled_refl (notes.heard k) (notes.waiting k)) never_arrived never_arrived
  rw [same] at turned
  exact turned

/-- A frame is lost, or is about to be decoded. -/
theorem orderly_take (orderly : Orderly runtime terms settings index c notes) {flight : Flight} {rest : List Flight}
    (next : c.wires i k = flight :: rest) : Orderly runtime terms settings index (c.take i k rest) notes := by
  have fewer (i' k' : ι) : ((c.take i k rest).wires i' k').Sublist (c.wires i' k') := by
    simp only [Meeting.take]
    by_cases sender : i' = i
    · subst sender
      by_cases receiver : k' = k
      · subst receiver
        simp [next]
      · simp [receiver]
    · simp [sender]
  exact ⟨orderly.agenda, orderly.attends, orderly.sealed, orderly.own, orderly.ordered,
    fun i k => (fewer i k).trans (orderly.carried i k),
    fun i k flight on => orderly.fresh i k flight ((fewer i k).subset on),
    fun i k entry member flight on => orderly.behind i k entry member flight ((fewer i k).subset on),
    orderly.hearsay, orderly.waits⟩

/-- What has been sent after a frame is put on the wires, and what is on them. -/
theorem sent_broadcast (c : Meeting ι K G) (i : ι) (flight : Flight) :
    (c.broadcast i flight).sent i = c.sent i ++ [flight] ∧
      ∀ j, j ≠ i → (c.broadcast i flight).sent j = c.sent j := by
  constructor
  · simp [Meeting.broadcast]
  · intro j other
    simp [Meeting.broadcast, other]

theorem wires_broadcast (c : Meeting ι K G) (i : ι) (flight : Flight) (k : ι) :
    (c.broadcast i flight).wires i k = c.wires i k ++ [flight] ∧
      ∀ j, j ≠ i → (c.broadcast i flight).wires j k = c.wires j k := by
  constructor
  · simp [Meeting.broadcast]
  · intro j other
    simp [Meeting.broadcast, other]

/-- A frame is put on the wires behind all that its sender has sealed before. -/
theorem orderly_broadcast (orderly : Orderly runtime terms settings index c notes) {flight : Flight}
    (sealed : Sealed runtime terms flight) (own : From index c notes i flight.slot)
    (fresh : ∀ k, Fresh (notes.heard k) flight) (behind : ∀ k, ∀ entry ∈ notes.waiting k, Precedes entry.2 flight)
    (last : ∀ earlier ∈ c.sent i, Precedes earlier flight) :
    Orderly runtime terms settings index (c.broadcast i flight) notes := by
  have all {holds : ι → Flight → Prop} (old : ∀ j, ∀ other ∈ c.sent j, holds j other) (new : holds i flight) :
      ∀ j, ∀ other ∈ (c.broadcast i flight).sent j, holds j other := by
    intro j other sent
    by_cases same : j = i
    · subst same
      rw [(sent_broadcast c j flight).1] at sent
      rcases List.mem_append.mp sent with before | now
      · exact old j other before
      · rw [List.mem_singleton.mp now]
        exact new
    · rw [(sent_broadcast c i flight).2 j same] at sent
      exact old j other sent
  have everywhere {holds : ι → Flight → Prop} (old : ∀ j k, ∀ other ∈ c.wires j k, holds k other)
    (new : ∀ k, holds k flight) :
      ∀ j k, ∀ other ∈ (c.broadcast i flight).wires j k, holds k other := by
    intro j k other on
    by_cases same : j = i
    · subst same
      rw [(wires_broadcast c j flight k).1] at on
      rcases List.mem_append.mp on with before | now
      · exact old j k other before
      · rw [List.mem_singleton.mp now]
        exact new k
    · rw [(wires_broadcast c i flight k).2 j same] at on
      exact old j k other on
  constructor
  · exact orderly.agenda
  · exact orderly.attends
  · exact all orderly.sealed sealed
  · exact all orderly.own own
  · intro j
    by_cases same : j = i
    · subst same
      rw [(sent_broadcast c j flight).1]
      refine List.pairwise_append.mpr ⟨orderly.ordered j, List.pairwise_singleton _ _,
        fun earlier member other new => ?_⟩
      rw [List.mem_singleton.mp new]
      exact last earlier member
    · rw [(sent_broadcast c i flight).2 j same]
      exact orderly.ordered j
  · intro j k
    by_cases same : j = i
    · subst same
      rw [(sent_broadcast c j flight).1, (wires_broadcast c j flight k).1]
      exact (orderly.carried j k).append (List.Sublist.refl _)
    · rw [(sent_broadcast c i flight).2 j same, (wires_broadcast c i flight k).2 j same]
      exact orderly.carried j k
  · exact everywhere orderly.fresh fresh
  · have ahead : ∀ j k, ∀ other ∈ (c.broadcast i flight).wires j k, ∀ entry ∈ notes.waiting k, Precedes entry.2 other :=
      everywhere (fun j k flight on entry member => orderly.behind j k entry member flight on) behind
    exact fun j k entry member flight on => ahead j k flight on entry member
  · exact orderly.hearsay
  · intro k entry member
    obtain ⟨j, sent⟩ := orderly.waits k entry member
    refine ⟨j, ?_⟩
    by_cases same : j = i
    · subst same
      rw [(sent_broadcast c j flight).1]
      exact List.mem_append_left _ sent
    · rw [(sent_broadcast c i flight).2 j same]
      exact sent

variable (correct : runtime.crypto.Correct) (laidOut : ∀ i, LaidOut terms (settings i)) (apart : Apart index)

include correct laidOut apart

/-- **A step.** Every turn keeps the order. -/
theorem orderly_step (orderly : Orderly runtime terms settings index c notes) (step : Step runtime c c') :
    ∃ notes', Orderly runtime terms settings index c' notes' := by
  cases step with
  | hears i next ran =>
    obtain ⟨last, agenda⟩ := orderly.agenda i
    rw [next] at agenda
    cases agenda with
    | next said onward =>
      have hears := hears_said correct (laidOut i) (orderly.attends i) said ran
      obtain ⟨heard, rest, attends, settled⟩ := hears.attends
      exact ⟨_, orderly_turn orderly ⟨last, onward⟩ attends hears.issued
        (by simpa using settled) never_arrived never_arrived⟩
  | wipes i epoch ran =>
    obtain ⟨attends, ctr⟩ := attends_wipeTimer (orderly.attends i) epoch ran
    exact ⟨_, orderly_quiet orderly attends ctr.ge⟩
  | sends i frame ran =>
    obtain ⟨attends, more, success⟩ := attends_encodes correct (orderly.attends i) frame ran
    obtain ⟨keyed, counted, latest, seat, sealed⟩ := success rfl
    -- whatever was sealed before under the same epoch and index is the sender's own, and below
    have newest {j : ι} {slot : Slot} (own : From index c notes j slot)
      (epoch : slot.epoch = (nextSlot (c.members i).worker).epoch)
        (peer : slot.peerIndex = (nextSlot (c.members i).worker).peerIndex) :
        slot.ctr < (nextSlot (c.members i).worker).ctr := by
      obtain rfl := apart j i slot.epoch slot.peerIndex own.1 (by rw [epoch, peer, latest]; exact seat)
      rcases own.2 with earlier | ⟨-, now⟩
      · omega
      · exact now keyed
    refine ⟨notes, orderly_broadcast (orderly_quiet orderly attends more) sealed ?_ ?_ ?_ ?_⟩
    · refine ⟨by rw [latest]; exact seat, .inr ⟨latest, fun _ => ?_⟩⟩
      simp only [Meeting.turn, Function.update_self, counted]
      exact Nat.lt_succ_self _
    · intro k ctr heard
      obtain ⟨j, own⟩ := orderly.hearsay k _ heard
      exact newest own rfl rfl
    · intro k entry member epoch peer
      obtain ⟨j, sent⟩ := orderly.waits k entry member
      exact newest (orderly.own j entry.2 sent) epoch peer
    · intro earlier member epoch peer
      exact newest (orderly.own i earlier member) epoch peer
  | fails i frame ran =>
    obtain ⟨attends, more, -⟩ := attends_encodes correct (orderly.attends i) frame ran
    exact ⟨_, orderly_quiet orderly attends more⟩
  | loses i k next => exact ⟨_, orderly_take orderly next⟩
  | @delivers i k flight rest next outcome w ran =>
    have first : flight ∈ c.wires i k := by simp [next]
    have sent : flight ∈ c.sent i := (orderly.carried i k).subset first
    obtain ⟨outcome', w', decodes, ⟨heard, waiting, attends, settled⟩, ctr, -⟩ :=
      attends_decodes correct (orderly.attends k)
      (orderly.sealed i flight sent) (orderly.fresh i k flight first) fun entry member =>
        orderly.behind i k entry member flight first
    obtain ⟨rfl, rfl⟩ : outcome' = outcome ∧ w' = w := by simpa using decodes.symm.trans ran
    refine ⟨_, orderly_turn (orderly_take orderly next) (orderly.agenda k) attends
      (fun slot issued => ?_) settled ?_ ?_⟩
    · unfold Issued
      rw [ctr]
      exact issued
    · intro entry member
      rw [List.mem_singleton.mp member]
      exact ⟨i, sent⟩
    · intro entry member j later on
      rw [List.mem_singleton.mp member]
      by_cases same : i = j
      · subst same
        have ordered := (orderly.ordered i).sublist (orderly.carried i k)
        rw [next] at ordered
        have on : later ∈ rest := by simpa [Meeting.take] using on
        exact (List.pairwise_cons.mp ordered).1 later on
      · have before := orderly_take orderly next
        exact precedes_of_from apart (orderly.own i flight sent)
          (orderly.own j later ((before.carried j k).subset on)) same

end Turns

/-! ## Runs -/

theorem attending_created (runtime : Runtime K G) (terms : Terms K) (index : ℤ → Option ℤ) :
    Attending runtime terms index ⟨false, false, -1⟩ ∅ [] Worker.createWorkerState where
  seated := {
    tuned := {
      codec := rfl
      trailer := rfl
      tolerant := (by decide : (-1 : ℤ) < 0)
      unguarded := rfl
      layout _ never := by cases never
      formats _ _ _ never := by cases never
      windows _ _ _ never := by cases never
      installed _ _ never := by cases never
      registered := Reinstall.registered_created }
    waits := ⟨never_arrived, never_arrived, never_arrived, .nil⟩
    queue := rfl
    made := never_arrived
    idle := ⟨rfl, rfl⟩ }
  voiced _ _ never := by cases never
  layout := .inl rfl
  ready never := by cases never
  current := rfl
  floor := le_refl _
  quiet _ := rfl
  asleep := never_arrived
  abides := ⟨fun never => absurd rfl never, (by decide : (0 : ℤ) ≤ max 0 (-1)), fun _ never => by cases never⟩

section Runs
variable [DecidableEq ι] {posts : ι → List (Posted K)} {i k : ι} {flight : Flight} {rest : List Flight}

/-- What all parties are told, each of them in its own seat. -/
structure Agreed (runtime : Runtime K G) (terms : Terms K) (settings : ι → Settings) (index : ι → ℤ → Option ℤ)
    (posts : ι → List (Posted K)) : Prop where
  correct : runtime.crypto.Correct
  laidOut : ∀ i, LaidOut terms (settings i)
  apart : Apart index
  agenda : ∀ i, ∃ last, Agenda terms (settings i) (index i) ⟨false, false, -1⟩ (posts i) last

/-- Whatever turns were taken, the order was kept. -/
theorem orderly_reachable (agreed : Agreed runtime terms settings index posts)
    (reached : Reachable runtime (convene posts) c) : ∃ notes, Orderly runtime terms settings index c notes := by
  induction reached with
  | start =>
    have nothing {holds : Flight → Prop} : ∀ flight ∈ ([] : List Flight), holds flight :=
      fun _ never => absurd never List.not_mem_nil
    exact ⟨⟨fun _ => ⟨false, false, -1⟩, fun _ => ∅, fun _ => []⟩, agreed.agenda, fun i => attending_created _ _ _,
      fun _ => nothing, fun _ => nothing, fun _ => .nil, fun _ _ => .slnil, fun _ _ => nothing, fun _ _ =>
        never_arrived,
      fun _ _ never => never.elim, fun _ => never_arrived⟩
  | step reached step ih =>
    obtain ⟨notes, orderly⟩ := ih
    exact orderly_step agreed.correct agreed.laidOut agreed.apart orderly step

/-- **Delivery.** In every conference that can be reached, a frame that comes to a party is opened
to the bytes that its sender gave exactly when its epoch is live there, which the party's own
epoch is. Otherwise it is parked or refused, and is left as it came. -/
theorem opens_reachable (agreed : Agreed runtime terms settings index posts)
    (reached : Reachable runtime (convene posts) c) (next : c.wires i k = flight :: rest) :
    ∃ outcome w, alone (receiving runtime flight.frame) (c.members k).worker = some (outcome, w) ∧
      (Live (c.members k).worker flight → outcome = .ok (.opened ⟨0, .header⟩ flight.plain) ∧
        w.frames.read (c.members k).worker.frames.next = { flight.frame with data := flight.plain }) ∧
      (¬ Live (c.members k).worker flight → (outcome = .ok .parked ∨ ∃ refused, outcome = .error refused) ∧
        w.frames.read (c.members k).worker.frames.next = flight.frame) ∧
      (flight.slot.epoch = (c.members k).worker.currentEpoch → Live (c.members k).worker flight) := by
  obtain ⟨notes, orderly⟩ := orderly_reachable agreed reached
  have first : flight ∈ c.wires i k := by simp [next]
  have sealed := orderly.sealed i flight ((orderly.carried i k).subset first)
  obtain ⟨outcome, w, decodes, -, -, opens, stays⟩ := attends_decodes agreed.correct (orderly.attends k) sealed
    (orderly.fresh i k flight first) fun entry member => orderly.behind i k entry member flight first
  refine ⟨outcome, w, decodes, opens, stays, fun same => ?_⟩
  obtain ⟨key, agreed, -⟩ := sealed
  have nonnegative := decode_epoch_nonneg terms.kidCodec key.kid
  rw [(decode_encode (key_named agreed).1).1] at nonnegative
  have current := (orderly.attends k).current
  have floor := (orderly.attends k).floor
  refine live_current (orderly.attends k).abides ?_ (by omega) same
  split at current <;> omega

/-- **No slot twice.** No two frames of a conference are sealed under one epoch, index and counter,
whoever sent them. -/
theorem slots_reachable (agreed : Agreed runtime terms settings index posts)
    (reached : Reachable runtime (convene posts) c) :
    (∀ i, (c.sent i).Pairwise fun flight later => flight.slot ≠ later.slot) ∧
      ∀ i j, i ≠ j → ∀ flight ∈ c.sent i, ∀ other ∈ c.sent j, flight.slot ≠ other.slot := by
  obtain ⟨notes, orderly⟩ := orderly_reachable agreed reached
  constructor
  · intro i
    refine (orderly.ordered i).imp fun {flight later} precedes same => ?_
    have below := precedes (by rw [same]) (by rw [same])
    rw [same] at below
    exact lt_irrefl _ below
  · intro i j apart flight sent other sent' same
    have one := (orderly.own i flight sent).1
    have two := (orderly.own j other sent').1
    rw [← same] at two
    exact apart (agreed.apart i j _ _ one two)

/-- **Waiting.** Every frame in a party's queue is one that was sent. When the party hears what
makes its epoch live it leaves the queue, and has the bytes that its sender gave. -/
theorem wakes_reachable (agreed : Agreed runtime terms settings index posts)
    (reached : Reachable runtime (convene posts) c) {posted : Posted K} {later : List (Posted K)}
    (next : (c.members k).pending = posted :: later) {outcome : Except JsError Unit} {w : Worker K G}
    (ran : alone (hearing runtime posted) (c.members k).worker = some (outcome, w))
    {ref : Ref} (waits : ref ∈ (c.members k).worker.preEpochQueue) :
    ∃ i, ∃ flight ∈ c.sent i, (c.members k).worker.frames.read ref = flight.frame ∧
      (Live w flight → ref ∉ w.preEpochQueue ∧ w.frames.read ref = { flight.frame with data := flight.plain }) := by
  obtain ⟨notes, orderly⟩ := orderly_reachable agreed reached
  have attends := orderly.attends k
  rw [attends.seated.queue] at waits
  obtain ⟨entry, member, rfl⟩ := List.mem_map.mp waits
  obtain ⟨i, sent⟩ := orderly.waits k entry member
  obtain ⟨last, agenda⟩ := orderly.agenda k
  rw [next] at agenda
  cases agenda with
  | next said onward =>
    have hears := hears_said agreed.correct (agreed.laidOut k) attends said ran
    refine ⟨i, entry.2, sent, attends.seated.waits.holds entry member, fun live =>
      ⟨fun again => ?_, hears.opened entry member live⟩⟩
    obtain ⟨heard, rest, attends', settled⟩ := hears.attends
    rw [attends'.seated.queue] at again
    obtain ⟨other, left, same⟩ := List.mem_map.mp again
    have own : other = entry := List.inj_on_of_nodup_map attends.seated.waits.apart
      (settled.rest.subset left) member same
    rw [own] at left
    exact attends'.asleep entry left live

end Runs
end SFrameRatchet.Conference
