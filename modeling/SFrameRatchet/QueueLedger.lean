import SFrameRatchet.FrameWalk
import SFrameRatchet.Reinstall

/-! What becomes of the frames that are parked. A ledger accounts for each of them:
it was decrypted, dropped with a signal, found stale, is in the hand of the drain in
progress, or waits in the queue. Notes say what the calls in flight have of it, and
every step of a call under a fixed configuration keeps it. -/
namespace SFrameRatchet.QueueLedger
open Collections Crypto Kid Header SFrame CodecPartial Coroutine Media EpochTable FrameWalk
open Reinstall (Registered)

variable {K G ι : Type}

/-! ## Headers -/

/-- The codecs that leave the same clear prefix in all frames. -/
def SinglePrefix : Option Codec → Prop
  | none | some .h264 | some .opus => True
  | some .vp8 | some .vp9 | some .av1 => False

theorem getUnencryptedBytes_single {codec : Option Codec} (single : SinglePrefix codec) (frameKind : Option FrameKind) :
    getUnencryptedBytes codec frameKind = getUnencryptedBytes codec none := by
  rcases codec with _ | (_ | _ | _ | _ | _) <;> first | rfl | exact single.elim

theorem formatCandidates_single {codec : Option Codec} (single : SinglePrefix codec) {frameKind : Option FrameKind}
    {guess : FormatGuess} (member : guess ∈ formatCandidates codec frameKind) :
    guess.prefixLen = getUnencryptedBytes codec none := by
  rcases codec with _ | (_ | _ | _ | _ | _)
  case none | some.h264 | some.opus =>
    simp only [formatCandidates, getUnencryptedBytes, List.mem_cons, List.not_mem_nil, or_false, ↓reduceIte,
      Nat.one_ne_zero] at member
    rcases member with rfl | rfl | rfl <;> rfl
  all_goals exact single.elim

/-- The sender that the header of a frame names. -/
def named (w : Worker K G) (ref : Ref) : Option (ℤ × ℤ) :=
  ((parseHeader ((w.frames.read ref).data.drop (getUnencryptedBytes w.codec none))).toOption).map
    fun hdr => w.kidCodec.decode hdr.kid

/-- The frame's key is installed, and its epoch valid. -/
def Openable (w : Worker K G) (ref : Ref) : Prop :=
  ∃ sender, named w ref = some sender ∧ w.currentMinValidEpoch ≤ sender.1 ∧ (w.cachedKey sender.1 sender.2).isSome

/-- The frame's epoch has passed. -/
def Stale (w : Worker K G) (ref : Ref) : Prop :=
  ∃ sender, named w ref = some sender ∧ sender.1 < w.currentMinValidEpoch

/-! ## The ledger -/

/-- Signals with which a drain or a full queue drops a frame. -/
def ReportsDrop : OutMsg → Prop
  | .decryptFailure .queueOverflow .. | .decryptFailure .replay .. | .decryptFailure .keyInvalid ..
  | .decryptFailure .decryptFailedAfterEpoch .. => True
  | _ => False

/-- What has become of the frames that left the queue; each drop with the place of its
signal among those emitted. -/
structure Fates where
  decrypted : List Ref := []
  dropped : List (Ref × ℕ) := []
  stale : List Ref := []
  /-- What the drain in progress has yet to look at. -/
  hand : List Ref := []

def Fates.all (fates : Fates) (queue : List Ref) : List Ref :=
  fates.decrypted ++ (fates.dropped.map Prod.fst ++ (fates.stale ++ (fates.hand ++ queue)))

/-- What a call remembers: its own frame, which has never been in the queue; as a drain,
the frames in its hand, with the bytes of the first; the entry in which it found a
sender's key; and whether it has yet to go over the queue for keys that have come. -/
structure Note where
  own : Option Ref := none
  hand : Option (List Ref) := none
  bytes : Option (Ref × EncodedFrame) := none
  entry : Option (Ref × ℤ) := none
  owing : Bool := false

/-- Nobody else has the frame of a call, and it was not delivered. -/
def Owned (queue delivered : List Ref) (next : ℕ) (fates : Fates) (note : Note) : Prop :=
  ∀ ref, note.own = some ref → ref < next ∧ ref ∉ fates.all queue ∧ ref ∉ delivered

/-- Every frame that was queued is in one place, and has been delivered when it was
decrypted. -/
structure Ledger (queue delivered : List Ref) (next : ℕ) (notes : ι → Note) (fates : Fates) : Prop where
  once : (fates.all queue).Nodup
  counted : ∀ ref ∈ fates.all queue, delivered.count ref = if ref ∈ fates.decrypted then 1 else 0
  made : ∀ ref ∈ fates.all queue, ref < next
  sent : ∀ ref ∈ delivered, ref < next
  owned : ∀ call, Owned queue delivered next fates (notes call)
  apart : ∀ call other ref, (notes call).own = some ref → (notes other).own = some ref → call = other

/-- At most one drain is in progress, and the second of two leaves its note. -/
structure Drains (draining pendingDrain : Bool) (notes : ι → Note) (inHand : List Ref) : Prop where
  busy : draining = true ↔ ∃ call, (notes call).hand.isSome
  alone : ∀ call other, (notes call).hand.isSome → (notes other).hand.isSome → call = other
  held : ∀ call hand, (notes call).hand = some hand → inHand = hand
  idle : draining = false → inHand = []
  asked : pendingDrain = true → draining = true ∨ ∃ call, (notes call).owing = true

/-- Every drop has its own signal. -/
structure Reported (emitted : List OutMsg) (dropped : List (Ref × ℕ)) : Prop where
  apart : (dropped.map Prod.snd).Nodup
  signal : ∀ drop ∈ dropped, ∃ event, emitted[drop.2]? = some event ∧ ReportsDrop event

/-- All cached formats have the clear prefix of the codec. -/
structure Sane (codec : Option Codec) (w : Worker K G) : Prop where
  configured : w.codec = codec
  formats : ∀ epoch peerIndex guess, w.getFormatCache epoch peerIndex = some guess →
    guess.prefixLen = getUnencryptedBytes codec none

/-- What a call knows of a frame in its hand, and of an entry. -/
structure Knows (w : Worker K G) (note : Note) : Prop where
  bytes : ∀ ref frame, note.bytes = some (ref, frame) →
    w.frames.read ref = frame ∧ ∃ rest, note.hand = some (ref :: rest)
  entry : ∀ entry peerIndex, note.entry = some (entry, peerIndex) →
    entry < w.entries.next ∧ ((w.entries.read entry).keys.get? peerIndex).isSome

theorem knows_nothing (w : Worker K G) {note : Note} (bytes : note.bytes = none) (entry : note.entry = none) :
    Knows w note := by
  constructor
  · intro ref frame never
    cases bytes.symm.trans never
  · intro made peerIndex never
    cases entry.symm.trans never

/-- Nothing that waits can be opened, unless somebody will go over the queue. -/
def Waiting (w : Worker K G) (notes : ι → Note) : Prop :=
  (∀ ref ∈ w.preEpochQueue, ¬ Openable w ref) ∨ w.pendingDrain = true ∨ ∃ call, (notes call).owing = true

/-- What is true of the worker between any two steps. -/
structure Kept (codec : Option Codec) (w : Worker K G) (notes : ι → Note) (fates : Fates) : Prop where
  ledger : Ledger w.preEpochQueue (w.delivered.map Prod.snd) w.frames.next notes fates
  drains : Drains w.draining w.pendingDrain notes fates.hand
  reported : Reported w.emitted fates.dropped
  past : ∀ ref ∈ fates.stale, Stale w ref
  sane : Sane codec w
  registered : Registered w
  knows : ∀ call, Knows w (notes call)
  waiting : Waiting w notes

/-! ## Steps -/

/-- What a call makes of its note and the state. -/
structure Carried [DecidableEq ι] (codec : Option Codec) (call : ι) (first : Note) (start : Worker K G) (note : Note)
    (w : Worker K G) : Prop where
  sane : Sane codec start → Sane codec w
  keeps : ∀ (notes : ι → Note) fates, notes call = first → Kept codec start notes fates →
    ∃ later, Kept codec w (Function.update notes call note) later ∧
      fates.all start.preEpochQueue ⊆ later.all w.preEpochQueue

section Steps
variable [DecidableEq ι] {codec : Option Codec} {call : ι} {first note last : Note} {start w w' : Worker K G}
  {notes : ι → Note} {fates : Fates}

theorem Carried.trans (carried : Carried codec call first start note w) (further : Carried codec call note w last w') :
    Carried codec call first start last w' where
  sane sane := further.sane (carried.sane sane)
  keeps notes fates own kept := by
    obtain ⟨middle, kept', listed⟩ := carried.keeps notes fates own kept
    obtain ⟨later, kept'', listed'⟩ := further.keeps _ middle (Function.update_self call note notes) kept'
    rw [Function.update_idem] at kept''
    exact ⟨later, kept'', List.Subset.trans listed listed'⟩

/-! ### What leaves the tables alone -/

/-- The tables by which a frame is told to be stale or openable. -/
def tablePart (w : Worker K G) := (w.epochs, w.currentEpoch, w.currentMinValidEpoch, w.kidCodec, w.codec)

/-- The queue, the flags of the drains, and the frames delivered. -/
def queuePart (w : Worker K G) := (w.preEpochQueue, w.draining, w.pendingDrain, w.delivered)

/-- A step that installs and wipes nothing. It may advance keys. -/
structure Still (start w : Worker K G) : Prop where
  tables : tablePart w = tablePart start
  stock : w.entries.next = start.entries.next
  keys : ∀ entry peerIndex, ((w.entries.read entry).keys.get? peerIndex).isSome =
    ((start.entries.read entry).keys.get? peerIndex).isSome
  emitted : start.emitted <+: w.emitted

omit [DecidableEq ι] in
theorem Still.trans (still : Still start w) (further : Still w w') : Still start w' where
  tables := further.tables.trans still.tables
  stock := further.stock.trans still.stock
  keys entry peerIndex := (further.keys entry peerIndex).trans (still.keys entry peerIndex)
  emitted := still.emitted.trans further.emitted

theorem still_of (tables : tablePart w = tablePart start) (entries : w.entries = start.entries)
    (emitted : start.emitted <+: w.emitted) : Still start w where
  tables := tables
  stock := by rw [entries]
  keys _ _ := by rw [entries]
  emitted := emitted

theorem reported_grown {emitted longer : List OutMsg} {dropped : List (Ref × ℕ)} (reported : Reported emitted dropped)
    (grown : emitted <+: longer) : Reported longer dropped where
  apart := reported.apart
  signal drop member := by
    obtain ⟨event, there, reports⟩ := reported.signal drop member
    obtain ⟨more, rfl⟩ := grown
    refine ⟨event, ?_, reports⟩
    rw [List.getElem?_append_left (List.getElem?_eq_some_iff.mp there).1]
    exact there

/-- Another frame is dropped with the next signal. -/
theorem reported_more {emitted longer : List OutMsg} {dropped : List (Ref × ℕ)} (reported : Reported emitted dropped)
    (grown : emitted <+: longer) (ref : Ref)
    (signal : ∃ event, longer[emitted.length]? = some event ∧ ReportsDrop event) :
    Reported longer (dropped ++ [(ref, emitted.length)]) where
  apart := by
    rw [List.map_append]
    apply Recency.nodup_append_singleton reported.apart
    intro again
    obtain ⟨drop, member, same⟩ := List.mem_map.mp again
    obtain ⟨event, there, -⟩ := reported.signal drop member
    rw [same] at there
    exact Nat.lt_irrefl _ (List.getElem?_eq_some_iff.mp there).1
  signal drop member := by
    rcases List.mem_append.mp member with earlier | last
    · exact (reported_grown reported grown).signal drop earlier
    · rw [List.mem_singleton.mp last]
      exact signal

/-- Frames that a full queue has lost. -/
def Fates.losing (fates : Fates) (lost : List Ref) (place : ℕ) : Fates :=
  { fates with dropped := fates.dropped ++ lost.map (·, place) }

theorem reported_losing {emitted longer : List OutMsg} (reported : Reported emitted fates.dropped)
    (grown : emitted <+: longer) {lost : List Ref} (few : lost = [] ∨ ∃ last, lost = [last])
    (signal : lost ≠ [] → ∃ event, longer[emitted.length]? = some event ∧ ReportsDrop event) :
    Reported longer (fates.losing lost emitted.length).dropped := by
  rcases few with rfl | ⟨last, rfl⟩
  · simpa [Fates.losing] using reported_grown reported grown
  · exact reported_more reported grown last (signal (List.cons_ne_nil _ _))

theorem cachedKey_still (still : Still start w) (epoch peerIndex : ℤ) :
    (w.cachedKey epoch peerIndex).isSome = (start.cachedKey epoch peerIndex).isSome := by
  have epochs : w.epochs = start.epochs := congrArg (·.1) still.tables
  unfold Worker.cachedKey
  rw [epochs]
  cases start.epochs.get? epoch with
  | none => rfl
  | some entry => exact still.keys entry peerIndex

theorem named_still (still : Still start w) {ref : Ref} (frame : w.frames.read ref = start.frames.read ref) :
    named w ref = named start ref := by
  have kidCodec : w.kidCodec = start.kidCodec := congrArg (·.2.2.2.1) still.tables
  have codec : w.codec = start.codec := congrArg (·.2.2.2.2) still.tables
  rw [named, named, frame, kidCodec, codec]

theorem stale_still (still : Still start w) {ref : Ref} (frame : w.frames.read ref = start.frames.read ref)
    (stale : Stale start ref) : Stale w ref := by
  have valid : w.currentMinValidEpoch = start.currentMinValidEpoch := congrArg (·.2.2.1) still.tables
  obtain ⟨sender, names, past⟩ := stale
  exact ⟨sender, (named_still still frame).trans names, by rw [valid]; exact past⟩

theorem openable_still (still : Still start w) {ref : Ref} (frame : w.frames.read ref = start.frames.read ref)
    (openable : Openable w ref) : Openable start ref := by
  have valid : w.currentMinValidEpoch = start.currentMinValidEpoch := congrArg (·.2.2.1) still.tables
  obtain ⟨sender, names, within, keyed⟩ := openable
  exact ⟨sender, (named_still still frame).symm.trans names, by rw [← valid]; exact within,
    by rw [← cachedKey_still still]; exact keyed⟩

theorem registered_still (still : Still start w) (registered : Registered start) : Registered w := by
  have epochs : w.epochs = start.epochs := congrArg (·.1) still.tables
  have current : w.currentEpoch = start.currentEpoch := congrArg (·.2.1) still.tables
  constructor
  · intro first second ref found again
    rw [epochs] at found again
    exact registered.own first second ref found again
  · rw [epochs, still.stock]
    exact registered.made
  · rw [epochs, current]
    exact registered.reached

/-- What is known of a call's own hand and entry stays so. -/
theorem knows_still (still : Still start w)
    (frames : ∀ ref rest, note.hand = some (ref :: rest) → w.frames.read ref = start.frames.read ref)
    (knows : Knows start note) : Knows w note where
  bytes ref frame same := by
    obtain ⟨held, rest, there⟩ := knows.bytes ref frame same
    exact ⟨(frames ref rest there).trans held, rest, there⟩
  entry entry peerIndex same := by
    obtain ⟨made, keyed⟩ := knows.entry entry peerIndex same
    exact ⟨by rw [still.stock]; exact made, by rw [still.keys]; exact keyed⟩

theorem Fates.mem_queue (fates : Fates) {queue : List Ref} {ref : Ref} (member : ref ∈ queue) :
    ref ∈ fates.all queue := by
  simp only [Fates.all, List.mem_append, member, or_true]

theorem Fates.mem_stale {fates : Fates} {ref : Ref} (member : ref ∈ fates.stale) (queue : List Ref) :
    ref ∈ fates.all queue := by
  simp only [Fates.all, List.mem_append, member, true_or, or_true]

omit [DecidableEq ι] in
/-- The frames in a hand are in the ledger. -/
theorem mem_of_hand {draining pendingDrain : Bool} (drains : Drains draining pendingDrain notes fates.hand) {other : ι}
    {hand : List Ref} (own : (notes other).hand = some hand) {ref : Ref} (member : ref ∈ hand) (queue : List Ref) :
    ref ∈ fates.all queue := by
  simp [Fates.all, drains.held other hand own, member]

/-- What has to be shown of a step of one call. -/
theorem kept_step {later : Fates} (kept : Kept codec start notes fates) (still : Still start w)
    (sane : Sane codec w)
    (ledger : Ledger w.preEpochQueue (w.delivered.map Prod.snd) w.frames.next
      (Function.update notes call note) later)
    (drains : Drains w.draining w.pendingDrain (Function.update notes call note) later.hand)
    (reported : Reported w.emitted later.dropped)
    (frames : ∀ ref ∈ fates.all start.preEpochQueue, w.frames.read ref ≠ start.frames.read ref →
      ref ∉ fates.stale ∧ ∃ hand, (notes call).hand = some hand)
    (past : ∀ ref ∈ later.stale, ref ∈ fates.stale ∨ Stale w ref) (knows : Knows w note)
    (waiting : Waiting w (Function.update notes call note)) : Kept codec w (Function.update notes call note) later where
  ledger := ledger
  drains := drains
  reported := reported
  past ref member := by
    rcases past ref member with earlier | stale
    · apply stale_still still _ (kept.past ref earlier)
      by_contra written
      exact (frames ref (Fates.mem_stale earlier _) written).1 earlier
    · exact stale
  sane := sane
  registered := registered_still still kept.registered
  knows other := by
    by_cases here : other = call
    · rw [here, Function.update_self]
      exact knows
    · rw [Function.update_of_ne here]
      apply knows_still still _ (kept.knows other)
      intro ref rest hand
      by_contra written
      obtain ⟨-, mine, own⟩ := frames ref (mem_of_hand kept.drains hand List.mem_cons_self _) written
      exact here (kept.drains.alone other call (by rw [hand]; rfl) (by rw [own]; rfl))
  waiting := waiting

/-! ### Moves in the ledger -/

section Moves
variable {queue queue' delivered : List Ref} {next : ℕ} {fates' : Fates}

theorem owned_of {note' : Note} (owned : Owned queue delivered next fates note) (own : note'.own = note.own) :
    Owned queue delivered next fates note' := by
  intro ref same
  exact owned ref (own ▸ same)

/-- A call has another note. -/
theorem ledger_note (ledger : Ledger queue delivered next notes fates)
    (owned : Owned queue delivered next fates note)
    (apart : ∀ ref, note.own = some ref → ∀ other, other ≠ call → (notes other).own ≠ some ref) :
    Ledger queue delivered next (Function.update notes call note) fates where
  once := ledger.once
  counted := ledger.counted
  made := ledger.made
  sent := ledger.sent
  owned := (Function.forall_update_iff notes fun _ => Owned queue delivered next fates).mpr
    ⟨owned, fun other _ => ledger.owned other⟩
  apart one other ref held again := by
    by_cases first : one = call
    · by_cases second : other = call
      · exact first.trans second.symm
      · rw [first, Function.update_self] at held
        rw [Function.update_of_ne second] at again
        exact absurd again (apart ref held other second)
    · rw [Function.update_of_ne first] at held
      by_cases second : other = call
      · rw [second, Function.update_self] at again
        exact absurd held (apart ref again one first)
      · rw [Function.update_of_ne second] at again
        exact ledger.apart one other ref held again

omit [DecidableEq ι] in
/-- The frame of a call is nobody else's. -/
theorem ledger_apart (ledger : Ledger queue delivered next notes fates) {ref : Ref}
    (own : (notes call).own = some ref) (other : ι) (different : other ≠ call) : (notes other).own ≠ some ref :=
  fun same => different (ledger.apart other call ref same own)

/-- A call keeps its frame. -/
theorem ledger_kept (ledger : Ledger queue delivered next notes fates) (own : note.own = (notes call).own) :
    Ledger queue delivered next (Function.update notes call note) fates :=
  ledger_note ledger (owned_of (ledger.owned call) own) fun _ same => ledger_apart ledger (own ▸ same)

/-- A call gives its frame up, and nobody has it. -/
theorem ledger_released (ledger : Ledger queue delivered next notes fates) {ref : Ref}
    (own : (notes call).own = some ref) (gone : note.own = none) :
    Ledger queue delivered next (Function.update notes call note) fates ∧
      ∀ other, (Function.update notes call note other).own ≠ some ref := by
  constructor
  · apply ledger_note ledger
    · intro held never
      cases gone.symm.trans never
    · intro held never
      cases gone.symm.trans never
  · intro other same
    by_cases here : other = call
    · rw [here, Function.update_self, gone] at same
      cases same
    · rw [Function.update_of_ne here] at same
      exact ledger_apart ledger own other here same

omit [DecidableEq ι] in
/-- Frames have moved between the places of the ledger. -/
theorem ledger_moved (ledger : Ledger queue delivered next notes fates)
    (moved : (fates'.all queue').Perm (fates.all queue)) (decrypted : fates'.decrypted = fates.decrypted) :
    Ledger queue' delivered next notes fates' where
  once := moved.nodup_iff.mpr ledger.once
  counted ref member := by
    rw [decrypted]
    exact ledger.counted ref (moved.mem_iff.mp member)
  made ref member := ledger.made ref (moved.mem_iff.mp member)
  sent := ledger.sent
  owned call ref own := by
    obtain ⟨made, apart, undelivered⟩ := ledger.owned call ref own
    exact ⟨made, fun member => apart (moved.mem_iff.mp member), undelivered⟩
  apart := ledger.apart

omit [DecidableEq ι] in
/-- A frame that nobody has joins the ledger. -/
theorem ledger_joined (ledger : Ledger queue delivered next notes fates) {ref : Ref} (made : ref < next)
    (apart : ref ∉ fates.all queue) (undelivered : ref ∉ delivered) (free : ∀ other, (notes other).own ≠ some ref)
    (joined : (fates'.all queue').Perm (ref :: fates.all queue)) (decrypted : fates'.decrypted = fates.decrypted) :
    Ledger queue' delivered next notes fates' := by
  have listed (other : Ref) : other ∈ fates'.all queue' ↔ other = ref ∨ other ∈ fates.all queue := by
    rw [joined.mem_iff, List.mem_cons]
  constructor
  · exact joined.nodup_iff.mpr (List.nodup_cons.mpr ⟨apart, ledger.once⟩)
  · intro other member
    rw [decrypted]
    rcases (listed other).mp member with rfl | earlier
    · have fresh : other ∉ fates.decrypted := fun again => apart (by simp [Fates.all, again])
      rw [if_neg fresh]
      exact List.count_eq_zero.mpr undelivered
    · exact ledger.counted other earlier
  · intro other member
    rcases (listed other).mp member with rfl | earlier
    · exact made
    · exact ledger.made other earlier
  · exact ledger.sent
  · intro other held owns
    obtain ⟨low, outside, rest⟩ := ledger.owned other held owns
    refine ⟨low, fun member => ?_, rest⟩
    rcases (listed held).mp member with rfl | earlier
    · exact free other owns
    · exact outside earlier
  · exact ledger.apart

/-- A new frame is somebody's own. -/
theorem ledger_received (ledger : Ledger queue delivered next notes fates) (new : note.own = some next) :
    Ledger queue delivered (next + 1) (Function.update notes call note) fates := by
  have more : Ledger queue delivered (next + 1) notes fates := by
    constructor
    · exact ledger.once
    · exact ledger.counted
    · exact fun ref member => Nat.lt_succ_of_lt (ledger.made ref member)
    · exact fun ref member => Nat.lt_succ_of_lt (ledger.sent ref member)
    · intro other held owns
      obtain ⟨made, rest⟩ := ledger.owned other held owns
      exact ⟨Nat.lt_succ_of_lt made, rest⟩
    · exact ledger.apart
  apply ledger_note more
  · intro held owns
    cases new.symm.trans owns
    exact ⟨Nat.lt_succ_self _, fun member => Nat.lt_irrefl _ (ledger.made _ member),
      fun member => Nat.lt_irrefl _ (ledger.sent _ member)⟩
  · intro held owns other _ again
    cases new.symm.trans owns
    exact Nat.lt_irrefl _ (ledger.owned other _ again).1

omit [DecidableEq ι] in
/-- A frame that nobody has is delivered. -/
theorem ledger_sent (ledger : Ledger queue delivered next notes fates) {ref : Ref} (made : ref < next)
    (free : ∀ other, (notes other).own ≠ some ref) (moved : (fates'.all queue').Perm (fates.all queue))
    (counted : ∀ other ∈ fates.all queue,
      (delivered ++ [ref]).count other = if other ∈ fates'.decrypted then 1 else 0) :
    Ledger queue' (delivered ++ [ref]) next notes fates' where
  once := moved.nodup_iff.mpr ledger.once
  counted other member := counted other (moved.mem_iff.mp member)
  made other member := ledger.made other (moved.mem_iff.mp member)
  sent other member := by
    rcases List.mem_append.mp member with earlier | last
    · exact ledger.sent other earlier
    · rw [List.mem_singleton.mp last]
      exact made
  owned other held owns := by
    obtain ⟨low, outside, undelivered⟩ := ledger.owned other held owns
    refine ⟨low, fun member => outside (moved.mem_iff.mp member), fun member => ?_⟩
    rcases List.mem_append.mp member with earlier | last
    · exact undelivered earlier
    · rw [List.mem_singleton.mp last] at owns
      exact free other owns
  apart := ledger.apart

end Moves

/-! ### Flags -/

section Flags
variable {draining pendingDrain : Bool} {inHand inHand' : List Ref}

theorem owing_update (owes : (notes call).owing = true → note.owing = true)
    (owed : ∃ other, (notes other).owing = true) : ∃ other, (Function.update notes call note other).owing = true := by
  obtain ⟨other, owing⟩ := owed
  by_cases here : other = call
  · rw [here] at owing
    exact ⟨call, by rw [Function.update_self]; exact owes owing⟩
  · exact ⟨other, by rw [Function.update_of_ne here]; exact owing⟩

theorem waiting_note (owes : (notes call).owing = true → note.owing = true) (waiting : Waiting w notes) :
    Waiting w (Function.update notes call note) := by
  rcases waiting with closed | asked | owed
  · exact .inl closed
  · exact .inr (.inl asked)
  · exact .inr (.inr (owing_update owes owed))

theorem update_hand (same : note.hand = (notes call).hand) (other : ι) :
    (Function.update notes call note other).hand = (notes other).hand := by
  by_cases here : other = call
  · rw [here, Function.update_self, same]
  · rw [Function.update_of_ne here]

/-- A call keeps its hand. -/
theorem drains_note {pendingDrain' : Bool} (drains : Drains draining pendingDrain notes inHand)
    (same : note.hand = (notes call).hand) (asked : pendingDrain' = true → draining = true ∨
      ∃ other, (Function.update notes call note other).owing = true) :
    Drains draining pendingDrain' (Function.update notes call note) inHand := by
  constructor
  · simp only [update_hand same]
    exact drains.busy
  · simp only [update_hand same]
    exact drains.alone
  · simp only [update_hand same]
    exact drains.held
  · exact drains.idle
  · exact asked

theorem drains_owing (drains : Drains draining pendingDrain notes inHand)
    (same : note.hand = (notes call).hand) (owes : (notes call).owing = true → note.owing = true) :
    Drains draining pendingDrain (Function.update notes call note) inHand := by
  apply drains_note drains same
  intro asked
  rcases drains.asked asked with busy | owed
  · exact .inl busy
  · exact .inr (owing_update owes owed)

/-- The hand of the drain in progress changes. -/
theorem drains_moved (drains : Drains draining pendingDrain notes inHand)
    (mine : (notes call).hand.isSome) {hand : List Ref} (now : note.hand = some hand) (held : inHand' = hand)
    (owes : (notes call).owing = true → note.owing = true) :
    Drains draining pendingDrain (Function.update notes call note) inHand' := by
  have some_ (other : ι) : (Function.update notes call note other).hand.isSome = (notes other).hand.isSome := by
    by_cases here : other = call
    · rw [here, Function.update_self, now, mine]
      rfl
    · rw [Function.update_of_ne here]
  constructor
  · simp only [some_]
    exact drains.busy
  · simp only [some_]
    exact drains.alone
  · intro other rest same
    by_cases here : other = call
    · rw [here, Function.update_self, now] at same
      cases same
      exact held
    · rw [Function.update_of_ne here] at same
      have also : (notes other).hand.isSome := by rw [same]; rfl
      exact absurd (drains.alone other call also mine) here
  · intro rests
    have busy := drains.busy.mpr ⟨call, mine⟩
    rw [rests] at busy
    cases busy
  · intro asked
    rcases drains.asked asked with busy | owed
    · exact .inl busy
    · exact .inr (owing_update owes owed)

/-- A drain begins when none is in progress. -/
theorem drains_begin (drains : Drains draining pendingDrain notes inHand) (rests : draining = false)
    {hand : List Ref} (now : note.hand = some hand) (held : inHand' = hand) :
    Drains true pendingDrain (Function.update notes call note) inHand' := by
  have nobody (other : ι) : (notes other).hand = none := by
    cases hand : (notes other).hand with
    | none => rfl
    | some rest =>
      have busy := drains.busy.mpr ⟨other, by rw [hand]; rfl⟩
      rw [rests] at busy
      cases busy
  have only (other : ι) : (Function.update notes call note other).hand.isSome ↔ other = call := by
    by_cases here : other = call
    · rw [here, Function.update_self, now]
      simp
    · rw [Function.update_of_ne here, nobody]
      simp [here]
  constructor
  · simp only [only, true_iff]
    exact ⟨call, rfl⟩
  · intro one other first second
    exact ((only one).mp first).trans ((only other).mp second).symm
  · intro other rest same
    have here := (only other).mp (by rw [same]; rfl)
    rw [here, Function.update_self, now] at same
    cases same
    exact held
  · intro never
    cases never
  · exact fun _ => .inl rfl

/-- A drain that has nothing left in its hand ends; it owes another pass if it was
asked for one. -/
theorem drains_end (drains : Drains draining pendingDrain notes inHand) (mine : (notes call).hand = some [])
    (now : note.hand = none) (owes : note.owing = pendingDrain) :
    Drains false pendingDrain (Function.update notes call note) inHand := by
  have nobody (other : ι) : (Function.update notes call note other).hand = none := by
    by_cases here : other = call
    · rw [here, Function.update_self, now]
    · rw [Function.update_of_ne here]
      cases hand : (notes other).hand with
      | none => rfl
      | some rest =>
        exact absurd (drains.alone other call (by rw [hand]; rfl) (by rw [mine]; rfl)) here
  constructor
  · simp [nobody]
  · simp [nobody]
  · simp [nobody]
  · exact fun _ => drains.held call [] mine
  · exact fun asked => .inr ⟨call, by rw [Function.update_self, owes]; exact asked⟩

end Flags

theorem knows_update (knows : ∀ other, Knows w (notes other)) (own : Knows w note) :
    ∀ other, Knows w (Function.update notes call note other) :=
  (Function.forall_update_iff notes fun _ => Knows w).mpr ⟨own, fun other _ => knows other⟩

/-- Nothing that can be opened has come into the queue. -/
theorem waiting_still (waiting : Waiting start notes) (still : Still start w)
    (pending : start.pendingDrain = true → w.pendingDrain = true)
    (owes : (notes call).owing = true → note.owing = true)
    (closed : ∀ ref ∈ w.preEpochQueue, (ref ∈ start.preEpochQueue ∧ w.frames.read ref = start.frames.read ref) ∨
      ¬ Openable w ref) : Waiting w (Function.update notes call note) := by
  rcases waiting with before | asked | owed
  · refine .inl fun ref member openable => ?_
    rcases closed ref member with ⟨earlier, same⟩ | shut
    · exact before ref earlier (openable_still still same openable)
    · exact shut openable
  · exact .inr (.inl (pending asked))
  · exact .inr (.inr (owing_update owes owed))

end Steps
end SFrameRatchet.QueueLedger
