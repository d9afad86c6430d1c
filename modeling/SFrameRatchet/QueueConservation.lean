import SFrameRatchet.QueueSteps

/-! No parked frame is lost or left behind. Under a fixed configuration every call keeps
the ledger of the queue, so in every run each frame that was ever parked has been
decrypted once, dropped with a signal of its own or found stale, or it waits or is in the
hand of a drain in progress; and when no drain is in progress no frame that waits can be
opened. Frames may wait out of the order in which they came. -/
namespace SFrameRatchet.QueueConservation
open Collections Crypto Kid Header SFrame CodecPartial Throwing Coroutine Interleaving Media EpochTable FrameWalk Notes
  QueueLedger QueueSteps

variable {K G ι : Type} [DecidableEq ι] {runtime : Runtime K G} {codec : Option Codec} {call : ι}
  {note last : Note} {start w w' : Worker K G}

/-! ## Parts of calls that keep their notes -/

/-- A call that owes another pass waits to begin it. -/
def conserving (codec : Option Codec) (call : ι) : Terms AwaitPoint Note (Worker K G) where
  assume _ _ w := Sane codec w
  fits site note := note.owing = true → site = { point := .rerun }
  carried := Carried codec call
  refl := carried_refl
  trans := Carried.trans

/-- A part of a call that has one note when it begins and another when it returns. -/
def Leads {α : Type} (codec : Option Codec) (call : ι) (program : Task K G α) (result : α → Prop) (note last : Note)
    (w : Worker K G) : Prop :=
  Sane codec w → Accounts (conserving codec call) program
    (fun value reached w => reached = last ∧ result value ∧ Sane codec w)
    (fun _ reached w => reached = note ∧ Sane codec w) note w

/-- A part that does not throw. -/
def Finishes {α : Type} (codec : Option Codec) (call : ι) (program : Task K G α) (result : α → Prop) (note last : Note)
    (w : Worker K G) : Prop :=
  Sane codec w → Accounts (conserving codec call) program
    (fun value reached w => reached = last ∧ result value ∧ Sane codec w) (fun _ _ _ => False) note w

section Parts
variable {α β : Type} {result : α → Prop} {after : β → Prop}

theorem leads_of_finishes {program : Task K G α} (finishes : Finishes codec call program result note last w) :
    Leads codec call program result note last w :=
  fun sane => accounts_mono (finishes sane) (fun _ _ _ held => held) fun _ _ _ never => never.elim

theorem leads_pure {value : α} (held : result value) : Leads codec call (pure value) result note note w :=
  fun sane => accounts_pure ⟨rfl, held, sane⟩

theorem leads_throw {error : JsError} : Leads codec call (throw error : Task K G α) result note last w :=
  fun sane => accounts_throw ⟨rfl, sane⟩

theorem leads_settle {outcome : Except JsError α} (held : ∀ value, outcome = .ok value → result value) :
    Leads codec call (settle outcome) result note note w :=
  fun sane => accounts_settle (fun value same => ⟨rfl, held value same, sane⟩) fun _ _ => ⟨rfl, sane⟩

theorem leads_read {rest : Worker K G → Task K G α} (next : Leads codec call (rest w) result note last w) :
    Leads codec call (read >>= rest) result note last w :=
  fun sane => accounts_read (next sane)

/-- What comes after a part that keeps the note. -/
theorem leads_bind {program : Task K G α} {rest : α → Task K G β} (kept : Leads codec call program result note note w)
    (further : ∀ value w, result value → Leads codec call (rest value) after note last w) :
    Leads codec call (program >>= rest) after note last w := by
  intro sane
  apply accounts_bind
  apply accounts_mono (kept sane)
  · rintro value _ w ⟨rfl, held, sane⟩
    exact further value w held sane
  · exact fun _ _ _ thrown => thrown

theorem finishes_pure {value : α} (held : result value) : Finishes codec call (pure value) result note note w :=
  fun sane => accounts_pure ⟨rfl, held, sane⟩

theorem finishes_read {rest : Worker K G → Task K G α} (next : Finishes codec call (rest w) result note last w) :
    Finishes codec call (read >>= rest) result note last w :=
  fun sane => accounts_read (next sane)

theorem finishes_update {change : Worker K G → Worker K G} (carried : Carried codec call note w last (change w)) :
    Finishes codec call (update change) (fun _ => True) note last w :=
  fun sane => accounts_update last carried ⟨rfl, trivial, carried.sane sane⟩

theorem finishes_bind {middle : Note} {program : Task K G α} {rest : α → Task K G β}
    (kept : Finishes codec call program result note middle w)
    (further : ∀ value w, result value → Finishes codec call (rest value) after middle last w) :
    Finishes codec call (program >>= rest) after note last w := by
  intro sane
  apply accounts_bind
  apply accounts_mono (kept sane)
  · rintro value _ w ⟨rfl, held, sane⟩
    exact further value w held sane
  · exact fun _ _ _ never => never.elim

/-- What comes after a change knows the state that it has made. -/
theorem finishes_onward {middle : Note} {change : Worker K G → Worker K G} {rest : Task K G α}
    (carried : Carried codec call note w middle (change w))
    (next : Finishes codec call rest result middle last (change w)) :
    Finishes codec call (do update change; rest) result note last w :=
  fun sane => accounts_bind (accounts_update middle carried (next (carried.sane sane)))

/-- What comes after a part that changes the note does not throw. -/
theorem leads_then {middle : Note} {program : Task K G α} {rest : α → Task K G β}
    (kept : Leads codec call program result note middle w)
    (further : ∀ value w, result value → Finishes codec call (rest value) after middle last w) :
    Leads codec call (program >>= rest) after note last w := by
  intro sane
  apply accounts_bind
  apply accounts_mono (kept sane)
  · rintro value _ w ⟨rfl, held, sane⟩
    exact accounts_mono (further value w held sane) (fun _ _ _ held => held) fun _ _ _ never => never.elim
  · exact fun _ _ _ thrown => thrown

theorem leads_update {change : Worker K G → Worker K G} (carried : Carried codec call note w last (change w)) :
    Leads codec call (update change) (fun _ => True) note last w :=
  leads_of_finishes (finishes_update carried)

/-- A part may keep another note in between. -/
theorem leads_within {middle : Note} {program : Task K G α} (carried : Carried codec call note w middle w)
    (back : ∀ w : Worker K G, Carried codec call middle w note w)
    (kept : Leads codec call program result middle middle w) : Leads codec call program result note note w := by
  intro sane
  apply accounts_onward middle carried
  apply accounts_closing
  apply accounts_mono (kept sane)
  · rintro _ _ w ⟨rfl, held, sane⟩
    exact ⟨note, back w, rfl, held, sane⟩
  · rintro _ _ w ⟨rfl, sane⟩
    exact ⟨note, back w, rfl, sane⟩

theorem leads_tryCatch {program : Task K G α} {handler : JsError → Task K G α}
    (kept : Leads codec call program result note last w)
    (handles : ∀ error w, Leads codec call (handler error) result note last w) :
    Leads codec call (tryCatch program handler) result note last w := by
  intro sane
  apply accounts_tryCatch
  apply accounts_mono (kept sane)
  · exact fun _ _ _ held => held
  · rintro error _ w ⟨rfl, sane⟩
    exact handles error w sane

/-- The part keeps the note. -/
def Steady (codec : Option Codec) (call : ι) (note : Note) : Reading K G :=
  fun _ start w => Sane codec w ∧ Carried codec call note start note w

theorem steady_refl (sane : Sane codec w) {at_ : AwaitPoint} : Steady codec call note at_ w w :=
  ⟨sane, carried_refl note w⟩

theorem steady_next {at_ : AwaitPoint} (now : Steady codec call note at_ start w)
    (carried : Carried codec call note w note w') :
    Steady codec call note at_ start w' :=
  ⟨carried.sane now.1, now.2.trans carried⟩

theorem steady_survives (rests : note.owing = false) (site : AwaitPoint) :
    Survives ((conserving (G := G) (K := K) codec call).still note) (Steady codec call note) site := by
  intro at_ start w now
  refine ⟨⟨fun owes => ?_, now.2⟩, fun later sane => steady_refl sane⟩
  rw [rests] at owes
  cases owes

theorem stays {program : Task K G α} (kept : Sane codec w → Yields ((conserving codec call).still note)
      (Steady codec call note) program result { point := .start } w w) :
    Leads codec call program result note note w := by
  intro sane
  apply accounts_still (kept sane)
  · exact fun _ _ _ now => now.2
  · exact fun _ _ _ _ now held => ⟨rfl, held, now.1⟩
  · exact fun _ _ _ _ now => ⟨rfl, now.1⟩

end Parts

/-! ## Formats -/

/-- The format has the clear prefix of the codec, or as much of it as there is. -/
def FromStart (codec : Option Codec) (payload : Bytes) (guess : FormatGuess) : Prop :=
  guess.prefixLen = getUnencryptedBytes codec none ∨
    guess.prefixLen = min (getUnencryptedBytes codec none) payload.length

omit [DecidableEq ι] in
theorem drop_fromStart {payload : Bytes} {guess : FormatGuess} (found : FromStart codec payload guess) :
    payload.drop guess.prefixLen = payload.drop (getUnencryptedBytes codec none) := by
  rcases found with same | same
  · rw [same]
  · rw [same]
    rcases Nat.le_total (getUnencryptedBytes codec none) payload.length with fits | short
    · rw [Nat.min_eq_left fits]
    · rw [Nat.min_eq_right short, List.drop_length, List.drop_eq_nil_of_le short]

/-- There is a header behind the whole clear prefix only. -/
theorem length_fromStart {payload : Bytes} {guess : FormatGuess} {hdr : SFrameHeader}
    (found : FromStart codec payload guess) (parsed : parseHeader (payload.drop guess.prefixLen) = .ok hdr) :
    guess.prefixLen = getUnencryptedBytes codec none := by
  rcases found with same | same
  · exact same
  · by_contra short
    have whole : guess.prefixLen = payload.length := by omega
    rw [whole, List.drop_length] at parsed
    cases parsed

section Formats
variable {contract : Contract AwaitPoint (Worker K G)} {holds : Reading K G} {at_ : AwaitPoint}

/-- The probe finds one of its candidates. -/
theorem probeFormat_among (frame : Ref) (payload : Bytes)
    (survives : Survives contract holds { point := .probe, frame := some frame, payload := some payload })
    (candidates : List FormatGuess) (now : holds at_ start w) :
    Yields contract holds (probeFormat runtime frame payload candidates)
      (fun outcome => ∀ found, outcome = some found → found.guess ∈ candidates) at_ start w := by
  induction candidates generalizing at_ start w with
  | nil => exact ⟨now, nofun⟩
  | cons guess rest ih =>
    have later {at_ : AwaitPoint} {start w : Worker K G} (now : holds at_ start w) :
        Yields contract holds (probeFormat runtime frame payload rest)
          (fun outcome => ∀ found, outcome = some found → found.guess ∈ guess :: rest) at_ start w :=
      meets_mono (ih now) (fun _ _ _ _ held => ⟨held.1, fun found same => List.mem_cons_of_mem _ (held.2 found same)⟩)
        fun _ _ _ _ now => now
    apply yields_read
    split
    · exact later now
    · refine yields_bind (yields_pause survives now) fun _ _ _ _ now _ => ?_
      split
      · refine ⟨now, fun found same => ?_⟩
        rw [← Option.some.inj same]
        exact List.mem_cons_self
      · exact later now

end Formats

/-- Formats are found from the start of the payload on. -/
theorem resolveFormat_leads (single : SinglePrefix codec) (rests : note.owing = false) (frame : Ref) (payload : Bytes)
    (frameKind : Option FrameKind) :
    Leads codec call (resolveFormat runtime frame payload codec frameKind)
      (fun resolved => FromStart codec payload resolved.1) note note w := by
  apply stays
  intro sane
  apply yields_read
  dsimp only
  split
  · rename_i guess cached
    refine ⟨steady_refl sane, .inl ?_⟩
    unfold cachedFormat at cached
    split at cached
    · split at cached
      · cases cached
      · exact sane.formats _ _ _ cached
    · cases cached
  · refine yields_bind (probeFormat_among frame payload (steady_survives rests _) _ (steady_refl sane))
      fun _ _ outcome _ now among => ?_
    refine yields_bind (yields_pause (steady_survives rests _) now) fun _ _ _ _ now _ => ?_
    cases outcome with
    | none => exact ⟨now, .inr (by rw [getUnencryptedBytes_single single])⟩
    | some found => exact ⟨now, .inl (formatCandidates_single single (among found rfl))⟩

/-! ## Gates and the ratchet -/

theorem guardless_steady : Guardless (Steady codec call note : Reading K G) :=
  fun _ _ _ _ now => steady_next now (carried_idle note rfl rfl rfl (List.prefix_refl _))

theorem bystander_steady {entry : Ref} {peerIndex : ℤ} (held : note.entry = some (entry, peerIndex)) :
    Bystander (Steady codec call note : Reading K G) entry peerIndex where
  quiet {_ _ w w'} now same signals := by
    obtain ⟨more, emitted, -⟩ := signals
    have parts : (tablePart w', queuePart w', w'.entries, w'.frames, w'.formatCache) =
        (tablePart w, queuePart w, w.entries, w.frames, w.formatCache) :=
      (congrArg (fun v => (tablePart v, queuePart v, v.entries, v.frames, v.formatCache)) same :
        (tablePart (beyondRatchet w'), queuePart (beyondRatchet w'), _, _, _) = _)
    simp only [Prod.mk.injEq] at parts
    obtain ⟨tables, queue, heaps⟩ := parts
    exact steady_next now (carried_idle note tables queue (by simp only [heaps]) ⟨more, emitted.symm⟩)
  advances {_ _ w} now next step := steady_next now (carried_advanceKey w held next step)

section Gates
variable (rests : note.owing = false)

include rests

theorem tryDecryptWithRatchet_leads (unentered : note.entry = none) (site : RatchetPoint → AwaitPoint) (o : Opening) :
    Leads codec call (tryDecryptWithRatchet runtime site o) (fun _ => True) note note w := by
  rw [tryDecryptWithRatchet_eq]
  apply leads_read
  split
  · exact leads_throw
  · rename_i entry installed
    split
    · exact leads_throw
    · rename_i key held
      have enters : Carried codec call note w { note with entry := some (entry, o.peerIndex) } w := by
        refine carried_note rfl rfl rfl fun registered knows => ⟨knows.bytes, ?_⟩
        rintro _ _ ⟨⟩
        exact ⟨registered.made _ _ installed, by rw [held]; rfl⟩
      refine leads_within enters (fun w => ?_) ?_
      · refine carried_note rfl rfl rfl fun _ knows => ⟨knows.bytes, fun _ _ never => ?_⟩
        rw [unentered] at never
        cases never
      · generalize entered : ({ note with entry := some (entry, o.peerIndex) } : Note) = middle
        have found : middle.entry = some (entry, o.peerIndex) := by rw [← entered]
        have settled : middle.owing = false := by rw [← entered, rests]
        exact stays fun sane => openUnder_yields (fun _ => steady_survives settled _) (bystander_steady found)
          (steady_refl sane)

omit rests in
theorem checkReplay_leads (slot : Slot) : Leads codec call (checkReplay (K := K) (G := G) slot)
    (fun _ => True) note note w := by
  apply leads_read
  obtain ⟨windows, next, fetched⟩ := Worker.getReplayWindow_snd w slot.epoch slot.peerIndex
  rcases got : w.getReplayWindow slot.epoch slot.peerIndex with ⟨object, state'⟩
  rw [got] at fetched
  obtain rfl : state' = _ := fetched
  refine leads_bind (leads_update (carried_idle note rfl rfl rfl (List.prefix_refl _))) fun _ w _ => ?_
  split
  · refine leads_bind (leads_update (carried_idle note rfl rfl rfl (List.prefix_refl _))) fun _ _ _ => ?_
    exact leads_pure trivial
  · exact leads_pure trivial

theorem durableCheck_leads (site : AwaitPoint) (slot : Slot) :
    Leads codec call (durableCheck runtime site slot) (fun _ => True) note note w :=
  stays fun sane => durableCheck_yields guardless_steady (steady_survives rests site) slot (steady_refl sane)

theorem openResolved_leads (unentered : note.entry = none) (frame : Ref) (held : Slot × ℕ) (payload : Bytes)
    {guess : FormatGuess} (length : guess.prefixLen = getUnencryptedBytes codec none) (probed : Option Probed) :
    Leads codec call (openResolved runtime frame held payload guess probed) (fun _ => True) note note w := by
  unfold openResolved
  dsimp only
  split
  · refine leads_bind (leads_update (carried_setFormatCache note w _ _ length)) fun _ _ _ => ?_
    exact leads_pure trivial
  · have tried (site : RatchetPoint → AwaitPoint) (o : Opening) : Leads codec call
        (attempt (tryDecryptWithRatchet runtime site o)) (fun _ => True) note note w := by
      intro sane
      apply accounts_attempt
      apply accounts_mono (tryDecryptWithRatchet_leads rests unentered site o sane)
      · exact fun _ _ _ held => held
      · rintro _ _ _ ⟨rfl, sane⟩
        exact ⟨rfl, trivial, sane⟩
    refine leads_bind (tried _ _) fun outcome w _ => ?_
    refine leads_bind (stays fun sane => yields_pause (steady_survives rests _) (steady_refl sane)) fun _ w _ => ?_
    refine leads_bind (leads_settle fun _ _ => trivial) fun opened w _ => ?_
    refine leads_bind (leads_update (carried_setFormatCache note w _ _ length)) fun _ _ _ => ?_
    exact leads_pure trivial

/-- Accepting a frame ends with its delivery. -/
theorem acceptFrame_leads (frame : Ref) (held : Slot × ℕ) (payload : Bytes) (guess : FormatGuess) (opened : Bytes)
    (delivers : ∀ (w : Worker K G) frame', Carried codec call note w last
      { w with frames := w.frames.write frame frame', delivered := w.delivered ++ [(held.1, frame)] }) :
    Leads codec call (acceptFrame runtime frame held payload guess opened) (fun _ => True) note last w := by
  unfold acceptFrame
  dsimp only
  obtain ⟨windows, accepted⟩ := Worker.acceptReplay_eq w held.1 held.2 frame
  refine leads_bind (leads_update ?_) fun _ w _ => ?_
  · rw [accepted]
    exact carried_idle note rfl rfl rfl (List.prefix_refl _)
  · refine leads_bind (stays fun sane => durableAccept_yields guardless_steady (steady_survives rests _) _
      (steady_refl sane)) fun _ w _ => ?_
    refine leads_bind (leads_update (carried_posts note (posts_posted (posted_recordSuccess w _ _)))) fun _ w _ => ?_
    refine leads_of_finishes (finishes_bind (finishes_update (delivers w _)) fun _ w _ => ?_)
    exact finishes_update (carried_posts last (posts_clearStarve w))

end Gates

/-! ## Arriving frames -/

section Arriving
variable {frame : Ref}

/-- A drop is reported and thrown. -/
theorem report_leads {α : Type} {result : α → Prop} {report : Worker K G → Worker K G} (posts : Posts w (report w))
    (refused : JsError) : Leads codec call (do update report; throw refused : Task K G α) result note last w :=
  leads_bind (leads_update (carried_posts note posts)) fun _ _ _ => leads_throw

omit [DecidableEq ι] in
/-- The drop itself apart, a report posts metrics. -/
theorem posts_reportReplay (w : Worker K G) (hdr : SFrameHeader) (epoch peerIndex : ℤ) :
    Posts (reportDrop w .replay hdr epoch peerIndex) (reportReplay w hdr epoch peerIndex) :=
  posts_posted ((posted_emitMetric _ _).trans (posted_emitMetric _ _))

omit [DecidableEq ι] in
theorem posts_reportKeyInvalid (w : Worker K G) (hdr : SFrameHeader) (epoch peerIndex : ℤ) :
    Posts (reportDrop w .keyInvalid hdr epoch peerIndex) (reportKeyInvalid w hdr epoch peerIndex) :=
  posts_posted (posted_emitMetric _ _)

/-- Past the header a frame is refused, parked or delivered. -/
theorem decodePayload_leads (payload : Bytes) {guess : FormatGuess}
    (length : guess.prefixLen = getUnencryptedBytes codec none) (probed : Option Probed) (hdr : SFrameHeader) :
    Leads codec call (decodePayload runtime frame payload guess probed hdr) (fun _ => True)
      { own := some frame } {} w := by
  apply leads_read
  dsimp only
  split
  · exact report_leads (posts_posted (posted_reportStale w hdr _ _ _)) _
  · split
    · rename_i waits
      have parks : Leads codec call (update fun state => state.enqueuePreEpoch frame (w.kidCodec.decode hdr.kid).2)
          (fun _ => True) { own := some frame } {} w := leads_update (carried_park w _ rfl rfl rfl waits)
      exact leads_then parks fun _ _ _ => finishes_pure trivial
    · refine leads_bind (checkReplay_leads _) fun object w _ => ?_
      cases object with
      | none => exact report_leads (posts_posted (posted_reportReplay w hdr _ _)) _
      | some object =>
        refine leads_bind (durableCheck_leads rfl _ _) fun fresh w _ => ?_
        split
        · exact report_leads (posts_posted (posted_reportReplay w hdr _ _)) _
        · apply leads_read
          split
          · exact report_leads (posts_posted (posted_reportKeyInvalid w hdr _ _)) _
          · refine leads_bind (openResolved_leads rfl rfl frame _ payload length probed) fun opened w _ => ?_
            refine leads_then (acceptFrame_leads rfl frame _ payload guess opened fun w frame' =>
              carried_deliver w _ frame') fun _ w _ => ?_
            refine finishes_bind (finishes_update (carried_posts {} (posts_posted (posted_emitMetric w _))))
              fun _ _ _ => ?_
            exact finishes_pure trivial

theorem decodeFrame_leads (single : SinglePrefix codec) :
    Leads codec call (decodeFrame runtime frame) (fun _ => True) { own := some frame } {} w := by
  apply leads_read
  dsimp only
  split
  · exact fun sane => accounts_onward {} (carried_forget w) (accounts_pure ⟨rfl, trivial, sane⟩)
  · rename_i payload stripped
    intro sane
    rw [sane.configured]
    refine leads_bind (resolveFormat_leads single rfl frame payload _) (fun resolved w found => ?_) sane
    apply leads_read
    cases parsed : parseHeader (payload.drop resolved.1.prefixLen) with
    | error refused => exact report_leads (posts_posted (posted_failDecode w _ _)) _
    | ok hdr =>
      refine leads_bind (leads_update (carried_idle _ rfl rfl rfl (List.prefix_refl _))) fun _ w _ => ?_
      apply leads_tryCatch (decodePayload_leads payload (length_fromStart found parsed) resolved.2 hdr)
      exact fun err w => report_leads (posts_posted (posted_failDecode w _ err)) _

theorem decodeTransform_leads (single : SinglePrefix codec) :
    Leads codec call (decodeTransform runtime frame) (fun _ => True) { own := some frame } {} w := by
  have pauses (site : AwaitPoint) (w : Worker K G) : Finishes codec call (pause site) (fun _ => True) {} {} w :=
    fun sane => accounts_pause {} (fun never => by cases never) (carried_refl _ w) fun _ sane => ⟨rfl, trivial, sane⟩
  refine leads_tryCatch (leads_then (decodeFrame_leads single) fun _ w _ => ?_) fun _ w => ?_
  · refine finishes_read (finishes_bind (pauses _ w) fun _ w _ => ?_)
    exact finishes_update (carried_idle {} rfl rfl rfl (List.prefix_refl _))
  · exact fun sane => accounts_onward {} (carried_forget w) (accounts_pure ⟨rfl, trivial, sane⟩)

end Arriving

/-! ## Frames to be encoded -/

theorem unencoded_steady (frame : Ref) : Unencoded (Steady codec call { own := some frame } : Reading K G) frame :=
  fun _ _ _ _ now encodes => steady_next now (carried_encodes encodes)

/-! ## Drains -/

/-- The frames in the hand of a drain, of which it knows nothing yet. -/
abbrev inHand (frames : List Ref) : Note := { hand := some frames }

section Drains
variable {frame : Ref} {rest : List Ref}

/-- The drain looks at the first frame in its hand. -/
abbrev looking (frame : Ref) (rest : List Ref) (raw : EncodedFrame) : Note :=
  { hand := some (frame :: rest), bytes := some (frame, raw) }

/-- A frame is dropped from the hand, and the drop signalled. -/
theorem drop_leads {raw : EncodedFrame} {event : OutMsg} {report : Worker K G → Worker K G}
    (posts : Posts (w.emit event) (report w)) (reports : ReportsDrop event) :
    Leads codec call (update report) (fun _ => True) (looking frame rest raw) (inHand rest) w :=
  leads_update (carried_drop rfl posts reports)

theorem drainPayload_leads {raw : EncodedFrame} {guess : FormatGuess} (probed : Option Probed) {hdr : SFrameHeader}
    (length : guess.prefixLen = getUnencryptedBytes codec none)
    (parsed : parseHeader (raw.data.drop (getUnencryptedBytes codec none)) = .ok hdr) :
    Leads codec call (drainPayload runtime frame raw.data guess probed hdr) (fun _ => True) (looking frame rest raw)
      (inHand rest) w := by
  apply leads_read
  dsimp only
  split
  · rename_i stale
    intro sane
    exact accounts_onward _ (carried_stale rfl w rfl parsed stale) (accounts_pure ⟨rfl, trivial, sane⟩)
  · split
    · rename_i missing
      exact leads_update (carried_requeue rfl rfl parsed missing _)
    · refine leads_bind (checkReplay_leads _) fun object w _ => ?_
      cases object with
      | none => exact drop_leads (posts_reportReplay w hdr _ _) trivial
      | some object =>
        refine leads_bind (durableCheck_leads rfl _ _) fun fresh w _ => ?_
        split
        · exact drop_leads (posts_reportReplay w hdr _ _) trivial
        · apply leads_read
          split
          · exact drop_leads (posts_reportKeyInvalid w hdr _ _) trivial
          · refine leads_bind (openResolved_leads rfl rfl frame _ raw.data length probed) fun opened w _ => ?_
            exact acceptFrame_leads rfl frame _ raw.data guess opened fun w frame' => carried_decrypt rfl w _ frame'

/-- A failure is counted before the drop is signalled. -/
theorem carried_failDrain {raw : EncodedFrame} (w : Worker K G) (err : JsError) :
    Carried codec call (looking frame rest raw) w (inHand rest) (failDrain w err) := by
  have drops (v : Worker K G) : Carried codec call (looking frame rest raw) v (inHand rest)
      (v.emit (.decryptFailure .decryptFailedAfterEpoch none none none none (some err.message))) :=
    carried_drop rfl (posts_refl _) (by trivial)
  unfold failDrain
  dsimp only
  split
  · exact (carried_posts _ (posts_posted (posted_recordFailure w _ _))).trans (drops _)
  · exact (carried_posts _ (posts_posted (posted_recordFailure w _ _))).trans (drops _)
  · exact drops w

theorem drainFrame_finishes (single : SinglePrefix codec) :
    Finishes codec call (drainFrame runtime frame) (fun _ => True) (inHand (frame :: rest)) (inHand rest) w := by
  apply finishes_read
  intro sane
  rw [sane.configured]
  generalize held : w.frames.read frame = raw
  have looks : Carried codec call (inHand (frame :: rest)) w (looking frame rest raw) w := by
    refine carried_note rfl rfl rfl fun _ _ => ?_
    constructor
    · rintro _ _ ⟨⟩
      exact ⟨held, rest, rfl⟩
    · intro entry peerIndex never
      cases never
  have opens : Leads codec call (do
      let resolved ← resolveFormat runtime frame raw.data codec raw.kind
      let hdr ← settle (parseHeader (raw.data.drop resolved.1.prefixLen))
      drainPayload runtime frame raw.data resolved.1 resolved.2 hdr) (fun _ =>
        True) (looking frame rest raw) (inHand rest)
      w := by
    refine leads_bind (resolveFormat_leads single rfl frame raw.data _) fun resolved w found => ?_
    have parses : Leads codec call (settle (parseHeader (raw.data.drop resolved.1.prefixLen)))
        (fun hdr => parseHeader (raw.data.drop resolved.1.prefixLen) = .ok hdr) (looking frame rest raw)
        (looking frame rest raw) w := leads_settle fun _ same => same
    refine leads_bind parses fun hdr w parsed => ?_
    exact drainPayload_leads resolved.2 (length_fromStart found parsed) (drop_fromStart found ▸ parsed)
  apply accounts_onward _ looks
  apply accounts_tryCatch
  apply accounts_mono (opens sane)
  · exact fun _ _ _ held => held
  · rintro err _ w ⟨rfl, sane⟩
    have drops : Carried codec call (looking frame rest raw) w (inHand rest) (failDrain w err) :=
      carried_failDrain w err
    exact accounts_update _ drops ⟨rfl, trivial, drops.sane sane⟩

theorem drainFrames_finishes (single : SinglePrefix codec) (frames : List Ref) :
    Finishes codec call (drainFrames runtime frames) (fun _ => True) (inHand frames) (inHand []) w := by
  induction frames generalizing w with
  | nil => exact finishes_pure trivial
  | cons frame rest ih => exact finishes_bind (drainFrame_finishes single) fun _ _ _ => ih

/-- A drain ends when it finds another in progress, or when nobody asks for one more pass. -/
theorem drainPasses_finishes (single : SinglePrefix codec) (patience : ℕ) (owing : Bool) :
    Finishes codec call (drainPasses runtime patience) (fun _ => True) { owing } {} w := by
  induction patience generalizing w owing with
  | zero => exact fun _ => accounts_pauseUntil { owing } (fun _ => rfl) (carried_refl _ w) fun _ never => by cases never
  | succ patience ih =>
    apply finishes_read
    split
    · rename_i busy
      exact finishes_update (carried_ask busy rfl rfl)
    · rename_i idle
      rw [Bool.not_eq_true] at idle
      refine finishes_bind (finishes_update (carried_take idle rfl)) fun _ w _ => ?_
      refine finishes_bind (drainFrames_finishes single _) fun _ w _ => ?_
      refine finishes_onward (carried_release w) (finishes_read ?_)
      have asked : ({ w with draining := false } : Worker K G).pendingDrain = w.pendingDrain := rfl
      rw [asked]
      cases pending : w.pendingDrain with
      | false => exact finishes_pure trivial
      | true => exact finishes_onward (carried_owing _) (ih true)

end Drains

/-! ## Calls -/

/-- The call leaves the configuration as it is, and is no teardown. -/
def leavesConfiguration : Call K → Bool
  | .message (.epoch ..) | .message (.rotate ..) => true
  | .message _ => false
  | .wipeTimer _ | .tick _ | .transform .. | .encodeFrame _ | .decodeFrame _ | .tryDecryptWithRatchet _
  | .drainPreEpochQueue => true

/-- A program that owes no pass over the queue when it has ended. -/
def Rests {α : Type} (codec : Option Codec) (call : ι) (program : Task K G α) (note : Note) (w : Worker K G) : Prop :=
  Sane codec w → Accounts (conserving codec call) program (fun _ reached _ => reached.owing = false)
    (fun _ reached _ => reached.owing = false) note w

section Calls
variable {α : Type} {result : α → Prop}

theorem rests_of_leads {program : Task K G α} {value : α → Outcome}
    (leads : Leads codec call program result note last w)
    (begins : note.owing = false) (ends : last.owing = false) :
    Rests codec call (do let outcome ← program; return value outcome : Task K G Outcome) note w := by
  intro sane
  apply accounts_bind
  apply accounts_mono (leads sane)
  · rintro _ _ w ⟨rfl, -, -⟩
    exact accounts_pure ends
  · rintro _ _ w ⟨rfl, -⟩
    exact begins

theorem received_rests {rest : Ref → Task K G α} (frame : EncodedFrame)
    (next : ∀ ref w, Rests codec call (rest ref) { own := some ref } w) :
    Rests codec call (receive frame >>= rest) {} w := by
  intro sane
  have arrives : Carried codec call {} w { own := some w.frames.next } (receiveFrame frame w) := carried_receive frame w
  apply accounts_bind
  apply accounts_read
  apply accounts_bind
  exact accounts_update _ arrives (accounts_pure (next _ _ (arrives.sane sane)))

theorem handleEpoch_leads (single : SinglePrefix codec) (epoch selfPeerIndex : ℤ) (keys : KeyBundles K) :
    Leads codec call (handleEpoch runtime epoch selfPeerIndex keys) (fun _ => True) {} {} w := by
  apply leads_read
  intro sane
  apply accounts_bind
  apply accounts_settle
  · intro installed ok
    have begins : Carried codec call {} w { owing := true } ((fun _ => installed) w) := carried_install ok
    exact leads_of_finishes (finishes_onward begins (drainPasses_finishes single _ true)) sane
  · exact fun _ _ => ⟨rfl, sane⟩

theorem program_rests (single : SinglePrefix codec) {own : Call K} (fixed : leavesConfiguration own = true) :
    Rests codec call (own.program runtime) {} w := by
  have encodes {program : Task K G Unit} (ref : Ref) (w : Worker K G)
      (kept : Sane codec w → Yields ((conserving codec call).still { own := some ref })
        (Steady codec call { own := some ref }) program (fun _ => True) { point := .start } w w) :
      Rests codec call (do program; return .done : Task K G Outcome) { own := some ref } w :=
    rests_of_leads (stays kept) rfl rfl
  cases own with
  | message msg =>
    cases msg with
    | epoch epoch selfPeerIndex keys => exact rests_of_leads (handleEpoch_leads single epoch selfPeerIndex keys) rfl rfl
    | rotate epoch selfPeerIndex keys =>
        exact rests_of_leads (handleEpoch_leads single epoch selfPeerIndex keys) rfl rfl
    | init | streams | setSifTrailer | setRatchetWindow | setMetricsEnabled | setReplayWindow | setFailureTolerance
    | teardown => cases fixed
  | wipeTimer epoch =>
    have fires : Leads codec call (fireWipeTimer runtime epoch) (fun _ => True) {} {} w := by
      apply leads_read
      split
      · exact leads_update (carried_wipe runtime.guard w epoch)
      · exact leads_pure trivial
    exact rests_of_leads fires rfl rfl
  | tick elapsed => exact rests_of_leads (leads_update (carried_idle {} rfl rfl rfl (List.prefix_refl _))) rfl rfl
  | transform side frame =>
    cases side with
    | decode => exact received_rests frame fun ref w => rests_of_leads (decodeTransform_leads single) rfl rfl
    | encode =>
      exact received_rests frame fun ref w => encodes ref w fun sane =>
        encodeTransform_yields (unencoded_steady ref) (fun _ _ => steady_survives rfl _) _ (steady_refl sane)
  | encodeFrame frame =>
    exact received_rests frame fun ref w => encodes ref w fun sane =>
      encodeFrame_yields (unencoded_steady ref) (fun _ _ => steady_survives rfl _) _ (steady_refl sane)
  | decodeFrame frame => exact received_rests frame fun ref w => rests_of_leads (decodeFrame_leads single) rfl rfl
  | tryDecryptWithRatchet opening => exact rests_of_leads (tryDecryptWithRatchet_leads rfl rfl _ opening) rfl rfl
  | drainPreEpochQueue => exact rests_of_leads (leads_of_finishes (drainPasses_finishes single _ false)) rfl rfl

end Calls

/-! ## Runs -/

/-- Every frame of the record is in one place of the ledger; it has been delivered when it
was decrypted, and a drop has its own signal. Only a drain in progress has frames in its
hand. -/
def Accounted (record : List Ref) (w : Worker K G) : Prop :=
  ∃ fates : Fates, (fates.all w.preEpochQueue).Nodup ∧ record ⊆ fates.all w.preEpochQueue ∧
    (∀ ref ∈ fates.all w.preEpochQueue, (w.delivered.map Prod.snd).count ref = if ref ∈ fates.decrypted then 1 else 0) ∧
    Reported w.emitted fates.dropped ∧ (∀ ref ∈ fates.stale, Stale w ref) ∧ (w.draining = false → fates.hand = [])

/-- No drain is in progress, and none waits for another pass, which the drain that was
asked for it begins at once unless its patience is at an end. -/
def Undrained (pool : WorkerPool ι K G) : Prop :=
  pool.shared.draining = false ∧ ∀ call, pool.statuses call ≠ .suspended { point := .rerun }

/-- What is true of the worker and what is remembered of its calls between any two turns,
and that no frame of the record is lost. -/
def Conserved (codec : Option Codec) (record : List Ref) (w : Worker K G)
    (statuses : ι → Status AwaitPoint (Except JsError Outcome)) (notes : ι → Note) : Prop :=
  ∃ fates, Kept codec w notes fates ∧ record ⊆ fates.all w.preEpochQueue ∧
    ∀ call, (notes call).owing = true → statuses call = .suspended { point := .rerun }

/-- A call that has ended owes nothing. -/
def Paid (_ : Except JsError Outcome) (note : Note) (_ : Worker K G) : Prop := note.owing = false

section Runs
variable {calls : ι → Call K} {first : Worker K G} {record : List Ref}

omit [DecidableEq ι] in
theorem kept_configured (configured : beyondConfiguration first = beyondConfiguration Worker.createWorkerState) :
    Kept first.codec first (fun _ : ι => {}) {} := by
  have parts : (first.preEpochQueue, first.draining, first.pendingDrain, first.delivered, first.formatCache) =
      ([], false, false, [], ∅) :=
    (congrArg (fun v => (v.preEpochQueue, v.draining, v.pendingDrain, v.delivered, v.formatCache)) configured :
      ((beyondConfiguration first).preEpochQueue, _, _, _, _) = _)
  have table : (epochTable first, first.entries.next) = (epochTable (Worker.createWorkerState : Worker K G), 0) :=
    (congrArg (fun v => (epochTable v, v.entries.next)) configured :
      (epochTable (beyondConfiguration first), _) = _)
  simp only [Prod.mk.injEq] at parts
  obtain ⟨queue, draining, pending, delivered, formats⟩ := parts
  constructor
  · rw [queue, delivered]
    constructor <;> simp [Fates.all, Owned]
  · rw [draining, pending]
    constructor <;> simp
  · constructor <;> simp
  · simp
  · refine ⟨rfl, fun epoch peerIndex guess cached => ?_⟩
    rw [Worker.getFormatCache, formats] at cached
    cases cached
  · exact Reinstall.registered_of Reinstall.registered_created table
  · exact fun _ => knows_nothing first rfl rfl
  · rw [Waiting, queue]
    exact .inl fun _ never => absurd never List.not_mem_nil

/-- A turn loses no frame. -/
theorem conserved_turn {before after : WorkerPool ι K G} {notes : ι → Note} {note : Note}
    (conserved : Conserved codec record before.shared before.statuses notes)
    (carried : Carried codec call (notes call) before.shared note after.shared)
    (reached : Reached (conserving codec call).toPact Paid note after.shared (after.statuses call)) :
    Conserved codec record after.shared (Function.update before.statuses call (after.statuses call))
      (Function.update notes call note) := by
  obtain ⟨fates, kept, listed, owed⟩ := conserved
  obtain ⟨later, kept', listed'⟩ := carried.keeps notes fates rfl kept
  refine ⟨later, kept', List.Subset.trans listed listed', fun other => ?_⟩
  by_cases here : other = call
  · subst here
    rw [Function.update_self, Function.update_self]
    intro owes
    cases status : after.statuses other with
    | running =>
      rw [status] at reached
      exact reached.elim
    | suspended site =>
      rw [status] at reached
      rw [reached owes]
    | finished outcome =>
      rw [status] at reached
      cases owes.symm.trans reached
  · rw [Function.update_of_ne here, Function.update_of_ne here]
    exact owed other

theorem recorded_conserved {last : WorkerPool ι K G} (single : SinglePrefix first.codec)
    (configured : beyondConfiguration first = beyondConfiguration Worker.createWorkerState)
    (fixed : ∀ call, leavesConfiguration (calls call) = true)
    (run : Recorded (·.preEpochQueue) (launch runtime first calls) record last) :
    Keeping (fun call => (conserving first.codec call).toPact) (fun _ => Paid) (Conserved first.codec record) last := by
  induction run with
  | start =>
    apply launch_keeping (fun _ => {})
    · refine ⟨{}, kept_configured configured, fun ref member => ?_, fun _ never => by cases never⟩
      exact Fates.mem_queue {} member
    · intro _ never
      cases never
    · intro call w sane
      apply noted_mono (program_rests single (fixed call) sane)
      intro outcome note _ held
      cases outcome with
      | ok value => exact held
      | error refused => exact held
  | @turn record before call after _ taken ih =>
    have passes : anyTurn before call after := trivial
    obtain ⟨notes, ⟨fates, kept, listed, owed⟩, waits⟩ := turn_keeping _ _ _
      (fun _ _ _ _ _ conserved _ _ => conserved.choose_spec.1.sane)
      (fun _ _ _ _ _ _ conserved _ _ _ carried reached => conserved_turn conserved carried reached) ih taken passes
    refine ⟨notes, ⟨fates, kept, fun ref member => ?_, owed⟩, waits⟩
    rcases List.mem_append.mp member with earlier | now
    · exact listed earlier
    · exact fates.mem_queue now

/-- **No parked frame is lost or left behind.** In any interleaving of epoch messages, wipe
timers, arriving frames and drains under a fixed configuration, each frame that was ever
parked is accounted for, and when no drain is in progress nothing that waits can be opened.
Frames wait in the order in which they came if they were parked in it while no drain was in
progress. -/
theorem queue_conserved {last : WorkerPool ι K G} (single : SinglePrefix first.codec)
    (configured : beyondConfiguration first = beyondConfiguration Worker.createWorkerState)
    (fixed : ∀ call, leavesConfiguration (calls call) = true)
    (run : Recorded (·.preEpochQueue) (launch runtime first calls) record last) :
    Accounted record last.shared ∧ (Undrained last → ∀ ref ∈ last.shared.preEpochQueue, ¬ Openable last.shared ref) ∧
      (Runs (fun before call _ => QueueDiscipline.InOrder calls before call) (launch runtime first calls) last →
        last.shared.preEpochQueue.Pairwise (· < ·)) := by
  obtain ⟨notes, ⟨fates, kept, listed, owed⟩, -⟩ := recorded_conserved single configured fixed run
  refine ⟨⟨fates, kept.ledger.once, listed, kept.ledger.counted, kept.reported, kept.past, kept.drains.idle⟩, ?_, ?_⟩
  · rintro ⟨idle, unasked⟩
    have nobody : ¬ ∃ call, (notes call).owing = true := by
      rintro ⟨call, owes⟩
      exact unasked call (owed call owes)
    rcases kept.waiting with closed | asked | owing
    · exact closed
    · rcases kept.drains.asked asked with busy | owing
      · cases idle.symm.trans busy
      · exact absurd owing nobody
    · exact absurd owing nobody
  · have empty : first.preEpochQueue = [] :=
      (congrArg (·.preEpochQueue) configured : (beyondConfiguration first).preEpochQueue = _)
    exact QueueDiscipline.runs_inLine empty

end Runs

section Checked
open Specimen (bundles)
open QueueDiscipline (early overtaken)

/-- A second frame is parked while a drain has the first in its hand, and stands before it
when the drain has put it back. -/
theorem late_frame_overtakes : (∀ call, leavesConfiguration (overtaken call) = true) ∧
    ∃ record last, Recorded (·.preEpochQueue) (launch Specimen.runtime Worker.createWorkerState overtaken) record last ∧
      last.shared.draining = false ∧ last.shared.preEpochQueue = [1, 0] := by
  constructor
  · decide
  · have computed : ((launch Specimen.runtime Worker.createWorkerState overtaken).followPassing anyTurn
        [0, 0, 2, 1, 2, 1]).map (fun last => (last.shared.draining, last.shared.preEpochQueue)) = some
          (false, [1, 0]) := by
      decide +kernel
    obtain ⟨last, followed, reached⟩ := Option.map_eq_some_iff.mp computed
    obtain ⟨record, recorded⟩ := runs_recorded (·.preEpochQueue) (followPassing_runs followed)
    exact ⟨record, last, recorded, (Prod.mk.inj reached).1, (Prod.mk.inj reached).2⟩

/-- A frame comes before the keys of its sender. -/
def ahead : Fin 2 → Call Bytes
  | 0 => .decodeFrame (early 1)
  | 1 => .message (.epoch 0 1 (bundles [7, 9]))

theorem queue_conserved_ahead : ∃ record, ∃ last : WorkerPool (Fin 2) Bytes Unit,
    Recorded (·.preEpochQueue) (launch Specimen.runtime Worker.createWorkerState ahead) record last ∧ 0 ∈ record ∧
      last.shared.delivered.map Prod.snd = [0] ∧ Accounted record last.shared := by
  have computed : ((launch Specimen.runtime Worker.createWorkerState ahead).turn 0).bind (fun one =>
      (one.turn 0).bind fun two => (two.turn 1).bind fun three => (three.turn 1).bind fun four =>
        (four.turn 1).map fun last => (two.shared.preEpochQueue, last.shared.delivered.map Prod.snd)) =
          some ([0], [0]) := by
    decide +kernel
  obtain ⟨one, first, computed⟩ := Option.bind_eq_some_iff.mp computed
  obtain ⟨two, second, computed⟩ := Option.bind_eq_some_iff.mp computed
  obtain ⟨three, third, computed⟩ := Option.bind_eq_some_iff.mp computed
  obtain ⟨four, fourth, computed⟩ := Option.bind_eq_some_iff.mp computed
  obtain ⟨last, fifth, computed⟩ := Option.map_eq_some_iff.mp computed
  obtain ⟨parked, delivered⟩ := Prod.mk.inj computed
  have run : Recorded (·.preEpochQueue) (launch Specimen.runtime Worker.createWorkerState ahead) _ last :=
    ((((Recorded.start.turn first).turn second).turn third).turn fourth).turn fifth
  have fixed : ∀ call, leavesConfiguration (ahead call) = true := by decide
  refine ⟨_, last, run, ?_, delivered, (queue_conserved ?_ ?_ fixed run).1⟩
  · simp [parked]
  · trivial
  · rfl

end Checked

end SFrameRatchet.QueueConservation
