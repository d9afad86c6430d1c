import SFrameRatchet.DecodeWalk
import SFrameRatchet.RelyGuarantee
import SFrameRatchet.Specimen

/-! The fast path of the encoder. It lays a frame out in one buffer that it has sized
beforehand, and takes its counter before anything that may fail. The simple version
puts the clear prefix, the sealed rest and the trailer one behind the other; the two
agree on every frame and on every failure. A counter that a failed frame has taken
stays taken while its epoch is the current one. -/
namespace SFrameRatchet.FastPath
open BigEndian Collections Crypto Kid Header SFrame CodecPartial Throwing Coroutine Interleaving RelyGuarantee Media
  DecodeWalk

variable {K G : Type}

/-- AES-GCM adds one tag to whatever it seals. -/
def Tagged (crypto : WebCrypto K) : Prop := ∀ key iv aad plaintext sealed,
  crypto.encrypt key iv aad plaintext = some sealed → sealed.length = plaintext.length + aeadTagBytes

/-! ## One buffer -/

theorem setBytes_ok {target source out : Bytes} {offset : ℕ} : setBytes target source offset = .ok out ↔
    offset + source.length ≤ target.length ∧
      out = target.take offset ++ source ++ target.drop (offset + source.length) := by
  unfold setBytes
  split
  · rename_i beyond
    constructor
    · intro never
      cases never
    · rintro ⟨within, -⟩
      omega
  · rename_i within
    rw [Except.ok.injEq, eq_comm]
    exact (and_iff_right (Nat.le_of_not_lt within)).symm

section Buffer
variable {crypto : WebCrypto K} {header body : Bytes} {key : SFrameKey K} {ctr offset : ℕ}
  {aadPrefix : Option Bytes} {aadForm : AadForm}

/-- The header in front, what is sealed behind it. -/
theorem sframeEncrypt_eq (written : serializeHeader key.kid ctr = .ok header) :
    sframeEncrypt crypto body key ctr aadPrefix aadForm =
      (sealBody crypto header body key ctr aadPrefix aadForm).map (header ++ ·) := by
  simp only [sframeEncrypt, sealBody, written, bind, Except.bind]
  cases deriveIv key.salt ctr with
  | error refused => rfl
  | ok iv =>
    dsimp only
    cases crypto.encrypt key.cryptoKey iv (buildAad aadPrefix header aadForm) body <;> rfl

/-- Two neighbouring pieces are one. -/
theorem setBytes_twice {out : Bytes} {first second : Bytes} (room : offset + (first ++ second).length ≤ out.length) :
    (setBytes out first offset >>= fun between => setBytes between second (offset + first.length)) =
      .ok (out.take offset ++ (first ++ second) ++ out.drop (offset + (first ++ second).length)) := by
  rw [List.length_append] at room
  have front : setBytes out first offset =
      .ok (out.take offset ++ first ++ out.drop (offset + first.length)) :=
    setBytes_ok.mpr ⟨by omega, rfl⟩
  rw [front]
  refine setBytes_ok.mpr ⟨?_, ?_⟩
  · simp only [List.length_append, List.length_take, List.length_drop]
    omega
  · have width : (out.take offset ++ first).length = offset + first.length := by
      rw [List.length_append, List.length_take]
      omega
    have kept : (out.take offset ++ first ++ out.drop (offset + first.length)).take (offset + first.length) =
        out.take offset ++ first := List.take_left' width
    have behind : (out.take offset ++ first ++ out.drop (offset + first.length)).drop
        (offset + first.length + second.length) = out.drop (offset + (first.length + second.length)) := by
      rw [← List.drop_drop, List.drop_left' width, List.drop_drop, Nat.add_assoc]
    rw [kept, behind, List.length_append, List.append_assoc (out.take offset) first second]

/-- **The range.** What is sealed goes into the buffer from the offset on, and what
stands before it and behind it stays. -/
theorem sframeEncryptInto_range {out out' : Bytes} {written : ℕ}
    (made : sframeEncryptInto crypto out offset header body key ctr aadPrefix aadForm = .ok (out', written)) :
    ∃ ct, sealBody crypto header body key ctr aadPrefix aadForm = .ok ct ∧ written = (header ++ ct).length ∧
      offset + written ≤ out.length ∧
      out' = out.take offset ++ (header ++ ct) ++ out.drop (offset + written) := by
  unfold sframeEncryptInto at made
  cases sealed : sealBody crypto header body key ctr aadPrefix aadForm with
  | error refused => simp [sealed, bind, Except.bind] at made
  | ok ct =>
    simp only [sealed, bind, Except.bind] at made
    cases first : setBytes out header offset with
    | error refused => simp [first] at made
    | ok between =>
      simp only [first] at made
      cases second : setBytes between ct (offset + header.length) with
      | error refused => simp [second] at made
      | ok last =>
        simp only [second, pure, Except.pure, Except.ok.injEq, Prod.mk.injEq] at made
        obtain ⟨rfl, rfl⟩ := made
        obtain ⟨room, rfl⟩ := setBytes_ok.mp first
        obtain ⟨roomBehind, -⟩ := setBytes_ok.mp second
        simp only [List.length_append, List.length_take, List.length_drop] at roomBehind
        have fits : offset + (header ++ ct).length ≤ out.length := by
          rw [List.length_append]
          omega
        have whole := setBytes_twice fits
        simp only [first, bind, Except.bind, second, Except.ok.injEq] at whole
        refine ⟨ct, rfl, List.length_append.symm, ?_, ?_⟩
        · rw [List.length_append] at fits
          exact fits
        · rw [whole, List.length_append]

theorem sframeEncryptInto_ok {out ct : Bytes} (sealed : sealBody crypto header body key ctr aadPrefix aadForm = .ok ct)
    (room : offset + (header ++ ct).length ≤ out.length) :
    sframeEncryptInto crypto out offset header body key ctr aadPrefix aadForm =
      .ok (out.take offset ++ (header ++ ct) ++ out.drop (offset + (header ++ ct).length), (header ++ ct).length) := by
  have both := setBytes_twice room
  simp only [sframeEncryptInto, sealed, bind, Except.bind] at both ⊢
  cases first : setBytes out header offset with
  | error refused =>
    rw [first] at both
    cases both
  | ok between =>
    simp only [first] at both
    simp only [both, pure, Except.pure, List.length_append]

end Buffer

/-! ## One frame -/

section Frame
variable {runtime : Runtime K G}

theorem sealBody_length (tagged : Tagged runtime.crypto) {header body ct : Bytes} {key : SFrameKey K} {ctr : ℕ}
    {aadPrefix : Option Bytes} {aadForm : AadForm}
    (sealed : sealBody runtime.crypto header body key ctr aadPrefix aadForm = .ok ct) :
    ct.length = body.length + aeadTagBytes := by
  simp only [sealBody, bind, Except.bind] at sealed
  cases derived : deriveIv key.salt ctr with
  | error refused => simp [derived] at sealed
  | ok iv =>
    simp only [derived] at sealed
    cases made : runtime.crypto.encrypt key.cryptoKey iv (buildAad aadPrefix header aadForm) body with
    | none => simp [made, throw, throwThe, MonadExceptOf.throw] at sealed
    | some other =>
      simp only [made, pure, Except.pure, Except.ok.injEq] at sealed
      exact sealed ▸ tagged _ _ _ _ _ made

/-- The buffer has exactly the room of its four parts, so that laying them out one
after the other is putting them one behind the other. -/
theorem wireFrame_eq (tagged : Tagged runtime.crypto) {plaintext header : Bytes} {n ctr : ℕ} {key : SFrameKey K}
    (fits : n ≤ plaintext.length) (written : serializeHeader key.kid ctr = .ok header) (trailer : Option Bytes) :
    wireFrame runtime plaintext header n key ctr trailer =
      (sframeEncrypt runtime.crypto (plaintext.drop n) key ctr none .header).map
        fun sealed => plaintext.take n ++ sealed ++ trailer.getD [] := by
  rw [sframeEncrypt_eq written]
  generalize zeros : List.replicate (n + header.length + (plaintext.drop n).length + aeadTagBytes +
    (trailer.getD []).length) (0 : UInt8) = wire
  have room : wire.length =
    n + header.length + (plaintext.drop n).length + aeadTagBytes + (trailer.getD []).length := by
    rw [← zeros, List.length_replicate]
  have width : (plaintext.take n).length = n := by
    rw [List.length_take]
    omega
  obtain ⟨cleared, clear, cleared_eq⟩ : ∃ cleared, (if n > 0 then setBytes wire (plaintext.take n) 0 else .ok wire) =
      .ok cleared ∧ cleared = plaintext.take n ++ wire.drop n := by
    split
    · exact ⟨_, setBytes_ok.mpr ⟨by omega, rfl⟩, by simp [width]⟩
    · rename_i none
      obtain rfl : n = 0 := by omega
      exact ⟨wire, rfl, by simp⟩
  have before : wireFrame runtime plaintext header n key ctr trailer =
      (sframeEncryptInto runtime.crypto cleared n header (plaintext.drop n) key ctr none .header >>= fun made =>
        if trailer.isSome then setBytes made.1 (trailer.getD []) (n + made.2) else .ok made.1) := by
    simp only [wireFrame, zeros, bind, Except.bind]
    split
    · rename_i some
      rw [if_pos some] at clear
      rw [clear]
    · rename_i none
      rw [if_neg none, Except.ok.injEq] at clear
      rw [clear]
  rw [before]
  cases sealed : sealBody runtime.crypto header (plaintext.drop n) key ctr none .header with
  | error refused => simp [sframeEncryptInto, sealed, bind, Except.bind, Except.map]
  | ok ct =>
    have tag := sealBody_length tagged sealed
    have total : cleared.length = n + (header ++ ct).length + (trailer.getD []).length := by
      rw [cleared_eq, List.length_append, List.length_append, List.length_drop, width]
      omega
    have left : cleared.take n = plaintext.take n := by rw [cleared_eq, List.take_left' width]
    have fitting : n + (header ++ ct).length ≤ cleared.length := by omega
    have made := sframeEncryptInto_ok sealed fitting
    simp only [made, left, bind, Except.bind, Except.map]
    generalize header ++ ct = parts at total ⊢
    have within : (plaintext.take n ++ parts).length = n + parts.length := by rw [List.length_append, width]
    cases trailer with
    | none =>
      have nothing : cleared.drop (n + parts.length) = [] :=
        List.drop_eq_nil_of_le (by simp only [Option.getD_none, List.length_nil] at total; omega)
      simp only [Option.isSome_none, Bool.false_eq_true, ↓reduceIte, nothing, Option.getD_none]
    | some ending =>
      simp only [Option.getD_some] at total ⊢
      refine setBytes_ok.mpr ⟨?_, ?_⟩
      · rw [List.length_append, within, List.length_drop]
        omega
      · have nothing : (plaintext.take n ++ parts ++ cleared.drop (n + parts.length)).drop
            (n + parts.length + ending.length) = [] := by
          apply List.drop_eq_nil_of_le
          rw [List.length_append, within, List.length_drop]
          omega
        rw [nothing, List.take_left' within, List.append_nil]

/-- What a frame goes out as: the first bytes in the clear, the rest sealed at the
counter under the own key of the current epoch, and the trailer. -/
def simpleFrame (runtime : Runtime K G) (w : Worker K G) (frame : Ref) (frameKind : Option FrameKind) :
    Except JsError Bytes :=
  match w.epochs.get? w.currentEpoch with
  | none => .error (.error "worker: no active send epoch")
  | some ref =>
    match (w.entries.read ref).keys.get? (w.entries.read ref).selfPeerIndex with
    | none => .error (.error "worker: no self key in current epoch")
    | some key =>
      let plaintext := (w.frames.read frame).data
      let n := min (getUnencryptedBytes w.codec frameKind) plaintext.length
      (sframeEncrypt runtime.crypto (plaintext.drop n) key.toSFrameKey w.ctr none .header).map
        fun sealed => plaintext.take n ++ sealed ++ w.sifTrailer.getD []

/-- What the pipes have passed on of a frame object. -/
def passedOn (w : Worker K G) (frame : Ref) : List (Side × Ref × Bytes) :=
  w.enqueued.filter fun sent => sent.2.1 = frame

/-- Neither the frame object nor what has been passed on of it is different. -/
def Untouched (frame : Ref) (w w' : Worker K G) : Prop :=
  w'.frames.read frame = w.frames.read frame ∧ passedOn w' frame = passedOn w frame

theorem untouched_core {frame : Ref} {w v v' : Worker K G} (untouched : Untouched frame w v) (same : v'.core = v.core) :
    Untouched frame w v' := by
  have frames : v'.frames = v.frames := (congrArg (·.frames) same : v'.core.frames = v.core.frames)
  have enqueued : v'.enqueued = v.enqueued := (congrArg (·.enqueued) same : v'.core.enqueued = v.core.enqueued)
  exact ⟨by rw [frames]; exact untouched.1, by rw [passedOn, enqueued]; exact untouched.2⟩

/-- While a call waits, the others leave its frame object alone. -/
def onFrame (frame : Ref) : Reliance AwaitPoint (Worker K G) where
  assume _ _ := True
  moves _ _ _ _ := True
  rely _ left later := Untouched frame left later

/-- The encoder has given a frame the bytes it goes out as. -/
def Encoded (runtime : Runtime K G) (w : Worker K G) (frame : Ref) (frameKind : Option FrameKind)
    (w' : Worker K G) : Prop :=
  ∃ wire, simpleFrame runtime w frame frameKind = .ok wire ∧
    w'.frames.read frame = { w.frames.read frame with data := wire } ∧ passedOn w' frame = passedOn w frame

theorem encoded_core {frame : Ref} {frameKind : Option FrameKind} {w v v' : Worker K G}
    (encoded : Encoded runtime w frame frameKind v) (same : v'.core = v.core) :
    Encoded runtime w frame frameKind v' := by
  obtain ⟨wire, simple, data, sent⟩ := encoded
  have still : Untouched frame v v := ⟨rfl, rfl⟩
  obtain ⟨frames, enqueued⟩ := untouched_core still same
  exact ⟨wire, simple, frames.trans data, enqueued.trans sent⟩

theorem noteSealing_frames (w : Worker K G) (key : SFrameKey K) (ctr : ℕ) :
    (noteSealing w key ctr).frames = w.frames ∧ (noteSealing w key ctr).enqueued = w.enqueued := by
  unfold noteSealing
  split
  · exact ⟨rfl, rfl⟩
  · exact ⟨rfl, rfl⟩

/-- **The encoder** returns and throws as the simple version does. -/
theorem encodeFrame_fulfils (tagged : Tagged runtime.crypto) (w : Worker K G) (frame : Ref)
    (frameKind : Option FrameKind) (at_ : AwaitPoint) (start : Worker K G) :
    Fulfils (onFrame frame) (Media.encodeFrame runtime frame frameKind)
      (fun _ _ _ w' => Encoded runtime w frame frameKind w')
      (fun _ _ error w' => simpleFrame runtime w frame frameKind = .error error ∧ Untouched frame w w')
      at_ start w := by
  unfold Media.encodeFrame simpleFrame
  simp only [fulfils_bind, fulfils_read]
  cases active : w.epochs.get? w.currentEpoch with
  | none => exact ⟨rfl, rfl, rfl⟩
  | some entry =>
    dsimp only
    cases own : (w.entries.read entry).keys.get? (w.entries.read entry).selfPeerIndex with
    | none => exact ⟨rfl, rfl, rfl⟩
    | some key =>
      simp only [fulfils_bind, fulfils_update, fulfils_settle]
      have within := Nat.min_le_right (getUnencryptedBytes w.codec frameKind) (w.frames.read frame).data.length
      have same (header : Bytes) (written : serializeHeader key.toSFrameKey.kid w.ctr = .ok header) :=
        wireFrame_eq tagged within written w.sifTrailer
      cases written : serializeHeader key.kid w.ctr with
      | error refused =>
        refine ⟨?_, rfl, rfl⟩
        simp [sframeEncrypt, written, bind, Except.bind, Except.map]
      | ok header =>
        simp only [fulfils_pause]
        refine ⟨trivial, fun later _ left => ?_⟩
        obtain ⟨frames, enqueued⟩ := noteSealing_frames { w with ctr := w.ctr + 1 } key.toSFrameKey w.ctr
        have noted : Untouched frame w later := by
          refine ⟨left.1.trans (congrArg (·.read frame) frames), left.2.trans ?_⟩
          rw [passedOn, enqueued]
          rfl
        rw [same header written]
        cases simple : (sframeEncrypt runtime.crypto ((w.frames.read frame).data.drop
            (min (getUnencryptedBytes w.codec frameKind) (w.frames.read frame).data.length))
            key.toSFrameKey w.ctr none .header).map fun sealed =>
              (w.frames.read frame).data.take (min (getUnencryptedBytes w.codec frameKind)
                (w.frames.read frame).data.length) ++ sealed ++ w.sifTrailer.getD [] with
        | error refused => exact ⟨rfl, noted⟩
        | ok wire =>
          dsimp only
          refine encoded_core ?_ (Worker.core_clearEncryptStarve _)
          refine encoded_core ?_ (Worker.core_emitMetric _ _)
          refine ⟨wire, ?_, ?_, noted.2⟩
          · simp only [simpleFrame, active, own, simple]
          · rw [Heap.read_write, if_pos rfl, noted.1]

/-- The encoder's pipe has passed on the bytes a frame goes out as, or nothing of a
frame that the encoder failed on. -/
def PassedOrDropped (runtime : Runtime K G) (w : Worker K G) (frame : Ref) (frameKind : Option FrameKind)
    (w' : Worker K G) : Prop :=
  (∃ wire, simpleFrame runtime w frame frameKind = .ok wire ∧
    passedOn w' frame = passedOn w frame ++ [(.encode, frame, wire)]) ∨
  ∃ error, simpleFrame runtime w frame frameKind = .error error ∧ Untouched frame w w'

/-- **The pipe** swallows what the encoder throws, with the frame. -/
theorem encodeTransform_fulfils (tagged : Tagged runtime.crypto) (w : Worker K G) (frame : Ref)
    (frameKind : Option FrameKind) (at_ : AwaitPoint) (start : Worker K G) :
    Fulfils (onFrame frame) (encodeTransform runtime frame frameKind)
      (fun _ _ _ w' => PassedOrDropped runtime w frame frameKind w') (fun _ _ _ _ => False) at_ start w := by
  unfold encodeTransform
  rw [fulfils_tryCatch, fulfils_bind]
  refine fulfils_mono (encodeFrame_fulfils tagged w frame frameKind at_ start) ?_ ?_
  · rintro _ _ - sent ⟨wire, simple, data, earlier⟩
    simp only [fulfils_bind, fulfils_read, fulfils_pause, fulfils_update]
    refine ⟨trivial, fun later _ left => .inl ⟨wire, simple, ?_⟩⟩
    have bytes : (later.frames.read frame).data = wire := by rw [left.1, data]
    have before : later.enqueued.filter (fun sent => sent.2.1 = frame) = passedOn w frame := left.2.trans earlier
    simp only [passedOn, enqueueFrame, List.filter_append, before, bytes, List.filter_singleton, decide_true, cond_true]
  · rintro _ _ error failed ⟨simple, untouched⟩
    exact .inr ⟨error, simple, untouched_core untouched (core_dropEncoded failed error)⟩

end Frame

/-! ## Counters -/

/-- A counter of an epoch is spent: while the epoch is the current one, the worker is
beyond it. -/
def Spent (epoch : ℤ) (ctr : ℕ) (w : Worker K G) : Prop := w.currentEpoch = epoch → ctr < w.ctr

/-- A call is about to make an epoch the current one. -/
def Activates (call : Call K) (epoch : ℤ) (at_ : AwaitPoint) (w : Worker K G) : Prop :=
  at_.point = .start ∧ w.currentEpoch < epoch ∧
    ∃ selfPeerIndex keys, call = .message (.epoch epoch selfPeerIndex keys) ∨
      call = .message (.rotate epoch selfPeerIndex keys)

/-- A part of a call that does not make the epoch the current one leaves the counter spent. -/
def StaysSpent (epoch : ℤ) (ctr : ℕ) (call : Call K) : Reading K G := fun at_ start w =>
  ¬ Activates call epoch at_ start → Spent epoch ctr start → Spent epoch ctr w

/-- Whatever a call is resumed in, its next part leaves spent counters spent. -/
def spending (epoch : ℤ) (ctr : ℕ) (call : Call K) : Contract AwaitPoint (Worker K G) where
  assume _ _ := True
  moves at_ start _ w := StaysSpent epoch ctr call at_ start w

section Spending
variable {runtime : Runtime K G} {epoch : ℤ} {ctr : ℕ} {call : Call K} {at_ : AwaitPoint} {start w w' : Worker K G}

theorem staysSpent_of (stays : StaysSpent epoch ctr call at_ start w) (same : w'.currentEpoch = w.currentEpoch)
    (grown : w.ctr ≤ w'.ctr) : StaysSpent epoch ctr call at_ start w' := by
  intro quiet spent current
  have below := stays quiet spent (same ▸ current)
  omega

theorem staysSpent_erased {erase : Worker K G → Worker K G} (stays : StaysSpent epoch ctr call at_ start w)
    (same : erase w' = erase w) (current : ∀ v, (erase v).currentEpoch = v.currentEpoch)
    (counter : ∀ v, (erase v).ctr = v.ctr) : StaysSpent epoch ctr call at_ start w' := by
  have kept : w'.currentEpoch = w.currentEpoch := by rw [← current, same, current]
  have counted : w'.ctr = w.ctr := by rw [← counter, same, counter]
  exact staysSpent_of stays kept (Nat.le_of_eq counted.symm)

theorem staysSpent_core (stays : StaysSpent epoch ctr call at_ start w) (same : w'.core = w.core) :
    StaysSpent epoch ctr call at_ start w' :=
  staysSpent_erased stays same (fun _ => rfl) fun _ => rfl

theorem staysSpent_undecoded : Undecoded (StaysSpent epoch ctr call : Reading K G) := fun _ _ _ _ stays same =>
  staysSpent_erased stays same (fun _ => rfl) fun _ => rfl

theorem staysSpent_unconfigured : Unconfigured (StaysSpent epoch ctr call : Reading K G) := fun _ _ _ _ stays same =>
  staysSpent_erased stays same (fun _ => rfl) fun _ => rfl

theorem staysSpent_survives (site : AwaitPoint) : Survives (spending epoch ctr call)
    (StaysSpent epoch ctr call : Reading K G) site :=
  fun _ _ _ stays => ⟨stays, fun _ _ _ spent => spent⟩

/-- The encoder only counts up. -/
theorem encodeFrame_spends (frame : Ref) (frameKind : Option FrameKind)
    (stays : StaysSpent epoch ctr call at_ start w) :
    Yields (spending epoch ctr call) (StaysSpent epoch ctr call) (Media.encodeFrame runtime frame frameKind)
      (fun _ => True) at_ start w := by
  apply yields_read
  split
  · exact stays
  · dsimp only
    split
    · exact stays
    · have counted : StaysSpent epoch ctr call at_ start { w with ctr := w.ctr + 1 } :=
        staysSpent_of stays rfl (Nat.le_succ _)
      refine yields_bind (yields_update counted) fun _ _ _ _ stays _ => ?_
      refine yields_bind (yields_settle stays fun _ written => written) fun _ _ _ w stays _ => ?_
      refine yields_bind (yields_update (w := w) ?_) fun _ _ _ _ stays _ => ?_
      · unfold noteSealing
        split
        · exact stays
        · exact staysSpent_of stays rfl (Nat.le_refl _)
      refine yields_bind (yields_pause (staysSpent_survives _) stays) fun _ _ _ _ stays _ => ?_
      refine yields_bind (yields_settle stays fun _ wired => wired) fun _ _ _ w stays _ => ?_
      refine yields_bind (yields_update (staysSpent_of stays rfl (Nat.le_refl _))) fun _ _ _ w stays _ => ?_
      refine yields_bind (yields_update (staysSpent_core stays (Worker.core_emitMetric w _)))
        fun _ _ _ w stays _ => ?_
      exact yields_update (staysSpent_core stays (Worker.core_clearEncryptStarve w))

/-- Every part of every call leaves a spent counter spent, unless it makes the epoch the
current one. -/
theorem program_spends (active : epoch ≠ -1) (w : Worker K G) :
    Yields (spending epoch ctr call) (StaysSpent epoch ctr call) (call.program runtime) (fun _ => True)
      { point := .start } w w := by
  refine program_yields staysSpent_undecoded staysSpent_survives (fun _ spent => spent) (fun msg own => ?_)
    (fun ref frameKind w stays => encodeFrame_spends ref frameKind stays) ?_
  · subst own
    refine handleMessage_yields staysSpent_undecoded.ring staysSpent_undecoded.walked
      (fun site _ _ => staysSpent_survives site) staysSpent_unconfigured (fun _ spent => spent) ?_ fun _ _ _ current =>
        absurd current.symm active
    intro other selfPeerIndex keys installs installed ok quiet spent current
    obtain ⟨made, -, same⟩ := Worker.core_installEpoch ok
    have now : installed.currentEpoch = _ := congrArg (·.currentEpoch) same
    have counter : installed.ctr = _ := congrArg (·.ctr) same
    by_cases above : other > w.currentEpoch
    · rw [if_pos above] at now
      obtain rfl : epoch = other := current.symm.trans now
      have named := installs.imp (congrArg (Call.message (K := K))) (congrArg (Call.message (K := K)))
      exact absurd ⟨rfl, above, selfPeerIndex, keys, named⟩ quiet
    · rw [if_neg above] at now counter
      rw [counter]
      exact spent (now.symm.trans current)
  · intro _ _ _ _ spent current
    exact spent current

end Spending

/-! ## Runs -/

section Runs
variable {ι : Type} [DecidableEq ι] {runtime : Runtime K G}

/-- A turn takes the next counter. -/
def Takes (before after : WorkerPool ι K G) : Prop := after.shared.ctr = before.shared.ctr + 1

instance (before after : WorkerPool ι K G) : Decidable (Takes before after) :=
  inferInstanceAs (Decidable (_ = _))

/-- The gate of the runs in which no message makes an epoch the current one. -/
def withoutActivating (calls : ι → Call K) (epoch : ℤ) :
    WorkerPool ι K G → ι → WorkerPool ι K G → Prop :=
  fun before call _ => ∀ at_, before.statuses call = .suspended at_ → ¬ Activates (calls call) epoch at_ before.shared

/-- Along such a run a spent counter of the epoch stays spent. -/
theorem runs_spent (w₀ : Worker K G) (calls : ι → Call K) {epoch : ℤ} {ctr : ℕ} (active : epoch ≠ -1)
    {middle last : WorkerPool ι K G} (reached : Runs anyTurn (launch runtime w₀ calls) middle)
    (spent : Spent epoch ctr middle.shared) (later : Runs (withoutActivating calls epoch) middle last) :
    Spent epoch ctr last.shared := by
  have following := runs_follow (fun call => spending epoch ctr (calls call))
    (fun call at_ start _ w => StaysSpent epoch ctr (calls call) at_ start w) (fun _ _ => True) trivial
    (launch_follows fun call w _ => Contract.keeps_mono (program_spends active w) fun _ _ result _ kept => by
      cases result with
      | ok value => exact kept.1
      | error refused => exact kept)
    (fun _ _ _ _ _ _ _ _ => trivial) (fun _ _ _ _ _ _ _ _ _ => trivial) reached
  refine runs_invariant (fun call => spending epoch ctr (calls call))
    (fun call at_ start _ w => StaysSpent epoch ctr (calls call) at_ start w) (fun w _ => Spent epoch ctr w) spent
    following.2 (fun _ _ _ _ _ _ _ _ => trivial) (fun before call at_ after spent waits passes _ moved => ?_) later
  have quiet := passes at_ waits
  generalize after.statuses call = status at moved
  cases status with
  | running => exact moved.elim
  | suspended next => exact moved quiet spent
  | finished result => exact moved quiet spent

end Runs

section Checked
open Specimen (bundles)

/-- A bundle whose salt is a byte too short. -/
def misfitBundles : KeyBundles Bytes :=
  (∅ : KeyBundles Bytes).set 0 { Specimen.bundle 7 with salt := List.replicate 11 1 }

/-- A frame fails in an epoch with a salt that does not fit; the session is torn down, and
the epoch is installed once more with one that does. -/
def mended : Fin 5 → Call Bytes
  | 0 => .message (.epoch 0 0 misfitBundles)
  | 1 => .encodeFrame { data := [1] }
  | 2 => .message .teardown
  | 3 => .message (.epoch 0 0 (bundles [7]))
  | 4 => .encodeFrame { data := [2] }

def hasThrown : Status AwaitPoint (Except JsError Outcome) → Bool
  | .finished (.error _) => true
  | _ => false

/-- A VP8 frame in hand, and a trailer to send behind it. -/
def filming : Worker Bytes Unit :=
  receiveFrame { data := [1, 2, 3, 4, 5], type := some .delta }
    { Specimen.installed 0 0 [7] with codec := some .vp8, sifTrailer := some [8, 9] }

/-- The epoch is announced once more between two frames. -/
def filmed : Fin 3 → Call Bytes
  | 0 => .transform .encode { data := [1, 2, 3, 4, 5], type := some .delta }
  | 1 => .message (.epoch 0 0 (bundles [7]))
  | 2 => .encodeFrame { data := [6, 7, 8, 9] }

def WithinEpoch (before : WorkerPool (Fin 3) Bytes Unit) (_ : Fin 3) (_ : WorkerPool (Fin 3) Bytes Unit) : Prop :=
  before.shared.currentEpoch = 0

instance (before : WorkerPool (Fin 3) Bytes Unit) (call : Fin 3) (after : WorkerPool (Fin 3) Bytes Unit) :
    Decidable (WithinEpoch before call after) := inferInstanceAs (Decidable (_ = _))

end Checked
end SFrameRatchet.FastPath
