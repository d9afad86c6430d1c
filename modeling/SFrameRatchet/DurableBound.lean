import SFrameRatchet.Histories
import SFrameRatchet.JsNumber
import SFrameRatchet.WorkerRuns

/-! The bound on the durable window, for every number a message may carry. The
guard's window is compared with the size of the in-memory windows when it is made;
neither the guard's own default nor a later change of that size is. -/
namespace SFrameRatchet.Media.DurableBound
open Collections Kid Throwing

/-- `DEFAULT_WINDOW` of `chat/durable-replay.ts`. -/
def defaultWindow : JsNumber := .finite 1024

/-- The effective window of a guard. -/
def resolveWindow : Option JsNumber → JsNumber
  | none => defaultWindow
  | some window => if window.lt (.finite 0) then defaultWindow else window.trunc

/-- The part of an init message that the durable guard depends on. -/
structure InitMsg where
  kidFormat : Option KidFormat := none
  mlsConfig : Option MlsKidConfig := none
  durableReplay : Bool := false
  durableReplayNamespace : Option String := none
  durableReplayWindow : Option JsNumber := none

inductive Msg where
  | init (msg : InitMsg)
  | setReplayWindow (size : JsNumber)
  | teardown

/-- The size of new replay windows, and the effective window of the durable guard. -/
structure Windows where
  replayWindowSize : JsNumber := .finite 64
  durableReplay : Option JsNumber := none
  deriving DecidableEq

/-- The codec that an init message asks for, which may be refused. -/
def initKidCodec (msg : InitMsg) : Except JsError Unit :=
  match msg.kidFormat with
  | none => .ok ()
  | some format => (makeKidCodec format msg.mlsConfig).map fun _ => ()

def initDurable (state : Windows) (msg : InitMsg) : Except JsError Windows :=
  if msg.durableReplay then
    if msg.durableReplayNamespace.getD "" = "" then
      .error (.error "worker init: durableReplayNamespace is required when durableReplay is true")
    else
      let durableWindow := msg.durableReplayWindow.getD state.replayWindowSize
      if state.replayWindowSize.lt durableWindow then
        .error (.error (s!"worker init: durableReplayWindow ({durableWindow.text}) must be <= " ++
          s!"replayWindowSize ({state.replayWindowSize.text})"))
      else .ok { state with durableReplay := some (resolveWindow (some durableWindow)) }
  else .ok { state with durableReplay := none }

/-- `init`: what it throws leaves the windows alone. -/
def handleInit (state : Windows) (msg : InitMsg) : Except JsError Windows := do
  initKidCodec msg
  initDurable state msg

def handleMessage (state : Windows) : Msg → Windows
  | .init msg =>
    match handleInit state msg with
    | .ok later => later
    | .error _ => state
  | .setReplayWindow size => { state with replayWindowSize := .max (.finite 0) size.floor }
  | .teardown => { state with durableReplay := none }

def handleAll (msgs : List Msg) : Windows := msgs.foldl handleMessage {}

/-- A guard that is present has an effective window within the bound. -/
def Bounded (state : Windows) : Prop := ∀ window ∈ state.durableReplay, window.le state.replayWindowSize = true

instance (state : Windows) : Decidable (Bounded state) := by
  unfold Bounded
  infer_instance

/-- Where a message leaves the bound alone. A guard is made from numbers only, and
from a negative one only when the default is within the bound; the windows are not
made smaller than that of the guard. -/
def Safe (state : Windows) : Msg → Prop
  | .init msg =>
    let durableWindow := msg.durableReplayWindow.getD state.replayWindowSize
    initKidCodec msg = .ok () → msg.durableReplay = true → msg.durableReplayNamespace.getD "" ≠ "" →
      state.replayWindowSize.lt durableWindow = false →
      durableWindow ≠ .nan ∧ state.replayWindowSize ≠ .nan ∧
        (durableWindow.lt (.finite 0) = true → defaultWindow.le state.replayWindowSize = true)
  | .setReplayWindow size => ∀ window ∈ state.durableReplay, window.le (.max (.finite 0) size.floor) = true
  | .teardown => True

/-- A resolved window is within a bound that the number it was made from is not above,
when both are numbers and the default does not stand in for it. -/
theorem resolveWindow_le {window size : JsNumber} (within : size.lt window = false) :
    (resolveWindow (some window)).le size = true ↔ window ≠ .nan ∧ size ≠ .nan ∧
      (window.lt (.finite 0) = true → defaultWindow.le size = true) := by
  cases size with
  | nan =>
    have never (value : JsNumber) : value.le .nan = false := by cases value <;> rfl
    simp [never]
  | number bound =>
    cases window with
    | nan =>
      have undefined : resolveWindow (some .nan) = .nan := rfl
      simp [undefined, JsNumber.le]
    | number value =>
      simp only [resolveWindow]
      split
      · rename_i negative
        simp [negative]
      · rename_i natural
        obtain ⟨whole, truncated, below⟩ := JsNumber.trunc_le (Bool.eq_false_iff.mpr natural)
        rw [truncated]
        have inside : (JsNumber.number whole).le (.number bound) = true :=
          decide_eq_true (below.trans (JsNumber.le_of_not_lt within))
        simp [inside, natural]

/-- How an init message ends, when it does not throw. -/
theorem handleInit_ok {state later : Windows} {msg : InitMsg} : handleInit state msg = .ok later ↔
    initKidCodec msg = .ok () ∧
      if msg.durableReplay then
        msg.durableReplayNamespace.getD "" ≠ "" ∧
          state.replayWindowSize.lt (msg.durableReplayWindow.getD state.replayWindowSize) = false ∧
          later = { state with
            durableReplay := some (resolveWindow (some (msg.durableReplayWindow.getD state.replayWindowSize))) }
      else later = { state with durableReplay := none } := by
  unfold handleInit
  cases initKidCodec msg with
  | error refused => simp [bind, Except.bind]
  | ok =>
    simp only [bind, Except.bind, true_and, initDurable]
    split
    · by_cases unnamed : msg.durableReplayNamespace.getD "" = ""
      · simp [unnamed]
      · cases above : state.replayWindowSize.lt (msg.durableReplayWindow.getD state.replayWindowSize) <;>
          simp [unnamed, eq_comm]
    · simp [eq_comm]

/-- A message keeps the bound exactly when it is safe. -/
theorem bounded_step (state : Windows) (msg : Msg) (now : Bounded state) :
    Bounded (handleMessage state msg) ↔ Safe state msg := by
  cases msg with
  | teardown => simp [Bounded, handleMessage, Safe]
  | setReplayWindow size => rfl
  | init msg =>
    simp only [handleMessage, Safe]
    cases handled : handleInit state msg with
    | error refused =>
      refine ⟨fun _ codec durable named within => ?_, fun _ => now⟩
      have made : handleInit state msg = .ok { state with
          durableReplay := some (resolveWindow (some (msg.durableReplayWindow.getD state.replayWindowSize))) } :=
        handleInit_ok.mpr ⟨codec, by rw [if_pos durable]; exact ⟨named, within, rfl⟩⟩
      rw [handled] at made
      cases made
    | ok later =>
      obtain ⟨codec, done⟩ := handleInit_ok.mp handled
      split at done
      · rename_i durable
        obtain ⟨named, within, rfl⟩ := done
        simp only [Bounded, Option.mem_def, Option.some.injEq, forall_eq']
        rw [resolveWindow_le within]
        exact ⟨fun small _ _ _ _ => small, fun small => small codec durable named within⟩
      · rename_i plain
        subst done
        simp [Bounded, plain]

/-! ## The worker's own windows -/

section Worker
variable {K G : Type} {runtime : Runtime K G} {window : G → JsNumber}

/-- The windows of a worker, whose sizes are whole numbers. -/
def windowsOf (window : G → JsNumber) (w : Worker K G) : Windows where
  replayWindowSize := .finite w.replayWindowSize
  durableReplay := w.durableReplay.map window

def windowsInit (msg : Media.InitMsg) : InitMsg :=
  { kidFormat := msg.kidFormat
    mlsConfig := msg.mlsConfig
    durableReplay := msg.durableReplay
    durableReplayNamespace := msg.durableReplayNamespace
    durableReplayWindow := msg.durableReplayWindow.map JsNumber.finite }

/-- A message of the worker, as far as the windows depend on it. -/
def windowsMsg : Media.InMsg K → Option Msg
  | .init msg => some (.init (windowsInit msg))
  | .setReplayWindow size => some (.setReplayWindow (.finite size))
  | .teardown => some .teardown
  | _ => none

theorem alone_initKidCodec (window : G → JsNumber) (w : Worker K G) (msg : Media.InitMsg) : ∃ last,
    alone (Media.initKidCodec msg) w = some (initKidCodec (windowsInit msg), last) ∧
      windowsOf window last = windowsOf window w := by
  unfold Media.initKidCodec initKidCodec windowsInit
  cases msg.kidFormat with
  | none => exact ⟨w, rfl, rfl⟩
  | some format =>
    cases made : makeKidCodec format msg.mlsConfig with
    | error refused => exact ⟨w, by simp [made, Except.map], rfl⟩
    | ok codec => exact ⟨{ w with kidCodec := codec }, by simp [made, Except.map], rfl⟩

theorem alone_initQueueCap (window : G → JsNumber) (w : Worker K G) (msg : Media.InitMsg) : ∃ last,
    alone (initQueueCap msg) w = some (.ok (), last) ∧ windowsOf window last = windowsOf window w := by
  unfold initQueueCap
  cases msg.preEpochQueueCap with
  | none => exact ⟨w, rfl, rfl⟩
  | some cap =>
    dsimp only
    split
    · exact ⟨_, rfl, rfl⟩
    · exact ⟨w, rfl, rfl⟩

theorem alone_initDurable
    (made : ∀ ns size, window (runtime.guard.create ns size) = resolveWindow (some (.finite size)))
    (w : Worker K G) (msg : Media.InitMsg) : ∃ outcome last,
    alone (Media.initDurable runtime msg) w = some (outcome, last) ∧
      match initDurable (windowsOf window w) (windowsInit msg) with
      | .ok later => outcome = .ok () ∧ windowsOf window last = later
      | .error _ => (∃ error, outcome = .error error) ∧ windowsOf window last = windowsOf window w := by
  have number : (msg.durableReplayWindow.map JsNumber.finite).getD (.finite w.replayWindowSize) =
      .finite (msg.durableReplayWindow.getD w.replayWindowSize) := by
    cases msg.durableReplayWindow <;> rfl
  unfold Media.initDurable initDurable windowsInit windowsOf
  dsimp only
  split
  · rename_i durable
    by_cases unnamed : msg.durableReplayNamespace.getD "" = ""
    · simp [unnamed]
    · by_cases above : msg.durableReplayWindow.getD w.replayWindowSize > w.replayWindowSize
      · simp [unnamed, number, above]
      · simp [unnamed, number, above, made]
  · exact ⟨_, _, rfl, rfl, rfl⟩

/-- On finite numbers the worker handles these messages so. -/
theorem alone_handleMessage
    (made : ∀ ns size, window (runtime.guard.create ns size) = resolveWindow (some (.finite size)))
    (w : Worker K G) {msg : Media.InMsg K} {own : Msg} (read : windowsMsg msg = some own) :
    ∃ outcome last, alone (Media.handleMessage runtime msg) w = some (outcome, last) ∧
      windowsOf window last = handleMessage (windowsOf window w) own := by
  cases msg with
  | epoch | rotate | streams | setSifTrailer | setRatchetWindow | setMetricsEnabled | setFailureTolerance => cases read
  | teardown =>
    cases read
    exact ⟨_, _, rfl, rfl⟩
  | setReplayWindow size =>
    cases read
    refine ⟨_, _, rfl, ?_⟩
    simp only [windowsOf, handleMessage, JsNumber.floor_finite, JsNumber.max_finite, Windows.mk.injEq, and_true]
    congr 1
    rw [← Int.cast_natCast, Int.toNat_eq_max, max_comm]
    push_cast
    rfl
  | init msg =>
    cases read
    generalize begun : ({ w with
      role := some msg.role, peerId := some msg.peerId, selfPeerIndex := some msg.peerIndex
      suite := msg.suite.getD w.suite } : Worker K G) = first
    have unchanged : windowsOf window first = windowsOf window w := by rw [← begun]; rfl
    obtain ⟨second, codec, sameCodec⟩ := alone_initKidCodec window first msg
    obtain ⟨third, cap, sameCap⟩ := alone_initQueueCap window second msg
    obtain ⟨outcome, last, durable, ends⟩ := alone_initDurable made third msg
    rw [sameCap, sameCodec, unchanged] at ends
    simp only [Media.handleMessage, Media.handleInit, alone_bind, alone_update, Option.bind_some, begun, codec]
    cases refused : initKidCodec (windowsInit msg) with
    | error error =>
      have own : handleInit (windowsOf window w) (windowsInit msg) = .error error := by
        simp [handleInit, refused, bind, Except.bind]
      exact ⟨_, _, rfl, by simp only [handleMessage, own]; exact sameCodec.trans unchanged⟩
    | ok =>
      have own : handleInit (windowsOf window w) (windowsInit msg) = initDurable (windowsOf window w)
        (windowsInit msg) := by
        simp [handleInit, refused, bind, Except.bind]
      simp only [cap, Option.bind_some, durable, handleMessage, own]
      cases made : initDurable (windowsOf window w) (windowsInit msg) with
      | error error =>
        rw [made] at ends
        obtain ⟨⟨thrown, rfl⟩, same⟩ := ends
        exact ⟨_, _, rfl, same⟩
      | ok later =>
        rw [made] at ends
        obtain ⟨rfl, same⟩ := ends
        exact ⟨_, _, rfl, same⟩

end Worker

/-- **The durable window.** Through any sequence of messages, with whatever numbers,
the guard's window is within the size of the in-memory windows exactly when every
message is safe where it is handled. -/
theorem bounded_iff_safe (msgs : List Msg) : (∀ earlier, earlier <+: msgs → Bounded (handleAll earlier)) ↔
    ∀ earlier msg, earlier ++ [msg] <+: msgs → Safe (handleAll earlier) msg :=
  Histories.holds_iff_safe nofun bounded_step msgs

/-- A guard of the default size is left with a window that is made smaller behind it. -/
theorem shrunk_behind_guard : ¬ ∀ earlier : List Msg, earlier <+:
      [.init { durableReplay := true, durableReplayNamespace := some "room" }, .setReplayWindow (.finite 8)] →
    Bounded (handleAll earlier) := by
  intro always
  have last := always _ List.prefix_rfl
  revert last
  decide +kernel

end SFrameRatchet.Media.DurableBound
