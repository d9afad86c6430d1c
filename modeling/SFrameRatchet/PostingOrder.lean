import SFrameRatchet.FrameCryptor
import SFrameRatchet.Specimen

/-! The order in which a cryptor posts. The worker is initialised before anything else is
said to it and is not initialised again before it is torn down; keys are posted to an
initialised worker, as long as no cryptor is detached while it derives them. -/
namespace SFrameRatchet.PostingOrder
open Collections Throwing Coroutine Interleaving Crypto JsObject Kid KeyWrap Media Cryptor

variable {K : Type} (crypto : WebCrypto K) (settings : Settings) (given : EpochParams → Prop)

/-- The keys are those of an epoch that the cryptor has been given, with an index in its map
for the cryptor itself. -/
def Derived (epoch selfPeerIndex : ℤ) (keys : KeyBundles K) : Prop :=
  ∃ params table, given params ∧ params.epoch = epoch ∧ params.peerIndexMap.get settings.peerId = .own selfPeerIndex ∧
    deriveEpochKeyTable crypto params.chainKey epoch params.peerIndexMap settings.suite settings.kidCodec = .ok table ∧
    keys = bundlesOf table

/-- What is said to a worker, and whether it is initialised afterwards. -/
inductive Conversation : Bool → List (Posted K) → Prop where
  | silence : Conversation false []
  | init (said : Conversation false log) (peerIndex : ℤ) :
      Conversation true (log ++ [.message (.init (initMsg settings peerIndex))])
  | streams (said : Conversation true log) (side : Side) : Conversation true (log ++ [.message (.streams side none)])
  | rtctransform (said : Conversation true log) (side : Side) : Conversation true (log ++ [.rtctransform side])
  | epoch (said : Conversation true log) (derived : Derived crypto settings given epoch selfPeerIndex keys) :
      Conversation true (log ++ installing settings.role epoch selfPeerIndex keys)
  | teardown (said : Conversation true log) : Conversation false (log ++ [.message .teardown])

/-- The conversation of a cryptor so far. -/
def Converses (self : FrameCryptor K) : Prop :=
  Conversation crypto settings given self.initialised self.posted

/-- A call that waits for keys finds the worker initialised when it goes on. -/
def speaking : Contract CryptorSite (FrameCryptor K) where
  assume site self := Converses crypto settings given self ∧ (site = .deriving → self.initialised = true)
  moves _ _ _ self := Converses crypto settings given self ∧ self.initialised = true

/-- The worker stays initialised. -/
def Spoken (start self : FrameCryptor K) : Prop :=
  Converses crypto settings given self ∧ (start.initialised = true → self.initialised = true)

/-- What the parts of a call know once the worker is initialised. -/
def Opened (_ : CryptorSite) (_ self : FrameCryptor K) : Prop :=
  Converses crypto settings given self ∧ self.initialised = true

variable {crypto settings given}

/-! ## Calls -/

section Calls
variable {site : CryptorSite} {start self : FrameCryptor K}

theorem opened_post (now : Opened crypto settings given site start self) {said : List (Posted K)}
    {self' : FrameCryptor K}
    (posted : self'.posted = self.posted ++ said) (kept : self'.initialised = self.initialised)
    (goesOn : Conversation crypto settings given true self.posted →
      Conversation crypto settings given true (self.posted ++ said)) :
    Opened crypto settings given site start self' := by
  obtain ⟨converses, opened⟩ := now
  unfold Converses at converses
  rw [opened] at converses
  refine ⟨?_, kept.trans opened⟩
  unfold Converses
  rw [kept, opened, posted]
  exact goesOn converses

theorem spoken_of_opened (now : Opened crypto settings given site start self) :
    Spoken crypto settings given start self :=
  ⟨now.1, fun _ => now.2⟩

theorem ensureInit_opens (now : Spoken crypto settings given start self) :
    Meets (speaking crypto settings given) (ensureInit settings) (fun site start _ self =>
      Opened crypto settings given site start self)
      (fun _ start _ self => Spoken crypto settings given start self) site start self := by
  apply meets_bind.mpr
  apply meets_read.mpr
  split
  · rename_i opened
    exact ⟨now.1, opened⟩
  · rename_i closed
    apply meets_bind.mpr
    apply meets_settle.mpr
    split
    · rw [Bool.not_eq_true] at closed
      have said := now.1
      unfold Converses at said
      rw [closed] at said
      exact ⟨said.init _, rfl⟩
    · exact now

theorem installNative_opens (support : SFrameSupport) (endpoint : Endpoint) (side : Side)
    (now : Opened crypto settings given site start self) :
    Yields (speaking crypto settings given) (Opened crypto settings given) (installNative support endpoint side)
      (fun _ => True)
      site start self := by
  unfold installNative
  split
  · refine yields_bind (yields_update (opened_post now rfl rfl fun said => said.rtctransform side)) fun _ _ _ _ now _ =>
      ?_
    split
    · exact yields_bind (yields_update now) fun _ _ _ _ now _ => ⟨now, trivial⟩
    · exact ⟨now, trivial⟩
  · exact ⟨now, trivial⟩

theorem installTransform_opens (support : SFrameSupport) (endpoint : Endpoint) (side : Side)
    (now : Opened crypto settings given site start self) :
    Yields (speaking crypto settings given) (Opened crypto settings given) (installTransform support endpoint side)
      (fun _ => True)
      site start self := by
  refine yields_bind (installNative_opens support endpoint side now) fun _ _ installed _ now _ => ?_
  split
  · exact ⟨now, trivial⟩
  · split
    · split
      · refine yields_bind (yields_settle now fun _ _ => trivial) fun _ _ _ _ now _ => ?_
        exact yields_update (opened_post now rfl rfl fun said => said.streams side)
      · exact ⟨now, trivial⟩
    · exact ⟨now, trivial⟩

/-- What comes after the worker is initialised. -/
theorem ensured_speaks {rest : CryptorTask K Unit} (now : Spoken crypto settings given start self)
    (next : ∀ site start self, Opened crypto settings given site start self →
      Yields (speaking crypto settings given) (Opened crypto settings given) rest (fun _ => True) site start self) :
    Yields (speaking crypto settings given) (fun _ => Spoken crypto settings given) (do ensureInit settings; rest)
      (fun _ => True)
      site start self := by
  apply meets_bind.mpr
  apply meets_mono (ensureInit_opens now)
  · intro site start _ self now
    apply meets_mono (next site start self now)
    · exact fun _ _ _ _ held => ⟨spoken_of_opened held.1, trivial⟩
    · exact fun _ _ _ _ held => spoken_of_opened held
  · exact fun _ _ _ _ now => now

theorem attach_speaks (side : Side) (support : SFrameSupport) (endpoint : Endpoint)
    (now : Spoken crypto settings given start self) :
    Yields (speaking crypto settings given) (fun _ => Spoken crypto settings given)
      (attach settings side support endpoint)
      (fun _ => True) site start self := by
  unfold attach
  split
  · exact ⟨now, trivial⟩
  · exact ensured_speaks now fun _ _ _ now => installTransform_opens support endpoint side now

theorem setEpoch_speaks {params : EpochParams} (asked : given params) (now : Spoken crypto settings given start self) :
    Yields (speaking crypto settings given) (fun _ => Spoken crypto settings given) (setEpoch crypto settings params)
      (fun _ => True) site start self := by
  refine ensured_speaks now fun site start self now => ?_
  dsimp only
  split
  · exact now
  · rename_i listed
    refine yields_bind (yields_update now) fun _ _ _ self now _ => ?_
    apply meets_bind.mpr
    apply meets_promised.mpr
    refine ⟨now, fun later assumed => ?_⟩
    have now : Opened crypto settings given .deriving later later := ⟨assumed.1, assumed.2 rfl⟩
    split
    · rename_i table derived
      refine yields_bind (yields_settle now fun _ cloned => cloned) fun _ _ selfPeerIndex self now cloned => ?_
      refine yields_update (opened_post now rfl rfl fun said =>
        said.epoch ⟨params, table, asked, rfl, ?_, derived, rfl⟩)
      cases own : params.peerIndexMap.get settings.peerId with
      | own value =>
        rw [own] at cloned
        cases cloned
        rfl
      | inherited =>
        rw [own] at cloned
        cases cloned
      | undefined => exact absurd own listed
    · exact now

theorem converses_detach (converses : Converses crypto settings given self) :
    Converses crypto settings given self.detach := by
  unfold Converses FrameCryptor.detach at *
  dsimp only
  split
  · rename_i opened
    rw [opened] at converses
    exact converses.teardown
  · exact converses

theorem hear_quiet (self : FrameCryptor K) (msg : FromWorker) :
    ((self.hear msg).initialised, (self.hear msg).posted) = (self.initialised, self.posted) := by
  unfold FrameCryptor.hear
  split
  · unfold FrameCryptor.handleWorkerMessage
    split <;> rfl
  · rfl

/-- Any call keeps the conversation in order; all but a detach leave the worker initialised. -/
theorem program_speaks {call : CryptorCall} (asked : ∀ params, call = .setEpoch params → given params)
    (converses : Converses crypto settings given self) :
    Yields (speaking crypto settings given)
      (fun _ start self => Converses crypto settings given self ∧
        (call ≠ .detach → start.initialised = true → self.initialised = true))
      (call.program crypto settings) (fun _ => True) .start self self := by
  have spoken {program : CryptorTask K Unit}
      (yields : Yields (speaking crypto settings given) (fun _ => Spoken crypto settings given) program
        (fun _ => True) .start self self) :
      Yields (speaking crypto settings given)
        (fun _ start self => Converses crypto settings given self ∧
          (call ≠ .detach → start.initialised = true → self.initialised = true))
        program (fun _ => True) .start self self :=
    meets_mono yields (fun _ _ _ _ held => ⟨⟨held.1.1, fun _ => held.1.2⟩, trivial⟩) fun _ _ _ _ held =>
      ⟨held.1, fun _ => held.2⟩
  have now : Spoken crypto settings given self self := ⟨converses, id⟩
  cases call with
  | attachSender support sender => exact spoken (attach_speaks _ _ _ now)
  | attachReceiver support receiver => exact spoken (attach_speaks _ _ _ now)
  | setEpoch params => exact spoken (setEpoch_speaks (asked params rfl) now)
  | detach => exact yields_update ⟨converses_detach converses, fun never => absurd rfl never⟩
  | workerMessage msg =>
    have same := hear_quiet self msg
    simp only [Prod.mk.injEq] at same
    refine spoken (yields_update ⟨?_, fun opened => same.1.trans opened⟩)
    unfold Converses
    rw [same.1, same.2]
    exact converses

end Calls

/-! ## Runs -/

variable {ι : Type} [DecidableEq ι] {calls : ι → CryptorCall}

/-- No call derives keys when the cryptor is detached. -/
def Undisturbed (calls : ι → CryptorCall) (before : CryptorPool ι K) (call : ι) (_ : CryptorPool ι K) : Prop :=
  match calls call with
  | .detach => ∀ other, before.statuses other ≠ .suspended .deriving
  | _ => True

instance [Fintype ι] (calls : ι → CryptorCall) (before : CryptorPool ι K) (call : ι) (after : CryptorPool ι K) :
    Decidable (Undisturbed calls before call after) := by
  unfold Undisturbed
  split <;> infer_instance

/-- The conversation is in order, and the worker is initialised while keys are derived. -/
def InOrder (crypto : WebCrypto K) (settings : Settings) (given : EpochParams → Prop) (self : FrameCryptor K)
    (statuses : ι → Status CryptorSite (Except JsError Unit)) : Prop :=
  Converses crypto settings given self ∧ ∀ call, statuses call = .suspended .deriving → self.initialised = true

/-- One move keeps the conversation in order. -/
theorem inOrder_moved {before : CryptorPool ι K} {call : ι} {site : CryptorSite} {after : CryptorPool ι K}
    (ordered : InOrder crypto settings given before.shared before.statuses)
    (passes : Undisturbed calls before call after)
    (moved : Moved (speaking crypto settings given)
      (fun _ start _ self => Converses crypto settings given self ∧
        (calls call ≠ .detach → start.initialised = true → self.initialised = true))
      site before.shared (after.statuses call) after.shared) :
    InOrder crypto settings given after.shared (Function.update before.statuses call (after.statuses call)) := by
  obtain ⟨-, waiting⟩ := ordered
  generalize after.statuses call = reached at moved
  cases reached with
  | running => exact moved.elim
  | suspended next =>
    obtain ⟨converses, opened⟩ := moved
    exact ⟨converses, fun _ _ => opened⟩
  | finished result =>
    obtain ⟨converses, kept⟩ := moved
    refine ⟨converses, fun other derives => ?_⟩
    by_cases same : other = call
    · subst same
      simp at derives
    · rw [Function.update_of_ne same] at derives
      refine kept (fun detaches => ?_) (waiting other derives)
      rw [Undisturbed, detaches] at passes
      exact passes other derives

/-- What the calls of a run ask for. -/
def Asked (calls : ι → CryptorCall) (params : EpochParams) : Prop := ∃ call, calls call = .setEpoch params

/-- Every run keeps the conversation in order. -/
theorem runs_converse {crypto : WebCrypto K} {settings : Settings} {created : FrameCryptor K} {calls : ι → CryptorCall}
    {last : CryptorPool ι K} (fresh : created.initialised = false ∧ created.posted = [])
    (run : Runs (Undisturbed calls) (launch crypto settings created calls) last) :
    Converses crypto settings (Asked calls) last.shared := by
  have begins : Converses crypto settings (Asked calls) created := by
    unfold Converses
    rw [fresh.1, fresh.2]
    exact .silence
  refine (runs_invariant (fun _ => speaking crypto settings (Asked calls)) (fun call _ start _ self =>
    Converses crypto settings (Asked calls) self ∧
      (calls call ≠ .detach → start.initialised = true → self.initialised = true))
    (InOrder crypto settings (Asked calls)) ⟨begins, ?_⟩ (launch_follows fun call self assumed => ?_) ?_ ?_ run).1
  · intro call never
    cases never
  · apply Contract.keeps_mono (program_speaks (fun _ asks => ⟨call, asks⟩) assumed.1)
    intro site start result self held
    cases result with
    | ok value => exact held.1
    | error refused => exact held
  · intro before call site after ordered waits _ _
    refine ⟨ordered.1, fun derives => ordered.2 call ?_⟩
    rw [waits, derives]
  · intro before call site after ordered waits passes _ moved
    exact inOrder_moved ordered passes moved

/-- **The order of posts.** In any interleaving of calls in which no detach comes while keys
are derived, a cryptor initialises its worker before it says anything else, once until it
tears it down, and posts only the keys of epochs that it was asked to set. -/
theorem posts_conversation {crypto : WebCrypto K} {settings : Settings} {created : FrameCryptor K}
    {calls : ι → CryptorCall}
    {last : CryptorPool ι K} (fresh : created.initialised = false ∧ created.posted = [])
    (run : Runs (Undisturbed calls) (launch crypto settings created calls) last) :
    Conversation crypto settings (Asked calls) last.shared.initialised last.shared.posted :=
  runs_converse fresh run

section Checked

/-- A sender in a room of its own. -/
def loneSender : Settings where
  role := .sender
  peerId := utf16 ['a']
  suite := defaultCipherSuite
  preEpochQueueCap := none
  kidFormat := none
  mlsConfig := none
  kidCodec := .fixed
  transitOnly := false

/-- An epoch is set while a sender is attached natively; then the cryptor is detached. -/
def oneEpoch : Fin 3 → CryptorCall
  | 0 => .setEpoch { epoch := 0, peerIndexMap := PlainObject.define ∅ (utf16 ['a']) 0, chainKey := List.replicate 32 7 }
  | 1 => .attachSender ⟨true, false⟩ ⟨0, true, true, none⟩
  | 2 => .detach

theorem posts_one_epoch : ∃ last : CryptorPool (Fin 3) Bytes, last.shared.posted.length = 5 ∧
    Conversation Specimen.crypto loneSender (Asked oneEpoch) last.shared.initialised last.shared.posted := by
  have result : ((launch Specimen.crypto loneSender { currentPeerIndex := .own 0 } oneEpoch).followPassing
      (Undisturbed oneEpoch) [0, 1, 0, 2]).map (fun pool => pool.shared.posted.length) = some 5 := by
    decide +kernel
  obtain ⟨last, followed, length⟩ := Option.map_eq_some_iff.mp result
  exact ⟨last, length, posts_conversation ⟨rfl, rfl⟩ (followPassing_runs followed)⟩

end Checked
end SFrameRatchet.PostingOrder
