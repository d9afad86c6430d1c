import SFrameRatchet.Briefing
import SFrameRatchet.Signalling

/-! A room on the air. Its clients mint and consume epochs and hand them to their cryptors, whose
calls interleave; the cryptors post to their workers, and the workers send each other frames. -/
namespace SFrameRatchet.Deployment
open Collections Interleaving Throwing Crypto JsObject Kid KeyWrap PeerIds Room Media Cryptor PostingOrder Party
    Conference Briefing
open Signalling (Roster Assembly gather)

variable {K G ι κ : Type} [DecidableEq ι] [DecidableEq κ] {platform : Platform K} {roster : Roster platform ι}
  {a : Assembly ι K} {initialPeers : ι → List PeerIdentity} {settings : ι → Settings}

/-- The clients' cryptors are set up for their room. -/
structure Deployed (roster : Roster platform ι) (settings : ι → Settings) : Prop where
  named : ∀ i, (settings i).peerId = (roster.identity i).peerId
  suite : ∀ i, (settings i).suite = roster.suite
  kidCodec : ∀ i, (settings i).kidCodec = roster.kidCodec
  laidOut : ∀ i, makeKidCodec ((settings i).kidFormat.getD .fixed) (settings i).mlsConfig = .ok (settings i).kidCodec

/-- The epochs that any client has handed to its cryptor. -/
def Handed (a : Assembly ι K) (params : EpochParams) : Prop := ∃ i, params ∈ a.handed i

/-- More may be given than is asked for. -/
theorem conversation_mono {crypto : WebCrypto K} {settings : Settings} {given given' : EpochParams → Prop}
    {opened : Bool}
    {log : List (Posted K)} (more : ∀ params, given params → given' params)
    (conversation : Conversation crypto settings given opened log) :
    Conversation crypto settings given' opened log := by
  induction conversation with
  | silence => exact .silence
  | init _ peerIndex ih => exact ih.init peerIndex
  | streams _ side ih => exact ih.streams side
  | rtctransform _ side ih => exact ih.rtctransform side
  | epoch _ derived ih =>
    obtain ⟨params, table, asked, rest⟩ := derived
    exact ih.epoch ⟨params, table, more params asked, rest⟩
  | teardown _ ih => exact ih.teardown

/-- A party of the room: its cryptor has made some calls, and set the epochs that its client has
handed to it, each later than those before. -/
structure Serving (crypto : WebCrypto K) (settings : Settings) (handed : List EpochParams) (calls : κ → CryptorCall)
    (cryptor : CryptorPool κ K) : Prop where
  ran : ∃ created : FrameCryptor K, (created.initialised = false ∧ created.posted = []) ∧
    Runs (Undisturbed calls) (launch crypto settings created calls) cryptor
  handed : ∀ params, Asked calls params → params ∈ handed
  rising : (epochsOf cryptor.shared.posted).Pairwise (· < ·)

/-- What the clients of a room hand to their cryptors is one agreement for each epoch. -/
theorem alike_deployed {crypto : WebCrypto K} (correct : platform.Correct)
    (known : ∀ i, ∀ peer ∈ initialPeers i, roster.Known peer)
    (reached : Signalling.Reachable roster (gather initialPeers) a)
    (deployed : Deployed roster settings) {calls : ι → κ → CryptorCall} {cryptors : ι → CryptorPool κ K}
    (serving : ∀ i, Serving crypto (settings i) (a.handed i) (calls i) (cryptors i)) :
    Alike crypto settings (Handed a) fun i => (cryptors i).shared.posted := by
  obtain ⟨ledger, kept⟩ := Signalling.kept_reachable correct known reached
  constructor
  · exact deployed.laidOut
  · exact fun i j => ⟨(deployed.suite i).trans (deployed.suite j).symm,
      (deployed.kidCodec i).trans (deployed.kidCodec j).symm⟩
  · rintro params params' ⟨i, mine⟩ ⟨j, theirs⟩ epoch
    have recorded := kept.handed i params mine
    rw [epoch] at recorded
    have same := Option.some.inj (recorded.symm.trans (kept.handed j params' theirs))
    simp only [Signalling.Record.mk.injEq] at same
    obtain ⟨epoch', map', chainKey'⟩ := params
    obtain ⟨epoch'', map'', chainKey''⟩ := params'
    obtain ⟨rfl, rfl⟩ := same
    obtain rfl : epoch' = epoch'' := epoch
    rfl
  · rintro params ⟨k, handed⟩ i j peerIndex one two
    obtain ⟨peerIds, built⟩ := kept.sound.built _ _ (kept.handed k params handed)
    have built : params.peerIndexMap = buildPeerIndexMap peerIds := built
    rw [deployed.named, built] at one two
    exact roster.distinct i j (buildPeerIndexMap_apart one two)
  · intro i
    obtain ⟨created, fresh, run⟩ := (serving i).ran
    exact ⟨_, conversation_mono (fun params asked => ⟨i, (serving i).handed params asked⟩) (runs_converse fresh run)⟩
  · exact fun i => (serving i).rising

/-- **From membership to media.** In a room whose clients have made any calls in any order, over
signalling that loses, repeats and reorders, whose cryptors have interleaved their own calls, and
whose workers have heard, sent, lost and decoded what they may: a frame that comes to a client
of the room is opened to the bytes that its sender gave exactly when its epoch is live there,
and is otherwise left as it came. -/
theorem room_frames_delivered {runtime : Runtime K G} (correct : platform.Correct)
    (same : runtime.crypto = platform.crypto)
    (known : ∀ i, ∀ peer ∈ initialPeers i, roster.Known peer)
    (reached : Signalling.Reachable roster (gather initialPeers) a)
    (deployed : Deployed roster settings) {calls : ι → κ → CryptorCall} {cryptors : ι → CryptorPool κ K}
    (serving : ∀ i, Serving runtime.crypto (settings i) (a.handed i) (calls i) (cryptors i)) {c : Meeting ι K G}
    (conference : Conference.Reachable runtime (convene fun i => (cryptors i).shared.posted) c) {i k : ι}
    {flight : Flight}
    {rest : List Flight} (next : c.wires i k = flight :: rest) :
    ∃ outcome w, alone (receiving runtime flight.frame) (c.members k).worker = some (outcome, w) ∧
      (Live (c.members k).worker flight → outcome = .ok (.opened ⟨0, .header⟩ flight.plain) ∧
        w.frames.read (c.members k).worker.frames.next = { flight.frame with data := flight.plain }) ∧
      (¬ Live (c.members k).worker flight → (outcome = .ok .parked ∨ ∃ refused, outcome = .error refused) ∧
        w.frames.read (c.members k).worker.frames.next = flight.frame) ∧
      (flight.slot.epoch = (c.members k).worker.currentEpoch → Live (c.members k).worker flight) := by
  have sound : runtime.crypto.Correct := same ▸ correct.aead
  exact opens_reachable (agreed_alike sound (alike_deployed correct known reached deployed serving) i) conference next

section Checked
open Signalling (duo duoParams duo_room nobody)

/-- Each cryptor is asked to set the epoch of the room. -/
def duoCalls (_ : Fin 2) (_ : Unit) : CryptorCall := .setEpoch duoParams

def duoLaunch (i : Fin 2) : CryptorPool Unit Bytes := launch Specimen.crypto (roomOf i)
    { currentPeerIndex := .own 0 } (duoCalls i)

def duoCryptor (i : Fin 2) : CryptorPool Unit Bytes :=
  ((duoLaunch i).followPassing (Undisturbed (duoCalls i)) [(), ()]).getD (duoLaunch i)

theorem duo_serving {handed : List EpochParams} (given : duoParams ∈ handed) (i : Fin 2) :
    Serving Specimen.crypto (roomOf i) handed (duoCalls i) (duoCryptor i) where
  ran := by
    have follows : ((duoLaunch i).followPassing (Undisturbed (duoCalls i)) [(), ()]).isSome = true := by
      revert i
      decide +kernel
    obtain ⟨pool, followed⟩ := Option.isSome_iff_exists.mp follows
    have same : duoCryptor i = pool := by simp [duoCryptor, followed]
    exact ⟨_, ⟨rfl, rfl⟩, same ▸ followPassing_runs followed⟩
  handed := by
    rintro _ ⟨_, asked⟩
    cases asked
    exact given
  rising := by
    have once : ∀ i, epochsOf (duoCryptor i).shared.posted = [0] := by decide +kernel
    rw [once]
    exact List.pairwise_singleton _ _

theorem duo_deployed : Deployed duo roomOf where
  named := by decide
  suite := by decide
  kidCodec i := (room_set i).2.1
  laidOut := room_alike.laidOut

theorem room_frames_delivered_second : ∃ c : Meeting (Fin 2) Bytes Unit,
    Conference.Reachable Specimen.runtime (convene fun i => (duoCryptor i).shared.posted) c ∧
      ∃ flight w, c.wires 0 1 = [flight] ∧
      alone (receiving Specimen.runtime flight.frame) (c.members 1).worker = some
        (.ok (.opened ⟨0, .header⟩ [3]), w) := by
  have result : (([.hears 0, .hears 0, .hears 0, .hears 1, .hears 1, .sends 0 ⟨[1, 2], none⟩,
    .sends 0 ⟨[3], none⟩, .loses 0 1] :
      List (Turn (Fin 2))).foldlM (Meeting.perform Specimen.runtime) (convene fun i =>
        (duoCryptor i).shared.posted)).map (fun c =>
        ((c.wires 0 1).map fun flight => (flight.plain, flight.slot.epoch), (c.members 1).worker.currentEpoch)) =
      some ([([3], 0)], 0) := by
    decide +kernel
  obtain ⟨c, played, facts⟩ := Option.map_eq_some_iff.mp result
  obtain ⟨wire, current⟩ := Prod.mk.inj facts
  obtain ⟨flight, on, parts⟩ := List.map_eq_singleton_iff.mp wire
  obtain ⟨plain, epoch⟩ := Prod.mk.inj parts
  have conference := reachable_play .start played
  obtain ⟨a, reached, held, -⟩ := duo_room
  have one : Signalling.Step duo a (a.hand 0 duoParams) := .hands (held 0).1 (held 0).2
  have two : Signalling.Step duo (a.hand 0 duoParams) ((a.hand 0 duoParams).hand 1 duoParams) :=
    .hands (held 1).1 (held 1).2
  have given : ∀ i, duoParams ∈ ((a.hand 0 duoParams).hand 1 duoParams).handed i :=
    Fin.forall_fin_two.mpr (by simp [Assembly.hand])
  obtain ⟨outcome, w, decodes, opens, -, live⟩ :=
    room_frames_delivered RoomSpecimen.platform_correct rfl (fun _ => nobody)
    ((reached.step one).step two) duo_deployed (fun i => duo_serving (given i) i) conference on
  obtain ⟨rfl, -⟩ := opens (live (epoch.trans current.symm))
  rw [plain] at decodes
  exact ⟨c, conference, flight, w, on, decodes⟩

end Checked
end SFrameRatchet.Deployment
