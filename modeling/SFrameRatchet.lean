import SFrameRatchet.AlikeWorkers
import SFrameRatchet.Announcing
import SFrameRatchet.AuthenticFrames
import SFrameRatchet.AuthoredMaps
import SFrameRatchet.BigEndian
import SFrameRatchet.Bookkeeping
import SFrameRatchet.Briefing
import SFrameRatchet.Bytes
import SFrameRatchet.ChatBinding
import SFrameRatchet.ChatClearing
import SFrameRatchet.ChatCorrespondence
import SFrameRatchet.ChatDelivery
import SFrameRatchet.ChatIsolation
import SFrameRatchet.ChatLedger
import SFrameRatchet.ChatProvider
import SFrameRatchet.ChatRotation
import SFrameRatchet.ChatShared
import SFrameRatchet.ChatSpecimen
import SFrameRatchet.ChatWindows
import SFrameRatchet.Coalescing
import SFrameRatchet.CodecPartial
import SFrameRatchet.Collections
import SFrameRatchet.Conference
import SFrameRatchet.Coroutine
import SFrameRatchet.Crypto
import SFrameRatchet.CtrAllocator
import SFrameRatchet.DecodeWalk
import SFrameRatchet.Deployment
import SFrameRatchet.DerivedKeyCache
import SFrameRatchet.Doubles
import SFrameRatchet.DrainAgreement
import SFrameRatchet.DurableBound
import SFrameRatchet.DurableCache
import SFrameRatchet.DurableClear
import SFrameRatchet.DurableMerge
import SFrameRatchet.DurableReplay
import SFrameRatchet.DurableSteps
import SFrameRatchet.DurableWindow
import SFrameRatchet.EpochAgreement
import SFrameRatchet.EpochTable
import SFrameRatchet.EpochVersions
import SFrameRatchet.Errors
import SFrameRatchet.FailureAccounts
import SFrameRatchet.FastPath
import SFrameRatchet.ForgedFrame
import SFrameRatchet.Forgetting
import SFrameRatchet.FormatTolerance
import SFrameRatchet.FrameCryptor
import SFrameRatchet.FrameIntegrity
import SFrameRatchet.FrameOwnership
import SFrameRatchet.FrameWalk
import SFrameRatchet.GateCost
import SFrameRatchet.GraceWipe
import SFrameRatchet.Header
import SFrameRatchet.HeaderGrammar
import SFrameRatchet.Histories
import SFrameRatchet.Interleaving
import SFrameRatchet.JsNumber
import SFrameRatchet.JsObject
import SFrameRatchet.KeyWrap
import SFrameRatchet.KidAliasing
import SFrameRatchet.KidFormat
import SFrameRatchet.MediaDelivery
import SFrameRatchet.MlsChat
import SFrameRatchet.MlsEpochOrder
import SFrameRatchet.MlsKids
import SFrameRatchet.MlsNonces
import SFrameRatchet.MlsRatchet
import SFrameRatchet.MlsReplay
import SFrameRatchet.MlsSenders
import SFrameRatchet.MlsSpecimen
import SFrameRatchet.NonceReuse
import SFrameRatchet.Notes
import SFrameRatchet.Party
import SFrameRatchet.PartyFrames
import SFrameRatchet.PartyQueue
import SFrameRatchet.PartyTurns
import SFrameRatchet.PeerIds
import SFrameRatchet.PipeForwarding
import SFrameRatchet.PostingOrder
import SFrameRatchet.QueueConservation
import SFrameRatchet.QueueDiscipline
import SFrameRatchet.QueueLedger
import SFrameRatchet.QueueSteps
import SFrameRatchet.RatchetCursor
import SFrameRatchet.RatchetDedup
import SFrameRatchet.RatchetInvariants
import SFrameRatchet.Readings
import SFrameRatchet.Recency
import SFrameRatchet.Reinstall
import SFrameRatchet.RejectedCalls
import SFrameRatchet.RelyGuarantee
import SFrameRatchet.Replay
import SFrameRatchet.RoomRatchet
import SFrameRatchet.RoomSpecimen
import SFrameRatchet.SFrame
import SFrameRatchet.Sas
import SFrameRatchet.SasCurrency
import SFrameRatchet.SasEncodings
import SFrameRatchet.SenderIsolation
import SFrameRatchet.SenderTables
import SFrameRatchet.SessionReset
import SFrameRatchet.ShortFrames
import SFrameRatchet.SideBySide
import SFrameRatchet.Signalling
import SFrameRatchet.SoloDecoding
import SFrameRatchet.SoloOpening
import SFrameRatchet.Specimen
import SFrameRatchet.StaleFormat
import SFrameRatchet.StaleGate
import SFrameRatchet.Starvation
import SFrameRatchet.StreamRoundTrip
import SFrameRatchet.StrictFips
import SFrameRatchet.TailDrop
import SFrameRatchet.Tally
import SFrameRatchet.Throwing
import SFrameRatchet.Tracing
import SFrameRatchet.TrackCodecs
import SFrameRatchet.Unsealing
import SFrameRatchet.WindowExact
import SFrameRatchet.WorkerChanges
import SFrameRatchet.WorkerFrame
import SFrameRatchet.WorkerRuns
import SFrameRatchet.WorkerState
import SFrameRatchet.WorkerTypes
