import LdpProtocol.InteractivePrograms
import LdpProtocol.InterferedRuns
import LdpProtocol.DelegateIdentity
import LdpProtocol.DelimitedFields
import LdpProtocol.EnvelopeSigning
import LdpProtocol.SigningInput
import LdpProtocol.WireFormat
import LdpProtocol.ServerHandlers
import LdpProtocol.ServerGate
import LdpProtocol.ServerRuns
import LdpProtocol.TamperEvidence
import LdpProtocol.PythonMessages
import LdpProtocol.PythonSigning
import LdpProtocol.PythonWire
import LdpProtocol.SigningAgreement
import LdpProtocol.PythonSigningInput
import LdpProtocol.PythonIdentity
import LdpProtocol.PythonDelegate
import LdpProtocol.DelegateGate
import LdpProtocol.DelegateRuns
import LdpProtocol.SessionGating
import LdpProtocol.SessionManager
import LdpProtocol.LdpAdapter
import LdpProtocol.ClientSigning
import LdpProtocol.LinkedParties
import LdpProtocol.LinkedSessionManager
import LdpProtocol.LinkedServer
import LdpProtocol.Handshake
import LdpProtocol.CrossWire
import LdpProtocol.PythonClient
import LdpProtocol.LinkedDelegate
import LdpProtocol.LinkedPythonClient
import LdpProtocol.FallbackChains
import LdpProtocol.CrossNegotiation
import LdpProtocol.RecencyCaches
import LdpProtocol.ReplayDetection
import LdpProtocol.CapacitySizing
import LdpProtocol.ConcurrentCalls
import LdpProtocol.SessionLedger
import LdpProtocol.TaskHistory
import LdpProtocol.TaskOutcomes
import LdpProtocol.ProposalAnswers
import LdpProtocol.SessionOpening
import LdpProtocol.AdapterRuns
import LdpProtocol.AdapterVerdicts
import LdpProtocol.ContractEnforcement
import LdpProtocol.VerdictAgreement
import LdpProtocol.VerdictStability
import LdpProtocol.RoundedFloats
import LdpProtocol.PythonReplayGuard
import LdpProtocol.RepeatedMessages
import LdpProtocol.SenderIsolation
import LdpProtocol.SessionEstablishment
import LdpProtocol.SessionCache
import LdpProtocol.ClientTrust
import LdpProtocol.CrossTasks
import LdpProtocol.PythonTasks
import LdpProtocol.PythonSessionCache
import LdpProtocol.ResponseAuthenticity
import LdpProtocol.MonitoredCalls
import LdpProtocol.OrphanedSessions
import LdpProtocol.PythonVerdicts
import LdpProtocol.PythonEnforcement
import LdpProtocol.ValidationAgreement
import LdpProtocol.SessionExpiry
import LdpProtocol.VerdictOrigin
import LdpProtocol.DowngradePath
import LdpProtocol.NegotiationAgreement
import LdpProtocol.DelegateAnswers
import LdpProtocol.InsertionOrderedMaps
import LdpProtocol.PythonRouter
import LdpProtocol.StableSelection
import LdpProtocol.RoutedSelection
import LdpProtocol.BalancedRouting
import LdpProtocol.RouterTable
import LdpProtocol.EmbeddedOutputs
import LdpProtocol.LineageHead
import LdpProtocol.FalseAlarms
import LdpProtocol.ModeProvenance
import LdpProtocol.ReplayFreshness
import LdpProtocol.CodecRegistration
import LdpProtocol.StreamEvents
import LdpProtocol.SerialRuns
import LdpProtocol.SerializableServer
import LdpProtocol.LinkedTasks
import LdpProtocol.TaskDelivery
import LdpProtocol.ReliableTasks
import LdpProtocol.PythonRoundTrip
import LdpProtocol.IdentityWire
import LdpProtocol.CardExchange
import LdpProtocol.PythonDelivery
import LdpProtocol.PythonSubmissions
import LdpProtocol.EnvelopeExchange
import LdpProtocol.CrossDelivery
import LdpProtocol.RoutedDelivery
import LdpProtocol.TranslatedRuns
import LdpProtocol.HttpClient
import LdpProtocol.HttpRequests
import LdpProtocol.UrlRouting
import LdpProtocol.Discovery
