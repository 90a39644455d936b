import FabricCommon.OrdererDeliver
import FabricCommon.FinalityRange
import FabricCommon.LifecycleHandlers
import FabricCommon.LifecycleHistory
import FabricCommon.CommitAnswers
import FabricCommon.SettingsInForce
import FabricCommon.CryptoRestart
import FabricCommon.SubmitIsolation
import FabricCommon.GateFailClosed
import FabricCommon.EventListening
import FabricCommon.GateIdentities
import FabricCommon.DeliverOutcome
import FabricCommon.KeyCertificatePair
import FabricCommon.AnchorPeersFinality
import FabricCommon.SideDBStandard
import FabricCommon.PolicyRoundTrip
import FabricCommon.EventStreamErrors
import FabricCommon.EventStreamResults
import FabricCommon.SeekSigning
import FabricCommon.ConfigFactory
import FabricCommon.ConfigOperations
import FabricCommon.LowS
import FabricCommon.DefinitionListing
import FabricCommon.QueryHub
import FabricCommon.TolerantProposals
import FabricCommon.TransactionQuery
import FabricCommon.LedgerReports
import FabricCommon.ReportedHeights
import FabricCommon.ConsensusMetadata
import FabricCommon.AdminInsertion
import FabricCommon.DeliverStream
import FabricCommon.CheckThenCreate
import FabricCommon.CaServices
import FabricCommon.CaRegistry
import FabricCommon.ConcurrentCreation
import FabricCommon.CaEnrolment
import FabricCommon.EnrolmentSecrets
import FabricCommon.FieldFilter
import FabricCommon.QueryBuilder
import FabricCommon.BlockDecoder
import FabricCommon.DecodedTransactions
import FabricCommon.DiscoveryResults
import FabricCommon.DecoderRereading
import FabricCommon.AffiliationListing
import FabricCommon.AffiliationInit
import FabricCommon.ChaincodePackage
import FabricCommon.RepeatedPackaging
import FabricCommon.CouchDBIndex
import FabricCommon.CertificateText
import FabricCommon.CertificateBundle
import FabricCommon.NormalizedBundles
import FabricCommon.OrdererLedger
import FabricCommon.ChannelConfigFetch
import FabricCommon.TransactionListening
import FabricCommon.CryptoModes
import FabricCommon.JoinAttempts
import FabricCommon.PackageFiles
import FabricCommon.CryptoTree
import FabricCommon.CertificateMarkers
