import Conveyor.Acceptance
import Conveyor.AcceptanceInterleaving
import Conveyor.AuditCoverage
import Conveyor.Autopilot
import Conveyor.AutopilotBounds
import Conveyor.AutopilotLoop
import Conveyor.AutopilotOwnership
import Conveyor.AutopilotPass
import Conveyor.BeginAtomicity
import Conveyor.ChangedPaths
import Conveyor.CompletionSteps
import Conveyor.Contracts
import Conveyor.CorroboratedIdentity
import Conveyor.DeliveredTransitions
import Conveyor.DependencyGates
import Conveyor.ExecutionPlan
import Conveyor.PolicyResolution
import Conveyor.MarkdownRoundTrip
import Conveyor.FeatureDecisions
import Conveyor.FeatureQueue
import Conveyor.FeatureScoping
import Conveyor.FreshPlans
import Conveyor.IntegratedFeatures
import Conveyor.IntegrationAudit
import Conveyor.IntegrationPreflight
import Conveyor.IntegrationQueue
import Conveyor.IntegrationReadBack
import Conveyor.IntegrationWrites
import Conveyor.Kernel
import Conveyor.KernelCompletion
import Conveyor.KernelFrame
import Conveyor.KernelReplay
import Conveyor.KernelRestore
import Conveyor.KernelWorld
import Conveyor.LaunchReservation
import Conveyor.LeaseInterleaving
import Conveyor.Ledger
import Conveyor.LedgerAgreement
import Conveyor.LedgerDurability
import Conveyor.LedgerEntries
import Conveyor.LedgerHistory
import Conveyor.LedgerReplay
import Conveyor.LedgerRun
import Conveyor.LedgerSharing
import Conveyor.LedgerTerminals
import Conveyor.LegacyAdapter
import Conveyor.LegacyTransition
import Conveyor.MetadataReplacement
import Conveyor.Library.Call
import Conveyor.Library.Checked
import Conveyor.Library.Dict
import Conveyor.Library.HashChain
import Conveyor.Library.Json
import Conveyor.Library.PathListing
import Conveyor.Library.Platform
import Conveyor.Library.Regex
import Conveyor.Library.Raises
import Conveyor.Library.Register
import Conveyor.Library.Sha256
import Conveyor.Library.TextLines
import Conveyor.Library.LineEnds
import Conveyor.DocumentEditors
import Conveyor.DebtRecords
import Conveyor.Library.Url
import Conveyor.OperatorPause
import Conveyor.OwnershipInterleaving
import Conveyor.PlanningReadiness
import Conveyor.ProjectTransition
import Conveyor.Projection
import Conveyor.ProjectionCache
import Conveyor.ProjectionFold
import Conveyor.ProjectionGates
import Conveyor.ProjectionHistory
import Conveyor.QueueBinding
import Conveyor.QueueEdits
import Conveyor.QueueInterleaving
import Conveyor.QueueReaders
import Conveyor.QueueReading
import Conveyor.QueueSummary
import Conveyor.Redaction
import Conveyor.Repository
import Conveyor.ReservationInterleaving
import Conveyor.SecretVocabulary
import Conveyor.SerialLedgers
import Conveyor.SessionBinding
import Conveyor.StartupConvergence
import Conveyor.StartupReconciliation
import Conveyor.StateMachine
import Conveyor.TerminalEnvelope
import Conveyor.Transaction
import Conveyor.TranscriptRedaction
import Conveyor.TransitionProjection
import Conveyor.WorkflowLease
import Conveyor.LegacyMigration
import Conveyor.StreamedEnvelope
import Conveyor.ReleaseVerdict
import Conveyor.SessionBudget
import Conveyor.QueueControls
import Conveyor.StartupDerivation
import Conveyor.CommandGate
import Conveyor.BriefSections
import Conveyor.FeatureBranches
import Conveyor.Library.MarkedRegions
import Conveyor.Library.Settled
import Conveyor.DependencyCycles
import Conveyor.ContentFingerprints
import Conveyor.MutationReaders
import Conveyor.TranscriptReaders
import Conveyor.PlanningCommit
import Conveyor.DecisionBlocks
import Conveyor.SchemaValidation
import Conveyor.Library.JsonLines
import Conveyor.EventLog
import Conveyor.RecoveryPlanner
import Conveyor.RecoveryApply
import Conveyor.RecoveryFrame
import Conveyor.RecoveryInspection
import Conveyor.RecoveryRuns
import Conveyor.KernelRuns
import Conveyor.PortfolioScheduler
