import FyralisCore.Acts.AuditAgreement
import FyralisCore.Acts.AchievedGoals
import FyralisCore.Acts.TenantIsolation
import FyralisCore.Models.Mirrors
import FyralisCore.Models.ArchiveCompleteness
import FyralisCore.Models.BulkAgreement
import FyralisCore.Ingestion.IngestDedup
import FyralisCore.Ingestion.ShardOwnership
import FyralisCore.Ingestion.TerminalAgreement
import FyralisCore.Ingestion.CrashResume
import FyralisCore.Ingestion.AtLeastOnce
import FyralisCore.Ingestion.CutoverSafety
import FyralisCore.Ingestion.DeadLetters
import FyralisCore.Ingestion.FlushBatcher
import FyralisCore.Resources.Conservation
import FyralisCore.Resources.ConcurrentDeploys
import FyralisCore.RateLimit.GrantBound
import FyralisCore.RateLimit.Lockout
import FyralisCore.Leases.PostgresLease
import FyralisCore.Think.OrphanedMembers
import FyralisCore.Think.ReevalHandoff
import FyralisCore.Think.LeaseExclusivity
import FyralisCore.Think.PostCommitIsolation
import FyralisCore.Think.ExactlyOnce
import FyralisCore.Think.DroppedTraces
import FyralisCore.Think.FalsifierGuarantee
import FyralisCore.Access.ViewAgreement
import FyralisCore.Calibration.Recalibration
import FyralisCore.Anomalies.Debounce
import FyralisCore.Resources.Feasibility
import FyralisCore.Bridge.Queries
import FyralisCore.Contestability.SerialContests
import FyralisCore.Actors.OwnershipCalls
import FyralisCore.Deadlines.ResolvedOnce
import FyralisCore.Precipitation.Promotions
import FyralisCore.Ingestion.PathParity
import FyralisCore.Ingestion.PendingSummaries
import FyralisCore.Ingestion.StrandedItems
import FyralisCore.Ingestion.SingleSummary
import FyralisCore.Ingestion.BreakerSoundness
import FyralisCore.Onboarding.SourceRollup
import FyralisCore.Acts.EdgeGuards
import FyralisCore.Think.CascadeBounds
import FyralisCore.Think.EdgeCycles
import FyralisCore.Think.EvidenceSupport
import FyralisCore.Think.AuditEvents
import FyralisCore.Webhooks.InstallationChanges
import FyralisCore.Webhooks.QuickbooksFanout
import FyralisCore.EdgeIntelligence.PairAggregate
import FyralisCore.Relationships.FinalDecisions
import FyralisCore.Substrate.TenantWrites
import FyralisCore.Substrate.LinkOrder
import FyralisCore.Substrate.OneEntity
import FyralisCore.Substrate.Aliases
import FyralisCore.Think.RegionLocks
import FyralisCore.Shared.CircuitBreakers
import FyralisCore.Shared.Ids
import FyralisCore.Models.Windows
import FyralisCore.EdgeIntelligence.Compiler
import FyralisCore.Shared.Backoff
