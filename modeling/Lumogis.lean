import Lumogis.Lib.Prog
import Lumogis.Lib.Fault
import Lumogis.Lib.Rely
import Lumogis.Lib.Auxiliary
import Lumogis.Lib.Table
import Lumogis.Lib.Labelled
import Lumogis.Lib.Predicate
import Lumogis.Store
import Lumogis.Tables
import Lumogis.Projection
import Lumogis.EntityCascade
import Lumogis.ShareLock
import Lumogis.FileSharing
import Lumogis.Entities
import Lumogis.Ingest
import Lumogis.DocumentPurge
import Lumogis.BatchQueue
import Lumogis.QueueRuns
import Lumogis.LeaseFencing
import Lumogis.AttemptBound
import Lumogis.ProposalQueue
import Lumogis.ProposalRuns
import Lumogis.Documents
import Lumogis.SharingRoutes
import Lumogis.EntityMerge
import Lumogis.Frames
import Lumogis.UnshareSound
import Lumogis.LastRequestWins
import Lumogis.GhostChunks
import Lumogis.PostgresStore
import Lumogis.Transaction
import Lumogis.SharedConnection
import Lumogis.MergeComplete
import Lumogis.MergeProjections
import Lumogis.QdrantFilter
import Lumogis.Visibility
import Lumogis.Permissions
import Lumogis.PermissionRuns
import Lumogis.AuthSessions
import Lumogis.RefreshRotation
import Lumogis.Conversations
import Lumogis.ConversationRuns
import Lumogis.IndexHonesty
import Lumogis.DocumentRelations
import Lumogis.SessionIsolation
import Lumogis.EntityWriteGuard
import Lumogis.SummaryChain
import Lumogis.Credentials
import Lumogis.CredentialRotation
import Lumogis.MemoryWrites
import Lumogis.MemoryEdges
import Lumogis.Captures
import Lumogis.CaptureIndexing
import Lumogis.ToolLoop
import Lumogis.UserArchive
import Lumogis.ArchiveImport
import Lumogis.Lib.Contraction
import Lumogis.Lib.Zoom
import Lumogis.Deduplication
import Lumogis.DedupDecisions
import Lumogis.FindableEntities
import Lumogis.CircuitBreaker
import Lumogis.Lib.ReadThrough
import Lumogis.Accounts
import Lumogis.TokenVersions
import Lumogis.TokenAuthority
import Lumogis.LastAdmin
import Lumogis.Invites
import Lumogis.InviteRuns
import Lumogis.LlmProviders
import Lumogis.LocalOnly
import Lumogis.LlmKeyChanges
import Lumogis.Lib.Url
import Lumogis.Capabilities
import Lumogis.FirstParty
import Lumogis.CapabilityTools
import Lumogis.CaptureOutbox
import Lumogis.OutboxRuns
import Lumogis.SemanticSearch
import Lumogis.Lib.EventStream
import Lumogis.EventParsing
import Lumogis.Lib.Json
import Lumogis.Lib.Utf8
import Lumogis.ChatStream
import Lumogis.EgressGuard
import Lumogis.RefreshRoute
import Lumogis.OverlayRefresh
import Lumogis.TabRefresh
import Lumogis.CaptureApi
import Lumogis.CaptureReplay
import Lumogis.SyncRetries
import Lumogis.PaperlessPolling
import Lumogis.PollProgress
import Lumogis.ConcurrencyCap
import Lumogis.ToolDiscipline
import Lumogis.InjectionMarkup
import Lumogis.Lib.Chars
import Lumogis.OpenAiStream
import Lumogis.ShareMirror
import Lumogis.Publishing
import Lumogis.PublishLeaks
import Lumogis.PurgeSweeper
import Lumogis.PurgeExactness
import Lumogis.InboxPoll
import Lumogis.ContextBudget
import Lumogis.Lib.RankFusion
import Lumogis.Recall
import Lumogis.RecallSnapshot
import Lumogis.McpTokens
import Lumogis.Lib.IpAddress
import Lumogis.OutboundUrl
import Lumogis.Lib.Words
import Lumogis.Chunking
import Lumogis.CapabilityScopes
import Lumogis.CaptureTypes
import Lumogis.MergedNames
import Lumogis.StoredTwice
import Lumogis.Lib.Dict
import Lumogis.NotificationPreferences
import Lumogis.NotificationDispatch
import Lumogis.Lib.Regex
import Lumogis.ExternalEndpoints
import Lumogis.Lib.SortedByKey
import Lumogis.BiographyConflicts
import Lumogis.BiographyConflictStore
import Lumogis.Routines
import Lumogis.ToolCalls
import Lumogis.ModelListing
import Lumogis.EntityConstraints
import Lumogis.ConstraintRuns
import Lumogis.ContextInjection
import Lumogis.ContextMessage
import Lumogis.ContextAgreement
import Lumogis.LogRedaction
import Lumogis.Lib.CompactJson
import Lumogis.CapabilityOutput
import Lumogis.Lib.Entries
import Lumogis.ClientIp
import Lumogis.Actions
import Lumogis.Reversals
import Lumogis.OllamaPullJobs
import Lumogis.PullJobRuns
import Lumogis.LoginThrottle
import Lumogis.Lib.Throttle
import Lumogis.LoginWindows
import Lumogis.WeeklyReview
import Lumogis.AuditTaxonomy
import Lumogis.AuditTypes
import Lumogis.AuditQueries
import Lumogis.AuditTables
import Lumogis.Lib.FileTree
import Lumogis.ReadFile
import Lumogis.Lib.FrontShed
import Lumogis.HistoryTruncation
import Lumogis.ArchivePruning
import Lumogis.Lib.PosixPath
import Lumogis.ArchiveNames
import Lumogis.ContextBuild
import Lumogis.Lib.CallBinding
import Lumogis.RoutineChecks
import Lumogis.Lib.ChangeWatch
import Lumogis.SignalProcessing
import Lumogis.PageMonitor
import Lumogis.FeedPolling
import Lumogis.Lib.Delivery
import Lumogis.ThreadStore
import Lumogis.Migrations
import Lumogis.TranscriptSync
