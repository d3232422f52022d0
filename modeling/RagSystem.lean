import RagSystem.AtomicProgram
import RagSystem.ThreadPool
import RagSystem.RelyGuarantee
import RagSystem.VersionedCell
import RagSystem.Storage
import RagSystem.CompareAndSwap
import RagSystem.StoreRequests
import RagSystem.DocumentModels
import RagSystem.DocumentStore
import RagSystem.DocumentService
import RagSystem.CallEffects
import RagSystem.StoreCalls
import RagSystem.LegalWrites
import RagSystem.VersionHistory
import RagSystem.DeletionTerminal
import RagSystem.RecordCaches
import RagSystem.ReadGate
import RagSystem.StaleJobs
import RagSystem.PublishedVersion
import RagSystem.IndexCalls
import RagSystem.PublishedChunks
import RagSystem.EvidenceModels
import RagSystem.ReplayRuns
import RagSystem.ReplayStates
import RagSystem.ReplayClaims
import RagSystem.LostReplies
import RagSystem.ProgramPaths
import RagSystem.RefreshTokens
import RagSystem.TokenRotation
import RagSystem.TokenFamilies
import RagSystem.Abstention
import RagSystem.HybridAnswers
import RagSystem.AskCalls
import RagSystem.Conversations
import RagSystem.AgenticRouter
import RagSystem.ProgramContracts
import RagSystem.RouterCalls
import RagSystem.AbstentionCoverage
import RagSystem.ScopedRetrieval
import RagSystem.KeyedTrees
import RagSystem.SqlComments
import RagSystem.SqlLabGuard
import RagSystem.PostgresText
import RagSystem.ExecutedText
import RagSystem.CopilotGuard
import RagSystem.ColumnResolution
import RagSystem.ColumnAllowlist
import RagSystem.ConfigurationStore
import RagSystem.ConfigurationHistory
import RagSystem.ConfigurationBootstrap
import RagSystem.ProgramEndings
import RagSystem.ConversationHistory
import RagSystem.SqlLabAudit
import RagSystem.FeedbackPromotion
import RagSystem.LostWrites
import RagSystem.LostPromotions
import RagSystem.NarratedPrograms
import RagSystem.EscapedExceptions
import RagSystem.StreamAgreement
import RagSystem.ClarifiedQuestions
import RagSystem.AnswerGeneration
import RagSystem.GroundedAnswers
import RagSystem.QueryTraces
import RagSystem.TraceOutcomes
import RagSystem.Evaluation
import RagSystem.EvaluationRuns
import RagSystem.CommentStripping
import RagSystem.StreamedDeltas
import RagSystem.TraceBatches
import RagSystem.FlushWorkers
import RagSystem.TelemetryFlush
import RagSystem.ClientSession
import RagSystem.CorpusView
import RagSystem.SpanRecorder
import RagSystem.HonestBrowser
import RagSystem.Doubles
import RagSystem.PieceReading
import RagSystem.JsonText
import RagSystem.PythonNumbers
import RagSystem.NestedQueries
import RagSystem.ReplayDeadlines
import RagSystem.SqlLabResults
import RagSystem.SnapshotManifests
import RagSystem.OwnerScopes
import RagSystem.PythonLines
import RagSystem.ChunkStorage
import RagSystem.SqlNormalization
import RagSystem.SqlFixtures
import RagSystem.Base64
import RagSystem.JsonAscii
import RagSystem.PageCursors
import RagSystem.CorpusListing
import RagSystem.FeedbackInbox
import RagSystem.ListingCursors
import RagSystem.ListingWalks
import RagSystem.JsonLexing
import RagSystem.PythonJson
import RagSystem.TolerantJson
import RagSystem.RateLimit
import RagSystem.RateLimitOverlaps
import RagSystem.RateLimitHints
import RagSystem.CsvExport
import RagSystem.CosineSimilarity
import RagSystem.KnowledgeGap
import RagSystem.KnowledgeGapTopics
import RagSystem.JudgeScores
import RagSystem.TraceDiagnoses
import RagSystem.PythonDumps
import RagSystem.EventStream
import RagSystem.FollowUpRewrites
import RagSystem.RoutingReplies
import RagSystem.FirstSeenGroups
import RagSystem.JavaScriptValues
import RagSystem.DashboardCharts
import RagSystem.MarkdownTables
import RagSystem.SpreadsheetTables
import RagSystem.StoredTelemetry
import RagSystem.TelemetryRoundTrips
import RagSystem.BufferConservation
import RagSystem.RetrievalMetrics
import RagSystem.ParentChains
import RagSystem.Waterfall
import RagSystem.UploadManager
import RagSystem.ConfigRedaction
import RagSystem.IngestionCycles
import RagSystem.SignificantDigits
import RagSystem.ExpositionText
import RagSystem.MetricsExposition
import RagSystem.ClaimMapping
import RagSystem.DocumentFootprints
import RagSystem.RetainedHistory
import RagSystem.QueuedJobs
import RagSystem.CalmRuns
import RagSystem.SerialService
