import RecastAi.Interleaving
import RecastAi.OutboxRelay
import RecastAi.OutboxSafety
import RecastAi.OutboxOverlap
import RecastAi.GoText
import RecastAi.UploadService
import RecastAi.UploadKeys
import RecastAi.UploadRules
import RecastAi.UploadAssembly
import RecastAi.UploadOneJob
import RecastAi.Hub
import RecastAi.HubClients
import RecastAi.HubSubscriptions
import RecastAi.PyText
import RecastAi.TranscriptValidator
import RecastAi.SegmentStore
import RecastAi.UploadRetry
import RecastAi.UploadGaps
import RecastAi.UploadIsolation
import RecastAi.Models
import RecastAi.Pipeline
import RecastAi.GatewayJobs
import RecastAi.GatewayOwners
import RecastAi.GatewaySteps
import RecastAi.Tokens
import RecastAi.GoogleSignIn
import RecastAi.GoogleIdentity
import RecastAi.Histories
import RecastAi.Producers
import RecastAi.PyValues
import RecastAi.VideoAnalyzer
import RecastAi.TtsService
import RecastAi.JobParameters
import RecastAi.MuxService
import RecastAi.AudioHop
import RecastAi.TtsIsolation
import RecastAi.GatewayAtomicity
import RecastAi.DeliveryService
import RecastAi.Deliveries
import RecastAi.StageOrder
import RecastAi.ConsumerDuties
import RecastAi.Redelivery
import RecastAi.GoCase
import RecastAi.OutboxEnvelope
import RecastAi.QueueBroker
import RecastAi.PoisonMessages
import RecastAi.Accounts
import RecastAi.UserEmails
import RecastAi.RefreshRotation
import RecastAi.GoEncoding
import RecastAi.ShareLinks
import RecastAi.WebsocketPrivacy
import RecastAi.Redis
import RecastAi.RateLimiter
import RecastAi.Idempotency
import RecastAi.IdempotentReplay
import RecastAi.IdempotentOnce
import RecastAi.SynthesizedWords
import RecastAi.WordAlignment
import RecastAi.PyPatterns
import RecastAi.SanitizedText
import RecastAi.TranscriptGrammar
import RecastAi.BestSoFar
import RecastAi.QualityLoop
import RecastAi.IterationMetadata
import RecastAi.WordTimings
import RecastAi.BrowserUpload
import RecastAi.ProgressEvents
import RecastAi.EditorDrafts
import RecastAi.RescaledWords
import RecastAi.SegmentAudio
import RecastAi.ListRuns
import RecastAi.ProviderTimings
import RecastAi.PyNumbers
import RecastAi.SilenceRatio
import RecastAi.RewriteCall
import RecastAi.DeadLetters
import RecastAi.Regenerations
import RecastAi.TranscriptEdits
import RecastAi.EditedSegments
import RecastAi.UploadQuota
import RecastAi.UploadAgreement
import RecastAi.ChunkTrackers
import RecastAi.SingleRelay
import RecastAi.RelayAttempts
import RecastAi.RelayOrder
import RecastAi.GeminiAnalyzer
import RecastAi.GeminiCleanup
import RecastAi.Resilience
import RecastAi.MonotonicWords
import RecastAi.AtempoChain
import RecastAi.JobSocket
import RecastAi.Hotkeys
import RecastAi.JobKeys
import RecastAi.DeletedJobs
import RecastAi.EditRaces
import RecastAi.UnfinishedJobs
import RecastAi.RateBound
import RecastAi.OutboxDrain
import RecastAi.Rewriter
import RecastAi.GeminiOrder
import RecastAi.Admission
import RecastAi.Webhooks
import RecastAi.Dashboard
import RecastAi.QualityGate
import RecastAi.WebSession
