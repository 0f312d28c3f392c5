import EvaluationService.Foundation.Run
import EvaluationService.Storage.Factory
import EvaluationService.Storage.Lifecycle
import EvaluationService.Storage.Attempts
import EvaluationService.Storage.Recovery
import EvaluationService.Storage.Agreement
import EvaluationService.Core.Resilience
import EvaluationService.Core.Telemetry
import EvaluationService.Domain.Evaluation
import EvaluationService.Services.Evaluator
import EvaluationService.Services.JobService
import EvaluationService.Services.JobServiceProperties
import EvaluationService.Services.Worker
import EvaluationService.Services.WorkerProperties
import EvaluationService.Foundation.Pool
import EvaluationService.Services.System
import EvaluationService.Services.SystemProperties
import EvaluationService.Services.Completion
import EvaluationService.Core.Auth
import EvaluationService.Core.AuthProperties
import EvaluationService.Core.AuthErrors
import EvaluationService.Core.RateLimit
import EvaluationService.Foundation.Keyed
import EvaluationService.Core.RateLimitProperties
import EvaluationService.Core.Metrics
import EvaluationService.Api.Middleware
import EvaluationService.Api.MiddlewareProperties
import EvaluationService.Services.Roles
import EvaluationService.Foundation.Ledger
import EvaluationService.Services.Accounting
import EvaluationService.Api.Routes
import EvaluationService.Api.Server
import EvaluationService.Api.Answers
import EvaluationService.Api.Isolation
import EvaluationService.Storage.Columns
import EvaluationService.Foundation.CodePoints
import EvaluationService.Core.CodePointAuth
import EvaluationService.Api.Admission
import EvaluationService.Storage.Listing
import EvaluationService.Core.RateLimitBounds
import EvaluationService.Storage.Overtaking
import EvaluationService.Services.Queue
import EvaluationService.Services.QueueProperties
import EvaluationService.Services.Deployment
import EvaluationService.Services.QueueDepth
import EvaluationService.Services.CombinedRole
import EvaluationService.Foundation.Decimal
import EvaluationService.Core.Exposition
import EvaluationService.Core.ExpositionProperties
import EvaluationService.Core.CounterExport
import EvaluationService.Foundation.Cooperative
import EvaluationService.Storage.SharedJobs
import EvaluationService.Storage.Atomicity
import EvaluationService.Core.Logging
import EvaluationService.Services.Redaction
import EvaluationService.Api.Confidentiality
import EvaluationService.Storage.SharedRefinement
import EvaluationService.Core.TokenSpelling
import EvaluationService.Core.RateLimitWindows
import EvaluationService.Storage.RecoveryPasses
import EvaluationService.Domain.EvaluationProperties
import EvaluationService.Domain.SignificantTerms
import EvaluationService.Foundation.Pattern
import EvaluationService.Scripts.DockerfilePolicy
import EvaluationService.Scripts.LogicalLines
import EvaluationService.Scripts.DockerfilePolicyProperties
import EvaluationService.Foundation.RowLocks
import EvaluationService.Storage.Transactions
import EvaluationService.Storage.CommitHistory
import EvaluationService.Storage.TransactionReplay
import EvaluationService.Storage.TransactionProperties
import EvaluationService.Storage.TransactionProgress
import EvaluationService.Storage.UncontendedCalls
import EvaluationService.Api.LoggedRuns
import EvaluationService.Core.TokenCodec
import EvaluationService.Services.Backlog
import EvaluationService.Api.Observations
import EvaluationService.Foundation.Schema
import EvaluationService.Storage.MigratedJobs
import EvaluationService.Services.Evaluations
