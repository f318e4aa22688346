import AgenticEnterprise.Alembic.Preservation
import AgenticEnterprise.Alembic.Versions
import AgenticEnterprise.Core.Exceptions
import AgenticEnterprise.Core.Settings
import AgenticEnterprise.Core.Text
import AgenticEnterprise.Graph.Engine
import AgenticEnterprise.Graph.Messages
import AgenticEnterprise.Graph.Ownership
import AgenticEnterprise.Graph.OwnershipRequests
import AgenticEnterprise.Graph.Threads
import AgenticEnterprise.Library.Catalog
import AgenticEnterprise.Library.CheckpointStore
import AgenticEnterprise.Library.Ranking
import AgenticEnterprise.Library.Runs
import AgenticEnterprise.Library.UniqueKeyTable
import AgenticEnterprise.Memory.VectorStore
import AgenticEnterprise.Graph.CriticLoop
import AgenticEnterprise.Graph.ToolAnswers
import AgenticEnterprise.Graph.Answers
import AgenticEnterprise.Graph.Concurrency
import AgenticEnterprise.Api.Schemas
import AgenticEnterprise.Library.Effects
import AgenticEnterprise.Api.Dependencies
import AgenticEnterprise.Api.Endpoints
import AgenticEnterprise.Api.Service
import AgenticEnterprise.Api.MemoryScope
import AgenticEnterprise.Api.Frames
import AgenticEnterprise.Api.SessionOwnership
import AgenticEnterprise.Api.OwnedEffects
import AgenticEnterprise.Graph.Dispatch
import AgenticEnterprise.Api.OpenRoutes
import AgenticEnterprise.Api.Agreement
import AgenticEnterprise.Api.Isolation
import AgenticEnterprise.Graph.NodeOrder
import AgenticEnterprise.Graph.Grading
import AgenticEnterprise.Api.Analysis
import AgenticEnterprise.Graph.Forks
import AgenticEnterprise.Api.Durability
import AgenticEnterprise.Api.ExecutionTrail
import AgenticEnterprise.Graph.Retention
import AgenticEnterprise.InternalApi.FinanceApi
import AgenticEnterprise.Mcp.TokenCache
import AgenticEnterprise.Mcp.BalanceCalls
import AgenticEnterprise.Mcp.TokenValidity
import AgenticEnterprise.Library.FileTree
import AgenticEnterprise.Mcp.FileJail
import AgenticEnterprise.Api.Resume
import AgenticEnterprise.Api.StreamVerdict
import AgenticEnterprise.Core.Json
import AgenticEnterprise.Mcp.TokenFetch
import AgenticEnterprise.Mcp.TokenReuse
import AgenticEnterprise.Mcp.Revocation
import AgenticEnterprise.Core.Columns
import AgenticEnterprise.Mcp.BalanceAudit
import AgenticEnterprise.Library.Uri
import AgenticEnterprise.Mcp.AccountUrl
import AgenticEnterprise.Mcp.FileCalls
import AgenticEnterprise.Mcp.FileAudit
import AgenticEnterprise.Mcp.FileRoundTrip
import AgenticEnterprise.Tools.CodeExecutor
import AgenticEnterprise.Graph.Logs
import AgenticEnterprise.Api.AskCache
import AgenticEnterprise.Api.Branches
import AgenticEnterprise.Api.RateBuckets
import AgenticEnterprise.Graph.ContextBudget
import AgenticEnterprise.Mcp.PathRules
import AgenticEnterprise.Memory.Recall
import AgenticEnterprise.Memory.FirstMemories
import AgenticEnterprise.Graph.Builders
import AgenticEnterprise.Api.Conversations
import AgenticEnterprise.Api.BothRuns
import AgenticEnterprise.Api.MemoryLedger
import AgenticEnterprise.Mcp.FileStore
import AgenticEnterprise.Library.SignedTokens
import AgenticEnterprise.Api.AccessTokens
import AgenticEnterprise.Graph.ResearchLoop
import AgenticEnterprise.Api.ResearchRequests
import AgenticEnterprise.Library.LockedMemo
import AgenticEnterprise.Graph.Tools
import AgenticEnterprise.Api.RequestIds
import AgenticEnterprise.Graph.RetentionLoop
import AgenticEnterprise.Graph.Resumption
import AgenticEnterprise.Api.ResumedRuns
import AgenticEnterprise.Tools.SandboxContainers
import AgenticEnterprise.Library.Interleavings
import AgenticEnterprise.Api.Interleavings
