import MultiAiRouter.Routing.StickyPlacement
import MultiAiRouter.Routing.WeightedShare
import MultiAiRouter.Routing.FailureComplete
import MultiAiRouter.Routing.QuotaMerge
import MultiAiRouter.Routing.QuotaClocks
import MultiAiRouter.Dataplane.ChainErrorChoice
import MultiAiRouter.Dataplane.ServeRounds
import MultiAiRouter.Dataplane.ChainBounds
import MultiAiRouter.Dataplane.ObservationFence
import MultiAiRouter.Dataplane.ProbeHold
import MultiAiRouter.Dataplane.RefusalRuns
import MultiAiRouter.Dataplane.OneStart
import MultiAiRouter.Dataplane.AccountingRuns
import MultiAiRouter.Dataplane.AttemptClosure
import MultiAiRouter.Dataplane.RateLimiter
import MultiAiRouter.Dataplane.SlotRuns
import MultiAiRouter.Snapshots.ReadYourWrites
import MultiAiRouter.Dataplane.Auth.Revocation
import MultiAiRouter.Recovery.CapturedEvidence
import MultiAiRouter.Recovery.Shutdown
import MultiAiRouter.Recovery.Successor
import MultiAiRouter.Translate.Sse.Emit
import MultiAiRouter.Translate.Anthropic.PendingAccounts
import MultiAiRouter.Translate.OpenAiChat.Termination
import MultiAiRouter.Translate.Shared.Usage
import MultiAiRouter.Translate.Responses.Consistent
import MultiAiRouter.ClaudeSdk.Session.LineageClasses
import MultiAiRouter.ClaudeSdk.Session.Rollback
import MultiAiRouter.ClaudeSdk.Session.StoreIsolation
import MultiAiRouter.ClaudeSdk.Session.FailedTurn
import MultiAiRouter.ClaudeSdk.Session.DeletedRuns
import MultiAiRouter.ClaudeSdk.Render.OneMessage
import MultiAiRouter.ClaudeSdk.Render.Subagents
import MultiAiRouter.ClaudeSdk.Tools.Delivered
import MultiAiRouter.ClaudeSdk.Tools.EarlyStopRuns
import MultiAiRouter.ClaudeSdk.ForkDelta
import MultiAiRouter.ClaudeSdk.GateRuns
import MultiAiRouter.ClaudeSdk.Invoker
import MultiAiRouter.Accounts.Refresh.Quarantine
import MultiAiRouter.Accounts.Fence
import MultiAiRouter.Db.AdvisoryLockRuns
import MultiAiRouter.Usage.ReadersAgree
import MultiAiRouter.Dataplane.UpstreamDeadline
import MultiAiRouter.Dataplane.ForgottenVerdicts
import MultiAiRouter.Usage.RecorderLedger
import MultiAiRouter.Usage.QueueRuns
import MultiAiRouter.Translate.Snapshots.Uncontradicted
import MultiAiRouter.Crypto.ReasoningSeal
import MultiAiRouter.ClaudeSdk.Tools.RepairTwice
import MultiAiRouter.Dataplane.SuccessPeek
import MultiAiRouter.Dataplane.CountEstimate
import MultiAiRouter.UsageReport.EmbedFits
import MultiAiRouter.AdminAuth.ThrottleRuns
import MultiAiRouter.Translate.Shared.SchemaTools
import MultiAiRouter.Usage.HistorySource
import MultiAiRouter.ClaudeSdk.QuotaFacts
import MultiAiRouter.Routing.ExhaustedRetest
import MultiAiRouter.Usage.Watermark
