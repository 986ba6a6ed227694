import Mathlib.Data.Rat.Floor

/-!
# The inputs and outputs of routing selection

The snapshot a selection reads: the clock, every account with its health, quota windows and recovery row, the pools,
and the presenting key's scope. Instants are the integer milliseconds of a `Date`; a utilization is an exact
rational; weights, priorities and counters are integers.

A model family's patterns are kept as the tests they perform on a name.
-/

namespace MultiAiRouter.Routing

/-- The value of a `Date`: milliseconds since the epoch. -/
abbrev Instant := Int

/-- Account lifecycle states. -/
inductive AccountStatus
  | active
  | disabled
  | coolingDown
  | exhausted
  | needsReauth
  deriving DecidableEq

/-- Every provider the router has a driver for. -/
inductive ProviderId
  | anthropicOauth
  | anthropicApi
  | openaiOauth
  | openaiApi
  | openrouter
  | zai
  | kimi
  | minimax
  | gemini
  | groq
  | deepseek
  | xai
  | mistral
  | together
  | cerebras
  | opencodeGo
  | ollama
  | openaiCompatible
  | anthropicCompatible
  deriving DecidableEq

/-- How an account authenticates. -/
inductive AuthKind
  | oauth
  | apiKey
  | none
  deriving DecidableEq

/-- The six ordering policies. -/
inductive RoutingPolicy
  | sticky
  | roundRobin
  | weighted
  | leastUsed
  | priorityFailover
  | quotaAware
  deriving DecidableEq

/-- The policy a group gets when nothing chose one. -/
def defaultRoutingPolicy : RoutingPolicy := .sticky

/-- How trustworthy a reset instant is. -/
inductive ResetSource
  | providerReported
  | estimated
  | unknown
  deriving DecidableEq

/-- Where a utilization reading comes from; only `continuous` may rank. -/
inductive UtilizationSource
  | continuous
  | thresholdTriggered
  | none
  deriving DecidableEq

/-- The quota windows an account can hold. -/
inductive QuotaWindowKind
  | fiveHour
  | sevenDay
  | sevenDayOpus
  | sevenDaySonnet
  | overage
  deriving DecidableEq

/-- Whether a persisted window row still counts. -/
inductive EvidenceState
  | current
  | expired
  | supersededByRecovery
  deriving DecidableEq

/-- One window's quota state, with the durable evidence fields a recovery sets. -/
structure QuotaWindowState where
  window : QuotaWindowKind
  utilization : Option Rat := none
  utilizationSource : UtilizationSource := .none
  resetsAt : Option Instant := none
  resetSource : ResetSource := .unknown
  lastCheckedAt : Instant
  advisory : Bool := false
  revision : Option Nat := none
  evidenceState : Option EvidenceState := none
  blocksRouting : Option Bool := none
  retiredAt : Option Instant := none
  deriving DecidableEq

/-- One limiter's headroom, under the provider's own name for it. -/
structure LimiterReading where
  limiter : String
  utilization : Option Rat := none
  utilizationSource : UtilizationSource := .none
  resetsAt : Option Instant := none
  deriving DecidableEq

/-- Why a cooldown is not an ordinary one. -/
inductive CooldownReason
  | credentialRejected
  deriving DecidableEq

/-- In-memory health of one account, as the snapshot overlays it. -/
structure AccountHealth where
  cooldownUntil : Option Instant := none
  cooldownSource : Option ResetSource := none
  cooldownReason : Option CooldownReason := none
  consecutiveFailures : Nat := 0
  probeHeldUntil : Option Instant := none
  inFlight : Nat := 0
  recentTokens : Nat := 0
  deriving DecidableEq

/-- The states of a recovery row. -/
inductive RecoveryState
  | pending
  | issued
  | succeeded
  | failed
  | uncertain
  | cancelled
  deriving DecidableEq

/-- The recovery row an account carries, and whether this replica holds its permit. -/
structure RecoverySnapshot where
  localAvailable : Bool := false
  retryAt : Option Instant := none
  revision : Nat := 0
  generation : String := ""
  lifecycleVersion : Nat := 0
  state : RecoveryState
  nextAllowedAt : Instant
  quotaRevisions : List (QuotaWindowKind × Nat) := []
  deriving DecidableEq

/-- A provider's default model family: a name is in it when any pattern matches. -/
structure ModelFamily where
  patterns : List (String → Bool)

/-- Everything routing knows about one account. -/
structure AccountSnapshot where
  id : String
  label : String := ""
  provider : ProviderId := .openaiCompatible
  status : AccountStatus := .active
  weight : Int := 100
  priority : Int := 0
  supportedModels : Option (List String) := none
  modelFamily : Option ModelFamily := none
  understandsContextTags : Bool := false
  modelAliases : Option (List (String × String)) := none
  quotaWindows : Option (List QuotaWindowState) := none
  limiterWindows : Option (List LimiterReading) := none
  recovery : Option RecoverySnapshot := none
  health : AccountHealth := {}

/-- Weight and priority are properties of the membership; absent, the account's own stand. -/
structure PoolMembership where
  accountId : String
  weight : Option Int := none
  priority : Option Int := none
  deriving DecidableEq

/-- A pool with its declared member order and its optional member of last resort. -/
structure PoolSnapshot where
  id : String
  name : String := ""
  policy : RoutingPolicy := .sticky
  members : List PoolMembership
  overflowAccountId : Option String := none
  rotationCounter : Option Int := none
  deriving DecidableEq

/-- The presenting key's scope. -/
inductive KeyScopeSnapshot
  | all
  | pools (poolIds : List String)
  | accounts (accountIds : List String)
  deriving DecidableEq

/-- An existing session-to-account binding. -/
structure SessionBinding where
  accountId : String
  sdkSessionId : Option String := none
  deriving DecidableEq

/-- What one request asks of selection. -/
structure SelectionRequest where
  sessionKey : String
  model : String
  keyScope : KeyScopeSnapshot
  binding : Option SessionBinding := none
  rotationCounter : Option Int := none
  deriving DecidableEq

/-- The immutable state one selection reads. -/
structure RoutingSnapshot where
  accounts : List AccountSnapshot
  pools : List PoolSnapshot
  now : Instant

/-- Which load measure `least-used` ranks on first. -/
inductive LeastUsedMeasure
  | inFlight
  | recentTokens
  deriving DecidableEq

/-- What to do when a bound session's account is merely cooling down. -/
inductive BoundCooldownBehavior
  | fail
  | rebind
  deriving DecidableEq

/-- The selection switches, each absent unless a caller set it. -/
structure SelectionOptions where
  unpooledPolicy : Option RoutingPolicy := none
  leastUsedMeasure : Option LeastUsedMeasure := none
  quotaSpentThreshold : Option Rat := none
  boundAccountCoolingDown : Option BoundCooldownBehavior := none
  carryBoundSessions : Bool := false
  unknownResetRetryAfterSeconds : Option Int := none
  deriving DecidableEq

/-- One in-scope account with the membership values the policies rank on. -/
structure ScopedAccount where
  account : AccountSnapshot
  poolId : Option String
  weight : Int
  priority : Int
  order : Nat

/-- An account that survived filtering. -/
structure Candidate extends ScopedAccount where
  upstreamModel : String
  halfOpen : Bool
  recoveryPermit : Bool := false
  aliased : Bool := false

/-- A scope-resolved group: the policy runs within it, never across groups. -/
structure ScopeGroup where
  poolId : Option String
  poolName : Option String
  policy : RoutingPolicy
  rotationCounter : Int
  members : List ScopedAccount
  overflow : Option ScopedAccount

/-- Why an in-scope account did not survive filtering. -/
inductive FilterReason
  | disabled
  | needsReauth
  | exhausted
  | coolingDown
  | credentialRejected
  | probeInFlight
  | quotaWindowSpent
  | modelUnsupported
  deriving DecidableEq

/-- Filter reasons a clock alone recovers from. -/
def recoverableFilterReasons : List FilterReason :=
  [.coolingDown, .probeInFlight, .quotaWindowSpent]

/-- The clock-recoverable reasons are the only ones a binding may block on. -/
def isRecoverableFilterReason (reason : FilterReason) : Bool :=
  decide (reason ∈ recoverableFilterReasons)

/-- A reason that a clock recovers from, the only kind a kept binding may carry. -/
abbrev RecoverableFilterReason := { reason : FilterReason // isRecoverableFilterReason reason }

/-- A dropped account, the first reason that hit it, and when it comes back if that is known. -/
structure RejectedCandidate where
  accountId : String
  label : String
  reason : FilterReason
  resetsAt : Option Instant := none
  resetSource : Option ResetSource := none
  window : Option QuotaWindowKind := none
  deriving DecidableEq

/-- What a policy wants the operator and the logs to know about its ordering. -/
inductive PolicyNote
  | bindingPinned (accountId : String)
  | halfOpenDemoted (accountIds : List String)
  | affinityKept (accountId : String)
  | recoveryPromoted (accountIds : List String)
  | aliasedDeferred (accountIds : List String)
  | overflowEngaged (accountId : String)
  | weightsAbsent (accountIds : List String)
  | policyDegraded (source target : RoutingPolicy) (accountIds : List String)
  | quotaRanked (accountIds unknownAccountIds : List String)
  deriving DecidableEq

/-- Why a binding could not be honored: a filter reason, or the account is out of reach. -/
inductive BindingInvalidationReason
  | accountMissing
  | outOfScope
  | filtered (reason : FilterReason)
  deriving DecidableEq

/-- The fate of the session's binding in one selection. -/
inductive BindingDecision
  | none
  | honored (accountId : String)
  | blocked (accountId : String) (reason : RecoverableFilterReason) (resetsAt : Option Instant)
      (resetSource : Option ResetSource)
  | invalidated (accountId : String) (reason : BindingInvalidationReason)
  deriving DecidableEq

/-- What the scope admitted, and which of its targets resolved to nothing. -/
structure ScopeDiagnostics where
  scope : KeyScopeSnapshot
  inScopeAccountIds : List String
  unresolvedTargetIds : List String
  deriving DecidableEq

/-- What one group contributed to the ordered candidates. -/
structure GroupDecision where
  poolId : Option String
  poolName : Option String
  policy : RoutingPolicy
  ordered : List String
  notes : List PolicyNote
  deriving DecidableEq

/-- Why the candidates are what they are. -/
structure SelectionDecision where
  scope : ScopeDiagnostics
  groups : List GroupDecision
  rejected : List RejectedCandidate
  binding : BindingDecision
  usedOverflow : Bool
  deriving DecidableEq

end MultiAiRouter.Routing
