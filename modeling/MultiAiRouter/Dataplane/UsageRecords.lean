import MultiAiRouter.Routing.Types

/-!
# Usage records

The row one attempt writes and the terminal one request writes, with the errors a failed request is
recorded under. Times are whole milliseconds, so the source's rounding is the identity.
-/

namespace MultiAiRouter.Dataplane

open Routing

/-- The wire protocols the router speaks. -/
inductive Dialect
  | anthropic
  | openaiChat
  | openaiResponses
  deriving DecidableEq

/-- How a request reaches its upstream. -/
inductive EgressMode
  | passthrough
  | translate
  | agentSdk
  deriving DecidableEq

/-- Whether a cost is spend, an attribution, or not known. -/
inductive CostBasis
  | metered
  | notional
  | unknown
  deriving DecidableEq

/-- How an attempt or a request ended. -/
inductive UsageOutcome
  | success
  | clientError
  | translationFailed
  | requestTooLarge
  | keyRevoked
  | scopeViolation
  | keyRateLimited
  | noHealthyAccount
  | quotaExhausted
  | creditsExhausted
  | upstreamError
  | upstreamTimeout
  | upstreamAuthFailed
  | credentialDecryptFailed
  | routerError
  deriving DecidableEq

/-- The stable code of each router error class. -/
inductive RouterErrorCode
  | noHealthyAccount
  | quotaExhausted
  | creditsExhausted
  | scopeViolation
  | keyRevoked
  | keyRateLimited
  | keyVerificationUnavailable
  | adminAuthFailed
  | csrfTokenInvalid
  | upstreamAuthFailed
  | upstreamTimeout
  | upstreamOverloaded
  | credentialDecryptFailed
  | translationFailed
  | modelNotFound
  | requestTooLarge
  | invalidRequest
  | unsupportedContentEncoding
  deriving DecidableEq

/-- The HTTP status of each router error class. -/
def RouterErrorCode.status : RouterErrorCode → ℕ
  | .noHealthyAccount => 503
  | .quotaExhausted => 429
  | .creditsExhausted => 402
  | .scopeViolation => 403
  | .keyRevoked => 401
  | .keyRateLimited => 429
  | .keyVerificationUnavailable => 503
  | .adminAuthFailed => 401
  | .csrfTokenInvalid => 403
  | .upstreamAuthFailed => 502
  | .upstreamTimeout => 504
  | .upstreamOverloaded => 503
  | .credentialDecryptFailed => 500
  | .translationFailed => 400
  | .modelNotFound => 404
  | .requestTooLarge => 413
  | .invalidRequest => 400
  | .unsupportedContentEncoding => 415

/-- The class name an error carries as its name. -/
def RouterErrorCode.name : RouterErrorCode → String
  | .noHealthyAccount => "NoHealthyAccountError"
  | .quotaExhausted => "QuotaExhaustedError"
  | .creditsExhausted => "CreditsExhaustedError"
  | .scopeViolation => "ScopeViolationError"
  | .keyRevoked => "KeyRevokedError"
  | .keyRateLimited => "KeyRateLimitedError"
  | .keyVerificationUnavailable => "KeyVerificationUnavailableError"
  | .adminAuthFailed => "AdminAuthError"
  | .csrfTokenInvalid => "CsrfTokenError"
  | .upstreamAuthFailed => "UpstreamAuthError"
  | .upstreamTimeout => "UpstreamTimeoutError"
  | .upstreamOverloaded => "UpstreamOverloadedError"
  | .credentialDecryptFailed => "CredentialDecryptError"
  | .translationFailed => "TranslationError"
  | .modelNotFound => "ModelNotFoundError"
  | .requestTooLarge => "RequestTooLargeError"
  | .invalidRequest => "InvalidRequestError"
  | .unsupportedContentEncoding => "UnsupportedContentEncodingError"

/-- The outcome a router error is recorded under. -/
def usageOutcomeForErrorCode : RouterErrorCode → UsageOutcome
  | .noHealthyAccount => .noHealthyAccount
  | .quotaExhausted => .quotaExhausted
  | .creditsExhausted => .creditsExhausted
  | .scopeViolation => .scopeViolation
  | .keyRevoked => .keyRevoked
  | .keyRateLimited => .keyRateLimited
  | .keyVerificationUnavailable => .routerError
  | .upstreamAuthFailed => .upstreamAuthFailed
  | .upstreamTimeout => .upstreamTimeout
  | .upstreamOverloaded => .upstreamError
  | .credentialDecryptFailed => .credentialDecryptFailed
  | .translationFailed => .translationFailed
  | .requestTooLarge => .requestTooLarge
  | .invalidRequest => .clientError
  | .unsupportedContentEncoding => .clientError
  | .adminAuthFailed => .routerError
  | .csrfTokenInvalid => .routerError
  | .modelNotFound => .clientError

/-- What a request can fail with; a thrown value that is no error has no name. -/
inductive RequestError
  | routerShutdown
  | requestAdmissionUnavailable
  | clientCancelled
  | router (code : RouterErrorCode)
  | other (name : Option String)
  deriving DecidableEq

/-- The status the failure is rendered with, whatever the dialect. -/
def RequestError.responseStatus : RequestError → ℕ
  | .clientCancelled => 499
  | .routerShutdown => 503
  | .requestAdmissionUnavailable => 503
  | .other _ => 500
  | .router code => code.status

/-- The outcome an error ends an attempt with. -/
def outcomeOf : RequestError → UsageOutcome
  | .router code => usageOutcomeForErrorCode code
  | _ => .routerError

/-- The thrown class's name. -/
def errorClassOf : RequestError → Option String
  | .routerShutdown => some "RouterShutdownError"
  | .requestAdmissionUnavailable => some "RequestAdmissionUnavailableError"
  | .clientCancelled => some "ClientCancelledError"
  | .router code => some code.name
  | .other name => name

/-- One row per attempt. -/
structure UsageRecord where
  eventId : String
  correlationId : String
  clientRequestId : Option String
  attempt : ℕ
  apiKeyId : Option String
  accountId : Option String
  poolId : Option String
  provider : Option ProviderId
  sessionKey : Option String
  model : Option String
  upstreamModel : Option String
  ingressDialect : Option Dialect
  egressMode : Option EgressMode
  tokensIn : ℕ
  tokensOut : ℕ
  cacheReadTokens : ℕ
  cacheWriteTokens : ℕ
  costEstimate : Option String
  costBasis : CostBasis
  latencyMs : Int
  ttfbMs : Option Int
  routerOverheadMs : Int
  outcome : UsageOutcome
  streamed : Bool
  httpStatus : Option ℕ
  responseStatus : Option ℕ
  errorClass : Option String
  startedAt : Instant
  finishedAt : Instant
  deriving DecidableEq

/-- A written row is its event: only the caller's status may have been filled in. -/
def UsageRecord.RowOf (event row : UsageRecord) : Prop :=
  row = { event with responseStatus := row.responseStatus }

/-- A row is decidably its event's. -/
instance (event row : UsageRecord) : Decidable (event.RowOf row) :=
  inferInstanceAs (Decidable (row = { event with responseStatus := row.responseStatus }))

/-- Who a request's settlement is attributed to. -/
inductive AttributionKind
  | winningAttempt
  | unstarted
  | abandoned
  deriving DecidableEq

/-- One settlement per request. -/
structure UsageRequestTerminal where
  correlationId : String
  winnerEventId : Option String
  apiKeyId : Option String
  accountId : Option String
  poolId : Option String
  provider : Option ProviderId
  model : Option String
  upstreamModel : Option String
  outcome : UsageOutcome
  errorClass : Option String
  responseStatus : Option ℕ
  httpStatus : Option ℕ
  startedAt : Instant
  settledAt : Instant
  attributionKind : AttributionKind
  deriving DecidableEq

end MultiAiRouter.Dataplane
