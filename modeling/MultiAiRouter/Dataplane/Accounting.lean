import MultiAiRouter.Dataplane.RequestSlots
import MultiAiRouter.Dataplane.UsageRecords

/-!
# Request accounting

The accounting of one request keeps back the newest event, so that the status of the answer can still be written on
it, and settles once. The lifetime in front of it drops every event after shutdown has abandoned the request.
-/

namespace MultiAiRouter.Dataplane

open Common Routing

/-- What the accounting of a request is built from. -/
structure AccountingInput where
  correlationId : String
  clientRequestId : Option String
  ingress : Dialect
  apiKeyId : String
  deriving DecidableEq

/-- What serving has found out about the request so far. -/
structure RequestProgress where
  startedAt : Instant
  requestStarted : Int
  bodyReadMs : Int := 0
  bodyReadWaitingSince : Option Int := none
  model : Option String := none
  deriving DecidableEq

/-- The accounting's own variables, and what it handed to its two writers. -/
structure RequestAccounting where
  pending : Option UsageRecord := none
  recorded : Bool := false
  responseStatus : Option ℕ := none
  latest : Option UsageRecord := none
  winner : Option UsageRecord := none
  winnerSelected : Bool := false
  finalized : Bool := false
  attempts : ℕ := 0
  attempted : List (String × UsageOutcome) := []
  written : List UsageRecord := []
  terminals : List UsageRequestTerminal := []
  deriving DecidableEq

/-- What surrounds one call: the clock's two readings, the progress, and a fresh event id. -/
structure Moment where
  now : Instant
  elapsed : Int
  progress : RequestProgress
  eventId : String
  deriving DecidableEq

/-- Whether a status is a success. -/
def isOk (status : ℕ) : Bool := 200 ≤ status && status ≤ 299

/-- A relayed upstream error is judged by its status. -/
def outcomeForResponse (status : ℕ) : UsageOutcome :=
  if isOk status then .success
  else if status < 500 then .clientError else .upstreamError

/-- The outcome a failed request is recorded under. -/
def failedOutcome : RequestError → UsageOutcome
  | .clientCancelled => .clientError
  | error => outcomeOf error

/-- The class a failed request's own event carries. -/
def preflightErrorClass : RequestError → Option String
  | .routerShutdown => some "router_shutdown"
  | .requestAdmissionUnavailable => some "request_admission_unavailable"
  | .clientCancelled => some "client_cancelled"
  | error => errorClassOf error

/-- The class a failed request's settlement carries. -/
def terminalErrorClass : RequestError → Option String
  | .routerShutdown => some "router_shutdown"
  | .clientCancelled => some "client_cancelled"
  | error => errorClassOf error

/-- The event of a request that failed before any attempt recorded one. -/
def preflightRecord (input : AccountingInput) (moment : Moment) (error : RequestError) :
    UsageRecord :=
  let elapsed := max 0 (moment.elapsed - moment.progress.requestStarted)
  let bodyReadMs := moment.progress.bodyReadMs +
    match moment.progress.bodyReadWaitingSince with
    | none => 0
    | some since => max 0 (moment.elapsed - since)
  { eventId := moment.eventId
    correlationId := input.correlationId
    clientRequestId := input.clientRequestId
    attempt := 1
    apiKeyId := some input.apiKeyId
    accountId := none
    poolId := none
    provider := none
    sessionKey := none
    model := moment.progress.model
    upstreamModel := none
    ingressDialect := some input.ingress
    egressMode := none
    tokensIn := 0
    tokensOut := 0
    cacheReadTokens := 0
    cacheWriteTokens := 0
    costEstimate := none
    costBasis := .unknown
    latencyMs := max 0 elapsed
    ttfbMs := none
    routerOverheadMs := max 0 (elapsed - 0 - bodyReadMs)
    outcome := failedOutcome error
    streamed := false
    httpStatus := none
    responseStatus := some error.responseStatus
    errorClass := preflightErrorClass error
    startedAt := moment.progress.startedAt
    finishedAt := moment.now }

/-- The settlement an event stands for. -/
def terminalOf (input : AccountingInput) (moment : Moment) (event : UsageRecord) :
    UsageRequestTerminal :=
  { correlationId := input.correlationId
    winnerEventId := if event.accountId = none then none else some event.eventId
    apiKeyId := some input.apiKeyId
    accountId := event.accountId
    poolId := event.poolId
    provider := event.provider
    model := event.model
    upstreamModel := event.upstreamModel
    outcome := event.outcome
    errorClass := event.errorClass
    responseStatus := event.responseStatus
    httpStatus := event.httpStatus
    startedAt := moment.progress.startedAt
    settledAt := moment.now
    attributionKind :=
      if event.accountId = none then .unstarted
      else if event.errorClass = some "router_shutdown" ∨
          event.errorClass = some "client_cancelled" then .abandoned
      else .winningAttempt }

namespace RequestAccounting

/-- Settle the request, the first time an event is there to settle it with. -/
def finalize (input : AccountingInput) (moment : Moment) (accounting : RequestAccounting) :
    Option UsageRecord → RequestAccounting
  | none => accounting
  | some event =>
    if accounting.finalized then accounting
    else
      { accounting with
        finalized := true
        terminals := accounting.terminals ++ [terminalOf input moment event] }

/-- Write the event kept back, its status withheld when another attempt won. -/
def flush (accounting : RequestAccounting) (status : Option ℕ) : RequestAccounting :=
  match accounting.pending with
  | none => accounting
  | some event =>
    let lost := accounting.winnerSelected && event.accountId.isSome &&
      some event.eventId != accounting.winner.map (·.eventId)
    { accounting with
      written := accounting.written ++
        [{ event with responseStatus := if lost then none else status }]
      pending := none }

/-- The event that settles the request: the winner, else the newest without its account. -/
def terminalEvent (accounting : RequestAccounting) : Option UsageRecord :=
  if accounting.winnerSelected then
    accounting.winner.or (accounting.latest.map fun latest =>
      { latest with
        accountId := none
        poolId := none
        provider := none
        upstreamModel := none
        httpStatus := none })
  else accounting.latest

/-- Count an attempt and keep its account's newest outcome last. -/
def countAttempt (accounting : RequestAccounting) (event : UsageRecord) : RequestAccounting :=
  match event.accountId with
  | none => accounting
  | some accountId =>
    { accounting with
      attempts := accounting.attempts + 1
      attempted := accounting.attempted.filter (fun entry => entry.1 != accountId) ++ [(accountId, event.outcome)] }

/-- Keep the event back, or write it at once when the answer's status is known. -/
def record (accounting : RequestAccounting) (event : UsageRecord) : RequestAccounting :=
  let flushed :=
    ({ accounting.countAttempt event with latest := some event, recorded := true }).flush none
  match flushed.responseStatus with
  | some status =>
    { flushed with written := flushed.written ++ [{ event with responseStatus := some status }] }
  | none => { flushed with pending := some event }

/-- Name the attempt whose answer the client gets. -/
def selectTerminal (accounting : RequestAccounting) (event : Option UsageRecord) :
    RequestAccounting :=
  { accounting with winner := event, winnerSelected := true }

/-- Record the event that settles the request. -/
def recordTerminal (input : AccountingInput) (moment : Moment) (accounting : RequestAccounting)
    (event : UsageRecord) : RequestAccounting :=
  (accounting.record event).finalize input moment (some event)

/-- Write what is kept back and settle with the newest event. -/
def abandon (input : AccountingInput) (moment : Moment) (accounting : RequestAccounting) :
    RequestAccounting :=
  let flushed := accounting.flush
    (accounting.responseStatus.or (accounting.pending.bind (·.responseStatus)))
  flushed.finalize input moment flushed.latest

/-- The answer's status is known: a failed answer settles the request. -/
def respond (input : AccountingInput) (moment : Moment) (accounting : RequestAccounting)
    (status : ℕ) : RequestAccounting :=
  let answered := { accounting with responseStatus := some status }
  let flushed := answered.flush
    (if isOk status then answered.pending.bind (·.responseStatus) else some status)
  if isOk status then flushed
  else flushed.finalize input moment (flushed.terminalEvent.map fun event =>
    { event with outcome := outcomeForResponse status, responseStatus := some status })

/-- Record the failure itself when nothing else was recorded. -/
def ensureRecorded (input : AccountingInput) (moment : Moment) (accounting : RequestAccounting)
    (error : RequestError) : RequestAccounting :=
  if accounting.recorded then accounting
  else accounting.record (preflightRecord input moment error)

/-- The request failed: record it if nothing did, and settle it. -/
def fail (input : AccountingInput) (moment : Moment) (accounting : RequestAccounting)
    (error : RequestError) : RequestAccounting :=
  let status := error.responseStatus
  let recorded := accounting.ensureRecorded input moment error
  let flushed := ({ recorded with responseStatus := some status }).flush (some status)
  flushed.finalize input moment (flushed.terminalEvent.map fun event =>
    { event with
      outcome := failedOutcome error
      errorClass := terminalErrorClass error
      responseStatus := some status })

end RequestAccounting

/-- What shutdown runs for a request, by how far the request got. -/
inductive AbandonCallback
  | shutdown
  | attempt
  | relay
  deriving DecidableEq

/-- The accounting behind the gate that shutdown closes. -/
structure RequestLifetime where
  accounting : RequestAccounting := {}
  abandoned : Bool := false
  lease : Option (ActiveRequestLease AbandonCallback) := none
  deriving DecidableEq

/-- The calls a dispatch makes, and the shutdown that reaches its lease. -/
inductive LifetimeCall
  | record (event : UsageRecord)
  | selectTerminal (event : Option UsageRecord)
  | recordTerminal (event : UsageRecord)
  | respond (status : ℕ)
  | fail (error : RequestError) (clientsOwnAbort : Bool)
  | setAbandon (callback : AbandonCallback)
  | release
  | stop (event : UsageRecord) (relaySettled : Bool)
  deriving DecidableEq

namespace RequestLifetime

/-- What the callback hands to the accounting before the request is abandoned. -/
def runCallback (input : AccountingInput) (moment : Moment) (lifetime : RequestLifetime)
    (event : UsageRecord) (relaySettled : Bool) : AbandonCallback → RequestAccounting
  | .shutdown => lifetime.accounting.fail input moment .routerShutdown
  | .attempt =>
    if lifetime.abandoned then lifetime.accounting else lifetime.accounting.record event
  | .relay =>
    if relaySettled || lifetime.abandoned then lifetime.accounting
    else lifetime.accounting.recordTerminal input moment event

/-- Shutdown reaches the lease: its callback, then the abandonment, then the release. -/
def stop (input : AccountingInput) (moment : Moment) (lifetime : RequestLifetime)
    (event : UsageRecord) (relaySettled : Bool) : RequestLifetime :=
  match lifetime.lease with
  | none => lifetime
  | some lease =>
    if lease.released then lifetime
    else
      match lease.callback with
      | none => { lifetime with lease := some lease.release }
      | some callback =>
        { accounting := (runCallback input moment lifetime event relaySettled callback).abandon input moment
          abandoned := true
          lease := some lease.release }

/-- One call on the lifetime. -/
def step (input : AccountingInput) (lifetime : RequestLifetime) (call : LifetimeCall × Moment) :
    RequestLifetime :=
  let accounting := lifetime.accounting
  match call.1 with
  | .record event =>
    if lifetime.abandoned then lifetime
    else { lifetime with accounting := accounting.record event }
  | .selectTerminal event =>
    if lifetime.abandoned then lifetime
    else { lifetime with accounting := accounting.selectTerminal event }
  | .recordTerminal event =>
    if lifetime.abandoned then lifetime
    else { lifetime with accounting := accounting.recordTerminal input call.2 event }
  | .respond status => { lifetime with accounting := accounting.respond input call.2 status }
  | .fail error clientsOwnAbort =>
    let failure := if clientsOwnAbort then .clientCancelled else error
    { lifetime with
      accounting :=
        if lifetime.abandoned then accounting else accounting.fail input call.2 failure
      lease := lifetime.lease.map (·.release) }
  | .setAbandon callback =>
    { lifetime with lease := lifetime.lease.map (·.setAbandon callback) }
  | .release => { lifetime with lease := lifetime.lease.map (·.release) }
  | .stop event relaySettled => lifetime.stop input call.2 event relaySettled

/-- Every call of a dispatch, in the order they are made. -/
def run (input : AccountingInput) (lifetime : RequestLifetime)
    (calls : List (LifetimeCall × Moment)) : RequestLifetime :=
  runFrom (step input) lifetime calls

end RequestLifetime

end MultiAiRouter.Dataplane
