import MultiAiRouter.Common.Run
import MultiAiRouter.Routing.Failover

/-!
# The failover chain

`runChain` as a step function: one turn of its loop reads the planner's decision and what the environment answers,
and drops the candidate, folds a failed attempt in, or ends. A refused probe and an attempt that never started only
drop the candidate; a designated recovery attempt that failed is dropped too, but stays counted. The log keeps every
decision, newest first.

The answers the chain renders do not feed back into this state, so they are left out.
-/

namespace MultiAiRouter.Dataplane

open Common Routing

/-- What a chain is given: the planned candidates, the limits, and whether recovery is wired. -/
structure ChainContext where
  plan : List Candidate
  failover : FailoverOptions := {}
  recoveryWired : Bool := false

/-- Building the upstream body: done, refused by the router, or an unexpected throw. -/
inductive BodyBuild
  | built
  | refused (message : String)
  | crashed

/-- How a dispatch ended. -/
inductive Dispatched
  | threw
  | admissionRefused
  | failure (failure : AttemptFailure) (started : Bool)
  | success
  | cancelled

/-- Everything one turn of the loop asks of its environment. -/
structure Turn where
  aborted : Bool := false
  probeAdmitted : Bool := true
  body : BodyBuild := .built
  dispatched : Dispatched

/-- What became of a decision. -/
inductive Settled
  | refused
  | unprepared
  | invalid
  | failed (kind : FailureKind)
  | served
  | ended
  deriving DecidableEq

/-- One decision of the planner, the candidate it names, and what became of it. -/
structure ChainEntry where
  decision : FailoverDecision
  candidate : Candidate
  settled : Settled

/-- How the loop ended. -/
inductive ChainResult
  | stopped (reason : FailoverStopReason)
  | unplanned
  | served (candidate : Candidate) (sessionRestart : Bool)
  | cancelled
  | threw

/-- The loop was left with no candidate to go on with. -/
def ChainResult.exhausted : ChainResult → Bool
  | .stopped _ | .unplanned => true
  | _ => false

/-- The variables the loop carries, and the log of its decisions. -/
structure ChainState where
  ordered : List Candidate
  progress : FailoverProgress := noAttempts
  lastFailure : Option AttemptFailure := none
  result : Option ChainResult := none
  log : List ChainEntry := []

/-- The loop before its first turn. -/
def ChainContext.start (ctx : ChainContext) : ChainState := { ordered := ctx.plan }

/-- The candidates without this account. -/
def dropAccount (ordered : List Candidate) (accountId : String) : List Candidate :=
  ordered.filter fun candidate => candidate.account.id != accountId

/-- A recovery attempt is designated for a half-open candidate or one behind a recovery gate. -/
def designated (ctx : ChainContext) (candidate : Candidate) : Bool :=
  ctx.recoveryWired && (candidate.halfOpen || recoveryIsGated candidate.account)

/-- The decision's attempt starts the session over. -/
def restartsSession : FailoverDecision → Bool
  | .attempt _ _ _ sessionRestart => sessionRestart
  | _ => false

section Loop

variable (ctx : ChainContext) (state : ChainState) (decision : FailoverDecision) (candidate : Candidate)

/-- Log what became of the decision. -/
def ChainState.logged (settled : Settled) : ChainState :=
  { state with log := ⟨decision, candidate, settled⟩ :: state.log }

/-- The candidate is dropped and nothing counts as attempted. -/
def ChainState.dropped (settled : Settled) : ChainState :=
  { state.logged decision candidate settled with
    ordered := dropAccount state.ordered candidate.account.id }

/-- The progress once the attempt is counted. -/
def ChainState.counted : FailoverProgress :=
  recordAttempt state.progress candidate.account.id (inPlaceReason decision)

/-- The request itself is at fault: counted, and the next turn stops on it. -/
def ChainState.invalidated (message : String) : ChainState :=
  { state.logged decision candidate .invalid with
    progress := state.counted decision candidate
    lastFailure := some { kind := .clientError, message } }

/-- A started attempt failed: counted, remembered, and dropped if it was designated. -/
def ChainState.failedWith (failure : AttemptFailure) : ChainState :=
  { state.logged decision candidate (.failed failure.kind) with
    ordered := if designated ctx candidate then dropAccount state.ordered candidate.account.id
      else state.ordered
    progress := noteOverload (state.counted decision candidate) candidate.account.id failure.kind
    lastFailure := some failure }

/-- The loop is over after this decision. -/
def ChainState.over (settled : Settled) (result : ChainResult) : ChainState :=
  { state.logged decision candidate settled with
    progress := state.counted decision candidate
    result := some result }

/-- Send the decision's attempt and fold in what came of it. -/
def dispatchTurn (turn : Turn) : ChainState :=
  match turn.body, turn.dispatched with
  | .crashed, _ => state.over decision candidate .ended .threw
  | .refused message, _ => state.invalidated decision candidate message
  | .built, .threw => state.dropped decision candidate .unprepared
  | .built, .admissionRefused => state.dropped decision candidate .refused
  | .built, .failure failure false =>
    if failure.kind = .clientError then state.invalidated decision candidate failure.message
    else state.dropped decision candidate .unprepared
  | .built, .failure failure true => state.failedWith ctx decision candidate failure
  | .built, .success =>
    { state.over decision candidate .served (.served candidate (restartsSession decision)) with
      progress := markStreamed (state.counted decision candidate) }
  | .built, .cancelled => state.over decision candidate .ended .cancelled

/-- Admit the attempt: it must be planned, and a half-open candidate must hold the probe. -/
def admitTurn (turn : Turn) : ChainState :=
  if !decide (candidate.account.id ∈ ctx.plan.map fun planned => planned.account.id) then
    { state with result := some .unplanned }
  else if candidate.halfOpen && !turn.probeAdmitted then state.dropped decision candidate .refused
  else dispatchTurn ctx state decision candidate turn

end Loop

/-- One turn of the loop; a finished loop stays as it is. -/
def chainStep (ctx : ChainContext) (state : ChainState) (turn : Turn) : ChainState :=
  if state.result.isSome then state
  else if turn.aborted then { state with result := some .cancelled }
  else
    match planNextAttempt state.ordered state.progress state.lastFailure ctx.failover with
    | .stop reason => { state with result := some (.stopped reason) }
    | .attempt candidate attempt invalidateBinding sessionRestart =>
      admitTurn ctx state (.attempt candidate attempt invalidateBinding sessionRestart) candidate turn
    | .retryInPlace candidate attempt delayMs =>
      admitTurn ctx state (.retryInPlace candidate attempt delayMs) candidate turn

/-- The loop after these turns. -/
def runChain (ctx : ChainContext) (turns : List Turn) : ChainState :=
  runFrom (chainStep ctx) ctx.start turns

end MultiAiRouter.Dataplane
