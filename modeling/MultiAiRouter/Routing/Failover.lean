import MultiAiRouter.Routing.Filter
import Mathlib.Data.List.Dedup

/-!
# The failover decision

What a failed attempt means and where the next one goes: a retryable failure walks to the first candidate not yet
attempted, a stale session is replayed in place, and once the walk runs out an overloaded account may be asked again
after a doubling wait.
-/

namespace MultiAiRouter.Routing

/-- What kind of failure an attempt ended in. -/
inductive FailureKind
  | rateLimited
  | creditsExhausted
  | serverError
  | connection
  | timeout
  | auth
  | clientError
  | modelUnsupported
  | staleSession
  | busySession
  | overloaded
  deriving DecidableEq

/-- One failed attempt, with the reset it reported if any. -/
structure AttemptFailure where
  kind : FailureKind
  status : Option Nat := none
  resetsAt : Option Instant := none
  retryAfterSeconds : Option Rat := none
  resetSource : Option ResetSource := none
  message : String := ""
  deriving DecidableEq

/-- Failures that justify walking to the next candidate. -/
def retryableFailureKinds : List FailureKind :=
  [.rateLimited, .creditsExhausted, .serverError, .connection, .timeout, .auth, .busySession,
    .modelUnsupported, .overloaded]

/-- The failure justifies walking to the next candidate. -/
def isRetryable (kind : FailureKind) : Bool := decide (kind ∈ retryableFailureKinds)

/-- A stale session earns one replay in place unless configured otherwise. -/
def defaultMaxInPlaceRetries : Nat := 1

/-- The operator's limits on one request, and the account its session is bound to. -/
structure FailoverOptions where
  maxAttempts : Option Int := none
  maxInPlaceRetries : Option Nat := none
  overloadRetries : Option Int := none
  overloadRetryBaseMs : Option Int := none
  boundAccountId : Option String := none
  deriving DecidableEq

/-- What the request has spent so far. -/
structure FailoverProgress where
  attemptedAccountIds : List String := []
  inPlaceRetries : Nat := 0
  overloadRetries : Nat := 0
  bytesStreamed : Bool := false
  overloadedAccountId : Option String := none
  deriving DecidableEq

/-- Nothing attempted yet. -/
def noAttempts : FailoverProgress := {}

/-- Why the walk ended. -/
inductive FailoverStopReason
  | bytesStreamed
  | notRetryable
  | attemptsExhausted
  | candidatesExhausted
  deriving DecidableEq

/-- Attempt a new account, retry the same one in place, or stop. -/
inductive FailoverDecision
  | attempt (candidate : Candidate) (attempt : Nat) (invalidateBinding sessionRestart : Bool)
  | retryInPlace (candidate : Candidate) (attempt : Nat) (delayMs : Option Int)
  | stop (reason : FailoverStopReason)

/-- The head of the list, with no binding left behind. -/
def firstAttempt (ordered : List Candidate) (progress : FailoverProgress) : FailoverDecision :=
  match ordered with
  | [] => .stop .candidatesExhausted
  | head :: _ => .attempt head (progress.attemptedAccountIds.length + 1) false false

/-- The candidate with this id among those still offered. -/
def findCandidate (ordered : List Candidate) (accountId : Option String) : Option Candidate :=
  ordered.find? fun candidate => some candidate.account.id == accountId

/-- How many replays a stale session may take. -/
def replayCap (options : FailoverOptions) : Nat :=
  options.maxInPlaceRetries.getD defaultMaxInPlaceRetries

/-- How many waits on a busy provider the operator allows. -/
def overloadCap (options : FailoverOptions) : Nat := (max 0 (options.overloadRetries.getD 0)).toNat

/-- Replay a stale session on the account at the end of the attempted list. -/
def replayInPlace (ordered : List Candidate) (progress : FailoverProgress) (options : FailoverOptions) :
    FailoverDecision :=
  if replayCap options ≤ progress.inPlaceRetries then .stop .notRetryable
  else
    match findCandidate ordered progress.attemptedAccountIds.getLast? with
    | none => .stop .candidatesExhausted
    | some candidate => .retryInPlace candidate progress.attemptedAccountIds.length none

/-- Candidates still offered plus those attempted and no longer offered. -/
def plannedCount (ordered : List Candidate) (progress : FailoverProgress) : Nat :=
  let offered := ordered.map fun candidate => candidate.account.id
  ordered.length + (progress.attemptedAccountIds.filter fun id => !decide (id ∈ offered)).dedup.length

/-- Every planned account, unless the operator set a lower ceiling. -/
def attemptCeiling (planned : Nat) (options : FailoverOptions) : Nat :=
  match options.maxAttempts with
  | none => planned
  | some configured => min (max 1 configured).toNat planned

/-- Ask a busy account again after a doubling wait, while the operator's budget lasts. -/
def waitOutOverload (ordered : List Candidate) (progress : FailoverProgress) (lastFailure : AttemptFailure)
    (options : FailoverOptions) (exhausted : FailoverStopReason) : FailoverDecision :=
  let busyId :=
    if lastFailure.kind = .overloaded then progress.attemptedAccountIds.getLast?
    else progress.overloadedAccountId
  if busyId.isNone then .stop exhausted
  else if overloadCap options ≤ progress.overloadRetries then .stop exhausted
  else
    match findCandidate ordered busyId with
    | none => .stop exhausted
    | some candidate =>
      .retryInPlace candidate progress.attemptedAccountIds.length
        (some (max 0 (options.overloadRetryBaseMs.getD 0) * 2 ^ progress.overloadRetries))

/-- Attempt a new account, saying whether the walk leaves the bound one and restarts its session. -/
def attemptOn (next : Candidate) (ordered : List Candidate) (progress : FailoverProgress)
    (options : FailoverOptions) : FailoverDecision :=
  let leavingBound : Bool :=
    match options.boundAccountId with
    | none => false
    | some boundId => boundId != next.account.id && decide (boundId ∈ progress.attemptedAccountIds)
  let bound := findCandidate ordered options.boundAccountId
  .attempt next (progress.attemptedAccountIds.length + 1) leavingBound
    (leavingBound && bound.any fun candidate => candidate.account.provider == .anthropicOauth)

/-- The first offered candidate that was not attempted yet. -/
def nextCandidate (ordered : List Candidate) (progress : FailoverProgress) : Option Candidate :=
  ordered.find? fun candidate => !decide (candidate.account.id ∈ progress.attemptedAccountIds)

/-- Where the next attempt goes. -/
def planNextAttempt (ordered : List Candidate) (progress : FailoverProgress)
    (lastFailure : Option AttemptFailure) (options : FailoverOptions) : FailoverDecision :=
  match lastFailure with
  | none => firstAttempt ordered progress
  | some lastFailure =>
    if progress.bytesStreamed then .stop .bytesStreamed
    else if lastFailure.kind = .staleSession then replayInPlace ordered progress options
    else if !isRetryable lastFailure.kind then .stop .notRetryable
    else if attemptCeiling (plannedCount ordered progress) options ≤ progress.attemptedAccountIds.length then
      waitOutOverload ordered progress lastFailure options .attemptsExhausted
    else
      match nextCandidate ordered progress with
      | none => waitOutOverload ordered progress lastFailure options .candidatesExhausted
      | some next => attemptOn next ordered progress options

/-- Why an attempt went to the same account again. -/
inductive InPlaceReason
  | replay
  | overload
  deriving DecidableEq

/-- Only an overload wait states a delay. -/
def inPlaceReason : FailoverDecision → Option InPlaceReason
  | .retryInPlace _ _ none => some .replay
  | .retryInPlace _ _ (some _) => some .overload
  | _ => none

/-- Fold one dispatched attempt into the progress. -/
def recordAttempt (progress : FailoverProgress) (accountId : String) :
    Option InPlaceReason → FailoverProgress
  | none => { progress with attemptedAccountIds := progress.attemptedAccountIds ++ [accountId] }
  | some .overload => { progress with overloadRetries := progress.overloadRetries + 1 }
  | some .replay => { progress with inPlaceRetries := progress.inPlaceRetries + 1 }

/-- `overloaded` names the account to wait out; anything else from that account forgets it. -/
def noteOverload (progress : FailoverProgress) (accountId : String) (kind : FailureKind) :
    FailoverProgress :=
  if kind = .overloaded then { progress with overloadedAccountId := some accountId }
  else if progress.overloadedAccountId ≠ some accountId then progress
  else { progress with overloadedAccountId := none }

@[simp] theorem noteOverload_attemptedAccountIds (progress : FailoverProgress) (accountId : String)
    (kind : FailureKind) :
    (noteOverload progress accountId kind).attemptedAccountIds = progress.attemptedAccountIds := by
  unfold noteOverload
  split_ifs <;> rfl

@[simp] theorem noteOverload_inPlaceRetries (progress : FailoverProgress) (accountId : String)
    (kind : FailureKind) : (noteOverload progress accountId kind).inPlaceRetries = progress.inPlaceRetries := by
  unfold noteOverload
  split_ifs <;> rfl

@[simp] theorem noteOverload_overloadRetries (progress : FailoverProgress) (accountId : String)
    (kind : FailureKind) : (noteOverload progress accountId kind).overloadRetries = progress.overloadRetries := by
  unfold noteOverload
  split_ifs <;> rfl

/-- An account remembered as overloaded just answered so, or was remembered and is another account. -/
theorem noteOverload_remembered {progress : FailoverProgress} {accountId remembered : String}
    {kind : FailureKind} (h : (noteOverload progress accountId kind).overloadedAccountId = some remembered) :
    (remembered = accountId ∧ kind = .overloaded) ∨
      (remembered ≠ accountId ∧ progress.overloadedAccountId = some remembered) := by
  unfold noteOverload at h
  split_ifs at h with hkind hsame
  · simp only [Option.some.injEq] at h
    exact Or.inl ⟨h.symm, hkind⟩
  · refine Or.inr ⟨fun heq => hsame ?_, h⟩
    rw [h, heq]

@[simp] theorem recordAttempt_overloadedAccountId (progress : FailoverProgress) (accountId : String)
    (reason : Option InPlaceReason) :
    (recordAttempt progress accountId reason).overloadedAccountId = progress.overloadedAccountId := by
  rcases reason with _ | _ | _ <;> rfl

/-- The first byte reached the client. -/
def markStreamed (progress : FailoverProgress) : FailoverProgress :=
  { progress with bytesStreamed := true }

end MultiAiRouter.Routing
