import MultiAiRouter.Routing.Types

/-!
# The error of a selection that has no candidate

When every candidate is unavailable the request fails with one error whose status names the cause: 403 when nothing
is in scope, 429 when a clock recovers some account, 402 when only balances are missing, 503 otherwise. The message
accounts for every rejected member.
-/

namespace MultiAiRouter.Routing

/-- The source's spelling of a filter reason. -/
def FilterReason.text : FilterReason → String
  | .disabled => "disabled"
  | .needsReauth => "needs-reauth"
  | .exhausted => "exhausted"
  | .coolingDown => "cooling-down"
  | .credentialRejected => "credential-rejected"
  | .probeInFlight => "probe-in-flight"
  | .quotaWindowSpent => "quota-window-spent"
  | .modelUnsupported => "model-unsupported"

/-- The source's spelling of a reset's provenance. -/
def ResetSource.text : ResetSource → String
  | .providerReported => "provider-reported"
  | .estimated => "estimated"
  | .unknown => "unknown"

/-- The source's spelling of a scope's kind. -/
def KeyScopeSnapshot.kind : KeyScopeSnapshot → String
  | .all => "all"
  | .pools _ => "pools"
  | .accounts _ => "accounts"

/-- Decimal digits padded with zeros to a width. -/
def padded (width : Nat) (value : Nat) : String :=
  let digits := toString value
  String.ofList (List.replicate (width - digits.length) '0') ++ digits

/-- The proleptic Gregorian year, month and day of a day count since the epoch. -/
def civilFromDays (days : Int) : Int × Nat × Nat :=
  let z := days + 719468
  let era := z.fdiv 146097
  let doe := (z - era * 146097).toNat
  let yoe := (doe - doe / 1460 + doe / 36524 - doe / 146096) / 365
  let doy := doe - (365 * yoe + yoe / 4 - yoe / 100)
  let mp := (5 * doy + 2) / 153
  let month := if mp < 10 then mp + 3 else mp - 9
  let year : Int := yoe + era * 400
  (if month ≤ 2 then year + 1 else year, month, doy - (153 * mp + 2) / 5 + 1)

/-- `Date.prototype.toISOString`. -/
def toISOString (instant : Instant) : String :=
  let day := instant.fdiv 86400000
  let ms := (instant - day * 86400000).toNat
  let (year, month, date) := civilFromDays day
  let yearText :=
    if 0 ≤ year ∧ year ≤ 9999 then padded 4 year.toNat
    else (if year < 0 then "-" else "+") ++ padded 6 year.natAbs
  yearText ++ "-" ++ padded 2 month ++ "-" ++ padded 2 date ++ "T" ++ padded 2 (ms / 3600000) ++ ":" ++
    padded 2 (ms / 60000 % 60) ++ ":" ++ padded 2 (ms / 1000 % 60) ++ "." ++ padded 3 (ms % 1000) ++ "Z"

/-- One account the verdict names. -/
structure WalledAccount where
  accountId : String
  state : String
  resetsAt : Option Instant := none
  deriving DecidableEq

/-- What a throw site knows beyond the class. -/
structure RouterErrorDetail where
  scope : Option String := none
  signal : Option String := none
  resetSource : Option ResetSource := none
  accounts : List WalledAccount := []
  pools : List String := []
  deriving DecidableEq

/-- The walls a 503 may name. -/
inductive NoHealthyAccountWall
  | capacity
  | human
  | scope
  deriving DecidableEq

/-- The errors selection fails with. -/
inductive RouterError
  | quotaExhausted (message : String) (resetsAt : Option Instant) (retryAfterSeconds : Int)
      (detail : RouterErrorDetail)
  | creditsExhausted (message : String) (detail : RouterErrorDetail)
  | scopeViolation (message : String) (detail : RouterErrorDetail)
  | noHealthyAccount (message : String) (wall : NoHealthyAccountWall) (detail : RouterErrorDetail)
  deriving DecidableEq

/-- The HTTP status a class is rendered with. -/
def RouterError.status : RouterError → Nat
  | .quotaExhausted .. => 429
  | .creditsExhausted .. => 402
  | .scopeViolation .. => 403
  | .noHealthyAccount .. => 503

/-- What the error is built from: the decision, the clock, and the client's own model name. -/
structure NoCandidatesInput where
  scope : ScopeDiagnostics
  groups : List GroupDecision
  rejected : List RejectedCandidate
  binding : BindingDecision
  now : Instant
  unknownResetRetryAfterSeconds : Option Int := none
  model : Option String := none

/-- The retry pause when no reset instant is known. -/
def defaultUnknownResetRetryAfterSeconds : Int := 30

/-- Beside an instant the provider did not report itself. -/
def qualifier : Option ResetSource → String
  | none => ""
  | some .providerReported => ""
  | some source => " (" ++ source.text ++ ")"

/-- `account` or `accounts`. -/
def accountWord (count : Nat) : String := if count = 1 then "account" else "accounts"

/-- The labels of the rejected members. -/
def labels (entries : List RejectedCandidate) : String :=
  ", ".intercalate (entries.map fun entry => entry.label)

/-- The names of the pools the request went through. -/
def poolNames (groups : List GroupDecision) : List String :=
  groups.filterMap fun group => group.poolName

/-- Where the members were looked for. -/
def placed (groups : List GroupDecision) : String :=
  match poolNames groups with
  | [] => ""
  | [name] => " in pool " ++ name
  | names => " in pools " ++ ", ".intercalate names

/-- How many scope targets no longer exist. -/
def unresolvedClause (scope : ScopeDiagnostics) : String :=
  let count := scope.unresolvedTargetIds.length
  if count = 0 then ""
  else " (" ++ toString count ++ " scope " ++ (if count = 1 then "target" else "targets") ++
    " no longer exist)"

/-- The label and the condition, in the operator's words. -/
def describe (entry : RejectedCandidate) : String :=
  if entry.reason = .needsReauth then entry.label ++ " needs re-auth"
  else if entry.reason = .credentialRejected then
    let retest := match entry.resetsAt with
      | none => ""
      | some reset => ", re-checked after " ++ toISOString reset ++ qualifier entry.resetSource
    entry.label ++ " credential rejected upstream" ++ retest
  else entry.label ++ " " ++ entry.reason.text

/-- The condition a blocked binding waits on. -/
def blockedCondition : FilterReason → String
  | .quotaWindowSpent => "out of quota until its window resets"
  | .probeInFlight => "settling a recovery probe"
  | _ => "cooling down"

/-- What the recoverable members are waiting on. -/
def recoverableCondition (entries : List RejectedCandidate) : String :=
  let probe := entries.any fun entry => entry.reason == .probeInFlight
  let quota := entries.any fun entry => entry.reason != .probeInFlight
  if !probe then "rate limited or out of quota"
  else if quota then "rate limited or out of quota, or settling a recovery probe"
  else "settling a recovery probe"

/-- A reset instant with its provenance, and the reason of the account it belongs to. -/
structure Reset where
  resetsAt : Option Instant := none
  resetSource : Option ResetSource := none
  reason : Option FilterReason := none
  deriving DecidableEq

/-- The rejection whose reset comes soonest; the first of equal ones stands. -/
def earliestRecoverable (entries : List RejectedCandidate) : Reset :=
  let earliest := entries.foldl (fun (earliest : Option (Instant × RejectedCandidate)) entry =>
    match entry.resetsAt, earliest with
    | none, _ => earliest
    | some reset, none => some (reset, entry)
    | some reset, some (held, _) => if reset < held then some (reset, entry) else earliest) none
  match earliest with
  | none => {}
  | some (reset, entry) => { resetsAt := some reset, resetSource := entry.resetSource, reason := some entry.reason }

/-- At least one second. -/
def retryAfterSeconds (resetsAt now : Instant) : Int :=
  max 1 (-((-(resetsAt - now)).fdiv 1000))

/-- The 429, with an honest floor instead of a fabricated instant when none is known. -/
def quotaError (message : String) (reset : Reset) (now : Instant) (unknownFloorSeconds : Int)
    (detail : RouterErrorDetail) : RouterError :=
  match reset.resetsAt with
  | none => .quotaExhausted (message ++ ", reset time unknown") none unknownFloorSeconds detail
  | some resetsAt =>
    .quotaExhausted (message ++ ", earliest reset " ++ toISOString resetsAt ++ qualifier reset.resetSource)
      (some resetsAt) (retryAfterSeconds resetsAt now)
      { detail with resetSource := some (reset.resetSource.getD .providerReported) }

/-- The rejected members the leading clause did not describe, each named by what fixes it. -/
def remainder (rejected : List RejectedCandidate) (described : Nat) : String :=
  if described = rejected.length then ""
  else
    let recoverable := rejected.filter fun entry => isRecoverableFilterReason entry.reason
    let exhausted := rejected.filter fun entry => entry.reason == .exhausted
    let human := rejected.filter fun entry =>
      entry.reason == .disabled || entry.reason == .needsReauth || entry.reason == .credentialRejected
    let unsupported := rejected.filter fun entry => entry.reason == .modelUnsupported
    let clauses :=
      (if 0 < recoverable.length ∧ 0 < exhausted.length then
        [toString exhausted.length ++ " more " ++ accountWord exhausted.length ++ " out of credits and " ++
          (if exhausted.length = 1 then "needs" else "need") ++ " a top-up (" ++ labels exhausted ++ ")"]
        else []) ++
      (if 0 < human.length then
        [toString human.length ++ " more " ++ (if human.length = 1 then "needs" else "need") ++
          " a human (" ++ ", ".intercalate (human.map describe) ++ ")"]
        else []) ++
      (if 0 < unsupported.length then
        [toString unsupported.length ++ " more " ++ (if unsupported.length = 1 then "does" else "do") ++
          " not serve this model — a client change (" ++ labels unsupported ++ ")"]
        else [])
    if clauses.isEmpty then "" else "; " ++ "; ".intercalate clauses

/-- Every member the request saw, by id and reason. -/
def poolDetail (input : NoCandidatesInput) (signal : Option FilterReason) : RouterErrorDetail :=
  { signal := signal.map FilterReason.text
    accounts := input.rejected.map fun entry =>
      { accountId := entry.accountId, state := entry.reason.text, resetsAt := entry.resetsAt }
    pools := poolNames input.groups }

/-- The error of a selection without candidates, for a binding that does not block it. -/
def unboundError (input : NoCandidatesInput) : RouterError :=
  let unknownFloor := input.unknownResetRetryAfterSeconds.getD defaultUnknownResetRetryAfterSeconds
  if input.scope.inScopeAccountIds.length = 0 then
    .scopeViolation ("no account is reachable through this key's scope (" ++ input.scope.scope.kind ++ ")" ++
      unresolvedClause input.scope) { signal := some "no-account-in-scope" }
  else
    let recoverable := input.rejected.filter fun entry => isRecoverableFilterReason entry.reason
    let exhausted := input.rejected.filter fun entry => entry.reason == .exhausted
    let total := input.rejected.length
    if 0 < recoverable.length then
      let earliest := earliestRecoverable recoverable
      quotaError (toString recoverable.length ++ " of " ++ toString total ++ " " ++ accountWord total ++
          placed input.groups ++ (if recoverable.length = 1 then " is " else " are ") ++
          recoverableCondition recoverable ++ " (" ++ labels recoverable ++ ")" ++
          remainder input.rejected recoverable.length)
        earliest input.now unknownFloor
        (poolDetail input (earliest.reason <|> recoverable.head?.map fun entry => entry.reason))
    else if 0 < exhausted.length then
      .creditsExhausted ((if exhausted.length = total then "all" else toString exhausted.length ++ " of") ++
          " " ++ toString total ++ " " ++ accountWord total ++ placed input.groups ++
          (if exhausted.length = 1 then " is" else " are") ++ " out of credits and " ++
          (if exhausted.length = 1 then "needs" else "need") ++ " a top-up (" ++ labels exhausted ++ ")" ++
          remainder input.rejected exhausted.length)
        (poolDetail input (some .exhausted))
    else if 0 < total ∧ (input.rejected.all fun entry => entry.reason == .modelUnsupported) then
      let named := match input.model with
        | none => "this model"
        | some model => "model \"" ++ model ++ "\""
      .noHealthyAccount ("no account" ++ placed input.groups ++ " serves " ++ named ++
          " — a client change (" ++ toString total ++ " " ++ accountWord total ++ " in scope: " ++
          labels input.rejected ++ ")")
        .scope (poolDetail input (some .modelUnsupported))
    else
      .noHealthyAccount ("no eligible account" ++ placed input.groups ++ ": " ++
          ", ".intercalate (input.rejected.map describe))
        (if 0 < total then .human else .capacity)
        (poolDetail input (input.rejected.head?.map fun entry => entry.reason))

/-- A blocked binding answers with its own 429; every other failure with the pool's. -/
def noCandidatesError (input : NoCandidatesInput) : RouterError :=
  match input.binding with
  | .blocked accountId reason resetsAt resetSource =>
    quotaError ("session is bound to account " ++ accountId ++ ", which is " ++ blockedCondition reason.val)
      { resetsAt, resetSource } input.now
      (input.unknownResetRetryAfterSeconds.getD defaultUnknownResetRetryAfterSeconds)
      { scope := some "session", signal := some reason.val.text
        accounts := [{ accountId, state := reason.val.text, resetsAt }] }
  | _ => unboundError input

/-- The clock-recoverable error is a 429 whether or not an instant is known. -/
@[simp] theorem quotaError_status (message : String) (reset : Reset) (now : Instant) (unknownFloorSeconds : Int)
    (detail : RouterErrorDetail) : (quotaError message reset now unknownFloorSeconds detail).status = 429 := by
  unfold quotaError
  split <;> rfl

/-- A blocked binding fails with a 429. -/
theorem noCandidatesError_blocked {input : NoCandidatesInput} {accountId : String}
    {reason : RecoverableFilterReason} {resetsAt : Option Instant} {resetSource : Option ResetSource}
    (h : input.binding = .blocked accountId reason resetsAt resetSource) :
    (noCandidatesError input).status = 429 := by
  simp [noCandidatesError, h]

end MultiAiRouter.Routing
