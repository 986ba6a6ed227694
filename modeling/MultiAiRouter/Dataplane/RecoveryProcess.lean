import MultiAiRouter.Dataplane.Health
import MultiAiRouter.Recovery.Coordinator
import MultiAiRouter.Recovery.PermitRows

/-!
# Recovery permits on the request path

A permit this boot was issued is installed off the path as a capability, and consumed by the start guard of a
designated attempt under the account's live health and quota. The process of one account: its rows, its catalog
entry, the exposure of issued rows, the installed capability, and the attempts that race for it. What runs between
two awaits is one event.
-/

namespace MultiAiRouter.Dataplane

open Common Routing Recovery

section Overlay

/-- The account's routing view with live health overlaid. -/
def overlayHealth (account : AccountSnapshot) (state : AccountHealthState) : AccountSnapshot :=
  let configuredBlocks :=
    account.status = .disabled ∨ account.status = .needsReauth ∨ account.status = .exhausted
  let quotaWindows := mergeQuotaWindows (account.quotaWindows.getD []) (some state.quotaWindows)
  let limiterWindows := state.limiterWindows.map RateLimitWindow.toLimiterReading
  { account with
    status := if configuredBlocks ∨ state.breaker.status = .active then account.status else state.breaker.status
    quotaWindows := if quotaWindows.length = 0 then account.quotaWindows else some quotaWindows
    limiterWindows := if limiterWindows.length = 0 then account.limiterWindows else some limiterWindows
    health :=
      { cooldownUntil := state.breaker.cooldownUntil
        cooldownSource := some state.breaker.cooldownSource
        cooldownReason := state.breaker.cooldownReason
        consecutiveFailures := state.breaker.consecutiveFailures
        inFlight := state.inFlight
        recentTokens := state.recentTokens
        probeHeldUntil := state.probeHeldUntil } }

end Overlay

section Capabilities

/-- A permit of this boot, with everything it was issued for. -/
structure RecoveryCapability where
  revision : ℕ
  accountId : String
  generation : String
  permitId : String
  ownerBootId : String
  ownershipEpoch : ℕ
  expected : AccountObservation
  quotaRevisions : List (QuotaWindowKind × ℕ)
  deriving DecidableEq

/-- What the catalog shows of an account whose recovery is issued. -/
structure CurrentRecoveryFacts extends AccountObservation where
  generation : String
  recoveryRevision : ℕ
  deriving DecidableEq

/-- The capability of an account, and whether it was spent. -/
structure HeldCapability where
  capability : RecoveryCapability
  consumed : Bool
  deriving DecidableEq

/-- The catalog still shows the account, active or cooling, as the permit was issued for it. -/
def RecoveryCapability.isCurrent (capability : RecoveryCapability) (current : Option CurrentRecoveryFacts) : Bool :=
  current.any fun current =>
    (current.status == .active || current.status == .coolingDown) &&
      current.generation == capability.generation &&
      current.recoveryRevision == capability.revision &&
      current.lifecycleVersion == capability.expected.lifecycleVersion &&
      current.authMaterial == capability.expected.authMaterial

variable (current : Option CurrentRecoveryFacts) (held : Option HeldCapability)

/-- Install a capability, unless an installed one is of the same or a later revision. Installing the
installed one again answers whether it is unspent. -/
def installCapability (bootId : String) (capability : RecoveryCapability) : Bool × Option HeldCapability :=
  if capability.ownerBootId ≠ bootId ∨ !capability.isCurrent current then (false, held)
  else
    match held with
    | none => (true, some { capability, consumed := false })
    | some installed =>
      if capability.revision < installed.capability.revision then (false, held)
      else if installed.capability.generation = capability.generation ∧
          installed.capability.permitId = capability.permitId then (!installed.consumed, held)
      else if capability.revision = installed.capability.revision then (false, held)
      else (true, some { capability, consumed := false })

/-- The unspent capability, while it is current. -/
def availableCapability : Option RecoveryCapability :=
  match held with
  | none => none
  | some installed =>
    if !installed.consumed && installed.capability.isCurrent current then some installed.capability else none

/-- Spend the capability of this generation. -/
def consumeCapability (generation : String) : Option RecoveryCapability × Option HeldCapability :=
  match held with
  | none => (none, held)
  | some installed =>
    if installed.consumed || installed.capability.generation != generation ||
        !installed.capability.isCurrent current then (none, held)
    else (some installed.capability, some { installed with consumed := true })

/-- Whatever is installed is spent. -/
def invalidateCapability : Option HeldCapability := held.map fun installed => { installed with consumed := true }

/-- The permit's call is over. -/
def completedCapability (generation permitId : String) : Option HeldCapability :=
  held.map fun installed =>
    if installed.capability.generation = generation ∧ installed.capability.permitId = permitId then
      { installed with consumed := true }
    else installed

/-- The generation was written off: its unspent capability is spent. -/
def retireCapability (generation : String) : Option HeldCapability :=
  if (availableCapability current held).map RecoveryCapability.generation = some generation then
    invalidateCapability held
  else held

end Capabilities

section Attempts

/-- A catalog row as the request path reads it. -/
structure RoutableAccount where
  lifecycleVersion : ℕ
  authMaterial : Option String
  snapshot : AccountSnapshot

/-- What the capabilities compare with: nothing unless the catalog shows an issued recovery. -/
def readCurrent (catalog : Option RoutableAccount) : Option CurrentRecoveryFacts :=
  match catalog with
  | none => none
  | some account =>
    match account.snapshot.recovery with
    | none => none
    | some recovery =>
      if recovery.state ≠ .issued then none
      else
        some
          { lifecycleVersion := account.lifecycleVersion
            authMaterial := account.authMaterial
            status := account.snapshot.status
            generation := recovery.generation
            recoveryRevision := recovery.revision }

/-- A prepared attempt: what it captured, and what its guard did. -/
structure RecoveryAttempt where
  lifecycleVersion : ℕ
  authMaterial : Option String
  /-- The recovery generation the candidate was selected with. -/
  generation : Option String
  designated : Bool
  started : Bool := false
  consumed : Option RecoveryCapability := none
  deriving DecidableEq

/-- Prepare an attempt; a half-open or gated candidate is designated and needs the permit. -/
def prepareAttempt (account : RoutableAccount) (candidate : Candidate) : RecoveryAttempt where
  lifecycleVersion := account.lifecycleVersion
  authMaterial := account.authMaterial
  generation := candidate.account.recovery.map RecoverySnapshot.generation
  designated := candidate.halfOpen || recoveryIsGated candidate.account

/-- An ordinary attempt starts while the account is the one it captured, active, ungated and unspent. -/
def ordinaryStarts (attempt : RecoveryAttempt) (catalog : Option RoutableAccount) (health : AccountHealthState)
    (now : Instant) (threshold : Rat) : Bool :=
  catalog.any fun latest =>
    let live := overlayHealth latest.snapshot health
    latest.lifecycleVersion == attempt.lifecycleVersion && latest.authMaterial == attempt.authMaterial &&
      live.status == .active && !recoveryIsGated live && (findSpentWindow live now threshold).isNone

/-- Live health and quota let a designated attempt ask for its permit. -/
def designatedMayStart (catalog : Option RoutableAccount) (held : Option HeldCapability)
    (health : AccountHealthState) (now : Instant) (threshold : Rat) : Bool :=
  catalog.any fun latest =>
    let live := overlayHealth latest.snapshot health
    let permitted := { live with
      recovery := live.recovery.map fun recovery =>
        { recovery with localAvailable := (availableCapability (readCurrent catalog) held).isSome } }
    !(live.status == .disabled || live.status == .exhausted || live.status == .needsReauth) &&
      !(live.health.cooldownUntil.any fun deadline => decide (now < deadline)) &&
      recoveryAllowsQuota permitted now threshold

/-- The start guard: an ordinary attempt starts or is refused; a designated one consumes the permit of its
generation, or is refused. -/
def beforeUpstreamStart (attempt : RecoveryAttempt) (catalog : Option RoutableAccount)
    (held : Option HeldCapability) (health : AccountHealthState) (now : Instant) (threshold : Rat) :
    RecoveryAttempt × Option HeldCapability :=
  if !attempt.designated then
    ({ attempt with started := attempt.started || ordinaryStarts attempt catalog health now threshold }, held)
  else if !designatedMayStart catalog held health now threshold then (attempt, held)
  else
    match attempt.generation with
    | none => ({ attempt with consumed := none }, held)
    | some generation =>
      let (consumed, held) := consumeCapability (readCurrent catalog) held generation
      ({ attempt with consumed }, held)

/-- What an attempt that consumed a permit reports. -/
def reportedOutcome (capability : RecoveryCapability) (state : Verdict) : RecoveryOutcome where
  accountId := capability.accountId
  generation := capability.generation
  permitId := capability.permitId
  ownershipEpoch := capability.ownershipEpoch
  expected := capability.expected
  state := state

end Attempts

/-- What the process is configured with for the account. -/
structure RecoveryProcessConfig where
  accountId : String
  bootId : String
  maximumOutcomeMs : Int
  outcomeCapacity : ℕ
  deriving DecidableEq

/-- How far the exposure of an issued row has come. -/
inductive ExposureStage
  | findingAccount
  | hydrating (account : RecoveryAccount)
  | reconciling (capability : RecoveryCapability)
  | ended
  deriving DecidableEq

/-- The exposure of an issued row. -/
structure Exposure where
  row : RecoveryRow
  permitId : String
  stage : ExposureStage
  deriving DecidableEq

/-- One account of the process, and the database it shares with other boots. -/
structure RecoveryProcess where
  db : RecoveryDb
  catalog : Option RoutableAccount := none
  health : AccountHealthState := freshHealth
  held : Option HeldCapability := none
  exposures : List Exposure := []
  offered : Option String := none
  stopped : Bool := false
  attempts : List RecoveryAttempt := []
  outcomes : List RecoveryOutcome := []
  /-- Every outcome handed to the coordinator, with the attempt that reported it. -/
  reported : List (ℕ × RecoveryOutcome) := []

/-- What can happen next. -/
inductive RecoveryEvent
  | database (call : RecoveryCall)
  | catalog (account : Option RoutableAccount)
  | health (state : AccountHealthState)
  | stop
  | restart
  | expose (row : RecoveryRow)
  | findById (exposure : ℕ)
  | hydrate (exposure : ℕ)
  | reconciled (exposure : ℕ) (coherent : Bool)
  | invalidate
  | retire (generation : String)
  | completed (generation permitId : String)
  | outcomeWritten (outcome : RecoveryOutcome)
  | prepare (account : RoutableAccount) (candidate : Candidate)
  | beforeUpstreamStart (attempt : ℕ) (now : Instant) (quotaSpentThreshold : Rat)
  | finish (attempt : ℕ) (state : Verdict)

/-- What the coordinator saw of the account. -/
def observation (account : RecoveryAccount) : AccountObservation :=
  { lifecycleVersion := account.lifecycleVersion, authMaterial := account.authMaterial, status := account.status }

/-- The capability of a hydrated row. -/
def capabilityOf (config : RecoveryProcessConfig) (exposure : Exposure) (account : RecoveryAccount)
    (hydrated : RecoveryRow) : RecoveryCapability where
  revision := hydrated.revision
  accountId := config.accountId
  generation := exposure.row.generation
  permitId := exposure.permitId
  ownerBootId := config.bootId
  ownershipEpoch := exposure.row.ownershipEpoch
  expected := observation account
  quotaRevisions := exposure.row.quotaRevisions

/-- What hydrating an exposure asks the database. -/
def hydrateInput (config : RecoveryProcessConfig) (exposure : Exposure) (account : RecoveryAccount) : HydrateInput where
  generation := exposure.row.generation
  permitId := exposure.permitId
  ownerBootId := config.bootId
  expectedEpoch := exposure.row.ownershipEpoch
  expected := observation account
  maximumOutcomeAgeMs := config.maximumOutcomeMs

namespace RecoveryProcess

variable (fingerprint : Option String → String) (config : RecoveryProcessConfig) (process : RecoveryProcess)

/-- This exposure has come to this stage. -/
def setStage (index : ℕ) (exposure : Exposure) (stage : ExposureStage) : RecoveryProcess :=
  { process with exposures := process.exposures.set index { exposure with stage } }

/-- Begin to expose a row: an issued one of this boot whose permit was not offered last. -/
def expose (row : RecoveryRow) : RecoveryProcess :=
  match row.permitId with
  | none => process
  | some permitId =>
    if process.stopped || row.state != .issued || row.ownerBootId != some config.bootId ||
        process.offered == some permitId then process
    else { process with exposures := process.exposures ++ [{ row, permitId, stage := .findingAccount }] }

/-- The account was read. -/
def findById (index : ℕ) : RecoveryProcess :=
  match process.exposures[index]? with
  | some exposure =>
    if exposure.stage = .findingAccount then
      match process.db.account with
      | some account =>
        if process.stopped || restricted account.status then process.setStage index exposure .ended
        else process.setStage index exposure (.hydrating account)
      | none => process.setStage index exposure .ended
    else process
  | none => process

/-- The issued row was read back. -/
def hydrate (index : ℕ) : RecoveryProcess :=
  match process.exposures[index]? with
  | some exposure =>
    match exposure.stage with
    | .hydrating account =>
      match hydrateIssued fingerprint process.db (hydrateInput config exposure account) with
      | .ok (some hydrated) =>
        process.setStage index exposure (.reconciling (capabilityOf config exposure account hydrated))
      | _ => process.setStage index exposure .ended
    | _ => process
  | none => process

/-- The catalog is coherent with the database again, or could not be made so: install the permit. -/
def reconciled (index : ℕ) (coherent : Bool) : RecoveryProcess :=
  match process.exposures[index]? with
  | some exposure =>
    match exposure.stage with
    | .reconciling capability =>
      let ended := process.setStage index exposure .ended
      if !coherent || process.stopped then ended
      else
        let (installed, held) :=
          installCapability (readCurrent process.catalog) process.held config.bootId capability
        if !installed then { ended with held }
        else { ended with held, offered := some exposure.permitId }
    | _ => process
  | none => process

/-- An attempt's guard is called. -/
def guardAttempt (index : ℕ) (now : Instant) (quotaSpentThreshold : Rat) : RecoveryProcess :=
  match process.attempts[index]? with
  | some attempt =>
    let (attempt, held) := beforeUpstreamStart attempt process.catalog process.held process.health now
      quotaSpentThreshold
    { process with attempts := process.attempts.set index attempt, held }
  | none => process

/-- An attempt is over: one that consumed a permit reports its outcome, and the permit is done. -/
def finish (index : ℕ) (state : Verdict) : RecoveryProcess :=
  match process.attempts[index]? with
  | some attempt =>
    match attempt.consumed with
    | none => process
    | some capability =>
      let outcome := reportedOutcome capability state
      { process with
        reported := (index, outcome) :: process.reported
        outcomes :=
          if process.stopped then process.outcomes
          else (captureOutcome config.outcomeCapacity process.outcomes outcome).2
        held := completedCapability process.held capability.generation capability.permitId }
  | none => process

/-- One event. -/
def step : RecoveryEvent → RecoveryProcess
  | .database call => { process with db := process.db.step fingerprint call }
  | .catalog account => { process with catalog := account }
  | .health state => { process with health := state }
  | .stop => { process with stopped := true }
  | .restart => { process with stopped := false }
  | .expose row => process.expose config row
  | .findById index => process.findById index
  | .hydrate index => process.hydrate fingerprint config index
  | .reconciled index coherent => process.reconciled config index coherent
  | .invalidate => { process with held := invalidateCapability process.held }
  | .retire generation =>
      { process with held := retireCapability (readCurrent process.catalog) process.held generation }
  | .completed generation permitId => { process with held := completedCapability process.held generation permitId }
  | .outcomeWritten outcome =>
    { process with
      outcomes := outcomeCompleted outcome process.outcomes
      held := retireCapability (readCurrent process.catalog) process.held outcome.generation }
  | .prepare account candidate =>
    { process with attempts := process.attempts ++ [prepareAttempt account candidate] }
  | .beforeUpstreamStart index now quotaSpentThreshold => process.guardAttempt index now quotaSpentThreshold
  | .finish index state => process.finish config index state

/-- The process after these events. -/
def run (events : List RecoveryEvent) : RecoveryProcess :=
  runFrom (step fingerprint config) process events

end RecoveryProcess

/-- The transactions among the events. -/
def databaseCalls (events : List RecoveryEvent) : List RecoveryCall :=
  events.filterMap fun
    | .database call => some call
    | _ => none

/-- The attempts whose guard the events call, once for each call. -/
def guardCalls (events : List RecoveryEvent) : List ℕ :=
  events.filterMap fun
    | .beforeUpstreamStart index _ _ => some index
    | _ => none

/-- The permit an attempt passed its guard under. -/
def RecoveryProcess.consumedBy (process : RecoveryProcess) (index : ℕ) : Option RecoveryCapability :=
  process.attempts[index]?.bind RecoveryAttempt.consumed

end MultiAiRouter.Dataplane
