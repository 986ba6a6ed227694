import MultiAiRouter.Common.Run
import MultiAiRouter.Dataplane.HealthObservation
import MultiAiRouter.Routing.Breaker

/-!
# The health store

Per account, the breaker's verdict beside the request accounting, the limiter's readings and the half-open probe.
Every operation is a function of the store; what it reports is kept in order, newest first. A reading is folded in
through the breaker's own transition.
-/

namespace MultiAiRouter.Dataplane

open Common Routing

/-- One limiter window of a reading, under the provider's own name. -/
structure RateLimitWindow extends LimiterReading where
  limit : Option Rat := none
  remaining : Option Rat := none
  resetAfterSeconds : Option Rat := none
  resetSource : ResetSource := .unknown
  deriving DecidableEq

/-- A normalized rate-limit reading. -/
structure RateLimitSignal where
  limited : Bool
  retryAfterSeconds : Option Rat := none
  resetsAt : Option Instant := none
  resetSource : ResetSource
  windows : List RateLimitWindow := []
  quotaWindows : Option (List QuotaWindowState) := none
  deriving DecidableEq

/-- Everything the store holds for one account. -/
structure AccountHealthState where
  breaker : BreakerState
  inFlight : Nat := 0
  recentTokens : Nat := 0
  limiterWindows : List RateLimitWindow := []
  quotaWindows : List QuotaWindowState := []
  lastSignalAt : Option Instant := none
  probeHeldUntil : Option Instant := none
  deriving DecidableEq

/-- An account nothing is held for. -/
def freshHealth : AccountHealthState := { breaker := healthy }

/-- How long a half-open probe is held unless configured otherwise. -/
def defaultProbeHoldMs : Int := 30000

/-- The store's numbers, each absent unless configured. -/
structure HealthStoreOptions where
  failureThreshold : Option Nat := none
  baseBackoffMs : Option Int := none
  maxBackoffMs : Option Int := none
  authFailureCooldownMs : Option Int := none
  authFailureMaxCooldownMs : Option Int := none
  probeHoldMs : Option Int := none
  planReadingMaxAgeMs : Option Int := none
  deriving DecidableEq

/-- The breaker's options: the configured numbers, a fresh jitter, and what the caller overrides. -/
def HealthStoreOptions.breakerOptions (options : HealthStoreOptions) (jitter : Rat)
    (caller : BreakerOptions) : BreakerOptions :=
  BreakerOptions.overriddenBy
    { failureThreshold := options.failureThreshold
      baseBackoffMs := options.baseBackoffMs
      maxBackoffMs := options.maxBackoffMs
      authFailureCooldownMs := options.authFailureCooldownMs
      authFailureMaxCooldownMs := options.authFailureMaxCooldownMs
      jitter := some jitter } caller

/-- How old a plan reading may be and still lend its reset. -/
def HealthStoreOptions.planAge (options : HealthStoreOptions) : Int := options.planReadingMaxAgeMs.getD 0

/-- What the store reports to its owner. -/
inductive HealthNotice
  | quotaWindows (accountId : String) (windows : List QuotaWindowState)
      (observation : Option HealthObservation)
  | blocked (accountId : String) (status : AccountStatus) (observation : Option HealthObservation)
      (quotaWindows : Option (List QuotaWindowState))
  | reset (accountId : String)
  deriving DecidableEq

/-- The store: the accounts' states, the held observations, the quota evidence each observation
brought, and the probes. -/
structure HealthStore where
  states : String → Option AccountHealthState := fun _ => none
  observations : HealthObservations := {}
  acceptedQuota : Nat → Option (List QuotaWindowState) := fun _ => none
  probeTokens : String → Option Nat := fun _ => none
  nextProbeToken : Nat := 0
  probeAdmitted : Nat := 0
  probeRefused : Nat := 0
  notices : List HealthNotice := []

/-- Whether a probe may go through, and the token that holds it. -/
structure ProbeAdmission where
  admitted : Bool
  held : Bool
  token : Option Nat := none
  deriving DecidableEq

section Folds

/-- A reading may lengthen a cooldown; it never re-labels one, nor counts as a refusal. -/
def keepVerdictReason (before : BreakerState) (after : Option BreakerState) : Option BreakerState :=
  if before.cooldownReason.isNone || (after.getD before).status != .coolingDown then after
  else
    some { after.getD before with
      cooldownReason := before.cooldownReason, consecutiveFailures := before.consecutiveFailures }

/-- The limit a reading reports, as a failure of the breaker. -/
def limitReading (signal : RateLimitSignal) : AttemptFailure :=
  { kind := .rateLimited, resetsAt := signal.resetsAt, retryAfterSeconds := signal.retryAfterSeconds
    resetSource := some signal.resetSource, message := "upstream reported the limit was reached" }

/-- The verdict a reading leads to, `none` where the verdict object stays. -/
def limitVerdict (state : AccountHealthState) (quotaWindows : List QuotaWindowState) (signal : RateLimitSignal)
    (now : Instant) (breaker : BreakerOptions) (planReadingMaxAgeMs : Int) : Option BreakerState :=
  if !signal.limited then none
  else if phase state.breaker now = .blocked then none
  else
    let reading := withPlanReset (limitReading signal) quotaWindows now planReadingMaxAgeMs
    let tripped :=
      if refusalStands state.breaker now then lengthenRefusal state.breaker reading now
      else recordFailure state.breaker reading now breaker
    keepVerdictReason state.breaker tripped

/-- A response's reading is recorded always, and is a cooldown unless no timer changes the verdict.
-/
def foldRateLimit (state : AccountHealthState) (signal : RateLimitSignal) (now : Instant)
    (breaker : BreakerOptions) (planReadingMaxAgeMs : Int) : AccountHealthState :=
  let quotaWindows := mergeQuotaWindows state.quotaWindows signal.quotaWindows
  { state with
    limiterWindows := signal.windows
    quotaWindows := quotaWindows
    lastSignalAt := some now
    breaker := (limitVerdict state quotaWindows signal now breaker planReadingMaxAgeMs).getD state.breaker }

/-- Recovery changes verdicts, never request accounting or provider quota evidence; `none` where the
state object stays. -/
def recoverHealth (state : AccountHealthState) (kind : RecoveryKind) (facts : HealthAccountFacts) :
    Option AccountHealthState :=
  match kind with
  | .full => some { state with breaker := healthy, probeHeldUntil := none }
  | .authentication =>
    let authVerdict := state.breaker.status = .needsReauth ∨
      state.breaker.cooldownReason = some .credentialRejected
    if ¬ authVerdict ∨ facts.status = .needsReauth then none
    else some { state with breaker := healthy, probeHeldUntil := none }

end Folds

namespace HealthStore

variable (store : HealthStore) (options : HealthStoreOptions) (accountId : String)

/-- What the store holds for an account. -/
def stateOf : AccountHealthState := (store.states accountId).getD freshHealth

/-- Hold this state for the account. -/
def write (state : AccountHealthState) : HealthStore :=
  { store with states := Function.update store.states accountId (some state) }

/-- Report to the owner. -/
def notify (notice : HealthNotice) : HealthStore := { store with notices := notice :: store.notices }

/-- Install catalog facts; a recovery they state ends the verdict and its probe. -/
def reconcile (facts : HealthAccountFacts) : HealthStore :=
  let (kind, observations) := store.observations.reconcile accountId facts
  let installed := { store with observations }
  match kind.bind fun kind => recoverHealth (store.stateOf accountId) kind facts with
  | none => installed
  | some recovered =>
    { installed.write accountId recovered with
      probeTokens := Function.update store.probeTokens accountId none }

/-- Capture the observation an attempt starts from. -/
def captureAttempt (facts : HealthAccountFacts) : HealthObservation × HealthStore :=
  let (observation, observations) := store.observations.capture accountId facts
  (observation, { store with observations })

/-- One more request in flight. -/
def beginAttempt : HealthStore :=
  let current := store.stateOf accountId
  store.write accountId { current with inFlight := current.inFlight + 1 }

/-- One request fewer in flight, with what it spent. -/
def endAttempt (tokens : Nat) : HealthStore :=
  let current := store.stateOf accountId
  store.write accountId
    { current with inFlight := current.inFlight - 1, recentTokens := current.recentTokens + tokens }

/-- A success ends any verdict but a terminal one. -/
def recordSuccess (observation : Option HealthObservation) : HealthStore :=
  let current := store.stateOf accountId
  if current.breaker.status = .exhausted ∨ current.breaker.status = .needsReauth ∨
      current.breaker.status = .disabled then store
  else if !store.observations.acceptsSuccess accountId observation then store
  else store.write accountId { current with breaker := Routing.recordSuccess }

/-- A failure moves the verdict through the breaker, unless no timer would change it. -/
def recordFailure (failure : AttemptFailure) (now : Instant) (jitter : Rat) (caller : BreakerOptions)
    (observation : Option HealthObservation) : HealthStore :=
  if !store.observations.accepts accountId observation then store
  else
    let current := store.stateOf accountId
    if phase current.breaker now = .blocked then store
    else
      let planned := withPlanReset failure current.quotaWindows now options.planAge
      match Routing.recordFailure current.breaker planned now (options.breakerOptions jitter caller) with
      | none => store.write accountId current
      | some after =>
        let written :=
          { store.write accountId { current with breaker := after } with
            observations := store.observations.advanceVerdict accountId }
        if after.status ≠ current.breaker.status ∧ phase after now = .blocked then
          written.notify (.blocked accountId after.status observation
            (observation.bind fun observation => store.acceptedQuota observation.identity))
        else written

/-- The evidence of an observation once this reading is folded into it. -/
def evidenceOf (observation : HealthObservation) (quotaWindows : List QuotaWindowState) :
    List QuotaWindowState :=
  mergeQuotaWindows ((store.acceptedQuota observation.identity).getD []) (some quotaWindows)

/-- A reading is folded in, and its quota windows are reported. -/
def applyRateLimit (signal : Option RateLimitSignal) (now : Instant) (jitter : Rat)
    (observation : Option HealthObservation) : HealthStore :=
  match signal with
  | none => store
  | some signal =>
    if !store.observations.accepts accountId observation then store
    else
      let current := store.stateOf accountId
      let breaker := options.breakerOptions jitter {}
      let folded := foldRateLimit current signal now breaker options.planAge
      let moved := limitVerdict current (mergeQuotaWindows current.quotaWindows signal.quotaWindows) signal
        now breaker options.planAge
      let written :=
        { store.write accountId folded with
          observations :=
            if moved.isSome then store.observations.advanceVerdict accountId else store.observations }
      match signal.quotaWindows, observation with
      | none, _ => written
      | some _, none => written.notify (.quotaWindows accountId folded.quotaWindows none)
      | some quotaWindows, some observation =>
        let evidence := store.evidenceOf observation quotaWindows
        { written with
            acceptedQuota := Function.update store.acceptedQuota observation.identity (some evidence)
          }.notify (.quotaWindows accountId evidence (some observation))

/-- Admit one probe through a half-open breaker and hold it for a while. -/
def admitProbe (now : Instant) : ProbeAdmission × HealthStore :=
  let state := store.stateOf accountId
  match phase state.breaker now with
  | .closed => ({ admitted := true, held := false }, store)
  | .opened | .blocked => ({ admitted := false, held := false }, store)
  | .halfOpen =>
    if state.probeHeldUntil.any fun held => decide (now < held) then
      ({ admitted := false, held := false }, { store with probeRefused := store.probeRefused + 1 })
    else
      let hold := now + options.probeHoldMs.getD defaultProbeHoldMs
      let token := store.nextProbeToken + 1
      ({ admitted := true, held := true, token := some token },
        { store.write accountId { state with probeHeldUntil := some hold } with
          nextProbeToken := token
          probeTokens := Function.update store.probeTokens accountId (some token)
          probeAdmitted := store.probeAdmitted + 1 })

/-- Release the probe this token holds, or whichever is held when no token is given. -/
def releaseProbe (token : Option Nat) : HealthStore :=
  if token.isSome && store.probeTokens accountId != token then store
  else
    let released := { store with probeTokens := Function.update store.probeTokens accountId none }
    match store.states accountId with
    | none => released
    | some state => released.write accountId { state with probeHeldUntil := none }

/-- Forget the account. -/
def reset : HealthStore :=
  { store with
      states := Function.update store.states accountId none
      observations := store.observations.forget accountId
      probeTokens := Function.update store.probeTokens accountId none
    }.notify (.reset accountId)

end HealthStore

/-- The operations that write the store, with everything each is given. -/
inductive HealthOp
  | reconcile (accountId : String) (facts : HealthAccountFacts)
  | captureAttempt (accountId : String) (facts : HealthAccountFacts)
  | beginAttempt (accountId : String)
  | endAttempt (accountId : String) (tokens : Nat)
  | recordSuccess (accountId : String) (observation : Option HealthObservation)
  | recordFailure (accountId : String) (failure : AttemptFailure) (now : Instant) (jitter : Rat)
      (caller : BreakerOptions) (observation : Option HealthObservation)
  | applyRateLimit (accountId : String) (signal : Option RateLimitSignal) (now : Instant) (jitter : Rat)
      (observation : Option HealthObservation)
  | admitProbe (accountId : String) (now : Instant)
  | releaseProbe (accountId : String) (token : Option Nat)
  | reset (accountId : String)

/-- One operation of the store. -/
def healthStep (options : HealthStoreOptions) (store : HealthStore) : HealthOp → HealthStore
  | .reconcile accountId facts => store.reconcile accountId facts
  | .captureAttempt accountId facts => (store.captureAttempt accountId facts).2
  | .beginAttempt accountId => store.beginAttempt accountId
  | .endAttempt accountId tokens => store.endAttempt accountId tokens
  | .recordSuccess accountId observation => store.recordSuccess accountId observation
  | .recordFailure accountId failure now jitter caller observation =>
    store.recordFailure options accountId failure now jitter caller observation
  | .applyRateLimit accountId signal now jitter observation =>
    store.applyRateLimit options accountId signal now jitter observation
  | .admitProbe accountId now => (store.admitProbe options accountId now).2
  | .releaseProbe accountId token => store.releaseProbe accountId token
  | .reset accountId => store.reset accountId

/-- A new store after these operations. -/
def runHealth (options : HealthStoreOptions) (ops : List HealthOp) : HealthStore :=
  runFrom (healthStep options) {} ops

end MultiAiRouter.Dataplane
