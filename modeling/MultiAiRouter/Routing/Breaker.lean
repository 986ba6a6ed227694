import MultiAiRouter.Routing.Failover
import MultiAiRouter.Routing.Quota

/-!
# The circuit breaker

An account's verdict as pure transitions over an injected clock and jitter. A cooldown carries the instant it ends;
`exhausted` and `needs_reauth` carry none. A refused key's cooldown is labelled, and while it runs nothing but a
limiter reading with a later reset moves it.

A transition answers `none` where the source returns the state object it was given: the health store compares the
two by identity.
-/

namespace MultiAiRouter.Routing

/-- The verdict on one account. -/
structure BreakerState where
  status : AccountStatus
  cooldownUntil : Option Instant := none
  cooldownSource : ResetSource := .unknown
  cooldownReason : Option CooldownReason := none
  consecutiveFailures : Nat := 0
  deriving DecidableEq

/-- The verdict on an account nothing was held against. -/
def healthy : BreakerState := { status := .active }

/-- The breaker's numbers, each absent unless configured or given by the caller. -/
structure BreakerOptions where
  baseBackoffMs : Option Int := none
  maxBackoffMs : Option Int := none
  failureThreshold : Option Nat := none
  recoveryProbe : Option Bool := none
  jitter : Option Rat := none
  authKind : Option AuthKind := none
  authFailureCooldownMs : Option Int := none
  authFailureMaxCooldownMs : Option Int := none
  deriving DecidableEq

/-- What the caller gives overrides what is configured. -/
def BreakerOptions.overriddenBy (configured caller : BreakerOptions) : BreakerOptions where
  baseBackoffMs := caller.baseBackoffMs <|> configured.baseBackoffMs
  maxBackoffMs := caller.maxBackoffMs <|> configured.maxBackoffMs
  failureThreshold := caller.failureThreshold <|> configured.failureThreshold
  recoveryProbe := caller.recoveryProbe <|> configured.recoveryProbe
  jitter := caller.jitter <|> configured.jitter
  authKind := caller.authKind <|> configured.authKind
  authFailureCooldownMs := caller.authFailureCooldownMs <|> configured.authFailureCooldownMs
  authFailureMaxCooldownMs := caller.authFailureMaxCooldownMs <|> configured.authFailureMaxCooldownMs

section Backoff

def defaultBaseBackoffMs : Int := 1000
def defaultMaxBackoffMs : Int := 300000

/-- Jitter widens a step by at most this fraction, never shortens it. -/
def jitterFraction : Rat := 1 / 5

/-- A jitter outside the unit interval is pulled to its ends. -/
def clampJitter (value : Rat) : Rat := min (max value 0) 1

/-- Round half up, as `Math.round` does. -/
def roundHalfUp (value : Rat) : Int := Rat.floor (value + 1 / 2)

/-- The doubling step of a failure streak, capped and jittered. -/
def backoffMs (consecutiveFailures : Nat) (options : BreakerOptions) : Int :=
  let base := options.baseBackoffMs.getD defaultBaseBackoffMs
  let cap := options.maxBackoffMs.getD defaultMaxBackoffMs
  let steps := consecutiveFailures - 1
  let capped := min (base * 2 ^ steps) cap
  roundHalfUp (capped * (1 + jitterFraction * clampJitter (options.jitter.getD 0)))

/-- The last instant a `Date` can hold. -/
def maxInstant : Int := 8640000000000000

/-- The integer part, as a `Date` keeps it. -/
def truncate (value : Rat) : Int := if value < 0 then Rat.ceil value else Rat.floor value

/-- All reset constraints must have passed; an elapsed or unrepresentable deadline is none. -/
def latestResetDeadline (resetsAt : Option Instant) (retryAfterSeconds : Option Rat) (now : Instant) :
    Option Instant :=
  let absolute : Option Rat := resetsAt.map fun reset => (reset : Rat)
  let relative : Option Rat :=
    (retryAfterSeconds.filter fun seconds => decide (0 < seconds)).map fun seconds => now + seconds * 1000
  let deadlines := [absolute, relative].filterMap fun deadline =>
    deadline.filter fun value => decide ((now : Rat) < value) && decide (value ≤ maxInstant)
  match deadlines with
  | [] => none
  | first :: rest => some (truncate (rest.foldl max first))

/-- The instant the provider said the limit lifts. -/
def reportedReset (failure : AttemptFailure) (now : Instant) : Option Instant :=
  latestResetDeadline failure.resetsAt failure.retryAfterSeconds now

end Backoff

section PlanReset

/-- The reset a fresh reading of a spent window lends. -/
def lentReset (window : QuotaWindowState) (now : Instant) (maxAgeMs : Int) : Option Instant :=
  if retiredEvidence window then none
  else if maxAgeMs ≤ now - window.lastCheckedAt then none
  else if window.resetSource ≠ .providerReported then none
  else if window.utilization.all fun utilization => decide (utilization < 1) then none
  else window.resetsAt.filter fun reset => decide (now < reset)

/-- The latest reset among the spent windows. -/
def spentPlanReset (windows : List QuotaWindowState) (now : Instant) (maxAgeMs : Int) : Option Instant :=
  (windows.filterMap fun window => lentReset window now maxAgeMs).max?

/-- A limit refusal that stated no reset of its own borrows a spent plan window's. -/
def withPlanReset (failure : AttemptFailure) (windows : List QuotaWindowState) (now : Instant)
    (maxAgeMs : Int) : AttemptFailure :=
  if failure.kind ≠ .rateLimited then failure
  else if (reportedReset failure now).isSome && failure.resetSource != some .estimated then failure
  else
    match spentPlanReset windows now maxAgeMs with
    | none => failure
    | some reset =>
      { failure with
        retryAfterSeconds := none, resetsAt := some reset, resetSource := some .providerReported }

end PlanReset

section CredentialRejection

def defaultAuthFailureCooldownMs : Int := 15 * 60000
def defaultAuthFailureMaxCooldownMs : Int := 4 * 60 * 60000

/-- The refusal is still the standing verdict: labelled, and its cooldown not yet passed. -/
def refusalStands (state : BreakerState) (now : Instant) : Bool :=
  state.cooldownReason == some .credentialRejected &&
    state.cooldownUntil.any fun deadline => decide (now < deadline)

/-- The instant of a cooldown already running under this status. -/
def existingCooldown (state : BreakerState) : Option Instant :=
  if state.status = .coolingDown then state.cooldownUntil else none

/-- The provider refused the key: out for a while, labelled, then re-tested by one probe. -/
def rejectCredential (state : BreakerState) (now : Instant) (options : BreakerOptions) :
    Option BreakerState :=
  if refusalStands state now then none
  else
    let base := options.authFailureCooldownMs.getD defaultAuthFailureCooldownMs
    let cap := max base (options.authFailureMaxCooldownMs.getD defaultAuthFailureMaxCooldownMs)
    let labelled := state.cooldownReason == some .credentialRejected
    let refusals := (if labelled then state.consecutiveFailures else 0) + 1
    let deadline := now + backoffMs refusals
      { baseBackoffMs := some base, maxBackoffMs := some cap, jitter := some (options.jitter.getD 0) }
    let longer := (existingCooldown state).filter fun existing => decide (deadline ≤ existing)
    some
      { status := .coolingDown
        cooldownUntil := some (longer.getD deadline)
        cooldownSource := if longer.isSome then state.cooldownSource else .estimated
        cooldownReason := some .credentialRejected
        consecutiveFailures := refusals }

/-- A limiter reading folded in while the refusal stands may push the re-test out. -/
def lengthenRefusal (state : BreakerState) (reading : AttemptFailure) (now : Instant) :
    Option BreakerState :=
  match reportedReset reading now, state.cooldownUntil with
  | some reset, some standing =>
    if reset ≤ standing then none
    else
      some { state with
        cooldownUntil := some reset, cooldownSource := reading.resetSource.getD .providerReported }
  | _, _ => none

end CredentialRejection

section Breaker

/-- Where a breaker stands at an instant. -/
inductive BreakerPhase
  | closed
  | opened
  | halfOpen
  | blocked
  deriving DecidableEq

/-- Blocked is what no timer changes. -/
def phase (state : BreakerState) (now : Instant) : BreakerPhase :=
  match state.status with
  | .exhausted | .needsReauth | .disabled => .blocked
  | .active => .closed
  | .coolingDown =>
    match state.cooldownUntil with
    | none => .opened
    | some deadline => if now < deadline then .opened else .halfOpen

/-- Consecutive failures before the breaker trips. -/
def defaultFailureThreshold : Nat := 3

/-- A refreshable token needs a new login; a key, or no credential at all, was rejected. -/
def authNeedsReauth : Option AuthKind → Bool
  | none | some .oauth => true
  | some .apiKey | some .none => false

/-- Cool down until the reported reset or the next backoff step, never shortening a cooldown. -/
def trip (state : BreakerState) (failure : AttemptFailure) (now : Instant) (options : BreakerOptions)
    (failures : Nat) : BreakerState :=
  let reported := reportedReset failure now
  let deadline := reported.getD (now + backoffMs failures options)
  let source := if reported.isNone then .estimated else failure.resetSource.getD .providerReported
  match existingCooldown state with
  | some existing =>
    if deadline ≤ existing then
      { status := .coolingDown, cooldownUntil := some existing, cooldownSource := state.cooldownSource
        consecutiveFailures := failures }
    else
      { status := .coolingDown, cooldownUntil := some deadline, cooldownSource := source
        consecutiveFailures := failures }
  | none =>
    { status := .coolingDown, cooldownUntil := some deadline, cooldownSource := source
      consecutiveFailures := failures }

/-- A verdict that only a human ends. -/
def terminal (state : BreakerState) (status : AccountStatus) : BreakerState :=
  { status, consecutiveFailures := state.consecutiveFailures + 1 }

/-- What a failure makes of the verdict. -/
def recordFailure (state : BreakerState) (failure : AttemptFailure) (now : Instant)
    (options : BreakerOptions) : Option BreakerState :=
  match failure.kind with
  | .clientError | .staleSession | .busySession | .modelUnsupported | .overloaded => none
  | .creditsExhausted => some (terminal state .exhausted)
  | .auth =>
    if authNeedsReauth options.authKind then some (terminal state .needsReauth)
    else rejectCredential state now options
  | .rateLimited =>
    if refusalStands state now then none
    else some (trip state failure now options (state.consecutiveFailures + 1))
  | .serverError | .connection | .timeout =>
    if refusalStands state now then none
    else
      let failures := state.consecutiveFailures + 1
      if !options.recoveryProbe.getD false && phase state now ≠ .halfOpen &&
          failures < options.failureThreshold.getD defaultFailureThreshold then
        some { state with consecutiveFailures := failures }
      else some (trip state failure now options failures)

/-- The first success resets the streak and returns the account to `active`. -/
def recordSuccess : BreakerState := healthy

end Breaker

section Coherence

/-- Only a cooling account has an instant to wait for, and only it is labelled. -/
def BreakerState.Coherent (state : BreakerState) : Prop :=
  state.status ≠ .coolingDown → state.cooldownUntil = none ∧ state.cooldownReason = none

/-- Nothing is held against a healthy account. -/
theorem coherent_healthy : healthy.Coherent := fun _ => ⟨rfl, rfl⟩

/-- A cooldown is coherent whatever it carries. -/
theorem coherent_of_cooling {state : BreakerState} (h : state.status = .coolingDown) : state.Coherent :=
  fun hne => absurd h hne

/-- Tripping leaves a cooldown. -/
theorem trip_status (state : BreakerState) (failure : AttemptFailure) (now : Instant) (options : BreakerOptions)
    (failures : Nat) : (trip state failure now options failures).status = .coolingDown := by
  unfold trip
  dsimp only
  split
  · split <;> rfl
  · rfl

/-- A standing refusal is a cooldown. -/
theorem BreakerState.Coherent.status_of_refusalStands {state : BreakerState} (h : state.Coherent) {now : Instant}
    (hstands : refusalStands state now) : state.status = .coolingDown := by
  by_contra hne
  obtain ⟨_, hreason⟩ := h hne
  simp [refusalStands, hreason] at hstands

/-- A rejected credential cools down. -/
theorem rejectCredential_status {state next : BreakerState} {now : Instant} {options : BreakerOptions}
    (h : rejectCredential state now options = some next) : next.status = .coolingDown := by
  unfold rejectCredential at h
  split at h
  · cases h
  · cases h
    rfl

/-- Lengthening a refusal moves its instant and nothing of its status. -/
theorem lengthenRefusal_status {state next : BreakerState} {reading : AttemptFailure} {now : Instant}
    (h : lengthenRefusal state reading now = some next) : next.status = state.status := by
  unfold lengthenRefusal at h
  split at h
  · split at h
    · cases h
    · cases h
      rfl
  · cases h

/-- A failure keeps the verdict coherent. -/
theorem recordFailure_coherent {state next : BreakerState} {failure : AttemptFailure} {now : Instant}
    {options : BreakerOptions} (hstate : state.Coherent)
    (h : recordFailure state failure now options = some next) : next.Coherent := by
  unfold recordFailure at h
  split at h
  · cases h
  · cases h
  · cases h
  · cases h
  · cases h
  · cases h
    exact fun _ => ⟨rfl, rfl⟩
  · split at h
    · cases h
      exact fun _ => ⟨rfl, rfl⟩
    · exact coherent_of_cooling (rejectCredential_status h)
  · split at h
    · cases h
    · cases h
      exact coherent_of_cooling (trip_status ..)
  all_goals
    split at h
    · cases h
    · dsimp only at h
      split at h
      · cases h
        exact hstate
      · cases h
        exact coherent_of_cooling (trip_status ..)

end Coherence

end MultiAiRouter.Routing
