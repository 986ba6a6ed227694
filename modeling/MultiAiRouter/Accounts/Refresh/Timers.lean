import MultiAiRouter.Routing.Types

/-!
# The refresh timer and the quarantine of one account

What the credential refresher holds for one account: the timing of its next refresh, the timer armed for it, and the
credential whose writeback is uncertain. `disarm`, `armAt` and `defer` are the timers', `retryHeld`, `blocked`,
`deleted` and `failed` the quarantine's, and `armFor` reconciles both with a row. Numbers stand for identities.
-/

namespace MultiAiRouter.Accounts

open Routing

/-- What the refresher reads of an account's row. -/
structure AccountRow where
  provider : ProviderId
  status : AccountStatus
  authMaterial : Option String
  tokenExpiresAt : Option Int
  lifecycleVersion : ℕ
  authRefreshSpentOn : Option String
  deriving DecidableEq

/-- The credential a timer or a flight was made for. -/
structure RefreshExpectation where
  authMaterial : Option String
  expiresAtMs : Option Int
  deriving DecidableEq

/-- When the next refresh of a credential is due, and how often it failed. -/
structure RefreshTimerState extends RefreshExpectation where
  serial : ℕ
  dueAtMs : Int
  lifecycleVersion : ℕ
  attempts : ℕ := 0
  pausedLifecycleVersion : Option ℕ := none
  deriving DecidableEq

/-- The refresher's settings, and the fingerprint of a credential, which the code only compares. -/
structure RefreshConfig where
  leadFraction : ℚ
  minDelayMs : Int
  maxAttempts : ℕ
  credentialFingerprint : String → String

/-- What a synchronous stretch reads of the refresher and of the clock. -/
structure RefreshMoment where
  stopped : Bool
  abandoned : Bool
  now : Int
  deriving DecidableEq

def expectation (row : AccountRow) : RefreshExpectation where
  authMaterial := row.authMaterial
  expiresAtMs := row.tokenExpiresAt

def sameExpectation (a b : RefreshExpectation) : Bool :=
  a.authMaterial == b.authMaterial && a.expiresAtMs == b.expiresAtMs

/-- The source's `matches`. -/
def matchesRow (expected : RefreshExpectation) (row : AccountRow) : Bool :=
  sameExpectation expected (expectation row)

/-- Whether the provider's driver speaks HTTP and has an OAuth flow. -/
def hasOauthFlow : ProviderId → Bool
  | .openaiOauth => true
  | _ => false

/-- A parked account keeps one refresh for each credential. -/
def eligible (config : RefreshConfig) (row : AccountRow) : Bool :=
  hasOauthFlow row.provider && row.authMaterial.isSome && row.status != .disabled &&
    (row.status != .needsReauth || row.authRefreshSpentOn != row.authMaterial.map config.credentialFingerprint)

def maxTimerMs : Int := 2147483647

/-- The instant a refresh should run, given when the current token dies. -/
def refreshDueAt (config : RefreshConfig) (expiresAt now : Int) : Int :=
  let lead : ℚ := (expiresAt - now : Int) * config.leadFraction
  let due : ℚ := now + max lead config.minDelayMs
  due.num.tdiv due.den

/-- The floor, doubled for each consecutive failure after the first. -/
def retryDelayMs (attempt : ℕ) (minDelayMs : Int) : Int := min (minDelayMs * 2 ^ (attempt - 1)) maxTimerMs

def timerDelayMs (dueAtMs nowMs : Int) : Int := min (max (dueAtMs - nowMs) 0) maxTimerMs

/-- A timer handed to the scheduler, and the timing its callback closed over. -/
structure ArmedTimer where
  serial : ℕ
  timing : ℕ
  delayMs : Int
  deriving DecidableEq

/-- The account's entries in the refresher's maps `timings`, `timers` and `uncertain`, with the timers
handed to the scheduler that were neither cancelled nor have fired. -/
structure RefreshDesk where
  timing : Option RefreshTimerState := none
  timer : Option ArmedTimer := none
  handles : List ArmedTimer := []
  uncertain : Option (Option String) := none
  serial : ℕ := 0
  deriving DecidableEq

/-- What a flight has seen so far of its own exchange. -/
structure RefreshFlightObservation where
  row : Option AccountRow := none
  exchangeStarted : Bool := false
  exchangeFinished : Bool := false
  deriving DecidableEq

/-- What becomes of a timing after a flight raised. -/
inductive TimingAction
  | retry
  | paused
  | unchanged
  deriving DecidableEq

/-- Only faults before the exchange retry the old grant. -/
def timingAfterException (timing : Option RefreshTimerState) (expected : Option RefreshExpectation)
    (observation : RefreshFlightObservation) (now minDelayMs : Int) : Option RefreshTimerState × TimingAction :=
  match timing, expected with
  | some held, some expected =>
    if sameExpectation held.toRefreshExpectation expected then
      match observation.exchangeStarted, observation.row with
      | true, some row => (some { held with pausedLifecycleVersion := row.lifecycleVersion }, .paused)
      | _, _ => (some { held with dueAtMs := now + minDelayMs }, .retry)
    else (timing, .unchanged)
  | _, _ => (timing, .unchanged)

namespace RefreshDesk

variable (config : RefreshConfig) (moment : RefreshMoment)

/-- Cancel the armed timer. -/
def disarm (desk : RefreshDesk) : RefreshDesk where
  timing := desk.timing
  timer := none
  handles := match desk.timer with
    | some armed => desk.handles.erase armed
    | none => desk.handles
  uncertain := desk.uncertain
  serial := desk.serial

/-- Arm a timer for the timing, in place of the one armed before. -/
def armAt (desk : RefreshDesk) (timing : RefreshTimerState) : RefreshDesk :=
  let desk := desk.disarm
  if moment.stopped then desk
  else
    let armed : ArmedTimer :=
      { serial := desk.serial, timing := timing.serial, delayMs := timerDelayMs timing.dueAtMs moment.now }
    { desk with timer := some armed, handles := desk.handles ++ [armed], serial := desk.serial + 1 }

/-- Put off the refresh of the credential that was expected. -/
def defer (desk : RefreshDesk) (expected : RefreshExpectation) (delayMs : Int) : RefreshDesk :=
  match desk.timing with
  | some held =>
    if sameExpectation held.toRefreshExpectation expected then
      let held := { held with dueAtMs := moment.now + delayMs }
      { desk with timing := some held }.armAt moment held
    else desk
  | none => desk

/-- Drop the account's timer and timing. -/
def forget (desk : RefreshDesk) : RefreshDesk := { desk.disarm with timing := none }

/-- Arm the held timing again, unless it is paused or its credential is quarantined. -/
def retryHeld (desk : RefreshDesk) : RefreshDesk :=
  match desk.timing with
  | some held =>
    if held.pausedLifecycleVersion.isSome || desk.uncertain == some held.authMaterial then desk
    else
      let held := { held with dueAtMs := max held.dueAtMs (moment.now + config.minDelayMs) }
      { desk with timing := some held }.armAt moment held
  | none => desk

def deleted (desk : RefreshDesk) : RefreshDesk := { desk with uncertain := none }

/-- Whether the row holds the quarantined credential; a row with another one ends the quarantine. -/
def blocked (desk : RefreshDesk) (row : AccountRow) : Bool × RefreshDesk :=
  match desk.uncertain with
  | none => (false, desk)
  | some held => if held = row.authMaterial then (true, desk) else (false, { desk with uncertain := none })

/-- A flight raised: quarantine the credential whose exchange had started, else retry. -/
def failed (desk : RefreshDesk) (expected : Option RefreshExpectation)
    (observation : RefreshFlightObservation) (aborted : Bool) : RefreshDesk :=
  if observation.exchangeFinished then
    match desk.timing, expected with
    | some held, some expected =>
      if !aborted && sameExpectation held.toRefreshExpectation expected then desk.retryHeld config moment else desk
    | _, _ => desk
  else
    match observation.exchangeStarted, observation.row with
    | true, some row =>
      -- a concurrent replacement must not be overwritten by the old flight's quarantine
      if desk.timing.all (·.authMaterial == row.authMaterial) then
        { desk with uncertain := some row.authMaterial }.disarm
      else desk
    | _, _ =>
      if aborted then desk
      else
        match timingAfterException desk.timing expected observation moment.now config.minDelayMs with
        | (some held, .retry) => { desk with timing := some held }.armAt moment held
        | (timing, _) => { desk with timing := timing }

/-- When the row's refresh is due; a parked account's one attempt is due now. -/
def dueAtMs (row : AccountRow) (expiresAt : Int) : Int :=
  if row.status = .needsReauth then moment.now + config.minDelayMs
  else refreshDueAt config expiresAt moment.now

/-- The expiry a timer is armed for; a parked account without one is due now. -/
def armedExpiry (row : AccountRow) : Option Int :=
  match row.tokenExpiresAt with
  | some expiresAt => some expiresAt
  | none => if row.status = AccountStatus.needsReauth then some moment.now else none

/-- Keep the held timing for a row with the same credential; `busy` says that a flight is in the map. -/
def armHeld (settling busy : Bool) (desk : RefreshDesk) (held : RefreshTimerState) (row : AccountRow) :
    RefreshDesk :=
  let held := { held with lifecycleVersion := row.lifecycleVersion }
  if held.pausedLifecycleVersion = some row.lifecycleVersion then
    { desk with timing := some held }.disarm
  else
    let held := if held.pausedLifecycleVersion.isSome then
        { held with
          pausedLifecycleVersion := none
          attempts := 0
          dueAtMs := max held.dueAtMs (moment.now + config.minDelayMs) }
      else held
    let desk := { desk with timing := some held }
    if desk.timer.isNone && (settling || !busy) then desk.armAt moment held else desk

/-- Replace the timing by one for the row's credential. -/
def armFresh (desk : RefreshDesk) (row : AccountRow) (expiresAt : Int) : RefreshDesk :=
  let timing : RefreshTimerState :=
    { toRefreshExpectation := expectation row
      serial := desk.serial
      dueAtMs := dueAtMs config moment row expiresAt
      lifecycleVersion := row.lifecycleVersion }
  { desk with timing := some timing, serial := desk.serial + 1 }.armAt moment timing

/-- Reconcile the account's timer with its row. -/
def armFor (settling busy : Bool) (desk : RefreshDesk) (row : AccountRow) : RefreshDesk :=
  let (isBlocked, desk) := desk.blocked row
  match armedExpiry moment row with
  | none => desk.forget
  | some expiresAt =>
    if isBlocked || !eligible config row then desk.forget
    else
      match desk.timing with
      | some held =>
        if matchesRow held.toRefreshExpectation row then armHeld config moment settling busy desk held row
        else armFresh config moment desk row expiresAt
      | none => armFresh config moment desk row expiresAt

/-- The callback of an armed timer: the timing to refresh now, if it is still the armed one and due. -/
def fired (desk : RefreshDesk) (armed : ArmedTimer) : RefreshDesk × Option RefreshTimerState :=
  let desk := { desk with handles := desk.handles.erase armed }
  match desk.timer, desk.timing with
  | some current, some timing =>
    if current ≠ armed ∨ timing.serial ≠ armed.timing then (desk, none)
    else
      let desk := { desk with timer := none }
      if moment.now < timing.dueAtMs then (desk.armAt moment timing, none) else (desk, some timing)
  | _, _ => (desk, none)

end RefreshDesk

end MultiAiRouter.Accounts
