import MultiAiRouter.Accounts.Refresh.Timers
import MultiAiRouter.Common.Run

/-!
# The credential refresher

`refreshCredential` is one exchange with the issuer and one write of the new ciphertext; it raises where the source
does not catch. `createCredentialRefresher` takes one step per synchronous stretch between two awaits: a flight
reads the row, takes the lock, reads the row again under it, exchanges the grant, settles the outcome, and
reconciles the timer in its `finally`. Everything answers in any order and may raise.

Each account has its own record. The source draws all read versions from one counter and compares them within an
account only.
-/

namespace MultiAiRouter.Accounts

/-- Why an exchange failed. -/
inductive RefreshFailure
  | noRefreshToken
  | unreadableCredential
  | unreachable
  | refused
  | unreadableTokens
  deriving DecidableEq

/-- Why a refresh was not made. -/
inductive SkipReason
  | busy
  | superseded
  | aborted
  | notRefreshable
  | unknownAccount
  deriving DecidableEq

/-- What a refresh came to. -/
inductive RefreshOutcome
  | success (row : AccountRow) (revived : Bool)
  | skipped (reason : SkipReason) (row : Option AccountRow)
  | failure (reason : RefreshFailure) (observed : AccountRow)
  deriving DecidableEq

/-- The stored token set. -/
structure StoredOAuthCredential where
  accessToken : String
  refreshToken : Option String
  providerAccountId : Option String
  deriving DecidableEq

/-- The issuer's response: its status, and whether its body could be read before the deadline. -/
structure OAuthResponse where
  status : ℕ
  bodyRead : Bool
  requestAborted : Bool
  deriving DecidableEq

/-- How the driver and the cipher took the response's body. -/
inductive TokenReading
  | unreadable
  | grant
  | raised
  deriving DecidableEq

/-- How the write of the new ciphertext ended. -/
inductive CommitReply
  | committed (row : AccountRow)
  | superseded
  | raised
  deriving DecidableEq

/-- What an exchange is answered, and whether it was aborted when it was called and when the issuer
had answered. -/
structure ExchangeReplies where
  abortedAtCall : Bool
  decrypted : Option StoredOAuthCredential
  response : Option OAuthResponse
  abortedAtReply : Bool
  tokens : TokenReading
  commit : CommitReply
  deriving DecidableEq

/-- Status codes worth another attempt. -/
def transient (status : ℕ) : Bool := status == 408 || status == 429 || 500 ≤ status

/-- `Response.ok`. -/
def OAuthResponse.ok (response : OAuthResponse) : Bool := 200 ≤ response.status && response.status ≤ 299

def readHeld (row : AccountRow) (replies : ExchangeReplies) : Option StoredOAuthCredential :=
  match row.authMaterial with
  | none => none
  | some _ => replies.decrypted

/-- The write of a grant the issuer is known to have rotated, which shutdown does not stop. -/
def commitGrant (row : AccountRow) (replies : ExchangeReplies) : Option RefreshOutcome :=
  match replies.commit with
  | .committed committed => some (.success committed (row.status = .needsReauth))
  | .superseded => some (.skipped .superseded none)
  | .raised => none

/-- What follows once the issuer has answered. -/
def readGrant (row : AccountRow) (replies : ExchangeReplies) (response : OAuthResponse) : Option RefreshOutcome :=
  let skippedOr (reason : RefreshFailure) : RefreshOutcome :=
    if replies.abortedAtReply then .skipped .aborted row else .failure reason row
  if !response.bodyRead && replies.abortedAtReply then some (.skipped .aborted row)
  else if !response.bodyRead && response.requestAborted then some (.failure .unreachable row)
  else if !response.ok then some (skippedOr (if transient response.status then .unreachable else .refused))
  else
    match replies.tokens with
    | .raised => none
    | .unreadable => some (skippedOr .unreadableTokens)
    | .grant => commitGrant row replies

/-- One exchange and one ciphertext write; nothing when it raises. -/
def refreshCredential (row : AccountRow) (replies : ExchangeReplies) : Option RefreshOutcome :=
  if replies.abortedAtCall then some (.skipped .aborted row)
  else
    match readHeld row replies with
    | none => some (.failure .unreadableCredential row)
    | some held =>
      if held.refreshToken.isNone then some (.failure .noRefreshToken row)
      else
        match replies.response with
        | none => some (if replies.abortedAtReply then .skipped .aborted row else .failure .unreachable row)
        | some response => readGrant row replies response

open Common Routing

/-- The rows an account had since a read of it began, the present one last. -/
abbrev SeenRows := List (Option AccountRow)

/-- How far a flight that knows its credential has come. -/
inductive AttemptStage
  | locking
  | rereading (seen : SeenRows)
  | exchanging (row : AccountRow)
  | unlocking (result : Option RefreshOutcome)
  | confirming (revived : Bool)
  | latest (reason : RefreshFailure) (observed : AccountRow) (seen : SeenRows)
  | recording
  deriving DecidableEq

/-- How far a flight has come: it has raised before its `catch`, and settled before its `finally`. -/
inductive RefreshPhase
  | beginning (seen : SeenRows)
  | attempting (expected : RefreshExpectation) (stage : AttemptStage)
  | raised
  | telling
  | settled
  | syncing (version : ℕ)
  deriving DecidableEq

/-- One run of the refresh of an account. -/
structure RefreshFlight where
  number : ℕ
  requested : Option RefreshExpectation
  observation : RefreshFlightObservation := {}
  aborted : Bool := false
  phase : RefreshPhase
  deriving DecidableEq

/-- A pending read of `sync`. -/
structure SyncRead where
  version : ℕ
  settling : Bool
  seen : SeenRows
  deriving DecidableEq

/-- What became of the account's exchanges, and that the account was deleted. -/
inductive ExchangeMark
  | started (authMaterial : Option String)
  | finished (authMaterial : Option String)
  | raised (authMaterial : Option String)
  | deleted
  deriving DecidableEq

/-- One account: its stored row, what the refresher holds for it, its flights and its pending reads.
The log of its exchanges, newest first, is read by nothing. -/
structure AccountRefresh where
  stored : Option AccountRow
  desk : RefreshDesk := {}
  flight : Option ℕ := none
  flights : List RefreshFlight := []
  flightNumber : ℕ := 0
  reads : Option ℕ := none
  readVersion : ℕ := 0
  syncs : List SyncRead := []
  lists : List SeenRows := []
  parked : List SeenRows := []
  releasing : ℕ := 0
  log : List ExchangeMark := []
  deriving DecidableEq

/-- How the refresh lock was answered. -/
inductive LockReply
  | acquired
  | busy
  | aborted
  deriving DecidableEq

/-- What a flight waited for has come; `faulted` is any of it raising. -/
inductive FlightEvent
  | begun (row : Option AccountRow)
  | locked (reply : LockReply)
  | reread (row : Option AccountRow) (lockAborted : Bool)
  | exchanged (replies : ExchangeReplies)
  | unlocked
  | confirmed
  | latest (row : Option AccountRow)
  | recorded (committed : Bool)
  | faulted
  | caught
  | told
  | finalized
  | ended
  deriving DecidableEq

/-- What happens to an account. -/
inductive AccountEvent
  | store (row : Option AccountRow)
  | fire (armed : ArmedTimer)
  | sync
  | synced (version : ℕ) (answer : Option (Option AccountRow))
  | listed (read : ℕ) (answer : Option (Option AccountRow))
  | refreshNow
  | retryParked
  | parkedRead (read : ℕ) (answer : Option (Option AccountRow))
  | released (ok : Bool)
  | flight (number : ℕ) (event : FlightEvent)
  deriving DecidableEq

/-- The row a flight's pending read may now answer as well. -/
def AttemptStage.observe (row : Option AccountRow) : AttemptStage → AttemptStage
  | .rereading seen => .rereading (seen ++ [row])
  | .latest reason observed seen => .latest reason observed (seen ++ [row])
  | stage => stage

/-- The row a flight's pending read may now answer as well. -/
def RefreshPhase.observe (row : Option AccountRow) : RefreshPhase → RefreshPhase
  | .beginning seen => .beginning (seen ++ [row])
  | .attempting expected stage => .attempting expected (stage.observe row)
  | phase => phase

def sameObservation (a b : AccountRow) : Bool :=
  a.lifecycleVersion == b.lifecycleVersion && a.authMaterial == b.authMaterial && a.status == b.status

namespace AccountRefresh

variable (config : RefreshConfig) (moment : RefreshMoment)

/-- A write to the account's row, by whomever; every pending read may answer with it. -/
def store (account : AccountRefresh) (row : Option AccountRow) : AccountRefresh :=
  { account with
    stored := row
    flights := account.flights.map fun flight => { flight with phase := flight.phase.observe row }
    syncs := account.syncs.map fun read => { read with seen := read.seen ++ [row] }
    lists := account.lists.map (· ++ [row])
    parked := account.parked.map (· ++ [row])
    log := if row.isNone then .deleted :: account.log else account.log }

/-- Put the flight where the flight of its number was. -/
def setFlight (account : AccountRefresh) (flight : RefreshFlight) : AccountRefresh :=
  { account with
    flights := account.flights.map fun held => if held.number = flight.number then flight else held }

/-- `armFor`, with the flights map read. -/
def armFor (account : AccountRefresh) (row : AccountRow) (settling : Bool) : AccountRefresh :=
  { account with desk := account.desk.armFor config moment settling account.flight.isSome row }

/-- Begin a reconciling read of the account. -/
def sync (account : AccountRefresh) (settling : Bool) : AccountRefresh :=
  let version := account.readVersion + 1
  { account with
    readVersion := version
    reads := some version
    syncs := account.syncs ++ [{ version, settling, seen := [account.stored] }] }

/-- What `sync` does with the answer of its read, when a later `sync` did not take its place. -/
def reconcile (account : AccountRefresh) (settling : Bool) : Option (Option AccountRow) → AccountRefresh
  | some none => { account with desk := account.desk.deleted.forget }
  | some (some row) => account.armFor config moment row settling
  | none =>
    if account.desk.timer.isNone then { account with desk := account.desk.retryHeld config moment } else account

/-- The read of a `sync` answers, or raises. -/
def synced (account : AccountRefresh) (version : ℕ) (answer : Option (Option AccountRow)) : AccountRefresh :=
  match account.syncs.find? (·.version == version) with
  | none => account
  | some read =>
    if answer.all (· ∈ read.seen) then
      let account := { account with syncs := account.syncs.filter (·.version != version) }
      if account.reads = some version then
        let account := if moment.stopped then account else account.reconcile config moment read.settling answer
        { account with reads := none }
      else account
    else account

/-- Begin a flight, unless one is in the map; a flight a timer began knows its credential. -/
def run (account : AccountRefresh) (expected : Option RefreshExpectation) : AccountRefresh :=
  if moment.stopped || account.flight.isSome then account
  else
    let phase := match expected with
      | none => .beginning [account.stored]
      | some expected => .attempting expected .locking
    let flight : RefreshFlight := { number := account.flightNumber, requested := expected, phase }
    { account with
      flight := some flight.number
      flights := account.flights ++ [flight]
      flightNumber := account.flightNumber + 1 }

/-- A timer's callback runs. -/
def fire (account : AccountRefresh) (armed : ArmedTimer) : AccountRefresh :=
  let (desk, due) := account.desk.fired moment armed
  let account := { account with desk }
  match due with
  | some timing => account.run moment (some timing.toRefreshExpectation)
  | none => account

/-- The row of the account among those `start` read, or `start` raised. -/
def listed (account : AccountRefresh) (read : ℕ) (answer : Option (Option AccountRow)) : AccountRefresh :=
  match account.lists[read]? with
  | none => account
  | some seen =>
    if answer.all (· ∈ seen) then
      let account := { account with lists := account.lists.eraseIdx read }
      match answer with
      | some (some row) => if moment.stopped then account else account.armFor config moment row false
      | _ => account
    else account

/-- The read of `retryParked` answers, or raises; a parked account's spent refresh is released. -/
def parkedRead (account : AccountRefresh) (read : ℕ) (answer : Option (Option AccountRow)) : AccountRefresh :=
  match account.parked[read]? with
  | none => account
  | some seen =>
    if answer.all (· ∈ seen) then
      let account := { account with parked := account.parked.eraseIdx read }
      match answer with
      | some (some row) =>
        if row.status = .needsReauth ∧ row.authMaterial.isSome ∧ hasOauthFlow row.provider then
          { account with releasing := account.releasing + 1 }
        else account
      | _ => account
    else account

/-- `releaseAuthRefresh` returned, or raised. -/
def released (account : AccountRefresh) (ok : Bool) : AccountRefresh :=
  if account.releasing = 0 then account
  else
    let account := { account with releasing := account.releasing - 1 }
    if ok then account.run moment none else account

/-- The flight leaves the map, and its account's timer must not be lost with it. -/
def endFlight (account : AccountRefresh) (flight : RefreshFlight) : AccountRefresh :=
  let account := { account with flights := account.flights.filter (·.number != flight.number) }
  if account.flight = some flight.number then
    let account := { account with flight := none }
    if !moment.stopped && account.desk.timer.isNone then
      { account with desk := account.desk.retryHeld config moment }
    else account
  else account

/-- Put off the refresh the flight was made for, and settle the flight. -/
def deferred (account : AccountRefresh) (flight : RefreshFlight) (expected : RefreshExpectation)
    (delayMs : Int) : AccountRefresh :=
  { account with desk := account.desk.defer moment expected delayMs }.setFlight { flight with phase := .settled }

/-- The first part of `apply`: what an outcome means before the row is read again. -/
def apply (account : AccountRefresh) (flight : RefreshFlight) (expected : RefreshExpectation) :
    RefreshOutcome → AccountRefresh
  | .success _ revived => account.setFlight { flight with phase := .attempting expected (.confirming revived) }
  | .skipped reason _ =>
    if moment.abandoned then account.setFlight { flight with phase := .settled }
    else if reason = .busy ∨ reason = .superseded ∨ reason = .aborted then
      account.deferred moment flight expected config.minDelayMs
    else account.setFlight { flight with phase := .settled }
  | .failure reason observed =>
    if moment.abandoned || flight.aborted then account.setFlight { flight with phase := .settled }
    else
      account.setFlight
        { flight with phase := .attempting expected (.latest reason observed [account.stored]) }

/-- One more failed attempt on the timing of the row's credential, and how many it now has. -/
def countAttempt (account : AccountRefresh) (row : AccountRow) : ℕ × AccountRefresh :=
  match account.desk.timing with
  | some timing =>
    if matchesRow timing.toRefreshExpectation row then
      let timing := { timing with attempts := timing.attempts + 1 }
      (timing.attempts, { account with desk := { account.desk with timing := some timing } })
    else (1, account)
  | none => (1, account)

/-- An exhausted account's timing is paused until its lifecycle moves on. -/
def pauseExhausted (account : AccountRefresh) (flight : RefreshFlight) (expected : RefreshExpectation)
    (row : AccountRow) : AccountRefresh :=
  match account.desk.timing with
  | some timing =>
    if matchesRow timing.toRefreshExpectation row ∧ matchesRow expected row ∧
        timing.lifecycleVersion = row.lifecycleVersion then
      let timing := { timing with pausedLifecycleVersion := some row.lifecycleVersion }
      { account with desk := { account.desk with timing := some timing }.disarm }.setFlight
        { flight with phase := .settled }
    else account.setFlight { flight with phase := .settled }
  | none => account.setFlight { flight with phase := .settled }

/-- The rest of `apply` on a failure, with the row as it is now: retry, spend, pause or park. -/
def settleFailure (account : AccountRefresh) (flight : RefreshFlight) (expected : RefreshExpectation)
    (reason : RefreshFailure) (observed : AccountRow) (latest : Option AccountRow) : AccountRefresh :=
  match latest.filter (sameObservation · observed) with
  | none => account.deferred moment flight expected config.minDelayMs
  | some latest =>
    let (tries, account) := account.countAttempt latest
    if reason = .unreachable ∧ tries < config.maxAttempts then
      account.deferred moment flight expected (retryDelayMs tries config.minDelayMs)
    else if latest.status = .needsReauth ∧ latest.authMaterial.isSome then
      account.setFlight { flight with phase := .attempting expected .recording }
    else if latest.status = .exhausted then account.pauseExhausted flight expected latest
    else if observed.status = .disabled ∨ observed.status = .needsReauth then
      account.deferred moment flight expected config.minDelayMs
    else account.setFlight { flight with phase := .attempting expected .recording }

/-- The row reread under the lock decides whether its grant is exchanged. -/
def reread (account : AccountRefresh) (flight : RefreshFlight) (expected : RefreshExpectation)
    (answer : Option AccountRow) (lockAborted : Bool) : AccountRefresh :=
  let leave (account : AccountRefresh) (reason : SkipReason) (row : Option AccountRow) : AccountRefresh :=
    account.setFlight { flight with phase := .attempting expected (.unlocking (some (.skipped reason row))) }
  if lockAborted || flight.aborted then leave account .aborted none
  else
    match answer with
    | none => leave account .unknownAccount none
    | some row =>
      let (isBlocked, desk) := account.desk.blocked row
      let account := { account with desk }
      if isBlocked then leave account .notRefreshable row
      else if !matchesRow expected row then leave account .superseded row
      else if !hasOauthFlow row.provider || !eligible config row then leave account .notRefreshable row
      else
        { account with log := .started row.authMaterial :: account.log }.setFlight
          { flight with
            observation := { flight.observation with row := some row, exchangeStarted := true }
            phase := .attempting expected (.exchanging row) }

/-- The exchange returns or raises; the lock is released either way. -/
def exchanged (account : AccountRefresh) (flight : RefreshFlight) (expected : RefreshExpectation)
    (row : AccountRow) (replies : ExchangeReplies) : AccountRefresh :=
  match refreshCredential row replies with
  | some outcome =>
    { account with log := .finished row.authMaterial :: account.log }.setFlight
      { flight with
        observation := { flight.observation with exchangeFinished := true }
        phase := .attempting expected (.unlocking (some outcome)) }
  | none =>
    { account with log := .raised row.authMaterial :: account.log }.setFlight
      { flight with phase := .attempting expected (.unlocking none) }

/-- What the flight awaits raises: under the lock the lock is still to be released. -/
def faulted (account : AccountRefresh) (flight : RefreshFlight) : AccountRefresh :=
  match flight.phase with
  | .attempting expected (.rereading _) =>
    account.setFlight { flight with phase := .attempting expected (.unlocking none) }
  | .attempting _ (.confirming revived) =>
    if revived then account.setFlight { flight with phase := .raised } else account
  | .attempting _ (.exchanging _) => account
  | .beginning _ | .attempting _ _ => account.setFlight { flight with phase := .raised }
  | _ => account

/-- The flight's `catch`. -/
def caught (account : AccountRefresh) (flight : RefreshFlight) : AccountRefresh :=
  let desk := account.desk.failed config moment flight.requested flight.observation flight.aborted
  let uncertain := flight.observation.exchangeStarted && flight.observation.row.isSome &&
    !flight.observation.exchangeFinished
  let phase := if uncertain && !flight.aborted && !moment.abandoned then .telling else .settled
  { account with desk }.setFlight { flight with phase }

/-- One synchronous stretch of a flight. -/
def flightStep (account : AccountRefresh) (flight : RefreshFlight) (event : FlightEvent) : AccountRefresh :=
  match flight.phase, event with
  | .beginning seen, .begun answer =>
    if answer ∈ seen then
      match answer with
      | some row =>
        if flight.aborted then account.setFlight { flight with phase := .settled }
        else
          (account.armFor config moment row false).setFlight
            { flight with requested := some (expectation row), phase := .attempting (expectation row) .locking }
      | none => account.setFlight { flight with phase := .settled }
    else account
  | .attempting expected .locking, .locked reply =>
    match reply with
    | .acquired =>
      account.setFlight { flight with phase := .attempting expected (.rereading [account.stored]) }
    | .busy => account.apply config moment flight expected (.skipped .busy none)
    | .aborted => account.apply config moment flight expected (.skipped .aborted none)
  | .attempting expected (.rereading seen), .reread answer lockAborted =>
    if answer ∈ seen then account.reread config flight expected answer lockAborted else account
  | .attempting expected (.exchanging row), .exchanged replies => account.exchanged flight expected row replies
  | .attempting expected (.unlocking result), .unlocked =>
    match result with
    | some outcome => account.apply config moment flight expected outcome
    | none => account.setFlight { flight with phase := .raised }
  | .attempting _ (.confirming _), .confirmed => account.setFlight { flight with phase := .settled }
  | .attempting expected (.latest reason observed seen), .latest answer =>
    if answer ∈ seen then
      if flight.aborted then account.setFlight { flight with phase := .settled }
      else account.settleFailure config moment flight expected reason observed answer
    else account
  | .attempting expected .recording, .recorded committed =>
    if committed then account.setFlight { flight with phase := .settled }
    else account.deferred moment flight expected config.minDelayMs
  | _, .faulted => account.faulted flight
  | .raised, .caught => account.caught config moment flight
  | .telling, .told => account.setFlight { flight with phase := .settled }
  | .settled, .finalized =>
    if flight.aborted then account.endFlight config moment flight
    else (account.sync true).setFlight { flight with phase := .syncing (account.readVersion + 1) }
  | .syncing version, .ended =>
    if account.syncs.any (·.version == version) then account else account.endFlight config moment flight
  | _, _ => account

/-- One synchronous stretch of the refresher's work on an account. -/
def step (account : AccountRefresh) : AccountEvent → AccountRefresh
  | .store row => account.store row
  | .fire armed => account.fire moment armed
  | .sync => account.sync false
  | .synced version answer => account.synced config moment version answer
  | .listed read answer => account.listed config moment read answer
  | .refreshNow => account.run moment none
  | .retryParked => { account with parked := account.parked ++ [[account.stored]] }
  | .parkedRead read answer => account.parkedRead read answer
  | .released ok => account.released moment ok
  | .flight number event =>
    match account.flights.find? (·.number == number) with
    | some flight => account.flightStep config moment flight event
    | none => account

/-- `stop` on one account: no timer, no timing, and its flight aborted. -/
def halt (account : AccountRefresh) : AccountRefresh :=
  { account with
    desk := account.desk.forget
    flights := account.flights.map fun flight => { flight with aborted := true } }

/-- `start` begins to read the accounts. -/
def beginList (account : AccountRefresh) : AccountRefresh :=
  { account with lists := account.lists ++ [[account.stored]] }

end AccountRefresh

/-- The refresher: whether it is stopped, still draining or has given up on a flight, and its accounts. -/
structure CredentialRefresher where
  stopped : Bool := false
  stopping : Bool := false
  abandoned : Bool := false
  accounts : List AccountRefresh
  deriving DecidableEq

/-- What happens to the refresher. -/
inductive RefresherEvent
  | start
  | stop
  | drained (complete : Bool)
  | account (index : ℕ) (now : Int) (event : AccountEvent)
  deriving DecidableEq

namespace CredentialRefresher

/-- A refresher as it is created, over accounts that have some stored rows. -/
def create (rows : List (Option AccountRow)) : CredentialRefresher :=
  { accounts := rows.map fun row => { stored := row } }

/-- Some account has a flight in the map. -/
def flying (refresher : CredentialRefresher) : Bool := refresher.accounts.any (·.flight.isSome)

/-- What a stretch of work reads of the refresher. -/
def moment (refresher : CredentialRefresher) (now : Int) : RefreshMoment where
  stopped := refresher.stopped
  abandoned := refresher.abandoned
  now := now

/-- `start`, once a shutdown has drained; it raises while a flight is left in the map. -/
def start (refresher : CredentialRefresher) : CredentialRefresher :=
  if refresher.stopping || refresher.flying then refresher
  else
    { refresher with
      stopped := false
      abandoned := if refresher.stopped then false else refresher.abandoned
      accounts := refresher.accounts.map AccountRefresh.beginList }

def stop (refresher : CredentialRefresher) : CredentialRefresher :=
  if refresher.stopping || (refresher.stopped && refresher.abandoned) then refresher
  else
    { refresher with
      stopped := true
      stopping := true
      accounts := refresher.accounts.map AccountRefresh.halt }

/-- The shutdown is over: its flights have ended, or it no longer waits for them. -/
def drained (refresher : CredentialRefresher) (complete : Bool) : CredentialRefresher :=
  if !refresher.stopping || (complete && refresher.flying) then refresher
  else { refresher with stopping := false, abandoned := refresher.abandoned || !complete }

/-- One step of the refresher. -/
def step (config : RefreshConfig) (refresher : CredentialRefresher) : RefresherEvent → CredentialRefresher
  | .start => refresher.start
  | .stop => refresher.stop
  | .drained complete => refresher.drained complete
  | .account index now event =>
    { refresher with
      accounts := refresher.accounts.modify index fun account =>
        account.step config (refresher.moment now) event }

/-- The refresher after a run from its creation. -/
def after (config : RefreshConfig) (rows : List (Option AccountRow)) (events : List RefresherEvent) :
    CredentialRefresher :=
  runFrom (step config) (create rows) events

end CredentialRefresher

end MultiAiRouter.Accounts
