import Mathlib.Logic.Function.Basic
import MultiAiRouter.Recovery.Transactions

/-!
# The recovery coordinator of one boot

A tick works through the queued requests and outcomes, the overdue permits, the permits to expose and the pending
generations to issue, one transaction at a time. A verdict on a permit is captured once, and leaves the bounded
queue when its transaction came back. A stop writes the queued outcomes, then sweeps the boot's issued permits in
batches; with a tick in flight it does both again after it. What the tick reads comes with the event.
-/

namespace MultiAiRouter.Recovery

/-- A verdict on a permit, with what fences it. -/
structure RecoveryOutcome where
  accountId : String
  generation : String
  permitId : String
  ownershipEpoch : ℕ
  expected : AccountObservation
  state : Verdict
  deriving DecidableEq

/-- Capture a verdict; one already captured under the permit stands. -/
def captureOutcome (outcomeCapacity : ℕ) (outcomes : List RecoveryOutcome) (value : RecoveryOutcome) :
    Bool × List RecoveryOutcome :=
  match outcomes.find? fun held => held.permitId == value.permitId with
  | some held => (held.generation == value.generation && held.accountId == value.accountId, outcomes)
  | none => if outcomeCapacity ≤ outcomes.length then (false, outcomes) else (true, outcomes ++ [value])

/-- The oldest verdicts. -/
def outcomeBatch (limit : ℕ) (outcomes : List RecoveryOutcome) : List RecoveryOutcome := outcomes.take limit

/-- The verdict's transaction came back. -/
def outcomeCompleted (value : RecoveryOutcome) (outcomes : List RecoveryOutcome) : List RecoveryOutcome :=
  outcomes.filter fun held => held != value

/-- A captured verdict is one that was there, or the value itself. -/
theorem mem_captureOutcome {outcomeCapacity : ℕ} {outcomes : List RecoveryOutcome} {value held : RecoveryOutcome}
    (h : held ∈ (captureOutcome outcomeCapacity outcomes value).2) : held ∈ outcomes ∨ held = value := by
  unfold captureOutcome at h
  split at h
  · exact .inl h
  · split at h
    · exact .inl h
    · simpa using h

/-- What was captured stays captured. -/
theorem mem_captureOutcome_of_mem {outcomes : List RecoveryOutcome} {held : RecoveryOutcome} (h : held ∈ outcomes)
    (outcomeCapacity : ℕ) (value : RecoveryOutcome) : held ∈ (captureOutcome outcomeCapacity outcomes value).2 := by
  unfold captureOutcome
  split
  · exact h
  · split
    · exact h
    · exact List.mem_append_left _ h

/-- The queue stays within its capacity. -/
theorem captureOutcome_length_le {outcomeCapacity : ℕ} {outcomes : List RecoveryOutcome}
    (h : outcomes.length ≤ outcomeCapacity) (value : RecoveryOutcome) :
    (captureOutcome outcomeCapacity outcomes value).2.length ≤ outcomeCapacity := by
  unfold captureOutcome
  split
  · exact h
  · split
    · exact h
    · rw [List.length_append, List.length_singleton]
      omega

open Common Routing

/-- The coordinator's numbers, as far as the transactions accept them. -/
structure CoordinatorConfig where
  bootId : String
  batchSize : ℕ
  outcomeCapacity : ℕ
  preparationLeaseMs : Int
  maximumOutcomeMs : Int
  cooldownMs : Int
  quotaSpentThreshold : Rat
  batchSize_pos : 0 < batchSize
  lease_valid : durationValid preparationLeaseMs = true
  maximum_valid : durationValid maximumOutcomeMs = true
  cooldown_valid : durationValid cooldownMs = true
  threshold_valid : 0 < quotaSpentThreshold ∧ quotaSpentThreshold ≤ 1

/-- A transaction of the coordinator, on one account. -/
structure AccountCall where
  accountId : String
  call : RecoveryCall
  deriving DecidableEq

/-- What a tick does when what it awaits is there. -/
inductive WorkStage
  | opening
  | automatic (rest : List (String × BeginAutomaticInput))
  | writing (outcome : RecoveryOutcome) (rest : List RecoveryOutcome)
  | reconciling
  | listingExpired
  | expiring (rest : List (String × RecoveryRow))
  | listingIssued
  | exposing (rest : List (String × RecoveryRow))
  | listingPending
  | assigning (accountId : String) (rest : List (String × RecoveryRow))
  | finding (accountId : String) (assigned : RecoveryRow) (rest : List (String × RecoveryRow))
  | issuing (rest : List (String × RecoveryRow))
  | exposingIssued (rest : List (String × RecoveryRow))
  | closing
  deriving DecidableEq

/-- A tick in flight: the transaction it awaits until it commits, what it answered, and what is next. -/
structure Flight where
  stage : WorkStage
  awaited : Option AccountCall := none
  answer : Option RecoveryRow := none
  deriving DecidableEq

/-- How far a settlement has come. -/
inductive SettleStage
  /-- The outcomes yet to write. -/
  | writing (rest : List RecoveryOutcome)
  | selecting
  /-- The selected rows yet to settle, how many were selected, and how many were settled. -/
  | sweeping (rest : List (String × Option String)) (selected settled : ℕ)
  deriving DecidableEq

/-- How far a stop has come; `again` waits for the tick in flight and settles once more. -/
inductive StopStage
  | running
  | settling (stage : SettleStage) (again : Bool)
  | awaitingFlight
  | resolved
  deriving DecidableEq

/-- What the boot's verdicts came to in the database, and what its sweeps settled. -/
inductive DrainEntry
  | outcome (outcome : RecoveryOutcome) (answer : Option RecoveryRow)
  | settled (accountId : String) (permitId : Option String)
  deriving DecidableEq

/-- The coordinator beside the database. -/
structure Coordinator where
  db : String → RecoveryDb
  outcomes : List RecoveryOutcome := []
  flight : Option Flight := none
  stopped : Bool := false
  issuanceClosed : Bool := false
  stop : StopStage := .running
  /-- Every verdict recorded, as it stands in the queue. -/
  accepted : List RecoveryOutcome := []
  /-- The newest entry first. -/
  log : List DrainEntry := []

/-- What the tick is given when it goes on. -/
structure WorkReading where
  requests : List (String × BeginAutomaticInput) := []
  rows : List (String × RecoveryRow) := []
  demanded : String → Bool := fun _ => true
  account : Option RecoveryAccount := none
  permitId : String := ""

/-- What can happen next. -/
inductive CoordinatorEvent
  /-- A transaction of another boot, or another one on the account. -/
  | external (call : AccountCall)
  | recordOutcome (value : RecoveryOutcome)
  | closeIssuance
  | tick
  | commit
  | resume (reading : WorkReading)
  | stop
  | drainOutcome
  | select (chosen : List String)
  | settleNext
  | flightEnded

section

variable (fingerprint : Option String → String) (config : CoordinatorConfig)

/-- The row a transaction answers with; none where it was fenced. -/
def callAnswer (db : RecoveryDb) : RecoveryCall → Option RecoveryRow
  | .assignPending input => (assignPending db input).1.toOption.join
  | .issue input => (issue fingerprint db input).1.toOption.join
  | .outcome input => (outcome fingerprint db input).1.toOption.join
  | .markUncertain input => (markUncertain db input).1.toOption.join
  | .settleIssued input => (settleIssuedForOwner db input).1.toOption.join
  | _ => none

/-- The transaction of an automatic request. -/
def automaticCall (accountId : String) (request : BeginAutomaticInput) : AccountCall where
  accountId := accountId
  call := .beginAutomatic
    { request with cooldownMs := config.cooldownMs, maximumOutcomeAgeMs := config.maximumOutcomeMs }

/-- The transaction that writes an outcome. -/
def outcomeCall (value : RecoveryOutcome) : AccountCall where
  accountId := value.accountId
  call := .outcome
    { generation := value.generation
      permitId := value.permitId
      ownerBootId := config.bootId
      expectedEpoch := value.ownershipEpoch
      expected := value.expected
      state := value.state
      cooldownMs := config.cooldownMs
      quotaSpentThreshold := config.quotaSpentThreshold }

/-- The transaction that settles a selected row. -/
def settleCall (accountId : String) (permitId : Option String) : AccountCall where
  accountId := accountId
  call := .settleIssued { ownerBootId := config.bootId, permitId, cooldownMs := config.cooldownMs }

namespace Coordinator

variable (state : Coordinator)

/-- A transaction commits. -/
def apply (call : AccountCall) : Coordinator :=
  { state with
    db := Function.update state.db call.accountId ((state.db call.accountId).step fingerprint call.call) }

/-- What a transaction would answer now. -/
def answerOf (call : AccountCall) : Option RecoveryRow := callAnswer fingerprint (state.db call.accountId) call.call

/-- New permits may be issued. -/
def issues : Bool := !state.stopped && !state.issuanceClosed

/-- The tick goes on with this stage, awaiting this transaction. -/
def await (stage : WorkStage) (awaited : Option AccountCall) : Coordinator :=
  { state with flight := some { stage, awaited } }

/-- The tick is over. -/
def land : Coordinator := { state with flight := none }

/-- Write the next outcome of the batch, or reconcile the catalog. -/
def writeOutcomes : List RecoveryOutcome → Coordinator
  | [] => state.await .reconciling none
  | value :: rest =>
    if state.stopped then state.land
    else state.await (.writing value rest) (some (outcomeCall config value))

/-- Make the next automatic request of the batch, or go on to the outcomes. -/
def requestAutomatic : List (String × BeginAutomaticInput) → Coordinator
  | [] => state.writeOutcomes config (outcomeBatch config.batchSize state.outcomes)
  | (accountId, request) :: rest =>
    if state.stopped then state.land
    else state.await (.automatic rest) (some (automaticCall config accountId request))

/-- Close the next overdue permit, or list the permits to expose. -/
def expireRows : List (String × RecoveryRow) → Coordinator
  | [] => if state.stopped then state.land else state.await .listingIssued none
  | (accountId, row) :: rest =>
    if state.stopped then state.land
    else
      match row.permitId with
      | none => expireRows rest
      | some permitId => state.await (.expiring rest) <| some
        { accountId
          call := .markUncertain
            { generation := row.generation, permitId, maximumOutcomeAgeMs := config.maximumOutcomeMs } }

/-- Expose the next issued row, or list the pending generations. -/
def exposeRows : List (String × RecoveryRow) → Coordinator
  | [] => if !state.issues then state.land else state.await .listingPending none
  | _ :: rest => if state.stopped then state.land else state.await (.exposing rest) none

/-- Prepare the next pending generation that is asked for, or reconcile the catalog and end. -/
def issuePending (demanded : String → Bool) : List (String × RecoveryRow) → Coordinator
  | [] => state.await .closing none
  | (accountId, row) :: rest =>
    if !state.issues then state.land
    else if !demanded accountId then issuePending demanded rest
    else state.await (.assigning accountId rest) <| some
      { accountId
        call := .assignPending
          { generation := row.generation, expectedEpoch := row.ownershipEpoch, ownerBootId := config.bootId
            leaseMs := config.preparationLeaseMs } }

/-- The account is the one the generation was prepared for. -/
def mayIssue (assigned : RecoveryRow) (account : RecoveryAccount) : Bool :=
  account.lifecycleVersion == assigned.lifecycleVersion && !restricted account.status

/-- The tick goes on after what it awaited. -/
def continueWork (flight : Flight) (reading : WorkReading) : Coordinator :=
  match flight.stage with
  | .opening => state.requestAutomatic config (reading.requests.take config.batchSize)
  | .automatic rest => state.requestAutomatic config rest
  | .writing value rest =>
    { state with outcomes := outcomeCompleted value state.outcomes }.writeOutcomes config rest
  | .reconciling => if state.stopped then state.land else state.await .listingExpired none
  | .listingExpired => state.expireRows config reading.rows
  | .expiring rest => state.expireRows config rest
  | .listingIssued => state.exposeRows reading.rows
  | .exposing rest => state.exposeRows rest
  | .listingPending => state.issuePending config reading.demanded reading.rows
  | .assigning accountId rest =>
    match flight.answer with
    | some assigned =>
      if !state.issues || assigned.ownerBootId != some config.bootId then
        state.issuePending config reading.demanded rest
      else state.await (.finding accountId assigned rest) none
    | none => state.issuePending config reading.demanded rest
  | .finding accountId assigned rest =>
    match reading.account with
    | some account =>
      if !state.issues || !mayIssue assigned account then state.issuePending config reading.demanded rest
      else state.await (.issuing rest) <| some
        { accountId
          call := .issue
            { generation := assigned.generation
              expectedEpoch := assigned.ownershipEpoch
              ownerBootId := config.bootId
              permitId := reading.permitId
              expected :=
                { lifecycleVersion := account.lifecycleVersion, authMaterial := account.authMaterial
                  status := account.status } } }
    | none => state.issuePending config reading.demanded rest
  | .issuing rest =>
    match flight.answer with
    | some _ => state.await (.exposingIssued rest) none
    | none => state.issuePending config reading.demanded rest
  | .exposingIssued rest => state.issuePending config reading.demanded rest
  | .closing => state.land

/-- The transaction the tick awaits commits. -/
def commit : Coordinator :=
  match state.flight with
  | some flight =>
    match flight.awaited with
    | some call =>
      let committed :=
        { state.apply fingerprint call with
          flight := some { flight with awaited := none, answer := state.answerOf fingerprint call } }
      match flight.stage with
      | .writing value _ => { committed with log := .outcome value (state.answerOf fingerprint call) :: state.log }
      | _ => committed
    | none => state
  | none => state

/-- The tick's continuation runs, once what it awaits is there. -/
def resume (reading : WorkReading) : Coordinator :=
  match state.flight with
  | some flight => if flight.awaited.isSome then state else state.continueWork config flight reading
  | none => state

/-- Begin a settlement with the queued outcomes. -/
def settle (again : Bool) : Coordinator :=
  { state with stop := .settling (.writing (outcomeBatch config.outcomeCapacity state.outcomes)) again }

/-- A settlement is over. -/
def settlementOver (again : Bool) : Coordinator :=
  { state with stop := if again then .awaitingFlight else .resolved }

/-- The next queued outcome is written, or there is none left and the sweep begins. Nothing reads the queue between
the commit and its continuation. -/
def drainOutcome : Coordinator :=
  match state.stop with
  | .settling (.writing []) again => { state with stop := .settling .selecting again }
  | .settling (.writing (value :: rest)) again =>
    { state.apply fingerprint (outcomeCall config value) with
      outcomes := outcomeCompleted value state.outcomes
      stop := .settling (.writing rest) again
      log := .outcome value (state.answerOf fingerprint (outcomeCall config value)) :: state.log }
  | _ => state

/-- The rows of the boot to settle next. -/
def select (chosen : List String) : Coordinator :=
  match state.stop with
  | .settling .selecting again =>
    let owned := chosen.map fun accountId =>
      (accountId, (state.db accountId).row.bind RecoveryRow.permitId)
    { state with stop := .settling (.sweeping owned owned.length 0) again }
  | _ => state

/-- The next selected row is settled; after the last one the sweep goes on as long as it settled a full
batch. -/
def settleNext : Coordinator :=
  match state.stop with
  | .settling (.sweeping [] _ settled) again =>
    if settled = config.batchSize then { state with stop := .settling .selecting again }
    else state.settlementOver again
  | .settling (.sweeping ((accountId, permitId) :: rest) selected settled) again =>
    let call := settleCall config accountId permitId
    match state.answerOf fingerprint call with
    | some _ =>
      { state.apply fingerprint call with
        stop := .settling (.sweeping rest selected (settled + 1)) again
        log := .settled accountId permitId :: state.log }
    | none => { state.apply fingerprint call with stop := .settling (.sweeping rest selected settled) again }
  | _ => state

/-- One event. -/
def step : CoordinatorEvent → Coordinator
  | .external call => state.apply fingerprint call
  | .recordOutcome value =>
    if state.stopped then state
    else
      let (taken, outcomes) := captureOutcome config.outcomeCapacity state.outcomes value
      { state with
        outcomes
        accepted :=
          if taken then (outcomes.filter fun held => held.permitId == value.permitId) ++ state.accepted
          else state.accepted }
  | .closeIssuance => { state with issuanceClosed := true }
  | .tick =>
    if state.stopped || state.flight.isSome then state
    else { state with flight := some { stage := .opening } }
  | .commit => state.commit fingerprint
  | .resume reading => state.resume config reading
  | .stop =>
    if state.stop = .running then
      { state with stopped := true }.settle config state.flight.isSome
    else state
  | .drainOutcome => state.drainOutcome fingerprint config
  | .select chosen => state.select chosen
  | .settleNext => state.settleNext fingerprint config
  | .flightEnded =>
    if state.stop = .awaitingFlight ∧ state.flight.isNone then state.settle config false else state

/-- The coordinator after these events. -/
def run (events : List CoordinatorEvent) : Coordinator := runFrom (step fingerprint config) state events

end Coordinator

end

/-- The row is issued to this boot. -/
def IssuedTo (bootId : String) (db : RecoveryDb) : Prop :=
  ∃ row, db.row = some row ∧ row.state = .issued ∧ row.ownerBootId = some bootId

/-- The query's answer: rows issued to the boot, at most a batch of them, and all of them if fewer. -/
structure SelectAnswer (config : CoordinatorConfig) (db : String → RecoveryDb) (chosen : List String) : Prop where
  nodup : chosen.Nodup
  issued : ∀ accountId ∈ chosen, IssuedTo config.bootId (db accountId)
  length_le : chosen.length ≤ config.batchSize
  complete : chosen.length < config.batchSize → ∀ accountId, IssuedTo config.bootId (db accountId) → accountId ∈ chosen

/-- What the database answers is right, and no other boot issues under this boot's identity. -/
def Possible (config : CoordinatorConfig) (state : Coordinator) : CoordinatorEvent → Prop
  | .external call => ∀ input, call.call = .issue input → input.ownerBootId ≠ config.bootId
  | .select chosen => SelectAnswer config state.db chosen
  | _ => True

end MultiAiRouter.Recovery
