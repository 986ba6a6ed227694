import MultiAiRouter.Common.Run
import MultiAiRouter.Routing.Types

/-!
# The recovery transactions of one account

The account's recovery row and the transactions on it, each atomic under the row locks it takes. Other transactions
edit the account and its quota windows, and may publish a settled generation.

The fingerprint of a credential is a parameter.
-/

namespace MultiAiRouter.Recovery

open Common Routing

/-- Why a generation was opened. -/
inductive RecoveryReason
  | operatorRecheck
  | operatorEnable
  | authenticationRecovered
  | cooldownExpired
  | quotaStale
  deriving DecidableEq

/-- What the transactions read and write of an account. -/
structure RecoveryAccount where
  lifecycleVersion : ℕ
  healthRecoveryVersion : ℕ
  authMaterial : Option String
  status : AccountStatus
  updatedAt : Int
  deriving DecidableEq

/-- What a caller last saw of an account. -/
structure AccountObservation where
  lifecycleVersion : ℕ
  authMaterial : Option String
  status : AccountStatus
  deriving DecidableEq

/-- One quota window of the account. -/
structure QuotaWindowRow where
  window : QuotaWindowKind
  revision : ℕ
  evidenceState : EvidenceState
  blocksRouting : Bool
  retiredAt : Option Int
  utilization : Option Rat
  utilizationSource : UtilizationSource
  resetsAt : Option Int
  resetSource : ResetSource
  lastCheckedAt : Int
  advisory : Bool
  deriving DecidableEq

/-- The recovery row of the account. -/
structure RecoveryRow where
  generation : String
  revision : ℕ
  lifecycleVersion : ℕ
  credentialFingerprint : String
  state : RecoveryState
  reason : RecoveryReason
  ownerBootId : Option String
  ownershipEpoch : ℕ
  preparationLeaseUntil : Option Int
  permitId : Option String
  issuedAt : Option Int
  outcomeAt : Option Int
  requestedAt : Int
  nextAllowedAt : Int
  quotaRevisions : List (QuotaWindowKind × ℕ)
  deriving DecidableEq

/-- What the database holds for the account, and its clock. -/
structure RecoveryDb where
  now : Int
  account : Option RecoveryAccount
  quotas : List QuotaWindowRow := []
  row : Option RecoveryRow := none
  deriving DecidableEq

/-- A transaction's answer: an error it threw, or the row it returns. -/
abbrev RecoveryAnswer (α : Type) := Except String (Option α)

def maxSafeInteger : Int := 9007199254740991

/-- A duration is a positive safe integer. -/
def durationValid (value : Int) : Bool := decide (1 ≤ value ∧ value ≤ maxSafeInteger)

def durationError : String := "recovery duration must be positive safe integer"

/-- The statuses no permit is issued or hydrated for. -/
def restricted : AccountStatus → Bool
  | .disabled | .exhausted | .needsReauth => true
  | _ => false

/-- The account is as the caller saw it. -/
def observed (account : RecoveryAccount) (expected : AccountObservation) : Bool :=
  account.lifecycleVersion == expected.lifecycleVersion &&
    account.authMaterial == expected.authMaterial && account.status == expected.status

/-- The provider reported when the window resets, and it has not yet. -/
def reportedReset (now : Int) (quota : QuotaWindowRow) : Bool :=
  quota.resetSource == .providerReported &&
    match quota.resetsAt with
    | some resetsAt => decide (now < resetsAt)
    | none => false

/-- The quota evidence a permit may bypass. -/
def capturedQuota (quotas : List QuotaWindowRow) (reason : RecoveryReason) (now : Int) :
    List (QuotaWindowKind × ℕ) :=
  ((quotas.filter fun quota => quota.evidenceState == .current && quota.retiredAt.isNone).filter
    fun quota => reason == .operatorRecheck || !reportedReset now quota).map
      fun quota => (quota.window, quota.revision)

section

variable (fingerprint : Option String → String)

/-- The row of a new generation, one revision after the row it replaces. -/
def replaceGeneration (db : RecoveryDb) (generationCandidate : String) (lifecycleVersion : ℕ)
    (authMaterial : Option String) (reason : RecoveryReason) (cooldownMs : Int) (closed : Bool) : RecoveryRow where
  generation := generationCandidate
  revision := match db.row with
    | some held => held.revision + 1
    | none => 0
  lifecycleVersion := lifecycleVersion
  credentialFingerprint := fingerprint authMaterial
  state := if closed then .cancelled else .pending
  reason := reason
  ownerBootId := none
  ownershipEpoch := 0
  preparationLeaseUntil := none
  permitId := none
  issuedAt := none
  outcomeAt := if closed then some db.now else none
  requestedAt := db.now
  nextAllowedAt := db.now + cooldownMs
  quotaRevisions := capturedQuota db.quotas reason db.now

structure BeginOperatorInput where
  generationCandidate : String
  cooldownMs : Int
  /-- The account a logged-out report was about: its lifecycle version and credential. -/
  negativeAuthObservation : Option (ℕ × Option String) := none
  deriving DecidableEq

structure OperatorRecovery where
  account : RecoveryAccount
  recovery : RecoveryRow
  rechecked : Bool
  clearedStatus : Option AccountStatus
  deriving DecidableEq

/-- An operator asks for a new generation, past the cooldown of the last one. -/
def beginOperatorRecovery (db : RecoveryDb) (input : BeginOperatorInput) :
    RecoveryAnswer OperatorRecovery × RecoveryDb :=
  if !durationValid input.cooldownMs then (.error durationError, db)
  else
    match db.account with
    | none => (.ok none, db)
    | some before =>
      match db.row with
      | some held =>
        if held.generation = input.generationCandidate ∨ held.nextAllowedAt > db.now then
          (.ok (some { account := before, recovery := held, rechecked := false, clearedStatus := none }), db)
        else openGeneration before
      | none => openGeneration before
where
  openGeneration (before : RecoveryAccount) : RecoveryAnswer OperatorRecovery × RecoveryDb :=
    let knownLoggedOut :=
      input.negativeAuthObservation == some (before.lifecycleVersion, before.authMaterial)
    let clearedStatus : Option AccountStatus :=
      if before.status = .exhausted ∧ !knownLoggedOut then some .exhausted else none
    let account : RecoveryAccount :=
      { before with
        lifecycleVersion := before.lifecycleVersion + 1
        healthRecoveryVersion := before.healthRecoveryVersion + 1
        status := if clearedStatus.isSome then .active else before.status
        updatedAt := db.now }
    let recovery := replaceGeneration fingerprint db input.generationCandidate account.lifecycleVersion
      account.authMaterial .operatorRecheck input.cooldownMs (knownLoggedOut || restricted account.status)
    (.ok (some { account, recovery, rechecked := true, clearedStatus }),
      { db with account := some account, row := some recovery })

structure BeginAutomaticInput where
  generationCandidate : String
  expected : AccountObservation
  expectedRecoveryRevision : Option ℕ
  reason : RecoveryReason
  cooldownMs : Int
  maximumOutcomeAgeMs : Int
  deriving DecidableEq

/-- The row still waits for a permit or its outcome. -/
def RecoveryRow.isOpen (row : RecoveryRow) : Bool := row.state == .pending || row.state == .issued

/-- The row was opened for the account as it is. -/
def RecoveryRow.current (row : RecoveryRow) (account : RecoveryAccount) : Bool :=
  row.lifecycleVersion == account.lifecycleVersion &&
    row.credentialFingerprint == fingerprint account.authMaterial

/-- An open row of an account that has moved on is closed; an issued permit's successor waits out
the bound of its call. -/
def fenceRow (now : Int) (maximumOutcomeAgeMs : Int) (held : RecoveryRow) : RecoveryRow :=
  { held with
    state := if held.state = .pending then .cancelled else .uncertain
    outcomeAt := some now
    revision := held.revision + 1
    nextAllowedAt :=
      match held.state, held.issuedAt with
      | .issued, some issuedAt => max held.nextAllowedAt (issuedAt + maximumOutcomeAgeMs)
      | _, _ => held.nextAllowedAt }

/-- Routing asks for a new generation on the revision it captured. -/
def beginAutomaticRecovery (db : RecoveryDb) (input : BeginAutomaticInput) :
    RecoveryAnswer RecoveryRow × RecoveryDb :=
  if !durationValid input.cooldownMs || !durationValid input.maximumOutcomeAgeMs then
    (.error durationError, db)
  else
    match db.account with
    | none => (.ok none, db)
    | some account =>
      match db.row with
      | some held =>
        if held.isOpen && !held.current fingerprint account then
          (.ok none, { db with row := some (fenceRow db.now input.maximumOutcomeAgeMs held) })
        else if !observed account input.expected || restricted account.status then (.ok none, db)
        else if held.isOpen then (.ok (some held), db)
        else if input.expectedRecoveryRevision ≠ some held.revision then (.ok none, db)
        else if held.generation = input.generationCandidate ∨ held.nextAllowedAt > db.now then (.ok none, db)
        else openGeneration account
      | none =>
        if !observed account input.expected || restricted account.status then (.ok none, db)
        else if input.expectedRecoveryRevision ≠ none then (.ok none, db)
        else openGeneration account
where
  openGeneration (account : RecoveryAccount) : RecoveryAnswer RecoveryRow × RecoveryDb :=
    let recovery := replaceGeneration fingerprint db input.generationCandidate account.lifecycleVersion
      account.authMaterial input.reason input.cooldownMs false
    (.ok (some recovery), { db with row := some recovery })

/-- An account update that proved or asserted the account usable publishes a settled generation. -/
def publishAccountRecovery (db : RecoveryDb) (account : RecoveryAccount) (generationCandidate : String)
    (cooldownMs : Int) (reason : RecoveryReason) : RecoveryDb :=
  match db.account with
  | none => db
  | some _ =>
    { db with
      account := some account
      row := some (replaceGeneration fingerprint db generationCandidate account.lifecycleVersion
        account.authMaterial reason cooldownMs true) }

structure AssignInput where
  generation : String
  expectedEpoch : ℕ
  ownerBootId : String
  leaseMs : Int
  deriving DecidableEq

/-- Another boot prepares the permit and its lease still runs. -/
def leasedElsewhere (held : RecoveryRow) (ownerBootId : String) (now : Int) : Bool :=
  held.ownerBootId.isSome && held.ownerBootId != some ownerBootId &&
    match held.preparationLeaseUntil with
    | some until_ => decide (now < until_)
    | none => false

/-- A boot takes over the preparation of a pending generation. -/
def assignPending (db : RecoveryDb) (input : AssignInput) : RecoveryAnswer RecoveryRow × RecoveryDb :=
  if !durationValid input.leaseMs then (.error durationError, db)
  else
    match db.account, db.row with
    | some _, some held =>
      if held.state ≠ .pending ∨ held.generation ≠ input.generation ∨
          held.ownershipEpoch ≠ input.expectedEpoch then (.ok none, db)
      else if leasedElsewhere held input.ownerBootId db.now then (.ok none, db)
      else
        let row := { held with
          ownerBootId := some input.ownerBootId
          ownershipEpoch := held.ownershipEpoch + 1
          revision := held.revision + 1
          preparationLeaseUntil := some (db.now + input.leaseMs) }
        (.ok (some row), { db with row := some row })
    | _, _ => (.ok none, db)

structure IssueInput where
  generation : String
  expectedEpoch : ℕ
  ownerBootId : String
  permitId : String
  expected : AccountObservation
  deriving DecidableEq

/-- The preparation lease has not run out. -/
def leaseRuns (held : RecoveryRow) (now : Int) : Bool :=
  match held.preparationLeaseUntil with
  | some until_ => decide (now < until_)
  | none => false

/-- The owner of a pending generation issues its permit. -/
def issue (db : RecoveryDb) (input : IssueInput) : RecoveryAnswer RecoveryRow × RecoveryDb :=
  match db.account with
  | none => (.ok none, db)
  | some account =>
    if !observed account input.expected || restricted account.status then (.ok none, db)
    else
      match db.row with
      | none => (.ok none, db)
      | some held =>
        if held.generation ≠ input.generation ∨ held.ownerBootId ≠ some input.ownerBootId ∨
            held.ownershipEpoch ≠ input.expectedEpoch ∨ held.current fingerprint account = false then
          (.ok none, db)
        else if held.state = .issued then
          (.ok (if held.permitId = some input.permitId then some held else none), db)
        else if held.state ≠ .pending then (.ok none, db)
        else if !leaseRuns held db.now then (.ok none, db)
        else
          let row := { held with
            state := .issued
            permitId := some input.permitId
            issuedAt := some db.now
            revision := held.revision + 1 }
          (.ok (some row), { db with row := some row })

structure HydrateInput where
  generation : String
  permitId : String
  ownerBootId : String
  expectedEpoch : ℕ
  expected : AccountObservation
  maximumOutcomeAgeMs : Int
  deriving DecidableEq

/-- The permit's owner reads an issued row back while its outcome may still arrive. -/
def hydrateIssued (db : RecoveryDb) (input : HydrateInput) : RecoveryAnswer RecoveryRow :=
  if !durationValid input.maximumOutcomeAgeMs then .error durationError
  else
    match db.account, db.row with
    | some account, some held =>
      if !observed account input.expected || restricted account.status then .ok none
      else if held.state ≠ .issued ∨ held.generation ≠ input.generation ∨
          held.permitId ≠ some input.permitId ∨ held.ownerBootId ≠ some input.ownerBootId ∨
          held.ownershipEpoch ≠ input.expectedEpoch ∨ held.current fingerprint account = false then .ok none
      else
        match held.issuedAt with
        | some issuedAt => .ok (if db.now - issuedAt < input.maximumOutcomeAgeMs then some held else none)
        | none => .ok none
    | _, _ => .ok none

/-- The verdicts an owner records. -/
inductive Verdict
  | succeeded
  | failed
  | uncertain
  deriving DecidableEq

def Verdict.state : Verdict → RecoveryState
  | .succeeded => .succeeded
  | .failed => .failed
  | .uncertain => .uncertain

structure OutcomeInput where
  generation : String
  permitId : String
  ownerBootId : String
  expectedEpoch : ℕ
  expected : AccountObservation
  state : Verdict
  cooldownMs : Int
  quotaSpentThreshold : Rat
  deriving DecidableEq

/-- Retire the captured windows that are still the evidence captured and still spent. -/
def retireCaptured (captured : List (QuotaWindowKind × ℕ)) (threshold : Rat) (now : Int)
    (quota : QuotaWindowRow) : QuotaWindowRow :=
  if (quota.window, quota.revision) ∈ captured ∧ quota.retiredAt = none ∧ quota.evidenceState = .current ∧
      quota.utilization.any fun utilization => decide (threshold ≤ utilization) then
    { quota with
      evidenceState := .supersededByRecovery
      blocksRouting := false
      retiredAt := some now
      revision := quota.revision + 1 }
  else quota

/-- The permit's owner records the verdict. -/
def outcome (db : RecoveryDb) (input : OutcomeInput) : RecoveryAnswer RecoveryRow × RecoveryDb :=
  if !durationValid input.cooldownMs then (.error durationError, db)
  else if input.quotaSpentThreshold ≤ 0 ∨ 1 < input.quotaSpentThreshold then
    (.error "invalid quota spent threshold", db)
  else
    match db.account with
    | none => (.ok none, db)
    | some account =>
      if account.lifecycleVersion ≠ input.expected.lifecycleVersion ∨
          account.authMaterial ≠ input.expected.authMaterial then (.ok none, db)
      else
        match db.row with
        | none => (.ok none, db)
        | some held =>
          if held.generation ≠ input.generation ∨ held.permitId ≠ some input.permitId ∨
              held.ownerBootId ≠ some input.ownerBootId ∨ held.ownershipEpoch ≠ input.expectedEpoch ∨
              held.current fingerprint account = false then (.ok none, db)
          else if held.state = input.state.state then (.ok (some held), db)
          else if held.state ≠ .issued then (.ok none, db)
          else
            let row := { held with
              state := input.state.state
              outcomeAt := some db.now
              revision := held.revision + 1
              nextAllowedAt := db.now + input.cooldownMs }
            let retires := input.state = .succeeded ∧
              (account.status = .active ∨ account.status = .coolingDown)
            (.ok (some row), { db with
              row := some row
              quotas := if retires then
                  db.quotas.map (retireCaptured held.quotaRevisions input.quotaSpentThreshold db.now)
                else db.quotas })

structure UncertainInput where
  generation : String
  permitId : String
  maximumOutcomeAgeMs : Int
  deriving DecidableEq

/-- Any boot closes a permit whose outcome is overdue. -/
def markUncertain (db : RecoveryDb) (input : UncertainInput) : RecoveryAnswer RecoveryRow × RecoveryDb :=
  if !durationValid input.maximumOutcomeAgeMs then (.error durationError, db)
  else
    match db.account, db.row with
    | some _, some held =>
      if held.state ≠ .issued ∨ held.generation ≠ input.generation ∨
          held.permitId ≠ some input.permitId then (.ok none, db)
      else
        match held.issuedAt with
        | none => (.ok none, db)
        | some issuedAt =>
          if db.now - issuedAt < input.maximumOutcomeAgeMs then (.ok none, db)
          else
            let row := { held with
              state := .uncertain
              outcomeAt := some db.now
              revision := held.revision + 1 }
            (.ok (some row), { db with row := some row })
    | _, _ => (.ok none, db)

structure SettleInput where
  ownerBootId : String
  /-- The permit the boot found on its row before the transaction. -/
  permitId : Option String
  cooldownMs : Int
  deriving DecidableEq

/-- A boot that shuts down closes its own permit. -/
def settleIssuedForOwner (db : RecoveryDb) (input : SettleInput) : RecoveryAnswer RecoveryRow × RecoveryDb :=
  if !durationValid input.cooldownMs then (.error durationError, db)
  else
    match db.account, db.row with
    | some _, some held =>
      if held.state ≠ .issued ∨ held.ownerBootId ≠ some input.ownerBootId ∨
          held.permitId ≠ input.permitId then (.ok none, db)
      else
        let row := { held with
          state := .uncertain
          outcomeAt := some db.now
          revision := held.revision + 1
          nextAllowedAt := db.now + input.cooldownMs }
        (.ok (some row), { db with row := some row })
    | _, _ => (.ok none, db)

/-- Close an open generation. -/
def cancel (db : RecoveryDb) (generation : String) : RecoveryAnswer RecoveryRow × RecoveryDb :=
  match db.account, db.row with
  | some _, some held =>
    if held.generation ≠ generation ∨ held.isOpen = false then (.ok none, db)
    else
      let row := { held with
        state := .cancelled
        outcomeAt := some db.now
        revision := held.revision + 1 }
      (.ok (some row), { db with row := some row })
  | _, _ => (.ok none, db)

/-- Its clock moves, another transaction edits the account or its quota windows, or a recovery
transaction runs. -/
inductive RecoveryCall
  | tick (ms : ℕ)
  | editAccount (account : RecoveryAccount)
  | editQuotas (quotas : List QuotaWindowRow)
  | publish (account : RecoveryAccount) (generationCandidate : String) (cooldownMs : Int)
      (reason : RecoveryReason)
  | beginOperator (input : BeginOperatorInput)
  | beginAutomatic (input : BeginAutomaticInput)
  | assignPending (input : AssignInput)
  | issue (input : IssueInput)
  | hydrateIssued (input : HydrateInput)
  | outcome (input : OutcomeInput)
  | markUncertain (input : UncertainInput)
  | settleIssued (input : SettleInput)
  | cancel (generation : String)
  deriving DecidableEq

/-- One transaction commits. -/
def RecoveryDb.step (db : RecoveryDb) : RecoveryCall → RecoveryDb
  | .tick ms => { db with now := db.now + ms }
  | .editAccount account => { db with account := db.account.map fun _ => account }
  | .editQuotas quotas => { db with quotas }
  | .publish account generationCandidate cooldownMs reason =>
    publishAccountRecovery fingerprint db account generationCandidate cooldownMs reason
  | .beginOperator input => (beginOperatorRecovery fingerprint db input).2
  | .beginAutomatic input => (beginAutomaticRecovery fingerprint db input).2
  | .assignPending input => (Recovery.assignPending db input).2
  | .issue input => (Recovery.issue fingerprint db input).2
  | .hydrateIssued _ => db
  | .outcome input => (Recovery.outcome fingerprint db input).2
  | .markUncertain input => (Recovery.markUncertain db input).2
  | .settleIssued input => (settleIssuedForOwner db input).2
  | .cancel generation => (Recovery.cancel db generation).2

/-- The transactions committed on the account, in order. -/
def RecoveryDb.run (db : RecoveryDb) (calls : List RecoveryCall) : RecoveryDb :=
  runFrom (RecoveryDb.step fingerprint) db calls

end

end MultiAiRouter.Recovery
