import MultiAiRouter.Recovery.QuotaRows

/-!
# The lifecycle of one account

`createAccountLifecycle` and `createObservedQuotaWindowMutation`: operators, refreshes and authorizations change the
account's row and raise its versions; observers write only where the row is still as they saw it. Each method is one
statement or transaction under the row's lock, so one step. A raise past the `integer` column fails and changes
nothing.
-/

namespace MultiAiRouter.Accounts.Lifecycle

open Common Routing Recovery

/-- The row of the account, as far as its lifecycle reads or writes it. -/
structure AccountRow where
  status : AccountStatus
  lifecycleVersion : ℕ
  healthRecoveryVersion : ℕ
  authRecoveryVersion : ℕ
  authorizationAttemptId : Option String
  authMaterial : Option String
  tokenExpiresAt : Option Int
  authRefreshSpentOn : Option String
  updatedAt : Int
  deriving DecidableEq

/-- The lease an operator's check holds on the account. -/
structure OperatorCheck where
  claimToken : String
  leaseUntil : Int
  deriving DecidableEq

/-- What the database holds for the account. -/
structure AccountDb where
  account : Option AccountRow
  quotas : List QuotaWindowRow := []
  recovery : Option RecoveryRow := none
  operatorCheck : Option OperatorCheck := none
  deriving DecidableEq

/-- What an observer saw; what it left out is not compared. A generation of `some none` is the absence of
a recovery row. -/
structure AccountObservation where
  lifecycleVersion : ℕ
  authMaterial : Option String
  status : AccountStatus
  healthRecoveryVersion : Option ℕ := none
  authRecoveryVersion : Option ℕ := none
  recoveryGeneration : Option (Option String) := none
  operatorCheckToken : Option String := none
  deriving DecidableEq

/-- What an observer of a quota window saw. -/
structure AccountQuotaObservation where
  lifecycleVersion : ℕ
  healthRecoveryVersion : ℕ
  authRecoveryVersion : ℕ
  authMaterial : Option String
  status : AccountStatus
  recoveryGeneration : Option String
  deriving DecidableEq

/-- What an operator changes: a field that is absent stays. -/
structure AccountPatch where
  authMaterial : Option (Option String) := none
  tokenExpiresAt : Option (Option Int) := none
  status : Option AccountStatus := none
  deriving DecidableEq

/-- The operator replaces the credential. -/
def AccountPatch.credential (patch : AccountPatch) : Bool := patch.authMaterial.isSome

/-- The operator states an intent. -/
def AccountPatch.intent (patch : AccountPatch) : Bool := patch.credential || patch.status.isSome

/-- What the database answers: an error it raised, or the row it returns. -/
abbrev LifecycleAnswer := Except String (Option AccountRow)

/-- The largest value of an `integer` column. -/
def maxInteger : ℕ := 2147483647

def integerError : String := "integer out of range"

/-- One more, within the column's range. -/
def raise (version : ℕ) : Except String ℕ :=
  if version < maxInteger then .ok (version + 1) else .error integerError

/-- One more where the condition holds. -/
def raiseIf (condition : Bool) (version : ℕ) : Except String ℕ := if condition then raise version else .ok version

/-- The recovery row is the one that was seen, where one was. -/
def observedGeneration (db : AccountDb) (expected : Option (Option String)) : Bool :=
  expected.all fun generation => db.recovery.map RecoveryRow.generation == generation

/-- The operator's check still holds its lease, where the observer named one. -/
def observedOperatorCheck (db : AccountDb) (clock : Int) (token : Option String) : Bool :=
  token.all fun token => db.operatorCheck.any fun check =>
  check.claimToken == token && decide (clock < check.leaseUntil)

/-- The account is as the observer saw it. -/
def observedAccount (db : AccountDb) (clock : Int) (expected : AccountObservation) (row : AccountRow) : Bool :=
  row.lifecycleVersion == expected.lifecycleVersion && row.authMaterial == expected.authMaterial &&
    row.status == expected.status &&
    expected.healthRecoveryVersion.all (fun version => row.healthRecoveryVersion == version) &&
    expected.authRecoveryVersion.all (fun version => row.authRecoveryVersion == version) &&
    observedGeneration db expected.recoveryGeneration && observedOperatorCheck db clock expected.operatorCheckToken

/-- An account that waits for its authorization has it. -/
def reauthorized : AccountStatus → AccountStatus
  | .needsReauth => .active
  | status => status

section Methods

variable (fingerprint : Option String → String) (cooldownMs : Int)

/-- The account was proved or asserted usable: a settled generation replaces the recovery row. -/
def AccountDb.publish (db : AccountDb) (account : AccountRow) (clock : Int) (generation : String)
    (reason : RecoveryReason) : AccountDb :=
  { db with
    account := some account
    recovery := some (replaceGeneration fingerprint
      { now := clock, account := none, quotas := db.quotas, row := db.recovery } generation account.lifecycleVersion
      account.authMaterial reason cooldownMs true) }

/-- The change of the row where the guard holds, as one statement makes it. -/
def AccountDb.updateWhere (db : AccountDb) (guard : AccountRow → Bool) (change : AccountRow → Except String AccountRow)
    (commit : AccountRow → AccountDb) : LifecycleAnswer × AccountDb :=
  match db.account.filter guard with
  | none => (.ok none, db)
  | some row =>
    match change row with
    | .error message => (.error message, db)
    | .ok changed => (.ok (some changed), commit changed)

/-- The row alone is written. -/
def AccountDb.write (db : AccountDb) (account : AccountRow) : AccountDb := { db with account := some account }

structure CompleteAuthorizationInput where
  lifecycleVersion : ℕ
  authMaterial : Option String
  observedStatus : Option AccountStatus
  recoveryGeneration : Option (Option String)
  operatorCheckToken : Option String
  generation : String
  clock : Int
  now : Int
  deriving DecidableEq

def completeAuthorization (db : AccountDb) (input : CompleteAuthorizationInput) : LifecycleAnswer × AccountDb :=
  db.updateWhere
    (fun row => row.lifecycleVersion == input.lifecycleVersion && row.authMaterial == input.authMaterial &&
      input.observedStatus.all (fun status => row.status == status) &&
      observedGeneration db input.recoveryGeneration && observedOperatorCheck db input.clock input.operatorCheckToken)
    (fun row => do
      let lifecycleVersion ← raise row.lifecycleVersion
      let authRecoveryVersion ← raise row.authRecoveryVersion
      return { row with
        lifecycleVersion, authRecoveryVersion, status := reauthorized row.status, updatedAt := input.now })
    fun account => db.publish fingerprint cooldownMs account input.clock input.generation .authenticationRecovered

structure RefreshedInput where
  expectedAuthMaterial : String
  authMaterial : String
  tokenExpiresAt : Option Int
  generation : String
  clock : Int
  now : Int
  deriving DecidableEq

def saveRefreshedCredential (db : AccountDb) (input : RefreshedInput) : LifecycleAnswer × AccountDb :=
  db.updateWhere (fun row => row.authMaterial == some input.expectedAuthMaterial)
    (fun row => .ok { row with
      authMaterial := some input.authMaterial, tokenExpiresAt := input.tokenExpiresAt, updatedAt := input.now })
    db.write

def reviveRefreshedCredential (db : AccountDb) (input : RefreshedInput) : LifecycleAnswer × AccountDb :=
  db.updateWhere (fun row => row.authMaterial == some input.expectedAuthMaterial)
    (fun row => do
      let lifecycleVersion ← raise row.lifecycleVersion
      let authRecoveryVersion ← raise row.authRecoveryVersion
      return { row with
        authMaterial := some input.authMaterial
        tokenExpiresAt := input.tokenExpiresAt
        authRefreshSpentOn := some (fingerprint (some input.authMaterial))
        lifecycleVersion
        authRecoveryVersion
        status := reauthorized row.status
        updatedAt := input.now })
    fun account => db.publish fingerprint cooldownMs account input.clock input.generation .authenticationRecovered

structure TransitionInput where
  expected : AccountObservation
  status : AccountStatus
  quotaWindows : Option (List QuotaReading)
  clock : Int
  now : Int
  deriving DecidableEq

/-- The observation states everything a bundle of quota windows is compared with. -/
def AccountObservation.complete (expected : AccountObservation) : Bool :=
  expected.healthRecoveryVersion.isSome && expected.authRecoveryVersion.isSome && expected.recoveryGeneration.isSome

/-- The readings are written one after another. -/
def writeQuotas (quotas : List QuotaWindowRow) (readings : List QuotaReading) : List QuotaWindowRow :=
  readings.foldl (fun quotas reading => (upsertQuotaWindow quotas reading).2) quotas

def transitionObservedStatus (db : AccountDb) (input : TransitionInput) : LifecycleAnswer × AccountDb :=
  if input.status = input.expected.status then (.ok none, db)
  else if input.quotaWindows.isSome && !input.expected.complete then
    (.error "bundled quota requires complete observation", db)
  else
    db.updateWhere (observedAccount db input.clock input.expected)
      (fun row => .ok { row with status := input.status, updatedAt := input.now })
      fun account =>
        { db with account := some account, quotas := writeQuotas db.quotas (input.quotaWindows.getD []) }

structure OperatorInput where
  patch : AccountPatch
  generation : String
  clock : Int
  now : Int
  deriving DecidableEq

def updateOperatorAccount (db : AccountDb) (input : OperatorInput) : LifecycleAnswer × AccountDb :=
  let patch := input.patch
  let enables := patch.status == some .active
  db.updateWhere (fun _ => true)
    (fun row => do
      let authRecoveryVersion ← raiseIf patch.credential row.authRecoveryVersion
      let lifecycleVersion ← raiseIf patch.intent row.lifecycleVersion
      let healthRecoveryVersion ← raiseIf enables row.healthRecoveryVersion
      return { row with
        authMaterial := patch.authMaterial.getD row.authMaterial
        tokenExpiresAt := if patch.credential then patch.tokenExpiresAt.getD none
          else patch.tokenExpiresAt.getD row.tokenExpiresAt
        status := patch.status.getD row.status
        authorizationAttemptId := if patch.intent then none else row.authorizationAttemptId
        authRecoveryVersion
        lifecycleVersion
        healthRecoveryVersion
        updatedAt := input.now })
    fun account =>
      if patch.credential || enables then
        db.publish fingerprint cooldownMs account input.clock input.generation
          (if patch.credential then .authenticationRecovered else .operatorEnable)
      else db.write account

/-- A re-check brings an exhausted account back. -/
def rechecked : AccountStatus → AccountStatus
  | .exhausted => .active
  | status => status

def recheckAccount (db : AccountDb) (now : Int) : LifecycleAnswer × AccountDb :=
  db.updateWhere (fun _ => true)
    (fun row => do
      let lifecycleVersion ← raise row.lifecycleVersion
      let healthRecoveryVersion ← raise row.healthRecoveryVersion
      return { row with lifecycleVersion, healthRecoveryVersion, status := rechecked row.status, updatedAt := now })
    db.write

structure RecoverInput where
  expected : AccountObservation
  generation : String
  clock : Int
  now : Int
  deriving DecidableEq

def recoverObservedAuthentication (db : AccountDb) (input : RecoverInput) : LifecycleAnswer × AccountDb :=
  if input.expected.status ≠ .needsReauth then (.ok none, db)
  else
    completeAuthorization fingerprint cooldownMs db
      { lifecycleVersion := input.expected.lifecycleVersion
        authMaterial := input.expected.authMaterial
        observedStatus := some .needsReauth
        recoveryGeneration := input.expected.recoveryGeneration
        operatorCheckToken := input.expected.operatorCheckToken
        generation := input.generation
        clock := input.clock
        now := input.now }

structure ConfirmInput where
  lifecycleVersion : ℕ
  authMaterial : Option String
  generation : String
  clock : Int
  now : Int
  deriving DecidableEq

def confirmAccountAuthorization (db : AccountDb) (input : ConfirmInput) : LifecycleAnswer × AccountDb :=
  completeAuthorization fingerprint cooldownMs db
    { lifecycleVersion := input.lifecycleVersion
      authMaterial := input.authMaterial
      observedStatus := none
      recoveryGeneration := none
      operatorCheckToken := none
      generation := input.generation
      clock := input.clock
      now := input.now }

structure ObservedQuotaInput where
  expected : AccountQuotaObservation
  state : QuotaReading
  deriving DecidableEq

/-- The account is as the observer of the window saw it. -/
def observedQuotaAccount (db : AccountDb) (expected : AccountQuotaObservation) (row : AccountRow) : Bool :=
  row.lifecycleVersion == expected.lifecycleVersion && row.healthRecoveryVersion == expected.healthRecoveryVersion &&
    row.authRecoveryVersion == expected.authRecoveryVersion && row.authMaterial == expected.authMaterial &&
    row.status == expected.status && db.recovery.map RecoveryRow.generation == expected.recoveryGeneration

def upsertObservedQuotaWindow (db : AccountDb) (input : ObservedQuotaInput) : Option QuotaWindowRow × AccountDb :=
  if db.account.any (observedQuotaAccount db input.expected) then
    let written := upsertQuotaWindow db.quotas input.state
    (some written.1, { db with quotas := written.2 })
  else (none, db)

end Methods

/-- A transaction on the account. What other transactions do to its quota windows, its recovery row and its
operator check is arbitrary. -/
inductive LifecycleCall
  | saveRefreshedCredential (input : RefreshedInput)
  | reviveRefreshedCredential (input : RefreshedInput)
  | transitionObservedStatus (input : TransitionInput)
  | updateOperatorAccount (input : OperatorInput)
  | recheckAccount (now : Int)
  | recoverObservedAuthentication (input : RecoverInput)
  | confirmAccountAuthorization (input : ConfirmInput)
  | upsertObservedQuotaWindow (input : ObservedQuotaInput)
  | elsewhere (quotas : List QuotaWindowRow) (recovery : Option RecoveryRow) (operatorCheck : Option OperatorCheck)

section Run

variable (fingerprint : Option String → String) (cooldownMs : Int)

/-- One transaction: the row it answers with, if it changed the account, and what it leaves. -/
def AccountDb.answer (db : AccountDb) : LifecycleCall → LifecycleAnswer × AccountDb
  | .saveRefreshedCredential input => Lifecycle.saveRefreshedCredential db input
  | .reviveRefreshedCredential input => Lifecycle.reviveRefreshedCredential fingerprint cooldownMs db input
  | .transitionObservedStatus input => Lifecycle.transitionObservedStatus db input
  | .updateOperatorAccount input => Lifecycle.updateOperatorAccount fingerprint cooldownMs db input
  | .recheckAccount now => Lifecycle.recheckAccount db now
  | .recoverObservedAuthentication input => Lifecycle.recoverObservedAuthentication fingerprint cooldownMs db input
  | .confirmAccountAuthorization input => Lifecycle.confirmAccountAuthorization fingerprint cooldownMs db input
  | .upsertObservedQuotaWindow input => (.ok none, (Lifecycle.upsertObservedQuotaWindow db input).2)
  | .elsewhere quotas recovery operatorCheck => (.ok none, { db with quotas, recovery, operatorCheck })

def AccountDb.step (db : AccountDb) (call : LifecycleCall) : AccountDb := (db.answer fingerprint cooldownMs call).2

/-- The transactions in the order they commit. -/
def AccountDb.run (db : AccountDb) (calls : List LifecycleCall) : AccountDb :=
  runFrom (AccountDb.step fingerprint cooldownMs) db calls

/-- The transaction changed the account's row. -/
def Committed (db : AccountDb) (call : LifecycleCall) : Prop :=
  ∃ row, (db.answer fingerprint cooldownMs call).1 = .ok (some row)

end Run

end MultiAiRouter.Accounts.Lifecycle
