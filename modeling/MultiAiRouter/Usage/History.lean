import Mathlib.Algebra.Ring.Int.Defs
import Mathlib.Algebra.Group.Pi.Basic
import MultiAiRouter.Common.GroupTotals
import MultiAiRouter.Common.Run

/-!
# The usage history

Every attempt and every settled request leaves one contribution, the receipt of what it used, and the two daily
tables keep the totals of the contributions by grain. Contributions are admitted live with the batch that writes
them, or adopted later for older rows; days are rebuilt from them, and what lies before the retention horizon is
deleted in slices. Every transaction holds the state's lock, so it is a step.

Times are milliseconds, days count from the same origin, and costs are millionths. The hash of a payload is a
parameter.
-/

namespace MultiAiRouter.Usage.History

open Common

abbrev Time := Nat
abbrev Day := Nat
abbrev Id := Nat

/-- The day of an instant. -/
def dayOf (instant : Time) : Day := instant / 86400000

/-- The measures that both daily tables have. -/
inductive Measure
  | requests
  | attempts
  | errors
  | tokensIn
  | tokensOut
  | cacheReadTokens
  | cacheWriteTokens
  | costMetered
  | costNotional
  deriving DecidableEq

inductive Kind
  | attempt
  | terminal
  deriving DecidableEq

/-- Where a contribution comes from. -/
inductive Source
  | live
  | legacyPending
  | legacyBaseline
  | legacyUnbanked
  | legacyOverlap
  deriving DecidableEq

/-- The daily tables count contributions of these sources. -/
def Source.counts : Source → Bool
  | .live | .legacyUnbanked | .legacyOverlap => true
  | .legacyPending | .legacyBaseline => false

inductive CostBasis
  | metered
  | notional
  | unknown
  deriving DecidableEq

/-- What is told of an attempt; `detail` is every column that only the hash reads. -/
structure AttemptFacts where
  correlationId : Id
  apiKeyId : Option Id
  accountId : Option Id
  poolId : Option Id
  model : Option Nat
  tokensIn : Int
  tokensOut : Int
  cacheReadTokens : Int
  cacheWriteTokens : Int
  costEstimate : Option Int
  costBasis : CostBasis
  success : Bool
  detail : Nat
  deriving DecidableEq

/-- An attempt as a batch supplies it. -/
structure UsageRecordInsert where
  id : Id
  createdAt : Option Time
  facts : AttemptFacts
  deriving DecidableEq

/-- A row of the attempts; one of an older writer has no time of ingestion. -/
structure UsageRecord where
  id : Id
  createdAt : Time
  ingestedAt : Option Time
  facts : AttemptFacts
  deriving DecidableEq

/-- A settled request; `detail` is every column that only the hash reads. -/
structure UsageRequestTerminal where
  correlationId : Id
  settledAt : Time
  apiKeyId : Option Id
  accountId : Option Id
  poolId : Option Id
  model : Option Nat
  detail : Nat
  deriving DecidableEq

/-- What the hash is taken of; the time of ingestion never is. -/
inductive UsagePayload
  | supplied (row : UsageRecordInsert)
  | stored (id : Id) (createdAt : Time) (facts : AttemptFacts)
  | terminal (row : UsageRequestTerminal)
  deriving DecidableEq

/-- What a contribution adds, and where. -/
structure UsageContribution where
  apiKeyId : Option Id
  accountId : Option Id
  poolId : Option Id
  model : Option Nat
  correlationId : Id
  eventAt : Time
  measure : Measure → Int
  unpricedAttempts : Option Int

def attemptContribution (row : UsageRecord) : UsageContribution where
  apiKeyId := row.facts.apiKeyId
  accountId := row.facts.accountId
  poolId := row.facts.poolId
  model := row.facts.model
  correlationId := row.facts.correlationId
  eventAt := row.createdAt
  measure
    | .attempts => 1
    | .requests => 0
    | .errors => if row.facts.success then 0 else 1
    | .tokensIn => row.facts.tokensIn
    | .tokensOut => row.facts.tokensOut
    | .cacheReadTokens => row.facts.cacheReadTokens
    | .cacheWriteTokens => row.facts.cacheWriteTokens
    | .costMetered => if row.facts.costBasis = .metered then row.facts.costEstimate.getD 0 else 0
    | .costNotional => if row.facts.costBasis = .notional then row.facts.costEstimate.getD 0 else 0
  unpricedAttempts :=
    some (if row.facts.costBasis = .unknown ∧ 0 < row.facts.tokensIn + row.facts.tokensOut then 1 else 0)

def terminalContribution (row : UsageRequestTerminal) : UsageContribution where
  apiKeyId := row.apiKeyId
  accountId := row.accountId
  poolId := row.poolId
  model := row.model
  correlationId := row.correlationId
  eventAt := row.settledAt
  measure
    | .requests => 1
    | _ => 0
  unpricedAttempts := none

/-- A receipt. -/
structure ContributionRow (Hash : Type) where
  id : Id
  kind : Kind
  day : Day
  source : Source
  payloadHash : Hash
  payload : UsageContribution

inductive Basis
  | live
  | legacy
  deriving DecidableEq

/-- What a daily row is about. -/
structure Grain where
  day : Day
  apiKeyId : Option Id
  accountId : Option Id
  poolId : Option Id
  model : Option Nat
  basis : Basis
  deriving DecidableEq

/-- What a daily row adds up; only rows of attempts carry the unpriced ones, and not all of them do. -/
structure DailyTotals where
  measure : Measure → Int
  unpriced : Option Int

variable {Hash : Type}

/-- What identifies a contribution. -/
def ContributionRow.key (row : ContributionRow Hash) : Kind × Id := (row.kind, row.id)

/-- The grain a contribution is added to. -/
def ContributionRow.grain (row : ContributionRow Hash) : Grain where
  day := row.day
  apiKeyId := row.payload.apiKeyId
  accountId := row.payload.accountId
  poolId := row.payload.poolId
  model := row.payload.model
  basis := if row.source = .live then .live else .legacy

/-- Everything the transactions read and write. Of the sealed baseline only the days are. -/
structure HistoryState (Hash : Type) where
  contributions : List (ContributionRow Hash) := []
  records : List UsageRecord := []
  terminals : List UsageRequestTerminal := []
  attemptDaily : List (Grain × DailyTotals) := []
  requestDaily : List (Grain × DailyTotals) := []
  usageDaily : List Day := []
  retentionBeforeDay : Option Day := none
  bankedThrough : Option (Time × Id) := none

/-- The daily table of a kind. -/
def HistoryState.daily (state : HistoryState Hash) : Kind → List (Grain × DailyTotals)
  | .attempt => state.attemptDaily
  | .terminal => state.requestDaily

def HistoryState.setDaily (state : HistoryState Hash) (kind : Kind) (table : List (Grain × DailyTotals)) :
    HistoryState Hash :=
  match kind with
  | .attempt => { state with attemptDaily := table }
  | .terminal => { state with requestDaily := table }

/-- The day lies before the retention horizon. -/
def HistoryState.expired (state : HistoryState Hash) (day : Day) : Bool :=
  state.retentionBeforeDay.any fun horizon => day < horizon

/-- The sum of what is there, nothing when nothing is. -/
def sumPresent (values : List (Option Int)) : Option Int :=
  if values.all Option.isNone then none else some (values.map fun value => value.getD 0).sum

/-- The totals of contributions of one grain. -/
def totalsOf (kind : Kind) (rows : List (ContributionRow Hash)) : DailyTotals where
  measure := (rows.map fun row => row.payload.measure).sum
  unpriced := if kind = .attempt then sumPresent (rows.map fun row => row.payload.unpricedAttempts) else none

/-- Totals that come to totals there: what was not measured stays so. -/
def mergeTotals (held more : DailyTotals) : DailyTotals where
  measure := held.measure + more.measure
  unpriced := more.unpriced.map fun added => held.unpriced.getD 0 + added

/-- The contributions of a kind that its daily table counts. -/
def countedOf (kind : Kind) (rows : List (ContributionRow Hash)) : List (ContributionRow Hash) :=
  rows.filter fun row => decide (row.kind = kind) && row.source.counts

/-- Add the contributions of a kind to its daily table. -/
def applyKind (kind : Kind) (rows : List (ContributionRow Hash)) (state : HistoryState Hash) : HistoryState Hash :=
  state.setDaily kind
    (groupUpsert mergeTotals (totalsOf kind) ContributionRow.grain (state.daily kind) (countedOf kind rows))

/-- Add contributions to the daily tables. -/
def applyUsageContributions (rows : List (ContributionRow Hash)) (state : HistoryState Hash) : HistoryState Hash :=
  applyKind .terminal rows (applyKind .attempt rows state)

/-- The clocks a transaction reads: its start, its time once it has the lock, and when it writes. -/
structure TxClock where
  started : Time
  dbNow : Time
  wroteAt : Time
  deriving DecidableEq

inductive HistoryError
  | usageIdentityConflict
  | usageHistoryExpired
  | batchOutsideBounds
  deriving DecidableEq

/-- The rows that an insert which skips conflicts inserts. -/
def newRows {Row Key : Type} [DecidableEq Key] (keyOf : Row → Key) : List Key → List Row → List Row
  | _, [] => []
  | held, row :: rest =>
    if keyOf row ∈ held then newRows keyOf held rest else row :: newRows keyOf (keyOf row :: held) rest

/-- The contribution under an identifier. -/
def HistoryState.receipt (state : HistoryState Hash) (kind : Kind) (id : Id) : Option (ContributionRow Hash) :=
  state.contributions.find? fun row => row.key = (kind, id)

section Batch

variable [DecidableEq Hash]

/-- Take a row in by its identifier; one that differs from the row there is a conflict. -/
def addUnique {Row : Type} (idOf : Row → Id) (hashOf : Row → Hash) (unique : List Row) (row : Row) :
    Except HistoryError (List Row) :=
  match unique.find? fun held => idOf held = idOf row with
  | some prior =>
    if hashOf prior ≠ hashOf row then .error .usageIdentityConflict
    else .ok (unique.map fun held => if idOf held = idOf row then row else held)
  | none => .ok (unique ++ [row])

/-- One row for each identifier. -/
def uniqueRows {Row : Type} (idOf : Row → Id) (hashOf : Row → Hash) (rows : List Row) :
    Except HistoryError (List Row) :=
  rows.foldlM (addUnique idOf hashOf) []

/-- The rows that have no contribution yet; one that contradicts a live contribution is a conflict, and one from
before the horizon is too late. -/
def admissible {Row : Type} (state : HistoryState Hash) (kind : Kind) (idOf : Row → Id) (hashOf : Row → Hash)
    (eventAt : Row → Time) (supplied : List Row) : Except HistoryError (List Row) := do
  let input ← uniqueRows idOf hashOf supplied
  if input.any fun row => (state.receipt kind (idOf row)).any fun held =>
      decide (held.source = .live) && decide (held.payloadHash ≠ hashOf row) then
    .error .usageIdentityConflict
  let fresh := input.filter fun row => (state.receipt kind (idOf row)).isNone
  if fresh.any fun row => state.expired (dayOf (eventAt row)) then .error .usageHistoryExpired
  return fresh

/-- The row an attempt is written as. -/
def storedRecord (clock : TxClock) (row : UsageRecordInsert) : UsageRecord where
  id := row.id
  createdAt := row.createdAt.getD clock.started
  ingestedAt := some clock.wroteAt
  facts := row.facts

variable (hash : UsagePayload → Hash)

/-- The contribution of an attempt that was just written. -/
def liveAttempt (clock : TxClock) (row : UsageRecordInsert) : ContributionRow Hash where
  id := row.id
  kind := .attempt
  day := dayOf (storedRecord clock row).createdAt
  source := .live
  payloadHash := hash (.supplied row)
  payload := attemptContribution (storedRecord clock row)

/-- The contribution of a row that was there before. -/
def legacyAttempt (source : Source) (row : UsageRecord) : ContributionRow Hash where
  id := row.id
  kind := .attempt
  day := dayOf row.createdAt
  source := source
  payloadHash := hash (.stored row.id row.createdAt row.facts)
  payload := attemptContribution row

/-- The contribution of a request that was just settled. -/
def liveTerminal (row : UsageRequestTerminal) : ContributionRow Hash where
  id := row.correlationId
  kind := .terminal
  day := dayOf row.settledAt
  source := .live
  payloadHash := hash (.terminal row)
  payload := terminalContribution row

structure UsageBatchInsert where
  attempts : List UsageRecordInsert
  terminals : List UsageRequestTerminal
  deriving DecidableEq

structure UsageBatchResult where
  insertedAttempts : Nat
  insertedTerminals : Nat
  deriving DecidableEq

/-- What a batch writes of its attempts, and the rows it finds in their place. -/
def writtenAttempts (state : HistoryState Hash) (fresh : List UsageRecordInsert) : List UsageRecordInsert :=
  newRows UsageRecordInsert.id (state.records.map UsageRecord.id) fresh

def legacyRecords (state : HistoryState Hash) (fresh : List UsageRecordInsert) : List UsageRecord :=
  state.records.filter fun record => record.id ∈ fresh.map UsageRecordInsert.id

def writtenTerminals (state : HistoryState Hash) (fresh : List UsageRequestTerminal) : List UsageRequestTerminal :=
  newRows UsageRequestTerminal.correlationId (state.terminals.map UsageRequestTerminal.correlationId) fresh

/-- The contributions a batch admits. -/
def admittedBy (clock : TxClock) (state : HistoryState Hash) (attempts : List UsageRecordInsert)
    (terminals : List UsageRequestTerminal) : List (ContributionRow Hash) :=
  (writtenAttempts state attempts).map (liveAttempt hash clock) ++ (legacyRecords state attempts).map (fun row =>
      legacyAttempt hash (if row.ingestedAt.isNone then .legacyPending else .legacyOverlap) row) ++
    (writtenTerminals state terminals).map (liveTerminal hash)

/-- Insert contributions, skipping those that are there, and add the inserted ones to the daily tables. -/
def insertContributions (admitted : List (ContributionRow Hash)) (state : HistoryState Hash) : HistoryState Hash :=
  let inserted := newRows ContributionRow.key (state.contributions.map ContributionRow.key) admitted
  applyUsageContributions inserted { state with contributions := state.contributions ++ inserted }

/-- Admit a batch. -/
def insertBatch (clock : TxClock) (batch : UsageBatchInsert) (state : HistoryState Hash) :
    Except HistoryError (HistoryState Hash × UsageBatchResult) := do
  let attempts ← admissible state .attempt UsageRecordInsert.id (fun row => hash (.supplied row))
    (fun row => row.createdAt.getD clock.dbNow) batch.attempts
  let terminals ← admissible state .terminal UsageRequestTerminal.correlationId (fun row => hash (.terminal row))
    UsageRequestTerminal.settledAt batch.terminals
  let written :=
    { state with
      records := state.records ++ (writtenAttempts state attempts).map (storedRecord clock)
      terminals := state.terminals ++ writtenTerminals state terminals }
  return (insertContributions (admittedBy hash clock state attempts terminals) written,
    { insertedAttempts := (writtenAttempts state attempts).length
      insertedTerminals := (writtenTerminals state terminals).length })

end Batch

section Maintenance

/-- The bound on a maintenance batch. -/
def boundUsageBatch (limit : Nat) : Except HistoryError Unit :=
  if limit < 1 ∨ 9007199254740991 < limit then .error .batchOutsideBounds else .ok ()

/-- The order of the event clock. -/
def precedes (first second : Time × Id) : Bool :=
  decide (first.1 < second.1) || (decide (first.1 = second.1) && decide (first.2 < second.2))

/-- Where a row stands on the event clock. -/
def UsageRecord.position (row : UsageRecord) : Time × Id := (row.createdAt, row.id)

/-- The attempt has a contribution that is settled. -/
def HistoryState.banked (state : HistoryState Hash) (id : Id) : Bool :=
  state.contributions.any fun row =>
    decide (row.key = (.attempt, id)) && decide (row.source ≠ .legacyPending)

/-- The first rows behind the cursor without a settled contribution. -/
def unbankedRecords (state : HistoryState Hash) (after : Option (Time × Id)) (limit : Nat) : List UsageRecord :=
  ((state.records.filter fun row => !state.banked row.id && after.all fun cursor => precedes cursor row.position)
    |>.mergeSort fun first second => !precedes second.position first.position).take limit

/-- How a row of an older writer is adopted: a day the baseline has counted it already. -/
def adoptedSource (state : HistoryState Hash) (row : UsageRecord) : Source :=
  if state.expired (dayOf row.createdAt) || (row.ingestedAt.isNone && decide (dayOf row.createdAt ∈ state.usageDaily))
  then .legacyBaseline
  else if row.ingestedAt.isNone then .legacyUnbanked
  else .legacyOverlap

/-- Adopt a contribution: insert it, or settle the pending one that is there. Returns what was written. -/
def adopt (held : List (ContributionRow Hash) × List (ContributionRow Hash)) (input : ContributionRow Hash) :
    List (ContributionRow Hash) × List (ContributionRow Hash) :=
  match held.1.find? fun row => row.key = input.key with
  | none => (held.1 ++ [input], held.2 ++ [input])
  | some row =>
    if row.source = .legacyPending then
      (held.1.map fun other => if other.key = input.key then { other with source := input.source } else other,
        held.2 ++ [{ row with source := input.source }])
    else held

/-- The newest of the rows on the event clock. -/
def newestRecord (rows : List UsageRecord) : Option (Time × Id) :=
  rows.foldl (fun newest row =>
    if newest.all fun held => precedes held row.position then some row.position else newest) none

/-- Move the watermark to the newest row, never backward. -/
def advanceBankedWatermark (state : HistoryState Hash) : HistoryState Hash :=
  match newestRecord state.records with
  | none => state
  | some newest =>
    if state.bankedThrough.all fun held => precedes held newest then { state with bankedThrough := some newest }
    else state

structure BackfillResult where
  processed : Nat
  remaining : Bool
  last : Option (Time × Id)
  deriving DecidableEq

/-- The cursor of the next sweep. -/
def BackfillResult.cursor (result : BackfillResult) : Option (Time × Id) :=
  if result.remaining then result.last else none

/-- Adopt the first rows behind the cursor that have no settled contribution. -/
def backfill (hash : UsagePayload → Hash) (after : Option (Time × Id)) (limit : Nat) (state : HistoryState Hash) :
    Except HistoryError (HistoryState Hash × BackfillResult) := do
  boundUsageBatch limit
  let rows := unbankedRecords state after limit
  let inputs := rows.map fun row => legacyAttempt hash (adoptedSource state row) row
  let written := inputs.foldl adopt (state.contributions, [])
  let applied := applyUsageContributions written.2 { state with contributions := written.1 }
  -- a sweep from the start that ended short of its limit banked every row there is
  let swept := after.isNone && decide (rows.length < limit) &&
    !(inputs.any fun input => decide (input.source = .legacyOverlap))
  return (if swept then advanceBankedWatermark applied else applied,
    { processed := rows.length
      remaining := decide (rows.length = limit)
      last := rows.getLast?.map UsageRecord.position })

/-- Rebuild a past day from its contributions. -/
def rollupDay (clock : TxClock) (instant : Time) (state : HistoryState Hash) : HistoryState Hash × Nat :=
  let day := dayOf instant
  if dayOf clock.dbNow ≤ day ∨ state.expired day = true then (state, 0)
  else
    let receipts := state.contributions.filter fun row => row.day = day
    let emptied :=
      { state with
        attemptDaily := state.attemptDaily.filter fun row => row.1.day ≠ day
        requestDaily := state.requestDaily.filter fun row => row.1.day ≠ day }
    (applyUsageContributions receipts emptied, (receipts.filter fun row => row.source.counts).length)

/-- The first rows in an order, up to a limit. -/
def slice {Row : Type} (before : Row → Row → Bool) (limit : Nat) (rows : List Row) : List Row :=
  (rows.mergeSort fun first second => !before second first).take limit

/-- The daily rows a slice of retention deletes; `rowOrder` is the order of their identifiers. -/
def expiredDaily (rowOrder : Grain → Nat) (horizon : Day) (limit : Nat) (table : List (Grain × DailyTotals)) :
    List Grain :=
  slice (fun first second => precedes (first.day, rowOrder first) (second.day, rowOrder second)) limit
    ((table.map Prod.fst).filter fun grain => grain.day < horizon)

/-- The order contributions are deleted in. -/
def contributionBefore (first second : ContributionRow Hash) : Bool :=
  precedes (first.day, first.id) (second.day, second.id) ||
    (decide (first.day = second.day) && decide (first.id = second.id) && decide (first.kind = .attempt) &&
      decide (second.kind = .terminal))

/-- The contributions a slice of retention deletes. -/
def expiredContributions (horizon : Day) (limit : Nat) (contributions : List (ContributionRow Hash)) :
    List (Kind × Id) :=
  (slice contributionBefore limit (contributions.filter fun row => row.day < horizon)).map ContributionRow.key

/-- Move the retention horizon, and delete a slice of what lies before it: the baseline first, then the daily
rows, then the contributions. -/
def deleteOlderThan (clock : TxClock) (cutoff : Time) (limit : Nat) (rowOrder : Grain → Nat)
    (state : HistoryState Hash) : Except HistoryError (HistoryState Hash × Nat) := do
  boundUsageBatch limit
  let day := dayOf (min cutoff clock.dbNow)
  let horizon := state.retentionBeforeDay.elim day fun held => max held day
  let baseline := slice (fun first second => first < second) limit (state.usageDaily.filter fun day => day < horizon)
  let attempts := expiredDaily rowOrder horizon (limit - baseline.length) state.attemptDaily
  let requests := expiredDaily rowOrder horizon (limit - baseline.length - attempts.length) state.requestDaily
  let receipts := expiredContributions horizon (limit - baseline.length - attempts.length - requests.length)
    state.contributions
  return ({ state with
      retentionBeforeDay := some horizon
      usageDaily := state.usageDaily.diff baseline
      attemptDaily := state.attemptDaily.filter fun row => row.1 ∉ attempts
      requestDaily := state.requestDaily.filter fun row => row.1 ∉ requests
      contributions := state.contributions.filter fun row => row.key ∉ receipts },
    baseline.length + attempts.length + requests.length + receipts.length)

/-- Delete a slice of the attempts and settled requests themselves; an attempt goes only when its contribution is
settled or its day has expired. -/
def deleteDetail (clock : TxClock) (cutoff : Time) (limit : Nat) (state : HistoryState Hash) :
    Except HistoryError (HistoryState Hash × Nat) := do
  boundUsageBatch limit
  let before := min cutoff clock.dbNow
  let attempts := (slice (fun first second => precedes first.position second.position) limit
    (state.records.filter fun row =>
      decide (row.createdAt < before) && (state.banked row.id || state.expired (dayOf row.createdAt)))).map
        UsageRecord.id
  let terminals := (slice (fun first second =>
      precedes (first.settledAt, first.correlationId) (second.settledAt, second.correlationId))
    (limit - attempts.length) (state.terminals.filter fun row => row.settledAt < before)).map
      UsageRequestTerminal.correlationId
  return ({ state with
      records := state.records.filter fun row => row.id ∉ attempts
      terminals := state.terminals.filter fun row => row.correlationId ∉ terminals },
    attempts.length + terminals.length)

end Maintenance

/-- The transactions. A sweep resumes behind whatever cursor its instance holds. -/
inductive HistoryEvent
  | insertBatch (clock : TxClock) (batch : UsageBatchInsert)
  | backfill (after : Option (Time × Id)) (limit : Nat)
  | rollupDay (clock : TxClock) (instant : Time)
  | deleteOlderThan (clock : TxClock) (cutoff : Time) (limit : Nat) (rowOrder : Grain → Nat)
  | deleteDetail (clock : TxClock) (cutoff : Time) (limit : Nat)

/-- A transaction that throws is rolled back. -/
def committed {Result : Type} (state : HistoryState Hash)
    (outcome : Except HistoryError (HistoryState Hash × Result)) : HistoryState Hash :=
  match outcome with
  | .ok result => result.1
  | .error _ => state

/-- One transaction. -/
def step [DecidableEq Hash] (hash : UsagePayload → Hash) (state : HistoryState Hash) :
    HistoryEvent → HistoryState Hash
  | .insertBatch clock batch => committed state (insertBatch hash clock batch state)
  | .backfill after limit => committed state (backfill hash after limit state)
  | .rollupDay clock instant => (rollupDay clock instant state).1
  | .deleteOlderThan clock cutoff limit rowOrder => committed state (deleteOlderThan clock cutoff limit rowOrder state)
  | .deleteDetail clock cutoff limit => committed state (deleteDetail clock cutoff limit state)

/-- The state the history starts from: rows of older writers and their sealed baseline, and no contribution yet. -/
def initial (records : List UsageRecord) (terminals : List UsageRequestTerminal) (usageDaily : List Day) :
    HistoryState Hash :=
  { records, terminals, usageDaily }

/-- The transactions in the order they took the lock. -/
def run [DecidableEq Hash] (hash : UsagePayload → Hash) (state : HistoryState Hash) (events : List HistoryEvent) :
    HistoryState Hash :=
  runFrom (step hash) state events

end MultiAiRouter.Usage.History
