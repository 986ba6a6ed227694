import Mathlib.Algebra.Order.Floor.Defs
import Mathlib.Data.Rat.Floor
import MultiAiRouter.Common.InsertionMap
import MultiAiRouter.Common.Json.Value
import MultiAiRouter.Common.Run
import MultiAiRouter.Usage.ResponseFraming

/-!
# The quota of a subscription

Two readings feed the buckets of an account: the alarms of the message stream, which alone say that a window is
spent, and the usage gauge, which says how full each window is. A snapshot blocks the account while a bucket is
spent and its reset is ahead.
-/

namespace MultiAiRouter.ClaudeSdk.Quota

open Common
open Usage (trimStart)

section Readings

/-- An instant; one too far away for a date is compared with nothing. -/
inductive JsDate
  | valid (ms : ℤ)
  | invalid
  deriving DecidableEq

/-- `new Date` of a positive number of milliseconds. -/
def dateOf (ms : ℚ) : JsDate := if ms ≤ 8640000000000000 then .valid ⌊ms⌋ else .invalid

/-- The instant is still ahead. -/
def JsDate.isAfter : JsDate → ℤ → Bool
  | .valid ms, nowMs => nowMs < ms
  | .invalid, _ => false

inductive SdkRateLimitStatus
  | allowed
  | allowedWarning
  | rejected
  | unknown
  deriving DecidableEq

/-- What an alarm says. -/
structure SdkRateLimitReading where
  status : SdkRateLimitStatus
  rateLimitType : Option Units
  resetsAt : Option JsDate
  utilization : Option ℚ
  overageStatus : Option Units
  overageResetsAt : Option JsDate
  usingOverage : Bool
  deriving DecidableEq

/-- A field of another type is read as if it were not there. -/
def nullableString (data : Record) (key : String) : Option Units :=
  match data.get (asciiUnits key) with
  | some (.string value) => some value
  | _ => none

def nullableNumber (data : Record) (key : String) : Option ℚ :=
  match data.get (asciiUnits key) with
  | some (.number (.finite value)) => some value
  | _ => none

def nullableBoolean (data : Record) (key : String) : Option Bool :=
  match data.get (asciiUnits key) with
  | some (.bool value) => some value
  | _ => none

/-- The text without the white space around it. -/
def trim (text : Units) : Units := (trimStart (trimStart text).reverse).reverse

def nonEmpty (value : Option Units) : Option Units := (value.map trim).filter fun trimmed => !trimmed.isEmpty

def readStatus (value : Option Units) : SdkRateLimitStatus :=
  if value = some (asciiUnits "allowed") then .allowed
  else if value = some (asciiUnits "allowed_warning") then .allowedWarning
  else if value = some (asciiUnits "rejected") then .rejected
  else .unknown

/-- Below this an epoch is in seconds. -/
def sdkEpochMillisFloor : ℚ := 100000000000

/-- The instant of an epoch in either unit, where it is still ahead. -/
def futureEpoch (epoch : Option ℚ) (nowMs : ℤ) : Option JsDate :=
  epoch.bind fun epoch =>
    let epochMs := if epoch < sdkEpochMillisFloor then epoch * 1000 else epoch
    if epoch ≤ 0 then none else if nowMs < epochMs then some (dateOf epochMs) else none

/-- The reading of an alarm; what is no object is none. Either spelling of a field is read. -/
def readSdkRateLimitInfo (value : Value) (nowMs : ℤ) : Option SdkRateLimitReading :=
  value.asRecord.map fun data =>
    { status := readStatus (nullableString data "status")
      rateLimitType := nonEmpty (nullableString data "rateLimitType" <|> nullableString data "rate_limit_type")
      resetsAt := futureEpoch (nullableNumber data "resetsAt" <|> nullableNumber data "resets_at") nowMs
      utilization := nullableNumber data "utilization"
      overageStatus := nonEmpty (nullableString data "overageStatus" <|> nullableString data "overage_status")
      overageResetsAt :=
        futureEpoch (nullableNumber data "overageResetsAt" <|> nullableNumber data "overage_resets_at") nowMs
      usingOverage := (nullableBoolean data "isUsingOverage" <|> nullableBoolean data "is_using_overage") = some true }

inductive QuotaWindowKind
  | fiveHour
  | sevenDay
  | sevenDayOpus
  | sevenDaySonnet
  | overage
  deriving DecidableEq

/-- The provider's word for a window. -/
def QuotaWindowKind.word : QuotaWindowKind → Units
  | .fiveHour => asciiUnits "five_hour"
  | .sevenDay => asciiUnits "seven_day"
  | .sevenDayOpus => asciiUnits "seven_day_opus"
  | .sevenDaySonnet => asciiUnits "seven_day_sonnet"
  | .overage => asciiUnits "overage"

def windowKind (raw : Option Units) : Option QuotaWindowKind :=
  [.fiveHour, .sevenDay, .sevenDayOpus, .sevenDaySonnet, .overage].find? fun kind => raw = some kind.word

/-- One window as the gauge reports it: a share of the whole, and a reset. -/
structure SdkGaugeWindow where
  kind : QuotaWindowKind
  utilization : Option ℚ
  resetsAt : Option ℤ
  deriving DecidableEq

end Readings

section Store

inductive UtilizationSource
  | continuous
  | thresholdTriggered
  | none
  deriving DecidableEq

inductive ResetSource
  | providerReported
  | unknown
  deriving DecidableEq

structure QuotaBucket where
  limiter : Units
  kind : Option QuotaWindowKind
  limited : Bool
  utilization : Option ℚ
  source : UtilizationSource
  resetsAt : Option JsDate
  lastCheckedAt : ℤ
  deriving DecidableEq

structure AccountQuota where
  buckets : InsertionMap Units QuotaBucket := {}
  usingOverage : Bool := false

def sdkDefaultBucket : Units := asciiUnits "default"

def overageKey : Units := QuotaWindowKind.overage.word

def clampFraction (value : ℚ) : ℚ := min (max value 0) 1

def futureReset (bucket : Option QuotaBucket) (nowMs : ℤ) : Option JsDate :=
  (bucket.bind QuotaBucket.resetsAt).filter fun reset => reset.isAfter nowMs

def isLimited (bucket : QuotaBucket) (nowMs : ℤ) : Bool :=
  bucket.limited && bucket.resetsAt.all fun reset => reset.isAfter nowMs

/-- The bucket an alarm is about. -/
def SdkRateLimitReading.key (reading : SdkRateLimitReading) : Units := reading.rateLimitType.getD sdkDefaultBucket

/-- The bucket an alarm leaves: without a share of its own it lets the gauge's stand. -/
def alarmBucket (reading : SdkRateLimitReading) (previous : Option QuotaBucket) (nowMs : ℤ) : QuotaBucket where
  limiter := reading.key
  kind := windowKind reading.rateLimitType
  limited := reading.status = .rejected
  utilization :=
    match reading.utilization, previous with
    | some share, _ => some (clampFraction share)
    | none, some held => if held.source = .continuous then held.utilization else none
    | none, none => none
  source :=
    match reading.utilization, previous with
    | some _, _ => .thresholdTriggered
    | none, some held => held.source
    | none, none => .none
  resetsAt := reading.resetsAt <|> futureReset previous nowMs
  lastCheckedAt := nowMs

/-- The alarm says something of the paid overage. -/
def SdkRateLimitReading.tellsOverage (reading : SdkRateLimitReading) : Bool :=
  reading.overageStatus.isSome || reading.overageResetsAt.isSome || reading.usingOverage

/-- The overage detail of an alarm that names another window. -/
def applyOverage (buckets : InsertionMap Units QuotaBucket) (reading : SdkRateLimitReading) (nowMs : ℤ) :
    InsertionMap Units QuotaBucket :=
  if reading.key = overageKey ∨ reading.tellsOverage = false then buckets
  else buckets.set overageKey
    { limiter := overageKey
      kind := some .overage
      limited := false
      utilization := none
      source := .none
      resetsAt := reading.overageResetsAt
      lastCheckedAt := nowMs }

def ingestReading (quota : AccountQuota) (reading : SdkRateLimitReading) (nowMs : ℤ) : AccountQuota where
  buckets := applyOverage
    (quota.buckets.set reading.key (alarmBucket reading (quota.buckets.get reading.key) nowMs)) reading nowMs
  usingOverage := reading.usingOverage

/-- The bucket a window of the gauge leaves: it never lifts or sets a rejection. -/
def gaugeBucket (window : SdkGaugeWindow) (previous : Option QuotaBucket) (nowMs : ℤ) : QuotaBucket where
  limiter := window.kind.word
  kind := some window.kind
  limited := previous.any fun held => isLimited held nowMs
  utilization := window.utilization
  source :=
    match window.utilization, previous with
    | some _, _ => .continuous
    | none, some held => held.source
    | none, none => .none
  resetsAt := window.resetsAt.map .valid <|> futureReset previous nowMs
  lastCheckedAt := nowMs

def ingestWindow (nowMs : ℤ) (quota : AccountQuota) (window : SdkGaugeWindow) : AccountQuota :=
  { quota with
    buckets := quota.buckets.set window.kind.word (gaugeBucket window (quota.buckets.get window.kind.word) nowMs) }

/-- What a bucket shows. -/
structure WindowReading where
  utilizationSource : UtilizationSource
  resetSource : ResetSource
  utilization : Option ℚ
  resetsAt : Option JsDate
  deriving DecidableEq

structure QuotaWindowState where
  window : QuotaWindowKind
  lastCheckedAt : ℤ
  reading : WindowReading
  deriving DecidableEq

structure RateLimitWindow where
  limiter : Units
  reading : WindowReading
  deriving DecidableEq

structure RateLimitSignal where
  limited : Bool
  resetSource : ResetSource
  windows : List RateLimitWindow
  quotaWindows : Option (List QuotaWindowState)
  resetsAt : Option JsDate
  deriving DecidableEq

structure SdkQuotaSnapshot where
  windows : List QuotaWindowState
  signal : RateLimitSignal
  usingOverage : Bool
  deriving DecidableEq

inductive SnapshotMode
  | verdict
  | reading
  deriving DecidableEq

def resetSourceOf (reset : Option JsDate) : ResetSource := if reset.isSome then .providerReported else .unknown

def readingOf (bucket : QuotaBucket) : WindowReading where
  utilizationSource := if bucket.utilization.isSome then bucket.source else .none
  resetSource := resetSourceOf bucket.resetsAt
  utilization := bucket.utilization
  resetsAt := bucket.resetsAt

/-- The buckets that block, in the order they came. -/
def blocking (quota : AccountQuota) (nowMs : ℤ) : List QuotaBucket :=
  (quota.buckets.entries.map Prod.snd).filter fun bucket => isLimited bucket nowMs

/-- One instant is later than another. -/
def JsDate.later : JsDate → JsDate → Bool
  | .valid ms, .valid other => other < ms
  | _, _ => false

/-- The later of the latest reset so far and the bucket's. -/
def laterReset (latest : Option JsDate) (bucket : QuotaBucket) : Option JsDate :=
  match bucket.resetsAt, latest with
  | none, _ => latest
  | some reset, none => some reset
  | some reset, some held => if reset.later held then some reset else some held

def snapshotOf (quota : AccountQuota) (mode : SnapshotMode) (nowMs : ℤ) : SdkQuotaSnapshot :=
  let buckets := quota.buckets.entries.map Prod.snd
  let windows := buckets.filterMap fun bucket =>
    bucket.kind.map fun kind => { window := kind, lastCheckedAt := bucket.lastCheckedAt, reading := readingOf bucket }
  let blockers := if mode = .reading then [] else blocking quota nowMs
  let resetsAt := blockers.foldl laterReset none
  { windows
    signal :=
      { limited := !blockers.isEmpty
        resetSource := resetSourceOf resetsAt
        windows := buckets.map fun bucket => { limiter := bucket.limiter, reading := readingOf bucket }
        quotaWindows := if windows.isEmpty then none else some windows
        resetsAt }
    usingOverage := quota.usingOverage }

/-- What the store holds of one account. -/
abbrev Held := Option AccountQuota

def ingest (held : Held) (info : Value) (nowMs : ℤ) : Held × Option SdkQuotaSnapshot :=
  match readSdkRateLimitInfo info nowMs with
  | none => (held, none)
  | some reading =>
    let quota := ingestReading (held.getD {}) reading nowMs
    (some quota, some (snapshotOf quota .verdict nowMs))

def ingestGauge (held : Held) (windows : List SdkGaugeWindow) (nowMs : ℤ) : Held × SdkQuotaSnapshot :=
  let quota := windows.foldl (ingestWindow nowMs) (held.getD {})
  (some quota, snapshotOf quota .reading nowMs)

def snapshot (held : Held) (nowMs : ℤ) : Option SdkQuotaSnapshot :=
  held.map fun quota => snapshotOf quota .verdict nowMs

end Store

end MultiAiRouter.ClaudeSdk.Quota
