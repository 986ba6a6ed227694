import MultiAiRouter.Routing.Types

/-!
# Model resolution, quota windows, and candidate filtering

A requested model name goes through the account's alias map and is checked against its declared models, else its
provider's family. A window is spent when its utilization reached the threshold and its reset is not in the past.
The filter drops an account for the first reason that hits it; a clock the provider reported outranks the router's
own holds.
-/

namespace MultiAiRouter.Routing

/-- The characters a context tag is written with, in either case. -/
def isContextTagChar (c : Char) : Bool :=
  ('a' ≤ c && c ≤ 'z') || ('A' ≤ c && c ≤ 'Z') || ('0' ≤ c && c ≤ '9')

/-- The characters `.` does not match in a regular expression. -/
def isLineTerminator (c : Char) : Bool :=
  c = '\n' || c = '\r' || c.toNat = 0x2028 || c.toNat = 0x2029

/-- The name split at its trailing bracketed tag: `(base, tag)`, or nothing when it has none. -/
def splitContextTag (model : String) : Option (String × String) :=
  match model.toList.reverse with
  | ']' :: rest =>
    let tag := rest.takeWhile isContextTagChar
    match rest.dropWhile isContextTagChar with
    | '[' :: base =>
      if tag.isEmpty || base.isEmpty || base.any isLineTerminator then none
      else some (String.ofList base.reverse, String.ofList tag.reverse)
    | _ => none
  | _ => none

/-- A name is in the family when any pattern matches it. -/
def inModelFamily (family : ModelFamily) (model : String) : Bool :=
  family.patterns.any fun pattern => pattern model

/-- What an account does with a requested model name. -/
structure ModelResolution where
  upstreamModel : String
  supported : Bool
  aliased : Bool
  strippedContextTag : Option String := none
  deriving DecidableEq

/-- The explicit list wins; with none the provider's family decides; with neither, anything goes. -/
def serves (account : AccountSnapshot) (upstreamModel : String) : Bool :=
  match account.supportedModels with
  | some (first :: rest) => decide (upstreamModel ∈ first :: rest)
  | _ =>
    match account.modelFamily with
    | some family => inModelFamily family upstreamModel
    | none => true

/-- Map the name through the alias table, then check it upstream-side. -/
def resolveExact (account : AccountSnapshot) (requestedModel : String) : ModelResolution :=
  let entry := (account.modelAliases.getD []).lookup requestedModel
  let upstreamModel := entry.getD requestedModel
  { upstreamModel, supported := serves account upstreamModel, aliased := entry.isSome }

/-- Model resolution for one account, dropping a context tag the upstream does not understand. -/
def resolveModel (account : AccountSnapshot) (requestedModel : String) : ModelResolution :=
  let exact := resolveExact account requestedModel
  if exact.aliased || account.understandsContextTags then exact
  else
    match splitContextTag requestedModel with
    | none => exact
    | some (base, tag) =>
      if requestedModel ∈ account.supportedModels.getD [] then exact
      else { resolveExact account base with strippedContextTag := some tag }

/-- Utilization at or above which a window counts as spent, unless the caller overrides it. -/
def defaultQuotaSpentThreshold : Rat := 1

/-- Durable evidence that a recovery retired this window. -/
def retiredEvidence (window : QuotaWindowState) : Bool :=
  window.retiredAt.isSome || window.blocksRouting == some false ||
    (window.evidenceState.isSome && window.evidenceState != some .current)

/-- A window is spent when its utilization reached the threshold and it has not refilled yet. -/
def isWindowSpent (window : QuotaWindowState) (now : Instant) (threshold : Rat) : Bool :=
  if retiredEvidence window then false
  else if window.advisory then false
  else
    match window.utilization with
    | none => false
    | some utilization =>
      if utilization < threshold then false
      else
        match window.resetsAt with
        | some reset => decide (¬ reset ≤ now)
        | none => true

/-- The first spent window blocking this account. -/
def findSpentWindow (account : AccountSnapshot) (now : Instant) (threshold : Rat) :
    Option QuotaWindowState :=
  (account.quotaWindows.getD []).find? fun window => isWindowSpent window now threshold

/-- This replica holds the account's designated recovery permit. -/
def hasRecoveryPermit (account : AccountSnapshot) : Bool :=
  match account.recovery with
  | some recovery => recovery.state == .issued && recovery.localAvailable
  | none => false

/-- A recovery row that is neither done nor cancelled holds the account back. -/
def recoveryIsGated (account : AccountSnapshot) : Bool :=
  match account.recovery with
  | some recovery => recovery.state != .succeeded && recovery.state != .cancelled
  | none => false

/-- Only the exact captured evidence may be bypassed by the designated permit. -/
def recoveryAllowsQuota (account : AccountSnapshot) (now : Instant) (threshold : Rat) : Bool :=
  hasRecoveryPermit account &&
    (account.quotaWindows.getD []).all fun window =>
      !isWindowSpent window now threshold ||
        (window.revision.isSome &&
          (account.recovery.bind fun recovery => recovery.quotaRevisions.lookup window.window) == window.revision)

/-- A provider-reported cooldown that is still running, and is not a refused credential's. -/
def providerReportedCooldown (member : ScopedAccount) (now : Instant) : Bool :=
  let health := member.account.health
  health.cooldownSource == some .providerReported &&
    health.cooldownReason != some .credentialRejected &&
    match health.cooldownUntil with
    | some reset => decide (now < reset)
    | none => false

/-- Still cooling: the reset is ahead, or the account cools with no recorded instant. -/
def coolingDown (member : ScopedAccount) (now : Instant) : Bool :=
  match member.account.health.cooldownUntil with
  | some reset => decide (now < reset)
  | none => member.account.status == .coolingDown

/-- A rejection with no more to say than its reason. -/
def rejection (account : AccountSnapshot) (reason : FilterReason) : RejectedCandidate :=
  { accountId := account.id, label := account.label, reason }

/-- The rejection of an account by its cooldown, labelled when the provider refused its key. -/
def coolingRejection (account : AccountSnapshot) : RejectedCandidate :=
  { accountId := account.id, label := account.label
    reason := if account.health.cooldownReason = some .credentialRejected then .credentialRejected
      else .coolingDown
    resetsAt := account.health.cooldownUntil
    resetSource := account.health.cooldownSource }

/-- The rejection of an account by a spent window. -/
def spentRejection (account : AccountSnapshot) (spent : QuotaWindowState) : RejectedCandidate :=
  { accountId := account.id, label := account.label, reason := .quotaWindowSpent
    resetsAt := spent.resetsAt, resetSource := some spent.resetSource, window := some spent.window }

/-- The rejection of an account whose one probe is already somebody else's. -/
def probeRejection (account : AccountSnapshot) (resetsAt : Option Instant) : RejectedCandidate :=
  { accountId := account.id, label := account.label, reason := .probeInFlight
    resetsAt, resetSource := some .estimated }

/-- The spent window that blocks this account, unless the designated permit covers all of them. -/
def blockingWindow (account : AccountSnapshot) (now : Instant) (threshold : Rat) :
    Option QuotaWindowState :=
  match findSpentWindow account now threshold with
  | some spent => if recoveryAllowsQuota account now threshold then none else some spent
  | none => none

/-- The probe hold still running on a half-open account. -/
def heldProbe (account : AccountSnapshot) (now : Instant) : Option Instant :=
  match account.health.probeHeldUntil with
  | some heldUntil =>
    if account.status = .coolingDown ∧ now < heldUntil then some heldUntil else none
  | none => none

/-- The single-account verdict: the candidate it becomes, or the first reason that drops it. -/
def evaluateCandidate (member : ScopedAccount) (model : String) (now : Instant)
    (options : SelectionOptions) : Except RejectedCandidate Candidate :=
  let account := member.account
  if account.status = .disabled then .error (rejection account .disabled)
  else if account.status = .needsReauth then .error (rejection account .needsReauth)
  else if account.status = .exhausted then .error (rejection account .exhausted)
  else
    -- Before every clock-recoverable reason: unsupported is the permanent fact.
    let resolution := resolveModel account model
    if !resolution.supported then .error (rejection account .modelUnsupported)
    else
      let threshold := options.quotaSpentThreshold.getD defaultQuotaSpentThreshold
      let blocking := blockingWindow account now threshold
      let permit := hasRecoveryPermit account
      -- A clock the provider itself reported outranks the router's own holds.
      if providerReportedCooldown member now then .error (coolingRejection account)
      else
        match blocking.filter fun spent => spent.resetSource == .providerReported with
        | some spent => .error (spentRejection account spent)
        | none =>
          if recoveryIsGated account && !permit then
            .error (probeRejection account
              (account.recovery.map fun recovery => recovery.retryAt.getD recovery.nextAllowedAt))
          else if coolingDown member now && (!permit || account.health.cooldownUntil.isSome) then
            .error (coolingRejection account)
          else
            match heldProbe account now, blocking with
            | some heldUntil, _ => .error (probeRejection account (some heldUntil))
            | none, some spent => .error (spentRejection account spent)
            | none, none =>
              .ok { member with
                upstreamModel := resolution.upstreamModel
                halfOpen := account.status == .coolingDown || permit
                recoveryPermit := permit
                aliased := resolution.upstreamModel != model }

/-- What filtering keeps and what it drops, each in member order. -/
structure FilterResult where
  eligible : List Candidate
  rejected : List RejectedCandidate

/-- Evaluate every member of a group. -/
def filterCandidates (members : List ScopedAccount) (model : String) (now : Instant)
    (options : SelectionOptions) : FilterResult :=
  { eligible := members.filterMap fun member => (evaluateCandidate member model now options).toOption
    rejected := members.filterMap fun member =>
      match evaluateCandidate member model now options with
      | .ok _ => none
      | .error rejected => some rejected }

end MultiAiRouter.Routing
