import MultiAiRouter.Routing.Filter

/-!
# Merging quota windows

Two sets of window readings folded into one, per kind. The provider's clock orders readings of
one window, durable revisions order what shares a clock, retired evidence stands against an
unrevised reading, and otherwise equal clocks keep the more restrictive facts.
-/

namespace MultiAiRouter.Routing

/-- The reading says that more was used than the held one knows. -/
def moreUsed (held incoming : QuotaWindowState) : Bool :=
  match incoming.utilization with
  | none => false
  | some used => held.utilization.all fun known => decide (known < used)

/-- The reading names a later reset than the held one knows. -/
def laterReset (held incoming : QuotaWindowState) : Bool :=
  match incoming.resetsAt with
  | none => false
  | some reset => held.resetsAt.all fun known => decide (known < reset)

/-- Equal clocks: the held reading takes over what is more restrictive, and facts that were not
persisted drop the revision a permit captured. -/
def mergeRestrictive (held incoming : QuotaWindowState) : QuotaWindowState :=
  let used :=
    if moreUsed held incoming then
      { held with utilization := incoming.utilization, utilizationSource := incoming.utilizationSource }
    else held
  let merged :=
    if laterReset held incoming then
      { used with resetsAt := incoming.resetsAt, resetSource := incoming.resetSource }
    else used
  if incoming.revision.isNone then
    { merged with revision := none, retiredAt := none, evidenceState := none, blocksRouting := none }
  else merged

/-- The held mark stays, whatever the incoming reading bears. -/
theorem mergeRestrictive_advisory (held incoming : QuotaWindowState) :
    (mergeRestrictive held incoming).advisory = held.advisory := by
  simp only [mergeRestrictive]
  split_ifs <;> rfl

/-- Both revisions are known and differ. -/
def revisionsDiffer (held incoming : QuotaWindowState) : Bool :=
  held.revision.isSome && incoming.revision.isSome && held.revision != incoming.revision

/-- Provider clocks order readings; durable revisions order same-clock retirement and current state. -/
def mergeQuotaEvidence (held incoming : QuotaWindowState) : QuotaWindowState :=
  if held.lastCheckedAt < incoming.lastCheckedAt then incoming
  else if incoming.lastCheckedAt < held.lastCheckedAt then held
  else if revisionsDiffer held incoming then
    if held.revision.getD 0 < incoming.revision.getD 0 then incoming else held
  else if retiredEvidence held then held
  else if retiredEvidence incoming then incoming
  else if !moreUsed held incoming && !laterReset held incoming then held
  else mergeRestrictive held incoming

/-- Set a window in a map from kinds to windows: an entry keeps its place, a new one goes last. -/
def setWindow (windows : List QuotaWindowState) (window : QuotaWindowState) : List QuotaWindowState :=
  if windows.any fun held => held.window == window.window then
    windows.map fun held => if held.window = window.window then window else held
  else windows ++ [window]

/-- The window of this kind. -/
def windowOf (windows : List QuotaWindowState) (kind : QuotaWindowKind) : Option QuotaWindowState :=
  windows.find? fun held => held.window == kind

/-- Fold one incoming window into the map. -/
def mergeWindow (merged : List QuotaWindowState) (candidate : QuotaWindowState) : List QuotaWindowState :=
  setWindow merged <|
    match windowOf merged candidate.window with
    | none => candidate
    | some previous => mergeQuotaEvidence previous candidate

/-- Two sets of windows folded into one; a kind that neither names is left standing. -/
def mergeQuotaWindows (held : List QuotaWindowState) (incoming : Option (List QuotaWindowState)) :
    List QuotaWindowState :=
  match incoming with
  | none | some [] => held
  | some incoming => incoming.foldl mergeWindow (held.foldl setWindow [])

end MultiAiRouter.Routing
