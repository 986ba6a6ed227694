import MultiAiRouter.Recovery.Transactions
import MultiAiRouter.Routing.Quota

/-!
# The stored quota windows

One row for each window of an account. `upsertQuotaWindow` inserts a reading or updates the row it conflicts with
under a guard: a newer reading always lands, an equally old one only where it says more. `clearObservedQuotaWindow`
retires a window whose reset has come.

Memory merges the same readings with `mergeQuotaEvidence`. At equal clocks the row takes the reading's advisory
mark, and memory keeps the held one.
-/

namespace MultiAiRouter.Recovery

open Routing

/-- A window as a provider reads it, before it is stored. -/
structure QuotaReading where
  window : QuotaWindowKind
  utilization : Option Rat
  utilizationSource : UtilizationSource
  resetsAt : Option Int
  resetSource : ResetSource
  lastCheckedAt : Int
  advisory : Bool := false
  deriving DecidableEq

/-- The reading as memory folds it: no revision, no retirement. -/
def QuotaReading.evidence (reading : QuotaReading) : QuotaWindowState where
  window := reading.window
  utilization := reading.utilization
  utilizationSource := reading.utilizationSource
  resetsAt := reading.resetsAt
  resetSource := reading.resetSource
  lastCheckedAt := reading.lastCheckedAt
  advisory := reading.advisory

/-- The row as a replica reads it back. -/
def toQuotaEvidence (row : QuotaWindowRow) : QuotaWindowState where
  window := row.window
  utilization := row.utilization
  utilizationSource := row.utilizationSource
  resetsAt := row.resetsAt
  resetSource := row.resetSource
  lastCheckedAt := row.lastCheckedAt
  advisory := row.advisory
  revision := some row.revision
  evidenceState := some row.evidenceState
  blocksRouting := some row.blocksRouting
  retiredAt := row.retiredAt

/-- `greatest` of two columns, which passes over nulls. -/
def greatest {A : Type*} [Max A] : Option A → Option A → Option A
  | none, b => b
  | a, none => a
  | some a, some b => some (max a b)

/-- The incoming value is not null, and the stored one is null or less. -/
def exceeds {A : Type*} [LT A] [DecidableLT A] : Option A → Option A → Bool
  | none, _ => false
  | some _, none => true
  | some incoming, some stored => decide (stored < incoming)

/-- The row a reading is inserted as, under the columns' defaults. -/
def QuotaReading.inserted (reading : QuotaReading) : QuotaWindowRow where
  window := reading.window
  revision := 0
  evidenceState := .current
  blocksRouting := true
  retiredAt := none
  utilization := reading.utilization
  utilizationSource := reading.utilizationSource
  resetsAt := reading.resetsAt
  resetSource := reading.resetSource
  lastCheckedAt := reading.lastCheckedAt
  advisory := reading.advisory

/-- The reading says more than the stored row. -/
def QuotaReading.saysMore (reading : QuotaReading) (row : QuotaWindowRow) : Bool :=
  exceeds reading.utilization row.utilization || exceeds reading.resetsAt row.resetsAt

/-- The conflict update of a stored row, which may leave it as it was. -/
def QuotaWindowRow.conflictUpdate (row : QuotaWindowRow) (reading : QuotaReading) : QuotaWindowRow :=
  let equalTime := row.lastCheckedAt = reading.lastCheckedAt
  let moreUsed := exceeds reading.utilization row.utilization
  let laterReset := exceeds reading.resetsAt row.resetsAt
  if row.lastCheckedAt < reading.lastCheckedAt ∨ equalTime ∧ row.retiredAt = none ∧ (moreUsed || laterReset) then
    { row with
      retiredAt := none
      evidenceState := .current
      blocksRouting := true
      utilization := if equalTime then greatest row.utilization reading.utilization else reading.utilization
      utilizationSource := if equalTime ∧ !moreUsed then row.utilizationSource else reading.utilizationSource
      resetsAt := if equalTime then greatest row.resetsAt reading.resetsAt else reading.resetsAt
      resetSource := if equalTime ∧ !laterReset then row.resetSource else reading.resetSource
      lastCheckedAt := reading.lastCheckedAt
      advisory := reading.advisory
      revision := row.revision + 1 }
  else row

/-- The row of this window. -/
def quotaRow (quotas : List QuotaWindowRow) (window : QuotaWindowKind) : Option QuotaWindowRow :=
  quotas.find? fun row => row.window == window

/-- Write a reading; the answer is the row it leaves, whether or not the reading landed. -/
def upsertQuotaWindow (quotas : List QuotaWindowRow) (reading : QuotaReading) :
    QuotaWindowRow × List QuotaWindowRow :=
  match quotaRow quotas reading.window with
  | none => (reading.inserted, quotas ++ [reading.inserted])
  | some held =>
    (held.conflictUpdate reading,
      quotas.map fun row => if row.window = reading.window then row.conflictUpdate reading else row)

structure ClearInput where
  window : QuotaWindowKind
  revision : ℕ
  resetsAt : Int
  /-- The scheduler's cutoff. -/
  now : Int
  deriving DecidableEq

/-- The window is the one the caller saw, its reset has come on both clocks, and the account is not
out of credits. -/
def clears (db : RecoveryDb) (input : ClearInput) (row : QuotaWindowRow) : Bool :=
  row.window == input.window && row.revision == input.revision && row.evidenceState == .current &&
    row.resetsAt == some input.resetsAt && db.account.any (fun account => account.status != .exhausted) &&
    decide (input.resetsAt ≤ input.now) && decide (input.resetsAt ≤ db.now)

/-- Retire an observed window whose reset has come. -/
def clearObservedQuotaWindow (db : RecoveryDb) (input : ClearInput) : List QuotaWindowRow :=
  db.quotas.map fun row =>
    if clears db input row then
      { row with
        utilization := none
        retiredAt := some db.now
        evidenceState := .expired
        blocksRouting := false
        utilizationSource := .none
        resetsAt := none
        resetSource := .unknown
        revision := row.revision + 1 }
    else row

section Agreement

/-- The stored row and the merged evidence state the same facts. -/
structure SameFacts (row : QuotaWindowRow) (evidence : QuotaWindowState) : Prop where
  utilization : row.utilization = evidence.utilization
  utilizationSource : row.utilizationSource = evidence.utilizationSource
  resetsAt : row.resetsAt = evidence.resetsAt
  resetSource : row.resetSource = evidence.resetSource
  lastCheckedAt : row.lastCheckedAt = evidence.lastCheckedAt
  advisory : row.advisory = evidence.advisory

variable {row : QuotaWindowRow} {reading : QuotaReading}

/-- The row and memory compare shares alike. -/
theorem moreUsed_eq (row : QuotaWindowRow) (reading : QuotaReading) :
    moreUsed (toQuotaEvidence row) reading.evidence = exceeds reading.utilization row.utilization := by
  unfold moreUsed
  cases hreading : reading.utilization <;> cases hrow : row.utilization <;>
    simp [toQuotaEvidence, QuotaReading.evidence, exceeds, hreading, hrow]

/-- They compare resets alike. -/
theorem laterReset_eq (row : QuotaWindowRow) (reading : QuotaReading) :
    laterReset (toQuotaEvidence row) reading.evidence = exceeds reading.resetsAt row.resetsAt := by
  unfold laterReset
  cases hreading : reading.resetsAt <;> cases hrow : row.resetsAt <;>
    simp [toQuotaEvidence, QuotaReading.evidence, exceeds, hreading, hrow]

/-- The greatest of two columns is the incoming one where it exceeds, and the stored one elsewhere. -/
theorem greatest_eq {A : Type*} [LinearOrder A] (stored incoming : Option A) :
    greatest stored incoming = if exceeds incoming stored then incoming else stored := by
  cases stored with
  | none => cases incoming <;> simp [greatest, exceeds]
  | some stored =>
    cases incoming with
    | none => simp [greatest, exceeds]
    | some incoming =>
      by_cases hless : stored < incoming
      · simp [greatest, exceeds, hless, hless.le]
      · simp [greatest, exceeds, hless, not_lt.mp hless]

/-- A reading without retirement is current evidence. -/
theorem retiredEvidence_reading (reading : QuotaReading) : retiredEvidence reading.evidence = false := rfl

/-- The merge of a stored window and a reading at one clock that says more. -/
theorem merge_of_equal (hcurrent : retiredEvidence (toQuotaEvidence row) = false)
    (htime : row.lastCheckedAt = reading.lastCheckedAt) (hmore : reading.saysMore row = true) :
    mergeQuotaEvidence (toQuotaEvidence row) reading.evidence =
      mergeRestrictive (toQuotaEvidence row) reading.evidence := by
  have hheld : (toQuotaEvidence row).lastCheckedAt = reading.evidence.lastCheckedAt := htime
  have hsays : (!moreUsed (toQuotaEvidence row) reading.evidence &&
      !laterReset (toQuotaEvidence row) reading.evidence) = false := by
    rw [QuotaReading.saysMore] at hmore
    rw [moreUsed_eq, laterReset_eq, ← Bool.not_or, hmore]
    rfl
  have hrevisions : revisionsDiffer (toQuotaEvidence row) reading.evidence = false := by
    simp [revisionsDiffer, QuotaReading.evidence]
  unfold mergeQuotaEvidence
  simp only [hheld, lt_irrefl, if_false, hrevisions, hcurrent, retiredEvidence_reading, hsays, Bool.false_eq_true]

/-- The merge where the reading is not newer and says nothing more. -/
theorem merge_of_held (hcurrent : retiredEvidence (toQuotaEvidence row) = false)
    (htime : reading.lastCheckedAt ≤ row.lastCheckedAt)
    (hmore : row.lastCheckedAt = reading.lastCheckedAt → reading.saysMore row = false) :
    mergeQuotaEvidence (toQuotaEvidence row) reading.evidence = toQuotaEvidence row := by
  have hnewer : ¬ (toQuotaEvidence row).lastCheckedAt < reading.evidence.lastCheckedAt := not_lt.mpr htime
  by_cases holder : reading.evidence.lastCheckedAt < (toQuotaEvidence row).lastCheckedAt
  · rw [mergeQuotaEvidence, if_neg hnewer, if_pos holder]
  · have hsays : (!moreUsed (toQuotaEvidence row) reading.evidence &&
        !laterReset (toQuotaEvidence row) reading.evidence) = true := by
      have hquiet := hmore (le_antisymm (not_lt.mp holder) htime)
      rw [QuotaReading.saysMore] at hquiet
      rw [moreUsed_eq, laterReset_eq, ← Bool.not_or, hquiet]
      rfl
    have hrevisions : revisionsDiffer (toQuotaEvidence row) reading.evidence = false := by
      simp [revisionsDiffer, QuotaReading.evidence]
    simp only [mergeQuotaEvidence, if_neg hnewer, if_neg holder, hrevisions, hcurrent,
      retiredEvidence_reading, hsays, Bool.false_eq_true, if_false, if_true]

/-- The row and the evidence state the same facts, and judge the window spent alike. -/
def Agree (row : QuotaWindowRow) (evidence : QuotaWindowState) : Prop :=
  SameFacts row evidence ∧ ∀ now threshold,
    isWindowSpent (toQuotaEvidence row) now threshold = isWindowSpent evidence now threshold

/-- Facts that are the same and unretired on both sides are judged alike. -/
theorem SameFacts.agree {evidence : QuotaWindowState} (h : SameFacts row evidence)
    (hrow : retiredEvidence (toQuotaEvidence row) = false) (hevidence : retiredEvidence evidence = false) :
    Agree row evidence := by
  refine ⟨h, fun now threshold => ?_⟩
  unfold isWindowSpent
  rw [hrow, hevidence]
  simp only [toQuotaEvidence, h.advisory, h.utilization, h.resetsAt]

/-- A stored window and its merge agree exactly unless, at one clock, the reading says more and bears
another mark. -/
theorem conflictUpdate_agree_iff (hcurrent : retiredEvidence (toQuotaEvidence row) = false) :
    Agree (row.conflictUpdate reading) (mergeQuotaEvidence (toQuotaEvidence row) reading.evidence) ↔
      ¬ (row.lastCheckedAt = reading.lastCheckedAt ∧ reading.saysMore row = true ∧
        row.advisory ≠ reading.advisory) := by
  have hunretired : row.retiredAt = none := by
    simp only [retiredEvidence, Bool.or_eq_false_iff] at hcurrent
    simpa [toQuotaEvidence] using hcurrent.1.1
  rcases lt_trichotomy row.lastCheckedAt reading.lastCheckedAt with hnewer | htime | holder
  · have hmerge : mergeQuotaEvidence (toQuotaEvidence row) reading.evidence = reading.evidence := if_pos hnewer
    rw [hmerge]
    refine iff_of_true (SameFacts.agree ?_ ?_ rfl) fun h => hnewer.ne h.1
    · rw [QuotaWindowRow.conflictUpdate, if_pos (.inl hnewer)]
      constructor <;> simp [QuotaReading.evidence, hnewer.ne]
    · rw [QuotaWindowRow.conflictUpdate, if_pos (.inl hnewer)]
      rfl
  · by_cases hmore : reading.saysMore row = true
    · have hlands : row.lastCheckedAt < reading.lastCheckedAt ∨ row.lastCheckedAt = reading.lastCheckedAt ∧
          row.retiredAt = none ∧ (exceeds reading.utilization row.utilization ||
            exceeds reading.resetsAt row.resetsAt) := .inr ⟨htime, hunretired, hmore⟩
      rw [merge_of_equal hcurrent htime hmore, QuotaWindowRow.conflictUpdate, if_pos hlands]
      constructor
      · rintro ⟨hsame, -⟩ ⟨-, -, hmark⟩
        refine hmark ?_
        have hadvisory : reading.advisory = _ := hsame.advisory
        rw [mergeRestrictive_advisory] at hadvisory
        exact hadvisory.symm
      · intro hmarks
        have hmark : row.advisory = reading.advisory :=
          Decidable.byContradiction fun hne => hmarks ⟨htime, hmore, hne⟩
        refine SameFacts.agree ?_ rfl ?_
        · simp only [mergeRestrictive, moreUsed_eq, laterReset_eq, greatest_eq, htime]
          cases hused : exceeds reading.utilization row.utilization <;>
            cases hlater : exceeds reading.resetsAt row.resetsAt <;>
              constructor <;> simp [QuotaReading.evidence, toQuotaEvidence, hmark, htime]
        · simp [mergeRestrictive, retiredEvidence, QuotaReading.evidence]
    · have hquiet : reading.saysMore row = false := by simpa using hmore
      have hstays : ¬ (row.lastCheckedAt < reading.lastCheckedAt ∨ row.lastCheckedAt = reading.lastCheckedAt ∧
          row.retiredAt = none ∧ (exceeds reading.utilization row.utilization ||
            exceeds reading.resetsAt row.resetsAt)) := by
        rintro (hlt | ⟨-, -, hsays⟩)
        · exact hlt.ne htime
        · exact hmore hsays
      rw [merge_of_held hcurrent htime.ge fun _ => hquiet, QuotaWindowRow.conflictUpdate, if_neg hstays]
      exact iff_of_true ⟨⟨rfl, rfl, rfl, rfl, rfl, rfl⟩, fun _ _ => rfl⟩ fun h => hmore h.2.1
  · have hstays : ¬ (row.lastCheckedAt < reading.lastCheckedAt ∨ row.lastCheckedAt = reading.lastCheckedAt ∧
        row.retiredAt = none ∧ (exceeds reading.utilization row.utilization ||
          exceeds reading.resetsAt row.resetsAt)) := by
      rintro (hlt | ⟨heq, -⟩)
      · exact hlt.not_gt holder
      · exact holder.ne' heq
    rw [merge_of_held hcurrent holder.le fun heq => absurd heq holder.ne', QuotaWindowRow.conflictUpdate,
      if_neg hstays]
    exact iff_of_true ⟨⟨rfl, rfl, rfl, rfl, rfl, rfl⟩, fun _ _ => rfl⟩ fun h => holder.ne' h.1

/-- The row an upsert leaves of a current, unretired window and the merge in memory agree exactly
unless, at one clock, the reading says more and bears another advisory mark. -/
theorem upsertQuotaWindow_agree_iff (quotas : List QuotaWindowRow) (row : QuotaWindowRow) (reading : QuotaReading)
    (hrow : quotaRow quotas reading.window = some row) (hcurrent : retiredEvidence (toQuotaEvidence row) = false) :
    Agree (upsertQuotaWindow quotas reading).1 (mergeQuotaEvidence (toQuotaEvidence row) reading.evidence) ↔
      ¬ (row.lastCheckedAt = reading.lastCheckedAt ∧ reading.saysMore row = true ∧
        row.advisory ≠ reading.advisory) := by
  have hleaves : (upsertQuotaWindow quotas reading).1 = row.conflictUpdate reading := by
    simp [upsertQuotaWindow, hrow]
  rw [hleaves]
  exact conflictUpdate_agree_iff hcurrent

/-- A stored reading that is for display only. -/
def advisoryRow : QuotaWindowRow :=
  { window := .sevenDay, revision := 0, evidenceState := .current, blocksRouting := true, retiredAt := none
    utilization := some (1 / 2), utilizationSource := .continuous, resetsAt := none
    resetSource := .unknown, lastCheckedAt := 0, advisory := true }

/-- A reading of the same clock that the window is spent. -/
def spentReading (advisory : Bool) : QuotaReading :=
  { window := .sevenDay, utilization := some 1, utilizationSource := .thresholdTriggered
    resetsAt := some 60000, resetSource := .providerReported, lastCheckedAt := 0, advisory }

/-- A marked row and an equal reading. -/
theorem upsertQuotaWindow_agree_iff_marked : retiredEvidence (toQuotaEvidence advisoryRow) = false ∧
      Agree (upsertQuotaWindow [advisoryRow] (spentReading true)).1
        (mergeQuotaEvidence (toQuotaEvidence advisoryRow) (spentReading true).evidence) := by
  refine ⟨rfl, (upsertQuotaWindow_agree_iff [advisoryRow] advisoryRow (spentReading true) rfl rfl).mpr ?_⟩
  simp [advisoryRow, spentReading]

/-- The row blocks the account, and the replica that folded the reading in memory does not. -/
theorem upsertQuotaWindow_mark_lost : retiredEvidence (toQuotaEvidence advisoryRow) = false ∧
      isWindowSpent (toQuotaEvidence (upsertQuotaWindow [advisoryRow] (spentReading false)).1) 0 1 = true ∧
      isWindowSpent (mergeQuotaEvidence (toQuotaEvidence advisoryRow) (spentReading false).evidence) 0 1 = false ∧
      ¬ Agree (upsertQuotaWindow [advisoryRow] (spentReading false)).1
        (mergeQuotaEvidence (toQuotaEvidence advisoryRow) (spentReading false).evidence) := by
  have hstored : isWindowSpent (toQuotaEvidence (upsertQuotaWindow [advisoryRow] (spentReading false)).1) 0 1 =
      true := by decide +kernel
  have hmerged : isWindowSpent (mergeQuotaEvidence (toQuotaEvidence advisoryRow) (spentReading false).evidence)
      0 1 = false := by decide +kernel
  refine ⟨rfl, hstored, hmerged, fun hagree => ?_⟩
  have := hagree.2 0 1
  rw [hstored, hmerged] at this
  cases this

end Agreement

end MultiAiRouter.Recovery
