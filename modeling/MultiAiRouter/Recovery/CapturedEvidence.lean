import MultiAiRouter.Recovery.PermitLife
import MultiAiRouter.Recovery.QuotaRows
import Mathlib.Data.List.Nodup

/-!
# A success retires only the evidence it was captured against

A generation captures the revisions of the quota windows that stand when it is opened, and its success retires the
captured windows that are still what they were. Between the two readings land and windows expire.
-/

namespace MultiAiRouter.Recovery

open Common Routing

variable (fingerprint : Option String → String)

/-- The call opens a generation. -/
def Opens (db : RecoveryDb) : RecoveryCall → Prop
  | .publish .. => db.account.isSome
  | .beginOperator input => (beginOperatorRecovery fingerprint db input).2.row ≠ db.row
  | .beginAutomatic input =>
    ∃ row, (beginAutomaticRecovery fingerprint db input).1 = .ok (some row) ∧ db.row ≠ some row
  | _ => False

/-- The call records a success. -/
def Succeeds (db : RecoveryDb) (input : OutcomeInput) : Prop :=
  input.state = .succeeded ∧ (outcome fingerprint db input).2.row ≠ db.row

/-- The quota windows are written by their two statements, and an automatic request gives one of the
reasons its type allows. -/
def Written (db : RecoveryDb) : RecoveryCall → Prop
  | .editQuotas quotas => (∃ reading, quotas = (upsertQuotaWindow db.quotas reading).2) ∨
      ∃ input, quotas = clearObservedQuotaWindow db input
  | .beginAutomatic input => input.reason ≠ .operatorRecheck ∧ input.reason ≠ .operatorEnable
  | _ => True

/-- The row's revision is the one captured when the generation was opened for this reason. -/
def capturedAt (begun : RecoveryDb) (reason : RecoveryReason) (row : QuotaWindowRow) : Bool :=
  begun.quotas.any fun quota => quota.window == row.window && quota.revision == row.revision &&
    quota.evidenceState == .current && quota.retiredAt.isNone &&
      (reason == .operatorRecheck || !reportedReset begun.now quota)

/-- The window is current, unretired and spent. -/
def stillSpent (threshold : Rat) (row : QuotaWindowRow) : Bool :=
  row.evidenceState == .current && row.retiredAt.isNone &&
    row.utilization.any fun utilization => decide (threshold ≤ utilization)

/-- The window as a recovery retires it. -/
def QuotaWindowRow.supersede (row : QuotaWindowRow) (now : Int) : QuotaWindowRow :=
  { row with
    evidenceState := .supersededByRecovery
    blocksRouting := false
    retiredAt := some now
    revision := row.revision + 1 }

/-- A permit is issued and answered for on an account that may be routed to. -/
def Usable (db : RecoveryDb) : Prop :=
  ∃ account, db.account = some account ∧ (account.status = .active ∨ account.status = .coolingDown)

section Rows

/-- A row keeps its window, and any change raises its revision. -/
def Advances (change : QuotaWindowRow → QuotaWindowRow) : Prop :=
  ∀ row, (change row).window = row.window ∧ (change row = row ∨ row.revision < (change row).revision)

/-- Every row is still there, as it was or under a later revision. -/
def Grown (before after : List QuotaWindowRow) : Prop :=
  ∀ row ∈ before, ∃ later ∈ after, later.window = row.window ∧ (later = row ∨ row.revision < later.revision)

/-- Windows that grew and grew again grew. -/
theorem Grown.trans {first second third : List QuotaWindowRow} (h : Grown first second)
    (hnext : Grown second third) : Grown first third := by
  intro row hmem
  obtain ⟨later, hlater, hwindow, hsame⟩ := h row hmem
  obtain ⟨last, hlast, hwindow', hsame'⟩ := hnext later hlater
  refine ⟨last, hlast, hwindow'.trans hwindow, ?_⟩
  rcases hsame with rfl | hless
  · exact hsame'
  · rcases hsame' with rfl | hless'
    · exact .inr hless
    · exact .inr (hless.trans hless')

variable {change : QuotaWindowRow → QuotaWindowRow}

theorem Advances.grown (h : Advances change) (quotas : List QuotaWindowRow) : Grown quotas (quotas.map change) :=
  fun row hmem => ⟨change row, List.mem_map_of_mem hmem, h row⟩

/-- Advancing rows keeps their names. -/
theorem Advances.windows (h : Advances change) (quotas : List QuotaWindowRow) :
    (quotas.map change).map QuotaWindowRow.window = quotas.map QuotaWindowRow.window := by
  rw [List.map_map]
  exact List.map_congr_left fun row _ => (h row).1

/-- The conflict update keeps the window and raises the revision of what it changes. -/
theorem conflictUpdate_advances (reading : QuotaReading) :
    Advances fun row => if row.window = reading.window then row.conflictUpdate reading else row := by
  intro row
  dsimp only
  split
  · unfold QuotaWindowRow.conflictUpdate
    dsimp only
    split
    · exact ⟨rfl, .inr (Nat.lt_succ_self _)⟩
    · exact ⟨rfl, .inl rfl⟩
  · exact ⟨rfl, .inl rfl⟩

/-- Retiring a captured window raises its revision. -/
theorem retireCaptured_advances (captured : List (QuotaWindowKind × ℕ)) (threshold : Rat) (now : Int) :
    Advances (retireCaptured captured threshold now) := by
  intro row
  unfold retireCaptured
  split
  · exact ⟨rfl, .inr (Nat.lt_succ_self _)⟩
  · exact ⟨rfl, .inl rfl⟩

end Rows

variable {fingerprint} {db : RecoveryDb}

/-- What a call does to the quota windows: rows advance, or one is added for a new window. -/
theorem step_quotas {call : RecoveryCall} (hwritten : Written db call) :
    (∃ change, Advances change ∧ (db.step fingerprint call).quotas = db.quotas.map change) ∨
      ∃ row, row.window ∉ db.quotas.map QuotaWindowRow.window ∧
        (db.step fingerprint call).quotas = db.quotas ++ [row] := by
  have hkept (hsame : (db.step fingerprint call).quotas = db.quotas) :
      (∃ change, Advances change ∧ (db.step fingerprint call).quotas = db.quotas.map change) ∨
        ∃ row, row.window ∉ db.quotas.map QuotaWindowRow.window ∧
          (db.step fingerprint call).quotas = db.quotas ++ [row] :=
    .inl ⟨id, fun row => ⟨rfl, .inl rfl⟩, by simpa using hsame⟩
  rcases (@step_frame fingerprint db call).2 with hsame | ⟨quotas, rfl⟩ | ⟨input, rfl⟩
  · exact hkept hsame
  · rcases hwritten with ⟨reading, rfl⟩ | ⟨input, rfl⟩
    · simp only [RecoveryDb.step, upsertQuotaWindow]
      split
      · next hnone =>
        refine .inr ⟨reading.inserted, ?_, rfl⟩
        simp only [quotaRow, List.find?_eq_none, beq_iff_eq] at hnone
        rintro hmem
        obtain ⟨row, hrow, hwindow⟩ := List.mem_map.mp hmem
        exact hnone row hrow hwindow
      · exact .inl ⟨_, conflictUpdate_advances reading, rfl⟩
    · refine .inl ⟨_, ?_, rfl⟩
      intro row
      dsimp only
      split
      · exact ⟨rfl, .inr (Nat.lt_succ_self _)⟩
      · exact ⟨rfl, .inl rfl⟩
  · rcases @outcome_cases fingerprint db input with
      hsame | ⟨account, held, -, -, -, -, -, -, -, -, -, -, hclosed⟩
    · exact hkept (congrArg RecoveryDb.quotas hsame)
    · by_cases hretires : input.state = .succeeded ∧ (account.status = .active ∨ account.status = .coolingDown)
      · refine .inl ⟨_, retireCaptured_advances held.quotaRevisions input.quotaSpentThreshold db.now, ?_⟩
        rw [RecoveryDb.step, hclosed, if_pos hretires]
      · exact hkept (by rw [RecoveryDb.step, hclosed, if_neg hretires])

/-- No two rows of one window: the table's unique index. -/
def Distinct (db : RecoveryDb) : Prop := (db.quotas.map QuotaWindowRow.window).Nodup

/-- Windows stay distinct. -/
theorem Distinct.step (h : Distinct db) {call : RecoveryCall} (hwritten : Written db call) :
    Distinct (db.step fingerprint call) := by
  unfold Distinct at h ⊢
  rcases @step_quotas fingerprint db call hwritten with ⟨change, hadvances, hquotas⟩ | ⟨row, hnew, hquotas⟩
  · rw [hquotas, hadvances.windows]
    exact h
  · rw [hquotas, List.map_append]
    refine List.Nodup.append h (List.nodup_singleton _) ?_
    simpa [List.disjoint_singleton] using hnew

/-- Every step grows the windows. -/
theorem grown_step {call : RecoveryCall} (hwritten : Written db call) :
    Grown db.quotas (db.step fingerprint call).quotas := by
  rcases @step_quotas fingerprint db call hwritten with ⟨change, hadvances, hquotas⟩ | ⟨row, -, hquotas⟩
  · rw [hquotas]
    exact hadvances.grown db.quotas
  · rw [hquotas]
    exact fun found hmem => ⟨found, List.mem_append_left _ hmem, rfl, .inl rfl⟩

/-- An opened generation captures the windows that stand. -/
theorem opens_row {call : RecoveryCall} (h : Opens fingerprint db call) :
    ∃ row, (db.step fingerprint call).row = some row ∧
      row.quotaRevisions = capturedQuota db.quotas row.reason db.now ∧
      ∀ input, call = .beginAutomatic input → row.reason = input.reason := by
  cases call with
  | publish account generationCandidate cooldownMs reason =>
    obtain ⟨before, hbefore⟩ := Option.isSome_iff_exists.mp h
    exact ⟨_, by rw [RecoveryDb.step, publishAccountRecovery, hbefore], rfl, by simp⟩
  | beginOperator input =>
    rcases @beginOperator_cases fingerprint db input with hsame | ⟨account, closed, hopened⟩
    · exact absurd (congrArg RecoveryDb.row hsame) h
    · exact ⟨_, by rw [RecoveryDb.step, hopened], rfl, by simp⟩
  | beginAutomatic input =>
    obtain ⟨row, hanswer, hnew⟩ := h
    have hresult := @beginAutomatic_result fingerprint db input
    rw [RecoveryDb.step]
    generalize beginAutomaticRecovery fingerprint db input = result at hresult hanswer ⊢
    cases hresult with
    | kept hheld => exact absurd (hheld row hanswer) hnew
    | fenced => cases hanswer
    | opened =>
      refine ⟨_, rfl, rfl, ?_⟩
      rintro other ⟨rfl⟩
      rfl
  | _ => exact h.elim

/-- A call that opens no generation leaves what the row captured. -/
theorem step_captured {call : RecoveryCall} (h : ¬ Opens fingerprint db call) {held : RecoveryRow}
    (hrow : db.row = some held) : ∃ row, (db.step fingerprint call).row = some row ∧
      row.reason = held.reason ∧ row.quotaRevisions = held.quotaRevisions := by
  have hkept (hsame : (db.step fingerprint call).row = db.row) :
      ∃ row, (db.step fingerprint call).row = some row ∧ row.reason = held.reason ∧
        row.quotaRevisions = held.quotaRevisions := ⟨held, hsame.trans hrow, rfl, rfl⟩
  cases call with
  | publish account generationCandidate cooldownMs reason =>
    refine hkept ?_
    have hnone : db.account = none := by simpa [Opens] using h
    rw [RecoveryDb.step, publishAccountRecovery, hnone]
  | beginOperator input => exact hkept (Decidable.not_not.mp h)
  | beginAutomatic input =>
    have hresult := @beginAutomatic_result fingerprint db input
    simp only [Opens] at h
    rw [RecoveryDb.step] at hkept ⊢
    generalize beginAutomaticRecovery fingerprint db input = result at hresult hkept h ⊢
    cases hresult with
    | kept => exact hkept rfl
    | fenced hfound =>
      obtain rfl := Option.some.inj (hrow.symm.trans hfound)
      exact ⟨_, rfl, rfl, rfl⟩
    | opened _ hclosed =>
      refine absurd ⟨_, rfl, ?_⟩ h
      intro hsame
      have hrevision := congrArg (Option.map RecoveryRow.revision) hsame
      rw [hrow, Option.map_some, Option.map_some, Option.some.injEq, automaticRow,
        replaceGeneration_revision hrow] at hrevision
      omega
  | assignPending input =>
    rcases @assignPending_cases db input with hsame | ⟨found, hfound, -, hassigned⟩
    · exact hkept (congrArg RecoveryDb.row hsame)
    · obtain rfl := Option.some.inj (hrow.symm.trans hfound)
      exact ⟨_, hassigned, rfl, rfl⟩
  | issue input =>
    rcases @issue_cases fingerprint db input with hsame | ⟨-, found, -, hfound, -, -, -, -, -, -, hissued⟩
    · exact hkept (congrArg RecoveryDb.row hsame)
    · obtain rfl := Option.some.inj (hrow.symm.trans hfound)
      exact ⟨_, hissued, rfl, rfl⟩
  | outcome input =>
    rcases @outcome_cases fingerprint db input with
      hsame | ⟨_, found, -, hfound, -, -, -, -, -, -, -, -, hclosed⟩
    · exact hkept (congrArg RecoveryDb.row hsame)
    · obtain rfl := Option.some.inj (hrow.symm.trans hfound)
      exact ⟨_, congrArg RecoveryDb.row hclosed, rfl, rfl⟩
  | markUncertain input =>
    rcases @markUncertain_cases db input with hsame | ⟨found, -, hfound, -, -, -, hmarked⟩
    · exact hkept (congrArg RecoveryDb.row hsame)
    · obtain rfl := Option.some.inj (hrow.symm.trans hfound)
      exact ⟨_, hmarked, rfl, rfl⟩
  | settleIssued input =>
    rcases @settleIssued_cases db input with hsame | ⟨found, hfound, -, -, -, hsettled⟩
    · exact hkept (congrArg RecoveryDb.row hsame)
    · obtain rfl := Option.some.inj (hrow.symm.trans hfound)
      exact ⟨_, hsettled, rfl, rfl⟩
  | cancel generation =>
    rcases @cancel_cases db generation with hsame | ⟨found, hfound, -, -, hcancelled⟩
    · exact hkept (congrArg RecoveryDb.row hsame)
    · obtain rfl := Option.some.inj (hrow.symm.trans hfound)
      exact ⟨_, hcancelled, rfl, rfl⟩
  | _ => exact hkept rfl

/-- What the generation opened at `begun` holds, and how the windows stand to those it captured. -/
structure CapturedSince (begun : RecoveryDb) (reason : RecoveryReason) (db : RecoveryDb) : Prop where
  distinct : Distinct db
  grown : Grown begun.quotas db.quotas
  row : ∃ held, db.row = some held ∧ held.reason = reason ∧
    held.quotaRevisions = capturedQuota begun.quotas reason begun.now

variable {begun : RecoveryDb} {reason : RecoveryReason}

/-- What was captured stays captured. -/
theorem CapturedSince.step (h : CapturedSince begun reason db) {call : RecoveryCall} (hwritten : Written db call)
    (hopens : ¬ Opens fingerprint db call) : CapturedSince begun reason (db.step fingerprint call) := by
  obtain ⟨held, hrow, hreason, hcaptured⟩ := h.row
  obtain ⟨row, hafter, hreason', hcaptured'⟩ := step_captured hopens hrow
  exact ⟨h.distinct.step hwritten, h.grown.trans (grown_step hwritten),
    row, hafter, hreason'.trans hreason, hcaptured'.trans hcaptured⟩

/-- It stays so until a generation is opened. -/
theorem CapturedSince.run (h : CapturedSince begun reason db) (calls : List RecoveryCall)
    (hwritten : EveryStep (RecoveryDb.step fingerprint) Written db calls)
    (hopens : ¬ SomeStep (RecoveryDb.step fingerprint) (Opens fingerprint) db calls) :
    CapturedSince begun reason (db.run fingerprint calls) := by
  induction calls generalizing db with
  | nil => exact h
  | cons call rest ih =>
    obtain ⟨hfirst, hrest⟩ := not_or.mp hopens
    exact ih (h.step hwritten.1 hfirst) hwritten.2 hrest

/-- The captured pairs are the windows that stood when the generation was opened. -/
theorem mem_capturedQuota_iff {row : QuotaWindowRow} :
    (row.window, row.revision) ∈ capturedQuota begun.quotas reason begun.now ↔
      capturedAt begun reason row = true := by
  simp only [capturedQuota, capturedAt, List.mem_map, List.mem_filter, List.any_eq_true, Bool.and_eq_true,
    beq_iff_eq, Prod.mk.injEq]
  constructor
  · rintro ⟨quota, ⟨⟨hmem, hcurrent, hunretired⟩, hkept⟩, hwindow, hrevision⟩
    exact ⟨quota, hmem, ⟨⟨⟨hwindow, hrevision⟩, hcurrent⟩, hunretired⟩, hkept⟩
  · rintro ⟨quota, hmem, ⟨⟨⟨hwindow, hrevision⟩, hcurrent⟩, hunretired⟩, hkept⟩
    exact ⟨quota, ⟨⟨hmem, hcurrent, hunretired⟩, hkept⟩, hwindow, hrevision⟩

/-- A row that has its captured revision is the row that was captured. -/
theorem CapturedSince.mem_begun (h : CapturedSince begun reason db) {row : QuotaWindowRow}
    (hmem : row ∈ db.quotas) (hcaptured : capturedAt begun reason row = true) : row ∈ begun.quotas := by
  simp only [capturedAt, List.any_eq_true, Bool.and_eq_true, beq_iff_eq] at hcaptured
  obtain ⟨quota, hquota, ⟨⟨⟨hwindow, hrevision⟩, -⟩, -⟩, -⟩ := hcaptured
  obtain ⟨later, hlater, hsame, hunchanged⟩ := h.grown quota hquota
  obtain rfl : later = row := List.inj_on_of_nodup_map h.distinct hlater hmem (hsame.trans hwindow)
  rcases hunchanged with rfl | hless
  · exact hquota
  · omega

/-- Retiring the captured windows, in the words of the state they were captured in. -/
theorem retireCaptured_eq (threshold : Rat) (now : Int) (row : QuotaWindowRow) :
    retireCaptured (capturedQuota begun.quotas reason begun.now) threshold now row =
      if capturedAt begun reason row && stillSpent threshold row then row.supersede now else row := by
  have hiff : ((row.window, row.revision) ∈ capturedQuota begun.quotas reason begun.now ∧ row.retiredAt = none ∧
      row.evidenceState = .current ∧ row.utilization.any fun utilization => decide (threshold ≤ utilization)) ↔
        (capturedAt begun reason row && stillSpent threshold row) = true := by
    rw [mem_capturedQuota_iff]
    simp only [stillSpent, Bool.and_eq_true, beq_iff_eq, Option.isNone_iff_eq_none]
    tauto
  unfold retireCaptured
  by_cases h : (capturedAt begun reason row && stillSpent threshold row) = true
  · rw [if_pos (hiff.mpr h), if_pos h]
    rfl
  · rw [if_neg (mt hiff.mp h), if_neg h]

/-- What a success makes of the windows: those it captured that are still spent are retired. -/
def retiredBy (begun : RecoveryDb) (held : RecoveryRow) (input : OutcomeInput) (db : RecoveryDb) :
    List QuotaWindowRow :=
  db.quotas.map fun row =>
    if capturedAt begun held.reason row && stillSpent input.quotaSpentThreshold row then row.supersede db.now
    else row

/-- How the quota windows and the recovery generations of a run go together. -/
structure EvidenceKept (fingerprint : Option String → String) (start : RecoveryDb) (calls : List RecoveryCall) :
    Prop where
  /-- On a usable account a success retires exactly the windows whose revision was captured when its
  generation was opened and that are still current, unretired and spent; on any other, none. -/
  retires : ∀ first opening middle input rest,
    calls = first ++ opening :: (middle ++ RecoveryCall.outcome input :: rest) →
    Opens fingerprint (start.run fingerprint first) opening →
    ¬ SomeStep (RecoveryDb.step fingerprint) (Opens fingerprint)
      (start.run fingerprint (first ++ [opening])) middle →
    Succeeds fingerprint (start.run fingerprint (first ++ opening :: middle)) input →
    ∃ held, (start.run fingerprint (first ++ opening :: middle)).row = some held ∧
      (Usable (start.run fingerprint (first ++ opening :: middle)) →
        (start.run fingerprint (first ++ opening :: (middle ++ [RecoveryCall.outcome input]))).quotas =
          retiredBy (start.run fingerprint first) held input
            (start.run fingerprint (first ++ opening :: middle))) ∧
      (¬ Usable (start.run fingerprint (first ++ opening :: middle)) →
        (start.run fingerprint (first ++ opening :: (middle ++ [RecoveryCall.outcome input]))).quotas =
          (start.run fingerprint (first ++ opening :: middle)).quotas) ∧
      -- A window with its captured revision has not been written to since.
      ∀ row ∈ (start.run fingerprint (first ++ opening :: middle)).quotas,
        capturedAt (start.run fingerprint first) held.reason row = true →
        row ∈ (start.run fingerprint first).quotas
  /-- An automatic generation captures no window whose provider-reported reset is still to come. -/
  automatic : ∀ first input rest, calls = first ++ RecoveryCall.beginAutomatic input :: rest →
    Opens fingerprint (start.run fingerprint first) (RecoveryCall.beginAutomatic input) →
    ∃ row, (start.run fingerprint (first ++ [RecoveryCall.beginAutomatic input])).row = some row ∧
      ∀ quota ∈ (start.run fingerprint first).quotas, reportedReset (start.run fingerprint first).now quota = true →
        ∀ revision, (quota.window, revision) ∉ row.quotaRevisions
  /-- Nothing but a window write and a recorded success changes a window. -/
  others : ∀ first call rest, calls = first ++ call :: rest → (∀ quotas, call ≠ .editQuotas quotas) →
    (∀ input, call = RecoveryCall.outcome input → ¬ Succeeds fingerprint (start.run fingerprint first) input) →
    ((start.run fingerprint first).step fingerprint call).quotas = (start.run fingerprint first).quotas

/-- The windows stay distinct along a run. -/
theorem Distinct.run {start : RecoveryDb} (h : Distinct start) {calls rest : List RecoveryCall}
    (hwritten : EveryStep (RecoveryDb.step fingerprint) Written start (calls ++ rest)) :
    Distinct (start.run fingerprint calls) := by
  induction calls generalizing start with
  | nil => exact h
  | cons call rest ih => exact ih (h.step hwritten.1) hwritten.2

/-- A success changes the row of the permit it names, and retires by what the row captured. -/
theorem succeeds_quotas {input : OutcomeInput} (h : Succeeds fingerprint db input) {held : RecoveryRow}
    (hrow : db.row = some held) : (Usable db → (db.step fingerprint (.outcome input)).quotas =
      db.quotas.map (retireCaptured held.quotaRevisions input.quotaSpentThreshold db.now)) ∧
    (¬ Usable db → (db.step fingerprint (.outcome input)).quotas = db.quotas) := by
  rcases @outcome_cases fingerprint db input with
    hsame | ⟨account, found, haccount, hfound, -, -, -, -, -, -, -, -, hclosed⟩
  · exact absurd (congrArg RecoveryDb.row hsame) h.2
  · obtain rfl := Option.some.inj (hrow.symm.trans hfound)
    have husable : Usable db ↔ account.status = .active ∨ account.status = .coolingDown := by
      simp [Usable, haccount]
    rw [RecoveryDb.step, hclosed, husable]
    exact ⟨fun hstatus => if_pos ⟨h.1, hstatus⟩, fun hstatus => if_neg fun hboth => hstatus hboth.2⟩

/-- Over every run whose windows are written by their two statements, a success retires only the
evidence it was captured against, and nothing else retires any. -/
theorem run_evidenceKept (fingerprint : Option String → String) (start : RecoveryDb) (hstart : Distinct start)
    (calls : List RecoveryCall) (hwritten : EveryStep (RecoveryDb.step fingerprint) Written start calls) :
    EvidenceKept fingerprint start calls where
  retires := by
    rintro first opening middle input rest rfl hopens hnone hsucceeds
    have hsplit (later : List RecoveryCall) : start.run fingerprint (first ++ opening :: later) =
        (start.run fingerprint (first ++ [opening])).run fingerprint later := by
      rw [← run_append]
      simp
    have hbegun := hstart.run hwritten
    have hopening := (everyStep_append.mp hwritten).2
    obtain ⟨opened, hopened, hcaptured, -⟩ := opens_row hopens
    have hsince : CapturedSince (start.run fingerprint first) opened.reason
        (start.run fingerprint (first ++ opening :: middle)) := by
      rw [hsplit]
      refine CapturedSince.run ?_ middle ?_ hnone
      · rw [run_concat]
        exact ⟨hbegun.step hopening.1, grown_step hopening.1, opened, hopened, rfl, hcaptured⟩
      · rw [run_concat]
        exact (everyStep_append.mp hopening.2).1
    obtain ⟨held, hrow, hreason, hheld⟩ := hsince.row
    obtain ⟨husable, hother⟩ := succeeds_quotas hsucceeds hrow
    have hstep : start.run fingerprint (first ++ opening :: (middle ++ [.outcome input])) =
        (start.run fingerprint (first ++ opening :: middle)).step fingerprint (.outcome input) := by
      rw [← run_concat]
      simp
    refine ⟨held, hrow, fun h => ?_, fun h => hstep ▸ hother h, ?_⟩
    · rw [hstep, husable h, hheld, retiredBy, hreason]
      exact List.map_congr_left fun row _ => retireCaptured_eq _ _ row
    · intro row hmem hrevision
      exact hsince.mem_begun hmem (hreason ▸ hrevision)
  automatic := by
    rintro first input rest rfl hopens
    obtain ⟨row, hrow, hcaptured, hreason⟩ := opens_row hopens
    refine ⟨row, by rw [run_concat]; exact hrow, ?_⟩
    intro quota hquota hreported revision hmem
    have hallowed : row.reason ≠ .operatorRecheck := by
      rw [hreason input rfl]
      exact (everyStep_append.mp hwritten).2.1.1
    rw [hcaptured] at hmem
    simp only [capturedQuota, List.mem_map, List.mem_filter, Prod.mk.injEq] at hmem
    obtain ⟨found, ⟨⟨hfound, -⟩, hkept⟩, hwindow, -⟩ := hmem
    obtain rfl : found = quota := List.inj_on_of_nodup_map (hstart.run hwritten) hfound hquota hwindow
    simp [hallowed, hreported] at hkept
  others := by
    rintro first call rest rfl hedit houtcome
    rcases (@step_frame fingerprint (start.run fingerprint first) call).2 with hsame | ⟨quotas, rfl⟩ | ⟨input, rfl⟩
    · exact hsame
    · exact absurd rfl (hedit quotas)
    · have hfails := houtcome input rfl
      rcases @outcome_cases fingerprint (start.run fingerprint first) input with
        hsame | ⟨account, held, -, hrow, -, -, -, -, -, -, -, -, hclosed⟩
      · exact congrArg RecoveryDb.quotas hsame
      · rw [RecoveryDb.step, hclosed]
        refine if_neg fun hretires => hfails ⟨hretires.1, ?_⟩
        rw [hclosed, hrow]
        intro hsame
        have hrevision := congrArg RecoveryRow.revision (Option.some.inj hsame)
        simp at hrevision

/-- An account with one spent window, whose reset nobody reported. -/
def spentAccount : RecoveryDb :=
  { activeAccount with
    quotas := [{ window := .sevenDay, revision := 0, evidenceState := .current, blocksRouting := true
                 retiredAt := none, utilization := some 1, utilizationSource := .thresholdTriggered
                 resetsAt := none, resetSource := .unknown, lastCheckedAt := 0, advisory := false }] }

/-- The permit of a stale window's generation succeeds. -/
def recoveredLife : List RecoveryCall :=
  [.beginAutomatic { cooldownRequest with reason := .quotaStale },
    .assignPending { generation := "g1", expectedEpoch := 0, ownerBootId := "boot", leaseMs := 30000 },
    .issue firstIssue, .outcome firstOutcome]

/-- A life in which a success retires a spent window. -/
theorem run_evidenceKept_recovered : Distinct spentAccount ∧
    EveryStep (RecoveryDb.step fingerprintText) Written spentAccount recoveredLife ∧
    EvidenceKept fingerprintText spentAccount recoveredLife ∧
    (spentAccount.run fingerprintText recoveredLife).quotas.map QuotaWindowRow.retiredAt = [some 0] := by
  have hdistinct : Distinct spentAccount := by simp [Distinct, spentAccount]
  have hwritten : EveryStep (RecoveryDb.step fingerprintText) Written spentAccount recoveredLife := by
    simp [EveryStep, Written, recoveredLife]
  exact ⟨hdistinct, hwritten, run_evidenceKept fingerprintText spentAccount hdistinct recoveredLife hwritten,
    by decide +kernel⟩

/-- Whatever the account's status, a success retires the captured windows that are still spent. -/
def RetiresWhateverStatus (fingerprint : Option String → String) (start : RecoveryDb)
    (calls : List RecoveryCall) : Prop :=
  ∀ first opening middle input rest, calls = first ++ opening :: (middle ++ RecoveryCall.outcome input :: rest) →
    Opens fingerprint (start.run fingerprint first) opening →
    ¬ SomeStep (RecoveryDb.step fingerprint) (Opens fingerprint)
      (start.run fingerprint (first ++ [opening])) middle →
    Succeeds fingerprint (start.run fingerprint (first ++ opening :: middle)) input →
    ∃ held, (start.run fingerprint (first ++ opening :: middle)).row = some held ∧
      (start.run fingerprint (first ++ opening :: (middle ++ [RecoveryCall.outcome input]))).quotas =
        retiredBy (start.run fingerprint first) held input
          (start.run fingerprint (first ++ opening :: middle))

/-- Another request finds the account out of credits while the permit's call is on the wire. -/
def drainedLife : List RecoveryCall :=
  [.beginAutomatic { cooldownRequest with reason := .quotaStale },
    .assignPending { generation := "g1", expectedEpoch := 0, ownerBootId := "boot", leaseMs := 30000 },
    .issue firstIssue,
    .editAccount { lifecycleVersion := 1, healthRecoveryVersion := 0, authMaterial := some "token",
                   status := .exhausted, updatedAt := 0 },
    .outcome firstOutcome]

/-- The success is recorded on an account out of credits, and its window is not retired. -/
theorem run_drained_keeps_window : EveryStep (RecoveryDb.step fingerprintText) Written spentAccount drainedLife ∧
      ¬ RetiresWhateverStatus fingerprintText spentAccount drainedLife := by
  refine ⟨by simp [EveryStep, Written, drainedLife], fun hretires => ?_⟩
  obtain ⟨held, hrow, hquotas⟩ := hretires [] (.beginAutomatic { cooldownRequest with reason := .quotaStale })
    ((drainedLife.drop 1).take 3) firstOutcome [] rfl
    ⟨_, rfl, by decide +kernel⟩ (by simp [drainedLife, SomeStep, Opens]) ⟨rfl, by decide +kernel⟩
  have hreason : held.reason = .quotaStale := by
    have hmap := congrArg (Option.map RecoveryRow.reason) hrow
    have hopened : (spentAccount.run fingerprintText ([] ++ .beginAutomatic { cooldownRequest with
        reason := .quotaStale } :: (drainedLife.drop 1).take 3)).row.map RecoveryRow.reason = some .quotaStale := by
      decide +kernel
    exact Option.some.inj (hmap.symm.trans hopened)
  have hretired := congrArg (List.map QuotaWindowRow.retiredAt) hquotas
  rw [retiredBy, hreason] at hretired
  exact absurd hretired (by decide +kernel)

end MultiAiRouter.Recovery
