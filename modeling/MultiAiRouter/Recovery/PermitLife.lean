import MultiAiRouter.Recovery.Transactions
import Mathlib.Data.List.Induction

/-!
# A recovery permit has one life

A transaction leaves the recovery row, amends it within its generation, or replaces it by the row of a new one. An
amended row moves forward only, from pending to issued to one verdict, and a replaced row never comes back as long
as a candidate is reused only to retry one automatic request. So a generation is issued once and ends once.
-/

namespace MultiAiRouter.Recovery

open Common Routing

variable {fingerprint : Option String → String} {db : RecoveryDb}

/-- The states a generation ends in. -/
def Terminal (state : RecoveryState) : Prop := state ≠ .pending ∧ state ≠ .issued

/-- A row amended within its generation: one revision on, from a state that was open, and once
issued to the same owner under the same permit. -/
structure Amends (before after : RecoveryRow) : Prop where
  generation_eq : after.generation = before.generation
  revision_eq : after.revision = before.revision + 1
  was_open : before.state = .pending ∨ before.state = .issued
  issued : before.state = .issued → Terminal after.state ∧ after.ownerBootId = before.ownerBootId ∧
    after.permitId = before.permitId

/-- The candidate a call would open a generation under. -/
def RecoveryCall.candidate? : RecoveryCall → Option String
  | .publish _ generationCandidate _ _ => some generationCandidate
  | .beginOperator input => some input.generationCandidate
  | .beginAutomatic input => some input.generationCandidate
  | _ => none

/-- A new generation is one revision after the row it replaces, and an automatic one replaces the
revision it expects. -/
inductive RowStep (call : RecoveryCall) : Option RecoveryRow → Option RecoveryRow → Prop
  | same (row : Option RecoveryRow) : RowStep call row row
  | amended {before after : RecoveryRow} (h : Amends before after) : RowStep call (some before) (some after)
  | replaced {before : Option RecoveryRow} {after : RecoveryRow}
      (hcandidate : call.candidate? = some after.generation)
      (hrevision : ∀ held, before = some held → after.revision = held.revision + 1)
      (hexpected : ∀ input, call = .beginAutomatic input →
        input.expectedRecoveryRevision = before.map RecoveryRow.revision) :
      RowStep call before (some after)

/-- A replacing row is one revision on. -/
theorem replaceGeneration_revision {generationCandidate : String} {lifecycleVersion : ℕ}
    {authMaterial : Option String} {reason : RecoveryReason} {cooldownMs : Int} {closed : Bool}
    {held : RecoveryRow} (h : db.row = some held) :
    (replaceGeneration fingerprint db generationCandidate lifecycleVersion authMaterial reason
      cooldownMs closed).revision = held.revision + 1 := by
  simp [replaceGeneration, h]

/-- A generation is published. -/
theorem publish_rowStep (account : RecoveryAccount) (generationCandidate : String) (cooldownMs : Int)
    (reason : RecoveryReason) : RowStep (.publish account generationCandidate cooldownMs reason) db.row
      (db.step fingerprint (.publish account generationCandidate cooldownMs reason)).row := by
  simp only [RecoveryDb.step, publishAccountRecovery]
  split
  · exact .same _
  · exact .replaced rfl (fun _ hheld => replaceGeneration_revision hheld) (by simp)

/-- An operator's request changes nothing, or opens a generation. -/
theorem beginOperator_cases (input : BeginOperatorInput) :
    (beginOperatorRecovery fingerprint db input).2 = db ∨ ∃ account closed,
      (beginOperatorRecovery fingerprint db input).2 = { db with
        account := some account
        row := some (replaceGeneration fingerprint db input.generationCandidate account.lifecycleVersion
          account.authMaterial .operatorRecheck input.cooldownMs closed) } := by
  unfold beginOperatorRecovery
  split
  · exact .inl rfl
  · split
    · exact .inl rfl
    · split
      · split
        · exact .inl rfl
        · exact .inr ⟨_, _, rfl⟩
      · exact .inr ⟨_, _, rfl⟩

/-- An operator begins. -/
theorem beginOperator_rowStep (input : BeginOperatorInput) :
    RowStep (.beginOperator input) db.row (db.step fingerprint (.beginOperator input)).row := by
  rcases @beginOperator_cases fingerprint db input with hsame | ⟨account, closed, hopened⟩
  · rw [RecoveryDb.step, hsame]
    exact .same _
  · rw [RecoveryDb.step, hopened]
    exact .replaced rfl (fun _ hheld => replaceGeneration_revision hheld) (by simp)

/-- Fencing closes an open row, one revision on. -/
theorem fenceRow_amends {held : RecoveryRow} (hopen : held.isOpen = true) (now age : Int) :
    Amends held (fenceRow now age held) := by
  have hstate : held.state = .pending ∨ held.state = .issued := by
    simpa [RecoveryRow.isOpen] using hopen
  refine ⟨rfl, rfl, hstate, ?_⟩
  intro hissued
  simp [fenceRow, hissued, Terminal]

/-- The row an automatic request opens. -/
def automaticRow (fingerprint : Option String → String) (db : RecoveryDb) (input : BeginAutomaticInput)
    (account : RecoveryAccount) : RecoveryRow :=
  replaceGeneration fingerprint db input.generationCandidate account.lifecycleVersion account.authMaterial
    input.reason input.cooldownMs false

/-- What an automatic request comes to: nothing changes, or an open row is fenced, or a generation is opened past
the cooldown of the expected row. -/
inductive AutomaticResult (fingerprint : Option String → String) (db : RecoveryDb) (input : BeginAutomaticInput) :
    RecoveryAnswer RecoveryRow × RecoveryDb → Prop
  | kept {answer : RecoveryAnswer RecoveryRow} (hanswer : ∀ row, answer = .ok (some row) → db.row = some row) :
      AutomaticResult fingerprint db input (answer, db)
  | fenced {held : RecoveryRow} (hrow : db.row = some held) (hopen : held.isOpen = true) :
      AutomaticResult fingerprint db input
        (.ok none, { db with row := some (fenceRow db.now input.maximumOutcomeAgeMs held) })
  | opened {account : RecoveryAccount}
      (hexpected : input.expectedRecoveryRevision = db.row.map RecoveryRow.revision)
      (hclosed : ∀ held, db.row = some held → held.isOpen = false ∧ held.nextAllowedAt ≤ db.now) :
      AutomaticResult fingerprint db input (.ok (some (automaticRow fingerprint db input account)),
        { db with row := some (automaticRow fingerprint db input account) })

/-- What beginning on its own answers. -/
theorem beginAutomatic_result (input : BeginAutomaticInput) :
    AutomaticResult fingerprint db input (beginAutomaticRecovery fingerprint db input) := by
  unfold beginAutomaticRecovery
  split
  · exact .kept (by simp)
  · split
    · exact .kept (by simp)
    · split
      · next held hrow =>
        split
        · next hfence => exact .fenced hrow (Bool.and_eq_true_iff.mp hfence).1
        · split
          · exact .kept (by simp)
          · split
            · refine .kept ?_
              rintro row ⟨rfl⟩
              exact hrow
            · next hclosed =>
              split
              · exact .kept (by simp)
              · next hexpected =>
                split
                · exact .kept (by simp)
                · next hallowed =>
                  rw [not_or, not_lt] at hallowed
                  refine .opened (by simpa [hrow] using hexpected) ?_
                  intro found hfound
                  obtain rfl := Option.some.inj (hrow.symm.trans hfound)
                  exact ⟨by simpa using hclosed, hallowed.2⟩
      · next hrow =>
        split
        · exact .kept (by simp)
        · split
          · exact .kept (by simp)
          · next hexpected =>
            refine .opened (by simpa [hrow] using hexpected) ?_
            intro held hheld
            rw [hrow] at hheld
            cases hheld

/-- The router begins on its own. -/
theorem beginAutomatic_rowStep (input : BeginAutomaticInput) :
    RowStep (.beginAutomatic input) db.row (db.step fingerprint (.beginAutomatic input)).row := by
  have hresult := @beginAutomatic_result fingerprint db input
  rw [RecoveryDb.step]
  generalize beginAutomaticRecovery fingerprint db input = result at hresult ⊢
  cases hresult with
  | kept => exact .same _
  | fenced hrow hopen =>
    rw [hrow]
    exact .amended (fenceRow_amends hopen _ _)
  | opened hexpected =>
    refine .replaced rfl (fun _ hheld => replaceGeneration_revision hheld) ?_
    intro other heq
    obtain rfl := RecoveryCall.beginAutomatic.inj heq
    exact hexpected

/-- An assignment changes nothing, or gives the pending generation it names to a boot. -/
theorem assignPending_cases (input : AssignInput) :
    (assignPending db input).2 = db ∨ ∃ held, db.row = some held ∧ held.state = .pending ∧
      (assignPending db input).2.row = some { held with
        ownerBootId := some input.ownerBootId
        ownershipEpoch := held.ownershipEpoch + 1
        revision := held.revision + 1
        preparationLeaseUntil := some (db.now + input.leaseMs) } := by
  unfold assignPending
  split
  · exact .inl rfl
  · split
    · next held _ hrow =>
      split
      · exact .inl rfl
      · next hguard =>
        push Not at hguard
        split
        · exact .inl rfl
        · exact .inr ⟨held, hrow, hguard.1, rfl⟩
    · exact .inl rfl

/-- A pending generation is assigned. -/
theorem assignPending_rowStep (input : AssignInput) :
    RowStep (.assignPending input) db.row (db.step fingerprint (.assignPending input)).row := by
  rcases @assignPending_cases db input with hsame | ⟨held, hrow, hpending, hassigned⟩
  · rw [RecoveryDb.step, hsame]
    exact .same _
  · rw [RecoveryDb.step, hassigned, hrow]
    exact .amended ⟨rfl, rfl, .inl hpending, fun hissued => by simp [hpending] at hissued⟩

/-- An issue changes nothing, or issues the pending generation it names. -/
theorem issue_cases (input : IssueInput) :
    (issue fingerprint db input).2 = db ∨ ∃ account held, db.account = some account ∧ db.row = some held ∧
      observed account input.expected = true ∧ held.generation = input.generation ∧
      held.ownerBootId = some input.ownerBootId ∧ held.ownershipEpoch = input.expectedEpoch ∧
      held.current fingerprint account = true ∧ held.state = .pending ∧
      (issue fingerprint db input).2.row = some { held with
        state := .issued
        permitId := some input.permitId
        issuedAt := some db.now
        revision := held.revision + 1 } := by
  unfold issue
  split
  · exact .inl rfl
  · next account haccount =>
    split
    · exact .inl rfl
    · next hobserved =>
      split
      · exact .inl rfl
      · next held hrow =>
        split
        · exact .inl rfl
        · next hguard =>
          push Not at hguard
          split
          · exact .inl rfl
          · split
            · exact .inl rfl
            · next hpending =>
              split
              · exact .inl rfl
              · refine .inr ⟨account, held, haccount, hrow, ?_, hguard.1, hguard.2.1, hguard.2.2.1,
                  by simpa using hguard.2.2.2, Decidable.not_not.mp hpending, rfl⟩
                simp only [Bool.or_eq_true, Bool.not_eq_true', not_or] at hobserved
                simpa using hobserved.1

/-- A permit is issued. -/
theorem issue_rowStep (input : IssueInput) :
    RowStep (.issue input) db.row (db.step fingerprint (.issue input)).row := by
  rcases @issue_cases fingerprint db input with hsame | ⟨-, held, -, hrow, -, -, -, -, -, hpending, hissued⟩
  · rw [RecoveryDb.step, hsame]
    exact .same _
  · rw [RecoveryDb.step, hissued, hrow]
    exact .amended ⟨rfl, rfl, .inl hpending, fun h => by simp [hpending] at h⟩

/-- A verdict is none of the open states. -/
theorem terminal_verdict (verdict : Verdict) : Terminal verdict.state := by
  cases verdict <;> exact ⟨by decide, by decide⟩

/-- An outcome changes nothing, or closes the issued permit it names. -/
theorem outcome_cases (input : OutcomeInput) :
    (outcome fingerprint db input).2 = db ∨ ∃ account held, db.account = some account ∧ db.row = some held ∧
      account.lifecycleVersion = input.expected.lifecycleVersion ∧
      account.authMaterial = input.expected.authMaterial ∧ held.generation = input.generation ∧
      held.permitId = some input.permitId ∧ held.ownerBootId = some input.ownerBootId ∧
      held.ownershipEpoch = input.expectedEpoch ∧ held.current fingerprint account = true ∧
      held.state = .issued ∧
      (outcome fingerprint db input).2 = { db with
        row := some { held with
          state := input.state.state
          outcomeAt := some db.now
          revision := held.revision + 1
          nextAllowedAt := db.now + input.cooldownMs }
        quotas := if input.state = .succeeded ∧ (account.status = .active ∨ account.status = .coolingDown) then
            db.quotas.map (retireCaptured held.quotaRevisions input.quotaSpentThreshold db.now)
          else db.quotas } := by
  unfold outcome
  split
  · exact .inl rfl
  · split
    · exact .inl rfl
    · split
      · exact .inl rfl
      · next account haccount =>
        split
        · exact .inl rfl
        · next hobserved =>
          push Not at hobserved
          split
          · exact .inl rfl
          · next held hrow =>
            split
            · exact .inl rfl
            · next hguard =>
              push Not at hguard
              split
              · exact .inl rfl
              · split
                · exact .inl rfl
                · next hissued =>
                  exact .inr ⟨account, held, haccount, hrow, hobserved.1, hobserved.2, hguard.1, hguard.2.1,
                    hguard.2.2.1, hguard.2.2.2.1, by simpa using hguard.2.2.2.2,
                    Decidable.not_not.mp hissued, rfl⟩

/-- An outcome is written. -/
theorem outcome_rowStep (input : OutcomeInput) :
    RowStep (.outcome input) db.row (db.step fingerprint (.outcome input)).row := by
  rcases @outcome_cases fingerprint db input with
    hsame | ⟨_, held, -, hrow, -, -, -, -, -, -, -, hissued, hclosed⟩
  · rw [RecoveryDb.step, hsame]
    exact .same _
  · rw [RecoveryDb.step, hclosed, hrow]
    exact .amended ⟨rfl, rfl, .inr hissued, fun _ => ⟨terminal_verdict input.state, rfl, rfl⟩⟩

/-- Closing an issued row under its permit, one revision on. -/
theorem amends_of_issued {before after : RecoveryRow} (hissued : before.state = .issued)
    (hgeneration : after.generation = before.generation) (hrevision : after.revision = before.revision + 1)
    (hterminal : Terminal after.state) (howner : after.ownerBootId = before.ownerBootId)
    (hpermit : after.permitId = before.permitId) : Amends before after :=
  ⟨hgeneration, hrevision, .inr hissued, fun _ => ⟨hterminal, howner, hpermit⟩⟩

/-- An overdue mark changes nothing, or closes the permit it names past the bound. -/
theorem markUncertain_cases (input : UncertainInput) :
    (markUncertain db input).2 = db ∨ ∃ held issuedAt, db.row = some held ∧ held.state = .issued ∧
      held.issuedAt = some issuedAt ∧ input.maximumOutcomeAgeMs ≤ db.now - issuedAt ∧
      (markUncertain db input).2.row = some { held with
        state := .uncertain
        outcomeAt := some db.now
        revision := held.revision + 1 } := by
  unfold markUncertain
  split
  · exact .inl rfl
  · split
    · next held _ hrow =>
      split
      · exact .inl rfl
      · next hguard =>
        push Not at hguard
        split
        · exact .inl rfl
        · next issuedAt hissuedAt =>
          split
          · exact .inl rfl
          · next hoverdue => exact .inr ⟨held, issuedAt, hrow, hguard.1, hissuedAt, not_lt.mp hoverdue, rfl⟩
    · exact .inl rfl

/-- A permit becomes uncertain. -/
theorem markUncertain_rowStep (input : UncertainInput) :
    RowStep (.markUncertain input) db.row (db.step fingerprint (.markUncertain input)).row := by
  rcases @markUncertain_cases db input with hsame | ⟨held, -, hrow, hissued, -, -, hmarked⟩
  · rw [RecoveryDb.step, hsame]
    exact .same _
  · rw [RecoveryDb.step, hmarked, hrow]
    exact .amended (amends_of_issued hissued rfl rfl ⟨by simp, by simp⟩ rfl rfl)

/-- Settling changes nothing, or closes the boot's own permit. -/
theorem settleIssued_cases (input : SettleInput) :
    (settleIssuedForOwner db input).2 = db ∨ ∃ held, db.row = some held ∧ held.state = .issued ∧
      held.ownerBootId = some input.ownerBootId ∧ held.permitId = input.permitId ∧
      (settleIssuedForOwner db input).2.row = some { held with
        state := .uncertain
        outcomeAt := some db.now
        revision := held.revision + 1
        nextAllowedAt := db.now + input.cooldownMs } := by
  unfold settleIssuedForOwner
  split
  · exact .inl rfl
  · split
    · next held _ hrow =>
      split
      · exact .inl rfl
      · next hguard =>
        push Not at hguard
        exact .inr ⟨held, hrow, hguard.1, hguard.2.1, hguard.2.2, rfl⟩
    · exact .inl rfl

/-- An issued permit is settled. -/
theorem settleIssued_rowStep (input : SettleInput) :
    RowStep (.settleIssued input) db.row (db.step fingerprint (.settleIssued input)).row := by
  rcases @settleIssued_cases db input with hsame | ⟨held, hrow, hissued, -, -, hsettled⟩
  · rw [RecoveryDb.step, hsame]
    exact .same _
  · rw [RecoveryDb.step, hsettled, hrow]
    exact .amended (amends_of_issued hissued rfl rfl ⟨by simp, by simp⟩ rfl rfl)

/-- A cancel changes nothing, or closes the open generation it names. -/
theorem cancel_cases (generation : String) :
    (cancel db generation).2 = db ∨ ∃ held, db.row = some held ∧ held.generation = generation ∧
      (held.state = .pending ∨ held.state = .issued) ∧
      (cancel db generation).2.row = some { held with
        state := .cancelled
        outcomeAt := some db.now
        revision := held.revision + 1 } := by
  unfold cancel
  split
  · next held _ hrow =>
    split
    · exact .inl rfl
    · next hguard =>
      push Not at hguard
      have hopen : held.state = .pending ∨ held.state = .issued := by
        refine Decidable.or_iff_not_imp_left.mpr ?_
        simpa [RecoveryRow.isOpen] using hguard.2
      exact .inr ⟨held, hrow, hguard.1, hopen, rfl⟩
  · exact .inl rfl

/-- A generation is cancelled. -/
theorem cancel_rowStep (generation : String) :
    RowStep (.cancel generation) db.row (db.step fingerprint (.cancel generation)).row := by
  rcases @cancel_cases db generation with hsame | ⟨held, hrow, -, hopen, hcancelled⟩
  · rw [RecoveryDb.step, hsame]
    exact .same _
  · rw [RecoveryDb.step, hcancelled, hrow]
    exact .amended ⟨rfl, rfl, hopen, fun _ => ⟨⟨by simp, by simp⟩, rfl, rfl⟩⟩

/-- What any transaction does to the row. -/
theorem step_rowStep (db : RecoveryDb) (call : RecoveryCall) :
    RowStep call db.row (db.step fingerprint call).row := by
  cases call with
  | tick ms => exact .same _
  | editAccount account => exact .same _
  | editQuotas quotas => exact .same _
  | publish account generationCandidate cooldownMs reason =>
    exact publish_rowStep account generationCandidate cooldownMs reason
  | beginOperator input => exact beginOperator_rowStep input
  | beginAutomatic input => exact beginAutomatic_rowStep input
  | assignPending input => exact assignPending_rowStep input
  | issue input => exact issue_rowStep input
  | hydrateIssued input => exact .same _
  | outcome input => exact outcome_rowStep input
  | markUncertain input => exact markUncertain_rowStep input
  | settleIssued input => exact settleIssued_rowStep input
  | cancel generation => exact cancel_rowStep generation

/-- Only a tick moves the clock, and only an edit or an outcome the quota windows. -/
theorem step_frame (db : RecoveryDb) (call : RecoveryCall) :
    ((db.step fingerprint call).now = db.now ∨ ∃ ms, call = .tick ms) ∧
      ((db.step fingerprint call).quotas = db.quotas ∨ (∃ quotas, call = .editQuotas quotas) ∨
        ∃ input, call = .outcome input) := by
  cases call with
  | tick ms => exact ⟨.inr ⟨ms, rfl⟩, .inl rfl⟩
  | editAccount account => exact ⟨.inl rfl, .inl rfl⟩
  | editQuotas quotas => exact ⟨.inl rfl, .inr (.inl ⟨quotas, rfl⟩)⟩
  | hydrateIssued input => exact ⟨.inl rfl, .inl rfl⟩
  | publish | assignPending | issue | markUncertain | settleIssued | cancel =>
    simp only [RecoveryDb.step, publishAccountRecovery, assignPending, issue, markUncertain,
      settleIssuedForOwner, cancel]
    repeat' split
    all_goals exact ⟨.inl rfl, .inl rfl⟩
  | beginOperator input =>
    rw [RecoveryDb.step]
    rcases @beginOperator_cases fingerprint db input with hsame | ⟨account, closed, hopened⟩
    · exact ⟨.inl (by rw [hsame]), .inl (by rw [hsame])⟩
    · exact ⟨.inl (by rw [hopened]), .inl (by rw [hopened])⟩
  | beginAutomatic input =>
    have hresult := @beginAutomatic_result fingerprint db input
    rw [RecoveryDb.step]
    generalize beginAutomaticRecovery fingerprint db input = result at hresult ⊢
    cases hresult <;> exact ⟨.inl rfl, .inl rfl⟩
  | outcome input =>
    refine ⟨.inl ?_, .inr (.inr ⟨input, rfl⟩)⟩
    simp only [RecoveryDb.step, outcome]
    repeat' split
    all_goals rfl

/-- Every change to the row raises its revision, and the row stays. -/
theorem RowStep.revision_lt {call : RecoveryCall} {held : RecoveryRow} {after : Option RecoveryRow}
    (h : RowStep call (some held) after) (hchanged : after ≠ some held) :
    ∃ row, after = some row ∧ held.revision < row.revision := by
  cases h with
  | same => exact absurd rfl hchanged
  | amended hamends => exact ⟨_, rfl, by rw [hamends.revision_eq]; omega⟩
  | replaced _ hrevision _ => exact ⟨_, rfl, by rw [hrevision held rfl]; omega⟩

section Lives

/-- Two calls carry the same candidate only as tries of one automatic request: an operator's or a
published candidate is drawn for its one call. -/
def SameRequest (first second : RecoveryCall) : Prop :=
  ∀ candidate, first.candidate? = some candidate → second.candidate? = some candidate →
    ∃ i j, first = .beginAutomatic i ∧ second = .beginAutomatic j ∧
      i.expectedRecoveryRevision = j.expectedRecoveryRevision

/-- Every candidate is drawn afresh, and an automatic request keeps its candidate. -/
def Drawn (calls : List RecoveryCall) : Prop := calls.Pairwise SameRequest

/-- A later row is no younger, and within one generation an issued row keeps its owner and permit and a row that
ended stays as it ended. -/
structure Precedes (first second : RecoveryRow) : Prop where
  revision_le : first.revision ≤ second.revision
  issued : second.generation = first.generation → first.state = .issued → second.state ≠ .pending ∧
    second.ownerBootId = first.ownerBootId ∧ second.permitId = first.permitId
  ended : second.generation = first.generation → Terminal first.state → second.state = first.state

/-- A row precedes itself. -/
theorem Precedes.refl (row : RecoveryRow) : Precedes row row :=
  ⟨Nat.le_refl _, fun _ hissued => ⟨by simp [hissued], rfl, rfl⟩, fun _ _ => rfl⟩

/-- An amendment only moves forward. -/
theorem Precedes.amends {first before after : RecoveryRow} (h : Precedes first before)
    (hamends : Amends before after) : Precedes first after := by
  have hgeneration := hamends.generation_eq
  refine ⟨by rw [hamends.revision_eq]; exact Nat.le_succ_of_le h.revision_le, ?_, ?_⟩
  · intro hsame hfirst
    obtain ⟨hnot, howner, hpermit⟩ := h.issued (hgeneration ▸ hsame) hfirst
    have hissued : before.state = .issued := hamends.was_open.resolve_left hnot
    obtain ⟨hterminal, howner', hpermit'⟩ := hamends.issued hissued
    exact ⟨hterminal.1, howner'.trans howner, hpermit'.trans hpermit⟩
  · intro hsame hterminal
    have hbefore : before.state = first.state := h.ended (hgeneration ▸ hsame) hterminal
    rcases hamends.was_open with hpending | hissued
    · exact absurd (hbefore.symm.trans hpending) hterminal.1
    · exact absurd (hbefore.symm.trans hissued) hterminal.2

variable {start : RecoveryDb}

/-- One list of calls after another. -/
theorem run_append (calls later : List RecoveryCall) :
    start.run fingerprint (calls ++ later) = (start.run fingerprint calls).run fingerprint later :=
  runFrom_append ..

/-- One more call. -/
theorem run_concat (calls : List RecoveryCall) (call : RecoveryCall) :
    start.run fingerprint (calls ++ [call]) = (start.run fingerprint calls).step fingerprint call :=
  runFrom_append ..

/-- The row of a run was opened by one of its calls, and is younger than what that call expected. -/
theorem exists_origin (hstart : start.row = none) (calls : List RecoveryCall) {row : RecoveryRow}
    (hrow : (start.run fingerprint calls).row = some row) : ∃ call ∈ calls, call.candidate? = some row.generation ∧
      ∀ input revision, call = .beginAutomatic input → input.expectedRecoveryRevision = some revision →
        revision < row.revision := by
  induction calls using List.reverseRecOn generalizing row with
  | nil =>
    have hnone : start.row = some row := hrow
    rw [hstart] at hnone
    cases hnone
  | append_singleton calls call ih =>
    rw [run_concat] at hrow
    have hstep := @step_rowStep fingerprint (start.run fingerprint calls) call
    rw [hrow] at hstep
    generalize hbefore : (start.run fingerprint calls).row = before at hstep
    cases hstep with
    | same =>
      obtain ⟨origin, hmem, hrest⟩ := ih hbefore
      exact ⟨origin, List.mem_append_left _ hmem, hrest⟩
    | amended hamends =>
      obtain ⟨origin, hmem, hcandidate, hyounger⟩ := ih hbefore
      refine ⟨origin, List.mem_append_left _ hmem, hamends.generation_eq ▸ hcandidate, ?_⟩
      intro input revision hcall hexpected
      have := hyounger input revision hcall hexpected
      rw [hamends.revision_eq]
      omega
    | replaced hcandidate hrevision hexpected =>
      refine ⟨call, List.mem_append_right _ (List.mem_singleton_self _), hcandidate, ?_⟩
      intro input revision hcall hinput
      have hmap := (hexpected input hcall).symm.trans hinput
      obtain ⟨held, hheld, rfl⟩ := Option.map_eq_some_iff.mp hmap
      rw [hrevision held hheld]
      omega

/-- A row that replaces a later one is of a new generation: an earlier candidate comes back only as a retry, and the
revision it expects is past. -/
theorem replaced_generation_ne (hstart : start.row = none) {calls later : List RecoveryCall} {call : RecoveryCall}
    (hdrawn : Drawn (calls ++ later ++ [call])) {row held after : RecoveryRow}
    (hrow : (start.run fingerprint calls).row = some row) (hle : row.revision ≤ held.revision)
    (hcandidate : call.candidate? = some after.generation)
    (hexpected : ∀ input, call = .beginAutomatic input → input.expectedRecoveryRevision = some held.revision) :
    after.generation ≠ row.generation := by
  intro hsame
  obtain ⟨-, -, hlast⟩ := List.pairwise_append.mp hdrawn
  obtain ⟨origin, hmem, horigin, hyounger⟩ := exists_origin hstart calls hrow
  obtain ⟨i, j, hi, hj, hij⟩ := hlast origin (List.mem_append_left _ hmem) call
    (List.mem_singleton_self _) row.generation horigin (hsame ▸ hcandidate)
  have hpast := hyounger i held.revision hi (hij.trans (hexpected j hj))
  omega

/-- Along a run whose candidates are drawn afresh, a row precedes the rows that come later. -/
theorem run_precedes (hstart : start.row = none) {calls later : List RecoveryCall} (hdrawn : Drawn (calls ++ later))
    {row : RecoveryRow} (hrow : (start.run fingerprint calls).row = some row) :
    ∃ last, (start.run fingerprint (calls ++ later)).row = some last ∧ Precedes row last := by
  induction later using List.reverseRecOn with
  | nil => exact ⟨row, by rw [List.append_nil]; exact hrow, .refl row⟩
  | append_singleton later call ih =>
    rw [← List.append_assoc] at hdrawn ⊢
    obtain ⟨held, hheld, hprecedes⟩ := ih (List.pairwise_append.mp hdrawn).1
    rw [run_concat]
    have hstep := @step_rowStep fingerprint (start.run fingerprint (calls ++ later)) call
    rw [hheld] at hstep
    generalize ((start.run fingerprint (calls ++ later)).step fingerprint call).row = after at hstep ⊢
    cases hstep with
    | same => exact ⟨held, rfl, hprecedes⟩
    | amended hamends => exact ⟨_, rfl, hprecedes.amends hamends⟩
    | @replaced _ after hcandidate hrevision hexpected =>
      have hnew := replaced_generation_ne hstart hdrawn hrow hprecedes.revision_le hcandidate hexpected
      refine ⟨after, rfl, ?_, fun hsame => absurd hsame hnew, fun hsame => absurd hsame hnew⟩
      rw [hrevision held rfl]
      exact Nat.le_succ_of_le hprecedes.revision_le

end Lives

section Stale

/-- The account is not the one the caller saw. -/
def StaleAccount (db : RecoveryDb) (expected : AccountObservation) : Prop :=
  ∀ account, db.account = some account → account.lifecycleVersion ≠ expected.lifecycleVersion ∨
    account.authMaterial ≠ expected.authMaterial

/-- The row was opened for another account state than the caller saw. -/
def StaleCredential (fingerprint : Option String → String) (held : RecoveryRow)
    (expected : AccountObservation) : Prop :=
  held.lifecycleVersion ≠ expected.lifecycleVersion ∨ held.credentialFingerprint ≠ fingerprint expected.authMaterial

/-- Something the call carries to identify the row is not what the row or the account says. -/
def Stale (fingerprint : Option String → String) (db : RecoveryDb) : RecoveryCall → Prop
  | .assignPending input => ∀ held, db.row = some held → held.generation ≠ input.generation ∨
      held.ownershipEpoch ≠ input.expectedEpoch ∨ leasedElsewhere held input.ownerBootId db.now = true
  | .issue input => StaleAccount db input.expected ∨ ∀ held, db.row = some held →
      held.generation ≠ input.generation ∨ held.ownerBootId ≠ some input.ownerBootId ∨
      held.ownershipEpoch ≠ input.expectedEpoch ∨ StaleCredential fingerprint held input.expected ∨
      (held.state = .issued ∧ held.permitId ≠ some input.permitId)
  | .outcome input => StaleAccount db input.expected ∨ ∀ held, db.row = some held →
      held.generation ≠ input.generation ∨ held.permitId ≠ some input.permitId ∨
      held.ownerBootId ≠ some input.ownerBootId ∨ held.ownershipEpoch ≠ input.expectedEpoch ∨
      StaleCredential fingerprint held input.expected
  | .markUncertain input => ∀ held, db.row = some held → held.generation ≠ input.generation ∨
      held.permitId ≠ some input.permitId
  | .cancel generation => ∀ held, db.row = some held → held.generation ≠ generation
  | _ => False

/-- A row of the account as the caller saw it is not stale to the caller. -/
theorem not_staleCredential {account : RecoveryAccount} {held : RecoveryRow} {expected : AccountObservation}
    (hcurrent : held.current fingerprint account = true)
    (hversion : account.lifecycleVersion = expected.lifecycleVersion)
    (hmaterial : account.authMaterial = expected.authMaterial) : ¬ StaleCredential fingerprint held expected := by
  simp only [RecoveryRow.current, Bool.and_eq_true, beq_iff_eq] at hcurrent
  rintro (hne | hne)
  · exact hne (hcurrent.1.trans hversion)
  · exact hne (hmaterial ▸ hcurrent.2)

/-- A stale issue changes nothing. -/
theorem issue_eq_self_of_stale {input : IssueInput} (h : Stale fingerprint db (.issue input)) :
    (issue fingerprint db input).2 = db := by
  rcases @issue_cases fingerprint db input with
    hsame | ⟨account, held, haccount, hrow, hobserved, hgeneration, howner, hepoch, hcurrent, hpending, -⟩
  · exact hsame
  · simp only [observed, Bool.and_eq_true, beq_iff_eq] at hobserved
    obtain ⟨⟨hversion, hmaterial⟩, -⟩ := hobserved
    rcases h with haccountStale | hrowStale
    · rcases haccountStale account haccount with hne | hne
      · exact absurd hversion hne
      · exact absurd hmaterial hne
    · rcases hrowStale held hrow with hne | hne | hne | hne | ⟨hissued, -⟩
      · exact absurd hgeneration hne
      · exact absurd howner hne
      · exact absurd hepoch hne
      · exact absurd hne (not_staleCredential hcurrent hversion hmaterial)
      · simp [hpending] at hissued

/-- Nor does a stale outcome. -/
theorem outcome_eq_self_of_stale {input : OutcomeInput} (h : Stale fingerprint db (.outcome input)) :
    (outcome fingerprint db input).2 = db := by
  rcases @outcome_cases fingerprint db input with
    hsame | ⟨account, held, haccount, hrow, hversion, hmaterial, hgeneration, hpermit, howner, hepoch,
      hcurrent, -, -⟩
  · exact hsame
  · rcases h with haccountStale | hrowStale
    · rcases haccountStale account haccount with hne | hne
      · exact absurd hversion hne
      · exact absurd hmaterial hne
    · rcases hrowStale held hrow with hne | hne | hne | hne | hne
      · exact absurd hgeneration hne
      · exact absurd hpermit hne
      · exact absurd howner hne
      · exact absurd hepoch hne
      · exact absurd hne (not_staleCredential hcurrent hversion hmaterial)

/-- Nor does a stale assignment. -/
theorem assignPending_eq_self_of_stale {input : AssignInput}
    (h : Stale fingerprint db (.assignPending input)) : (assignPending db input).2 = db := by
  unfold assignPending
  split
  · rfl
  · split
    · next held _ hrow =>
      split
      · rfl
      · next hguard =>
        push Not at hguard
        split
        · rfl
        · next hlease =>
          rcases h held hrow with hne | hne | hleased
          · exact absurd hguard.2.1 hne
          · exact absurd hguard.2.2 hne
          · exact absurd hleased hlease
    · rfl

/-- Nor does a stale mark. -/
theorem markUncertain_eq_self_of_stale {input : UncertainInput}
    (h : Stale fingerprint db (.markUncertain input)) : (markUncertain db input).2 = db := by
  unfold markUncertain
  split
  · rfl
  · split
    · next held _ hrow =>
      have hguard : held.state ≠ .issued ∨ held.generation ≠ input.generation ∨
          held.permitId ≠ some input.permitId := .inr (h held hrow)
      rw [if_pos hguard]
    · rfl

/-- A stale call changes nothing. -/
theorem step_eq_self_of_stale {call : RecoveryCall} (h : Stale fingerprint db call) :
    db.step fingerprint call = db := by
  cases call with
  | assignPending input => exact assignPending_eq_self_of_stale h
  | issue input => exact issue_eq_self_of_stale h
  | outcome input => exact outcome_eq_self_of_stale h
  | markUncertain input => exact markUncertain_eq_self_of_stale h
  | cancel generation =>
    simp only [RecoveryDb.step, cancel]
    split
    · next held _ hrow => rw [if_pos (.inl (h held hrow))]
    · rfl
  | _ => exact h.elim

end Stale

section Repeats

/-- The calls an owner repeats when their answer is lost. -/
def Repeatable : RecoveryCall → Prop
  | .issue _ | .outcome _ => True
  | _ => False

/-- Where the generation a repeatable call names stands after it committed. -/
def Committed : RecoveryCall → RecoveryRow → Prop
  | .issue input, row => row.generation = input.generation ∧ row.state = .issued
  | .outcome input, row => row.generation = input.generation ∧ Terminal row.state
  | _, _ => False

/-- A repeatable call that changed the row committed. -/
theorem committed_of_changed {call : RecoveryCall} (hrepeatable : Repeatable call)
    (hchanged : (db.step fingerprint call).row ≠ db.row) :
    ∃ row, (db.step fingerprint call).row = some row ∧ Committed call row := by
  cases call with
  | issue input =>
    rcases @issue_cases fingerprint db input with
      hsame | ⟨-, held, -, -, -, hgeneration, -, -, -, -, hissued⟩
    · exact absurd (congrArg RecoveryDb.row hsame) hchanged
    · exact ⟨_, hissued, hgeneration, rfl⟩
  | outcome input =>
    rcases @outcome_cases fingerprint db input with
      hsame | ⟨_, held, -, -, -, -, hgeneration, -, -, -, -, -, hclosed⟩
    · exact absurd (congrArg RecoveryDb.row hsame) hchanged
    · exact ⟨_, congrArg RecoveryDb.row hclosed, hgeneration, terminal_verdict input.state⟩
  | _ => exact hrepeatable.elim

/-- Once it committed, a repeatable call changes no row that comes later. -/
theorem step_eq_self_of_committed {call : RecoveryCall} {row last : RecoveryRow} (hcommitted : Committed call row)
    (hprecedes : Precedes row last) (hlast : db.row = some last) : db.step fingerprint call = db := by
  cases call with
  | issue input =>
    obtain ⟨hgeneration, hissued⟩ := hcommitted
    rcases @issue_cases fingerprint db input with
      hsame | ⟨-, held, -, hrow, -, hheld, -, -, -, hpending, -⟩
    · exact hsame
    · obtain rfl := Option.some.inj (hlast.symm.trans hrow)
      exact absurd hpending (hprecedes.issued (hheld.trans hgeneration.symm) hissued).1
  | outcome input =>
    obtain ⟨hgeneration, hterminal⟩ := hcommitted
    rcases @outcome_cases fingerprint db input with
      hsame | ⟨-, held, -, hrow, -, -, hheld, -, -, -, -, hissued, -⟩
    · exact hsame
    · obtain rfl := Option.some.inj (hlast.symm.trans hrow)
      have hended := hprecedes.ended (hheld.trans hgeneration.symm) hterminal
      exact absurd (hended.symm.trans hissued) hterminal.2
  | _ => exact hcommitted.elim

end Repeats

/-- What the recovery rows of a run have in common. -/
structure OneLife (fingerprint : Option String → String) (start : RecoveryDb) (calls : List RecoveryCall) :
    Prop where
  /-- A generation is issued to one owner under one permit. -/
  issued_once : ∀ first second rest row last, calls = first ++ second ++ rest →
    (start.run fingerprint first).row = some row → (start.run fingerprint (first ++ second)).row = some last →
    last.generation = row.generation → row.state = .issued → last.state = .issued →
    last.ownerBootId = row.ownerBootId ∧ last.permitId = row.permitId
  /-- A generation ends in one terminal state. -/
  ended_once : ∀ first second rest row last, calls = first ++ second ++ rest →
    (start.run fingerprint first).row = some row → (start.run fingerprint (first ++ second)).row = some last →
    last.generation = row.generation → Terminal row.state → Terminal last.state → last.state = row.state
  /-- A change to the row raises its revision. -/
  revision_lt : ∀ first call rest row, calls = first ++ call :: rest →
    (start.run fingerprint first).row = some row →
    ((start.run fingerprint first).step fingerprint call).row ≠ some row →
    ∃ after, ((start.run fingerprint first).step fingerprint call).row = some after ∧ row.revision < after.revision
  /-- A stale call changes nothing. -/
  stale_same : ∀ first call rest, calls = first ++ call :: rest →
    Stale fingerprint (start.run fingerprint first) call →
    (start.run fingerprint first).step fingerprint call = start.run fingerprint first
  /-- A committed issue or outcome repeated later changes nothing. -/
  repeat_same : ∀ first call second rest, calls = first ++ call :: second ++ call :: rest → Repeatable call →
    ((start.run fingerprint first).step fingerprint call).row ≠ (start.run fingerprint first).row →
    (start.run fingerprint (first ++ call :: second)).step fingerprint call =
      start.run fingerprint (first ++ call :: second)

/-- Over every run from an account without a recovery row, each generation is issued once and ends
once, every change raises the revision, and stale and repeated calls change nothing. -/
theorem run_oneLife (fingerprint : Option String → String) (start : RecoveryDb) (hstart : start.row = none)
    (calls : List RecoveryCall) (hdrawn : Drawn calls) : OneLife fingerprint start calls where
  issued_once := by
    rintro first second rest row last rfl hrow hlast hsame hissued -
    obtain ⟨found, hfound, hprecedes⟩ := run_precedes hstart (List.pairwise_append.mp hdrawn).1 hrow
    obtain rfl := Option.some.inj (hlast.symm.trans hfound)
    exact (hprecedes.issued hsame hissued).2
  ended_once := by
    rintro first second rest row last rfl hrow hlast hsame hterminal -
    obtain ⟨found, hfound, hprecedes⟩ := run_precedes hstart (List.pairwise_append.mp hdrawn).1 hrow
    obtain rfl := Option.some.inj (hlast.symm.trans hfound)
    exact hprecedes.ended hsame hterminal
  revision_lt := by
    rintro first call rest row rfl hrow hchanged
    have hstep := @step_rowStep fingerprint (start.run fingerprint first) call
    rw [hrow] at hstep
    exact hstep.revision_lt hchanged
  stale_same := fun _ _ _ _ hstale => step_eq_self_of_stale hstale
  repeat_same := by
    rintro first call second rest rfl hrepeatable hchanged
    obtain ⟨row, hrow, hcommitted⟩ := committed_of_changed hrepeatable hchanged
    rw [← run_concat] at hrow
    have hsplit : first ++ call :: second = (first ++ [call]) ++ second := by simp
    rw [hsplit] at hdrawn ⊢
    obtain ⟨last, hlast, hprecedes⟩ := run_precedes hstart (List.pairwise_append.mp hdrawn).1 hrow
    exact step_eq_self_of_committed hcommitted hprecedes hlast

/-- The text a credential is fingerprinted by. -/
def fingerprintText : Option String → String
  | none => "null:"
  | some authMaterial => "cipher:" ++ authMaterial

/-- An active account without a recovery row. -/
def activeAccount : RecoveryDb where
  now := 0
  account := some { lifecycleVersion := 1, healthRecoveryVersion := 0, authMaterial := some "token",
                    status := .active, updatedAt := 0 }

def activeObservation : AccountObservation :=
  { lifecycleVersion := 1, authMaterial := some "token", status := .active }

def cooldownRequest : BeginAutomaticInput :=
  { generationCandidate := "g1", expected := activeObservation, expectedRecoveryRevision := none
    reason := .cooldownExpired, cooldownMs := 60000, maximumOutcomeAgeMs := 120000 }

def firstIssue : IssueInput :=
  { generation := "g1", expectedEpoch := 1, ownerBootId := "boot", permitId := "p1"
    expected := activeObservation }

def firstOutcome : OutcomeInput :=
  { generation := "g1", permitId := "p1", ownerBootId := "boot", expectedEpoch := 1
    expected := activeObservation, state := .succeeded, cooldownMs := 60000, quotaSpentThreshold := 1 }

/-- A permit's whole life, with every answer lost once. -/
def retriedLife : List RecoveryCall :=
  [.beginAutomatic cooldownRequest, .beginAutomatic cooldownRequest,
    .assignPending { generation := "g1", expectedEpoch := 0, ownerBootId := "boot", leaseMs := 30000 },
    .issue firstIssue, .issue firstIssue, .outcome firstOutcome, .outcome firstOutcome,
    .beginAutomatic cooldownRequest]

/-- A permit that is uncertain, retried, and then succeeds. -/
theorem run_oneLife_retried : activeAccount.row = none ∧ Drawn retriedLife ∧
    OneLife fingerprintText activeAccount retriedLife ∧
    (activeAccount.run fingerprintText retriedLife).row.map RecoveryRow.state = some .succeeded := by
  have hdrawn : Drawn retriedLife := by
    simp [Drawn, retriedLife, SameRequest, RecoveryCall.candidate?]
  exact ⟨rfl, hdrawn, run_oneLife fingerprintText activeAccount rfl retriedLife hdrawn, by decide +kernel⟩

end MultiAiRouter.Recovery
