import MultiAiRouter.Recovery.PermitLife

/-!
# A permit's successor waits for the call on the wire

The next permit is issued once the boot has answered, an operator has stepped in, or the longest time an outcome may
take has passed. While a permit is out, the row holds it or bars the next automatic generation.

A cancelled permit keeps its generation's cooldown.
-/

namespace MultiAiRouter.Recovery

open Common Routing

variable (fingerprint : Option String → String)

/-- The call issues a permit. -/
def Issues (db : RecoveryDb) (input : IssueInput) : Prop :=
  (issue fingerprint db input).2.row ≠ db.row

/-- The permit's own boot records an outcome for it, or settles it. -/
def SettlesPermit (permit : IssueInput) (db : RecoveryDb) : RecoveryCall → Prop
  | .outcome input => input.permitId = permit.permitId ∧ input.ownerBootId = permit.ownerBootId ∧
      (outcome fingerprint db input).2.row ≠ db.row
  | .settleIssued input => input.permitId = some permit.permitId ∧
      input.ownerBootId = permit.ownerBootId ∧ (settleIssuedForOwner db input).2.row ≠ db.row
  | _ => False

/-- An operator recovery begins. -/
def OperatorBegins (db : RecoveryDb) : RecoveryCall → Prop
  | .beginOperator input => (beginOperatorRecovery fingerprint db input).2.row ≠ db.row
  | _ => False

/-- The permit was answered for by its boot, or an operator recovery began. -/
def Answered (permit : IssueInput) (db : RecoveryDb) (calls : List RecoveryCall) : Prop :=
  SomeStep (RecoveryDb.step fingerprint) (SettlesPermit fingerprint permit) db calls ∨
    SomeStep (RecoveryDb.step fingerprint) (OperatorBegins fingerprint) db calls

/-- Between the issue of a permit and the next issue in an automatic generation the permit was
answered for, or the longest time its outcome may take has passed. -/
def SuccessorWaits (age : Int) (start : RecoveryDb) (calls : List RecoveryCall) : Prop :=
  ∀ first permit middle next rest, calls = first ++ RecoveryCall.issue permit ::
  (middle ++ RecoveryCall.issue next :: rest) →
    Issues fingerprint (start.run fingerprint first) permit →
    Issues fingerprint (start.run fingerprint (first ++ RecoveryCall.issue permit :: middle)) next →
    (start.run fingerprint (first ++ RecoveryCall.issue permit :: middle)).row.map RecoveryRow.reason ≠
      some .operatorRecheck →
    Answered fingerprint permit (start.run fingerprint (first ++ [RecoveryCall.issue permit])) middle ∨
      (start.run fingerprint first).now + age ≤
        (start.run fingerprint (first ++ RecoveryCall.issue permit :: middle)).now

/-- One bound on an outcome's age is used throughout. -/
def OneAge (age : Int) (call : RecoveryCall) : Prop :=
  (∀ input, call = .beginAutomatic input → input.maximumOutcomeAgeMs = age) ∧
    ∀ input, call = .markUncertain input → input.maximumOutcomeAgeMs = age

/-- A call that closes the row without an answer bars a new generation until the bound. -/
def CoversBound (bound : Int) (db : RecoveryDb) : RecoveryCall → Prop
  | .publish _ _ cooldownMs _ => bound ≤ max db.now (db.now + cooldownMs)
  | .cancel generation => ∀ held, db.row = some held → held.generation = generation →
      held.state = .issued → bound ≤ max db.now held.nextAllowedAt
  | _ => True

/-- While a permit is unanswered, no cancel and no published generation ends its bound early. -/
def BoundsCovered (age : Int) (start : RecoveryDb) (calls : List RecoveryCall) : Prop :=
  ∀ first permit middle call rest, calls = first ++ .issue permit :: (middle ++ call :: rest) →
    Issues fingerprint (start.run fingerprint first) permit →
    ¬ Answered fingerprint permit (start.run fingerprint (first ++ [.issue permit])) middle →
    CoversBound ((start.run fingerprint first).now + age)
      (start.run fingerprint (first ++ .issue permit :: middle)) call

variable {fingerprint} {db : RecoveryDb} {permit : IssueInput} {issuedAt age : Int}

/-- The row still holds the permit. -/
structure InForce (permit : IssueInput) (issuedAt : Int) (row : RecoveryRow) : Prop where
  issued : row.state = .issued
  permit_eq : row.permitId = some permit.permitId
  owner_eq : row.ownerBootId = some permit.ownerBootId
  issuedAt_eq : row.issuedAt = some issuedAt

/-- No successor before the bound: it has passed, the row holds the permit, or the row is closed and
bars a new generation until then. -/
def Waiting (permit : IssueInput) (issuedAt age : Int) (db : RecoveryDb) : Prop :=
  issuedAt + age ≤ db.now ∨ ∃ row, db.row = some row ∧
    (InForce permit issuedAt row ∨ Terminal row.state ∧ issuedAt + age ≤ row.nextAllowedAt)

/-- The clock never goes back. -/
theorem now_le_step (call : RecoveryCall) : db.now ≤ (db.step fingerprint call).now := by
  rcases (@step_frame fingerprint db call).1 with hsame | ⟨ms, rfl⟩
  · exact hsame.ge
  · simp only [RecoveryDb.step]
    omega

section Terminal

variable {held : RecoveryRow} (hrow : db.row = some held) (hterminal : Terminal held.state)

include hrow hterminal

/-- An automatic generation replaces a closed row only once its cooldown has passed. -/
theorem beginAutomatic_of_terminal (input : BeginAutomaticInput) :
    (beginAutomaticRecovery fingerprint db input).2.row = some held ∨ held.nextAllowedAt ≤ db.now := by
  have hresult := @beginAutomatic_result fingerprint db input
  generalize beginAutomaticRecovery fingerprint db input = result at hresult ⊢
  cases hresult with
  | kept => exact .inl hrow
  | fenced hfound hopen =>
    obtain rfl := Option.some.inj (hrow.symm.trans hfound)
    simp [RecoveryRow.isOpen, hterminal.1, hterminal.2] at hopen
  | opened _ hclosed => exact .inr (hclosed held hrow).2

/-- A call that opens no generation leaves a closed row. -/
theorem step_row_of_terminal {call : RecoveryCall} (hcandidate : call.candidate? = none) :
    (db.step fingerprint call).row = some held := by
  have hstep := @step_rowStep fingerprint db call
  rw [hrow] at hstep
  generalize (db.step fingerprint call).row = after at hstep ⊢
  cases hstep with
  | same => rfl
  | amended hamends =>
    rcases hamends.was_open with hpending | hissued
    · exact absurd hpending hterminal.1
    · exact absurd hissued hterminal.2
  | replaced hopened =>
    rw [hcandidate] at hopened
    cases hopened

end Terminal

/-- A published generation is closed, and bars the next one for its cooldown. -/
theorem publish_row (account : RecoveryAccount) (generationCandidate : String) (cooldownMs : Int)
    (reason : RecoveryReason) :
    (db.step fingerprint (.publish account generationCandidate cooldownMs reason)).row = db.row ∨
      ∃ row, (db.step fingerprint (.publish account generationCandidate cooldownMs reason)).row = some row ∧
        Terminal row.state ∧ row.nextAllowedAt = db.now + cooldownMs := by
  simp only [RecoveryDb.step, publishAccountRecovery]
  split
  · exact .inl rfl
  · exact .inr ⟨_, rfl, ⟨by simp [replaceGeneration], by simp [replaceGeneration]⟩, rfl⟩

/-- A row that holds the permit stays, or the permit is answered for, or its bound has passed, or the row is closed
and bars a new generation until the bound. -/
theorem InForce.step {held : RecoveryRow} (hrow : db.row = some held) (h : InForce permit issuedAt held)
    {call : RecoveryCall} (hage : OneAge age call) (hcovers : CoversBound (issuedAt + age) db call)
    (hsettles : ¬ SettlesPermit fingerprint permit db call) (hoperator : ¬ OperatorBegins fingerprint db call) :
    issuedAt + age ≤ db.now ∨ ∃ row, (db.step fingerprint call).row = some row ∧
      (row = held ∨ Terminal row.state ∧ issuedAt + age ≤ row.nextAllowedAt) := by
  have hstays (hsame : (db.step fingerprint call).row = db.row) :
      issuedAt + age ≤ db.now ∨ ∃ row, (db.step fingerprint call).row = some row ∧
        (row = held ∨ Terminal row.state ∧ issuedAt + age ≤ row.nextAllowedAt) :=
    .inr ⟨held, hsame.trans hrow, .inl rfl⟩
  have hopen : held.isOpen = true := by simp [RecoveryRow.isOpen, h.issued]
  cases call with
  | tick ms => exact hstays rfl
  | editAccount account => exact hstays rfl
  | editQuotas quotas => exact hstays rfl
  | hydrateIssued input => exact hstays rfl
  | publish account generationCandidate cooldownMs reason =>
    rcases @publish_row fingerprint db account generationCandidate cooldownMs reason with
      hsame | ⟨row, hafter, hclosed, hnext⟩
    · exact hstays hsame
    · rcases le_max_iff.mp hcovers with hpassed | hbarred
      · exact .inl hpassed
      · exact .inr ⟨row, hafter, .inr ⟨hclosed, hnext ▸ hbarred⟩⟩
  | beginOperator input => exact hstays (Decidable.not_not.mp hoperator)
  | beginAutomatic input =>
    have hresult := @beginAutomatic_result fingerprint db input
    rw [RecoveryDb.step] at hstays ⊢
    generalize beginAutomaticRecovery fingerprint db input = result at hresult hstays ⊢
    cases hresult with
    | kept => exact hstays rfl
    | fenced hfound =>
      obtain rfl := Option.some.inj (hrow.symm.trans hfound)
      refine .inr ⟨_, rfl, .inr ⟨((fenceRow_amends hopen _ _).issued h.issued).1, ?_⟩⟩
      simp only [fenceRow, h.issued, h.issuedAt_eq, hage.1 input rfl]
      exact le_max_right _ _
    | opened _ hclosed => simp [(hclosed held hrow).1] at hopen
  | assignPending input =>
    rcases @assignPending_cases db input with hsame | ⟨found, hfound, hpending, -⟩
    · exact hstays (congrArg RecoveryDb.row hsame)
    · obtain rfl := Option.some.inj (hrow.symm.trans hfound)
      simp [h.issued] at hpending
  | issue input =>
    rcases @issue_cases fingerprint db input with hsame | ⟨-, found, -, hfound, -, -, -, -, -, hpending, -⟩
    · exact hstays (congrArg RecoveryDb.row hsame)
    · obtain rfl := Option.some.inj (hrow.symm.trans hfound)
      simp [h.issued] at hpending
  | outcome input =>
    refine hstays (Decidable.byContradiction fun hchanged => hsettles ?_)
    rcases @outcome_cases fingerprint db input with
      hsame | ⟨-, found, -, hfound, -, -, -, hpermit, howner, -, -, -, -⟩
    · exact absurd (congrArg RecoveryDb.row hsame) hchanged
    · obtain rfl := Option.some.inj (hrow.symm.trans hfound)
      exact ⟨Option.some.inj (hpermit.symm.trans h.permit_eq),
        Option.some.inj (howner.symm.trans h.owner_eq), hchanged⟩
  | markUncertain input =>
    rcases @markUncertain_cases db input with hsame | ⟨found, since, hfound, -, hsince, hoverdue, -⟩
    · exact hstays (congrArg RecoveryDb.row hsame)
    · obtain rfl := Option.some.inj (hrow.symm.trans hfound)
      obtain rfl := Option.some.inj (h.issuedAt_eq.symm.trans hsince)
      rw [hage.2 input rfl] at hoverdue
      exact .inl (by omega)
  | settleIssued input =>
    refine hstays (Decidable.byContradiction fun hchanged => hsettles ?_)
    rcases @settleIssued_cases db input with hsame | ⟨found, hfound, -, howner, hpermit, -⟩
    · exact absurd (congrArg RecoveryDb.row hsame) hchanged
    · obtain rfl := Option.some.inj (hrow.symm.trans hfound)
      exact ⟨hpermit.symm.trans h.permit_eq, Option.some.inj (howner.symm.trans h.owner_eq), hchanged⟩
  | cancel generation =>
    rcases @cancel_cases db generation with hsame | ⟨found, hfound, hgeneration, -, hcancelled⟩
    · exact hstays (congrArg RecoveryDb.row hsame)
    · obtain rfl := Option.some.inj (hrow.symm.trans hfound)
      rcases le_max_iff.mp (hcovers held hrow hgeneration h.issued) with hpassed | hbarred
      · exact .inl hpassed
      · exact .inr ⟨_, hcancelled, .inr ⟨⟨by simp, by simp⟩, hbarred⟩⟩

/-- A step that answers nothing keeps the successor waiting. -/
theorem Waiting.step (h : Waiting permit issuedAt age db) {call : RecoveryCall} (hage : OneAge age call)
    (hcovers : CoversBound (issuedAt + age) db call) (hsettles : ¬ SettlesPermit fingerprint permit db call)
    (hoperator : ¬ OperatorBegins fingerprint db call) :
    Waiting permit issuedAt age (db.step fingerprint call) := by
  have hclock := @now_le_step fingerprint db call
  rcases h with hpassed | ⟨held, hrow, hforce | ⟨hterminal, hbarred⟩⟩
  · exact .inl (hpassed.trans hclock)
  · rcases hforce.step hrow hage hcovers hsettles hoperator with hpassed | ⟨row, hafter, rfl | hclosed⟩
    · exact .inl (hpassed.trans hclock)
    · exact .inr ⟨row, hafter, .inl hforce⟩
    · exact .inr ⟨row, hafter, .inr hclosed⟩
  · have hstays (hsame : (db.step fingerprint call).row = some held) :
        Waiting permit issuedAt age (db.step fingerprint call) :=
      .inr ⟨held, hsame, .inr ⟨hterminal, hbarred⟩⟩
    cases call with
    | publish account generationCandidate cooldownMs reason =>
      rcases @publish_row fingerprint db account generationCandidate cooldownMs reason with
        hsame | ⟨row, hafter, hclosed, hnext⟩
      · exact hstays (hsame.trans hrow)
      · rcases le_max_iff.mp hcovers with hpassed | hlonger
        · exact .inl (hpassed.trans hclock)
        · exact .inr ⟨row, hafter, .inr ⟨hclosed, hnext ▸ hlonger⟩⟩
    | beginOperator input => exact hstays ((Decidable.not_not.mp hoperator).trans hrow)
    | beginAutomatic input =>
      rcases @beginAutomatic_of_terminal fingerprint db held hrow hterminal input with hsame | hallowed
      · exact hstays hsame
      · exact .inl ((hbarred.trans hallowed).trans hclock)
    | _ => exact hstays (step_row_of_terminal hrow hterminal rfl)

/-- A permit just issued keeps its successor waiting. -/
theorem waiting_of_issues {input : IssueInput} (h : Issues fingerprint db input) :
    Waiting input db.now age (db.step fingerprint (.issue input)) := by
  rcases @issue_cases fingerprint db input with
    hsame | ⟨-, held, -, -, -, -, howner, -, -, -, hissued⟩
  · exact absurd (congrArg RecoveryDb.row hsame) h
  · exact .inr ⟨_, hissued, .inl ⟨rfl, rfl, howner, rfl⟩⟩

variable {start : RecoveryDb}

/-- Over the calls after an issue, an unanswered permit keeps its successor waiting. -/
theorem Waiting.run (h : Waiting permit issuedAt age db) (calls : List RecoveryCall)
    (hage : ∀ call ∈ calls, OneAge age call)
    (hcovers : ∀ middle call rest, calls = middle ++ call :: rest → ¬ Answered fingerprint permit db middle →
      CoversBound (issuedAt + age) (db.run fingerprint middle) call)
    (hunanswered : ¬ Answered fingerprint permit db calls) :
    Waiting permit issuedAt age (db.run fingerprint calls) := by
  induction calls using List.reverseRecOn with
  | nil => exact h
  | append_singleton calls call ih =>
    simp only [Answered, someStep_append, SomeStep, not_or] at hunanswered
    obtain ⟨⟨hsettled, hsettles, -⟩, hbegun, hoperator, -⟩ := hunanswered
    have hbefore : ¬ Answered fingerprint permit db calls := not_or.mpr ⟨hsettled, hbegun⟩
    rw [run_concat]
    refine (ih (fun other hmem => hage other (List.mem_append_left _ hmem)) ?_ hbefore).step
      (hage call (by simp)) (hcovers calls call [] rfl hbefore) hsettles hoperator
    intro middle other rest heq
    exact hcovers middle other (rest ++ [call]) (by rw [heq]; simp)

/-- Over every run whose cancels and published generations end no unanswered permit's bound early,
a permit's successor waits for the call on the wire. -/
theorem run_successor_waits (fingerprint : Option String → String) (age : Int) (start : RecoveryDb)
    (calls : List RecoveryCall) (hage : ∀ call ∈ calls, OneAge age call)
    (hcovered : BoundsCovered fingerprint age start calls) : SuccessorWaits fingerprint age start calls := by
  rintro first permit middle next rest rfl hissues hnext -
  by_cases hanswered : Answered fingerprint permit (start.run fingerprint (first ++ [.issue permit])) middle
  · exact .inl hanswered
  have hsplit (later : List RecoveryCall) : start.run fingerprint (first ++ .issue permit :: later) =
      (start.run fingerprint (first ++ [.issue permit])).run fingerprint later := by
    rw [← run_append]
    simp
  have hwaiting : Waiting permit (start.run fingerprint first).now age
      (start.run fingerprint (first ++ .issue permit :: middle)) := by
    rw [hsplit]
    refine Waiting.run ?_ middle (fun call hmem => hage call (by simp [hmem])) ?_ hanswered
    · rw [run_concat]
      exact waiting_of_issues hissues
    · intro before call after heq hbefore
      rw [← hsplit]
      exact hcovered first permit before call (after ++ .issue next :: rest) (by simp [heq]) hissues hbefore
  rcases hwaiting with hpassed | ⟨row, hrow, hheld⟩
  · exact .inr hpassed
  -- The next issue finds a pending row, and neither the permit's row nor a closed one is pending.
  · rcases @issue_cases fingerprint (start.run fingerprint (first ++ .issue permit :: middle)) next with
      hsame | ⟨-, found, -, hfound, -, -, -, -, -, hpending, -⟩
    · exact absurd (congrArg RecoveryDb.row hsame) hnext
    · obtain rfl := Option.some.inj (hrow.symm.trans hfound)
      rcases hheld with hforce | ⟨hterminal, -⟩
      · simp [hforce.issued] at hpending
      · exact absurd hpending hterminal.1

/-- A request under the default cooldown and bound. -/
def defaultRequest (generationCandidate : String) (lifecycleVersion : ℕ) (revision : Option ℕ) :
    BeginAutomaticInput :=
  { generationCandidate, expected := { activeObservation with lifecycleVersion }
    expectedRecoveryRevision := revision, reason := .cooldownExpired, cooldownMs := 30000
    maximumOutcomeAgeMs := 600000 }

def bootIssue (generation permitId : String) (lifecycleVersion : ℕ) : IssueInput :=
  { generation, expectedEpoch := 1, ownerBootId := "boot", permitId
    expected := { activeObservation with lifecycleVersion } }

def bootAssign (generation : String) : AssignInput :=
  { generation, expectedEpoch := 0, ownerBootId := "boot", leaseMs := 30000 }

/-- The account as a completed login leaves it. -/
def reconnectedAccount : RecoveryAccount :=
  { lifecycleVersion := 2, healthRecoveryVersion := 0, authMaterial := some "token", status := .active
    updatedAt := 0 }

/-- A permit is issued, and the next automatic request finds the account moved on and fences it. -/
def fencedLife : List RecoveryCall :=
  [.beginAutomatic (defaultRequest "g1" 1 none), .assignPending (bootAssign "g1"),
    .issue (bootIssue "g1" "p1" 1), .editAccount reconnectedAccount,
    .beginAutomatic (defaultRequest "g2" 2 none), .tick 600000,
    .beginAutomatic (defaultRequest "g2" 2 (some 3)), .assignPending (bootAssign "g2"),
    .issue (bootIssue "g2" "p2" 2)]

/-- A life whose permit is fenced. -/
theorem run_successor_waits_fenced : (∀ call ∈ fencedLife, OneAge 600000 call) ∧
    BoundsCovered fingerprintText 600000 activeAccount fencedLife ∧
    SuccessorWaits fingerprintText 600000 activeAccount fencedLife ∧
    (activeAccount.run fingerprintText fencedLife).row.bind RecoveryRow.permitId = some "p2" := by
  have hage : ∀ call ∈ fencedLife, OneAge 600000 call := by
    simp [fencedLife, OneAge, defaultRequest]
  have hcovered : BoundsCovered fingerprintText 600000 activeAccount fencedLife := by
    intro first permit middle call rest heq _ _
    have hmem : call ∈ fencedLife := by
      rw [heq]
      simp
    simp only [fencedLife, List.mem_cons, List.not_mem_nil, or_false] at hmem
    rcases hmem with rfl | rfl | rfl | rfl | rfl | rfl | rfl | rfl | rfl <;> trivial
  exact ⟨hage, hcovered, run_successor_waits fingerprintText 600000 activeAccount fencedLife hage hcovered,
    by decide +kernel⟩

/-- A permit is issued, a completed login publishes a settled generation, and its cooldown is all
the next automatic generation waits for. -/
def reconnectedLife : List RecoveryCall :=
  [.beginAutomatic (defaultRequest "g1" 1 none), .assignPending (bootAssign "g1"),
    .issue (bootIssue "g1" "p1" 1), .publish reconnectedAccount "g2" 30000 .authenticationRecovered,
    .tick 30000, .beginAutomatic (defaultRequest "g3" 2 (some 3)), .assignPending (bootAssign "g3"),
    .issue (bootIssue "g3" "p2" 2)]

/-- The second permit is issued half a minute after the first, whose call may run for ten. -/
theorem run_successor_early : (∀ call ∈ reconnectedLife, OneAge 600000 call) ∧
    ¬ SuccessorWaits fingerprintText 600000 activeAccount reconnectedLife := by
  refine ⟨by simp [reconnectedLife, OneAge, defaultRequest], fun hwaits => ?_⟩
  rcases hwaits (reconnectedLife.take 2) (bootIssue "g1" "p1" 1) ((reconnectedLife.drop 3).take 4)
    (bootIssue "g3" "p2" 2) [] rfl (by unfold Issues; decide +kernel) (by unfold Issues; decide +kernel)
    (by decide +kernel) with (hsettled | hbegun) | hpassed
  · simp [reconnectedLife, SomeStep, SettlesPermit] at hsettled
  · simp [reconnectedLife, SomeStep, OperatorBegins] at hbegun
  · exact absurd hpassed (by decide +kernel)

end MultiAiRouter.Recovery
