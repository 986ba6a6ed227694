import MultiAiRouter.Recovery.Coordinator
import MultiAiRouter.Recovery.PermitLife

/-!
# Sweeping the permits of a boot

Only an issue puts a permit on a row, and no other boot issues under this boot's identity, so once the
boot has stopped issuing its permits only become fewer.
-/

namespace MultiAiRouter.Recovery

open Common Routing

variable {fingerprint : Option String → String} {config : CoordinatorConfig}

section Rows

variable {db : RecoveryDb}

/-- A row that a transaction leaves issued was there, or the transaction issued it to its owner. -/
theorem step_issued {call : RecoveryCall} {row : RecoveryRow}
    (hrow : (db.step fingerprint call).row = some row) (hissued : row.state = .issued) :
    db.row = some row ∨ ∃ input, call = .issue input ∧ row.ownerBootId = some input.ownerBootId := by
  have hkept (h : db.step fingerprint call = db) : db.row = some row := by rw [← h]; exact hrow
  -- Every other amendment leaves a state that is not issued.
  have hamended {after : RecoveryRow} (hafter : (db.step fingerprint call).row = some after)
      (hstate : after.state ≠ .issued) : db.row = some row := by
    obtain rfl := Option.some.inj (hafter.symm.trans hrow)
    exact absurd hissued hstate
  cases call with
  | tick ms => exact .inl hrow
  | editAccount account => exact .inl hrow
  | editQuotas quotas => exact .inl hrow
  | hydrateIssued input => exact .inl hrow
  | publish account generationCandidate cooldownMs reason =>
    simp only [RecoveryDb.step, publishAccountRecovery] at hrow
    split at hrow
    · exact .inl hrow
    · cases hrow
      cases hissued
  | beginOperator input =>
    rcases @beginOperator_cases fingerprint db input with hsame | ⟨account, closed, hopened⟩
    · exact .inl (hkept hsame)
    · refine .inl (hamended (congrArg RecoveryDb.row hopened) ?_)
      cases closed <;> simp [replaceGeneration]
  | beginAutomatic input =>
    have hresult := @beginAutomatic_result fingerprint db input
    rw [RecoveryDb.step] at hrow
    generalize beginAutomaticRecovery fingerprint db input = result at hresult hrow
    cases hresult with
    | kept hanswer => exact .inl hrow
    | fenced hheld hopen =>
      cases hrow
      simp only [fenceRow] at hissued
      split at hissued <;> cases hissued
    | opened hexpected hclosed =>
      cases hrow
      cases hissued
  | assignPending input =>
    rcases @assignPending_cases db input with hsame | ⟨held, _, hpending, hassigned⟩
    · exact .inl (hkept hsame)
    · exact .inl (hamended hassigned (by simp [hpending]))
  | issue input =>
    rcases @issue_cases fingerprint db input with hsame | ⟨_, held, _, _, _, _, howner, _, _, _, hgranted⟩
    · exact .inl (hkept hsame)
    · obtain rfl := Option.some.inj (hgranted.symm.trans hrow)
      exact .inr ⟨input, rfl, howner⟩
  | outcome input =>
    rcases @outcome_cases fingerprint db input with hsame | ⟨_, held, _, _, _, _, _, _, _, _, _, _, hclosed⟩
    · exact .inl (hkept hsame)
    · exact .inl (hamended (congrArg RecoveryDb.row hclosed) (terminal_verdict input.state).2)
  | markUncertain input =>
    rcases @markUncertain_cases db input with hsame | ⟨held, _, _, _, _, _, hmarked⟩
    · exact .inl (hkept hsame)
    · exact .inl (hamended hmarked (by simp))
  | settleIssued input =>
    rcases @settleIssued_cases db input with hsame | ⟨held, _, _, _, _, hsettled⟩
    · exact .inl (hkept hsame)
    · exact .inl (hamended hsettled (by simp))
  | cancel generation =>
    rcases @cancel_cases db generation with hsame | ⟨held, _, _, _, hcancelled⟩
    · exact .inl (hkept hsame)
    · exact .inl (hamended hcancelled (by simp))

/-- A permit of the boot that was not issued by the transaction is as it was. -/
theorem IssuedTo.of_step {bootId : String} {call : RecoveryCall} (h : IssuedTo bootId (db.step fingerprint call))
    (hcall : ∀ input, call = .issue input → input.ownerBootId ≠ bootId) :
    IssuedTo bootId db ∧ (db.step fingerprint call).row = db.row := by
  obtain ⟨row, hrow, hissued, howner⟩ := h
  rcases step_issued hrow hissued with hheld | ⟨input, rfl, hinput⟩
  · exact ⟨⟨row, hheld, hissued, howner⟩, hrow.trans hheld.symm⟩
  · exact absurd (Option.some.inj (hinput.symm.trans howner)) (hcall input rfl)

/-- A recovery row references its account. -/
def Referenced (db : RecoveryDb) : Prop := db.row.isSome → db.account.isSome

/-- Without the account no transaction touches the row. -/
theorem step_of_no_account (haccount : db.account = none) (call : RecoveryCall) :
    (db.step fingerprint call).account = none ∧ (db.step fingerprint call).row = db.row := by
  cases call <;>
    simp [RecoveryDb.step, publishAccountRecovery, beginOperatorRecovery, beginAutomaticRecovery, assignPending,
      issue, outcome, markUncertain, settleIssuedForOwner, cancel, haccount, apply_ite Prod.snd]

theorem assignPending_account (input : AssignInput) : (assignPending db input).2.account = db.account := by
  unfold assignPending
  grind

theorem issue_account (input : IssueInput) : (issue fingerprint db input).2.account = db.account := by
  unfold issue
  grind

theorem markUncertain_account (input : UncertainInput) : (markUncertain db input).2.account = db.account := by
  unfold markUncertain
  grind

theorem settleIssued_account (input : SettleInput) : (settleIssuedForOwner db input).2.account = db.account := by
  unfold settleIssuedForOwner
  grind

theorem cancel_account (generation : String) : (cancel db generation).2.account = db.account := by
  unfold cancel
  grind

/-- No transaction loses the account. -/
theorem step_account_isSome (haccount : db.account.isSome) (call : RecoveryCall) :
    (db.step fingerprint call).account.isSome := by
  cases call with
  | tick ms => exact haccount
  | editQuotas quotas => exact haccount
  | hydrateIssued input => exact haccount
  | editAccount account => simpa [RecoveryDb.step] using haccount
  | publish account generationCandidate cooldownMs reason =>
    simp only [RecoveryDb.step, publishAccountRecovery]
    split
    · exact haccount
    · rfl
  | beginOperator input =>
    rcases @beginOperator_cases fingerprint db input with hsame | ⟨account, closed, hopened⟩
    · rwa [RecoveryDb.step, hsame]
    · rw [RecoveryDb.step, hopened]
      rfl
  | beginAutomatic input =>
    have hresult := @beginAutomatic_result fingerprint db input
    rw [RecoveryDb.step]
    generalize beginAutomaticRecovery fingerprint db input = result at hresult ⊢
    cases hresult <;> exact haccount
  | assignPending input => rwa [RecoveryDb.step, assignPending_account]
  | issue input => rwa [RecoveryDb.step, issue_account]
  | outcome input =>
    rcases @outcome_cases fingerprint db input with hsame | ⟨_, _, _, _, _, _, _, _, _, _, _, _, hclosed⟩
    · rwa [RecoveryDb.step, hsame]
    · rwa [RecoveryDb.step, hclosed]
  | markUncertain input => rwa [RecoveryDb.step, markUncertain_account]
  | settleIssued input => rwa [RecoveryDb.step, settleIssued_account]
  | cancel generation => rwa [RecoveryDb.step, cancel_account]

/-- Every row keeps its account. -/
theorem Referenced.step (h : Referenced db) (call : RecoveryCall) : Referenced (db.step fingerprint call) := by
  intro hrow
  by_cases haccount : db.account.isSome
  · exact step_account_isSome haccount call
  · rw [(step_of_no_account (by simpa using haccount) call).2] at hrow
    exact absurd (h hrow) haccount

/-- The sweep's transaction on a permit of the boot that is still there. -/
theorem settle_issued (hreferenced : Referenced db) {row : RecoveryRow} (hrow : db.row = some row)
    (hissued : row.state = .issued) (howner : row.ownerBootId = some config.bootId) (accountId : String) :
    ∃ settled, callAnswer fingerprint db (settleCall config accountId row.permitId).call = some settled ∧
      (db.step fingerprint (settleCall config accountId row.permitId).call).row = some settled ∧
      settled.state = .uncertain := by
  obtain ⟨account, haccount⟩ := Option.isSome_iff_exists.mp (hreferenced (by simp [hrow]))
  simp [callAnswer, settleCall, RecoveryDb.step, settleIssuedForOwner, config.cooldown_valid, haccount, hrow,
    hissued, howner, Except.toOption]

/-- Nothing is left issued to the boot where the sweep found the permit it noted. -/
theorem settle_clears (hreferenced : Referenced db) {permitId : Option String}
    (hpermit : db.row.bind RecoveryRow.permitId = permitId) (accountId : String) :
    ¬ IssuedTo config.bootId (db.step fingerprint (settleCall config accountId permitId).call) := by
  intro hafter
  obtain ⟨⟨row, hrow, hissued, howner⟩, hsame⟩ := hafter.of_step (by simp [settleCall])
  obtain rfl : row.permitId = permitId := by simpa [hrow] using hpermit
  obtain ⟨settled, -, hsettled, hstate⟩ :=
    @settle_issued fingerprint config db hreferenced row hrow hissued howner accountId
  obtain rfl := Option.some.inj (hrow.symm.trans (hsame.symm.trans hsettled))
  simp [hissued] at hstate

end Rows

section Sweep

/-- Every permit of the boot is among the rows yet to settle. -/
def Covers (config : CoordinatorConfig) (db : String → RecoveryDb) (rest : List (String × Option String)) : Prop :=
  ∀ accountId, IssuedTo config.bootId (db accountId) →
    (accountId, (db accountId).row.bind RecoveryRow.permitId) ∈ rest

/-- All of a full batch was settled so far, and the rest is as it was selected. -/
structure FullBatch (config : CoordinatorConfig) (db : String → RecoveryDb) (rest : List (String × Option String))
    (settled : ℕ) : Prop where
  counted : settled + rest.length = config.batchSize
  nodup : (rest.map Prod.fst).Nodup
  issued : ∀ entry ∈ rest, IssuedTo config.bootId (db entry.1) ∧
    (db entry.1).row.bind RecoveryRow.permitId = entry.2

/-- A sweep that strands nothing: its batch names all that is left, or is full and undisturbed. -/
def Sweeps (config : CoordinatorConfig) (db : String → RecoveryDb) (rest : List (String × Option String))
    (selected settled : ℕ) : Prop :=
  selected < config.batchSize ∧ Covers config db rest ∨ selected = config.batchSize ∧ FullBatch config db rest settled

variable {db : String → RecoveryDb} {rest : List (String × Option String)} {selected settled : ℕ}

/-- The rows of an account after its transaction, the other accounts as they were. -/
def committed (fingerprint : Option String → String) (db : String → RecoveryDb) (call : AccountCall) :
    String → RecoveryDb :=
  Function.update db call.accountId ((db call.accountId).step fingerprint call.call)

theorem committed_self (call : AccountCall) :
    committed fingerprint db call call.accountId = (db call.accountId).step fingerprint call.call :=
  Function.update_self ..

theorem committed_of_ne {call : AccountCall} {accountId : String} (h : accountId ≠ call.accountId) :
    committed fingerprint db call accountId = db accountId := Function.update_of_ne h ..

/-- References stay. -/
theorem Referenced.committed (h : ∀ accountId, Referenced (db accountId)) (call : AccountCall) (accountId : String) :
    Referenced (committed fingerprint db call accountId) := by
  by_cases hsame : accountId = call.accountId
  · subst hsame
    rw [committed_self]
    exact (h call.accountId).step call.call
  · rw [committed_of_ne hsame]
    exact h accountId

/-- A permit of the boot after a transaction that did not issue one to it was there before. -/
theorem IssuedTo.of_committed {call : AccountCall} {accountId : String}
    (hcall : ∀ input, call.call = .issue input → input.ownerBootId ≠ config.bootId)
    (h : IssuedTo config.bootId (Recovery.committed fingerprint db call accountId)) :
    IssuedTo config.bootId (db accountId) ∧
      (Recovery.committed fingerprint db call accountId).row = (db accountId).row := by
  by_cases hsame : accountId = call.accountId
  · subst hsame
    rw [committed_self] at h ⊢
    exact h.of_step hcall
  · rw [committed_of_ne hsame] at h ⊢
    exact ⟨h, rfl⟩

/-- Another transaction leaves a batch that names everything so. -/
theorem Covers.committed (h : Covers config db rest) {call : AccountCall}
    (hcall : ∀ input, call.call = .issue input → input.ownerBootId ≠ config.bootId) :
    Covers config (Recovery.committed fingerprint db call) rest := by
  intro accountId hissued
  obtain ⟨hbefore, hrow⟩ := hissued.of_committed hcall
  rw [hrow]
  exact h accountId hbefore

/-- A transaction that leaves the rows of a full batch alone leaves it so. -/
theorem FullBatch.committed (h : FullBatch config db rest settled) {call : AccountCall}
    (hcall : call.accountId ∈ rest.map Prod.fst →
      ((db call.accountId).step fingerprint call.call).row = (db call.accountId).row) :
    FullBatch config (Recovery.committed fingerprint db call) rest settled where
  counted := h.counted
  nodup := h.nodup
  issued := by
    intro entry hentry
    have hrow : (Recovery.committed fingerprint db call entry.1).row = (db entry.1).row := by
      by_cases hsame : entry.1 = call.accountId
      · rw [hsame, committed_self]
        exact hcall (hsame ▸ List.mem_map_of_mem hentry)
      · rw [committed_of_ne hsame]
    rw [IssuedTo, hrow]
    exact h.issued entry hentry

/-- Settling the next row of a batch that names everything. -/
theorem Covers.settle (hreferenced : ∀ accountId, Referenced (db accountId)) {accountId : String}
    {permitId : Option String} (h : Covers config db ((accountId, permitId) :: rest)) :
    Covers config (Recovery.committed fingerprint db (settleCall config accountId permitId)) rest := by
  intro other hissued
  obtain ⟨hbefore, hrow⟩ := hissued.of_committed (by simp [settleCall])
  rw [hrow]
  rcases List.mem_cons.mp (h other hbefore) with heq | hmem
  · obtain ⟨rfl, hpermit⟩ := Prod.mk.inj heq
    have hself : Recovery.committed fingerprint db (settleCall config other permitId) other = _ :=
      committed_self (settleCall config other permitId)
    rw [hself] at hissued
    exact absurd hissued (settle_clears (hreferenced other) hpermit other)
  · exact hmem

/-- Settling the next row of a full batch. -/
theorem FullBatch.settle (hreferenced : ∀ accountId, Referenced (db accountId)) {accountId : String}
    {permitId : Option String} (h : FullBatch config db ((accountId, permitId) :: rest) settled) :
    (callAnswer fingerprint (db accountId) (settleCall config accountId permitId).call).isSome ∧
      FullBatch config (Recovery.committed fingerprint db (settleCall config accountId permitId)) rest
      (settled + 1) := by
  obtain ⟨⟨row, hrow, hissued, howner⟩, hpermit⟩ := h.issued _ (List.mem_cons_self ..)
  obtain rfl : row.permitId = permitId := by simpa [hrow] using hpermit
  obtain ⟨answer, hanswer, -, -⟩ :=
    @settle_issued fingerprint config _ (hreferenced accountId) row hrow hissued howner accountId
  have hnodup := List.nodup_cons.mp h.nodup
  have hrest : FullBatch config db rest (settled + 1) :=
    ⟨by rw [← h.counted, List.length_cons]; omega, hnodup.2, fun entry hentry => h.issued entry (.tail _ hentry)⟩
  exact ⟨by rw [hanswer]; rfl, hrest.committed fun hmem => absurd hmem hnodup.1⟩

/-- A fresh selection names everything, or fills a batch. -/
theorem SelectAnswer.sweeps {chosen : List String} (h : SelectAnswer config db chosen) :
    Sweeps config db (chosen.map fun accountId => (accountId, (db accountId).row.bind RecoveryRow.permitId))
      chosen.length 0 := by
  rcases h.length_le.lt_or_eq with hpart | hfull
  · refine .inl ⟨hpart, ?_⟩
    intro accountId hissued
    exact List.mem_map.mpr ⟨accountId, h.complete hpart accountId hissued, rfl⟩
  · refine .inr ⟨hfull, by simp [hfull], ?_, ?_⟩
    · simpa [Function.comp_def] using h.nodup
    · intro entry hentry
      obtain ⟨accountId, hmem, rfl⟩ := List.mem_map.mp hentry
      exact ⟨h.issued accountId hmem, rfl⟩

/-- At the end of a sweep that does not go on, nothing is left. -/
theorem Sweeps.cleared (h : Sweeps config db [] selected settled)
    (hshort : settled ≠ config.batchSize) (accountId : String) : ¬ IssuedTo config.bootId (db accountId) := by
  intro hissued
  rcases h with ⟨-, hcovers⟩ | ⟨-, hbatch⟩
  · exact List.not_mem_nil (hcovers accountId hissued)
  · exact hshort (by simpa using hbatch.counted)

end Sweep

end MultiAiRouter.Recovery
