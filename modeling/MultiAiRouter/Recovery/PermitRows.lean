import MultiAiRouter.Recovery.PermitLife

/-!
# A permit is on one issued row

A permit is drawn for the issue of one generation. The row it is issued on stays as it is until the
generation ends, and the generation does not come back, so a permit is always read with one
generation and revision.
-/

namespace MultiAiRouter.Recovery

open Common Routing

variable {fingerprint : Option String → String} {db start : RecoveryDb}

/-- Two issues carry the same permit only for the same generation. -/
def PermitsDrawn (calls : List RecoveryCall) : Prop :=
  ∀ first second, RecoveryCall.issue first ∈ calls → RecoveryCall.issue second ∈ calls →
    first.permitId = second.permitId → first.generation = second.generation

theorem PermitsDrawn.of_append {first second : List RecoveryCall} (h : PermitsDrawn (first ++ second)) :
    PermitsDrawn first := fun i j hi hj =>
  h i j (List.mem_append_left _ hi) (List.mem_append_left _ hj)

/-- The row carried this permit before, within the same generation. -/
def CarriedPermit (permitId : String) (row : RecoveryRow) (before : Option RecoveryRow) : Prop :=
  ∃ held, before = some held ∧ held.permitId = some permitId ∧ held.generation = row.generation

/-- A permit on the row was there before within the same generation, or this call issued it. -/
theorem step_permit {call : RecoveryCall} {row : RecoveryRow} {permitId : String}
    (hrow : (db.step fingerprint call).row = some row) (hpermit : row.permitId = some permitId) :
    CarriedPermit permitId row db.row ∨
      ∃ input, call = .issue input ∧ input.permitId = permitId ∧ input.generation = row.generation := by
  have hkept (h : db.step fingerprint call = db) : CarriedPermit permitId row db.row :=
    ⟨row, by rw [← h]; exact hrow, hpermit, rfl⟩
  -- A row amended within its generation under the permit it had.
  have hamended {held after : RecoveryRow} (hheld : db.row = some held)
      (hafter : (db.step fingerprint call).row = some after) (hsame : after.permitId = held.permitId)
      (hgeneration : after.generation = held.generation) : CarriedPermit permitId row db.row := by
    obtain rfl := Option.some.inj (hafter.symm.trans hrow)
    exact ⟨held, hheld, hsame ▸ hpermit, hgeneration.symm⟩
  cases call with
  | tick ms => exact .inl ⟨row, hrow, hpermit, rfl⟩
  | editAccount account => exact .inl ⟨row, hrow, hpermit, rfl⟩
  | editQuotas quotas => exact .inl ⟨row, hrow, hpermit, rfl⟩
  | hydrateIssued input => exact .inl ⟨row, hrow, hpermit, rfl⟩
  | publish account generationCandidate cooldownMs reason =>
    simp only [RecoveryDb.step, publishAccountRecovery] at hrow
    split at hrow
    · exact .inl ⟨row, hrow, hpermit, rfl⟩
    · cases hrow
      cases hpermit
  | beginOperator input =>
    rcases @beginOperator_cases fingerprint db input with hsame | ⟨account, closed, hopened⟩
    · exact .inl (hkept hsame)
    · rw [RecoveryDb.step, hopened] at hrow
      cases hrow
      cases hpermit
  | beginAutomatic input =>
    have hresult := @beginAutomatic_result fingerprint db input
    rw [RecoveryDb.step] at hrow
    generalize beginAutomaticRecovery fingerprint db input = result at hresult hrow
    cases hresult with
    | kept hanswer => exact .inl ⟨row, hrow, hpermit, rfl⟩
    | fenced hheld hopen =>
      cases hrow
      exact .inl ⟨_, hheld, hpermit, rfl⟩
    | opened hexpected hclosed =>
      cases hrow
      cases hpermit
  | assignPending input =>
    rcases @assignPending_cases db input with hsame | ⟨held, hheld, _, hassigned⟩
    · exact .inl (hkept hsame)
    · exact .inl (hamended hheld hassigned rfl rfl)
  | issue input =>
    rcases @issue_cases fingerprint db input with
      hsame | ⟨_, held, _, hheld, _, hgeneration, _, _, _, _, hissued⟩
    · exact .inl (hkept hsame)
    · obtain rfl := Option.some.inj (hissued.symm.trans hrow)
      exact .inr ⟨input, rfl, Option.some.inj hpermit, hgeneration.symm⟩
  | outcome input =>
    rcases @outcome_cases fingerprint db input with hsame | ⟨_, held, _, hheld, _, _, _, _, _, _, _, _, hclosed⟩
    · exact .inl (hkept hsame)
    · exact .inl (hamended hheld (congrArg RecoveryDb.row hclosed) rfl rfl)
  | markUncertain input =>
    rcases @markUncertain_cases db input with hsame | ⟨held, _, hheld, _, _, _, hmarked⟩
    · exact .inl (hkept hsame)
    · exact .inl (hamended hheld hmarked rfl rfl)
  | settleIssued input =>
    rcases @settleIssued_cases db input with hsame | ⟨held, hheld, _, _, _, hsettled⟩
    · exact .inl (hkept hsame)
    · exact .inl (hamended hheld hsettled rfl rfl)
  | cancel generation =>
    rcases @cancel_cases db generation with hsame | ⟨held, hheld, _, _, hcancelled⟩
    · exact .inl (hkept hsame)
    · exact .inl (hamended hheld hcancelled rfl rfl)

/-- The permit of a run's row was drawn by an issue of its generation. -/
theorem exists_issue (hstart : start.row = none) (calls : List RecoveryCall) {row : RecoveryRow} {permitId : String}
    (hrow : (start.run fingerprint calls).row = some row) (hpermit : row.permitId = some permitId) :
    ∃ input, RecoveryCall.issue input ∈ calls ∧ input.permitId = permitId ∧ input.generation = row.generation := by
  induction calls using List.reverseRecOn generalizing row with
  | nil =>
    have hnone : start.row = some row := hrow
    simp [hstart] at hnone
  | append_singleton calls call ih =>
    rw [run_concat] at hrow
    rcases step_permit hrow hpermit with ⟨held, hheld, hsame, hgeneration⟩ | ⟨input, rfl, hissued, hgeneration⟩
    · obtain ⟨input, hmem, hissued, hnamed⟩ := ih hheld hsame
      exact ⟨input, List.mem_append_left _ hmem, hissued, hnamed.trans hgeneration⟩
    · exact ⟨input, List.mem_append_right _ (List.mem_singleton_self _), hissued, hgeneration⟩

/-- An issued row that comes later within its generation is the row itself. -/
theorem run_issued_row (hstart : start.row = none) {calls later : List RecoveryCall}
    (hdrawn : Drawn (calls ++ later)) {row last : RecoveryRow} (hrow : (start.run fingerprint calls).row = some row)
    (hissued : row.state = .issued) (hlast : (start.run fingerprint (calls ++ later)).row = some last)
    (hsame : last.generation = row.generation) (hstill : last.state = .issued) : last = row := by
  induction later using List.reverseRecOn generalizing last with
  | nil =>
    rw [List.append_nil] at hlast
    exact Option.some.inj (hlast.symm.trans hrow)
  | append_singleton later call ih =>
    rw [← List.append_assoc] at hdrawn hlast
    have hbefore := (List.pairwise_append.mp hdrawn).1
    obtain ⟨held, hheld, hprecedes⟩ := run_precedes hstart hbefore hrow
    rw [run_concat] at hlast
    have hstep := @step_rowStep fingerprint (start.run fingerprint (calls ++ later)) call
    rw [hheld, hlast] at hstep
    cases hstep with
    | same => exact ih hbefore hheld hsame hstill
    | amended hamends =>
      have hnot := (hprecedes.issued (hamends.generation_eq ▸ hsame) hissued).1
      exact absurd hstill (hamends.issued (hamends.was_open.resolve_left hnot)).1.2
    | replaced hcandidate hrevision hexpected =>
      exact absurd hsame (replaced_generation_ne hstart hdrawn hrow hprecedes.revision_le hcandidate hexpected)

/-- The row with this permit was issued in this state of the run, or an earlier one. -/
def IssuedRow (fingerprint : Option String → String) (start : RecoveryDb) (calls : List RecoveryCall)
    (permitId : String) (row : RecoveryRow) : Prop :=
  ∃ first rest, calls = first ++ rest ∧ (start.run fingerprint first).row = some row ∧ row.state = .issued ∧
    row.permitId = some permitId

/-- An issued row stays issued. -/
theorem IssuedRow.append {calls : List RecoveryCall} {permitId : String} {row : RecoveryRow}
    (h : IssuedRow fingerprint start calls permitId row) (later : List RecoveryCall) :
    IssuedRow fingerprint start (calls ++ later) permitId row := by
  obtain ⟨first, rest, rfl, hrow, hissued, hpermit⟩ := h
  exact ⟨first, rest ++ later, List.append_assoc .., hrow, hissued, hpermit⟩

/-- Along a run a permit is on one issued row. -/
theorem IssuedRow.unique (hstart : start.row = none) {calls : List RecoveryCall} (hdrawn : Drawn calls)
    (hpermits : PermitsDrawn calls) {permitId : String} {row other : RecoveryRow}
    (h : IssuedRow fingerprint start calls permitId row) (hother : IssuedRow fingerprint start calls permitId other) :
    row = other := by
  obtain ⟨first, rest, hfirst, hrow, hissued, hpermit⟩ := h
  obtain ⟨second, rest', hsecond, hrow', hissued', hpermit'⟩ := hother
  have hgeneration : row.generation = other.generation := by
    obtain ⟨input, hmem, hdraw, hnamed⟩ := exists_issue hstart first hrow hpermit
    obtain ⟨input', hmem', hdraw', hnamed'⟩ := exists_issue hstart second hrow' hpermit'
    rw [← hnamed, ← hnamed']
    refine hpermits input input' ?_ ?_ (hdraw.trans hdraw'.symm)
    · exact hfirst ▸ List.mem_append_left _ hmem
    · exact hsecond ▸ List.mem_append_left _ hmem'
  rcases List.append_eq_append_iff.mp (hfirst.symm.trans hsecond) with ⟨between, rfl, hrest⟩ | ⟨between, rfl, hrest⟩
  · have hdrawn' : Drawn (first ++ between) := by
      rw [hsecond] at hdrawn
      exact (List.pairwise_append.mp hdrawn).1
    exact (run_issued_row hstart hdrawn' hrow hissued hrow' hgeneration.symm hissued').symm
  · have hdrawn' : Drawn (second ++ between) := by
      rw [hfirst] at hdrawn
      exact (List.pairwise_append.mp hdrawn).1
    exact run_issued_row hstart hdrawn' hrow' hissued' hrow hgeneration hissued

end MultiAiRouter.Recovery
