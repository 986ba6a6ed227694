import MultiAiRouter.Dataplane.RecoveryProcess

/-!
# A spent permit does not come back

An event leaves the installed capability, spends it, or replaces it under a larger revision by one hydrated from an
issued row. An attempt passes its guard by spending it, so every permit spent before is of a smaller revision.
-/

namespace MultiAiRouter.Dataplane

open Common Routing Recovery

section Held

/-- The installed capability is left, or spent. -/
inductive Spends (held : Option HeldCapability) : Option HeldCapability → Prop
  | kept : Spends held held
  | spent {installed : HeldCapability} (hheld : held = some installed) :
      Spends held (some { installed with consumed := true })

/-- What can happen to the installed capability: it is left or spent, or replaced by a later one. -/
inductive HeldStep (held : Option HeldCapability) : Option HeldCapability → Prop
  | spends {next : Option HeldCapability} (h : Spends held next) : HeldStep held next
  | replaced {capability : RecoveryCapability}
      (hlater : ∀ installed, held = some installed → installed.capability.revision < capability.revision) :
      HeldStep held (some { capability, consumed := false })

/-- The permit of this capability was left behind: a larger revision is installed, or it is spent. -/
def Spent (held : Option HeldCapability) (capability : RecoveryCapability) : Prop :=
  ∃ installed, held = some installed ∧ (capability.revision < installed.capability.revision ∨
    (capability.revision = installed.capability.revision ∧ installed.consumed = true))

variable {held next : Option HeldCapability} {current : Option CurrentRecoveryFacts}

/-- A permit that was left behind stays so. -/
theorem Spent.step {capability : RecoveryCapability} (h : Spent held capability) (hstep : HeldStep held next) :
    Spent next capability := by
  obtain ⟨installed, hheld, hspent⟩ := h
  cases hstep with
  | spends h =>
    cases h with
    | kept => exact ⟨installed, hheld, hspent⟩
    | spent hinstalled =>
      obtain rfl := Option.some.inj (hheld.symm.trans hinstalled)
      exact ⟨_, rfl, hspent.imp_right fun hsame => ⟨hsame.1, rfl⟩⟩
  | replaced hlater =>
    have := hlater installed hheld
    exact ⟨_, rfl, .inl (by dsimp only; omega)⟩

/-- Spending keeps the capability. -/
theorem Spends.capability {installed : HeldCapability} (h : Spends held next) (hnext : next = some installed) :
    ∃ before, held = some before ∧ before.capability = installed.capability := by
  cases h with
  | kept => exact ⟨installed, hnext, rfl⟩
  | spent hheld =>
    cases hnext
    exact ⟨_, hheld, rfl⟩

theorem invalidate_spends : Spends held (invalidateCapability held) := by
  cases held with
  | none => exact .kept
  | some installed => exact .spent rfl

/-- An outcome spends its capability. -/
theorem completed_spends (generation permitId : String) :
    Spends held (completedCapability held generation permitId) := by
  cases held with
  | none => exact .kept
  | some installed =>
    simp only [completedCapability, Option.map_some]
    split
    · exact .spent rfl
    · exact .kept

theorem retire_spends (generation : String) : Spends held (retireCapability current held generation) := by
  unfold retireCapability
  split
  · exact invalidate_spends
  · exact .kept

/-- An installation leaves what is installed, or replaces it by a later revision. -/
theorem install_heldStep (bootId : String) (capability : RecoveryCapability) :
    HeldStep held (installCapability current held bootId capability).2 ∧
      ∀ installed, (installCapability current held bootId capability).2 = some installed →
        held = some installed ∨ installed.capability = capability := by
  unfold installCapability
  split
  · exact ⟨.spends .kept, fun _ h => .inl h⟩
  · split
    · refine ⟨.replaced nofun, ?_⟩
      rintro installed ⟨rfl⟩
      exact .inr rfl
    · next installed =>
      split
      · exact ⟨.spends .kept, fun _ h => .inl h⟩
      · next hnotOlder =>
        split
        · exact ⟨.spends .kept, fun _ h => .inl h⟩
        · split
          · exact ⟨.spends .kept, fun _ h => .inl h⟩
          · next hdistinct =>
            refine ⟨.replaced ?_, ?_⟩
            · rintro found ⟨rfl⟩
              omega
            · rintro found ⟨rfl⟩
              exact .inr rfl

/-- A consumption leaves what is installed, or spends it while it is unspent and current. -/
theorem consume_cases (generation : String) : consumeCapability current held generation = (none, held) ∨
      ∃ installed, held = some installed ∧ installed.consumed = false ∧
        installed.capability.isCurrent current = true ∧
        consumeCapability current held generation =
          (some installed.capability, some { installed with consumed := true }) := by
  unfold consumeCapability
  split
  · exact .inl rfl
  · next installed =>
    split
    · exact .inl rfl
    · next hguard =>
      simp only [Bool.or_eq_true, not_or, Bool.not_eq_true, Bool.not_eq_false'] at hguard
      exact .inr ⟨installed, rfl, hguard.1.1, hguard.2, rfl⟩

/-- The guard leaves the capability and the attempt's permit, or the attempt without one, or spends the
unspent capability for it. -/
theorem beforeUpstreamStart_cases (attempt : RecoveryAttempt) (catalog : Option RoutableAccount)
    (held : Option HeldCapability) (health : AccountHealthState) (now : Instant) (threshold : Rat) :
    ((beforeUpstreamStart attempt catalog held health now threshold).2 = held ∧
        ((beforeUpstreamStart attempt catalog held health now threshold).1.consumed = attempt.consumed ∨
          (beforeUpstreamStart attempt catalog held health now threshold).1.consumed = none)) ∨
      ∃ installed, held = some installed ∧ installed.consumed = false ∧
        installed.capability.isCurrent (readCurrent catalog) = true ∧
        (beforeUpstreamStart attempt catalog held health now threshold).1.consumed = some installed.capability ∧
        (beforeUpstreamStart attempt catalog held health now threshold).2 =
          some { installed with consumed := true } := by
  unfold beforeUpstreamStart
  split
  · exact .inl ⟨rfl, .inl rfl⟩
  · split
    · exact .inl ⟨rfl, .inl rfl⟩
    · split
      · exact .inl ⟨rfl, .inr rfl⟩
      · next generation _ =>
        rcases @consume_cases held (readCurrent catalog) generation with
          hnone | ⟨installed, hheld, hunspent, hcurrent, hspent⟩
        · rw [hnone]
          exact .inl ⟨rfl, .inr rfl⟩
        · rw [hspent]
          exact .inr ⟨installed, hheld, hunspent, hcurrent, rfl, rfl⟩

/-- The guard spends it or leaves it. -/
theorem beforeUpstreamStart_spends (attempt : RecoveryAttempt) (catalog : Option RoutableAccount)
    (held : Option HeldCapability) (health : AccountHealthState) (now : Instant) (threshold : Rat) :
    Spends held (beforeUpstreamStart attempt catalog held health now threshold).2 := by
  rcases beforeUpstreamStart_cases attempt catalog held health now threshold with
    ⟨hkept, _⟩ | ⟨installed, hheld, _, _, _, hspent⟩
  · rw [hkept]
    exact .kept
  · rw [hspent]
    exact .spent hheld

/-- A current capability is what the catalog shows. -/
theorem isCurrent_iff {capability : RecoveryCapability} {catalog : Option RoutableAccount} :
    capability.isCurrent (readCurrent catalog) = true ↔ ∃ account recovery, catalog = some account ∧
      account.snapshot.recovery = some recovery ∧ recovery.state = .issued ∧
      (account.snapshot.status = .active ∨ account.snapshot.status = .coolingDown) ∧
      recovery.generation = capability.generation ∧ recovery.revision = capability.revision ∧
      account.lifecycleVersion = capability.expected.lifecycleVersion ∧
      account.authMaterial = capability.expected.authMaterial := by
  unfold RecoveryCapability.isCurrent readCurrent
  cases catalog with
  | none => simp
  | some account =>
    cases hrecovery : account.snapshot.recovery with
    | none => simp [hrecovery]
    | some recovery =>
      by_cases hissued : recovery.state = .issued
      · simp [hissued, hrecovery, and_assoc]
      · simp [hissued, hrecovery]

end Held

section Events

variable {fingerprint : Option String → String} {config : RecoveryProcessConfig} {start : RecoveryDb}

/-- The capability was read off an issued row of the run. -/
def Genuine (fingerprint : Option String → String) (start : RecoveryDb) (calls : List RecoveryCall)
    (capability : RecoveryCapability) : Prop :=
  ∃ row, IssuedRow fingerprint start calls capability.permitId row ∧ row.revision = capability.revision

/-- A genuine capability stays genuine. -/
theorem Genuine.append {calls : List RecoveryCall} {capability : RecoveryCapability}
    (h : Genuine fingerprint start calls capability) (later : List RecoveryCall) :
    Genuine fingerprint start (calls ++ later) capability := by
  obtain ⟨row, hrow, hrevision⟩ := h
  exact ⟨row, hrow.append later, hrevision⟩

/-- One permit, one revision. -/
theorem Genuine.revision_eq (hstart : start.row = none) {calls : List RecoveryCall} (hdrawn : Drawn calls)
    (hpermits : PermitsDrawn calls) {first second : RecoveryCapability}
    (hfirst : Genuine fingerprint start calls first) (hsecond : Genuine fingerprint start calls second)
    (hsame : first.permitId = second.permitId) : first.revision = second.revision := by
  obtain ⟨row, hrow, hrevision⟩ := hfirst
  obtain ⟨other, hother, hrevision'⟩ := hsecond
  rw [hsame] at hrow
  obtain rfl := hrow.unique hstart hdrawn hpermits hother
  exact hrevision.symm.trans hrevision'

/-- What the database hydrates is the issued row it holds, with the permit asked for. -/
theorem hydrateIssued_some {db : RecoveryDb} {input : HydrateInput} {row : RecoveryRow}
    (h : hydrateIssued fingerprint db input = .ok (some row)) :
    db.row = some row ∧ row.state = .issued ∧ row.permitId = some input.permitId := by
  unfold hydrateIssued at h
  split at h
  · cases h
  · split at h
    · next account held _ hrow =>
      split at h
      · cases h
      · split at h
        · cases h
        · next hguard =>
          push Not at hguard
          split at h
          · split at h
            · cases h
              exact ⟨hrow, hguard.1, hguard.2.2.1⟩
            · cases h
          · cases h
    · cases h

/-- The capabilities that wait to be installed, or are. -/
def RecoveryProcess.Known (process : RecoveryProcess) (capability : RecoveryCapability) : Prop :=
  (∃ exposure ∈ process.exposures, exposure.stage = .reconciling capability) ∨
    ∃ installed, process.held = some installed ∧ installed.capability = capability

variable {process : RecoveryProcess} {event : RecoveryEvent}

/-- A stage that is set is the only one that changes. -/
theorem mem_setStage {index : ℕ} {exposure other : Exposure} {stage : ExposureStage}
    (h : other ∈ (process.setStage index exposure stage).exposures) :
    other ∈ process.exposures ∨ other = { exposure with stage } := List.mem_or_eq_of_mem_set h

/-- Every event but an installation leaves the installed capability or spends it. -/
theorem step_spends (hevent : ∀ index coherent, event ≠ .reconciled index coherent) :
    Spends process.held (process.step fingerprint config event).held := by
  cases event with
  | reconciled index coherent => exact absurd rfl (hevent index coherent)
  | invalidate => exact invalidate_spends
  | retire generation => exact retire_spends generation
  | completed generation permitId => exact completed_spends generation permitId
  | outcomeWritten outcome => exact retire_spends outcome.generation
  | expose row =>
    simp only [RecoveryProcess.step, RecoveryProcess.expose]
    split
    · exact .kept
    · split <;> exact .kept
  | findById index =>
    simp only [RecoveryProcess.step, RecoveryProcess.findById]
    repeat' split
    all_goals exact .kept
  | hydrate index =>
    simp only [RecoveryProcess.step, RecoveryProcess.hydrate]
    repeat' split
    all_goals exact .kept
  | beforeUpstreamStart index now quotaSpentThreshold =>
    simp only [RecoveryProcess.step, RecoveryProcess.guardAttempt]
    split
    · exact beforeUpstreamStart_spends ..
    · exact .kept
  | finish index state =>
    simp only [RecoveryProcess.step, RecoveryProcess.finish]
    split
    · split
      · exact .kept
      · exact completed_spends ..
    · exact .kept
  | _ => exact .kept

/-- An installation leaves the installed capability, or replaces it by a later one that was hydrated. -/
theorem reconciled_held (index : ℕ) (coherent : Bool) :
    HeldStep process.held (process.reconciled config index coherent).held ∧
      ∀ installed, (process.reconciled config index coherent).held = some installed →
        process.held = some installed ∨ ∃ exposure ∈ process.exposures,
          exposure.stage = .reconciling installed.capability := by
  unfold RecoveryProcess.reconciled
  split
  · next exposure hexposure =>
    split
    · next capability hstage =>
      have hmem := List.mem_of_getElem? hexposure
      have hinstall := @install_heldStep process.held (readCurrent process.catalog) config.bootId capability
      dsimp only
      split
      · exact ⟨.spends .kept, fun _ h => .inl h⟩
      · split
        · refine ⟨hinstall.1, fun installed h => (hinstall.2 installed h).imp_right ?_⟩
          rintro rfl
          exact ⟨exposure, hmem, hstage⟩
        · refine ⟨hinstall.1, fun installed h => (hinstall.2 installed h).imp_right ?_⟩
          rintro rfl
          exact ⟨exposure, hmem, hstage⟩
    · exact ⟨.spends .kept, fun _ h => .inl h⟩
  · exact ⟨.spends .kept, fun _ h => .inl h⟩

/-- What an event does to the installed capability. -/
theorem step_held (fingerprint : Option String → String) (config : RecoveryProcessConfig) (process : RecoveryProcess)
    (event : RecoveryEvent) : HeldStep process.held (process.step fingerprint config event).held := by
  by_cases hevent : ∃ index coherent, event = .reconciled index coherent
  · obtain ⟨index, coherent, rfl⟩ := hevent
    exact (reconciled_held index coherent).1
  · exact .spends (step_spends fun index coherent h => hevent ⟨index, coherent, h⟩)

/-- An exposure that waits for its installation after an event did so before, or was just hydrated. -/
theorem step_exposures {exposure : Exposure} {capability : RecoveryCapability}
    (h : exposure ∈ (process.step fingerprint config event).exposures)
    (hstage : exposure.stage = .reconciling capability) :
    (∃ before ∈ process.exposures, before.stage = .reconciling capability) ∨
      ∃ row, process.db.row = some row ∧ row.state = .issued ∧ row.permitId = some capability.permitId ∧
        row.revision = capability.revision := by
  have hkept (h : exposure ∈ process.exposures) : ∃ before ∈ process.exposures,
      before.stage = .reconciling capability := ⟨exposure, h, hstage⟩
  -- The stage that was set is another one.
  have hset {index : ℕ} {other : Exposure} {stage : ExposureStage}
      (h : exposure ∈ (process.setStage index other stage).exposures) (hother : stage ≠ .reconciling capability) :
      ∃ before ∈ process.exposures, before.stage = .reconciling capability := by
    rcases mem_setStage h with hmem | rfl
    · exact hkept hmem
    · exact absurd hstage hother
  cases event with
  | expose row =>
    simp only [RecoveryProcess.step, RecoveryProcess.expose] at h
    split at h
    · exact .inl (hkept h)
    · split at h
      · exact .inl (hkept h)
      · rcases List.mem_append.mp h with hmem | hnew
        · exact .inl (hkept hmem)
        · obtain rfl := List.mem_singleton.mp hnew
          cases hstage
  | findById index =>
    simp only [RecoveryProcess.step, RecoveryProcess.findById] at h
    split at h
    · split at h
      · split at h
        · split at h
          · exact .inl (hset h (by simp))
          · exact .inl (hset h (by simp))
        · exact .inl (hset h (by simp))
      · exact .inl (hkept h)
    · exact .inl (hkept h)
  | hydrate index =>
    simp only [RecoveryProcess.step, RecoveryProcess.hydrate] at h
    split at h
    · split at h
      · split at h
        · next hydrated hanswer =>
          rcases mem_setStage h with hmem | rfl
          · exact .inl (hkept hmem)
          · cases hstage
            obtain ⟨hrow, hissued, hpermit⟩ := hydrateIssued_some hanswer
            exact .inr ⟨hydrated, hrow, hissued, hpermit, rfl⟩
        · exact .inl (hset h (by simp))
      · exact .inl (hkept h)
    · exact .inl (hkept h)
  | reconciled index coherent =>
    simp only [RecoveryProcess.step, RecoveryProcess.reconciled] at h
    split at h
    · split at h
      · split at h
        · exact .inl (hset h (by simp))
        · split at h
          · exact .inl (hset h (by simp))
          · exact .inl (hset h (by simp))
      · exact .inl (hkept h)
    · exact .inl (hkept h)
  | beforeUpstreamStart index now threshold =>
    simp only [RecoveryProcess.step, RecoveryProcess.guardAttempt] at h
    split at h <;> exact .inl (hkept h)
  | finish index state =>
    simp only [RecoveryProcess.step, RecoveryProcess.finish] at h
    split at h
    · split at h <;> exact .inl (hkept h)
    · exact .inl (hkept h)
  | _ => exact .inl (hkept h)

/-- A capability known after an event was known before, or was just hydrated. -/
theorem step_known {capability : RecoveryCapability} (h : (process.step fingerprint config event).Known capability)
    : process.Known capability ∨ ∃ row, process.db.row = some row ∧ row.state = .issued ∧
      row.permitId = some capability.permitId ∧ row.revision = capability.revision := by
  rcases h with ⟨exposure, hmem, hstage⟩ | ⟨installed, hheld, rfl⟩
  · exact (step_exposures hmem hstage).imp_left .inl
  · left
    by_cases hevent : ∃ index coherent, event = .reconciled index coherent
    · obtain ⟨index, coherent, rfl⟩ := hevent
      rcases (reconciled_held index coherent).2 installed hheld with hbefore | hhydrated
      · exact .inr ⟨installed, hbefore, rfl⟩
      · exact .inl hhydrated
    · obtain ⟨before, hbefore, hsame⟩ :=
        (step_spends fun index coherent h => hevent ⟨index, coherent, h⟩).capability hheld
      exact .inr ⟨before, hbefore, hsame⟩

/-- Only a transaction changes the database, and only a guard gives an attempt its permit, or takes it. -/
theorem step_frame (event : RecoveryEvent) :
    (process.step fingerprint config event).db = process.db.run fingerprint (databaseCalls [event]) ∧
      ((∀ index now threshold, event ≠ .beforeUpstreamStart index now threshold) →
        ∀ index, (process.step fingerprint config event).consumedBy index = process.consumedBy index) := by
  cases event with
  | beforeUpstreamStart index now threshold =>
    refine ⟨?_, fun hevent => absurd rfl (hevent index now threshold)⟩
    simp only [RecoveryProcess.step, RecoveryProcess.guardAttempt]
    split <;> rfl
  | prepare account candidate =>
    refine ⟨rfl, fun _ index => ?_⟩
    simp only [RecoveryProcess.step, RecoveryProcess.consumedBy]
    rcases lt_trichotomy index process.attempts.length with hless | rfl | hmore
    · rw [List.getElem?_append_left hless]
    · simp [prepareAttempt]
    · rw [List.getElem?_eq_none (by simp; omega), List.getElem?_eq_none (by omega)]
  | expose row =>
    simp only [RecoveryProcess.step, RecoveryProcess.expose]
    repeat' split
    all_goals exact ⟨rfl, fun _ _ => rfl⟩
  | findById index =>
    simp only [RecoveryProcess.step, RecoveryProcess.findById]
    repeat' split
    all_goals exact ⟨rfl, fun _ _ => rfl⟩
  | hydrate index =>
    simp only [RecoveryProcess.step, RecoveryProcess.hydrate]
    repeat' split
    all_goals exact ⟨rfl, fun _ _ => rfl⟩
  | reconciled index coherent =>
    simp only [RecoveryProcess.step, RecoveryProcess.reconciled]
    repeat' split
    all_goals exact ⟨rfl, fun _ _ => rfl⟩
  | finish index state =>
    simp only [RecoveryProcess.step, RecoveryProcess.finish]
    repeat' split
    all_goals exact ⟨rfl, fun _ _ => rfl⟩
  | _ => exact ⟨rfl, fun _ _ => rfl⟩

/-- The guard of an attempt without a permit leaves every permit, and gives it one at most: the unspent and current
one. -/
theorem guardAttempt_consumedBy {index : ℕ} (hnone : process.consumedBy index = none) (now : Instant)
    (threshold : Rat) (other : ℕ) (capability : RecoveryCapability) :
    (process.guardAttempt index now threshold).consumedBy other = some capability ↔
      process.consumedBy other = some capability ∨ (other = index ∧
        (process.guardAttempt index now threshold).consumedBy index = some capability) := by
  by_cases hother : other = index
  · subst hother
    simp [hnone]
  · have hkept : (process.guardAttempt index now threshold).consumedBy other = process.consumedBy other := by
      unfold RecoveryProcess.guardAttempt
      split
      · simp [RecoveryProcess.consumedBy, Ne.symm hother]
      · rfl
    simp [hkept, hother]

/-- An attempt passes by consuming a capability. -/
theorem guardAttempt_passed {index : ℕ} (hnone : process.consumedBy index = none) {now : Instant}
    {threshold : Rat} {capability : RecoveryCapability}
    (h : (process.guardAttempt index now threshold).consumedBy index = some capability) :
    ∃ installed, process.held = some installed ∧ installed.consumed = false ∧ installed.capability = capability ∧
      capability.isCurrent (readCurrent process.catalog) = true ∧
      (process.guardAttempt index now threshold).held = some { installed with consumed := true } := by
  unfold RecoveryProcess.guardAttempt at h ⊢
  cases hattempt : process.attempts[index]? with
  | none => simp [hattempt, hnone] at h
  | some attempt =>
    have hlength : index < process.attempts.length := (List.getElem?_eq_some_iff.mp hattempt).1
    have hunspent : attempt.consumed = none := by simpa [RecoveryProcess.consumedBy, hattempt] using hnone
    simp only [hattempt, RecoveryProcess.consumedBy, List.getElem?_set_self hlength, Option.bind_some] at h ⊢
    rcases beforeUpstreamStart_cases attempt process.catalog process.held process.health now threshold with
      ⟨_, hkept | hkept⟩ | ⟨installed, hheld, hfree, hcurrent, hconsumed, hspent⟩
    · simp [hkept, hunspent] at h
    · simp [hkept] at h
    · obtain rfl := Option.some.inj (hconsumed.symm.trans h)
      exact ⟨installed, hheld, hfree, rfl, hcurrent, hspent⟩

/-- Reports stay, an outcome is reported under the permit its attempt consumed, and what is queued
was reported. -/
theorem step_reported (fingerprint : Option String → String) (config : RecoveryProcessConfig)
    (process : RecoveryProcess) (event : RecoveryEvent) :
    (∀ entry ∈ process.reported, entry ∈ (process.step fingerprint config event).reported) ∧
      (∀ index outcome, (index, outcome) ∈ (process.step fingerprint config event).reported →
        (index, outcome) ∈ process.reported ∨ ∃ capability state, process.consumedBy index = some capability ∧
          outcome = reportedOutcome capability state) ∧
      ∀ outcome ∈ (process.step fingerprint config event).outcomes, outcome ∈ process.outcomes ∨
        ∃ index, (index, outcome) ∈ (process.step fingerprint config event).reported := by
  have hsame (next : RecoveryProcess) (hreported : next.reported = process.reported)
      (houtcomes : ∀ outcome ∈ next.outcomes, outcome ∈ process.outcomes) :
      (∀ entry ∈ process.reported, entry ∈ next.reported) ∧
        (∀ index outcome, (index, outcome) ∈ next.reported → (index, outcome) ∈ process.reported ∨
          ∃ capability state, process.consumedBy index = some capability ∧
            outcome = reportedOutcome capability state) ∧
        ∀ outcome ∈ next.outcomes, outcome ∈ process.outcomes ∨ ∃ index, (index, outcome) ∈ next.reported := by
    rw [hreported]
    exact ⟨fun _ h => h, fun _ _ h => .inl h, fun outcome h => .inl (houtcomes outcome h)⟩
  cases event with
  | finish index state =>
    simp only [RecoveryProcess.step, RecoveryProcess.finish]
    split
    · next attempt hattempt =>
      split
      · exact hsame process rfl fun _ h => h
      · next capability hconsumed =>
        refine ⟨fun _ h => List.mem_cons_of_mem _ h, ?_, ?_⟩
        · intro other outcome h
          rcases List.mem_cons.mp h with hnew | hold
          · obtain ⟨rfl, rfl⟩ := Prod.mk.inj hnew
            exact .inr ⟨capability, state, by simp [RecoveryProcess.consumedBy, hattempt, hconsumed], rfl⟩
          · exact .inl hold
        · intro outcome h
          dsimp only at h
          split at h
          · exact .inl h
          · rcases mem_captureOutcome h with hold | rfl
            · exact .inl hold
            · exact .inr ⟨index, List.mem_cons_self ..⟩
    · exact hsame process rfl fun _ h => h
  | outcomeWritten outcome => exact hsame _ rfl fun _ h => List.mem_of_mem_filter h
  | expose row =>
    simp only [RecoveryProcess.step, RecoveryProcess.expose]
    split
    · exact hsame _ rfl fun _ h => h
    · split <;> exact hsame _ rfl fun _ h => h
  | findById index =>
    simp only [RecoveryProcess.step, RecoveryProcess.findById]
    repeat' split
    all_goals exact hsame _ rfl fun _ h => h
  | hydrate index =>
    simp only [RecoveryProcess.step, RecoveryProcess.hydrate]
    repeat' split
    all_goals exact hsame _ rfl fun _ h => h
  | reconciled index coherent =>
    simp only [RecoveryProcess.step, RecoveryProcess.reconciled]
    repeat' split
    all_goals exact hsame _ rfl fun _ h => h
  | beforeUpstreamStart index now threshold =>
    simp only [RecoveryProcess.step, RecoveryProcess.guardAttempt]
    split <;> exact hsame _ rfl fun _ h => h
  | _ => exact hsame _ rfl fun _ h => h

end Events

section Runs

variable {fingerprint : Option String → String} {config : RecoveryProcessConfig} {start : RecoveryDb}
  {events : List RecoveryEvent} {process : RecoveryProcess}

/-- What holds of the process after these events: its permits were read off issued rows, those consumed are left
behind, and no two attempts consumed one. -/
structure StartsOnce (fingerprint : Option String → String) (start : RecoveryDb) (events : List RecoveryEvent)
    (process : RecoveryProcess) : Prop where
  db_eq : process.db = start.run fingerprint (databaseCalls events)
  known : ∀ capability, process.Known capability → Genuine fingerprint start (databaseCalls events) capability
  genuine : ∀ index capability, process.consumedBy index = some capability →
    Genuine fingerprint start (databaseCalls events) capability
  spent : ∀ index capability, process.consumedBy index = some capability → Spent process.held capability
  guarded : ∀ index capability, process.consumedBy index = some capability → index ∈ guardCalls events
  distinct : ∀ index other capability another, process.consumedBy index = some capability →
    process.consumedBy other = some another → capability.permitId = another.permitId → index = other
  reported : ∀ index outcome, (index, outcome) ∈ process.reported → ∃ capability state,
    process.consumedBy index = some capability ∧ outcome = reportedOutcome capability state
  queued : ∀ outcome ∈ process.outcomes, ∃ index, (index, outcome) ∈ process.reported

theorem databaseCalls_append (first second : List RecoveryEvent) :
    databaseCalls (first ++ second) = databaseCalls first ++ databaseCalls second := List.filterMap_append

theorem guardCalls_append (first second : List RecoveryEvent) :
    guardCalls (first ++ second) = guardCalls first ++ guardCalls second := List.filterMap_append

/-- A permit consumed by the next guard is none that was consumed before. -/
theorem StartsOnce.permit_ne (h : StartsOnce fingerprint start events process) (hstart : start.row = none)
    (hdrawn : Drawn (databaseCalls events)) (hpermits : PermitsDrawn (databaseCalls events))
    {installed : HeldCapability} (hheld : process.held = some installed) (hfree : installed.consumed = false)
    {index : ℕ} {capability : RecoveryCapability} (hconsumed : process.consumedBy index = some capability) :
    capability.permitId ≠ installed.capability.permitId := by
  intro hsame
  have hrevision := (h.genuine index capability hconsumed).revision_eq hstart hdrawn hpermits
    (h.known _ (.inr ⟨installed, hheld, rfl⟩)) hsame
  obtain ⟨found, hfound, hless | ⟨_, hspent⟩⟩ := h.spent index capability hconsumed
  · obtain rfl := Option.some.inj (hheld.symm.trans hfound)
    omega
  · obtain rfl := Option.some.inj (hheld.symm.trans hfound)
    simp [hfree] at hspent

/-- The attempt passes its guard at this event under this capability. -/
structure Passes (fingerprint : Option String → String) (start : RecoveryDb) (events : List RecoveryEvent)
    (process next : RecoveryProcess) (index : ℕ) (capability : RecoveryCapability) : Prop where
  genuine : Genuine fingerprint start (databaseCalls events) capability
  spent : Spent next.held capability
  guarded : index ∈ guardCalls events
  alone : ∀ other another, next.consumedBy other = some another →
    process.consumedBy other = some another ∨ other = index
  permit_ne : ∀ other another, process.consumedBy other = some another → another.permitId ≠ capability.permitId

/-- An event keeps what holds if every attempt keeps its permit and one at most passes. -/
theorem StartsOnce.next (h : StartsOnce fingerprint start events process) {event : RecoveryEvent}
    (hkeeps : ∀ index capability, process.consumedBy index = some capability →
      (process.step fingerprint config event).consumedBy index = some capability)
    (hconsumed : ∀ index capability, (process.step fingerprint config event).consumedBy index = some capability →
      process.consumedBy index = some capability ∨ Passes fingerprint start (events ++ [event]) process
        (process.step fingerprint config event) index capability) :
    StartsOnce fingerprint start (events ++ [event]) (process.step fingerprint config event) := by
  have hreported := step_reported fingerprint config process event
  have hgenuine (capability : RecoveryCapability)
      (hbefore : Genuine fingerprint start (databaseCalls events) capability) :
      Genuine fingerprint start (databaseCalls (events ++ [event])) capability := by
    rw [databaseCalls_append]
    exact hbefore.append _
  refine ⟨?_, ?_, ?_, ?_, ?_, ?_, ?_, ?_⟩
  · rw [databaseCalls_append, run_append, ← h.db_eq]
    exact (step_frame event).1
  · intro capability hknown
    rcases step_known hknown with hbefore | ⟨row, hrow, hissued, hpermit, hrevision⟩
    · exact hgenuine capability (h.known capability hbefore)
    · exact hgenuine capability
        ⟨row, ⟨databaseCalls events, [], by simp, h.db_eq ▸ hrow, hissued, hpermit⟩, hrevision⟩
  · intro index capability hnow
    rcases hconsumed index capability hnow with hbefore | hpasses
    · exact hgenuine capability (h.genuine index capability hbefore)
    · exact hpasses.genuine
  · intro index capability hnow
    rcases hconsumed index capability hnow with hbefore | hpasses
    · exact (h.spent index capability hbefore).step (step_held fingerprint config process event)
    · exact hpasses.spent
  · intro index capability hnow
    rcases hconsumed index capability hnow with hbefore | hpasses
    · rw [guardCalls_append]
      exact List.mem_append_left _ (h.guarded index capability hbefore)
    · exact hpasses.guarded
  · intro first second capability another hfirst hsecond hsame
    rcases hconsumed first capability hfirst with hbefore | hpasses
    · rcases hconsumed second another hsecond with hbefore' | hpasses'
      · exact h.distinct first second capability another hbefore hbefore' hsame
      · exact absurd hsame (hpasses'.permit_ne first capability hbefore)
    · rcases hpasses.alone second another hsecond with hbefore' | rfl
      · exact absurd hsame.symm (hpasses.permit_ne second another hbefore')
      · rfl
  · intro index outcome hmem
    have hbefore : ∃ capability state, process.consumedBy index = some capability ∧
        outcome = reportedOutcome capability state := by
      rcases hreported.2.1 index outcome hmem with hold | hnew
      · exact h.reported index outcome hold
      · exact hnew
    obtain ⟨capability, state, hnow, houtcome⟩ := hbefore
    exact ⟨capability, state, hkeeps index capability hnow, houtcome⟩
  · intro outcome hmem
    rcases hreported.2.2 outcome hmem with hold | hnew
    · obtain ⟨index, hindex⟩ := h.queued outcome hold
      exact ⟨index, hreported.1 _ hindex⟩
    · exact hnew

/-- A guard event keeps what holds, as long as it is the attempt's first. -/
theorem StartsOnce.guard (h : StartsOnce fingerprint start events process) (hstart : start.row = none)
    (hdrawn : Drawn (databaseCalls events)) (hpermits : PermitsDrawn (databaseCalls events)) {index : ℕ}
    (hfirst : index ∉ guardCalls events) (now : Instant) (threshold : Rat) :
    StartsOnce fingerprint start (events ++ [.beforeUpstreamStart index now threshold])
      (process.step fingerprint config (.beforeUpstreamStart index now threshold)) := by
  have hnone : process.consumedBy index = none := by
    cases hconsumed : process.consumedBy index with
    | none => rfl
    | some capability => exact absurd (h.guarded index capability hconsumed) hfirst
  have hconsumedBy := @guardAttempt_consumedBy process _ hnone now threshold
  refine h.next (fun other capability hbefore => (hconsumedBy other capability).mpr (.inl hbefore)) ?_
  intro other capability hconsumed
  rcases (hconsumedBy other capability).mp hconsumed with hbefore | ⟨rfl, hpassed⟩
  · exact .inl hbefore
  · obtain ⟨installed, hheld, hfree, rfl, _, hspent⟩ := guardAttempt_passed hnone hpassed
    refine .inr ⟨?_, ⟨_, hspent, .inr ⟨rfl, rfl⟩⟩, ?_, fun another _ hanother =>
      ((hconsumedBy another _).mp hanother).imp_right And.left,
      fun _ _ hbefore => h.permit_ne hstart hdrawn hpermits hheld hfree hbefore⟩
    · rw [databaseCalls_append]
      exact (h.known _ (.inr ⟨installed, hheld, rfl⟩)).append _
    · rw [guardCalls_append]
      exact List.mem_append_right _ (List.mem_singleton_self _)

/-- Every other event keeps what holds. -/
theorem StartsOnce.step (h : StartsOnce fingerprint start events process) {event : RecoveryEvent}
    (hevent : ∀ index now threshold, event ≠ .beforeUpstreamStart index now threshold) :
    StartsOnce fingerprint start (events ++ [event]) (process.step fingerprint config event) := by
  have hconsumedBy := (@step_frame fingerprint config process event).2 hevent
  refine h.next (fun index capability hbefore => ?_) (fun index capability hnow => .inl ?_)
  · rw [hconsumedBy]
    exact hbefore
  · rw [hconsumedBy] at hnow
    exact hnow

/-- It holds after every run whose identifiers are drawn afresh and whose guards are called once. -/
theorem run_startsOnce (hstart : start.row = none) (events : List RecoveryEvent)
    (hdrawn : Drawn (databaseCalls events)) (hpermits : PermitsDrawn (databaseCalls events))
    (honce : (guardCalls events).Nodup) :
    StartsOnce fingerprint start events (RecoveryProcess.run fingerprint config { db := start } events) := by
  induction events using List.reverseRecOn with
  | nil =>
    refine ⟨rfl, ?_, ?_, ?_, ?_, ?_, ?_, ?_⟩ <;>
      simp [RecoveryProcess.run, RecoveryProcess.Known, RecoveryProcess.consumedBy]
  | append_singleton events event ih =>
    rw [databaseCalls_append] at hdrawn hpermits
    rw [guardCalls_append] at honce
    have hdrawn' : Drawn (databaseCalls events) := (List.pairwise_append.mp hdrawn).1
    have hpermits' := hpermits.of_append
    have hbefore := ih hdrawn' hpermits' (List.nodup_append.mp honce).1
    have hrun : RecoveryProcess.run fingerprint config { db := start } (events ++ [event]) =
        (RecoveryProcess.run fingerprint config { db := start } events).step fingerprint config event :=
      runFrom_append ..
    rw [hrun]
    by_cases hevent : ∃ index now threshold, event = .beforeUpstreamStart index now threshold
    · obtain ⟨index, now, threshold, rfl⟩ := hevent
      refine hbefore.guard hstart hdrawn' hpermits' ?_ now threshold
      intro hmem
      exact (List.nodup_append.mp honce).2.2 index hmem index (List.mem_singleton_self _) rfl
    · exact hbefore.step fun index now threshold heq => hevent ⟨index, now, threshold, heq⟩

/-- In every run of an account's process, with fresh identifiers and each guard called once, one attempt
at most passes its guard under a permit, while the catalog shows the account as the permit was issued
for it; and what an attempt reports, or queues to be written, is under the permit it consumed. -/
theorem run_one_start_per_permit (fingerprint : Option String → String) (config : RecoveryProcessConfig)
    (start : RecoveryDb) (hstart : start.row = none) (events : List RecoveryEvent)
    (hdrawn : Drawn (databaseCalls events)) (hpermits : PermitsDrawn (databaseCalls events))
    (honce : (guardCalls events).Nodup) (process : RecoveryProcess)
    (hprocess : RecoveryProcess.run fingerprint config { db := start } events = process) :
    (∀ index other capability another, process.consumedBy index = some capability →
      process.consumedBy other = some another → capability.permitId = another.permitId → index = other) ∧
    (∀ before index now threshold rest capability,
      events = before ++ RecoveryEvent.beforeUpstreamStart index now threshold :: rest →
      (RecoveryProcess.run fingerprint config { db := start }
        (before ++ [RecoveryEvent.beforeUpstreamStart index now threshold])).consumedBy index = some capability →
      ∃ account recovery, (RecoveryProcess.run fingerprint config { db := start } before).catalog = some account ∧
        account.snapshot.recovery = some recovery ∧ recovery.state = .issued ∧
        (account.snapshot.status = .active ∨ account.snapshot.status = .coolingDown) ∧
        recovery.generation = capability.generation ∧ recovery.revision = capability.revision ∧
        account.lifecycleVersion = capability.expected.lifecycleVersion ∧
        account.authMaterial = capability.expected.authMaterial) ∧
    (∀ index outcome, (index, outcome) ∈ process.reported → ∃ capability state,
      process.consumedBy index = some capability ∧ outcome = reportedOutcome capability state) ∧
    ∀ outcome ∈ process.outcomes, ∃ index, (index, outcome) ∈ process.reported := by
  have hholds := @run_startsOnce fingerprint config _ hstart events hdrawn hpermits honce
  rw [hprocess] at hholds
  refine ⟨hholds.distinct, ?_, hholds.reported, hholds.queued⟩
  rintro before index now threshold rest capability rfl hpassed
  rw [databaseCalls_append] at hdrawn hpermits
  rw [guardCalls_append] at honce
  have hbefore := @run_startsOnce fingerprint config _ hstart before
    (List.pairwise_append.mp hdrawn).1 hpermits.of_append (List.nodup_append.mp honce).1
  have hnone : (RecoveryProcess.run fingerprint config { db := start } before).consumedBy index = none := by
    cases hconsumed : (RecoveryProcess.run fingerprint config { db := start } before).consumedBy index with
    | none => rfl
    | some earlier =>
      refine absurd rfl ((List.nodup_append.mp honce).2.2 index (hbefore.guarded index earlier hconsumed) index ?_)
      exact List.mem_cons_self ..
  have hrun : RecoveryProcess.run fingerprint config { db := start }
      (before ++ [RecoveryEvent.beforeUpstreamStart index now threshold]) =
        (RecoveryProcess.run fingerprint config { db := start } before).guardAttempt index now threshold :=
    runFrom_append ..
  rw [hrun] at hpassed
  obtain ⟨installed, _, _, rfl, hcurrent, _⟩ := guardAttempt_passed hnone hpassed
  exact isCurrent_iff.mp hcurrent

/-- The process of the account whose permit `p1` is issued. -/
def firstBoot : RecoveryProcessConfig :=
  { accountId := "A", bootId := "boot", maximumOutcomeMs := 120000, outcomeCapacity := 8 }

/-- The catalog row once the permit is issued. -/
def issuedRow : RoutableAccount :=
  { lifecycleVersion := 1, authMaterial := some "token"
    snapshot :=
      { id := "A", recovery := some { state := .issued, generation := "g1", revision := 2, nextAllowedAt := 0 } } }

/-- The account as a half-open candidate. -/
def gatedCandidate : Candidate :=
  { account := issuedRow.snapshot, poolId := none, weight := 100, priority := 0, order := 0
    upstreamModel := "model", halfOpen := true }

/-- The permit is issued, exposed and installed; two attempts race for it, and the winner finishes. -/
def raceForPermit : List RecoveryEvent :=
  (retriedLife.take 5).map RecoveryEvent.database ++
    ((activeAccount.run fingerprintText (retriedLife.take 5)).row.toList.map RecoveryEvent.expose ++
      [.findById 0, .hydrate 0, .catalog (some issuedRow), .reconciled 0 true, .prepare issuedRow gatedCandidate,
        .prepare issuedRow gatedCandidate, .beforeUpstreamStart 1 0 1, .beforeUpstreamStart 0 0 1,
        .finish 1 .succeeded])

/-- The attempt whose guard came first passed and reports under its permit, the other was refused. -/
theorem run_one_start_per_permit_race :
    ((RecoveryProcess.run fingerprintText firstBoot { db := activeAccount } raceForPermit).consumedBy 1).map
        RecoveryCapability.permitId = some "p1" ∧
      (RecoveryProcess.run fingerprintText firstBoot { db := activeAccount } raceForPermit).consumedBy 0 = none ∧
      ∀ entry ∈ (RecoveryProcess.run fingerprintText firstBoot { db := activeAccount } raceForPermit).reported,
        entry.2.permitId = "p1" := by
  have hdrawn : Drawn (databaseCalls raceForPermit) := by
    have hcalls : databaseCalls raceForPermit = retriedLife.take 5 := by decide +kernel
    rw [hcalls]
    simp [Drawn, retriedLife, SameRequest, RecoveryCall.candidate?]
  have hpermits : PermitsDrawn (databaseCalls raceForPermit) := by
    have hcalls : databaseCalls raceForPermit = retriedLife.take 5 := by decide +kernel
    rw [hcalls]
    simp [PermitsDrawn, retriedLife]
  have hpassed : ((RecoveryProcess.run fingerprintText firstBoot { db := activeAccount } raceForPermit).consumedBy
      1).map
      RecoveryCapability.permitId = some "p1" := by decide +kernel
  have hrun := run_one_start_per_permit fingerprintText firstBoot activeAccount rfl raceForPermit hdrawn hpermits
    (by decide +kernel) _ rfl
  refine ⟨hpassed, by decide +kernel, ?_⟩
  rintro ⟨index, outcome⟩ hmem
  obtain ⟨capability, state, hconsumed, rfl⟩ := hrun.2.2.1 index outcome hmem
  obtain ⟨winner, hwinner, hpermit⟩ := Option.map_eq_some_iff.mp hpassed
  have hindex : index = 1 := by
    have honly : ∀ entry ∈ (RecoveryProcess.run fingerprintText firstBoot { db := activeAccount }
        raceForPermit).reported, entry.1 = 1 := by decide +kernel
    exact honly _ hmem
  subst hindex
  obtain rfl := Option.some.inj (hconsumed.symm.trans hwinner)
  exact hpermit

end Runs

end MultiAiRouter.Dataplane
