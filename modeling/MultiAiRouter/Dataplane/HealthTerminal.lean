import MultiAiRouter.Dataplane.Health

/-!
# Terminal verdicts are not undone by traffic

`exhausted` and `needs_reauth` are ended by a reset or by catalog facts that recover the account. Three folds write
the verdict, and each leaves a terminal one as it is.
-/

namespace MultiAiRouter.Dataplane

open Common Routing

/-- The verdict on an account. -/
def HealthStore.verdict (store : HealthStore) (accountId : String) : BreakerState :=
  (store.stateOf accountId).breaker

/-- A verdict that only a human ends. -/
def TerminalStatus (status : AccountStatus) : Prop := status = .exhausted ∨ status = .needsReauth

/-- The operation releases an account from this terminal status: a reset, facts that raise the health epoch, or, for
`needs_reauth`, an authentication recovery from another stored status. -/
def Releases (accountId : String) (status : AccountStatus) (store : HealthStore) : HealthOp → Prop
  | .reset other => other = accountId
  | .reconcile other facts => other = accountId ∧ ∃ held, store.observations.held accountId = some held ∧
      (held.facts.healthRecoveryVersion < facts.healthRecoveryVersion ∨
        (status = .needsReauth ∧ recoveryKind (some held.facts) facts = some .authentication ∧
          facts.status ≠ .needsReauth))
  | _ => False

/-- The verdict stays, or is coherent and replaces one that a timer could change. -/
def VerdictMoves (before after : BreakerState) : Prop :=
  after = before ∨ (¬ TerminalStatus before.status ∧ (before.Coherent → after.Coherent))

section Verdict

variable {store : HealthStore} {options : HealthStoreOptions} {accountId other : String}

@[simp] theorem verdict_write_self (state : AccountHealthState) :
    (store.write accountId state).verdict accountId = state.breaker := by
  simp [HealthStore.verdict, HealthStore.stateOf, HealthStore.write]

@[simp] theorem verdict_write_of_ne (h : other ≠ accountId) (state : AccountHealthState) :
    (store.write accountId state).verdict other = store.verdict other := by
  simp [HealthStore.verdict, HealthStore.stateOf, HealthStore.write, h]

/-- Only the held states decide a verdict. -/
theorem verdict_congr {next : HealthStore} (h : next.states = store.states) :
    next.verdict accountId = store.verdict accountId := by
  simp [HealthStore.verdict, HealthStore.stateOf, h]

/-- Writing one account moves its own verdict, and no other's. -/
theorem write_moves {next : HealthStore} {state : AccountHealthState}
    (hstates : next.states = (store.write other state).states)
    (h : VerdictMoves (store.verdict other) state.breaker) :
    VerdictMoves (store.verdict accountId) (next.verdict accountId) := by
  rw [verdict_congr hstates]
  by_cases hid : accountId = other
  · subst hid
    rw [verdict_write_self]
    exact h
  · rw [verdict_write_of_ne hid]
    exact Or.inl rfl

/-- A verdict outside the blocked phase is not terminal. -/
theorem not_terminalStatus_of_phase {state : BreakerState} {now : Instant} (h : phase state now ≠ .blocked) :
    ¬ TerminalStatus state.status := by
  rintro (hstatus | hstatus) <;> simp [phase, hstatus] at h

/-- Keeping the label of a verdict keeps it coherent. -/
theorem keepVerdictReason_coherent {before next : BreakerState} {after : Option BreakerState}
    (hafter : ∀ state, after = some state → state.Coherent)
    (h : keepVerdictReason before after = some next) : next.Coherent := by
  unfold keepVerdictReason at h
  split at h
  · exact hafter next h
  · next hkeep =>
    cases h
    simp only [Bool.or_eq_true, not_or, Bool.not_eq_true, bne_eq_false_iff_eq] at hkeep
    exact coherent_of_cooling hkeep.2

/-- A reading moves the verdict only where a timer could. -/
theorem limitVerdict_moves {state : AccountHealthState} {quotaWindows : List QuotaWindowState}
    {signal : RateLimitSignal} {now : Instant} {breaker : BreakerOptions} {planReadingMaxAgeMs : Int}
    {next : BreakerState} (h : limitVerdict state quotaWindows signal now breaker planReadingMaxAgeMs = some next) :
    VerdictMoves state.breaker next := by
  unfold limitVerdict at h
  split at h
  · cases h
  · split at h
    · cases h
    · next hphase =>
      refine Or.inr ⟨not_terminalStatus_of_phase hphase, fun hstate => ?_⟩
      refine keepVerdictReason_coherent (fun tripped htripped => ?_) h
      split at htripped
      · next hstands =>
        refine coherent_of_cooling ?_
        rw [lengthenRefusal_status htripped]
        exact hstate.status_of_refusalStands hstands
      · exact recordFailure_coherent hstate htripped

/-- A reading folded into the store. -/
theorem applyRateLimit_moves (signal : Option RateLimitSignal) (now : Instant) (jitter : Rat)
    (observation : Option HealthObservation) : VerdictMoves (store.verdict accountId)
      ((store.applyRateLimit options other signal now jitter observation).verdict accountId) := by
  unfold HealthStore.applyRateLimit
  split
  · exact Or.inl rfl
  · next signal =>
    split
    · exact Or.inl rfl
    · have hfolded : VerdictMoves (store.verdict other) (foldRateLimit (store.stateOf other) signal now
          (options.breakerOptions jitter {}) options.planAge).breaker := by
        unfold foldRateLimit
        dsimp only
        cases hmoved : limitVerdict (store.stateOf other)
            (mergeQuotaWindows (store.stateOf other).quotaWindows signal.quotaWindows) signal now
            (options.breakerOptions jitter {}) options.planAge with
        | none => exact Or.inl rfl
        | some next => exact limitVerdict_moves hmoved
      dsimp only
      split
      · exact write_moves rfl hfolded
      · exact write_moves rfl hfolded
      · exact write_moves rfl hfolded

/-- A failure folded into the store. -/
theorem recordFailure_moves (failure : AttemptFailure) (now : Instant) (jitter : Rat) (caller : BreakerOptions)
    (observation : Option HealthObservation) : VerdictMoves (store.verdict accountId)
      ((store.recordFailure options other failure now jitter caller observation).verdict accountId) := by
  unfold HealthStore.recordFailure
  split
  · exact Or.inl rfl
  · dsimp only
    split
    · exact Or.inl rfl
    · next hphase =>
      split
      · exact write_moves rfl (Or.inl rfl)
      · next after hafter =>
        have hmoves : VerdictMoves (store.verdict other) after :=
          Or.inr ⟨not_terminalStatus_of_phase hphase, fun hstate => recordFailure_coherent hstate hafter⟩
        split
        · exact write_moves rfl hmoves
        · exact write_moves rfl hmoves

/-- A success folded into the store. -/
theorem recordSuccess_moves (observation : Option HealthObservation) :
    VerdictMoves (store.verdict accountId) ((store.recordSuccess other observation).verdict accountId) := by
  unfold HealthStore.recordSuccess
  dsimp only
  split
  · exact Or.inl rfl
  · next hstatus =>
    split
    · exact Or.inl rfl
    · refine write_moves rfl (Or.inr ⟨?_, fun _ => coherent_healthy⟩)
      rintro (hexhausted | hreauth)
      · exact hstatus (Or.inl hexhausted)
      · exact hstatus (Or.inr (Or.inl hreauth))

/-- A probe admitted leaves the verdict. -/
theorem admitProbe_moves (now : Instant) :
    VerdictMoves (store.verdict accountId) ((store.admitProbe options other now).2.verdict accountId) := by
  unfold HealthStore.admitProbe
  dsimp only
  split
  · exact Or.inl rfl
  · exact Or.inl rfl
  · exact Or.inl rfl
  · split
    · exact Or.inl rfl
    · exact write_moves rfl (Or.inl rfl)

/-- A probe released leaves the verdict. -/
theorem releaseProbe_moves (token : Option Nat) :
    VerdictMoves (store.verdict accountId) ((store.releaseProbe other token).verdict accountId) := by
  unfold HealthStore.releaseProbe
  split
  · exact Or.inl rfl
  · dsimp only
    split
    · exact Or.inl rfl
    · next state hstate =>
      refine write_moves rfl (Or.inl ?_)
      simp [HealthStore.verdict, HealthStore.stateOf, hstate]

/-- A recovery leaves a healthy verdict. -/
theorem recoverHealth_breaker {state recovered : AccountHealthState} {kind : RecoveryKind}
    {facts : HealthAccountFacts} (h : recoverHealth state kind facts = some recovered) :
    recovered.breaker = healthy := by
  cases kind with
  | full =>
    cases h
    rfl
  | authentication =>
    simp only [recoverHealth] at h
    split_ifs at h
    cases h
    rfl

/-- An authentication recovery ends authentication verdicts only, and not against the stored status. -/
theorem recoverHealth_authentication {state recovered : AccountHealthState} {facts : HealthAccountFacts}
    (h : recoverHealth state .authentication facts = some recovered) :
    (state.breaker.status = .needsReauth ∨ state.breaker.cooldownReason = some .credentialRejected) ∧
      facts.status ≠ .needsReauth := by
  simp only [recoverHealth] at h
  split_ifs at h with hkept
  rw [not_or, not_not] at hkept
  exact hkept

/-- Facts that recover nothing leave every verdict, and facts that recover one leave the others. -/
theorem reconcile_verdict (store : HealthStore) (accountId other : String) (facts : HealthAccountFacts) :
    (store.reconcile other facts).verdict accountId = store.verdict accountId ∨
      (other = accountId ∧ (store.reconcile other facts).verdict accountId = healthy ∧
        ∃ kind recovered, (store.observations.reconcile accountId facts).1 = some kind ∧
          recoverHealth (store.stateOf accountId) kind facts = some recovered) := by
  unfold HealthStore.reconcile
  dsimp only
  split
  · exact Or.inl (verdict_congr rfl)
  · next recovered hrecovered =>
    by_cases hid : accountId = other
    · subst hid
      obtain ⟨kind, hkind, hrecover⟩ := Option.bind_eq_some_iff.mp hrecovered
      refine Or.inr ⟨rfl, ?_, kind, recovered, hkind, hrecover⟩
      rw [← recoverHealth_breaker hrecover]
      exact verdict_write_self recovered
    · left
      exact verdict_write_of_ne hid recovered

end Verdict

/-- Facts recover an account only by being installed over held ones. -/
theorem reconcile_kind {observations : HealthObservations} {accountId : String} {facts : HealthAccountFacts}
    {kind : RecoveryKind} (h : (observations.reconcile accountId facts).1 = some kind) :
    ∃ held, observations.held accountId = some held ∧ recoveryKind (some held.facts) facts = some kind := by
  unfold HealthObservations.reconcile at h
  split at h
  · cases h
  · cases hheld : observations.held accountId with
    | none => simp [hheld, recoveryKind] at h
    | some held => exact ⟨held, rfl, by simpa [hheld] using h⟩

/-- An operation that does not release the account leaves its terminal verdict, and every operation
keeps every verdict coherent. -/
theorem healthStep_verdict (options : HealthStoreOptions) (store : HealthStore) (op : HealthOp) (accountId : String)
    : VerdictMoves (store.verdict accountId) ((healthStep options store op).verdict accountId) ∨
      ((healthStep options store op).verdict accountId = healthy ∧
        (TerminalStatus (store.verdict accountId).status → (store.verdict accountId).Coherent →
          Releases accountId (store.verdict accountId).status store op)) := by
  cases op with
  | reconcile other facts =>
    rcases reconcile_verdict store accountId other facts with hkept | ⟨rfl, hhealthy, kind, recovered, hkind, hrecover⟩
    · exact Or.inl (Or.inl hkept)
    · refine Or.inr ⟨hhealthy, fun hterminal hcoherent => ⟨rfl, ?_⟩⟩
      obtain ⟨held, hheld, hrecovery⟩ := reconcile_kind hkind
      refine ⟨held, hheld, ?_⟩
      cases kind with
      | full =>
        obtain ⟨_, ⟨rfl⟩, hraised⟩ := recoveryKind_full hrecovery
        exact Or.inl hraised
      | authentication =>
        refine Or.inr ⟨?_, hrecovery, ?_⟩
        · rcases (recoverHealth_authentication hrecover).1 with hreauth | hlabelled
          · exact hreauth
          · rcases hterminal with hexhausted | hreauth
            · have hunlabelled := (hcoherent (by simp [hexhausted])).2
              exact absurd (hlabelled.symm.trans hunlabelled) (by simp)
            · exact hreauth
        · exact (recoverHealth_authentication hrecover).2
  | captureAttempt other facts => exact Or.inl (Or.inl (verdict_congr rfl))
  | beginAttempt other => exact Or.inl (write_moves rfl (Or.inl rfl))
  | endAttempt other tokens => exact Or.inl (write_moves rfl (Or.inl rfl))
  | recordSuccess other observation => exact Or.inl (recordSuccess_moves observation)
  | recordFailure other failure now jitter caller observation =>
    exact Or.inl (recordFailure_moves failure now jitter caller observation)
  | applyRateLimit other signal now jitter observation =>
    exact Or.inl (applyRateLimit_moves signal now jitter observation)
  | admitProbe other now => exact Or.inl (admitProbe_moves now)
  | releaseProbe other token => exact Or.inl (releaseProbe_moves token)
  | reset other =>
    by_cases hid : accountId = other
    · subst hid
      refine Or.inr ⟨?_, fun _ _ => rfl⟩
      simp [healthStep, HealthStore.reset, HealthStore.notify, HealthStore.verdict, HealthStore.stateOf,
        freshHealth]
    · left
      left
      simp [healthStep, HealthStore.reset, HealthStore.notify, HealthStore.verdict, HealthStore.stateOf, hid]

/-- Every verdict of a reachable store is coherent. -/
theorem runHealth_coherent (options : HealthStoreOptions) (ops : List HealthOp) (accountId : String) :
    ((runHealth options ops).verdict accountId).Coherent := by
  refine runFrom_invariant (fun store : HealthStore => (store.verdict accountId).Coherent) (fun store op h => ?_) ops {}
    coherent_healthy
  rcases healthStep_verdict options store op accountId with (hkept | ⟨_, hmoved⟩) | ⟨hhealthy, _⟩
  · rw [hkept]
    exact h
  · exact hmoved h
  · rw [hhealthy]
    exact coherent_healthy

/-- A terminal verdict is kept by every operation that does not release the account. -/
theorem healthStep_keeps_terminal {options : HealthStoreOptions} {store : HealthStore} {op : HealthOp}
    {accountId : String} (hterminal : TerminalStatus (store.verdict accountId).status)
    (hcoherent : (store.verdict accountId).Coherent)
    (hop : ¬ Releases accountId (store.verdict accountId).status store op) :
    (healthStep options store op).verdict accountId = store.verdict accountId := by
  rcases healthStep_verdict options store op accountId with (hkept | ⟨hmovable, _⟩) | ⟨_, hreleases⟩
  · exact hkept
  · exact absurd hterminal hmovable
  · exact absurd (hreleases hterminal hcoherent) hop

/-- From every reachable store, a terminal verdict keeps its status and no cooldown over every run of
operations that does not release the account. -/
theorem runHealth_terminal_kept (options : HealthStoreOptions) (before after : List HealthOp)
    (accountId : String) (status : AccountStatus) (hterminal : status = .exhausted ∨ status = .needsReauth)
    (hstatus : ((runHealth options before).stateOf accountId).breaker.status = status)
    (hops : EveryStep (healthStep options) (fun store op => ¬ Releases accountId status store op)
      (runHealth options before) after) :
    ((runHealth options (before ++ after)).stateOf accountId).breaker.status = status ∧
      ((runHealth options (before ++ after)).stateOf accountId).breaker.cooldownUntil = none := by
  have hcoherent := runHealth_coherent options before accountId
  have hkept : (runHealth options (before ++ after)).verdict accountId =
      (runHealth options before).verdict accountId := by
    rw [runHealth, runFrom_append]
    refine runFrom_invariant_of_everyStep
      (fun store => store.verdict accountId = (runHealth options before).verdict accountId)
      (fun store op hsame hop => ?_) after _ rfl hops
    have hstill : (store.verdict accountId).status = status := by
      rw [hsame]
      exact hstatus
    refine (healthStep_keeps_terminal ?_ ?_ ?_).trans hsame
    · exact hstill ▸ hterminal
    · exact hsame ▸ hcoherent
    · exact hstill ▸ hop
  change ((runHealth options (before ++ after)).verdict accountId).status = status ∧
    ((runHealth options (before ++ after)).verdict accountId).cooldownUntil = none
  rw [hkept]
  refine ⟨hstatus, (hcoherent ?_).1⟩
  intro hcooling
  have hcooling : status = .coolingDown := hstatus.symm.trans hcooling
  rcases hterminal with rfl | rfl <;> cases hcooling

/-- The account's balance is drained. -/
def drained : List HealthOp :=
  [.recordFailure "A" { kind := .creditsExhausted, message := "insufficient balance" } 1000 0 {} none]

/-- A success, a limiter reading that was limited, and first catalog facts. -/
def traffic : List HealthOp :=
  [.recordSuccess "A" none,
    .applyRateLimit "A" (some { limited := true, resetsAt := some 9000, resetSource := .providerReported })
      2000 0 none,
    .reconcile "A" { lifecycleVersion := 1, healthRecoveryVersion := 1, authRecoveryVersion := 1
                     authMaterial := some "key", status := .active }]

/-- A drained account stays drained through that traffic. -/
theorem runHealth_terminal_kept_drained :
    ((runHealth {} drained).stateOf "A").breaker.status = .exhausted ∧
      ((runHealth {} (drained ++ traffic)).stateOf "A").breaker.status = .exhausted ∧
      ((runHealth {} (drained ++ traffic)).stateOf "A").breaker.cooldownUntil = none := by
  refine ⟨by decide +kernel, runHealth_terminal_kept {} drained traffic "A" .exhausted (Or.inl rfl)
    (by decide +kernel) ⟨id, id, ?_, trivial⟩⟩
  rintro ⟨_, held, hheld, _⟩
  cases hheld

end MultiAiRouter.Dataplane
