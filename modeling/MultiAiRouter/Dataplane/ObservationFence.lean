import MultiAiRouter.Dataplane.HealthTerminal

/-!
# A verdict is fenced by what it observed

Generations are drawn from one counter that only grows, and within a generation the verdicts are counted. So an
operation leaves an account's held observation, drops it, counts one verdict more, or holds a generation no one has
seen. The first verdict that changes the breaker passes an observation; a reset or new facts retire it.
-/

namespace MultiAiRouter.Dataplane

open Common Routing

section Moves

/-- What an operation can do to the observation held for an account. -/
inductive HeldMoved (accountId : String) (before after : HealthObservations) : Prop
  | kept (hheld : after.held accountId = before.held accountId) (hcounter : before.generation ≤ after.generation)
  | forgotten (hheld : after.held accountId = none) (hcounter : before.generation ≤ after.generation)
  | counted (held : HeldObservation) (hbefore : before.held accountId = some held)
      (hheld : after.held accountId = some { held with verdictVersion := held.verdictVersion + 1 })
      (hcounter : before.generation ≤ after.generation)
  | installed (held : HeldObservation) (hheld : after.held accountId = some held)
      (hfresh : before.generation < held.generation) (hcounter : held.generation ≤ after.generation)

variable {observations : HealthObservations} {accountId other : String}

/-- Nothing moved. -/
theorem HeldMoved.refl (accountId : String) (observations : HealthObservations) :
    HeldMoved accountId observations observations := .kept rfl le_rfl

/-- Facts that are installed are held under a generation no one has seen. -/
theorem reconcile_installed {facts : HealthAccountFacts} (h : observations.installs accountId facts) :
    ∃ held, (observations.reconcile accountId facts).2.held accountId = some held ∧
      held.generation = observations.generation + 1 ∧
      (observations.reconcile accountId facts).2.generation = observations.generation + 1 := by
  unfold HealthObservations.reconcile
  rw [h]
  exact ⟨_, Function.update_self .., rfl, rfl⟩

/-- New facts move the account's observation only. -/
theorem reconcile_moved (facts : HealthAccountFacts) :
    HeldMoved accountId observations (observations.reconcile other facts).2 := by
  by_cases hinstalls : observations.installs other facts
  · by_cases hid : accountId = other
    · subst hid
      obtain ⟨held, hheld, hgeneration, hcounter⟩ := reconcile_installed hinstalls
      exact .installed held hheld (by omega) (by omega)
    · unfold HealthObservations.reconcile
      rw [hinstalls]
      exact .kept (Function.update_of_ne hid ..) (Nat.le_succ _)
  · unfold HealthObservations.reconcile
    rw [Bool.not_eq_true] at hinstalls
    rw [hinstalls]
    exact .refl ..

/-- A capture moves it as little. -/
theorem capture_moved (facts : HealthAccountFacts) :
    HeldMoved accountId observations (observations.capture other facts).2 := by
  unfold HealthObservations.capture
  dsimp only
  split
  · exact .kept rfl le_rfl
  · rcases @reconcile_moved observations accountId other facts with
      ⟨hheld, hcounter⟩ | ⟨hheld, hcounter⟩ | ⟨held, hbefore, hheld, hcounter⟩ | ⟨held, hheld, hfresh, hcounter⟩
    · exact .kept hheld hcounter
    · exact .forgotten hheld hcounter
    · exact .counted held hbefore hheld hcounter
    · exact .installed held hheld hfresh hcounter

/-- A verdict counts one more. -/
theorem advanceVerdict_moved : HeldMoved accountId observations (observations.advanceVerdict other) := by
  unfold HealthObservations.advanceVerdict
  cases hheld : observations.held other with
  | none => exact .refl ..
  | some held =>
    by_cases hid : accountId = other
    · subst hid
      exact .counted held hheld (Function.update_self ..) le_rfl
    · exact .kept (Function.update_of_ne hid ..) le_rfl

theorem forget_moved : HeldMoved accountId observations (observations.forget other) := by
  by_cases hid : accountId = other
  · subst hid
    exact .forgotten (Function.update_self ..) le_rfl
  · exact .kept (Function.update_of_ne hid ..) le_rfl

variable {options : HealthStoreOptions} {store : HealthStore}

/-- Facts reach the held observations whether or not they recover a verdict. -/
theorem reconcile_observations (store : HealthStore) (other : String) (facts : HealthAccountFacts) :
    (store.reconcile other facts).observations = (store.observations.reconcile other facts).2 := by
  unfold HealthStore.reconcile
  dsimp only
  split <;> rfl

/-- A failure counts a verdict or leaves the observations. -/
theorem recordFailure_observations (failure : AttemptFailure) (now : Instant) (jitter : Rat)
    (caller : BreakerOptions) (observation : Option HealthObservation) :
    ((store.recordFailure options other failure now jitter caller observation).observations = store.observations ∧
        (store.recordFailure options other failure now jitter caller observation).verdict other =
          store.verdict other) ∨
      (store.recordFailure options other failure now jitter caller observation).observations =
        store.observations.advanceVerdict other := by
  unfold HealthStore.recordFailure
  split
  · exact Or.inl ⟨rfl, rfl⟩
  · dsimp only
    split
    · exact Or.inl ⟨rfl, rfl⟩
    · split
      · exact Or.inl ⟨rfl, verdict_write_self _⟩
      · split
        · exact Or.inr rfl
        · exact Or.inr rfl

/-- A reading counts a verdict or leaves the observations. -/
theorem applyRateLimit_observations (signal : Option RateLimitSignal) (now : Instant) (jitter : Rat)
    (observation : Option HealthObservation) :
    ((store.applyRateLimit options other signal now jitter observation).observations = store.observations ∧
        (store.applyRateLimit options other signal now jitter observation).verdict other = store.verdict other) ∨
      (store.applyRateLimit options other signal now jitter observation).observations =
        store.observations.advanceVerdict other := by
  unfold HealthStore.applyRateLimit
  split
  · exact Or.inl ⟨rfl, rfl⟩
  · next signal =>
    split
    · exact Or.inl ⟨rfl, rfl⟩
    · dsimp only
      by_cases hmoved : (limitVerdict (store.stateOf other)
          (mergeQuotaWindows (store.stateOf other).quotaWindows signal.quotaWindows) signal now
          (options.breakerOptions jitter {}) options.planAge).isSome
      · right
        split <;> simp [HealthStore.notify, hmoved]
      · left
        have hkept : (foldRateLimit (store.stateOf other) signal now (options.breakerOptions jitter {})
            options.planAge).breaker = store.verdict other := by
          simp [foldRateLimit, Option.not_isSome_iff_eq_none.mp hmoved, HealthStore.verdict]
        split
        · exact ⟨if_neg hmoved, (verdict_write_self _).trans hkept⟩
        · exact ⟨if_neg hmoved, (verdict_write_self _).trans hkept⟩
        · exact ⟨if_neg hmoved, (verdict_write_self _).trans hkept⟩

/-- What every operation can do to the observation held for an account. -/
theorem healthStep_moved (options : HealthStoreOptions) (store : HealthStore) (op : HealthOp) (accountId : String) :
    HeldMoved accountId store.observations (healthStep options store op).observations := by
  cases op with
  | reconcile other facts =>
    rw [healthStep, reconcile_observations]
    exact reconcile_moved facts
  | captureAttempt other facts => exact capture_moved facts
  | beginAttempt other => exact .refl ..
  | endAttempt other tokens => exact .refl ..
  | recordSuccess other observation =>
    have hobservations : (store.recordSuccess other observation).observations = store.observations := by
      unfold HealthStore.recordSuccess
      dsimp only
      split
      · rfl
      · split <;> rfl
    rw [healthStep, hobservations]
    exact .refl ..
  | recordFailure other failure now jitter caller observation =>
    rcases @recordFailure_observations other options store failure now jitter
      caller observation with ⟨hkept, _⟩ | hcounted
    · rw [healthStep, hkept]
      exact .refl ..
    · rw [healthStep, hcounted]
      exact advanceVerdict_moved
  | applyRateLimit other signal now jitter observation =>
    rcases @applyRateLimit_observations other options store signal now jitter
      observation with ⟨hkept, _⟩ | hcounted
    · rw [healthStep, hkept]
      exact .refl ..
    · rw [healthStep, hcounted]
      exact advanceVerdict_moved
  | admitProbe other now =>
    have hobservations : (store.admitProbe options other now).2.observations = store.observations := by
      unfold HealthStore.admitProbe
      dsimp only
      split
      · rfl
      · rfl
      · rfl
      · split <;> rfl
    rw [healthStep, hobservations]
    exact .refl ..
  | releaseProbe other token =>
    have hobservations : (store.releaseProbe other token).observations = store.observations := by
      unfold HealthStore.releaseProbe
      split
      · rfl
      · dsimp only
        split <;> rfl
    rw [healthStep, hobservations]
    exact .refl ..
  | reset other => exact forget_moved

end Moves

section Order

/-- What is held for the account is of this generation with at least these verdicts, or of a later
one. -/
def Reached (accountId : String) (generation verdicts : Nat) (observations : HealthObservations) : Prop :=
  generation ≤ observations.generation ∧ ∀ held, observations.held accountId = some held →
    generation < held.generation ∨ (generation = held.generation ∧ verdicts ≤ held.verdictVersion)

/-- What is held for the account is of a later generation. -/
def Retired (accountId : String) (generation : Nat) (observations : HealthObservations) : Prop :=
  generation ≤ observations.generation ∧ ∀ held, observations.held accountId = some held →
    generation < held.generation

variable {accountId : String} {generation verdicts : Nat} {before after : HealthObservations}

/-- The counter only grows. -/
theorem HeldMoved.counter_le (h : HeldMoved accountId before after) : before.generation ≤ after.generation := by
  cases h with
  | kept hheld hcounter => exact hcounter
  | forgotten hheld hcounter => exact hcounter
  | counted held hbefore hheld hcounter => exact hcounter
  | installed held hheld hfresh hcounter => omega

/-- No operation goes back behind a generation and its verdicts. -/
theorem HeldMoved.reached (h : HeldMoved accountId before after)
    (hreached : Reached accountId generation verdicts before) :
    Reached accountId generation verdicts after := by
  obtain ⟨hcounter, hheld⟩ := hreached
  refine ⟨hcounter.trans h.counter_le, fun now hnow => ?_⟩
  cases h with
  | kept hkept _ => exact hheld now (hkept ▸ hnow)
  | forgotten hnone _ => simp [hnone] at hnow
  | counted held hbefore hcounted _ =>
    obtain rfl := Option.some.inj (hcounted.symm.trans hnow)
    have := hheld held hbefore
    dsimp only
    omega
  | installed held hinstalled hfresh _ =>
    obtain rfl := Option.some.inj (hinstalled.symm.trans hnow)
    exact Or.inl (hcounter.trans_lt hfresh)

/-- No operation brings a retired generation back. -/
theorem HeldMoved.retired (h : HeldMoved accountId before after) (hretired : Retired accountId generation before) :
    Retired accountId generation after := by
  obtain ⟨hcounter, hheld⟩ := hretired
  refine ⟨hcounter.trans h.counter_le, fun now hnow => ?_⟩
  cases h with
  | kept hkept _ => exact hheld now (hkept ▸ hnow)
  | forgotten hnone _ => simp [hnone] at hnow
  | counted held hbefore hcounted _ =>
    obtain rfl := Option.some.inj (hcounted.symm.trans hnow)
    exact hheld held hbefore
  | installed held hinstalled hfresh _ =>
    obtain rfl := Option.some.inj (hinstalled.symm.trans hnow)
    exact hcounter.trans_lt hfresh

/-- What is retired was reached. -/
theorem Retired.reached (h : Retired accountId generation after) : Reached accountId generation verdicts after :=
  ⟨h.1, fun held hheld => Or.inl (h.2 held hheld)⟩

/-- The generations held are drawn from the counter. -/
theorem runHealth_generation_le (options : HealthStoreOptions) (ops : List HealthOp) (accountId : String) :
    ∀ held, (runHealth options ops).observations.held accountId = some held →
      held.generation ≤ (runHealth options ops).observations.generation := by
  refine runFrom_invariant (fun store : HealthStore => ∀ held, store.observations.held accountId = some held →
    held.generation ≤ store.observations.generation) (fun store op hstore held hheld => ?_) ops {} (by simp)
  have hmoved := healthStep_moved options store op accountId
  have hcounter := hmoved.counter_le
  cases hmoved with
  | kept hkept _ => exact (hstore held (hkept ▸ hheld)).trans hcounter
  | forgotten hnone _ => simp [hnone] at hheld
  | counted first hbefore hcounted _ =>
    obtain rfl := Option.some.inj (hcounted.symm.trans hheld)
    exact (hstore first hbefore).trans hcounter
  | installed first hinstalled _ hlast =>
    obtain rfl := Option.some.inj (hinstalled.symm.trans hheld)
    exact hlast

end Order

section Fence

/-- A failure or a reading that changes the account's breaker. -/
def ChangesBreaker (options : HealthStoreOptions) (accountId : String) (store : HealthStore) : HealthOp → Prop
  | .recordFailure other failure now jitter caller observation => other = accountId ∧
      ((store.recordFailure options other failure now jitter caller observation).stateOf accountId).breaker ≠
        (store.stateOf accountId).breaker
  | .applyRateLimit other signal now jitter observation => other = accountId ∧
      ((store.applyRateLimit options other signal now jitter observation).stateOf accountId).breaker ≠
        (store.stateOf accountId).breaker
  | _ => False

/-- A reset of the account, or facts installed that differ from those held. -/
def RetiresObservations (accountId : String) (store : HealthStore) : HealthOp → Prop
  | .reconcile other facts => other = accountId ∧ store.observations.installs accountId facts
  | .reset other => other = accountId
  | _ => False

variable {options : HealthStoreOptions} {store : HealthStore} {accountId : String}
  {observation : HealthObservation}

/-- A captured observation is of the generation and the verdicts held. -/
theorem captureAttempt_reached {facts : HealthAccountFacts}
    (hcounter : ∀ held, store.observations.held accountId = some held →
      held.generation ≤ store.observations.generation) :
    Reached accountId (store.captureAttempt accountId facts).1.observationGeneration
      (store.captureAttempt accountId facts).1.verdictVersion
      (store.captureAttempt accountId facts).2.observations := by
  unfold HealthStore.captureAttempt HealthObservations.capture
  dsimp only
  cases hheld : store.observations.held accountId with
  | some held =>
    simp only [Option.isSome_some, if_true, hheld, Option.map_some, Option.getD_some]
    refine ⟨hcounter held hheld, fun now hnow => ?_⟩
    obtain rfl := Option.some.inj (hheld.symm.trans hnow)
    exact Or.inr ⟨rfl, le_rfl⟩
  | none =>
    have hinstalls : store.observations.installs accountId facts := by simp [HealthObservations.installs, hheld]
    obtain ⟨held, hinstalled, hgeneration, hnext⟩ := reconcile_installed hinstalls
    simp only [Option.isSome_none, Bool.false_eq_true, if_false, hinstalled, Option.map_some, Option.getD_some]
    refine ⟨by simp only [hgeneration, hnext, le_refl], fun now hnow => ?_⟩
    obtain rfl := Option.some.inj (hinstalled.symm.trans hnow)
    exact Or.inr ⟨rfl, le_rfl⟩

/-- Counting a verdict passes every observation of before. -/
theorem Reached.advanceVerdict {generation verdicts : Nat} {observations : HealthObservations}
    (h : Reached accountId generation verdicts observations) :
    Reached accountId generation (verdicts + 1) (observations.advanceVerdict accountId) := by
  unfold HealthObservations.advanceVerdict
  cases hheld : observations.held accountId with
  | none => exact ⟨h.1, by simp [hheld]⟩
  | some held =>
    refine ⟨h.1, fun now hnow => ?_⟩
    simp only [Function.update_self, Option.some.injEq] at hnow
    have := h.2 held hheld
    rw [← hnow]
    dsimp only
    omega

/-- A change of the breaker passes every observation captured before it. -/
theorem healthStep_passes {generation verdicts : Nat} {op : HealthOp}
    (h : Reached accountId generation verdicts store.observations) (hop : ChangesBreaker options accountId store op) :
    Reached accountId generation (verdicts + 1) (healthStep options store op).observations := by
  cases op with
  | recordFailure other failure now jitter caller observation =>
    obtain ⟨rfl, hchanged⟩ := hop
    rcases @recordFailure_observations other options store failure now jitter
      caller observation with ⟨_, hkept⟩ | hcounted
    · exact absurd hkept hchanged
    · rw [healthStep, hcounted]
      exact h.advanceVerdict
  | applyRateLimit other signal now jitter observation =>
    obtain ⟨rfl, hchanged⟩ := hop
    rcases @applyRateLimit_observations other options store signal now jitter
      observation with ⟨_, hkept⟩ | hcounted
    · exact absurd hkept hchanged
    · rw [healthStep, hcounted]
      exact h.advanceVerdict
  | _ => exact hop.elim

/-- A reset and new facts retire every observation captured before them. -/
theorem healthStep_retires {generation verdicts : Nat} {op : HealthOp}
    (h : Reached accountId generation verdicts store.observations) (hop : RetiresObservations accountId store op) :
    Retired accountId generation (healthStep options store op).observations := by
  cases op with
  | reconcile other facts =>
    obtain ⟨rfl, hinstalls⟩ := hop
    obtain ⟨held, hheld, hgeneration, hcounter⟩ := reconcile_installed hinstalls
    have hle := h.1
    rw [healthStep, reconcile_observations]
    refine ⟨by omega, fun now hnow => ?_⟩
    obtain rfl := Option.some.inj (hheld.symm.trans hnow)
    omega
  | reset other =>
    obtain rfl := hop
    refine ⟨h.1, fun now hnow => ?_⟩
    simp [healthStep, HealthStore.reset, HealthStore.notify, HealthObservations.forget] at hnow
  | _ => exact hop.elim

/-- A passed observation no longer carries a success. -/
theorem recordSuccess_of_passed
    (h : Reached accountId observation.observationGeneration (observation.verdictVersion + 1) store.observations) :
    store.recordSuccess accountId (some observation) = store := by
  have hrefused : store.observations.acceptsSuccess accountId (some observation) = false := by
    unfold HealthObservations.acceptsSuccess HealthObservations.accepts
    cases hheld : store.observations.held accountId with
    | none => simp
    | some held =>
      have hreached := h.2 held hheld
      simp only [Option.any_some, Option.all_some, Option.map_some, Bool.and_eq_false_iff, beq_eq_false_iff_ne, ne_eq,
        Option.some.injEq]
      omega
  unfold HealthStore.recordSuccess
  dsimp only
  split
  · rfl
  · rw [hrefused]
    rfl

/-- A retired observation carries nothing. -/
theorem accepts_of_retired (h : Retired accountId observation.observationGeneration store.observations) :
    store.observations.accepts accountId (some observation) = false := by
  unfold HealthObservations.accepts
  cases hheld : store.observations.held accountId with
  | none => simp
  | some held =>
    have hlater := h.2 held hheld
    simp only [Option.any_some, Bool.and_eq_false_iff, beq_eq_false_iff_ne, ne_eq]
    omega

/-- Once an event of a run passes or retires what was observed, it stays so to the end of the run. -/
theorem run_of_someStep {before after : HealthObservations → Prop} {event : HealthStore → HealthOp → Prop}
    (hbefore : ∀ store op, before store.observations → before (healthStep options store op).observations)
    (hafter : ∀ store op, after store.observations → after (healthStep options store op).observations)
    (hevent : ∀ store op, before store.observations → event store op →
      after (healthStep options store op).observations)
    (ops : List HealthOp) (store : HealthStore) (hstore : before store.observations)
    (hops : SomeStep (healthStep options) event store ops) :
    after (runFrom (healthStep options) store ops).observations := by
  induction ops generalizing store with
  | nil => exact hops.elim
  | cons op rest ih =>
    rcases hops with hnow | hlater
    · exact runFrom_invariant (fun store : HealthStore => after store.observations) hafter rest _
        (hevent store op hstore hnow)
    · exact ih _ (hbefore store op hstore) hlater

/-- In every run, a success whose observation was captured before a change of the breaker, before new
facts or before a reset leaves the store as it is; after new facts or a reset a failure and a reading
leave it so too, with nothing reported. -/
theorem runHealth_observation_fenced (options : HealthStoreOptions) (first middle : List HealthOp)
    (accountId : String) (facts : HealthAccountFacts) (observation : HealthObservation) (store : HealthStore)
    (hcaptured : ((runHealth options first).captureAttempt accountId facts).1 = observation)
    (hstore : runHealth options (first ++ HealthOp.captureAttempt accountId facts :: middle) = store) :
    (SomeStep (healthStep options)
        (fun store op => ChangesBreaker options accountId store op ∨ RetiresObservations accountId store op)
        (runHealth options (first ++ [HealthOp.captureAttempt accountId facts])) middle →
      store.recordSuccess accountId (some observation) = store) ∧
    (SomeStep (healthStep options) (RetiresObservations accountId)
        (runHealth options (first ++ [HealthOp.captureAttempt accountId facts])) middle →
      (∀ failure now jitter caller,
        store.recordFailure options accountId failure now jitter caller (some observation) = store) ∧
      ∀ signal now jitter, store.applyRateLimit options accountId signal now jitter (some observation) = store) := by
  have hrun : runHealth options (first ++ [HealthOp.captureAttempt accountId facts]) =
      ((runHealth options first).captureAttempt accountId facts).2 := by
    rw [runHealth, runFrom_append]
    rfl
  have hwhole : store = runFrom (healthStep options)
      (runHealth options (first ++ [HealthOp.captureAttempt accountId facts])) middle := by
    rw [← hstore, hrun, runHealth, runFrom_append]
    rfl
  have hreached : Reached accountId observation.observationGeneration observation.verdictVersion
      (runHealth options (first ++ [HealthOp.captureAttempt accountId facts])).observations := by
    rw [hrun, ← hcaptured]
    exact captureAttempt_reached (runHealth_generation_le options first accountId)
  have hkeeps (verdicts : Nat) (store : HealthStore) (op : HealthOp)
      (h : Reached accountId observation.observationGeneration verdicts store.observations) :
      Reached accountId observation.observationGeneration verdicts (healthStep options store op).observations :=
    (healthStep_moved options store op accountId).reached h
  refine ⟨fun hevent => recordSuccess_of_passed ?_, fun hevent => ?_⟩
  · rw [hwhole]
    refine run_of_someStep (hkeeps _) (hkeeps _) (fun store op h hnow => ?_) middle _ hreached hevent
    rcases hnow with hchanges | hretires
    · exact healthStep_passes h hchanges
    · exact (healthStep_retires h hretires).reached
  · have hretired : Retired accountId observation.observationGeneration store.observations := by
      rw [hwhole]
      exact run_of_someStep (hkeeps _) (fun store op h => (healthStep_moved options store op accountId).retired h)
        (fun store op h hnow => healthStep_retires h hnow) middle _ hreached hevent
    have hrefused := accepts_of_retired hretired
    refine ⟨fun failure now jitter caller => ?_, fun signal now jitter => ?_⟩
    · unfold HealthStore.recordFailure
      rw [hrefused]
      rfl
    · cases signal with
      | none => rfl
      | some signal =>
        unfold HealthStore.applyRateLimit
        rw [hrefused]
        rfl

/-- The facts of an active account with a key. -/
def keyFacts (lifecycleVersion : Nat) : HealthAccountFacts :=
  { lifecycleVersion, healthRecoveryVersion := 1, authRecoveryVersion := 1, authMaterial := some "key"
    status := .active }

/-- The observation of an attempt that started on those facts. -/
def firstObservation : HealthObservation :=
  { keyFacts 1 with observationGeneration := 1, verdictVersion := 0, identity := 0 }

/-- A limit was reported while the attempt ran. -/
def limitedMeanwhile : List HealthOp :=
  [.recordFailure "A" { kind := .rateLimited, resetsAt := some 9000, message := "limit reached" } 1000 0 {} none]

/-- A success from before the limit leaves the cooldown, and a failure from before newer facts leaves
the account they came with. -/
theorem runHealth_observation_fenced_limited :
    (runHealth {} (.captureAttempt "A" (keyFacts 1) :: limitedMeanwhile)).recordSuccess "A" (some firstObservation) =
        runHealth {} (.captureAttempt "A" (keyFacts 1) :: limitedMeanwhile) ∧
      (runHealth {} [.captureAttempt "A" (keyFacts 1), .reconcile "A" (keyFacts 2)]).recordFailure {} "A"
          { kind := .creditsExhausted, message := "insufficient balance" } 2000 0 {} (some firstObservation) =
        runHealth {} [.captureAttempt "A" (keyFacts 1), .reconcile "A" (keyFacts 2)] := by
  refine ⟨(runHealth_observation_fenced {} [] limitedMeanwhile "A" (keyFacts 1) firstObservation _ (by decide +kernel)
    rfl).1 (Or.inl (Or.inl ⟨rfl, by decide +kernel⟩)), ?_⟩
  exact ((runHealth_observation_fenced {} [] [.reconcile "A" (keyFacts 2)] "A" (keyFacts 1) firstObservation _
    (by decide +kernel) rfl).2 (Or.inl ⟨rfl, by decide +kernel⟩)).1 _ 2000 0 {}

end Fence

end MultiAiRouter.Dataplane
