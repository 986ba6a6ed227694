import MultiAiRouter.Dataplane.BreakerRuns

/-!
# Refused re-tests

A refused key is one incident, however many answers it arrives in. While the refusal stands, other verdicts are
absorbed, and a limiter reading may only move the re-test out. Only a refusal that meets no standing one counts, and
the wait doubles with their number alone.
-/

namespace MultiAiRouter.Dataplane

open Common Routing

section Standing

variable {state : BreakerState} {now : Instant}

/-- The kinds of failure a standing refusal of a key absorbs. -/
def absorbedKinds : List FailureKind := [.auth, .rateLimited, .serverError, .connection, .timeout]

/-- A standing refusal absorbs them. -/
theorem recordFailure_absorbed (hstands : refusalStands state now) {failure : AttemptFailure}
    (hkind : failure.kind ∈ absorbedKinds) {options : BreakerOptions} (hkey : options.authKind = some .apiKey) :
    Routing.recordFailure state failure now options = none := by
  simp only [absorbedKinds, List.mem_cons, List.not_mem_nil, or_false] at hkind
  rcases hkind with hkind | hkind | hkind | hkind | hkind <;>
    simp [Routing.recordFailure, hkind, hstands, hkey, authNeedsReauth, rejectCredential]

/-- Lengthening keeps the label and the count, and moves the instant later only. -/
theorem lengthenRefusal_spec {reading : AttemptFailure} {standing : Instant}
    (hstanding : state.cooldownUntil = some standing) :
    ((lengthenRefusal state reading now).getD state).status = state.status ∧
      ∃ due, ((lengthenRefusal state reading now).getD state).cooldownUntil = some due ∧ standing ≤ due := by
  unfold lengthenRefusal
  rw [hstanding]
  split
  · next reset found hreset hfound =>
    cases hfound
    split
    · exact ⟨rfl, standing, hstanding, le_rfl⟩
    · next hlater => exact ⟨rfl, reset, rfl, le_of_not_ge hlater⟩
  · exact ⟨rfl, standing, hstanding, le_rfl⟩

/-- Borrowing a plan's reset leaves the kind of the failure. -/
theorem withPlanReset_kind (failure : AttemptFailure) (windows : List QuotaWindowState) (now : Instant)
    (maxAgeMs : Int) : (withPlanReset failure windows now maxAgeMs).kind = failure.kind := by
  unfold withPlanReset
  split
  · rfl
  · split
    · rfl
    · split <;> rfl

/-- A limited verdict cools down, unlabelled, unless a standing refusal absorbs it. -/
theorem recordFailure_rateLimited {failure : AttemptFailure} (hkind : failure.kind = .rateLimited)
    (hstands : refusalStands state now = false) (options : BreakerOptions) :
    Routing.recordFailure state failure now options =
      some (trip state failure now options (state.consecutiveFailures + 1)) := by
  simp [Routing.recordFailure, hkind, hstands]

/-- A reading leaves the label, and under a label the count. -/
theorem limitVerdict_label {account : AccountHealthState} (hrep : Represented account.breaker)
    (quotaWindows : List QuotaWindowState) (signal : RateLimitSignal) (now : Instant) (options : BreakerOptions)
    (planReadingMaxAgeMs : Int) :
    ((limitVerdict account quotaWindows signal now options planReadingMaxAgeMs).getD account.breaker).cooldownReason =
        account.breaker.cooldownReason ∧
      (account.breaker.cooldownReason.isSome → ((limitVerdict account quotaWindows signal now options
            planReadingMaxAgeMs).getD account.breaker).consecutiveFailures =
          account.breaker.consecutiveFailures) := by
  unfold limitVerdict
  split
  · exact ⟨rfl, fun _ => rfl⟩
  · split
    · exact ⟨rfl, fun _ => rfl⟩
    · -- The verdict before the label is put back: a cooldown if a label stood, unlabelled if none did.
      have hkind : (withPlanReset (limitReading signal) quotaWindows now planReadingMaxAgeMs).kind = .rateLimited :=
        withPlanReset_kind ..
      unfold keepVerdictReason
      by_cases hlabel : account.breaker.cooldownReason.isSome
      · have hcooling : ∀ moved, moved = (if refusalStands account.breaker now then
            lengthenRefusal account.breaker
              (withPlanReset (limitReading signal) quotaWindows now planReadingMaxAgeMs) now
            else Routing.recordFailure account.breaker
              (withPlanReset (limitReading signal) quotaWindows now planReadingMaxAgeMs) now options) →
            (moved.getD account.breaker).status = .coolingDown := by
          rintro moved rfl
          obtain ⟨standing, hstanding⟩ := Option.isSome_iff_exists.mp (hrep.until_iff.mpr (hrep.reason hlabel))
          split
          · exact (lengthenRefusal_spec hstanding).1.trans (hrep.reason hlabel)
          · next hstands =>
            rw [recordFailure_rateLimited hkind (by simpa using hstands), Option.getD_some]
            exact trip_status ..
        simp [Option.isNone_iff_eq_none, Option.isSome_iff_ne_none.mp hlabel, hcooling _ rfl]
      · have hunlabelled : account.breaker.cooldownReason = none := Option.not_isSome_iff_eq_none.mp hlabel
        have hstands : refusalStands account.breaker now = false := by simp [refusalStands, hunlabelled]
        simp [hunlabelled, hstands, recordFailure_rateLimited hkind hstands, trip_cooldownReason]

/-- Past its instant a labelled verdict is half open, so that the next failure trips it. -/
theorem phase_labelled (hrep : Represented state) (hlabel : state.cooldownReason.isSome)
    (hstands : refusalStands state now = false) : phase state now = .halfOpen := by
  have hcooling := hrep.reason hlabel
  obtain ⟨standing, hstanding⟩ := Option.isSome_iff_exists.mp (hrep.until_iff.mpr hcooling)
  obtain ⟨reason, hreason⟩ := Option.isSome_iff_exists.mp hlabel
  cases reason
  simpa [refusalStands, phase, hcooling, hstanding, hreason] using hstands

/-- A failure that leaves a label is an unabsorbed refusal of the key. -/
theorem recordFailure_labelled {next : BreakerState} {failure : AttemptFailure} {options : BreakerOptions}
    (hrep : Represented state) (h : Routing.recordFailure state failure now options = some next)
    (hlabel : next.cooldownReason.isSome) :
    failure.kind = .auth ∧ rejectCredential state now options = some next := by
  unfold Routing.recordFailure at h
  split at h
  · cases h
  · cases h
  · cases h
  · cases h
  · cases h
  · cases h
    cases hlabel
  · next hkind =>
    split at h
    · cases h
      cases hlabel
    · exact ⟨hkind, h⟩
  · split at h
    · cases h
    · cases h
      rw [trip_cooldownReason] at hlabel
      cases hlabel
  all_goals
    split at h
    · cases h
    · next hstands =>
      dsimp only at h
      split at h
      · next hbelow =>
        cases h
        simp [phase_labelled hrep hlabel (by simpa using hstands)] at hbelow
      · cases h
        rw [trip_cooldownReason] at hlabel
        cases hlabel

end Standing

section Counting

/-- A refusal that arrives while none stands: the first one, or a refused re-test. -/
def Retest (state : AccountHealthState) : BreakerStep → Bool
  | .failure failure now _ => failure.kind == .auth && !refusalStands state.breaker now
  | _ => false

/-- The refusals of a run that arrived while none stood. -/
def retests (state : AccountHealthState) : List BreakerStep → Nat
  | [] => 0
  | step :: rest => (if Retest state step then 1 else 0) + retests (breakerStep state step) rest

/-- The re-tests of two parts add up. -/
theorem retests_append (state : AccountHealthState) (first second : List BreakerStep) :
    retests state (first ++ second) = retests state first + retests (runFrom breakerStep state first) second := by
  induction first generalizing state with
  | nil => simp [retests]
  | cons step rest ih => simp [retests, ih, Nat.add_assoc]

/-- The account's verdict is labelled after this step. -/
def StaysRefused (state : AccountHealthState) (step : BreakerStep) : Prop :=
  (breakerStep state step).breaker.cooldownReason = some .credentialRejected

/-- A step that leaves a label counts exactly if it is a refusal no standing one absorbs. -/
theorem refusalCount_step {state : AccountHealthState} (hrep : Represented state.breaker) {step : BreakerStep}
    (hlabel : StaysRefused state step) : refusalCount (breakerStep state step).breaker =
      refusalCount state.breaker + if Retest state step then 1 else 0 := by
  have hcount : refusalCount (breakerStep state step).breaker =
      (breakerStep state step).breaker.consecutiveFailures := by
    rw [refusalCount, hlabel]
    simp
  cases step with
  | failure failure now options =>
    cases hrecorded : Routing.recordFailure state.breaker failure now options with
    | none =>
      have hkept : breakerStep state (.failure failure now options) = state := by simp [breakerStep, hrecorded]
      have hnot : Retest state (.failure failure now options) = false := by
        by_contra hretest
        simp only [Retest, Bool.not_eq_false, Bool.and_eq_true, beq_iff_eq, Bool.not_eq_true'] at hretest
        simp [Routing.recordFailure, rejectCredential, hretest.1, hretest.2] at hrecorded
        split at hrecorded <;> simp at hrecorded
      rw [hkept, hnot]
      rfl
    | some next =>
      have hnext : (breakerStep state (.failure failure now options)).breaker = next := by
        simp [breakerStep, hrecorded]
      rw [StaysRefused, hnext] at hlabel
      obtain ⟨hkind, hreject⟩ := recordFailure_labelled hrep hrecorded (by simp [hlabel])
      obtain ⟨hstands, _, _, hfailures, _⟩ := rejectCredential_some hreject
      rw [hcount, hnext, hfailures]
      simp [Retest, hkind, hstands]
  | success => simp [StaysRefused, breakerStep, Routing.recordSuccess, healthy] at hlabel
  | reading signal now options planReadingMaxAgeMs =>
    obtain ⟨hreason, hfailures⟩ := limitVerdict_label hrep
      (mergeQuotaWindows state.quotaWindows signal.quotaWindows) signal now options planReadingMaxAgeMs
    have hbefore : state.breaker.cooldownReason = some .credentialRejected := hreason.symm.trans hlabel
    rw [hcount]
    simp only [Retest, refusalCount, hbefore, Bool.false_eq_true, if_false, Nat.add_zero]
    exact hfailures (by simp [hbefore])

/-- Along a run that stays labelled the count grows by the refusals no standing one absorbed. -/
theorem refusalCount_run {state : AccountHealthState} (hrep : Represented state.breaker) (steps : List BreakerStep)
    (hlabelled : EveryStep breakerStep StaysRefused state steps) :
    refusalCount (runFrom breakerStep state steps).breaker = refusalCount state.breaker + retests state steps := by
  induction steps generalizing state with
  | nil => simp [retests]
  | cons step rest ih =>
    rw [runFrom_cons, ih ((breakerStep_moved hrep step).represented hrep) hlabelled.2,
      refusalCount_step hrep hlabelled.1, retests]
    omega

end Counting

section Incident

/-- Without jitter a whole number of milliseconds is rounded to itself. -/
theorem backoffMs_of_jitter_zero {options : BreakerOptions} (hjitter : options.jitter.getD 0 = 0) (failures : Nat) :
    backoffMs failures options = min (options.baseBackoffMs.getD defaultBaseBackoffMs * 2 ^ (failures - 1))
      (options.maxBackoffMs.getD defaultMaxBackoffMs) := by
  have hclamp : clampJitter 0 = 0 := by simp [clampJitter]
  have hround (value : Int) : roundHalfUp (value : Rat) = value := by
    change ⌊(value : Rat) + 1 / 2⌋ = value
    rw [Int.floor_eq_iff]
    constructor <;> norm_num
  unfold backoffMs
  dsimp only
  rw [hjitter, hclamp, mul_zero, add_zero, mul_one]
  exact hround _

/-- The wait that `refusals` refusals earn: doubled for each after the first, up to the cap. -/
def earnedWait (base cap : Int) (refusals : Nat) : Int := min (base * 2 ^ (refusals - 1)) (max base cap)

/-- Without jitter a refusal waits what it earns. -/
theorem refusalWait_of_jitter_zero {options : BreakerOptions} (hjitter : options.jitter.getD 0 = 0) (refusals : Nat) :
    refusalWait options refusals = earnedWait (options.authFailureCooldownMs.getD defaultAuthFailureCooldownMs)
      (options.authFailureMaxCooldownMs.getD defaultAuthFailureMaxCooldownMs) refusals := by
  unfold refusalWait
  dsimp only
  rw [backoffMs_of_jitter_zero (by simpa using hjitter)]
  rfl

/-- A reading that meets a standing refusal leaves its count and its label, and its instant or a later
one. -/
theorem breakerStep_reading_stands {state : AccountHealthState} (hrep : Represented state.breaker)
    (signal : RateLimitSignal) (now : Instant) (options : BreakerOptions) (planReadingMaxAgeMs : Int)
    {standing : Instant} (hstands : refusalStands state.breaker now)
    (hstanding : state.breaker.cooldownUntil = some standing) :
    (breakerStep state (.reading signal now options planReadingMaxAgeMs)).breaker.consecutiveFailures =
        state.breaker.consecutiveFailures ∧
      (breakerStep state (.reading signal now options planReadingMaxAgeMs)).breaker.cooldownReason =
        some .credentialRejected ∧
      ∃ due, (breakerStep state (.reading signal now options planReadingMaxAgeMs)).breaker.cooldownUntil =
        some due ∧ standing ≤ due := by
  have hlabel : state.breaker.cooldownReason = some .credentialRejected := by
    simp only [refusalStands, Bool.and_eq_true, beq_iff_eq] at hstands
    exact hstands.1
  obtain ⟨hreason, hfailures⟩ := limitVerdict_label hrep
    (mergeQuotaWindows state.quotaWindows signal.quotaWindows) signal now options planReadingMaxAgeMs
  have hmoved := breakerStep_moved hrep (.reading signal now options planReadingMaxAgeMs)
  have hafter : (breakerStep state (.reading signal now options planReadingMaxAgeMs)).breaker.cooldownReason =
      some .credentialRejected := hreason.trans hlabel
  have hcooling := (hmoved.represented hrep).reason (by simp [hafter])
  exact ⟨hfailures (by simp [hlabel]), hafter, hmoved.never_shorter hrep hcooling hstanding⟩

/-- A refusal of the key that no standing one absorbs sets the wait its number earns. -/
theorem breakerStep_retest {state : AccountHealthState} (hrep : Represented state.breaker) {failure : AttemptFailure}
    {now : Instant} {options : BreakerOptions} (hkind : failure.kind = .auth)
    (hkey : options.authKind = some .apiKey) (hjitter : options.jitter.getD 0 = 0)
    (hstands : refusalStands state.breaker now = false) :
    (breakerStep state (.failure failure now options)).breaker.cooldownReason = some .credentialRejected ∧
      (breakerStep state (.failure failure now options)).breaker.consecutiveFailures =
        refusalCount state.breaker + 1 ∧
      (breakerStep state (.failure failure now options)).breaker.cooldownUntil =
        some (laterOf state.breaker.cooldownUntil
          (now + earnedWait (options.authFailureCooldownMs.getD defaultAuthFailureCooldownMs)
            (options.authFailureMaxCooldownMs.getD defaultAuthFailureMaxCooldownMs)
            (refusalCount state.breaker + 1))) := by
  obtain ⟨next, hnext⟩ : ∃ next, rejectCredential state.breaker now options = some next := by
    unfold rejectCredential
    rw [hstands]
    exact ⟨_, rfl⟩
  have hrecorded : Routing.recordFailure state.breaker failure now options = some next := by
    simp [Routing.recordFailure, hkind, hkey, authNeedsReauth, hnext]
  obtain ⟨_, _, hlabel, hfailures, huntil⟩ := rejectCredential_some hnext
  rw [breakerStep, hrecorded, Option.getD_some]
  refine ⟨hlabel, hfailures, ?_⟩
  rw [huntil, hrep.existingCooldown_eq, refusalWait_of_jitter_zero hjitter]

/-- In every run, a refused key is one incident. While the refusal stands the failures a key's answers
bring change nothing, and a reading moves the instant later only. The `k`-th refusal that met no
standing one waits for what `k` refusals earn, or longer. -/
theorem runBreaker_one_incident (start : AccountHealthState) (before : List BreakerStep) :
    (∀ (failure : AttemptFailure) (now : Instant) (options : BreakerOptions),
      refusalStands (runBreaker start before).breaker now →
      failure.kind ∈ absorbedKinds → options.authKind = some AuthKind.apiKey →
      runBreaker start (before ++ [BreakerStep.failure failure now options]) = runBreaker start before) ∧
    (∀ (signal : RateLimitSignal) (now : Instant) (options : BreakerOptions) planReadingMaxAgeMs standing,
      refusalStands (runBreaker start before).breaker now →
      (runBreaker start before).breaker.cooldownUntil = some standing →
      (runBreaker start (before ++
        [BreakerStep.reading signal now options planReadingMaxAgeMs])).breaker.consecutiveFailures =
          (runBreaker start before).breaker.consecutiveFailures ∧
        (runBreaker start (before ++
          [BreakerStep.reading signal now options planReadingMaxAgeMs])).breaker.cooldownReason =
          some .credentialRejected ∧
        ∃ due, (runBreaker start
          (before ++ [BreakerStep.reading signal now options planReadingMaxAgeMs])).breaker.cooldownUntil =
          some due ∧ standing ≤ due) ∧
    ∀ (steps : List BreakerStep) (failure : AttemptFailure) (now : Instant) (options : BreakerOptions) base cap k,
      (runBreaker start before).breaker.cooldownReason = none →
      EveryStep breakerStep StaysRefused (runBreaker start before) steps →
      failure.kind = FailureKind.auth → options.authKind = some AuthKind.apiKey → options.jitter.getD 0 = 0 →
      options.authFailureCooldownMs.getD defaultAuthFailureCooldownMs = base →
      options.authFailureMaxCooldownMs.getD defaultAuthFailureMaxCooldownMs = cap →
      refusalStands (runBreaker start (before ++ steps)).breaker now = false →
      retests (runBreaker start before) (steps ++ [BreakerStep.failure failure now options]) = k →
      (runBreaker start (before ++ steps ++
        [BreakerStep.failure failure now options])).breaker.consecutiveFailures = k ∧
        (runBreaker start (before ++ steps ++ [BreakerStep.failure failure now options])).breaker.cooldownReason =
          some .credentialRejected ∧
        (runBreaker start (before ++ steps ++ [BreakerStep.failure failure now options])).breaker.cooldownUntil =
          some (laterOf (runBreaker start (before ++ steps)).breaker.cooldownUntil
            (now + min (base * 2 ^ (k - 1)) (max base cap))) := by
  have hrep := runBreaker_represented start before
  have hlast (steps : List BreakerStep) (step : BreakerStep) :
      runBreaker start (steps ++ [step]) = breakerStep (runBreaker start steps) step := by
    rw [runBreaker, runFrom_append, runFrom_cons, runFrom_nil]
    rfl
  refine ⟨?_, ?_, ?_⟩
  · intro failure now options hstands hkind hkey
    rw [hlast, breakerStep, recordFailure_absorbed hstands hkind hkey]
    rfl
  · intro signal now options planReadingMaxAgeMs standing hstands hstanding
    rw [hlast]
    exact breakerStep_reading_stands hrep signal now options planReadingMaxAgeMs hstands hstanding
  · rintro steps failure now options _ _ _ hunlabelled hlabelled hkind hkey hjitter rfl rfl hstands rfl
    have hreached : runBreaker start (before ++ steps) = runFrom breakerStep (runBreaker start before) steps :=
      runFrom_append ..
    have hcount : retests (runBreaker start before) (steps ++ [BreakerStep.failure failure now options]) =
        refusalCount (runBreaker start (before ++ steps)).breaker + 1 := by
      rw [retests_append, ← hreached, hreached, refusalCount_run hrep steps hlabelled, ← hreached]
      simp [retests, Retest, hkind, hstands, refusalCount, hunlabelled]
    obtain ⟨hlabel, hfailures, huntil⟩ := breakerStep_retest (runBreaker_represented start (before ++ steps))
      hkind hkey hjitter hstands
    rw [hlast, hcount]
    exact ⟨hfailures, hlabel, huntil⟩

/-- The key is refused at `now`. -/
def refusedAt (now : Instant) : BreakerStep :=
  .failure { kind := .auth, message := "invalid key" } now { authKind := some .apiKey, jitter := some 0 }

/-- The first refusal, and what else was in flight when it landed. -/
def refusedRun : List BreakerStep :=
  [refusedAt 0, .failure { kind := .serverError, message := "bad gateway" } 100 { authKind := some .apiKey },
    refusedAt 1000]

/-- Fifteen minutes after the first refusal the re-test is refused, and the next is due after thirty. -/
theorem runBreaker_one_incident_retest :
    (runBreaker freshHealth ([refusedAt 0] ++ [refusedAt 1000])) = runBreaker freshHealth [refusedAt 0] ∧
      (∃ due, (runBreaker freshHealth ([refusedAt 0] ++
        [BreakerStep.reading { limited := true, resetsAt := some 5000, resetSource := .providerReported } 2000 {}
          0])).breaker.cooldownUntil = some due ∧ 900000 ≤ due) ∧
      (runBreaker freshHealth ([] ++ refusedRun ++ [refusedAt 900000])).breaker.cooldownUntil = some 2700000 := by
  refine ⟨(runBreaker_one_incident freshHealth [refusedAt 0]).1 _ _ _ (by decide +kernel) (by decide +kernel) rfl,
    ((runBreaker_one_incident freshHealth [refusedAt 0]).2.1 _ _ _ _ 900000 (by decide +kernel)
      (by decide +kernel)).2.2, ?_⟩
  have hlabelled : EveryStep breakerStep StaysRefused (runBreaker freshHealth []) refusedRun := by
    unfold StaysRefused
    decide +kernel
  exact ((runBreaker_one_incident freshHealth []).2.2 refusedRun _ 900000 _ 900000 14400000 2 rfl hlabelled rfl rfl
    rfl rfl rfl (by decide +kernel) (by decide +kernel)).2.2.trans (by decide +kernel)

end Incident

end MultiAiRouter.Dataplane
