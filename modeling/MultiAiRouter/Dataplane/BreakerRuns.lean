import MultiAiRouter.Dataplane.Health

/-!
# Runs of the breaker

One account's verdict under failures, successes and limiter readings in any order, on any clocks. A
transition leaves a cooldown's instant or a later one, or ends it; that a cooldown is never
shortened follows.
-/

namespace MultiAiRouter.Dataplane

open Common Routing

/-- What moves an account's verdict. -/
inductive BreakerStep
  | failure (failure : AttemptFailure) (now : Instant) (options : BreakerOptions)
  | success
  | reading (signal : RateLimitSignal) (now : Instant) (options : BreakerOptions) (planReadingMaxAgeMs : Int)

/-- The account after one step. -/
def breakerStep (state : AccountHealthState) : BreakerStep → AccountHealthState
  | .failure failure now options =>
    { state with breaker := (Routing.recordFailure state.breaker failure now options).getD state.breaker }
  | .success => { state with breaker := Routing.recordSuccess }
  | .reading signal now options planReadingMaxAgeMs =>
    foldRateLimit state signal now options planReadingMaxAgeMs

/-- The account after these steps on a healthy verdict. -/
def runBreaker (start : AccountHealthState) (steps : List BreakerStep) : AccountHealthState :=
  runFrom breakerStep { start with breaker := healthy } steps

section Moves

/-- The later of an instant that may stand and a new one. -/
def laterOf (standing : Option Instant) (deadline : Instant) : Instant :=
  (standing.map fun existing => max existing deadline).getD deadline

theorem le_laterOf {standing : Option Instant} {existing : Instant} (h : standing = some existing)
    (deadline : Instant) : existing ≤ laterOf standing deadline := by
  simp [laterOf, h]

/-- A standing instant that is not before the deadline is kept, else the deadline is taken. -/
theorem getD_filter_eq_laterOf (standing : Option Instant) (deadline : Instant) :
    (standing.filter fun existing => decide (deadline ≤ existing)).getD deadline = laterOf standing deadline := by
  cases standing with
  | none => rfl
  | some existing =>
    by_cases hle : deadline ≤ existing
    · simp [laterOf, Option.filter, hle]
    · simp [laterOf, Option.filter, hle, le_of_not_ge hle]

/-- What can become of a verdict: its cooldown is left alone, is replaced by one that ends no
earlier, or is over. -/
inductive Moved (before : BreakerState) : BreakerState → Prop
  | kept (count : Nat) : Moved before { before with consecutiveFailures := count }
  | cooled {after : BreakerState} (deadline : Instant) (hstatus : after.status = .coolingDown)
      (huntil : after.cooldownUntil = some (laterOf (existingCooldown before) deadline)) : Moved before after
  | ended {after : BreakerState} (hstatus : after.status ≠ .coolingDown) (huntil : after.cooldownUntil = none)
      (hreason : after.cooldownReason = none) : Moved before after

variable {state next : BreakerState} {failure : AttemptFailure} {now : Instant} {options : BreakerOptions}

/-- Tripping cools down until the new deadline or the standing instant, whichever is later. -/
theorem trip_cooldownUntil (state : BreakerState) (failure : AttemptFailure) (now : Instant)
    (options : BreakerOptions) (failures : Nat) :
    (trip state failure now options failures).cooldownUntil = some (laterOf (existingCooldown state)
      ((reportedReset failure now).getD (now + backoffMs failures options))) := by
  unfold trip laterOf
  cases existingCooldown state with
  | none => rfl
  | some existing =>
    dsimp only
    split
    · next hle => simp [max_eq_left hle]
    · next hlt => simp [max_eq_right (le_of_not_ge hlt)]

/-- Tripping leaves the verdict unlabelled. -/
theorem trip_cooldownReason (state : BreakerState) (failure : AttemptFailure) (now : Instant)
    (options : BreakerOptions) (failures : Nat) :
    (trip state failure now options failures).cooldownReason = none := by
  unfold trip
  dsimp only
  split
  · split <;> rfl
  · rfl

theorem trip_moved (state : BreakerState) (failure : AttemptFailure) (now : Instant)
    (options : BreakerOptions) (failures : Nat) : Moved state (trip state failure now options failures) :=
  .cooled _ (trip_status ..) (trip_cooldownUntil ..)

/-- The refusals a verdict counts: its streak while it is labelled. -/
def refusalCount (state : BreakerState) : Nat :=
  if state.cooldownReason == some .credentialRejected then state.consecutiveFailures else 0

/-- How long a refusal sits out before its re-test. -/
def refusalWait (options : BreakerOptions) (refusals : Nat) : Int :=
  let base := options.authFailureCooldownMs.getD defaultAuthFailureCooldownMs
  let cap := max base (options.authFailureMaxCooldownMs.getD defaultAuthFailureMaxCooldownMs)
  backoffMs refusals { baseBackoffMs := some base, maxBackoffMs := some cap, jitter := some (options.jitter.getD 0) }

/-- A refusal that no standing one absorbs labels the verdict, counts it, and waits for the later of its own
deadline and the standing instant. -/
theorem rejectCredential_some (h : rejectCredential state now options = some next) :
    refusalStands state now = false ∧ next.status = .coolingDown ∧
      next.cooldownReason = some .credentialRejected ∧ next.consecutiveFailures = refusalCount state + 1 ∧
      next.cooldownUntil = some (laterOf (existingCooldown state)
        (now + refusalWait options (refusalCount state + 1))) := by
  unfold rejectCredential at h
  split at h
  · cases h
  · next hstands =>
    cases h
    refine ⟨by simpa using hstands, rfl, rfl, rfl, ?_⟩
    exact congrArg some (getD_filter_eq_laterOf (existingCooldown state)
      (now + refusalWait options (refusalCount state + 1)))

/-- A failure leaves a cooldown alone, replaces it by one that ends no earlier, or ends it. -/
theorem recordFailure_moved (h : Routing.recordFailure state failure now options = some next) :
    Moved state next := by
  unfold Routing.recordFailure at h
  split at h
  · cases h
  · cases h
  · cases h
  · cases h
  · cases h
  · cases h
    exact .ended (by simp [terminal]) rfl rfl
  · split at h
    · cases h
      exact .ended (by simp [terminal]) rfl rfl
    · obtain ⟨_, hstatus, _, _, huntil⟩ := rejectCredential_some h
      exact .cooled _ hstatus huntil
  · split at h
    · cases h
    · cases h
      exact trip_moved ..
  all_goals
    split at h
    · cases h
    · dsimp only at h
      split at h
      · cases h
        exact .kept _
      · cases h
        exact trip_moved ..

end Moves

section Representation

/-- An instant exactly on a cooldown, and a label only there. -/
structure Represented (state : BreakerState) : Prop where
  until_iff : state.cooldownUntil.isSome ↔ state.status = .coolingDown
  reason : state.cooldownReason.isSome → state.status = .coolingDown

theorem represented_healthy : Represented healthy := ⟨by simp [healthy], by simp [healthy]⟩

variable {before after state next : BreakerState} {now : Instant}

theorem Represented.status_of_refusalStands (h : Represented state) (hstands : refusalStands state now) :
    state.status = .coolingDown := by
  refine h.reason ?_
  simp only [refusalStands, Bool.and_eq_true, beq_iff_eq] at hstands
  simp [hstands.1]

/-- Under a represented verdict the standing cooldown is its instant. -/
theorem Represented.existingCooldown_eq (h : Represented state) : existingCooldown state = state.cooldownUntil := by
  unfold existingCooldown
  split
  · rfl
  · next hstatus =>
    have huntil : ¬ state.cooldownUntil.isSome := fun hsome => hstatus (h.until_iff.mp hsome)
    exact (Option.not_isSome_iff_eq_none.mp huntil).symm

/-- A verdict that moved is represented if it was. -/
theorem Moved.represented (h : Moved before after) (hbefore : Represented before) : Represented after := by
  cases h with
  | kept count => exact ⟨hbefore.until_iff, hbefore.reason⟩
  | cooled deadline hstatus huntil => exact ⟨by simp [hstatus, huntil], fun _ => hstatus⟩
  | ended hstatus huntil hreason => exact ⟨by simp [hstatus, huntil], by simp [hreason]⟩

/-- A cooldown that is still one afterwards ends no earlier. -/
theorem Moved.never_shorter (h : Moved before after) (hbefore : Represented before)
    (hcooling : after.status = .coolingDown) {standing : Instant} (hstanding : before.cooldownUntil = some standing) :
    ∃ due, after.cooldownUntil = some due ∧ standing ≤ due := by
  cases h with
  | kept count => exact ⟨standing, hstanding, le_rfl⟩
  | cooled deadline hstatus huntil =>
    exact ⟨_, huntil, le_laterOf (hbefore.existingCooldown_eq.trans hstanding) deadline⟩
  | ended hstatus huntil hreason => exact absurd hcooling hstatus

/-- Lengthening a standing refusal is a cooldown that ends later. -/
theorem lengthenRefusal_moved {reading : AttemptFailure} (hcooling : state.status = .coolingDown)
    (h : lengthenRefusal state reading now = some next) : Moved state next := by
  unfold lengthenRefusal at h
  split at h
  · next reset standing hreset hstanding =>
    split at h
    · cases h
    · next hlater =>
      cases h
      refine .cooled reset hcooling ?_
      simp [laterOf, existingCooldown, hcooling, hstanding, le_of_not_ge hlater]
  · cases h

/-- Keeping the label of a verdict moves it no further. -/
theorem keepVerdictReason_moved {moved : Option BreakerState} (h : Moved before (moved.getD before)) :
    Moved before ((keepVerdictReason before moved).getD before) := by
  unfold keepVerdictReason
  split
  · exact h
  · next hkeep =>
    simp only [Bool.or_eq_true, not_or, Bool.not_eq_true, bne_eq_false_iff_eq] at hkeep
    generalize hnext : moved.getD before = next at h hkeep
    rw [Option.getD_some]
    cases h with
    | kept count => exact .kept _
    | cooled deadline hstatus huntil => exact .cooled deadline hstatus huntil
    | ended hstatus huntil hreason => exact absurd hkeep.2 hstatus

/-- What a reading makes of a verdict is one of its moves. -/
theorem limitVerdict_moved {account : AccountHealthState} (hbefore : Represented account.breaker)
    (quotaWindows : List QuotaWindowState) (signal : RateLimitSignal) (now : Instant) (options : BreakerOptions)
    (planReadingMaxAgeMs : Int) : Moved account.breaker
      ((limitVerdict account quotaWindows signal now options planReadingMaxAgeMs).getD account.breaker) := by
  unfold limitVerdict
  split
  · exact .kept _
  · split
    · exact .kept _
    · refine keepVerdictReason_moved ?_
      split
      · next hstands =>
        cases hlong : lengthenRefusal account.breaker
            (withPlanReset (limitReading signal) quotaWindows now planReadingMaxAgeMs) now with
        | none => exact .kept _
        | some next => exact lengthenRefusal_moved (hbefore.status_of_refusalStands hstands) hlong
      · cases hrecorded : Routing.recordFailure account.breaker
            (withPlanReset (limitReading signal) quotaWindows now planReadingMaxAgeMs) now options with
        | none => exact .kept _
        | some next => exact recordFailure_moved hrecorded

/-- Every step moves the verdict. -/
theorem breakerStep_moved {state : AccountHealthState} (h : Represented state.breaker) (step : BreakerStep) :
    Moved state.breaker (breakerStep state step).breaker := by
  cases step with
  | failure failure now options =>
    cases hrecorded : Routing.recordFailure state.breaker failure now options with
    | none =>
      rw [breakerStep, hrecorded]
      exact .kept _
    | some next =>
      rw [breakerStep, hrecorded]
      exact recordFailure_moved hrecorded
  | success => exact .ended (by simp [breakerStep, Routing.recordSuccess, healthy]) rfl rfl
  | reading signal now options planReadingMaxAgeMs =>
      exact limitVerdict_moved h _ signal now options planReadingMaxAgeMs

/-- Every verdict of a run is represented. -/
theorem run_represented {state : AccountHealthState} (h : Represented state.breaker) (steps : List BreakerStep) :
    Represented (runFrom breakerStep state steps).breaker :=
  runFrom_invariant (fun state : AccountHealthState => Represented state.breaker)
    (fun _ step h => (breakerStep_moved h step).represented h) steps state h

theorem runBreaker_represented (start : AccountHealthState) (steps : List BreakerStep) :
    Represented (runBreaker start steps).breaker :=
  run_represented represented_healthy steps

end Representation

section NeverShorten

/-- The account cools down after this step. -/
def StaysCooling (state : AccountHealthState) (step : BreakerStep) : Prop :=
  (breakerStep state step).breaker.status = .coolingDown

/-- Along a run that stays cooling the instant moves later only. -/
theorem run_never_shorter {state : AccountHealthState} (h : Represented state.breaker) (steps : List BreakerStep)
    (hsteps : EveryStep breakerStep StaysCooling state steps) {standing : Instant}
    (hstanding : state.breaker.cooldownUntil = some standing) :
    ∃ due, (runFrom breakerStep state steps).breaker.cooldownUntil = some due ∧ standing ≤ due := by
  refine (runFrom_invariant_of_everyStep (fun state : AccountHealthState => Represented state.breaker ∧
      ∃ due, state.breaker.cooldownUntil = some due ∧ standing ≤ due)
    (fun state step hstate hcooling => ?_) steps state ⟨h, standing, hstanding, le_rfl⟩ hsteps).2
  obtain ⟨hrep, due, hdue, hle⟩ := hstate
  have hmoved := breakerStep_moved hrep step
  obtain ⟨later, hlater, hdue_le⟩ := hmoved.never_shorter hrep hcooling hdue
  exact ⟨hmoved.represented hrep, later, hlater, hle.trans hdue_le⟩

/-- A limit the provider reported with the instant it lifts. -/
def ReportsReset (now : Instant) (failure : AttemptFailure) : Prop :=
  failure.kind = .rateLimited ∧ (reportedReset failure now).isSome

/-- These reported limits, recorded one after the other at one instant. -/
def reportSteps (now : Instant) (reports : List (AttemptFailure × BreakerOptions)) : List BreakerStep :=
  reports.map fun report => .failure report.1 now report.2

/-- A reported limit on an unlabelled verdict takes the later of its reset and the standing instant,
and leaves the verdict unlabelled. -/
theorem breakerStep_report {state : AccountHealthState} (h : Represented state.breaker) {now : Instant}
    {failure : AttemptFailure} {reset : Instant} (hkind : failure.kind = .rateLimited)
    (hreset : reportedReset failure now = some reset) (hunlabelled : state.breaker.cooldownReason = none)
    (options : BreakerOptions) : (breakerStep state (.failure failure now options)).breaker.cooldownUntil =
        some (laterOf state.breaker.cooldownUntil reset) ∧
      (breakerStep state (.failure failure now options)).breaker.cooldownReason = none := by
  have hstands : refusalStands state.breaker now = false := by simp [refusalStands, hunlabelled]
  have htrip : Routing.recordFailure state.breaker failure now options =
      some (trip state.breaker failure now options (state.breaker.consecutiveFailures + 1)) := by
    simp [Routing.recordFailure, hkind, hstands]
  rw [breakerStep, htrip, Option.getD_some]
  refine ⟨?_, trip_cooldownReason ..⟩
  rw [trip_cooldownUntil, hreset, h.existingCooldown_eq, Option.getD_some]

/-- Recorded in any order, the reported limits leave the latest of their resets and the instant that
stood before them. -/
theorem run_reports {state : AccountHealthState} (h : Represented state.breaker) (now : Instant)
    (reports : List (AttemptFailure × BreakerOptions)) (hreports : ∀ report ∈ reports, ReportsReset now report.1)
    (hunlabelled : state.breaker.cooldownReason = none) :
    (runFrom breakerStep state (reportSteps now reports)).breaker.cooldownUntil =
      (state.breaker.cooldownUntil.toList ++ reports.filterMap fun report => reportedReset report.1 now).max? := by
  induction reports generalizing state with
  | nil =>
    cases huntil : state.breaker.cooldownUntil with
    | none => simpa [reportSteps] using huntil
    | some standing => simpa [reportSteps] using huntil
  | cons report rest ih =>
    obtain ⟨hkind, hsome⟩ := hreports report (List.mem_cons_self ..)
    obtain ⟨reset, hreset⟩ := Option.isSome_iff_exists.mp hsome
    obtain ⟨huntil, hnext⟩ := breakerStep_report h hkind hreset hunlabelled report.2
    have hrest := ih ((breakerStep_moved h (.failure report.1 now report.2)).represented h)
      (fun other hother => hreports other (List.mem_cons_of_mem _ hother)) hnext
    rw [huntil] at hrest
    rw [reportSteps, List.map_cons, runFrom_cons, ← reportSteps, hrest, List.filterMap_cons, hreset]
    cases state.breaker.cooldownUntil with
    | none => rfl
    | some standing => rfl

/-- The verdict of a run has an instant exactly while it cools down and a label only there; while it
stays cooling the instant never moves earlier; and limits reported at one instant, in any order, leave
an unlabelled verdict waiting for the latest of their resets and the instant that stood. -/
theorem runBreaker_never_shortens (start : AccountHealthState) (steps : List BreakerStep) :
    (((runBreaker start steps).breaker.cooldownUntil.isSome ↔
          (runBreaker start steps).breaker.status = .coolingDown) ∧
        ((runBreaker start steps).breaker.cooldownReason.isSome →
          (runBreaker start steps).breaker.status = .coolingDown)) ∧
      (∀ later standing, EveryStep breakerStep StaysCooling (runBreaker start steps) later →
        (runBreaker start steps).breaker.cooldownUntil = some standing →
        ∃ due, (runBreaker start (steps ++ later)).breaker.cooldownUntil = some due ∧ standing ≤ due) ∧
      ∀ (now : Instant) (reports : List (AttemptFailure × BreakerOptions)),
        (∀ report ∈ reports, ReportsReset now report.1) →
        (runBreaker start steps).breaker.cooldownReason = none →
        (runBreaker start (steps ++ reportSteps now reports)).breaker.cooldownUntil =
          ((runBreaker start steps).breaker.cooldownUntil.toList ++
            reports.filterMap fun report => reportedReset report.1 now).max? := by
  have hrep := runBreaker_represented start steps
  refine ⟨⟨hrep.until_iff, hrep.reason⟩, ?_, ?_⟩
  · intro later standing hlater hstanding
    rw [runBreaker, runFrom_append]
    exact run_never_shorter hrep later hlater hstanding
  · intro now reports hreports hunlabelled
    rw [runBreaker, runFrom_append]
    exact run_reports hrep now reports hreports hunlabelled

/-- A limit that lifts at this instant. -/
def limitUntil (reset : Instant) : AttemptFailure :=
  { kind := .rateLimited, resetsAt := some reset, message := "limit reached" }

/-- The account was limited until `9000`. -/
def limitedRun : List BreakerStep := [.failure (limitUntil 9000) 1000 {}]

/-- A shorter reading shortens nothing, and of two limits reported together the longer one stands. -/
theorem runBreaker_never_shortens_limited : (∃ due, (runBreaker freshHealth (limitedRun ++
        [BreakerStep.reading { limited := true, resetsAt := some 5000, resetSource := .providerReported } 2000 {}
          0])).breaker.cooldownUntil =
          some due ∧ 9000 ≤ due) ∧
      (runBreaker freshHealth (limitedRun ++
        reportSteps 2000 [(limitUntil 12000, {}), (limitUntil 4000, {})])).breaker.cooldownUntil = some 12000 := by
  refine ⟨(runBreaker_never_shortens freshHealth limitedRun).2.1 _ 9000 ⟨?_, trivial⟩ (by decide +kernel), ?_⟩
  · unfold StaysCooling
    decide +kernel
  · rw [(runBreaker_never_shortens freshHealth limitedRun).2.2 2000 _ ?_ (by decide +kernel)]
    · decide +kernel
    · unfold ReportsReset
      decide +kernel

end NeverShorten

end MultiAiRouter.Dataplane
