import MultiAiRouter.Dataplane.Chain

/-!
# What one turn of the failover chain can do

An inversion of the loop's step: a running loop halts without a decision, drops the candidate, folds an invalid
request or a failed attempt in, or ends after an attempt.
-/

namespace MultiAiRouter.Dataplane

open Common Routing

/-- The planner names this candidate in this state, by a new attempt or a retry in place. -/
def Plans (ctx : ChainContext) (state : ChainState) (decision : FailoverDecision) (candidate : Candidate) : Prop :=
  planNextAttempt state.ordered state.progress state.lastFailure ctx.failover = decision ∧
    ((∃ attempt invalidateBinding sessionRestart,
        decision = .attempt candidate attempt invalidateBinding sessionRestart) ∨
      ∃ attempt delayMs, decision = .retryInPlace candidate attempt delayMs)

/-- What the upstream answers this candidate's attempt with, when the turn gets that far and fails. -/
def Turn.answered (turn : Turn) (candidate : Candidate) : Option FailureKind :=
  if turn.aborted || (candidate.halfOpen && !turn.probeAdmitted) then none
  else
    match turn.body, turn.dispatched with
    | .built, .failure failure true => some failure.kind
    | _, _ => none

/-- The moves of a running loop. -/
inductive ChainMove (ctx : ChainContext) (state : ChainState) (turn : Turn) : ChainState → Prop
  | halted (result : ChainResult)
      (hresult : ∀ reason, result = .stopped reason →
        planNextAttempt state.ordered state.progress state.lastFailure ctx.failover = .stop reason)
      (hunplanned : result = .unplanned → ∃ decision candidate, Plans ctx state decision candidate ∧
        candidate.account.id ∉ ctx.plan.map fun planned => planned.account.id) :
      ChainMove ctx state turn { state with result := some result }
  | dropped (decision : FailoverDecision) (candidate : Candidate) (settled : Settled)
      (hplans : Plans ctx state decision candidate) (hsettled : settled = .refused ∨ settled = .unprepared) :
      ChainMove ctx state turn (state.dropped decision candidate settled)
  | invalidated (decision : FailoverDecision) (candidate : Candidate) (message : String)
      (hplans : Plans ctx state decision candidate) :
      ChainMove ctx state turn (state.invalidated decision candidate message)
  | failed (decision : FailoverDecision) (candidate : Candidate) (failure : AttemptFailure)
      (hplans : Plans ctx state decision candidate) (hanswered : turn.answered candidate = some failure.kind) :
      ChainMove ctx state turn (state.failedWith ctx decision candidate failure)
  | concluded (decision : FailoverDecision) (candidate : Candidate) (settled : Settled) (result : ChainResult)
      (progress : FailoverProgress) (hplans : Plans ctx state decision candidate)
      (hsettled : settled = .served ∨ settled = .ended) (hresult : result.exhausted = false)
      (hprogress : progress = state.counted decision candidate ∨
        progress = markStreamed (state.counted decision candidate)) :
      ChainMove ctx state turn { state.over decision candidate settled result with progress }

variable {ctx : ChainContext} {state : ChainState}

/-- Sending an admitted attempt is one of the moves. -/
theorem dispatchTurn_move {decision : FailoverDecision} {candidate : Candidate} {turn : Turn}
    (hplans : Plans ctx state decision candidate)
    (hadmitted : (turn.aborted || (candidate.halfOpen && !turn.probeAdmitted)) = false) :
    ChainMove ctx state turn (dispatchTurn ctx state decision candidate turn) := by
  unfold dispatchTurn
  split
  · exact .concluded decision candidate .ended .threw _ hplans (Or.inr rfl) rfl (Or.inl rfl)
  · exact .invalidated decision candidate _ hplans
  · exact .dropped decision candidate .unprepared hplans (Or.inr rfl)
  · exact .dropped decision candidate .refused hplans (Or.inl rfl)
  · split
    · exact .invalidated decision candidate _ hplans
    · exact .dropped decision candidate .unprepared hplans (Or.inr rfl)
  · next failure hbody hdispatched =>
    refine .failed decision candidate failure hplans ?_
    unfold Turn.answered
    rw [if_neg (by simp [hadmitted]), hbody, hdispatched]
  · exact .concluded decision candidate .served _ _ hplans (Or.inl rfl) rfl (Or.inr rfl)
  · exact .concluded decision candidate .ended .cancelled _ hplans (Or.inr rfl) rfl (Or.inl rfl)

/-- Admitting a planned attempt is one of the moves. -/
theorem admitTurn_move {decision : FailoverDecision} {candidate : Candidate} {turn : Turn}
    (hplans : Plans ctx state decision candidate) (habort : ¬ turn.aborted) :
    ChainMove ctx state turn (admitTurn ctx state decision candidate turn) := by
  unfold admitTurn
  split
  · next hplanned =>
    refine .halted .unplanned (by simp) fun _ => ⟨decision, candidate, hplans, ?_⟩
    simpa only [Bool.not_eq_true', decide_eq_false_iff_not] using hplanned
  · split
    · exact .dropped decision candidate .refused hplans (Or.inl rfl)
    · next hprobe => exact dispatchTurn_move hplans (by simpa [habort] using hprobe)

/-- A running loop takes one of the moves. -/
theorem chainStep_move (hrunning : state.result = none) (turn : Turn) :
    ChainMove ctx state turn (chainStep ctx state turn) := by
  unfold chainStep
  rw [if_neg (by simp [hrunning])]
  split
  · exact .halted .cancelled (by simp) (by simp)
  · next habort =>
    split
    · next reason hplan =>
      refine .halted (.stopped reason) ?_ (by simp)
      rintro _ ⟨rfl⟩
      exact hplan
    · next candidate attempt invalidateBinding sessionRestart hplan =>
      exact admitTurn_move ⟨hplan, Or.inl ⟨attempt, invalidateBinding, sessionRestart, rfl⟩⟩ habort
    · next candidate attempt delayMs hplan =>
      exact admitTurn_move ⟨hplan, Or.inr ⟨attempt, delayMs, rfl⟩⟩ habort

/-- A finished loop stays as it is. -/
theorem chainStep_finished (hfinished : state.result.isSome) (turn : Turn) : chainStep ctx state turn = state := by
  unfold chainStep
  rw [if_pos hfinished]

/-- What every move of a running loop preserves under a condition, every turn that meets it preserves. -/
theorem chainStep_invariant (invariant : ChainState → Prop) (condition : ChainState → Turn → Prop)
    (hmove : ∀ state turn next, invariant state → state.result = none → condition state turn →
      ChainMove ctx state turn next → invariant next) (state : ChainState) (turn : Turn) (h : invariant state)
    (hcondition : condition state turn) : invariant (chainStep ctx state turn) := by
  cases hresult : state.result with
  | none => exact hmove state turn _ h hresult hcondition (chainStep_move hresult turn)
  | some result =>
    rw [chainStep_finished (by simp [hresult])]
    exact h

/-- What every move preserves under a condition holds after every run whose turns meet it. -/
theorem runChain_invariant_of_everyStep (invariant : ChainState → Prop)
    (condition : ChainState → Turn → Prop) (hstart : invariant ctx.start)
    (hmove : ∀ state turn next, invariant state → state.result = none → condition state turn →
      ChainMove ctx state turn next → invariant next) (turns : List Turn)
      (hturns : EveryStep (chainStep ctx) condition ctx.start turns) :
    invariant (runChain ctx turns) :=
  runFrom_invariant_of_everyStep invariant (chainStep_invariant invariant condition hmove) turns ctx.start
    hstart hturns

/-- What every move preserves holds after every run. -/
theorem runChain_invariant (invariant : ChainState → Prop) (hstart : invariant ctx.start)
    (hmove : ∀ state turn next, invariant state → state.result = none → ChainMove ctx state turn next →
      invariant next)
    (turns : List Turn) : invariant (runChain ctx turns) := by
  refine runFrom_invariant invariant (fun state turn h => ?_) turns ctx.start hstart
  exact chainStep_invariant invariant (fun _ _ => True)
    (fun state turn next h hrunning _ => hmove state turn next h hrunning) state turn h trivial

/-- Looking a candidate up by id answers with an offered candidate of that id. -/
theorem findCandidate_spec {ordered : List Candidate} {accountId : Option String} {candidate : Candidate}
    (h : findCandidate ordered accountId = some candidate) :
    candidate ∈ ordered ∧ accountId = some candidate.account.id := by
  refine ⟨List.mem_of_find?_eq_some h, ?_⟩
  have hid := List.find?_some h
  simp only [beq_iff_eq] at hid
  exact hid.symm

/-- What a planned overload retry says: the walk is exhausted, and the account is the newest one when the last
failure was an overload, else the one remembered as overloaded. -/
structure OverloadRetryPlanned (options : FailoverOptions) (state : ChainState)
    (candidate : Candidate) : Prop where
  offered : candidate ∈ state.ordered
  budget : state.progress.overloadRetries < overloadCap options
  failure : ∃ failure, state.lastFailure = some failure ∧ isRetryable failure.kind ∧
    (if failure.kind = .overloaded then state.progress.attemptedAccountIds.getLast?
      else state.progress.overloadedAccountId) = some candidate.account.id
  exhausted : attemptCeiling (plannedCount state.ordered state.progress) options ≤
      state.progress.attemptedAccountIds.length ∨ nextCandidate state.ordered state.progress = none

/-- What a planned replay says: the last failure was a stale session and the newest account is named. -/
structure ReplayPlanned (options : FailoverOptions) (state : ChainState) (candidate : Candidate) :
    Prop where
  offered : candidate ∈ state.ordered
  budget : state.progress.inPlaceRetries < replayCap options
  failure : ∃ failure, state.lastFailure = some failure ∧ failure.kind = .staleSession
  newest : state.progress.attemptedAccountIds.getLast? = some candidate.account.id

/-- What a planned new attempt says: it is the head of a fresh walk, or the first candidate not
attempted, under the ceiling, after a retryable failure. -/
def AttemptPlanned (options : FailoverOptions) (state : ChainState) (candidate : Candidate)
    (invalidateBinding sessionRestart : Bool) : Prop :=
  (state.lastFailure = none ∧ state.ordered.head? = some candidate) ∨
    ((∃ failure, state.lastFailure = some failure ∧ isRetryable failure.kind) ∧
      nextCandidate state.ordered state.progress = some candidate ∧
      state.progress.attemptedAccountIds.length <
        attemptCeiling (plannedCount state.ordered state.progress) options ∧
      attemptOn candidate state.ordered state.progress options =
        .attempt candidate (state.progress.attemptedAccountIds.length + 1) invalidateBinding sessionRestart)

/-- A wait on a busy provider is a retry with a delay, or a stop. -/
theorem waitOutOverload_spec {options : FailoverOptions} {failure : AttemptFailure}
    {exhausted : FailoverStopReason} (hfailure : state.lastFailure = some failure)
    (hretryable : isRetryable failure.kind)
    (hexhausted : attemptCeiling (plannedCount state.ordered state.progress) options ≤
      state.progress.attemptedAccountIds.length ∨ nextCandidate state.ordered state.progress = none) :
    (∃ candidate attempt delay, waitOutOverload state.ordered state.progress failure options exhausted =
        .retryInPlace candidate attempt (some delay) ∧ OverloadRetryPlanned options state candidate) ∨
      waitOutOverload state.ordered state.progress failure options exhausted = .stop exhausted := by
  unfold waitOutOverload
  dsimp only
  generalize hbusy : (if failure.kind = .overloaded then state.progress.attemptedAccountIds.getLast?
      else state.progress.overloadedAccountId) = busyId
  split
  · exact Or.inr rfl
  · split
    · exact Or.inr rfl
    · next hbudget =>
      split
      · exact Or.inr rfl
      · next candidate hfind =>
        obtain ⟨hoffered, hid⟩ := findCandidate_spec hfind
        exact Or.inl ⟨candidate, _, _, rfl, hoffered, Nat.lt_of_not_le hbudget,
          ⟨failure, hfailure, hretryable, hbusy.trans hid⟩, hexhausted⟩

/-- Every decision of the planner is one of four, with what it says about the state. -/
theorem planNextAttempt_cases (options : FailoverOptions) (state : ChainState) :
    (∃ candidate attempt invalidateBinding sessionRestart,
      planNextAttempt state.ordered state.progress state.lastFailure options =
        .attempt candidate attempt invalidateBinding sessionRestart ∧
      AttemptPlanned options state candidate invalidateBinding sessionRestart) ∨
    (∃ candidate attempt, planNextAttempt state.ordered state.progress state.lastFailure options =
        .retryInPlace candidate attempt none ∧ ReplayPlanned options state candidate) ∨
    (∃ candidate attempt delay, planNextAttempt state.ordered state.progress state.lastFailure options =
        .retryInPlace candidate attempt (some delay) ∧ OverloadRetryPlanned options state candidate) ∨
    ∃ reason, planNextAttempt state.ordered state.progress state.lastFailure options = .stop reason := by
  unfold planNextAttempt
  split
  · next hnone =>
    unfold firstAttempt
    split
    · exact Or.inr (Or.inr (Or.inr ⟨_, rfl⟩))
    · next head rest hordered =>
      exact Or.inl ⟨head, _, _, _, rfl, Or.inl ⟨hnone, by simp [hordered]⟩⟩
  · next failure hfailure =>
    split
    · exact Or.inr (Or.inr (Or.inr ⟨_, rfl⟩))
    · split
      · next hstale =>
        unfold replayInPlace
        split
        · exact Or.inr (Or.inr (Or.inr ⟨_, rfl⟩))
        · next hbudget =>
          split
          · exact Or.inr (Or.inr (Or.inr ⟨_, rfl⟩))
          · next candidate hfind =>
            obtain ⟨hoffered, hid⟩ := findCandidate_spec hfind
            exact Or.inr (Or.inl ⟨candidate, _, rfl, hoffered, Nat.lt_of_not_le hbudget,
              ⟨failure, hfailure, hstale⟩, hid⟩)
      · split
        · exact Or.inr (Or.inr (Or.inr ⟨_, rfl⟩))
        · next hretryable =>
          simp only [Bool.not_eq_true', Bool.not_eq_false] at hretryable
          split
          · next hceiling =>
            rcases waitOutOverload_spec hfailure hretryable (Or.inl hceiling) with hretry | hstop
            · exact Or.inr (Or.inr (Or.inl hretry))
            · exact Or.inr (Or.inr (Or.inr ⟨_, hstop⟩))
          · next hceiling =>
            split
            · next hnext =>
              rcases waitOutOverload_spec hfailure hretryable (Or.inr hnext) with hretry | hstop
              · exact Or.inr (Or.inr (Or.inl hretry))
              · exact Or.inr (Or.inr (Or.inr ⟨_, hstop⟩))
            · next next hnext =>
              exact Or.inl ⟨next, _, _, _, rfl, Or.inr ⟨⟨failure, hfailure, hretryable⟩, hnext,
                Nat.lt_of_not_le hceiling, rfl⟩⟩

/-- A named candidate is planned as a new attempt, a replay, or an overload retry. -/
theorem Plans.cases {decision : FailoverDecision} {candidate : Candidate} (h : Plans ctx state decision candidate) :
    (∃ attempt invalidateBinding sessionRestart,
      decision = .attempt candidate attempt invalidateBinding sessionRestart ∧
        AttemptPlanned ctx.failover state candidate invalidateBinding sessionRestart) ∨
    (∃ attempt, decision = .retryInPlace candidate attempt none ∧ ReplayPlanned ctx.failover state candidate) ∨
    ∃ attempt delay, decision = .retryInPlace candidate attempt (some delay) ∧
        OverloadRetryPlanned ctx.failover state candidate := by
  obtain ⟨hplan, hnamed⟩ := h
  rcases planNextAttempt_cases ctx.failover state with
    ⟨other, attempt, invalidateBinding, sessionRestart, heq, hspec⟩ | ⟨other, attempt, heq, hspec⟩ |
      ⟨other, attempt, delay, heq, hspec⟩ | ⟨reason, heq⟩
  all_goals
    rw [hplan] at heq
    subst heq
    rcases hnamed with ⟨_, _, _, hnamed⟩ | ⟨_, _, hnamed⟩ <;> cases hnamed
  · exact Or.inl ⟨attempt, invalidateBinding, sessionRestart, rfl, hspec⟩
  · exact Or.inr (Or.inl ⟨attempt, rfl, hspec⟩)
  · exact Or.inr (Or.inr ⟨attempt, delay, rfl, hspec⟩)

end MultiAiRouter.Dataplane
