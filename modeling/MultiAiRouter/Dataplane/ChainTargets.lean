import MultiAiRouter.Dataplane.ChainMoves

/-!
# Where a retry in place goes

An overload retry is meant for an account whose own latest answer was `overloaded`, a replay for the account that
just answered `stale-session`. The planner reads it off the end of the attempted list, which a retry in place does
not extend: when an older account is retried and fails so again, the next retry goes to the newest account instead.
-/

namespace MultiAiRouter.Dataplane

open Common Routing

/-- The account that answered, and what it answered. -/
def ChainEntry.answer (entry : ChainEntry) : Option (String × FailureKind) :=
  match entry.settled with
  | .failed kind => some (entry.candidate.account.id, kind)
  | _ => none

/-- The answers of a log, newest first. -/
def answers (log : List ChainEntry) : List (String × FailureKind) := log.filterMap ChainEntry.answer

/-- The most recent answer of this account. -/
def latestAnswer (log : List ChainEntry) (accountId : String) : Option FailureKind :=
  ((answers log).find? fun answer => answer.1 == accountId).map Prod.snd

/-- A retry in place goes to the account it is meant for. -/
def RetryOnTarget (entry : ChainEntry) (earlier : List ChainEntry) : Prop :=
  match entry.decision with
  | .retryInPlace candidate _ (some _) => latestAnswer earlier candidate.account.id = some .overloaded
  | .retryInPlace candidate _ none => (answers earlier).head? = some (candidate.account.id, .staleSession)
  | _ => True

instance : ∀ entry earlier, Decidable (RetryOnTarget entry earlier)
  | ⟨.retryInPlace _ _ (some _), _, _⟩, _ => inferInstanceAs (Decidable (_ = _))
  | ⟨.retryInPlace _ _ none, _, _⟩, _ => inferInstanceAs (Decidable (_ = _))
  | ⟨.attempt .., _, _⟩, _ => isTrue trivial
  | ⟨.stop _, _, _⟩, _ => isTrue trivial

/-- The account at the end of the attempted list. -/
def ChainState.newest (state : ChainState) : Option String :=
  state.progress.attemptedAccountIds.getLast?

/-- This answer, to a retry of another account than the newest, sends the next retry to the newest one, which is
still offered. -/
def Misdirects (ctx : ChainContext) (state : ChainState) (candidate : Candidate) (kind : FailureKind) :
    Prop :=
  state.newest ≠ some candidate.account.id ∧ (∃ newest ∈ state.ordered, state.newest = some newest.account.id) ∧
    ((kind = .overloaded ∧ state.progress.overloadRetries + 1 < overloadCap ctx.failover) ∨
      (kind = .staleSession ∧ state.progress.inPlaceRetries < replayCap ctx.failover))

/-- No retry in place of an earlier account gets an answer that misdirects the next retry. -/
def StaysOnTarget (ctx : ChainContext) (state : ChainState) (turn : Turn) : Prop :=
  ∀ candidate attempt delayMs kind, planNextAttempt state.ordered state.progress state.lastFailure ctx.failover =
      .retryInPlace candidate attempt delayMs →
    turn.answered candidate = some kind → ¬ Misdirects ctx state candidate kind

section Answers

variable {entry : ChainEntry} {log : List ChainEntry} {accountId : String} {kind : FailureKind}

/-- Only a failed attempt adds an answer. -/
theorem answers_cons_of_not_failed (h : ∀ kind, entry.settled ≠ .failed kind) :
    answers (entry :: log) = answers log := by
  unfold answers
  rw [List.filterMap_cons_none]
  unfold ChainEntry.answer
  split
  · next kind hkind => exact absurd hkind (h kind)
  · rfl

/-- A failed attempt's answer is the newest. -/
theorem answers_cons_of_failed (h : entry.settled = .failed kind) :
    answers (entry :: log) = (entry.candidate.account.id, kind) :: answers log := by
  unfold answers
  rw [List.filterMap_cons_some]
  unfold ChainEntry.answer
  rw [h]

/-- The account that just answered has this as its latest answer. -/
theorem latestAnswer_cons_self (h : entry.settled = .failed kind) :
    latestAnswer (entry :: log) entry.candidate.account.id = some kind := by
  unfold latestAnswer
  rw [answers_cons_of_failed h]
  simp

/-- Another account's latest answer stays. -/
theorem latestAnswer_cons_of_ne (h : entry.settled = .failed kind) (hne : accountId ≠ entry.candidate.account.id) :
    latestAnswer (entry :: log) accountId = latestAnswer log accountId := by
  unfold latestAnswer
  rw [answers_cons_of_failed h, List.find?_cons_of_neg]
  simpa using Ne.symm hne

end Answers

/-- The account remembered as overloaded last answered so, and the newest account gave the last failure wherever a
retry of it could still follow. -/
structure AnswersKnown (ctx : ChainContext) (state : ChainState) : Prop where
  remembered : ∀ accountId, state.progress.overloadedAccountId = some accountId →
    latestAnswer state.log accountId = some .overloaded
  overloaded : ∀ failure candidate, state.lastFailure = some failure → failure.kind = .overloaded →
    state.progress.overloadRetries < overloadCap ctx.failover →
    candidate ∈ state.ordered → state.newest = some candidate.account.id →
    latestAnswer state.log candidate.account.id = some .overloaded
  stale : ∀ failure candidate, state.lastFailure = some failure → failure.kind = .staleSession →
    state.progress.inPlaceRetries < replayCap ctx.failover →
    candidate ∈ state.ordered → state.newest = some candidate.account.id →
    (answers state.log).head? = some (candidate.account.id, .staleSession)

variable {ctx : ChainContext} {state : ChainState}

/-- Nothing is remembered at the start. -/
theorem answersKnown_start (ctx : ChainContext) : AnswersKnown ctx ctx.start where
  remembered := by simp [ChainContext.start, noAttempts]
  overloaded := by simp [ChainContext.start]
  stale := by simp [ChainContext.start]

/-- A decision taken where the answers are known goes to its target. -/
theorem AnswersKnown.retryOnTarget (h : AnswersKnown ctx state) {decision : FailoverDecision}
    {candidate : Candidate} (hplans : Plans ctx state decision candidate) (settled : Settled) :
    RetryOnTarget ⟨decision, candidate, settled⟩ state.log := by
  rcases hplans.cases with ⟨_, _, _, rfl, _⟩ | ⟨_, rfl, hreplay⟩ | ⟨_, _, rfl, hretry⟩
  · trivial
  · obtain ⟨failure, hfailure, hkind⟩ := hreplay.failure
    exact h.stale failure candidate hfailure hkind hreplay.budget hreplay.offered hreplay.newest
  · obtain ⟨failure, hfailure, _, hbusy⟩ := hretry.failure
    change latestAnswer state.log candidate.account.id = some .overloaded
    split at hbusy
    · next hkind =>
      exact h.overloaded failure candidate hfailure hkind hretry.budget hretry.offered hbusy
    · exact h.remembered _ hbusy

/-- Dropping a candidate adds no answer. -/
theorem AnswersKnown.dropped (h : AnswersKnown ctx state) (decision : FailoverDecision)
    (candidate : Candidate) {settled : Settled} (hsettled : settled = .refused ∨ settled = .unprepared) :
    AnswersKnown ctx (state.dropped decision candidate settled) := by
  have hanswers : answers (state.dropped decision candidate settled).log = answers state.log := by
    refine answers_cons_of_not_failed fun kind => ?_
    rcases hsettled with rfl | rfl <;> simp
  have hlatest (accountId : String) : latestAnswer (state.dropped decision candidate settled).log accountId =
        latestAnswer state.log accountId := by
    unfold latestAnswer
    rw [hanswers]
  refine ⟨fun accountId hremembered => ?_, fun failure other hfailure hkind hbudget hoffered hnewest => ?_,
    fun failure other hfailure hkind hbudget hoffered hnewest => ?_⟩
  · rw [hlatest]
    exact h.remembered accountId hremembered
  · rw [hlatest]
    exact h.overloaded failure other hfailure hkind hbudget (List.mem_of_mem_filter hoffered) hnewest
  · rw [hanswers]
    exact h.stale failure other hfailure hkind hbudget (List.mem_of_mem_filter hoffered) hnewest

/-- A request at fault adds no answer, and its own failure is never retried. -/
theorem AnswersKnown.invalidated (h : AnswersKnown ctx state) (decision : FailoverDecision) (candidate : Candidate)
    (message : String) : AnswersKnown ctx (state.invalidated decision candidate message) := by
  have hanswers : answers (state.invalidated decision candidate message).log = answers state.log :=
    answers_cons_of_not_failed (by simp)
  refine ⟨fun accountId hremembered => ?_, fun failure other hfailure hkind => ?_,
    fun failure other hfailure hkind => ?_⟩
  · unfold latestAnswer
    rw [hanswers]
    refine h.remembered accountId ?_
    simpa [ChainState.invalidated, ChainState.counted] using hremembered
  · cases hfailure
    cases hkind
  · cases hfailure
    cases hkind

/-- The account that just answered is the newest, or it is another one that was waited out. -/
theorem failedWith_newest {decision : FailoverDecision} {candidate : Candidate} (failure : AttemptFailure)
    (hplans : Plans ctx state decision candidate) :
    (state.failedWith ctx decision candidate failure).newest = some candidate.account.id ∨
      ((∃ attempt delayMs, decision = .retryInPlace candidate attempt delayMs) ∧
        state.newest ≠ some candidate.account.id ∧
        (state.failedWith ctx decision candidate failure).newest = state.newest ∧
        (state.failedWith ctx decision candidate failure).progress.overloadRetries =
          state.progress.overloadRetries + 1 ∧
        (state.failedWith ctx decision candidate failure).progress.inPlaceRetries =
          state.progress.inPlaceRetries) := by
  rcases hplans.cases with ⟨_, _, _, rfl, _⟩ | ⟨_, rfl, hreplay⟩ | ⟨attempt, delay, rfl, _⟩
  · left
    simp [ChainState.failedWith, ChainState.newest, ChainState.counted, inPlaceReason, recordAttempt]
  · left
    simpa [ChainState.failedWith, ChainState.newest, ChainState.counted, inPlaceReason, recordAttempt]
      using hreplay.newest
  · by_cases hnewest : state.newest = some candidate.account.id
    · left
      simpa [ChainState.failedWith, ChainState.newest, ChainState.counted, inPlaceReason, recordAttempt]
        using hnewest
    · right
      refine ⟨⟨attempt, some delay, rfl⟩, hnewest, ?_, ?_, ?_⟩ <;>
        simp [ChainState.failedWith, ChainState.newest, ChainState.counted, inPlaceReason, recordAttempt]

/-- A failed attempt drops at most its own account. -/
theorem failedWith_ordered_subset {decision : FailoverDecision} {candidate other : Candidate}
    {failure : AttemptFailure} (h : other ∈ (state.failedWith ctx decision candidate failure).ordered) :
    other ∈ state.ordered := by
  change other ∈ (if designated ctx candidate then _ else _) at h
  split at h
  · exact List.mem_of_mem_filter h
  · exact h

/-- An answer that misdirects no retry leaves the answers known. -/
theorem AnswersKnown.failedWith (h : AnswersKnown ctx state) {decision : FailoverDecision}
    {candidate : Candidate} {failure : AttemptFailure} (hplans : Plans ctx state decision candidate)
    (htarget : (∃ attempt delayMs, decision = .retryInPlace candidate attempt delayMs) →
      ¬ Misdirects ctx state candidate failure.kind) :
    AnswersKnown ctx (state.failedWith ctx decision candidate failure) := by
  have hself : latestAnswer (state.failedWith ctx decision candidate failure).log candidate.account.id =
      some failure.kind :=
    latestAnswer_cons_self rfl
  have hhead : (answers (state.failedWith ctx decision candidate failure).log).head? =
      some (candidate.account.id, failure.kind) := by
    change (answers (⟨decision, candidate, .failed failure.kind⟩ :: state.log)).head? = _
    rw [answers_cons_of_failed rfl]
    rfl
  refine ⟨fun accountId hremembered => ?_, fun last other hlast hkind hbudget hoffered hnewest => ?_,
    fun last other hlast hkind hbudget hoffered hnewest => ?_⟩
  · rcases noteOverload_remembered hremembered with ⟨rfl, hkind⟩ | ⟨hne, hremembered⟩
    · rw [hself, hkind]
    · change latestAnswer (⟨decision, candidate, .failed failure.kind⟩ :: state.log) accountId = _
      rw [latestAnswer_cons_of_ne rfl hne]
      refine h.remembered accountId ?_
      simpa [ChainState.counted] using hremembered
  · cases hlast
    rcases failedWith_newest failure hplans with hsame | ⟨hretry, hother, hkept, hcount, _⟩
    · rw [hsame] at hnewest
      rw [← Option.some.inj hnewest, hself, hkind]
    · rw [hcount] at hbudget
      exact absurd ⟨hother, ⟨other, failedWith_ordered_subset hoffered, hkept ▸ hnewest⟩,
        Or.inl ⟨hkind, hbudget⟩⟩ (htarget hretry)
  · cases hlast
    rcases failedWith_newest failure hplans with hsame | ⟨hretry, hother, hkept, _, hcount⟩
    · rw [hsame] at hnewest
      rw [← Option.some.inj hnewest, hhead, hkind]
    · rw [hcount] at hbudget
      exact absurd ⟨hother, ⟨other, failedWith_ordered_subset hoffered, hkept ▸ hnewest⟩,
        Or.inr ⟨hkind, hbudget⟩⟩ (htarget hretry)

/-- Every retry so far went to its target, and a running loop knows its answers. -/
def OnTarget (ctx : ChainContext) (state : ChainState) : Prop :=
  EveryEntry RetryOnTarget state.log ∧ (state.result = none → AnswersKnown ctx state)

/-- A move that misdirects no retry keeps every retry on its target. -/
theorem OnTarget.move {turn : Turn} {next : ChainState} (h : OnTarget ctx state) (hrunning : state.result = none)
    (hturn : StaysOnTarget ctx state turn) (hmove : ChainMove ctx state turn next) : OnTarget ctx next := by
  obtain ⟨hjudged, hknown⟩ := h
  have hknown := hknown hrunning
  cases hmove with
  | halted result _ _ => exact ⟨hjudged, by simp⟩
  | dropped decision candidate settled hplans hsettled =>
    exact ⟨⟨hknown.retryOnTarget hplans settled, hjudged⟩, fun _ => hknown.dropped decision candidate hsettled⟩
  | invalidated decision candidate message hplans =>
    exact ⟨⟨hknown.retryOnTarget hplans _, hjudged⟩, fun _ => hknown.invalidated decision candidate message⟩
  | failed decision candidate failure hplans hanswered =>
    refine ⟨⟨hknown.retryOnTarget hplans _, hjudged⟩, fun _ => hknown.failedWith hplans ?_⟩
    rintro ⟨attempt, delayMs, rfl⟩
    exact hturn candidate attempt delayMs failure.kind hplans.1 hanswered
  | concluded decision candidate settled result progress hplans _ _ _ =>
    exact ⟨⟨hknown.retryOnTarget hplans settled, hjudged⟩, by simp [ChainState.over]⟩

/-- In every run in which no retry of an earlier account gets a misdirecting answer, each overload
retry goes to an account whose latest answer was `overloaded`, and each replay to the account that
just answered `stale-session`. -/
theorem runChain_retries_on_target (ctx : ChainContext) (turns : List Turn)
    (hturns : EveryStep (chainStep ctx) (StaysOnTarget ctx) ctx.start turns) :
    EveryEntry RetryOnTarget (runChain ctx turns).log := by
  have hinvariant : OnTarget ctx (runChain ctx turns) :=
    runChain_invariant_of_everyStep (OnTarget ctx) (StaysOnTarget ctx)
      ⟨trivial, fun _ => answersKnown_start ctx⟩
      (fun state turn next h hrunning hturn hmove => h.move hrunning hturn hmove) turns hturns
  exact hinvariant.1

/-- A turn that does not answer `overloaded` or `stale-session` misdirects nothing. -/
theorem staysOnTarget_of_answer (turn : Turn) (h : ∀ candidate, turn.answered candidate ≠ some .overloaded ∧
      turn.answered candidate ≠ some .staleSession) : StaysOnTarget ctx state turn := by
  rintro candidate _ _ kind _ hanswered ⟨_, _, ⟨rfl, _⟩ | ⟨rfl, _⟩⟩
  · exact (h candidate).1 hanswered
  · exact (h candidate).2 hanswered

/-- A candidate for this account, as its scope and the filter leave it. -/
def candidateFor (account : AccountSnapshot) (halfOpen : Bool) : Candidate :=
  { account, poolId := none, weight := 100, priority := 0, order := 0, upstreamModel := "model", halfOpen }

/-- Two planned accounts and two waits on a busy provider. -/
def twoAccounts : ChainContext :=
  { plan := [candidateFor { id := "A" } false, candidateFor { id := "B" } false]
    failover := { overloadRetries := some 2 } }

/-- A turn whose attempt started and failed this way. -/
def failing (kind : FailureKind) : Turn := { dispatched := .failure { kind } true }

/-- A busy, B limited, A waited out and limited: the wait went to the busy account. -/
theorem runChain_retries_on_target_waited_out :
    (runChain twoAccounts [failing .overloaded, failing .rateLimited, failing .rateLimited]).log.map
        (fun entry => (entry.candidate.account.id, entry.settled)) =
      [("A", .failed .rateLimited), ("B", .failed .rateLimited), ("A", .failed .overloaded)] ∧
    EveryEntry RetryOnTarget
      (runChain twoAccounts [failing .overloaded, failing .rateLimited, failing .rateLimited]).log := by
  refine ⟨by decide +kernel, runChain_retries_on_target _ _ ⟨?_, ?_, ?_, trivial⟩⟩
  · intro _ _ _ _ hplan
    cases hplan
  · exact staysOnTarget_of_answer _ fun candidate => by simp [Turn.answered, failing]
  · exact staysOnTarget_of_answer _ fun candidate => by simp [Turn.answered, failing]

/-- A busy, B limited, A busy again: the second wait asks B, whose own latest answer was a limit. -/
theorem runChain_retry_misdirected :
    ¬ EveryEntry RetryOnTarget (runChain twoAccounts [failing .overloaded, failing .rateLimited,
      failing .overloaded, failing .overloaded]).log := by
  decide +kernel

end MultiAiRouter.Dataplane
