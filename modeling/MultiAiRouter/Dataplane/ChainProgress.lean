import Mathlib.Data.List.Perm.Subperm
import MultiAiRouter.Dataplane.ChainMoves

/-!
# The bookkeeping of the failover chain

The attempted list is the log's new attempts, without repetition; the accounts still offered are
planned ones, and every planned account is still offered, attempted, or dropped.
-/

namespace MultiAiRouter.Dataplane

open Common Routing

/-- An attempt that was refused or never prepared does not count. -/
def Settled.counts : Settled → Bool
  | .refused | .unprepared => false
  | _ => true

/-- The decision goes to a new account. -/
def ChainEntry.isNew (entry : ChainEntry) : Bool := (inPlaceReason entry.decision).isNone

/-- The accounts of the counted new attempts, newest first. -/
def attemptedIds (log : List ChainEntry) : List String :=
  (log.filter fun entry => entry.isNew && entry.settled.counts).map fun entry => entry.candidate.account.id

/-- The accounts dropped as refused or unprepared, newest first. -/
def droppedIds (log : List ChainEntry) : List String :=
  (log.filter fun entry => !entry.settled.counts).map fun entry => entry.candidate.account.id

/-- The retries in place for this reason, started or not. -/
def retriesFor (reason : InPlaceReason) (log : List ChainEntry) : List ChainEntry :=
  log.filter fun entry => inPlaceReason entry.decision == some reason

/-- The bookkeeping that every turn keeps. -/
structure Walked (ctx : ChainContext) (state : ChainState) : Prop where
  offered : state.ordered.Sublist ctx.plan
  attempted : state.progress.attemptedAccountIds = (attemptedIds state.log).reverse
  distinct : state.progress.attemptedAccountIds.Nodup
  planned : ∀ id ∈ state.progress.attemptedAccountIds, ∃ candidate ∈ ctx.plan, candidate.account.id = id
  remembered : ∀ id, state.progress.overloadedAccountId = some id → id ∈ state.progress.attemptedAccountIds
  fresh : state.result = none → state.lastFailure = none → state.progress.attemptedAccountIds = []
  accounted : ∀ candidate ∈ ctx.plan, candidate ∈ state.ordered ∨
    candidate.account.id ∈ state.progress.attemptedAccountIds ∨
    candidate.account.id ∈ droppedIds state.log

variable {ctx : ChainContext} {state : ChainState}

/-- Nothing is attempted at the start. -/
theorem walked_start (ctx : ChainContext) : Walked ctx ctx.start where
  offered := List.Sublist.refl _
  attempted := rfl
  distinct := List.nodup_nil
  planned := by simp [ChainContext.start, noAttempts]
  remembered := by simp [ChainContext.start, noAttempts]
  fresh := fun _ _ => rfl
  accounted := fun candidate hmem => Or.inl hmem

/-- A named candidate is still offered. -/
theorem Plans.offered {decision : FailoverDecision} {candidate : Candidate}
    (h : Plans ctx state decision candidate) : candidate ∈ state.ordered := by
  rcases h.cases with ⟨_, _, _, _, ⟨_, hhead⟩ | ⟨_, hnext, _⟩⟩ | ⟨_, _, hreplay⟩ | ⟨_, _, _, hretry⟩
  · exact List.mem_of_head? hhead
  · exact List.mem_of_find?_eq_some hnext
  · exact hreplay.offered
  · exact hretry.offered

/-- What counting a decision does: a new account is appended and was not attempted before, or a
retry of an attempted account spends one of its budget. -/
theorem Walked.counted_cases (h : Walked ctx state) (hrunning : state.result = none)
    {decision : FailoverDecision} {candidate : Candidate} (hplans : Plans ctx state decision candidate) :
    (inPlaceReason decision = none ∧ candidate.account.id ∉ state.progress.attemptedAccountIds ∧
      state.counted decision candidate = { state.progress with
        attemptedAccountIds := state.progress.attemptedAccountIds ++ [candidate.account.id] }) ∨
    (inPlaceReason decision = some .replay ∧ candidate.account.id ∈ state.progress.attemptedAccountIds ∧
      state.progress.inPlaceRetries < replayCap ctx.failover ∧
      state.counted decision candidate =
        { state.progress with inPlaceRetries := state.progress.inPlaceRetries + 1 }) ∨
    (inPlaceReason decision = some .overload ∧ candidate.account.id ∈ state.progress.attemptedAccountIds ∧
      state.progress.overloadRetries < overloadCap ctx.failover ∧
      state.counted decision candidate =
        { state.progress with overloadRetries := state.progress.overloadRetries + 1 }) := by
  rcases hplans.cases with ⟨_, _, _, rfl, hattempt⟩ | ⟨_, rfl, hreplay⟩ | ⟨_, _, rfl, hretry⟩
  · refine Or.inl ⟨rfl, ?_, rfl⟩
    rcases hattempt with ⟨hnone, _⟩ | ⟨_, hnext, _⟩
    · simp [h.fresh hrunning hnone]
    · simpa using List.find?_some hnext
  · exact Or.inr (Or.inl ⟨rfl, List.mem_of_getLast? hreplay.newest, hreplay.budget, rfl⟩)
  · refine Or.inr (Or.inr ⟨rfl, ?_, hretry.budget, rfl⟩)
    obtain ⟨failure, _, _, hbusy⟩ := hretry.failure
    split at hbusy
    · exact List.mem_of_getLast? hbusy
    · exact h.remembered _ hbusy

/-- A counted decision leaves its account attempted. -/
theorem Walked.mem_counted (h : Walked ctx state) (hrunning : state.result = none)
    {decision : FailoverDecision} {candidate : Candidate} (hplans : Plans ctx state decision candidate) :
    candidate.account.id ∈ (state.counted decision candidate).attemptedAccountIds ∧
      state.progress.attemptedAccountIds ⊆ (state.counted decision candidate).attemptedAccountIds := by
  rcases h.counted_cases hrunning hplans with ⟨_, _, heq⟩ | ⟨_, hmem, _, heq⟩ | ⟨_, hmem, _, heq⟩
  · rw [heq]
    exact ⟨by simp, List.subset_append_left _ _⟩
  · rw [heq]
    exact ⟨hmem, List.Subset.refl _⟩
  · rw [heq]
    exact ⟨hmem, List.Subset.refl _⟩

/-- What is left after dropping an account is still planned, and nothing else is lost. -/
theorem mem_dropAccount {ordered : List Candidate} {accountId : String} {candidate : Candidate} :
    candidate ∈ dropAccount ordered accountId ↔ candidate ∈ ordered ∧ candidate.account.id ≠ accountId := by
  simp [dropAccount]

/-- A candidate that was refused or never prepared keeps the bookkeeping. -/
theorem Walked.dropped (h : Walked ctx state) (decision : FailoverDecision) (candidate : Candidate)
    {settled : Settled} (hsettled : settled = .refused ∨ settled = .unprepared) :
    Walked ctx (state.dropped decision candidate settled) where
  offered := List.filter_sublist.trans h.offered
  attempted := by
    rcases hsettled with rfl | rfl <;> simpa [ChainState.dropped, ChainState.logged, attemptedIds,
      Settled.counts] using h.attempted
  distinct := h.distinct
  planned := h.planned
  remembered := h.remembered
  fresh := h.fresh
  accounted := fun other hother => by
    have hdropped : droppedIds (state.dropped decision candidate settled).log =
        candidate.account.id :: droppedIds state.log := by
      rcases hsettled with rfl | rfl <;> rfl
    rw [hdropped]
    by_cases hid : other.account.id = candidate.account.id
    · exact Or.inr (Or.inr (by simp [hid]))
    · rcases h.accounted other hother with hoffered | hattempted | hgone
      · exact Or.inl (mem_dropAccount.mpr ⟨hoffered, hid⟩)
      · exact Or.inr (Or.inl hattempted)
      · exact Or.inr (Or.inr (List.mem_cons_of_mem _ hgone))

/-- A counted attempt keeps the bookkeeping, whether or not its account is dropped after it. -/
theorem Walked.counted (h : Walked ctx state) (hrunning : state.result = none)
    {decision : FailoverDecision} {candidate : Candidate} (hplans : Plans ctx state decision candidate)
    {next : ChainState} {settled : Settled} (hcounts : settled.counts)
    (hordered : next.ordered = state.ordered ∨ next.ordered = dropAccount state.ordered candidate.account.id)
    (hprogress : next.progress.attemptedAccountIds = (state.counted decision candidate).attemptedAccountIds)
    (hremembered : ∀ id, next.progress.overloadedAccountId = some id →
      id = candidate.account.id ∨ state.progress.overloadedAccountId = some id)
    (hlog : next.log = ⟨decision, candidate, settled⟩ :: state.log)
    (hfailure : next.result = none → next.lastFailure ≠ none) : Walked ctx next := by
  have hattempted : next.progress.attemptedAccountIds = (attemptedIds next.log).reverse ∧
      next.progress.attemptedAccountIds.Nodup := by
    rw [hprogress, hlog]
    rcases h.counted_cases hrunning hplans with ⟨hnew, hfresh, heq⟩ | ⟨hnew, _, _, heq⟩ | ⟨hnew, _, _, heq⟩
    · rw [heq]
      refine ⟨by simp [attemptedIds, ChainEntry.isNew, hnew, hcounts, h.attempted], ?_⟩
      exact List.nodup_append'.mpr ⟨h.distinct, List.nodup_singleton _, by simpa using hfresh⟩
    · rw [heq]
      exact ⟨by simpa [attemptedIds, ChainEntry.isNew, hnew] using h.attempted, h.distinct⟩
    · rw [heq]
      exact ⟨by simpa [attemptedIds, ChainEntry.isNew, hnew] using h.attempted, h.distinct⟩
  obtain ⟨hself, hsubset⟩ := h.mem_counted hrunning hplans
  refine ⟨?_, hattempted.1, hattempted.2, fun id hid => ?_, fun id hid => ?_,
    fun hresult hnone => absurd hnone (hfailure hresult), fun other hother => ?_⟩
  · rcases hordered with heq | heq
    · exact heq ▸ h.offered
    · exact heq ▸ List.filter_sublist.trans h.offered
  · rw [hprogress] at hid
    rcases h.counted_cases hrunning hplans with ⟨_, _, heq⟩ | ⟨_, _, _, heq⟩ | ⟨_, _, _, heq⟩
    · rw [heq] at hid
      rcases List.mem_append.mp hid with hold | hnew
      · exact h.planned id hold
      · exact ⟨candidate, h.offered.subset hplans.offered, (List.mem_singleton.mp hnew).symm⟩
    · exact h.planned id (by rwa [heq] at hid)
    · exact h.planned id (by rwa [heq] at hid)
  · rw [hprogress]
    rcases hremembered id hid with rfl | hold
    · exact hself
    · exact hsubset (h.remembered id hold)
  · rw [hprogress, hlog]
    by_cases hid : other.account.id = candidate.account.id
    · exact Or.inr (Or.inl (hid ▸ hself))
    · rcases h.accounted other hother with hoffered | hold | hgone
      · refine Or.inl ?_
        rcases hordered with heq | heq
        · exact heq ▸ hoffered
        · exact heq ▸ mem_dropAccount.mpr ⟨hoffered, hid⟩
      · exact Or.inr (Or.inl (hsubset hold))
      · exact Or.inr (Or.inr (by simpa [droppedIds, hcounts] using hgone))

/-- Every move keeps the bookkeeping. -/
theorem Walked.move {turn : Turn} {next : ChainState} (h : Walked ctx state)
    (hrunning : state.result = none) (hmove : ChainMove ctx state turn next) : Walked ctx next := by
  cases hmove with
  | halted result _ _ =>
    exact ⟨h.offered, h.attempted, h.distinct, h.planned, h.remembered, by simp, h.accounted⟩
  | dropped decision candidate settled hplans hsettled => exact h.dropped decision candidate hsettled
  | invalidated decision candidate message hplans =>
    refine h.counted hrunning hplans rfl (Or.inl rfl) rfl (fun id hid => Or.inr ?_) rfl
      (by simp [ChainState.invalidated])
    simpa [ChainState.invalidated, ChainState.counted] using hid
  | failed decision candidate failure hplans _ =>
    refine h.counted hrunning hplans rfl ?_ (by simp [ChainState.failedWith]) (fun id hid => ?_) rfl
      (by simp [ChainState.failedWith])
    · change (if designated ctx candidate then _ else _) = _ ∨ (if designated ctx candidate then _ else _) = _
      split
      · exact Or.inr rfl
      · exact Or.inl rfl
    · rcases noteOverload_remembered hid with ⟨rfl, _⟩ | ⟨_, hold⟩
      · exact Or.inl rfl
      · exact Or.inr (by simpa [ChainState.counted] using hold)
  | concluded decision candidate settled result progress hplans hsettled _ hprogress =>
    have hcounts : settled.counts := by
      rcases hsettled with rfl | rfl <;> rfl
    refine h.counted hrunning hplans hcounts (Or.inl rfl) ?_ (fun id hid => Or.inr ?_) rfl
      (by simp [ChainState.over])
    · rcases hprogress with rfl | rfl <;> rfl
    · rcases hprogress with rfl | rfl <;> simpa [ChainState.counted, markStreamed] using hid

/-- Every run keeps the bookkeeping. -/
theorem runChain_walked (ctx : ChainContext) (turns : List Turn) : Walked ctx (runChain ctx turns) :=
  runChain_invariant (Walked ctx) (walked_start ctx)
    (fun _ _ _ h hrunning hmove => h.move hrunning hmove) turns

/-- Dropping an attempted account does not raise the planned count. -/
theorem plannedCount_dropAccount_le {ordered : List Candidate} {progress : FailoverProgress}
    {candidate : Candidate} (hoffered : candidate ∈ ordered) :
    plannedCount (dropAccount ordered candidate.account.id) progress ≤ plannedCount ordered progress := by
  unfold plannedCount
  dsimp only
  have hshorter : (dropAccount ordered candidate.account.id).length < ordered.length :=
    List.length_filter_lt_length_iff_exists.mpr ⟨candidate, hoffered, by simp⟩
  have hgone : (progress.attemptedAccountIds.filter fun id => !decide
        (id ∈ (dropAccount ordered candidate.account.id).map fun other => other.account.id)).dedup ⊆
      candidate.account.id :: (progress.attemptedAccountIds.filter fun id => !decide
        (id ∈ ordered.map fun other => other.account.id)).dedup := by
    intro id hid
    simp only [List.mem_dedup, List.mem_filter, Bool.not_eq_true', decide_eq_false_iff_not, List.mem_map,
      mem_dropAccount, not_exists, not_and, and_imp, List.mem_cons] at hid ⊢
    by_cases hsame : id = candidate.account.id
    · exact Or.inl hsame
    · exact Or.inr ⟨hid.1, fun other hother hother' => hid.2 other hother (hother' ▸ hsame) hother'⟩
  have hcount := (List.Nodup.subperm (List.nodup_dedup _) hgone).length_le
  rw [List.length_cons] at hcount
  omega

/-- A lower planned count lowers the ceiling. -/
theorem attemptCeiling_mono {planned more : Nat} (h : planned ≤ more) (options : FailoverOptions) :
    attemptCeiling planned options ≤ attemptCeiling more options := by
  unfold attemptCeiling
  split
  · exact h
  · omega

/-- A stale session is never a reason to walk on. -/
theorem not_isRetryable_of_stale {kind : FailureKind} (h : kind = .staleSession) : ¬ isRetryable kind := by
  subst h
  decide

/-- A walk that is exhausted stays exhausted when an account is dropped. -/
theorem exhausted_dropAccount {options : FailoverOptions} {candidate next : Candidate}
    (hoffered : candidate ∈ state.ordered)
    (h : attemptCeiling (plannedCount state.ordered state.progress) options ≤
        state.progress.attemptedAccountIds.length ∨ nextCandidate state.ordered state.progress = none)
    (hnext : nextCandidate (dropAccount state.ordered candidate.account.id) state.progress = some next) :
    attemptCeiling (plannedCount (dropAccount state.ordered candidate.account.id) state.progress) options ≤
      state.progress.attemptedAccountIds.length := by
  rcases h with hceiling | hnone
  · exact (attemptCeiling_mono (plannedCount_dropAccount_le hoffered) options).trans hceiling
  · have hmem : next ∈ dropAccount state.ordered candidate.account.id := List.mem_of_find?_eq_some hnext
    have hattempted := List.find?_eq_none.mp hnone next (mem_dropAccount.mp hmem).1
    exact absurd (List.find?_some hnext) hattempted

/-- A retry in place that never started leaves the planner nothing but to stop. -/
theorem planNextAttempt_dropped_retry {decision : FailoverDecision} {candidate : Candidate}
    (hplans : Plans ctx state decision candidate) (hretry : (inPlaceReason decision).isSome) (settled : Settled) :
    ∃ reason, planNextAttempt (state.dropped decision candidate settled).ordered
      (state.dropped decision candidate settled).progress
      (state.dropped decision candidate settled).lastFailure ctx.failover = .stop reason := by
  have hgone : ∀ other ∈ (state.dropped decision candidate settled).ordered,
      other.account.id ≠ candidate.account.id := fun other hmem => (mem_dropAccount.mp hmem).2
  -- The planner's cases are read in the state after the drop, against those of the state before it.
  rcases hplans.cases with ⟨_, _, _, rfl, _⟩ | ⟨_, rfl, hreplay⟩ | ⟨_, _, rfl, hwait⟩
  · simp [inPlaceReason] at hretry
  · obtain ⟨failure, hfailure, hstale⟩ := hreplay.failure
    rcases planNextAttempt_cases ctx.failover (state.dropped _ candidate settled) with
      ⟨_, _, _, _, _, ⟨hnone, _⟩ | ⟨⟨last, hlast, hretryable⟩, _⟩⟩ | ⟨other, _, _, hagain⟩ |
        ⟨_, _, _, _, hagain⟩ | hstop
    · exact absurd (hfailure.symm.trans hnone) (by simp)
    · obtain rfl := Option.some.inj (hfailure.symm.trans hlast)
      exact absurd hretryable (not_isRetryable_of_stale hstale)
    · exact absurd (Option.some.inj (hagain.newest.symm.trans hreplay.newest)) (hgone other hagain.offered)
    · obtain ⟨last, hlast, hretryable, _⟩ := hagain.failure
      obtain rfl := Option.some.inj (hfailure.symm.trans hlast)
      exact absurd hretryable (not_isRetryable_of_stale hstale)
    · exact hstop
  · obtain ⟨failure, hfailure, hretryable, hbusy⟩ := hwait.failure
    rcases planNextAttempt_cases ctx.failover (state.dropped _ candidate settled) with
      ⟨_, _, _, _, _, ⟨hnone, _⟩ | ⟨_, hnext, hceiling, _⟩⟩ | ⟨_, _, _, hagain⟩ |
        ⟨other, _, _, _, hagain⟩ | hstop
    · exact absurd (hfailure.symm.trans hnone) (by simp)
    · exact absurd (exhausted_dropAccount hwait.offered hwait.exhausted hnext) (Nat.not_le_of_lt hceiling)
    · obtain ⟨last, hlast, hstale⟩ := hagain.failure
      obtain rfl := Option.some.inj (hfailure.symm.trans hlast)
      exact absurd hretryable (not_isRetryable_of_stale hstale)
    · obtain ⟨last, hlast, _, hother⟩ := hagain.failure
      obtain rfl := Option.some.inj (hfailure.symm.trans hlast)
      exact absurd (Option.some.inj (hother.symm.trans hbusy)) (hgone other hagain.offered)
    · exact hstop

/-- The loop is over, or its next turn stops it. -/
def Halts (ctx : ChainContext) (state : ChainState) : Prop :=
  state.result.isSome ∨
    ∃ reason, planNextAttempt state.ordered state.progress state.lastFailure ctx.failover = .stop reason

/-- Where the planner stops it names no candidate. -/
theorem Halts.not_plans {decision : FailoverDecision} {candidate : Candidate} (h : Halts ctx state)
    (hrunning : state.result = none) : ¬ Plans ctx state decision candidate := by
  rintro ⟨hplan, hnamed⟩
  rcases h with hover | ⟨reason, hstop⟩
  · simp [hrunning] at hover
  · rw [hplan] at hstop
    rcases hnamed with ⟨_, _, _, rfl⟩ | ⟨_, _, rfl⟩ <;> cases hstop

end MultiAiRouter.Dataplane
