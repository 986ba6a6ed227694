import MultiAiRouter.Dataplane.ChainRestart

/-!
# Bounds and completeness of the failover chain

The loop spends, each turn, an offered account, an account not attempted yet, or a retry, so it ends. Its new
attempts stay under the ceiling, which is recomputed from a list that shrinks: an account dropped after its attempt
stays counted.
-/

namespace MultiAiRouter.Dataplane

open Common Routing

variable {ctx : ChainContext} {state : ChainState}

section Measure

/-- The offered accounts that were not attempted. -/
def unattempted (ordered : List Candidate) (attemptedAccountIds : List String) : List Candidate :=
  ordered.filter fun candidate => !decide (candidate.account.id ∈ attemptedAccountIds)

/-- What a run may still spend. -/
def remaining (ctx : ChainContext) (state : ChainState) : Nat :=
  state.ordered.length + (unattempted state.ordered state.progress.attemptedAccountIds).length +
    (replayCap ctx.failover - state.progress.inPlaceRetries) +
    (overloadCap ctx.failover - state.progress.overloadRetries)

/-- Fewer offered accounts leave fewer unattempted ones. -/
theorem unattempted_length_le {fewer ordered : List Candidate} (h : fewer.Sublist ordered)
    (attemptedAccountIds : List String) :
    (unattempted fewer attemptedAccountIds).length ≤ (unattempted ordered attemptedAccountIds).length :=
  (h.filter _).length_le

/-- Attempting an offered account leaves one fewer. -/
theorem unattempted_length_lt {ordered : List Candidate} {attemptedAccountIds : List String} {candidate : Candidate}
    (hoffered : candidate ∈ ordered) (hfresh : candidate.account.id ∉ attemptedAccountIds) :
    (unattempted ordered (attemptedAccountIds ++ [candidate.account.id])).length <
      (unattempted ordered attemptedAccountIds).length := by
  have hsplit : unattempted ordered (attemptedAccountIds ++ [candidate.account.id]) =
      (unattempted ordered attemptedAccountIds).filter
        fun other => other.account.id != candidate.account.id := by
    unfold unattempted
    rw [List.filter_filter]
    refine List.filter_congr fun other _ => ?_
    by_cases hid : other.account.id = candidate.account.id <;> simp [hid]
  rw [hsplit]
  refine List.length_filter_lt_length_iff_exists.mpr ⟨candidate, ?_, by simp⟩
  exact List.mem_filter.mpr ⟨hoffered, by simpa using hfresh⟩

/-- Dropping an offered account spends it. -/
theorem remaining_dropped {decision : FailoverDecision} {candidate : Candidate}
    (hoffered : candidate ∈ state.ordered) (settled : Settled) :
    remaining ctx (state.dropped decision candidate settled) < remaining ctx state := by
  have hshorter : (dropAccount state.ordered candidate.account.id).length < state.ordered.length :=
    List.length_filter_lt_length_iff_exists.mpr ⟨candidate, hoffered, by simp⟩
  have hfewer : (unattempted (dropAccount state.ordered candidate.account.id)
      state.progress.attemptedAccountIds).length ≤
        (unattempted state.ordered state.progress.attemptedAccountIds).length :=
    unattempted_length_le List.filter_sublist _
  change (dropAccount state.ordered candidate.account.id).length + (unattempted
    (dropAccount state.ordered candidate.account.id) state.progress.attemptedAccountIds).length + _ + _ < _
  unfold remaining
  dsimp only [ChainState.dropped, ChainState.logged]
  omega

/-- A counted attempt spends an unattempted account or a retry. -/
theorem remaining_counted (h : Walked ctx state) (hrunning : state.result = none)
    {decision : FailoverDecision} {candidate : Candidate} (hplans : Plans ctx state decision candidate)
    {next : ChainState} (hordered : next.ordered.Sublist state.ordered)
    (hattempted : next.progress.attemptedAccountIds = (state.counted decision candidate).attemptedAccountIds)
    (hreplays : next.progress.inPlaceRetries = (state.counted decision candidate).inPlaceRetries)
    (hoverloads : next.progress.overloadRetries = (state.counted decision candidate).overloadRetries) :
    remaining ctx next < remaining ctx state := by
  have hshorter := hordered.length_le
  have hfewer := unattempted_length_le hordered next.progress.attemptedAccountIds
  unfold remaining
  rw [hreplays, hoverloads]
  rw [hattempted] at hfewer ⊢
  rcases h.counted_cases hrunning hplans with ⟨_, hfresh, heq⟩ | ⟨_, _, hbudget, heq⟩ | ⟨_, _, hbudget, heq⟩
  · rw [heq] at hfewer ⊢
    have hless := unattempted_length_lt hplans.offered hfresh
    dsimp only at hfewer ⊢
    omega
  · rw [heq] at hfewer ⊢
    dsimp only at hfewer ⊢
    omega
  · rw [heq] at hfewer ⊢
    dsimp only at hfewer ⊢
    omega

/-- A failed attempt offers no more than before. -/
theorem failedWith_ordered_sublist (decision : FailoverDecision) (candidate : Candidate) (failure : AttemptFailure)
    : (state.failedWith ctx decision candidate failure).ordered.Sublist state.ordered := by
  change (if designated ctx candidate then _ else _ : List Candidate).Sublist _
  split
  · exact List.filter_sublist
  · exact List.Sublist.refl _

/-- Every move ends the loop or spends something. -/
theorem remaining_move {turn : Turn} {next : ChainState} (h : Walked ctx state) (hrunning : state.result = none)
    (hmove : ChainMove ctx state turn next) : next.result.isSome ∨ remaining ctx next < remaining ctx state := by
  cases hmove with
  | halted result _ _ => exact Or.inl rfl
  | dropped decision candidate settled hplans _ => exact Or.inr (remaining_dropped hplans.offered settled)
  | invalidated decision candidate message hplans =>
    exact Or.inr (remaining_counted h hrunning hplans (List.Sublist.refl _) rfl rfl rfl)
  | failed decision candidate failure hplans _ =>
    exact Or.inr (remaining_counted h hrunning hplans (failedWith_ordered_sublist _ _ _)
      (by simp [ChainState.failedWith]) (by simp [ChainState.failedWith]) (by simp [ChainState.failedWith]))
  | concluded decision candidate settled result progress _ _ _ _ => exact Or.inl rfl

/-- What a run may spend in all. -/
theorem remaining_start_le (ctx : ChainContext) : remaining ctx ctx.start ≤
    2 * ctx.plan.length + replayCap ctx.failover + overloadCap ctx.failover := by
  have hunattempted : (unattempted ctx.plan noAttempts.attemptedAccountIds).length ≤ ctx.plan.length :=
    List.length_filter_le _ _
  change ctx.plan.length + (unattempted ctx.plan noAttempts.attemptedAccountIds).length +
    (replayCap ctx.failover - 0) + (overloadCap ctx.failover - 0) ≤ _
  omega

/-- A loop given more turns than it can spend is over. -/
theorem runChain_finishes (ctx : ChainContext) (turns : List Turn)
    (h : 2 * ctx.plan.length + replayCap ctx.failover + overloadCap ctx.failover < turns.length) :
    (runChain ctx turns).result.isSome := by
  refine runFrom_finishes (Walked ctx) (fun state => state.result.isSome) (remaining ctx)
    (fun state turn hwalked => ?_) (fun state turn hover => ?_) (fun state turn hwalked hrunning => ?_)
    turns ctx.start (walked_start ctx) ?_
  · exact chainStep_invariant (Walked ctx) (fun _ _ => True)
      (fun _ _ _ h hrunning _ hmove => h.move hrunning hmove) state turn hwalked trivial
  · rw [chainStep_finished hover]
    exact hover
  · have hrunning : state.result = none := by simpa using hrunning
    exact remaining_move hwalked hrunning (chainStep_move hrunning turn)
  · exact (remaining_start_le ctx).trans_lt h

end Measure

section Budget

/-- Offered and dropped attempted accounts are planned, each once. -/
theorem plannedCount_le (h : Walked ctx state)
    (hdistinct : (ctx.plan.map fun candidate => candidate.account.id).Nodup) :
    plannedCount state.ordered state.progress ≤ ctx.plan.length := by
  have hnodup : (state.ordered.map fun candidate => candidate.account.id).Nodup :=
    hdistinct.sublist (h.offered.map _)
  have hdisjoint : (state.ordered.map fun candidate => candidate.account.id).Disjoint
      (state.progress.attemptedAccountIds.filter fun id =>
        !decide (id ∈ state.ordered.map fun candidate => candidate.account.id)).dedup := by
    intro id hoffered hgone
    simp only [List.mem_dedup, List.mem_filter, Bool.not_eq_true', decide_eq_false_iff_not] at hgone
    exact hgone.2 hoffered
  have hplanned : (state.ordered.map fun candidate => candidate.account.id) ++
      (state.progress.attemptedAccountIds.filter fun id =>
        !decide (id ∈ state.ordered.map fun candidate => candidate.account.id)).dedup ⊆
      ctx.plan.map fun candidate => candidate.account.id := by
    intro id hid
    rcases List.mem_append.mp hid with hoffered | hgone
    · exact (h.offered.map _).subset hoffered
    · simp only [List.mem_dedup, List.mem_filter] at hgone
      exact List.mem_map.mpr (h.planned id hgone.1)
  have hcount := (List.Nodup.subperm (List.nodup_append'.mpr ⟨hnodup, List.nodup_dedup _, hdisjoint⟩)
    hplanned).length_le
  simpa [plannedCount] using hcount

/-- Some account may be attempted wherever one is planned. -/
theorem attemptCeiling_pos {planned : Nat} (h : 0 < planned) (options : FailoverOptions) :
    0 < attemptCeiling planned options := by
  unfold attemptCeiling
  split
  · exact h
  · omega

/-- A planned new attempt stays under the ceiling of the whole plan. -/
theorem attempt_under_ceiling (h : Walked ctx state) (hrunning : state.result = none)
    (hdistinct : (ctx.plan.map fun candidate => candidate.account.id).Nodup) {decision : FailoverDecision}
    {candidate : Candidate} (hplans : Plans ctx state decision candidate) (hnew : inPlaceReason decision = none) :
    state.progress.attemptedAccountIds.length < attemptCeiling ctx.plan.length ctx.failover := by
  rcases hplans.cases with ⟨_, _, _, rfl, ⟨hnone, _⟩ | ⟨_, _, hceiling, _⟩⟩ | ⟨_, rfl, _⟩ | ⟨_, _, rfl, _⟩
  · rw [h.fresh hrunning hnone]
    exact attemptCeiling_pos (List.length_pos_of_mem (h.offered.subset hplans.offered)) _
  · exact hceiling.trans_le (attemptCeiling_mono (plannedCount_le h hdistinct) _)
  · cases hnew
  · cases hnew

/-- The attempts and the retries stay within their limits, and the counters count them until a retry that never
started ends the walk. -/
structure Budgeted (ctx : ChainContext) (state : ChainState) : Prop where
  attempts : state.progress.attemptedAccountIds.length ≤ attemptCeiling ctx.plan.length ctx.failover
  replays : (retriesFor .replay state.log).length ≤ replayCap ctx.failover
  overloads : (retriesFor .overload state.log).length ≤ overloadCap ctx.failover
  counted : Halts ctx state ∨ ((retriesFor .replay state.log).length = state.progress.inPlaceRetries ∧
    (retriesFor .overload state.log).length = state.progress.overloadRetries)

/-- Nothing is spent at the start. -/
theorem budgeted_start (ctx : ChainContext) : Budgeted ctx ctx.start where
  attempts := Nat.zero_le _
  replays := Nat.zero_le _
  overloads := Nat.zero_le _
  counted := Or.inr ⟨rfl, rfl⟩

/-- A decision adds to the retries of its own reason only. -/
theorem retriesFor_cons_length (reason : InPlaceReason) (decision : FailoverDecision) (candidate : Candidate)
    (settled : Settled) (log : List ChainEntry) :
    (retriesFor reason (⟨decision, candidate, settled⟩ :: log)).length =
      (retriesFor reason log).length + if inPlaceReason decision = some reason then 1 else 0 := by
  unfold retriesFor
  rw [List.filter_cons]
  by_cases h : inPlaceReason decision = some reason <;> simp [h]

/-- A counted attempt stays within the limits. -/
theorem Budgeted.of_counted (h : Budgeted ctx state) (hwalked : Walked ctx state) (hrunning : state.result = none)
    (hdistinct : (ctx.plan.map fun candidate => candidate.account.id).Nodup) {decision : FailoverDecision}
    {candidate : Candidate} (hplans : Plans ctx state decision candidate) {next : ChainState} {settled : Settled}
    (hattempted : next.progress.attemptedAccountIds = (state.counted decision candidate).attemptedAccountIds)
    (hreplays : next.progress.inPlaceRetries = (state.counted decision candidate).inPlaceRetries)
    (hoverloads : next.progress.overloadRetries = (state.counted decision candidate).overloadRetries)
    (hlog : next.log = ⟨decision, candidate, settled⟩ :: state.log) : Budgeted ctx next := by
  obtain ⟨hreplayed, hwaited⟩ := h.counted.resolve_left fun hhalts => hhalts.not_plans hrunning hplans
  obtain ⟨hattempts, hreplayCap, hoverloadCap, _⟩ := h
  have hmore (reason : InPlaceReason) : (retriesFor reason next.log).length =
      (retriesFor reason state.log).length + if inPlaceReason decision = some reason then 1 else 0 := by
    rw [hlog]
    exact retriesFor_cons_length reason decision candidate settled state.log
  have hlength := congrArg List.length hattempted
  have hreplayLog := hmore .replay
  have hoverloadLog := hmore .overload
  rcases hwalked.counted_cases hrunning hplans with ⟨hreason, _, heq⟩ | ⟨hreason, _, hbudget, heq⟩ |
    ⟨hreason, _, hbudget, heq⟩
  · have hceiling := attempt_under_ceiling hwalked hrunning hdistinct hplans hreason
    simp only [heq, hreason, List.length_append, List.length_singleton, reduceCtorEq, if_false] at *
    exact ⟨by omega, by omega, by omega, Or.inr ⟨by omega, by omega⟩⟩
  · simp only [heq, hreason, reduceCtorEq, Option.some.injEq, if_false, if_true] at *
    exact ⟨by omega, by omega, by omega, Or.inr ⟨by omega, by omega⟩⟩
  · simp only [heq, hreason, reduceCtorEq, Option.some.injEq, if_false, if_true] at *
    exact ⟨by omega, by omega, by omega, Or.inr ⟨by omega, by omega⟩⟩

/-- A candidate that was refused or never prepared stays within the limits. -/
theorem Budgeted.dropped (h : Budgeted ctx state) (hwalked : Walked ctx state) (hrunning : state.result = none)
    {decision : FailoverDecision} {candidate : Candidate} (hplans : Plans ctx state decision candidate)
    (settled : Settled) : Budgeted ctx (state.dropped decision candidate settled) := by
  obtain ⟨hreplayed, hwaited⟩ := h.counted.resolve_left fun hhalts => hhalts.not_plans hrunning hplans
  have hreplayLog := retriesFor_cons_length .replay decision candidate settled state.log
  have hoverloadLog := retriesFor_cons_length .overload decision candidate settled state.log
  refine ⟨h.attempts, ?_, ?_, ?_⟩
  all_goals
    dsimp only [ChainState.dropped, ChainState.logged]
    rcases hwalked.counted_cases hrunning hplans with ⟨hreason, _⟩ | ⟨hreason, _, hbudget, _⟩ |
      ⟨hreason, _, hbudget, _⟩
    all_goals simp only [hreason, reduceCtorEq, Option.some.injEq, if_true, if_false] at hreplayLog hoverloadLog
  · exact hreplayLog.trans_le h.replays
  · omega
  · exact hreplayLog.trans_le h.replays
  · exact hoverloadLog.trans_le h.overloads
  · exact hoverloadLog.trans_le h.overloads
  · omega
  · exact Or.inr ⟨hreplayLog.trans hreplayed, hoverloadLog.trans hwaited⟩
  · exact Or.inl (Or.inr (planNextAttempt_dropped_retry hplans (by simp [hreason]) settled))
  · exact Or.inl (Or.inr (planNextAttempt_dropped_retry hplans (by simp [hreason]) settled))

/-- Every move stays within the limits. -/
theorem Budgeted.move {turn : Turn} {next : ChainState} (h : Budgeted ctx state) (hwalked : Walked ctx state)
    (hrunning : state.result = none) (hdistinct : (ctx.plan.map fun candidate => candidate.account.id).Nodup)
    (hmove : ChainMove ctx state turn next) : Budgeted ctx next := by
  cases hmove with
  | halted result _ _ => exact ⟨h.attempts, h.replays, h.overloads, Or.inl (Or.inl rfl)⟩
  | dropped decision candidate settled hplans _ => exact h.dropped hwalked hrunning hplans settled
  | invalidated decision candidate message hplans =>
    exact h.of_counted hwalked hrunning hdistinct hplans rfl rfl rfl rfl
  | failed decision candidate failure hplans _ =>
    exact h.of_counted hwalked hrunning hdistinct hplans (by simp [ChainState.failedWith])
      (by simp [ChainState.failedWith]) (by simp [ChainState.failedWith]) rfl
  | concluded decision candidate settled result progress hplans _ _ hprogress =>
    rcases hprogress with rfl | rfl <;>
      exact h.of_counted hwalked hrunning hdistinct hplans rfl rfl rfl rfl

/-- Every run over distinct accounts stays within the limits. -/
theorem runChain_budgeted (ctx : ChainContext) (turns : List Turn)
    (hdistinct : (ctx.plan.map fun candidate => candidate.account.id).Nodup) :
    Budgeted ctx (runChain ctx turns) := by
  have hinvariant := runChain_invariant (fun state => Walked ctx state ∧ Budgeted ctx state)
    ⟨walked_start ctx, budgeted_start ctx⟩ (fun state turn next h hrunning hmove =>
      ⟨h.1.move hrunning hmove, h.2.move h.1 hrunning hdistinct hmove⟩) turns
  exact hinvariant.2

end Budget

section Completeness

/-- The attempt failed for a reason to walk on, or did not fail. -/
def Settled.retryable : Settled → Bool
  | .failed kind => isRetryable kind
  | .invalid => false
  | _ => true

/-- The last failure is in the log, and a loop left without an answer was stopped by the planner. -/
structure Told (ctx : ChainContext) (state : ChainState) : Prop where
  unstreamed : state.result = none → state.progress.bytesStreamed = false
  seen : ∀ failure, state.lastFailure = some failure →
    ∃ entry ∈ state.log, entry.settled = .failed failure.kind ∨ entry.settled = .invalid
  stopped : ∀ result, state.result = some result → result.exhausted →
    state.progress.bytesStreamed = false ∧ ∃ reason,
      planNextAttempt state.ordered state.progress state.lastFailure ctx.failover = .stop reason

/-- Nothing has failed at the start. -/
theorem told_start (ctx : ChainContext) : Told ctx ctx.start where
  unstreamed := fun _ => rfl
  seen := by simp [ChainContext.start]
  stopped := by simp [ChainContext.start]

@[simp] theorem recordAttempt_bytesStreamed (progress : FailoverProgress) (accountId : String)
    (reason : Option InPlaceReason) :
    (recordAttempt progress accountId reason).bytesStreamed = progress.bytesStreamed := by
  rcases reason with _ | _ | _ <;> rfl

@[simp] theorem noteOverload_bytesStreamed (progress : FailoverProgress) (accountId : String)
    (kind : FailureKind) : (noteOverload progress accountId kind).bytesStreamed = progress.bytesStreamed := by
  unfold noteOverload
  split_ifs <;> rfl

/-- Every move keeps the last failure in the log and is only left where the planner stops. -/
theorem Told.move {turn : Turn} {next : ChainState} (h : Told ctx state) (hwalked : Walked ctx state)
    (hrunning : state.result = none) (hmove : ChainMove ctx state turn next) : Told ctx next := by
  have hunstreamed := h.unstreamed hrunning
  have hlater (entry : ChainEntry) (failure : AttemptFailure) (hlast : state.lastFailure = some failure) :
      ∃ seen ∈ entry :: state.log, seen.settled = .failed failure.kind ∨ seen.settled = .invalid := by
    obtain ⟨seen, hmem, hseen⟩ := h.seen failure hlast
    exact ⟨seen, List.mem_cons_of_mem _ hmem, hseen⟩
  cases hmove with
  | halted result hstopped hunplanned =>
    refine ⟨by simp, h.seen, fun other hother hexhausted => ⟨hunstreamed, ?_⟩⟩
    obtain rfl := Option.some.inj hother
    cases result with
    | stopped reason => exact ⟨reason, hstopped reason rfl⟩
    | unplanned =>
      obtain ⟨decision, candidate, hplans, hgone⟩ := hunplanned rfl
      exact absurd (List.mem_map_of_mem (hwalked.offered.subset hplans.offered)) hgone
    | served | cancelled | threw => cases hexhausted
  | dropped decision candidate settled _ _ =>
    exact ⟨fun _ => hunstreamed, fun failure hlast => hlater _ failure hlast,
      by simp [ChainState.dropped, ChainState.logged, hrunning]⟩
  | invalidated decision candidate message _ =>
    refine ⟨fun _ => ?_, fun failure _ => ⟨_, List.mem_cons_self, Or.inr rfl⟩,
      by simp [ChainState.invalidated, ChainState.logged, hrunning]⟩
    simpa [ChainState.invalidated, ChainState.counted] using hunstreamed
  | failed decision candidate failure _ _ =>
    refine ⟨fun _ => ?_, fun last hlast => ⟨_, List.mem_cons_self, Or.inl ?_⟩,
      by simp [ChainState.failedWith, ChainState.logged, hrunning]⟩
    · simpa [ChainState.failedWith, ChainState.counted] using hunstreamed
    · cases hlast
      rfl
  | concluded decision candidate settled result progress _ _ hresult _ =>
    refine ⟨by simp [ChainState.over], fun failure hlast => hlater _ failure hlast,
      fun other hother hexhausted => ?_⟩
    obtain rfl := Option.some.inj hother
    simp [hresult] at hexhausted

/-- A planned count within the attempts means that everyone offered was attempted. -/
theorem attempted_of_plannedCount_le {ordered : List Candidate} {progress : FailoverProgress}
    (hdistinct : progress.attemptedAccountIds.Nodup)
    (h : plannedCount ordered progress ≤ progress.attemptedAccountIds.length) {candidate : Candidate}
    (hoffered : candidate ∈ ordered) : candidate.account.id ∈ progress.attemptedAccountIds := by
  unfold plannedCount at h
  dsimp only at h
  rw [List.dedup_eq_self.mpr (hdistinct.filter _)] at h
  have hsplit := List.length_eq_length_filter_add
    (l := progress.attemptedAccountIds) (fun id => decide (id ∈ ordered.map fun other => other.account.id))
  have hkept : (progress.attemptedAccountIds.filter fun id =>
      decide (id ∈ ordered.map fun other => other.account.id)) ⊆
        ordered.map fun other => other.account.id := fun id hid => by simpa using (List.mem_filter.mp hid).2
  have hperm := ((hdistinct.filter _).subperm hkept).perm_of_length_le (by
    rw [List.length_map]
    omega)
  exact (List.mem_filter.mp (hperm.mem_iff.mpr (List.mem_map_of_mem hoffered))).1

/-- Where no ceiling is set and the last failure is retryable, the planner stops only once everyone
offered was attempted. -/
theorem attempted_of_stop {ordered : List Candidate} {progress : FailoverProgress}
    {lastFailure : Option AttemptFailure} {options : FailoverOptions} {reason : FailoverStopReason}
    (hdistinct : progress.attemptedAccountIds.Nodup) (hunstreamed : progress.bytesStreamed = false)
    (hceiling : options.maxAttempts = none)
    (hretryable : ∀ failure, lastFailure = some failure → isRetryable failure.kind)
    (h : planNextAttempt ordered progress lastFailure options = .stop reason) {candidate : Candidate}
    (hoffered : candidate ∈ ordered) : candidate.account.id ∈ progress.attemptedAccountIds := by
  cases lastFailure with
  | none =>
    cases ordered with
    | nil => simp at hoffered
    | cons head rest => simp [planNextAttempt, firstAttempt] at h
  | some failure =>
    have hkind := hretryable failure rfl
    have hstale : failure.kind ≠ .staleSession := fun hstale => not_isRetryable_of_stale hstale hkind
    unfold planNextAttempt at h
    simp only [hunstreamed, Bool.false_eq_true, if_false, if_neg hstale, hkind, Bool.not_true] at h
    split at h
    · next hspent =>
      refine attempted_of_plannedCount_le hdistinct ?_ hoffered
      simpa [attemptCeiling, hceiling] using hspent
    · split at h
      · next hnext => simpa using List.find?_eq_none.mp hnext candidate hoffered
      · cases h

/-- A loop left without an answer, with no ceiling and retryable failures only, attempted or dropped
every planned account. -/
theorem runChain_complete (ctx : ChainContext) (turns : List Turn) (hceiling : ctx.failover.maxAttempts = none)
    (hretryable : ∀ entry ∈ (runChain ctx turns).log, entry.settled.retryable) {result : ChainResult}
    (hresult : (runChain ctx turns).result = some result) (hexhausted : result.exhausted) {candidate : Candidate}
    (hplanned : candidate ∈ ctx.plan) : candidate.account.id ∈ attemptedIds (runChain ctx turns).log ∨
      candidate.account.id ∈ droppedIds (runChain ctx turns).log := by
  obtain ⟨hwalked, htold⟩ := runChain_invariant (fun state => Walked ctx state ∧ Told ctx state)
    ⟨walked_start ctx, told_start ctx⟩ (fun state turn next h hrunning hmove =>
      ⟨h.1.move hrunning hmove, h.2.move h.1 hrunning hmove⟩) turns
  obtain ⟨hunstreamed, reason, hstop⟩ := htold.stopped result hresult hexhausted
  have hlast (failure : AttemptFailure) (h : (runChain ctx turns).lastFailure = some failure) :
      isRetryable failure.kind := by
    obtain ⟨entry, hmem, hfailed | hinvalid⟩ := htold.seen failure h
    · simpa [hfailed, Settled.retryable] using hretryable entry hmem
    · simpa [hinvalid, Settled.retryable] using hretryable entry hmem
  have hattempted (h : candidate.account.id ∈ (runChain ctx turns).progress.attemptedAccountIds) :
      candidate.account.id ∈ attemptedIds (runChain ctx turns).log := by
    rw [hwalked.attempted] at h
    exact List.mem_reverse.mp h
  rcases hwalked.accounted candidate hplanned with hoffered | hdone | hgone
  · exact Or.inl (hattempted (attempted_of_stop hwalked.distinct hunstreamed hceiling hlast hstop hoffered))
  · exact Or.inl (hattempted hdone)
  · exact Or.inr hgone

end Completeness

/-- The walk over distinct planned accounts ends; its attempts go to distinct accounts under the
ceiling, its retries stay within their limits, and without a ceiling and with retryable failures it
is left without an answer only after everyone planned was attempted or dropped. -/
theorem runChain_bounded_and_complete (ctx : ChainContext) (turns : List Turn)
    (hdistinct : (ctx.plan.map fun candidate => candidate.account.id).Nodup) :
    (2 * ctx.plan.length + replayCap ctx.failover + overloadCap ctx.failover < turns.length →
        (runChain ctx turns).result.isSome) ∧
      (attemptedIds (runChain ctx turns).log).Nodup ∧
      (attemptedIds (runChain ctx turns).log).length ≤ attemptCeiling ctx.plan.length ctx.failover ∧
      (retriesFor .replay (runChain ctx turns).log).length ≤ replayCap ctx.failover ∧
      (retriesFor .overload (runChain ctx turns).log).length ≤ overloadCap ctx.failover ∧
      (ctx.failover.maxAttempts = none → (∀ entry ∈ (runChain ctx turns).log, entry.settled.retryable) →
        ∀ result, (runChain ctx turns).result = some result → result.exhausted →
          ∀ candidate ∈ ctx.plan, candidate.account.id ∈ attemptedIds (runChain ctx turns).log ∨
            candidate.account.id ∈ droppedIds (runChain ctx turns).log) := by
  have hwalked := runChain_walked ctx turns
  have hbudget := runChain_budgeted ctx turns hdistinct
  refine ⟨runChain_finishes ctx turns, ?_, ?_, hbudget.replays, hbudget.overloads,
    fun hceiling hretryable result hresult hexhausted candidate hplanned =>
      runChain_complete ctx turns hceiling hretryable hresult hexhausted hplanned⟩
  · have := hwalked.distinct
    rwa [hwalked.attempted, List.nodup_reverse] at this
  · have := hbudget.attempts
    rwa [hwalked.attempted, List.length_reverse] at this

/-- A limited, B limited, and the walk is over: both were attempted, once each. -/
theorem runChain_bounded_and_complete_two :
    (∀ candidate ∈ twoAccounts.plan, candidate.account.id ∈ attemptedIds (runChain twoAccounts
        [failing .rateLimited, failing .rateLimited, failing .rateLimited]).log ∨
      candidate.account.id ∈ droppedIds (runChain twoAccounts
        [failing .rateLimited, failing .rateLimited, failing .rateLimited]).log) ∧
    (attemptedIds (runChain twoAccounts
      [failing .rateLimited, failing .rateLimited, failing .rateLimited]).log).length ≤ 2 := by
  obtain ⟨_, _, hceiling, _, _, hcomplete⟩ := runChain_bounded_and_complete twoAccounts
    [failing .rateLimited, failing .rateLimited, failing .rateLimited] (by decide)
  have hstopped : (runChain twoAccounts
      [failing .rateLimited, failing .rateLimited, failing .rateLimited]).result.any
        ChainResult.exhausted = true := by decide +kernel
  refine ⟨?_, hceiling⟩
  cases hresult : (runChain twoAccounts
      [failing .rateLimited, failing .rateLimited, failing .rateLimited]).result with
  | none => simp [hresult] at hstopped
  | some result =>
    exact hcomplete rfl (by decide +kernel) result hresult (by simpa [hresult] using hstopped)

end MultiAiRouter.Dataplane
