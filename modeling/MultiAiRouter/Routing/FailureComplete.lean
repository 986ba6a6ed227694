import MultiAiRouter.Routing.SelectSafety

/-!
# What a failed selection accounts for

A selection that fails without waiting for its binding offered nobody, so every group evaluated
everyone in it, its overflow included, and dropped them all: the rejected list is the scope, each
account once.
-/

namespace MultiAiRouter.Routing

open Common

/-- A rejection carries the id of the member it is of. -/
theorem evaluateCandidate_accountId {member : ScopedAccount} {model : String} {now : Instant}
    {options : SelectionOptions} {rejected : RejectedCandidate}
    (h : evaluateCandidate member model now options = .error rejected) :
    rejected.accountId = member.account.id := by
  unfold evaluateCandidate at h
  dsimp only at h
  repeat' split at h
  all_goals cases h
  all_goals rfl

/-- The filter drops a member exactly as the verdict on it says. -/
theorem mem_filterCandidates_rejected {members : List ScopedAccount} {model : String} {now : Instant}
    {options : SelectionOptions} {rejected : RejectedCandidate} :
    rejected ∈ (filterCandidates members model now options).rejected ↔
      ∃ member ∈ members, evaluateCandidate member model now options = .error rejected := by
  simp only [filterCandidates, List.mem_filterMap]
  refine exists_congr fun member => and_congr_right fun _ => ?_
  cases evaluateCandidate member model now options <;> simp

section Rejected

variable {group : ScopeGroup} {request : SelectionRequest} {snapshot : RoutingSnapshot}
  {options : SelectionOptions}

/-- Whoever a group drops is one of its own members, with the verdict on it. -/
theorem resolveGroup_rejected {rejected : RejectedCandidate}
    (h : rejected ∈ (resolveGroup group request snapshot options).rejected) :
    ∃ member ∈ group.everyone, evaluateCandidate member request.model snapshot.now options = .error rejected := by
  have hprimary (h : rejected ∈ (filterCandidates group.members request.model snapshot.now options).rejected) :
      ∃ member ∈ group.everyone, evaluateCandidate member request.model snapshot.now options = .error rejected := by
    obtain ⟨member, hmember, herror⟩ := mem_filterCandidates_rejected.mp h
    exact ⟨member, List.mem_append_left _ hmember, herror⟩
  unfold resolveGroup at h
  dsimp only at h
  split at h
  · exact hprimary h
  · next overflow hoverflow =>
    split at h
    · exact hprimary h
    · split at h
      · next dropped herror =>
        rcases List.mem_append.mp h with hmem | hlast
        · exact hprimary hmem
        · obtain rfl := List.mem_singleton.mp hlast
          exact ⟨overflow, List.mem_append_right _ (by simp [hoverflow]), herror⟩
      · exact hprimary h

/-- A group that offers nobody drops everyone, its overflow included. -/
theorem resolveGroup_drops_everyone (hnone : (resolveGroup group request snapshot options).eligible = [])
    {member : ScopedAccount} (hmember : member ∈ group.everyone) :
    ∃ rejected ∈ (resolveGroup group request snapshot options).rejected,
      evaluateCandidate member request.model snapshot.now options = .error rejected := by
  have hempty : (filterCandidates group.members request.model snapshot.now options).eligible = [] := by
    rw [List.eq_nil_iff_forall_not_mem]
    intro candidate hcandidate
    have hoffered : candidate ∈ (resolveGroup group request snapshot options).eligible :=
      filterCandidates_subset_eligible hcandidate
    simp [hnone] at hoffered
  cases hverdict : evaluateCandidate member request.model snapshot.now options with
  | ok candidate =>
    obtain ⟨offered, hoffered⟩ := resolveGroup_nonempty hmember hverdict
    simp [hnone] at hoffered
  | error rejected =>
    refine ⟨rejected, ?_, rfl⟩
    rcases List.mem_append.mp hmember with hprimary | hoverflow
    · have hdropped := mem_filterCandidates_rejected.mpr ⟨member, hprimary, hverdict⟩
      unfold resolveGroup
      dsimp only
      split
      · exact hdropped
      · split
        · exact hdropped
        · split
          · exact List.mem_append_left _ hdropped
          · exact hdropped
    · have hoverflow : group.overflow = some member := Option.mem_toList.mp hoverflow
      simp [resolveGroup, hoverflow, hempty, hverdict]

end Rejected

section Failure

variable {snapshot : RoutingSnapshot} {request : SelectionRequest} {options : SelectionOptions}
  {error : RouterError} {decision : SelectionDecision}

/-- A selection that fails without a blocked binding has no preferred candidate. -/
theorem selectAccounts_failure (h : selectAccounts snapshot request options = .failure error decision)
    (hbinding : decision.binding.isBlocked = false) :
    decision = selectionDecision snapshot request options ∧ preferredCandidates snapshot request options = [] ∧
      error = unboundError
        { scope := decision.scope, groups := decision.groups, rejected := decision.rejected
          binding := decision.binding, now := snapshot.now, model := some request.model
          unknownResetRetryAfterSeconds := options.unknownResetRetryAfterSeconds } := by
  unfold selectAccounts at h
  dsimp only at h
  split at h
  · next hfails =>
    cases h
    refine ⟨rfl, ?_, ?_⟩
    · simp only [hbinding, Bool.false_or, decide_eq_true_eq] at hfails
      have hlength := (headed_perm (preferredCandidates snapshot request options)
        (selectionDecision snapshot request options).binding).length_eq
      exact List.length_eq_zero_iff.mp (hlength ▸ hfails)
    · generalize (selectionDecision snapshot request options).binding = binding at hbinding ⊢
      cases binding with
      | blocked accountId reason resetsAt resetSource => cases hbinding
      | none => rfl
      | honored accountId => rfl
      | invalidated accountId reason => rfl
  · cases h

/-- With no preferred candidate no group offers anybody. -/
theorem eligible_eq_nil (hnone : preferredCandidates snapshot request options = []) {group : ScopeGroup}
    (hgroup : group ∈ (resolveScope snapshot request options).groups) :
    (resolveGroup group request snapshot options).eligible = [] := by
  rw [List.eq_nil_iff_forall_not_mem]
  intro candidate hcandidate
  obtain ⟨kept, hkept, -⟩ := exists_mem_preferredCandidates hgroup hcandidate
  simp [hnone] at hkept

/-- A `Set`'s elements in insertion order, each once. -/
theorem insertionOrder_nodup (ids : List String) : (insertionOrder ids).Nodup :=
  List.nodup_reverse.mpr (List.nodup_dedup _)

theorem mem_insertionOrder {ids : List String} {id : String} : id ∈ insertionOrder ids ↔ id ∈ ids := by
  simp [insertionOrder]

/-- The rejected ids of a selection that offered nobody are the ids in scope. -/
theorem rejected_perm_scope (hnone : preferredCandidates snapshot request options = []) :
    ((selectionDecision snapshot request options).rejected.map fun entry => entry.accountId).Perm
      (selectionDecision snapshot request options).scope.inScopeAccountIds := by
  refine (List.perm_ext_iff_of_nodup (distinctBy_nodup _ _ _) (insertionOrder_nodup _)).mpr fun id => ?_
  rw [List.mem_map, mem_insertionOrder, List.mem_flatMap]
  constructor
  · rintro ⟨entry, hentry, rfl⟩
    obtain ⟨group, hgroup, hdropped⟩ := List.mem_flatMap.mp (mem_distinctBy _ hentry).1
    obtain ⟨member, hmember, herror⟩ := resolveGroup_rejected hdropped
    exact ⟨group, hgroup, List.mem_map.mpr ⟨member, hmember, (evaluateCandidate_accountId herror).symm⟩⟩
  · rintro ⟨group, hgroup, hid⟩
    obtain ⟨member, hmember, rfl⟩ := List.mem_map.mp hid
    obtain ⟨entry, hdropped, herror⟩ := resolveGroup_drops_everyone (eligible_eq_nil hnone hgroup) hmember
    have hjoined : entry ∈ (resolveScope snapshot request options).groups.flatMap fun group =>
        (resolveGroup group request snapshot options).rejected :=
      List.mem_flatMap.mpr ⟨group, hgroup, hdropped⟩
    obtain ⟨kept, hkept, hkey⟩ := exists_mem_distinctBy (fun entry : RejectedCandidate => entry.accountId)
      hjoined List.not_mem_nil
    exact ⟨kept, hkept, hkey.trans (evaluateCandidate_accountId herror)⟩

end Failure

section Classification

/-- The recoverable rejections, the ones a clock ends. -/
def recoverable (rejected : List RejectedCandidate) : List RejectedCandidate :=
  rejected.filter fun entry => isRecoverableFilterReason entry.reason

/-- The earlier of the reset held so far and the one this entry states, with its entry. -/
def earlierReset (held : Option (Instant × RejectedCandidate)) (entry : RejectedCandidate) :
    Option (Instant × RejectedCandidate) :=
  match entry.resetsAt, held with
  | none, _ => held
  | some reset, none => some (reset, entry)
  | some reset, some (first, _) => if reset < first then some (reset, entry) else held

/-- What the fold over the entries ends with, as the reset a 429 names. -/
def namedReset : Option (Instant × RejectedCandidate) → Reset
  | none => {}
  | some (reset, entry) => { resetsAt := some reset, resetSource := entry.resetSource, reason := some entry.reason }

theorem earliestRecoverable_eq (entries : List RejectedCandidate) :
    earliestRecoverable entries = namedReset (entries.foldl earlierReset none) := rfl

/-- The fold keeps the earliest reset it has seen. -/
theorem foldl_earlierReset (entries : List RejectedCandidate) (held : Option (Instant × RejectedCandidate)) :
    (entries.foldl earlierReset held).map Prod.fst =
      ((held.map Prod.fst).toList ++ entries.filterMap fun entry => entry.resetsAt).min? := by
  induction entries generalizing held with
  | nil => cases held <;> rfl
  | cons entry rest ih =>
    rw [List.foldl_cons, ih, List.filterMap_cons]
    cases hreset : entry.resetsAt with
    | none => simp [earlierReset, hreset]
    | some reset =>
      cases held with
      | none => simp [earlierReset, hreset]
      | some first =>
        have hfirst : (earlierReset (some first) entry).map Prod.fst = some (min first.1 reset) := by
          by_cases hearlier : reset < first.1
          · simp [earlierReset, hreset, hearlier, hearlier.le]
          · simp [earlierReset, hreset, hearlier, le_of_not_gt hearlier]
        rw [hfirst]
        rfl

/-- The reset a 429 names is the earliest one stated. -/
theorem earliestRecoverable_resetsAt (entries : List RejectedCandidate) :
    (earliestRecoverable entries).resetsAt = (entries.filterMap fun entry => entry.resetsAt).min? := by
  have hfold := foldl_earlierReset entries none
  simp only [Option.map_none, Option.toList_none, List.nil_append] at hfold
  rw [earliestRecoverable_eq, ← hfold]
  cases entries.foldl earlierReset none with
  | none => rfl
  | some held => rfl

theorem one_le_retryAfterSeconds (resetsAt now : Instant) : 1 ≤ retryAfterSeconds resetsAt now := le_max_left ..

/-- What the pool's error says of its status, and of its wait when it is a 429. -/
theorem unboundError_class (input : NoCandidatesInput) :
    (input.scope.inScopeAccountIds = [] ∧ (unboundError input).status = 403) ∨
    (input.scope.inScopeAccountIds ≠ [] ∧ recoverable input.rejected ≠ [] ∧
      (unboundError input).status = 429 ∧ ∃ message detail, unboundError input =
        .quotaExhausted message ((recoverable input.rejected).filterMap fun entry => entry.resetsAt).min?
          ((((recoverable input.rejected).filterMap fun entry => entry.resetsAt).min?.map
            fun reset => retryAfterSeconds reset input.now).getD
              (input.unknownResetRetryAfterSeconds.getD defaultUnknownResetRetryAfterSeconds)) detail) ∨
    (input.scope.inScopeAccountIds ≠ [] ∧ recoverable input.rejected = [] ∧
      (∃ entry ∈ input.rejected, entry.reason = .exhausted) ∧ (unboundError input).status = 402) ∨
    (input.scope.inScopeAccountIds ≠ [] ∧ recoverable input.rejected = [] ∧
      (¬ ∃ entry ∈ input.rejected, entry.reason = .exhausted) ∧ (unboundError input).status = 503) := by
  unfold unboundError
  dsimp only
  by_cases hscope : input.scope.inScopeAccountIds.length = 0
  · rw [if_pos hscope]
    exact Or.inl ⟨List.length_eq_zero_iff.mp hscope, rfl⟩
  · rw [if_neg hscope]
    have hscope : input.scope.inScopeAccountIds ≠ [] := fun hnil => hscope (by rw [hnil]; rfl)
    by_cases hrecoverable : 0 < (recoverable input.rejected).length
    · refine Or.inr (Or.inl ⟨hscope, List.length_pos_iff.mp hrecoverable, ?_⟩)
      rw [if_pos (show 0 < (input.rejected.filter fun entry => isRecoverableFilterReason entry.reason).length from
        hrecoverable)]
      refine ⟨quotaError_status .., ?_⟩
      unfold quotaError
      rw [show (earliestRecoverable (input.rejected.filter fun entry =>
        isRecoverableFilterReason entry.reason)).resetsAt = _ from earliestRecoverable_resetsAt
        (recoverable input.rejected)]
      cases ((recoverable input.rejected).filterMap fun entry => entry.resetsAt).min? with
      | none => exact ⟨_, _, rfl⟩
      | some reset => exact ⟨_, _, rfl⟩
    · have hnone : recoverable input.rejected = [] := by simpa using hrecoverable
      have hmem : 0 < (input.rejected.filter fun entry => entry.reason == .exhausted).length ↔
          ∃ entry ∈ input.rejected, entry.reason = .exhausted := by
        rw [List.length_pos_iff_exists_mem]
        simp [List.mem_filter]
      rw [if_neg (show ¬ 0 < (input.rejected.filter fun entry => isRecoverableFilterReason entry.reason).length from
        hrecoverable)]
      by_cases hexhausted : 0 < (input.rejected.filter fun entry => entry.reason == .exhausted).length
      · rw [if_pos hexhausted]
        exact Or.inr (Or.inr (Or.inl ⟨hscope, hnone, hmem.mp hexhausted, rfl⟩))
      · rw [if_neg hexhausted]
        refine Or.inr (Or.inr (Or.inr ⟨hscope, hnone, fun hsome => hexhausted (hmem.mpr hsome), ?_⟩))
        split <;> rfl

/-- A failed selection that does not wait for its binding rejects every account in scope, each once, and nobody
else: a 403 exactly when nobody is in scope, else a 429 exactly when a rejection is recoverable, else a 402 exactly
when one is exhausted, else a 503. A 429 waits for the earliest reset stated. -/
theorem selectAccounts_failure_complete {snapshot : RoutingSnapshot} {request : SelectionRequest}
    {options : SelectionOptions} {error : RouterError} {decision : SelectionDecision}
    (h : selectAccounts snapshot request options = .failure error decision)
    (hbinding : decision.binding.isBlocked = false) :
    (decision.rejected.map fun entry => entry.accountId).Nodup ∧
    (∀ id, id ∈ decision.rejected.map (fun entry => entry.accountId) ↔
      ∃ group ∈ (resolveScope snapshot request options).groups, ∃ member ∈ group.everyone, member.account.id = id) ∧
    (decision.rejected.map fun entry => entry.accountId).Perm decision.scope.inScopeAccountIds ∧
    (error.status = 403 ↔ decision.scope.inScopeAccountIds = []) ∧
    (decision.scope.inScopeAccountIds ≠ [] → (error.status = 429 ↔ recoverable decision.rejected ≠ []) ∧
      (recoverable decision.rejected = [] →
        (error.status = 402 ↔ ∃ entry ∈ decision.rejected, entry.reason = .exhausted) ∧
        ((¬ ∃ entry ∈ decision.rejected, entry.reason = .exhausted) → error.status = 503))) ∧
    (error.status = 429 → ∃ message resetsAt retryAfter detail,
      error = .quotaExhausted message resetsAt retryAfter detail ∧
      resetsAt = ((recoverable decision.rejected).filterMap fun entry => entry.resetsAt).min? ∧
      (∀ reset, resetsAt = some reset → retryAfter = retryAfterSeconds reset snapshot.now ∧ 1 ≤ retryAfter) ∧
      (resetsAt = none → retryAfter =
        options.unknownResetRetryAfterSeconds.getD defaultUnknownResetRetryAfterSeconds) ∧
      ((∀ floor, options.unknownResetRetryAfterSeconds = some floor → 1 ≤ floor) → 1 ≤ retryAfter)) := by
  obtain ⟨hdecision, hnone, herror⟩ := selectAccounts_failure h hbinding
  have hperm := rejected_perm_scope hnone
  rw [← hdecision] at hperm
  have hnodup : (decision.rejected.map fun entry => entry.accountId).Nodup :=
    hperm.nodup_iff.mpr (by rw [hdecision]; exact insertionOrder_nodup _)
  refine ⟨hnodup, fun id => ?_, hperm, ?_⟩
  · rw [hperm.mem_iff, hdecision]
    refine mem_insertionOrder.trans ?_
    simp only [List.mem_flatMap, List.mem_map]
    rfl
  · have hclass := unboundError_class
      { scope := decision.scope, groups := decision.groups, rejected := decision.rejected
        binding := decision.binding, now := snapshot.now, model := some request.model
        unknownResetRetryAfterSeconds := options.unknownResetRetryAfterSeconds }
    rw [← herror] at hclass
    dsimp only at hclass
    rcases hclass with ⟨hscope, hstatus⟩ | ⟨hscope, hrecoverable, hstatus, message, detail, hquota⟩ |
      ⟨hscope, hrecoverable, hexhausted, hstatus⟩ | ⟨hscope, hrecoverable, hexhausted, hstatus⟩
    · simp [hstatus, hscope]
    · refine ⟨by simp [hstatus, hscope], fun _ => ⟨by simp [hstatus, hrecoverable], fun hnil =>
        absurd hnil hrecoverable⟩, fun _ => ⟨message, _, _, detail, hquota, rfl, ?_, ?_, ?_⟩⟩
      · intro reset hreset
        rw [hreset]
        exact ⟨rfl, one_le_retryAfterSeconds ..⟩
      · intro hreset
        rw [hreset]
        rfl
      · intro hfloor
        cases ((recoverable decision.rejected).filterMap fun entry => entry.resetsAt).min? with
        | some reset => exact one_le_retryAfterSeconds ..
        | none =>
          cases hoption : options.unknownResetRetryAfterSeconds with
          | none => exact (by decide : (1 : Int) ≤ defaultUnknownResetRetryAfterSeconds)
          | some floor => exact hfloor floor hoption
    · simp [hstatus, hscope, hrecoverable, hexhausted]
    · simp [hstatus, hscope, hrecoverable, hexhausted]

/-- Two pools that share a cooling member; the second holds a switched-off one back as its overflow. -/
def coolingSnapshot : RoutingSnapshot :=
  { accounts := [{ id := "cooling", status := .coolingDown, health := { cooldownUntil := some 5000 } },
      { id := "drained", status := .exhausted }, { id := "spare", status := .disabled }]
    pools := [{ id := "team", members := [{ accountId := "cooling" }, { accountId := "drained" }] },
      { id := "shared", members := [{ accountId := "spare" }, { accountId := "cooling" }]
        overflowAccountId := some "spare" }]
    now := 0 }

/-- A request of a key scoped to both pools. -/
def coolingRequest : SelectionRequest :=
  { sessionKey := "session", model := "model", keyScope := .pools ["team", "shared"] }

/-- The failure is a 429 that rejects the three accounts once each and waits for five seconds. -/
theorem selectAccounts_failure_complete_cooling :
    ∃ error decision, selectAccounts coolingSnapshot coolingRequest {} = .failure error decision ∧
      (decision.rejected.map fun entry => entry.accountId).Perm ["cooling", "drained", "spare"] ∧
      error.status = 429 ∧ ∃ message detail, error = .quotaExhausted message (some 5000) 5 detail := by
  obtain ⟨error, hfails⟩ : ∃ error, selectAccounts coolingSnapshot coolingRequest {} =
      .failure error (selectionDecision coolingSnapshot coolingRequest {}) := by
    unfold selectAccounts
    dsimp only
    rw [if_pos (by decide +kernel)]
    exact ⟨_, rfl⟩
  obtain ⟨_, _, hperm, _, hclass, hquota⟩ := selectAccounts_failure_complete hfails (by decide +kernel)
  have hstatus := (hclass (by decide +kernel)).1.mpr (by decide +kernel)
  refine ⟨_, _, hfails, hperm.trans (by decide +kernel), hstatus, ?_⟩
  obtain ⟨message, resetsAt, retryAfter, detail, herror, hearliest, hretry, _⟩ := hquota hstatus
  have hreset : resetsAt = some 5000 := hearliest.trans (by decide +kernel)
  refine ⟨message, detail, herror.trans ?_⟩
  rw [hreset, (hretry 5000 hreset).1]
  rfl

end Classification

end MultiAiRouter.Routing
