import MultiAiRouter.Routing.NoCandidates
import MultiAiRouter.Routing.Policies
import MultiAiRouter.Routing.Scope

/-!
# What a selection may return

`selectAccounts` resolves the scope, decides the binding, filters and orders each group under its own policy, joins
the groups keeping each account once, puts natives first across pools, and hoists an honored binding. Every
candidate is an in-scope member that the filter accepts, and no account occurs twice. An accepted bound account
comes first; a rejected one is never a candidate.
-/

namespace MultiAiRouter.Routing

open Common

/-- The first in-scope member that is this account. -/
def findInScope (groups : List ScopeGroup) (accountId : String) : Option ScopedAccount :=
  (groups.flatMap ScopeGroup.everyone).find? fun member => member.account.id == accountId

/-- The fate of the binding: honored, kept and blocking, or given up. -/
def decideBinding (snapshot : RoutingSnapshot) (groups : List ScopeGroup)
    (boundAccountId : Option String) (model : String) (options : SelectionOptions) : BindingDecision :=
  match boundAccountId with
  | none => .none
  | some boundAccountId =>
    match findInScope groups boundAccountId with
    | none =>
      .invalidated boundAccountId
        (if snapshot.accounts.any fun account => account.id == boundAccountId then .outOfScope
          else .accountMissing)
    | some member =>
      match evaluateCandidate member model snapshot.now options with
      | .ok _ => .honored boundAccountId
      | .error rejected =>
        if h : isRecoverableFilterReason rejected.reason ∧
            (options.boundAccountCoolingDown.getD .fail = .fail ∨ rejected.reason = .probeInFlight) then
          .blocked boundAccountId ⟨rejected.reason, h.1⟩ rejected.resetsAt rejected.resetSource
        else .invalidated boundAccountId (.filtered rejected.reason)

/-- A blocked binding whose transcript can be carried moves when anything else can serve. -/
def carryBlockedBinding (binding : BindingDecision) (hasAlternative : Bool)
    (options : SelectionOptions) : BindingDecision :=
  match binding with
  | .blocked accountId reason _ _ =>
    if hasAlternative && options.carryBoundSessions then
      .invalidated accountId (.filtered reason.val)
    else binding
  | _ => binding

/-- What one group contributes before its policy runs. -/
structure ResolvedGroup where
  eligible : List Candidate
  rejected : List RejectedCandidate
  notes : List PolicyNote
  usedOverflow : Bool

/-- Filter a group; its overflow enters when the primaries are gone or it is the bound account. -/
def resolveGroup (group : ScopeGroup) (request : SelectionRequest) (snapshot : RoutingSnapshot)
    (options : SelectionOptions) : ResolvedGroup :=
  let filtered := filterCandidates group.members request.model snapshot.now options
  let boundOverflow : Bool :=
    group.overflow.map (fun member => member.account.id) == request.binding.map (fun binding => binding.accountId)
  match group.overflow with
  | none =>
    { eligible := filtered.eligible, rejected := filtered.rejected, notes := [], usedOverflow := false }
  | some overflow =>
    if 0 < filtered.eligible.length ∧ !boundOverflow then
      { eligible := filtered.eligible, rejected := filtered.rejected, notes := [], usedOverflow := false }
    else
      match evaluateCandidate overflow request.model snapshot.now options with
      | .error rejected =>
        { eligible := filtered.eligible, rejected := filtered.rejected ++ [rejected]
          notes := [], usedOverflow := false }
      | .ok candidate =>
        { eligible := filtered.eligible ++ [candidate], rejected := filtered.rejected
          notes := [.overflowEngaged candidate.account.id], usedOverflow := true }

/-- One group ordered by its own policy; a group with nobody eligible runs none. -/
def policeGroup (group : ScopeGroup) (resolved : ResolvedGroup) (request : SelectionRequest)
    (snapshot : RoutingSnapshot) (options : SelectionOptions) (decided : BindingDecision) : PolicyOutput :=
  if resolved.eligible.length = 0 then { ordered := [], notes := [] }
  else runPolicy group.policy
    { now := snapshot.now, candidates := resolved.eligible, sessionKey := request.sessionKey
      rotationCounter := group.rotationCounter, leastUsedMeasure := options.leastUsedMeasure } decided

/-- What the groups contribute in turn, each account at its first position. -/
def orderGroups (groups : List ScopeGroup) (request : SelectionRequest) (snapshot : RoutingSnapshot)
    (options : SelectionOptions) (decided : BindingDecision) : List Candidate :=
  distinctBy (fun candidate => candidate.account.id) [] <| groups.flatMap fun group =>
    (policeGroup group (resolveGroup group request snapshot options) request snapshot options decided).ordered

/-- Hoist the account of an honored binding; any other decision leaves the order alone. -/
def headed (preferred : List Candidate) : BindingDecision → List Candidate
  | .honored accountId => hoist preferred accountId
  | _ => preferred

/-- The binding is kept and the request must wait for it. -/
def BindingDecision.isBlocked : BindingDecision → Bool
  | .blocked .. => true
  | _ => false

/-- The outcome of a selection, with the decision either way. -/
inductive SelectionResult
  | success (candidates : List Candidate) (decision : SelectionDecision)
  | failure (error : RouterError) (decision : SelectionDecision)

/-- The account ids of the candidates, none on a failure. -/
def SelectionResult.candidateIds : SelectionResult → List String
  | .success candidates _ => accountIds candidates
  | .failure .. => []

section Chain

variable (snapshot : RoutingSnapshot) (request : SelectionRequest) (options : SelectionOptions)

/-- The binding decision the groups are ordered under. -/
def decidedBinding : BindingDecision :=
  decideBinding snapshot (resolveScope snapshot request options).groups
    (request.binding.map fun binding => binding.accountId) request.model options

/-- The candidates of every group in turn, natives first across pools. -/
def preferredCandidates : List Candidate :=
  (nativeFirst (orderGroups (resolveScope snapshot request options).groups request snapshot options
    (decidedBinding snapshot request options))).1

/-- The binding decision once filtering knows whether anything else can serve. -/
def finalBinding : BindingDecision :=
  carryBlockedBinding (decidedBinding snapshot request options)
    (decide (0 < (preferredCandidates snapshot request options).length)) options

/-- Why the candidates are what they are. -/
def selectionDecision : SelectionDecision :=
  let scope := resolveScope snapshot request options
  { scope := scope.diagnostics
    groups := scope.groups.map fun group =>
      let resolved := resolveGroup group request snapshot options
      let policed := policeGroup group resolved request snapshot options
        (decidedBinding snapshot request options)
      { poolId := group.poolId, poolName := group.poolName, policy := group.policy
        ordered := accountIds policed.ordered, notes := policed.notes ++ resolved.notes }
    rejected := distinctBy (fun entry => entry.accountId) [] <| scope.groups.flatMap fun group =>
      (resolveGroup group request snapshot options).rejected
    binding := finalBinding snapshot request options
    usedOverflow := scope.groups.any fun group =>
      (resolveGroup group request snapshot options).usedOverflow }

/-- The whole chain over one snapshot. -/
def selectAccounts : SelectionResult :=
  let decision := selectionDecision snapshot request options
  let candidates := headed (preferredCandidates snapshot request options) decision.binding
  if decision.binding.isBlocked || candidates.length = 0 then
    .failure (noCandidatesError
      { scope := decision.scope, groups := decision.groups, rejected := decision.rejected
        binding := decision.binding, now := snapshot.now, model := some request.model
        unknownResetRetryAfterSeconds := options.unknownResetRetryAfterSeconds }) decision
  else .success candidates decision

end Chain

/-- An accepted member becomes a candidate with the member's own data. -/
theorem evaluateCandidate_toScopedAccount {member : ScopedAccount} {model : String} {now : Instant}
    {options : SelectionOptions} {candidate : Candidate}
    (h : evaluateCandidate member model now options = .ok candidate) : candidate.toScopedAccount = member := by
  unfold evaluateCandidate at h
  dsimp only at h
  repeat' split at h
  all_goals cases h
  rfl

/-- The filter accepts a member exactly as the verdict on it says. -/
theorem mem_filterCandidates {members : List ScopedAccount} {model : String} {now : Instant}
    {options : SelectionOptions} {candidate : Candidate} :
    candidate ∈ (filterCandidates members model now options).eligible ↔
      ∃ member ∈ members, evaluateCandidate member model now options = .ok candidate := by
  simp only [filterCandidates, List.mem_filterMap]
  refine exists_congr fun member => and_congr_right fun _ => ?_
  cases evaluateCandidate member model now options <;> simp [Except.toOption]

section Group

variable {group : ScopeGroup} {request : SelectionRequest} {snapshot : RoutingSnapshot}
  {options : SelectionOptions}

/-- Whoever a group offers to its policy is one of its own members, accepted by the filter. -/
theorem resolveGroup_eligible {candidate : Candidate}
    (h : candidate ∈ (resolveGroup group request snapshot options).eligible) :
    ∃ member ∈ group.everyone, evaluateCandidate member request.model snapshot.now options = .ok candidate := by
  have hprimary (h : candidate ∈ (filterCandidates group.members request.model snapshot.now options).eligible) :
      ∃ member ∈ group.everyone, evaluateCandidate member request.model snapshot.now options = .ok candidate := by
    obtain ⟨member, hmember, hok⟩ := mem_filterCandidates.mp h
    exact ⟨member, List.mem_append_left _ hmember, hok⟩
  unfold resolveGroup at h
  dsimp only at h
  split at h
  · exact hprimary h
  · next overflow hoverflow =>
    split at h
    · exact hprimary h
    · split at h
      · exact hprimary h
      · next accepted hok =>
        rcases List.mem_append.mp h with hmem | hlast
        · exact hprimary hmem
        · obtain rfl := List.mem_singleton.mp hlast
          exact ⟨overflow, List.mem_append_right _ (by simp [hoverflow]), hok⟩

/-- The accepted primaries of a group are always offered to its policy. -/
theorem filterCandidates_subset_eligible {candidate : Candidate}
    (h : candidate ∈ (filterCandidates group.members request.model snapshot.now options).eligible) :
    candidate ∈ (resolveGroup group request snapshot options).eligible := by
  unfold resolveGroup
  dsimp only
  split
  · exact h
  · split
    · exact h
    · split
      · exact h
      · exact List.mem_append_left _ h

/-- An accepted bound account is offered to the policy, even as the group's overflow. -/
theorem resolveGroup_bound {binding : SessionBinding} {member : ScopedAccount} {candidate : Candidate}
    (hbinding : request.binding = some binding) (hmember : member ∈ group.everyone)
    (hid : member.account.id = binding.accountId)
    (hok : evaluateCandidate member request.model snapshot.now options = .ok candidate) :
    candidate ∈ (resolveGroup group request snapshot options).eligible := by
  rcases List.mem_append.mp hmember with hprimary | hoverflow
  · exact filterCandidates_subset_eligible (mem_filterCandidates.mpr ⟨member, hprimary, hok⟩)
  · have hoverflow : group.overflow = some member := Option.mem_toList.mp hoverflow
    simp [resolveGroup, hoverflow, hbinding, hid, hok]

/-- A group with an accepted account, primary or overflow, offers somebody to its policy. -/
theorem resolveGroup_nonempty {member : ScopedAccount} {candidate : Candidate} (hmember : member ∈ group.everyone)
    (hok : evaluateCandidate member request.model snapshot.now options = .ok candidate) :
    ∃ offered, offered ∈ (resolveGroup group request snapshot options).eligible := by
  cases hfiltered : (filterCandidates group.members request.model snapshot.now options).eligible with
  | cons first rest =>
    exact ⟨first, filterCandidates_subset_eligible (by simp [hfiltered])⟩
  | nil =>
    rcases List.mem_append.mp hmember with hprimary | hoverflow
    · have := mem_filterCandidates.mpr ⟨member, hprimary, hok⟩
      simp [hfiltered] at this
    · have hoverflow : group.overflow = some member := Option.mem_toList.mp hoverflow
      exact ⟨candidate, by simp [resolveGroup, hoverflow, hfiltered, hok]⟩

/-- Policing a group reorders what it offers. -/
theorem policeGroup_perm (resolved : ResolvedGroup) (decided : BindingDecision) :
    (policeGroup group resolved request snapshot options decided).ordered.Perm resolved.eligible := by
  unfold policeGroup
  split
  · next hempty =>
    rw [List.length_eq_zero_iff.mp hempty]
  · exact runPolicy_perm _ _ _

end Group

section Chain

variable {snapshot : RoutingSnapshot} {request : SelectionRequest} {options : SelectionOptions}

/-- The preferred candidates are what the groups contributed, reordered. -/
theorem preferredCandidates_perm : (preferredCandidates snapshot request options).Perm
      (orderGroups (resolveScope snapshot request options).groups request snapshot options
        (decidedBinding snapshot request options)) := nativeFirst_perm _

/-- A preferred candidate is an in-scope member the filter accepts. -/
theorem preferredCandidates_inScope {candidate : Candidate}
    (h : candidate ∈ preferredCandidates snapshot request options) :
    ∃ group ∈ (resolveScope snapshot request options).groups, ∃ member ∈ group.everyone,
      evaluateCandidate member request.model snapshot.now options = .ok candidate := by
  have hordered := (mem_distinctBy _ (preferredCandidates_perm.mem_iff.mp h)).1
  obtain ⟨group, hgroup, hpoliced⟩ := List.mem_flatMap.mp hordered
  obtain ⟨member, hmember, hok⟩ := resolveGroup_eligible ((policeGroup_perm _ _).mem_iff.mp hpoliced)
  exact ⟨group, hgroup, member, hmember, hok⟩

/-- Every candidate a group offers is preferred at some position, under its id. -/
theorem exists_mem_preferredCandidates {group : ScopeGroup} {candidate : Candidate}
    (hgroup : group ∈ (resolveScope snapshot request options).groups)
    (h : candidate ∈ (resolveGroup group request snapshot options).eligible) :
    ∃ kept ∈ preferredCandidates snapshot request options, kept.account.id = candidate.account.id := by
  have hpoliced : candidate ∈ (policeGroup group (resolveGroup group request snapshot options)
      request snapshot options (decidedBinding snapshot request options)).ordered :=
    (policeGroup_perm _ _).mem_iff.mpr h
  have hjoined : candidate ∈ (resolveScope snapshot request options).groups.flatMap fun group =>
      (policeGroup group (resolveGroup group request snapshot options) request snapshot options
        (decidedBinding snapshot request options)).ordered :=
    List.mem_flatMap.mpr ⟨group, hgroup, hpoliced⟩
  obtain ⟨kept, hkept, hid⟩ := exists_mem_distinctBy (fun candidate : Candidate => candidate.account.id)
    hjoined List.not_mem_nil
  exact ⟨kept, preferredCandidates_perm.mem_iff.mpr hkept, hid⟩

/-- Hoisting or not, the candidates are the preferred ones. -/
theorem headed_perm (preferred : List Candidate) (binding : BindingDecision) :
    (headed preferred binding).Perm preferred := by
  cases binding with
  | honored accountId => exact hoist_perm _ _
  | none => exact List.Perm.refl _
  | blocked => exact List.Perm.refl _
  | invalidated => exact List.Perm.refl _

/-- A successful selection returns the preferred candidates, hoisted. -/
theorem selectAccounts_success {candidates : List Candidate} {decision : SelectionDecision}
    (h : selectAccounts snapshot request options = .success candidates decision) :
    candidates = headed (preferredCandidates snapshot request options)
      (finalBinding snapshot request options) := by
  unfold selectAccounts at h
  dsimp only at h
  split at h
  · cases h
  · cases h
    rfl

/-- Scope safety: whatever the policies, overlaps, overflow, aliases, permits and binding, every candidate is an
account the scope admits, accepted at the clock, and no account id occurs twice. -/
theorem selectAccounts_scope_safe {candidates : List Candidate} {decision : SelectionDecision}
    (h : selectAccounts snapshot request options = .success candidates decision) :
    (∀ candidate ∈ candidates, request.keyScope.Admits snapshot candidate.toScopedAccount ∧
      evaluateCandidate candidate.toScopedAccount request.model snapshot.now options = .ok candidate) ∧
      (candidates.map fun candidate => candidate.account.id).Nodup := by
  obtain rfl := selectAccounts_success h
  have hperm := headed_perm (preferredCandidates snapshot request options) (finalBinding snapshot request options)
  constructor
  · intro candidate hmem
    obtain ⟨group, hgroup, member, hmember, hok⟩ := preferredCandidates_inScope (hperm.mem_iff.mp hmem)
    rw [evaluateCandidate_toScopedAccount hok]
    exact ⟨buildGroups_admits hgroup hmember, hok⟩
  · refine ((hperm.trans preferredCandidates_perm).map _).nodup_iff.mpr ?_
    exact distinctBy_nodup _ _ _

/-- A pool whose primary is switched off and whose other member is held back as its overflow. -/
def overflowSnapshot : RoutingSnapshot :=
  { accounts := [{ id := "primary", status := .disabled }, { id := "spare" }]
    pools := [{ id := "team", members := [{ accountId := "primary" }, { accountId := "spare" }]
                overflowAccountId := some "spare" }]
    now := 0 }

/-- A request of a key scoped to that pool, bound to its overflow account. -/
def overflowRequest : SelectionRequest :=
  { sessionKey := "session", model := "model", keyScope := .pools ["team"]
    binding := some { accountId := "spare" } }

/-- The held-back member is selected. -/
theorem overflowSnapshot_candidateIds :
    (selectAccounts overflowSnapshot overflowRequest {}).candidateIds = ["spare"] := by
  decide +kernel

/-- The engaged overflow is admitted as the membership it is, once. -/
theorem selectAccounts_scope_safe_overflow :
    ∃ candidates decision, selectAccounts overflowSnapshot overflowRequest {} = .success candidates decision ∧
      accountIds candidates = ["spare"] ∧ ∀ candidate ∈ candidates,
        overflowRequest.keyScope.Admits overflowSnapshot candidate.toScopedAccount := by
  have hids := overflowSnapshot_candidateIds
  cases h : selectAccounts overflowSnapshot overflowRequest {} with
  | success candidates decision =>
    rw [h] at hids
    exact ⟨candidates, decision, rfl, hids,
      fun candidate hmem => ((selectAccounts_scope_safe h).1 candidate hmem).1⟩
  | failure error decision =>
    rw [h] at hids
    cases hids

/-- The bound account as a member of a group is found in scope. -/
theorem findInScope_spec {groups : List ScopeGroup} {accountId : String} {member : ScopedAccount}
    (h : findInScope groups accountId = some member) :
    (∃ group ∈ groups, member ∈ group.everyone) ∧ member.account.id = accountId := by
  refine ⟨List.mem_flatMap.mp (List.mem_of_find?_eq_some h), ?_⟩
  simpa using List.find?_some h

/-- Somebody in scope can serve this request. -/
def HasAcceptedAccount (snapshot : RoutingSnapshot) (request : SelectionRequest)
    (options : SelectionOptions) : Prop :=
  ∃ group ∈ (resolveScope snapshot request options).groups, ∃ member ∈ group.everyone, ∃ candidate,
    evaluateCandidate member request.model snapshot.now options = .ok candidate

/-- There is a preferred candidate exactly when somebody in scope is accepted. -/
theorem preferredCandidates_length_pos : 0 < (preferredCandidates snapshot request options).length ↔
      HasAcceptedAccount snapshot request options := by
  rw [List.length_pos_iff_exists_mem]
  constructor
  · rintro ⟨candidate, hmem⟩
    obtain ⟨group, hgroup, member, hmember, hok⟩ := preferredCandidates_inScope hmem
    exact ⟨group, hgroup, member, hmember, candidate, hok⟩
  · rintro ⟨group, hgroup, member, hmember, candidate, hok⟩
    obtain ⟨offered, hoffered⟩ := resolveGroup_nonempty hmember hok
    obtain ⟨kept, hkept, -⟩ := exists_mem_preferredCandidates hgroup hoffered
    exact ⟨kept, hkept⟩

variable {binding : SessionBinding} {member : ScopedAccount}

/-- An accepted bound account is honored. -/
theorem decidedBinding_honored {candidate : Candidate} (hbinding : request.binding = some binding)
    (hmember : findInScope (resolveScope snapshot request options).groups binding.accountId = some member)
    (hok : evaluateCandidate member request.model snapshot.now options = .ok candidate) :
    decidedBinding snapshot request options = .honored binding.accountId := by
  simp [decidedBinding, decideBinding, hbinding, hmember, hok]

/-- `rebind` gives up the wait for a bound account, except for a probe already in flight. -/
def RebindApplies (options : SelectionOptions) (reason : FilterReason) : Prop :=
  options.boundAccountCoolingDown = some .rebind ∧ reason ≠ .probeInFlight

/-- A bound account that a clock recovers blocks, unless `rebind` applies. -/
theorem decidedBinding_blocked {rejected : RejectedCandidate} (hbinding : request.binding = some binding)
    (hmember : findInScope (resolveScope snapshot request options).groups binding.accountId = some member)
    (herror : evaluateCandidate member request.model snapshot.now options = .error rejected)
    (hrecoverable : isRecoverableFilterReason rejected.reason) (hrebind : ¬ RebindApplies options rejected.reason) :
    decidedBinding snapshot request options =
      .blocked binding.accountId ⟨rejected.reason, hrecoverable⟩ rejected.resetsAt rejected.resetSource := by
  have hwait : options.boundAccountCoolingDown.getD .fail = .fail ∨ rejected.reason = .probeInFlight := by
    by_cases hprobe : rejected.reason = .probeInFlight
    · exact Or.inr hprobe
    · left
      cases hbehavior : options.boundAccountCoolingDown with
      | none => rfl
      | some behavior =>
        cases behavior with
        | fail => rfl
        | rebind => exact absurd ⟨hbehavior, hprobe⟩ hrebind
  simp [decidedBinding, decideBinding, hbinding, hmember, herror, hrecoverable, hwait]

/-- Binding authority: an accepted bound account heads a successful selection; one a clock recovers
fails it with a 429 that keeps the binding, unless `rebind` or a carry with an alternative applies;
and one rejected wherever it is in scope is no candidate. -/
theorem selectAccounts_binding_authority (hbinding : request.binding = some binding)
    (hmember : findInScope (resolveScope snapshot request options).groups binding.accountId = some member) :
    (∀ candidate, evaluateCandidate member request.model snapshot.now options = .ok candidate →
      ∃ first rest decision, selectAccounts snapshot request options = .success (first :: rest) decision ∧
        first.account.id = binding.accountId) ∧
    (∀ rejected, evaluateCandidate member request.model snapshot.now options = .error rejected →
      isRecoverableFilterReason rejected.reason → ¬ RebindApplies options rejected.reason →
      ¬ (options.carryBoundSessions ∧ HasAcceptedAccount snapshot request options) →
      ∃ error decision reason, selectAccounts snapshot request options = .failure error decision ∧
        error.status = 429 ∧ decision.binding =
          .blocked binding.accountId reason rejected.resetsAt rejected.resetSource) ∧
    ((∀ group ∈ (resolveScope snapshot request options).groups, ∀ occurrence ∈ group.everyone,
        occurrence.account.id = binding.accountId →
        ∃ rejected, evaluateCandidate occurrence request.model snapshot.now options = .error rejected) →
      ∀ candidates decision, selectAccounts snapshot request options = .success candidates decision →
        ∀ candidate ∈ candidates, candidate.account.id ≠ binding.accountId) := by
  refine ⟨?_, ?_, ?_⟩
  · intro candidate hok
    obtain ⟨⟨group, hgroup, hin⟩, hid⟩ := findInScope_spec hmember
    obtain ⟨kept, hkept, hkeptId⟩ := exists_mem_preferredCandidates hgroup (resolveGroup_bound hbinding hin hid hok)
    rw [evaluateCandidate_toScopedAccount hok, hid] at hkeptId
    obtain ⟨first, rest, hhoist, hfirst⟩ := hoist_head ⟨kept, hkept, hkeptId⟩
    have hfinal : finalBinding snapshot request options = .honored binding.accountId := by
      simp [finalBinding, carryBlockedBinding, decidedBinding_honored hbinding hmember hok]
    refine ⟨first, rest, selectionDecision snapshot request options, ?_, hfirst⟩
    have hdecision : (selectionDecision snapshot request options).binding = .honored binding.accountId := hfinal
    simp [selectAccounts, hdecision, headed, hhoist, BindingDecision.isBlocked]
  · intro rejected herror hrecoverable hrebind hcarry
    have hfinal : finalBinding snapshot request options =
        .blocked binding.accountId ⟨rejected.reason, hrecoverable⟩ rejected.resetsAt rejected.resetSource := by
      have hstay : (decide (0 < (preferredCandidates snapshot request options).length) &&
          options.carryBoundSessions) = false := by
        rw [Bool.and_eq_false_iff, decide_eq_false_iff_not, preferredCandidates_length_pos]
        by_cases hoption : options.carryBoundSessions = true
        · exact Or.inl fun haccepted => hcarry ⟨hoption, haccepted⟩
        · exact Or.inr (by simpa using hoption)
      simp [finalBinding, carryBlockedBinding,
        decidedBinding_blocked hbinding hmember herror hrecoverable hrebind, hstay]
    have hdecision : (selectionDecision snapshot request options).binding = _ := hfinal
    refine ⟨_, selectionDecision snapshot request options, ⟨rejected.reason, hrecoverable⟩,
      by simp [selectAccounts, hdecision, BindingDecision.isBlocked]; rfl, ?_, hfinal⟩
    exact noCandidatesError_blocked rfl
  · intro hrejected candidates decision h candidate hmem hid
    obtain rfl := selectAccounts_success h
    obtain ⟨group, hgroup, occurrence, hin, hok⟩ := preferredCandidates_inScope ((headed_perm _ _).mem_iff.mp hmem)
    rw [evaluateCandidate_toScopedAccount hok] at hid
    obtain ⟨rejected, herror⟩ := hrejected group hgroup occurrence hin hid
    rw [hok] at herror
    cases herror

/-- A session bound to the healthy overflow account of its pool stays there. -/
theorem selectAccounts_binding_authority_overflow :
    ∃ first rest decision, selectAccounts overflowSnapshot overflowRequest {} =
      .success (first :: rest) decision ∧ first.account.id = "spare" := by
  have hbound : (findInScope (resolveScope overflowSnapshot overflowRequest {}).groups "spare").any
      (fun member => (evaluateCandidate member overflowRequest.model overflowSnapshot.now {}).isOk) = true := by
    decide +kernel
  obtain ⟨member, hmember, haccepted⟩ := (Option.any_eq_true _ _).mp hbound
  have hbinding : overflowRequest.binding = some { accountId := "spare" } := rfl
  cases hok : evaluateCandidate member overflowRequest.model overflowSnapshot.now {} with
  | ok candidate => exact (selectAccounts_binding_authority hbinding hmember).1 candidate hok
  | error rejected => simp [hok, Except.isOk, Except.toBool] at haccepted

end Chain

end MultiAiRouter.Routing
