import MultiAiRouter.Routing.Policies

/-!
# What the adjustments of `runPolicy` put before what

Every comparator of the policies compares keys of a linear order that end in the account id, so what a policy
returns depends on which candidates there are. Each adjustment is a stable partition, so it keeps what the ones
before it put in order, within its two parts.
-/

namespace MultiAiRouter.Routing

open Common

/-- Code units are compared as lists are. -/
theorem compareUnits_le (left right : List Nat) : compareUnits left right ≤ 0 ↔ left ≤ right := by
  induction left generalizing right with
  | nil =>
    cases right with
    | nil => simp [compareUnits]
    | cons b right =>
      simp only [compareUnits, Int.reduceNeg, Int.reduceLE, true_iff]
      exact (List.nil_lt_cons b right).le
  | cons a left ih =>
    cases right with
    | nil =>
      simp only [compareUnits, Int.reduceLE, false_iff, not_le]
      exact List.nil_lt_cons a left
    | cons b right =>
      unfold compareUnits
      rcases lt_trichotomy a b with hless | rfl | hmore
      · simp only [if_pos hless, Int.reduceNeg, Int.reduceLE, true_iff]
        exact le_of_lt (show a :: left < b :: right from List.Lex.rel hless)
      · rw [if_neg (lt_irrefl a), if_neg (lt_irrefl a), ih right]
        constructor
        · exact List.cons_le_cons a
        · intro hle
          by_contra hmore
          exact absurd hle (not_le.mpr (List.Lex.cons (not_le.mp hmore)))
      · rw [if_neg (not_lt.mpr hmore.le), if_pos hmore]
        simp only [Int.reduceLE, false_iff, not_le]
        exact List.Lex.rel hmore

/-- No character is a surrogate, so the code units of a character tell where it ends and what it is. -/
theorem utf16Units_append_inj {a b : Char} {left right : List Nat}
    (h : utf16Units a ++ left = utf16Units b ++ right) : a = b ∧ left = right := by
  have hvalid (c : Char) : c.toNat < 0xD800 ∨ 0xDFFF < c.toNat ∧ c.toNat < 0x110000 := c.valid
  have heq : a.toNat = b.toNat → a = b := fun hnat => Char.ext (UInt32.toNat_inj.mp hnat)
  have ha := hvalid a
  have hb := hvalid b
  unfold utf16Units at h
  split at h
  · split at h
    · obtain ⟨hunit, hrest⟩ := List.cons.inj h
      exact ⟨heq hunit, hrest⟩
    · have hunit := (List.cons.inj h).1
      omega
  · split at h
    · have hunit := (List.cons.inj h).1
      omega
    · obtain ⟨hhigh, htail⟩ := List.cons.inj h
      obtain ⟨hlow, hrest⟩ := List.cons.inj htail
      exact ⟨heq (by omega), hrest⟩

/-- The code units of a string determine it. -/
theorem codeUnits_injective : Function.Injective codeUnits := by
  have hunits : ∀ left right : List Char, left.flatMap utf16Units = right.flatMap utf16Units → left = right := by
    intro left
    induction left with
    | nil =>
      intro right h
      cases right with
      | nil => rfl
      | cons b right =>
        rw [List.flatMap_nil, List.flatMap_cons] at h
        unfold utf16Units at h
        split at h <;> cases h
    | cons a left ih =>
      intro right h
      cases right with
      | nil =>
        rw [List.flatMap_nil, List.flatMap_cons] at h
        unfold utf16Units at h
        split at h <;> cases h
      | cons b right =>
        rw [List.flatMap_cons, List.flatMap_cons] at h
        obtain ⟨rfl, hrest⟩ := utf16Units_append_inj h
        rw [ih right hrest]
  exact fun left right h => String.toList_inj.mp (hunits _ _ h)

/-- The declared order, then the code units of the account id. -/
def declaredKey (candidate : Candidate) : ℤ ×ₗ List ℕ :=
  toLex ((candidate.order : ℤ), codeUnits candidate.account.id)

/-- The declared order compares by its key. -/
theorem compareDeclared_compares : ComparesBy compareDeclared declaredKey := by
  have hunits : ComparesBy (fun left right : Candidate =>
      compareUnits (codeUnits left.account.id) (codeUnits right.account.id)) fun candidate =>
        codeUnits candidate.account.id := fun left right => compareUnits_le _ _
  have horders (left right : Candidate) :
      (left.order : ℤ) - right.order = (left.order : ℤ) - (right.order : ℤ) := rfl
  intro left right
  have h := hunits.thenBy horders left right
  have hdelta : (left.order : ℤ) - right.order ≠ 0 ↔ left.order ≠ right.order := by omega
  simp only [hdelta] at h
  exact h

/-- A list in which every account stands once. -/
def DistinctAccounts (candidates : List Candidate) : Prop := (accountIds candidates).Nodup

/-- In a list of distinct accounts the id tells the candidates apart. -/
theorem DistinctAccounts.eq_of_id {candidates : List Candidate} (h : DistinctAccounts candidates)
    {left right : Candidate} (hleft : left ∈ candidates) (hright : right ∈ candidates)
    (hid : left.account.id = right.account.id) : left = right := List.inj_on_of_nodup_map h hleft hright hid

/-- A reordering has the same accounts. -/
theorem DistinctAccounts.perm {candidates reordered : List Candidate} (h : DistinctAccounts candidates)
    (hperm : candidates.Perm reordered) : DistinctAccounts reordered :=
  (hperm.map fun candidate : Candidate => candidate.account.id).nodup_iff.mp h

/-- Some of the candidates have distinct accounts too. -/
theorem DistinctAccounts.filter {candidates : List Candidate} (h : DistinctAccounts candidates)
    (test : Candidate → Bool) : DistinctAccounts (candidates.filter test) :=
  List.Nodup.sublist (List.filter_sublist.map _) h

/-- The declared order tells distinct accounts apart. -/
theorem DistinctAccounts.declared {candidates : List Candidate} (h : DistinctAccounts candidates) :
    TellsApart declaredKey candidates := fun _ hleft _ hright hkey =>
  h.eq_of_id hleft hright (codeUnits_injective (Prod.mk.inj (toLex.injective hkey)).2)

section Comparators

variable {candidates reordered : List Candidate}

/-- The candidates in declared order do not depend on how they were listed. -/
theorem sortDeclared_eq_of_perm (h : DistinctAccounts candidates) (hperm : candidates.Perm reordered) :
    sortDeclared candidates = sortDeclared reordered :=
  sortBy_eq_of_perm compareDeclared_compares h.declared hperm

/-- The comparator of `sticky`: the higher score, then the declared order. -/
def compareSticky (seed : UInt32) (left right : Candidate) : Int :=
  let delta := (scoreWithSeed seed right.account.id : Int) - scoreWithSeed seed left.account.id
  if delta ≠ 0 then delta else compareDeclared left right

/-- What `sticky` sorts by. -/
def stickyKey (seed : UInt32) (candidate : Candidate) : ℤ ×ₗ (ℤ ×ₗ List ℕ) :=
  toLex (-(scoreWithSeed seed candidate.account.id : ℤ), declaredKey candidate)

/-- The comparator of `sticky` compares by its key. -/
theorem compareSticky_compares (seed : UInt32) : ComparesBy (compareSticky seed) (stickyKey seed) :=
  compareDeclared_compares.thenBy fun left right => by ring

/-- The comparator of `quota-aware` compares the rooms from above, then the declared order. -/
theorem compareRoom_compares (room : Candidate → ℚ) :
    ComparesBy (fun left right : Candidate => if room left < room right then 1 else if room right < room left then -1
      else compareDeclared left right)
      fun candidate => toLex (OrderDual.toDual (room candidate), declaredKey candidate) := by
  intro left right
  rw [Prod.Lex.toLex_le_toLex, OrderDual.toDual_lt_toDual, OrderDual.toDual_inj, ← compareDeclared_compares]
  rcases lt_trichotomy (room left) (room right) with hless | heq | hmore
  · simp [hless, hless.not_gt, hless.ne]
  · simp [heq]
  · simp [hmore, hmore.not_gt]

/-- Every policy returns what it returns whatever the order its candidates were listed in. -/
theorem policies_eq_of_perm (policy : RoutingPolicy) (input : PolicyInput) (h : DistinctAccounts input.candidates)
    (hperm : input.candidates.Perm reordered) :
    (policies policy { input with candidates := reordered }).ordered = (policies policy input).ordered := by
  have hsorted := sortDeclared_eq_of_perm h hperm
  cases policy with
  | sticky =>
    exact (sortBy_eq_of_perm (compareSticky_compares (sessionSeed input.sessionKey)) (h.declared.thenBy _) hperm).symm
  | roundRobin => simp only [policies, roundRobin, hsorted]
  | weighted => simp only [policies, weighted, hsorted]
  | leastUsed =>
    have hloads : ComparesBy (fun left right : Candidate =>
        let primary := (load left (input.leastUsedMeasure.getD .inFlight) : Int) -
          load right (input.leastUsedMeasure.getD .inFlight)
        let secondary := (load left (otherMeasure (input.leastUsedMeasure.getD .inFlight)) : Int) -
          load right (otherMeasure (input.leastUsedMeasure.getD .inFlight))
        if primary ≠ 0 then primary else if secondary ≠ 0 then secondary else compareDeclared left right)
        fun candidate => toLex ((load candidate (input.leastUsedMeasure.getD .inFlight) : ℤ),
          toLex ((load candidate (otherMeasure (input.leastUsedMeasure.getD .inFlight)) : ℤ), declaredKey candidate)) :=
      (compareDeclared_compares.thenBy fun _ _ => rfl).thenBy fun _ _ => rfl
    exact (sortBy_eq_of_perm hloads ((h.declared.thenBy _).thenBy _) hperm).symm
  | priorityFailover =>
    have hpriorities : ComparesBy (fun left right : Candidate =>
        let delta := left.priority - right.priority
        if delta ≠ 0 then delta else compareDeclared left right)
        fun candidate => toLex (candidate.priority, declaredKey candidate) :=
      compareDeclared_compares.thenBy fun _ _ => rfl
    exact (sortBy_eq_of_perm hpriorities (h.declared.thenBy _) hperm).symm
  | quotaAware =>
    simp only [policies, quotaAware]
    have hfilter (test : Candidate → Bool) := hperm.filter test
    have hunranked := sortDeclared_eq_of_perm (h.filter fun candidate =>
      !(continuousHeadroom candidate.account input.now).isSome) (hfilter _)
    have hranked := sortBy_eq_of_perm
      (compareRoom_compares fun candidate => (continuousHeadroom candidate.account input.now).getD 0)
      ((h.filter fun candidate => (continuousHeadroom candidate.account input.now).isSome).declared.thenBy _)
      (hfilter _)
    rw [← (hfilter fun candidate => (continuousHeadroom candidate.account input.now).isSome).length_eq]
    split
    · simp only [hsorted]
    · simp only [hranked, hunranked]

/-- What `runPolicy` returns does not depend on how its candidates were listed. -/
theorem runPolicy_eq_of_perm (policy : RoutingPolicy) (input : PolicyInput) (binding : BindingDecision)
    (h : DistinctAccounts input.candidates) (hperm : input.candidates.Perm reordered) :
    (runPolicy policy { input with candidates := reordered } binding).ordered =
      (runPolicy policy input binding).ordered := by
  unfold runPolicy
  dsimp only
  rw [policies_eq_of_perm policy input h hperm]

end Comparators

variable {ordered : List Candidate} {home : Option Candidate}

/-- A candidate that demotion treats as a probe: half-open, and not the home that keeps its affinity. -/
def IsProbe (home : Option Candidate) (candidate : Candidate) : Prop :=
  candidate.halfOpen = true ∧ ¬ ((home.filter keepsAffinity).any fun home => sameCandidate candidate home) = true

/-- After demotion no probe stands before a candidate that is none. -/
theorem demoteHalfOpen_pairwise (ordered : List Candidate) (home : Option Candidate) :
    (demoteHalfOpen ordered home).ordered.Pairwise fun before after => IsProbe home before → IsProbe home after := by
  have hprobe (candidate : Candidate) : (!(candidate.halfOpen &&
      !((home.filter keepsAffinity).any fun home => sameCandidate candidate home))) = true ↔
        ¬ IsProbe home candidate := by
    rw [Bool.not_eq_true', Bool.and_eq_false_iff, Bool.not_eq_false', IsProbe, not_and_or, not_not,
      Bool.not_eq_true]
  unfold demoteHalfOpen
  dsimp only
  split
  · next hall =>
    have hnone (candidate : Candidate) (hmem : candidate ∈ ordered) : ¬ IsProbe home candidate :=
      (hprobe candidate).mp (List.length_filter_eq_length_iff.mp hall candidate hmem)
    exact List.Pairwise.imp_of_mem (fun hbefore _ _ hprobed => absurd hprobed (hnone _ hbefore))
      (List.pairwise_of_forall fun _ _ => trivial)
  · refine acceptedFirst_pairwise _ (List.pairwise_of_forall fun _ _ => trivial) ?_ ?_
    · intro before _ after _ hbefore _ hprobed
      exact absurd hprobed ((hprobe before).mp hbefore)
    · intro before _ after _ hsame _ hprobed
      by_contra hafter
      rw [(hprobe after).mpr hafter] at hsame
      exact (hprobe before).mp hsame hprobed

/-- A probe without a permit stands before no healthy candidate. -/
def ProbesLast (home : Option Candidate) (before after : Candidate) : Prop :=
  IsProbe home before → before.recoveryPermit = false → after.halfOpen = true

/-- Promoting permit holders keeps the probes that hold none behind the healthy. -/
theorem promoteRecoveryPermit_pairwise
    (h : ordered.Pairwise fun before after => IsProbe home before → IsProbe home after) :
    (promoteRecoveryPermit ordered home).ordered.Pairwise (ProbesLast home) := by
  have hkeeps : ordered.Pairwise (ProbesLast home) := h.imp fun hprobe hbefore _ => (hprobe hbefore).1
  unfold promoteRecoveryPermit
  dsimp only
  split
  · exact hkeeps
  · refine acceptedFirst_pairwise _ hkeeps ?_ fun _ _ _ _ _ hbefore => hbefore
    intro before _ after _ hholds _ _ hnone
    rw [hnone] at hholds
    cases hholds

/-- Natives stand before aliases, and probes without a permit last among candidates of one aliasing. -/
def RankedPair (home : Option Candidate) (before after : Candidate) : Prop :=
  (before.aliased = true → after.aliased = true) ∧ (before.aliased = after.aliased → ProbesLast home before after)

/-- Deferring aliases puts the natives first and keeps the probes last within both. -/
theorem deferAliased_pairwise (h : ordered.Pairwise (ProbesLast home)) :
    (deferAliased ordered).ordered.Pairwise (RankedPair home) := by
  have hsplit : (nativeFirst ordered).1.Pairwise (RankedPair home) := by
    unfold nativeFirst
    dsimp only
    split
    · next hone =>
      -- All of them are native, or none is.
      refine h.imp_of_mem fun hbefore hafter hprobes => ⟨fun haliased => ?_, fun _ => hprobes⟩
      rcases hone with hall | hnone
      · have hnative := List.length_filter_eq_length_iff.mp hall _ hbefore
        rw [haliased] at hnative
        cases hnative
      · have hempty := List.length_eq_zero_iff.mp hnone
        simpa using List.filter_eq_nil_iff.mp hempty _ hafter
    · refine acceptedFirst_pairwise _ h ?_ ?_
      · intro before _ after _ hbefore hafter
        rw [Bool.not_eq_true'] at hbefore
        rw [Bool.not_eq_false'] at hafter
        refine ⟨fun haliased => hafter, fun hsame => ?_⟩
        rw [hbefore, hafter] at hsame
        cases hsame
      · intro before _ after _ hsame hprobes
        have haliased : before.aliased = after.aliased := by
          simpa using hsame
        exact ⟨fun hbefore => haliased ▸ hbefore, fun _ => hprobes⟩
  unfold deferAliased
  dsimp only
  split
  · next hnone =>
    -- Nothing is deferred, so the split has changed nothing.
    have hsame : (nativeFirst ordered).1 = ordered := by
      unfold nativeFirst at hnone ⊢
      dsimp only at hnone ⊢
      split at hnone
      · next hone => rw [if_pos hone]
      · next hone =>
        have hnative : ordered.filter (fun candidate => !candidate.aliased) = ordered := by
          refine List.filter_eq_self.mpr fun candidate hmem => ?_
          simpa using List.filter_eq_nil_iff.mp (List.length_eq_zero_iff.mp hnone) candidate hmem
        exact absurd (.inl (by rw [hnative])) hone
    rwa [hsame] at hsplit
  · exact hsplit

/-- Moving a match to the head keeps what was ordered among the others, and puts only the match before them. -/
theorem moveToFront_pairwise {A : Type*} {test : A → Bool} {values : List A} {before : A → A → Prop}
    (h : values.Pairwise before) :
    (moveToFront test values).Pairwise fun left right => test left = true ∨ before left right := by
  unfold moveToFront
  cases hfind : values.find? test with
  | none => exact h.imp fun hbefore => .inr hbefore
  | some found =>
    refine List.Pairwise.cons (fun _ _ => .inl (List.find?_some hfind)) ?_
    exact (h.sublist List.eraseP_sublist).imp fun hbefore => .inr hbefore

/-- A binding puts only the bound account out of its place. -/
theorem pinBinding_pairwise {before : Candidate → Candidate → Prop} (h : ordered.Pairwise before)
    (binding : BindingDecision) : (pinBinding ordered binding).ordered.Pairwise fun left right =>
      binding = .honored left.account.id ∨ before left right := by
  unfold pinBinding
  split
  · next accountId =>
    split
    · refine (moveToFront_pairwise h).imp fun hpair => hpair.imp_left fun hid => ?_
      rw [beq_iff_eq] at hid
      rw [hid]
    · exact h.imp fun hbefore => .inr hbefore
  · exact h.imp fun hbefore => .inr hbefore

/-- The home whose affinity `runPolicy` protects: the first account of a sticky session, merely half-open. -/
def StickyHome (policy : RoutingPolicy) (input : PolicyInput) (candidate : Candidate) : Prop :=
  policy = .sticky ∧ (sticky input).ordered.head? = some candidate ∧ keepsAffinity candidate = true

/-- A half-open candidate that is no probe is the home of a sticky session. -/
theorem stickyHome_of_not_probe {policy : RoutingPolicy} {input : PolicyInput} {candidate : Candidate}
    (h : DistinctAccounts input.candidates) (hmem : candidate ∈ input.candidates) (hopen : candidate.halfOpen = true)
    (hprobe : ¬ IsProbe (if policy = .sticky then (policies policy input).ordered.head? else none) candidate) :
    StickyHome policy input candidate := by
  have hkept : ((if policy = .sticky then (policies policy input).ordered.head? else none).filter
      keepsAffinity).any (fun home => sameCandidate candidate home) = true := by
    by_contra hnone
    exact hprobe ⟨hopen, hnone⟩
  obtain ⟨hsome, hsame⟩ := (Option.any_eq_true_iff_get _ _).mp hkept
  obtain ⟨home, hhome⟩ := Option.isSome_iff_exists.mp hsome
  rw [Option.get_of_eq_some hsome hhome] at hsame
  obtain ⟨hhead, haffine⟩ := Option.filter_eq_some_iff.mp hhome
  split at hhead
  · next hsticky =>
    subst hsticky
    have hhomeMem : home ∈ input.candidates :=
      (policies_perm .sticky input).mem_iff.mp (List.mem_of_mem_head? hhead)
    have hid : candidate.account.id = home.account.id := by
      have hboth := hsame
      simp only [sameCandidate, Bool.and_eq_true, beq_iff_eq] at hboth
      exact hboth.2
    obtain rfl := h.eq_of_id hmem hhomeMem hid
    exact ⟨rfl, hhead, haffine⟩
  · cases hhead

/-- Over distinct accounts `runPolicy` only reorders its candidates, however they were listed. The account of
an honored binding apart, every native candidate precedes every aliased one, and among candidates of one
aliasing no half-open one without a permit precedes a healthy one, unless it is a sticky session's merely
half-open home. -/
theorem runPolicy_only_reorders (policy : RoutingPolicy) (input : PolicyInput) (binding : BindingDecision)
    (h : DistinctAccounts input.candidates) : (runPolicy policy input binding).ordered.Perm input.candidates ∧
    (∀ reordered : List Candidate, input.candidates.Perm reordered →
      (runPolicy policy { input with candidates := reordered } binding).ordered =
        (runPolicy policy input binding).ordered) ∧
    ((runPolicy policy input binding).ordered.Pairwise fun before after =>
      binding = .honored before.account.id ∨ (before.aliased = true → after.aliased = true)) ∧
    (runPolicy policy input binding).ordered.Pairwise fun before after =>
      binding = .honored before.account.id ∨ (before.aliased = after.aliased → before.halfOpen = true →
        before.recoveryPermit = false → ¬ StickyHome policy input before → after.halfOpen = true) := by
  have hperm := runPolicy_perm policy input binding
  have hpairs := pinBinding_pairwise (deferAliased_pairwise (promoteRecoveryPermit_pairwise
    (demoteHalfOpen_pairwise (policies policy input).ordered
      (if policy = .sticky then (policies policy input).ordered.head? else none)))) binding
  refine ⟨hperm, fun reordered hlisted => runPolicy_eq_of_perm policy input binding h hlisted, ?_, ?_⟩
  · exact hpairs.imp fun hpair => hpair.imp_right And.left
  · refine List.Pairwise.imp_of_mem (fun hbefore _ hpair => hpair.imp_right fun hranked => ?_) hpairs
    intro haliased hopen hpermit hhome
    refine hranked.2 haliased ?_ hpermit
    by_contra hprobe
    exact hhome (stickyHome_of_not_probe h (hperm.mem_iff.mp hbefore) hopen hprobe)

/-- Two accounts are ordered the same way from either listing. -/
theorem runPolicy_only_reorders_two :
    let candidate (id : String) (order : ℕ) : Candidate :=
      { account := { id }, poolId := none, weight := 1, priority := 0, order, upstreamModel := "m", halfOpen := false }
    let run (candidates : List Candidate) := (runPolicy .weighted
      { now := 0, candidates, sessionKey := "session", rotationCounter := 3 } .none).ordered
    run [candidate "b" 1, candidate "a" 0] = run [candidate "a" 0, candidate "b" 1] := by
  intro candidate run
  let input : PolicyInput :=
    { now := 0, candidates := [candidate "a" 0, candidate "b" 1], sessionKey := "session", rotationCounter := 3 }
  have hdistinct : DistinctAccounts input.candidates := by simp [DistinctAccounts, accountIds, candidate, input]
  exact (runPolicy_only_reorders .weighted input .none hdistinct).2.1 _ (List.Perm.swap _ _ _)

end MultiAiRouter.Routing
