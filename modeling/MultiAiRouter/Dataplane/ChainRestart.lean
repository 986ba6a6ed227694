import MultiAiRouter.Dataplane.ChainProgress
import MultiAiRouter.Dataplane.ChainTargets

/-!
# Telling the client that its session starts over

Leaving an attempted bound account for another one loses its session, and the attempt that does so must say it. The
planner looks the bound account up among the candidates still offered, and a failed designated recovery attempt
takes it out of these.
-/

namespace MultiAiRouter.Dataplane

open Common Routing

/-- Once the bound account was attempted, a new attempt gives the binding up and restarts the session. -/
def RestartSurfaced (ctx : ChainContext) (boundId : String) (state : ChainState) : Prop :=
  boundId ∈ attemptedIds state.log → ∀ candidate attempt invalidateBinding sessionRestart,
    planNextAttempt state.ordered state.progress state.lastFailure ctx.failover =
      .attempt candidate attempt invalidateBinding sessionRestart →
    invalidateBinding = true ∧ sessionRestart = true

/-- The turn is no failed recovery attempt designated for this account. -/
def KeepsOffered (ctx : ChainContext) (accountId : String) (state : ChainState) (turn : Turn) : Prop :=
  ∀ decision candidate, Plans ctx state decision candidate → candidate.account.id = accountId →
    designated ctx candidate → turn.answered candidate = none

/-- Where the bound account is: found as it was planned, gone without having been attempted, or gone
in a loop that is about to stop. -/
def BoundTracked (ctx : ChainContext) (boundId : String) (bound : Candidate) (state : ChainState) : Prop :=
  Halts ctx state ∨ findCandidate state.ordered (some boundId) = some bound ∨
    (boundId ∉ state.progress.attemptedAccountIds ∧ findCandidate state.ordered (some boundId) = none)

variable {ctx : ChainContext} {state : ChainState} {boundId : String} {bound : Candidate}

/-- An account that was dropped is not found. -/
theorem findCandidate_dropAccount_self (ordered : List Candidate) (accountId : String) :
    findCandidate (dropAccount ordered accountId) (some accountId) = none := by
  refine List.find?_eq_none.mpr fun candidate hmem => ?_
  simpa using (mem_dropAccount.mp hmem).2

/-- Any other account is found as before. -/
theorem findCandidate_dropAccount_of_ne {accountId other : String} (h : accountId ≠ other)
    (ordered : List Candidate) :
    findCandidate (dropAccount ordered other) (some accountId) = findCandidate ordered (some accountId) := by
  unfold findCandidate dropAccount
  rw [List.find?_filter]
  congr 1
  funext candidate
  by_cases hid : candidate.account.id = accountId
  · simp [hid, h]
  · simp [hid]

/-- An offered account is found. -/
theorem findCandidate_ne_none {ordered : List Candidate} {candidate : Candidate} (h : candidate ∈ ordered) :
    findCandidate ordered (some candidate.account.id) ≠ none := by
  intro hnone
  simpa using List.find?_eq_none.mp hnone candidate h

/-- Leaving an attempted bound account that is still offered is said in full. -/
theorem attemptOn_leaving_bound {next : Candidate} (hbound : ctx.failover.boundAccountId = some boundId)
    (hattempted : boundId ∈ state.progress.attemptedAccountIds) (hne : boundId ≠ next.account.id)
    (hfound : findCandidate state.ordered (some boundId) = some bound)
    (hprovider : bound.account.provider = .anthropicOauth) :
    attemptOn next state.ordered state.progress ctx.failover =
      .attempt next (state.progress.attemptedAccountIds.length + 1) true true := by
  have hleaving : (boundId != next.account.id) = true := by simpa using hne
  simp [attemptOn, hbound, hattempted, hleaving, hfound, hprovider]

/-- A counted attempt that leaves the bound account offered keeps track of it. -/
theorem BoundTracked.counted {decision : FailoverDecision} {candidate : Candidate} {next : ChainState}
    (h : BoundTracked ctx boundId bound state) (hwalked : Walked ctx state) (hrunning : state.result = none)
    (hplans : Plans ctx state decision candidate)
    (hordered : findCandidate next.ordered (some boundId) = findCandidate state.ordered (some boundId))
    (hprogress : next.progress.attemptedAccountIds = (state.counted decision candidate).attemptedAccountIds) :
    BoundTracked ctx boundId bound next := by
  rcases h with hhalts | hfound | ⟨hunattempted, hgone⟩
  · exact absurd hplans (hhalts.not_plans hrunning)
  · exact Or.inr (Or.inl (hordered.trans hfound))
  · refine Or.inr (Or.inr ⟨fun hmem => ?_, hordered.trans hgone⟩)
    rw [hprogress] at hmem
    rcases hwalked.counted_cases hrunning hplans with ⟨_, _, heq⟩ | ⟨_, _, _, heq⟩ | ⟨_, _, _, heq⟩
    · rw [heq] at hmem
      rcases List.mem_append.mp hmem with hold | hnew
      · exact hunattempted hold
      · rw [List.mem_singleton.mp hnew] at hgone
        exact findCandidate_ne_none hplans.offered hgone
    · exact hunattempted (by rwa [heq] at hmem)
    · exact hunattempted (by rwa [heq] at hmem)

/-- A move that is no failed recovery attempt of the bound account keeps track of it. -/
theorem BoundTracked.move {turn : Turn} {next : ChainState} (h : BoundTracked ctx boundId bound state)
    (hwalked : Walked ctx state) (hrunning : state.result = none) (hturn : KeepsOffered ctx boundId state turn)
    (hmove : ChainMove ctx state turn next) : BoundTracked ctx boundId bound next := by
  cases hmove with
  | halted result _ _ => exact Or.inl (Or.inl rfl)
  | dropped decision candidate settled hplans _ =>
    rcases h with hhalts | htracked
    · exact absurd hplans (hhalts.not_plans hrunning)
    · by_cases hid : candidate.account.id = boundId
      · subst hid
        rcases hwalked.counted_cases hrunning hplans with ⟨_, hfresh, _⟩ | ⟨hreason, _⟩ | ⟨hreason, _⟩
        · exact Or.inr (Or.inr ⟨hfresh, findCandidate_dropAccount_self _ _⟩)
        · exact Or.inl (Or.inr (planNextAttempt_dropped_retry hplans (by simp [hreason]) settled))
        · exact Or.inl (Or.inr (planNextAttempt_dropped_retry hplans (by simp [hreason]) settled))
      · have hsame := findCandidate_dropAccount_of_ne (Ne.symm hid) state.ordered
        rcases htracked with hfound | ⟨hunattempted, hgone⟩
        · exact Or.inr (Or.inl (hsame.trans hfound))
        · exact Or.inr (Or.inr ⟨hunattempted, hsame.trans hgone⟩)
  | invalidated decision candidate message hplans => exact h.counted hwalked hrunning hplans rfl rfl
  | failed decision candidate failure hplans hanswered =>
    refine h.counted hwalked hrunning hplans ?_ (by simp [ChainState.failedWith])
    change findCandidate (if designated ctx candidate then _ else _) _ = _
    split
    · next hdesignated =>
      refine findCandidate_dropAccount_of_ne (fun hid => ?_) _
      simp [hturn decision candidate hplans hid.symm hdesignated] at hanswered
    · rfl
  | concluded decision candidate settled result progress _ _ _ _ => exact Or.inl (Or.inl rfl)

/-- Where the bound account is tracked, an attempt that leaves it says so. -/
theorem BoundTracked.restartSurfaced (h : BoundTracked ctx boundId bound state) (hwalked : Walked ctx state)
    (hrunning : state.result = none) (hbound : ctx.failover.boundAccountId = some boundId)
    (hprovider : bound.account.provider = .anthropicOauth) : RestartSurfaced ctx boundId state := by
  intro hattempted candidate attempt invalidateBinding sessionRestart hplan
  have hmem : boundId ∈ state.progress.attemptedAccountIds := by
    rw [hwalked.attempted]
    exact List.mem_reverse.mpr hattempted
  have hplans : Plans ctx state (.attempt candidate attempt invalidateBinding sessionRestart) candidate :=
    ⟨hplan, Or.inl ⟨_, _, _, rfl⟩⟩
  have hfound : findCandidate state.ordered (some boundId) = some bound := by
    rcases h with hhalts | hfound | ⟨hunattempted, _⟩
    · exact absurd hplans (hhalts.not_plans hrunning)
    · exact hfound
    · exact absurd hmem hunattempted
  rcases hplans.cases with ⟨_, _, _, heq, hattempt⟩ | ⟨_, heq, _⟩ | ⟨_, _, heq, _⟩
  · cases heq
    rcases hattempt with ⟨hnone, _⟩ | ⟨_, hnext, _, hflags⟩
    · rw [hwalked.fresh hrunning hnone] at hmem
      simp at hmem
    · have hne : boundId ≠ candidate.account.id := by
        rintro rfl
        simpa [hmem] using List.find?_some hnext
      rw [attemptOn_leaving_bound hbound hmem hne hfound hprovider] at hflags
      cases hflags
      exact ⟨rfl, rfl⟩
  · cases heq
  · cases heq

/-- In every run in which no designated recovery attempt of the bound account fails, each new attempt
planned after the bound account was attempted says that the binding is given up and that the session
starts over. -/
theorem runChain_restart_surfaced (ctx : ChainContext) (turns : List Turn)
    (hbound : ctx.failover.boundAccountId = some boundId)
    (hplanned : findCandidate ctx.plan (some boundId) = some bound)
    (hprovider : bound.account.provider = .anthropicOauth)
    (hturns : EveryStep (chainStep ctx) (KeepsOffered ctx boundId) ctx.start turns)
    (hrunning : (runChain ctx turns).result = none) : RestartSurfaced ctx boundId (runChain ctx turns) := by
  have hinvariant : Walked ctx (runChain ctx turns) ∧ BoundTracked ctx boundId bound (runChain ctx turns) :=
    runChain_invariant_of_everyStep (fun state => Walked ctx state ∧ BoundTracked ctx boundId bound state)
      (KeepsOffered ctx boundId) ⟨walked_start ctx, Or.inr (Or.inl hplanned)⟩
      (fun state turn next h hrunning hturn hmove =>
        ⟨h.1.move hrunning hmove, h.2.move h.1 hrunning hturn hmove⟩) turns hturns
  exact hinvariant.2.restartSurfaced hinvariant.1 hrunning hbound hprovider

/-- A bound account and a second one, with recovery wired; the bound one may be half-open. -/
def boundWalk (halfOpen : Bool) : ChainContext :=
  { plan := [candidateFor { id := "A", provider := .anthropicOauth } halfOpen, candidateFor { id := "B" } false]
    failover := { boundAccountId := some "A" }
    recoveryWired := true }

/-- The bound account fails an ordinary attempt, and the walk to the second one says so. -/
theorem runChain_restart_surfaced_ordinary :
    restartsSession (planNextAttempt (runChain (boundWalk false) [failing .rateLimited]).ordered
        (runChain (boundWalk false) [failing .rateLimited]).progress
        (runChain (boundWalk false) [failing .rateLimited]).lastFailure (boundWalk false).failover) = true ∧
      RestartSurfaced (boundWalk false) "A" (runChain (boundWalk false) [failing .rateLimited]) := by
  refine ⟨by decide +kernel, runChain_restart_surfaced _ _ rfl rfl rfl ⟨?_, trivial⟩ rfl⟩
  rintro decision candidate ⟨rfl, hnamed⟩ _ hdesignated
  rcases hnamed with ⟨_, _, _, hnamed⟩ | ⟨_, _, hnamed⟩ <;> cases hnamed
  exact absurd hdesignated (by decide)

/-- The half-open bound account fails its designated attempt, and the walk to the second one keeps the
lost session quiet. -/
theorem runChain_restart_lost : (runChain (boundWalk true) [failing .rateLimited]).result = none ∧
      ¬ RestartSurfaced (boundWalk true) "A" (runChain (boundWalk true) [failing .rateLimited]) := by
  refine ⟨rfl, fun hsurfaced => ?_⟩
  have hflags := hsurfaced (by decide) (candidateFor { id := "B" } false) 2 true false rfl
  exact absurd hflags.2 (by decide)

end MultiAiRouter.Dataplane
