import MultiAiRouter.Dataplane.ChainAnswer
import Mathlib.Data.List.Induction
import Mathlib.Data.List.ReduceOption

/-!
# Which failure a chain answers with

The fold over a chain's failures keeps one of the highest rank; among those, one that names the shortest wait if any
names one, and the first otherwise. So the wait does not depend on the order of the failures. Of two providers' own
answers the first is relayed.
-/

namespace MultiAiRouter.Dataplane

/-- What a chain holds after its failures, none at first. -/
def foldChain (failures : List (Option ChainFailure)) : Option ChainFailure :=
  failures.foldl foldChainFailure none

/-- None seen outranks it, none of its rank names a shorter wait, and when it names none it is the first
of its rank. -/
structure ChainFailure.Best (seen : List ChainFailure) (held : ChainFailure) : Prop where
  mem : held ∈ seen
  top : ∀ other ∈ seen, other.rank ≤ held.rank
  soonest : ∀ other ∈ seen, other.rank = held.rank → ∀ wait, other.waitSeconds = some wait →
    ∃ heldWait, held.waitSeconds = some heldWait ∧ heldWait ≤ wait
  first : held.waitSeconds = none → ∃ before after, seen = before ++ held :: after ∧
    ∀ other ∈ before, other.rank < held.rank

namespace ChainFailure

variable {seen : List ChainFailure} {held next : ChainFailure}

/-- A failure is the best of itself. -/
theorem best_singleton (held : ChainFailure) : Best [held] held where
  mem := List.mem_singleton_self held
  top other hmem := by rw [List.mem_singleton.mp hmem]
  soonest other hmem _ wait hwait := ⟨wait, by rw [← List.mem_singleton.mp hmem]; exact hwait, le_rfl⟩
  first _ := ⟨[], [], rfl, by simp⟩

/-- A failure that came later and is not better leaves the held one. -/
theorem Best.keep (h : Best seen held) (htop : next.rank ≤ held.rank)
    (hsoonest : next.rank = held.rank → ∀ wait, next.waitSeconds = some wait →
      ∃ heldWait, held.waitSeconds = some heldWait ∧ heldWait ≤ wait) : Best (seen ++ [next]) held where
  mem := List.mem_append_left _ h.mem
  top other hmem := by
    rcases List.mem_append.mp hmem with hold | hnew
    · exact h.top other hold
    · rwa [List.mem_singleton.mp hnew]
  soonest other hmem := by
    rcases List.mem_append.mp hmem with hold | hnew
    · exact h.soonest other hold
    · rwa [List.mem_singleton.mp hnew]
  first hnone := by
    obtain ⟨before, after, hseen, hbefore⟩ := h.first hnone
    exact ⟨before, after ++ [next], by rw [hseen]; simp, hbefore⟩

/-- A failure that outranks all that were seen is the best. -/
theorem best_of_outranks (h : ∀ other ∈ seen, other.rank < next.rank) : Best (seen ++ [next]) next where
  mem := List.mem_append_right _ (List.mem_singleton_self next)
  top other hmem := by
    rcases List.mem_append.mp hmem with hold | hnew
    · exact (h other hold).le
    · rw [List.mem_singleton.mp hnew]
  soonest other hmem hrank wait hwait := by
    rcases List.mem_append.mp hmem with hold | hnew
    · exact absurd hrank (h other hold).ne
    · exact ⟨wait, by rw [← List.mem_singleton.mp hnew]; exact hwait, le_rfl⟩
  first _ := ⟨seen, [], rfl, h⟩

/-- A failure of the held rank that names a shorter wait, or the first one, is the best. -/
theorem Best.replace {nextWait : ℤ} (h : Best seen held) (hrank : next.rank = held.rank)
    (hnext : next.waitSeconds = some nextWait) (hshorter : ∀ heldWait, held.waitSeconds = some heldWait →
      nextWait ≤ heldWait) : Best (seen ++ [next]) next where
  mem := List.mem_append_right _ (List.mem_singleton_self next)
  top other hmem := by
    rw [hrank]
    rcases List.mem_append.mp hmem with hold | hnew
    · exact h.top other hold
    · rw [List.mem_singleton.mp hnew, hrank]
  soonest other hmem hother wait hwait := by
    refine ⟨nextWait, hnext, ?_⟩
    rcases List.mem_append.mp hmem with hold | hnew
    · obtain ⟨heldWait, hheld, hle⟩ := h.soonest other hold (hother.trans hrank) wait hwait
      exact (hshorter heldWait hheld).trans hle
    · rw [List.mem_singleton.mp hnew, hnext] at hwait
      exact (Option.some.inj hwait).le
  first hnone := by
    rw [hnext] at hnone
    cases hnone

/-- Of two failures of one rank the fold keeps the best. -/
theorem Best.sooner (h : Best seen held) (hrank : next.rank = held.rank) :
    Best (seen ++ [next]) (held.sooner next) := by
  unfold ChainFailure.sooner
  cases hnext : next.waitSeconds with
  | none => exact h.keep hrank.le fun _ wait hwait => by rw [hnext] at hwait; cases hwait
  | some nextWait =>
    cases hheld : held.waitSeconds with
    | none => exact h.replace hrank hnext fun heldWait hwait => by rw [hheld] at hwait; cases hwait
    | some heldWait =>
      by_cases hless : nextWait < heldWait
      · simp only [if_pos hless]
        refine h.replace hrank hnext fun wait hwait => ?_
        rw [hheld] at hwait
        rw [← Option.some.inj hwait]
        exact hless.le
      · simp only [if_neg hless]
        refine h.keep hrank.le fun _ wait hwait => ⟨heldWait, hheld, ?_⟩
        rw [hnext] at hwait
        rw [← Option.some.inj hwait]
        exact not_lt.mp hless

/-- Folding a failure in keeps the best of all that were seen. -/
theorem Best.fold (h : Best seen held) (next : ChainFailure) :
    ∃ kept, foldChainFailure (some held) (some next) = some kept ∧ Best (seen ++ [next]) kept := by
  unfold foldChainFailure
  by_cases hrank : next.rank = held.rank
  · exact ⟨held.sooner next, by simp [hrank], h.sooner hrank⟩
  · by_cases hless : held.rank < next.rank
    · exact ⟨next, by simp [hrank, hless], best_of_outranks fun other hmem => (h.top other hmem).trans_lt hless⟩
    · have hle : next.rank ≤ held.rank := not_lt.mp hless
      exact ⟨held, by simp [hrank, hless], h.keep hle fun hsame => absurd hsame hrank⟩

end ChainFailure

/-- Nothing is held exactly when nothing was seen, and what is held is the best of what was seen. -/
theorem foldChain_best (failures : List (Option ChainFailure)) :
    (failures.reduceOption = [] ∧ foldChain failures = none) ∨
      ∃ held, foldChain failures = some held ∧ ChainFailure.Best failures.reduceOption held := by
  induction failures using List.reverseRecOn with
  | nil => exact .inl ⟨rfl, rfl⟩
  | append_singleton earlier last ih =>
    have hfold : foldChain (earlier ++ [last]) = foldChainFailure (foldChain earlier) last := List.foldl_concat ..
    rw [hfold, List.reduceOption_append]
    cases last with
    | none =>
      have hkeeps : foldChainFailure (foldChain earlier) none = foldChain earlier := by
        cases foldChain earlier <;> rfl
      rw [hkeeps]
      simpa using ih
    | some next =>
      rw [List.reduceOption_singleton, Option.toList_some]
      rcases ih with ⟨hnone, hheld⟩ | ⟨held, hheld, hbest⟩
      · rw [hheld, hnone]
        exact .inr ⟨next, rfl, ChainFailure.best_singleton next⟩
      · rw [hheld]
        obtain ⟨kept, hkept, hafter⟩ := hbest.fold next
        exact .inr ⟨kept, hkept, hafter⟩

/-- A failure that is the best of what was seen in two orders has one rank and one wait in both. -/
theorem ChainFailure.Best.wait_eq {seen reordered : List ChainFailure} {held other : ChainFailure}
    (h : Best seen held) (hother : Best reordered other) (hperm : seen.Perm reordered) :
    held.rank = other.rank ∧ held.waitSeconds = other.waitSeconds := by
  have hheldMem : held ∈ reordered := hperm.mem_iff.mp h.mem
  have hotherMem : other ∈ seen := hperm.mem_iff.mpr hother.mem
  have hrank : held.rank = other.rank := le_antisymm (hother.top held hheldMem) (h.top other hotherMem)
  refine ⟨hrank, ?_⟩
  cases hwait : held.waitSeconds with
  | none =>
    cases hotherWait : other.waitSeconds with
    | none => rfl
    | some wait =>
      obtain ⟨heldWait, hheld, _⟩ := h.soonest other hotherMem hrank.symm wait hotherWait
      rw [hwait] at hheld
      cases hheld
  | some wait =>
    obtain ⟨otherWait, hotherWait, hle⟩ := hother.soonest held hheldMem hrank wait hwait
    obtain ⟨heldWait, hheld, hge⟩ := h.soonest other hotherMem hrank.symm otherWait hotherWait
    rw [hwait] at hheld
    obtain rfl := Option.some.inj hheld
    rw [hotherWait, le_antisymm hge hle]

/-- The status of the verdicts of a rank, under the verdicts that are settled before a chain starts. -/
def statusAtRank : ℕ → ℕ
  | 70 => 429
  | 65 => 503
  | 60 => 402
  | 55 => 502
  | 50 => 504
  | 30 => 503
  | 20 => 400
  | _ => 500

/-- The rank of a verdict of the router determines its status, and no verdict has the rank of a provider's
own answer. -/
theorem RouterErrorCode.status_of_rank (code : RouterErrorCode) :
    code.rank ≠ 40 ∧ (code.rank ≠ 90 → code.status = statusAtRank code.rank) := by
  cases code <;> decide

/-- The rank of a failure determines its status, but for a provider's own answer and a verdict from before the
chain. -/
theorem ChainFailure.status_of_rank (failure : ChainFailure) (hanswered : failure.rank ≠ 40)
    (hsettled : failure.rank ≠ 90) : failure.status = statusAtRank failure.rank := by
  cases failure with
  | router code wait => exact code.status_of_rank.2 hsettled
  | upstream status => exact absurd rfl hanswered

/-- Whatever the failures and their order, the fold holds one of the highest rank: the one with the shortest
wait if any of that rank names one, else the first. The answered wait is the same for every order; so is the
status, but at two ranks. -/
theorem foldChain_choice (failures : List (Option ChainFailure)) : (∀ held, foldChain failures = some held →
      held ∈ failures.reduceOption ∧ (∀ other ∈ failures.reduceOption, other.rank ≤ held.rank) ∧
      (∀ other ∈ failures.reduceOption, other.rank = held.rank → ∀ wait, other.waitSeconds = some wait →
        ∃ heldWait, held.waitSeconds = some heldWait ∧ heldWait ≤ wait) ∧
      (held.waitSeconds = none → ∃ before after, failures.reduceOption = before ++ held :: after ∧
        ∀ other ∈ before, other.rank < held.rank)) ∧
    (foldChain failures = none ↔ ∀ failure ∈ failures, failure = none) ∧
    (∀ before after, failures = before ++ none :: after → foldChain failures = foldChain (before ++ after)) ∧
    ∀ reordered : List (Option ChainFailure), failures.reduceOption.Perm reordered.reduceOption →
      (foldChain failures).bind ChainFailure.waitSeconds = (foldChain reordered).bind ChainFailure.waitSeconds ∧
      (∀ held, foldChain failures = some held → held.rank ≠ 40 → held.rank ≠ 90 →
        (foldChain reordered).map ChainFailure.status = some held.status) := by
  have hempty : failures.reduceOption = [] ↔ ∀ failure ∈ failures, failure = none := by
    rw [List.reduceOption, List.filterMap_eq_nil_iff]
    exact Iff.rfl
  refine ⟨fun held hheld => ?_, ?_, ?_, fun reordered hperm => ?_⟩
  · rcases foldChain_best failures with ⟨_, hnone⟩ | ⟨best, hbest, h⟩
    · rw [hheld] at hnone
      cases hnone
    · rw [hheld] at hbest
      obtain rfl := Option.some.inj hbest
      exact ⟨h.mem, h.top, h.soonest, h.first⟩
  · rw [← hempty]
    rcases foldChain_best failures with ⟨hnil, hnone⟩ | ⟨best, hbest, h⟩
    · exact ⟨fun _ => hnil, fun _ => hnone⟩
    · refine ⟨fun hnone => ?_, fun hnil => ?_⟩
      · rw [hbest] at hnone
        cases hnone
      · have hmem := h.mem
        rw [hnil] at hmem
        cases hmem
  · rintro before after rfl
    have hkeeps : foldChainFailure (foldChain before) none = foldChain before := by
      cases foldChain before <;> rfl
    calc foldChain (before ++ none :: after)
        = after.foldl foldChainFailure (foldChainFailure (foldChain before) none) := List.foldl_append ..
      _ = after.foldl foldChainFailure (foldChain before) := by rw [hkeeps]
      _ = foldChain (before ++ after) := (List.foldl_append ..).symm
  · rcases foldChain_best failures with ⟨hnil, hnone⟩ | ⟨best, hbest, h⟩
    · rcases foldChain_best reordered with ⟨_, hnone'⟩ | ⟨other, _, hother⟩
      · rw [hnone, hnone']
        exact ⟨rfl, by simp⟩
      · have hmem := hperm.mem_iff.mpr hother.mem
        rw [hnil] at hmem
        cases hmem
    · rcases foldChain_best reordered with ⟨hnil', _⟩ | ⟨other, hfound, hother⟩
      · have hmem := hperm.mem_iff.mp h.mem
        rw [hnil'] at hmem
        cases hmem
      · obtain ⟨hrank, hwait⟩ := h.wait_eq hother hperm
        rw [hbest, hfound]
        refine ⟨hwait, fun held hheld hanswered hsettled => ?_⟩
        obtain rfl := Option.some.inj hheld
        rw [Option.map_some, best.status_of_rank hanswered hsettled,
          other.status_of_rank (by rwa [← hrank]) (by rwa [← hrank]), hrank]

/-- Two providers' own answers have one rank, and the first one's status is answered. -/
theorem foldChain_answered_in_order : ¬ ∀ first second : ChainFailure, first.rank = second.rank →
      (foldChain [some first, some second]).map ChainFailure.status =
        (foldChain [some second, some first]).map ChainFailure.status := by
  intro h
  have hstatus := h (.upstream 500) (.upstream 502) rfl
  exact absurd hstatus (by decide)

end MultiAiRouter.Dataplane
