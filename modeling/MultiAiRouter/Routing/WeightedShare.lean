import MultiAiRouter.Routing.PolicyPartitions
import Mathlib.Data.Nat.Count

/-!
# The weighted policy distributes exactly

The walk along the cumulative weights gives each candidate as many targets as its weight, and as many
consecutive counters as the weights add up to meet every target once.
-/

namespace MultiAiRouter.Routing

open Common

/-- The share of a candidate: its weight, and nothing for a negative one. -/
def share (candidate : Candidate) : ℕ := (max 0 candidate.weight).toNat

theorem share_cast (candidate : Candidate) : (share candidate : ℤ) = max 0 candidate.weight :=
  Int.toNat_of_nonneg (le_max_left _ _)

/-- The walk counts its index from where it starts. -/
theorem pickIndexFrom_succ (target cumulative : ℤ) (index : ℕ) (weights : List ℤ) (h : 0 < index ∨ weights ≠ []) :
    pickIndexFrom target cumulative (index + 1) weights = pickIndexFrom target cumulative index weights + 1 := by
  induction weights generalizing cumulative index with
  | nil =>
    simp only [pickIndexFrom]
    have hpositive : 0 < index := h.resolve_right fun hne => hne rfl
    omega
  | cons weight rest ih =>
    simp only [pickIndexFrom]
    split
    · rfl
    · exact ih (cumulative + weight) (index + 1) (.inl (Nat.succ_pos _))

/-- The walk ends at an index of the list. -/
theorem pickIndexFrom_lt (target cumulative : ℤ) (index : ℕ) {weights : List ℤ} (h : weights ≠ []) :
    pickIndexFrom target cumulative index weights < index + weights.length := by
  induction weights generalizing cumulative index with
  | nil => exact absurd rfl h
  | cons weight rest ih =>
    simp only [pickIndexFrom, List.length_cons]
    split
    · omega
    · cases rest with
      | nil => simp [pickIndexFrom]
      | cons next others =>
        have hrest := ih (cumulative + weight) (index + 1) (List.cons_ne_nil next others)
        omega

/-- The candidate the walk ends at. -/
def picked (target cumulative : ℤ) (candidates : List Candidate) : Option Candidate :=
  candidates[pickIndexFrom target cumulative 0 (candidates.map fun candidate => max 0 candidate.weight)]?

/-- The walk takes the first candidate for the targets within its share and goes on for those past it. -/
theorem picked_cons (target cumulative : ℤ) (candidate : Candidate) (rest : List Candidate) :
    picked target cumulative (candidate :: rest) =
      if target < cumulative + share candidate ∨ rest = [] then some candidate
      else picked target (cumulative + share candidate) rest := by
  unfold picked
  rw [List.map_cons, pickIndexFrom, ← share_cast]
  by_cases hin : target < cumulative + share candidate
  · rw [if_pos hin, if_pos (.inl hin)]
    rfl
  · rw [if_neg hin]
    by_cases hrest : rest = []
    · subst hrest
      rw [if_pos (.inr rfl)]
      rfl
    · have hweights : rest.map (fun candidate => max 0 candidate.weight) ≠ [] := by simpa using hrest
      rw [if_neg (not_or.mpr ⟨hin, hrest⟩), pickIndexFrom_succ _ _ _ _ (.inr hweights)]
      rfl

/-- Counting is over the numbers below the bound. -/
theorem count_congr {first second : ℕ → Prop} [DecidablePred first] [DecidablePred second] {bound : ℕ}
    (h : ∀ k < bound, first k ↔ second k) : Nat.count first bound = Nat.count second bound :=
  List.countP_congr fun k hmem => by simpa using h k (List.mem_range.mp hmem)

/-- Of all targets, as many are a candidate's as its share. -/
theorem count_picked (test : Candidate → Bool) (candidates : List Candidate) (cumulative : ℤ) :
    Nat.count (fun k => (picked (cumulative + k) cumulative candidates).any test = true) (candidates.map share).sum =
      ((candidates.filter test).map share).sum := by
  induction candidates generalizing cumulative with
  | nil => rfl
  | cons candidate rest ih =>
    rw [List.map_cons, List.sum_cons, Nat.count_add]
    have hfirst : Nat.count (fun k : ℕ => (picked (cumulative + k) cumulative (candidate :: rest)).any test = true)
        (share candidate) = if test candidate = true then share candidate else 0 := by
      have hown (k : ℕ) (hk : k < share candidate) :
          picked (cumulative + k) cumulative (candidate :: rest) = some candidate := by
        rw [picked_cons, if_pos (.inl (by omega))]
      split
      · next htest => exact Nat.count_iff_forall.mpr fun k hk => by rw [hown k hk]; exact htest
      · next htest => exact Nat.count_iff_forall_not.mpr fun k hk => by rw [hown k hk]; exact htest
    have hrest : Nat.count (fun k : ℕ => (picked (cumulative + (share candidate + k : ℕ)) cumulative
        (candidate :: rest)).any test = true) (rest.map share).sum = ((rest.filter test).map share).sum := by
      rw [← ih (cumulative + share candidate)]
      refine count_congr fun k hk => ?_
      have hne : rest ≠ [] := by
        rintro rfl
        exact absurd hk (Nat.not_lt_zero k)
      have hpast : ¬ cumulative + ((share candidate + k : ℕ) : ℤ) < cumulative + share candidate := by omega
      rw [picked_cons, if_neg (not_or.mpr ⟨hpast, hne⟩), Nat.cast_add, ← add_assoc]
    rw [hfirst, hrest, List.filter_cons]
    split <;> simp

/-- Over a whole period it does not matter where the counting starts. -/
theorem count_periodic (test : ℕ → Prop) [DecidablePred test] {period : ℕ} (h : ∀ k, test (period + k) ↔ test k)
    (start : ℕ) : Nat.count (fun k => test (start + k)) period = Nat.count test period := by
  have hstart := Nat.count_add test start period
  have hperiod := Nat.count_add test period start
  have hsame : Nat.count (fun k => test (period + k)) start = Nat.count test start := count_congr fun k _ => h k
  rw [hsame, Nat.add_comm period start] at hperiod
  omega

/-- The total of the weights is the total of the shares. -/
theorem sum_weights (candidates : List Candidate) :
    (candidates.map fun candidate => max 0 candidate.weight).sum = ((candidates.map share).sum : ℤ) := by
  induction candidates with
  | nil => rfl
  | cons candidate rest ih => simp only [List.map_cons, List.sum_cons, Nat.cast_add, share_cast, ih]

/-- The source's remainder of a counter of either sign is the one between zero and the total. -/
theorem tmod_add_tmod {total : ℤ} (h : 0 < total) (counter : ℤ) :
    ((counter.tmod total) + total).tmod total = counter % total := by
  have hlow : -total < counter.tmod total := Int.lt_tmod_of_pos counter h
  rw [Int.tmod_eq_emod_of_nonneg (by omega), Int.add_emod_right,
    ← Int.add_mul_emod_self_left (counter.tmod total) total (counter.tdiv total), Int.tmod_add_mul_tdiv]

/-- The head of a weighted ordering is the candidate its counter picks. -/
theorem weighted_head (input : PolicyInput) (h : 0 < (input.candidates.map share).sum) :
    (weighted input).ordered.head? =
      picked (input.rotationCounter % ((input.candidates.map share).sum : ℤ)) 0 (sortDeclared input.candidates) := by
  have hperm : (sortDeclared input.candidates).Perm input.candidates := sortBy_perm _ _
  have htotal : ((sortDeclared input.candidates).map fun candidate => max 0 candidate.weight).sum =
      ((input.candidates.map share).sum : ℤ) := by
    rw [sum_weights, (hperm.map share).sum_eq]
  have hne : (sortDeclared input.candidates).map (fun candidate => max 0 candidate.weight) ≠ [] := by
    intro hnil
    rw [hnil, List.sum_nil] at htotal
    omega
  have hlt := pickIndexFrom_lt (input.rotationCounter % ((input.candidates.map share).sum : ℤ)) 0 0 hne
  rw [List.length_map, Nat.zero_add] at hlt
  unfold weighted picked
  dsimp only
  rw [htotal, if_neg (by omega), pickIndex, tmod_add_tmod (by omega), List.getElem?_eq_getElem hlt]
  rfl

/-- Over as many consecutive counters as the weights add up to, from any on, the weighted policy puts a candidate at
the head exactly as often as its weight says, and never for a negative weight: any kind of candidate as often as its
weights add up to. -/
theorem weighted_distribution (input : PolicyInput) (start : ℤ)
    (h : 0 < (input.candidates.map fun candidate : Candidate => max 0 candidate.weight).sum) :
    (∀ test : Candidate → Bool, (Nat.count (fun k =>
        (weighted { input with rotationCounter := start + k }).ordered.head?.any test = true)
        (input.candidates.map fun candidate : Candidate => max 0 candidate.weight).sum.toNat : ℤ) =
      ((input.candidates.filter test).map fun candidate : Candidate => max 0 candidate.weight).sum) ∧
    (DistinctAccounts input.candidates → ∀ candidate ∈ input.candidates, (Nat.count (fun k =>
        (weighted { input with rotationCounter := start + k }).ordered.head?.any
          (fun head => head.account.id == candidate.account.id) = true)
        (input.candidates.map fun candidate : Candidate => max 0 candidate.weight).sum.toNat : ℤ) =
        max 0 candidate.weight) := by
  have htest (test : Candidate → Bool) : (Nat.count (fun k =>
      (weighted { input with rotationCounter := start + k }).ordered.head?.any test = true)
      (input.candidates.map fun candidate : Candidate => max 0 candidate.weight).sum.toNat : ℤ) =
        ((input.candidates.filter test).map fun candidate : Candidate => max 0 candidate.weight).sum := by
    rw [sum_weights] at h ⊢
    have hpositive : 0 < (input.candidates.map share).sum := by omega
    have hperm : (sortDeclared input.candidates).Perm input.candidates := sortBy_perm _ _
    generalize hperiod : (input.candidates.map share).sum = period at *
    have hoffset : (start % (period : ℤ)).toNat = start % (period : ℤ) :=
      Int.toNat_of_nonneg (Int.emod_nonneg _ (by omega))
    -- The head at a counter is what the counter's remainder picks, so the heads repeat with the period.
    have hhead (k : ℕ) : (weighted { input with rotationCounter := start + k }).ordered.head? =
        picked (((start % (period : ℤ)).toNat + k : ℕ) % (period : ℤ)) 0 (sortDeclared input.candidates) := by
      have hpicked := weighted_head { input with rotationCounter := start + k } (by rw [hperiod]; exact hpositive)
      rw [hpicked, hperiod, Nat.cast_add, hoffset, Int.emod_add_emod]
    have hcount := count_picked test (sortDeclared input.candidates) 0
    rw [(hperm.map share).sum_eq, hperiod, ((hperm.filter test).map share).sum_eq] at hcount
    rw [sum_weights, ← hcount, Int.toNat_natCast]
    simp only [hhead]
    rw [count_periodic (fun n : ℕ =>
      (picked ((n : ℤ) % (period : ℤ)) 0 (sortDeclared input.candidates)).any test = true)
      (fun k => by rw [Nat.cast_add, Int.add_emod_left])]
    congr 1
    refine count_congr fun k hk => ?_
    rw [Int.emod_eq_of_lt (by omega) (by omega), zero_add]
  refine ⟨htest, fun hdistinct candidate hmem => ?_⟩
  rw [htest]
  have hone : input.candidates.filter (fun head => head.account.id == candidate.account.id) = [candidate] := by
    have hall : ∀ head ∈ input.candidates.filter (fun head => head.account.id == candidate.account.id),
        head = candidate := fun head hhead =>
      hdistinct.eq_of_id (List.mem_filter.mp hhead).1 hmem (by simpa using (List.mem_filter.mp hhead).2)
    have hin : candidate ∈ input.candidates.filter (fun head => head.account.id == candidate.account.id) :=
      List.mem_filter.mpr ⟨hmem, by simp⟩
    have hnodup : (input.candidates.filter fun head => head.account.id == candidate.account.id).Nodup :=
      List.Nodup.of_map _ (hdistinct.filter _)
    have hcopies := List.eq_replicate_of_mem hall
    rw [hcopies, List.nodup_replicate] at hnodup
    have hlength := List.length_pos_of_mem hin
    rw [hcopies, le_antisymm hnodup hlength]
    rfl
  rw [hone]
  simp

/-- Over three counters from below zero, a weight of two heads two of them and a negative weight none. -/
theorem weighted_distribution_three :
    let candidate (id : String) (weight : ℤ) (order : ℕ) : Candidate :=
      { account := { id }, poolId := none, weight, priority := 0, order, upstreamModel := "m", halfOpen := false }
    let input : PolicyInput :=
      { now := 0, candidates := [candidate "a" 2 0, candidate "b" (-1) 1, candidate "c" 1 2], sessionKey := "session"
        rotationCounter := 0 }
    (Nat.count (fun k => (weighted { input with rotationCounter := -2 + (k : ℤ) }).ordered.head?.any
      (fun head => head.account.id == "a") = true) 3 : ℤ) = 2 := by
  intro candidate input
  exact (weighted_distribution input (-2) (by decide)).2 (by simp [DistinctAccounts, accountIds, candidate, input])
    (candidate "a" 2 0) (by simp [input])

end MultiAiRouter.Routing
