import Mathlib.Algebra.Order.Group.Defs
import Mathlib.Algebra.Order.Monoid.Unbundled.Basic
import Mathlib.Algebra.Order.Group.Unbundled.Basic
import Mathlib.Data.List.Basic
import Mathlib.Order.Basic

/-!
# A ceiling over a sliding window

A request is granted when fewer than `limit` were granted in the span that ends with it. On a clock that never goes
back no half-open interval of the span holds more than `limit`, a refusal is one for which the span is full, and its
oldest grant says when the next is granted.
-/

namespace MultiAiRouter.Common.SlidingWindow

variable {Time : Type*} [AddCommGroup Time] [LinearOrder Time] [IsOrderedAddMonoid Time]
variable {limit : ℕ} {span : Time}

/-- The granted instants inside the span that ends at an instant. -/
def recent (span now : Time) (granted : List Time) : List Time :=
  granted.filter fun instant => decide (now - span < instant)

/-- The granted instants after a request at an instant. -/
def request (limit : ℕ) (span : Time) (granted : List Time) (now : Time) : List Time :=
  if (recent span now granted).length < limit then granted ++ [now] else granted

/-- No half-open interval of the span holds more grants than the limit. -/
def WithinLimit (limit : ℕ) (span : Time) (granted : List Time) : Prop :=
  ∀ start, (granted.filter fun instant => decide (start ≤ instant ∧ instant < start + span)).length ≤ limit ∧
    (granted.filter fun instant => decide (start < instant ∧ instant ≤ start + span)).length ≤ limit

/-- Granted instants in order, none after the clock. -/
structure Chronicle (clock : Time) (granted : List Time) : Prop where
  ordered : granted.Pairwise (· ≤ ·)
  past : ∀ instant ∈ granted, instant ≤ clock

omit [AddCommGroup Time] [IsOrderedAddMonoid Time] in
/-- The clock may go on. -/
theorem Chronicle.later {clock now : Time} {granted : List Time} (h : Chronicle clock granted)
    (hclock : clock ≤ now) : Chronicle now granted :=
  ⟨h.ordered, fun instant hmem => (h.past instant hmem).trans hclock⟩

omit [AddCommGroup Time] [IsOrderedAddMonoid Time] in
/-- A grant at the clock keeps the order. -/
theorem Chronicle.grant {now : Time} {granted : List Time} (h : Chronicle now granted) :
    Chronicle now (granted ++ [now]) where
  ordered := List.pairwise_append.mpr
    ⟨h.ordered, List.pairwise_singleton _ _, fun instant hmem other hother => by
      rw [List.mem_singleton.mp hother]; exact h.past instant hmem⟩
  past instant hmem := by
    rcases List.mem_append.mp hmem with hold | hnew
    · exact h.past instant hold
    · exact (List.mem_singleton.mp hnew).le

omit [IsOrderedAddMonoid Time] in
/-- A request keeps the order. -/
theorem Chronicle.request {now : Time} {granted : List Time} (h : Chronicle now granted) :
    Chronicle now (request limit span granted now) := by
  unfold SlidingWindow.request
  split
  · exact h.grant
  · exact h

/-- An interval that a grant at the clock falls into holds only grants of the span that ends there. -/
theorem WithinLimit.request {now : Time} {granted : List Time} (h : WithinLimit limit span granted) :
    WithinLimit limit span (request limit span granted now) := by
  unfold SlidingWindow.request
  split
  · next hroom =>
    intro start
    rw [List.filter_append, List.filter_append, List.length_append, List.length_append]
    constructor
    · by_cases hin : start ≤ now ∧ now < start + span
      · have hfewer : (granted.filter fun instant => decide (start ≤ instant ∧ instant < start + span)).length ≤
            (recent span now granted).length := by
          refine (List.monotone_filter_right granted fun instant hinstant => ?_).length_le
          simp only [decide_eq_true_eq] at hinstant ⊢
          exact (sub_lt_iff_lt_add.mpr hin.2).trans_le hinstant.1
        have hone := List.length_filter_le (fun instant => decide (start ≤ instant ∧ instant < start + span)) [now]
        simp only [List.length_singleton] at hone
        omega
      · have hnone : ([now].filter fun instant => decide (start ≤ instant ∧ instant < start + span)) = [] := by
          simpa using hin
        rw [hnone]
        exact (h start).1
    · by_cases hin : start < now ∧ now ≤ start + span
      · have hfewer : (granted.filter fun instant => decide (start < instant ∧ instant ≤ start + span)).length ≤
            (recent span now granted).length := by
          refine (List.monotone_filter_right granted fun instant hinstant => ?_).length_le
          simp only [decide_eq_true_eq] at hinstant ⊢
          exact (sub_le_iff_le_add.mpr hin.2).trans_lt hinstant.1
        have hone := List.length_filter_le (fun instant => decide (start < instant ∧ instant ≤ start + span)) [now]
        simp only [List.length_singleton] at hone
        omega
      · have hnone : ([now].filter fun instant => decide (start < instant ∧ instant ≤ start + span)) = [] := by
          simpa using hin
        rw [hnone]
        exact (h start).2
  · exact h

omit [IsOrderedAddMonoid Time] in
/-- The recent grants of a chronicle are the grants of the half-open interval that ends at the clock. -/
theorem recent_eq_interval {now : Time} {granted : List Time} (h : Chronicle now granted) :
    recent span now granted = granted.filter fun instant => decide (now - span < instant ∧ instant ≤ now) := by
  unfold recent
  refine List.filter_congr fun instant hmem => ?_
  simp [h.past instant hmem]

omit [IsOrderedAddMonoid Time] in
/-- The span that ends at the clock holds no more grants than the limit. -/
theorem WithinLimit.recent_le {now : Time} {granted : List Time} (h : WithinLimit limit span granted)
    (hchronicle : Chronicle now granted) : (recent span now granted).length ≤ limit := by
  rw [recent_eq_interval hchronicle]
  have hinterval := (h (now - span)).2
  rwa [sub_add_cancel] at hinterval

/-- What a later span holds is what is still recent of an earlier one. -/
theorem recent_recent {now later : Time} (hlater : now ≤ later) (granted : List Time) :
    recent span later (recent span now granted) = recent span later granted := by
  unfold recent
  rw [List.filter_filter]
  refine List.filter_congr fun instant _ => ?_
  rw [Bool.eq_iff_iff, Bool.and_eq_true, decide_eq_true_eq, decide_eq_true_eq]
  exact ⟨And.left, fun h => ⟨h, (sub_le_sub_right hlater span).trans_lt h⟩⟩

/-- In a full span the oldest grant says when there is room again. -/
theorem room_iff_oldest {now later oldest : Time} {granted rest : List Time} (hchronicle : Chronicle now granted)
    (hwithin : WithinLimit limit span granted) (hfull : limit ≤ (recent span now granted).length)
    (holdest : recent span now granted = oldest :: rest) (hlater : now ≤ later) :
    (recent span later granted).length < limit ↔ oldest + span ≤ later := by
  have hlength : (oldest :: rest).length = limit := by
    rw [← holdest]
    exact le_antisymm (hwithin.recent_le hchronicle) hfull
  have hordered : (oldest :: rest).Pairwise (· ≤ ·) := by
    rw [← holdest]
    exact hchronicle.ordered.sublist List.filter_sublist
  rw [← recent_recent hlater, holdest, ← hlength]
  constructor
  · intro hless
    by_contra hstill
    -- The oldest grant is still recent, so all of them are.
    have hall : recent span later (oldest :: rest) = oldest :: rest := by
      refine List.filter_eq_self.mpr fun instant hmem => decide_eq_true ?_
      have hfirst : oldest ≤ instant := by
        rcases List.mem_cons.mp hmem with rfl | hrest
        · exact le_rfl
        · exact List.rel_of_pairwise_cons hordered hrest
      exact (sub_lt_iff_lt_add.mpr (not_le.mp hstill)).trans_le hfirst
    rw [hall] at hless
    exact lt_irrefl _ hless
  · intro hpast
    have hgone : ¬ later - span < oldest := not_lt.mpr (le_sub_iff_add_le.mpr hpast)
    unfold recent
    rw [List.filter_cons_of_neg (by simpa using hgone)]
    exact Nat.lt_succ_of_le (List.length_filter_le _ _)

end MultiAiRouter.Common.SlidingWindow
