import Mathlib.Algebra.Order.BigOperators.Group.List
import Mathlib.Algebra.Order.Group.Nat
import Mathlib.Algebra.BigOperators.Group.List.Lemmas
import Mathlib.Algebra.Ring.Nat

/-!
# A walk that keeps what is left in a list

A tree is walked without recursion: the item on top is taken off, its cost is added up, and its children are put on
top, the last one first. The walk comes to the weights of what it was started with, where the weight of an item is
its cost and the weights of its children.
-/

namespace MultiAiRouter.Common

variable {Item : Type*}

/-- The children of an item are smaller together than the item. -/
def Shrinks (children : Item → List Item) : Prop :=
  ∃ size : Item → ℕ, ∀ item, ((children item).map size).sum < size item

/-- What holds of an item when it holds of its children holds of every item. -/
theorem Shrinks.induction {children : Item → List Item} (h : Shrinks children) {holds : Item → Prop}
    (hstep : ∀ item, (∀ child ∈ children item, holds child) → holds item) (item : Item) : holds item := by
  obtain ⟨size, hsize⟩ := h
  induction hbound : size item using Nat.strong_induction_on generalizing item with
  | _ bound ih =>
    refine hstep item fun child hchild => ih (size child) ?_ child rfl
    have hpart := List.single_le_sum (by simp) _ (List.mem_map_of_mem (f := size) hchild)
    have hwhole := hsize item
    omega

/-- Add up the costs of the items, and of everything below them. -/
def walk (cost : Item → ℕ) (children : Item → List Item) (hshrinks : Shrinks children) : List Item → ℕ → ℕ
  | [], total => total
  | item :: pending, total =>
    walk cost children hshrinks ((children item).reverse ++ pending) (total + cost item)
termination_by pending => (pending.map hshrinks.choose).sum
decreasing_by
  have hsmaller := hshrinks.choose_spec item
  rw [List.map_append, List.map_reverse, List.sum_append, List.sum_reverse, List.map_cons, List.sum_cons]
  omega

section Walk

variable {cost : Item → ℕ} {children : Item → List Item} {hshrinks : Shrinks children}

/-- What the walk of one item comes to. -/
def weigh (cost : Item → ℕ) (children : Item → List Item) (hshrinks : Shrinks children) (item : Item) : ℕ :=
  walk cost children hshrinks [item] 0

/-- A walk adds up the weights of what it was started with. -/
theorem walk_eq (pending : List Item) (total : ℕ) :
    walk cost children hshrinks pending total = total + (pending.map (weigh cost children hshrinks)).sum := by
  obtain ⟨size, hsize⟩ := id hshrinks
  induction hbound : (pending.map size).sum using Nat.strong_induction_on generalizing pending total with
  | _ bound ih =>
    cases pending with
    | nil =>
      rw [walk]
      rfl
    | cons item rest =>
      have hsmaller := hsize item
      rw [List.map_cons, List.sum_cons] at hbound
      -- The children alone, and the children before the rest, are both smaller than the item before the rest.
      have hwalk (after : List Item) (start : ℕ) (hafter : (after.map size).sum ≤ (rest.map size).sum) :
          walk cost children hshrinks (item :: after) start =
            start + cost item + ((children item).map (weigh cost children hshrinks)).sum +
              (after.map (weigh cost children hshrinks)).sum := by
        have hless : (((children item).reverse ++ after).map size).sum < bound := by
          rw [List.map_append, List.map_reverse, List.sum_append, List.sum_reverse]
          omega
        rw [walk, ih _ hless _ _ rfl, List.map_append, List.map_reverse, List.sum_append, List.sum_reverse]
        omega
      have hitem := hwalk [] 0 (Nat.zero_le _)
      rw [List.map_cons, List.sum_cons, hwalk rest total le_rfl]
      rw [weigh, hitem]
      simp only [List.map_nil, List.sum_nil]
      omega

/-- The weight of an item is its cost and the weights of its children. -/
theorem weigh_eq (item : Item) : weigh cost children hshrinks item =
      cost item + ((children item).map (weigh cost children hshrinks)).sum := by
  rw [weigh, walk, walk_eq, List.append_nil, List.map_reverse, List.sum_reverse, Nat.zero_add]

end Walk

end MultiAiRouter.Common
