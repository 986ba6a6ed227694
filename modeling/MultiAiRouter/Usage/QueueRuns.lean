import Mathlib.Data.Int.Notation
import MultiAiRouter.Usage.ShedReports

/-!
# The queue as a list that drops its oldest entries

What the queue is for, without the array and its head: a list with a bound, whose oldest entry goes when one more
comes to a full list. The array stays under twice the bound, because a dead prefix as long as the rest is cut off.
-/

namespace MultiAiRouter.Usage

open Common

variable {T : Type}

/-- What a caller asks of a queue. -/
inductive QueueCall (T : Type)
  | push (item : T)
  | drain (max : ℤ)
  deriving DecidableEq

/-- Whether an entry comes. -/
def QueueCall.pushes : QueueCall T → Bool
  | .push _ => true
  | .drain _ => false

/-- What the caller gets, and the depth it reads next. -/
inductive QueueAnswer (T : Type)
  | pushed (kept : Bool) (depth : ℕ)
  | drained (batch : List T) (depth : ℕ)
  deriving DecidableEq

/-- The entries that were handed out. -/
def QueueAnswer.batch : QueueAnswer T → List T
  | .pushed .. => []
  | .drained batch _ => batch

/-- An entry comes to a bounded list: the oldest goes when the list is full. -/
def dropOldest (bound : ℕ) (entries : List T) (item : T) : List T :=
  if entries.length < bound then entries ++ [item] else entries.tail ++ [item]

/-- One call to the bounded list. -/
def plainCall (bound : ℕ) (entries : List T) : QueueCall T → List T × List (QueueAnswer T)
  | .push item =>
    (dropOldest bound entries item,
      [.pushed (decide (entries.length < bound)) (dropOldest bound entries item).length])
  | .drain max =>
    (entries.drop max.toNat, [.drained (entries.take max.toNat) (entries.drop max.toNat).length])

namespace BoundedQueue

variable {queue : BoundedQueue T}

/-- One call to the queue; no more than nothing is asked for with a negative number. -/
def call (queue : BoundedQueue T) : QueueCall T → BoundedQueue T × List (QueueAnswer T)
  | .push item => ((queue.push item).1, [.pushed (queue.push item).2 (queue.push item).1.depth])
  | .drain max =>
    ((queue.drain max.toNat).1, [.drained (queue.drain max.toNat).2 (queue.drain max.toNat).1.depth])

/-- The array is free of a dead prefix, or the prefix is shorter than what is behind it. -/
def Compact (queue : BoundedQueue T) : Prop := queue.head = 0 ∨ queue.head < queue.depth

/-- The queue holds the entries of the list, within its bound, and no more than as many dead ones. -/
structure Holds (bound : ℕ) (queue : BoundedQueue T) (entries : List T) : Prop where
  bound_eq : queue.maxItems = bound
  contents_eq : queue.contents = entries
  within : entries.length ≤ bound
  compact : queue.Compact

theorem Holds.depth_eq {bound : ℕ} {entries : List T} (h : queue.Holds bound entries) :
    queue.depth = entries.length := by
  rw [← queue.length_contents, h.contents_eq]

/-- The array of a queue is less than twice as long as the bound. -/
theorem Holds.length_lt {bound : ℕ} {entries : List T} (h : queue.Holds bound entries) :
    queue.items.length < 2 * bound := by
  have hdepth := h.depth_eq
  have hwithin := h.within
  have hpositive := queue.positive
  have hhead := queue.head_le
  have hbound := h.bound_eq
  have hcompact := h.compact
  unfold Compact at hcompact
  unfold depth at hdepth hcompact
  omega

theorem reclaim_compact (queue : BoundedQueue T) : queue.reclaim.Compact := by
  unfold reclaim
  split
  · next hkept => exact hkept
  · exact .inl rfl

theorem push_compact (queue : BoundedQueue T) (item : T) : (queue.push item).1.Compact := reclaim_compact _

theorem drain_compact (h : queue.Compact) (max : ℕ) : (queue.drain max).1.Compact := by
  unfold drain
  dsimp only
  split
  · exact h
  · exact reclaim_compact _

/-- A drain hands out what the list hands out. -/
theorem drain_contents (queue : BoundedQueue T) (max : ℕ) :
    (queue.drain max).2 = queue.contents.take max ∧ (queue.drain max).1.contents = queue.contents.drop max := by
  have htaken : (queue.drain max).2 = queue.contents.take max := by
    unfold drain
    dsimp only
    split
    · next hnone =>
      rcases Nat.min_eq_zero_iff.mp hnone with rfl | hempty
      · rfl
      · rw [← queue.length_contents] at hempty
        rw [List.length_eq_zero_iff.mp hempty, List.take_nil]
    · have hlength := List.take_eq_take_min (l := queue.contents) (i := max)
      rw [queue.length_contents] at hlength
      exact hlength.symm
  have hsplit := (queue.drain_spec max).1
  rw [htaken] at hsplit
  exact ⟨htaken, List.append_cancel_left (hsplit.trans (List.take_append_drop max queue.contents).symm)⟩

/-- A push answers as the list does, and leaves the two alike. -/
theorem push_holds {bound : ℕ} {entries : List T} (h : queue.Holds bound entries) (item : T) :
    (queue.push item).2 = decide (entries.length < bound) ∧
      (queue.push item).1.Holds bound (dropOldest bound entries item) := by
  have hdepth := h.depth_eq
  have hbound := h.bound_eq
  have hpositive := queue.positive
  unfold dropOldest
  by_cases hroom : entries.length < bound
  · obtain ⟨hkept, -, hcontents, hmax⟩ := @push_room _ queue (by omega) item
    rw [if_pos hroom, decide_eq_true hroom]
    refine ⟨hkept, hmax.trans hbound, by rw [hcontents, h.contents_eq], ?_, queue.push_compact item⟩
    rw [List.length_append, List.length_singleton]
    exact hroom
  · have hwithin := h.within
    obtain ⟨hshed, -, hcontents, hmax⟩ := @push_full _ queue (by omega) item
    rw [if_neg hroom, decide_eq_false hroom]
    refine ⟨hshed, hmax.trans hbound, by rw [hcontents, h.contents_eq], ?_, queue.push_compact item⟩
    rw [List.length_append, List.length_tail, List.length_singleton]
    omega

/-- A drain takes the oldest entries. -/
theorem drain_holds {bound : ℕ} {entries : List T} (h : queue.Holds bound entries) (max : ℕ) :
    (queue.drain max).1.Holds bound (entries.drop max) where
  bound_eq := (drain_bound max).2.trans h.bound_eq
  contents_eq := by rw [(queue.drain_contents max).2, h.contents_eq]
  within := by
    rw [List.length_drop]
    exact Nat.le_trans (Nat.sub_le ..) h.within
  compact := drain_compact h.compact max

/-- One call is answered as the list answers it, and leaves the two alike. -/
theorem call_holds {bound : ℕ} (queue : BoundedQueue T) (entries : List T) (asked : QueueCall T)
    (h : queue.Holds bound entries) : (queue.call asked).2 = (plainCall bound entries asked).2 ∧
      (queue.call asked).1.Holds bound (plainCall bound entries asked).1 := by
  cases asked with
  | push item =>
    obtain ⟨hkept, hholds⟩ := push_holds h item
    refine ⟨?_, hholds⟩
    simp only [call, plainCall]
    rw [hkept, hholds.depth_eq]
  | drain max =>
    have hholds := drain_holds h max.toNat
    refine ⟨?_, hholds⟩
    simp only [call, plainCall]
    rw [(queue.drain_contents max.toNat).1, h.contents_eq, hholds.depth_eq]

/-- One call: what came in went out, was shed, or is there. -/
theorem call_accounts (queue : BoundedQueue T) (asked : QueueCall T) :
    queue.depth + (if asked.pushes then 1 else 0) + queue.dropped =
      (queue.call asked).1.depth + ((queue.call asked).2.flatMap QueueAnswer.batch).length +
        (queue.call asked).1.dropped := by
  cases asked with
  | push item =>
    obtain ⟨count, hcontents, hdropped, hcount⟩ := queue.push_spec item
    have hlength := congrArg List.length hcontents
    rw [length_contents, List.length_append, List.length_drop, length_contents, List.length_singleton] at hlength
    simp only [call, QueueCall.pushes, if_true, List.flatMap_singleton, QueueAnswer.batch, List.length_nil]
    omega
  | drain max =>
    obtain ⟨hsplit, hdropped⟩ := queue.drain_spec max.toNat
    have hlength := congrArg List.length hsplit
    rw [List.length_append, length_contents, length_contents] at hlength
    simp only [call, QueueCall.pushes, Bool.false_eq_true, if_false, List.flatMap_singleton, QueueAnswer.batch]
    omega

/-- What a run of calls brought in went out, was shed, or is there. -/
theorem calls_account (queue : BoundedQueue T) (calls : List (QueueCall T)) :
    queue.depth + calls.countP QueueCall.pushes + queue.dropped =
      (emitFrom call queue calls).1.depth + ((emitFrom call queue calls).2.flatMap QueueAnswer.batch).length +
        (emitFrom call queue calls).1.dropped := by
  induction calls generalizing queue with
  | nil => rfl
  | cons asked rest ih =>
    have hfirst := queue.call_accounts asked
    have hrest := ih (queue.call asked).1
    rw [emitFrom_cons, List.countP_cons, List.flatMap_append, List.length_append]
    dsimp only
    omega

end BoundedQueue

/-- Over every sequence of pushes and drains, the queue answers as the list that drops its oldest entries does; what was
pushed was drained, was dropped, or is queued; and the depth stays within the bound. -/
theorem queue_refines_dropOldest {maxItems : ℕ} (hpositive : 1 ≤ maxItems) (calls : List (QueueCall T)) :
    ∃ queue, BoundedQueue.create maxItems = some queue ∧
      (emitFrom BoundedQueue.call queue calls).2 = (emitFrom (plainCall maxItems) [] calls).2 ∧
      (emitFrom BoundedQueue.call queue calls).1.contents = (emitFrom (plainCall maxItems) [] calls).1 ∧
      calls.countP QueueCall.pushes =
        ((emitFrom BoundedQueue.call queue calls).2.flatMap QueueAnswer.batch).length +
          (emitFrom BoundedQueue.call queue calls).1.dropped + (emitFrom BoundedQueue.call queue calls).1.depth ∧
      (emitFrom BoundedQueue.call queue calls).1.depth ≤ maxItems ∧
      (emitFrom BoundedQueue.call queue calls).1.items.length < 2 * maxItems := by
  let queue : BoundedQueue T := { maxItems, positive := hpositive, head_le := Nat.le_refl 0 }
  have hempty : queue.Holds maxItems ([] : List T) := ⟨rfl, rfl, Nat.zero_le _, .inl rfl⟩
  obtain ⟨hanswers, hholds⟩ := emitFrom_simulates _ BoundedQueue.call_holds calls queue [] hempty
  refine ⟨queue, dif_pos hpositive, hanswers, hholds.contents_eq, ?_, ?_, hholds.length_lt⟩
  · have haccounts := queue.calls_account calls
    have hstart : queue.depth = 0 ∧ queue.dropped = 0 := ⟨rfl, rfl⟩
    omega
  · rw [hholds.depth_eq]
    exact hholds.within

/-- A queue of one drops the first of two. -/
theorem queue_refines_dropOldest_one : ∃ queue : BoundedQueue ℕ, BoundedQueue.create 1 = some queue ∧
    (emitFrom BoundedQueue.call queue [.push 4, .push 7, .drain 2]).2 =
      [.pushed true 1, .pushed false 1, .drained [7] 0] := by
  obtain ⟨queue, hcreated, hanswers, -⟩ :=
    @queue_refines_dropOldest ℕ 1 (by decide) [.push 4, .push 7, .drain 2]
  exact ⟨queue, hcreated, hanswers⟩

end MultiAiRouter.Usage
