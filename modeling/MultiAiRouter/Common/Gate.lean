import Mathlib.Data.List.Basic
import Mathlib.Data.List.Nodup
import Mathlib.Data.Int.Order.Basic

/-!
# A gate with a queue

A counting gate with a queue of callers, named by their position in a list. A caller takes a free permit or waits at
the end of the queue; a permit given back goes straight to the first in the queue. A balanced gate counts the
callers that hold it, lists those that wait, and has no permit free while one waits.
-/

namespace MultiAiRouter.Common

/-- The permits of a gate, how many are held, and who waits. -/
structure Gate where
  permits : ℤ
  held : ℤ := 0
  queue : List ℕ := []
  deriving DecidableEq

namespace Gate

/-- Nobody holds the gate or waits for it. -/
def idle (gate : Gate) : Bool := gate.held = 0 && gate.queue.isEmpty

/-- Take a permit, or wait for one; whether it was taken. -/
def enter (gate : Gate) (caller : ℕ) : Bool × Gate :=
  if gate.held < gate.permits then (true, { gate with held := gate.held + 1 })
  else (false, { gate with queue := gate.queue ++ [caller] })

/-- Give a permit back: to the first that waits, if any. -/
def leave (gate : Gate) : Option ℕ × Gate :=
  match gate.queue with
  | [] => (none, { gate with held := gate.held - 1 })
  | next :: rest => (some next, { gate with queue := rest })

/-- Stop waiting. -/
def quit (gate : Gate) (caller : ℕ) : Gate := { gate with queue := gate.queue.erase caller }

variable {gate : Gate}

theorem enter_of_lt (h : gate.held < gate.permits) (caller : ℕ) :
    gate.enter caller = (true, { gate with held := gate.held + 1 }) := if_pos h

theorem enter_of_not_lt (h : ¬ gate.held < gate.permits) (caller : ℕ) :
    gate.enter caller = (false, { gate with queue := gate.queue ++ [caller] }) := if_neg h

theorem leave_of_nil (h : gate.queue = []) : gate.leave = (none, { gate with held := gate.held - 1 }) := by
  rw [leave, h]

theorem leave_of_cons {next : ℕ} {rest : List ℕ} (h : gate.queue = next :: rest) :
    gate.leave = (some next, { gate with queue := rest }) := by
  rw [leave, h]

end Gate

section Balance

variable {Caller : Type*} {holds waits : Caller → Bool} {callers : List Caller} {gate : Gate} {n : ℕ}
  {caller caller' : Caller}

/-- The gate counts its holders and lists its waiters, within its permits, and none is free while one
waits. -/
structure Balanced (holds waits : Caller → Bool) (callers : List Caller) (gate : Gate) : Prop where
  held_eq : gate.held = callers.countP holds
  nodup : gate.queue.Nodup
  mem_queue : ∀ n, n ∈ gate.queue ↔ ∃ caller, callers[n]? = some caller ∧ waits caller = true
  le_permits : gate.held ≤ gate.permits
  full : gate.queue ≠ [] → gate.held = gate.permits

/-- Replacing a caller moves the count by what the two add to it. -/
theorem countP_set_of_getElem? (holds : Caller → Bool) (caller' : Caller) (hn : callers[n]? = some caller) :
    ((callers.set n caller').countP holds : ℤ) =
      callers.countP holds - (if holds caller then 1 else 0) + (if holds caller' then 1 else 0) := by
  obtain ⟨hlength, rfl⟩ := List.getElem?_eq_some_iff.mp hn
  rw [List.countP_set hlength]
  cases hholds : holds callers[n] with
  | true =>
    have hpos : 0 < callers.countP holds := List.countP_pos_iff.mpr ⟨_, List.getElem_mem hlength, hholds⟩
    cases holds caller' <;> simp <;> omega
  | false => cases holds caller' <;> simp

/-- The waiters once a caller is replaced. -/
theorem waits_set_iff (hn : callers[n]? = some caller) (m : ℕ) :
    (∃ other, (callers.set n caller')[m]? = some other ∧ waits other = true) ↔
      (m = n ∧ waits caller' = true) ∨ (m ≠ n ∧ ∃ other, callers[m]? = some other ∧ waits other = true) := by
  have hlength := (List.getElem?_eq_some_iff.mp hn).1
  by_cases hm : m = n
  · subst hm
    simp [List.getElem?_set_self hlength]
  · simp [List.getElem?_set_ne (Ne.symm hm), hm]

/-- A caller that changes nothing the gate sees leaves it balanced. -/
theorem Balanced.frame (h : Balanced holds waits callers gate) (hn : callers[n]? = some caller)
    (hholds : holds caller' = holds caller) (hwaits : waits caller' = waits caller) :
    Balanced holds waits (callers.set n caller') gate where
  held_eq := by rw [countP_set_of_getElem? _ _ hn, hholds, h.held_eq]; omega
  nodup := h.nodup
  mem_queue m := by
    rw [waits_set_iff hn, h.mem_queue, hwaits]
    constructor
    · intro hwait
      by_cases hm : m = n
      · subst hm
        obtain ⟨other, hother, hwait⟩ := hwait
        exact .inl ⟨rfl, Option.some.inj (hn.symm.trans hother) ▸ hwait⟩
      · exact .inr ⟨hm, hwait⟩
    · rintro (⟨rfl, hwait⟩ | ⟨-, hwait⟩)
      · exact ⟨caller, hn, hwait⟩
      · exact hwait
  le_permits := h.le_permits
  full := h.full

/-- A newcomer that neither holds nor waits leaves the gate balanced. -/
theorem Balanced.append (h : Balanced holds waits callers gate) (hholds : holds caller = false)
    (hwaits : waits caller = false) : Balanced holds waits (callers ++ [caller]) gate where
  held_eq := by rw [List.countP_append, h.held_eq]; simp [hholds]
  nodup := h.nodup
  mem_queue m := by
    rw [h.mem_queue]
    constructor
    · rintro ⟨other, hother, hwait⟩
      have hlength := (List.getElem?_eq_some_iff.mp hother).1
      exact ⟨other, by rw [List.getElem?_append_left hlength]; exact hother, hwait⟩
    · rintro ⟨other, hother, hwait⟩
      rcases Nat.lt_or_ge m callers.length with hlength | hlength
      · rw [List.getElem?_append_left hlength] at hother
        exact ⟨other, hother, hwait⟩
      · rw [List.getElem?_append_right hlength] at hother
        obtain rfl : caller = other := by
          have hmem := List.mem_of_getElem? hother
          exact (List.mem_singleton.mp hmem).symm
        rw [hwaits] at hwait
        cases hwait
  le_permits := h.le_permits
  full := h.full

/-- A caller that enters holds a permit or waits last. -/
theorem Balanced.enter (h : Balanced holds waits callers gate) (hn : callers[n]? = some caller)
    (hholds : holds caller = false) (hwaits : waits caller = false)
    (hgranted : holds caller' = (gate.enter n).1) (hwaiting : waits caller' = !(gate.enter n).1) :
    Balanced holds waits (callers.set n caller') (gate.enter n).2 := by
  have hout : n ∉ gate.queue := by
    rw [h.mem_queue]
    rintro ⟨other, hother, hwait⟩
    rw [← Option.some.inj (hn.symm.trans hother), hwaits] at hwait
    cases hwait
  have hkeep (m : ℕ) : m ∈ gate.queue ↔ m ≠ n ∧ ∃ other, callers[m]? = some other ∧ waits other = true := by
    rw [← h.mem_queue]
    exact ⟨fun hm => ⟨fun hmn => hout (hmn ▸ hm), hm⟩, And.right⟩
  have hle := h.le_permits
  by_cases hfree : gate.held < gate.permits
  · rw [Gate.enter_of_lt hfree] at hgranted hwaiting ⊢
    refine ⟨?_, h.nodup, fun m => ?_, ?_, ?_⟩
    · rw [countP_set_of_getElem? _ _ hn, hholds, hgranted, ← h.held_eq]
      simp
    · rw [waits_set_iff hn, hwaiting, ← hkeep]
      simp
    · dsimp only
      omega
    · intro hqueue
      have hfull := h.full hqueue
      omega
  · rw [Gate.enter_of_not_lt hfree] at hgranted hwaiting ⊢
    refine ⟨?_, ?_, fun m => ?_, h.le_permits, fun _ => by dsimp only; omega⟩
    · rw [countP_set_of_getElem? _ _ hn, hholds, hgranted, ← h.held_eq]
      simp
    · refine List.nodup_append.mpr ⟨h.nodup, List.nodup_singleton n, fun a ha b hb => ?_⟩
      rw [List.mem_singleton.mp hb]
      exact fun hsame => hout (hsame ▸ ha)
    · rw [waits_set_iff hn, hwaiting, ← hkeep]
      simp [or_comm]

/-- A caller that stops waiting leaves the queue. -/
theorem Balanced.quit (h : Balanced holds waits callers gate) (hn : callers[n]? = some caller)
    (hholds : holds caller = false) (hholds' : holds caller' = false) (hwaits' : waits caller' = false) :
    Balanced holds waits (callers.set n caller') (gate.quit n) where
  held_eq := by rw [countP_set_of_getElem? _ _ hn, hholds, hholds', Gate.quit, h.held_eq]; simp
  nodup := h.nodup.erase n
  mem_queue m := by
    rw [waits_set_iff hn, hwaits', Gate.quit, h.nodup.mem_erase_iff, h.mem_queue]
    simp
  le_permits := h.le_permits
  full hqueue := by
    refine h.full fun hempty => hqueue ?_
    rw [Gate.quit, hempty]
    rfl

/-- The callers once the one a permit was handed to was told. -/
def handTo (grant : Caller → Caller) (callers : List Caller) : Option ℕ → List Caller
  | none => callers
  | some next => callers.modify next grant

/-- A caller that is there is replaced. -/
theorem modify_eq_set (hn : callers[n]? = some caller) (f : Caller → Caller) :
    callers.modify n f = callers.set n (f caller) := by
  refine List.ext_getElem? fun m => ?_
  by_cases hm : n = m
  · subst hm
    rw [List.getElem?_modify_eq, hn, List.getElem?_set_self (List.getElem?_eq_some_iff.mp hn).1]
    rfl
  · rw [List.getElem?_modify_ne f callers hm, List.getElem?_set_ne hm]

/-- A caller that gives its permit back hands it to the first that waits. -/
theorem Balanced.leave (h : Balanced holds waits callers gate) (grant : Caller → Caller)
    (hgrant : ∀ waiter, waits waiter = true →
      holds waiter = false ∧ holds (grant waiter) = true ∧ waits (grant waiter) = false)
    (hn : callers[n]? = some caller) (hholds : holds caller = true) (hwaits : waits caller = false)
    (hholds' : holds caller' = false) (hwaits' : waits caller' = false) :
    Balanced holds waits (handTo grant (callers.set n caller') gate.leave.1) gate.leave.2 := by
  have hcount := countP_set_of_getElem? holds caller' hn
  rw [hholds, hholds', ← h.held_eq] at hcount
  cases hqueue : gate.queue with
  | nil =>
    rw [Gate.leave_of_nil hqueue]
    refine ⟨?_, h.nodup, fun m => ?_, ?_, fun hne => absurd hqueue hne⟩
    · dsimp only [handTo]
      rw [hcount]
      simp
    · dsimp only [handTo]
      rw [waits_set_iff hn, hwaits', ← h.mem_queue, hqueue]
      simp
    · have hle := h.le_permits
      dsimp only
      omega
  | cons next rest =>
    have hnodup := h.nodup
    rw [hqueue, List.nodup_cons] at hnodup
    obtain ⟨waiter, hwaiter, hwaiting⟩ := (h.mem_queue next).mp (by rw [hqueue]; exact List.mem_cons_self)
    obtain ⟨hfree, hgranted, hdone⟩ := hgrant waiter hwaiting
    have hother : next ≠ n := by
      rintro rfl
      rw [← Option.some.inj (hn.symm.trans hwaiter), hwaits] at hwaiting
      cases hwaiting
    have hstill : (callers.set n caller')[next]? = some waiter := by
      rw [List.getElem?_set_ne (Ne.symm hother)]
      exact hwaiter
    rw [Gate.leave_of_cons hqueue]
    dsimp only [handTo]
    rw [modify_eq_set hstill]
    refine ⟨?_, hnodup.2, fun m => ?_, h.le_permits, fun _ => h.full (by rw [hqueue]; simp)⟩
    · rw [countP_set_of_getElem? _ _ hstill, hcount, hfree, hgranted]
      simp
    · rw [waits_set_iff hstill, waits_set_iff hn, hdone, hwaits']
      have hmem := h.mem_queue m
      rw [hqueue, List.mem_cons] at hmem
      constructor
      · intro hrest
        have hm : m ≠ next := fun hm => hnodup.1 (hm ▸ hrest)
        have hwait := hmem.mp (.inr hrest)
        refine .inr ⟨hm, .inr ⟨?_, hwait⟩⟩
        rintro rfl
        obtain ⟨other, hget, hwait⟩ := hwait
        rw [← Option.some.inj (hn.symm.trans hget), hwaits] at hwait
        cases hwait
      · rintro (⟨-, hfalse⟩ | ⟨hm, ⟨-, hfalse⟩ | ⟨-, hwait⟩⟩)
        · cases hfalse
        · cases hfalse
        · exact (hmem.mpr hwait).resolve_left hm

end Balance

section Order

variable {Caller : Type*} {holds : Caller → Bool} {callers callers' : List Caller} {queue queue' : List ℕ}
  {first second : ℕ}

/-- The caller holds a permit. -/
def HoldsAt (holds : Caller → Bool) (callers : List Caller) (n : ℕ) : Prop :=
  ∃ caller, callers[n]? = some caller ∧ holds caller = true

/-- At a gate nothing happens, a caller takes a permit nobody waits for, one waits last, the first
that waits is let in, or one stops waiting. -/
inductive GateMove (holds : Caller → Bool) (callers callers' : List Caller) (queue queue' : List ℕ) : Prop
  | same (hqueue : queue' = queue)
      (hholds : ∀ m, HoldsAt holds callers' m → HoldsAt holds callers m)
  | entered (n : ℕ) (hempty : queue = []) (hqueue : queue' = [])
      (hholds : ∀ m, HoldsAt holds callers' m → HoldsAt holds callers m ∨ m = n)
  | queued (n : ℕ) (hqueue : queue' = queue ++ [n])
      (hholds : ∀ m, HoldsAt holds callers' m → HoldsAt holds callers m)
  | handed (next : ℕ) (hqueue : queue = next :: queue')
      (hholds : ∀ m, HoldsAt holds callers' m → HoldsAt holds callers m ∨ m = next)
  | quit (n : ℕ) (hqueue : queue' = queue.erase n)
      (hholds : ∀ m, HoldsAt holds callers' m → HoldsAt holds callers m)

/-- A move after which holders only gave back is a move. -/
theorem GateMove.then_same {callers'' : List Caller} (h : GateMove holds callers callers' queue queue')
    (hholds' : ∀ m, HoldsAt holds callers'' m → HoldsAt holds callers' m) :
    GateMove holds callers callers'' queue queue' := by
  cases h with
  | same hqueue hholds => exact .same hqueue fun m hm => hholds m (hholds' m hm)
  | entered n hempty hqueue hholds => exact .entered n hempty hqueue fun m hm => hholds m (hholds' m hm)
  | queued n hqueue hholds => exact .queued n hqueue fun m hm => hholds m (hholds' m hm)
  | handed next hqueue hholds => exact .handed next hqueue fun m hm => hholds m (hholds' m hm)
  | quit n hqueue hholds => exact .quit n hqueue fun m hm => hholds m (hholds' m hm)

/-- A move before which holders only gave back is a move. -/
theorem GateMove.after_same {callers'' : List Caller} (h : GateMove holds callers' callers'' queue queue')
    (hholds' : ∀ m, HoldsAt holds callers' m → HoldsAt holds callers m) :
    GateMove holds callers callers'' queue queue' := by
  cases h with
  | same hqueue hholds => exact .same hqueue fun m hm => hholds' m (hholds m hm)
  | entered n hempty hqueue hholds =>
    exact .entered n hempty hqueue fun m hm => (hholds m hm).imp_left (hholds' m)
  | queued n hqueue hholds => exact .queued n hqueue fun m hm => hholds' m (hholds m hm)
  | handed next hqueue hholds =>
    exact .handed next hqueue fun m hm => (hholds m hm).imp_left (hholds' m)
  | quit n hqueue hholds => exact .quit n hqueue fun m hm => hholds' m (hholds m hm)

/-- The first caller waits; the second holds no permit, and waits behind the first if it waits. -/
structure Ahead (holds : Caller → Bool) (callers : List Caller) (queue : List ℕ) (first second : ℕ) :
    Prop where
  waits : first ∈ queue
  without : ¬ HoldsAt holds callers second
  behind : second ∈ queue → [first, second].Sublist queue

/-- While the first caller waits it stays ahead. -/
theorem Ahead.move (h : Ahead holds callers queue first second) (hnodup : queue.Nodup)
    (hmove : GateMove holds callers callers' queue queue') (hwaits : first ∈ queue') :
    Ahead holds callers' queue' first second := by
  have hne : first ≠ second := by
    rintro rfl
    have htwice := (h.behind h.waits).nodup hnodup
    simp at htwice
  cases hmove with
  | same hqueue hholds =>
    subst hqueue
    exact ⟨h.waits, fun hheld => h.without (hholds second hheld), h.behind⟩
  | entered n hempty hqueue hholds =>
    rw [hqueue] at hwaits
    exact absurd hwaits List.not_mem_nil
  | queued n hqueue hholds =>
    subst hqueue
    refine ⟨hwaits, fun hheld => h.without (hholds second hheld), fun hmem => ?_⟩
    by_cases hsecond : second ∈ queue
    · exact (h.behind hsecond).trans (List.sublist_append_left _ _)
    · obtain rfl : second = n := by simpa [hsecond] using hmem
      exact List.Sublist.append (List.singleton_sublist.mpr h.waits) (List.Sublist.refl [second])
  | handed next hqueue hholds =>
    subst hqueue
    have hnext : next ∉ queue' := (List.nodup_cons.mp hnodup).1
    have hfirst : next ≠ first := fun hsame => hnext (hsame ▸ hwaits)
    have hbehind (hmem : second ∈ next :: queue') : [first, second].Sublist queue' := by
      rcases List.sublist_cons_iff.mp (h.behind hmem) with hrest | ⟨rest, hcons, -⟩
      · exact hrest
      · exact absurd (List.cons.inj hcons).1.symm hfirst
    refine ⟨hwaits, fun hheld => ?_, fun hmem => hbehind (List.mem_cons_of_mem _ hmem)⟩
    rcases hholds second hheld with hbefore | rfl
    · exact h.without hbefore
    · exact hnext ((hbehind List.mem_cons_self).subset (by simp))
  | quit n hqueue hholds =>
    subst hqueue
    refine ⟨hwaits, fun hheld => h.without (hholds second hheld), fun hmem => ?_⟩
    have hn : n ≠ first := fun hsame => (hnodup.mem_erase_iff.mp hwaits).1 hsame.symm
    have hn' : n ≠ second := fun hsame => (hnodup.mem_erase_iff.mp hmem).1 hsame.symm
    have hkept := (h.behind (List.mem_of_mem_erase hmem)).erase n
    rwa [List.erase_of_not_mem (by simp [hn, hn'])] at hkept

end Order

end MultiAiRouter.Common
