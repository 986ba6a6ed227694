import Mathlib.Data.List.Basic

/-!
# Exclusive holders

A list of holders and the set of keys that are taken. The table is exclusive when a key is taken
exactly while a holder has it, and no two holders have the same key.
-/

namespace MultiAiRouter.Common

variable {Holder Key : Type*} {has : Holder → Key → Prop}

/-- A key is taken exactly while a holder has it, and one holder at most has it. -/
structure Exclusive (has : Holder → Key → Prop) (holders : List Holder) (taken : Key → Prop) : Prop where
  taken_iff : ∀ key, taken key ↔ ∃ (i : ℕ) (holder : Holder), holders[i]? = some holder ∧ has holder key
  unique : ∀ (i j : ℕ) first second key, holders[i]? = some first → holders[j]? = some second →
    has first key → has second key → i = j

/-- The holder took free keys only and gave back its own only. -/
structure Exchanges (has : Holder → Key → Prop) (taken : Key → Prop) (holder : Holder)
    (taken' : Key → Prop) (holder' : Holder) : Prop where
  free : ∀ key, has holder' key → has holder key ∨ ¬ taken key
  taken_iff : ∀ key, taken' key ↔ (taken key ∧ ¬ has holder key) ∨ has holder' key

/-- An empty table is exclusive. -/
theorem Exclusive.nil : Exclusive has [] fun _ => False :=
  ⟨by simp, by simp⟩

/-- A holder's exchange keeps the table exclusive. -/
theorem Exclusive.exchange {holders : List Holder} {taken taken' : Key → Prop} {i : ℕ}
    {holder holder' : Holder} (h : Exclusive has holders taken) (hi : holders[i]? = some holder)
    (hx : Exchanges has taken holder taken' holder') : Exclusive has (holders.set i holder') taken' := by
  have hlength : i < holders.length := (List.getElem?_eq_some_iff.mp hi).1
  have hself : (holders.set i holder')[i]? = some holder' := by simp [hlength]
  have hother {j : ℕ} (hj : j ≠ i) : (holders.set i holder')[j]? = holders[j]? := List.getElem?_set_ne hj.symm
  -- A key the holder now has belongs to no other holder: it was its own, or it was free.
  have halone {j : ℕ} {other : Holder} {key : Key} (hj : j ≠ i) (hget : holders[j]? = some other)
      (hhas : has holder' key) (hhas' : has other key) : False := by
    rcases hx.free key hhas with hold | hfree
    · exact hj (h.unique j i other holder key hget hi hhas' hold)
    · exact hfree ((h.taken_iff key).mpr ⟨j, other, hget, hhas'⟩)
  refine ⟨?_, ?_⟩
  · intro key
    rw [hx.taken_iff]
    constructor
    · rintro (⟨htaken, hnot⟩ | hhas)
      · obtain ⟨j, other, hget, hhas⟩ := (h.taken_iff key).mp htaken
        have hj : j ≠ i := by
          rintro rfl
          exact hnot (Option.some.inj (hi.symm.trans hget) ▸ hhas)
        exact ⟨j, other, (hother hj).trans hget, hhas⟩
      · exact ⟨i, holder', hself, hhas⟩
    · rintro ⟨j, other, hget, hhas⟩
      by_cases hj : j = i
      · subst hj
        exact .inr (Option.some.inj (hself.symm.trans hget) ▸ hhas)
      · rw [hother hj] at hget
        refine .inl ⟨(h.taken_iff key).mpr ⟨j, other, hget, hhas⟩, fun hold => ?_⟩
        exact hj (h.unique j i other holder key hget hi hhas hold)
  · intro a b first second key ha hb hfirst hsecond
    by_cases hai : a = i <;> by_cases hbi : b = i
    · rw [hai, hbi]
    · subst hai
      obtain rfl := Option.some.inj (hself.symm.trans ha)
      rw [hother hbi] at hb
      exact (halone hbi hb hfirst hsecond).elim
    · subst hbi
      obtain rfl := Option.some.inj (hself.symm.trans hb)
      rw [hother hai] at ha
      exact (halone hai ha hsecond hfirst).elim
    · rw [hother hai] at ha
      rw [hother hbi] at hb
      exact h.unique a b first second key ha hb hfirst hsecond

/-- A newcomer that took free keys only keeps the table exclusive. -/
theorem Exclusive.join {holders : List Holder} {taken taken' : Key → Prop} {newcomer : Holder}
    (h : Exclusive has holders taken) (hfree : ∀ key, has newcomer key → ¬ taken key)
    (htaken : ∀ key, taken' key ↔ taken key ∨ has newcomer key) : Exclusive has (holders ++ [newcomer]) taken' := by
  have hget {j : ℕ} {holder : Holder} : (holders ++ [newcomer])[j]? = some holder ↔
      holders[j]? = some holder ∨ (j = holders.length ∧ holder = newcomer) := by
    rcases Nat.lt_trichotomy j holders.length with hj | hj | hj
    · rw [List.getElem?_append_left hj]
      exact ⟨.inl, fun h => h.elim id fun h => absurd h.1 (Nat.ne_of_lt hj)⟩
    · subst hj
      simp [eq_comm]
    · rw [List.getElem?_append_right (by omega), List.getElem?_eq_none (by simp; omega),
        List.getElem?_eq_none (by omega)]
      simp [Nat.ne_of_gt hj]
  have halone {j : ℕ} {other : Holder} {key : Key} (hold : holders[j]? = some other)
      (hhas : has other key) (hnew : has newcomer key) : False :=
    hfree key hnew ((h.taken_iff key).mpr ⟨j, other, hold, hhas⟩)
  refine ⟨?_, ?_⟩
  · intro key
    rw [htaken, h.taken_iff]
    constructor
    · rintro (⟨j, other, hold, hhas⟩ | hnew)
      · exact ⟨j, other, hget.mpr (.inl hold), hhas⟩
      · exact ⟨holders.length, newcomer, hget.mpr (.inr ⟨rfl, rfl⟩), hnew⟩
    · rintro ⟨j, other, hj, hhas⟩
      rcases hget.mp hj with hold | ⟨-, rfl⟩
      · exact .inl ⟨j, other, hold, hhas⟩
      · exact .inr hhas
  · intro a b first second key ha hb hfirst hsecond
    rcases hget.mp ha with hold | ⟨rfl, hfirst'⟩ <;> rcases hget.mp hb with hold' | ⟨rfl, hsecond'⟩
    · exact h.unique a b first second key hold hold' hfirst hsecond
    · exact (halone hold hfirst (hsecond' ▸ hsecond)).elim
    · exact (halone hold' hsecond (hfirst' ▸ hfirst)).elim
    · rfl

end MultiAiRouter.Common
