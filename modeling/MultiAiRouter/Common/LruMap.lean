import Mathlib.Data.List.AList

/-!
# Maps that evict their oldest name

An association list with its newest name in front: a name erased and inserted again is the newest,
and the last name is the oldest. Making room evicts while the map is at its limit, and ends below it
when every eviction shrinks the map.
-/

namespace MultiAiRouter.Common

variable {κ ν : Type*} [DecidableEq κ]

/-- A map whose names stand newest first. -/
abbrev LruMap (κ ν : Type*) := AList fun _ : κ => ν

/-- The number of names. -/
def mapSize (map : LruMap κ ν) : ℕ := map.keys.length

/-- The name inserted longest ago. -/
def oldestName (map : LruMap κ ν) : Option κ := map.keys.getLast?

/-- The map without any of the names. -/
def eraseNames (names : List κ) (map : LruMap κ ν) : LruMap κ ν :=
  names.foldl (fun map name => map.erase name) map

section Lookup

variable {name : κ} {map : LruMap κ ν}

/-- What is found after an erasure was there, under another name. -/
theorem lookup_erase_eq_some {other : κ} {value : ν} :
    (map.erase other).lookup name = some value ↔ name ≠ other ∧ map.lookup name = some value := by
  by_cases h : name = other
  · subst h
    simp
  · rw [AList.lookup_erase_ne h]
    simp [h]

/-- What is found after an insertion is the value inserted, or was there under another name. -/
theorem lookup_insert_eq_some {other : κ} {inserted value : ν} :
    (map.insert other inserted).lookup name = some value ↔
      (name = other ∧ inserted = value) ∨ (name ≠ other ∧ map.lookup name = some value) := by
  by_cases h : name = other
  · subst h
    simp
  · rw [AList.lookup_insert_ne h]
    simp [h]

/-- Erasing a name the map does not hold changes nothing. -/
theorem erase_of_lookup_none (h : map.lookup name = none) : map.erase name = map :=
  AList.ext (List.kerase_of_notMem_keys (AList.lookup_eq_none.mp h))

/-- What is found after erasing names was there, under none of them. -/
theorem lookup_eraseNames_eq_some {names : List κ} {value : ν} :
    (eraseNames names map).lookup name = some value ↔ name ∉ names ∧ map.lookup name = some value := by
  induction names generalizing map with
  | nil => simp [eraseNames]
  | cons first rest ih =>
    rw [eraseNames, List.foldl_cons, ← eraseNames, ih, lookup_erase_eq_some]
    simp only [List.mem_cons, not_or]
    tauto

end Lookup

section Size

variable {name : κ} {map : LruMap κ ν}

theorem mapSize_erase_le : mapSize (map.erase name) ≤ mapSize map := by
  rw [mapSize, mapSize, AList.keys_erase]
  exact List.length_erase_le

/-- Erasing a name the map holds makes it smaller. -/
theorem mapSize_erase_lt (h : name ∈ map.keys) : mapSize (map.erase name) < mapSize map := by
  have hpos := List.length_pos_of_mem h
  rw [mapSize, mapSize, AList.keys_erase, List.length_erase_of_mem h]
  omega

theorem mapSize_insert (value : ν) : mapSize (map.insert name value) = mapSize (map.erase name) + 1 := by
  rw [mapSize, mapSize, AList.keys_insert, AList.keys_erase, List.length_cons]

/-- Storing under a name the map holds keeps its size. -/
theorem mapSize_insert_of_mem (value : ν) (h : name ∈ map.keys) :
    mapSize (map.insert name value) = mapSize map := by
  have hpos := List.length_pos_of_mem h
  rw [mapSize_insert, mapSize, mapSize, AList.keys_erase, List.length_erase_of_mem h]
  omega

theorem mapSize_eraseNames_le (names : List κ) : mapSize (eraseNames names map) ≤ mapSize map := by
  induction names generalizing map with
  | nil => exact Nat.le_refl _
  | cons first rest ih => exact Nat.le_trans ih mapSize_erase_le

omit [DecidableEq κ] in
/-- The oldest name is one the map holds. -/
theorem oldestName_mem (h : oldestName map = some name) : name ∈ map.keys := List.mem_of_getLast? h

omit [DecidableEq κ] in
/-- A map without an oldest name is empty. -/
theorem mapSize_of_oldestName_none (h : oldestName map = none) : mapSize map = 0 := by
  rw [oldestName, List.getLast?_eq_none_iff] at h
  rw [mapSize, h, List.length_nil]

end Size

section Evict

variable {State : Type*} (size : State → ℕ) (evict : State → State) (limit : ℕ)

/-- Evict while the size is at the limit, for at most so many rounds. -/
def evictDown : ℕ → State → State
  | 0, state => state
  | rounds + 1, state => if limit ≤ size state then evictDown rounds (evict state) else state

variable {size evict limit}

/-- What every eviction preserves holds once there is room. -/
theorem evictDown_invariant (invariant : State → Prop) (hevict : ∀ state, invariant state → invariant (evict state))
    : ∀ rounds state, invariant state → invariant (evictDown size evict limit rounds state)
  | 0, _, h => h
  | rounds + 1, state, h => by
    rw [evictDown]
    split
    · exact evictDown_invariant invariant hevict rounds _ (hevict state h)
    · exact h

/-- With room there is nothing to evict. -/
theorem evictDown_of_lt {state : State} (h : size state < limit) :
    ∀ rounds, evictDown size evict limit rounds state = state
  | 0 => rfl
  | rounds + 1 => by rw [evictDown, if_neg (by omega)]

/-- Enough rounds of evictions that each shrink the state end below the limit. -/
theorem evictDown_lt (hlimit : 0 < limit) (hshrinks : ∀ state, 0 < size state → size (evict state) < size state) :
    ∀ rounds state, size state ≤ rounds → size (evictDown size evict limit rounds state) < limit
  | 0, state, h => by
    rw [evictDown]
    omega
  | rounds + 1, state, h => by
    rw [evictDown]
    split
    · next hfull =>
      have hless := hshrinks state (by omega)
      exact evictDown_lt hlimit hshrinks rounds _ (by omega)
    · next hroom => omega

end Evict

end MultiAiRouter.Common
