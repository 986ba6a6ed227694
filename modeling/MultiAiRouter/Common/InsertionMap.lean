import Mathlib.Algebra.BigOperators.Group.List.Basic
import Mathlib.Algebra.Ring.Nat
import Mathlib.Data.List.Nodup

/-!
# Maps in insertion order

A map that is read back in the order its keys first came: setting a key that is there keeps its place,
setting a new one puts it last, and a key that was deleted comes last again. The keys are distinct.
-/

namespace MultiAiRouter.Common

/-- A map whose entries stand in the order they came. -/
structure InsertionMap (Key Entry : Type*) where
  entries : List (Key × Entry) := []
  nodup : (entries.map Prod.fst).Nodup := by exact List.nodup_nil

namespace InsertionMap

variable {Key Entry : Type*} [DecidableEq Key]

/-- The entry of a key. -/
def get (map : InsertionMap Key Entry) (key : Key) : Option Entry :=
  (map.entries.find? fun entry => entry.1 = key).map Prod.snd

/-- Replace the entry of a key where it stands. -/
def replace (key : Key) (entry : Entry) (entries : List (Key × Entry)) : List (Key × Entry) :=
  entries.map fun held => if held.1 = key then (key, entry) else held

omit [DecidableEq Key] in
/-- The keys of a map stand in its entries once each. -/
theorem eq_of_mem {map : InsertionMap Key Entry} {key : Key} {first second : Entry}
    (hfirst : (key, first) ∈ map.entries) (hsecond : (key, second) ∈ map.entries) : first = second := by
  have h := List.inj_on_of_nodup_map map.nodup hfirst hsecond rfl
  exact congrArg Prod.snd h

/-- Replacing an entry keeps the keys. -/
theorem map_fst_replace (key : Key) (entry : Entry) (entries : List (Key × Entry)) :
    (replace key entry entries).map Prod.fst = entries.map Prod.fst := by
  rw [replace, List.map_map]
  refine List.map_congr_left fun held _ => ?_
  simp only [Function.comp]
  split
  · next h => exact h.symm
  · rfl

/-- Set the entry of a key. -/
def set (map : InsertionMap Key Entry) (key : Key) (entry : Entry) : InsertionMap Key Entry :=
  if h : key ∈ map.entries.map Prod.fst then
    { entries := replace key entry map.entries
      nodup := by rw [map_fst_replace]; exact map.nodup }
  else
    { entries := map.entries ++ [(key, entry)]
      nodup := by
        rw [List.map_append]
        exact List.nodup_append.mpr ⟨map.nodup, List.nodup_singleton _, by
            rintro a ha b hb rfl
            rw [List.mem_singleton.mp hb] at ha
            exact h ha⟩ }

/-- Take a key out. -/
def delete (map : InsertionMap Key Entry) (key : Key) : InsertionMap Key Entry where
  entries := map.entries.filter fun entry => decide (entry.1 ≠ key)
  nodup := map.nodup.sublist (List.filter_sublist.map Prod.fst)

/-- A key has an entry exactly when the entry stands in the map. -/
theorem get_eq_some {map : InsertionMap Key Entry} {key : Key} {entry : Entry} :
    map.get key = some entry ↔ (key, entry) ∈ map.entries := by
  unfold get
  constructor
  · intro h
    obtain ⟨found, hfound, rfl⟩ := Option.map_eq_some_iff.mp h
    have hkey : found.1 = key := by simpa using List.find?_some hfound
    rw [← hkey]
    exact List.mem_of_find?_eq_some hfound
  · intro hmem
    have hsome : (map.entries.find? fun entry => entry.1 = key).isSome = true :=
      List.find?_isSome.mpr ⟨(key, entry), hmem, by simp⟩
    obtain ⟨found, hfound⟩ := Option.isSome_iff_exists.mp hsome
    have hkey : found.1 = key := by simpa using List.find?_some hfound
    have hin : (key, found.2) ∈ map.entries := by rw [← hkey]; exact List.mem_of_find?_eq_some hfound
    rw [hfound, Option.map_some, eq_of_mem hin hmem]

/-- A key without an entry. -/
theorem get_eq_none {map : InsertionMap Key Entry} {key : Key} :
    map.get key = none ↔ key ∉ map.entries.map Prod.fst := by
  rw [← not_iff_not, not_not, ← ne_eq, Option.ne_none_iff_exists']
  constructor
  · rintro ⟨entry, hentry⟩
    exact List.mem_map.mpr ⟨_, get_eq_some.mp hentry, rfl⟩
  · intro hmem
    obtain ⟨held, hheld, rfl⟩ := List.mem_map.mp hmem
    exact ⟨held.2, get_eq_some.mpr hheld⟩

@[simp] theorem get_empty (key : Key) : ({} : InsertionMap Key Entry).get key = none := rfl

/-- What is read after a set. -/
theorem get_set (map : InsertionMap Key Entry) (key other : Key) (entry : Entry) :
    (map.set key entry).get other = if other = key then some entry else map.get other := by
  apply Option.ext
  intro found
  have hheld : (map.set key entry).get other = some found ↔
      (other, found) ∈ (map.set key entry).entries := get_eq_some
  rw [hheld]
  unfold set
  split
  · next hkey =>
    obtain ⟨held, hmem, hfst⟩ := List.mem_map.mp hkey
    simp only [replace, List.mem_map]
    constructor
    · rintro ⟨before, hbefore, hafter⟩
      split at hafter
      · cases hafter
        rw [if_pos rfl]
      · next hne =>
        subst hafter
        rw [if_neg hne]
        exact get_eq_some.mpr hbefore
    · intro hget
      split at hget
      · next heq =>
        cases hget
        exact ⟨held, hmem, by rw [if_pos hfst, heq]⟩
      · next hne => exact ⟨(other, found), get_eq_some.mp hget, if_neg hne⟩
  · next hkey =>
    rw [List.mem_append, List.mem_singleton]
    constructor
    · rintro (hmem | heq)
      · have hne : other ≠ key := by
          rintro rfl
          exact hkey (List.mem_map_of_mem hmem)
        rw [if_neg hne]
        exact get_eq_some.mpr hmem
      · cases heq
        rw [if_pos rfl]
    · intro hget
      split at hget
      · next heq =>
        cases hget
        exact .inr (by rw [heq])
      · exact .inl (get_eq_some.mp hget)

@[simp] theorem get_set_self (map : InsertionMap Key Entry) (key : Key) (entry : Entry) :
    (map.set key entry).get key = some entry := by
  rw [get_set, if_pos rfl]

theorem get_set_of_ne (map : InsertionMap Key Entry) {key other : Key} (entry : Entry) (h : other ≠ key) :
    (map.set key entry).get other = map.get other := by
  rw [get_set, if_neg h]

/-- Setting a key that is there keeps the keys. -/
theorem keys_set_of_some {map : InsertionMap Key Entry} {key : Key} (entry : Entry) (h : (map.get key).isSome = true) :
    (map.set key entry).entries.map Prod.fst = map.entries.map Prod.fst := by
  have hmem : key ∈ map.entries.map Prod.fst := by
    by_contra hnot
    rw [get_eq_none.mpr hnot] at h
    cases h
  unfold set
  rw [dif_pos hmem]
  exact map_fst_replace key entry map.entries

/-- Setting a new key puts it last. -/
theorem keys_set_of_none {map : InsertionMap Key Entry} {key : Key} (entry : Entry) (h : map.get key = none) :
    (map.set key entry).entries.map Prod.fst = map.entries.map Prod.fst ++ [key] := by
  unfold set
  rw [dif_neg (get_eq_none.mp h), List.map_append]
  rfl

/-- What is read after a delete. -/
theorem get_delete (map : InsertionMap Key Entry) (key other : Key) :
    (map.delete key).get other = if other = key then none else map.get other := by
  apply Option.ext
  intro found
  rw [get_eq_some]
  simp only [delete, List.mem_filter, decide_eq_true_eq]
  split
  · next h => simp [h]
  · next h => simp [h, get_eq_some]

end InsertionMap

end MultiAiRouter.Common
