import Mathlib.Algebra.BigOperators.Group.List.Basic
import Mathlib.Data.List.Dedup
import Mathlib.Data.List.Induction
import Mathlib.Data.List.Nodup

/-!
# Totals kept by group

A table that takes keyed pieces one at a time holds one row for each key, in the order the keys were first seen. A
table into which items are merged group by group holds the totals of the items so far when every key of interest
that has items has an entry with their total, and no other key has one.
-/

namespace MultiAiRouter.Common

variable {Key Piece : Type*} [DecidableEq Key]

/-- Append to the row of the key. -/
def appendAt (key : Key) (more : List Piece) (table : List (Key × List Piece)) : List (Key × List Piece) :=
  table.map fun row => if row.1 = key then (row.1, row.2 ++ more) else row

/-- Append to the row of the key, or add one. -/
def joinAt (table : List (Key × List Piece)) (piece : Key × List Piece) : List (Key × List Piece) :=
  if piece.1 ∈ table.map Prod.fst then appendAt piece.1 piece.2 table else table ++ [piece]

/-- The keys, each where it is first seen. -/
def firstSeen (pieces : List (Key × List Piece)) : List Key := (pieces.map Prod.fst).eraseDups

/-- The pieces of the key, one after another. -/
def joined (pieces : List (Key × List Piece)) (key : Key) : List Piece :=
  (pieces.filter fun piece => piece.1 = key).flatMap Prod.snd

/-- Appending keeps the keys. -/
@[simp] theorem appendAt_keys (key : Key) (more : List Piece) (table : List (Key × List Piece)) :
    (appendAt key more table).map Prod.fst = table.map Prod.fst := by
  unfold appendAt
  rw [List.map_map]
  refine List.map_congr_left fun row _ => ?_
  dsimp only [Function.comp_apply]
  split <;> rfl

/-- Nothing is appended. -/
theorem appendAt_nil (key : Key) (table : List (Key × List Piece)) : appendAt key [] table = table := by
  refine (List.map_congr_left fun row _ => ?_).trans (List.map_id _)
  simp

/-- Appending in two tables. -/
@[simp] theorem appendAt_append (key : Key) (more : List Piece) (first second : List (Key × List Piece)) :
    appendAt key more (first ++ second) = appendAt key more first ++ appendAt key more second :=
  List.map_append

/-- Appending to the one row. -/
@[simp] theorem appendAt_single (key : Key) (held more : List Piece) :
    appendAt key more [(key, held)] = [(key, held ++ more)] := by
  simp [appendAt]

/-- Appending to the first row. -/
theorem appendAt_cons_self (key : Key) (held more : List Piece) (table : List (Key × List Piece)) :
    appendAt key more ((key, held) :: table) = (key, held ++ more) :: appendAt key more table := by
  simp [appendAt]

/-- Appending behind the first row. -/
theorem appendAt_cons_of_ne {key : Key} {row : Key × List Piece} (h : row.1 ≠ key) (more : List Piece)
    (table : List (Key × List Piece)) : appendAt key more (row :: table) = row :: appendAt key more table := by
  simp [appendAt, h]

/-- A table without the key is left alone. -/
theorem appendAt_of_notMem {key : Key} (more : List Piece) {table : List (Key × List Piece)}
    (h : key ∉ table.map Prod.fst) : appendAt key more table = table := by
  refine (List.map_congr_left fun row hrow => ?_).trans (List.map_id _)
  have hother : row.1 ≠ key := fun hkey => h (hkey ▸ List.mem_map_of_mem hrow)
  simp [hother]

/-- A key that is known. -/
theorem joinAt_of_mem {piece : Key × List Piece} {table : List (Key × List Piece)}
    (h : piece.1 ∈ table.map Prod.fst) : joinAt table piece = appendAt piece.1 piece.2 table := if_pos h

/-- A key that is new. -/
theorem joinAt_of_notMem {piece : Key × List Piece} {table : List (Key × List Piece)}
    (h : piece.1 ∉ table.map Prod.fst) : joinAt table piece = table ++ [piece] := if_neg h

/-- A piece that is not of the first row. -/
theorem joinAt_cons_of_ne {row piece : Key × List Piece} (h : row.1 ≠ piece.1) (table : List (Key × List Piece)) :
    joinAt (row :: table) piece = row :: joinAt table piece := by
  by_cases hmem : piece.1 ∈ table.map Prod.fst
  · rw [joinAt_of_mem hmem, joinAt_of_mem (List.mem_cons_of_mem _ hmem), appendAt_cons_of_ne h]
  · rw [joinAt_of_notMem hmem, joinAt_of_notMem (by simpa [Ne.symm h] using hmem), List.cons_append]

/-- The keys after a piece. -/
theorem mem_joinAt {table : List (Key × List Piece)} {piece : Key × List Piece} {key : Key} :
    key ∈ (joinAt table piece).map Prod.fst ↔ key ∈ table.map Prod.fst ∨ key = piece.1 := by
  by_cases h : piece.1 ∈ table.map Prod.fst
  · rw [joinAt_of_mem h, appendAt_keys]
    exact ⟨.inl, fun hkey => hkey.elim id fun hsame => hsame ▸ h⟩
  · rw [joinAt_of_notMem h, List.map_append, List.mem_append, List.map_singleton, List.mem_singleton]

/-- Keys stay apart. -/
theorem nodup_joinAt {table : List (Key × List Piece)} (h : (table.map Prod.fst).Nodup) (piece : Key × List Piece) :
    ((joinAt table piece).map Prod.fst).Nodup := by
  by_cases hmem : piece.1 ∈ table.map Prod.fst
  · rw [joinAt_of_mem hmem, appendAt_keys]
    exact h
  · rw [joinAt_of_notMem hmem, List.map_append, List.map_singleton]
    refine List.nodup_append.mpr ⟨h, List.nodup_singleton _, fun other hother last hlast hsame => hmem ?_⟩
    rw [← List.mem_singleton.mp hlast, ← hsame]
    exact hother

/-- A piece can be joined in two steps: the row first, then what it holds. -/
theorem joinAt_eq (table : List (Key × List Piece)) (key : Key) (more : List Piece) :
    joinAt table (key, more) = appendAt key more (joinAt table (key, [])) := by
  by_cases h : key ∈ table.map Prod.fst
  · rw [joinAt_of_mem h, joinAt_of_mem h, appendAt_nil]
  · rw [joinAt_of_notMem h, joinAt_of_notMem h, appendAt_append, appendAt_of_notMem more h]
    simp [appendAt]

/-- The keys that were seen. -/
theorem mem_firstSeen {pieces : List (Key × List Piece)} {key : Key} :
    key ∈ firstSeen pieces ↔ key ∈ pieces.map Prod.fst := List.mem_eraseDups

/-- The keys after one more piece. -/
theorem firstSeen_snoc (pieces : List (Key × List Piece)) (piece : Key × List Piece) :
    firstSeen (pieces ++ [piece]) =
      firstSeen pieces ++ if piece.1 ∈ pieces.map Prod.fst then [] else [piece.1] := by
  unfold firstSeen
  rw [List.map_append, List.eraseDups_append]
  congr 1
  split
  · next hmem => simp [List.removeAll, hmem]
  · next hmem => simp [List.removeAll, hmem, List.eraseDups_cons]

/-- The text of a key after one more piece. -/
theorem joined_snoc (pieces : List (Key × List Piece)) (piece : Key × List Piece) (key : Key) :
    joined (pieces ++ [piece]) key = joined pieces key ++ if piece.1 = key then piece.2 else [] := by
  unfold joined
  split <;> simp [*]

/-- A key without pieces has no text. -/
theorem joined_of_notMem {pieces : List (Key × List Piece)} {key : Key} (h : key ∉ pieces.map Prod.fst) :
    joined pieces key = [] := by
  unfold joined
  rw [List.filter_eq_nil_iff.mpr, List.flatMap_nil]
  intro piece hpiece hkey
  exact h (of_decide_eq_true hkey ▸ List.mem_map_of_mem hpiece)

/-- The table that took the pieces one at a time has a row for each key, in the order they were first
seen, with that key's pieces. -/
theorem foldl_joinAt (pieces : List (Key × List Piece)) :
    pieces.foldl joinAt [] = (firstSeen pieces).map fun key => (key, joined pieces key) := by
  induction pieces using List.reverseRecOn with
  | nil => rfl
  | append_singleton pieces piece ih =>
    rw [List.foldl_append, List.foldl_cons, List.foldl_nil, ih, firstSeen_snoc]
    have hkeys : ((firstSeen pieces).map fun key => (key, joined pieces key)).map Prod.fst = firstSeen pieces := by
      rw [List.map_map]
      exact List.map_id _
    by_cases hmem : piece.1 ∈ pieces.map Prod.fst
    · rw [joinAt_of_mem (by rw [hkeys]; exact mem_firstSeen.mpr hmem), if_pos hmem, List.append_nil, appendAt,
        List.map_map]
      refine List.map_congr_left fun key _ => ?_
      by_cases hkey : piece.1 = key
      · simp [joined_snoc, hkey]
      · simp [joined_snoc, hkey, Ne.symm hkey]
    · rw [joinAt_of_notMem (by rw [hkeys]; exact fun h => hmem (mem_firstSeen.mp h)), if_neg hmem, List.map_append]
      congr 1
      · refine List.map_congr_left fun key hkey => ?_
        have hother : piece.1 ≠ key := fun h => hmem (h ▸ mem_firstSeen.mp hkey)
        simp [joined_snoc, hother]
      · simp [joined_snoc, joined_of_notMem hmem]

section Table

variable {Key Entry : Type*} [DecidableEq Key] {merge : Entry → Entry → Entry} {table : List (Key × Entry)}

/-- Insert the entry under its key, or merge it into the entry there. -/
def upsert (merge : Entry → Entry → Entry) (table : List (Key × Entry)) (key : Key) (entry : Entry) :
    List (Key × Entry) :=
  if (table.lookup key).isSome then table.map fun row => if row.1 = key then (row.1, merge row.2 entry) else row
  else table ++ [(key, entry)]

/-- What is found where one row is merged into. -/
theorem lookup_map_merge (table : List (Key × Entry)) (key other : Key) (entry : Entry) :
    (table.map fun row => if row.1 = key then (row.1, merge row.2 entry) else row).lookup other =
      if other = key then (table.lookup key).map fun held => merge held entry else table.lookup other := by
  induction table with
  | nil => simp
  | cons row rest ih =>
    obtain ⟨held, value⟩ := row
    by_cases hheld : held = key
    · subst hheld
      by_cases hother : other = held
      · subst hother
        simp
      · have hbeq : (other == held) = false := by simpa using hother
        simp only [List.map_cons, if_true, List.lookup_cons, hbeq, ih, if_neg hother]
    · by_cases hother : other = held
      · subst hother
        simp [hheld]
      · have hbeq : (other == held) = false := by simpa using hother
        simp only [List.map_cons, if_neg hheld, List.lookup_cons, hbeq, ih]
        by_cases hsame : other = key
        · subst hsame
          simp [hbeq]
        · simp [hsame]

/-- Only the entry under the key changes. -/
theorem lookup_upsert (table : List (Key × Entry)) (key other : Key) (entry : Entry) :
    (upsert merge table key entry).lookup other =
      if other = key then some ((table.lookup key).elim entry fun held => merge held entry) else
        table.lookup other := by
  unfold upsert
  split
  · next hsome =>
    obtain ⟨held, hheld⟩ := Option.isSome_iff_exists.mp hsome
    rw [lookup_map_merge, hheld]
    rfl
  · next hnone =>
    have hheld : table.lookup key = none := Option.not_isSome_iff_eq_none.mp hnone
    rw [List.lookup_append, hheld]
    by_cases hother : other = key
    · subst hother
      simp [hheld]
    · have hbeq : (other == key) = false := by simpa using hother
      rw [if_neg hother, List.lookup_cons, hbeq, List.lookup_nil, Option.or_none]

/-- Every key keeps one entry. -/
theorem upsert_nodup (h : (table.map Prod.fst).Nodup) (key : Key) (entry : Entry) :
    ((upsert merge table key entry).map Prod.fst).Nodup := by
  unfold upsert
  split
  · have hkeys : (table.map fun row => if row.1 = key then (row.1, merge row.2 entry) else row).map Prod.fst =
        table.map Prod.fst := by
      rw [List.map_map]
      refine List.map_congr_left fun row _ => ?_
      simp only [Function.comp_apply]
      split <;> rfl
    rw [hkeys]
    exact h
  · next hnone =>
    have hfresh : key ∉ table.map Prod.fst := by
      intro hin
      obtain ⟨row, hrow, rfl⟩ := List.mem_map.mp hin
      have hnothing := List.lookup_eq_none_iff.mp (Option.not_isSome_iff_eq_none.mp hnone) row hrow
      simp at hnothing
    rw [List.map_append, List.map_singleton]
    refine List.nodup_append.mpr ⟨h, List.nodup_singleton _, fun first hfirst second hsecond heq => hfresh ?_⟩
    have hkey : first = key := heq.trans (List.mem_singleton.mp hsecond)
    exact hkey ▸ hfirst

/-- Deleting by key leaves the entries of the other keys. -/
theorem lookup_filter_key (keep : Key → Bool) (table : List (Key × Entry)) (key : Key) :
    (table.filter fun row => keep row.1).lookup key = if keep key then table.lookup key else none := by
  induction table with
  | nil => simp
  | cons row rest ih =>
    obtain ⟨held, entry⟩ := row
    by_cases hkey : key = held
    · subst hkey
      cases hkeep : keep key with
      | true => simp [hkeep]
      | false =>
        rw [List.filter_cons_of_neg (by simp [hkeep]), ih, hkeep]
        simp
    · have hbeq : (key == held) = false := by simpa using hkey
      cases hkeep : keep held with
      | true =>
        rw [List.filter_cons_of_pos (by simpa using hkeep), List.lookup_cons, hbeq, ih, List.lookup_cons, hbeq]
      | false =>
        rw [List.filter_cons_of_neg (by simp [hkeep]), ih, List.lookup_cons, hbeq]

/-- An entry is in the table exactly when its key leads to it. -/
theorem mem_iff_lookup (h : (table.map Prod.fst).Nodup) (row : Key × Entry) :
    row ∈ table ↔ table.lookup row.1 = some row.2 := by
  induction table with
  | nil => simp
  | cons first rest ih =>
    rw [List.map_cons, List.nodup_cons] at h
    obtain ⟨hfirst, hrest⟩ := h
    rw [List.mem_cons, ih hrest, List.lookup_cons]
    by_cases hkey : row.1 = first.1
    · have hnone : rest.lookup row.1 = none := by
        rw [List.lookup_eq_none_iff]
        intro other hother
        have hne : first.1 ≠ other.1 := fun heq => hfirst (heq ▸ List.mem_map_of_mem hother)
        simpa [hkey] using hne
      rw [hnone, hkey]
      simp only [beq_self_eq_true, Option.some.injEq, reduceCtorEq, or_false]
      constructor
      · rintro rfl
        rfl
      · intro hentry
        exact Prod.ext hkey hentry.symm
    · have hbeq : (row.1 == first.1) = false := by simpa using hkey
      rw [hbeq]
      constructor
      · rintro (rfl | hlookup)
        · exact absurd rfl hkey
        · exact hlookup
      · exact .inr

end Table

section Groups

variable {Key Entry Item Value : Type*} [DecidableEq Key]

/-- The items of a key. -/
def group (keyOf : Item → Key) (items : List Item) (key : Key) : List Item :=
  items.filter fun item => keyOf item = key

/-- Add items to the table, group by group. -/
def groupUpsert (merge : Entry → Entry → Entry) (sum : List Item → Entry) (keyOf : Item → Key)
    (table : List (Key × Entry)) (items : List Item) : List (Key × Entry) :=
  (items.map keyOf).dedup.foldl (fun table key => upsert merge table key (sum (group keyOf items key))) table

variable {merge : Entry → Entry → Entry} {sum : List Item → Entry} {keyOf : Item → Key}
  {table : List (Key × Entry)} {items : List Item}

/-- What is found after several keys were upserted. -/
theorem lookup_foldl_upsert (entry : Key → Entry) (keys : List Key) (hkeys : keys.Nodup) (table : List (Key × Entry))
    (other : Key) :
    (keys.foldl (fun table key => upsert merge table key (entry key)) table).lookup other =
      if other ∈ keys then some ((table.lookup other).elim (entry other) fun held => merge held (entry other))
      else table.lookup other := by
  induction keys generalizing table with
  | nil => simp
  | cons key rest ih =>
    rw [List.nodup_cons] at hkeys
    rw [List.foldl_cons, ih hkeys.2, lookup_upsert]
    by_cases hother : other = key
    · subst hother
      rw [if_neg hkeys.1, if_pos rfl, if_pos (List.mem_cons_self ..)]
    · rw [if_neg hother]
      simp only [List.mem_cons, hother, false_or]

/-- A key has a group exactly when an item has the key. -/
theorem group_eq_nil (key : Key) : group keyOf items key = [] ↔ key ∉ items.map keyOf := by
  simp [group, List.filter_eq_nil_iff]

/-- Only the entries of the groups change. -/
theorem lookup_groupUpsert (table : List (Key × Entry)) (items : List Item) (key : Key) :
    (groupUpsert merge sum keyOf table items).lookup key =
      if group keyOf items key = [] then table.lookup key
      else some ((table.lookup key).elim (sum (group keyOf items key)) fun held =>
        merge held (sum (group keyOf items key))) := by
  unfold groupUpsert
  rw [lookup_foldl_upsert _ _ (List.nodup_dedup _)]
  by_cases hgroup : group keyOf items key = []
  · rw [if_pos hgroup, if_neg (by simpa using (group_eq_nil key).mp hgroup)]
  · rw [if_neg hgroup, if_pos (by simpa using not_not.mp fun hnot => hgroup ((group_eq_nil key).mpr hnot))]

/-- Keys stay apart. -/
theorem groupUpsert_nodup (h : (table.map Prod.fst).Nodup) (items : List Item) :
    ((groupUpsert merge sum keyOf table items).map Prod.fst).Nodup := by
  unfold groupUpsert
  generalize (items.map keyOf).dedup = keys
  induction keys generalizing table with
  | nil => exact h
  | cons key rest ih => exact ih (upsert_nodup h key _)

variable [AddCommMonoid Value] {weight : Item → Value} {value : Entry → Value} {within : Key → Prop}

/-- The table holds the totals of the items: within the keys of interest, a key has an entry exactly when it has
items, and its value is their total. -/
def HoldsTotals (keyOf : Item → Key) (weight : Item → Value) (value : Entry → Value) (within : Key → Prop)
    (table : List (Key × Entry)) (items : List Item) : Prop :=
  ∀ key, within key → (table.lookup key).map value =
    if group keyOf items key = [] then none else some ((group keyOf items key).map weight).sum

/-- The order of the items does not matter. -/
theorem HoldsTotals.perm {others : List Item} (h : HoldsTotals keyOf weight value within table items)
    (hperm : items.Perm others) : HoldsTotals keyOf weight value within table others := by
  intro key hkey
  have hgroup : (group keyOf items key).Perm (group keyOf others key) := hperm.filter _
  have hnil : group keyOf items key = [] ↔ group keyOf others key = [] :=
    ⟨fun heq => (heq ▸ hgroup).nil_eq.symm, fun heq => (heq ▸ hgroup).eq_nil⟩
  rw [h key hkey, (hgroup.map weight).sum_eq]
  simp only [hnil]

/-- Adding items to the table adds them to the totals. -/
theorem HoldsTotals.groupUpsert (hmerge : ∀ held more, value (merge held more) = value held + value more)
    (hsum : ∀ items, value (sum items) = (items.map weight).sum)
    (h : HoldsTotals keyOf weight value within table items) (more : List Item) :
    HoldsTotals keyOf weight value within (groupUpsert merge sum keyOf table more) (items ++ more) := by
  intro key hkey
  have hheld := h key hkey
  have happend : group keyOf (items ++ more) key = group keyOf items key ++ group keyOf more key :=
    List.filter_append ..
  rw [lookup_groupUpsert, happend]
  by_cases hmore : group keyOf more key = []
  · rw [if_pos hmore, hheld, hmore, List.append_nil]
  · rw [if_neg hmore, if_neg (by simp [hmore]), Option.map_some, List.map_append, List.sum_append]
    congr 1
    cases hlookup : table.lookup key with
    | none =>
      rw [hlookup] at hheld
      have hnone : group keyOf items key = [] := by
        by_contra hsome
        simp [hsome] at hheld
      simp [hnone, hsum]
    | some held =>
      rw [hlookup] at hheld
      have hsome : group keyOf items key ≠ [] := by
        intro hnone
        simp [hnone] at hheld
      rw [if_neg hsome, Option.map_some, Option.some.injEq] at hheld
      simp [hmerge, hsum, hheld]

/-- Forgetting entries and items outside the keys of interest, and taking interest in fewer keys. -/
theorem HoldsTotals.forget {inside : Key → Prop} {rows : List (Key × Entry)} {others : List Item}
    (h : HoldsTotals keyOf weight value within table items) (hinside : ∀ key, inside key → within key)
    (hrows : ∀ key, inside key → rows.lookup key = table.lookup key)
    (hitems : ∀ key, inside key → group keyOf others key = group keyOf items key) :
    HoldsTotals keyOf weight value inside rows others := by
  intro key hkey
  rw [hrows key hkey, hitems key hkey]
  exact h key (hinside key hkey)

omit [DecidableEq Key] in
/-- Of distinct keys at most one is the given one. -/
theorem sum_at_key {keys : List Key} (hkeys : keys.Nodup) (isKey : Key → Bool) (hone : ∀ key ∈ keys, ∀ other ∈ keys,
    isKey key = true → isKey other = true → key = other) (amount : Value) :
    (keys.map fun key => if isKey key then amount else 0).sum = if keys.any isKey then amount else 0 := by
  induction keys with
  | nil => rfl
  | cons key rest ih =>
    rw [List.nodup_cons] at hkeys
    have hrest := ih hkeys.2 fun first hfirst second hsecond => hone first (.tail _ hfirst) second (.tail _ hsecond)
    rw [List.map_cons, List.sum_cons, hrest, List.any_cons]
    cases hkey : isKey key with
    | false => simp
    | true =>
      have hnone : rest.any isKey = false := by
        rw [List.any_eq_false]
        intro other hother hsame
        have heq := hone key (List.mem_cons_self ..) other (.tail _ hother) hkey hsame
        exact hkeys.1 (heq ▸ hother)
      simp [hnone]

/-- The groups of the kept keys add up to the kept items, where every kept item has its key in the table. -/
theorem sum_groups (hunique : (table.map Prod.fst).Nodup) (keep : Key → Bool)
    (hpresent : ∀ item ∈ items, keep (keyOf item) = true → keyOf item ∈ table.map Prod.fst) :
    ((table.filter fun row => keep row.1).map fun row => ((group keyOf items row.1).map weight).sum).sum =
      ((items.filter fun item => keep (keyOf item)).map weight).sum := by
  induction items with
  | nil => simp [group]
  | cons item rest ih =>
    have hrest := ih fun other hother => hpresent other (.tail _ hother)
    have hgroup (key : Key) : ((group keyOf (item :: rest) key).map weight).sum =
        (if decide (keyOf item = key) then weight item else 0) + ((group keyOf rest key).map weight).sum := by
      rw [group, List.filter_cons]
      split
      · rw [List.map_cons, List.sum_cons, group]
      · rw [zero_add, group]
    have hkeys : ((table.filter fun row => keep row.1).map Prod.fst).Nodup :=
      hunique.sublist (List.filter_sublist.map Prod.fst)
    have hsingle := sum_at_key hkeys (fun key => decide (keyOf item = key))
      (fun first _ second _ hfirst hsecond => (of_decide_eq_true hfirst).symm.trans (of_decide_eq_true hsecond))
      (weight item)
    rw [List.map_map] at hsingle
    simp only [hgroup, List.sum_map_add, hrest]
    rw [show ((table.filter fun row => keep row.1).map fun row =>
        if decide (keyOf item = row.1) then weight item else 0).sum = _ from hsingle, List.filter_cons]
    have hfound : ((table.filter fun row => keep row.1).map Prod.fst).any (fun key => decide (keyOf item = key)) =
        keep (keyOf item) := by
      cases hkeep : keep (keyOf item) with
      | true =>
        obtain ⟨row, hrow, hkey⟩ := List.mem_map.mp (hpresent item (List.mem_cons_self ..) hkeep)
        have hkept : row ∈ table.filter fun row => keep row.1 := List.mem_filter.mpr ⟨hrow, by rw [hkey]; exact hkeep⟩
        exact List.any_eq_true.mpr ⟨row.1, List.mem_map_of_mem hkept, decide_eq_true hkey.symm⟩
      | false =>
        rw [List.any_eq_false]
        intro key hkey hsame
        obtain ⟨row, hrow, rfl⟩ := List.mem_map.mp hkey
        have hkept := (List.mem_filter.mp hrow).2
        rw [← of_decide_eq_true hsame, hkeep] at hkept
        cases hkept
    rw [hfound]
    cases keep (keyOf item) with
    | true => simp
    | false => simp

end Groups

end MultiAiRouter.Common
