import Mathlib.Algebra.Order.Ring.Int
import Mathlib.Data.List.Lex
import Mathlib.Data.List.Perm.Basic
import Mathlib.Data.List.Sort
import Mathlib.Data.Prod.Lex

/-!
# Orderings that only reorder

Stable sorting by a comparator, rotation by a signed counter, and moving the first match of a test to the head are
permutations. A comparator of keys of a linear order sorts by the key, and where the key tells the values apart the
result depends on which values there are alone.
-/

namespace MultiAiRouter.Common

variable {A : Type*}

/-- Stable sort by a signed comparator: `a` stands before `b` when `compare a b ≤ 0`. -/
def sortBy (compare : A → A → Int) (values : List A) : List A :=
  values.insertionSort fun a b => compare a b ≤ 0

/-- Sorting reorders. -/
theorem sortBy_perm (compare : A → A → Int) (values : List A) :
    (sortBy compare values).Perm values := List.perm_insertionSort _ _

/-- Rotate left by a counter of either sign. -/
def rotateBy (values : List A) (counter : Int) : List A :=
  let size : Int := values.length
  let offset := (((counter.tmod size) + size).tmod size).toNat
  values.drop offset ++ values.take offset

/-- Rotation reorders. -/
theorem rotateBy_perm (values : List A) (counter : Int) : (rotateBy values counter).Perm values := by
  unfold rotateBy
  exact List.perm_append_comm.trans (by rw [List.take_append_drop])

/-- Move the first element the test accepts to the head, keeping the others' order. -/
def moveToFront (test : A → Bool) (values : List A) : List A :=
  match values.find? test with
  | none => values
  | some found => found :: values.eraseP test

/-- Moving a match to the head reorders. -/
theorem moveToFront_perm (test : A → Bool) (values : List A) : (moveToFront test values).Perm values := by
  unfold moveToFront
  induction values with
  | nil => exact List.Perm.refl _
  | cons value rest ih =>
    by_cases hvalue : test value = true
    · simp [hvalue]
    · cases hfind : rest.find? test with
      | none => simp [hvalue, hfind]
      | some found =>
        simp only [hfind] at ih
        simp only [List.find?_cons, hvalue, hfind, List.eraseP_cons_of_neg hvalue]
        exact (List.Perm.swap value found _).trans (ih.cons value)

/-- When some element passes the test, the head of the moved list passes it. -/
theorem moveToFront_head (test : A → Bool) {values : List A} (h : ∃ value ∈ values, test value) :
    ∃ found rest, moveToFront test values = found :: rest ∧ test found := by
  unfold moveToFront
  cases hfind : values.find? test with
  | none =>
    obtain ⟨value, hmem, htest⟩ := h
    exact absurd htest (by simpa using List.find?_eq_none.mp hfind value hmem)
  | some found => exact ⟨found, values.eraseP test, rfl, List.find?_some hfind⟩

/-- The elements the test accepts, then the others, each keeping their order. -/
def acceptedFirst (test : A → Bool) (values : List A) : List A :=
  values.filter test ++ values.filter fun value => !test value

/-- Putting the accepted elements first reorders. -/
theorem acceptedFirst_perm (test : A → Bool) (values : List A) : (acceptedFirst test values).Perm values := by
  simpa [acceptedFirst] using List.filter_append_perm (fun value => test value = true) values

/-- The first occurrence of each key, in order of first occurrence. -/
def distinctBy {K : Type*} [DecidableEq K] (key : A → K) (seen : List K) : List A → List A
  | [] => []
  | value :: rest =>
    if key value ∈ seen then distinctBy key seen rest
    else value :: distinctBy key (key value :: seen) rest

variable {K : Type*} [DecidableEq K] (key : A → K)

/-- Only elements of the list are kept, and only under keys not seen before. -/
theorem mem_distinctBy {seen : List K} {values : List A} {value : A}
    (h : value ∈ distinctBy key seen values) : value ∈ values ∧ key value ∉ seen := by
  induction values generalizing seen with
  | nil => simp [distinctBy] at h
  | cons first rest ih =>
    unfold distinctBy at h
    split at h
    · exact ⟨List.mem_cons_of_mem _ (ih h).1, (ih h).2⟩
    · next hfirst =>
      rcases List.mem_cons.mp h with rfl | htail
      · exact ⟨List.mem_cons_self, hfirst⟩
      · exact ⟨List.mem_cons_of_mem _ (ih htail).1, fun hseen => (ih htail).2 (List.mem_cons_of_mem _ hseen)⟩

/-- No key occurs twice among the kept elements. -/
theorem distinctBy_nodup (seen : List K) (values : List A) : ((distinctBy key seen values).map key).Nodup := by
  induction values generalizing seen with
  | nil => exact List.nodup_nil
  | cons first rest ih =>
    unfold distinctBy
    split
    · exact ih seen
    · refine List.nodup_cons.mpr ⟨?_, ih _⟩
      intro hmem
      obtain ⟨value, hvalue, hkey⟩ := List.mem_map.mp hmem
      exact (mem_distinctBy key hvalue).2 (hkey ▸ List.mem_cons_self)

/-- Every key of the list is seen already or kept. -/
theorem exists_mem_distinctBy {seen : List K} {values : List A} {value : A} (h : value ∈ values)
    (hseen : key value ∉ seen) : ∃ kept ∈ distinctBy key seen values, key kept = key value := by
  induction values generalizing seen with
  | nil => cases h
  | cons first rest ih =>
    unfold distinctBy
    by_cases hfirst : key first ∈ seen
    · rw [if_pos hfirst]
      rcases List.mem_cons.mp h with rfl | htail
      · exact absurd hfirst hseen
      · exact ih htail hseen
    · rw [if_neg hfirst]
      by_cases hsame : key first = key value
      · exact ⟨first, List.mem_cons_self, hsame⟩
      · rcases List.mem_cons.mp h with rfl | htail
        · exact absurd rfl hsame
        · have hfresh : key value ∉ key first :: seen := by simp [hseen, Ne.symm hsame]
          obtain ⟨kept, hkept, hkey⟩ := ih htail hfresh
          exact ⟨kept, List.mem_cons_of_mem _ hkept, hkey⟩

variable {A Key : Type*} [LinearOrder Key]

/-- The comparator answers as the keys compare. -/
def ComparesBy (compare : A → A → Int) (key : A → Key) : Prop :=
  ∀ left right, compare left right ≤ 0 ↔ key left ≤ key right

/-- The key tells the values of a list apart. -/
def TellsApart (key : A → Key) (values : List A) : Prop :=
  ∀ left ∈ values, ∀ right ∈ values, key left = key right → left = right

variable {compare : A → A → Int} {key : A → Key} {values reordered : List A}

/-- A comparator that settles on a difference first and on another comparator after. -/
theorem ComparesBy.thenBy {first : A → Int} {delta : A → A → Int} (h : ComparesBy compare key)
    (hdelta : ∀ left right, delta left right = first left - first right) :
    ComparesBy (fun left right => if delta left right ≠ 0 then delta left right else compare left right)
      fun value => toLex (first value, key value) := by
  intro left right
  rw [Prod.Lex.toLex_le_toLex]
  by_cases hzero : delta left right = 0
  · have hsame : first left = first right := by rw [hdelta] at hzero; omega
    simp only [hzero, ne_eq, not_true_eq_false, if_false, hsame, lt_self_iff_false, true_and, false_or]
    exact h left right
  · have hne : first left ≠ first right := by rw [hdelta] at hzero; omega
    simp only [ne_eq, hzero, not_false_eq_true, if_true, hne, false_and, or_false]
    rw [hdelta] at hzero ⊢
    omega

/-- Sorting orders by the key. -/
theorem sortBy_pairwise (h : ComparesBy compare key) (values : List A) :
    (sortBy compare values).Pairwise fun left right => key left ≤ key right := by
  have htotal : Std.Total fun left right => compare left right ≤ 0 :=
    ⟨fun left right => by rw [h left right, h right left]; exact le_total _ _⟩
  have htrans : IsTrans A fun left right => compare left right ≤ 0 := ⟨fun first second third hfirst hsecond => by
      rw [h] at hfirst hsecond ⊢
      exact hfirst.trans hsecond⟩
  exact (List.pairwise_insertionSort (fun left right => compare left right ≤ 0) values).imp
    fun hle => (h _ _).mp hle

/-- Two sorted lists of the same values are equal. -/
theorem eq_of_sorted (hperm : values.Perm reordered) (hapart : TellsApart key values)
    (hvalues : values.Pairwise fun left right => key left ≤ key right)
    (hreordered : reordered.Pairwise fun left right => key left ≤ key right) : values = reordered :=
  List.Perm.eq_of_pairwise
    (fun left right hleft hright hle hge =>
      hapart left hleft right (hperm.mem_iff.mpr hright) (le_antisymm hle hge))
    hvalues hreordered hperm

/-- Sorting does not depend on how the values were listed. -/
theorem sortBy_eq_of_perm (h : ComparesBy compare key) (hapart : TellsApart key values)
    (hperm : values.Perm reordered) : sortBy compare values = sortBy compare reordered := by
  refine eq_of_sorted ?_ ?_ (sortBy_pairwise h values) (sortBy_pairwise h reordered)
  · exact (sortBy_perm compare values).trans (hperm.trans (sortBy_perm compare reordered).symm)
  · intro left hleft right hright
    exact hapart left ((sortBy_perm compare values).mem_iff.mp hleft) right
      ((sortBy_perm compare values).mem_iff.mp hright)

/-- Sorting some of the values is keeping them of the sorted ones. -/
theorem sortBy_filter (h : ComparesBy compare key) (hapart : TellsApart key values) (test : A → Bool) :
    sortBy compare (values.filter test) = (sortBy compare values).filter test := by
  refine eq_of_sorted ?_ ?_ (sortBy_pairwise h _) ((sortBy_pairwise h values).sublist List.filter_sublist)
  · exact (sortBy_perm compare _).trans ((sortBy_perm compare values).symm.filter test)
  · intro left hleft right hright
    exact hapart left (List.mem_filter.mp ((sortBy_perm compare _).mem_iff.mp hleft)).1 right
      (List.mem_filter.mp ((sortBy_perm compare _).mem_iff.mp hright)).1

/-- Two comparators that agree along a renaming sort along it. -/
theorem sortBy_map {B : Type*} {other : B → B → Int} (rename : A → B) (values : List A)
    (h : ∀ left ∈ values, ∀ right ∈ values, compare left right ≤ 0 ↔ other (rename left) (rename right) ≤ 0) :
    (sortBy compare values).map rename = sortBy other (values.map rename) :=
  List.map_insertionSort _ _ rename values h

omit [LinearOrder Key] in
/-- A key tells values apart whatever is put before it. -/
theorem TellsApart.thenBy {B : Type*} (h : TellsApart key values) (first : A → B) :
    TellsApart (fun value => toLex (first value, key value)) values :=
  fun _ hleft _ hright hkey => h _ hleft _ hright (Prod.mk.inj (toLex.injective hkey)).2

/-- A stable partition puts the accepted before the others and keeps the order within both. -/
theorem acceptedFirst_pairwise {before after : A → A → Prop} (test : A → Bool) (hvalues : values.Pairwise before)
    (hacross : ∀ left ∈ values, ∀ right ∈ values, test left = true → test right = false → after left right)
    (hwithin : ∀ left ∈ values, ∀ right ∈ values, test left = test right → before left right → after left right) :
    (acceptedFirst test values).Pairwise after := by
  have hpart (part : A → Bool) (hpart : ∀ left right, part left = true → part right = true → test left = test right) :
      (values.filter part).Pairwise after :=
    (hvalues.sublist List.filter_sublist).imp_of_mem fun hleft hright hbefore =>
      hwithin _ (List.mem_filter.mp hleft).1 _ (List.mem_filter.mp hright).1
        (hpart _ _ (List.mem_filter.mp hleft).2 (List.mem_filter.mp hright).2) hbefore
  refine List.pairwise_append.mpr ⟨hpart test fun left right hl hr => hl.trans hr.symm, ?_, ?_⟩
  · refine hpart _ fun left right hl hr => ?_
    rw [Bool.not_eq_true'] at hl hr
    rw [hl, hr]
  · intro left hleft right hright
    obtain ⟨hleftMem, hleftTest⟩ := List.mem_filter.mp hleft
    obtain ⟨hrightMem, hrightTest⟩ := List.mem_filter.mp hright
    exact hacross left hleftMem right hrightMem hleftTest (by simpa using hrightTest)

end MultiAiRouter.Common
