import Mathlib.Data.List.Infix
import MultiAiRouter.Common.Json.Stringify

/-!
# The parts of a value

A part of a value is reached by an address, the names and the places that lead to it. The text of a part is inside the
text of the whole.
-/

namespace MultiAiRouter.Common.Json

/-- One step into a value: to the member of a name, or to the item of a place. -/
inductive Step
  | key (name : Units)
  | index (place : ℕ)
  deriving DecidableEq

abbrev Address := List Step

/-- What a value has at an address. -/
def valueAt : Value → Address → Option Value
  | value, [] => some value
  | .object members, .key name :: rest => (Record.get members name).bind (valueAt · rest)
  | .array items, .index place :: rest => items[place]?.bind (valueAt · rest)
  | _, _ :: _ => none

section Text

variable {A : Type*} {parts : List (List A)} {part : List A} {text : ℚ → Units}

/-- A part is inside the parts with something between each two. -/
theorem infix_intercalate (between : List A) (h : part ∈ parts) : part <:+: List.intercalate between parts := by
  induction parts with
  | nil => simp at h
  | cons first rest ih =>
    cases rest with
    | nil =>
      rw [List.mem_singleton.mp h, List.intercalate_singleton]
    | cons second rest =>
      rw [List.intercalate_cons_cons]
      rcases List.mem_cons.mp h with rfl | hrest
      · rw [List.append_assoc]
        exact (List.prefix_append _ _).isInfix
      · exact (ih hrest).trans (List.suffix_append _ _).isInfix

/-- An item's text is inside the array's. -/
theorem infix_item {items : List Value} {item : Value} (h : item ∈ items) :
    stringify text item <:+: stringify text (.array items) := by
  rw [stringify, writeJson, writeItems_eq]
  have hinner := infix_intercalate [44] (List.mem_map_of_mem (f := writeJson (jsonNumber text)) h)
  exact hinner.trans ((List.suffix_cons _ _).isInfix.trans (List.prefix_append _ _).isInfix)

/-- A member's text is inside the object's. -/
theorem infix_member {members : List (Units × Value)} {name : Units} {value : Value} (h : (name, value) ∈ members) :
    stringify text value <:+: stringify text (.object members) := by
  rw [stringify, writeJson, writeMembers_eq]
  have hinner := infix_intercalate [44] (List.mem_map_of_mem
    (f := fun member => 34 :: quoteUnits member.1 ++ 34 :: 58 :: writeJson (jsonNumber text) member.2) h)
  have hvalue : writeJson (jsonNumber text) value <:+:
      34 :: quoteUnits name ++ 34 :: 58 :: writeJson (jsonNumber text) value :=
    ((List.suffix_cons _ _).trans (List.suffix_cons _ _)).isInfix.trans (List.suffix_append _ _).isInfix
  exact (hvalue.trans hinner).trans ((List.suffix_cons _ _).isInfix.trans (List.prefix_append _ _).isInfix)

end Text

section Plain

/-- A unit that is written as itself. -/
def isPlain (unit : UInt16) : Bool := quoteUnit unit = [unit] ∧ ¬ isSurrogate unit

variable {unit : UInt16} {word units : Units}

/-- A plain unit is written as it is. -/
theorem quoteUnits_cons_plain (h : isPlain unit = true) (rest : Units) :
    quoteUnits (unit :: rest) = unit :: quoteUnits rest := by
  obtain ⟨hself, hsingle⟩ := of_decide_eq_true h
  cases rest with
  | nil => exact hself
  | cons next rest =>
    rw [quoteUnits, if_neg, hself]
    · rfl
    · intro hpair
      apply hsingle
      rw [isSurrogate, decide_eq_true_eq]
      exact ⟨hpair.1, UInt16.le_trans hpair.2.1 (by decide)⟩

/-- A plain prefix stays one. -/
theorem prefix_quoteUnits (hplain : ∀ unit ∈ word, isPlain unit = true) (h : word <+: units) :
    word <+: quoteUnits units := by
  induction word generalizing units with
  | nil => exact List.nil_prefix
  | cons unit rest ih =>
    obtain ⟨after, rfl⟩ := h
    rw [List.cons_append, quoteUnits_cons_plain (hplain unit (List.mem_cons_self ..))]
    exact (List.prefix_cons_inj unit).mpr
      (ih (fun other hother => hplain other (.tail _ hother)) (List.prefix_append rest after))

/-- A word of plain units does not begin inside a pair. -/
theorem not_prefix_surrogate (hplain : ∀ unit ∈ word, isPlain unit = true) (hword : word ≠ []) {rest : Units}
    (hhalf : isSurrogate unit = true) : ¬ word <+: unit :: rest := by
  cases word with
  | nil => exact absurd rfl hword
  | cons first others =>
    intro h
    obtain ⟨rfl, -⟩ := List.cons_prefix_cons.mp h
    exact (of_decide_eq_true (hplain first (List.mem_cons_self ..))).2 hhalf

/-- A word of plain units stays in a string that is quoted. -/
theorem infix_quoteUnits (hplain : ∀ unit ∈ word, isPlain unit = true) (hword : word ≠ []) (h : word <:+: units) :
    word <:+: quoteUnits units := by
  induction units using quoteUnits.induct with
  | case1 => exact absurd (List.infix_nil.mp h) hword
  | case2 unit =>
    rcases List.infix_cons_iff.mp h with hhere | hnil
    · exact (prefix_quoteUnits hplain hhere).isInfix
    · exact absurd (List.infix_nil.mp hnil) hword
  | case3 unit next rest hpair ih =>
    have hunit : isSurrogate unit = true := decide_eq_true ⟨hpair.1, UInt16.le_trans hpair.2.1 (by decide)⟩
    have hnext : isSurrogate next = true := decide_eq_true ⟨UInt16.le_trans (by decide) hpair.2.2.1, hpair.2.2.2⟩
    rw [quoteUnits, if_pos hpair]
    rcases List.infix_cons_iff.mp h with hhere | hlater
    · exact absurd hhere (not_prefix_surrogate hplain hword hunit)
    · rcases List.infix_cons_iff.mp hlater with hhere | hrest
      · exact absurd hhere (not_prefix_surrogate hplain hword hnext)
      · exact (ih hrest).trans ((List.suffix_cons _ _).trans (List.suffix_cons _ _)).isInfix
  | case4 unit next rest hsingle ih =>
    rcases List.infix_cons_iff.mp h with hhere | hlater
    · exact (prefix_quoteUnits hplain hhere).isInfix
    · rw [quoteUnits, if_neg hsingle]
      exact (ih hlater).trans (List.suffix_append _ _).isInfix

end Plain

end MultiAiRouter.Common.Json
