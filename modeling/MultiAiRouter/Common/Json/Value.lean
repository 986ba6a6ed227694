import Mathlib.Data.Rat.Defs
import MultiAiRouter.Common.Utf8

/-!
# Values of parsed JSON

What `JSON.parse` builds: a number is a finite value or, where its literal is too large for one,
infinite; an object holds its own members in the order its keys are listed, one of a name.
-/

namespace MultiAiRouter.Common

/-- A number. A literal that is too large reads as infinite. -/
inductive Number where
  | finite (value : Rat)
  | infinite (negative : Bool)
  deriving DecidableEq

/-- A parsed value. -/
inductive Value where
  | null
  | bool (value : Bool)
  | number (value : Number)
  | string (units : Units)
  | array (items : List Value)
  | object (members : List (Units × Value))

/-- A number in decimal digits, as a template writes it. -/
def decimal (value : Nat) : Units := asciiUnits (toString value)

/-- An entry that is looked up is in the list. -/
theorem mem_of_lookup {Key Entry : Type*} [BEq Key] [LawfulBEq Key] {entries : List (Key × Entry)} {key : Key}
    {entry : Entry} (h : entries.lookup key = some entry) : (key, entry) ∈ entries := by
  obtain ⟨before, after, rfl, -⟩ := List.lookup_eq_some_iff.mp h
  simp

/-- The members of an object. -/
abbrev Record := List (Units × Value)

namespace Record

variable {record : Record} {key other : Units} {value : Value}

/-- The member of this name. -/
def get (record : Record) (key : Units) : Option Value := record.lookup key

/-- The record with the member set: a known name keeps its place, a new one goes last. -/
def set (record : Record) (key : Units) (value : Value) : Record :=
  if record.any fun member => member.1 == key then
    record.map fun member => if member.1 = key then (key, value) else member
  else record ++ [(key, value)]

/-- The record without the member. -/
def delete (record : Record) (key : Units) : Record := record.filter fun member => member.1 != key

/-- Replacing the member of a name leaves the others. -/
theorem lookup_replace_of_ne (hother : other ≠ key) (value : Value) (record : Record) :
    (record.map fun member => if member.1 = key then (key, value) else member).lookup other = record.lookup other := by
  have hskip : (other == key) = false := beq_eq_false_iff_ne.mpr hother
  induction record with
  | nil => rfl
  | cons member rest ih =>
    rw [List.map_cons, List.lookup_cons, List.lookup_cons, ih]
    by_cases hmember : member.1 = key
    · rw [if_pos hmember, hmember, hskip]
    · rw [if_neg hmember]

/-- Setting a member leaves the others. -/
theorem get_set_of_ne (hother : other ≠ key) (value : Value) : (record.set key value).get other = record.get other := by
  have hskip : (other == key) = false := beq_eq_false_iff_ne.mpr hother
  unfold set get
  split
  · exact lookup_replace_of_ne hother value record
  · simp [List.lookup_append, List.lookup_cons, hskip]

/-- A member that is set is there. -/
theorem get_set_self (key : Units) (value : Value) (record : Record) : (record.set key value).get key = some value := by
  unfold set get
  split
  · next hany =>
    induction record with
    | nil => simp at hany
    | cons member rest ih =>
      rw [List.map_cons, List.lookup_cons]
      by_cases hmember : member.1 = key
      · simp [hmember]
      · have hskip : (key == member.1) = false := beq_eq_false_iff_ne.mpr (Ne.symm hmember)
        rw [if_neg hmember, hskip]
        exact ih (by simpa [hmember] using hany)
  · next hnone =>
    have hmissing : record.lookup key = none := by
      rw [List.lookup_eq_none_iff]
      intro member hmember
      have hne : member.1 ≠ key := fun hsame => hnone (List.any_eq_true.mpr ⟨member, hmember, by simp [hsame]⟩)
      simpa using hne.symm
    simp [List.lookup_append, hmissing]

/-- Leaving a member out leaves the others. -/
theorem get_delete_of_ne (h : other ≠ key) : (record.delete key).get other = record.get other := by
  unfold delete get
  induction record with
  | nil => rfl
  | cons member rest ih =>
    by_cases hmember : member.1 = key
    · rw [List.filter_cons_of_neg (by simpa using hmember), ih, List.lookup_cons, beq_false_of_ne (hmember ▸ h)]
    · rw [List.filter_cons_of_pos (by simpa using hmember), List.lookup_cons, List.lookup_cons, ih]

end Record

/-- The members of an object, and nothing for any other value. -/
def Value.asRecord : Value → Option Record
  | .object members => some members
  | _ => none

/-- The text of a string, and nothing for any other value. -/
def Value.asString : Value → Option Units
  | .string units => some units
  | _ => none

end MultiAiRouter.Common
