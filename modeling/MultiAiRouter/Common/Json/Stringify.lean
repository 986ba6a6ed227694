import MultiAiRouter.Common.Json.Quote
import MultiAiRouter.Common.Json.Value
import MultiAiRouter.Common.Worklist

/-!
# A value written as JSON

`JSON.stringify` of a parsed value, and the number of code points of a text, as an iterator over a string yields them.
A text that begins with an ASCII unit does not run together with the text before it, so the lengths of the pieces add
up.
-/

namespace MultiAiRouter.Common.Json

/-- The halves of one code point. -/
def isPair (unit next : UInt16) : Bool := 0xD800 ≤ unit ∧ unit ≤ 0xDBFF ∧ 0xDC00 ≤ next ∧ next ≤ 0xDFFF

/-- How many code points a string has; half a pair by itself is one. -/
def codePoints : Units → ℕ
  | [] => 0
  | [_] => 1
  | unit :: next :: rest => if isPair unit next then codePoints rest + 1 else codePoints (next :: rest) + 1

section Write

variable (number : Number → Units)

mutual

/-- A value as JSON, its numbers as the function writes them. -/
def writeJson : Value → Units
  | .null => asciiUnits "null"
  | .bool value => asciiUnits (if value then "true" else "false")
  | .number value => number value
  | .string units => 34 :: quoteUnits units ++ [34]
  | .array items => 91 :: List.intercalate [44] (writeItems items) ++ [93]
  | .object members => 123 :: List.intercalate [44] (writeMembers members) ++ [125]

def writeItems : List Value → List Units
  | [] => []
  | item :: rest => writeJson item :: writeItems rest

def writeMembers : List (Units × Value) → List Units
  | [] => []
  | (key, value) :: rest => (34 :: quoteUnits key ++ 34 :: 58 :: writeJson value) :: writeMembers rest

end

theorem writeItems_eq (items : List Value) : writeItems number items = items.map (writeJson number) := by
  induction items with
  | nil => rfl
  | cons item rest ih => rw [writeItems, ih, List.map_cons]

/-- Members are written one by one. -/
theorem writeMembers_eq (members : List (Units × Value)) : writeMembers number members =
      members.map fun member => 34 :: quoteUnits member.1 ++ 34 :: 58 :: writeJson number member.2 := by
  induction members with
  | nil => rfl
  | cons member rest ih => rw [writeMembers, ih, List.map_cons]

end Write

/-- The values an array or an object holds. -/
def children : Value → List Value
  | .array items => items
  | .object members => members.map Prod.snd
  | _ => []

/-- A child is smaller than its value. -/
theorem children_shrinks : Shrinks children := by
  refine ⟨sizeOf, fun value => ?_⟩
  cases value with
  | array items =>
    have hitems : (items.map sizeOf).sum < sizeOf items := by
      induction items with
      | nil => simp
      | cons item rest ih =>
        rw [List.map_cons, List.sum_cons, List.cons.sizeOf_spec]
        omega
    rw [children, Value.array.sizeOf_spec]
    omega
  | object members =>
    have hmembers : ((members.map Prod.snd).map sizeOf).sum < sizeOf members := by
      induction members with
      | nil => simp
      | cons member rest ih =>
        have hmember : sizeOf member = 1 + sizeOf member.1 + sizeOf member.2 := Prod.mk.sizeOf_spec ..
        rw [List.map_cons, List.map_cons, List.sum_cons, List.cons.sizeOf_spec]
        omega
    rw [children, Value.object.sizeOf_spec]
    omega
  | null => simp [children]
  | bool value => simp [children]
  | number value => simp [children]
  | string units => simp [children]

/-- `String` of a number, with the text of a finite one given. -/
def numberString (text : ℚ → Units) : Number → Units
  | .finite value => text value
  | .infinite negative => asciiUnits (if negative then "-Infinity" else "Infinity")

/-- `JSON.stringify` of a number: an infinite one is no JSON. -/
def jsonNumber (text : ℚ → Units) : Number → Units
  | .finite value => text value
  | .infinite _ => asciiUnits "null"

/-- `JSON.stringify`. -/
def stringify (text : ℚ → Units) : Value → Units := writeJson (jsonNumber text)

mutual

/-- Every number of the value is finite. -/
def IsFinite : Value → Prop
  | .number (.infinite _) => False
  | .array items => ItemsFinite items
  | .object members => MembersFinite members
  | _ => True

def ItemsFinite : List Value → Prop
  | [] => True
  | item :: rest => IsFinite item ∧ ItemsFinite rest

def MembersFinite : List (Units × Value) → Prop
  | [] => True
  | (_, value) :: rest => IsFinite value ∧ MembersFinite rest

end

mutual

/-- A value whose numbers are finite is written alike by `String` and by `JSON.stringify` of its numbers. -/
theorem writeJson_numberString (text : ℚ → Units) :
    ∀ value, IsFinite value → writeJson (numberString text) value = stringify text value
  | .null, _ => rfl
  | .bool _, _ => rfl
  | .number (.finite _), _ => rfl
  | .string _, _ => rfl
  | .array items, h => by
    rw [stringify, writeJson, writeJson, writeItems_numberString text items h]
  | .object members, h => by
    rw [stringify, writeJson, writeJson, writeMembers_numberString text members h]

/-- Finite items are written with their numbers' texts. -/
theorem writeItems_numberString (text : ℚ → Units) :
    ∀ items, ItemsFinite items → writeItems (numberString text) items = writeItems (jsonNumber text) items
  | [], _ => rfl
  | item :: rest, h => by
    have hitem := writeJson_numberString text item h.1
    rw [writeItems, writeItems, hitem, writeItems_numberString text rest h.2, stringify]

/-- So are finite members. -/
theorem writeMembers_numberString (text : ℚ → Units) :
    ∀ members, MembersFinite members → writeMembers (numberString text) members = writeMembers (jsonNumber text) members
  | [], _ => rfl
  | (key, value) :: rest, h => by
    have hvalue := writeJson_numberString text value h.1
    rw [writeMembers, writeMembers, hvalue, writeMembers_numberString text rest h.2, stringify]

end

section Counts

/-- The text has so many code points, whatever follows it. -/
def Counts (text : Units) (count : ℕ) : Prop := ∀ rest, codePoints (text ++ rest) = count + codePoints rest

variable {text more : Units} {count added : ℕ}

/-- A counted text has its count of code points. -/
theorem Counts.eq (h : Counts text count) : codePoints text = count := by
  have hwhole := h []
  rwa [List.append_nil] at hwhole

theorem Counts.nil : Counts [] 0 := fun _ => (Nat.zero_add _).symm

theorem Counts.append (h : Counts text count) (hmore : Counts more added) : Counts (text ++ more) (count + added) := by
  intro rest
  rw [List.append_assoc, h, hmore, Nat.add_assoc]

/-- A unit that does not begin a pair is a code point. -/
theorem Counts.unit {unit : UInt16} (h : ¬ (0xD800 ≤ unit ∧ unit ≤ 0xDBFF)) : Counts [unit] 1 := by
  intro rest
  cases rest with
  | nil => rfl
  | cons next rest =>
    have hpair : isPair unit next = false := decide_eq_false fun hpair => h ⟨hpair.1, hpair.2.1⟩
    rw [List.singleton_append, codePoints, hpair, if_neg Bool.false_ne_true, Nat.add_comm]

/-- A pair of surrogates counts once. -/
theorem Counts.pair {unit next : UInt16} (h : isPair unit next = true) : Counts [unit, next] 1 := by
  intro rest
  rw [List.cons_append, List.singleton_append, codePoints, if_pos h, Nat.add_comm]

/-- An ASCII text has as many code points as units. -/
theorem Counts.ascii (text : Units) (h : ∀ unit ∈ text, unit < 128) : Counts text text.length := by
  induction text with
  | nil => exact .nil
  | cons unit rest ih =>
    have hunit : Counts [unit] 1 := by
      have hsmall := h unit (List.mem_cons_self ..)
      exact .unit fun hhalf => absurd (UInt16.lt_of_le_of_lt hhalf.1 hsmall) (by decide)
    have hrest := hunit.append (ih fun other hother => h other (.tail _ hother))
    rwa [Nat.add_comm] at hrest

/-- A word of ASCII is as long as it is. -/
theorem Counts.word (text : Units) (h : (text.all fun unit => decide (unit < 128)) = true) : Counts text text.length :=
  Counts.ascii text fun unit hunit => of_decide_eq_true (List.all_eq_true.mp h unit hunit)

/-- Texts with a comma between each two, and brackets around them. -/
theorem Counts.bracket {A : Type*} {values : List A} {text : A → Units} {count : A → ℕ} {first last : UInt16}
    (h : ∀ value ∈ values, Counts (text value) (count value)) (hfirst : first < 128) (hlast : last < 128) :
    Counts (first :: List.intercalate [44] (values.map text) ++ [last])
      (2 + (values.length - 1) + (values.map count).sum) := by
  have hinner : Counts (List.intercalate [44] (values.map text)) ((values.map count).sum + (values.length - 1)) := by
    induction values with
    | nil => exact .nil
    | cons value rest ih =>
      have hvalue := h value (List.mem_cons_self ..)
      have hrest := ih fun other hother => h other (.tail _ hother)
      cases rest with
      | nil => simpa using hvalue
      | cons second rest =>
        have hcomma : Counts [44] 1 := .unit (by decide)
        have hwhole := hvalue.append (hcomma.append hrest)
        have hcount : ((value :: second :: rest).map count).sum + ((value :: second :: rest).length - 1) =
            count value + (1 + (((second :: rest).map count).sum + ((second :: rest).length - 1))) := by
          simp only [List.map_cons, List.sum_cons, List.length_cons]
          omega
        rwa [hcount, List.map_cons, List.map_cons, List.intercalate_cons_cons, List.append_assoc]
  have hopen := Counts.ascii [first] (by simpa using hfirst)
  have hclose := Counts.ascii [last] (by simpa using hlast)
  have hcount : 2 + (values.length - 1) + (values.map count).sum =
      1 + ((values.map count).sum + (values.length - 1)) + 1 := by omega
  rw [hcount]
  exact (hopen.append hinner).append hclose

end Counts

end MultiAiRouter.Common.Json
