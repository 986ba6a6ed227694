import MultiAiRouter.Common.Utf8Encode

/-!
# A string written as JSON

`JSON.stringify` of a string, between its quotes: quotes, backslashes and control characters are escaped, and
so is a surrogate without its pair.
-/

namespace MultiAiRouter.Common.Json

/-- The character of a short escape. -/
def shortEscape (unit : UInt16) : Option UInt16 :=
  if unit = 8 then some 98
  else if unit = 9 then some 116
  else if unit = 10 then some 110
  else if unit = 12 then some 102
  else if unit = 13 then some 114
  else if unit = 34 then some 34
  else if unit = 92 then some 92
  else none

/-- A hex digit, in lower case. -/
def hexUnit (value : ℕ) : UInt16 := if value < 10 then (48 + value).toUInt16 else (87 + value).toUInt16

/-- The escape that spells a unit in hex. -/
def unicodeEscape (unit : UInt16) : Units :=
  [92, 117, hexUnit (unit.toNat / 4096), hexUnit (unit.toNat / 256 % 16), hexUnit (unit.toNat / 16 % 16),
    hexUnit (unit.toNat % 16)]

def isSurrogate (unit : UInt16) : Bool := 0xD800 ≤ unit ∧ unit ≤ 0xDFFF

/-- A unit that is no half of a pair. -/
def quoteUnit (unit : UInt16) : Units :=
  match shortEscape unit with
  | some letter => [92, letter]
  | none => if unit < 32 || isSurrogate unit then unicodeEscape unit else [unit]

/-- A string between its quotes. -/
def quoteUnits : Units → Units
  | [] => []
  | [unit] => quoteUnit unit
  | unit :: next :: rest =>
    if 0xD800 ≤ unit ∧ unit ≤ 0xDBFF ∧ 0xDC00 ≤ next ∧ next ≤ 0xDFFF then unit :: next :: quoteUnits rest
    else quoteUnit unit ++ quoteUnits (next :: rest)

end MultiAiRouter.Common.Json
