import Mathlib.Data.List.Induction

/-!
# Streaming UTF-8

The UTF-8 decoder of the Encoding Standard, one byte at a time. Each byte yields the scalar values it completes;
`none` stands for a malformed sequence, which a lossy decoder replaces and a fatal one refuses. A byte that breaks a
sequence off is read again as a first byte.
-/

namespace MultiAiRouter.Common

/-- The decoder between two bytes: how many continuation bytes are owed, the range the next one must
lie in, and the value read so far. -/
structure Utf8State where
  needed : Nat := 0
  lower : Nat := 0x80
  upper : Nat := 0xBF
  codePoint : Nat := 0
  deriving DecidableEq

/-- The first byte of a sequence. -/
def utf8Lead (byte : Nat) : Utf8State × List (Option Nat) :=
  if byte ≤ 0x7F then ({}, [some byte])
  else if 0xC2 ≤ byte ∧ byte ≤ 0xDF then ({ needed := 1, codePoint := byte - 0xC0 }, [])
  else if 0xE0 ≤ byte ∧ byte ≤ 0xEF then
    ({ needed := 2
       lower := if byte = 0xE0 then 0xA0 else 0x80
       upper := if byte = 0xED then 0x9F else 0xBF
       codePoint := byte - 0xE0 }, [])
  else if 0xF0 ≤ byte ∧ byte ≤ 0xF4 then
    ({ needed := 3
       lower := if byte = 0xF0 then 0x90 else 0x80
       upper := if byte = 0xF4 then 0x8F else 0xBF
       codePoint := byte - 0xF0 }, [])
  else ({}, [none])

/-- One byte: the state after it and the values it completes. -/
def utf8Byte (state : Utf8State) (byte : UInt8) : Utf8State × List (Option Nat) :=
  if state.needed = 0 then utf8Lead byte.toNat
  else if state.lower ≤ byte.toNat ∧ byte.toNat ≤ state.upper then
    let codePoint := state.codePoint * 64 + (byte.toNat - 0x80)
    if state.needed = 1 then ({}, [some codePoint])
    else ({ needed := state.needed - 1, codePoint }, [])
  else ((utf8Lead byte.toNat).1, none :: (utf8Lead byte.toNat).2)

/-- A run of bytes: the state after it and the values it completes. -/
def utf8Run (state : Utf8State) : List UInt8 → Utf8State × List (Option Nat)
  | [] => (state, [])
  | byte :: rest =>
    let (next, values) := utf8Byte state byte
    let (last, more) := utf8Run next rest
    (last, values ++ more)

/-- What the end of the stream yields: a sequence broken off is malformed. -/
def utf8Finish (state : Utf8State) : List (Option Nat) := if state.needed = 0 then [] else [none]

/-- The scalar values of well-formed bytes, as a fatal decoder yields them. -/
def utf8Scalars (bytes : List UInt8) : Option (List Nat) :=
  let (state, values) := utf8Run {} bytes
  (values ++ utf8Finish state).mapM id

/-- The bytes are well-formed UTF-8. -/
def isUtf8 (bytes : List UInt8) : Bool := (utf8Scalars bytes).isSome

/-- Reading two runs of bytes is reading the first and then the second. -/
theorem utf8Run_append (state : Utf8State) (first second : List UInt8) : utf8Run state (first ++ second) =
      ((utf8Run (utf8Run state first).1 second).1,
        (utf8Run state first).2 ++ (utf8Run (utf8Run state first).1 second).2) := by
  induction first generalizing state with
  | nil => rfl
  | cons byte rest ih => simp [utf8Run, ih, List.append_assoc]

/-- A sequence complete leaves the decoder as it began. -/
theorem utf8Byte_needed_zero {state : Utf8State} {byte : UInt8} (h : (utf8Byte state byte).1.needed = 0) :
    (utf8Byte state byte).1 = {} := by
  have hlead (code : Nat) (h : (utf8Lead code).1.needed = 0) : (utf8Lead code).1 = {} := by
    unfold utf8Lead at h ⊢
    split_ifs at h ⊢ <;> simp_all
  unfold utf8Byte at h ⊢
  split_ifs at h ⊢ with h0 h1 h2
  · exact hlead _ h
  · rfl
  · simp only at h
    omega
  · exact hlead _ h

/-- A sequence complete leaves the decoder as it began. -/
theorem utf8Run_needed_zero {bytes : List UInt8} (h : (utf8Run {} bytes).1.needed = 0) :
    (utf8Run {} bytes).1 = {} := by
  induction bytes using List.reverseRecOn with
  | nil => rfl
  | append_singleton bytes byte _ =>
    rw [utf8Run_append] at h ⊢
    exact utf8Byte_needed_zero h

/-- Bytes are well formed when every sequence is and the last one is complete. -/
theorem isUtf8_iff (bytes : List UInt8) :
    isUtf8 bytes ↔ (utf8Run {} bytes).1.needed = 0 ∧ none ∉ (utf8Run {} bytes).2 := by
  have hmapM (values : List (Option Nat)) : (values.mapM id).isSome ↔ none ∉ values := by
    induction values with
    | nil => simp
    | cons value rest ih =>
      cases value with
      | none => simp [List.mapM_cons]
      | some value =>
        cases hrest : rest.mapM id with
        | none => simp_all [List.mapM_cons]
        | some tail => simp_all [List.mapM_cons]
  rw [isUtf8, utf8Scalars, hmapM, List.mem_append, utf8Finish]
  split_ifs with h <;> simp [h]

/-- The UTF-16 code units of a scalar value. -/
def utf16Units (codePoint : Nat) : List UInt16 :=
  if codePoint < 0x10000 then [codePoint.toUInt16]
  else
    [(0xD800 + (codePoint - 0x10000) / 0x400).toUInt16, (0xDC00 + (codePoint - 0x10000) % 0x400).toUInt16]

/-- A string of the source: its UTF-16 code units. -/
abbrev Units := List UInt16

instance : LawfulBEq Units := inferInstance

/-- The code units of an ASCII word. -/
def asciiUnits (word : String) : Units := word.toList.map fun char => char.toNat.toUInt16

/-- The bytes of an ASCII word. -/
def asciiBytes (word : String) : List UInt8 := word.toList.map fun char => char.toNat.toUInt8

/-- The number of bytes an encoder writes for a string; an unpaired surrogate is replaced. -/
def utf8Length : Units → Nat
  | [] => 0
  | [unit] => if unit < 0x80 then 1 else if unit < 0x800 then 2 else 3
  | unit :: next :: rest =>
    if unit < 0x80 then 1 + utf8Length (next :: rest)
    else if unit < 0x800 then 2 + utf8Length (next :: rest)
    else if 0xD800 ≤ unit ∧ unit ≤ 0xDBFF ∧ 0xDC00 ≤ next ∧ next ≤ 0xDFFF then 4 + utf8Length rest
    else 3 + utf8Length (next :: rest)

/-- The replacement character stands in for a malformed sequence. -/
def replacementCharacter : Nat := 0xFFFD

/-- The bytes of a scalar value. -/
def utf8EncodeScalar (code : Nat) : List UInt8 :=
  if code < 0x80 then [code.toUInt8]
  else if code < 0x800 then [(0xC0 + code / 64).toUInt8, (0x80 + code % 64).toUInt8]
  else if code < 0x10000 then
    [(0xE0 + code / 4096).toUInt8, (0x80 + code / 64 % 64).toUInt8, (0x80 + code % 64).toUInt8]
  else
    [(0xF0 + code / 262144).toUInt8, (0x80 + code / 4096 % 64).toUInt8, (0x80 + code / 64 % 64).toUInt8,
      (0x80 + code % 64).toUInt8]

/-- A unit by itself: an unpaired surrogate is replaced. -/
def utf8EncodeUnit (unit : UInt16) : List UInt8 :=
  utf8EncodeScalar (if 0xD800 ≤ unit ∧ unit ≤ 0xDFFF then replacementCharacter else unit.toNat)

/-- The bytes an encoder writes for a string. -/
def utf8Encode : Units → List UInt8
  | [] => []
  | [unit] => utf8EncodeUnit unit
  | unit :: next :: rest =>
    if 0xD800 ≤ unit ∧ unit ≤ 0xDBFF ∧ 0xDC00 ≤ next ∧ next ≤ 0xDFFF then
      utf8EncodeScalar (0x10000 + (unit.toNat - 0xD800) * 0x400 + (next.toNat - 0xDC00)) ++ utf8Encode rest
    else utf8EncodeUnit unit ++ utf8Encode (next :: rest)

/-- The code units of decoded values, malformed sequences replaced. -/
def lossyUnits (values : List (Option Nat)) : List UInt16 :=
  values.flatMap fun value => utf16Units (value.getD replacementCharacter)

end MultiAiRouter.Common
