import MultiAiRouter.Common.Json.Stringify
import MultiAiRouter.Translate.Sse.Parse

/-!
# The estimate of a token count

The characters of a request body, a quarter of them counted as tokens. The envelope is left out, prose is counted by
its code points, and a tool's input and schema as the JSON the model reads.

The text of a finite number and the JSON parser are parameters.
-/

namespace MultiAiRouter.Dataplane

open Common Common.Json
open Translate.Sse (TextDecoder)

/-- The length of a unit as JSON writes it, where it is no half of a pair. -/
def jsonUnitLength (unit : UInt16) : ℕ :=
  if unit = 34 ∨ unit = 92 then 2
  else if unit < 32 then (if unit ∈ [8, 12, 10, 13, 9] then 2 else 6)
  else if 0xD800 ≤ unit ∧ unit ≤ 0xDFFF then 6
  else 1

/-- The length of a string as JSON writes it, between the quotes. -/
def jsonTextLength : Units → ℕ
  | [] => 0
  | [unit] => jsonUnitLength unit
  | unit :: next :: rest =>
    if isPair unit next then 1 + jsonTextLength rest else jsonUnitLength unit + jsonTextLength (next :: rest)

/-- The length of a string as JSON writes it. -/
def jsonStringLength (text : Units) : ℕ := 2 + jsonTextLength text

/-- Whether a member is read as JSON: a schema, and the input of a tool call. -/
def isSerializedRegion (key : Units) (toolCall : Bool) : Bool :=
  key == asciiUnits "input_schema" || toolCall && key == asciiUnits "input"

def envelopeFields : List Units :=
  ["model", "max_tokens", "metadata", "stop_sequences", "stream", "temperature", "thinking", "tool_choice", "top_k",
    "top_p", "service_tier"].map asciiUnits

/-- Whether the members are those of a tool call. -/
def isToolCall (members : Record) : Bool :=
  members.any fun member => member.1 == asciiUnits "type" && member.2.asString == some (asciiUnits "tool_use")

def estimateCharsPerToken : ℕ := 4

def estimateBasis : Units := asciiUnits "chars-per-token-v1"

/-- A token count, and the basis it was derived on. -/
structure CountEstimate where
  inputTokens : ℕ
  basis : Units
  deriving DecidableEq

section Estimate

variable (text : ℚ → Units)

/-- What one value adds, without what it holds. -/
def serializedCost : Value → ℕ
  | .string units => jsonStringLength units
  | .number value => (numberString text value).length
  | .bool value => (asciiUnits (if value then "true" else "false")).length
  | .null => (asciiUnits "null").length
  | .array items => 2 + (items.length - 1)
  | .object members => 2 + (members.length - 1) + (members.map fun member => jsonStringLength member.1 + 1).sum

/-- The length of a value as it is serialized. -/
def serializedLength (value : Value) : ℕ := walk (serializedCost text) children children_shrinks [value] 0

/-- What one value of the walk adds; a region that is read as JSON adds all of it. -/
def contentCost : Value × Bool → ℕ
  | (value, true) => serializedLength text value
  | (.string units, false) => codePoints units
  | (.number value, false) => (numberString text value).length
  | (.bool value, false) => (asciiUnits (if value then "true" else "false")).length
  | (.null, false) => (asciiUnits "null").length
  | (.array _, false) => 0
  | (.object members, false) => (members.map fun member => codePoints member.1).sum

/-- What a value of the walk puts on top of it. -/
def contentChildren : Value × Bool → List (Value × Bool)
  | (.array items, false) => items.map fun item => (item, false)
  | (.object members, false) =>
    members.map fun member => (member.2, isSerializedRegion member.1 (isToolCall members))
  | _ => []

/-- The parts of content are smaller than it. -/
theorem contentChildren_shrinks : Shrinks contentChildren := by
  obtain ⟨size, hsize⟩ := children_shrinks
  refine ⟨fun item => size item.1, fun item => ?_⟩
  have hchildren := hsize item.1
  have hsame : (contentChildren item).map (fun item => size item.1) =
      if item.2 then [] else (children item.1).map size := by
    obtain ⟨value, serialized⟩ := item
    cases serialized with
    | true => cases value <;> rfl
    | false => cases value <;> simp [contentChildren, children]
  rw [hsame]
  split
  · exact Nat.zero_lt_of_lt hchildren
  · exact hchildren

/-- The characters of the prompt in a document. -/
def contentCharacters : Value → ℕ
  | .object members =>
    let prompt := members.filter fun member => member.1 ∉ envelopeFields
    walk (contentCost text) contentChildren contentChildren_shrinks
      (prompt.map fun member => (member.2, isSerializedRegion member.1 false)).reverse
      (prompt.map fun member => codePoints member.1).sum
  | document => walk (contentCost text) contentChildren contentChildren_shrinks [(document, false)] 0

/-- The characters of the prompt in a body; a body that is no JSON counts whole. -/
def promptCharacters (parse : Units → Option Value) (units : Units) : ℕ :=
  match parse units with
  | some document => contentCharacters text document
  | none => codePoints units

/-- The text of bytes, as a decoder that replaces what is malformed reads it. -/
def decodeText (bytes : List UInt8) : Units :=
  (({} : TextDecoder).decodeStream bytes).2 ++ (({} : TextDecoder).decodeStream bytes).1.decodeEnd

/-- A quarter of the characters, rounded up. -/
def estimateTokenCount (parse : Units → Option Value) (body : List UInt8) : CountEstimate :=
  { inputTokens := (promptCharacters text parse (decodeText body) + (estimateCharsPerToken - 1)) / estimateCharsPerToken
    basis := estimateBasis }

end Estimate

section Serialized

/-- A unit is as long as JSON writes it. -/
theorem counts_quoteUnit (unit : UInt16) : Counts (quoteUnit unit) (jsonUnitLength unit) := by
  by_cases hshort : unit ∈ [8, 9, 10, 12, 13, 34, 92]
  · simp only [List.mem_cons, List.not_mem_nil, or_false] at hshort
    rcases hshort with rfl | rfl | rfl | rfl | rfl | rfl | rfl <;> exact Counts.word _ (by decide)
  · simp only [List.mem_cons, List.not_mem_nil, or_false, not_or] at hshort
    obtain ⟨hbackspace, htab, hline, hform, hreturn, hquote, hslash⟩ := hshort
    have hescape : shortEscape unit = none := by
      unfold shortEscape
      rw [if_neg hbackspace, if_neg htab, if_neg hline, if_neg hform, if_neg hreturn, if_neg hquote, if_neg hslash]
    have hspelled : Counts (unicodeEscape unit) 6 := by
      refine Counts.ascii (unicodeEscape unit) fun digit hdigit => ?_
      have hhex : ∀ value, value < 16 → hexUnit value < 128 := by decide
      have hsize := unit.toNat_lt
      simp only [unicodeEscape, List.mem_cons, List.not_mem_nil, or_false] at hdigit
      rcases hdigit with rfl | rfl | rfl | rfl | rfl | rfl
      · decide
      · decide
      · exact hhex _ (by omega)
      · exact hhex _ (by omega)
      · exact hhex _ (by omega)
      · exact hhex _ (by omega)
    have hplain : ¬(unit = 34 ∨ unit = 92) := not_or.mpr ⟨hquote, hslash⟩
    have hlong : unit ∉ [8, 12, 10, 13, 9] := by simp [hbackspace, htab, hline, hform, hreturn]
    unfold quoteUnit jsonUnitLength isSurrogate
    rw [hescape, if_neg hplain, if_neg hlong]
    dsimp only
    by_cases hcontrol : unit < 32
    · rw [decide_eq_true hcontrol, if_pos hcontrol]
      exact hspelled
    · rw [decide_eq_false hcontrol, if_neg hcontrol, Bool.false_or]
      by_cases hsurrogate : 0xD800 ≤ unit ∧ unit ≤ 0xDFFF
      · rw [decide_eq_true hsurrogate, if_pos hsurrogate]
        exact hspelled
      · rw [decide_eq_false hsurrogate, if_neg hsurrogate, if_neg Bool.false_ne_true]
        exact .unit fun hhalf => hsurrogate ⟨hhalf.1, UInt16.le_trans hhalf.2 (by decide)⟩

/-- A string is as long between its quotes as JSON writes it. -/
theorem counts_quoteUnits (units : Units) : Counts (quoteUnits units) (jsonTextLength units) := by
  induction units using quoteUnits.induct with
  | case1 => exact .nil
  | case2 unit => exact counts_quoteUnit unit
  | case3 unit next rest hpair ih =>
    have hhalves : isPair unit next = true := decide_eq_true hpair
    rw [quoteUnits, if_pos hpair, jsonTextLength, if_pos hhalves]
    exact (Counts.pair hhalves).append ih
  | case4 unit next rest hapart ih =>
    have hhalves : isPair unit next = false := decide_eq_false hapart
    rw [quoteUnits, if_neg hapart, jsonTextLength, if_neg (by rw [hhalves]; exact Bool.false_ne_true)]
    exact (counts_quoteUnit unit).append ih

/-- A quoted string is counted as its text. -/
theorem counts_string (units : Units) : Counts (34 :: quoteUnits units ++ [34]) (jsonStringLength units) := by
  have hquote : Counts [34] 1 := .unit (by decide)
  have hwhole := (hquote.append (counts_quoteUnits units)).append hquote
  have hcount : jsonStringLength units = 1 + jsonTextLength units + 1 := by
    unfold jsonStringLength
    omega
  rw [hcount]
  exact hwhole

variable {text : ℚ → Units}

theorem serializedLength_eq (value : Value) : serializedLength text value =
      serializedCost text value + ((children value).map (serializedLength text)).sum :=
  weigh_eq value

/-- The cost of an object, with its children's lengths. -/
theorem serializedCost_object (members : Record) :
    serializedCost text (.object members) + ((children (.object members)).map (serializedLength text)).sum =
      2 + (members.length - 1) +
        (members.map fun member => jsonStringLength member.1 + 1 + serializedLength text member.2).sum := by
  have hsplit : (members.map fun member => jsonStringLength member.1 + 1 + serializedLength text member.2).sum =
      (members.map fun member => jsonStringLength member.1 + 1).sum +
        (members.map fun member => serializedLength text member.2).sum := List.sum_map_add
  rw [hsplit, serializedCost, children, List.map_map, Nat.add_assoc]
  rfl

/-- The walk comes to the length of the value as it is written. -/
theorem counts_writeJson (hascii : ∀ value, ∀ unit ∈ text value, unit < 128) (value : Value) :
    Counts (writeJson (numberString text) value) (serializedLength text value) := by
  induction value using children_shrinks.induction with
  | _ value ih =>
    rw [serializedLength_eq]
    cases value with
    | null => exact Counts.word (asciiUnits "null") (by decide)
    | bool value =>
      cases value with
      | true => exact Counts.word (asciiUnits "true") (by decide)
      | false => exact Counts.word (asciiUnits "false") (by decide)
    | number value =>
      cases value with
      | finite value => exact Counts.ascii (text value) (hascii value)
      | infinite negative =>
        cases negative with
        | true => exact Counts.word (asciiUnits "-Infinity") (by decide)
        | false => exact Counts.word (asciiUnits "Infinity") (by decide)
    | string units => exact counts_string units
    | array items =>
      rw [writeJson, writeItems_eq]
      exact Counts.bracket ih (by decide) (by decide)
    | object members =>
      have hmember (member : Units × Value) (hmem : member ∈ members) :
          Counts (34 :: quoteUnits member.1 ++ 34 :: 58 :: writeJson (numberString text) member.2)
            (jsonStringLength member.1 + 1 + serializedLength text member.2) := by
        have hcolon : Counts [58] 1 := .unit (by decide)
        have hvalue := ih member.2 (List.mem_map_of_mem hmem)
        have hwhole := ((counts_string member.1).append hcolon).append hvalue
        simpa using hwhole
      rw [serializedCost_object, writeJson, writeMembers_eq]
      exact Counts.bracket hmember (by decide) (by decide)

/-- The length of a value whose numbers are finite is that of its JSON. -/
theorem serializedLength_stringify (hascii : ∀ value, ∀ unit ∈ text value, unit < 128) {value : Value}
    (hfinite : IsFinite value) : serializedLength text value = codePoints (stringify text value) := by
  rw [← writeJson_numberString text value hfinite, (counts_writeJson hascii value).eq]

end Serialized

section Grows

/-- A value with one more element or member somewhere in it. -/
inductive Grows : Value → Value → Prop
  | element (before after : List Value) (item : Value) :
    Grows (.array (before ++ after)) (.array (before ++ item :: after))
  | member (before after : Record) (added : Units × Value) :
    Grows (.object (before ++ after)) (.object (before ++ added :: after))
  | inElement {value grown : Value} (before after : List Value) :
    Grows value grown → Grows (.array (before ++ value :: after)) (.array (before ++ grown :: after))
  | inMember {value grown : Value} (before after : Record) (key : Units) :
    Grows value grown → Grows (.object (before ++ (key, value) :: after)) (.object (before ++ (key, grown) :: after))

variable {text : ℚ → Units} {value grown : Value}

theorem serializedLength_array (items : List Value) :
    serializedLength text (.array items) = 2 + (items.length - 1) + (items.map (serializedLength text)).sum :=
  serializedLength_eq _

theorem serializedLength_object (members : Record) :
    serializedLength text (.object members) = 2 + (members.length - 1) +
      (members.map fun member => jsonStringLength member.1 + 1 + serializedLength text member.2).sum := by
  rw [serializedLength_eq, serializedCost_object]

/-- A value that grows is not written shorter. -/
theorem Grows.serialized (h : Grows value grown) : serializedLength text value ≤ serializedLength text grown := by
  induction h with
  | element before after item =>
    rw [serializedLength_array, serializedLength_array]
    simp only [List.length_append, List.length_cons, List.map_append, List.map_cons, List.sum_append, List.sum_cons]
    omega
  | member before after added =>
    rw [serializedLength_object, serializedLength_object]
    simp only [List.length_append, List.length_cons, List.map_append, List.map_cons, List.sum_append, List.sum_cons]
    omega
  | inElement before after _ ih =>
    rw [serializedLength_array, serializedLength_array]
    simp only [List.length_append, List.length_cons, List.map_append, List.map_cons, List.sum_append, List.sum_cons]
    omega
  | inMember before after key _ ih =>
    rw [serializedLength_object, serializedLength_object]
    simp only [List.length_append, List.length_cons, List.map_append, List.map_cons, List.sum_append, List.sum_cons]
    omega

/-- The characters a value adds to the prompt, as JSON or as prose. -/
def contentWeight (text : ℚ → Units) (serialized : Bool) (value : Value) : ℕ :=
  weigh (contentCost text) contentChildren contentChildren_shrinks (value, serialized)

theorem contentWeight_serialized (value : Value) : contentWeight text true value = serializedLength text value := by
  rw [contentWeight, weigh_eq]
  cases value <;> rfl

theorem contentWeight_array (items : List Value) :
    contentWeight text false (.array items) = (items.map (contentWeight text false)).sum := by
  rw [contentWeight, weigh_eq, contentCost, contentChildren, List.map_map, Nat.zero_add]
  rfl

/-- The characters a member adds. -/
def memberWeight (text : ℚ → Units) (toolCall : Bool) (member : Units × Value) : ℕ :=
  codePoints member.1 + contentWeight text (isSerializedRegion member.1 toolCall) member.2

theorem contentWeight_object (members : Record) :
    contentWeight text false (.object members) = (members.map (memberWeight text (isToolCall members))).sum := by
  rw [contentWeight, weigh_eq, contentCost, contentChildren, List.map_map, ← List.sum_map_add]
  rfl

/-- A string is no longer than its JSON. -/
theorem codePoints_le (units : Units) : codePoints units ≤ jsonTextLength units := by
  have hunit (unit : UInt16) : 1 ≤ jsonUnitLength unit := by
    unfold jsonUnitLength
    split_ifs <;> decide
  induction units using codePoints.induct with
  | case1 => exact Nat.le_refl _
  | case2 unit => exact hunit unit
  | case3 unit next rest hpair ih =>
    rw [codePoints, jsonTextLength, if_pos hpair, if_pos hpair]
    omega
  | case4 unit next rest hapart ih =>
    have hfirst := hunit unit
    rw [codePoints, jsonTextLength, if_neg hapart, if_neg hapart]
    omega

/-- Prose is no longer than the JSON of it. -/
theorem contentWeight_le (value : Value) : contentWeight text false value ≤ serializedLength text value := by
  induction value using children_shrinks.induction with
  | _ value ih =>
    cases value with
    | null =>
      rw [contentWeight, weigh_eq, serializedLength_eq]
      exact Nat.le_refl _
    | bool value =>
      rw [contentWeight, weigh_eq, serializedLength_eq]
      exact Nat.le_refl _
    | number value =>
      rw [contentWeight, weigh_eq, serializedLength_eq]
      exact Nat.le_refl _
    | string units =>
      have hunits := codePoints_le units
      rw [contentWeight, weigh_eq, serializedLength_eq]
      simp only [contentCost, contentChildren, serializedCost, children, jsonStringLength, List.map_nil, List.sum_nil]
      omega
    | array items =>
      have hsum := List.sum_le_sum ih
      rw [contentWeight_array, serializedLength_array]
      exact hsum.trans (Nat.le_add_left ..)
    | object members =>
      rw [contentWeight_object, serializedLength_object]
      refine (List.sum_le_sum fun member hmember => ?_).trans (Nat.le_add_left ..)
      have hkey := codePoints_le member.1
      have hvalue : contentWeight text (isSerializedRegion member.1 (isToolCall members)) member.2 ≤
          serializedLength text member.2 := by
        cases isSerializedRegion member.1 (isToolCall members) with
        | true => exact (contentWeight_serialized member.2).le
        | false => exact ih member.2 (List.mem_map_of_mem hmember)
      unfold memberWeight jsonStringLength
      omega

/-- What comes to be read as JSON does not count for less. -/
theorem contentWeight_mono {first second : Bool} (h : first = true → second = true) (value : Value) :
    contentWeight text first value ≤ contentWeight text second value := by
  cases first with
  | true => rw [h rfl]
  | false =>
    cases second with
    | true => exact (contentWeight_le value).trans (contentWeight_serialized value).ge
    | false => exact Nat.le_refl _

/-- A region under a serialized one is serialized. -/
theorem isSerializedRegion_mono {first second : Bool} (h : first = true → second = true) (key : Units)
    (hregion : isSerializedRegion key first = true) : isSerializedRegion key second = true := by
  cases first with
  | true => rwa [h rfl]
  | false =>
    rw [isSerializedRegion, Bool.false_and, Bool.or_false] at hregion
    rw [isSerializedRegion, hregion, Bool.true_or]

/-- Members weigh more where they are serialized. -/
theorem memberWeight_mono {first second : Bool} (h : first = true → second = true) (members : Record) :
    (members.map (memberWeight text first)).sum ≤ (members.map (memberWeight text second)).sum :=
  List.sum_le_sum fun member _ =>
    Nat.add_le_add_left (contentWeight_mono (isSerializedRegion_mono h member.1) member.2) _

theorem Grows.asString (h : Grows value grown) : value.asString = none := by
  cases h <;> rfl

/-- A value that grows adds no less to the prompt. -/
theorem Grows.content (h : Grows value grown) (serialized : Bool) :
    contentWeight text serialized value ≤ contentWeight text serialized grown := by
  cases serialized with
  | true =>
    rw [contentWeight_serialized, contentWeight_serialized]
    exact h.serialized
  | false =>
    induction h with
    | element before after item =>
      rw [contentWeight_array, contentWeight_array]
      simp only [List.map_append, List.map_cons, List.sum_append, List.sum_cons]
      omega
    | member before after added =>
      have hcall : isToolCall (before ++ after) = true → isToolCall (before ++ added :: after) = true := by
        unfold isToolCall
        rw [List.any_append, List.any_append, List.any_cons, Bool.or_eq_true, Bool.or_eq_true, Bool.or_eq_true]
        exact Or.imp_right .inr
      have hkept := @memberWeight_mono text _ _ hcall (before ++ after)
      rw [contentWeight_object, contentWeight_object]
      simp only [List.map_append, List.map_cons, List.sum_append, List.sum_cons] at hkept ⊢
      omega
    | inElement before after _ ih =>
      rw [contentWeight_array, contentWeight_array]
      simp only [List.map_append, List.map_cons, List.sum_append, List.sum_cons]
      omega
    | @inMember value grown before after key hgrows ih =>
      have hcall : isToolCall (before ++ (key, value) :: after) = true →
          isToolCall (before ++ (key, grown) :: after) = true := by
        unfold isToolCall
        rw [List.any_append, List.any_append, List.any_cons, List.any_cons, hgrows.asString]
        simp only [Bool.or_eq_true]
        rintro (hbefore | hvalue | hafter)
        · exact .inl hbefore
        · simp at hvalue
        · exact .inr (.inr hafter)
      have hkept := @memberWeight_mono text _ _ hcall (before ++ after)
      have hvalue : memberWeight text (isToolCall (before ++ (key, value) :: after)) (key, value) ≤
          memberWeight text (isToolCall (before ++ (key, grown) :: after)) (key, grown) := by
        refine Nat.add_le_add_left ?_ _
        refine (contentWeight_mono (isSerializedRegion_mono hcall key) value).trans ?_
        cases isSerializedRegion key (isToolCall (before ++ (key, grown) :: after)) with
        | true =>
          rw [contentWeight_serialized, contentWeight_serialized]
          exact hgrows.serialized
        | false => exact ih
      rw [contentWeight_object, contentWeight_object]
      simp only [List.map_append, List.map_cons, List.sum_append, List.sum_cons] at hkept ⊢
      omega

end Grows

section Body

variable {text : ℚ → Units} {document grown : Value}

/-- The characters a member at the top adds: none in the envelope. -/
def promptWeight (text : ℚ → Units) (member : Units × Value) : ℕ :=
  if member.1 ∈ envelopeFields then 0 else memberWeight text false member

/-- The characters of an object are those of its members. -/
theorem contentCharacters_object (members : Record) :
    contentCharacters text (.object members) = (members.map (promptWeight text)).sum := by
  have hsplit (prompt : Record) : (prompt.map fun member => codePoints member.1).sum +
      (prompt.map fun member => contentWeight text (isSerializedRegion member.1 false) member.2).sum =
        (prompt.map (memberWeight text false)).sum := (List.sum_map_add).symm
  rw [contentCharacters, walk_eq, List.map_reverse, List.sum_reverse, List.map_map]
  refine (hsplit _).trans ?_
  induction members with
  | nil => rfl
  | cons member rest ih =>
    rw [List.map_cons, List.sum_cons, promptWeight, ← ih]
    by_cases henvelope : member.1 ∈ envelopeFields
    · rw [List.filter_cons_of_neg (by simpa using henvelope), if_pos henvelope, Nat.zero_add]
    · rw [List.filter_cons_of_pos (by simpa using henvelope), if_neg henvelope, List.map_cons, List.sum_cons]

theorem contentCharacters_array (items : List Value) :
    contentCharacters text (.array items) = contentWeight text false (.array items) := by
  rw [contentCharacters, walk_eq, Nat.zero_add]
  exact List.sum_singleton
  all_goals nofun

/-- A document that grows, at the top or below it, holds no fewer characters of prompt. -/
theorem Grows.contentCharacters (h : Grows document grown) :
    contentCharacters text document ≤ contentCharacters text grown := by
  have harray {items more : List Value} (hgrows : Grows (.array items) (.array more)) :
      Dataplane.contentCharacters text (.array items) ≤ Dataplane.contentCharacters text (.array more) := by
    rw [contentCharacters_array, contentCharacters_array]
    exact hgrows.content false
  cases h with
  | element before after item => exact harray (.element before after item)
  | inElement before after hgrows => exact harray (.inElement before after hgrows)
  | member before after added =>
    rw [contentCharacters_object, contentCharacters_object]
    simp only [List.map_append, List.map_cons, List.sum_append, List.sum_cons]
    omega
  | @inMember value grown before after key hgrows =>
    have hmember : promptWeight text (key, value) ≤ promptWeight text (key, grown) := by
      unfold promptWeight
      dsimp only
      split
      · exact Nat.le_refl 0
      · exact Nat.add_le_add_left (@Grows.content text _ _ hgrows (isSerializedRegion key false)) _
    rw [contentCharacters_object, contentCharacters_object]
    simp only [List.map_append, List.map_cons, List.sum_append, List.sum_cons]
    omega

end Body

/-- The length of every value whose numbers are finite is the number of code points of its JSON, and the estimate of a
body does not fall when an element or a member is added anywhere in its document. -/
theorem serialized_length_exact {text : ℚ → Units} (hascii : ∀ value, ∀ unit ∈ text value, unit < 128)
    (parse : Units → Option Value) :
    (∀ value, IsFinite value → serializedLength text value = codePoints (stringify text value)) ∧
      ∀ body larger document grown, parse (decodeText body) = some document →
        parse (decodeText larger) = some grown → Grows document grown →
          (estimateTokenCount text parse body).inputTokens ≤ (estimateTokenCount text parse larger).inputTokens := by
  refine ⟨fun value hfinite => serializedLength_stringify hascii hfinite, ?_⟩
  intro body larger document grown hbody hlarger hgrows
  unfold estimateTokenCount promptCharacters
  rw [hbody, hlarger]
  exact Nat.div_le_div_right (Nat.add_le_add_right hgrows.contentCharacters _)

/-- A message whose text has a quote, and a body with this message. -/
def quotedMessage : Value := .object [(asciiUnits "content", .string (asciiUnits "a\"b"))]

def quotedBody : Value := .object [(asciiUnits "messages", .array [quotedMessage])]

def quotedJson : String := "\x7b\"messages\":[\x7b\"content\":\"a\\\"b\"\x7d]\x7d"

/-- The body with one more message, of a number and a null. -/
def longerBody : Value :=
  .object [(asciiUnits "messages",
    .array [quotedMessage, .object [(asciiUnits "content", .array [.number (.finite 7), .null])]])]

def longerJson : String :=
  "\x7b\"messages\":[\x7b\"content\":\"a\\\"b\"\x7d,\x7b\"content\":[7,null]\x7d]\x7d"

/-- A body whose prompt, tool input and schema grow by a piece. -/
theorem serialized_length_exact_seven :
    let text : ℚ → Units := fun value => if value = 7 then [55] else [48]
    let parse : Units → Option Value := fun units =>
      if units = asciiUnits quotedJson then some quotedBody
      else if units = asciiUnits longerJson then some longerBody else none
    serializedLength text longerBody = codePoints (stringify text longerBody) ∧
      stringify text longerBody = asciiUnits longerJson ∧
      (estimateTokenCount text parse (asciiBytes quotedJson)).inputTokens ≤
        (estimateTokenCount text parse (asciiBytes longerJson)).inputTokens := by
  intro text parse
  have hascii : ∀ value, ∀ unit ∈ text value, unit < 128 := by
    intro value unit hunit
    simp only [text] at hunit
    split at hunit <;> rw [List.mem_singleton.mp hunit] <;> decide
  obtain ⟨hlength, hgrows⟩ := serialized_length_exact hascii parse
  refine ⟨hlength _ (by simp [longerBody, quotedMessage, IsFinite, MembersFinite, ItemsFinite]), by decide +kernel, ?_⟩
  refine hgrows _ _ quotedBody longerBody ?_ ?_ (.inMember [] [] _ (.element [quotedMessage] [] _))
  · exact if_pos (by decide +kernel)
  · exact (if_neg (by decide +kernel)).trans (if_pos (by decide +kernel))

end MultiAiRouter.Dataplane
