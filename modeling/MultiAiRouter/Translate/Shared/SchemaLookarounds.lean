import MultiAiRouter.Common.Json.Parts

/-!
# Lookarounds of tool schemas

A surface that cannot compile regex lookarounds is given the tool schemas without the patterns that hold one. The
walk follows the keywords that hold subschemas, within a bound on the depth of a schema and on the subschemas of all
the tools.
-/

namespace MultiAiRouter.Translate.Shared

open Common Common.Json

def lookarounds : List Units := ["(?=", "(?!", "(?<=", "(?<!"].map asciiUnits

/-- The test of the source is on the text: an escaped or bracketed opener is one too. -/
def hasLookaround (text : Units) : Bool := lookarounds.any fun opener => decide (opener <:+: text)

def maxSchemaDepth : ℕ := 64

def maxSchemaNodes : ℕ := 10000

inductive Shape
  | single
  | array
  | map
  deriving DecidableEq

/-- The keywords that hold subschemas, by the shape of their value. -/
def subschemaKeywords : List (Units × List Shape) :=
  [ ("items", [.single, .array]), ("additionalItems", [.single]), ("unevaluatedItems", [.single]), ("not", [.single]),
    ("additionalProperties", [.single]), ("unevaluatedProperties", [.single]), ("propertyNames", [.single]),
    ("contains", [.single]), ("contentSchema", [.single]), ("if", [.single]), ("then", [.single]),
    ("else", [.single]), ("prefixItems", [.array]), ("anyOf", [.array]), ("oneOf", [.array]), ("allOf", [.array]),
    ("properties", [.map]), ("patternProperties", [.map]), ("$defs", [.map]), ("definitions", [.map]),
    ("dependentSchemas", [.map]), ("dependencies", [.map]) ].map fun entry => (asciiUnits entry.1, entry.2)

def shapesOf (keyword : Units) : List Shape := (subschemaKeywords.lookup keyword).getD []

def patternKey : Units := asciiUnits "pattern"

section Walk

/-- One notice of a hint that was dropped. -/
structure Drop where
  field : Units
  reason : Units
  deriving DecidableEq

/-- The subschemas walked so far, those of earlier tools included, and the notices given. -/
structure WalkState where
  nodes : ℕ := 0
  drops : List Drop := []
  deriving DecidableEq

/-- A walk ends with a value or with the text of its refusal. -/
abbrev Walk (A : Type) := StateT WalkState (Except Units) A

def rejectField {A : Type} (field reason : Units) : Walk A :=
  throw (asciiUnits "`" ++ field ++ asciiUnits "` " ++ reason)

def isIdentifierStart (unit : UInt16) : Bool :=
  (65 ≤ unit ∧ unit ≤ 90) ∨ (97 ≤ unit ∧ unit ≤ 122) ∨ unit = 95 ∨ unit = 36

def isIdentifier : Units → Bool
  | [] => false
  | first :: rest => isIdentifierStart first && rest.all fun unit => isIdentifierStart unit || (48 ≤ unit ∧ unit ≤ 57)

def indexed (place : ℕ) : Units := asciiUnits "[" ++ decimal place ++ asciiUnits "]"

/-- The keys of `patternProperties` are regexes of the client, so they are given by place. -/
def mapSegment (keyword key : Units) (place : ℕ) : Units :=
  if keyword = asciiUnits "patternProperties" then keyword ++ indexed place
  else if isIdentifier key then keyword ++ asciiUnits "." ++ key
  else keyword ++ asciiUnits "[" ++ (34 :: quoteUnits key ++ [34]) ++ asciiUnits "]"

/-- Walk a list in order, each entry with its place. -/
def forEach {A B : Type} (visit : ℕ → A → Walk B) : ℕ → List A → Walk (List B)
  | _, [] => pure []
  | place, entry :: rest => do
    let first ← visit place entry
    let others ← forEach visit (place + 1) rest
    return first :: others

/-- Only an object is a schema; what else stands in its place is left. -/
def walkObject (walk : Record → Units → Walk Record) (path : Units) : Value → Walk Value
  | .object sub => Value.object <$> walk sub path
  | other => pure other

/-- The walked value of one keyword. -/
def walkKeyword (walk : Record → Units → Walk Record) (keyword : Units) (value : Value) (path : Units) : Walk Value :=
  match value with
  | .object members =>
    if .single ∈ shapesOf keyword then walkObject walk (path ++ asciiUnits "." ++ keyword) value
    else if .map ∈ shapesOf keyword then
      Value.object <$> forEach (fun place member =>
        (member.1, ·) <$> walkObject walk (path ++ asciiUnits "." ++ mapSegment keyword member.1 place) member.2)
        0 members
    else pure value
  | .array items =>
    if .array ∈ shapesOf keyword then
      Value.array <$> forEach (fun place item =>
        walkObject walk (path ++ asciiUnits "." ++ keyword ++ indexed place) item) 0 items
    else pure value
  | _ => pure value

/-- The pattern of the node is one that is dropped. -/
def dropsPattern (schema : Record) : Bool :=
  match schema.get patternKey with
  | some (.string pattern) => hasLookaround pattern
  | _ => false

/-- Count the subschema against the bound of the request. -/
def countNode (path : Units) : Walk Unit := do
  let state ← get
  if maxSchemaNodes < state.nodes + 1 then
    rejectField path (asciiUnits "takes the request's tool schemas past 10000 walked subschemas")
  set { state with nodes := state.nodes + 1 }

def onDrop (drop : Drop) : Walk Unit := modify fun state => { state with drops := state.drops ++ [drop] }

/-- Walk a schema and so many levels of subschemas below it. -/
def walk (reason : Units) : ℕ → Record → Units → Walk Record
  | 0, _, path => rejectField path (asciiUnits "nests deeper than 64 schema levels")
  | levels + 1, schema, path => do
    countNode path
    if dropsPattern schema then
      onDrop { field := path ++ asciiUnits ".pattern", reason }
    let walked ← forEach (fun _ member =>
      (member.1, ·) <$> walkKeyword (walk reason levels) member.1 member.2 path) 0 schema
    return if dropsPattern schema then Record.delete walked patternKey else walked

/-- The name a tool goes by in a notice. -/
def toolName (members : Record) (place : ℕ) : Units :=
  match Record.get members (asciiUnits "name") with
  | some (.string name) => name
  | _ => asciiUnits "tools" ++ indexed place

def lookaroundReason (name : Units) : Units :=
  asciiUnits "the target account's Responses surface cannot compile regex lookarounds in tool schemas (tool `" ++
  name ++
    asciiUnits "`)"

def parametersKey : Units := asciiUnits "parameters"

def toolsKey : Units := asciiUnits "tools"

/-- The parameters of a tool that are walked: an object whose text holds a lookaround anywhere. -/
def walkedParameters (text : ℚ → Units) : Value → Option Record
  | .object members =>
    match Record.get members parametersKey with
    | some (.object parameters) =>
      if hasLookaround (stringify text (.object parameters)) then some parameters else none
    | _ => none
  | _ => none

def stripTool (text : ℚ → Units) (place : ℕ) (tool : Value) : Walk Value :=
  match tool, walkedParameters text tool with
  | .object members, some parameters => do
    let walked ← walk (lookaroundReason (toolName members place)) (maxSchemaDepth + 1) parameters
      (asciiUnits "tools" ++ indexed place ++ asciiUnits ".parameters")
    return .object (Record.set members parametersKey (.object walked))
  | _, _ => pure tool

/-- The body with its tool schemas stripped, and the notices of what was dropped. -/
def stripLookaroundPatternsFromTools (text : ℚ → Units) (body : Record) : Except Units (Record × List Drop) :=
  match body.get toolsKey with
  | some (.array tools) => do
    let (nextTools, state) ← (forEach (stripTool text) 0 tools).run {}
    return (body.set toolsKey (.array nextTools), state.drops)
  | _ => .ok (body, [])

end Walk

section Positions

/-- The value holds the subschema there, under its keyword. -/
inductive HeldAt (keyword : Units) : Value → Address → Record → Prop
  | single {sub : Record} (hshape : Shape.single ∈ shapesOf keyword) : HeldAt keyword (.object sub) [] sub
  | item {items : List Value} {place : ℕ} {sub : Record} (hshape : Shape.array ∈ shapesOf keyword)
      (hitem : items[place]? = some (.object sub)) : HeldAt keyword (.array items) [.index place] sub
  | entry {entries : Record} {name : Units} {sub : Record} (hshape : Shape.map ∈ shapesOf keyword)
      (hentry : entries.get name = some (.object sub)) : HeldAt keyword (.object entries) [.key name] sub

/-- The schema positions of a schema: itself, and those of the subschemas its keywords hold. -/
inductive SchemaAt : Record → Address → Record → Prop
  | here {schema : Record} : SchemaAt schema [] schema
  | inside {schema sub target : Record} {keyword : Units} {value : Value} {address rest : Address}
      (hvalue : schema.get keyword = some value) (hheld : HeldAt keyword value address sub)
      (hrest : SchemaAt sub rest target) : SchemaAt schema (.key keyword :: (address ++ rest)) target

/-- The schema positions of the tools of a body. -/
def ToolSchemaAt (body : Record) (address : Address) (target : Record) : Prop :=
  ∃ tools place members parameters rest, body.get toolsKey = some (.array tools) ∧
    tools[place]? = some (.object members) ∧ Record.get members parametersKey = some (.object parameters) ∧
    SchemaAt parameters rest target ∧ address = .key toolsKey :: .index place :: .key parametersKey :: rest

/-- The subschemas a value holds under its keyword. -/
def held (keyword : Units) : Value → List Record
  | .object members =>
    if .single ∈ shapesOf keyword then [members]
    else if .map ∈ shapesOf keyword then members.filterMap fun member => member.2.asRecord else []
  | .array items => if .array ∈ shapesOf keyword then items.filterMap Value.asRecord else []
  | _ => []

def subschemas (schema : Record) : List Record := schema.flatMap fun member => held member.1 member.2

/-- No subschema is so many levels below. -/
def DepthWithin : ℕ → Record → Prop
  | 0, _ => False
  | levels + 1, schema => ∀ sub ∈ subschemas schema, DepthWithin levels sub

/-- How many schemas there are on so many levels. -/
def schemaCount : ℕ → Record → ℕ
  | 0, _ => 0
  | levels + 1, schema => 1 + ((subschemas schema).map (schemaCount levels)).sum

/-- The subschemas of a tool that are walked. -/
def toolCount (text : ℚ → Units) (tool : Value) : ℕ :=
  (walkedParameters text tool).elim 0 (schemaCount (maxSchemaDepth + 1))

/-- The schemas that are walked stay within the bounds: each in its depth, all together in their number. -/
def WithinBounds (text : ℚ → Units) (tools : List Value) : Prop :=
  (∀ tool ∈ tools, ∀ parameters, walkedParameters text tool = some parameters →
    DepthWithin (maxSchemaDepth + 1) parameters) ∧ (tools.map (toolCount text)).sum ≤ maxSchemaNodes

end Positions

end MultiAiRouter.Translate.Shared
