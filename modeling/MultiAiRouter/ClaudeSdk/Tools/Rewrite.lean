import Mathlib.Data.List.Nodup
import Mathlib.Data.List.Sort
import MultiAiRouter.ClaudeSdk.Render.Envelope

/-!
# The tool rewriter

`createToolRewriter`: a tool block's argument fragments are held until it stops and then written as one, under the
client's own names; a block whose fragments pass the bound streams. `repairToolInput`: an argument whose name
differs from a missing required one only in spelling takes that name. JSON and the folding of a spelling are
parameters.
-/

namespace MultiAiRouter.ClaudeSdk.Tools

open Common

/-- What a client's own tools are known by to the SDK. -/
def toolNamespace : Units := asciiUnits "mcp__client__"

/-- The name the client knows a tool by. -/
def unprefixToolName (name : Units) : Units :=
  if toolNamespace.isPrefixOf name then name.drop toolNamespace.length else name

/-- What is read of a client's declaration of a tool. -/
structure ToolSchema where
  required : List Units
  properties : List Units
  deriving DecidableEq

section Repair

variable (fold : Units → Units)

/-- The undeclared names of the input by their folded spelling, the first of each. -/
def candidates (schema : ToolSchema) (input : Record) : List (Units × Units) :=
  (input.map Prod.fst).foldl
    (fun found key =>
      if key ∈ schema.properties then found
      else if (found.lookup (fold key)).isSome then found
      else found ++ [(fold key, key)]) []

/-- One missing name takes the candidate of its spelling, unless another took it. -/
def renameOne (found : List (Units × Units)) (renames : List (Units × Units)) (name : Units) : List (Units × Units) :=
  match found.lookup (fold name) with
  | none => renames
  | some source => if (renames.lookup source).isSome then renames else renames ++ [(source, name)]

/-- The names the input lacks. -/
def missing (schema : ToolSchema) (input : Record) : List Units :=
  schema.required.filter fun name => name ∉ input.map Prod.fst

/-- The names that are changed, each with what it becomes. -/
def renamed (schema : ToolSchema) (input : Record) : List (Units × Units) :=
  (missing schema input).foldl (renameOne fold (candidates fold schema input)) []

/-- The input under the names the client declared. -/
def repairToolInput (schema : ToolSchema) (input : Record) : Record :=
  input.map fun member => (((renamed fold schema input).lookup member.1).getD member.1, member.2)

variable {schema : ToolSchema} {input : Record}

/-- The values stay, in their order. -/
theorem repairToolInput_values : (repairToolInput fold schema input).map Prod.snd = input.map Prod.snd := by
  unfold repairToolInput
  rw [List.map_map]
  rfl

/-- What holds of the renames so far: each is the candidate of the name it becomes, and that name is missing. -/
def Sourced (found : List (Units × Units)) (absent : List Units) (renames : List (Units × Units)) : Prop :=
  ∀ rename ∈ renames, found.lookup (fold rename.2) = some rename.1 ∧ rename.2 ∈ absent

/-- A rename is sourced. -/
theorem Sourced.renameOne {found : List (Units × Units)} {absent : List Units} {renames : List (Units × Units)}
    (h : Sourced fold found absent renames) {name : Units} (hname : name ∈ absent) :
    Sourced fold found absent (renameOne fold found renames name) := by
  unfold Tools.renameOne
  split
  · exact h
  · next source hsource =>
    split
    · exact h
    · intro rename hrename
      rcases List.mem_append.mp hrename with hrename | hrename
      · exact h rename hrename
      · rw [List.mem_singleton.mp hrename]
        exact ⟨hsource, hname⟩

/-- The renames of an input are sourced. -/
theorem sourced_renamed :
    Sourced fold (candidates fold schema input) (missing schema input) (renamed fold schema input) := by
  have hfold : ∀ (names : List Units) (renames : List (Units × Units)), (∀ name ∈ names, name ∈ missing schema input) →
      Sourced fold (candidates fold schema input) (missing schema input) renames →
      Sourced fold (candidates fold schema input) (missing schema input)
        (names.foldl (renameOne fold (candidates fold schema input)) renames) := by
    intro names
    induction names with
    | nil => exact fun _ _ h => h
    | cons name rest ih =>
      intro renames hnames h
      exact ih _ (fun other hother => hnames other (.tail _ hother)) (h.renameOne fold (hnames name (.head _)))
  refine hfold (missing schema input) [] (fun _ h => h) ?_
  intro rename hrename
  simp at hrename

/-- Two arguments of an input do not get one name, so each keeps its value. -/
theorem repairToolInput_nodup (hinput : (input.map Prod.fst).Nodup) :
    ((repairToolInput fold schema input).map Prod.fst).Nodup := by
  have hnames : (repairToolInput fold schema input).map Prod.fst =
      (input.map Prod.fst).map fun name => ((renamed fold schema input).lookup name).getD name := by
    simp [repairToolInput]
  rw [hnames]
  have hmissing : ∀ {source name : Units}, (renamed fold schema input).lookup source = some name →
      (candidates fold schema input).lookup (fold name) = some source ∧ name ∉ input.map Prod.fst := by
    intro source name hlookup
    obtain ⟨hcandidate, habsent⟩ := sourced_renamed fold _ (mem_of_lookup hlookup)
    exact ⟨hcandidate, by simpa using (List.mem_filter.mp habsent).2⟩
  refine List.Nodup.map_on (fun first hfirst second hsecond hsame => ?_) hinput
  -- a name that is taken was missing, so it is neither another argument's own nor taken twice
  cases hone : (renamed fold schema input).lookup first with
  | none =>
    cases htwo : (renamed fold schema input).lookup second with
    | none => simpa [hone, htwo] using hsame
    | some name =>
      have hclash : first = name := by simpa [hone, htwo] using hsame
      exact absurd (hclash ▸ hfirst) (hmissing htwo).2
  | some name =>
    cases htwo : (renamed fold schema input).lookup second with
    | none =>
      have hclash : name = second := by simpa [hone, htwo] using hsame
      exact absurd (hclash ▸ hsecond) (hmissing hone).2
    | some other =>
      have hclash : name = other := by simpa [hone, htwo] using hsame
      subst hclash
      exact Option.some.inj ((hmissing hone).1.symm.trans (hmissing htwo).1)

end Repair

open ClaudeSdk.Render

/-- How JSON is read and written. -/
structure JsonText where
  parse : Units → Option Value
  stringify : Value → Units

/-- The object a text states, where it states one. -/
def JsonText.parseObject (json : JsonText) (text : Units) : Option Record := (json.parse text).bind Value.asRecord

/-- How much of a block's arguments is held. -/
def maxBufferedToolInput : Nat := 1024 * 1024

/-- A `tool_use` block the model opened. -/
structure EmittedToolCall where
  id : Units
  name : Units
  deriving DecidableEq

/-- A tool block that is open. -/
structure OpenTool where
  id : Units
  name : Units
  seed : Option Record
  buffer : Units := []
  overflowed : Bool := false

/-- Forward the event untouched, or put these in its place. -/
inductive ToolRewrite
  | forward
  | replace (events : List WireEvent)

/-- What goes on the wire for the event. -/
def ToolRewrite.events (event : WireEvent) : ToolRewrite → List WireEvent
  | .forward => [event]
  | .replace events => events

/-- The client's declarations by tool name, the reading of JSON, and the folding of names. -/
structure ToolSource where
  schemas : Units → Option ToolSchema
  json : JsonText
  fold : Units → Units

/-- Everything the rewriter keeps. -/
structure ToolRewriter where
  opened : List (Nat × OpenTool) := []
  calls : List EmittedToolCall := []
  emptyInput : List Units := []

/-- A field that is a text, and no text else. -/
def textOf (record : Record) (name : String) : Units := ((record.get (asciiUnits name)).bind Value.asString).getD []

/-- The tool block a `content_block_start` opens, where it opens one. -/
def toolBlock (event : WireEvent) : Option Record :=
  ((event.raw.get (asciiUnits "content_block")).bind Value.asRecord).filter fun block =>
    (block.get (asciiUnits "type")).bind Value.asString == some (asciiUnits "tool_use")

/-- The argument fragment of a `content_block_delta`, where it is one. -/
def inputFragment (event : WireEvent) : Option Units :=
  (((event.raw.get (asciiUnits "delta")).bind Value.asRecord).filter fun delta =>
    (delta.get (asciiUnits "type")).bind Value.asString == some (asciiUnits "input_json_delta")).map fun delta =>
      textOf delta "partial_json"

/-- A fragment of a block's arguments. -/
def inputDelta (index : Nat) (partialJson : Units) : WireEvent where
  type := .contentBlockDelta
  index := some index
  raw := [(asciiUnits "delta", .object
    [(asciiUnits "type", .string (asciiUnits "input_json_delta")), (asciiUnits "partial_json", .string partialJson)])]

/-- The SDK's own start, with the tool's name and input as the client knows them. -/
def startFrame (event : WireEvent) (block : Record) (name : Units) (seed : Option Record) : WireEvent :=
  let named := block.set (asciiUnits "name") (.string name)
  let content := seed.elim named fun input => named.set (asciiUnits "input") (.object input)
  { event with raw := event.raw.set (asciiUnits "content_block") (.object content) }

/-- The SDK's own stop. -/
def stopFrame (event : WireEvent) (index : Nat) : WireEvent :=
  { event with type := .contentBlockStop, index := some index }

namespace ToolSource

variable (source : ToolSource)

/-- The input under the client's names; a tool nobody declared keeps its input. -/
def repair (name : Units) (input : Record) : Record :=
  (source.schemas name).elim input fun schema => repairToolInput source.fold schema input

/-- The input as it is written. -/
def written (name : Units) (input : Record) : Units := source.json.stringify (.object (source.repair name input))

end ToolSource

namespace ToolRewriter

variable (source : ToolSource)

/-- Put the block at its index, in place of one that is there. -/
def setOpen (opened : List (Nat × OpenTool)) (index : Nat) (tool : OpenTool) : List (Nat × OpenTool) :=
  opened.filter (fun entry => entry.1 != index) ++ [(index, tool)]

def start (rewriter : ToolRewriter) (event : WireEvent) (index : Nat) : ToolRewriter × ToolRewrite :=
  match toolBlock event with
  | none => (rewriter, .forward)
  | some block =>
    let name := unprefixToolName (textOf block "name")
    let id := textOf block "id"
    let seed := ((block.get (asciiUnits "input")).bind Value.asRecord).map (source.repair name)
    ({ rewriter with
        calls := rewriter.calls ++ [{ id, name }]
        opened := setOpen rewriter.opened index { id, name, seed } },
      .replace [startFrame event block name seed])

def delta (rewriter : ToolRewriter) (event : WireEvent) (index : Nat) : ToolRewriter × ToolRewrite :=
  match rewriter.opened.lookup index with
  | none => (rewriter, .forward)
  | some tool =>
    if tool.overflowed then (rewriter, .forward)
    else
      match inputFragment event with
      | none => (rewriter, .forward)
      | some fragment =>
        let buffer := tool.buffer ++ fragment
        if buffer.length ≤ maxBufferedToolInput then
          ({ rewriter with opened := setOpen rewriter.opened index { tool with buffer } }, .replace [])
        else
          ({ rewriter with opened := setOpen rewriter.opened index { tool with buffer, overflowed := true } },
            .replace [inputDelta index buffer])

/-- Note a call that came without the arguments its tool requires. -/
def noteIfEmpty (rewriter : ToolRewriter) (tool : OpenTool) (input : Option Record) : ToolRewriter :=
  let declared := (source.schemas tool.name).elim 0 fun schema => schema.required.length
  if 0 < declared ∧ input.getD [] = [] then { rewriter with emptyInput := rewriter.emptyInput ++ [tool.id] }
  else rewriter

def stop (rewriter : ToolRewriter) (event : WireEvent) (index : Nat) : ToolRewriter × ToolRewrite :=
  match rewriter.opened.lookup index with
  | none => (rewriter, .forward)
  | some tool =>
    let closed := { rewriter with opened := rewriter.opened.filter fun entry => entry.1 != index }
    if tool.overflowed then (closed, .forward)
    else if tool.buffer.isEmpty then (closed.noteIfEmpty source tool tool.seed, .forward)
    else
      match source.json.parseObject tool.buffer with
      | none => (closed, .replace [inputDelta index tool.buffer, stopFrame event index])
      | some parsed =>
        (closed.noteIfEmpty source tool (some (source.repair tool.name parsed)),
          .replace [inputDelta index (source.written tool.name parsed), stopFrame event index])

/-- Take an event in. The events of a subagent are forwarded as they are. -/
def push (rewriter : ToolRewriter) (event : WireEvent) (turn : Option Units) : ToolRewriter × ToolRewrite :=
  match turn, event.index, event.type with
  | none, some index, .contentBlockStart => rewriter.start source event index
  | none, some index, .contentBlockDelta => rewriter.delta event index
  | none, some index, .contentBlockStop => rewriter.stop source event index
  | _, _, _ => (rewriter, .forward)

/-- The arguments a block that is still open is closed with: what the hook saw, else what was held. -/
def closingInput (tool : OpenTool) (captured : Units → Option Value) : Option Units :=
  match (captured tool.id).bind Value.asRecord with
  | some input => some (source.written tool.name input)
  | none =>
    if tool.buffer.isEmpty then none
    else
      match source.json.parseObject tool.buffer with
      | none => some tool.buffer
      | some parsed => some (source.written tool.name parsed)

/-- What a block that is still open is owed. -/
def closing (captured : Units → Option Value) (entry : Nat × OpenTool) : List WireEvent :=
  let input := if entry.2.overflowed then none else closingInput source entry.2 captured
  (input.map (inputDelta entry.1)).toList ++ [{ type := .contentBlockStop, index := some entry.1 }]

/-- The stream ended: every block that is open is closed, in the order of the indices. -/
def flush (rewriter : ToolRewriter) (captured : Units → Option Value) : ToolRewriter × List WireEvent :=
  let sorted := rewriter.opened.insertionSort fun first second => first.1 ≤ second.1
  ({ rewriter with opened := [] }, sorted.flatMap (closing source captured))

/-- What goes on the wire for an event of the client's turn. -/
def emit (rewriter : ToolRewriter) (event : WireEvent) : ToolRewriter × List WireEvent :=
  let pushed := rewriter.push source event none
  (pushed.1, pushed.2.events event)

/-- The events of the client's turn, and the flush after them. -/
def rewrite (events : List WireEvent) (captured : Units → Option Value) : ToolRewriter × List WireEvent :=
  let pushed := emitFrom (emit source) {} events
  let flushed := pushed.1.flush source captured
  (flushed.1, pushed.2 ++ flushed.2)

end ToolRewriter

end MultiAiRouter.ClaudeSdk.Tools
