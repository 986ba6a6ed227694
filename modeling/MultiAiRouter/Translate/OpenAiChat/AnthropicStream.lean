import MultiAiRouter.Common.InsertionMap
import MultiAiRouter.Translate.Anthropic.ChatStream

/-!
# An Anthropic stream, read into chat completion chunks

`anthropicToOpenAiChatStream`: each frame is an event of a message and becomes the chunks it carries. A tool block
opens a call under an ordinal of its own, and the blocks of the structured-output tool are content. `message_delta`
yields the terminal chunk and, where asked for, the usage; `message_stop` yields the sentinel; an error closes the
stream.

How JSON, usage blocks and upstream errors are read is a parameter.
-/

namespace MultiAiRouter.Translate.OpenAiChat

open Common Translate.Sse Translate.Anthropic

/-- Why a completion ended, in the chat dialect. -/
inductive OpenAiFinishReason
  | stop
  | length
  | toolCalls
  | contentFilter
  deriving DecidableEq

/-- The reason that is safe to state blind. -/
def conservativeFinishReason : OpenAiFinishReason := .stop

/-- A stop reason in the chat dialect's words, with the word that was not known. -/
def toOpenAiFinishReason : Option Units → Option OpenAiFinishReason × Option Units
  | none => (none, none)
  | some reason =>
    if reason = asciiUnits "end_turn" ∨ reason = asciiUnits "stop_sequence" ∨ reason = asciiUnits "pause_turn" ∨
        reason = asciiUnits "refusal" then (some .stop, none)
    else if reason = asciiUnits "max_tokens" ∨ reason = asciiUnits "model_context_window_exceeded" then
      (some .length, none)
    else if reason = asciiUnits "tool_use" then (some .toolCalls, none)
    else (some conservativeFinishReason, some reason)

/-- A call in a chunk; only the first chunk of a call has its id, type and name. -/
structure ToolCallChunk where
  index : Nat
  id : Option Units := none
  isFunction : Bool := false
  name : Option Units := none
  arguments : Option Units := none
  deriving DecidableEq

/-- What a chunk adds to the message. -/
structure ChunkDelta where
  role : Bool := false
  content : Option Units := none
  toolCalls : Option (List ToolCallChunk) := none
  deriving DecidableEq

/-- Token counts, each absent where the upstream stated none. -/
structure AnthropicUsage where
  inputTokens : Option Int
  outputTokens : Option Int
  cacheCreationInputTokens : Option Int
  cacheReadInputTokens : Option Int
  deriving DecidableEq

/-- The final counts win field by field. -/
def mergeUsage (start final : Option AnthropicUsage) : Option AnthropicUsage :=
  match start, final with
  | none, final => final
  | some start, none => some start
  | some start, some final =>
    some
      { inputTokens := final.inputTokens.or start.inputTokens
        outputTokens := final.outputTokens.or start.outputTokens
        cacheCreationInputTokens := final.cacheCreationInputTokens.or start.cacheCreationInputTokens
        cacheReadInputTokens := final.cacheReadInputTokens.or start.cacheReadInputTokens }

/-- An emitted event: a chunk, the usage chunk without choices, an error body, or the sentinel. -/
inductive ChatStreamEvent
  | chunk (id model : Units) (delta : ChunkDelta) (finishReason : Option OpenAiFinishReason)
  | usage (id model : Units) (usage : AnthropicUsage)
  | error (body : Value)
  | done

/-- The name of the tool that carries a structured answer. -/
def structuredOutputTool : Units := asciiUnits "router_structured_output"

/-- What `message_start` names. -/
structure MessageStart where
  id : Option Units
  model : Option Units
  usage : Option Value

/-- A block as its start states it. -/
structure BlockStart where
  index : Nat
  type : Units
  text : Option Units
  id : Option Units
  name : Option Units

/-- A piece of a block. -/
structure BlockDelta where
  index : Nat
  type : Units
  text : Option Units
  partialJson : Option Units

/-- What a frame is read as; an event whose payload cannot be read is `other`. -/
inductive AnthropicFrame
  | messageStart (message : Option MessageStart)
  | blockStart (block : BlockStart)
  | blockDelta (delta : BlockDelta)
  | blockStop (index : Nat)
  | messageDelta (stopReason : Option Units) (usage : Option Value)
  | messageStop
  | error (payload : Value)
  | other

section Read

/-- The type of an event: the payload's own, else the name of the frame. -/
def eventType (name : Option Units) (payload : Value) : Option Units :=
  match (payload.asRecord.bind fun record => record.get (asciiUnits "type")) with
  | some (.string type) => some type
  | _ => name

/-- A block index: a safe integer that is not negative. -/
def blockIndex (record : Record) : Option Nat :=
  ((record.get (asciiUnits "index")).bind integer).bind fun index => if 0 ≤ index then some index.toNat else none

/-- An optional object: absent or null is nothing, and any other value is a mismatch. -/
def optionalRecord (record : Record) (name : String) : Option (Option Record) :=
  match record.get (asciiUnits name) with
  | none | some .null => some none
  | some (.object members) => some (some members)
  | some _ => none

def readMessageStart (payload : Value) : Option MessageStart :=
  payload.asRecord.bind fun record =>
    ((optionalRecord record "message").join).map fun message =>
      { id := textField message "id", model := textField message "model", usage := message.get (asciiUnits "usage") }

def readBlockStart (payload : Value) : Option BlockStart :=
  payload.asRecord.bind fun record =>
    (blockIndex record).bind fun index =>
      ((record.get (asciiUnits "content_block")).bind Value.asRecord).bind fun block =>
        (textField block "type").map fun type =>
          { index, type, text := textField block "text", id := textField block "id", name := textField block "name" }

def readBlockDelta (payload : Value) : Option BlockDelta :=
  payload.asRecord.bind fun record =>
    (blockIndex record).bind fun index =>
      ((record.get (asciiUnits "delta")).bind Value.asRecord).bind fun delta =>
        (textField delta "type").map fun type =>
          { index, type, text := textField delta "text", partialJson := textField delta "partial_json" }

/-- The stop reason and the usage of a `message_delta`, where its `delta` is an object or absent. -/
def readMessageDelta (payload : Value) : Option (Option Units × Option Value) :=
  payload.asRecord.bind fun record =>
    (optionalRecord record "delta").map fun delta =>
      (delta.bind fun delta => textField delta "stop_reason", record.get (asciiUnits "usage"))

/-- Read a frame; data that is no JSON reads as null. -/
def readAnthropicFrame (parseJson : Units → Option Value) (frame : SseFrame) : AnthropicFrame :=
  let payload := (parseJson frame.data).getD .null
  let type := eventType frame.event payload
  if type = some (asciiUnits "message_start") then .messageStart (readMessageStart payload)
  else if type = some (asciiUnits "content_block_start") then (readBlockStart payload).elim .other .blockStart
  else if type = some (asciiUnits "content_block_delta") then (readBlockDelta payload).elim .other .blockDelta
  else if type = some (asciiUnits "content_block_stop") then
    (payload.asRecord.bind blockIndex).elim .other .blockStop
  else if type = some (asciiUnits "message_delta") then
    (readMessageDelta payload).elim .other fun read => .messageDelta read.1 read.2
  else if type = some (asciiUnits "message_stop") then .messageStop
  else if type = some (asciiUnits "error") then .error payload
  else .other

end Read

/-- What the stream is read with, and what its caller asked for. -/
structure AnthropicSource where
  parseJson : Units → Option Value
  parseUsage : Option Value → Option AnthropicUsage
  errorBody : Value → Value
  includeUsage : Bool

/-- Everything the reader keeps. -/
structure AnthropicReader where
  id : Units
  model : Units
  startUsage : Option AnthropicUsage := none
  unrecognized : Option Units := none
  nextToolCall : Nat := 0
  finished : Bool := false
  closed : Bool := false
  toolCalls : InsertionMap Nat Nat := {}
  argumentBlocks : List Nat := []
  structuredBlocks : List Nat := []
  structuredSeen : Bool := false

namespace AnthropicReader

variable (source : AnthropicSource)

/-- A chunk under the names known so far. -/
def chunk (reader : AnthropicReader) (delta : ChunkDelta) (finishReason : Option OpenAiFinishReason) :
    ChatStreamEvent :=
  .chunk reader.id reader.model delta finishReason

def onMessageStart (reader : AnthropicReader) (message : Option MessageStart) :
    AnthropicReader × List ChatStreamEvent :=
  let named :=
    { reader with
      id := (message.bind MessageStart.id).getD reader.id
      model := (message.bind MessageStart.model).getD reader.model
      startUsage := source.parseUsage (message.bind MessageStart.usage) }
  (named, [named.chunk { role := true, content := some [] } none])

def onBlockStart (reader : AnthropicReader) (block : BlockStart) : AnthropicReader × List ChatStreamEvent :=
  if block.type = asciiUnits "tool_use" ∧ block.name = some structuredOutputTool then
    ({ reader with structuredBlocks := reader.structuredBlocks.insert block.index, structuredSeen := true }, [])
  else if block.type = asciiUnits "tool_use" then
    let call : ToolCallChunk :=
      { index := reader.nextToolCall, id := some (block.id.getD []), isFunction := true
        name := some (block.name.getD []), arguments := some [] }
    let opened :=
      { reader with
        nextToolCall := reader.nextToolCall + 1
        toolCalls := reader.toolCalls.set block.index reader.nextToolCall }
    (opened, [opened.chunk { toolCalls := some [call] } none])
  else
    let text := if block.type = asciiUnits "text" then block.text.getD [] else []
    (reader, if text.isEmpty then [] else [reader.chunk { content := some text } none])

def onBlockDelta (reader : AnthropicReader) (delta : BlockDelta) : AnthropicReader × List ChatStreamEvent :=
  if delta.type = asciiUnits "text_delta" then
    (reader, if (delta.text.getD []).isEmpty then [] else [reader.chunk { content := some (delta.text.getD []) } none])
  else if delta.type ≠ asciiUnits "input_json_delta" then (reader, [])
  else
    let json := delta.partialJson.getD []
    if delta.index ∈ reader.structuredBlocks then
      (reader, if json.isEmpty then [] else [reader.chunk { content := some json } none])
    else
      match reader.toolCalls.get delta.index with
      | none => (reader, [])
      | some ordinal =>
        ({ reader with
            argumentBlocks :=
              if json.isEmpty then reader.argumentBlocks else reader.argumentBlocks.insert delta.index },
          [reader.chunk { toolCalls := some [{ index := ordinal, arguments := some json }] } none])

/-- A tool block that ends without arguments states the empty object. -/
def onBlockStop (reader : AnthropicReader) (index : Nat) : AnthropicReader × List ChatStreamEvent :=
  match reader.toolCalls.get index with
  | none => (reader, [])
  | some ordinal =>
    ({ reader with
        toolCalls := reader.toolCalls.delete index
        argumentBlocks := reader.argumentBlocks.filter fun block => decide (block ≠ index) },
      if index ∈ reader.argumentBlocks then []
      else [reader.chunk { toolCalls := some [{ index := ordinal, arguments := some (asciiUnits "\x7b\x7d") }] } none])

/-- The terminal chunk, and the usage where the caller asked for it and the upstream counted. -/
def onMessageDelta (reader : AnthropicReader) (stopReason : Option Units) (usage : Option Value) :
    AnthropicReader × List ChatStreamEvent :=
  let base := toOpenAiFinishReason stopReason
  let mapped : Option OpenAiFinishReason × Option Units :=
    if reader.structuredSeen = true ∧ stopReason = some (asciiUnits "tool_use") then (some .stop, none)
    else if 0 < reader.nextToolCall ∧ (base.1 = none ∨ base.1 = some .stop) then (some .toolCalls, base.2)
    else base
  let ended := { reader with finished := true, unrecognized := mapped.2.or reader.unrecognized }
  let counts := mergeUsage reader.startUsage (source.parseUsage usage)
  (ended, ended.chunk {} (some (mapped.1.getD conservativeFinishReason)) ::
      (if source.includeUsage then (counts.map fun counts => ChatStreamEvent.usage ended.id ended.model counts).toList
        else []))

/-- The error first, then a proper close. -/
def onError (reader : AnthropicReader) (payload : Value) : AnthropicReader × List ChatStreamEvent :=
  ({ reader with closed := true, finished := true }, [ChatStreamEvent.error (source.errorBody payload)] ++
      (if reader.finished then [] else [reader.chunk {} (some conservativeFinishReason)]) ++ [ChatStreamEvent.done])

/-- Take a frame in. -/
def push (reader : AnthropicReader) (frame : SseFrame) : AnthropicReader × List ChatStreamEvent :=
  if reader.closed then (reader, [])
  else
    match readAnthropicFrame source.parseJson frame with
    | .messageStart message => reader.onMessageStart source message
    | .blockStart block => reader.onBlockStart block
    | .blockDelta delta => reader.onBlockDelta delta
    | .blockStop index => reader.onBlockStop index
    | .messageDelta stopReason usage => reader.onMessageDelta source stopReason usage
    | .messageStop => ({ reader with closed := true }, [ChatStreamEvent.done])
    | .error payload => reader.onError source payload
    | .other => (reader, [])

/-- The upstream ended: a message that was finished is still owed the sentinel. -/
def flush (reader : AnthropicReader) : AnthropicReader × List ChatStreamEvent :=
  if reader.closed || !reader.finished then (reader, []) else ({ reader with closed := true }, [ChatStreamEvent.done])

/-- The events of the frames and of the flush after them. -/
def events (id model : Units) (frames : List SseFrame) : List ChatStreamEvent :=
  let pushed := emitFrom (push source) { id, model } frames
  pushed.2 ++ pushed.1.flush.2

end AnthropicReader

end MultiAiRouter.Translate.OpenAiChat
