import MultiAiRouter.Translate.Anthropic.Emitter
import MultiAiRouter.Translate.Sse.Parse
import MultiAiRouter.Common.Emit

/-!
# A chat completion stream, read into an Anthropic one

`openAiChatToAnthropicStream`: each frame is the end sentinel, an error, a chunk, or nothing that can be read. A
chunk becomes calls of the emitter; the call an entry of `tool_calls` belongs to is decided by its index, its id, or
the entry before it. How JSON, usage blocks and upstream errors are read is a parameter.
-/

namespace MultiAiRouter.Translate.Anthropic

open Common Translate.Sse

/-- An entry of `delta.tool_calls`. -/
structure ToolCallDelta where
  index : Option Nat
  id : Option Units
  name : Option Units
  arguments : Option Units
  deriving DecidableEq

/-- What the reader of calls remembers: the key of each id, how many keys it made, and the last one. -/
structure ToolCallReader where
  ids : List (Units × CallKey) := []
  unkeyed : Nat := 0
  last : Option CallKey := none
  deriving DecidableEq

namespace ToolCallReader

/-- A key of its own for a call that was given none. -/
def mint (reader : ToolCallReader) : ToolCallReader × CallKey :=
  let key := CallKey.text (asciiUnits "call#" ++ decimal (reader.unkeyed + 1))
  ({ reader with unkeyed := reader.unkeyed + 1, last := some key }, key)

/-- Remember the key of an id. -/
def setId (reader : ToolCallReader) (id : Units) (key : CallKey) : ToolCallReader :=
  { reader with ids := reader.ids.filter (fun entry => entry.1 != id) ++ [(id, key)] }

/-- The key of an entry: its index, else that of its id, known or new; an entry with a name begins a call, and one
with neither belongs to the last call. -/
def key (reader : ToolCallReader) (call : ToolCallDelta) : ToolCallReader × CallKey :=
  let id := call.id.getD []
  match call.index with
  | some index =>
    let indexed := { reader with last := some (.number index) }
    (if id.isEmpty then indexed else indexed.setId id (.number index), .number index)
  | none =>
    if !id.isEmpty then
      match reader.ids.lookup id with
      | some known => ({ reader with last := some known }, known)
      | none => (reader.mint.1.setId id reader.mint.2, reader.mint.2)
    else if !(call.name.getD []).isEmpty then reader.mint
    else
      match reader.last with
      | some last => (reader, last)
      | none => reader.mint

/-- The entries with their keys, in order. -/
def keys (reader : ToolCallReader) : List ToolCallDelta → ToolCallReader × List (CallKey × ToolCallDelta)
  | [] => (reader, [])
  | call :: rest =>
    let keyed := reader.key call
    let later := keys keyed.1 rest
    (later.1, (keyed.2, call) :: later.2)

end ToolCallReader

/-- The choice of a chunk that is read. -/
structure ChatChoice where
  reasoning : Units
  content : Units
  toolCalls : List ToolCallDelta
  finishReason : Option Units
  deriving DecidableEq

/-- A chunk: what names the message, the usage block, and the first choice. -/
structure ChatChunk where
  id : Option Units
  model : Option Units
  usage : Option Value
  choice : Option ChatChoice

/-- What a frame is read as. -/
inductive ChatFrame
  | done
  | failed (payload : Value)
  | chunk (chunk : ChatChunk)
  | unreadable

section Read

/-- The text of a field, absent where it is not one. -/
def textField (record : Record) (name : String) : Option Units :=
  (record.get (asciiUnits name)).bind Value.asString

/-- A whole number. -/
def integer : Value → Option Int
  | .number (.finite value) => if value.den = 1 ∧ value.num.natAbs ≤ 9007199254740991 then some value.num else none
  | _ => none

/-- The objects of an array, absent where one of its items is not an object. -/
def recordsField (record : Record) (name : String) : Option (List Record) :=
  match record.get (asciiUnits name) with
  | some (.array items) => items.mapM Value.asRecord
  | _ => none

def readToolCall (record : Record) : ToolCallDelta :=
  let function := ((record.get (asciiUnits "function")).bind Value.asRecord).getD []
  { index := ((record.get (asciiUnits "index")).bind integer).bind fun index =>
      if 0 ≤ index then some index.toNat else none
    id := textField record "id"
    name := textField function "name"
    arguments := textField function "arguments" }

def readChoice (record : Record) : ChatChoice :=
  let delta := ((record.get (asciiUnits "delta")).bind Value.asRecord).getD []
  { reasoning := ((textField delta "reasoning_content").or (textField delta "reasoning")).getD []
    content := (textField delta "content").getD []
    toolCalls := ((recordsField delta "tool_calls").getD []).map readToolCall
    finishReason := textField record "finish_reason" }

/-- The first choice of index zero; a choice that states no index is one. -/
def firstChoice (record : Record) : Option ChatChoice :=
  (((recordsField record "choices").getD []).find? fun choice =>
    (((choice.get (asciiUnits "index")).bind integer).getD 0) == 0).map readChoice

def readChunk (record : Record) : ChatChunk where
  id := textField record "id"
  model := textField record "model"
  usage := record.get (asciiUnits "usage")
  choice := firstChoice record

/-- Read a frame. -/
def readChatFrame (parseJson : Units → Option Value) (frame : SseFrame) : ChatFrame :=
  if frame.data = asciiUnits "[DONE]" then .done
  else
    match parseJson frame.data with
    | some (.object record) =>
      if (Record.get record (asciiUnits "error")).isSome then .failed (.object record) else .chunk (readChunk record)
    | _ => .unreadable

end Read

/-- A finish reason of the chat dialect in Anthropic's words, with the word that was not known. -/
def toAnthropicStopReason (reason : Units) : AnthropicStopReason × Option Units :=
  if reason = asciiUnits "stop" then (.endTurn, none)
  else if reason = asciiUnits "length" then (.maxTokens, none)
  else if reason = asciiUnits "tool_calls" then (.toolUse, none)
  else if reason = asciiUnits "content_filter" then (.endTurn, none)
  else if reason = asciiUnits "function_call" then (.toolUse, none)
  else (.endTurn, some reason)

/-- What the stream is read with: JSON, usage blocks, and the bodies of errors. -/
structure ChatSource (Usage : Type) where
  parseJson : Units → Option Value
  parseUsage : Option Value → Option Usage
  usageCounts : Option Usage → Record
  errorBody : Value → Value

/-- Everything the reader keeps. -/
structure ChatReader (Usage : Type) where
  emitter : Emitter
  toolCalls : ToolCallReader := {}
  hasToolCalls : Bool := false
  finishReason : Option Units := none
  usage : Option Usage := none
  unrecognized : Option Units := none

namespace ChatReader

variable {Usage : Type} (source : ChatSource Usage)

/-- The stream ends: a tool call outweighs a plain stop, and a reason nobody stated is the conservative one. -/
def terminate (reader : ChatReader Usage) : ChatReader Usage × List AnthropicEvent :=
  let mapped := reader.finishReason.elim (.endTurn, none) toAnthropicStopReason
  let stop := if reader.hasToolCalls && (reader.finishReason.isNone || reader.finishReason == some (asciiUnits "stop"))
    then AnthropicStopReason.toolUse else mapped.1
  let ended := reader.emitter.call (.terminate (some stop) (source.usageCounts reader.usage))
  ({ reader with emitter := ended.1, unrecognized := mapped.2.or reader.unrecognized }, ended.2)

/-- The calls an entry of `tool_calls` becomes. -/
def toolCallCalls (keyed : CallKey × ToolCallDelta) : List EmitterCall :=
  [EmitterCall.toolStart keyed.1 keyed.2.id keyed.2.name, EmitterCall.toolArgs keyed.1 (keyed.2.arguments.getD [])]

/-- The calls a choice becomes: a text block closes on a finish reason while no call was seen. -/
def choiceCalls (choice : ChatChoice) (keyed : List (CallKey × ToolCallDelta)) (hasToolCalls : Bool) :
    List EmitterCall :=
  [EmitterCall.start, EmitterCall.text choice.reasoning false .reasoning,
    EmitterCall.text choice.content false .message] ++
    keyed.flatMap toolCallCalls ++
    (if choice.finishReason.isSome && !hasToolCalls then [EmitterCall.closeBlock] else [])

/-- Take a chunk in. -/
def pushChunk (reader : ChatReader Usage) (chunk : ChatChunk) : ChatReader Usage × List AnthropicEvent :=
  let named :=
    { reader with
      emitter := reader.emitter.identify chunk.id chunk.model
      usage := (source.parseUsage chunk.usage).or reader.usage }
  match chunk.choice with
  | none => (named, [])
  | some choice =>
    let keyed := named.toolCalls.keys choice.toolCalls
    let hasToolCalls := named.hasToolCalls || !choice.toolCalls.isEmpty
    let emitted := emitFrom Emitter.call named.emitter (choiceCalls choice keyed.2 hasToolCalls)
    ({ named with
        emitter := emitted.1
        toolCalls := keyed.1
        hasToolCalls
        finishReason := choice.finishReason.or named.finishReason }, emitted.2)

/-- Take a frame in. -/
def push (reader : ChatReader Usage) (frame : SseFrame) : ChatReader Usage × List AnthropicEvent :=
  if reader.emitter.terminated then (reader, [])
  else
    match readChatFrame source.parseJson frame with
    | .done => reader.terminate source
    | .failed payload =>
      let failed := reader.emitter.call (.fail (source.errorBody payload))
      ({ reader with emitter := failed.1 }, failed.2)
    | .chunk chunk => reader.pushChunk source chunk
    | .unreadable => (reader, [])

/-- The upstream ended: a stream without a finish reason was truncated and is given no ending. -/
def flush (reader : ChatReader Usage) : ChatReader Usage × List AnthropicEvent :=
  if reader.emitter.terminated || reader.finishReason.isNone then (reader, []) else reader.terminate source

/-- The reader at the start of a stream. -/
def begin (id model : Units) (limit : Nat) : ChatReader Usage where
  emitter := { id, model, pending := { limit } }

/-- The events of the frames and of the flush after them. -/
def events (id model : Units) (limit : Nat) (frames : List SseFrame) : List AnthropicEvent :=
  let pushed := emitFrom (push source) (begin id model limit) frames
  pushed.2 ++ (pushed.1.flush source).2

end ChatReader

end MultiAiRouter.Translate.Anthropic
