import MultiAiRouter.Translate.OpenAiChat.AnthropicStream

/-!
# The Responses stream emitter

`createResponsesStreamEmitter`: a response is a list of items, of which one is open at a time. Its text streams, and
closing it states the text again. A function call stays open to the end; what arrives for other items meanwhile
waits in the queue. The terminal event states all items once more; part numbers are always zero and left out.

`openAiChatToOpenAiResponsesStream` reads the frames: reasoning goes before the text and the text before the calls,
and the terminal event waits for the sentinel or the end. How JSON, usage and upstream errors are read is a
parameter.
-/

namespace MultiAiRouter.Translate.Responses

open Common Translate.Anthropic

/-- The type of an output item: `message` or `reasoning`, or `function_call`. -/
inductive ItemKind
  | text (kind : FragmentKind)
  | functionCall
  deriving DecidableEq

/-- An item as it is now: the text of a message, the summary of a reasoning, or a call. -/
inductive ResponsesOutputItem
  | text (kind : FragmentKind) (id text : Units)
  | functionCall (id callId name arguments : Units)
  deriving DecidableEq

/-- An item that is being filled in, and the call it belongs to. -/
structure ResponsesItemDraft where
  kind : ItemKind
  index : Nat
  id : Units
  key : Option CallKey
  text : Units
  callId : Units
  name : Units
  deriving DecidableEq

/-- The item a draft describes. -/
def responsesDraftItem (draft : ResponsesItemDraft) : ResponsesOutputItem :=
  match draft.kind with
  | .text kind => .text kind draft.id draft.text
  | .functionCall => .functionCall draft.id draft.callId draft.name draft.text

/-- The item is announced, or done. -/
inductive ItemStatus
  | inProgress
  | completed
  deriving DecidableEq

/-- An item as JSON: the parts of a message and of a summary are lists, and a summary has no status. -/
inductive ItemJson
  | message (id : Units) (status : ItemStatus) (content : List Units)
  | functionCall (id : Units) (status : ItemStatus) (callId name arguments : Units)
  | reasoning (id : Units) (summary : List Units)
  deriving DecidableEq

/-- An item in progress states no text; a call states the arguments it has. -/
def responsesItemJson (item : ResponsesOutputItem) (status : ItemStatus) : ItemJson :=
  match item with
  | .text .message id text => .message id status (if status = .inProgress then [] else [text])
  | .functionCall id callId name arguments => .functionCall id status callId name arguments
  | .text .reasoning id text => .reasoning id (if status = .inProgress then [] else [text])

/-- The id of an item, from the id of the response and its position. -/
def responsesItemId (kind : ItemKind) (responseId : Units) (index : Nat) : Units :=
  (match kind with
    | .text .message => asciiUnits "msg"
    | .functionCall => asciiUnits "fc"
    | .text .reasoning => asciiUnits "rs") ++ asciiUnits "_" ++ responseId ++ asciiUnits "_" ++ decimal index

inductive ResponsesStatus
  | inProgress
  | completed
  | incomplete
  | failed
  deriving DecidableEq

structure ResponsesError where
  code : Option Units
  message : Units
  deriving DecidableEq

/-- The response as an event states it; usage nobody counted is absent. -/
structure ResponsesBody where
  id : Units
  model : Units
  created : Int
  status : ResponsesStatus
  output : List ItemJson
  incompleteReason : Option Units
  error : Option ResponsesError
  usage : Option Record

/-- What an event states. Messages and reasoning differ only in the names of their events. -/
inductive ResponsesPayload
  | created (response : ResponsesBody)
  | inProgress (response : ResponsesBody)
  | outputItemAdded (outputIndex : Nat) (item : ItemJson)
  /-- `response.content_part.added`, `response.reasoning_summary_part.added` -/
  | partAdded (kind : FragmentKind) (itemId : Units) (outputIndex : Nat) (text : Units)
  /-- `response.output_text.delta`, `response.reasoning_summary_text.delta` -/
  | textDelta (kind : FragmentKind) (itemId : Units) (outputIndex : Nat) (delta : Units)
  /-- `response.output_text.done`, `response.reasoning_summary_text.done` -/
  | textDone (kind : FragmentKind) (itemId : Units) (outputIndex : Nat) (text : Units)
  /-- `response.content_part.done`, `response.reasoning_summary_part.done` -/
  | partDone (kind : FragmentKind) (itemId : Units) (outputIndex : Nat) (text : Units)
  | argumentsDelta (itemId : Units) (outputIndex : Nat) (delta : Units)
  | argumentsDone (itemId : Units) (outputIndex : Nat) (arguments : Units)
  | outputItemDone (outputIndex : Nat) (item : ItemJson)
  | completed (response : ResponsesBody)
  | incomplete (response : ResponsesBody)
  | failed (response : ResponsesBody)
  | error (code message : Units)

/-- An event with its number. -/
structure ResponsesEvent where
  sequenceNumber : Nat
  payload : ResponsesPayload

/-- What a finished item states before the next one opens. -/
def responsesDoneEvents (item : ResponsesOutputItem) (outputIndex : Nat) : List ResponsesPayload :=
  match item with
  | .text kind id text => [.textDone kind id outputIndex text, .partDone kind id outputIndex text]
  | .functionCall id _ _ arguments => [.argumentsDone id outputIndex arguments]

/-- How a response ends. -/
structure ResponsesStreamEnd where
  /-- The model stopped early. -/
  incomplete : Bool
  incompleteReason : Option Units
  usage : Option Record

/-- Everything the emitter keeps. -/
structure Emitter where
  id : Units := []
  model : Units := []
  created : Int
  started : Bool := false
  terminated : Bool := false
  failed : Bool := false
  sequence : Nat := 0
  current : Option ResponsesItemDraft := none
  items : List ResponsesOutputItem := []
  toolItems : InsertionMap CallKey Nat := {}
  pending : PendingStreamBlocks

namespace Emitter

/-- State something under the next number. -/
def event (emitter : Emitter) (payload : ResponsesPayload) : Emitter × List ResponsesEvent :=
  ({ emitter with sequence := emitter.sequence + 1 }, [{ sequenceNumber := emitter.sequence, payload }])

/-- State several things in order. -/
def events (emitter : Emitter) : List ResponsesPayload → Emitter × List ResponsesEvent
  | [] => (emitter, [])
  | payload :: rest => emitThen (emitter.event payload) fun stated => stated.events rest

/-- The response as it is now: an announced one states no items. -/
def body (emitter : Emitter) (status : ResponsesStatus) (incompleteReason : Option Units) (usage : Option Record)
    (error : Option ResponsesError) : ResponsesBody where
  id := emitter.id
  model := emitter.model
  created := emitter.created
  status
  output := (if status = .inProgress then [] else emitter.items).map fun item => responsesItemJson item .completed
  incompleteReason
  error
  usage

/-- Close the open item: state its text again, and keep it. -/
def closeOpen (emitter : Emitter) : Emitter × List ResponsesEvent :=
  match emitter.current with
  | none => (emitter, [])
  | some draft =>
    let item := responsesDraftItem draft
    emitThen ({ emitter with current := none }.events (responsesDoneEvents item draft.index)) fun stated =>
      { stated with items := stated.items ++ [item] }.event
        (.outputItemDone draft.index (responsesItemJson item .completed))

/-- An empty item of the kind, after all that are closed. -/
def draft (emitter : Emitter) (kind : ItemKind) (key : Option CallKey) (callId name : Units) : ResponsesItemDraft where
  kind
  index := emitter.items.length
  id := responsesItemId kind emitter.id emitter.items.length
  key
  text := []
  callId
  name

/-- Announce the open item. -/
def added (emitter : Emitter) (draft : ResponsesItemDraft) : Emitter × List ResponsesEvent :=
  emitter.event (.outputItemAdded draft.index (responsesItemJson (responsesDraftItem draft) .inProgress))

/-- Open an item for a call. -/
def openCall (emitter : Emitter) (key : CallKey) (id name : Option Units) : Emitter × List ResponsesEvent :=
  emitThen emitter.closeOpen fun closed =>
    let draft := closed.draft .functionCall (some key) (id.getD []) (name.getD [])
    { closed with current := some draft, toolItems := closed.toolItems.set key draft.index }.added draft

/-- Arguments for the open call. -/
def callArgs (emitter : Emitter) (draft : ResponsesItemDraft) (partialJson : Units) : Emitter × List ResponsesEvent :=
  { emitter with current := some { draft with text := draft.text ++ partialJson } }.event
    (.argumentsDelta draft.id draft.index partialJson)

/-- The open item is a call. -/
def callOpen (emitter : Emitter) : Bool := emitter.current.any fun draft => draft.kind == .functionCall

/-- The queue is over its limit. -/
def overflow (emitter : Emitter) : Emitter × List ResponsesEvent :=
  { emitter with terminated := true, failed := true }.event
    (.error (asciiUnits "translation_pending_overflow")
      (asciiUnits "Translation pending fragments exceed their configured limit"))

/-- The queue after a fragment was put into it, or the end of the stream. -/
def holdOr (emitter : Emitter) (held : Option PendingStreamBlocks) : Emitter × List ResponsesEvent :=
  match held with
  | some pending => ({ emitter with pending }, [])
  | none => emitter.overflow

/-- Text for the open item. -/
def appendText (emitter : Emitter) (draft : ResponsesItemDraft) (kind : FragmentKind) (delta : Units) :
    Emitter × List ResponsesEvent :=
  { emitter with current := some { draft with text := draft.text ++ delta } }.event
    (.textDelta kind draft.id draft.index delta)

/-- Open an item for text. -/
def openText (emitter : Emitter) (kind : FragmentKind) (delta : Units) : Emitter × List ResponsesEvent :=
  emitThen emitter.closeOpen fun closed =>
    let draft := closed.draft (.text kind) none [] []
    emitThen ({ closed with current := some draft }.added draft) fun announced =>
      emitThen (announced.event (.partAdded kind draft.id draft.index [])) fun parted =>
        parted.appendText draft kind delta

/-- Text arrives: it waits behind an open call, joins the open item of its kind, or opens one. -/
def streamText (emitter : Emitter) (kind : FragmentKind) (delta : Units) : Emitter × List ResponsesEvent :=
  if delta.isEmpty then (emitter, [])
  else if emitter.callOpen then emitter.holdOr (emitter.pending.text delta kind false)
  else
    match emitter.current.filter fun draft => draft.kind == .text kind with
    | some draft => emitter.appendText draft kind delta
    | none => emitter.openText kind delta

/-- Open a call that waited and state its arguments. -/
def replayCall (emitter : Emitter) (call : PendingCall) : Emitter × List ResponsesEvent :=
  emitThen (emitter.openCall call.key call.id call.name) fun opened =>
    match opened.current with
    | some draft => if call.args.isEmpty then (opened, []) else opened.callArgs draft call.args
    | none => (opened, [])

/-- One block that waited: opened, stated and closed. -/
def replay (emitter : Emitter) : PendingStreamBlock → Emitter × List ResponsesEvent
  | .text text kind _ _ => emitThen (emitter.streamText kind text) closeOpen
  | .call call => emitThen (emitter.replayCall call) closeOpen

/-- Close the open item, and then each that waited. -/
def closeItem (emitter : Emitter) : Emitter × List ResponsesEvent :=
  emitThen emitter.closeOpen fun closed =>
    emitFrom replay { closed with pending := closed.pending.drained } closed.pending.queue

/-- The pair every stream opens with, once. -/
def start (emitter : Emitter) : Emitter × List ResponsesEvent :=
  if emitter.started then (emitter, [])
  else
    let response := emitter.body .inProgress none none none
    { emitter with started := true }.events [.created response, .inProgress response]

/-- The upstream named the response. -/
def identify (emitter : Emitter) (id model : Option Units) : Emitter :=
  { emitter with id := id.getD emitter.id, model := model.getD emitter.model }

/-- A call is seen: its item opens, unless another call's is open. -/
def toolStart (emitter : Emitter) (key : CallKey) (id name : Option Units) : Emitter × List ResponsesEvent :=
  if emitter.terminated then (emitter, [])
  else if (emitter.toolItems.get key).isSome then (emitter, [])
  else if emitter.callOpen then emitter.holdOr (emitter.pending.add key id name)
  else emitter.openCall key id name

/-- Arguments of a call: stated if its item is open, kept if it waits for one. -/
def toolArgs (emitter : Emitter) (key : CallKey) (partialJson : Units) : Emitter × List ResponsesEvent :=
  if emitter.terminated || partialJson.isEmpty then (emitter, [])
  else
    match emitter.current.filter fun draft => draft.key == some key with
    | some draft => emitter.callArgs draft partialJson
    | none => emitter.holdOr (emitter.pending.append key partialJson)

/-- The stream ends. -/
def complete (emitter : Emitter) (ending : ResponsesStreamEnd) : Emitter × List ResponsesEvent :=
  if emitter.terminated then (emitter, [])
  else
    emitThen { emitter with terminated := true }.start fun started =>
      emitThen started.closeItem fun closed =>
        if ending.incomplete then
          closed.event (.incomplete (closed.body .incomplete ending.incompleteReason ending.usage none))
        else closed.event (.completed (closed.body .completed ending.incompleteReason ending.usage none))

/-- The upstream failed. -/
def fail (emitter : Emitter) (error : ResponsesError) : Emitter × List ResponsesEvent :=
  { emitter with terminated := true }.event (.failed (emitter.body .failed none none (some error)))

end Emitter

open Translate.Sse
open Translate.OpenAiChat (OpenAiFinishReason conservativeFinishReason)

/-- A finish reason, with the word that was not known. -/
def readOpenAiFinishReason : Option Units → Option OpenAiFinishReason × Option Units
  | none => (none, none)
  | some reason =>
    if reason = asciiUnits "stop" then (some .stop, none)
    else if reason = asciiUnits "length" then (some .length, none)
    else if reason = asciiUnits "tool_calls" then (some .toolCalls, none)
    else if reason = asciiUnits "content_filter" then (some .contentFilter, none)
    else (some conservativeFinishReason, some reason)

/-- A finish reason as the ending of a response; a call is no incompleteness. -/
def toResponsesCompletion (reason : Option OpenAiFinishReason) (usage : Option Record) : ResponsesStreamEnd :=
  match reason with
  | some .length => { incomplete := true, incompleteReason := some (asciiUnits "max_output_tokens"), usage }
  | some .contentFilter => { incomplete := true, incompleteReason := some (asciiUnits "content_filter"), usage }
  | _ => { incomplete := false, incompleteReason := none, usage }

/-- What the stream is read with: JSON, usage blocks as a response states them, and upstream errors. -/
structure ChatSource (Usage : Type) where
  parseJson : Units → Option Value
  parseUsage : Option Value → Option Usage
  responsesUsage : Usage → Option Record
  errorDetail : Value → ResponsesError

/-- Everything the reader keeps. -/
structure ChatReader (Usage : Type) where
  emitter : Emitter
  toolCalls : ToolCallReader := {}
  hasToolCalls : Bool := false
  finishReason : Option Units := none
  usage : Option Usage := none
  unrecognized : Option Units := none

namespace ChatReader

variable {Usage : Type} (source : ChatSource Usage)

/-- The stream ends. -/
def terminate (reader : ChatReader Usage) : ChatReader Usage × List ResponsesEvent :=
  let mapped := readOpenAiFinishReason reader.finishReason
  let ended := reader.emitter.complete (toResponsesCompletion mapped.1 (reader.usage.bind source.responsesUsage))
  ({ reader with emitter := ended.1, unrecognized := mapped.2.or reader.unrecognized }, ended.2)

/-- An entry of `tool_calls`: the call is seen, and then its arguments. -/
def toolCall (emitter : Emitter) (keyed : CallKey × ToolCallDelta) : Emitter × List ResponsesEvent :=
  emitThen (emitter.toolStart keyed.1 keyed.2.id keyed.2.name) fun seen =>
    seen.toolArgs keyed.1 (keyed.2.arguments.getD [])

/-- What a choice makes the emitter do: items close on a finish reason while no call was seen. -/
def choiceEvents (emitter : Emitter) (choice : ChatChoice) (keyed : List (CallKey × ToolCallDelta))
    (hasToolCalls : Bool) : Emitter × List ResponsesEvent :=
  emitThen emitter.start fun started =>
    emitThen (started.streamText .reasoning choice.reasoning) fun reasoned =>
      emitThen (reasoned.streamText .message choice.content) fun said =>
        emitThen (emitFrom toolCall said keyed) fun called =>
          if choice.finishReason.isSome && !hasToolCalls then called.closeItem else (called, [])

/-- Take a chunk in. -/
def pushChunk (reader : ChatReader Usage) (chunk : ChatChunk) : ChatReader Usage × List ResponsesEvent :=
  let named :=
    { reader with
      emitter := reader.emitter.identify chunk.id chunk.model
      usage := (source.parseUsage chunk.usage).or reader.usage }
  match chunk.choice with
  | none => (named, [])
  | some choice =>
    let keyed := named.toolCalls.keys choice.toolCalls
    let hasToolCalls := named.hasToolCalls || !choice.toolCalls.isEmpty
    let emitted := choiceEvents named.emitter choice keyed.2 hasToolCalls
    ({ named with
        emitter := emitted.1
        toolCalls := keyed.1
        hasToolCalls
        finishReason := choice.finishReason.or named.finishReason }, emitted.2)

/-- Take a frame in. -/
def push (reader : ChatReader Usage) (frame : SseFrame) : ChatReader Usage × List ResponsesEvent :=
  if reader.emitter.terminated then (reader, [])
  else
    match readChatFrame source.parseJson frame with
    | .done => reader.terminate source
    | .failed payload =>
      let failed := reader.emitter.fail (source.errorDetail payload)
      ({ reader with emitter := failed.1 }, failed.2)
    | .chunk chunk => reader.pushChunk source chunk
    | .unreadable => (reader, [])

/-- The upstream ended: a stream without a finish reason was truncated and is given no ending. -/
def flush (reader : ChatReader Usage) : ChatReader Usage × List ResponsesEvent :=
  if reader.emitter.terminated || reader.finishReason.isNone then (reader, []) else reader.terminate source

/-- The reader at the start of a stream. -/
def begin (id model : Units) (created : Int) (limit : Nat) : ChatReader Usage where
  emitter := { id, model, created, pending := { limit } }

/-- The events of the frames and of the flush after them. -/
def events (id model : Units) (created : Int) (limit : Nat) (frames : List SseFrame) : List ResponsesEvent :=
  (emitThen (emitFrom (push source) (begin id model created limit) frames) (flush source)).2

end ChatReader

end MultiAiRouter.Translate.Responses
