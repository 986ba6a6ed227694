import MultiAiRouter.Translate.Anthropic.ChatStream

/-!
# A Responses stream, read into an Anthropic one

`openAiResponsesToAnthropicStream`: a frame is expanded into payloads, the identity of a payload's item is resolved,
a final snapshot is turned into the suffix it adds, and the event that is left becomes calls of the emitter. Those
first stages are parameters here.
-/

namespace MultiAiRouter.Translate.Anthropic

open Common Translate.Sse

/-- An output item, as far as it is read. -/
structure ResponsesItem where
  type : Option Units
  id : Option Units
  callId : Option Units
  name : Option Units
  encryptedContent : Option Units

/-- A response object, as far as it is read. -/
structure ResponsesResponse where
  id : Option Units
  model : Option Units
  status : Option Units
  incompleteReason : Option Units
  usage : Option Value
  error : Option Value

/-- A parsed event. -/
structure ResponsesEvent where
  type : Option Units
  response : Option ResponsesResponse
  item : Option ResponsesItem
  itemId : Option Units
  outputIndex : Option Int
  delta : Option Units
  contentIndex : Option Nat
  summaryIndex : Option Nat

/-- The events that are acted on. -/
inductive ResponsesEventKind
  | created
  | itemAdded
  | textDelta
  | summaryDelta
  | argumentsDelta
  | itemDone
  | completed
  | failed
  | error
  | other
  deriving DecidableEq

/-- What an event's type names. -/
def eventKind (type : Units) : ResponsesEventKind :=
  if type = asciiUnits "response.created" ∨ type = asciiUnits "response.in_progress" then .created
  else if type = asciiUnits "response.output_item.added" then .itemAdded
  else if type = asciiUnits "response.output_text.delta" ∨ type = asciiUnits "response.refusal.delta" then .textDelta
  else if type = asciiUnits "response.reasoning_summary_text.delta" then .summaryDelta
  else if type = asciiUnits "response.function_call_arguments.delta" then .argumentsDelta
  else if type = asciiUnits "response.output_item.done" then .itemDone
  else if type = asciiUnits "response.completed" ∨ type = asciiUnits "response.incomplete" then .completed
  else if type = asciiUnits "response.failed" then .failed
  else if type = asciiUnits "error" then .error
  else .other

/-- The stages before the reader, and how usage blocks and errors are read. -/
structure ResponsesSource (Identity Recovery : Type) where
  finalEvents : SseFrame → List Value
  validTextIdentity : Value → Option Units → Bool
  resolveIdentity : Identity → Value → Option Units → Identity × Except Value Value
  recoverSnapshot : Recovery → Value → Recovery × Except Value Value
  parse : Value → Option ResponsesEvent
  usageCounts : Option Value → Record
  errorBody : Value → Value
  reasoningSeal : Option (Units → Units)

/-- The item and the part the last text belonged to. -/
structure TextPlace where
  item : Option CallKey
  part : Option CallKey
  deriving DecidableEq

/-- Everything the reader keeps. -/
structure ResponsesReader (Identity Recovery : Type) where
  emitter : Emitter
  identity : Identity
  recovery : Recovery
  unrecognized : Option Units := none
  failed : Bool := false
  sawToolCall : Bool := false
  unkeyed : Nat := 0
  knownCalls : List CallKey := []
  textPlace : Option TextPlace := none
  summaryPlace : Option TextPlace := none

/-- A field that is neither missing nor null. -/
def presentField (record : Record) (name : String) : Option Value :=
  match record.get (asciiUnits name) with
  | none | some .null => none
  | some value => some value

/-- A key of its own for the last item that was given none. -/
def unkeyedKey (unkeyed : Nat) : CallKey := .text (asciiUnits "item#" ++ decimal unkeyed)

/-- The call that arguments belong to, as the raw event states it; no other type is a key. -/
def rawKey (raw : Record) (unkeyed : Nat) : Option CallKey :=
  match (presentField raw "item_id").or (presentField raw "output_index") with
  | none => some (unkeyedKey unkeyed)
  | some (.string id) => some (.text id)
  | some value => (integer value).map CallKey.number

/-- The raw event states arguments of a call. -/
def statesArguments (raw : Record) : Bool :=
  (textField raw "type").any fun type => (asciiUnits "response.function_call_arguments.").isPrefixOf type

/-- The item of an event: its id, or its place in the output. -/
def ResponsesEvent.place (event : ResponsesEvent) : Option CallKey :=
  (event.itemId.map CallKey.text).or (event.outputIndex.map CallKey.number)

/-- A piece of text: the text to emit, and whether it begins a block of its own. -/
structure TextPiece where
  text : Units
  newItem : Bool

/-- Where a text delta sits: another item begins a block, another part of the same item adds a newline. -/
def textBoundary (previous : Option TextPlace) (event : ResponsesEvent) : Option (TextPlace × TextPiece) :=
  let delta := event.delta.getD []
  if delta.isEmpty || (event.outputIndex.any fun index => index < 0) then none
  else
    let here : TextPlace :=
      { item := event.place
        part := some ((event.contentIndex.map fun index => CallKey.number index).getD
          (.text (event.type.getD (asciiUnits "null")))) }
    let newItem := previous.any fun place => place.item != here.item
    let newPart := previous.any fun place => place.part != here.part
    some (here, { text := (if newPart && !newItem then asciiUnits "\n" else []) ++ delta, newItem })

/-- Where a summary delta sits: the first of an item begins a block, another part adds a newline. -/
def summaryBoundary (previous : Option TextPlace) (event : ResponsesEvent) : Option (TextPlace × TextPiece) :=
  let delta := event.delta.getD []
  if delta.isEmpty then none
  else
    let here : TextPlace :=
      { item := event.place, part := event.summaryIndex.map fun index => CallKey.number index }
    let newItem := !(previous.any fun place => place.item == here.item)
    let newPart := !newItem && previous.any fun place => place.part != here.part
    some (here, { text := (if newPart then asciiUnits "\n" else []) ++ delta, newItem })

/-- A response's status and reason in the chat dialect's words, with the word that was not known. -/
def fromResponsesCompletion (status incompleteReason : Option Units) (hasToolCall : Bool) :
    Option Units × Option Units :=
  if status = some (asciiUnits "completed") then
    (some (asciiUnits (if hasToolCall then "tool_calls" else "stop")), none)
  else if status ≠ some (asciiUnits "incomplete") then (none, none)
  else if incompleteReason = some (asciiUnits "max_output_tokens") then (some (asciiUnits "length"), none)
  else if incompleteReason = some (asciiUnits "content_filter") then (some (asciiUnits "content_filter"), none)
  else (some (asciiUnits "stop"), some (incompleteReason.getD (asciiUnits "incomplete")))

namespace ResponsesReader

variable {Identity Recovery : Type} (source : ResponsesSource Identity Recovery)

/-- A finished reasoning item under the account's seal. -/
def sealedReasoning (item : Option ResponsesItem) : Option Units :=
  source.reasoningSeal.bind fun sealText =>
    item.bind fun item =>
      if item.type = some (asciiUnits "reasoning") then item.encryptedContent.map sealText else none

/-- What an event changes in the reader, and the calls it becomes. -/
def act (reader : ResponsesReader Identity Recovery) (payload : Value) (event : ResponsesEvent)
    (kind : ResponsesEventKind) : ResponsesReader Identity Recovery × List EmitterCall :=
  let isCall := (event.item.bind ResponsesItem.type) == some (asciiUnits "function_call")
  match kind with
  | .created =>
    (reader, [EmitterCall.identify (event.response.bind ResponsesResponse.id)
      (event.response.bind ResponsesResponse.model), EmitterCall.start])
  | .itemAdded =>
    if isCall then
      let stated := ((event.item.bind ResponsesItem.id).map CallKey.text).or (event.outputIndex.map CallKey.number)
      let unkeyed := if stated.isNone then reader.unkeyed + 1 else reader.unkeyed
      let key := stated.getD (unkeyedKey unkeyed)
      ({ reader with sawToolCall := true, unkeyed, knownCalls := key :: reader.knownCalls },
        [EmitterCall.start, EmitterCall.toolStart key (event.item.bind ResponsesItem.callId)
          (event.item.bind ResponsesItem.name)])
    else (reader, [])
  | .textDelta =>
    match textBoundary reader.textPlace event with
    | none => (reader, [])
    | some (here, piece) =>
      ({ reader with textPlace := some here },
        [EmitterCall.start, EmitterCall.text piece.text piece.newItem .message])
  | .summaryDelta =>
    match summaryBoundary reader.summaryPlace event with
    | none => (reader, [])
    | some (here, piece) =>
      ({ reader with summaryPlace := some here },
        [EmitterCall.start, EmitterCall.text piece.text piece.newItem .reasoning])
  | .argumentsDelta =>
    (reader, [EmitterCall.toolArgs (event.place.getD (unkeyedKey reader.unkeyed)) (event.delta.getD [])])
  | .itemDone =>
    match sealedReasoning source event.item with
    | some sealed => (reader, [EmitterCall.start, EmitterCall.sealReasoning sealed])
    | none =>
      if isCall then
        let key := (((event.item.bind ResponsesItem.id).map CallKey.text).or
          (event.outputIndex.map CallKey.number)).getD (unkeyedKey reader.unkeyed)
        (reader, [EmitterCall.toolDone key])
      else (reader, [EmitterCall.closeTextBlock])
  | .completed =>
    let finish := fromResponsesCompletion (event.response.bind ResponsesResponse.status)
      (event.response.bind ResponsesResponse.incompleteReason) reader.sawToolCall
    let stop := finish.1.map toAnthropicStopReason
    ({ reader with unrecognized := (finish.2.or (stop.bind Prod.snd)).or reader.unrecognized },
      [EmitterCall.terminate (stop.map Prod.fst) (source.usageCounts (event.response.bind ResponsesResponse.usage))])
  | .failed =>
    (reader, [EmitterCall.fail (source.errorBody ((event.response.bind ResponsesResponse.error).getD payload))])
  | .error => (reader, [EmitterCall.fail (source.errorBody payload)])
  | .other => (reader, [])

/-- Make the calls. -/
def emit (reader : ResponsesReader Identity Recovery) (calls : List EmitterCall) :
    ResponsesReader Identity Recovery × List AnthropicEvent :=
  let emitted := emitFrom Emitter.call reader.emitter calls
  ({ reader with emitter := emitted.1 }, emitted.2)

/-- A stage refused the payload. -/
def refuse (reader : ResponsesReader Identity Recovery) (detail : Value) :
    ResponsesReader Identity Recovery × List AnthropicEvent :=
  emit { reader with failed := true } [EmitterCall.fail (source.errorBody detail)]

/-- An event that came through the stages. -/
def recovered (reader : ResponsesReader Identity Recovery) (payload event : Value) (fallbackType : Option Units) :
    ResponsesReader Identity Recovery × List AnthropicEvent :=
  match source.parse event with
  | none => (reader, [])
  | some parsed =>
    let kind := ((parsed.type.or fallbackType).map eventKind).getD .other
    let acted := reader.act source payload parsed kind
    emit acted.1 acted.2

/-- Take a payload in. -/
def process (reader : ResponsesReader Identity Recovery) (payload : Value) (fallbackType : Option Units) :
    ResponsesReader Identity Recovery × List AnthropicEvent :=
  if reader.emitter.terminated then (reader, [])
  else if !source.validTextIdentity payload fallbackType then (reader, [])
  else
    let resolved := source.resolveIdentity reader.identity payload fallbackType
    let identified := { reader with identity := resolved.1 }
    match resolved.2 with
    | .error detail => identified.refuse source detail
    | .ok raw =>
      let fields := raw.asRecord.getD []
      if statesArguments fields && !((rawKey fields identified.unkeyed).any fun key => key ∈ identified.knownCalls) then
        (identified, [])
      else
        let snapshot := source.recoverSnapshot identified.recovery raw
        let kept := { identified with recovery := snapshot.1 }
        match snapshot.2 with
        | .error detail => kept.refuse source detail
        | .ok event => kept.recovered source payload event fallbackType

/-- Take a frame in: every payload it stands for. -/
def push (reader : ResponsesReader Identity Recovery) (frame : SseFrame) :
    ResponsesReader Identity Recovery × List AnthropicEvent :=
  emitFrom (fun reader payload => process source reader payload frame.event) reader (source.finalEvents frame)

/-- The events of the frames; the flush after them adds nothing. -/
def events (identity : Identity) (recovery : Recovery) (id model : Units) (limit : Nat) (frames : List SseFrame) :
    List AnthropicEvent :=
  (emitFrom (push source) { emitter := { id, model, pending := { limit } }, identity, recovery } frames).2

end ResponsesReader

end MultiAiRouter.Translate.Anthropic
