import MultiAiRouter.Common.Emit
import MultiAiRouter.Common.Json.Value

/-!
# One agent loop, one message

The wire events an SDK stream carries, and the map from the SDK's block indices to the client's: a block is known by
its turn and its index in it, and a start that is kept gets the next index until the block's stop. The envelope
turns the events of every internal turn into one message. An upstream error, a failure and the end of the loop are
terminal.
-/

namespace MultiAiRouter.ClaudeSdk.Render

open Common

/-- The types of wire events and client frames. -/
inductive WireType
  | messageStart
  | contentBlockStart
  | contentBlockDelta
  | contentBlockStop
  | messageDelta
  | messageStop
  | ping
  | error
  | other (name : Units)
  deriving DecidableEq

/-- A raw wire event: its type, the SDK's own block index, and its other fields. -/
structure WireEvent where
  type : WireType
  index : Option Nat := none
  raw : Record := []

/-- A frame the client sees. -/
structure ClientFrame where
  type : WireType
  index : Option Nat := none
  fields : Record := []

/-- The counts of a usage block; one that nobody stated is absent. -/
structure SdkUsage where
  inputTokens : Option Nat
  outputTokens : Option Nat
  cacheCreationInputTokens : Option Nat
  cacheReadInputTokens : Option Nat
  deriving DecidableEq

/-- The largest integer that a count may be. -/
def maxSafeInteger : Nat := 9007199254740991

/-- A count is a whole number that is not negative; anything else is absent. -/
def tokenCount : Option Value → Option Nat
  | some (.number (.finite value)) =>
    if value.den = 1 ∧ 0 ≤ value.num ∧ value.num ≤ maxSafeInteger then some value.num.toNat else none
  | _ => none

/-- The usage block, where the value is one. -/
def readUsage (value : Option Value) : Option SdkUsage :=
  (value.bind Value.asRecord).map fun usage =>
    { inputTokens := tokenCount (usage.get (asciiUnits "input_tokens"))
      outputTokens := tokenCount (usage.get (asciiUnits "output_tokens"))
      cacheCreationInputTokens := tokenCount (usage.get (asciiUnits "cache_creation_input_tokens"))
      cacheReadInputTokens := tokenCount (usage.get (asciiUnits "cache_read_input_tokens")) }

/-- A field that is a text, null or missing; nothing for a field of another type. -/
def nullishString : Option Value → Option (Option Units)
  | none | some .null => some none
  | some (.string text) => some (some text)
  | some _ => none

/-- Two texts of the record in a field, both absent where the record is not of that shape. -/
def readTexts (raw : Record) (field first second : String) : Option Units × Option Units :=
  match raw.get (asciiUnits field) with
  | some (.object record) =>
    match nullishString (Record.get record (asciiUnits first)),
      nullishString (Record.get record (asciiUnits second)) with
    | some one, some other => (one, other)
    | _, _ => (none, none)
  | _ => (none, none)

/-- The id and model a `message_start` named. -/
def readMessageFacts (raw : Record) : Option Units × Option Units := readTexts raw "message" "id" "model"

/-- The stop reason and stop sequence a `message_delta` stated. -/
def readStopFacts (raw : Record) : Option Units × Option Units :=
  readTexts raw "delta" "stop_reason" "stop_sequence"

/-- A text, or null. -/
def orNull (text : Option Units) : Value := text.elim .null .string

/-- A count. -/
def countValue (count : Nat) : Value := .number (.finite count)

/-- The usage block of the last `message_delta`: only the output count is always stated. -/
def outputCounts (usage : Option SdkUsage) : Record :=
  let stated (name : String) (count : Option Nat) : Record :=
    (count.map fun count => (asciiUnits name, countValue count)).toList
  (asciiUnits "output_tokens", countValue ((usage.bind SdkUsage.outputTokens).getD 0)) ::
    (stated "input_tokens" (usage.bind SdkUsage.inputTokens) ++
      stated "cache_creation_input_tokens" (usage.bind SdkUsage.cacheCreationInputTokens) ++
      stated "cache_read_input_tokens" (usage.bind SdkUsage.cacheReadInputTokens))

/-- The SDK's `message_start` with the id and model the client is told. -/
def normalizedStart (event : WireEvent) (id model : Units) : ClientFrame :=
  let message := ((event.raw.get (asciiUnits "message")).bind Value.asRecord).getD []
  { type := .messageStart
    index := event.index
    fields := event.raw.set (asciiUnits "message")
      (.object ((message.set (asciiUnits "id") (.string id)).set (asciiUnits "model") (.string model))) }

/-- The `message_start` of a turn that never sent one. -/
def synthesizedStart (id model : Units) : ClientFrame where
  type := .messageStart
  fields := [(asciiUnits "message", .object
    [(asciiUnits "id", .string id), (asciiUnits "type", .string (asciiUnits "message")),
      (asciiUnits "role", .string (asciiUnits "assistant")), (asciiUnits "model", .string model),
      (asciiUnits "content", .array []), (asciiUnits "stop_reason", .null), (asciiUnits "stop_sequence", .null),
      (asciiUnits "usage", .object
        [(asciiUnits "input_tokens", countValue 0), (asciiUnits "output_tokens", countValue 0)])])]

/-- The frame without the metadata no client understands, on itself and on its delta. -/
def stripContextManagement (frame : ClientFrame) : ClientFrame :=
  let fields := frame.fields.delete (asciiUnits "context_management")
  { frame with
    fields := match fields.get (asciiUnits "delta") with
      | some (.object delta) =>
        fields.set (asciiUnits "delta") (.object (Record.delete delta (asciiUnits "context_management")))
      | _ => fields }

/-- The event under the client's index. -/
def withClientIndex (event : WireEvent) (index : Nat) : ClientFrame :=
  { type := event.type, index := some index, fields := event.raw }

/-- A terminal error. -/
def errorFrame (type message : Units) : ClientFrame where
  type := .error
  fields := [(asciiUnits "error", .object
    [(asciiUnits "type", .string type), (asciiUnits "message", .string message)])]

/-- The turn of an event: the id of the tool use that began a subagent, or null for the client's own turn. -/
abbrev Turn := Option Units

/-- The key of a block: the length of the turn's id, the id, and the index, between colons. -/
def keyOf (turn : Turn) (sdkIndex : Nat) : Units :=
  let id := turn.getD []
  decimal id.length ++ asciiUnits ":" ++ id ++ asciiUnits ":" ++ decimal sdkIndex

/-- Forward an event under a client index, or drop it. -/
inductive BlockDecision
  | forward (index : Nat)
  | drop
  deriving DecidableEq

/-- The open blocks by key, the open client indices in the order they were opened, what each was opened
as, and the next client index. -/
structure BlockIndexMap where
  mapping : List (Units × Nat) := []
  openOrder : List Nat := []
  kinds : List (Nat × Units) := []
  next : Nat := 0
  deriving DecidableEq

namespace BlockIndexMap

/-- Forget the block of the key. -/
def forget (blocks : BlockIndexMap) (key : Units) : BlockIndexMap :=
  match blocks.mapping.lookup key with
  | none => blocks
  | some client =>
    { blocks with
      mapping := blocks.mapping.filter fun entry => entry.1 != key
      kinds := blocks.kinds.filter fun entry => entry.1 != client
      openOrder := blocks.openOrder.erase client }

/-- A block starts: what was open under its key is forgotten, and a kept block gets the next index. -/
def start (blocks : BlockIndexMap) (turn : Turn) (sdkIndex : Nat) (keep : Bool) (blockType : Option Units) :
    BlockIndexMap × BlockDecision :=
  let key := keyOf turn sdkIndex
  let forgotten := blocks.forget key
  if keep then
    ({ mapping := forgotten.mapping ++ [(key, forgotten.next)]
       openOrder := forgotten.openOrder ++ [forgotten.next]
       kinds := forgotten.kinds ++ (blockType.map fun type => (forgotten.next, type)).toList
       next := forgotten.next + 1 }, .forward forgotten.next)
  else (forgotten, .drop)

/-- A block goes on. -/
def block (blocks : BlockIndexMap) (turn : Turn) (sdkIndex : Nat) : BlockDecision :=
  (blocks.mapping.lookup (keyOf turn sdkIndex)).elim .drop .forward

/-- A block stops. -/
def stop (blocks : BlockIndexMap) (turn : Turn) (sdkIndex : Nat) : BlockIndexMap × BlockDecision :=
  match blocks.mapping.lookup (keyOf turn sdkIndex) with
  | none => (blocks, .drop)
  | some client => (blocks.forget (keyOf turn sdkIndex), .forward client)

/-- The open blocks with what each was opened as. -/
def openBlocks (blocks : BlockIndexMap) : List (Nat × Units) :=
  blocks.openOrder.map fun index => (index, (blocks.kinds.lookup index).getD [])

end BlockIndexMap

/-- What the turn ended as, by the SDK's own result. -/
structure Completion where
  stopReason : Option Units
  usage : Option SdkUsage

/-- Everything the envelope keeps. -/
structure Envelope where
  blocks : BlockIndexMap := {}
  started : Bool := false
  terminated : Bool := false
  id : Option Units := none
  model : Units
  stopReason : Option Units := none
  stopSequence : Option Units := none
  lastUsage : Option SdkUsage := none
  forcedBlockCloses : Nat := 0
  forcedBlockKinds : List Units := []

/-- What a turn that stopped in the middle of a block is answered with. -/
def truncatedErrorType : Units := asciiUnits "api_error"

def truncated : Units :=
  asciiUnits "the upstream ended this turn while it was still writing, so the answer is incomplete"

namespace Envelope

/-- Field by field, the newest count that was stated. -/
def mergeUsage (envelope : Envelope) (usage : Option SdkUsage) : Envelope :=
  match usage with
  | none => envelope
  | some usage =>
    { envelope with
      lastUsage := some (match envelope.lastUsage with
        | none => usage
        | some held =>
          { inputTokens := usage.inputTokens.or held.inputTokens
            outputTokens := usage.outputTokens.or held.outputTokens
            cacheCreationInputTokens := usage.cacheCreationInputTokens.or held.cacheCreationInputTokens
            cacheReadInputTokens := usage.cacheReadInputTokens.or held.cacheReadInputTokens }) }

/-- The one `message_start`: the event's own, or a synthesized one. -/
def openStart (newId : Units) (envelope : Envelope) (event : Option WireEvent) : Envelope × List ClientFrame :=
  if envelope.started then (envelope, [])
  else
    match event with
    | none =>
      ({ envelope with started := true, id := some newId }, [synthesizedStart newId envelope.model])
    | some event =>
      let facts := readMessageFacts event.raw
      let id := facts.1.getD newId
      let model := facts.2.getD envelope.model
      ({ envelope with started := true, id := some id, model }, [normalizedStart event id model])

/-- A `message_start` changes whether the message has started, its id and its model. -/
theorem openStart_fst (newId : Units) (envelope : Envelope) (event : Option WireEvent) :
    ∃ id model, (envelope.openStart newId event).1 = { envelope with started := true, id, model } := by
  unfold openStart
  split
  · next hstarted => exact ⟨envelope.id, envelope.model, by rw [← hstarted]⟩
  · cases event with
    | none => exact ⟨_, _, rfl⟩
    | some event => exact ⟨_, _, rfl⟩

/-- The type of the block a start opens. -/
def openedType (event : WireEvent) : Option Units :=
  ((event.raw.get (asciiUnits "content_block")).bind Value.asRecord).bind fun block =>
    (block.get (asciiUnits "type")).bind Value.asString

/-- A block start: dropped, or forwarded after the message's start. -/
def pushStart (newId : Units) (envelope : Envelope) (event : WireEvent) (turn : Turn) (sdkIndex : Nat) :
    Envelope × List ClientFrame :=
  let started := envelope.blocks.start turn sdkIndex turn.isNone (openedType event)
  match started.2 with
  | .drop => ({ envelope with blocks := started.1 }, [])
  | .forward index =>
    let opened := openStart newId { envelope with blocks := started.1 } none
    (opened.1, opened.2 ++ [withClientIndex event index])

/-- The event as the turn's ending states it. -/
def pushEnding (envelope : Envelope) (event : WireEvent) : Envelope :=
  let facts := readStopFacts event.raw
  mergeUsage
    { envelope with
      stopReason := facts.1.or envelope.stopReason
      stopSequence := facts.2.or envelope.stopSequence }
    (readUsage (event.raw.get (asciiUnits "usage")))

/-- The frames of an event, before they are stripped. -/
def pushRaw (newId : Units) (envelope : Envelope) (event : WireEvent) (turn : Turn) :
    Envelope × List ClientFrame :=
  match event.type with
  | .messageStart =>
    if turn.isNone then
      let opened := openStart newId envelope (some event)
      match (event.raw.get (asciiUnits "message")).bind Value.asRecord with
      | some message => (opened.1.mergeUsage (readUsage (message.get (asciiUnits "usage"))), opened.2)
      | none => opened
    else (envelope, [])
  | .contentBlockStart =>
    match event.index with
    | none => (envelope, [])
    | some sdkIndex => pushStart newId envelope event turn sdkIndex
  | .contentBlockDelta =>
    match event.index with
    | none => (envelope, [])
    | some sdkIndex =>
      match envelope.blocks.block turn sdkIndex with
      | .forward index => (envelope, [withClientIndex event index])
      | .drop => (envelope, [])
  | .contentBlockStop =>
    match event.index with
    | none => (envelope, [])
    | some sdkIndex =>
      let stopped := envelope.blocks.stop turn sdkIndex
      match stopped.2 with
      | .forward index => ({ envelope with blocks := stopped.1 }, [withClientIndex event index])
      | .drop => ({ envelope with blocks := stopped.1 }, [])
  | .messageDelta => if turn.isNone then (pushEnding envelope event, []) else (envelope, [])
  | .error =>
    if turn.isNone then
      ({ envelope with terminated := true }, [{ type := .error, index := event.index, fields := event.raw }])
    else (envelope, [])
  | .messageStop | .ping | .other _ => (envelope, [])

/-- Take an event in. -/
def push (newId : Units) (envelope : Envelope) (event : WireEvent) (turn : Turn) : Envelope × List ClientFrame :=
  if envelope.terminated then (envelope, [])
  else
    let pushed := pushRaw newId envelope event turn
    (pushed.1, pushed.2.map stripContextManagement)

@[simp] theorem mergeUsage_blocks (envelope : Envelope) (usage : Option SdkUsage) :
    (envelope.mergeUsage usage).blocks = envelope.blocks := by
  cases usage <;> rfl

@[simp] theorem openStart_blocks (newId : Units) (envelope : Envelope) (event : Option WireEvent) :
    (envelope.openStart newId event).1.blocks = envelope.blocks := by
  obtain ⟨id, model, hopened⟩ := openStart_fst newId envelope event
  rw [hopened]

/-- An event leaves the blocks as they are, or starts one, or stops one. -/
theorem push_blocks (newId : Units) (envelope : Envelope) (event : WireEvent) (turn : Turn) :
    (envelope.push newId event turn).1.blocks = envelope.blocks ∨
      (∃ sdkIndex, (envelope.push newId event turn).1.blocks =
        (envelope.blocks.start turn sdkIndex turn.isNone (openedType event)).1) ∨
      ∃ sdkIndex, (envelope.push newId event turn).1.blocks = (envelope.blocks.stop turn sdkIndex).1 := by
  unfold push
  split
  · exact .inl rfl
  · unfold pushRaw
    split
    · split
      · dsimp only
        split <;> exact .inl (by simp)
      · exact .inl rfl
    · split
      · exact .inl rfl
      · next sdkIndex _ =>
        refine .inr (.inl ⟨sdkIndex, ?_⟩)
        unfold pushStart
        dsimp only
        split <;> simp
    · split
      · exact .inl rfl
      · split <;> exact .inl rfl
    · split
      · exact .inl rfl
      · next sdkIndex _ =>
        refine .inr (.inr ⟨sdkIndex, ?_⟩)
        dsimp only
        split <;> rfl
    · split <;> exact .inl (by simp [pushEnding])
    · split <;> exact .inl rfl
    · exact .inl rfl
    · exact .inl rfl
    · exact .inl rfl

/-- The frames a clean ending states. -/
def endingFrames (envelope : Envelope) (completion : Completion) : List ClientFrame :=
  [{ type := .messageDelta
     fields :=
      [(asciiUnits "delta", .object
          [(asciiUnits "stop_reason", orNull (completion.stopReason.or envelope.stopReason)),
            (asciiUnits "stop_sequence", orNull envelope.stopSequence)]),
        (asciiUnits "usage", .object (outputCounts (completion.usage.or envelope.lastUsage)))] },
    { type := .messageStop }]

/-- The loop ended: the blocks that are still open are closed, and a turn that never stated an ending and
left a block open is an error. -/
def finish (newId : Units) (envelope : Envelope) (completion : Completion) : Envelope × List ClientFrame :=
  if envelope.terminated then (envelope, [])
  else
    let opened := openStart newId { envelope with terminated := true } none
    let stranded := opened.1.blocks.openBlocks
    let closed :=
      { opened.1 with
        forcedBlockCloses := opened.1.forcedBlockCloses + stranded.length
        forcedBlockKinds := opened.1.forcedBlockKinds ++ stranded.map Prod.snd }
    let stops := stranded.map fun block => { type := .contentBlockStop, index := some block.1 : ClientFrame }
    let stated := completion.stopReason.or closed.stopReason
    if !stranded.isEmpty && stated.isNone then
      (closed, opened.2 ++ stops ++ [errorFrame truncatedErrorType truncated])
    else (closed, opened.2 ++ stops ++ closed.endingFrames completion)

/-- A classified failure. -/
def fail (envelope : Envelope) (type message : Units) : Envelope × List ClientFrame :=
  if envelope.terminated then (envelope, [])
  else ({ envelope with terminated := true }, [errorFrame type message])

end Envelope

/-- What the renderer asks of the envelope. -/
inductive EnvelopeOp
  | push (event : WireEvent) (turn : Turn)
  | finish (completion : Completion)
  | fail (type message : Units)

/-- One call of the envelope. -/
def Envelope.step (newId : Units) (envelope : Envelope) : EnvelopeOp → Envelope × List ClientFrame
  | .push event turn => envelope.push newId event turn
  | .finish completion => envelope.finish newId completion
  | .fail type message => envelope.fail type message

end MultiAiRouter.ClaudeSdk.Render
