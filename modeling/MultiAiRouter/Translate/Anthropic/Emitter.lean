import MultiAiRouter.Common.Json.Value

/-!
# The Anthropic stream emitter

`createAnthropicStreamEmitter`: one message start and one block open at a time. Text and calls that cannot enter it
wait in one queue under a limit on their bytes; a call that waits collects its arguments. A tool block stays open
until its call is done or the stream ends, and what waits is then replayed in order.
-/

namespace MultiAiRouter.Translate.Anthropic

open Common

/-- What a call is known by: a text, or a number. -/
inductive CallKey
  | text (units : Units)
  | number (value : Int)
  deriving DecidableEq

/-- The key as a template writes it. -/
def CallKey.toUnits : CallKey → Units
  | .text units => units
  | .number value => asciiUnits (toString value)

/-- Text of the answer, or of the model's reasoning. -/
inductive FragmentKind
  | message
  | reasoning
  deriving DecidableEq

/-- A call that waits. -/
structure PendingCall where
  key : CallKey
  id : Option Units
  name : Option Units
  args : Units
  completed : Bool
  chargedBytes : Nat
  deriving DecidableEq

/-- Text of one kind, or a call. -/
inductive PendingStreamBlock
  | text (text : Units) (kind : FragmentKind) (startsNewBlock : Bool) (chargedBytes : Nat)
  | call (call : PendingCall)
  deriving DecidableEq

/-- The call of the key in a queue. -/
def findCall (key : CallKey) : List PendingStreamBlock → Option PendingCall
  | [] => none
  | .text .. :: rest => findCall key rest
  | .call call :: rest => if call.key = key then some call else findCall key rest

/-- Change the call of the key. -/
def updateCall (key : CallKey) (change : PendingCall → PendingCall) : List PendingStreamBlock → List PendingStreamBlock
  | [] => []
  | .text text kind startsNewBlock charged :: rest =>
    .text text kind startsNewBlock charged :: updateCall key change rest
  | .call call :: rest =>
    if call.key = key then .call (change call) :: rest else .call call :: updateCall key change rest

/-- The queue, and the bytes it is charged with. -/
structure PendingStreamBlocks where
  limit : Nat
  queue : List PendingStreamBlock := []
  bytes : Nat := 0
  deriving DecidableEq

namespace PendingStreamBlocks

/-- Charge the bytes, or refuse them. -/
def charge (pending : PendingStreamBlocks) (size : Nat) : Option PendingStreamBlocks :=
  if pending.limit < pending.bytes + size then none else some { pending with bytes := pending.bytes + size }

/-- A text that says something. -/
def stated (text : Option Units) : Option Units := text.filter fun units => !units.isEmpty

/-- A call is seen: a new one goes last, a known one takes over the id and the name it lacks. -/
def add (pending : PendingStreamBlocks) (key : CallKey) (id name : Option Units) : Option PendingStreamBlocks :=
  let id := stated id
  let name := stated name
  match findCall key pending.queue with
  | some old =>
    let extra := (if old.id.isNone then id.getD [] else []) ++ (if old.name.isNone then name.getD [] else [])
    let size := utf8Length extra
    (pending.charge size).map fun charged =>
      { charged with
        queue := updateCall key (fun call =>
          { call with
            chargedBytes := call.chargedBytes + size
            id := call.id.or id
            name := call.name.or name }) charged.queue }
  | none =>
    let size := utf8Length (key.toUnits ++ id.getD [] ++ name.getD []) + 128
    (pending.charge size).map fun charged =>
      { charged with
        queue := charged.queue ++ [.call { key, id, name, args := [], completed := false, chargedBytes := size }] }

/-- Arguments for a call that waits. -/
def append (pending : PendingStreamBlocks) (key : CallKey) (fragment : Units) : Option PendingStreamBlocks :=
  match findCall key pending.queue with
  | none => some pending
  | some _ =>
    let size := utf8Length fragment
    (pending.charge size).map fun charged =>
      { charged with
        queue := updateCall key (fun call =>
          { call with chargedBytes := call.chargedBytes + size, args := call.args ++ fragment }) charged.queue }

/-- The last block of the queue with the text joined to it, where it is text of the kind. -/
def joinLast (kind : FragmentKind) (fragment : Units) (size : Nat) :
    List PendingStreamBlock → Option (List PendingStreamBlock)
  | [] => none
  | [.text text held startsNewBlock charged] =>
    if held = kind then some [.text (text ++ fragment) held startsNewBlock (charged + size)] else none
  | [.call _] => none
  | block :: rest => (joinLast kind fragment size rest).map fun joined => block :: joined

/-- Text waits: it joins text of its kind at the end of the queue, unless it starts a block of its own. -/
def text (pending : PendingStreamBlocks) (fragment : Units) (kind : FragmentKind) (startsNewBlock : Bool) :
    Option PendingStreamBlocks :=
  let merged := if startsNewBlock then none else joinLast kind fragment (utf8Length fragment) pending.queue
  match merged with
  | some queue => (pending.charge (utf8Length fragment)).map fun charged => { charged with queue }
  | none =>
    let size := utf8Length fragment + 128
    (pending.charge size).map fun charged =>
      { charged with queue := charged.queue ++ [.text fragment kind startsNewBlock size] }

/-- The call has all its arguments. -/
def done (pending : PendingStreamBlocks) (key : CallKey) : PendingStreamBlocks :=
  { pending with queue := updateCall key (fun call => { call with completed := true }) pending.queue }

/-- The bytes a block is charged with. -/
def chargedBytes : PendingStreamBlock → Nat
  | .text _ _ _ charged => charged
  | .call call => call.chargedBytes

/-- What is left when the first block is taken. -/
def dropFirst (pending : PendingStreamBlocks) : PendingStreamBlocks :=
  match pending.queue with
  | [] => pending
  | block :: rest => { pending with queue := rest, bytes := pending.bytes - chargedBytes block }

/-- What is left when every block is taken. -/
def drained (pending : PendingStreamBlocks) : PendingStreamBlocks := { pending with queue := [], bytes := 0 }

end PendingStreamBlocks

/-- What a content block is opened as. -/
inductive ContentBlock
  | toolUse (id name : Units)
  | text
  | thinking
  | redactedThinking (data : Units)
  deriving DecidableEq

/-- What a delta adds to a block. -/
inductive BlockDelta
  | inputJson (partialJson : Units)
  | text (text : Units)
  | thinking (thinking : Units)
  | signature (signature : Units)
  deriving DecidableEq

/-- Why a completion ended. -/
inductive AnthropicStopReason
  | endTurn
  | maxTokens
  | stopSequence
  | toolUse
  | pauseTurn
  | refusal
  | modelContextWindowExceeded
  deriving DecidableEq

/-- An event of the Anthropic stream. -/
inductive AnthropicEvent
  | messageStart (id model : Units)
  | contentBlockStart (index : Nat) (block : ContentBlock)
  | contentBlockDelta (index : Nat) (delta : BlockDelta)
  | contentBlockStop (index : Nat)
  | messageDelta (stopReason : Option AnthropicStopReason) (usage : Record)
  | messageStop
  | error (body : Value)

/-- The open block: its index, the call it belongs to, and whether it holds reasoning. -/
structure OpenBlock where
  index : Nat
  tool : Option CallKey
  thinking : Bool
  deriving DecidableEq

/-- The signature the router stamps on reasoning it did not get signed. -/
def routerThinkingSignature : Units := asciiUnits "mar1:"

/-- The error a queue over its limit ends the stream with. -/
def pendingOverflowBody : Value :=
  .object [(asciiUnits "type", .string (asciiUnits "error")), (asciiUnits "error", .object
    [(asciiUnits "type", .string (asciiUnits "api_error")),
      (asciiUnits "message",
        .string (asciiUnits "Translation pending fragments exceed their configured limit"))])]

/-- Everything the emitter keeps. -/
structure Emitter where
  id : Units := []
  model : Units := []
  started : Bool := false
  terminated : Bool := false
  failed : Bool := false
  nextBlock : Nat := 0
  current : Option OpenBlock := none
  toolBlocks : List (CallKey × Nat) := []
  pending : PendingStreamBlocks
  deriving DecidableEq

namespace Emitter

/-- The open block is a tool's. -/
def toolOpen (emitter : Emitter) : Bool := emitter.current.any fun block => block.tool.isSome

/-- Close the open block; reasoning gets the signature first. -/
def closeSigned (emitter : Emitter) (signature : Units) : Emitter × List AnthropicEvent :=
  match emitter.current with
  | none => (emitter, [])
  | some block =>
    ({ emitter with current := none },
      (if block.thinking then [AnthropicEvent.contentBlockDelta block.index (.signature signature)] else []) ++
        [AnthropicEvent.contentBlockStop block.index])

/-- Close the open block under the router's own signature. -/
def closeOpen (emitter : Emitter) : Emitter × List AnthropicEvent := emitter.closeSigned routerThinkingSignature

/-- Open a block for a call. -/
def openToolBlock (emitter : Emitter) (key : CallKey) (id name : Option Units) : Emitter × List AnthropicEvent :=
  let closed := emitter.closeOpen
  let index := closed.1.nextBlock
  ({ closed.1 with
      nextBlock := index + 1
      toolBlocks := closed.1.toolBlocks.filter (fun entry => entry.1 != key) ++ [(key, index)]
      current := some { index, tool := some key, thinking := false } },
    closed.2 ++ [AnthropicEvent.contentBlockStart index (.toolUse (id.getD []) (name.getD []))])

/-- The delta of a piece of text. -/
def fragmentDelta (kind : FragmentKind) (text : Units) : BlockDelta :=
  match kind with
  | .message => .text text
  | .reasoning => .thinking text

/-- The block of a piece of text. -/
def fragmentBlock : FragmentKind → ContentBlock
  | .message => .text
  | .reasoning => .thinking

/-- Append to the open block of the same kind, or open one. -/
def emitFragment (emitter : Emitter) (text : Units) (kind : FragmentKind) : Emitter × List AnthropicEvent :=
  if text.isEmpty then (emitter, [])
  else
    let thinking := kind == .reasoning
    match emitter.current.filter fun block => block.tool.isNone && block.thinking == thinking with
    | some block => (emitter, [AnthropicEvent.contentBlockDelta block.index (fragmentDelta kind text)])
    | none =>
      let closed := emitter.closeOpen
      let index := closed.1.nextBlock
      ({ closed.1 with nextBlock := index + 1, current := some { index, tool := none, thinking } },
        closed.2 ++ [AnthropicEvent.contentBlockStart index (fragmentBlock kind),
          AnthropicEvent.contentBlockDelta index (fragmentDelta kind text)])

/-- Open a call's block and state the arguments that waited. -/
def replayCall (emitter : Emitter) (call : PendingCall) : Emitter × List AnthropicEvent :=
  let opened := emitter.openToolBlock call.key call.id call.name
  (opened.1, opened.2 ++
    if call.args.isEmpty then []
    else [AnthropicEvent.contentBlockDelta (emitter.closeOpen.1.nextBlock) (.inputJson call.args)])

/-- Every block that waited, each opened, stated and closed. -/
def replayAll (emitter : Emitter) : List PendingStreamBlock → Emitter × List AnthropicEvent
  | [] => (emitter, [])
  | .text text kind _ _ :: rest =>
    let stated := emitter.emitFragment text kind
    let closed := stated.1.closeOpen
    let later := replayAll closed.1 rest
    (later.1, stated.2 ++ closed.2 ++ later.2)
  | .call call :: rest =>
    let stated := emitter.replayCall call
    let closed := stated.1.closeOpen
    let later := replayAll closed.1 rest
    (later.1, stated.2 ++ closed.2 ++ later.2)

/-- Close the open block and replay all that waited. -/
def closeBlock (emitter : Emitter) : Emitter × List AnthropicEvent :=
  let closed := emitter.closeOpen
  let replayed := { closed.1 with pending := closed.1.pending.drained }.replayAll closed.1.pending.queue
  (replayed.1, closed.2 ++ replayed.2)

/-- The message start, once. -/
def start (emitter : Emitter) : Emitter × List AnthropicEvent :=
  if emitter.started then (emitter, [])
  else ({ emitter with started := true }, [AnthropicEvent.messageStart emitter.id emitter.model])

/-- The queue is over its limit. -/
def overflow (emitter : Emitter) : Emitter × List AnthropicEvent :=
  ({ emitter with terminated := true, failed := true }, [AnthropicEvent.error pendingOverflowBody])

/-- The queue after a fragment was put into it, or the end of the stream. -/
def holdOr (emitter : Emitter) (held : Option PendingStreamBlocks) : Emitter × List AnthropicEvent :=
  match held with
  | some pending => ({ emitter with pending }, [])
  | none => emitter.overflow

/-- Replay what waited up to the first call that is not complete. -/
def replayUntilLive (emitter : Emitter) : List PendingStreamBlock → Emitter × List AnthropicEvent
  | [] => (emitter, [])
  | .text text kind startsNewBlock _ :: rest =>
    let shifted := { emitter with pending := emitter.pending.dropFirst }
    let closed := if startsNewBlock then shifted.closeOpen else (shifted, [])
    let stated := closed.1.emitFragment text kind
    let later := replayUntilLive stated.1 rest
    (later.1, closed.2 ++ stated.2 ++ later.2)
  | .call call :: rest =>
    let shifted := { emitter with pending := emitter.pending.dropFirst }
    let stated := shifted.replayCall call
    if call.completed then
      let closed := stated.1.closeOpen
      let later := replayUntilLive closed.1 rest
      (later.1, stated.2 ++ closed.2 ++ later.2)
    else stated

/-- The upstream named the message. -/
def identify (emitter : Emitter) (id model : Option Units) : Emitter :=
  { emitter with id := id.getD emitter.id, model := model.getD emitter.model }

/-- Text arrives: it waits behind an open tool block. -/
def text (emitter : Emitter) (text : Units) (startsNewBlock : Bool) (kind : FragmentKind) :
    Emitter × List AnthropicEvent :=
  if emitter.terminated || text.isEmpty then (emitter, [])
  else if emitter.toolOpen then emitter.holdOr (emitter.pending.text text kind startsNewBlock)
  else
    let closed := if startsNewBlock then emitter.closeOpen else (emitter, [])
    let stated := closed.1.emitFragment text kind
    (stated.1, closed.2 ++ stated.2)

/-- A call is seen: its block opens, unless another tool block is open. -/
def toolStart (emitter : Emitter) (key : CallKey) (id name : Option Units) : Emitter × List AnthropicEvent :=
  if emitter.terminated then (emitter, [])
  else if (emitter.toolBlocks.lookup key).isSome then (emitter, [])
  else if emitter.toolOpen then emitter.holdOr (emitter.pending.add key id name)
  else emitter.openToolBlock key id name

/-- Arguments of a call: stated if its block is open, kept if it waits for one. -/
def toolArgs (emitter : Emitter) (key : CallKey) (partialJson : Units) : Emitter × List AnthropicEvent :=
  if emitter.terminated || partialJson.isEmpty then (emitter, [])
  else
    match emitter.toolBlocks.lookup key with
    | some index =>
      if emitter.current.any fun block => block.index == index then
        (emitter, [AnthropicEvent.contentBlockDelta index (.inputJson partialJson)])
      else (emitter, [])
    | none => emitter.holdOr (emitter.pending.append key partialJson)

/-- A call is complete: its block closes, and what waited goes on. -/
def toolDone (emitter : Emitter) (key : CallKey) : Emitter × List AnthropicEvent :=
  if emitter.terminated then (emitter, [])
  else
    let marked := { emitter with pending := emitter.pending.done key }
    if marked.current.any fun block => block.tool == some key then
      let closed := marked.closeOpen
      let replayed := closed.1.replayUntilLive closed.1.pending.queue
      (replayed.1, closed.2 ++ replayed.2)
    else (marked, [])

/-- Close the open block if it is not a tool's. -/
def closeTextBlock (emitter : Emitter) : Emitter × List AnthropicEvent :=
  if emitter.current.any fun block => block.tool.isNone then emitter.closeOpen else (emitter, [])

/-- Sign the open reasoning, or state reasoning that is only a signature; never past a tool block. -/
def sealReasoning (emitter : Emitter) (signature : Units) : Emitter × List AnthropicEvent :=
  if emitter.terminated || emitter.toolOpen then (emitter, [])
  else if emitter.current.any fun block => block.thinking then emitter.closeSigned signature
  else
    let closed := emitter.closeOpen
    let index := closed.1.nextBlock
    ({ closed.1 with nextBlock := index + 1 },
      closed.2 ++ [AnthropicEvent.contentBlockStart index (.redactedThinking signature),
        AnthropicEvent.contentBlockStop index])

/-- The stream ends. -/
def terminate (emitter : Emitter) (stopReason : Option AnthropicStopReason) (usage : Record) :
    Emitter × List AnthropicEvent :=
  if emitter.terminated then (emitter, [])
  else
    let started := { emitter with terminated := true }.start
    let closed := started.1.closeBlock
    (closed.1, started.2 ++ closed.2 ++ [AnthropicEvent.messageDelta stopReason usage, AnthropicEvent.messageStop])

/-- The upstream failed. -/
def fail (emitter : Emitter) (body : Value) : Emitter × List AnthropicEvent :=
  ({ emitter with terminated := true }, [AnthropicEvent.error body])

end Emitter

/-- What a reader asks of the emitter. -/
inductive EmitterCall
  | identify (id model : Option Units)
  | start
  | text (text : Units) (startsNewBlock : Bool) (kind : FragmentKind)
  | toolStart (key : CallKey) (id name : Option Units)
  | toolArgs (key : CallKey) (partialJson : Units)
  | toolDone (key : CallKey)
  | closeBlock
  | closeTextBlock
  | sealReasoning (signature : Units)
  | terminate (stopReason : Option AnthropicStopReason) (usage : Record)
  | fail (body : Value)

/-- One call of the emitter. -/
def Emitter.call (emitter : Emitter) : EmitterCall → Emitter × List AnthropicEvent
  | .identify id model => (emitter.identify id model, [])
  | .start => emitter.start
  | .text text startsNewBlock kind => emitter.text text startsNewBlock kind
  | .toolStart key id name => emitter.toolStart key id name
  | .toolArgs key partialJson => emitter.toolArgs key partialJson
  | .toolDone key => emitter.toolDone key
  | .closeBlock => emitter.closeBlock
  | .closeTextBlock => emitter.closeTextBlock
  | .sealReasoning signature => emitter.sealReasoning signature
  | .terminate stopReason usage => emitter.terminate stopReason usage
  | .fail body => emitter.fail body

end MultiAiRouter.Translate.Anthropic
