import MultiAiRouter.Translate.Sse.Parse

/-!
# The framing of an observed response

`createResponseFraming`: the bytes that were forwarded are read once more for the usage they state. Of an event
stream every event is reported as soon as a blank line ends it, a JSON body at its end. An event that outgrows the
limit goes on through a bounded scanner, which is a parameter, as JSON.parse is.
-/

namespace MultiAiRouter.Usage

open Common Translate.Sse

/-- What the content type says the body is. -/
inductive Media
  | eventStream
  | json
  | other
  deriving DecidableEq

/-- What is reported of a frame. -/
inductive FramingReport (Body : Type)
  | payload (body : Body) (event : Option Text)
  | done
  | unavailable
  deriving DecidableEq

/-- The scanner of a frame that outgrew the limit. -/
structure ResponseSalvage (Scanner Body : Type) where
  create : Nat → Scanner
  push : Scanner → UInt8 → Scanner
  finish : Scanner → Option Body

/-- What the framing is made for, and what it reads JSON and outgrown frames with. -/
structure FramingInput (Scanner Body : Type) where
  media : Media
  maximumBytes : Nat
  parseJson : Text → Option Body
  salvage : ResponseSalvage Scanner Body

/-- What a line that is scanned turned out to be so far. -/
inductive SalvageField
  | pending
  | data
  | skip
  deriving DecidableEq

/-- Everything the framing keeps, with what it reported. -/
structure ResponseFraming (Scanner Body : Type) where
  line : List UInt8 := []
  data : List Text := []
  event : Option Text := none
  eventBytes : Nat := 0
  dropping : Bool := false
  pendingCR : Bool := false
  ended : Bool := false
  salvage : Option Scanner := none
  salvageLineBytes : Nat := 0
  salvageField : SalvageField := .pending
  salvageDataSeen : Bool := false
  salvageSpace : Bool := false
  reports : List (FramingReport Body) := []

/-- White space as `trimStart` strips it. -/
def isWhitespace (unit : UInt16) : Bool :=
  unit ∈ ([9, 10, 11, 12, 13, 32, 0xA0, 0x1680, 0x2028, 0x2029, 0x202F, 0x205F, 0x3000, 0xFEFF] : List UInt16) ||
    (0x2000 ≤ unit && unit ≤ 0x200A)

def trimStart (text : Text) : Text := text.dropWhile isWhitespace

/-- The text without the byte-order mark it begins with. -/
def withoutBom (text : Text) : Text := if text.head? = some bom then text.tail else text

/-- A fatal decoder on bytes of its own: nothing for malformed ones, and no leading byte-order mark. -/
def decodeFatal (bytes : List UInt8) : Option Text :=
  (utf8Scalars bytes).map fun codes =>
    (if codes.head? = some 0xFEFF then codes.tail else codes).flatMap utf16Units

/-- What the framing reads in the text of a line. -/
def readField (text : Text) : SseLine :=
  if (ascii "data:").isPrefixOf text then
    .data (if (text.drop 5).head? = some space then (text.drop 5).tail else text.drop 5)
  else if (ascii "event:").isPrefixOf text then .event (trimStart (text.drop 6))
  else .ignored

/-- What a line of so many bytes adds to its event. -/
def charge (bytes : Nat) : SseLine → Nat
  | .data _ => bytes + 1
  | .event _ => bytes
  | _ => 0

namespace ResponseFraming

variable {Scanner Body : Type} (input : FramingInput Scanner Body)

/-- What is reported of a whole text. -/
def parseText (text : Text) (name : Option Text) : FramingReport Body :=
  if text = ascii "[DONE]" then if input.media = .eventStream then .done else .unavailable
  else
    match input.parseJson text with
    | some body => .payload body name
    | none => .unavailable

def report (framing : ResponseFraming Scanner Body) (entry : FramingReport Body) : ResponseFraming Scanner Body :=
  { framing with reports := framing.reports ++ [entry] }

def reset (framing : ResponseFraming Scanner Body) : ResponseFraming Scanner Body :=
  { framing with data := [], event := none, eventBytes := 0, dropping := false, salvage := none }

/-- What the scanner kept of the frame is reported. -/
def settleSalvage (framing : ResponseFraming Scanner Body) (scanner : Scanner) : ResponseFraming Scanner Body :=
  match input.salvage.finish scanner with
  | none => framing.report .unavailable
  | some body => framing.report (.payload body framing.event)

/-- A byte of an event that is scanned: only the values of data lines reach the scanner. -/
def salvageByte (framing : ResponseFraming Scanner Body) (scanner : Scanner) (byte : UInt8) :
    ResponseFraming Scanner Body :=
  let position := framing.salvageLineBytes
  let framing := { framing with salvageLineBytes := position + 1 }
  match framing.salvageField with
  | .data =>
    if framing.salvageSpace && byte == 32 then { framing with salvageSpace := false }
    else { framing with salvageSpace := false, salvage := some (input.salvage.push scanner byte) }
  | .pending =>
    if (asciiBytes "data:")[position]? ≠ some byte then { framing with salvageField := .skip }
    else if position = 4 then
      { framing with
        salvageField := .data
        salvageSpace := true
        salvage := some (if framing.salvageDataSeen then input.salvage.push scanner 10 else scanner)
        salvageDataSeen := true }
    else framing
  | .skip => framing

/-- A byte of an outgrown frame. -/
def scanByte (framing : ResponseFraming Scanner Body) (scanner : Scanner) (byte : UInt8) :
    ResponseFraming Scanner Body :=
  if input.media = .eventStream then framing.salvageByte input scanner byte
  else { framing with salvage := some (input.salvage.push scanner byte) }

/-- The frame outgrew the limit: the data it brought so far goes to a scanner. -/
def startSalvage (framing : ResponseFraming Scanner Body) : ResponseFraming Scanner Body :=
  let held := (framing.data.map utf8Encode).intersperse [10]
  { framing with
    salvage := some (held.flatten.foldl input.salvage.push (input.salvage.create input.maximumBytes))
    salvageDataSeen := decide (0 < framing.data.length)
    salvageLineBytes := 0
    salvageField := .pending
    data := []
    eventBytes := 0 }

/-- What a line of the event brings. -/
def takeField (framing : ResponseFraming Scanner Body) : SseLine → ResponseFraming Scanner Body
  | .data value => { framing with data := framing.data ++ [value] }
  | .event value => { framing with event := some value }
  | _ => framing

/-- A line is complete. -/
def consumeLine (framing : ResponseFraming Scanner Body) : ResponseFraming Scanner Body :=
  match framing.salvage with
  | some scanner =>
    let settled := if framing.salvageLineBytes = 0 then (framing.settleSalvage input scanner).reset else framing
    { settled with salvageLineBytes := 0, salvageField := .pending }
  | none =>
    if framing.line = [] then
      if !framing.dropping && decide (framing.data ≠ []) then
        (framing.report (parseText input (SseCollector.joinData framing.data) framing.event)).reset
      else framing.reset
    else if framing.dropping then { framing with line := [] }
    else
      match decodeFatal framing.line with
      | none => { framing.report .unavailable with dropping := true, line := [] }
      | some text =>
        let taken :=
          { framing.takeField (readField text) with
            line := []
            eventBytes := framing.eventBytes + charge framing.line.length (readField text) }
        if input.maximumBytes < taken.eventBytes then taken.startSalvage input else taken

/-- A byte that ends no line. -/
def contentByte (framing : ResponseFraming Scanner Body) (byte : UInt8) : ResponseFraming Scanner Body :=
  match framing.salvage with
  | some scanner => framing.scanByte input scanner byte
  | none =>
    if framing.dropping then if framing.line = [] then { framing with line := [0] } else framing
    else if input.maximumBytes ≤ framing.line.length + framing.eventBytes then
      let started := { framing with line := [] }.startSalvage input
      -- the line so far is scanned once more, and then the byte
      (framing.line ++ [byte]).foldl (fun framing held =>
        match framing.salvage with
        | some scanner => framing.scanByte input scanner held
        | none => framing) started
    else { framing with line := framing.line ++ [byte] }

/-- One byte. -/
def observeByte (framing : ResponseFraming Scanner Body) (byte : UInt8) : ResponseFraming Scanner Body :=
  if input.media = .eventStream ∧ (byte = 10 ∨ byte = 13) then
    if byte = 10 ∧ framing.pendingCR = true then { framing with pendingCR := false }
    else { framing.consumeLine input with pendingCR := decide (byte = 13) }
  else { framing with pendingCR := false }.contentByte input byte

/-- One chunk. -/
def observe (framing : ResponseFraming Scanner Body) (chunk : List UInt8) : ResponseFraming Scanner Body :=
  if framing.ended then framing
  else if input.media = .other then framing.report .unavailable
  else chunk.foldl (observeByte input) framing

/-- What is reported when the body ends. -/
def lastReport (framing : ResponseFraming Scanner Body) : List (FramingReport Body) :=
  match input.media with
  | .json =>
    match framing.salvage with
    | some scanner => [(input.salvage.finish scanner).elim .unavailable fun body => .payload body framing.event]
    | none =>
      if !framing.dropping && decide (framing.line ≠ []) then
        [(decodeFatal framing.line).elim .unavailable fun text => parseText input text none]
      else if framing.line ≠ [] ∨ framing.data ≠ [] ∨ framing.dropping = true then [.unavailable]
      else []
  | .other => [.unavailable]
  | .eventStream =>
    if framing.line ≠ [] ∨ framing.data ≠ [] ∨ framing.dropping = true ∨ framing.salvage.isSome = true then
      [.unavailable]
    else []

/-- The body ended. -/
def finish (framing : ResponseFraming Scanner Body) : ResponseFraming Scanner Body :=
  if framing.ended then framing
  else { { framing with reports := framing.reports ++ framing.lastReport input }.reset with ended := true, line := [] }

end ResponseFraming

/-- What the framing reports of a body that comes in these chunks. -/
def framingReports {Scanner Body : Type} (input : FramingInput Scanner Body) (chunks : List (List UInt8)) :
    List (FramingReport Body) :=
  ((chunks.foldl (ResponseFraming.observe input) {}).finish input).reports

end MultiAiRouter.Usage
