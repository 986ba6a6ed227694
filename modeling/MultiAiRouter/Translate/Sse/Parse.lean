import MultiAiRouter.Common.Utf8

/-!
# The SSE reader

`createSseParser` as explicit state: a streaming decoder, the partial line kept between pushes, and the frame being
collected. A push that ends on a CR remembers that an LF at the head of the next text is not a second line end.
Comments are handed on as they arrive, and a frame is dispatched by a blank line or by the flush.

Text is a list of UTF-16 code units.
-/

namespace MultiAiRouter.Translate.Sse

open Common

/-- A string of the source: its UTF-16 code units. -/
abbrev Text := List UInt16

def lf : UInt16 := 10
def cr : UInt16 := 13
def bom : UInt16 := 0xFEFF
def colon : UInt16 := 58
def space : UInt16 := 32

/-- The code units of an ASCII word. -/
def ascii (word : String) : Text := word.toList.map fun char => char.toNat.toUInt16

/-- One event of the stream. -/
structure SseFrame where
  event : Option Text
  data : Text
  deriving DecidableEq

/-- What a push is given. -/
inductive SseChunk
  | bytes (bytes : List UInt8)
  | text (text : Text)

/-- A `TextDecoder` of UTF-8: its sequence state, and whether a leading BOM can still come. -/
structure TextDecoder where
  utf8 : Utf8State := {}
  bomSeen : Bool := false
  deriving DecidableEq

/-- The first decoded value is dropped when it is a BOM. -/
def TextDecoder.serialize (bomSeen : Bool) (values : List (Option Nat)) : Bool × List (Option Nat) :=
  match values with
  | [] => (bomSeen, [])
  | first :: rest => (true, if !bomSeen && first == some 0xFEFF then rest else values)

/-- Decode a chunk, keeping what it leaves unfinished. -/
def TextDecoder.decodeStream (decoder : TextDecoder) (bytes : List UInt8) : TextDecoder × Text :=
  let (utf8, values) := utf8Run decoder.utf8 bytes
  let (bomSeen, kept) := TextDecoder.serialize decoder.bomSeen values
  ({ utf8, bomSeen }, lossyUnits kept)

/-- Decode what the last chunk left unfinished. -/
def TextDecoder.decodeEnd (decoder : TextDecoder) : Text :=
  lossyUnits (TextDecoder.serialize decoder.bomSeen (utf8Finish decoder.utf8)).2

/-- What a line says. -/
inductive SseLine
  | blank
  | comment (text : Text)
  | event (value : Text)
  | data (value : Text)
  | ignored
  deriving DecidableEq

/-- Field and value around the first colon, one leading space of the value stripped. -/
def splitField (raw : Text) : Text × Text :=
  let field := raw.takeWhile fun code => code != colon
  let rest := (raw.drop field.length).tail
  (field, if rest.head? = some space then rest.tail else rest)

/-- Read a line. -/
def readLine (raw : Text) : SseLine :=
  match raw with
  | [] => .blank
  | first :: rest =>
    if first = colon then .comment rest
    else if (splitField raw).1 = ascii "event" then .event (splitField raw).2
    else if (splitField raw).1 = ascii "data" then .data (splitField raw).2
    else .ignored

/-- The frame being collected, with the frames and comments handed on so far. -/
structure SseCollector where
  event : Option Text := none
  data : List Text := []
  frames : List SseFrame := []
  comments : List Text := []
  deriving DecidableEq

namespace SseCollector

/-- The data lines of a frame, joined with LF. -/
def joinData (data : List Text) : Text := (data.intersperse [lf]).flatten

/-- A blank line hands the collected frame on; one without data is nothing. -/
def dispatch (collector : SseCollector) : SseCollector :=
  if collector.data = [] then { collector with event := none }
  else
    { collector with
      frames := collector.frames ++ [{ event := collector.event, data := joinData collector.data }]
      event := none
      data := [] }

/-- Take a line in. -/
def take (collector : SseCollector) : SseLine → SseCollector
  | .blank => collector.dispatch
  | .comment text => { collector with comments := collector.comments ++ [text] }
  | .event value => { collector with event := some value }
  | .data value => { collector with data := collector.data ++ [value] }
  | .ignored => collector

end SseCollector

/-- Everything the parser keeps. -/
structure SseParser where
  decoder : TextDecoder := {}
  buffer : Text := []
  atStreamStart : Bool := true
  pendingLf : Bool := false
  collector : SseCollector := {}
  deriving DecidableEq

namespace SseParser

/-- Take a line in. -/
def line (parser : SseParser) (raw : Text) : SseParser :=
  { parser with collector := parser.collector.take (readLine raw) }

/-- Walk over the text: `current` is the line since the last line end. -/
def scan (parser : SseParser) (current : Text) : Text → SseParser
  | [] => { parser with buffer := current }
  | code :: rest =>
    if code ≠ lf ∧ code ≠ cr then scan parser (current ++ [code]) rest
    else if code = cr then
      match rest with
      | [] => { parser.line current with buffer := [], pendingLf := true }
      | next :: later =>
        if next = lf then scan (parser.line current) [] later
        else scan (parser.line current) [] (next :: later)
    else scan (parser.line current) [] rest

@[simp] theorem scan_nil (parser : SseParser) (current : Text) :
    parser.scan current [] = { parser with buffer := current } := by
  rw [scan]

/-- A unit that ends no line is kept. -/
theorem scan_text {code : UInt16} (hlf : code ≠ lf) (hcr : code ≠ cr) (parser : SseParser) (current rest : Text) :
    parser.scan current (code :: rest) = parser.scan (current ++ [code]) rest := by
  rw [scan.eq_def]
  dsimp only
  rw [if_pos ⟨hlf, hcr⟩]

/-- An LF ends the line. -/
theorem scan_lf (parser : SseParser) (current rest : Text) :
    parser.scan current (lf :: rest) = (parser.line current).scan [] rest := by
  rw [scan.eq_def]
  dsimp only
  rw [if_neg (by simp), if_neg (by decide)]

/-- A CR at the end of the text ends the line and may be half of a CRLF. -/
theorem scan_cr_end (parser : SseParser) (current : Text) :
    parser.scan current [cr] = { parser.line current with buffer := [], pendingLf := true } := by
  rw [scan.eq_def]
  dsimp only
  rw [if_neg (by simp), if_pos rfl]

/-- A CRLF ends the line. -/
theorem scan_cr_lf (parser : SseParser) (current later : Text) :
    parser.scan current (cr :: lf :: later) = (parser.line current).scan [] later := by
  rw [scan.eq_def]
  dsimp only
  rw [if_neg (by simp), if_pos rfl, if_pos rfl]

/-- A CR before anything else ends the line. -/
theorem scan_cr_other {next : UInt16} (hnext : next ≠ lf) (parser : SseParser) (current later : Text) :
    parser.scan current (cr :: next :: later) = (parser.line current).scan [] (next :: later) := by
  rw [scan.eq_def]
  dsimp only
  rw [if_neg (by simp), if_pos rfl, if_neg hnext]

/-- Walk over the kept partial line and the text after it. -/
def consume (parser : SseParser) (text : Text) : SseParser := parser.scan [] (parser.buffer ++ text)

/-- A BOM at the start of the stream is dropped. -/
def trimBom (parser : SseParser) (text : Text) : SseParser × Text :=
  if parser.atStreamStart && !text.isEmpty then
    ({ parser with atStreamStart := false }, if text.head? = some bom then text.tail else text)
  else (parser, text)

/-- An LF that completes the CR before it is dropped. -/
def trimLf (parser : SseParser) (text : Text) : SseParser × Text :=
  if parser.pendingLf then
    ({ parser with pendingLf := false }, if text.head? = some lf then text.tail else text)
  else (parser, text)

theorem trimLf_pending {parser : SseParser} (h : parser.pendingLf = true) (text : Text) : parser.trimLf text =
      ({ parser with pendingLf := false }, if text.head? = some lf then text.tail else text) := by
  rw [trimLf, if_pos h]

theorem trimLf_idle {parser : SseParser} (h : parser.pendingLf = false) (text : Text) :
    parser.trimLf text = (parser, text) := by
  rw [trimLf, if_neg (by simp [h])]

/-- Take decoded text in. -/
def pushText (parser : SseParser) (text : Text) : SseParser :=
  let (started, text) := parser.trimBom text
  let (trimmed, text) := started.trimLf text
  if text = [] then trimmed else trimmed.consume text

/-- A push without text forgets the pending LF. -/
theorem pushText_nil (parser : SseParser) : parser.pushText [] = { parser with pendingLf := false } := by
  obtain ⟨decoder, buffer, atStreamStart, pendingLf, collector⟩ := parser
  cases pendingLf <;> simp [pushText, trimBom, trimLf]

/-- Take a chunk in. -/
def push (parser : SseParser) : SseChunk → SseParser
  | .text text => parser.pushText text
  | .bytes bytes =>
    let (decoder, text) := parser.decoder.decodeStream bytes
    { parser.pushText text with decoder }

/-- Take chunks of bytes in, one after another. -/
def pushAll (parser : SseParser) (chunks : List (List UInt8)) : SseParser :=
  chunks.foldl (fun parser chunk => parser.push (.bytes chunk)) parser

/-- The stream ended: an unterminated line and frame are taken as they are. -/
def flush (parser : SseParser) : SseParser :=
  let rest := parser.buffer ++ parser.decoder.decodeEnd
  let ended := { parser with buffer := [], pendingLf := false }
  let taken := if rest = [] then ended else ended.line rest
  { taken with collector := taken.collector.dispatch }

end SseParser

/-- The frames and comments of a stream of chunks, in order. -/
def parse (chunks : List (List UInt8)) : List SseFrame × List Text :=
  let ended := (SseParser.pushAll {} chunks).flush
  (ended.collector.frames, ended.collector.comments)

end MultiAiRouter.Translate.Sse
