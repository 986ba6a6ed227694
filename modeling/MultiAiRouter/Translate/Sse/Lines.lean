import MultiAiRouter.Translate.Sse.Parse

/-!
# The lines of a chunked stream

The decoded stream as tokens: its code units, and a gap for every push that decodes to nothing. A line ends at LF,
CR or CRLF, wherever the pushes are cut. A gap between the CR and the LF of a CRLF makes the LF a blank line of its
own: the line end is torn.
-/

namespace MultiAiRouter.Translate.Sse

open Common

/-- A code unit, or a push without text. -/
inductive Token
  | unit (code : UInt16)
  | gap
  deriving DecidableEq

/-- The tokens of the decoded pushes. -/
def tokensOf (texts : List Text) : List Token :=
  texts.flatMap fun text => if text = [] then [.gap] else text.map Token.unit

/-- A line, or the LF of a line end that a gap tore apart. -/
inductive LineEvent
  | line (line : SseLine)
  | torn
  deriving DecidableEq

/-- The event is a line of the uncut stream. -/
def isWhole : LineEvent → Bool
  | .torn => false
  | .line _ => true

@[simp] theorem filter_isWhole_line (line : SseLine) : [LineEvent.line line].filter isWhole = [.line line] := rfl

/-- Whether the last unit was a CR, and whether a gap came since. -/
inductive LastCr
  | none
  | fresh
  | cut
  deriving DecidableEq

/-- The lines read so far and the one being read. -/
structure LineScan where
  started : Bool := false
  current : Text := []
  lastCr : LastCr := .none
  events : List LineEvent := []
  deriving DecidableEq

namespace LineScan

/-- A gap cuts a line end that waits for its LF. -/
def gap (scan : LineScan) : LineScan :=
  if scan.lastCr = .fresh then { scan with lastCr := .cut } else scan

/-- The line being read ends. -/
def endLine (scan : LineScan) (lastCr : LastCr) : LineScan :=
  { scan with current := [], lastCr, events := scan.events ++ [.line (readLine scan.current)] }

/-- One code unit of a started stream. -/
def unit (scan : LineScan) (code : UInt16) : LineScan :=
  if code = lf then
    match scan.lastCr with
    | .none => scan.endLine .none
    | .fresh => { scan with lastCr := .none }
    | .cut => { scan with lastCr := .none, events := scan.events ++ [.torn] }
  else if code = cr then scan.endLine .fresh
  else { scan with current := scan.current ++ [code], lastCr := .none }

/-- One token; a BOM that comes first is dropped. -/
def step (scan : LineScan) : Token → LineScan
  | .gap => scan.gap
  | .unit code =>
    if scan.started then scan.unit code
    else if code = bom then { scan with started := true }
    else { scan with started := true }.unit code

/-- Read the tokens. -/
def run (scan : LineScan) (tokens : List Token) : LineScan := tokens.foldl step scan

theorem run_append (scan : LineScan) (first second : List Token) :
    scan.run (first ++ second) = (scan.run first).run second := List.foldl_append ..

@[simp] theorem run_nil (scan : LineScan) : scan.run [] = scan := rfl

@[simp] theorem run_cons (scan : LineScan) (token : Token) (rest : List Token) :
    scan.run (token :: rest) = (scan.step token).run rest := rfl

/-- An LF after anything but a CR ends the line. -/
theorem unit_lf {scan : LineScan} (h : scan.lastCr = .none) : scan.unit lf = scan.endLine .none := by
  simp [unit, h]

/-- An LF right after its CR ends nothing more. -/
theorem unit_lf_fresh {scan : LineScan} (h : scan.lastCr = .fresh) :
    scan.unit lf = { scan with lastCr := .none } := by
  simp [unit, h]

/-- An LF that a gap cut off from its CR is torn. -/
theorem unit_lf_cut {scan : LineScan} (h : scan.lastCr = .cut) :
    scan.unit lf = { scan with lastCr := .none, events := scan.events ++ [.torn] } := by
  simp [unit, h]

@[simp] theorem unit_cr (scan : LineScan) : scan.unit cr = scan.endLine .fresh := by
  simp [unit, cr, lf]

/-- Any other unit is kept. -/
theorem unit_text {code : UInt16} (hlf : code ≠ lf) (hcr : code ≠ cr) (scan : LineScan) :
    scan.unit code = { scan with current := scan.current ++ [code], lastCr := .none } := by
  simp [unit, hlf, hcr]

/-- A started stream keeps its BOMs. -/
theorem step_unit {scan : LineScan} (h : scan.started = true) (code : UInt16) :
    scan.step (.unit code) = scan.unit code := by
  simp [step, h]

/-- The line being read has no line end in it, and nothing after a CR. -/
structure Settled (scan : LineScan) : Prop where
  plain : ∀ code ∈ scan.current, code ≠ lf ∧ code ≠ cr
  waiting : scan.lastCr ≠ .none → scan.current = []
  unstarted : scan.started = false → scan.lastCr = .none ∧ scan.current = []

/-- Reading a unit keeps the line free of line ends. -/
theorem Settled.unit {scan : LineScan} (h : scan.Settled) (hstarted : scan.started = true) (code : UInt16) :
    (scan.unit code).Settled := by
  have hunstarted (next : LineScan) (hnext : next.started = true) :
      next.started = false → next.lastCr = .none ∧ next.current = [] := by simp [hnext]
  by_cases hlf : code = lf
  · subst hlf
    cases hlast : scan.lastCr with
    | none =>
      rw [unit_lf hlast]
      exact ⟨by simp [endLine], fun _ => rfl, hunstarted _ hstarted⟩
    | fresh =>
      rw [unit_lf_fresh hlast]
      exact ⟨h.plain, by simp, hunstarted _ hstarted⟩
    | cut =>
      rw [unit_lf_cut hlast]
      exact ⟨h.plain, by simp, hunstarted _ hstarted⟩
  · by_cases hcr : code = cr
    · subst hcr
      rw [unit_cr]
      exact ⟨by simp [endLine], fun _ => rfl, hunstarted _ hstarted⟩
    · rw [unit_text hlf hcr]
      refine ⟨fun other hother => ?_, by simp, hunstarted _ hstarted⟩
      rcases List.mem_append.mp hother with hkept | hnew
      · exact h.plain other hkept
      · rw [List.mem_singleton.mp hnew]
        exact ⟨hlf, hcr⟩

/-- Reading a token keeps the line free of line ends. -/
theorem Settled.step {scan : LineScan} (h : scan.Settled) (token : Token) : (scan.step token).Settled := by
  cases token with
  | gap =>
    change (if scan.lastCr = .fresh then _ else _ : LineScan).Settled
    split
    · next hfresh =>
      refine ⟨h.plain, fun _ => h.waiting (by simp [hfresh]), fun hstarted => ?_⟩
      simp [(h.unstarted hstarted).1] at hfresh
    · exact h
  | unit code =>
    cases hstarted : scan.started with
    | true =>
      rw [step_unit hstarted]
      exact h.unit hstarted code
    | false =>
      have hnow : ({ scan with started := true } : LineScan).Settled := ⟨h.plain, h.waiting, by simp⟩
      by_cases hbom : code = bom
      · simpa [LineScan.step, hstarted, hbom] using hnow
      · simpa [LineScan.step, hstarted, hbom] using hnow.unit rfl code

/-- Reading tokens keeps the line free of line ends. -/
theorem Settled.run {scan : LineScan} (h : scan.Settled) (tokens : List Token) : (scan.run tokens).Settled := by
  induction tokens generalizing scan with
  | nil => exact h
  | cons token rest ih => exact ih (h.step token)

end LineScan

namespace SseCollector

/-- Take a line event in: a torn line end is a blank line to the parser. -/
def apply (collector : SseCollector) : LineEvent → SseCollector
  | .line line => collector.take line
  | .torn => collector.dispatch

/-- Take line events in. -/
def applyAll (collector : SseCollector) (events : List LineEvent) : SseCollector :=
  events.foldl apply collector

end SseCollector

/-- The parser keeps what the lines so far say. -/
structure Follows (parser : SseParser) (scan : LineScan) : Prop where
  buffer : parser.buffer = scan.current
  start : parser.atStreamStart = !scan.started
  pending : parser.pendingLf = decide (scan.lastCr = .fresh)
  collector : parser.collector = SseCollector.applyAll {} scan.events

/-- Following does not look at the decoder. -/
theorem Follows.withDecoder {parser : SseParser} {scan : LineScan} (h : Follows parser scan)
    (decoder : TextDecoder) : Follows { parser with decoder } scan := ⟨h.1, h.2, h.3, h.4⟩

section Scan

/-- Taking the line being read follows its end. -/
theorem line_follows {parser : SseParser} {scan : LineScan}
    (h : parser.collector = SseCollector.applyAll {} scan.events) (lastCr : LastCr) :
    (parser.line scan.current).collector = SseCollector.applyAll {} (scan.endLine lastCr).events := by
  simp [SseParser.line, LineScan.endLine, SseCollector.applyAll, SseCollector.apply, h]

/-- Walking over text follows reading its units, from where no CR is pending. -/
theorem scan_follows (length : Nat) (parser : SseParser) (scan : LineScan) (text : Text)
    (hlength : text.length ≤ length) (hcollector : parser.collector = SseCollector.applyAll {} scan.events)
    (hstarted : scan.started = true) (hstart : parser.atStreamStart = false) (hpending : parser.pendingLf = false)
    (hcr : scan.lastCr = .none) : Follows (parser.scan scan.current text) (scan.run (text.map Token.unit)) := by
  induction length generalizing parser scan text with
  | zero =>
    obtain rfl := List.length_eq_zero_iff.mp (Nat.le_zero.mp hlength)
    rw [SseParser.scan_nil]
    exact ⟨rfl, by simp [hstart, hstarted], by simp [hpending, hcr], hcollector⟩
  | succ length ih =>
    cases text with
    | nil =>
      rw [SseParser.scan_nil]
      exact ⟨rfl, by simp [hstart, hstarted], by simp [hpending, hcr], hcollector⟩
    | cons code rest =>
      rw [List.length_cons, Nat.succ_le_succ_iff] at hlength
      rw [List.map_cons, LineScan.run_cons, LineScan.step_unit hstarted]
      by_cases hlf : code = lf
      · subst hlf
        rw [SseParser.scan_lf, LineScan.unit_lf hcr]
        exact ih (parser.line scan.current) (scan.endLine .none) rest hlength (line_follows hcollector _)
          hstarted hstart hpending rfl
      · by_cases hcode : code = cr
        · subst hcode
          rw [LineScan.unit_cr]
          cases rest with
          | nil =>
            rw [SseParser.scan_cr_end]
            exact ⟨rfl, by simp [LineScan.endLine, SseParser.line, hstart, hstarted], rfl,
              line_follows hcollector _⟩
          | cons next later =>
            rw [List.length_cons] at hlength
            have hended (lastCr : LastCr) : (scan.endLine lastCr).started = true := hstarted
            rw [List.map_cons, LineScan.run_cons, LineScan.step_unit (hended _)]
            by_cases hnext : next = lf
            · subst hnext
              rw [SseParser.scan_cr_lf, LineScan.unit_lf_fresh rfl]
              exact ih (parser.line scan.current) { scan.endLine .fresh with lastCr := .none } later
                (by omega) (line_follows hcollector .fresh) hstarted hstart hpending rfl
            · -- After the CR, a unit that is no LF is read as if the line had ended with an LF.
              have hsame : (scan.endLine .fresh).unit next = (scan.endLine .none).step (.unit next) := by
                rw [LineScan.step_unit (hended _)]
                simp [LineScan.unit, hnext, LineScan.endLine]
              rw [SseParser.scan_cr_other hnext, hsame]
              exact ih (parser.line scan.current) (scan.endLine .none) (next :: later) (by simpa using hlength)
                (line_follows hcollector _) hstarted hstart hpending rfl
        · rw [SseParser.scan_text hlf hcode, LineScan.unit_text hlf hcode]
          exact ih parser { scan with current := scan.current ++ [code], lastCr := .none } rest hlength
            hcollector hstarted hstart hpending rfl

/-- A partial line without line ends is walked over in one go. -/
theorem scan_plain (parser : SseParser) (kept text : Text) (hplain : ∀ code ∈ kept, code ≠ lf ∧ code ≠ cr)
    (current : Text) : parser.scan current (kept ++ text) = parser.scan (current ++ kept) text := by
  induction kept generalizing current with
  | nil => simp
  | cons code rest ih =>
    obtain ⟨hlf, hcr⟩ := hplain code List.mem_cons_self
    rw [List.cons_append, SseParser.scan_text hlf hcr,
      ih (fun other hother => hplain other (List.mem_cons_of_mem _ hother))]
    simp

/-- Walking over the kept line and the text after it follows reading the text, where no LF is pending. -/
theorem consume_follows {parser : SseParser} {scan : LineScan} (h : Follows parser scan)
    (hsettled : scan.Settled) (hstarted : scan.started = true) (hcr : scan.lastCr ≠ .fresh) (text : Text) :
    Follows (parser.consume text) (scan.run (text.map Token.unit)) := by
  have hstart : parser.atStreamStart = false := by
    rw [h.start, hstarted]
    rfl
  have hpending : parser.pendingLf = false := by simp [h.pending, hcr]
  have hscan : parser.consume text = parser.scan scan.current text := by
    rw [SseParser.consume, h.buffer, scan_plain _ _ _ hsettled.plain]
    simp
  rw [hscan]
  cases hlast : scan.lastCr with
  | fresh => exact absurd hlast hcr
  | none => exact scan_follows text.length parser scan text (Nat.le_refl _) h.collector hstarted hstart hpending hlast
  | cut =>
    have hempty : scan.current = [] := hsettled.waiting (by simp [hlast])
    cases text with
    | nil =>
      rw [SseParser.scan_nil]
      exact ⟨rfl, by simp [hstart, hstarted], by simp [hpending, hlast], h.collector⟩
    | cons code rest =>
      rw [List.map_cons, LineScan.run_cons, LineScan.step_unit hstarted]
      by_cases hlf : code = lf
      · -- The LF that a gap cut off is a blank line to the parser.
        subst hlf
        have htorn : (parser.line scan.current).collector = SseCollector.applyAll {} (scan.events ++ [.torn]) := by
          simp [SseParser.line, hempty, readLine, SseCollector.take, SseCollector.applyAll,
            SseCollector.apply, h.collector]
        rw [SseParser.scan_lf, LineScan.unit_lf_cut hlast]
        have hnext := scan_follows rest.length (parser.line scan.current)
          { scan with lastCr := .none, events := scan.events ++ [.torn] } rest (Nat.le_refl _) htorn hstarted hstart
          hpending rfl
        rwa [hempty] at hnext ⊢
      · have hcleared : ({ scan with lastCr := .none } : LineScan).started = true := hstarted
        have hsame : scan.unit code = ({ scan with lastCr := .none } : LineScan).step (.unit code) := by
          rw [LineScan.step_unit hcleared]
          simp [LineScan.unit, hlf, LineScan.endLine]
        rw [hsame]
        exact scan_follows (code :: rest).length parser { scan with lastCr := .none } (code :: rest) (Nat.le_refl _)
          h.collector hstarted hstart hpending rfl

/-- Reading text after a CR is reading it after the LF that completes the CR. -/
theorem run_fresh {scan : LineScan} (hstarted : scan.started = true) (hcr : scan.lastCr = .fresh) {text : Text}
    (htext : text ≠ []) : scan.run (text.map Token.unit) = { scan with lastCr := .none }.run
      ((if text.head? = some lf then text.tail else text).map Token.unit) := by
  cases text with
  | nil => exact absurd rfl htext
  | cons code rest =>
    rw [List.map_cons, LineScan.run_cons, LineScan.step_unit hstarted]
    by_cases hlf : code = lf
    · subst hlf
      rw [LineScan.unit_lf_fresh hcr]
      simp
    · have hcleared : ({ scan with lastCr := .none } : LineScan).started = true := hstarted
      rw [List.head?_cons, if_neg (by simpa using hlf), List.map_cons, LineScan.run_cons,
        LineScan.step_unit hcleared]
      simp [LineScan.unit, hlf, LineScan.endLine]

/-- Reading the first text of a stream is reading it without its BOM. -/
theorem run_start {scan : LineScan} (hstarted : scan.started = false) {text : Text} (htext : text ≠ []) :
    scan.run (text.map Token.unit) = { scan with started := true }.run
      ((if text.head? = some bom then text.tail else text).map Token.unit) := by
  cases text with
  | nil => exact absurd rfl htext
  | cons code rest =>
    rw [List.map_cons, LineScan.run_cons]
    by_cases hbom : code = bom
    · simp [LineScan.step, hstarted, hbom]
    · simp [LineScan.step, hstarted, hbom]

/-- Taking trimmed text in follows reading the text, once the stream started. -/
theorem trimLf_follows {parser : SseParser} {scan : LineScan} (h : Follows parser scan) (hsettled : scan.Settled)
    (hstarted : scan.started = true) (text : Text) (htext : text = [] → scan.lastCr ≠ .fresh) :
    Follows (if (parser.trimLf text).2 = [] then (parser.trimLf text).1
      else (parser.trimLf text).1.consume (parser.trimLf text).2) (scan.run (text.map Token.unit)) := by
  by_cases hcr : scan.lastCr = .fresh
  · have htext : text ≠ [] := fun hempty => htext hempty hcr
    have hpending : parser.pendingLf = true := by simp [h.pending, hcr]
    have hcleared : Follows { parser with pendingLf := false } { scan with lastCr := .none } :=
      ⟨h.buffer, h.start, rfl, h.collector⟩
    have hplain : ({ scan with lastCr := .none } : LineScan).Settled :=
      ⟨hsettled.plain, by simp, by simp [hstarted]⟩
    rw [run_fresh hstarted hcr htext, SseParser.trimLf_pending hpending]
    generalize (if text.head? = some lf then text.tail else text) = rest
    by_cases hrest : rest = []
    · rw [if_pos hrest, hrest]
      exact hcleared
    · rw [if_neg hrest]
      exact consume_follows hcleared hplain hstarted (by simp) rest
  · have hpending : parser.pendingLf = false := by simp [h.pending, hcr]
    rw [SseParser.trimLf_idle hpending]
    by_cases hrest : text = []
    · rw [if_pos hrest, hrest]
      exact h
    · rw [if_neg hrest]
      exact consume_follows h hsettled hstarted hcr text

/-- Taking text in follows reading its tokens. -/
theorem pushText_follows {parser : SseParser} {scan : LineScan} (h : Follows parser scan)
    (hsettled : scan.Settled) (text : Text) :
    Follows (parser.pushText text) (scan.run (if text = [] then [.gap] else text.map Token.unit)) := by
  by_cases htext : text = []
  · subst htext
    rw [SseParser.pushText_nil, if_pos rfl]
    change Follows _ (if scan.lastCr = .fresh then { scan with lastCr := .cut } else scan)
    by_cases hcr : scan.lastCr = .fresh
    · rw [if_pos hcr]
      exact ⟨h.buffer, h.start, rfl, h.collector⟩
    · rw [if_neg hcr]
      exact ⟨h.buffer, h.start, by simp [hcr], h.collector⟩
  · rw [if_neg htext]
    unfold SseParser.pushText
    cases hstarted : scan.started with
    | true =>
      have hbom : parser.trimBom text = (parser, text) := by simp [SseParser.trimBom, h.start, hstarted]
      rw [hbom]
      exact trimLf_follows h hsettled hstarted text fun hempty => absurd hempty htext
    | false =>
      obtain ⟨hlast, hcurrent⟩ := hsettled.unstarted hstarted
      have hbom : parser.trimBom text = ({ parser with atStreamStart := false },
          if text.head? = some bom then text.tail else text) := by
        simp [SseParser.trimBom, h.start, hstarted, htext]
      rw [hbom, run_start hstarted htext]
      have hnow : Follows { parser with atStreamStart := false } { scan with started := true } :=
        ⟨h.buffer, rfl, h.pending, h.collector⟩
      have hsettled : ({ scan with started := true } : LineScan).Settled :=
        ⟨hsettled.plain, hsettled.waiting, by simp⟩
      exact trimLf_follows hnow hsettled rfl _ fun _ hfresh => by cases hlast.symm.trans hfresh

end Scan

end MultiAiRouter.Translate.Sse
