import MultiAiRouter.Common.Utf8Encode
import MultiAiRouter.Translate.Sse.Chunking

/-!
# What is emitted is read back

An event is written as its name line, if it has a name, a data line for each line of its payload, and a blank
line. Where no payload has a CR and no name a line end, the reader takes the events of a stream back one by
one, however the stream is cut, as text or as the bytes of well-formed text.
-/

namespace MultiAiRouter.Translate.Sse

open Common

/-- An event a translator produces. -/
structure SseEvent where
  event : Option Text := none
  data : Text
  deriving DecidableEq

/-- The pieces of a text between its LFs. -/
def splitLines : Text → List Text
  | [] => [[]]
  | code :: rest =>
    if code = lf then [] :: splitLines rest
    else
      match splitLines rest with
      | [] => [[code]]
      | first :: later => (code :: first) :: later

/-- The text of an event. -/
def encodeSseEvent (event : SseEvent) : Text :=
  let name := match event.event with
    | none => []
    | some name => ascii "event: " ++ name ++ [lf]
  let payload := (splitLines event.data).flatMap fun line => ascii "data: " ++ line ++ [lf]
  name ++ payload ++ [lf]

/-- The frames and comments of a stream of chunks of text, in order. -/
def parseTexts (texts : List Text) : List SseFrame × List Text :=
  let ended := (texts.foldl (fun parser text => parser.push (.text text)) ({} : SseParser)).flush
  (ended.collector.frames, ended.collector.comments)

section Pieces

/-- A text has at least one piece. -/
theorem splitLines_ne_nil (text : Text) : splitLines text ≠ [] := by
  cases text with
  | nil => simp [splitLines]
  | cons code rest =>
    unfold splitLines
    split
    · exact List.cons_ne_nil _ _
    · split <;> exact List.cons_ne_nil _ _

/-- A unit that is no LF begins the first piece. -/
theorem splitLines_cons {code : UInt16} (h : code ≠ lf) (rest : Text) :
    ∃ first later, splitLines rest = first :: later ∧ splitLines (code :: rest) = (code :: first) :: later := by
  cases hrest : splitLines rest with
  | nil => exact absurd hrest (splitLines_ne_nil rest)
  | cons first later => exact ⟨first, later, rfl, by rw [splitLines, if_neg h, hrest]⟩

/-- The pieces have no LF, and no unit that the text has not. -/
theorem mem_splitLines {text piece : Text} {code : UInt16} (hpiece : piece ∈ splitLines text) (hcode : code ∈ piece) :
    code ≠ lf ∧ code ∈ text := by
  induction text generalizing piece with
  | nil =>
    rw [splitLines, List.mem_singleton] at hpiece
    rw [hpiece] at hcode
    cases hcode
  | cons next rest ih =>
    by_cases hnext : next = lf
    · rw [splitLines, if_pos hnext] at hpiece
      rcases List.mem_cons.mp hpiece with rfl | hlater
      · cases hcode
      · exact ⟨(ih hlater hcode).1, List.mem_cons_of_mem _ (ih hlater hcode).2⟩
    · obtain ⟨first, later, hrest, hsplit⟩ := splitLines_cons hnext rest
      rw [hsplit] at hpiece
      rw [hrest] at ih
      rcases List.mem_cons.mp hpiece with rfl | hlater
      · rcases List.mem_cons.mp hcode with rfl | hfirst
        · exact ⟨hnext, List.mem_cons_self⟩
        · exact ⟨(ih List.mem_cons_self hfirst).1, List.mem_cons_of_mem _ (ih List.mem_cons_self hfirst).2⟩
      · exact ⟨(ih (List.mem_cons_of_mem _ hlater) hcode).1,
          List.mem_cons_of_mem _ (ih (List.mem_cons_of_mem _ hlater) hcode).2⟩

/-- The pieces of a text join to it. -/
theorem joinData_splitLines (text : Text) : SseCollector.joinData (splitLines text) = text := by
  unfold SseCollector.joinData
  induction text with
  | nil => rfl
  | cons code rest ih =>
    by_cases hcode : code = lf
    · rw [splitLines, if_pos hcode]
      cases hrest : splitLines rest with
      | nil => exact absurd hrest (splitLines_ne_nil rest)
      | cons first later =>
        rw [hrest] at ih
        simp [ih, hcode]
    · obtain ⟨first, later, hrest, hsplit⟩ := splitLines_cons hcode rest
      rw [hrest] at ih
      rw [hsplit]
      cases later with
      | nil =>
        simp only [List.intersperse_singleton, List.flatten_cons, List.flatten_nil, List.append_nil] at ih ⊢
        rw [ih]
      | cons second others =>
        simp only [List.intersperse_cons_cons, List.flatten_cons] at ih ⊢
        rw [← ih, List.cons_append]

end Pieces

section Lines

/-- The lines an event is written as, the blank one last. -/
def eventLines (event : SseEvent) : List Text :=
  event.event.toList.map (ascii "event: " ++ ·) ++ (splitLines event.data).map (ascii "data: " ++ ·) ++ [[]]

/-- An event is its lines, each ended by an LF. -/
theorem encodeSseEvent_eq (event : SseEvent) : encodeSseEvent event = (eventLines event).flatMap (· ++ [lf]) := by
  obtain ⟨name, data⟩ := event
  cases name <;> simp [encodeSseEvent, eventLines, List.flatMap_map]

/-- Lines without line ends are cut where they were ended. -/
theorem cutLines_lines {lines : List Text} (h : ∀ line ∈ lines, ∀ code ∈ line, code ≠ lf ∧ code ≠ cr) :
    cutLines lf cr [] false (lines.flatMap (· ++ [lf])) = (lines, []) := by
  induction lines with
  | nil => rfl
  | cons line rest ih =>
    have hrest := ih fun other hmem => h other (List.mem_cons_of_mem _ hmem)
    rw [List.flatMap_cons, List.append_assoc]
    by_cases hline : line = []
    · rw [hline, List.nil_append, List.singleton_append, cutLines_end (by simp) (.inl rfl)]
      simp only [show decide (lf = cr) = false by decide, hrest]
    · rw [cutLines_plain hline (h line List.mem_cons_self), List.nil_append, List.singleton_append,
        cutLines_end (by simp) (.inl rfl)]
      simp only [show decide (lf = cr) = false by decide, hrest]

/-- A name line says its name. -/
theorem readLine_event (name : Text) : readLine (ascii "event: " ++ name) = .event name := by
  have hword : ascii "event: " = ascii "event" ++ [colon, space] := by decide
  have hfield : (splitField (ascii "event: " ++ name)) = (ascii "event", name) := by
    rw [hword]
    simp [splitField, ascii, colon, space]
  have hcons : ascii "event: " ++ name = 101 :: ([118, 101, 110, 116, 58, 32] ++ name) := by
    rw [show ascii "event: " = [101, 118, 101, 110, 116, 58, 32] by decide]
    rfl
  rw [hcons] at hfield ⊢
  unfold readLine
  dsimp only
  rw [if_neg (by decide), hfield, if_pos rfl]

/-- A data line says its piece. -/
theorem readLine_data (piece : Text) : readLine (ascii "data: " ++ piece) = .data piece := by
  have hword : ascii "data: " = ascii "data" ++ [colon, space] := by decide
  have hfield : (splitField (ascii "data: " ++ piece)) = (ascii "data", piece) := by
    rw [hword]
    simp [splitField, ascii, colon, space]
  have hcons : ascii "data: " ++ piece = 100 :: ([97, 116, 97, 58, 32] ++ piece) := by
    rw [show ascii "data: " = [100, 97, 116, 97, 58, 32] by decide]
    rfl
  rw [hcons] at hfield ⊢
  unfold readLine
  dsimp only
  have hother : ascii "data" ≠ ascii "event" := by decide
  rw [if_neg (by decide), hfield, if_neg hother, if_pos rfl]

end Lines

section Stream

/-- Where no CR comes, a gap changes nothing. -/
theorem run_tokensOf_plain (texts : List Text) (scan : LineScan) (hlast : scan.lastCr = .none)
    (hplain : cr ∉ texts.flatten) : scan.run (tokensOf texts) = scan.run (texts.flatten.map Token.unit) := by
  have hunit (scan : LineScan) (hlast : scan.lastCr = .none) (code : UInt16) (hcode : code ≠ cr) :
      (scan.unit code).lastCr = .none := by
    by_cases hlf : code = lf
    · rw [hlf, LineScan.unit_lf hlast]
      rfl
    · rw [LineScan.unit_text hlf hcode]
  have hstep (scan : LineScan) (hlast : scan.lastCr = .none) (code : UInt16) (hcode : code ≠ cr) :
      (scan.step (.unit code)).lastCr = .none := by
    unfold LineScan.step
    dsimp only
    split
    · exact hunit scan hlast code hcode
    · split
      · exact hlast
      · exact hunit { scan with started := true } hlast code hcode
  have hrun (text : Text) (scan : LineScan) (hlast : scan.lastCr = .none) (hplain : cr ∉ text) :
      (scan.run (text.map Token.unit)).lastCr = .none := by
    induction text generalizing scan with
    | nil => exact hlast
    | cons code rest ih =>
      rw [List.mem_cons, not_or] at hplain
      exact ih _ (hstep scan hlast code (Ne.symm hplain.1)) hplain.2
  induction texts generalizing scan with
  | nil => rfl
  | cons text rest ih =>
    rw [List.flatten_cons, List.mem_append, not_or] at hplain
    unfold tokensOf at ih ⊢
    rw [List.flatMap_cons, LineScan.run_append, List.flatten_cons, List.map_append, LineScan.run_append]
    by_cases htext : text = []
    · have hgap : scan.run [.gap] = scan := by simp [LineScan.step, LineScan.gap, hlast]
      rw [if_pos htext, hgap, htext]
      exact ih scan hlast hplain.2
    · rw [if_neg htext]
      exact ih _ (hrun text scan hlast hplain.1) hplain.2

/-- However a text of whole lines is cut, its lines are read. -/
theorem run_lines {texts lines : List Text} (htexts : texts.flatten = lines.flatMap (· ++ [lf]))
    (hplain : ∀ line ∈ lines, ∀ code ∈ line, code ≠ lf ∧ code ≠ cr) (hunmarked : texts.flatten.head? ≠ some bom) :
    (LineScan.run {} (tokensOf texts)).events = lines.map (fun raw => .line (readLine raw)) ∧
      (LineScan.run {} (tokensOf texts)).current = [] := by
  have hcr : cr ∉ texts.flatten := by
    rw [htexts]
    intro hmem
    obtain ⟨line, hline, hcode⟩ := List.mem_flatMap.mp hmem
    rcases List.mem_append.mp hcode with hown | hend
    · exact (hplain line hline cr hown).2 rfl
    · exact absurd (List.mem_singleton.mp hend) (by decide)
  rw [run_tokensOf_plain texts {} rfl hcr]
  have hcut := cutLines_lines hplain
  rw [← htexts] at hcut
  cases htext : texts.flatten with
  | nil =>
    rw [htext] at hcut
    have hnone : lines = [] := (congrArg Prod.fst hcut).symm
    rw [hnone]
    exact ⟨rfl, rfl⟩
  | cons code rest =>
    rw [htext] at hcut hunmarked
    rw [run_start rfl (List.cons_ne_nil code rest), if_neg hunmarked]
    obtain ⟨hevents, hcurrent⟩ := LineScan.run_text (code :: rest) { started := true } rfl false rfl
    exact ⟨by rw [hevents, hcut]; rfl, by rw [hcurrent, hcut]⟩

/-- The frame an event is read back as. -/
def frameOfEvent (event : SseEvent) : SseFrame := { event := event.event, data := event.data }

/-- The data lines of a payload are collected as its pieces. -/
theorem takeAll_data (pieces : List Text) (collector : SseCollector) :
    collector.takeAll (pieces.map (ascii "data: " ++ ·)) = { collector with data := collector.data ++ pieces } := by
  induction pieces generalizing collector with
  | nil => simp
  | cons piece rest ih =>
    rw [List.map_cons, SseCollector.takeAll_cons, readLine_data, ih]
    simp [SseCollector.take]

theorem SseCollector.takeAll_append (collector : SseCollector) (first second : List Text) :
    collector.takeAll (first ++ second) = (collector.takeAll first).takeAll second := List.foldl_append ..

/-- The lines of an event hand its frame on. -/
theorem takeAll_eventLines (event : SseEvent) {collector : SseCollector} (hevent : collector.event = none)
    (hdata : collector.data = []) :
    collector.takeAll (eventLines event) = { collector with frames := collector.frames ++ [frameOfEvent event] } := by
  obtain ⟨held, data, frames, comments⟩ := collector
  subst hevent hdata
  obtain ⟨name, payload⟩ := event
  have hblank (collector : SseCollector) (hpieces : collector.data = splitLines payload) : collector.takeAll [[]] =
        { collector with
          frames := collector.frames ++ [{ event := collector.event, data := payload }]
          event := none
          data := [] } := by
    have hne : collector.data ≠ [] := by rw [hpieces]; exact splitLines_ne_nil payload
    change collector.dispatch = _
    rw [SseCollector.dispatch, if_neg hne, hpieces, joinData_splitLines]
  have hname (name : Text) (collector : SseCollector) :
      collector.takeAll [ascii "event: " ++ name] = { collector with event := some name } := by
    rw [SseCollector.takeAll_cons, readLine_event]
    rfl
  unfold eventLines
  rw [SseCollector.takeAll_append, SseCollector.takeAll_append]
  cases name with
  | none =>
    rw [Option.toList_none, List.map_nil, SseCollector.takeAll_nil, takeAll_data, hblank _ rfl]
    rfl
  | some name =>
    rw [Option.toList_some, List.map_singleton, hname, takeAll_data, hblank _ rfl]
    rfl

/-- The lines of events hand their frames on in order. -/
theorem takeAll_events (events : List SseEvent) {collector : SseCollector} (hevent : collector.event = none)
    (hdata : collector.data = []) : collector.takeAll (events.flatMap eventLines) =
      { collector with frames := collector.frames ++ events.map frameOfEvent } := by
  induction events generalizing collector with
  | nil => simp
  | cons event rest ih =>
    have hnext := @ih { collector with frames := collector.frames ++ [frameOfEvent event] } hevent hdata
    rw [List.flatMap_cons, SseCollector.takeAll_append, takeAll_eventLines event hevent hdata, hnext]
    simp

/-- An event whose payload has no CR and whose name has no line end. -/
structure SseEvent.Plain (event : SseEvent) : Prop where
  data : cr ∉ event.data
  name : ∀ name, event.event = some name → cr ∉ name ∧ lf ∉ name

/-- The lines of a plain event have no line ends. -/
theorem SseEvent.Plain.lines {event : SseEvent} (h : event.Plain) {line : Text} (hline : line ∈ eventLines event)
    {code : UInt16} (hcode : code ∈ line) : code ≠ lf ∧ code ≠ cr := by
  have hword (word : Text) (hword : word.all (fun code => code != lf && code != cr) = true) (rest : Text)
      (hrest : ∀ code ∈ rest, code ≠ lf ∧ code ≠ cr) (hcode : code ∈ word ++ rest) : code ≠ lf ∧ code ≠ cr := by
    rcases List.mem_append.mp hcode with hfirst | hlater
    · simpa using List.all_eq_true.mp hword code hfirst
    · exact hrest code hlater
  unfold eventLines at hline
  rcases List.mem_append.mp hline with hbefore | hblank
  · rcases List.mem_append.mp hbefore with hname | hdata
    · obtain ⟨name, hsome, rfl⟩ := List.mem_map.mp hname
      have hevent : event.event = some name := by simpa using hsome
      refine hword _ (by decide) name (fun unit hunit => ⟨?_, ?_⟩) hcode
      · rintro rfl
        exact (h.name name hevent).2 hunit
      · rintro rfl
        exact (h.name name hevent).1 hunit
    · obtain ⟨piece, hpiece, rfl⟩ := List.mem_map.mp hdata
      refine hword _ (by decide) piece (fun unit hunit => ⟨(mem_splitLines hpiece hunit).1, ?_⟩) hcode
      rintro rfl
      exact h.data (mem_splitLines hpiece hunit).2
  · rw [List.mem_singleton.mp hblank] at hcode
    cases hcode

/-- The text of a stream of events is its lines, and begins with no BOM. -/
theorem encoded_lines (events : List SseEvent) :
    events.flatMap encodeSseEvent = (events.flatMap eventLines).flatMap (· ++ [lf]) ∧
      (events.flatMap encodeSseEvent).head? ≠ some bom := by
  refine ⟨?_, ?_⟩
  · rw [List.flatMap_assoc]
    exact congrArg (events.flatMap ·) (funext encodeSseEvent_eq)
  · cases events with
    | nil => simp
    | cons event rest =>
      obtain ⟨name, data⟩ := event
      have hhead (word more : Text) (hne : word ≠ []) : (word ++ more).head? = word.head? := by
        cases word with
        | nil => exact absurd rfl hne
        | cons first others => rfl
      cases name with
      | some name =>
        simp only [List.flatMap_cons, encodeSseEvent, List.append_assoc]
        rw [hhead _ _ (by decide)]
        decide
      | none =>
        cases hpieces : splitLines data with
        | nil => exact absurd hpieces (splitLines_ne_nil data)
        | cons first later =>
          simp only [List.flatMap_cons, encodeSseEvent, List.append_assoc, List.nil_append, hpieces]
          rw [hhead _ _ (by decide)]
          decide

/-- The collector after a stream of plain events has their frames. -/
theorem frames_of_lines {events : List SseEvent} :
    (SseCollector.applyAll {} ((events.flatMap eventLines).map fun raw => .line (readLine raw))).dispatch.frames =
      events.map frameOfEvent := by
  have htaken : SseCollector.applyAll {} ((events.flatMap eventLines).map fun raw => .line (readLine raw)) =
      SseCollector.takeAll {} (events.flatMap eventLines) := by
    unfold SseCollector.applyAll SseCollector.takeAll
    rw [List.foldl_map]
    rfl
  rw [htaken, takeAll_events events rfl rfl]
  simp [SseCollector.dispatch]

/-- Walking over text leaves the decoder. -/
theorem scan_decoder (parser : SseParser) (current text : Text) :
    (parser.scan current text).decoder = parser.decoder := by
  fun_induction SseParser.scan parser current text with
  | case1 => rfl
  | case2 parser current code rest htext ih => exact ih
  | case3 => rfl
  | case4 parser current later hcr ih => exact ih
  | case5 parser current next later hnext hcr ih => exact ih
  | case6 parser current code rest hend hlf ih => exact ih

/-- Taking text in leaves the decoder. -/
theorem pushText_decoder (parser : SseParser) (text : Text) : (parser.pushText text).decoder = parser.decoder := by
  have hbom : (parser.trimBom text).1.decoder = parser.decoder := by
    unfold SseParser.trimBom
    split <;> rfl
  have hlf (started : SseParser) (text : Text) : (started.trimLf text).1.decoder = started.decoder := by
    unfold SseParser.trimLf
    split <;> rfl
  unfold SseParser.pushText SseParser.consume
  dsimp only
  split
  · rw [hlf, hbom]
  · rw [scan_decoder, hlf, hbom]

/-- Pushing chunks of text follows reading their tokens. -/
theorem pushTexts_follows (texts : List Text) (parser : SseParser) (scan : LineScan) (h : Follows parser scan)
    (hsettled : scan.Settled) :
    Follows (texts.foldl (fun parser text => parser.push (.text text)) parser) (scan.run (tokensOf texts)) ∧
      (texts.foldl (fun parser text => parser.push (.text text)) parser).decoder = parser.decoder := by
  induction texts generalizing parser scan with
  | nil => exact ⟨h, rfl⟩
  | cons text rest ih =>
    obtain ⟨hfollows, hsame⟩ := ih (parser.pushText text) _ (pushText_follows h hsettled text) (hsettled.run _)
    simp only [tokensOf, List.flatMap_cons, LineScan.run_append, List.foldl_cons]
    exact ⟨hfollows, hsame.trans (pushText_decoder parser text)⟩

/-- The pieces of a well-formed text are well formed. -/
theorem isWellFormed_splitLines {text piece : Text} (h : isWellFormed text = true) (hpiece : piece ∈ splitLines text) :
    isWellFormed piece = true := by
  fun_induction isWellFormed text generalizing piece with
  | case1 =>
    rw [splitLines, List.mem_singleton] at hpiece
    rw [hpiece]
    rfl
  | case2 unit =>
    by_cases hunit : unit = lf
    · simp only [splitLines, if_pos hunit, List.mem_cons, List.not_mem_nil, or_false, or_self] at hpiece
      rw [hpiece]
      rfl
    · simp only [splitLines, if_neg hunit, List.mem_singleton] at hpiece
      rw [hpiece]
      exact h
  | case3 unit next rest hpair ih =>
    have hunit : unit ≠ lf := by
      rintro rfl
      exact absurd hpair.1 (by decide)
    have hnext : next ≠ lf := by
      rintro rfl
      exact absurd hpair.2.2.1 (by decide)
    obtain ⟨first, later, hrest, hsplit⟩ := splitLines_cons hnext rest
    obtain ⟨second, others, hnextSplit, hboth⟩ := splitLines_cons hunit (next :: rest)
    rw [hsplit] at hnextSplit
    obtain ⟨rfl, rfl⟩ := List.cons.inj hnextSplit
    rw [hboth] at hpiece
    rw [hrest] at ih
    rcases List.mem_cons.mp hpiece with rfl | hlater
    · rw [isWellFormed, if_pos hpair]
      exact ih h List.mem_cons_self
    · exact ih h (List.mem_cons_of_mem _ hlater)
  | case4 unit next rest hpair ih =>
    rw [Bool.and_eq_true] at h
    have hplain : ¬ (0xD800 ≤ unit ∧ unit ≤ 0xDFFF) := by
      simpa only [Bool.not_eq_true', decide_eq_false_iff_not] using h.1
    by_cases hunit : unit = lf
    · rw [splitLines, if_pos hunit] at hpiece
      rcases List.mem_cons.mp hpiece with rfl | hlater
      · rfl
      · exact ih h.2 hlater
    · obtain ⟨first, later, hrest, hsplit⟩ := splitLines_cons hunit (next :: rest)
      rw [hsplit] at hpiece
      rw [hrest] at ih
      rcases List.mem_cons.mp hpiece with rfl | hlater
      · rw [isWellFormed_cons hplain]
        exact ih h.2 List.mem_cons_self
      · exact ih h.2 (List.mem_cons_of_mem _ hlater)

/-- The text of an event of well-formed parts is well formed. -/
theorem isWellFormed_encode {event : SseEvent} (hdata : isWellFormed event.data = true)
    (hname : ∀ name, event.event = some name → isWellFormed name = true) :
    isWellFormed (encodeSseEvent event) = true := by
  have hend : isWellFormed [lf] = true := by decide
  have hpayload : isWellFormed ((splitLines event.data).flatMap fun line => ascii "data: " ++ line ++ [lf]) = true :=
    isWellFormed_flatMap fun piece hpiece =>
      isWellFormed_append (isWellFormed_append (by decide) (isWellFormed_splitLines hdata hpiece)) hend
  unfold encodeSseEvent
  refine isWellFormed_append (isWellFormed_append ?_ hpayload) hend
  cases hevent : event.event with
  | none => rfl
  | some name => exact isWellFormed_append (isWellFormed_append (by decide) (hname name hevent)) hend

/-- Events whose payloads have no CR and whose names have no line end are read back one frame each, in order,
with their names and payloads: from their text in any chunks and, where it is well formed, from its bytes in
any chunks. -/
theorem parse_encodeSseEvents (events : List SseEvent) (h : ∀ event ∈ events, event.Plain) :
    (∀ texts : List Text, texts.flatten = events.flatMap encodeSseEvent →
      (parseTexts texts).1 = events.map frameOfEvent) ∧
    ((∀ event ∈ events, isWellFormed event.data = true ∧
        ∀ name, event.event = some name → isWellFormed name = true) →
      ∀ chunks : List (List UInt8), chunks.flatten = utf8Encode (events.flatMap encodeSseEvent) →
        (parse chunks).1 = events.map frameOfEvent) := by
  obtain ⟨htext, hunmarked⟩ := encoded_lines events
  have hplain : ∀ line ∈ events.flatMap eventLines, ∀ code ∈ line, code ≠ lf ∧ code ≠ cr := by
    intro line hline code hcode
    obtain ⟨event, hevent, hown⟩ := List.mem_flatMap.mp hline
    exact (h event hevent).lines hown hcode
  have hread {texts : List Text} (htexts : texts.flatten = events.flatMap encodeSseEvent) :=
    @run_lines texts _ (htexts.trans htext) hplain (by rw [htexts]; exact hunmarked)
  refine ⟨fun texts htexts => ?_, fun hformed chunks hchunks => ?_⟩
  · obtain ⟨hevents, hcurrent⟩ := hread htexts
    obtain ⟨hfollows, hdecoder⟩ := pushTexts_follows texts {} {} ⟨rfl, rfl, rfl, rfl⟩ settled_start
    unfold parseTexts SseParser.flush
    dsimp only
    rw [hfollows.buffer, hcurrent, hdecoder, if_pos (by decide)]
    dsimp only
    rw [hfollows.collector, hevents]
    exact frames_of_lines
  · have hencoded := utf8Text_encode _ (isWellFormed_flatMap fun event hevent =>
      isWellFormed_encode (hformed event hevent).1 (hformed event hevent).2)
    rw [← hchunks] at hencoded
    obtain ⟨hdecoded, hend⟩ := decodeStream_text hencoded hunmarked
    obtain ⟨hdecoder, htexts⟩ := decodeChunks_flatten {} chunks
    obtain ⟨hevents, hcurrent⟩ := hread (htexts.trans hdecoded)
    have hlines : lineEvents chunks = (events.flatMap eventLines).map fun raw => .line (readLine raw) := by
      unfold lineEvents
      dsimp only
      rw [hevents, hcurrent, hdecoder, hend]
      simp
    rw [parse_eq, hlines]
    exact frames_of_lines

/-- A named event with two data lines and an unnamed one without data. -/
theorem parse_encodeSseEvents_two :
    (parseTexts [encodeSseEvent ⟨some [101], [97, 10, 32]⟩ ++ encodeSseEvent ⟨none, []⟩]).1 =
      [⟨some [101], [97, 10, 32]⟩, ⟨none, []⟩] :=
  (parse_encodeSseEvents [⟨some [101], [97, 10, 32]⟩, ⟨none, []⟩] (by
    intro event hevent
    simp only [List.mem_cons, List.not_mem_nil, or_false] at hevent
    rcases hevent with rfl | rfl
    · exact ⟨by decide, by simp [cr, lf]⟩
    · exact ⟨by decide, by simp⟩)).1 _ (by simp)

/-- No line end is left in what a frame says. -/
structure SseCollector.Plain (collector : SseCollector) : Prop where
  event : ∀ name, collector.event = some name → cr ∉ name ∧ lf ∉ name
  data : ∀ piece ∈ collector.data, cr ∉ piece
  frames : ∀ frame ∈ collector.frames, SseEvent.Plain ⟨frame.event, frame.data⟩

/-- Joined data without a CR has none. -/
theorem joinData_plain {pieces : List Text} (h : ∀ piece ∈ pieces, cr ∉ piece) : cr ∉ SseCollector.joinData pieces := by
  unfold SseCollector.joinData
  induction pieces with
  | nil => exact List.not_mem_nil
  | cons first rest ih =>
    obtain ⟨hfirst, hrest⟩ := List.forall_mem_cons.mp h
    cases rest with
    | nil => simpa using hfirst
    | cons second others =>
      rw [List.intersperse_cons_cons, List.flatten_cons, List.flatten_cons, List.mem_append, List.mem_append]
      exact not_or.mpr ⟨hfirst, not_or.mpr ⟨by decide, ih hrest⟩⟩

/-- A dispatch is plain. -/
theorem SseCollector.Plain.dispatch {collector : SseCollector} (h : collector.Plain) : collector.dispatch.Plain := by
  unfold SseCollector.dispatch
  split
  · exact ⟨nofun, h.data, h.frames⟩
  · refine ⟨nofun, nofun, fun frame hframe => ?_⟩
    rcases List.mem_append.mp hframe with hheld | hnew
    · exact h.frames frame hheld
    · rw [List.mem_singleton.mp hnew]
      exact ⟨joinData_plain h.data, h.event⟩

/-- A line without line ends leaves none in what is collected. -/
theorem SseCollector.Plain.take {collector : SseCollector} (h : collector.Plain) {raw : Text}
    (hraw : ∀ code ∈ raw, code ≠ lf ∧ code ≠ cr) : (collector.take (readLine raw)).Plain := by
  have hvalue {code : UInt16} (hcode : code ∈ (splitField raw).2) : code ∈ raw := by
    unfold splitField at hcode
    dsimp only at hcode
    split at hcode
    · exact List.mem_of_mem_drop (List.mem_of_mem_tail (List.mem_of_mem_tail hcode))
    · exact List.mem_of_mem_drop (List.mem_of_mem_tail hcode)
  have hcr : cr ∉ (splitField raw).2 := fun hmem => (hraw cr (hvalue hmem)).2 rfl
  have hlf : lf ∉ (splitField raw).2 := fun hmem => (hraw lf (hvalue hmem)).1 rfl
  unfold readLine
  split
  · exact h.dispatch
  · split_ifs
    · exact ⟨h.event, h.data, h.frames⟩
    · exact ⟨fun name hname => Option.some.inj hname ▸ ⟨hcr, hlf⟩, h.data, h.frames⟩
    · refine ⟨h.event, fun piece hpiece => ?_, h.frames⟩
      rcases List.mem_append.mp hpiece with hheld | hnew
      · exact h.data piece hheld
      · exact List.mem_singleton.mp hnew ▸ hcr
    · exact h

/-- No line end is in what the parser collected, nor in the line it keeps. -/
def SseParser.Plain (parser : SseParser) : Prop :=
  parser.collector.Plain ∧ ∀ code ∈ parser.buffer, code ≠ lf ∧ code ≠ cr

/-- What is cut into lines is plain. -/
theorem SseParser.Plain.scan {parser : SseParser} (h : parser.collector.Plain) {current : Text}
    (hcurrent : ∀ code ∈ current, code ≠ lf ∧ code ≠ cr) (text : Text) : (parser.scan current text).Plain := by
  fun_induction SseParser.scan parser current text with
  | case1 => exact ⟨h, hcurrent⟩
  | case2 parser current code rest htext ih =>
    refine ih h fun unit hunit => ?_
    rcases List.mem_append.mp hunit with hkept | hnew
    · exact hcurrent unit hkept
    · exact List.mem_singleton.mp hnew ▸ htext
  | case3 => exact ⟨h.take hcurrent, nofun⟩
  | case4 parser current later hcr ih => exact ih (h.take hcurrent) nofun
  | case5 parser current next later hnext hcr ih => exact ih (h.take hcurrent) nofun
  | case6 parser current code rest hend hlf ih => exact ih (h.take hcurrent) nofun

/-- A chunk keeps the parser plain. -/
theorem SseParser.Plain.push {parser : SseParser} (h : parser.Plain) (chunk : SseChunk) :
    (parser.push chunk).Plain := by
  have hpush (text : Text) : (parser.pushText text).Plain := by
    have hbom : (parser.trimBom text).1.Plain := by
      unfold SseParser.trimBom
      split <;> exact h
    have hlf (rest : Text) : ((parser.trimBom text).1.trimLf rest).1.Plain := by
      unfold SseParser.trimLf
      split <;> exact hbom
    unfold SseParser.pushText
    dsimp only
    split
    · exact hlf _
    · exact SseParser.Plain.scan (hlf _).1 (by simp) _
  cases chunk with
  | text text => exact hpush text
  | bytes bytes => exact hpush _

/-- Whatever chunks of bytes and of text come, ill-formed or torn: a frame the reader hands on has no CR in its
payload and no line end in its name, as an event must that is to be read back when it is written again. -/
theorem parsed_plain (chunks : List SseChunk) :
    ∀ frame ∈ (chunks.foldl SseParser.push {}).flush.collector.frames, SseEvent.Plain ⟨frame.event, frame.data⟩ := by
  have hrun (parser : SseParser) (h : parser.Plain) : (chunks.foldl SseParser.push parser).Plain := by
    induction chunks generalizing parser with
    | nil => exact h
    | cons chunk rest ih => exact ih _ (h.push chunk)
  obtain ⟨hcollector, hbuffer⟩ := hrun {} ⟨⟨nofun, nofun, nofun⟩, nofun⟩
  generalize chunks.foldl SseParser.push {} = parser at hcollector hbuffer
  have hend : ∀ code ∈ parser.decoder.decodeEnd, code ≠ lf ∧ code ≠ cr := by
    unfold TextDecoder.decodeEnd utf8Finish
    split
    · exact nofun
    · have hreplaced : lossyUnits (TextDecoder.serialize parser.decoder.bomSeen [none]).2 = [0xFFFD] := by
        cases parser.decoder.bomSeen <;> rfl
      rw [hreplaced]
      intro code hcode
      rw [List.mem_singleton.mp hcode]
      exact ⟨by decide, by decide⟩
  unfold SseParser.flush
  dsimp only
  split
  · exact hcollector.dispatch.frames
  · refine (SseCollector.Plain.dispatch (hcollector.take fun code hcode => ?_)).frames
    rcases List.mem_append.mp hcode with hkept | hdecoded
    · exact hbuffer code hkept
    · exact hend code hdecoded

/-- A frame read from two halves. -/
theorem parsed_plain_halved : SseEvent.Plain ⟨none, ascii "a\nb"⟩ :=
  parsed_plain (halved.map .bytes) ⟨none, ascii "a\nb"⟩ (by decide +kernel)

end Stream

end MultiAiRouter.Translate.Sse
