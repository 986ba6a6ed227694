import MultiAiRouter.Common.Utf8Lines
import MultiAiRouter.Translate.Sse.Stanzas

/-!
# Parsing and chunk boundaries

The same bytes cut differently have the same lines, but for the line ends that a gap tore apart. A torn line end
breaks a stanza, the lines up to the next blank one, into pieces. The frames are those of the uncut stream exactly
when every torn stanza keeps its data in one piece, together with the event it ends up with.
-/

namespace MultiAiRouter.Translate.Sse

open Common

section Decoding

/-- Decode chunk by chunk. -/
def decodeChunks (decoder : TextDecoder) : List (List UInt8) → TextDecoder × List Text
  | [] => (decoder, [])
  | chunk :: rest =>
    let (next, text) := decoder.decodeStream chunk
    let (last, texts) := decodeChunks next rest
    (last, text :: texts)

/-- Dropping a leading BOM looks at the first value only. -/
theorem serialize_append (bomSeen : Bool) (first second : List (Option Nat)) :
    TextDecoder.serialize bomSeen (first ++ second) =
      ((TextDecoder.serialize (TextDecoder.serialize bomSeen first).1 second).1,
        (TextDecoder.serialize bomSeen first).2 ++
          (TextDecoder.serialize (TextDecoder.serialize bomSeen first).1 second).2) := by
  cases first with
  | nil => rfl
  | cons value rest =>
    cases second with
    | nil => simp [TextDecoder.serialize]
    | cons next later =>
      simp only [List.cons_append, TextDecoder.serialize]
      split <;> simp

/-- Decoding two chunks is decoding the first and then the second. -/
theorem decodeStream_append (decoder : TextDecoder) (first second : List UInt8) :
    decoder.decodeStream (first ++ second) = (((decoder.decodeStream first).1.decodeStream second).1,
        (decoder.decodeStream first).2 ++ ((decoder.decodeStream first).1.decodeStream second).2) := by
  simp [TextDecoder.decodeStream, utf8Run_append, serialize_append, lossyUnits]

/-- Decoding chunk by chunk is decoding the bytes. -/
theorem decodeChunks_flatten (decoder : TextDecoder) (chunks : List (List UInt8)) :
    (decodeChunks decoder chunks).1 = (decoder.decodeStream chunks.flatten).1 ∧
      (decodeChunks decoder chunks).2.flatten = (decoder.decodeStream chunks.flatten).2 := by
  induction chunks generalizing decoder with
  | nil => simp [decodeChunks, TextDecoder.decodeStream, utf8Run, TextDecoder.serialize, lossyUnits]
  | cons chunk rest ih =>
    obtain ⟨hdecoder, htext⟩ := ih (decoder.decodeStream chunk).1
    rw [List.flatten_cons, decodeStream_append]
    exact ⟨hdecoder, by simp [decodeChunks, htext]⟩

end Decoding

section Events

/-- The lines of a chunked stream, with the one the end of the stream leaves unterminated. -/
def lineEvents (chunks : List (List UInt8)) : List LineEvent :=
  let (decoder, texts) := decodeChunks {} chunks
  let scan := LineScan.run {} (tokensOf texts)
  let rest := scan.current ++ decoder.decodeEnd
  scan.events ++ if rest = [] then [] else [.line (readLine rest)]

/-- Nothing was read at the start. -/
theorem settled_start : ({} : LineScan).Settled := ⟨by simp, by simp, by simp⟩

/-- Pushing chunks follows reading their tokens. -/
theorem push_follows (chunks : List (List UInt8)) (parser : SseParser) (scan : LineScan)
    (h : Follows parser scan) (hsettled : scan.Settled) :
    Follows (parser.pushAll chunks) (scan.run (tokensOf (decodeChunks parser.decoder chunks).2)) ∧
      (parser.pushAll chunks).decoder = (decodeChunks parser.decoder chunks).1 := by
  induction chunks generalizing parser scan with
  | nil => exact ⟨h, rfl⟩
  | cons chunk rest ih =>
    have hpushed := (pushText_follows h hsettled (parser.decoder.decodeStream chunk).2).withDecoder
      (parser.decoder.decodeStream chunk).1
    have hnext := ih (parser.push (.bytes chunk)) _ hpushed (hsettled.run _)
    simp only [decodeChunks, tokensOf, List.flatMap_cons, LineScan.run_append]
    exact hnext

/-- The frames and comments are what the lines say. -/
theorem parse_eq (chunks : List (List UInt8)) :
    parse chunks = ((SseCollector.applyAll {} (lineEvents chunks)).dispatch.frames,
      (SseCollector.applyAll {} (lineEvents chunks)).dispatch.comments) := by
  obtain ⟨hfollows, hdecoder⟩ := push_follows chunks {} {} ⟨rfl, rfl, rfl, rfl⟩ settled_start
  have hcollector : (SseParser.pushAll {} chunks).flush.collector =
      (SseCollector.applyAll {} (lineEvents chunks)).dispatch := by
    unfold SseParser.flush lineEvents
    dsimp only
    rw [hfollows.buffer, hdecoder]
    split
    · simp [hfollows.collector]
    · simp [SseParser.line, hfollows.collector, SseCollector.applyAll, SseCollector.apply]
  simp only [parse, hcollector]

/-- Two readings of the same units, the second without gaps. -/
structure Mends (torn whole : LineScan) : Prop where
  started : whole.started = torn.started
  current : whole.current = torn.current
  lastCr : whole.lastCr = if torn.lastCr = .none then .none else .fresh
  events : whole.events = torn.events.filter isWhole

/-- A gap changes nothing of the uncut reading. -/
theorem Mends.gap {torn whole : LineScan} (h : Mends torn whole) : Mends torn.gap whole := by
  unfold LineScan.gap
  split
  · next hfresh => exact ⟨h.started, h.current, by simp [h.lastCr, hfresh], h.events⟩
  · exact h

/-- A unit is read alike. -/
theorem Mends.unit {torn whole : LineScan} (h : Mends torn whole) (code : UInt16) :
    Mends (torn.unit code) (whole.unit code) := by
  have hlast := h.lastCr
  by_cases hlf : code = lf
  · subst hlf
    cases htorn : torn.lastCr with
    | none =>
      rw [LineScan.unit_lf htorn, LineScan.unit_lf (by simp [hlast, htorn])]
      exact ⟨h.started, rfl, rfl, by simp [LineScan.endLine, h.events, h.current]⟩
    | fresh =>
      rw [LineScan.unit_lf_fresh htorn, LineScan.unit_lf_fresh (by simp [hlast, htorn])]
      exact ⟨h.started, h.current, rfl, h.events⟩
    | cut =>
      rw [LineScan.unit_lf_cut htorn, LineScan.unit_lf_fresh (by simp [hlast, htorn])]
      exact ⟨h.started, h.current, rfl, by simp [h.events, isWhole]⟩
  · by_cases hcr : code = cr
    · subst hcr
      rw [LineScan.unit_cr, LineScan.unit_cr]
      exact ⟨h.started, rfl, rfl, by simp [LineScan.endLine, h.events, h.current]⟩
    · rw [LineScan.unit_text hlf hcr, LineScan.unit_text hlf hcr]
      exact ⟨h.started, by simp [h.current], rfl, h.events⟩

/-- A token is read alike. -/
theorem Mends.stepUnit {torn whole : LineScan} (h : Mends torn whole) (code : UInt16) :
    Mends (torn.step (.unit code)) (whole.step (.unit code)) := by
  have hnow : Mends { torn with started := true } { whole with started := true } :=
    ⟨rfl, h.current, h.lastCr, h.events⟩
  unfold LineScan.step
  dsimp only
  rw [h.started]
  split
  · exact h.unit code
  · split
    · exact hnow
    · exact hnow.unit code

/-- Reading the tokens mends to reading the units. -/
theorem Mends.run {torn whole : LineScan} (h : Mends torn whole) (texts : List Text) :
    Mends (torn.run (tokensOf texts)) (whole.run (texts.flatten.map Token.unit)) := by
  have hunits (text : Text) {torn whole : LineScan} (h : Mends torn whole) :
      Mends (torn.run (text.map Token.unit)) (whole.run (text.map Token.unit)) := by
    induction text generalizing torn whole with
    | nil => exact h
    | cons code rest ih => exact ih (h.stepUnit code)
  induction texts generalizing torn whole with
  | nil => exact h
  | cons text rest ih =>
    simp only [tokensOf, List.flatMap_cons, LineScan.run_append, List.flatten_cons, List.map_append]
    refine ih ?_
    split
    · next hempty =>
      rw [hempty]
      exact h.gap
    · exact hunits text h

/-- The uncut stream has the same lines, and no torn line end. -/
theorem lineEvents_flatten (chunks : List (List UInt8)) :
    lineEvents [chunks.flatten] = (lineEvents chunks).filter isWhole := by
  obtain ⟨hdecoder, htext⟩ := decodeChunks_flatten {} chunks
  have hmends : Mends (LineScan.run {} (tokensOf (decodeChunks {} chunks).2))
      (LineScan.run {} ((decodeChunks {} chunks).2.flatten.map Token.unit)) :=
    Mends.run ⟨rfl, rfl, rfl, rfl⟩ _
  have hone (text : Text) : LineScan.run {} (tokensOf [text]) = LineScan.run {} (text.map Token.unit) := by
    by_cases hempty : text = []
    · subst hempty
      rfl
    · simp [tokensOf, hempty]
  have hwhole : decodeChunks {} [chunks.flatten] =
      ((decodeChunks {} chunks).1, [(decodeChunks {} chunks).2.flatten]) := by
    rw [hdecoder, htext]
    rfl
  unfold lineEvents
  rw [hwhole]
  dsimp only
  rw [hone, hmends.current, hmends.events, List.filter_append]
  split <;> simp

end Events

/-- No empty push tears a CRLF so that a frame comes out otherwise. -/
def KeepsFrames (chunks : List (List UInt8)) : Prop := ∀ stanza ∈ stanzasOf (lineEvents chunks), KeepsFrame stanza

/-- A chunking is read like the uncut stream exactly when it keeps the frames. -/
theorem parse_eq_flatten_iff (chunks : List (List UInt8)) :
    parse chunks = parse [chunks.flatten] ↔ KeepsFrames chunks := by
  rw [parse_eq, parse_eq, lineEvents_flatten, Prod.mk.injEq, frames_eq_filter_iff, applyAll_comments,
    applyAll_comments, commentsOf_filter]
  exact and_iff_left rfl

/-- Two chunkings of the same bytes, one of which keeps the frames, are read alike exactly when the
other keeps the frames too. -/
theorem parse_chunking_iff (first second : List (List UInt8)) (hsame : first.flatten = second.flatten)
    (hsecond : KeepsFrames second) : parse first = parse second ↔ KeepsFrames first := by
  rw [(parse_eq_flatten_iff second).mpr hsecond, ← hsame]
  exact parse_eq_flatten_iff first

/-- Where no line end is torn, the frames are kept. -/
theorem keepsFrames_of_untorn {chunks : List (List UInt8)} (h : .torn ∉ lineEvents chunks) :
    KeepsFrames chunks := by
  have hwhole : (lineEvents chunks).filter isWhole = lineEvents chunks := by
    refine List.filter_eq_self.mpr fun event hmem => ?_
    cases event with
    | torn => exact absurd hmem h
    | line line => rfl
  rw [← parse_eq_flatten_iff, parse_eq, parse_eq, lineEvents_flatten, hwhole]

/-- Two data lines ended by a CRLF and an LF. -/
def twoLines : List UInt8 := "data: a\r\ndata: b\n\n".toUTF8.toList

/-- Cut between the CR and the LF, with an empty chunk there. -/
def torn : List (List UInt8) := [twoLines.take 8, [], twoLines.drop 8]

/-- Cut between the CR and the LF, without one. -/
def halved : List (List UInt8) := [twoLines.take 8, twoLines.drop 8]

/-- Cutting a CRLF in the middle is harmless. -/
theorem parse_chunking_iff_halved : KeepsFrames [twoLines] ∧ parse halved = parse [twoLines] := by
  have hwhole : KeepsFrames [twoLines] := keepsFrames_of_untorn (by decide +kernel)
  exact ⟨hwhole, (parse_chunking_iff halved [twoLines] (by decide +kernel) hwhole).mpr
    (keepsFrames_of_untorn (by decide +kernel))⟩

/-- An empty chunk in the middle of a CRLF makes two frames of one. -/
theorem parse_torn : torn.flatten = [twoLines].flatten ∧ parse torn ≠ parse [twoLines] := by
  decide +kernel

/-- Take lines of text in. -/
def SseCollector.takeAll (collector : SseCollector) (lines : List Text) : SseCollector :=
  lines.foldl (fun collector raw => collector.take (readLine raw)) collector

@[simp] theorem SseCollector.takeAll_nil (collector : SseCollector) : collector.takeAll [] = collector := rfl

@[simp] theorem SseCollector.takeAll_cons (collector : SseCollector) (raw : Text) (rest : List Text) :
    collector.takeAll (raw :: rest) = (collector.take (readLine raw)).takeAll rest := rfl

/-- Reading the units of a text reads its lines. -/
theorem LineScan.run_text (text : Text) (scan : LineScan) (hstarted : scan.started = true) (afterCr : Bool)
    (hlast : scan.lastCr = if afterCr then .fresh else .none) : (scan.run (text.map Token.unit)).events =
        scan.events ++ (cutLines lf cr scan.current afterCr text).1.map (fun raw => .line (readLine raw)) ∧
      (scan.run (text.map Token.unit)).current = (cutLines lf cr scan.current afterCr text).2 := by
  induction text generalizing scan afterCr with
  | nil => exact ⟨by simp [cutLines], rfl⟩
  | cons code rest ih =>
    rw [List.map_cons, run_cons, step_unit hstarted]
    have hended (lastCr : LastCr) : (scan.endLine lastCr).started = true := hstarted
    by_cases hlf : code = lf
    · subst hlf
      cases afterCr with
      | true =>
        rw [unit_lf_fresh hlast, cutLines_lf_afterCr]
        exact ih { scan with lastCr := .none } hstarted false rfl
      | false =>
        rw [unit_lf hlast, cutLines_end (by simp) (.inl rfl)]
        obtain ⟨hevents, hcurrent⟩ := ih (scan.endLine .none) (hended _) false rfl
        exact ⟨by rw [hevents]; simp [endLine, lf, cr], hcurrent⟩
    · by_cases hcr : code = cr
      · subst hcr
        rw [unit_cr, cutLines_end (by simp [lf, cr]) (.inr rfl)]
        obtain ⟨hevents, hcurrent⟩ := ih (scan.endLine .fresh) (hended _) true rfl
        exact ⟨by rw [hevents]; simp [endLine], by rw [hcurrent]; simp [endLine]⟩
      · rw [unit_text hlf hcr, cutLines_code hlf hcr]
        exact ih { scan with current := scan.current ++ [code], lastCr := .none } hstarted false rfl

/-- Well-formed bytes decode to their text, and leave nothing behind. -/
theorem decodeStream_text {bytes : List UInt8} {text : Text} (htext : utf8Text bytes = some text)
    (hunmarked : text.head? ≠ some bom) : (({} : TextDecoder).decodeStream bytes).2 = text ∧
      (({} : TextDecoder).decodeStream bytes).1.decodeEnd = [] := by
  obtain ⟨codes, hcodes, rfl⟩ := Option.map_eq_some_iff.mp htext
  have hrun := utf8Run_of_scalars hcodes
  have hkept : (TextDecoder.serialize false (codes.map some)).2 = codes.map some := by
    cases codes with
    | nil => rfl
    | cons code rest =>
      have hcode : code ≠ 0xFEFF := by
        rintro rfl
        exact hunmarked rfl
      simp [TextDecoder.serialize, hcode]
  unfold TextDecoder.decodeEnd TextDecoder.decodeStream
  rw [hrun]
  dsimp only
  rw [hkept]
  refine ⟨?_, by simp [utf8Finish, TextDecoder.serialize, lossyUnits]⟩
  simp [lossyUnits, List.flatMap_map]

/-- The lines of a whole text, and the line it leaves open. -/
theorem lineEvents_text {bytes : List UInt8} {text : Text} (htext : utf8Text bytes = some text)
    (hunmarked : text.head? ≠ some bom) (hclosed : (cutLines lf cr [] false text).2 = []) :
    lineEvents [bytes] = (cutLines lf cr [] false text).1.map fun raw => .line (readLine raw) := by
  obtain ⟨hdecoded, hend⟩ := decodeStream_text htext hunmarked
  have hrun : (LineScan.run {} (tokensOf [text])).events =
        (cutLines lf cr [] false text).1.map (fun raw => .line (readLine raw)) ∧
      (LineScan.run {} (tokensOf [text])).current = (cutLines lf cr [] false text).2 := by
    cases text with
    | nil => exact ⟨rfl, rfl⟩
    | cons code rest =>
      have hstart := run_start (rfl : ({} : LineScan).started = false) (List.cons_ne_nil code rest)
      rw [if_neg hunmarked] at hstart
      have htokens : tokensOf [code :: rest] = (code :: rest).map Token.unit := by simp [tokensOf]
      rw [htokens, hstart]
      exact LineScan.run_text (code :: rest) { started := true } rfl false rfl
  unfold lineEvents decodeChunks decodeChunks
  dsimp only
  rw [hdecoded, hend, hrun.1, hrun.2, hclosed]
  simp

/-- The frames of a whole text are what its lines say. -/
theorem parse_text {bytes : List UInt8} {text : Text} (htext : utf8Text bytes = some text)
    (hunmarked : text.head? ≠ some bom) (hclosed : (cutLines lf cr [] false text).2 = []) :
    (parse [bytes]).1 = (SseCollector.takeAll {} (cutLines lf cr [] false text).1).dispatch.frames := by
  rw [parse_eq, lineEvents_text htext hunmarked hclosed]
  unfold SseCollector.applyAll SseCollector.takeAll
  rw [List.foldl_map]
  rfl

end MultiAiRouter.Translate.Sse
