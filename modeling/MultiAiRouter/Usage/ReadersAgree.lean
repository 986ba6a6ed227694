import Mathlib.Data.List.TakeWhile
import MultiAiRouter.Translate.Sse.Chunking
import MultiAiRouter.Usage.ResponseFraming

/-!
# The framing and the parser read the same stream

Usage is billed from one reader of the event stream and the client is served from another. A line says the same to
both exactly when it is none of a few kinds: a field name without a colon, an event name behind more white space
than the one space, a field behind a byte-order mark.
-/

namespace MultiAiRouter.Usage

open Common Translate.Sse

/-- One leading space of a value stripped. -/
def stripSpace (rest : Text) : Text := if rest.head? = some space then rest.tail else rest

/-- The text begins with white space. -/
def beginsWhite (text : Text) : Bool := text.head?.any isWhitespace

/-- Both readers read the line alike: it is no bare field name, no field behind a byte-order mark, and no event
name behind further white space. -/
def ReadAlike (raw : Text) : Prop :=
  raw ≠ ascii "data" ∧ raw ≠ ascii "event" ∧ ¬ (bom :: ascii "data:") <+: raw ∧ ¬ (bom :: ascii "event:") <+: raw ∧
    (ascii "event:" <+: raw → beginsWhite (stripSpace (raw.drop 6)) = false)

instance (raw : Text) : Decidable (ReadAlike raw) := by
  unfold ReadAlike
  infer_instance

/-- The line as far as frames go: a comment is nothing. -/
def quiet : SseLine → SseLine
  | .comment _ => .ignored
  | line => line

section Line

variable {raw word : Text}

/-- A field is named by the whole line, or by what stands before the first colon. -/
theorem takeWhile_eq_iff (hword : colon ∉ word) :
    raw.takeWhile (fun code => code != colon) = word ↔ raw = word ∨ word ++ [colon] <+: raw := by
  induction word generalizing raw with
  | nil =>
    cases raw with
    | nil => simp
    | cons code rest =>
      by_cases hcode : code = colon
      · simp [hcode]
      · have hother : ¬ colon = code := fun h => hcode h.symm
        simp [hcode, hother]
  | cons first word ih =>
    have hfirst : first ≠ colon := fun h => hword (by simp [h])
    have hrest : colon ∉ word := fun h => hword (List.mem_cons_of_mem _ h)
    cases raw with
    | nil => simp
    | cons code rest =>
      by_cases hcode : code = colon
      · have hother : ¬ colon = first := fun h => hfirst h.symm
        have hsame : ¬ first = colon := hfirst
        simp [hcode, hother, hsame]
      · rw [List.takeWhile_cons_of_pos (by simpa using hcode), List.cons_append, List.cons_prefix_cons]
        simp only [List.cons.injEq, ih hrest]
        constructor
        · rintro ⟨rfl, hbare | hfield⟩
          · exact .inl ⟨rfl, hbare⟩
          · exact .inr ⟨rfl, hfield⟩
        · rintro (⟨rfl, hbare⟩ | ⟨rfl, hfield⟩)
          · exact ⟨rfl, .inl hbare⟩
          · exact ⟨rfl, .inr hfield⟩

/-- The value of a field behind its colon. -/
theorem splitField_value (hword : colon ∉ word) (value : Text) :
    splitField (word ++ colon :: value) = (word, stripSpace value) := by
  have hfield : (word ++ colon :: value).takeWhile (fun code => code != colon) = word :=
    (takeWhile_eq_iff hword).mpr (.inr ⟨value, by simp⟩)
  unfold splitField
  rw [hfield]
  simp [stripSpace]

/-- Stripping white space strips one space at most, unless more of it follows. -/
theorem trimStart_eq_stripSpace_iff (value : Text) :
    trimStart value = stripSpace value ↔ beginsWhite (stripSpace value) = false := by
  have hself (text : Text) : trimStart text = text ↔ beginsWhite text = false := by
    cases text with
    | nil => simp [trimStart, beginsWhite]
    | cons code rest => simp [trimStart, beginsWhite, List.dropWhile_eq_self_iff]
  cases value with
  | nil => exact hself []
  | cons code rest =>
    by_cases hcode : code = space
    · subst hcode
      have hstrip : stripSpace (space :: rest) = rest := rfl
      have htrim : trimStart (space :: rest) = trimStart rest := rfl
      rw [hstrip, htrim]
      exact hself rest
    · have hstrip : stripSpace (code :: rest) = code :: rest := by simp [stripSpace, hcode]
      rw [hstrip]
      exact hself (code :: rest)

/-- A data line. -/
theorem readLine_data (value : Text) : readLine (ascii "data:" ++ value) = .data (stripSpace value) := by
  have hword : ascii "data:" ++ value = ascii "data" ++ colon :: value := rfl
  have hsplit := splitField_value (show colon ∉ ascii "data" by decide +kernel) value
  have hevent : ascii "data" ≠ ascii "event" := by decide +kernel
  rw [hword]
  have hcons : ascii "data" ++ colon :: value = 100 :: (ascii "ata" ++ colon :: value) := rfl
  rw [hcons] at hsplit ⊢
  rw [readLine, hsplit]
  simp [colon, hevent]

/-- An event line. -/
theorem readLine_event (value : Text) : readLine (ascii "event:" ++ value) = .event (stripSpace value) := by
  have hword : ascii "event:" ++ value = ascii "event" ++ colon :: value := rfl
  have hsplit := splitField_value (show colon ∉ ascii "event" by decide +kernel) value
  rw [hword]
  have hcons : ascii "event" ++ colon :: value = 101 :: (ascii "vent" ++ colon :: value) := rfl
  rw [hcons] at hsplit ⊢
  rw [readLine, hsplit]
  simp [colon]

/-- A line that names neither field brings nothing. -/
theorem readLine_neither (hraw : raw ≠ []) (hdata : raw ≠ ascii "data") (hevent : raw ≠ ascii "event")
    (hdataField : ¬ ascii "data:" <+: raw) (heventField : ¬ ascii "event:" <+: raw) :
    quiet (readLine raw) = .ignored := by
  have hnot (word : Text) (hword : colon ∉ word) (hbare : raw ≠ word) (hfield : ¬ word ++ [colon] <+: raw) :
      (splitField raw).1 ≠ word := fun heq => ((takeWhile_eq_iff hword).mp heq).elim hbare hfield
  have hone := hnot (ascii "event") (by decide +kernel) hevent heventField
  have htwo := hnot (ascii "data") (by decide +kernel) hdata hdataField
  cases raw with
  | nil => exact absurd rfl hraw
  | cons first rest =>
    rw [readLine, if_neg hone, if_neg htwo]
    split <;> rfl

/-- The framing reads a field right behind its name. -/
theorem readField_data (value : Text) : readField (ascii "data:" ++ value) = .data (stripSpace value) := rfl

theorem readField_event (value : Text) : readField (ascii "event:" ++ value) = .event (trimStart value) := rfl

theorem readField_eq_ignored (hdata : ¬ ascii "data:" <+: raw) (hevent : ¬ ascii "event:" <+: raw) :
    readField raw = .ignored := by
  rw [readField, if_neg (by simpa using hdata), if_neg (by simpa using hevent)]

/-- A line says the same to both readers exactly when it is read alike. -/
theorem readField_eq_iff (hraw : raw ≠ []) : readField (withoutBom raw) = quiet (readLine raw) ↔ ReadAlike raw := by
  by_cases hdata : raw = ascii "data"
  · subst hdata
    decide +kernel
  by_cases hevent : raw = ascii "event"
  · subst hevent
    decide +kernel
  by_cases hdataField : ascii "data:" <+: raw
  · obtain ⟨value, rfl⟩ := hdataField
    refine iff_of_true ?_ ⟨hdata, hevent, ?_, ?_, ?_⟩
    · rw [readLine_data]
      exact readField_data value
    all_goals simp [ascii, bom, List.cons_prefix_cons]
  by_cases heventField : ascii "event:" <+: raw
  · obtain ⟨value, rfl⟩ := heventField
    have hread : readField (withoutBom (ascii "event:" ++ value)) = .event (trimStart value) := readField_event value
    have hdrop : (ascii "event:" ++ value).drop 6 = value := rfl
    have hquiet : quiet (.event (stripSpace value)) = .event (stripSpace value) := rfl
    rw [hread, readLine_event, hquiet, SseLine.event.injEq, trimStart_eq_stripSpace_iff, ReadAlike, hdrop]
    constructor
    · intro hwhite
      refine ⟨hdata, hevent, ?_, ?_, fun _ => hwhite⟩ <;> simp [ascii, bom, List.cons_prefix_cons]
    · intro halike
      exact halike.2.2.2.2 (List.prefix_append ..)
  rw [readLine_neither hraw hdata hevent hdataField heventField]
  cases raw with
  | nil => exact absurd rfl hraw
  | cons first rest =>
    by_cases hfirst : first = bom
    · subst hfirst
      have hrest : withoutBom (bom :: rest) = rest := rfl
      rw [hrest, ReadAlike, List.cons_prefix_cons, List.cons_prefix_cons]
      by_cases hmarked : ascii "data:" <+: rest
      · obtain ⟨value, rfl⟩ := hmarked
        refine iff_of_false ?_ fun h => h.2.2.1 ⟨rfl, List.prefix_append ..⟩
        rw [readField_data]
        simp
      · by_cases hmarkedEvent : ascii "event:" <+: rest
        · obtain ⟨value, rfl⟩ := hmarkedEvent
          refine iff_of_false ?_ fun h => h.2.2.2.1 ⟨rfl, List.prefix_append ..⟩
          rw [readField_event]
          simp
        · refine iff_of_true (readField_eq_ignored hmarked hmarkedEvent) ⟨hdata, hevent, ?_, ?_, ?_⟩
          · exact fun h => hmarked h.2
          · exact fun h => hmarkedEvent h.2
          · exact fun h => absurd h heventField
    · have hkept : withoutBom (first :: rest) = first :: rest := by simp [withoutBom, hfirst]
      rw [hkept]
      have hother : ¬ bom = first := fun h => hfirst h.symm
      refine iff_of_true (readField_eq_ignored hdataField heventField) ⟨hdata, hevent, ?_, ?_, ?_⟩
      · simp [List.cons_prefix_cons, hother]
      · simp [List.cons_prefix_cons, hother]
      · exact fun h => absurd h heventField

end Line

/-- What the parser's reader makes of a frame. -/
def frameReport {Body : Type} (parseJson : Text → Option Body) (frame : SseFrame) : FramingReport Body :=
  if frame.data = ascii "[DONE]" then .done
  else
    match parseJson frame.data with
    | some body => .payload body frame.event
    | none => .unavailable

/-- What a line of bytes adds to its event. -/
def lineCharge (line : List UInt8) : Nat := (decodeFatal line).elim 0 fun text => charge line.length (readField text)

/-- What the event has come to after a line; a blank line starts over. -/
def chargedAfter (charged : Nat) (line : List UInt8) : Nat := if line = [] then 0 else charged + lineCharge line

/-- The events of the lines fit the limit: no line with what its event has come to exceeds it. -/
def EventsFit (maximumBytes charged : Nat) : List (List UInt8) → Prop
  | [] => True
  | line :: rest =>
    charged + line.length ≤ maximumBytes ∧ chargedAfter charged line ≤ maximumBytes ∧
      EventsFit maximumBytes (chargedAfter charged line) rest

instance EventsFit.decidable (maximumBytes : Nat) :
    ∀ (lines : List (List UInt8)) (charged : Nat), Decidable (EventsFit maximumBytes charged lines)
  | [], _ => isTrue trivial
  | line :: rest, charged =>
    have := EventsFit.decidable maximumBytes rest (chargedAfter charged line)
    inferInstanceAs (Decidable (charged + line.length ≤ maximumBytes ∧ chargedAfter charged line ≤ maximumBytes ∧
      EventsFit maximumBytes (chargedAfter charged line) rest))

section Framing

variable {Scanner Body : Type} {input : FramingInput Scanner Body} {framing : ResponseFraming Scanner Body}
  {collector : SseCollector}

/-- The units of a value begin with the byte-order mark only if the value is the mark. -/
theorem head_utf16Units {code : ℕ} (hmax : code < 0x140000) (hcode : code ≠ 0xFEFF) (rest : Text) :
    utf16Units code ≠ [] ∧ (utf16Units code ++ rest).head? ≠ some bom := by
  have hne (value : ℕ) (hvalue : value ≠ 0xFEFF) (hsmall : value < 65536) : value.toUInt16 ≠ bom := by
    intro heq
    have hnat := congrArg UInt16.toNat heq
    simp [bom] at hnat
    omega
  unfold utf16Units
  split
  · next hsmall => exact ⟨by simp, by simpa using hne code hcode hsmall⟩
  · refine ⟨by simp, ?_⟩
    rw [List.cons_append, List.head?_cons, ne_eq, Option.some.injEq]
    exact hne _ (by omega) (by omega)

/-- A fatal decoder decodes well-formed bytes to their text, without the mark it begins with. -/
theorem decodeFatal_of_text {line : List UInt8} {raw : Text} (htext : utf8Text line = some raw) :
    decodeFatal line = some (withoutBom raw) ∧ (raw = [] ↔ line = []) := by
  obtain ⟨codes, hcodes, rfl⟩ := Option.map_eq_some_iff.mp htext
  obtain ⟨rfl, rfl⟩ | ⟨sequence, rest, code, later, rfl, rfl, -, hsequence, -⟩ := utf8Scalars_split hcodes
  · exact ⟨rfl, by simp⟩
  · have hbounds : sequence ≠ [] ∧ code < 0x140000 := by
      cases hsequence with
      | ascii hbyte => exact ⟨by simp, Nat.lt_of_lt_of_le (UInt8.toNat_lt _) (by decide)⟩
      | longer hfront _ _ _ hmax => exact ⟨hfront, hmax⟩
    rw [decodeFatal, hcodes]
    by_cases hcode : code = 0xFEFF
    · subst hcode
      exact ⟨rfl, by simp [utf16Units, hbounds.1]⟩
    · obtain ⟨hunits, hhead⟩ := head_utf16Units hbounds.2 hcode (later.flatMap utf16Units)
      rw [List.flatMap_cons, withoutBom, if_neg hhead]
      refine ⟨?_, by simp [hunits, hbounds.1]⟩
      simp [hcode]

/-- The framing holds what the parser collected, and reported the frames that it handed on. -/
structure Tracks (input : FramingInput Scanner Body) (framing : ResponseFraming Scanner Body)
    (collector : SseCollector) : Prop where
  data : framing.data = collector.data
  event : framing.event = collector.event
  reports : framing.reports = collector.frames.map (frameReport input.parseJson)
  dropping : framing.dropping = false
  salvage : framing.salvage = none
  ended : framing.ended = false

/-- A blank line reports the event to both. -/
theorem Tracks.blank (h : Tracks input framing collector) (hmedia : input.media = .eventStream)
    (hline : framing.line = []) :
    Tracks input (framing.consumeLine input) collector.dispatch ∧ (framing.consumeLine input).line = [] ∧
      (framing.consumeLine input).eventBytes = 0 := by
  have hreport (text : Text) (name : Option Text) :
      ResponseFraming.parseText input text name = frameReport input.parseJson ⟨name, text⟩ := by
    by_cases hdone : text = ascii "[DONE]"
    · simp [ResponseFraming.parseText, frameReport, hdone, hmedia]
    · cases hbody : input.parseJson text <;> simp [ResponseFraming.parseText, frameReport, hdone, hbody]
  unfold ResponseFraming.consumeLine SseCollector.dispatch
  rw [h.salvage, h.dropping, h.data]
  dsimp only
  rw [if_pos hline]
  split
  · next hsome =>
    have hdata : collector.data ≠ [] := by simpa using hsome
    rw [if_neg hdata]
    refine ⟨⟨rfl, rfl, ?_, rfl, rfl, h.ended⟩, hline, rfl⟩
    simp [ResponseFraming.reset, ResponseFraming.report, h.reports, hreport, h.event]
  · next hnone =>
    have hdata : collector.data = [] := by simpa using hnone
    rw [if_pos hdata]
    exact ⟨⟨hdata.symm, rfl, h.reports, rfl, rfl, h.ended⟩, hline, rfl⟩

/-- What a line brings to the framing it brings to the parser. -/
theorem Tracks.takeField (h : Tracks input framing collector) {line : SseLine} (hblank : line ≠ .blank) :
    Tracks input (framing.takeField (quiet line)) (collector.take line) := by
  cases line with
  | blank => exact absurd rfl hblank
  | comment text => exact ⟨h.data, h.event, h.reports, h.dropping, h.salvage, h.ended⟩
  | event value => exact ⟨h.data, rfl, h.reports, h.dropping, h.salvage, h.ended⟩
  | data value =>
    refine ⟨?_, h.event, h.reports, h.dropping, h.salvage, h.ended⟩
    simp [quiet, ResponseFraming.takeField, SseCollector.take, h.data]
  | ignored => exact h

/-- A line that is complete says the same to both. -/
theorem Tracks.consumeLine (h : Tracks input framing collector) (hmedia : input.media = .eventStream) {raw : Text}
    (htext : utf8Text framing.line = some raw) (halike : ReadAlike raw)
    (hfits : chargedAfter framing.eventBytes framing.line ≤ input.maximumBytes) :
    Tracks input (framing.consumeLine input) (collector.take (readLine raw)) ∧
      (framing.consumeLine input).line = [] ∧
      (framing.consumeLine input).eventBytes = chargedAfter framing.eventBytes framing.line := by
  obtain ⟨hdecoded, hempty⟩ := decodeFatal_of_text htext
  by_cases hline : framing.line = []
  · obtain rfl := hempty.mpr hline
    rw [chargedAfter, if_pos hline]
    exact h.blank hmedia hline
  · have hraw : raw ≠ [] := fun hnone => hline (hempty.mp hnone)
    have hread := (readField_eq_iff hraw).mpr halike
    have hblank : readLine raw ≠ .blank := by
      cases raw with
      | nil => exact absurd rfl hraw
      | cons first rest =>
        rw [readLine]
        split_ifs <;> simp
    rw [chargedAfter, if_neg hline, lineCharge, hdecoded] at hfits ⊢
    simp only [Option.elim_some, hread] at hfits ⊢
    have htaken := h.takeField hblank
    unfold ResponseFraming.consumeLine
    rw [h.salvage, h.dropping, hdecoded]
    dsimp only
    rw [if_neg hline, hread, if_neg (by simp), if_neg (by omega)]
    exact ⟨⟨htaken.data, htaken.event, htaken.reports, htaken.dropping, htaken.salvage, htaken.ended⟩, rfl, rfl⟩

/-- A byte of a line is kept while the event fits. -/
theorem observeByte_content (h : Tracks input framing collector) {byte : UInt8} (hlf : byte ≠ 10) (hcr : byte ≠ 13)
    (hroom : framing.eventBytes + (framing.line.length + 1) ≤ input.maximumBytes) :
    framing.observeByte input byte = { framing with line := framing.line ++ [byte], pendingCR := false } := by
  unfold ResponseFraming.observeByte ResponseFraming.contentByte
  rw [if_neg (by simp [hlf, hcr]), h.salvage]
  dsimp only
  rw [h.dropping, if_neg (by simp), if_neg (by omega)]

/-- Bytes that end with a line say the same to both readers. -/
theorem Tracks.observeBytes (hmedia : input.media = .eventStream) (bytes : List UInt8) {raws : List Text}
    (h : Tracks input framing collector)
    (hclosed : (cutLines 10 13 framing.line framing.pendingCR bytes).2 = [])
    (hfits : EventsFit input.maximumBytes framing.eventBytes (cutLines 10 13 framing.line framing.pendingCR bytes).1)
    (htexts : List.Forall₂ (fun line raw => utf8Text line = some raw)
      (cutLines 10 13 framing.line framing.pendingCR bytes).1 raws)
    (halike : ∀ raw ∈ raws, ReadAlike raw) :
    Tracks input (bytes.foldl (ResponseFraming.observeByte input) framing) (collector.takeAll raws) ∧
      (bytes.foldl (ResponseFraming.observeByte input) framing).line = [] := by
  induction bytes generalizing framing collector raws with
  | nil =>
    cases htexts with
    | nil => exact ⟨h, hclosed⟩
  | cons byte rest ih =>
    rw [List.foldl_cons]
    by_cases hsecond : byte = 10 ∧ framing.pendingCR = true
    · -- the LF of a CRLF
      obtain ⟨rfl, hpending⟩ := hsecond
      have hstep : framing.observeByte input 10 = { framing with pendingCR := false } := by
        simp [ResponseFraming.observeByte, hmedia, hpending]
      rw [hpending, cutLines_lf_afterCr] at hclosed hfits htexts
      rw [hstep]
      exact ih ⟨h.data, h.event, h.reports, h.dropping, h.salvage, h.ended⟩ hclosed hfits htexts halike
    · by_cases hend : byte = 10 ∨ byte = 13
      · have hstep : framing.observeByte input byte =
            { framing.consumeLine input with pendingCR := decide (byte = 13) } := by
          rw [ResponseFraming.observeByte, if_pos ⟨hmedia, hend⟩, if_neg hsecond]
        rw [cutLines_end hsecond hend] at hclosed hfits htexts
        obtain ⟨-, hcharged, hlater⟩ := hfits
        cases htexts with
        | @cons _ raw _ raws htext hothers =>
          obtain ⟨htracks, hline, hbytes⟩ :=
            h.consumeLine hmedia htext (halike raw (List.mem_cons_self ..)) hcharged
          rw [hstep, SseCollector.takeAll_cons]
          refine ih ⟨htracks.data, htracks.event, htracks.reports, htracks.dropping, htracks.salvage, htracks.ended⟩
            ?_ ?_ ?_ fun other hother => halike other (List.mem_cons_of_mem _ hother)
          · simpa only [hline] using hclosed
          · simpa only [hline, hbytes] using hlater
          · simpa only [hline] using hothers
      · obtain ⟨hlf, hcr⟩ := not_or.mp hend
        rw [cutLines_code hlf hcr] at hclosed hfits htexts
        obtain ⟨more, later, hfirst⟩ := cutLines_begun (by simp) hclosed
        have hroom : framing.eventBytes + (framing.line.length + 1) ≤ input.maximumBytes := by
          rw [hfirst] at hfits
          have hlength := hfits.1
          simp only [List.length_append, List.length_singleton] at hlength
          omega
        rw [observeByte_content h hlf hcr hroom]
        exact ih ⟨h.data, h.event, h.reports, h.dropping, h.salvage, h.ended⟩ hclosed hfits htexts halike

end Framing

section Chunks

variable {Scanner Body : Type} {input : FramingInput Scanner Body}

/-- Only the end of the body ends the framing. -/
theorem observeByte_ended (framing : ResponseFraming Scanner Body) (byte : UInt8) :
    (framing.observeByte input byte).ended = framing.ended := by
  have hscan (framing : ResponseFraming Scanner Body) (scanner : Scanner) (byte : UInt8) :
      (framing.scanByte input scanner byte).ended = framing.ended := by
    unfold ResponseFraming.scanByte ResponseFraming.salvageByte
    split
    · dsimp only
      split
      · split <;> rfl
      · split_ifs <;> rfl
      · rfl
    · rfl
  have hconsume : (framing.consumeLine input).ended = framing.ended := by
    unfold ResponseFraming.consumeLine
    split
    · dsimp only
      split
      · unfold ResponseFraming.settleSalvage
        split <;> rfl
      · rfl
    · split
      · split <;> rfl
      · split
        · rfl
        · split
          · rfl
          · next text _ =>
            dsimp only
            split <;> cases readField text <;> rfl
  have hcontent (framing : ResponseFraming Scanner Body) :
      (framing.contentByte input byte).ended = framing.ended := by
    have hfold (bytes : List UInt8) (framing : ResponseFraming Scanner Body) : (bytes.foldl (fun framing held =>
          match framing.salvage with
          | some scanner => framing.scanByte input scanner held
          | none => framing) framing).ended = framing.ended := by
      induction bytes generalizing framing with
      | nil => rfl
      | cons held rest ih =>
        rw [List.foldl_cons, ih]
        split
        · exact hscan ..
        · rfl
    unfold ResponseFraming.contentByte
    split
    · exact hscan ..
    · split
      · split <;> rfl
      · split
        · exact hfold ..
        · rfl
  unfold ResponseFraming.observeByte
  split
  · split
    · rfl
    · exact hconsume
  · exact hcontent _

/-- Where the chunks are cut does not matter to the framing. -/
theorem observe_chunks (hmedia : input.media ≠ .other) (chunks : List (List UInt8))
    (framing : ResponseFraming Scanner Body) (hended : framing.ended = false) :
    chunks.foldl (ResponseFraming.observe input) framing =
      chunks.flatten.foldl (ResponseFraming.observeByte input) framing := by
  have hbytes (bytes : List UInt8) (framing : ResponseFraming Scanner Body) :
      (bytes.foldl (ResponseFraming.observeByte input) framing).ended = framing.ended := by
    induction bytes generalizing framing with
    | nil => rfl
    | cons byte rest ih => rw [List.foldl_cons, ih, observeByte_ended]
  induction chunks generalizing framing with
  | nil => rfl
  | cons chunk rest ih =>
    have hobserve : framing.observe input chunk = chunk.foldl (ResponseFraming.observeByte input) framing := by
      simp [ResponseFraming.observe, hended, hmedia]
    rw [List.foldl_cons, List.flatten_cons, List.foldl_append, hobserve]
    exact ih _ (by rw [hbytes, hended])

end Chunks

/-- The lines of bytes of a stream, and the line that it leaves open. -/
def byteLines (bytes : List UInt8) : List (List UInt8) × List UInt8 := cutLines 10 13 [] false bytes

/-- The lines of text of a stream. -/
def textLines (bytes : List UInt8) : List Text :=
  (utf8Text bytes).elim [] fun text => (cutLines lf cr [] false text).1

/-- A valid event stream without a byte-order mark that ends with a blank line and whose events fit the limit. -/
structure EventStream (maximumBytes : Nat) (bytes : List UInt8) : Prop where
  valid : isUtf8 bytes = true
  unmarked : (utf8Text bytes).bind List.head? ≠ some bom
  closed : (byteLines bytes).2 = []
  blank : (byteLines bytes).1.getLast? = some []
  fits : EventsFit maximumBytes 0 (byteLines bytes).1

/-- Lines and their texts end alike. -/
theorem getLast?_text {lines : List (List UInt8)} {raws : List Text} {last : List UInt8}
    (h : List.Forall₂ (fun line raw => utf8Text line = some raw) lines raws) (hlast : lines.getLast? = some last) :
    ∃ raw, raws.getLast? = some raw ∧ utf8Text last = some raw := by
  induction h with
  | nil => simp at hlast
  | @cons line raw lines raws htext hothers ih =>
    cases hothers with
    | nil =>
      obtain rfl : line = last := by simpa using hlast
      exact ⟨raw, rfl, htext⟩
    | cons _ _ =>
      rw [List.getLast?_cons_cons] at hlast ⊢
      exact ih hlast

/-- A blank line leaves no data. -/
theorem takeAll_blank {raws : List Text} (hlast : raws.getLast? = some []) :
    (SseCollector.takeAll {} raws).data = [] := by
  obtain ⟨before, rfl⟩ := List.getLast?_eq_some_iff.mp hlast
  rw [SseCollector.takeAll, List.foldl_append]
  exact congrArg SseCollector.data (dispatch_eq _)

/-- On a stream whose lines both read alike, the framing reports exactly the frames the parser hands on, however
the bytes reach the one and the other, as long as no empty push tears a frame of the parser's. -/
theorem readers_agree {Scanner Body : Type} (input : FramingInput Scanner Body) (hmedia : input.media = .eventStream)
    (framed served : List (List UInt8)) (hsame : framed.flatten = served.flatten)
    (hstream : EventStream input.maximumBytes framed.flatten)
    (halike : ∀ raw ∈ textLines framed.flatten, ReadAlike raw) (hserved : KeepsFrames served) :
    framingReports input framed = (parse served).1.map (frameReport input.parseJson) := by
  obtain ⟨codes, hcodes⟩ := Option.isSome_iff_exists.mp hstream.valid
  obtain ⟨text, htext⟩ : ∃ text, utf8Text framed.flatten = some text := ⟨_, by rw [utf8Text, hcodes]; rfl⟩
  have hunmarked : text.head? ≠ some bom := by simpa [htext] using hstream.unmarked
  have hraws : textLines framed.flatten = (cutLines lf cr [] false text).1 := by rw [textLines, htext]; rfl
  obtain ⟨hcut, hopen⟩ := cutLines_utf8 htext utf8Text_nil false
  have htexts : List.Forall₂ (fun line raw => utf8Text line = some raw) (byteLines framed.flatten).1
      (cutLines lf cr [] false text).1 := hcut
  have hclosed : (cutLines lf cr [] false text).2 = [] := by
    have hnone := hstream.closed
    unfold byteLines at hnone
    rw [hnone, utf8Text_nil] at hopen
    exact (Option.some.inj hopen).symm
  obtain ⟨last, hlast, hlastText⟩ := getLast?_text htexts hstream.blank
  obtain rfl : last = [] := (Option.some.inj hlastText).symm
  have hdata : (SseCollector.takeAll {} (cutLines lf cr [] false text).1).data = [] := takeAll_blank hlast
  have hstart : Tracks input {} {} := ⟨rfl, rfl, rfl, rfl, rfl, rfl⟩
  obtain ⟨htracks, hline⟩ := hstart.observeBytes hmedia framed.flatten hstream.closed hstream.fits htexts
    (by rwa [hraws] at halike)
  rw [(parse_eq_flatten_iff served).mpr hserved, ← hsame, parse_text htext hunmarked hclosed, framingReports,
    observe_chunks (by simp [hmedia]) framed {} rfl, ResponseFraming.finish, if_neg (by simp [htracks.ended])]
  have hquiet : ResponseFraming.lastReport input
      (framed.flatten.foldl (ResponseFraming.observeByte input) {}) = [] := by
    simp [ResponseFraming.lastReport, hmedia, hline, htracks.data, hdata, htracks.dropping, htracks.salvage]
  rw [hquiet, List.append_nil]
  simp only [ResponseFraming.reset, htracks.reports, SseCollector.dispatch, hdata, if_true]

/-- A reader of event streams that knows the number one. -/
def countingInput : FramingInput Unit Nat where
  media := .eventStream
  maximumBytes := 64
  parseJson text := if text = ascii "1" then some 1 else none
  salvage := { create := fun _ => (), push := fun _ _ => (), finish := fun _ => none }

/-- A named event with a comment behind it, and the end. -/
def pinged : List UInt8 := asciiBytes "event: ping\r\ndata: 1\n\n: alive\n\ndata: [DONE]\n\n"

/-- A stream with a ping in two pieces. -/
theorem readers_agree_pinged : EventStream 64 pinged ∧ (parse [pinged]).1.length = 2 ∧
      framingReports countingInput [pinged.take 12, pinged.drop 12] =
        (parse [pinged]).1.map (frameReport countingInput.parseJson) := by
  have hstream : EventStream 64 pinged := by constructor <;> decide +kernel
  have hwhole : [pinged.take 12, pinged.drop 12].flatten = pinged := by simp
  refine ⟨hstream, by decide +kernel, ?_⟩
  exact readers_agree countingInput rfl [pinged.take 12, pinged.drop 12] [pinged] (by simp)
    (by rw [hwhole]; exact hstream) (by decide +kernel) (keepsFrames_of_untorn (by decide +kernel))

/-- A data line without its colon. -/
def bareData : List UInt8 := asciiBytes "data\n\n"

/-- An event name behind two spaces. -/
def looseEvent : List UInt8 := asciiBytes "event:  ping\ndata: 1\n\n"

/-- A field behind a byte-order mark on a line of its own. -/
def markedData : List UInt8 := asciiBytes ": alive\n" ++ [0xEF, 0xBB, 0xBF] ++ asciiBytes "data: 1\n\n"

/-- Three streams that are read differently. -/
theorem readers_differ : (EventStream 64 bareData ∧
      framingReports countingInput [bareData] ≠ (parse [bareData]).1.map (frameReport countingInput.parseJson)) ∧
    (EventStream 64 looseEvent ∧
      framingReports countingInput [looseEvent] ≠ (parse [looseEvent]).1.map (frameReport countingInput.parseJson)) ∧
    EventStream 64 markedData ∧
      framingReports countingInput [markedData] ≠ (parse [markedData]).1.map (frameReport countingInput.parseJson) := by
  refine ⟨⟨?_, by decide +kernel⟩, ⟨?_, by decide +kernel⟩, ?_, by decide +kernel⟩
  all_goals constructor <;> decide +kernel

end MultiAiRouter.Usage
