import MultiAiRouter.Translate.Sse.Lines

/-!
# Stanzas and the frames they make

A stanza is the lines up to a blank one: together they make at most one frame, with their data lines
joined and the last event named. Torn line ends break a stanza into pieces.
-/

namespace MultiAiRouter.Translate.Sse

/-- The data a line brings. -/
def SseLine.dataValue : SseLine → Option Text
  | .data value => some value
  | _ => none

/-- The event a line names. -/
def SseLine.eventValue : SseLine → Option Text
  | .event value => some value
  | _ => none

/-- The data lines among these. -/
def dataOf (lines : List SseLine) : List Text := lines.filterMap SseLine.dataValue

/-- The last event these lines name. -/
def lastEvent (lines : List SseLine) : Option Text := (lines.filterMap SseLine.eventValue).getLast?

@[simp] theorem dataOf_nil : dataOf [] = [] := rfl

@[simp] theorem dataOf_comment (text : Text) (rest : List SseLine) :
    dataOf (.comment text :: rest) = dataOf rest := rfl

@[simp] theorem dataOf_event (value : Text) (rest : List SseLine) :
    dataOf (.event value :: rest) = dataOf rest := rfl

@[simp] theorem dataOf_data (value : Text) (rest : List SseLine) :
    dataOf (.data value :: rest) = value :: dataOf rest := rfl

@[simp] theorem dataOf_ignored (rest : List SseLine) : dataOf (.ignored :: rest) = dataOf rest := rfl

@[simp] theorem dataOf_append (first second : List SseLine) :
    dataOf (first ++ second) = dataOf first ++ dataOf second := List.filterMap_append ..

@[simp] theorem lastEvent_nil : lastEvent [] = none := rfl

@[simp] theorem lastEvent_comment (text : Text) (rest : List SseLine) :
    lastEvent (.comment text :: rest) = lastEvent rest := rfl

@[simp] theorem lastEvent_data (value : Text) (rest : List SseLine) :
    lastEvent (.data value :: rest) = lastEvent rest := rfl

@[simp] theorem lastEvent_ignored (rest : List SseLine) : lastEvent (.ignored :: rest) = lastEvent rest := rfl

/-- An event named first stands unless a later one is named. -/
@[simp] theorem lastEvent_event (value : Text) (rest : List SseLine) :
    lastEvent (.event value :: rest) = (lastEvent rest).or (some value) := by
  have hcons : (SseLine.event value :: rest).filterMap SseLine.eventValue =
      value :: rest.filterMap SseLine.eventValue := rfl
  rw [lastEvent, hcons, List.getLast?_cons, lastEvent]
  cases (rest.filterMap SseLine.eventValue).getLast? <;> rfl

/-- The comments among these. -/
def commentsOf (events : List LineEvent) : List Text :=
  events.filterMap fun event =>
    match event with
    | .line (.comment text) => some text
    | _ => none

/-- The frame of lines that follow a collected event and collected data; none without data. -/
def frameAfter (event : Option Text) (data : List Text) (lines : List SseLine) : List SseFrame :=
  if data ++ dataOf lines = [] then []
  else [{ event := (lastEvent lines).or event, data := SseCollector.joinData (data ++ dataOf lines) }]

/-- The frame these lines make. -/
def frameOf (lines : List SseLine) : List SseFrame := frameAfter none [] lines

/-- The first piece of the first stanza, its other pieces, and the stanzas after it. -/
structure Stanzas where
  piece : List SseLine
  pieces : List (List SseLine)
  later : List (List (List SseLine))

/-- Cut line events into stanzas and their pieces. -/
def cutStanzas : List LineEvent → Stanzas
  | [] => ⟨[], [], []⟩
  | .torn :: rest =>
    let cut := cutStanzas rest
    ⟨[], cut.piece :: cut.pieces, cut.later⟩
  | .line .blank :: rest =>
    let cut := cutStanzas rest
    ⟨[], [], (cut.piece :: cut.pieces) :: cut.later⟩
  | .line line :: rest =>
    let cut := cutStanzas rest
    ⟨line :: cut.piece, cut.pieces, cut.later⟩

/-- The stanzas of line events, each as its pieces. -/
def stanzasOf (events : List LineEvent) : List (List (List SseLine)) :=
  ((cutStanzas events).piece :: (cutStanzas events).pieces) :: (cutStanzas events).later

section Frames

/-- Dispatching hands on the collected frame and starts over. -/
theorem dispatch_eq (collector : SseCollector) : collector.dispatch = { collector with
      event := none, data := [], frames := collector.frames ++ frameAfter collector.event collector.data [] } := by
  unfold SseCollector.dispatch frameAfter
  split
  · next hempty => simp [hempty]
  · next hdata => simp [hdata]

/-- The frames of line events: those collected before, then one per piece with data. -/
theorem applyAll_frames (collector : SseCollector) (events : List LineEvent) :
    (collector.applyAll events).dispatch.frames =
      collector.frames ++ frameAfter collector.event collector.data (cutStanzas events).piece ++
        (cutStanzas events).pieces.flatMap frameOf ++
        (cutStanzas events).later.flatMap fun stanza => stanza.flatMap frameOf := by
  induction events generalizing collector with
  | nil => simp [SseCollector.applyAll, dispatch_eq, cutStanzas]
  | cons event rest ih =>
    have hnext := ih (collector.apply event)
    change (SseCollector.applyAll (collector.apply event) rest).dispatch.frames = _
    rw [hnext]
    cases event with
    | torn => simp [SseCollector.apply, dispatch_eq, cutStanzas, frameOf, List.append_assoc]
    | line line =>
      cases line with
      | blank => simp [SseCollector.apply, SseCollector.take, dispatch_eq, cutStanzas, frameOf]
      | comment text => simp [SseCollector.apply, SseCollector.take, cutStanzas, frameAfter]
      | ignored => simp [SseCollector.apply, SseCollector.take, cutStanzas, frameAfter]
      | data value => simp [SseCollector.apply, SseCollector.take, cutStanzas, frameAfter]
      | event value =>
        simp [SseCollector.apply, SseCollector.take, cutStanzas, frameAfter]

/-- The comments of line events. -/
theorem applyAll_comments (collector : SseCollector) (events : List LineEvent) :
    (collector.applyAll events).dispatch.comments = collector.comments ++ commentsOf events := by
  induction events generalizing collector with
  | nil => simp [SseCollector.applyAll, dispatch_eq, commentsOf]
  | cons event rest ih =>
    change (SseCollector.applyAll (collector.apply event) rest).dispatch.comments = _
    rw [ih (collector.apply event)]
    cases event with
    | torn => simp [SseCollector.apply, dispatch_eq, commentsOf]
    | line line => cases line <;> simp [SseCollector.apply, SseCollector.take, dispatch_eq, commentsOf]

/-- Without the torn line ends every stanza is one piece. -/
theorem cutStanzas_filter (events : List LineEvent) : cutStanzas (events.filter isWhole) =
      ⟨(cutStanzas events).piece ++ (cutStanzas events).pieces.flatten, [],
        (cutStanzas events).later.map fun stanza => [stanza.flatten]⟩ := by
  induction events with
  | nil => rfl
  | cons event rest ih =>
    cases event with
    | torn =>
      rw [List.filter_cons_of_neg (by simp [isWhole]), ih]
      simp [cutStanzas]
    | line line =>
      rw [List.filter_cons_of_pos rfl]
      cases line <;> simp [cutStanzas, ih]

/-- The frames of line events, piece by piece. -/
theorem frames_eq (events : List LineEvent) : (SseCollector.applyAll {} events).dispatch.frames =
      (stanzasOf events).flatMap fun stanza => stanza.flatMap frameOf := by
  rw [applyAll_frames]
  simp [stanzasOf, frameOf]

/-- The frames of the uncut stream, stanza by stanza. -/
theorem frames_filter_eq (events : List LineEvent) :
    (SseCollector.applyAll {} (events.filter isWhole)).dispatch.frames =
      (stanzasOf events).flatMap fun stanza => frameOf stanza.flatten := by
  rw [applyAll_frames, cutStanzas_filter]
  simp [stanzasOf, frameOf, List.flatMap_map]

/-- The comments of the uncut stream are those of the chunked one. -/
theorem commentsOf_filter (events : List LineEvent) : commentsOf (events.filter isWhole) = commentsOf events := by
  induction events with
  | nil => rfl
  | cons event rest ih =>
    cases event with
    | torn =>
      rw [List.filter_cons_of_neg (by simp [isWhole]), ih]
      rfl
    | line line =>
      rw [List.filter_cons_of_pos rfl]
      cases line <;> simp_all [commentsOf]

end Frames

section Torn

/-- Tearing the stanza leaves its frame: every piece with data has all of the stanza's data, and names
the event the stanza ends up with. -/
def KeepsFrame (stanza : List (List SseLine)) : Prop :=
  ∀ piece ∈ stanza, dataOf piece ≠ [] →
    dataOf piece = dataOf stanza.flatten ∧ lastEvent piece = lastEvent stanza.flatten

/-- Lines without data make no frame. -/
theorem frameOf_eq_nil {lines : List SseLine} : frameOf lines = [] ↔ dataOf lines = [] := by
  simp [frameOf, frameAfter]

/-- Lines with data make one frame. -/
theorem frameOf_of_data {lines : List SseLine} (h : dataOf lines ≠ []) :
    frameOf lines = [{ event := lastEvent lines, data := SseCollector.joinData (dataOf lines) }] := by
  simp [frameOf, frameAfter, h]

/-- Pieces make no frame exactly when none has data. -/
theorem flatMap_frameOf_eq_nil {pieces : List (List SseLine)} :
    pieces.flatMap frameOf = [] ↔ dataOf pieces.flatten = [] := by
  induction pieces with
  | nil => simp
  | cons piece rest ih => simp [frameOf_eq_nil, ih]

/-- A stanza with data has a piece with data. -/
theorem exists_piece_of_data {stanza : List (List SseLine)} (h : dataOf stanza.flatten ≠ []) :
    ∃ before piece after, stanza = before ++ piece :: after ∧ dataOf piece ≠ [] := by
  induction stanza with
  | nil => exact absurd rfl h
  | cons piece rest ih =>
    by_cases hpiece : dataOf piece = []
    · obtain ⟨before, other, after, rfl, hother⟩ := ih (by simpa [hpiece] using h)
      exact ⟨piece :: before, other, after, rfl, hother⟩
    · exact ⟨[], piece, rest, rfl, hpiece⟩

/-- A torn stanza makes its frame exactly when it keeps it. -/
theorem flatMap_frameOf_eq_iff (stanza : List (List SseLine)) :
    stanza.flatMap frameOf = frameOf stanza.flatten ↔ KeepsFrame stanza := by
  constructor
  · intro h piece hmem hdata
    obtain ⟨before, after, rfl⟩ := List.append_of_mem hmem
    have hall : dataOf (before ++ piece :: after).flatten ≠ [] := by simp [hdata]
    rw [frameOf_of_data hall, List.flatMap_append, List.flatMap_cons, frameOf_of_data hdata] at h
    have hlength := congrArg List.length h
    simp only [List.length_append, List.length_singleton] at hlength
    have hbefore : before.flatMap frameOf = [] := List.length_eq_zero_iff.mp (by omega)
    have hafter : after.flatMap frameOf = [] := List.length_eq_zero_iff.mp (by omega)
    rw [hbefore, hafter] at h
    simp only [List.nil_append, List.append_nil, List.cons.injEq, SseFrame.mk.injEq, and_true] at h
    rw [flatMap_frameOf_eq_nil] at hbefore hafter
    exact ⟨by simp [hbefore, hafter], h.1⟩
  · intro h
    by_cases hdata : dataOf stanza.flatten = []
    · rw [frameOf_eq_nil.mpr hdata, flatMap_frameOf_eq_nil.mpr hdata]
    · obtain ⟨before, piece, after, rfl, hpiece⟩ := exists_piece_of_data hdata
      obtain ⟨hsame, hevent⟩ := h piece (by simp) hpiece
      have hlength := congrArg List.length hsame
      simp only [List.flatten_append, List.flatten_cons, dataOf_append, List.length_append] at hlength
      have hbefore : dataOf before.flatten = [] := List.length_eq_zero_iff.mp (by omega)
      have hafter : dataOf after.flatten = [] := List.length_eq_zero_iff.mp (by omega)
      rw [List.flatMap_append, List.flatMap_cons, flatMap_frameOf_eq_nil.mpr hbefore,
        flatMap_frameOf_eq_nil.mpr hafter, frameOf_of_data hpiece, frameOf_of_data hdata, hsame, hevent]
      simp

/-- A torn stanza makes no fewer frames. -/
theorem frameOf_length_le (stanza : List (List SseLine)) :
    (frameOf stanza.flatten).length ≤ (stanza.flatMap frameOf).length := by
  by_cases hdata : dataOf stanza.flatten = []
  · simp [frameOf_eq_nil.mpr hdata]
  · rw [frameOf_of_data hdata, List.length_singleton]
    refine Nat.pos_of_ne_zero fun hnone => hdata ?_
    exact flatMap_frameOf_eq_nil.mp (List.length_eq_zero_iff.mp hnone)

/-- Two ways to make frames, the first never fewer, agree on all stanzas only if they agree on each. -/
theorem flatMap_eq_iff {Stanza Frame : Type*} {more fewer : Stanza → List Frame}
    (h : ∀ stanza, (fewer stanza).length ≤ (more stanza).length) (stanzas : List Stanza) :
    stanzas.flatMap more = stanzas.flatMap fewer ↔ ∀ stanza ∈ stanzas, more stanza = fewer stanza := by
  have htotal (stanzas : List Stanza) : (stanzas.flatMap fewer).length ≤ (stanzas.flatMap more).length := by
    induction stanzas with
    | nil => simp
    | cons stanza rest ih =>
      have := h stanza
      simp only [List.flatMap_cons, List.length_append]
      omega
  induction stanzas with
  | nil => simp
  | cons stanza rest ih =>
    rw [List.flatMap_cons, List.flatMap_cons, List.forall_mem_cons]
    constructor
    · intro heq
      have hlength := congrArg List.length heq
      have hstanza := h stanza
      have hrest := htotal rest
      simp only [List.length_append] at hlength
      obtain ⟨hfirst, hlater⟩ := List.append_inj heq (by omega)
      exact ⟨hfirst, ih.mp hlater⟩
    · rintro ⟨hfirst, hlater⟩
      rw [hfirst, ih.mpr hlater]

/-- The frames are those of the uncut stream exactly when every stanza keeps its frame. -/
theorem frames_eq_filter_iff (events : List LineEvent) : (SseCollector.applyAll {} events).dispatch.frames =
        (SseCollector.applyAll {} (events.filter isWhole)).dispatch.frames ↔
      ∀ stanza ∈ stanzasOf events, KeepsFrame stanza := by
  rw [frames_eq, frames_filter_eq, flatMap_eq_iff frameOf_length_le]
  exact forall₂_congr fun stanza _ => flatMap_frameOf_eq_iff stanza

end Torn

end MultiAiRouter.Translate.Sse
