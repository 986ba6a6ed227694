import MultiAiRouter.ClaudeSdk.Render.Envelope
import Mathlib.Data.List.Nodup

/-!
# The frames form one message

A client's parser takes one `message_start`, then blocks numbered from zero, deltas and stops of open blocks only,
then an ending after every block is closed or an error, and nothing after that. It accepts everything an envelope
emits, if no block starts under a turn and index whose block is still open.
-/

namespace MultiAiRouter.ClaudeSdk.Render

open Common

/-- What a client's parser knows of the message it is reading. -/
structure MessageReader where
  started : Bool := false
  next : Nat := 0
  opened : List Nat := []
  ending : Bool := false
  ended : Bool := false
  deriving DecidableEq

namespace MessageReader

/-- The parser takes a frame, or refuses it. -/
def read (reader : MessageReader) (frame : ClientFrame) : Option MessageReader :=
  if reader.ended then none
  else
    match frame.type with
    | .messageStart => if reader.started then none else some { reader with started := true }
    | .contentBlockStart =>
      if reader.started ∧ reader.ending = false ∧ frame.index = some reader.next then
        some { reader with next := reader.next + 1, opened := reader.opened ++ [reader.next] }
      else none
    | .contentBlockDelta => if frame.index.any fun index => index ∈ reader.opened then some reader else none
    | .contentBlockStop =>
      match frame.index with
      | none => none
      | some index =>
        if index ∈ reader.opened then some { reader with opened := reader.opened.erase index } else none
    | .messageDelta =>
      if reader.started ∧ reader.opened = [] ∧ reader.ending = false then some { reader with ending := true }
      else none
    | .messageStop => if reader.ending then some { reader with ended := true } else none
    | .error => if reader.ending then none else some { reader with ended := true }
    | .ping | .other _ => none

/-- Only the type and the index of a frame are read. -/
theorem read_strip (reader : MessageReader) (frame : ClientFrame) :
    reader.read (stripContextManagement frame) = reader.read frame := rfl

theorem readAll_strip (frames : List ClientFrame) (reader : MessageReader) :
    readAll read reader (frames.map stripContextManagement) = readAll read reader frames := by
  induction frames generalizing reader with
  | nil => rfl
  | cons frame rest ih => simp [read_strip, ih]

/-- The stops of every open block, in the order the blocks were opened. -/
theorem readAll_stops (reader : MessageReader) (hended : reader.ended = false) (hnodup : reader.opened.Nodup) :
    readAll read reader (reader.opened.map fun index => { type := .contentBlockStop, index := some index }) =
      some { reader with opened := [] } := by
  generalize hopened : reader.opened = opened at hnodup ⊢
  induction opened generalizing reader with
  | nil =>
    have hreader : { reader with opened := [] } = reader := by rw [← hopened]
    rw [hreader]
    rfl
  | cons index rest ih =>
    have hread : reader.read { type := .contentBlockStop, index := some index } =
        some { reader with opened := rest } := by
      simp [read, hended, hopened]
    rw [List.map_cons, readAll_cons, hread, Option.bind_some]
    exact ih { reader with opened := rest } hended rfl (List.nodup_cons.mp hnodup).2

end MessageReader

/-- The map addresses open blocks only, each under one key, and indices below the next one. -/
structure Tracked (blocks : BlockIndexMap) : Prop where
  nodup : blocks.openOrder.Nodup
  below : ∀ index ∈ blocks.openOrder, index < blocks.next
  mapped : ∀ entry ∈ blocks.mapping, entry.2 ∈ blocks.openOrder
  single : (blocks.mapping.map Prod.snd).Nodup

section IndexMap

variable {blocks : BlockIndexMap} {turn : Turn} {sdkIndex index : Nat}

theorem BlockIndexMap.forget_of_none {key : Units} (h : blocks.mapping.lookup key = none) :
    blocks.forget key = blocks := by
  simp [BlockIndexMap.forget, h]

/-- A block that starts under a free key is opened last, under the next index. -/
theorem Tracked.start (h : Tracked blocks) (hfresh : blocks.mapping.lookup (keyOf turn sdkIndex) = none)
    (blockType : Option Units) : Tracked (blocks.start turn sdkIndex true blockType).1 := by
  simp only [BlockIndexMap.start, if_true, BlockIndexMap.forget_of_none hfresh]
  have hnew : blocks.next ∉ blocks.openOrder := fun hmem => (h.below _ hmem).false
  refine ⟨?_, ?_, ?_, ?_⟩
  · rw [List.nodup_append]
    exact ⟨h.nodup, by simp, fun index hindex other hother hsame => hnew (by simp_all)⟩
  · intro index hindex
    rcases List.mem_append.mp hindex with hindex | hindex
    · exact (h.below index hindex).trans (Nat.lt_succ_self _)
    · exact List.mem_singleton.mp hindex ▸ Nat.lt_succ_self _
  · intro entry hentry
    rcases List.mem_append.mp hentry with hentry | hentry
    · exact List.mem_append_left _ (h.mapped entry hentry)
    · rw [List.mem_singleton.mp hentry]
      simp
  · rw [List.map_append, List.nodup_append]
    refine ⟨h.single, by simp, ?_⟩
    rintro index hindex other hother rfl
    obtain ⟨entry, hentry, rfl⟩ := List.mem_map.mp hindex
    have hnext : entry.2 = blocks.next := by simpa using hother
    exact hnew (hnext ▸ h.mapped entry hentry)

/-- A stop closes the one block of its key. -/
theorem Tracked.forget (h : Tracked blocks) {key : Units} (hopen : blocks.mapping.lookup key = some index) :
    Tracked (blocks.forget key) := by
  simp only [BlockIndexMap.forget, hopen]
  have hentry := mem_of_lookup hopen
  refine ⟨h.nodup.erase _, fun other hother => h.below other (List.mem_of_mem_erase hother), ?_,
    h.single.sublist ((List.filter_sublist).map _)⟩
  intro other hother
  obtain ⟨hmem, hkey⟩ := List.mem_filter.mp hother
  refine (List.mem_erase_of_ne fun hsame => ?_).mpr (h.mapped other hmem)
  -- the client index of another key is another one
  have hpair : other = (key, index) := List.inj_on_of_nodup_map h.single hmem hentry hsame
  simp [hpair] at hkey

end IndexMap

/-- The parser stands where the envelope does. -/
structure Renders (envelope : Envelope) (reader : MessageReader) : Prop where
  tracked : Tracked envelope.blocks
  started : reader.started = envelope.started
  ended : reader.ended = envelope.terminated
  running : envelope.terminated = false →
    reader.ending = false ∧ reader.next = envelope.blocks.next ∧ reader.opened = envelope.blocks.openOrder

/-- A block start finds no open block under its turn and index. -/
def StartsFresh (envelope : Envelope) : EnvelopeOp → Prop
  | .push event turn => event.type = .contentBlockStart → ∀ sdkIndex, event.index = some sdkIndex →
      envelope.blocks.mapping.lookup (keyOf turn sdkIndex) = none
  | .finish _ | .fail .. => True

section Step

variable {envelope : Envelope} {reader : MessageReader}

/-- The `message_start` is sent where the message has not started, and the parser takes it. -/
theorem readAll_openStart (newId : Units) (hstarted : reader.started = envelope.started) (hended : reader.ended = false)
    (event : Option WireEvent) :
    readAll MessageReader.read reader (envelope.openStart newId event).2 = some { reader with started := true } := by
  unfold Envelope.openStart
  split
  · next hopen =>
    have hreader : { reader with started := true } = reader := by rw [← hstarted.trans hopen]
    rw [hreader]
    rfl
  · next hopen =>
    have hunstarted : reader.started = false := hstarted.trans (by simpa using hopen)
    cases event with
    | none => simp [MessageReader.read, synthesizedStart, hended, hunstarted]
    | some event => simp [MessageReader.read, normalizedStart, hended, hunstarted]

/-- The start is rendered once. -/
theorem Renders.openStart (h : Renders envelope reader) (newId : Units) (event : Option WireEvent) :
    Renders (envelope.openStart newId event).1 { reader with started := true } := by
  obtain ⟨id, model, hopened⟩ := Envelope.openStart_fst newId envelope event
  rw [hopened]
  exact ⟨h.tracked, rfl, h.ended, h.running⟩

/-- Counts and stop facts change nothing that the parser sees. -/
theorem Renders.mergeUsage (h : Renders envelope reader) (usage : Option SdkUsage) :
    Renders (envelope.mergeUsage usage) reader := by
  cases usage with
  | none => exact h
  | some usage => exact ⟨h.tracked, h.started, h.ended, h.running⟩

theorem Renders.pushEnding (h : Renders envelope reader) (event : WireEvent) :
    Renders (envelope.pushEnding event) reader := by
  refine Renders.mergeUsage ?_ _
  exact ⟨h.tracked, h.started, h.ended, h.running⟩

/-- A block start that finds its key free. -/
theorem Renders.pushStart (h : Renders envelope reader) (hrunning : envelope.terminated = false) (newId : Units)
    {event : WireEvent} {turn : Turn} {sdkIndex : Nat} (htype : event.type = .contentBlockStart)
    (hfresh : envelope.blocks.mapping.lookup (keyOf turn sdkIndex) = none) :
    ∃ next, readAll MessageReader.read reader (envelope.pushStart newId event turn sdkIndex).2 = some next ∧
      Renders (envelope.pushStart newId event turn sdkIndex).1 next := by
  cases turn with
  | some id =>
    have hblocks : envelope.blocks.start (some id) sdkIndex false (Envelope.openedType event) =
        (envelope.blocks, .drop) := by
      simp [BlockIndexMap.start, BlockIndexMap.forget_of_none hfresh]
    simp only [Envelope.pushStart, Option.isNone_some, hblocks]
    exact ⟨reader, rfl, h⟩
  | none =>
    obtain ⟨hending, hnext, hopen⟩ := h.running hrunning
    have htracked := h.tracked.start hfresh (Envelope.openedType event)
    have hblocks : (envelope.blocks.start none sdkIndex true (Envelope.openedType event)).2 =
          .forward envelope.blocks.next ∧
        (envelope.blocks.start none sdkIndex true (Envelope.openedType event)).1.next = envelope.blocks.next + 1 ∧
        (envelope.blocks.start none sdkIndex true (Envelope.openedType event)).1.openOrder =
          envelope.blocks.openOrder ++ [envelope.blocks.next] := by
      simp [BlockIndexMap.start, BlockIndexMap.forget_of_none hfresh]
    generalize hstart : envelope.blocks.start none sdkIndex true (Envelope.openedType event) = started at *
    obtain ⟨blocks, decision⟩ := started
    obtain ⟨rfl, hnext', horder⟩ := hblocks
    have hended : reader.ended = false := h.ended.trans hrunning
    have hread := @readAll_openStart { envelope with blocks } reader newId h.started hended none
    obtain ⟨id, model, hopened⟩ := Envelope.openStart_fst newId { envelope with blocks } none
    refine ⟨{ reader with started := true, next := reader.next + 1, opened := reader.opened ++ [reader.next] }, ?_, ?_⟩
    · simp only [Envelope.pushStart, Option.isNone_none, hstart, readAll_append, hread, Option.bind_some]
      simp [MessageReader.read, withClientIndex, htype, hended, hending, hnext]
    · simp only [Envelope.pushStart, Option.isNone_none, hstart, hopened]
      refine ⟨htracked, rfl, h.ended, fun _ => ⟨hending, ?_, ?_⟩⟩
      · exact (congrArg (· + 1) hnext).trans hnext'.symm
      · rw [hopen, hnext]
        exact horder.symm

/-- A delta goes to an open block or nowhere. -/
theorem Renders.delta (h : Renders envelope reader) (hrunning : envelope.terminated = false) {event : WireEvent}
    (htype : event.type = .contentBlockDelta) {key : Units} {index : Nat}
    (hopen : envelope.blocks.mapping.lookup key = some index) :
    readAll MessageReader.read reader [withClientIndex event index] = some reader := by
  have hended : reader.ended = false := h.ended.trans hrunning
  have hmem : index ∈ reader.opened := by
    rw [(h.running hrunning).2.2]
    exact h.tracked.mapped _ (mem_of_lookup hopen)
  simp [MessageReader.read, withClientIndex, htype, hended, hmem]

/-- A stop closes an open block. -/
theorem Renders.stop (h : Renders envelope reader) (hrunning : envelope.terminated = false) {event : WireEvent}
    (htype : event.type = .contentBlockStop) {key : Units} {index : Nat}
    (hopen : envelope.blocks.mapping.lookup key = some index) :
    ∃ next, readAll MessageReader.read reader [withClientIndex event index] = some next ∧
      Renders { envelope with blocks := envelope.blocks.forget key } next := by
  have hended : reader.ended = false := h.ended.trans hrunning
  obtain ⟨hending, hnext, horder⟩ := h.running hrunning
  have hmem : index ∈ reader.opened := by
    rw [horder]
    exact h.tracked.mapped _ (mem_of_lookup hopen)
  refine ⟨{ reader with opened := reader.opened.erase index }, ?_, h.tracked.forget hopen, h.started, h.ended, ?_⟩
  · simp [MessageReader.read, withClientIndex, htype, hended, hmem]
  · intro _
    refine ⟨hending, ?_, ?_⟩
    · simp [BlockIndexMap.forget, hopen, hnext]
    · simp [BlockIndexMap.forget, hopen, horder]

/-- An event that is pushed while the message goes on. -/
theorem Renders.pushRaw (h : Renders envelope reader) (hrunning : envelope.terminated = false) (newId : Units)
    {event : WireEvent} {turn : Turn} (hfresh : StartsFresh envelope (.push event turn)) :
    ∃ next, readAll MessageReader.read reader (envelope.pushRaw newId event turn).2 = some next ∧
      Renders (envelope.pushRaw newId event turn).1 next := by
  have hended : reader.ended = false := h.ended.trans hrunning
  unfold Envelope.pushRaw
  split
  · next htype =>
    split
    · have hread := readAll_openStart newId h.started hended (some event)
      have hopened := h.openStart newId (some event)
      dsimp only
      split
      · exact ⟨_, hread, hopened.mergeUsage _⟩
      · exact ⟨_, hread, hopened⟩
    · exact ⟨reader, rfl, h⟩
  · next htype =>
    split
    · exact ⟨reader, rfl, h⟩
    · next sdkIndex hindex => exact h.pushStart hrunning newId htype (hfresh htype sdkIndex hindex)
  · next htype =>
    split
    · exact ⟨reader, rfl, h⟩
    · next sdkIndex hindex =>
      rw [BlockIndexMap.block]
      cases hopen : envelope.blocks.mapping.lookup (keyOf turn sdkIndex) with
      | none => exact ⟨reader, rfl, h⟩
      | some index => exact ⟨reader, h.delta hrunning htype hopen, h⟩
  · next htype =>
    split
    · exact ⟨reader, rfl, h⟩
    · next sdkIndex hindex =>
      rw [BlockIndexMap.stop]
      cases hopen : envelope.blocks.mapping.lookup (keyOf turn sdkIndex) with
      | none => exact ⟨reader, rfl, h⟩
      | some index => exact h.stop hrunning htype hopen
  · split
    · exact ⟨reader, rfl, h.pushEnding event⟩
    · exact ⟨reader, rfl, h⟩
  · split
    · refine ⟨{ reader with ended := true }, ?_, h.tracked, h.started, rfl, fun hgone => by simp at hgone⟩
      simp [MessageReader.read, hended, (h.running hrunning).1]
    · exact ⟨reader, rfl, h⟩
  · exact ⟨reader, rfl, h⟩
  · exact ⟨reader, rfl, h⟩
  · exact ⟨reader, rfl, h⟩

/-- The stops of the blocks that are still open when the loop ends. -/
def strandedStops (blocks : BlockIndexMap) : List ClientFrame :=
  blocks.openBlocks.map fun block => { type := .contentBlockStop, index := some block.1 }

theorem strandedStops_eq (blocks : BlockIndexMap) :
    strandedStops blocks = blocks.openOrder.map fun index => { type := .contentBlockStop, index := some index } := by
  simp [strandedStops, BlockIndexMap.openBlocks]

/-- What the loop's end emits: the start if it is owed, a stop for every open block, and an ending or the error of a
truncated turn. -/
theorem finish_snd (newId : Units) (completion : Completion) (hrunning : envelope.terminated = false) :
    ∃ tail, (envelope.finish newId completion).2 =
        (({ envelope with terminated := true }).openStart newId none).2 ++ strandedStops envelope.blocks ++ tail ∧
      (tail.map ClientFrame.type = [.messageDelta, .messageStop] ∨
        tail = [errorFrame truncatedErrorType truncated]) := by
  obtain ⟨id, model, hopened⟩ := Envelope.openStart_fst newId { envelope with terminated := true } none
  have hblocks : (({ envelope with terminated := true }).openStart newId none).1.blocks = envelope.blocks := by
    rw [hopened]
  simp only [Envelope.finish, hrunning, Bool.false_eq_true, if_false]
  split
  · exact ⟨_, by rw [hblocks]; rfl, .inr rfl⟩
  · exact ⟨_, by rw [hblocks]; rfl, .inl rfl⟩

/-- Before its last frames the loop's end has closed every block. -/
theorem Renders.stranded (h : Renders envelope reader) (hrunning : envelope.terminated = false) (newId : Units) :
    readAll MessageReader.read reader
        ((({ envelope with terminated := true }).openStart newId none).2 ++ strandedStops envelope.blocks) =
      some { reader with started := true, opened := [] } := by
  have hended : reader.ended = false := h.ended.trans hrunning
  obtain ⟨-, -, horder⟩ := h.running hrunning
  have hread := @readAll_openStart { envelope with terminated := true } reader newId h.started hended none
  rw [readAll_append, hread, Option.bind_some, strandedStops_eq, ← horder]
  exact MessageReader.readAll_stops { reader with started := true } hended (horder ▸ h.tracked.nodup)

/-- The last frames of a loop, after every block is closed. -/
theorem readAll_tail {tail : List ClientFrame} (hended : reader.ended = false) (hending : reader.ending = false)
    (htail : tail.map ClientFrame.type = [.messageDelta, .messageStop] ∨
      tail = [errorFrame truncatedErrorType truncated]) :
    ∃ next, readAll MessageReader.read { reader with started := true, opened := [] } tail = some next ∧
      next.started = true ∧ next.ended = true := by
  rcases htail with htypes | rfl
  · obtain ⟨first, rest, rfl, hfirst, hrest⟩ := List.map_eq_cons_iff.mp htypes
    obtain ⟨second, last, rfl, hsecond, hlast⟩ := List.map_eq_cons_iff.mp hrest
    obtain rfl := List.map_eq_nil_iff.mp hlast
    simp [MessageReader.read, hfirst, hsecond, hended, hending]
  · simp [MessageReader.read, errorFrame, hended, hending]

/-- One call. -/
theorem Renders.step (h : Renders envelope reader) (newId : Units) {op : EnvelopeOp}
    (hfresh : StartsFresh envelope op) :
    ∃ next, readAll MessageReader.read reader (envelope.step newId op).2 = some next ∧
      Renders (envelope.step newId op).1 next := by
  cases hterminated : envelope.terminated with
  | true =>
    have hstill : envelope.step newId op = (envelope, []) := by
      cases op <;> simp [Envelope.step, Envelope.push, Envelope.finish, Envelope.fail, hterminated]
    rw [hstill]
    exact ⟨reader, rfl, h⟩
  | false =>
    have hended : reader.ended = false := h.ended.trans hterminated
    have hending := (h.running hterminated).1
    cases op with
    | push event turn =>
      obtain ⟨next, hread, hnext⟩ := h.pushRaw hterminated newId hfresh
      refine ⟨next, ?_, ?_⟩
      · simpa [Envelope.step, Envelope.push, hterminated, MessageReader.readAll_strip] using hread
      · simpa [Envelope.step, Envelope.push, hterminated] using hnext
    | finish completion =>
      obtain ⟨tail, hframes, htail⟩ := finish_snd newId completion hterminated
      obtain ⟨next, hread, hstarted, hdone⟩ := readAll_tail hended hending htail
      refine ⟨next, ?_, ?_⟩
      · rw [Envelope.step, hframes, readAll_append, h.stranded hterminated newId, Option.bind_some, hread]
      · obtain ⟨id, model, hopened⟩ := Envelope.openStart_fst newId { envelope with terminated := true } none
        simp only [Envelope.step, Envelope.finish, hterminated, Bool.false_eq_true, if_false, hopened]
        split <;> exact ⟨h.tracked, hstarted, hdone, fun hgone => by simp at hgone⟩
    | fail type message =>
      refine ⟨{ reader with ended := true }, ?_, ?_⟩
      · simp [Envelope.step, Envelope.fail, hterminated, MessageReader.read, errorFrame, hended, hending]
      · simp only [Envelope.step, Envelope.fail, hterminated, Bool.false_eq_true, if_false]
        exact ⟨h.tracked, h.started, rfl, fun hgone => by simp at hgone⟩

end Step

/-- The call is the loop's end or a failure. -/
def EnvelopeOp.closes : EnvelopeOp → Bool
  | .push .. => false
  | .finish _ | .fail .. => true

/-- The loop's end and a failure are terminal. -/
theorem step_terminated (newId : Units) (envelope : Envelope) {op : EnvelopeOp} (hcloses : op.closes = true) :
    (envelope.step newId op).1.terminated = true := by
  cases op with
  | push event turn => simp [EnvelopeOp.closes] at hcloses
  | finish completion =>
    obtain ⟨id, model, hopened⟩ := Envelope.openStart_fst newId { envelope with terminated := true } none
    simp only [Envelope.step, Envelope.finish, hopened]
    split_ifs with hterminated
    · exact hterminated
    · rfl
    · rfl
  | fail type message =>
    simp only [Envelope.step, Envelope.fail]
    split_ifs with hterminated
    · exact hterminated
    · rfl

/-- A run of the envelope from a model's name. -/
def envelopeRun (newId model : Units) (ops : List EnvelopeOp) : Envelope × List ClientFrame :=
  emitFrom (Envelope.step newId) { model } ops

/-- Calls that end with the loop's end or a failure emit one message. -/
structure OneMessage (newId model : Units) (ops : List EnvelopeOp) (closing : EnvelopeOp) : Prop where
  read : ∃ reader : MessageReader,
    readAll MessageReader.read {} (envelopeRun newId model (ops ++ [closing])).2 = some reader ∧ reader.ended = true
  closed : ∀ completion, closing = .finish completion → (envelopeRun newId model ops).1.terminated = false →
    ∃ (before tail : List ClientFrame) (reader : MessageReader),
      (envelopeRun newId model (ops ++ [closing])).2 = before ++ tail ∧
        readAll MessageReader.read {} before = some reader ∧ reader.started = true ∧ reader.opened = [] ∧
        (tail.map ClientFrame.type = [.messageDelta, .messageStop] ∨
          tail = [errorFrame truncatedErrorType truncated])

/-- Every run whose block starts find no open block under their turn and index emits one message. -/
theorem run_one_message (newId model : Units) (ops : List EnvelopeOp) (closing : EnvelopeOp)
    (hclosing : closing.closes = true)
    (hfresh : EveryStep (fun envelope op => (Envelope.step newId envelope op).1) StartsFresh { model } ops) :
    OneMessage newId model ops closing := by
  have hstart : Renders { model } {} :=
    ⟨⟨List.nodup_nil, by simp, by simp, List.nodup_nil⟩, rfl, rfl, fun _ => ⟨rfl, rfl, rfl⟩⟩
  obtain ⟨reader, hread, hrenders⟩ := emitFrom_read Renders (fun _ _ _ h hcondition => h.step newId hcondition)
    ops { model } {} hstart hfresh
  have hframes : (envelopeRun newId model (ops ++ [closing])).2 =
      (envelopeRun newId model ops).2 ++ ((envelopeRun newId model ops).1.step newId closing).2 := by
    simp [envelopeRun, emitFrom_append, emitFrom_cons]
  have hfreshclosing : StartsFresh (envelopeRun newId model ops).1 closing := by
    cases closing with
    | push event turn => simp [EnvelopeOp.closes] at hclosing
    | finish completion => trivial
    | fail type message => trivial
  constructor
  case read =>
    obtain ⟨next, hnext, hlast⟩ := hrenders.step newId hfreshclosing
    refine ⟨next, ?_, hlast.ended.trans (step_terminated newId _ hclosing)⟩
    rw [hframes, readAll_append]
    exact (congrArg (Option.bind · _) hread).trans hnext
  case closed =>
    rintro completion rfl hrunning
    obtain ⟨tail, hfinish, htail⟩ := finish_snd newId completion hrunning
    have hstranded := hrenders.stranded hrunning newId
    refine ⟨_, tail, { reader with started := true, opened := [] },
      by rw [hframes, Envelope.step, hfinish, ← List.append_assoc], ?_, rfl, rfl, htail⟩
    rw [readAll_append]
    exact (congrArg (Option.bind · _) hread).trans hstranded

/-- A start of the client's own turn. -/
def blockStart (sdkIndex : Nat) : EnvelopeOp :=
  .push { type := .contentBlockStart, index := some sdkIndex } none

/-- A message whose blocks are left open. -/
theorem run_one_message_left_open :
    OneMessage [] [] [blockStart 0, blockStart 1] (.finish { stopReason := none, usage := none }) :=
  run_one_message [] [] [blockStart 0, blockStart 1] (.finish { stopReason := none, usage := none }) rfl
    ⟨fun _ _ _ => rfl, fun _ sdkIndex hindex => by cases hindex; decide, trivial⟩

/-- A start at an open index: the older block is never stopped, and the ending comes with it open. -/
theorem reopened_block_never_stopped : ¬ OneMessage [] [] [blockStart 0, blockStart 0]
      (.finish { stopReason := some (asciiUnits "end_turn"), usage := none }) := by
  rintro ⟨⟨reader, hread, -⟩, -⟩
  have hrefused : readAll MessageReader.read {} (envelopeRun [] [] ([blockStart 0, blockStart 0] ++
      [EnvelopeOp.finish { stopReason := some (asciiUnits "end_turn"), usage := none }])).2 = none := by
    decide +kernel
  rw [hrefused] at hread
  cases hread

end MultiAiRouter.ClaudeSdk.Render
