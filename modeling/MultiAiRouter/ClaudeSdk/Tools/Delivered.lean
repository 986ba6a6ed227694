import Mathlib.Data.List.Forall2
import MultiAiRouter.ClaudeSdk.Tools.Rewrite

/-!
# Tool calls survive rewriting

Whoever reads wire events by block index sees tool blocks that take fragments until they stop, or until another
block starts at their index; what comes at the index of a stopped block comes late. Read so, the output has a block
for each block of the input, with the text it calls for and as many late events. A block is lost only by a start at
the index of an open one.
-/

namespace MultiAiRouter.ClaudeSdk.Tools

open Common ClaudeSdk.Render

section Json

mutual

/-- No number of the value is beyond the range of a double. -/
def finiteValue : Value → Bool
  | .number (.infinite _) => false
  | .array items => finiteItems items
  | .object members => finiteMembers members
  | _ => true

def finiteItems : List Value → Bool
  | [] => true
  | item :: rest => finiteValue item && finiteItems rest

def finiteMembers : List (Units × Value) → Bool
  | [] => true
  | member :: rest => finiteValue member.2 && finiteMembers rest

end

/-- The two state the same JSON: objects are compared up to the order of their members. -/
inductive SameJson : Value → Value → Prop
  | null : SameJson .null .null
  | bool (value : Bool) : SameJson (.bool value) (.bool value)
  | number (value : Number) : SameJson (.number value) (.number value)
  | string (units : Units) : SameJson (.string units) (.string units)
  | array {first second : List Value} (items : List.Forall₂ SameJson first second) :
      SameJson (.array first) (.array second)
  | object {first ordered second : Record} (order : first.Perm ordered)
      (names : ordered.map Prod.fst = second.map Prod.fst)
      (values : List.Forall₂ SameJson (ordered.map Prod.snd) (second.map Prod.snd)) :
      SameJson (.object first) (.object second)

/-- The text states the value. -/
def JsonText.States (json : JsonText) (text : Units) (value : Value) : Prop :=
  ∃ read, json.parse text = some read ∧ SameJson read value

/-- Writing the value and reading it gives it back, but for numbers that JSON cannot write. -/
def JsonText.RoundTrips (json : JsonText) (value : Value) : Prop :=
  json.States (json.stringify value) value ↔ finiteValue value = true

/-- Only the values count. -/
theorem finiteMembers_values {first second : Record} (h : first.map Prod.snd = second.map Prod.snd) :
    finiteMembers first = finiteMembers second := by
  induction first generalizing second with
  | nil =>
    cases second with
    | nil => rfl
    | cons member rest => simp at h
  | cons member rest ih =>
    cases second with
    | nil => simp at h
    | cons other more =>
      rw [List.map_cons, List.map_cons, List.cons.injEq] at h
      rw [finiteMembers, finiteMembers, h.1, ih h.2]

/-- Renaming arguments leaves their numbers. -/
theorem finite_repair (source : ToolSource) (name : Units) (input : Record) :
    finiteValue (.object (source.repair name input)) = finiteValue (.object input) := by
  unfold ToolSource.repair
  cases source.schemas name with
  | none => rfl
  | some schema =>
    rw [finiteValue, finiteValue]
    exact finiteMembers_values (repairToolInput_values source.fold)

end Json

/-- Where a tool block stands: it takes fragments, it stopped, it stopped and another block started at its
index, or another block started there before it stopped. -/
inductive BlockState
  | reading
  | stopped
  | followed
  | displaced
  deriving DecidableEq

/-- The block stopped. -/
def BlockState.ended : BlockState → Bool
  | .stopped | .followed => true
  | .reading | .displaced => false

/-- A tool block as a reader of the events knows it, with how many stops and fragments came late. -/
structure ToolBlock where
  index : Nat
  id : Units
  name : Units
  fragments : Units := []
  state : BlockState := .reading
  late : Nat := 0
  deriving DecidableEq

/-- Change the block that takes the events of the index; where it has stopped the event comes late. -/
def ToolBlock.change (index : Nat) (edit : ToolBlock → ToolBlock) (block : ToolBlock) : ToolBlock :=
  if block.index = index then
    match block.state with
    | .reading => edit block
    | .stopped => { block with late := block.late + 1 }
    | .followed | .displaced => block
  else block

/-- Another block starts at the index. -/
def ToolBlock.leave (index : Nat) (block : ToolBlock) : ToolBlock :=
  if block.index = index then
    match block.state with
    | .reading => { block with state := .displaced }
    | .stopped => { block with state := .followed }
    | .followed | .displaced => block
  else block

def ToolBlock.take (fragment : Units) (block : ToolBlock) : ToolBlock :=
  { block with fragments := block.fragments ++ fragment }

def ToolBlock.close (block : ToolBlock) : ToolBlock := { block with state := .stopped }

/-- The tool block an event starts. -/
def startedBlock (event : WireEvent) (index : Nat) : List ToolBlock :=
  ((toolBlock event).map fun block =>
    { index, id := textOf block "id", name := unprefixToolName (textOf block "name") }).toList

/-- Read an event. A start takes over its index; a fragment or a stop at an index where no tool block started
last belongs to none. -/
def readEvent (blocks : List ToolBlock) (event : WireEvent) : List ToolBlock :=
  match event.index, event.type with
  | some index, .contentBlockStart => blocks.map (.leave index) ++ startedBlock event index
  | some index, .contentBlockDelta =>
    (inputFragment event).elim blocks fun fragment => blocks.map (.change index (.take fragment))
  | some index, .contentBlockStop => blocks.map (.change index .close)
  | _, _ => blocks

/-- The tool blocks of the events, in the order they start. -/
def readBlocks (events : List WireEvent) : List ToolBlock := events.foldl readEvent []

section Claim

variable (source : ToolSource) (captured : Units → Option Value)

/-- The input a block is written with, where it is written from an object: its fragments did not pass the bound, and
the hook saw its input or they parse to an object. -/
def statedInput (block : ToolBlock) : Option Record :=
  if maxBufferedToolInput < block.fragments.length then none
  else
    (if block.state = .reading then (captured block.id).bind Value.asRecord else none).or
      (source.json.parseObject block.fragments)

/-- A block of the input reached the client: it is stopped once and after its last fragment, and its fragments
state its input under the client's names, or are its own. -/
def Delivered (block out : ToolBlock) : Prop :=
  out.state.ended = true ∧ out.late = 0 ∧
    (statedInput source captured block).elim (out.fragments = block.fragments) fun input =>
      source.json.States out.fragments (.object (source.repair block.name input))

/-- Every tool block of the events survives, and nothing is held after the flush. -/
def Survives (events : List WireEvent) : Prop :=
  List.Forall₂ (Delivered source captured) (readBlocks events)
      (readBlocks (ToolRewriter.rewrite source events captured).2) ∧
    (ToolRewriter.rewrite source events captured).1.opened = []

/-- No start arrives at the index of an open tool block, no stop and no fragment at that of a stopped one, and
no number of an input that is written again is beyond the range of a double. -/
def Clean (events : List WireEvent) : Prop :=
  ∀ block ∈ readBlocks events, block.state ≠ .displaced ∧ block.late = 0 ∧
    ∀ input, statedInput source captured block = some input → finiteValue (.object input) = true

/-- The text a block is written with. -/
def expectedText (block : ToolBlock) : Units :=
  (statedInput source captured block).elim block.fragments (source.written block.name)

end Claim

/-- What the rewriter holds of an open block, and what the client was told of it. -/
structure Holds (tool : OpenTool) (block out : ToolBlock) : Prop where
  id : tool.id = block.id
  name : tool.name = block.name
  overflowed : tool.overflowed = decide (maxBufferedToolInput < block.fragments.length)
  held : tool.overflowed = false → tool.buffer = block.fragments ∧ out.fragments = []
  streamed : tool.overflowed = true → out.fragments = block.fragments

/-- A block of the input beside the block of the output it became. -/
structure Tracks (source : ToolSource) (opened : List (Nat × OpenTool)) (block out : ToolBlock) : Prop where
  index : out.index = block.index
  state : out.state = block.state
  late : out.late = block.late
  reading : block.state = .reading → ∃ tool, opened.lookup block.index = some tool ∧ Holds tool block out
  ended : block.state.ended = true → out.fragments = expectedText source (fun _ => none) block
  idle : block.state = .stopped → opened.lookup block.index = none

section Change

variable {source : ToolSource} {opened next : List (Nat × OpenTool)} {blocks outs : List ToolBlock} {index : Nat}

/-- Two relations on the same lists hold of one pair for each item. -/
theorem exists_pair {First Second : Type} {one two : First → Second → Prop} {firsts : List First}
    {seconds : List Second} (hone : List.Forall₂ one firsts seconds) (htwo : List.Forall₂ two firsts seconds) :
    ∀ item ∈ firsts, ∃ other, one item other ∧ two item other := by
  induction hone with
  | nil => simp
  | cons hpair hrest ih =>
    cases htwo with
    | cons hother hothers =>
      intro item hitem
      rcases List.mem_cons.mp hitem with rfl | hitem
      · exact ⟨_, hpair, hother⟩
      · exact ih hothers item hitem

/-- No block that stopped is the last of the index. -/
def Free (index : Nat) (blocks : List ToolBlock) : Prop :=
  ∀ block ∈ blocks, block.index = index → block.state ≠ .stopped

section Here

variable {edit : ToolBlock → ToolBlock} {block : ToolBlock}

/-- A block of another index. -/
theorem change_elsewhere (h : block.index ≠ index) : block.change index edit = block := if_neg h

/-- A block that takes fragments. -/
theorem change_reading (h : block.index = index) (hstate : block.state = .reading) :
    block.change index edit = edit block := by
  rw [ToolBlock.change, if_pos h, hstate]

/-- A block that has stopped. -/
theorem change_stopped (h : block.index = index) (hstate : block.state = .stopped) :
    block.change index edit = { block with late := block.late + 1 } := by
  rw [ToolBlock.change, if_pos h, hstate]

/-- Another block has started at the index. -/
theorem change_past (hstate : block.state = .followed ∨ block.state = .displaced) :
    block.change index edit = block := by
  unfold ToolBlock.change
  rcases hstate with hstate | hstate <;> rw [hstate] <;> exact ite_self _

/-- Nothing is changed where no stopped block is the last. -/
theorem change_id_of_ne (h : block.index = index → block.state ≠ .stopped) : block.change index id = block := by
  by_cases hindex : block.index = index
  · cases hstate : block.state with
    | reading => exact change_reading hindex hstate
    | stopped => exact absurd hstate (h hindex)
    | followed => exact change_past (.inl hstate)
    | displaced => exact change_past (.inr hstate)
  · exact change_elsewhere hindex

end Here

/-- Nothing is changed in such a list. -/
theorem change_id (h : Free index blocks) : blocks.map (.change index id) = blocks :=
  (List.map_congr_left fun block hblock => change_id_of_ne (h block hblock)).trans (List.map_id _)

/-- Two changes of a free index are one. -/
theorem change_change (h : Free index blocks) {first second : ToolBlock → ToolBlock}
    (hindex : ∀ block, (first block).index = block.index) (hstate : ∀ block, (first block).state = block.state) :
    (blocks.map (ToolBlock.change index first)).map (ToolBlock.change index second) =
      blocks.map (ToolBlock.change index fun block => second (first block)) := by
  rw [List.map_map]
  refine List.map_congr_left fun block hblock => ?_
  show (block.change index first).change index second = _
  by_cases hhere : block.index = index
  · cases hkept : block.state with
    | reading =>
      rw [change_reading hhere hkept, change_reading hhere hkept]
      exact change_reading ((hindex block).trans hhere) ((hstate block).trans hkept)
    | stopped => exact absurd hkept (h block hblock hhere)
    | followed => rw [change_past (.inl hkept), change_past (.inl hkept), change_past (.inl hkept)]
    | displaced => rw [change_past (.inr hkept), change_past (.inr hkept), change_past (.inr hkept)]
  · rw [change_elsewhere hhere, change_elsewhere hhere, change_elsewhere hhere]

/-- While a tool block is open at the index no other is the last there. -/
theorem free_of_open (h : List.Forall₂ (Tracks source opened) blocks outs) {tool : OpenTool}
    (hopen : opened.lookup index = some tool) : Free index outs := by
  intro out hout hindex hstopped
  obtain ⟨block, htracks, -⟩ := exists_pair h.flip h.flip out hout
  have hnone := htracks.idle (htracks.state.symm.trans hstopped)
  rw [← htracks.index, hindex, hopen] at hnone
  cases hnone

/-- The blocks at other indices go on as they were; what happens at this index is told for its block. -/
theorem tracks_change (h : List.Forall₂ (Tracks source opened) blocks outs)
    (hother : ∀ other, other ≠ index → next.lookup other = opened.lookup other)
    (hidle : opened.lookup index = none → next.lookup index = none) {edit editOut : ToolBlock → ToolBlock}
    (hhere : ∀ tool block out, opened.lookup index = some tool → block.index = index → block.state = .reading →
      out.index = index → out.state = .reading → out.late = block.late → Holds tool block out →
      Tracks source next (edit block) (editOut out)) :
    List.Forall₂ (Tracks source next) (blocks.map (.change index edit)) (outs.map (.change index editOut)) := by
  rw [List.forall₂_map_left_iff, List.forall₂_map_right_iff]
  refine h.imp fun block out htracks => ?_
  obtain ⟨hindex, hstate, hlate, hreading, hended, hidleHere⟩ := htracks
  by_cases hhit : block.index = index
  · cases hblock : block.state with
    | reading =>
      rw [change_reading hhit hblock, change_reading (hindex.trans hhit) (hstate.trans hblock)]
      obtain ⟨tool, htool, hholds⟩ := hreading hblock
      exact hhere tool block out (hhit ▸ htool) hhit hblock (hindex.trans hhit) (hstate.trans hblock) hlate hholds
    | stopped =>
      rw [change_stopped hhit hblock, change_stopped (hindex.trans hhit) (hstate.trans hblock)]
      refine ⟨hindex, hstate, congrArg (· + 1) hlate, fun hopen => ?_, hended, fun _ => ?_⟩
      · cases hblock.symm.trans hopen
      · subst hhit
        exact hidle (hidleHere hblock)
    | followed | displaced =>
      rw [change_past (by simp [hblock]), change_past (by simp [hstate, hblock])]
      refine ⟨hindex, hstate, hlate, fun hopen => ?_, hended, fun hstopped => ?_⟩
      · cases hblock.symm.trans hopen
      · cases hblock.symm.trans hstopped
  · rw [change_elsewhere hhit, change_elsewhere fun hout => hhit (hindex.symm.trans hout)]
    refine ⟨hindex, hstate, hlate, fun hopen => ?_, hended, fun hstopped => ?_⟩
    · obtain ⟨tool, htool, hholds⟩ := hreading hopen
      exact ⟨tool, (hother _ hhit).trans htool, hholds⟩
    · exact (hother _ hhit).trans (hidleHere hstopped)

/-- Where another block starts, the block at the index is left as it is on both sides. -/
theorem tracks_leave (h : List.Forall₂ (Tracks source opened) blocks outs)
    (hother : ∀ other, other ≠ index → next.lookup other = opened.lookup other) :
    List.Forall₂ (Tracks source next) (blocks.map (.leave index)) (outs.map (.leave index)) := by
  rw [List.forall₂_map_left_iff, List.forall₂_map_right_iff]
  refine h.imp fun block out htracks => ?_
  obtain ⟨hindex, hstate, hlate, hreading, hended, hidleHere⟩ := htracks
  unfold ToolBlock.leave
  rw [hindex, hstate]
  by_cases hhit : block.index = index
  · rw [if_pos hhit, if_pos hhit]
    cases hblock : block.state with
    | reading =>
      dsimp only
      exact { index := rfl, state := rfl, late := hlate, reading := nofun, ended := nofun, idle := nofun }
    | stopped =>
      dsimp only
      have htext : expectedText source (fun _ => none) block =
          expectedText source (fun _ => none) { block with state := .followed } := by
        simp [expectedText, statedInput, hblock]
      exact { index := rfl, state := rfl, late := hlate, reading := nofun, idle := nofun,
              ended := fun _ => (hended (by rw [hblock]; rfl)).trans htext }
    | followed | displaced =>
      refine ⟨hindex, hstate, hlate, fun hopen => ?_, hended, fun hstopped => ?_⟩
      · cases hblock.symm.trans hopen
      · cases hblock.symm.trans hstopped
  · rw [if_neg hhit, if_neg hhit]
    refine ⟨hindex, hstate, hlate, fun hopen => ?_, hended, fun hstopped => ?_⟩
    · obtain ⟨tool, htool, hholds⟩ := hreading hopen
      exact ⟨tool, (hother _ hhit).trans htool, hholds⟩
    · exact (hother _ hhit).trans (hidleHere hstopped)

/-- Removing one index leaves the others. -/
theorem lookup_filter_ne {other : Nat} (hother : other ≠ index) (opened : List (Nat × OpenTool)) :
    (opened.filter fun entry => entry.1 != index).lookup other = opened.lookup other := by
  induction opened with
  | nil => rfl
  | cons entry rest ih =>
    by_cases hentry : entry.1 = index
    · have hskip : (other == entry.1) = false := beq_eq_false_iff_ne.mpr (hentry ▸ hother)
      rw [List.filter_cons_of_neg (by simp [hentry]), ih, List.lookup_cons, hskip]
    · rw [List.filter_cons_of_pos (by simpa using hentry), List.lookup_cons, List.lookup_cons, ih]

/-- The index is gone. -/
theorem lookup_filter_self (index : Nat) (opened : List (Nat × OpenTool)) :
    (opened.filter fun entry => entry.1 != index).lookup index = none := by
  rw [List.lookup_eq_none_iff]
  intro entry hentry
  have hne : entry.1 ≠ index := by simpa using (List.mem_filter.mp hentry).2
  simpa using hne.symm

/-- Opening one index leaves the others. -/
theorem lookup_setOpen_ne {other : Nat} (hother : other ≠ index) (tool : OpenTool) :
    (ToolRewriter.setOpen opened index tool).lookup other = opened.lookup other := by
  have hskip : (other == index) = false := beq_eq_false_iff_ne.mpr hother
  unfold ToolRewriter.setOpen
  rw [List.lookup_append, lookup_filter_ne hother]
  simp [List.lookup_cons, hskip]

/-- The index is open. -/
theorem lookup_setOpen_self (tool : OpenTool) :
    (ToolRewriter.setOpen opened index tool).lookup index = some tool := by
  unfold ToolRewriter.setOpen
  rw [List.lookup_append, lookup_filter_self]
  simp

end Change

section Read

variable (blocks : List ToolBlock) (index : Nat)

/-- A reader takes a fragment. -/
theorem readEvent_inputDelta (text : Units) :
    readEvent blocks (inputDelta index text) = blocks.map (.change index (.take text)) := rfl

/-- A reader takes a stop. -/
theorem readEvent_stop (raw : Record) :
    readEvent blocks { type := .contentBlockStop, index := some index, raw } = blocks.map (.change index .close) := rfl

/-- A last fragment and the stop. -/
theorem readEvents_closing (h : Free index blocks) (text : Units) (raw : Record) :
    [inputDelta index text, { type := .contentBlockStop, index := some index, raw }].foldl readEvent blocks =
      blocks.map (.change index fun block => (block.take text).close) := by
  rw [List.foldl_cons, List.foldl_cons, List.foldl_nil, readEvent_inputDelta, readEvent_stop]
  refine change_change h ?_ ?_
  · exact fun _ => rfl
  · exact fun _ => rfl

end Read

section Push

variable {source : ToolSource} {rewriter : ToolRewriter} {blocks outs : List ToolBlock} {event : WireEvent}
  {index : Nat}

/-- Each block of the input is beside its block of the output. -/
def InStep (source : ToolSource) (rewriter : ToolRewriter) (blocks outs : List ToolBlock) : Prop :=
  List.Forall₂ (Tracks source rewriter.opened) blocks outs

/-- A step of the rewriter keeps the blocks beside each other. -/
def StaysInStep (source : ToolSource) (blocks outs : List ToolBlock) (event : WireEvent)
    (out : ToolRewriter × ToolRewrite) : Prop :=
  InStep source out.1 (readEvent blocks event) ((out.2.events event).foldl readEvent outs)

/-- A block that is stopped says what it has to. -/
theorem stopped_tracks {opened : List (Nat × OpenTool)} {block out : ToolBlock} (hindex : out.index = block.index)
    (hlate : out.late = block.late) (hidle : opened.lookup block.index = none)
    (htext : out.fragments = expectedText source (fun _ => none) block.close) :
    Tracks source opened block.close out.close := by
  refine ⟨hindex, rfl, hlate, fun hreading => ?_, fun _ => htext, fun _ => hidle⟩
  simp [ToolBlock.close] at hreading

/-- A block that is still open. -/
theorem reading_tracks {opened : List (Nat × OpenTool)} {block out : ToolBlock} {tool : OpenTool}
    (hopen : opened.lookup index = some tool) (hblock : block.index = index) (hreading : block.state = .reading)
    (hout : out.index = index) (houtReading : out.state = .reading) (hlate : out.late = block.late)
    (hholds : Holds tool block out) : Tracks source opened block out := by
  refine ⟨hout.trans hblock.symm, houtReading.trans hreading.symm, hlate, fun _ => ⟨tool, ?_, hholds⟩,
    fun hended => ?_, fun hstopped => ?_⟩
  · rw [hblock]
    exact hopen
  · simp [hreading, BlockState.ended] at hended
  · simp [hreading] at hstopped

/-- A block that stays open goes on with the tool that is kept for it now. -/
theorem tracks_open {opened next : List (Nat × OpenTool)} {blocks outs : List ToolBlock} {tool after : OpenTool}
    (h : List.Forall₂ (Tracks source opened) blocks outs) (hopen : opened.lookup index = some tool)
    (hother : ∀ other, other ≠ index → next.lookup other = opened.lookup other)
    (hnext : next.lookup index = some after) {edit editOut : ToolBlock → ToolBlock}
    (hedit : ∀ block, (edit block).index = block.index ∧ (edit block).state = block.state ∧
      (edit block).late = block.late)
    (heditOut : ∀ block, (editOut block).index = block.index ∧ (editOut block).state = block.state ∧
      (editOut block).late = block.late)
    (hholds : ∀ block out, Holds tool block out → Holds after (edit block) (editOut out)) :
    List.Forall₂ (Tracks source next) (blocks.map (.change index edit)) (outs.map (.change index editOut)) := by
  refine tracks_change h hother (by simp [hopen])
    fun held block out hheld hblock hreading hout houtReading hlate hholding => ?_
  obtain rfl := Option.some.inj (hopen.symm.trans hheld)
  obtain ⟨hindex, hstate, hedited⟩ := hedit block
  obtain ⟨hindexOut, hstateOut, heditedOut⟩ := heditOut out
  exact reading_tracks hnext (hindex.trans hblock) (hstate.trans hreading) (hindexOut.trans hout)
    (hstateOut.trans houtReading) (heditedOut.trans (hlate.trans hedited.symm)) (hholds block out hholding)

/-- The start the client sees is the start of a tool block. -/
theorem toolBlock_startFrame {block : Record} (hblock : toolBlock event = some block) (name : Units)
    (seed : Option Record) : ∃ content, toolBlock (startFrame event block name seed) = some content := by
  have htype : (block.get (asciiUnits "type")).bind Value.asString = some (asciiUnits "tool_use") := by
    simpa using (Option.filter_eq_some_iff.mp hblock).2
  have hname : (block.set (asciiUnits "name") (.string name)).get (asciiUnits "type") = block.get (asciiUnits "type") :=
    Record.get_set_of_ne (by decide) _
  simp only [toolBlock, startFrame, Record.get_set_self, Option.bind_some, Value.asRecord]
  cases seed with
  | none => exact ⟨_, Option.filter_eq_some_iff.mpr ⟨rfl, by simp [hname, htype]⟩⟩
  | some input =>
    have hinput : ((block.set (asciiUnits "name") (.string name)).set (asciiUnits "input") (.object input)).get
        (asciiUnits "type") = block.get (asciiUnits "type") :=
      (Record.get_set_of_ne (by decide) _).trans hname
    exact ⟨_, Option.filter_eq_some_iff.mpr ⟨rfl, by simp [hinput, htype]⟩⟩

/-- A start. -/
theorem InStep.start (h : InStep source rewriter blocks outs) (htype : event.type = .contentBlockStart)
    (hindex : event.index = some index) : StaysInStep source blocks outs event (rewriter.start source event index) := by
  have hread : ∀ (blocks : List ToolBlock) (event : WireEvent), event.type = .contentBlockStart →
      event.index = some index →
      readEvent blocks event = blocks.map (.leave index) ++ startedBlock event index := by
    intro blocks event htype hindex
    simp only [readEvent, hindex, htype]
  unfold StaysInStep ToolRewriter.start
  rw [hread blocks event htype hindex]
  cases hblock : toolBlock event with
  | none =>
    simp only [ToolRewrite.events, List.foldl_cons, List.foldl_nil, hread outs event htype hindex]
    simp only [startedBlock, hblock, Option.map_none, Option.toList_none, List.append_nil]
    exact tracks_leave h fun _ _ => rfl
  | some block =>
    -- the block that starts is beside the one the client sees start
    simp only [ToolRewrite.events, List.foldl_cons, List.foldl_nil]
    rw [hread outs (startFrame ..) htype hindex]
    refine List.rel_append ?_ ?_
    · exact tracks_leave h fun other hother => lookup_setOpen_ne hother _
    · obtain ⟨content, hcontent⟩ := toolBlock_startFrame hblock (unprefixToolName (textOf block "name"))
        (((block.get (asciiUnits "input")).bind Value.asRecord).map
          (source.repair (unprefixToolName (textOf block "name"))))
      simp only [startedBlock, hblock, hcontent, Option.map_some, Option.toList_some]
      refine .cons (reading_tracks (lookup_setOpen_self _) rfl rfl rfl rfl rfl ?_) .nil
      exact ⟨rfl, rfl, rfl, fun _ => ⟨rfl, rfl⟩, fun hover => by simp at hover⟩

/-- A fragment. -/
theorem InStep.delta (h : InStep source rewriter blocks outs) (htype : event.type = .contentBlockDelta)
    (hindex : event.index = some index) : StaysInStep source blocks outs event (rewriter.delta event index) := by
  have hread : ∀ blocks, readEvent blocks event =
      (inputFragment event).elim blocks fun fragment => blocks.map (.change index (.take fragment)) := by
    intro blocks
    simp only [readEvent, hindex, htype]
  unfold StaysInStep ToolRewriter.delta
  cases hfragment : inputFragment event with
  | none =>
    have hsame : ∀ blocks, readEvent blocks event = blocks := fun blocks => by rw [hread, hfragment]; rfl
    rw [hsame]
    cases rewriter.opened.lookup index with
    | none => simpa [ToolRewrite.events, hsame] using h
    | some tool => cases htool : tool.overflowed <;> simpa [ToolRewrite.events, hsame, htool] using h
  | some fragment =>
    have htake : ∀ blocks, readEvent blocks event = blocks.map (.change index (.take fragment)) :=
      fun blocks => by rw [hread, hfragment]; rfl
    rw [htake]
    cases hopen : rewriter.opened.lookup index with
    | none =>
      simp only [ToolRewrite.events, List.foldl_cons, List.foldl_nil, htake]
      exact tracks_change h (fun _ _ => rfl) id fun tool block out htool => by simp [hopen] at htool
    | some tool =>
      cases hover : tool.overflowed with
      | true =>
        simp only [hover, if_true, ToolRewrite.events, List.foldl_cons, List.foldl_nil, htake]
        refine tracks_open h hopen (fun _ _ => rfl) hopen (fun _ => ⟨rfl, rfl, rfl⟩) (fun _ => ⟨rfl, rfl, rfl⟩)
          fun block out hholds => ?_
        have hlong : maxBufferedToolInput < block.fragments.length := by simpa [hover] using hholds.overflowed
        refine ⟨hholds.id, hholds.name, ?_, fun hnot => by simp [hover] at hnot, fun _ => ?_⟩
        · rw [hover, eq_comm, decide_eq_true_eq]
          exact hlong.trans_le (by simp [ToolBlock.take])
        · exact congrArg (· ++ fragment) (hholds.streamed hover)
      | false =>
        simp only [hover, Bool.false_eq_true, if_false]
        split
        · next hfits =>
          -- the fragment is held
          simp only [ToolRewrite.events, List.foldl_nil]
          rw [← change_id (free_of_open h hopen)]
          refine tracks_open h hopen (fun other hother => lookup_setOpen_ne hother _) (lookup_setOpen_self _)
            (fun _ => ⟨rfl, rfl, rfl⟩) (fun _ => ⟨rfl, rfl, rfl⟩) fun block out hholds => ?_
          obtain ⟨hbuffer, hnone⟩ := hholds.held hover
          rw [hbuffer] at hfits
          refine ⟨hholds.id, hholds.name, ?_, fun _ => ⟨?_, hnone⟩, fun hover => by simp at hover⟩
          · simpa [hover, ToolBlock.take] using hfits
          · exact congrArg (· ++ fragment) hbuffer
        · next hlong =>
          -- the bound is passed: all that was held goes out
          simp only [ToolRewrite.events, List.foldl_cons, List.foldl_nil, readEvent_inputDelta]
          refine tracks_open h hopen (fun other hother => lookup_setOpen_ne hother _) (lookup_setOpen_self _)
            (fun _ => ⟨rfl, rfl, rfl⟩) (fun _ => ⟨rfl, rfl, rfl⟩) fun block out hholds => ?_
          obtain ⟨hbuffer, hnone⟩ := hholds.held hover
          rw [hbuffer] at hlong
          refine ⟨hholds.id, hholds.name, ?_, fun hnot => by simp at hnot, fun _ => ?_⟩
          · simpa [ToolBlock.take, eq_comm] using hlong
          · simp [ToolBlock.take, hnone, hbuffer]

/-- The text of a block that stops is not one the hook saw. -/
theorem expectedText_close (block : ToolBlock) (captured : Units → Option Value) :
    expectedText source captured block.close =
      if maxBufferedToolInput < block.fragments.length then block.fragments
      else (source.json.parseObject block.fragments).elim block.fragments (source.written block.name) := by
  unfold expectedText statedInput
  split <;> simp_all [ToolBlock.close]

/-- Noting a call that came empty opens and closes nothing. -/
theorem opened_noteIfEmpty (rewriter : ToolRewriter) (tool : OpenTool) (input : Option Record) :
    (rewriter.noteIfEmpty source tool input).opened = rewriter.opened := by
  unfold ToolRewriter.noteIfEmpty
  dsimp only
  split <;> rfl

/-- A stop. -/
theorem InStep.stop (hempty : source.json.parse [] = none) (h : InStep source rewriter blocks outs)
    (htype : event.type = .contentBlockStop) (hindex : event.index = some index) :
    StaysInStep source blocks outs event (rewriter.stop source event index) := by
  have hread : ∀ blocks, readEvent blocks event = blocks.map (.change index .close) := by
    intro blocks
    simp only [readEvent, hindex, htype]
  have hclosed : ∀ other, other ≠ index →
      (rewriter.opened.filter fun entry => entry.1 != index).lookup other = rewriter.opened.lookup other :=
    fun other hother => lookup_filter_ne hother _
  unfold StaysInStep ToolRewriter.stop
  rw [hread]
  cases hopen : rewriter.opened.lookup index with
  | none =>
    simp only [ToolRewrite.events, List.foldl_cons, List.foldl_nil, hread]
    exact tracks_change h (fun _ _ => rfl) id fun tool block out htool => by simp [hopen] at htool
  | some tool =>
    dsimp only
    cases hover : tool.overflowed with
    | true =>
      simp only [if_true, ToolRewrite.events, List.foldl_cons, List.foldl_nil, hread]
      refine tracks_change h hclosed (fun _ => lookup_filter_self _ _)
        fun held block out hheld hblock hreading hout houtReading hlate hholds => ?_
      obtain rfl := Option.some.inj (hopen.symm.trans hheld)
      have hlong : maxBufferedToolInput < block.fragments.length := by simpa [hover] using hholds.overflowed
      refine stopped_tracks (hout.trans hblock.symm) hlate (hblock ▸ lookup_filter_self _ _) ?_
      rw [expectedText_close, if_pos hlong]
      exact hholds.streamed hover
    | false =>
      have hshort : ∀ {block out : ToolBlock}, Holds tool block out →
          ¬ maxBufferedToolInput < block.fragments.length := fun hholds => by simpa [hover] using hholds.overflowed
      simp only [Bool.false_eq_true, if_false]
      split
      · next hnone =>
        simp only [ToolRewrite.events, List.foldl_cons, List.foldl_nil, hread]
        unfold InStep
        rw [opened_noteIfEmpty]
        refine tracks_change h hclosed (fun _ => lookup_filter_self _ _)
          fun held block out hheld hblock hreading hout houtReading hlate hholds => ?_
        obtain rfl := Option.some.inj (hopen.symm.trans hheld)
        obtain ⟨hbuffer, hout'⟩ := hholds.held hover
        have hfragments : block.fragments = [] := hbuffer ▸ List.isEmpty_iff.mp hnone
        refine stopped_tracks (hout.trans hblock.symm) hlate (hblock ▸ lookup_filter_self _ _) ?_
        rw [expectedText_close, if_neg (hshort hholds), hfragments, JsonText.parseObject, hempty]
        exact hout'
      · have hstop : stopFrame event index = { type := .contentBlockStop, index := some index, raw := event.raw } := rfl
        have hlast : ∀ text (next : ToolRewriter), next.opened =
            rewriter.opened.filter (fun entry => entry.1 != index) →
            (∀ {block out : ToolBlock}, Holds tool block out →
              text = expectedText source (fun _ => none) block.close) →
            InStep source next (blocks.map (.change index .close))
              ([inputDelta index text, stopFrame event index].foldl readEvent outs) := by
          intro text next hnext htext
          rw [hstop, readEvents_closing _ _ (free_of_open h hopen)]
          unfold InStep
          rw [hnext]
          refine tracks_change h hclosed (fun _ => lookup_filter_self _ _)
            fun held block out hheld hblock hreading hout houtReading hlate hholds => ?_
          obtain rfl := Option.some.inj (hopen.symm.trans hheld)
          refine stopped_tracks (hout.trans hblock.symm) hlate (hblock ▸ lookup_filter_self _ _) ?_
          rw [← htext hholds]
          simp [ToolBlock.take, (hholds.held hover).2]
        cases hparsed : source.json.parseObject tool.buffer with
        | none =>
          refine hlast tool.buffer _ rfl fun {block out} hholds => ?_
          obtain ⟨hbuffer, -⟩ := hholds.held hover
          rw [expectedText_close, if_neg (hshort hholds), ← hbuffer, hparsed]
          rfl
        | some parsed =>
          refine hlast (source.written tool.name parsed) _ (opened_noteIfEmpty ..) fun {block out} hholds => ?_
          obtain ⟨hbuffer, -⟩ := hholds.held hover
          rw [expectedText_close, if_neg (hshort hholds), ← hbuffer, hparsed, ← hholds.name]
          rfl

/-- One event. -/
theorem InStep.emit (hempty : source.json.parse [] = none) (h : InStep source rewriter blocks outs)
    (event : WireEvent) : InStep source (rewriter.emit source event).1 (readEvent blocks event)
      ((rewriter.emit source event).2.foldl readEvent outs) := by
  show StaysInStep source blocks outs event (rewriter.push source event none)
  have hforward : (∀ blocks, readEvent blocks event = blocks) →
      StaysInStep source blocks outs event (rewriter, .forward) := by
    intro hsame
    unfold StaysInStep
    simpa [ToolRewrite.events, hsame] using h
  unfold ToolRewriter.push
  cases hindex : event.index with
  | none => exact hforward fun blocks => by simp only [readEvent, hindex]
  | some index =>
    cases htype : event.type with
    | contentBlockStart => exact h.start htype hindex
    | contentBlockDelta => exact h.delta htype hindex
    | contentBlockStop => exact h.stop hempty htype hindex
    | _ => exact hforward fun blocks => by simp only [readEvent, hindex, htype]

/-- A run of events. -/
theorem InStep.emitAll (hempty : source.json.parse [] = none) (events : List WireEvent)
    (h : InStep source rewriter blocks outs) :
    InStep source (emitFrom (ToolRewriter.emit source) rewriter events).1 (events.foldl readEvent blocks)
      ((emitFrom (ToolRewriter.emit source) rewriter events).2.foldl readEvent outs) := by
  induction events generalizing rewriter blocks outs with
  | nil => exact h
  | cons event rest ih =>
    rw [emitFrom_cons, List.foldl_cons, List.foldl_append]
    exact ih (h.emit hempty event)

end Push

section Flush

variable {source : ToolSource} {captured : Units → Option Value} {blocks outs : List ToolBlock}

/-- A block goes before those of its index, so sorting by index leaves what is found at one. -/
theorem lookup_orderedInsert (entry : Nat × OpenTool) (entries : List (Nat × OpenTool)) (index : Nat) :
    (entries.orderedInsert (fun first second => first.1 ≤ second.1) entry).lookup index =
      (entry :: entries).lookup index := by
  induction entries with
  | nil => rfl
  | cons other rest ih =>
    rw [List.orderedInsert_cons]
    split
    · rfl
    · next hafter =>
      have hne : entry.1 ≠ other.1 := fun hsame => hafter hsame.le
      rw [List.lookup_cons, ih, List.lookup_cons, List.lookup_cons, List.lookup_cons]
      by_cases hother : index = other.1
      · have hskip : (index == entry.1) = false := beq_eq_false_iff_ne.mpr fun h => hne (h.symm.trans hother)
        rw [hskip]
      · have hskip : (index == other.1) = false := beq_eq_false_iff_ne.mpr hother
        rw [hskip]

/-- Sorting by index leaves what is found at one. -/
theorem lookup_insertionSort (entries : List (Nat × OpenTool)) (index : Nat) :
    (entries.insertionSort fun first second => first.1 ≤ second.1).lookup index = entries.lookup index := by
  induction entries with
  | nil => rfl
  | cons entry rest ih =>
    rw [List.insertionSort_cons, lookup_orderedInsert, List.lookup_cons, List.lookup_cons, ih]

/-- A block of the input beside its block of the output while the flush goes through the open ones. -/
structure Closes (source : ToolSource) (captured : Units → Option Value) (entries : List (Nat × OpenTool))
    (block out : ToolBlock) : Prop where
  index : out.index = block.index
  late : out.late = block.late
  displaced : block.state = .displaced → out.state = .displaced
  idle : out.state = .stopped → entries.lookup block.index = none
  kept : block.state ≠ .displaced → (out.state.ended = true ∧ out.fragments = expectedText source captured block) ∨
      block.state = .reading ∧ out.state = .reading ∧
        ∃ tool, entries.lookup block.index = some tool ∧ Holds tool block out

/-- A block before the flush. -/
theorem Tracks.closes {opened : List (Nat × OpenTool)} {block out : ToolBlock} (h : Tracks source opened block out) :
    Closes source captured opened block out := by
  refine ⟨h.index, h.late, fun hstate => h.state.trans hstate, fun hstopped => h.idle (h.state.symm.trans hstopped),
    fun hkept => ?_⟩
  cases hstate : block.state with
  | reading => exact .inr ⟨rfl, h.state.trans hstate, h.reading hstate⟩
  | stopped | followed =>
    refine .inl ⟨by rw [h.state, hstate]; rfl, (h.ended (by rw [hstate]; rfl)).trans ?_⟩
    simp [expectedText, statedInput, hstate]
  | displaced => exact absurd hstate hkept

/-- What an open block was told and is owed is the text it is written with. -/
theorem Holds.closing {tool : OpenTool} {block out : ToolBlock} (hempty : source.json.parse [] = none)
    (h : Holds tool block out) (hreading : block.state = .reading) :
    out.fragments ++ (if tool.overflowed then none else ToolRewriter.closingInput source tool captured).getD [] =
      expectedText source captured block := by
  cases hover : tool.overflowed with
  | true =>
    have hlong : maxBufferedToolInput < block.fragments.length := by simpa [hover] using h.overflowed
    simp [expectedText, statedInput, hlong, h.streamed hover]
  | false =>
    have hshort : ¬ maxBufferedToolInput < block.fragments.length := by simpa [hover] using h.overflowed
    obtain ⟨hbuffer, hnone⟩ := h.held hover
    simp only [Bool.false_eq_true, if_false, hnone, List.nil_append, ToolRewriter.closingInput, h.id, h.name, hbuffer,
      expectedText, statedInput, hshort, hreading, if_true]
    cases hseen : (captured block.id).bind Value.asRecord with
    | some input => rfl
    | none =>
      simp only [Option.none_or]
      split
      · next hblank =>
        rw [List.isEmpty_iff.mp hblank, JsonText.parseObject, hempty]
        rfl
      · cases source.json.parseObject block.fragments <;> rfl

/-- The events that close a block. -/
theorem readEvents_owed (entry : Nat × OpenTool) {outs : List ToolBlock} (h : Free entry.1 outs) :
    (ToolRewriter.closing source captured entry).foldl readEvent outs =
      outs.map (.change entry.1 fun block => (block.take
        ((if entry.2.overflowed then none else ToolRewriter.closingInput source entry.2 captured).getD [])).close) := by
  unfold ToolRewriter.closing
  cases (if entry.2.overflowed then none else ToolRewriter.closingInput source entry.2 captured) with
  | none =>
    have hblank : (fun block : ToolBlock => (block.take []).close) = ToolBlock.close := by
      funext block
      simp [ToolBlock.take, ToolBlock.close]
    simp only [Option.getD_none, hblank]
    rfl
  | some text => exact readEvents_closing outs entry.1 h text []

/-- The flush closes every block that is open. -/
theorem closes_flush (hempty : source.json.parse [] = none) (entries : List (Nat × OpenTool))
    (hnodup : (entries.map Prod.fst).Nodup) (h : List.Forall₂ (Closes source captured entries) blocks outs) :
    List.Forall₂ (Closes source captured []) blocks
      ((entries.flatMap (ToolRewriter.closing source captured)).foldl readEvent outs) := by
  induction entries generalizing outs with
  | nil => exact h
  | cons entry rest ih =>
    rw [List.map_cons, List.nodup_cons] at hnodup
    have hgone : rest.lookup entry.1 = none := by
      rw [List.lookup_eq_none_iff]
      intro other hother
      simpa using fun hsame : entry.1 = other.1 => hnodup.1 (hsame ▸ List.mem_map_of_mem hother)
    have hfree : Free entry.1 outs := by
      intro out hout hindex hstopped
      obtain ⟨block, hcloses, -⟩ := exists_pair h.flip h.flip out hout
      have hnone := hcloses.idle hstopped
      rw [← hcloses.index, hindex, List.lookup_cons_self] at hnone
      cases hnone
    rw [List.flatMap_cons, List.foldl_append, readEvents_owed entry hfree]
    refine ih hnodup.2 ?_
    rw [List.forall₂_map_right_iff]
    refine ((List.forall₂_and_left _ _).mpr ⟨hfree, h.flip⟩).flip.imp ?_
    rintro block out ⟨hfree, hcloses⟩
    obtain ⟨hindex, hlate, hdisplaced, hidle, hkept⟩ := hcloses
    by_cases hhit : out.index = entry.1
    · cases hout : out.state with
      | stopped => exact absurd hout (hfree hhit)
      | reading =>
        rw [change_reading hhit hout]
        refine ⟨hindex, hlate, fun hlost => ?_, fun _ => hindex ▸ hhit ▸ hgone, fun hlives => .inl ⟨rfl, ?_⟩⟩
        · cases hout.symm.trans (hdisplaced hlost)
        · rcases hkept hlives with ⟨hended, -⟩ | ⟨hreading, -, tool, htool, hholds⟩
          · simp [hout, BlockState.ended] at hended
          · rw [List.lookup_cons, ← hindex, hhit, beq_self_eq_true] at htool
            obtain rfl := Option.some.inj htool
            exact hholds.closing hempty hreading
      | followed | displaced =>
        rw [change_past (by simp [hout])]
        refine ⟨hindex, hlate, hdisplaced, fun hstopped => ?_, fun hlives => .inl ?_⟩
        · cases hout.symm.trans hstopped
        · refine (hkept hlives).resolve_right fun ⟨_, hreading, _⟩ => ?_
          cases hout.symm.trans hreading
    · rw [change_elsewhere hhit]
      have hrest : rest.lookup block.index = (entry :: rest).lookup block.index := by
        have hskip : (block.index == entry.1) = false := beq_eq_false_iff_ne.mpr fun hsame => hhit (hindex.trans hsame)
        rw [List.lookup_cons, hskip]
      refine ⟨hindex, hlate, hdisplaced, fun hstopped => hrest.trans (hidle hstopped), fun hlives => ?_⟩
      refine (hkept hlives).imp_right fun ⟨hreading, hout, tool, htool, hholds⟩ => ⟨hreading, hout, tool, ?_, hholds⟩
      exact hrest.trans htool

/-- Every block of the input that was not displaced is stopped with its text; one that was is not. -/
structure Final (source : ToolSource) (captured : Units → Option Value) (block out : ToolBlock) : Prop where
  late : out.late = block.late
  displaced : block.state = .displaced → out.state = .displaced
  kept : block.state ≠ .displaced → out.state.ended = true ∧ out.fragments = expectedText source captured block

/-- Opening keeps the indices apart. -/
theorem nodup_setOpen {opened : List (Nat × OpenTool)} (h : (opened.map Prod.fst).Nodup) (index : Nat)
    (tool : OpenTool) : ((ToolRewriter.setOpen opened index tool).map Prod.fst).Nodup := by
  unfold ToolRewriter.setOpen
  rw [List.map_append, List.nodup_append]
  refine ⟨h.sublist (List.filter_sublist.map _), List.nodup_singleton _, fun other hother found hfound => ?_⟩
  obtain ⟨entry, hentry, rfl⟩ := List.mem_map.mp hother
  rw [List.mem_singleton.mp hfound]
  simpa using (List.mem_filter.mp hentry).2

/-- An event sets one block, or lets one go, or leaves all as they are. -/
theorem opened_push (rewriter : ToolRewriter) (event : WireEvent) (turn : Option Units) :
    (rewriter.push source event turn).1.opened = rewriter.opened ∨
      (∃ index tool, (rewriter.push source event turn).1.opened = ToolRewriter.setOpen rewriter.opened index tool) ∨
      ∃ index, (rewriter.push source event turn).1.opened =
        rewriter.opened.filter fun entry => entry.1 != index := by
  unfold ToolRewriter.push
  split
  · unfold ToolRewriter.start
    dsimp only
    split
    · exact .inl rfl
    · exact .inr (.inl ⟨_, _, rfl⟩)
  · unfold ToolRewriter.delta
    dsimp only
    split
    · exact .inl rfl
    · split
      · exact .inl rfl
      · split
        · exact .inl rfl
        · split <;> exact .inr (.inl ⟨_, _, rfl⟩)
  · unfold ToolRewriter.stop
    dsimp only
    split
    · exact .inl rfl
    · split
      · exact .inr (.inr ⟨_, rfl⟩)
      · split
        · exact .inr (.inr ⟨_, opened_noteIfEmpty ..⟩)
        · split
          · exact .inr (.inr ⟨_, rfl⟩)
          · exact .inr (.inr ⟨_, opened_noteIfEmpty ..⟩)
  · exact .inl rfl

/-- The open blocks are of different indices. -/
theorem nodup_opened (events : List WireEvent) :
    ((emitFrom (ToolRewriter.emit source) {} events).1.opened.map Prod.fst).Nodup := by
  have hstep (rewriter : ToolRewriter) (event : WireEvent) (h : (rewriter.opened.map Prod.fst).Nodup) :
      ((rewriter.emit source event).1.opened.map Prod.fst).Nodup := by
    show ((rewriter.push source event none).1.opened.map Prod.fst).Nodup
    rcases opened_push rewriter event none with hsame | ⟨index, tool, hset⟩ | ⟨index, hgone⟩
    · rwa [hsame]
    · exact hset ▸ nodup_setOpen h index tool
    · exact hgone ▸ h.sublist (List.filter_sublist.map _)
  rw [emitFrom_fst]
  exact runFrom_invariant _ hstep _ _ List.nodup_nil

/-- What the rewriter leaves of every block. -/
theorem final_rewrite (hempty : source.json.parse [] = none) (captured : Units → Option Value)
    (events : List WireEvent) : List.Forall₂ (Final source captured) (readBlocks events)
      (readBlocks (ToolRewriter.rewrite source events captured).2) := by
  have hpushed : InStep source (emitFrom (ToolRewriter.emit source) {} events).1 (readBlocks events)
      (readBlocks (emitFrom (ToolRewriter.emit source) {} events).2) := InStep.emitAll hempty events .nil
  have hsorted : List.Forall₂ (Closes source captured
      ((emitFrom (ToolRewriter.emit source) {} events).1.opened.insertionSort fun first second => first.1 ≤ second.1))
      (readBlocks events) (readBlocks (emitFrom (ToolRewriter.emit source) {} events).2) := by
    refine hpushed.imp fun block out htracks => ?_
    have hcloses : Closes source captured _ block out := htracks.closes
    obtain ⟨hindex, hlate, hdisplaced, hidle, hkept⟩ := hcloses
    rw [← lookup_insertionSort] at hidle hkept
    exact ⟨hindex, hlate, hdisplaced, hidle, hkept⟩
  have hflushed := closes_flush hempty _
    (((List.perm_insertionSort _ _).map Prod.fst).nodup_iff.mpr (nodup_opened events)) hsorted
  rw [readBlocks, readBlocks, ToolRewriter.rewrite, List.foldl_append]
  refine hflushed.imp fun block out hcloses => ⟨hcloses.late, hcloses.displaced, fun hkept => ?_⟩
  rcases hcloses.kept hkept with hdone | ⟨-, -, tool, htool, -⟩
  · exact hdone
  · simp at htool

end Flush

/-- Tool calls survive rewriting exactly when no block starts at the index of an open tool block, no stop and no
fragment comes at that of a stopped one, and no number that is written again is beyond the range of a double. -/
theorem survives_iff_clean (source : ToolSource) (captured : Units → Option Value) (events : List WireEvent)
    (hempty : source.json.parse [] = none)
    (hjson : ∀ block ∈ readBlocks events, ∀ input, statedInput source captured block = some input →
      source.json.RoundTrips (.object (source.repair block.name input))) :
    Survives source captured events ↔ Clean source captured events := by
  have hfinal := final_rewrite hempty captured events
  constructor
  · rintro ⟨hdelivered, -⟩ block hblock
    obtain ⟨out, hout, hend⟩ := exists_pair hdelivered hfinal block hblock
    have hkept : block.state ≠ .displaced := by
      intro hdisplaced
      have hended := hout.1
      rw [hend.displaced hdisplaced] at hended
      cases hended
    refine ⟨hkept, hend.late.symm.trans hout.2.1, fun input hinput => ?_⟩
    have hstates := hout.2.2
    rw [hinput, Option.elim_some, (hend.kept hkept).2, expectedText, hinput, Option.elim_some] at hstates
    rw [← finite_repair source block.name input]
    exact (hjson block hblock input hinput).mp hstates
  · intro hclean
    refine ⟨?_, rfl⟩
    refine ((List.forall₂_and_left _ _).mpr ⟨fun _ hblock => hblock, hfinal⟩).imp ?_
    rintro block out ⟨hblock, hend⟩
    obtain ⟨hkept, honce, hfinite⟩ := hclean block hblock
    obtain ⟨hstopped, htext⟩ := hend.kept hkept
    refine ⟨hstopped, hend.late.trans honce, ?_⟩
    cases hinput : statedInput source captured block with
    | none =>
      rw [htext, expectedText, hinput]
      rfl
    | some input =>
      rw [Option.elim_some, htext, expectedText, hinput, Option.elim_some]
      refine (hjson block hblock input hinput).mpr ?_
      rw [finite_repair]
      exact hfinite input hinput

section Runs

/-- The start of a call of the tool `read`. -/
def readStart (index : Nat) (id : String) : WireEvent where
  type := .contentBlockStart
  index := some index
  raw := [(asciiUnits "content_block", .object
    [(asciiUnits "type", .string (asciiUnits "tool_use")), (asciiUnits "id", .string (asciiUnits id)),
      (asciiUnits "name", .string (asciiUnits "mcp__client__read"))])]

def blockStop (index : Nat) : WireEvent where
  type := .contentBlockStop
  index := some index

/-- The argument as the model spelled it. -/
def spelledInput : Record := [(asciiUnits "file_path", .string (asciiUnits "x"))]

/-- The argument as the client declared it. -/
def declaredInput : Record := [(asciiUnits "filePath", .string (asciiUnits "x"))]

def spelledText : Units := asciiUnits "\x7b\"file_path\":\"x\"\x7d"

def declaredText : Units := asciiUnits "\x7b\"filePath\":\"x\"\x7d"

/-- The client declares `read` with a `filePath`; these two texts are read and written as JSON has it. -/
def readSource : ToolSource where
  schemas name :=
    if name = asciiUnits "read" then
      some { required := [asciiUnits "filePath"], properties := [asciiUnits "filePath"] }
    else none
  json :=
    { parse := fun text =>
        if text = spelledText then some (.object spelledInput)
        else if text = declaredText then some (.object declaredInput)
        else none
      stringify := fun _ => declaredText }
  fold name := if name = asciiUnits "file_path" ∨ name = asciiUnits "filePath" then asciiUnits "filepath" else name

def renamedCall : List WireEvent := [readStart 0 "a", inputDelta 0 spelledText, blockStop 0]

/-- A call whose argument is renamed survives. -/
theorem survives_renamed_call : Survives readSource (fun _ => none) renamedCall := by
  have hblocks : readBlocks renamedCall =
      [{ index := 0, id := asciiUnits "a", name := asciiUnits "read", fragments := spelledText,
         state := .stopped }] := by
    decide +kernel
  have hrepaired : readSource.repair (asciiUnits "read") spelledInput = declaredInput := rfl
  refine (survives_iff_clean readSource (fun _ => none) renamedCall rfl ?_).mpr ?_
  · intro block hblock input hinput
    rw [hblocks, List.mem_singleton] at hblock
    subst hblock
    obtain rfl : spelledInput = input := Option.some.inj hinput
    rw [hrepaired]
    refine ⟨fun _ => rfl, fun _ => ⟨.object declaredInput, rfl, .object (.refl _) rfl ?_⟩⟩
    exact .cons (.string _) .nil
  · intro block hblock
    rw [hblocks, List.mem_singleton] at hblock
    subst hblock
    refine ⟨by decide, rfl, fun input hinput => ?_⟩
    obtain rfl : spelledInput = input := Option.some.inj hinput
    rfl

/-- A second call starts at the index of the first before the first one stops. -/
def restartedCall : List WireEvent := [readStart 0 "a", inputDelta 0 spelledText, readStart 0 "b", blockStop 0]

/-- The first call reaches the client with neither arguments nor a stop. -/
theorem restarted_call_is_lost : ¬ Survives readSource (fun _ => none) restartedCall := by
  rintro ⟨hdelivered, -⟩
  have hstates : (readBlocks (ToolRewriter.rewrite readSource restartedCall fun _ => none).2).map
      (fun out => (out.state, out.fragments)) = [(.displaced, []), (.stopped, [])] := by
    decide +kernel
  have hlost : (BlockState.displaced, []) ∈ (readBlocks (ToolRewriter.rewrite readSource restartedCall
      fun _ => none).2).map fun out => (out.state, out.fragments) := hstates ▸ List.mem_cons_self ..
  obtain ⟨out, hout, hdisplaced⟩ := List.mem_map.mp hlost
  obtain ⟨block, hstopped, -⟩ := exists_pair hdelivered.flip hdelivered.flip out hout
  have hended := hstopped.1
  rw [show out.state = .displaced from congrArg Prod.fst hdisplaced] at hended
  cases hended

end Runs

end MultiAiRouter.ClaudeSdk.Tools
