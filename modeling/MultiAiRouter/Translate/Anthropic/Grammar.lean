import MultiAiRouter.Translate.Anthropic.Emitter
import MultiAiRouter.Common.Emit

/-!
# The grammar of an Anthropic stream

A client takes a message start, blocks numbered from zero of which one is open at a time, deltas of the open block's
own kind, then the ending after the last block is closed; an error ends the stream as well. The emitter stays within
it if its reader starts the message first and closes nothing after the end.
-/

namespace MultiAiRouter.Translate.Anthropic

open Common

/-- The delta is of the block's kind. -/
def BlockDelta.fits : ContentBlock → BlockDelta → Bool
  | .toolUse .., .inputJson _ => true
  | .text, .text _ => true
  | .thinking, .thinking _ | .thinking, .signature _ => true
  | _, _ => false

/-- What a client knows of the stream it is reading. -/
structure EventReader where
  started : Bool := false
  next : Nat := 0
  opened : Option (Nat × ContentBlock) := none
  ending : Bool := false
  ended : Bool := false
  deriving DecidableEq

/-- The client takes an event, or refuses it. -/
def EventReader.read (reader : EventReader) (event : AnthropicEvent) : Option EventReader :=
  if reader.ended then none
  else
    match event with
    | .messageStart .. => if reader.started then none else some { reader with started := true }
    | .contentBlockStart index block =>
      if reader.started ∧ reader.ending = false ∧ reader.opened = none ∧ index = reader.next then
        some { reader with next := reader.next + 1, opened := some (index, block) }
      else none
    | .contentBlockDelta index delta =>
      if reader.opened.any fun opened => opened.1 == index && delta.fits opened.2 then some reader else none
    | .contentBlockStop index =>
      if reader.opened.any fun opened => opened.1 == index then some { reader with opened := none } else none
    | .messageDelta .. =>
      if reader.started ∧ reader.opened = none ∧ reader.ending = false then some { reader with ending := true }
      else none
    | .messageStop => if reader.ending then some { reader with ended := true } else none
    | .error _ => if reader.ending then none else some { reader with ended := true }

/-- What an open block was opened as. -/
def OpenBlock.OpenedAs (block : OpenBlock) (content : ContentBlock) : Prop :=
  if block.tool.isSome then block.thinking = false ∧ ∃ id name, content = .toolUse id name
  else content = Emitter.fragmentBlock (if block.thinking then .reasoning else .message)

/-- The client stands where the emitter does, and the stream goes on. -/
structure Follows (emitter : Emitter) (reader : EventReader) : Prop where
  started : reader.started = emitter.started
  ending : reader.ending = false
  ended : reader.ended = false
  next : reader.next = emitter.nextBlock
  closed : emitter.current = none → reader.opened = none
  opened : ∀ block, emitter.current = some block → block.index < emitter.nextBlock ∧ emitter.started = true ∧
      ∃ content, reader.opened = some (block.index, content) ∧ block.OpenedAs content
  tools : ∀ entry ∈ emitter.toolBlocks, entry.2 < emitter.nextBlock ∧
    ∀ block, emitter.current = some block → block.index = entry.2 → block.tool.isSome = true

/-- The client takes the events and stands where the emitter ends. -/
def Emits (reader : EventReader) (out : Emitter × List AnthropicEvent) : Prop :=
  ∃ next, readAll EventReader.read reader out.2 = some next ∧ Follows out.1 next

section Blocks

variable {emitter : Emitter} {reader : EventReader}

/-- No event leaves the reader where it is. -/
theorem Emits.none (h : Follows emitter reader) : Emits reader (emitter, []) := ⟨reader, rfl, h⟩

/-- One piece of output after another. -/
theorem Emits.append {first : Emitter × List AnthropicEvent} {last : Emitter} {events : List AnthropicEvent}
    (hfirst : Emits reader first) (hsecond : ∀ next, Follows first.1 next → Emits next (last, events)) :
    Emits reader (last, first.2 ++ events) := by
  obtain ⟨next, hread, hnext⟩ := hfirst
  obtain ⟨final, hfinal, hend⟩ := hsecond next hnext
  exact ⟨final, by rw [readAll_append, hread, Option.bind_some, hfinal], hend⟩

/-- The queue and what names the message are not the client's to see. -/
theorem Follows.hidden (h : Follows emitter reader) (id model : Units) (terminated failed : Bool)
    (pending : PendingStreamBlocks) : Follows { emitter with id, model, terminated, failed, pending } reader :=
  ⟨h.started, h.ending, h.ended, h.next, h.closed, h.opened, h.tools⟩

/-- Closing changes the open block only. -/
theorem closeSigned_fst (emitter : Emitter) (signature : Units) :
    (emitter.closeSigned signature).1 = { emitter with current := none } := by
  unfold Emitter.closeSigned
  split
  · next hcurrent => rw [← hcurrent]
  · rfl

@[simp] theorem closeOpen_fst (emitter : Emitter) : emitter.closeOpen.1 = { emitter with current := none } :=
  closeSigned_fst ..

/-- With no block open the reader still follows. -/
theorem Follows.withoutCurrent (h : Follows emitter reader) :
    Follows { emitter with current := none } { reader with opened := none } :=
  ⟨h.started, h.ending, h.ended, h.next, fun _ => rfl, fun _ hnone => by simp at hnone,
    fun entry hentry => ⟨(h.tools entry hentry).1, fun _ hnone => by simp at hnone⟩⟩

/-- The open block is closed. -/
theorem Follows.closeSigned (h : Follows emitter reader) (signature : Units) :
    Emits reader (emitter.closeSigned signature) := by
  cases hcurrent : emitter.current with
  | none =>
    have hsame : emitter.closeSigned signature = (emitter, []) := by simp [Emitter.closeSigned, hcurrent]
    rw [hsame]
    exact .none h
  | some block =>
    obtain ⟨-, -, content, hopened, has⟩ := h.opened block hcurrent
    refine ⟨{ reader with opened := none }, ?_, closeSigned_fst emitter signature ▸ h.withoutCurrent⟩
    simp only [Emitter.closeSigned, hcurrent]
    cases hthinking : block.thinking with
    | false => simp [EventReader.read, h.ended, hopened]
    | true =>
      have hcontent : content = .thinking := by
        unfold OpenBlock.OpenedAs at has
        split at has
        · simp [hthinking] at has
        · simpa [hthinking, Emitter.fragmentBlock] using has
      simp [EventReader.read, h.ended, hopened, hcontent, BlockDelta.fits]

theorem Follows.closeOpen (h : Follows emitter reader) : Emits reader emitter.closeOpen := h.closeSigned _

/-- A block is opened where none is open. -/
theorem Follows.openBlock (h : Follows emitter reader) (hstarted : emitter.started = true)
    (hcurrent : emitter.current = none) (block : OpenBlock) (content : ContentBlock) (toolBlocks : List (CallKey × Nat))
    (hindex : block.index = emitter.nextBlock) (has : block.OpenedAs content)
    (htools : ∀ entry ∈ toolBlocks, entry ∈ emitter.toolBlocks ∨ entry.2 = emitter.nextBlock ∧
      block.tool.isSome = true) :
    Emits reader ({ emitter with nextBlock := emitter.nextBlock + 1, toolBlocks, current := some block },
      [AnthropicEvent.contentBlockStart block.index content]) := by
  refine ⟨{ reader with next := reader.next + 1, opened := some (block.index, content) }, ?_, ?_⟩
  · simp [EventReader.read, h.ended, h.ending, h.closed hcurrent, h.started, hstarted, h.next, hindex]
  · refine ⟨h.started, h.ending, h.ended, congrArg (· + 1) h.next, fun hnone => by simp at hnone, ?_, ?_⟩
    · intro other hother
      obtain rfl : block = other := Option.some.inj hother
      exact ⟨hindex ▸ Nat.lt_succ_self _, hstarted, content, rfl, has⟩
    · intro entry hentry
      refine ⟨?_, ?_⟩
      · rcases htools entry hentry with hold | ⟨hnew, -⟩
        · exact (h.tools entry hold).1.trans (Nat.lt_succ_self _)
        · exact hnew ▸ Nat.lt_succ_self _
      · intro other hother hsame
        obtain rfl : block = other := Option.some.inj hother
        rcases htools entry hentry with hold | ⟨-, htool⟩
        · exact absurd (hsame.symm.trans hindex) (h.tools entry hold).1.ne
        · exact htool

/-- A call's block is opened after the open one is closed. -/
theorem Follows.openToolBlock (h : Follows emitter reader) (hstarted : emitter.started = true) (key : CallKey)
    (id name : Option Units) : Emits reader (emitter.openToolBlock key id name) := by
  simp only [Emitter.openToolBlock, closeOpen_fst]
  refine h.closeOpen.append fun next hnext => ?_
  rw [closeOpen_fst] at hnext
  refine hnext.openBlock hstarted rfl { index := emitter.nextBlock, tool := some key, thinking := false } _ _ rfl ?_ ?_
  · simp [OpenBlock.OpenedAs]
  · intro entry hentry
    rcases List.mem_append.mp hentry with hentry | hentry
    · exact .inl (List.mem_of_mem_filter hentry)
    · exact .inr ⟨by rw [List.mem_singleton.mp hentry], rfl⟩

/-- A delta of the open block's kind. -/
theorem Follows.delta (h : Follows emitter reader) {block : OpenBlock} (hcurrent : emitter.current = some block)
    {delta : BlockDelta} (hfits : ∀ content, block.OpenedAs content → delta.fits content = true) :
    Emits reader (emitter, [AnthropicEvent.contentBlockDelta block.index delta]) := by
  obtain ⟨-, -, content, hopened, has⟩ := h.opened block hcurrent
  exact ⟨reader, by simp [EventReader.read, h.ended, hopened, hfits content has], h⟩

/-- Arguments fit a tool block. -/
theorem fits_tool {block : OpenBlock} (htool : block.tool.isSome = true) (partialJson : Units)
    (content : ContentBlock) (has : block.OpenedAs content) :
    (BlockDelta.inputJson partialJson).fits content = true := by
  unfold OpenBlock.OpenedAs at has
  rw [if_pos htool] at has
  obtain ⟨-, id, name, rfl⟩ := has
  rfl

/-- A fragment fits a block of its kind. -/
theorem fits_fragment {block : OpenBlock} (htool : block.tool.isNone = true) {kind : FragmentKind}
    (hkind : block.thinking = (kind == .reasoning)) (text : Units) (content : ContentBlock)
    (has : block.OpenedAs content) : (Emitter.fragmentDelta kind text).fits content = true := by
  unfold OpenBlock.OpenedAs at has
  rw [if_neg (by simpa using htool)] at has
  subst has
  cases kind <;> simp [hkind, Emitter.fragmentBlock, Emitter.fragmentDelta, BlockDelta.fits]

/-- Text goes into the open block of its kind or opens one. -/
theorem Follows.emitFragment (h : Follows emitter reader) (hstarted : emitter.started = true) (text : Units)
    (kind : FragmentKind) : Emits reader (emitter.emitFragment text kind) := by
  unfold Emitter.emitFragment
  split
  · exact .none h
  · dsimp only
    split
    · next block hblock =>
      rw [Option.filter_eq_some_iff, Bool.and_eq_true] at hblock
      exact h.delta hblock.1 (fits_fragment hblock.2.1 (by simpa using hblock.2.2) text)
    · simp only [closeOpen_fst]
      refine h.closeOpen.append fun next hnext => ?_
      rw [closeOpen_fst] at hnext
      have hopen := hnext.openBlock hstarted rfl
        { index := emitter.nextBlock, tool := none, thinking := kind == .reasoning } (Emitter.fragmentBlock kind)
        emitter.toolBlocks rfl (by cases kind <;> simp [OpenBlock.OpenedAs]) fun entry hentry => .inl hentry
      exact hopen.append fun last hlast => hlast.delta rfl (fits_fragment rfl rfl text)

end Blocks

section Replay

variable {emitter : Emitter} {reader : EventReader}

/-- A tool block that is opened is the current one. -/
theorem openToolBlock_fst (emitter : Emitter) (key : CallKey) (id name : Option Units) :
    (emitter.openToolBlock key id name).1 =
      { emitter with
        nextBlock := emitter.nextBlock + 1
        toolBlocks := emitter.toolBlocks.filter (fun entry => entry.1 != key) ++ [(key, emitter.nextBlock)]
        current := some { index := emitter.nextBlock, tool := some key, thinking := false } } := by
  simp [Emitter.openToolBlock]

theorem replayCall_fst (emitter : Emitter) (call : PendingCall) :
    (emitter.replayCall call).1 = (emitter.openToolBlock call.key call.id call.name).1 := rfl

/-- Text leaves all but the blocks alone. -/
theorem emitFragment_keeps (emitter : Emitter) (text : Units) (kind : FragmentKind) :
    (emitter.emitFragment text kind).1.started = emitter.started ∧
      (emitter.emitFragment text kind).1.terminated = emitter.terminated ∧
      (emitter.emitFragment text kind).1.pending = emitter.pending ∧
      (emitter.emitFragment text kind).1.failed = emitter.failed ∧
      (emitter.emitFragment text kind).1.toolBlocks = emitter.toolBlocks := by
  unfold Emitter.emitFragment
  split
  · simp
  · dsimp only
    split <;> simp

/-- A call that waited is stated. -/
theorem Follows.replayCall (h : Follows emitter reader) (hstarted : emitter.started = true) (call : PendingCall) :
    Emits reader (emitter.replayCall call) := by
  unfold Emitter.replayCall
  refine (h.openToolBlock hstarted call.key call.id call.name).append fun next hnext => ?_
  split
  · exact .none hnext
  · rw [openToolBlock_fst] at hnext ⊢
    rw [closeOpen_fst]
    exact hnext.delta rfl (fits_tool rfl call.args)

/-- Everything that waited is stated, block by block. -/
theorem Follows.replayAll (h : Follows emitter reader) (hstarted : emitter.started = true)
    (queue : List PendingStreamBlock) : Emits reader (emitter.replayAll queue) := by
  induction queue generalizing emitter reader with
  | nil => exact .none h
  | cons block rest ih =>
    cases block with
    | text text kind startsNewBlock charged =>
      simp only [Emitter.replayAll, closeOpen_fst, List.append_assoc]
      refine (h.emitFragment hstarted text kind).append fun stated hstated => ?_
      refine hstated.closeOpen.append fun closed hclosed => ?_
      rw [closeOpen_fst] at hclosed
      exact ih hclosed ((emitFragment_keeps emitter text kind).1.trans hstarted)
    | call call =>
      simp only [Emitter.replayAll, closeOpen_fst, List.append_assoc]
      refine (h.replayCall hstarted call).append fun stated hstated => ?_
      refine hstated.closeOpen.append fun closed hclosed => ?_
      rw [closeOpen_fst] at hclosed
      refine ih hclosed ?_
      rw [replayCall_fst, openToolBlock_fst]
      exact hstarted

/-- The open block is closed and everything that waited is stated. -/
theorem Follows.closeBlock (h : Follows emitter reader) (hstarted : emitter.started = true) :
    Emits reader emitter.closeBlock := by
  simp only [Emitter.closeBlock, closeOpen_fst]
  refine h.closeOpen.append fun next hnext => ?_
  rw [closeOpen_fst] at hnext
  exact (hnext.hidden _ _ _ _ _).replayAll hstarted _

/-- What waited is stated up to the first call that goes on. -/
theorem Follows.replayUntilLive (h : Follows emitter reader) (hstarted : emitter.started = true)
    (queue : List PendingStreamBlock) : Emits reader (emitter.replayUntilLive queue) := by
  induction queue generalizing emitter reader with
  | nil => exact .none h
  | cons block rest ih =>
    have hshifted : Follows { emitter with pending := emitter.pending.dropFirst } reader := h.hidden ..
    cases block with
    | text text kind startsNewBlock charged =>
      simp only [Emitter.replayUntilLive, List.append_assoc]
      have hclosed : Emits reader
          (if startsNewBlock then { emitter with pending := emitter.pending.dropFirst }.closeOpen
            else ({ emitter with pending := emitter.pending.dropFirst }, [])) := by
        split
        · exact hshifted.closeOpen
        · exact .none hshifted
      have hclosedstarted : (if startsNewBlock then { emitter with pending := emitter.pending.dropFirst }.closeOpen
            else ({ emitter with pending := emitter.pending.dropFirst }, [])).1.started = true := by
        split <;> simpa using hstarted
      refine hclosed.append fun closed hfollows => ?_
      refine (hfollows.emitFragment hclosedstarted text kind).append fun stated hstated => ?_
      exact ih hstated ((emitFragment_keeps _ text kind).1.trans hclosedstarted)
    | call call =>
      have hstated := hshifted.replayCall hstarted call
      simp only [Emitter.replayUntilLive, closeOpen_fst]
      split
      · rw [List.append_assoc]
        refine hstated.append fun stated hfollows => ?_
        refine hfollows.closeOpen.append fun closed hclosed => ?_
        rw [closeOpen_fst] at hclosed
        refine ih hclosed ?_
        rw [replayCall_fst, openToolBlock_fst]
        exact hstarted
      · exact hstated

/-- A replay ends with no block open and leaves the rest of the emitter alone. -/
theorem replayAll_keeps (emitter : Emitter) (queue : List PendingStreamBlock) (hcurrent : emitter.current = none) :
    (emitter.replayAll queue).1.current = none ∧ (emitter.replayAll queue).1.terminated = emitter.terminated ∧
      (emitter.replayAll queue).1.started = emitter.started ∧
      (emitter.replayAll queue).1.pending = emitter.pending ∧
      (emitter.replayAll queue).1.failed = emitter.failed := by
  induction queue generalizing emitter with
  | nil => exact ⟨hcurrent, rfl, rfl, rfl, rfl⟩
  | cons block rest ih =>
    cases block with
    | text text kind startsNewBlock charged =>
      obtain ⟨hstarted, hterminated, hpending, hfailed, -⟩ := emitFragment_keeps emitter text kind
      simp only [Emitter.replayAll, closeOpen_fst]
      obtain ⟨hnone, hterm, hstart, hpend, hfail⟩ :=
        ih { (emitter.emitFragment text kind).1 with current := none } rfl
      exact ⟨hnone, hterm.trans hterminated, hstart.trans hstarted, hpend.trans hpending, hfail.trans hfailed⟩
    | call call =>
      simp only [Emitter.replayAll, closeOpen_fst, replayCall_fst, openToolBlock_fst]
      exact ih _ rfl

/-- Closing a block leaves the rest of the state. -/
theorem closeBlock_keeps (emitter : Emitter) :
    emitter.closeBlock.1.current = none ∧ emitter.closeBlock.1.terminated = emitter.terminated ∧
      emitter.closeBlock.1.started = emitter.started ∧ emitter.closeBlock.1.failed = emitter.failed := by
  simp only [Emitter.closeBlock, closeOpen_fst]
  obtain ⟨hnone, hterminated, hstarted, -, hfailed⟩ := replayAll_keeps
    { emitter with current := none, pending := emitter.pending.drained } emitter.pending.queue rfl
  exact ⟨hnone, hterminated, hstarted, hfailed⟩

/-- What waited does not end the stream. -/
theorem replayUntilLive_keeps (emitter : Emitter) (queue : List PendingStreamBlock) :
    (emitter.replayUntilLive queue).1.terminated = emitter.terminated ∧
      (emitter.replayUntilLive queue).1.started = emitter.started := by
  induction queue generalizing emitter with
  | nil => exact ⟨rfl, rfl⟩
  | cons block rest ih =>
    cases block with
    | text text kind startsNewBlock charged =>
      simp only [Emitter.replayUntilLive]
      obtain ⟨hterm, hstart⟩ := ih
        ((if startsNewBlock then { emitter with pending := emitter.pending.dropFirst }.closeOpen
          else ({ emitter with pending := emitter.pending.dropFirst }, [])).1.emitFragment text kind).1
      refine ⟨hterm.trans ((emitFragment_keeps ..).2.1.trans ?_), hstart.trans ((emitFragment_keeps ..).1.trans ?_)⟩ <;>
        split <;> simp
    | call call =>
      simp only [Emitter.replayUntilLive, closeOpen_fst, replayCall_fst, openToolBlock_fst]
      split
      · exact ih _
      · simp [replayCall_fst, openToolBlock_fst]

end Replay

/-- The reader may make the call: content is stated in a message that has started, and after the end of the
stream the message is neither started nor failed and its blocks are left alone. -/
def Allowed (emitter : Emitter) : EmitterCall → Prop
  | .identify .. | .toolArgs .. | .toolDone _ | .terminate .. => True
  | .start | .closeTextBlock | .fail _ => emitter.terminated = false
  | .text .. | .toolStart .. | .sealReasoning _ => emitter.terminated = true ∨ emitter.started = true
  | .closeBlock => emitter.terminated = false ∧ emitter.started = true

/-- The client stands where the emitter does, or the stream is over on both sides. -/
def InStep (emitter : Emitter) (reader : EventReader) : Prop :=
  emitter.terminated = false ∧ Follows emitter reader ∨ emitter.terminated = true ∧ reader.ended = true

section Calls

variable {emitter : Emitter} {reader : EventReader}

/-- The client takes the events and is in step after them. -/
def StaysInStep (reader : EventReader) (out : Emitter × List AnthropicEvent) : Prop :=
  ∃ next, readAll EventReader.read reader out.2 = some next ∧ InStep out.1 next

theorem Emits.staysInStep {out : Emitter × List AnthropicEvent} (h : Emits reader out)
    (hrunning : out.1.terminated = false) : StaysInStep reader out := by
  obtain ⟨next, hread, hnext⟩ := h
  exact ⟨next, hread, .inl ⟨hrunning, hnext⟩⟩

/-- An error ends the stream. -/
theorem Follows.error (h : Follows emitter reader) {last : Emitter} (hlast : last.terminated = true) (body : Value) :
    StaysInStep reader (last, [AnthropicEvent.error body]) :=
  ⟨{ reader with ended := true }, by simp [EventReader.read, h.ended, h.ending], .inr ⟨hlast, rfl⟩⟩

/-- A fragment waits, or the queue is over its limit. -/
theorem Follows.holdOr (h : Follows emitter reader) (hrunning : emitter.terminated = false)
    (held : Option PendingStreamBlocks) : StaysInStep reader (emitter.holdOr held) := by
  cases held with
  | none => exact h.error rfl _
  | some pending => exact (Emits.none (h.hidden _ _ _ _ pending)).staysInStep hrunning

/-- The message start is emitted once. -/
theorem Follows.start (h : Follows emitter reader) : Emits reader emitter.start := by
  unfold Emitter.start
  split
  · exact .none h
  · next hstarted =>
    have hunstarted : reader.started = false := h.started.trans (by simpa using hstarted)
    refine ⟨{ reader with started := true }, by simp [EventReader.read, h.ended, hunstarted], ?_⟩
    refine ⟨rfl, h.ending, h.ended, h.next, h.closed, ?_, h.tools⟩
    intro block hblock
    obtain ⟨hbelow, -, hcontent⟩ := h.opened block hblock
    exact ⟨hbelow, rfl, hcontent⟩

/-- The start changes nothing else. -/
theorem start_keeps (emitter : Emitter) :
    emitter.start.1.started = true ∧ emitter.start.1.terminated = emitter.terminated ∧
      emitter.start.1.pending = emitter.pending ∧ emitter.start.1.current = emitter.current ∧
      emitter.start.1.toolBlocks = emitter.toolBlocks ∧ emitter.start.1.failed = emitter.failed := by
  unfold Emitter.start
  split
  · next hstarted => exact ⟨hstarted, rfl, rfl, rfl, rfl, rfl⟩
  · exact ⟨rfl, rfl, rfl, rfl, rfl, rfl⟩

/-- The ending, after the last block is closed. -/
theorem Follows.terminate (h : Follows emitter reader) (hrunning : emitter.terminated = false)
    (stopReason : Option AnthropicStopReason) (usage : Record) :
    StaysInStep reader (emitter.terminate stopReason usage) := by
  simp only [Emitter.terminate, hrunning, Bool.false_eq_true, if_false]
  have hmarked : Follows { emitter with terminated := true } reader := h.hidden ..
  obtain ⟨hstarted, hterminated, -⟩ := start_keeps { emitter with terminated := true }
  obtain ⟨first, hfirst, hstart⟩ := hmarked.start
  obtain ⟨second, hsecond, hclose⟩ := hstart.closeBlock hstarted
  obtain ⟨hnone, hdone, hstill, -⟩ := closeBlock_keeps { emitter with terminated := true }.start.1
  refine ⟨{ second with ending := true, ended := true }, ?_, .inr ⟨hdone.trans hterminated, rfl⟩⟩
  rw [readAll_append, readAll_append, hfirst, Option.bind_some, hsecond, Option.bind_some]
  simp [EventReader.read, hclose.ended, hclose.ending, hclose.started, hstill, hstarted, hclose.closed hnone]

/-- A piece of text stays in step. -/
theorem Follows.text (h : Follows emitter reader) (hrunning : emitter.terminated = false)
    (hstarted : emitter.started = true) (text : Units) (startsNewBlock : Bool) (kind : FragmentKind) :
    StaysInStep reader (emitter.text text startsNewBlock kind) := by
  unfold Emitter.text
  split
  · exact (Emits.none h).staysInStep hrunning
  · split
    · exact h.holdOr hrunning _
    · have hclosed : Emits reader (if startsNewBlock then emitter.closeOpen else (emitter, [])) := by
        split
        · exact h.closeOpen
        · exact .none h
      have hkeeps : (if startsNewBlock then emitter.closeOpen else (emitter, [])).1.started = true ∧
          (if startsNewBlock then emitter.closeOpen else (emitter, [])).1.terminated = false := by
        split <;> simp [hstarted, hrunning]
      obtain ⟨-, hterminated, -⟩ := emitFragment_keeps
        (if startsNewBlock then emitter.closeOpen else (emitter, [])).1 text kind
      refine Emits.staysInStep ?_ (hterminated.trans hkeeps.2)
      exact hclosed.append fun next hnext => hnext.emitFragment hkeeps.1 text kind

/-- The start of a call stays in step. -/
theorem Follows.toolStart (h : Follows emitter reader) (hrunning : emitter.terminated = false)
    (hstarted : emitter.started = true) (key : CallKey) (id name : Option Units) :
    StaysInStep reader (emitter.toolStart key id name) := by
  unfold Emitter.toolStart
  rw [if_neg (by simp [hrunning])]
  split
  · exact (Emits.none h).staysInStep hrunning
  · split
    · exact h.holdOr hrunning _
    · refine (h.openToolBlock hstarted key id name).staysInStep ?_
      rw [openToolBlock_fst]
      exact hrunning

/-- Arguments of a call stay in step. -/
theorem Follows.toolArgs (h : Follows emitter reader) (hrunning : emitter.terminated = false) (key : CallKey)
    (partialJson : Units) : StaysInStep reader (emitter.toolArgs key partialJson) := by
  unfold Emitter.toolArgs
  split
  · exact (Emits.none h).staysInStep hrunning
  · split
    · next index hindex =>
      split
      · next hopen =>
        refine Emits.staysInStep ?_ hrunning
        cases hcurrent : emitter.current with
        | none => simp [hcurrent] at hopen
        | some block =>
          obtain rfl : block.index = index := by simpa [hcurrent] using hopen
          have htool := (h.tools _ (mem_of_lookup hindex)).2 block hcurrent rfl
          exact h.delta hcurrent (fits_tool htool partialJson)
      · exact (Emits.none h).staysInStep hrunning
    · exact h.holdOr hrunning _

/-- The end of a call stays in step. -/
theorem Follows.toolDone (h : Follows emitter reader) (hrunning : emitter.terminated = false) (key : CallKey) :
    StaysInStep reader (emitter.toolDone key) := by
  unfold Emitter.toolDone
  rw [if_neg (by simp [hrunning])]
  have hmarked : Follows { emitter with pending := emitter.pending.done key } reader := h.hidden ..
  dsimp only
  split
  · next hopen =>
    have hstarted : emitter.started = true := by
      cases hcurrent : emitter.current with
      | none => simp [hcurrent] at hopen
      | some block => exact (h.opened block hcurrent).2.1
    refine Emits.staysInStep ?_ ?_
    · refine hmarked.closeOpen.append fun next hnext => hnext.replayUntilLive ?_ _
      rw [closeOpen_fst]
      exact hstarted
    · refine (replayUntilLive_keeps ..).1.trans ?_
      rw [closeOpen_fst]
      exact hrunning
  · exact (Emits.none hmarked).staysInStep hrunning

/-- The seal of the reasoning stays in step. -/
theorem Follows.sealReasoning (h : Follows emitter reader) (hrunning : emitter.terminated = false)
    (hstarted : emitter.started = true) (signature : Units) :
    StaysInStep reader (emitter.sealReasoning signature) := by
  unfold Emitter.sealReasoning
  split
  · exact (Emits.none h).staysInStep hrunning
  · split
    · refine (h.closeSigned signature).staysInStep ?_
      rw [closeSigned_fst]
      exact hrunning
    · simp only [closeOpen_fst]
      refine Emits.staysInStep ?_ hrunning
      refine h.closeOpen.append fun next hnext => ?_
      rw [closeOpen_fst] at hnext
      -- a block that is only a signature opens and closes at once
      refine ⟨{ next with next := next.next + 1 }, ?_, ?_⟩
      · simp [EventReader.read, hnext.ended, hnext.ending, hnext.closed rfl, hnext.started, hstarted, hnext.next]
      · refine ⟨hnext.started, hnext.ending, hnext.ended, congrArg (· + 1) hnext.next, hnext.closed, ?_, ?_⟩
        · intro block hblock
          simp at hblock
        · intro entry hentry
          exact ⟨(hnext.tools entry hentry).1.trans (Nat.lt_succ_self _), fun block hblock => by simp at hblock⟩

/-- One call that the reader may make. -/
theorem InStep.call (h : InStep emitter reader) {call : EmitterCall} (hallowed : Allowed emitter call) :
    StaysInStep reader (emitter.call call) := by
  rcases h with ⟨hrunning, hfollows⟩ | ⟨hterminated, hended⟩
  · cases call with
    | identify id model => exact (Emits.none (hfollows.hidden ..)).staysInStep hrunning
    | start => exact hfollows.start.staysInStep ((start_keeps emitter).2.1.trans hrunning)
    | text text startsNewBlock kind =>
      exact hfollows.text hrunning (hallowed.resolve_left (by simp [hrunning])) text startsNewBlock kind
    | toolStart key id name =>
      exact hfollows.toolStart hrunning (hallowed.resolve_left (by simp [hrunning])) key id name
    | toolArgs key partialJson => exact hfollows.toolArgs hrunning key partialJson
    | toolDone key => exact hfollows.toolDone hrunning key
    | closeBlock =>
      exact (hfollows.closeBlock hallowed.2).staysInStep ((closeBlock_keeps emitter).2.1.trans hrunning)
    | closeTextBlock =>
      simp only [Emitter.call, Emitter.closeTextBlock]
      split
      · refine hfollows.closeOpen.staysInStep ?_
        rw [closeOpen_fst]
        exact hrunning
      · exact (Emits.none hfollows).staysInStep hrunning
    | sealReasoning signature =>
      exact hfollows.sealReasoning hrunning (hallowed.resolve_left (by simp [hrunning])) signature
    | terminate stopReason usage => exact hfollows.terminate hrunning stopReason usage
    | fail body => exact hfollows.error rfl body
  · have hquiet : InStep emitter reader := .inr ⟨hterminated, hended⟩
    cases call with
    | identify id model => exact ⟨reader, rfl, .inr ⟨hterminated, hended⟩⟩
    | start => simp [Allowed, hterminated] at hallowed
    | closeBlock => simp [Allowed, hterminated] at hallowed
    | closeTextBlock => simp [Allowed, hterminated] at hallowed
    | fail body => simp [Allowed, hterminated] at hallowed
    | _ =>
      refine ⟨reader, ?_, ?_⟩ <;>
        simp [Emitter.call, Emitter.text, Emitter.toolStart, Emitter.toolArgs, Emitter.toolDone,
          Emitter.sealReasoning, Emitter.terminate, hterminated, hquiet]

end Calls

end MultiAiRouter.Translate.Anthropic
