import MultiAiRouter.Translate.Anthropic.Complete
import MultiAiRouter.Translate.Responses.Emitter

/-!
# How a Responses stream ends

A Responses stream has one terminal event at most, nothing behind it, and its events are numbered from zero without
a gap. The emitter refuses to act once the stream is over, except on text: a chunk whose reasoning and content both
overflow the queue states the error twice.
-/

namespace MultiAiRouter.Translate.Responses

open Common Translate.Sse Translate.Anthropic

section Output

/-- The event ends the stream. -/
def ResponsesPayload.isTerminal : ResponsesPayload → Bool
  | .completed _ | .incomplete _ | .failed _ | .error .. => true
  | _ => false

/-- One terminal event at most, nothing behind it, and the numbers from zero on. -/
structure TerminatedOnce (out : List ResponsesEvent) : Prop where
  one : out.countP (fun event => event.payload.isTerminal) ≤ 1
  last : ∀ before terminal after, out = before ++ terminal :: after → terminal.payload.isTerminal = true → after = []
  numbered : out.map ResponsesEvent.sequenceNumber = List.range out.length

/-- How far an output has come: the number that is next, and whether it ended. -/
structure StreamPhase where
  next : Nat
  ended : Bool
  deriving DecidableEq

/-- Read an event, refusing one behind the end and one out of number. -/
def StreamPhase.read (phase : StreamPhase) (event : ResponsesEvent) : Option StreamPhase :=
  if phase.ended || event.sequenceNumber != phase.next then none
  else some { next := phase.next + 1, ended := event.payload.isTerminal }

variable {out : List ResponsesEvent} {next : Nat}

/-- Behind the terminal event nothing is read. -/
theorem readAll_ended : (readAll StreamPhase.read ⟨next, true⟩ out).isSome = true ↔ out = [] := by
  cases out with
  | nil => simp
  | cons event rest => simp [StreamPhase.read]

/-- An output that is read to its end has the numbers in order, and nothing behind a terminal event. -/
theorem readAll_running : (readAll StreamPhase.read ⟨next, false⟩ out).isSome = true ↔
    (∀ before terminal after, out = before ++ terminal :: after → terminal.payload.isTerminal = true → after = []) ∧
      out.map ResponsesEvent.sequenceNumber = List.range' next out.length := by
  induction out generalizing next with
  | nil => simp
  | cons event rest ih =>
    rw [readAll_cons, List.map_cons, List.length_cons, List.range'_succ, List.cons_eq_cons]
    by_cases hnumber : event.sequenceNumber = next
    · simp only [StreamPhase.read, hnumber, Bool.false_or, bne_self_eq_false, Bool.false_eq_true, if_false,
        Option.bind_some, true_and]
      cases hterminal : event.payload.isTerminal with
      | true =>
        rw [readAll_ended]
        constructor
        · rintro rfl
          refine ⟨fun before terminal after hsplit _ => ?_, rfl⟩
          cases before with
          | nil => exact (List.cons.inj hsplit).2.symm
          | cons _ _ => simp at hsplit
        · exact fun h => h.1 [] event rest rfl hterminal
      | false =>
        rw [ih]
        refine and_congr_left fun _ =>
          ⟨fun h before terminal after hsplit hend => ?_, fun h before terminal after hsplit =>
          h (event :: before) terminal after (by rw [hsplit, List.cons_append])⟩
        cases before with
        | nil => rw [← (List.cons.inj hsplit).1, hterminal] at hend; cases hend
        | cons first before => exact h before terminal after (List.cons.inj hsplit).2 hend
    · have hrefused : StreamPhase.read ⟨next, false⟩ event = none := by simp [StreamPhase.read, hnumber]
      simp [hrefused, hnumber]

/-- Where the terminal event is last there is only one. -/
theorem countP_of_last
    (h : ∀ before terminal after, out = before ++ terminal :: after → terminal.payload.isTerminal = true → after = []) :
    out.countP (fun event => event.payload.isTerminal) ≤ 1 := by
  induction out with
  | nil => simp
  | cons event rest ih =>
    rw [List.countP_cons]
    split
    · next hterminal => simp [h [] event rest rfl hterminal]
    · exact ih fun before terminal after hsplit =>
        h (event :: before) terminal after (by rw [hsplit, List.cons_append])

/-- A stream is read from its start exactly when it terminates once. -/
theorem readAll_start : (readAll StreamPhase.read ⟨0, false⟩ out).isSome = true ↔ TerminatedOnce out := by
  rw [readAll_running, ← List.range_eq_range']
  exact ⟨fun h => ⟨countP_of_last h.1, h.1, h.2⟩, fun h => ⟨h.last, h.numbered⟩⟩

end Output

/-- How far the stream of an emitter has come. -/
def Emitter.phase (emitter : Emitter) : StreamPhase := ⟨emitter.sequence, emitter.terminated⟩

/-- The events are read along from the phase to that of the emitter. -/
def Keeps (result : Emitter × List ResponsesEvent) (phase : StreamPhase) : Prop :=
  readAll StreamPhase.read phase result.2 = some result.1.phase

/-- The events end nothing and are numbered in order, even where the emitter takes the stream to be over. -/
structure Quiet (result : Emitter × List ResponsesEvent) (phase : StreamPhase) : Prop where
  ended : result.1.terminated = phase.ended
  read : readAll StreamPhase.read ⟨phase.next, false⟩ result.2 = some ⟨result.1.sequence, false⟩

section Quiet

variable {emitter : Emitter} {phase : StreamPhase} {first : Emitter × List ResponsesEvent}
  {next : Emitter → Emitter × List ResponsesEvent}

/-- No event keeps the phase. -/
theorem Keeps.nil : Keeps (emitter, []) emitter.phase := rfl

/-- One after the other. -/
theorem Keeps.then (hfirst : Keeps first phase) (hnext : Keeps (next first.1) first.1.phase) :
    Keeps (emitThen first next) phase := by
  unfold Keeps emitThen
  rw [readAll_append, hfirst, Option.bind_some]
  exact hnext

/-- No event is quiet. -/
theorem Quiet.nil : Quiet (emitter, []) emitter.phase := ⟨rfl, rfl⟩

/-- One after the other. -/
theorem Quiet.then (hfirst : Quiet first phase) (hnext : Quiet (next first.1) first.1.phase) :
    Quiet (emitThen first next) phase := by
  refine ⟨hnext.ended.trans hfirst.ended, ?_⟩
  unfold emitThen
  rw [readAll_append, hfirst.read, Option.bind_some]
  exact hnext.read

/-- Quiet events of a stream that goes on are read along. -/
theorem Quiet.keeps {result : Emitter × List ResponsesEvent} (h : Quiet result emitter.phase)
    (hrunning : emitter.terminated = false) : Keeps result emitter.phase := by
  have hended : result.1.terminated = false := h.ended.trans hrunning
  unfold Keeps Emitter.phase
  rw [hrunning, hended]
  exact h.read

/-- An event that is not terminal is quiet. -/
theorem quiet_event {payload : ResponsesPayload} (h : payload.isTerminal = false) :
    Quiet (emitter.event payload) emitter.phase := by
  refine ⟨rfl, ?_⟩
  simp [Emitter.event, Emitter.phase, StreamPhase.read, h]

/-- So are several. -/
theorem quiet_events {payloads : List ResponsesPayload} (h : ∀ payload ∈ payloads, payload.isTerminal = false) :
    Quiet (emitter.events payloads) emitter.phase := by
  induction payloads generalizing emitter with
  | nil => exact .nil
  | cons payload rest ih =>
    exact (quiet_event (h payload (.head _))).then (ih fun other hmem => h other (.tail _ hmem))

/-- The events that close an item are not terminal. -/
theorem responsesDoneEvents_quiet (item : ResponsesOutputItem) (outputIndex : Nat) :
    ∀ payload ∈ responsesDoneEvents item outputIndex, payload.isTerminal = false := by
  cases item <;> simp [responsesDoneEvents, ResponsesPayload.isTerminal]

/-- Closing the open item is quiet. -/
theorem quiet_closeOpen : Quiet emitter.closeOpen emitter.phase := by
  unfold Emitter.closeOpen
  cases emitter.current with
  | none => exact .nil
  | some draft => exact (quiet_events (responsesDoneEvents_quiet _ _)).then (quiet_event rfl)

/-- So is opening a call. -/
theorem quiet_openCall (key : CallKey) (id name : Option Units) :
    Quiet (emitter.openCall key id name) emitter.phase :=
  quiet_closeOpen.then (quiet_event rfl)

/-- So are its arguments. -/
theorem quiet_callArgs (draft : ResponsesItemDraft) (partialJson : Units) :
    Quiet (emitter.callArgs draft partialJson) emitter.phase := quiet_event rfl

/-- So is text that goes on. -/
theorem quiet_appendText (draft : ResponsesItemDraft) (kind : FragmentKind) (delta : Units) :
    Quiet (emitter.appendText draft kind delta) emitter.phase := quiet_event rfl

/-- So is text that begins. -/
theorem quiet_openText (kind : FragmentKind) (delta : Units) : Quiet (emitter.openText kind delta) emitter.phase :=
  quiet_closeOpen.then (Quiet.then (quiet_event rfl) ((quiet_event rfl).then (quiet_appendText _ _ _)))

/-- Text is quiet unless it has to wait. -/
theorem quiet_streamText (hopen : emitter.callOpen = false) (kind : FragmentKind) (delta : Units) :
    Quiet (emitter.streamText kind delta) emitter.phase := by
  unfold Emitter.streamText
  split
  · exact .nil
  · rw [hopen, if_neg Bool.false_ne_true]
    split
    · exact quiet_appendText _ _ _
    · exact quiet_openText _ _

/-- Stating events opens and closes nothing. -/
theorem events_current (payloads : List ResponsesPayload) :
    (emitter.events payloads).1.current = emitter.current := by
  induction payloads generalizing emitter with
  | nil => rfl
  | cons payload rest ih => exact @ih (emitter.event payload).1

/-- Closed, no item is open. -/
theorem closeOpen_current : emitter.closeOpen.1.current = none := by
  unfold Emitter.closeOpen
  cases hcurrent : emitter.current with
  | none => exact hcurrent
  | some draft => exact events_current _

/-- Replaying a call is quiet. -/
theorem quiet_replayCall (call : PendingCall) : Quiet (emitter.replayCall call) emitter.phase := by
  refine (quiet_openCall _ _ _).then ?_
  split
  · split
    · exact .nil
    · exact quiet_callArgs _ _
  · exact .nil

/-- A block that waited is replayed where no item is open, and leaves none open. -/
theorem quiet_replay (hnone : emitter.current = none) (block : PendingStreamBlock) :
    Quiet (emitter.replay block) emitter.phase ∧ (emitter.replay block).1.current = none := by
  cases block with
  | text text kind startsNewBlock charged =>
    have hopen : emitter.callOpen = false := by simp [Emitter.callOpen, hnone]
    exact ⟨(quiet_streamText hopen kind text).then quiet_closeOpen, closeOpen_current⟩
  | call call => exact ⟨(quiet_replayCall call).then quiet_closeOpen, closeOpen_current⟩

/-- So is replaying the queue, and it leaves nothing open. -/
theorem quiet_replayAll (hnone : emitter.current = none) (queue : List PendingStreamBlock) :
    Quiet (emitFrom Emitter.replay emitter queue) emitter.phase ∧
      (emitFrom Emitter.replay emitter queue).1.current = none := by
  induction queue generalizing emitter with
  | nil => exact ⟨.nil, hnone⟩
  | cons block rest ih =>
    obtain ⟨hquiet, hcurrent⟩ := quiet_replay hnone block
    obtain ⟨hrest, hlast⟩ := ih hcurrent
    exact ⟨@Quiet.then _ _ (fun replayed => emitFrom Emitter.replay replayed rest) hquiet hrest, hlast⟩

/-- So is closing with what waits. -/
theorem quiet_closeItem : Quiet emitter.closeItem emitter.phase ∧ emitter.closeItem.1.current = none := by
  have hnone : { emitter.closeOpen.1 with pending := emitter.closeOpen.1.pending.drained }.current = none :=
    closeOpen_current
  obtain ⟨hquiet, hcurrent⟩ := quiet_replayAll hnone emitter.closeOpen.1.pending.queue
  exact ⟨quiet_closeOpen.then hquiet, hcurrent⟩

/-- So is the start. -/
theorem quiet_start : Quiet emitter.start emitter.phase := by
  unfold Emitter.start
  split
  · exact .nil
  · refine quiet_events fun payload hmem => ?_
    rcases List.mem_pair.mp hmem with rfl | rfl <;> rfl

end Quiet

section Calls

variable {emitter : Emitter}

/-- Text that has to wait and does not fit the queue. -/
def Emitter.refusesText (emitter : Emitter) (kind : FragmentKind) (delta : Units) : Bool :=
  !delta.isEmpty && emitter.callOpen && (emitter.pending.text delta kind false).isNone

/-- What waits, or ends the stream, keeps the phase. -/
theorem keeps_holdOr (hrunning : emitter.terminated = false) (held : Option PendingStreamBlocks) :
    Keeps (emitter.holdOr held) emitter.phase := by
  cases held with
  | some pending => rfl
  | none =>
    simp [Keeps, Emitter.holdOr, Emitter.overflow, Emitter.event, Emitter.phase, StreamPhase.read, hrunning,
      ResponsesPayload.isTerminal]

/-- Behind an open call, text goes to the queue or ends the stream. -/
theorem streamText_callOpen (hopen : emitter.callOpen = true) (kind : FragmentKind) (delta : Units) :
    emitter.streamText kind delta =
      if emitter.refusesText kind delta then emitter.overflow
      else if delta.isEmpty then (emitter, [])
      else ({ emitter with pending := (emitter.pending.text delta kind false).getD emitter.pending }, []) := by
  unfold Emitter.streamText Emitter.refusesText
  rw [hopen]
  cases delta.isEmpty with
  | true => rfl
  | false => cases emitter.pending.text delta kind false <;> rfl

/-- Text leaves an open call open. -/
theorem callOpen_streamText (kind : FragmentKind) (delta : Units) :
    (emitter.streamText kind delta).1.callOpen = emitter.callOpen := by
  cases hopen : emitter.callOpen with
  | true =>
    rw [streamText_callOpen hopen]
    split_ifs <;> exact hopen
  | false =>
    unfold Emitter.streamText
    split
    · exact hopen
    · rw [hopen, if_neg Bool.false_ne_true]
      split
      · next draft hdraft =>
        obtain ⟨-, hkind⟩ := Option.filter_eq_some_iff.mp hdraft
        simp [Emitter.appendText, Emitter.event, Emitter.callOpen, eq_of_beq hkind]
      · rfl

/-- A piece of a call keeps the phase. -/
theorem keeps_toolCall (keyed : CallKey × ToolCallDelta) :
    Keeps (ChatReader.toolCall emitter keyed) emitter.phase := by
  have hstart : Keeps (emitter.toolStart keyed.1 keyed.2.id keyed.2.name) emitter.phase := by
    unfold Emitter.toolStart
    split
    · exact .nil
    · next hrunning =>
      rw [Bool.not_eq_true] at hrunning
      split
      · exact .nil
      · split
        · exact keeps_holdOr hrunning _
        · exact (quiet_openCall _ _ _).keeps hrunning
  refine hstart.then ?_
  unfold Emitter.toolArgs
  split
  · exact .nil
  · next hrunning =>
    rw [Bool.or_eq_true, not_or, Bool.not_eq_true] at hrunning
    split
    · exact (quiet_callArgs _ _).keeps hrunning.1
    · exact keeps_holdOr hrunning.1 _

/-- So do several. -/
theorem keeps_toolCalls (keyed : List (CallKey × ToolCallDelta)) :
    Keeps (emitFrom ChatReader.toolCall emitter keyed) emitter.phase := by
  induction keyed generalizing emitter with
  | nil => exact .nil
  | cons entry rest ih =>
    exact @Keeps.then _ _ (fun called => emitFrom ChatReader.toolCall called rest) (keeps_toolCall entry) ih

/-- So does the completion. -/
theorem keeps_complete (ending : ResponsesStreamEnd) : Keeps (emitter.complete ending) emitter.phase := by
  unfold Emitter.complete
  split
  · exact .nil
  · next hrunning =>
    rw [Bool.not_eq_true] at hrunning
    have hclosed : Quiet (emitThen { emitter with terminated := true }.start Emitter.closeItem)
        ⟨emitter.sequence, true⟩ := Quiet.then quiet_start quiet_closeItem.1
    have hread := hclosed.read
    have hended := hclosed.ended
    unfold Keeps Emitter.phase
    simp only [emitThen] at hread hended ⊢
    rw [← List.append_assoc, readAll_append, hrunning, hread, Option.bind_some]
    split <;> simp [Emitter.event, StreamPhase.read, ResponsesPayload.isTerminal, hended]

end Calls

section Push

variable {Usage : Type} {source : ChatSource Usage} {emitter : Emitter} {reader : ChatReader Usage}

/-- Text that fits ends nothing. -/
theorem terminated_streamText (hrunning : emitter.terminated = false) {kind : FragmentKind} {delta : Units}
    (hfits : emitter.refusesText kind delta = false) : (emitter.streamText kind delta).1.terminated = false := by
  cases hopen : emitter.callOpen with
  | false => exact (quiet_streamText hopen kind delta).ended.trans hrunning
  | true =>
    rw [streamText_callOpen hopen, hfits, if_neg Bool.false_ne_true]
    split <;> exact hrunning

/-- Text keeps the phase. -/
theorem keeps_streamText (hrunning : emitter.terminated = false) (kind : FragmentKind) (delta : Units) :
    Keeps (emitter.streamText kind delta) emitter.phase := by
  cases hopen : emitter.callOpen with
  | false => exact (quiet_streamText hopen kind delta).keeps hrunning
  | true =>
    rw [streamText_callOpen hopen]
    split_ifs
    · exact keeps_holdOr hrunning none
    · rfl
    · rfl

/-- Reasoning and then text are read along, unless both overflow the queue. -/
theorem read_texts (hrunning : emitter.terminated = false) (reasoning content : Units) :
    readAll StreamPhase.read emitter.phase
        (emitThen (emitter.streamText .reasoning reasoning) fun reasoned => reasoned.streamText .message content).2 =
      if emitter.refusesText .reasoning reasoning && emitter.refusesText .message content then none
      else some
        (emitThen (emitter.streamText .reasoning reasoning) fun reasoned =>
          reasoned.streamText .message content).1.phase := by
  have hreasoning := keeps_streamText hrunning .reasoning reasoning
  cases hfits : emitter.refusesText .reasoning reasoning with
  | false =>
    rw [Bool.false_and, if_neg Bool.false_ne_true]
    exact hreasoning.then (keeps_streamText (terminated_streamText hrunning hfits) .message content)
  | true =>
    -- The first overflow ends the stream and leaves the queue as it was.
    have hopen : emitter.callOpen = true := by
      simp only [Emitter.refusesText, Bool.and_eq_true] at hfits
      exact hfits.1.2
    rw [streamText_callOpen hopen, hfits, if_pos rfl] at hreasoning ⊢
    have hended : emitter.overflow.1.callOpen = true := hopen
    have hsame : emitter.overflow.1.refusesText .message content = emitter.refusesText .message content := rfl
    rw [Bool.true_and, emitThen, readAll_append, hreasoning, Option.bind_some, streamText_callOpen hended, hsame]
    cases emitter.refusesText .message content with
    | true => rfl
    | false =>
      rw [if_neg Bool.false_ne_true, if_neg Bool.false_ne_true]
      split <;> rfl

/-- What follows the text of a choice is read along. -/
theorem keeps_calls {said : Emitter} (keyed : List (CallKey × ToolCallDelta)) {closes : Bool}
    (hcloses : closes = true → keyed = [] ∧ said.terminated = false) :
    Keeps (emitThen (emitFrom ChatReader.toolCall said keyed) fun called =>
      if closes = true then called.closeItem else (called, [])) said.phase := by
  cases closes with
  | false => exact (keeps_toolCalls keyed).then rfl
  | true =>
    obtain ⟨rfl, hrunning⟩ := hcloses rfl
    exact quiet_closeItem.1.keeps hrunning

/-- The start leaves the open call and the queue alone. -/
theorem start_same : emitter.start.1.callOpen = emitter.callOpen ∧ emitter.start.1.pending = emitter.pending := by
  unfold Emitter.start
  split <;> exact ⟨rfl, rfl⟩

/-- A choice is read along unless its reasoning and its content both overflow the queue. -/
theorem read_choice (hrunning : emitter.terminated = false) (choice : ChatChoice)
    (keyed : List (CallKey × ToolCallDelta)) {hasToolCalls : Bool}
    (hopen : emitter.callOpen = true → hasToolCalls = true) (hkeyed : hasToolCalls = false → keyed = []) :
    readAll StreamPhase.read emitter.phase (ChatReader.choiceEvents emitter choice keyed hasToolCalls).2 =
      if emitter.refusesText .reasoning choice.reasoning && emitter.refusesText .message choice.content then none
      else some (ChatReader.choiceEvents emitter choice keyed hasToolCalls).1.phase := by
  have hstarted : emitter.start.1.terminated = false := quiet_start.ended.trans hrunning
  have hrefuses : ∀ kind delta, emitter.start.1.refusesText kind delta = emitter.refusesText kind delta := by
    intro kind delta
    rw [Emitter.refusesText, Emitter.refusesText, start_same.1, start_same.2]
  have hstart : Keeps emitter.start emitter.phase := quiet_start.keeps hrunning
  have htexts := read_texts hstarted choice.reasoning choice.content
  have hstill : hasToolCalls = false → (emitThen (emitter.start.1.streamText .reasoning choice.reasoning)
      fun reasoned => reasoned.streamText .message choice.content).1.terminated = false := by
    intro hnone
    have hclosed : emitter.start.1.callOpen = false :=
      start_same.1.trans (Bool.eq_false_iff.mpr fun h => absurd (hopen h) (by simp [hnone]))
    have hreasoned := (callOpen_streamText .reasoning choice.reasoning).trans hclosed
    exact (quiet_streamText hreasoned .message choice.content).ended.trans
      ((quiet_streamText hclosed .reasoning choice.reasoning).ended.trans hstarted)
  have hassoc : ChatReader.choiceEvents emitter choice keyed hasToolCalls = emitThen emitter.start fun started =>
      emitThen (emitThen (started.streamText .reasoning choice.reasoning) fun reasoned =>
        reasoned.streamText .message choice.content) fun said =>
          emitThen (emitFrom ChatReader.toolCall said keyed) fun called =>
            if (choice.finishReason.isSome && !hasToolCalls) = true then called.closeItem else (called, []) := by
    simp only [ChatReader.choiceEvents, emitThen_assoc]
  rw [hrefuses, hrefuses] at htexts
  rw [hassoc, emitThen, readAll_append, hstart, Option.bind_some]
  dsimp only
  rw [emitThen, readAll_append, htexts]
  cases emitter.refusesText .reasoning choice.reasoning && emitter.refusesText .message choice.content with
  | true => rfl
  | false =>
    rw [if_neg Bool.false_ne_true, if_neg Bool.false_ne_true, Option.bind_some]
    refine keeps_calls keyed fun hcloses => ?_
    rw [Bool.and_eq_true, Bool.not_eq_true'] at hcloses
    exact ⟨hkeyed hcloses.2, hstill hcloses.2⟩

/-- A call is open only where one was seen. -/
def CallsSeen (reader : ChatReader Usage) : Prop := reader.emitter.callOpen = true → reader.hasToolCalls = true

/-- A choice opens a call only where calls were seen. -/
theorem callOpen_choice (choice : ChatChoice) (keyed : List (CallKey × ToolCallDelta)) {hasToolCalls : Bool}
    (hopen : emitter.callOpen = true → hasToolCalls = true) (hkeyed : hasToolCalls = false → keyed = [])
    (hcall : (ChatReader.choiceEvents emitter choice keyed hasToolCalls).1.callOpen = true) :
    hasToolCalls = true := by
  by_contra hnone
  rw [Bool.not_eq_true] at hnone
  have hclosed : emitter.callOpen = false := Bool.eq_false_iff.mpr fun h => absurd (hopen h) (by simp [hnone])
  rw [hkeyed hnone] at hcall
  simp only [ChatReader.choiceEvents, emitThen, emitFrom_nil] at hcall
  split at hcall
  · simp [Emitter.callOpen, quiet_closeItem.2] at hcall
  · rw [callOpen_streamText, callOpen_streamText, start_same.1, hclosed] at hcall
    cases hcall

/-- Completed, no call is open. -/
theorem callOpen_complete (ending : ResponsesStreamEnd) (hrunning : emitter.terminated = false) :
    (emitter.complete ending).1.callOpen = false := by
  have hnone : ∀ started : Emitter, started.closeItem.1.callOpen = false := by
    intro started
    simp [Emitter.callOpen, quiet_closeItem.2]
  unfold Emitter.complete
  rw [hrunning, if_neg Bool.false_ne_true]
  unfold emitThen
  dsimp only
  split <;> exact hnone _

/-- The calls that were seen stay seen. -/
theorem callsSeen_push (frame : SseFrame) (h : CallsSeen reader) : CallsSeen (reader.push source frame).1 := by
  unfold ChatReader.push
  split
  · exact h
  · next hrunning =>
    rw [Bool.not_eq_true] at hrunning
    cases readChatFrame source.parseJson frame with
    | done =>
      intro hopen
      have hshut : (reader.terminate source).1.emitter.callOpen = false := callOpen_complete _ hrunning
      rw [hshut] at hopen
      cases hopen
    | failed payload => exact h
    | unreadable => exact h
    | chunk chunk =>
      unfold ChatReader.pushChunk
      dsimp only
      cases chunk.choice with
      | none => exact h
      | some choice =>
        refine callOpen_choice choice _ ?_ ?_
        · intro hopen
          rw [h hopen, Bool.true_or]
        · intro hnone
          rw [Bool.or_eq_false_iff, Bool.not_eq_false', List.isEmpty_iff] at hnone
          exact (Anthropic.ChatReader.keys_nil_iff ..).mpr hnone.2

/-- A frame of a stream that goes on, whose reasoning and whose content both overflow the queue. -/
def ChatReader.overflowsTwice (source : ChatSource Usage) (reader : ChatReader Usage) (frame : SseFrame) : Bool :=
  !reader.emitter.terminated && (readChatFrame source.parseJson frame).choice.any fun choice =>
    reader.emitter.refusesText .reasoning choice.reasoning && reader.emitter.refusesText .message choice.content

/-- What a push emits is read along exactly when the frame does not overflow the queue twice. -/
theorem read_push (frame : SseFrame) (hseen : CallsSeen reader) :
    readAll StreamPhase.read reader.emitter.phase (reader.push source frame).2 =
      if reader.overflowsTwice source frame then none else some (reader.push source frame).1.emitter.phase := by
  unfold ChatReader.overflowsTwice ChatReader.push
  cases hrunning : reader.emitter.terminated with
  | true => rfl
  | false =>
    rw [if_neg Bool.false_ne_true, Bool.not_false, Bool.true_and]
    cases readChatFrame source.parseJson frame with
    | done => exact keeps_complete _
    | failed payload =>
      simp [ChatFrame.choice, Emitter.fail, Emitter.event, Emitter.phase, StreamPhase.read, hrunning,
        ResponsesPayload.isTerminal]
    | unreadable => rfl
    | chunk chunk =>
      obtain ⟨id, model, usage, choice⟩ := chunk
      cases choice with
      | none => rfl
      | some choice =>
        have hread := @read_choice (reader.emitter.identify id model) hrunning choice
          (reader.toolCalls.keys choice.toolCalls).2 (reader.hasToolCalls || !choice.toolCalls.isEmpty)
          (fun hopen => by rw [hseen hopen, Bool.true_or])
          (fun hnone => by
            rw [Bool.or_eq_false_iff, Bool.not_eq_false', List.isEmpty_iff] at hnone
            exact (Anthropic.ChatReader.keys_nil_iff ..).mpr hnone.2)
        exact hread

/-- The flush keeps the phase. -/
theorem keeps_flush : readAll StreamPhase.read reader.emitter.phase (reader.flush source).2 =
    some (reader.flush source).1.emitter.phase := by
  unfold ChatReader.flush
  split
  · rfl
  · exact keeps_complete _

end Push

/-- A translated stream has one terminal event at most, nothing behind it and no gap in its numbers, exactly
when no chunk overflows the queue twice. -/
theorem responses_stream_terminated_once_iff {Usage : Type} (source : ChatSource Usage) (id model : Units)
    (created : Int) (limit : Nat) (frames : List SseFrame) :
    TerminatedOnce (ChatReader.events source id model created limit frames) ↔
      EveryStep (fun reader frame => (ChatReader.push source reader frame).1)
        (fun reader frame => reader.overflowsTwice source frame = false)
        (ChatReader.begin id model created limit) frames := by
  have hruns := emitFrom_accepts_iff (fun reader : ChatReader Usage => reader.emitter.phase)
    (fun reader frame (hseen : CallsSeen reader) => callsSeen_push frame hseen)
    (fun reader frame hseen (honce : reader.overflowsTwice source frame = false) => by
      rw [read_push frame hseen, honce, if_neg Bool.false_ne_true])
    (fun reader frame hseen hnot => by
      rw [read_push frame hseen, if_pos (by simpa using hnot)])
    frames (ChatReader.begin id model created limit) (fun hopen => by cases hopen)
  have hphase : (ChatReader.begin id model created limit : ChatReader Usage).emitter.phase = ⟨0, false⟩ := rfl
  rw [← readAll_start]
  unfold ChatReader.events emitThen
  rw [readAll_append]
  rw [hphase] at hruns
  rcases hruns with ⟨hread, hevery⟩ | ⟨hread, hevery⟩
  · refine iff_of_true ?_ hevery
    rw [hread, Option.bind_some, keeps_flush]
    rfl
  · refine iff_of_false ?_ hevery
    rw [hread]
    exact Bool.false_ne_true

/-- A chunk that opens a call. -/
def openCallData : Units :=
  asciiUnits "\x7b\"choices\":[\x7b\"delta\":\x7b\"tool_calls\":[\x7b\"index\":0\x7d]\x7d\x7d]\x7d"

/-- A thousand letters. -/
def longText : Units := List.replicate 1000 97

/-- A chunk of long reasoning and long content. -/
def longData : Units :=
  asciiUnits "\x7b\"choices\":[\x7b\"delta\":\x7b\"reasoning\":\"" ++ longText ++
  asciiUnits "\",\"content\":\"" ++ longText ++
    asciiUnits "\"\x7d\x7d]\x7d"

/-- How these two payloads are read. -/
def overflowSource : ChatSource Unit where
  parseJson data :=
    if data = openCallData then
      some (.object [(asciiUnits "choices", .array [.object [(asciiUnits "delta", .object [(asciiUnits "tool_calls",
        .array [.object [(asciiUnits "index", .number (.finite 0))]])])]])])
    else if data = longData then
      some (.object [(asciiUnits "choices", .array [.object [(asciiUnits "delta", .object
        [(asciiUnits "reasoning", .string longText), (asciiUnits "content", .string longText)])]])])
    else none
  parseUsage _ := none
  responsesUsage _ := none
  errorDetail _ := { code := none, message := [] }

/-- Behind an open call, long reasoning and long content in one chunk end the stream twice. -/
theorem responses_stream_terminated_twice : ¬ TerminatedOnce (ChatReader.events overflowSource [] [] 0 1024
      [{ event := none, data := openCallData }, { event := none, data := longData }]) := by
  intro h
  exact absurd h.one (by decide +kernel)

end MultiAiRouter.Translate.Responses
