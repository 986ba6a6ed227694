import MultiAiRouter.Translate.Anthropic.Grammar
import MultiAiRouter.Translate.Anthropic.ResponsesStream

/-!
# Both readers stay within the grammar

Both readers start the message before they state anything, and after the end of a stream they ask for nothing that
is not guarded.
-/

namespace MultiAiRouter.Translate.Anthropic

open Common Translate.Sse

/-- The events are those of one Anthropic stream, up to where it was cut. -/
def WellFormed (events : List AnthropicEvent) : Prop :=
  ∃ reader : EventReader, readAll EventReader.read {} events = some reader ∧
    (reader.ending = true → reader.ended = true)

section Calls

variable {emitter : Emitter} {reader : EventReader}

/-- A client in step takes what allowed calls emit. -/
theorem InStep.calls (h : InStep emitter reader) (calls : List EmitterCall)
    (hallowed : EveryStep (fun emitter call => (Emitter.call emitter call).1) Allowed emitter calls) :
    StaysInStep reader (emitFrom Emitter.call emitter calls) :=
  emitFrom_read InStep (fun _ _ _ hstep hcondition => hstep.call hcondition) calls emitter reader h hallowed

/-- A reader in step has read a well-formed stream. -/
theorem InStep.wellFormed {events : List AnthropicEvent} (hread : readAll EventReader.read {} events = some reader)
    (h : InStep emitter reader) : WellFormed events := by
  refine ⟨reader, hread, fun hending => ?_⟩
  rcases h with ⟨-, hfollows⟩ | ⟨-, hended⟩
  · rw [hfollows.ending] at hending
    cases hending
  · exact hended

/-- A fragment that waits leaves the message started. -/
theorem holdOr_started (emitter : Emitter) (held : Option PendingStreamBlocks) :
    (emitter.holdOr held).1.started = emitter.started := by
  cases held <;> rfl

/-- A message that has started stays started. -/
theorem call_started (hstarted : emitter.started = true) (call : EmitterCall) :
    (emitter.call call).1.started = true := by
  cases call with
  | identify id model => exact hstarted
  | start => exact (start_keeps emitter).1
  | text text startsNewBlock kind =>
    simp only [Emitter.call, Emitter.text]
    split
    · exact hstarted
    · split
      · exact (holdOr_started ..).trans hstarted
      · refine (emitFragment_keeps ..).1.trans ?_
        split <;> simpa using hstarted
  | toolStart key id name =>
    simp only [Emitter.call, Emitter.toolStart]
    split_ifs
    · exact hstarted
    · exact hstarted
    · exact (holdOr_started ..).trans hstarted
    · simpa [openToolBlock_fst] using hstarted
  | toolArgs key partialJson =>
    simp only [Emitter.call, Emitter.toolArgs]
    split
    · exact hstarted
    · split
      · split <;> exact hstarted
      · exact (holdOr_started ..).trans hstarted
  | toolDone key =>
    simp only [Emitter.call, Emitter.toolDone]
    split
    · exact hstarted
    · split
      · refine (replayUntilLive_keeps ..).2.trans ?_
        simpa using hstarted
      · exact hstarted
  | closeBlock => exact (closeBlock_keeps emitter).2.2.1.trans hstarted
  | closeTextBlock =>
    simp only [Emitter.call, Emitter.closeTextBlock]
    split <;> simpa using hstarted
  | sealReasoning signature =>
    simp only [Emitter.call, Emitter.sealReasoning]
    split
    · exact hstarted
    · split
      · rw [closeSigned_fst]
        exact hstarted
      · simpa using hstarted
  | terminate stopReason usage =>
    simp only [Emitter.call, Emitter.terminate]
    split
    · exact hstarted
    · exact (closeBlock_keeps _).2.2.1.trans (start_keeps _).1
  | fail body => exact hstarted

/-- Content may be stated in a message that has started. -/
theorem everyStep_content (hstarted : emitter.started = true) (calls : List EmitterCall)
    (hcontent : ∀ call ∈ calls, ∀ emitter : Emitter, emitter.started = true → Allowed emitter call) :
    EveryStep (fun emitter call => (Emitter.call emitter call).1) Allowed emitter calls := by
  induction calls generalizing emitter with
  | nil => trivial
  | cons call rest ih =>
    exact ⟨hcontent call (List.mem_cons_self ..) emitter hstarted,
      ih (call_started hstarted call) fun other hother => hcontent other (List.mem_cons_of_mem _ hother)⟩

end Calls

section Chat

variable {emitter : Emitter} {client : EventReader}

/-- Text that finds no tool block open opens none. -/
theorem emitFragment_toolOpen (hopen : emitter.toolOpen = false) (text : Units) (kind : FragmentKind) :
    (emitter.emitFragment text kind).1.toolOpen = false := by
  unfold Emitter.emitFragment
  split
  · exact hopen
  · dsimp only
    split
    · exact hopen
    · rfl

/-- Text that finds no tool block open does not wait, so it cannot end the stream. -/
theorem text_running (hrunning : emitter.terminated = false) (hopen : emitter.toolOpen = false) (text : Units)
    (kind : FragmentKind) :
    (emitter.text text false kind).1.terminated = false ∧ (emitter.text text false kind).1.toolOpen = false := by
  simp only [Emitter.text, hrunning, hopen, Bool.false_or, Bool.false_eq_true, if_false]
  split
  · exact ⟨hrunning, hopen⟩
  · exact ⟨(emitFragment_keeps ..).2.1.trans hrunning, emitFragment_toolOpen hopen text kind⟩

/-- Starting the message opens no block and does not end the stream. -/
theorem start_running (hrunning : emitter.terminated = false) (hopen : emitter.toolOpen = false) :
    emitter.start.1.terminated = false ∧ emitter.start.1.toolOpen = false := by
  obtain ⟨-, hterminated, -, hcurrent, -⟩ := start_keeps emitter
  exact ⟨hterminated.trans hrunning, by simpa [Emitter.toolOpen, hcurrent] using hopen⟩

theorem closeBlock_toolOpen (emitter : Emitter) : emitter.closeBlock.1.toolOpen = false := by
  simp [Emitter.toolOpen, (closeBlock_keeps emitter).1]

namespace ChatReader

variable {Usage : Type} (source : ChatSource Usage)

/-- The entries of `tool_calls` state content only. -/
theorem toolCallCalls_allowed (keyed : List (CallKey × ToolCallDelta)) :
    ∀ call ∈ keyed.flatMap toolCallCalls, ∀ emitter : Emitter, emitter.started = true → Allowed emitter call := by
  intro call hcall emitter hstarted
  obtain ⟨entry, -, hentry⟩ := List.mem_flatMap.mp hcall
  simp only [toolCallCalls, List.mem_cons, List.not_mem_nil, or_false] at hentry
  rcases hentry with rfl | rfl
  · exact .inr hstarted
  · trivial

/-- The calls of a choice are allowed: while no call was seen no tool block is open, nothing waits, and the
text block may be closed. -/
theorem choiceCalls_allowed (hrunning : emitter.terminated = false) (choice : ChatChoice)
    (keyed : List (CallKey × ToolCallDelta)) (hasToolCalls : Bool)
    (hplain : hasToolCalls = false → keyed = [] ∧ emitter.toolOpen = false) :
    EveryStep (fun emitter call => (Emitter.call emitter call).1) Allowed emitter
      (choiceCalls choice keyed hasToolCalls) := by
  have hstarted : emitter.start.1.started = true := (start_keeps emitter).1
  cases hasToolCalls with
  | true =>
    simp only [choiceCalls, Bool.not_true, Bool.and_false, Bool.false_eq_true, if_false, List.append_nil]
    refine ⟨hrunning, everyStep_content hstarted _ ?_⟩
    intro call hcall emitter hstarted
    rcases List.mem_cons.mp hcall with rfl | hcall
    · exact .inr hstarted
    rcases List.mem_cons.mp hcall with rfl | hcall
    · exact .inr hstarted
    · exact toolCallCalls_allowed keyed call hcall emitter hstarted
  | false =>
    obtain ⟨rfl, hopen⟩ := hplain rfl
    obtain ⟨hstill, hclosed⟩ := start_running hrunning hopen
    obtain ⟨hreasoned, hclosedAgain⟩ := text_running hstill hclosed choice.reasoning .reasoning
    obtain ⟨hstated, -⟩ := text_running hreasoned hclosedAgain choice.content .message
    have hreasoning := call_started hstarted (.text choice.reasoning false .reasoning)
    refine ⟨hrunning, .inr hstarted, .inr hreasoning, ?_⟩
    cases choice.finishReason with
    | none => trivial
    | some reason => exact ⟨⟨hstated, call_started hreasoning (.text choice.content false .message)⟩, trivial⟩

/-- While no call was seen a choice leaves no tool block open. -/
theorem choiceCalls_toolOpen (hrunning : emitter.terminated = false) (hopen : emitter.toolOpen = false)
    (choice : ChatChoice) : (emitFrom Emitter.call emitter (choiceCalls choice [] false)).1.toolOpen = false := by
  obtain ⟨hstill, hclosed⟩ := start_running hrunning hopen
  obtain ⟨hreasoned, hclosedAgain⟩ := text_running hstill hclosed choice.reasoning .reasoning
  obtain ⟨-, hplain⟩ := text_running hreasoned hclosedAgain choice.content .message
  cases hfinish : choice.finishReason with
  | none => simpa [choiceCalls, hfinish, emitFrom_cons, Emitter.call] using hplain
  | some reason => simp [choiceCalls, hfinish, emitFrom_cons, Emitter.call, closeBlock_toolOpen]

/-- The client is in step, and a tool block is open only if a call was seen. -/
structure Steady (reader : ChatReader Usage) (client : EventReader) : Prop where
  inStep : InStep reader.emitter client
  plain : reader.hasToolCalls = false → reader.emitter.toolOpen = false

/-- A reader of an unended stream stands where the client does. -/
theorem Steady.running {reader : ChatReader Usage} (h : Steady reader client)
    (hrunning : reader.emitter.terminated = false) : Follows reader.emitter client := by
  rcases h.inStep with ⟨-, hfollows⟩ | ⟨hterminated, -⟩
  · exact hfollows
  · simp [hrunning] at hterminated

theorem keys_nil_iff (toolCalls : ToolCallReader) (calls : List ToolCallDelta) :
    (toolCalls.keys calls).2 = [] ↔ calls = [] := by
  cases calls <;> simp [ToolCallReader.keys]

/-- The ending. -/
theorem Steady.terminate {reader : ChatReader Usage} (h : Steady reader client) :
    ∃ next, readAll EventReader.read client (reader.terminate source).2 = some next ∧
      Steady (reader.terminate source).1 next := by
  unfold ChatReader.terminate
  have hallowed : ∀ stop usage, Allowed reader.emitter (.terminate stop usage) := fun _ _ => trivial
  obtain ⟨next, hread, hnext⟩ := h.inStep.call (hallowed _ (source.usageCounts reader.usage))
  refine ⟨next, hread, hnext, fun hplain => ?_⟩
  simp only [Emitter.call, Emitter.terminate]
  split
  · exact h.plain hplain
  · exact closeBlock_toolOpen _

/-- A chunk. -/
theorem Steady.pushChunk {reader : ChatReader Usage} (h : Steady reader client)
    (hrunning : reader.emitter.terminated = false) (chunk : ChatChunk) :
    ∃ next, readAll EventReader.read client (reader.pushChunk source chunk).2 = some next ∧
      Steady (reader.pushChunk source chunk).1 next := by
  have hnamed : Follows (reader.emitter.identify chunk.id chunk.model) client := (h.running hrunning).hidden ..
  have hstill : (reader.emitter.identify chunk.id chunk.model).terminated = false := hrunning
  have hinStep : InStep (reader.emitter.identify chunk.id chunk.model) client := .inl ⟨hstill, hnamed⟩
  unfold ChatReader.pushChunk
  dsimp only
  cases chunk.choice with
  | none => exact ⟨client, rfl, hinStep, h.plain⟩
  | some choice =>
    have hplain : (reader.hasToolCalls || !choice.toolCalls.isEmpty) = false →
        (reader.toolCalls.keys choice.toolCalls).2 = [] ∧
          (reader.emitter.identify chunk.id chunk.model).toolOpen = false := by
      intro hnone
      rw [Bool.or_eq_false_iff, Bool.not_eq_false', List.isEmpty_iff] at hnone
      exact ⟨(keys_nil_iff ..).mpr hnone.2, h.plain hnone.1⟩
    obtain ⟨next, hread, hnext⟩ := hinStep.calls _
      (choiceCalls_allowed hstill choice (reader.toolCalls.keys choice.toolCalls).2 _ hplain)
    refine ⟨next, hread, hnext, fun hnone => ?_⟩
    obtain ⟨hkeys, hopen⟩ := hplain hnone
    dsimp only at hnone ⊢
    rw [hkeys, hnone]
    exact choiceCalls_toolOpen hstill hopen choice

/-- One frame. -/
theorem Steady.push {reader : ChatReader Usage} (h : Steady reader client) (frame : SseFrame) :
    ∃ next, readAll EventReader.read client (reader.push source frame).2 = some next ∧
      Steady (reader.push source frame).1 next := by
  unfold ChatReader.push
  split
  · exact ⟨client, rfl, h⟩
  · next hended =>
    have hrunning : reader.emitter.terminated = false := by simpa using hended
    cases readChatFrame source.parseJson frame with
    | done => exact h.terminate source
    | failed payload =>
      have hallowed : Allowed reader.emitter (.fail (source.errorBody payload)) := hrunning
      obtain ⟨next, hread, hnext⟩ := h.inStep.call hallowed
      exact ⟨next, hread, hnext, h.plain⟩
    | chunk chunk => exact h.pushChunk source hrunning chunk
    | unreadable => exact ⟨client, rfl, h⟩

/-- The end of the upstream. -/
theorem Steady.flush {reader : ChatReader Usage} (h : Steady reader client) :
    ∃ next, readAll EventReader.read client (reader.flush source).2 = some next ∧
      Steady (reader.flush source).1 next := by
  unfold ChatReader.flush
  split
  · exact ⟨client, rfl, h⟩
  · exact h.terminate source

end ChatReader

end Chat

/-- A client that has read nothing stands where a new emitter does. -/
theorem inStep_new (id model : Units) (limit : Nat) : InStep { id, model, pending := { limit } } {} :=
  .inl ⟨rfl, rfl, rfl, rfl, rfl, fun _ => rfl, fun _ hnone => by simp at hnone, fun _ hnone => by simp at hnone⟩

/-- A chat stream is well formed. -/
theorem ChatReader.events_wellFormed {Usage : Type} (source : ChatSource Usage) (id model : Units) (limit : Nat)
    (frames : List SseFrame) : WellFormed (ChatReader.events source id model limit frames) := by
  obtain ⟨pushed, hpushed, hsteady⟩ := emitFrom_read Steady
    (fun _ _ frame hstate (_ : True) => hstate.push source frame) frames (begin id model limit) {}
    ⟨inStep_new id model limit, fun _ => rfl⟩ (everyStep_of_forall (fun _ _ _ => trivial) _)
  obtain ⟨last, hlast, hend⟩ := hsteady.flush source
  refine InStep.wellFormed ?_ hend.inStep
  unfold ChatReader.events
  rw [readAll_append, hpushed, Option.bind_some, hlast]

section Responses

variable {Identity Recovery : Type} (source : ResponsesSource Identity Recovery) {client : EventReader}

namespace ResponsesReader

/-- The calls an event becomes are allowed while the stream goes on. -/
theorem act_allowed (reader : ResponsesReader Identity Recovery) (hrunning : reader.emitter.terminated = false)
    (payload : Value) (event : ResponsesEvent) (kind : ResponsesEventKind) :
    EveryStep (fun emitter call => (Emitter.call emitter call).1) Allowed reader.emitter
      (reader.act source payload event kind).2 := by
  have hstarted : reader.emitter.start.1.started = true := (start_keeps reader.emitter).1
  cases kind with
  | created => exact ⟨trivial, hrunning, trivial⟩
  | itemAdded =>
    simp only [act]
    split
    · exact ⟨hrunning, .inr hstarted, trivial⟩
    · trivial
  | textDelta =>
    simp only [act]
    split
    · trivial
    · exact ⟨hrunning, .inr hstarted, trivial⟩
  | summaryDelta =>
    simp only [act]
    split
    · trivial
    · exact ⟨hrunning, .inr hstarted, trivial⟩
  | argumentsDelta => exact ⟨trivial, trivial⟩
  | itemDone =>
    simp only [act]
    split
    · exact ⟨hrunning, .inr hstarted, trivial⟩
    · split
      · exact ⟨trivial, trivial⟩
      · exact ⟨hrunning, trivial⟩
  | completed => exact ⟨trivial, trivial⟩
  | failed => exact ⟨hrunning, trivial⟩
  | error => exact ⟨hrunning, trivial⟩
  | other => trivial

/-- An event leaves the emitter to the calls it becomes. -/
theorem act_emitter (reader : ResponsesReader Identity Recovery) (payload : Value) (event : ResponsesEvent)
    (kind : ResponsesEventKind) : (reader.act source payload event kind).1.emitter = reader.emitter := by
  cases kind <;> simp only [act]
  all_goals split <;> first | rfl | (split <;> rfl)

/-- The client takes what a step emits and is in step after it. -/
def Stays (client : EventReader) (out : ResponsesReader Identity Recovery × List AnthropicEvent) : Prop :=
  StaysInStep client (out.1.emitter, out.2)

theorem stays_refuse {reader : ResponsesReader Identity Recovery} (h : InStep reader.emitter client)
    (hrunning : reader.emitter.terminated = false) (detail : Value) : Stays client (reader.refuse source detail) :=
  h.calls [EmitterCall.fail (source.errorBody detail)] ⟨hrunning, trivial⟩

/-- A recovered payload stays in step. -/
theorem stays_recovered {reader : ResponsesReader Identity Recovery} (h : InStep reader.emitter client)
    (hrunning : reader.emitter.terminated = false) (payload event : Value) (fallbackType : Option Units) :
    Stays client (reader.recovered source payload event fallbackType) := by
  unfold recovered
  split
  · exact ⟨client, rfl, h⟩
  · next parsed hparsed =>
    have hallowed := reader.act_allowed source hrunning payload parsed
      (((parsed.type.or fallbackType).map eventKind).getD .other)
    unfold emit Stays
    dsimp only
    rw [act_emitter]
    exact h.calls _ hallowed

/-- One payload. -/
theorem stays_process {reader : ResponsesReader Identity Recovery} (h : InStep reader.emitter client)
    (payload : Value) (fallbackType : Option Units) : Stays client (process source reader payload fallbackType) := by
  have hsame : ∀ other : ResponsesReader Identity Recovery, other.emitter = reader.emitter →
      Stays client (other, []) := fun other hother => ⟨client, rfl, hother ▸ h⟩
  unfold process
  split
  · exact hsame _ rfl
  · next hended =>
    have hrunning : reader.emitter.terminated = false := by simpa using hended
    split
    · exact hsame _ rfl
    · dsimp only
      split
      · exact stays_refuse source h hrunning _
      · split
        · exact hsame _ rfl
        · split
          · exact stays_refuse source h hrunning _
          · refine stays_recovered source ?_ ?_ payload _ fallbackType
            · exact h
            · exact hrunning

/-- A client that stays in step over one input stays in step over all of them. -/
theorem stays_all {Input : Type}
    {step : ResponsesReader Identity Recovery → Input → ResponsesReader Identity Recovery × List AnthropicEvent}
    (hstep : ∀ reader client input, InStep reader.emitter client → Stays client (step reader input))
    (inputs : List Input) {reader : ResponsesReader Identity Recovery} (h : InStep reader.emitter client) :
    Stays client (emitFrom step reader inputs) := by
  have heach : ∀ reader client input, InStep reader.emitter client → True →
      ∃ next, readAll EventReader.read client (step reader input).2 = some next ∧
        InStep (step reader input).1.emitter next :=
    fun reader client input hstate _ => hstep reader client input hstate
  exact emitFrom_read (fun reader client => InStep reader.emitter client) heach inputs reader client h
    (everyStep_of_forall (fun _ _ _ => trivial) _)

/-- One frame, payload by payload. -/
theorem stays_push {reader : ResponsesReader Identity Recovery} (h : InStep reader.emitter client)
    (frame : SseFrame) : Stays client (push source reader frame) :=
  stays_all (fun _ _ payload hstate => stays_process source hstate payload frame.event) (source.finalEvents frame) h

/-- A Responses stream is well formed. -/
theorem events_wellFormed (identity : Identity) (recovery : Recovery) (id model : Units) (limit : Nat)
    (frames : List SseFrame) : WellFormed (events source identity recovery id model limit frames) := by
  let begun : ResponsesReader Identity Recovery :=
    { emitter := { id, model, pending := { limit } }, identity, recovery }
  have hbegun : InStep begun.emitter {} := inStep_new id model limit
  obtain ⟨last, hlast, hend⟩ := stays_all (fun _ _ frame hstate => stays_push source hstate frame) frames hbegun
  exact InStep.wellFormed hlast hend

end ResponsesReader

end Responses

/-- Whatever frames arrive, both translations emit a well-formed Anthropic stream. -/
theorem translated_streams_wellFormed {Usage Identity Recovery : Type} (chat : ChatSource Usage)
    (responses : ResponsesSource Identity Recovery) (identity : Identity) (recovery : Recovery) (id model : Units)
    (limit : Nat) (frames : List SseFrame) : WellFormed (ChatReader.events chat id model limit frames) ∧
      WellFormed (ResponsesReader.events responses identity recovery id model limit frames) :=
  ⟨ChatReader.events_wellFormed chat id model limit frames,
    ResponsesReader.events_wellFormed responses identity recovery id model limit frames⟩

end MultiAiRouter.Translate.Anthropic
