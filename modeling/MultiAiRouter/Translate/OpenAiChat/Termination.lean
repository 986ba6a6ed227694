import MultiAiRouter.Translate.OpenAiChat.AnthropicStream

/-!
# How a translated chat stream ends

A chat stream ends with one terminal chunk, the one with a finish reason, and then one sentinel. The translator of
Anthropic streams leaves this to its upstream.
-/

namespace MultiAiRouter.Translate.OpenAiChat

open Common Translate.Sse Translate.Anthropic

section Output

/-- A chunk with a finish reason. -/
def ChatStreamEvent.isTerminal : ChatStreamEvent → Bool
  | .chunk _ _ _ finishReason => finishReason.isSome
  | _ => false

/-- A chunk that adds content or a call to the message. -/
def ChatStreamEvent.carriesDelta : ChatStreamEvent → Bool
  | .chunk _ _ delta _ => delta.content.isSome || delta.toolCalls.isSome
  | _ => false

/-- The sentinel. -/
def ChatStreamEvent.isDone : ChatStreamEvent → Bool
  | .done => true
  | _ => false

/-- How an output ends: one terminal chunk at most, the sentinel last and behind exactly one terminal chunk,
and nothing added to the message behind the terminal chunk. -/
structure EndsOnce (out : List ChatStreamEvent) : Prop where
  one : out.countP ChatStreamEvent.isTerminal ≤ 1
  last : ∀ before sentinel after, out = before ++ sentinel :: after → sentinel.isDone = true →
    after = [] ∧ before.countP ChatStreamEvent.isTerminal = 1
  nothingAfter : ∀ before terminal after, out = before ++ terminal :: after → terminal.isTerminal = true →
    ∀ event ∈ after, event.carriesDelta = false

/-- How far an output has come. -/
inductive ChatPhase
  | opened
  | finished
  | closed
  deriving DecidableEq

/-- Read an event, refusing what may not come here. -/
def ChatPhase.read : ChatPhase → ChatStreamEvent → Option ChatPhase
  | .opened, event =>
    if event.isDone then none else if event.isTerminal then some .finished else some .opened
  | .finished, event =>
    if event.isDone then some .closed
    else if event.isTerminal || event.carriesDelta then none
    else some .finished
  | .closed, _ => none

/-- What may follow the terminal chunk. -/
def EndsAfter (out : List ChatStreamEvent) : Prop :=
  (∀ event ∈ out, event.isTerminal = false ∧ event.carriesDelta = false) ∧
    ∀ before sentinel after, out = before ++ sentinel :: after → sentinel.isDone = true → after = []

variable {event : ChatStreamEvent} {out : List ChatStreamEvent}

theorem isTerminal_of_isDone (h : event.isDone = true) : event.isTerminal = false ∧ event.carriesDelta = false := by
  cases event <;> first | exact ⟨rfl, rfl⟩ | cases h

theorem readAll_closed : (readAll ChatPhase.read .closed out).isSome = true ↔ out = [] := by
  cases out with
  | nil => simp
  | cons event rest => simp [ChatPhase.read]

/-- A finished message is followed by its ending alone. -/
theorem readAll_finished : (readAll ChatPhase.read .finished out).isSome = true ↔ EndsAfter out := by
  induction out with
  | nil => simp [EndsAfter]
  | cons event rest ih =>
    rw [readAll_cons]
    simp only [ChatPhase.read]
    cases hdone : event.isDone with
    | true =>
      obtain ⟨hterminal, hcarries⟩ := isTerminal_of_isDone hdone
      rw [if_pos rfl, Option.bind_some, readAll_closed]
      constructor
      · rintro rfl
        refine ⟨by simp [hterminal, hcarries], ?_⟩
        intro before sentinel after hsplit _
        cases before with
        | nil => exact (List.cons.inj hsplit).2.symm
        | cons head tail => simp at hsplit
      · exact fun h => h.2 [] event rest rfl hdone
    | false =>
      rw [if_neg Bool.false_ne_true]
      have hcons : EndsAfter (event :: rest) ↔
          (event.isTerminal = false ∧ event.carriesDelta = false) ∧ EndsAfter rest := by
        constructor
        · rintro ⟨hall, hlast⟩
          refine ⟨hall event (.head _), fun other hmem => hall other (.tail _ hmem), ?_⟩
          intro before sentinel after hsplit
          exact hlast (event :: before) sentinel after (by rw [hsplit]; rfl)
        · rintro ⟨hevent, hall, hlast⟩
          refine ⟨?_, ?_⟩
          · intro other hmem
            rcases List.mem_cons.mp hmem with rfl | htail
            · exact hevent
            · exact hall other htail
          · intro before sentinel after hsplit hsentinel
            cases before with
            | nil =>
              obtain ⟨rfl, -⟩ := List.cons.inj hsplit
              rw [hdone] at hsentinel
              cases hsentinel
            | cons head tail =>
              exact hlast tail sentinel after (List.cons.inj hsplit).2 hsentinel
      rw [hcons]
      cases hterminal : event.isTerminal with
      | true => simp
      | false =>
        cases hcarries : event.carriesDelta with
        | true => simp
        | false => simpa using ih

/-- An output is read to its end exactly when it ends as it should. -/
theorem readAll_opened : (readAll ChatPhase.read .opened out).isSome = true ↔ EndsOnce out := by
  induction out with
  | nil =>
    refine iff_of_true rfl ⟨by simp, ?_, ?_⟩
    · intro before sentinel after hsplit
      simp at hsplit
    · intro before terminal after hsplit
      simp at hsplit
  | cons event rest ih =>
    rw [readAll_cons]
    simp only [ChatPhase.read]
    cases hdone : event.isDone with
    | true =>
      rw [if_pos rfl]
      refine iff_of_false (by simp) fun h => ?_
      have hnone := (h.last [] event rest rfl hdone).2
      simp at hnone
    | false =>
      rw [if_neg Bool.false_ne_true]
      cases hterminal : event.isTerminal with
      | true =>
        rw [if_pos rfl, Option.bind_some, readAll_finished]
        constructor
        · rintro ⟨hall, hlast⟩
          have hzero : rest.countP ChatStreamEvent.isTerminal = 0 :=
            List.countP_eq_zero.mpr fun other hmem => by simp [(hall other hmem).1]
          refine ⟨by simp [hterminal, hzero], ?_, ?_⟩
          · intro before sentinel after hsplit hsentinel
            cases before with
            | nil =>
              obtain ⟨rfl, -⟩ := List.cons.inj hsplit
              rw [hdone] at hsentinel
              cases hsentinel
            | cons head tail =>
              obtain ⟨rfl, hrest⟩ := List.cons.inj hsplit
              have hrest : rest = tail ++ sentinel :: after := hrest
              refine ⟨hlast tail sentinel after hrest hsentinel, ?_⟩
              rw [hrest, List.countP_append, Nat.add_eq_zero_iff] at hzero
              simp [hterminal, hzero.1]
          · intro before terminal after hsplit hterminal' other hother
            have hmem : other ∈ rest := by
              cases before with
              | nil => exact (List.cons.inj hsplit).2 ▸ hother
              | cons head tail =>
                rw [(List.cons.inj hsplit).2]
                exact List.mem_append_right _ (.tail _ hother)
            exact (hall other hmem).2
        · intro h
          have hone := h.one
          rw [List.countP_cons_of_pos hterminal] at hone
          have hzero : rest.countP ChatStreamEvent.isTerminal = 0 := by omega
          refine ⟨?_, ?_⟩
          · intro other hmem
            exact ⟨by simpa using List.countP_eq_zero.mp hzero other hmem,
              h.nothingAfter [] event rest rfl hterminal other hmem⟩
          · intro before sentinel after hsplit hsentinel
            exact (h.last (event :: before) sentinel after (by rw [hsplit]; rfl) hsentinel).1
      | false =>
        rw [if_neg Bool.false_ne_true, Option.bind_some, ih]
        have hcount : ∀ others : List ChatStreamEvent, (event :: others).countP ChatStreamEvent.isTerminal =
            others.countP ChatStreamEvent.isTerminal := fun others => by simp [hterminal]
        constructor
        · intro h
          refine ⟨by rw [hcount]; exact h.one, ?_, ?_⟩
          · intro before sentinel after hsplit hsentinel
            cases before with
            | nil =>
              obtain ⟨rfl, -⟩ := List.cons.inj hsplit
              rw [hdone] at hsentinel
              cases hsentinel
            | cons head tail =>
              obtain ⟨rfl, hrest⟩ := List.cons.inj hsplit
              rw [hcount]
              exact h.last tail sentinel after hrest hsentinel
          · intro before terminal after hsplit hterminal'
            cases before with
            | nil =>
              obtain ⟨rfl, -⟩ := List.cons.inj hsplit
              rw [hterminal] at hterminal'
              cases hterminal'
            | cons head tail => exact h.nothingAfter tail terminal after (List.cons.inj hsplit).2 hterminal'
        · intro h
          refine ⟨by rw [← hcount]; exact h.one, ?_, ?_⟩
          · intro before sentinel after hsplit hsentinel
            have hlast := h.last (event :: before) sentinel after (by rw [hsplit]; rfl) hsentinel
            rw [hcount] at hlast
            exact hlast
          · intro before terminal after hsplit
            exact h.nothingAfter (event :: before) terminal after (by rw [hsplit]; rfl)

end Output

section Steps

variable (source : AnthropicSource)

/-- Whether a frame adds content or a call to the message. -/
def AnthropicReader.adds (reader : AnthropicReader) : AnthropicFrame → Bool
  | .messageStart _ => true
  | .blockStart block =>
    if block.type = asciiUnits "tool_use" then decide (block.name ≠ some structuredOutputTool)
    else decide (block.type = asciiUnits "text") && !(block.text.getD []).isEmpty
  | .blockDelta delta =>
    if delta.type = asciiUnits "text_delta" then !(delta.text.getD []).isEmpty
    else if delta.type ≠ asciiUnits "input_json_delta" then false
    else if delta.index ∈ reader.structuredBlocks then !(delta.partialJson.getD []).isEmpty
    else (reader.toolCalls.get delta.index).isSome
  | .blockStop index => (reader.toolCalls.get index).isSome && decide (index ∉ reader.argumentBlocks)
  | _ => false

/-- A message finishes once, is stopped only then, and nothing is added to it afterwards. -/
def AnthropicReader.expects (reader : AnthropicReader) : AnthropicFrame → Bool
  | .messageDelta _ _ => !reader.finished
  | .messageStop => reader.finished
  | .error _ => true
  | frame => !reader.finished || !reader.adds frame

/-- A frame comes in order, or after the stream is closed. -/
def Orderly (reader : AnthropicReader) (frame : SseFrame) : Prop :=
  reader.closed = true ∨ reader.expects (readAnthropicFrame source.parseJson frame) = true

/-- How far the output of a reader has come. -/
def AnthropicReader.phase (reader : AnthropicReader) : ChatPhase :=
  if reader.closed then .closed else if reader.finished then .finished else .opened

variable {source} {reader : AnthropicReader} {out : List ChatStreamEvent}

/-- Events that neither finish nor close the message. -/
def Additions (adds : Bool) (out : List ChatStreamEvent) : Prop :=
  (∀ event ∈ out, event.isTerminal = false ∧ event.isDone = false) ∧
    (adds = true ↔ ∃ event ∈ out, event.carriesDelta = true)

theorem additions_nil : Additions false [] := ⟨by simp, by simp⟩

theorem additions_chunk (id model : Units) (delta : ChunkDelta)
    (h : (delta.content.isSome || delta.toolCalls.isSome) = true) : Additions true [.chunk id model delta none] :=
  ⟨by simp [ChatStreamEvent.isTerminal, ChatStreamEvent.isDone], by simpa [ChatStreamEvent.carriesDelta] using h⟩

/-- Before the message is finished it may be added to. -/
theorem Additions.read_opened {adds : Bool} (h : Additions adds out) :
    readAll ChatPhase.read .opened out = some .opened := by
  have hall := h.1
  clear h
  induction out with
  | nil => rfl
  | cons event rest ih =>
    obtain ⟨hterminal, hdone⟩ := hall event (.head _)
    rw [readAll_cons]
    simp only [ChatPhase.read, hterminal, hdone, Bool.false_eq_true, if_false, Option.bind_some]
    exact ih fun other hmem => hall other (.tail _ hmem)

/-- Afterwards it may not. -/
theorem Additions.read_finished {adds : Bool} (h : Additions adds out) :
    readAll ChatPhase.read .finished out = if adds then none else some .finished := by
  have hread : (∃ event ∈ out, event.carriesDelta = true) ∧ readAll ChatPhase.read .finished out = none ∨
      (¬ ∃ event ∈ out, event.carriesDelta = true) ∧ readAll ChatPhase.read .finished out = some .finished := by
    have hall := h.1
    clear h
    induction out with
    | nil => exact .inr ⟨by simp, rfl⟩
    | cons event rest ih =>
      obtain ⟨hterminal, hdone⟩ := hall event (.head _)
      rw [readAll_cons]
      simp only [ChatPhase.read, hterminal, hdone, Bool.false_eq_true, if_false, Bool.false_or]
      cases hcarries : event.carriesDelta with
      | true => exact .inl ⟨⟨event, .head _, hcarries⟩, rfl⟩
      | false =>
        simpa [hcarries] using ih fun other hmem => hall other (.tail _ hmem)
  rcases hread with ⟨hcarries, hnone⟩ | ⟨hcarries, hsome⟩
  · rw [hnone, if_pos (h.2.mpr hcarries)]
  · have hadds : adds = false := by
      by_contra htrue
      exact hcarries (h.2.mp (by simpa using htrue))
    rw [hsome, hadds]
    rfl

/-- What an event of a block adds, with the flags as they were. -/
structure Adds (reader next : AnthropicReader) (adds : Bool) (out : List ChatStreamEvent) : Prop where
  finished : next.finished = reader.finished
  closed : next.closed = reader.closed
  additions : Additions adds out

theorem onMessageStart_adds (message : Option MessageStart) :
    Adds reader (reader.onMessageStart source message).1 true (reader.onMessageStart source message).2 :=
  ⟨rfl, rfl, additions_chunk _ _ _ rfl⟩

/-- A block start adds where it opens a call. -/
theorem onBlockStart_adds (block : BlockStart) :
    Adds reader (reader.onBlockStart block).1 (reader.adds (.blockStart block)) (reader.onBlockStart block).2 := by
  unfold AnthropicReader.onBlockStart
  by_cases htool : block.type = asciiUnits "tool_use"
  · by_cases hname : block.name = some structuredOutputTool
    · rw [if_pos ⟨htool, hname⟩]
      exact ⟨rfl, rfl, by simpa [AnthropicReader.adds, htool, hname] using additions_nil⟩
    · rw [if_neg (fun h => hname h.2), if_pos htool]
      refine ⟨rfl, rfl, ?_⟩
      have hadds : reader.adds (.blockStart block) = true := by simp [AnthropicReader.adds, htool, hname]
      rw [hadds]
      exact additions_chunk _ _ _ rfl
  · rw [if_neg (fun h => htool h.1), if_neg htool]
    refine ⟨rfl, rfl, ?_⟩
    have hadds : reader.adds (.blockStart block) =
        !(if block.type = asciiUnits "text" then block.text.getD [] else []).isEmpty := by
      simp only [AnthropicReader.adds, if_neg htool]
      by_cases htext : block.type = asciiUnits "text" <;> simp [htext]
    rw [hadds]
    dsimp only
    cases hempty : (if block.type = asciiUnits "text" then block.text.getD [] else []).isEmpty with
    | true => exact additions_nil
    | false => exact additions_chunk _ _ _ rfl

/-- A delta adds what it carries. -/
theorem onBlockDelta_adds (delta : BlockDelta) :
    Adds reader (reader.onBlockDelta delta).1 (reader.adds (.blockDelta delta)) (reader.onBlockDelta delta).2 := by
  unfold AnthropicReader.onBlockDelta
  by_cases htext : delta.type = asciiUnits "text_delta"
  · rw [if_pos htext]
    refine ⟨rfl, rfl, ?_⟩
    simp only [AnthropicReader.adds, if_pos htext]
    cases (delta.text.getD []).isEmpty with
    | true => exact additions_nil
    | false => exact additions_chunk _ _ _ rfl
  · by_cases hjson : delta.type ≠ asciiUnits "input_json_delta"
    · rw [if_neg htext, if_pos hjson]
      exact ⟨rfl, rfl, by simpa only [AnthropicReader.adds, if_neg htext, if_pos hjson] using additions_nil⟩
    · rw [if_neg htext, if_neg hjson]
      by_cases hstructured : delta.index ∈ reader.structuredBlocks
      · simp only [AnthropicReader.adds, if_neg htext, if_neg hjson, if_pos hstructured]
        refine ⟨rfl, rfl, ?_⟩
        cases (delta.partialJson.getD []).isEmpty with
        | true => exact additions_nil
        | false => exact additions_chunk _ _ _ rfl
      · simp only [AnthropicReader.adds, if_neg htext, if_neg hjson, if_neg hstructured]
        cases reader.toolCalls.get delta.index with
        | none => exact ⟨rfl, rfl, additions_nil⟩
        | some ordinal => exact ⟨rfl, rfl, additions_chunk _ _ _ rfl⟩

/-- A block stop adds nothing of its own. -/
theorem onBlockStop_adds (index : Nat) :
    Adds reader (reader.onBlockStop index).1 (reader.adds (.blockStop index)) (reader.onBlockStop index).2 := by
  unfold AnthropicReader.onBlockStop
  simp only [AnthropicReader.adds]
  cases reader.toolCalls.get index with
  | none => exact ⟨rfl, rfl, additions_nil⟩
  | some ordinal =>
    refine ⟨rfl, rfl, ?_⟩
    by_cases harguments : index ∈ reader.argumentBlocks
    · simpa [harguments] using additions_nil
    · dsimp only
      rw [if_neg harguments, decide_eq_true harguments]
      exact additions_chunk _ _ _ rfl

/-- What an addition is read as: refused exactly when the message was finished and something is added. -/
theorem Adds.read {next : AnthropicReader} {adds : Bool} (h : Adds reader next adds out)
    (hopen : reader.closed = false) :
    readAll ChatPhase.read reader.phase out = if !reader.finished || !adds then some next.phase else none := by
  have hphase : next.phase = reader.phase := by simp only [AnthropicReader.phase, h.finished, h.closed]
  rw [hphase]
  unfold AnthropicReader.phase
  rw [hopen]
  cases reader.finished with
  | false => simpa using h.additions.read_opened
  | true => cases adds <;> simpa using h.additions.read_finished

/-- What a push emits is read along exactly when the frame comes in order. -/
theorem read_push (frame : SseFrame) : readAll ChatPhase.read reader.phase (reader.push source frame).2 =
      if reader.closed || reader.expects (readAnthropicFrame source.parseJson frame) then
        some (reader.push source frame).1.phase
      else none := by
  unfold AnthropicReader.push
  cases hclosed : reader.closed with
  | true => rfl
  | false =>
    simp only [Bool.false_eq_true, if_false, Bool.false_or]
    cases readAnthropicFrame source.parseJson frame with
    | messageStart message => exact (onMessageStart_adds message).read hclosed
    | blockStart block => exact (onBlockStart_adds block).read hclosed
    | blockDelta delta => exact (onBlockDelta_adds delta).read hclosed
    | blockStop index => exact (onBlockStop_adds index).read hclosed
    | messageDelta stopReason usage =>
      -- The terminal chunk, and behind it at most the usage.
      have husage : ∀ ended : AnthropicReader, readAll ChatPhase.read .finished
          (if source.includeUsage then
            ((mergeUsage reader.startUsage (source.parseUsage usage)).map fun counts =>
              ChatStreamEvent.usage ended.id ended.model counts).toList
            else []) = some .finished := by
        intro ended
        cases source.includeUsage with
        | false => rfl
        | true => cases mergeUsage reader.startUsage (source.parseUsage usage) <;> rfl
      unfold AnthropicReader.onMessageDelta AnthropicReader.phase AnthropicReader.expects
      dsimp only
      rw [readAll_cons, hclosed]
      cases reader.finished with
      | true => rfl
      | false =>
        simp only [Bool.false_eq_true, if_false, Bool.not_false, if_true]
        exact husage _
    | messageStop =>
      unfold AnthropicReader.phase AnthropicReader.expects
      dsimp only
      rw [hclosed]
      cases reader.finished <;> rfl
    | error payload =>
      unfold AnthropicReader.onError AnthropicReader.phase AnthropicReader.expects
      dsimp only
      rw [hclosed]
      cases reader.finished <;> rfl
    | other =>
      have hadds : Adds reader reader false [] := ⟨rfl, rfl, additions_nil⟩
      exact hadds.read hclosed

/-- The flush owes the sentinel exactly where the message was finished and the stream is open. -/
theorem read_flush : readAll ChatPhase.read reader.phase reader.flush.2 = some reader.flush.1.phase := by
  unfold AnthropicReader.flush AnthropicReader.phase
  cases hclosed : reader.closed <;> cases hfinished : reader.finished <;> simp [hclosed, hfinished, ChatPhase.read,
    ChatStreamEvent.isDone]

end Steps

section Unfinished

variable {source : AnthropicSource} {reader : AnthropicReader}

/-- The events that end a message. -/
def endTypes : List Units := [asciiUnits "message_delta", asciiUnits "message_stop", asciiUnits "error"]

/-- The type of a frame. -/
def frameType (source : AnthropicSource) (frame : SseFrame) : Option Units :=
  eventType frame.event ((source.parseJson frame.data).getD .null)

/-- A frame of another type ends nothing. -/
theorem push_of_not_end {frame : SseFrame} (hopen : reader.finished = false ∧ reader.closed = false)
    (htype : ∀ type ∈ endTypes, frameType source frame ≠ some type) :
    ((reader.push source frame).1.finished = false ∧ (reader.push source frame).1.closed = false) ∧
      ∀ event ∈ (reader.push source frame).2, event.isTerminal = false ∧ event.isDone = false := by
  have hdelta := htype _ (.head _)
  have hstop := htype _ (.tail _ (.head _))
  have herror := htype _ (.tail _ (.tail _ (.head _)))
  have hadded : ∀ {next : AnthropicReader} {adds : Bool} {out : List ChatStreamEvent}, Adds reader next adds out →
      (next.finished = false ∧ next.closed = false) ∧
        ∀ event ∈ out, event.isTerminal = false ∧ event.isDone = false :=
    fun h => ⟨⟨h.finished.trans hopen.1, h.closed.trans hopen.2⟩, h.additions.1⟩
  have hother : (reader.finished = false ∧ reader.closed = false) ∧
      ∀ event ∈ ([] : List ChatStreamEvent), event.isTerminal = false ∧ event.isDone = false :=
    ⟨hopen, by simp⟩
  unfold AnthropicReader.push
  rw [if_neg (by simp [hopen.2])]
  unfold readAnthropicFrame
  dsimp only
  rw [frameType] at hdelta hstop herror
  rw [if_neg hdelta, if_neg hstop, if_neg herror]
  split_ifs
  · exact hadded (onMessageStart_adds _)
  · cases readBlockStart ((source.parseJson frame.data).getD .null) with
    | none => exact hother
    | some block => exact hadded (onBlockStart_adds block)
  · cases readBlockDelta ((source.parseJson frame.data).getD .null) with
    | none => exact hother
    | some delta => exact hadded (onBlockDelta_adds delta)
  · cases ((source.parseJson frame.data).getD .null).asRecord.bind blockIndex with
    | none => exact hother
    | some index => exact hadded (onBlockStop_adds index)
  · exact hother

/-- Frames of other types end nothing. -/
theorem pushes_of_not_end {frames : List SseFrame} (hopen : reader.finished = false ∧ reader.closed = false)
    (htypes : ∀ frame ∈ frames, ∀ type ∈ endTypes, frameType source frame ≠ some type) :
    ((emitFrom (AnthropicReader.push source) reader frames).1.finished = false ∧
        (emitFrom (AnthropicReader.push source) reader frames).1.closed = false) ∧
      ∀ event ∈ (emitFrom (AnthropicReader.push source) reader frames).2,
        event.isTerminal = false ∧ event.isDone = false := by
  induction frames generalizing reader with
  | nil => exact ⟨hopen, by simp⟩
  | cons frame rest ih =>
    obtain ⟨hnext, hout⟩ := push_of_not_end hopen (htypes frame (.head _))
    obtain ⟨hlast, hrest⟩ := ih hnext fun other hmem => htypes other (.tail _ hmem)
    refine ⟨hlast, ?_⟩
    intro event hevent
    rcases List.mem_append.mp hevent with hfirst | hlater
    · exact hout event hfirst
    · exact hrest event hlater

end Unfinished

/-- How the output of a stream ends; one whose upstream neither finishes, stops nor fails is given no ending. -/
structure Terminated (source : AnthropicSource) (frames : List SseFrame) (out : List ChatStreamEvent) : Prop where
  endsOnce : EndsOnce out
  unended : (∀ frame ∈ frames, ∀ type ∈ endTypes, frameType source frame ≠ some type) →
    ∀ event ∈ out, event.isTerminal = false ∧ event.isDone = false

/-- A translated stream ends as it should exactly when the events of the message come in order. -/
theorem chat_stream_terminated_iff (source : AnthropicSource) (id model : Units) (frames : List SseFrame) :
    Terminated source frames (AnthropicReader.events source id model frames) ↔
      EveryStep (fun reader frame => (AnthropicReader.push source reader frame).1) (Orderly source)
        { id, model } frames := by
  have hruns := emitFrom_accepts_iff AnthropicReader.phase (fun _ _ (_ : True) => trivial)
    (fun reader frame _ (horderly : Orderly source reader frame) => by
      rw [read_push, if_pos (by simpa [Orderly] using horderly)])
    (fun reader frame _ (hnot : ¬ Orderly source reader frame) => by
      rw [read_push, if_neg (by simpa [Orderly] using hnot)])
    frames { id, model } trivial
  have hends : EndsOnce (AnthropicReader.events source id model frames) ↔
      EveryStep (fun reader frame => (AnthropicReader.push source reader frame).1) (Orderly source)
        { id, model } frames := by
    rw [← readAll_opened]
    unfold AnthropicReader.events
    dsimp only
    rw [readAll_append]
    rcases hruns with ⟨hread, hevery⟩ | ⟨hread, hevery⟩
    · refine iff_of_true ?_ hevery
      have hread : readAll ChatPhase.read .opened (emitFrom (AnthropicReader.push source) { id, model } frames).2 =
          some (emitFrom (AnthropicReader.push source) { id, model } frames).1.phase := hread
      rw [hread, Option.bind_some, read_flush]
      rfl
    · refine iff_of_false ?_ hevery
      have hread : readAll ChatPhase.read .opened (emitFrom (AnthropicReader.push source) { id, model } frames).2 =
          none := hread
      rw [hread]
      exact Bool.false_ne_true
  refine ⟨fun h => hends.mp h.endsOnce, fun hevery => ⟨hends.mpr hevery, ?_⟩⟩
  intro htypes event hevent
  obtain ⟨hopen, hout⟩ := @pushes_of_not_end source { id, model } frames ⟨rfl, rfl⟩ htypes
  unfold AnthropicReader.events AnthropicReader.flush at hevent
  dsimp only at hevent
  rw [hopen.1, Bool.not_false, Bool.or_true, if_pos rfl, List.append_nil] at hevent
  exact hout event hevent

/-- A source that reads the empty object, and no usage. -/
def emptyObjectSource : AnthropicSource where
  parseJson := fun data => if data = asciiUnits "\x7b\x7d" then some (.object []) else none
  parseUsage := fun _ => none
  errorBody := id
  includeUsage := false

/-- A frame of this event whose data is the empty object. -/
def emptyFrame (event : String) : SseFrame := { event := some (asciiUnits event), data := asciiUnits "\x7b\x7d" }

/-- An upstream that repeats `message_delta` gives its client two terminal chunks. -/
theorem chat_stream_terminated_twice : ¬ Terminated emptyObjectSource
      [emptyFrame "message_start", emptyFrame "message_delta", emptyFrame "message_delta", emptyFrame "message_stop"]
      (AnthropicReader.events emptyObjectSource [] []
        [emptyFrame "message_start", emptyFrame "message_delta", emptyFrame "message_delta",
          emptyFrame "message_stop"]) := by
  intro h
  exact absurd h.endsOnce.one (by decide +kernel)

end MultiAiRouter.Translate.OpenAiChat
