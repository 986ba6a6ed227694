import MultiAiRouter.Translate.Responses.Terminal

/-!
# The same thing, said three times

A Responses stream says what an item holds in its deltas, in the events that close it, and in the final response.
The transcript of a stream that ends is that of a list of items: each is announced, its deltas follow, it is closed
with all of them joined, and only then comes the next.
-/

namespace MultiAiRouter.Translate.Responses

open Common Translate.Sse Translate.Anthropic

/-- What an item is announced as: text of a kind, or a call. -/
inductive ItemHead
  | text (kind : FragmentKind)
  | call (key : CallKey) (callId name : Units)
  deriving DecidableEq

/-- An item as it was streamed: its head, its id, and the pieces of its text. -/
structure StreamedItem where
  head : ItemHead
  id : Units
  deltas : List Units
  deriving DecidableEq

namespace StreamedItem

/-- The pieces joined. -/
def text (item : StreamedItem) : Units := item.deltas.flatten

/-- The call an item belongs to, and its arguments. -/
def call (item : StreamedItem) : Option (CallKey × Units) :=
  match item.head with
  | .text _ => none
  | .call key _ _ => some (key, item.text)

/-- The item as JSON, once it is complete. -/
def json (item : StreamedItem) : ItemJson :=
  match item.head with
  | .text .message => .message item.id .completed [item.text]
  | .text .reasoning => .reasoning item.id [item.text]
  | .call _ callId name => .functionCall item.id .completed callId name item.text

/-- The events that announce the item. -/
def opening (item : StreamedItem) (index : Nat) : List ResponsesPayload :=
  match item.head with
  | .text .message => [.outputItemAdded index (.message item.id .inProgress []), .partAdded .message item.id index []]
  | .text .reasoning => [.outputItemAdded index (.reasoning item.id []), .partAdded .reasoning item.id index []]
  | .call _ callId name => [.outputItemAdded index (.functionCall item.id .inProgress callId name [])]

/-- The event of a piece. -/
def delta (item : StreamedItem) (index : Nat) (piece : Units) : ResponsesPayload :=
  match item.head with
  | .text kind => .textDelta kind item.id index piece
  | .call .. => .argumentsDelta item.id index piece

/-- The events that close the item. -/
def closing (item : StreamedItem) (index : Nat) : List ResponsesPayload :=
  (match item.head with
    | .text kind => [.textDone kind item.id index item.text, .partDone kind item.id index item.text]
    | .call .. => [.argumentsDone item.id index item.text]) ++ [.outputItemDone index item.json]

/-- The item so far. -/
def streamed (item : StreamedItem) (index : Nat) : List ResponsesPayload :=
  item.opening index ++ item.deltas.map (item.delta index)

/-- The item in full: opened, streamed and closed. -/
def transcript (item : StreamedItem) (index : Nat) : List ResponsesPayload :=
  item.streamed index ++ item.closing index

/-- The draft of the item. -/
def draft (index : Nat) (item : StreamedItem) : ResponsesItemDraft where
  kind := match item.head with
    | .text kind => .text kind
    | .call .. => .functionCall
  index
  id := item.id
  key := match item.head with
    | .text _ => none
    | .call key _ _ => some key
  text := item.text
  callId := match item.head with
    | .text _ => []
    | .call _ callId _ => callId
  name := match item.head with
    | .text _ => []
    | .call _ _ name => name

/-- The item with one more piece. -/
def push (item : StreamedItem) (piece : Units) : StreamedItem := { item with deltas := item.deltas ++ [piece] }

end StreamedItem

/-- The items one after another, each in full before the next. -/
def itemsTranscript : Nat → List StreamedItem → List ResponsesPayload
  | _, [] => []
  | index, item :: rest => item.transcript index ++ itemsTranscript (index + 1) rest

section Transcript

variable {item : StreamedItem}

/-- The items of two lists are told one after another. -/
theorem itemsTranscript_append (index : Nat) (first second : List StreamedItem) :
    itemsTranscript index (first ++ second) =
      itemsTranscript index first ++ itemsTranscript (index + first.length) second := by
  induction first generalizing index with
  | nil => rfl
  | cons item rest ih =>
    rw [List.cons_append, itemsTranscript, itemsTranscript, ih, List.append_assoc, List.length_cons, Nat.add_right_comm,
      Nat.add_assoc]

/-- The events that close an item, as the emitter writes them. -/
theorem closing_eq (index : Nat) (item : StreamedItem) :
    responsesDoneEvents (responsesDraftItem (item.draft index)) index ++
        [.outputItemDone index (responsesItemJson (responsesDraftItem (item.draft index)) .completed)] =
      item.closing index := by
  obtain ⟨head, id, deltas⟩ := item
  cases head with
  | text kind => cases kind <;> rfl
  | call key callId name => rfl

/-- The item as the emitter states it. -/
theorem json_eq (index : Nat) (item : StreamedItem) :
    responsesItemJson (responsesDraftItem (item.draft index)) .completed = item.json := by
  obtain ⟨head, id, deltas⟩ := item
  cases head with
  | text kind => cases kind <;> rfl
  | call key callId name => rfl

/-- A draft whose text goes on. -/
theorem draft_push (index : Nat) (item : StreamedItem) (piece : Units) :
    (item.push piece).draft index = { item.draft index with text := (item.draft index).text ++ piece } := by
  obtain ⟨head, id, deltas⟩ := item
  cases head <;> simp [StreamedItem.draft, StreamedItem.push, StreamedItem.text]

/-- What is streamed of it. -/
theorem streamed_push (index : Nat) (item : StreamedItem) (piece : Units) :
    (item.push piece).streamed index = item.streamed index ++ [item.delta index piece] := by
  simp only [StreamedItem.streamed, StreamedItem.push, List.map_append, List.map_cons, List.map_nil, List.append_assoc]
  rfl

end Transcript

/-- What was said so far: the opening pair, the items that are closed, and the one that is open. -/
structure Told (emitter : Emitter) (response : ResponsesBody) (said : List ResponsesPayload)
    (closed : List StreamedItem) (current : Option StreamedItem) : Prop where
  started : emitter.started = true
  said : said = [.created response, .inProgress response] ++ itemsTranscript 0 closed ++
    current.elim [] fun item => item.streamed closed.length
  items : emitter.items.map (fun item => responsesItemJson item .completed) = closed.map StreamedItem.json
  current : emitter.current = current.map (StreamedItem.draft closed.length)

/-- What the events say. -/
def payloads (out : List ResponsesEvent) : List ResponsesPayload := out.map ResponsesEvent.payload

section Steps

variable {emitter : Emitter} {response : ResponsesBody} {said : List ResponsesPayload}
  {closed : List StreamedItem} {current : Option StreamedItem}

/-- No events, no payloads. -/
@[simp] theorem payloads_nil : payloads [] = [] := rfl

/-- The payloads of two lists. -/
@[simp] theorem payloads_append (first second : List ResponsesEvent) :
    payloads (first ++ second) = payloads first ++ payloads second := List.map_append

/-- The payload of one event. -/
@[simp] theorem payloads_event (payload : ResponsesPayload) : payloads (emitter.event payload).2 = [payload] := rfl

/-- Stating events only draws sequence numbers. -/
theorem events_eq (stated : List ResponsesPayload) :
    (∃ sequence, (emitter.events stated).1 = { emitter with sequence }) ∧
    payloads (emitter.events stated).2 = stated := by
  induction stated generalizing emitter with
  | nil => exact ⟨⟨emitter.sequence, rfl⟩, rfl⟩
  | cons payload rest ih =>
    obtain ⟨⟨sequence, hfst⟩, hsnd⟩ := @ih (emitter.event payload).1
    refine ⟨⟨sequence, hfst⟩, ?_⟩
    unfold Emitter.events emitThen
    rw [payloads_append, payloads_event, hsnd]
    rfl

/-- Closing an item changes the items and nothing else. -/
theorem closeOpen_fst : ∃ sequence, emitter.closeOpen.1 = { emitter with
      current := none
      items := emitter.items ++ (emitter.current.map responsesDraftItem).toList
      sequence } := by
  unfold Emitter.closeOpen
  cases hcurrent : emitter.current with
  | none =>
    refine ⟨emitter.sequence, ?_⟩
    rw [Option.map_none, Option.toList_none, List.append_nil]
    dsimp only
    rw [← hcurrent]
  | some draft =>
    obtain ⟨⟨sequence, hfst⟩, -⟩ := @events_eq { emitter with current := none }
      (responsesDoneEvents (responsesDraftItem draft) draft.index)
    refine ⟨sequence + 1, ?_⟩
    simp only [emitThen, hfst]
    rfl

/-- What closing the open item tells. -/
theorem closeOpen_payloads : payloads emitter.closeOpen.2 = (emitter.current.map fun draft =>
    responsesDoneEvents (responsesDraftItem draft) draft.index ++
      [.outputItemDone draft.index (responsesItemJson (responsesDraftItem draft) .completed)]).getD [] := by
  unfold Emitter.closeOpen
  cases emitter.current with
  | none => rfl
  | some draft =>
    obtain ⟨-, hsnd⟩ := @events_eq { emitter with current := none }
      (responsesDoneEvents (responsesDraftItem draft) draft.index)
    simp only [emitThen, payloads_append, payloads_event, Option.map_some, Option.getD_some, hsnd]

/-- The open item is closed with all of its text. -/
theorem Told.closeOpen (h : Told emitter response said closed current) :
    Told emitter.closeOpen.1 response (said ++ payloads emitter.closeOpen.2) (closed ++ current.toList) none := by
  obtain ⟨sequence, hfst⟩ := @closeOpen_fst emitter
  rw [hfst, closeOpen_payloads, h.current]
  cases current with
  | none =>
    refine ⟨h.started, ?_, ?_, rfl⟩
    · simpa using h.said
    · simpa using h.items
  | some item =>
    refine ⟨h.started, ?_, ?_, rfl⟩
    · simp only [Option.map_some, Option.getD_some, Option.toList_some, Option.elim_none, List.append_nil]
      rw [h.said, itemsTranscript_append, Nat.zero_add]
      simp only [Option.elim_some, itemsTranscript, StreamedItem.transcript, List.append_nil, List.append_assoc]
      rw [← closing_eq]
      rfl
    · simp [h.items, json_eq]

/-- An item opens where none is open. -/
theorem Told.opened (h : Told emitter response said closed none) {next : Emitter} {item : StreamedItem}
    (hstarted : next.started = emitter.started) (hitems : next.items = emitter.items)
    (hcurrent : next.current = some (item.draft closed.length)) :
    Told next response (said ++ item.streamed closed.length) closed (some item) := by
  refine ⟨hstarted.trans h.started, ?_, ?_, hcurrent⟩
  · rw [h.said]
    simp
  · rw [hitems]
    exact h.items

/-- A piece goes to the open item. -/
theorem Told.pushed {item : StreamedItem} (h : Told emitter response said closed (some item)) {next : Emitter}
    (piece : Units) (hstarted : next.started = emitter.started) (hitems : next.items = emitter.items)
    (hcurrent : next.current =
      some { item.draft closed.length with text := (item.draft closed.length).text ++ piece }) :
    Told next response (said ++ [item.delta closed.length piece]) closed (some (item.push piece)) := by
  refine ⟨hstarted.trans h.started, ?_, ?_, ?_⟩
  · rw [h.said, Option.elim_some, Option.elim_some, streamed_push, List.append_assoc]
  · rw [hitems]
    exact h.items
  · rw [hcurrent, Option.map_some, draft_push]

/-- As many items are kept as were told. -/
theorem Told.length (h : Told emitter response said closed current) : emitter.items.length = closed.length := by
  simpa using congrArg List.length h.items

/-- A text item opens with its first piece. -/
theorem Told.openText (h : Told emitter response said closed current) (kind : FragmentKind) (delta : Units) :
    (∃ id, Told (emitter.openText kind delta).1 response (said ++ payloads (emitter.openText kind delta).2)
        (closed ++ current.toList) (some ⟨.text kind, id, [delta]⟩)) ∧
      (emitter.openText kind delta).1.terminated = emitter.terminated ∧
      (emitter.openText kind delta).1.toolItems = emitter.toolItems ∧
      (emitter.openText kind delta).1.pending = emitter.pending := by
  obtain ⟨sequence, hfst⟩ := @closeOpen_fst emitter
  have hclosed := h.closeOpen
  have hlength := hclosed.length
  refine ⟨⟨responsesItemId (.text kind) emitter.id (closed ++ current.toList).length, ?_⟩, ?_⟩
  · have hopened := @Told.opened _ _ _ _ hclosed (emitter.openText kind delta).1
      ⟨.text kind, responsesItemId (.text kind) emitter.id (closed ++ current.toList).length, [delta]⟩ rfl rfl (by
        simp only [Emitter.openText, emitThen, Emitter.appendText, Emitter.event, Emitter.draft, hlength]
        simp [StreamedItem.draft, StreamedItem.text, hfst])
    rw [List.append_assoc] at hopened
    have hsaid : payloads (emitter.openText kind delta).2 = payloads emitter.closeOpen.2 ++
        StreamedItem.streamed ⟨.text kind, responsesItemId (.text kind) emitter.id (closed ++ current.toList).length,
          [delta]⟩ (closed ++ current.toList).length := by
      simp only [Emitter.openText, emitThen, payloads_append, Emitter.appendText, Emitter.added, payloads_event,
        Emitter.draft, hlength]
      cases kind <;> simp [StreamedItem.streamed, StreamedItem.opening, StreamedItem.delta, hfst, responsesItemJson,
        responsesDraftItem]
    rw [hsaid]
    exact hopened
  · simp only [Emitter.openText, emitThen, Emitter.appendText, Emitter.event, Emitter.added, hfst, and_self]

/-- A call opens without arguments. -/
theorem Told.openCall (h : Told emitter response said closed current) (key : CallKey) (id name : Option Units) :
    (∃ itemId, Told (emitter.openCall key id name).1 response (said ++ payloads (emitter.openCall key id name).2)
        (closed ++ current.toList) (some ⟨.call key (id.getD []) (name.getD []), itemId, []⟩)) ∧
      (emitter.openCall key id name).1.terminated = emitter.terminated ∧
      (∃ index, (emitter.openCall key id name).1.toolItems = emitter.toolItems.set key index) ∧
      (emitter.openCall key id name).1.pending = emitter.pending := by
  obtain ⟨sequence, hfst⟩ := @closeOpen_fst emitter
  have hclosed := h.closeOpen
  have hlength := hclosed.length
  refine ⟨⟨responsesItemId .functionCall emitter.id (closed ++ current.toList).length, ?_⟩, ?_⟩
  · have hopened := @Told.opened _ _ _ _ hclosed (emitter.openCall key id name).1
      ⟨.call key (id.getD []) (name.getD []),
        responsesItemId .functionCall emitter.id (closed ++ current.toList).length, []⟩ rfl rfl (by
        simp only [Emitter.openCall, emitThen, Emitter.added, Emitter.event, Emitter.draft, hlength]
        simp [StreamedItem.draft, StreamedItem.text, hfst])
    rw [List.append_assoc] at hopened
    have hsaid : payloads (emitter.openCall key id name).2 = payloads emitter.closeOpen.2 ++
        StreamedItem.streamed ⟨.call key (id.getD []) (name.getD []),
          responsesItemId .functionCall emitter.id (closed ++ current.toList).length, []⟩
            (closed ++ current.toList).length := by
      simp only [Emitter.openCall, emitThen, payloads_append, Emitter.added, payloads_event, Emitter.draft, hlength]
      simp [StreamedItem.streamed, StreamedItem.opening, hfst, responsesItemJson, responsesDraftItem]
    rw [hsaid]
    exact hopened
  · simp only [Emitter.openCall, emitThen, Emitter.event, Emitter.added, hfst]
    exact ⟨trivial, ⟨_, rfl⟩, trivial⟩

/-- Arguments go to the open call. -/
theorem Told.callArgs {item : StreamedItem} (h : Told emitter response said closed (some item)) {key : CallKey}
    {callId name : Units} (hhead : item.head = .call key callId name) (arguments : Units) :
    Told (emitter.callArgs (item.draft closed.length) arguments).1 response
      (said ++ payloads (emitter.callArgs (item.draft closed.length) arguments).2) closed
      (some (item.push arguments)) := by
  have hpushed := @Told.pushed _ _ _ _ _ h
      (emitter.callArgs (item.draft closed.length) arguments).1 arguments rfl rfl rfl
  have hdelta : item.delta closed.length arguments = .argumentsDelta item.id closed.length arguments := by
    simp [StreamedItem.delta, hhead]
  rw [hdelta] at hpushed
  exact hpushed

/-- Text goes to the open item of its kind. -/
theorem Told.appendText {item : StreamedItem} (h : Told emitter response said closed (some item))
    {kind : FragmentKind} (hhead : item.head = .text kind) (delta : Units) :
    Told (emitter.appendText (item.draft closed.length) kind delta).1 response
      (said ++ payloads (emitter.appendText (item.draft closed.length) kind delta).2) closed
      (some (item.push delta)) := by
  have hpushed := @Told.pushed _ _ _ _ _ h (emitter.appendText (item.draft closed.length) kind delta).1
      delta rfl rfl rfl
  have hdelta : item.delta closed.length delta = .textDelta kind item.id closed.length delta := by
    simp [StreamedItem.delta, hhead]
  rw [hdelta] at hpushed
  exact hpushed

end Steps

/-- The calls of the table: none was seen, or the item of the first is open with its arguments so far and
the others wait with theirs. -/
inductive CallsKept (emitter : Emitter) : Option StreamedItem → List (CallKey × Units) → Prop
  | unseen {current : Option StreamedItem} (tools : emitter.toolItems = {}) (queue : emitter.pending.queue = [])
      (plain : current.toList.filterMap StreamedItem.call = []) : CallsKept emitter current []
  | streaming {item : StreamedItem} {key : CallKey} {callId name : Units} (head : item.head = .call key callId name)
      (tools : ∀ other, (emitter.toolItems.get other).isSome = true ↔ other = key)
      (nodup : (((key, item.text) :: queuedCalls emitter.pending.queue).map Prod.fst).Nodup) :
      CallsKept emitter (some item) ((key, item.text) :: queuedCalls emitter.pending.queue)

/-- What was said and what waits make up the calls. -/
structure Carries (emitter : Emitter) (said : List ResponsesPayload) (table : List (CallKey × Units))
    (response : ResponsesBody) (closed : List StreamedItem) (current : Option StreamedItem) : Prop where
  told : Told emitter response said closed current
  plain : closed.filterMap StreamedItem.call = []
  calls : CallsKept emitter current table

/-- A response that was completed, or stopped early. -/
def ResponsesPayload.completion : ResponsesPayload → Option ResponsesBody
  | .completed response | .incomplete response => some response
  | _ => none

/-- The queue was over its limit, behind an open call, and the response was not completed. -/
structure Lost (emitter : Emitter) (said : List ResponsesPayload) : Prop where
  terminated : emitter.terminated = true
  callOpen : emitter.callOpen = true
  unfinished : ∀ payload ∈ said, payload.completion = none

/-- The queue was over its limit, or the stream goes on and carries every call. -/
def Sound (emitter : Emitter) (said : List ResponsesPayload) (table : List (CallKey × Units)) : Prop :=
  Lost emitter said ∨
    emitter.terminated = false ∧ ∃ response closed current, Carries emitter said table response closed current

section Sound

variable {emitter : Emitter} {response : ResponsesBody} {said : List ResponsesPayload}
  {closed : List StreamedItem} {current : Option StreamedItem} {table : List (CallKey × Units)}

/-- What is streamed of an item completes nothing. -/
theorem streamed_unfinished (item : StreamedItem) (index : Nat) :
    ∀ payload ∈ item.streamed index, payload.completion = none := by
  obtain ⟨head, id, deltas⟩ := item
  intro payload hmem
  rcases List.mem_append.mp hmem with hopening | hdelta
  · rcases head with ⟨_ | _⟩ | ⟨key, callId, name⟩ <;>
      simp only [StreamedItem.opening, List.mem_cons, List.not_mem_nil, or_false] at hopening
    · rcases hopening with rfl | rfl <;> rfl
    · rcases hopening with rfl | rfl <;> rfl
    · rw [hopening]
      rfl
  · obtain ⟨piece, -, rfl⟩ := List.mem_map.mp hdelta
    cases head <;> rfl

/-- Nor does what closes it. -/
theorem closing_unfinished (item : StreamedItem) (index : Nat) :
    ∀ payload ∈ item.closing index, payload.completion = none := by
  obtain ⟨head, id, deltas⟩ := item
  intro payload hmem
  cases head <;> simp only [StreamedItem.closing, List.mem_append, List.mem_cons, List.not_mem_nil, or_false] at hmem
  · rcases hmem with (rfl | rfl) | rfl <;> rfl
  · rcases hmem with rfl | rfl <;> rfl

/-- Nor do all items. -/
theorem itemsTranscript_unfinished (index : Nat) (items : List StreamedItem) :
    ∀ payload ∈ itemsTranscript index items, payload.completion = none := by
  induction items generalizing index with
  | nil => exact List.forall_mem_nil _
  | cons item rest ih =>
    intro payload hmem
    rcases List.mem_append.mp hmem with hitem | hrest
    · rcases List.mem_append.mp hitem with hstreamed | hclosing
      · exact streamed_unfinished item index payload hstreamed
      · exact closing_unfinished item index payload hclosing
    · exact ih (index + 1) payload hrest

/-- Nothing that was told so far completes the response. -/
theorem Told.unfinished (h : Told emitter response said closed current) :
    ∀ payload ∈ said, payload.completion = none := by
  intro payload hmem
  rw [h.said] at hmem
  rcases List.mem_append.mp hmem with hclosed | hcurrent
  · rcases List.mem_append.mp hclosed with hopening | hitems
    · rcases List.mem_pair.mp hopening with rfl | rfl <;> rfl
    · exact itemsTranscript_unfinished 0 closed payload hitems
  · cases current with
    | none => exact absurd hcurrent List.not_mem_nil
    | some item => exact streamed_unfinished item _ payload hcurrent

/-- A call is open where the item told last is one. -/
theorem Told.callOpen (h : Told emitter response said closed current) :
    emitter.callOpen = (current.toList.filterMap StreamedItem.call).isEmpty.not := by
  unfold Emitter.callOpen
  rw [h.current]
  cases current with
  | none => rfl
  | some item =>
    obtain ⟨head, id, deltas⟩ := item
    cases head <;> rfl

/-- A queue over its limit. -/
theorem lost_overflow (hopen : emitter.callOpen = true) (hunfinished : ∀ payload ∈ said, payload.completion = none) :
    Lost emitter.overflow.1 (said ++ payloads emitter.overflow.2) := by
  refine ⟨rfl, hopen, ?_⟩
  intro payload hmem
  rcases List.mem_append.mp hmem with hsaid | herror
  · exact hunfinished payload hsaid
  · rw [List.mem_singleton.mp herror]
    rfl

/-- Something is put into the queue behind an open call. -/
theorem Carries.holdOr {item : StreamedItem} (h : Carries emitter said table response closed (some item))
    (hrunning : emitter.terminated = false) (hopen : emitter.callOpen = true) (held : Option PendingStreamBlocks)
    {next : List (CallKey × Units)}
    (hheld : ∀ pending, held = some pending → CallsKept { emitter with pending } (some item) next) :
    Sound (emitter.holdOr held).1 (said ++ payloads (emitter.holdOr held).2) next := by
  cases held with
  | none => exact .inl (lost_overflow hopen h.told.unfinished)
  | some pending =>
    refine .inr ⟨hrunning, response, closed, some item, ?_, h.plain, hheld pending rfl⟩
    rw [Emitter.holdOr, payloads_nil, List.append_nil]
    exact ⟨h.told.started, h.told.said, h.told.items, h.told.current⟩

/-- Text of a stream that was lost. -/
theorem Lost.streamText (h : Lost emitter said) (kind : FragmentKind) (delta : Units) :
    Lost (emitter.streamText kind delta).1 (said ++ payloads (emitter.streamText kind delta).2) := by
  rw [streamText_callOpen h.callOpen]
  split_ifs
  · exact lost_overflow h.callOpen h.unfinished
  · rw [payloads_nil, List.append_nil]
    exact h
  · rw [payloads_nil, List.append_nil]
    exact ⟨h.terminated, h.callOpen, h.unfinished⟩

/-- Text joins the open item, opens one, or waits. -/
theorem Carries.streamText (h : Carries emitter said table response closed current)
    (hrunning : emitter.terminated = false) (kind : FragmentKind) (delta : Units) :
    Sound (emitter.streamText kind delta).1 (said ++ payloads (emitter.streamText kind delta).2) table := by
  unfold Emitter.streamText
  split
  · rw [payloads_nil, List.append_nil]
    exact .inr ⟨hrunning, response, closed, current, h⟩
  · obtain ⟨htold, hplain, hcalls⟩ := h
    cases hcalls with
    | streaming head tools nodup =>
      have hopen : emitter.callOpen = true := by simp [htold.callOpen, StreamedItem.call, head]
      rw [if_pos hopen]
      refine Carries.holdOr ⟨htold, hplain, .streaming head tools nodup⟩ hrunning hopen _ fun pending hpending => ?_
      have hqueue := (pending_text hpending).1
      rw [← hqueue] at nodup ⊢
      exact .streaming head tools nodup
    | unseen tools queue plain =>
      have hopen : emitter.callOpen = false := by rw [htold.callOpen, plain]; rfl
      rw [if_neg (by simp [hopen])]
      split
      · next draft hdraft =>
        obtain ⟨hcurrent, hkind⟩ := Option.filter_eq_some_iff.mp hdraft
        rw [htold.current] at hcurrent
        obtain ⟨item, rfl, rfl⟩ := Option.map_eq_some_iff.mp hcurrent
        have hhead : item.head = .text kind := by
          obtain ⟨head, id, deltas⟩ := item
          cases head with
          | text held => simpa [StreamedItem.draft] using hkind
          | call key callId name => simp [StreamedItem.draft] at hkind
        refine .inr ⟨hrunning, response, closed, some (item.push delta), htold.appendText hhead delta, hplain,
          .unseen tools queue ?_⟩
        simp [StreamedItem.push, StreamedItem.call, hhead]
      · obtain ⟨⟨id, hopened⟩, hterminated, htools, hpending⟩ := htold.openText kind delta
        refine .inr ⟨hterminated.trans hrunning, response, _, _, hopened, ?_, .unseen (htools.trans tools) ?_ rfl⟩
        · rw [List.filterMap_append, hplain, plain]
          rfl
        · rw [hpending]
          exact queue

/-- Text keeps the emitter sound. -/
theorem Sound.streamText (h : Sound emitter said table) (kind : FragmentKind) (delta : Units) :
    Sound (emitter.streamText kind delta).1 (said ++ payloads (emitter.streamText kind delta).2) table := by
  rcases h with hlost | ⟨hrunning, response, closed, current, hcarries⟩
  · exact .inl (hlost.streamText kind delta)
  · exact hcarries.streamText hrunning kind delta

/-- A call is seen: its item opens, or it waits without arguments. -/
theorem Carries.toolStart (h : Carries emitter said table response closed current)
    (hrunning : emitter.terminated = false) (key : CallKey) (id name : Option Units) :
    Sound (emitter.toolStart key id name).1 (said ++ payloads (emitter.toolStart key id name).2)
      (joinAt table (key, [])) := by
  unfold Emitter.toolStart
  rw [if_neg (by simp [hrunning])]
  obtain ⟨htold, hplain, hcalls⟩ := h
  cases hcalls with
  | unseen tools queue plain =>
    have hopen : emitter.callOpen = false := by rw [htold.callOpen, plain]; rfl
    rw [if_neg (by simp [tools]), if_neg (by simp [hopen])]
    obtain ⟨⟨itemId, hopened⟩, hterminated, ⟨index, htools⟩, hpending⟩ := htold.openCall key id name
    refine .inr ⟨hterminated.trans hrunning, response, _, _, hopened, ?_, ?_⟩
    · rw [List.filterMap_append, hplain, plain]
      rfl
    · have hqueue : queuedCalls (emitter.openCall key id name).1.pending.queue = [] := by
        rw [hpending, queue]
        rfl
      have hkept := @CallsKept.streaming (emitter.openCall key id name).1
        ⟨.call key (id.getD []) (name.getD []), itemId, []⟩ key (id.getD []) (name.getD []) rfl
        (fun other => by rw [htools, tools, InsertionMap.get_set]; split <;> simp [*]) (by simp [hqueue])
      rw [hqueue] at hkept
      exact hkept
  | @streaming item first callId callName head tools nodup =>
    have hopen : emitter.callOpen = true := by simp [htold.callOpen, StreamedItem.call, head]
    by_cases hkey : key = first
    · rw [if_pos ((tools key).mpr hkey), payloads_nil, List.append_nil, joinAt_of_mem (by simp [hkey]), appendAt_nil]
      exact .inr ⟨hrunning, response, closed, some item, htold, hplain, .streaming head tools nodup⟩
    · rw [if_neg (fun h => hkey ((tools key).mp h)), if_pos hopen]
      refine Carries.holdOr ⟨htold, hplain, .streaming head tools nodup⟩ hrunning hopen _ fun pending hpending => ?_
      have hqueue := (pending_add hpending).1
      have hnodup := nodup_joinAt nodup (key, [])
      rw [joinAt_cons_of_ne (Ne.symm hkey), ← hqueue] at hnodup ⊢
      exact .streaming head tools hnodup

/-- Arguments of a call that was seen: its item is open, or it waits. -/
theorem Carries.toolArgs (h : Carries emitter said table response closed current)
    (hrunning : emitter.terminated = false) {key : CallKey} (hseen : key ∈ table.map Prod.fst) (arguments : Units) :
    Sound (emitter.toolArgs key arguments).1 (said ++ payloads (emitter.toolArgs key arguments).2)
      (appendAt key arguments table) := by
  unfold Emitter.toolArgs
  rw [hrunning, Bool.false_or]
  split
  · next hempty =>
    rw [List.isEmpty_iff.mp hempty, payloads_nil, List.append_nil, appendAt_nil]
    exact .inr ⟨hrunning, response, closed, current, h⟩
  · obtain ⟨htold, hplain, hcalls⟩ := h
    cases hcalls with
    | unseen tools queue plain => simp at hseen
    | @streaming item first callId callName head tools nodup =>
      have hopen : emitter.callOpen = true := by simp [htold.callOpen, StreamedItem.call, head]
      have hdraft : (item.draft closed.length).key = some first := by simp [StreamedItem.draft, head]
      rw [List.map_cons, List.nodup_cons] at nodup
      rw [htold.current, Option.map_some]
      by_cases hkey : key = first
      · subst hkey
        rw [Option.filter_some_pos (by simp [hdraft]), appendAt_cons_self, appendAt_of_notMem _ nodup.1]
        refine .inr ⟨hrunning, response, closed, some (item.push arguments), htold.callArgs head arguments, hplain, ?_⟩
        have htext : (item.push arguments).text = item.text ++ arguments := by
          simp [StreamedItem.push, StreamedItem.text]
        rw [← htext]
        exact @CallsKept.streaming (emitter.callArgs (item.draft closed.length) arguments).1 (item.push arguments) key
          callId callName head tools (List.nodup_cons.mpr nodup)
      · rw [Option.filter_some_neg (by simp [hdraft, Ne.symm hkey])]
        refine Carries.holdOr ⟨htold, hplain, .streaming head tools (List.nodup_cons.mpr nodup)⟩ hrunning hopen _
          fun pending hpending => ?_
        have hqueue := (pending_append nodup.2 hpending).1
        rw [appendAt_cons_of_ne (Ne.symm hkey), ← hqueue]
        refine .streaming head tools (List.nodup_cons.mpr ?_)
        rw [hqueue, appendAt_keys]
        exact nodup

/-- An entry of `tool_calls` goes to the row of its call. -/
theorem Sound.toolCall (h : Sound emitter said table) (keyed : CallKey × ToolCallDelta) :
    Sound (ChatReader.toolCall emitter keyed).1 (said ++ payloads (ChatReader.toolCall emitter keyed).2)
      (joinAt table (keyed.1, keyed.2.arguments.getD [])) := by
  unfold ChatReader.toolCall emitThen
  rw [payloads_append, ← List.append_assoc]
  have hover : ∀ {emitter : Emitter} {said : List ResponsesPayload}, Lost emitter said →
      Sound (emitter.toolArgs keyed.1 (keyed.2.arguments.getD [])).1
        (said ++ payloads (emitter.toolArgs keyed.1 (keyed.2.arguments.getD [])).2)
        (joinAt table (keyed.1, keyed.2.arguments.getD [])) := by
    intro emitter said hlost
    rw [Emitter.toolArgs, hlost.terminated, Bool.true_or, if_pos rfl, payloads_nil, List.append_nil]
    exact .inl hlost
  rcases h with hlost | ⟨hrunning, response, closed, current, hcarries⟩
  · rw [Emitter.toolStart, hlost.terminated, if_pos rfl, payloads_nil, List.append_nil]
    exact hover hlost
  · rcases hcarries.toolStart hrunning keyed.1 keyed.2.id keyed.2.name with hlost | ⟨hstill, _, _, _, hseen⟩
    · exact hover hlost
    · rw [joinAt_eq]
      exact hseen.toolArgs hstill (mem_joinAt.mpr (.inr rfl)) _

/-- So do the pieces of calls. -/
theorem Sound.toolCalls (h : Sound emitter said table) (keyed : List (CallKey × ToolCallDelta)) :
    Sound (emitFrom ChatReader.toolCall emitter keyed).1
      (said ++ payloads (emitFrom ChatReader.toolCall emitter keyed).2)
      ((keyed.map fun entry => (entry.1, entry.2.arguments.getD [])).foldl joinAt table) := by
  induction keyed generalizing emitter said table with
  | nil => simpa using h
  | cons entry rest ih =>
    have hrest := ih (h.toolCall entry)
    rw [List.append_assoc, ← payloads_append] at hrest
    exact hrest

end Sound

/-- Nothing was said yet and nothing waits. -/
structure Fresh (emitter : Emitter) : Prop where
  started : emitter.started = false
  items : emitter.items = []
  current : emitter.current = none
  tools : emitter.toolItems = {}
  queue : emitter.pending.queue = []

/-- The stream has not begun, or carries every call. -/
def Standing (emitter : Emitter) (said : List ResponsesPayload) (table : List (CallKey × Units)) : Prop :=
  (Fresh emitter ∧ said = [] ∧ table = []) ∨
    ∃ response closed current, Carries emitter said table response closed current

section Standing

variable {emitter : Emitter} {response : ResponsesBody} {said : List ResponsesPayload}
  {closed : List StreamedItem} {current : Option StreamedItem} {table : List (CallKey × Units)}

/-- A stream that stands is not completed. -/
theorem Standing.unfinished (h : Standing emitter said table) : ∀ payload ∈ said, payload.completion = none := by
  rcases h with ⟨-, rfl, -⟩ | ⟨response, closed, current, hcarries⟩
  · exact List.forall_mem_nil _
  · exact hcarries.told.unfinished

/-- The opening pair comes first, once. -/
theorem Standing.start (h : Standing emitter said table) : ∃ response closed current,
    Carries emitter.start.1 (said ++ payloads emitter.start.2) table response closed current := by
  unfold Emitter.start
  rcases h with ⟨hfresh, rfl, rfl⟩ | ⟨response, closed, current, hcarries⟩
  · rw [hfresh.started, if_neg Bool.false_ne_true]
    refine ⟨emitter.body .inProgress none none none, [], none, ⟨rfl, rfl, ?_, hfresh.current⟩, rfl,
      .unseen hfresh.tools hfresh.queue rfl⟩
    change emitter.items.map _ = _
    rw [hfresh.items]
    rfl
  · rw [if_pos hcarries.told.started, payloads_nil, List.append_nil]
    exact ⟨response, closed, current, hcarries⟩

/-- What stands does not depend on the names, nor on the end. -/
theorem Standing.same (h : Standing emitter said table) (id model : Units) (terminated : Bool) :
    Standing { emitter with id, model, terminated } said table := by
  rcases h with ⟨hfresh, hsaid, htable⟩ | ⟨response, closed, current, htold, hplain, hcalls⟩
  · exact .inl ⟨⟨hfresh.started, hfresh.items, hfresh.current, hfresh.tools, hfresh.queue⟩, hsaid, htable⟩
  · refine .inr ⟨response, closed, current, ⟨htold.started, htold.said, htold.items, htold.current⟩, hplain, ?_⟩
    cases hcalls with
    | unseen tools queue plain => exact .unseen tools queue plain
    | streaming head tools nodup =>
      exact @CallsKept.streaming { emitter with id, model, terminated } _ _ _ _ head tools nodup

/-- The upstream names the response. -/
theorem Standing.identify (h : Standing emitter said table) (id model : Option Units) :
    Standing (emitter.identify id model) said table := h.same _ _ emitter.terminated

/-- Behind the calls none is open. -/
theorem Carries.callOpen (h : Carries emitter said [] response closed current) : emitter.callOpen = false := by
  obtain ⟨htold, -, hcalls⟩ := h
  cases hcalls with
  | unseen tools queue plain => rw [htold.callOpen, plain]; rfl

/-- Where no call was seen, closing closes the open item and no other. -/
theorem Carries.closeItem (h : Carries emitter said [] response closed current) :
    Carries emitter.closeItem.1 (said ++ payloads emitter.closeItem.2) [] response (closed ++ current.toList) none := by
  obtain ⟨htold, hplain, hcalls⟩ := h
  obtain ⟨sequence, hfst⟩ := @closeOpen_fst emitter
  cases hcalls with
  | unseen tools queue plain =>
    have hpending : emitter.closeOpen.1.pending.queue = [] := by rw [hfst]; exact queue
    have hitem : emitter.closeItem =
        ({ emitter.closeOpen.1 with pending := emitter.closeOpen.1.pending.drained }, emitter.closeOpen.2) := by
      simp only [Emitter.closeItem, emitThen, hpending, emitFrom_nil, List.append_nil]
    have hclosed := htold.closeOpen
    rw [hitem]
    refine ⟨⟨hclosed.started, hclosed.said, hclosed.items, hclosed.current⟩, ?_, .unseen ?_ rfl rfl⟩
    · rw [List.filterMap_append, hplain, plain]
      rfl
    · change emitter.closeOpen.1.toolItems = {}
      rw [hfst]
      exact tools

/-- A choice: each of its calls goes to its row. -/
theorem Standing.choice (h : Standing emitter said table) (hrunning : emitter.terminated = false) (choice : ChatChoice)
    (keyed : List (CallKey × ToolCallDelta)) {hasToolCalls : Bool}
    (hplain : hasToolCalls = false → keyed = [] ∧ table = []) :
    Sound (ChatReader.choiceEvents emitter choice keyed hasToolCalls).1
      (said ++ payloads (ChatReader.choiceEvents emitter choice keyed hasToolCalls).2)
      ((keyed.map fun entry => (entry.1, entry.2.arguments.getD [])).foldl joinAt table) := by
  obtain ⟨response, closed, current, hcarries⟩ := h.start
  have hstarted : emitter.start.1.terminated = false := quiet_start.ended.trans hrunning
  have htexts := (Sound.streamText (.inr ⟨hstarted, response, closed, current, hcarries⟩) .reasoning
    choice.reasoning).streamText .message choice.content
  have hcalled := htexts.toolCalls keyed
  simp only [ChatReader.choiceEvents, emitThen, payloads_append, ← List.append_assoc]
  split
  · next hcloses =>
    rw [Bool.and_eq_true, Bool.not_eq_true'] at hcloses
    obtain ⟨rfl, rfl⟩ := hplain hcloses.2
    have hopen := hcarries.callOpen
    rcases htexts with hlost | ⟨hstill, _, _, _, hsaid⟩
    · -- Without an open call no text waits, so nothing overflows.
      have hcall := hlost.callOpen
      rw [callOpen_streamText, callOpen_streamText, hopen] at hcall
      cases hcall
    · simp only [emitFrom_nil, payloads_nil, List.append_nil]
      exact .inr ⟨quiet_closeItem.1.ended.trans hstill, _, _, _, hsaid.closeItem⟩
  · simpa using hcalled

/-- A block that waited becomes an item, in full. -/
theorem Told.replay (h : Told emitter response said closed none) (block : PendingStreamBlock) :
    ∃ more, Told (emitter.replay block).1 response (said ++ payloads (emitter.replay block).2) (closed ++ more) none ∧
      more.filterMap StreamedItem.call = queuedCalls [block] := by
  cases block with
  | text text kind startsNewBlock charged =>
    simp only [Emitter.replay, emitThen, payloads_append, ← List.append_assoc]
    have hopen : emitter.callOpen = false := by rw [h.callOpen]; rfl
    have hnone : emitter.current = none := h.current
    unfold Emitter.streamText
    rw [hopen, hnone]
    split
    · refine ⟨[], ?_, rfl⟩
      have hclosed := h.closeOpen
      simpa using hclosed
    · obtain ⟨⟨id, hopened⟩, -⟩ := h.openText kind text
      refine ⟨[⟨.text kind, id, [text]⟩], ?_, rfl⟩
      have hclosed := hopened.closeOpen
      rw [Option.toList_none, List.append_nil] at hclosed
      exact hclosed
  | call call =>
    simp only [Emitter.replay, emitThen, payloads_append, ← List.append_assoc]
    obtain ⟨⟨itemId, hopened⟩, -⟩ := h.openCall call.key call.id call.name
    have hcurrent := hopened.current
    simp only [Emitter.replayCall, emitThen, hcurrent, Option.map_some, payloads_append, ← List.append_assoc]
    split
    · next hempty =>
      refine ⟨[⟨.call call.key (call.id.getD []) (call.name.getD []), itemId, []⟩], ?_, ?_⟩
      · have hclosed := hopened.closeOpen
        simpa using hclosed
      · simp [StreamedItem.call, StreamedItem.text, queuedCalls, List.isEmpty_iff.mp hempty]
    · refine ⟨[⟨.call call.key (call.id.getD []) (call.name.getD []), itemId, [call.args]⟩], ?_, ?_⟩
      · have hclosed := (hopened.callArgs rfl call.args).closeOpen
        simpa [StreamedItem.push] using hclosed
      · simp [StreamedItem.call, StreamedItem.text, queuedCalls]

/-- The queue is told when it is replayed. -/
theorem Told.replayAll (h : Told emitter response said closed none) (queue : List PendingStreamBlock) :
    ∃ more, Told (emitFrom Emitter.replay emitter queue).1 response
        (said ++ payloads (emitFrom Emitter.replay emitter queue).2) (closed ++ more) none ∧
      more.filterMap StreamedItem.call = queuedCalls queue := by
  induction queue generalizing emitter said closed with
  | nil => exact ⟨[], by simpa using h, rfl⟩
  | cons block rest ih =>
    obtain ⟨first, hfirst, hcalls⟩ := h.replay block
    obtain ⟨later, hlater, hrest⟩ := ih hfirst
    refine ⟨first ++ later, ?_, ?_⟩
    · rw [emitFrom_cons, payloads_append]
      simpa using hlater
    · rw [List.filterMap_append, hcalls, hrest, ← queuedCalls_append]
      rfl

/-- The calls that are open and those that wait are the rows of the table. -/
theorem CallsKept.rows (h : CallsKept emitter current table) :
    current.toList.filterMap StreamedItem.call ++ queuedCalls emitter.pending.queue = table := by
  cases h with
  | unseen tools queue plain => rw [plain, queue]; rfl
  | streaming head tools nodup => simp [StreamedItem.call, head]

/-- The transcript of a response that ended: its items, each in full, and the response that restates them. -/
def Restated (said : List ResponsesPayload) (calls : List (CallKey × Units)) : Prop :=
  ∃ response items ending final,
    said = [.created response, .inProgress response] ++ itemsTranscript 0 items ++ [ending] ∧
      ending.completion = some final ∧ final.output = items.map StreamedItem.json ∧
      items.filterMap StreamedItem.call = calls

/-- Closing closes the open item, and makes an item of each block that waits. -/
theorem Carries.closeAll (h : Carries emitter said table response closed current) :
    ∃ items, Told emitter.closeItem.1 response (said ++ payloads emitter.closeItem.2) items none ∧
      items.filterMap StreamedItem.call = table := by
  obtain ⟨htold, hplain, hcalls⟩ := h
  obtain ⟨sequence, hfst⟩ := @closeOpen_fst emitter
  have hclosed := htold.closeOpen
  have hdrained : Told { emitter.closeOpen.1 with pending := emitter.closeOpen.1.pending.drained } response
      (said ++ payloads emitter.closeOpen.2) (closed ++ current.toList) none :=
    ⟨hclosed.started, hclosed.said, hclosed.items, hclosed.current⟩
  obtain ⟨more, hmore, hqueued⟩ := hdrained.replayAll emitter.closeOpen.1.pending.queue
  refine ⟨closed ++ current.toList ++ more, ?_, ?_⟩
  · simp only [Emitter.closeItem, emitThen, payloads_append, ← List.append_assoc]
    exact hmore
  · have hpending : emitter.closeOpen.1.pending.queue = emitter.pending.queue := by rw [hfst]
    rw [List.filterMap_append, List.filterMap_append, hplain, hqueued, hpending, List.nil_append]
    exact hcalls.rows

/-- The ending closes all items and restates them. -/
theorem Standing.complete (h : Standing emitter said table) (hrunning : emitter.terminated = false)
    (ending : ResponsesStreamEnd) : Restated (said ++ payloads (emitter.complete ending).2) table := by
  have hending : Standing { emitter with terminated := true } said table := h.same _ _ true
  obtain ⟨response, closed, current, hcarries⟩ := hending.start
  obtain ⟨items, htold, hcalls⟩ := hcarries.closeAll
  have hsaid := htold.said
  rw [Option.elim_none, List.append_nil] at hsaid
  rw [Emitter.complete, if_neg (by simp [hrunning])]
  simp only [emitThen, payloads_append, ← List.append_assoc]
  rw [hsaid]
  have houtput : ∀ status, status ≠ .inProgress → ∀ reason usage,
      ({ emitter with terminated := true }.start.1.closeItem.1.body status reason usage none).output =
        items.map StreamedItem.json := by
    intro status hstatus reason usage
    rw [Emitter.body, if_neg hstatus]
    exact htold.items
  split
  · exact ⟨response, items, _, _, rfl, rfl, houtput .incomplete (by decide) _ _, hcalls⟩
  · exact ⟨response, items, _, _, rfl, rfl, houtput .completed (by decide) _ _, hcalls⟩

end Standing

namespace ChatReader

variable {Usage : Type} (source : ChatSource Usage) {said : List ResponsesPayload} {choices : List ChatChoice}

/-- The reader has told or holds what the choices state. -/
structure Kept (reader : ChatReader Usage) (said : List ResponsesPayload) (choices : List ChatChoice) : Prop where
  running : reader.emitter.terminated = false
  standing : Standing reader.emitter said ((keyedArguments choices).foldl joinAt [])
  toolCalls : reader.toolCalls = (({} : ToolCallReader).keys (choices.flatMap ChatChoice.toolCalls)).1
  hasToolCalls : reader.hasToolCalls = !(choices.flatMap ChatChoice.toolCalls).isEmpty

/-- The queue was over its limit, or nothing is missing. -/
def KeptOrLost (reader : ChatReader Usage) (said : List ResponsesPayload) (choices : List ChatChoice) : Prop :=
  Lost reader.emitter said ∨ Kept reader said choices

/-- A chunk. -/
theorem Kept.pushChunk {reader : ChatReader Usage} (h : Kept reader said choices) (chunk : ChatChunk) :
    KeptOrLost (reader.pushChunk source chunk).1 (said ++ payloads (reader.pushChunk source chunk).2)
      (choices ++ chunk.choice.toList) := by
  have hnamed := h.standing.identify chunk.id chunk.model
  unfold ChatReader.pushChunk
  dsimp only
  cases chunk.choice with
  | none =>
    simp only [Option.toList_none, List.append_nil, payloads_nil]
    exact .inr ⟨h.running, hnamed, h.toolCalls, h.hasToolCalls⟩
  | some choice =>
    have hplain : (reader.hasToolCalls || !choice.toolCalls.isEmpty) = false →
        (reader.toolCalls.keys choice.toolCalls).2 = [] ∧ (keyedArguments choices).foldl joinAt [] = [] := by
      intro hnone
      rw [h.hasToolCalls, Bool.or_eq_false_iff, Bool.not_eq_false', Bool.not_eq_false', List.isEmpty_iff,
        List.isEmpty_iff] at hnone
      refine ⟨(Anthropic.ChatReader.keys_nil_iff ..).mpr hnone.2, ?_⟩
      rw [keyedArguments, hnone.1]
      rfl
    have hkeys := Anthropic.ChatReader.keys_append {} (choices.flatMap ChatChoice.toolCalls) choice.toolCalls
    rw [← h.toolCalls] at hkeys
    rcases hnamed.choice h.running choice (reader.toolCalls.keys choice.toolCalls).2 hplain with
      hlost | ⟨hrunning, hcarries⟩
    · exact .inl hlost
    · refine .inr ⟨hrunning, ?_, ?_, ?_⟩
      · refine .inr ?_
        simpa [keyedArguments, hkeys, List.foldl_append] using hcarries
      · simp [hkeys]
      · simp only [h.hasToolCalls, Option.toList_some, List.flatMap_append, List.flatMap_singleton]
        cases choices.flatMap ChatChoice.toolCalls <;> rfl

/-- A frame that goes on. -/
theorem KeptOrLost.push {reader : ChatReader Usage} (h : KeptOrLost reader said choices) (frame : SseFrame)
    (hframe : (readChatFrame source.parseJson frame).goesOn = true) :
    KeptOrLost (reader.push source frame).1 (said ++ payloads (reader.push source frame).2)
      (choices ++ (readChatFrame source.parseJson frame).choice.toList) := by
  unfold ChatReader.push
  rcases h with hlost | hkept
  · rw [if_pos hlost.terminated, payloads_nil, List.append_nil]
    exact .inl hlost
  · rw [if_neg (by simp [hkept.running])]
    cases hread : readChatFrame source.parseJson frame with
    | done => simp [hread, ChatFrame.goesOn] at hframe
    | failed payload => simp [hread, ChatFrame.goesOn] at hframe
    | chunk chunk => exact hkept.pushChunk source chunk
    | unreadable =>
      refine .inr ?_
      simpa [ChatFrame.choice] using hkept

/-- Frames that go on. -/
theorem KeptOrLost.pushAll (frames : List SseFrame) {reader : ChatReader Usage} (h : KeptOrLost reader said choices)
    (hframes : ∀ frame ∈ frames, (readChatFrame source.parseJson frame).goesOn = true) :
    KeptOrLost (emitFrom (ChatReader.push source) reader frames).1
      (said ++ payloads (emitFrom (ChatReader.push source) reader frames).2)
      (choices ++ readChoices source.parseJson frames) := by
  induction frames generalizing reader said choices with
  | nil => simpa [readChoices] using h
  | cons frame rest ih =>
    have hnext := ih (h.push source frame (hframes frame (List.mem_cons_self ..))) fun other hother =>
      hframes other (List.mem_cons_of_mem _ hother)
    rw [readChoices_cons, emitFrom_cons, payloads_append, ← List.append_assoc, ← List.append_assoc]
    exact hnext

/-- A stream that is over says nothing more. -/
theorem pushAll_terminated (frames : List SseFrame) {reader : ChatReader Usage}
    (h : reader.emitter.terminated = true) : emitFrom (ChatReader.push source) reader frames = (reader, []) := by
  induction frames with
  | nil => rfl
  | cons frame rest ih =>
    have hpush : reader.push source frame = (reader, []) := by rw [ChatReader.push, if_pos h]
    rw [emitFrom_cons, hpush, ih]
    rfl

/-- Terminated, the flush tells nothing. -/
theorem flush_terminated {reader : ChatReader Usage} (h : reader.emitter.terminated = true) :
    reader.flush source = (reader, []) := by
  rw [ChatReader.flush, h, Bool.true_or, if_pos rfl]

/-- Terminating terminates. -/
theorem terminate_terminated (reader : ChatReader Usage) : (reader.terminate source).1.emitter.terminated = true := by
  simp only [terminate, Emitter.complete]
  split
  · next hterminated => exact hterminated
  · have hclosed : Quiet (emitThen { reader.emitter with terminated := true }.start Emitter.closeItem)
        ⟨reader.emitter.sequence, true⟩ := Quiet.then quiet_start quiet_closeItem.1
    have hended := hclosed.ended
    simp only [emitThen] at hended ⊢
    split <;> exact hended

/-- The ending states all that waits. -/
theorem Kept.terminate {reader : ChatReader Usage} (h : Kept reader said choices) :
    Restated (said ++ payloads (reader.terminate source).2)
      ((firstSeen (keyedArguments choices)).map fun key => (key, joined (keyedArguments choices) key)) := by
  rw [← foldl_joinAt]
  exact h.standing.complete h.running _

/-- From the frame that ends or fails the stream on: it was not completed, or everything was restated. -/
theorem KeptOrLost.ended {reader : ChatReader Usage} (h : KeptOrLost reader said choices) (rest : List SseFrame)
    (hrest : ∀ frame ∈ rest.head?, (readChatFrame source.parseJson frame).goesOn = false) :
    (∀ payload ∈ said ++ payloads (emitThen (emitFrom (ChatReader.push source) reader rest) (flush source)).2,
        payload.completion = none) ∨
      Restated (said ++ payloads (emitThen (emitFrom (ChatReader.push source) reader rest) (flush source)).2)
        ((firstSeen (keyedArguments choices)).map fun key => (key, joined (keyedArguments choices) key)) := by
  rcases h with hlost | hkept
  · simp only [emitThen, pushAll_terminated source rest hlost.terminated, flush_terminated source hlost.terminated,
      List.append_nil, payloads_nil]
    exact .inl hlost.unfinished
  · cases rest with
    | nil =>
      simp only [emitThen, emitFrom_nil, List.nil_append, ChatReader.flush, hkept.running, Bool.false_or]
      split
      · rw [payloads_nil, List.append_nil]
        exact .inl hkept.standing.unfinished
      · exact .inr (hkept.terminate source)
    | cons frame rest =>
      have hstops := hrest frame rfl
      rw [emitFrom_cons, ChatReader.push, if_neg (by simp [hkept.running])]
      cases hread : readChatFrame source.parseJson frame with
      | chunk chunk => simp [hread, ChatFrame.goesOn] at hstops
      | unreadable => simp [hread, ChatFrame.goesOn] at hstops
      | done =>
        have hover := terminate_terminated source reader
        simp only [emitThen, pushAll_terminated source rest hover, flush_terminated source hover, List.append_nil]
        exact .inr (hkept.terminate source)
      | failed payload =>
        have hover : ({ reader with emitter := (reader.emitter.fail (source.errorDetail payload)).1 } :
          ChatReader Usage).emitter.terminated = true := rfl
        simp only [emitThen, pushAll_terminated source rest hover, flush_terminated source hover, List.append_nil]
        refine .inl fun stated hmem => ?_
        rcases List.mem_append.mp hmem with hsaid | hfailed
        · exact hkept.standing.unfinished stated hsaid
        · rw [List.mem_singleton.mp hfailed]
          rfl

end ChatReader

/-- The frames before the one that ends or fails the stream. -/
def liveFrames (parseJson : Units → Option Value) (frames : List SseFrame) : List SseFrame :=
  frames.takeWhile fun frame => (readChatFrame parseJson frame).goesOn

/-- A completed stream says the same thing three times: each item is added, filled and closed before the next,
with its deltas joined; the final response restates them in order; and the calls are those of the upstream,
each with all of its arguments. -/
theorem responses_stream_consistent {Usage : Type} (source : ChatSource Usage) (id model : Units) (created : Int)
    (limit : Nat) (frames : List SseFrame)
    (hcompleted : ∃ event ∈ ChatReader.events source id model created limit frames,
      event.payload.completion.isSome = true) :
    Restated (payloads (ChatReader.events source id model created limit frames))
      ((firstSeen (keyedArguments (readChoices source.parseJson (liveFrames source.parseJson frames)))).map fun key =>
        (key, joined (keyedArguments (readChoices source.parseJson (liveFrames source.parseJson frames))) key)) := by
  have hbegin : ChatReader.Kept (ChatReader.begin id model created limit : ChatReader Usage) [] [] :=
    ⟨rfl, .inl ⟨⟨rfl, rfl, rfl, rfl, rfl⟩, rfl, rfl⟩, rfl, rfl⟩
  have hlive := ChatReader.KeptOrLost.pushAll source (liveFrames source.parseJson frames) (.inr hbegin)
    fun frame hmem => List.all_eq_true.mp List.all_takeWhile frame hmem
  have hended := hlive.ended source (frames.dropWhile fun frame => (readChatFrame source.parseJson frame).goesOn)
    fun frame hmem => by
      have hhead := List.head?_dropWhile_not (fun frame => (readChatFrame source.parseJson frame).goesOn) frames
      rw [Option.mem_def.mp hmem] at hhead
      exact hhead
  have hevents : ChatReader.events source id model created limit frames =
      (emitFrom (ChatReader.push source) (ChatReader.begin id model created limit)
          (liveFrames source.parseJson frames)).2 ++
        (emitThen (emitFrom (ChatReader.push source)
          (emitFrom (ChatReader.push source) (ChatReader.begin id model created limit)
            (liveFrames source.parseJson frames)).1
          (frames.dropWhile fun frame => (readChatFrame source.parseJson frame).goesOn))
          (ChatReader.flush source)).2 := by
    have hrun := emitFrom_append (ChatReader.push source) (ChatReader.begin id model created limit)
      (liveFrames source.parseJson frames)
      (frames.dropWhile fun frame => (readChatFrame source.parseJson frame).goesOn)
    rw [liveFrames, List.takeWhile_append_dropWhile] at hrun
    simp only [ChatReader.events, emitThen, hrun, liveFrames, List.append_assoc]
  rw [List.nil_append, List.nil_append, ← payloads_append, ← hevents] at hended
  refine hended.resolve_left fun hnone => ?_
  obtain ⟨event, hmem, hsome⟩ := hcompleted
  rw [hnone _ (List.mem_map_of_mem hmem)] at hsome
  cases hsome

/-- How the payloads of two calls that interleave are read. -/
def interleavedResponses : ChatSource Unit where
  parseJson := interleavedSource.parseJson
  parseUsage _ := none
  responsesUsage _ := none
  errorDetail _ := { code := none, message := [] }

/-- The second call waits for the first one's item, and the text behind both. -/
theorem interleaved_calls_consistent :
    Restated (payloads (ChatReader.events interleavedResponses [] [] 0 4096 interleavedFrames))
      [(.number 0, asciiUnits "13"), (.number 1, asciiUnits "2")] := by
  have hcompleted : ∃ event ∈ ChatReader.events interleavedResponses [] [] 0 4096 interleavedFrames,
      event.payload.completion.isSome = true := by
    have hany : (ChatReader.events interleavedResponses [] [] 0 4096 interleavedFrames).any
        (fun event => event.payload.completion.isSome) = true := by decide +kernel
    exact List.any_eq_true.mp hany
  have hcalls : ((firstSeen (keyedArguments (readChoices interleavedResponses.parseJson
      (liveFrames interleavedResponses.parseJson interleavedFrames)))).map fun key =>
        (key, joined (keyedArguments (readChoices interleavedResponses.parseJson
          (liveFrames interleavedResponses.parseJson interleavedFrames))) key)) =
      [(.number 0, asciiUnits "13"), (.number 1, asciiUnits "2")] := by decide +kernel
  rw [← hcalls]
  exact responses_stream_consistent interleavedResponses [] [] 0 4096 interleavedFrames hcompleted

end MultiAiRouter.Translate.Responses
