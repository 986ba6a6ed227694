import MultiAiRouter.Translate.Anthropic.WellFormed
import MultiAiRouter.Common.GroupTotals

/-!
# Nothing is lost and nothing is said twice

What the client was told and what still waits in the queue make up what the upstream has sent: a table of calls in
the order they were first seen, each with its arguments, and the text. The first tool block stays open to the end;
every later call and all text after it wait.
-/

namespace MultiAiRouter.Translate.Anthropic

open Common Translate.Sse

/-- A client assembles the inputs of the calls by block index. -/
def assemble (inputs : List (Nat × Units)) : AnthropicEvent → List (Nat × Units)
  | .contentBlockStart index (.toolUse ..) => inputs ++ [(index, [])]
  | .contentBlockDelta index (.inputJson partialJson) => appendAt index partialJson inputs
  | _ => inputs

/-- The inputs of the tool blocks, in the order of the blocks. -/
def toolInputs (events : List AnthropicEvent) : List Units := (events.foldl assemble []).map Prod.snd

/-- The text of the kind that an event states. -/
def deltaText (kind : FragmentKind) : AnthropicEvent → Units
  | .contentBlockDelta _ (.text text) => if kind = .message then text else []
  | .contentBlockDelta _ (.thinking text) => if kind = .reasoning then text else []
  | _ => []

/-- All text of the kind. -/
def statedText (kind : FragmentKind) (events : List AnthropicEvent) : Units := events.flatMap (deltaText kind)

/-- The calls that wait, with their arguments. -/
def queuedCalls : List PendingStreamBlock → List (CallKey × Units)
  | [] => []
  | .text .. :: rest => queuedCalls rest
  | .call call :: rest => (call.key, call.args) :: queuedCalls rest

/-- The text of the kind that waits. -/
def queuedText (kind : FragmentKind) : List PendingStreamBlock → Units
  | [] => []
  | .text text held _ _ :: rest => (if kind = held then text else []) ++ queuedText kind rest
  | .call _ :: rest => queuedText kind rest

/-- The text of the kind that a choice states. -/
def ChatChoice.fragment (choice : ChatChoice) : FragmentKind → Units
  | .message => choice.content
  | .reasoning => choice.reasoning

section Queue

/-- The calls of two queues. -/
theorem queuedCalls_append (first second : List PendingStreamBlock) :
    queuedCalls (first ++ second) = queuedCalls first ++ queuedCalls second := by
  induction first with
  | nil => rfl
  | cons block rest ih => cases block <;> simp [queuedCalls, ih]

/-- The text of two queues. -/
theorem queuedText_append (kind : FragmentKind) (first second : List PendingStreamBlock) :
    queuedText kind (first ++ second) = queuedText kind first ++ queuedText kind second := by
  induction first with
  | nil => rfl
  | cons block rest ih => cases block <;> simp [queuedText, ih]

/-- A call is found that waits. -/
theorem findCall_isSome {key : CallKey} {queue : List PendingStreamBlock} :
    (findCall key queue).isSome = true ↔ key ∈ (queuedCalls queue).map Prod.fst := by
  induction queue with
  | nil => simp [findCall, queuedCalls]
  | cons block rest ih =>
    cases block with
    | text text kind startsNewBlock charged => simpa [findCall, queuedCalls] using ih
    | call call =>
      by_cases hkey : call.key = key
      · simp [findCall, queuedCalls, hkey]
      · simpa [findCall, queuedCalls, hkey, Ne.symm hkey] using ih

/-- A call takes over what it lacked: its arguments stay. -/
theorem queuedCalls_update (key : CallKey) {change : PendingCall → PendingCall}
    (hkey : ∀ call, (change call).key = call.key) (hargs : ∀ call, (change call).args = call.args)
    (queue : List PendingStreamBlock) : queuedCalls (updateCall key change queue) = queuedCalls queue := by
  induction queue with
  | nil => rfl
  | cons block rest ih =>
    cases block with
    | text text kind startsNewBlock charged => simpa [updateCall, queuedCalls] using ih
    | call call =>
      unfold updateCall
      split <;> simp [queuedCalls, hkey, hargs, ih]

/-- A call collects arguments. -/
theorem queuedCalls_collect (key : CallKey) (more : Units) {change : PendingCall → PendingCall}
    (hkey : ∀ call, (change call).key = call.key) (hargs : ∀ call, (change call).args = call.args ++ more)
    {queue : List PendingStreamBlock} (hnodup : ((queuedCalls queue).map Prod.fst).Nodup) :
    queuedCalls (updateCall key change queue) = appendAt key more (queuedCalls queue) := by
  induction queue with
  | nil => rfl
  | cons block rest ih =>
    cases block with
    | text text kind startsNewBlock charged => simpa [updateCall, queuedCalls] using ih hnodup
    | call call =>
      simp only [queuedCalls, List.map_cons, List.nodup_cons] at hnodup
      by_cases hcall : call.key = key
      · have hrest := appendAt_of_notMem more (hcall ▸ hnodup.1)
        simp only [updateCall, hcall, if_true, queuedCalls, hkey, hargs]
        rw [appendAt, List.map_cons, if_pos rfl]
        exact congrArg _ hrest.symm
      · simp only [updateCall, hcall, if_false, queuedCalls, ih hnodup.2]
        simp [appendAt, hcall]

/-- Changing calls leaves the text that waits. -/
theorem queuedText_update (kind : FragmentKind) (key : CallKey) (change : PendingCall → PendingCall)
    (queue : List PendingStreamBlock) : queuedText kind (updateCall key change queue) = queuedText kind queue := by
  induction queue with
  | nil => rfl
  | cons block rest ih =>
    cases block with
    | text text held startsNewBlock charged => simp [updateCall, queuedText, ih]
    | call call =>
      unfold updateCall
      split <;> simp [queuedText, ih]

/-- Text that joins the last block is the last of its kind. -/
theorem queued_joinLast {kind : FragmentKind} {fragment : Units} {size : Nat}
    {queue merged : List PendingStreamBlock}
    (h : PendingStreamBlocks.joinLast kind fragment size queue = some merged) :
    queuedCalls merged = queuedCalls queue ∧
      ∀ other, queuedText other merged = queuedText other queue ++ if other = kind then fragment else [] := by
  induction queue generalizing merged with
  | nil => simp [PendingStreamBlocks.joinLast] at h
  | cons block rest ih =>
    cases rest with
    | nil =>
      cases block with
      | text text held startsNewBlock charged =>
        simp only [PendingStreamBlocks.joinLast] at h
        split at h
        · next hheld =>
          obtain rfl := Option.some.inj h
          refine ⟨rfl, fun other => ?_⟩
          subst hheld
          by_cases hother : other = held <;> simp [queuedText, hother]
        · cases h
      | call call => simp [PendingStreamBlocks.joinLast] at h
    | cons next rest =>
      simp only [PendingStreamBlocks.joinLast, Option.map_eq_some_iff] at h
      obtain ⟨joinedRest, hjoined, rfl⟩ := h
      obtain ⟨hcalls, htext⟩ := ih hjoined
      cases block with
      | text text held startsNewBlock charged =>
        exact ⟨hcalls, fun other => by rw [queuedText, htext, queuedText, List.append_assoc]⟩
      | call call => exact ⟨by rw [queuedCalls, queuedCalls, hcalls], htext⟩

/-- A charge leaves the queue. -/
theorem charge_queue {pending charged : PendingStreamBlocks} {size : Nat} (h : pending.charge size = some charged) :
    charged.queue = pending.queue := by
  unfold PendingStreamBlocks.charge at h
  split at h
  · cases h
  · rw [← Option.some.inj h]

/-- Text that waits goes after all that waits. -/
theorem pending_text {pending held : PendingStreamBlocks} {fragment : Units} {kind : FragmentKind}
    (h : pending.text fragment kind false = some held) :
    queuedCalls held.queue = queuedCalls pending.queue ∧ ∀ other, queuedText other held.queue =
        queuedText other pending.queue ++ if other = kind then fragment else [] := by
  simp only [PendingStreamBlocks.text, Bool.false_eq_true, if_false] at h
  split at h
  · next queue hjoined =>
    obtain ⟨charged, -, rfl⟩ := Option.map_eq_some_iff.mp h
    exact queued_joinLast hjoined
  · obtain ⟨charged, hcharged, rfl⟩ := Option.map_eq_some_iff.mp h
    rw [charge_queue hcharged, queuedCalls_append]
    exact ⟨by simp [queuedCalls], fun other => by simp [queuedText_append, queuedText]⟩

/-- A call that waits is in the table of those that wait, with no arguments if it is new. -/
theorem pending_add {pending held : PendingStreamBlocks} {key : CallKey} {id name : Option Units}
    (h : pending.add key id name = some held) :
    queuedCalls held.queue = joinAt (queuedCalls pending.queue) (key, []) ∧
      ∀ kind, queuedText kind held.queue = queuedText kind pending.queue := by
  simp only [PendingStreamBlocks.add] at h
  split at h
  · next old hfound =>
    have hmem := findCall_isSome.mp (Option.isSome_iff_exists.mpr ⟨old, hfound⟩)
    obtain ⟨charged, hcharged, rfl⟩ := Option.map_eq_some_iff.mp h
    rw [joinAt_of_mem hmem, appendAt_nil, charge_queue hcharged]
    refine ⟨queuedCalls_update key ?_ ?_ _, fun kind => queuedText_update ..⟩
    · exact fun _ => rfl
    · exact fun _ => rfl
  · next hmissing =>
    have hnew : key ∉ (queuedCalls pending.queue).map Prod.fst := by
      rw [← findCall_isSome, hmissing]
      simp
    obtain ⟨charged, hcharged, rfl⟩ := Option.map_eq_some_iff.mp h
    rw [joinAt_of_notMem hnew, charge_queue hcharged, queuedCalls_append]
    exact ⟨rfl, fun kind => by simp [queuedText_append, queuedText]⟩

/-- Arguments go to the call that waits for them. -/
theorem pending_append {pending held : PendingStreamBlocks} {key : CallKey} {fragment : Units}
    (hnodup : ((queuedCalls pending.queue).map Prod.fst).Nodup) (h : pending.append key fragment = some held) :
    queuedCalls held.queue = appendAt key fragment (queuedCalls pending.queue) ∧
      ∀ kind, queuedText kind held.queue = queuedText kind pending.queue := by
  simp only [PendingStreamBlocks.append] at h
  split at h
  · next hmissing =>
    have hnone : key ∉ (queuedCalls pending.queue).map Prod.fst := by
      rw [← findCall_isSome, hmissing]
      simp
    obtain rfl := Option.some.inj h
    exact ⟨(appendAt_of_notMem fragment hnone).symm, fun _ => rfl⟩
  · obtain ⟨charged, hcharged, rfl⟩ := Option.map_eq_some_iff.mp h
    rw [charge_queue hcharged]
    refine ⟨queuedCalls_collect key fragment ?_ ?_ hnodup, fun kind => queuedText_update ..⟩
    · exact fun _ => rfl
    · exact fun _ => rfl

end Queue

section Stated

variable {emitter : Emitter}

/-- No events, no text. -/
@[simp] theorem statedText_nil (kind : FragmentKind) : statedText kind [] = [] := rfl

/-- The text of two lists of events. -/
@[simp] theorem statedText_append (kind : FragmentKind) (first second : List AnthropicEvent) :
    statedText kind (first ++ second) = statedText kind first ++ statedText kind second := List.flatMap_append

/-- The text of one more event. -/
@[simp] theorem statedText_cons (kind : FragmentKind) (event : AnthropicEvent) (rest : List AnthropicEvent) :
    statedText kind (event :: rest) = deltaText kind event ++ statedText kind rest := rfl

/-- A start states no text. -/
@[simp] theorem deltaText_start (kind : FragmentKind) (index : Nat) (block : ContentBlock) :
    deltaText kind (.contentBlockStart index block) = [] := rfl

/-- A fragment states its own kind. -/
@[simp] theorem deltaText_fragment (kind held : FragmentKind) (index : Nat) (text : Units) :
    deltaText kind (.contentBlockDelta index (Emitter.fragmentDelta held text)) = if kind = held then text else [] := by
  cases held <;> rfl

/-- A fragment is no argument. -/
@[simp] theorem assemble_fragment (held : FragmentKind) (index : Nat) (text : Units) (inputs : List (Nat × Units)) :
    assemble inputs (.contentBlockDelta index (Emitter.fragmentDelta held text)) = inputs := by
  cases held <;> rfl

/-- A block of text is no call. -/
@[simp] theorem assemble_fragmentBlock (held : FragmentKind) (index : Nat) (inputs : List (Nat × Units)) :
    assemble inputs (.contentBlockStart index (Emitter.fragmentBlock held)) = inputs := by
  cases held <;> rfl

/-- Closing a block states nothing. -/
theorem closeOpen_states (emitter : Emitter) (inputs : List (Nat × Units)) :
    emitter.closeOpen.2.foldl assemble inputs = inputs ∧ ∀ kind, statedText kind emitter.closeOpen.2 = [] := by
  unfold Emitter.closeOpen Emitter.closeSigned
  split
  · exact ⟨rfl, fun _ => rfl⟩
  · split
    · exact ⟨rfl, fun _ => rfl⟩
    · exact ⟨rfl, fun _ => rfl⟩

/-- Text is stated once. -/
theorem emitFragment_states (emitter : Emitter) (text : Units) (kind : FragmentKind) (inputs : List (Nat × Units)) :
    (emitter.emitFragment text kind).2.foldl assemble inputs = inputs ∧
      ∀ other, statedText other (emitter.emitFragment text kind).2 = if other = kind then text else [] := by
  unfold Emitter.emitFragment
  split
  · next hempty =>
    obtain rfl := List.isEmpty_iff.mp hempty
    exact ⟨rfl, fun _ => by simp⟩
  · obtain ⟨hquiet, hsilent⟩ := closeOpen_states emitter inputs
    dsimp only
    split
    · exact ⟨by simp, fun other => by simp⟩
    · refine ⟨by simp [List.foldl_append, hquiet], fun other => ?_⟩
      simp [hsilent]

/-- Block numbers do not fall. -/
theorem emitFragment_nextBlock (emitter : Emitter) (text : Units) (kind : FragmentKind) :
    emitter.nextBlock ≤ (emitter.emitFragment text kind).1.nextBlock := by
  unfold Emitter.emitFragment
  split
  · exact le_rfl
  · dsimp only
    split <;> simp

/-- A block opens for a call with no input yet. -/
theorem openToolBlock_states (emitter : Emitter) (key : CallKey) (id name : Option Units)
    (inputs : List (Nat × Units)) :
    (emitter.openToolBlock key id name).2.foldl assemble inputs = inputs ++ [(emitter.nextBlock, [])] ∧
      ∀ kind, statedText kind (emitter.openToolBlock key id name).2 = [] := by
  obtain ⟨hquiet, hsilent⟩ := closeOpen_states emitter inputs
  simp [Emitter.openToolBlock, List.foldl_append, hquiet, hsilent, assemble]

/-- The blocks so far are numbered below the next one. -/
def Below (bound : Nat) (inputs : List (Nat × Units)) : Prop := ∀ entry ∈ inputs, entry.1 < bound

/-- The next block has no arguments yet. -/
theorem Below.notMem {bound : Nat} {inputs : List (Nat × Units)} (h : Below bound inputs) :
    bound ∉ inputs.map Prod.fst := by
  intro hmem
  obtain ⟨entry, hentry, hbound⟩ := List.mem_map.mp hmem
  exact absurd (hbound ▸ h entry hentry) (lt_irrefl _)

/-- A call that waited is stated with all its arguments, in a block of its own. -/
theorem replayCall_states (emitter : Emitter) (call : PendingCall) {inputs : List (Nat × Units)}
    (hbelow : Below emitter.nextBlock inputs) :
    (emitter.replayCall call).2.foldl assemble inputs = inputs ++ [(emitter.nextBlock, call.args)] ∧
      ∀ kind, statedText kind (emitter.replayCall call).2 = [] := by
  obtain ⟨hopens, hsilent⟩ := openToolBlock_states emitter call.key call.id call.name inputs
  unfold Emitter.replayCall
  split
  · next hempty => simp [hopens, hsilent, List.isEmpty_iff.mp hempty]
  · refine ⟨?_, fun kind => by simp [hsilent, deltaText]⟩
    have hold : appendAt emitter.nextBlock call.args inputs = inputs := appendAt_of_notMem _ hbelow.notMem
    rw [List.foldl_append, hopens, closeOpen_fst]
    simp [assemble, hold]

/-- A replay states every call that waited, in order and each once, and all the text. -/
theorem replayAll_states (emitter : Emitter) (queue : List PendingStreamBlock) {inputs : List (Nat × Units)}
    (hbelow : Below emitter.nextBlock inputs) : ((emitter.replayAll queue).2.foldl assemble inputs).map Prod.snd =
        inputs.map Prod.snd ++ (queuedCalls queue).map Prod.snd ∧
      ∀ kind, statedText kind (emitter.replayAll queue).2 = queuedText kind queue := by
  induction queue generalizing emitter inputs with
  | nil => simp [Emitter.replayAll, queuedCalls, queuedText]
  | cons block rest ih =>
    cases block with
    | text text held startsNewBlock charged =>
      obtain ⟨hsame, hstated⟩ := emitFragment_states emitter text held inputs
      obtain ⟨hquiet, hsilent⟩ := closeOpen_states (emitter.emitFragment text held).1 inputs
      have hmore : Below (emitter.emitFragment text held).1.closeOpen.1.nextBlock inputs := by
        intro entry hentry
        rw [closeOpen_fst]
        exact (hbelow entry hentry).trans_le (emitFragment_nextBlock ..)
      obtain ⟨hrest, htext⟩ := ih (emitter.emitFragment text held).1.closeOpen.1 hmore
      simp only [Emitter.replayAll, List.foldl_append, statedText_append, hsame, hquiet, hsilent, hstated, hrest,
        htext, queuedCalls, queuedText, List.append_nil, implies_true, and_self]
    | call call =>
      obtain ⟨hcall, hnone⟩ := replayCall_states emitter call hbelow
      obtain ⟨hquiet, hsilent⟩ := closeOpen_states (emitter.replayCall call).1
        (inputs ++ [(emitter.nextBlock, call.args)])
      have hmore : Below (emitter.replayCall call).1.closeOpen.1.nextBlock
          (inputs ++ [(emitter.nextBlock, call.args)]) := by
        intro entry hentry
        rw [closeOpen_fst, replayCall_fst, openToolBlock_fst]
        rcases List.mem_append.mp hentry with hentry | hentry
        · exact (hbelow entry hentry).trans (Nat.lt_succ_self _)
        · rw [List.mem_singleton.mp hentry]
          exact Nat.lt_succ_self _
      obtain ⟨hrest, htext⟩ := ih (emitter.replayCall call).1.closeOpen.1 hmore
      simp only [Emitter.replayAll, List.foldl_append, statedText_append, hcall, hnone, hquiet, hsilent, hrest, htext,
        queuedCalls, queuedText, List.map_append, List.map_cons, List.map_nil, List.append_assoc, List.cons_append,
        List.nil_append, implies_true, and_self]

/-- Closing the open block states all that waits. -/
theorem closeBlock_states (emitter : Emitter) {inputs : List (Nat × Units)} (hbelow : Below emitter.nextBlock inputs) :
    (emitter.closeBlock.2.foldl assemble inputs).map Prod.snd =
        inputs.map Prod.snd ++ (queuedCalls emitter.pending.queue).map Prod.snd ∧
      ∀ kind, statedText kind emitter.closeBlock.2 = queuedText kind emitter.pending.queue := by
  obtain ⟨hquiet, hsilent⟩ := closeOpen_states emitter inputs
  obtain ⟨hcalls, htext⟩ := replayAll_states
    { emitter with current := none, pending := emitter.pending.drained } emitter.pending.queue hbelow
  simp only [Emitter.closeBlock, closeOpen_fst, List.foldl_append, statedText_append, hquiet, hsilent, hcalls, htext,
    List.nil_append, implies_true, and_self]

end Stated

/-- The calls of the table: none was seen, or the block of the first is open with its arguments so far and
the others wait with theirs. -/
inductive CallsKept (emitter : Emitter) (inputs : List (Nat × Units)) : List (CallKey × Units) → Prop
  | unseen (tools : emitter.toolBlocks = []) (shut : emitter.toolOpen = false) (queue : emitter.pending.queue = [])
      (told : inputs = []) : CallsKept emitter inputs []
  | streaming (key : CallKey) (index : Nat) (args : Units) (tools : emitter.toolBlocks = [(key, index)])
      (current : emitter.current = some { index, tool := some key, thinking := false })
      (below : index < emitter.nextBlock) (told : inputs = [(index, args)])
      (nodup : (((key, args) :: queuedCalls emitter.pending.queue).map Prod.fst).Nodup) :
      CallsKept emitter inputs ((key, args) :: queuedCalls emitter.pending.queue)

/-- What the client was told and what waits make up the calls and the text. -/
structure Carries (emitter : Emitter) (events : List AnthropicEvent) (table : List (CallKey × Units))
    (stated : FragmentKind → Units) : Prop where
  calls : CallsKept emitter (events.foldl assemble []) table
  text : ∀ kind, statedText kind events ++ queuedText kind emitter.pending.queue = stated kind

/-- The queue was over its limit, or the stream goes on and carries everything. -/
def Sound (emitter : Emitter) (events : List AnthropicEvent) (table : List (CallKey × Units))
    (stated : FragmentKind → Units) : Prop :=
  emitter.terminated = true ∧ emitter.failed = true ∨
    emitter.terminated = false ∧ Carries emitter events table stated

section Steps

variable {emitter : Emitter} {events : List AnthropicEvent} {table : List (CallKey × Units)}
  {stated : FragmentKind → Units}

/-- A queue over its limit is all there is to say. -/
theorem Sound.overflow : Sound (emitter.holdOr none).1 (events ++ (emitter.holdOr none).2) table stated :=
  .inl ⟨rfl, rfl⟩

/-- Every call has a block below the next. -/
theorem CallsKept.below {inputs : List (Nat × Units)} (h : CallsKept emitter inputs table) :
    Below emitter.nextBlock inputs := by
  cases h with
  | unseen tools shut queue told => simp [told, Below]
  | streaming key index args tools current below told nodup => simpa [told, Below] using below

/-- The inputs that were told and the calls that wait are the rows of the table. -/
theorem CallsKept.rows {inputs : List (Nat × Units)} (h : CallsKept emitter inputs table) :
    inputs.map Prod.snd ++ (queuedCalls emitter.pending.queue).map Prod.snd = table.map Prod.snd := by
  cases h with
  | unseen tools shut queue told => simp [told, queue, queuedCalls]
  | streaming key index args tools current below told nodup => simp [told]

/-- Text is stated, or waits. -/
theorem Carries.text_call (h : Carries emitter events table stated) (hrunning : emitter.terminated = false)
    (text : Units) (kind : FragmentKind) :
    Sound (emitter.text text false kind).1 (events ++ (emitter.text text false kind).2) table
      fun other => stated other ++ if other = kind then text else [] := by
  unfold Emitter.text
  split
  · next hempty =>
    have htext : text = [] := by simpa [hrunning] using hempty
    refine .inr ⟨hrunning, ?_⟩
    simpa [htext] using h
  · cases h.calls with
    | unseen tools shut queue told =>
      obtain ⟨hsame, hstated⟩ := emitFragment_states emitter text kind (events.foldl assemble [])
      obtain ⟨-, hterminated, hpending, -, htools⟩ := emitFragment_keeps emitter text kind
      simp only [shut, Bool.false_eq_true, if_false, List.nil_append]
      refine .inr ⟨hterminated.trans hrunning, ?_, fun other => ?_⟩
      · rw [List.foldl_append, hsame]
        exact .unseen (htools.trans tools) (emitFragment_toolOpen shut text kind)
          ((congrArg _ hpending).trans queue) told
      · rw [statedText_append, hstated, ← h.text, hpending, queue]
        simp [queuedText]
    | streaming key index args tools current below told nodup =>
      have hopen : emitter.toolOpen = true := by simp [Emitter.toolOpen, current]
      rw [if_pos hopen]
      cases hheld : emitter.pending.text text kind false with
      | none => exact Sound.overflow
      | some pending =>
        obtain ⟨hcalls, htext⟩ := pending_text hheld
        refine .inr ⟨hrunning, ?_, fun other => ?_⟩
        · rw [← hcalls] at nodup ⊢
          rw [show (emitter.holdOr (some pending)).2 = [] from rfl, List.append_nil]
          exact .streaming key index args tools current below told nodup
        · simp [Emitter.holdOr, htext, ← h.text]

/-- Another key is not found. -/
theorem lookup_single_of_ne {first key : CallKey} (h : first ≠ key) (index : Nat) :
    List.lookup key [(first, index)] = none := by
  have hother : (key == first) = false := beq_eq_false_iff_ne.mpr h.symm
  simp [List.lookup_cons, hother]

/-- A call is seen: its row is in the table. -/
theorem Carries.toolStart_call (h : Carries emitter events table stated) (hrunning : emitter.terminated = false)
    (key : CallKey) (id name : Option Units) :
    Sound (emitter.toolStart key id name).1 (events ++ (emitter.toolStart key id name).2) (joinAt table (key, []))
      stated := by
  unfold Emitter.toolStart
  rw [if_neg (by simp [hrunning])]
  cases h.calls with
  | unseen tools shut queue told =>
    -- the first call: its block opens
    obtain ⟨hopens, hsilent⟩ := openToolBlock_states emitter key id name (events.foldl assemble [])
    rw [if_neg (by simp [tools]), if_neg (by simp [shut])]
    refine .inr ⟨by rw [openToolBlock_fst]; exact hrunning, ?_, fun kind => ?_⟩
    · rw [List.foldl_append, hopens, told, openToolBlock_fst]
      have htable : joinAt [] (key, []) = (key, []) :: queuedCalls emitter.pending.queue := by
        rw [queue]
        rfl
      rw [htable]
      exact .streaming key emitter.nextBlock [] (by simp [tools]) rfl (Nat.lt_succ_self _) rfl
        (by simp [queue, queuedCalls])
    · rw [statedText_append, hsilent, List.append_nil, openToolBlock_fst]
      exact h.text kind
  | streaming first index args tools current below told nodup =>
    by_cases hkey : first = key
    · subst hkey
      rw [if_pos (by simp [tools]), joinAt_of_mem (by simp), appendAt_nil, List.append_nil]
      exact .inr ⟨hrunning, .streaming first index args tools current below told nodup, h.text⟩
    · have hopen : emitter.toolOpen = true := by simp [Emitter.toolOpen, current]
      rw [if_neg (by simp [tools, lookup_single_of_ne hkey]), if_pos hopen]
      cases hheld : emitter.pending.add key id name with
      | none => exact Sound.overflow
      | some pending =>
        obtain ⟨hcalls, htext⟩ := pending_add hheld
        have hnodup := nodup_joinAt nodup (key, [])
        rw [joinAt_cons_of_ne hkey, ← hcalls] at hnodup ⊢
        rw [show (emitter.holdOr (some pending)).2 = [] from rfl, List.append_nil]
        refine .inr ⟨hrunning, .streaming first index args tools current below told hnodup, fun kind => ?_⟩
        rw [← h.text]
        exact congrArg _ (htext kind)

/-- Arguments of a call that was seen are added to its row. -/
theorem Carries.toolArgs_call (h : Carries emitter events table stated) (hrunning : emitter.terminated = false)
    {key : CallKey} (hseen : key ∈ table.map Prod.fst) (more : Units) :
    Sound (emitter.toolArgs key more).1 (events ++ (emitter.toolArgs key more).2) (appendAt key more table)
      stated := by
  unfold Emitter.toolArgs
  split
  · next hempty =>
    have hmore : more = [] := by simpa [hrunning] using hempty
    rw [hmore, appendAt_nil, List.append_nil]
    exact .inr ⟨hrunning, h⟩
  · cases h.calls with
    | unseen tools shut queue told => simp at hseen
    | streaming first index args tools current below told nodup =>
      have hrest : first ∉ (queuedCalls emitter.pending.queue).map Prod.fst := (List.nodup_cons.mp nodup).1
      by_cases hkey : first = key
      · subst hkey
        have hlookup : emitter.toolBlocks.lookup first = some index := by simp [tools]
        have hlive : (emitter.current.any fun block => block.index == index) = true := by simp [current]
        rw [hlookup]
        dsimp only
        rw [if_pos hlive, appendAt_cons_self, appendAt_of_notMem more hrest]
        refine .inr ⟨hrunning, ?_, fun kind => ?_⟩
        · rw [List.foldl_append, told]
          exact .streaming first index (args ++ more) tools current below (by simp [assemble]) nodup
        · rw [statedText_append, statedText_cons]
          simpa [deltaText] using h.text kind
      · have hlookup : emitter.toolBlocks.lookup key = none := tools ▸ lookup_single_of_ne hkey index
        rw [hlookup]
        dsimp only
        cases hheld : emitter.pending.append key more with
        | none => exact Sound.overflow
        | some pending =>
          obtain ⟨hcalls, htext⟩ := pending_append (List.nodup_cons.mp nodup).2 hheld
          have hnodup : (((first, args) :: queuedCalls pending.queue).map Prod.fst).Nodup := by
            rw [hcalls, List.map_cons, appendAt_keys]
            exact nodup
          rw [appendAt_cons_of_ne hkey, ← hcalls]
          rw [show (emitter.holdOr (some pending)).2 = [] from rfl, List.append_nil]
          refine .inr ⟨hrunning, .streaming first index args tools current below told hnodup, fun kind => ?_⟩
          rw [← h.text]
          exact congrArg _ (htext kind)

/-- One entry of `tool_calls` is joined to the row of its key. -/
theorem Sound.toolCall (h : Sound emitter events table stated) (keyed : CallKey × ToolCallDelta) :
    Sound (emitFrom Emitter.call emitter (ChatReader.toolCallCalls keyed)).1
      (events ++ (emitFrom Emitter.call emitter (ChatReader.toolCallCalls keyed)).2)
      (joinAt table (keyed.1, keyed.2.arguments.getD [])) stated := by
  simp only [ChatReader.toolCallCalls, emitFrom_cons, emitFrom_nil, Emitter.call, List.append_nil, ← List.append_assoc]
  have hstopped : ∀ emitter : Emitter, emitter.terminated = true →
      (emitter.toolArgs keyed.1 (keyed.2.arguments.getD [])).1 = emitter := by
    intro emitter hterminated
    simp [Emitter.toolArgs, hterminated]
  rcases h with ⟨hterminated, hfailed⟩ | ⟨hrunning, hcarries⟩
  · have hsame : (emitter.toolStart keyed.1 keyed.2.id keyed.2.name).1 = emitter := by
      simp [Emitter.toolStart, hterminated]
    rw [hsame, hstopped emitter hterminated]
    exact .inl ⟨hterminated, hfailed⟩
  · rw [joinAt_eq]
    rcases hcarries.toolStart_call hrunning keyed.1 keyed.2.id keyed.2.name with
      ⟨hterminated, hfailed⟩ | ⟨hstill, hnext⟩
    · rw [hstopped _ hterminated]
      exact .inl ⟨hterminated, hfailed⟩
    · exact hnext.toolArgs_call hstill (mem_joinAt.mpr (.inr rfl)) _

/-- The entries of a choice, one after another. -/
theorem Sound.toolCalls (h : Sound emitter events table stated) (keyed : List (CallKey × ToolCallDelta)) :
    Sound (emitFrom Emitter.call emitter (keyed.flatMap ChatReader.toolCallCalls)).1
      (events ++ (emitFrom Emitter.call emitter (keyed.flatMap ChatReader.toolCallCalls)).2)
      ((keyed.map fun entry => (entry.1, entry.2.arguments.getD [])).foldl joinAt table) stated := by
  induction keyed generalizing emitter events table with
  | nil => simpa using h
  | cons entry rest ih =>
    rw [List.flatMap_cons, emitFrom_append, ← List.append_assoc, List.map_cons, List.foldl_cons]
    exact ih (h.toolCall entry)

/-- Text, in a stream that may have failed. -/
theorem Sound.text (h : Sound emitter events table stated) (text : Units) (kind : FragmentKind) :
    Sound (emitter.text text false kind).1 (events ++ (emitter.text text false kind).2) table
      fun other => stated other ++ if other = kind then text else [] := by
  rcases h with ⟨hterminated, hfailed⟩ | ⟨hrunning, hcarries⟩
  · have hsame : (emitter.text text false kind).1 = emitter := by simp [Emitter.text, hterminated]
    rw [hsame]
    exact .inl ⟨hterminated, hfailed⟩
  · exact hcarries.text_call hrunning text kind

/-- What names the message and how the stream goes on is neither call nor text. -/
theorem Carries.hidden (h : Carries emitter events table stated) (id model : Units)
    (started terminated failed : Bool) :
    Carries { emitter with id, model, started, terminated, failed } events table stated := by
  refine ⟨?_, h.text⟩
  cases h.calls with
  | unseen tools shut queue told => exact .unseen tools shut queue told
  | streaming key index args tools current below told nodup =>
    exact .streaming key index args tools current below told nodup

/-- The message start states nothing. -/
theorem Carries.start (h : Carries emitter events table stated) :
    Carries emitter.start.1 (events ++ emitter.start.2) table stated := by
  unfold Emitter.start
  split
  · rw [List.append_nil]
    exact h
  · have hstarted := h.hidden emitter.id emitter.model true emitter.terminated emitter.failed
    refine ⟨?_, fun kind => ?_⟩
    · rw [List.foldl_append]
      exact hstarted.calls
    · rw [statedText_append]
      simpa [deltaText] using h.text kind

/-- Closing the text block of a stream without calls. -/
theorem Carries.closeBlock (h : Carries emitter events [] stated) :
    Carries emitter.closeBlock.1 (events ++ emitter.closeBlock.2) [] stated := by
  cases h.calls with
  | unseen tools shut queue told =>
    obtain ⟨hquiet, hsilent⟩ := closeOpen_states emitter (events.foldl assemble [])
    have hclosed : emitter.closeBlock =
        ({ emitter with current := none, pending := emitter.pending.drained }, emitter.closeOpen.2) := by
      simp [Emitter.closeBlock, queue, Emitter.replayAll]
    rw [hclosed]
    refine ⟨?_, fun kind => ?_⟩
    · rw [List.foldl_append, hquiet]
      exact .unseen tools rfl rfl told
    · rw [statedText_append, hsilent, List.append_nil, ← h.text kind, queue]
      rfl

/-- Closing a block keeps the emitter sound. -/
theorem Sound.closeBlock (h : Sound emitter events [] stated) :
    Sound emitter.closeBlock.1 (events ++ emitter.closeBlock.2) [] stated := by
  obtain ⟨-, hterminated, -, hfailed⟩ := closeBlock_keeps emitter
  rcases h with ⟨hended, hlost⟩ | ⟨hrunning, hcarries⟩
  · exact .inl ⟨hterminated.trans hended, hfailed.trans hlost⟩
  · exact .inr ⟨hterminated.trans hrunning, hcarries.closeBlock⟩

/-- A choice: its text is added to the text, its entries to the table. -/
theorem Carries.choice (h : Carries emitter events table stated) (hrunning : emitter.terminated = false)
    (choice : ChatChoice) (keyed : List (CallKey × ToolCallDelta)) (hasToolCalls : Bool)
    (hplain : hasToolCalls = false → keyed = [] ∧ table = []) :
    Sound (emitFrom Emitter.call emitter (ChatReader.choiceCalls choice keyed hasToolCalls)).1
      (events ++ (emitFrom Emitter.call emitter (ChatReader.choiceCalls choice keyed hasToolCalls)).2)
      ((keyed.map fun entry => (entry.1, entry.2.arguments.getD [])).foldl joinAt table)
      fun kind => stated kind ++ choice.fragment kind := by
  have hstarted : Sound emitter.start.1 (events ++ emitter.start.2) table stated :=
    .inr ⟨(start_keeps emitter).2.1.trans hrunning, h.start⟩
  have htext := (hstarted.text choice.reasoning .reasoning).text choice.content .message
  have hboth : (fun other => (stated other ++ if other = FragmentKind.reasoning then choice.reasoning else []) ++
      if other = FragmentKind.message then choice.content else []) = fun kind => stated kind ++
        choice.fragment kind := by
    funext kind
    cases kind <;> simp [ChatChoice.fragment]
  rw [hboth] at htext
  have hcalls := htext.toolCalls keyed
  unfold ChatReader.choiceCalls
  rw [emitFrom_append, emitFrom_append, ← List.append_assoc, ← List.append_assoc]
  simp only [emitFrom_cons, emitFrom_nil, Emitter.call, List.append_nil, ← List.append_assoc] at hcalls ⊢
  split
  · next hclose =>
    obtain ⟨rfl, rfl⟩ := hplain (by simpa using (Bool.and_eq_true_iff.mp hclose).2)
    simp only [emitFrom_cons, emitFrom_nil, Emitter.call, List.append_nil]
    exact hcalls.closeBlock
  · simpa only [emitFrom_nil, List.append_nil] using hcalls

/-- The ending states all that waits. -/
theorem Carries.terminate (h : Carries emitter events table stated) (hrunning : emitter.terminated = false)
    (stopReason : Option AnthropicStopReason) (usage : Record) :
    toolInputs (events ++ (emitter.terminate stopReason usage).2) = table.map Prod.snd ∧
      ∀ kind, statedText kind (events ++ (emitter.terminate stopReason usage).2) = stated kind := by
  simp only [Emitter.terminate, hrunning, Bool.false_eq_true, if_false]
  have hmarked : Carries { emitter with terminated := true } events table stated := h.hidden ..
  generalize hbegun : { emitter with terminated := true }.start = begun
  have hstart : Carries begun.1 (events ++ begun.2) table stated := hbegun ▸ hmarked.start
  obtain ⟨hcalls, htext⟩ := closeBlock_states begun.1 hstart.calls.below
  refine ⟨?_, fun kind => ?_⟩
  · unfold toolInputs
    rw [← List.append_assoc, ← List.append_assoc, List.foldl_append, List.foldl_append]
    exact hcalls.trans hstart.calls.rows
  · rw [← List.append_assoc, ← List.append_assoc, statedText_append, statedText_append, htext, hstart.text]
    simp [deltaText]

end Steps

/-- The choice a frame states. -/
def ChatFrame.choice : ChatFrame → Option ChatChoice
  | .chunk stated => stated.choice
  | _ => none

/-- The frame neither ends the stream nor fails it. -/
def ChatFrame.goesOn : ChatFrame → Bool
  | .chunk _ | .unreadable => true
  | .done | .failed _ => false

/-- The choices that the frames state. -/
def readChoices (parseJson : Units → Option Value) (frames : List SseFrame) : List ChatChoice :=
  frames.filterMap fun frame => (readChatFrame parseJson frame).choice

/-- The choices of one more frame. -/
theorem readChoices_cons (parseJson : Units → Option Value) (frame : SseFrame) (rest : List SseFrame) :
    readChoices parseJson (frame :: rest) =
      (readChatFrame parseJson frame).choice.toList ++ readChoices parseJson rest := by
  unfold readChoices
  rw [List.filterMap_cons]
  cases (readChatFrame parseJson frame).choice <;> rfl

/-- The argument fragments of the choices, each under the key the reader gives its call. -/
def keyedArguments (choices : List ChatChoice) : List (CallKey × Units) :=
  (({} : ToolCallReader).keys (choices.flatMap ChatChoice.toolCalls)).2.map fun entry =>
    (entry.1, entry.2.arguments.getD [])

namespace ChatReader

variable {Usage : Type} (source : ChatSource Usage) {events : List AnthropicEvent} {choices : List ChatChoice}

/-- The keys of two lists of pieces. -/
theorem keys_append (reader : ToolCallReader) (first second : List ToolCallDelta) : reader.keys (first ++ second) =
      (((reader.keys first).1.keys second).1, (reader.keys first).2 ++ ((reader.keys first).1.keys second).2) := by
  induction first generalizing reader with
  | nil => rfl
  | cons call rest ih => simp [ToolCallReader.keys, ih]

/-- The reader has told or holds what the choices state. -/
structure Kept (reader : ChatReader Usage) (events : List AnthropicEvent) (choices : List ChatChoice) : Prop where
  running : reader.emitter.terminated = false
  carries : Carries reader.emitter events ((keyedArguments choices).foldl joinAt [])
    fun kind => choices.flatMap fun choice => choice.fragment kind
  toolCalls : reader.toolCalls = (({} : ToolCallReader).keys (choices.flatMap ChatChoice.toolCalls)).1
  hasToolCalls : reader.hasToolCalls = !(choices.flatMap ChatChoice.toolCalls).isEmpty
  finish : reader.finishReason.isSome = choices.any fun choice => choice.finishReason.isSome

/-- The queue was over its limit, or nothing is missing. -/
def KeptOrLost (reader : ChatReader Usage) (events : List AnthropicEvent) (choices : List ChatChoice) : Prop :=
  reader.emitter.terminated = true ∧ reader.emitter.failed = true ∨ Kept reader events choices

/-- A chunk. -/
theorem Kept.pushChunk {reader : ChatReader Usage} (h : Kept reader events choices) (chunk : ChatChunk) :
    KeptOrLost (reader.pushChunk source chunk).1 (events ++ (reader.pushChunk source chunk).2)
      (choices ++ chunk.choice.toList) := by
  have hnamed : Carries (reader.emitter.identify chunk.id chunk.model) events ((keyedArguments choices).foldl joinAt [])
      fun kind => choices.flatMap fun choice => choice.fragment kind := h.carries.hidden ..
  unfold ChatReader.pushChunk
  dsimp only
  cases chunk.choice with
  | none =>
    simp only [Option.toList_none, List.append_nil]
    exact .inr ⟨h.running, hnamed, h.toolCalls, h.hasToolCalls, h.finish⟩
  | some choice =>
    have hstill : (reader.emitter.identify chunk.id chunk.model).terminated = false := h.running
    have hplain : (reader.hasToolCalls || !choice.toolCalls.isEmpty) = false →
        (reader.toolCalls.keys choice.toolCalls).2 = [] ∧ (keyedArguments choices).foldl joinAt [] = [] := by
      intro hnone
      rw [h.hasToolCalls, Bool.or_eq_false_iff, Bool.not_eq_false', Bool.not_eq_false', List.isEmpty_iff,
        List.isEmpty_iff] at hnone
      refine ⟨(keys_nil_iff ..).mpr hnone.2, ?_⟩
      rw [keyedArguments, hnone.1]
      rfl
    have hkeys := keys_append {} (choices.flatMap ChatChoice.toolCalls) choice.toolCalls
    rw [← h.toolCalls] at hkeys
    rcases Carries.choice hnamed hstill choice (reader.toolCalls.keys choice.toolCalls).2 _ hplain with
      hlost | ⟨hrunning, hcarries⟩
    · exact .inl hlost
    · refine .inr ⟨hrunning, ?_, ?_, ?_, ?_⟩
      · simpa [keyedArguments, hkeys, List.foldl_append] using hcarries
      · simp [hkeys]
      · simp only [h.hasToolCalls, Option.toList_some, List.flatMap_append, List.flatMap_singleton]
        cases choices.flatMap ChatChoice.toolCalls <;> rfl
      · simp [h.finish, Bool.or_comm]

/-- A frame that goes on. -/
theorem KeptOrLost.push {reader : ChatReader Usage} (h : KeptOrLost reader events choices) (frame : SseFrame)
    (hframe : (readChatFrame source.parseJson frame).goesOn = true) :
    KeptOrLost (reader.push source frame).1 (events ++ (reader.push source frame).2)
      (choices ++ (readChatFrame source.parseJson frame).choice.toList) := by
  unfold ChatReader.push
  rcases h with ⟨hterminated, hfailed⟩ | hkept
  · rw [if_pos hterminated]
    exact .inl ⟨hterminated, hfailed⟩
  · rw [if_neg (by simp [hkept.running])]
    cases hread : readChatFrame source.parseJson frame with
    | done => simp [hread, ChatFrame.goesOn] at hframe
    | failed payload => simp [hread, ChatFrame.goesOn] at hframe
    | chunk chunk => exact hkept.pushChunk source chunk
    | unreadable =>
      refine .inr ?_
      simpa [ChatFrame.choice] using hkept

/-- Frames that go on. -/
theorem KeptOrLost.pushAll (frames : List SseFrame) {reader : ChatReader Usage}
    (h : KeptOrLost reader events choices)
    (hframes : ∀ frame ∈ frames, (readChatFrame source.parseJson frame).goesOn = true) :
    KeptOrLost (emitFrom (ChatReader.push source) reader frames).1
      (events ++ (emitFrom (ChatReader.push source) reader frames).2)
      (choices ++ readChoices source.parseJson frames) := by
  induction frames generalizing reader events choices with
  | nil => simpa [readChoices] using h
  | cons frame rest ih =>
    have hnext := ih (h.push source frame (hframes frame (List.mem_cons_self ..))) fun other hother =>
      hframes other (List.mem_cons_of_mem _ hother)
    rw [readChoices_cons, emitFrom_cons, ← List.append_assoc, ← List.append_assoc]
    exact hnext

/-- The ending ends the stream. -/
theorem terminate_ends (reader : ChatReader Usage) : (reader.terminate source).1.emitter.terminated = true := by
  simp only [terminate, Emitter.call, Emitter.terminate]
  split
  · next hterminated => exact hterminated
  · exact (closeBlock_keeps _).2.1.trans (start_keeps _).2.1

/-- At the start nothing was sent and nothing was told. -/
theorem kept_begin (id model : Units) (limit : Nat) : Kept (begin id model limit : ChatReader Usage) [] [] :=
  ⟨rfl, ⟨.unseen rfl rfl rfl rfl, fun _ => rfl⟩, rfl, rfl, rfl⟩

/-- The ending states all that waits. -/
theorem Kept.terminate {reader : ChatReader Usage} (h : Kept reader events choices) :
    toolInputs (events ++ (reader.terminate source).2) =
        (firstSeen (keyedArguments choices)).map (joined (keyedArguments choices)) ∧
      ∀ kind, statedText kind (events ++ (reader.terminate source).2) =
        choices.flatMap fun choice => choice.fragment kind := by
  obtain ⟨hcalls, htext⟩ := h.carries.terminate h.running _ (source.usageCounts reader.usage)
  rw [foldl_joinAt, List.map_map] at hcalls
  exact ⟨hcalls, htext⟩

end ChatReader

/-- A stream of chunks that ends in the sentinel or states a finish reason, within the limit on what waits,
is told in full: a tool block for each call, in the order they were first seen, with all its arguments, and
all of the text and the reasoning. -/
theorem chat_stream_told_in_full {Usage : Type} (source : ChatSource Usage) (id model : Units) (limit : Nat)
    (frames closing : List SseFrame)
    (hframes : ∀ frame ∈ frames, (readChatFrame source.parseJson frame).goesOn = true)
    (hclosing : (closing = [] ∧ ∃ choice ∈ readChoices source.parseJson frames, choice.finishReason.isSome = true) ∨
      ∃ last, closing = [last] ∧ last.data = asciiUnits "[DONE]")
    (hlimit : (emitFrom (ChatReader.push source) (ChatReader.begin id model limit) frames).1.emitter.failed = false) :
    toolInputs (ChatReader.events source id model limit (frames ++ closing)) =
        (firstSeen (keyedArguments (readChoices source.parseJson frames))).map
          (joined (keyedArguments (readChoices source.parseJson frames))) ∧
      statedText .message (ChatReader.events source id model limit (frames ++ closing)) =
        (readChoices source.parseJson frames).flatMap ChatChoice.content ∧
      statedText .reasoning (ChatReader.events source id model limit (frames ++ closing)) =
        (readChoices source.parseJson frames).flatMap ChatChoice.reasoning := by
  have hrun := ChatReader.KeptOrLost.pushAll source frames (.inr (ChatReader.kept_begin id model limit)) hframes
  rw [List.nil_append, List.nil_append] at hrun
  have hkept := hrun.resolve_left fun hlost => by simp [hlimit] at hlost
  obtain ⟨hcalls, htext⟩ := hkept.terminate source
  have hevents : ChatReader.events source id model limit (frames ++ closing) =
      (emitFrom (ChatReader.push source) (ChatReader.begin id model limit) frames).2 ++
        ((emitFrom (ChatReader.push source) (ChatReader.begin id model limit) frames).1.terminate source).2 := by
    unfold ChatReader.events
    rw [emitFrom_append]
    rcases hclosing with ⟨rfl, hfinish⟩ | ⟨last, rfl, hdone⟩
    · have hreason := hkept.finish.trans (List.any_eq_true.mpr hfinish)
      have hsome : (emitFrom (ChatReader.push source) (ChatReader.begin id model limit) frames).1.finishReason.isNone =
          false := by simpa using hreason
      simp [ChatReader.flush, hkept.running, hsome]
    · have hpush : ∀ reader : ChatReader Usage, reader.emitter.terminated = false →
          reader.push source last = reader.terminate source := by
        intro reader hrunning
        simp [ChatReader.push, hrunning, readChatFrame, hdone]
      simp only [emitFrom_cons, emitFrom_nil, List.append_nil]
      rw [hpush _ hkept.running]
      simp [ChatReader.flush, ChatReader.terminate_ends]
  rw [hevents]
  exact ⟨hcalls, htext .message, htext .reasoning⟩

/-- Two calls that interleave, as one upstream streams them. -/
def interleavedFirst : Units :=
  asciiUnits "\x7b\"choices\":[\x7b\"delta\":\x7b\"tool_calls\":[" ++
    asciiUnits "\x7b\"index\":0,\"function\":\x7b\"arguments\":\"1\"\x7d\x7d," ++
    asciiUnits "\x7b\"index\":1,\"function\":\x7b\"arguments\":\"2\"\x7d\x7d]\x7d\x7d]\x7d"

def interleavedSecond : Units :=
  asciiUnits "\x7b\"choices\":[\x7b\"delta\":\x7b\"content\":\"x\",\"tool_calls\":[" ++
    asciiUnits "\x7b\"index\":0,\"function\":\x7b\"arguments\":\"3\"\x7d\x7d]\x7d,\"finish_reason\":\"stop\"\x7d]\x7d"

def statedCall (index : Nat) (arguments : String) : Value :=
  .object [(asciiUnits "index", .number (.finite index)), (asciiUnits "function", .object
    [(asciiUnits "arguments", .string (asciiUnits arguments))])]

/-- How these two payloads are read. -/
def interleavedSource : ChatSource Unit where
  parseJson data :=
    if data = interleavedFirst then
      some (.object [(asciiUnits "choices", .array [.object [(asciiUnits "delta", .object
        [(asciiUnits "tool_calls", .array [statedCall 0 "1", statedCall 1 "2"])])]])])
    else if data = interleavedSecond then
      some (.object [(asciiUnits "choices", .array [.object
        [(asciiUnits "delta", .object [(asciiUnits "content", .string (asciiUnits "x")),
          (asciiUnits "tool_calls", .array [statedCall 0 "3"])]),
        (asciiUnits "finish_reason", .string (asciiUnits "stop"))]])])
    else none
  parseUsage _ := none
  usageCounts _ := []
  errorBody payload := payload

def interleavedFrames : List SseFrame :=
  [{ event := none, data := interleavedFirst }, { event := none, data := interleavedSecond }]

/-- The second call waits for the first one's block, and the text waits behind both. -/
theorem interleaved_calls_told_in_full :
    toolInputs (ChatReader.events interleavedSource [] [] 4096 (interleavedFrames ++ [])) =
        [asciiUnits "13", asciiUnits "2"] ∧
      statedText .message (ChatReader.events interleavedSource [] [] 4096 (interleavedFrames ++ [])) =
        asciiUnits "x" := by
  have hframes : ∀ frame ∈ interleavedFrames,
      (readChatFrame interleavedSource.parseJson frame).goesOn = true := by decide +kernel
  have hfinish : ∃ choice ∈ readChoices interleavedSource.parseJson interleavedFrames,
      choice.finishReason.isSome = true := by decide +kernel
  have hlimit : (emitFrom (ChatReader.push interleavedSource) (ChatReader.begin [] [] 4096)
      interleavedFrames).1.emitter.failed = false := by decide +kernel
  obtain ⟨hcalls, htext, -⟩ := chat_stream_told_in_full interleavedSource [] [] 4096 interleavedFrames [] hframes
    (.inl ⟨rfl, hfinish⟩) hlimit
  exact ⟨hcalls.trans (by decide +kernel), htext.trans (by decide +kernel)⟩

end MultiAiRouter.Translate.Anthropic
