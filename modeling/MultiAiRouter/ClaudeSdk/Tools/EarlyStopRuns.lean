import MultiAiRouter.ClaudeSdk.Tools.Rewrite

/-!
# The early stop never cuts the model short

`createEarlyStop`: a hook captures every tool call and holds its denial until the turn is fully generated, the
stream is filtered through the tool rewriter, and the subprocess is aborted once every emitted call was denied. Each
synchronous stretch is one step.
-/

namespace MultiAiRouter.ClaudeSdk.Tools

open Common ClaudeSdk.Render

/-- A message of the SDK: one that carries a wire event, or any other. -/
inductive SdkMessage
  | event (turn : Option Units) (event : WireEvent)
  | other

/-- A tool call as the hook saw it. -/
structure CapturedToolCall where
  id : Units
  name : Units
  input : Value

/-- What the filter puts out. -/
inductive StopOutput
  | message (message : SdkMessage)
  | flushed (event : WireEvent)
  | toolUseResult

/-- Where the filter stands: it waits for a message or the stop, hands out what a message became or what the
rewriter still held, or has delivered its end. -/
inductive FilterPhase
  | pulling
  | yielding (rest : List SdkMessage)
  | flushing (rest : List WireEvent)
  | finished

/-- Everything the early stop keeps. The hooks are told apart by number: those that wait, may go on, or
answered. -/
structure EarlyStop where
  rewriter : ToolRewriter := {}
  captures : List CapturedToolCall := []
  holds : List Nat := []
  freed : List Nat := []
  answered : List Nat := []
  released : Bool := false
  stopped : Bool := false
  mainStarts : Nat := 0
  flushedBlocks : Nat := 0
  phase : FilterPhase := .pulling
  ended : Bool := false
  taken : List SdkMessage := []
  abortedHooks : List Nat := []
  aborts : Nat := 0
  outputs : List StopOutput := []

/-- A hook is called, aborted, or goes on; the stream delivers a message, ends or fails; the filter notices the
stop, or hands out one thing more. -/
inductive StopEvent
  | hookCalled (hook : Nat) (call : Option CapturedToolCall) (signalAborted : Bool)
  | hookAborted (hook : Nat)
  | hookResumed (hook : Nat)
  | streamMessage (message : SdkMessage)
  | streamEnded
  | streamFailed
  | stopNoticed
  | pulled

namespace EarlyStop

variable (source : ToolSource)

/-- Every hook that waits may go on. -/
def release (state : EarlyStop) : EarlyStop :=
  { state with released := true, freed := state.freed ++ state.holds, holds := [] }

/-- End the loop and abort the subprocess, once. -/
def stop (state : EarlyStop) : EarlyStop :=
  if state.stopped then state else { state.release with stopped := true, aborts := state.aborts + 1 }

/-- Every call that was emitted was captured. -/
def allCaptured (state : EarlyStop) : Bool :=
  state.rewriter.calls.all fun call => state.captures.any fun captured => captured.id == call.id

/-- Every emitted call denied, and nothing still generating. -/
def settled (state : EarlyStop) : Bool := state.released && !state.rewriter.calls.isEmpty && state.allCaptured

def stopIfSettled (state : EarlyStop) : EarlyStop := if state.settled then state.stop else state

/-- A hook is called: it captures the call, and waits unless it may go on. -/
def hookCalled (state : EarlyStop) (hook : Nat) (call : Option CapturedToolCall) (signalAborted : Bool) : EarlyStop :=
  let captured :=
    { state with
      captures := state.captures ++ call.toList
      abortedHooks := if signalAborted then hook :: state.abortedHooks else state.abortedHooks }
  -- a hook is called once
  if hook ∈ state.holds ++ state.freed ++ state.answered then state
  else if state.released || signalAborted then { captured with freed := state.freed ++ [hook] }
  else { captured with holds := state.holds ++ [hook] }

/-- The hook's own signal lets it go on. -/
def hookAborted (state : EarlyStop) (hook : Nat) : EarlyStop :=
  let aborted := { state with abortedHooks := hook :: state.abortedHooks }
  if hook ∈ state.holds then
    { aborted with holds := state.holds.filter (fun held => held != hook), freed := state.freed ++ [hook] }
  else aborted

/-- The hook goes on: it stops the loop if every call is denied, and answers with its denial. -/
def hookResumed (state : EarlyStop) (hook : Nat) : EarlyStop :=
  if hook ∈ state.freed then
    { state with
      freed := state.freed.filter fun freed => freed != hook
      answered := state.answered ++ [hook] }.stopIfSettled
  else state

/-- The message starts a turn of the client's own. -/
def mainStart : SdkMessage → Bool
  | .event none event => event.type == .messageStart
  | _ => false

/-- The message is the `message_delta` of the client's turn. -/
def mainDelta : SdkMessage → Bool
  | .event none event => event.type == .messageDelta
  | _ => false

/-- The rewriter takes the event in; a `message_delta` of the client's turn releases the denials. -/
def rewriteEvent (state : EarlyStop) (turn : Option Units) (event : WireEvent) : EarlyStop × List SdkMessage :=
  let pushed := state.rewriter.push source event turn
  let rewritten := { state with rewriter := pushed.1 }
  (if mainDelta (.event turn event) then rewritten.release.stopIfSettled else rewritten,
    (pushed.2.events event).map (SdkMessage.event turn))

/-- Take a message in. A second start of the client's turn after a call ends the loop. -/
def takeIn (state : EarlyStop) (message : SdkMessage) : EarlyStop × List SdkMessage :=
  match message with
  | .other => (state, [.other])
  | .event turn event =>
    let counted := if mainStart message then { state with mainStarts := state.mainStarts + 1 } else state
    if mainStart message && decide (1 < counted.mainStarts) && !counted.rewriter.calls.isEmpty then (counted.stop, [])
    else counted.rewriteEvent source turn event

/-- The input the hook saw last under the id. -/
def capturedInput (state : EarlyStop) (id : Units) : Option Value :=
  (state.captures.reverse.find? fun call => call.id == id).map CapturedToolCall.input

/-- The loop is left: no denial outlives it, and what the rewriter holds is still to come. -/
def leave (state : EarlyStop) : EarlyStop :=
  let flushed := state.rewriter.flush source state.capturedInput
  { state.release with rewriter := flushed.1, phase := .flushing flushed.2 }

/-- The stream failed by itself: the failure is the end. -/
def fail (state : EarlyStop) : EarlyStop := { state.release with phase := .finished }

/-- The reader asks for the next output. -/
def pull (state : EarlyStop) : EarlyStop :=
  match state.phase with
  | .pulling | .finished => state
  | .yielding [] => if state.stopped then state.leave source else { state with phase := .pulling }
  | .yielding (message :: rest) =>
    { state with phase := .yielding rest, outputs := state.outputs ++ [.message message] }
  | .flushing [] =>
    { state with
      phase := .finished
      outputs := state.outputs ++ if state.stopped then [.toolUseResult] else [] }
  | .flushing (event :: rest) =>
    { state with
      phase := .flushing rest
      flushedBlocks := state.flushedBlocks + if event.type = .contentBlockStop then 1 else 0
      outputs := state.outputs ++ [.flushed event] }

/-- The filter waits for the stream or the stop. -/
def isPulling (state : EarlyStop) : Bool :=
  match state.phase with
  | .pulling => true
  | _ => false

/-- One step. -/
def step (state : EarlyStop) : StopEvent → EarlyStop
  | .hookCalled hook call signalAborted => state.hookCalled hook call signalAborted
  | .hookAborted hook => state.hookAborted hook
  | .hookResumed hook => state.hookResumed hook
  | .streamMessage message =>
    if state.isPulling then
      let taken := { state with taken := state.taken ++ [message] }.takeIn source message
      { taken.1 with phase := .yielding taken.2 }
    else state
  | .streamEnded => if state.isPulling then { state with ended := true }.leave source else state
  | .streamFailed =>
    if state.isPulling then
      if state.stopped then { state with ended := true }.leave source else { state with ended := true }.fail
    else state
  | .stopNoticed => if state.isPulling && state.stopped then state.leave source else state
  | .pulled => state.pull source

/-- The steps in order, from the start of a stream. -/
def run (events : List StopEvent) : EarlyStop := runFrom (step source) {} events

end EarlyStop

namespace EarlyStop

/-- The `message_delta` of the client's turn was seen. -/
def deltaSeen (state : EarlyStop) : Bool := state.taken.any mainDelta

/-- The end of the filtered stream was delivered. -/
def endDelivered (state : EarlyStop) : Bool :=
  match state.phase with
  | .finished => true
  | _ => false

/-- Nothing is left to cut: the client's `message_delta` was seen and every emitted call was captured. -/
def FullyGenerated (state : EarlyStop) : Prop :=
  state.deltaSeen = true ∧ ∀ call ∈ state.rewriter.calls, ∃ captured ∈ state.captures, captured.id = call.id

/-- The message is another start of the client's turn after a call was emitted. -/
def SecondStart (state : EarlyStop) (event : StopEvent) : Prop :=
  ∃ message, event = .streamMessage message ∧ mainStart message = true ∧ state.taken.any mainStart = true ∧
    state.rewriter.calls ≠ []

/-- The hook's denial may go out: the client's `message_delta`, the stop, the stream's end or the hook's own
abort was seen. -/
def MayDeny (state : EarlyStop) (hook : Nat) : Prop :=
  state.deltaSeen = true ∨ state.stopped = true ∨ state.ended = true ∨ hook ∈ state.abortedHooks

/-- A step aborts only when that is due, lets a hook go on only when it may deny, and answer only when it
could before. -/
structure StepDue (source : ToolSource) (state : EarlyStop) (event : StopEvent) : Prop where
  abort : state.aborts < (state.step source event).aborts →
    state.ended = true ∨ FullyGenerated (state.step source event) ∨ SecondStart state event
  freed : ∀ hook ∈ (state.step source event).freed, MayDeny (state.step source event) hook
  answered : ∀ hook ∈ (state.step source event).answered, hook ∉ state.answered → MayDeny state hook

/-- The end is delivered by this step, after the stop. -/
def EndsStopped (source : ToolSource) (state : EarlyStop) (event : StopEvent) : Prop :=
  state.stopped = true ∧ state.endDelivered = false ∧ (state.step source event).endDelivered = true

def isResult : StopOutput → Bool
  | .toolUseResult => true
  | _ => false

/-- How often the synthetic result was put out. -/
def results (state : EarlyStop) : Nat := state.outputs.countP isResult

/-- The invariant of every reachable state. -/
structure Invariant (state : EarlyStop) : Prop where
  aborts : state.aborts = if state.stopped then 1 else 0
  released : state.released = true → state.deltaSeen = true ∨ state.stopped = true ∨ state.ended = true
  held : state.released = true → state.holds = []
  stopped : state.stopped = true → state.released = true
  ended : state.ended = true → state.released = true
  freed : ∀ hook ∈ state.freed, state.released = true ∨ hook ∈ state.abortedHooks
  starts : state.mainStarts = (state.taken.filter mainStart).length

/-- The message is among those taken in, and a start of the client's turn is counted. -/
def counted (state : EarlyStop) (message : SdkMessage) : EarlyStop :=
  { state with
    taken := state.taken ++ [message]
    mainStarts := state.mainStarts + if mainStart message then 1 else 0 }

section Steps

variable {source : ToolSource} {state : EarlyStop}

/-- What a release changes nothing of. -/
theorem Invariant.release (h : Invariant state)
    (hcause : state.deltaSeen = true ∨ state.stopped = true ∨ state.ended = true) : Invariant state.release :=
  ⟨h.aborts, fun _ => hcause, fun _ => rfl, fun _ => rfl, fun _ => rfl, fun _ _ => .inl rfl, h.starts⟩

/-- The stop keeps it. -/
theorem Invariant.stop (h : Invariant state) : Invariant state.stop := by
  unfold EarlyStop.stop
  split
  · exact h
  · next hnot =>
    refine ⟨?_, fun _ => .inr (.inl rfl), fun _ => rfl, fun _ => rfl, fun _ => rfl, fun _ _ => .inl rfl, h.starts⟩
    simp [h.aborts, hnot]

theorem Invariant.stopIfSettled (h : Invariant state) : Invariant state.stopIfSettled := by
  unfold EarlyStop.stopIfSettled
  split
  · exact h.stop
  · exact h

/-- The rewriter, the phase and the outputs are not the invariant's concern. -/
theorem Invariant.aside (h : Invariant state) (rewriter : ToolRewriter) (phase : FilterPhase)
    (outputs : List StopOutput) (flushedBlocks : Nat) :
    Invariant { state with rewriter, phase, outputs, flushedBlocks } :=
  ⟨h.aborts, h.released, h.held, h.stopped, h.ended, h.freed, h.starts⟩

/-- A hook that is called is new. -/
theorem Invariant.hookCalled (h : Invariant state) (hook : Nat) (call : Option CapturedToolCall)
    (signalAborted : Bool) : Invariant (state.hookCalled hook call signalAborted) := by
  have hmore : ∀ other ∈ state.abortedHooks,
      other ∈ if signalAborted then hook :: state.abortedHooks else state.abortedHooks := by
    intro other hother
    split
    · exact List.mem_cons_of_mem _ hother
    · exact hother
  unfold EarlyStop.hookCalled
  dsimp only
  split
  · exact h
  · split
    · next hfree =>
      refine ⟨h.aborts, h.released, h.held, h.stopped, h.ended, fun other hother => ?_, h.starts⟩
      rcases List.mem_append.mp hother with hother | hother
      · exact (h.freed other hother).imp_right (hmore other)
      · rw [List.mem_singleton.mp hother]
        cases signalAborted with
        | true => exact .inr (by simp)
        | false => exact .inl (by simpa using hfree)
    · next hwaits =>
      have hclosed : state.released = false := by
        simp only [Bool.or_eq_true, not_or] at hwaits
        simpa using hwaits.1
      refine ⟨h.aborts, h.released, fun hreleased => ?_, h.stopped, h.ended,
        fun other hother => (h.freed other hother).imp_right (hmore other), h.starts⟩
      exact absurd hreleased (by simp [hclosed])

/-- An aborted hook answers and waits no more. -/
theorem Invariant.hookAborted (h : Invariant state) (hook : Nat) : Invariant (state.hookAborted hook) := by
  unfold EarlyStop.hookAborted
  dsimp only
  split
  · refine ⟨h.aborts, h.released, fun hreleased => ?_, h.stopped, h.ended, fun other hother => ?_, h.starts⟩
    · rw [h.held hreleased]
      rfl
    · rcases List.mem_append.mp hother with hother | hother
      · exact (h.freed other hother).imp_right (List.mem_cons_of_mem _)
      · exact .inr (List.mem_singleton.mp hother ▸ List.mem_cons_self ..)
  · exact ⟨h.aborts, h.released, h.held, h.stopped, h.ended,
      fun other hother => (h.freed other hother).imp_right (List.mem_cons_of_mem _), h.starts⟩

/-- A hook that goes on is released. -/
theorem Invariant.hookResumed (h : Invariant state) (hook : Nat) : Invariant (state.hookResumed hook) := by
  unfold EarlyStop.hookResumed
  split
  · refine Invariant.stopIfSettled ?_
    exact ⟨h.aborts, h.released, h.held, h.stopped, h.ended,
      fun other hother => h.freed other (List.mem_of_mem_filter hother), h.starts⟩
  · exact h

/-- A message is counted when it is taken in. -/
theorem Invariant.counted (h : Invariant state) (message : SdkMessage) : Invariant (state.counted message) := by
  refine ⟨h.aborts, fun hreleased => (h.released hreleased).imp_left fun hseen => ?_, h.held, h.stopped, h.ended,
    h.freed, ?_⟩
  · unfold deltaSeen EarlyStop.counted at *
    rw [List.any_append, hseen, Bool.true_or]
  · unfold EarlyStop.counted
    rw [h.starts, List.filter_append, List.length_append]
    cases hstart : mainStart message <;> simp [hstart]

/-- An event goes through the rewriter. -/
theorem Invariant.rewriteEvent (h : Invariant state) (turn : Option Units) (event : WireEvent)
    (hseen : mainDelta (.event turn event) = true → state.deltaSeen = true) :
    Invariant (state.rewriteEvent source turn event).1 := by
  unfold EarlyStop.rewriteEvent
  dsimp only
  have hrewritten := h.aside (state.rewriter.push source event turn).1 state.phase state.outputs state.flushedBlocks
  split
  · next hdelta => exact (hrewritten.release (.inl (hseen hdelta))).stopIfSettled
  · exact hrewritten

/-- A message is taken in when it is counted. -/
theorem takeIn_counted (state : EarlyStop) (turn : Option Units) (event : WireEvent) :
    { state with taken := state.taken ++ [SdkMessage.event turn event] }.takeIn source (.event turn event) =
      if mainStart (.event turn event) && decide (1 < (state.counted (.event turn event)).mainStarts) &&
          !(state.counted (.event turn event)).rewriter.calls.isEmpty then
        ((state.counted (.event turn event)).stop, [])
      else (state.counted (.event turn event)).rewriteEvent source turn event := by
  unfold EarlyStop.takeIn EarlyStop.counted
  cases mainStart (.event turn event) <;> rfl

/-- A message is taken off the stream. -/
theorem Invariant.takeIn (h : Invariant state) (message : SdkMessage) :
    Invariant ({ state with taken := state.taken ++ [message] }.takeIn source message).1 := by
  cases message with
  | other => exact h.counted .other
  | event turn event =>
    have hcounted := h.counted (.event turn event)
    rw [takeIn_counted]
    split
    · exact hcounted.stop
    · refine hcounted.rewriteEvent turn event fun hdelta => ?_
      unfold deltaSeen EarlyStop.counted
      rw [List.any_append]
      simp [hdelta]

/-- The end of the stream releases every denial. -/
theorem Invariant.release_ended (h : Invariant state) : Invariant { state with ended := true }.release :=
  ⟨h.aborts, fun _ => .inr (.inr rfl), fun _ => rfl, fun _ => rfl, fun _ => rfl, fun _ _ => .inl rfl, h.starts⟩

/-- The loop is left once it is stopped. -/
theorem Invariant.leave (h : Invariant state) (hstopped : state.stopped = true) : Invariant (state.leave source) :=
  (h.release (.inr (.inl hstopped))).aside ..

theorem Invariant.leave_ended (h : Invariant state) : Invariant ({ state with ended := true }.leave source) :=
  h.release_ended.aside ..

theorem Invariant.pull (h : Invariant state) : Invariant (state.pull source) := by
  unfold EarlyStop.pull
  split
  · exact h
  · exact h
  · split
    · next hstopped => exact h.leave hstopped
    · exact h.aside ..
  · exact h.aside ..
  · exact h.aside ..
  · exact h.aside ..

/-- Every step keeps the invariant. -/
theorem Invariant.step (h : Invariant state) (event : StopEvent) : Invariant (state.step source event) := by
  cases event with
  | hookCalled hook call signalAborted => exact h.hookCalled hook call signalAborted
  | hookAborted hook => exact h.hookAborted hook
  | hookResumed hook => exact h.hookResumed hook
  | streamMessage message =>
    simp only [EarlyStop.step]
    split
    · exact (h.takeIn message).aside ..
    · exact h
  | streamEnded =>
    simp only [EarlyStop.step]
    split
    · exact h.leave_ended
    · exact h
  | streamFailed =>
    simp only [EarlyStop.step]
    split
    · split
      · exact h.leave_ended
      · exact h.release_ended.aside ..
    · exact h
  | stopNoticed =>
    simp only [EarlyStop.step]
    split
    · next hnoticed => exact h.leave (Bool.and_eq_true_iff.mp hnoticed).2
    · exact h
  | pulled => exact h.pull

/-- Stopping leaves the calls, the captures, the messages, the answers and the outputs. -/
theorem stop_keeps (state : EarlyStop) :
    state.stop.rewriter = state.rewriter ∧ state.stop.captures = state.captures ∧ state.stop.taken = state.taken ∧
      state.stop.answered = state.answered ∧ state.stop.phase = state.phase ∧ state.stop.outputs = state.outputs := by
  unfold EarlyStop.stop
  split <;> simp [EarlyStop.release]

/-- A stop that comes once all is settled leaves the stream alone. -/
theorem stopIfSettled_keeps (state : EarlyStop) :
    state.stopIfSettled.rewriter = state.rewriter ∧ state.stopIfSettled.captures = state.captures ∧
      state.stopIfSettled.taken = state.taken ∧ state.stopIfSettled.answered = state.answered ∧
      state.stopIfSettled.phase = state.phase ∧ state.stopIfSettled.outputs = state.outputs := by
  unfold EarlyStop.stopIfSettled
  split
  · exact stop_keeps state
  · simp

/-- An event through the rewriter answers no hook and puts out nothing. -/
theorem rewriteEvent_keeps (state : EarlyStop) (turn : Option Units) (event : WireEvent) :
    (state.rewriteEvent source turn event).1.answered = state.answered ∧
      (state.rewriteEvent source turn event).1.outputs = state.outputs := by
  unfold EarlyStop.rewriteEvent
  dsimp only
  split
  · obtain ⟨-, -, -, hanswered, -, houtputs⟩ :=
      stopIfSettled_keeps { state with rewriter := (state.rewriter.push source event turn).1 }.release
    exact ⟨hanswered, houtputs⟩
  · exact ⟨rfl, rfl⟩

/-- Nor does a message that is taken in. -/
theorem takeIn_keeps (state : EarlyStop) (message : SdkMessage) :
    ({ state with taken := state.taken ++ [message] }.takeIn source message).1.answered = state.answered ∧
      ({ state with taken := state.taken ++ [message] }.takeIn source message).1.outputs = state.outputs := by
  cases message with
  | other => exact ⟨rfl, rfl⟩
  | event turn event =>
    rw [takeIn_counted]
    split
    · obtain ⟨-, -, -, hanswered, -, houtputs⟩ := stop_keeps (state.counted (.event turn event))
      exact ⟨hanswered, houtputs⟩
    · exact rewriteEvent_keeps (state.counted (.event turn event)) turn event

/-- A loop stopped where it was found settled was fully generated, once the client's `message_delta` was
seen. -/
theorem fullyGenerated_of_settled (hseen : state.deltaSeen = true)
    (haborts : state.aborts < state.stopIfSettled.aborts) : FullyGenerated state.stopIfSettled := by
  obtain ⟨hrewriter, hcaptures, htaken, -⟩ := stopIfSettled_keeps state
  have hsettled : state.settled = true := by
    by_contra hnot
    simp [EarlyStop.stopIfSettled, hnot] at haborts
  refine ⟨?_, ?_⟩
  · rw [deltaSeen, htaken]
    exact hseen
  · intro call hcall
    rw [hrewriter] at hcall
    rw [hcaptures]
    have hall := (Bool.and_eq_true_iff.mp hsettled).2
    simpa [EarlyStop.allCaptured] using List.all_eq_true.mp hall call hcall

/-- A stopped loop is not aborted again. -/
theorem stopIfSettled_of_stopped (hstopped : state.stopped = true) : state.stopIfSettled = state := by
  unfold EarlyStop.stopIfSettled EarlyStop.stop
  simp [hstopped]

/-- Only a hook that goes on and a message abort anything, and only a hook that goes on answers. -/
theorem step_quiet (state : EarlyStop) (event : StopEvent) (hresumed : ∀ hook, event ≠ .hookResumed hook)
    (hmessage : ∀ message, event ≠ .streamMessage message) :
    (state.step source event).aborts = state.aborts ∧ (state.step source event).answered = state.answered := by
  cases event with
  | hookCalled hook call signalAborted =>
    simp only [EarlyStop.step, EarlyStop.hookCalled]
    split
    · exact ⟨rfl, rfl⟩
    · split <;> exact ⟨rfl, rfl⟩
  | hookAborted hook =>
    simp only [EarlyStop.step, EarlyStop.hookAborted]
    split <;> exact ⟨rfl, rfl⟩
  | hookResumed hook => exact absurd rfl (hresumed hook)
  | streamMessage message => exact absurd rfl (hmessage message)
  | streamEnded =>
    simp only [EarlyStop.step]
    split <;> exact ⟨rfl, rfl⟩
  | streamFailed =>
    simp only [EarlyStop.step]
    split
    · split <;> exact ⟨rfl, rfl⟩
    · exact ⟨rfl, rfl⟩
  | stopNoticed =>
    simp only [EarlyStop.step]
    split <;> exact ⟨rfl, rfl⟩
  | pulled =>
    simp only [EarlyStop.step, EarlyStop.pull]
    split
    · exact ⟨rfl, rfl⟩
    · exact ⟨rfl, rfl⟩
    · split <;> exact ⟨rfl, rfl⟩
    · exact ⟨rfl, rfl⟩
    · exact ⟨rfl, rfl⟩
    · exact ⟨rfl, rfl⟩

/-- A hook that may go on may deny. -/
theorem Invariant.mayDeny (h : Invariant state) {hook : Nat} (hfreed : hook ∈ state.freed) : MayDeny state hook := by
  rcases h.freed hook hfreed with hreleased | haborted
  · rcases h.released hreleased with hseen | hstopped | hended
    · exact .inl hseen
    · exact .inr (.inl hstopped)
    · exact .inr (.inr (.inl hended))
  · exact .inr (.inr (.inr haborted))

/-- A hook that goes on aborts only what was fully generated, or what has ended. -/
theorem Invariant.hookResumed_abort (h : Invariant state) {hook : Nat}
    (haborts : state.aborts < (state.hookResumed hook).aborts) :
    state.ended = true ∨ FullyGenerated (state.hookResumed hook) := by
  unfold EarlyStop.hookResumed at haborts ⊢
  split at haborts
  · next hfreed =>
    rw [if_pos hfreed]
    have hreleased : state.released = true := by
      by_contra hnot
      simp [EarlyStop.stopIfSettled, EarlyStop.settled, hnot] at haborts
    rcases h.released hreleased with hseen | hstopped | hended
    · exact .inr (fullyGenerated_of_settled hseen haborts)
    · rw [stopIfSettled_of_stopped (by exact hstopped)] at haborts
      exact absurd haborts (lt_irrefl _)
    · exact .inl hended
  · exact absurd haborts (lt_irrefl _)

/-- A message aborts only what was fully generated, or where the client's turn starts again. -/
theorem Invariant.takeIn_abort (h : Invariant state) {message : SdkMessage}
    (haborts : state.aborts < ({ state with taken := state.taken ++ [message] }.takeIn source message).1.aborts) :
    FullyGenerated ({ state with taken := state.taken ++ [message] }.takeIn source message).1 ∨
      SecondStart state (.streamMessage message) := by
  cases message with
  | other => exact absurd haborts (lt_irrefl _)
  | event turn event =>
    rw [takeIn_counted] at haborts ⊢
    split at haborts
    · next hagain =>
      simp only [Bool.and_eq_true, decide_eq_true_eq] at hagain
      obtain ⟨⟨hstart, hsecond⟩, hcalls⟩ := hagain
      refine .inr ⟨_, rfl, hstart, ?_, fun hnone => ?_⟩
      · simp only [EarlyStop.counted, hstart, if_true, h.starts] at hsecond
        obtain ⟨start, hin⟩ := List.exists_mem_of_length_pos (Nat.lt_of_succ_lt_succ hsecond)
        exact List.any_eq_true.mpr ⟨start, List.mem_filter.mp hin⟩
      · simp [EarlyStop.counted, hnone] at hcalls
    · next hfirst =>
      rw [if_neg hfirst]
      refine .inl ?_
      unfold EarlyStop.rewriteEvent at haborts ⊢
      dsimp only at haborts ⊢
      split at haborts
      · next hdelta =>
        rw [if_pos hdelta]
        refine fullyGenerated_of_settled ?_ haborts
        unfold deltaSeen EarlyStop.counted EarlyStop.release
        rw [List.any_append]
        simp [hdelta]
      · exact absurd haborts (lt_irrefl _)

/-- Every step from a reachable state is due. -/
theorem Invariant.stepDue (h : Invariant state) (event : StopEvent) : StepDue source state event := by
  refine ⟨fun haborts => ?_, fun hook => (h.step event).mayDeny, fun hook hanswered hnew => ?_⟩
  · cases event with
    | hookResumed hook => exact (h.hookResumed_abort haborts).imp_right .inl
    | streamMessage message =>
      simp only [EarlyStop.step] at haborts ⊢
      split at haborts
      · next hpulling =>
        rw [if_pos hpulling]
        exact .inr (h.takeIn_abort haborts)
      · exact absurd haborts (lt_irrefl _)
    | _ =>
      rw [(step_quiet state _ (by simp) (by simp)).1] at haborts
      exact absurd haborts (lt_irrefl _)
  · cases event with
    | hookResumed resumed =>
      simp only [EarlyStop.step, EarlyStop.hookResumed] at hanswered
      split at hanswered
      · next hfreed =>
        rw [(stopIfSettled_keeps _).2.2.2.1] at hanswered
        rcases List.mem_append.mp hanswered with hold | hthis
        · exact absurd hold hnew
        · exact h.mayDeny (List.mem_singleton.mp hthis ▸ hfreed)
      · exact absurd hanswered hnew
    | streamMessage message =>
      simp only [EarlyStop.step] at hanswered
      split at hanswered
      · rw [(takeIn_keeps state message).1] at hanswered
        exact absurd hanswered hnew
      · exact absurd hanswered hnew
    | _ =>
      rw [(step_quiet state _ (by simp) (by simp)).2] at hanswered
      exact absurd hanswered hnew

/-- A step delivers the end after the stop with one result more, or leaves the results, and what was
delivered stays. -/
def EndKept (source : ToolSource) (state : EarlyStop) (event : StopEvent) : Prop :=
  if state.stopped = true ∧ state.endDelivered = false ∧ (state.step source event).endDelivered = true then
    (state.step source event).results = state.results + 1
  else
    (state.step source event).results = state.results ∧
      (state.endDelivered = true → (state.step source event).endDelivered = true)

/-- A step that leaves the phase and the outputs alone is none of the end's. -/
theorem EndKept.of_aside {event : StopEvent} (hphase : (state.step source event).phase = state.phase)
    (houtputs : (state.step source event).outputs = state.outputs) : EndKept source state event := by
  have hend : (state.step source event).endDelivered = state.endDelivered := by rw [endDelivered, hphase, endDelivered]
  unfold EndKept
  rw [if_neg (by rw [hend]; simp), hend]
  exact ⟨by rw [results, houtputs, results], id⟩

/-- A step to a phase before the end says nothing about the result, from a state whose end was not delivered. -/
theorem EndKept.of_underway {event : StopEvent} (hbefore : state.endDelivered = false)
    (hafter : (state.step source event).endDelivered = false)
    (houtputs : (state.step source event).results = state.results) : EndKept source state event := by
  unfold EndKept
  rw [if_neg (by simp [hafter])]
  exact ⟨houtputs, by simp [hbefore]⟩

theorem endDelivered_of_isPulling (hpulling : state.isPulling = true) : state.endDelivered = false := by
  unfold EarlyStop.isPulling at hpulling
  unfold endDelivered
  split at hpulling
  · next hphase => rw [hphase]
  · simp at hpulling

/-- The reader gets the result with the end of a stopped loop, and never without it. -/
theorem endKept_pulled (source : ToolSource) (state : EarlyStop) : EndKept source state .pulled := by
  cases hphase : state.phase with
  | pulling =>
      exact .of_aside (by simp [EarlyStop.step, EarlyStop.pull, hphase])
        (by simp [EarlyStop.step, EarlyStop.pull, hphase])
  | finished =>
      exact .of_aside (by simp [EarlyStop.step, EarlyStop.pull, hphase])
        (by simp [EarlyStop.step, EarlyStop.pull, hphase])
  | yielding rest =>
    have hbefore : state.endDelivered = false := by simp [endDelivered, hphase]
    cases rest with
    | nil =>
      cases hstopped : state.stopped <;>
        exact .of_underway hbefore
          (by simp [EarlyStop.step, EarlyStop.pull, EarlyStop.leave, endDelivered, hphase, hstopped])
          (by simp [EarlyStop.step, EarlyStop.pull, EarlyStop.leave, EarlyStop.release, results, hphase, hstopped])
    | cons message rest =>
      exact .of_underway hbefore (by simp [EarlyStop.step, EarlyStop.pull, endDelivered, hphase])
        (by simp [EarlyStop.step, EarlyStop.pull, results, isResult, hphase])
  | flushing rest =>
    have hbefore : state.endDelivered = false := by simp [endDelivered, hphase]
    cases rest with
    | nil =>
      have hafter : (state.step source .pulled).endDelivered = true := by
        simp [EarlyStop.step, EarlyStop.pull, endDelivered, hphase]
      unfold EndKept
      rw [hbefore, hafter]
      cases hstopped : state.stopped <;>
        simp [EarlyStop.step, EarlyStop.pull, results, isResult, hphase, hstopped]
    | cons event rest =>
      exact .of_underway hbefore (by simp [EarlyStop.step, EarlyStop.pull, endDelivered, hphase])
        (by simp [EarlyStop.step, EarlyStop.pull, results, isResult, hphase])

/-- Every step keeps the end delivered. -/
theorem endKept_step (source : ToolSource) (state : EarlyStop) (event : StopEvent) : EndKept source state event := by
  cases event with
  | hookCalled hook call signalAborted =>
    refine .of_aside ?_ ?_ <;> simp only [EarlyStop.step, EarlyStop.hookCalled] <;> split
    · rfl
    · split <;> rfl
    · rfl
    · split <;> rfl
  | hookAborted hook =>
    refine .of_aside ?_ ?_ <;> simp only [EarlyStop.step, EarlyStop.hookAborted] <;> split <;> rfl
  | hookResumed hook =>
    obtain ⟨-, -, -, -, hphase, houtputs⟩ := stopIfSettled_keeps
      { state with freed := state.freed.filter fun freed => freed != hook, answered := state.answered ++ [hook] }
    refine .of_aside ?_ ?_ <;> simp only [EarlyStop.step, EarlyStop.hookResumed] <;> split
    · exact hphase
    · rfl
    · exact houtputs
    · rfl
  | streamMessage message =>
    cases hpulling : state.isPulling with
    | true =>
      refine .of_underway (endDelivered_of_isPulling hpulling) ?_ ?_
      · simp [EarlyStop.step, hpulling, endDelivered]
      · simp only [EarlyStop.step, hpulling, if_true, results]
        rw [(takeIn_keeps state message).2]
    | false => exact .of_aside (by simp [EarlyStop.step, hpulling]) (by simp [EarlyStop.step, hpulling])
  | streamEnded =>
    cases hpulling : state.isPulling with
    | true =>
      exact .of_underway (endDelivered_of_isPulling hpulling)
        (by simp [EarlyStop.step, hpulling, EarlyStop.leave, endDelivered])
        (by simp [EarlyStop.step, hpulling, EarlyStop.leave, EarlyStop.release, results])
    | false => exact .of_aside (by simp [EarlyStop.step, hpulling]) (by simp [EarlyStop.step, hpulling])
  | streamFailed =>
    cases hpulling : state.isPulling with
    | true =>
      have hbefore := endDelivered_of_isPulling hpulling
      cases hstopped : state.stopped with
      | true =>
        exact .of_underway hbefore (by simp [EarlyStop.step, hpulling, hstopped, EarlyStop.leave, endDelivered])
          (by simp [EarlyStop.step, hpulling, hstopped, EarlyStop.leave, EarlyStop.release, results])
      | false =>
        -- the failure is the end, and the loop was not stopped
        unfold EndKept
        rw [if_neg (by simp [hstopped]), hbefore]
        exact ⟨by simp [EarlyStop.step, hpulling, hstopped, EarlyStop.fail, EarlyStop.release, results], by simp⟩
    | false => exact .of_aside (by simp [EarlyStop.step, hpulling]) (by simp [EarlyStop.step, hpulling])
  | stopNoticed =>
    cases hpulling : state.isPulling with
    | true =>
      cases hstopped : state.stopped with
      | true =>
        exact .of_underway (endDelivered_of_isPulling hpulling)
          (by simp [EarlyStop.step, hpulling, hstopped, EarlyStop.leave, endDelivered])
          (by simp [EarlyStop.step, hpulling, hstopped, EarlyStop.leave, EarlyStop.release, results])
      | false =>
        exact .of_aside (by simp [EarlyStop.step, hpulling, hstopped]) (by simp [EarlyStop.step, hpulling, hstopped])
    | false => exact .of_aside (by simp [EarlyStop.step, hpulling]) (by simp [EarlyStop.step, hpulling])
  | pulled => exact endKept_pulled source state

end Steps

/-- The results after a run are those before it and the end that it delivered after the stop. -/
theorem results_runFrom (source : ToolSource) (events : List StopEvent) (state : EarlyStop) :
    0 < (runFrom (step source) state events).results ↔
      0 < state.results ∨ SomeStep (step source) (EndsStopped source) state events := by
  induction events generalizing state with
  | nil => simp [SomeStep]
  | cons event rest ih =>
    rw [runFrom_cons, ih, SomeStep, ← or_assoc]
    refine or_congr_left ?_
    have hkept := endKept_step source state event
    unfold EndKept at hkept
    split at hkept
    · next hends => exact iff_of_true (by omega) (.inr hends)
    · next hends =>
      rw [hkept.1]
      exact ⟨.inl, fun h => h.resolve_right hends⟩

/-- The result is put out once at most, and with the end. -/
theorem results_step_le (source : ToolSource) (state : EarlyStop) (event : StopEvent)
    (h : state.results ≤ if state.endDelivered then 1 else 0) :
    (state.step source event).results ≤ if (state.step source event).endDelivered then 1 else 0 := by
  have hkept := endKept_step source state event
  unfold EndKept at hkept
  split at hkept
  · next hends =>
    obtain ⟨-, hbefore, hafter⟩ := hends
    rw [hbefore] at h
    rw [hkept, hafter]
    simpa using h
  · obtain ⟨hresults, hstays⟩ := hkept
    rw [hresults]
    cases hbefore : state.endDelivered with
    | true => simpa [hbefore, hstays hbefore] using h
    | false =>
      rw [hbefore] at h
      exact le_trans h (Nat.zero_le _)

theorem invariant_start : Invariant {} := by
  constructor <;> simp

theorem run_invariant (source : ToolSource) (events : List StopEvent) : Invariant (run source events) :=
  runFrom_invariant Invariant (fun _ event h => h.step event) events {} invariant_start

/-- However hooks, the stream and its reader interleave: the subprocess is aborted once at most, every abort and
denial is due, no hook waits once the stream has ended, and the synthetic result comes once at most, exactly when
the loop was stopped before its end was delivered. -/
theorem early_stop_never_cuts_short (source : ToolSource) (events : List StopEvent) :
    (run source events).aborts ≤ 1 ∧ EveryStep (step source) (StepDue source) {} events ∧
      ((run source events).ended = true → (run source events).holds = []) ∧
      (run source events).results ≤ 1 ∧
      (0 < (run source events).results ↔ SomeStep (step source) (EndsStopped source) {} events) := by
  have h := run_invariant source events
  refine ⟨?_, ?_, fun hended => h.held (h.ended hended), ?_, ?_⟩
  · rw [h.aborts]
    split <;> omega
  · exact everyStep_of_invariant Invariant (fun _ event h => h.step event) (fun _ event h => h.stepDue event)
      events {} invariant_start
  · have hresults := runFrom_invariant (fun state => state.results ≤ if state.endDelivered then 1 else 0)
      (fun state event => results_step_le source state event) events {} (by simp [results])
    refine le_trans hresults ?_
    split <;> omega
  · rw [run, results_runFrom]
    simp [results]

end EarlyStop

end MultiAiRouter.ClaudeSdk.Tools
