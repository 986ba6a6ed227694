import MultiAiRouter.Common.Emit
import MultiAiRouter.Shutdown.WriterLifecycle

/-!
# The usage recorder

A record is queued and written later, in batches. The queue is bounded and sheds its oldest entries; a batch the
writer refuses is held beside the queue for one more try. One drain runs at a time, and stops at the first refusal.

A step is whatever can happen between two awaits. The callbacks do not throw and do not call the recorder back.
-/

namespace MultiAiRouter.Usage

open Common Shutdown

/-- What is queued: an attempt of a request, or the request's terminal. -/
inductive QueuedUsage (Attempt Terminal : Type)
  | attempt (record : Attempt)
  | terminal (terminal : Terminal)
  deriving DecidableEq

namespace QueuedUsage

variable {Attempt Terminal : Type}

/-- The attempt an entry is, if it is one. -/
def attempt? : QueuedUsage Attempt Terminal → Option Attempt
  | .attempt record => some record
  | .terminal _ => none

/-- The terminal an entry is, if it is one. -/
def terminal? : QueuedUsage Attempt Terminal → Option Terminal
  | .attempt _ => none
  | .terminal settled => some settled

end QueuedUsage

section BoundedQueue

/-- An array with a moving head. -/
structure BoundedQueue (T : Type) where
  maxItems : Nat
  items : List T := []
  head : Nat := 0
  dropped : Nat := 0
  positive : 1 ≤ maxItems
  head_le : head ≤ items.length

namespace BoundedQueue

variable {T : Type}

/-- A queue with no room at all cannot be made. -/
def create (maxItems : Nat) : Option (BoundedQueue T) :=
  if h : 1 ≤ maxItems then some { maxItems, positive := h, head_le := Nat.le_refl 0 } else none

/-- How many entries are queued. -/
def depth (queue : BoundedQueue T) : Nat := queue.items.length - queue.head

/-- The entries that are queued, oldest first. -/
def contents (queue : BoundedQueue T) : List T := queue.items.drop queue.head

/-- Cut off what lies before the head, once it is as long as what is behind it. -/
def reclaim (queue : BoundedQueue T) : BoundedQueue T :=
  if queue.head = 0 ∨ queue.head < queue.depth then queue
  else { queue with items := queue.items.drop queue.head, head := 0, head_le := Nat.zero_le _ }

theorem head_lt (queue : BoundedQueue T) (hfull : queue.maxItems ≤ queue.depth) :
    queue.head + 1 ≤ queue.items.length := by
  have hpositive := queue.positive
  unfold depth at hfull
  omega

/-- Shed the oldest entries until there is room for one more; every turn lowers the depth by one. -/
def shed (queue : BoundedQueue T) : Nat → BoundedQueue T
  | 0 => queue
  | turns + 1 =>
    if h : queue.maxItems ≤ queue.depth then
      shed { queue with
        head := queue.head + 1
        dropped := queue.dropped + 1
        head_le := queue.head_lt h } turns
    else queue

/-- Append an entry, shedding what it takes. The answer is whether nothing was shed. -/
def push (queue : BoundedQueue T) (item : T) : BoundedQueue T × Bool :=
  let room := queue.shed queue.depth
  ({ room with
      items := room.items ++ [item]
      head_le := by
        have := room.head_le
        simp only [List.length_append, List.length_singleton]
        omega }.reclaim,
    room.head == queue.head)

/-- Take up to `max` entries, oldest first. -/
def drain (queue : BoundedQueue T) (max : Nat) : BoundedQueue T × List T :=
  let take := min max queue.depth
  if take = 0 then (queue, [])
  else
    ({ queue with
        head := queue.head + take
        head_le := by
          have := queue.head_le
          simp only [take, depth]
          omega }.reclaim,
      queue.contents.take take)

@[simp] theorem length_contents (queue : BoundedQueue T) : queue.contents.length = queue.depth :=
  List.length_drop ..

@[simp] theorem reclaim_contents (queue : BoundedQueue T) : queue.reclaim.contents = queue.contents := by
  unfold reclaim
  split
  · rfl
  · simp [contents]

@[simp] theorem reclaim_dropped (queue : BoundedQueue T) : queue.reclaim.dropped = queue.dropped := by
  unfold reclaim
  split <;> rfl

/-- Shedding drops the oldest entries, and counts them. -/
theorem shed_spec (queue : BoundedQueue T) (turns : Nat) :
    ∃ count, (queue.shed turns).contents = queue.contents.drop count ∧
      (queue.shed turns).dropped = queue.dropped + count ∧ count ≤ queue.depth := by
  induction turns generalizing queue with
  | zero => exact ⟨0, rfl, rfl, Nat.zero_le _⟩
  | succ turns ih =>
    unfold shed
    split
    · next hfull =>
      have hless := queue.head_lt hfull
      obtain ⟨count, hcontents, hdropped, hcount⟩ := ih { queue with
        head := queue.head + 1, dropped := queue.dropped + 1
        head_le := queue.head_lt hfull }
      refine ⟨count + 1, ?_, ?_, ?_⟩
      · rw [hcontents, contents, contents, List.drop_drop, List.drop_drop, Nat.add_assoc, Nat.add_comm 1]
      · rw [hdropped, Nat.add_assoc, Nat.add_comm 1]
      · simp only [depth] at hcount hfull ⊢
        omega
    · exact ⟨0, rfl, rfl, Nat.zero_le _⟩

/-- A push drops the oldest entries, counts them, and appends the new one. -/
theorem push_spec (queue : BoundedQueue T) (item : T) :
    ∃ count, (queue.push item).1.contents = queue.contents.drop count ++ [item] ∧
      (queue.push item).1.dropped = queue.dropped + count ∧ count ≤ queue.depth := by
  obtain ⟨count, hcontents, hdropped, hcount⟩ := queue.shed_spec queue.depth
  refine ⟨count, ?_, ?_, hcount⟩
  · have happend : (queue.push item).1.contents = (queue.shed queue.depth).contents ++ [item] := by
      unfold push
      rw [reclaim_contents]
      exact List.drop_append_of_le_length (queue.shed queue.depth).head_le
    rw [happend, hcontents]
  · unfold push
    rw [reclaim_dropped]
    exact hdropped

/-- A drain takes entries off the front, and loses none. -/
theorem drain_spec (queue : BoundedQueue T) (max : Nat) :
    (queue.drain max).2 ++ (queue.drain max).1.contents = queue.contents ∧
      (queue.drain max).1.dropped = queue.dropped := by
  unfold drain
  dsimp only
  split
  · exact ⟨rfl, rfl⟩
  · constructor
    · rw [reclaim_contents]
      have hrest : queue.items.drop (queue.head + min max queue.depth) =
          queue.contents.drop (min max queue.depth) := by
        rw [contents, List.drop_drop]
      exact (congrArg (queue.contents.take (min max queue.depth) ++ ·) hrest).trans (List.take_append_drop ..)
    · exact reclaim_dropped _

end BoundedQueue

end BoundedQueue

section Recorder

variable {Attempt Terminal : Type}

/-- The drain that is under way. -/
inductive DrainRun (Entry : Type)
  | idle
  | writing (batch : List Entry) (retried : Bool)
  /-- It has returned, and has not yet made way for the next. -/
  | over
  deriving DecidableEq

/-- The batch that is awaited, and whether this is its second try. -/
def DrainRun.write? {Entry : Type} : DrainRun Entry → Option (List Entry × Bool)
  | .writing batch retried => some (batch, retried)
  | _ => none

/-- Everything the recorder keeps. -/
structure Recorder (Attempt Terminal : Type) where
  queue : BoundedQueue (QueuedUsage Attempt Terminal)
  batchSize : Nat
  retry : Option (List (QueuedUsage Attempt Terminal)) := none
  run : DrainRun (QueuedUsage Attempt Terminal) := .idle
  timer : Bool := false
  lifecycle : WriterLifecycle := {}
  rejectedAfterStop : Nat := 0
  written : Nat := 0
  writeFailures : Nat := 0
  writeDiscarded : Nat := 0

/-- What becomes of the records in a step, and the callbacks that are told. -/
inductive UsageFate (Attempt Terminal : Type)
  | accepted (entry : QueuedUsage Attempt Terminal)
  | rejected (entry : QueuedUsage Attempt Terminal)
  | shed (entries : List (QueuedUsage Attempt Terminal))
  /-- `onShed` is told of the entry that came, not of the one that went. -/
  | onShed (entry : QueuedUsage Attempt Terminal)
  | onRecord (record : Attempt)
  | offered (attempts : List Attempt) (terminals : List Terminal)
  | wrote (batch : List (QueuedUsage Attempt Terminal))
  | onWriteError (batch : List (QueuedUsage Attempt Terminal)) (discarded : Bool)
  | onAbandoned (records : Nat)
  deriving DecidableEq

/-- What can happen to a recorder. -/
inductive RecorderEvent (Attempt Terminal : Type)
  | record (record : Attempt)
  | recordTerminal (terminal : Terminal)
  | flush
  | tick
  | writeSucceeds
  | writeRefused
  | drainSettles
  | start
  | stop
  | deadline
  | drainResumes (failed : Bool)
  deriving DecidableEq

namespace Recorder

/-- The batch that is being written. -/
def inFlight (recorder : Recorder Attempt Terminal) : List (QueuedUsage Attempt Terminal) :=
  (recorder.run.write?.map Prod.fst).getD []

/-- The batch that waits for its second try. -/
def held (recorder : Recorder Attempt Terminal) : List (QueuedUsage Attempt Terminal) := recorder.retry.getD []

/-- The depth that is reported: what is queued, and the batch that waits. -/
def depth (recorder : Recorder Attempt Terminal) : Nat := recorder.queue.depth + recorder.held.length

/-- What is not yet written, the batch under way included. -/
def outstanding (recorder : Recorder Attempt Terminal) : Nat := recorder.depth + recorder.inFlight.length

/-- Offer a batch to the writer; a retried batch is not observed again. -/
def writeBatch (recorder : Recorder Attempt Terminal) (batch : List (QueuedUsage Attempt Terminal))
    (retried : Bool) : Recorder Attempt Terminal × List (UsageFate Attempt Terminal) :=
  let attempts := batch.filterMap QueuedUsage.attempt?
  let terminals := batch.filterMap QueuedUsage.terminal?
  ({ recorder with run := .writing batch retried },
    (if retried then [] else attempts.map UsageFate.onRecord) ++ [UsageFate.offered attempts terminals])

/-- One turn of `drainAll`, up to the write it awaits. -/
def drainAll (recorder : Recorder Attempt Terminal) : Recorder Attempt Terminal × List (UsageFate Attempt Terminal) :=
  if !recorder.lifecycle.canWrite then ({ recorder with run := .over }, [])
  else
    match recorder.retry with
    | some batch =>
      let taken := { recorder with retry := none }
      if batch.isEmpty then ({ taken with run := .over }, []) else taken.writeBatch batch true
    | none =>
      let drained := recorder.queue.drain recorder.batchSize
      let taken := { recorder with queue := drained.1 }
      if drained.2.isEmpty then ({ taken with run := .over }, []) else taken.writeBatch drained.2 false

/-- Begin a drain, unless one is under way. -/
def flush (recorder : Recorder Attempt Terminal) : Recorder Attempt Terminal × List (UsageFate Attempt Terminal) :=
  match recorder.run with
  | .idle => recorder.drainAll
  | _ => (recorder, [])

/-- The awaited write settles. -/
def writeSettles (recorder : Recorder Attempt Terminal) (accepted : Bool) :
    Recorder Attempt Terminal × List (UsageFate Attempt Terminal) :=
  match recorder.run with
  | .writing batch retried =>
    if accepted then
      let next := { recorder with written := recorder.written + batch.length }.drainAll
      (next.1, UsageFate.wrote batch :: next.2)
    else
      let refused := { recorder with writeFailures := recorder.writeFailures + batch.length, run := .over }
      (if retried then { refused with writeDiscarded := recorder.writeDiscarded + batch.length }
        else { refused with retry := some batch },
        [UsageFate.onWriteError batch retried])
  | _ => (recorder, [])

/-- Queue an entry, or count it as rejected once the recorder is stopped. -/
def enqueue (recorder : Recorder Attempt Terminal) (entry : QueuedUsage Attempt Terminal) :
    Recorder Attempt Terminal × List (UsageFate Attempt Terminal) :=
  if !recorder.lifecycle.accepting then
    ({ recorder with rejectedAfterStop := recorder.rejectedAfterStop + 1 }, [UsageFate.rejected entry])
  else
    let pushed := recorder.queue.push entry
    -- What is gone from the front of the queue is what was shed.
    ({ recorder with queue := pushed.1 }, [UsageFate.accepted entry,
        UsageFate.shed (recorder.queue.contents.take (pushed.1.dropped - recorder.queue.dropped))] ++
      if pushed.2 then [] else [UsageFate.onShed entry])

/-- A stop asked for a pass, or did not. -/
def pass (recorder : Recorder Attempt Terminal) (begins : Bool) :
    Recorder Attempt Terminal × List (UsageFate Attempt Terminal) :=
  if begins then recorder.flush else (recorder, [])

/-- The warning of a stop. -/
def warned (records : Option Nat) : List (UsageFate Attempt Terminal) :=
  (records.map UsageFate.onAbandoned).toList

/-- One thing happens. -/
def step (recorder : Recorder Attempt Terminal) :
    RecorderEvent Attempt Terminal → Recorder Attempt Terminal × List (UsageFate Attempt Terminal)
  | .record record => recorder.enqueue (.attempt record)
  | .recordTerminal terminal => recorder.enqueue (.terminal terminal)
  | .flush => recorder.flush
  | .tick => recorder.pass recorder.timer
  | .writeSucceeds => recorder.writeSettles true
  | .writeRefused => recorder.writeSettles false
  | .drainSettles =>
    match recorder.run with
    | .over => ({ recorder with run := .idle }, [])
    | _ => (recorder, [])
  | .start =>
    let started := recorder.lifecycle.start
    ({ recorder with lifecycle := started.1, timer := recorder.timer || started.2 }, [])
  | .stop =>
    let stopped := recorder.lifecycle.stop
    { recorder with timer := false, lifecycle := stopped.1 }.pass stopped.2
  | .deadline =>
    let fired := recorder.lifecycle.deadline recorder.outstanding
    ({ recorder with lifecycle := fired.1 }, warned fired.2)
  | .drainResumes failed =>
    -- The pass may have settled any time ago: nothing here depends on when the stop goes on.
    let resumed := recorder.lifecycle.drainResumes failed recorder.depth recorder.outstanding
    let next := { recorder with lifecycle := resumed.1 }.pass resumed.2.2
    (next.1, warned resumed.2.1 ++ next.2)

end Recorder

/-- A recorder with an empty queue. -/
def createUsageRecorder (Attempt Terminal : Type) (maxQueued batchSize : Nat) : Option (Recorder Attempt Terminal) :=
  (BoundedQueue.create maxQueued).map fun queue => { queue, batchSize }

end Recorder

end MultiAiRouter.Usage
