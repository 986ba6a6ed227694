import Mathlib.Data.List.Perm.Basic
import MultiAiRouter.Usage.Recorder

/-!
# Which record is reported as shed

A record that meets a full queue sheds the oldest one, and `onShed` is called once for it. The call is handed
the record that came, not the one that went.
-/

namespace MultiAiRouter.Usage

open Common

variable {Attempt Terminal : Type}

/-- The records a fate drops from the queue. -/
def UsageFate.dropped : UsageFate Attempt Terminal → List (QueuedUsage Attempt Terminal)
  | .shed entries => entries
  | _ => []

/-- The records a fate hands to `onShed`. -/
def UsageFate.reported : UsageFate Attempt Terminal → List (QueuedUsage Attempt Terminal)
  | .onShed entry => [entry]
  | _ => []

def droppedRecords (fates : List (UsageFate Attempt Terminal)) : List (QueuedUsage Attempt Terminal) :=
  fates.flatMap UsageFate.dropped

def reportedRecords (fates : List (UsageFate Attempt Terminal)) : List (QueuedUsage Attempt Terminal) :=
  fates.flatMap UsageFate.reported

/-- The record an event brings. -/
def RecorderEvent.record? : RecorderEvent Attempt Terminal → Option (QueuedUsage Attempt Terminal)
  | .record arrived => some (.attempt arrived)
  | .recordTerminal settled => some (.terminal settled)
  | _ => none

/-- A record that meets a full queue is the very record that goes. -/
def Recorder.ShedsItself (recorder : Recorder Attempt Terminal) (event : RecorderEvent Attempt Terminal) : Prop :=
  ∀ entry, event.record? = some entry → recorder.lifecycle.accepting = true →
    recorder.queue.maxItems ≤ recorder.queue.depth → recorder.queue.contents.head? = some entry

section Queue

variable {T : Type} {queue : BoundedQueue T}

theorem BoundedQueue.reclaim_maxItems (queue : BoundedQueue T) : queue.reclaim.maxItems = queue.maxItems := by
  unfold BoundedQueue.reclaim
  split <;> rfl

/-- A push is what the shedding leaves, and the entry. -/
theorem BoundedQueue.push_of_shed {room : BoundedQueue T} (h : queue.shed queue.depth = room) (item : T) :
    (queue.push item).2 = (room.head == queue.head) ∧ (queue.push item).1.dropped = room.dropped ∧
      (queue.push item).1.contents = room.contents ++ [item] ∧ (queue.push item).1.maxItems = room.maxItems := by
  subst h
  unfold BoundedQueue.push
  refine ⟨rfl, by rw [BoundedQueue.reclaim_dropped], ?_, BoundedQueue.reclaim_maxItems _⟩
  rw [BoundedQueue.reclaim_contents]
  exact List.drop_append_of_le_length (queue.shed queue.depth).head_le

/-- There is room: nothing goes. -/
theorem BoundedQueue.push_room (h : queue.depth < queue.maxItems) (item : T) :
    (queue.push item).2 = true ∧ (queue.push item).1.dropped = queue.dropped ∧
      (queue.push item).1.contents = queue.contents ++ [item] ∧ (queue.push item).1.maxItems = queue.maxItems := by
  have hshed : queue.shed queue.depth = queue := by
    cases hdepth : queue.depth with
    | zero => rfl
    | succ turns =>
      rw [BoundedQueue.shed, dif_neg (by omega)]
  obtain ⟨hpushed, hrest⟩ := BoundedQueue.push_of_shed hshed item
  exact ⟨by rw [hpushed, beq_self_eq_true], hrest⟩

/-- The queue is full: the oldest entry goes. -/
theorem BoundedQueue.push_full (h : queue.depth = queue.maxItems) (item : T) :
    (queue.push item).2 = false ∧ (queue.push item).1.dropped = queue.dropped + 1 ∧
      (queue.push item).1.contents = queue.contents.tail ++ [item] ∧
      (queue.push item).1.maxItems = queue.maxItems := by
  have hpositive := queue.positive
  obtain ⟨turns, hturns⟩ : ∃ turns, queue.depth = turns + 1 := ⟨queue.depth - 1, by omega⟩
  have hhead : queue.head < queue.items.length := by
    unfold BoundedQueue.depth at hturns
    omega
  have hshed : queue.shed queue.depth =
      { queue with head := queue.head + 1, dropped := queue.dropped + 1, head_le := hhead } := by
    rw [hturns, BoundedQueue.shed, dif_pos (by omega)]
    cases turns with
    | zero => rfl
    | succ turns =>
      rw [BoundedQueue.shed, dif_neg]
      unfold BoundedQueue.depth at hturns h ⊢
      dsimp only
      omega
  obtain ⟨hpushed, hdropped, hcontents, hbound⟩ := BoundedQueue.push_of_shed hshed item
  refine ⟨by rw [hpushed]; simp, hdropped, ?_, hbound⟩
  rw [hcontents, BoundedQueue.contents, BoundedQueue.contents, List.tail_drop]

/-- A drain adds nothing. -/
theorem BoundedQueue.drain_bound (max : ℕ) :
    (queue.drain max).1.depth ≤ queue.depth ∧ (queue.drain max).1.maxItems = queue.maxItems := by
  constructor
  · have hsplit := congrArg List.length (queue.drain_spec max).1
    rw [List.length_append, BoundedQueue.length_contents, BoundedQueue.length_contents] at hsplit
    omega
  · unfold BoundedQueue.drain
    dsimp only
    split
    · rfl
    · exact BoundedQueue.reclaim_maxItems _

end Queue

section Quiet

variable {recorder next last : Recorder Attempt Terminal} {told more : List (UsageFate Attempt Terminal)}

/-- The queue is not over its bound. -/
def Recorder.Within (recorder : Recorder Attempt Terminal) : Prop := recorder.queue.depth ≤ recorder.queue.maxItems

/-- Nothing is dropped and nothing reported, and the queue does not grow. -/
structure Quiet (recorder next : Recorder Attempt Terminal) (told : List (UsageFate Attempt Terminal)) : Prop where
  fates : ∀ fate ∈ told, fate.dropped = [] ∧ fate.reported = []
  depth : next.queue.depth ≤ recorder.queue.depth
  bound : next.queue.maxItems = recorder.queue.maxItems

theorem Quiet.refl (hqueue : next.queue = recorder.queue)
    (hfates : ∀ fate ∈ told, fate.dropped = [] ∧ fate.reported = []) : Quiet recorder next told :=
  ⟨hfates, Nat.le_of_eq (by rw [hqueue]), by rw [hqueue]⟩

/-- Quiet steps follow one another. -/
theorem Quiet.trans (h : Quiet recorder next told) (hmore : Quiet next last more) :
    Quiet recorder last (told ++ more) where
  fates := fun fate hfate => (List.mem_append.mp hfate).elim (h.fates fate) (hmore.fates fate)
  depth := Nat.le_trans hmore.depth h.depth
  bound := hmore.bound.trans h.bound

/-- They keep the queue within its bound. -/
theorem Quiet.within (h : Quiet recorder next told) (hwithin : recorder.Within) : next.Within := by
  unfold Recorder.Within at hwithin ⊢
  rw [h.bound]
  exact Nat.le_trans h.depth hwithin

theorem Quiet.told_eq (h : Quiet recorder next told) : droppedRecords told = [] ∧ reportedRecords told = [] :=
  ⟨List.flatMap_eq_nil_iff.mpr fun fate hfate => (h.fates fate hfate).1,
    List.flatMap_eq_nil_iff.mpr fun fate hfate => (h.fates fate hfate).2⟩

/-- Writing a batch is quiet. -/
theorem quiet_writeBatch (batch : List (QueuedUsage Attempt Terminal)) (retried : Bool) :
    Quiet recorder (recorder.writeBatch batch retried).1 (recorder.writeBatch batch retried).2 := by
  refine .refl rfl fun fate hfate => ?_
  rcases List.mem_append.mp hfate with hobserved | hoffered
  · split at hobserved
    · cases hobserved
    · obtain ⟨record, -, rfl⟩ := List.mem_map.mp hobserved
      exact ⟨rfl, rfl⟩
  · rw [List.mem_singleton.mp hoffered]
    exact ⟨rfl, rfl⟩

/-- Draining is quiet. -/
theorem quiet_drainAll : Quiet recorder recorder.drainAll.1 recorder.drainAll.2 := by
  unfold Recorder.drainAll
  split
  · exact .refl rfl nofun
  split
  · next batch _ =>
    dsimp only
    split
    · exact .refl rfl nofun
    · have htaken : Quiet recorder { recorder with retry := none } [] := .refl rfl nofun
      exact htaken.trans (quiet_writeBatch batch true)
  · dsimp only
    have hdrained : Quiet recorder { recorder with queue := (recorder.queue.drain recorder.batchSize).1 } [] :=
      ⟨nofun, (BoundedQueue.drain_bound recorder.batchSize).1, (BoundedQueue.drain_bound recorder.batchSize).2⟩
    split
    · exact ⟨nofun, hdrained.depth, hdrained.bound⟩
    · exact hdrained.trans (quiet_writeBatch _ false)

theorem quiet_flush : Quiet recorder recorder.flush.1 recorder.flush.2 := by
  unfold Recorder.flush
  split
  · exact quiet_drainAll
  · exact .refl rfl nofun

theorem quiet_pass (begins : Bool) : Quiet recorder (recorder.pass begins).1 (recorder.pass begins).2 := by
  unfold Recorder.pass
  split
  · exact quiet_flush
  · exact .refl rfl nofun

/-- A write that settles is quiet. -/
theorem quiet_writeSettles (accepted : Bool) :
    Quiet recorder (recorder.writeSettles accepted).1 (recorder.writeSettles accepted).2 := by
  unfold Recorder.writeSettles
  split
  · next batch retried _ =>
    split
    · have hwrote : Quiet recorder { recorder with written := recorder.written + batch.length }
          [UsageFate.wrote batch] := by
        refine .refl rfl fun fate hfate => ?_
        rw [List.mem_singleton.mp hfate]
        exact ⟨rfl, rfl⟩
      exact hwrote.trans quiet_drainAll
    · refine .refl ?_ fun fate hfate => ?_
      · dsimp only
        split <;> rfl
      · rw [List.mem_singleton.mp hfate]
        exact ⟨rfl, rfl⟩
  · exact .refl rfl nofun

/-- A warning is quiet. -/
theorem sheds_warned (records : Option ℕ) (hqueue : next.queue = recorder.queue) :
    Quiet recorder next (Recorder.warned records) := by
  refine .refl hqueue fun fate hfate => ?_
  cases records with
  | none => cases hfate
  | some count =>
    rw [List.mem_singleton.mp hfate]
    exact ⟨rfl, rfl⟩

/-- Only a record that comes drops one or reports one. -/
theorem quiet_step (event : RecorderEvent Attempt Terminal) (hevent : event.record? = none) :
    Quiet recorder (recorder.step event).1 (recorder.step event).2 := by
  cases event with
  | record record => cases hevent
  | recordTerminal terminal => cases hevent
  | flush => exact quiet_flush
  | tick => exact quiet_pass _
  | writeSucceeds => exact quiet_writeSettles true
  | writeRefused => exact quiet_writeSettles false
  | drainSettles =>
    unfold Recorder.step
    dsimp only
    split
    · exact .refl rfl nofun
    · exact .refl rfl nofun
  | start => exact .refl rfl nofun
  | stop =>
    have hstopped : Quiet recorder { recorder with timer := false, lifecycle := recorder.lifecycle.stop.1 } [] :=
      .refl rfl nofun
    exact hstopped.trans (quiet_pass _)
  | deadline => exact sheds_warned _ rfl
  | drainResumes failed =>
    have hresumed : Quiet recorder
        { recorder with
          lifecycle := (recorder.lifecycle.drainResumes failed recorder.depth recorder.outstanding).1 }
        (Recorder.warned (recorder.lifecycle.drainResumes failed recorder.depth recorder.outstanding).2.1) :=
      sheds_warned _ rfl
    exact hresumed.trans (quiet_pass _)

end Quiet

section Sheds

variable {recorder : Recorder Attempt Terminal}

/-- What a record that comes drops and reports: nothing, or one record each. -/
theorem enqueue_told (hwithin : recorder.Within) (entry : QueuedUsage Attempt Terminal) :
    (recorder.enqueue entry).1.Within ∧
      (¬ (recorder.lifecycle.accepting = true ∧ recorder.queue.maxItems ≤ recorder.queue.depth) ∧
          droppedRecords (recorder.enqueue entry).2 = [] ∧ reportedRecords (recorder.enqueue entry).2 = [] ∨
        (recorder.lifecycle.accepting = true ∧ recorder.queue.maxItems ≤ recorder.queue.depth) ∧
          ∃ oldest, recorder.queue.contents.head? = some oldest ∧
            droppedRecords (recorder.enqueue entry).2 = [oldest] ∧
            reportedRecords (recorder.enqueue entry).2 = [entry]) := by
  unfold Recorder.Within at hwithin ⊢
  unfold Recorder.enqueue
  by_cases haccepting : recorder.lifecycle.accepting = true
  · rw [if_neg (by simp [haccepting])]
    dsimp only
    rcases Nat.lt_or_ge recorder.queue.depth recorder.queue.maxItems with hroom | hfull
    · obtain ⟨hpushed, hdropped, hcontents, hbound⟩ := BoundedQueue.push_room hroom entry
      have hdepth := congrArg List.length hcontents
      rw [BoundedQueue.length_contents, List.length_append, BoundedQueue.length_contents,
        List.length_singleton] at hdepth
      rw [hpushed, hdropped, hbound, Nat.sub_self]
      exact ⟨by omega, .inl ⟨by omega, rfl, rfl⟩⟩
    · have hdepthEq : recorder.queue.depth = recorder.queue.maxItems := by omega
      obtain ⟨hpushed, hdropped, hcontents, hbound⟩ := BoundedQueue.push_full hdepthEq entry
      have hpositive := recorder.queue.positive
      have hlength := recorder.queue.length_contents
      obtain ⟨oldest, rest, hoccupied⟩ : ∃ oldest rest, recorder.queue.contents = oldest :: rest :=
        List.exists_cons_of_length_pos (by omega)
      have hdepth := congrArg List.length hcontents
      rw [BoundedQueue.length_contents, List.length_append, List.length_tail, BoundedQueue.length_contents,
        List.length_singleton] at hdepth
      rw [hpushed, hdropped, hbound, Nat.add_sub_cancel_left, hoccupied]
      exact ⟨by omega, .inr ⟨⟨haccepting, hfull⟩, oldest, rfl, rfl, rfl⟩⟩
  · rw [if_pos (by simpa using haccepting)]
    exact ⟨hwithin, .inl ⟨fun h => haccepting h.1, rfl, rfl⟩⟩

/-- One step drops as many records as it reports, and the same ones exactly when a record that meets a full
queue goes. -/
theorem step_told (hwithin : recorder.Within) (event : RecorderEvent Attempt Terminal) :
    (recorder.step event).1.Within ∧
      (droppedRecords (recorder.step event).2).length = (reportedRecords (recorder.step event).2).length ∧
      ((reportedRecords (recorder.step event).2).Perm (droppedRecords (recorder.step event).2) ↔
        recorder.ShedsItself event) := by
  cases hrecord : event.record? with
  | none =>
    have hquiet := @quiet_step _ _ recorder event hrecord
    obtain ⟨hdropped, hreported⟩ := hquiet.told_eq
    rw [hdropped, hreported]
    refine ⟨hquiet.within hwithin, rfl, iff_of_true .nil fun entry hentry => ?_⟩
    exact absurd (hrecord.symm.trans hentry) (by simp)
  | some entry =>
    have hstep : recorder.step event = recorder.enqueue entry := by
      cases event <;> cases hrecord <;> rfl
    have hsheds : recorder.ShedsItself event ↔ (recorder.lifecycle.accepting = true →
        recorder.queue.maxItems ≤ recorder.queue.depth → recorder.queue.contents.head? = some entry) := by
      unfold Recorder.ShedsItself
      rw [hrecord]
      simp
    rw [hstep, hsheds]
    obtain ⟨hnext, ⟨hroom, hdropped, hreported⟩ | ⟨⟨haccepting, hfull⟩, oldest, hoccupied, hdropped, hreported⟩⟩ :=
      enqueue_told hwithin entry
    · rw [hdropped, hreported]
      exact ⟨hnext, rfl, iff_of_true .nil fun haccepting hfull => absurd ⟨haccepting, hfull⟩ hroom⟩
    · rw [hdropped, hreported, hoccupied, List.perm_singleton, List.cons.injEq, Option.some.injEq]
      refine ⟨hnext, rfl, ?_⟩
      constructor
      · exact fun hsame _ _ => hsame.1.symm
      · exact fun hsame => ⟨(hsame haccepting hfull).symm, rfl⟩

/-- A new recorder is within its bound. -/
theorem within_created {maxQueued batchSize : ℕ}
    (hcreate : createUsageRecorder Attempt Terminal maxQueued batchSize = some recorder) : recorder.Within := by
  obtain ⟨queue, hqueue, rfl⟩ := Option.map_eq_some_iff.mp hcreate
  unfold BoundedQueue.create at hqueue
  split at hqueue
  · cases hqueue
    exact Nat.zero_le _
  · cases hqueue

/-- The reports of a run are the records dropped at every moment of it exactly when each record that meets a full
queue is the one that goes. -/
theorem reports_iff (hwithin : recorder.Within) (events : List (RecorderEvent Attempt Terminal)) :
    (∀ earlier, earlier <+: events → (reportedRecords (emitFrom Recorder.step recorder earlier).2).Perm
        (droppedRecords (emitFrom Recorder.step recorder earlier).2)) ↔
      EveryStep (fun recorder event => (recorder.step event).1) Recorder.ShedsItself recorder events := by
  induction events generalizing recorder with
  | nil =>
    refine iff_of_true (fun earlier hearlier => ?_) trivial
    rw [List.prefix_nil.mp hearlier]
    exact .nil
  | cons event rest ih =>
    obtain ⟨hnext, -, hsame⟩ := step_told hwithin event
    have hfirst : emitFrom Recorder.step recorder [event] = ((recorder.step event).1, (recorder.step event).2) := by
      rw [emitFrom_cons, emitFrom_nil, List.append_nil]
    rw [EveryStep, ← hsame, ← ih hnext]
    constructor
    · intro h
      have hone := h [event] ⟨rest, rfl⟩
      rw [hfirst] at hone
      refine ⟨hone, fun earlier hearlier => ?_⟩
      have hmore := h (event :: earlier) (List.cons_prefix_cons.mpr ⟨rfl, hearlier⟩)
      unfold reportedRecords droppedRecords at hone hmore ⊢
      rw [emitFrom_cons, List.flatMap_append, List.flatMap_append] at hmore
      exact (List.perm_append_left_iff _).mp (((hone.symm.append_right _).trans hmore))
    · rintro ⟨hone, hlater⟩ earlier hearlier
      cases earlier with
      | nil => exact .nil
      | cons first earlier =>
        obtain ⟨rfl, hrest⟩ := List.cons_prefix_cons.mp hearlier
        have hmore := hlater earlier hrest
        unfold reportedRecords droppedRecords at hone hmore ⊢
        rw [emitFrom_cons, List.flatMap_append, List.flatMap_append]
        exact hone.append hmore

end Sheds

/-- In every run of a recorder, the records handed to `onShed` are the records dropped, at every moment, exactly when
each record that meets a full queue is the very record that goes. -/
theorem shed_reports_iff {maxQueued batchSize : ℕ} {recorder : Recorder Attempt Terminal}
    (hcreate : createUsageRecorder Attempt Terminal maxQueued batchSize = some recorder)
    (events : List (RecorderEvent Attempt Terminal)) :
    (∀ earlier, earlier <+: events → (reportedRecords (emitFrom Recorder.step recorder earlier).2).Perm
        (droppedRecords (emitFrom Recorder.step recorder earlier).2)) ↔
      EveryStep (fun recorder event => (recorder.step event).1) Recorder.ShedsItself recorder events :=
  reports_iff (within_created hcreate) events

/-- The second of two records meets a full queue. -/
theorem shed_reports_iff_two_records : ∃ recorder, createUsageRecorder ℕ ℕ 1 1 = some recorder ∧
    ((∀ earlier, earlier <+: [.record 1, .record 2] →
      (reportedRecords (emitFrom Recorder.step recorder earlier).2).Perm
        (droppedRecords (emitFrom Recorder.step recorder earlier).2)) ↔
      EveryStep (fun recorder event => (recorder.step event).1) Recorder.ShedsItself recorder
        [.record 1, .record 2]) :=
  ⟨_, rfl, @shed_reports_iff ℕ ℕ 1 1 _ rfl _⟩

/-- The second record is reported and the first one is gone. -/
theorem second_record_reported : ∃ recorder, createUsageRecorder ℕ ℕ 1 1 = some recorder ∧
    reportedRecords (emitFrom Recorder.step recorder [.record 1, .record 2]).2 = [.attempt 2] ∧
      droppedRecords (emitFrom Recorder.step recorder [.record 1, .record 2]).2 = [.attempt 1] ∧
      ¬ (reportedRecords (emitFrom Recorder.step recorder [.record 1, .record 2]).2).Perm
        (droppedRecords (emitFrom Recorder.step recorder [.record 1, .record 2]).2) :=
  ⟨_, rfl, rfl, rfl, by decide⟩

end MultiAiRouter.Usage
