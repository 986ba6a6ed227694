import Mathlib.Data.List.Forall2
import MultiAiRouter.Dataplane.Accounting

/-!
# What one accounting call does

The rows written, with the event kept back, are the recorded events in the order they were recorded.
Each call of the accounting keeps this and adds the events it records and nothing else.
-/

namespace MultiAiRouter.Dataplane

namespace RequestAccounting

/-- The rows written and the event kept back are the recorded events, in order. -/
def Accounts (accounting : RequestAccounting) (events : List UsageRecord) : Prop :=
  List.Forall₂ UsageRecord.RowOf events (accounting.written ++ accounting.pending.toList)

/-- The bookkeeping of an accounting agrees with itself and with the recorded events. -/
structure Sound (accounting : RequestAccounting) (events : List UsageRecord) : Prop where
  accounts : accounting.Accounts events
  latest : accounting.latest.isSome = accounting.recorded
  recorded : accounting.recorded = !events.isEmpty
  settlement : accounting.terminals.length = if accounting.finalized then 1 else 0
  answered : accounting.responseStatus.isSome → accounting.pending = none

/-- An event is its own row. -/
theorem rowOf_self (event : UsageRecord) : event.RowOf event := rfl

/-- An event with another status is its row. -/
theorem rowOf_withStatus (event : UsageRecord) (status : Option ℕ) :
    event.RowOf { event with responseStatus := status } := rfl

/-- A row with another status is still its event's. -/
theorem rowOf_restatus {event row : UsageRecord} (h : event.RowOf row) (status : Option ℕ) :
    event.RowOf { row with responseStatus := status } := by
  unfold UsageRecord.RowOf at h ⊢
  rw [h]

/-- Restating the status of the last row keeps every row its event's. -/
theorem forall₂_restatus {events rows : List UsageRecord} {row : UsageRecord}
    (h : List.Forall₂ UsageRecord.RowOf events (rows ++ [row])) (status : Option ℕ) :
    List.Forall₂ UsageRecord.RowOf events (rows ++ [{ row with responseStatus := status }]) := by
  induction rows generalizing events with
  | nil =>
    obtain _ | ⟨hrow, hrest⟩ := h
    exact .cons (rowOf_restatus hrow status) hrest
  | cons first rest ih =>
    obtain _ | ⟨hrow, hrest⟩ := h
    exact .cons hrow (ih hrest)

variable {input : AccountingInput} {moment : Moment} {accounting : RequestAccounting}
  {events : List UsageRecord} {event : UsageRecord}

/-- Settling changes only the settlement. -/
theorem finalize_eq (input : AccountingInput) (moment : Moment) (accounting : RequestAccounting)
    (event : Option UsageRecord) : ∃ terminals, accounting.finalize input moment event =
      { accounting with
        finalized := accounting.finalized || event.isSome
        terminals := terminals } ∧
      (accounting.terminals.length = (if accounting.finalized then 1 else 0) →
        terminals.length = if accounting.finalized || event.isSome then 1 else 0) := by
  cases event with
  | none => exact ⟨accounting.terminals, by simp [finalize], by simp⟩
  | some event =>
    by_cases h : accounting.finalized
    · refine ⟨accounting.terminals, ?_, by simp [h]⟩
      simp only [finalize, h, if_true, Bool.true_or]
      rw [← h]
    · exact ⟨accounting.terminals ++ [terminalOf input moment event], by simp [finalize, h],
        by simp [h]⟩

/-- Settling keeps the bookkeeping sound. -/
theorem Sound.finalize (hsound : accounting.Sound events) (event : Option UsageRecord) :
    (accounting.finalize input moment event).Sound events := by
  obtain ⟨terminals, heq, hterminals⟩ := finalize_eq input moment accounting event
  rw [heq]
  exact ⟨hsound.accounts, hsound.latest, hsound.recorded, hterminals hsound.settlement, hsound.answered⟩

/-- Nothing is kept back after a flush. -/
@[simp] theorem flush_pending (accounting : RequestAccounting) (status : Option ℕ) :
    (accounting.flush status).pending = none := by
  unfold flush
  split <;> simp_all

/-- A flush changes only the rows and the event kept back. -/
theorem flush_eq (accounting : RequestAccounting) (status : Option ℕ) : ∃ written, accounting.flush status =
      { accounting with written := written, pending := none } := by
  cases hpending : accounting.pending with
  | none =>
    refine ⟨accounting.written, ?_⟩
    simp only [flush, hpending]
    rw [← hpending]
  | some event =>
    simp only [flush, hpending]
    exact ⟨_, rfl⟩

/-- A flush writes the event kept back as its row. -/
theorem Accounts.flush (haccounts : accounting.Accounts events) (status : Option ℕ) :
    (accounting.flush status).Accounts events := by
  unfold Accounts at haccounts ⊢
  cases hpending : accounting.pending with
  | none =>
    rw [hpending] at haccounts
    simpa [RequestAccounting.flush, hpending] using haccounts
  | some event =>
    rw [hpending] at haccounts
    simp only [RequestAccounting.flush, hpending, Option.toList_none, List.append_nil]
    exact forall₂_restatus haccounts _

/-- A flush keeps the bookkeeping sound. -/
theorem Sound.flush (hsound : accounting.Sound events) (status : Option ℕ) :
    (accounting.flush status).Sound events := by
  have haccounts := hsound.accounts.flush status
  obtain ⟨written, heq⟩ := flush_eq accounting status
  rw [heq] at haccounts ⊢
  exact ⟨haccounts, hsound.latest, hsound.recorded, hsound.settlement, fun _ => rfl⟩

/-- Naming the winner keeps the bookkeeping sound. -/
theorem Sound.selectTerminal (hsound : accounting.Sound events) (event : Option UsageRecord) :
    (accounting.selectTerminal event).Sound events :=
  ⟨hsound.accounts, hsound.latest, hsound.recorded, hsound.settlement, hsound.answered⟩

/-- Counting an attempt touches nothing else. -/
theorem countAttempt_eq (accounting : RequestAccounting) (event : UsageRecord) :
    ∃ attempts attempted, accounting.countAttempt event =
      { accounting with attempts := attempts, attempted := attempted } := by
  unfold countAttempt
  cases event.accountId with
  | none => exact ⟨accounting.attempts, accounting.attempted, rfl⟩
  | some accountId => exact ⟨_, _, rfl⟩

/-- Recording adds exactly the recorded event. -/
theorem Sound.record (hsound : accounting.Sound events) (event : UsageRecord) :
    (accounting.record event).Sound (events ++ [event]) := by
  obtain ⟨attempts, attempted, hcount⟩ := countAttempt_eq accounting event
  have haccounts : ({ accounting with
      latest := some event
      recorded := true
      attempts := attempts
      attempted := attempted } : RequestAccounting).Accounts events := hsound.accounts
  have hflushed := haccounts.flush none
  obtain ⟨written, heq⟩ := flush_eq
    { accounting with
      latest := some event
      recorded := true
      attempts := attempts
      attempted := attempted } none
  rw [heq] at hflushed
  have hwritten : List.Forall₂ UsageRecord.RowOf events written := by
    simpa [Accounts] using hflushed
  unfold RequestAccounting.record
  simp only [hcount, heq]
  cases hstatus : accounting.responseStatus with
  | none =>
    refine ⟨?_, rfl, by simp, hsound.settlement, by simp⟩
    simpa [Accounts] using List.rel_append hwritten (.cons (rowOf_self event) .nil)
  | some status =>
    refine ⟨?_, rfl, by simp, hsound.settlement, fun _ => rfl⟩
    simpa [Accounts] using List.rel_append hwritten (.cons (rowOf_withStatus event (some status)) .nil)

/-- Recording the settling event adds it and settles. -/
theorem Sound.recordTerminal (hsound : accounting.Sound events) (event : UsageRecord) :
    (accounting.recordTerminal input moment event).Sound (events ++ [event]) :=
  (hsound.record event).finalize (some event)

/-- Abandoning keeps the bookkeeping sound. -/
theorem Sound.abandon (hsound : accounting.Sound events) : (accounting.abandon input moment).Sound events :=
  (hsound.flush _).finalize _

/-- Writing the answer's status on what is kept back keeps the bookkeeping sound. -/
theorem Sound.answer (hsound : accounting.Sound events) (status : ℕ) (row : Option ℕ) :
    (({ accounting with responseStatus := some status } : RequestAccounting).flush row).Sound
      events := by
  have haccounts : ({ accounting with
      responseStatus := some status } : RequestAccounting).Accounts events := hsound.accounts
  have hflushed := haccounts.flush row
  obtain ⟨written, heq⟩ := flush_eq { accounting with responseStatus := some status } row
  rw [heq] at hflushed ⊢
  exact ⟨hflushed, hsound.latest, hsound.recorded, hsound.settlement, fun _ => rfl⟩

/-- Answering keeps the bookkeeping sound. -/
theorem Sound.respond (hsound : accounting.Sound events) (status : ℕ) :
    (accounting.respond input moment status).Sound events := by
  unfold RequestAccounting.respond
  split
  · exact hsound.answer status _
  · exact (hsound.answer status _).finalize _

/-- The events a failure records: its own, when nothing was recorded before. -/
def failEvents (input : AccountingInput) (moment : Moment) (accounting : RequestAccounting)
    (error : RequestError) : List UsageRecord :=
  if accounting.recorded then [] else [preflightRecord input moment error]

/-- A failure records its own event exactly when nothing was recorded before it. -/
theorem Sound.ensureRecorded (hsound : accounting.Sound events) (error : RequestError) :
    (accounting.ensureRecorded input moment error).Sound
      (events ++ accounting.failEvents input moment error) := by
  unfold RequestAccounting.ensureRecorded failEvents
  by_cases h : accounting.recorded
  · simpa [h] using hsound
  · simpa [h] using hsound.record (preflightRecord input moment error)

/-- Failing records its own event at most once and settles. -/
theorem Sound.fail (hsound : accounting.Sound events) (error : RequestError) :
    (accounting.fail input moment error).Sound
      (events ++ accounting.failEvents input moment error) :=
  ((hsound.ensureRecorded error).answer error.responseStatus _).finalize _

/-- Settling with an event leaves the request settled. -/
@[simp] theorem finalize_finalized (input : AccountingInput) (moment : Moment)
    (accounting : RequestAccounting) (event : Option UsageRecord) :
    (accounting.finalize input moment event).finalized = (accounting.finalized || event.isSome) := by
  obtain ⟨terminals, heq, -⟩ := finalize_eq input moment accounting event
  rw [heq]

/-- A call never forgets that the answer's status is known, nor that the request is settled. -/
structure Advances (before after : RequestAccounting) : Prop where
  answered : before.responseStatus.isSome → after.responseStatus.isSome
  finalized : before.finalized → after.finalized

/-- Doing nothing advances. -/
theorem Advances.refl (accounting : RequestAccounting) : Advances accounting accounting := ⟨id, id⟩

/-- Advances compose. -/
theorem Advances.trans {first second third : RequestAccounting} (h₁ : Advances first second)
    (h₂ : Advances second third) : Advances first third :=
  ⟨h₂.answered ∘ h₁.answered, h₂.finalized ∘ h₁.finalized⟩

/-- A flush advances. -/
theorem flush_advances (accounting : RequestAccounting) (status : Option ℕ) :
    Advances accounting (accounting.flush status) := by
  obtain ⟨written, heq⟩ := flush_eq accounting status
  rw [heq]
  exact ⟨id, id⟩

/-- Settling advances. -/
theorem finalize_advances (input : AccountingInput) (moment : Moment) (accounting : RequestAccounting)
    (event : Option UsageRecord) : Advances accounting (accounting.finalize input moment event) := by
  obtain ⟨terminals, heq, -⟩ := finalize_eq input moment accounting event
  rw [heq]
  exact ⟨id, fun h => by simp [h]⟩

/-- Recording advances. -/
theorem record_advances (accounting : RequestAccounting) (event : UsageRecord) :
    Advances accounting (accounting.record event) := by
  obtain ⟨attempts, attempted, hcount⟩ := countAttempt_eq accounting event
  have hflushed := flush_advances
    { accounting.countAttempt event with latest := some event, recorded := true } none
  have hcounted : Advances accounting
      { accounting.countAttempt event with latest := some event, recorded := true } := by
    rw [hcount]
    exact ⟨id, id⟩
  refine (hcounted.trans hflushed).trans ?_
  unfold RequestAccounting.record
  dsimp only
  split <;> exact ⟨id, id⟩

/-- Recording the settling event advances. -/
theorem recordTerminal_advances (input : AccountingInput) (moment : Moment) (accounting : RequestAccounting)
    (event : UsageRecord) : Advances accounting (accounting.recordTerminal input moment event) :=
  (record_advances accounting event).trans (finalize_advances input moment _ _)

/-- Learning the answer's status advances, and the status stays known. -/
theorem answer_advances (accounting : RequestAccounting) (status : ℕ) (row : Option ℕ) : Advances accounting
      (({ accounting with responseStatus := some status } : RequestAccounting).flush row) ∧
    (({ accounting with responseStatus := some status } : RequestAccounting).flush
      row).responseStatus.isSome := by
  obtain ⟨written, heq⟩ := flush_eq { accounting with responseStatus := some status } row
  rw [heq]
  exact ⟨⟨fun _ => rfl, id⟩, rfl⟩

/-- Answering advances and makes the status known. -/
theorem respond_advances (input : AccountingInput) (moment : Moment) (accounting : RequestAccounting) (status : ℕ) :
    Advances accounting (accounting.respond input moment status) ∧
    (accounting.respond input moment status).responseStatus.isSome := by
  unfold respond
  dsimp only
  split
  · exact answer_advances accounting status _
  · obtain ⟨hanswer, hknown⟩ := answer_advances accounting status (some status)
    have hfinal := finalize_advances input moment
      (({ accounting with responseStatus := some status } : RequestAccounting).flush (some status))
    exact ⟨hanswer.trans (hfinal _), (hfinal _).answered hknown⟩

/-- Failing advances and makes the status known. -/
theorem fail_advances (input : AccountingInput) (moment : Moment) (accounting : RequestAccounting)
    (error : RequestError) : Advances accounting (accounting.fail input moment error) ∧
    (accounting.fail input moment error).responseStatus.isSome := by
  have hrecorded : Advances accounting (accounting.ensureRecorded input moment error) := by
    unfold ensureRecorded
    split
    · exact .refl accounting
    · exact record_advances accounting _
  obtain ⟨hanswer, hknown⟩ := answer_advances (accounting.ensureRecorded input moment error)
    error.responseStatus (some error.responseStatus)
  have hfinal := finalize_advances input moment (({ accounting.ensureRecorded input moment error with
        responseStatus := some error.responseStatus } : RequestAccounting).flush
          (some error.responseStatus))
  exact ⟨(hrecorded.trans hanswer).trans (hfinal _), (hfinal _).answered hknown⟩

end RequestAccounting

end MultiAiRouter.Dataplane
