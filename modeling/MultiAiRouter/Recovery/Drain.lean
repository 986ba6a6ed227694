import MultiAiRouter.Recovery.Coordinator

/-!
# Writing the queued verdicts

A verdict is in the queue until its transaction has come back, to the tick or to the stop. The stop writes
all that are queued before its first sweep, so a sweep never settles a permit whose verdict is waiting.
-/

namespace MultiAiRouter.Recovery

open Common Routing

variable {fingerprint : Option String → String} {config : CoordinatorConfig}

variable {state : Coordinator}

section Continuation

/-- What a continuation of the tick leaves as it is, and what it awaits next. -/
structure Continues (config : CoordinatorConfig) (before after : Coordinator) : Prop where
  db : after.db = before.db
  stopped : after.stopped = before.stopped
  stop : after.stop = before.stop
  outcomes : after.outcomes = before.outcomes
  accepted : after.accepted = before.accepted
  log : after.log = before.log
  awaits : ∀ flight, after.flight = some flight → ∀ value rest, flight.stage = .writing value rest →
    flight.awaited = some (outcomeCall config value)

/-- A flight lands. -/
theorem continues_land : Continues config state state.land :=
  ⟨rfl, rfl, rfl, rfl, rfl, rfl, by simp [Coordinator.land]⟩

/-- A transaction is awaited. -/
theorem continues_await {stage : WorkStage} {awaited : Option AccountCall}
    (h : ∀ value rest, stage = .writing value rest → awaited = some (outcomeCall config value)) :
    Continues config state (state.await stage awaited) := by
  refine ⟨rfl, rfl, rfl, rfl, rfl, rfl, ?_⟩
  rintro flight ⟨rfl⟩
  exact h

/-- The next outcome is written. -/
theorem writeOutcomes_continues (batch : List RecoveryOutcome) :
    Continues config state (state.writeOutcomes config batch) := by
  cases batch with
  | nil => exact continues_await nofun
  | cons value rest =>
    rw [Coordinator.writeOutcomes]
    split
    · exact continues_land
    · refine continues_await ?_
      rintro _ _ ⟨rfl, rfl⟩
      rfl

/-- The next request is made. -/
theorem requestAutomatic_continues (batch : List (String × BeginAutomaticInput)) :
    Continues config state (state.requestAutomatic config batch) := by
  cases batch with
  | nil => exact writeOutcomes_continues _
  | cons request rest =>
    rw [Coordinator.requestAutomatic]
    split
    · exact continues_land
    · exact continues_await nofun

/-- The next overdue permit is expired. -/
theorem expireRows_continues (rows : List (String × RecoveryRow)) :
    Continues config state (state.expireRows config rows) := by
  induction rows with
  | nil =>
    rw [Coordinator.expireRows]
    split
    · exact continues_land
    · exact continues_await nofun
  | cons row rest ih =>
    rw [Coordinator.expireRows]
    split
    · exact continues_land
    · split
      · exact ih
      · exact continues_await nofun

/-- The permits are exposed. -/
theorem exposeRows_continues (rows : List (String × RecoveryRow)) :
    Continues config state (state.exposeRows rows) := by
  cases rows with
  | nil =>
    rw [Coordinator.exposeRows]
    split
    · exact continues_land
    · exact continues_await nofun
  | cons row rest =>
    rw [Coordinator.exposeRows]
    split
    · exact continues_land
    · exact continues_await nofun

/-- The next pending generation is issued. -/
theorem issuePending_continues (demanded : String → Bool) (rows : List (String × RecoveryRow)) :
    Continues config state (state.issuePending config demanded rows) := by
  induction rows with
  | nil => exact continues_await nofun
  | cons row rest ih =>
    rw [Coordinator.issuePending]
    split
    · exact continues_land
    · split
      · exact ih
      · exact continues_await nofun

/-- The queue once the tick has run its continuation at this stage. -/
def leftQueued (stage : WorkStage) (outcomes : List RecoveryOutcome) : List RecoveryOutcome :=
  match stage with
  | .writing value _ => outcomeCompleted value outcomes
  | _ => outcomes

/-- What is left was queued. -/
theorem leftQueued_length_le (stage : WorkStage) (outcomes : List RecoveryOutcome) :
    (leftQueued stage outcomes).length ≤ outcomes.length := by
  unfold leftQueued
  split
  · exact List.length_filter_le _ _
  · exact le_rfl

/-- A queued verdict stays, unless it is the one being completed. -/
theorem mem_leftQueued (stage : WorkStage) {outcomes : List RecoveryOutcome} {value : RecoveryOutcome}
    (h : value ∈ outcomes) : value ∈ leftQueued stage outcomes ∨ ∃ rest, stage = .writing value rest := by
  unfold leftQueued
  split
  · next written rest =>
    by_cases hsame : value = written
    · exact .inr ⟨rest, by rw [hsame]⟩
    · exact .inl (List.mem_filter.mpr ⟨h, by simpa using hsame⟩)
  · exact .inl h

/-- The tick goes on. -/
theorem continueWork_continues (flight : Flight) (reading : WorkReading) :
    Continues config { state with outcomes := leftQueued flight.stage state.outcomes }
      (state.continueWork config flight reading) := by
  unfold Coordinator.continueWork leftQueued
  cases flight.stage with
  | opening => exact requestAutomatic_continues _
  | automatic rest => exact requestAutomatic_continues _
  | writing value rest => exact writeOutcomes_continues _
  | reconciling =>
    dsimp only
    split
    · exact continues_land
    · exact continues_await nofun
  | listingExpired => exact expireRows_continues _
  | expiring rest => exact expireRows_continues _
  | listingIssued => exact exposeRows_continues _
  | exposing rest => exact exposeRows_continues _
  | listingPending => exact issuePending_continues _ _
  | assigning accountId rest =>
    dsimp only
    split
    · split
      · exact issuePending_continues _ _
      · exact continues_await nofun
    · exact issuePending_continues _ _
  | finding accountId assigned rest =>
    dsimp only
    split
    · split
      · exact issuePending_continues _ _
      · exact continues_await nofun
    · exact issuePending_continues _ _
  | issuing rest =>
    dsimp only
    split
    · exact continues_await nofun
    · exact issuePending_continues _ _
  | exposingIssued rest => exact issuePending_continues _ _
  | closing => exact continues_land

end Continuation

section Verdicts

variable {log : List DrainEntry} {value : RecoveryOutcome}

/-- No sweep has settled anything yet. -/
def Unsettled (log : List DrainEntry) : Prop := ∀ accountId permitId, DrainEntry.settled accountId permitId ∉ log

/-- The verdict's transaction committed before any sweep settled anything. -/
def WrittenFirst (log : List DrainEntry) (value : RecoveryOutcome) : Prop :=
  ∃ later answer earlier, log = later ++ .outcome value answer :: earlier ∧ Unsettled earlier

/-- What was written first stays so. -/
theorem WrittenFirst.cons (h : WrittenFirst log value) (entry : DrainEntry) : WrittenFirst (entry :: log) value := by
  obtain ⟨later, answer, earlier, rfl, hearlier⟩ := h
  exact ⟨entry :: later, answer, earlier, rfl, hearlier⟩

/-- An outcome is written before any settlement. -/
theorem Unsettled.written (h : Unsettled log) (value : RecoveryOutcome) (answer : Option RecoveryRow) :
    WrittenFirst (.outcome value answer :: log) value := ⟨[], answer, log, rfl, h⟩

/-- Outcomes settle nothing. -/
theorem Unsettled.cons (h : Unsettled log) (value : RecoveryOutcome) (answer : Option RecoveryRow) :
    Unsettled (.outcome value answer :: log) := by
  intro accountId permitId hmem
  rcases List.mem_cons.mp hmem with heq | hold
  · cases heq
  · exact h accountId permitId hold

/-- The verdict is yet to be written. -/
def StillQueued (state : Coordinator) (value : RecoveryOutcome) : Prop :=
  state.stop = .running ∧ value ∈ state.outcomes ∨
    ∃ rest again, state.stop = .settling (.writing rest) again ∧ value ∈ rest

/-- A transaction that came back with a row wrote the verdict. -/
def RowInVerdict (entry : DrainEntry) : Prop :=
  ∀ value row, entry = .outcome value (some row) → row.state = value.state.state

/-- What holds of the verdicts along a stop. -/
structure Draining (config : CoordinatorConfig) (state : Coordinator) : Prop where
  bounded : state.outcomes.length ≤ config.outcomeCapacity
  stopped : state.stopped = false → state.stop = .running
  unsettled : state.stop = .running → Unsettled state.log
  accounted : ∀ value ∈ state.accepted, WrittenFirst state.log value ∨ Unsettled state.log ∧ StillQueued state value
  awaits : ∀ flight call value rest, state.flight = some flight → flight.stage = .writing value rest →
    flight.awaited = some call → call = outcomeCall config value
  committed : ∀ flight value rest, state.stop = .running → state.flight = some flight →
    flight.stage = .writing value rest → flight.awaited = none → WrittenFirst state.log value
  answered : ∀ entry ∈ state.log, RowInVerdict entry

/-- The row an outcome transaction answers with is in the verdict's state. -/
theorem outcome_answer (db : RecoveryDb) (value : RecoveryOutcome) :
    RowInVerdict (.outcome value (callAnswer fingerprint db (outcomeCall config value).call)) := by
  intro other row hentry
  obtain ⟨rfl, hanswer⟩ := DrainEntry.outcome.inj hentry
  simp only [callAnswer, outcomeCall, outcome] at hanswer
  grind [Except.toOption]

/-- Past the queued verdicts, every one is written. -/
theorem Draining.written (h : Draining config state) (hrunning : state.stop ≠ .running)
    (hwriting : ∀ rest again, state.stop = .settling (.writing rest) again → rest = []) :
    ∀ value ∈ state.accepted, WrittenFirst state.log value := by
  intro value hvalue
  rcases h.accounted value hvalue with hwritten | ⟨-, ⟨hstop, -⟩ | ⟨rest, again, hstop, hmem⟩⟩
  · exact hwritten
  · exact absurd hstop hrunning
  · simp [hwriting rest again hstop] at hmem

/-- An outcome is recorded. -/
theorem Draining.recordOutcome (h : Draining config state) (value : RecoveryOutcome) :
    Draining config (state.step fingerprint config (.recordOutcome value)) := by
  rw [Coordinator.step]
  split
  · exact h
  · next hrunning =>
    have hstop := h.stopped (by simpa using hrunning)
    refine ⟨captureOutcome_length_le h.bounded value, h.stopped, h.unsettled, ?_, h.awaits, h.committed, h.answered⟩
    have hold : ∀ held ∈ state.accepted, WrittenFirst state.log held ∨ Unsettled state.log ∧
        StillQueued { state with outcomes := (captureOutcome config.outcomeCapacity state.outcomes value).2 } held := by
      intro held hheld
      rcases h.accounted held hheld with hwritten | ⟨hunsettled, ⟨-, hmem⟩ | ⟨rest, again, hsettling, hmem⟩⟩
      · exact .inl hwritten
      · exact .inr ⟨hunsettled, .inl ⟨hstop, mem_captureOutcome_of_mem hmem _ value⟩⟩
      · exact .inr ⟨hunsettled, .inr ⟨rest, again, hsettling, hmem⟩⟩
    intro held hheld
    dsimp only at hheld
    split at hheld
    · rcases List.mem_append.mp hheld with hnew | hheld
      · exact .inr ⟨h.unsettled hstop, .inl ⟨hstop, (List.mem_filter.mp hnew).1⟩⟩
      · exact hold held hheld
    · exact hold held hheld

/-- A transaction commits. -/
theorem Draining.commit (h : Draining config state) : Draining config (state.commit fingerprint) := by
  unfold Coordinator.commit
  split
  · next flight hflight =>
    split
    · next call hcall =>
      dsimp only
      split
      · next value rest hstage =>
        obtain rfl := h.awaits flight call value rest hflight hstage hcall
        refine ⟨h.bounded, h.stopped, fun hrunning => (h.unsettled hrunning).cons _ _, ?_, ?_, ?_, ?_⟩
        · intro held hheld
          rcases h.accounted held hheld with hwritten | ⟨hunsettled, hwaiting⟩
          · exact .inl (hwritten.cons _)
          · exact .inr ⟨hunsettled.cons _ _, hwaiting⟩
        · rintro _ call' _ _ ⟨rfl⟩ - ⟨⟩
        · rintro _ other rest' hrunning ⟨rfl⟩ hsame -
          obtain ⟨rfl, rfl⟩ := WorkStage.writing.inj (hstage.symm.trans hsame)
          exact (h.unsettled hrunning).written _ _
        · intro entry hentry
          rcases List.mem_cons.mp hentry with rfl | hold
          · exact outcome_answer _ _
          · exact h.answered entry hold
      · next hstage =>
        refine ⟨h.bounded, h.stopped, h.unsettled, h.accounted, ?_, ?_, h.answered⟩
        · rintro _ call' _ _ ⟨rfl⟩ - ⟨⟩
        · rintro _ value rest - ⟨rfl⟩ hsame -
          exact absurd hsame (hstage value rest)
    · exact h
  · exact h

/-- The tick resumes. -/
theorem Draining.resume (h : Draining config state) (reading : WorkReading) :
    Draining config (state.resume config reading) := by
  unfold Coordinator.resume
  split
  · next flight hflight =>
    split
    · exact h
    · next hawaited =>
      have hcontinues := @continueWork_continues config state flight reading
      have hnone : flight.awaited = none := by simpa using hawaited
      refine ⟨?_, ?_, ?_, ?_, ?_, ?_, ?_⟩
      · rw [hcontinues.outcomes]
        exact (leftQueued_length_le _ _).trans h.bounded
      · rw [hcontinues.stopped, hcontinues.stop]
        exact h.stopped
      · rw [hcontinues.stop, hcontinues.log]
        exact h.unsettled
      · rw [hcontinues.accepted, hcontinues.log]
        intro value hvalue
        rcases h.accounted value hvalue with hwritten | ⟨hunsettled, ⟨hstop, hmem⟩ | ⟨rest, again, hstop, hmem⟩⟩
        · exact .inl hwritten
        · -- The verdict is still queued, unless it is the one that this continuation completes.
          rcases mem_leftQueued flight.stage hmem with hleft | ⟨rest, hstage⟩
          · exact .inr ⟨hunsettled, .inl ⟨hcontinues.stop.trans hstop, hcontinues.outcomes ▸ hleft⟩⟩
          · exact .inl (h.committed flight value rest hstop hflight hstage hnone)
        · exact .inr ⟨hunsettled, .inr ⟨rest, again, hcontinues.stop.trans hstop, hmem⟩⟩
      · intro next call value rest hnext hstage hcall
        exact Option.some.inj (hcall.symm.trans (hcontinues.awaits next hnext value rest hstage))
      · intro next value rest _ hnext hstage hlanded
        simp [hcontinues.awaits next hnext value rest hstage] at hlanded
      · rw [hcontinues.log]
        exact h.answered
  · exact h

/-- A stop that begins has every queued verdict to write. -/
theorem Draining.stop (h : Draining config state) : Draining config (state.step fingerprint config .stop) := by
  rw [Coordinator.step]
  split
  · next hrunning =>
    refine ⟨h.bounded, by simp [Coordinator.settle], by simp [Coordinator.settle], ?_, h.awaits,
      by simp [Coordinator.settle], h.answered⟩
    intro value hvalue
    rcases h.accounted value hvalue with hwritten | ⟨hunsettled, ⟨-, hmem⟩ | ⟨rest, again, hstop, -⟩⟩
    · exact .inl hwritten
    · refine .inr ⟨hunsettled, .inr ⟨_, _, rfl, ?_⟩⟩
      change value ∈ state.outcomes.take config.outcomeCapacity
      rwa [List.take_of_length_le h.bounded]
    · simp [hrunning] at hstop
  · exact h

/-- Once every verdict is written, the rest of the stop only adds to the log. -/
theorem Draining.of_written (h : Draining config state)
    (hwritten : ∀ value ∈ state.accepted, WrittenFirst state.log value)
    (hrunning : state.stop ≠ .running) {after : Coordinator} (houtcomes : after.outcomes = state.outcomes)
    (hstopped : after.stopped = state.stopped) (hafter : after.stop ≠ .running) (hflight : after.flight = state.flight)
    (haccepted : after.accepted = state.accepted)
    (hlog : after.log = state.log ∨ ∃ accountId permitId, after.log = .settled accountId permitId :: state.log) :
    Draining config after where
  bounded := houtcomes ▸ h.bounded
  stopped := fun hfalse => absurd (h.stopped (hstopped ▸ hfalse)) hrunning
  unsettled := fun hstop => absurd hstop hafter
  accounted := by
    intro value hvalue
    have hbefore := hwritten value (haccepted ▸ hvalue)
    rcases hlog with hlog | ⟨accountId, permitId, hlog⟩
    · exact .inl (hlog ▸ hbefore)
    · exact .inl (hlog ▸ hbefore.cons _)
  awaits := by
    rw [hflight]
    exact h.awaits
  committed := fun _ _ _ hstop => absurd hstop hafter
  answered := by
    rcases hlog with hlog | ⟨accountId, permitId, hlog⟩
    · exact hlog ▸ h.answered
    · rw [hlog]
      exact List.forall_mem_cons.mpr ⟨by simp [RowInVerdict], h.answered⟩

/-- The drain writes an outcome. -/
theorem Draining.drainOutcome (h : Draining config state) :
    Draining config (state.drainOutcome fingerprint config) := by
  unfold Coordinator.drainOutcome
  split
  · next again hstop =>
    refine h.of_written (h.written (by simp [hstop]) ?_) (by simp [hstop]) rfl rfl (by simp) rfl rfl (.inl rfl)
    intro rest again' hwriting
    cases hstop.symm.trans hwriting
    rfl
  · next value rest again hstop =>
    refine ⟨(List.length_filter_le _ _).trans h.bounded, ?_, by simp, ?_, h.awaits, by simp, ?_⟩
    · intro hfalse
      have hrunning := h.stopped hfalse
      simp [hstop] at hrunning
    · intro held hheld
      rcases h.accounted held hheld with hwritten | ⟨hunsettled, ⟨hrunning, -⟩ | ⟨batch, again', hwriting, hmem⟩⟩
      · exact .inl (hwritten.cons _)
      · simp [hstop] at hrunning
      · cases hstop.symm.trans hwriting
        rcases List.mem_cons.mp hmem with rfl | hrest
        · exact .inl (hunsettled.written _ _)
        · exact .inr ⟨hunsettled.cons _ _, .inr ⟨rest, again, rfl, hrest⟩⟩
    · exact List.forall_mem_cons.mpr ⟨outcome_answer _ _, h.answered⟩
  · exact h

/-- The sweep selects its rows. -/
theorem Draining.select (h : Draining config state) (chosen : List String) :
    Draining config (state.select chosen) := by
  unfold Coordinator.select
  split
  · next again hstop =>
    have hwritten := h.written (by simp [hstop]) (by simp [hstop])
    exact h.of_written hwritten (by simp [hstop]) rfl rfl (by simp) rfl rfl (.inl rfl)
  · exact h

/-- The sweep settles a row. -/
theorem Draining.settleNext (h : Draining config state) :
    Draining config (state.settleNext fingerprint config) := by
  unfold Coordinator.settleNext
  split
  · next selected settled again hstop =>
    have hwritten := h.written (by simp [hstop]) (by simp [hstop])
    split
    · exact h.of_written hwritten (by simp [hstop]) rfl rfl (by simp) rfl rfl (.inl rfl)
    · refine h.of_written hwritten (by simp [hstop]) rfl rfl ?_ rfl rfl (.inl rfl)
      cases again <;> simp [Coordinator.settlementOver]
  · next accountId permitId rest selected settled again hstop =>
    have hwritten := h.written (by simp [hstop]) (by simp [hstop])
    dsimp only
    split
    · exact h.of_written hwritten (by simp [hstop]) rfl rfl (by simp) rfl rfl (.inr ⟨accountId, permitId, rfl⟩)
    · exact h.of_written hwritten (by simp [hstop]) rfl rfl (by simp) rfl rfl (.inl rfl)
  · exact h

/-- One event. -/
theorem Draining.step (h : Draining config state) (event : CoordinatorEvent) :
    Draining config (state.step fingerprint config event) := by
  cases event with
  | external call => exact ⟨h.bounded, h.stopped, h.unsettled, h.accounted, h.awaits, h.committed, h.answered⟩
  | recordOutcome value => exact h.recordOutcome value
  | closeIssuance => exact ⟨h.bounded, h.stopped, h.unsettled, h.accounted, h.awaits, h.committed, h.answered⟩
  | tick =>
    rw [Coordinator.step]
    split
    · exact h
    · refine ⟨h.bounded, h.stopped, h.unsettled, h.accounted, ?_, ?_, h.answered⟩
      · rintro _ call value rest ⟨rfl⟩ ⟨⟩
      · rintro _ value rest - ⟨rfl⟩ ⟨⟩
  | commit => exact h.commit
  | resume reading => exact h.resume reading
  | stop => exact h.stop
  | drainOutcome => exact h.drainOutcome
  | select chosen => exact h.select chosen
  | settleNext => exact h.settleNext
  | flightEnded =>
    rw [Coordinator.step]
    split
    · next hended =>
      have hwritten := h.written (by simp [hended.1]) (by simp [hended.1])
      exact h.of_written hwritten (by simp [hended.1]) rfl rfl (by simp [Coordinator.settle]) rfl rfl (.inl rfl)
    · exact h

end Verdicts

end MultiAiRouter.Recovery
