import MultiAiRouter.Common.Emit
import MultiAiRouter.Common.InsertionMap
import MultiAiRouter.Dataplane.HealthObservation
import MultiAiRouter.Shutdown.WriterLifecycle

/-!
# The account status writer

Verdicts that outlive a process are written off the request path. One verdict an account waits, the one with the
newest observation. A flush takes all of them out and writes them one after another; a write that fails hands its
verdict back, unless the account was forgotten since or a newer verdict waits.

A step is whatever can happen between two awaits.
-/

namespace MultiAiRouter.Dataplane

open Common Routing Shutdown

/-- Only these verdicts are stored. -/
def persistable (status : AccountStatus) : Bool := status == .exhausted || status == .needsReauth

/-- What an observation may overwrite. -/
def overwritableByObservation : List AccountStatus := [.active, .coolingDown]

/-- The freshest captured observation wins, irrespective of the order callbacks arrive in. -/
def newerObservation (left right : HealthObservation) : Bool :=
  decide (right.observationGeneration < left.observationGeneration) ||
    (left.observationGeneration == right.observationGeneration &&
      decide (right.lifecycleVersion < left.lifecycleVersion))

/-- A verdict that waits, with how often its account had been forgotten when it was recorded. -/
structure PendingVerdict where
  status : AccountStatus
  observation : HealthObservation
  quotaWindows : Option (List QuotaWindowState)
  forgottenVersion : Nat
  deriving DecidableEq

/-- How an awaited `transitionObservedStatus` ends. -/
inductive TransitionResult
  | committed
  /-- The row was no longer the one that was observed. -/
  | refused
  | failed
  deriving DecidableEq

/-- The drain that is under way. -/
inductive VerdictRun
  | idle
  | writing (accountId : String) (verdict : PendingVerdict) (rest : List (String × PendingVerdict)) (failed : Nat)
  /-- It has returned, and has not yet made way for the next. -/
  | over
  deriving DecidableEq

/-- Everything the writer keeps. -/
structure AccountStatusWriter where
  pending : InsertionMap String PendingVerdict := {}
  forgotten : String → Nat := fun _ => 0
  run : VerdictRun := .idle
  onParked : Bool := false
  timer : Bool := false
  lifecycle : WriterLifecycle := {}
  rejectedAfterStop : Nat := 0
  written : Nat := 0
  refused : Nat := 0
  writeFailures : Nat := 0

/-- What becomes of the verdicts in a step, and who is told. -/
inductive VerdictFate
  | rejected (accountId : String)
  | recorded (accountId : String) (verdict : PendingVerdict)
  | forgot (accountId : String)
  /-- A `transitionObservedStatus` call is started. -/
  | started (accountId : String) (verdict : PendingVerdict)
  | committed (accountId : String) (verdict : PendingVerdict)
  | refused (accountId : String) (verdict : PendingVerdict)
  | failed (accountId : String) (verdict : PendingVerdict)
  | parked (accountId : String)
  | writesFailed (accounts : Nat)
  | abandoned (pending : Nat)
  deriving DecidableEq

/-- What can happen to a writer. -/
inductive StatusWriterEvent
  | record (accountId : String) (status : AccountStatus) (observation : HealthObservation)
      (quotaWindows : Option (List QuotaWindowState))
  | forget (accountId : String)
  | attachParked
  | flush
  | tick
  | writeSettles (result : TransitionResult)
  | drainSettles
  | start
  | stop
  | deadline
  | drainResumes (failed : Bool)

namespace AccountStatusWriter

/-- What a drain has taken out and not yet offered. -/
def rest (writer : AccountStatusWriter) : List (String × PendingVerdict) :=
  match writer.run with
  | .writing _ _ rest _ => rest
  | _ => []

/-- How many verdicts of the drain have not settled. -/
def unsettled (writer : AccountStatusWriter) : Nat :=
  match writer.run with
  | .writing _ _ rest _ => rest.length + 1
  | _ => 0

/-- How many verdicts wait. -/
def pendingSize (writer : AccountStatusWriter) : Nat := writer.pending.entries.length

/-- Hand a verdict back, unless its account was forgotten or a verdict as new is waiting. -/
def handBack (writer : AccountStatusWriter) (accountId : String) (verdict : PendingVerdict) : AccountStatusWriter :=
  if writer.forgotten accountId = verdict.forgottenVersion ∧
      ((writer.pending.get accountId).all fun newer =>
        newerObservation verdict.observation newer.observation) = true then
    { writer with pending := writer.pending.set accountId verdict }
  else writer

/-- The warning at the end of a drain. -/
def failures (failed : Nat) : List VerdictFate := if 0 < failed then [VerdictFate.writesFailed failed] else []

/-- Go on with the verdicts that are left, up to the write that is awaited. -/
def drainFrom (writer : AccountStatusWriter) (failed : Nat) :
    List (String × PendingVerdict) → AccountStatusWriter × List VerdictFate
  | [] => ({ writer with run := .over }, failures failed)
  | (accountId, verdict) :: rest =>
    if !writer.lifecycle.canWrite then (writer.handBack accountId verdict).drainFrom failed rest
    else ({ writer with run := .writing accountId verdict rest failed }, [VerdictFate.started accountId verdict])

/-- Begin a drain, unless one is under way. -/
def flush (writer : AccountStatusWriter) : AccountStatusWriter × List VerdictFate :=
  match writer.run with
  | .idle => { writer with pending := {} }.drainFrom 0 writer.pending.entries
  | _ => (writer, [])

/-- The awaited write settles. -/
def writeSettles (writer : AccountStatusWriter) (result : TransitionResult) : AccountStatusWriter × List VerdictFate :=
  match writer.run with
  | .writing accountId verdict rest failed =>
    match result with
    | .refused =>
      let next := { writer with refused := writer.refused + 1 }.drainFrom failed rest
      (next.1, VerdictFate.refused accountId verdict :: next.2)
    | .committed =>
      let next := { writer with written := writer.written + 1 }.drainFrom failed rest
      (next.1, VerdictFate.committed accountId verdict ::
        (if writer.onParked && verdict.status == .needsReauth then [VerdictFate.parked accountId] else []) ++ next.2)
    | .failed =>
      let next := { writer.handBack accountId verdict with
        writeFailures := writer.writeFailures + 1 }.drainFrom (failed + 1) rest
      (next.1, VerdictFate.failed accountId verdict :: next.2)
  | _ => (writer, [])

/-- Keep a verdict, when it is one to store and no verdict as new is waiting. -/
def record (writer : AccountStatusWriter) (accountId : String) (status : AccountStatus)
    (observation : HealthObservation) (quotaWindows : Option (List QuotaWindowState)) :
    AccountStatusWriter × List VerdictFate :=
  if !writer.lifecycle.accepting then
    ({ writer with rejectedAfterStop := writer.rejectedAfterStop + 1 }, [VerdictFate.rejected accountId])
  else if !persistable status || !decide (observation.status ∈ overwritableByObservation) then (writer, [])
  else
    let verdict : PendingVerdict :=
      { status, observation, quotaWindows, forgottenVersion := writer.forgotten accountId }
    let waiting := (writer.pending.get accountId).any fun previous =>
      !newerObservation observation previous.observation
    (if waiting then writer else { writer with pending := writer.pending.set accountId verdict },
      [VerdictFate.recorded accountId verdict])

/-- Drop what waits for an account, and let nothing that is out for it come back. -/
def forget (writer : AccountStatusWriter) (accountId : String) : AccountStatusWriter × List VerdictFate :=
  ({ writer with
      forgotten := Function.update writer.forgotten accountId (writer.forgotten accountId + 1)
      pending := writer.pending.delete accountId },
    [VerdictFate.forgot accountId])

/-- A stop or the timer asked for a pass, or did not. -/
def pass (writer : AccountStatusWriter) (begins : Bool) : AccountStatusWriter × List VerdictFate :=
  if begins then writer.flush else (writer, [])

/-- The warning of a stop. -/
def warned (pending : Option Nat) : List VerdictFate := (pending.map VerdictFate.abandoned).toList

/-- One thing happens. -/
def step (writer : AccountStatusWriter) : StatusWriterEvent → AccountStatusWriter × List VerdictFate
  | .record accountId status observation quotaWindows => writer.record accountId status observation quotaWindows
  | .forget accountId => writer.forget accountId
  | .attachParked => ({ writer with onParked := true }, [])
  | .flush => writer.flush
  | .tick => writer.pass writer.timer
  | .writeSettles result => writer.writeSettles result
  | .drainSettles =>
    match writer.run with
    | .over => ({ writer with run := .idle }, [])
    | _ => (writer, [])
  | .start =>
    let started := writer.lifecycle.start
    ({ writer with lifecycle := started.1, timer := writer.timer || started.2 }, [])
  | .stop =>
    let stopped := writer.lifecycle.stop
    { writer with timer := false, lifecycle := stopped.1 }.pass stopped.2
  | .deadline =>
    let fired := writer.lifecycle.deadline (writer.pendingSize + writer.unsettled)
    ({ writer with lifecycle := fired.1 }, warned fired.2)
  | .drainResumes failed =>
    let resumed := writer.lifecycle.drainResumes failed writer.pendingSize (writer.pendingSize + writer.unsettled)
    let next := { writer with lifecycle := resumed.1 }.pass resumed.2.2
    (next.1, warned resumed.2.1 ++ next.2)

end AccountStatusWriter

end MultiAiRouter.Dataplane
