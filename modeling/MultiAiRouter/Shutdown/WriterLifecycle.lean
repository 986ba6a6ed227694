import Mathlib.Data.List.Basic

/-!
# The life of a background writer

`createWriterLifecycle`: a writer takes records until it is stopped. A stop closes it and drains what is there, in
one pass and, when something is left and the deadline has not passed, a second one. The deadline ends the writing
but not the pass under way.

`stop` and `drainResumes` say whether a flush is asked for.
-/

namespace MultiAiRouter.Shutdown

/-- The pass of a stop that is awaited. -/
inductive DrainPass
  | idle
  | first
  | second
  deriving DecidableEq

/-- The flags of a writer, and of the stop that is under way. -/
structure WriterLifecycle where
  deadlineExpired : Bool := false
  accepting : Bool := true
  stopping : Bool := false
  pass : DrainPass := .idle
  /-- The deadline of the stop that is under way has not fired. -/
  armed : Bool := false
  /-- That stop has warned of what it leaves. -/
  reported : Bool := false
  deriving DecidableEq

namespace WriterLifecycle

/-- A batch may still be written. -/
def canWrite (life : WriterLifecycle) : Bool := !life.deadlineExpired

/-- A stop has not finished draining. -/
def draining (life : WriterLifecycle) : Bool := life.pass != .idle

/-- Start, or start again; refused while a stop drains. -/
def start (life : WriterLifecycle) : WriterLifecycle × Bool :=
  if life.draining then (life, false)
  else ({ life with stopping := false, deadlineExpired := false, accepting := true }, true)

/-- Stop, once. The answer is whether the first pass begins. -/
def stop (life : WriterLifecycle) : WriterLifecycle × Bool :=
  if life.stopping then (life, false)
  else ({ life with accepting := false, stopping := true, pass := .first, armed := true, reported := false }, true)

/-- Warn of what is left, at most once in a stop. -/
def warn (life : WriterLifecycle) (pending : Nat) : WriterLifecycle × Option Nat :=
  if life.reported then (life, none) else ({ life with reported := true }, some pending)

/-- The deadline of a stop fires. -/
def deadline (life : WriterLifecycle) (outstanding : Nat) : WriterLifecycle × Option Nat :=
  if life.armed then { life with armed := false, deadlineExpired := true }.warn outstanding else (life, none)

/-- The drain is over: what is left is warned of, and the timer is cleared. -/
def drained (life : WriterLifecycle) (pending : Nat) : WriterLifecycle × Option Nat :=
  let warned := if 0 < pending then life.warn pending else (life, none)
  ({ warned.1 with pass := .idle, armed := false }, warned.2)

/-- A pass that was awaited has settled. The answers are the warning, and whether a second pass begins. -/
def drainResumes (life : WriterLifecycle) (failed : Bool) (pending outstanding : Nat) :
    WriterLifecycle × Option Nat × Bool :=
  let warned := if failed then life.warn outstanding else (life, none)
  match life.pass with
  | .idle => (life, none, false)
  | .first =>
    -- The local `expired` of the source is set with the deadline of this stop.
    if life.armed && decide (0 < pending) then ({ warned.1 with pass := .second }, warned.2, true)
    else
      let settled := warned.1.drained pending
      (settled.1, warned.2.or settled.2, false)
  | .second =>
    let settled := warned.1.drained pending
    (settled.1, warned.2.or settled.2, false)

end WriterLifecycle

end MultiAiRouter.Shutdown
