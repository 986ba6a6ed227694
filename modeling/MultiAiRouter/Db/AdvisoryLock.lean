import MultiAiRouter.Common.Run

/-!
# The session advisory lock pool

`createSessionAdvisoryLockPool`, one step per synchronous stretch between two awaits. An admission reserves a
connection of the pool's generation, asks for the advisory lock on it, and is then the caller's. A reservation may
be abandoned while its connection is still to come. A lost session, a query that fails or times out, or an abort
during the lock query retires the generation.

Of the two promises `acquire` races, either may win once both have settled. Connections are handed back without
raising.
-/

namespace MultiAiRouter.Db

open Common

/-- How far the end of a generation's client has come. -/
inductive Disposal
  | pending
  | resolved
  | rejected
  deriving DecidableEq

/-- One client of the pool, with its holders by admission number. -/
structure Generation where
  occupied : Int := 0
  holders : List ℕ := []
  retired : Bool := false
  disposal : Option Disposal := none
  deriving DecidableEq

/-- What became of the reservation: its handler passed the connection on, handed it back at once, or
saw the reservation fail. -/
inductive Reservation
  | pending
  | connected
  | dropped
  | failed
  deriving DecidableEq

/-- Where an admission stands: in the race for its connection, abandoned to the late handler, in the lock query,
waiting for the client's end, held, inside, in the unlock query, or done. -/
inductive AdmissionPhase
  | racing
  | late
  | querying
  | disposing
  | held
  | inside
  | unlocking
  | closed
  deriving DecidableEq

/-- One admission. `finished` is the flag of its `finish`; the counts and the flags besides are read by
nothing. -/
structure Admission where
  key : Int
  owner : ℕ
  lease : Bool
  aborted : Bool := false
  reservation : Reservation := .pending
  phase : AdmissionPhase := .racing
  finished : Bool := false
  finishes : ℕ := 0
  connections : ℕ := 0
  releases : ℕ := 0
  lockedOnRetired : Option Bool := none
  entered : Bool := false
  deriving DecidableEq

/-- An admission as it is made. -/
def Admission.make (key : Int) (owner : ℕ) (lease : Bool) : Admission where
  key := key
  owner := owner
  lease := lease

/-- The pool, with every generation and every admission it ever had. -/
structure AdvisoryLockPool where
  stopping : Bool := false
  current : Option ℕ := none
  generations : List Generation := []
  keys : List Int := []
  admissions : List Admission := []
  deriving DecidableEq

/-- What happens to the pool. An answer that fails, times out or is interrupted is no answer. -/
inductive LockEvent
  | acquire (lease : Bool) (key : Int) (signalAborted reserveThrows : Bool)
  | abort (number : ℕ)
  | reserved (number : ℕ) (ok : Bool)
  | raced (number : ℕ) (cancelled : Bool)
  | cleaned (number : ℕ)
  | queried (number : ℕ) (locked : Option Bool)
  | continued (number : ℕ)
  | left (number : ℕ)
  | unlocked (number : ℕ) (unlocked : Option Bool)
  | disposed (number : ℕ)
  | lost (generation : ℕ)
  | ended (generation : ℕ) (ok : Bool)
  | rechecked (generation : ℕ)
  | close
  | drained
  deriving DecidableEq

namespace AdvisoryLockPool

variable (pool : AdvisoryLockPool)

def isRetired (generation : ℕ) : Bool := pool.generations[generation]?.any (·.retired)

/-- The check made after every await: the admission is aborted, or its generation gone, or the pool. -/
def refuses (admission : Admission) : Bool :=
  admission.aborted || pool.isRetired admission.owner || pool.stopping

def setAdmission (number : ℕ) (admission : Admission) : AdvisoryLockPool :=
  { pool with admissions := pool.admissions.set number admission }

/-- Give up the admission's place and its key, once. -/
def finish (number : ℕ) : AdvisoryLockPool :=
  match pool.admissions[number]? with
  | none => pool
  | some admission =>
    if admission.finished then pool
    else
      { pool with
        admissions :=
          pool.admissions.set number { admission with finished := true, finishes := admission.finishes + 1 }
        generations := pool.generations.modify admission.owner fun generation =>
          { generation with
            occupied := generation.occupied - 1
            holders := generation.holders.filter (· != number) }
        keys := pool.keys.filter (· != admission.key) }

/-- Hand the admission's connection back and finish it. -/
def settle (number : ℕ) : AdvisoryLockPool :=
  match pool.admissions[number]? with
  | none => pool
  | some admission =>
    (pool.setAdmission number { admission with phase := .closed, releases := admission.releases + 1 }).finish number

/-- The first stretch of `releaseHeld`: a lock held on a live generation is unlocked first. -/
def releaseHeld (number : ℕ) (acquired : Bool) : AdvisoryLockPool :=
  match pool.admissions[number]? with
  | none => pool
  | some admission =>
    if acquired && !pool.isRetired admission.owner then
      pool.setAdmission number { admission with phase := .unlocking }
    else pool.settle number

/-- The holder's controller is aborted; a lease that was handed out releases itself. -/
def abortHolder (number : ℕ) : AdvisoryLockPool :=
  match pool.admissions[number]? with
  | none => pool
  | some admission =>
    if admission.aborted then pool
    else
      let pool := pool.setAdmission number { admission with aborted := true }
      if admission.phase = .inside ∧ admission.lease then pool.releaseHeld number true else pool

/-- Retire the generation: end its client and abort every holder it still has. -/
def retire (number : ℕ) : AdvisoryLockPool :=
  match pool.generations[number]? with
  | none => pool
  | some generation =>
    if generation.disposal.isSome then pool
    else
      generation.holders.foldl abortHolder
        { pool with
          generations :=
            pool.generations.set number { generation with retired := true, disposal := some .pending } }

/-- The controller is aborted from outside; a lock query it interrupts retires the generation. -/
def abort (number : ℕ) : AdvisoryLockPool :=
  match pool.admissions[number]? with
  | none => pool
  | some admission =>
    if admission.aborted then pool
    else if admission.phase = .querying then (pool.abortHolder number).retire admission.owner
    else pool.abortHolder number

/-- The current generation, created when there is none. -/
def generation : AdvisoryLockPool × ℕ :=
  match pool.current with
  | some number => (pool, number)
  | none =>
    ({ pool with
      current := some pool.generations.length
      generations := pool.generations ++ [{}] }, pool.generations.length)

/-- The first stretch of `acquire`: admission, and the call that reserves a connection. -/
def acquire (max : ℕ) (lease : Bool) (key : Int) (signalAborted reserveThrows : Bool) : AdvisoryLockPool :=
  if pool.stopping || signalAborted then pool
  else if pool.current.any pool.isRetired then pool
  else
    let (pool, owner) := pool.generation
    match pool.generations[owner]? with
    | none => pool
    | some generation =>
      if key ∈ pool.keys then pool
      else if (max : Int) ≤ generation.occupied then pool
      else
        let number := pool.admissions.length
        let admission := Admission.make key owner lease
        let pool : AdvisoryLockPool :=
          { pool with
            keys := pool.keys ++ [key]
            generations := pool.generations.set owner
              { generation with
                occupied := generation.occupied + 1
                holders := generation.holders ++ [number] }
            admissions := pool.admissions ++ [admission] }
        if reserveThrows then
          (pool.setAdmission number { admission with reservation := .failed, phase := .closed }).finish number
        else pool

/-- The reservation's handler: a connection nobody may use any more is handed back at once. -/
def reserved (number : ℕ) (ok : Bool) : AdvisoryLockPool :=
  match pool.admissions[number]? with
  | none => pool
  | some admission =>
    if admission.reservation ≠ .pending then pool
    else if !ok then (pool.setAdmission number { admission with reservation := .failed }).finish number
    else
      let admission := { admission with connections := admission.connections + 1 }
      if pool.refuses admission then
        (pool.setAdmission number
          { admission with reservation := .dropped, releases := admission.releases + 1 }).finish number
      else pool.setAdmission number { admission with reservation := .connected }

/-- `acquire` goes on with the reservation, or with the cancellation if the holder was aborted. -/
def raced (number : ℕ) (cancelled : Bool) : AdvisoryLockPool :=
  match pool.admissions[number]? with
  | none => pool
  | some admission =>
    if admission.phase ≠ .racing then pool
    else if cancelled then
      if admission.aborted then pool.setAdmission number { admission with phase := .late } else pool
    else
      match admission.reservation with
      | .pending => pool
      | .connected =>
        if pool.refuses admission then pool.releaseHeld number false
        else pool.setAdmission number { admission with phase := .querying }
      | .dropped => pool.setAdmission number { admission with phase := .late }
      | .failed => (pool.setAdmission number { admission with phase := .closed }).finish number

/-- The late handler of an abandoned reservation. -/
def cleaned (number : ℕ) : AdvisoryLockPool :=
  match pool.admissions[number]? with
  | none => pool
  | some admission =>
    if admission.phase ≠ .late then pool
    else
      match admission.reservation with
      | .pending => pool
      | .connected => pool.settle number
      | .dropped | .failed => pool.setAdmission number { admission with phase := .closed }

/-- `pg_try_advisory_lock` answers. -/
def queried (number : ℕ) (locked : Option Bool) : AdvisoryLockPool :=
  match pool.admissions[number]? with
  | none => pool
  | some admission =>
    if admission.phase ≠ .querying then pool
    else
      match locked with
      | none => (pool.setAdmission number { admission with phase := .disposing }).retire admission.owner
      | some false => pool.releaseHeld number false
      | some true =>
        let admission := { admission with lockedOnRetired := some (pool.isRetired admission.owner) }
        if pool.refuses admission then (pool.setAdmission number admission).releaseHeld number true
        else pool.setAdmission number { admission with phase := .held }

/-- The caller takes up the held lock: `tryRun` runs its work, `tryAcquire` hands out a lease. -/
def continued (number : ℕ) : AdvisoryLockPool :=
  match pool.admissions[number]? with
  | none => pool
  | some admission =>
    if admission.phase ≠ .held then pool
    else if admission.lease then
      let pool := pool.setAdmission number { admission with phase := .inside, entered := true }
      if admission.aborted then pool.releaseHeld number true else pool
    else if pool.refuses admission then pool.releaseHeld number true
    else pool.setAdmission number { admission with phase := .inside, entered := true }

/-- The work has settled, or the lease is released. -/
def left (number : ℕ) : AdvisoryLockPool :=
  match pool.admissions[number]? with
  | none => pool
  | some admission => if admission.phase ≠ .inside then pool else pool.releaseHeld number true

/-- `pg_advisory_unlock` answers. -/
def unlocked (number : ℕ) (unlocked : Option Bool) : AdvisoryLockPool :=
  match pool.admissions[number]? with
  | none => pool
  | some admission =>
    if admission.phase ≠ .unlocking then pool
    else if unlocked = some true then pool.settle number
    else (pool.setAdmission number { admission with phase := .disposing }).retire admission.owner

/-- The wait for the end of the generation's client is over. -/
def disposed (number : ℕ) : AdvisoryLockPool :=
  match pool.admissions[number]? with
  | none => pool
  | some admission =>
    if admission.phase = .disposing ∧
        pool.generations[admission.owner]?.any
          (fun generation => generation.disposal = some .resolved ∨ generation.disposal = some .rejected) then
      pool.settle number
    else pool

/-- The next admission may create a new generation once a retired one has ended and is empty. -/
def rechecked (number : ℕ) : AdvisoryLockPool :=
  match pool.generations[number]? with
  | none => pool
  | some generation =>
    if generation.disposal = some .resolved ∧ pool.current = some number ∧ generation.occupied = 0 ∧
        !pool.stopping then
      { pool with current := none }
    else pool

/-- The end of the generation's client has settled. -/
def ended (number : ℕ) (ok : Bool) : AdvisoryLockPool :=
  match pool.generations[number]? with
  | none => pool
  | some generation =>
    if generation.disposal ≠ some .pending then pool
    else
      ({ pool with
        generations := pool.generations.set number
          { generation with disposal := some (if ok then .resolved else .rejected) } }).rechecked number

/-- `close`: nothing is admitted any more, and every holder of the current generation is aborted. -/
def close : AdvisoryLockPool :=
  if pool.stopping then pool
  else
    match pool.current.bind (pool.generations[·]?) with
    | none => { pool with stopping := true }
    | some generation => generation.holders.foldl abort { pool with stopping := true }

/-- `close` has waited long enough, and retires the generation. -/
def drained : AdvisoryLockPool :=
  match pool.current with
  | none => pool
  | some number => if pool.stopping then pool.retire number else pool

/-- One step of the pool. -/
def step (max : ℕ) (pool : AdvisoryLockPool) : LockEvent → AdvisoryLockPool
  | .acquire lease key signalAborted reserveThrows => pool.acquire max lease key signalAborted reserveThrows
  | .abort number => if pool.admissions[number]?.any (·.finished) then pool else pool.abort number
  | .reserved number ok => pool.reserved number ok
  | .raced number cancelled => pool.raced number cancelled
  | .cleaned number => pool.cleaned number
  | .queried number locked => pool.queried number locked
  | .continued number => pool.continued number
  | .left number => pool.left number
  | .unlocked number answer => pool.unlocked number answer
  | .disposed number => pool.disposed number
  | .lost generation => pool.retire generation
  | .ended generation ok => pool.ended generation ok
  | .rechecked generation => pool.rechecked generation
  | .close => pool.close
  | .drained => pool.drained

/-- The pool after a run from its creation. -/
def after (max : ℕ) (events : List LockEvent) : AdvisoryLockPool := runFrom (step max) {} events

end AdvisoryLockPool

end MultiAiRouter.Db
