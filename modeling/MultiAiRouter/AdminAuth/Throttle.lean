import Mathlib.Data.Finset.Card
import Mathlib.Data.Finset.Union
import Mathlib.Logic.Function.Basic
import MultiAiRouter.Common.InsertionMap
import MultiAiRouter.Common.Run

/-!
# The throttle of login attempts

Failures are counted by key in one bounded map. A bucket that has expired is started again or evicted, and a key
that is new to a full map is refused. What is told of a key, the times of the failures that count against it, is
kept beside the run.
-/

namespace MultiAiRouter.AdminAuth

open Common

/-- What the throttle is configured with; each is at least one. -/
structure AdminAuthConfig where
  maxFailedAttempts : ℕ
  maxTrackedIps : ℕ
  attemptWindowSeconds : ℕ
  lockoutSeconds : ℕ
  failed_positive : 1 ≤ maxFailedAttempts
  tracked_positive : 1 ≤ maxTrackedIps
  window_positive : 1 ≤ attemptWindowSeconds
  lockout_positive : 1 ≤ lockoutSeconds

def AdminAuthConfig.windowMs (config : AdminAuthConfig) : ℕ := config.attemptWindowSeconds * 1000

def AdminAuthConfig.lockoutMs (config : AdminAuthConfig) : ℕ := config.lockoutSeconds * 1000

inductive ThrottleDecision
  | allowed
  | refused (retryAfterSeconds : ℕ)
  deriving DecidableEq

structure Bucket where
  failures : ℕ
  windowStartMs : ℕ
  lockedUntilMs : ℕ
  deriving DecidableEq

abbrev Buckets (Key : Type) := InsertionMap Key Bucket

section Throttle

variable {Key : Type} [DecidableEq Key] (config : AdminAuthConfig)

/-- A bucket has served its lockout, or its window has passed without one. -/
def expired (bucket : Bucket) (nowMs : ℕ) : Bool :=
  if 0 < bucket.lockedUntilMs then bucket.lockedUntilMs ≤ nowMs
  else config.windowMs ≤ nowMs - bucket.windowStartMs

omit [DecidableEq Key] in
def evictStale (buckets : Buckets Key) (nowMs : ℕ) : Buckets Key where
  entries := buckets.entries.filter fun entry => !expired config entry.2 nowMs
  nodup := buckets.nodup.sublist (List.filter_sublist.map Prod.fst)

/-- A full map is swept before it is read. -/
def sweepFull (buckets : Buckets Key) (nowMs : ℕ) : Buckets Key :=
  if config.maxTrackedIps ≤ buckets.entries.length then evictStale config buckets nowMs else buckets

/-- The latest end of a lockout among the keys, or zero. -/
def lockedUntil (buckets : Buckets Key) (keys : List Key) (nowMs : ℕ) : ℕ :=
  keys.foldl (fun latest key =>
    match buckets.get key with
    | none => latest
    | some bucket => if nowMs < bucket.lockedUntilMs then max latest bucket.lockedUntilMs else latest) 0

def check (buckets : Buckets Key) (keys : List Key) (nowMs : ℕ) : Buckets Key × ThrottleDecision :=
  let kept := sweepFull config buckets nowMs
  if config.maxTrackedIps ≤ buckets.entries.length ∧ (keys.any fun key => (kept.get key).isNone) ∧
      config.maxTrackedIps ≤ kept.entries.length then
    (kept, .refused (max 1 config.lockoutSeconds))
  else if lockedUntil kept keys nowMs = 0 then (kept, .allowed)
  else (kept, .refused ((lockedUntil kept keys nowMs - nowMs + 999) / 1000))

/-- One failure of a key; an expired bucket starts again. -/
def chargeKey (nowMs : ℕ) (buckets : Buckets Key) (key : Key) : Buckets Key :=
  let fresh : Bucket := { failures := 0, windowStartMs := nowMs, lockedUntilMs := 0 }
  let bucket := match buckets.get key with
    | none => fresh
    | some existing => if expired config existing nowMs then fresh else existing
  buckets.set key
    { bucket with
      failures := bucket.failures + 1
      lockedUntilMs :=
        if config.maxFailedAttempts ≤ bucket.failures + 1 then nowMs + config.lockoutMs else bucket.lockedUntilMs }

def recordFailure (buckets : Buckets Key) (keys : List Key) (nowMs : ℕ) : Buckets Key :=
  keys.foldl (chargeKey config nowMs) (sweepFull config buckets nowMs)

def reset (buckets : Buckets Key) (keys : List Key) : Buckets Key := keys.foldl InsertionMap.delete buckets

/-- The throttle, the keys of the attempts that are under way, and the clock. -/
structure LoginState (Key : Type) where
  buckets : Buckets Key := {}
  flight : List (List Key) := []
  clock : ℕ

/-- An attempt comes, or one of those under way settles, so much later than what came before. -/
inductive LoginEvent (Key : Type)
  | attempt (keys : List Key) (after : ℕ)
  | settle (index : ℕ) (failed : Bool) (after : ℕ)
  deriving DecidableEq

def LoginEvent.after {Key : Type} : LoginEvent Key → ℕ
  | .attempt _ after => after
  | .settle _ _ after => after

/-- One thing happens: an attempt that is allowed is under way until it records its failure or resets its keys. -/
def LoginState.step (state : LoginState Key) (event : LoginEvent Key) : LoginState Key :=
  let nowMs := state.clock + event.after
  match event with
  | .attempt keys _ =>
    let checked := check config state.buckets keys nowMs
    { buckets := checked.1
      flight :=
        match checked.2 with
        | .allowed => state.flight ++ [keys]
        | .refused _ => state.flight
      clock := nowMs }
  | .settle index failed _ =>
    match state.flight[index]? with
    | none => { state with clock := nowMs }
    | some keys =>
      { buckets := if failed then recordFailure config state.buckets keys nowMs else reset state.buckets keys
        flight := state.flight.eraseIdx index
        clock := nowMs }

end Throttle

section Ledger

variable {Key : Type} [DecidableEq Key] (config : AdminAuthConfig)

/-- The failures have stopped counting: their lockout has elapsed, or the window of the first of them. -/
def elapsed (times : List ℕ) (nowMs : ℕ) : Bool :=
  match times.head?, times.getLast? with
  | some first, some last =>
    if config.maxFailedAttempts ≤ times.length then last + config.lockoutMs ≤ nowMs
    else config.windowMs ≤ nowMs - first
  | _, _ => true

/-- One more failure: it counts with the others, or begins a window of its own. -/
def countFailure (nowMs : ℕ) (ledger : Key → List ℕ) (key : Key) : Key → List ℕ :=
  Function.update ledger key (if elapsed config (ledger key) nowMs then [nowMs] else ledger key ++ [nowMs])

/-- A success: no failure of the key counts any longer. -/
def forgive (ledger : Key → List ℕ) (key : Key) : Key → List ℕ := Function.update ledger key []

/-- The keys of the attempts that are under way. -/
def LoginState.inFlight (state : LoginState Key) : Finset Key := state.flight.flatten.toFinset

/-- A run, the failures that count for each key, and the most keys under way at one time. -/
structure Observed (Key : Type) where
  state : LoginState Key
  ledger : Key → List ℕ := fun _ => []
  peak : ℕ := 0

def Observed.step (observed : Observed Key) (event : LoginEvent Key) : Observed Key :=
  let next := observed.state.step config event
  { state := next
    ledger := match event with
      | .attempt _ _ => observed.ledger
      | .settle index failed after =>
        match observed.state.flight[index]? with
        | none => observed.ledger
        | some keys =>
          if failed then keys.foldl (countFailure config (observed.state.clock + after)) observed.ledger
          else keys.foldl forgive observed.ledger
    peak := max observed.peak next.inFlight.card }

end Ledger

end MultiAiRouter.AdminAuth
