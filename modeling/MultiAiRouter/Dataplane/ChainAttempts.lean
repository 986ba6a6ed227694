import MultiAiRouter.Dataplane.Chain

/-!
# What the attempts of a chain hold

`runChain` between two awaits, with the three things an attempt can hold: a half-open probe, an in-flight count, and
a recovery permit. The client may cancel and the router may shut down at any await. Shutdown runs the callback the
current attempt (or its relay) left on the lease, then aborts. The loop's own variables move as `chainStep` moves
them.
-/

namespace MultiAiRouter.Dataplane

open Common Routing

/-- What one attempt took and what it gave back. -/
structure AttemptLedger where
  number : ℕ
  accountId : String
  designated : Bool
  probeHeld : Bool
  probeReleased : Bool := false
  begun : ℕ := 0
  ended : ℕ := 0
  consumed : Bool := false
  finished : Bool := false
  deriving DecidableEq

namespace AttemptLedger

/-- Give the probe back; idempotent. -/
def releaseProbe (ledger : AttemptLedger) : AttemptLedger := { ledger with probeReleased := true }

/-- A designated attempt's start guard consumes the permit; any other start consumes nothing. -/
def consume (ledger : AttemptLedger) : AttemptLedger :=
  { ledger with consumed := ledger.consumed || ledger.designated }

/-- Give a consumed permit its outcome. -/
def finish (ledger : AttemptLedger) : AttemptLedger :=
  { ledger with finished := ledger.finished || ledger.consumed }

/-- Count the attempt in flight, the first time the upstream starts. -/
def onStarted (ledger : AttemptLedger) : AttemptLedger :=
  if ledger.begun = 0 then { ledger with begun := 1 } else ledger

/-- Uncount a started attempt, once. -/
def endAttempt (ledger : AttemptLedger) : AttemptLedger :=
  if ledger.begun = 0 ∨ ledger.ended ≠ 0 then ledger else { ledger with ended := ledger.ended + 1 }

/-- What shutdown runs for an attempt that has no relay yet. -/
def abandon (ledger : AttemptLedger) : AttemptLedger := ledger.finish.endAttempt.releaseProbe

/-- What the relay runs when its body ends: it uncounts the attempt itself. -/
def settle (ledger : AttemptLedger) : AttemptLedger :=
  ({ ledger with ended := ledger.ended + 1 } : AttemptLedger).finish.releaseProbe

/-- Everything taken was given back, and each start was counted off exactly once. -/
def Closed (ledger : AttemptLedger) : Prop :=
  (ledger.probeHeld → ledger.probeReleased) ∧ ledger.begun = ledger.ended ∧ (ledger.consumed → ledger.finished)

/-- Whether an attempt is closed can be decided. -/
instance (ledger : AttemptLedger) : Decidable ledger.Closed :=
  inferInstanceAs (Decidable (_ ∧ _))

end AttemptLedger

/-- How a dispatch ended; a failure says whether the upstream answered. -/
inductive DispatchResult
  | threw
  | admissionRefused
  | failure (failure : AttemptFailure) (answered : Bool)
  | success
  deriving DecidableEq

/-- A cancelled dispatch failed with the client's own status and no answer. -/
def isCancelledOutcome : DispatchResult → Bool
  | .failure failure answered =>
    decide (failure.kind = .clientError) && decide (failure.status = some 499) && !answered
  | _ => false

/-- Where a run of the chain stands. -/
inductive RunPhase
  | looping
  | dispatching (number : ℕ)
  | relaying (number : ℕ)
  | ended
  deriving DecidableEq

/-- The callback on the lease, by the attempt that left it. -/
inductive LeaseCallback
  | attempt (number : ℕ)
  | relay (number : ℕ)
  deriving DecidableEq

/-- One run of the chain: its loop, its attempts, and what has happened to the request. -/
structure AttemptRun where
  chain : ChainState
  leased : Bool
  attempts : List AttemptLedger := []
  phase : RunPhase := .looping
  clientAborted : Bool := false
  shutdown : Bool := false
  callback : Option LeaseCallback := none

/-- What can happen to a run: the client cancels, the router shuts down, or an await ends. -/
inductive AttemptEvent
  | cancel
  | stop
  | turn (probeAdmitted probeHeld : Bool) (body : BodyBuild)
  | consume
  | start
  | resolve (result : DispatchResult)
  | settle

/-- The attempt that is sent in this turn ends the loop. -/
def Turn.ends (turn : Turn) : Bool :=
  match turn.body, turn.dispatched with
  | .crashed, _ | .built, .success | .built, .cancelled => true
  | _, _ => false

/-- A turn that sends an attempt logs it, and leaves a result exactly when it ends the loop. -/
theorem dispatchTurn_row (ctx : ChainContext) {state : ChainState} (hrunning : state.result = none)
    (decision : FailoverDecision) (candidate : Candidate) (turn : Turn) :
    (∃ settled, (dispatchTurn ctx state decision candidate turn).log = ⟨decision, candidate, settled⟩ :: state.log) ∧
      (dispatchTurn ctx state decision candidate turn).result.isSome = turn.ends := by
  obtain ⟨aborted, probeAdmitted, body, dispatched⟩ := turn
  cases body with
  | crashed => exact ⟨⟨_, rfl⟩, rfl⟩
  | refused message => exact ⟨⟨_, rfl⟩, congrArg Option.isSome hrunning⟩
  | built =>
    cases dispatched with
    | failure failure started =>
      cases started with
      | true => exact ⟨⟨_, rfl⟩, congrArg Option.isSome hrunning⟩
      | false =>
        unfold dispatchTurn
        dsimp only
        split <;> exact ⟨⟨_, rfl⟩, congrArg Option.isSome hrunning⟩
    | threw => exact ⟨⟨_, rfl⟩, congrArg Option.isSome hrunning⟩
    | admissionRefused => exact ⟨⟨_, rfl⟩, congrArg Option.isSome hrunning⟩
    | success => exact ⟨⟨_, rfl⟩, rfl⟩
    | cancelled => exact ⟨⟨_, rfl⟩, rfl⟩

namespace AttemptRun

/-- The request's signal: the client's, or the lease's. -/
def aborted (run : AttemptRun) : Bool := run.clientAborted || run.shutdown

/-- Change the ledger of one attempt. -/
def update (run : AttemptRun) (number : ℕ) (change : AttemptLedger → AttemptLedger) : AttemptRun :=
  { run with
    attempts := run.attempts.map fun ledger =>
      if ledger.number = number then change ledger else ledger }

/-- Whether the attempt's upstream started. -/
def started (run : AttemptRun) (number : ℕ) : Bool :=
  run.attempts.any fun ledger => decide (ledger.number = number) && decide (ledger.begun ≠ 0)

/-- The run returned or threw: the lease forgets its callback. -/
def finished (run : AttemptRun) : AttemptRun := { run with phase := .ended, callback := none }

/-- The next turn of the loop, its variables moved. -/
def looped (ctx : ChainContext) (run : AttemptRun) (turn : Turn) : AttemptRun :=
  { run with chain := chainStep ctx run.chain turn, phase := .looping }

/-- The loop is left, its variables moved. -/
def left (ctx : ChainContext) (run : AttemptRun) (turn : Turn) : AttemptRun :=
  ({ run with chain := chainStep ctx run.chain turn }).finished

/-- The candidate the planner names next. -/
def planned (ctx : ChainContext) (run : AttemptRun) : Option Candidate :=
  match planNextAttempt run.chain.ordered run.chain.progress run.chain.lastFailure ctx.failover with
  | .stop _ => none
  | .attempt candidate _ _ _ => some candidate
  | .retryInPlace candidate _ _ => some candidate

/-- Record a new attempt. -/
def opened (run : AttemptRun) (ledger : AttemptLedger) : AttemptRun :=
  { run with attempts := run.attempts ++ [ledger] }

/-- The attempt leaves its own callback on a lease that is still held. -/
def setAbandon (run : AttemptRun) (callback : LeaseCallback) : AttemptRun :=
  if run.leased && !run.shutdown then { run with callback := some callback } else run

/-- An attempt on the candidate: only a half-open one can be granted the probe. -/
def newLedger (ctx : ChainContext) (run : AttemptRun) (candidate : Candidate) (probeHeld : Bool) :
    AttemptLedger :=
  { number := run.attempts.length
    accountId := candidate.account.id
    designated := designated ctx candidate
    probeHeld := candidate.halfOpen && probeHeld }

/-- Admit the planned candidate, build its body, and dispatch it. -/
def admitted (ctx : ChainContext) (run : AttemptRun) (candidate : Candidate) (probeHeld : Bool)
    (body : BodyBuild) : AttemptRun :=
  let ledger := run.newLedger ctx candidate probeHeld
  match body with
  | .crashed => (run.opened ledger.releaseProbe).left ctx { body := .crashed, dispatched := .threw }
  | .refused message =>
    (run.opened ledger.releaseProbe).looped ctx { body := .refused message, dispatched := .threw }
  | .built =>
    ({ run.opened ledger with phase := .dispatching ledger.number }).setAbandon
      (.attempt ledger.number)

/-- One turn of the loop, from its head to the dispatch. -/
def turned (ctx : ChainContext) (run : AttemptRun) (probeAdmitted probeHeld : Bool)
    (body : BodyBuild) : AttemptRun :=
  if run.aborted then run.left ctx { aborted := true, dispatched := .threw }
  else
    match run.planned ctx with
    | none => run.left ctx { dispatched := .threw }
    | some candidate =>
      if !decide (candidate.account.id ∈ ctx.plan.map fun planned => planned.account.id) then
        run.left ctx { dispatched := .threw }
      else if candidate.halfOpen && !probeAdmitted then
        run.looped ctx { probeAdmitted := false, dispatched := .threw }
      else run.admitted ctx candidate probeHeld body

/-- The dispatch answered before its upstream started: nothing was attempted. -/
def unstarted (ctx : ChainContext) (run : AttemptRun) (number : ℕ) (dispatched : Dispatched) :
    AttemptRun :=
  (run.update number fun ledger => ledger.endAttempt.finish.releaseProbe).looped ctx
    { dispatched := dispatched }

/-- The client cancelled before anything was relayed. -/
def cancelledBeforeRelay (ctx : ChainContext) (run : AttemptRun) (number : ℕ) : AttemptRun :=
  (run.update number fun ledger => ledger.finish.endAttempt.releaseProbe).left ctx
    { dispatched := .cancelled }

/-- The dispatch settled. -/
def resolved (ctx : ChainContext) (run : AttemptRun) (number : ℕ) (result : DispatchResult) :
    AttemptRun :=
  -- `assertRunning`: shutdown has already run this attempt's callback.
  if run.shutdown then run.left ctx { dispatched := .cancelled }
  else
    match result with
    | .threw =>
      let closed := run.update number fun ledger => ledger.endAttempt.releaseProbe
      if run.aborted then closed.left ctx { dispatched := .cancelled }
      else closed.looped ctx { dispatched := .threw }
    | .admissionRefused => run.unstarted ctx number .admissionRefused
    | .failure failure answered =>
      -- `assertUnstartedCancellation` throws past every release.
      if !run.started number && isCancelledOutcome (.failure failure answered) && run.aborted then
        run.left ctx { dispatched := .cancelled }
      else if !run.started number then
        run.unstarted ctx number (.failure failure false)
      else if run.aborted && isCancelledOutcome (.failure failure answered) then
        run.cancelledBeforeRelay ctx number
      else
        (run.update number fun ledger => ledger.finish.endAttempt.releaseProbe).looped ctx
          { dispatched := .failure failure true }
    | .success =>
      let begun := run.update number AttemptLedger.onStarted
      if run.aborted then begun.cancelledBeforeRelay ctx number
      else
        ({ begun with
            chain := chainStep ctx begun.chain { dispatched := .success }
            phase := .relaying number }).setAbandon (.relay number)

/-- The relayed body ended, errored or was cancelled. -/
def settled (run : AttemptRun) (number : ℕ) : AttemptRun :=
  (run.update number AttemptLedger.settle).finished

/-- The client cancels: an open relay settles at once. -/
def cancelled (run : AttemptRun) : AttemptRun :=
  let aborted := { run with clientAborted := true }
  match run.phase with
  | .relaying number => aborted.settled number
  | _ => aborted

/-- The router shuts down: the callback on the lease runs, then the request's signal aborts. -/
def stopped (run : AttemptRun) : AttemptRun :=
  if !run.leased || run.shutdown then run
  else
    let abandoned :=
      match run.callback with
      | none => run
      | some (.attempt number) => run.update number AttemptLedger.abandon
      | some (.relay number) =>
        if run.phase = RunPhase.relaying number then run.settled number else run
    { abandoned with shutdown := true, callback := none }

/-- One event of a run. -/
def step (ctx : ChainContext) (run : AttemptRun) : AttemptEvent → AttemptRun
  | .cancel => run.cancelled
  | .stop => run.stopped
  | .turn probeAdmitted probeHeld body =>
    match run.phase with
    | .looping => run.turned ctx probeAdmitted probeHeld body
    | _ => run
  | .consume =>
    match run.phase with
    | .dispatching number => run.update number AttemptLedger.consume
    | _ => run
  | .start =>
    match run.phase with
    -- An aborted lease refuses the start by throwing.
    | .dispatching number =>
      if run.shutdown then run else run.update number AttemptLedger.onStarted
    | _ => run
  | .resolve result =>
    match run.phase with
    | .dispatching number => run.resolved ctx number result
    | _ => run
  | .settle =>
    match run.phase with
    | .relaying number => run.settled number
    | _ => run

/-- A run before its first turn; the client may have left and the router may be stopping. -/
def start (ctx : ChainContext) (leased clientAborted shutdown : Bool) : AttemptRun :=
  { chain := ctx.start
    leased := leased
    clientAborted := clientAborted
    shutdown := shutdown }

/-- Everything that happens to a run, in order. -/
def run (ctx : ChainContext) (start : AttemptRun) (events : List AttemptEvent) : AttemptRun :=
  runFrom (step ctx) start events

/-- The accounts of the attempts that are over, in order. -/
def concluded (run : AttemptRun) : List String :=
  match run.phase with
  | .dispatching _ => (run.attempts.map AttemptLedger.accountId).dropLast
  | _ => run.attempts.map AttemptLedger.accountId

/-- The accounts of these rows of the loop's log, oldest first. -/
def rows (run : AttemptRun) (which : Settled → Bool) : List String :=
  ((run.chain.log.filter fun entry => which entry.settled).map fun entry => entry.candidate.account.id).reverse

/-- The loop's variables are those of a run of the chain, and it has a result exactly when it is left; the attempts
that are over have their rows in the log, in order, and every row that is no refusal is of one; and the attempt that
is out is on the candidate the planner names. -/
structure Coupled (ctx : ChainContext) (run : AttemptRun) : Prop where
  refines : ∃ turns, run.chain = runChain ctx turns
  decided : run.chain.result.isSome = true ↔ run.phase = .ended ∨ ∃ number, run.phase = .relaying number
  sent : (run.rows fun settled => settled != .refused).Sublist run.concluded
  logged : run.concluded.Sublist (run.rows fun _ => true)
  current : ∀ number, run.phase = .dispatching number → ∃ candidate, run.planned ctx = some candidate ∧
    candidate.account.id ∈ ctx.plan.map (fun planned => planned.account.id) ∧
    run.attempts.map AttemptLedger.accountId = run.concluded ++ [candidate.account.id]

section Coupled

variable {ctx : ChainContext} {run next : AttemptRun} {candidate : Candidate} {turn : Turn}

/-- Outside a dispatch every attempt is over. -/
theorem concluded_of_idle (h : ∀ number, run.phase ≠ .dispatching number) :
    run.concluded = run.attempts.map AttemptLedger.accountId := by
  unfold concluded
  split
  · next number hphase => exact absurd hphase (h number)
  · rfl

/-- What happens to the ledgers alone leaves the loop and the attempts agreed. -/
theorem Coupled.still (h : Coupled ctx run) (hchain : next.chain = run.chain) (hphase : next.phase = run.phase)
    (haccounts : next.attempts.map AttemptLedger.accountId = run.attempts.map AttemptLedger.accountId) :
    Coupled ctx next := by
  have hconcluded : next.concluded = run.concluded := by simp only [concluded, hphase, haccounts]
  have hrows (which : Settled → Bool) : next.rows which = run.rows which := by simp only [rows, hchain]
  refine ⟨hchain ▸ h.refines, by rw [hchain, hphase]; exact h.decided, by rw [hrows, hconcluded]; exact h.sent,
    by rw [hrows, hconcluded]; exact h.logged, fun number hnumber => ?_⟩
  have hplanned : next.planned ctx = run.planned ctx := by simp only [planned, hchain]
  rw [hplanned, haccounts, hconcluded]
  exact h.current number (hphase ▸ hnumber)

/-- A turn of the loop moves its variables on in the run of the chain. -/
theorem Coupled.moved (h : Coupled ctx run) (turn : Turn) :
    ∃ turns, chainStep ctx run.chain turn = runChain ctx turns := by
  obtain ⟨turns, hturns⟩ := h.refines
  refine ⟨turns ++ [turn], ?_⟩
  rw [hturns, runChain, runChain, runFrom_append]
  rfl

/-- A turn that sends no attempt. -/
theorem Coupled.unsent (h : Coupled ctx run) (hrunning : ∀ number, run.phase ≠ .dispatching number)
    (hchain : next.chain = chainStep ctx run.chain turn) (hattempts : next.attempts = run.attempts)
    (hlog : next.chain.log = run.chain.log ∨
      ∃ decision candidate, next.chain.log = ⟨decision, candidate, .refused⟩ :: run.chain.log)
    (hdecided : next.chain.result.isSome = true ↔ next.phase = .ended ∨ ∃ number, next.phase = .relaying number)
    (hidle : ∀ number, next.phase ≠ .dispatching number) : Coupled ctx next := by
  have hconcluded : next.concluded = run.concluded := by
    rw [concluded_of_idle hidle, concluded_of_idle hrunning, hattempts]
  refine ⟨hchain ▸ h.moved turn, hdecided, ?_, ?_, fun number hnumber => absurd hnumber (hidle number)⟩
  · rw [hconcluded]
    rcases hlog with hlog | ⟨decision, candidate, hlog⟩ <;> simpa [rows, hlog] using h.sent
  · rw [hconcluded]
    rcases hlog with hlog | ⟨decision, candidate, hlog⟩
    · simpa [rows, hlog] using h.logged
    · simpa [rows, hlog] using h.logged.trans (List.sublist_append_left ..)

/-- The loop goes on to admit the candidate that the planner names. -/
theorem chainStep_planned (hrunning : run.chain.result = none) (hplanned : run.planned ctx = some candidate)
    (haborted : turn.aborted = false) : chainStep ctx run.chain turn = admitTurn ctx run.chain
      (planNextAttempt run.chain.ordered run.chain.progress run.chain.lastFailure ctx.failover) candidate turn := by
  unfold planned at hplanned
  split at hplanned
  · cases hplanned
  all_goals
    next hplan =>
      obtain rfl := Option.some.inj hplanned
      simp only [chainStep, hrunning, hplan, haborted, Option.isSome_none, Bool.false_eq_true, if_false]

/-- An attempt on the planned candidate is over. -/
theorem Coupled.sending (h : Coupled ctx run) (hrunning : run.chain.result = none)
    (hplanned : run.planned ctx = some candidate)
    (hmem : candidate.account.id ∈ ctx.plan.map (fun planned => planned.account.id)) (haborted : turn.aborted = false)
    (hprobe : turn.probeAdmitted = true) (hchain : next.chain = chainStep ctx run.chain turn)
    (haccounts : next.attempts.map AttemptLedger.accountId = run.concluded ++ [candidate.account.id])
    (hends : turn.ends = true ↔ next.phase = .ended ∨ ∃ number, next.phase = .relaying number)
    (hidle : ∀ number, next.phase ≠ .dispatching number) : Coupled ctx next := by
  have hstep : chainStep ctx run.chain turn = dispatchTurn ctx run.chain
      (planNextAttempt run.chain.ordered run.chain.progress run.chain.lastFailure ctx.failover) candidate turn := by
    simp only [chainStep_planned hrunning hplanned haborted, admitTurn, decide_eq_true hmem, hprobe, Bool.not_true,
      Bool.and_false, Bool.false_eq_true, if_false]
  obtain ⟨⟨settled, hlog⟩, hresult⟩ := dispatchTurn_row ctx hrunning
    (planNextAttempt run.chain.ordered run.chain.progress run.chain.lastFailure ctx.failover) candidate turn
  rw [← hstep, ← hchain] at hlog hresult
  refine ⟨hchain ▸ h.moved turn, by rw [hresult]; exact hends, ?_, ?_,
    fun number hnumber => absurd hnumber (hidle number)⟩
  · rw [concluded_of_idle hidle, haccounts]
    unfold rows
    rw [hlog, List.filter_cons]
    split
    · simpa [rows] using h.sent.append (List.Sublist.refl [candidate.account.id])
    · exact h.sent.trans (List.sublist_append_left ..)
  · rw [concluded_of_idle hidle, haccounts]
    simpa [rows, hlog] using h.logged

/-- The relayed body is over, and with it the run. -/
theorem Coupled.settled (h : Coupled ctx run) {number : ℕ} (hphase : run.phase = .relaying number)
    (hchain : next.chain = run.chain) (hended : next.phase = .ended)
    (haccounts : next.attempts.map AttemptLedger.accountId = run.attempts.map AttemptLedger.accountId) :
    Coupled ctx next := by
  have hconcluded : next.concluded = run.concluded := by simp only [concluded, hphase, hended, haccounts]
  have hrows (which : Settled → Bool) : next.rows which = run.rows which := by simp only [rows, hchain]
  refine ⟨hchain ▸ h.refines, ?_, by rw [hrows, hconcluded]; exact h.sent, by rw [hrows, hconcluded]; exact h.logged,
    fun number hnumber => by simp [hended] at hnumber⟩
  rw [hchain, h.decided, hphase, hended]
  simp

/-- The attempt that is out is resolved. -/
theorem Coupled.resolving (h : Coupled ctx run) {number : ℕ} (hphase : run.phase = .dispatching number)
    (dispatched : Dispatched) (hchain : next.chain = chainStep ctx run.chain { dispatched })
    (haccounts : next.attempts.map AttemptLedger.accountId = run.attempts.map AttemptLedger.accountId)
    (hends : Turn.ends { dispatched } = true ↔ next.phase = .ended ∨ ∃ number, next.phase = .relaying number)
    (hidle : ∀ number, next.phase ≠ .dispatching number) : Coupled ctx next := by
  obtain ⟨candidate, hplanned, hmem, hcurrent⟩ := h.current number hphase
  have hrunning : run.chain.result = none := by
    rw [← Option.not_isSome_iff_eq_none, h.decided, hphase]
    simp
  exact h.sending hrunning hplanned hmem rfl rfl hchain (haccounts.trans hcurrent) hends hidle

end Coupled

/-- Every attempt keeps its account. -/
theorem accounts_update (run : AttemptRun) (number : ℕ) {change : AttemptLedger → AttemptLedger}
    (hchange : ∀ ledger, (change ledger).accountId = ledger.accountId) :
    (run.update number change).attempts.map AttemptLedger.accountId = run.attempts.map AttemptLedger.accountId := by
  unfold update
  rw [List.map_map]
  refine List.map_congr_left fun ledger _ => ?_
  rw [Function.comp_apply]
  split
  · exact hchange ledger
  · rfl

/-- Starting and ending an attempt keep its account. -/
theorem accountId_onStarted (ledger : AttemptLedger) : ledger.onStarted.accountId = ledger.accountId := by
  unfold AttemptLedger.onStarted
  split <;> rfl

theorem accountId_endAttempt (ledger : AttemptLedger) : ledger.endAttempt.accountId = ledger.accountId := by
  unfold AttemptLedger.endAttempt
  split <;> rfl

/-- The lease is of no account. -/
theorem Coupled.setAbandon {ctx : ChainContext} {run : AttemptRun} (h : Coupled ctx run) (callback : LeaseCallback) :
    Coupled ctx (run.setAbandon callback) := by
  unfold AttemptRun.setAbandon
  split
  · exact h.still rfl rfl rfl
  · exact h

/-- A turn up to the dispatch. -/
theorem Coupled.turned {ctx : ChainContext} {run : AttemptRun} (h : Coupled ctx run) (hphase : run.phase = .looping)
    (probeAdmitted probeHeld : Bool) (body : BodyBuild) :
    Coupled ctx (run.turned ctx probeAdmitted probeHeld body) := by
  have hrunning : run.chain.result = none := by
    rw [← Option.not_isSome_iff_eq_none, h.decided, hphase]
    simp
  have hidle : ∀ number, run.phase ≠ .dispatching number := by simp [hphase]
  unfold AttemptRun.turned
  split
  · exact h.unsent hidle rfl rfl (.inl (by simp [left, finished, chainStep, hrunning]))
      (by simp [left, finished, chainStep, hrunning]) (by simp [left, finished])
  · cases hplanned : run.planned ctx with
    | none =>
      have hstop : (chainStep ctx run.chain { dispatched := .threw }).log = run.chain.log ∧
          (chainStep ctx run.chain { dispatched := .threw }).result.isSome = true := by
        unfold planned at hplanned
        split at hplanned
        · next hplan => simp [chainStep, hrunning, hplan]
        all_goals cases hplanned
      dsimp only
      exact h.unsent hidle rfl rfl (.inl hstop.1) (by simp [left, finished, hstop.2]) (by simp [left, finished])
    | some candidate =>
      have hstep (turn : Turn) := @chainStep_planned ctx run candidate turn hrunning hplanned
      dsimp only
      split
      · next hout =>
        have hleft : chainStep ctx run.chain { dispatched := .threw } =
            { run.chain with result := some .unplanned } := by
          rw [hstep _ rfl, admitTurn, if_pos hout]
        refine h.unsent hidle rfl rfl (.inl ?_) (by simp [left, finished, hleft]) (by simp [left, finished])
        simp only [left, finished, hleft]
      · next hin =>
        have hmem : candidate.account.id ∈ ctx.plan.map (fun planned => planned.account.id) := by simpa using hin
        split
        · next hrefused =>
          have hdropped : chainStep ctx run.chain { probeAdmitted := false, dispatched := .threw } =
              run.chain.dropped (planNextAttempt run.chain.ordered run.chain.progress run.chain.lastFailure
                ctx.failover)
                candidate .refused := by
            rw [hstep _ rfl, admitTurn, if_neg hin, if_pos (by simpa using (Bool.and_eq_true_iff.mp hrefused).1)]
          have hstays : (chainStep ctx run.chain { probeAdmitted := false, dispatched := .threw }).result = none := by
            rw [hdropped]
            exact hrunning
          exact h.unsent hidle rfl rfl (.inr ⟨_, candidate, congrArg ChainState.log hdropped⟩)
            (by simp [looped, hstays]) (by simp [looped])
        · have hconcluded := concluded_of_idle hidle
          unfold admitted
          cases body with
          | crashed =>
            exact h.sending hrunning hplanned hmem rfl rfl rfl (by simp [left, finished, opened, hconcluded]; rfl)
              (by simp [Turn.ends, left, finished]) (by simp [left, finished])
          | refused message =>
            exact h.sending hrunning hplanned hmem rfl rfl rfl (by simp [looped, opened, hconcluded]; rfl)
              (by simp [Turn.ends, looped]) (by simp [looped])
          | built =>
            dsimp only
            apply Coupled.setAbandon
            refine ⟨h.refines, ?_, ?_, ?_, fun number hnumber => ⟨candidate, hplanned, hmem, ?_⟩⟩
            · simp [opened, hrunning]
            · simpa [concluded, rows, opened, hphase] using h.sent
            · simpa [concluded, rows, opened, hphase] using h.logged
            · simp [concluded, opened, newLedger]

/-- What happens to a run keeps the loop and the attempts agreed. -/
theorem Coupled.step {ctx : ChainContext} {run : AttemptRun} (h : Coupled ctx run) (event : AttemptEvent) :
    Coupled ctx (run.step ctx event) := by
  cases event with
  | cancel =>
    simp only [AttemptRun.step, cancelled]
    split
    · next number hphase => exact h.settled hphase rfl rfl (accounts_update _ _ fun _ => rfl)
    · exact h.still rfl rfl rfl
  | stop =>
    simp only [AttemptRun.step, stopped]
    split
    · exact h
    · split
      · exact h.still rfl rfl rfl
      · exact h.still rfl rfl (accounts_update _ _ fun ledger => accountId_endAttempt _)
      · split
        · next number _ hphase => exact h.settled hphase rfl rfl (accounts_update _ _ fun _ => rfl)
        · exact h.still rfl rfl rfl
  | turn probeAdmitted probeHeld body =>
    simp only [AttemptRun.step]
    split
    · next hphase => exact h.turned hphase probeAdmitted probeHeld body
    · exact h
  | consume =>
    simp only [AttemptRun.step]
    split
    · exact h.still rfl rfl (accounts_update _ _ fun _ => rfl)
    · exact h
  | start =>
    simp only [AttemptRun.step]
    split
    · split
      · exact h
      · exact h.still rfl rfl (accounts_update _ _ accountId_onStarted)
    · exact h
  | resolve result =>
    simp only [AttemptRun.step]
    split
    · next number hphase =>
      have hended : Turn.ends { dispatched := .cancelled } = true ↔
          RunPhase.ended = .ended ∨ ∃ number, RunPhase.ended = .relaying number := by simp [Turn.ends]
      have hlooping {dispatched : Dispatched} (hgoes : Turn.ends { dispatched } = false) :
          Turn.ends { dispatched } = true ↔
            RunPhase.looping = .ended ∨ ∃ number, RunPhase.looping = .relaying number := by simp [hgoes]
      have hthrew := @accounts_update run number (fun ledger => ledger.endAttempt.releaseProbe) accountId_endAttempt
      have hover := @accounts_update run number (fun ledger => ledger.endAttempt.finish.releaseProbe)
        accountId_endAttempt
      have hclosed := @accounts_update run number (fun ledger => ledger.finish.endAttempt.releaseProbe)
        fun ledger => accountId_endAttempt ledger.finish
      unfold resolved
      split
      · exact h.resolving hphase .cancelled rfl rfl hended (by simp [left, finished])
      · cases result with
        | threw =>
          dsimp only
          split
          · exact h.resolving hphase .cancelled rfl hthrew hended (by simp [left, finished])
          · exact h.resolving hphase .threw rfl hthrew (hlooping rfl) (by simp [looped])
        | admissionRefused =>
          exact h.resolving hphase .admissionRefused rfl hover (hlooping rfl) (by simp [unstarted, looped])
        | failure failure answered =>
          dsimp only
          split
          · exact h.resolving hphase .cancelled rfl rfl hended (by simp [left, finished])
          · split
            · exact h.resolving hphase (.failure failure false) rfl hover (hlooping rfl) (by simp [unstarted, looped])
            · split
              · exact h.resolving hphase .cancelled rfl hclosed hended (by simp [cancelledBeforeRelay, left, finished])
              · exact h.resolving hphase (.failure failure true) rfl hclosed (hlooping rfl) (by simp [looped])
        | success =>
          have hbegun := accounts_update run number accountId_onStarted
          dsimp only
          split
          · refine h.resolving hphase .cancelled rfl (.trans ?_ hbegun) hended
              (by simp [cancelledBeforeRelay, left, finished])
            exact @accounts_update _ number (fun ledger => ledger.finish.endAttempt.releaseProbe)
              fun ledger => accountId_endAttempt ledger.finish
          · apply Coupled.setAbandon
            exact h.resolving hphase .success rfl hbegun (by simp [Turn.ends]) (by simp)
    · exact h
  | settle =>
    simp only [AttemptRun.step]
    split
    · next number hphase => exact h.settled hphase rfl rfl (accounts_update _ _ fun _ => rfl)
    · exact h

end AttemptRun

end MultiAiRouter.Dataplane
