import MultiAiRouter.Dataplane.ChainMoves
import MultiAiRouter.Dataplane.UsageRecords

/-!
# What a failed chain answers

Beside the loop the chain keeps the most actionable failure, whether a candidate was refused its permit or could not
be prepared, and the rows it wrote. When the candidates run out it answers with what it holds, unless a recovery
permit is worth waiting for: then it raises a refusal, and says whether the refusal's own row is still owed.
-/

namespace MultiAiRouter.Dataplane

open Common Routing

/-- What an attempt failed with: an error of the router, with the wait it names if it names one, or the
provider's own answer. -/
inductive ChainFailure
  | router (code : RouterErrorCode) (retryAfterSeconds : Option ℤ)
  | upstream (status : ℕ)
  deriving DecidableEq

/-- The rank of each router error among a chain's failures; the higher one is answered. -/
def RouterErrorCode.rank : RouterErrorCode → ℕ
  | .keyRevoked => 90
  | .keyVerificationUnavailable => 90
  | .scopeViolation => 90
  | .requestTooLarge => 90
  | .invalidRequest => 90
  | .unsupportedContentEncoding => 90
  | .adminAuthFailed => 90
  | .csrfTokenInvalid => 90
  | .modelNotFound => 90
  | .quotaExhausted => 70
  | .keyRateLimited => 70
  | .upstreamOverloaded => 65
  | .creditsExhausted => 60
  | .upstreamAuthFailed => 55
  | .upstreamTimeout => 50
  | .noHealthyAccount => 30
  | .translationFailed => 20
  | .credentialDecryptFailed => 10

namespace ChainFailure

/-- The provider's own words stand under a verdict of the router, over one account's refusal. -/
def rank : ChainFailure → ℕ
  | .router code _ => code.rank
  | .upstream _ => 40

/-- The HTTP status the failure is rendered with. -/
def status : ChainFailure → ℕ
  | .router code _ => code.status
  | .upstream status => status

/-- The wait the failure names. -/
def waitSeconds : ChainFailure → Option ℤ
  | .router _ retryAfterSeconds => retryAfterSeconds
  | .upstream _ => none

/-- Of two failures of one rank, the one that lets the caller come back sooner; else the first. -/
def sooner (held next : ChainFailure) : ChainFailure :=
  match held.waitSeconds, next.waitSeconds with
  | _, none => held
  | none, some _ => next
  | some heldWait, some nextWait => if nextWait < heldWait then next else held

end ChainFailure

/-- Fold one attempt's failure into what the chain is holding. -/
def foldChainFailure (held next : Option ChainFailure) : Option ChainFailure :=
  match held, next with
  | held, none => held
  | none, some next => some next
  | some held, some next =>
    if next.rank ≠ held.rank then some (if held.rank < next.rank then next else held)
    else some (held.sooner next)

/-- A refusal outranks nothing held, and a held 429. -/
def yieldsToRefusal : Option ChainFailure → Bool
  | none => true
  | some held => held.status == 429

/-- A turn of the loop, with what its failure contributes: the error a body was refused with, what a dispatch
raised, and what an attempt was answered. -/
structure AnsweredTurn extends Turn where
  bodyError : RouterErrorCode := .translationFailed
  thrown : Option ChainFailure := none
  answered : Option ChainFailure := none

/-- The loop, what the chain holds beside it, and the number of rows it wrote. -/
structure AnsweringChain where
  chain : ChainState
  held : Option ChainFailure := none
  refused : Bool := false
  preparationFailed : Bool := false
  rows : ℕ := 0

/-- How a chain ended: with a refusal that awaits a permit, with a row that says no candidate was prepared, or with
an answer or another error. -/
inductive ChainEnd
  | awaiting (owesRecord : Bool)
  | unprepared
  | closed
  deriving DecidableEq

/-- What became of the decision a turn logged, if it logged one. -/
def settledIn (before after : ChainState) : Option Settled :=
  if after.log.length = before.log.length then none else after.log.head?.map ChainEntry.settled

namespace AnsweringChain

/-- One turn of the loop. An attempt that failed and a request that was refused write a row each; a candidate that
was not attempted writes none. -/
def step (ctx : ChainContext) (state : AnsweringChain) (turn : AnsweredTurn) : AnsweringChain :=
  let chain := chainStep ctx state.chain turn.toTurn
  match settledIn state.chain chain with
  | some .refused => { state with chain, refused := true }
  | some .unprepared =>
    -- A dispatch that threw an error of the router holds it; one that ended unstarted holds nothing.
    let raised := match turn.dispatched with
      | .threw => turn.thrown
      | _ => none
    { state with chain, preparationFailed := true, held := foldChainFailure state.held raised }
  | some .invalid =>
    let code := match turn.body with
      | .refused _ => turn.bodyError
      | _ => .invalidRequest
    { state with chain, held := foldChainFailure state.held (some (.router code none)), rows := state.rows + 1 }
  | some (.failed _) =>
    { state with chain, held := foldChainFailure state.held turn.answered, rows := state.rows + 1 }
  | _ => { state with chain }

/-- A chain with no candidate left: a refusal is asked first, and one that awaits a permit owes its row
only when nothing was attempted. -/
def finishChain (state : AnsweringChain) : ChainEnd :=
  if !state.refused && !state.preparationFailed then .closed
  else if state.refused && yieldsToRefusal state.held then
    .awaiting (state.held.isNone && state.chain.lastFailure.isNone)
  else if state.held.isSome || state.chain.lastFailure.isSome then .closed
  else .unprepared

/-- How the chain ended with this turn. A client that went away is answered with what is held. -/
def endOf (state : AnsweringChain) (turn : AnsweredTurn) : Option ChainEnd :=
  match state.chain.result with
  | none => none
  | some (.stopped _) | some .unplanned => some state.finishChain
  | some .cancelled => some (if turn.aborted && state.held.isSome then state.finishChain else .closed)
  | some (.served ..) | some .threw => some .closed

end AnsweringChain

variable {ctx : ChainContext}

/-- A turn that folds a failure in remembers it, and no turn forgets one. -/
theorem chainStep_lastFailure (state : ChainState) (turn : Turn) :
    (state.lastFailure.isSome = true → (chainStep ctx state turn).lastFailure.isSome = true) ∧
      (settledIn state (chainStep ctx state turn) = some .invalid →
        (chainStep ctx state turn).lastFailure.isSome = true) ∧
      ∀ kind, settledIn state (chainStep ctx state turn) = some (.failed kind) →
        (chainStep ctx state turn).lastFailure.isSome = true := by
  by_cases hfinished : state.result.isSome
  · rw [chainStep_finished hfinished]
    simp [settledIn]
  · have hmove := @chainStep_move ctx state (by simpa using hfinished) turn
    generalize chainStep ctx state turn = next at hmove
    cases hmove with
    | halted result => simp [settledIn]
    | dropped decision candidate settled hplans hsettled =>
      rcases hsettled with rfl | rfl <;> simp [settledIn, ChainState.dropped, ChainState.logged]
    | invalidated decision candidate message hplans => simp [ChainState.invalidated]
    | failed decision candidate failure hplans hanswered => simp [ChainState.failedWith]
    | concluded decision candidate settled result progress hplans hsettled =>
      rcases hsettled with rfl | rfl <;> simp [settledIn, ChainState.over, ChainState.logged]

/-- A chain that wrote a row remembers a failure. -/
def AnsweringChain.RowsRemembered (state : AnsweringChain) : Prop :=
  state.rows ≠ 0 → state.chain.lastFailure.isSome = true

/-- A turn writes at most one row, and a chain that wrote one remembers a failure. -/
theorem AnsweringChain.RowsRemembered.step {state : AnsweringChain} (h : state.RowsRemembered)
    (turn : AnsweredTurn) : (state.step ctx turn).RowsRemembered ∧
      ((state.step ctx turn).rows = state.rows ∨ (state.step ctx turn).rows = state.rows + 1) := by
  obtain ⟨hkept, hinvalid, hfailed⟩ := @chainStep_lastFailure ctx state.chain turn.toTurn
  unfold AnsweringChain.step
  dsimp only
  split
  · exact ⟨fun hrows => hkept (h hrows), .inl rfl⟩
  · exact ⟨fun hrows => hkept (h hrows), .inl rfl⟩
  · next hsettled => exact ⟨fun _ => hinvalid hsettled, .inr rfl⟩
  · next kind hsettled => exact ⟨fun _ => hfailed kind hsettled, .inr rfl⟩
  · exact ⟨fun hrows => hkept (h hrows), .inl rfl⟩

/-- A refusal that owes its row comes from a chain that wrote none. -/
theorem AnsweringChain.RowsRemembered.owed {state : AnsweringChain} (h : state.RowsRemembered) {turn : AnsweredTurn}
    (howed : state.endOf turn = some (.awaiting true)) : state.rows = 0 := by
  have hfinish : state.finishChain = .awaiting true := by
    unfold AnsweringChain.endOf at howed
    split at howed
    · cases howed
    · exact Option.some.inj howed
    · exact Option.some.inj howed
    · split at howed
      · exact Option.some.inj howed
      · cases howed
    · cases howed
    · cases howed
  have hnone : state.chain.lastFailure.isNone = true := by
    unfold AnsweringChain.finishChain at hfinish
    split at hfinish
    · cases hfinish
    · split at hfinish
      · exact (Bool.and_eq_true_iff.mp (ChainEnd.awaiting.inj hfinish)).2
      · split at hfinish <;> cases hfinish
  by_contra hrows
  have hsome := h hrows
  rw [Option.isNone_iff_eq_none] at hnone
  rw [hnone] at hsome
  cases hsome

end MultiAiRouter.Dataplane
