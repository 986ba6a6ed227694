import MultiAiRouter.Dataplane.ChainAnswer
import MultiAiRouter.Routing.SelectSafety

/-!
# Rounds of one request

The dispatcher selects, plans and runs a chain, and goes round again while the router's own recovery hold is the
obstacle and the wait budget lasts. Every await is a step. The rows are kept in the order they were written: those
of its chains, and the accountless row of the dispatcher's own refusal.
-/

namespace MultiAiRouter.Dataplane

open Common Routing

section Wait

/-- A router-owned hold that may release before the deadline. -/
def isRouterHold (reason : FilterReason) (resetsAt : Option Instant) (resetSource : Option ResetSource)
    (deadline : Instant) : Bool :=
  decide (reason = .probeInFlight) && decide (resetSource = some .estimated) &&
    match resetsAt with
    | none => true
    | some resetsAt => decide (resetsAt ≤ deadline)

/-- Waiting until the deadline could turn the failed selection into a served request. A blocked binding
names the one account the request may use. -/
def awaitsRouterRecovery (decision : SelectionDecision) (deadline : Instant) : Bool :=
  match decision.binding with
  | .blocked _ reason resetsAt resetSource => isRouterHold reason.val resetsAt resetSource deadline
  | _ => decision.rejected.any fun entry => isRouterHold entry.reason entry.resetsAt entry.resetSource deadline

/-- The wait budget of a request, and when its first wait began. -/
structure RecoveryWaiter where
  budgetMs : ℤ := 0
  started : Option ℤ := none
  deriving DecidableEq

namespace RecoveryWaiter

/-- What is left of the budget. -/
def remaining (waiter : RecoveryWaiter) (elapsed : ℤ) : ℤ :=
  match waiter.started with
  | none => waiter.budgetMs
  | some started => max 0 (waiter.budgetMs - (elapsed - started))

/-- The instant the budget reaches. -/
def deadline (waiter : RecoveryWaiter) (now : Instant) (elapsed : ℤ) : Instant := now + waiter.remaining elapsed

/-- Begin to sleep within the budget; nothing once it is spent. -/
def pause (waiter : RecoveryWaiter) (elapsed : ℤ) : Option RecoveryWaiter :=
  if waiter.remaining elapsed ≤ 0 then none
  else some { waiter with started := some (waiter.started.getD elapsed) }

end RecoveryWaiter

end Wait

/-- A chain, the router's own token estimate, or the refusal of a request no candidate can serve. -/
inductive ServePlan
  | servable (ctx : ChainContext)
  | estimate
  | refusal

/-- A row of the request: one its chain wrote, or the dispatcher's accountless refusal. -/
inductive RequestRow
  | chain
  | refusal
  deriving DecidableEq

/-- About to select, asleep between selections, in a chain, asleep after a chain that was refused its
permit, or answered. -/
inductive ServePhase
  | selecting
  | holding
  | chaining (ctx : ChainContext) (chain : AnsweringChain)
  | retrying
  | closed

/-- One request: its phase, its wait budget, whether some chain's refusal said that attempts wrote its
rows, and its rows, the last one first. -/
structure ServeState where
  phase : ServePhase := .selecting
  waiter : RecoveryWaiter
  attempted : Bool := false
  rows : List RequestRow := []

/-- What a request awaits, with the clock readings taken then. -/
inductive ServeEvent
  | select (selection : SelectionResult) (plan : ServePlan) (now : Instant) (elapsed pausedAt : ℤ)
  | turn (turn : AnsweredTurn) (elapsed : ℤ)
  | slept (woke : Bool)

namespace ServeState

/-- The dispatcher writes the refusal's accountless row and raises. -/
def fail (state : ServeState) : ServeState := { state with phase := .closed, rows := .refusal :: state.rows }

/-- Re-select while the only obstacle is a router-owned hold the budget can outlast; else plan. -/
def select (state : ServeState) (selection : SelectionResult) (plan : ServePlan) (now : Instant)
    (elapsed pausedAt : ℤ) : ServeState :=
  match selection with
  | .success _ _ =>
    match plan with
    | .servable ctx => { state with phase := .chaining ctx { chain := ctx.start } }
    | .estimate => { state with phase := .closed }
    | .refusal => state.fail
  | .failure _ decision =>
    if awaitsRouterRecovery decision (state.waiter.deadline now elapsed) then
      match state.waiter.pause pausedAt with
      | some waiter => { state with phase := .holding, waiter }
      | none => state.fail
    else state.fail

/-- A chain ended. A refusal that only awaits a permit is retried while the budget lasts; else its row is written
when no attempt wrote one. -/
def chainEnded (state : ServeState) (ended : ChainEnd) (elapsed : ℤ) : ServeState :=
  match ended with
  | .closed => { state with phase := .closed }
  | .unprepared => { state with phase := .closed, rows := .chain :: state.rows }
  | .awaiting owesRecord =>
    let noted := { state with attempted := state.attempted || !owesRecord }
    match state.waiter.pause elapsed with
    | some waiter => { noted with phase := .retrying, waiter }
    | none => if noted.attempted then { noted with phase := .closed } else noted.fail

/-- One step of the request. -/
def step (state : ServeState) (event : ServeEvent) : ServeState :=
  match state.phase, event with
  | .selecting, .select selection plan now elapsed pausedAt => state.select selection plan now elapsed pausedAt
  | .chaining ctx chain, .turn turn elapsed =>
    let after := chain.step ctx turn
    let written := { state with
      phase := .chaining ctx after
      rows := List.replicate (after.rows - chain.rows) .chain ++ state.rows }
    match after.endOf turn with
    | none => written
    | some ended => written.chainEnded ended elapsed
  | .holding, .slept woke | .retrying, .slept woke =>
    -- A sleep ends the request when the client goes away.
    { state with phase := if woke then .selecting else .closed }
  | _, _ => state

/-- The dispatcher wrote at most one refusal row, and no chain had written a row before it. -/
def OneRefusal (state : ServeState) : Prop :=
  state.rows.count .refusal ≤ 1 ∧
    EveryEntry (fun row earlier => row = RequestRow.refusal → RequestRow.chain ∉ earlier) state.rows

instance (state : ServeState) : Decidable state.OneRefusal :=
  inferInstanceAs (Decidable
    (_ ∧ EveryEntry (fun row earlier => row = RequestRow.refusal → RequestRow.chain ∉ earlier) _))

/-- The selection is given up: it failed for good or the budget is spent, or no candidate can be planned. -/
def givesUp (state : ServeState) : ServeEvent → Bool
  | .select (.success _ _) .refusal _ _ _ => true
  | .select (.failure _ decision) _ now elapsed pausedAt =>
    !awaitsRouterRecovery decision (state.waiter.deadline now elapsed) || (state.waiter.pause pausedAt).isNone
  | _ => false

/-- A selection is given up only while no chain of the request has written a row. -/
def GivesUpClean (state : ServeState) (event : ServeEvent) : Prop :=
  state.phase = .selecting → state.givesUp event = true → RequestRow.chain ∉ state.rows

/-- Until the request is over it wrote no refusal, and `attempted` knows of the rows of every chain that ended. -/
def Sound (state : ServeState) : Prop :=
  match state.phase with
  | .closed => True
  | .chaining _ chain => RequestRow.refusal ∉ state.rows ∧ chain.RowsRemembered ∧
      (RequestRow.chain ∈ state.rows → state.attempted = true ∨ chain.rows ≠ 0)
  | .selecting | .holding | .retrying => RequestRow.refusal ∉ state.rows ∧
      (RequestRow.chain ∈ state.rows → state.attempted = true)

variable {state : ServeState}

/-- Rows of a chain written after rows that are as they should be. -/
theorem OneRefusal.chainRows (h : state.OneRefusal) (phase : ServePhase) (count : ℕ) :
    OneRefusal { state with phase, rows := List.replicate count .chain ++ state.rows } := by
  obtain ⟨hcount, hentries⟩ := h
  refine ⟨?_, ?_⟩
  · simpa [List.count_append, List.count_replicate] using hcount
  · induction count with
    | zero => exact hentries
    | succ count ih => exact ⟨nofun, ih⟩

/-- A refusal written first keeps the rows as they should be. -/
theorem OneRefusal.fail (h : state.OneRefusal) (hrefusal : RequestRow.refusal ∉ state.rows)
    (hchain : RequestRow.chain ∉ state.rows) : state.fail.OneRefusal := by
  refine ⟨?_, fun _ => hchain, h.2⟩
  rw [ServeState.fail, List.count_cons_self, List.count_eq_zero_of_not_mem hrefusal]

/-- A selection keeps the rows, or gives up. -/
theorem select_cases (selection : SelectionResult) (plan : ServePlan) (now : Instant) (elapsed pausedAt : ℤ) :
    (state.givesUp (.select selection plan now elapsed pausedAt) = true ∧
        state.select selection plan now elapsed pausedAt = state.fail) ∨
      (state.givesUp (.select selection plan now elapsed pausedAt) = false ∧
        ((∃ ctx, state.select selection plan now elapsed pausedAt =
            { state with phase := .chaining ctx { chain := ctx.start } }) ∨
          state.select selection plan now elapsed pausedAt = { state with phase := .closed } ∨
          ∃ waiter, state.select selection plan now elapsed pausedAt =
            { state with phase := .holding, waiter })) := by
  cases selection with
  | success candidates decision =>
    cases plan with
    | servable ctx => exact .inr ⟨rfl, .inl ⟨ctx, rfl⟩⟩
    | estimate => exact .inr ⟨rfl, .inr (.inl rfl)⟩
    | refusal => exact .inl ⟨rfl, rfl⟩
  | failure error decision =>
    simp only [givesUp, select]
    cases awaitsRouterRecovery decision (state.waiter.deadline now elapsed) with
    | false => exact .inl ⟨rfl, rfl⟩
    | true =>
      cases state.waiter.pause pausedAt with
      | none => exact .inl ⟨rfl, rfl⟩
      | some waiter => exact .inr ⟨rfl, .inr (.inr ⟨waiter, rfl⟩)⟩

/-- The end of a chain keeps the request sound, and writes a refusal only where no chain wrote a row. -/
theorem chainEnded_sound (ended : ChainEnd) (elapsed : ℤ) (hrows : state.OneRefusal)
    (hrefusal : RequestRow.refusal ∉ state.rows) {count : ℕ}
    (hchain : RequestRow.chain ∈ state.rows → state.attempted = true ∨ count ≠ 0)
    (howed : ended = .awaiting true → count = 0) :
    (state.chainEnded ended elapsed).Sound ∧ (state.chainEnded ended elapsed).OneRefusal := by
  cases ended with
  | closed => exact ⟨trivial, hrows⟩
  | unprepared => exact ⟨trivial, hrows.chainRows .closed 1⟩
  | awaiting owesRecord =>
    -- A row was written by an attempt of this chain, which then owes nothing, or of an earlier one.
    have hnoted : RequestRow.chain ∈ state.rows → (state.attempted || !owesRecord) = true := by
      intro hmem
      rcases hchain hmem with hattempted | hcount
      · rw [hattempted, Bool.true_or]
      · cases owesRecord with
        | false => exact Bool.or_true _
        | true => exact absurd (howed rfl) hcount
    simp only [chainEnded]
    split
    · exact ⟨⟨hrefusal, hnoted⟩, hrows⟩
    · split
      · exact ⟨trivial, hrows⟩
      · next hclean =>
        refine ⟨trivial, OneRefusal.fail hrows hrefusal fun hmem => ?_⟩
        exact hclean (hnoted hmem)

/-- A turn of the chain keeps the request sound. -/
theorem turn_sound {ctx : ChainContext} {chain : AnsweringChain} (hphase : state.phase = .chaining ctx chain)
    (hsound : state.Sound) (hrows : state.OneRefusal) (turn : AnsweredTurn) (elapsed : ℤ) :
    (state.step (.turn turn elapsed)).Sound ∧ (state.step (.turn turn elapsed)).OneRefusal := by
  simp only [Sound, hphase] at hsound
  obtain ⟨hrefusal, hremembered, hchain⟩ := hsound
  obtain ⟨hafter, hcount⟩ := @AnsweringChain.RowsRemembered.step ctx chain hremembered turn
  have hwritten : OneRefusal { state with
      phase := .chaining ctx (chain.step ctx turn)
      rows := List.replicate ((chain.step ctx turn).rows - chain.rows) .chain ++ state.rows } :=
    hrows.chainRows _ _
  have hclean : RequestRow.refusal ∉
      List.replicate ((chain.step ctx turn).rows - chain.rows) RequestRow.chain ++ state.rows := by
    simp [hrefusal]
  have hknown : RequestRow.chain ∈
      List.replicate ((chain.step ctx turn).rows - chain.rows) RequestRow.chain ++ state.rows →
        state.attempted = true ∨ (chain.step ctx turn).rows ≠ 0 := by
    intro hmem
    rcases List.mem_append.mp hmem with hnew | hold
    · have hmore := (List.mem_replicate.mp hnew).1
      exact .inr (by omega)
    · refine (hchain hold).imp id fun hbefore => ?_
      omega
  simp only [step, hphase]
  split
  · exact ⟨⟨hclean, hafter, hknown⟩, hwritten⟩
  · next ended hended =>
    refine chainEnded_sound ended elapsed hwritten hclean hknown fun howed => ?_
    exact hafter.owed (howed ▸ hended)

/-- A step keeps the request sound. -/
theorem step_sound (hsound : state.Sound) (hrows : state.OneRefusal) (event : ServeEvent) :
    (state.step event).Sound := by
  cases hphase : state.phase with
  | selecting =>
    have hselecting := hsound
    simp only [Sound, hphase] at hselecting
    cases event with
    | select selection plan now elapsed pausedAt =>
      simp only [step, hphase]
      rcases @select_cases state selection plan now elapsed pausedAt with
        ⟨-, hselect⟩ | ⟨-, ⟨ctx, hselect⟩ | hselect | ⟨waiter, hselect⟩⟩
      · rw [hselect]
        trivial
      · rw [hselect]
        exact ⟨hselecting.1, nofun, fun hmem => .inl (hselecting.2 hmem)⟩
      · rw [hselect]
        trivial
      · rw [hselect]
        exact hselecting
    | turn | slept => simpa only [step, hphase] using hsound
  | holding =>
    have hholding := hsound
    simp only [Sound, hphase] at hholding
    cases event with
    | slept woke =>
      simp only [step, hphase]
      cases woke with
      | true => exact hholding
      | false => trivial
    | select | turn => simpa only [step, hphase] using hsound
  | retrying =>
    have hretrying := hsound
    simp only [Sound, hphase] at hretrying
    cases event with
    | slept woke =>
      simp only [step, hphase]
      cases woke with
      | true => exact hretrying
      | false => trivial
    | select | turn => simpa only [step, hphase] using hsound
  | chaining ctx chain =>
    cases event with
    | turn turn elapsed => exact (turn_sound hphase hsound hrows turn elapsed).1
    | select | slept => simpa only [step, hphase] using hsound
  | closed => cases event <;> simpa only [step, hphase] using hsound

/-- A step writes a refusal row only where it may, exactly when a selection is not given up after a chain
wrote a row. -/
theorem oneRefusal_step_iff (hsound : state.Sound) (hrows : state.OneRefusal) (event : ServeEvent) :
    (state.step event).OneRefusal ↔ state.GivesUpClean event := by
  by_cases hselects : ∃ selection plan now elapsed pausedAt,
      event = .select selection plan now elapsed pausedAt ∧ state.phase = .selecting
  · obtain ⟨selection, plan, now, elapsed, pausedAt, rfl, hphase⟩ := hselects
    simp only [Sound, hphase] at hsound
    simp only [step, hphase]
    rcases @select_cases state selection plan now elapsed pausedAt with
      ⟨hgives, hselect⟩ | ⟨hgoes, hselect⟩
    · rw [hselect]
      refine ⟨fun h _ _ => h.2.1 rfl, fun h => ?_⟩
      exact hrows.fail hsound.1 (h hphase hgives)
    · refine ⟨fun _ _ hgives => ?_, fun _ => ?_⟩
      · rw [hgoes] at hgives
        cases hgives
      · rcases hselect with ⟨ctx, hselect⟩ | hselect | ⟨waiter, hselect⟩
        all_goals
          rw [hselect]
          exact hrows
  · refine ⟨fun _ hphase hgives => ?_, fun _ => ?_⟩
    · cases event with
      | select selection plan now elapsed pausedAt =>
        exact absurd ⟨selection, plan, now, elapsed, pausedAt, rfl, hphase⟩ hselects
      | turn | slept => cases hgives
    · cases hphase : state.phase with
      | chaining ctx chain =>
        cases event with
        | turn turn elapsed => exact (turn_sound hphase hsound hrows turn elapsed).2
        | select | slept => simpa only [step, hphase] using hrows
      | selecting =>
        cases event with
        | select selection plan now elapsed pausedAt =>
          exact absurd ⟨selection, plan, now, elapsed, pausedAt, rfl, hphase⟩ hselects
        | turn | slept => simpa only [step, hphase] using hrows
      | holding | retrying | closed =>
        cases event <;> simp only [step, hphase] <;> exact hrows

/-- Along every run of a request: the dispatcher writes at most one accountless refusal row and no
chain wrote a row before it, exactly when no selection is given up after a chain of the request wrote a
row. -/
theorem run_oneRefusal_iff (budgetMs : ℤ) (events : List ServeEvent) :
    EveryStep step (fun state event => (state.step event).OneRefusal) { waiter := { budgetMs } } events ↔
      EveryStep step GivesUpClean { waiter := { budgetMs } } events := by
  refine everyStep_congr (fun state => state.Sound ∧ state.OneRefusal) ?_ ?_ events _ ⟨⟨nofun, nofun⟩, by simp, trivial⟩
  · rintro state event ⟨hsound, hrows⟩
    exact oneRefusal_step_iff hsound hrows event
  · rintro state event ⟨hsound, hrows⟩ hafter
    exact ⟨step_sound hsound hrows event, hafter⟩

/-- One account answers 429; the request waits for the other's probe, and by the next selection that
account cools down too. -/
theorem run_refusal_after_attempt :
    let first : Candidate :=
      { account := { id := "first" }, poolId := none, weight := 100, priority := 0, order := 0
        upstreamModel := "model", halfOpen := false }
    let second : Candidate :=
      { account := { id := "second" }, poolId := none, weight := 100, priority := 0, order := 1
        upstreamModel := "model", halfOpen := true }
    let decision (rejected : List RejectedCandidate) : SelectionDecision :=
      { scope := { scope := .all, inScopeAccountIds := ["first", "second"], unresolvedTargetIds := [] }
        groups := [], rejected, binding := .none, usedOverflow := false }
    let cooling (accountId : String) : RejectedCandidate :=
      { accountId, label := "", reason := .coolingDown, resetsAt := some 3600000
        resetSource := some .providerReported }
    ¬ EveryStep step (fun state event => (state.step event).OneRefusal) { waiter := { budgetMs := 5000 } }
        [.select (.success [first, second] (decision [])) (.servable { plan := [first, second] }) 0 0 0,
          .turn { dispatched := .failure { kind := .rateLimited } true
                  answered := some (.router .quotaExhausted (some 3600)) } 1,
          .turn { probeAdmitted := false, dispatched := .cancelled } 2,
          .turn { dispatched := .cancelled } 3, .slept true,
          .select (.failure (.quotaExhausted "every account is cooling down" (some 3600000) 3600 {})
            (decision [cooling "first", cooling "second"])) .refusal 250 250 250] := by
  decide +kernel

/-- The request sleeps until the router's own hold may be over. -/
def asleep (state : ServeState) : Bool :=
  match state.phase with
  | .holding | .retrying => true
  | _ => false

/-- The clock as it is read before the request sleeps. -/
def pausedAt : ServeEvent → Option ℤ
  | .select _ _ _ _ pausedAt => some pausedAt
  | .turn _ elapsed => some elapsed
  | .slept _ => none

/-- The instant of the first sleep stays, and a request that falls asleep does so within the budget from it on. -/
def SleepsWithin (budgetMs : ℤ) (state : ServeState) (event : ServeEvent) : Prop :=
  (∀ first ∈ state.waiter.started, (state.step event).waiter.started = some first) ∧
    ((state.step event).asleep = true → state.asleep = true ∨ ∃ first now,
      (state.step event).waiter.started = some first ∧ pausedAt event = some now ∧ now - first < budgetMs ∧
        (state.waiter.started = none → now = first))

/-- A step leaves the budget and does not fall asleep, or draws on the budget. -/
theorem step_waiter (event : ServeEvent) :
    ((state.step event).waiter = state.waiter ∧ ((state.step event).asleep = true → state.asleep = true)) ∨
      ∃ now, pausedAt event = some now ∧ state.waiter.pause now = some (state.step event).waiter := by
  unfold step
  split
  · next selection plan now elapsed at_ hphase =>
    unfold select
    split
    · split <;> exact .inl ⟨rfl, nofun⟩
    · split
      · split
        · next hpause => exact .inr ⟨_, rfl, hpause⟩
        · exact .inl ⟨rfl, nofun⟩
      · exact .inl ⟨rfl, nofun⟩
  · next ctx chain turn elapsed hphase =>
    dsimp only
    split
    · exact .inl ⟨rfl, nofun⟩
    · unfold chainEnded
      split
      · exact .inl ⟨rfl, nofun⟩
      · exact .inl ⟨rfl, nofun⟩
      · dsimp only
        split
        · next hpause => exact .inr ⟨_, rfl, hpause⟩
        · split <;> exact .inl ⟨rfl, nofun⟩
  · next woke hphase => cases woke <;> exact .inl ⟨rfl, nofun⟩
  · next woke hphase => cases woke <;> exact .inl ⟨rfl, nofun⟩
  · exact .inl ⟨rfl, id⟩

/-- Over every run of a request, through any number of selections and chains: it falls asleep only within its budget,
counted from the instant of its first sleep. -/
theorem sleeps_within_budget (budgetMs : ℤ) (events : List ServeEvent) :
    EveryStep step (SleepsWithin budgetMs) { waiter := { budgetMs } } events := by
  refine everyStep_of_invariant (fun state : ServeState => state.waiter.budgetMs = budgetMs) ?_ ?_ events _ rfl
  · intro state event hbudget
    rcases @step_waiter state event with ⟨hsame, -⟩ | ⟨now, -, hpause⟩
    · rw [hsame, hbudget]
    · unfold RecoveryWaiter.pause at hpause
      split at hpause
      · cases hpause
      · rw [← Option.some.inj hpause, hbudget]
  · intro state event hbudget
    unfold SleepsWithin
    rcases @step_waiter state event with ⟨hsame, hawake⟩ | ⟨now, hnow, hpause⟩
    · rw [hsame]
      exact ⟨fun first hfirst => hfirst, fun hasleep => .inl (hawake hasleep)⟩
    · unfold RecoveryWaiter.pause at hpause
      split at hpause
      · cases hpause
      · next hleft =>
        rw [← Option.some.inj hpause]
        unfold RecoveryWaiter.remaining at hleft
        cases hstarted : state.waiter.started with
        | none =>
          rw [hstarted] at hleft
          dsimp only at hleft
          exact ⟨nofun, fun _ => .inr ⟨now, now, rfl, hnow, by omega, fun _ => rfl⟩⟩
        | some first =>
          rw [hstarted] at hleft
          dsimp only at hleft
          exact ⟨fun held hheld => hheld, fun _ => .inr ⟨first, now, rfl, hnow, by omega, nofun⟩⟩

end ServeState

end MultiAiRouter.Dataplane
