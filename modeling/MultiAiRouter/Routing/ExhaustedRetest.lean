import Mathlib.Algebra.Ring.Nat
import Mathlib.Data.Int.Notation
import Mathlib.Data.Nat.Notation

/-!
# The re-tests of an exhausted account

An exhausted account is re-tested after a first wait and then on a clock that doubles with each re-test, up to the
longest wait. One that reads healthy after a re-test keeps its watch until it has served the longest wait.
-/

namespace MultiAiRouter.Routing

/-- The waits, in milliseconds. -/
structure ExhaustedRetestSchedule where
  firstMs : ℕ
  maxMs : ℕ

structure ExhaustedWatch where
  retests : ℕ
  dueAt : ℤ
  lastRetestAt : Option ℤ
  deriving DecidableEq

structure ExhaustedStep where
  watch : Option ExhaustedWatch
  retest : Bool
  deriving DecidableEq

/-- The wait after some re-tests. -/
def retestWait (retests : ℕ) (schedule : ExhaustedRetestSchedule) : ℕ :=
  min (schedule.firstMs * 2 ^ retests) schedule.maxMs

/-- One look at one account. -/
def stepExhaustedWatch (watch : Option ExhaustedWatch) (exhausted : Bool) (nowMs : ℤ)
    (schedule : ExhaustedRetestSchedule) : ExhaustedStep :=
  if exhausted = false then
    let probation := (watch.bind ExhaustedWatch.lastRetestAt).any fun last => nowMs - last < schedule.maxMs
    { watch := if probation then watch else none, retest := false }
  else
    match watch with
    | none =>
        { watch := some { retests := 0, dueAt := nowMs + retestWait 0 schedule, lastRetestAt := none },
          retest := false }
    | some held =>
      if nowMs < held.dueAt then { watch := some held, retest := false }
      else
        let retests := held.retests + 1
        { watch := some { retests, dueAt := nowMs + retestWait retests schedule, lastRetestAt := some nowMs }
          retest := true }

/-- A look at the account, and what came of it. -/
structure Looked where
  exhausted : Bool
  nowMs : ℤ
  step : ExhaustedStep
  deriving DecidableEq

/-- The watch that some looks leave, the last look first. -/
def watchAfter (looks : List Looked) : Option ExhaustedWatch := looks.head?.bind fun look => look.step.watch

/-- Look once more. -/
def look (schedule : ExhaustedRetestSchedule) (looks : List Looked) (exhausted : Bool) (nowMs : ℤ) : Looked where
  exhausted := exhausted
  nowMs := nowMs
  step := stepExhaustedWatch (watchAfter looks) exhausted nowMs schedule

/-- A sequence of looks from no watch, the last look first. -/
def lookAll (schedule : ExhaustedRetestSchedule) (readings : List (Bool × ℤ)) : List Looked :=
  readings.foldl (fun looks reading => look schedule looks reading.1 reading.2 :: looks) []

/-- The looks of the watch in progress. -/
def inWatch (looks : List Looked) : List Looked := looks.takeWhile fun look => look.step.watch.isSome

/-- The re-tests of the watch in progress. -/
def spent (looks : List Looked) : ℕ := (inWatch looks).countP fun look => look.step.retest

/-- The last re-test of the watch in progress. -/
def lastRetest (looks : List Looked) : Option Looked := (inWatch looks).find? fun look => look.step.retest

/-- The watch knows the re-tests it has spent, and is due the wait after the last of them. -/
structure Knows (schedule : ExhaustedRetestSchedule) (looks : List Looked) (watch : ExhaustedWatch) : Prop where
  retests : watch.retests = spent looks
  lastRetestAt : watch.lastRetestAt = (lastRetest looks).map Looked.nowMs
  dueAt : ∀ last ∈ lastRetest looks, watch.dueAt = last.nowMs + retestWait (spent looks) schedule

variable {schedule : ExhaustedRetestSchedule} {looks : List Looked}

/-- What a look may do: leave the watch as it is, drop it, begin one, or spend a re-test that is due. -/
theorem stepExhaustedWatch_cases (watch : Option ExhaustedWatch) (exhausted : Bool) (nowMs : ℤ)
    (schedule : ExhaustedRetestSchedule) :
    (∃ held, watch = some held ∧ stepExhaustedWatch watch exhausted nowMs schedule = ⟨some held, false⟩) ∨
    (exhausted = false ∧ stepExhaustedWatch watch exhausted nowMs schedule = ⟨none, false⟩ ∧
      ∀ held ∈ watch, ∀ last ∈ held.lastRetestAt, last + schedule.maxMs ≤ nowMs) ∨
    (watch = none ∧ stepExhaustedWatch watch exhausted nowMs schedule =
      ⟨some { retests := 0, dueAt := nowMs + retestWait 0 schedule, lastRetestAt := none }, false⟩) ∨
    ∃ held, exhausted = true ∧ watch = some held ∧ held.dueAt ≤ nowMs ∧
      stepExhaustedWatch watch exhausted nowMs schedule =
        ⟨some { retests := held.retests + 1, dueAt := nowMs + retestWait (held.retests + 1) schedule,
                lastRetestAt := some nowMs }, true⟩ := by
  cases exhausted with
  | false =>
    cases hprobation : (watch.bind ExhaustedWatch.lastRetestAt).any fun last => nowMs - last < schedule.maxMs with
    | true =>
      refine .inl ?_
      cases watch with
      | none => cases hprobation
      | some held => exact ⟨held, rfl, by simp only [stepExhaustedWatch, hprobation, if_true]⟩
    | false =>
      refine .inr (.inl ⟨rfl, by simp [stepExhaustedWatch, hprobation], fun held hheld last hlast => ?_⟩)
      rw [hheld, Option.bind_some, hlast, Option.any_some, decide_eq_false_iff_not] at hprobation
      omega
  | true =>
    cases watch with
    | none => exact .inr (.inr (.inl ⟨rfl, rfl⟩))
    | some held =>
      by_cases hdue : nowMs < held.dueAt
      · exact .inl ⟨held, rfl, by simp [stepExhaustedWatch, hdue]⟩
      · exact .inr (.inr (.inr ⟨held, rfl, rfl, Int.not_lt.mp hdue, by simp [stepExhaustedWatch, hdue]⟩))

/-- Where no watch is left, none is in progress. -/
theorem inWatch_of_none (h : watchAfter looks = none) : inWatch looks = [] := by
  cases looks with
  | nil => rfl
  | cons last rest =>
    have hnone : last.step.watch = none := h
    rw [inWatch, List.takeWhile_cons, hnone]
    rfl

/-- A look that is no re-test tells the watch nothing new. -/
theorem knows_cons {watch : ExhaustedWatch} {next : Looked} (h : Knows schedule looks watch)
    (hwatch : next.step.watch = some watch) (hretest : next.step.retest = false) :
    Knows schedule (next :: looks) watch := by
  have hin : inWatch (next :: looks) = next :: inWatch looks := by
    rw [inWatch, List.takeWhile_cons, hwatch]
    rfl
  have hspent : spent (next :: looks) = spent looks := by
    rw [spent, hin, List.countP_cons, hretest]
    rfl
  have hlast : lastRetest (next :: looks) = lastRetest looks := by
    rw [lastRetest, hin, List.find?_cons, hretest]
    rfl
  refine ⟨?_, ?_, ?_⟩
  · rw [hspent]
    exact h.retests
  · rw [hlast]
    exact h.lastRetestAt
  · rw [hlast, hspent]
    exact h.dueAt

/-- What a watch knows stays true at the next look. -/
theorem knows_look (h : ∀ watch ∈ watchAfter looks, Knows schedule looks watch) (exhausted : Bool) (nowMs : ℤ)
    {watch : ExhaustedWatch} (hwatch : (look schedule looks exhausted nowMs).step.watch = some watch) :
    Knows schedule (look schedule looks exhausted nowMs :: looks) watch := by
  have hin : inWatch (look schedule looks exhausted nowMs :: looks) =
      look schedule looks exhausted nowMs :: inWatch looks := by
    rw [inWatch, List.takeWhile_cons, hwatch]
    rfl
  rcases stepExhaustedWatch_cases (watchAfter looks) exhausted nowMs schedule with
    ⟨held, hheld, hstep⟩ | ⟨-, hstep, -⟩ | ⟨hnone, hstep⟩ | ⟨held, -, hheld, -, hstep⟩
  · have hsame : held = watch := Option.some.inj ((congrArg ExhaustedStep.watch hstep).symm.trans hwatch)
    exact knows_cons (hsame ▸ h held hheld) hwatch (congrArg ExhaustedStep.retest hstep)
  · cases (congrArg ExhaustedStep.watch hstep).symm.trans hwatch
  · have hretest : (look schedule looks exhausted nowMs).step.retest = false := congrArg ExhaustedStep.retest hstep
    have hbegun := Option.some.inj ((congrArg ExhaustedStep.watch hstep).symm.trans hwatch)
    have hlast : lastRetest (look schedule looks exhausted nowMs :: looks) = none := by
      rw [lastRetest, hin, inWatch_of_none hnone, List.find?_cons, hretest]
      rfl
    rw [← hbegun]
    refine ⟨?_, by rw [hlast]; rfl, by simp [hlast]⟩
    rw [spent, hin, inWatch_of_none hnone, List.countP_cons, hretest]
    rfl
  · have hretest : (look schedule looks exhausted nowMs).step.retest = true := congrArg ExhaustedStep.retest hstep
    have hspent : spent (look schedule looks exhausted nowMs :: looks) = held.retests + 1 := by
      rw [spent, hin, List.countP_cons, hretest, (h held hheld).retests]
      rfl
    have hlast : lastRetest (look schedule looks exhausted nowMs :: looks) =
        some (look schedule looks exhausted nowMs) := by
      rw [lastRetest, hin, List.find?_cons, hretest]
    rw [← Option.some.inj ((congrArg ExhaustedStep.watch hstep).symm.trans hwatch)]
    refine ⟨hspent.symm, by rw [hlast]; rfl, fun last hmem => ?_⟩
    rw [hlast, Option.mem_some_iff] at hmem
    rw [← hmem, hspent]
    rfl

/-- A watch knows the re-tests it has spent, whatever the looks. -/
theorem knows_lookAll (readings : List (Bool × ℤ)) :
    ∀ watch ∈ watchAfter (lookAll schedule readings), Knows schedule (lookAll schedule readings) watch := by
  have hrun (before : List Looked) (h : ∀ watch ∈ watchAfter before, Knows schedule before watch) :
      ∀ watch ∈ watchAfter (readings.foldl
        (fun looks reading => look schedule looks reading.1 reading.2 :: looks) before),
        Knows schedule (readings.foldl (fun looks reading => look schedule looks reading.1 reading.2 :: looks)
          before) watch := by
    induction readings generalizing before with
    | nil => exact h
    | cons reading rest ih => exact ih _ fun watch hwatch => knows_look h reading.1 reading.2 hwatch
  exact hrun [] nofun

/-- A re-test takes a look that sees the account exhausted, at least the wait for the re-tests already spent after
the last one of its watch; and a watch is dropped only by a healthy look, before any of its re-tests or at least
the longest wait after the last one. -/
theorem retests_spaced (schedule : ExhaustedRetestSchedule) (readings : List (Bool × ℤ)) (exhausted : Bool)
    (nowMs : ℤ) :
    ∃ looks next, lookAll schedule readings = looks ∧
      lookAll schedule (readings ++ [(exhausted, nowMs)]) = next :: looks ∧
      next.step = stepExhaustedWatch (watchAfter looks) exhausted nowMs schedule ∧
      (next.step.retest = true → exhausted = true ∧ ∀ last ∈ lastRetest looks,
        last.nowMs + min (schedule.firstMs * 2 ^ spent looks : ℕ) schedule.maxMs ≤ nowMs) ∧
      (watchAfter looks ≠ none → next.step.watch = none →
        exhausted = false ∧ ∀ last ∈ lastRetest looks, last.nowMs + schedule.maxMs ≤ nowMs) := by
  refine ⟨_, look schedule (lookAll schedule readings) exhausted nowMs, rfl, List.foldl_append, rfl, ?_⟩
  have hknows := @knows_lookAll schedule readings
  generalize lookAll schedule readings = looks at hknows
  rcases stepExhaustedWatch_cases (watchAfter looks) exhausted nowMs schedule with
    ⟨held, -, hstep⟩ | ⟨hhealthy, hstep, hserved⟩ | ⟨hnone, hstep⟩ | ⟨held, hexhausted, hheld, hdue, hstep⟩
  · refine ⟨fun hretest => ?_, fun _ hgone => ?_⟩
    · cases (congrArg ExhaustedStep.retest hstep).symm.trans hretest
    · cases (congrArg ExhaustedStep.watch hstep).symm.trans hgone
  · refine ⟨fun hretest => ?_, fun hsome _ => ⟨hhealthy, fun last hlast => ?_⟩⟩
    · cases (congrArg ExhaustedStep.retest hstep).symm.trans hretest
    · obtain ⟨held, hheld⟩ := Option.ne_none_iff_exists'.mp hsome
      refine hserved held hheld last.nowMs ?_
      rw [(hknows held hheld).lastRetestAt, hlast]
      rfl
  · refine ⟨fun hretest => ?_, fun hsome => absurd hnone hsome⟩
    cases (congrArg ExhaustedStep.retest hstep).symm.trans hretest
  · refine ⟨fun _ => ⟨hexhausted, fun last hlast => ?_⟩, fun _ hgone => ?_⟩
    · have hwait := (hknows held hheld).dueAt last hlast
      rw [retestWait] at hwait
      omega
    · cases (congrArg ExhaustedStep.watch hstep).symm.trans hgone

example : (lookAll ⟨1, 4⟩ [(true, 0), (true, 1), (true, 2), (false, 3), (true, 3), (true, 7)]).map (fun look =>
    look.step.retest) = [true, true, false, false, true, false] := by decide

/-- The first wait or the longest one, whichever is shorter. -/
def shorterWait (schedule : ExhaustedRetestSchedule) : ℕ := min schedule.firstMs schedule.maxMs

/-- Two looks are at least the shorter wait apart. -/
def Apart (schedule : ExhaustedRetestSchedule) (later earlier : Looked) : Prop :=
  earlier.nowMs + shorterWait schedule ≤ later.nowMs

/-- The re-tests so far keep the shorter wait between them, and none is due sooner than that after them. -/
structure Paced (schedule : ExhaustedRetestSchedule) (looks : List Looked) : Prop where
  apart : (looks.filter fun look => look.step.retest).Pairwise (Apart schedule)
  due : ∀ watch ∈ watchAfter looks, ∀ past ∈ looks, past.step.retest = true →
    past.nowMs + shorterWait schedule ≤ watch.dueAt

theorem shorterWait_le (retests : ℕ) : shorterWait schedule ≤ retestWait retests schedule := by
  have hfirst := Nat.le_mul_of_pos_right schedule.firstMs (Nat.two_pow_pos retests)
  rw [shorterWait, retestWait]
  omega

/-- A look on a clock that does not go back keeps the pace, also where it begins a new watch. -/
theorem paced_look (h : Paced schedule looks) (exhausted : Bool) {nowMs : ℤ}
    (hclock : ∀ past ∈ looks, past.nowMs ≤ nowMs) :
    Paced schedule (look schedule looks exhausted nowMs :: looks) := by
  -- What a watch that is due the wait from now on owes to the re-tests before.
  have hbegun (retests : ℕ) (past : Looked) (hpast : past ∈ looks) :
      past.nowMs + shorterWait schedule ≤ nowMs + retestWait retests schedule := by
    have hwait := @shorterWait_le schedule retests
    have hbefore := hclock past hpast
    omega
  have hplain (hretest : (look schedule looks exhausted nowMs).step.retest = false)
      (hdue : ∀ watch ∈ (look schedule looks exhausted nowMs).step.watch, ∀ past ∈ looks, past.step.retest = true →
        past.nowMs + shorterWait schedule ≤ watch.dueAt) :
      Paced schedule (look schedule looks exhausted nowMs :: looks) := by
    refine ⟨?_, fun watch hwatch past hpast htested => ?_⟩
    · rw [List.filter_cons, hretest]
      exact h.apart
    · rcases List.mem_cons.mp hpast with rfl | hearlier
      · cases hretest.symm.trans htested
      · exact hdue watch hwatch past hearlier htested
  rcases stepExhaustedWatch_cases (watchAfter looks) exhausted nowMs schedule with
    ⟨held, hheld, hstep⟩ | ⟨-, hstep, -⟩ | ⟨-, hstep⟩ | ⟨held, -, hheld, hdue, hstep⟩
  · refine hplain (congrArg ExhaustedStep.retest hstep) fun watch hwatch => ?_
    cases (congrArg ExhaustedStep.watch hstep).symm.trans hwatch
    exact h.due held hheld
  · refine hplain (congrArg ExhaustedStep.retest hstep) fun watch hwatch => ?_
    cases (congrArg ExhaustedStep.watch hstep).symm.trans hwatch
  · refine hplain (congrArg ExhaustedStep.retest hstep) fun watch hwatch past hpast _ => ?_
    cases (congrArg ExhaustedStep.watch hstep).symm.trans hwatch
    exact hbegun 0 past hpast
  · have hretest : (look schedule looks exhausted nowMs).step.retest = true := congrArg ExhaustedStep.retest hstep
    refine ⟨?_, fun watch hwatch past hpast _ => ?_⟩
    · rw [List.filter_cons, hretest]
      refine List.pairwise_cons.mpr ⟨fun past hpast => ?_, h.apart⟩
      obtain ⟨hmem, htested⟩ := List.mem_filter.mp hpast
      exact Int.le_trans (h.due held hheld past hmem htested) hdue
    · cases (congrArg ExhaustedStep.watch hstep).symm.trans hwatch
      rcases List.mem_cons.mp hpast with rfl | hearlier
      · exact Int.add_le_add_left (Int.ofNat_le.mpr (shorterWait_le _)) _
      · exact hbegun _ past hearlier

/-- On a clock that does not go back, any two re-tests of an account, in one watch or in two, are at least the
shorter wait apart: an account that flaps is not re-tested more often. -/
theorem retests_apart (schedule : ExhaustedRetestSchedule) (readings : List (Bool × ℤ))
    (hclock : readings.Pairwise fun earlier later => earlier.2 ≤ later.2) :
    ((lookAll schedule readings).filter fun look => look.step.retest).Pairwise (Apart schedule) := by
  have hrun (before : List Looked) (h : Paced schedule before)
      (hbefore : ∀ past ∈ before, ∀ reading ∈ readings, past.nowMs ≤ reading.2) :
      Paced schedule
        (readings.foldl (fun looks reading => look schedule looks reading.1 reading.2 :: looks) before) := by
    induction readings generalizing before with
    | nil => exact h
    | cons reading rest ih =>
      obtain ⟨hfirst, hrest⟩ := List.pairwise_cons.mp hclock
      refine ih hrest _ (paced_look h reading.1 fun past hpast => hbefore past hpast reading (List.mem_cons_self ..)) ?_
      intro past hpast later hlater
      rcases List.mem_cons.mp hpast with rfl | hearlier
      · exact hfirst later hlater
      · exact hbefore past hearlier later (.tail _ hlater)
  exact (hrun [] ⟨.nil, nofun⟩ nofun).apart

/-- An account that flaps is re-tested after its waits. -/
theorem retests_apart_flapping :
    ((lookAll ⟨1, 4⟩ [(true, 0), (true, 1), (false, 5), (true, 5), (true, 6)]).filter fun look =>
      look.step.retest).Pairwise (Apart ⟨1, 4⟩) :=
  retests_apart ⟨1, 4⟩ _ (by decide)

end MultiAiRouter.Routing
