import Mathlib.Tactic.Common
import MultiAiRouter.Dataplane.ChainAttempts

/-!
# Every started attempt is closed

Between two turns every attempt is closed, and while one is dispatched or relayed the callback on the lease is its
own, so shutdown closes it. Three exits miss this: a dispatch cancelled before its upstream started throws past the
probe and the permit; one that throws leaves its permit without an outcome; and a guard that passes after shutdown
consumes a permit.
-/

namespace MultiAiRouter.Dataplane

open Common Routing

namespace AttemptLedger

/-- The attempt is in flight: its start was counted at most once and not counted off. -/
def InFlight (ledger : AttemptLedger) : Prop := ledger.begun ≤ 1 ∧ ledger.ended = 0

variable {ledger : AttemptLedger}

@[simp] theorem releaseProbe_number : ledger.releaseProbe.number = ledger.number := rfl

@[simp] theorem consume_number : ledger.consume.number = ledger.number := rfl

@[simp] theorem finish_number : ledger.finish.number = ledger.number := rfl

@[simp] theorem settle_number : ledger.settle.number = ledger.number := rfl

@[simp] theorem onStarted_number : ledger.onStarted.number = ledger.number := by
  unfold onStarted
  split <;> rfl

@[simp] theorem endAttempt_number : ledger.endAttempt.number = ledger.number := by
  unfold endAttempt
  split <;> rfl

@[simp] theorem abandon_number : ledger.abandon.number = ledger.number := by
  simp [abandon]

/-- Counting off, finishing and releasing closes an attempt in flight, in whichever order. -/
theorem InFlight.closed_of_finish (h : ledger.InFlight) :
    ledger.finish.endAttempt.releaseProbe.Closed ∧ ledger.endAttempt.finish.releaseProbe.Closed := by
  obtain ⟨hbegun, hended⟩ := h
  unfold Closed finish endAttempt releaseProbe
  by_cases h0 : ledger.begun = 0
  · simpa [h0, hended] using Or.inr
  · have h1 : ledger.begun = 1 := by omega
    simpa [h1, hended] using Or.inr

/-- An attempt whose permit was not consumed is closed by counting off and releasing. -/
theorem InFlight.closed_of_unconsumed (h : ledger.InFlight) (hconsumed : ledger.consumed = false) :
    ledger.endAttempt.releaseProbe.Closed := by
  obtain ⟨hbegun, hended⟩ := h
  unfold Closed endAttempt releaseProbe
  by_cases h0 : ledger.begun = 0
  · simp [h0, hended, hconsumed]
  · have h1 : ledger.begun = 1 := by omega
    simp [h1, hended, hconsumed]

/-- An unstarted attempt that holds nothing is closed. -/
theorem InFlight.closed_of_nothing (h : ledger.InFlight) (hbegun : ledger.begun = 0)
    (hheld : ledger.probeHeld = false) (hconsumed : ledger.consumed = false) : ledger.Closed := by
  simp [Closed, hbegun, h.2, hheld, hconsumed]

/-- The relay's settlement closes a started attempt. -/
theorem closed_settle (hbegun : ledger.begun = 1) (hended : ledger.ended = 0) : ledger.settle.Closed := by
  simpa [Closed, settle, finish, releaseProbe, hbegun, hended] using Or.inr

/-- A callback that runs on a closed attempt leaves it closed. -/
theorem Closed.abandon (h : ledger.Closed) : ledger.abandon.Closed := by
  obtain ⟨hprobe, hcount, hpermit⟩ := h
  unfold Closed AttemptLedger.abandon finish endAttempt releaseProbe
  by_cases h0 : ledger.begun = 0
  · simpa [h0, ← hcount] using Or.inr
  · have hended : ledger.ended ≠ 0 := by omega
    simpa [hended, hcount] using Or.inr

/-- A start guard that consumes nothing leaves a closed attempt closed. -/
theorem Closed.consume (h : ledger.Closed) (hdesignated : ledger.designated = false) : ledger.consume.Closed := by
  simpa [Closed, AttemptLedger.consume, hdesignated] using h

/-- The start of the upstream is counted once. -/
theorem InFlight.onStarted (h : ledger.InFlight) : ledger.onStarted.begun = 1 ∧ ledger.onStarted.ended = 0 := by
  obtain ⟨hbegun, hended⟩ := h
  unfold AttemptLedger.onStarted
  split
  · exact ⟨rfl, hended⟩
  · exact ⟨by omega, hended⟩

end AttemptLedger

namespace AttemptRun

variable {ctx : ChainContext} {run : AttemptRun}

/-- Every attempt of the run is closed. -/
def AllClosed (run : AttemptRun) : Prop := ∀ ledger ∈ run.attempts, ledger.Closed

/-- Attempts are numbered in the order they are made. -/
def Numbered (run : AttemptRun) : Prop := ∀ ledger ∈ run.attempts, ledger.number < run.attempts.length

/-- The steps that leave nothing open: a dispatch cancelled before its start holds nothing, a
dispatch that throws has consumed no permit, and no permit is consumed after shutdown. -/
def LeavesNothing (run : AttemptRun) : AttemptEvent → Prop
  | .consume => ∀ number, run.phase = .dispatching number → run.shutdown = true →
      ∀ ledger ∈ run.attempts, ledger.number = number → ledger.designated = false
  | .resolve .threw => ∀ number, run.phase = .dispatching number → run.shutdown = false →
      ∀ ledger ∈ run.attempts, ledger.number = number → ledger.consumed = false
  | .resolve (.failure failure answered) => ∀ number, run.phase = .dispatching number →
      run.shutdown = false → run.clientAborted = true → run.started number = false →
      isCancelledOutcome (.failure failure answered) = true →
      ∀ ledger ∈ run.attempts, ledger.number = number → ledger.probeHeld = false ∧ ledger.consumed = false
  | _ => True

/-- Only the attempt being dispatched or relayed is open, and the lease's callback is its own. -/
structure Tidy (run : AttemptRun) : Prop where
  numbered : run.Numbered
  others : ∀ ledger ∈ run.attempts, run.phase ≠ .dispatching ledger.number →
    run.phase ≠ .relaying ledger.number → ledger.Closed
  dispatching : ∀ number, run.phase = .dispatching number → ∀ ledger ∈ run.attempts, ledger.number = number →
      if run.shutdown then ledger.Closed else ledger.InFlight
  relaying : ∀ number, run.phase = .relaying number → run.shutdown = false ∧
    ∀ ledger ∈ run.attempts, ledger.number = number → ledger.begun = 1 ∧ ledger.ended = 0
  dispatchGuarded : ∀ number, run.phase = .dispatching number → run.leased → run.shutdown = false →
    run.callback = some (.attempt number)
  relayGuarded : ∀ number, run.phase = .relaying number → run.leased → run.callback = some (.relay number)

/-- A run between turns, or over, with every attempt closed is tidy. -/
theorem tidy_of_allClosed (hphase : run.phase = .looping ∨ run.phase = .ended)
    (hnumbered : run.Numbered) (hclosed : run.AllClosed) : run.Tidy := by
  refine ⟨hnumbered, fun ledger hledger _ _ => hclosed ledger hledger, ?_, ?_, ?_, ?_⟩ <;>
    rcases hphase with hphase | hphase <;> simp [hphase]

/-- A tidy run that dispatches and relays nothing has every attempt closed. -/
theorem Tidy.allClosed (htidy : run.Tidy) (hphase : run.phase = .looping ∨ run.phase = .ended) : run.AllClosed := by
  intro ledger hledger
  refine htidy.others ledger hledger ?_ ?_ <;> rcases hphase with hphase | hphase <;> simp [hphase]

/-- The ledgers of an updated run. -/
theorem mem_update {number : ℕ} {change : AttemptLedger → AttemptLedger} {ledger : AttemptLedger}
    (h : ledger ∈ (run.update number change).attempts) :
    (∃ old ∈ run.attempts, old.number = number ∧ ledger = change old) ∨
      ledger ∈ run.attempts ∧ ledger.number ≠ number := by
  obtain ⟨old, hold, rfl⟩ := List.mem_map.mp h
  by_cases heq : old.number = number
  · exact .inl ⟨old, hold, heq, by simp [heq]⟩
  · exact .inr (by simpa [heq] using hold)

/-- Changing a ledger keeps the numbers. -/
theorem Numbered.update (h : run.Numbered) {number : ℕ} {change : AttemptLedger → AttemptLedger}
    (hchange : ∀ ledger, (change ledger).number = ledger.number) : (run.update number change).Numbered := by
  intro ledger hledger
  have hlength : (run.update number change).attempts.length = run.attempts.length := by
    simp [AttemptRun.update]
  rw [hlength]
  rcases mem_update hledger with ⟨old, hold, -, rfl⟩ | ⟨hold, -⟩
  · rw [hchange]
    exact h old hold
  · exact h ledger hold

/-- A change that closes the open attempt closes the run. -/
theorem Tidy.allClosed_update (htidy : run.Tidy) {number : ℕ}
    (hphase : run.phase = .dispatching number ∨ run.phase = .relaying number)
    {change : AttemptLedger → AttemptLedger}
    (hchange : ∀ ledger ∈ run.attempts, ledger.number = number → (change ledger).Closed) :
    (run.update number change).AllClosed := by
  intro ledger hledger
  rcases mem_update hledger with ⟨old, hold, hnumber, rfl⟩ | ⟨hold, hnumber⟩
  · exact hchange old hold hnumber
  · refine htidy.others ledger hold ?_ ?_ <;> rcases hphase with hphase | hphase <;>
      simp [hphase, Ne.symm hnumber]

/-- The loop goes on with every attempt closed. -/
theorem tidy_looped (hnumbered : run.Numbered) (hclosed : run.AllClosed) (turn : Turn) :
    (run.looped ctx turn).Tidy :=
  tidy_of_allClosed (.inl rfl) hnumbered hclosed

/-- The loop is left with every attempt closed. -/
theorem tidy_left (hnumbered : run.Numbered) (hclosed : run.AllClosed) (turn : Turn) : (run.left ctx turn).Tidy :=
  tidy_of_allClosed (.inr rfl) hnumbered hclosed

/-- Recording an attempt whose probe is released keeps the run closed. -/
theorem opened_releaseProbe (hnumbered : run.Numbered) (hclosed : run.AllClosed)
    (ledger : AttemptLedger) (hnumber : ledger.number = run.attempts.length)
    (hbegun : ledger.begun = ledger.ended) (hconsumed : ledger.consumed = false) :
    (run.opened ledger.releaseProbe).Numbered ∧ (run.opened ledger.releaseProbe).AllClosed := by
  constructor
  · intro found hfound
    simp only [opened, List.length_append, List.length_singleton]
    rcases List.mem_append.mp hfound with hold | hnew
    · exact Nat.lt_succ_of_lt (hnumbered found hold)
    · rw [List.mem_singleton.mp hnew, AttemptLedger.releaseProbe_number, hnumber]
      exact Nat.lt_succ_self _
  · intro found hfound
    rcases List.mem_append.mp hfound with hold | hnew
    · exact hclosed found hold
    · rw [List.mem_singleton.mp hnew]
      simp [AttemptLedger.Closed, AttemptLedger.releaseProbe, hbegun, hconsumed]

/-- Dispatching a new attempt puts its callback on the lease. -/
theorem tidy_dispatched (hnumbered : run.Numbered) (hclosed : run.AllClosed) (hshutdown : run.shutdown = false)
    {ledger : AttemptLedger} (hnumber : ledger.number = run.attempts.length) (hflight : ledger.InFlight) :
    (setAbandon { run.opened ledger with phase := .dispatching ledger.number }
      (.attempt ledger.number)).Tidy := by
  have hset (callback : Option LeaseCallback) (hcallback : run.leased → callback = some (.attempt ledger.number)) :
      ({ run.opened ledger with
          phase := .dispatching ledger.number
          callback := callback } : AttemptRun).Tidy := by
    have hold {found : AttemptLedger} (hfound : found ∈ run.attempts) : found.number ≠ ledger.number := by
      have := hnumbered found hfound
      omega
    refine ⟨?_, ?_, ?_, ?_, ?_, ?_⟩
    · intro found hfound
      simp only [opened, List.length_append, List.length_singleton]
      rcases List.mem_append.mp hfound with hfound | hfound
      · exact Nat.lt_succ_of_lt (hnumbered found hfound)
      · rw [List.mem_singleton.mp hfound, hnumber]
        exact Nat.lt_succ_self _
    · intro found hfound hother _
      rcases List.mem_append.mp hfound with hfound | hfound
      · exact hclosed found hfound
      · exact absurd (by rw [List.mem_singleton.mp hfound]) hother
    · intro number hphase found hfound heq
      obtain rfl : ledger.number = number := by simpa using hphase
      rcases List.mem_append.mp hfound with hfound | hfound
      · exact absurd heq (hold hfound)
      · rw [List.mem_singleton.mp hfound]
        simpa [opened, hshutdown] using hflight
    · intro number hphase
      simp at hphase
    · intro number hphase hleased _
      obtain rfl : ledger.number = number := by simpa using hphase
      exact hcallback hleased
    · intro number hphase
      simp at hphase
  unfold setAbandon
  by_cases hleased : run.leased
  · simpa [opened, hleased, hshutdown] using hset (some (.attempt ledger.number)) fun _ => rfl
  · simpa [opened, hleased, hshutdown] using hset run.callback fun h => absurd h hleased

/-- A turn of the loop keeps the run tidy. -/
theorem tidy_turned (htidy : run.Tidy) (hphase : run.phase = .looping) (probeAdmitted probeHeld : Bool)
    (body : BodyBuild) : (run.turned ctx probeAdmitted probeHeld body).Tidy := by
  have hclosed := htidy.allClosed (.inl hphase)
  unfold turned
  split
  · exact tidy_left htidy.numbered hclosed _
  · next haborted =>
    split
    · exact tidy_left htidy.numbered hclosed _
    · next candidate hplanned =>
      split
      · exact tidy_left htidy.numbered hclosed _
      · split
        · exact tidy_looped htidy.numbered hclosed _
        · cases body with
          | crashed =>
            obtain ⟨hnumbered, hclosed⟩ := opened_releaseProbe htidy.numbered hclosed
              (run.newLedger ctx candidate probeHeld) rfl rfl rfl
            exact tidy_left hnumbered hclosed _
          | refused message =>
            obtain ⟨hnumbered, hclosed⟩ := opened_releaseProbe htidy.numbered hclosed
              (run.newLedger ctx candidate probeHeld) rfl rfl rfl
            exact tidy_looped hnumbered hclosed _
          | built =>
            have hshutdown : run.shutdown = false := by
              simp only [aborted, Bool.or_eq_true, not_or, Bool.not_eq_true] at haborted
              exact haborted.2
            exact tidy_dispatched htidy.numbered hclosed hshutdown rfl ⟨Nat.zero_le 1, rfl⟩

/-- The attempt being dispatched before shutdown is in flight. -/
theorem Tidy.inFlight (htidy : run.Tidy) {number : ℕ} (hphase : run.phase = .dispatching number)
    (hshutdown : run.shutdown = false) {ledger : AttemptLedger} (hledger : ledger ∈ run.attempts)
    (hnumber : ledger.number = number) : ledger.InFlight := by
  simpa [hshutdown] using htidy.dispatching number hphase ledger hledger hnumber

/-- An attempt that did not start has no start counted. -/
theorem begun_of_not_started {number : ℕ} (h : run.started number = false) {ledger : AttemptLedger}
    (hledger : ledger ∈ run.attempts) (hnumber : ledger.number = number) : ledger.begun = 0 := by
  by_contra hbegun
  have : run.started number = true := List.any_eq_true.mpr ⟨ledger, hledger, by simp [hnumber, hbegun]⟩
  simp [h] at this

/-- A change that keeps the dispatched attempt as it was keeps the run tidy. -/
theorem Tidy.update (htidy : run.Tidy) {number : ℕ} (hphase : run.phase = .dispatching number)
    {change : AttemptLedger → AttemptLedger}
    (hnumber : ∀ ledger, (change ledger).number = ledger.number)
    (hchange : ∀ ledger ∈ run.attempts, ledger.number = number →
      if run.shutdown then (change ledger).Closed else (change ledger).InFlight) :
    (run.update number change).Tidy := by
  refine ⟨htidy.numbered.update hnumber, ?_, ?_, ?_, htidy.dispatchGuarded, htidy.relayGuarded⟩
  · intro ledger hledger hother hother'
    rcases mem_update hledger with ⟨old, hold, hold', rfl⟩ | ⟨hold, -⟩
    · rw [hnumber, hold'] at hother
      exact absurd hphase hother
    · exact htidy.others ledger hold hother hother'
  · intro found hfound ledger hledger hequal
    obtain rfl : number = found := by simpa using hphase.symm.trans hfound
    rcases mem_update hledger with ⟨old, hold, hold', rfl⟩ | ⟨-, hother⟩
    · exact hchange old hold hold'
    · exact absurd hequal hother
  · intro found hfound
    exact absurd (hfound.symm.trans hphase) (by simp)

/-- A cancelled dispatch is closed before the answer leaves. -/
theorem tidy_cancelledBeforeRelay (htidy : run.Tidy) {number : ℕ} (hphase : run.phase = .dispatching number)
    (hshutdown : run.shutdown = false) : (run.cancelledBeforeRelay ctx number).Tidy :=
  tidy_left (htidy.numbered.update fun _ => by simp)
    (htidy.allClosed_update (.inl hphase) fun _ hledger hnumber =>
      (htidy.inFlight hphase hshutdown hledger hnumber).closed_of_finish.1) _

/-- A successful dispatch hands its attempt to the relay, and the relay's callback to the lease. -/
theorem tidy_relayed (htidy : run.Tidy) {number : ℕ} (hphase : run.phase = .dispatching number)
    (hshutdown : run.shutdown = false)
    (hbegun : ∀ ledger ∈ run.attempts, ledger.number = number → ledger.begun = 1 ∧ ledger.ended = 0)
    (chain : ChainState) :
    (setAbandon { run with chain := chain, phase := .relaying number } (.relay number)).Tidy := by
  have hset (callback : Option LeaseCallback) (hcallback : run.leased → callback = some (.relay number)) :
      ({ run with chain := chain, phase := .relaying number, callback := callback } : AttemptRun).Tidy := by
    refine ⟨htidy.numbered, ?_, ?_, ?_, ?_, ?_⟩
    · intro ledger hledger _ hother
      refine htidy.others ledger hledger ?_ (by simp [hphase])
      intro heq
      obtain rfl : number = ledger.number := by simpa using hphase.symm.trans heq
      exact hother rfl
    · intro found hfound
      simp at hfound
    · intro found hfound
      obtain rfl : number = found := by simpa using hfound
      exact ⟨hshutdown, hbegun⟩
    · intro found hfound
      simp at hfound
    · intro found hfound hleased
      obtain rfl : number = found := by simpa using hfound
      exact hcallback hleased
  unfold setAbandon
  by_cases hleased : run.leased
  · simpa [hleased, hshutdown] using hset (some (.relay number)) fun _ => rfl
  · simpa [hleased, hshutdown] using hset run.callback fun h => absurd h hleased

/-- The settled dispatch leaves a tidy run, when the step leaves nothing open. -/
theorem tidy_resolved (htidy : run.Tidy) {number : ℕ} (hphase : run.phase = .dispatching number)
    (result : DispatchResult) (hleaves : run.LeavesNothing (.resolve result)) :
    (run.resolved ctx number result).Tidy := by
  unfold resolved
  split
  · next hshutdown =>
    -- Shutdown closed the attempt through its callback.
    refine tidy_left htidy.numbered (fun ledger hledger => ?_) _
    by_cases hnumber : ledger.number = number
    · simpa [hshutdown] using htidy.dispatching number hphase ledger hledger hnumber
    · exact htidy.others ledger hledger (by simp [hphase, Ne.symm hnumber]) (by simp [hphase])
  · next hrunning =>
    have hshutdown : run.shutdown = false := by simpa using hrunning
    have hflight {ledger : AttemptLedger} (hledger : ledger ∈ run.attempts)
        (hnumber : ledger.number = number) : ledger.InFlight :=
      htidy.inFlight hphase hshutdown hledger hnumber
    have hfinish : (run.update number fun ledger => ledger.finish.endAttempt.releaseProbe).AllClosed :=
      htidy.allClosed_update (.inl hphase) fun ledger hledger hnumber =>
        (hflight hledger hnumber).closed_of_finish.1
    have hunstarted (dispatched : Dispatched) : (run.unstarted ctx number dispatched).Tidy :=
      tidy_looped (htidy.numbered.update fun _ => by simp)
        (htidy.allClosed_update (.inl hphase) fun ledger hledger hnumber =>
          (hflight hledger hnumber).closed_of_finish.2) _
    cases result with
    | threw =>
      have hclosed : (run.update number fun ledger => ledger.endAttempt.releaseProbe).AllClosed :=
        htidy.allClosed_update (.inl hphase) fun ledger hledger hnumber =>
          (hflight hledger hnumber).closed_of_unconsumed
            (hleaves number hphase hshutdown ledger hledger hnumber)
      have hnumbered : (run.update number fun ledger => ledger.endAttempt.releaseProbe).Numbered :=
        htidy.numbered.update fun _ => by simp
      dsimp only
      split
      · exact tidy_left hnumbered hclosed _
      · exact tidy_looped hnumbered hclosed _
    | admissionRefused => exact hunstarted _
    | failure failure answered =>
      dsimp only
      split
      · next hcancelled =>
        simp only [Bool.and_eq_true, Bool.not_eq_true', aborted, hshutdown, Bool.or_false] at hcancelled
        obtain ⟨⟨hstart, houtcome⟩, hclient⟩ := hcancelled
        refine tidy_left htidy.numbered (fun ledger hledger => ?_) _
        by_cases hnumber : ledger.number = number
        · obtain ⟨hheld, hconsumed⟩ :=
            hleaves number hphase hshutdown hclient hstart houtcome ledger hledger hnumber
          exact (hflight hledger hnumber).closed_of_nothing
            (begun_of_not_started hstart hledger hnumber) hheld hconsumed
        · exact htidy.others ledger hledger (by simp [hphase, Ne.symm hnumber]) (by simp [hphase])
      · split
        · exact hunstarted _
        · split
          · exact tidy_cancelledBeforeRelay htidy hphase hshutdown
          · exact tidy_looped (htidy.numbered.update fun _ => by simp) hfinish _
    | success =>
      have hbegun : (run.update number AttemptLedger.onStarted).Tidy :=
        htidy.update hphase (fun _ => by simp) fun ledger hledger hnumber => by
          obtain ⟨hbegun, hended⟩ := (hflight hledger hnumber).onStarted
          simpa [hshutdown] using ⟨hbegun.le, hended⟩
      dsimp only
      split
      · exact tidy_cancelledBeforeRelay hbegun hphase hshutdown
      · refine tidy_relayed hbegun hphase hshutdown (fun ledger hledger hnumber => ?_) _
        rcases mem_update hledger with ⟨old, hold, hnumber', rfl⟩ | ⟨-, hother⟩
        · exact (hflight hold hnumber').onStarted
        · exact absurd hnumber hother

/-- The relay's settlement closes the run. -/
theorem tidy_settled (htidy : run.Tidy) {number : ℕ} (hphase : run.phase = .relaying number) :
    (run.settled number).Tidy := by
  refine tidy_of_allClosed (.inr rfl) (htidy.numbered.update fun _ => by simp) ?_
  refine htidy.allClosed_update (.inr hphase) fun ledger hledger hnumber => ?_
  obtain ⟨hbegun, hended⟩ := (htidy.relaying number hphase).2 ledger hledger hnumber
  exact AttemptLedger.closed_settle hbegun hended

/-- A cancelled request stays tidy: an open relay settles, everything else goes on. -/
theorem tidy_cancelled (htidy : run.Tidy) : run.cancelled.Tidy := by
  have haborted : ({ run with clientAborted := true } : AttemptRun).Tidy :=
    ⟨htidy.numbered, htidy.others, htidy.dispatching, htidy.relaying, htidy.dispatchGuarded, htidy.relayGuarded⟩
  unfold cancelled
  dsimp only
  split
  · next number hphase => exact tidy_settled haborted hphase
  · exact haborted

/-- A callback left by a closed attempt keeps the run closed. -/
theorem AllClosed.abandon (hclosed : run.AllClosed) (number : ℕ) :
    (run.update number AttemptLedger.abandon).AllClosed := by
  intro ledger hledger
  rcases mem_update hledger with ⟨old, hold, -, rfl⟩ | ⟨hold, -⟩
  · exact (hclosed old hold).abandon
  · exact hclosed ledger hold

/-- Between turns, or once the run is over, shutdown finds every attempt closed. -/
theorem tidy_stopped_idle (htidy : run.Tidy) (hphase : run.phase = .looping ∨ run.phase = .ended) :
    run.stopped.Tidy := by
  have hclosed := htidy.allClosed hphase
  unfold stopped
  split
  · exact htidy
  · dsimp only
    split
    · exact tidy_of_allClosed hphase htidy.numbered hclosed
    · next number _ =>
      exact tidy_of_allClosed hphase (htidy.numbered.update fun _ => by simp) (hclosed.abandon number)
    · next number _ =>
      have hnot : run.phase ≠ .relaying number := by
        rcases hphase with hphase | hphase <;> simp [hphase]
      simp only [hnot, if_false]
      exact tidy_of_allClosed hphase htidy.numbered hclosed

/-- Shutdown closes a dispatched attempt through the callback it left. -/
theorem tidy_stopped_dispatching (htidy : run.Tidy) {number : ℕ}
    (hphase : run.phase = .dispatching number) : run.stopped.Tidy := by
  unfold stopped
  split
  · exact htidy
  · next hlive =>
    have hleased : run.leased = true := by simp_all
    have hshutdown : run.shutdown = false := by simp_all
    simp only [htidy.dispatchGuarded number hphase hleased hshutdown]
    have hclosed : (run.update number AttemptLedger.abandon).AllClosed :=
      htidy.allClosed_update (.inl hphase) fun ledger hledger hnumber =>
        (htidy.inFlight hphase hshutdown hledger hnumber).closed_of_finish.1
    refine ⟨htidy.numbered.update fun _ => by simp, fun ledger hledger _ _ => hclosed ledger hledger,
      fun _ _ ledger hledger _ => by simpa using hclosed ledger hledger, ?_, by simp, ?_⟩
    · intro found hfound
      exact absurd (hfound.symm.trans hphase) (by simp)
    · intro found hfound
      exact absurd (hfound.symm.trans hphase) (by simp)

/-- Shutdown settles an open relay through the callback it left. -/
theorem tidy_stopped_relaying (htidy : run.Tidy) {number : ℕ}
    (hphase : run.phase = .relaying number) : run.stopped.Tidy := by
  unfold stopped
  split
  · exact htidy
  · next hlive =>
    have hleased : run.leased = true := by simp_all
    simp only [htidy.relayGuarded number hphase hleased, hphase, if_true]
    have hsettled := tidy_settled htidy hphase
    exact tidy_of_allClosed (.inr rfl) hsettled.numbered (hsettled.allClosed (.inr rfl))

/-- Shutdown keeps the run tidy, whatever it finds. -/
theorem tidy_stopped (htidy : run.Tidy) : run.stopped.Tidy := by
  cases hphase : run.phase with
  | looping => exact tidy_stopped_idle htidy (.inl hphase)
  | dispatching number => exact tidy_stopped_dispatching htidy hphase
  | relaying number => exact tidy_stopped_relaying htidy hphase
  | ended => exact tidy_stopped_idle htidy (.inr hphase)

/-- One event keeps the run tidy, when it leaves nothing open. -/
theorem step_tidy (htidy : run.Tidy) (event : AttemptEvent) (hleaves : run.LeavesNothing event) :
    (run.step ctx event).Tidy := by
  cases event with
  | cancel => exact tidy_cancelled htidy
  | stop => exact tidy_stopped htidy
  | turn probeAdmitted probeHeld body =>
    dsimp only [step]
    split
    · next hphase => exact tidy_turned htidy hphase probeAdmitted probeHeld body
    · exact htidy
  | consume =>
    dsimp only [step]
    split
    · next number hphase =>
      refine htidy.update hphase (fun _ => rfl) fun ledger hledger hnumber => ?_
      have hcurrent := htidy.dispatching number hphase ledger hledger hnumber
      by_cases hshutdown : run.shutdown
      · rw [if_pos hshutdown] at hcurrent ⊢
        exact hcurrent.consume (hleaves number hphase hshutdown ledger hledger hnumber)
      · rw [if_neg hshutdown] at hcurrent ⊢
        exact hcurrent
    · exact htidy
  | start =>
    dsimp only [step]
    split
    · next number hphase =>
      split
      · exact htidy
      · next hrunning =>
        refine htidy.update hphase (fun _ => by simp) fun ledger hledger hnumber => ?_
        have hshutdown : run.shutdown = false := by simpa using hrunning
        obtain ⟨hbegun, hended⟩ := (htidy.inFlight hphase hshutdown hledger hnumber).onStarted
        simpa [hshutdown] using ⟨hbegun.le, hended⟩
    · exact htidy
  | resolve result =>
    dsimp only [step]
    split
    · next number hphase => exact tidy_resolved htidy hphase result hleaves
    · exact htidy
  | settle =>
    dsimp only [step]
    split
    · next number hphase => exact tidy_settled htidy hphase
    · exact htidy

/-- A run starts with no attempt made. -/
theorem start_tidy (ctx : ChainContext) (leased clientAborted shutdown : Bool) :
    (start ctx leased clientAborted shutdown).Tidy :=
  tidy_of_allClosed (.inl rfl) (by simp [start, Numbered]) (by simp [start, AllClosed])

/-- On every run whose steps leave nothing open, once the run has thrown or its response has settled
every attempt is closed. -/
theorem run_attempts_closed (ctx : ChainContext) (leased clientAborted shutdown : Bool) (events : List AttemptEvent)
    (hleaves : EveryStep (step ctx) LeavesNothing (start ctx leased clientAborted shutdown) events)
    (hended : (AttemptRun.run ctx (start ctx leased clientAborted shutdown) events).phase = .ended) :
    ∀ ledger ∈ (AttemptRun.run ctx (start ctx leased clientAborted shutdown) events).attempts, ledger.Closed := by
  have htidy : (AttemptRun.run ctx (start ctx leased clientAborted shutdown) events).Tidy :=
    runFrom_invariant_of_everyStep Tidy (fun run event htidy hleaves => step_tidy htidy event hleaves)
      events _ (start_tidy ctx leased clientAborted shutdown) hleaves
  exact htidy.allClosed (.inr hended)

/-- A half-open candidate. -/
def halfOpenCandidate : Candidate :=
  { account := { id := "A" }
    poolId := none
    weight := 100
    priority := 0
    order := 0
    upstreamModel := "model"
    halfOpen := true }

/-- One half-open account behind a wired recovery. -/
def recovering : ChainContext := { plan := [halfOpenCandidate], recoveryWired := true }

/-- A probe that consumed its permit, started, was relayed and settled. -/
theorem run_attempts_closed_relayed : (AttemptRun.run recovering (start recovering true false false)
      [.turn true true .built, .consume, .start, .resolve .success, .settle]).attempts =
        [{ number := 0
           accountId := "A"
           designated := true
           probeHeld := true
           probeReleased := true
           begun := 1
           ended := 1
           consumed := true
           finished := true }] ∧
    ∀ ledger ∈ (AttemptRun.run recovering (start recovering true false false)
      [.turn true true .built, .consume, .start, .resolve .success, .settle]).attempts, ledger.Closed := by
  refine ⟨by decide +kernel, run_attempts_closed recovering true false false _
    ⟨trivial, ?_, trivial, trivial, trivial, trivial⟩ (by decide +kernel)⟩
  intro number _ hshutdown
  exact absurd hshutdown (by decide +kernel)

/-- A client cancels a probe between its start guard and its upstream's start: the run throws with the probe held
and the permit without an outcome. -/
theorem run_attempt_left_open : (AttemptRun.run recovering (start recovering true false false)
      [.turn true true .built, .consume, .cancel,
        .resolve (.failure { kind := .clientError, status := some 499 } false)]).phase = .ended ∧
    ¬ ∀ ledger ∈ (AttemptRun.run recovering (start recovering true false false)
      [.turn true true .built, .consume, .cancel,
        .resolve (.failure { kind := .clientError, status := some 499 } false)]).attempts, ledger.Closed := by
  decide +kernel

end AttemptRun

end MultiAiRouter.Dataplane
