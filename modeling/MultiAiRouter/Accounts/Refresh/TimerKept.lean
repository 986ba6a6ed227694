import MultiAiRouter.Accounts.Refresh.Refresher

/-!
# No refresh timer is lost

The armed timer is the one handle the scheduler still holds, it is for the timing held, and a paused timing is
paused at its own version. A flight leaves the map only with the timer armed again, so outside a flight a timing has
its timer, unless it is paused or its credential is quarantined.
-/

namespace MultiAiRouter.Accounts

open Common Routing

namespace RefreshDesk

variable {config : RefreshConfig} {moment : RefreshMoment} {desk : RefreshDesk}

/-- The armed timer is the scheduler's one handle and is for the timing held, which is paused at its
own lifecycle version if at all. -/
structure Sound (desk : RefreshDesk) : Prop where
  handles : desk.handles = desk.timer.toList
  timer : ∀ armed, desk.timer = some armed →
    armed.serial < desk.serial ∧ desk.timing.map (·.serial) = some armed.timing
  paused : ∀ timing, desk.timing = some timing → ∀ version,
    timing.pausedLifecycleVersion = some version → version = timing.lifecycleVersion

/-- The timing held has its timer, or is paused, or its credential is quarantined. -/
def Kept (desk : RefreshDesk) : Prop :=
  ∀ timing, desk.timing = some timing →
    desk.timer.isSome ∨ timing.pausedLifecycleVersion = some timing.lifecycleVersion ∨
      desk.uncertain = some timing.authMaterial

/-- A stretch of work keeps a desk sound, and arms no timer but with a number drawn since. -/
structure Follows (before after : RefreshDesk) : Prop where
  sound : before.Sound → after.Sound
  serial : before.serial ≤ after.serial
  timer : ∀ armed, after.timer = some armed → before.timer = some armed ∨ before.serial ≤ armed.serial

/-- A desk follows itself. -/
theorem Follows.refl (desk : RefreshDesk) : Follows desk desk := ⟨id, Nat.le_refl _, fun _ => .inl⟩

/-- What follows a later desk follows an earlier one. -/
theorem Follows.trans {first second third : RefreshDesk} (h : Follows first second)
    (h' : Follows second third) : Follows first third where
  sound := h'.sound ∘ h.sound
  serial := Nat.le_trans h.serial h'.serial
  timer armed harmed := by
    rcases h'.timer armed harmed with hsecond | hlater
    · exact h.timer armed hsecond
    · exact .inr (Nat.le_trans h.serial hlater)

/-- Disarming keeps what the timer was for. -/
@[simp] theorem disarm_timing : desk.disarm.timing = desk.timing := rfl
/-- A disarmed desk has no timer. -/
@[simp] theorem disarm_timer : desk.disarm.timer = none := rfl
/-- Disarming keeps the uncertain grants. -/
@[simp] theorem disarm_uncertain : desk.disarm.uncertain = desk.uncertain := rfl
/-- Disarming makes no timer. -/
@[simp] theorem disarm_serial : desk.disarm.serial = desk.serial := rfl

/-- A disarmed desk has no handle left at the scheduler. -/
theorem disarm_handles (hhandles : desk.handles = desk.timer.toList) : desk.disarm.handles = [] := by
  cases htimer : desk.timer with
  | none => simpa [disarm, htimer] using hhandles
  | some armed => simp [disarm, htimer, hhandles]

/-- Arming keeps the uncertain grants. -/
@[simp] theorem armAt_uncertain (timing : RefreshTimerState) :
    (desk.armAt moment timing).uncertain = desk.uncertain := by
  unfold armAt
  cases moment.stopped <;> rfl

/-- A desk that is armed has a timer, until the stop. -/
theorem armAt_timer_isSome (hrunning : moment.stopped = false) (timing : RefreshTimerState) :
    (desk.armAt moment timing).timer.isSome := by
  simp [armAt, hrunning]

/-- Disarming a desk, or dropping its timing as well, keeps it sound. -/
theorem follows_disarm : Follows desk desk.disarm where
  sound h :=
    { handles := disarm_handles h.handles
      timer := fun armed harmed => absurd harmed (by simp)
      paused := h.paused }
  serial := Nat.le_refl _
  timer armed harmed := absurd harmed (by simp)

/-- Forgetting is a step forward. -/
theorem follows_forget : Follows desk desk.forget where
  sound h :=
    { handles := disarm_handles h.handles
      timer := fun armed harmed => absurd harmed (by simp [forget])
      paused := fun timing htiming => absurd htiming (by simp [forget]) }
  serial := Nat.le_refl _
  timer armed harmed := absurd harmed (by simp [forget])

/-- The timer's number was drawn, and the timer is not the armed one any more. -/
def Superseded (desk : RefreshDesk) (armed : ArmedTimer) : Prop :=
  armed.serial < desk.serial ∧ desk.timer ≠ some armed

instance (desk : RefreshDesk) (armed : ArmedTimer) : Decidable (desk.Superseded armed) :=
  inferInstanceAs (Decidable (_ ∧ _))

/-- A superseded timer stays superseded. -/
theorem Superseded.follows {before after : RefreshDesk} {armed : ArmedTimer} (h : before.Superseded armed)
    (hfollows : Follows before after) : after.Superseded armed := by
  refine ⟨Nat.lt_of_lt_of_le h.1 hfollows.serial, fun harmed => ?_⟩
  rcases hfollows.timer armed harmed with hbefore | hlater
  · exact h.2 hbefore
  · exact absurd h.1 (Nat.not_lt.mpr hlater)

/-- The quarantine is no part of what a desk's soundness is about. -/
theorem follows_uncertain (uncertain : Option (Option String)) : Follows desk { desk with uncertain } :=
  ⟨fun h => ⟨h.handles, h.timer, h.paused⟩, Nat.le_refl _, fun _ => .inl⟩

/-- The held timing may change in all but its identity, as long as it is not paused elsewhere. -/
theorem follows_timing {held timing : RefreshTimerState} (hheld : desk.timing = some held)
    (hserial : timing.serial = held.serial)
    (hpaused : desk.Sound → ∀ version,
      timing.pausedLifecycleVersion = some version → version = timing.lifecycleVersion) :
    Follows desk { desk with timing := some timing } where
  sound h :=
    { handles := h.handles
      timer := fun armed harmed => by
        obtain ⟨hless, htiming⟩ := h.timer armed harmed
        rw [hheld] at htiming
        exact ⟨hless, by simpa [hserial] using htiming⟩
      paused := fun other hother => by
        obtain rfl : timing = other := by simpa using hother
        exact hpaused h }
  serial := Nat.le_refl _
  timer _ := .inl

/-- A timer is armed for a timing that takes the held one's place. -/
theorem follows_armAt {timing : RefreshTimerState} {serial : ℕ} (hserial : desk.serial ≤ serial)
    (hpaused : desk.Sound → ∀ version,
      timing.pausedLifecycleVersion = some version → version = timing.lifecycleVersion) :
    Follows desk ({ desk with timing := some timing, serial := serial }.armAt moment timing) := by
  have hpaused' (h : desk.Sound) (other : RefreshTimerState) (hother : some timing = some other) :
      ∀ version, other.pausedLifecycleVersion = some version → version = other.lifecycleVersion := by
    obtain rfl : timing = other := by simpa using hother
    exact hpaused h
  have hnone (h : desk.Sound) : ({ desk with timing := some timing, serial := serial }).disarm.handles = [] :=
    disarm_handles h.handles
  -- whether the refresher is stopped decides if a new timer takes the old one's place
  unfold armAt
  cases moment.stopped with
  | true =>
    exact
      { sound := fun h =>
          { handles := hnone h
            timer := fun armed harmed => absurd harmed (by simp)
            paused := hpaused' h }
        serial := hserial
        timer := fun armed harmed => absurd harmed (by simp) }
  | false =>
    refine ⟨fun h => ⟨?_, ?_, hpaused' h⟩, Nat.le_succ_of_le hserial, ?_⟩
    · simp [hnone h]
    · intro armed harmed
      obtain rfl : _ = armed := by simpa using harmed
      simp
    · intro armed harmed
      obtain rfl : _ = armed := by simpa using harmed
      exact .inr hserial

/-- The held timing is armed again, with another due time at most. -/
theorem follows_armAt_held {held timing : RefreshTimerState} (hheld : desk.timing = some held)
    (hpaused : timing.pausedLifecycleVersion = held.pausedLifecycleVersion)
    (hversion : timing.lifecycleVersion = held.lifecycleVersion) :
    Follows desk ({ desk with timing := some timing }.armAt moment timing) := by
  refine follows_armAt (Nat.le_refl _) fun h version => ?_
  rw [hpaused, hversion]
  exact h.paused held hheld version

/-- So is putting an attempt off. -/
theorem follows_defer (expected : RefreshExpectation) (delayMs : Int) :
    Follows desk (desk.defer moment expected delayMs) := by
  unfold defer
  split
  · rename_i held hheld
    split
    · exact follows_armAt_held hheld rfl rfl
    · exact .refl _
  · exact .refl _

/-- So is a retry of what is held. -/
theorem follows_retryHeld : Follows desk (desk.retryHeld config moment) := by
  unfold retryHeld
  split
  · rename_i held hheld
    split
    · exact .refl _
    · exact follows_armAt_held hheld rfl rfl
  · exact .refl _

/-- So is looking whether a row is blocked. -/
theorem follows_blocked (row : AccountRow) : Follows desk (desk.blocked row).2 := by
  unfold blocked
  split
  · exact .refl _
  · split
    · exact .refl _
    · exact follows_uncertain none

/-- Before its exchange, a flight that raised puts its own timing off and leaves any other. -/
theorem timingAfterException_cases (timing : Option RefreshTimerState) (expected : Option RefreshExpectation)
    (observation : RefreshFlightObservation) (now minDelayMs : Int)
    (hunstarted : ∀ row, observation.exchangeStarted = true → observation.row = some row → False) :
    timingAfterException timing expected observation now minDelayMs = (timing, .unchanged) ∨
      ∃ held, timing = some held ∧ timingAfterException timing expected observation now minDelayMs =
        (some { held with dueAtMs := now + minDelayMs }, .retry) := by
  unfold timingAfterException
  split
  · rename_i held expected
    split
    · split
      · rename_i row hstarted hrow
        exact (hunstarted row hstarted hrow).elim
      · exact .inr ⟨held, rfl, rfl⟩
    · exact .inl rfl
  · exact .inl rfl

/-- So is noting a failure. -/
theorem follows_failed (expected : Option RefreshExpectation) (observation : RefreshFlightObservation)
    (aborted : Bool) : Follows desk (desk.failed config moment expected observation aborted) := by
  unfold failed
  split
  · split
    · split
      · exact follows_retryHeld
      · exact .refl _
    · exact .refl _
  · split
    · split
      · exact (follows_uncertain _).trans follows_disarm
      · exact .refl _
    · rename_i hunstarted
      split
      · exact .refl _
      · rcases timingAfterException_cases desk.timing expected observation moment.now config.minDelayMs hunstarted
          with hsame | ⟨held, hheld, hretry⟩
        · rw [hsame]
          split
          · rename_i heq
            simp at heq
          · rename_i heq
            obtain ⟨rfl, -⟩ := Prod.mk.inj heq
            exact .refl _
        · rw [hretry]
          exact follows_armAt_held hheld rfl rfl

/-- So is arming for what is held. -/
theorem follows_armHeld (settling busy : Bool) {held : RefreshTimerState} (hheld : desk.timing = some held)
    (row : AccountRow) : Follows desk (armHeld config moment settling busy desk held row) := by
  unfold armHeld
  dsimp only
  split
  · rename_i hpaused
    have hsame : Follows desk { desk with timing := some { held with lifecycleVersion := row.lifecycleVersion } } := by
      refine follows_timing hheld rfl fun _ version hversion => ?_
      rw [hpaused] at hversion
      exact (Option.some.inj hversion).symm
    exact hsame.trans follows_disarm
  · -- a timing whose version moved on is not paused any more
    generalize htiming : (if (held.pausedLifecycleVersion).isSome then _ else _ : RefreshTimerState) = timing
    have hserial : timing.serial = held.serial := by rw [← htiming]; split <;> rfl
    have hunpaused : timing.pausedLifecycleVersion = none := by
      rw [← htiming]
      split
      · rfl
      · rename_i hnone
        simpa using hnone
    have hnever : desk.Sound → ∀ version, timing.pausedLifecycleVersion = some version →
        version = timing.lifecycleVersion := fun _ version hversion => by simp [hunpaused] at hversion
    split
    · exact follows_armAt (Nat.le_refl _) hnever
    · exact follows_timing hheld hserial hnever

/-- So is arming afresh. -/
theorem follows_armFresh (row : AccountRow) (expiresAt : Int) :
    Follows desk (armFresh config moment desk row expiresAt) :=
  follows_armAt (Nat.le_succ _) fun _ version hversion => absurd hversion (by simp)

/-- So is arming for a row. -/
theorem follows_armFor (settling busy : Bool) (row : AccountRow) :
    Follows desk (desk.armFor config moment settling busy row) := by
  refine (follows_blocked row).trans ?_
  unfold armFor
  dsimp only
  split
  · exact follows_forget
  · split
    · exact follows_forget
    · split
      · rename_i held hheld
        split
        · exact follows_armHeld settling busy hheld row
        · exact follows_armFresh row _
      · exact follows_armFresh row _

/-- The callback of the armed timer finds its timing; the callback of any other timer does nothing. -/
theorem fired_eq (h : desk.Sound) (armed : ArmedTimer) :
    (desk.timer ≠ some armed ∧ desk.fired moment armed = (desk, none)) ∨
      ∃ timing, desk.timer = some armed ∧ desk.timing = some timing ∧ desk.fired moment armed =
          if moment.now < timing.dueAtMs then (desk.disarm.armAt moment timing, none)
          else (desk.disarm, some timing) := by
  by_cases harmed : desk.timer = some armed
  · obtain ⟨-, hserial⟩ := h.timer armed harmed
    obtain ⟨timing, htiming, hsame⟩ := Option.map_eq_some_iff.mp hserial
    refine .inr ⟨timing, harmed, htiming, ?_⟩
    have hdisarm : desk.disarm = { desk with timer := none, handles := desk.handles.erase armed } := by
      simp [disarm, harmed]
    rw [hdisarm]
    simp [fired, harmed, htiming, hsame]
  · refine .inl ⟨harmed, ?_⟩
    have herase : desk.handles.erase armed = desk.handles := by
      refine List.erase_of_not_mem fun hmem => harmed ?_
      rwa [h.handles, Option.mem_toList] at hmem
    unfold fired
    dsimp only
    rw [herase]
    split
    · rename_i current timing hcurrent htiming
      rw [if_pos (.inl fun heq => harmed (heq ▸ hcurrent))]
    · rfl

/-- So is a timer that fires. -/
theorem follows_fired (h : desk.Sound) (armed : ArmedTimer) : Follows desk (desk.fired moment armed).1 := by
  rcases fired_eq h armed with ⟨-, heq⟩ | ⟨timing, -, htiming, heq⟩
  · rw [heq]
    exact .refl _
  · rw [heq]
    split
    · have hheld : desk.disarm.timing = some timing := htiming
      have hsame : { desk.disarm with timing := some timing } = desk.disarm := by rw [← hheld]
      have harm : Follows desk.disarm ({ desk.disarm with timing := some timing }.armAt moment timing) :=
        follows_armAt_held hheld rfl rfl
      rw [hsame] at harm
      exact follows_disarm.trans harm
    · exact follows_disarm

/-- Where nothing is held, no timer is owed. -/
theorem kept_of_timing_none (h : desk.timing = none) : desk.Kept := fun timing htiming => by
  simp [h] at htiming

/-- A timer that is armed is kept. -/
theorem kept_of_timer (h : desk.timer.isSome) : desk.Kept := fun _ _ => .inl h

/-- What `retryHeld` does not arm is paused or quarantined. -/
theorem kept_retryHeld (h : desk.Sound) (hrunning : moment.stopped = false) :
    (desk.retryHeld config moment).Kept := by
  unfold retryHeld
  split
  · rename_i held hheld
    split
    · rename_i hleft
      intro timing htiming
      obtain rfl : held = timing := Option.some.inj (hheld.symm.trans htiming)
      rcases Bool.or_eq_true _ _ ▸ hleft with hpaused | huncertain
      · obtain ⟨version, hversion⟩ := Option.isSome_iff_exists.mp hpaused
        rw [← h.paused held hheld version hversion]
        exact .inr (.inl hversion)
      · exact .inr (.inr (by simpa using huncertain))
    · exact kept_of_timer (armAt_timer_isSome hrunning _)
  · rename_i hnone
    exact kept_of_timing_none hnone

/-- Arming for what is held leaves a timer. -/
theorem kept_armHeld (hrunning : moment.stopped = false) {settling busy : Bool}
    (hfree : settling = true ∨ busy = false) (held : RefreshTimerState) (row : AccountRow) :
    (armHeld config moment settling busy desk held row).Kept := by
  unfold armHeld
  dsimp only
  split
  · rename_i hpaused
    intro timing htiming
    obtain rfl : _ = timing := Option.some.inj htiming
    exact .inr (.inl hpaused)
  · split
    · exact kept_of_timer (armAt_timer_isSome hrunning _)
    · rename_i harmed
      refine kept_of_timer ?_
      rcases hfree with hsettling | hbusy
      · simpa [hsettling, Option.isSome_iff_ne_none] using harmed
      · simpa [hbusy, Option.isSome_iff_ne_none] using harmed

/-- Reconciling an account outside its flights, or in the `finally` of one, keeps its timer. -/
theorem kept_armFor (hrunning : moment.stopped = false) {settling busy : Bool}
    (hfree : settling = true ∨ busy = false) (row : AccountRow) :
    (desk.armFor config moment settling busy row).Kept := by
  unfold armFor
  dsimp only
  split
  · exact kept_of_timing_none rfl
  · split
    · exact kept_of_timing_none rfl
    · split
      · split
        · exact kept_armHeld hrunning hfree _ row
        · exact kept_of_timer (armAt_timer_isSome hrunning _)
      · exact kept_of_timer (armAt_timer_isSome hrunning _)

/-- Without a timing there is nothing to put off or to retry. -/
theorem defer_of_timing_none (h : desk.timing = none) (expected : RefreshExpectation) (delayMs : Int) :
    desk.defer moment expected delayMs = desk := by
  simp [defer, h]

/-- Looking whether a row is blocked keeps what is held. -/
@[simp] theorem blocked_timing (row : AccountRow) : (desk.blocked row).2.timing = desk.timing := by
  unfold blocked
  split
  · rfl
  · split <;> rfl

/-- A failure holds nothing where nothing was held. -/
theorem failed_timing_none (h : desk.timing = none) (expected : Option RefreshExpectation)
    (observation : RefreshFlightObservation) (aborted : Bool) :
    (desk.failed config moment expected observation aborted).timing = none := by
  unfold failed
  split
  · simp [h]
  · split
    · split <;> exact h
    · split
      · exact h
      · simp [timingAfterException, h]

end RefreshDesk

namespace AccountRefresh

open RefreshDesk

variable {config : RefreshConfig} {moment : RefreshMoment} {account : AccountRefresh} {flight : RefreshFlight}

/-- The account's desk is sound, its one flight is the one in the map, its timer is kept outside of
flights, and nothing is left of it but an aborted flight once the refresher is stopped. -/
structure Steady (stopped : Bool) (account : AccountRefresh) : Prop where
  sound : account.desk.Sound
  single : account.flights.map (·.number) = account.flight.toList
  kept : stopped = false → account.flight = none → account.desk.Kept
  quiet : stopped = true → account.desk.timing = none ∧ ∀ flight ∈ account.flights, flight.aborted = true

/-- Writing a flight back keeps the numbers of the flights. -/
@[simp] theorem setFlight_numbers (flight : RefreshFlight) :
    (account.setFlight flight).flights.map (·.number) = account.flights.map (·.number) := by
  simp only [setFlight, List.map_map]
  refine List.map_congr_left fun held _ => ?_
  by_cases hnumber : held.number = flight.number <;> simp [hnumber]

/-- Every flight of the account after one was moved is that one or was there. -/
theorem mem_setFlight {moved : RefreshFlight} (hmem : moved ∈ (account.setFlight flight).flights) :
    moved = flight ∨ moved ∈ account.flights := by
  obtain ⟨held, hheld, rfl⟩ := List.mem_map.mp hmem
  by_cases hnumber : held.number = flight.number
  · exact .inl (if_pos hnumber)
  · rw [if_neg hnumber]
    exact .inr hheld

/-- A stretch of a flight moves it and works on the desk, begins the `sync` of its `finally`, or
ends it. -/
inductive FlightShape (config : RefreshConfig) (moment : RefreshMoment) (account : AccountRefresh)
    (flight : RefreshFlight) : AccountRefresh → Prop
  | unchanged : FlightShape config moment account flight account
  | moved (desk : RefreshDesk) (log : List ExchangeMark) (next : RefreshFlight)
      (hdesk : Follows account.desk desk)
      (hquiet : flight.aborted = true → account.desk.timing = none → desk.timing = none)
      (hnumber : next.number = flight.number) (haborted : next.aborted = flight.aborted) :
      FlightShape config moment account flight ({ account with desk, log }.setFlight next)
  | syncing (next : RefreshFlight) (hnumber : next.number = flight.number)
      (haborted : next.aborted = flight.aborted) :
      FlightShape config moment account flight ((account.sync true).setFlight next)
  | ended : FlightShape config moment account flight (account.endFlight config moment flight)

section

variable {desk : RefreshDesk} (hdesk : Follows account.desk desk)
  (hquiet : account.desk.timing = none → desk.timing = none)
include hdesk hquiet

/-- The flight moves on after work on the desk. -/
theorem FlightShape.setDesk (next : RefreshFlight) (hnumber : next.number = flight.number)
    (haborted : next.aborted = flight.aborted) :
    FlightShape config moment account flight ({ account with desk }.setFlight next) :=
  .moved desk account.log next hdesk (fun _ => hquiet) hnumber haborted

/-- A flight that is put off, with the desk of now. -/
theorem FlightShape.deferDesk (expected : RefreshExpectation) (delayMs : Int) :
    FlightShape config moment account flight ({ account with desk }.deferred moment flight expected delayMs) := by
  refine .moved _ account.log _ (hdesk.trans (follows_defer expected delayMs)) (fun _ hnone => ?_) rfl rfl
  rw [defer_of_timing_none (hquiet hnone)]
  exact hquiet hnone

/-- A flight that pauses an exhausted account, with the desk of now. -/
theorem FlightShape.pauseDesk (expected : RefreshExpectation) (row : AccountRow) :
    FlightShape config moment account flight ({ account with desk }.pauseExhausted flight expected row) := by
  unfold pauseExhausted
  split
  · rename_i timing htiming
    split
    · rename_i hmatch
      have hpaused : Follows desk
          { desk with timing := some { timing with pausedLifecycleVersion := some row.lifecycleVersion } } :=
        follows_timing htiming rfl fun _ version hversion => by
          rw [hmatch.2.2]
          exact (Option.some.inj hversion).symm
      refine .moved _ account.log _ (hdesk.trans (hpaused.trans follows_disarm)) (fun _ hnone => ?_) rfl rfl
      exact absurd ((hquiet hnone).symm.trans htiming) (by simp)
    · exact .setDesk hdesk hquiet _ rfl rfl
  · exact .setDesk hdesk hquiet _ rfl rfl

end

/-- The desk is left alone. -/
theorem FlightShape.set (next : RefreshFlight) (hnumber : next.number = flight.number)
    (haborted : next.aborted = flight.aborted) :
    FlightShape config moment account flight (account.setFlight next) :=
  .setDesk (.refl _) id next hnumber haborted

/-- A flight that is put off. -/
theorem FlightShape.deferred (expected : RefreshExpectation) (delayMs : Int) :
    FlightShape config moment account flight (account.deferred moment flight expected delayMs) :=
  .deferDesk (.refl _) id expected delayMs

/-- A flight that takes its outcome up. -/
theorem FlightShape.apply (expected : RefreshExpectation) (outcome : RefreshOutcome) :
    FlightShape config moment account flight (account.apply config moment flight expected outcome) := by
  unfold AccountRefresh.apply
  split
  · exact .set _ rfl rfl
  · split
    · exact .set _ rfl rfl
    · split
      · exact .deferred expected _
      · exact .set _ rfl rfl
  · split <;> exact .set _ rfl rfl

/-- Counting an attempt touches nothing of the desk but the number of attempts. -/
theorem countAttempt_desk (row : AccountRow) :
    ∃ desk, (account.countAttempt row).2 = { account with desk } ∧ Follows account.desk desk ∧
      (account.desk.timing = none → desk.timing = none) := by
  unfold countAttempt
  split
  · rename_i timing htiming
    split
    · exact ⟨_, rfl, follows_timing htiming rfl fun h => h.paused timing htiming, by simp [htiming]⟩
    · exact ⟨account.desk, rfl, .refl _, id⟩
  · exact ⟨account.desk, rfl, .refl _, id⟩

/-- A flight that settles a failure. -/
theorem FlightShape.settleFailure (expected : RefreshExpectation) (reason : RefreshFailure) (observed : AccountRow)
    (latest : Option AccountRow) : FlightShape config moment account flight
      (account.settleFailure config moment flight expected reason observed latest) := by
  unfold AccountRefresh.settleFailure
  split
  · exact .deferred expected _
  · rename_i row _
    obtain ⟨desk, hcount, hdesk, hquiet⟩ := account.countAttempt_desk row
    dsimp only
    rw [hcount]
    split
    · exact .deferDesk hdesk hquiet expected _
    · split
      · exact .setDesk hdesk hquiet _ rfl rfl
      · split
        · exact .pauseDesk hdesk hquiet expected row
        · split
          · exact .deferDesk hdesk hquiet expected _
          · exact .setDesk hdesk hquiet _ rfl rfl

/-- A flight that read its row again. -/
theorem FlightShape.reread (expected : RefreshExpectation) (answer : Option AccountRow) (lockAborted : Bool) :
    FlightShape config moment account flight (account.reread config flight expected answer lockAborted) := by
  unfold AccountRefresh.reread
  dsimp only
  split
  · exact .set _ rfl rfl
  · split
    · exact .set _ rfl rfl
    · rename_i row
      have hdesk : Follows account.desk (account.desk.blocked row).2 := follows_blocked row
      have hquiet (hnone : account.desk.timing = none) : (account.desk.blocked row).2.timing = none := by
        rw [blocked_timing, hnone]
      split
      · exact .setDesk hdesk hquiet _ rfl rfl
      · split
        · exact .setDesk hdesk hquiet _ rfl rfl
        · split
          · exact .setDesk hdesk hquiet _ rfl rfl
          · exact .moved _ _ _ hdesk (fun _ => hquiet) rfl rfl

/-- A flight whose exchange was answered. -/
theorem FlightShape.exchanged (expected : RefreshExpectation) (row : AccountRow) (replies : ExchangeReplies) :
    FlightShape config moment account flight (account.exchanged flight expected row replies) := by
  unfold AccountRefresh.exchanged
  split <;> exact .moved account.desk _ _ (.refl _) (fun _ => id) rfl rfl

/-- A flight in which something raised. -/
theorem FlightShape.faulted : FlightShape config moment account flight (account.faulted flight) := by
  unfold AccountRefresh.faulted
  split
  · exact .set _ rfl rfl
  · split
    · exact .set _ rfl rfl
    · exact .unchanged
  · exact .unchanged
  · exact .set _ rfl rfl
  · exact .set _ rfl rfl
  · exact .unchanged

/-- A flight whose error was caught. -/
theorem FlightShape.caught : FlightShape config moment account flight (account.caught config moment flight) :=
  .moved _ account.log _ (follows_failed _ _ _) (fun _ hnone => failed_timing_none hnone _ _ _) rfl rfl

/-- Every stretch of a flight has one of the shapes. -/
theorem flightStep_shape (event : FlightEvent) :
    FlightShape config moment account flight (account.flightStep config moment flight event) := by
  unfold flightStep
  split
  · split
    · split
      · rename_i row _
        split
        · exact .set _ rfl rfl
        · rename_i hrunning
          refine .moved _ account.log _ (follows_armFor false account.flight.isSome row) (fun haborted => ?_) rfl rfl
          exact absurd haborted hrunning
      · exact .set _ rfl rfl
    · exact .unchanged
  · split
    · exact .set _ rfl rfl
    · exact .apply _ _
    · exact .apply _ _
  · split
    · exact .reread _ _ _
    · exact .unchanged
  · exact .exchanged _ _ _
  · split
    · exact .apply _ _
    · exact .set _ rfl rfl
  · exact .set _ rfl rfl
  · split
    · split
      · exact .set _ rfl rfl
      · exact .settleFailure _ _ _ _
    · exact .unchanged
  · split
    · exact .set _ rfl rfl
    · exact .deferred _ _
  · exact .faulted
  · exact .caught
  · exact .set _ rfl rfl
  · split
    · exact .ended
    · exact .syncing _ rfl rfl
  · split
    · exact .unchanged
    · exact .ended
  · exact .unchanged

/-- Outside of flights and while running, the timer is kept if the desk's is. -/
theorem Steady.mk_running (hrunning : moment.stopped = false) (hsound : account.desk.Sound)
    (hsingle : account.flights.map (·.number) = account.flight.toList)
    (hkept : account.flight = none → account.desk.Kept) : Steady moment.stopped account :=
  ⟨hsound, hsingle, fun _ => hkept, fun hstopped => absurd (hrunning.symm.trans hstopped) (by simp)⟩

/-- Reads and the log are no part of what is kept. -/
theorem Steady.congr {stopped : Bool} {other : AccountRefresh} (h : Steady stopped account)
    (hdesk : other.desk = account.desk) (hflight : other.flight = account.flight)
    (hflights : other.flights.map (·.number) = account.flights.map (·.number))
    (haborted : (∀ flight ∈ account.flights, flight.aborted = true) →
      ∀ flight ∈ other.flights, flight.aborted = true) : Steady stopped other where
  sound := hdesk ▸ h.sound
  single := by rw [hflights, hflight, h.single]
  kept hrunning hnone := hdesk ▸ h.kept hrunning (hflight ▸ hnone)
  quiet hstopped := ⟨hdesk ▸ (h.quiet hstopped).1, haborted (h.quiet hstopped).2⟩

/-- A flight is begun only when none is in the map, and takes over the timer's duty. -/
theorem steady_run (hrunning : moment.stopped = false) (hsound : account.desk.Sound)
    (hsingle : account.flights.map (·.number) = account.flight.toList) (expected : Option RefreshExpectation) :
    Steady moment.stopped (account.run moment expected) := by
  unfold run
  rw [hrunning, Bool.false_or]
  split
  · rename_i hflying
    exact ⟨hsound, hsingle, fun _ hnone => by simp [hnone] at hflying, fun hstopped => by simp at hstopped⟩
  · rename_i hfree
    have hnone : account.flight = none := by simpa using hfree
    have hempty : account.flights = [] := by simpa [hnone] using hsingle
    exact ⟨hsound, by simp [hempty], fun _ hnone => by simp at hnone, fun hstopped => by simp at hstopped⟩

/-- Starting a flight is steady. -/
theorem Steady.run (h : Steady moment.stopped account) (expected : Option RefreshExpectation) :
    Steady moment.stopped (account.run moment expected) := by
  cases hstopped : moment.stopped with
  | true =>
    rw [hstopped] at h
    simpa [AccountRefresh.run, hstopped] using h
  | false =>
    have hrun := steady_run hstopped h.sound h.single expected
    rwa [hstopped] at hrun

/-- A timer that fires is steady. -/
theorem Steady.fire (h : Steady moment.stopped account) (armed : ArmedTimer) :
    Steady moment.stopped (account.fire moment armed) := by
  unfold AccountRefresh.fire
  dsimp only
  rcases fired_eq h.sound armed with ⟨-, heq⟩ | ⟨timing, harmed, htiming, heq⟩
  · rw [heq]
    exact h
  · -- an armed timer says that the refresher runs
    have hrunning : moment.stopped = false := by
      by_contra hstopped
      exact absurd ((h.quiet (by simpa using hstopped)).1.symm.trans htiming) (by simp)
    have hsound : (account.desk.fired moment armed).1.Sound := (follows_fired h.sound armed).sound h.sound
    rw [heq] at hsound ⊢
    by_cases hearly : moment.now < timing.dueAtMs
    · rw [if_pos hearly] at hsound ⊢
      exact .mk_running hrunning hsound h.single fun _ => kept_of_timer (armAt_timer_isSome hrunning timing)
    · rw [if_neg hearly] at hsound ⊢
      refine steady_run hrunning ?_ ?_ _
      · exact hsound
      · exact h.single

/-- Arming for a row is steady. -/
theorem Steady.armFor (h : Steady moment.stopped account) (hrunning : moment.stopped = false) (row : AccountRow)
    (settling : Bool) : Steady moment.stopped (account.armFor config moment row settling) :=
  .mk_running hrunning ((follows_armFor settling account.flight.isSome row).sound h.sound) h.single
    fun hnone => kept_armFor hrunning (.inr (by simp [show account.flight = none from hnone])) row

/-- Reconciling is steady. -/
theorem Steady.reconcile (h : Steady moment.stopped account) (hrunning : moment.stopped = false)
    (settling : Bool) (answer : Option (Option AccountRow)) :
    Steady moment.stopped (account.reconcile config moment settling answer) := by
  unfold AccountRefresh.reconcile
  split
  · have hforget : Follows account.desk account.desk.deleted.forget := (follows_uncertain none).trans follows_forget
    exact .mk_running hrunning (hforget.sound h.sound) h.single fun _ => kept_of_timing_none rfl
  · exact h.armFor hrunning _ settling
  · split
    · exact .mk_running hrunning (follows_retryHeld.sound h.sound) h.single fun _ => kept_retryHeld h.sound hrunning
    · exact h

/-- The answer of a sync is steady. -/
theorem Steady.synced (h : Steady moment.stopped account) (version : ℕ) (answer : Option (Option AccountRow)) :
    Steady moment.stopped (account.synced config moment version answer) := by
  unfold AccountRefresh.synced
  split
  · exact h
  · split
    · have hread : Steady moment.stopped
          { account with syncs := account.syncs.filter (·.version != version) } := h.congr rfl rfl rfl id
      dsimp only
      split
      · by_cases hstopped : moment.stopped = true
        · rw [if_pos hstopped]
          exact hread.congr rfl rfl rfl id
        · rw [if_neg hstopped]
          exact (@Steady.reconcile config moment _ hread (by simpa using hstopped) _ answer).congr rfl rfl rfl id
      · exact hread
    · exact h

/-- The answer of a listing is steady. -/
theorem Steady.listed (h : Steady moment.stopped account) (read : ℕ) (answer : Option (Option AccountRow)) :
    Steady moment.stopped (account.listed config moment read answer) := by
  unfold AccountRefresh.listed
  split
  · exact h
  · split
    · have hread : Steady moment.stopped { account with lists := account.lists.eraseIdx read } :=
        h.congr rfl rfl rfl id
      dsimp only
      split
      · split
        · exact hread
        · rename_i hrunning
          exact hread.armFor (by simpa using hrunning) _ false
      · exact hread
    · exact h

/-- The answer of a parked read is steady. -/
theorem Steady.parkedRead {stopped : Bool} (h : Steady stopped account) (read : ℕ)
    (answer : Option (Option AccountRow)) : Steady stopped (account.parkedRead read answer) := by
  unfold AccountRefresh.parkedRead
  split
  · exact h
  · split
    · dsimp only
      split
      · split <;> exact h.congr rfl rfl rfl id
      · exact h.congr rfl rfl rfl id
    · exact h

/-- Releasing the lock is steady. -/
theorem Steady.released (h : Steady moment.stopped account) (ok : Bool) :
    Steady moment.stopped (account.released moment ok) := by
  have hread : Steady moment.stopped { account with releasing := account.releasing - 1 } := h.congr rfl rfl rfl id
  unfold AccountRefresh.released
  split
  · exact h
  · dsimp only
    split
    · exact hread.run none
    · exact hread

/-- A row stored from outside is steady. -/
theorem Steady.store {stopped : Bool} (h : Steady stopped account) (row : Option AccountRow) :
    Steady stopped (account.store row) := by
  refine h.congr rfl rfl ?_ fun haborted flight hmem => ?_
  · simp [AccountRefresh.store, Function.comp_def]
  · obtain ⟨held, hheld, rfl⟩ := List.mem_map.mp hmem
    exact haborted held hheld

/-- A flight that ends hands its account's timer back. -/
theorem Steady.endFlight (h : Steady moment.stopped account) (hmem : flight ∈ account.flights) :
    Steady moment.stopped (account.endFlight config moment flight) := by
  -- the flight is the one in the map, and the only one
  have hnumber : account.flight = some flight.number := by
    have hin : flight.number ∈ account.flight.toList := h.single ▸ List.mem_map_of_mem hmem
    exact Option.mem_toList.mp hin
  have hempty : account.flights.filter (·.number != flight.number) = [] := by
    refine List.filter_eq_nil_iff.mpr fun held hheld => ?_
    have hin : held.number ∈ account.flight.toList := h.single ▸ List.mem_map_of_mem hheld
    rw [hnumber] at hin
    simpa using hin
  unfold AccountRefresh.endFlight
  dsimp only
  rw [if_pos hnumber, hempty]
  split
  · rename_i hleft
    have hrunning : moment.stopped = false := by simp_all
    exact .mk_running hrunning (follows_retryHeld.sound h.sound) rfl fun _ => kept_retryHeld h.sound hrunning
  · rename_i hleft
    refine ⟨h.sound, rfl, fun hrunning _ => kept_of_timer ?_, fun hstopped => ⟨(h.quiet hstopped).1, by simp⟩⟩
    simpa [hrunning, Option.isSome_iff_ne_none] using hleft

/-- A stretch of the account's flight keeps it steady. -/
theorem Steady.flightStep (h : Steady moment.stopped account) (hmem : flight ∈ account.flights)
    (event : FlightEvent) : Steady moment.stopped (account.flightStep config moment flight event) := by
  have hflight : account.flight ≠ none := by
    intro hnone
    have hempty : account.flights = [] := by simpa [hnone] using h.single
    simp [hempty] at hmem
  have hset {next : RefreshFlight} (haborted : next.aborted = flight.aborted)
      (hall : ∀ held ∈ account.flights, held.aborted = true) {other : AccountRefresh}
      (hother : other.flights = account.flights) :
      ∀ held ∈ (other.setFlight next).flights, held.aborted = true := by
    intro held hheld
    rcases mem_setFlight hheld with rfl | hold
    · rw [haborted]
      exact hall flight hmem
    · exact hall held (hother ▸ hold)
  have hshape : FlightShape config moment account flight (account.flightStep config moment flight event) :=
    flightStep_shape event
  generalize account.flightStep config moment flight event = after at hshape ⊢
  cases hshape with
  | unchanged => exact h
  | moved desk log next hdesk hquiet hnumber haborted =>
    refine ⟨hdesk.sound h.sound, (setFlight_numbers next).trans h.single, fun _ hnone => absurd hnone hflight, ?_⟩
    intro hstopped
    obtain ⟨hnone, hall⟩ := h.quiet hstopped
    exact ⟨hquiet (hall flight hmem) hnone, hset haborted hall rfl⟩
  | syncing next hnumber haborted =>
    exact h.congr rfl rfl (setFlight_numbers next) fun hall => hset haborted hall rfl
  | ended => exact h.endFlight hmem

/-- Every stretch of work on an account keeps it steady. -/
theorem Steady.step (h : Steady moment.stopped account) (event : AccountEvent) :
    Steady moment.stopped (account.step config moment event) := by
  cases event with
  | store row => exact h.store row
  | fire armed => exact h.fire armed
  | sync => exact h.congr rfl rfl rfl id
  | synced version answer => exact h.synced version answer
  | listed read answer => exact h.listed read answer
  | refreshNow => exact h.run none
  | retryParked => exact h.congr rfl rfl rfl id
  | parkedRead read answer => exact h.parkedRead read answer
  | released ok => exact h.released ok
  | flight number event =>
    unfold AccountRefresh.step
    dsimp only
    split
    · rename_i flight hfind
      exact h.flightStep (List.mem_of_find?_eq_some hfind) event
    · exact h

/-- Starting a flight leaves the desk alone. -/
@[simp] theorem run_desk (expected : Option RefreshExpectation) :
    (account.run moment expected).desk = account.desk := by
  unfold AccountRefresh.run
  split <;> rfl

/-- The end of a flight is a step forward of the desk. -/
theorem follows_endFlight : Follows account.desk (account.endFlight config moment flight).desk := by
  unfold endFlight
  dsimp only
  split
  · split
    · exact follows_retryHeld
    · exact .refl _
  · exact .refl _

/-- So is reconciling. -/
theorem follows_reconcile (settling : Bool) (answer : Option (Option AccountRow)) :
    Follows account.desk (account.reconcile config moment settling answer).desk := by
  unfold reconcile
  split
  · exact (follows_uncertain none).trans follows_forget
  · exact follows_armFor _ _ _
  · split
    · exact follows_retryHeld
    · exact .refl _

/-- So is every step of a flight. -/
theorem follows_flightStep (event : FlightEvent) :
    Follows account.desk (account.flightStep config moment flight event).desk := by
  have hshape : FlightShape config moment account flight (account.flightStep config moment flight event) :=
    flightStep_shape event
  generalize account.flightStep config moment flight event = after at hshape ⊢
  cases hshape with
  | unchanged => exact .refl _
  | moved desk log next hdesk hquiet hnumber haborted => exact hdesk
  | syncing next hnumber haborted => exact .refl _
  | ended => exact follows_endFlight

/-- Every stretch of work on an account draws a new number for each timer it arms. -/
theorem follows_step (h : account.desk.Sound) (event : AccountEvent) :
    Follows account.desk (account.step config moment event).desk := by
  cases event with
  | store row => exact .refl _
  | fire armed =>
    change Follows account.desk (account.fire moment armed).desk
    unfold fire
    dsimp only
    split
    · rw [run_desk]
      exact follows_fired h armed
    · exact follows_fired h armed
  | sync => exact .refl _
  | synced version answer =>
    change Follows account.desk (account.synced config moment version answer).desk
    unfold synced
    split
    · exact .refl _
    · split
      · dsimp only
        split
        · by_cases hstopped : moment.stopped = true
          · rw [if_pos hstopped]
            exact .refl _
          · rw [if_neg hstopped]
            exact @follows_reconcile config moment
              { account with syncs := account.syncs.filter (·.version != version) } _ answer
        · exact .refl _
      · exact .refl _
  | listed read answer =>
    change Follows account.desk (account.listed config moment read answer).desk
    unfold listed
    split
    · exact .refl _
    · split
      · dsimp only
        split
        · split
          · exact .refl _
          · exact follows_armFor _ _ _
        · exact .refl _
      · exact .refl _
  | refreshNow =>
    change Follows account.desk (account.run moment none).desk
    rw [run_desk]
    exact .refl _
  | retryParked => exact .refl _
  | parkedRead read answer =>
    change Follows account.desk (account.parkedRead read answer).desk
    unfold parkedRead
    split
    · exact .refl _
    · split
      · dsimp only
        split
        · split <;> exact .refl _
        · exact .refl _
      · exact .refl _
  | released ok =>
    change Follows account.desk (account.released moment ok).desk
    unfold released
    split
    · exact .refl _
    · dsimp only
      split
      · rw [run_desk]
        exact .refl _
      · exact .refl _
  | flight number event =>
    unfold step
    dsimp only
    split
    · exact follows_flightStep event
    · exact .refl _

/-- `stop` leaves a steady account, whether or not it was running. -/
theorem Steady.halt {stopped : Bool} (h : Steady stopped account) : Steady true account.halt where
  sound := follows_forget.sound h.sound
  single := by simpa [AccountRefresh.halt, Function.comp_def] using h.single
  kept hrunning := absurd hrunning (by simp)
  quiet _ := by
    refine ⟨rfl, fun flight hmem => ?_⟩
    obtain ⟨held, -, rfl⟩ := List.mem_map.mp hmem
    rfl

/-- `start` finds an account without a timing, or running already. -/
theorem Steady.beginList {stopped : Bool} (h : Steady stopped account) : Steady false account.beginList where
  sound := h.sound
  single := h.single
  kept _ hnone := by
    cases stopped with
    | true => exact kept_of_timing_none (h.quiet rfl).1
    | false => exact h.kept rfl hnone
  quiet hstopped := absurd hstopped (by simp)

end AccountRefresh

namespace CredentialRefresher

open RefreshDesk

variable {config : RefreshConfig} {refresher : CredentialRefresher}

/-- Every account is steady. -/
def Steady (refresher : CredentialRefresher) : Prop :=
  ∀ account ∈ refresher.accounts, account.Steady refresher.stopped

/-- A refresher starts steady. -/
theorem steady_create (rows : List (Option AccountRow)) : (create rows).Steady := by
  intro account hmem
  obtain ⟨row, -, rfl⟩ := List.mem_map.mp hmem
  exact ⟨⟨rfl, by simp, by simp⟩, rfl, fun _ _ => kept_of_timing_none rfl, by simp [create]⟩

/-- What an account keeps at its own steps, a start and a stop, every account keeps at every step. -/
theorem step_all {motive : Bool → AccountRefresh → Prop} (event : RefresherEvent)
    (h : ∀ account ∈ refresher.accounts, motive refresher.stopped account)
    (hbegin : ∀ account ∈ refresher.accounts, motive false account.beginList)
    (hhalt : ∀ account ∈ refresher.accounts, motive true account.halt)
    (hstep : ∀ index now own, event = .account index now own → ∀ account, refresher.accounts[index]? = some account →
      motive refresher.stopped (account.step config (refresher.moment now) own)) :
    ∀ account ∈ (refresher.step config event).accounts, motive (refresher.step config event).stopped account := by
  cases event with
  | start =>
    change ∀ account ∈ refresher.start.accounts, motive refresher.start.stopped account
    unfold start
    split
    · exact h
    · exact List.forall_mem_map.mpr hbegin
  | stop =>
    change ∀ account ∈ refresher.stop.accounts, motive refresher.stop.stopped account
    unfold stop
    split
    · exact h
    · exact List.forall_mem_map.mpr hhalt
  | drained complete =>
    change ∀ account ∈ (refresher.drained complete).accounts, motive (refresher.drained complete).stopped account
    unfold drained
    split
    · exact h
    · exact h
  | account index now own =>
    intro account hmem
    obtain ⟨position, hposition⟩ := List.mem_iff_getElem?.mp hmem
    change (refresher.accounts.modify index _)[position]? = some account at hposition
    rw [List.getElem?_modify] at hposition
    obtain ⟨held, hheld, rfl⟩ := Option.map_eq_some_iff.mp hposition
    split
    · next hsame => exact hstep index now own rfl held (hsame ▸ hheld)
    · exact h held (List.mem_of_getElem? hheld)

/-- Every step keeps every account steady. -/
theorem Steady.step (h : refresher.Steady) (event : RefresherEvent) : (refresher.step config event).Steady :=
  step_all event h (fun account hmem => (h account hmem).beginList) (fun account hmem => (h account hmem).halt)
    fun _ now own _ account haccount =>
      @AccountRefresh.Steady.step config (refresher.moment now) account (h account (List.mem_of_getElem? haccount)) own

/-- It is steady after every run. -/
theorem after_steady (rows : List (Option AccountRow)) (events : List RefresherEvent) :
    (after config rows events).Steady :=
  runFrom_invariant Steady (fun _ event h => h.step event) events (create rows) (steady_create rows)

/-- A step leaves each account in its place, on a desk that follows the one before. -/
theorem step_follows (h : refresher.Steady) (event : RefresherEvent) {index : ℕ} {account : AccountRefresh}
    (haccount : refresher.accounts[index]? = some account) :
    ∃ next, (refresher.step config event).accounts[index]? = some next ∧ Follows account.desk next.desk := by
  cases event with
  | start =>
    change ∃ next, refresher.start.accounts[index]? = some next ∧ _
    unfold start
    split
    · exact ⟨account, haccount, .refl _⟩
    · exact ⟨account.beginList, by simp [haccount], .refl _⟩
  | stop =>
    change ∃ next, refresher.stop.accounts[index]? = some next ∧ _
    unfold stop
    split
    · exact ⟨account, haccount, .refl _⟩
    · exact ⟨account.halt, by simp [haccount], follows_forget⟩
  | drained complete =>
    change ∃ next, (refresher.drained complete).accounts[index]? = some next ∧ _
    unfold drained
    split <;> exact ⟨account, haccount, .refl _⟩
  | account position now event =>
    change ∃ next, (refresher.accounts.modify position _)[index]? = some next ∧ _
    rw [List.getElem?_modify, haccount]
    refine ⟨_, rfl, ?_⟩
    split
    · exact AccountRefresh.follows_step (h account (List.mem_of_getElem? haccount)).sound event
    · exact .refl _

/-- A run leaves each account in its place, on a desk that follows the one before. -/
theorem run_follows (events : List RefresherEvent) (h : refresher.Steady) {index : ℕ}
    {account : AccountRefresh} (haccount : refresher.accounts[index]? = some account) :
    ∃ next, (runFrom (step config) refresher events).accounts[index]? = some next ∧
      Follows account.desk next.desk := by
  induction events generalizing refresher account with
  | nil => exact ⟨account, haccount, .refl _⟩
  | cons event rest ih =>
    obtain ⟨middle, hmiddle, hfirst⟩ := @step_follows config refresher h event index account haccount
    obtain ⟨last, hlast, hrest⟩ := ih (h.step event) hmiddle
    exact ⟨last, hlast, hfirst.trans hrest⟩

/-- The callback of a superseded timer leaves the refresher as it was. -/
theorem step_fire_superseded (h : refresher.Steady) {index : ℕ} {account : AccountRefresh}
    (haccount : refresher.accounts[index]? = some account) {armed : ArmedTimer}
    (hsuperseded : account.desk.Superseded armed) (now : Int) :
    refresher.step config (.account index now (.fire armed)) = refresher := by
  have hsame : account.step config (refresher.moment now) (.fire armed) = account := by
    change account.fire (refresher.moment now) armed = account
    unfold AccountRefresh.fire
    rcases fired_eq (h account (List.mem_of_getElem? haccount)).sound armed with ⟨-, heq⟩ | ⟨_, harmed, -⟩
    · rw [heq]
    · exact absurd harmed hsuperseded.2
  have hmodify : refresher.accounts.modify index
      (fun account => account.step config (refresher.moment now) (.fire armed)) = refresher.accounts := by
    refine List.ext_getElem? fun position => ?_
    rw [List.getElem?_modify]
    by_cases hposition : index = position
    · subst hposition
      simp [haccount, hsame]
    · simp [hposition]
  unfold step
  dsimp only
  rw [hmodify]

/-- In every reachable state, an account that has a timing and no flight has exactly one armed timer, for that
timing, unless the timing is paused at its lifecycle version or its credential is quarantined, whatever reads are
pending. A superseded timer changes nothing. -/
theorem after_timer_kept (config : RefreshConfig) (rows : List (Option AccountRow)) (events : List RefresherEvent)
    (index : ℕ) (account : AccountRefresh) (haccount : (after config rows events).accounts[index]? = some account) :
    ((after config rows events).stopped = false → ∀ timing, account.desk.timing = some timing →
      account.flight = none → (∃ armed, account.desk.timer = some armed ∧ account.desk.handles = [armed] ∧
          armed.timing = timing.serial) ∨
        timing.pausedLifecycleVersion = some timing.lifecycleVersion ∨
        account.desk.uncertain = some timing.authMaterial) ∧
    ∀ armed, account.desk.Superseded armed → ∀ more now,
      (after config rows (events ++ more)).step config (.account index now (.fire armed)) =
        after config rows (events ++ more) := by
  have hsteady : (after config rows events).Steady := after_steady rows events
  have hold := hsteady account (List.mem_of_getElem? haccount)
  refine ⟨fun hrunning timing htiming hflight => ?_, fun armed hsuperseded more now => ?_⟩
  · rcases hold.kept hrunning hflight timing htiming with harmed | hleft
    · obtain ⟨armed, harmed⟩ := Option.isSome_iff_exists.mp harmed
      obtain ⟨-, hserial⟩ := hold.sound.timer armed harmed
      rw [htiming] at hserial
      refine .inl ⟨armed, harmed, ?_, (Option.some.inj hserial).symm⟩
      rw [hold.sound.handles, harmed, Option.toList_some]
    · exact .inr hleft
  · obtain ⟨next, hnext, hfollows⟩ := @run_follows config _ more hsteady index account haccount
    have hafter : after config rows (events ++ more) = runFrom (step config) (after config rows events) more :=
      runFrom_append _ _ _ _
    rw [hafter]
    exact step_fire_superseded (hafter ▸ after_steady rows (events ++ more)) hnext
      (hsuperseded.follows hfollows) now

/-- A refresher with the settings the tests use. -/
def exampleConfig : RefreshConfig where
  leadFraction := 3 / 4
  minDelayMs := 30000
  maxAttempts := 3
  credentialFingerprint := id

/-- An account with a credential that expires in an hour. -/
def exampleRow (authMaterial : String) : AccountRow where
  provider := .openaiOauth
  status := .active
  authMaterial := some authMaterial
  tokenExpiresAt := some 3600000
  lifecycleVersion := 1
  authRefreshSpentOn := none

/-- A started refresher whose account is signed in again, so that its first timer is superseded. -/
theorem after_timer_kept_signedIn :
    let events : List RefresherEvent :=
      [.start, .account 0 0 (.listed 0 (some (some (exampleRow "old")))),
        .account 0 1000 (.store (some (exampleRow "new"))), .account 0 1000 .sync,
        .account 0 1001 (.synced 1 (some (some (exampleRow "new"))))]
    ∃ account, (after exampleConfig [some (exampleRow "old")] events).accounts[0]? = some account ∧
      (∃ armed, account.desk.timer = some armed ∧ account.desk.handles = [armed]) ∧
      ∀ more now, (after exampleConfig [some (exampleRow "old")] (events ++ more)).step exampleConfig
          (.account 0 now (.fire ⟨1, 0, 2700000⟩)) =
        after exampleConfig [some (exampleRow "old")] (events ++ more) := by
  intro events
  have hfacts : ((after exampleConfig [some (exampleRow "old")] events).accounts[0]?).any fun account =>
      account.flight = none ∧ account.desk.Superseded ⟨1, 0, 2700000⟩ ∧ account.desk.uncertain = none ∧
        account.desk.timing.any (·.pausedLifecycleVersion.isNone) := by decide +kernel
  have hrunning : (after exampleConfig [some (exampleRow "old")] events).stopped = false := by decide +kernel
  obtain ⟨account, haccount, hfacts⟩ := (Option.any_eq_true _ _).mp hfacts
  obtain ⟨hflight, hsuperseded, hcertain, htimed⟩ := of_decide_eq_true hfacts
  obtain ⟨timing, htiming, hunpaused⟩ := (Option.any_eq_true _ _).mp htimed
  obtain ⟨hkept, hlate⟩ := after_timer_kept exampleConfig _ events 0 account haccount
  refine ⟨account, haccount, ?_, hlate _ hsuperseded⟩
  rcases hkept hrunning timing htiming hflight with ⟨armed, harmed, hone, -⟩ | hpaused | huncertain
  · exact ⟨armed, harmed, hone⟩
  · simp [hpaused] at hunpaused
  · simp [hcertain] at huncertain

end CredentialRefresher

end MultiAiRouter.Accounts
