import MultiAiRouter.Accounts.Refresh.TimerKept

/-!
# An uncertain grant is not exchanged again

An account has one flight, so one exchange, at a time. An exchange that raises quarantines its credential until a
row with another one comes. A row read before the credential was stored ends the quarantine too, and the credential
is then exchanged again.
-/

namespace MultiAiRouter.Accounts

open Common Routing

/-- An exchange of the credential raised, and the account was not deleted since; newest first. -/
def raisedSince (credential : Option String) : List ExchangeMark → Bool
  | [] => false
  | .deleted :: _ => false
  | .raised other :: earlier => other == credential || raisedSince credential earlier
  | .started _ :: earlier | .finished _ :: earlier => raisedSince credential earlier

/-- No exchange is started with a credential whose exchange raised before. -/
def neverAgain (mark : ExchangeMark) (earlier : List ExchangeMark) : Bool :=
  match mark with
  | .started credential => !raisedSince credential earlier
  | _ => true

/-- The attempt has settled its exchange, or has none. -/
def AttemptStage.closed : AttemptStage → Bool
  | .unlocking (some _) | .confirming _ | .latest _ _ _ | .recording => true
  | _ => false

/-- The flight has settled its exchange, or has none. -/
def RefreshPhase.closed : RefreshPhase → Bool
  | .attempting _ stage => stage.closed
  | .telling | .settled | .syncing _ => true
  | .beginning _ | .raised => false

/-- A row that is observed closes no phase. -/
theorem RefreshPhase.observe_closed (row : Option AccountRow) (phase : RefreshPhase) :
    (phase.observe row).closed = phase.closed := by
  cases phase with
  | attempting expected stage => cases stage <;> rfl
  | beginning _ | raised | telling | settled | syncing _ => rfl

namespace RefreshDesk

variable {config : RefreshConfig} {moment : RefreshMoment} {desk : RefreshDesk}

/-- Putting an attempt off quarantines nothing. -/
@[simp] theorem defer_uncertain (expected : RefreshExpectation) (delayMs : Int) :
    (desk.defer moment expected delayMs).uncertain = desk.uncertain := by
  unfold defer
  split
  · split
    · rw [armAt_uncertain]
    · rfl
  · rfl

/-- Nor does a retry of what is held. -/
@[simp] theorem retryHeld_uncertain : (desk.retryHeld config moment).uncertain = desk.uncertain := by
  unfold retryHeld
  split
  · split
    · rfl
    · rw [armAt_uncertain]
  · rfl

/-- Nor does arming for what is held. -/
@[simp] theorem armHeld_uncertain (settling busy : Bool) (held : RefreshTimerState) (row : AccountRow) :
    (armHeld config moment settling busy desk held row).uncertain = desk.uncertain := by
  unfold armHeld
  dsimp only
  split
  · rfl
  · split
    · rw [armAt_uncertain]
    · rfl

/-- Nor does arming afresh. -/
@[simp] theorem armFresh_uncertain (row : AccountRow) (expiresAt : Int) :
    (armFresh config moment desk row expiresAt).uncertain = desk.uncertain := by
  unfold armFresh
  rw [armAt_uncertain]

/-- Of the quarantine, reconciling an account changes only what asking for it does. -/
theorem armFor_uncertain (settling busy : Bool) (row : AccountRow) :
    (desk.armFor config moment settling busy row).uncertain = (desk.blocked row).2.uncertain := by
  unfold armFor
  dsimp only
  split
  · rfl
  · split
    · rfl
    · split
      · split
        · rw [armHeld_uncertain]
        · rw [armFresh_uncertain]
      · rw [armFresh_uncertain]

/-- Nor does a timer that fires. -/
@[simp] theorem fired_uncertain (armed : ArmedTimer) : (desk.fired moment armed).1.uncertain = desk.uncertain := by
  unfold fired
  dsimp only
  split
  · split
    · rfl
    · split
      · rw [armAt_uncertain]
      · rfl
  · rfl

/-- Either a row leaves the quarantine as it is, or it holds another credential. -/
theorem blocked_uncertain (row : AccountRow) :
    (desk.blocked row).2.uncertain = desk.uncertain ∨ (desk.blocked row).2.uncertain = none ∧
      ∀ credential, (some row).map (·.authMaterial) = some credential → desk.uncertain ≠ some credential := by
  unfold blocked
  split
  · exact .inl rfl
  · rename_i held hheld
    split
    · exact .inl rfl
    · rename_i hother
      refine .inr ⟨rfl, fun credential hrow hmarked => hother ?_⟩
      have hsame : held = credential := Option.some.inj (hheld.symm.trans hmarked)
      rw [hsame]
      simpa using hrow.symm

/-- A flight that raised quarantines the credential of an exchange it did not see the outcome of. -/
theorem failed_uncertain (expected : Option RefreshExpectation) (observation : RefreshFlightObservation)
    (aborted : Bool) : (desk.failed config moment expected observation aborted).uncertain =
      match observation.exchangeFinished, observation.exchangeStarted, observation.row with
      | false, true, some row =>
        if desk.timing.all (·.authMaterial == row.authMaterial) then some row.authMaterial else desk.uncertain
      | _, _, _ => desk.uncertain := by
  unfold failed
  split
  · rename_i hfinished
    rw [hfinished]
    split
    · split
      · rw [retryHeld_uncertain]
      · rfl
    · rfl
  · rename_i hfinished
    rw [Bool.not_eq_true] at hfinished
    rw [hfinished]
    split
    · rename_i row hstarted hrow
      rw [hstarted, hrow]
      dsimp only
      split <;> rfl
    · rename_i hunstarted
      have hsame : (match false, observation.exchangeStarted, observation.row with
          | false, true, some row =>
            if desk.timing.all (·.authMaterial == row.authMaterial) then some row.authMaterial else desk.uncertain
          | _, _, _ => desk.uncertain) = desk.uncertain := by
        split
        · rename_i row _ hstarted hrow
          exact (hunstarted row hstarted hrow).elim
        · rfl
      rw [hsame]
      split
      · rfl
      · split
        · rw [armAt_uncertain]
        · rfl

/-- A row that is not blocked holds no quarantined credential, and leaves no quarantine. -/
theorem blocked_eq_false {row : AccountRow} (h : (desk.blocked row).1 = false) :
    (desk.blocked row).2.uncertain = none ∧ desk.uncertain ≠ some row.authMaterial := by
  unfold blocked at h ⊢
  split
  · rename_i hnone
    exact ⟨hnone, by simp [hnone]⟩
  · rename_i held hheld
    by_cases hsame : held = row.authMaterial
    · simp [hheld, hsame] at h
    · exact ⟨by simp [hsame], by simpa [hheld] using hsame⟩

end RefreshDesk

namespace RefreshFlight

/-- The flight's exchange is running. -/
def exchanging (flight : RefreshFlight) : Bool :=
  match flight.phase with
  | .attempting _ (.exchanging _) => true
  | _ => false

/-- The flight's exchange of the credential raised, and its `catch` has not run. -/
def Raised (flight : RefreshFlight) (credential : Option String) : Prop :=
  ((∃ expected, flight.phase = .attempting expected (.unlocking none)) ∨ flight.phase = .raised) ∧
    flight.observation.exchangeStarted = true ∧ flight.observation.exchangeFinished = false ∧
    flight.observation.row.map (·.authMaterial) = some credential

/-- The flight's exchange has started and is not settled. -/
def Open (flight : RefreshFlight) : Prop :=
  flight.observation.exchangeStarted = true ∧ flight.observation.exchangeFinished = false ∧
    flight.phase.closed = false

/-- The flight started no exchange, or saw its outcome. -/
def Settled (flight : RefreshFlight) : Prop :=
  flight.observation.exchangeStarted = true → flight.observation.exchangeFinished = true

/-- The observation of a flight is true to its exchange. -/
def Tidy (flight : RefreshFlight) : Prop :=
  match flight.phase with
  | .beginning _ | .attempting _ .locking | .attempting _ (.rereading _) => flight.observation = {}
  | .attempting _ (.exchanging row) => flight.observation = { row := some row, exchangeStarted := true }
  | .attempting _ (.unlocking none) | .raised | .telling | .settled | .syncing _ => True
  | .attempting _ _ => flight.Settled

/-- A settled flight of a closed phase is tidy. -/
theorem tidy_of_closed {flight : RefreshFlight} (h : flight.phase.closed = true) (hsettled : flight.Settled) :
    flight.Tidy := by
  unfold Tidy
  split <;> simp_all [RefreshPhase.closed, AttemptStage.closed]

/-- An attempt whose exchange is settled saw its outcome. -/
theorem Tidy.known {flight : RefreshFlight} (h : flight.Tidy) {expected : RefreshExpectation} {stage : AttemptStage}
    (hphase : flight.phase = .attempting expected stage) : flight.phase.closed = false ∨ flight.Settled := by
  rw [Tidy, hphase] at h
  rw [hphase]
  cases stage with
  | locking | rereading _ | exchanging _ => exact .inl rfl
  | unlocking result =>
    cases result with
    | none => exact .inl rfl
    | some _ => exact .inr h
  | confirming _ | latest _ _ _ | recording => exact .inr h

/-- A write of the row leaves where a flight stands. -/
theorem Tidy.observe {flight : RefreshFlight} (h : flight.Tidy) (row : Option AccountRow) :
    ({ flight with phase := flight.phase.observe row } : RefreshFlight).Tidy := by
  obtain ⟨number, requested, observation, aborted, phase⟩ := flight
  cases phase with
  | attempting expected stage => cases stage <;> exact h
  | beginning _ | raised | telling | settled | syncing _ => exact h

/-- A flight that raised has raised, whatever is observed. -/
theorem Raised.observe {flight : RefreshFlight} {credential : Option String} (h : flight.Raised credential)
    (row : Option AccountRow) :
    ({ flight with phase := flight.phase.observe row } : RefreshFlight).Raised credential := by
  refine ⟨?_, h.2⟩
  rcases h.1 with ⟨expected, hphase⟩ | hphase
  · exact .inl ⟨expected, by rw [hphase]; rfl⟩
  · exact .inr (by rw [hphase]; rfl)

/-- A closed phase is not open. -/
theorem not_open_of_closed {flight : RefreshFlight} (h : flight.phase.closed = true) : ¬ flight.Open :=
  fun hopen => absurd (h.symm.trans hopen.2.2) (by simp)

/-- A closed phase has not raised. -/
theorem not_raised_of_closed {flight : RefreshFlight} (h : flight.phase.closed = true)
    (credential : Option String) : ¬ flight.Raised credential := by
  rintro ⟨⟨expected, hphase⟩ | hphase, -⟩
  · simp [hphase, RefreshPhase.closed, AttemptStage.closed] at h
  · simp [hphase, RefreshPhase.closed] at h

/-- A settled flight has not raised. -/
theorem Settled.not_raised {flight : RefreshFlight} (h : flight.Settled) (credential : Option String) :
    ¬ flight.Raised credential :=
  fun hraised => absurd ((h hraised.2.1).symm.trans hraised.2.2.1) (by simp)

end RefreshFlight

namespace AccountRefresh

/-- The credential is the stored one. -/
def holds (account : AccountRefresh) (credential : Option String) : Bool :=
  account.stored.map (·.authMaterial) == some credential

/-- The row a read answered does not deny a quarantined credential that is still stored. -/
def agrees (account : AccountRefresh) (answer : Option AccountRow) : Bool :=
  account.desk.uncertain.all fun credential =>
    !account.holds credential || answer.map (·.authMaterial) == some credential

/-- A row that brings a credential whose exchange raised is the stored one's. -/
def unretired (account : AccountRefresh) (row : AccountRow) : Bool :=
  !raisedSince row.authMaterial account.log || account.holds row.authMaterial

/-- What a flight acts on is not out of date: the row it read, or the timing its raised exchange leaves in charge.
-/
def flightCurrent (account : AccountRefresh) (flight : RefreshFlight) (event : FlightEvent) : Bool :=
  match flight.phase, event with
  | .beginning _, .begun (some row) => flight.aborted || account.agrees (some row)
  | .attempting _ (.rereading _), .reread (some row) lockAborted =>
    lockAborted || flight.aborted || (account.agrees (some row) && account.unretired row)
  | .raised, .caught =>
    !flight.observation.exchangeStarted || flight.observation.exchangeFinished ||
      flight.observation.row.all fun row =>
        account.desk.timing.all (·.authMaterial == row.authMaterial) || !account.holds row.authMaterial
  | _, _ => true

/-- What the refresher acts on is not out of date, and no credential is stored again that was replaced
after its exchange raised. -/
def current (moment : RefreshMoment) (account : AccountRefresh) : AccountEvent → Bool
  | .store (some row) => account.unretired row
  | .synced version (some answer) => account.reads != some version || moment.stopped || account.agrees answer
  | .listed _ (some (some row)) => moment.stopped || account.agrees (some row)
  | .flight number event =>
    account.flights.all fun flight => flight.number != number || account.flightCurrent flight event
  | _ => true

/-- The account's running exchanges. -/
def exchanges (account : AccountRefresh) : List RefreshFlight := account.flights.filter (·.exchanging)

/-- At most one exchange is running, and none was started with a credential whose exchange raised. -/
def ExchangedOnce (account : AccountRefresh) : Prop :=
  account.exchanges.length ≤ 1 ∧ EveryEntry (fun mark earlier => neverAgain mark earlier = true) account.log

instance (account : AccountRefresh) : Decidable account.ExchangedOnce :=
  inferInstanceAs (Decidable (_ ∧ _))

/-- The exchanges so far were started once, and a credential whose exchange raised is quarantined, or is
no longer stored, or its flight is about to quarantine it. -/
structure Guarded (account : AccountRefresh) : Prop where
  tidy : ∀ flight ∈ account.flights, flight.Tidy
  clear : ∀ flight ∈ account.flights, flight.Open → account.desk.uncertain = none
  log : EveryEntry (fun mark earlier => neverAgain mark earlier = true) account.log
  raised : ∀ credential, raisedSince credential account.log = true →
    account.desk.uncertain = some credential ∨ account.holds credential = false ∨
      ∃ flight ∈ account.flights, flight.Raised credential

variable {config : RefreshConfig} {moment : RefreshMoment} {account after : AccountRefresh}
  {flight next : RefreshFlight}

/-- The guard is about the stored row, the quarantine, the flights and the log only. -/
theorem Guarded.congr (h : account.Guarded) (hstored : after.stored = account.stored)
    (huncertain : after.desk.uncertain = account.desk.uncertain) (hflights : after.flights = account.flights)
    (hlog : after.log = account.log) : after.Guarded where
  tidy := hflights ▸ h.tidy
  clear := by
    rw [hflights, huncertain]
    exact h.clear
  log := hlog ▸ h.log
  raised credential hraised := by
    rw [huncertain, hflights]
    simpa [holds, hstored] using h.raised credential (hlog ▸ hraised)

/-- The quarantine ends on a row that agrees with the stored one. -/
theorem Guarded.unquarantine (h : account.Guarded) (hstored : after.stored = account.stored)
    (hflights : after.flights = account.flights) (hlog : after.log = account.log)
    {answer : Option AccountRow} (hagrees : account.agrees answer = true)
    (huncertain : after.desk.uncertain = account.desk.uncertain ∨ after.desk.uncertain = none ∧
      ∀ credential, answer.map (·.authMaterial) = some credential → account.desk.uncertain ≠ some credential) :
    after.Guarded := by
  rcases huncertain with hsame | ⟨hnone, hother⟩
  · exact h.congr hstored hsame hflights hlog
  refine ⟨hflights ▸ h.tidy, fun _ _ _ => hnone, hlog ▸ h.log, fun credential hraised => ?_⟩
  rw [hflights]
  rcases h.raised credential (hlog ▸ hraised) with hmarked | hgone | hflying
  · -- the row is another one's, so the quarantined credential is not the stored one
    refine .inr (.inl ?_)
    by_contra hholds
    have hheld : account.holds credential = true := by simpa [holds, hstored] using hholds
    have hrow : answer.map (·.authMaterial) = some credential := by
      simpa [agrees, hmarked, hheld] using hagrees
    exact hother credential hrow hmarked
  · exact .inr (.inl (by simpa [holds, hstored] using hgone))
  · exact .inr (.inr hflying)

/-- A stretch that leaves the stored row, the quarantine and the log, and settles its flight's
exchange. -/
structure Calm (account : AccountRefresh) (flight : RefreshFlight) (after : AccountRefresh) : Prop where
  stored : after.stored = account.stored
  uncertain : after.desk.uncertain = account.desk.uncertain
  log : after.log = account.log
  flights : ∃ next, after.flights = (account.setFlight next).flights ∧ next.number = flight.number ∧
    next.observation = flight.observation ∧ next.phase.closed = true

section

variable {desk : RefreshDesk} (hdesk : desk.uncertain = account.desk.uncertain)
include hdesk

/-- A closed flight and a desk that quarantines the same. -/
theorem calm_setDesk {phase : RefreshPhase} (hclosed : phase.closed = true) :
    Calm account flight ({ account with desk }.setFlight { flight with phase }) :=
  ⟨rfl, hdesk, rfl, _, rfl, rfl, rfl, hclosed⟩

/-- An attempt that is put off, with the desk of now. -/
theorem calm_deferDesk (expected : RefreshExpectation) (delayMs : Int) :
    Calm account flight ({ account with desk }.deferred moment flight expected delayMs) :=
  ⟨rfl, (RefreshDesk.defer_uncertain expected delayMs).trans hdesk, rfl, _, rfl, rfl, rfl, rfl⟩

/-- An exhausted account that is paused, with the desk of now. -/
theorem calm_pauseDesk (expected : RefreshExpectation) (row : AccountRow) :
    Calm account flight ({ account with desk }.pauseExhausted flight expected row) := by
  unfold pauseExhausted
  split
  · split
    · exact ⟨rfl, hdesk, rfl, _, rfl, rfl, rfl, rfl⟩
    · exact calm_setDesk hdesk rfl
  · exact calm_setDesk hdesk rfl

end

/-- An outcome that is taken up. -/
theorem calm_apply (expected : RefreshExpectation) (outcome : RefreshOutcome) :
    Calm account flight (account.apply config moment flight expected outcome) := by
  unfold apply
  split
  · exact calm_setDesk rfl rfl
  · split
    · exact calm_setDesk rfl rfl
    · split
      · exact calm_deferDesk rfl expected _
      · exact calm_setDesk rfl rfl
  · split <;> exact calm_setDesk rfl rfl

/-- Counting an attempt quarantines nothing. -/
theorem countAttempt_uncertain (row : AccountRow) :
    ∃ desk, (account.countAttempt row).2 = { account with desk } ∧ desk.uncertain = account.desk.uncertain := by
  unfold countAttempt
  split
  · split
    · exact ⟨_, rfl, rfl⟩
    · exact ⟨account.desk, rfl, rfl⟩
  · exact ⟨account.desk, rfl, rfl⟩

/-- A failure that is settled. -/
theorem calm_settleFailure (expected : RefreshExpectation) (reason : RefreshFailure) (observed : AccountRow)
    (latest : Option AccountRow) :
    Calm account flight (account.settleFailure config moment flight expected reason observed latest) := by
  unfold settleFailure
  split
  · exact calm_deferDesk rfl expected _
  · rename_i row _
    obtain ⟨desk, hcount, hdesk⟩ := account.countAttempt_uncertain row
    dsimp only
    rw [hcount]
    split
    · exact calm_deferDesk hdesk expected _
    · split
      · exact calm_setDesk hdesk rfl
      · split
        · exact calm_pauseDesk hdesk expected row
        · split
          · exact calm_deferDesk hdesk expected _
          · exact calm_setDesk hdesk rfl

/-- An account has one flight at most. -/
theorem flights_length_le (hsingle : account.flights.map (·.number) = account.flight.toList) :
    account.flights.length ≤ 1 := by
  rw [← List.length_map (·.number), hsingle]
  cases account.flight <;> simp

/-- The account's flights are the one in the map. -/
theorem flights_one (hsingle : account.flights.map (·.number) = account.flight.toList)
    (hmem : flight ∈ account.flights) : account.flights = [flight] := by
  have hlength : account.flights.length ≤ 1 := flights_length_le hsingle
  obtain ⟨held, hheld⟩ := List.length_eq_one_iff.mp (Nat.le_antisymm hlength (List.length_pos_of_mem hmem))
  rw [hheld] at hmem ⊢
  rw [List.mem_singleton.mp hmem]

/-- Writing the one flight back leaves one. -/
theorem setFlight_one (hone : account.flights = [flight]) (hnumber : next.number = flight.number) :
    (account.setFlight next).flights = [next] := by
  simp [setFlight, hone, hnumber]

/-- The account's one flight moves on, and an exchange of it that raised is not forgotten. -/
theorem Guarded.move (h : account.Guarded) (hone : account.flights = [flight])
    (hstored : after.stored = account.stored) (huncertain : after.desk.uncertain = account.desk.uncertain)
    (hlog : after.log = account.log) (hflights : after.flights = [next]) (htidy : next.Tidy)
    (hopen : next.Open → account.desk.uncertain = none)
    (hraised : ∀ credential, flight.Raised credential → next.Raised credential) : after.Guarded where
  tidy := by simpa [hflights] using htidy
  clear held hmem hheld := by
    obtain rfl : held = next := by simpa [hflights] using hmem
    rw [huncertain]
    exact hopen hheld
  log := hlog ▸ h.log
  raised credential hsince := by
    rw [huncertain, hflights]
    rcases h.raised credential (hlog ▸ hsince) with hmarked | hgone | ⟨held, hmem, hheld⟩
    · exact .inl hmarked
    · exact .inr (.inl (by simpa [holds, hstored] using hgone))
    · rw [hone, List.mem_singleton] at hmem
      exact .inr (.inr ⟨next, by simp, hraised credential (hmem ▸ hheld)⟩)

/-- A calm step keeps the account guarded. -/
theorem Guarded.calm (h : account.Guarded) (hone : account.flights = [flight])
    (hsettled : flight.Settled) (hcalm : Calm account flight after) : after.Guarded := by
  obtain ⟨next, hflights, hnumber, hobserved, hclosed⟩ := hcalm.flights
  rw [setFlight_one hone hnumber] at hflights
  have htidy : next.Tidy := by
    refine RefreshFlight.tidy_of_closed hclosed ?_
    rwa [RefreshFlight.Settled, hobserved]
  exact h.move hone hcalm.stored hcalm.uncertain hcalm.log hflights htidy
    (fun hopen => absurd hopen (RefreshFlight.not_open_of_closed hclosed))
    fun credential hraised => absurd hraised (hsettled.not_raised credential)

/-- A mark that starts nothing again and raises nothing may be logged. -/
theorem Guarded.mark (h : account.Guarded) {mark : ExchangeMark} (hmark : neverAgain mark account.log = true)
    (hsame : ∀ credential, raisedSince credential (mark :: account.log) = raisedSince credential account.log) :
    ({ account with log := mark :: account.log }).Guarded where
  tidy := h.tidy
  clear := h.clear
  log := ⟨hmark, h.log⟩
  raised credential hraised := h.raised credential ((hsame credential).symm.trans hraised)

/-- The row reread under the lock starts no exchange that raised before. -/
theorem Guarded.reread (h : account.Guarded) (hone : account.flights = [flight]) {expected : RefreshExpectation}
    {seen : SeenRows} (hphase : flight.phase = .attempting expected (.rereading seen)) (answer : Option AccountRow)
    (lockAborted : Bool) (hcurrent : account.flightCurrent flight (.reread answer lockAborted) = true) :
    (account.reread config flight expected answer lockAborted).Guarded := by
  have hempty : flight.observation = {} := by
    simpa [RefreshFlight.Tidy, hphase] using h.tidy flight (by simp [hone])
  have hsettled : flight.Settled := by simp [RefreshFlight.Settled, hempty]
  unfold AccountRefresh.reread
  dsimp only
  split
  · exact h.calm hone hsettled (calm_setDesk rfl rfl)
  · rename_i hlocked
    split
    · exact h.calm hone hsettled (calm_setDesk rfl rfl)
    · rename_i row
      obtain ⟨hagrees, hunretired⟩ : account.agrees (some row) = true ∧ account.unretired row = true := by
        simpa [flightCurrent, hphase, Bool.or_assoc, Bool.or_eq_true, hlocked] using hcurrent
      -- asking for the quarantine may end it
      have hasked : ({ account with desk := (account.desk.blocked row).2 }).Guarded :=
        h.unquarantine rfl rfl rfl hagrees (RefreshDesk.blocked_uncertain row)
      split
      · exact hasked.calm hone hsettled (calm_setDesk rfl rfl)
      · rename_i hfree
        split
        · exact hasked.calm hone hsettled (calm_setDesk rfl rfl)
        · split
          · exact hasked.calm hone hsettled (calm_setDesk rfl rfl)
          · obtain ⟨hnone, hunmarked⟩ := RefreshDesk.blocked_eq_false (by simpa using hfree)
            have hfirst : raisedSince row.authMaterial account.log = false := by
              by_contra hraised
              have hraised : raisedSince row.authMaterial account.log = true := by simpa using hraised
              have hholds : account.holds row.authMaterial = true := by simpa [unretired, hraised] using hunretired
              rcases h.raised row.authMaterial hraised with hmarked | hgone | ⟨held, hmem, hheld⟩
              · exact hunmarked hmarked
              · exact absurd (hholds.symm.trans hgone) (by simp)
              · rw [hone, List.mem_singleton] at hmem
                exact hsettled.not_raised _ (hmem ▸ hheld)
            have hstarted : ({ account with
                desk := (account.desk.blocked row).2
                log := .started row.authMaterial :: account.log }).Guarded :=
              hasked.mark (by simpa [neverAgain] using hfirst) fun _ => rfl
            refine hstarted.move hone rfl rfl rfl (setFlight_one hone rfl) ?_ (fun _ => hnone) ?_
            · simp [RefreshFlight.Tidy, hempty]
            · exact fun credential hraised => absurd hraised (hsettled.not_raised credential)

/-- An exchange that raised leaves its flight to quarantine the credential. -/
theorem Guarded.exchanged (h : account.Guarded) (hone : account.flights = [flight])
    {expected : RefreshExpectation} {row : AccountRow} (hphase : flight.phase = .attempting expected (.exchanging row))
    (replies : ExchangeReplies) : (account.exchanged flight expected row replies).Guarded := by
  have hquiet (credential : Option String) : ¬ flight.Raised credential := by
    rintro ⟨⟨_, hraised⟩ | hraised, -⟩ <;> simp [hphase] at hraised
  have hobserved : flight.observation = { row := some row, exchangeStarted := true } := by
    simpa [RefreshFlight.Tidy, hphase] using h.tidy flight (by simp [hone])
  unfold AccountRefresh.exchanged
  split
  · have hfinished : ({ account with log := .finished row.authMaterial :: account.log }).Guarded :=
      h.mark rfl fun _ => rfl
    refine hfinished.move hone rfl rfl rfl (setFlight_one hone rfl) ?_ (fun hopen => ?_) ?_
    · simp [RefreshFlight.Tidy, RefreshFlight.Settled]
    · simp [RefreshFlight.Open] at hopen
    · exact fun credential hraised => absurd hraised (hquiet credential)
  · have hclear : account.desk.uncertain = none := by
      refine h.clear flight (by simp [hone]) ⟨?_, ?_, ?_⟩ <;>
        simp [hobserved, hphase, RefreshPhase.closed, AttemptStage.closed]
    have hflights := @setFlight_one { account with log := .raised row.authMaterial :: account.log } flight
      { flight with phase := .attempting expected (.unlocking none) } hone rfl
    refine ⟨fun held hmem => ?_, fun _ _ _ => hclear, ⟨rfl, h.log⟩, fun credential hsince => ?_⟩
    · rw [hflights, List.mem_singleton] at hmem
      simp [hmem, RefreshFlight.Tidy]
    · rw [hflights]
      by_cases hsame : row.authMaterial = credential
      · refine .inr (.inr ⟨_, List.mem_singleton.mpr rfl, .inl ⟨expected, rfl⟩, ?_, ?_, ?_⟩) <;>
          simp [hobserved, hsame]
      · have hearlier : raisedSince credential account.log = true := by
          simpa [setFlight, raisedSince, hsame] using hsince
        rcases h.raised credential hearlier with hmarked | hgone | ⟨held, hmem, hheld⟩
        · exact .inl hmarked
        · exact .inr (.inl hgone)
        · rw [hone, List.mem_singleton] at hmem
          exact absurd (hmem ▸ hheld) (hquiet credential)

/-- A flight that raises keeps what is known of its exchange. -/
theorem Guarded.raise (h : account.Guarded) (hone : account.flights = [flight])
    (hknown : flight.phase.closed = false ∨ flight.Settled) :
    (account.setFlight { flight with phase := .raised }).Guarded := by
  refine h.move hone rfl rfl rfl (setFlight_one hone rfl) trivial (fun hnext => ?_) ?_
  · rcases hknown with hopen | hsettled
    · exact h.clear flight (by simp [hone]) ⟨hnext.1, hnext.2.1, hopen⟩
    · exact absurd ((hsettled hnext.1).symm.trans hnext.2.1) (by simp)
  · exact fun credential hraised => ⟨.inr rfl, hraised.2⟩

/-- So does a flight in which something raised. -/
theorem Guarded.faulted (h : account.Guarded) (hone : account.flights = [flight]) :
    (account.faulted flight).Guarded := by
  have htidy := h.tidy flight (by simp [hone])
  unfold AccountRefresh.faulted
  split
  · rename_i expected seen hphase
    have hempty : flight.observation = {} := by simpa [RefreshFlight.Tidy, hphase] using htidy
    refine h.move hone rfl rfl rfl (setFlight_one hone rfl) trivial (fun hnext => ?_) fun credential hraised => ?_
    · simp [RefreshFlight.Open, hempty] at hnext
    · simp [RefreshFlight.Raised, hempty] at hraised
  · rename_i hphase
    split
    · exact h.raise hone (htidy.known hphase)
    · exact h
  · exact h
  · rename_i hphase
    exact h.raise hone (.inl (by simp [hphase, RefreshPhase.closed]))
  · rename_i hphase
    exact h.raise hone (htidy.known hphase)
  · exact h

/-- What catching an error does to the flight and the desk. -/
theorem caught_eq : ∃ phase : RefreshPhase, (phase = .telling ∨ phase = .settled) ∧
    account.caught config moment flight =
      { account with
        desk := account.desk.failed config moment flight.requested flight.observation flight.aborted }.setFlight
        { flight with phase } := by
  refine ⟨_, ?_, rfl⟩
  split
  · exact .inl rfl
  · exact .inr rfl

/-- The `catch` of a flight whose exchange raised quarantines the credential, or finds it replaced. -/
theorem Guarded.caught (h : account.Guarded) (hone : account.flights = [flight]) (hphase : flight.phase = .raised)
    (hcurrent : account.flightCurrent flight .caught = true) : (account.caught config moment flight).Guarded := by
  have hmem : flight ∈ account.flights := by simp [hone]
  obtain ⟨phase, htold, heq⟩ := @caught_eq config moment account flight
  rw [heq]
  have hflights := @setFlight_one
    { account with desk := account.desk.failed config moment flight.requested flight.observation flight.aborted }
    flight { flight with phase } hone rfl
  have hclosed : ({ flight with phase } : RefreshFlight).phase.closed = true := by
    rcases htold with rfl | rfl <;> rfl
  refine ⟨fun held hheld => ?_, fun held hheld hopen => ?_, h.log, fun credential hsince => ?_⟩
  · rw [hflights, List.mem_singleton] at hheld
    rw [hheld]
    rcases htold with rfl | rfl <;> trivial
  · rw [hflights, List.mem_singleton] at hheld
    rw [hheld] at hopen
    exact absurd hopen (RefreshFlight.not_open_of_closed hclosed)
  · change (account.desk.failed config moment flight.requested flight.observation flight.aborted).uncertain =
      some credential ∨ account.holds credential = false ∨ _
    rw [RefreshDesk.failed_uncertain]
    rcases h.raised credential hsince with hmarked | hgone | ⟨held, hheld, hraised⟩
    · -- while an exchange is not settled nothing is quarantined
      refine .inl ?_
      split
      · rename_i row hfinished hstarted hrow
        have hnone := h.clear flight hmem ⟨hstarted, hfinished, by simp [hphase, RefreshPhase.closed]⟩
        exact absurd (hnone.symm.trans hmarked) (by simp)
      · exact hmarked
    · exact .inr (.inl hgone)
    · rw [hone, List.mem_singleton] at hheld
      obtain ⟨-, hstarted, hfinished, hobserved⟩ := hheld ▸ hraised
      obtain ⟨row, hrow, rfl⟩ := Option.map_eq_some_iff.mp hobserved
      rw [hstarted, hfinished, hrow]
      by_cases htiming : account.desk.timing.all (·.authMaterial == row.authMaterial) = true
      · exact .inl (if_pos htiming)
      · refine .inr (.inl ?_)
        simpa [flightCurrent, hphase, hstarted, hfinished, hrow, htiming] using hcurrent

/-- Arming for a row keeps the account guarded. -/
theorem Guarded.armFor (h : account.Guarded) {row : AccountRow} (hagrees : account.agrees (some row) = true)
    (settling : Bool) : (account.armFor config moment row settling).Guarded := by
  refine h.unquarantine rfl rfl rfl hagrees ?_
  change (account.desk.armFor config moment settling account.flight.isSome row).uncertain = _ ∨
    (account.desk.armFor config moment settling account.flight.isSome row).uncertain = none ∧ _
  rw [RefreshDesk.armFor_uncertain]
  exact RefreshDesk.blocked_uncertain row

/-- A flight that leaves the map has settled its exchange. -/
theorem Guarded.endFlight (h : account.Guarded) (hone : account.flights = [flight])
    (hquiet : ∀ credential, ¬ flight.Raised credential) : (account.endFlight config moment flight).Guarded := by
  have hleft : ({ account with flights := account.flights.filter (·.number != flight.number) }).Guarded := by
    refine ⟨by simp [hone], by simp [hone], h.log, fun credential hsince => ?_⟩
    rcases h.raised credential hsince with hmarked | hgone | ⟨held, hmem, hheld⟩
    · exact .inl hmarked
    · exact .inr (.inl hgone)
    · rw [hone, List.mem_singleton] at hmem
      exact absurd (hmem ▸ hheld) (hquiet credential)
  unfold AccountRefresh.endFlight
  dsimp only
  split
  · split
    · exact hleft.congr rfl RefreshDesk.retryHeld_uncertain rfl rfl
    · exact hleft.congr rfl rfl rfl rfl
  · exact hleft

/-- A stretch of the account's flight that acts on nothing out of date keeps the guard. -/
theorem Guarded.flightStep (h : account.Guarded) (hone : account.flights = [flight]) (event : FlightEvent)
    (hcurrent : account.flightCurrent flight event = true) :
    (account.flightStep config moment flight event).Guarded := by
  have htidy := h.tidy flight (by simp [hone])
  unfold AccountRefresh.flightStep
  split
  · -- the row a flight begins with
    rename_i seen answer hphase
    have hempty : flight.observation = {} := by simpa [RefreshFlight.Tidy, hphase] using htidy
    have hsettled : flight.Settled := by simp [RefreshFlight.Settled, hempty]
    split
    · split
      · rename_i row _
        split
        · exact h.calm hone hsettled (calm_setDesk rfl rfl)
        · rename_i hrunning
          have hagrees : account.agrees (some row) = true := by
            simpa [flightCurrent, hphase, hrunning] using hcurrent
          refine (h.armFor hagrees false).move hone rfl rfl rfl (setFlight_one hone rfl) ?_ (fun hopen => ?_) ?_
          · exact hempty
          · simp [RefreshFlight.Open, hempty] at hopen
          · exact fun credential hraised => absurd hraised (hsettled.not_raised credential)
      · exact h.calm hone hsettled (calm_setDesk rfl rfl)
    · exact h
  · rename_i expected reply hphase
    have hempty : flight.observation = {} := by simpa [RefreshFlight.Tidy, hphase] using htidy
    have hsettled : flight.Settled := by simp [RefreshFlight.Settled, hempty]
    split
    · refine h.move hone rfl rfl rfl (setFlight_one hone rfl) ?_ (fun hopen => ?_) ?_
      · exact hempty
      · simp [RefreshFlight.Open, hempty] at hopen
      · exact fun credential hraised => absurd hraised (hsettled.not_raised credential)
    · exact h.calm hone hsettled (calm_apply expected _)
    · exact h.calm hone hsettled (calm_apply expected _)
  · rename_i hphase
    split
    · exact h.reread hone hphase _ _ hcurrent
    · exact h
  · rename_i hphase
    exact h.exchanged hone hphase _
  · rename_i expected result hphase
    split
    · exact h.calm hone (by simpa [RefreshFlight.Tidy, hphase] using htidy) (calm_apply expected _)
    · exact h.raise hone (htidy.known hphase)
  · rename_i hphase
    exact h.calm hone (by simpa [RefreshFlight.Tidy, hphase] using htidy) (calm_setDesk rfl rfl)
  · rename_i expected reason observed seen answer hphase
    have hsettled : flight.Settled := by simpa [RefreshFlight.Tidy, hphase] using htidy
    split
    · split
      · exact h.calm hone hsettled (calm_setDesk rfl rfl)
      · exact h.calm hone hsettled (calm_settleFailure expected reason observed answer)
    · exact h
  · rename_i expected committed hphase
    have hsettled : flight.Settled := by simpa [RefreshFlight.Tidy, hphase] using htidy
    split
    · exact h.calm hone hsettled (calm_setDesk rfl rfl)
    · exact h.calm hone hsettled (calm_deferDesk rfl expected _)
  · exact h.faulted hone
  · rename_i hphase
    exact h.caught hone hphase hcurrent
  · rename_i hphase
    have hquiet := RefreshFlight.not_raised_of_closed (show flight.phase.closed = true by rw [hphase]; rfl)
    exact h.move hone rfl rfl rfl (setFlight_one hone rfl) trivial
      (fun hopen => absurd hopen (RefreshFlight.not_open_of_closed rfl))
      fun credential hraised => absurd hraised (hquiet credential)
  · rename_i hphase
    have hquiet := RefreshFlight.not_raised_of_closed (show flight.phase.closed = true by rw [hphase]; rfl)
    split
    · exact h.endFlight hone hquiet
    · have hsync : (account.sync true).Guarded := h.congr rfl rfl rfl rfl
      exact hsync.move hone rfl rfl rfl (setFlight_one hone rfl) trivial
        (fun hopen => absurd hopen (RefreshFlight.not_open_of_closed rfl))
        fun credential hraised => absurd hraised (hquiet credential)
  · rename_i hphase
    split
    · exact h
    · exact h.endFlight hone (RefreshFlight.not_raised_of_closed (by rw [hphase]; rfl))
  · exact h

/-- A write that brings no raised credential back keeps the guard, and a deletion ends what it guards. -/
theorem Guarded.store (h : account.Guarded) (row : Option AccountRow)
    (hcurrent : account.current moment (.store row) = true) : (account.store row).Guarded := by
  refine ⟨fun held hmem => ?_, fun held hmem hopen => ?_, ?_, fun credential hsince => ?_⟩
  · obtain ⟨flight, hflight, rfl⟩ := List.mem_map.mp hmem
    exact (h.tidy flight hflight).observe row
  · obtain ⟨flight, hflight, rfl⟩ := List.mem_map.mp hmem
    exact h.clear flight hflight ⟨hopen.1, hopen.2.1, RefreshPhase.observe_closed row _ ▸ hopen.2.2⟩
  · cases row with
    | none => exact ⟨rfl, h.log⟩
    | some row => exact h.log
  · cases row with
    | none => simp [AccountRefresh.store, raisedSince] at hsince
    | some row =>
      by_cases hsame : row.authMaterial = credential
      · have hholds : account.holds credential = true := by
          have hunretired : account.unretired row = true := hcurrent
          rw [unretired, hsame, show raisedSince credential account.log = true from hsince] at hunretired
          simpa using hunretired
        rcases h.raised credential hsince with hmarked | hgone | ⟨flight, hflight, hraised⟩
        · exact .inl hmarked
        · exact absurd (hholds.symm.trans hgone) (by simp)
        · exact .inr (.inr ⟨_, List.mem_map_of_mem hflight, hraised.observe row⟩)
      · refine .inr (.inl ?_)
        simpa [holds, AccountRefresh.store] using hsame

/-- So does reconciling. -/
theorem Guarded.reconcile (h : account.Guarded) (settling : Bool) (answer : Option (Option AccountRow))
    (hagrees : answer.all account.agrees = true) : (account.reconcile config moment settling answer).Guarded := by
  unfold AccountRefresh.reconcile
  split
  · have hnone : account.agrees none = true := hagrees
    exact h.unquarantine rfl rfl rfl hnone (.inr ⟨rfl, fun credential habsent => by simp at habsent⟩)
  · exact h.armFor hagrees settling
  · split
    · exact h.congr rfl RefreshDesk.retryHeld_uncertain rfl rfl
    · exact h

/-- A flight that begins has no exchange yet. -/
theorem Guarded.run (h : account.Guarded) (hsingle : account.flights.map (·.number) = account.flight.toList)
    (expected : Option RefreshExpectation) : (account.run moment expected).Guarded := by
  unfold AccountRefresh.run
  split
  · exact h
  · rename_i hfree
    have hempty : account.flights = [] := by
      have hnone : account.flight = none := by simp_all
      simpa [hnone] using hsingle
    refine ⟨fun flight hmem => ?_, fun flight hmem hopen => ?_, h.log, fun credential hsince => ?_⟩
    · obtain rfl : flight = _ := by simpa [hempty] using hmem
      cases expected <;> rfl
    · obtain rfl : flight = _ := by simpa [hempty] using hmem
      simp [RefreshFlight.Open] at hopen
    · rcases h.raised credential hsince with hmarked | hgone | ⟨held, hmem, -⟩
      · exact .inl hmarked
      · exact .inr (.inl hgone)
      · simp [hempty] at hmem

/-- Every stretch of work that acts on nothing out of date keeps the guard. -/
theorem Guarded.step (h : account.Guarded) (hsingle : account.flights.map (·.number) = account.flight.toList)
    (event : AccountEvent) (hcurrent : account.current moment event = true) :
    (account.step config moment event).Guarded := by
  cases event with
  | store row => exact h.store row hcurrent
  | fire armed =>
    have hdesk : ({ account with desk := (account.desk.fired moment armed).1 }).Guarded :=
      h.congr rfl (RefreshDesk.fired_uncertain armed) rfl rfl
    change (account.fire moment armed).Guarded
    unfold fire
    dsimp only
    split
    · exact hdesk.run hsingle _
    · exact hdesk
  | sync => exact h.congr rfl rfl rfl rfl
  | synced version answer =>
    have hread : ({ account with syncs := account.syncs.filter (·.version != version) }).Guarded :=
      h.congr rfl rfl rfl rfl
    change (account.synced config moment version answer).Guarded
    unfold synced
    split
    · exact h
    · split
      · dsimp only
        split
        · rename_i hlatest
          by_cases hstopped : moment.stopped = true
          · rw [if_pos hstopped]
            exact hread.congr rfl rfl rfl rfl
          · rw [if_neg hstopped]
            have hagrees : answer.all account.agrees = true := by
              cases answer with
              | none => rfl
              | some answer => simpa [current, hlatest, hstopped] using hcurrent
            exact (@Guarded.reconcile config moment _ hread _ answer hagrees).congr rfl rfl rfl rfl
        · exact hread
      · exact h
  | listed read answer =>
    have hread : ({ account with lists := account.lists.eraseIdx read }).Guarded := h.congr rfl rfl rfl rfl
    change (account.listed config moment read answer).Guarded
    unfold listed
    split
    · exact h
    · split
      · dsimp only
        split
        · split
          · exact hread
          · rename_i row _ hrunning
            have hagrees : account.agrees (some row) = true := by simpa [current, hrunning] using hcurrent
            exact hread.armFor hagrees false
        · exact hread
      · exact h
  | refreshNow => exact h.run hsingle none
  | retryParked => exact h.congr rfl rfl rfl rfl
  | parkedRead read answer =>
    change (account.parkedRead read answer).Guarded
    unfold parkedRead
    split
    · exact h
    · split
      · dsimp only
        split
        · split <;> exact h.congr rfl rfl rfl rfl
        · exact h.congr rfl rfl rfl rfl
      · exact h
  | released ok =>
    have hread : ({ account with releasing := account.releasing - 1 }).Guarded := h.congr rfl rfl rfl rfl
    change (account.released moment ok).Guarded
    unfold released
    split
    · exact h
    · dsimp only
      split
      · exact hread.run hsingle none
      · exact hread
  | flight number event =>
    unfold AccountRefresh.step
    dsimp only
    split
    · rename_i flight hfind
      have hmem := List.mem_of_find?_eq_some hfind
      have hnumber : flight.number = number := by simpa using List.find?_some hfind
      have hflight : account.flightCurrent flight event = true := by
        have hall := List.all_eq_true.mp hcurrent flight hmem
        simpa [hnumber] using hall
      exact h.flightStep (flights_one hsingle hmem) event hflight
    · exact h

/-- So does the stop. -/
theorem Guarded.halt (h : account.Guarded) : account.halt.Guarded := by
  refine ⟨fun held hmem => ?_, fun held hmem hopen => ?_, h.log, fun credential hsince => ?_⟩
  · obtain ⟨flight, hflight, rfl⟩ := List.mem_map.mp hmem
    exact h.tidy flight hflight
  · obtain ⟨flight, hflight, rfl⟩ := List.mem_map.mp hmem
    exact h.clear flight hflight hopen
  · rcases h.raised credential hsince with hmarked | hgone | ⟨flight, hflight, hraised⟩
    · exact .inl hmarked
    · exact .inr (.inl hgone)
    · exact .inr (.inr ⟨_, List.mem_map_of_mem hflight, hraised⟩)

/-- An account that has its one flight in the map has one exchange at most. -/
theorem exchanges_length_le (hsingle : account.flights.map (·.number) = account.flight.toList) :
    account.exchanges.length ≤ 1 :=
  Nat.le_trans (List.length_filter_le _ _) (flights_length_le hsingle)

end AccountRefresh

namespace CredentialRefresher

/-- What the step acts on is not out of date. -/
def Current (refresher : CredentialRefresher) : RefresherEvent → Prop
  | .account index now event =>
    refresher.accounts[index]?.all fun account => account.current (refresher.moment now) event
  | _ => True

instance (refresher : CredentialRefresher) : ∀ event, Decidable (refresher.Current event)
  | .account _ _ _ => inferInstanceAs (Decidable (_ = true))
  | .start | .stop | .drained _ => isTrue trivial

/-- Every account is steady and guarded. -/
def Guarded (refresher : CredentialRefresher) : Prop :=
  refresher.Steady ∧ ∀ account ∈ refresher.accounts, account.Guarded

/-- A refresher starts guarded. -/
theorem guarded_create (rows : List (Option AccountRow)) : (create rows).Guarded := by
  refine ⟨steady_create rows, fun account hmem => ?_⟩
  obtain ⟨row, -, rfl⟩ := List.mem_map.mp hmem
  exact ⟨by simp, by simp, trivial, by simp [raisedSince]⟩

/-- Every step that acts on nothing out of date keeps every account guarded. -/
theorem Guarded.step {config : RefreshConfig} {refresher : CredentialRefresher} (h : refresher.Guarded)
    (event : RefresherEvent) (hcurrent : refresher.Current event) : (refresher.step config event).Guarded := by
  refine ⟨h.1.step event, @step_all config refresher (fun _ account => account.Guarded) event h.2
    (fun account hmem => (h.2 account hmem).congr rfl rfl rfl rfl) (fun account hmem => (h.2 account hmem).halt) ?_⟩
  rintro index now own rfl account haccount
  have hin := List.mem_of_getElem? haccount
  have hown : account.current (refresher.moment now) own = true := by
    have hall : refresher.accounts[index]?.all (fun account => account.current (refresher.moment now) own) = true :=
      hcurrent
    rw [haccount] at hall
    exact hall
  exact (h.2 account hin).step (h.1 account hin).single own hown

/-- In every run an account has at most one exchange running. -/
theorem after_exchanges_length_le (config : RefreshConfig) (rows : List (Option AccountRow))
    (events : List RefresherEvent) :
    ∀ account ∈ (after config rows events).accounts, account.exchanges.length ≤ 1 :=
  fun account hmem => AccountRefresh.exchanges_length_le (after_steady rows events account hmem).single

/-- In every run whose steps act on nothing out of date, an account has at most one exchange running, and none is
started with a credential whose exchange raised before, unless the account was deleted in between. -/
theorem after_exchangedOnce (config : RefreshConfig) (rows : List (Option AccountRow))
    (events : List RefresherEvent) (hcurrent : EveryStep (step config) Current (create rows) events) :
    ∀ account ∈ (after config rows events).accounts, account.ExchangedOnce := by
  have h : (after config rows events).Guarded :=
    runFrom_invariant_of_everyStep Guarded (fun _ event hguarded => hguarded.step event) events (create rows)
      (guarded_create rows) hcurrent
  exact fun account hmem => ⟨after_exchanges_length_le config rows events account hmem, (h.2 account hmem).log⟩

/-- The exchange of a new credential raises, `start` then takes up the row from before the sign-in, and
the credential is exchanged again. -/
def staleList : List RefresherEvent :=
  let new := exampleRow "new"
  let raised : ExchangeReplies :=
    { abortedAtCall := false
      decrypted := some ⟨"access", some "refresh", none⟩
      response := some ⟨200, true, false⟩
      abortedAtReply := false
      tokens := .grant
      commit := .raised }
  let attempt (number : ℕ) : List FlightEvent → List RefresherEvent :=
    List.map fun event => .account 0 0 (.flight number event)
  [.start, .account 0 0 (.store (some new)), .account 0 0 .refreshNow] ++
    attempt 0 [.begun (some new), .locked .acquired, .reread (some new) false, .exchanged raised, .unlocked,
      .caught, .told, .finalized] ++
    [.account 0 0 (.synced 1 (some (some new)))] ++ attempt 0 [.ended] ++
    [.account 0 0 (.listed 0 (some (some (exampleRow "old")))), .account 0 0 .refreshNow] ++
    attempt 1 [.begun (some new), .locked .acquired, .reread (some new) false]

/-- The stale row of a listing has the quarantined grant exchanged again. -/
theorem after_exchangedAgain :
    ¬ ∀ account ∈ (after exampleConfig [some (exampleRow "old")] staleList).accounts, account.ExchangedOnce := by
  decide +kernel

/-- The same sign-in where `start` had its rows in time: the credential stays quarantined. -/
theorem after_exchangedOnce_listed :
    let new := exampleRow "new"
    let raised : ExchangeReplies :=
      { abortedAtCall := false
        decrypted := some ⟨"access", some "refresh", none⟩
        response := some ⟨200, true, false⟩
        abortedAtReply := false
        tokens := .grant
        commit := .raised }
    let attempt (number : ℕ) : List FlightEvent → List RefresherEvent :=
      List.map fun event => .account 0 0 (.flight number event)
    let events : List RefresherEvent :=
      [.start, .account 0 0 (.listed 0 (some (some (exampleRow "old")))), .account 0 0 (.store (some new)),
        .account 0 0 .refreshNow] ++
      attempt 0 [.begun (some new), .locked .acquired, .reread (some new) false, .exchanged raised, .unlocked,
        .caught, .told, .finalized] ++
      [.account 0 0 (.synced 1 (some (some new)))] ++ attempt 0 [.ended] ++
      [.account 0 0 .refreshNow] ++ attempt 1 [.begun (some new), .locked .acquired, .reread (some new) false]
    ((after exampleConfig [some (exampleRow "old")] events).accounts.all fun account =>
      account.log = [.raised (some "new"), .started (some "new")]) = true ∧
    ∀ account ∈ (after exampleConfig [some (exampleRow "old")] events).accounts, account.ExchangedOnce :=
  ⟨by decide +kernel, after_exchangedOnce exampleConfig _ _ (by decide +kernel)⟩

end CredentialRefresher

end MultiAiRouter.Accounts
