import MultiAiRouter.Common.Run

/-!
# Snapshots are read-your-writes

`createSnapshotRefresh` with every promise step a step of its own: a flight is scheduled, its load begins and is
answered, its value is installed or dropped, and only then is the flight over. A caller of `refreshAfterMutation`
raises the generation and waits, flight after flight, until it is installed. The log is kept newest first.
-/

namespace MultiAiRouter.Snapshots

open Common

/-- How far a flight has come. A load answers with a value, or fails. -/
inductive FlightPhase (Value : Type)
  | scheduled
  | loading
  | answered (result : Option Value)
  | handled (ok : Bool)
  | settled (ok : Bool)
  deriving DecidableEq

/-- One shared read and the generation that was current when it was started. -/
structure Flight (Value : Type) where
  generation : ℕ
  phase : FlightPhase Value := .scheduled
  deriving DecidableEq

/-- Where a `refreshAfterMutation` call stands. -/
inductive WaiterPhase
  | checking
  | awaiting (flight : ℕ)
  | resolved
  | rejected
  deriving DecidableEq

/-- One `refreshAfterMutation` call. -/
structure Waiter where
  requiredGeneration : ℕ
  phase : WaiterPhase
  deriving DecidableEq

/-- What can be observed of the refresh. -/
inductive Entry (Value : Type)
  | called (waiter : ℕ)
  | began (flight : ℕ)
  | answered (flight : ℕ) (result : Option Value)
  | installed (flight : ℕ) (value : Value)
  | resolved (waiter : ℕ)
  | rejected (waiter : ℕ)
  deriving DecidableEq

/-- The state of one `createSnapshotRefresh`, every flight and waiter it ever had, and the
snapshot its `install` holds. -/
structure SnapshotRefresh (Value : Type) where
  generation : ℕ := 0
  installedGeneration : Int := -1
  inFlight : Option ℕ := none
  flights : List (Flight Value) := []
  waiters : List Waiter := []
  held : Option Value := none
  log : List (Entry Value) := []
  deriving DecidableEq

/-- What happens: a call, or one promise step of a flight or of a waiting call. -/
inductive RefreshEvent (Value : Type)
  | refresh
  | refreshAfterMutation
  | begin (flight : ℕ)
  | answer (flight : ℕ) (result : Option Value)
  | handle (flight : ℕ) (installThrows : Bool)
  | finish (flight : ℕ)
  | wake (waiter : ℕ)
  deriving DecidableEq

namespace SnapshotRefresh

variable {Value : Type}

/-- Start a flight at the current generation; its load begins in a later step. -/
def start (state : SnapshotRefresh Value) : SnapshotRefresh Value :=
  { state with
    inFlight := some state.flights.length
    flights := state.flights ++ [{ generation := state.generation }] }

/-- The flight in flight, or a new one: `inFlight ?? start()`. -/
def join (state : SnapshotRefresh Value) : ℕ × SnapshotRefresh Value :=
  match state.inFlight with
  | some flight => (flight, state)
  | none => (state.flights.length, state.start)

/-- The flight moves on to its next promise step. -/
def moveFlight (state : SnapshotRefresh Value) (flight : ℕ) (held : Flight Value)
    (phase : FlightPhase Value) : SnapshotRefresh Value :=
  { state with flights := state.flights.set flight { held with phase } }

/-- The waiting call moves on. -/
def moveWaiter (state : SnapshotRefresh Value) (waiter : ℕ) (held : Waiter) (phase : WaiterPhase) :
    SnapshotRefresh Value :=
  { state with waiters := state.waiters.set waiter { held with phase } }

/-- Record what was observed. -/
def record (state : SnapshotRefresh Value) (entry : Entry Value) : SnapshotRefresh Value :=
  { state with log := entry :: state.log }

/-- The head of the `while` loop: resolve once the required generation is installed, else await
the flight in flight or a new one. -/
def awaitGeneration (state : SnapshotRefresh Value) (waiter : ℕ) (held : Waiter) :
    SnapshotRefresh Value :=
  if state.installedGeneration < held.requiredGeneration then
    state.join.2.moveWaiter waiter held (.awaiting state.join.1)
  else (state.moveWaiter waiter held .resolved).record (.resolved waiter)

/-- The handler of the load's value: drop it when a mutation was announced since the flight was
started, else install it. -/
def handleValue (state : SnapshotRefresh Value) (flight : ℕ) (held : Flight Value) (value : Value)
    (installThrows : Bool) : SnapshotRefresh Value :=
  if held.generation ≠ state.generation then state.moveFlight flight held (.handled true)
  else if installThrows then state.moveFlight flight held (.handled false)
  else
    ({ state.moveFlight flight held (.handled true) with
      held := some value
      installedGeneration := held.generation }).record (.installed flight value)

/-- One thing happens to the refresh. -/
def step (state : SnapshotRefresh Value) : RefreshEvent Value → SnapshotRefresh Value
  | .refresh => state.join.2
  | .refreshAfterMutation =>
    let waiter := state.waiters.length
    let held : Waiter := { requiredGeneration := state.generation + 1, phase := .checking }
    (({ state with
      generation := state.generation + 1
      waiters := state.waiters ++ [held] }).record (.called waiter)).awaitGeneration waiter held
  | .begin flight =>
    match state.flights[flight]? with
    | some held =>
      match held.phase with
      | .scheduled => (state.moveFlight flight held .loading).record (.began flight)
      | _ => state
    | none => state
  | .answer flight result =>
    match state.flights[flight]? with
    | some held =>
      match held.phase with
      | .loading => (state.moveFlight flight held (.answered result)).record (.answered flight result)
      | _ => state
    | none => state
  | .handle flight installThrows =>
    match state.flights[flight]? with
    | some held =>
      match held.phase with
      | .answered (some value) => state.handleValue flight held value installThrows
      | .answered none => state.moveFlight flight held (.handled false)
      | _ => state
    | none => state
  | .finish flight =>
    match state.flights[flight]? with
    | some held =>
      match held.phase with
      | .handled ok => { state.moveFlight flight held (.settled ok) with inFlight := none }
      | _ => state
    | none => state
  | .wake waiter =>
    match state.waiters[waiter]? with
    | some held =>
      match held.phase with
      | .awaiting flight =>
        match state.flights[flight]? with
        | some pending =>
          match pending.phase with
          | .settled true => state.awaitGeneration waiter held
          | .settled false =>
            if pending.generation = state.generation then
              (state.moveWaiter waiter held .rejected).record (.rejected waiter)
            else state.awaitGeneration waiter held
          | _ => state
        | none => state
      | _ => state
    | none => state

/-- Everything that happens to a refresh nobody has called yet. -/
def run (events : List (RefreshEvent Value)) : SnapshotRefresh Value :=
  runFrom step {} events

end SnapshotRefresh

variable {Value : Type}

/-- The second entry is in the log and the first one is older. -/
def Precedes {Entry : Type*} (log : List Entry) (first second : Entry) : Prop :=
  ∃ later past, log = later ++ second :: past ∧ first ∈ past

/-- A new entry is preceded by everything before it, and changes nothing between older entries. -/
theorem precedes_cons {Entry : Type*} (entry first second : Entry) (log : List Entry) :
    Precedes (entry :: log) first second ↔ (entry = second ∧ first ∈ log) ∨ Precedes log first second := by
  constructor
  · rintro ⟨later, past, heq, hmem⟩
    cases later with
    | nil =>
      obtain ⟨rfl, rfl⟩ := List.cons.inj heq
      exact .inl ⟨rfl, hmem⟩
    | cons newest later =>
      obtain ⟨-, rfl⟩ := List.cons.inj heq
      exact .inr ⟨later, past, rfl, hmem⟩
  · rintro (⟨rfl, hmem⟩ | ⟨later, past, rfl, hmem⟩)
    · exact ⟨[], log, rfl, hmem⟩
    · exact ⟨entry :: later, past, rfl, hmem⟩

/-- A new entry keeps the order of older ones. -/
theorem Precedes.cons {Entry : Type*} {first second : Entry} {log : List Entry}
    (h : Precedes log first second) (entry : Entry) : Precedes (entry :: log) first second :=
  (precedes_cons entry first second log).mpr (.inr h)

/-- What precedes an entry is in the log. -/
theorem Precedes.mem {Entry : Type*} {first second : Entry} {log : List Entry}
    (h : Precedes log first second) : first ∈ log := by
  obtain ⟨later, past, rfl, hmem⟩ := h
  exact List.mem_append_right _ (List.mem_cons_of_mem _ hmem)

/-- The value most recently installed. -/
def lastInstalled : List (Entry Value) → Option Value
  | [] => none
  | .installed _ value :: _ => some value
  | _ :: past => lastInstalled past

/-- What each entry owes to those before it. A load begins once, with every load before it answered; a
call resolves once a value whose load began after it was installed; a value is installed as its load
answered it, never behind a call its load precedes, and after the values of the loads before. -/
def Orderly : Entry Value → List (Entry Value) → Prop
  | .called waiter, past => .called waiter ∉ past
  | .began flight, past =>
    .began flight ∉ past ∧ ∀ other, .began other ∈ past → ∃ result, .answered other result ∈ past
  | .answered flight _, past => .began flight ∈ past ∧ ∀ result, .answered flight result ∉ past
  | .installed flight value, past =>
    .answered flight (some value) ∈ past ∧
    (∀ waiter, .called waiter ∈ past → ¬ Precedes past (.began flight) (.called waiter)) ∧
    ∀ other value', .installed other value' ∈ past → Precedes past (.began other) (.began flight)
  | .resolved waiter, past =>
    ∃ flight value, .installed flight value ∈ past ∧ Precedes past (.called waiter) (.began flight)
  | .rejected _, _ => True

/-- In an orderly log a load has one answer. -/
theorem answered_unique {log : List (Entry Value)} (h : EveryEntry Orderly log) {flight : ℕ}
    {first second : Option Value} (hfirst : .answered flight first ∈ log)
    (hsecond : .answered flight second ∈ log) : first = second := by
  induction log with
  | nil => cases hfirst
  | cons entry past ih =>
    rcases List.mem_cons.mp hfirst with rfl | hfirstPast
    · rcases List.mem_cons.mp hsecond with heq | hsecondPast
      · exact (Entry.answered.inj heq).2.symm
      · exact absurd hsecondPast (h.1.2 second)
    · rcases List.mem_cons.mp hsecond with rfl | hsecondPast
      · exact absurd hfirstPast (h.1.2 first)
      · exact ih h.2 hfirstPast hsecondPast

/-- In an orderly log a value that was installed is the answer of its load. -/
theorem answered_of_installed {log : List (Entry Value)} (h : EveryEntry Orderly log) {flight : ℕ}
    {value : Value} (hinstalled : .installed flight value ∈ log) : .answered flight (some value) ∈ log := by
  induction log with
  | nil => cases hinstalled
  | cons entry past ih =>
    rcases List.mem_cons.mp hinstalled with rfl | hinstalled
    · exact List.mem_cons_of_mem _ h.1.1
    · exact List.mem_cons_of_mem _ (ih h.2 hinstalled)

/-- The entries of a flight that has come this far. -/
def Logged (log : List (Entry Value)) (flight : ℕ) : FlightPhase Value → Prop
  | .scheduled => .began flight ∉ log ∧ (∀ result, .answered flight result ∉ log) ∧
      ∀ value, .installed flight value ∉ log
  | .loading => .began flight ∈ log ∧ (∀ result, .answered flight result ∉ log) ∧
      ∀ value, .installed flight value ∉ log
  | .answered result => .began flight ∈ log ∧ .answered flight result ∈ log ∧
      ∀ value, .installed flight value ∉ log
  | .handled _ | .settled _ => .began flight ∈ log ∧ ∃ result, .answered flight result ∈ log

/-- The entry is about the flight. -/
def Entry.About (flight : ℕ) : Entry Value → Prop
  | .began other | .answered other _ | .installed other _ => other = flight
  | _ => False

/-- An entry about something else leaves a flight's entries as they were. -/
theorem Logged.cons {log : List (Entry Value)} {flight : ℕ} {phase : FlightPhase Value}
    (h : Logged log flight phase) {entry : Entry Value} (hother : ¬ entry.About flight) :
    Logged (entry :: log) flight phase := by
  have hbegan : Entry.began flight ≠ entry := by
    rintro rfl
    exact hother rfl
  have hanswered (result : Option Value) : Entry.answered flight result ≠ entry := by
    rintro rfl
    exact hother rfl
  have hinstalled (value : Value) : Entry.installed flight value ≠ entry := by
    rintro rfl
    exact hother rfl
  cases phase <;> simpa [Logged, hbegan, hanswered, hinstalled] using h

/-- The flight is over: its `finally` has run. -/
def FlightPhase.Settled : FlightPhase Value → Prop
  | .settled _ => True
  | _ => False

namespace SnapshotRefresh

/-- Flights fly one at a time and in order, the log tells how far each has come, and generations
order calls and loads. -/
structure Consistent (state : SnapshotRefresh Value) : Prop where
  flying : ∀ (f : ℕ) (flight : Flight Value), state.flights[f]? = some flight →
    ¬ flight.phase.Settled → state.inFlight = some f
  newest : ∀ f, state.inFlight = some f → f + 1 = state.flights.length
  flight_le : ∀ (f : ℕ) (flight : Flight Value), state.flights[f]? = some flight →
    flight.generation ≤ state.generation
  waiter_le : ∀ (w : ℕ) (waiter : Waiter), state.waiters[w]? = some waiter →
    waiter.requiredGeneration ≤ state.generation
  logged : ∀ (f : ℕ) (flight : Flight Value), state.flights[f]? = some flight → Logged state.log f flight.phase
  unlogged : ∀ f, state.flights.length ≤ f → Logged state.log f .scheduled
  called_iff : ∀ w, Entry.called w ∈ state.log ↔ w < state.waiters.length
  ordered : ∀ f other, Entry.began f ∈ state.log → other < f → Precedes state.log (.began other) (.began f)
  fresh : ∀ (f : ℕ) (flight : Flight Value) (w : ℕ) (waiter : Waiter),
    state.flights[f]? = some flight → state.waiters[w]? = some waiter →
    Entry.began f ∈ state.log → waiter.requiredGeneration ≤ flight.generation →
    Precedes state.log (.called w) (.began f) ∧ ¬ Precedes state.log (.began f) (.called w)
  installed : 0 ≤ state.installedGeneration → ∃ (f : ℕ) (flight : Flight Value) (value : Value),
    state.flights[f]? = some flight ∧ (flight.generation : Int) = state.installedGeneration ∧
    Entry.installed f value ∈ state.log ∧ Entry.began f ∈ state.log
  held_eq : state.held = lastInstalled state.log
  orderly : EveryEntry Orderly state.log

/-- Nothing has happened yet. -/
theorem Consistent.initial : Consistent ({} : SnapshotRefresh Value) where
  flying := by simp
  newest := by simp
  flight_le := by simp
  waiter_le := by simp
  logged := by simp
  unlogged := by simp [Logged]
  called_iff := by simp
  ordered := by simp
  fresh := by simp
  installed := by simp
  held_eq := rfl
  orderly := trivial

/-- A moved flight keeps its place and its generation. -/
theorem moveFlight_get {state : SnapshotRefresh Value} {f g : ℕ} {held flight : Flight Value}
    {phase : FlightPhase Value} (hget : (state.moveFlight f held phase).flights[g]? = some flight) :
    (g = f ∧ flight = { held with phase }) ∨ (g ≠ f ∧ state.flights[g]? = some flight) :=
  getElem?_set_cases hget

/-- A moved flight is found where it was. -/
theorem moveFlight_self {state : SnapshotRefresh Value} {f : ℕ} {held : Flight Value}
    (hget : state.flights[f]? = some held) (phase : FlightPhase Value) :
    (state.moveFlight f held phase).flights[f]? = some { held with phase } := by
  have hlt : f < state.flights.length := (List.getElem?_eq_some_iff.mp hget).1
  simp [moveFlight, hlt]

/-- A flight found after a move had the same generation before it. -/
theorem moveFlight_generation {state : SnapshotRefresh Value} {f g : ℕ} {held flight : Flight Value}
    {phase : FlightPhase Value} (hheld : state.flights[f]? = some held)
    (hget : (state.moveFlight f held phase).flights[g]? = some flight) :
    ∃ before, state.flights[g]? = some before ∧ before.generation = flight.generation := by
  rcases moveFlight_get hget with ⟨rfl, rfl⟩ | ⟨-, hget⟩
  · exact ⟨held, hheld, rfl⟩
  · exact ⟨flight, hget, rfl⟩

/-- A flight is still on the list after a move, with its generation. -/
theorem moveFlight_kept {state : SnapshotRefresh Value} {f g : ℕ} {held flight : Flight Value}
    (phase : FlightPhase Value) (hheld : state.flights[f]? = some held) (hget : state.flights[g]? = some flight) :
    ∃ after, (state.moveFlight f held phase).flights[g]? = some after ∧ after.generation = flight.generation := by
  by_cases hg : g = f
  · subst hg
    obtain rfl := Option.some.inj (hheld.symm.trans hget)
    exact ⟨_, moveFlight_self hheld phase, rfl⟩
  · exact ⟨flight, by rw [moveFlight, List.getElem?_set_ne (Ne.symm hg)]; exact hget, rfl⟩

variable {state : SnapshotRefresh Value}

/-- A flight that is not over is the newest one. -/
theorem Consistent.newest_of_flying (h : Consistent state) {f : ℕ} {flight : Flight Value}
    (hget : state.flights[f]? = some flight) (hflying : ¬ flight.phase.Settled) : f + 1 = state.flights.length :=
  h.newest f (h.flying f flight hget hflying)

/-- Every flight that began is on the list. -/
theorem Consistent.lt_of_began (h : Consistent state) {f : ℕ} (hbegan : .began f ∈ state.log) :
    f < state.flights.length := by
  by_contra hlt
  exact (h.unlogged f (by omega)).1 hbegan

/-- Every flight before one that is not over was answered. -/
theorem Consistent.answered_of_lt (h : Consistent state) {f other : ℕ} {flight : Flight Value}
    (hget : state.flights[f]? = some flight) (hflying : ¬ flight.phase.Settled) (hlt : other < f) :
    .began other ∈ state.log ∧ ∃ result, .answered other result ∈ state.log := by
  have hnewest : f + 1 = state.flights.length := h.newest_of_flying hget hflying
  have hother : state.flights[other]? = some state.flights[other] :=
    List.getElem?_eq_getElem (by omega)
  have hsettled : (state.flights[other]).phase.Settled := by
    by_contra hunsettled
    have hsame : some f = some other :=
      (h.flying f flight hget hflying).symm.trans (h.flying other _ hother hunsettled)
    have : f = other := Option.some.inj hsame
    omega
  have hlogged : Logged state.log other (state.flights[other]).phase := h.logged other _ hother
  revert hsettled hlogged
  cases (state.flights[other]).phase <;> simp [FlightPhase.Settled, Logged]

/-- A new flight is started only when none is in flight. -/
theorem Consistent.start (h : Consistent state) (hnone : state.inFlight = none) : Consistent state.start := by
  have hget {f : ℕ} {flight : Flight Value} (hf : state.start.flights[f]? = some flight) :
      state.flights[f]? = some flight ∨
        (f = state.flights.length ∧ flight = { generation := state.generation }) := by
    simp only [SnapshotRefresh.start, List.getElem?_append] at hf
    split at hf
    · exact .inl hf
    · have hzero : f - state.flights.length = 0 := by
        by_contra hne
        rw [List.getElem?_eq_none (by simp; omega)] at hf
        cases hf
      rw [hzero] at hf
      exact .inr ⟨by omega, (Option.some.inj hf).symm⟩
  refine ⟨?_, ?_, ?_, h.waiter_le, ?_, ?_, h.called_iff, h.ordered, ?_, ?_, h.held_eq, h.orderly⟩
  · intro f flight hf hflying
    rcases hget hf with hold | ⟨rfl, -⟩
    · have := h.flying f flight hold hflying
      rw [hnone] at this
      cases this
    · rfl
  · intro f hf
    obtain rfl := Option.some.inj hf
    simp [SnapshotRefresh.start]
  · intro f flight hf
    rcases hget hf with hold | ⟨-, rfl⟩
    · exact h.flight_le f flight hold
    · exact Nat.le_refl state.generation
  · intro f flight hf
    rcases hget hf with hold | ⟨rfl, rfl⟩
    · exact h.logged f flight hold
    · exact h.unlogged _ (Nat.le_refl _)
  · intro f hf
    refine h.unlogged f ?_
    simp only [SnapshotRefresh.start, List.length_append, List.length_singleton] at hf
    omega
  · intro f flight w waiter hf hw hbegan hle
    rcases hget hf with hold | ⟨rfl, -⟩
    · exact h.fresh f flight w waiter hold hw hbegan hle
    · exact absurd (h.lt_of_began hbegan) (Nat.lt_irrefl _)
  · intro hzero
    obtain ⟨f, flight, value, hf, hrest⟩ := h.installed hzero
    refine ⟨f, flight, value, ?_, hrest⟩
    rw [SnapshotRefresh.start, List.getElem?_append_left (List.getElem?_eq_some_iff.mp hf).1]
    exact hf

/-- Joining the flight in flight, or a new one. -/
theorem Consistent.join (h : Consistent state) : Consistent state.join.2 := by
  unfold SnapshotRefresh.join
  cases hflight : state.inFlight with
  | none => exact h.start hflight
  | some flight => exact h

/-- A waiting call that moves on keeps its generation. -/
theorem Consistent.moveWaiter (h : Consistent state) {w : ℕ} {held : Waiter} (hheld : state.waiters[w]? = some held)
    (phase : WaiterPhase) : Consistent (state.moveWaiter w held phase) := by
  have hget {v : ℕ} {waiter : Waiter} (hv : (state.moveWaiter w held phase).waiters[v]? = some waiter) :
      ∃ before, state.waiters[v]? = some before ∧ before.requiredGeneration = waiter.requiredGeneration := by
    rcases getElem?_set_cases hv with ⟨rfl, rfl⟩ | ⟨-, hold⟩
    · exact ⟨held, hheld, rfl⟩
    · exact ⟨waiter, hold, rfl⟩
  refine ⟨h.flying, h.newest, h.flight_le, ?_, h.logged, h.unlogged, ?_, h.ordered, ?_, h.installed,
    h.held_eq, h.orderly⟩
  · intro v waiter hv
    obtain ⟨before, hbefore, heq⟩ := hget hv
    exact heq ▸ h.waiter_le v before hbefore
  · intro v
    rw [SnapshotRefresh.moveWaiter, List.length_set]
    exact h.called_iff v
  · intro f flight v waiter hf hv hbegan hle
    obtain ⟨before, hbefore, heq⟩ := hget hv
    exact h.fresh f flight v before hf hbefore hbegan (heq ▸ hle)

/-- A call that returns changes neither flights nor what they logged. -/
theorem Consistent.recordReturn (h : Consistent state) {entry : Entry Value}
    (hreturn : (∃ w, entry = .rejected w) ∨ ∃ w, entry = .resolved w)
    (horderly : Orderly entry state.log) : Consistent (state.record entry) := by
  have habout (f : ℕ) : ¬ entry.About f := by
    rcases hreturn with ⟨w, rfl⟩ | ⟨w, rfl⟩ <;> exact id
  have hbegan (f : ℕ) : entry ≠ .began f := by
    rcases hreturn with ⟨w, rfl⟩ | ⟨w, rfl⟩ <;> simp
  have hcalled (w : ℕ) : entry ≠ .called w := by
    rcases hreturn with ⟨v, rfl⟩ | ⟨v, rfl⟩ <;> simp
  have hmem {f : ℕ} (hf : Entry.began f ∈ entry :: state.log) : Entry.began f ∈ state.log :=
    (List.mem_cons.mp hf).resolve_left fun heq => hbegan f heq.symm
  refine ⟨h.flying, h.newest, h.flight_le, h.waiter_le, ?_, ?_, ?_, ?_, ?_, ?_, ?_, horderly, h.orderly⟩
  · intro f flight hf
    exact (h.logged f flight hf).cons (habout f)
  · intro f hf
    exact (h.unlogged f hf).cons (habout f)
  · intro w
    simp only [record, List.mem_cons, (hcalled w).symm, false_or]
    exact h.called_iff w
  · intro f other hf hlt
    exact (h.ordered f other (hmem hf) hlt).cons entry
  · intro f flight w waiter hf hw hlog hle
    obtain ⟨hafter, hnot⟩ := h.fresh f flight w waiter hf hw (hmem hlog) hle
    refine ⟨hafter.cons entry, ?_⟩
    rw [record, precedes_cons]
    rintro (⟨heq, -⟩ | hold)
    · exact hcalled w heq
    · exact hnot hold
  · intro hzero
    obtain ⟨f, flight, value, hf, hgeneration, hinstalled, hlog⟩ := h.installed hzero
    exact ⟨f, flight, value, hf, hgeneration, List.mem_cons_of_mem _ hinstalled, List.mem_cons_of_mem _ hlog⟩
  · rcases hreturn with ⟨w, rfl⟩ | ⟨w, rfl⟩ <;> exact h.held_eq

/-- The state after a flight moved and logged it, holding a snapshot of some generation. -/
def advance (state : SnapshotRefresh Value) (f : ℕ) (flight : Flight Value) (phase : FlightPhase Value)
    (log : List (Entry Value)) (held : Option Value) (installedGeneration : Int) : SnapshotRefresh Value :=
  { state.moveFlight f flight phase with log, held, installedGeneration }

/-- A flight that is not over moves on and logs at most one entry, about itself. -/
theorem Consistent.advance (h : Consistent state) {f : ℕ} {flight : Flight Value}
    (hflight : state.flights[f]? = some flight) (hflying : ¬ flight.phase.Settled)
    {phase : FlightPhase Value} {entry : Entry Value} {held : Option Value} {generation : Int}
    (habout : entry.About f) (hlogged : Logged (entry :: state.log) f phase)
    (horderly : Orderly entry state.log)
    (hheld : held = lastInstalled (entry :: state.log))
    (hinstalled : generation = state.installedGeneration ∨
      ((flight.generation : Int) = generation ∧ .began f ∈ state.log ∧ ∃ value, entry = .installed f value)) :
    Consistent (state.advance f flight phase (entry :: state.log) held generation) := by
  have hother {g : ℕ} (hg : g ≠ f) : ¬ entry.About g := by
    intro hgabout
    refine hg ?_
    cases entry <;> first | exact hgabout.elim | exact hgabout.symm.trans habout
  have hcalled (w : ℕ) : entry ≠ .called w := by
    rintro rfl
    exact habout
  have hmem {g : ℕ} (hg : .began g ∈ entry :: state.log) : .began g ∈ state.log ∨ (g = f ∧ entry = .began f) := by
    rcases List.mem_cons.mp hg with rfl | hold
    · obtain rfl : g = f := habout
      exact .inr ⟨rfl, rfl⟩
    · exact .inl hold
  refine ⟨?_, ?_, ?_, h.waiter_le, ?_, ?_, ?_, ?_, ?_, ?_, hheld, horderly, h.orderly⟩
  · intro g other hg hunsettled
    rcases moveFlight_get hg with ⟨rfl, -⟩ | ⟨-, hold⟩
    · exact h.flying g flight hflight hflying
    · exact h.flying g other hold hunsettled
  · intro g hg
    rw [SnapshotRefresh.advance, moveFlight, List.length_set]
    exact h.newest g hg
  · intro g other hg
    obtain ⟨before, hbefore, heq⟩ := moveFlight_generation hflight hg
    exact heq ▸ h.flight_le g before hbefore
  · intro g other hg
    rcases moveFlight_get hg with ⟨rfl, rfl⟩ | ⟨hne, hold⟩
    · exact hlogged
    · exact (h.logged g other hold).cons (hother hne)
  · intro g hg
    rw [SnapshotRefresh.advance, moveFlight, List.length_set] at hg
    have hlt : f < state.flights.length := (List.getElem?_eq_some_iff.mp hflight).1
    exact (h.unlogged g hg).cons (hother (by omega))
  · intro w
    simp only [SnapshotRefresh.advance, List.mem_cons, (hcalled w).symm, false_or]
    exact h.called_iff w
  · intro g other hg hlt
    rcases hmem hg with hold | ⟨rfl, rfl⟩
    · exact (h.ordered g other hold hlt).cons entry
    · exact (precedes_cons _ _ _ _).mpr (.inl ⟨rfl, (h.answered_of_lt hflight hflying hlt).1⟩)
  · intro g other w waiter hg hw hlog hle
    obtain ⟨before, hbefore, heq⟩ := moveFlight_generation hflight hg
    simp only [SnapshotRefresh.advance, precedes_cons, hcalled w, false_and, false_or]
    rcases hmem hlog with hold | ⟨rfl, rfl⟩
    · obtain ⟨hafter, hnot⟩ := h.fresh g before w waiter hbefore hw hold (heq ▸ hle)
      exact ⟨.inr hafter, hnot⟩
    · refine ⟨.inl ⟨rfl, (h.called_iff w).mpr (List.getElem?_eq_some_iff.mp hw).1⟩, ?_⟩
      intro hprecedes
      exact horderly.1 hprecedes.mem
  · intro hzero
    rcases hinstalled with rfl | ⟨hgeneration, hbegan, value, rfl⟩
    · obtain ⟨g, other, value, hg, hgeneration, hin, hbegan⟩ := h.installed hzero
      obtain ⟨after, hafter, heq⟩ := moveFlight_kept phase hflight hg
      exact ⟨g, after, value, hafter, heq ▸ hgeneration, List.mem_cons_of_mem _ hin, List.mem_cons_of_mem _ hbegan⟩
    · exact ⟨f, _, value, moveFlight_self hflight phase, hgeneration, List.mem_cons_self,
        List.mem_cons_of_mem _ hbegan⟩

/-- A move of a flight that is not over leaves to show its own entries and what the new log says. -/
theorem Consistent.moveFlight (h : Consistent state) {f : ℕ} {held : Flight Value}
    (hheld : state.flights[f]? = some held) (hflying : ¬ held.phase.Settled) {phase : FlightPhase Value}
    (hlogged : Logged state.log f phase) : Consistent (state.moveFlight f held phase) := by
  refine ⟨?_, ?_, ?_, h.waiter_le, ?_, ?_, h.called_iff, h.ordered, ?_, ?_, h.held_eq, h.orderly⟩
  · intro g flight hg hunsettled
    rcases moveFlight_get hg with ⟨rfl, -⟩ | ⟨-, hold⟩
    · exact h.flying g held hheld hflying
    · exact h.flying g flight hold hunsettled
  · intro g hg
    rw [SnapshotRefresh.moveFlight, List.length_set]
    exact h.newest g hg
  · intro g flight hg
    obtain ⟨before, hbefore, heq⟩ := moveFlight_generation hheld hg
    exact heq ▸ h.flight_le g before hbefore
  · intro g flight hg
    rcases moveFlight_get hg with ⟨rfl, rfl⟩ | ⟨-, hold⟩
    · exact hlogged
    · exact h.logged g flight hold
  · intro g hg
    rw [SnapshotRefresh.moveFlight, List.length_set] at hg
    exact h.unlogged g hg
  · intro g flight w waiter hg hw hbegan hle
    obtain ⟨before, hbefore, heq⟩ := moveFlight_generation hheld hg
    exact h.fresh g before w waiter hbefore hw hbegan (heq ▸ hle)
  · intro hzero
    obtain ⟨g, flight, value, hg, hgeneration, hrest⟩ := h.installed hzero
    obtain ⟨after, hafter, heq⟩ := moveFlight_kept phase hheld hg
    exact ⟨g, after, value, hafter, heq ▸ hgeneration, hrest⟩

/-- The load begins: every load before it was answered. -/
theorem Consistent.begin (h : Consistent state) {f : ℕ} {flight : Flight Value}
    (hflight : state.flights[f]? = some flight) (hphase : flight.phase = .scheduled) :
    Consistent ((state.moveFlight f flight .loading).record (.began f)) := by
  have hflying : ¬ flight.phase.Settled := by
    rw [hphase]
    exact id
  have hfresh : Logged state.log f .scheduled := hphase ▸ h.logged f flight hflight
  have horderly : Orderly (.began f) state.log := by
    refine ⟨hfresh.1, ?_⟩
    intro other hbegan
    have hlt : other < state.flights.length := h.lt_of_began hbegan
    have hnewest : f + 1 = state.flights.length := h.newest_of_flying hflight hflying
    have hne : other ≠ f := by
      rintro rfl
      exact hfresh.1 hbegan
    exact (h.answered_of_lt hflight hflying (by omega)).2
  exact h.advance hflight hflying rfl (by simpa [Logged] using hfresh.2) horderly h.held_eq (.inl rfl)

/-- The load is answered, once. -/
theorem Consistent.answer (h : Consistent state) {f : ℕ} {flight : Flight Value}
    (hflight : state.flights[f]? = some flight) (hphase : flight.phase = .loading) (result : Option Value) :
    Consistent ((state.moveFlight f flight (.answered result)).record (.answered f result)) := by
  have hflying : ¬ flight.phase.Settled := by
    rw [hphase]
    exact id
  have hloading : Logged state.log f .loading := hphase ▸ h.logged f flight hflight
  refine h.advance hflight hflying rfl ?_ ⟨hloading.1, hloading.2.1⟩ h.held_eq (.inl rfl)
  simpa [Logged] using ⟨hloading.1, hloading.2.2⟩

/-- A value of the current generation is installed: its load began after every call so far. -/
theorem Consistent.install (h : Consistent state) {f : ℕ} {flight : Flight Value} {value : Value}
    (hflight : state.flights[f]? = some flight) (hphase : flight.phase = .answered (some value))
    (hgeneration : flight.generation = state.generation) :
    Consistent (state.advance f flight (.handled true) (.installed f value :: state.log) (some value)
      flight.generation) := by
  have hflying : ¬ flight.phase.Settled := by
    rw [hphase]
    exact id
  have hanswered : Logged state.log f (.answered (some value)) := hphase ▸ h.logged f flight hflight
  have horderly : Orderly (.installed f value) state.log := by
    refine ⟨hanswered.2.1, ?_, ?_⟩
    · intro w hcalled
      have hlt : w < state.waiters.length := (h.called_iff w).mp hcalled
      have hwaiter : state.waiters[w]? = some state.waiters[w] := List.getElem?_eq_getElem hlt
      have hle : (state.waiters[w]).requiredGeneration ≤ flight.generation := hgeneration ▸ h.waiter_le w _ hwaiter
      exact (h.fresh f flight w _ hflight hwaiter hanswered.1 hle).2
    · intro other value' hinstalled
      have hnewest : f + 1 = state.flights.length := h.newest_of_flying hflight hflying
      have hlt : other < state.flights.length := by
        by_contra hlt
        exact (h.unlogged other (by omega)).2.2 value' hinstalled
      have hne : other ≠ f := by
        rintro rfl
        exact hanswered.2.2 value' hinstalled
      exact h.ordered f other hanswered.1 (by omega)
  refine h.advance hflight hflying rfl ?_ horderly rfl (.inr ⟨rfl, hanswered.1, value, rfl⟩)
  simpa [Logged] using ⟨hanswered.1, _, hanswered.2.1⟩

/-- The flight is over and no longer in flight. -/
theorem Consistent.finish (h : Consistent state) {f : ℕ} {flight : Flight Value} {ok : Bool}
    (hflight : state.flights[f]? = some flight) (hphase : flight.phase = .handled ok) :
    Consistent { state.moveFlight f flight (.settled ok) with inFlight := none } := by
  have hflying : ¬ flight.phase.Settled := by
    rw [hphase]
    exact id
  have hhandled : Logged state.log f (.handled ok) := hphase ▸ h.logged f flight hflight
  have hmoved : Consistent (state.moveFlight f flight (.settled ok)) := h.moveFlight hflight hflying hhandled
  refine ⟨?_, nofun, hmoved.flight_le, hmoved.waiter_le, hmoved.logged, hmoved.unlogged,
    hmoved.called_iff, hmoved.ordered, hmoved.fresh, hmoved.installed, hmoved.held_eq, hmoved.orderly⟩
  intro g other hg hunsettled
  rcases moveFlight_get hg with ⟨rfl, rfl⟩ | ⟨hne, hold⟩
  · exact absurd trivial hunsettled
  · have hsame : some f = some g :=
      (h.flying f flight hflight hflying).symm.trans (h.flying g other hold hunsettled)
    exact absurd (Option.some.inj hsame).symm hne

/-- A new call asks for a generation that no flight so far was started at. -/
theorem Consistent.call (h : Consistent state) (phase : WaiterPhase) : Consistent (({ state with
      generation := state.generation + 1
      waiters := state.waiters ++ [⟨state.generation + 1, phase⟩] } : SnapshotRefresh Value).record
        (.called state.waiters.length)) := by
  have hget {w : ℕ} {waiter : Waiter} (hw : (state.waiters ++ [⟨state.generation + 1, phase⟩])[w]? = some waiter) :
      state.waiters[w]? = some waiter ∨ waiter.requiredGeneration = state.generation + 1 := by
    rw [List.getElem?_append] at hw
    split at hw
    · exact .inl hw
    · have hmem := List.mem_of_getElem? hw
      rw [List.mem_singleton.mp hmem]
      exact .inr rfl
  have hmem {f : ℕ} (hf : .began f ∈ (.called state.waiters.length : Entry Value) :: state.log) :
      .began f ∈ state.log := by
    simpa using hf
  refine ⟨h.flying, h.newest, ?_, ?_, ?_, ?_, ?_, ?_, ?_, ?_, h.held_eq, ?_, h.orderly⟩
  · intro f flight hf
    exact Nat.le_succ_of_le (h.flight_le f flight hf)
  · intro w waiter hw
    rcases hget hw with hold | hnew
    · exact Nat.le_succ_of_le (h.waiter_le w waiter hold)
    · exact Nat.le_of_eq hnew
  · intro f flight hf
    exact (h.logged f flight hf).cons id
  · intro f hf
    exact (h.unlogged f hf).cons id
  · intro w
    have hold := h.called_iff w
    simp only [record, List.mem_cons, Entry.called.injEq, hold, List.length_append, List.length_singleton]
    omega
  · intro f other hf hlt
    exact (h.ordered f other (hmem hf) hlt).cons _
  · intro f flight w waiter hf hw hlog hle
    have hgeneration : flight.generation ≤ state.generation := h.flight_le f flight hf
    rcases hget hw with hold | hnew
    · obtain ⟨hafter, hnot⟩ := h.fresh f flight w waiter hf hold (hmem hlog) hle
      refine ⟨hafter.cons _, ?_⟩
      rw [record, precedes_cons]
      rintro (⟨heq, -⟩ | hprecedes)
      · have hlt : w < state.waiters.length := (List.getElem?_eq_some_iff.mp hold).1
        have := Entry.called.inj heq
        omega
      · exact hnot hprecedes
    · omega
  · intro hzero
    obtain ⟨f, flight, value, hf, hgeneration, hin, hbegan⟩ := h.installed hzero
    exact ⟨f, flight, value, hf, hgeneration, List.mem_cons_of_mem _ hin, List.mem_cons_of_mem _ hbegan⟩
  · exact fun hcalled => Nat.lt_irrefl _ ((h.called_iff _).mp hcalled)

/-- The call resolves behind an installed value that is as young as it requires, or waits for the flight it joins.
-/
theorem Consistent.awaitGeneration (h : Consistent state) {w : ℕ} {held : Waiter}
    (hheld : state.waiters[w]? = some held) : Consistent (state.awaitGeneration w held) := by
  unfold SnapshotRefresh.awaitGeneration
  split
  · refine h.join.moveWaiter ?_ _
    unfold SnapshotRefresh.join
    cases state.inFlight <;> exact hheld
  · next hle =>
    refine (h.moveWaiter hheld .resolved).recordReturn (.inr ⟨w, rfl⟩) ?_
    obtain ⟨f, flight, value, hf, hgeneration, hinstalled, hbegan⟩ := h.installed (by omega)
    exact ⟨f, value, hinstalled, (h.fresh f flight w held hf hheld hbegan (by omega)).1⟩

/-- Whatever happens, the refresh stays consistent. -/
theorem Consistent.step (h : Consistent state) (event : RefreshEvent Value) : Consistent (state.step event) := by
  cases event with
  | refresh => exact h.join
  | refreshAfterMutation =>
    refine (h.call .checking).awaitGeneration ?_
    simp [record]
  | begin f =>
    rw [SnapshotRefresh.step]
    cases hflight : state.flights[f]? with
    | none => exact h
    | some flight =>
      cases hphase : flight.phase with
      | scheduled => simpa only [hphase] using h.begin hflight hphase
      | _ => simpa only [hphase] using h
  | answer f result =>
    rw [SnapshotRefresh.step]
    cases hflight : state.flights[f]? with
    | none => exact h
    | some flight =>
      cases hphase : flight.phase with
      | loading => simpa only [hphase] using h.answer hflight hphase result
      | _ => simpa only [hphase] using h
  | handle f installThrows =>
    rw [SnapshotRefresh.step]
    cases hflight : state.flights[f]? with
    | none => exact h
    | some flight =>
      cases hphase : flight.phase with
      | answered result =>
        have hflying : ¬ flight.phase.Settled := by
          rw [hphase]
          exact id
        have hanswered : Logged state.log f (.answered result) := hphase ▸ h.logged f flight hflight
        have hdropped (ok : Bool) : Consistent (state.moveFlight f flight (.handled ok)) :=
          h.moveFlight hflight hflying ⟨hanswered.1, result, hanswered.2.1⟩
        cases result with
        | none => simpa only [hphase] using hdropped false
        | some value =>
          simp only [hphase, handleValue]
          split
          · exact hdropped true
          · next hgeneration =>
            cases installThrows with
            | true => exact hdropped false
            | false => exact h.install hflight hphase (by simpa using hgeneration)
      | _ => simpa only [hphase] using h
  | finish f =>
    rw [SnapshotRefresh.step]
    cases hflight : state.flights[f]? with
    | none => exact h
    | some flight =>
      cases hphase : flight.phase with
      | handled ok => simpa only [hphase] using h.finish hflight hphase
      | _ => simpa only [hphase] using h
  | wake w =>
    rw [SnapshotRefresh.step]
    cases hwaiter : state.waiters[w]? with
    | none => exact h
    | some waiter =>
      dsimp only
      split
      · split
        · split
          · exact h.awaitGeneration hwaiter
          · split
            · exact (h.moveWaiter hwaiter .rejected).recordReturn (.inl ⟨w, rfl⟩) trivial
            · exact h.awaitGeneration hwaiter
          · exact h
        · exact h
      · exact h

/-- Every run is consistent. -/
theorem run_consistent (events : List (RefreshEvent Value)) : Consistent (run events) :=
  runFrom_invariant Consistent (fun _ event h => h.step event) events {} .initial

/-- Along every run the log is orderly: loads never overlap, a call resolves only behind a value whose load began
after it, no value is installed behind a call that its load precedes, and values are installed in the order their
loads began. -/
theorem run_readYourWrites (events : List (RefreshEvent Value)) :
    EveryEntry Orderly (run events).log ∧ (run events).held = lastInstalled (run events).log ∧
      ∀ flight value, .answered flight none ∈ (run events).log → .installed flight value ∉ (run events).log := by
  have h : Consistent (run events) := run_consistent events
  refine ⟨h.orderly, h.held_eq, ?_⟩
  intro flight value hfailed hinstalled
  cases answered_unique h.orderly hfailed (answered_of_installed h.orderly hinstalled)

-- A mutation announced while a read is under way drops that read; the trailing one is installed.
example : (run [.refresh, .begin 0, .refreshAfterMutation, .answer 0 (some 1), .handle 0 false,
    .finish 0, .wake 0, .begin 1, .answer 1 (some 2), .handle 1 false, .finish 1, .wake 0]).log =
      [.resolved 0, .installed 1 2, .answered 1 (some 2), .began 1, .answered 0 (some 1), .called 0,
        .began 0] := by decide

end SnapshotRefresh

end MultiAiRouter.Snapshots
