import MultiAiRouter.Common.Run

/-!
# Steps that emit

A step that returns outputs beside its next state, run over a list of inputs. A reader that takes the outputs one by
one and may refuse accepts a whole run when each step leaves it related to the state. Inputs that change and emit
nothing can be left out of a run.
-/

namespace MultiAiRouter.Common

variable {State Input Output Reader : Type*}

/-- Run a step that emits: the state after the inputs, and every output in order. -/
def emitFrom (step : State → Input → State × List Output) : State → List Input → State × List Output
  | state, [] => (state, [])
  | state, input :: rest =>
    ((emitFrom step (step state input).1 rest).1, (step state input).2 ++ (emitFrom step (step state input).1 rest).2)

@[simp] theorem emitFrom_nil (step : State → Input → State × List Output) (state : State) :
    emitFrom step state [] = (state, []) := rfl

theorem emitFrom_cons (step : State → Input → State × List Output) (state : State) (input : Input)
    (rest : List Input) : emitFrom step state (input :: rest) = ((emitFrom step (step state input).1 rest).1,
        (step state input).2 ++ (emitFrom step (step state input).1 rest).2) := rfl

/-- The states of a run that emits are those of a run that does not. -/
theorem emitFrom_fst (step : State → Input → State × List Output) (state : State) (inputs : List Input) :
    (emitFrom step state inputs).1 = runFrom (fun state input => (step state input).1) state inputs := by
  induction inputs generalizing state with
  | nil => rfl
  | cons input rest ih => exact ih (step state input).1

/-- A run in two parts emits what the first part does and then what the second does. -/
theorem emitFrom_append (step : State → Input → State × List Output) (state : State) (first second : List Input) :
    emitFrom step state (first ++ second) = ((emitFrom step (emitFrom step state first).1 second).1,
        (emitFrom step state first).2 ++ (emitFrom step (emitFrom step state first).1 second).2) := by
  induction first generalizing state with
  | nil => rfl
  | cons input rest ih => simp [emitFrom_cons, ih]

/-- What was emitted, and then what the next step emits from there. -/
def emitThen (first : State × List Output) (next : State → State × List Output) : State × List Output :=
  ((next first.1).1, first.2 ++ (next first.1).2)

theorem emitThen_assoc (first : State × List Output) (second third : State → State × List Output) :
    emitThen (emitThen first second) third = emitThen first fun state => emitThen (second state) third := by
  simp [emitThen]

/-- A step that keeps everything emitted so far beside the state. -/
def logged (step : State → Input → State × List Output) (tracked : State × List Output) (input : Input) :
    State × List Output :=
  ((step tracked.1 input).1, tracked.2 ++ (step tracked.1 input).2)

/-- A reader takes outputs one after another until it refuses one. -/
def readAll (read : Reader → Output → Option Reader) : Reader → List Output → Option Reader
  | reader, [] => some reader
  | reader, output :: rest => (read reader output).bind fun next => readAll read next rest

@[simp] theorem readAll_nil (read : Reader → Output → Option Reader) (reader : Reader) :
    readAll read reader [] = some reader := rfl

@[simp] theorem readAll_cons (read : Reader → Output → Option Reader) (reader : Reader) (output : Output)
    (rest : List Output) :
    readAll read reader (output :: rest) = (read reader output).bind fun next => readAll read next rest := rfl

/-- Outputs are read part by part. -/
theorem readAll_append (read : Reader → Output → Option Reader) (reader : Reader) (first second : List Output) :
    readAll read reader (first ++ second) =
      (readAll read reader first).bind fun next => readAll read next second := by
  induction first generalizing reader with
  | nil => rfl
  | cons output rest ih => cases hread : read reader output <;> simp [hread, ih]

section Rules

variable {step : State → Input → State × List Output} {condition : State → Input → Prop}

/-- A reader that each step leaves related to the state accepts what a run emits. -/
theorem emitFrom_read {read : Reader → Output → Option Reader} (related : State → Reader → Prop)
    (hstep : ∀ state reader input, related state reader → condition state input →
      ∃ next, readAll read reader (step state input).2 = some next ∧ related (step state input).1 next)
    (inputs : List Input) (state : State) (reader : Reader) (hrelated : related state reader)
    (hrun : EveryStep (fun state input => (step state input).1) condition state inputs) :
    ∃ next, readAll read reader (emitFrom step state inputs).2 = some next ∧
      related (emitFrom step state inputs).1 next := by
  induction inputs generalizing state reader with
  | nil => exact ⟨reader, rfl, hrelated⟩
  | cons input rest ih =>
    obtain ⟨next, hread, hnext⟩ := hstep state reader input hrelated hrun.1
    obtain ⟨last, hlast, hend⟩ := ih (step state input).1 next hnext hrun.2
    exact ⟨last, by rw [emitFrom_cons, readAll_append, hread, Option.bind_some, hlast], hend⟩

/-- A reader that goes along with the steps that meet the condition and refuses any other accepts a run
exactly when all meet it. -/
theorem emitFrom_accepts_iff {read : Reader → Output → Option Reader} (phase : State → Reader)
    {invariant : State → Prop} (hinvariant : ∀ state input, invariant state → invariant (step state input).1)
    (hkeeps : ∀ state input, invariant state → condition state input →
      readAll read (phase state) (step state input).2 = some (phase (step state input).1))
    (hrefuses : ∀ state input, invariant state → ¬ condition state input →
      readAll read (phase state) (step state input).2 = none)
    (inputs : List Input) (state : State) (hstate : invariant state) :
    readAll read (phase state) (emitFrom step state inputs).2 = some (phase (emitFrom step state inputs).1) ∧
        EveryStep (fun state input => (step state input).1) condition state inputs ∨
      readAll read (phase state) (emitFrom step state inputs).2 = none ∧
        ¬ EveryStep (fun state input => (step state input).1) condition state inputs := by
  induction inputs generalizing state with
  | nil => exact .inl ⟨rfl, trivial⟩
  | cons input rest ih =>
    by_cases hmeets : condition state input
    · rw [emitFrom_cons, readAll_append, hkeeps state input hstate hmeets, Option.bind_some]
      refine (ih (step state input).1 (hinvariant state input hstate)).imp ?_ ?_
      · exact fun h => ⟨h.1, hmeets, h.2⟩
      · exact fun h => ⟨h.1, fun hevery => h.2 hevery.2⟩
    · rw [emitFrom_cons, readAll_append, hrefuses state input hstate hmeets, Option.bind_none]
      exact .inr ⟨rfl, fun hevery => hmeets hevery.1⟩

/-- What each step keeps of the state and of everything emitted so far, a run keeps. -/
theorem emitFrom_log (kept : State → List Output → Prop)
    (hstep : ∀ state log input, kept state log → kept (step state input).1 (log ++ (step state input).2))
    (inputs : List Input) (state : State) (log : List Output) (hstate : kept state log) :
    kept (emitFrom step state inputs).1 (log ++ (emitFrom step state inputs).2) := by
  induction inputs generalizing state log with
  | nil => simpa using hstate
  | cons input rest ih =>
    rw [emitFrom_cons, ← List.append_assoc]
    exact ih (step state input).1 (log ++ (step state input).2) (hstep state log input hstate)

/-- Two machines that each step leaves related, and that emit the same from related states, emit the same over every
run. -/
theorem emitFrom_simulates {Other : Type*} {other : Other → Input → Other × List Output}
    (related : State → Other → Prop)
    (hstep : ∀ state reference input, related state reference →
      (step state input).2 = (other reference input).2 ∧ related (step state input).1 (other reference input).1)
    (inputs : List Input) (state : State) (reference : Other) (hstate : related state reference) :
    (emitFrom step state inputs).2 = (emitFrom other reference inputs).2 ∧
      related (emitFrom step state inputs).1 (emitFrom other reference inputs).1 := by
  induction inputs generalizing state reference with
  | nil => exact ⟨rfl, hstate⟩
  | cons input rest ih =>
    obtain ⟨hemits, hnext⟩ := hstep state reference input hstate
    obtain ⟨hlater, hend⟩ := ih _ _ hnext
    rw [emitFrom_cons, emitFrom_cons, hemits, hlater]
    exact ⟨rfl, hend⟩

/-- Inputs that change nothing and emit nothing where they are taken can be left out. -/
theorem emitFrom_filter (visible : Input → Bool)
    (hsilent : ∀ state input, condition state input → visible input = false → step state input = (state, []))
    (inputs : List Input) (state : State)
    (hrun : EveryStep (fun state input => (step state input).1) condition state inputs) :
    emitFrom step state inputs = emitFrom step state (inputs.filter visible) := by
  induction inputs generalizing state with
  | nil => rfl
  | cons input rest ih =>
    have hrest := ih (step state input).1 hrun.2
    cases hvisible : visible input with
    | true => rw [List.filter_cons_of_pos hvisible, emitFrom_cons, emitFrom_cons, hrest]
    | false =>
      have hquiet := hsilent state input hrun.1 hvisible
      rw [List.filter_cons_of_neg (by simp [hvisible]), emitFrom_cons, hrest, hquiet]
      rfl

end Rules

end MultiAiRouter.Common
