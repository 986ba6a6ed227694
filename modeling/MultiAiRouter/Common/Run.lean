import Mathlib.Data.List.Basic

/-!
# Runs of a step function

A run folds a step function over a list of inputs. An invariant that one step preserves holds after every run; one
that needs a condition on each step, after every run whose steps meet it. A log that each step extends by at most
one entry is judged entry by entry.
-/

namespace MultiAiRouter.Common

variable {Entry : Type*} {entries : List Entry} {entry found : Entry} {index place : ℕ}

/-- What stands in a list after one place was written to. -/
theorem getElem?_set_cases (h : (entries.set place entry)[index]? = some found) :
    (index = place ∧ found = entry) ∨ (index ≠ place ∧ entries[index]? = some found) := by
  rw [List.getElem?_set] at h
  by_cases hplace : place = index
  · rw [if_pos hplace] at h
    split at h
    · exact .inl ⟨hplace.symm, (Option.some.inj h).symm⟩
    · simp at h
  · rw [if_neg hplace] at h
    exact .inr ⟨Ne.symm hplace, h⟩

/-- What stands in a list with one more entry. -/
theorem getElem?_concat_cases (h : (entries ++ [entry])[index]? = some found) :
    entries[index]? = some found ∨ (index = entries.length ∧ found = entry) := by
  rcases Nat.lt_trichotomy index entries.length with hlt | rfl | hgt
  · rw [List.getElem?_append_left hlt] at h
    exact .inl h
  · rw [List.getElem?_concat_length] at h
    exact .inr ⟨rfl, (Option.some.inj h).symm⟩
  · rw [List.getElem?_eq_none (by simp; omega)] at h
    simp at h

variable {State Input : Type*}

/-- Fold the step function over the inputs, the first input first. -/
def runFrom (step : State → Input → State) (state : State) (inputs : List Input) : State :=
  inputs.foldl step state

@[simp] theorem runFrom_nil (step : State → Input → State) (state : State) : runFrom step state [] = state := rfl

@[simp] theorem runFrom_cons (step : State → Input → State) (state : State) (input : Input) (rest : List Input) :
    runFrom step state (input :: rest) = runFrom step (step state input) rest := rfl

/-- A run in two parts is the second part from where the first one ended. -/
theorem runFrom_append (step : State → Input → State) (state : State) (first second : List Input) :
    runFrom step state (first ++ second) = runFrom step (runFrom step state first) second :=
  List.foldl_append ..

/-- Every step of the run meets the condition in the state it is taken from. -/
def EveryStep (step : State → Input → State) (condition : State → Input → Prop) :
    State → List Input → Prop
  | _, [] => True
  | state, input :: rest => condition state input ∧ EveryStep step condition (step state input) rest

/-- A condition that is decidable step by step is decidable over a run. -/
instance EveryStep.decidable (step : State → Input → State) (condition : State → Input → Prop)
    [∀ state input, Decidable (condition state input)] :
    ∀ state inputs, Decidable (EveryStep step condition state inputs)
  | _, [] => isTrue trivial
  | state, input :: rest =>
    have := EveryStep.decidable step condition (step state input) rest
    inferInstanceAs (Decidable (condition state input ∧ EveryStep step condition (step state input) rest))

/-- Some step of the run is the event, in the state it is taken from. -/
def SomeStep (step : State → Input → State) (event : State → Input → Prop) :
    State → List Input → Prop
  | _, [] => False
  | state, input :: rest => event state input ∨ SomeStep step event (step state input) rest

/-- A run without the event has a step that is not the event everywhere. -/
theorem not_someStep {step : State → Input → State} {event : State → Input → Prop} {state : State}
    {inputs : List Input} : ¬ SomeStep step event state inputs ↔
      EveryStep step (fun state input => ¬ event state input) state inputs := by
  induction inputs generalizing state with
  | nil => simp [SomeStep, EveryStep]
  | cons input rest ih => simp [SomeStep, EveryStep, ih, not_or]

/-- An event of a run in two parts is in the one or in the other. -/
theorem someStep_append {step : State → Input → State} {event : State → Input → Prop} {state : State}
    {first second : List Input} : SomeStep step event state (first ++ second) ↔
      SomeStep step event state first ∨ SomeStep step event (runFrom step state first) second := by
  induction first generalizing state with
  | nil => simp [SomeStep]
  | cons input rest ih => simp [SomeStep, ih, or_assoc]

/-- The steps of a run in two parts meet the condition in the one and in the other. -/
theorem everyStep_append {step : State → Input → State} {condition : State → Input → Prop} {state : State}
    {first second : List Input} : EveryStep step condition state (first ++ second) ↔
      EveryStep step condition state first ∧ EveryStep step condition (runFrom step state first) second := by
  induction first generalizing state with
  | nil => simp [EveryStep]
  | cons input rest ih => simp [EveryStep, ih, and_assoc]

/-- Inputs that meet the condition in any state meet it at every step. -/
theorem everyStep_of_forall {step : State → Input → State} {condition : State → Input → Prop} {inputs : List Input}
    (h : ∀ input ∈ inputs, ∀ state, condition state input) (state : State) :
    EveryStep step condition state inputs := by
  induction inputs generalizing state with
  | nil => trivial
  | cons input rest ih =>
    exact ⟨h input (List.mem_cons_self ..) state, ih (fun other hmem => h other (.tail _ hmem)) (step state input)⟩

/-- A run whose steps meet two conditions meets both at every step. -/
theorem everyStep_and {step : State → Input → State} {first second : State → Input → Prop} {state : State}
    {inputs : List Input} (hfirst : EveryStep step first state inputs) (hsecond : EveryStep step second state inputs) :
    EveryStep step (fun state input => first state input ∧ second state input) state inputs := by
  induction inputs generalizing state with
  | nil => trivial
  | cons input rest ih => exact ⟨⟨hfirst.1, hsecond.1⟩, ih hfirst.2 hsecond.2⟩

/-- Two conditions that agree on every step an invariant allows agree over a run. -/
theorem everyStep_congr {step : State → Input → State} {first second : State → Input → Prop}
    (invariant : State → Prop) (hiff : ∀ state input, invariant state → (first state input ↔ second state input))
    (hstep : ∀ state input, invariant state → first state input → invariant (step state input))
    (inputs : List Input) (state : State) (hstate : invariant state) :
    EveryStep step first state inputs ↔ EveryStep step second state inputs := by
  induction inputs generalizing state with
  | nil => exact Iff.rfl
  | cons input rest ih =>
    rw [EveryStep, EveryStep, ← hiff state input hstate]
    exact and_congr_right fun hfirst => ih (step state input) (hstep state input hstate hfirst)

/-- What each step preserves under the condition, a run whose steps meet it preserves. -/
theorem runFrom_invariant_of_everyStep {step : State → Input → State}
    {condition : State → Input → Prop} (invariant : State → Prop)
    (hstep : ∀ state input, invariant state → condition state input → invariant (step state input))
    (inputs : List Input) (state : State) (hstate : invariant state)
    (hrun : EveryStep step condition state inputs) : invariant (runFrom step state inputs) := by
  induction inputs generalizing state with
  | nil => exact hstate
  | cons input rest ih => exact ih (step state input) (hstep state input hstate hrun.1) hrun.2

/-- What each step preserves, a run preserves. -/
theorem runFrom_invariant {step : State → Input → State} (invariant : State → Prop)
    (hstep : ∀ state input, invariant state → invariant (step state input)) (inputs : List Input) (state : State)
    (hstate : invariant state) : invariant (runFrom step state inputs) := by
  induction inputs generalizing state with
  | nil => exact hstate
  | cons input rest ih => exact ih (step state input) (hstep state input hstate)

/-- Steps from states an invariant holds of meet every condition that it gives. -/
theorem everyStep_of_invariant {step : State → Input → State} {condition : State → Input → Prop}
    (invariant : State → Prop) (hstep : ∀ state input, invariant state → invariant (step state input))
    (hcondition : ∀ state input, invariant state → condition state input)
    (inputs : List Input) (state : State) (hstate : invariant state) : EveryStep step condition state inputs := by
  induction inputs generalizing state with
  | nil => trivial
  | cons input rest ih => exact ⟨hcondition state input hstate, ih (step state input) (hstep state input hstate)⟩

/-- A measure that every step decreases until the run is over bounds the run. -/
theorem runFrom_finishes {step : State → Input → State} (invariant finished : State → Prop) (measure : State → ℕ)
    (hstep : ∀ state input, invariant state → invariant (step state input))
    (hfinished : ∀ state input, finished state → finished (step state input))
    (hmeasure : ∀ state input, invariant state → ¬ finished state →
      finished (step state input) ∨ measure (step state input) < measure state)
    (inputs : List Input) (state : State) (hstate : invariant state)
    (hlength : measure state < inputs.length) : finished (runFrom step state inputs) := by
  induction inputs generalizing state with
  | nil => simp at hlength
  | cons input rest ih =>
    have hkeep (state : State) (h : finished state) : finished (runFrom step state rest) :=
      runFrom_invariant finished hfinished rest state h
    by_cases hdone : finished state
    · exact hkeep _ (hfinished state input hdone)
    · rcases hmeasure state input hstate hdone with hnow | hless
      · exact hkeep _ hnow
      · refine ih (step state input) (hstep state input hstate) ?_
        rw [List.length_cons] at hlength
        omega

/-- Every entry of a log, newest first, is judged against the entries logged before it. -/
def EveryEntry {Entry : Type*} (judge : Entry → List Entry → Prop) : List Entry → Prop
  | [] => True
  | entry :: earlier => judge entry earlier ∧ EveryEntry judge earlier

/-- Judging a log is decidable where judging an entry is. -/
instance EveryEntry.decidable {Entry : Type*} (judge : Entry → List Entry → Prop)
    [∀ entry earlier, Decidable (judge entry earlier)] : ∀ log, Decidable (EveryEntry judge log)
  | [] => isTrue trivial
  | entry :: earlier =>
    have := EveryEntry.decidable judge earlier
    inferInstanceAs (Decidable (judge entry earlier ∧ EveryEntry judge earlier))

end MultiAiRouter.Common
