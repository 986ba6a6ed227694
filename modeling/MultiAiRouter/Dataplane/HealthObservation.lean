import Mathlib.Logic.Function.Basic
import MultiAiRouter.Routing.Types

/-!
# Observations of an account

The durable facts of the catalog row, held per account with a local generation. An attempt captures
an observation when it starts and hands it back with its verdict; a verdict whose observation is no
longer held is refused.
-/

namespace MultiAiRouter.Dataplane

open Routing

/-- Durable facts from the catalog row. -/
structure HealthAccountFacts where
  lifecycleVersion : Nat
  healthRecoveryVersion : Nat
  authRecoveryVersion : Nat
  authMaterial : Option String
  status : AccountStatus
  recoveryGeneration : Option String := none
  deriving DecidableEq

/-- What an attempt captured; `identity` tells the captured objects apart. -/
structure HealthObservation extends HealthAccountFacts where
  observationGeneration : Nat
  verdictVersion : Nat
  identity : Nat
  deriving DecidableEq

/-- What a change of facts recovers. -/
inductive RecoveryKind
  | full
  | authentication
  deriving DecidableEq

/-- Independent epochs survive replicas missing intermediate commits. -/
def recoveryKind (before : Option HealthAccountFacts) (after : HealthAccountFacts) : Option RecoveryKind :=
  match before with
  | none => none
  | some before =>
    if before.healthRecoveryVersion < after.healthRecoveryVersion then some .full
    else if after.status = .disabled ∨ after.status = .exhausted then none
    else if before.authRecoveryVersion < after.authRecoveryVersion ∨
        (after.status = .active ∧ after.authMaterial ≠ before.authMaterial) then some .authentication
    else none

/-- The facts held for an account. -/
structure HeldObservation where
  facts : HealthAccountFacts
  generation : Nat
  verdictVersion : Nat
  deriving DecidableEq

/-- Local ordering over durable facts. -/
structure HealthObservations where
  held : String → Option HeldObservation := fun _ => none
  generation : Nat := 0
  captures : Nat := 0

namespace HealthObservations

/-- The facts are new to the account and not behind an operator's mutation. -/
def installs (observations : HealthObservations) (accountId : String) (facts : HealthAccountFacts) : Bool :=
  match observations.held accountId with
  | none => true
  | some previous =>
    previous.facts != facts && decide (previous.facts.lifecycleVersion ≤ facts.lifecycleVersion)

/-- Install the facts, saying what they recover. -/
def reconcile (observations : HealthObservations) (accountId : String) (facts : HealthAccountFacts) :
    Option RecoveryKind × HealthObservations :=
  if !observations.installs accountId facts then (none, observations)
  else
    let previous := observations.held accountId
    (recoveryKind (previous.map HeldObservation.facts) facts,
      { observations with
        held := Function.update observations.held accountId <| some
          { facts, generation := observations.generation + 1
            verdictVersion := (previous.map HeldObservation.verdictVersion).getD 0 }
        generation := observations.generation + 1 })

/-- A verdict without an observation, or with the held one, is accepted. -/
def accepts (observations : HealthObservations) (accountId : String)
    (observation : Option HealthObservation) : Bool :=
  match observation with
  | none => true
  | some observation =>
    (observations.held accountId).any fun current =>
      current.generation == observation.observationGeneration &&
        current.facts == observation.toHealthAccountFacts

/-- A success is accepted while no other verdict came since its observation. -/
def acceptsSuccess (observations : HealthObservations) (accountId : String)
    (observation : Option HealthObservation) : Bool :=
  observations.accepts accountId observation &&
    observation.all fun observation =>
      (observations.held accountId).map HeldObservation.verdictVersion == some observation.verdictVersion

/-- Capture the facts an attempt starts from, installing them if none are held. -/
def capture (observations : HealthObservations) (accountId : String) (facts : HealthAccountFacts) :
    HealthObservation × HealthObservations :=
  let installed :=
    if (observations.held accountId).isSome then observations
    else (observations.reconcile accountId facts).2
  let current := installed.held accountId
  ({ facts with
      observationGeneration := (current.map HeldObservation.generation).getD 0
      verdictVersion := (current.map HeldObservation.verdictVersion).getD 0
      identity := installed.captures },
    { installed with captures := installed.captures + 1 })

/-- A verdict came in. -/
def advanceVerdict (observations : HealthObservations) (accountId : String) : HealthObservations :=
  match observations.held accountId with
  | none => observations
  | some current =>
    { observations with
      held := Function.update observations.held accountId <| some
        { current with verdictVersion := current.verdictVersion + 1 } }

/-- Hold nothing for the account. -/
def forget (observations : HealthObservations) (accountId : String) : HealthObservations :=
  { observations with held := Function.update observations.held accountId none }

end HealthObservations

/-- Only a raised health epoch recovers an account in full. -/
theorem recoveryKind_full {before : Option HealthAccountFacts} {after : HealthAccountFacts}
    (h : recoveryKind before after = some .full) :
    ∃ facts, before = some facts ∧ facts.healthRecoveryVersion < after.healthRecoveryVersion := by
  cases before with
  | none => cases h
  | some facts =>
    simp only [recoveryKind] at h
    split_ifs at h with hraised
    · exact ⟨facts, rfl, hraised⟩
    · cases h

end MultiAiRouter.Dataplane
