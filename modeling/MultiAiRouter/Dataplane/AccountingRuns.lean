import MultiAiRouter.Dataplane.AccountingSound

/-!
# What the accounting of a request writes

Over every order of calls: nothing is kept back once the answer, the failure or the abandonment has
run, and the request is settled once.
-/

namespace MultiAiRouter.Dataplane

open Common

namespace RequestLifetime

/-- Whether shutdown would find a callback to run for the request. -/
def abandonable (lifetime : RequestLifetime) : Option AbandonCallback :=
  lifetime.lease.bind fun lease => if lease.released then none else lease.callback

/-- The events a shutdown callback records. -/
def callbackEvents (input : AccountingInput) (moment : Moment) (lifetime : RequestLifetime)
    (event : UsageRecord) (relaySettled : Bool) : AbandonCallback → List UsageRecord
  | .shutdown => lifetime.accounting.failEvents input moment .routerShutdown
  | .attempt => [event]
  | .relay => if relaySettled then [] else [event]

/-- The events one call records: those that arrive before the request is abandoned. -/
def recordedBy (input : AccountingInput) (lifetime : RequestLifetime)
    (call : LifetimeCall × Moment) : List UsageRecord :=
  match call.1 with
  | .record event => if lifetime.abandoned then [] else [event]
  | .recordTerminal event => if lifetime.abandoned then [] else [event]
  | .fail error clientsOwnAbort =>
    if lifetime.abandoned then []
    else lifetime.accounting.failEvents input call.2
      (if clientsOwnAbort then .clientCancelled else error)
  | .stop event relaySettled =>
    match lifetime.abandonable with
    | none => []
    | some callback => lifetime.callbackEvents input call.2 event relaySettled callback
  | _ => []

/-- The events a run of calls records, in the order they are recorded. -/
def recordedEvents (input : AccountingInput) :
    RequestLifetime → List (LifetimeCall × Moment) → List UsageRecord
  | _, [] => []
  | lifetime, call :: rest =>
    lifetime.recordedBy input call ++ recordedEvents input (lifetime.step input call) rest

/-- A settling event, a failure, a failed answer to a request that recorded something, and a
shutdown that fails the request or settles its relay. -/
def Closes (lifetime : RequestLifetime) (events : List UsageRecord) : LifetimeCall → Prop
  | .recordTerminal _ => lifetime.abandoned = false
  | .fail .. => lifetime.abandoned = false
  | .respond status => isOk status = false ∧ events ≠ []
  | .stop _ relaySettled =>
    lifetime.abandonable = some .shutdown ∨ lifetime.abandonable = some .relay ∧ relaySettled = false
  | _ => False

/-- The accounting is sound, and an abandoned request keeps nothing back and holds no lease. -/
structure Sound (lifetime : RequestLifetime) (events : List UsageRecord) : Prop where
  accounting : lifetime.accounting.Sound events
  written : lifetime.abandoned → lifetime.accounting.pending = none
  freed : lifetime.abandoned → ∀ lease ∈ lifetime.lease, lease.released

variable {lifetime : RequestLifetime} {events : List UsageRecord} (input : AccountingInput)

/-- A request shutdown can still reach is not abandoned. -/
theorem Sound.abandoned_eq_false (hsound : lifetime.Sound events)
    (h : lifetime.abandonable.isSome) : lifetime.abandoned = false := by
  by_contra habandoned
  have hfreed := hsound.freed (by simpa using habandoned)
  cases hlease : lifetime.lease with
  | none => simp [abandonable, hlease] at h
  | some lease => simp [abandonable, hlease, hfreed lease hlease] at h

/-- Shutdown finds nothing to run and at most frees the lease, or runs the callback, abandons the
request and frees the lease. -/
theorem stop_cases (moment : Moment) (lifetime : RequestLifetime) (event : UsageRecord) (relaySettled : Bool) :
    lifetime.abandonable = none ∧ (lifetime.stop input moment event relaySettled).accounting = lifetime.accounting ∧
      (lifetime.stop input moment event relaySettled).abandoned = lifetime.abandoned ∧
      (∀ lease ∈ (lifetime.stop input moment event relaySettled).lease, lease.released) ∨
    ∃ callback lease, lifetime.abandonable = some callback ∧ lifetime.stop input moment event relaySettled =
        { accounting := (runCallback input moment lifetime event relaySettled callback).abandon input moment
          abandoned := true
          lease := some (ActiveRequestLease.release lease) } := by
  unfold stop abandonable
  cases hlease : lifetime.lease with
  | none => exact .inl (by simp [hlease])
  | some lease =>
    by_cases hreleased : lease.released
    · exact .inl (by simp [hreleased, hlease])
    · cases hcallback : lease.callback with
      | none => exact .inl (by simp [hreleased, hcallback])
      | some callback => exact .inr ⟨callback, lease, by simp [hreleased, hcallback]⟩

/-- The callback records its events, and advances the accounting. -/
theorem Sound.runCallback (hsound : lifetime.Sound events) (habandoned : lifetime.abandoned = false)
    (moment : Moment) (event : UsageRecord) (relaySettled : Bool) (callback : AbandonCallback) :
    (runCallback input moment lifetime event relaySettled callback).Sound
      (events ++ callbackEvents input moment lifetime event relaySettled callback) ∧
    RequestAccounting.Advances lifetime.accounting
      (RequestLifetime.runCallback input moment lifetime event relaySettled callback) := by
  cases callback with
  | shutdown =>
    exact ⟨hsound.accounting.fail .routerShutdown,
      (RequestAccounting.fail_advances input moment lifetime.accounting .routerShutdown).1⟩
  | attempt =>
    simp only [RequestLifetime.runCallback, habandoned, Bool.false_eq_true, if_false]
    exact ⟨hsound.accounting.record event, RequestAccounting.record_advances _ event⟩
  | relay =>
    simp only [RequestLifetime.runCallback, callbackEvents, habandoned, Bool.or_false]
    split
    · rw [List.append_nil]
      exact ⟨hsound.accounting, .refl _⟩
    · exact ⟨hsound.accounting.recordTerminal event, RequestAccounting.recordTerminal_advances input moment _ event⟩

/-- A released lease stays released, whatever is done to it. -/
theorem released_map {change : ActiveRequestLease AbandonCallback → ActiveRequestLease AbandonCallback}
    (hchange : ∀ lease, lease.released → (change lease).released) (h : ∀ lease ∈ lifetime.lease, lease.released) :
    ∀ lease ∈ lifetime.lease.map change, lease.released := by
  intro lease hlease
  obtain ⟨earlier, hearlier, rfl⟩ := Option.map_eq_some_iff.mp hlease
  exact hchange earlier (h earlier hearlier)

/-- One call records exactly its events and keeps the bookkeeping sound. -/
theorem step_sound (hsound : lifetime.Sound events) (call : LifetimeCall × Moment) :
    (lifetime.step input call).Sound (events ++ lifetime.recordedBy input call) := by
  obtain ⟨call, moment⟩ := call
  -- A call behind the gate does nothing once the request is abandoned.
  have hgated (accounting : RequestAccounting) (more : List UsageRecord)
      (h : lifetime.abandoned = false → accounting.Sound (events ++ more)) :
      (if lifetime.abandoned then lifetime else { lifetime with accounting := accounting }).Sound
        (events ++ if lifetime.abandoned then [] else more) := by
    by_cases habandoned : lifetime.abandoned
    · simpa [habandoned] using hsound
    · simp only [habandoned, Bool.false_eq_true, if_false]
      exact ⟨h (by simpa using habandoned), by simp, by simp⟩
  cases call with
  | record event => exact hgated _ [event] fun _ => hsound.accounting.record event
  | selectTerminal event =>
    simpa [step, recordedBy] using hgated (lifetime.accounting.selectTerminal event) [] fun _ => by
      simpa using hsound.accounting.selectTerminal event
  | recordTerminal event => exact hgated _ [event] fun _ => hsound.accounting.recordTerminal event
  | respond status =>
    simp only [step, recordedBy, List.append_nil]
    refine ⟨hsound.accounting.respond status, fun _ => ?_, hsound.freed⟩
    exact (hsound.accounting.respond status).answered
      (RequestAccounting.respond_advances input moment lifetime.accounting status).2
  | fail error clientsOwnAbort =>
    simp only [step, recordedBy]
    by_cases habandoned : lifetime.abandoned
    · simp only [habandoned, if_true, List.append_nil]
      exact ⟨hsound.accounting, fun _ => hsound.written habandoned,
        fun _ => released_map (fun _ _ => ActiveRequestLease.release_released _)
          (hsound.freed habandoned)⟩
    · simp only [habandoned, Bool.false_eq_true, if_false]
      exact ⟨hsound.accounting.fail _, by simp, by simp⟩
  | setAbandon callback =>
    simp only [step, recordedBy, List.append_nil]
    refine ⟨hsound.accounting, hsound.written, fun habandoned => ?_⟩
    exact released_map (fun lease h => by simpa using h) (hsound.freed habandoned)
  | release =>
    simp only [step, recordedBy, List.append_nil]
    exact ⟨hsound.accounting, hsound.written,
      fun habandoned => released_map (fun _ _ => ActiveRequestLease.release_released _)
        (hsound.freed habandoned)⟩
  | stop event relaySettled =>
    simp only [step, recordedBy]
    rcases stop_cases input moment lifetime event relaySettled with
      ⟨hnone, haccounting, habandoned, hreleased⟩ | ⟨callback, lease, hsome, hstop⟩
    · simp only [hnone, List.append_nil]
      refine ⟨haccounting ▸ hsound.accounting, fun h => ?_, fun _ => hreleased⟩
      rw [haccounting]
      exact hsound.written (habandoned ▸ h)
    · have hopen := hsound.abandoned_eq_false (by simp [hsome])
      have hcallback := (hsound.runCallback input hopen moment event relaySettled callback).1
      simp only [hsome, hstop]
      refine ⟨hcallback.abandon, fun _ => ?_, fun _ => by simp⟩
      obtain ⟨terminals, heq, -⟩ := RequestAccounting.finalize_eq input moment _ _
      rw [RequestAccounting.abandon, heq]
      exact RequestAccounting.flush_pending _ _

/-- Nothing is kept back any more: the answer's status is known or the request is abandoned. -/
def Answered (lifetime : RequestLifetime) : Prop :=
  lifetime.accounting.responseStatus.isSome ∨ lifetime.abandoned

/-- A run records exactly its events and keeps the bookkeeping sound. -/
theorem run_sound (calls : List (LifetimeCall × Moment)) (hsound : lifetime.Sound events) :
    (run input lifetime calls).Sound (events ++ recordedEvents input lifetime calls) := by
  induction calls generalizing lifetime events with
  | nil => simpa [recordedEvents, run] using hsound
  | cons call rest ih =>
    have hstep := ih (step_sound input hsound call)
    rwa [List.append_assoc] at hstep

/-- What every step of a sound lifetime keeps, a run keeps. -/
theorem run_keeps (kept : RequestLifetime → Prop)
    (hstep : ∀ lifetime events call, lifetime.Sound events → kept lifetime → kept (lifetime.step input call))
    (calls : List (LifetimeCall × Moment)) (hsound : lifetime.Sound events)
    (hkept : kept lifetime) : kept (run input lifetime calls) := by
  induction calls generalizing lifetime events with
  | nil => exact hkept
  | cons call rest ih =>
    exact ih (step_sound input hsound call) (hstep lifetime events call hsound hkept)

end RequestLifetime

end MultiAiRouter.Dataplane
