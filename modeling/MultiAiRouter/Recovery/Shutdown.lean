import MultiAiRouter.Recovery.Drain
import MultiAiRouter.Recovery.Sweep

/-!
# What a stop leaves behind

A stop writes every verdict it accepted before its sweeps. Its last sweep starts when no tick is left, so no permit
is issued under it: a batch that is not full names all that is left.

The sweep tells a full batch by how many rows it settled.
-/

namespace MultiAiRouter.Recovery

open Common Routing

variable {fingerprint : Option String → String} {config : CoordinatorConfig}

variable {state : Coordinator}

/-- In the last sweep no other transaction changes a row of a full batch that is yet to settle. -/
def Undisturbed (fingerprint : Option String → String) (config : CoordinatorConfig) (state : Coordinator) :
    CoordinatorEvent → Prop
  | .external call =>
    ∀ rest selected settled, state.stop = .settling (.sweeping rest selected settled) false →
      selected = config.batchSize → call.accountId ∈ rest.map Prod.fst →
      ((state.db call.accountId).step fingerprint call.call).row = (state.db call.accountId).row
  | _ => True

section Settling

/-- What holds of the rows of the boot along a stop. -/
structure Settling (config : CoordinatorConfig) (state : Coordinator) : Prop where
  referenced : ∀ accountId, Referenced (state.db accountId)
  stopped : state.stopped = false → state.stop = .running
  landed : ∀ stage, state.stop = .settling stage false → state.flight = none
  sweeps : ∀ rest selected settled, state.stop = .settling (.sweeping rest selected settled) false →
    Sweeps config state.db rest selected settled
  resolved : state.stop = .resolved → state.flight = none ∧ ∀ accountId, ¬ IssuedTo config.bootId (state.db accountId)

/-- Another party's call keeps a stop settling. -/
theorem Settling.external (h : Settling config state) {call : AccountCall}
    (hpossible : Possible config state (.external call))
    (hundisturbed : Undisturbed fingerprint config state (.external call)) :
    Settling config (state.apply fingerprint call) where
  referenced := Referenced.committed h.referenced call
  stopped := h.stopped
  landed := h.landed
  sweeps := by
    intro rest selected settled hstop
    rcases h.sweeps rest selected settled hstop with ⟨hpart, hcovers⟩ | ⟨hfull, hbatch⟩
    · exact .inl ⟨hpart, hcovers.committed hpossible⟩
    · exact .inr ⟨hfull, hbatch.committed (hundisturbed rest selected settled hstop hfull)⟩
  resolved := by
    intro hstop
    refine ⟨(h.resolved hstop).1, ?_⟩
    intro accountId hissued
    exact (h.resolved hstop).2 accountId (hissued.of_committed hpossible).1

/-- While a tick is in flight, the last sweep has not begun. -/
theorem Settling.not_last (h : Settling config state) {flight : Flight} (hflight : state.flight = some flight) :
    (∀ stage, state.stop ≠ .settling stage false) ∧ state.stop ≠ .resolved := by
  constructor
  · intro stage hstop
    simp [h.landed stage hstop] at hflight
  · intro hstop
    simp [(h.resolved hstop).1] at hflight

/-- What the tick does to the rows does not matter before the last sweep. -/
theorem Settling.of_flight (h : Settling config state) {flight : Flight} (hflight : state.flight = some flight)
    {after : Coordinator} (hreferenced : ∀ accountId, Referenced (after.db accountId))
    (hstopped : after.stopped = state.stopped) (hstop : after.stop = state.stop) : Settling config after where
  referenced := hreferenced
  stopped := by rw [hstopped, hstop]; exact h.stopped
  landed := by
    intro stage hlast
    exact absurd (hstop ▸ hlast) ((h.not_last hflight).1 stage)
  sweeps := by
    intro rest selected settled hlast
    exact absurd (hstop ▸ hlast) ((h.not_last hflight).1 _)
  resolved := by
    intro hresolved
    exact absurd (hstop ▸ hresolved) (h.not_last hflight).2

/-- So does a commit. -/
theorem Settling.commit (h : Settling config state) : Settling config (state.commit fingerprint) := by
  unfold Coordinator.commit
  split
  · next flight hflight =>
    split
    · next call hcall =>
      dsimp only
      split
      · exact h.of_flight hflight (Referenced.committed h.referenced call) rfl rfl
      · exact h.of_flight hflight (Referenced.committed h.referenced call) rfl rfl
    · exact h
  · exact h

/-- So does the tick that goes on. -/
theorem Settling.resume (h : Settling config state) (reading : WorkReading) :
    Settling config (state.resume config reading) := by
  unfold Coordinator.resume
  split
  · next flight hflight =>
    split
    · exact h
    · have hcontinues := @continueWork_continues config state flight reading
      exact h.of_flight hflight (by rw [hcontinues.db]; exact h.referenced) hcontinues.stopped hcontinues.stop
  · exact h

/-- A settlement that begins: the last one only where no tick is in flight. -/
theorem Settling.settle (h : Settling config state) (hstopped : state.stopped = true) {again : Bool}
    (hflight : again = false → state.flight = none) : Settling config (state.settle config again) where
  referenced := h.referenced
  stopped := by simp [Coordinator.settle, hstopped]
  landed := by
    rintro stage ⟨rfl, rfl⟩
    exact hflight rfl
  sweeps := nofun
  resolved := nofun

/-- A settlement that goes on. -/
theorem Settling.advance (h : Settling config state) {stage next : SettleStage} {again : Bool}
    (hstop : state.stop = .settling stage again) {after : Coordinator}
    (hreferenced : ∀ accountId, Referenced (after.db accountId)) (hstopped : after.stopped = state.stopped)
    (hflight : after.flight = state.flight) (hnext : after.stop = .settling next again)
    (hsweeps : ∀ rest selected settled, next = .sweeping rest selected settled → again = false →
      Sweeps config after.db rest selected settled) : Settling config after where
  referenced := hreferenced
  stopped := by
    intro hfalse
    have hrunning := h.stopped (hstopped.symm.trans hfalse)
    simp [hstop] at hrunning
  landed := by
    intro other hlast
    obtain ⟨-, rfl⟩ := StopStage.settling.inj (hnext.symm.trans hlast)
    exact hflight.trans (h.landed stage hstop)
  sweeps := by
    intro rest selected settled hlast
    obtain ⟨hsweeping, hagain⟩ := StopStage.settling.inj (hnext.symm.trans hlast)
    exact hsweeps rest selected settled hsweeping hagain
  resolved := by simp [hnext]

/-- A settlement that is over, and where it was the last one has left nothing. -/
theorem Settling.settlementOver (h : Settling config state) {stage : SettleStage} {again : Bool}
    (hstop : state.stop = .settling stage again)
    (hcleared : again = false → ∀ accountId, ¬ IssuedTo config.bootId (state.db accountId)) :
    Settling config (state.settlementOver again) where
  referenced := h.referenced
  stopped := by
    intro hfalse
    have hrunning := h.stopped hfalse
    simp [hstop] at hrunning
  landed := by cases again <;> simp [Coordinator.settlementOver]
  sweeps := by cases again <;> simp [Coordinator.settlementOver]
  resolved := by
    cases again with
    | false => exact fun _ => ⟨h.landed stage hstop, hcleared rfl⟩
    | true => simp [Coordinator.settlementOver]

/-- So does a verdict that is written. -/
theorem Settling.drainOutcome (h : Settling config state) :
    Settling config (state.drainOutcome fingerprint config) := by
  unfold Coordinator.drainOutcome
  split
  · next again hstop => exact h.advance hstop h.referenced rfl rfl rfl nofun
  · next value rest again hstop =>
    exact h.advance hstop (Referenced.committed h.referenced _) rfl rfl rfl nofun
  · exact h

/-- So does a sweep that begins. -/
theorem Settling.select (h : Settling config state) {chosen : List String}
    (hanswer : SelectAnswer config state.db chosen) : Settling config (state.select chosen) := by
  unfold Coordinator.select
  split
  · next again hstop =>
    refine h.advance hstop h.referenced rfl rfl rfl ?_
    rintro rest selected settled ⟨rfl, rfl, rfl⟩ -
    rw [List.length_map]
    exact hanswer.sweeps
  · exact h

/-- So does a permit that is settled. -/
theorem Settling.settleNext (h : Settling config state) :
    Settling config (state.settleNext fingerprint config) := by
  unfold Coordinator.settleNext
  split
  · next selected settled again hstop =>
    split
    · exact h.advance hstop h.referenced rfl rfl rfl nofun
    · next hshort =>
      refine h.settlementOver hstop ?_
      rintro rfl
      exact (h.sweeps _ _ _ hstop).cleared hshort
  · next accountId permitId rest selected settled again hstop =>
    have hreferenced := @Referenced.committed fingerprint _ h.referenced (settleCall config accountId permitId)
    dsimp only
    split
    · refine h.advance hstop hreferenced rfl rfl rfl ?_
      rintro _ _ _ ⟨rfl, rfl, rfl⟩ rfl
      rcases h.sweeps _ _ _ hstop with ⟨hpart, hcovers⟩ | ⟨hfull, hbatch⟩
      · exact .inl ⟨hpart, hcovers.settle h.referenced⟩
      · exact .inr ⟨hfull, (hbatch.settle h.referenced).2⟩
    · next hnone =>
      refine h.advance hstop hreferenced rfl rfl rfl ?_
      rintro _ _ _ ⟨rfl, rfl, rfl⟩ rfl
      rcases h.sweeps _ _ _ hstop with ⟨hpart, hcovers⟩ | ⟨hfull, hbatch⟩
      · exact .inl ⟨hpart, hcovers.settle h.referenced⟩
      · have hsome := (@FullBatch.settle fingerprint _ _ _ _ h.referenced _ _ hbatch).1
        have hnone' : callAnswer fingerprint (state.db accountId) (settleCall config accountId permitId).call = none :=
          hnone
        simp [hnone'] at hsome
  · exact h

/-- One event. -/
theorem Settling.step (h : Settling config state) {event : CoordinatorEvent}
    (hpossible : Possible config state event) (hundisturbed : Undisturbed fingerprint config state event) :
    Settling config (state.step fingerprint config event) := by
  cases event with
  | external call => exact h.external hpossible hundisturbed
  | recordOutcome value =>
    rw [Coordinator.step]
    split
    · exact h
    · exact ⟨h.referenced, h.stopped, h.landed, h.sweeps, h.resolved⟩
  | closeIssuance => exact ⟨h.referenced, h.stopped, h.landed, h.sweeps, h.resolved⟩
  | tick =>
    rw [Coordinator.step]
    split
    · exact h
    · next hidle =>
      have hidle' : state.stopped = false ∧ state.flight = none := by simpa using hidle
      have hrunning := h.stopped hidle'.1
      exact ⟨h.referenced, h.stopped, by simp [hrunning], by simp [hrunning], by simp [hrunning]⟩
  | commit => exact h.commit
  | resume reading => exact h.resume reading
  | stop =>
    rw [Coordinator.step]
    split
    · next hrunning =>
      have hstopped : Settling config { state with stopped := true } :=
        ⟨h.referenced, by simp, h.landed, h.sweeps, h.resolved⟩
      exact hstopped.settle rfl (by simp)
    · exact h
  | drainOutcome => exact h.drainOutcome
  | select chosen => exact h.select hpossible
  | settleNext => exact h.settleNext
  | flightEnded =>
    rw [Coordinator.step]
    split
    · next hended =>
      refine h.settle ?_ (fun _ => by simpa using hended.2)
      by_contra hrunning
      simp [h.stopped (by simpa using hrunning)] at hended
    · exact h

end Settling

/-- What a stop owes when it resolves: no permit of the boot is left, and every verdict it accepted was
written before its sweeps settled anything, unless the database had fenced it. -/
structure NoneStranded (config : CoordinatorConfig) (state : Coordinator) : Prop where
  cleared : ∀ accountId, ¬ IssuedTo config.bootId (state.db accountId)
  written : ∀ value ∈ state.accepted, ∃ later answer earlier,
    state.log = later ++ .outcome value answer :: earlier ∧ Unsettled earlier ∧
      ∀ row, answer = some row → row.state = value.state.state

/-- A stop strands no permit where its last sweep is left alone on its full batches. -/
theorem run_no_permit_stranded (fingerprint : Option String → String) (config : CoordinatorConfig)
    (start : String → RecoveryDb) (hreferenced : ∀ accountId, Referenced (start accountId))
    (events : List CoordinatorEvent)
    (hpossible : EveryStep (Coordinator.step fingerprint config) (Possible config) { db := start } events)
    (hundisturbed : EveryStep (Coordinator.step fingerprint config) (Undisturbed fingerprint config)
      { db := start } events)
    (hresolved : (Coordinator.run fingerprint config { db := start } events).stop = .resolved) :
    NoneStranded config (Coordinator.run fingerprint config { db := start } events) := by
  have hsettling : Settling config (Coordinator.run fingerprint config { db := start } events) := by
    refine runFrom_invariant_of_everyStep (Settling config) (fun _ _ h hstep => h.step hstep.1 hstep.2) events _ ?_
      (everyStep_and hpossible hundisturbed)
    exact ⟨hreferenced, fun _ => rfl, by simp, by simp, by simp⟩
  have hdraining : Draining config (Coordinator.run fingerprint config { db := start } events) := by
    refine runFrom_invariant (Draining config) (fun _ event h => h.step event) events _ ?_
    exact ⟨Nat.zero_le _, fun _ => rfl, by simp [Unsettled], by simp, by simp, by simp, by simp⟩
  refine ⟨(hsettling.resolved hresolved).2, ?_⟩
  intro value hvalue
  obtain ⟨later, answer, earlier, hlog, hunsettled⟩ :=
    hdraining.written (by simp [hresolved]) (by simp [hresolved]) value hvalue
  refine ⟨later, answer, earlier, hlog, hunsettled, ?_⟩
  rintro row rfl
  exact hdraining.answered _ (by simp [hlog]) value row rfl

section Runs

/-- Only transactions on an account change what the database holds for it. -/
theorem step_db (state : Coordinator) (event : CoordinatorEvent) :
    (state.step fingerprint config event).db = state.db ∨
      ∃ call, (state.step fingerprint config event).db = committed fingerprint state.db call := by
  cases event with
  | external call => exact .inr ⟨call, rfl⟩
  | recordOutcome value =>
    rw [Coordinator.step]
    split <;> exact .inl rfl
  | closeIssuance => exact .inl rfl
  | tick =>
    rw [Coordinator.step]
    split <;> exact .inl rfl
  | commit =>
    rw [Coordinator.step, Coordinator.commit]
    split
    · split
      · dsimp only
        split <;> exact .inr ⟨_, rfl⟩
      · exact .inl rfl
    · exact .inl rfl
  | resume reading =>
    rw [Coordinator.step, Coordinator.resume]
    split
    · split
      · exact .inl rfl
      · exact .inl (continueWork_continues _ _).db
    · exact .inl rfl
  | stop =>
    rw [Coordinator.step]
    split <;> exact .inl rfl
  | drainOutcome =>
    rw [Coordinator.step, Coordinator.drainOutcome]
    split
    · exact .inl rfl
    · exact .inr ⟨_, rfl⟩
    · exact .inl rfl
  | select chosen =>
    rw [Coordinator.step, Coordinator.select]
    split <;> exact .inl rfl
  | settleNext =>
    rw [Coordinator.step, Coordinator.settleNext]
    split
    · split <;> exact .inl rfl
    · dsimp only
      split <;> exact .inr ⟨_, rfl⟩
    · exact .inl rfl
  | flightEnded =>
    rw [Coordinator.step]
    split <;> exact .inl rfl

/-- There is no row for an account that is not there. -/
theorem run_row_of_no_account {start : String → RecoveryDb} {accountId : String}
    (haccount : (start accountId).account = none) (hrow : (start accountId).row = none)
    (events : List CoordinatorEvent) :
    ((Coordinator.run fingerprint config { db := start } events).db accountId).row = none := by
  refine (runFrom_invariant (fun state : Coordinator => (state.db accountId).account = none ∧
    (state.db accountId).row = none) ?_ events _ ⟨haccount, hrow⟩).2
  rintro state event ⟨hnone, hempty⟩
  rcases @step_db fingerprint config state event with hsame | ⟨call, hcommitted⟩
  · rw [hsame]
    exact ⟨hnone, hempty⟩
  · rw [hcommitted]
    by_cases hother : accountId = call.accountId
    · subst hother
      rw [committed_self]
      obtain ⟨hstill, hkept⟩ := @step_of_no_account fingerprint _ hnone call.call
      exact ⟨hstill, hkept.trans hempty⟩
    · rw [committed_of_ne hother]
      exact ⟨hnone, hempty⟩

end Runs

/-- An event that neither the database's answer nor another boot decides. -/
def CoordinatorEvent.plain : CoordinatorEvent → Bool
  | .external _ | .select _ => false
  | _ => true

theorem possible_of_plain (state : Coordinator) {event : CoordinatorEvent} (h : event.plain) :
    Possible config state event := by
  cases event <;> trivial

theorem undisturbed_of_plain (state : Coordinator) {event : CoordinatorEvent} (h : event.plain) :
    Undisturbed fingerprint config state event := by
  cases event <;> trivial

/-- A run of such events is possible and undisturbed. -/
theorem everyStep_plain {condition : Coordinator → CoordinatorEvent → Prop}
    (hplain : ∀ state event, event.plain → condition state event) {events : List CoordinatorEvent}
    (h : events.all CoordinatorEvent.plain) (state : Coordinator) :
    EveryStep (Coordinator.step fingerprint config) condition state events :=
  everyStep_of_forall (fun event hmem state => hplain state event (List.all_eq_true.mp h event hmem)) state

/-- A coordinator with a batch of two. -/
def pairsConfig : CoordinatorConfig where
  bootId := "boot"
  batchSize := 2
  outcomeCapacity := 4
  preparationLeaseMs := 30000
  maximumOutcomeMs := 600000
  cooldownMs := 60000
  quotaSpentThreshold := 1
  batchSize_pos := by decide
  lease_valid := by decide
  maximum_valid := by decide
  cooldown_valid := by decide
  threshold_valid := by norm_num

/-- An account whose recovery was asked for a while ago. -/
def askedAccount : RecoveryAccount where
  lifecycleVersion := 1
  healthRecoveryVersion := 0
  authMaterial := some "key"
  status := .active
  updatedAt := 0

/-- The row of a recovery that was asked for a while ago. -/
def askedRow : RecoveryRow where
  generation := "asked"
  revision := 0
  lifecycleVersion := 1
  credentialFingerprint := "cipher:key"
  state := .pending
  reason := .cooldownExpired
  ownerBootId := none
  ownershipEpoch := 0
  preparationLeaseUntil := none
  permitId := none
  issuedAt := none
  outcomeAt := none
  requestedAt := 0
  nextAllowedAt := 60000
  quotaRevisions := []

/-- Three accounts whose recovery was asked for, and no other account. -/
def threeAsked (accountId : String) : RecoveryDb :=
  if accountId ∈ ["a", "b", "c"] then { now := 100000, account := some askedAccount, row := some askedRow }
  else { now := 100000, account := none }

/-- A tick that comes to these pending generations. -/
def tickTo (accountIds : List String) : List CoordinatorEvent :=
  [.tick, .resume {}, .resume {}, .resume {}, .resume {},
    .resume { rows := accountIds.map fun accountId => (accountId, askedRow) }]

/-- It prepares the next one, to the point where its issue is under way. -/
def prepare (permitId : String) : List CoordinatorEvent :=
  [.commit, .resume {}, .resume { account := some askedAccount, permitId }]

/-- The issue commits and the tick goes on. -/
def grant : List CoordinatorEvent := [.commit, .resume {}, .resume {}]

/-- The three permits issued in two ticks, and then a stop. -/
def threeIssued : List CoordinatorEvent :=
  tickTo ["a", "b"] ++ prepare "pa" ++ grant ++ prepare "pb" ++ grant ++ [CoordinatorEvent.resume {}] ++
    tickTo ["c"] ++ prepare "pc" ++ grant ++
    [CoordinatorEvent.resume {}, CoordinatorEvent.stop, CoordinatorEvent.drainOutcome]

/-- The first account is asked for again. -/
def askAgain : CoordinatorEvent :=
  .external { accountId := "a", call := .beginOperator { generationCandidate := "again", cooldownMs := 60000 } }

/-- A sweep that is overtaken on the first of the two rows it selected. -/
def overtakenSweep : List CoordinatorEvent := [.select ["a", "b"], askAgain, .settleNext, .settleNext, .settleNext]

instance (bootId : String) (db : RecoveryDb) : Decidable (IssuedTo bootId db) :=
  decidable_of_iff (db.row.any fun row => row.state == .issued && row.ownerBootId == some bootId) <| by
    simp [IssuedTo, Option.any_eq_true]

/-- What a sweep may select of the three. -/
theorem selectAnswer_three {events : List CoordinatorEvent} {chosen : List String} (hnodup : chosen.Nodup)
    (hlength : chosen.length ≤ 2)
    (hissued : ∀ accountId ∈ chosen,
      IssuedTo "boot" ((Coordinator.run fingerprintText pairsConfig { db := threeAsked } events).db accountId))
    (hcomplete : chosen.length < 2 → ∀ accountId ∈ ["a", "b", "c"],
      IssuedTo "boot" ((Coordinator.run fingerprintText pairsConfig { db := threeAsked } events).db accountId) →
        accountId ∈ chosen) :
    SelectAnswer pairsConfig (Coordinator.run fingerprintText pairsConfig { db := threeAsked } events).db chosen where
  nodup := hnodup
  issued := hissued
  length_le := hlength
  complete := by
    intro hpart accountId hrow
    by_cases hknown : accountId ∈ ["a", "b", "c"]
    · exact hcomplete hpart accountId hknown hrow
    · obtain ⟨row, hfound, -, -⟩ := hrow
      have hempty : threeAsked accountId = { now := 100000, account := none } := by rw [threeAsked, if_neg hknown]
      have hnone := @run_row_of_no_account fingerprintText pairsConfig threeAsked accountId (by rw [hempty])
        (by rw [hempty]) events
      simp [hnone] at hfound

/-- The third permit is left issued to the boot that stopped. -/
theorem stop_strands_third_permit :
    ¬ ∀ events, EveryStep (Coordinator.step fingerprintText pairsConfig) (Possible pairsConfig) { db := threeAsked }
        events → (Coordinator.run fingerprintText pairsConfig { db := threeAsked } events).stop = .resolved →
      NoneStranded pairsConfig (Coordinator.run fingerprintText pairsConfig { db := threeAsked } events) := by
  intro hclaim
  have hpossible : EveryStep (Coordinator.step fingerprintText pairsConfig) (Possible pairsConfig)
      { db := threeAsked } (threeIssued ++ overtakenSweep) := by
    refine everyStep_append.mpr ⟨?_, ?_, ?_, trivial, trivial, trivial, trivial⟩
    · exact everyStep_plain (fun _ _ => possible_of_plain _) (by decide) _
    · exact selectAnswer_three (by decide) (by decide) (by decide +kernel) (by decide)
    · exact nofun
  have hstranded : IssuedTo "boot"
      ((Coordinator.run fingerprintText pairsConfig { db := threeAsked } (threeIssued ++ overtakenSweep)).db "c") := by
    decide +kernel
  exact (hclaim _ hpossible (by decide +kernel)).cleared "c" hstranded

/-- The verdict on the first permit. -/
def verdictOnFirst : RecoveryOutcome where
  accountId := "a"
  generation := "asked"
  permitId := "pa"
  ownershipEpoch := 1
  expected := { lifecycleVersion := 1, authMaterial := some "key", status := .active }
  state := .succeeded

/-- A stop while the tick issues the third permit: the first has its verdict, the second is swept. -/
def racedStop : List CoordinatorEvent :=
  tickTo ["a", "b"] ++ prepare "pa" ++ grant ++ prepare "pb" ++ grant ++ [CoordinatorEvent.resume {}] ++ tickTo ["c"] ++
    prepare "pc" ++ [CoordinatorEvent.recordOutcome verdictOnFirst, CoordinatorEvent.stop,
      CoordinatorEvent.drainOutcome, CoordinatorEvent.drainOutcome]

/-- The second is swept, the issue commits after that, and the stop waits for the tick to end. -/
def racedFlight : List CoordinatorEvent :=
  [.select ["b"], .settleNext, .settleNext, .commit, .resume {}, .resume {}, .resume {}, .flightEnded, .drainOutcome]

/-- The last sweep settles the third permit, whoever asks for the first account meanwhile. -/
def lastSweep : List CoordinatorEvent := [.select ["c"], askAgain, .settleNext, .settleNext]

/-- A stop that races a tick strands no permit. -/
theorem run_no_permit_stranded_raced : (Coordinator.run fingerprintText pairsConfig { db := threeAsked }
        (racedStop ++ racedFlight ++ lastSweep)).stop = .resolved ∧
      (Coordinator.run fingerprintText pairsConfig { db := threeAsked }
        (racedStop ++ racedFlight ++ lastSweep)).accepted = [verdictOnFirst] ∧
      NoneStranded pairsConfig
        (Coordinator.run fingerprintText pairsConfig { db := threeAsked } (racedStop ++ racedFlight ++ lastSweep)) := by
  have hreferenced : ∀ accountId, Referenced (threeAsked accountId) := by
    intro accountId
    unfold threeAsked Referenced
    split <;> simp
  have hpossible : EveryStep (Coordinator.step fingerprintText pairsConfig) (Possible pairsConfig)
      { db := threeAsked } (racedStop ++ racedFlight ++ lastSweep) := by
    refine everyStep_append.mpr ⟨everyStep_append.mpr ⟨?_, ?_, ?_⟩, ?_, ?_, trivial, trivial, trivial⟩
    · exact everyStep_plain (fun _ _ => possible_of_plain _) (by decide) _
    · exact selectAnswer_three (by decide) (by decide) (by decide +kernel) (by decide +kernel)
    · exact everyStep_plain (fun _ _ => possible_of_plain _) (by decide) _
    · exact selectAnswer_three (by decide) (by decide) (by decide +kernel) (by decide +kernel)
    · exact nofun
  have hundisturbed : EveryStep (Coordinator.step fingerprintText pairsConfig) (Undisturbed fingerprintText pairsConfig)
      { db := threeAsked } (racedStop ++ racedFlight ++ lastSweep) := by
    refine everyStep_append.mpr ⟨everyStep_append.mpr ⟨?_, trivial, ?_⟩, trivial, ?_, trivial, trivial, trivial⟩
    · exact everyStep_plain (fun _ _ => undisturbed_of_plain _) (by decide) _
    · exact everyStep_plain (fun _ _ => undisturbed_of_plain _) (by decide) _
    · -- The batch under way has one row, so it is not full.
      have hpart : (Coordinator.step fingerprintText pairsConfig (Coordinator.run fingerprintText pairsConfig
          { db := threeAsked } (racedStop ++ racedFlight)) (.select ["c"])).stop =
            .settling (.sweeping [("c", some "pc")] 1 0) false := by decide +kernel
      intro rest selected settled hstop hfull
      cases hpart.symm.trans hstop
      exact absurd hfull (by decide)
  have hresolved : (Coordinator.run fingerprintText pairsConfig { db := threeAsked }
      (racedStop ++ racedFlight ++ lastSweep)).stop = .resolved := by decide +kernel
  exact ⟨hresolved, by decide +kernel, run_no_permit_stranded fingerprintText pairsConfig threeAsked hreferenced _
    hpossible hundisturbed hresolved⟩

end MultiAiRouter.Recovery
