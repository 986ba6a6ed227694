import MultiAiRouter.Routing.Filter

/-!
# Which clock a rejection names

An account can hold several spent windows, and the filter names the first of them. The reset named with it is the
one the account waits for when no other window outlasts it, or the router's own holds answer instead. A window the
provider reset itself outranks those holds when it is the first of the spent ones.
-/

namespace MultiAiRouter.Routing

variable {member : ScopedAccount} {model : String} {now t : Instant} {options : SelectionOptions}
  {window spent : QuotaWindowState} {rejected : RejectedCandidate} {reason : FilterReason}

/-- The utilization at which this caller counts a window as spent. -/
def spentThreshold (options : SelectionOptions) : Rat :=
  options.quotaSpentThreshold.getD defaultQuotaSpentThreshold

/-- No permanent reason drops the account: it is in service and serves the model. -/
def inService (member : ScopedAccount) (model : String) : Prop :=
  member.account.status ≠ .disabled ∧ member.account.status ≠ .needsReauth ∧
    member.account.status ≠ .exhausted ∧ (resolveModel member.account model).supported = true

/-- The recovery gate is closed to this replica. -/
def gateHolds (account : AccountSnapshot) : Bool :=
  recoveryIsGated account && !hasRecoveryPermit account

/-- The breaker's cooldown is on, and no permit opens it. -/
def cooldownHolds (member : ScopedAccount) (now : Instant) : Bool :=
  coolingDown member now &&
    (!hasRecoveryPermit member.account || member.account.health.cooldownUntil.isSome)

/-- One of the router's own holds is on: the recovery gate, the cooldown, or the probe hold. -/
def ownHold (member : ScopedAccount) (now : Instant) : Bool :=
  gateHolds member.account || cooldownHolds member now || (heldProbe member.account now).isSome

/-- The account is dropped for this reason. -/
def RejectsAs (member : ScopedAccount) (model : String) (now : Instant) (options : SelectionOptions)
    (reason : FilterReason) : Prop :=
  ∃ rejected, evaluateCandidate member model now options = .error rejected ∧ rejected.reason = reason

section Verdict

/-- A cooldown never reads as a spent window, nor as a probe in flight. -/
theorem coolingRejection_reason (account : AccountSnapshot) :
    (coolingRejection account).reason ≠ .quotaWindowSpent ∧ (coolingRejection account).reason ≠ .probeInFlight := by
  unfold coolingRejection
  dsimp only
  split <;> simp

/-- A window blocks the account when it is the first spent one and the permit leaves some uncovered. -/
theorem blockingWindow_eq_some {account : AccountSnapshot} {threshold : Rat} :
    blockingWindow account now threshold = some spent ↔ findSpentWindow account now threshold = some spent ∧
        recoveryAllowsQuota account now threshold = false := by
  unfold blockingWindow
  cases hfind : findSpentWindow account now threshold with
  | none => simp
  | some first =>
    cases hallow : recoveryAllowsQuota account now threshold <;> simp

/-- The clocks that are read once nothing permanent drops the account. -/
def clockVerdict (member : ScopedAccount) (now : Instant) (threshold : Rat) : Option RejectedCandidate :=
  let account := member.account
  let blocking := blockingWindow account now threshold
  if providerReportedCooldown member now then some (coolingRejection account)
  else
    match blocking.filter fun spent => spent.resetSource == .providerReported with
    | some spent => some (spentRejection account spent)
    | none =>
      if gateHolds account then
        some (probeRejection account
          (account.recovery.map fun recovery => recovery.retryAt.getD recovery.nextAllowedAt))
      else if cooldownHolds member now then some (coolingRejection account)
      else
        match heldProbe account now, blocking with
        | some heldUntil, _ => some (probeRejection account (some heldUntil))
        | none, some spent => some (spentRejection account spent)
        | none, none => none

/-- An account in service is dropped for what its clocks say, and for nothing else. -/
theorem evaluateCandidate_error_iff (hservice : inService member model) :
    evaluateCandidate member model now options = .error rejected ↔
      clockVerdict member now (spentThreshold options) = some rejected := by
  obtain ⟨hdisabled, hreauth, hexhausted, hsupported⟩ := hservice
  unfold evaluateCandidate clockVerdict gateHolds cooldownHolds spentThreshold
  simp only [if_neg hdisabled, if_neg hreauth, if_neg hexhausted, hsupported, Bool.not_true,
    Bool.false_eq_true, if_false]
  cases providerReportedCooldown member now with
  | true => simp
  | false =>
    cases (blockingWindow member.account now
        (options.quotaSpentThreshold.getD defaultQuotaSpentThreshold)).filter fun spent =>
          spent.resetSource == .providerReported with
    | some spent => simp
    | none =>
      by_cases hgate : (recoveryIsGated member.account && !hasRecoveryPermit member.account) = true
      · simp [hgate]
      · by_cases hcool : (coolingDown member now && (!hasRecoveryPermit member.account ||
            member.account.health.cooldownUntil.isSome)) = true
        · simp [hgate, hcool]
        · cases heldProbe member.account now <;>
            cases blockingWindow member.account now
              (options.quotaSpentThreshold.getD defaultQuotaSpentThreshold) <;> simp [hgate, hcool]

/-- An account out of service is dropped for a permanent reason. -/
theorem evaluateCandidate_of_not_inService (hservice : ¬ inService member model) :
    ∃ reason, evaluateCandidate member model now options = .error (rejection member.account reason) ∧
      reason ≠ .quotaWindowSpent ∧ reason ≠ .probeInFlight := by
  unfold evaluateCandidate
  dsimp only
  by_cases hdisabled : member.account.status = .disabled
  · exact ⟨.disabled, by rw [if_pos hdisabled], by simp, by simp⟩
  · by_cases hreauth : member.account.status = .needsReauth
    · exact ⟨.needsReauth, by rw [if_neg hdisabled, if_pos hreauth], by simp, by simp⟩
    · by_cases hexhausted : member.account.status = .exhausted
      · exact ⟨.exhausted, by rw [if_neg hdisabled, if_neg hreauth, if_pos hexhausted], by simp, by simp⟩
      · have hsupported : (resolveModel member.account model).supported = false := by
          by_contra hne
          exact hservice ⟨hdisabled, hreauth, hexhausted, by simpa using hne⟩
        refine ⟨.modelUnsupported, ?_, by simp, by simp⟩
        rw [if_neg hdisabled, if_neg hreauth, if_neg hexhausted, hsupported]
        rfl

/-- Only an account in service is dropped for a spent window or a probe in flight. -/
theorem RejectsAs.inService (h : RejectsAs member model now options reason)
    (hclock : reason = .quotaWindowSpent ∨ reason = .probeInFlight) : inService member model := by
  by_contra hservice
  obtain ⟨rejected, herror, rfl⟩ := h
  obtain ⟨permanent, hpermanent, hspent, hprobe⟩ := evaluateCandidate_of_not_inService hservice
  rw [hpermanent] at herror
  cases herror
  exact hclock.elim hspent hprobe

/-- A spent window is named when it blocks, no provider cooldown runs, and it outranks the holds
or none of them is on; a probe is named when no provider clock answers first, and the gate is closed
or, with the cooldown over, the probe hold is on. -/
theorem clockVerdict_iff {threshold : Rat} :
    ((∃ rejected, clockVerdict member now threshold = some rejected ∧ rejected.reason = .quotaWindowSpent) ↔
      providerReportedCooldown member now = false ∧
        ∃ spent, blockingWindow member.account now threshold = some spent ∧
          (spent.resetSource = .providerReported ∨ ownHold member now = false)) ∧
    ((∃ rejected, clockVerdict member now threshold = some rejected ∧ rejected.reason = .probeInFlight) ↔
      providerReportedCooldown member now = false ∧
        (∀ spent, blockingWindow member.account now threshold = some spent →
          spent.resetSource ≠ .providerReported) ∧
        (gateHolds member.account = true ∨
          cooldownHolds member now = false ∧ (heldProbe member.account now).isSome = true)) := by
  have hcooling := coolingRejection_reason member.account
  unfold clockVerdict ownHold
  dsimp only
  cases hprovider : providerReportedCooldown member now with
  | true => simpa using hcooling
  | false =>
    cases hblocking : blockingWindow member.account now threshold with
    | none =>
      cases gateHolds member.account <;> cases cooldownHolds member now <;>
        cases heldProbe member.account now <;> simp [probeRejection, hcooling]
    | some spent =>
      by_cases hsource : spent.resetSource = .providerReported
      · simp [Option.filter, hsource, spentRejection]
      · cases gateHolds member.account <;> cases cooldownHolds member now <;>
          cases heldProbe member.account now <;>
            simp [Option.filter, hsource, probeRejection, spentRejection, hcooling]

/-- An account in service is dropped for a reason exactly when its clocks give that reason. -/
theorem rejectsAs_iff (hservice : inService member model) : RejectsAs member model now options reason ↔
      ∃ rejected, clockVerdict member now (spentThreshold options) = some rejected ∧ rejected.reason = reason := by
  unfold RejectsAs
  simp only [evaluateCandidate_error_iff hservice]

end Verdict

section Later

/-- A provider's cooldown that is over stays over. -/
theorem providerReportedCooldown_later (h : providerReportedCooldown member now = false) (ht : now ≤ t) :
    providerReportedCooldown member t = false := by
  unfold providerReportedCooldown at h ⊢
  dsimp only at h ⊢
  cases huntil : member.account.health.cooldownUntil with
  | none => simp
  | some reset =>
    simp only [huntil, Bool.and_eq_false_imp, decide_eq_false_iff_not] at h ⊢
    intro hclock hlate
    exact h hclock (lt_of_le_of_lt ht hlate)

/-- A spent window with a reset reopens after this instant. -/
theorem lt_reset_of_isWindowSpent {threshold : Rat} {reset : Instant}
    (h : isWindowSpent window now threshold = true) (hreset : window.resetsAt = some reset) : now < reset := by
  unfold isWindowSpent at h
  split at h
  · cases h
  · split at h
    · cases h
    · cases hutilization : window.utilization with
      | none => simp [hutilization] at h
      | some utilization =>
        simp only [hutilization, hreset] at h
        split at h
        · cases h
        · simpa using h

/-- The window that is found is spent. -/
theorem isWindowSpent_of_findSpentWindow {account : AccountSnapshot} {threshold : Rat}
    (h : findSpentWindow account now threshold = some spent) : isWindowSpent spent now threshold = true := by
  unfold findSpentWindow at h
  simpa using List.find?_some h

/-- The reset named with a spent window is still ahead. -/
theorem lt_of_evaluateCandidate_spent {reset : Instant}
    (h : evaluateCandidate member model now options = .error rejected)
    (hreason : rejected.reason = .quotaWindowSpent) (hreset : rejected.resetsAt = some reset) : now < reset := by
  have hservice : inService member model := RejectsAs.inService ⟨rejected, h, hreason⟩ (.inl rfl)
  rw [evaluateCandidate_error_iff hservice] at h
  have hnamed : ∃ spent, findSpentWindow member.account now (spentThreshold options) = some spent ∧
      spent.resetsAt = some reset := by
    unfold clockVerdict at h
    dsimp only at h
    split at h
    · cases h
      exact absurd hreason (coolingRejection_reason _).1
    · split at h
      · next spent hfilter =>
        cases h
        obtain ⟨hblocking, -⟩ := Option.filter_eq_some_iff.mp hfilter
        exact ⟨spent, (blockingWindow_eq_some.mp hblocking).1, hreset⟩
      · split at h
        · cases h
          cases hreason
        · split at h
          · cases h
            exact absurd hreason (coolingRejection_reason _).1
          · split at h
            · cases h
              cases hreason
            · next spent _ hblocking =>
              cases h
              exact ⟨spent, (blockingWindow_eq_some.mp hblocking).1, hreset⟩
            · cases h
  obtain ⟨spent, hfind, hspentReset⟩ := hnamed
  exact lt_reset_of_isWindowSpent (isWindowSpent_of_findSpentWindow hfind) hspentReset

end Later

/-- The reset named with a spent window is honest exactly when, from that instant on, the permit
covers whatever windows are still spent, or the router's own holds answer before the first of them. -/
theorem advertised_reset_honest_iff {reset : Instant}
    (h : evaluateCandidate member model now options = .error rejected)
    (hreason : rejected.reason = .quotaWindowSpent) (hreset : rejected.resetsAt = some reset) :
    (∀ t, reset ≤ t → ¬ RejectsAs member model t options .quotaWindowSpent) ↔ ∀ t, reset ≤ t → ∀ spent,
        findSpentWindow member.account t (spentThreshold options) = some spent →
          recoveryAllowsQuota member.account t (spentThreshold options) = true ∨
            spent.resetSource ≠ .providerReported ∧ ownHold member t = true := by
  have hservice : inService member model := RejectsAs.inService ⟨rejected, h, hreason⟩ (.inl rfl)
  have hahead := lt_of_evaluateCandidate_spent h hreason hreset
  have hprovider : providerReportedCooldown member now = false :=
    (clockVerdict_iff.1.mp ((rejectsAs_iff hservice).mp ⟨rejected, h, hreason⟩)).1
  have hlater : ∀ t, reset ≤ t → (RejectsAs member model t options .quotaWindowSpent ↔
      ∃ spent, blockingWindow member.account t (spentThreshold options) = some spent ∧
        (spent.resetSource = .providerReported ∨ ownHold member t = false)) := by
    intro t ht
    have hover := providerReportedCooldown_later hprovider (le_of_lt (lt_of_lt_of_le hahead ht))
    rw [rejectsAs_iff hservice, clockVerdict_iff.1]
    exact and_iff_right hover
  constructor
  · intro hhonest t ht spent hfind
    by_contra hopen
    rw [not_or, not_and_or, not_not] at hopen
    refine hhonest t ht ((hlater t ht).mpr ⟨spent, ?_, ?_⟩)
    · exact blockingWindow_eq_some.mpr ⟨hfind, by simpa using hopen.1⟩
    · exact hopen.2.imp id (by simp)
  · intro hcovered t ht hrejects
    obtain ⟨spent, hblocking, hnames⟩ := (hlater t ht).mp hrejects
    obtain ⟨hfind, huncovered⟩ := blockingWindow_eq_some.mp hblocking
    rcases hcovered t ht spent hfind with hallows | ⟨hsource, hhold⟩
    · rw [huncovered] at hallows
      cases hallows
    · rcases hnames with hprovided | hfree
      · exact hsource hprovided
      · rw [hhold] at hfree
        cases hfree

/-- One spent five-hour window, refilling at ten. -/
def fiveHourUntilTen : QuotaWindowState :=
  { window := .fiveHour, utilization := some 1, resetsAt := some 10, resetSource := .providerReported
    lastCheckedAt := 0 }

/-- An account in no pool whose windows are these. -/
def windowedMember (windows : List QuotaWindowState) : ScopedAccount :=
  { account := { id := "a", quotaWindows := some windows }, poolId := none, weight := 100, priority := 0
    order := 0 }

/-- One window is named and nothing outlasts it. -/
theorem advertised_reset_honest_single :
    evaluateCandidate (windowedMember [fiveHourUntilTen]) "m" 0 {} =
        .error (spentRejection (windowedMember [fiveHourUntilTen]).account fiveHourUntilTen) ∧
      ∀ t, 10 ≤ t → ¬ RejectsAs (windowedMember [fiveHourUntilTen]) "m" t {} .quotaWindowSpent := by
  have h : evaluateCandidate (windowedMember [fiveHourUntilTen]) "m" 0 {} =
      .error (spentRejection (windowedMember [fiveHourUntilTen]).account fiveHourUntilTen) := by
    rfl
  refine ⟨h, ?_⟩
  rw [advertised_reset_honest_iff h rfl rfl]
  intro t ht spent hfind
  have hsome := isWindowSpent_of_findSpentWindow hfind
  have hmem : spent = fiveHourUntilTen := by simpa [windowedMember] using List.mem_of_find?_eq_some hfind
  subst hmem
  exact absurd (lt_reset_of_isWindowSpent hsome rfl) (not_lt.mpr ht)

/-- A weekly window behind the five-hour one is spent until a hundred: the account is told to come back at ten, and
is dropped again when it does. -/
theorem advertised_reset_not_honest : ∃ rejected, evaluateCandidate
        (windowedMember [fiveHourUntilTen, { fiveHourUntilTen with window := .sevenDay, resetsAt := some 100 }])
        "m" 0 {} = .error rejected ∧
      rejected.reason = .quotaWindowSpent ∧ rejected.resetsAt = some 10 ∧
      RejectsAs
        (windowedMember [fiveHourUntilTen, { fiveHourUntilTen with window := .sevenDay, resetsAt := some 100 }])
        "m" 10 {} .quotaWindowSpent :=
  ⟨_, rfl, rfl, rfl, _, rfl, rfl⟩

/-- A window the provider reset itself keeps an account from being dropped for a probe in flight
exactly when it is the first spent one, another check answers before the holds, or no hold names
a probe. -/
theorem provider_clock_outranks_iff (hmem : window ∈ member.account.quotaWindows.getD [])
    (hspent : isWindowSpent window now (spentThreshold options) = true)
    (huncovered : recoveryAllowsQuota member.account now (spentThreshold options) = false) :
    ¬ RejectsAs member model now options .probeInFlight ↔
      (∃ first, findSpentWindow member.account now (spentThreshold options) = some first ∧
        first.resetSource = .providerReported) ∨
      ¬ inService member model ∨ providerReportedCooldown member now = true ∨
      gateHolds member.account = false ∧
        (cooldownHolds member now = true ∨ (heldProbe member.account now).isSome = false) := by
  obtain ⟨first, hfirst⟩ : ∃ first, findSpentWindow member.account now (spentThreshold options) = some first := by
    have hsome : ((member.account.quotaWindows.getD []).find? fun window =>
        isWindowSpent window now (spentThreshold options)).isSome = true :=
      List.find?_isSome.mpr ⟨window, hmem, hspent⟩
    exact Option.isSome_iff_exists.mp hsome
  have hblocking := blockingWindow_eq_some.mpr ⟨hfirst, huncovered⟩
  by_cases hservice : inService member model
  · rw [rejectsAs_iff hservice, clockVerdict_iff.2, hblocking, hfirst]
    cases providerReportedCooldown member now <;> cases gateHolds member.account <;>
      cases cooldownHolds member now <;> cases (heldProbe member.account now).isSome <;>
        simp [hservice]
  · simp only [hservice, not_false_iff, true_or, or_true, iff_true]
    exact fun hprobe => hservice (hprobe.inService (.inr rfl))

/-- A spent window the router estimated, refilling at ten. -/
def estimatedUntilTen : QuotaWindowState := { fiveHourUntilTen with resetSource := .estimated }

/-- A weekly window the provider reset itself at a hundred. -/
def weeklyUntilHundred : QuotaWindowState :=
  { fiveHourUntilTen with window := .sevenDay, resetsAt := some 100 }

/-- An account whose recovery failed, with these windows. -/
def gatedMember (windows : List QuotaWindowState) : ScopedAccount :=
  { account :=
      { id := "a", quotaWindows := some windows, recovery := some { state := .failed, nextAllowedAt := 1 } }
    poolId := none, weight := 100, priority := 0, order := 0 }

/-- With the provider's own window first, the gate is not named. -/
theorem provider_clock_outranks_first :
    ¬ RejectsAs (gatedMember [weeklyUntilHundred, estimatedUntilTen]) "m" 0 {} .probeInFlight :=
  (provider_clock_outranks_iff (List.mem_cons_self ..) rfl rfl).mpr (.inl ⟨_, rfl, rfl⟩)

/-- Behind a window the router estimated, the provider's own clock is not read, and the gate answers. -/
theorem provider_clock_outranked :
    weeklyUntilHundred ∈ (gatedMember [estimatedUntilTen, weeklyUntilHundred]).account.quotaWindows.getD [] ∧
      isWindowSpent weeklyUntilHundred 0 (spentThreshold {}) = true ∧
      weeklyUntilHundred.resetSource = .providerReported ∧
      recoveryAllowsQuota (gatedMember [estimatedUntilTen, weeklyUntilHundred]).account 0
        (spentThreshold {}) = false ∧
      RejectsAs (gatedMember [estimatedUntilTen, weeklyUntilHundred]) "m" 0 {} .probeInFlight :=
  ⟨by simp [gatedMember], rfl, rfl, rfl, _, rfl, rfl⟩

end MultiAiRouter.Routing
