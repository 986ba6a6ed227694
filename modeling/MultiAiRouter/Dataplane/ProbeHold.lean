import MultiAiRouter.Dataplane.HealthTerminal

/-!
# One half-open probe at a time

The hold of a probe lives in the account's state and the token that may release it beside the states. Only an
admission past the hold, a release by the held token or by none, a reset, and facts that recover the account write
either.
-/

namespace MultiAiRouter.Dataplane

open Common Routing

/-- The hold on an account and the token that may release it. -/
def HealthStore.probe (store : HealthStore) (accountId : String) : Option Instant × Option Nat :=
  ((store.stateOf accountId).probeHeldUntil, store.probeTokens accountId)

/-- Facts that recover the account's health. -/
def RecoversHealth (accountId : String) (facts : HealthAccountFacts) (store : HealthStore) : Prop :=
  ((store.observations.reconcile accountId facts).1.bind fun kind =>
    recoverHealth (store.stateOf accountId) kind facts).isSome

/-- The operation ends the hold of this token: released with it or with none, reset, or recovered. -/
def FreesProbe (accountId : String) (token : Nat) (store : HealthStore) : HealthOp → Prop
  | .releaseProbe other released => other = accountId ∧ (released = none ∨ released = some token)
  | .reset other => other = accountId
  | .reconcile other facts => other = accountId ∧ RecoversHealth accountId facts store
  | _ => False

/-- The clock an operation is given. -/
def clockOf : HealthOp → Option Instant
  | .recordFailure _ _ now _ _ _ | .applyRateLimit _ _ now _ _ | .admitProbe _ now => some now
  | _ => none

section Frame

variable {options : HealthStoreOptions} {store : HealthStore} {accountId other : String}

/-- A state written with the same hold leaves every hold. -/
theorem probe_write {next : HealthStore} {state : AccountHealthState}
    (hstates : next.states = (store.write other state).states) (htokens : next.probeTokens = store.probeTokens)
    (hheld : state.probeHeldUntil = (store.stateOf other).probeHeldUntil) :
    next.probe accountId = store.probe accountId := by
  unfold HealthStore.probe HealthStore.stateOf
  rw [hstates, htokens]
  by_cases hid : accountId = other
  · subst hid
    simpa [HealthStore.write, HealthStore.stateOf] using hheld
  · simp [HealthStore.write, hid]

/-- An admission takes no hold and writes neither state nor token, or it takes one past the hold that
stood, under the next token. -/
theorem admitProbe_cases (store : HealthStore) (other : String) (now : Instant) :
    ((store.admitProbe options other now).1.held = false ∧
        (store.admitProbe options other now).2.states = store.states ∧
        (store.admitProbe options other now).2.probeTokens = store.probeTokens ∧
        (store.admitProbe options other now).2.nextProbeToken = store.nextProbeToken) ∨
      ((store.admitProbe options other now).1 =
          { admitted := true, held := true, token := some (store.nextProbeToken + 1) } ∧
        (∀ held, (store.stateOf other).probeHeldUntil = some held → held ≤ now) ∧
        (store.admitProbe options other now).2.states = (store.write other { store.stateOf other with
          probeHeldUntil := some (now + options.probeHoldMs.getD defaultProbeHoldMs) }).states ∧
        (store.admitProbe options other now).2.probeTokens =
          Function.update store.probeTokens other (some (store.nextProbeToken + 1)) ∧
        (store.admitProbe options other now).2.nextProbeToken = store.nextProbeToken + 1) := by
  unfold HealthStore.admitProbe
  dsimp only
  split
  · exact Or.inl ⟨rfl, rfl, rfl, rfl⟩
  · exact Or.inl ⟨rfl, rfl, rfl, rfl⟩
  · exact Or.inl ⟨rfl, rfl, rfl, rfl⟩
  · split
    · exact Or.inl ⟨rfl, rfl, rfl, rfl⟩
    · next hfree =>
      refine Or.inr ⟨rfl, fun held hheld => ?_, rfl, rfl, rfl⟩
      simpa [hheld] using hfree

/-- The hold an admission takes, and the token it is under. -/
theorem admitProbe_probe_self {now : Instant} (h : (store.admitProbe options other now).1.held) :
    (store.admitProbe options other now).2.probe other =
      (some (now + options.probeHoldMs.getD defaultProbeHoldMs), some (store.nextProbeToken + 1)) := by
  rcases @admitProbe_cases options store other now with ⟨hnot, _⟩ | ⟨_, _, hstates, htokens, _⟩
  · exact absurd h (by simp [hnot])
  · simp [HealthStore.probe, HealthStore.stateOf, hstates, htokens, HealthStore.write]

/-- An admission before the hold is over leaves it. -/
theorem admitProbe_probe {now : Instant}
    (h : accountId = other → ∃ held, (store.stateOf accountId).probeHeldUntil = some held ∧ now < held) :
    (store.admitProbe options other now).2.probe accountId = store.probe accountId := by
  rcases @admitProbe_cases options store other now with
    ⟨_, hstates, htokens, _⟩ | ⟨_, hfree, hstates, htokens, _⟩
  · simp [HealthStore.probe, HealthStore.stateOf, hstates, htokens]
  · have hid : accountId ≠ other := by
      rintro rfl
      obtain ⟨held, hheld, hlater⟩ := h rfl
      exact absurd (hfree held hheld) (not_le_of_gt hlater)
    simp [HealthStore.probe, HealthStore.stateOf, hstates, htokens, HealthStore.write, hid]

/-- A release leaves the holds of other accounts and every hold its token does not hold. -/
theorem releaseProbe_probe {token : Option Nat}
    (h : accountId ≠ other ∨ (token ≠ none ∧ token ≠ store.probeTokens accountId)) :
    (store.releaseProbe other token).probe accountId = store.probe accountId := by
  unfold HealthStore.releaseProbe
  by_cases hid : accountId = other
  · subst hid
    obtain ⟨hsome, hother⟩ := h.resolve_left (· rfl)
    rw [if_pos (by simp [Option.isSome_iff_ne_none.mpr hsome, hother.symm])]
  · split
    · rfl
    · dsimp only
      split
      · simp [HealthStore.probe, HealthStore.stateOf, hid]
      · simp [HealthStore.probe, HealthStore.stateOf, HealthStore.write, hid]

/-- Facts that do not recover the account leave its hold. -/
theorem reconcile_probe {facts : HealthAccountFacts} (h : accountId ≠ other ∨ ¬ RecoversHealth accountId facts store) :
    (store.reconcile other facts).probe accountId = store.probe accountId := by
  unfold HealthStore.reconcile
  dsimp only
  split
  · rfl
  · next recovered hrecovered =>
    by_cases hid : accountId = other
    · subst hid
      exact absurd (by rw [RecoversHealth, hrecovered]; rfl) (h.resolve_left (· rfl))
    · simp [HealthStore.probe, HealthStore.stateOf, HealthStore.write, hid]

/-- A hold stands through every operation that does not end it, as long as the clocks of the
admissions on its account are before its end. -/
theorem healthStep_probe {token : Nat} {held : Instant} (hprobe : store.probe accountId = (some held, some token))
    {op : HealthOp} (hop : ¬ FreesProbe accountId token store op)
    (hclock : ∀ now, op = .admitProbe accountId now → now < held) :
    (healthStep options store op).probe accountId = store.probe accountId := by
  obtain ⟨hheld, htoken⟩ := Prod.mk.inj hprobe
  cases op with
  | reconcile other facts =>
    refine reconcile_probe ?_
    by_cases hid : accountId = other
    · exact Or.inr fun hrecovers => hop ⟨hid.symm, hrecovers⟩
    · exact Or.inl hid
  | captureAttempt other facts => rfl
  | beginAttempt other => exact probe_write rfl rfl rfl
  | endAttempt other tokens => exact probe_write rfl rfl rfl
  | recordSuccess other observation =>
    simp only [healthStep, HealthStore.recordSuccess]
    split
    · rfl
    · split
      · rfl
      · exact probe_write rfl rfl rfl
  | recordFailure other failure now jitter caller observation =>
    simp only [healthStep, HealthStore.recordFailure]
    split
    · rfl
    · split
      · rfl
      · split
        · exact probe_write rfl rfl rfl
        · split
          · exact probe_write rfl rfl rfl
          · exact probe_write rfl rfl rfl
  | applyRateLimit other signal now jitter observation =>
    simp only [healthStep, HealthStore.applyRateLimit]
    split
    · rfl
    · split
      · rfl
      · split
        · exact probe_write rfl rfl rfl
        · exact probe_write rfl rfl rfl
        · exact probe_write rfl rfl rfl
  | admitProbe other now =>
    refine admitProbe_probe ?_
    rintro rfl
    exact ⟨held, hheld, hclock now rfl⟩
  | releaseProbe other released =>
    refine releaseProbe_probe ?_
    by_cases hid : accountId = other
    · right
      refine ⟨fun hnone => hop ⟨hid.symm, Or.inl hnone⟩, ?_⟩
      rintro rfl
      exact hop ⟨hid.symm, Or.inr htoken⟩
    · exact Or.inl hid
  | reset other =>
    have hid : accountId ≠ other := fun hid => hop hid.symm
    simp [healthStep, HealthStore.reset, HealthStore.notify, HealthStore.probe, HealthStore.stateOf, hid]

end Frame

section Tokens

variable {options : HealthStoreOptions} {store : HealthStore} {accountId : String}

/-- The tokens of an account are from this one on, and so are those still to be drawn. -/
def TokensFrom (accountId : String) (token : Nat) (store : HealthStore) : Prop :=
  token ≤ store.nextProbeToken ∧ ∀ held, store.probeTokens accountId = some held → token ≤ held

/-- What an operation does to the tokens: nothing, one removed, or the next one drawn. -/
theorem healthStep_tokens (options : HealthStoreOptions) (store : HealthStore) (op : HealthOp) :
    ((healthStep options store op).nextProbeToken = store.nextProbeToken ∧
        ∀ accountId held, (healthStep options store op).probeTokens accountId = some held →
          store.probeTokens accountId = some held) ∨
      ∃ other, (healthStep options store op).nextProbeToken = store.nextProbeToken + 1 ∧
        (healthStep options store op).probeTokens =
          Function.update store.probeTokens other (some (store.nextProbeToken + 1)) := by
  have hremoved (other accountId : String) (held : Nat)
      (h : Function.update store.probeTokens other none accountId = some held) :
      store.probeTokens accountId = some held := by
    by_cases hid : accountId = other
    · subst hid
      simp at h
    · simpa [hid] using h
  cases op with
  | reconcile other facts =>
    left
    simp only [healthStep, HealthStore.reconcile]
    split
    · exact ⟨rfl, fun _ _ h => h⟩
    · exact ⟨rfl, hremoved other⟩
  | captureAttempt other facts => exact Or.inl ⟨rfl, fun _ _ h => h⟩
  | beginAttempt other => exact Or.inl ⟨rfl, fun _ _ h => h⟩
  | endAttempt other tokens => exact Or.inl ⟨rfl, fun _ _ h => h⟩
  | recordSuccess other observation =>
    left
    simp only [healthStep, HealthStore.recordSuccess]
    split
    · exact ⟨rfl, fun _ _ h => h⟩
    · split <;> exact ⟨rfl, fun _ _ h => h⟩
  | recordFailure other failure now jitter caller observation =>
    left
    simp only [healthStep, HealthStore.recordFailure]
    split
    · exact ⟨rfl, fun _ _ h => h⟩
    · split
      · exact ⟨rfl, fun _ _ h => h⟩
      · split
        · exact ⟨rfl, fun _ _ h => h⟩
        · split <;> exact ⟨rfl, fun _ _ h => h⟩
  | applyRateLimit other signal now jitter observation =>
    left
    simp only [healthStep, HealthStore.applyRateLimit]
    split
    · exact ⟨rfl, fun _ _ h => h⟩
    · split
      · exact ⟨rfl, fun _ _ h => h⟩
      · split <;> exact ⟨rfl, fun _ _ h => h⟩
  | admitProbe other now =>
    rcases @admitProbe_cases options store other now with ⟨_, _, htokens, hnext⟩ | ⟨_, _, _, htokens, hnext⟩
    · exact Or.inl ⟨hnext, fun _ _ h => by simpa [healthStep, htokens] using h⟩
    · exact Or.inr ⟨other, hnext, htokens⟩
  | releaseProbe other token =>
    left
    simp only [healthStep, HealthStore.releaseProbe]
    split
    · exact ⟨rfl, fun _ _ h => h⟩
    · split <;> exact ⟨rfl, hremoved other⟩
  | reset other => exact Or.inl ⟨rfl, hremoved other⟩

/-- Tokens are drawn in order, so an account's later tokens are larger. -/
theorem healthStep_tokensFrom {token : Nat} (h : TokensFrom accountId token store) (op : HealthOp) :
    TokensFrom accountId token (healthStep options store op) := by
  obtain ⟨hnext, hheld⟩ := h
  rcases healthStep_tokens options store op with ⟨hsame, hfewer⟩ | ⟨other, hdrawn, htokens⟩
  · exact ⟨hsame ▸ hnext, fun held hnow => hheld held (hfewer accountId held hnow)⟩
  · refine ⟨by omega, fun held hnow => ?_⟩
    rw [htokens] at hnow
    by_cases hid : accountId = other
    · subst hid
      simp at hnow
      omega
    · exact hheld held (by simpa [hid] using hnow)

end Tokens

/-- A hold stands through every run without an end of it whose admissions on its account are before
its end. -/
theorem run_probe {options : HealthStoreOptions} {accountId : String} {token : Nat} {held : Instant}
    (ops : List HealthOp) {store : HealthStore} (hprobe : store.probe accountId = (some held, some token))
    (hops : EveryStep (healthStep options) (fun store op => ¬ FreesProbe accountId token store op) store ops)
    (hclock : ∀ now, HealthOp.admitProbe accountId now ∈ ops → now < held) :
    (runFrom (healthStep options) store ops).probe accountId = (some held, some token) := by
  induction ops generalizing store with
  | nil => exact hprobe
  | cons op rest ih =>
    have hkept : (healthStep options store op).probe accountId = store.probe accountId := by
      refine healthStep_probe hprobe hops.1 ?_
      rintro now rfl
      exact hclock now (List.mem_cons_self ..)
    exact ih (hkept.trans hprobe) hops.2 fun now hnow => hclock now (List.mem_cons_of_mem _ hnow)

/-- The token of a held admission is the next one, and no token of the account is before it. -/
theorem admitProbe_token {options : HealthStoreOptions} {store : HealthStore} {accountId : String} {now : Instant}
    {token : Nat}
    (h : (store.admitProbe options accountId now).1 = { admitted := true, held := true, token := some token }) :
    token = store.nextProbeToken + 1 ∧ TokensFrom accountId token (store.admitProbe options accountId now).2 := by
  rcases @admitProbe_cases options store accountId now with
    ⟨hnot, _⟩ | ⟨hadmitted, _, _, htokens, hnext⟩
  · simp [h] at hnot
  · obtain rfl : store.nextProbeToken + 1 = token := by simpa [hadmitted] using h
    refine ⟨rfl, hnext.ge, fun held hheld => ?_⟩
    simp [htokens] at hheld
    omega

/-- In every run whose clocks do not go back, two held admissions of one account closer than the hold
have the release of the first, by its own token or by none, a reset or a recovery between them; and
after the second a release with an older token does nothing. -/
theorem runHealth_single_probe (options : HealthStoreOptions) (before middle : List HealthOp) (accountId : String)
    (first second : Instant) (token newer : Nat)
    (hfirst : ((runHealth options before).admitProbe options accountId first).1 =
      { admitted := true, held := true, token := some token })
    (hsecond : ((runHealth options (before ++ HealthOp.admitProbe accountId first :: middle)).admitProbe
      options accountId
      second).1 = { admitted := true, held := true, token := some newer })
    (hclock : ((before ++ HealthOp.admitProbe accountId first ::
      (middle ++ [HealthOp.admitProbe accountId second])).filterMap clockOf).Pairwise (· ≤ ·)) :
    (second < first + options.probeHoldMs.getD defaultProbeHoldMs →
      SomeStep (healthStep options) (FreesProbe accountId token)
        (runHealth options (before ++ [HealthOp.admitProbe accountId first])) middle) ∧
    token < newer ∧
    ∀ later older store, older < newer →
      runHealth options (before ++ HealthOp.admitProbe accountId first ::
        (middle ++ HealthOp.admitProbe accountId second :: later)) =
        store →
      store.releaseProbe accountId (some older) = store := by
  have hstart : runHealth options (before ++ [HealthOp.admitProbe accountId first]) =
      ((runHealth options before).admitProbe options accountId first).2 := by
    rw [runHealth, runFrom_append]
    rfl
  have hmiddle : runHealth options (before ++ HealthOp.admitProbe accountId first :: middle) =
      runFrom (healthStep options) (runHealth options (before ++ [HealthOp.admitProbe accountId first])) middle := by
    rw [hstart, runHealth, runFrom_append]
    rfl
  obtain ⟨rfl, hfrom⟩ := admitProbe_token hfirst
  obtain ⟨rfl, hnewer⟩ := admitProbe_token hsecond
  refine ⟨fun hclose => ?_, ?_, ?_⟩
  · by_contra hnone
    have hprobe := @admitProbe_probe_self options (runHealth options before) accountId first (by rw [hfirst])
    -- Every admission of the account in between has a clock no later than the second's.
    have hlast : ∀ now, HealthOp.admitProbe accountId now ∈ middle → now ≤ second := by
      intro now hnow
      rw [List.filterMap_append, List.pairwise_append, List.filterMap_cons] at hclock
      simp only [clockOf, List.filterMap_append, List.pairwise_cons, List.pairwise_append] at hclock
      refine hclock.2.1.2.2.2 now ?_ second ?_
      · exact List.mem_filterMap.mpr ⟨_, hnow, rfl⟩
      · exact List.mem_filterMap.mpr ⟨_, List.mem_singleton_self _, rfl⟩
    have hstands := run_probe middle (hstart ▸ hprobe) (not_someStep.mp hnone)
      fun now hnow => (hlast now hnow).trans_lt hclose
    rw [← hmiddle] at hstands
    rcases @admitProbe_cases options
      (runHealth options (before ++ HealthOp.admitProbe accountId first :: middle)) accountId second with
        ⟨hnot, _⟩ | ⟨_, hfree, _⟩
    · simp [hsecond] at hnot
    · exact absurd (hfree _ (Prod.mk.inj hstands).1) (not_le_of_gt hclose)
  · have hkept : TokensFrom accountId ((runHealth options before).nextProbeToken + 1)
        (runHealth options (before ++ HealthOp.admitProbe accountId first :: middle)) := by
      rw [hmiddle, hstart]
      exact runFrom_invariant (TokensFrom accountId _) (fun _ op h => healthStep_tokensFrom h op) middle _ hfrom
    exact Nat.lt_succ_of_le hkept.1
  · rintro later older store holder rfl
    have hkept : TokensFrom accountId
        ((runHealth options (before ++ HealthOp.admitProbe accountId first :: middle)).nextProbeToken + 1)
        (runHealth options (before ++ HealthOp.admitProbe accountId first ::
          (middle ++ HealthOp.admitProbe accountId second :: later))) := by
      have hwhole : runHealth options (before ++ HealthOp.admitProbe accountId first ::
          (middle ++ HealthOp.admitProbe accountId second :: later)) = runFrom (healthStep options)
            ((runHealth options (before ++ HealthOp.admitProbe accountId first :: middle)).admitProbe options accountId
              second).2 later := by
        rw [← List.cons_append, ← List.append_assoc, runHealth, runFrom_append]
        rfl
      rw [hwhole]
      exact runFrom_invariant (TokensFrom accountId _) (fun _ op h => healthStep_tokensFrom h op) later _ hnewer
    unfold HealthStore.releaseProbe
    rw [if_pos]
    simp only [Option.isSome_some, Bool.true_and, bne_iff_ne, ne_eq]
    intro htoken
    have := hkept.2 older htoken
    omega

/-- The account was limited until `1000`. -/
def limitedOnce : List HealthOp :=
  [.recordFailure "A" { kind := .rateLimited, resetsAt := some 1000, message := "limit reached" } 0 0 {} none]

/-- The first probe is released by its own token, the second is admitted half a second later, and the
first token then releases nothing. -/
theorem runHealth_single_probe_released :
    SomeStep (healthStep {}) (FreesProbe "A" 1) (runHealth {} (limitedOnce ++ [HealthOp.admitProbe "A" 1000]))
        [HealthOp.releaseProbe "A" (some 1)] ∧
      (runHealth {} (limitedOnce ++ HealthOp.admitProbe "A" 1000 ::
        ([HealthOp.releaseProbe "A" (some 1)] ++ [HealthOp.admitProbe "A" 1500]))).releaseProbe "A" (some 1) =
        runHealth {} (limitedOnce ++ HealthOp.admitProbe "A" 1000 ::
          ([HealthOp.releaseProbe "A" (some 1)] ++ [HealthOp.admitProbe "A" 1500])) := by
  have hprobe := runHealth_single_probe {} limitedOnce [HealthOp.releaseProbe "A" (some 1)] "A" 1000 1500 1 2
    (by decide +kernel) (by decide +kernel) (by decide +kernel)
  exact ⟨hprobe.1 (by decide), hprobe.2.2 [] 1 _ (by decide) rfl⟩

end MultiAiRouter.Dataplane
