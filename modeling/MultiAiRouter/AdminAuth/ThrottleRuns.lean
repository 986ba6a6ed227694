import MultiAiRouter.AdminAuth.Throttle

/-!
# What the throttle forgives

The bucket of a key accounts for the failures that count against it, and a key without a bucket has none. So an
eviction takes no failure that counts, and a full bucket refuses its key until the lockout of the last one is over.
-/

namespace MultiAiRouter.AdminAuth

open Common

variable {Key : Type} [DecidableEq Key] {config : AdminAuthConfig}

section Buckets

variable {buckets : Buckets Key} {key other : Key} {bucket : Bucket} {keys : List Key} {nowMs : ℕ}

/-- An eviction keeps the buckets that have not expired. -/
theorem get_evictStale : (evictStale config buckets nowMs).get key = some bucket ↔
    buckets.get key = some bucket ∧ expired config bucket nowMs = false := by
  rw [InsertionMap.get_eq_some, InsertionMap.get_eq_some]
  simp [evictStale]

/-- A live bucket is not evicted. -/
theorem evictStale_of_live (h : buckets.get key = some bucket) (hlive : expired config bucket nowMs = false) :
    (evictStale config buckets nowMs).get key = some bucket :=
  get_evictStale.mpr ⟨h, hlive⟩

/-- A bucket is written for the key that failed, and for no other. -/
theorem get_chargeKey_of_ne (h : other ≠ key) : (chargeKey config nowMs buckets key).get other = buckets.get other :=
  InsertionMap.get_set_of_ne buckets _ h

omit [DecidableEq Key] in
/-- A lockout takes time. -/
theorem lockoutMs_positive (config : AdminAuthConfig) : 0 < config.lockoutMs :=
  Nat.mul_pos config.lockout_positive (by decide)

/-- The keys that are locked bound the refusal from below. -/
theorem lockedUntilMs_le_lockedUntil (hget : buckets.get key = some bucket) (hlocked : nowMs < bucket.lockedUntilMs)
    (hmem : key ∈ keys) : bucket.lockedUntilMs ≤ lockedUntil buckets keys nowMs := by
  have grows {step : ℕ → Key → ℕ} (hstep : ∀ latest key, latest ≤ step latest key) (rest : List Key) (latest : ℕ) :
      latest ≤ rest.foldl step latest := by
    induction rest generalizing latest with
    | nil => exact Nat.le_refl _
    | cons head rest ih => exact Nat.le_trans (hstep latest head) (ih _)
  obtain ⟨before, after, rfl⟩ := List.append_of_mem hmem
  rw [lockedUntil, List.foldl_append, List.foldl_cons]
  apply Nat.le_trans _ (grows (fun latest other => ?_) after _)
  · simp only [hget, if_pos hlocked]
    exact Nat.le_max_right ..
  · split
    · exact Nat.le_refl _
    · split
      · exact Nat.le_max_left ..
      · exact Nat.le_refl _

/-- A bucket that has not expired stays where a full map is swept. -/
theorem sweepFull_of_live (h : buckets.get key = some bucket) (hlive : expired config bucket nowMs = false) :
    (sweepFull config buckets nowMs).get key = some bucket := by
  rw [sweepFull]
  split
  · exact evictStale_of_live h hlive
  · exact h

/-- A bucket that is locked has not expired. -/
theorem live_of_locked (hlocked : nowMs < bucket.lockedUntilMs) : expired config bucket nowMs = false := by
  rw [expired, if_pos (by omega)]
  simpa using hlocked

/-- A check of a locked key is refused. -/
theorem check_refused (hget : buckets.get key = some bucket) (hlocked : nowMs < bucket.lockedUntilMs)
    (hmem : key ∈ keys) : ∃ retryAfterSeconds, (check config buckets keys nowMs).2 = .refused retryAfterSeconds := by
  have hkept := sweepFull_of_live hget (live_of_locked hlocked : expired config bucket nowMs = false)
  have hlatest := lockedUntilMs_le_lockedUntil hkept hlocked hmem
  rw [check]
  split
  · exact ⟨max 1 config.lockoutSeconds, rfl⟩
  · rw [if_neg (by omega)]
    exact ⟨_, rfl⟩

end Buckets

section Accounts

variable {times : List ℕ} {nowMs laterMs : ℕ}

omit [DecidableEq Key] in
/-- What has stopped counting does not count again. -/
theorem elapsed_mono (h : elapsed config times nowMs = true) (hle : nowMs ≤ laterMs) :
    elapsed config times laterMs = true := by
  unfold elapsed at h ⊢
  split at h
  · by_cases hfull : config.maxFailedAttempts ≤ times.length
    · simp only [if_pos hfull, decide_eq_true_eq] at h ⊢
      omega
    · simp only [if_neg hfull, decide_eq_true_eq] at h ⊢
      omega
  · rfl

/-- The bucket of a key tells of the failures that count against it; without a bucket none do. -/
def Accounted (config : AdminAuthConfig) (nowMs : ℕ) (times : List ℕ) : Option Bucket → Prop
  | none => elapsed config times nowMs = true
  | some bucket =>
    ∃ first last, times.head? = some first ∧ times.getLast? = some last ∧ bucket.failures = times.length ∧
      bucket.windowStartMs = first ∧
      bucket.lockedUntilMs = if config.maxFailedAttempts ≤ times.length then last + config.lockoutMs else 0

omit [DecidableEq Key] in
/-- A bucket has expired exactly when its failures have stopped counting. -/
theorem Accounted.expired_eq {bucket : Bucket} (h : Accounted config nowMs times (some bucket)) (laterMs : ℕ) :
    expired config bucket laterMs = elapsed config times laterMs := by
  obtain ⟨first, last, hfirst, hlast, -, hstart, hlocked⟩ := h
  have hlockout := lockoutMs_positive config
  rw [expired, elapsed, hfirst, hlast, hlocked, hstart]
  by_cases hfull : config.maxFailedAttempts ≤ times.length
  · simp only [if_pos hfull]
    rw [if_pos (by omega)]
  · simp only [if_neg hfull]
    rfl

omit [DecidableEq Key] in
/-- An account stays right as time goes by. -/
theorem Accounted.later {bucket : Option Bucket} (h : Accounted config nowMs times bucket) (hle : nowMs ≤ laterMs) :
    Accounted config laterMs times bucket := by
  cases bucket with
  | none => exact elapsed_mono h hle
  | some bucket => exact h

/-- The buckets account for the failures of every key. -/
def AllAccounted (config : AdminAuthConfig) (nowMs : ℕ) (ledger : Key → List ℕ) (buckets : Buckets Key) : Prop :=
  ∀ key, Accounted config nowMs (ledger key) (buckets.get key)

variable {ledger : Key → List ℕ} {buckets : Buckets Key} {key : Key}

/-- An eviction takes only failures that have stopped counting. -/
theorem AllAccounted.evictStale (h : AllAccounted config nowMs ledger buckets) :
    AllAccounted config nowMs ledger (evictStale config buckets nowMs) := by
  intro key
  have hkey := h key
  cases hget : buckets.get key with
  | none =>
    rw [hget] at hkey
    have hgone : (AdminAuth.evictStale config buckets nowMs).get key = none := by
      by_contra hsome
      obtain ⟨bucket, hbucket⟩ := Option.ne_none_iff_exists'.mp hsome
      rw [(get_evictStale.mp hbucket).1] at hget
      cases hget
    rw [hgone]
    exact hkey
  | some bucket =>
    rw [hget] at hkey
    cases hexpired : expired config bucket nowMs with
    | false =>
      rw [evictStale_of_live hget hexpired]
      exact hkey
    | true =>
      have hgone : (AdminAuth.evictStale config buckets nowMs).get key = none := by
        by_contra hsome
        obtain ⟨kept, hkept⟩ := Option.ne_none_iff_exists'.mp hsome
        obtain ⟨hsame, hlive⟩ := get_evictStale.mp hkept
        cases hget.symm.trans hsame
        rw [hexpired] at hlive
        cases hlive
      rw [hgone]
      change elapsed config (ledger key) nowMs = true
      rw [← hkey.expired_eq, hexpired]

/-- A sweep keeps the accounts. -/
theorem AllAccounted.sweepFull (h : AllAccounted config nowMs ledger buckets) :
    AllAccounted config nowMs ledger (sweepFull config buckets nowMs) := by
  rw [AdminAuth.sweepFull]
  split
  · exact h.evictStale
  · exact h

/-- A failure is counted in the bucket as it is in the ledger. -/
theorem AllAccounted.chargeKey (h : AllAccounted config nowMs ledger buckets) (key : Key) :
    AllAccounted config nowMs (countFailure config nowMs ledger key) (chargeKey config nowMs buckets key) := by
  intro other
  by_cases hne : other = key
  · subst hne
    have hkey := h other
    rw [countFailure, Function.update_self, AdminAuth.chargeKey, InsertionMap.get_set_self]
    have hfresh : Accounted config nowMs [nowMs] (some
        { failures := 1
          windowStartMs := nowMs
          lockedUntilMs := if config.maxFailedAttempts ≤ 1 then nowMs + config.lockoutMs else 0 }) :=
      ⟨nowMs, nowMs, rfl, rfl, rfl, rfl, rfl⟩
    cases hget : buckets.get other with
    | none =>
      rw [hget] at hkey
      rw [if_pos (show elapsed config (ledger other) nowMs = true from hkey)]
      exact hfresh
    | some bucket =>
      rw [hget] at hkey
      simp only [hkey.expired_eq nowMs]
      cases helapsed : elapsed config (ledger other) nowMs with
      | true => exact hfresh
      | false =>
        obtain ⟨first, last, hfirst, -, hfailures, hstart, hlocked⟩ := hkey
        simp only [Bool.false_eq_true, if_false]
        refine ⟨first, nowMs, ?_, List.getLast?_concat .., ?_, hstart, ?_⟩
        · rw [List.head?_append, hfirst]
          rfl
        · rw [List.length_append, hfailures]
          rfl
        · rw [List.length_append, List.length_singleton, ← hfailures]
          split
          · rfl
          · rw [hlocked, if_neg (by omega)]
  · rw [countFailure, Function.update_of_ne hne, get_chargeKey_of_ne hne]
    exact h other

/-- A reset takes what no longer counts. -/
theorem AllAccounted.delete (h : AllAccounted config nowMs ledger buckets) (key : Key) :
    AllAccounted config nowMs (forgive ledger key) (buckets.delete key) := by
  intro other
  rw [InsertionMap.get_delete]
  by_cases hsame : other = key
  · subst hsame
    rw [if_pos rfl, forgive, Function.update_self]
    rfl
  · rw [if_neg hsame, forgive, Function.update_of_ne hsame]
    exact h other

/-- Failures are counted in both. -/
theorem AllAccounted.chargeKeys (keys : List Key) (h : AllAccounted config nowMs ledger buckets) :
    AllAccounted config nowMs (keys.foldl (countFailure config nowMs) ledger)
      (keys.foldl (AdminAuth.chargeKey config nowMs) buckets) := by
  induction keys generalizing ledger buckets with
  | nil => exact h
  | cons key rest ih => exact ih (h.chargeKey key)

/-- A reset forgives in both. -/
theorem AllAccounted.reset (keys : List Key) (h : AllAccounted config nowMs ledger buckets) :
    AllAccounted config nowMs (keys.foldl forgive ledger) (reset buckets keys) := by
  rw [AdminAuth.reset]
  induction keys generalizing ledger buckets with
  | nil => exact h
  | cons key rest ih => exact ih (h.delete key)

/-- The accounts stay right as time goes by. -/
theorem AllAccounted.later (h : AllAccounted config nowMs ledger buckets) (hle : nowMs ≤ laterMs) :
    AllAccounted config laterMs ledger buckets :=
  fun key => (h key).later hle

/-- A check takes no failure that counts. -/
theorem AllAccounted.check (keys : List Key) (h : AllAccounted config nowMs ledger buckets) :
    AllAccounted config nowMs ledger (check config buckets keys nowMs).1 := by
  rw [AdminAuth.check]
  split
  · exact h.sweepFull
  · split <;> exact h.sweepFull

/-- The buckets of a run account for its failures after each step. -/
theorem AllAccounted.step (observed : Observed Key)
    (h : AllAccounted config observed.state.clock observed.ledger observed.state.buckets) (event : LoginEvent Key) :
    AllAccounted config (observed.step config event).state.clock (observed.step config event).ledger
      (observed.step config event).state.buckets := by
  cases event with
  | attempt keys after => exact (h.later (Nat.le_add_right _ after)).check keys
  | settle index failed after =>
    have hlater := h.later (Nat.le_add_right _ after)
    rw [Observed.step, LoginState.step]
    cases hkeys : observed.state.flight[index]? with
    | none =>
      exact hlater
    | some keys =>
      cases failed with
      | true =>
        simp only [if_true]
        exact hlater.sweepFull.chargeKeys keys
      | false =>
        simp only [Bool.false_eq_true, if_false]
        exact hlater.reset keys

end Accounts

section Tracked

/-- The keys the throttle has a bucket for. -/
def LoginState.tracked (state : LoginState Key) : Finset Key := (state.buckets.entries.map Prod.fst).toFinset

/-- The keys of the attempts that are under way, with the tracked ones. -/
def LoginState.known (state : LoginState Key) : Finset Key := state.tracked ∪ state.inFlight

/-- As many keys are tracked as there are buckets. -/
theorem card_tracked (state : LoginState Key) : state.tracked.card = state.buckets.entries.length := by
  rw [LoginState.tracked, List.toFinset_card_of_nodup state.buckets.nodup, List.length_map]

/-- A key is tracked that has a bucket. -/
theorem mem_tracked {state : LoginState Key} {key : Key} : key ∈ state.tracked ↔ (state.buckets.get key).isSome := by
  rw [LoginState.tracked, List.mem_toFinset, ← not_iff_not, ← InsertionMap.get_eq_none]
  simp

/-- The keys that are known. -/
theorem card_known_le (state : LoginState Key) :
    state.known.card ≤ state.buckets.entries.length + state.inFlight.card := by
  rw [← card_tracked]
  exact Finset.card_union_le ..

variable {buckets : Buckets Key} {key other : Key} {nowMs : ℕ}

/-- A swept map has buckets for no key that had none. -/
theorem isSome_sweepFull (h : ((sweepFull config buckets nowMs).get key).isSome) : (buckets.get key).isSome := by
  rw [sweepFull] at h
  split at h
  · obtain ⟨bucket, hbucket⟩ := Option.isSome_iff_exists.mp h
    rw [(get_evictStale.mp hbucket).1]
    rfl
  · exact h

/-- A failure makes a bucket for its key only. -/
theorem isSome_chargeKey (h : ((chargeKey config nowMs buckets key).get other).isSome) :
    other = key ∨ (buckets.get other).isSome := by
  by_cases hsame : other = key
  · exact .inl hsame
  · rw [get_chargeKey_of_ne hsame] at h
    exact .inr h

/-- Failures make buckets for their keys only. -/
theorem isSome_chargeKeys (keys : List Key) (h : ((keys.foldl (chargeKey config nowMs) buckets).get other).isSome) :
    other ∈ keys ∨ (buckets.get other).isSome := by
  induction keys generalizing buckets with
  | nil => exact .inr h
  | cons key rest ih =>
    rcases ih h with hmem | hsome
    · exact .inl (.tail _ hmem)
    · exact (isSome_chargeKey hsome).imp_left fun hsame => by rw [hsame]; exact List.mem_cons_self ..

/-- A reset makes no bucket. -/
theorem isSome_reset (keys : List Key) (h : ((reset buckets keys).get other).isSome) : (buckets.get other).isSome := by
  rw [reset] at h
  induction keys generalizing buckets with
  | nil => exact h
  | cons key rest ih =>
    have hrest := ih h
    rw [InsertionMap.get_delete] at hrest
    split at hrest
    · cases hrest
    · exact hrest

/-- A check only sweeps. -/
theorem check_buckets (keys : List Key) : (check config buckets keys nowMs).1 = sweepFull config buckets nowMs := by
  rw [check]
  split
  · rfl
  · split <;> rfl

/-- An attempt that is allowed leaves room in the map, or has a bucket for each of its keys. -/
theorem room_of_allowed {keys : List Key} (h : (check config buckets keys nowMs).2 = .allowed) :
    (sweepFull config buckets nowMs).entries.length < config.maxTrackedIps ∨
      ∀ key ∈ keys, ((sweepFull config buckets nowMs).get key).isSome := by
  rw [check] at h
  split at h
  · cases h
  · next hroom =>
    by_cases hlt : (sweepFull config buckets nowMs).entries.length < config.maxTrackedIps
    · exact .inl hlt
    · right
      intro key hkey
      by_contra hnone
      apply hroom
      refine ⟨?_, List.any_eq_true.mpr ⟨key, hkey, by simpa using hnone⟩, Nat.le_of_not_lt hlt⟩
      by_contra hsmall
      rw [sweepFull, if_neg hsmall] at hlt
      omega

/-- The keys under way and the tracked ones are within the bound, and the peak is over the keys under way. -/
structure Bounded (config : AdminAuthConfig) (observed : Observed Key) : Prop where
  flight : observed.state.inFlight.card ≤ observed.peak
  known : observed.state.known.card ≤ config.maxTrackedIps + observed.peak

/-- A key in flight was in flight before the attempt settled. -/
theorem mem_inFlight_eraseIdx {flight : List (List Key)} {index : ℕ} {buckets : Buckets Key} {clock : ℕ}
    (h : key ∈ ({ buckets, flight := flight.eraseIdx index, clock } : LoginState Key).inFlight) :
    key ∈ flight.flatten := by
  rw [LoginState.inFlight, List.mem_toFinset, List.mem_flatten] at h
  obtain ⟨keys, hkeys, hkey⟩ := h
  exact List.mem_flatten.mpr ⟨keys, List.mem_of_mem_eraseIdx hkeys, hkey⟩

/-- What settles has its keys under way, so that it brings none. -/
theorem known_settle (state : LoginState Key) (index : ℕ) (failed : Bool) (after : ℕ) :
    (state.step config (.settle index failed after)).known ⊆ state.known := by
  intro key hkey
  rw [LoginState.known, Finset.mem_union, mem_tracked] at hkey ⊢
  rw [LoginState.step] at hkey
  cases hkeys : state.flight[index]? with
  | none =>
    simp only [hkeys] at hkey
    exact hkey
  | some keys =>
    simp only [hkeys] at hkey
    rcases hkey with hbucket | hflight
    · cases failed with
      | true =>
        rcases isSome_chargeKeys keys hbucket with hmem | hsome
        · right
          rw [LoginState.inFlight, List.mem_toFinset]
          exact List.mem_flatten.mpr ⟨keys, List.mem_of_getElem? hkeys, hmem⟩
        · exact .inl (isSome_sweepFull hsome)
      | false => exact .inl (isSome_reset keys hbucket)
    · right
      rw [LoginState.inFlight, List.mem_toFinset]
      exact mem_inFlight_eraseIdx hflight

/-- An attempt that is refused, or whose keys have buckets, brings none either. -/
theorem known_attempt (state : LoginState Key) (keys : List Key) (after : ℕ)
    (h : (check config state.buckets keys (state.clock + after)).2 = .allowed →
      ∀ key ∈ keys, ((sweepFull config state.buckets (state.clock + after)).get key).isSome) :
    (state.step config (.attempt keys after)).known ⊆ state.known := by
  intro key hkey
  rw [LoginState.known, Finset.mem_union, mem_tracked] at hkey ⊢
  simp only [LoginState.step, check_buckets, LoginEvent.after] at hkey
  rcases hkey with hbucket | hflight
  · exact .inl (isSome_sweepFull hbucket)
  · cases hallowed : (check config state.buckets keys (state.clock + after)).2 with
    | allowed =>
      simp only [hallowed] at hflight
      rw [LoginState.inFlight, List.mem_toFinset, List.flatten_append, List.mem_append] at hflight
      rcases hflight with hbefore | hnew
      · right
        rw [LoginState.inFlight, List.mem_toFinset]
        exact hbefore
      · exact .inl (isSome_sweepFull (h hallowed key (by simpa using hnew)))
    | refused retryAfterSeconds =>
      right
      simp only [hallowed] at hflight
      exact hflight

/-- Every event keeps the bounds. -/
theorem Bounded.step (observed : Observed Key) (h : Bounded config observed) (event : LoginEvent Key) :
    Bounded config (observed.step config event) := by
  refine ⟨Nat.le_max_right .., ?_⟩
  have hpeak : observed.peak ≤ (observed.step config event).peak := Nat.le_max_left ..
  have hsmaller (hsub : (observed.state.step config event).known ⊆ observed.state.known) :
      (observed.step config event).state.known.card ≤ config.maxTrackedIps + (observed.step config event).peak := by
    have hcard := Finset.card_le_card hsub
    have hknown := h.known
    change (observed.state.step config event).known.card ≤ _
    omega
  cases event with
  | settle index failed after => exact hsmaller (known_settle observed.state index failed after)
  | attempt keys after =>
    by_cases hkeys : (check config observed.state.buckets keys (observed.state.clock + after)).2 = .allowed →
        ∀ key ∈ keys, ((sweepFull config observed.state.buckets (observed.state.clock + after)).get key).isSome
    · exact hsmaller (known_attempt observed.state keys after hkeys)
    · obtain ⟨hallowed, hnew⟩ := Classical.not_imp.mp hkeys
      have hroom := (room_of_allowed hallowed).resolve_right hnew
      have hbound := card_known_le (observed.step config (.attempt keys after)).state
      have hflight : (observed.step config (.attempt keys after)).state.inFlight.card ≤
          (observed.step config (.attempt keys after)).peak := Nat.le_max_right ..
      have hbuckets : (observed.step config (.attempt keys after)).state.buckets =
          sweepFull config observed.state.buckets (observed.state.clock + after) := check_buckets keys
      rw [hbuckets] at hbound
      omega

end Tracked

section Kept

/-- An attempt for the key succeeds, and its keys are reset. -/
def Forgives (state : LoginState Key) (key : Key) : LoginEvent Key → Prop
  | .attempt _ _ => False
  | .settle index failed _ => failed = false ∧ ∃ keys, state.flight[index]? = some keys ∧ key ∈ keys

/-- The later bucket is of the same window, with the failures of the earlier one among its own. -/
def StillCounts (bucket later : Bucket) : Prop :=
  bucket.failures ≤ later.failures ∧ later.windowStartMs = bucket.windowStartMs

variable {buckets : Buckets Key} {key : Key} {bucket : Bucket} {nowMs : ℕ}

/-- A failure adds to a bucket that has not expired, and leaves it so. -/
theorem chargeKey_keeps (other : Key) (hget : buckets.get key = some bucket)
    (hlive : expired config bucket nowMs = false) :
    ∃ later, (chargeKey config nowMs buckets other).get key = some later ∧ StillCounts bucket later ∧
      expired config later nowMs = false := by
  by_cases hsame : key = other
  · subst hsame
    simp only [chargeKey, InsertionMap.get_set_self, hget, hlive, Bool.false_eq_true, if_false]
    refine ⟨_, rfl, ⟨Nat.le_succ _, rfl⟩, ?_⟩
    split
    · exact live_of_locked (Nat.lt_add_of_pos_right (lockoutMs_positive config))
    · exact hlive
  · exact ⟨bucket, by rw [get_chargeKey_of_ne hsame, hget], ⟨Nat.le_refl _, rfl⟩, hlive⟩

/-- A live bucket counts on through failures. -/
theorem chargeKeys_keep (keys : List Key) (hget : buckets.get key = some bucket)
    (hlive : expired config bucket nowMs = false) :
    ∃ later, (keys.foldl (chargeKey config nowMs) buckets).get key = some later ∧ StillCounts bucket later := by
  induction keys generalizing buckets bucket with
  | nil => exact ⟨bucket, hget, Nat.le_refl _, rfl⟩
  | cons other rest ih =>
    obtain ⟨next, hnext, hcounts, hlater⟩ := chargeKey_keeps other hget hlive
    obtain ⟨last, hlast, hrest⟩ := ih hnext hlater
    exact ⟨last, hlast, Nat.le_trans hcounts.1 hrest.1, hrest.2.trans hcounts.2⟩

/-- A reset of other keys keeps the bucket. -/
theorem reset_keeps {keys : List Key} (hget : buckets.get key = some bucket) (hmem : key ∉ keys) :
    (reset buckets keys).get key = some bucket := by
  rw [reset]
  induction keys generalizing buckets with
  | nil => exact hget
  | cons other rest ih =>
    obtain ⟨hne, hrest⟩ := not_or.mp (mt List.mem_cons.mpr hmem)
    apply ih _ hrest
    rw [InsertionMap.get_delete, if_neg hne]
    exact hget

/-- A bucket that has not expired keeps its failures through every step but its own reset. -/
theorem step_keeps (state : LoginState Key) (event : LoginEvent Key) (hget : state.buckets.get key = some bucket)
    (hlive : expired config bucket (state.clock + event.after) = false) (hreset : ¬ Forgives state key event) :
    ∃ later, (state.step config event).buckets.get key = some later ∧ StillCounts bucket later := by
  have hswept := sweepFull_of_live hget hlive
  cases event with
  | attempt keys after =>
    refine ⟨bucket, ?_, Nat.le_refl _, rfl⟩
    rw [LoginState.step, check_buckets]
    exact hswept
  | settle index failed after =>
    rw [LoginState.step]
    cases hkeys : state.flight[index]? with
    | none => exact ⟨bucket, hget, Nat.le_refl _, rfl⟩
    | some keys =>
      cases failed with
      | true => exact chargeKeys_keep keys hswept hlive
      | false =>
        refine ⟨bucket, reset_keeps hget fun hmem => hreset ⟨rfl, keys, hkeys, hmem⟩, Nat.le_refl _, rfl⟩

end Kept

section Runs

/-- What a run keeps: the buckets account for its failures, and the tracked keys are bounded. -/
def Watched (config : AdminAuthConfig) (observed : Observed Key) : Prop :=
  AllAccounted config observed.state.clock observed.ledger observed.state.buckets ∧ Bounded config observed

/-- Every run is watched. -/
theorem run_watched (config : AdminAuthConfig) (clock : ℕ) (events : List (LoginEvent Key)) :
    Watched config (runFrom (Observed.step config) { state := { clock } } events) := by
  apply runFrom_invariant (Watched config) fun observed event h => ⟨AllAccounted.step observed h.1 event,
    h.2.step observed event⟩
  exact ⟨fun _ => rfl, Nat.le_refl _, Nat.zero_le _⟩

/-- A key whose failures reach the bound is locked until the lockout of the last of them is over. -/
theorem AllAccounted.locked {nowMs last : ℕ} {ledger : Key → List ℕ} {buckets : Buckets Key} {key : Key}
    (h : AllAccounted config nowMs ledger buckets) (hfull : config.maxFailedAttempts ≤ (ledger key).length)
    (hlast : (ledger key).getLast? = some last) {atMs : ℕ} (hnow : nowMs ≤ atMs)
    (hlocked : atMs < last + config.lockoutMs) :
    ∃ bucket, buckets.get key = some bucket ∧ atMs < bucket.lockedUntilMs := by
  have hkey := h key
  cases hget : buckets.get key with
  | none =>
    rw [hget] at hkey
    have helapsed : elapsed config (ledger key) nowMs = true := hkey
    obtain ⟨first, hfirst⟩ : ∃ first, (ledger key).head? = some first := by
      cases hledger : ledger key with
      | nil => simp [hledger] at hlast
      | cons first rest => exact ⟨first, rfl⟩
    simp only [elapsed, hfirst, hlast, if_pos hfull, decide_eq_true_eq] at helapsed
    omega
  | some bucket =>
    rw [hget] at hkey
    obtain ⟨first, same, -, hsame, -, -, hend⟩ := hkey
    cases hlast.symm.trans hsame
    rw [if_pos hfull] at hend
    exact ⟨bucket, rfl, by omega⟩

/-- The failures that count are those of the bucket. -/
theorem AllAccounted.counts {nowMs : ℕ} {ledger : Key → List ℕ} {buckets : Buckets Key} {key : Key}
    (h : AllAccounted config nowMs ledger buckets) (hcounts : elapsed config (ledger key) nowMs = false) :
    ∃ bucket, buckets.get key = some bucket ∧ bucket.failures = (ledger key).length ∧
      expired config bucket nowMs = false := by
  have hkey := h key
  cases hget : buckets.get key with
  | none =>
    rw [hget] at hkey
    cases hcounts.symm.trans hkey
  | some bucket =>
    rw [hget] at hkey
    refine ⟨bucket, rfl, ?_, by rw [hkey.expired_eq, hcounts]⟩
    obtain ⟨_, _, -, -, hfailures, -⟩ := hkey
    exact hfailures

/-- After every run of overlapping attempts: a key with its full number of failures in one window is refused until
the lockout of the last is over or its own reset has run; the failures that count are those of its bucket; and the
tracked keys are bounded. -/
theorem throttle_forgives_by_time_or_success (config : AdminAuthConfig) (clock : ℕ) (events : List (LoginEvent Key)) :
    let observed := runFrom (Observed.step config) { state := { clock } } events
    let state := observed.state
    (∀ key keys nowMs last, key ∈ keys → config.maxFailedAttempts ≤ (observed.ledger key).length →
      (observed.ledger key).getLast? = some last → state.clock ≤ nowMs → nowMs < last + config.lockoutMs →
      ∃ retryAfterSeconds, (check config state.buckets keys nowMs).2 = .refused retryAfterSeconds) ∧
    (∀ key, elapsed config (observed.ledger key) state.clock = false →
      ∃ bucket, state.buckets.get key = some bucket ∧ bucket.failures = (observed.ledger key).length ∧
        expired config bucket state.clock = false) ∧
    (∀ event key bucket, state.buckets.get key = some bucket →
      expired config bucket (state.clock + event.after) = false → ¬ Forgives state key event →
      ∃ later, (state.step config event).buckets.get key = some later ∧ StillCounts bucket later) ∧
    state.buckets.entries.length ≤ config.maxTrackedIps + observed.peak := by
  intro observed state
  obtain ⟨haccounted, hbounded⟩ := run_watched config clock events
  refine ⟨?_, ?_, ?_, ?_⟩
  · intro key keys nowMs last hmem hfull hlast hnow hlocked
    obtain ⟨bucket, hget, hbucket⟩ := haccounted.locked hfull hlast hnow hlocked
    exact check_refused hget hbucket hmem
  · intro key hcounts
    exact haccounted.counts hcounts
  · intro event key bucket hget hlive hreset
    exact step_keeps state event hget hlive hreset
  · have htracked : state.tracked.card ≤ state.known.card := Finset.card_le_card Finset.subset_union_left
    rw [card_tracked] at htracked
    exact Nat.le_trans htracked hbounded.known

/-- One failure locks a key for ten seconds, and there is room for one key. -/
def oneOfEach : AdminAuthConfig where
  maxFailedAttempts := 1
  maxTrackedIps := 1
  attemptWindowSeconds := 10
  lockoutSeconds := 10
  failed_positive := by decide
  tracked_positive := by decide
  window_positive := by decide
  lockout_positive := by decide

/-- The run of the attempts from the start of the clock. -/
def runOf (events : List (LoginEvent ℕ)) : Observed ℕ :=
  runFrom (Observed.step oneOfEach) { state := { clock := 0 } } events

/-- Two attempts overlap and share a key, the first to come failing last; a third of another key succeeds. -/
def overlapping : List (LoginEvent ℕ) :=
  [.attempt [1, 2] 0, .attempt [2, 3] 1000, .settle 1 true 1000, .attempt [4] 500, .settle 0 true 500,
    .settle 0 false 1000]

/-- The keys that failed are refused five seconds later, the shared one among them. -/
theorem throttle_refuses_failed :
    let refused := fun keys : List ℕ => ∃ retryAfterSeconds,
      (check oneOfEach (runOf overlapping).state.buckets keys 9000).2 = .refused retryAfterSeconds
    refused [2] ∧ refused [1, 4] ∧ refused [3] := by
  obtain ⟨hrefused, -⟩ := throttle_forgives_by_time_or_success oneOfEach 0 overlapping
  refine ⟨?_, ?_, ?_⟩
  · exact hrefused 2 [2] 9000 3000 (by decide) (by decide) (by decide) (by decide) (by decide)
  · exact hrefused 1 [1, 4] 9000 3000 (by decide) (by decide) (by decide) (by decide) (by decide)
  · exact hrefused 3 [3] 9000 2000 (by decide) (by decide) (by decide) (by decide) (by decide)

/-- Two attempts with different keys come before either fails: both keys are tracked where there is room for one. -/
theorem throttle_room_and_reset :
    let crowded := runOf [.attempt [1] 0, .attempt [2] 0, .settle 0 true 0, .settle 0 true 0]
    let failed := runOf [.attempt [1] 0, .attempt [1] 0, .settle 0 true 0]
    let settled := runOf [.attempt [1] 0, .attempt [1] 0, .settle 0 true 0, .settle 0 false 1]
    oneOfEach.maxTrackedIps + crowded.state.inFlight.card < crowded.state.buckets.entries.length ∧
    oneOfEach.maxFailedAttempts ≤ (failed.ledger 1).length ∧
    settled.state.clock < failed.state.clock + oneOfEach.lockoutMs ∧
    (check oneOfEach settled.state.buckets [1] settled.state.clock).2 = .allowed := by
  decide

end Runs

end MultiAiRouter.AdminAuth
