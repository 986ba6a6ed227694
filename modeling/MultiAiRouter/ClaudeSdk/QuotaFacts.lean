import MultiAiRouter.ClaudeSdk.Quota

/-!
# Alarm and gauge keep each other's facts

In a run that meets three conditions a bucket blocks exactly while the last alarm that named it was a rejection and its
reset is ahead, and the share a gauge gave last stands until an alarm gives another.
-/

namespace MultiAiRouter.ClaudeSdk.Quota

open Common

section Told

inductive QuotaCall
  | ingest (info : Value)
  | ingestGauge (windows : List SdkGaugeWindow)
  | forget

/-- A call that comes so much later than the one before. -/
structure QuotaEvent where
  call : QuotaCall
  after : ℕ

/-- What was told of the windows: those whose last alarm rejected, until their reset, and the shares that a gauge
gave last. -/
structure Told where
  rejected : Units → Bool := fun _ => false
  gauged : Units → Option ℚ := fun _ => none

/-- The reset of the bucket has come. -/
def resetPassed (bucket : Option QuotaBucket) (nowMs : ℤ) : Bool :=
  match bucket.bind QuotaBucket.resetsAt with
  | some (.valid ms) => ms ≤ nowMs
  | _ => false

/-- A rejection is over when the reset of its bucket has come. -/
def Told.lapse (told : Told) (quota : AccountQuota) (nowMs : ℤ) : Told :=
  { told with rejected := fun key => told.rejected key && !resetPassed (quota.buckets.get key) nowMs }

/-- An alarm tells whether its window rejects, and takes the gauge's share where it gives one. -/
def Told.alarm (told : Told) (reading : SdkRateLimitReading) : Told where
  rejected := Function.update told.rejected reading.key (decide (reading.status = .rejected))
  gauged := if reading.utilization.isSome then Function.update told.gauged reading.key none else told.gauged

/-- A gauge tells the share of a window, where it gives one. -/
def Told.gauge (told : Told) (window : SdkGaugeWindow) : Told where
  rejected := told.rejected
  gauged := if window.utilization.isSome then Function.update told.gauged window.kind.word
    window.utilization else told.gauged

/-- An account with what was told of it. -/
structure Observed where
  held : Held := none
  told : Told := {}
  clock : ℤ

/-- One window of a gauge. -/
def observeWindow (nowMs : ℤ) (seen : AccountQuota × Told) (window : SdkGaugeWindow) : AccountQuota × Told :=
  (ingestWindow nowMs seen.1 window, (seen.2.lapse seen.1 nowMs).gauge window)

def Observed.step (observed : Observed) (event : QuotaEvent) : Observed :=
  let nowMs := observed.clock + event.after
  match event.call with
  | .ingest info =>
    { held := (ingest observed.held info nowMs).1
      told := match readSdkRateLimitInfo info nowMs with
        | none => observed.told
        | some reading => (observed.told.lapse (observed.held.getD {}) nowMs).alarm reading
      clock := nowMs }
  | .ingestGauge windows =>
    { held := (ingestGauge observed.held windows nowMs).1
      told := (windows.foldl (observeWindow nowMs) (observed.held.getD {}, observed.told)).2
      clock := nowMs }
  | .forget => { held := none, told := {}, clock := nowMs }

end Told

section Conditions

/-- The bucket holds a share that a gauge gave. -/
def holdsShare (bucket : Option QuotaBucket) : Bool :=
  bucket.any fun held => decide (held.source = .continuous) && held.utilization.isSome

/-- The overage detail of an alarm for another window comes upon no overage bucket that blocks or holds a share. -/
def SparesOverage (quota : AccountQuota) (reading : SdkRateLimitReading) (nowMs : ℤ) : Prop :=
  reading.key ≠ overageKey → reading.tellsOverage = true →
    ((quota.buckets.get overageKey).any fun held => isLimited held nowMs) = false ∧
      holdsShare (quota.buckets.get overageKey) = false

/-- No rejection has a reset too far away for a date. -/
def DatesRejection (reading : SdkRateLimitReading) : Prop :=
  reading.status = .rejected → reading.resetsAt ≠ some .invalid

/-- A window without a share is no window that holds one. -/
def KeepsShare (quota : AccountQuota) (window : SdkGaugeWindow) : Prop :=
  window.utilization = none → holdsShare (quota.buckets.get window.kind.word) = false

/-- Under these conditions a call takes no fact that was told. -/
def Harmless (observed : Observed) (event : QuotaEvent) : Prop :=
  match event.call with
  | .ingest info => ∀ reading, readSdkRateLimitInfo info (observed.clock + event.after) = some reading →
      SparesOverage (observed.held.getD {}) reading (observed.clock + event.after) ∧ DatesRejection reading
  | .ingestGauge windows =>
      EveryStep (ingestWindow (observed.clock + event.after)) KeepsShare (observed.held.getD {}) windows
  | .forget => True

end Conditions

section Buckets

variable {bucket : Option QuotaBucket} {nowMs laterMs : ℤ} {rejected : Bool} {share : Option ℚ}

/-- A bucket holds what is told of it: it blocks exactly while it was rejected and its reset is ahead, with the
gauge's share. -/
structure Tells (bucket : Option QuotaBucket) (rejected : Bool) (share : Option ℚ) (nowMs : ℤ) : Prop where
  blocks : ∀ laterMs, nowMs ≤ laterMs →
    (bucket.any fun held => isLimited held laterMs) = (rejected && !resetPassed bucket laterMs)
  share : ∀ value, share = some value →
    ∃ held, bucket = some held ∧ held.utilization = some value ∧ held.source = .continuous

/-- Nothing is told of a bucket that is not there. -/
theorem Tells.empty (nowMs : ℤ) : Tells none false none nowMs where
  blocks _ _ := rfl
  share _ h := by cases h

/-- A rejection that is over does not come back. -/
theorem Tells.lapse (h : Tells bucket rejected share nowMs) (hle : nowMs ≤ laterMs) :
    Tells bucket (rejected && !resetPassed bucket laterMs) share laterMs where
  blocks atMs hat := by
    rw [h.blocks atMs (Int.le_trans hle hat)]
    cases hpassed : resetPassed bucket laterMs with
    | false => simp
    | true =>
      have hstill : resetPassed bucket atMs = true := by
        unfold resetPassed at hpassed ⊢
        split at hpassed
        · simp only [decide_eq_true_eq] at hpassed ⊢
          omega
        · cases hpassed
      simp [hstill]
  share := h.share

/-- What is told holds later on. -/
theorem Tells.later (h : Tells bucket rejected share nowMs) (hle : nowMs ≤ laterMs) :
    Tells bucket rejected share laterMs where
  blocks atMs hat := h.blocks atMs (Int.le_trans hle hat)
  share := h.share

/-- A bucket whose reset is a date blocks exactly until the reset comes. -/
theorem blocks_of_dated {held : QuotaBucket} (h : held.limited = true → held.resetsAt ≠ some .invalid) (laterMs : ℤ) :
    isLimited held laterMs = (held.limited && !resetPassed (some held) laterMs) := by
  cases hlimited : held.limited with
  | false => simp [isLimited, hlimited]
  | true =>
    have hdated := h hlimited
    cases hreset : held.resetsAt with
    | none => simp [isLimited, hlimited, resetPassed, hreset]
    | some reset =>
      cases reset with
      | valid ms =>
        simp only [isLimited, hlimited, resetPassed, hreset, JsDate.isAfter, Option.bind_some, Option.all_some,
          Bool.true_and]
        rw [← decide_not, decide_eq_decide]
        omega
      | invalid => exact absurd hreset hdated

theorem futureReset_ne_invalid : futureReset bucket nowMs ≠ some .invalid := by
  intro h
  have hafter := (Option.filter_eq_some_iff.mp h).2
  cases hafter

/-- The rejection of a bucket now, as it is told. -/
theorem Tells.limited (h : Tells bucket rejected share nowMs) :
    (bucket.any fun held => isLimited held nowMs) = (rejected && !resetPassed bucket nowMs) :=
  h.blocks nowMs (Int.le_refl _)

variable {reading : SdkRateLimitReading} {window : SdkGaugeWindow}

/-- The bucket an alarm leaves is as the alarm tells. -/
theorem Tells.alarm (h : Tells bucket rejected share nowMs) (hdated : DatesRejection reading) :
    Tells (some (alarmBucket reading bucket nowMs)) (decide (reading.status = .rejected))
      (if reading.utilization.isSome then none else share) nowMs where
  blocks atMs _ := by
    rw [Option.any_some]
    apply blocks_of_dated
    intro hlimited hinvalid
    have hreset : (reading.resetsAt <|> futureReset bucket nowMs) = some .invalid := hinvalid
    cases hown : reading.resetsAt with
    | none =>
      rw [hown] at hreset
      exact futureReset_ne_invalid hreset
    | some reset =>
      rw [hown] at hreset
      cases hreset
      exact hdated (of_decide_eq_true hlimited) hown
  share value hshare := by
    cases hutilization : reading.utilization with
    | some given => simp [hutilization] at hshare
    | none =>
      rw [hutilization] at hshare
      obtain ⟨held, rfl, hvalue, hsource⟩ := h.share value hshare
      exact ⟨_, rfl, by simp [alarmBucket, hutilization, hsource, hvalue], by simp [alarmBucket, hutilization, hsource]⟩

/-- The bucket a gauge leaves keeps the rejection and takes the share. -/
theorem Tells.gauge (h : Tells bucket rejected share nowMs)
    (hkeeps : window.utilization = none → holdsShare bucket = false) :
    Tells (some (gaugeBucket window bucket nowMs)) (rejected && !resetPassed bucket nowMs)
      (if window.utilization.isSome then window.utilization else share) nowMs where
  blocks atMs _ := by
    have hlimited : (gaugeBucket window bucket nowMs).limited = (rejected && !resetPassed bucket nowMs) := h.limited
    rw [Option.any_some, ← hlimited]
    apply blocks_of_dated
    intro _ hinvalid
    have hreset : (window.resetsAt.map JsDate.valid <|> futureReset bucket nowMs) = some .invalid := hinvalid
    cases hown : window.resetsAt with
    | none =>
      rw [hown] at hreset
      exact futureReset_ne_invalid hreset
    | some ms =>
      rw [hown] at hreset
      cases hreset
  share value hshare := by
    cases hutilization : window.utilization with
    | some given =>
      rw [hutilization] at hshare
      exact ⟨_, rfl, by simpa [gaugeBucket, hutilization] using hshare, by simp [gaugeBucket, hutilization]⟩
    | none =>
      rw [hutilization] at hshare
      obtain ⟨held, rfl, hvalue, hsource⟩ := h.share value hshare
      have hnone := hkeeps hutilization
      simp [holdsShare, hsource, hvalue] at hnone

end Buckets

section Steps

variable {quota : AccountQuota} {told : Told} {nowMs laterMs : ℤ}

/-- Every bucket of the account is as it is told. -/
def AllTold (quota : AccountQuota) (told : Told) (nowMs : ℤ) : Prop :=
  ∀ key, Tells (quota.buckets.get key) (told.rejected key) (told.gauged key) nowMs

/-- Nothing is told at the start. -/
theorem AllTold.empty (nowMs : ℤ) : AllTold {} {} nowMs := fun _ => Tells.empty nowMs

/-- What is told of all holds later on. -/
theorem AllTold.later (h : AllTold quota told nowMs) (hle : nowMs ≤ laterMs) : AllTold quota told laterMs :=
  fun key => (h key).later hle

/-- A bucket that has lapsed blocks no more. -/
theorem AllTold.lapse (h : AllTold quota told nowMs) : AllTold quota (told.lapse quota nowMs) nowMs :=
  fun key => (h key).lapse (Int.le_refl _)

/-- An alarm keeps what is told of every bucket. -/
theorem AllTold.ingestReading (h : AllTold quota told nowMs) {reading : SdkRateLimitReading}
    (hspares : SparesOverage quota reading nowMs) (hdated : DatesRejection reading) :
    AllTold (ingestReading quota reading nowMs) ((told.lapse quota nowMs).alarm reading) nowMs := by
  have hset (key : Units) :
      Tells ((quota.buckets.set reading.key (alarmBucket reading (quota.buckets.get reading.key) nowMs)).get key)
        (((told.lapse quota nowMs).alarm reading).rejected key) (((told.lapse quota nowMs).alarm reading).gauged key)
        nowMs := by
    by_cases hkey : key = reading.key
    · subst hkey
      have hbucket := (h.lapse reading.key).alarm hdated
      simp only [InsertionMap.get_set_self, Told.alarm, Function.update_self]
      cases hutilization : reading.utilization.isSome with
      | true => simpa [hutilization] using hbucket
      | false => simpa [hutilization, Told.lapse] using hbucket
    · have hother := h.lapse key
      simp only [InsertionMap.get_set_of_ne _ _ hkey, Told.alarm, Function.update_of_ne hkey]
      cases reading.utilization.isSome with
      | true => simpa [Function.update_of_ne hkey] using hother
      | false => exact hother
  intro key
  change Tells ((applyOverage (quota.buckets.set reading.key _) reading nowMs).get key) _ _ nowMs
  rw [applyOverage]
  split
  · exact hset key
  · next hdetail =>
    obtain ⟨hne, htells⟩ := not_or.mp hdetail
    by_cases hkey : key = overageKey
    · subst hkey
      obtain ⟨hfree, hshare⟩ := hspares hne (by simpa using htells)
      have hbefore := hset overageKey
      rw [InsertionMap.get_set_of_ne _ _ (Ne.symm hne)] at hbefore
      have hrejected : ((told.lapse quota nowMs).alarm reading).rejected overageKey = false := by
        have hlapsed := h.lapse overageKey
        have hlimited := (h overageKey).limited
        simp only [Told.alarm, Function.update_of_ne (Ne.symm hne), Told.lapse]
        rw [← hlimited, hfree]
      have hgauged : ((told.lapse quota nowMs).alarm reading).gauged overageKey = none := by
        cases hvalue : ((told.lapse quota nowMs).alarm reading).gauged overageKey with
        | none => rfl
        | some value =>
          obtain ⟨held, hheld, hutilization, hsource⟩ := hbefore.share value hvalue
          simp [hheld, holdsShare, hutilization, hsource] at hshare
      rw [InsertionMap.get_set_self, hrejected, hgauged]
      exact ⟨fun _ _ => by simp [isLimited], fun _ hvalue => by cases hvalue⟩
    · rw [InsertionMap.get_set_of_ne _ _ hkey]
      exact hset key

/-- A window of a gauge keeps what is told of every bucket. -/
theorem AllTold.ingestWindow (h : AllTold quota told nowMs) {window : SdkGaugeWindow}
    (hkeeps : KeepsShare quota window) :
    AllTold (observeWindow nowMs (quota, told) window).1 (observeWindow nowMs (quota, told) window).2 nowMs := by
  intro key
  simp only [observeWindow, Quota.ingestWindow, Told.gauge]
  by_cases hkey : key = window.kind.word
  · subst hkey
    have hbucket := (h window.kind.word).gauge hkeeps
    rw [InsertionMap.get_set_self]
    cases hutilization : window.utilization with
    | some share => simpa [hutilization, Told.lapse] using hbucket
    | none => simpa [hutilization, Told.lapse] using hbucket
  · have hother := h.lapse key
    rw [InsertionMap.get_set_of_ne _ _ hkey]
    cases window.utilization with
    | some share => simpa [Function.update_of_ne hkey] using hother
    | none => exact hother

/-- A gauge tells what its windows tell. -/
theorem AllTold.ingestGauge (windows : List SdkGaugeWindow) (h : AllTold quota told nowMs)
    (hkeeps : EveryStep (Quota.ingestWindow nowMs) KeepsShare quota windows) :
    AllTold (windows.foldl (Quota.ingestWindow nowMs) quota)
    (windows.foldl (observeWindow nowMs) (quota, told)).2 nowMs := by
  induction windows generalizing quota told with
  | nil => exact h
  | cons window rest ih => exact ih (h.ingestWindow hkeeps.1) hkeeps.2

/-- What the account holds is as it is told, and of an account that holds nothing nothing is told. -/
def Faithful (observed : Observed) : Prop := AllTold (observed.held.getD {}) observed.told observed.clock

/-- A call that meets the conditions keeps what is told. -/
theorem Faithful.step (observed : Observed) (event : QuotaEvent) (h : Faithful observed)
    (hharmless : Harmless observed event) :
    Faithful (observed.step event) := by
  obtain ⟨call, after⟩ := event
  have hlater := h.later (Int.le_add_of_nonneg_right (Int.natCast_nonneg after))
  cases call with
  | ingest info =>
    simp only [Faithful, Observed.step, ingest]
    cases hreading : readSdkRateLimitInfo info (observed.clock + after) with
    | none => exact hlater
    | some reading =>
      obtain ⟨hspares, hdated⟩ := hharmless reading hreading
      exact hlater.ingestReading hspares hdated
  | ingestGauge windows => exact hlater.ingestGauge windows hharmless
  | forget => exact AllTold.empty _

end Steps

section Latest

variable {quota : AccountQuota} {nowMs : ℤ}

/-- No reset among these buckets is too far away for a date. -/
def Dated (buckets : List QuotaBucket) : Prop := ∀ bucket ∈ buckets, bucket.resetsAt ≠ some .invalid

theorem dated_blocking (quota : AccountQuota) (nowMs : ℤ) : Dated (blocking quota nowMs) := by
  intro bucket hbucket hinvalid
  have hlimited := (List.mem_filter.mp hbucket).2
  simp [isLimited, hinvalid, JsDate.isAfter] at hlimited

/-- The later of two instants is no earlier than either. -/
theorem later_trans {first second third : JsDate} (hsecond : second ≠ .invalid) (h : first.later second = false)
    (hnext : second.later third = false) : first.later third = false := by
  cases first with
  | invalid => rfl
  | valid ms =>
    cases second with
    | invalid => exact absurd rfl hsecond
    | valid other =>
      cases third with
      | invalid => rfl
      | valid last =>
        have hfirst := of_decide_eq_false h
        have hlast := of_decide_eq_false hnext
        exact decide_eq_false (by omega)

/-- Of two dates one is later. -/
theorem later_asymm {first second : JsDate} (h : first.later second = true) : second.later first = false := by
  cases first with
  | invalid => cases h
  | valid ms =>
    cases second with
    | invalid => rfl
    | valid other =>
      have hms := of_decide_eq_true h
      exact decide_eq_false (by omega)

theorem later_self (reset : JsDate) : reset.later reset = false := by
  cases reset with
  | valid ms => exact decide_eq_false (Int.lt_irrefl ms)
  | invalid => rfl

/-- The instant is that of one of the buckets, or the one before them, and none of these is later. -/
structure IsLatest (buckets : List QuotaBucket) (before : Option JsDate) (reset : JsDate) : Prop where
  dated : reset ≠ .invalid
  found : before = some reset ∨ ∃ bucket ∈ buckets, bucket.resetsAt = some reset
  start : ∀ earlier, before = some earlier → earlier.later reset = false
  latest : ∀ bucket ∈ buckets, ∀ other, bucket.resetsAt = some other → other.later reset = false

variable {bucket : QuotaBucket} {buckets : List QuotaBucket} {before : Option JsDate} {middle reset : JsDate}

/-- A reset stays the latest past an earlier one. -/
theorem IsLatest.kept (hdated : reset ≠ .invalid)
    (hother : ∀ other, bucket.resetsAt = some other → other.later reset = false) :
    IsLatest [bucket] (some reset) reset where
  dated := hdated
  found := .inl rfl
  start earlier h := by
    cases h
    exact later_self _
  latest other hmem := by
    rw [List.mem_singleton.mp hmem]
    exact hother

/-- A reset that is not earlier becomes the latest. -/
theorem IsLatest.taken (hdated : reset ≠ .invalid) (hreset : bucket.resetsAt = some reset)
    (hstart : ∀ earlier, before = some earlier → earlier.later reset = false) : IsLatest [bucket] before reset where
  dated := hdated
  found := .inr ⟨bucket, List.mem_singleton_self bucket, hreset⟩
  start := hstart
  latest other hmem instant hinstant := by
    rw [List.mem_singleton.mp hmem] at hinstant
    cases hreset.symm.trans hinstant
    exact later_self _

/-- One bucket: the latest instant stands, or nothing has stood and the bucket has none. -/
theorem laterReset_spec (hbefore : before ≠ some .invalid) (hown : bucket.resetsAt ≠ some .invalid) :
    (before = none ∧ bucket.resetsAt = none ∧ laterReset before bucket = none) ∨
      ∃ reset, laterReset before bucket = some reset ∧ IsLatest [bucket] before reset := by
  unfold laterReset
  cases hreset : bucket.resetsAt with
  | none =>
    cases before with
    | none => exact .inl ⟨rfl, rfl, rfl⟩
    | some held =>
      exact .inr ⟨held, rfl, .kept (fun h => hbefore (congrArg some h)) fun other hother => by
        rw [hreset] at hother
        cases hother⟩
  | some own =>
    rw [hreset] at hown
    have hdated : own ≠ .invalid := fun h => hown (congrArg some h)
    right
    cases before with
    | none => exact ⟨own, rfl, .taken hdated hreset fun _ h => by cases h⟩
    | some held =>
      cases hlater : own.later held with
      | false =>
        refine ⟨held, by simp [hlater], .kept (fun h => hbefore (congrArg some h)) fun other hother => ?_⟩
        cases hreset.symm.trans hother
        exact hlater
      | true =>
        refine ⟨own, by simp [hlater], .taken hdated hreset fun earlier hearlier => ?_⟩
        cases hearlier
        exact later_asymm hlater

/-- The latest of some buckets, and then of more. -/
theorem IsLatest.trans (hfirst : IsLatest [bucket] before middle) (hrest : IsLatest buckets (some middle) reset) :
    IsLatest (bucket :: buckets) before reset where
  dated := hrest.dated
  found := by
    rcases hrest.found with hmiddle | ⟨other, hother, hreset⟩
    · cases hmiddle
      refine hfirst.found.imp_right fun ⟨other, hother, hreset⟩ => ⟨other, ?_, hreset⟩
      rw [List.mem_singleton.mp hother]
      exact List.mem_cons_self ..
    · exact .inr ⟨other, .tail _ hother, hreset⟩
  start earlier hearlier := later_trans hfirst.dated (hfirst.start earlier hearlier) (hrest.start middle rfl)
  latest other hother instant hinstant := by
    rcases List.mem_cons.mp hother with rfl | hmem
    · exact later_trans hfirst.dated (hfirst.latest other (List.mem_singleton_self other) instant hinstant)
        (hrest.start middle rfl)
    · exact hrest.latest other hmem instant hinstant

/-- The fold of the resets comes to the latest one, and to none where there is none. -/
theorem foldl_laterReset (buckets : List QuotaBucket) (hdated : Dated buckets) (before : Option JsDate)
    (hbefore : before ≠ some .invalid) :
    (before = none ∧ (∀ bucket ∈ buckets, bucket.resetsAt = none) ∧ buckets.foldl laterReset before = none) ∨
      ∃ reset, buckets.foldl laterReset before = some reset ∧ IsLatest buckets before reset := by
  induction buckets generalizing before with
  | nil =>
    cases before with
    | none => exact .inl ⟨rfl, fun _ hmem => by simp at hmem, rfl⟩
    | some held =>
      refine .inr ⟨held, rfl, fun h => hbefore (congrArg some h), .inl rfl, fun earlier h => ?_,
        fun _ hmem => by simp at hmem⟩
      cases h
      exact later_self _
  | cons bucket rest ih =>
    have hrest : Dated rest := fun other hother => hdated other (.tail _ hother)
    rw [List.foldl_cons]
    rcases laterReset_spec hbefore
      (hdated bucket (List.mem_cons_self ..)) with ⟨rfl, hown, hnone⟩ | ⟨middle, hstep, hfirst⟩
    · rw [hnone]
      rcases ih hrest none (by simp) with ⟨-, hothers, hfold⟩ | ⟨reset, hfold, hlatest⟩
      · refine .inl ⟨rfl, fun other hother => ?_, hfold⟩
        rcases List.mem_cons.mp hother with rfl | hmem
        · exact hown
        · exact hothers other hmem
      · obtain ⟨found, hfound, hreset⟩ := hlatest.found.resolve_left (by simp)
        refine .inr ⟨reset, hfold, hlatest.dated, .inr ⟨found, .tail _ hfound, hreset⟩, fun _ h => (by cases h), ?_⟩
        intro other hother instant hinstant
        rcases List.mem_cons.mp hother with rfl | hmem
        · rw [hown] at hinstant
          cases hinstant
        · exact hlatest.latest other hmem instant hinstant
    · rw [hstep]
      rcases ih hrest (some middle) (fun h => hfirst.dated (Option.some.inj h)) with ⟨h, -⟩ | ⟨reset, hfold, hlatest⟩
      · cases h
      · exact .inr ⟨reset, hfold, hfirst.trans hlatest⟩

/-- The reset a signal advertises is the latest among the buckets that block; without one none of them has a reset. -/
def AdvertisesLatest (quota : AccountQuota) (nowMs : ℤ) : Prop :=
  match (snapshotOf quota .verdict nowMs).signal.resetsAt with
  | none => ∀ bucket ∈ blocking quota nowMs, bucket.resetsAt = none
  | some reset => (∃ bucket ∈ blocking quota nowMs, bucket.resetsAt = some reset) ∧
      ∀ bucket ∈ blocking quota nowMs, ∀ other, bucket.resetsAt = some other → other.later reset = false

/-- A signal advertises the latest reset. -/
theorem advertisesLatest (quota : AccountQuota) (nowMs : ℤ) : AdvertisesLatest quota nowMs := by
  have hreset : (snapshotOf quota .verdict nowMs).signal.resetsAt = (blocking quota nowMs).foldl laterReset none := rfl
  rw [AdvertisesLatest, hreset]
  rcases foldl_laterReset (blocking quota nowMs) (dated_blocking quota nowMs) none (by simp) with
    ⟨-, hnone, hfold⟩ | ⟨reset, hfold, hlatest⟩
  · rw [hfold]
    exact hnone
  · rw [hfold]
    exact ⟨hlatest.found.resolve_left (by simp), hlatest.latest⟩

end Latest

section Runs

/-- A run keeps what it told. -/
theorem run_faithful (clock : ℤ) (events : List QuotaEvent) (h : EveryStep Observed.step Harmless { clock } events) :
    Faithful (runFrom Observed.step { clock } events) :=
  runFrom_invariant_of_everyStep Faithful Faithful.step events { clock } (AllTold.empty clock) h

/-- In every run that meets the conditions: a bucket blocks exactly while its last alarm rejected and its reset is
ahead, and then the snapshot reports the account limited; its share is what a gauge gave last; and a signal
advertises the latest reset of those that block. -/
theorem alarm_and_gauge_keep_facts (clock : ℤ) (events : List QuotaEvent)
    (h : EveryStep Observed.step Harmless { clock } events) :
    let observed := runFrom Observed.step { clock } events
    let quota := observed.held.getD {}
    (∀ key nowMs, observed.clock ≤ nowMs → ((quota.buckets.get key).any fun bucket => isLimited bucket nowMs) =
      (observed.told.rejected key && !resetPassed (quota.buckets.get key) nowMs)) ∧
    (∀ key nowMs, observed.clock ≤ nowMs → observed.told.rejected key = true →
      resetPassed (quota.buckets.get key) nowMs = false →
      ∃ report, snapshot observed.held nowMs = some report ∧ report.signal.limited = true) ∧
    (∀ key value, observed.told.gauged key = some value →
      ∃ bucket, quota.buckets.get key = some bucket ∧ bucket.utilization = some value ∧ bucket.source = .continuous) ∧
    ∀ nowMs, AdvertisesLatest quota nowMs := by
  intro observed quota
  have hfaithful := run_faithful clock events h
  refine ⟨fun key nowMs hnow => (hfaithful key).blocks nowMs hnow, ?_, fun key => (hfaithful key).share,
    advertisesLatest quota⟩
  intro key nowMs hnow hrejected hpassed
  have hblocks := (hfaithful key).blocks nowMs hnow
  rw [show (runFrom Observed.step { clock } events).told.rejected key = true from hrejected,
    show resetPassed _ nowMs = false from hpassed] at hblocks
  obtain ⟨bucket, hbucket, hlimited⟩ := (Option.any_eq_true _ _).mp hblocks
  cases hheld : observed.held with
  | none =>
    rw [show (runFrom Observed.step { clock } events).held = none from hheld] at hbucket
    cases hbucket
  | some account =>
    refine ⟨_, rfl, ?_⟩
    rw [show (runFrom Observed.step { clock } events).held = some account from hheld] at hbucket
    have hmem : bucket ∈ blocking account nowMs :=
      List.mem_filter.mpr ⟨List.mem_map_of_mem (InsertionMap.get_eq_some.mp hbucket), hlimited⟩
    change (!(blocking account nowMs).isEmpty) = true
    rw [Bool.not_eq_true', List.isEmpty_eq_false_iff]
    exact List.ne_nil_of_mem hmem

/-- An alarm for a window, without a share or a reset of its own. -/
def alarmOf (status window : String) : Value :=
  .object [(asciiUnits "status", .string (asciiUnits status)),
    (asciiUnits "rateLimitType", .string (asciiUnits window))]

/-- A run of calls from the start of the clock. -/
def runOf (calls : List QuotaCall) : Observed :=
  runFrom Observed.step { clock := 0 } (calls.map fun call => { call, after := 0 })

/-- A window that was rejected blocks, whatever a gauge says of it. -/
theorem alarm_and_gauge_keep_facts_one :
    ∃ report, snapshot (runOf [.ingest (alarmOf "rejected" "five_hour"),
      .ingestGauge [{ kind := .fiveHour, utilization := some (1 / 2), resetsAt := none }]]).held 0 = some report ∧
      report.signal.limited = true := by
  have hharmless : EveryStep Observed.step Harmless { clock := 0 }
      [{ call := .ingest (alarmOf "rejected" "five_hour"), after := 0 },
        { call := .ingestGauge [{ kind := .fiveHour, utilization := some (1 / 2), resetsAt := none }],
          after := 0 }] := by
    refine ⟨fun reading hreading => ?_, ⟨fun h => (by cases h), trivial⟩, trivial⟩
    cases hreading
    exact ⟨fun _ htells => absurd htells (by decide), fun _ h => by cases h⟩
  exact (alarm_and_gauge_keep_facts 0 _ hharmless).2.1 QuotaWindowKind.fiveHour.word 0 (by decide)
    (by decide) (by decide)

/-- A later alarm lifts the overage window's rejection, a gauge without a share takes away an earlier one, and a
rejection whose reset is no date does not block. -/
theorem facts_are_lost :
    let lifted := runOf [.ingest (alarmOf "rejected" "overage"), .ingest (.object
      [(asciiUnits "rateLimitType", .string (asciiUnits "five_hour")), (asciiUnits "isUsingOverage", .bool true)])]
    let emptied := runOf [.ingestGauge [{ kind := .fiveHour, utilization := some (1 / 2), resetsAt := none }],
      .ingestGauge [{ kind := .fiveHour, utilization := none, resetsAt := none }]]
    let distant := runOf [.ingest (.object [(asciiUnits "status", .string (asciiUnits "rejected")),
      (asciiUnits "resetsAt", .number (.finite 10000000000000000))])]
    (lifted.told.rejected overageKey = true ∧ resetPassed ((lifted.held.getD {}).buckets.get overageKey) 0 = false ∧
      (snapshot lifted.held 0).map (fun report => report.signal.limited) = some false) ∧
    (emptied.told.gauged QuotaWindowKind.fiveHour.word = some (1 / 2) ∧
      ((emptied.held.getD {}).buckets.get QuotaWindowKind.fiveHour.word).bind QuotaBucket.utilization = none) ∧
    (distant.told.rejected sdkDefaultBucket = true ∧
      resetPassed ((distant.held.getD {}).buckets.get sdkDefaultBucket) 0 = false ∧
      (snapshot distant.held 0).map (fun report => report.signal.limited) = some false) := by
  decide +kernel

end Runs

end MultiAiRouter.ClaudeSdk.Quota
