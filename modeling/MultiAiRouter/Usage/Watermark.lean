import MultiAiRouter.Usage.HistoryTotals

/-!
# The banked-through watermark

A sweep from the start of the attempts that ends short of its limit has settled a contribution for each of them, and
moves the watermark to the newest. A batch writes its attempts with their contributions, a sweep only settles, and
retention takes a contribution only when its day has expired.
-/

namespace MultiAiRouter.Usage.History

open Common

variable {Hash : Type} {state next : HistoryState Hash}

/-- The key has a contribution that is settled. -/
def Settled (contributions : List (ContributionRow Hash)) (key : Kind × Id) : Prop :=
  ∃ row ∈ contributions, row.key = key ∧ row.source ≠ .legacyPending

theorem banked_iff (id : Id) : state.banked id = true ↔ Settled state.contributions (.attempt, id) := by
  simp [HistoryState.banked, Settled]

/-- A contribution of an attempt has the day of the attempt, and what stands at or below the watermark is banked. -/
structure Certified (state : HistoryState Hash) : Prop where
  ids : (state.records.map UsageRecord.id).Nodup
  days : ∀ row ∈ state.contributions, ∀ record ∈ state.records, row.key = (.attempt, record.id) →
    row.day = dayOf record.createdAt
  banked : ∀ watermark ∈ state.bankedThrough, ∀ record ∈ state.records, precedes watermark record.position = false →
    state.expired (dayOf record.createdAt) = false → Settled state.contributions (.attempt, record.id)

section Batch

/-- New rows are among those given. -/
theorem mem_of_mem_newRows {Row Key : Type} [DecidableEq Key] {keyOf : Row → Key} {held : List Key} {rows : List Row}
    {row : Row} (h : row ∈ newRows keyOf held rows) : row ∈ rows := by
  induction rows generalizing held with
  | nil => exact h
  | cons first rest ih =>
    rw [newRows] at h
    split at h
    · exact .tail _ (ih h)
    · rcases List.mem_cons.mp h with rfl | hrest
      · exact List.mem_cons_self ..
      · exact .tail _ (ih hrest)

variable {hash : UsagePayload → Hash} {clock : TxClock} {batch : UsageBatchInsert}

/-- A contribution that a batch admits for an attempt is of one of the attempts there are then, and it is settled if
the batch wrote the attempt. -/
theorem admitted_attempt {attempts : List UsageRecordInsert} {terminals : List UsageRequestTerminal}
    {row : ContributionRow Hash} {id : Id} (hrow : row ∈ admittedBy hash clock state attempts terminals)
    (hkey : row.key = (.attempt, id)) :
    (∃ written ∈ writtenAttempts state attempts, row = liveAttempt hash clock written) ∨
      ∃ record ∈ state.records, row.id = record.id ∧ row.day = dayOf record.createdAt := by
  simp only [admittedBy, List.mem_append, List.mem_map] at hrow
  rcases hrow with (⟨written, hwritten, rfl⟩ | ⟨record, hrecord, rfl⟩) | ⟨terminal, -, rfl⟩
  · exact .inl ⟨written, hwritten, rfl⟩
  · exact .inr ⟨record, (List.mem_filter.mp hrecord).1, rfl, rfl⟩
  · cases (Prod.mk.inj hkey).1

/-- A batch keeps the certificate. -/
theorem Certified.insertBatch [DecidableEq Hash] (h : Certified state) {result : UsageBatchResult}
    (hok : insertBatch hash clock batch state = .ok (next, result)) : Certified next := by
  obtain ⟨attempts, terminals, hattempts, -, rfl⟩ := insertBatch_ok hok
  obtain ⟨hfresh, -⟩ := admissible_ok hattempts
  have hwritten : ((writtenAttempts state attempts).map UsageRecordInsert.id).Nodup ∧
      ∀ written ∈ writtenAttempts state attempts, written.id ∉ state.records.map UsageRecord.id :=
      newRows_nodup _ attempts
  obtain ⟨hnodup, hnew⟩ := hwritten
  have hids : ((state.records ++ (writtenAttempts state attempts).map (storedRecord clock)).map
      UsageRecord.id).Nodup := by
    rw [List.map_append, List.map_map]
    refine List.nodup_append.mpr ⟨h.ids, hnodup, fun first hfirst second hsecond heq => ?_⟩
    obtain ⟨written, hwritten, rfl⟩ := List.mem_map.mp hsecond
    rw [heq] at hfirst
    exact hnew written hwritten hfirst
  -- An attempt that is written had no contribution.
  have hnone {written : UsageRecordInsert} (hwritten : written ∈ writtenAttempts state attempts) :
      (Kind.attempt, written.id) ∉ state.contributions.map ContributionRow.key := by
    rw [← receipt_isSome_iff, (hfresh written (mem_of_mem_newRows hwritten)).1]
    simp
  refine ⟨hids, fun row hrow record hrecord hkey => ?_, fun watermark hwatermark record hrecord hbelow hcurrent => ?_⟩
  · have hrow : row ∈ state.contributions ++ newRows ContributionRow.key (state.contributions.map ContributionRow.key)
        (admittedBy hash clock state attempts terminals) := hrow
    rcases List.mem_append.mp hrow with hheld | hinserted
    · rcases List.mem_append.mp hrecord with hbefore | hwritten
      · exact h.days row hheld record hbefore hkey
      · obtain ⟨written, hin, rfl⟩ := List.mem_map.mp hwritten
        exact absurd (List.mem_map.mpr ⟨row, hheld, hkey⟩) (hnone hin)
    · have hof : ∃ other ∈ state.records ++ (writtenAttempts state attempts).map (storedRecord clock),
          row.id = other.id ∧ row.day = dayOf other.createdAt := by
        rcases admitted_attempt (mem_of_mem_newRows hinserted) hkey with
          ⟨written, hwritten, rfl⟩ | ⟨other, hother, hrow⟩
        · exact ⟨_, List.mem_append_right _ (List.mem_map_of_mem hwritten), rfl, rfl⟩
        · exact ⟨other, List.mem_append_left _ hother, hrow⟩
      obtain ⟨other, hother, hid, hday⟩ := hof
      have hsame : other = record :=
        List.inj_on_of_nodup_map hids hother hrecord (hid.symm.trans (Prod.mk.inj hkey).2)
      rw [hday, hsame]
  · rcases List.mem_append.mp hrecord with hbefore | hwritten
    · obtain ⟨row, hrow, hsettled⟩ := h.banked watermark hwatermark record hbefore hbelow hcurrent
      exact ⟨row, List.mem_append_left _ hrow, hsettled⟩
    · obtain ⟨written, hin, rfl⟩ := List.mem_map.mp hwritten
      have hadmitted : liveAttempt hash clock written ∈ admittedBy hash clock state attempts terminals := by
        simp only [admittedBy, List.mem_append, List.mem_map]
        exact .inl (.inl ⟨written, hin, rfl⟩)
      have hcovers := @newRows_covers _ _ _ ContributionRow.key
          (state.contributions.map ContributionRow.key) _ _ hadmitted
      rcases hcovers with hheld | hinserted
      · exact absurd hheld (hnone hin)
      · obtain ⟨row, hrow, hkey⟩ := List.mem_map.mp hinserted
        refine ⟨row, List.mem_append_right _ hrow, hkey, ?_⟩
        rcases admitted_attempt (mem_of_mem_newRows hrow) hkey with ⟨_, -, rfl⟩ | ⟨other, hother, hid, -⟩
        · intro hsource
          cases hsource
        · -- No row of an older writer stands where the attempt was written.
          refine absurd (List.mem_map.mpr ⟨other, hother, ?_⟩) (hnew written hin)
          exact hid.symm.trans (Prod.mk.inj hkey).2

end Batch

section Sweep

variable {hash : UsagePayload → Hash}

/-- Adopting settles the contribution of its attempt, unsettles none, and changes no day. -/
theorem adopt_settles (held : List (ContributionRow Hash) × List (ContributionRow Hash)) {input : ContributionRow Hash}
    (hsource : input.source ≠ .legacyPending) :
    Settled (adopt held input).1 input.key ∧ (∀ key, Settled held.1 key → Settled (adopt held input).1 key) ∧
      ∀ row ∈ (adopt held input).1, ∃ other, (other ∈ held.1 ∨ other = input) ∧ other.key = row.key ∧
        other.day = row.day := by
  unfold adopt
  split
  · refine ⟨⟨input, by simp, rfl, hsource⟩, fun key ⟨row, hrow, hsettled⟩ => ⟨row, by simp [hrow], hsettled⟩,
      fun row hrow => ?_⟩
    rw [List.mem_append, List.mem_singleton] at hrow
    exact ⟨row, hrow, rfl, rfl⟩
  · next found hfound =>
    have hkey : found.key = input.key := by simpa using List.find?_some hfound
    have hmem := List.mem_of_find?_eq_some hfound
    split
    · refine ⟨⟨{ found with source := input.source }, List.mem_map.mpr ⟨found, hmem, if_pos hkey⟩, hkey, hsource⟩,
        fun key ⟨row, hrow, hsame, hsettled⟩ => ?_, fun row hrow => ?_⟩
      · by_cases hinput : row.key = input.key
        · exact ⟨{ row with source := input.source }, List.mem_map.mpr ⟨row, hrow, if_pos hinput⟩, hsame, hsource⟩
        · exact ⟨row, List.mem_map.mpr ⟨row, hrow, if_neg hinput⟩, hsame, hsettled⟩
      · obtain ⟨other, hother, rfl⟩ := List.mem_map.mp hrow
        refine ⟨other, .inl hother, ?_⟩
        split
        · exact ⟨rfl, rfl⟩
        · exact ⟨rfl, rfl⟩
    · next hsettled =>
      exact ⟨⟨found, hmem, hkey, hsettled⟩, fun _ h => h, fun row hrow => ⟨row, .inl hrow, rfl, rfl⟩⟩

/-- Adopting one after another settles them all. -/
theorem adopts_settle (inputs : List (ContributionRow Hash)) (hsource : ∀ input ∈ inputs, input.source ≠ .legacyPending)
    (held : List (ContributionRow Hash) × List (ContributionRow Hash)) :
    (∀ input ∈ inputs, Settled (inputs.foldl adopt held).1 input.key) ∧
      (∀ key, Settled held.1 key → Settled (inputs.foldl adopt held).1 key) ∧
      ∀ row ∈ (inputs.foldl adopt held).1, ∃ other, (other ∈ held.1 ∨ other ∈ inputs) ∧ other.key = row.key ∧
        other.day = row.day := by
  induction inputs generalizing held with
  | nil => exact ⟨by simp, fun _ h => h, fun row hrow => ⟨row, .inl hrow, rfl, rfl⟩⟩
  | cons input rest ih =>
    obtain ⟨hinput, hkept, hfrom⟩ := adopt_settles held (hsource input (List.mem_cons_self ..))
    obtain ⟨hrest, hkeptRest, hfromRest⟩ := ih (fun other hother => hsource other (.tail _ hother)) (adopt held input)
    refine ⟨fun other hother => ?_, fun key h => hkeptRest key (hkept key h), fun row hrow => ?_⟩
    · rcases List.mem_cons.mp hother with rfl | hother
      · exact hkeptRest _ hinput
      · exact hrest other hother
    · obtain ⟨other, hother | hother, hkey, hday⟩ := hfromRest row hrow
      · obtain ⟨first, hfirst, hsame, hdays⟩ := hfrom other hother
        refine ⟨first, hfirst.imp_right ?_, hsame.trans hkey, hdays.trans hday⟩
        rintro rfl
        exact List.mem_cons_self ..
      · exact ⟨other, .inr (.tail _ hother), hkey, hday⟩

/-- A sweep never adopts a contribution as pending. -/
theorem adoptedSource_settled (state : HistoryState Hash) (row : UsageRecord) :
    adoptedSource state row ≠ .legacyPending := by
  unfold adoptedSource
  split
  · exact nofun
  · split
    · exact nofun
    · exact nofun

/-- The rows of a sweep are attempts there are; one from the start that ends short of its limit has all that are not
banked. -/
theorem mem_unbankedRecords {after : Option (Time × Id)} {limit : Nat} {record : UsageRecord} :
    (record ∈ unbankedRecords state after limit → record ∈ state.records) ∧
      (after = none → (unbankedRecords state after limit).length < limit → record ∈ state.records →
        state.banked record.id = false → record ∈ unbankedRecords state after limit) := by
  unfold unbankedRecords
  refine ⟨fun hin => (List.mem_filter.mp (List.mem_mergeSort.mp (List.mem_of_mem_take hin))).1, ?_⟩
  rintro rfl hshort hrecord hunbanked
  rw [List.length_take] at hshort
  rw [List.take_of_length_le (by omega), List.mem_mergeSort, List.mem_filter]
  exact ⟨hrecord, by simp [hunbanked]⟩

/-- With every attempt banked, any watermark is sound. -/
theorem Certified.advance (h : Certified state)
    (hall : ∀ record ∈ state.records, Settled state.contributions (.attempt, record.id)) :
    Certified (advanceBankedWatermark state) := by
  unfold advanceBankedWatermark
  split
  · exact h
  · split
    · exact ⟨h.ids, h.days, fun _ _ record hrecord _ _ => hall record hrecord⟩
    · exact h

/-- A backfill keeps it. -/
theorem Certified.backfill (h : Certified state) {after : Option (Time × Id)} {limit : Nat} {result : BackfillResult}
    (hok : backfill hash after limit state = .ok (next, result)) : Certified next := by
  obtain ⟨hinputs, hkept, hfrom⟩ := adopts_settle ((unbankedRecords state after limit).map fun row =>
    legacyAttempt hash (adoptedSource state row) row) (fun input hinput => by
      obtain ⟨record, -, rfl⟩ := List.mem_map.mp hinput
      exact adoptedSource_settled state record) (state.contributions, [])
  unfold History.backfill at hok
  obtain ⟨rfl, -⟩ := Prod.mk.inj (ok_of_boundUsageBatch hok)
  have happlied : ∀ written : List (ContributionRow Hash) × List (ContributionRow Hash),
      written = ((unbankedRecords state after limit).map fun row =>
        legacyAttempt hash (adoptedSource state row) row).foldl adopt (state.contributions, []) →
      Certified (applyUsageContributions written.2 { state with contributions := written.1 }) := by
    rintro written rfl
    refine ⟨h.ids, fun row hrow record hrecord hkey => ?_, fun watermark hwatermark record hrecord hbelow hcurrent =>
      hkept _ (h.banked watermark hwatermark record hrecord hbelow hcurrent)⟩
    obtain ⟨other, hother, hsame, hday⟩ := hfrom row hrow
    rw [← hday]
    rcases hother with hheld | hinput
    · exact h.days other hheld record hrecord (hsame.trans hkey)
    · obtain ⟨swept, hswept, rfl⟩ := List.mem_map.mp hinput
      have hid : swept.id = record.id := (Prod.mk.inj (hsame.trans hkey)).2
      rw [← List.inj_on_of_nodup_map h.ids (mem_unbankedRecords.1 hswept) hrecord hid]
      rfl
  split
  · next hswept =>
    simp only [Bool.and_eq_true, Option.isNone_iff_eq_none, decide_eq_true_eq] at hswept
    refine (happlied _ rfl).advance fun record hrecord => ?_
    cases hbanked : state.banked record.id with
    | true => exact hkept _ ((banked_iff record.id).mp hbanked)
    | false =>
      have hin := mem_unbankedRecords.2 hswept.1.1 hswept.1.2 hrecord hbanked
      exact hinputs _ (List.mem_map.mpr ⟨record, hin, rfl⟩)
  · exact happlied _ rfl

end Sweep

section Retention

theorem Certified.rollupDay (h : Certified state) (clock : TxClock) (instant : Time) :
    Certified (rollupDay clock instant state).1 := by
  unfold History.rollupDay
  dsimp only
  split
  · exact h
  · exact ⟨h.ids, h.days, h.banked⟩

/-- Retention takes a contribution only when the day of its attempt has expired. -/
theorem Certified.deleteOlderThan (h : Certified state) (hsound : Sound state) {clock : TxClock} {cutoff : Time}
    {limit : Nat} {rowOrder : Grain → Nat} {deleted : Nat}
    (hok : deleteOlderThan clock cutoff limit rowOrder state = .ok (next, deleted)) : Certified next := by
  unfold History.deleteOlderThan at hok
  obtain ⟨rfl, -⟩ := Prod.mk.inj (ok_of_boundUsageBatch hok)
  refine ⟨h.ids, fun row hrow => h.days row (List.mem_filter.mp hrow).1,
    fun watermark hwatermark record hrecord hbelow hcurrent => ?_⟩
  have hday : ¬ dayOf record.createdAt < state.retentionBeforeDay.elim (dayOf (min cutoff clock.dbNow)) fun held =>
      max held (dayOf (min cutoff clock.dbNow)) := of_decide_eq_false hcurrent
  have hbefore : state.expired (dayOf record.createdAt) = false := by
    unfold HistoryState.expired
    cases hheld : state.retentionBeforeDay with
    | none => rfl
    | some held =>
      rw [hheld, Option.elim_some] at hday
      rw [Option.any_some, decide_eq_false_iff_not]
      exact fun hlt => hday (Nat.lt_of_lt_of_le hlt (Nat.le_max_left ..))
  obtain ⟨row, hrow, hkey, hsettled⟩ := h.banked watermark hwatermark record hrecord hbelow hbefore
  refine ⟨row, List.mem_filter.mpr ⟨hrow, decide_eq_true ?_⟩, hkey, hsettled⟩
  refine hsound.kept_receipt hrow ?_
  rw [h.days row hrow record hrecord hkey]
  exact Nat.not_lt.mp hday

/-- A deletion of detail keeps it. -/
theorem Certified.deleteDetail (h : Certified state) {clock : TxClock} {cutoff : Time} {limit : Nat} {deleted : Nat}
    (hok : deleteDetail clock cutoff limit state = .ok (next, deleted)) : Certified next := by
  unfold History.deleteDetail at hok
  obtain ⟨rfl, -⟩ := Prod.mk.inj (ok_of_boundUsageBatch hok)
  exact ⟨h.ids.sublist (List.filter_sublist.map _),
    fun row hrow record hrecord => h.days row hrow record (List.mem_filter.mp hrecord).1,
    fun watermark hwatermark record hrecord => h.banked watermark hwatermark record (List.mem_filter.mp hrecord).1⟩

end Retention

section Runs

/-- The order of the event clock is total. -/
theorem precedes_eq_false_iff (first second : ℕ × ℕ) :
    precedes first second = false ↔ second.1 < first.1 ∨ second.1 = first.1 ∧ second.2 ≤ first.2 := by
  obtain ⟨at1, id1⟩ := first
  obtain ⟨at2, id2⟩ := second
  simp only [precedes, Bool.or_eq_false_iff, Bool.and_eq_false_iff, decide_eq_false_iff_not]
  change (¬at1 < at2 ∧ (¬at1 = at2 ∨ ¬id1 < id2)) ↔ _
  omega

/-- The second watermark is not behind the first. -/
def NotBehind (first second : Option (Time × Id)) : Prop :=
  ∀ watermark ∈ first, ∃ later ∈ second, precedes later watermark = false

theorem NotBehind.refl (watermark : Option (Time × Id)) : NotBehind watermark watermark :=
  fun held hheld => ⟨held, hheld, by simp [precedes]⟩

/-- Watermarks that are not behind follow one another. -/
theorem NotBehind.trans {first second third : Option (Time × Id)} (h : NotBehind first second)
    (hnext : NotBehind second third) : NotBehind first third := by
  intro watermark hwatermark
  obtain ⟨later, hlater, hbehind⟩ := h watermark hwatermark
  obtain ⟨last, hlast, hafter⟩ := hnext later hlater
  refine ⟨last, hlast, ?_⟩
  rw [precedes_eq_false_iff] at hbehind hafter ⊢
  omega

/-- An advance moves no watermark back. -/
theorem notBehind_advance (state : HistoryState Hash) :
    NotBehind state.bankedThrough (advanceBankedWatermark state).bankedThrough := by
  unfold advanceBankedWatermark
  split
  · exact .refl _
  · next newest _ =>
    split
    · next hnewer =>
      refine fun held hheld => ⟨newest, rfl, ?_⟩
      have hbefore : precedes held newest = true := by
        rw [Option.mem_def.mp hheld] at hnewer
        exact hnewer
      have hnot : ¬ precedes held newest = false := by simp [hbefore]
      rw [precedes_eq_false_iff] at hnot ⊢
      omega
    · exact .refl _

/-- What is committed moves it no further back than its outcome. -/
theorem notBehind_committed {Result : Type} {outcome : Except HistoryError (HistoryState Hash × Result)}
    (hok : ∀ next result, outcome = .ok (next, result) → NotBehind state.bankedThrough next.bankedThrough) :
    NotBehind state.bankedThrough (committed state outcome).bankedThrough :=
  committed_rule (motive := fun next => NotBehind state.bankedThrough next.bankedThrough) (.refl _) hok

variable [DecidableEq Hash] (hash : UsagePayload → Hash)

/-- No transaction moves the watermark back. -/
theorem notBehind_step (state : HistoryState Hash) (event : HistoryEvent) :
    NotBehind state.bankedThrough (step hash state event).bankedThrough := by
  cases event with
  | insertBatch clock batch =>
    refine notBehind_committed fun next result hok => ?_
    obtain ⟨attempts, terminals, -, -, rfl⟩ := insertBatch_ok hok
    exact .refl _
  | backfill after limit =>
    refine notBehind_committed fun next result hok => ?_
    unfold History.backfill at hok
    obtain ⟨rfl, -⟩ := Prod.mk.inj (ok_of_boundUsageBatch hok)
    split
    · exact notBehind_advance (applyUsageContributions (List.foldl adopt _ _).2 { state with contributions := _ })
    · exact .refl _
  | rollupDay clock instant =>
    unfold step rollupDay
    dsimp only
    split
    · exact .refl _
    · exact .refl _
  | deleteOlderThan clock cutoff limit rowOrder =>
    refine notBehind_committed fun next result hok => ?_
    unfold History.deleteOlderThan at hok
    obtain ⟨rfl, -⟩ := Prod.mk.inj (ok_of_boundUsageBatch hok)
    exact .refl _
  | deleteDetail clock cutoff limit =>
    refine notBehind_committed fun next result hok => ?_
    unfold History.deleteDetail at hok
    obtain ⟨rfl, -⟩ := Prod.mk.inj (ok_of_boundUsageBatch hok)
    exact .refl _

/-- No run moves it back. -/
theorem notBehind_run (state : HistoryState Hash) (events : List HistoryEvent) :
    NotBehind state.bankedThrough (run hash state events).bankedThrough := by
  induction events generalizing state with
  | nil => exact .refl _
  | cons event rest ih => exact (notBehind_step hash state event).trans (ih (step hash state event))

/-- Every step keeps the certificate. -/
theorem Certified.step (h : Certified state) (hsound : Sound state) (event : HistoryEvent) :
    Certified (step hash state event) := by
  cases event with
  | insertBatch clock batch => exact committed_rule h fun _ _ hok => h.insertBatch hok
  | backfill after limit => exact committed_rule h fun _ _ hok => h.backfill hok
  | rollupDay clock instant => exact h.rollupDay clock instant
  | deleteOlderThan clock cutoff limit rowOrder => exact committed_rule h fun _ _ hok => h.deleteOlderThan hsound hok
  | deleteDetail clock cutoff limit => exact committed_rule h fun _ _ hok => h.deleteDetail hok

/-- Whatever transactions ran, and whatever cursors their sweeps resumed behind, an attempt at or below the watermark
whose day has not expired has a settled contribution; and no transactions that follow move the watermark back. -/
theorem watermark_sound (records : List UsageRecord) (hids : (records.map UsageRecord.id).Nodup)
    (terminals : List UsageRequestTerminal) (usageDaily : List Day) (events : List HistoryEvent) :
    ∃ state, run hash (initial records terminals usageDaily) events = state ∧
      (∀ watermark ∈ state.bankedThrough, ∀ record ∈ state.records, precedes watermark record.position = false →
        state.expired (dayOf record.createdAt) = false →
        ∃ row ∈ state.contributions, row.kind = .attempt ∧ row.id = record.id ∧ row.source ≠ .legacyPending) ∧
      ∀ more, ∀ watermark ∈ state.bankedThrough, ∃ later ∈ (run hash state more).bankedThrough,
        precedes later watermark = false := by
  have hstart : Certified (initial records terminals usageDaily : HistoryState Hash) := ⟨hids, by simp [initial], nofun⟩
  obtain ⟨hcertified, -⟩ := runFrom_invariant (fun state : HistoryState Hash => Certified state ∧ Sound state)
    (fun state event h => ⟨h.1.step hash h.2 event, h.2.step event⟩) events _
    ⟨hstart, sound_initial records terminals usageDaily⟩
  refine ⟨_, rfl, fun watermark hwatermark record hrecord hbelow hcurrent => ?_, notBehind_run hash _⟩
  obtain ⟨row, hrow, hkey, hsettled⟩ := hcertified.banked watermark hwatermark record hrecord hbelow hcurrent
  exact ⟨row, hrow, (Prod.mk.inj hkey).1, (Prod.mk.inj hkey).2, hsettled⟩

/-- What an attempt is counted with when nothing is known of it. -/
def plainFacts : AttemptFacts := ⟨0, none, none, none, none, 0, 0, 0, 0, none, .unknown, true, 0⟩

/-- A sweep banks a row of an older writer and moves the watermark to it, and a batch then writes below it. -/
def bankedRun : HistoryState Nat :=
  run (fun _ => 0) (initial [⟨1, 5, none, plainFacts⟩] [] [])
    [.backfill none 10, .insertBatch ⟨7, 7, 7⟩ ⟨[⟨2, some 3, plainFacts⟩], []⟩]

/-- A run in which the watermark passes two attempts. -/
theorem watermark_sound_one :
    bankedRun.bankedThrough = some (5, 1) ∧ bankedRun.records.map UsageRecord.id = [1, 2] ∧ ∀ id ∈ [1, 2],
        ∃ row ∈ bankedRun.contributions, row.kind = .attempt ∧ row.id = id ∧ row.source ≠ .legacyPending := by
  obtain ⟨state, hstate, hsound, -⟩ := watermark_sound (fun _ => 0) [⟨1, 5, none, plainFacts⟩] (by decide) [] []
    [.backfill none 10, .insertBatch ⟨7, 7, 7⟩ ⟨[⟨2, some 3, plainFacts⟩], []⟩]
  obtain rfl : bankedRun = state := hstate
  have hbanked : bankedRun.bankedThrough = some (5, 1) := by decide +kernel
  have hrecords : bankedRun.records = [⟨1, 5, none, plainFacts⟩, ⟨2, 3, some 7, plainFacts⟩] := by decide +kernel
  have hretention : bankedRun.retentionBeforeDay = none := by decide +kernel
  have hcurrent (day : Day) : bankedRun.expired day = false := by rw [HistoryState.expired, hretention]; rfl
  refine ⟨hbanked, by rw [hrecords]; rfl, fun id hid => ?_⟩
  rw [hrecords] at hsound
  rcases List.mem_cons.mp hid with rfl | hid
  · exact hsound (5, 1) hbanked _ (List.mem_cons_self ..) (by decide) (hcurrent _)
  · rw [List.mem_singleton.mp hid]
    exact hsound (5, 1) hbanked _ (.tail _ (List.mem_cons_self ..)) (by decide) (hcurrent _)

end Runs

end MultiAiRouter.Usage.History
