import MultiAiRouter.Usage.History

/-!
# Daily totals equal their receipts

Every transaction keeps one contribution under each identifier, and the daily tables at the totals of the
contributions they count. A batch that commits leaves a receipt for every row it was given, except a settled request
that was there without one.
-/

namespace MultiAiRouter.Usage.History

open Common

variable {Hash : Type} {state : HistoryState Hash} {kind : Kind}

/-- The contributions that the daily row of a grain adds up. -/
def receiptsOf (state : HistoryState Hash) (kind : Kind) (grain : Grain) : List (ContributionRow Hash) :=
  group ContributionRow.grain (countedOf kind state.contributions) grain

/-- From the retention horizon on, the daily table of a kind has one row for each grain with receipts and no
other row, and each row equals the sum of its receipts in every measure. -/
structure TotalsEqual (state : HistoryState Hash) (kind : Kind) : Prop where
  unique : ((state.daily kind).map Prod.fst).Nodup
  total : ∀ row ∈ state.daily kind, state.expired row.1.day = false → receiptsOf state kind row.1 ≠ [] ∧ ∀ measure,
      row.2.measure measure = ((receiptsOf state kind row.1).map fun receipt => receipt.payload.measure measure).sum
  present : ∀ grain, state.expired grain.day = false → receiptsOf state kind grain ≠ [] →
    ∃ row ∈ state.daily kind, row.1 = grain

/-- The invariant of every reachable state. -/
structure Sound (state : HistoryState Hash) : Prop where
  keys : (state.contributions.map ContributionRow.key).Nodup
  unique : ∀ kind, ((state.daily kind).map Prod.fst).Nodup
  totals : ∀ kind, HoldsTotals ContributionRow.grain (fun receipt => receipt.payload.measure) DailyTotals.measure
    (fun grain => state.expired grain.day = false) (state.daily kind) (countedOf kind state.contributions)

theorem countedOf_append (kind : Kind) (first second : List (ContributionRow Hash)) :
    countedOf kind (first ++ second) = countedOf kind first ++ countedOf kind second := List.filter_append ..

section Apply

/-- Each daily table takes the contributions of its kind. -/
theorem applyUsageContributions_daily (rows : List (ContributionRow Hash)) (state : HistoryState Hash) (kind : Kind) :
    (applyUsageContributions rows state).daily kind =
      groupUpsert mergeTotals (totalsOf kind) ContributionRow.grain (state.daily kind) (countedOf kind rows) := by
  cases kind <;> rfl

@[simp] theorem applyUsageContributions_expired (rows : List (ContributionRow Hash)) (state : HistoryState Hash) :
    (applyUsageContributions rows state).expired = state.expired := rfl

/-- Tables that hold the totals of some contributions hold those of more, once these are added. -/
theorem Sound.apply {rows : List (ContributionRow Hash)} {held : Kind → List (ContributionRow Hash)}
    (hkeys : (state.contributions.map ContributionRow.key).Nodup)
    (hunique : ∀ kind, ((state.daily kind).map Prod.fst).Nodup)
    (htotals : ∀ kind, HoldsTotals ContributionRow.grain (fun receipt => receipt.payload.measure) DailyTotals.measure
      (fun grain => state.expired grain.day = false) (state.daily kind) (held kind))
    (hperm : ∀ kind, (held kind ++ countedOf kind rows).Perm (countedOf kind state.contributions)) :
    Sound (applyUsageContributions rows state) := by
  refine ⟨hkeys, fun kind => ?_, fun kind => ?_⟩
  · rw [applyUsageContributions_daily]
    exact groupUpsert_nodup (hunique kind) _
  · have hmerge (first second : DailyTotals) :
        (mergeTotals first second).measure = first.measure + second.measure := rfl
    have hsum (rows : List (ContributionRow Hash)) :
        (totalsOf kind rows).measure = (rows.map fun receipt => receipt.payload.measure).sum := rfl
    rw [applyUsageContributions_daily, applyUsageContributions_expired]
    exact ((htotals kind).groupUpsert hmerge hsum (countedOf kind rows)).perm (hperm kind)

end Apply

section Insert

variable {Row Key : Type} [DecidableEq Key] {keyOf : Row → Key}

/-- What is inserted is new, and new among itself. -/
theorem newRows_nodup (held : List Key) (rows : List Row) :
    ((newRows keyOf held rows).map keyOf).Nodup ∧ ∀ row ∈ newRows keyOf held rows, keyOf row ∉ held := by
  induction rows generalizing held with
  | nil => exact ⟨List.nodup_nil, by simp [newRows]⟩
  | cons row rest ih =>
    rw [newRows]
    split
    · exact ih held
    · next hnew =>
      obtain ⟨hnodup, hfresh⟩ := ih (keyOf row :: held)
      refine ⟨?_, fun other hother => ?_⟩
      · rw [List.map_cons, List.nodup_cons]
        refine ⟨fun hin => ?_, hnodup⟩
        obtain ⟨other, hother, heq⟩ := List.mem_map.mp hin
        exact hfresh other hother (heq ▸ List.mem_cons_self ..)
      · rcases List.mem_cons.mp hother with rfl | hother
        · exact hnew
        · exact fun hheld => hfresh other hother (List.mem_cons_of_mem _ hheld)

/-- Inserted contributions keep one under each identifier. -/
theorem keys_append_newRows {contributions : List (ContributionRow Hash)}
    (h : (contributions.map ContributionRow.key).Nodup) (admitted : List (ContributionRow Hash)) :
    ((contributions ++ newRows ContributionRow.key (contributions.map ContributionRow.key) admitted).map
      ContributionRow.key).Nodup := by
  obtain ⟨hnodup, hfresh⟩ :=
    @newRows_nodup _ _ _ ContributionRow.key (contributions.map ContributionRow.key) admitted
  rw [List.map_append]
  refine List.nodup_append.mpr ⟨h, hnodup, fun first hfirst second hsecond heq => ?_⟩
  obtain ⟨row, hrow, rfl⟩ := List.mem_map.mp hsecond
  exact hfresh row hrow (heq ▸ hfirst)

/-- Contributions that are inserted are added once. -/
theorem Sound.insertContributions (h : Sound state) (admitted : List (ContributionRow Hash)) :
    Sound (insertContributions admitted state) := by
  unfold History.insertContributions
  dsimp only
  refine Sound.apply (keys_append_newRows h.keys admitted) h.unique h.totals fun kind => ?_
  rw [countedOf_append]

end Insert

section Adopt

/-- Adopting keeps one contribution under each identifier; those that count are those before and those it wrote.
-/
structure Adopts (before after : List (ContributionRow Hash) × List (ContributionRow Hash)) : Prop where
  keys : (before.1.map ContributionRow.key).Nodup → (after.1.map ContributionRow.key).Nodup
  counted : (before.1.map ContributionRow.key).Nodup → ∃ added, after.2 = before.2 ++ added ∧
    ∀ kind, (countedOf kind before.1 ++ countedOf kind added).Perm (countedOf kind after.1)

/-- Settling a contribution in place. -/
theorem map_settle {before after : List (ContributionRow Hash)} {row : ContributionRow Hash} (source : Source)
    (h : ((before ++ row :: after).map ContributionRow.key).Nodup) :
    ((before ++ row :: after).map fun other => if other.key = row.key then { other with source } else other) =
      before ++ { row with source } :: after := by
  rw [List.map_append, List.map_cons, List.nodup_append, List.nodup_cons] at h
  obtain ⟨-, ⟨hafter, -⟩, hbefore⟩ := h
  have hkeep (rows : List (ContributionRow Hash)) (hrows : ∀ other ∈ rows, other.key ≠ row.key) :
      (rows.map fun other => if other.key = row.key then { other with source } else other) = rows := by
    conv_rhs => rw [← List.map_id rows]
    exact List.map_congr_left fun other hother => if_neg (hrows other hother)
  rw [List.map_append, List.map_cons, if_pos rfl, hkeep before, hkeep after]
  · exact fun other hother heq => hafter (heq ▸ List.mem_map_of_mem hother)
  · exact fun other hother => hbefore _ (List.mem_map_of_mem hother) _ (List.mem_cons_self ..)

/-- An input is adopted or held already. -/
theorem adopts_adopt (held : List (ContributionRow Hash) × List (ContributionRow Hash)) (input : ContributionRow Hash) :
    Adopts held (adopt held input) := by
  unfold adopt
  split
  · next hnone =>
    have hfresh : input.key ∉ held.1.map ContributionRow.key := by
      intro hin
      obtain ⟨row, hrow, heq⟩ := List.mem_map.mp hin
      have hne := List.find?_eq_none.mp hnone row hrow
      simp [heq] at hne
    refine ⟨fun h => ?_, fun _ => ⟨[input], rfl, fun kind => by rw [countedOf_append]⟩⟩
    rw [List.map_append, List.map_singleton]
    refine List.nodup_append.mpr ⟨h, List.nodup_singleton _, fun first hfirst second hsecond heq => hfresh ?_⟩
    have hkey : first = input.key := heq.trans (List.mem_singleton.mp hsecond)
    exact hkey ▸ hfirst
  · next row hrow =>
    split
    · next hpending =>
      obtain ⟨hkey, before, after, heq, -⟩ := List.find?_eq_some_iff_append.mp hrow
      have hsame : row.key = input.key := by simpa using hkey
      have hsettled (h : (held.1.map ContributionRow.key).Nodup) :
          (held.1.map fun other => if other.key = input.key then { other with source := input.source } else other) =
            before ++ { row with source := input.source } :: after := by
        rw [← hsame, heq]
        exact map_settle input.source (heq ▸ h)
      refine ⟨fun h => ?_, fun h => ⟨[{ row with source := input.source }], rfl, fun kind => ?_⟩⟩
      · rw [hsettled h]
        rw [heq, List.map_append, List.map_cons] at h
        dsimp only
        rw [List.map_append, List.map_cons]
        exact h
      · have hnot : countedOf kind [row] = [] := by simp [countedOf, hpending, Source.counts]
        have hsplit (middle : ContributionRow Hash) : countedOf kind (before ++ middle :: after) =
            countedOf kind before ++ (countedOf kind [middle] ++ countedOf kind after) := by
          rw [← List.singleton_append, countedOf_append, countedOf_append]
        rw [hsettled h, heq, hsplit, hsplit, hnot, List.nil_append, List.append_assoc]
        exact List.perm_append_comm.append_left _
    · exact ⟨id, fun _ => ⟨[], by simp, fun kind => by simp [countedOf]⟩⟩

/-- Adopting one after another. -/
theorem adopts_foldl (inputs : List (ContributionRow Hash))
    (held : List (ContributionRow Hash) × List (ContributionRow Hash)) : Adopts held (inputs.foldl adopt held) := by
  induction inputs generalizing held with
  | nil => exact ⟨id, fun _ => ⟨[], by simp, fun kind => by simp [countedOf]⟩⟩
  | cons input rest ih =>
    have hone := adopts_adopt held input
    have hrest := ih (adopt held input)
    rw [List.foldl_cons]
    refine ⟨fun h => hrest.keys (hone.keys h), fun h => ?_⟩
    obtain ⟨first, hfirst, hfirstPerm⟩ := hone.counted h
    obtain ⟨second, hsecond, hsecondPerm⟩ := hrest.counted (hone.keys h)
    refine ⟨first ++ second, by rw [hsecond, hfirst, List.append_assoc], fun kind => ?_⟩
    rw [countedOf_append, ← List.append_assoc]
    exact ((hfirstPerm kind).append_right _).trans (hsecondPerm kind)

end Adopt

section Transactions

/-- What the invariant does not look at. -/
theorem Sound.aside {other : HistoryState Hash} (h : Sound state)
    (hcontributions : other.contributions = state.contributions)
    (hdaily : other.daily = state.daily) (hexpired : other.expired = state.expired) : Sound other := by
  refine ⟨?_, ?_, ?_⟩
  · rw [hcontributions]
    exact h.keys
  · rw [hdaily]
    exact h.unique
  · rw [hcontributions, hdaily, hexpired]
    exact h.totals

theorem Sound.advanceBankedWatermark (h : Sound state) : Sound (advanceBankedWatermark state) := by
  unfold History.advanceBankedWatermark
  split
  · exact h
  · split
    · exact h.aside rfl rfl rfl
    · exact h

/-- A transaction that committed had a batch within the bounds. -/
theorem ok_of_boundUsageBatch {Result : Type} {limit : Nat} {result committed : Result}
    (hok : (boundUsageBatch limit).bind (fun _ => Except.ok result) = .ok committed) : result = committed := by
  cases hbound : boundUsageBatch limit with
  | error error =>
    rw [hbound] at hok
    cases hok
  | ok _ =>
    rw [hbound] at hok
    exact Except.ok.inj hok

/-- A backfill is sound. -/
theorem Sound.backfill (h : Sound state) {hash : UsagePayload → Hash} {after : Option (Time × Id)} {limit : Nat}
    {next : HistoryState Hash} {result : BackfillResult} (hok : backfill hash after limit state = .ok (next, result)) :
    Sound next := by
  have hadopts := adopts_foldl ((unbankedRecords state after limit).map fun row =>
    legacyAttempt hash (adoptedSource state row) row) (state.contributions, [])
  unfold History.backfill at hok
  have hok := Prod.mk.inj (ok_of_boundUsageBatch hok)
  generalize ((unbankedRecords state after limit).map fun row =>
    legacyAttempt hash (adoptedSource state row) row).foldl adopt (state.contributions, []) = written at hadopts hok
  obtain ⟨rfl, -⟩ := hok
  obtain ⟨added, hadded, hperm⟩ := hadopts.counted h.keys
  rw [List.nil_append] at hadded
  have happlied : Sound (applyUsageContributions written.2 { state with contributions := written.1 }) :=
    Sound.apply (hadopts.keys h.keys) h.unique h.totals (hadded ▸ hperm)
  split
  · exact happlied.advanceBankedWatermark
  · exact happlied

/-- The contributions of a day and those of the others. -/
theorem countedOf_day (kind : Kind) (day : Day) (contributions : List (ContributionRow Hash)) :
    (countedOf kind (contributions.filter fun row => row.day ≠ day) ++
      countedOf kind (contributions.filter fun row => row.day = day)).Perm (countedOf kind contributions) := by
  rw [← countedOf_append]
  refine List.Perm.filter _ (List.perm_append_comm.trans ?_)
  have hsplit := List.filter_append_perm (fun row : ContributionRow Hash => decide (row.day = day)) contributions
  simpa using hsplit

/-- The contributions of a grain are among those of its day. -/
theorem group_filter_day (kind : Kind) (keep : Day → Bool) (contributions : List (ContributionRow Hash))
    (grain : Grain) :
    group ContributionRow.grain (countedOf kind (contributions.filter fun row => keep row.day)) grain =
      if keep grain.day then group ContributionRow.grain (countedOf kind contributions) grain else [] := by
  unfold group countedOf
  rw [List.filter_filter, List.filter_filter, List.filter_filter]
  split
  · next hkeep =>
    refine List.filter_congr fun row _ => ?_
    by_cases hgrain : row.grain = grain
    · have hday : row.day = grain.day := congrArg Grain.day hgrain
      simp [hgrain, hday, hkeep]
    · simp [hgrain]
  · next hdrop =>
    refine List.filter_eq_nil_iff.mpr fun row _ hin => ?_
    simp only [Bool.and_eq_true, decide_eq_true_eq] at hin
    have hday : row.day = grain.day := congrArg Grain.day hin.1.1
    rw [hday] at hin
    exact hdrop hin.2

/-- A day without its daily rows holds the totals without its contributions. -/
theorem Sound.emptied (h : Sound state) (day : Day) (kind : Kind) :
    HoldsTotals ContributionRow.grain (fun receipt => receipt.payload.measure) DailyTotals.measure
      (fun grain => state.expired grain.day = false) ((state.daily kind).filter fun row => row.1.day ≠ day)
      (countedOf kind (state.contributions.filter fun row => row.day ≠ day)) := by
  intro grain hgrain
  have hgroup := group_filter_day kind (fun other => decide (other ≠ day)) state.contributions grain
  have hlookup := lookup_filter_key (fun grain : Grain => decide (grain.day ≠ day)) (state.daily kind) grain
  rw [hgroup, hlookup]
  by_cases hday : grain.day = day
  · simp [hday]
  · simpa [hday] using h.totals kind grain hgrain

/-- Deleting daily rows leaves one for each grain. -/
theorem Sound.filter_unique (h : Sound state) (kind : Kind) (keep : Grain × DailyTotals → Bool) :
    (((state.daily kind).filter keep).map Prod.fst).Nodup :=
  (h.unique kind).sublist (List.filter_sublist.map Prod.fst)

/-- A rollup is sound. -/
theorem Sound.rollupDay (h : Sound state) (clock : TxClock) (instant : Time) :
    Sound (rollupDay clock instant state).1 := by
  unfold History.rollupDay
  dsimp only
  split
  · exact h
  · refine Sound.apply h.keys ?_ ?_ fun kind => countedOf_day kind (dayOf instant) state.contributions
    · intro kind
      cases kind
      · exact h.filter_unique .attempt _
      · exact h.filter_unique .terminal _
    · intro kind
      cases kind
      · exact h.emptied (dayOf instant) .attempt
      · exact h.emptied (dayOf instant) .terminal

/-- A slice is of the rows. -/
theorem mem_of_mem_slice {Row : Type} {before : Row → Row → Bool} {limit : Nat} {rows : List Row} {row : Row}
    (h : row ∈ slice before limit rows) : row ∈ rows :=
  List.mem_mergeSort.mp (List.mem_of_mem_take h)

/-- Only expired daily rows are deleted. -/
theorem expired_of_mem {rowOrder : Grain → Nat} {horizon : Day} {limit : Nat} {table : List (Grain × DailyTotals)}
    {grain : Grain} (h : grain ∈ expiredDaily rowOrder horizon limit table) : grain.day < horizon := by
  simpa using (List.mem_filter.mp (mem_of_mem_slice h)).2

/-- Only expired contributions are deleted. -/
theorem Sound.kept_receipt (h : Sound state) {horizon : Day} {limit : Nat} {row : ContributionRow Hash}
    (hrow : row ∈ state.contributions) (hday : horizon ≤ row.day) :
    row.key ∉ expiredContributions horizon limit state.contributions := by
  intro hin
  obtain ⟨other, hother, hkey⟩ := List.mem_map.mp hin
  obtain ⟨hmem, hexpired⟩ := List.mem_filter.mp (mem_of_mem_slice hother)
  have hsame : other = row := List.inj_on_of_nodup_map h.keys hmem hrow hkey
  rw [hsame, decide_eq_true_eq] at hexpired
  exact absurd hday (Nat.not_le.mpr hexpired)

/-- Moving the horizon and deleting a slice of what lies before it. -/
theorem Sound.retain (h : Sound state) {horizon : Day}
    (hhorizon : ∀ held, state.retentionBeforeDay = some held → held ≤ horizon)
    {attempts requests : List Grain} {limit : Nat} (usageDaily : List Day)
    (hattempts : ∀ grain ∈ attempts, grain.day < horizon) (hrequests : ∀ grain ∈ requests, grain.day < horizon) :
    Sound { state with
      retentionBeforeDay := some horizon
      usageDaily
      attemptDaily := state.attemptDaily.filter fun row => row.1 ∉ attempts
      requestDaily := state.requestDaily.filter fun row => row.1 ∉ requests
      contributions := state.contributions.filter fun row =>
        row.key ∉ expiredContributions horizon limit state.contributions } := by
  have hwithin (day : Day) (hday : ¬ day < horizon) : state.expired day = false := by
    unfold HistoryState.expired
    cases hheld : state.retentionBeforeDay with
    | none => rfl
    | some held =>
      have hday : held ≤ day := Nat.le_trans (hhorizon held hheld) (Nat.not_lt.mp hday)
      simpa using hday
  have hitems (kind : Kind) (grain : Grain) (hgrain : ¬ grain.day < horizon) :
      group ContributionRow.grain (countedOf kind (state.contributions.filter fun row =>
        row.key ∉ expiredContributions horizon limit state.contributions)) grain =
        group ContributionRow.grain (countedOf kind state.contributions) grain := by
    unfold group countedOf
    rw [List.filter_filter, List.filter_filter, List.filter_filter]
    refine List.filter_congr fun row hrow => ?_
    by_cases hsame : row.grain = grain
    · have heq : row.day = grain.day := congrArg Grain.day hsame
      have hday : horizon ≤ row.day := heq ▸ Nat.not_lt.mp hgrain
      simp [hsame, h.kept_receipt hrow hday]
    · simp [hsame]
  have htable (kind : Kind) (deleted : List Grain) (hdeleted : ∀ grain ∈ deleted, grain.day < horizon) :
      HoldsTotals ContributionRow.grain (fun receipt => receipt.payload.measure) DailyTotals.measure
        (fun grain => ¬ grain.day < horizon) ((state.daily kind).filter fun row => row.1 ∉ deleted)
        (countedOf kind (state.contributions.filter fun row =>
          row.key ∉ expiredContributions horizon limit state.contributions)) := by
    refine (h.totals kind).forget (fun grain => hwithin grain.day) (fun grain hgrain => ?_) (hitems kind)
    have hkept : grain ∉ deleted := fun hin => hgrain (hdeleted grain hin)
    have hlookup := lookup_filter_key (fun grain : Grain => decide (grain ∉ deleted)) (state.daily kind) grain
    simpa [hkept] using hlookup
  refine ⟨h.keys.sublist (List.filter_sublist.map _), fun kind => ?_, fun kind => ?_⟩
  · cases kind
    · exact h.filter_unique .attempt _
    · exact h.filter_unique .terminal _
  · cases kind
    · intro grain hgrain
      exact htable .attempt attempts hattempts grain (by simpa [HistoryState.expired] using hgrain)
    · intro grain hgrain
      exact htable .terminal requests hrequests grain (by simpa [HistoryState.expired] using hgrain)

/-- Deleting old receipts is sound. -/
theorem Sound.deleteOlderThan (h : Sound state) {clock : TxClock} {cutoff : Time} {limit : Nat} {rowOrder : Grain → Nat}
    {next : HistoryState Hash} {deleted : Nat}
    (hok : deleteOlderThan clock cutoff limit rowOrder state = .ok (next, deleted)) : Sound next := by
  unfold History.deleteOlderThan at hok
  obtain ⟨rfl, -⟩ := Prod.mk.inj (ok_of_boundUsageBatch hok)
  refine h.retain (fun held hheld => ?_) _ (fun grain => expired_of_mem) fun grain => expired_of_mem
  rw [hheld]
  exact Nat.le_max_left ..

/-- Deleting detail is sound. -/
theorem Sound.deleteDetail (h : Sound state) {clock : TxClock} {cutoff : Time} {limit : Nat}
    {next : HistoryState Hash} {deleted : Nat} (hok : deleteDetail clock cutoff limit state = .ok (next, deleted)) :
    Sound next := by
  unfold History.deleteDetail at hok
  obtain ⟨rfl, -⟩ := Prod.mk.inj (ok_of_boundUsageBatch hok)
  exact h.aside rfl rfl rfl

end Transactions

/-- What a transaction keeps when it commits, it keeps. -/
theorem committed_rule {motive : HistoryState Hash → Prop} {Result : Type} (h : motive state)
    {outcome : Except HistoryError (HistoryState Hash × Result)}
    (hok : ∀ next result, outcome = .ok (next, result) → motive next) : motive (committed state outcome) := by
  unfold committed
  split
  · next result => exact hok result.1 result.2 rfl
  · exact h

/-- The history is sound at the start. -/
theorem sound_initial (records : List UsageRecord) (terminals : List UsageRequestTerminal) (usageDaily : List Day) :
    Sound (initial records terminals usageDaily : HistoryState Hash) := by
  refine ⟨List.nodup_nil, fun kind => ?_, fun kind => ?_⟩
  · cases kind <;> exact List.nodup_nil
  · cases kind <;> exact fun grain _ => rfl

section Promise

/-- A sum of measures is summed measure by measure. -/
theorem sum_measure (rows : List (ContributionRow Hash)) (measure : Measure) :
    (rows.map fun receipt => receipt.payload.measure).sum measure =
      (rows.map fun receipt => receipt.payload.measure measure).sum := by
  induction rows with
  | nil => rfl
  | cons row rest ih =>
    rw [List.map_cons, List.map_cons, List.sum_cons, List.sum_cons, Pi.add_apply, ih]

/-- The invariant, said of the receipts. -/
theorem Sound.receipts_total (h : Sound state) (kind : Kind) {grain : Grain} (hday : state.expired grain.day = false) :
    ((state.daily kind).lookup grain).map DailyTotals.measure =
      if receiptsOf state kind grain = [] then none
      else some ((receiptsOf state kind grain).map fun receipt => receipt.payload.measure).sum :=
  h.totals kind grain hday

/-- The invariant, row by row. -/
theorem Sound.totalsEqual (h : Sound state) (kind : Kind) : TotalsEqual state kind := by
  refine ⟨h.unique kind, fun row hrow hday => ?_, fun grain hday hreceipts => ?_⟩
  · have hlookup := (mem_iff_lookup (h.unique kind) row).mp hrow
    have htotal := h.receipts_total kind hday
    rw [hlookup, Option.map_some] at htotal
    have hreceipts : receiptsOf state kind row.1 ≠ [] := by
      intro hnone
      simp [hnone] at htotal
    rw [if_neg hreceipts, Option.some.injEq] at htotal
    exact ⟨hreceipts, fun measure => by rw [htotal, sum_measure]⟩
  · have htotal := h.receipts_total kind hday
    rw [if_neg hreceipts] at htotal
    obtain ⟨totals, hlookup, -⟩ := Option.map_eq_some_iff.mp htotal
    exact ⟨(grain, totals), (mem_iff_lookup (h.unique kind) _).mpr hlookup, rfl⟩

/-- Rebuilding a day changes no measure of any daily row. -/
theorem Sound.rollup_measures (h : Sound state) (clock : TxClock) (instant : Time) (kind : Kind) (grain : Grain) :
    (((History.rollupDay clock instant state).1.daily kind).lookup grain).map DailyTotals.measure =
      ((state.daily kind).lookup grain).map DailyTotals.measure := by
  have hafter := (h.rollupDay clock instant).totals kind grain
  unfold History.rollupDay at hafter ⊢
  dsimp only at hafter ⊢
  split at hafter
  · next hskip => rw [if_pos hskip]
  · next hday =>
    rw [if_neg hday]
    by_cases hgrain : grain.day = dayOf instant
    · have hwithin : state.expired grain.day = false := by
        rw [hgrain]
        exact Bool.eq_false_iff.mpr (not_or.mp hday).2
      rw [hafter hwithin, h.totals kind grain hwithin]
      rfl
    · rw [applyUsageContributions_daily, lookup_groupUpsert]
      have hgroup := group_filter_day kind (fun day => decide (day = dayOf instant)) state.contributions grain
      rw [if_pos (by simpa [hgrain] using hgroup)]
      have hkeep := lookup_filter_key (fun grain : Grain => decide (grain.day ≠ dayOf instant)) (state.daily kind) grain
      cases kind <;> simpa [hgrain, HistoryState.daily] using congrArg (Option.map DailyTotals.measure) hkeep

end Promise

variable {Hash : Type} {state next : HistoryState Hash} {batch : UsageBatchInsert}

/-- Every row of the batch has its receipt, or is a settled request that is there. -/
structure Receipted (state : HistoryState Hash) (batch : UsageBatchInsert) : Prop where
  attempts : ∀ row ∈ batch.attempts, (state.receipt .attempt row.id).isSome = true
  terminals : ∀ row ∈ batch.terminals, (state.receipt .terminal row.correlationId).isSome = true ∨
    row.correlationId ∈ state.terminals.map UsageRequestTerminal.correlationId

section Keys

/-- An insert that skips conflicts leaves every key there. -/
theorem newRows_covers {Row Key : Type} [DecidableEq Key] {keyOf : Row → Key} (held : List Key) (rows : List Row)
    {row : Row} (hrow : row ∈ rows) : keyOf row ∈ held ∨ keyOf row ∈ (newRows keyOf held rows).map keyOf := by
  induction rows generalizing held with
  | nil => simp at hrow
  | cons first rest ih =>
    rw [newRows]
    rcases List.mem_cons.mp hrow with rfl | hrest
    · split
      · next hheld => exact .inl hheld
      · exact .inr (List.mem_map_of_mem (List.mem_cons_self ..))
    · split
      · exact ih held hrest
      · rw [List.map_cons, List.mem_cons]
        rcases ih (keyOf first :: held) hrest with hin | hin
        · rcases List.mem_cons.mp hin with heq | hheld
          · exact .inr (.inl heq)
          · exact .inl hheld
        · exact .inr (.inr hin)

/-- A key that is there is not inserted again. -/
theorem newRows_eq_nil {Row Key : Type} [DecidableEq Key] {keyOf : Row → Key} {held : List Key} {rows : List Row}
    (h : ∀ row ∈ rows, keyOf row ∈ held) : newRows keyOf held rows = [] := by
  induction rows with
  | nil => rfl
  | cons row rest ih =>
    rw [newRows, if_pos (h row (List.mem_cons_self ..))]
    exact ih fun other hother => h other (List.mem_cons_of_mem _ hother)

/-- An identifier has a receipt exactly when a contribution has its key. -/
theorem receipt_isSome_iff (kind : Kind) (id : Id) :
    (state.receipt kind id).isSome = true ↔ (kind, id) ∈ state.contributions.map ContributionRow.key := by
  simp [HistoryState.receipt, List.find?_isSome, List.mem_map]

/-- Contributions stay when others are inserted, and those that are admitted are there. -/
theorem mem_insertContributions (admitted : List (ContributionRow Hash)) {key : Kind × Id}
    (h : key ∈ state.contributions.map ContributionRow.key ∨ key ∈ admitted.map ContributionRow.key) :
    key ∈ (insertContributions admitted state).contributions.map ContributionRow.key := by
  change key ∈ (state.contributions ++ newRows ContributionRow.key (state.contributions.map ContributionRow.key)
    admitted).map ContributionRow.key
  rw [List.map_append, List.mem_append]
  rcases h with hheld | hadmitted
  · exact .inl hheld
  · obtain ⟨row, hrow, rfl⟩ := List.mem_map.mp hadmitted
    exact newRows_covers _ admitted hrow

end Keys

variable [DecidableEq Hash] {hash : UsagePayload → Hash} {clock : TxClock}

section Admission

variable {Row : Type} {idOf : Row → Id} {hashOf : Row → Hash}

/-- Taking a row in adds its identifier. -/
theorem addUnique_ids {held unique : List Row} {row : Row} (hok : addUnique idOf hashOf held row = .ok unique)
    (id : Id) : id ∈ unique.map idOf ↔ id ∈ held.map idOf ∨ id = idOf row := by
  unfold addUnique at hok
  split at hok
  · next prior hprior =>
    split at hok
    · simp at hok
    · obtain rfl := Except.ok.inj hok
      have hkeys : (held.map fun other => if idOf other = idOf row then row else other).map idOf = held.map idOf := by
        rw [List.map_map]
        refine List.map_congr_left fun other _ => ?_
        simp only [Function.comp_apply]
        split
        · next hsame => exact hsame.symm
        · rfl
      have hheld : idOf row ∈ held.map idOf := by
        have hsame : idOf prior = idOf row := by simpa using List.find?_some hprior
        exact hsame ▸ List.mem_map_of_mem (List.mem_of_find?_eq_some hprior)
      rw [hkeys]
      exact ⟨.inl, fun h => h.elim (fun hin => hin) fun heq => heq ▸ hheld⟩
  · obtain rfl := Except.ok.inj hok
    simp

/-- Looking for unique rows drops no identifier. -/
theorem uniqueRows_ids {rows unique : List Row} (hok : uniqueRows idOf hashOf rows = .ok unique) (id : Id) :
    id ∈ unique.map idOf ↔ id ∈ rows.map idOf := by
  have hfold (rows held : List Row) (hok : rows.foldlM (addUnique idOf hashOf) held = .ok unique) :
      id ∈ unique.map idOf ↔ id ∈ held.map idOf ∨ id ∈ rows.map idOf := by
    induction rows generalizing held with
    | nil =>
      obtain rfl : held = unique := by simpa [pure, Except.pure] using hok
      simp
    | cons row rest ih =>
      rw [List.foldlM_cons] at hok
      cases hrow : addUnique idOf hashOf held row with
      | error error => simp [hrow, bind, Except.bind] at hok
      | ok grown =>
        simp only [hrow, bind, Except.bind] at hok
        rw [ih grown hok, addUnique_ids hrow, List.map_cons, List.mem_cons, or_assoc]
  simpa using hfold rows [] hok

/-- What is admitted has no receipt, and what is not has one. -/
theorem admissible_ok {kind : Kind} {eventAt : Row → Time} {supplied fresh : List Row}
    (hok : admissible state kind idOf hashOf eventAt supplied = .ok fresh) :
    (∀ row ∈ fresh, state.receipt kind (idOf row) = none ∧ idOf row ∈ supplied.map idOf) ∧
      ∀ row ∈ supplied, (state.receipt kind (idOf row)).isSome = true ∨ idOf row ∈ fresh.map idOf := by
  unfold admissible at hok
  cases hunique : uniqueRows idOf hashOf supplied with
  | error error => simp [hunique, bind, Except.bind] at hok
  | ok input =>
    have hids := uniqueRows_ids hunique
    simp only [hunique, bind, Except.bind, pure, Except.pure] at hok
    split at hok
    · simp at hok
    · split at hok
      · simp at hok
      · obtain rfl := Except.ok.inj hok
        refine ⟨fun row hrow => ?_, fun row hrow => ?_⟩
        · obtain ⟨hin, hnone⟩ := List.mem_filter.mp hrow
          exact ⟨by simpa using hnone, (hids _).mp (List.mem_map_of_mem hin)⟩
        · obtain ⟨other, hother, hsame⟩ := List.mem_map.mp ((hids _).mpr (List.mem_map_of_mem hrow))
          cases hreceipt : state.receipt kind (idOf row) with
          | some held => exact .inl rfl
          | none =>
            refine .inr (List.mem_map.mpr ⟨other, List.mem_filter.mpr ⟨hother, ?_⟩, hsame⟩)
            rw [hsame, hreceipt]
            rfl

end Admission

section Batch

/-- A batch that commits admitted its attempts and its settled requests. -/
theorem insertBatch_ok {result : UsageBatchResult} (hok : insertBatch hash clock batch state = .ok (next, result)) :
    ∃ attempts terminals, admissible state .attempt UsageRecordInsert.id (fun row => hash (.supplied row))
        (fun row => row.createdAt.getD clock.dbNow) batch.attempts = .ok attempts ∧
      admissible state .terminal UsageRequestTerminal.correlationId (fun row => hash (.terminal row))
        UsageRequestTerminal.settledAt batch.terminals = .ok terminals ∧
      next = insertContributions (admittedBy hash clock state attempts terminals) { state with
        records := state.records ++ (writtenAttempts state attempts).map (storedRecord clock)
        terminals := state.terminals ++ writtenTerminals state terminals } := by
  unfold insertBatch at hok
  cases hattempts : admissible state .attempt UsageRecordInsert.id (fun row => hash (.supplied row))
      (fun row => row.createdAt.getD clock.dbNow) batch.attempts with
  | error error => simp [hattempts, bind, Except.bind] at hok
  | ok attempts =>
    cases hterminals : admissible state .terminal UsageRequestTerminal.correlationId (fun row => hash (.terminal row))
        UsageRequestTerminal.settledAt batch.terminals with
    | error error => simp [hattempts, hterminals, bind, Except.bind] at hok
    | ok terminals =>
      simp only [hattempts, hterminals, bind, Except.bind, pure, Except.pure, Except.ok.injEq, Prod.mk.injEq] at hok
      exact ⟨attempts, terminals, rfl, rfl, hok.1.symm⟩

theorem Sound.insertBatch (h : Sound state) {result : UsageBatchResult}
    (hok : insertBatch hash clock batch state = .ok (next, result)) : Sound next := by
  obtain ⟨attempts, terminals, -, -, rfl⟩ := insertBatch_ok hok
  refine Sound.insertContributions ?_ _
  exact h.aside rfl rfl rfl

/-- A batch that commits is receipted. -/
theorem receipted_of_committed {result : UsageBatchResult}
    (hok : insertBatch hash clock batch state = .ok (next, result)) : Receipted next batch := by
  obtain ⟨attempts, terminals, hattempts, hterminals, rfl⟩ := insertBatch_ok hok
  obtain ⟨-, hattemptCovered⟩ := admissible_ok hattempts
  obtain ⟨-, hterminalCovered⟩ := admissible_ok hterminals
  refine ⟨fun row hrow => ?_, fun row hrow => ?_⟩
  · rw [receipt_isSome_iff]
    refine mem_insertContributions _ ?_
    rcases hattemptCovered row hrow with hreceipt | hfresh
    · exact .inl ((receipt_isSome_iff ..).mp hreceipt)
    · refine .inr ?_
      obtain ⟨supplied, hsupplied, hid⟩ := List.mem_map.mp hfresh
      have hcovers : supplied.id ∈ state.records.map UsageRecord.id ∨
          supplied.id ∈ (writtenAttempts state attempts).map UsageRecordInsert.id :=
        newRows_covers _ attempts hsupplied
      rw [← hid]
      rcases hcovers with hlegacy | hwritten
      · -- the row of an older writer stands in its place
        obtain ⟨record, hrecord, heq⟩ := List.mem_map.mp hlegacy
        rw [← heq]
        have hin : record ∈ legacyRecords state attempts :=
          List.mem_filter.mpr ⟨hrecord, by simpa [heq] using ⟨supplied, hsupplied, rfl⟩⟩
        simp only [admittedBy, List.map_append, List.map_map, List.mem_append]
        exact .inl (.inr (List.mem_map.mpr ⟨record, hin, rfl⟩))
      · obtain ⟨written, hin, heq⟩ := List.mem_map.mp hwritten
        rw [← heq]
        simp only [admittedBy, List.map_append, List.map_map, List.mem_append]
        exact .inl (.inl (List.mem_map.mpr ⟨written, hin, rfl⟩))
  · rcases hterminalCovered row hrow with hreceipt | hfresh
    · exact .inl ((receipt_isSome_iff ..).mpr (mem_insertContributions _ (.inl ((receipt_isSome_iff ..).mp hreceipt))))
    · obtain ⟨supplied, hsupplied, hid⟩ := List.mem_map.mp hfresh
      refine .inr ?_
      rw [← hid]
      change _ ∈ (state.terminals ++ writtenTerminals state terminals).map UsageRequestTerminal.correlationId
      rw [List.map_append, List.mem_append]
      exact newRows_covers (state.terminals.map UsageRequestTerminal.correlationId) terminals hsupplied

/-- A batch that is receipted changes nothing. -/
theorem step_receipted (h : Receipted state batch) : step hash state (.insertBatch clock batch) = state := by
  change committed state (insertBatch hash clock batch state) = state
  cases hok : insertBatch hash clock batch state with
  | error error => rfl
  | ok outcome =>
    obtain ⟨attempts, terminals, hattempts, hterminals, hnext⟩ := insertBatch_ok hok
    obtain ⟨hattemptFresh, -⟩ := admissible_ok hattempts
    obtain ⟨hterminalFresh, -⟩ := admissible_ok hterminals
    have hnone : attempts = [] := by
      refine List.eq_nil_iff_forall_not_mem.mpr fun row hrow => ?_
      obtain ⟨hreceipt, hsupplied⟩ := hattemptFresh row hrow
      obtain ⟨supplied, hin, hid⟩ := List.mem_map.mp hsupplied
      have hsome := h.attempts supplied hin
      rw [hid, hreceipt] at hsome
      simp at hsome
    have hthere : writtenTerminals state terminals = [] := by
      refine newRows_eq_nil fun row hrow => ?_
      obtain ⟨hreceipt, hsupplied⟩ := hterminalFresh row hrow
      obtain ⟨supplied, hin, hid⟩ := List.mem_map.mp hsupplied
      rcases h.terminals supplied hin with hsome | hthere
      · rw [hid, hreceipt] at hsome
        simp at hsome
      · exact hid ▸ hthere
    have hlegacy : legacyRecords state [] = [] := by simp [legacyRecords]
    have hadmitted : admittedBy hash clock state attempts terminals = [] := by
      simp [admittedBy, hthere, hnone, hlegacy, writtenAttempts, newRows]
    have hwritten : writtenAttempts state attempts = [] := by simp [hnone, writtenAttempts, newRows]
    change outcome.1 = state
    rw [hnext, hadmitted, hthere, hwritten]
    simp [insertContributions, newRows, applyUsageContributions, applyKind, HistoryState.setDaily, HistoryState.daily,
      groupUpsert, countedOf]

end Batch

section Runs

/-- Every transaction keeps the invariant. -/
theorem Sound.step (h : Sound state) (event : HistoryEvent) : Sound (step hash state event) := by
  cases event with
  | insertBatch clock batch => exact committed_rule h fun _ _ hok => h.insertBatch hok
  | backfill after limit => exact committed_rule h fun _ _ hok => h.backfill hok
  | rollupDay clock instant => exact h.rollupDay clock instant
  | deleteOlderThan clock cutoff limit rowOrder => exact committed_rule h fun _ _ hok => h.deleteOlderThan hok
  | deleteDetail clock cutoff limit => exact committed_rule h fun _ _ hok => h.deleteDetail hok

/-- The history is sound after every run. -/
theorem sound_run (hash : UsagePayload → Hash) (records : List UsageRecord) (terminals : List UsageRequestTerminal)
    (usageDaily : List Day) (events : List HistoryEvent) :
    Sound (run hash (initial records terminals usageDaily) events) :=
  runFrom_invariant Sound (fun _ event h => h.step event) events _ (sound_initial records terminals usageDaily)

end Runs

/-- What the history promises of a state: each identifier has one contribution and the daily tables equal their
receipts; so rebuilding a day changes no measure, and a batch that commits is receipted and changes nothing a second
time. -/
structure Promise (hash : UsagePayload → Hash) (state : HistoryState Hash) : Prop where
  receipts : (state.contributions.map ContributionRow.key).Nodup
  totals : ∀ kind, TotalsEqual state kind
  rollup : ∀ clock instant kind grain,
    (((rollupDay clock instant state).1.daily kind).lookup grain).map DailyTotals.measure =
      ((state.daily kind).lookup grain).map DailyTotals.measure
  committed : ∀ clock batch next result, insertBatch hash clock batch state = .ok (next, result) → Receipted next batch
  repeated : ∀ clock batch, Receipted state batch → step hash state (.insertBatch clock batch) = state
  refused : ∀ clock batch error, insertBatch hash clock batch state = .error error →
    step hash state (.insertBatch clock batch) = state

/-- Every state that transactions reach, in whatever order they take the lock, keeps the promise. -/
theorem daily_totals_equal_receipts (hash : UsagePayload → Hash) (records : List UsageRecord)
    (terminals : List UsageRequestTerminal) (usageDaily : List Day) (events : List HistoryEvent) :
    Promise hash (run hash (initial records terminals usageDaily) events) := by
  have h := sound_run hash records terminals usageDaily events
  refine ⟨h.keys, h.totalsEqual, h.rollup_measures, fun _ _ _ _ hok => receipted_of_committed hok,
    fun _ _ => step_receipted, fun clock batch error herror => ?_⟩
  change committed _ (insertBatch hash clock batch _) = _
  rw [herror]
  rfl

end MultiAiRouter.Usage.History
