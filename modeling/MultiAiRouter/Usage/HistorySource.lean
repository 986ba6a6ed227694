import Mathlib.Algebra.Order.Floor.Ring
import Mathlib.Data.Int.Order.Lemmas
import MultiAiRouter.Usage.HistoryTotals

/-!
# What a history read counts

A read takes whole days from the daily tables and the edges of its window from the receipts; an hourly read takes the
receipts throughout.
-/

namespace MultiAiRouter.Usage.History

open Common

/-- A window of time; its end is not in it. -/
structure UsageWindow where
  fromMs : ℤ
  toMs : ℤ
  deriving DecidableEq

/-- Which facts a read counts: a dimension without a list is not filtered. -/
structure UsageFilter where
  apiKeyIds : Option (List Id) := none
  accountIds : Option (List Id) := none
  poolIds : Option (List Id) := none
  models : Option (List Nat) := none
  deriving DecidableEq

/-- What a fact is grouped by: the day it falls on, and what it is about. -/
structure FactGrain where
  day : ℤ
  apiKeyId : Option Id
  accountId : Option Id
  poolId : Option Id
  model : Option Nat
  deriving DecidableEq

/-- A row of the source. -/
structure Fact where
  eventAt : ℤ
  apiKeyId : Option Id
  accountId : Option Id
  poolId : Option Id
  model : Option Nat
  measure : Measure → Int
  unpriced : Option Int

/-- A row of the older daily table, which carries no basis. -/
structure UsageDailyRow where
  day : Day
  apiKeyId : Option Id
  accountId : Option Id
  poolId : Option Id
  model : Option Nat
  measure : Measure → Int

def dayMs : ℤ := 86400000

/-- `Math.ceil` of a time in days. -/
def ceilDay (instant : ℤ) : ℤ := -(-instant / dayMs)

def floorDay (instant : ℤ) : ℤ := instant / dayMs

namespace UsageWindow

/-- The first whole day, and the day after the last one. -/
def first (window : UsageWindow) : ℤ := ceilDay window.fromMs

def stop (window : UsageWindow) : ℤ := floorDay window.toMs

/-- The first and the last day an instant of the window can fall on. -/
def startDay (window : UsageWindow) : ℤ := floorDay window.fromMs

def endDay (window : UsageWindow) : ℤ := floorDay (window.toMs - 1)

end UsageWindow

/-- No list admits a missing value. -/
def listed {Value : Type} [DecidableEq Value] (list : Option (List Value)) (value : Option Value) : Bool :=
  list.all fun values => value.any fun held => decide (held ∈ values)

def UsageFilter.admits (filter : UsageFilter) (apiKeyId accountId poolId : Option Id) (model : Option Nat) : Bool :=
  listed filter.apiKeyIds apiKeyId && listed filter.accountIds accountId && listed filter.poolIds poolId &&
    listed filter.models model

variable {Hash : Type}

/-- What a whole day is read under: a whole day of the window, not before the horizon. -/
def wholeDay (state : HistoryState Hash) (window : UsageWindow) (day : Day) : Bool :=
  decide (window.first ≤ day) && decide ((day : ℤ) < window.stop) && !state.expired day

/-- The row's facts stand at the beginning of its day. -/
def dailyFact (unpriced : Option Int) (row : Grain × DailyTotals) : Fact where
  eventAt := row.1.day * dayMs
  apiKeyId := row.1.apiKeyId
  accountId := row.1.accountId
  poolId := row.1.poolId
  model := row.1.model
  measure := row.2.measure
  unpriced := unpriced

/-- The unpriced attempts of a day are read only from the first measured day on. -/
def measuredSince (since : Option Day) (day : Day) (value : Option Int) : Option Int :=
  if since.any fun first => decide (first ≤ day) then value else none

/-- A receipt as a fact. -/
def receiptFact (since : Option Day) (row : ContributionRow Hash) : Fact where
  eventAt := row.payload.eventAt
  apiKeyId := row.payload.apiKeyId
  accountId := row.payload.accountId
  poolId := row.payload.poolId
  model := row.payload.model
  measure := row.payload.measure
  unpriced := measuredSince since row.day row.payload.unpricedAttempts

/-- The rows of the older daily table on the whole days. -/
def usageDailyFacts (state : HistoryState Hash) (usageDaily : List UsageDailyRow) (window : UsageWindow)
    (filter : UsageFilter) : List Fact :=
  (usageDaily.filter fun row =>
    wholeDay state window row.day && filter.admits row.apiKeyId row.accountId row.poolId row.model).map fun row =>
      { eventAt := row.day * dayMs, apiKeyId := row.apiKeyId, accountId := row.accountId, poolId := row.poolId
        model := row.model, measure := row.measure, unpriced := none }

/-- The rows of the daily table of a kind on the whole days. -/
def dailyFacts (state : HistoryState Hash) (kind : Kind) (since : Option Day) (window : UsageWindow)
    (filter : UsageFilter) : List Fact :=
  ((state.daily kind).filter fun row =>
    wholeDay state window row.1.day &&
      filter.admits row.1.apiKeyId row.1.accountId row.1.poolId row.1.model).map fun row =>
    dailyFact (if kind = .attempt then measuredSince since row.1.day row.2.unpriced else none) row

/-- The receipts a read takes: all of the window, or only those on no whole day. -/
def receiptReads (state : HistoryState Hash) (window : UsageWindow) (hourly : Bool) (filter : UsageFilter)
    (row : ContributionRow Hash) : Bool :=
  row.source.counts && !state.expired row.day &&
    decide (window.startDay ≤ row.day) && decide ((row.day : ℤ) ≤ window.endDay) &&
    decide (window.fromMs ≤ row.payload.eventAt) && decide ((row.payload.eventAt : ℤ) < window.toMs) &&
    (hourly || decide ((row.day : ℤ) < window.first) || decide (window.stop ≤ row.day)) &&
    filter.admits row.payload.apiKeyId row.payload.accountId row.payload.poolId row.payload.model

/-- The rows of a read; `since` is the first day the unpriced attempts are measured on. -/
def historySource (state : HistoryState Hash) (usageDaily : List UsageDailyRow) (since : Option Day)
    (window : UsageWindow) (hourly : Bool) (filter : UsageFilter) : List Fact :=
  (if hourly then []
    else usageDailyFacts state usageDaily window filter ++ dailyFacts state .terminal since window filter ++
      dailyFacts state .attempt since window filter) ++
    (state.contributions.filter (receiptReads state window hourly filter)).map (receiptFact since)

def Fact.grain (fact : Fact) : FactGrain where
  day := floorDay fact.eventAt
  apiKeyId := fact.apiKeyId
  accountId := fact.accountId
  poolId := fact.poolId
  model := fact.model

/-- The total of a measure over the facts whose grain is asked for. -/
def totalOf (facts : List Fact) (asked : FactGrain → Bool) (measure : Measure) : Int :=
  ((facts.filter fun fact => asked fact.grain).map fun fact => fact.measure measure).sum

/-- A receipt that counts in the window: of a source that counts, from the horizon on, with its time in the window, and
admitted by the filter. -/
def countsIn (state : HistoryState Hash) (window : UsageWindow) (filter : UsageFilter) (row : ContributionRow Hash) :
    Bool :=
  row.source.counts && !state.expired row.day && decide (window.fromMs ≤ row.payload.eventAt) &&
    decide ((row.payload.eventAt : ℤ) < window.toMs) &&
    filter.admits row.payload.apiKeyId row.payload.accountId row.payload.poolId row.payload.model

/-- The grain of a receipt among the facts. -/
def ContributionRow.factGrain (row : ContributionRow Hash) : FactGrain where
  day := floorDay row.payload.eventAt
  apiKeyId := row.payload.apiKeyId
  accountId := row.payload.accountId
  poolId := row.payload.poolId
  model := row.payload.model

section Days

variable {instant : ℤ} {day : ℤ} {window : UsageWindow}

theorem floorDay_mul (day : ℤ) : floorDay (day * dayMs) = day := Int.mul_ediv_cancel day (by decide)

/-- A day is a whole one exactly when both its ends are in the window. -/
theorem wholeDay_iff : window.first ≤ day ∧ day < window.stop ↔
    window.fromMs ≤ day * dayMs ∧ (day + 1) * dayMs ≤ window.toMs := by
  unfold UsageWindow.first UsageWindow.stop ceilDay floorDay dayMs
  omega

/-- An instant of the window is on one of its days. -/
theorem dayOf_within (hfrom : window.fromMs ≤ instant) (hto : instant < window.toMs) :
    window.startDay ≤ floorDay instant ∧ floorDay instant ≤ window.endDay := by
  unfold UsageWindow.startDay UsageWindow.endDay floorDay dayMs
  omega

/-- An instant of a whole day is in the window, and so is the day. -/
theorem within_of_wholeDay (hfirst : window.first ≤ floorDay instant) (hstop : floorDay instant < window.stop) :
    window.fromMs ≤ instant ∧ instant < window.toMs := by
  unfold UsageWindow.first UsageWindow.stop ceilDay floorDay dayMs at *
  omega

theorem floorDay_eq_dayOf (instant : Time) : floorDay instant = (dayOf instant : ℤ) := rfl

end Days

section Totals

variable {state : HistoryState Hash} {window : UsageWindow} {filter : UsageFilter} {since : Option Day}
  {usageDaily : List UsageDailyRow} {asked : FactGrain → Bool} {measure : Measure}

theorem totalOf_append (first second : List Fact) :
    totalOf (first ++ second) asked measure = totalOf first asked measure + totalOf second asked measure := by
  rw [totalOf, List.filter_append, List.map_append, List.sum_append, totalOf, totalOf]

/-- The sum over the receipts that are chosen. -/
def receiptSum (state : HistoryState Hash) (chosen : ContributionRow Hash → Bool) (measure : Measure) : Int :=
  (state.contributions.map fun row => if chosen row then row.payload.measure measure else 0).sum

/-- What is not chosen weighs nothing. -/
theorem sum_filter_eq {Item : Type} (items : List Item) (chosen : Item → Bool) (weight : Item → Int) :
    ((items.filter chosen).map weight).sum = (items.map fun item => if chosen item then weight item else 0).sum := by
  induction items with
  | nil => rfl
  | cons item rest ih =>
    rw [List.filter_cons, List.map_cons, List.sum_cons, ← ih]
    split
    · rw [List.map_cons, List.sum_cons]
    · rw [zero_add]

/-- The total of receipts that are read as facts. -/
theorem totalOf_receipts (reads : ContributionRow Hash → Bool) :
    totalOf ((state.contributions.filter reads).map (receiptFact since)) asked measure =
      receiptSum state (fun row => asked row.factGrain && reads row) measure := by
  rw [totalOf, List.filter_map, List.map_map, List.filter_filter, receiptSum, ← sum_filter_eq]
  rfl

/-- The grain of a daily row among the facts. -/
def Grain.factGrain (grain : Grain) : FactGrain where
  day := grain.day
  apiKeyId := grain.apiKeyId
  accountId := grain.accountId
  poolId := grain.poolId
  model := grain.model

/-- The daily row is read, and its grain is asked for. -/
def readsDaily (state : HistoryState Hash) (window : UsageWindow) (filter : UsageFilter) (asked : FactGrain → Bool)
    (grain : Grain) : Bool :=
  asked grain.factGrain && (wholeDay state window grain.day &&
    filter.admits grain.apiKeyId grain.accountId grain.poolId grain.model)

/-- The total of the daily rows of a kind is that of the receipts they add up. -/
theorem totalOf_daily (kind : Kind) (h : TotalsEqual state kind) :
    totalOf (dailyFacts state kind since window filter) asked measure =
      receiptSum state (fun row => readsDaily state window filter asked row.grain &&
        (decide (row.kind = kind) && row.source.counts)) measure := by
  have hrows : totalOf (dailyFacts state kind since window filter) asked measure =
      (((state.daily kind).filter fun row => readsDaily state window filter asked row.1).map fun row =>
        row.2.measure measure).sum := by
    rw [totalOf, dailyFacts, List.filter_map, List.map_map, List.filter_filter]
    simp only [Function.comp_def, Fact.grain, dailyFact, floorDay_mul]
    rfl
  have hreceipts : (((state.daily kind).filter fun row => readsDaily state window filter asked row.1).map fun row =>
      row.2.measure measure) = ((state.daily kind).filter fun row => readsDaily state window filter asked row.1).map
        fun row => ((receiptsOf state kind row.1).map fun receipt => receipt.payload.measure measure).sum := by
    apply List.map_congr_left
    intro row hrow
    obtain ⟨hmem, hreads⟩ := List.mem_filter.mp hrow
    have hwithin : state.expired row.1.day = false := by
      simp only [readsDaily, wholeDay, Bool.and_eq_true, Bool.not_eq_true'] at hreads
      exact hreads.2.1.2
    exact (h.total row hmem hwithin).2 measure
  have hpresent : ∀ receipt ∈ countedOf kind state.contributions,
      readsDaily state window filter asked receipt.grain = true →
        receipt.grain ∈ (state.daily kind).map Prod.fst := by
    intro receipt hreceipt hreads
    have hwithin : state.expired receipt.grain.day = false := by
      simp only [readsDaily, wholeDay, Bool.and_eq_true, Bool.not_eq_true'] at hreads
      exact hreads.2.1.2
    have hnonempty : receiptsOf state kind receipt.grain ≠ [] :=
      List.ne_nil_of_mem (List.mem_filter.mpr ⟨hreceipt, decide_eq_true rfl⟩)
    obtain ⟨row, hrow, hgrain⟩ := h.present receipt.grain hwithin hnonempty
    exact List.mem_map.mpr ⟨row, hrow, hgrain⟩
  rw [hrows, hreceipts]
  rw [receiptSum, ← sum_filter_eq]
  refine Eq.trans (sum_groups h.unique (readsDaily state window filter asked) hpresent) ?_
  rw [countedOf, List.filter_filter]

/-- Where the older table has no row on the window's days, none is read. -/
theorem usageDailyFacts_eq_nil
    (h : ∀ row ∈ usageDaily, ¬ (window.startDay ≤ row.day ∧ (row.day : ℤ) ≤ window.endDay)) :
    usageDailyFacts state usageDaily window filter = [] := by
  rw [usageDailyFacts, List.map_eq_nil_iff, List.filter_eq_nil_iff]
  intro row hrow hreads
  simp only [wholeDay, Bool.and_eq_true, decide_eq_true_eq] at hreads
  obtain ⟨hfrom, hto⟩ := wholeDay_iff.mp hreads.1.1
  have hday := @dayOf_within (row.day * dayMs) window hfrom (by unfold dayMs at *; omega)
  rw [floorDay_mul] at hday
  exact h row hrow hday

variable {row : ContributionRow Hash}

/-- The bounds on the days of the receipts leave out none that counts. -/
theorem receiptReads_eq (hday : row.day = dayOf row.payload.eventAt) (hourly : Bool) :
    receiptReads state window hourly filter row = (countsIn state window filter row &&
      (hourly || decide ((row.day : ℤ) < window.first) || decide (window.stop ≤ row.day))) := by
  have hfloor : (row.day : ℤ) = floorDay row.payload.eventAt := by rw [hday, floorDay_eq_dayOf]
  by_cases hwithin : window.fromMs ≤ row.payload.eventAt ∧ (row.payload.eventAt : ℤ) < window.toMs
  · obtain ⟨hstart, hend⟩ := dayOf_within hwithin.1 hwithin.2
    rw [← hfloor] at hstart hend
    simp only [receiptReads, countsIn, hstart, hend, hwithin.1, hwithin.2, decide_true, Bool.and_true]
    cases filter.admits row.payload.apiKeyId row.payload.accountId row.payload.poolId row.payload.model <;> simp
  · have hnot : (decide (window.fromMs ≤ row.payload.eventAt) && decide ((row.payload.eventAt : ℤ) < window.toMs)) =
        false := by
      rw [← Bool.decide_and]
      exact decide_eq_false hwithin
    rcases Bool.and_eq_false_iff.mp hnot with hfrom | hto
    · simp [receiptReads, countsIn, hfrom]
    · simp [receiptReads, countsIn, hto]

/-- A grain is read where its facts are. -/
theorem readsDaily_grain (hday : row.day = dayOf row.payload.eventAt) :
    readsDaily state window filter asked row.grain = (asked row.factGrain && (wholeDay state window row.day &&
      filter.admits row.payload.apiKeyId row.payload.accountId row.payload.poolId row.payload.model)) := by
  have hgrain : row.grain.factGrain = row.factGrain := by
    rw [Grain.factGrain, ContributionRow.factGrain, floorDay_eq_dayOf, ← hday]
    rfl
  rw [readsDaily, hgrain]
  rfl

/-- A receipt is read once: in the daily row of its kind on a whole day, as a receipt on any other. -/
theorem reads_once (hday : row.day = dayOf row.payload.eventAt) (amount : Int) :
    (if readsDaily state window filter asked row.grain && (decide (row.kind = .terminal) && row.source.counts)
      then amount else 0) +
    (if readsDaily state window filter asked row.grain && (decide (row.kind = .attempt) && row.source.counts)
      then amount else 0) +
    (if asked row.factGrain && receiptReads state window false filter row then amount else 0) =
      if asked row.factGrain && countsIn state window filter row then amount else 0 := by
  have hfloor : (row.day : ℤ) = floorDay row.payload.eventAt := by rw [hday, floorDay_eq_dayOf]
  rw [readsDaily_grain hday, receiptReads_eq hday]
  cases asked row.factGrain with
  | false => simp
  | true =>
    by_cases hwhole : window.first ≤ row.day ∧ (row.day : ℤ) < window.stop
    · have hwithin := within_of_wholeDay (hfloor ▸ hwhole.1) (hfloor ▸ hwhole.2)
      have hbefore : ¬ (row.day : ℤ) < window.first := Int.not_lt.mpr hwhole.1
      have hafter : ¬ window.stop ≤ (row.day : ℤ) := Int.not_le.mpr hwhole.2
      simp only [wholeDay, countsIn, hwhole.1, hwhole.2, hwithin.1, hwithin.2, hbefore, hafter, decide_true,
        decide_false, Bool.true_and, Bool.and_true, Bool.or_false, Bool.and_false]
      cases row.kind <;> cases row.source.counts <;> simp
    · have hedge : (decide ((row.day : ℤ) < window.first) || decide (window.stop ≤ row.day)) = true := by
        rw [← Bool.decide_or, decide_eq_true_eq]
        omega
      have hnot : wholeDay state window row.day = false := by
        rw [wholeDay, ← Bool.decide_and, decide_eq_false hwhole, Bool.false_and]
      rw [hnot, Bool.false_or, hedge]
      simp

/-- Where the daily tables equal the sums of their receipts and no row of the older table is on the window's days, a
read of whole days from the tables and a read of the receipts alone have one total of every measure over any grains,
that of exactly the receipts that count in the window. -/
theorem history_reads_count_once (state : HistoryState Hash) (usageDaily : List UsageDailyRow) (since : Option Day)
    (window : UsageWindow) (filter : UsageFilter) (htotals : ∀ kind, TotalsEqual state kind)
    (hdays : ∀ row ∈ state.contributions, row.day = dayOf row.payload.eventAt)
    (hdaily : ∀ row ∈ usageDaily, ¬ (window.startDay ≤ row.day ∧ (row.day : ℤ) ≤ window.endDay))
    (asked : FactGrain → Bool) (measure : Measure) :
    totalOf (historySource state usageDaily since window false filter) asked measure =
        totalOf (historySource state usageDaily since window true filter) asked measure ∧
      totalOf (historySource state usageDaily since window true filter) asked measure =
        ((state.contributions.filter fun row => asked row.factGrain && countsIn state window filter row).map fun row =>
          row.payload.measure measure).sum := by
  have hhourly : totalOf (historySource state usageDaily since window true filter) asked measure =
      receiptSum state (fun row => asked row.factGrain && countsIn state window filter row) measure := by
    rw [historySource, if_pos rfl, List.nil_append, totalOf_receipts]
    unfold receiptSum
    congr 1
    apply List.map_congr_left
    intro row hrow
    simp only [receiptReads_eq (hdays row hrow), Bool.true_or, Bool.and_true]
  refine ⟨?_, by rw [hhourly, receiptSum, ← sum_filter_eq]⟩
  rw [hhourly, historySource, if_neg Bool.false_ne_true, usageDailyFacts_eq_nil hdaily, List.nil_append,
    totalOf_append, totalOf_append, totalOf_daily .terminal (htotals .terminal),
    totalOf_daily .attempt (htotals .attempt),
    totalOf_receipts]
  unfold receiptSum
  rw [← List.sum_map_add, ← List.sum_map_add]
  congr 1
  apply List.map_congr_left
  intro row hrow
  exact reads_once (hdays row hrow) (row.payload.measure measure)

/-- The history after one attempt at noon of the first day. -/
def oneAttempt : HistoryState Unit :=
  run (fun _ => ()) (initial [] [] []) [.insertBatch { started := 43200000, dbNow := 43200000, wroteAt := 43200000 }
    { attempts :=
        [{ id := 1
           createdAt := some 43200000
           facts :=
            { correlationId := 1, apiKeyId := some 1, accountId := some 1, poolId := none, model := some 1,
              tokensIn := 3
              tokensOut := 4, cacheReadTokens := 0, cacheWriteTokens := 0, costEstimate := none, costBasis := .metered
              success := true, detail := 0 } }]
      terminals := [] }]

/-- A window of one whole day and one millisecond more. -/
theorem history_reads_count_once_day :
    totalOf (historySource oneAttempt [] none ⟨0, 86400001⟩ false {}) (fun _ => true) .tokensIn =
      totalOf (historySource oneAttempt [] none ⟨0, 86400001⟩ true {}) (fun _ => true) .tokensIn :=
  (history_reads_count_once oneAttempt [] none ⟨0, 86400001⟩ {} (sound_run _ _ _ _ _).totalsEqual
    (by decide) (by decide)
    (fun _ => true) .tokensIn).1

end Totals

end MultiAiRouter.Usage.History
