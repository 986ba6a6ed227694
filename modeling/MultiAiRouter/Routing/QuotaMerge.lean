import MultiAiRouter.Routing.Quota

/-!
# Folding quota readings in any order

Replicas, overlays and pending writers fold the same readings in different orders and batches. Whatever these are, a
kind ends at the newest clock among its readings, with the greatest utilization and the latest reset known at that
clock.

The advisory mark is not joined: a fold keeps that of the first reading of the newest clock.
-/

namespace MultiAiRouter.Routing

/-- A reading that no store has revised and no recovery has retired. -/
def Unrevised (reading : QuotaWindowState) : Prop :=
  reading.revision = none ∧ retiredEvidence reading = false

/-- How readings were folded together: from nothing, batch by batch, or one fold over another. -/
inductive Folding
  | empty
  | batch (held : Folding) (incoming : Option (List QuotaWindowState))
  | overlay (held incoming : Folding)

namespace Folding

/-- The readings that went in. -/
def readings : Folding → List QuotaWindowState
  | empty => []
  | batch held incoming => held.readings ++ incoming.getD []
  | overlay held incoming => held.readings ++ incoming.readings

/-- The windows that came out. -/
def windows : Folding → List QuotaWindowState
  | empty => []
  | batch held incoming => mergeQuotaWindows held.windows incoming
  | overlay held incoming => mergeQuotaWindows held.windows (some incoming.windows)

end Folding

section Restrictive

variable {Fact : Type*} [LinearOrder Fact] {fact : QuotaWindowState → Option Fact}
  {first second : QuotaWindowState → Prop} {held incoming : Option Fact}

/-- The known fact is stated by one of the readings and no reading of them states a greater one. -/
structure MostRestrictive (fact : QuotaWindowState → Option Fact) (among : QuotaWindowState → Prop)
    (known : Option Fact) : Prop where
  stated : ∀ value, known = some value → ∃ reading, among reading ∧ fact reading = some value
  bounds : ∀ reading value, among reading → fact reading = some value → ∃ most, known = some most ∧ value ≤ most

/-- The readings alone decide the most restrictive fact. -/
theorem MostRestrictive.unique (hheld : MostRestrictive fact first held)
    (hincoming : MostRestrictive fact first incoming) : held = incoming := by
  refine Option.ext fun value => ⟨fun h => ?_, fun h => ?_⟩
  · obtain ⟨reading, hreading, hvalue⟩ := hheld.stated value h
    obtain ⟨most, hmost, hle⟩ := hincoming.bounds reading value hreading hvalue
    obtain ⟨other, hother, hothervalue⟩ := hincoming.stated most hmost
    obtain ⟨top, htop, hletop⟩ := hheld.bounds other most hother hothervalue
    have htop' : top = value := Option.some.inj (htop.symm.trans h)
    rw [hmost, le_antisymm (htop' ▸ hletop) hle]
  · obtain ⟨reading, hreading, hvalue⟩ := hincoming.stated value h
    obtain ⟨most, hmost, hle⟩ := hheld.bounds reading value hreading hvalue
    obtain ⟨other, hother, hothervalue⟩ := hheld.stated most hmost
    obtain ⟨top, htop, hletop⟩ := hincoming.bounds other most hother hothervalue
    have htop' : top = value := Option.some.inj (htop.symm.trans h)
    rw [hmost, le_antisymm (htop' ▸ hletop) hle]

/-- The most restrictive fact of two sets of readings is the greater one of theirs. -/
theorem MostRestrictive.join (hheld : MostRestrictive fact first held)
    (hincoming : MostRestrictive fact second incoming)
    (greater : Bool) (hgreater : greater = true ↔ ∃ value, incoming = some value ∧ ∀ known, held = some known →
      known < value) :
    MostRestrictive fact (fun reading => first reading ∨ second reading) (if greater then incoming else held) := by
  cases hcase : greater with
  | true =>
    obtain ⟨value, hvalue, hless⟩ := hgreater.mp hcase
    refine ⟨fun stated hstated => ?_, fun reading known hreading hknown => ?_⟩
    · obtain ⟨reading, hreading, hfact⟩ := hincoming.stated stated hstated
      exact ⟨reading, .inr hreading, hfact⟩
    · rcases hreading with hreading | hreading
      · obtain ⟨most, hmost, hle⟩ := hheld.bounds reading known hreading hknown
        exact ⟨value, hvalue, hle.trans (hless most hmost).le⟩
      · exact hincoming.bounds reading known hreading hknown
  | false =>
    have hquiet : ¬ ∃ value, incoming = some value ∧ ∀ known, held = some known → known < value := by
      rw [← hgreater, hcase]
      simp
    refine ⟨fun stated hstated => ?_, fun reading known hreading hknown => ?_⟩
    · obtain ⟨reading, hreading, hfact⟩ := hheld.stated stated hstated
      exact ⟨reading, .inl hreading, hfact⟩
    · rcases hreading with hreading | hreading
      · exact hheld.bounds reading known hreading hknown
      · obtain ⟨most, hmost, hle⟩ := hincoming.bounds reading known hreading hknown
        by_contra hnone
        refine hquiet ⟨most, hmost, fun other hother => ?_⟩
        by_contra hother'
        exact hnone ⟨other, hother, hle.trans (not_lt.mp hother')⟩

end Restrictive

/-- A reading of the kind at the clock. -/
def AtClock (readings : List QuotaWindowState) (kind : QuotaWindowKind) (clock : Instant)
    (reading : QuotaWindowState) : Prop :=
  reading ∈ readings ∧ reading.window = kind ∧ reading.lastCheckedAt = clock

/-- The window states the most restrictive facts of the newest clock among the kind's readings. -/
structure NewestFacts (readings : List QuotaWindowState) (kind : QuotaWindowKind) (window : QuotaWindowState) :
    Prop where
  named : window.window = kind
  clock : ∃ reading, AtClock readings kind window.lastCheckedAt reading
  newest : ∀ reading ∈ readings, reading.window = kind → reading.lastCheckedAt ≤ window.lastCheckedAt
  used : MostRestrictive QuotaWindowState.utilization (AtClock readings kind window.lastCheckedAt) window.utilization
  reset : MostRestrictive QuotaWindowState.resetsAt (AtClock readings kind window.lastCheckedAt) window.resetsAt

/-- What a fold of the readings leaves for a kind: besides the facts, the mark of a newest reading. -/
structure Summary (readings : List QuotaWindowState) (kind : QuotaWindowKind) (window : QuotaWindowState) :
    Prop where
  facts : NewestFacts readings kind window
  unrevised : Unrevised window
  mark : ∃ reading, AtClock readings kind window.lastCheckedAt reading ∧ reading.advisory = window.advisory

section Summary

variable {readings earlier later : List QuotaWindowState} {kind : QuotaWindowKind} {held incoming : QuotaWindowState}

/-- A reading sums itself up. -/
theorem Summary.single (h : Unrevised held) : Summary [held] held.window held where
  facts :=
    { named := rfl
      clock := ⟨held, List.mem_singleton_self held, rfl, rfl⟩
      newest := fun reading hreading _ => by rw [List.mem_singleton.mp hreading]
      used :=
        { stated := fun value hvalue => ⟨held, ⟨List.mem_singleton_self held, rfl, rfl⟩, hvalue⟩
          bounds := fun reading value hreading hvalue =>
            ⟨value, List.mem_singleton.mp hreading.1 ▸ hvalue, le_rfl⟩ }
      reset :=
        { stated := fun value hvalue => ⟨held, ⟨List.mem_singleton_self held, rfl, rfl⟩, hvalue⟩
          bounds := fun reading value hreading hvalue =>
            ⟨value, List.mem_singleton.mp hreading.1 ▸ hvalue, le_rfl⟩ } }
  unrevised := h
  mark := ⟨held, ⟨List.mem_singleton_self held, rfl, rfl⟩, rfl⟩

/-- Readings of older clocks, and readings of other kinds, change nothing. -/
theorem Summary.extend (h : Summary earlier kind held) (hsubset : ∀ reading ∈ earlier, reading ∈ readings)
    (holder : ∀ reading ∈ readings, reading.window = kind →
      reading ∈ earlier ∨ reading.lastCheckedAt < held.lastCheckedAt) : Summary readings kind held := by
  have hclock : AtClock readings kind held.lastCheckedAt = AtClock earlier kind held.lastCheckedAt := by
    funext reading
    refine propext ⟨fun hreading => ⟨?_, hreading.2⟩, fun hreading => ⟨hsubset reading hreading.1, hreading.2⟩⟩
    exact (holder reading hreading.1 hreading.2.1).resolve_right fun hlt => hlt.ne hreading.2.2
  refine ⟨⟨h.facts.named, hclock ▸ h.facts.clock, ?_, hclock ▸ h.facts.used, hclock ▸ h.facts.reset⟩,
    h.unrevised, hclock ▸ h.mark⟩
  intro reading hreading hkind
  rcases holder reading hreading hkind with hearlier | hlt
  · exact h.facts.newest reading hearlier hkind
  · exact hlt.le

/-- Two readings without a revision never differ in it. -/
theorem Unrevised.revisionsDiffer (h : Unrevised held) : revisionsDiffer held incoming = false := by
  simp [Routing.revisionsDiffer, h.1]

theorem Unrevised.mergeRestrictive (h : Unrevised incoming) : Unrevised (mergeRestrictive held incoming) := by
  simp [Unrevised, Routing.mergeRestrictive, h.1, retiredEvidence]

theorem moreUsed_iff : moreUsed held incoming = true ↔
    ∃ value, incoming.utilization = some value ∧ ∀ known, held.utilization = some known → known < value := by
  cases hvalue : incoming.utilization <;> cases hknown : held.utilization <;> simp [moreUsed, hvalue, hknown]

theorem laterReset_iff : laterReset held incoming = true ↔
    ∃ value, incoming.resetsAt = some value ∧ ∀ known, held.resetsAt = some known → known < value := by
  cases hvalue : incoming.resetsAt <;> cases hknown : held.resetsAt <;> simp [laterReset, hvalue, hknown]

/-- At one clock the merge joins the facts, and all else that is compared stays the held window's. -/
theorem mergeQuotaEvidence_equal (hheld : Unrevised held) (hincoming : Unrevised incoming)
    (hclock : held.lastCheckedAt = incoming.lastCheckedAt) :
    (mergeQuotaEvidence held incoming).window = held.window ∧
      (mergeQuotaEvidence held incoming).lastCheckedAt = held.lastCheckedAt ∧
      (mergeQuotaEvidence held incoming).advisory = held.advisory ∧
      Unrevised (mergeQuotaEvidence held incoming) ∧
      (mergeQuotaEvidence held incoming).utilization =
        (if moreUsed held incoming then incoming.utilization else held.utilization) ∧
      (mergeQuotaEvidence held incoming).resetsAt =
        (if laterReset held incoming then incoming.resetsAt else held.resetsAt) := by
  have hmerge : mergeQuotaEvidence held incoming =
      if !moreUsed held incoming && !laterReset held incoming then held else mergeRestrictive held incoming := by
    simp [mergeQuotaEvidence, hclock, hheld.revisionsDiffer, hheld.2, hincoming.2]
  rw [hmerge]
  split
  · next hquiet =>
    rw [Bool.and_eq_true, Bool.not_eq_true', Bool.not_eq_true'] at hquiet
    simp [hquiet.1, hquiet.2, hheld]
  · refine ⟨?_, ?_, mergeRestrictive_advisory .., hincoming.mergeRestrictive, ?_, ?_⟩ <;>
      simp only [mergeRestrictive] <;> split_ifs <;> rfl

/-- The merge of two summaries sums up the readings of both. -/
theorem Summary.merge (hheld : Summary earlier kind held) (hincoming : Summary later kind incoming) :
    Summary (earlier ++ later) kind (mergeQuotaEvidence held incoming) := by
  rcases lt_trichotomy held.lastCheckedAt incoming.lastCheckedAt with hnewer | hclock | holder
  · have hmerge : mergeQuotaEvidence held incoming = incoming := if_pos hnewer
    rw [hmerge]
    refine hincoming.extend (fun reading => List.mem_append_right _) fun reading hreading hkind => ?_
    exact (List.mem_append.mp hreading).symm.imp_right fun hearlier =>
      (hheld.facts.newest reading hearlier hkind).trans_lt hnewer
  · obtain ⟨hwindow, htime, hadvisory, hunrevised, hused, hreset⟩ :=
      mergeQuotaEvidence_equal hheld.unrevised hincoming.unrevised hclock
    have hboth : AtClock (earlier ++ later) kind held.lastCheckedAt = fun reading =>
        AtClock earlier kind held.lastCheckedAt reading ∨ AtClock later kind incoming.lastCheckedAt reading := by
      funext reading
      simp only [AtClock, List.mem_append, hclock, or_and_right]
    obtain ⟨marked, hmarked, hmark⟩ := hheld.mark
    refine ⟨⟨hwindow.trans hheld.facts.named, ?_, ?_, ?_, ?_⟩, hunrevised, ?_⟩
    · exact ⟨marked, by rw [htime, hboth]; exact .inl hmarked⟩
    · intro reading hreading hkind
      rw [htime]
      rcases List.mem_append.mp hreading with hreading | hreading
      · exact hheld.facts.newest reading hreading hkind
      · exact (hincoming.facts.newest reading hreading hkind).trans hclock.ge
    · rw [htime, hused, hboth]
      exact hheld.facts.used.join hincoming.facts.used _ moreUsed_iff
    · rw [htime, hreset, hboth]
      exact hheld.facts.reset.join hincoming.facts.reset _ laterReset_iff
    · exact ⟨marked, by rw [htime, hboth]; exact .inl hmarked, hmark.trans hadvisory.symm⟩
  · have hmerge : mergeQuotaEvidence held incoming = held := by
      rw [mergeQuotaEvidence, if_neg holder.asymm, if_pos holder]
    rw [hmerge]
    refine hheld.extend (fun reading => List.mem_append_left _) fun reading hreading hkind => ?_
    exact (List.mem_append.mp hreading).imp_right fun hlater =>
      (hincoming.facts.newest reading hlater hkind).trans_lt holder

/-- Two summaries of the same readings state the same facts. -/
theorem NewestFacts.unique (hheld : NewestFacts readings kind held) (hincoming : NewestFacts readings kind incoming) :
    held.utilization = incoming.utilization ∧ held.resetsAt = incoming.resetsAt ∧
      held.lastCheckedAt = incoming.lastCheckedAt := by
  have hclock : held.lastCheckedAt = incoming.lastCheckedAt := by
    obtain ⟨first, hfirst, hkind, htime⟩ := hheld.clock
    obtain ⟨second, hsecond, hkind', htime'⟩ := hincoming.clock
    exact le_antisymm (htime ▸ hincoming.newest first hfirst hkind) (htime' ▸ hheld.newest second hsecond hkind')
  have hused := hincoming.used
  have hreset := hincoming.reset
  rw [← hclock] at hused hreset
  exact ⟨hheld.used.unique hused, hheld.reset.unique hreset, hclock⟩

/-- A summary depends on which readings there are and not on their order. -/
theorem Summary.perm (h : Summary earlier kind held) (hperm : earlier.Perm readings) : Summary readings kind held :=
  h.extend (fun _ => hperm.mem_iff.mp) fun _ hreading _ => .inl (hperm.mem_iff.mpr hreading)

end Summary

section Windows

variable {windows incoming readings : List QuotaWindowState} {kind : QuotaWindowKind} {window : QuotaWindowState}

theorem windowOf_some (h : windowOf windows kind = some window) : window ∈ windows ∧ window.window = kind :=
  ⟨List.mem_of_find?_eq_some h, by simpa using List.find?_some h⟩

theorem windowOf_none : windowOf windows kind = none ↔ ∀ held ∈ windows, held.window ≠ kind := by
  simp [windowOf]

/-- After a window is set, its kind is read as that window and every other kind as before. -/
theorem windowOf_setWindow (windows : List QuotaWindowState) (window : QuotaWindowState) (kind : QuotaWindowKind) :
    windowOf (setWindow windows window) kind =
      if window.window = kind then some window else windowOf windows kind := by
  by_cases hany : windows.any fun held => held.window == window.window
  · have hmap : windowOf (setWindow windows window) kind =
        (windowOf windows kind).map fun held => if held.window = window.window then window else held := by
      rw [setWindow, if_pos hany, windowOf, List.find?_map]
      congr 1
      refine congrArg (List.find? · windows) (funext fun held => ?_)
      by_cases hsame : held.window = window.window <;> simp [hsame]
    rw [hmap]
    cases hheld : windowOf windows kind with
    | none =>
      have hkind : window.window ≠ kind := by
        rintro rfl
        obtain ⟨held, hmem, hsame⟩ := List.any_eq_true.mp hany
        exact windowOf_none.mp hheld held hmem (by simpa using hsame)
      simp [hkind]
    | some held =>
      have hkind := (windowOf_some hheld).2
      simp only [Option.map_some, hkind, eq_comm]
      split <;> rfl
  · rw [setWindow, if_neg hany, windowOf, List.find?_append]
    by_cases hkind : window.window = kind
    · have hnone : windowOf windows kind = none := by
        refine windowOf_none.mpr fun held hmem hsame => hany (List.any_eq_true.mpr ⟨held, hmem, ?_⟩)
        simp [hsame, hkind]
      rw [windowOf] at hnone
      simp [hnone, hkind]
    · simp [windowOf, hkind]

/-- A map holds one window of a kind. -/
def DistinctKinds (windows : List QuotaWindowState) : Prop := (windows.map QuotaWindowState.window).Nodup

/-- Setting a window keeps one of each kind. -/
theorem DistinctKinds.setWindow (h : DistinctKinds windows) (window : QuotaWindowState) :
    DistinctKinds (setWindow windows window) := by
  rw [Routing.setWindow]
  split
  · have hkinds : (windows.map fun held => if held.window = window.window then window else held).map
        QuotaWindowState.window = windows.map QuotaWindowState.window := by
      rw [List.map_map]
      refine List.map_congr_left fun held _ => ?_
      by_cases hsame : held.window = window.window <;> simp [hsame]
    rw [DistinctKinds, hkinds]
    exact h
  · next hany =>
    rw [DistinctKinds, List.map_append, List.nodup_append]
    refine ⟨h, by simp, fun kind hkind other hother hsame => hany ?_⟩
    obtain ⟨held, hheld, hname⟩ := List.mem_map.mp hkind
    have hwindow : other = window.window := by simpa using hother
    exact List.any_eq_true.mpr ⟨held, hheld, by simp [hname, hsame, hwindow]⟩

/-- One incoming window, seen from its kind. -/
def joinEvidence (held : Option QuotaWindowState) (incoming : QuotaWindowState) : Option QuotaWindowState :=
  some (held.elim incoming fun held => mergeQuotaEvidence held incoming)

/-- A merge of two windows of one kind is a window of that kind. -/
theorem mergeQuotaEvidence_window {held incoming : QuotaWindowState} (h : held.window = incoming.window) :
    (mergeQuotaEvidence held incoming).window = incoming.window := by
  unfold mergeQuotaEvidence mergeRestrictive
  split_ifs <;> simp [h]

/-- One incoming window changes its own kind. -/
theorem windowOf_mergeWindow (held : List QuotaWindowState) (window : QuotaWindowState) (kind : QuotaWindowKind) :
    windowOf (mergeWindow held window) kind =
      if window.window = kind then joinEvidence (windowOf held kind) window else windowOf held kind := by
  rw [mergeWindow, windowOf_setWindow]
  cases hheld : windowOf held window.window with
  | none =>
    by_cases hkind : window.window = kind
    · subst hkind
      simp [hheld, joinEvidence]
    · simp [hkind]
  | some other =>
    have hname := mergeQuotaEvidence_window (windowOf_some hheld).2
    by_cases hkind : window.window = kind
    · subst hkind
      simp [hheld, joinEvidence, hname]
    · simp [hname, hkind]

/-- What a fold of windows does to one kind is decided by the windows of that kind. -/
theorem windowOf_foldl_mergeWindow (incoming held : List QuotaWindowState) (kind : QuotaWindowKind) :
    windowOf (incoming.foldl mergeWindow held) kind =
      (incoming.filter fun window => window.window = kind).foldl joinEvidence (windowOf held kind) := by
  induction incoming generalizing held with
  | nil => rfl
  | cons window rest ih =>
    rw [List.foldl_cons, ih, windowOf_mergeWindow]
    by_cases hkind : window.window = kind <;> simp [hkind]

/-- Windows of distinct kinds are copied into a map as they are. -/
theorem windowOf_foldl_setWindow (windows held : List QuotaWindowState) (h : DistinctKinds windows)
    (kind : QuotaWindowKind) :
    windowOf (windows.foldl setWindow held) kind = (windowOf windows kind).or (windowOf held kind) := by
  induction windows generalizing held with
  | nil => rfl
  | cons window rest ih =>
    obtain ⟨hfresh, hrest⟩ := List.nodup_cons.mp h
    rw [List.foldl_cons, ih _ hrest, windowOf_setWindow]
    by_cases hkind : window.window = kind
    · have hnone : windowOf rest kind = none :=
        windowOf_none.mpr fun held hmem hsame => hfresh (hkind ▸ hsame ▸ List.mem_map_of_mem hmem)
      rw [hnone, if_pos hkind]
      simp [windowOf, hkind]
    · rw [if_neg hkind]
      simp [windowOf, hkind]

/-- So does setting several. -/
theorem DistinctKinds.foldl_setWindow {held : List QuotaWindowState} (h : DistinctKinds held)
    (windows : List QuotaWindowState) : DistinctKinds (windows.foldl Routing.setWindow held) := by
  induction windows generalizing held with
  | nil => exact h
  | cons window rest ih => exact ih (h.setWindow window)

theorem DistinctKinds.foldl_mergeWindow {held : List QuotaWindowState} (h : DistinctKinds held)
    (incoming : List QuotaWindowState) : DistinctKinds (incoming.foldl mergeWindow held) := by
  induction incoming generalizing held with
  | nil => exact h
  | cons window rest ih => exact ih (h.setWindow _)

/-- A merge has one window of each kind. -/
theorem DistinctKinds.mergeQuotaWindows (h : DistinctKinds windows) (incoming : Option (List QuotaWindowState)) :
    DistinctKinds (mergeQuotaWindows windows incoming) := by
  have hempty : DistinctKinds [] := List.nodup_nil
  unfold Routing.mergeQuotaWindows
  split
  · exact h
  · exact h
  · exact (hempty.foldl_setWindow windows).foldl_mergeWindow _

/-- A merge, seen from one kind. -/
theorem windowOf_mergeQuotaWindows (h : DistinctKinds windows) (incoming : Option (List QuotaWindowState))
    (kind : QuotaWindowKind) : windowOf (mergeQuotaWindows windows incoming) kind =
      ((incoming.getD []).filter fun window => window.window = kind).foldl joinEvidence (windowOf windows kind) := by
  unfold Routing.mergeQuotaWindows
  split
  · rfl
  · rfl
  · rw [windowOf_foldl_mergeWindow, windowOf_foldl_setWindow _ _ h]
    simp [windowOf]

/-- Of a map, at most one window has the kind. -/
theorem DistinctKinds.filter_eq (h : DistinctKinds windows) (kind : QuotaWindowKind) :
    (windows.filter fun window => window.window = kind) = (windowOf windows kind).toList := by
  induction windows with
  | nil => rfl
  | cons window rest ih =>
    obtain ⟨hfresh, hrest⟩ := List.nodup_cons.mp h
    by_cases hkind : window.window = kind
    · have hnone : (rest.filter fun window => window.window = kind) = [] := by
        refine List.filter_eq_nil_iff.mpr fun held hmem hsame => hfresh ?_
        have hsame' : held.window = window.window := (of_decide_eq_true hsame).trans hkind.symm
        exact hsame' ▸ List.mem_map_of_mem hmem
      simp [hkind, hnone, windowOf]
    · rw [List.filter_cons_of_neg (by simpa using hkind), ih hrest]
      simp [windowOf, hkind]

end Windows

/-- What a fold leaves for a kind: a summary of its readings, or nothing where none names the kind. -/
structure Folded (readings : List QuotaWindowState) (kind : QuotaWindowKind) (window : Option QuotaWindowState) :
    Prop where
  sums : ∀ held, window = some held → Summary readings kind held
  absent : window = none → ∀ reading ∈ readings, reading.window ≠ kind

section Folded

variable {readings earlier later : List QuotaWindowState} {kind : QuotaWindowKind}
  {held incoming : Option QuotaWindowState}

/-- Folding one result into another sums up the readings of both. -/
theorem Folded.join (hheld : Folded earlier kind held) (hincoming : Folded later kind incoming) :
    Folded (earlier ++ later) kind (incoming.toList.foldl joinEvidence held) := by
  cases incoming with
  | none =>
    have hnone := hincoming.absent rfl
    refine ⟨fun window hwindow => ?_, fun hwindow reading hreading => ?_⟩
    · refine (hheld.sums window hwindow).extend (fun _ => List.mem_append_left _) fun reading hreading hkind => ?_
      exact .inl ((List.mem_append.mp hreading).resolve_right fun hlater => hnone reading hlater hkind)
    · exact (List.mem_append.mp hreading).elim (hheld.absent hwindow reading) (hnone reading)
  | some window =>
    have hsum := hincoming.sums window rfl
    refine ⟨?_, fun hnone => by simp [joinEvidence] at hnone⟩
    rintro merged hmerged
    cases held with
    | none =>
      obtain rfl : window = merged := Option.some.inj hmerged
      refine hsum.extend (fun _ => List.mem_append_right _) fun reading hreading hkind => ?_
      exact .inl ((List.mem_append.mp hreading).resolve_left fun hearlier =>
        hheld.absent rfl reading hearlier hkind)
    | some other =>
      obtain rfl : mergeQuotaEvidence other window = merged := Option.some.inj hmerged
      exact (hheld.sums other rfl).merge hsum

/-- A reading by itself. -/
theorem Folded.single {reading : QuotaWindowState} (h : Unrevised reading) (kind : QuotaWindowKind) :
    Folded [reading] kind (if reading.window = kind then some reading else none) := by
  by_cases hkind : reading.window = kind
  · subst hkind
    refine ⟨fun window hwindow => ?_, fun hnone => by simp at hnone⟩
    obtain rfl : reading = window := by simpa using hwindow
    exact Summary.single h
  · rw [if_neg hkind]
    exact ⟨fun _ hsome => by simp at hsome, fun _ other hother => List.mem_singleton.mp hother ▸ hkind⟩

/-- A batch of readings. -/
theorem Folded.batch (hheld : Folded earlier kind held) (batch : List QuotaWindowState)
    (hbatch : ∀ reading ∈ batch, Unrevised reading) : Folded (earlier ++ batch) kind
      ((batch.filter fun reading => reading.window = kind).foldl joinEvidence held) := by
  induction batch generalizing earlier held with
  | nil => simpa using hheld
  | cons reading rest ih =>
    have hfirst := hheld.join (Folded.single (hbatch reading (List.mem_cons_self ..)) kind)
    have hrest := ih hfirst fun other hother => hbatch other (List.mem_cons_of_mem _ hother)
    rw [List.append_assoc, List.singleton_append] at hrest
    by_cases hkind : reading.window = kind
    · simpa [hkind] using hrest
    · simpa [hkind] using hrest

end Folded

namespace Folding

/-- A folding has one window of each kind. -/
theorem distinct (folding : Folding) : DistinctKinds folding.windows := by
  induction folding with
  | empty => exact List.nodup_nil
  | batch held incoming ih => exact ih.mergeQuotaWindows incoming
  | overlay held incoming ih _ => exact ih.mergeQuotaWindows _

/-- Every folding sums up the readings that went in, kind by kind. -/
theorem folded (folding : Folding) (h : ∀ reading ∈ folding.readings, Unrevised reading) (kind : QuotaWindowKind) :
    Folded folding.readings kind (windowOf folding.windows kind) := by
  induction folding with
  | empty => exact ⟨fun _ hsome => by simp [windows, windowOf] at hsome, fun _ _ hmem => by simp [readings] at hmem⟩
  | batch held incoming ih =>
    have hheld := ih fun reading hreading => h reading (List.mem_append_left _ hreading)
    rw [windows, windowOf_mergeQuotaWindows held.distinct]
    exact hheld.batch _ fun reading hreading => h reading (List.mem_append_right _ hreading)
  | overlay held incoming ihheld ihincoming =>
    have hheld := ihheld fun reading hreading => h reading (List.mem_append_left _ hreading)
    have hincoming := ihincoming fun reading hreading => h reading (List.mem_append_right _ hreading)
    rw [windows, windowOf_mergeQuotaWindows held.distinct, Option.getD_some, incoming.distinct.filter_eq]
    exact hheld.join hincoming

/-- Whether the folded window of the kind is spent. -/
def spent (folding : Folding) (kind : QuotaWindowKind) (now : Instant) (threshold : Rat) : Bool :=
  (windowOf folding.windows kind).any fun window => isWindowSpent window now threshold

end Folding

/-- Whatever the order and the batches, a kind is read as the newest clock's most restrictive facts of its
readings, a kind that is named once is kept, and every instant judges the window alike. -/
structure OrderIndependent (readings : List QuotaWindowState) (threshold : Rat) : Prop where
  newest : ∀ folding : Folding, folding.readings.Perm readings → ∀ kind window,
    windowOf folding.windows kind = some window → NewestFacts readings kind window
  kept : ∀ folding : Folding, folding.readings.Perm readings → ∀ kind,
    (windowOf folding.windows kind).isSome ↔ ∃ reading ∈ readings, reading.window = kind
  facts : ∀ first second : Folding, first.readings.Perm readings → second.readings.Perm readings → ∀ kind,
    (windowOf first.windows kind).map (fun window => (window.utilization, window.resetsAt, window.lastCheckedAt)) =
      (windowOf second.windows kind).map fun window => (window.utilization, window.resetsAt, window.lastCheckedAt)
  judged : ∀ first second : Folding, first.readings.Perm readings → second.readings.Perm readings →
    ∀ kind now, first.spent kind now threshold = second.spent kind now threshold

/-- A reading of the kind that no other reading of it is newer than. -/
def Newest (readings : List QuotaWindowState) (kind : QuotaWindowKind) (reading : QuotaWindowState) : Prop :=
  reading ∈ readings ∧ reading.window = kind ∧
    ∀ other ∈ readings, other.window = kind → other.lastCheckedAt ≤ reading.lastCheckedAt

/-- For every kind, the newest readings bear one mark, or none of them reached the threshold. -/
def MarksAgree (readings : List QuotaWindowState) (threshold : Rat) : Prop :=
  ∀ kind, (∀ first second, Newest readings kind first → Newest readings kind second →
      first.advisory = second.advisory) ∨
    ∀ reading used, Newest readings kind reading → reading.utilization = some used → used < threshold

section Judged

variable {readings : List QuotaWindowState} {kind : QuotaWindowKind} {window : QuotaWindowState} {threshold : Rat}

/-- Without retirement the mark, the utilization and the reset decide. -/
theorem Unrevised.isWindowSpent (h : Unrevised window) (now : Instant) (threshold : Rat) :
    isWindowSpent window now threshold =
      (!window.advisory && window.utilization.any (fun used => decide (threshold ≤ used)) &&
        window.resetsAt.all fun reset => decide (now < reset)) := by
  cases hused : window.utilization with
  | none => simp [Routing.isWindowSpent, hused]
  | some used =>
    by_cases hbelow : used < threshold
    · simp [Routing.isWindowSpent, hused, hbelow]
    · cases hreset : window.resetsAt <;> cases hmark : window.advisory <;>
        simp [Routing.isWindowSpent, h.2, hused, hreset, hmark, hbelow, not_lt.mp hbelow]

/-- The newest readings are those of the clock a summary states. -/
theorem NewestFacts.newest_iff (h : NewestFacts readings kind window) (reading : QuotaWindowState) :
    AtClock readings kind window.lastCheckedAt reading ↔ Newest readings kind reading := by
  obtain ⟨latest, hlatest, hkind, hclock⟩ := h.clock
  constructor
  · rintro ⟨hmem, hname, htime⟩
    exact ⟨hmem, hname, fun other hother hsame => htime ▸ h.newest other hother hsame⟩
  · rintro ⟨hmem, hname, hnewest⟩
    exact ⟨hmem, hname, le_antisymm (h.newest reading hmem hname) (hclock ▸ hnewest latest hlatest hkind)⟩

/-- Marks that agree make any two summaries of the readings judged alike. -/
theorem MarksAgree.judged (h : MarksAgree readings threshold) {other : QuotaWindowState}
    (hwindow : Summary readings kind window) (hother : Summary readings kind other) (now : Instant) :
    isWindowSpent window now threshold = isWindowSpent other now threshold := by
  obtain ⟨hused, hreset, -⟩ := hwindow.facts.unique hother.facts
  rw [hwindow.unrevised.isWindowSpent, hother.unrevised.isWindowSpent, ← hused, ← hreset]
  rcases h kind with hmarks | hbelow
  · obtain ⟨first, hfirst, hfirstmark⟩ := hwindow.mark
    obtain ⟨second, hsecond, hsecondmark⟩ := hother.mark
    rw [hwindow.facts.newest_iff] at hfirst
    rw [hother.facts.newest_iff] at hsecond
    rw [← hfirstmark, ← hsecondmark, hmarks first second hfirst hsecond]
  · have hnone : (window.utilization.any fun used => decide (threshold ≤ used)) = false := by
      cases hknown : window.utilization with
      | none => rfl
      | some used =>
        obtain ⟨reading, hreading, hstated⟩ := hwindow.facts.used.stated used hknown
        have hless := hbelow reading used ((hwindow.facts.newest_iff reading).mp hreading) hstated
        simpa using hless
    simp [hnone]

/-- A fold that begins with a newest reading ends with that reading's mark. -/
theorem foldl_joinEvidence_mark (rest : List QuotaWindowState) (hunrevised : Unrevised window)
    (hrest : ∀ other ∈ rest, Unrevised other ∧ other.lastCheckedAt ≤ window.lastCheckedAt) :
    ∃ merged, rest.foldl joinEvidence (some window) = some merged ∧ merged.advisory = window.advisory := by
  induction rest generalizing window with
  | nil => exact ⟨window, rfl, rfl⟩
  | cons other rest ih =>
    obtain ⟨hother, hclock⟩ := hrest other (List.mem_cons_self ..)
    -- an older reading leaves the window as it is, an equally old one joins its facts only
    have hmerge : Unrevised (mergeQuotaEvidence window other) ∧
        (mergeQuotaEvidence window other).lastCheckedAt = window.lastCheckedAt ∧
        (mergeQuotaEvidence window other).advisory = window.advisory := by
      rcases hclock.lt_or_eq with holder | hequal
      · rw [mergeQuotaEvidence, if_neg holder.asymm, if_pos holder]
        exact ⟨hunrevised, rfl, rfl⟩
      · obtain ⟨-, htime, hmark, hplain, -⟩ := mergeQuotaEvidence_equal hunrevised hother hequal.symm
        exact ⟨hplain, htime, hmark⟩
    obtain ⟨merged, hmerged, hmark⟩ := ih hmerge.1 fun later hlater =>
      hmerge.2.1 ▸ hrest later (List.mem_cons_of_mem _ hlater)
    exact ⟨merged, hmerged, hmark.trans hmerge.2.2⟩

/-- Fold one of the readings first and the others after it. -/
def Folding.startingWith (readings : List QuotaWindowState) (first : QuotaWindowState) : Folding :=
  .batch .empty (some (first :: readings.erase first))

theorem Folding.startingWith_perm {first : QuotaWindowState} (h : first ∈ readings) :
    (Folding.startingWith readings first).readings.Perm readings :=
  (List.perm_cons_erase h).symm

/-- A newest reading that is folded first gives the window its mark. -/
theorem Folding.startingWith_mark {first : QuotaWindowState} (hunrevised : ∀ reading ∈ readings, Unrevised reading)
    (hfirst : Newest readings kind first) :
    ∃ window, windowOf (Folding.startingWith readings first).windows kind = some window ∧
      Summary readings kind window ∧ window.advisory = first.advisory := by
  obtain ⟨hmem, hkind, hnewest⟩ := hfirst
  have hperm := Folding.startingWith_perm hmem
  have hfold : windowOf (Folding.startingWith readings first).windows kind =
      ((readings.erase first).filter fun window => window.window = kind).foldl joinEvidence (some first) := by
    rw [startingWith, windows, windowOf_mergeQuotaWindows Folding.empty.distinct]
    simp [hkind, windows, windowOf, joinEvidence]
  obtain ⟨window, hwindow, hmark⟩ := foldl_joinEvidence_mark
    ((readings.erase first).filter fun window => window.window = kind) (hunrevised first hmem) fun other hother => by
      obtain ⟨hother, hname⟩ := List.mem_filter.mp hother
      have hreading := List.mem_of_mem_erase hother
      exact ⟨hunrevised other hreading, hnewest other hreading (of_decide_eq_true hname)⟩
  have hsome := hfold.trans hwindow
  have hfolded := (Folding.startingWith readings first).folded
    (fun reading hreading => hunrevised reading (hperm.mem_iff.mp hreading)) kind
  exact ⟨window, hsome, (hfolded.sums window hsome).perm hperm, hmark⟩

/-- Readings whose marks disagree at the threshold are judged one way or the other by their order. -/
theorem judged_differ (hunrevised : ∀ reading ∈ readings, Unrevised reading) {marked plain : QuotaWindowState}
    (hmarked : Newest readings kind marked) (hplain : Newest readings kind plain)
    (hmark : marked.advisory = true) (hnomark : plain.advisory = false) {reading : QuotaWindowState} {used : Rat}
    (hreading : Newest readings kind reading) (hused : reading.utilization = some used) (hreached : threshold ≤ used) :
    ∃ now, (Folding.startingWith readings marked).spent kind now threshold ≠
      (Folding.startingWith readings plain).spent kind now threshold := by
  obtain ⟨first, hfirst, hfirstsum, hfirstmark⟩ := Folding.startingWith_mark hunrevised hmarked
  obtain ⟨second, hsecond, hsecondsum, hsecondmark⟩ := Folding.startingWith_mark hunrevised hplain
  obtain ⟨most, hmost, hle⟩ := hsecondsum.facts.used.bounds reading used
    ((hsecondsum.facts.newest_iff reading).mpr hreading) hused
  -- just before the reset the window has not refilled
  refine ⟨second.resetsAt.elim 0 fun reset => reset - 1, ?_⟩
  have hreset : (second.resetsAt.all fun reset =>
      decide ((second.resetsAt.elim 0 fun reset => reset - 1) < reset)) = true := by
    cases second.resetsAt <;> simp
  rw [Folding.spent, Folding.spent, hfirst, hsecond, Option.any_some, Option.any_some,
    hfirstsum.unrevised.isWindowSpent, hsecondsum.unrevised.isWindowSpent, hreset, hfirstmark, hsecondmark, hmark,
    hnomark, hmost]
  simp [hreached.trans hle]

end Judged

section Foldings

variable {readings : List QuotaWindowState} (hunrevised : ∀ reading ∈ readings, Unrevised reading)
include hunrevised

/-- A folding of the readings in any order folds each kind. -/
theorem Folding.folded_perm {folding : Folding} (hperm : folding.readings.Perm readings) (kind : QuotaWindowKind) :
    Folded readings kind (windowOf folding.windows kind) := by
  have h := folding.folded (fun reading hreading => hunrevised reading (hperm.mem_iff.mp hreading)) kind
  exact ⟨fun held hheld => (h.sums held hheld).perm hperm,
    fun hnone reading hreading => h.absent hnone reading (hperm.mem_iff.mpr hreading)⟩

/-- A kind has a window exactly when a reading names it. -/
theorem Folding.isSome_iff {folding : Folding} (hperm : folding.readings.Perm readings) (kind : QuotaWindowKind) :
    (windowOf folding.windows kind).isSome ↔ ∃ reading ∈ readings, reading.window = kind := by
  have h := Folding.folded_perm hunrevised hperm kind
  cases hwindow : windowOf folding.windows kind with
  | none => simpa using h.absent hwindow
  | some window =>
    obtain ⟨reading, hmem, hkind, -⟩ := (h.sums window hwindow).facts.clock
    simpa using ⟨reading, hmem, hkind⟩

/-- Two foldings of the readings both lack the kind, or both sum up its readings. -/
theorem Folding.both {first second : Folding} (hfirst : first.readings.Perm readings)
    (hsecond : second.readings.Perm readings) (kind : QuotaWindowKind) :
    windowOf first.windows kind = none ∧ windowOf second.windows kind = none ∨
      ∃ window other, windowOf first.windows kind = some window ∧ windowOf second.windows kind = some other ∧
        Summary readings kind window ∧ Summary readings kind other := by
  have hboth := (Folding.isSome_iff hunrevised hfirst kind).trans (Folding.isSome_iff hunrevised hsecond kind).symm
  cases hwindow : windowOf first.windows kind with
  | none => exact .inl ⟨rfl, by simpa [hwindow] using hboth⟩
  | some window =>
    obtain ⟨other, hother⟩ : ∃ other, windowOf second.windows kind = some other :=
      Option.isSome_iff_exists.mp (hboth.mp (by simp [hwindow]))
    exact .inr ⟨window, other, rfl, hother, (Folding.folded_perm hunrevised hfirst kind).sums window hwindow,
      (Folding.folded_perm hunrevised hsecond kind).sums other hother⟩

/-- Foldings that are judged alike have marks that agree. -/
theorem MarksAgree.of_judged {threshold : Rat}
    (hjudged : ∀ first second : Folding, first.readings.Perm readings → second.readings.Perm readings →
      ∀ kind now, first.spent kind now threshold = second.spent kind now threshold) :
    MarksAgree readings threshold := by
  intro kind
  by_contra hdisagree
  obtain ⟨hmarks, hreached⟩ := not_or.mp hdisagree
  push Not at hmarks hreached
  obtain ⟨first, second, hfirst, hsecond, hdiffer⟩ := hmarks
  obtain ⟨reading, used, hreading, hused, hle⟩ := hreached
  have halike {marked plain : QuotaWindowState} (hmarked : Newest readings kind marked)
      (hplain : Newest readings kind plain) (hmark : marked.advisory = true) (hnomark : plain.advisory = false) :
      False := by
    obtain ⟨now, hnow⟩ := judged_differ hunrevised hmarked hplain hmark hnomark hreading hused hle
    exact hnow (hjudged _ _ (Folding.startingWith_perm hmarked.1) (Folding.startingWith_perm hplain.1) kind now)
  cases hmark : first.advisory with
  | true => exact halike hfirst hsecond hmark (by simpa [hmark] using hdiffer.symm)
  | false => exact halike hsecond hfirst (by simpa [hmark] using hdiffer.symm) hmark

end Foldings

/-- Readings without revision or retirement fold alike in every order and in all batches exactly when, for
every kind, the newest of them bear one advisory mark or none of them reached the threshold. -/
theorem orderIndependent_iff (readings : List QuotaWindowState) (threshold : Rat)
    (hunrevised : ∀ reading ∈ readings, Unrevised reading) :
    OrderIndependent readings threshold ↔ MarksAgree readings threshold := by
  refine ⟨fun hindependent => MarksAgree.of_judged hunrevised hindependent.judged, fun hmarks => ?_⟩
  constructor
  case newest =>
    intro folding hperm kind window hwindow
    exact ((Folding.folded_perm hunrevised hperm kind).sums window hwindow).facts
  case kept =>
    intro folding hperm kind
    exact Folding.isSome_iff hunrevised hperm kind
  case facts =>
    intro first second hfirst hsecond kind
    rcases Folding.both hunrevised hfirst hsecond kind with
      ⟨hnone, hnone'⟩ | ⟨window, other, hsome, hsome', hsum, hsum'⟩
    · rw [hnone, hnone']
    · obtain ⟨hused, hreset, hclock⟩ := hsum.facts.unique hsum'.facts
      rw [hsome, hsome', Option.map_some, Option.map_some, hused, hreset, hclock]
  case judged =>
    intro first second hfirst hsecond kind now
    rw [Folding.spent, Folding.spent]
    rcases Folding.both hunrevised hfirst hsecond kind with
      ⟨hnone, hnone'⟩ | ⟨window, other, hsome, hsome', hsum, hsum'⟩
    · rw [hnone, hnone']
    · rw [hsome, hsome', Option.any_some, Option.any_some]
      exact hmarks.judged hsum hsum' now

/-- A five-hour reading at the epoch. -/
def fiveHourReading (used : Rat) (advisory : Bool) : QuotaWindowState :=
  { window := .fiveHour, utilization := some used, utilizationSource := .continuous, lastCheckedAt := 0, advisory }

/-- Two readings below the threshold, of which one is marked. -/
theorem orderIndependent_iff_below :
    OrderIndependent [fiveHourReading (1 / 2) true, fiveHourReading (1 / 4) false] 1 := by
  refine (orderIndependent_iff _ 1 ?_).mpr fun kind => .inr ?_
  · intro reading hreading
    simp only [List.mem_cons, List.not_mem_nil, or_false] at hreading
    rcases hreading with rfl | rfl <;> exact ⟨rfl, rfl⟩
  · rintro reading used ⟨hreading, -⟩ hused
    simp only [List.mem_cons, List.not_mem_nil, or_false] at hreading
    rcases hreading with rfl | rfl <;> cases hused <;> norm_num

/-- Two readings, each a batch of its own. -/
def oneThenOther (first second : QuotaWindowState) : Folding :=
  .batch (.batch .empty (some [first])) (some [second])

/-- A spent window and a display-only reading of the same clock: one order blocks the account, the other
does not. -/
theorem fold_order_decides_spent :
    (∀ reading ∈ [fiveHourReading 1 true, fiveHourReading 1 false], Unrevised reading) ∧
      (oneThenOther (fiveHourReading 1 true) (fiveHourReading 1 false)).spent .fiveHour 0 1 = false ∧
      (oneThenOther (fiveHourReading 1 false) (fiveHourReading 1 true)).spent .fiveHour 0 1 = true ∧
      ¬ OrderIndependent [fiveHourReading 1 true, fiveHourReading 1 false] 1 := by
  have hmarked : (oneThenOther (fiveHourReading 1 true) (fiveHourReading 1 false)).spent .fiveHour 0 1 = false := by
    decide +kernel
  have hplain : (oneThenOther (fiveHourReading 1 false) (fiveHourReading 1 true)).spent .fiveHour 0 1 = true := by
    decide +kernel
  refine ⟨?_, hmarked, hplain, fun hindependent => ?_⟩
  · intro reading hreading
    simp only [List.mem_cons, List.not_mem_nil, or_false] at hreading
    rcases hreading with rfl | rfl <;> exact ⟨rfl, rfl⟩
  · have hjudged := hindependent.judged (oneThenOther (fiveHourReading 1 true) (fiveHourReading 1 false))
      (oneThenOther (fiveHourReading 1 false) (fiveHourReading 1 true)) (List.Perm.refl _) (List.Perm.swap _ _ _)
      .fiveHour 0
    rw [hmarked, hplain] at hjudged
    cases hjudged

/-- What a folding says of a kind: its utilization, its reset and its clock. -/
def Folding.factsOf (folding : Folding) (kind : QuotaWindowKind) : Option (Option Rat × Option Instant × Instant) :=
  (windowOf folding.windows kind).map fun window => (window.utilization, window.resetsAt, window.lastCheckedAt)

/-- Readings that are delivered again, in any order and in any batches, leave every kind's facts as they were, and
where the marks agree every instant judges the window as before. -/
theorem redelivered_alike {first second : Folding} (hunrevised : ∀ reading ∈ first.readings, Unrevised reading)
    (hsame : ∀ reading, reading ∈ second.readings ↔ reading ∈ first.readings) (kind : QuotaWindowKind)
    (threshold : Rat) : first.factsOf kind = second.factsOf kind ∧ (MarksAgree first.readings threshold →
      ∀ now, first.spent kind now threshold = second.spent kind now threshold) := by
  have hfirst := first.folded hunrevised kind
  have hsecond := second.folded (fun reading hreading => hunrevised reading ((hsame reading).mp hreading)) kind
  unfold Folding.spent Folding.factsOf
  cases hwindow : windowOf first.windows kind with
  | none =>
    have hnone : windowOf second.windows kind = none := by
      refine Option.eq_none_iff_forall_ne_some.mpr fun other hother => ?_
      obtain ⟨reading, hmem, hkind, -⟩ := (hsecond.sums other hother).facts.clock
      exact hfirst.absent hwindow reading ((hsame reading).mp hmem) hkind
    rw [hnone]
    exact ⟨rfl, fun _ _ => rfl⟩
  | some window =>
    have hsum := hfirst.sums window hwindow
    cases hother : windowOf second.windows kind with
    | none =>
      obtain ⟨reading, hmem, hkind, -⟩ := hsum.facts.clock
      exact absurd hkind (hsecond.absent hother reading ((hsame reading).mpr hmem))
    | some other =>
      -- A summary looks at which readings there are, not at how often.
      have hsum' : Summary first.readings kind other := (hsecond.sums other hother).extend
        (fun reading => (hsame reading).mp) fun reading hreading _ => .inl ((hsame reading).mpr hreading)
      obtain ⟨hused, hreset, hclock⟩ := hsum.facts.unique hsum'.facts
      refine ⟨?_, fun hmarks now => ?_⟩
      · rw [Option.map_some, Option.map_some, hused, hreset, hclock]
      · rw [Option.any_some, Option.any_some]
        exact hmarks.judged hsum hsum' now

/-- A spent reading that is delivered twice. -/
theorem redelivered_alike_twice : (Folding.batch .empty (some [fiveHourReading 1 true])).factsOf .fiveHour =
      (oneThenOther (fiveHourReading 1 true) (fiveHourReading 1 true)).factsOf .fiveHour := by
  refine (redelivered_alike (fun reading hreading => ?_) (fun reading => ?_) .fiveHour 1).1
  · rw [List.mem_singleton.mp hreading]
    exact ⟨rfl, rfl⟩
  · simp [oneThenOther, Folding.readings]

end MultiAiRouter.Routing
