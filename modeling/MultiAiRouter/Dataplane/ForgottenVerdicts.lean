import Mathlib.Data.List.Induction
import Mathlib.Data.Prod.Lex
import MultiAiRouter.Dataplane.StatusWriter

/-!
# Forgotten verdicts

A drain takes every verdict out before it writes the first of them, and offers the later ones without asking again
whether their account was forgotten. It also compares a verdict that comes in only with the one that waits, not with
one that was taken out.
-/

namespace MultiAiRouter.Dataplane

open Common Routing Shutdown

section Order

/-- Where an observation stands among the others. -/
def HealthObservation.rank (observation : HealthObservation) : ℕ ×ₗ ℕ :=
  toLex (observation.observationGeneration, observation.lifecycleVersion)

/-- An observation is newer exactly when it ranks above. -/
theorem newerObservation_iff {left right : HealthObservation} :
    newerObservation left right = true ↔ right.rank < left.rank := by
  simp only [newerObservation, HealthObservation.rank, Prod.Lex.toLex_lt_toLex, Bool.or_eq_true, Bool.and_eq_true,
    decide_eq_true_eq, beq_iff_eq]
  rw [@eq_comm _ left.observationGeneration]

/-- An observation that is not newer stands no higher. -/
theorem newerObservation_eq_false {left right : HealthObservation} :
    newerObservation left right = false ↔ left.rank ≤ right.rank := by
  rw [← Bool.not_eq_true, newerObservation_iff, not_lt]

end Order

section History

/-- The verdicts recorded since the account was last forgotten, and the one among them whose last write
failed. -/
structure VerdictHistory where
  recorded : List PendingVerdict := []
  owed : Option PendingVerdict := none

/-- One more entry of the log. -/
def VerdictHistory.next (accountId : String) (history : VerdictHistory) : VerdictFate → VerdictHistory
  | .recorded other verdict =>
    if other = accountId then { history with recorded := history.recorded ++ [verdict] } else history
  | .forgot other => if other = accountId then {} else history
  | .started other _ => if other = accountId then { history with owed := none } else history
  | .failed other verdict =>
    if other = accountId ∧ verdict ∈ history.recorded then { history with owed := some verdict } else history
  | _ => history

/-- The history of an account in a log, oldest entry first. -/
def historyOf (accountId : String) (log : List VerdictFate) : VerdictHistory :=
  log.foldl (VerdictHistory.next accountId) {}

theorem historyOf_append (accountId : String) (log more : List VerdictFate) :
    historyOf accountId (log ++ more) = more.foldl (VerdictHistory.next accountId) (historyOf accountId log) :=
  List.foldl_append ..

theorem historyOf_concat (accountId : String) (log : List VerdictFate) (fate : VerdictFate) :
    historyOf accountId (log ++ [fate]) = (historyOf accountId log).next accountId fate := by
  rw [historyOf_append]
  rfl

/-- An entry that no history reads, and that starts no write. -/
def VerdictFate.isQuiet : VerdictFate → Bool
  | .recorded .. | .forgot _ | .started .. | .failed .. => false
  | _ => true

theorem VerdictHistory.next_of_isQuiet {fate : VerdictFate} (h : fate.isQuiet = true) (accountId : String)
    (history : VerdictHistory) : history.next accountId fate = history := by
  cases fate <;> first | rfl | cases h

/-- Quiet entries leave a history as it is. -/
theorem historyOf_quiet {log more : List VerdictFate} (h : ∀ fate ∈ more, fate.isQuiet = true) (accountId : String) :
    historyOf accountId (log ++ more) = historyOf accountId log := by
  rw [historyOf_append]
  induction more with
  | nil => rfl
  | cons fate rest ih =>
    rw [List.foldl_cons, VerdictHistory.next_of_isQuiet (h fate (.head _))]
    exact ih fun other hmem => h other (.tail _ hmem)

/-- What is recorded in a history was recorded after the account was last forgotten. -/
theorem recorded_mem_of_history {accountId : String} {verdict : PendingVerdict} {held : VerdictHistory}
    (hheld : held.recorded = []) (log : List VerdictFate)
    (h : verdict ∈ (log.foldl (VerdictHistory.next accountId) held).recorded) :
    VerdictFate.recorded accountId verdict ∈ log := by
  induction log using List.reverseRecOn with
  | nil => simp [hheld] at h
  | append_singleton log fate ih =>
    rw [List.foldl_append] at h
    simp only [List.foldl_cons, List.foldl_nil] at h
    have hearlier := fun hmem => List.mem_append_left [fate] (ih hmem)
    cases fate with
    | recorded other recorded =>
      simp only [VerdictHistory.next] at h
      split at h
      · next hother =>
        rcases List.mem_append.mp h with hmem | hlast
        · exact hearlier hmem
        · rw [List.mem_singleton.mp hlast, hother]
          exact List.mem_append_right _ (List.mem_singleton_self _)
      · exact hearlier h
    | forgot other =>
      simp only [VerdictHistory.next] at h
      split at h
      · cases h
      · exact hearlier h
    | started other started =>
      simp only [VerdictHistory.next] at h
      split at h <;> exact hearlier h
    | failed other failed =>
      simp only [VerdictHistory.next] at h
      split at h <;> exact hearlier h
    | rejected => exact hearlier h
    | committed => exact hearlier h
    | refused => exact hearlier h
    | parked => exact hearlier h
    | writesFailed => exact hearlier h
    | abandoned => exact hearlier h

end History

/-- What is promised of the verdicts after a run. -/
structure VerdictsKept (writer : AccountStatusWriter) (log : List VerdictFate) : Prop where
  /-- Once an account is forgotten, a write is started only for a verdict recorded since. -/
  unforgotten : ∀ before between after accountId verdict,
    log = before ++ .forgot accountId :: between ++ .started accountId verdict :: after →
      .recorded accountId verdict ∈ between
  /-- A verdict whose write failed, with its account not forgotten and no later write of it started, waits,
  or one that it is not newer than does: in the map, or in the batch that a drain has taken out. -/
  retained : ∀ accountId verdict, (historyOf accountId log).owed = some verdict →
    ∃ kept, (writer.pending.get accountId = some kept ∨ (accountId, kept) ∈ writer.rest) ∧
      newerObservation verdict.observation kept.observation = false
  /-- Nothing recorded since the account was last forgotten is newer than the verdict that waits for it. -/
  newest : ∀ accountId verdict, writer.pending.get accountId = some verdict →
    ∀ other ∈ (historyOf accountId log).recorded, newerObservation other.observation verdict.observation = false

/-- The writer takes the verdict: it is not stopped, and the verdict is one to store. -/
def AccountStatusWriter.Takes (writer : AccountStatusWriter) (status : AccountStatus)
    (observation : HealthObservation) : Prop :=
  writer.lifecycle.accepting = true ∧ persistable status = true ∧ observation.status ∈ overwritableByObservation

/-- The steps that keep the promises: an account is forgotten only when the drain under way has no verdict of it
left, and a verdict is taken only when none recorded since is newer, or one as new still waits. -/
def KeepsOrder (tracked : AccountStatusWriter × List VerdictFate) : StatusWriterEvent → Prop
  | .forget accountId => accountId ∉ tracked.1.rest.map Prod.fst
  | .record accountId status observation _ => tracked.1.Takes status observation →
    (∃ waiting, tracked.1.pending.get accountId = some waiting ∧
      newerObservation observation waiting.observation = false) ∨
    ∀ other ∈ (historyOf accountId tracked.2).recorded, newerObservation other.observation observation = false
  | _ => True

section Invariant

variable {pending : InsertionMap String PendingVerdict} {forgotten : String → Nat}
  {todo : List (String × PendingVerdict)} {log more : List VerdictFate} {accountId : String}
  {verdict : PendingVerdict} {writer : AccountStatusWriter}

/-- No verdict recorded for the account since it was last forgotten is newer. -/
def Newest (log : List VerdictFate) (accountId : String) (verdict : PendingVerdict) : Prop :=
  ∀ other ∈ (historyOf accountId log).recorded, newerObservation other.observation verdict.observation = false

/-- What holds of the verdicts that wait and of those a drain has yet to offer. -/
structure Holds (pending : InsertionMap String PendingVerdict) (forgotten : String → Nat)
    (todo : List (String × PendingVerdict)) (log : List VerdictFate) : Prop where
  versions : ∀ accountId, ∀ verdict ∈ (historyOf accountId log).recorded,
    verdict.forgottenVersion = forgotten accountId
  waits : ∀ accountId verdict, pending.get accountId = some verdict →
    verdict ∈ (historyOf accountId log).recorded ∧ Newest log accountId verdict
  taken : ∀ accountId verdict, (accountId, verdict) ∈ todo → verdict ∈ (historyOf accountId log).recorded ∧
      (pending.get accountId = none → Newest log accountId verdict)
  retained : ∀ accountId verdict, (historyOf accountId log).owed = some verdict →
    ∃ kept, (pending.get accountId = some kept ∨ (accountId, kept) ∈ todo) ∧
      newerObservation verdict.observation kept.observation = false
  started : ∀ before after accountId verdict, log = before ++ .started accountId verdict :: after →
    verdict ∈ (historyOf accountId before).recorded

/-- A verdict that is out: it may come back only if its account was not forgotten. -/
structure Out (pending : InsertionMap String PendingVerdict) (forgotten : String → Nat) (log : List VerdictFate)
    (accountId : String) (verdict : PendingVerdict) : Prop where
  version : verdict.forgottenVersion ≤ forgotten accountId
  current : verdict.forgottenVersion = forgotten accountId → verdict ∈ (historyOf accountId log).recorded ∧
      (pending.get accountId = none → Newest log accountId verdict)

/-- A verdict yet to be offered is as good as one that is out. -/
theorem Holds.out (h : Holds pending forgotten todo log) (hmem : (accountId, verdict) ∈ todo) :
    Out pending forgotten log accountId verdict :=
  ⟨(h.versions _ _ (h.taken _ _ hmem).1).le, fun _ => h.taken _ _ hmem⟩

/-- Quiet entries change nothing. -/
theorem Holds.quiet (h : Holds pending forgotten todo log) (hquiet : ∀ fate ∈ more, fate.isQuiet = true) :
    Holds pending forgotten todo (log ++ more) := by
  have hhistory : ∀ accountId, historyOf accountId (log ++ more) = historyOf accountId log := historyOf_quiet hquiet
  constructor
  · simpa only [hhistory] using h.versions
  · simpa only [Newest, hhistory] using h.waits
  · simpa only [Newest, hhistory] using h.taken
  · simpa only [hhistory] using h.retained
  · intro before after accountId verdict hlog
    -- The write was started before the quiet entries.
    rcases List.append_eq_append_iff.mp hlog with ⟨gap, hbefore, hmore⟩ | ⟨gap, hsplit, hafter⟩
    · have hmem : VerdictFate.started accountId verdict ∈ more := by rw [hmore]; simp
      exact absurd (hquiet _ hmem) Bool.false_ne_true
    · cases gap with
      | nil =>
        have hmem : VerdictFate.started accountId verdict ∈ more := by
          rw [List.nil_append] at hafter
          rw [← hafter]
          exact List.mem_cons_self ..
        exact absurd (hquiet _ hmem) Bool.false_ne_true
      | cons head tail =>
        obtain ⟨rfl, -⟩ := List.cons.inj hafter
        exact h.started before tail accountId verdict hsplit

theorem Out.quiet (h : Out pending forgotten log accountId verdict) (hquiet : ∀ fate ∈ more, fate.isQuiet = true) :
    Out pending forgotten (log ++ more) accountId verdict where
  version := h.version
  current := by simpa only [Newest, historyOf_quiet hquiet] using h.current

/-- Starting a write does not change what is recorded. -/
theorem recorded_started (log : List VerdictFate) (accountId other : String) (verdict : PendingVerdict) :
    (historyOf other (log ++ [.started accountId verdict])).recorded = (historyOf other log).recorded := by
  rw [historyOf_concat]
  simp only [VerdictHistory.next]
  split <;> rfl

/-- Neither does a write that fails. -/
theorem recorded_failed (log : List VerdictFate) (accountId other : String) (verdict : PendingVerdict) :
    (historyOf other (log ++ [.failed accountId verdict])).recorded = (historyOf other log).recorded := by
  rw [historyOf_concat]
  simp only [VerdictHistory.next]
  split <;> rfl

/-- A log that ends in something else started its writes before. -/
theorem Holds.started_concat (h : Holds pending forgotten todo log) {fate : VerdictFate}
    (hfate : ∀ accountId verdict, fate = .started accountId verdict → verdict ∈ (historyOf accountId log).recorded)
    : ∀ before after accountId verdict, log ++ [fate] = before ++ .started accountId verdict :: after →
      verdict ∈ (historyOf accountId before).recorded := by
  intro before after accountId verdict hlog
  rcases List.eq_nil_or_concat' after with rfl | ⟨init, last, rfl⟩
  · obtain ⟨rfl, hlast⟩ := List.append_inj' hlog rfl
    exact hfate accountId verdict (List.head_eq_of_cons_eq hlast)
  · rw [← List.cons_append, ← List.append_assoc] at hlog
    obtain ⟨hinit, -⟩ := List.append_inj' hlog rfl
    exact h.started before init accountId verdict hinit

/-- Handing a verdict back leaves one waiting that it is not newer than. -/
theorem handBack_kept (hversion : writer.forgotten accountId = verdict.forgottenVersion) :
    ∃ kept, (writer.handBack accountId verdict).pending.get accountId = some kept ∧
      newerObservation verdict.observation kept.observation = false := by
  unfold AccountStatusWriter.handBack
  split
  · exact ⟨verdict, InsertionMap.get_set_self .., newerObservation_eq_false.mpr le_rfl⟩
  · next hheld =>
    rw [not_and] at hheld
    have hnotAll := hheld hversion
    cases hget : writer.pending.get accountId with
    | none => simp [hget] at hnotAll
    | some newer => exact ⟨newer, rfl, by simpa [hget] using hnotAll⟩

/-- Handing a verdict back keeps what holds. -/
theorem Holds.handBack (h : Holds writer.pending writer.forgotten todo log)
    (hout : Out writer.pending writer.forgotten log accountId verdict) :
    Holds (writer.handBack accountId verdict).pending writer.forgotten todo log := by
  unfold AccountStatusWriter.handBack
  split
  · next hheld =>
    obtain ⟨hrecorded, hnone⟩ := hout.current hheld.1.symm
    -- What waits is the newest, so nothing that is handed back replaces it.
    have hempty : writer.pending.get accountId = none := by
      cases hget : writer.pending.get accountId with
      | none => rfl
      | some waiting =>
        have hnewest := (h.waits _ _ hget).2 verdict hrecorded
        have hnewer : newerObservation verdict.observation waiting.observation = true := by
          simpa [hget] using hheld.2
        rw [hnewer] at hnewest
        cases hnewest
    constructor
    · exact h.versions
    · intro other waiting hget
      rw [InsertionMap.get_set] at hget
      split at hget
      · next hother =>
        cases hget
        rw [hother]
        exact ⟨hrecorded, hnone hempty⟩
      · exact h.waits other waiting hget
    · intro other taken hmem
      refine ⟨(h.taken other taken hmem).1, ?_⟩
      intro hget
      rw [InsertionMap.get_set] at hget
      split at hget
      · cases hget
      · exact (h.taken other taken hmem).2 hget
    · intro other owed howed
      obtain ⟨kept, hkept, hnot⟩ := h.retained other owed howed
      refine ⟨kept, ?_, hnot⟩
      rcases hkept with hget | hmem
      · refine .inl ?_
        have hother : other ≠ accountId := by
          rintro rfl
          rw [hempty] at hget
          cases hget
        rw [InsertionMap.get_set_of_ne _ _ hother]
        exact hget
      · exact .inr hmem
    · exact h.started
  · exact h

/-- A verdict the drain does not offer is handed back. -/
theorem Holds.skip (h : Holds writer.pending writer.forgotten ((accountId, verdict) :: todo) log) :
    Holds (writer.handBack accountId verdict).pending writer.forgotten todo log := by
  have hout := h.out (.head _)
  have hback := h.handBack hout
  constructor
  · exact hback.versions
  · exact hback.waits
  · exact fun other taken hmem => hback.taken other taken (.tail _ hmem)
  · intro other owed howed
    obtain ⟨kept, hkept, hnot⟩ := hback.retained other owed howed
    rcases hkept with hget | hmem
    · exact ⟨kept, .inl hget, hnot⟩
    · rcases List.mem_cons.mp hmem with heq | htail
      · obtain ⟨rfl, rfl⟩ := Prod.mk.inj heq
        have hversion := h.versions _ _ (h.taken _ _ (.head _)).1
        obtain ⟨waiting, hwaiting, hlower⟩ := @handBack_kept other kept writer hversion.symm
        refine ⟨waiting, .inl hwaiting, newerObservation_eq_false.mpr ?_⟩
        exact (newerObservation_eq_false.mp hnot).trans (newerObservation_eq_false.mp hlower)
      · exact ⟨kept, .inr htail, hnot⟩
  · exact hback.started

/-- The drain starts the write of its next verdict. -/
theorem Holds.start (h : Holds pending forgotten ((accountId, verdict) :: todo) log) :
    Holds pending forgotten todo (log ++ [.started accountId verdict]) where
  versions := by simpa only [recorded_started] using h.versions
  waits := by simpa only [Newest, recorded_started] using h.waits
  taken := by
    intro other taken hmem
    simpa only [Newest, recorded_started] using h.taken other taken (.tail _ hmem)
  retained := by
    intro other owed howed
    rw [historyOf_concat] at howed
    simp only [VerdictHistory.next] at howed
    split at howed
    · cases howed
    · next hother =>
      obtain ⟨kept, hkept, hnot⟩ := h.retained other owed howed
      refine ⟨kept, hkept.imp id fun hmem => ?_, hnot⟩
      rcases List.mem_cons.mp hmem with heq | htail
      · exact absurd (Prod.mk.inj heq).1.symm hother
      · exact htail
  started := by
    refine h.started_concat ?_
    intro other started heq
    cases heq
    exact (h.taken _ _ (.head _)).1

/-- A write that starts leaves what is out. -/
theorem Out.start (h : Out pending forgotten log accountId verdict) (other : String) (started : PendingVerdict) :
    Out pending forgotten (log ++ [.started other started]) accountId verdict where
  version := h.version
  current := by simpa only [Newest, recorded_started] using h.current

/-- The write of a verdict fails, and it is handed back. -/
theorem Holds.fail (h : Holds writer.pending writer.forgotten todo log)
    (hout : Out writer.pending writer.forgotten log accountId verdict) :
    Holds (writer.handBack accountId verdict).pending writer.forgotten todo (log ++ [.failed accountId verdict]) := by
  have hback := h.handBack hout
  constructor
  · simpa only [recorded_failed] using hback.versions
  · simpa only [Newest, recorded_failed] using hback.waits
  · simpa only [Newest, recorded_failed] using hback.taken
  · intro other owed howed
    rw [historyOf_concat] at howed
    simp only [VerdictHistory.next] at howed
    split at howed
    · next hfresh =>
      cases howed
      obtain ⟨rfl, hrecorded⟩ := hfresh
      obtain ⟨kept, hkept, hnot⟩ := @handBack_kept accountId verdict writer (h.versions _ _ hrecorded).symm
      exact ⟨kept, .inl hkept, hnot⟩
    · exact hback.retained other owed howed
  · exact hback.started_concat (fun _ _ heq => VerdictFate.noConfusion heq)

/-- A drain takes every verdict out. -/
theorem Holds.takeAll (h : Holds pending forgotten [] log) : Holds {} forgotten pending.entries log where
  versions := h.versions
  waits := fun _ _ hget => absurd hget (Option.some_ne_none _).symm
  taken := by
    intro accountId verdict hmem
    have hwaits := h.waits accountId verdict (InsertionMap.get_eq_some.mpr hmem)
    exact ⟨hwaits.1, fun _ => hwaits.2⟩
  retained := by
    intro accountId owed howed
    obtain ⟨kept, hkept, hnot⟩ := h.retained accountId owed howed
    rcases hkept with hget | hmem
    · exact ⟨kept, .inr (InsertionMap.get_eq_some.mp hget), hnot⟩
    · cases hmem
  started := h.started

/-- The verdict that waits once one is recorded. -/
theorem get_recorded {waiting : Bool} (other : String) :
    (if waiting then pending else pending.set accountId verdict).get other =
      if other = accountId ∧ waiting = false then some verdict else pending.get other := by
  cases waiting with
  | true => simp
  | false => simp [InsertionMap.get_set]

/-- What is recorded once a verdict is. -/
theorem recorded_recorded (log : List VerdictFate) (accountId other : String) (verdict : PendingVerdict) :
    (historyOf other (log ++ [.recorded accountId verdict])).recorded =
      (historyOf other log).recorded ++ if accountId = other then [verdict] else [] := by
  rw [historyOf_concat]
  simp only [VerdictHistory.next]
  split <;> simp

/-- A verdict is recorded in order. -/
theorem Holds.record (h : Holds pending forgotten todo log) {waiting : Bool}
    (hversion : verdict.forgottenVersion = forgotten accountId)
    (hwaiting : waiting = (pending.get accountId).any fun previous =>
      !newerObservation verdict.observation previous.observation)
    (horder : waiting = true ∨ Newest log accountId verdict) :
    Holds (if waiting then pending else pending.set accountId verdict) forgotten todo
      (log ++ [.recorded accountId verdict]) where
  versions := by
    intro other recorded hmem
    rw [recorded_recorded, List.mem_append] at hmem
    rcases hmem with hold | hnew
    · exact h.versions other recorded hold
    · split at hnew
      · next hother =>
        rw [List.mem_singleton.mp hnew, ← hother]
        exact hversion
      · cases hnew
  waits := by
    intro other waits hget
    rw [get_recorded] at hget
    unfold Newest
    rw [recorded_recorded]
    split at hget
    · next hplaced =>
      cases hget
      obtain ⟨rfl, hfree⟩ := hplaced
      refine ⟨List.mem_append_right _ (by simp), ?_⟩
      intro recorded hmem
      rcases List.mem_append.mp hmem with hold | hnew
      · exact (horder.resolve_left (by simp [hfree])) recorded hold
      · rw [if_pos rfl, List.mem_singleton] at hnew
        rw [hnew]
        exact newerObservation_eq_false.mpr le_rfl
    · next hplaced =>
      obtain ⟨hrecorded, hnewest⟩ := h.waits other waits hget
      refine ⟨List.mem_append_left _ hrecorded, ?_⟩
      intro recorded hmem
      rcases List.mem_append.mp hmem with hold | hnew
      · exact hnewest recorded hold
      · split at hnew
        · next hother =>
          subst hother
          rw [List.mem_singleton.mp hnew]
          have htrue : waiting = true := by simpa using hplaced
          rw [htrue, hget] at hwaiting
          simpa using hwaiting.symm
        · cases hnew
  taken := by
    intro other taken hmem
    obtain ⟨hrecorded, hnone⟩ := h.taken other taken hmem
    refine ⟨?_, ?_⟩
    · rw [recorded_recorded]
      exact List.mem_append_left _ hrecorded
    · intro hget
      rw [get_recorded] at hget
      split at hget
      · cases hget
      · next hplaced =>
        have hother : accountId ≠ other := by
          rintro rfl
          rw [hget] at hwaiting
          exact hplaced ⟨rfl, hwaiting⟩
        unfold Newest
        rw [recorded_recorded, if_neg hother, List.append_nil]
        exact hnone hget
  retained := by
    intro other owed howed
    rw [historyOf_concat] at howed
    simp only [VerdictHistory.next] at howed
    have howed' : (historyOf other log).owed = some owed := by
      split at howed <;> exact howed
    obtain ⟨kept, hkept, hnot⟩ := h.retained other owed howed'
    rcases hkept with hget | hmem
    · by_cases hplaced : other = accountId ∧ waiting = false
      · refine ⟨verdict, .inl (by rw [get_recorded, if_pos hplaced]), newerObservation_eq_false.mpr ?_⟩
        obtain ⟨rfl, hfree⟩ := hplaced
        rw [hget, hfree] at hwaiting
        have hnewer : newerObservation verdict.observation kept.observation = true := by
          simpa using hwaiting.symm
        exact (newerObservation_eq_false.mp hnot).trans (newerObservation_iff.mp hnewer).le
      · exact ⟨kept, .inl (by rw [get_recorded, if_neg hplaced]; exact hget), hnot⟩
    · exact ⟨kept, .inr hmem, hnot⟩
  started := h.started_concat (fun _ _ heq => VerdictFate.noConfusion heq)

/-- So does a verdict that comes in. -/
theorem Out.record {out : PendingVerdict} {other : String} (h : Out pending forgotten log other out) {waiting : Bool}
    (hwaiting : waiting = (pending.get accountId).any fun previous =>
      !newerObservation verdict.observation previous.observation) :
    Out (if waiting then pending else pending.set accountId verdict) forgotten
      (log ++ [.recorded accountId verdict]) other out where
  version := h.version
  current := by
    intro hversion
    obtain ⟨hrecorded, hnone⟩ := h.current hversion
    refine ⟨by rw [recorded_recorded]; exact List.mem_append_left _ hrecorded, ?_⟩
    intro hget
    rw [get_recorded] at hget
    split at hget
    · cases hget
    · next hplaced =>
      have hother : accountId ≠ other := by
        rintro rfl
        rw [hget] at hwaiting
        exact hplaced ⟨rfl, hwaiting⟩
      unfold Newest
      rw [recorded_recorded, if_neg hother, List.append_nil]
      exact hnone hget

/-- What a forget does to a history. -/
theorem historyOf_forgot (log : List VerdictFate) (accountId other : String) :
    historyOf other (log ++ [.forgot accountId]) = if accountId = other then {} else historyOf other log := by
  rw [historyOf_concat]
  rfl

/-- An account is forgotten with no verdict of it left to offer. -/
theorem Holds.forget (h : Holds pending forgotten todo log) (hnone : accountId ∉ todo.map Prod.fst) :
    Holds (pending.delete accountId) (Function.update forgotten accountId (forgotten accountId + 1)) todo
      (log ++ [.forgot accountId]) where
  versions := by
    intro other recorded hmem
    rw [historyOf_forgot] at hmem
    split at hmem
    · cases hmem
    · next hother =>
      rw [Function.update_of_ne (Ne.symm hother)]
      exact h.versions other recorded hmem
  waits := by
    intro other waits hget
    rw [InsertionMap.get_delete] at hget
    split at hget
    · cases hget
    · next hother =>
      unfold Newest
      rw [historyOf_forgot, if_neg (Ne.symm hother)]
      exact h.waits other waits hget
  taken := by
    intro other taken hmem
    have hother : accountId ≠ other := by
      rintro rfl
      exact hnone (List.mem_map_of_mem hmem)
    unfold Newest
    rw [historyOf_forgot, if_neg hother, InsertionMap.get_delete, if_neg (Ne.symm hother)]
    exact h.taken other taken hmem
  retained := by
    intro other owed howed
    rw [historyOf_forgot] at howed
    split at howed
    · cases howed
    · next hother =>
      rw [InsertionMap.get_delete, if_neg (Ne.symm hother)]
      exact h.retained other owed howed
  started := h.started_concat (fun _ _ heq => VerdictFate.noConfusion heq)

/-- So does an account that is forgotten. -/
theorem Out.forget {out : PendingVerdict} {other : String} (h : Out pending forgotten log other out) :
    Out (pending.delete accountId) (Function.update forgotten accountId (forgotten accountId + 1))
      (log ++ [.forgot accountId]) other out := by
  by_cases hother : other = accountId
  · subst hother
    have hlate := Nat.lt_succ_of_le h.version
    refine ⟨by rw [Function.update_self]; exact hlate.le, ?_⟩
    intro hversion
    rw [Function.update_self] at hversion
    exact absurd hversion hlate.ne
  · refine ⟨by rw [Function.update_of_ne hother]; exact h.version, ?_⟩
    rw [Function.update_of_ne hother]
    unfold Newest
    rw [historyOf_forgot, if_neg (Ne.symm hother), InsertionMap.get_delete, if_neg hother]
    exact h.current

end Invariant

section Steps

variable {writer next : AccountStatusWriter} {log more : List VerdictFate} {todo : List (String × PendingVerdict)}

/-- The verdict whose write is awaited. -/
def VerdictRun.current : VerdictRun → Option (String × PendingVerdict)
  | .writing accountId verdict _ _ => some (accountId, verdict)
  | _ => none

/-- What holds of a writer in order. -/
structure InOrder (writer : AccountStatusWriter) (log : List VerdictFate) : Prop where
  holds : Holds writer.pending writer.forgotten writer.rest log
  out : ∀ accountId verdict, writer.run.current = some (accountId, verdict) →
    Out writer.pending writer.forgotten log accountId verdict

/-- A step that moves no verdict and tells nothing of one keeps the order. -/
theorem InOrder.still (h : InOrder writer log) (hpending : next.pending = writer.pending)
    (hforgotten : next.forgotten = writer.forgotten) (hrun : next.run = writer.run)
    (hquiet : ∀ fate ∈ more, fate.isQuiet = true) : InOrder next (log ++ more) where
  holds := by
    have hrest : next.rest = writer.rest := by simp only [AccountStatusWriter.rest, hrun]
    rw [hpending, hforgotten, hrest]
    exact h.holds.quiet hquiet
  out := by
    rw [hpending, hforgotten, hrun]
    exact fun accountId verdict hcurrent => (h.out accountId verdict hcurrent).quiet hquiet

/-- A writer with no write awaited is in order when its verdicts are. -/
theorem InOrder.of_rest (h : Holds next.pending next.forgotten [] log) (hrun : next.run.current = none) :
    InOrder next log where
  holds := by
    have hrest : next.rest = [] := by
      unfold AccountStatusWriter.rest
      split
      · next hwriting =>
        rw [hwriting] at hrun
        cases hrun
      · rfl
    rw [hrest]
    exact h
  out := by
    rw [hrun]
    intro accountId verdict hcurrent
    cases hcurrent

theorem quiet_failures (failed : Nat) : ∀ fate ∈ AccountStatusWriter.failures failed, fate.isQuiet = true := by
  intro fate hfate
  unfold AccountStatusWriter.failures at hfate
  split at hfate
  · rw [List.mem_singleton.mp hfate]
    rfl
  · cases hfate

theorem quiet_warned (pending : Option Nat) : ∀ fate ∈ AccountStatusWriter.warned pending, fate.isQuiet = true := by
  intro fate hfate
  obtain ⟨count, -, rfl⟩ : ∃ count, pending = some count ∧ .abandoned count = fate := by
    simpa [AccountStatusWriter.warned] using hfate
  rfl

/-- A verdict that is handed back moves nothing else. -/
theorem handBack_forgotten (accountId : String) (verdict : PendingVerdict) :
    (writer.handBack accountId verdict).forgotten = writer.forgotten := by
  unfold AccountStatusWriter.handBack
  split <;> rfl

/-- A drain that goes on keeps the order: it hands back what it may no longer write, and starts the next write. -/
theorem Holds.drainFrom (failed : Nat) (h : Holds writer.pending writer.forgotten todo log) :
    InOrder (writer.drainFrom failed todo).1 (log ++ (writer.drainFrom failed todo).2) := by
  induction todo generalizing writer with
  | nil => exact InOrder.of_rest (h.quiet (quiet_failures failed)) rfl
  | cons entry rest ih =>
    obtain ⟨accountId, verdict⟩ := entry
    unfold AccountStatusWriter.drainFrom
    split
    · refine ih ?_
      rw [handBack_forgotten]
      exact h.skip
    · refine ⟨h.start, ?_⟩
      intro other started hcurrent
      cases hcurrent
      exact (h.out (.head _)).start _ _

/-- A flush keeps the order. -/
theorem InOrder.flush (h : InOrder writer log) : InOrder writer.flush.1 (log ++ writer.flush.2) := by
  unfold AccountStatusWriter.flush
  split
  · next hidle =>
    have hrest : writer.rest = [] := by simp only [AccountStatusWriter.rest, hidle]
    have hholds := h.holds
    rw [hrest] at hholds
    exact Holds.drainFrom 0 hholds.takeAll
  · rw [List.append_nil]
    exact h

/-- A pass keeps the order. -/
theorem InOrder.pass (h : InOrder writer log) (begins : Bool) :
    InOrder (writer.pass begins).1 (log ++ (writer.pass begins).2) := by
  unfold AccountStatusWriter.pass
  split
  · exact h.flush
  · rw [List.append_nil]
    exact h

/-- The awaited write settles. -/
theorem InOrder.writeSettles (h : InOrder writer log) (result : TransitionResult) :
    InOrder (writer.writeSettles result).1 (log ++ (writer.writeSettles result).2) := by
  unfold AccountStatusWriter.writeSettles
  split
  · next accountId verdict rest failed hrun =>
    have hrest : writer.rest = rest := by simp only [AccountStatusWriter.rest, hrun]
    have hholds := h.holds
    rw [hrest] at hholds
    cases result with
    | refused =>
      have hsettled : Holds writer.pending writer.forgotten rest (log ++ [.refused accountId verdict]) :=
        hholds.quiet fun fate hfate => by rw [List.mem_singleton.mp hfate]; rfl
      have hnext := @Holds.drainFrom { writer with refused := writer.refused + 1 } _ rest failed hsettled
      rw [List.append_assoc] at hnext
      exact hnext
    | committed =>
      have hquiet : ∀ fate ∈ VerdictFate.committed accountId verdict ::
          (if writer.onParked && verdict.status == .needsReauth then [VerdictFate.parked accountId] else []),
          fate.isQuiet = true := by
        intro fate hfate
        rcases List.mem_cons.mp hfate with rfl | hparked
        · rfl
        · split at hparked
          · rw [List.mem_singleton.mp hparked]
            rfl
          · cases hparked
      have hnext := @Holds.drainFrom { writer with written := writer.written + 1 } _ rest failed (hholds.quiet hquiet)
      rw [List.append_assoc] at hnext
      exact hnext
    | failed =>
      have hfailed := hholds.fail (h.out accountId verdict (by rw [hrun]; rfl))
      rw [← handBack_forgotten accountId verdict] at hfailed
      have hnext := @Holds.drainFrom
        { writer.handBack accountId verdict with writeFailures := writer.writeFailures + 1 } _ rest (failed + 1) hfailed
      rw [List.append_assoc] at hnext
      exact hnext
  · rw [List.append_nil]
    exact h

/-- A verdict is recorded in order. -/
theorem InOrder.record (h : InOrder writer log) (accountId : String) (status : AccountStatus)
    (observation : HealthObservation) (quotaWindows : Option (List QuotaWindowState))
    (horder : KeepsOrder (writer, log) (.record accountId status observation quotaWindows)) :
    InOrder (writer.record accountId status observation quotaWindows).1
      (log ++ (writer.record accountId status observation quotaWindows).2) := by
  unfold AccountStatusWriter.record
  split
  · exact h.still rfl rfl rfl fun fate hfate => by
      rw [List.mem_singleton.mp hfate]
      rfl
  · next haccepting =>
    split
    · rw [List.append_nil]
      exact h
    · next hstored =>
      have htakes : writer.Takes status observation := by
        simp only [Bool.or_eq_true, Bool.not_eq_true', decide_eq_false_iff_not, not_or, not_not,
          Bool.not_eq_false] at haccepting hstored
        exact ⟨haccepting, hstored.1, hstored.2⟩
      have hwaits : (writer.pending.get accountId).any (fun previous =>
            !newerObservation observation previous.observation) = true ∨
          Newest log accountId
            { status, observation, quotaWindows, forgottenVersion := writer.forgotten accountId } := by
        refine (horder htakes).imp ?_ id
        rintro ⟨waiting, hget, hnot⟩
        simp [hget, hnot]
      have hholds := @Holds.record writer.pending writer.forgotten writer.rest log accountId
        { status, observation, quotaWindows, forgottenVersion := writer.forgotten accountId } h.holds _ rfl rfl hwaits
      have hout := fun other out hcurrent =>
        @Out.record writer.pending writer.forgotten log accountId
          { status, observation, quotaWindows, forgottenVersion := writer.forgotten accountId } out other
          (h.out other out hcurrent) _ rfl
      dsimp only
      split
      · next hwaiting =>
        rw [if_pos hwaiting] at hholds
        simp only [if_pos hwaiting] at hout
        exact ⟨hholds, hout⟩
      · next hwaiting =>
        rw [if_neg hwaiting] at hholds
        simp only [if_neg hwaiting] at hout
        exact ⟨hholds, hout⟩

/-- Every step that keeps the order leaves the writer in order. -/
theorem InOrder.step (h : InOrder writer log) (event : StatusWriterEvent) (horder : KeepsOrder (writer, log) event) :
    InOrder (writer.step event).1 (log ++ (writer.step event).2) := by
  cases event with
  | record accountId status observation quotaWindows => exact h.record _ _ _ _ horder
  | forget accountId =>
    exact ⟨h.holds.forget horder, fun other out hcurrent => (h.out other out hcurrent).forget⟩
  | attachParked => exact h.still rfl rfl rfl (List.forall_mem_nil _)
  | flush => exact h.flush
  | tick => exact h.pass _
  | writeSettles result => exact h.writeSettles result
  | drainSettles =>
    unfold AccountStatusWriter.step
    dsimp only
    split
    · next hover =>
      have hrest : writer.rest = [] := by simp only [AccountStatusWriter.rest, hover]
      have hholds := h.holds
      rw [hrest] at hholds
      rw [List.append_nil]
      exact InOrder.of_rest hholds rfl
    · rw [List.append_nil]
      exact h
  | start => exact h.still rfl rfl rfl (List.forall_mem_nil _)
  | stop =>
    have hstopped : InOrder { writer with timer := false, lifecycle := writer.lifecycle.stop.1 } (log ++ []) :=
      h.still rfl rfl rfl (List.forall_mem_nil _)
    rw [List.append_nil] at hstopped
    exact hstopped.pass _
  | deadline => exact h.still rfl rfl rfl (quiet_warned _)
  | drainResumes failed =>
    have hresumed : InOrder
        { writer with
          lifecycle := (writer.lifecycle.drainResumes failed writer.pendingSize
            (writer.pendingSize + writer.unsettled)).1 }
        (log ++ AccountStatusWriter.warned (writer.lifecycle.drainResumes failed writer.pendingSize
          (writer.pendingSize + writer.unsettled)).2.1) := h.still rfl rfl rfl (quiet_warned _)
    have hpassed := hresumed.pass (writer.lifecycle.drainResumes failed writer.pendingSize
      (writer.pendingSize + writer.unsettled)).2.2
    rw [List.append_assoc] at hpassed
    exact hpassed

/-- A writer in order keeps what is promised of its verdicts. -/
theorem InOrder.verdictsKept (h : InOrder writer log) : VerdictsKept writer log where
  unforgotten := by
    intro before between after accountId verdict hlog
    have hrecorded := h.holds.started (before ++ .forgot accountId :: between) after accountId verdict hlog
    have hsplit : before ++ VerdictFate.forgot accountId :: between =
        (before ++ [.forgot accountId]) ++ between := by simp
    rw [hsplit, historyOf_append, historyOf_forgot, if_pos rfl] at hrecorded
    exact recorded_mem_of_history rfl between hrecorded
  retained := h.holds.retained
  newest := fun accountId verdict hget => (h.holds.waits accountId verdict hget).2

end Steps

/-- In every run whose steps keep the order, the promises are kept in every state reached. -/
theorem verdicts_kept_in_order (events : List StatusWriterEvent)
    (horder : EveryStep (logged AccountStatusWriter.step) KeepsOrder ({}, []) events) :
    VerdictsKept (runFrom (logged AccountStatusWriter.step) ({}, []) events).1
      (runFrom (logged AccountStatusWriter.step) ({}, []) events).2 := by
  have hstart : InOrder {} [] := by
    refine InOrder.of_rest ?_ rfl
    constructor
    · exact fun _ _ hmem => absurd hmem List.not_mem_nil
    · exact fun _ _ hget => absurd hget (Option.some_ne_none _).symm
    · exact fun _ _ hmem => absurd hmem List.not_mem_nil
    · exact fun _ _ howed => absurd howed (Option.some_ne_none _).symm
    · intro before after accountId verdict hlog
      simp at hlog
  refine InOrder.verdictsKept ?_
  refine runFrom_invariant_of_everyStep (fun tracked => InOrder tracked.1 tracked.2) ?_ events _ hstart horder
  intro tracked event h hevent
  exact h.step event hevent

/-- An observation of an active account, of this generation. -/
def observedAt (generation : Nat) : HealthObservation :=
  { lifecycleVersion := 1, healthRecoveryVersion := 0, authRecoveryVersion := 0, authMaterial := none
    status := .active, observationGeneration := generation, verdictVersion := 0, identity := 0 }

/-- A write fails, the account is forgotten with its verdict waiting again, and a later verdict is written. -/
theorem verdicts_kept_after_failure : VerdictsKept (runFrom (logged AccountStatusWriter.step) ({}, [])
        [.record "a" .exhausted (observedAt 1) none, .flush, .writeSettles .failed, .drainSettles, .forget "a",
          .record "a" .needsReauth (observedAt 2) none, .flush]).1
      (runFrom (logged AccountStatusWriter.step) ({}, [])
        [.record "a" .exhausted (observedAt 1) none, .flush, .writeSettles .failed, .drainSettles, .forget "a",
          .record "a" .needsReauth (observedAt 2) none, .flush]).2 := by
  refine verdicts_kept_in_order _
    ⟨fun _ => .inr ?_, trivial, trivial, trivial, ?_, fun _ => .inr ?_, trivial, trivial⟩
  · decide +kernel
  · show "a" ∉ _
    decide +kernel
  · decide +kernel

/-- The second account of a drain is forgotten while the first is written: its write is started all the
same. -/
theorem forgotten_verdict_written : ¬ VerdictsKept (runFrom (logged AccountStatusWriter.step) ({}, [])
        [.record "a" .exhausted (observedAt 1) none, .record "b" .exhausted (observedAt 1) none, .flush,
          .forget "b", .writeSettles .committed]).1
      (runFrom (logged AccountStatusWriter.step) ({}, [])
        [.record "a" .exhausted (observedAt 1) none, .record "b" .exhausted (observedAt 1) none, .flush,
          .forget "b", .writeSettles .committed]).2 := by
  intro h
  have hmem := h.unforgotten
    [.recorded "a" ⟨.exhausted, observedAt 1, none, 0⟩, .recorded "b" ⟨.exhausted, observedAt 1, none, 0⟩,
      .started "a" ⟨.exhausted, observedAt 1, none, 0⟩]
    [.committed "a" ⟨.exhausted, observedAt 1, none, 0⟩] [] "b" ⟨.exhausted, observedAt 1, none, 0⟩
    (by decide +kernel)
  simp at hmem

end MultiAiRouter.Dataplane
