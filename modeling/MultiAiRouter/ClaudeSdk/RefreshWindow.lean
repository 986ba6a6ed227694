import MultiAiRouter.ClaudeSdk.CredentialFreshness

/-!
# Who owns the refresh window

At most one owner is inside the cap at any time: a newcomer is admitted only when no holder on the
record is active, and a holder that aged out stays aged out.
-/

namespace MultiAiRouter.ClaudeSdk

open Common

namespace RefreshWindow

variable {options : CredentialFreshnessOptions} {state : RefreshWindow}

/-- The caller has an entry on the record: it owns the window or asks for the lease. -/
def Holds (state : RefreshWindow) (caller : ℕ) (holder : Holder) : Prop :=
  (∃ unreleased startedAt, state.callers[caller]? = some (.trying holder unreleased startedAt)) ∨
  ∃ lease, state.callers[caller]? = some (.owning holder lease)

/-- The record holds each caller's own entry, and at most one entry is active. -/
structure Recorded (options : CredentialFreshnessOptions) (state : RefreshWindow) : Prop where
  recorded : ∀ caller holder, state.Holds caller holder → holder ∈ state.holders
  numbered : ∀ holder ∈ state.holders, holder.entry < state.nextEntry
  own : ∀ first second holder other, state.Holds first holder → state.Holds second other →
    holder.entry = other.entry → first = second
  unreleased : ∀ holder ∈ state.holders, holder.released = false
  oneActive : ∀ holder ∈ state.holders, ∀ other ∈ state.holders,
    isActive options state.now holder → isActive options state.now other → holder = other

/-- A window nobody has called has nothing on record. -/
theorem start_recorded (now : Int) : (start now).Recorded options := by
  refine ⟨?_, ?_, ?_, ?_, ?_⟩ <;> simp [start, Holds]

/-- The entry a phase holds, if it holds one. -/
def held : CallerPhase → Option Holder
  | .trying holder _ _ => some holder
  | .owning holder _ => some holder
  | _ => none

/-- A caller holds the entry of its phase. -/
theorem holds_iff (state : RefreshWindow) (caller : ℕ) (holder : Holder) : state.Holds caller holder ↔
      ∃ phase, state.callers[caller]? = some phase ∧ held phase = some holder := by
  constructor
  · rintro (⟨unreleased, startedAt, h⟩ | ⟨lease, h⟩)
    · exact ⟨_, h, rfl⟩
    · exact ⟨_, h, rfl⟩
  · rintro ⟨phase, h, hheld⟩
    cases phase with
    | trying other unreleased startedAt =>
      obtain rfl : other = holder := by simpa [held] using hheld
      exact .inl ⟨unreleased, startedAt, h⟩
    | owning other lease =>
      obtain rfl : other = holder := by simpa [held] using hheld
      exact .inr ⟨lease, h⟩
    | reading | waiting | through | rejected | released => simp [held] at hheld

/-- After a move the caller holds what its new phase holds, and the others what they held. -/
theorem holds_move {caller other : ℕ} {phase : CallerPhase} {holder : Holder}
    (h : (state.move caller phase).Holds other holder) :
    other = caller ∧ held phase = some holder ∨ other ≠ caller ∧ state.Holds other holder := by
  rw [holds_iff] at h
  obtain ⟨found, hfound, hheld⟩ := h
  rcases getElem?_set_cases hfound with ⟨rfl, rfl⟩ | ⟨hne, hold⟩
  · exact .inl ⟨rfl, hheld⟩
  · exact .inr ⟨hne, (holds_iff ..).mpr ⟨found, hold, hheld⟩⟩

/-- A move that takes no new entry keeps the record. -/
theorem Recorded.move (hrecorded : state.Recorded options) {caller : ℕ} {phase : CallerPhase}
    (hphase : ∀ holder, held phase = some holder → state.Holds caller holder) :
    (state.move caller phase).Recorded options := by
  have hback {other : ℕ} {holder : Holder} (h : (state.move caller phase).Holds other holder) :
      state.Holds other holder := by
    rcases holds_move h with ⟨rfl, hheld⟩ | ⟨-, h⟩
    · exact hphase holder hheld
    · exact h
  exact ⟨fun caller holder h => hrecorded.recorded caller holder (hback h), hrecorded.numbered,
    fun first second holder other h₁ h₂ => hrecorded.own first second holder other (hback h₁) (hback h₂),
    hrecorded.unreleased, hrecorded.oneActive⟩

/-- A holder that retires and moves to a phase without an entry leaves the others on record. -/
theorem Recorded.retire_move (hrecorded : state.Recorded options) {caller : ℕ} {holder : Holder}
    {phase : CallerPhase} (hholds : state.Holds caller holder) (hphase : held phase = none) :
    ((state.retire holder).move caller phase).Recorded options := by
  have hsub : ∀ other ∈ ((state.retire holder).move caller phase).holders, other ∈ state.holders :=
    fun other hother => List.mem_of_mem_filter hother
  have hback {other : ℕ} {found : Holder} (h : ((state.retire holder).move caller phase).Holds other found) :
      other ≠ caller ∧ state.Holds other found := by
    rcases holds_move h with ⟨-, hheld⟩ | h
    · simp [hphase] at hheld
    · exact h
  refine ⟨?_, fun other hother => hrecorded.numbered other (hsub other hother), ?_,
    fun other hother => hrecorded.unreleased other (hsub other hother), ?_⟩
  · intro other found h
    obtain ⟨hne, hheld⟩ := hback h
    refine List.mem_filter.mpr ⟨hrecorded.recorded other found hheld, ?_⟩
    have hentry : found.entry ≠ holder.entry :=
      fun heq => hne (hrecorded.own other caller found holder hheld hholds heq)
    simpa using hentry
  · intro first second one other h₁ h₂
    exact hrecorded.own first second one other (hback h₁).2 (hback h₂).2
  · intro one hone other hother
    exact hrecorded.oneActive one (hsub one hone) other (hsub other hother)

/-- A newcomer is recorded beside holders that are all past the cap. -/
theorem Recorded.recordHolder (hrecorded : state.Recorded options) (caller : ℕ) (unreleased : Bool)
    (startedAt : Int) (hidle : ∀ holder ∈ state.holders, isActive options state.now holder = false) :
    (state.recordHolder caller unreleased startedAt).Recorded options := by
  have hback {other : ℕ} {found : Holder} (h : (state.recordHolder caller unreleased startedAt).Holds other found) :
      other = caller ∧ found = { entry := state.nextEntry, since := state.now } ∨
        other ≠ caller ∧ state.Holds other found := by
    have hmoved : (state.move caller (.trying { entry := state.nextEntry, since := state.now }
        unreleased startedAt)).Holds other found := h
    rcases holds_move hmoved with ⟨heq, hheld⟩ | hother
    · exact .inl ⟨heq, by simpa [held, eq_comm] using hheld⟩
    · exact .inr hother
  have hlt {other : ℕ} {found : Holder} (h : state.Holds other found) : found.entry < state.nextEntry :=
    hrecorded.numbered found (hrecorded.recorded other found h)
  refine ⟨?_, ?_, ?_, ?_, ?_⟩
  · intro other found h
    rcases hback h with ⟨-, rfl⟩ | ⟨-, h⟩
    · simp [RefreshWindow.recordHolder]
    · exact List.mem_append_left _ (hrecorded.recorded other found h)
  · intro holder hholder
    rcases List.mem_append.mp hholder with h | h
    · exact Nat.lt_succ_of_lt (hrecorded.numbered holder h)
    · obtain rfl := List.mem_singleton.mp h
      exact Nat.lt_succ_self _
  · intro first second holder other h₁ h₂ hentry
    rcases hback h₁ with ⟨hfirst, rfl⟩ | ⟨-, h₁⟩ <;> rcases hback h₂ with ⟨hsecond, rfl⟩ | ⟨-, h₂⟩
    · rw [hfirst, hsecond]
    · exact absurd hentry (Nat.ne_of_gt (hlt h₂))
    · exact absurd hentry (Nat.ne_of_lt (hlt h₁))
    · exact hrecorded.own first second holder other h₁ h₂ hentry
  · intro holder hholder
    rcases List.mem_append.mp hholder with h | h
    · exact hrecorded.unreleased holder h
    · rw [List.mem_singleton.mp h]
  · intro holder hholder other hother hactive hactive'
    have hnew {found : Holder} (hfound : found ∈ (state.recordHolder caller unreleased startedAt).holders)
        (hfoundActive : isActive options state.now found) :
        found = { entry := state.nextEntry, since := state.now } := by
      rcases List.mem_append.mp hfound with h | h
      · simp [hidle found h] at hfoundActive
      · exact List.mem_singleton.mp h
    rw [hnew hholder hactive, hnew hother hactive']

/-- Trying to own the window keeps the record. -/
theorem Recorded.tryOwn (hrecorded : state.Recorded options) (caller : ℕ) (startedAt : Int) :
    (state.tryOwn options caller startedAt).Recorded options := by
  unfold RefreshWindow.tryOwn
  split
  · exact hrecorded.move (by simp [held])
  · next hidle =>
    refine hrecorded.recordHolder caller _ startedAt fun holder hholder => ?_
    simp only [List.any_eq_true, not_exists, not_and, Bool.not_eq_true] at hidle
    exact hidle holder hholder

/-- The lock's answer keeps the record. -/
theorem Recorded.answered (hrecorded : state.Recorded options) {caller : ℕ} {holder : Holder}
    (hholds : state.Holds caller holder) (unreleased : Bool) (startedAt : Int) (aborted : Bool)
    (lease : LeaseAnswer) : (state.answered caller holder unreleased startedAt aborted lease).Recorded options := by
  have howning (won : Bool) : (state.move caller (.owning holder won)).Recorded options := by
    refine hrecorded.move fun other hother => ?_
    obtain rfl : holder = other := by simpa [held] using hother
    exact hholds
  cases lease with
  | thrown => exact howning false
  | acquired => exact howning true
  | busy => exact hrecorded.retire_move hholds rfl
  | capacity | aborted =>
    simp only [RefreshWindow.answered]
    split
    · exact hrecorded.retire_move hholds rfl
    · split
      · exact hrecorded.retire_move hholds rfl
      · exact howning false

/-- Time passing only ages holders out. -/
theorem Recorded.tick (hrecorded : state.Recorded options) (ms : ℕ) :
    ({ state with now := state.now + ms } : RefreshWindow).Recorded options := by
  have hage {holder : Holder} (h : isActive options (state.now + ms) holder) :
      isActive options state.now holder := by
    simp only [isActive, Bool.and_eq_true, decide_eq_true_eq] at h ⊢
    exact ⟨h.1, by omega⟩
  exact ⟨hrecorded.recorded, hrecorded.numbered, hrecorded.own, hrecorded.unreleased,
    fun holder hholder other hother h₁ h₂ =>
      hrecorded.oneActive holder hholder other hother (hage h₁) (hage h₂)⟩

/-- A new call holds no entry. -/
theorem Recorded.ensureFresh (hrecorded : state.Recorded options) (phase : CallerPhase) (hphase : held phase = none)
    : ({ state with callers := state.callers ++ [phase] } : RefreshWindow).Recorded options := by
  have hback {caller : ℕ} {holder : Holder}
      (h : ({ state with callers := state.callers ++ [phase] } : RefreshWindow).Holds caller holder) :
      state.Holds caller holder := by
    rw [holds_iff] at h ⊢
    obtain ⟨found, hfound, hheld⟩ := h
    simp only [List.getElem?_append] at hfound
    split at hfound
    · exact ⟨found, hfound, hheld⟩
    · obtain rfl := List.mem_singleton.mp (List.mem_of_getElem? hfound)
      simp [hphase] at hheld
  exact ⟨fun caller holder h => hrecorded.recorded caller holder (hback h), hrecorded.numbered,
    fun first second holder other h₁ h₂ => hrecorded.own first second holder other (hback h₁) (hback h₂),
    hrecorded.unreleased, hrecorded.oneActive⟩

/-- Whatever happens to a window keeps its record. -/
theorem step_recorded (hrecorded : state.Recorded options) (call : FreshnessCall) :
    (state.step options call).Recorded options := by
  cases call with
  | tick ms => exact hrecorded.tick ms
  | ensureFresh aborted => exact hrecorded.ensureFresh _ (by split <;> rfl)
  | read caller result =>
    simp only [step]
    split
    · cases result with
      | ownershipUnavailable => exact hrecorded.move (by simp [held])
      | unreadable => exact hrecorded.move (by simp [held])
      | metadata metadata =>
        dsimp only
        split
        · exact hrecorded.tryOwn caller _
        · exact hrecorded.move (by simp [held])
    · exact hrecorded
  | answer caller lease aborted =>
    simp only [step]
    split
    · next holder unreleased startedAt htrying =>
      exact hrecorded.answered (.inl ⟨unreleased, startedAt, htrying⟩) unreleased startedAt aborted lease
    · exact hrecorded
  | wake caller aborted =>
    simp only [step]
    split
    · split
      · exact hrecorded.move (by simp [held])
      · split <;> exact hrecorded.move (by simp [held])
    · exact hrecorded
  | release caller =>
    simp only [step]
    split
    · next holder lease howning => exact hrecorded.retire_move (.inr ⟨lease, howning⟩) rfl
    · exact hrecorded

/-- At most one owner is younger than the cap. -/
theorem Recorded.activelyOwns_unique (hrecorded : state.Recorded options) (first second : ℕ)
    (hfirst : state.ActivelyOwns options first) (hsecond : state.ActivelyOwns options second) : first = second := by
  obtain ⟨holder, lease, howning, hyoung⟩ := hfirst
  obtain ⟨other, lease', howning', hyoung'⟩ := hsecond
  have hholds : state.Holds first holder := .inr ⟨lease, howning⟩
  have hholds' : state.Holds second other := .inr ⟨lease', howning'⟩
  have hmem := hrecorded.recorded first holder hholds
  have hmem' := hrecorded.recorded second other hholds'
  have hactive : isActive options state.now holder := by
    simp [isActive, hrecorded.unreleased holder hmem, hyoung]
  have hactive' : isActive options state.now other := by
    simp [isActive, hrecorded.unreleased other hmem', hyoung']
  have heq := hrecorded.oneActive holder hmem other hmem' hactive hactive'
  exact hrecorded.own first second holder other hholds hholds' (by rw [heq])

/-- A caller that owns the window after a move owned it before or moved to owning it. -/
theorem owning_of_move {caller other : ℕ} {phase : CallerPhase} {holder : Holder} {lease : Bool}
    (h : (state.move caller phase).callers[other]? = some (.owning holder lease))
    (hnot : ¬ state.Owns other) : other = caller ∧ phase = .owning holder lease := by
  rcases getElem?_set_cases h with ⟨rfl, hphase⟩ | ⟨-, hold⟩
  · exact ⟨rfl, hphase.symm⟩
  · exact absurd ⟨holder, lease, hold⟩ hnot

/-- Only the lock's answer grants the window: with the lease when it was acquired, without it when
the lock was unavailable. -/
theorem step_grants (options : CredentialFreshnessOptions) (state : RefreshWindow)
    (call : FreshnessCall) {caller : ℕ} {holder : Holder} {lease : Bool}
    (h : (state.step options call).callers[caller]? = some (.owning holder lease))
    (hnot : ¬ state.Owns caller) : lease = true ∨ state.LeaseUnavailable call := by
  cases call with
  | tick ms => exact absurd ⟨holder, lease, h⟩ hnot
  | ensureFresh aborted =>
    simp only [step, List.getElem?_append] at h
    split at h
    · exact absurd ⟨holder, lease, h⟩ hnot
    · have hphase := List.mem_singleton.mp (List.mem_of_getElem? h)
      cases aborted <;> simp at hphase
  | read reader result =>
    simp only [step] at h
    split at h
    · cases result with
      | ownershipUnavailable => simpa using (owning_of_move h hnot).2
      | unreadable => simpa using (owning_of_move h hnot).2
      | metadata metadata =>
        dsimp only at h
        split at h
        · unfold tryOwn at h
          split at h
          · simpa using (owning_of_move h hnot).2
          · have hmoved : (state.move reader (.trying { entry := state.nextEntry, since := state.now }
                _ _)).callers[caller]? = some (.owning holder lease) := h
            simpa using (owning_of_move hmoved hnot).2
        · simpa using (owning_of_move h hnot).2
    · exact absurd ⟨holder, lease, h⟩ hnot
  | answer asker answer aborted =>
    simp only [step] at h
    split at h
    · next held unreleased startedAt htrying =>
      cases answer with
      | thrown => exact .inr ⟨held, unreleased, startedAt, htrying, .inl rfl⟩
      | acquired =>
        have hphase := (owning_of_move h hnot).2
        simp only [CallerPhase.owning.injEq] at hphase
        exact .inl hphase.2.symm
      | busy =>
        have hphase := (@owning_of_move (state.retire held) _ _ _ _ _ h hnot).2
        simp at hphase
      | capacity | aborted =>
        simp only [answered] at h
        split at h
        · have hphase := (@owning_of_move (state.retire held) _ _ _ _ _ h hnot).2
          simp at hphase
        · next hsignal =>
          split at h
          · have hphase := (@owning_of_move (state.retire held) _ _ _ _ _ h hnot).2
            simp at hphase
          · next hfound =>
            exact .inr ⟨held, unreleased, startedAt, htrying, .inr ⟨by simp, by simpa using hsignal,
              by simpa using hfound⟩⟩
    · exact absurd ⟨holder, lease, h⟩ hnot
  | wake waiter aborted =>
    simp only [step] at h
    split at h
    · split at h
      · simpa using (owning_of_move h hnot).2
      · split at h <;> simpa using (owning_of_move h hnot).2
    · exact absurd ⟨holder, lease, h⟩ hnot
  | release owner =>
    simp only [step] at h
    split at h
    · next held lease' howning =>
      simpa using (@owning_of_move (state.retire held) _ _ _ _ _ h hnot).2
    · exact absurd ⟨holder, lease, h⟩ hnot

/-- An unavailable lock grants the window to the caller it answers, without the lease. -/
theorem grants_of_leaseUnavailable (options : CredentialFreshnessOptions) {state : RefreshWindow}
    {call : FreshnessCall} (h : state.LeaseUnavailable call) : ∃ caller holder, ¬ state.Owns caller ∧
      (state.step options call).callers[caller]? = some (.owning holder false) := by
  cases call with
  | answer caller lease aborted =>
    obtain ⟨holder, unreleased, startedAt, htrying, hanswer⟩ := h
    refine ⟨caller, holder, ?_, ?_⟩
    · rintro ⟨other, won, howning⟩
      simp [htrying] at howning
    · have hmove : (state.move caller (.owning holder false)).callers[caller]? = some (.owning holder false) := by
        have hlt := (List.getElem?_eq_some_iff.mp htrying).1
        simp [move, hlt]
      simp only [step, htrying]
      rcases hanswer with rfl | ⟨rfl | rfl, rfl, rfl⟩
      · exact hmove
      · simpa [answered] using hmove
      · simpa [answered] using hmove
  | tick | ensureFresh | read | wake | release => exact h.elim

/-- One step leases every takeover exactly when the lock is unavailable only to a lone caller. -/
theorem takeoverLeased_iff (options : CredentialFreshnessOptions) (state : RefreshWindow)
    (call : FreshnessCall) : state.TakeoverLeased options call ↔ state.UnavailableAlone call := by
  constructor
  · intro hleased hunavailable other hother
    obtain ⟨caller, holder, hnot, hgrant⟩ := grants_of_leaseUnavailable options hunavailable
    simpa using hleased caller holder false hgrant hnot ⟨other, hother⟩
  · intro halone caller holder lease hgrant hnot hother
    rcases step_grants options state call hgrant hnot with hlease | hunavailable
    · exact hlease
    · obtain ⟨other, hother⟩ := hother
      exact absurd hother (halone hunavailable other)

/-- At most one owner is unreleased and younger than the cap after every prefix of a run; and every
takeover of the run holds the lease exactly when the lock is unavailable, throughout the run, only
while nobody owns the window. -/
theorem run_window_owned_iff (options : CredentialFreshnessOptions) (now : Int) (calls : List FreshnessCall) :
    ((∀ before after, calls = before ++ after → ∀ first second,
        (run options (start now) before).ActivelyOwns options first →
        (run options (start now) before).ActivelyOwns options second → first = second) ∧
      EveryStep (step options) (TakeoverLeased options) (start now) calls) ↔
    EveryStep (step options) UnavailableAlone (start now) calls := by
  have hone : ∀ before after, calls = before ++ after → ∀ first second,
      (run options (start now) before).ActivelyOwns options first →
      (run options (start now) before).ActivelyOwns options second → first = second := by
    intro before after _
    have hrecorded : (run options (start now) before).Recorded options :=
      runFrom_invariant (Recorded options) (fun state call h => step_recorded h call) before
        (start now) (start_recorded now)
    exact hrecorded.activelyOwns_unique
  have hleased : EveryStep (step options) (TakeoverLeased options) (start now) calls ↔
      EveryStep (step options) UnavailableAlone (start now) calls :=
    everyStep_congr (fun _ => True) (fun state call _ => takeoverLeased_iff options state call)
      (fun _ _ _ _ => trivial) calls (start now) trivial
  exact ⟨fun h => hleased.mp h.2, fun h => ⟨hone, hleased.mpr h⟩⟩

/-- A thrown lease answer grants the window to a newcomer while the owner it displaced has not
released. -/
theorem run_takeover_unleased : ¬ EveryStep (step { skewMs := 5, maxWaitMs := 10 })
      (TakeoverLeased { skewMs := 5, maxWaitMs := 10 }) (start 0)
      [.ensureFresh false, .read 0 (.metadata { hasTokens := true, accessTokenExpiresAt := some 3 }),
        .answer 0 .acquired false,
        .tick 10,
        .ensureFresh false,
        .read 1 (.metadata { hasTokens := true, accessTokenExpiresAt := some 3 }),
        .answer 1 .thrown false] := by
  rintro ⟨-, -, -, -, -, -, hleased, -⟩
  have hgranted := hleased 1 { entry := 1, since := 10 } false (by decide)
  have hnot : ¬ Owns (run { skewMs := 5, maxWaitMs := 10 } (start 0) [.ensureFresh false,
        .read 0 (.metadata { hasTokens := true, accessTokenExpiresAt := some 3 }),
        .answer 0 .acquired false,
        .tick 10,
        .ensureFresh false,
        .read 1 (.metadata { hasTokens := true, accessTokenExpiresAt := some 3 })]) 1 := by
    rintro ⟨holder, lease, howning⟩
    simp [run, step, tryOwn, recordHolder, answered, move, start, classify, isActive] at howning
  exact Bool.false_ne_true (hgranted hnot ⟨0, { entry := 0, since := 0 }, true, by decide⟩)

end RefreshWindow

end MultiAiRouter.ClaudeSdk
