import MultiAiRouter.ClaudeSdk.RefreshWindow

/-!
# An invocation asks the refresh window twice

`createSdkInvoker` asks `ensureFresh` before it queues for a slot and again with the slot in hand, and holds both
claims until its turn ends. The window keeps no name of an owner, so the second ask of an owner meets its own first
claim there. A busy-session retry is an invocation of its own.
-/

namespace MultiAiRouter.ClaudeSdk

open Common

/-- One invocation: the caller of its first ask, and of its second once its slot was granted. -/
structure SdkInvocation where
  first : ℕ
  second : Option ℕ := none
  ended : Bool := false
  deriving DecidableEq

/-- The window of one account and the invocations on it. -/
structure SdkInvoker where
  window : RefreshWindow
  invocations : List SdkInvocation := []
  deriving DecidableEq

/-- What happens: something to the window, a new invocation, its slot granted or refused, or its end. -/
inductive InvokerEvent
  | window (call : FreshnessCall)
  | invoke (aborted : Bool)
  | slotGranted (invocation : ℕ) (aborted : Bool)
  | slotRefused (invocation : ℕ)
  | finish (invocation : ℕ)
  deriving DecidableEq

namespace SdkInvoker

variable (options : CredentialFreshnessOptions)

/-- The ask has resolved to a claim. -/
def resolved : CallerPhase → Bool
  | .owning _ _ | .through => true
  | _ => false

/-- Release whatever the callers own. -/
def releaseAll (window : RefreshWindow) (callers : List ℕ) : RefreshWindow :=
  callers.foldl (fun window caller => window.step options (.release caller)) window

/-- One thing happens to the invoker. -/
def step (state : SdkInvoker) : InvokerEvent → SdkInvoker
  | .window call => { state with window := state.window.step options call }
  | .invoke aborted =>
    { window := state.window.step options (.ensureFresh aborted)
      invocations := state.invocations ++ [{ first := state.window.callers.length }] }
  | .slotGranted i aborted =>
    match state.invocations[i]? with
    | some { first, second := none, ended := false } =>
      if (state.window.callers[first]?).any resolved then
        { window := state.window.step options (.ensureFresh aborted)
          invocations := state.invocations.set i { first, second := some state.window.callers.length } }
      else state
    | _ => state
  | .slotRefused i =>
    match state.invocations[i]? with
    | some { first, second := none, ended := false } =>
      { window := releaseAll options state.window [first]
        invocations := state.invocations.set i { first, ended := true } }
    | _ => state
  | .finish i =>
    match state.invocations[i]? with
    | some { first, second := some second, ended := false } =>
      { window := releaseAll options state.window [second, first]
        invocations := state.invocations.set i { first, second := some second, ended := true } }
    | _ => state

/-- An invoker nobody has called yet. -/
def start (now : Int) : SdkInvoker := { window := .start now }

/-- The second ask's caller, while the invocation still owns the window by its first claim. -/
def AsksAgain (state : SdkInvoker) (caller : ℕ) (own : Holder) (lease : Bool) : Prop :=
  ∃ invocation ∈ state.invocations, invocation.second = some caller ∧
    state.window.callers[invocation.first]? = some (.owning own lease)

/-- A holder other than the invocation's own is on the record. -/
def OtherInside (state : SdkInvoker) (caller : ℕ) (own : Holder) : Prop :=
  ∃ holder ∈ state.window.holders, holder ≠ own ∧ ¬ state.window.Holds caller holder

/-- The lock is held elsewhere: it answers busy, and not for a lease of the own claim. -/
def LeasedElsewhere (caller : ℕ) (lease : Bool) : InvokerEvent → Prop
  | .window (.answer asked .busy _) => asked = caller ∧ lease = false
  | _ => False

/-- Where the call waits. -/
def Waits (state : SdkInvoker) (caller : ℕ) : Prop :=
  ∃ startedAt, state.window.callers[caller]? = some (.waiting startedAt)

/-- Whenever the second ask of an owner is made to wait, another holder is inside. -/
def WaitsForOthers (state : SdkInvoker) (event : InvokerEvent) : Prop :=
  ∀ caller own lease, state.AsksAgain caller own lease → ¬ state.Waits caller →
    (state.step options event).Waits caller →
    state.OtherInside caller own ∨ LeasedElsewhere caller lease event

/-- The second ask of a lone owner reads a credential inside the refresh window while its own claim is younger than
the cap, or asks for what that claim still holds. -/
def OwnClaimBlocks (state : SdkInvoker) : InvokerEvent → Prop
  | .window (.read caller result) =>
    ∃ own lease metadata startedAt, state.AsksAgain caller own lease ∧ ¬ state.OtherInside caller own ∧
      state.window.callers[caller]? = some (.reading startedAt) ∧ result = .metadata metadata ∧
      classify options state.window.now metadata = .refreshing ∧
      state.window.now - own.since < options.maxWaitMs
  | .window (.answer caller answer aborted) =>
    ∃ own lease holder unreleased startedAt, state.AsksAgain caller own lease ∧ ¬ state.OtherInside caller own ∧
      state.window.callers[caller]? = some (.trying holder unreleased startedAt) ∧
      (answer = .busy ∧ lease = true ∨
        (answer = .capacity ∨ answer = .aborted) ∧ aborted = false ∧ unreleased = true)
  | _ => False

variable {options} {state : SdkInvoker}

/-- Releasing claims keeps the record. -/
theorem releaseAll_recorded {window : RefreshWindow} (h : window.Recorded options) (callers : List ℕ) :
    (releaseAll options window callers).Recorded options := by
  induction callers generalizing window with
  | nil => exact h
  | cons caller rest ih => exact ih (RefreshWindow.step_recorded h (.release caller))

/-- Whatever happens, the window's record is kept. -/
theorem step_recorded (h : state.window.Recorded options) (event : InvokerEvent) :
    (state.step options event).window.Recorded options := by
  cases event with
  | window call => exact RefreshWindow.step_recorded h call
  | invoke aborted => exact RefreshWindow.step_recorded h (.ensureFresh aborted)
  | slotGranted i aborted =>
    simp only [step]
    split
    · split
      · exact RefreshWindow.step_recorded h (.ensureFresh aborted)
      · exact h
    · exact h
  | slotRefused i =>
    simp only [step]
    split
    · exact releaseAll_recorded h _
    · exact h
  | finish i =>
    simp only [step]
    split
    · exact releaseAll_recorded h _
    · exact h

/-- A call of the window waits: its read finds the credential inside the window and an active
holder, or the lock turns it away. -/
def Blocked (options : CredentialFreshnessOptions) (window : RefreshWindow) (caller : ℕ) :
    FreshnessCall → Prop
  | .read asked result =>
    asked = caller ∧ ∃ metadata startedAt, window.callers[caller]? = some (.reading startedAt) ∧
      result = .metadata metadata ∧ classify options window.now metadata = .refreshing ∧
      window.holders.any (isActive options window.now) = true
  | .answer asked answer aborted =>
    asked = caller ∧ ∃ holder unreleased startedAt,
      window.callers[caller]? = some (.trying holder unreleased startedAt) ∧
      (answer = .busy ∨ (answer = .capacity ∨ answer = .aborted) ∧ aborted = false ∧ unreleased = true)
  | _ => False

/-- The phase a caller moved to is its own. -/
theorem move_callers {window : RefreshWindow} {caller other : ℕ} {phase found : CallerPhase}
    (h : (window.move caller phase).callers[other]? = some found)
    (hnot : window.callers[other]? ≠ some found) : other = caller ∧ phase = found := by
  rcases getElem?_set_cases h with ⟨rfl, rfl⟩ | ⟨-, hold⟩
  · exact ⟨rfl, rfl⟩
  · exact absurd hold hnot

/-- A caller that moves is where it moved to. -/
theorem callers_move {window : RefreshWindow} {caller : ℕ} {before : CallerPhase} (phase : CallerPhase)
    (h : window.callers[caller]? = some before) : (window.move caller phase).callers[caller]? = some phase := by
  have hlt : caller < window.callers.length := (List.getElem?_eq_some_iff.mp h).1
  simp [RefreshWindow.move, hlt]

/-- A call is sent into waiting only where it is blocked. -/
theorem blocked_of_waiting {window : RefreshWindow} {call : FreshnessCall} {caller : ℕ} {startedAt : Int}
    (hnot : ∀ t, window.callers[caller]? ≠ some (.waiting t))
    (h : (window.step options call).callers[caller]? = some (.waiting startedAt)) :
    Blocked options window caller call := by
  cases call with
  | tick ms => exact absurd h (hnot _)
  | ensureFresh aborted =>
    simp only [RefreshWindow.step, List.getElem?_append] at h
    split at h
    · exact absurd h (hnot _)
    · have hmem := List.mem_of_getElem? h
      cases aborted <;> simp at hmem
  | read asked result =>
    simp only [RefreshWindow.step] at h
    split at h
    · next started hreading =>
      cases result with
      | ownershipUnavailable => exact absurd (move_callers h (hnot _)).2 (by simp)
      | unreadable => exact absurd (move_callers h (hnot _)).2 (by simp)
      | metadata metadata =>
        dsimp only at h
        split at h
        · next hrefreshing =>
          unfold RefreshWindow.tryOwn at h
          split at h
          · next hactive =>
            obtain ⟨rfl, -⟩ := move_callers h (hnot _)
            exact ⟨rfl, metadata, started, hreading, rfl, hrefreshing, hactive⟩
          · exact absurd (@move_callers _ _ _ (.trying _ _ _) _ h (hnot _)).2 (by simp)
        · exact absurd (move_callers h (hnot _)).2 (by simp)
    · exact absurd h (hnot _)
  | answer asked answer aborted =>
    simp only [RefreshWindow.step] at h
    split at h
    · next holder unreleased started htrying =>
      cases answer with
      | thrown => exact absurd (move_callers h (hnot _)).2 (by simp)
      | acquired => exact absurd (move_callers h (hnot _)).2 (by simp)
      | busy =>
        obtain ⟨rfl, -⟩ := move_callers h (hnot _)
        exact ⟨rfl, holder, unreleased, started, htrying, .inl rfl⟩
      | capacity | aborted =>
        simp only [RefreshWindow.answered] at h
        split at h
        · exact absurd (move_callers h (hnot _)).2 (by simp)
        · next haborted =>
          split at h
          · next hunreleased =>
            obtain ⟨rfl, -⟩ := move_callers h (hnot _)
            exact ⟨rfl, holder, unreleased, started, htrying,
              .inr ⟨by simp, by simpa using haborted, hunreleased⟩⟩
          · exact absurd (move_callers h (hnot _)).2 (by simp)
    · exact absurd h (hnot _)
  | wake asked aborted =>
    simp only [RefreshWindow.step] at h
    split at h
    · split at h
      · exact absurd (move_callers h (hnot _)).2 (by simp)
      · split at h
        · exact absurd (move_callers h (hnot _)).2 (by simp)
        · exact absurd (move_callers h (hnot _)).2 (by simp)
    · exact absurd h (hnot _)
  | release asked =>
    simp only [RefreshWindow.step] at h
    split at h
    · exact absurd (move_callers h (hnot _)).2 (by simp)
    · exact absurd h (hnot _)

/-- A blocked call was not waiting and is sent into waiting. -/
theorem waiting_of_blocked {window : RefreshWindow} {call : FreshnessCall} {caller : ℕ}
    (h : Blocked options window caller call) : (∀ t, window.callers[caller]? ≠ some (.waiting t)) ∧
      ∃ startedAt, (window.step options call).callers[caller]? = some (.waiting startedAt) := by
  cases call with
  | read asked result =>
    obtain ⟨rfl, metadata, started, hreading, rfl, hrefreshing, hactive⟩ := h
    refine ⟨by simp [hreading], started.getD window.now, ?_⟩
    simp only [RefreshWindow.step, hreading, hrefreshing, if_true, RefreshWindow.tryOwn, if_pos hactive]
    exact callers_move _ hreading
  | answer asked answer aborted =>
    obtain ⟨rfl, holder, unreleased, started, htrying, hanswer⟩ := h
    refine ⟨by simp [htrying], started, ?_⟩
    simp only [RefreshWindow.step, htrying]
    have hwaiting : ((window.retire holder).move asked (.waiting started)).callers[asked]? =
        some (.waiting started) := @callers_move (window.retire holder) _ _ _ htrying
    rcases hanswer with rfl | ⟨rfl | rfl, rfl, rfl⟩ <;> exact hwaiting
  | _ => exact h.elim

/-- Releasing claims makes nobody wait. -/
theorem releaseAll_not_waiting {caller : ℕ} (callers : List ℕ) {window : RefreshWindow}
    (hnot : ∀ t, window.callers[caller]? ≠ some (.waiting t)) :
    ∀ t, (releaseAll options window callers).callers[caller]? ≠ some (.waiting t) := by
  induction callers generalizing window with
  | nil => exact hnot
  | cons released rest ih =>
    refine ih ?_
    intro t h
    exact blocked_of_waiting hnot h

/-- The invoker makes a call wait only where the window does. -/
theorem blocked_of_waits {event : InvokerEvent} {caller : ℕ} (hnot : ¬ state.Waits caller)
    (h : (state.step options event).Waits caller) :
    ∃ call, event = .window call ∧ Blocked options state.window caller call := by
  have hnone : ∀ t, state.window.callers[caller]? ≠ some (.waiting t) := fun t ht => hnot ⟨t, ht⟩
  obtain ⟨startedAt, h⟩ := h
  cases event with
  | window call => exact ⟨call, rfl, blocked_of_waiting hnone h⟩
  | invoke aborted =>
      exact (@blocked_of_waiting options state.window (.ensureFresh aborted) caller startedAt hnone h).elim
  | slotGranted i aborted =>
    simp only [step] at h
    split at h
    · split at h
      · exact (@blocked_of_waiting options state.window (.ensureFresh aborted) caller startedAt hnone h).elim
      · exact absurd h (hnone _)
    · exact absurd h (hnone _)
  | slotRefused i =>
    simp only [step] at h
    split at h
    · exact absurd h (releaseAll_not_waiting _ hnone _)
    · exact absurd h (hnone _)
  | finish i =>
    simp only [step] at h
    split at h
    · exact absurd h (releaseAll_not_waiting _ hnone _)
    · exact absurd h (hnone _)

/-- An owner that asks again is on the record, unreleased. -/
theorem AsksAgain.own_recorded {caller : ℕ} {own : Holder} {lease : Bool}
    (hrecorded : state.window.Recorded options) (h : state.AsksAgain caller own lease) :
    own ∈ state.window.holders ∧ own.released = false := by
  obtain ⟨invocation, -, -, howning⟩ := h
  have hmem : own ∈ state.window.holders := hrecorded.recorded _ own (.inr ⟨lease, howning⟩)
  exact ⟨hmem, hrecorded.unreleased own hmem⟩

/-- Where an owner's own claim blocks its second ask, the ask waits for nobody else. -/
theorem not_waitsForOthers (hrecorded : state.window.Recorded options) {event : InvokerEvent}
    (h : state.OwnClaimBlocks options event) : ¬ state.WaitsForOthers options event := by
  intro hothers
  cases event with
  | window call =>
    cases call with
    | read caller result =>
      obtain ⟨own, lease, metadata, startedAt, hasks, halone, hreading, hresult, hrefreshing, hyoung⟩ := h
      obtain ⟨hmem, hunreleased⟩ := hasks.own_recorded hrecorded
      have hactive : state.window.holders.any (isActive options state.window.now) = true :=
        List.any_eq_true.mpr ⟨own, hmem, by simp [isActive, hunreleased, hyoung]⟩
      have hblocked : Blocked options state.window caller (.read caller result) :=
        ⟨rfl, metadata, startedAt, hreading, hresult, hrefreshing, hactive⟩
      obtain ⟨hnot, hwaits⟩ := waiting_of_blocked hblocked
      rcases hothers caller own lease hasks (not_exists.mpr hnot) hwaits with hother | hleased
      · exact halone hother
      · exact hleased
    | answer caller answer aborted =>
      obtain ⟨own, lease, holder, unreleased, startedAt, hasks, halone, htrying, hanswer⟩ := h
      have hblocked : Blocked options state.window caller (.answer caller answer aborted) :=
        ⟨rfl, holder, unreleased, startedAt, htrying, hanswer.imp And.left id⟩
      obtain ⟨hnot, hwaits⟩ := waiting_of_blocked hblocked
      rcases hothers caller own lease hasks (not_exists.mpr hnot) hwaits with hother | hleased
      · exact halone hother
      · rcases hanswer with ⟨rfl, rfl⟩ | ⟨rfl | rfl, -, -⟩
        · cases hleased.2
        · exact hleased
        · exact hleased
    | _ => exact h
  | _ => exact h

/-- An owner's second ask waits for others only, exactly where its own claim does not block it. -/
theorem waitsForOthers_iff (hrecorded : state.window.Recorded options) (event : InvokerEvent) :
    state.WaitsForOthers options event ↔ ¬ state.OwnClaimBlocks options event := by
  refine ⟨fun hothers hblocks => not_waitsForOthers hrecorded hblocks hothers, ?_⟩
  intro hfree caller own lease hasks hnot hwaits
  by_contra hnone
  obtain ⟨halone, hleased⟩ := not_or.mp hnone
  obtain ⟨call, rfl, hblocked⟩ := blocked_of_waits hnot hwaits
  refine hfree ?_
  cases call with
  | read asked result =>
    obtain ⟨rfl, metadata, startedAt, hreading, hresult, hrefreshing, hactive⟩ := hblocked
    obtain ⟨holder, hmem, hholder⟩ := List.any_eq_true.mp hactive
    -- The active holder is the own one: the asking call holds nothing, and nobody else is there.
    have hown : holder = own := by
      by_contra hne
      refine halone ⟨holder, hmem, hne, ?_⟩
      rintro (⟨_, _, htrying⟩ | ⟨_, howning⟩)
      · simp [hreading] at htrying
      · simp [hreading] at howning
    subst hown
    simp only [isActive, Bool.and_eq_true, decide_eq_true_eq] at hholder
    exact ⟨holder, lease, metadata, startedAt, hasks, halone, hreading, hresult, hrefreshing, hholder.2⟩
  | answer asked answer aborted =>
    obtain ⟨rfl, holder, unreleased, startedAt, htrying, hanswer⟩ := hblocked
    refine ⟨own, lease, holder, unreleased, startedAt, hasks, halone, htrying, ?_⟩
    rcases hanswer with rfl | hanswer
    · refine .inl ⟨rfl, ?_⟩
      by_contra hlease
      exact hleased ⟨rfl, by simpa using hlease⟩
    · exact .inr hanswer
  | _ => exact hblocked.elim

/-- Along every run of an account's window and invocations, an owner's second ask waits only for
others exactly when its own claim never blocks it. -/
theorem run_owner_waits_iff (options : CredentialFreshnessOptions) (now : Int) (events : List InvokerEvent) :
    EveryStep (step options) (fun state event => state.WaitsForOthers options event) (start now) events ↔
      EveryStep (step options) (fun state event => ¬ state.OwnClaimBlocks options event) (start now) events := by
  refine everyStep_congr (fun state => state.window.Recorded options) ?_ ?_ events (start now) ?_
  · intro state event hrecorded
    exact waitsForOthers_iff hrecorded event
  · intro state event hrecorded _
    exact step_recorded hrecorded event
  · exact RefreshWindow.start_recorded now

/-- The token is three milliseconds from expiry, inside a window of five: the owner's second ask waits behind its
own claim. -/
theorem run_owner_waits_itself : ¬ EveryStep (step { skewMs := 5, maxWaitMs := 10 })
      (fun state event => state.WaitsForOthers { skewMs := 5, maxWaitMs := 10 } event) (start 0)
      [.invoke false, .window (.read 0 (.metadata { hasTokens := true, accessTokenExpiresAt := some 3 })),
        .window (.answer 0 .acquired false), .window (.tick 1), .slotGranted 0 false,
        .window (.read 1 (.metadata { hasTokens := true, accessTokenExpiresAt := some 3 }))] := by
  intro h
  have hsecond := h.2.2.2.2.2.1 1 ⟨0, 0, false⟩ true ⟨_, List.mem_singleton_self _, rfl, rfl⟩
    (by rintro ⟨t, ht⟩; cases ht) ⟨1, rfl⟩
  rcases hsecond with ⟨holder, hmem, hne, -⟩ | hleased
  · exact hne (List.mem_singleton.mp hmem)
  · exact hleased

end SdkInvoker

end MultiAiRouter.ClaudeSdk
