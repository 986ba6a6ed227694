import Mathlib.Data.List.AList
import Mathlib.Data.Rat.Floor
import MultiAiRouter.Common.Gate
import MultiAiRouter.Common.Run

/-!
# No permit is lost or given twice

A caller takes its account's gate first and the global gate second; each `await` ends a step. Account gates are made
on first use and dropped once idle, and a gate is its position among all ever made, the global one first. A gate
counts the callers that hold it and lists those that wait.
-/

namespace MultiAiRouter.ClaudeSdk

open Common

/-- The limits of the two gates, as configured. -/
structure SdkConcurrencyLimits where
  global : ℚ
  perAccount : ℚ
  deriving DecidableEq

/-- The permits of a gate with the limit: at least one. -/
def gatePermits (limit : ℚ) : ℤ := max 1 ⌊limit⌋

/-- A gate with the limit. -/
def createGate (limit : ℚ) : Gate := { permits := gatePermits limit }

/-- Where a caller stands. A caller that leaves holds its account's permit only, and is about to give
it back. -/
inductive SlotPhase where
  | arriving
  | waitingAccount
  | accountGranted
  | waitingGlobal
  | globalGranted
  | slotHeld
  | leaving
  | released
  | failed
  deriving DecidableEq

/-- A caller of `acquire`: its account, the account's gate, whether its signal was aborted. -/
structure SlotCaller where
  accountId : String
  gate : ℕ
  phase : SlotPhase
  aborted : Bool := false
  deriving DecidableEq

/-- The gates, the account gates by account, and the callers in the order of their arrival. -/
structure SdkConcurrency where
  limits : SdkConcurrencyLimits
  gates : List Gate
  accounts : AList (fun _ : String => ℕ) := ∅
  callers : List SlotCaller := []

/-- No caller yet, and the global gate alone. -/
def createSdkConcurrency (limits : SdkConcurrencyLimits) : SdkConcurrency where
  limits := limits
  gates := [createGate limits.global]

/-- The caller in another phase. -/
def SlotCaller.to (phase : SlotPhase) (caller : SlotCaller) : SlotCaller := { caller with phase }

/-- The caller's signal is aborted. -/
def SlotCaller.mark (caller : SlotCaller) : SlotCaller := { caller with aborted := true }

/-- A caller that waited was let in. -/
def SlotCaller.grant (caller : SlotCaller) : SlotCaller :=
  match caller.phase with
  | .waitingAccount => caller.to .accountGranted
  | .waitingGlobal => caller.to .globalGranted
  | _ => caller

namespace SdkConcurrency

/-- The account's gate, made if it has none. -/
def gateFor (state : SdkConcurrency) (accountId : String) : ℕ × SdkConcurrency :=
  match state.accounts.lookup accountId with
  | some gate => (gate, state)
  | none =>
    (state.gates.length,
      { state with
        gates := state.gates ++ [createGate state.limits.perAccount]
        accounts := state.accounts.insert accountId state.gates.length })

/-- The caller asks a gate: it is granted a permit, or waits. -/
def enterGate (state : SdkConcurrency) (place number : ℕ) (granted waiting : SlotPhase) : SdkConcurrency :=
  match state.gates[place]? with
  | none => state
  | some gate =>
    let (taken, gate) := gate.enter number
    { state with
      gates := state.gates.set place gate
      callers := state.callers.modify number (SlotCaller.to (if taken then granted else waiting)) }

/-- The caller gives its permit back, which goes to the first that waits. -/
def leaveGate (state : SdkConcurrency) (place number : ℕ) (phase : SlotPhase) : SdkConcurrency :=
  match state.gates[place]? with
  | none => state
  | some gate =>
    let (next, gate) := gate.leave
    { state with
      gates := state.gates.set place gate
      callers := handTo SlotCaller.grant (state.callers.modify number (SlotCaller.to phase)) next }

/-- The caller is aborted in the queue. -/
def quitGate (state : SdkConcurrency) (place number : ℕ) (phase : SlotPhase) : SdkConcurrency :=
  match state.gates[place]? with
  | none => state
  | some gate =>
    { state with
      gates := state.gates.set place (gate.quit number)
      callers := state.callers.modify number (SlotCaller.to phase) }

/-- Drop the account's gate from the table when it is idle. -/
def forget (state : SdkConcurrency) (accountId : String) (place : ℕ) : SdkConcurrency :=
  if (state.gates[place]?.map Gate.idle).getD false && state.accounts.lookup accountId = some place then
    { state with accounts := state.accounts.erase accountId }
  else state

/-- A caller arrives, with a signal that may be aborted already. -/
def acquire (state : SdkConcurrency) (accountId : String) (aborted : Bool) : SdkConcurrency :=
  let (place, state) := state.gateFor accountId
  let number := state.callers.length
  if aborted then
    { state with callers := state.callers ++ [{ accountId, gate := place, phase := .failed, aborted }] }
  else
    enterGate { state with callers := state.callers ++ [{ accountId, gate := place, phase := .arriving }] }
      place number .accountGranted .waitingAccount

/-- A caller goes on after an `await`. -/
def resume (state : SdkConcurrency) (number : ℕ) : SdkConcurrency :=
  match state.callers[number]? with
  | none => state
  | some caller =>
    match caller.phase with
    | .accountGranted =>
      if caller.aborted then { state with callers := state.callers.modify number (SlotCaller.to .leaving) }
      else state.enterGate 0 number .globalGranted .waitingGlobal
    | .globalGranted => { state with callers := state.callers.modify number (SlotCaller.to .slotHeld) }
    | .leaving => (state.leaveGate caller.gate number .failed).forget caller.accountId caller.gate
    | _ => state

/-- A caller's signal is aborted; one that waits is taken out of its queue. -/
def abort (state : SdkConcurrency) (number : ℕ) : SdkConcurrency :=
  match state.callers[number]? with
  | none => state
  | some caller =>
    if caller.aborted then state
    else
      let marked := { state with callers := state.callers.modify number SlotCaller.mark }
      match caller.phase with
      | .waitingAccount => marked.quitGate caller.gate number .failed
      | .waitingGlobal => marked.quitGate 0 number .leaving
      | _ => marked

/-- A caller releases its slot; a second release does nothing. -/
def release (state : SdkConcurrency) (number : ℕ) : SdkConcurrency :=
  match state.callers[number]? with
  | none => state
  | some caller =>
    match caller.phase with
    | .slotHeld =>
      ((state.leaveGate 0 number .leaving).leaveGate caller.gate number .released).forget caller.accountId
        caller.gate
    | _ => state

end SdkConcurrency

/-- A step of the gates. -/
inductive SlotCall where
  | acquire (accountId : String) (aborted : Bool)
  | resume (number : ℕ)
  | abort (number : ℕ)
  | release (number : ℕ)
  deriving DecidableEq

/-- The gates after a step. -/
def SdkConcurrency.step (state : SdkConcurrency) : SlotCall → SdkConcurrency
  | .acquire accountId aborted => state.acquire accountId aborted
  | .resume number => state.resume number
  | .abort number => state.abort number
  | .release number => state.release number

/-- The phase holds a permit of the global gate. -/
def SlotPhase.holdsGlobal : SlotPhase → Bool
  | .globalGranted | .slotHeld => true
  | _ => false

/-- The phase holds a permit of the account's gate. -/
def SlotPhase.holdsAccount : SlotPhase → Bool
  | .accountGranted | .waitingGlobal | .globalGranted | .slotHeld | .leaving => true
  | _ => false

/-- The phase has to do with the account's gate. -/
def SlotPhase.active (phase : SlotPhase) : Bool := phase = .waitingAccount || phase.holdsAccount

/-- How far a caller has come; a caller never goes back. -/
def SlotPhase.rank : SlotPhase → ℕ
  | .arriving => 0
  | .waitingAccount => 1
  | .accountGranted => 2
  | .waitingGlobal => 3
  | .globalGranted => 4
  | .slotHeld => 5
  | .leaving => 6
  | .released | .failed => 7

/-- The caller holds a permit of the gate at the place. -/
def holdsGate (place : ℕ) (caller : SlotCaller) : Bool :=
  if place = 0 then caller.phase.holdsGlobal else decide (caller.gate = place) && caller.phase.holdsAccount

/-- The caller waits for the gate at the place. -/
def waitsGate (place : ℕ) (caller : SlotCaller) : Bool :=
  if place = 0 then decide (caller.phase = .waitingGlobal)
  else decide (caller.gate = place) && decide (caller.phase = .waitingAccount)

/-- The gate at the place cannot tell the two callers apart. -/
def Alike (place : ℕ) (caller caller' : SlotCaller) : Prop :=
  holdsGate place caller' = holdsGate place caller ∧ waitsGate place caller' = waitsGate place caller

/-- A caller that waits for a gate holds none of it, and holds one once it was let in. -/
theorem waitsGate_grant {place : ℕ} {waiter : SlotCaller} (h : waitsGate place waiter = true) :
    holdsGate place waiter = false ∧ holdsGate place waiter.grant = true ∧
      waitsGate place waiter.grant = false := by
  obtain ⟨accountId, gate, phase, aborted⟩ := waiter
  by_cases hplace : place = 0
  · subst hplace
    simp only [waitsGate, if_true, decide_eq_true_eq] at h
    subst h
    exact ⟨rfl, rfl, rfl⟩
  · simp only [waitsGate, hplace, if_false, Bool.and_eq_true, decide_eq_true_eq] at h
    obtain ⟨rfl, rfl⟩ := h
    simp [holdsGate, waitsGate, hplace, SlotCaller.grant, SlotCaller.to, SlotPhase.holdsAccount]

/-- A caller that waits for one gate looks the same to every other once it was let in. -/
theorem alike_grant {place other : ℕ} {waiter : SlotCaller} (h : waitsGate place waiter = true)
    (hother : other ≠ place) : Alike other waiter waiter.grant := by
  obtain ⟨accountId, gate, phase, aborted⟩ := waiter
  by_cases hplace : place = 0
  · subst hplace
    simp only [waitsGate, if_true, decide_eq_true_eq] at h
    subst h
    by_cases hsame : gate = other
    · simp [Alike, holdsGate, waitsGate, hother, hsame, SlotCaller.grant, SlotCaller.to, SlotPhase.holdsAccount]
    · simp [Alike, holdsGate, waitsGate, hother, hsame, SlotCaller.grant, SlotCaller.to]
  · simp only [waitsGate, hplace, if_false, Bool.and_eq_true, decide_eq_true_eq] at h
    obtain ⟨rfl, rfl⟩ := h
    by_cases hzero : other = 0
    · subst hzero
      exact ⟨rfl, rfl⟩
    · simp [Alike, holdsGate, waitsGate, hzero, Ne.symm hother, SlotCaller.grant, SlotCaller.to]

@[simp] theorem SlotCaller.grant_gate (caller : SlotCaller) : caller.grant.gate = caller.gate := by
  unfold SlotCaller.grant
  split <;> rfl

@[simp] theorem SlotCaller.grant_accountId (caller : SlotCaller) : caller.grant.accountId = caller.accountId := by
  unfold SlotCaller.grant
  split <;> rfl

/-- Letting a caller in keeps it busy with its account's gate and brings it on. -/
theorem SlotCaller.grant_phase (caller : SlotCaller) :
    (caller.grant.phase.active = true → caller.phase.active = true) ∧
      caller.phase.rank ≤ caller.grant.phase.rank := by
  obtain ⟨accountId, gate, phase, aborted⟩ := caller
  cases phase <;>
    simp [SlotCaller.grant, SlotCaller.to, SlotPhase.active, SlotPhase.holdsAccount, SlotPhase.rank]

namespace SdkConcurrency

variable {state : SdkConcurrency}

/-- The callers that wait for the gate at the place. -/
def queueAt (state : SdkConcurrency) (place : ℕ) : List ℕ := (state.gates[place]?.map Gate.queue).getD []

/-- The limit of the gate at the place. -/
def limitAt (state : SdkConcurrency) (place : ℕ) : ℚ :=
  if place = 0 then state.limits.global else state.limits.perAccount

/-- Every gate is balanced and has the permits of its limit; every caller has an account gate, which it finds in the
table. -/
structure Sound (state : SdkConcurrency) : Prop where
  nonempty : 0 < state.gates.length
  balanced : ∀ (place : ℕ) gate, state.gates[place]? = some gate →
    Balanced (holdsGate place) (waitsGate place) state.callers gate ∧
      gate.permits = gatePermits (state.limitAt place)
  placed : ∀ caller ∈ state.callers, 0 < caller.gate ∧ caller.gate < state.gates.length
  filed : ∀ caller ∈ state.callers, caller.phase.active = true →
    state.accounts.lookup caller.accountId = some caller.gate
  table : ∀ accountId place, state.accounts.lookup accountId = some place → 0 < place ∧ place < state.gates.length

/-- At one gate a step makes one move, at the others none, and every caller goes on or stays. -/
structure Moves (place : ℕ) (before after : SdkConcurrency) : Prop where
  here : GateMove (holdsGate place) before.callers after.callers (before.queueAt place) (after.queueAt place)
  elsewhere : ∀ other, other ≠ place → after.queueAt other = before.queueAt other ∧
    ∀ m, HoldsAt (holdsGate other) after.callers m → HoldsAt (holdsGate other) before.callers m
  onward : ∀ (n : ℕ) caller, before.callers[n]? = some caller →
    ∃ caller', after.callers[n]? = some caller' ∧ caller'.gate = caller.gate ∧
      caller.phase.rank ≤ caller'.phase.rank

/-- One gate and the callers change; the other gates see no difference. -/
theorem Sound.update (h : state.Sound) {place : ℕ} {gate gate' : Gate} {callers' : List SlotCaller}
    (hgate : state.gates[place]? = some gate)
    (hbalanced : Balanced (holdsGate place) (waitsGate place) callers' gate')
    (hpermits : gate'.permits = gate.permits)
    (hother : ∀ (other : ℕ) gate, other ≠ place → state.gates[other]? = some gate →
      Balanced (holdsGate other) (waitsGate other) callers' gate)
    (hcallers : ∀ caller' ∈ callers', ∃ caller ∈ state.callers, caller'.gate = caller.gate ∧
      caller'.accountId = caller.accountId ∧ (caller'.phase.active = true →
        state.accounts.lookup caller.accountId = some caller.gate)) :
    Sound { state with gates := state.gates.set place gate', callers := callers' } where
  nonempty := by rw [List.length_set]; exact h.nonempty
  balanced other found hfound := by
    have hlength := (List.getElem?_eq_some_iff.mp hgate).1
    by_cases hplace : other = place
    · subst hplace
      rw [List.getElem?_set_self hlength] at hfound
      obtain rfl := Option.some.inj hfound
      exact ⟨hbalanced, hpermits.trans (h.balanced other gate hgate).2⟩
    · rw [List.getElem?_set_ne (Ne.symm hplace)] at hfound
      exact ⟨hother other found hplace hfound, (h.balanced other found hfound).2⟩
  placed caller' hmem := by
    obtain ⟨caller, hcaller, hsame, -⟩ := hcallers caller' hmem
    rw [List.length_set, hsame]
    exact h.placed caller hcaller
  filed caller' hmem hactive := by
    obtain ⟨caller, -, hsame, haccount, hfiled⟩ := hcallers caller' hmem
    rw [hsame, haccount]
    exact hfiled hactive
  table accountId found hfound := by
    rw [List.length_set]
    exact h.table accountId found hfound

/-- The queue of a gate that was replaced, and of the others. -/
theorem queueAt_set {place : ℕ} {gate gate' : Gate} {callers' : List SlotCaller}
    (hgate : state.gates[place]? = some gate) (other : ℕ) :
    queueAt { state with gates := state.gates.set place gate', callers := callers' } other =
      if other = place then gate'.queue else state.queueAt other := by
  have hlength := (List.getElem?_eq_some_iff.mp hgate).1
  unfold queueAt
  dsimp only
  split
  · next hplace =>
    subst hplace
    rw [List.getElem?_set_self hlength]
    rfl
  · next hplace => rw [List.getElem?_set_ne (Ne.symm hplace)]

/-- Holders once a caller is replaced. -/
theorem holdsAt_set {holds : SlotCaller → Bool} {callers : List SlotCaller} {n m : ℕ}
    {caller caller' : SlotCaller} (hn : callers[n]? = some caller) :
    HoldsAt holds (callers.set n caller') m ↔ (m = n ∧ holds caller' = true) ∨ (m ≠ n ∧ HoldsAt holds callers m) :=
  waits_set_iff hn m

/-- Replacing a caller by one that looks the same to the other gates leaves them balanced. -/
theorem Sound.otherBalanced (h : state.Sound) {place number : ℕ} {caller caller' : SlotCaller}
    (hcaller : state.callers[number]? = some caller) (halike : ∀ other, other ≠ place → Alike other caller caller')
    (other : ℕ) (gate : Gate) (hother : other ≠ place) (hgate : state.gates[other]? = some gate) :
    Balanced (holdsGate other) (waitsGate other) (state.callers.set number caller') gate :=
  (h.balanced other gate hgate).1.frame hcaller (halike other hother).1 (halike other hother).2

/-- Replacing a caller keeps every caller's gate and account, and lets each go on. -/
theorem set_callers {number : ℕ} {caller : SlotCaller} (caller' : SlotCaller)
    (hcaller : state.callers[number]? = some caller) (hgate : caller'.gate = caller.gate)
    (haccount : caller'.accountId = caller.accountId) (h : state.Sound)
    (hfiled : caller'.phase.active = true → state.accounts.lookup caller.accountId = some caller.gate) :
    ∀ other' ∈ state.callers.set number caller', ∃ other ∈ state.callers, other'.gate = other.gate ∧
      other'.accountId = other.accountId ∧ (other'.phase.active = true →
        state.accounts.lookup other.accountId = some other.gate) := by
  intro other' hmem
  rcases List.mem_or_eq_of_mem_set hmem with hold | rfl
  · exact ⟨other', hold, rfl, rfl, h.filed other' hold⟩
  · exact ⟨caller, List.mem_of_getElem? hcaller, hgate, haccount, hfiled⟩

/-- A caller that goes on at its gate. -/
theorem set_onward {number : ℕ} {caller : SlotCaller} (caller' : SlotCaller) {callers : List SlotCaller}
    (hcaller : callers[number]? = some caller) (hgate : caller'.gate = caller.gate)
    (hrank : caller.phase.rank ≤ caller'.phase.rank) (n : ℕ) (other : SlotCaller)
    (hother : callers[n]? = some other) :
    ∃ other', (callers.set number caller')[n]? = some other' ∧ other'.gate = other.gate ∧
      other.phase.rank ≤ other'.phase.rank := by
  by_cases hn : number = n
  · subst hn
    obtain rfl := Option.some.inj (hcaller.symm.trans hother)
    exact ⟨caller', List.getElem?_set_self (List.getElem?_eq_some_iff.mp hcaller).1, hgate, hrank⟩
  · exact ⟨other, by rw [List.getElem?_set_ne hn]; exact hother, rfl, Nat.le_refl _⟩

/-- A caller that looks the same to every gate but one holds no other gate it did not hold. -/
theorem holdsAt_set_alike {place number m : ℕ} {caller caller' : SlotCaller} {callers : List SlotCaller}
    (hcaller : callers[number]? = some caller) (halike : Alike place caller caller')
    (h : HoldsAt (holdsGate place) (callers.set number caller') m) : HoldsAt (holdsGate place) callers m := by
  rcases (holdsAt_set hcaller).mp h with ⟨rfl, hholds⟩ | ⟨-, hholds⟩
  · exact ⟨caller, hcaller, halike.1 ▸ hholds⟩
  · exact hholds

/-- Asking a gate keeps all gates balanced: the caller takes a permit nobody waits for, or waits last. -/
theorem Sound.enterGate (h : state.Sound) (place : ℕ) (granted waiting : SlotPhase) {number : ℕ} {gate : Gate}
    {caller : SlotCaller} (hgate : state.gates[place]? = some gate)
    (hcaller : state.callers[number]? = some caller)
    (hout : holdsGate place caller = false ∧ waitsGate place caller = false)
    (hgranted : holdsGate place (caller.to granted) = true ∧ waitsGate place (caller.to granted) = false)
    (hwaiting : holdsGate place (caller.to waiting) = false ∧ waitsGate place (caller.to waiting) = true)
    (halike : ∀ other, other ≠ place →
      Alike other caller (caller.to granted) ∧ Alike other caller (caller.to waiting))
    (hfiled : state.accounts.lookup caller.accountId = some caller.gate)
    (hrank : caller.phase.rank ≤ granted.rank ∧ caller.phase.rank ≤ waiting.rank) :
    (state.enterGate place number granted waiting).Sound ∧
      Moves place state (state.enterGate place number granted waiting) := by
  obtain ⟨hbalanced, -⟩ := h.balanced place gate hgate
  -- The caller as the gate leaves it.
  let caller' := caller.to (if (gate.enter number).1 then granted else waiting)
  have hstate : state.enterGate place number granted waiting =
      { state with
        gates := state.gates.set place (gate.enter number).2
        callers := state.callers.set number caller' } := by
    unfold SdkConcurrency.enterGate
    rw [hgate]
    dsimp only
    rw [modify_eq_set hcaller]
  have hcases : (gate.enter number).1 = true ∨ (gate.enter number).1 = false := by
    cases (gate.enter number).1 <;> simp
  have hholds : holdsGate place caller' = (gate.enter number).1 := by
    rcases hcases with htaken | htaken <;> simp [caller', htaken, hgranted.1, hwaiting.1]
  have hwaits : waitsGate place caller' = !(gate.enter number).1 := by
    rcases hcases with htaken | htaken <;> simp [caller', htaken, hgranted.2, hwaiting.2]
  have hothers (other : ℕ) (hother : other ≠ place) : Alike other caller caller' := by
    rcases hcases with htaken | htaken
    · simpa [caller', htaken] using (halike other hother).1
    · simpa [caller', htaken] using (halike other hother).2
  have hpermits : (gate.enter number).2.permits = gate.permits := by
    unfold Gate.enter
    split <;> rfl
  rw [hstate]
  refine ⟨?_, ?_, ?_, ?_⟩
  · exact h.update hgate (hbalanced.enter hcaller hout.1 hout.2 hholds hwaits) hpermits
      (h.otherBalanced hcaller hothers) (set_callers _ hcaller rfl rfl h fun _ => hfiled)
  · rw [queueAt_set hgate, if_pos rfl]
    have hqueue : state.queueAt place = gate.queue := by rw [queueAt, hgate]; rfl
    rw [hqueue]
    by_cases hfree : gate.held < gate.permits
    · have hempty : gate.queue = [] := by
        by_contra hne
        have hfull := hbalanced.full hne
        omega
      rw [Gate.enter_of_lt hfree]
      refine .entered number hempty hempty fun m hm => ?_
      rcases (holdsAt_set hcaller).mp hm with ⟨rfl, -⟩ | ⟨-, hm⟩
      · exact .inr rfl
      · exact .inl hm
    · rw [Gate.enter_of_not_lt hfree] at hholds ⊢
      refine .queued number rfl fun m hm => ?_
      rcases (holdsAt_set hcaller).mp hm with ⟨rfl, hheld⟩ | ⟨-, hm⟩
      · rw [hholds] at hheld
        cases hheld
      · exact hm
  · intro other hother
    rw [queueAt_set hgate, if_neg hother]
    exact ⟨rfl, fun m hm => holdsAt_set_alike hcaller (hothers other hother) hm⟩
  · refine set_onward _ hcaller rfl ?_
    rcases hcases with htaken | htaken
    · simpa [caller', htaken, SlotCaller.to] using hrank.1
    · simpa [caller', htaken, SlotCaller.to] using hrank.2

/-- Leaving a queue keeps all gates balanced. -/
theorem Sound.quitGate (h : state.Sound) (place : ℕ) (phase : SlotPhase) {number : ℕ} {gate : Gate}
    {caller : SlotCaller} (hgate : state.gates[place]? = some gate)
    (hcaller : state.callers[number]? = some caller) (hwaits : waitsGate place caller = true)
    (hquit : holdsGate place (caller.to phase) = false ∧ waitsGate place (caller.to phase) = false)
    (halike : ∀ other, other ≠ place → Alike other caller (caller.to phase))
    (hrank : caller.phase.rank ≤ phase.rank)
    (hactive : (caller.to phase).phase.active = true → caller.phase.active = true) :
    (state.quitGate place number phase).Sound ∧ Moves place state (state.quitGate place number phase) := by
  obtain ⟨hbalanced, -⟩ := h.balanced place gate hgate
  have hstate : state.quitGate place number phase =
      { state with
        gates := state.gates.set place (gate.quit number)
        callers := state.callers.set number (caller.to phase) } := by
    unfold SdkConcurrency.quitGate
    rw [hgate]
    dsimp only
    rw [modify_eq_set hcaller]
  have hholds := (waitsGate_grant hwaits).1
  rw [hstate]
  refine ⟨?_, ?_, ?_, ?_⟩
  · exact h.update hgate (hbalanced.quit hcaller hholds hquit.1 hquit.2) rfl
      (h.otherBalanced hcaller halike) (set_callers _ hcaller rfl rfl h fun hnow =>
        h.filed caller (List.mem_of_getElem? hcaller) (hactive hnow))
  · rw [queueAt_set hgate, if_pos rfl]
    refine .quit number ?_ fun m hm => ?_
    · rw [queueAt, hgate]
      rfl
    · rcases (holdsAt_set hcaller).mp hm with ⟨rfl, hheld⟩ | ⟨-, hm⟩
      · rw [hquit.1] at hheld
        cases hheld
      · exact hm
  · intro other hother
    rw [queueAt_set hgate, if_neg hother]
    exact ⟨rfl, fun m hm => holdsAt_set_alike hcaller (halike other hother) hm⟩
  · exact set_onward _ hcaller rfl hrank

/-- Giving a permit back keeps all gates balanced: the first that waits is let in. -/
theorem Sound.leaveGate (h : state.Sound) (place : ℕ) (phase : SlotPhase) {number : ℕ} {gate : Gate}
    {caller : SlotCaller} (hgate : state.gates[place]? = some gate) (hcaller : state.callers[number]? = some caller)
    (hholds : holdsGate place caller = true ∧ waitsGate place caller = false)
    (hleft : holdsGate place (caller.to phase) = false ∧ waitsGate place (caller.to phase) = false)
    (halike : ∀ other, other ≠ place → Alike other caller (caller.to phase))
    (hrank : caller.phase.rank ≤ phase.rank)
    (hactive : (caller.to phase).phase.active = true → caller.phase.active = true) :
    (state.leaveGate place number phase).Sound ∧ Moves place state (state.leaveGate place number phase) ∧
      (state.leaveGate place number phase).callers[number]? = some (caller.to phase) := by
  obtain ⟨hbalanced, -⟩ := h.balanced place gate hgate
  have hstate : state.leaveGate place number phase =
      { state with
        gates := state.gates.set place gate.leave.2
        callers := handTo SlotCaller.grant (state.callers.set number (caller.to phase)) gate.leave.1 } := by
    unfold SdkConcurrency.leaveGate
    rw [hgate]
    dsimp only
    rw [modify_eq_set hcaller]
  have hnow := hbalanced.leave SlotCaller.grant (fun waiter hwaiter => waitsGate_grant hwaiter) hcaller
    hholds.1 hholds.2 hleft.1 hleft.2
  have hpermits : gate.leave.2.permits = gate.permits := by
    unfold Gate.leave
    split <;> rfl
  have hcallers := set_callers (caller.to phase) hcaller rfl rfl h fun hnow =>
    h.filed caller (List.mem_of_getElem? hcaller) (hactive hnow)
  have hqueueAt : state.queueAt place = gate.queue := by rw [queueAt, hgate]; rfl
  have hheld {m : ℕ} (hm : HoldsAt (holdsGate place) (state.callers.set number (caller.to phase)) m) :
      HoldsAt (holdsGate place) state.callers m := by
    rcases (holdsAt_set hcaller).mp hm with ⟨rfl, hheld⟩ | ⟨-, hm⟩
    · rw [hleft.1] at hheld
      cases hheld
    · exact hm
  have hlength := (List.getElem?_eq_some_iff.mp hcaller).1
  rw [hstate]
  cases hqueue : gate.queue with
  | nil =>
    rw [Gate.leave_of_nil hqueue] at hnow hpermits ⊢
    dsimp only [handTo] at hnow ⊢
    refine ⟨?_, ⟨?_, ?_, ?_⟩, List.getElem?_set_self hlength⟩
    · exact h.update hgate hnow hpermits (h.otherBalanced hcaller halike) hcallers
    · rw [queueAt_set hgate, if_pos rfl, hqueueAt]
      exact .same rfl fun m hm => hheld hm
    · intro other hother
      rw [queueAt_set hgate, if_neg hother]
      exact ⟨rfl, fun m hm => holdsAt_set_alike hcaller (halike other hother) hm⟩
    · exact set_onward _ hcaller rfl hrank
  | cons next rest =>
    obtain ⟨waiter, hwaiter, hwaiting⟩ := (hbalanced.mem_queue next).mp (by rw [hqueue]; exact List.mem_cons_self)
    have hother : number ≠ next := by
      rintro rfl
      rw [← Option.some.inj (hcaller.symm.trans hwaiter), hholds.2] at hwaiting
      cases hwaiting
    have hstill : (state.callers.set number (caller.to phase))[next]? = some waiter := by
      rw [List.getElem?_set_ne hother]
      exact hwaiter
    rw [Gate.leave_of_cons hqueue] at hnow hpermits ⊢
    dsimp only [handTo] at hnow ⊢
    rw [modify_eq_set hstill] at hnow ⊢
    refine ⟨?_, ⟨?_, ?_, ?_⟩, ?_⟩
    · refine h.update hgate hnow hpermits ?_ ?_
      · intro place' gate' hplace' hgate'
        have halike' := alike_grant hwaiting hplace'
        exact (h.otherBalanced hcaller halike place' gate' hplace' hgate').frame hstill halike'.1 halike'.2
      · intro other' hmem
        rcases List.mem_or_eq_of_mem_set hmem with hold | rfl
        · exact hcallers other' hold
        · have hold := List.mem_of_getElem? hwaiter
          exact ⟨waiter, hold, SlotCaller.grant_gate waiter, SlotCaller.grant_accountId waiter,
            fun hnow => h.filed waiter hold ((SlotCaller.grant_phase waiter).1 hnow)⟩
    · rw [queueAt_set hgate, if_pos rfl, hqueueAt]
      refine .handed next hqueue fun m hm => ?_
      rcases (holdsAt_set hstill).mp hm with ⟨rfl, -⟩ | ⟨-, hm⟩
      · exact .inr rfl
      · exact .inl (hheld hm)
    · intro place' hplace'
      rw [queueAt_set hgate, if_neg hplace']
      refine ⟨rfl, fun m hm => ?_⟩
      exact holdsAt_set_alike hcaller (halike place' hplace')
        (holdsAt_set_alike hstill (alike_grant hwaiting hplace') hm)
    · intro n other hn
      obtain ⟨middle, hmiddle, hgate', hrank'⟩ := set_onward (caller.to phase) hcaller rfl hrank n other hn
      obtain ⟨last, hlast, hgate'', hrank''⟩ := set_onward _ hstill (SlotCaller.grant_gate waiter)
        (SlotCaller.grant_phase waiter).2 n middle hmiddle
      exact ⟨last, hlast, hgate''.trans hgate', Nat.le_trans hrank' hrank''⟩
    · rw [List.getElem?_set_ne (Ne.symm hother)]
      exact List.getElem?_set_self hlength

end SdkConcurrency

end MultiAiRouter.ClaudeSdk
