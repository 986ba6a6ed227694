import MultiAiRouter.ClaudeSdk.GateSafety

/-!
# The gates over a whole run

From an empty state, whatever callers arrive, go on, are aborted and release: the limits hold, nobody is let in past
one who waits, and once every caller is done no permit is held.
-/

namespace MultiAiRouter.ClaudeSdk

open Common

namespace SdkConcurrency

variable {state : SdkConcurrency}

/-- What a step does: every gate stays balanced and makes one move at most, and every caller goes on or
stays. -/
structure StepSound (before after : SdkConcurrency) : Prop where
  sound : after.Sound
  limits : after.limits = before.limits
  move : ∀ place, GateMove (holdsGate place) before.callers after.callers (before.queueAt place)
    (after.queueAt place)
  onward : ∀ (n : ℕ) caller, before.callers[n]? = some caller →
    ∃ caller', after.callers[n]? = some caller' ∧ caller'.gate = caller.gate ∧
      caller.phase.rank ≤ caller'.phase.rank

/-- A move at one gate is a step. -/
theorem Moves.stepSound {place : ℕ} {before after : SdkConcurrency} (h : Moves place before after)
    (hsound : after.Sound) (hlimits : after.limits = before.limits) : StepSound before after where
  sound := hsound
  limits := hlimits
  move other := by
    by_cases hother : other = place
    · exact hother ▸ h.here
    · exact .same (h.elsewhere other hother).1 (h.elsewhere other hother).2
  onward := h.onward

/-- Nothing happens. -/
theorem Sound.still (h : state.Sound) : StepSound state state :=
  ⟨h, rfl, fun _ => .same rfl fun _ hm => hm, fun _ caller hcaller => ⟨caller, hcaller, rfl, Nat.le_refl _⟩⟩

/-- A caller that every gate sees as before changes its phase. -/
theorem Sound.setCaller (h : state.Sound) {number : ℕ} {caller : SlotCaller} (caller' : SlotCaller)
    (hcaller : state.callers[number]? = some caller) (hgate : caller'.gate = caller.gate)
    (haccount : caller'.accountId = caller.accountId) (halike : ∀ place, Alike place caller caller')
    (hrank : caller.phase.rank ≤ caller'.phase.rank)
    (hactive : caller'.phase.active = true → caller.phase.active = true) :
    StepSound state { state with callers := state.callers.set number caller' } where
  sound :=
    { nonempty := h.nonempty
      balanced := fun place gate hfound =>
        ⟨(h.balanced place gate hfound).1.frame hcaller (halike place).1 (halike place).2,
          (h.balanced place gate hfound).2⟩
      placed := by
        intro other' hmem
        obtain ⟨other, hother, hsame, -⟩ := set_callers caller' hcaller hgate haccount h (fun hnow =>
          h.filed caller (List.mem_of_getElem? hcaller) (hactive hnow)) other' hmem
        rw [hsame]
        exact h.placed other hother
      filed := by
        intro other' hmem hnow
        obtain ⟨other, -, hsame, hsameAccount, hfiled⟩ := set_callers caller' hcaller hgate haccount h
          (fun hnow => h.filed caller (List.mem_of_getElem? hcaller) (hactive hnow)) other' hmem
        rw [hsame, hsameAccount]
        exact hfiled hnow
      table := h.table }
  limits := rfl
  move place := .same rfl fun _ hm => holdsAt_set_alike hcaller (halike place) hm
  onward := set_onward caller' hcaller hgate hrank

/-- A gate that is dropped from the table has no caller left that has to do with it. -/
theorem Sound.forget (h : state.Sound) (accountId : String) (place : ℕ) : (state.forget accountId place).Sound := by
  unfold SdkConcurrency.forget
  split
  · next hidle =>
    rw [Bool.and_eq_true, decide_eq_true_eq] at hidle
    obtain ⟨hidle, hlookup⟩ := hidle
    obtain ⟨hpos, hlength⟩ := h.table accountId place hlookup
    have hgate : state.gates[place]? = some state.gates[place] := List.getElem?_eq_getElem hlength
    rw [hgate, Option.map_some, Option.getD_some, Gate.idle, Bool.and_eq_true, decide_eq_true_eq,
      List.isEmpty_iff] at hidle
    obtain ⟨hbalanced, -⟩ := h.balanced place _ hgate
    refine ⟨h.nonempty, h.balanced, h.placed, fun caller hmem hactive => ?_, fun other found hfound => ?_⟩
    · by_cases hsame : caller.accountId = accountId
      · -- The caller would hold the idle gate, or wait for it.
        exfalso
        have hfiled := h.filed caller hmem hactive
        rw [hsame, hlookup] at hfiled
        have hplace : caller.gate = place := (Option.some.inj hfiled).symm
        rw [SlotPhase.active, Bool.or_eq_true] at hactive
        rcases hactive with hwaits | hholds
        · obtain ⟨n, hn⟩ := List.mem_iff_getElem?.mp hmem
          have hqueued := (hbalanced.mem_queue n).mpr
            ⟨caller, hn, by simpa [waitsGate, hpos.ne', hplace] using hwaits⟩
          rw [hidle.2] at hqueued
          exact absurd hqueued List.not_mem_nil
        · have hcount : 0 < state.callers.countP (holdsGate place) :=
            List.countP_pos_iff.mpr ⟨caller, hmem, by simpa [holdsGate, hpos.ne', hplace] using hholds⟩
          have hheld := hbalanced.held_eq
          rw [hidle.1] at hheld
          omega
      · rw [AList.lookup_erase_ne hsame]
        exact h.filed caller hmem hactive
    · refine h.table other found ?_
      by_cases hsame : other = accountId
      · subst hsame
        rw [AList.lookup_erase] at hfound
        cases hfound
      · rwa [AList.lookup_erase_ne hsame] at hfound
  · exact h

@[simp] theorem forget_callers (accountId : String) (place : ℕ) :
    (state.forget accountId place).callers = state.callers := by
  unfold SdkConcurrency.forget
  split <;> rfl

@[simp] theorem forget_gates (accountId : String) (place : ℕ) :
    (state.forget accountId place).gates = state.gates := by
  unfold SdkConcurrency.forget
  split <;> rfl

@[simp] theorem forget_limits (accountId : String) (place : ℕ) :
    (state.forget accountId place).limits = state.limits := by
  unfold SdkConcurrency.forget
  split <;> rfl

/-- A step that drops an idle gate from the table at its end is a step. -/
theorem StepSound.forget {before after : SdkConcurrency} (h : StepSound before after) (accountId : String)
    (place : ℕ) : StepSound before (after.forget accountId place) where
  sound := h.sound.forget accountId place
  limits := by rw [forget_limits, h.limits]
  move other := by
    have hqueue : (after.forget accountId place).queueAt other = after.queueAt other := by
      rw [queueAt, forget_gates, queueAt]
    rw [forget_callers, hqueue]
    exact h.move other
  onward := by
    rw [forget_callers]
    exact h.onward

@[simp] theorem leaveGate_limits (place number : ℕ) (phase : SlotPhase) :
    (state.leaveGate place number phase).limits = state.limits := by
  unfold SdkConcurrency.leaveGate
  split <;> rfl

@[simp] theorem enterGate_limits (place number : ℕ) (granted waiting : SlotPhase) :
    (state.enterGate place number granted waiting).limits = state.limits := by
  unfold SdkConcurrency.enterGate
  split <;> rfl

@[simp] theorem quitGate_limits (place number : ℕ) (phase : SlotPhase) :
    (state.quitGate place number phase).limits = state.limits := by
  unfold SdkConcurrency.quitGate
  split <;> rfl

/-- A caller looks the same to every account gate but its own. -/
theorem alike_of_ne {place : ℕ} {caller caller' : SlotCaller} (hgate : caller'.gate = caller.gate)
    (hplace : place ≠ 0) (hne : caller.gate ≠ place) : Alike place caller caller' := by
  simp [Alike, holdsGate, waitsGate, hplace, hgate, hne]

/-- A caller whose account permit neither comes nor goes looks the same to the account gates. -/
theorem alike_account {place : ℕ} {caller caller' : SlotCaller} (hgate : caller'.gate = caller.gate)
    (hplace : place ≠ 0) (hholds : caller'.phase.holdsAccount = caller.phase.holdsAccount)
    (hwaits : (caller'.phase = .waitingAccount) ↔ (caller.phase = .waitingAccount)) :
    Alike place caller caller' := by
  simp [Alike, holdsGate, waitsGate, hplace, hgate, hholds, hwaits]

/-- The gate a caller asks for is there, with the account in the table. -/
theorem Sound.gateFor (h : state.Sound) (accountId : String) :
    (state.gateFor accountId).2.Sound ∧ (state.gateFor accountId).2.limits = state.limits ∧
      (state.gateFor accountId).2.callers = state.callers ∧
      (state.gateFor accountId).2.accounts.lookup accountId = some (state.gateFor accountId).1 ∧
      ∀ place, (state.gateFor accountId).2.queueAt place = state.queueAt place := by
  unfold SdkConcurrency.gateFor
  cases hlookup : state.accounts.lookup accountId with
  | some place => exact ⟨h, rfl, rfl, hlookup, fun _ => rfl⟩
  | none =>
    refine ⟨⟨?_, ?_, ?_, ?_, ?_⟩, rfl, rfl, AList.lookup_insert _, fun place => ?_⟩
    · simp
    · intro place gate hfound
      dsimp only at hfound
      rcases Nat.lt_or_ge place state.gates.length with hlength | hlength
      · rw [List.getElem?_append_left hlength] at hfound
        exact h.balanced place gate hfound
      · rw [List.getElem?_append_right hlength] at hfound
        have hnew : place - state.gates.length = 0 := by
          have hbound := (List.getElem?_eq_some_iff.mp hfound).1
          simp at hbound
          omega
        rw [hnew] at hfound
        obtain rfl := Option.some.inj hfound
        have hpos : place ≠ 0 := by
          have hnonempty := h.nonempty
          omega
        -- No caller has the new gate yet.
        have hnobody (caller : SlotCaller) (hmem : caller ∈ state.callers) : caller.gate ≠ place := by
          have hplaced := (h.placed caller hmem).2
          omega
        refine ⟨⟨?_, List.nodup_nil, fun n => ?_, ?_, fun hne => absurd rfl hne⟩, ?_⟩
        · have hcount : state.callers.countP (holdsGate place) = 0 := by
            rw [List.countP_eq_zero]
            intro caller hmem
            simp [holdsGate, hpos, hnobody caller hmem]
          rw [hcount]
          rfl
        · refine iff_of_false List.not_mem_nil ?_
          rintro ⟨caller, hcaller, hwaits⟩
          simp [waitsGate, hpos, hnobody caller (List.mem_of_getElem? hcaller)] at hwaits
        · have hone : (0 : ℤ) ≤ 1 := by decide
          exact Int.le_trans hone (le_max_left 1 ⌊state.limits.perAccount⌋)
        · rw [limitAt, if_neg hpos]
          rfl
    · intro caller hmem
      have hplaced := h.placed caller hmem
      simp only [List.length_append, List.length_singleton]
      omega
    · intro caller hmem hactive
      have hfiled := h.filed caller hmem hactive
      have hne : caller.accountId ≠ accountId := by
        rintro hsame
        rw [hsame, hlookup] at hfiled
        cases hfiled
      dsimp only
      rw [AList.lookup_insert_ne hne]
      exact hfiled
    · intro other place hfound
      dsimp only at hfound ⊢
      simp only [List.length_append, List.length_singleton]
      by_cases hsame : other = accountId
      · subst hsame
        rw [AList.lookup_insert] at hfound
        obtain rfl := Option.some.inj hfound
        exact ⟨h.nonempty, by omega⟩
      · rw [AList.lookup_insert_ne hsame] at hfound
        have hplace := h.table other place hfound
        omega
    · unfold queueAt
      dsimp only
      rcases Nat.lt_trichotomy place state.gates.length with hlength | rfl | hlength
      · rw [List.getElem?_append_left hlength]
      · simp [createGate]
      · rw [List.getElem?_eq_none (by simp; omega), List.getElem?_eq_none (by omega)]

/-- A caller that arrives holds nothing and waits for nothing. -/
theorem Sound.arrive (h : state.Sound) (caller : SlotCaller)
    (hgate : 0 < caller.gate ∧ caller.gate < state.gates.length)
    (hphase : caller.phase = .arriving ∨ caller.phase = .failed) :
    StepSound state { state with callers := state.callers ++ [caller] } := by
  have hholds (place : ℕ) : holdsGate place caller = false ∧ waitsGate place caller = false := by
    rcases hphase with hphase | hphase <;> by_cases hplace : place = 0 <;>
      simp [holdsGate, waitsGate, hphase, hplace, SlotPhase.holdsGlobal, SlotPhase.holdsAccount]
  have hidle : caller.phase.active = false := by
    rcases hphase with hphase | hphase <;> rw [hphase] <;> rfl
  refine ⟨⟨h.nonempty, ?_, ?_, ?_, h.table⟩, rfl, fun place => ?_, fun n other hother => ?_⟩
  · intro place gate hfound
    exact ⟨(h.balanced place gate hfound).1.append (hholds place).1 (hholds place).2,
      (h.balanced place gate hfound).2⟩
  · intro other hmem
    rcases List.mem_append.mp hmem with hold | hnew
    · exact h.placed other hold
    · rw [List.mem_singleton.mp hnew]
      exact hgate
  · intro other hmem hactive
    rcases List.mem_append.mp hmem with hold | hnew
    · exact h.filed other hold hactive
    · rw [List.mem_singleton.mp hnew, hidle] at hactive
      cases hactive
  · refine .same rfl ?_
    rintro m ⟨other, hother, hheld⟩
    rcases Nat.lt_or_ge m state.callers.length with hlength | hlength
    · rw [List.getElem?_append_left hlength] at hother
      exact ⟨other, hother, hheld⟩
    · rw [List.getElem?_append_right hlength] at hother
      rw [List.mem_singleton.mp (List.mem_of_getElem? hother), (hholds place).1] at hheld
      cases hheld
  · have hlength := (List.getElem?_eq_some_iff.mp hother).1
    refine ⟨other, ?_, rfl, Nat.le_refl _⟩
    rw [List.getElem?_append_left hlength]
    exact hother

/-- Two steps of which the second changes nothing at a gate, or the first, make one. -/
theorem StepSound.trans {before middle after : SdkConcurrency} (h : StepSound before middle)
    (h' : StepSound middle after)
    (hmoves : ∀ place, (after.queueAt place = middle.queueAt place ∧
          ∀ m, HoldsAt (holdsGate place) after.callers m → HoldsAt (holdsGate place) middle.callers m) ∨
        (middle.queueAt place = before.queueAt place ∧
          ∀ m, HoldsAt (holdsGate place) middle.callers m → HoldsAt (holdsGate place) before.callers m)) :
    StepSound before after where
  sound := h'.sound
  limits := h'.limits.trans h.limits
  move place := by
    rcases hmoves place with ⟨hqueue, hholds⟩ | ⟨hqueue, hholds⟩
    · rw [hqueue]
      exact (h.move place).then_same hholds
    · have hmove := h'.move place
      rw [hqueue] at hmove
      exact hmove.after_same hholds
  onward n caller hcaller := by
    obtain ⟨caller₁, hcaller₁, hgate₁, hrank₁⟩ := h.onward n caller hcaller
    obtain ⟨caller₂, hcaller₂, hgate₂, hrank₂⟩ := h'.onward n caller₁ hcaller₁
    exact ⟨caller₂, hcaller₂, hgate₂.trans hgate₁, Nat.le_trans hrank₁ hrank₂⟩

/-- A caller arrives. -/
theorem Sound.acquire (h : state.Sound) (accountId : String) (aborted : Bool) :
    StepSound state (state.acquire accountId aborted) := by
  obtain ⟨hsound, hlimits, hcallers, hlookup, hqueues⟩ := h.gateFor accountId
  unfold SdkConcurrency.acquire
  revert hsound hlimits hcallers hlookup hqueues
  generalize state.gateFor accountId = found
  obtain ⟨place, filed⟩ := found
  intro hsound hlimits hcallers hlookup hqueues
  dsimp only at hsound hlimits hcallers hlookup hqueues ⊢
  have hplace := hsound.table accountId place hlookup
  -- The table and the gates changed, the callers did not.
  have hfirst : StepSound state filed :=
    ⟨hsound, hlimits, fun other => .same (hqueues other) fun m hm => hcallers ▸ hm, fun n caller hcaller =>
      ⟨caller, hcallers ▸ hcaller, rfl, Nat.le_refl _⟩⟩
  have hunmoved (other : ℕ) : filed.queueAt other = state.queueAt other ∧
      ∀ m, HoldsAt (holdsGate other) filed.callers m → HoldsAt (holdsGate other) state.callers m :=
    ⟨hqueues other, fun m hm => hcallers ▸ hm⟩
  cases aborted with
  | true => exact hfirst.trans (hsound.arrive _ hplace (.inr rfl)) fun other => .inr (hunmoved other)
  | false =>
    have harrive := hsound.arrive { accountId, gate := place, phase := .arriving } hplace (.inl rfl)
    have hcaller : (filed.callers ++ [{ accountId, gate := place, phase := .arriving }])[filed.callers.length]? =
        some { accountId, gate := place, phase := .arriving } := by simp
    obtain ⟨hnow, hmoves⟩ := harrive.sound.enterGate place .accountGranted .waitingAccount
      (List.getElem?_eq_getElem hplace.2) hcaller
      (by simp [holdsGate, waitsGate, hplace.1.ne', SlotPhase.holdsAccount])
      (by simp [holdsGate, waitsGate, hplace.1.ne', SlotPhase.holdsAccount, SlotCaller.to])
      (by simp [holdsGate, waitsGate, hplace.1.ne', SlotPhase.holdsAccount, SlotCaller.to])
      (fun other hother => by
        by_cases hzero : other = 0
        · subst hzero
          exact ⟨⟨rfl, rfl⟩, rfl, rfl⟩
        · exact ⟨alike_of_ne rfl hzero (Ne.symm hother), alike_of_ne rfl hzero (Ne.symm hother)⟩)
      hlookup ⟨by simp [SlotPhase.rank], by simp [SlotPhase.rank]⟩
    have henter := hmoves.stepSound hnow (enterGate_limits _ _ _ _)
    refine hfirst.trans (harrive.trans henter fun other => .inr ?_) fun other => .inr (hunmoved other)
    refine ⟨rfl, ?_⟩
    rintro m ⟨other', hother', hheld⟩
    rcases Nat.lt_or_ge m filed.callers.length with hlength | hlength
    · rw [List.getElem?_append_left hlength] at hother'
      exact ⟨other', hother', hheld⟩
    · rw [List.getElem?_append_right hlength] at hother'
      rw [List.mem_singleton.mp (List.mem_of_getElem? hother')] at hheld
      by_cases hzero : other = 0 <;>
        simp [holdsGate, hzero, SlotPhase.holdsGlobal, SlotPhase.holdsAccount] at hheld

/-- A caller that holds the global gate, or has not come to it, goes on without a gate. -/
theorem Sound.goOn (h : state.Sound) {number : ℕ} {caller : SlotCaller} {phase : SlotPhase}
    (hcaller : state.callers[number]? = some caller)
    (hphase : caller.phase = .accountGranted ∧ phase = .leaving ∨ caller.phase = .globalGranted ∧ phase = .slotHeld) :
    StepSound state { state with callers := state.callers.modify number (SlotCaller.to phase) } := by
  rw [modify_eq_set hcaller]
  rcases hphase with ⟨hphase, rfl⟩ | ⟨hphase, rfl⟩
  all_goals
    refine h.setCaller _ hcaller rfl rfl (fun place => ?_) ?_ ?_
    · by_cases hplace : place = 0
      · subst hplace
        simp [Alike, holdsGate, waitsGate, SlotCaller.to, hphase, SlotPhase.holdsGlobal]
      · exact alike_account rfl hplace (by rw [hphase]; rfl) (by simp [SlotCaller.to, hphase])
    · simp [hphase, SlotCaller.to, SlotPhase.rank]
    · intro _
      rw [hphase]
      rfl

/-- A caller goes on. -/
theorem Sound.resume (h : state.Sound) (number : ℕ) : StepSound state (state.resume number) := by
  unfold SdkConcurrency.resume
  cases hcaller : state.callers[number]? with
  | none => exact h.still
  | some caller =>
    obtain ⟨hpos, hlength⟩ := h.placed caller (List.mem_of_getElem? hcaller)
    have hgate : state.gates[caller.gate]? = some state.gates[caller.gate] := List.getElem?_eq_getElem hlength
    dsimp only
    cases hphase : caller.phase with
    | accountGranted =>
      have hfiled := h.filed caller (List.mem_of_getElem? hcaller) (by rw [hphase]; rfl)
      dsimp only
      split
      · exact h.goOn hcaller (.inl ⟨hphase, rfl⟩)
      · obtain ⟨hnow, hmoves⟩ := h.enterGate 0 .globalGranted .waitingGlobal
          (List.getElem?_eq_getElem h.nonempty) hcaller
          (by simp [holdsGate, waitsGate, hphase, SlotPhase.holdsGlobal])
          (by simp [holdsGate, waitsGate, SlotPhase.holdsGlobal, SlotCaller.to])
          (by simp [holdsGate, waitsGate, SlotPhase.holdsGlobal, SlotCaller.to])
          (fun other hother =>
            ⟨alike_account rfl hother (by rw [hphase]; rfl) (by simp [SlotCaller.to, hphase]),
              alike_account rfl hother (by rw [hphase]; rfl) (by simp [SlotCaller.to, hphase])⟩)
          hfiled (by rw [hphase]; decide)
        exact hmoves.stepSound hnow (enterGate_limits _ _ _ _)
    | globalGranted => exact h.goOn hcaller (.inr ⟨hphase, rfl⟩)
    | leaving =>
      obtain ⟨hnow, hmoves, -⟩ := h.leaveGate caller.gate .failed hgate hcaller
        (by simp [holdsGate, waitsGate, hpos.ne', hphase, SlotPhase.holdsAccount])
        (by simp [holdsGate, waitsGate, hpos.ne', SlotPhase.holdsAccount, SlotCaller.to])
        (fun other hother => by
          by_cases hzero : other = 0
          · subst hzero
            simp [Alike, holdsGate, waitsGate, SlotCaller.to, hphase, SlotPhase.holdsGlobal]
          · exact alike_of_ne rfl hzero (Ne.symm hother))
        (by rw [hphase]; decide) (by intro hactive; cases hactive)
      exact (hmoves.stepSound hnow (leaveGate_limits _ _ _)).forget _ _
    | _ => exact h.still

/-- A caller's signal is aborted. -/
theorem Sound.abort (h : state.Sound) (number : ℕ) : StepSound state (state.abort number) := by
  unfold SdkConcurrency.abort
  cases hcaller : state.callers[number]? with
  | none => exact h.still
  | some caller =>
    dsimp only
    split
    · exact h.still
    · rw [modify_eq_set hcaller]
      have hmarked := h.setCaller caller.mark hcaller rfl rfl
        (fun _ => ⟨rfl, rfl⟩) (Nat.le_refl _) fun hactive => hactive
      have hlength' := (List.getElem?_eq_some_iff.mp hcaller).1
      have hcaller' : (state.callers.set number caller.mark)[number]? = some caller.mark :=
        List.getElem?_set_self hlength'
      have hunmoved (place : ℕ) :
          queueAt { state with callers := state.callers.set number caller.mark } place = state.queueAt place ∧
            ∀ m, HoldsAt (holdsGate place) (state.callers.set number caller.mark) m →
              HoldsAt (holdsGate place) state.callers m :=
        ⟨rfl, fun m hm => holdsAt_set_alike hcaller (show Alike place caller caller.mark from ⟨rfl, rfl⟩) hm⟩
      obtain ⟨hpos, hlength⟩ := h.placed caller (List.mem_of_getElem? hcaller)
      cases hphase : caller.phase with
      | waitingAccount =>
        have hphase' : caller.mark.phase = .waitingAccount := hphase
        obtain ⟨hnow, hmoves⟩ := hmarked.sound.quitGate caller.gate .failed
          (List.getElem?_eq_getElem hlength) hcaller'
          (by simp [waitsGate, hpos.ne', SlotCaller.mark, hphase])
          (by simp [holdsGate, waitsGate, hpos.ne', SlotPhase.holdsAccount, SlotCaller.to])
          (fun other hother => by
            by_cases hzero : other = 0
            · subst hzero
              simp [Alike, holdsGate, waitsGate, SlotCaller.to, hphase', SlotPhase.holdsGlobal]
            · exact alike_of_ne rfl hzero (Ne.symm hother))
          (by rw [hphase']; decide) (by intro hactive; cases hactive)
        exact hmarked.trans (hmoves.stepSound hnow (quitGate_limits _ _ _)) fun place => .inr (hunmoved place)
      | waitingGlobal =>
        have hphase' : caller.mark.phase = .waitingGlobal := hphase
        obtain ⟨hnow, hmoves⟩ := hmarked.sound.quitGate 0 .leaving (List.getElem?_eq_getElem h.nonempty) hcaller'
          (by simp [waitsGate, SlotCaller.mark, hphase])
          (by simp [holdsGate, waitsGate, SlotPhase.holdsGlobal, SlotCaller.to])
          (fun other hother =>
            alike_account rfl hother (by rw [hphase']; rfl) (by simp [SlotCaller.to, hphase']))
          (by rw [hphase']; decide) (by intro _; rw [hphase']; rfl)
        exact hmarked.trans (hmoves.stepSound hnow (quitGate_limits _ _ _)) fun place => .inr (hunmoved place)
      | _ => exact hmarked

/-- A caller releases its slot. -/
theorem Sound.release (h : state.Sound) (number : ℕ) : StepSound state (state.release number) := by
  unfold SdkConcurrency.release
  cases hcaller : state.callers[number]? with
  | none => exact h.still
  | some caller =>
    obtain ⟨hpos, hlength⟩ := h.placed caller (List.mem_of_getElem? hcaller)
    dsimp only
    cases hphase : caller.phase with
    | slotHeld =>
      obtain ⟨hfirst, hmoves, hcaller'⟩ := h.leaveGate 0 .leaving (List.getElem?_eq_getElem h.nonempty) hcaller
        (by simp [holdsGate, waitsGate, hphase, SlotPhase.holdsGlobal])
        (by simp [holdsGate, waitsGate, SlotPhase.holdsGlobal, SlotCaller.to])
        (fun other hother =>
          alike_account rfl hother (by rw [hphase]; rfl) (by simp [SlotCaller.to, hphase]))
        (by rw [hphase]; decide) (by intro _; rw [hphase]; rfl)
      have hlength' := (hfirst.placed _ (List.mem_of_getElem? hcaller')).2
      obtain ⟨hsecond, hmoves', -⟩ := hfirst.leaveGate caller.gate .released
        (List.getElem?_eq_getElem hlength') hcaller'
        (by simp [holdsGate, waitsGate, hpos.ne', SlotPhase.holdsAccount, SlotCaller.to])
        (by simp [holdsGate, waitsGate, hpos.ne', SlotPhase.holdsAccount, SlotCaller.to])
        (fun other hother => by
          by_cases hzero : other = 0
          · subst hzero
            simp [Alike, holdsGate, waitsGate, SlotCaller.to, SlotPhase.holdsGlobal]
          · exact alike_of_ne rfl hzero (Ne.symm hother))
        (by simp [SlotCaller.to, SlotPhase.rank]) (by intro hactive; cases hactive)
      refine StepSound.forget ?_ _ _
      refine (hmoves.stepSound hfirst (leaveGate_limits _ _ _)).trans
        (hmoves'.stepSound hsecond (leaveGate_limits _ _ _)) fun place => ?_
      by_cases hplace : place = 0
      · subst hplace
        exact .inl (hmoves'.elsewhere 0 hpos.ne)
      · exact .inr (hmoves.elsewhere place hplace)
    | _ => exact h.still

/-- Every step keeps the gates balanced and moves each at most once. -/
theorem step_stepSound (state : SdkConcurrency) (call : SlotCall) (h : state.Sound) :
    StepSound state (state.step call) := by
  cases call with
  | acquire accountId aborted => exact h.acquire accountId aborted
  | resume number => exact h.resume number
  | abort number => exact h.abort number
  | release number => exact h.release number

/-- At the start the global gate is idle and nobody has arrived. -/
theorem sound_createSdkConcurrency (limits : SdkConcurrencyLimits) : (createSdkConcurrency limits).Sound where
  nonempty := by simp [createSdkConcurrency]
  balanced place gate hfound := by
    have hplace : place = 0 := by
      have hlength := (List.getElem?_eq_some_iff.mp hfound).1
      simp [createSdkConcurrency] at hlength
      exact hlength
    subst hplace
    obtain rfl := Option.some.inj hfound
    have hone : (0 : ℤ) ≤ 1 := by decide
    refine ⟨⟨rfl, List.nodup_nil, fun n => ?_, ?_, fun hne => absurd rfl hne⟩, rfl⟩
    · simp [createSdkConcurrency, createGate]
    · exact Int.le_trans hone (le_max_left 1 ⌊limits.global⌋)
  placed := by simp [createSdkConcurrency]
  filed := by simp [createSdkConcurrency]
  table := by simp [createSdkConcurrency]

/-- A run keeps the gates balanced, with their limits. -/
theorem run_sound (calls : List SlotCall) (h : state.Sound) : (runFrom SdkConcurrency.step state calls).Sound ∧
      (runFrom SdkConcurrency.step state calls).limits = state.limits := by
  refine runFrom_invariant (fun after : SdkConcurrency => after.Sound ∧ after.limits = state.limits) ?_ calls state
    ⟨h, rfl⟩
  rintro before call ⟨hsound, hlimits⟩
  have hstep := step_stepSound before call hsound
  exact ⟨hstep.sound, hstep.limits.trans hlimits⟩

/-- The slots of an account that are granted and not released are permits of one gate. -/
theorem Sound.account_le (h : state.Sound) (accountId : String) :
    (state.callers.countP fun caller => decide (caller.accountId = accountId) && caller.phase.holdsGlobal : ℤ) ≤
      gatePermits state.limits.perAccount := by
  have hone : (0 : ℤ) ≤ gatePermits state.limits.perAccount :=
    Int.le_trans (by decide) (le_max_left 1 ⌊state.limits.perAccount⌋)
  have hactive {caller : SlotCaller} (hmem : caller ∈ state.callers)
      (hslot : (decide (caller.accountId = accountId) && caller.phase.holdsGlobal) = true) :
      state.accounts.lookup accountId = some caller.gate ∧ caller.phase.holdsAccount = true := by
    rw [Bool.and_eq_true, decide_eq_true_eq] at hslot
    have hholds : caller.phase.holdsAccount = true := by
      have hglobal := hslot.2
      cases hphase : caller.phase <;> rw [hphase] at hglobal <;> first | rfl | cases hglobal
    have hfiled := h.filed caller hmem (by rw [SlotPhase.active, hholds, Bool.or_true])
    rw [hslot.1] at hfiled
    exact ⟨hfiled, hholds⟩
  cases hlookup : state.accounts.lookup accountId with
  | none =>
    have hnone : (state.callers.countP fun caller =>
        decide (caller.accountId = accountId) && caller.phase.holdsGlobal) = 0 := by
      rw [List.countP_eq_zero]
      intro caller hmem hslot
      have hfiled := (hactive hmem hslot).1
      rw [hlookup] at hfiled
      cases hfiled
    rw [hnone]
    exact hone
  | some place =>
    obtain ⟨hpos, hlength⟩ := h.table accountId place hlookup
    obtain ⟨hbalanced, hpermits⟩ := h.balanced place _ (List.getElem?_eq_getElem hlength)
    have hcount : (state.callers.countP fun caller =>
        decide (caller.accountId = accountId) && caller.phase.holdsGlobal) ≤
          state.callers.countP (holdsGate place) := by
      refine List.countP_mono_left fun caller hmem hslot => ?_
      obtain ⟨hfiled, hholds⟩ := hactive hmem hslot
      rw [hlookup] at hfiled
      have hgate : caller.gate = place := (Option.some.inj hfiled).symm
      simp [holdsGate, hpos.ne', hgate, hholds]
    have hle := hbalanced.le_permits
    rw [hbalanced.held_eq, hpermits, limitAt, if_neg hpos.ne'] at hle
    omega

/-- The rank of a caller that waits for the gate at the place. -/
def waitRank (place : ℕ) : ℕ := if place = 0 then SlotPhase.waitingGlobal.rank else SlotPhase.waitingAccount.rank

/-- A caller waits for a gate exactly while it has the rank for it. -/
theorem waitsGate_iff_rank {place : ℕ} {caller : SlotCaller} (hplace : place = 0 ∨ caller.gate = place) :
    waitsGate place caller = true ↔ caller.phase.rank = waitRank place := by
  by_cases hzero : place = 0
  · subst hzero
    simp only [waitsGate, waitRank, if_true, decide_eq_true_eq]
    cases caller.phase <;> simp [SlotPhase.rank]
  · have hgate := hplace.resolve_left hzero
    simp only [waitsGate, waitRank, hzero, hgate, if_false, decide_true, Bool.true_and, decide_eq_true_eq]
    cases caller.phase <;> simp [SlotPhase.rank]

/-- The queue of a gate lists the callers that wait for it, each once. -/
theorem Sound.queueAt_spec (h : state.Sound) (place : ℕ) : (state.queueAt place).Nodup ∧
    ∀ n, n ∈ state.queueAt place ↔ ∃ caller, state.callers[n]? = some caller ∧ waitsGate place caller = true := by
  unfold queueAt
  cases hgate : state.gates[place]? with
  | some gate =>
    obtain ⟨hbalanced, -⟩ := h.balanced place gate hgate
    exact ⟨hbalanced.nodup, hbalanced.mem_queue⟩
  | none =>
    refine ⟨List.nodup_nil, fun n => iff_of_false List.not_mem_nil ?_⟩
    rintro ⟨caller, hcaller, hwaits⟩
    have hlength : state.gates.length ≤ place := List.getElem?_eq_none_iff.mp hgate
    have hplaced := h.placed caller (List.mem_of_getElem? hcaller)
    have hpos : place ≠ 0 := by
      have hnonempty := h.nonempty
      omega
    simp only [waitsGate, hpos, if_false, Bool.and_eq_true, decide_eq_true_eq] at hwaits
    omega

/-- Along a run every caller keeps its gate and goes on or stays. -/
theorem run_onward (calls : List SlotCall) (h : state.Sound) {n : ℕ} {caller : SlotCaller}
    (hcaller : state.callers[n]? = some caller) :
    ∃ caller', (runFrom SdkConcurrency.step state calls).callers[n]? = some caller' ∧
      caller'.gate = caller.gate ∧ caller.phase.rank ≤ caller'.phase.rank := by
  induction calls generalizing state caller with
  | nil => exact ⟨caller, hcaller, rfl, Nat.le_refl _⟩
  | cons call rest ih =>
    have hstep := step_stepSound state call h
    obtain ⟨middle, hmiddle, hgate, hrank⟩ := hstep.onward n caller hcaller
    obtain ⟨last, hlast, hgate', hrank'⟩ := ih hstep.sound hmiddle
    exact ⟨last, hlast, hgate'.trans hgate, Nat.le_trans hrank hrank'⟩

/-- A caller that waits for a gate now and at the end of a run waits for it after the first step. -/
theorem queued_between (call : SlotCall) (rest : List SlotCall) (h : state.Sound) {place n : ℕ}
    (hnow : n ∈ state.queueAt place)
    (hlater : n ∈ (runFrom SdkConcurrency.step (state.step call) rest).queueAt place) :
    n ∈ (state.step call).queueAt place := by
  have hstep := step_stepSound state call h
  have hend := (run_sound rest hstep.sound).1
  obtain ⟨caller, hcaller, hwaits⟩ := ((h.queueAt_spec place).2 n).mp hnow
  obtain ⟨middle, hmiddle, hgate, hrank⟩ := hstep.onward n caller hcaller
  obtain ⟨last, hlast, hgate', hrank'⟩ := run_onward rest hstep.sound hmiddle
  obtain ⟨last', hlast', hwaits'⟩ := ((hend.queueAt_spec place).2 n).mp hlater
  obtain rfl := Option.some.inj (hlast.symm.trans hlast')
  have hplace : place = 0 ∨ caller.gate = place := by
    by_cases hzero : place = 0
    · exact .inl hzero
    · simp only [waitsGate, hzero, if_false, Bool.and_eq_true, decide_eq_true_eq] at hwaits
      exact .inr hwaits.1
  have hfirst := (waitsGate_iff_rank hplace).mp hwaits
  have hlast := (waitsGate_iff_rank (hplace.imp_right fun hsame => (hgate'.trans hgate).trans hsame)).mp hwaits'
  refine ((hstep.sound.queueAt_spec place).2 n).mpr ⟨middle, hmiddle, ?_⟩
  refine (waitsGate_iff_rank (hplace.imp_right fun hsame => hgate.trans hsame)).mpr ?_
  omega

/-- Nobody is let in past a caller that waits, however long it waits. -/
theorem run_ahead (calls : List SlotCall) {place first second : ℕ} (hstate : state.Sound)
    (hahead : Ahead (holdsGate place) state.callers (state.queueAt place) first second)
    (hwaits : first ∈ (runFrom SdkConcurrency.step state calls).queueAt place) :
    Ahead (holdsGate place) (runFrom SdkConcurrency.step state calls).callers
      ((runFrom SdkConcurrency.step state calls).queueAt place) first second := by
  induction calls generalizing state with
  | nil => exact hahead
  | cons call rest ih =>
    have hstep := step_stepSound state call hstate
    have hbetween := queued_between call rest hstate hahead.waits hwaits
    exact ih hstep.sound (hahead.move (hstate.queueAt_spec place).1 (hstep.move place) hbetween) hwaits

/-- Once every caller has released or failed, no permit is held and nobody waits. -/
theorem Sound.all_done (h : state.Sound)
    (hdone : ∀ caller ∈ state.callers, caller.phase = .released ∨ caller.phase = .failed) {gate : Gate}
    (hgate : gate ∈ state.gates) : gate.held = 0 ∧ gate.queue = [] := by
  obtain ⟨place, hplace⟩ := List.mem_iff_getElem?.mp hgate
  obtain ⟨hbalanced, -⟩ := h.balanced place gate hplace
  have hout (caller : SlotCaller) (hmem : caller ∈ state.callers) :
      holdsGate place caller = false ∧ waitsGate place caller = false := by
    rcases hdone caller hmem with hphase | hphase <;> by_cases hzero : place = 0 <;>
      simp [holdsGate, waitsGate, hphase, hzero, SlotPhase.holdsGlobal, SlotPhase.holdsAccount]
  constructor
  · have hcount : state.callers.countP (holdsGate place) = 0 := by
      rw [List.countP_eq_zero]
      intro caller hmem
      simp [(hout caller hmem).1]
    rw [hbalanced.held_eq, hcount]
    rfl
  · refine List.eq_nil_iff_forall_not_mem.mpr fun n hn => ?_
    obtain ⟨caller, hcaller, hwaits⟩ := (hbalanced.mem_queue n).mp hn
    rw [(hout caller (List.mem_of_getElem? hcaller)).2] at hwaits
    cases hwaits

/-- In every state of every run: the slots granted and not released are within the limits, in all and on each
account; each gate counts exactly its holders; nobody who came to a gate later holds a permit of it before a caller
that waits there; and once every caller has released or failed no permit is held. -/
theorem run_gates_safe (limits : SdkConcurrencyLimits) (calls : List SlotCall) :
    let state := runFrom SdkConcurrency.step (createSdkConcurrency limits) calls
    (state.callers.countP fun caller => caller.phase.holdsGlobal : ℤ) ≤ max 1 ⌊limits.global⌋ ∧
      (∀ accountId, (state.callers.countP fun caller =>
        decide (caller.accountId = accountId) && caller.phase.holdsGlobal : ℤ) ≤ max 1 ⌊limits.perAccount⌋) ∧
      (∀ (place : ℕ) gate, state.gates[place]? = some gate → gate.held = state.callers.countP (holdsGate place)) ∧
      (∀ place first second later, Ahead (holdsGate place) state.callers (state.queueAt place) first second →
          first ∈ (runFrom SdkConcurrency.step state later).queueAt place →
            ¬ HoldsAt (holdsGate place) (runFrom SdkConcurrency.step state later).callers second) ∧
      ((∀ caller ∈ state.callers, caller.phase = .released ∨ caller.phase = .failed) →
        ∀ gate ∈ state.gates, gate.held = 0 ∧ gate.queue = []) := by
  intro state
  obtain ⟨hsound, hlimits⟩ := run_sound calls (sound_createSdkConcurrency limits)
  obtain ⟨hglobal, hpermits⟩ := hsound.balanced 0 _ (List.getElem?_eq_getElem hsound.nonempty)
  refine ⟨?_, fun accountId => ?_, fun place gate hgate => ?_, ?_, fun hdone gate hgate => ?_⟩
  · have hle := hglobal.le_permits
    rw [hglobal.held_eq, hpermits, limitAt, if_pos rfl, hlimits] at hle
    exact hle
  · have hle := hsound.account_le accountId
    rw [hlimits] at hle
    exact hle
  · exact (hsound.balanced place gate hgate).1.held_eq
  · intro place first second later hahead hwaits
    exact (run_ahead later hsound hahead hwaits).without
  · exact hsound.all_done hdone hgate

end SdkConcurrency

end MultiAiRouter.ClaudeSdk
