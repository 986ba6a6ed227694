import MultiAiRouter.Db.AdvisoryLock

/-!
# What the advisory lock pool accounts for

Whatever a step does to an admission, it puts another one in its place, and the pool gives up the place and the key
exactly when that one is finished and the other was not. So the counts are right when each admission is: finished
once at most, with what it was given handed back exactly then.
-/

namespace MultiAiRouter.Db

open Common

/-- The phases in which an admission has its connection. -/
def AdmissionPhase.holds : AdmissionPhase → Bool
  | .querying | .disposing | .held | .inside | .unlocking => true
  | .racing | .late | .closed => false

namespace Admission

/-- The admission once `finish` has run. -/
def done (admission : Admission) : Admission :=
  if admission.finished then admission
  else { admission with finished := true, finishes := admission.finishes + 1 }

/-- Whether an admission is finished, and has a connection to hand back, is known from its phase. -/
def Placed (admission : Admission) : Prop :=
  match admission.phase with
  | .racing | .late =>
    admission.finished = (admission.reservation == .dropped || admission.reservation == .failed)
  | .closed => admission.finished = true ∧ admission.reservation ≠ .pending
  | _ => admission.finished = false ∧ admission.reservation = .connected

/-- The admission was finished once if at all, was given one connection at most, handed it back
exactly when it was finished, and was entered only with the lock of a live generation. -/
structure Sound (admission : Admission) : Prop where
  placed : admission.Placed
  finishes : admission.finishes = if admission.finished then 1 else 0
  connections : admission.connections =
    if admission.reservation = .connected ∨ admission.reservation = .dropped then 1 else 0
  releases : admission.releases = if admission.finished then admission.connections else 0
  outside : admission.phase = .racing ∨ admission.phase = .querying → admission.entered = false
  locked : admission.entered = true ∨ admission.phase = .held → admission.lockedOnRetired = some false

/-- A later state of the same admission. -/
structure Continues (before after : Admission) : Prop where
  key : after.key = before.key
  owner : after.owner = before.owner
  finished : before.finished = true → after.finished = true
  aborted : before.aborted = true → after.aborted = true
  sound : after.Sound

/-- A later state of the same admission that does not begin to wait for the end of its client. -/
structure Follows (before after : Admission) : Prop extends Continues before after where
  disposing : after.phase = .disposing → before.phase = .disposing

/-- One step follows another. -/
theorem Follows.trans {first second third : Admission} (h : first.Follows second) (h' : second.Follows third) :
    first.Follows third where
  key := h'.key.trans h.key
  owner := h'.owner.trans h.owner
  finished := h'.finished ∘ h.finished
  aborted := h'.aborted ∘ h.aborted
  sound := h'.sound
  disposing := h.disposing ∘ h'.disposing

theorem Follows.refl {admission : Admission} (h : admission.Sound) : admission.Follows admission :=
  ⟨⟨rfl, rfl, id, id, h⟩, id⟩

/-- The admission has a connection that is not handed back. -/
def Holding (admission : Admission) : Prop := admission.finished = false ∧ admission.reservation = .connected

theorem done_finished (admission : Admission) : admission.done.finished = true := by
  unfold done
  split
  · assumption
  · rfl

section

variable {admission : Admission} (h : admission.Sound)
include h

theorem Sound.holding (hphase : admission.phase.holds = true) : admission.Holding := by
  have hplaced := h.placed
  unfold Placed at hplaced
  cases hcase : admission.phase <;> simp_all [AdmissionPhase.holds, Holding]

/-- An admission that has its connection goes on to another phase in which it has it. -/
theorem Sound.move (hholding : admission.Holding) {phase : AdmissionPhase} (hphase : phase.holds = true)
    (hheld : phase ≠ .held) (hquerying : phase = .querying → admission.entered = false) :
    admission.Continues { admission with phase } where
  key := rfl
  owner := rfl
  finished := id
  aborted := id
  sound :=
    { placed := by
        unfold Placed
        cases phase <;> simp_all [AdmissionPhase.holds, Holding]
      finishes := h.finishes
      connections := h.connections
      releases := h.releases
      outside := fun houtside => by
        rcases houtside with rfl | hquery
        · simp [AdmissionPhase.holds] at hphase
        · exact hquerying hquery
      locked := fun hlocked => h.locked (.inl (hlocked.resolve_right hheld)) }

/-- An admission that has its connection hands it back and is finished. -/
theorem Sound.settle (hholding : admission.Holding) :
    admission.Follows ({ admission with phase := .closed, releases := admission.releases + 1 } : Admission).done := by
  have hreleases := h.releases
  have hconnections := h.connections
  have hfinishes := h.finishes
  simp only [hholding.1, hholding.2] at hreleases hconnections hfinishes
  unfold done
  simp only [hholding.1]
  refine ⟨⟨rfl, rfl, fun _ => rfl, id, ⟨rfl, by simp [hholding.2]⟩, ?_, ?_, ?_, by simp,
    fun hlocked => h.locked (.inl ?_)⟩, by simp⟩
  · simp [hfinishes]
  · simp [hconnections, hholding.2]
  · simp [hreleases, hconnections]
  · simpa using hlocked

/-- An abort leaves an admission where it stands. -/
theorem Sound.abort : admission.Follows { admission with aborted := true } :=
  ⟨⟨rfl, rfl, id, fun _ => rfl, h.placed, h.finishes, h.connections, h.releases, h.outside, h.locked⟩, id⟩

end

end Admission

namespace AdvisoryLockPool

variable {max : ℕ} {pool : AdvisoryLockPool} {number : ℕ} {admission next : Admission}

/-- The admission gives up its place. -/
def ends (admission next : Admission) : Bool := next.finished && !admission.finished

/-- Put a later state of an admission in its place. -/
def put (pool : AdvisoryLockPool) (number : ℕ) (admission next : Admission) : AdvisoryLockPool :=
  if ends admission next then
    { pool with
      admissions := pool.admissions.set number next
      generations := pool.generations.modify admission.owner fun generation =>
        { generation with
          occupied := generation.occupied - 1
          holders := generation.holders.filter (· != number) }
      keys := pool.keys.filter (· != admission.key) }
  else pool.setAdmission number next

/-- The admission is unfinished and of the generation. -/
def unfinishedOf (generation : ℕ) (admission : Admission) : Bool :=
  admission.owner == generation && !admission.finished

/-- The accounts of the pool agree with its admissions; the pending ones are still to be aborted. -/
structure Accounts (max : ℕ) (pending : List ℕ) (pool : AdvisoryLockPool) : Prop where
  sound : ∀ admission ∈ pool.admissions, admission.Sound
  owner : ∀ admission ∈ pool.admissions, admission.owner < pool.generations.length
  current : ∀ number, pool.current = some number → number < pool.generations.length
  home : ∀ admission ∈ pool.admissions, admission.finished = false → pool.current = some admission.owner
  occupied : ∀ number generation, pool.generations[number]? = some generation →
    generation.occupied = (pool.admissions.countP (unfinishedOf number) : Int) ∧ generation.occupied ≤ (max : Int)
  holders : ∀ number generation, pool.generations[number]? = some generation → ∀ holder,
    holder ∈ generation.holders ↔ ∃ admission, pool.admissions[holder]? = some admission ∧
      unfinishedOf number admission = true
  keys : ∀ key, key ∈ pool.keys ↔ ∃ (holder : ℕ) (admission : Admission),
    pool.admissions[holder]? = some admission ∧ admission.finished = false ∧ admission.key = key
  distinct : ∀ (first second : ℕ) (a b : Admission), pool.admissions[first]? = some a →
    pool.admissions[second]? = some b → a.finished = false → b.finished = false → a.key = b.key → first = second
  disposal : ∀ generation ∈ pool.generations, generation.retired = generation.disposal.isSome
  retired : ∀ number generation, pool.generations[number]? = some generation → generation.retired = true →
    ∀ (holder : ℕ) (admission : Admission), pool.admissions[holder]? = some admission →
      unfinishedOf number admission = true → admission.aborted = true ∨ holder ∈ pending
  disposing : ∀ admission ∈ pool.admissions, admission.phase = .disposing → pool.isRetired admission.owner = true

theorem setAdmission_eq_put (h : next.finished = admission.finished) :
    pool.setAdmission number next = pool.put number admission next := by
  cases hfinished : admission.finished <;> simp [put, ends, h, hfinished]

/-- Finishing an admission puts its finished state in its place. -/
theorem finish_eq_put (hget : pool.admissions[number]? = some admission) :
    pool.finish number = pool.put number admission admission.done := by
  have hself : pool.admissions.set number admission = pool.admissions := by
    rw [← (List.getElem?_eq_some_iff.mp hget).2, List.set_getElem_self]
  unfold finish
  rw [hget]
  cases hfinished : admission.finished <;> simp [put, ends, Admission.done, hfinished, setAdmission, hself]

/-- What is put later is what stays. -/
theorem put_setAdmission {middle : Admission} (hfinished : middle.finished = admission.finished)
    (howner : middle.owner = admission.owner)
    (hkey : middle.key = admission.key) :
    (pool.setAdmission number middle).put number middle next = pool.put number admission next := by
  simp [put, ends, setAdmission, hfinished, howner, hkey]

theorem setAdmission_get (hlt : number < pool.admissions.length) :
    (pool.setAdmission number next).admissions[number]? = some next := by
  simp [setAdmission, hlt]

/-- A query that settles closes its admission. -/
theorem settle_eq_put (hget : pool.admissions[number]? = some admission) :
    pool.settle number = pool.put number admission
      ({ admission with phase := .closed, releases := admission.releases + 1 } : Admission).done := by
  have hlt : number < pool.admissions.length := (List.getElem?_eq_some_iff.mp hget).1
  unfold settle
  rw [hget]
  dsimp only
  rw [finish_eq_put (setAdmission_get hlt)]
  exact put_setAdmission rfl rfl rfl

/-- The first stretch of `releaseHeld` puts a later state of the admission, which has its connection. -/
theorem releaseHeld_put (hget : pool.admissions[number]? = some admission) (hsound : admission.Sound)
    (hholding : admission.Holding) (acquired : Bool) :
    ∃ next, pool.releaseHeld number acquired = pool.put number admission next ∧ admission.Follows next := by
  unfold releaseHeld
  rw [hget]
  dsimp only
  split
  · exact ⟨_, setAdmission_eq_put rfl, ⟨hsound.move hholding rfl (by simp) (by simp), by simp⟩⟩
  · exact ⟨_, settle_eq_put hget, hsound.settle hholding⟩

/-- Aborting a holder puts a later state of its admission, which is aborted. -/
theorem abortHolder_put (hget : pool.admissions[number]? = some admission) (hsound : admission.Sound) :
    ∃ next, pool.abortHolder number = pool.put number admission next ∧ admission.Follows next ∧
      next.aborted = true := by
  have hlt : number < pool.admissions.length := (List.getElem?_eq_some_iff.mp hget).1
  unfold abortHolder
  rw [hget]
  dsimp only
  split
  · rename_i haborted
    refine ⟨admission, ?_, .refl hsound, haborted⟩
    rw [← setAdmission_eq_put rfl]
    simp [setAdmission, ← (List.getElem?_eq_some_iff.mp hget).2]
  · split
    · rename_i hinside
      have hholding : admission.Holding := hsound.holding (by rw [hinside.1]; rfl)
      obtain ⟨next, heq, hfollows⟩ := releaseHeld_put (setAdmission_get hlt) hsound.abort.sound hholding true
      refine ⟨next, ?_, hsound.abort.trans hfollows, hfollows.aborted rfl⟩
      rw [heq]
      exact put_setAdmission rfl rfl rfl
    · exact ⟨_, setAdmission_eq_put rfl, hsound.abort, rfl⟩

@[simp] theorem put_admissions : (pool.put number admission next).admissions = pool.admissions.set number next := by
  unfold put
  split <;> rfl

@[simp] theorem put_current : (pool.put number admission next).current = pool.current := by
  unfold put
  split <;> rfl

/-- A generation after an admission was put: it lost a place if the admission of it ended. -/
theorem put_generation {index : ℕ} {after : Generation}
    (hafter : (pool.put number admission next).generations[index]? = some after) :
    ∃ before, pool.generations[index]? = some before ∧ after.retired = before.retired ∧
      after.disposal = before.disposal ∧
      if ends admission next = true ∧ admission.owner = index then
        after.occupied = before.occupied - 1 ∧ after.holders = before.holders.filter (· != number)
      else after.occupied = before.occupied ∧ after.holders = before.holders := by
  unfold put at hafter
  by_cases hends : ends admission next = true
  · rw [if_pos hends] at hafter
    dsimp only at hafter
    rw [List.getElem?_modify] at hafter
    obtain ⟨before, hbefore, rfl⟩ := Option.map_eq_some_iff.mp hafter
    refine ⟨before, hbefore, ?_⟩
    by_cases howner : admission.owner = index
    · simp [hends, howner]
    · simp [howner]
  · rw [if_neg hends] at hafter
    exact ⟨after, hafter, rfl, rfl, by rw [if_neg (fun h => hends h.1)]; exact ⟨rfl, rfl⟩⟩

@[simp] theorem put_isRetired (index : ℕ) :
    (pool.put number admission next).isRetired index = pool.isRetired index := by
  unfold put
  split
  · simp only [isRetired, List.getElem?_modify]
    cases pool.generations[index]? with
    | none => rfl
    | some generation => by_cases howner : admission.owner = index <;> simp [howner]
  · rfl

/-- An admission after one was put is that one in its place, or the one that was there. -/
theorem put_get {holder : ℕ} {found : Admission}
    (hfound : (pool.put number admission next).admissions[holder]? = some found) :
    (holder = number ∧ found = next) ∨ (holder ≠ number ∧ pool.admissions[holder]? = some found) := by
  rw [put_admissions] at hfound
  exact getElem?_set_cases hfound

/-- A later state that is not finished is one of an admission that was not. -/
theorem unfinished_of_follows (hfollows : admission.Continues next) (hnext : next.finished = false) :
    admission.finished = false := by
  by_contra hfinished
  have hlater := hfollows.finished (by simpa using hfinished)
  simp [hnext] at hlater

/-- Whether a generation counts the admission changes only when the admission ends. -/
theorem unfinishedOf_next (hfollows : admission.Continues next) (generation : ℕ) : unfinishedOf generation next =
      (unfinishedOf generation admission && !(ends admission next && admission.owner == generation)) := by
  unfold unfinishedOf ends
  rw [hfollows.owner]
  have hlater := hfollows.finished
  cases hfinished : admission.finished <;> cases hnext : next.finished <;> simp_all

/-- The count of a generation's unfinished admissions after one was put. -/
theorem put_countP (hget : pool.admissions[number]? = some admission) (hfollows : admission.Continues next)
    (generation : ℕ) : ((pool.admissions.set number next).countP (unfinishedOf generation) : Int) =
      pool.admissions.countP (unfinishedOf generation) -
        if ends admission next = true ∧ admission.owner = generation then 1 else 0 := by
  obtain ⟨hlt, hsame⟩ := List.getElem?_eq_some_iff.mp hget
  rw [List.countP_set hlt, hsame, unfinishedOf_next hfollows]
  by_cases hcounted : unfinishedOf generation admission = true
  · have hpos : 0 < pool.admissions.countP (unfinishedOf generation) :=
      List.countP_pos_iff.mpr ⟨admission, List.mem_of_getElem? hget, hcounted⟩
    by_cases hends : ends admission next = true ∧ admission.owner = generation
    · simp [hcounted, hends]
      omega
    · rw [if_neg hends]
      have hkeeps : (ends admission next && admission.owner == generation) = false := by simpa using hends
      simp [hcounted, hkeeps]
      omega
  · have hother : ¬ (ends admission next = true ∧ admission.owner = generation) := by
      rintro ⟨hends, rfl⟩
      simp [ends, unfinishedOf] at hends hcounted
      simp [hcounted] at hends
    rw [if_neg hother]
    simp [hcounted]

variable {pending : List ℕ}

@[simp] theorem put_generations_length :
    (pool.put number admission next).generations.length = pool.generations.length := by
  unfold put
  split
  · exact List.length_modify _ _ _
  · rfl

/-- The keys in use after an admission was put. -/
theorem Accounts.put_keys (h : Accounts max pending pool) (hget : pool.admissions[number]? = some admission)
    (hfollows : admission.Continues next) (key : Int) :
    key ∈ (pool.put number admission next).keys ↔ ∃ (holder : ℕ) (found : Admission),
      (pool.put number admission next).admissions[holder]? = some found ∧ found.finished = false ∧
        found.key = key := by
  have hlt : number < pool.admissions.length := (List.getElem?_eq_some_iff.mp hget).1
  have hnumber : (pool.put number admission next).admissions[number]? = some next := by
    rw [put_admissions, List.getElem?_set_self hlt]
  have hother {holder : ℕ} (hne : holder ≠ number) :
      (pool.put number admission next).admissions[holder]? = pool.admissions[holder]? := by
    rw [put_admissions, List.getElem?_set_ne hne.symm]
  by_cases hends : ends admission next = true
  · obtain ⟨hnext, hunfinished⟩ : next.finished = true ∧ admission.finished = false := by simpa [ends] using hends
    have hkeys : (pool.put number admission next).keys = pool.keys.filter (· != admission.key) := by
      simp [AdvisoryLockPool.put, hends]
    rw [hkeys, List.mem_filter, h.keys]
    constructor
    · rintro ⟨⟨holder, found, hfound, hopen, rfl⟩, hkey⟩
      have hne : holder ≠ number := by
        rintro rfl
        obtain rfl : admission = found := Option.some.inj (hget.symm.trans hfound)
        simp at hkey
      exact ⟨holder, found, (hother hne).trans hfound, hopen, rfl⟩
    · rintro ⟨holder, found, hfound, hopen, rfl⟩
      rcases put_get hfound with ⟨-, rfl⟩ | ⟨hne, hfound⟩
      · simp [hnext] at hopen
      · refine ⟨⟨holder, found, hfound, hopen, rfl⟩, ?_⟩
        -- two unfinished admissions never share a key
        by_contra hkey
        have hsame : found.key = admission.key := by simpa using hkey
        exact hne (h.distinct holder number found admission hfound hget hopen hunfinished hsame)
  · have hkeys : (pool.put number admission next).keys = pool.keys := by
      simp [AdvisoryLockPool.put, hends, setAdmission]
    have hsame : next.finished = admission.finished := by
      have hlater := hfollows.finished
      cases hfinished : admission.finished <;> cases hnext : next.finished <;> simp_all [ends]
    rw [hkeys, h.keys]
    constructor
    · rintro ⟨holder, found, hfound, hopen, rfl⟩
      by_cases hne : holder = number
      · subst hne
        obtain rfl : admission = found := Option.some.inj (hget.symm.trans hfound)
        exact ⟨holder, next, hnumber, hsame.trans hopen, hfollows.key⟩
      · exact ⟨holder, found, (hother hne).trans hfound, hopen, rfl⟩
    · rintro ⟨holder, found, hfound, hopen, rfl⟩
      rcases put_get hfound with ⟨-, rfl⟩ | ⟨-, hfound⟩
      · exact ⟨number, admission, hget, hsame.symm.trans hopen, hfollows.key.symm⟩
      · exact ⟨holder, found, hfound, hopen, rfl⟩

/-- The holders of a generation after an admission was put. -/
theorem Accounts.put_holders (h : Accounts max pending pool) (hget : pool.admissions[number]? = some admission)
    (hfollows : admission.Continues next) {index : ℕ} {after : Generation}
    (hafter : (pool.put number admission next).generations[index]? = some after) (holder : ℕ) :
    holder ∈ after.holders ↔ ∃ found, (pool.put number admission next).admissions[holder]? = some found ∧
      unfinishedOf index found = true := by
  obtain ⟨before, hbefore, -, -, hchange⟩ := put_generation hafter
  have hlt : number < pool.admissions.length := (List.getElem?_eq_some_iff.mp hget).1
  have hold := h.holders index before hbefore
  rw [put_admissions, List.getElem?_set]
  by_cases hholder : number = holder
  · subst hholder
    have hcounted : number ∈ before.holders ↔ unfinishedOf index admission = true := by
      rw [hold]
      simp [hget]
    rw [if_pos rfl, if_pos hlt]
    simp only [Option.some.injEq, exists_eq_left', unfinishedOf_next hfollows]
    split at hchange
    · rename_i hends
      rw [hchange.2]
      simp [hends]
    · rename_i hends
      have hkeeps : (ends admission next && admission.owner == index) = false := by simpa using hends
      rw [hchange.2, hcounted, hkeeps]
      simp
  · rw [if_neg hholder, ← hold]
    split at hchange
    · rw [hchange.2]
      have hne : holder ≠ number := fun heq => hholder heq.symm
      simp [hne]
    · rw [hchange.2]

/-- A later state of an admission keeps the accounts; once it is aborted it is not pending any more. -/
theorem Accounts.put {pending' : List ℕ} (h : Accounts max pending pool)
    (hget : pool.admissions[number]? = some admission) (hfollows : admission.Continues next)
    (hdisposing : next.phase = .disposing → admission.phase = .disposing ∨ pool.isRetired admission.owner = true)
    (hpending : ∀ holder ∈ pending, holder ∈ pending' ∨ (holder = number ∧ next.aborted = true)) :
    Accounts max pending' (pool.put number admission next) where
  sound found hfound := by
    rw [put_admissions] at hfound
    rcases List.mem_or_eq_of_mem_set hfound with hold | rfl
    · exact h.sound found hold
    · exact hfollows.sound
  owner found hfound := by
    rw [put_admissions] at hfound
    rw [put_generations_length]
    rcases List.mem_or_eq_of_mem_set hfound with hold | rfl
    · exact h.owner found hold
    · rw [hfollows.owner]
      exact h.owner admission (List.mem_of_getElem? hget)
  current index hcurrent := by
    rw [put_generations_length]
    exact h.current index (put_current ▸ hcurrent)
  home found hfound hopen := by
    rw [put_admissions] at hfound
    rw [put_current]
    rcases List.mem_or_eq_of_mem_set hfound with hold | rfl
    · exact h.home found hold hopen
    · rw [hfollows.owner]
      exact h.home admission (List.mem_of_getElem? hget) (unfinished_of_follows hfollows hopen)
  occupied index after hafter := by
    obtain ⟨before, hbefore, -, -, hchange⟩ := put_generation hafter
    obtain ⟨hcount, hbound⟩ := h.occupied index before hbefore
    rw [put_admissions, put_countP hget hfollows]
    split at hchange <;> rename_i hends
    · rw [if_pos hends, hchange.1]
      omega
    · rw [if_neg hends, hchange.1]
      omega
  holders index after hafter holder := h.put_holders hget hfollows hafter holder
  keys key := h.put_keys hget hfollows key
  distinct first second a b hfirst hsecond hopen hopen' hkey := by
    rcases put_get hfirst with ⟨hat, rfl⟩ | ⟨-, hold⟩ <;> rcases put_get hsecond with ⟨hat', rfl⟩ | ⟨-, hold'⟩
    · exact hat.trans hat'.symm
    · rw [hat]
      exact h.distinct number second admission b hget hold' (unfinished_of_follows hfollows hopen) hopen'
        (hfollows.key ▸ hkey)
    · rw [hat']
      exact h.distinct first number a admission hold hget hopen (unfinished_of_follows hfollows hopen')
        (hfollows.key ▸ hkey)
    · exact h.distinct first second a b hold hold' hopen hopen' hkey
  disposal after hafter := by
    obtain ⟨index, hindex⟩ := List.mem_iff_getElem?.mp hafter
    obtain ⟨before, hbefore, hretired, hdisposal, -⟩ := put_generation hindex
    rw [hretired, hdisposal]
    exact h.disposal before (List.mem_of_getElem? hbefore)
  retired index after hafter hretired holder found hfound hopen := by
    obtain ⟨before, hbefore, hsame, -⟩ := put_generation hafter
    have hbefore' := h.retired index before hbefore (hsame ▸ hretired)
    rcases put_get hfound with ⟨rfl, rfl⟩ | ⟨hne, hfound⟩
    · rw [unfinishedOf_next hfollows, Bool.and_eq_true] at hopen
      rcases hbefore' holder admission hget hopen.1 with haborted | hwaiting
      · exact .inl (hfollows.aborted haborted)
      · rcases hpending holder hwaiting with hleft | ⟨-, haborted⟩
        · exact .inr hleft
        · exact .inl haborted
    · rcases hbefore' holder found hfound hopen with haborted | hwaiting
      · exact .inl haborted
      · rcases hpending holder hwaiting with hleft | ⟨heq, -⟩
        · exact .inr hleft
        · exact absurd heq hne
  disposing found hfound hphase := by
    rw [put_admissions] at hfound
    rw [put_isRetired]
    rcases List.mem_or_eq_of_mem_set hfound with hold | rfl
    · exact h.disposing found hold hphase
    · rw [hfollows.owner]
      exact (hdisposing hphase).elim (h.disposing admission (List.mem_of_getElem? hget)) id

/-- A step that puts a later state of one admission keeps the accounts. -/
theorem Accounts.putNone (h : Accounts max pending pool) (hget : pool.admissions[number]? = some admission)
    (hfollows : admission.Follows next) : Accounts max pending (pool.put number admission next) :=
  h.put hget hfollows.toContinues (.inl ∘ hfollows.disposing) fun _ => .inl

/-- An admission of a retired generation may wait for the end of its client. -/
theorem Accounts.setWaiting (h : Accounts max pending pool) (hget : pool.admissions[number]? = some admission)
    (hcontinues : admission.Continues next) (hretired : pool.isRetired admission.owner = true)
    (hfinished : next.finished = admission.finished) : Accounts max pending (pool.setAdmission number next) := by
  rw [setAdmission_eq_put hfinished]
  exact h.put hget hcontinues (fun _ => .inr hretired) fun _ => .inl

/-- Aborting the first of the pending holders leaves the others pending. -/
theorem Accounts.abortHolder {rest : List ℕ} (h : Accounts max (number :: rest) pool) :
    Accounts max rest (pool.abortHolder number) := by
  cases hget : pool.admissions[number]? with
  | none =>
    have hsame : pool.abortHolder number = pool := by simp [AdvisoryLockPool.abortHolder, hget]
    rw [hsame]
    refine { h with retired := fun index generation hgeneration hretired holder found hfound hopen => ?_ }
    rcases h.retired index generation hgeneration hretired holder found hfound hopen with haborted | hpending
    · exact .inl haborted
    · rcases List.mem_cons.mp hpending with rfl | hrest
      · simp [hget] at hfound
      · exact .inr hrest
  | some admission =>
    obtain ⟨next, heq, hfollows, haborted⟩ := abortHolder_put hget (h.sound admission (List.mem_of_getElem? hget))
    rw [heq]
    refine h.put hget hfollows.toContinues (.inl ∘ hfollows.disposing) fun holder hpending => ?_
    rcases List.mem_cons.mp hpending with rfl | hrest
    · exact .inr ⟨rfl, haborted⟩
    · exact .inl hrest

theorem Accounts.abortHolders (holders : List ℕ) (h : Accounts max holders pool) :
    Accounts max [] (holders.foldl AdvisoryLockPool.abortHolder pool) := by
  induction holders generalizing pool with
  | nil => exact h
  | cons holder rest ih => exact ih h.abortHolder

/-- A generation that is marked as retired has its holders still to abort. -/
theorem Accounts.mark (h : Accounts max [] pool) {generation : Generation}
    (hgeneration : pool.generations[number]? = some generation) : Accounts max generation.holders
      { pool with
        generations :=
          pool.generations.set number { generation with retired := true, disposal := some .pending } } := by
  have hlt : number < pool.generations.length := (List.getElem?_eq_some_iff.mp hgeneration).1
  refine
    { sound := h.sound
      owner := by simpa using h.owner
      current := by simpa using h.current
      home := h.home
      occupied := fun index found hfound => ?_
      holders := fun index found hfound => ?_
      keys := h.keys
      distinct := h.distinct
      disposal := fun found hfound => ?_
      retired := fun index found hfound hretired holder admission hadmission hopen => ?_
      disposing := fun admission hmem hphase => ?_ }
  · rcases getElem?_set_cases hfound with ⟨rfl, rfl⟩ | ⟨-, hold⟩
    · exact h.occupied index generation hgeneration
    · exact h.occupied index found hold
  · rcases getElem?_set_cases hfound with ⟨rfl, rfl⟩ | ⟨-, hold⟩
    · exact h.holders index generation hgeneration
    · exact h.holders index found hold
  · rcases List.mem_or_eq_of_mem_set hfound with hold | rfl
    · exact h.disposal found hold
    · rfl
  · rcases getElem?_set_cases hfound with ⟨rfl, rfl⟩ | ⟨-, hold⟩
    · exact .inr ((h.holders index generation hgeneration holder).mpr ⟨admission, hadmission, hopen⟩)
    · exact .inl ((h.retired index found hold hretired holder admission hadmission hopen).resolve_right (by simp))
  · have hretired := h.disposing admission hmem hphase
    simp only [isRetired, List.getElem?_set] at hretired ⊢
    by_cases howner : number = admission.owner
    · simp [howner, h.owner admission hmem]
    · simpa [howner] using hretired

/-- Retiring a generation aborts every holder it still has. -/
theorem Accounts.retire (h : Accounts max [] pool) (number : ℕ) : Accounts max [] (pool.retire number) := by
  unfold AdvisoryLockPool.retire
  split
  · exact h
  · rename_i generation hgeneration
    split
    · exact h
    · exact Accounts.abortHolders generation.holders (h.mark hgeneration)

/-- An admission waits for the end of its client once its generation is retired. -/
theorem Accounts.disposeRetire (h : Accounts max [] pool) (hget : pool.admissions[number]? = some admission)
    (hholding : admission.Holding) :
    Accounts max [] ((pool.setAdmission number { admission with phase := .disposing }).retire admission.owner) := by
  have hmem := List.mem_of_getElem? hget
  have hmoved := (h.sound admission hmem).move hholding (show AdmissionPhase.holds .disposing = true from rfl)
    (by simp) (by simp)
  have hlt := h.owner admission hmem
  have hgeneration : pool.generations[admission.owner]? = some pool.generations[admission.owner] :=
    List.getElem?_eq_getElem hlt
  have hset : (pool.setAdmission number { admission with phase := .disposing }).generations[admission.owner]? =
      some pool.generations[admission.owner] := hgeneration
  unfold AdvisoryLockPool.retire
  rw [hset]
  dsimp only
  split
  · rename_i hdisposal
    have hretired : pool.isRetired admission.owner = true := by
      rw [isRetired, hgeneration, Option.any_some, h.disposal _ (List.mem_of_getElem? hgeneration)]
      exact hdisposal
    exact h.setWaiting hget hmoved hretired rfl
  · refine Accounts.abortHolders pool.generations[admission.owner].holders ?_
    have hmarked := h.mark hgeneration
    generalize hmark : ({ pool with generations := pool.generations.set admission.owner _ } : AdvisoryLockPool) = marked
      at hmarked
    have hretired : marked.isRetired admission.owner = true := by
      rw [← hmark]
      simp [isRetired, hlt]
    have hfound : marked.admissions[number]? = some admission := by
      rw [← hmark]
      exact hget
    have hset := hmarked.setWaiting hfound hmoved hretired rfl
    rw [← hmark] at hset
    exact hset

/-- Weakening of what is pending. -/
theorem Accounts.weaken {pending' : List ℕ} (h : Accounts max [] pool) : Accounts max pending' pool := { h with
    retired := fun index generation hgeneration hretired holder found hfound hopen => Or.inl <|
      (h.retired index generation hgeneration hretired holder found hfound hopen).resolve_right (by simp) }

/-- An abort is accounted for. -/
theorem Accounts.abort (h : Accounts max [] pool) (number : ℕ) : Accounts max [] (pool.abort number) := by
  have haborted : Accounts max [] (pool.abortHolder number) := Accounts.abortHolder h.weaken
  unfold AdvisoryLockPool.abort
  split
  · exact h
  · split
    · exact h
    · split
      · exact haborted.retire _
      · exact haborted

end AdvisoryLockPool

end MultiAiRouter.Db
