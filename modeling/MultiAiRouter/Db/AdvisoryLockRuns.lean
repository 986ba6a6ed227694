import MultiAiRouter.Db.AdvisoryLockAccounts

/-!
# Runs of the advisory lock pool

Every step keeps the accounts of the pool, so they hold after every run: no two unfinished admissions share a key, a
generation has no more than it may, and nothing runs without the lock of a live one.
-/

namespace MultiAiRouter.Db

open Common

namespace Admission

section

variable {admission : Admission} (h : admission.Sound)
include h

/-- An admission whose reservation is pending is unfinished, and waits for it alone. -/
theorem Sound.ofPending (hpending : admission.reservation = .pending) :
    (admission.phase = .racing ∨ admission.phase = .late) ∧ admission.finished = false ∧
      admission.finishes = 0 ∧ admission.connections = 0 ∧ admission.releases = 0 := by
  have hplaced := h.placed
  unfold Placed at hplaced
  have hphase : (admission.phase = .racing ∨ admission.phase = .late) ∧ admission.finished = false := by
    cases hcase : admission.phase <;> simp_all
  have hfinishes := h.finishes
  have hconnections := h.connections
  have hreleases := h.releases
  simp only [hphase.2, hpending] at hfinishes hconnections hreleases
  exact ⟨hphase.1, hphase.2, by simpa using hfinishes, by simpa using hconnections, by simpa using hreleases⟩

/-- The reservation failed. -/
theorem Sound.failed (hpending : admission.reservation = .pending) :
    admission.Follows ({ admission with reservation := .failed } : Admission).done := by
  obtain ⟨hphase, hunfinished, hfinishes, hconnections, hreleases⟩ := h.ofPending hpending
  unfold done
  simp only [hunfinished]
  refine ⟨⟨rfl, rfl, fun _ => rfl, id, ?_, ?_, ?_, ?_, h.outside, h.locked⟩, id⟩
  · rcases hphase with hphase | hphase <;> simp [Placed, hphase]
  · simp [hfinishes]
  · simp [hconnections]
  · simp [hreleases, hconnections]

/-- The connection came for nobody, and was handed back. -/
theorem Sound.dropped (hpending : admission.reservation = .pending) : admission.Follows ({ admission with
      connections := admission.connections + 1
      reservation := .dropped
      releases := admission.releases + 1 } : Admission).done := by
  obtain ⟨hphase, hunfinished, hfinishes, hconnections, hreleases⟩ := h.ofPending hpending
  unfold done
  simp only [hunfinished]
  refine ⟨⟨rfl, rfl, fun _ => rfl, id, ?_, ?_, ?_, ?_, h.outside, h.locked⟩, id⟩
  · rcases hphase with hphase | hphase <;> simp [Placed, hphase]
  · simp [hfinishes]
  · simp [hconnections]
  · simp [hreleases, hconnections]

/-- The connection came. -/
theorem Sound.connected (hpending : admission.reservation = .pending) : admission.Follows { admission with
      connections := admission.connections + 1
      reservation := .connected } := by
  obtain ⟨hphase, hunfinished, hfinishes, hconnections, hreleases⟩ := h.ofPending hpending
  refine ⟨⟨rfl, rfl, id, id, ?_, h.finishes, ?_, ?_, h.outside, h.locked⟩, id⟩
  · rcases hphase with hphase | hphase <;> simp [Placed, hphase, hunfinished]
  · simp [hconnections]
  · simp [hreleases, hunfinished]

/-- The race is lost, or was over before. -/
theorem Sound.late (hphase : admission.phase = .racing) : admission.Follows { admission with phase := .late } := by
  have hplaced := h.placed
  rw [Placed, hphase] at hplaced
  refine ⟨⟨rfl, rfl, id, id, hplaced, h.finishes, h.connections, h.releases, by simp,
    fun hlocked => h.locked (.inl ?_)⟩, by simp⟩
  simpa using hlocked

/-- Nothing is left to do for an admission whose reservation finished it. -/
theorem Sound.closed (hphase : admission.phase = .racing ∨ admission.phase = .late)
    (hreservation : admission.reservation = .dropped ∨ admission.reservation = .failed) :
    admission.finished = true ∧ admission.Follows { admission with phase := .closed } := by
  have hfinished : admission.finished = true := by
    have hplaced := h.placed
    rcases hphase with hphase | hphase <;> rcases hreservation with hres | hres <;>
      simpa [Placed, hphase, hres] using hplaced
  refine ⟨hfinished, ⟨rfl, rfl, id, id, ⟨hfinished, ?_⟩, h.finishes, h.connections, h.releases, by simp,
    fun hlocked => h.locked (.inl (by simpa using hlocked))⟩, by simp⟩
  rcases hreservation with hres | hres <;> simp [hres]

/-- A connection that won the race is held. -/
theorem Sound.holding_of_connected (hphase : admission.phase = .racing ∨ admission.phase = .late)
    (hconnected : admission.reservation = .connected) : admission.Holding := by
  have hplaced : admission.finished = (admission.reservation == .dropped || admission.reservation == .failed) := by
    have hplaced := h.placed
    rcases hphase with hphase | hphase <;> simpa [Placed, hphase] using hplaced
  rw [hconnected] at hplaced
  exact ⟨hplaced, hconnected⟩

/-- The lock query was answered, before anything is made of the answer. -/
theorem Sound.answered (hphase : admission.phase = .querying) (retired : Bool) :
    admission.Follows { admission with lockedOnRetired := some retired } := by
  refine ⟨⟨rfl, rfl, id, id, h.placed, h.finishes, h.connections, h.releases, h.outside, ?_⟩, id⟩
  have houtside : admission.entered = false := h.outside (.inr hphase)
  simp [houtside, hphase]

/-- The lock was answered on a live generation, and is the caller's. -/
theorem Sound.held (hphase : admission.phase = .querying) :
    admission.Follows { admission with lockedOnRetired := some false, phase := .held } := by
  have hholding := h.holding (by rw [hphase]; rfl)
  exact ⟨⟨rfl, rfl, id, id, hholding, h.finishes, h.connections, h.releases, by simp, fun _ => rfl⟩, by simp⟩

/-- The caller takes the lock up. -/
theorem Sound.enter (hphase : admission.phase = .held) :
    admission.Follows { admission with phase := .inside, entered := true } := by
  have hholding := h.holding (by rw [hphase]; rfl)
  exact ⟨⟨rfl, rfl, id, id, hholding, h.finishes, h.connections, h.releases, by simp,
    fun _ => h.locked (.inr hphase)⟩, by simp⟩

end

/-- The call that reserves a connection raised. -/
theorem make_thrown (key : Int) (owner : ℕ) (lease : Bool) : (make key owner lease).Follows
      ({ make key owner lease with reservation := .failed, phase := .closed } : Admission).done :=
  ⟨⟨rfl, rfl, fun _ => rfl, id, ⟨rfl, by simp [done, make]⟩, rfl, rfl, rfl, fun _ => rfl, by simp [done, make]⟩,
    by simp [done, make]⟩

end Admission

namespace AdvisoryLockPool

variable {max : ℕ} {pool : AdvisoryLockPool} {number : ℕ} {admission : Admission}

/-- A step on one admission does what it does to the admission in its place. -/
theorem Accounts.setFinish (h : Accounts max [] pool) (hget : pool.admissions[number]? = some admission)
    {middle : Admission} (hfinished : middle.finished = admission.finished)
    (howner : middle.owner = admission.owner) (hkey : middle.key = admission.key)
    (hfollows : admission.Follows middle.done) :
    Accounts max [] ((pool.setAdmission number middle).finish number) := by
  have hlt : number < pool.admissions.length := (List.getElem?_eq_some_iff.mp hget).1
  rw [finish_eq_put (setAdmission_get hlt), put_setAdmission hfinished howner hkey]
  exact h.putNone hget hfollows

/-- An admission goes on. -/
theorem Accounts.set (h : Accounts max [] pool) (hget : pool.admissions[number]? = some admission)
    {next : Admission} (hfollows : admission.Follows next) (hfinished : next.finished = admission.finished) :
    Accounts max [] (pool.setAdmission number next) := by
  rw [setAdmission_eq_put hfinished]
  exact h.putNone hget hfollows

/-- An admission that has its connection is finished. -/
theorem Accounts.settle (h : Accounts max [] pool) (hget : pool.admissions[number]? = some admission)
    (hholding : admission.Holding) : Accounts max [] (pool.settle number) := by
  rw [settle_eq_put hget]
  exact h.putNone hget ((h.sound admission (List.mem_of_getElem? hget)).settle hholding)

/-- A lock that is held is released. -/
theorem Accounts.releaseHeld (h : Accounts max [] pool) (hget : pool.admissions[number]? = some admission)
    (hholding : admission.Holding) (acquired : Bool) : Accounts max [] (pool.releaseHeld number acquired) := by
  obtain ⟨next, heq, hfollows⟩ :=
    releaseHeld_put hget (h.sound admission (List.mem_of_getElem? hget)) hholding acquired
  rw [heq]
  exact h.putNone hget hfollows

/-- The lock is released of an admission whose state was just set. -/
theorem Accounts.setRelease (h : Accounts max [] pool) (hget : pool.admissions[number]? = some admission)
    {next : Admission} (hfollows : admission.Follows next) (hfinished : next.finished = admission.finished)
    (hholding : next.Holding) (acquired : Bool) :
    Accounts max [] ((pool.setAdmission number next).releaseHeld number acquired) := by
  have hlt : number < pool.admissions.length := (List.getElem?_eq_some_iff.mp hget).1
  exact (h.set hget hfollows hfinished).releaseHeld (setAdmission_get hlt) hholding acquired

/-- A reservation is answered. -/
theorem Accounts.reserved (h : Accounts max [] pool) (number : ℕ) (ok : Bool) :
    Accounts max [] (pool.reserved number ok) := by
  unfold AdvisoryLockPool.reserved
  split
  · exact h
  · rename_i admission hget
    have hsound := h.sound admission (List.mem_of_getElem? hget)
    split
    · exact h
    · rename_i hpending
      have hpending : admission.reservation = .pending := by simpa using hpending
      split
      · exact h.setFinish hget rfl rfl rfl (hsound.failed hpending)
      · dsimp only
        split
        · exact h.setFinish hget rfl rfl rfl (hsound.dropped hpending)
        · exact h.set hget (hsound.connected hpending) rfl

/-- A race is decided. -/
theorem Accounts.raced (h : Accounts max [] pool) (number : ℕ) (cancelled : Bool) :
    Accounts max [] (pool.raced number cancelled) := by
  unfold AdvisoryLockPool.raced
  split
  · exact h
  · rename_i admission hget
    have hsound := h.sound admission (List.mem_of_getElem? hget)
    split
    · exact h
    · rename_i hracing
      have hracing : admission.phase = .racing := by simpa using hracing
      split
      · split
        · exact h.set hget (hsound.late hracing) rfl
        · exact h
      · split
        · exact h
        · rename_i hconnected
          have hholding := hsound.holding_of_connected (.inl hracing) hconnected
          split
          · exact h.releaseHeld hget hholding false
          · have hasked := hsound.outside (.inl hracing)
            exact h.set hget ⟨hsound.move hholding rfl (by simp) fun _ => hasked, by simp⟩ rfl
        · exact h.set hget (hsound.late hracing) rfl
        · rename_i hfailed
          obtain ⟨hfinished, hclosed⟩ := hsound.closed (.inl hracing) (.inr hfailed)
          refine h.setFinish hget rfl rfl rfl ?_
          simpa [Admission.done, hfinished] using hclosed

/-- A late connection is handed back. -/
theorem Accounts.cleaned (h : Accounts max [] pool) (number : ℕ) : Accounts max [] (pool.cleaned number) := by
  unfold AdvisoryLockPool.cleaned
  split
  · exact h
  · rename_i admission hget
    have hsound := h.sound admission (List.mem_of_getElem? hget)
    split
    · exact h
    · rename_i hlate
      have hlate : admission.phase = .late := by simpa using hlate
      split
      · exact h
      · rename_i hconnected
        exact h.settle hget (hsound.holding_of_connected (.inr hlate) hconnected)
      · rename_i hdropped
        exact h.set hget (hsound.closed (.inr hlate) (.inl hdropped)).2 rfl
      · rename_i hfailed
        exact h.set hget (hsound.closed (.inr hlate) (.inr hfailed)).2 rfl

/-- The query for the lock is answered. -/
theorem Accounts.queried (h : Accounts max [] pool) (number : ℕ) (locked : Option Bool) :
    Accounts max [] (pool.queried number locked) := by
  unfold AdvisoryLockPool.queried
  split
  · exact h
  · rename_i admission hget
    have hsound := h.sound admission (List.mem_of_getElem? hget)
    split
    · exact h
    · rename_i hquerying
      have hquerying : admission.phase = .querying := by simpa using hquerying
      have hholding : admission.Holding := hsound.holding (by rw [hquerying]; rfl)
      split
      · exact h.disposeRetire hget hholding
      · exact h.releaseHeld hget hholding false
      · dsimp only
        split
        · exact h.setRelease hget (hsound.answered hquerying _) rfl hholding true
        · rename_i hgranted
          have hlive : pool.isRetired admission.owner = false := by
            simp only [refuses, Bool.or_eq_true, not_or, Bool.not_eq_true] at hgranted
            exact hgranted.1.2
          rw [hlive]
          exact h.set hget (hsound.held hquerying) rfl

/-- A caller goes on with its lock. -/
theorem Accounts.continued (h : Accounts max [] pool) (number : ℕ) : Accounts max [] (pool.continued number) := by
  unfold AdvisoryLockPool.continued
  split
  · exact h
  · rename_i admission hget
    have hsound := h.sound admission (List.mem_of_getElem? hget)
    split
    · exact h
    · rename_i hheld
      have hheld : admission.phase = .held := by simpa using hheld
      have hholding : admission.Holding := hsound.holding (by rw [hheld]; rfl)
      split
      · dsimp only
        split
        · exact h.setRelease hget (hsound.enter hheld) rfl hholding true
        · exact h.set hget (hsound.enter hheld) rfl
      · split
        · exact h.releaseHeld hget hholding true
        · exact h.set hget (hsound.enter hheld) rfl

/-- A caller leaves its section. -/
theorem Accounts.left (h : Accounts max [] pool) (number : ℕ) : Accounts max [] (pool.left number) := by
  unfold AdvisoryLockPool.left
  split
  · exact h
  · rename_i admission hget
    split
    · exact h
    · rename_i hinside
      have hinside : admission.phase = .inside := by simpa using hinside
      have hsound := h.sound admission (List.mem_of_getElem? hget)
      exact h.releaseHeld hget (hsound.holding (by rw [hinside]; rfl)) true

/-- The unlock is answered. -/
theorem Accounts.unlocked (h : Accounts max [] pool) (number : ℕ) (answer : Option Bool) :
    Accounts max [] (pool.unlocked number answer) := by
  unfold AdvisoryLockPool.unlocked
  split
  · exact h
  · rename_i admission hget
    split
    · exact h
    · rename_i hunlocking
      have hsound := h.sound admission (List.mem_of_getElem? hget)
      have hunlocking : admission.phase = .unlocking := by simpa using hunlocking
      have hholding : admission.Holding := hsound.holding (by rw [hunlocking]; rfl)
      split
      · exact h.settle hget hholding
      · exact h.disposeRetire hget hholding

/-- A client is given up. -/
theorem Accounts.disposed (h : Accounts max [] pool) (number : ℕ) : Accounts max [] (pool.disposed number) := by
  unfold AdvisoryLockPool.disposed
  split
  · exact h
  · rename_i admission hget
    split
    · rename_i hdisposing
      have hsound := h.sound admission (List.mem_of_getElem? hget)
      exact h.settle hget (hsound.holding (by rw [hdisposing.1]; rfl))
    · exact h

/-- A generation is let go of only when no admission of it is unfinished. -/
theorem Accounts.rechecked (h : Accounts max [] pool) (number : ℕ) : Accounts max [] (pool.rechecked number) := by
  unfold AdvisoryLockPool.rechecked
  split
  · exact h
  · rename_i generation hgeneration
    split
    · rename_i hempty
      obtain ⟨-, hcurrent, hoccupied, -⟩ := hempty
      refine { h with current := by simp, home := fun admission hmem hopen => ?_ }
      have howner : admission.owner = number :=
        (Option.some.inj (hcurrent.symm.trans (h.home admission hmem hopen))).symm
      have hnone : pool.admissions.countP (unfinishedOf number) = 0 := by
        have hcount := (h.occupied number generation hgeneration).1
        omega
      exact absurd (List.countP_eq_zero.mp hnone admission hmem) (by simp [unfinishedOf, howner, hopen])
    · exact h

/-- A change of a generation that leaves its places and whether it is retired. -/
theorem Accounts.setGeneration (h : Accounts max [] pool) {generation next : Generation}
    (hgeneration : pool.generations[number]? = some generation) (hoccupied : next.occupied = generation.occupied)
    (hholders : next.holders = generation.holders) (hretired : next.retired = generation.retired)
    (hdisposal : next.retired = next.disposal.isSome) :
    Accounts max [] { pool with generations := pool.generations.set number next } := by
  have hset {index : ℕ} {found : Generation} (hfound : (pool.generations.set number next)[index]? = some found) :
      ∃ before, pool.generations[index]? = some before ∧ found.occupied = before.occupied ∧
        found.holders = before.holders ∧ found.retired = before.retired := by
    rcases getElem?_set_cases hfound with ⟨rfl, rfl⟩ | ⟨-, hold⟩
    · exact ⟨generation, hgeneration, hoccupied, hholders, hretired⟩
    · exact ⟨found, hold, rfl, rfl, rfl⟩
  refine
    { h with
      owner := by simpa using h.owner
      current := by simpa using h.current
      occupied := fun index found hfound => ?_
      holders := fun index found hfound => ?_
      disposal := fun found hfound => ?_
      retired := fun index found hfound hgone => ?_
      disposing := fun admission hmem hphase => ?_ }
  · obtain ⟨before, hbefore, hsame, -⟩ := hset hfound
    rw [hsame]
    exact h.occupied index before hbefore
  · obtain ⟨before, hbefore, -, hsame, -⟩ := hset hfound
    rw [hsame]
    exact h.holders index before hbefore
  · rcases List.mem_or_eq_of_mem_set hfound with hold | rfl
    · exact h.disposal found hold
    · exact hdisposal
  · obtain ⟨before, hbefore, -, -, hsame⟩ := hset hfound
    exact h.retired index before hbefore (hsame ▸ hgone)
  · have hgone := h.disposing admission hmem hphase
    simp only [isRetired, List.getElem?_set] at hgone ⊢
    by_cases howner : number = admission.owner
    · rw [← howner, hgeneration, Option.any_some] at hgone
      have hlt : number < pool.generations.length := (List.getElem?_eq_some_iff.mp hgeneration).1
      simp [← howner, hlt, hretired, hgone]
    · simpa [howner] using hgone

/-- Its end is answered. -/
theorem Accounts.ended (h : Accounts max [] pool) (number : ℕ) (ok : Bool) :
    Accounts max [] (pool.ended number ok) := by
  unfold AdvisoryLockPool.ended
  split
  · exact h
  · rename_i generation hgeneration
    split
    · exact h
    · rename_i hpending
      have hpending : generation.disposal = some .pending := by simpa using hpending
      have hretired := h.disposal generation (List.mem_of_getElem? hgeneration)
      rw [hpending] at hretired
      refine Accounts.rechecked (h.setGeneration hgeneration ?_ ?_ ?_ ?_) number
      · rfl
      · rfl
      · rfl
      · exact hretired

/-- The pool is closed. -/
theorem Accounts.close (h : Accounts max [] pool) : Accounts max [] pool.close := by
  have hstopping : Accounts max [] { pool with stopping := true } := { h with }
  have habort (holders : List ℕ) : ∀ pool : AdvisoryLockPool, Accounts max [] pool →
      Accounts max [] (holders.foldl AdvisoryLockPool.abort pool) := by
    induction holders with
    | nil => exact fun _ hpool => hpool
    | cons holder rest ih => exact fun pool hpool => ih (pool.abort holder) (hpool.abort holder)
  unfold AdvisoryLockPool.close
  split
  · exact h
  · split
    · exact hstopping
    · exact habort _ _ hstopping

/-- A drain begins. -/
theorem Accounts.drained (h : Accounts max [] pool) : Accounts max [] pool.drained := by
  unfold AdvisoryLockPool.drained
  split
  · exact h
  · split
    · exact h.retire _
    · exact h

/-- The generation an admission is made on is not retired. -/
theorem generation_live (pool : AdvisoryLockPool) (h : pool.current.any pool.isRetired = false) :
    pool.generation.1.isRetired pool.generation.2 = false := by
  unfold AdvisoryLockPool.generation
  split
  · rename_i number hcurrent
    simpa [hcurrent] using h
  · simp [isRetired]

/-- The current generation is there, and counts its admissions. -/
theorem Accounts.generation (h : Accounts max [] pool) :
    Accounts max [] pool.generation.1 ∧ pool.generation.1.current = some pool.generation.2 := by
  unfold AdvisoryLockPool.generation
  split
  · rename_i number hcurrent
    exact ⟨h, hcurrent⟩
  · rename_i hnone
    refine ⟨?_, rfl⟩
    -- without a current generation every admission is finished
    have hfinished (admission : Admission) (hmem : admission ∈ pool.admissions) : admission.finished = true := by
      by_contra hopen
      have hhome := h.home admission hmem (by simpa using hopen)
      simp [hnone] at hhome
    refine
      { sound := h.sound
        owner := fun admission hmem => ?_
        current := by simp
        home := fun admission hmem hopen => ?_
        occupied := fun index found hfound => ?_
        holders := fun index found hfound holder => ?_
        keys := h.keys
        distinct := h.distinct
        disposal := fun found hfound => ?_
        retired := fun index found hfound hretired => ?_
        disposing := fun admission hmem hphase => ?_ }
    · have howner := h.owner admission hmem
      simp only [List.length_append, List.length_singleton]
      omega
    · simp [hfinished admission hmem] at hopen
    · rcases getElem?_concat_cases hfound with hold | ⟨-, rfl⟩
      · exact h.occupied index found hold
      · have hcount : pool.admissions.countP (unfinishedOf index) = 0 :=
          List.countP_eq_zero.mpr fun admission hmem => by simp [unfinishedOf, hfinished admission hmem]
        simp [hcount]
    · rcases getElem?_concat_cases hfound with hold | ⟨-, rfl⟩
      · exact h.holders index found hold holder
      · refine ⟨fun hmem => by simp at hmem, ?_⟩
        rintro ⟨admission, hget, hopen⟩
        simp [unfinishedOf, hfinished admission (List.mem_of_getElem? hget)] at hopen
    · rcases List.mem_append.mp hfound with hold | hnew
      · exact h.disposal found hold
      · rw [List.mem_singleton.mp hnew]
        rfl
    · rcases getElem?_concat_cases hfound with hold | ⟨-, rfl⟩
      · exact h.retired index found hold hretired
      · simp at hretired
    · have hretired := h.disposing admission hmem hphase
      simp only [isRetired] at hretired ⊢
      rw [List.getElem?_append_left (h.owner admission hmem)]
      exact hretired

/-- An admission is made on a live generation with a place left, under a key nobody uses. -/
theorem Accounts.push (h : Accounts max [] pool) {owner : ℕ} {generation : Generation} {key : Int} (lease : Bool)
    (hcurrent : pool.current = some owner) (hgeneration : pool.generations[owner]? = some generation)
    (hlive : generation.retired = false) (hkey : key ∉ pool.keys) (hplace : generation.occupied < max) :
    Accounts max []
      { pool with
        keys := pool.keys ++ [key]
        generations := pool.generations.set owner
          { generation with
            occupied := generation.occupied + 1
            holders := generation.holders ++ [pool.admissions.length] }
        admissions := pool.admissions ++ [.make key owner lease] } := by
  have hlt : owner < pool.generations.length := (List.getElem?_eq_some_iff.mp hgeneration).1
  have hkeep {holder : ℕ} {admission : Admission} (hget : pool.admissions[holder]? = some admission) :
      (pool.admissions ++ [Admission.make key owner lease])[holder]? = some admission := by
    rw [List.getElem?_append_left (List.getElem?_eq_some_iff.mp hget).1, hget]
  have hnew : (pool.admissions ++ [Admission.make key owner lease])[pool.admissions.length]? =
      some (Admission.make key owner lease) := List.getElem?_concat_length
  have hused (holder : ℕ) (admission : Admission) (hget : pool.admissions[holder]? = some admission)
      (hopen : admission.finished = false) : admission.key ≠ key := fun hsame =>
    hkey ((h.keys key).mpr ⟨holder, admission, hget, hopen, hsame⟩)
  refine
    { sound := fun admission hmem => ?_
      owner := fun admission hmem => ?_
      current := by simpa using h.current
      home := fun admission hmem hopen => ?_
      occupied := fun index found hfound => ?_
      holders := fun index found hfound holder => ?_
      keys := fun other => ?_
      distinct := fun first second a b hfirst hsecond hopen hopen' hsame => ?_
      disposal := fun found hfound => ?_
      retired := fun index found hfound hretired holder admission hget hopen => ?_
      disposing := fun admission hmem hphase => ?_ }
  · rcases List.mem_append.mp hmem with hold | hnew
    · exact h.sound admission hold
    · rw [List.mem_singleton.mp hnew]
      exact ⟨rfl, rfl, rfl, rfl, fun _ => rfl, by simp [Admission.make]⟩
  · rw [List.length_set]
    rcases List.mem_append.mp hmem with hold | hnew
    · exact h.owner admission hold
    · rw [List.mem_singleton.mp hnew]
      exact hlt
  · rcases List.mem_append.mp hmem with hold | hnew
    · exact h.home admission hold hopen
    · rw [List.mem_singleton.mp hnew]
      exact hcurrent
  · rw [List.countP_append, List.countP_singleton]
    rcases getElem?_set_cases hfound with ⟨rfl, rfl⟩ | ⟨hne, hold⟩
    · obtain ⟨hcount, -⟩ := h.occupied index generation hgeneration
      simp only [unfinishedOf, Admission.make, beq_self_eq_true, Bool.not_false, Bool.and_self, if_true]
      omega
    · obtain ⟨hcount, hbound⟩ := h.occupied index found hold
      have hother : unfinishedOf index (.make key owner lease) = false := by
        simpa [unfinishedOf, Admission.make] using hne.symm
      rw [hother]
      exact ⟨by simpa using hcount, hbound⟩
  · have hlength (admission : Admission) : pool.admissions[pool.admissions.length]? ≠ some admission := by simp
    rcases getElem?_set_cases hfound with ⟨rfl, rfl⟩ | ⟨hne, hold⟩
    · rw [List.mem_append, List.mem_singleton, h.holders index generation hgeneration]
      constructor
      · rintro (⟨admission, hget, hopen⟩ | rfl)
        · exact ⟨admission, hkeep hget, hopen⟩
        · exact ⟨_, hnew, by simp [unfinishedOf, Admission.make]⟩
      · rintro ⟨admission, hget, hopen⟩
        rcases getElem?_concat_cases hget with hold | ⟨hlast, -⟩
        · exact .inl ⟨admission, hold, hopen⟩
        · exact .inr hlast
    · rw [h.holders index found hold]
      constructor
      · rintro ⟨admission, hget, hopen⟩
        exact ⟨admission, hkeep hget, hopen⟩
      · rintro ⟨admission, hget, hopen⟩
        rcases getElem?_concat_cases hget with hold | ⟨-, rfl⟩
        · exact ⟨admission, hold, hopen⟩
        · simp [unfinishedOf, Admission.make, hne.symm] at hopen
  · rw [List.mem_append, List.mem_singleton, h.keys other]
    constructor
    · rintro (⟨holder, admission, hget, hopen, hsame⟩ | rfl)
      · exact ⟨holder, admission, hkeep hget, hopen, hsame⟩
      · exact ⟨_, _, hnew, rfl, rfl⟩
    · rintro ⟨holder, admission, hget, hopen, rfl⟩
      rcases getElem?_concat_cases hget with hold | ⟨-, rfl⟩
      · exact .inl ⟨holder, admission, hold, hopen, rfl⟩
      · exact .inr rfl
  · rcases getElem?_concat_cases hfirst with hold | ⟨hlast, rfl⟩ <;>
      rcases getElem?_concat_cases hsecond with hold' | ⟨hlast', rfl⟩
    · exact h.distinct first second a b hold hold' hopen hopen' hsame
    · exact absurd hsame (hused first a hold hopen)
    · exact absurd hsame.symm (hused second b hold' hopen')
    · exact hlast.trans hlast'.symm
  · rcases List.mem_or_eq_of_mem_set hfound with hold | rfl
    · exact h.disposal found hold
    · exact h.disposal generation (List.mem_of_getElem? hgeneration)
  · rcases getElem?_set_cases hfound with ⟨-, rfl⟩ | ⟨hne, hold⟩
    · exact absurd (hlive.symm.trans hretired) (by simp)
    · rcases getElem?_concat_cases hget with hget | ⟨-, rfl⟩
      · exact h.retired index found hold hretired holder admission hget hopen
      · simp [unfinishedOf, Admission.make, hne.symm] at hopen
  · rcases List.mem_append.mp hmem with hold | hnew
    · have hretired := h.disposing admission hold hphase
      simp only [isRetired, List.getElem?_set] at hretired ⊢
      by_cases howner : owner = admission.owner
      · simp [← howner, hgeneration, hlive] at hretired
      · simpa [howner] using hretired
    · simp [List.mem_singleton.mp hnew, Admission.make] at hphase

/-- A caller asks for a lock. -/
theorem Accounts.acquire (h : Accounts max [] pool) (lease : Bool) (key : Int) (signalAborted reserveThrows : Bool) :
    Accounts max [] (pool.acquire max lease key signalAborted reserveThrows) := by
  unfold AdvisoryLockPool.acquire
  split
  · exact h
  · split
    · exact h
    · rename_i hlive
      have hlive := pool.generation_live (by simpa using hlive)
      obtain ⟨hpool, hcurrent⟩ := h.generation
      dsimp only
      generalize pool.generation = made at hlive hpool hcurrent ⊢
      obtain ⟨pool, owner⟩ := made
      dsimp only at hlive hpool hcurrent ⊢
      split
      · exact hpool
      · rename_i generation hgeneration
        split
        · exact hpool
        · rename_i hkey
          split
          · exact hpool
          · rename_i hplace
            have hpushed := hpool.push lease hcurrent hgeneration (by simpa [isRetired, hgeneration] using hlive) hkey
              (Int.not_le.mp hplace)
            split
            · exact hpushed.setFinish List.getElem?_concat_length rfl rfl rfl (Admission.make_thrown key owner lease)
            · exact hpushed

/-- Every step keeps the accounts. -/
theorem Accounts.step (h : Accounts max [] pool) (event : LockEvent) : Accounts max [] (pool.step max event) := by
  cases event with
  | acquire lease key signalAborted reserveThrows => exact h.acquire lease key signalAborted reserveThrows
  | abort number =>
    unfold AdvisoryLockPool.step
    dsimp only
    split
    · exact h
    · exact h.abort number
  | reserved number ok => exact h.reserved number ok
  | raced number cancelled => exact h.raced number cancelled
  | cleaned number => exact h.cleaned number
  | queried number locked => exact h.queried number locked
  | continued number => exact h.continued number
  | left number => exact h.left number
  | unlocked number answer => exact h.unlocked number answer
  | disposed number => exact h.disposed number
  | lost generation => exact h.retire generation
  | ended generation ok => exact h.ended generation ok
  | rechecked generation => exact h.rechecked generation
  | close => exact h.close
  | drained => exact h.drained

/-- A pool starts with its books right. -/
theorem accounts_init (max : ℕ) : Accounts max [] {} where
  sound := by simp
  owner := by simp
  current := by simp
  home := by simp
  occupied := by simp
  holders := by simp
  keys := by simp
  distinct := by simp
  disposal := by simp
  retired := by simp
  disposing := by simp

/-- They are right after every run. -/
theorem after_accounts (max : ℕ) (events : List LockEvent) : Accounts max [] (after max events) :=
  runFrom_invariant (Accounts max []) (fun _ event h => h.step event) events {} (accounts_init max)

/-- What the admission of a generation waits for: its own answers, its caller, or the end of the client. -/
def Concerns (number owner : ℕ) : LockEvent → Prop
  | .reserved n _ | .raced n _ | .cleaned n | .queried n _ | .continued n | .left n | .unlocked n _
  | .disposed n => n = number
  | .ended generation _ => generation = owner
  | _ => False

/-- What the admission waits for can come in an order that finishes it. -/
def Finishable (max number owner : ℕ) (pool : AdvisoryLockPool) : Prop :=
  ∃ more, (∀ event ∈ more, Concerns number owner event) ∧
    ∃ last, (runFrom (step max) pool more).admissions[number]? = some last ∧ last.finished = true

section

variable {owner : ℕ}

/-- What is finished can be finished. -/
theorem finishable_of_finished (hget : pool.admissions[number]? = some admission)
    (hfinished : admission.finished = true) : Finishable max number owner pool :=
  ⟨[], by simp, admission, hget, hfinished⟩

/-- What can be finished after an event can be finished before it. -/
theorem Finishable.after (event : LockEvent) (hevent : Concerns number owner event)
    (h : Finishable max number owner (pool.step max event)) : Finishable max number owner pool := by
  obtain ⟨more, hmore, hlast⟩ := h
  refine ⟨event :: more, fun other hother => ?_, hlast⟩
  rcases List.mem_cons.mp hother with rfl | hrest
  · exact hevent
  · exact hmore other hrest

/-- Finishing finishes. -/
theorem finishable_finish (hget : pool.admissions[number]? = some admission) :
    Finishable max number owner (pool.finish number) := by
  have hlt : number < pool.admissions.length := (List.getElem?_eq_some_iff.mp hget).1
  have hdone : (pool.finish number).admissions[number]? = some admission.done := by
    rw [finish_eq_put hget, put_admissions, List.getElem?_set_self hlt]
  exact finishable_of_finished hdone admission.done_finished

/-- So does settling. -/
theorem finishable_settle (hget : pool.admissions[number]? = some admission) :
    Finishable max number owner (pool.settle number) := by
  have hlt : number < pool.admissions.length := (List.getElem?_eq_some_iff.mp hget).1
  unfold AdvisoryLockPool.settle
  rw [hget]
  exact finishable_finish (setAdmission_get hlt)

/-- From the unlock. -/
theorem finishable_unlocking (hget : pool.admissions[number]? = some admission)
    (hphase : admission.phase = .unlocking) : Finishable max number owner pool := by
  refine Finishable.after (.unlocked number (some true)) rfl ?_
  change Finishable max number owner (pool.unlocked number (some true))
  have hsettle : pool.unlocked number (some true) = pool.settle number := by
    simp [AdvisoryLockPool.unlocked, hget, hphase]
  rw [hsettle]
  exact finishable_settle hget

/-- From the release. -/
theorem finishable_releaseHeld (hget : pool.admissions[number]? = some admission) (acquired : Bool) :
    Finishable max number owner (pool.releaseHeld number acquired) := by
  have hlt : number < pool.admissions.length := (List.getElem?_eq_some_iff.mp hget).1
  unfold AdvisoryLockPool.releaseHeld
  rw [hget]
  dsimp only
  split
  · exact finishable_unlocking (setAdmission_get hlt) rfl
  · exact finishable_settle hget

/-- From inside the section. -/
theorem finishable_inside (hget : pool.admissions[number]? = some admission)
    (hphase : admission.phase = .inside) : Finishable max number owner pool := by
  refine Finishable.after (.left number) rfl ?_
  change Finishable max number owner (pool.left number)
  have hleft : pool.left number = pool.releaseHeld number true := by
    simp [AdvisoryLockPool.left, hget, hphase]
  rw [hleft]
  exact finishable_releaseHeld hget true

/-- From the lock. -/
theorem finishable_held (hget : pool.admissions[number]? = some admission)
    (hphase : admission.phase = .held) : Finishable max number owner pool := by
  have hlt : number < pool.admissions.length := (List.getElem?_eq_some_iff.mp hget).1
  refine Finishable.after (.continued number) rfl ?_
  change Finishable max number owner (pool.continued number)
  unfold AdvisoryLockPool.continued
  rw [hget]
  dsimp only
  rw [if_neg (by simp [hphase])]
  split
  · split
    · exact finishable_releaseHeld (setAdmission_get hlt) true
    · exact finishable_inside (setAdmission_get hlt) rfl
  · split
    · exact finishable_releaseHeld hget true
    · exact finishable_inside (setAdmission_get hlt) rfl

/-- From the query. -/
theorem finishable_querying (hget : pool.admissions[number]? = some admission)
    (hphase : admission.phase = .querying) : Finishable max number owner pool := by
  refine Finishable.after (.queried number (some false)) rfl ?_
  change Finishable max number owner (pool.queried number (some false))
  have hrelease : pool.queried number (some false) = pool.releaseHeld number false := by
    simp [AdvisoryLockPool.queried, hget, hphase]
  rw [hrelease]
  exact finishable_releaseHeld hget false

/-- From the reservation. -/
theorem finishable_pending (hget : pool.admissions[number]? = some admission)
    (hpending : admission.reservation = .pending) : Finishable max number owner pool := by
  have hlt : number < pool.admissions.length := (List.getElem?_eq_some_iff.mp hget).1
  refine Finishable.after (.reserved number false) rfl ?_
  change Finishable max number owner (pool.reserved number false)
  unfold AdvisoryLockPool.reserved
  rw [hget]
  dsimp only
  rw [if_neg (by simp [hpending]), if_pos (by simp)]
  exact finishable_finish (setAdmission_get hlt)

/-- From the race. -/
theorem finishable_racing (hget : pool.admissions[number]? = some admission) (hphase : admission.phase = .racing)
    (hconnected : admission.reservation = .connected) : Finishable max number owner pool := by
  have hlt : number < pool.admissions.length := (List.getElem?_eq_some_iff.mp hget).1
  refine Finishable.after (.raced number false) rfl ?_
  change Finishable max number owner (pool.raced number false)
  unfold AdvisoryLockPool.raced
  rw [hget]
  dsimp only
  rw [if_neg (by simp [hphase]), if_neg (by simp), hconnected]
  dsimp only
  split
  · exact finishable_releaseHeld hget false
  · exact finishable_querying (setAdmission_get hlt) rfl

/-- From a late connection. -/
theorem finishable_late (hget : pool.admissions[number]? = some admission) (hphase : admission.phase = .late)
    (hconnected : admission.reservation = .connected) : Finishable max number owner pool := by
  refine Finishable.after (.cleaned number) rfl ?_
  change Finishable max number owner (pool.cleaned number)
  have hsettle : pool.cleaned number = pool.settle number := by
    simp [AdvisoryLockPool.cleaned, hget, hphase, hconnected]
  rw [hsettle]
  exact finishable_settle hget

/-- A recheck leaves the admissions. -/
@[simp] theorem rechecked_admissions (number : ℕ) : (pool.rechecked number).admissions = pool.admissions := by
  unfold AdvisoryLockPool.rechecked
  split
  · rfl
  · split <;> rfl

/-- And the generations. -/
@[simp] theorem rechecked_generations (number : ℕ) : (pool.rechecked number).generations = pool.generations := by
  unfold AdvisoryLockPool.rechecked
  split
  · rfl
  · split <;> rfl

/-- The wait for the end of the client is over. -/
theorem finishable_disposed (hget : pool.admissions[number]? = some admission)
    (hphase : admission.phase = .disposing) {generation : Generation}
    (hgeneration : pool.generations[admission.owner]? = some generation)
    (hended : generation.disposal = some .resolved ∨ generation.disposal = some .rejected) :
    Finishable max number owner pool := by
  refine Finishable.after (.disposed number) rfl ?_
  change Finishable max number owner (pool.disposed number)
  have hsettle : pool.disposed number = pool.settle number := by
    simp [AdvisoryLockPool.disposed, hget, hphase, hgeneration, hended]
  rw [hsettle]
  exact finishable_settle hget

end

/-- From a client that is given up. -/
theorem Accounts.finishable_disposing (h : Accounts max [] pool) (hget : pool.admissions[number]? = some admission)
    (hphase : admission.phase = .disposing) : Finishable max number admission.owner pool := by
  have hretired := h.disposing admission (List.mem_of_getElem? hget) hphase
  obtain ⟨generation, hgeneration, hgone⟩ := (Option.any_eq_true _ _).mp hretired
  have hdisposal := h.disposal generation (List.mem_of_getElem? hgeneration)
  rw [hgone] at hdisposal
  obtain ⟨disposal, hsome⟩ := Option.isSome_iff_exists.mp hdisposal.symm
  cases disposal with
  | resolved => exact finishable_disposed hget hphase hgeneration (.inl hsome)
  | rejected => exact finishable_disposed hget hphase hgeneration (.inr hsome)
  | pending =>
    have hlt : admission.owner < pool.generations.length := (List.getElem?_eq_some_iff.mp hgeneration).1
    refine Finishable.after (.ended admission.owner true) rfl ?_
    change Finishable max number admission.owner (pool.ended admission.owner true)
    have hended : pool.ended admission.owner true = ({ pool with
        generations := pool.generations.set admission.owner
          { generation with disposal := some .resolved } } : AdvisoryLockPool).rechecked admission.owner := by
      simp [AdvisoryLockPool.ended, hgeneration, hsome]
    rw [hended]
    have hresolved : (pool.generations.set admission.owner
        { generation with disposal := some .resolved })[admission.owner]? =
          some { generation with disposal := some .resolved } := List.getElem?_set_self hlt
    exact finishable_disposed (by rw [rechecked_admissions]; exact hget) hphase
      (by rw [rechecked_generations]; exact hresolved) (.inl rfl)

/-- Nothing but an answer is between an admission and its finish. -/
theorem Accounts.finishable (h : Accounts max [] pool) (hget : pool.admissions[number]? = some admission) :
    Finishable max number admission.owner pool := by
  have hsound := h.sound admission (List.mem_of_getElem? hget)
  have hplaced := hsound.placed
  unfold Admission.Placed at hplaced
  cases hreservation : admission.reservation with
  | pending => exact finishable_pending hget hreservation
  | dropped | failed =>
    refine finishable_of_finished hget ?_
    cases hphase : admission.phase <;> simp_all
  | connected =>
    cases hphase : admission.phase with
    | racing => exact finishable_racing hget hphase hreservation
    | late => exact finishable_late hget hphase hreservation
    | querying => exact finishable_querying hget hphase
    | disposing => exact h.finishable_disposing hget hphase
    | held => exact finishable_held hget hphase
    | inside => exact finishable_inside hget hphase
    | unlocking => exact finishable_unlocking hget hphase
    | closed =>
      rw [hphase] at hplaced
      exact finishable_of_finished hget hplaced.1

/-- What the pool has to account for in every state. -/
structure Accounted (max : ℕ) (pool : AdvisoryLockPool) : Prop where
  /-- No two unfinished admissions share a key. -/
  keys : ∀ (first second : ℕ) (a b : Admission), pool.admissions[first]? = some a →
    pool.admissions[second]? = some b → a.finished = false → b.finished = false → a.key = b.key → first = second
  /-- The current generation counts its unfinished admissions, and has a bounded number of them. -/
  occupied : ∀ number generation, pool.current = some number → pool.generations[number]? = some generation →
    generation.occupied = (pool.admissions.countP (unfinishedOf number) : Int) ∧ generation.occupied ≤ (max : Int)
  /-- An unfinished admission is one of the current generation, and one of its holders. -/
  unfinished : ∀ (holder : ℕ) (admission : Admission), pool.admissions[holder]? = some admission →
    admission.finished = false → pool.current = some admission.owner ∧
      pool.generations[admission.owner]?.any (holder ∈ ·.holders) = true
  /-- `finish` ran once for a finished admission, which handed back what it was given, and an unfinished
  one has handed back nothing; an admission for which nothing is left to do is finished. -/
  once : ∀ admission ∈ pool.admissions,
    (admission.finished = true → admission.finishes = 1 ∧ admission.releases = admission.connections) ∧
    (admission.finished = false → admission.finishes = 0 ∧ admission.releases = 0) ∧
    admission.connections ≤ 1 ∧ (admission.phase = .closed → admission.finished = true)
  /-- An admission waits for nothing but answers, and these finish it. -/
  finishable : ∀ (number : ℕ) (admission : Admission), pool.admissions[number]? = some admission →
    Finishable max number admission.owner pool
  /-- No work runs and no lease is handed out but with the lock answered on a live generation. -/
  locked : ∀ admission ∈ pool.admissions, admission.entered = true → admission.lockedOnRetired = some false
  /-- A retired generation has aborted every holder it still has. -/
  retired : ∀ (number : ℕ) (generation : Generation), pool.generations[number]? = some generation →
    generation.retired = true → ∀ holder ∈ generation.holders, ∀ admission : Admission,
      pool.admissions[holder]? = some admission → admission.aborted = true

/-- Whatever the client answers, and in whatever order holders come and go, the pool's accounts are
right in every state it reaches. -/
theorem after_accounted (max : ℕ) (events : List LockEvent) : Accounted max (after max events) := by
  have h := after_accounts max events
  refine
    { keys := h.distinct
      occupied := fun number generation _ hgeneration => h.occupied number generation hgeneration
      unfinished := fun holder admission hget hopen => ?_
      once := fun admission hmem => ?_
      finishable := fun number admission hget => h.finishable hget
      locked := fun admission hmem hentered => (h.sound admission hmem).locked (.inl hentered)
      retired := fun number generation hgeneration hretired holder hholder admission hget => ?_ }
  · have hmem := List.mem_of_getElem? hget
    refine ⟨h.home admission hmem hopen, ?_⟩
    have hgeneration := List.getElem?_eq_getElem (h.owner admission hmem)
    rw [hgeneration, Option.any_some, decide_eq_true_eq, h.holders _ _ hgeneration]
    exact ⟨admission, hget, by simp [unfinishedOf, hopen]⟩
  · have hsound := h.sound admission hmem
    refine ⟨fun hfinished => ?_, fun hopen => ?_, ?_, fun hclosed => ?_⟩
    · exact ⟨by simp [hsound.finishes, hfinished], by simp [hsound.releases, hfinished]⟩
    · exact ⟨by simp [hsound.finishes, hopen], by simp [hsound.releases, hopen]⟩
    · rw [hsound.connections]
      split <;> simp
    · have hplaced := hsound.placed
      rw [Admission.Placed, hclosed] at hplaced
      exact hplaced.1
  · obtain ⟨found, hfound, hopen⟩ := (h.holders number generation hgeneration holder).mp hholder
    obtain rfl : found = admission := Option.some.inj (hfound.symm.trans hget)
    exact (h.retired number generation hgeneration hretired holder found hfound hopen).resolve_right (by simp)

-- a lease whose session is lost is released by its abort listener
example :
    (after 1 [.acquire true 7 false false, .reserved 0 true, .raced 0 false, .queried 0 (some true), .continued 0,
      .lost 0]).admissions.all (fun admission =>
        admission.entered ∧ admission.aborted ∧ admission.finished ∧ admission.releases = 1) := by decide +kernel

end AdvisoryLockPool

end MultiAiRouter.Db
