import MultiAiRouter.ClaudeSdk.Session.WriteQueue

/-!
# What the deletion fence remembers

The fence is compared with the whole history of deletions. An open read is refused by a deletion of its account, or
by the floor a forgotten deletion raised.
-/

namespace MultiAiRouter.ClaudeSdk

open Common

namespace DeletionFence

variable {fence : DeletionFence} {since : ℕ → List String} {pressed : ℕ → Bool}

/-- A deletion is remembered by the fence that has more to remember than its limit. -/
def pressedBy (fence : DeletionFence) (accountId : String) : Bool :=
  !fence.reads.isEmpty && decide (fence.historyLimit < mapSize (prune
    { fence with
      sequence := fence.sequence + 1
      deleted := fence.deleted.insert accountId (fence.sequence + 1) }).deleted)

/-- The accounts deleted since a number was given out, after one more deletion. -/
def sinceDeletion (since : ℕ → List String) (accountId : String) (given : ℕ → Prop) [DecidablePred given]
    (number : ℕ) : List String :=
  if given number then accountId :: since number else since number

/-- The fence and the history agree on every open read. -/
structure ReadFence (since : ℕ → List String) (pressed : ℕ → Bool) (fence : DeletionFence) : Prop where
  opened : ∀ ticket ∈ fence.reads, ticket ≤ fence.sequence
  seen : ∀ accountId seenAt, fence.deleted.lookup accountId = some seenAt → seenAt ≤ fence.sequence
  floor_le : fence.floor ≤ fence.sequence
  struck : ∀ ticket ∈ fence.reads, ∀ accountId ∈ since ticket,
    (∃ seenAt, fence.deleted.lookup accountId = some seenAt ∧ ticket < seenAt) ∨ (ticket : ℤ) < fence.floor
  known : ∀ ticket ∈ fence.reads, ∀ accountId seenAt, fence.deleted.lookup accountId = some seenAt → ticket < seenAt →
    accountId ∈ since ticket
  pressure : ∀ ticket ∈ fence.reads, (ticket : ℤ) < fence.floor → pressed ticket = true
  fresh : ∀ ticket, fence.sequence < ticket → since ticket = []

/-- No open ticket is below the oldest. -/
theorem foldl_min_le (tickets : List ℕ) (sequence : ℕ) :
    tickets.foldl min sequence ≤ sequence ∧ ∀ ticket ∈ tickets, tickets.foldl min sequence ≤ ticket := by
  induction tickets generalizing sequence with
  | nil => exact ⟨Nat.le_refl _, nofun⟩
  | cons first rest ih =>
    obtain ⟨hle, hall⟩ := ih (min sequence first)
    rw [List.foldl_cons]
    refine ⟨Nat.le_trans hle (Nat.min_le_left _ _), List.forall_mem_cons.mpr ⟨?_, hall⟩⟩
    exact Nat.le_trans hle (Nat.min_le_right _ _)

/-- Pruning keeps the deletions that an open read is older than, and no others. -/
theorem lookup_prune {accountId : String} {seenAt : ℕ} : (fence.prune).deleted.lookup accountId = some seenAt ↔
    fence.deleted.lookup accountId = some seenAt ∧ fence.reads.foldl min fence.sequence < seenAt := by
  unfold prune
  rw [lookup_eraseNames_eq_some, and_comm]
  refine and_congr_right fun hlookup => ?_
  have hmem : accountId ∈ fence.deleted.keys :=
    AList.mem_keys.mpr (AList.lookup_isSome.mp (by rw [hlookup]; rfl))
  simp [List.mem_filter, hmem, hlookup]

/-- Pruning keeps the agreement. -/
theorem ReadFence.prune (h : ReadFence since pressed fence) : ReadFence since pressed fence.prune where
  opened := h.opened
  seen accountId seenAt hlookup := h.seen accountId seenAt (lookup_prune.mp hlookup).1
  floor_le := h.floor_le
  struck ticket hticket accountId haccount := by
    refine (h.struck ticket hticket accountId haccount).imp (fun ⟨seenAt, hlookup, hless⟩ => ?_) id
    have holdest := (foldl_min_le fence.reads fence.sequence).2 ticket hticket
    exact ⟨seenAt, lookup_prune.mpr ⟨hlookup, Nat.lt_of_le_of_lt holdest hless⟩, hless⟩
  known ticket hticket accountId seenAt hlookup := h.known ticket hticket accountId seenAt (lookup_prune.mp hlookup).1
  pressure := h.pressure
  fresh := h.fresh

/-- A read that begins knows of no deletion. -/
theorem ReadFence.read (h : ReadFence since pressed fence) : ReadFence since pressed fence.read.2 := by
  have hfloor := h.floor_le
  refine ⟨fun ticket hticket => ?_, fun accountId seenAt hlookup => ?_, ?_, fun ticket hticket => ?_,
    fun ticket hticket => ?_, fun ticket hticket => ?_, fun ticket hless => ?_⟩
  · rcases List.mem_append.mp hticket with hold | hnew
    · exact Nat.le_succ_of_le (h.opened ticket hold)
    · exact Nat.le_of_eq (List.mem_singleton.mp hnew)
  · exact Nat.le_succ_of_le (h.seen accountId seenAt hlookup)
  · change fence.floor ≤ ((fence.sequence + 1 : ℕ) : ℤ)
    omega
  · rcases List.mem_append.mp hticket with hold | hnew
    · exact h.struck ticket hold
    · rw [List.mem_singleton.mp hnew, h.fresh _ (Nat.lt_succ_self _)]
      exact nofun
  · rcases List.mem_append.mp hticket with hold | hnew
    · exact h.known ticket hold
    · intro accountId seenAt hlookup hless
      have hseen := h.seen accountId seenAt hlookup
      have hticket := List.mem_singleton.mp hnew
      omega
  · rcases List.mem_append.mp hticket with hold | hnew
    · exact h.pressure ticket hold
    · intro hless
      have hticket := List.mem_singleton.mp hnew
      have hfloor' : fence.floor = fence.read.2.floor := rfl
      omega
  · exact h.fresh ticket (Nat.lt_of_succ_lt hless)

/-- A read that ends leaves the others as they are. -/
theorem ReadFence.releaseRead (h : ReadFence since pressed fence) (ticket : ℕ) :
    ReadFence since pressed (fence.releaseRead ticket) := by
  have hopen : ∀ other ∈ fence.reads.filter (· ≠ ticket), other ∈ fence.reads :=
    fun other hother => List.mem_of_mem_filter hother
  refine ReadFence.prune ⟨?_, h.seen, h.floor_le, ?_, ?_, ?_, h.fresh⟩
  · exact fun other hother => h.opened other (hopen other hother)
  · exact fun other hother => h.struck other (hopen other hother)
  · exact fun other hother => h.known other (hopen other hother)
  · exact fun other hother => h.pressure other (hopen other hother)

/-- A deletion that is forgotten raises the floor above every read that is older. -/
theorem ReadFence.forgetOldest (h : ReadFence since pressed fence)
    (hpressed : ∀ ticket ∈ fence.reads, pressed ticket = true) : ReadFence since pressed fence.forgetOldest := by
  unfold DeletionFence.forgetOldest
  split
  · exact h
  · next oldest _ =>
    refine ⟨h.opened, fun accountId seenAt hlookup => ?_, ?_, fun ticket hticket accountId haccount => ?_,
      fun ticket hticket accountId seenAt hlookup => ?_, fun ticket hticket _ => hpressed ticket hticket, h.fresh⟩
    · exact h.seen accountId seenAt (lookup_erase_eq_some.mp hlookup).2
    · have hfloor := h.floor_le
      have holdest : (fence.deleted.lookup oldest).getD 0 ≤ fence.sequence := by
        cases hlookup : fence.deleted.lookup oldest with
        | none => exact Nat.zero_le _
        | some seenAt => exact h.seen oldest seenAt hlookup
      dsimp only
      omega
    · rcases h.struck ticket hticket accountId haccount with ⟨seenAt, hlookup, hless⟩ | hfloor
      · by_cases hsame : accountId = oldest
        · refine .inr ?_
          rw [← hsame, hlookup, Option.getD_some]
          dsimp only
          omega
        · exact .inl ⟨seenAt, lookup_erase_eq_some.mpr ⟨hsame, hlookup⟩, hless⟩
      · refine .inr ?_
        dsimp only
        omega
    · exact h.known ticket hticket accountId seenAt (lookup_erase_eq_some.mp hlookup).2

/-- A deletion strikes every open read, by the deletion that is remembered or by the floor. -/
theorem ReadFence.invalidate (h : ReadFence since pressed fence) (accountId : String) :
    ReadFence (sinceDeletion since accountId (· ≤ fence.sequence))
      (fun ticket => pressed ticket || (decide (ticket ≤ fence.sequence) && fence.pressedBy accountId))
      (fence.invalidate accountId) := by
  have hfresh : ∀ ticket, fence.sequence < ticket →
      sinceDeletion since accountId (· ≤ fence.sequence) ticket = [] := by
    intro ticket hless
    unfold sinceDeletion
    rw [if_neg (by omega)]
    exact h.fresh ticket hless
  unfold DeletionFence.invalidate
  dsimp only
  split
  · next hnone =>
    -- With no read open there is nothing to remember.
    have hempty : ∀ ticket, ticket ∉ fence.reads := by simp [hnone]
    exact ⟨h.opened, h.seen, h.floor_le, fun ticket hticket => absurd hticket (hempty ticket),
      fun ticket hticket => absurd hticket (hempty ticket), fun ticket hticket => absurd hticket (hempty ticket),
      hfresh⟩
  · next hopen =>
    have hgiven : ∀ ticket ∈ fence.reads,
        sinceDeletion since accountId (· ≤ fence.sequence) ticket = accountId :: since ticket := by
      intro ticket hticket
      exact if_pos (h.opened ticket hticket)
    have hinserted : ReadFence (sinceDeletion since accountId (· ≤ fence.sequence))
        (fun ticket => pressed ticket || (decide (ticket ≤ fence.sequence) && fence.pressedBy accountId))
        { fence with
          leases := fence.leases.map fun lease =>
            if lease.grouped ∧ lease.accountId = some accountId then
              { lease with valid := false, grouped := false }
            else lease
          sequence := fence.sequence + 1
          deleted := fence.deleted.insert accountId (fence.sequence + 1) } := by
      refine ⟨fun ticket hticket => Nat.le_succ_of_le (h.opened ticket hticket), fun other seenAt hlookup => ?_, ?_,
        fun ticket hticket other hother => ?_, fun ticket hticket other seenAt hlookup hless => ?_,
        fun ticket hticket hless => ?_, fun ticket hless => hfresh ticket (Nat.lt_of_succ_lt hless)⟩
      · rcases lookup_insert_eq_some.mp hlookup with ⟨-, rfl⟩ | ⟨-, hlookup⟩
        · exact Nat.le_refl _
        · exact Nat.le_succ_of_le (h.seen other seenAt hlookup)
      · have hfloor := h.floor_le
        dsimp only
        omega
      · rw [hgiven ticket hticket] at hother
        by_cases hsame : other = accountId
        · refine .inl ⟨fence.sequence + 1, lookup_insert_eq_some.mpr (.inl ⟨hsame, rfl⟩), ?_⟩
          exact Nat.lt_succ_of_le (h.opened ticket hticket)
        · refine (h.struck ticket hticket other ((List.mem_cons.mp hother).resolve_left hsame)).imp ?_ id
          rintro ⟨seenAt, hlookup, hless⟩
          exact ⟨seenAt, lookup_insert_eq_some.mpr (.inr ⟨hsame, hlookup⟩), hless⟩
      · rw [hgiven ticket hticket]
        rcases lookup_insert_eq_some.mp hlookup with ⟨rfl, -⟩ | ⟨-, hlookup⟩
        · exact List.mem_cons_self
        · exact List.mem_cons_of_mem _ (h.known ticket hticket other seenAt hlookup hless)
      · rw [h.pressure ticket hticket hless, Bool.true_or]
    by_cases hpressed : fence.pressedBy accountId = true
    · -- Forgetting is allowed to raise the floor now.
      refine (evictDown_invariant (fun state : DeletionFence => state.reads = fence.reads ∧
        ReadFence (sinceDeletion since accountId (· ≤ fence.sequence))
          (fun ticket => pressed ticket || (decide (ticket ≤ fence.sequence) && fence.pressedBy accountId)) state)
        ?_ _ _ ?_).2
      rotate_left
      · exact ⟨rfl, hinserted.prune⟩
      rintro state ⟨hreads, hstate⟩
      refine ⟨?_, hstate.forgetOldest fun ticket hticket => ?_⟩
      · rw [← hreads]
        unfold DeletionFence.forgetOldest
        split <;> rfl
      · simp [hpressed, h.opened ticket (hreads ▸ hticket)]
    · simp only [pressedBy, Bool.and_eq_true, Bool.not_eq_true', List.isEmpty_eq_false_iff, decide_eq_true_eq,
        not_and] at hpressed
      have hsize := hpressed hopen
      refine (evictDown_of_lt ?_ _).symm ▸ hinserted.prune
      unfold DeletionFence.prune at hsize ⊢
      dsimp only at hsize ⊢
      omega

/-- Tickets and deletions are all the agreement is about. -/
theorem ReadFence.congr {after : DeletionFence} (h : ReadFence since pressed fence)
    (hreads : after.reads = fence.reads) (hdeleted : after.deleted = fence.deleted)
    (hsequence : after.sequence = fence.sequence) (hfloor : after.floor = fence.floor) :
    ReadFence since pressed after := by
  obtain ⟨historyLimit, leases, reads, deleted, sequence, floor⟩ := after
  dsimp only at hreads hdeleted hsequence hfloor
  subst hreads hdeleted hsequence hfloor
  exact ⟨h.opened, h.seen, h.floor_le, h.struck, h.known, h.pressure, h.fresh⟩

/-- An open read of an account deleted meanwhile is refused. -/
theorem ReadFence.readValid_struck (h : ReadFence since pressed fence) {ticket : ℕ} (hticket : ticket ∈ fence.reads)
    {accountId : String} (hstruck : accountId ∈ since ticket) : fence.readValid ticket (some accountId) = false := by
  unfold DeletionFence.readValid
  rcases h.struck ticket hticket accountId hstruck with ⟨seenAt, hlookup, hless⟩ | hfloor
  · simp [hlookup, Nat.not_le.mpr hless]
  · rw [decide_eq_false (by omega), Bool.false_and]

/-- An open read that is refused is of an account deleted meanwhile, or the fence had to forget. -/
theorem ReadFence.refused (h : ReadFence since pressed fence) {ticket : ℕ} (hticket : ticket ∈ fence.reads)
    {accountId : Option String} (hrefused : fence.readValid ticket accountId = false) :
    pressed ticket = true ∨ ∃ deleted ∈ since ticket, accountId = some deleted := by
  by_cases hfloor : (ticket : ℤ) < fence.floor
  · exact .inl (h.pressure ticket hticket hfloor)
  · refine .inr ?_
    unfold DeletionFence.readValid at hrefused
    rw [decide_eq_true (by omega), Bool.true_and] at hrefused
    cases accountId with
    | none => cases hrefused
    | some accountId =>
      dsimp only at hrefused
      cases hlookup : fence.deleted.lookup accountId with
      | none =>
        rw [hlookup] at hrefused
        cases hrefused
      | some seenAt =>
        rw [hlookup] at hrefused
        have hless : ticket < seenAt := by simpa using hrefused
        exact ⟨accountId, h.known ticket hticket accountId seenAt hlookup hless, rfl⟩

/-- While the lease stands it is in its group, and its account was not deleted since it was taken. -/
def Stands (leases : List FenceLease) (since : ℕ → List String) (lease : ℕ) (accountId : Option String) : Prop :=
  ∃ held, leases[lease]? = some held ∧ held.accountId = accountId ∧
    (held.valid = true → held.grouped = true ∧ ∀ deleted ∈ since lease, accountId ≠ some deleted)

variable {leases : List FenceLease} {lease : ℕ} {accountId : Option String}

/-- A lease that stands is of an account that was not deleted. -/
theorem Stands.not_deleted (h : Stands fence.leases since lease accountId)
    (hvalid : fence.leaseValid lease = true) : ∀ deleted ∈ since lease, accountId ≠ some deleted := by
  obtain ⟨held, hheld, -, hstands⟩ := h
  simp only [leaseValid, hheld, Option.map_some, Option.getD_some] at hvalid
  exact (hstands hvalid).2

/-- A new lease stands. -/
theorem stands_hold (hfresh : since leases.length = []) :
    Stands (leases ++ [{ accountId := accountId }]) since leases.length accountId := by
  refine ⟨{ accountId := accountId }, List.getElem?_concat_length, rfl, fun _ => ⟨rfl, ?_⟩⟩
  rw [hfresh]
  exact nofun

/-- A new lease leaves the others. -/
theorem Stands.hold (h : Stands leases since lease accountId) (added : FenceLease) :
    Stands (leases ++ [added]) since lease accountId := by
  obtain ⟨held, hheld, hrest⟩ := h
  refine ⟨held, ?_, hrest⟩
  rw [List.getElem?_append_left (List.getElem?_eq_some_iff.mp hheld).1]
  exact hheld

/-- A lease that leaves its group leaves the others. -/
theorem Stands.modify (h : Stands leases since lease accountId) {other : ℕ} (hother : other ≠ lease)
    (change : FenceLease → FenceLease) : Stands (leases.modify other change) since lease accountId := by
  obtain ⟨held, hheld, hrest⟩ := h
  refine ⟨held, ?_, hrest⟩
  rw [List.getElem?_modify_ne _ _ hother]
  exact hheld

/-- A deletion revokes the leases of its account that are in their group. -/
theorem Stands.invalidate (h : Stands leases since lease accountId) (deleted : String) :
    Stands (leases.map fun held =>
        if held.grouped ∧ held.accountId = some deleted then { held with valid := false, grouped := false }
        else held)
      (sinceDeletion since deleted (· < leases.length)) lease accountId := by
  obtain ⟨held, hheld, haccount, hstands⟩ := h
  have hlt : lease < leases.length := (List.getElem?_eq_some_iff.mp hheld).1
  refine ⟨_, by rw [List.getElem?_map, hheld, Option.map_some], ?_⟩
  split
  · exact ⟨haccount, nofun⟩
  · next hother =>
    refine ⟨haccount, fun hvalid => ?_⟩
    obtain ⟨hgrouped, hkept⟩ := hstands hvalid
    refine ⟨hgrouped, ?_⟩
    rw [sinceDeletion, if_pos hlt]
    refine List.forall_mem_cons.mpr ⟨fun hsame => ?_, hkept⟩
    exact hother ⟨hgrouped, haccount.trans hsame⟩

end DeletionFence

end MultiAiRouter.ClaudeSdk
