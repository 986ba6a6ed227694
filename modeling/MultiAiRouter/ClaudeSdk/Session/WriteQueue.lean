import MultiAiRouter.ClaudeSdk.Session.StaleReads

/-!
# The queues of row writes

Every row write takes a lease when it is called, so the lease numbers are the order of the calls. The
writes of one key wait behind one another: only the one at the head of the key's queue runs, and the
next one is looked at once that has settled.
-/

namespace MultiAiRouter.ClaudeSdk

open Common

namespace SessionStore

variable {digests : Digests} {store : SessionStore}

/-- The row write a local write queues. -/
def queuedBy (store : SessionStore) (write : LocalWrite) : QueuedWrite where
  key := write.key
  apiKeyId := write.apiKeyId
  sessionKey := write.sessionKey
  row := rowOf write.value
  lease := store.fence.leases.length
  started := store.writes.all fun other => other.key != write.key

/-- The upsert a call starts: the one it queues behind no other of its key, or the head of a key's queue
whose lease stands. -/
def startedBy (store : SessionStore) (call : StoreCall) : Option QueuedWrite :=
  match store.localWrite call with
  | some write => if (store.queuedBy write).started then some (store.queuedBy write) else none
  | none =>
    match call with
    | .writeStart key =>
      (store.headWrite key).filter fun queued => !queued.started && store.fence.leaseValid queued.lease
    | _ => none

/-- How a step changes the queues. -/
inductive QueueMove (store after : SessionStore) (call : StoreCall) : Prop
  | kept (hlocal : store.localWrite call = none) (hstarted : store.startedBy call = none)
      (hwrites : after.writes = store.writes)
      (hleases : store.fence.leases.length ≤ after.fence.leases.length)
  | queued (write : LocalWrite) (hlocal : store.localWrite call = some write)
      (hwrites : after.writes = store.writes ++ [store.queuedBy write])
      (hleases : after.fence.leases.length = store.fence.leases.length + 1)
  | started (queued : QueuedWrite) (hlocal : store.localWrite call = none)
      (hstarted : store.startedBy call = some queued) (hhead : store.headWrite queued.key = some queued)
      (hwaiting : queued.started = false) (hvalid : store.fence.leaseValid queued.lease = true)
      (hwrites : after.writes = store.writes.map fun other =>
        if other = queued then { other with started := true } else other)
      (hfence : after.fence = store.fence)
  | landed (queued : QueuedWrite) (hlocal : store.localWrite call = none) (hstarted : store.startedBy call = none)
      (hwrites : after.writes = store.writes.map fun other =>
        if other = queued then { other with landed := true } else other)
      (hfence : after.fence = store.fence)
  | settled (queued : QueuedWrite) (hlocal : store.localWrite call = none)
      (hstarted : store.startedBy call = none) (hhead : store.headWrite queued.key = some queued)
      (hwrites : after.writes = store.writes.eraseP fun other => other.key = queued.key)
      (hfence : after.fence = store.fence.releaseLease queued.lease)

/-- A local write is queued last. -/
theorem QueueMove.writes_of_local {after : SessionStore} {call : StoreCall} {write : LocalWrite}
    (h : QueueMove store after call) (hlocal : store.localWrite call = some write) :
    after.writes = store.writes ++ [store.queuedBy write] := by
  cases h with
  | queued other hother hwrites _ =>
    obtain rfl := Option.some.inj (hlocal.symm.trans hother)
    exact hwrites
  | kept hnone | started _ hnone | landed _ hnone | settled _ hnone =>
    rw [hlocal] at hnone
    cases hnone

/-- The head of a key's queue is of the key. -/
theorem headWrite_key {key : String} {queued : QueuedWrite} (h : store.headWrite key = some queued) :
    queued.key = key := by
  simpa using List.find?_some h

@[simp] theorem length_hold (fence : DeletionFence) (accountId : Option String) :
    (fence.hold accountId).2.leases.length = fence.leases.length + 1 := by
  simp [DeletionFence.hold]

@[simp] theorem length_releaseLease (fence : DeletionFence) (lease : ℕ) :
    (fence.releaseLease lease).leases.length = fence.leases.length := by
  simp [DeletionFence.releaseLease]

/-- A turn that remembers queues its local write, or leaves the queues. -/
theorem remember_queue (number : ℕ) (id : String) (uuid : Option String) (clock : ℕ → ℤ) :
    QueueMove store (store.remember number id uuid clock) (.remember number id uuid) := by
  cases hlocal : store.localWrite (.remember number id uuid) with
  | none =>
    refine .kept hlocal (by simp only [startedBy, hlocal]) ?_ ?_
    all_goals
      simp only [localWrite, rememberWrite] at hlocal
      unfold remember
      split
      · next place turn remembered released hturn =>
        rw [hturn] at hlocal
        split
        · rfl
        · next context hcontext =>
          dsimp only at hlocal
          rw [hcontext] at hlocal
          simp only [ite_eq_right_iff, Bool.and_eq_true, reduceCtorEq, imp_false, not_and] at hlocal
          split
          · rfl
          · next hvalid =>
            have howned := hlocal (by simpa using hvalid)
            simp [howned, withClaim]
      · rfl
  | some write =>
    refine .queued write hlocal ?_ ?_
    all_goals
      simp only [localWrite, rememberWrite] at hlocal
      split at hlocal
      · next place turn remembered released hturn =>
        split at hlocal
        · cases hlocal
        · next context hcontext =>
          split at hlocal
          · next howned =>
            obtain ⟨hvalid, howned⟩ := Bool.and_eq_true_iff.mp howned
            obtain rfl := Option.some.inj hlocal
            simp [remember, hturn, hcontext, hvalid, howned, recordBinding, withClaim, SessionStore.write,
              queuedBy, LocalWrite.key, DeletionFence.hold]
          · cases hlocal
      · cases hlocal

/-- A turn that ends queues its local write, or leaves the queues. -/
theorem release_queue (number : ℕ) (outcome : TurnOutcome) (clock : ℕ → ℤ) :
    QueueMove store (store.release number outcome clock) (.release number outcome) := by
  cases hlocal : store.localWrite (.release number outcome) with
  | none =>
    refine .kept hlocal (by simp only [startedBy, hlocal]) ?_ ?_
    all_goals
      simp only [localWrite, releaseWrite] at hlocal
      unfold release
      split
      · rfl
      · next place turn remembered released hturn =>
        rw [hturn] at hlocal
        split
        · rfl
        · next context hcontext =>
          dsimp only
          cases turn with
          | unrecorded plan => rfl
          | held turn =>
            dsimp only at hlocal ⊢
            rw [hcontext] at hlocal
            simp only [ite_eq_right_iff, reduceCtorEq, imp_false] at hlocal
            rw [if_neg hlocal]
            simp [withClaim]
  | some write =>
    refine .queued write hlocal ?_ ?_
    all_goals
      simp only [localWrite, releaseWrite] at hlocal
      split at hlocal
      · next place turn remembered released hturn =>
        split at hlocal
        · cases hlocal
        · next context hcontext =>
          split at hlocal
          · next hwithdraws =>
            obtain rfl := Option.some.inj hlocal
            simp only [release, hturn, hcontext, hwithdraws, if_true, length_releaseLease]
            simp [withdraw, withClaim, SessionStore.write, queuedBy, LocalWrite.key, DeletionFence.hold]
          · cases hlocal
      · cases hlocal

/-- A read that ends leaves the leases. -/
theorem bindingEnd_leases (ticket : ℕ) (clock : ℕ → ℤ) : (store.bindingEnd ticket clock).writes = store.writes ∧
      (store.bindingEnd ticket clock).fence.leases = store.fence.leases := by
  unfold bindingEnd
  split
  · exact ⟨rfl, rfl⟩
  · split
    · exact ⟨rfl, rfl⟩
    · dsimp only
      split <;> exact ⟨rfl, rfl⟩

/-- Reading leaves the leases. -/
theorem bindingBegin_leases (apiKeyId sessionKey : String) (clock : ℕ → ℤ) :
    (store.bindingBegin apiKeyId sessionKey clock).writes = store.writes ∧
      (store.bindingBegin apiKeyId sessionKey clock).fence.leases = store.fence.leases := by
  unfold bindingBegin
  split <;> exact ⟨rfl, rfl⟩

/-- A read that fails leaves the leases. -/
theorem bindingFail_leases (ticket : ℕ) : (store.bindingFail ticket).writes = store.writes ∧
      (store.bindingFail ticket).fence.leases = store.fence.leases := by
  unfold bindingFail
  split <;> exact ⟨rfl, rfl⟩

/-- A deletion keeps the leases that were held, though it may revoke them. -/
theorem leases_invalidate (fence : DeletionFence) (accountId : String) :
    (fence.invalidate accountId).leases = fence.leases.map fun lease =>
      if lease.grouped ∧ lease.accountId = some accountId then
        { lease with valid := false, grouped := false }
      else lease := by
  unfold DeletionFence.invalidate
  dsimp only
  split
  · rfl
  · refine evictDown_invariant (fun state : DeletionFence => state.leases = _) ?_ _ _ rfl
    intro state hstate
    rw [← hstate]
    unfold DeletionFence.forgetOldest
    split <;> rfl

/-- The head of a key's queue is looked at. -/
theorem writeStart_queue (key : String) : QueueMove store (store.writeStart key) (.writeStart key) := by
  have hlocal : store.localWrite (.writeStart key) = none := rfl
  unfold writeStart
  cases hhead : store.headWrite key with
  | none => exact .kept hlocal (by simp [startedBy, hlocal, hhead]) rfl (Nat.le_refl _)
  | some queued =>
    obtain rfl := headWrite_key hhead
    dsimp only
    split
    · next hstarted => exact .kept hlocal (by simp [startedBy, hlocal, hhead, hstarted]) rfl (Nat.le_refl _)
    · next hwaiting =>
      rw [Bool.not_eq_true] at hwaiting
      split
      · next hvalid =>
        have hstarted : store.startedBy (.writeStart queued.key) = some queued := by
          simp [startedBy, hlocal, hhead, hwaiting, hvalid]
        exact .started queued hlocal hstarted hhead hwaiting hvalid rfl rfl
      · next hrevoked =>
        have hstarted : store.startedBy (.writeStart queued.key) = none := by
          simp [startedBy, hlocal, hhead, hrevoked]
        exact .settled queued hlocal hstarted hhead rfl rfl

/-- Every step changes the queues in one of these ways. -/
theorem step_queue (store : SessionStore) (timed : StoreStep) :
    QueueMove store (store.step digests timed) timed.call := by
  obtain ⟨call, clock⟩ := timed
  cases call with
  | bindingBegin apiKeyId sessionKey =>
    have hsame := @bindingBegin_leases store apiKeyId sessionKey clock
    exact .kept rfl rfl hsame.1 (Nat.le_of_eq (congrArg List.length hsame.2.symm))
  | bindingEnd ticket =>
    have hsame := @bindingEnd_leases store ticket clock
    exact .kept rfl rfl hsame.1 (Nat.le_of_eq (congrArg List.length hsame.2.symm))
  | bindingFail ticket =>
    have hsame := @bindingFail_leases store ticket
    exact .kept rfl rfl hsame.1 (Nat.le_of_eq (congrArg List.length hsame.2.symm))
  | invalidate apiKeyId sessionKey =>
    exact .queued ⟨apiKeyId, sessionKey, none⟩ rfl rfl (length_hold _ _)
  | invalidateAccount accountId =>
    refine .kept rfl rfl rfl ?_
    change _ ≤ (store.fence.invalidate accountId).leases.length
    rw [leases_invalidate, List.length_map]
  | resolve input =>
    refine .kept rfl rfl rfl ?_
    simp only [step, SessionStore.resolve]
    split
    · exact Nat.le_refl _
    · rw [length_hold]
      omega
  | prepare number moved =>
    have hsame : (store.prepare number moved).writes = store.writes ∧
        (store.prepare number moved).fence = store.fence := by
      unfold prepare
      split
      · split <;> exact ⟨rfl, rfl⟩
      · exact ⟨rfl, rfl⟩
    exact .kept rfl rfl hsame.1 (Nat.le_of_eq (congrArg (·.leases.length) hsame.2.symm))
  | remember number id uuid => exact remember_queue number id uuid clock
  | release number outcome => exact release_queue number outcome clock
  | writeStart key => exact writeStart_queue key
  | writeLand key =>
    simp only [step, writeLand]
    split
    · exact .kept rfl rfl rfl (Nat.le_refl _)
    · next queued hhead =>
      split
      · exact .landed queued rfl rfl rfl rfl
      · exact .kept rfl rfl rfl (Nat.le_refl _)
  | writeSettle key =>
    simp only [step, writeSettle]
    split
    · exact .kept rfl rfl rfl (Nat.le_refl _)
    · next queued hhead =>
      split
      · obtain rfl := headWrite_key hhead
        exact .settled queued rfl rfl hhead rfl rfl
      · exact .kept rfl rfl rfl (Nat.le_refl _)
  | bindingTake | clearAccount | storeRow => exact .kept rfl rfl rfl (Nat.le_refl _)

/-- The writes stand in the order of their calls, and only the head of a key's queue runs. -/
structure InOrder (store : SessionStore) : Prop where
  order : store.writes.Pairwise fun earlier later => earlier.lease < later.lease
  taken : ∀ queued ∈ store.writes, queued.lease < store.fence.leases.length
  running : ∀ queued ∈ store.writes, queued.started = true → store.headWrite queued.key = some queued

/-- Marking writes keeps who is at the head. -/
theorem headWrite_map {after : SessionStore} {mark : QueuedWrite → QueuedWrite}
    (hwrites : after.writes = store.writes.map mark) (hmark : ∀ queued, (mark queued).key = queued.key)
    (key : String) : after.headWrite key = (store.headWrite key).map mark := by
  unfold headWrite
  rw [hwrites, List.find?_map]
  congr 2
  funext queued
  simp [hmark]

/-- Marking writes keeps their order; a mark that starts a write starts the head of its queue. -/
theorem InOrder.mark {after : SessionStore} (h : store.InOrder) {mark : QueuedWrite → QueuedWrite}
    (hwrites : after.writes = store.writes.map mark) (hfence : after.fence = store.fence)
    (hkey : ∀ queued, (mark queued).key = queued.key) (hlease : ∀ queued, (mark queued).lease = queued.lease)
    (hstart : ∀ queued, (mark queued).started = true →
      queued.started = true ∨ store.headWrite queued.key = some queued) : after.InOrder where
  order := by
    rw [hwrites, List.pairwise_map]
    exact h.order.imp fun {earlier later} hless => by rwa [hlease, hlease]
  taken queued hmem := by
    rw [hwrites] at hmem
    obtain ⟨before, hbefore, rfl⟩ := List.mem_map.mp hmem
    rw [hlease, hfence]
    exact h.taken before hbefore
  running queued hmem hstarted := by
    rw [hwrites] at hmem
    obtain ⟨before, hbefore, rfl⟩ := List.mem_map.mp hmem
    have hhead : store.headWrite before.key = some before := by
      rcases hstart before hstarted with hrunning | hhead
      · exact h.running before hbefore hrunning
      · exact hhead
    rw [headWrite_map hwrites hkey, hkey, hhead, Option.map_some]

/-- The head of a key's queue, and the writes before and after it. -/
theorem headWrite_split {queued : QueuedWrite} (h : store.headWrite queued.key = some queued) :
    ∃ before after, store.writes = before ++ queued :: after ∧ (∀ other ∈ before, other.key ≠ queued.key) ∧
      (store.writes.eraseP fun other => other.key = queued.key) = before ++ after := by
  obtain ⟨-, before, after, hsplit, hothers⟩ := List.find?_eq_some_iff_append.mp h
  have hnot : ∀ other ∈ before, ¬ decide (other.key = queued.key) = true := fun other hmem => by
    simpa using hothers other hmem
  refine ⟨before, after, hsplit, fun other hmem => by simpa using hnot other hmem, ?_⟩
  rw [hsplit, List.eraseP_append_right _ hnot, List.eraseP_cons_of_pos (by simp)]

/-- A write behind the head was called after it. -/
theorem InOrder.behind (h : store.InOrder) {queued : QueuedWrite} {before after : List QueuedWrite}
    (hsplit : store.writes = before ++ queued :: after) : ∀ other ∈ after, queued.lease < other.lease := by
  intro other hmem
  have horder := h.order
  rw [hsplit] at horder
  exact (List.pairwise_cons.mp (List.pairwise_append.mp horder).2.1).1 other hmem

/-- A step keeps the writes in order. -/
theorem InOrder.step (h : store.InOrder) (timed : StoreStep) : (store.step digests timed).InOrder := by
  cases @step_queue digests store timed with
  | kept _ _ hwrites hleases =>
    refine ⟨hwrites ▸ h.order, fun queued hmem => ?_, fun queued hmem hstarted => ?_⟩
    · exact Nat.lt_of_lt_of_le (h.taken queued (hwrites ▸ hmem)) hleases
    · unfold headWrite
      rw [hwrites] at hmem ⊢
      exact h.running queued hmem hstarted
  | queued write _ hwrites hleases =>
    refine ⟨?_, fun queued hmem => ?_, fun queued hmem hstarted => ?_⟩
    · rw [hwrites, List.pairwise_append]
      refine ⟨h.order, List.pairwise_singleton _ _, fun earlier hearlier later hlater => ?_⟩
      rw [List.mem_singleton.mp hlater]
      exact h.taken earlier hearlier
    · rw [hwrites] at hmem
      rw [hleases]
      rcases List.mem_append.mp hmem with hold | hnew
      · have := h.taken queued hold
        omega
      · rw [List.mem_singleton.mp hnew]
        exact Nat.lt_succ_self _
    · unfold headWrite
      rw [hwrites] at hmem ⊢
      rw [List.find?_append]
      rcases List.mem_append.mp hmem with hold | hnew
      · have hhead := h.running queued hold hstarted
        unfold headWrite at hhead
        rw [hhead, Option.some_or]
      · -- It starts at once only where no other write of its key waits.
        obtain rfl := List.mem_singleton.mp hnew
        have hnone : (store.writes.find? fun other => other.key = (store.queuedBy write).key) = none := by
          rw [List.find?_eq_none]
          intro other hother
          have hkey : other.key ≠ write.key := by simpa using List.all_eq_true.mp hstarted other hother
          simp [queuedBy, hkey]
        rw [hnone, Option.none_or, List.find?_cons_of_pos (by simp)]
  | started queued _ _ hhead _ _ hwrites hfence =>
    refine h.mark hwrites hfence (fun other => ?_) (fun other => ?_) (fun other hstarted => ?_)
    · split <;> rfl
    · split <;> rfl
    · by_cases hsame : other = queued
      · exact .inr (hsame ▸ hhead)
      · rw [if_neg hsame] at hstarted
        exact .inl hstarted
  | landed queued _ _ hwrites hfence =>
    refine h.mark hwrites hfence (fun other => ?_) (fun other => ?_) (fun other hstarted => .inl ?_)
    · split <;> rfl
    · split <;> rfl
    · split at hstarted <;> exact hstarted
  | settled queued _ _ hhead hwrites hfence =>
    obtain ⟨front, back, hsplit, hothers, herased⟩ := headWrite_split hhead
    rw [herased] at hwrites
    have hmember : ∀ other ∈ front ++ back, other ∈ store.writes := by
      intro other hmem
      rw [hsplit]
      rcases List.mem_append.mp hmem with hfront | hback
      · exact List.mem_append_left _ hfront
      · exact List.mem_append_right _ (List.mem_cons_of_mem _ hback)
    refine ⟨?_, fun other hmem => ?_, fun other hmem hstarted => ?_⟩
    · have horder := h.order
      rw [hsplit] at horder
      rw [hwrites]
      exact horder.sublist (List.sublist_cons_self _ _ |>.append_left _)
    · rw [hfence, length_releaseLease]
      exact h.taken other (hmember other (hwrites ▸ hmem))
    · rw [hwrites] at hmem
      have hold := h.running other (hmember other hmem) hstarted
      have hkey : other.key ≠ queued.key := by
        intro hkey
        -- Two writes of one key do not run: the one at the head has left the queue.
        rw [hkey, hhead] at hold
        obtain rfl := Option.some.inj hold
        rcases List.mem_append.mp hmem with hfront | hback
        · exact hothers _ hfront rfl
        · exact Nat.lt_irrefl _ (h.behind hsplit _ hback)
      unfold headWrite at hold ⊢
      rw [hsplit, List.find?_append, List.find?_cons_of_neg (by simpa using Ne.symm hkey)] at hold
      rw [hwrites, List.find?_append]
      exact hold

/-- The upserts started so far, the last one first: each was called after those of its key before it, and what is
queued after all of them but the one that runs. -/
structure Logged (upserts : List QueuedWrite) (store : SessionStore) : Prop where
  order : upserts.Pairwise fun later earlier => later.key = earlier.key → earlier.lease < later.lease
  taken : ∀ upsert ∈ upserts, upsert.lease < store.fence.leases.length
  queued : ∀ upsert ∈ upserts, ∀ queued ∈ store.writes, queued.key = upsert.key →
    upsert.lease < queued.lease ∨ (upsert.lease = queued.lease ∧ queued.started = true)

/-- Writes that stay queued, or leave the queue, keep the log. -/
theorem Logged.keep {upserts : List QueuedWrite} {after : SessionStore} (h : Logged upserts store)
    (hleases : store.fence.leases.length ≤ after.fence.leases.length)
    (hwrites : ∀ queued ∈ after.writes, ∃ before ∈ store.writes, before.key = queued.key ∧
      before.lease = queued.lease ∧ (before.started = true → queued.started = true)) :
    Logged upserts after where
  order := h.order
  taken upsert hmem := Nat.lt_of_lt_of_le (h.taken upsert hmem) hleases
  queued upsert hmem queued hqueued hkey := by
    obtain ⟨before, hbefore, hsame, hlease, hstarted⟩ := hwrites queued hqueued
    rw [← hlease]
    exact (h.queued upsert hmem before hbefore (hsame.trans hkey)).imp id (And.imp id hstarted)

/-- A step that starts an upsert starts the next one of its key. -/
theorem Logged.step {upserts : List QueuedWrite} (h : Logged upserts store) (horder : store.InOrder)
    (timed : StoreStep) : Logged ((store.startedBy timed.call).toList ++ upserts) (store.step digests timed) := by
  cases @step_queue digests store timed with
  | kept _ hstarted hwrites hleases =>
    rw [hstarted]
    exact h.keep hleases fun queued hmem => ⟨queued, hwrites ▸ hmem, rfl, rfl, id⟩
  | queued write hlocal hwrites hleases =>
    -- The new write was called last, and starts at once only where no other of its key is queued.
    have hbehind : ∀ upsert ∈ upserts, ∀ queued ∈ store.writes ++ [store.queuedBy write], queued.key = upsert.key →
          upsert.lease < queued.lease ∨ (upsert.lease = queued.lease ∧ queued.started = true) := by
      intro upsert hmem queued hqueued hkey
      rcases List.mem_append.mp hqueued with hold | hnew
      · exact h.queued upsert hmem queued hold hkey
      · rw [List.mem_singleton.mp hnew]
        exact .inl (h.taken upsert hmem)
    have htaken : ∀ upsert ∈ upserts, upsert.lease < (store.step digests timed).fence.leases.length := by
      intro upsert hmem
      rw [hleases]
      exact Nat.lt_succ_of_lt (h.taken upsert hmem)
    unfold startedBy
    rw [hlocal]
    dsimp only
    split
    · next hstarted =>
      refine ⟨List.pairwise_cons.mpr ⟨fun earlier hmem _ => h.taken earlier hmem, h.order⟩, ?_, ?_⟩
      · refine List.forall_mem_cons.mpr ⟨?_, htaken⟩
        rw [hleases]
        exact Nat.lt_succ_self _
      · rw [hwrites]
        refine List.forall_mem_cons.mpr ⟨fun queued hqueued hkey => ?_, hbehind⟩
        rcases List.mem_append.mp hqueued with hold | hnew
        · have hother : queued.key ≠ write.key := by simpa using List.all_eq_true.mp hstarted queued hold
          exact absurd hkey hother
        · rw [List.mem_singleton.mp hnew]
          exact .inr ⟨rfl, hstarted⟩
    · exact ⟨h.order, htaken, hwrites ▸ hbehind⟩
  | started queued _ hstarted hhead hwaiting _ hwrites hfence =>
    obtain ⟨front, back, hsplit, hothers, -⟩ := headWrite_split hhead
    have hmem : queued ∈ store.writes := List.mem_of_find?_eq_some hhead
    have hkept : Logged upserts (store.step digests timed) := by
      refine h.keep (Nat.le_of_eq (by rw [hfence])) fun other hother => ?_
      rw [hwrites] at hother
      obtain ⟨before, hbefore, rfl⟩ := List.mem_map.mp hother
      refine ⟨before, hbefore, ?_⟩
      split
      · exact ⟨rfl, rfl, fun _ => rfl⟩
      · exact ⟨rfl, rfl, id⟩
    rw [hstarted]
    refine ⟨List.pairwise_cons.mpr ⟨fun earlier hearlier hkey => ?_, h.order⟩,
      List.forall_mem_cons.mpr ⟨?_, hkept.taken⟩, List.forall_mem_cons.mpr ⟨fun other hother hkey => ?_, hkept.queued⟩⟩
    · rcases h.queued earlier hearlier queued hmem hkey with hless | ⟨-, hrunning⟩
      · exact hless
      · rw [hwaiting] at hrunning
        cases hrunning
    · rw [hfence]
      exact horder.taken queued hmem
    · rw [hwrites] at hother
      obtain ⟨before, hbefore, rfl⟩ := List.mem_map.mp hother
      by_cases hsame : before = queued
      · rw [if_pos hsame, hsame]
        exact .inr ⟨rfl, rfl⟩
      · rw [if_neg hsame] at hkey ⊢
        refine .inl ?_
        rw [hsplit] at hbefore
        rcases List.mem_append.mp hbefore with hfront | hback
        · exact absurd hkey (hothers before hfront)
        · rcases List.mem_cons.mp hback with rfl | hback
          · exact absurd rfl hsame
          · exact horder.behind hsplit before hback
  | landed queued _ hstarted hwrites hfence =>
    rw [hstarted]
    refine h.keep (Nat.le_of_eq (by rw [hfence])) fun other hother => ?_
    rw [hwrites] at hother
    obtain ⟨before, hbefore, rfl⟩ := List.mem_map.mp hother
    refine ⟨before, hbefore, ?_⟩
    split <;> exact ⟨rfl, rfl, id⟩
  | settled queued _ hstarted _ hwrites hfence =>
    rw [hstarted]
    refine h.keep (Nat.le_of_eq (by rw [hfence, length_releaseLease])) fun other hother => ?_
    rw [hwrites] at hother
    exact ⟨other, List.mem_of_mem_eraseP hother, rfl, rfl, id⟩

end SessionStore

end MultiAiRouter.ClaudeSdk
