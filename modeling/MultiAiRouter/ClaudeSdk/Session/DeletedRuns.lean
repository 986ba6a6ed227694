import MultiAiRouter.ClaudeSdk.Session.DeletedAccount

/-!
# Runs with deletions

The store is watched along a run: the accounts deleted since each ticket and each lease was given out,
whether the fence had to forget a deletion since, and the upserts started.
-/

namespace MultiAiRouter.ClaudeSdk

open Common

namespace SessionStore

variable {digests : Digests} {store : SessionStore}

/-- The reads, and what the fence remembers for them, are as they were. -/
def SameReads (before after : SessionStore) : Prop :=
  after.reads = before.reads ∧ after.fence.reads = before.fence.reads ∧
    after.fence.deleted = before.fence.deleted ∧ after.fence.sequence = before.fence.sequence ∧
    after.fence.floor = before.fence.floor

theorem SameReads.refl (store : SessionStore) : SameReads store store := ⟨rfl, rfl, rfl, rfl, rfl⟩

/-- A turn and its row writes leave the reads. -/
theorem step_sameReads (timed : StoreStep)
    (hbegin : ∀ apiKeyId sessionKey, timed.call ≠ .bindingBegin apiKeyId sessionKey)
    (htake : ∀ ticket, timed.call ≠ .bindingTake ticket) (hend : ∀ ticket, timed.call ≠ .bindingEnd ticket)
    (hfail : ∀ ticket, timed.call ≠ .bindingFail ticket)
    (hdelete : ∀ accountId, timed.call ≠ .invalidateAccount accountId) :
    SameReads store (store.step digests timed) := by
  obtain ⟨call, clock⟩ := timed
  cases call with
  | bindingBegin apiKeyId sessionKey => exact absurd rfl (hbegin apiKeyId sessionKey)
  | bindingTake ticket => exact absurd rfl (htake ticket)
  | bindingEnd ticket => exact absurd rfl (hend ticket)
  | bindingFail ticket => exact absurd rfl (hfail ticket)
  | invalidateAccount accountId => exact absurd rfl (hdelete accountId)
  | resolve input =>
    simp only [step, SessionStore.resolve, SameReads, true_and]
    split <;> exact ⟨rfl, rfl, rfl, rfl⟩
  | prepare number moved =>
    simp only [step, SessionStore.prepare]
    split
    · split <;> exact .refl _
    · exact .refl _
  | remember number id uuid =>
    simp only [step, SessionStore.remember]
    split
    · split
      · exact .refl _
      · split
        · exact .refl _
        · split <;> exact ⟨rfl, rfl, rfl, rfl, rfl⟩
    · exact .refl _
  | release number outcome =>
    simp only [step, SessionStore.release]
    split
    · exact .refl _
    · split
      · exact .refl _
      · split
        · exact ⟨rfl, rfl, rfl, rfl, rfl⟩
        · split <;> exact ⟨rfl, rfl, rfl, rfl, rfl⟩
  | writeStart key =>
    simp only [step, SessionStore.writeStart]
    split
    · exact .refl _
    · split
      · exact .refl _
      · split <;> exact ⟨rfl, rfl, rfl, rfl, rfl⟩
  | writeLand key =>
    simp only [step, SessionStore.writeLand]
    split
    · exact .refl _
    · split <;> exact ⟨rfl, rfl, rfl, rfl, rfl⟩
  | writeSettle key =>
    simp only [step, SessionStore.writeSettle]
    split
    · exact .refl _
    · split <;> exact ⟨rfl, rfl, rfl, rfl, rfl⟩
  | invalidate | clearAccount | storeRow => exact ⟨rfl, rfl, rfl, rfl, rfl⟩

/-- An open read has its ticket, and closing one takes only its own. -/
theorem closeRead_opened (h : ∀ read ∈ store.reads, read.ticket ∈ store.fence.reads) (ticket : ℕ) :
    ∀ read ∈ (store.closeRead ticket).reads, read.ticket ∈ (store.closeRead ticket).fence.reads := by
  intro read hread
  obtain ⟨hmem, hother⟩ := List.mem_filter.mp hread
  exact List.mem_filter.mpr ⟨h read hmem, by simpa using hother⟩

end SessionStore

/-- A store that is watched: the accounts deleted since a ticket and since a lease was given out, whether the fence
had to forget a deletion since, and the upserts started, the last one first. -/
structure DeletionWatch where
  store : SessionStore
  sinceRead : ℕ → List String := fun _ => []
  sinceLease : ℕ → List String := fun _ => []
  pressed : ℕ → Bool := fun _ => false
  upserts : List QueuedWrite := []

namespace DeletionWatch

open DeletionFence SessionStore

/-- A step of the watched store. -/
def step (digests : Digests) (watched : DeletionWatch) (timed : StoreStep) : DeletionWatch where
  store := watched.store.step digests timed
  sinceRead := match timed.call with
    | .invalidateAccount accountId =>
      sinceDeletion watched.sinceRead accountId (· ≤ watched.store.fence.sequence)
    | _ => watched.sinceRead
  sinceLease := match timed.call with
    | .invalidateAccount accountId =>
      sinceDeletion watched.sinceLease accountId (· < watched.store.fence.leases.length)
    | _ => watched.sinceLease
  pressed := match timed.call with
    | .invalidateAccount accountId => fun ticket => watched.pressed ticket ||
        (decide (ticket ≤ watched.store.fence.sequence) && watched.store.fence.pressedBy accountId)
    | _ => watched.pressed
  upserts := (watched.store.startedBy timed.call).toList ++ watched.upserts

/-- The call is of a read or of a turn that began before the account was deleted. -/
def BeganBefore (watched : DeletionWatch) (accountId : String) : StoreCall → Prop
  | .bindingEnd ticket => accountId ∈ watched.sinceRead ticket
  | .remember number _ _ | .release number _ => ∃ object held context,
      watched.store.turns[number]? = some object ∧ object.turn = SessionTurn.held held ∧
      watched.store.contexts[object.context]? = some context ∧ accountId ∈ watched.sinceLease context.lease
  | _ => False

/-- Nothing that began before a deletion brings the account back; a read is refused for its own account's deletion
or a forgotten one; and the upserts of a key run one at a time, in the order of their calls. -/
structure KeepsDeleted (digests : Digests) (watched : DeletionWatch) (timed : StoreStep) : Prop where
  cached : ∀ accountId, watched.BeganBefore accountId timed.call → ∀ key entry,
    (watched.store.step digests timed).cache.valueOf key = some entry → entry.accountId = accountId →
      watched.store.cache.valueOf key = some entry
  queued : ∀ accountId, watched.BeganBefore accountId timed.call →
    ∀ queued ∈ (watched.store.step digests timed).writes, queued.row.accountId = some accountId →
      ∃ before ∈ watched.store.writes, before.lease = queued.lease
  started : ∀ upsert, watched.store.startedBy timed.call = some upsert →
    ∀ accountId ∈ watched.sinceLease upsert.lease, upsert.row.accountId ≠ some accountId
  refused : ∀ ticket read row, timed.call = .bindingEnd ticket →
    (watched.store.reads.find? fun read => read.ticket = ticket) = some read → read.row = some row →
      watched.store.fence.readValid ticket (row.bind SessionRow.accountId) = false → watched.pressed ticket = true ∨
          ∃ accountId ∈ watched.sinceRead ticket, row.bind SessionRow.accountId = some accountId
  single : ∀ first ∈ (watched.store.step digests timed).writes,
    ∀ second ∈ (watched.store.step digests timed).writes, first.started = true → second.started = true →
      first.key = second.key → first = second
  inOrder : (watched.step digests timed).upserts.Pairwise fun later earlier =>
    later.key = earlier.key → earlier.lease < later.lease

/-- A failed turn that withdraws what it recorded does not put back a binding of an account deleted since
the turn was resolved. -/
def PutsBackLive (watched : DeletionWatch) (timed : StoreStep) : Prop :=
  ∀ number object held context prior, timed.call = .release number .failed →
    watched.store.turns[number]? = some object → object.turn = SessionTurn.held held →
    watched.store.contexts[object.context]? = some context → object.released = false →
    object.remembered = true → watched.store.fence.leaseValid context.lease = true →
    context.prior = some prior → prior.accountId ∉ watched.sinceLease context.lease

variable {digests : Digests} {watched : DeletionWatch}

/-- The fence agrees with the watch, for reads, turns and writes, and the writes are in order. -/
structure Sound (watched : DeletionWatch) : Prop where
  reads : ReadFence watched.sinceRead watched.pressed watched.store.fence
  opened : ∀ read ∈ watched.store.reads, read.ticket ∈ watched.store.fence.reads
  leases : Fenced watched.sinceLease watched.store
  order : watched.store.InOrder
  logged : Logged watched.upserts watched.store

/-- A step keeps the fence in agreement with the watch of the reads. -/
theorem Sound.reads_step (h : watched.Sound) (timed : StoreStep) :
    ReadFence (watched.step digests timed).sinceRead (watched.step digests timed).pressed
        (watched.step digests timed).store.fence ∧
      ∀ read ∈ (watched.step digests timed).store.reads,
        read.ticket ∈ (watched.step digests timed).store.fence.reads := by
  obtain ⟨call, clock⟩ := timed
  have hsame (hreads : SameReads watched.store (watched.store.step digests ⟨call, clock⟩)) :
      ReadFence watched.sinceRead watched.pressed (watched.store.step digests ⟨call, clock⟩).fence ∧
        ∀ read ∈ (watched.store.step digests ⟨call, clock⟩).reads,
          read.ticket ∈ (watched.store.step digests ⟨call, clock⟩).fence.reads := by
    obtain ⟨hreads, hopen, hdeleted, hsequence, hfloor⟩ := hreads
    refine ⟨h.reads.congr hopen hdeleted hsequence hfloor, ?_⟩
    rw [hreads, hopen]
    exact h.opened
  have hclosed (ticket : ℕ) : ReadFence watched.sinceRead watched.pressed (watched.store.closeRead ticket).fence ∧
      ∀ read ∈ (watched.store.closeRead ticket).reads, read.ticket ∈ (watched.store.closeRead ticket).fence.reads :=
    ⟨h.reads.releaseRead ticket, closeRead_opened h.opened ticket⟩
  cases call with
  | bindingBegin apiKeyId sessionKey =>
    simp only [step, SessionStore.step, SessionStore.bindingBegin]
    split
    · exact ⟨h.reads, h.opened⟩
    · refine ⟨h.reads.read, fun read hread => ?_⟩
      rcases List.mem_append.mp hread with hold | hnew
      · exact List.mem_append_left _ (h.opened read hold)
      · rw [List.mem_singleton.mp hnew]
        exact List.mem_append_right _ List.mem_cons_self
  | bindingTake ticket =>
    refine ⟨h.reads, fun read hread => ?_⟩
    obtain ⟨before, hbefore, rfl⟩ := List.mem_map.mp hread
    have hticket := h.opened before hbefore
    split <;> exact hticket
  | bindingEnd ticket =>
    simp only [step, SessionStore.step, SessionStore.bindingEnd]
    split
    · exact ⟨h.reads, h.opened⟩
    · split
      · exact ⟨h.reads, h.opened⟩
      · split <;> exact hclosed ticket
  | bindingFail ticket =>
    simp only [step, SessionStore.step, SessionStore.bindingFail]
    split
    · exact hclosed ticket
    · exact ⟨h.reads, h.opened⟩
  | invalidateAccount accountId =>
    refine ⟨h.reads.invalidate accountId, ?_⟩
    have hopen : (watched.store.fence.invalidate accountId).reads = watched.store.fence.reads := by
      unfold DeletionFence.invalidate
      dsimp only
      split
      · rfl
      · refine evictDown_invariant (fun state : DeletionFence => state.reads = watched.store.fence.reads) ?_ _ _ rfl
        intro state hstate
        rw [← hstate]
        unfold DeletionFence.forgetOldest
        split <;> rfl
    change ∀ read ∈ watched.store.reads, read.ticket ∈ (watched.store.fence.invalidate accountId).reads
    rw [hopen]
    exact h.opened
  | _ => exact hsame (step_sameReads _ (by simp) (by simp) (by simp) (by simp) (by simp))

/-- A step keeps the fence in agreement with the watch of the leases. -/
theorem Sound.leases_step (h : watched.Sound) (timed : StoreStep) :
    Fenced (watched.step digests timed).sinceLease (watched.step digests timed).store := by
  obtain ⟨call, clock⟩ := timed
  have hfenced := h.leases
  cases call with
  | bindingBegin apiKeyId sessionKey =>
    obtain ⟨hwrites, hleases⟩ := @bindingBegin_leases watched.store apiKeyId sessionKey clock
    obtain ⟨hclaims, hturns⟩ := @bindingBegin_frame watched.store apiKeyId sessionKey clock
    exact hfenced.congr hleases hclaims.1 hturns fun queued hmem => ⟨queued, hwrites ▸ hmem, rfl, rfl⟩
  | bindingEnd ticket =>
    obtain ⟨hwrites, hleases⟩ := @bindingEnd_leases watched.store ticket clock
    obtain ⟨hclaims, hturns⟩ := @bindingEnd_frame watched.store ticket clock
    exact hfenced.congr hleases hclaims.1 hturns fun queued hmem => ⟨queued, hwrites ▸ hmem, rfl, rfl⟩
  | bindingFail ticket =>
    obtain ⟨hwrites, hleases⟩ := @bindingFail_leases watched.store ticket
    obtain ⟨hclaims, hturns⟩ := @bindingFail_frame watched.store ticket
    exact hfenced.congr hleases hclaims.1 hturns fun queued hmem => ⟨queued, hwrites ▸ hmem, rfl, rfl⟩
  | invalidate apiKeyId sessionKey =>
    refine Fenced.write ?_ _ _ _
    exact hfenced.congr rfl rfl rfl fun queued hmem => ⟨queued, hmem, rfl, rfl⟩
  | invalidateAccount accountId => exact hfenced.invalidateAccount accountId
  | resolve input => exact hfenced.resolve input clock
  | prepare number moved => exact hfenced.prepare number moved
  | remember number id uuid => exact hfenced.remember number id uuid clock
  | release number outcome => exact hfenced.release number outcome clock
  | writeStart key =>
    simp only [step, SessionStore.step, SessionStore.writeStart]
    split
    · exact hfenced
    · next queued hhead =>
      split
      · exact hfenced
      · split
        · refine hfenced.congr rfl rfl rfl fun other hmem => ?_
          obtain ⟨before, hbefore, rfl⟩ := List.mem_map.mp hmem
          refine ⟨before, hbefore, ?_⟩
          split <;> exact ⟨rfl, rfl⟩
        · obtain rfl := headWrite_key hhead
          exact hfenced.settleWrite h.order hhead
  | writeLand key =>
    simp only [step, SessionStore.step, SessionStore.writeLand]
    split
    · exact hfenced
    · split
      · refine hfenced.congr rfl rfl rfl fun other hmem => ?_
        obtain ⟨before, hbefore, rfl⟩ := List.mem_map.mp hmem
        refine ⟨before, hbefore, ?_⟩
        split <;> exact ⟨rfl, rfl⟩
      · exact hfenced
  | writeSettle key =>
    simp only [step, SessionStore.step, SessionStore.writeSettle]
    split
    · exact hfenced
    · next queued hhead =>
      split
      · obtain rfl := headWrite_key hhead
        exact hfenced.settleWrite h.order hhead
      · exact hfenced
  | bindingTake | clearAccount | storeRow =>
    exact hfenced.congr rfl rfl rfl fun queued hmem => ⟨queued, hmem, rfl, rfl⟩

/-- A step keeps the watch sound. -/
theorem Sound.step (h : watched.Sound) (timed : StoreStep) : (watched.step digests timed).Sound where
  reads := (h.reads_step timed).1
  opened := (h.reads_step timed).2
  leases := h.leases_step timed
  order := h.order.step timed
  logged := h.logged.step h.order timed

/-- A watch begins with nothing deleted. -/
theorem sound_createSessionStore (options : SessionCacheOptions) (rows : LruMap (String × String) SessionRow) :
    Sound { store := createSessionStore options rows } where
  reads := by constructor <;> simp [createSessionStore]
  opened := by simp [createSessionStore]
  leases := by constructor <;> simp [createSessionStore]
  order := by constructor <;> simp [createSessionStore]
  logged := by constructor <;> simp

/-- A turn that owns an SDK session has not been released. -/
theorem released_of_own {claim : TurnClaim} {claimed : List String} {id : String}
    (h : (claim.own claimed id).1 = true) : claim.released = false := by
  rw [← Bool.not_eq_true]
  intro hreleased
  simp [TurnClaim.own, hreleased] at h

/-- What a turn writes names no account deleted since the turn was resolved, unless it puts it back. -/
theorem Sound.localWrite_live (h : watched.Sound) {timed : StoreStep} (hlive : watched.PutsBackLive timed)
    {write : LocalWrite} (hwrite : watched.store.localWrite timed.call = some write) {entry : SessionEntry}
    (hvalue : write.value = some entry) : ¬ watched.BeganBefore entry.accountId timed.call := by
  obtain ⟨call, clock⟩ := timed
  cases call with
  | remember number id uuid =>
    rintro ⟨object, held, context, hobject, hheld, hcontext, hdeleted⟩
    obtain ⟨place, turn, remembered, released⟩ := object
    dsimp only at hheld hcontext
    subst hheld
    simp only [localWrite, rememberWrite, hobject, hcontext] at hwrite
    split at hwrite
    · next howned =>
      obtain ⟨hvalid, howned⟩ := Bool.and_eq_true_iff.mp howned
      obtain rfl := Option.some.inj hwrite
      obtain rfl := Option.some.inj hvalue
      obtain ⟨found, hfound, haccount, -, -, hstands⟩ := h.leases.turns _ (List.mem_of_getElem? hobject) held rfl
      obtain rfl := Option.some.inj (hcontext.symm.trans hfound)
      have hname := (hstands (released_of_own howned)).not_deleted hvalid _ hdeleted
      exact hname (congrArg some haccount)
    · cases hwrite
  | release number outcome =>
    rintro ⟨object, held, context, hobject, hheld, hcontext, hdeleted⟩
    obtain ⟨place, turn, remembered, released⟩ := object
    dsimp only at hheld hcontext
    subst hheld
    simp only [localWrite, releaseWrite, hobject, hcontext] at hwrite
    split at hwrite
    · next hwithdraws =>
      simp only [Bool.and_eq_true, Bool.not_eq_true', decide_eq_true_eq] at hwithdraws
      obtain ⟨⟨⟨hfirst, rfl⟩, hremembered⟩, hvalid⟩ := hwithdraws
      obtain rfl := Option.some.inj hwrite
      exact hlive number _ held context entry rfl hobject rfl hcontext hfirst hremembered hvalid hvalue hdeleted
    · cases hwrite
  | invalidate apiKeyId sessionKey =>
    obtain rfl := Option.some.inj hwrite
    cases hvalue
  | _ => cases hwrite

/-- What arrives for an open read names no account deleted since the read began. -/
theorem Sound.arrival_live (h : watched.Sound) {call : StoreCall} {read : BindingRead} {row : Option SessionRow}
    (harrival : watched.store.arrival call = some (read, row)) {entry : SessionEntry}
    (hentry : entryOf row = some entry) : ¬ watched.BeganBefore entry.accountId call := by
  obtain ⟨ticket, rfl, hfound, -, hvalid⟩ := arrival_eq_some harrival
  intro hdeleted
  have hticket : read.ticket = ticket := by simpa using List.find?_some hfound
  have hopen := h.opened read (List.mem_of_find?_eq_some hfound)
  rw [hticket] at hopen
  have hnamed : row.bind SessionRow.accountId = some entry.accountId := by
    unfold entryOf at hentry
    split at hentry
    · next haccount _ =>
      rw [haccount, ← Option.some.inj hentry]
    · cases hentry
  rw [hnamed, h.reads.readValid_struck hopen hdeleted] at hvalid
  cases hvalid

/-- A step that puts back live bindings only brings no deleted account back. -/
theorem Sound.keepsDeleted (h : watched.Sound) {timed : StoreStep} (hlive : watched.PutsBackLive timed) :
    watched.KeepsDeleted digests timed where
  cached accountId hbegan key entry hafter haccount := by
    subst haccount
    cases @step_cache digests watched.store timed with
    | kept _ _ hcache => exact hcache.value hafter
    | wrote write hwrite _ hcache =>
      rcases hcache.value hafter with ⟨-, hvalue⟩ | ⟨-, hbefore⟩
      · exact absurd hbegan (h.localWrite_live hlive hwrite hvalue)
      · exact hbefore
    | arrived read row _ harrival hcache =>
      rcases hcache.value hafter with ⟨-, hvalue⟩ | ⟨-, hbefore⟩
      · exact absurd hbegan (h.arrival_live harrival hvalue)
      · exact hbefore
  queued accountId hbegan queued hmem hrow := by
    cases @step_queue digests watched.store timed with
    | kept _ _ hwrites _ => exact ⟨queued, hwrites ▸ hmem, rfl⟩
    | queued write hlocal hwrites _ =>
      rw [hwrites] at hmem
      rcases List.mem_append.mp hmem with hold | hnew
      · exact ⟨queued, hold, rfl⟩
      · obtain rfl := List.mem_singleton.mp hnew
        obtain ⟨entry, hvalue, rfl⟩ := Option.map_eq_some_iff.mp hrow
        exact absurd hbegan (h.localWrite_live hlive hlocal hvalue)
    | started _ _ _ _ _ _ hwrites _ =>
      rw [hwrites] at hmem
      obtain ⟨before, hbefore, rfl⟩ := List.mem_map.mp hmem
      refine ⟨before, hbefore, ?_⟩
      split <;> rfl
    | landed _ _ _ hwrites _ =>
      rw [hwrites] at hmem
      obtain ⟨before, hbefore, rfl⟩ := List.mem_map.mp hmem
      refine ⟨before, hbefore, ?_⟩
      split <;> rfl
    | settled _ _ _ _ hwrites _ =>
      rw [hwrites] at hmem
      exact ⟨queued, List.mem_of_mem_eraseP hmem, rfl⟩
  started upsert hstarted accountId hdeleted := by
    unfold startedBy at hstarted
    split at hstarted
    · next write _ =>
      split at hstarted
      · -- A write that starts at once was called just now.
        rw [← Option.some.inj hstarted] at hdeleted
        have hnone : watched.sinceLease (watched.store.queuedBy write).lease = [] :=
          h.leases.fresh _ (Nat.le_refl _)
        rw [hnone] at hdeleted
        cases hdeleted
      · cases hstarted
    · split at hstarted
      · obtain ⟨hhead, hready⟩ := Option.filter_eq_some_iff.mp hstarted
        have hvalid := (Bool.and_eq_true_iff.mp hready).2
        have hmem := List.mem_of_find?_eq_some hhead
        exact (h.leases.writes upsert hmem).not_deleted hvalid accountId hdeleted
      · cases hstarted
  refused ticket read row _ hfound _ hrefused := by
    have hticket : read.ticket = ticket := by simpa using List.find?_some hfound
    have hopen := h.opened read (List.mem_of_find?_eq_some hfound)
    exact h.reads.refused (hticket ▸ hopen) hrefused
  single first hfirst second hsecond hone htwo hkey := by
    have horder := (h.order.step timed : (watched.store.step digests timed).InOrder)
    have hhead := horder.running first hfirst hone
    rw [hkey, horder.running second hsecond htwo] at hhead
    exact (Option.some.inj hhead).symm
  inOrder := (h.step timed).logged.order

/-- A failed turn that puts a deleted account's binding back queues its row. -/
theorem Sound.putsBackLive (h : watched.Sound) {timed : StoreStep} (hkeeps : watched.KeepsDeleted digests timed) :
    watched.PutsBackLive timed := by
  intro number object held context prior hcall hobject hheld hcontext hfirst hremembered hvalid hprior hdeleted
  obtain ⟨call, clock⟩ := timed
  dsimp only at hcall
  subst hcall
  have hlocal : watched.store.localWrite (.release number .failed) =
      some { apiKeyId := context.apiKeyId, sessionKey := context.sessionKey, value := context.prior } := by
    obtain ⟨place, turn, remembered, released⟩ := object
    dsimp only at hheld hcontext hfirst hremembered
    subst hheld hfirst hremembered
    simp [localWrite, releaseWrite, hobject, hcontext, hvalid]
  have hwrites := (@step_queue digests watched.store ⟨.release number .failed, clock⟩).writes_of_local hlocal
  have hbegan : watched.BeganBefore prior.accountId (.release number .failed) :=
    ⟨object, held, context, hobject, hheld, hcontext, hdeleted⟩
  obtain ⟨before, hbefore, hlease⟩ := hkeeps.queued prior.accountId hbegan _
    (hwrites ▸ List.mem_append_right _ List.mem_cons_self) (by simp [queuedBy, rowOf, hprior])
  -- The row write is a new one: its lease was not taken before.
  have htaken := h.order.taken before hbefore
  rw [hlease] at htaken
  exact absurd htaken (Nat.lt_irrefl _)

/-- Along every run: nothing that began before a deletion brings the account back into the cache or writes its name,
a read is refused only for its own account or under pressure, and the upserts of a key run one at a time in the
order of their calls, exactly when no failed turn puts back a binding of an account deleted since the turn was
resolved. -/
theorem run_keepsDeleted_iff (digests : Digests) (options : SessionCacheOptions)
    (rows : LruMap (String × String) SessionRow) (steps : List StoreStep) :
    EveryStep (DeletionWatch.step digests) (KeepsDeleted digests) { store := createSessionStore options rows } steps ↔
      EveryStep (DeletionWatch.step digests) PutsBackLive { store := createSessionStore options rows } steps := by
  refine everyStep_congr Sound ?_ ?_ steps _ (sound_createSessionStore options rows)
  · intro watched timed hsound
    exact ⟨hsound.putsBackLive, hsound.keepsDeleted⟩
  · intro watched timed hsound _
    exact hsound.step timed

/-- A turn moves to another account; the first is deleted, the turn fails, and what it puts back
names the deleted account. -/
theorem run_deleted_put_back : ¬ EveryStep (DeletionWatch.step ⟨id, id⟩) (KeepsDeleted ⟨id, id⟩)
        { store := createSessionStore ⟨8, 300000, 30000⟩ (AList.insert ("router", "conversation")
            ⟨some "deleted", some "stored", some ⟨["hello"], ["", "answer"]⟩⟩ ∅) }
        [⟨.bindingBegin "router" "conversation", fun _ => 0⟩, ⟨.bindingTake 1, fun _ => 0⟩,
          ⟨.bindingEnd 1, fun _ => 0⟩,
          ⟨.resolve { apiKeyId := "router", sessionKey := "conversation", accountId := "account"
                      clientCwd := none, firstUserText := "hello", keySource := .header
                      clientToolLoop := false, forkOrSubagent := false, sessionGone := false
                      conversation := some ⟨[⟨.user, "hello"⟩], false⟩ }, fun _ => 0⟩,
          ⟨.remember 0 "session" none, fun _ => 0⟩, ⟨.invalidateAccount "deleted", fun _ => 0⟩,
          ⟨.release 0 .failed, fun _ => 0⟩] := by
  rintro ⟨-, -, -, -, -, -, hkeeps, -⟩
  have hbefore := hkeeps.cached "deleted" ⟨_, _, _, by rfl, by rfl, by rfl, by decide +kernel⟩
    (scopedKey "router" "conversation") ⟨"deleted", "stored", ⟨["hello"], ["", "answer"]⟩⟩ (by decide +kernel) rfl
  exact absurd hbefore (by decide +kernel)

end DeletionWatch

end MultiAiRouter.ClaudeSdk
