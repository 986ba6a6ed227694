import MultiAiRouter.ClaudeSdk.Session.StoreCache

/-!
# Reads that a local write overtakes

A `binding` read that missed the cache awaits its row while other calls write the same session key. The store is
watched along a run: the value last written under each key, while the cache holds it, and the value last written
since each read began. A read that was overtaken should leave what was written; the store does not look.
-/

namespace MultiAiRouter.ClaudeSdk

open Common

namespace DeletionFence

variable (fence : DeletionFence)

theorem sequence_forgetOldest : fence.forgetOldest.sequence = fence.sequence := by
  unfold forgetOldest
  split <;> rfl

/-- A deletion gives out no ticket twice. -/
theorem sequence_invalidate (accountId : String) : fence.sequence ≤ (fence.invalidate accountId).sequence := by
  unfold invalidate
  dsimp only
  split
  · exact Nat.le_refl _
  · refine evictDown_invariant (fun state : DeletionFence => fence.sequence ≤ state.sequence) ?_ _ _ ?_
    · intro state hstate
      rw [sequence_forgetOldest]
      exact hstate
    · exact Nat.le_succ _

end DeletionFence

namespace SessionCache

/-- A stored key holds its value. -/
theorem set_lookup (cache : SessionCache) (options : SessionCacheOptions) (key : String)
    (value : Option SessionEntry) (now : ℤ) :
    ((cache.set options key value now).entries.lookup key).map CacheEntry.value = some value := by
  unfold set storeEntry
  dsimp only
  split <;> simp [linkKey]

end SessionCache

/-- A store that is watched: the value last written under a key by a call, while the cache holds the
key, and the one last written under a key since the read with the ticket began. -/
structure WatchedStore where
  store : SessionStore
  written : String → Option (Option SessionEntry) := fun _ => none
  overtaken : ℕ → String → Option (Option SessionEntry) := fun _ _ => none

namespace WatchedStore

/-- What the call wrote under the key, or else the value from before. -/
def lastWrite (store : SessionStore) (call : StoreCall) (key : String) (before : Option (Option SessionEntry)) :
    Option (Option SessionEntry) :=
  match store.localWrite call with
  | some write => if write.key = key then some write.value else before
  | none => before

/-- A step of the watched store. A read begins with nothing written since; a deletion of the account
leaves the absence of the binding as the last that was written. -/
def step (digests : Digests) (watched : WatchedStore) (timed : StoreStep) : WatchedStore where
  store := watched.store.step digests timed
  written key :=
    if ((watched.store.step digests timed).cache.entries.lookup key).isNone then none
    else lastWrite watched.store timed.call key (watched.written key)
  overtaken ticket key :=
    match timed.call with
    | .bindingBegin _ _ =>
      if ticket = watched.store.fence.sequence + 1 then none else watched.overtaken ticket key
    | .invalidateAccount accountId =>
      (watched.overtaken ticket key).map fun value => value.filter fun entry => entry.accountId ≠ accountId
    | call => lastWrite watched.store call key (watched.overtaken ticket key)

/-- A key is answered with the value last written under it until that expires. -/
def Answers (watched : WatchedStore) : Prop :=
  ∀ key value, watched.written key = some value → ∃ entry, watched.store.cache.entries.lookup key = some entry ∧
      ∀ now, entry.expiresAtMs ≤ now ∨ (watched.store.cache.get key now).1 = some value

/-- A read that was overtaken leaves under its key what was last written there. -/
def KeepsWrite (digests : Digests) (watched : WatchedStore) (timed : StoreStep) : Prop :=
  ∀ read row value, watched.store.arrival timed.call = some (read, row) →
    watched.overtaken read.ticket read.key = some value →
      ((watched.store.step digests timed).cache.entries.lookup read.key).map CacheEntry.value = some value

/-- The row that arrives for a read that was overtaken is the one last written. -/
def Current (watched : WatchedStore) (timed : StoreStep) : Prop :=
  ∀ read row value, watched.store.arrival timed.call = some (read, row) →
    watched.overtaken read.ticket read.key = some value → entryOf row = value

variable {digests : Digests} {watched : WatchedStore}

/-- What the watch says of the store: a key last written by a call holds that value, every open read
of it was overtaken by that value, and tickets are not given out twice. -/
structure Sound (watched : WatchedStore) : Prop where
  linked : watched.store.cache.Linked
  holds : ∀ key value, watched.written key = some value →
    ∃ entry, watched.store.cache.entries.lookup key = some entry ∧ entry.value = value
  overtakes : ∀ key value, watched.written key = some value → ∀ read ∈ watched.store.reads,
    read.key = key → watched.overtaken read.ticket key = some value
  ticket : ∀ read ∈ watched.store.reads, read.ticket ≤ watched.store.fence.sequence

/-- The row that arrives is what the key holds afterwards. -/
theorem arrival_lookup {store : SessionStore} {timed : StoreStep} {read : BindingRead}
    {row : Option SessionRow} (h : store.arrival timed.call = some (read, row)) :
    ((store.step digests timed).cache.entries.lookup read.key).map CacheEntry.value = some (entryOf row) := by
  obtain ⟨call, clock⟩ := timed
  obtain ⟨ticket, rfl, hfound, hrow, hvalid⟩ := SessionStore.arrival_eq_some h
  simp only [SessionStore.step, SessionStore.bindingEnd, hfound, hrow, hvalid, if_true]
  exact SessionCache.set_lookup _ _ _ _ _

/-- A read that was overtaken leaves what was written exactly when its row is that. -/
theorem keepsWrite_iff_current (timed : StoreStep) : watched.KeepsWrite digests timed ↔ watched.Current timed := by
  constructor
  · intro h read row value harrival hovertaken
    have hkept := h read row value harrival hovertaken
    rw [arrival_lookup harrival] at hkept
    exact Option.some.inj hkept
  · intro h read row value harrival hovertaken
    rw [arrival_lookup harrival, h read row value harrival hovertaken]

/-- A sound watch answers for its keys. -/
theorem Sound.answers (h : watched.Sound) : watched.Answers := by
  intro key value hwritten
  obtain ⟨entry, hentry, rfl⟩ := h.holds key value hwritten
  refine ⟨entry, hentry, fun now => ?_⟩
  by_cases hexpired : entry.expiresAtMs ≤ now
  · exact .inl hexpired
  · refine .inr ?_
    unfold SessionCache.get
    rw [hentry]
    dsimp only
    rw [if_neg hexpired]

/-- A step never gives a ticket out twice. -/
theorem sequence_step (store : SessionStore) (timed : StoreStep) :
    store.fence.sequence ≤ (store.step digests timed).fence.sequence := by
  obtain ⟨call, clock⟩ := timed
  cases call with
  | bindingBegin apiKeyId sessionKey =>
    simp only [SessionStore.step, SessionStore.bindingBegin]
    split
    · exact Nat.le_refl _
    · exact Nat.le_succ _
  | bindingEnd ticket =>
    simp only [SessionStore.step, SessionStore.bindingEnd]
    split
    · exact Nat.le_refl _
    · split
      · exact Nat.le_refl _
      · split <;> exact Nat.le_refl _
  | bindingFail ticket =>
    simp only [SessionStore.step, SessionStore.bindingFail]
    split <;> exact Nat.le_refl _
  | invalidateAccount accountId => exact DeletionFence.sequence_invalidate _ _
  | resolve input =>
    simp only [SessionStore.step, SessionStore.resolve]
    split <;> exact Nat.le_refl _
  | prepare number moved =>
    simp only [SessionStore.step, SessionStore.prepare]
    split
    · split <;> exact Nat.le_refl _
    · exact Nat.le_refl _
  | remember number id uuid =>
    simp only [SessionStore.step, SessionStore.remember]
    split
    · split
      · exact Nat.le_refl _
      · split
        · exact Nat.le_refl _
        · split <;> exact Nat.le_refl _
    · exact Nat.le_refl _
  | release number outcome =>
    simp only [SessionStore.step, SessionStore.release]
    split
    · exact Nat.le_refl _
    · split
      · exact Nat.le_refl _
      · split
        · exact Nat.le_refl _
        · split <;> exact Nat.le_refl _
  | writeStart key =>
    simp only [SessionStore.step, SessionStore.writeStart]
    split
    · exact Nat.le_refl _
    · split
      · exact Nat.le_refl _
      · split <;> exact Nat.le_refl _
  | writeLand key =>
    simp only [SessionStore.step, SessionStore.writeLand]
    split
    · exact Nat.le_refl _
    · split <;> exact Nat.le_refl _
  | writeSettle key =>
    simp only [SessionStore.step, SessionStore.writeSettle]
    split
    · exact Nat.le_refl _
    · split <;> exact Nat.le_refl _
  | bindingTake | invalidate | clearAccount | storeRow => exact Nat.le_refl _

/-- The value last written under a key that the cache holds: this call's, or the one from before. -/
theorem written_step {timed : StoreStep} {key : String} {value : Option SessionEntry}
    (h : (watched.step digests timed).written key = some value) :
    (∃ entry, (watched.store.step digests timed).cache.entries.lookup key = some entry) ∧
      lastWrite watched.store timed.call key (watched.written key) = some value := by
  unfold step at h
  dsimp only at h
  split at h
  · cases h
  · next hlookup => exact ⟨Option.ne_none_iff_exists'.mp (by simpa using hlookup), h⟩

/-- After a step whose arrivals are current the key holds the value last written under it. -/
theorem Sound.holds_step (h : watched.Sound) {timed : StoreStep} (hcurrent : watched.Current timed)
    {key : String} {value : Option SessionEntry} (hwritten : (watched.step digests timed).written key = some value) :
    ∃ entry, (watched.store.step digests timed).cache.entries.lookup key = some entry ∧ entry.value = value := by
  obtain ⟨⟨entry, hentry⟩, hlast⟩ := written_step hwritten
  refine ⟨entry, hentry, ?_⟩
  have hbefore (hold : watched.store.cache.entries.lookup key = some entry)
      (hvalue : watched.written key = some value) : entry.value = value := by
    obtain ⟨other, hother, hsame⟩ := h.holds key value hvalue
    obtain rfl := Option.some.inj (hold.symm.trans hother)
    exact hsame
  unfold lastWrite at hlast
  cases @SessionStore.step_cache digests watched.store timed with
  | kept hwrite _ hcache =>
    rw [hwrite] at hlast
    exact hbefore (hcache.entry key entry hentry) hlast
  | wrote write hwrite _ hcache =>
    rw [hwrite] at hlast
    dsimp only at hlast
    rcases hcache.entry key entry hentry with ⟨rfl, hvalue⟩ | ⟨hother, hold⟩
    · rw [if_pos rfl] at hlast
      exact hvalue.trans (Option.some.inj hlast)
    · rw [if_neg (Ne.symm hother)] at hlast
      exact hbefore hold hlast
  | arrived read row hwrite harrival hcache =>
    rw [hwrite] at hlast
    dsimp only at hlast
    rcases hcache.entry key entry hentry with ⟨rfl, hvalue⟩ | ⟨-, hold⟩
    · -- The key was written by a call while this read was open, so the read was overtaken.
      obtain ⟨ticket, -, hfound, -⟩ := SessionStore.arrival_eq_some harrival
      have hovertaken := h.overtakes read.key value hlast read (List.mem_of_find?_eq_some hfound) rfl
      exact hvalue.trans (hcurrent read row value harrival hovertaken)
    · exact hbefore hold hlast

/-- After a step every open read of a key that was written is overtaken by the value. -/
theorem Sound.overtakes_step (h : watched.Sound) {timed : StoreStep} (hcurrent : watched.Current timed)
    {key : String} {value : Option SessionEntry} (hwritten : (watched.step digests timed).written key = some value)
    {read : BindingRead} (hmem : read ∈ (watched.store.step digests timed).reads) (hkey : read.key = key) :
    (watched.step digests timed).overtaken read.ticket key = some value := by
  obtain ⟨⟨entry, hentry⟩, hlast⟩ := written_step hwritten
  rcases SessionStore.step_reads watched.store timed hmem with
    ⟨before, hbefore, hticket, hapi, hsession, -⟩ | ⟨-, -, -, hmiss⟩
  · have hsame : before.key = key := by
      rw [← hkey, BindingRead.key, BindingRead.key, hapi, hsession]
    have hold (hvalue : watched.written key = some value) : watched.overtaken read.ticket key = some value :=
      hticket ▸ h.overtakes key value hvalue before hbefore hsame
    have hlater : lastWrite watched.store timed.call key (watched.overtaken read.ticket key) = some value := by
      unfold lastWrite at hlast ⊢
      split at hlast
      · split at hlast
        · next hwrite => rw [if_pos hwrite]; exact hlast
        · next hwrite => rw [if_neg hwrite]; exact hold hlast
      · exact hold hlast
    unfold step
    dsimp only
    split
    · next hcall =>
      have hfresh : read.ticket ≠ watched.store.fence.sequence + 1 := by
        have hopen := h.ticket before hbefore
        omega
      rw [if_neg hfresh]
      rw [hcall] at hlast
      exact hold hlast
    · next accountId hcall =>
      -- What is still cached is not bound on the account that was deleted.
      obtain ⟨held, hheld, hvalue⟩ := h.holds_step hcurrent hwritten
      rw [hcall] at hlast
      rw [hold hlast, Option.map_some]
      cases value with
      | none => rfl
      | some bound =>
        have hcached : (watched.store.cache.dropAccount accountId).valueOf key = some bound := by
          have hlookup : (watched.store.cache.dropAccount accountId).entries.lookup key = some held := by
            simpa only [SessionStore.step, hcall, SessionStore.invalidateAccount] using hheld
          rw [SessionCache.valueOf, hlookup]
          exact hvalue
        have hother := h.linked.loose.dropAccount_gone hcached
        simp [hother]
    · exact hlater
  · rw [hkey] at hmiss
    rw [hmiss] at hentry
    cases hentry

/-- A step whose arrivals are current keeps the watch sound. -/
theorem step_sound (timed : StoreStep) (h : watched.Sound) (hcurrent : watched.Current timed) :
    (watched.step digests timed).Sound where
  linked := SessionStore.step_linked timed h.linked
  holds key value hwritten := h.holds_step hcurrent hwritten
  overtakes key value hwritten read hmem hkey := h.overtakes_step hcurrent hwritten hmem hkey
  ticket read hmem := by
    rcases SessionStore.step_reads watched.store timed hmem with
      ⟨before, hbefore, hticket, -⟩ | ⟨-, hticket, -⟩
    · rw [← hticket]
      exact Nat.le_trans (h.ticket before hbefore) (sequence_step watched.store timed)
    · exact Nat.le_of_eq hticket

/-- A watch begins with nothing written. -/
theorem sound_createSessionStore (options : SessionCacheOptions) (rows : LruMap (String × String) SessionRow) :
    Sound { store := createSessionStore options rows } where
  linked := SessionCache.linked_empty
  holds _ _ hwritten := by cases hwritten
  overtakes _ _ hwritten := by cases hwritten
  ticket := by simp [createSessionStore]

/-- Along every run: each read that a call overtook leaves under its key what was last written there, and
each key is answered with the value last written under it until that expires or is evicted, exactly when
every row that arrives for a read that was overtaken is the one last written. -/
theorem run_local_writes_kept_iff (digests : Digests) (options : SessionCacheOptions)
    (rows : LruMap (String × String) SessionRow) (steps : List StoreStep) : EveryStep (WatchedStore.step digests)
        (fun watched timed => watched.KeepsWrite digests timed ∧ (watched.step digests timed).Answers)
        { store := createSessionStore options rows } steps ↔
      EveryStep (WatchedStore.step digests) Current { store := createSessionStore options rows } steps := by
  refine everyStep_congr Sound ?_ ?_ steps _ (sound_createSessionStore options rows)
  · intro watched timed hsound
    refine ⟨fun h => (keepsWrite_iff_current timed).mp h.1, fun h => ?_⟩
    exact ⟨(keepsWrite_iff_current timed).mpr h, (step_sound timed hsound h).answers⟩
  · intro watched timed hsound h
    exact step_sound timed hsound ((keepsWrite_iff_current timed).mp h.1)

/-- A turn remembers its session while a read of the same key waits for its row; the row, read before
the turn's own landed, then takes the binding out of the cache. -/
theorem run_local_write_lost : ¬ EveryStep (WatchedStore.step ⟨id, id⟩)
        (fun watched timed => watched.KeepsWrite ⟨id, id⟩ timed ∧ (watched.step ⟨id, id⟩ timed).Answers)
        { store := createSessionStore ⟨8, 300000, 30000⟩ ∅ }
        [⟨.resolve { apiKeyId := "router", sessionKey := "conversation", accountId := "account"
                     clientCwd := none, firstUserText := "hello", keySource := .header
                     clientToolLoop := false, forkOrSubagent := false, sessionGone := false
                     conversation := some ⟨[⟨.user, "hello"⟩], false⟩ }, fun _ => 0⟩,
          ⟨.bindingBegin "router" "conversation", fun _ => 0⟩, ⟨.bindingTake 1, fun _ => 0⟩,
          ⟨.remember 0 "session" (some "answer"), fun _ => 0⟩, ⟨.bindingEnd 1, fun _ => 0⟩] := by
  rintro ⟨-, -, -, -, ⟨hkeeps, -⟩, -⟩
  have hkept := hkeeps ⟨1, "router", "conversation", some none⟩ none
    (some ⟨"account", "session", ⟨["hello"], ["", "answer"]⟩⟩) (by rfl) (by rfl)
  exact absurd hkept (by decide +kernel)

end WatchedStore

end MultiAiRouter.ClaudeSdk
