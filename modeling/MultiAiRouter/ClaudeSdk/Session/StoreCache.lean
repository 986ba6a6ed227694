import MultiAiRouter.ClaudeSdk.Session.CacheRuns
import MultiAiRouter.ClaudeSdk.Session.StoreMoves

/-!
# The store's cache is a run of cache calls

Each step of the store makes a few calls on its cache, so what a run of cache calls keeps holds of the store's cache
throughout.
-/

namespace MultiAiRouter.ClaudeSdk

open Common

namespace SessionCache

variable {cache : SessionCache} {options : SessionCacheOptions}

/-- Every call keeps the groups exact. -/
theorem Linked.step (h : cache.Linked) (timed : TimedCall) : (cache.step options timed).Linked := by
  by_cases hset : ∃ key value, timed.call = .set key value
  · obtain ⟨key, value, hcall⟩ := hset
    rw [SessionCache.step, hcall]
    exact h.set key value timed.now
  by_cases halias : ∃ fingerprint key, timed.call = .setAlias fingerprint key
  · obtain ⟨fingerprint, key, hcall⟩ := halias
    rw [SessionCache.step, hcall]
    exact h.setAlias fingerprint key timed.now
  push Not at hset halias
  obtain ⟨⟨ids, hpurged⟩, -⟩ := h.loose.purges options timed hset halias
  exact hpurged.linked h

/-- Purging the account's sessions of a list of entries purges each of them. -/
theorem Loose.dropEach (h : cache.Loose) (accountId : String) (entries : List (Sigma fun _ : String => CacheEntry)) :
    ∃ ids, Purged ids cache (entries.foldl (fun kept entry =>
        match entry.2.value with
        | some value => if value.accountId = accountId then kept.purge value.sdkSessionId else kept
        | none => kept) cache) ∧
      ∀ entry ∈ entries, ∀ value, entry.2.value = some value → value.accountId = accountId →
        value.sdkSessionId ∈ ids := by
  induction entries generalizing cache with
  | nil => exact ⟨[], Purged.refl cache, by simp⟩
  | cons entry rest ih =>
    rw [List.foldl_cons]
    cases hentry : entry.2.value with
    | none =>
      obtain ⟨ids, hpurged, hmem⟩ := ih h
      exact ⟨ids, hpurged, List.forall_mem_cons.mpr ⟨by simp [hentry], hmem⟩⟩
    | some value =>
      dsimp only
      by_cases haccount : value.accountId = accountId
      · rw [if_pos haccount]
        have hpurge := h.purge value.sdkSessionId
        obtain ⟨ids, hpurged, hmem⟩ := ih (hpurge.loose h)
        refine ⟨_, hpurge.trans hpurged, List.forall_mem_cons.mpr ⟨fun found hsome _ => ?_, ?_⟩⟩
        · obtain rfl := Option.some.inj (hentry.symm.trans hsome)
          exact List.mem_append_left _ List.mem_cons_self
        · intro other hrest found hsome hfound
          exact List.mem_append_right _ (hmem other hrest found hsome hfound)
      · rw [if_neg haccount]
        obtain ⟨ids, hpurged, hmem⟩ := ih h
        refine ⟨ids, hpurged, List.forall_mem_cons.mpr ⟨fun found hsome hfound => ?_, hmem⟩⟩
        obtain rfl := Option.some.inj (hentry.symm.trans hsome)
        exact absurd hfound haccount

/-- No binding on the account is left once its sessions are dropped. -/
theorem Loose.dropAccount_gone (h : cache.Loose) {accountId key : String} {value : SessionEntry}
    (hvalue : (cache.dropAccount accountId).valueOf key = some value) : value.accountId ≠ accountId := by
  intro haccount
  obtain ⟨ids, hpurged, hmem⟩ := h.dropEach accountId cache.entries.entries.reverse
  obtain ⟨hbefore, hkept⟩ := hpurged.value.mp hvalue
  obtain ⟨entry, hentry, hbound⟩ := Option.bind_eq_some_iff.mp hbefore
  refine hkept (hmem ⟨key, entry⟩ ?_ value hbound haccount)
  rw [List.mem_reverse]
  exact AList.mem_lookup_iff.mp hentry

end SessionCache

namespace SessionStore

variable {digests : Digests} {store : SessionStore}

/-- The later cache is the earlier one after some calls. -/
def CacheCalls (options : SessionCacheOptions) (before after : SessionCache) : Prop :=
  ∃ calls, after = runFrom (SessionCache.step options) before calls

theorem CacheCalls.refl (options : SessionCacheOptions) (cache : SessionCache) :
    CacheCalls options cache cache := ⟨[], rfl⟩

/-- One more call. -/
theorem CacheCalls.snoc {options : SessionCacheOptions} {before after : SessionCache}
    (h : CacheCalls options before after) (call : CacheCall) (now : ℤ) :
    CacheCalls options before (after.step options ⟨call, now⟩) := by
  obtain ⟨calls, rfl⟩ := h
  exact ⟨calls ++ [⟨call, now⟩], by rw [runFrom_append]; rfl⟩

/-- Looking a turn's session up makes calls on the cache. -/
theorem boundSession_calls {options : SessionCacheOptions} {before cache : SessionCache}
    (h : CacheCalls options before cache) (direct : Option (Option SessionEntry)) (apiKeyId accountId : String)
    (fingerprint : Option String) (clock : ℕ → ℤ) :
    CacheCalls options before (boundSession cache direct apiKeyId accountId fingerprint clock).2 := by
  unfold boundSession
  split
  · exact h
  split
  · exact h
  next fingerprint =>
  have haliased : CacheCalls options before (cache.aliased fingerprint (clock 1)).2 :=
    h.snoc (.aliased fingerprint) (clock 1)
  split
  · next hnone =>
    rw [hnone] at haliased
    exact haliased
  · next aliased rest hsome =>
    rw [hsome] at haliased
    have hget : CacheCalls options before (rest.get aliased (clock 2)).2 := haliased.snoc (.get aliased) (clock 2)
    split
    · exact haliased
    · split
      · next hfound =>
        rw [hfound] at hget
        exact hget
      · next hfound =>
        rw [hfound] at hget
        exact hget

/-- Each step of the store makes calls on its cache. -/
theorem step_cacheCalls (store : SessionStore) (timed : StoreStep) :
    CacheCalls store.options store.cache (store.step digests timed).cache := by
  obtain ⟨call, clock⟩ := timed
  have hsame {after : SessionStore} (hcache : after.cache = store.cache) :
      CacheCalls store.options store.cache after.cache := hcache ▸ .refl _ _
  have hrefl := CacheCalls.refl store.options store.cache
  cases call with
  | bindingBegin apiKeyId sessionKey =>
    have hget : CacheCalls store.options store.cache
        (store.cache.get (scopedKey apiKeyId sessionKey) (clock 0)).2 := hrefl.snoc (.get _) (clock 0)
    simp only [step, bindingBegin]
    split
    · next hfound => rw [hfound] at hget; exact hget
    · next hfound => rw [hfound] at hget; exact hget
  | bindingTake ticket => exact hrefl
  | bindingEnd ticket =>
    simp only [step, bindingEnd]
    split
    · exact hrefl
    · split
      · exact hrefl
      · split
        · exact hrefl.snoc (.set _ _) (clock 0)
        · exact hrefl
  | bindingFail ticket =>
    simp only [step, bindingFail]
    split <;> exact hrefl
  | invalidate apiKeyId sessionKey =>
    exact (hrefl.snoc (.drop (scopedKey apiKeyId sessionKey)) 0).snoc (.set _ none) (clock 0)
  | invalidateAccount accountId => exact hrefl.snoc (.dropAccount accountId) 0
  | clearAccount accountId => exact hrefl
  | resolve input => exact boundSession_calls (hrefl.snoc (.get _) (clock 0)) _ _ _ _ _
  | prepare number moved =>
    simp only [step, prepare]
    split
    · split <;> exact hrefl
    · exact hrefl
  | remember number id uuid =>
    simp only [step, remember]
    split
    · next place turn remembered released hturn =>
      split
      · exact hrefl
      · next context hcontext =>
        have hset := hrefl.snoc (.set context.key (some (turn.remember id uuid))) (clock 0)
        split
        · exact hrefl
        · split
          · exact hrefl
          · simp only [recordBinding, withClaim, write_cache]
            cases context.fingerprint with
            | none => exact hset
            | some fingerprint => exact hset.snoc (.setAlias fingerprint context.key) (clock 1)
    · exact hrefl
  | release number outcome =>
    simp only [step, release]
    split
    · exact hrefl
    · split
      · exact hrefl
      · split
        · exact hrefl
        · split
          · exact hrefl.snoc (.set _ _) (clock 0)
          · exact hrefl
  | writeStart key =>
    simp only [step, writeStart]
    split
    · exact hrefl
    · split
      · exact hrefl
      · split <;> exact hrefl
  | writeLand key =>
    simp only [step, writeLand]
    split
    · exact hrefl
    · split <;> exact hrefl
  | writeSettle key =>
    simp only [step, writeSettle]
    split
    · exact hrefl
    · split <;> exact hrefl
  | storeRow apiKeyId sessionKey row => exact hrefl

/-- A step keeps the groups of the store's cache exact. -/
theorem step_linked (timed : StoreStep) (h : store.cache.Linked) : (store.step digests timed).cache.Linked := by
  obtain ⟨calls, hcalls⟩ := @step_cacheCalls digests store timed
  rw [hcalls]
  exact runFrom_invariant SessionCache.Linked (fun cache call hlinked => hlinked.step call) calls _ h

end SessionStore

end MultiAiRouter.ClaudeSdk
