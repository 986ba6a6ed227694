import MultiAiRouter.ClaudeSdk.Session.CachePurge

/-!
# What a cache call leaves in the cache

No call invents an entry. A lookup or an eviction leaves a part of what was there; storing a key adds
that key's value and nothing else. A purge that takes too much still only takes.
-/

namespace MultiAiRouter.ClaudeSdk

open Common

namespace SessionCache

variable {cache before after : SessionCache} {options : SessionCacheOptions}

/-- Everything found in the later cache was found in the earlier one. -/
structure Within (before after : SessionCache) : Prop where
  entry : ∀ key entry, after.entries.lookup key = some entry → before.entries.lookup key = some entry
  aliased : ∀ fingerprint found, after.aliases.lookup fingerprint = some found →
    before.aliases.lookup fingerprint = some found

theorem Within.refl (cache : SessionCache) : Within cache cache := ⟨fun _ _ h => h, fun _ _ h => h⟩

/-- What is within a part is within the whole. -/
theorem Within.trans {middle : SessionCache} (h : Within before middle) (h' : Within middle after) :
    Within before after :=
  ⟨fun key entry hentry => h.entry key entry (h'.entry key entry hentry),
    fun fingerprint found hfound => h.aliased fingerprint found (h'.aliased fingerprint found hfound)⟩

/-- A binding found in the later cache was found in the earlier one. -/
theorem Within.value (h : Within before after) {key : String} {value : SessionEntry}
    (hvalue : after.valueOf key = some value) : before.valueOf key = some value := by
  obtain ⟨entry, hentry, hbound⟩ := Option.bind_eq_some_iff.mp hvalue
  exact Option.bind_eq_some_iff.mpr ⟨entry, h.entry key entry hentry, hbound⟩

theorem eraseEntry_within (cache : SessionCache) (key : String) :
    Within cache { cache with entries := cache.entries.erase key } :=
  ⟨fun _ _ h => (lookup_erase_eq_some.mp h).2, fun _ _ h => h⟩

theorem eraseAlias_within (cache : SessionCache) (fingerprint : String) :
    Within cache { cache with aliases := cache.aliases.erase fingerprint } :=
  ⟨fun _ _ h => h, fun _ _ h => (lookup_erase_eq_some.mp h).2⟩

theorem purge_within (cache : SessionCache) (id : String) : Within cache (cache.purge id) := by
  unfold purge
  split
  · exact Within.refl cache
  · exact ⟨fun _ _ h => (lookup_eraseNames_eq_some.mp h).2, fun _ _ h => (lookup_eraseNames_eq_some.mp h).2⟩

theorem removeEntry_within (cache : SessionCache) (key : String) : Within cache (cache.removeEntry key) := by
  refine (eraseEntry_within cache key).trans ?_
  unfold removeEntry
  split
  · exact Within.refl _
  · exact purge_within _ _

theorem removeAlias_within (cache : SessionCache) (fingerprint : String) :
    Within cache (cache.removeAlias fingerprint) := by
  refine (eraseAlias_within cache fingerprint).trans ?_
  unfold removeAlias
  split
  · exact Within.refl _
  · exact purge_within _ _

/-- Making room for a key only takes. -/
theorem roomForEntry_within (cache : SessionCache) (options : SessionCacheOptions) :
    Within cache (cache.roomForEntry options) := by
  refine evictDown_invariant (Within cache) (fun state h => h.trans ?_) _ _ (Within.refl cache)
  unfold evictOldestEntry
  split
  · exact Within.refl state
  · exact removeEntry_within state _

/-- Making room for an alias only takes. -/
theorem roomForAlias_within (cache : SessionCache) (options : SessionCacheOptions) :
    Within cache (cache.roomForAlias options) := by
  refine evictDown_invariant (Within cache) (fun state h => h.trans ?_) _ _ (Within.refl cache)
  unfold evictOldestAlias
  split
  · exact Within.refl state
  · exact removeAlias_within state _

/-- Vacating a key only takes. -/
theorem vacate_within (cache : SessionCache) (key : String) (value : Option SessionEntry) :
    Within cache (cache.vacate key value) := by
  refine (eraseEntry_within cache key).trans ?_
  unfold vacate
  split
  · exact Within.refl _
  · split
    · exact Within.refl _
    · refine Within.trans ?_ (purge_within _ _)
      refine ⟨fun name entry h => ?_, fun name found h => ?_⟩
      · rwa [unlinkKey_entries] at h
      · rwa [unlinkKey_aliases] at h

/-- Unaliasing only takes. -/
theorem unalias_within (cache : SessionCache) (fingerprint id : String) :
    Within cache (cache.unalias fingerprint id) := by
  refine (eraseAlias_within cache fingerprint).trans ?_
  unfold unalias
  split
  · exact Within.refl _
  · split
    · exact Within.refl _
    · refine ⟨fun name entry h => ?_, fun name found h => ?_⟩
      · rwa [unlinkFingerprint_entries] at h
      · rwa [unlinkFingerprint_aliases] at h

/-- Looking a key up leaves a part of the cache. -/
theorem get_within (cache : SessionCache) (key : String) (now : ℤ) : Within cache (cache.get key now).2 := by
  unfold get
  cases hlookup : cache.entries.lookup key with
  | none => exact Within.refl cache
  | some entry =>
    dsimp only
    split
    · exact removeEntry_within cache key
    · refine ⟨fun name other h => ?_, fun _ _ h => h⟩
      -- The entry that was found is stored again, as the newest.
      rcases lookup_insert_eq_some.mp h with ⟨rfl, rfl⟩ | ⟨-, hother⟩
      · exact hlookup
      · exact hother

/-- A lookup answers what the key holds. -/
theorem get_answer {key : String} {now : ℤ} {value : Option SessionEntry} (h : (cache.get key now).1 = some value) :
    ∃ entry, cache.entries.lookup key = some entry ∧ entry.value = value := by
  unfold get at h
  cases hlookup : cache.entries.lookup key with
  | none => simp [hlookup] at h
  | some entry =>
    rw [hlookup] at h
    dsimp only at h
    split at h
    · simp at h
    · exact ⟨entry, rfl, Option.some.inj h⟩

/-- After a lookup that answered nothing the key holds nothing. -/
theorem get_miss {key : String} {now : ℤ} (h : (cache.get key now).1 = none) :
    (cache.get key now).2.entries.lookup key = none := by
  unfold get at h ⊢
  cases hlookup : cache.entries.lookup key with
  | none => exact hlookup
  | some entry =>
    rw [hlookup] at h
    dsimp only at h ⊢
    split at h
    · next hexpired =>
      rw [if_pos hexpired]
      refine Option.eq_none_iff_forall_not_mem.mpr fun other hother => ?_
      -- The expired entry is erased first; the purge that follows only takes more.
      have herased : Within { cache with entries := cache.entries.erase key } (cache.removeEntry key) := by
        unfold removeEntry
        split
        · exact Within.refl _
        · exact purge_within _ _
      exact (lookup_erase_eq_some.mp (herased.entry key other hother)).1 rfl
    · simp at h

/-- Reading an alias leaves a part of the cache. -/
theorem aliased_within (cache : SessionCache) (fingerprint : String) (now : ℤ) :
    Within cache (cache.aliased fingerprint now).2 := by
  unfold aliased
  cases hlookup : cache.aliases.lookup fingerprint with
  | none => exact Within.refl cache
  | some found =>
    dsimp only
    split
    · exact removeAlias_within cache fingerprint
    · refine ⟨fun _ _ h => h, fun name other h => ?_⟩
      rcases lookup_insert_eq_some.mp h with ⟨rfl, rfl⟩ | ⟨-, hother⟩
      · exact hlookup
      · exact hother

/-- Dropping an account's sessions leaves a part of the cache. -/
theorem dropAccount_within (cache : SessionCache) (accountId : String) :
    Within cache (cache.dropAccount accountId) := by
  unfold dropAccount
  refine List.foldlRecOn (motive := Within cache) _ _ (Within.refl cache) ?_
  intro kept h entry _
  split
  · split
    · exact h.trans (purge_within _ _)
    · exact h
  · exact h

/-- The later cache holds what the earlier one held and, under the key, the value. -/
structure Stores (key : String) (value : Option SessionEntry) (before after : SessionCache) : Prop where
  entry : ∀ name entry, after.entries.lookup name = some entry →
    (name = key ∧ entry.value = value) ∨ (name ≠ key ∧ before.entries.lookup name = some entry)

/-- What is left of a cache that stores the value stores it. -/
theorem Stores.within {middle : SessionCache} {key : String} {value : Option SessionEntry}
    (h : Stores key value before middle) (hwithin : Within middle after) : Stores key value before after :=
  ⟨fun name entry hentry => h.entry name entry (hwithin.entry name entry hentry)⟩

/-- Storing the value in what is left of a cache stores it. -/
theorem Within.stores {middle : SessionCache} {key : String} {value : Option SessionEntry}
    (h : Within before middle) (hstores : Stores key value middle after) : Stores key value before after :=
  ⟨fun name entry hentry => (hstores.entry name entry hentry).imp_right fun hold =>
    ⟨hold.1, h.entry name entry hold.2⟩⟩

/-- A binding found in a cache that stores the value is that value or was found before. -/
theorem Stores.value {key : String} {value : Option SessionEntry} (h : Stores key value before after)
    {name : String} {bound : SessionEntry} (hbound : after.valueOf name = some bound) :
    (name = key ∧ value = some bound) ∨ (name ≠ key ∧ before.valueOf name = some bound) := by
  obtain ⟨entry, hentry, hvalue⟩ := Option.bind_eq_some_iff.mp hbound
  rcases h.entry name entry hentry with ⟨hname, hstored⟩ | ⟨hname, hold⟩
  · exact .inl ⟨hname, hstored ▸ hvalue⟩
  · exact .inr ⟨hname, Option.bind_eq_some_iff.mpr ⟨entry, hold, hvalue⟩⟩

/-- Storing a key's value adds that value and nothing else. -/
theorem set_stores (cache : SessionCache) (options : SessionCacheOptions) (key : String)
    (value : Option SessionEntry) (now : ℤ) : Stores key value cache (cache.set options key value now) := by
  have hroom := (vacate_within cache key value).trans (roomForEntry_within _ options)
  refine hroom.stores ⟨fun name entry hentry => ?_⟩
  have hentries (stored : CacheEntry) :
      (((cache.vacate key value).roomForEntry options).storeEntry key stored).entries =
        ((cache.vacate key value).roomForEntry options).entries.insert key stored := by
    unfold storeEntry
    split <;> rfl
  unfold set at hentry
  rw [hentries] at hentry
  rcases lookup_insert_eq_some.mp hentry with ⟨rfl, rfl⟩ | ⟨hname, hold⟩
  · exact .inl ⟨rfl, rfl⟩
  · exact .inr ⟨hname, hold⟩

/-- Pointing a fingerprint somewhere leaves a part of the entries. -/
theorem setAlias_stores {key : String} {value : Option SessionEntry} (options : SessionCacheOptions)
    (fingerprint target : String) (now : ℤ) (h : Stores key value before cache) :
    Stores key value before (cache.setAlias options fingerprint target now) := by
  unfold setAlias
  split
  · exact h
  · next bound _ =>
    have hroom := (unalias_within cache fingerprint bound.sdkSessionId).trans (roomForAlias_within _ options)
    exact ⟨fun name entry hentry => (h.within hroom).entry name entry hentry⟩

end SessionCache

end MultiAiRouter.ClaudeSdk
