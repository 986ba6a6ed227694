import MultiAiRouter.ClaudeSdk.Session.CachePurge

/-!
# The two session caches agree

An alias keeps pointing at a binding of its own session through every call but one: an alias that
evicts the last one of its own session purges the binding it is about to name.
-/

namespace MultiAiRouter.ClaudeSdk.SessionCache

open Common

variable {options : SessionCacheOptions} {cache before after : SessionCache}

/-- Every alias points at a key whose binding names the alias's own session. -/
def Pointed (cache : SessionCache) : Prop :=
  ∀ fingerprint found, cache.aliases.lookup fingerprint = some found →
    ∃ value, cache.valueOf found.key = some value ∧ value.sdkSessionId = found.sdkSessionId

/-- Both maps are within the bound. -/
def Bounded (options : SessionCacheOptions) (cache : SessionCache) : Prop :=
  mapSize cache.entries ≤ options.maxEntries ∧ mapSize cache.aliases ≤ options.maxEntries

/-- A purge leaves no alias without its binding. -/
theorem Purged.pointed {ids : List String} (h : Purged ids before after) (hpointed : before.Pointed) :
    after.Pointed := by
  intro fingerprint found hfound
  obtain ⟨hbefore, hkept⟩ := h.aliased.mp hfound
  obtain ⟨value, hvalue, hid⟩ := hpointed fingerprint found hbefore
  exact ⟨value, h.value.mpr ⟨hvalue, hid ▸ hkept⟩, hid⟩

section Size

/-- Neither map grew. -/
def Shrunk (before after : SessionCache) : Prop :=
  mapSize after.entries ≤ mapSize before.entries ∧ mapSize after.aliases ≤ mapSize before.aliases

/-- A cache has not grown on itself. -/
theorem Shrunk.refl (cache : SessionCache) : Shrunk cache cache := ⟨Nat.le_refl _, Nat.le_refl _⟩

/-- One after the other. -/
theorem Shrunk.trans {middle : SessionCache} (h : Shrunk before middle) (h' : Shrunk middle after) :
    Shrunk before after :=
  ⟨Nat.le_trans h'.1 h.1, Nat.le_trans h'.2 h.2⟩

/-- What shrinks stays bounded. -/
theorem Bounded.shrunk (h : Bounded options before) (hshrunk : Shrunk before after) : Bounded options after :=
  ⟨Nat.le_trans hshrunk.1 h.1, Nat.le_trans hshrunk.2 h.2⟩

/-- A purge only drops. -/
theorem purge_shrunk (cache : SessionCache) (id : String) : Shrunk cache (cache.purge id) := by
  unfold purge
  split
  · exact Shrunk.refl cache
  · exact ⟨mapSize_eraseNames_le _, mapSize_eraseNames_le _⟩

/-- An entry that leaves makes its map smaller. -/
theorem removeEntry_shrunk (key : String) :
    Shrunk { cache with entries := cache.entries.erase key } (cache.removeEntry key) := by
  unfold removeEntry
  split
  · exact Shrunk.refl _
  · exact purge_shrunk _ _

/-- An alias that leaves makes its map smaller. -/
theorem removeAlias_shrunk (fingerprint : String) :
    Shrunk { cache with aliases := cache.aliases.erase fingerprint } (cache.removeAlias fingerprint) := by
  unfold removeAlias
  split
  · exact Shrunk.refl _
  · exact purge_shrunk _ _

/-- An entry is dropped. -/
theorem eraseEntry_shrunk (key : String) : Shrunk cache { cache with entries := cache.entries.erase key } :=
  ⟨mapSize_erase_le, Nat.le_refl _⟩

/-- An alias is dropped. -/
theorem eraseAlias_shrunk (fingerprint : String) :
    Shrunk cache { cache with aliases := cache.aliases.erase fingerprint } :=
  ⟨Nat.le_refl _, mapSize_erase_le⟩

/-- The oldest entry is dropped. -/
theorem evictOldestEntry_shrunk (cache : SessionCache) : Shrunk cache cache.evictOldestEntry := by
  unfold evictOldestEntry
  split
  · exact Shrunk.refl cache
  · exact (eraseEntry_shrunk _).trans (removeEntry_shrunk _)

/-- The oldest alias is dropped. -/
theorem evictOldestAlias_shrunk (cache : SessionCache) : Shrunk cache cache.evictOldestAlias := by
  unfold evictOldestAlias
  split
  · exact Shrunk.refl cache
  · exact (eraseAlias_shrunk _).trans (removeAlias_shrunk _)

/-- Evicting the oldest entry makes the entries fewer. -/
theorem evictOldestEntry_lt (cache : SessionCache) (h : 0 < mapSize cache.entries) :
    mapSize cache.evictOldestEntry.entries < mapSize cache.entries := by
  unfold evictOldestEntry
  split
  · next hnone => rw [mapSize_of_oldestName_none hnone] at h; exact absurd h (Nat.lt_irrefl 0)
  · next key hkey =>
    exact Nat.lt_of_le_of_lt (removeEntry_shrunk key).1 (mapSize_erase_lt (oldestName_mem hkey))

/-- Evicting the oldest alias makes the aliases fewer. -/
theorem evictOldestAlias_lt (cache : SessionCache) (h : 0 < mapSize cache.aliases) :
    mapSize cache.evictOldestAlias.aliases < mapSize cache.aliases := by
  unfold evictOldestAlias
  split
  · next hnone => rw [mapSize_of_oldestName_none hnone] at h; exact absurd h (Nat.lt_irrefl 0)
  · next fingerprint hfingerprint =>
    exact Nat.lt_of_le_of_lt (removeAlias_shrunk fingerprint).2 (mapSize_erase_lt (oldestName_mem hfingerprint))

/-- Room for an entry is made by dropping. -/
theorem roomForEntry_shrunk (cache : SessionCache) (options : SessionCacheOptions) :
    Shrunk cache (cache.roomForEntry options) := by
  refine evictDown_invariant (Shrunk cache) ?_ _ _ (Shrunk.refl cache)
  intro state h
  exact h.trans (evictOldestEntry_shrunk state)

/-- So is room for an alias. -/
theorem roomForAlias_shrunk (cache : SessionCache) (options : SessionCacheOptions) :
    Shrunk cache (cache.roomForAlias options) := by
  refine evictDown_invariant (Shrunk cache) ?_ _ _ (Shrunk.refl cache)
  intro state h
  exact h.trans (evictOldestAlias_shrunk state)

/-- There is room for an entry. -/
theorem roomForEntry_lt (hlimit : 0 < options.maxEntries) :
    mapSize (cache.roomForEntry options).entries < options.maxEntries :=
  @evictDown_lt _ (fun cache : SessionCache => mapSize cache.entries) _ _ hlimit
    evictOldestEntry_lt _ _ (Nat.le_refl _)

/-- There is room for an alias. -/
theorem roomForAlias_lt (hlimit : 0 < options.maxEntries) :
    mapSize (cache.roomForAlias options).aliases < options.maxEntries :=
  @evictDown_lt _ (fun cache : SessionCache => mapSize cache.aliases) _ _ hlimit
    evictOldestAlias_lt _ _ (Nat.le_refl _)

/-- A place is vacated by dropping. -/
theorem vacate_shrunk (key : String) (value : Option SessionEntry) : Shrunk cache (cache.vacate key value) := by
  refine (eraseEntry_shrunk key).trans ?_
  unfold vacate
  split
  · exact Shrunk.refl _
  · split
    · exact Shrunk.refl _
    · refine Shrunk.trans ?_ (purge_shrunk _ _)
      exact ⟨by rw [unlinkKey_entries], by rw [unlinkKey_aliases]⟩

/-- An alias is given up by dropping. -/
theorem unalias_shrunk (fingerprint id : String) : Shrunk cache (cache.unalias fingerprint id) := by
  refine (eraseAlias_shrunk fingerprint).trans ?_
  unfold unalias
  split
  · exact Shrunk.refl _
  · split
    · exact Shrunk.refl _
    · exact ⟨by rw [unlinkFingerprint_entries], by rw [unlinkFingerprint_aliases]⟩

end Size

section Store

/-- Before a key's new value is stored its old value is gone, and its old session is purged unless
the new value keeps it. -/
theorem Linked.vacate (h : cache.Linked) (key : String) (value : Option SessionEntry) :
    ∃ ids, Purged ids { cache with entries := cache.entries.erase key } (cache.vacate key value) ∧
      ∀ previous, cache.valueOf key = some previous → previous.sdkSessionId ∉ ids →
        value.map SessionEntry.sdkSessionId = some previous.sdkSessionId := by
  have herased := h.loose.eraseEntry key
  unfold SessionCache.vacate
  cases hvalue : cache.valueOf key with
  | none => exact ⟨[], Purged.refl _, by simp⟩
  | some previous =>
    dsimp only
    by_cases hsame : some previous.sdkSessionId = value.map SessionEntry.sdkSessionId
    · rw [if_pos hsame]
      refine ⟨[], Purged.refl _, ?_⟩
      rintro _ ⟨⟩ -
      exact hsame.symm
    · rw [if_neg hsame]
      have hfree : valueOf { cache with entries := cache.entries.erase key } key = none := by
        simp [valueOf]
      refine ⟨[previous.sdkSessionId], herased.unlinkedPurge hfree _, ?_⟩
      rintro _ ⟨⟩ hkept
      exact absurd (List.mem_singleton_self _) hkept

/-- What making room for the key's new value purges. -/
theorem Linked.vacated (h : cache.Linked) (options : SessionCacheOptions) (key : String)
    (value : Option SessionEntry) : ∃ ids, Purged ids { cache with entries := cache.entries.erase key }
        ((cache.vacate key value).roomForEntry options) ∧
      ∀ previous, cache.valueOf key = some previous → previous.sdkSessionId ∉ ids →
        value.map SessionEntry.sdkSessionId = some previous.sdkSessionId := by
  obtain ⟨ids, hpurged, hprevious⟩ := h.vacate key value
  obtain ⟨more, hroom⟩ := (hpurged.loose (h.loose.eraseEntry key)).roomForEntry options
  refine ⟨ids ++ more, hpurged.trans hroom, ?_⟩
  intro previous hvalue hkept
  exact hprevious previous hvalue fun hmem => hkept (List.mem_append_left _ hmem)

section Stored

variable {ids : List String} {key : String} {entry : CacheEntry}

/-- Storing an entry leaves the aliases. -/
theorem storeEntry_aliases : (cache.storeEntry key entry).aliases = cache.aliases := by
  unfold storeEntry
  split <;> rfl

/-- What is found after an entry was stored. -/
theorem valueOf_storeEntry {name : String} {value : SessionEntry} :
    (cache.storeEntry key entry).valueOf name = some value ↔
      (name = key ∧ entry.value = some value) ∨ (name ≠ key ∧ cache.valueOf name = some value) := by
  rw [← valueOf_insertEntry]
  unfold storeEntry
  split <;> rfl

/-- The fingerprints of a group stay. -/
theorem fingerprints_storeEntry (id : String) :
    ((cache.storeEntry key entry).group id).fingerprints = (cache.group id).fingerprints := by
  unfold storeEntry
  split
  · rfl
  · rw [group_linkKey]
    split
    · next hid => rw [hid]; rfl
    · rfl

/-- The keys of a group after an entry was stored. -/
theorem mem_keys_storeEntry {id name : String} : name ∈ ((cache.storeEntry key entry).group id).keys ↔
      (name = key ∧ entry.value.map SessionEntry.sdkSessionId = some id) ∨ name ∈ (cache.group id).keys := by
  unfold storeEntry
  cases hvalue : entry.value with
  | none => simp [group]
  | some bound =>
    dsimp only
    rw [group_linkKey]
    by_cases hid : id = bound.sdkSessionId
    · subst hid
      rw [if_pos rfl, List.mem_insert_iff]
      simp [group]
    · rw [if_neg hid]
      have hne : ¬ bound.sdkSessionId = id := fun h => hid h.symm
      simp [group, hne]

/-- A stored value keeps the groups exact. -/
theorem Linked.storeEntry (h : cache.Linked)
    (hpurged : Purged ids { cache with entries := cache.entries.erase key } after)
    (hprevious : ∀ previous, cache.valueOf key = some previous → previous.sdkSessionId ∉ ids →
      entry.value.map SessionEntry.sdkSessionId = some previous.sdkSessionId) :
    (after.storeEntry key entry).Linked where
  key := by
    intro id name
    rw [mem_keys_storeEntry, hpurged.mem_keys]
    simp only [valueOf_storeEntry, hpurged.value, valueOf_eraseEntry]
    constructor
    · rintro (⟨rfl, hid⟩ | ⟨hmem, hkept⟩)
      · obtain ⟨value, hvalue, rfl⟩ := Option.map_eq_some_iff.mp hid
        exact ⟨value, .inl ⟨rfl, hvalue⟩, rfl⟩
      · obtain ⟨value, hvalue, rfl⟩ := h.key.mp hmem
        by_cases hname : name = key
        · subst hname
          obtain ⟨bound, hbound, hid⟩ := Option.map_eq_some_iff.mp (hprevious value hvalue hkept)
          exact ⟨bound, .inl ⟨rfl, hbound⟩, hid⟩
        · exact ⟨value, .inr ⟨hname, ⟨hname, hvalue⟩, hkept⟩, rfl⟩
    · rintro ⟨value, ⟨rfl, hvalue⟩ | ⟨_, ⟨_, hvalue⟩, hkept⟩, rfl⟩
      · exact .inl ⟨rfl, by rw [hvalue]; rfl⟩
      · exact .inr ⟨h.key.mpr ⟨value, hvalue, rfl⟩, hkept⟩
  fingerprint := by
    intro id fingerprint
    rw [fingerprints_storeEntry, storeEntry_aliases, hpurged.mem_fingerprints]
    simp only [hpurged.aliased]
    constructor
    · rintro ⟨hmem, hkept⟩
      obtain ⟨found, hfound, rfl⟩ := h.fingerprint.mp hmem
      exact ⟨found, ⟨hfound, hkept⟩, rfl⟩
    · rintro ⟨found, ⟨hfound, hkept⟩, rfl⟩
      exact ⟨h.fingerprint.mpr ⟨found, hfound, rfl⟩, hkept⟩

/-- A stored value leaves no alias without its binding. -/
theorem Pointed.storeEntry (h : cache.Pointed)
    (hpurged : Purged ids { cache with entries := cache.entries.erase key } after)
    (hprevious : ∀ previous, cache.valueOf key = some previous → previous.sdkSessionId ∉ ids →
      entry.value.map SessionEntry.sdkSessionId = some previous.sdkSessionId) :
    (after.storeEntry key entry).Pointed := by
  intro fingerprint found hfound
  rw [storeEntry_aliases] at hfound
  obtain ⟨hbefore, hkept⟩ := hpurged.aliased.mp hfound
  obtain ⟨value, hvalue, hid⟩ := h fingerprint found hbefore
  rw [← hid] at hkept
  simp only [valueOf_storeEntry, hpurged.value, valueOf_eraseEntry]
  by_cases hname : found.key = key
  · rw [hname] at hvalue
    obtain ⟨bound, hbound, hsame⟩ := Option.map_eq_some_iff.mp (hprevious value hvalue hkept)
    exact ⟨bound, .inl ⟨hname, hbound⟩, hsame.trans hid⟩
  · exact ⟨value, .inr ⟨hname, ⟨hname, hvalue⟩, hkept⟩, hid⟩

end Stored

end Store

end MultiAiRouter.ClaudeSdk.SessionCache
