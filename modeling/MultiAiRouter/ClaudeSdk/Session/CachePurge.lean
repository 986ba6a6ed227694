import MultiAiRouter.ClaudeSdk.Session.Cache

/-!
# What an eviction takes from the session cache

The groups of the third map list the names of each SDK session id. While they list no name of another session,
purging an id takes what names it and nothing else. Every eviction is such a purge.
-/

namespace MultiAiRouter.ClaudeSdk.SessionCache

open Common

variable {cache before after : SessionCache}

/-- Every name is listed with its session, and no group lists a name of another session. -/
structure Loose (cache : SessionCache) : Prop where
  entry : ∀ {key value}, cache.valueOf key = some value → key ∈ (cache.group value.sdkSessionId).keys
  key : ∀ {id key value}, key ∈ (cache.group id).keys → cache.valueOf key = some value → value.sdkSessionId = id
  aliased : ∀ {fingerprint found}, cache.aliases.lookup fingerprint = some found →
    fingerprint ∈ (cache.group found.sdkSessionId).fingerprints
  fingerprint : ∀ {id fingerprint found}, fingerprint ∈ (cache.group id).fingerprints →
    cache.aliases.lookup fingerprint = some found → found.sdkSessionId = id

/-- The groups list exactly the names of their session. -/
structure Linked (cache : SessionCache) : Prop where
  key : ∀ {id key}, key ∈ (cache.group id).keys ↔ ∃ value, cache.valueOf key = some value ∧ value.sdkSessionId = id
  fingerprint : ∀ {id fingerprint}, fingerprint ∈ (cache.group id).fingerprints ↔
    ∃ found, cache.aliases.lookup fingerprint = some found ∧ found.sdkSessionId = id

/-- A linked cache is loose. -/
theorem Linked.loose (h : cache.Linked) : cache.Loose where
  entry hvalue := h.key.mpr ⟨_, hvalue, rfl⟩
  key hmem hvalue := by
    obtain ⟨value, hfound, hid⟩ := h.key.mp hmem
    obtain rfl := Option.some.inj (hvalue.symm.trans hfound)
    exact hid
  aliased hfound := h.fingerprint.mpr ⟨_, hfound, rfl⟩
  fingerprint hmem hfound := by
    obtain ⟨found, hlookup, hid⟩ := h.fingerprint.mp hmem
    obtain rfl := Option.some.inj (hfound.symm.trans hlookup)
    exact hid

/-- Everything that names one of the ids is gone, and everything else is as it was. -/
structure Purged (ids : List String) (before after : SessionCache) : Prop where
  value : ∀ {key value}, after.valueOf key = some value ↔ before.valueOf key = some value ∧ value.sdkSessionId ∉ ids
  aliased : ∀ {fingerprint found}, after.aliases.lookup fingerprint = some found ↔
    before.aliases.lookup fingerprint = some found ∧ found.sdkSessionId ∉ ids
  group : ∀ id, after.group id = if id ∈ ids then {} else before.group id

theorem Purged.refl (cache : SessionCache) : Purged [] cache cache where
  value := by simp
  aliased := by simp
  group := by simp

/-- Two purges purge the ids of both. -/
theorem Purged.trans {first second : List String} {middle : SessionCache} (h : Purged first before middle)
    (h' : Purged second middle after) : Purged (first ++ second) before after where
  value := by
    intro key value
    rw [h'.value, h.value, List.mem_append, not_or]
    tauto
  aliased := by
    intro fingerprint found
    rw [h'.aliased, h.aliased, List.mem_append, not_or]
    tauto
  group id := by
    rw [h'.group, h.group]
    by_cases hfirst : id ∈ first <;> by_cases hsecond : id ∈ second <;> simp [hfirst, hsecond]

/-- A name of a session that was purged is in no group of it. -/
theorem Purged.mem_keys {ids : List String} (h : Purged ids before after) {id key : String} :
    key ∈ (after.group id).keys ↔ key ∈ (before.group id).keys ∧ id ∉ ids := by
  rw [h.group]
  split <;> simp_all

theorem Purged.mem_fingerprints {ids : List String} (h : Purged ids before after) {id fingerprint : String} :
    fingerprint ∈ (after.group id).fingerprints ↔ fingerprint ∈ (before.group id).fingerprints ∧ id ∉ ids := by
  rw [h.group]
  split <;> simp_all

/-- A purge lists no name of another session. -/
theorem Purged.loose {ids : List String} (h : Purged ids before after) (hloose : before.Loose) :
    after.Loose where
  entry hvalue := by
    obtain ⟨hbefore, hkept⟩ := h.value.mp hvalue
    exact h.mem_keys.mpr ⟨hloose.entry hbefore, hkept⟩
  key hmem hvalue := hloose.key (h.mem_keys.mp hmem).1 (h.value.mp hvalue).1
  aliased hfound := by
    obtain ⟨hbefore, hkept⟩ := h.aliased.mp hfound
    exact h.mem_fingerprints.mpr ⟨hloose.aliased hbefore, hkept⟩
  fingerprint hmem hfound := hloose.fingerprint (h.mem_fingerprints.mp hmem).1 (h.aliased.mp hfound).1

/-- A purge keeps the groups exact. -/
theorem Purged.linked {ids : List String} (h : Purged ids before after) (hlinked : before.Linked) :
    after.Linked where
  key := by
    intro id key
    rw [h.mem_keys, hlinked.key]
    simp only [h.value]
    constructor
    · rintro ⟨⟨value, hvalue, rfl⟩, hkept⟩
      exact ⟨value, ⟨hvalue, hkept⟩, rfl⟩
    · rintro ⟨value, ⟨hvalue, hkept⟩, rfl⟩
      exact ⟨⟨value, hvalue, rfl⟩, hkept⟩
  fingerprint := by
    intro id fingerprint
    rw [h.mem_fingerprints, hlinked.fingerprint]
    simp only [h.aliased]
    constructor
    · rintro ⟨⟨found, hfound, rfl⟩, hkept⟩
      exact ⟨found, ⟨hfound, hkept⟩, rfl⟩
    · rintro ⟨found, ⟨hfound, hkept⟩, rfl⟩
      exact ⟨⟨found, hfound, rfl⟩, hkept⟩

section Names

/-- The binding of a key after an entry left. -/
theorem valueOf_eraseEntry {key name : String} {value : SessionEntry} :
    valueOf { cache with entries := cache.entries.erase name } key = some value ↔
      key ≠ name ∧ cache.valueOf key = some value := by
  simp only [valueOf, Option.bind_eq_some_iff, lookup_erase_eq_some]
  constructor
  · rintro ⟨entry, ⟨hne, hentry⟩, hvalue⟩
    exact ⟨hne, entry, hentry, hvalue⟩
  · rintro ⟨hne, entry, hentry, hvalue⟩
    exact ⟨entry, ⟨hne, hentry⟩, hvalue⟩

/-- The binding of a key after an entry was stored. -/
theorem valueOf_insertEntry {key name : String} {entry : CacheEntry} {value : SessionEntry} :
    valueOf { cache with entries := cache.entries.insert name entry } key = some value ↔
      (key = name ∧ entry.value = some value) ∨ (key ≠ name ∧ cache.valueOf key = some value) := by
  simp only [valueOf, Option.bind_eq_some_iff, lookup_insert_eq_some]
  constructor
  · rintro ⟨found, ⟨rfl, rfl⟩ | ⟨hne, hfound⟩, hvalue⟩
    · exact .inl ⟨rfl, hvalue⟩
    · exact .inr ⟨hne, found, hfound, hvalue⟩
  · rintro (⟨rfl, hvalue⟩ | ⟨hne, found, hfound, hvalue⟩)
    · exact ⟨entry, .inl ⟨rfl, rfl⟩, hvalue⟩
    · exact ⟨found, .inr ⟨hne, hfound⟩, hvalue⟩

/-- The group of an id after another group was written. -/
theorem group_insertNamed (id other : String) (named : Named) :
    group { cache with named := cache.named.insert other named } id =
      if id = other then named else cache.group id := by
  by_cases h : id = other
  · subst h
    simp [group]
  · rw [if_neg h, group, AList.lookup_insert_ne h, group]

/-- The group of an id after a group was dropped. -/
theorem group_eraseNamed (id other : String) : group { cache with named := cache.named.erase other } id =
      if id = other then {} else cache.group id := by
  by_cases h : id = other
  · subst h
    simp [group]
  · rw [if_neg h, group, AList.lookup_erase_ne h, group]

/-- The groups after one of them was written again, or dropped for being empty. -/
theorem group_regroup (id other : String) (named : Named) :
    (cache.regroup other named).group id = if id = other then named else cache.group id := by
  unfold regroup
  split
  · next hempty =>
    rw [group_eraseNamed]
    split
    · obtain ⟨keys, fingerprints⟩ := named
      simp only at hempty
      rw [hempty.1, hempty.2]
    · rfl
  · exact group_insertNamed id other named

/-- An unlinked key leaves the group of the id. -/
theorem group_unlinkKey (other id key : String) : (cache.unlinkKey id key).group other =
      if other = id then { cache.group id with keys := (cache.group id).keys.filter (· ≠ key) }
      else cache.group other := by
  unfold unlinkKey
  split
  · next hnone =>
    have hempty : cache.group id = {} := by rw [group, hnone, Option.getD_none]
    split
    · next hother => rw [hother, hempty]; rfl
    · rfl
  · next named hsome =>
    rw [group_regroup]
    split
    · rw [show cache.group id = named by rw [group, hsome, Option.getD_some]]
    · rfl

/-- An unlinked fingerprint leaves the group of the id. -/
theorem group_unlinkFingerprint (other id fingerprint : String) :
    (cache.unlinkFingerprint id fingerprint).group other =
      if other = id then
        { cache.group id with fingerprints := (cache.group id).fingerprints.filter (· ≠ fingerprint) }
      else cache.group other := by
  unfold unlinkFingerprint
  split
  · next hnone =>
    have hempty : cache.group id = {} := by rw [group, hnone, Option.getD_none]
    split
    · next hother => rw [hother, hempty]; rfl
    · rfl
  · next named hsome =>
    rw [group_regroup]
    split
    · rw [show cache.group id = named by rw [group, hsome, Option.getD_some]]
    · rfl

theorem regroup_entries (id : String) (named : Named) : (cache.regroup id named).entries = cache.entries := by
  unfold regroup
  split <;> rfl

theorem regroup_aliases (id : String) (named : Named) : (cache.regroup id named).aliases = cache.aliases := by
  unfold regroup
  split <;> rfl

@[simp] theorem unlinkKey_entries (id key : String) : (cache.unlinkKey id key).entries = cache.entries := by
  unfold unlinkKey
  split
  · rfl
  · exact regroup_entries _ _

@[simp] theorem unlinkKey_aliases (id key : String) : (cache.unlinkKey id key).aliases = cache.aliases := by
  unfold unlinkKey
  split
  · rfl
  · exact regroup_aliases _ _

@[simp] theorem unlinkFingerprint_entries (id fingerprint : String) :
    (cache.unlinkFingerprint id fingerprint).entries = cache.entries := by
  unfold unlinkFingerprint
  split
  · rfl
  · exact regroup_entries _ _

@[simp] theorem unlinkFingerprint_aliases (id fingerprint : String) :
    (cache.unlinkFingerprint id fingerprint).aliases = cache.aliases := by
  unfold unlinkFingerprint
  split
  · rfl
  · exact regroup_aliases _ _

/-- The group of an id after a key was linked to another. -/
theorem group_linkKey (other id key : String) : (cache.linkKey id key).group other =
      if other = id then { cache.group id with keys := (cache.group id).keys.insert key }
      else cache.group other :=
  group_insertNamed other id _

/-- The group of an id after a fingerprint was linked to another. -/
theorem group_linkFingerprint (other id fingerprint : String) : (cache.linkFingerprint id fingerprint).group other =
      if other = id then
        { cache.group id with fingerprints := (cache.group id).fingerprints.insert fingerprint }
      else cache.group other :=
  group_insertNamed other id _

end Names

/-- An entry that left takes no listed name with it. -/
theorem Loose.eraseEntry (h : cache.Loose) (name : String) :
    Loose { cache with entries := cache.entries.erase name } where
  entry hvalue := h.entry (valueOf_eraseEntry.mp hvalue).2
  key hmem hvalue := h.key hmem (valueOf_eraseEntry.mp hvalue).2
  aliased := h.aliased
  fingerprint := h.fingerprint

/-- An alias that left takes no listed name with it. -/
theorem Loose.eraseAlias (h : cache.Loose) (name : String) :
    Loose { cache with aliases := cache.aliases.erase name } where
  entry := h.entry
  key := h.key
  aliased hfound := h.aliased (lookup_erase_eq_some.mp hfound).2
  fingerprint hmem hfound := h.fingerprint hmem (lookup_erase_eq_some.mp hfound).2

/-- Purging an id takes everything that names it, and nothing else. -/
theorem Loose.purge (h : cache.Loose) (id : String) : Purged [id] cache (cache.purge id) := by
  unfold SessionCache.purge
  split
  · next hnone =>
    have hempty : cache.group id = {} := by rw [group, hnone, Option.getD_none]
    refine ⟨?_, ?_, ?_⟩
    · intro key value
      refine ⟨fun hvalue => ⟨hvalue, ?_⟩, And.left⟩
      rintro hid
      have hmem := h.entry hvalue
      rw [List.mem_singleton.mp hid, hempty] at hmem
      exact absurd hmem List.not_mem_nil
    · intro fingerprint found
      refine ⟨fun hfound => ⟨hfound, ?_⟩, And.left⟩
      rintro hid
      have hmem := h.aliased hfound
      rw [List.mem_singleton.mp hid, hempty] at hmem
      exact absurd hmem List.not_mem_nil
    · intro other
      by_cases hother : other = id
      · simp [hother, hempty]
      · simp [hother]
  · next group hsome =>
    have hgroup : cache.group id = group := by rw [SessionCache.group, hsome, Option.getD_some]
    refine ⟨?_, ?_, ?_⟩
    · intro key value
      have hnamed (hvalue : cache.valueOf key = some value) : key ∈ group.keys ↔ value.sdkSessionId = id := by
        rw [← hgroup]
        exact ⟨fun hmem => h.key hmem hvalue, fun hid => hid ▸ h.entry hvalue⟩
      rw [List.mem_singleton]
      constructor
      · intro hvalue
        obtain ⟨entry, hentry, hbound⟩ := Option.bind_eq_some_iff.mp hvalue
        obtain ⟨hkept, hlookup⟩ := lookup_eraseNames_eq_some.mp hentry
        have hbefore : cache.valueOf key = some value := by rw [valueOf, hlookup]; exact hbound
        exact ⟨hbefore, fun hid => hkept ((hnamed hbefore).mpr hid)⟩
      · rintro ⟨hvalue, hid⟩
        obtain ⟨entry, hentry, hbound⟩ := Option.bind_eq_some_iff.mp hvalue
        have hkept := lookup_eraseNames_eq_some.mpr ⟨fun hmem => hid ((hnamed hvalue).mp hmem), hentry⟩
        rw [valueOf, hkept]
        exact hbound
    · intro fingerprint found
      have hnamed (hfound : cache.aliases.lookup fingerprint = some found) :
          fingerprint ∈ group.fingerprints ↔ found.sdkSessionId = id := by
        rw [← hgroup]
        exact ⟨fun hmem => h.fingerprint hmem hfound, fun hid => hid ▸ h.aliased hfound⟩
      rw [lookup_eraseNames_eq_some, List.mem_singleton]
      constructor
      · rintro ⟨hkept, hfound⟩
        exact ⟨hfound, fun hid => hkept ((hnamed hfound).mpr hid)⟩
      · rintro ⟨hfound, hid⟩
        exact ⟨fun hmem => hid ((hnamed hfound).mp hmem), hfound⟩
    · intro other
      simp only [List.mem_singleton]
      exact group_eraseNamed other id

/-- Unlinking a key that holds no binding before the purge of its id changes nothing of the purge. -/
theorem Loose.unlinkedPurge (h : cache.Loose) {key : String} (hfree : cache.valueOf key = none)
    (id : String) : Purged [id] cache ((cache.unlinkKey id key).purge id) := by
  have hvalueOf (other : String) : (cache.unlinkKey id key).valueOf other = cache.valueOf other := by
    rw [valueOf, unlinkKey_entries, valueOf]
  have hkeys (other name : String) (hname : name ≠ key) :
      name ∈ ((cache.unlinkKey id key).group other).keys ↔ name ∈ (cache.group other).keys := by
    rw [group_unlinkKey]
    split
    · next hother => simp [hother, hname]
    · rfl
  have hfingerprints (other : String) :
      ((cache.unlinkKey id key).group other).fingerprints = (cache.group other).fingerprints := by
    rw [group_unlinkKey]
    split
    · next hother => rw [hother]
    · rfl
  have hloose : (cache.unlinkKey id key).Loose := by
    have hne {name : String} {value : SessionEntry} (hvalue : cache.valueOf name = some value) : name ≠ key := by
      rintro rfl
      rw [hfree] at hvalue
      exact absurd hvalue (by simp)
    refine ⟨?_, ?_, ?_, ?_⟩
    · intro name value hvalue
      rw [hvalueOf] at hvalue
      exact (hkeys _ _ (hne hvalue)).mpr (h.entry hvalue)
    · intro other name value hmem hvalue
      rw [hvalueOf] at hvalue
      exact h.key ((hkeys _ _ (hne hvalue)).mp hmem) hvalue
    · intro fingerprint found hfound
      rw [unlinkKey_aliases] at hfound
      rw [hfingerprints]
      exact h.aliased hfound
    · intro other fingerprint found hmem hfound
      rw [unlinkKey_aliases] at hfound
      rw [hfingerprints] at hmem
      exact h.fingerprint hmem hfound
  have hpurged := hloose.purge id
  refine ⟨?_, ?_, ?_⟩
  · intro name value
    rw [hpurged.value, hvalueOf]
  · intro fingerprint found
    rw [hpurged.aliased, unlinkKey_aliases]
  · intro other
    rw [hpurged.group]
    split
    · rfl
    · next hother =>
      rw [group_unlinkKey, if_neg (by simpa using hother)]

/-- The ids an entry takes with it when it leaves. -/
def idsOf (value : Option SessionEntry) : List String :=
  (value.map SessionEntry.sdkSessionId).toList

/-- An entry that leaves purges the session it was bound to. -/
theorem Loose.removeEntry (h : cache.Loose) (key : String) :
    Purged (idsOf (cache.valueOf key)) cache (cache.removeEntry key) := by
  have hloose := h.eraseEntry key
  unfold SessionCache.removeEntry
  cases hvalue : cache.valueOf key with
  | none =>
    refine ⟨?_, by simp [idsOf], by simp [idsOf, group]⟩
    intro other value
    rw [valueOf_eraseEntry]
    simp only [idsOf, Option.map_none, Option.toList_none, List.not_mem_nil, not_false_eq_true, and_true]
    refine ⟨And.right, fun hother => ⟨?_, hother⟩⟩
    rintro rfl
    rw [hvalue] at hother
    exact absurd hother (by simp)
  | some bound =>
    have hpurged := hloose.purge bound.sdkSessionId
    refine ⟨?_, hpurged.aliased, hpurged.group⟩
    intro other value
    rw [hpurged.value, valueOf_eraseEntry]
    simp only [idsOf, Option.map_some, Option.toList_some, List.mem_singleton]
    refine ⟨fun ⟨⟨_, hother⟩, hid⟩ => ⟨hother, hid⟩, fun ⟨hother, hid⟩ => ⟨⟨?_, hother⟩, hid⟩⟩
    rintro rfl
    rw [hvalue] at hother
    exact hid (congrArg SessionEntry.sdkSessionId (Option.some.inj hother)).symm

/-- An alias that leaves purges the session it names. -/
theorem Loose.removeAlias (h : cache.Loose) {fingerprint : String} {found : CacheAlias}
    (hfound : cache.aliases.lookup fingerprint = some found) :
    Purged [found.sdkSessionId] cache (cache.removeAlias fingerprint) := by
  have hpurged := (h.eraseAlias fingerprint).purge found.sdkSessionId
  unfold SessionCache.removeAlias
  rw [hfound]
  refine ⟨hpurged.value, ?_, hpurged.group⟩
  intro other named
  rw [hpurged.aliased, lookup_erase_eq_some, List.mem_singleton]
  refine ⟨fun ⟨⟨_, hother⟩, hid⟩ => ⟨hother, hid⟩, fun ⟨hother, hid⟩ => ⟨⟨?_, hother⟩, hid⟩⟩
  rintro rfl
  rw [hfound] at hother
  exact hid (congrArg CacheAlias.sdkSessionId (Option.some.inj hother)).symm

/-- An eviction of an entry purges. -/
theorem Loose.evictOldestEntry (h : cache.Loose) : ∃ ids, Purged ids cache cache.evictOldestEntry := by
  unfold SessionCache.evictOldestEntry
  split
  · exact ⟨[], Purged.refl cache⟩
  · exact ⟨_, h.removeEntry _⟩

/-- Making room for an entry purges. -/
theorem Loose.roomForEntry (h : cache.Loose) (options : SessionCacheOptions) :
    ∃ ids, Purged ids cache (cache.roomForEntry options) := by
  have hinvariant := @evictDown_invariant _ (fun cache : SessionCache => mapSize cache.entries)
    SessionCache.evictOldestEntry options.maxEntries
    (fun state => ∃ ids, Purged ids cache state)
  refine hinvariant ?_ _ _ ⟨[], Purged.refl cache⟩
  rintro state ⟨ids, hpurged⟩
  obtain ⟨more, hevicted⟩ := (hpurged.loose h).evictOldestEntry
  exact ⟨_, hpurged.trans hevicted⟩

/-- An eviction of an alias purges the session it names. -/
theorem Loose.evictOldestAlias (h : cache.Loose) :
    Purged (((oldestName cache.aliases).bind cache.aliases.lookup).map CacheAlias.sdkSessionId).toList
      cache cache.evictOldestAlias := by
  unfold SessionCache.evictOldestAlias
  cases holdest : oldestName cache.aliases with
  | none => exact Purged.refl cache
  | some fingerprint =>
    have hmem := oldestName_mem holdest
    obtain ⟨found, hfound⟩ := Option.isSome_iff_exists.mp (AList.lookup_isSome.mpr hmem)
    have hpurged := h.removeAlias hfound
    simpa only [Option.bind_some, hfound, Option.map_some, Option.toList_some] using hpurged

/-- Making room for an alias purges. -/
theorem Loose.roomForAlias (h : cache.Loose) (options : SessionCacheOptions) :
    ∃ ids, Purged ids cache (cache.roomForAlias options) := by
  have hinvariant := @evictDown_invariant _ (fun cache : SessionCache => mapSize cache.aliases)
    SessionCache.evictOldestAlias options.maxEntries
    (fun state => ∃ ids, Purged ids cache state)
  refine hinvariant ?_ _ _ ⟨[], Purged.refl cache⟩
  rintro state ⟨ids, hpurged⟩
  exact ⟨_, hpurged.trans (hpurged.loose h).evictOldestAlias⟩

end MultiAiRouter.ClaudeSdk.SessionCache
