import MultiAiRouter.ClaudeSdk.Session.CacheEviction

/-!
# Runs of the session cache

Along every run of calls, with any clock, the groups stay exact and both maps stay within their
bound.
-/

namespace MultiAiRouter.ClaudeSdk.SessionCache

open Common

variable {options : SessionCacheOptions} {cache after : SessionCache}

section Aliases

variable {ids : List String} {fingerprint : String} {found : CacheAlias}

theorem valueOf_storeAlias (key : String) :
    (cache.storeAlias fingerprint found).valueOf key = cache.valueOf key := rfl

theorem keys_storeAlias (id : String) :
    ((cache.storeAlias fingerprint found).group id).keys = (cache.group id).keys := by
  unfold storeAlias
  rw [group_linkFingerprint]
  split
  · next hid => rw [hid]; rfl
  · rfl

/-- An alias adds its name to its session's group. -/
theorem mem_fingerprints_storeAlias {id name : String} :
    name ∈ ((cache.storeAlias fingerprint found).group id).fingerprints ↔
      (name = fingerprint ∧ found.sdkSessionId = id) ∨ name ∈ (cache.group id).fingerprints := by
  unfold storeAlias
  rw [group_linkFingerprint]
  by_cases hid : id = found.sdkSessionId
  · subst hid
    rw [if_pos rfl, List.mem_insert_iff]
    simp [group]
  · rw [if_neg hid]
    have hne : ¬ found.sdkSessionId = id := fun h => hid h.symm
    simp [group, hne]

theorem lookup_storeAlias {name : String} {other : CacheAlias} :
    (cache.storeAlias fingerprint found).aliases.lookup name = some other ↔ (name = fingerprint ∧ found = other) ∨
        (name ≠ fingerprint ∧ cache.aliases.lookup name = some other) :=
  lookup_insert_eq_some

@[simp] theorem unalias_entries (id : String) : (cache.unalias fingerprint id).entries = cache.entries := by
  unfold unalias
  split
  · rfl
  · split
    · rfl
    · exact unlinkFingerprint_entries _ _

@[simp] theorem unalias_aliases (id : String) :
    (cache.unalias fingerprint id).aliases = cache.aliases.erase fingerprint := by
  unfold unalias
  split
  · rfl
  · split
    · rfl
    · exact unlinkFingerprint_aliases _ _

@[simp] theorem valueOf_unalias (id key : String) :
    (cache.unalias fingerprint id).valueOf key = cache.valueOf key := by
  rw [valueOf, unalias_entries, valueOf]

/-- Forgetting a fingerprint's alias leaves the keys of every group. -/
theorem keys_unalias (id other : String) :
    ((cache.unalias fingerprint id).group other).keys = (cache.group other).keys := by
  unfold unalias
  split
  · rfl
  · split
    · rfl
    · rw [group_unlinkFingerprint]
      split
      · next hother => rw [hother]; rfl
      · rfl

/-- A forgotten fingerprint is still listed with the session it is about to name only. -/
theorem Linked.mem_fingerprints_unalias (h : cache.Linked) {id other name : String} :
    name ∈ ((cache.unalias fingerprint id).group other).fingerprints ↔
      name ∈ (cache.group other).fingerprints ∧ (name = fingerprint → other = id) := by
  have hlisted := @Linked.fingerprint cache h other name
  unfold unalias
  split
  · next hnone =>
    refine ⟨fun hmem => ⟨hmem, ?_⟩, And.left⟩
    rintro rfl
    obtain ⟨found, hfound, -⟩ := hlisted.mp hmem
    rw [hnone] at hfound
    exact absurd hfound (by simp)
  · next previous hprevious =>
    have hname (hmem : name ∈ (cache.group other).fingerprints) (heq : name = fingerprint) :
        other = previous.sdkSessionId := by
      subst heq
      obtain ⟨found, hfound, hid⟩ := hlisted.mp hmem
      rw [hprevious] at hfound
      rw [← hid, Option.some.inj hfound]
    split
    · next hsame => exact ⟨fun hmem => ⟨hmem, fun heq => (hname hmem heq).trans hsame⟩, And.left⟩
    · next hother =>
      rw [group_unlinkFingerprint]
      split
      · next hprev =>
        subst hprev
        simp only [List.mem_filter, decide_eq_true_eq]
        refine ⟨fun ⟨hmem, hne⟩ => ⟨hmem, fun heq => absurd heq hne⟩, fun ⟨hmem, hid⟩ => ⟨hmem, ?_⟩⟩
        exact fun heq => hother (hid heq)
      · next hprev =>
        exact ⟨fun hmem => ⟨hmem, fun heq => absurd (hname hmem heq) hprev⟩, And.left⟩

/-- With a fingerprint forgotten the groups list no name of another session. -/
theorem Linked.unalias (h : cache.Linked) (fingerprint id : String) :
    (cache.unalias fingerprint id).Loose where
  entry := by
    intro key value hvalue
    rw [valueOf_unalias] at hvalue
    rw [keys_unalias]
    exact h.loose.entry hvalue
  key := by
    intro other key value hmem hvalue
    rw [valueOf_unalias] at hvalue
    rw [keys_unalias] at hmem
    exact h.loose.key hmem hvalue
  aliased := by
    intro name found hfound
    rw [unalias_aliases, lookup_erase_eq_some] at hfound
    exact h.mem_fingerprints_unalias.mpr ⟨h.loose.aliased hfound.2, fun heq => absurd heq hfound.1⟩
  fingerprint := by
    intro other name found hmem hfound
    rw [unalias_aliases, lookup_erase_eq_some] at hfound
    exact h.loose.fingerprint (h.mem_fingerprints_unalias.mp hmem).1 hfound.2

/-- A stored alias keeps the groups exact. -/
theorem Linked.storeAlias (h : cache.Linked)
    (hpurged : Purged ids (cache.unalias fingerprint found.sdkSessionId) after) :
    (after.storeAlias fingerprint found).Linked where
  key := by
    intro id key
    rw [keys_storeAlias, hpurged.mem_keys, keys_unalias, h.key]
    simp only [valueOf_storeAlias, hpurged.value, valueOf_unalias]
    constructor
    · rintro ⟨⟨value, hvalue, rfl⟩, hkept⟩
      exact ⟨value, ⟨hvalue, hkept⟩, rfl⟩
    · rintro ⟨value, ⟨hvalue, hkept⟩, rfl⟩
      exact ⟨⟨value, hvalue, rfl⟩, hkept⟩
  fingerprint := by
    intro id name
    rw [mem_fingerprints_storeAlias, hpurged.mem_fingerprints, h.mem_fingerprints_unalias]
    simp only [lookup_storeAlias, hpurged.aliased, unalias_aliases, lookup_erase_eq_some]
    constructor
    · rintro (⟨rfl, rfl⟩ | ⟨⟨hmem, hid⟩, hkept⟩)
      · exact ⟨found, .inl ⟨rfl, rfl⟩, rfl⟩
      · by_cases hname : name = fingerprint
        · exact ⟨found, .inl ⟨hname, rfl⟩, (hid hname).symm⟩
        · obtain ⟨other, hother, rfl⟩ := h.fingerprint.mp hmem
          exact ⟨other, .inr ⟨hname, ⟨hname, hother⟩, hkept⟩, rfl⟩
    · rintro ⟨other, ⟨rfl, rfl⟩ | ⟨hname, ⟨_, hother⟩, hkept⟩, rfl⟩
      · exact .inl ⟨rfl, rfl⟩
      · exact .inr ⟨⟨h.fingerprint.mpr ⟨other, hother, rfl⟩, fun heq => absurd heq hname⟩, hkept⟩

/-- A stored alias whose session was not purged on the way leaves no alias without its binding. -/
theorem Pointed.storeAlias (h : cache.Pointed) {target : SessionEntry}
    (hpurged : Purged ids (cache.unalias fingerprint found.sdkSessionId) after)
    (htarget : cache.valueOf found.key = some target) (hid : target.sdkSessionId = found.sdkSessionId)
    (hkept : found.sdkSessionId ∉ ids) : (after.storeAlias fingerprint found).Pointed := by
  intro name other hother
  simp only [valueOf_storeAlias, hpurged.value, valueOf_unalias]
  rcases lookup_storeAlias.mp hother with ⟨-, rfl⟩ | ⟨-, hlookup⟩
  · exact ⟨target, ⟨htarget, hid ▸ hkept⟩, hid⟩
  · obtain ⟨hbefore, hothers⟩ := hpurged.aliased.mp hlookup
    rw [unalias_aliases, lookup_erase_eq_some] at hbefore
    obtain ⟨value, hvalue, hsame⟩ := h name other hbefore.2
    exact ⟨value, ⟨hvalue, hsame ▸ hothers⟩, hsame⟩

end Aliases

section Calls

/-- Reading a key purges, and leaves both maps no larger. -/
theorem Loose.get (h : cache.Loose) (key : String) (now : ℤ) :
    (∃ ids, Purged ids cache (cache.get key now).2) ∧ Shrunk cache (cache.get key now).2 := by
  unfold SessionCache.get
  cases hlookup : cache.entries.lookup key with
  | none => exact ⟨⟨[], Purged.refl cache⟩, Shrunk.refl cache⟩
  | some entry =>
    dsimp only
    split
    · exact ⟨⟨_, h.removeEntry key⟩, (eraseEntry_shrunk key).trans (removeEntry_shrunk key)⟩
    · refine ⟨⟨[], ?_, by simp, by simp [group]⟩, Nat.le_of_eq ?_, Nat.le_refl _⟩
      · intro name value
        rw [valueOf_insertEntry]
        by_cases hname : name = key
        · subst hname
          simp [valueOf, hlookup]
        · simp [hname]
      · exact mapSize_insert_of_mem _ (AList.lookup_isSome.mp (by rw [hlookup]; rfl))

/-- Reading a fingerprint purges, and leaves both maps no larger. -/
theorem Loose.readAlias (h : cache.Loose) (fingerprint : String) (now : ℤ) :
    (∃ ids, Purged ids cache (cache.aliased fingerprint now).2) ∧
      Shrunk cache (cache.aliased fingerprint now).2 := by
  unfold SessionCache.aliased
  cases hlookup : cache.aliases.lookup fingerprint with
  | none => exact ⟨⟨[], Purged.refl cache⟩, Shrunk.refl cache⟩
  | some found =>
    dsimp only
    split
    · exact ⟨⟨_, h.removeAlias hlookup⟩, (eraseAlias_shrunk fingerprint).trans (removeAlias_shrunk fingerprint)⟩
    · refine ⟨⟨[], by simp [valueOf], ?_, by simp [group]⟩, Nat.le_refl _, Nat.le_of_eq ?_⟩
      · intro name other
        rw [lookup_insert_eq_some]
        by_cases hname : name = fingerprint
        · subst hname
          simp [hlookup]
        · simp [hname]
      · exact mapSize_insert_of_mem _ (AList.lookup_isSome.mp (by rw [hlookup]; rfl))

/-- Dropping an account purges, and leaves both maps no larger. -/
theorem Loose.dropAccount (h : cache.Loose) (accountId : String) :
    (∃ ids, Purged ids cache (cache.dropAccount accountId)) ∧ Shrunk cache (cache.dropAccount accountId) := by
  unfold SessionCache.dropAccount
  refine List.foldlRecOn (motive := fun kept : SessionCache =>
    (∃ ids, Purged ids cache kept) ∧ Shrunk cache kept) _ _ ⟨⟨[], Purged.refl cache⟩, Shrunk.refl cache⟩ ?_
  rintro kept ⟨⟨ids, hpurged⟩, hshrunk⟩ entry -
  split
  · split
    · exact ⟨⟨_, hpurged.trans ((hpurged.loose h).purge _)⟩, hshrunk.trans (purge_shrunk _ _)⟩
    · exact ⟨⟨ids, hpurged⟩, hshrunk⟩
  · exact ⟨⟨ids, hpurged⟩, hshrunk⟩

/-- A call that neither stores a value nor an alias purges, and leaves both maps no larger. -/
theorem Loose.purges (h : cache.Loose) (options : SessionCacheOptions) (timed : TimedCall)
    (hset : ∀ key value, timed.call ≠ .set key value)
    (halias : ∀ fingerprint key, timed.call ≠ .setAlias fingerprint key) :
    (∃ ids, Purged ids cache (cache.step options timed)) ∧ Shrunk cache (cache.step options timed) := by
  unfold SessionCache.step
  cases hcall : timed.call with
  | get key => exact h.get key timed.now
  | set key value => exact absurd hcall (hset key value)
  | drop key => exact ⟨⟨_, h.removeEntry key⟩, (eraseEntry_shrunk key).trans (removeEntry_shrunk key)⟩
  | dropAccount accountId => exact h.dropAccount accountId
  | setAlias fingerprint key => exact absurd hcall (halias fingerprint key)
  | aliased fingerprint => exact h.readAlias fingerprint timed.now
  | forget id => exact ⟨⟨_, h.purge id⟩, purge_shrunk cache id⟩

/-- Storing a value keeps the groups exact and every alias at its binding. -/
theorem Linked.set (h : cache.Linked) (key : String) (value : Option SessionEntry) (now : ℤ) :
    (cache.set options key value now).Linked := by
  obtain ⟨ids, hpurged, hprevious⟩ := h.vacated options key value
  exact h.storeEntry hpurged hprevious

/-- Storing a key keeps every alias pointed. -/
theorem Pointed.set (hpointed : cache.Pointed) (h : cache.Linked) (key : String)
    (value : Option SessionEntry) (now : ℤ) : (cache.set options key value now).Pointed := by
  obtain ⟨ids, hpurged, hprevious⟩ := h.vacated options key value
  exact hpointed.storeEntry hpurged hprevious

/-- Storing a value stays within the bound. -/
theorem Bounded.set (h : Bounded options cache) (hlimit : 0 < options.maxEntries) (key : String)
    (value : Option SessionEntry) (now : ℤ) : Bounded options (cache.set options key value now) := by
  have hroom := @roomForEntry_lt _ (cache.vacate key value) hlimit
  have hshrunk := (@vacate_shrunk cache key value).trans (roomForEntry_shrunk (cache.vacate key value) options)
  unfold SessionCache.set
  refine ⟨?_, ?_⟩
  · have hentries : ∀ entry, mapSize (((cache.vacate key value).roomForEntry options).storeEntry key
        entry).entries ≤ options.maxEntries := by
      intro entry
      have hinsert : mapSize (((cache.vacate key value).roomForEntry options).entries.insert key entry) ≤
          options.maxEntries := by
        rw [mapSize_insert]
        exact Nat.le_trans (Nat.succ_le_succ mapSize_erase_le) hroom
      unfold SessionCache.storeEntry
      split <;> exact hinsert
    exact hentries _
  · dsimp only
    rw [storeEntry_aliases]
    exact Nat.le_trans hshrunk.2 h.2

/-- Pointing a fingerprint at a key keeps the groups exact. -/
theorem Linked.setAlias (h : cache.Linked) (fingerprint key : String) (now : ℤ) :
    (cache.setAlias options fingerprint key now).Linked := by
  unfold SessionCache.setAlias
  split
  · exact h
  · next target htarget =>
    obtain ⟨ids, hpurged⟩ := (h.unalias fingerprint target.sdkSessionId).roomForAlias options
    exact h.storeAlias hpurged

/-- Pointing a fingerprint at a key stays within the bound. -/
theorem Bounded.setAlias (h : Bounded options cache) (hlimit : 0 < options.maxEntries) (fingerprint key : String)
    (now : ℤ) : Bounded options (cache.setAlias options fingerprint key now) := by
  unfold SessionCache.setAlias
  split
  · exact h
  · next target htarget =>
    have hroom := @roomForAlias_lt _ (cache.unalias fingerprint target.sdkSessionId) hlimit
    have hshrunk := (@unalias_shrunk cache fingerprint target.sdkSessionId).trans
      (roomForAlias_shrunk (cache.unalias fingerprint target.sdkSessionId) options)
    refine ⟨Nat.le_trans hshrunk.1 h.1, ?_⟩
    change mapSize (((cache.unalias fingerprint target.sdkSessionId).roomForAlias
      options).aliases.insert fingerprint _) ≤ _
    rw [mapSize_insert]
    exact Nat.le_trans (Nat.succ_le_succ mapSize_erase_le) hroom

/-- A full alias map evicts one alias, the oldest; any other evicts none. -/
theorem roomForAlias_eq (hlimit : 0 < options.maxEntries) (h : mapSize cache.aliases ≤ options.maxEntries) :
    cache.roomForAlias options =
      if options.maxEntries ≤ mapSize cache.aliases then cache.evictOldestAlias else cache := by
  split
  · next hfull =>
    have hless := evictOldestAlias_lt cache (by omega)
    unfold roomForAlias
    cases hsize : mapSize cache.aliases with
    | zero => omega
    | succ rounds =>
      rw [evictDown, if_pos (by rw [hsize]; omega)]
      exact evictDown_of_lt (by omega) rounds
  · next hroom => exact evictDown_of_lt (by omega) _

/-- The call evicts the alias that holds the session it is about to name: the fingerprint is new, the aliases are
full, and the oldest names the session bound under the key. -/
def evictsTarget (options : SessionCacheOptions) (cache : SessionCache) (fingerprint key : String) : Bool :=
  (cache.aliases.lookup fingerprint).isNone && decide (options.maxEntries ≤ mapSize cache.aliases) &&
    (((oldestName cache.aliases).bind cache.aliases.lookup).map CacheAlias.sdkSessionId ==
      (cache.valueOf key).map SessionEntry.sdkSessionId)

/-- The sessions purged to make room for the fingerprint's alias, which hold the key's own exactly
when the call evicts it. -/
theorem Linked.aliasRoom (h : cache.Linked) (hbounded : Bounded options cache) (hlimit : 0 < options.maxEntries)
    {fingerprint key : String} {target : SessionEntry} (htarget : cache.valueOf key = some target) :
    ∃ ids, Purged ids (cache.unalias fingerprint target.sdkSessionId)
        ((cache.unalias fingerprint target.sdkSessionId).roomForAlias options) ∧
      (target.sdkSessionId ∈ ids ↔ evictsTarget options cache fingerprint key = true) := by
  have hloose := h.unalias fingerprint target.sdkSessionId
  have hsize : mapSize (cache.unalias fingerprint target.sdkSessionId).aliases ≤ options.maxEntries :=
    Nat.le_trans (unalias_shrunk fingerprint target.sdkSessionId).2 hbounded.2
  rw [roomForAlias_eq hlimit hsize, unalias_aliases]
  unfold evictsTarget
  cases hlookup : cache.aliases.lookup fingerprint with
  | some previous =>
    -- The fingerprint's own alias left first, so there is room.
    have hless := @mapSize_erase_lt _ _ _ fingerprint cache.aliases
      (AList.lookup_isSome.mp (by rw [hlookup]; rfl))
    have hbound := hbounded.2
    rw [if_neg (by omega)]
    exact ⟨[], Purged.refl _, by simp⟩
  | none =>
    have herase := erase_of_lookup_none hlookup
    rw [herase]
    split
    · next hfull =>
      have hpurged := hloose.evictOldestAlias
      rw [unalias_aliases, herase] at hpurged
      refine ⟨_, hpurged, ?_⟩
      rw [htarget]
      simp only [Option.mem_toList, Option.isNone_none, hfull, decide_true, Bool.and_true,
        Bool.true_and, beq_iff_eq, Option.map_some]
    · next hroom => exact ⟨[], Purged.refl _, by simp [hroom]⟩

/-- An alias is left without its binding exactly when the call evicted the session it names. -/
theorem Pointed.setAlias_iff (hpointed : cache.Pointed) (h : cache.Linked) (hbounded : Bounded options cache)
    (hlimit : 0 < options.maxEntries) (fingerprint key : String) (now : ℤ) :
    (cache.setAlias options fingerprint key now).Pointed ↔ evictsTarget options cache fingerprint key = false := by
  unfold SessionCache.setAlias
  cases htarget : cache.valueOf key with
  | none =>
    refine iff_of_true hpointed ?_
    unfold evictsTarget
    rw [htarget]
    cases holdest : oldestName cache.aliases with
    | none =>
      have hsize := mapSize_of_oldestName_none holdest
      simp [hsize, Nat.ne_of_gt hlimit]
    | some name =>
      obtain ⟨found, hfound⟩ := Option.isSome_iff_exists.mp (AList.lookup_isSome.mpr (oldestName_mem holdest))
      simp [hfound]
  | some target =>
    obtain ⟨ids, hpurged, hids⟩ := @Linked.aliasRoom _ _ h hbounded hlimit fingerprint _ _ htarget
    rw [← Bool.not_eq_true, ← hids]
    refine ⟨?_, fun hkept => hpointed.storeAlias hpurged htarget rfl hkept⟩
    intro hafter hmem
    obtain ⟨value, hvalue, hid⟩ := hafter _ _ (lookup_storeAlias.mpr (.inl ⟨rfl, rfl⟩))
    rw [valueOf_storeAlias, hpurged.value] at hvalue
    exact hvalue.2 (hid ▸ hmem)

end Calls

section Runs

/-- Every alias points at a binding of its own session, and both maps are within the bound. -/
def Coordinated (options : SessionCacheOptions) (cache : SessionCache) : Prop :=
  cache.Pointed ∧ Bounded options cache

/-- The call does not evict, for a new alias, the session that alias names. -/
def keepsTarget (options : SessionCacheOptions) (cache : SessionCache) (timed : TimedCall) : Bool :=
  match timed.call with
  | .setAlias fingerprint key => !evictsTarget options cache fingerprint key
  | _ => true

/-- Every call keeps the groups exact and both maps within the bound. -/
theorem step_linked_bounded (hlimit : 0 < options.maxEntries) (cache : SessionCache) (timed : TimedCall)
    (h : cache.Linked ∧ Bounded options cache) :
    (cache.step options timed).Linked ∧ Bounded options (cache.step options timed) := by
  obtain ⟨hlinked, hbounded⟩ := h
  by_cases hset : ∃ key value, timed.call = .set key value
  · obtain ⟨key, value, hcall⟩ := hset
    rw [SessionCache.step, hcall]
    exact ⟨hlinked.set key value timed.now, hbounded.set hlimit key value timed.now⟩
  by_cases halias : ∃ fingerprint key, timed.call = .setAlias fingerprint key
  · obtain ⟨fingerprint, key, hcall⟩ := halias
    rw [SessionCache.step, hcall]
    exact ⟨hlinked.setAlias fingerprint key timed.now, hbounded.setAlias hlimit fingerprint key timed.now⟩
  push Not at hset halias
  obtain ⟨⟨ids, hpurged⟩, hshrunk⟩ := hlinked.loose.purges options timed hset halias
  exact ⟨hpurged.linked hlinked, hbounded.shrunk hshrunk⟩

/-- A call from a coordinated cache leaves it coordinated exactly when it keeps its target. -/
theorem step_coordinated_iff (hlimit : 0 < options.maxEntries) (cache : SessionCache)
    (timed : TimedCall) (hlinked : cache.Linked) (h : Coordinated options cache) :
    Coordinated options (cache.step options timed) ↔ keepsTarget options cache timed = true := by
  have hbounded := (step_linked_bounded hlimit cache timed ⟨hlinked, h.2⟩).2
  rw [Coordinated, and_iff_left hbounded]
  by_cases halias : ∃ fingerprint key, timed.call = .setAlias fingerprint key
  · obtain ⟨fingerprint, key, hcall⟩ := halias
    rw [SessionCache.step, keepsTarget, hcall]
    dsimp only
    rw [Bool.not_eq_true']
    exact h.1.setAlias_iff hlinked h.2 hlimit fingerprint key timed.now
  push Not at halias
  refine iff_of_true ?_ ?_
  · by_cases hset : ∃ key value, timed.call = .set key value
    · obtain ⟨key, value, hcall⟩ := hset
      rw [SessionCache.step, hcall]
      exact h.1.set hlinked key value timed.now
    push Not at hset
    obtain ⟨⟨ids, hpurged⟩, -⟩ := hlinked.loose.purges options timed hset halias
    exact hpurged.pointed h.1
  · unfold keepsTarget
    split
    · next fingerprint key hcall => exact absurd hcall (halias fingerprint key)
    · rfl

theorem linked_empty : ({} : SessionCache).Linked :=
  ⟨by simp [group, valueOf], by simp [group]⟩

theorem coordinated_empty (options : SessionCacheOptions) : Coordinated options {} :=
  ⟨by simp [Pointed], by simp [mapSize], by simp [mapSize]⟩

/-- Along every run of calls, with any clock, both maps stay within their bound; and every alias
points at a binding of its own session in every state of the run exactly when no call of it evicts,
for a new alias, the session that alias is about to name. -/
theorem run_coordinated_iff (options : SessionCacheOptions) (hlimit : 1 ≤ options.maxEntries)
    (calls : List TimedCall) :
    Bounded options (runFrom (SessionCache.step options) {} calls) ∧ (EveryStep (SessionCache.step options)
          (fun cache timed => Coordinated options (cache.step options timed)) {} calls ↔
        EveryStep (SessionCache.step options) (fun cache timed => keepsTarget options cache timed = true)
          {} calls) := by
  have hempty : ({} : SessionCache).Linked ∧ Coordinated options {} := ⟨linked_empty, coordinated_empty options⟩
  refine ⟨?_, ?_⟩
  · exact (runFrom_invariant (fun cache => cache.Linked ∧ Bounded options cache)
      (step_linked_bounded hlimit) calls {} ⟨hempty.1, hempty.2.2⟩).2
  · refine everyStep_congr (fun cache => cache.Linked ∧ Coordinated options cache) ?_ ?_ calls {} hempty
    · rintro cache timed ⟨hlinked, hcoordinated⟩
      exact step_coordinated_iff hlimit cache timed hlinked hcoordinated
    · rintro cache timed ⟨hlinked, hcoordinated⟩ hnext
      exact ⟨(step_linked_bounded hlimit cache timed ⟨hlinked, hcoordinated.2⟩).1, hnext⟩

/-- Two fingerprints of one binding, in a cache that has room for both. -/
theorem run_coordinated_two_aliases : 1 ≤ 2 ∧ EveryStep (SessionCache.step ⟨2, 300000, 30000⟩)
      (fun cache timed => Coordinated ⟨2, 300000, 30000⟩ (cache.step ⟨2, 300000, 30000⟩ timed)) {}
      [⟨.set "key" (some ⟨"account", "session", ⟨[], []⟩⟩), 0⟩, ⟨.setAlias "first" "key", 1⟩,
        ⟨.setAlias "second" "key", 2⟩] :=
  ⟨by decide, (run_coordinated_iff _ (by decide) _).2.mpr (by decide +kernel)⟩

/-- With room for one alias, a second fingerprint of the same binding evicts the first one and with it the binding.
-/
theorem run_alias_dangles :
    1 ≤ 1 ∧ ¬ Coordinated ⟨1, 300000, 30000⟩ (runFrom (SessionCache.step ⟨1, 300000, 30000⟩) {}
      [⟨.set "key" (some ⟨"account", "session", ⟨[], []⟩⟩), 0⟩, ⟨.setAlias "first" "key", 1⟩,
        ⟨.setAlias "second" "key", 2⟩]) := by
  refine ⟨by decide, fun h => ?_⟩
  obtain ⟨value, hvalue, -⟩ := h.1 "second" ⟨"key", "session", 300002⟩ (by decide +kernel)
  have hnone : SessionCache.valueOf (runFrom (SessionCache.step ⟨1, 300000, 30000⟩) {}
      [⟨.set "key" (some ⟨"account", "session", ⟨[], []⟩⟩), 0⟩, ⟨.setAlias "first" "key", 1⟩,
        ⟨.setAlias "second" "key", 2⟩]) "key" = none := by decide +kernel
  exact absurd (hnone.symm.trans hvalue) (by simp)

end Runs

end MultiAiRouter.ClaudeSdk.SessionCache
