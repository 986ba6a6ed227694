import MultiAiRouter.Common.LruMap
import MultiAiRouter.Common.Run
import MultiAiRouter.ClaudeSdk.Session.Plan

/-!
# The session cache

Two maps stand in front of the session table: the session keys with their bindings, or with the fact that they have
none, and the fingerprints that point at a session key. A third map lists every name of one SDK session id, so that
an eviction takes all of them.
-/

namespace MultiAiRouter.ClaudeSdk

open Common

/-- The bounds of the cache; times are in milliseconds. -/
structure SessionCacheOptions where
  maxEntries : ℕ
  ttlMs : ℤ
  negativeTtlMs : ℤ
  deriving DecidableEq

/-- A cached binding, or the fact that there is none. -/
structure CacheEntry where
  value : Option SessionEntry
  expiresAtMs : ℤ
  deriving DecidableEq

/-- A fingerprint's session key and the SDK session id it was aliased for. -/
structure CacheAlias where
  key : String
  sdkSessionId : String
  expiresAtMs : ℤ
  deriving DecidableEq

/-- Every name that points at one SDK session id. -/
structure Named where
  keys : List String := []
  fingerprints : List String := []
  deriving DecidableEq

/-- The three maps of the cache. -/
structure SessionCache where
  entries : LruMap String CacheEntry := ∅
  aliases : LruMap String CacheAlias := ∅
  named : LruMap String Named := ∅

namespace SessionCache

/-- The names of an SDK session id. -/
def group (cache : SessionCache) (sdkSessionId : String) : Named :=
  (cache.named.lookup sdkSessionId).getD {}

/-- The binding cached under the key, if it has one. -/
def valueOf (cache : SessionCache) (key : String) : Option SessionEntry :=
  (cache.entries.lookup key).bind CacheEntry.value

/-- The key is one of the id's names. -/
def linkKey (cache : SessionCache) (sdkSessionId key : String) : SessionCache :=
  let group := cache.group sdkSessionId
  { cache with named := cache.named.insert sdkSessionId { group with keys := group.keys.insert key } }

/-- The fingerprint is one of the id's names. -/
def linkFingerprint (cache : SessionCache) (sdkSessionId fingerprint : String) : SessionCache :=
  let group := cache.group sdkSessionId
  { cache with
    named := cache.named.insert sdkSessionId
      { group with fingerprints := group.fingerprints.insert fingerprint } }

/-- The id and everything that names it are gone. -/
def purge (cache : SessionCache) (sdkSessionId : String) : SessionCache :=
  match cache.named.lookup sdkSessionId with
  | none => cache
  | some group =>
    { entries := eraseNames group.keys cache.entries
      aliases := eraseNames group.fingerprints cache.aliases
      named := cache.named.erase sdkSessionId }

/-- A group left without a name is dropped. -/
def regroup (cache : SessionCache) (sdkSessionId : String) (group : Named) : SessionCache :=
  if group.keys = [] ∧ group.fingerprints = [] then
    { cache with named := cache.named.erase sdkSessionId }
  else { cache with named := cache.named.insert sdkSessionId group }

/-- The key is no longer a name of the id. -/
def unlinkKey (cache : SessionCache) (sdkSessionId key : String) : SessionCache :=
  match cache.named.lookup sdkSessionId with
  | none => cache
  | some group => cache.regroup sdkSessionId { group with keys := group.keys.filter (· ≠ key) }

/-- The fingerprint is no longer a name of the id. -/
def unlinkFingerprint (cache : SessionCache) (sdkSessionId fingerprint : String) : SessionCache :=
  match cache.named.lookup sdkSessionId with
  | none => cache
  | some group =>
    cache.regroup sdkSessionId
      { group with fingerprints := group.fingerprints.filter (· ≠ fingerprint) }

/-- The entry leaves, and with a binding everything that names its session. -/
def removeEntry (cache : SessionCache) (key : String) : SessionCache :=
  let removed := { cache with entries := cache.entries.erase key }
  match cache.valueOf key with
  | none => removed
  | some value => removed.purge value.sdkSessionId

/-- The alias leaves, and with it everything that names its session. -/
def removeAlias (cache : SessionCache) (fingerprint : String) : SessionCache :=
  let removed := { cache with aliases := cache.aliases.erase fingerprint }
  match cache.aliases.lookup fingerprint with
  | none => removed
  | some found => removed.purge found.sdkSessionId

/-- Evict the entry inserted longest ago. -/
def evictOldestEntry (cache : SessionCache) : SessionCache :=
  match oldestName cache.entries with
  | none => cache
  | some key => cache.removeEntry key

/-- Evict the alias inserted longest ago. -/
def evictOldestAlias (cache : SessionCache) : SessionCache :=
  match oldestName cache.aliases with
  | none => cache
  | some fingerprint => cache.removeAlias fingerprint

/-- Evict entries while the limit is reached. -/
def roomForEntry (cache : SessionCache) (options : SessionCacheOptions) : SessionCache :=
  evictDown (fun cache : SessionCache => mapSize cache.entries) evictOldestEntry options.maxEntries
    (mapSize cache.entries) cache

/-- Evict aliases while the limit is reached. -/
def roomForAlias (cache : SessionCache) (options : SessionCacheOptions) : SessionCache :=
  evictDown (fun cache : SessionCache => mapSize cache.aliases) evictOldestAlias options.maxEntries
    (mapSize cache.aliases) cache

/-- What the key holds, if it was looked up: an expired entry is evicted, a live one is the newest. -/
def get (cache : SessionCache) (key : String) (now : ℤ) : Option (Option SessionEntry) × SessionCache :=
  match cache.entries.lookup key with
  | none => (none, cache)
  | some entry =>
    if entry.expiresAtMs ≤ now then (none, cache.removeEntry key)
    else (some entry.value, { cache with entries := cache.entries.insert key entry })

/-- The cache before the key's new value is stored: its old value is gone, and a different session
that leaves this key is purged. -/
def vacate (cache : SessionCache) (key : String) (value : Option SessionEntry) : SessionCache :=
  let removed := { cache with entries := cache.entries.erase key }
  match cache.valueOf key with
  | none => removed
  | some previous =>
    if some previous.sdkSessionId = value.map SessionEntry.sdkSessionId then removed
    else (removed.unlinkKey previous.sdkSessionId key).purge previous.sdkSessionId

/-- The key holds the value, and a binding's session lists the key. -/
def storeEntry (cache : SessionCache) (key : String) (entry : CacheEntry) : SessionCache :=
  let stored := { cache with entries := cache.entries.insert key entry }
  match entry.value with
  | none => stored
  | some bound => stored.linkKey bound.sdkSessionId key

/-- Store the key's value, or that it has none. -/
def set (cache : SessionCache) (options : SessionCacheOptions) (key : String)
    (value : Option SessionEntry) (now : ℤ) : SessionCache :=
  let room := (cache.vacate key value).roomForEntry options
  let ttl := if value.isNone then options.negativeTtlMs else options.ttlMs
  room.storeEntry key { value, expiresAtMs := now + ttl }

/-- The key's binding is gone, and so is everything that names its session. -/
def drop (cache : SessionCache) (key : String) : SessionCache := cache.removeEntry key

/-- Every session bound on the account is purged. The source's loop runs over the live map; purging a
session again changes nothing. -/
def dropAccount (cache : SessionCache) (accountId : String) : SessionCache :=
  cache.entries.entries.reverse.foldl (fun kept entry =>
    match entry.2.value with
    | some value => if value.accountId = accountId then kept.purge value.sdkSessionId else kept
    | none => kept) cache

/-- Forget the fingerprint's own alias; one for another session is unlinked from it. -/
def unalias (cache : SessionCache) (fingerprint sdkSessionId : String) : SessionCache :=
  let removed := { cache with aliases := cache.aliases.erase fingerprint }
  match cache.aliases.lookup fingerprint with
  | none => removed
  | some previous =>
    if previous.sdkSessionId = sdkSessionId then removed
    else removed.unlinkFingerprint previous.sdkSessionId fingerprint

/-- The fingerprint has the alias, and the alias's session lists the fingerprint. -/
def storeAlias (cache : SessionCache) (fingerprint : String) (found : CacheAlias) : SessionCache :=
  let stored := { cache with aliases := cache.aliases.insert fingerprint found }
  stored.linkFingerprint found.sdkSessionId fingerprint

/-- `alias` of the source: point the fingerprint at the session key, if that holds a binding. -/
def setAlias (cache : SessionCache) (options : SessionCacheOptions) (fingerprint key : String) (now : ℤ) :
    SessionCache :=
  match cache.valueOf key with
  | none => cache
  | some target =>
    let room := (cache.unalias fingerprint target.sdkSessionId).roomForAlias options
    room.storeAlias fingerprint
      { key, sdkSessionId := target.sdkSessionId, expiresAtMs := now + options.ttlMs }

/-- The session key the fingerprint points at: an expired alias is evicted, a live one is the newest. -/
def aliased (cache : SessionCache) (fingerprint : String) (now : ℤ) : Option String × SessionCache :=
  match cache.aliases.lookup fingerprint with
  | none => (none, cache)
  | some found =>
    if found.expiresAtMs ≤ now then (none, cache.removeAlias fingerprint)
    else (some found.key, { cache with aliases := cache.aliases.insert fingerprint found })

/-- The SDK reported the session gone. -/
def forget (cache : SessionCache) (sdkSessionId : String) : SessionCache := cache.purge sdkSessionId

end SessionCache

/-- A call on the cache. -/
inductive CacheCall where
  | get (key : String)
  | set (key : String) (value : Option SessionEntry)
  | drop (key : String)
  | dropAccount (accountId : String)
  | setAlias (fingerprint key : String)
  | aliased (fingerprint : String)
  | forget (sdkSessionId : String)
  deriving DecidableEq

/-- A call with the clock reading it takes. -/
structure TimedCall where
  call : CacheCall
  now : ℤ
  deriving DecidableEq

/-- The cache after a call. -/
def SessionCache.step (options : SessionCacheOptions) (cache : SessionCache) (timed : TimedCall) :
    SessionCache :=
  match timed.call with
  | .get key => (cache.get key timed.now).2
  | .set key value => cache.set options key value timed.now
  | .drop key => cache.drop key
  | .dropAccount accountId => cache.dropAccount accountId
  | .setAlias fingerprint key => cache.setAlias options fingerprint key timed.now
  | .aliased fingerprint => (cache.aliased fingerprint timed.now).2
  | .forget sdkSessionId => cache.forget sdkSessionId

end MultiAiRouter.ClaudeSdk
