import MultiAiRouter.Common.LruMap
import MultiAiRouter.Common.Run
import MultiAiRouter.Routing.Types

/-!
# Router key verification

`createRouterKeyVerifier`, one step per synchronous stretch between two awaits. A call answers from the cache, joins
the load in flight for its digest, or starts one; a load remembers the key when no invalidation came in between and
stays in flight until its `finally` has run. `createTtlCache` is bounded and its entries expire. The generation a
verified key carries is never read.
-/

namespace MultiAiRouter.Dataplane

open Common

variable {κ ν : Type} [DecidableEq κ]

/-- The cache's limits; a cache that could hold nothing cannot be created. -/
structure TtlCacheOptions where
  maxEntries : ℕ
  ttlMs : Int
  maxEntries_pos : 0 < maxEntries := by decide

/-- A cached value and when it expires. -/
structure TtlEntry (ν : Type) where
  value : ν
  expiresAtMs : Int
  deriving DecidableEq

/-- The entries, newest name first. -/
abbrev TtlCache (κ ν : Type) := LruMap κ (TtlEntry ν)

namespace TtlCache

/-- Drop the oldest name. -/
def evictOldest (cache : TtlCache κ ν) : TtlCache κ ν :=
  match oldestName cache with
  | some name => cache.erase name
  | none => cache

/-- Look a name up at the given time: a hit becomes the newest name, an expired entry goes. -/
def get (cache : TtlCache κ ν) (now : Int) (name : κ) : Option ν × TtlCache κ ν :=
  match cache.lookup name with
  | none => (none, cache)
  | some entry =>
    if entry.expiresAtMs ≤ now then (none, cache.erase name)
    else (some entry.value, (cache.erase name).insert name entry)

/-- Store a value as the newest name, evicting the oldest ones until there is room. -/
def set (options : TtlCacheOptions) (cache : TtlCache κ ν) (now : Int) (name : κ) (value : ν)
    (ttlMs : Option Int := none) : TtlCache κ ν :=
  let erased := cache.erase name
  (evictDown mapSize evictOldest options.maxEntries (mapSize erased) erased).insert name
    { value, expiresAtMs := now + ttlMs.getD options.ttlMs }

variable {cache : TtlCache κ ν} {now : Int} {name other : κ} {entry : TtlEntry ν} {value : ν}

/-- What a lookup leaves was there. -/
theorem lookup_of_get (h : (cache.get now name).2.lookup other = some entry) : cache.lookup other = some entry := by
  rw [get] at h
  cases hfound : cache.lookup name with
  | none => simpa only [hfound] using h
  | some found =>
    simp only [hfound] at h
    split at h
    · exact (lookup_erase_eq_some.mp h).2
    · rcases lookup_insert_eq_some.mp h with ⟨rfl, rfl⟩ | ⟨-, hold⟩
      · exact hfound
      · exact (lookup_erase_eq_some.mp hold).2

/-- A lookup that leaves its name in the cache found it. -/
theorem get_isSome_of_lookup (h : (cache.get now name).2.lookup name = some entry) :
    (cache.get now name).1.isSome = true := by
  rw [get] at h ⊢
  cases hfound : cache.lookup name with
  | none => simp [hfound] at h
  | some found =>
    simp only [hfound] at h ⊢
    split at h
    · simp at h
    · next hlive => simp [hlive]

/-- What a lookup finds is in the cache. -/
theorem lookup_of_get_eq (h : (cache.get now name).1 = some value) :
    ∃ entry, cache.lookup name = some entry ∧ entry.value = value := by
  rw [get] at h
  cases hfound : cache.lookup name with
  | none => simp [hfound] at h
  | some found =>
    simp only [hfound] at h
    split at h
    · cases h
    · exact ⟨found, rfl, Option.some.inj h⟩

/-- What making room leaves was there. -/
theorem lookup_of_evictDown (limit : ℕ) (rounds : ℕ)
    (h : (evictDown mapSize evictOldest limit rounds cache).lookup other = some entry) :
    cache.lookup other = some entry := by
  refine evictDown_invariant (fun state => state.lookup other = some entry → cache.lookup other = some entry)
    ?_ rounds cache id h
  intro state hstate hfound
  refine hstate ?_
  rw [evictOldest] at hfound
  split at hfound
  · exact (lookup_erase_eq_some.mp hfound).2
  · exact hfound

/-- What is in the cache after storing is the value stored, or was there under another name. -/
theorem lookup_of_set {options : TtlCacheOptions} {ttlMs : Option Int}
    (h : (cache.set options now name value ttlMs).lookup other = some entry) :
    (other = name ∧ entry.value = value) ∨ (other ≠ name ∧ cache.lookup other = some entry) := by
  rcases lookup_insert_eq_some.mp h with ⟨rfl, rfl⟩ | ⟨hne, hold⟩
  · exact .inl ⟨rfl, rfl⟩
  · exact .inr ⟨hne, (lookup_erase_eq_some.mp (lookup_of_evictDown _ _ hold)).2⟩

end TtlCache

open Routing

/-- The literal every router key starts with. -/
def routerKeyLiteral : List Char := "mar_live_".toList

def routerKeyRandomLength : ℕ := 32

def routerKeyDisplayRandomLength : ℕ := 8

/-- One of the 64 symbols a key's random part is drawn from. -/
def isKeySymbol (c : Char) : Bool :=
  ('A' ≤ c ∧ c ≤ 'Z') || ('a' ≤ c ∧ c ≤ 'z') || ('0' ≤ c ∧ c ≤ '9') || c == '_' || c == '-'

/-- The shape of a router key: the literal, then exactly its random symbols. -/
def isRouterKey (value : List Char) : Bool :=
  routerKeyLiteral.isPrefixOf value &&
    (value.drop routerKeyLiteral.length).length == routerKeyRandomLength &&
    (value.drop routerKeyLiteral.length).all isKeySymbol

/-- The part of a key its row is indexed by; a malformed key has none. -/
def routerKeyDisplayPrefix (value : List Char) : Option (List Char) :=
  if isRouterKey value then some (value.take (routerKeyLiteral.length + routerKeyDisplayRandomLength))
  else none

/-- What verification reads of a key's row. -/
structure ApiKeyRow where
  id : String
  name : String
  value : String
  displayPrefix : List Char
  rateLimitRequests : Option ℕ
  rateLimitWindowSeconds : Option ℕ
  expiresAt : Option Int
  deriving DecidableEq

/-- A key that was verified, with its scope. -/
structure VerifiedKey where
  id : String
  name : String
  displayPrefix : List Char
  scope : KeyScopeSnapshot
  rateLimitRequests : Option ℕ
  rateLimitWindowSeconds : Option ℕ
  expiresAt : Option Int
  deriving DecidableEq

/-- A key past its expiry is refused exactly like a revoked one. -/
def isExpired (key : VerifiedKey) (now : Int) : Bool :=
  match key.expiresAt with
  | some expiresAt => expiresAt ≤ now
  | none => false

/-- The verifier's cache limits, and what it is given: the digest and the cipher. -/
structure RouterKeyVerifierDeps (Digest : Type) where
  cache : TtlCacheOptions
  negativeTtlMs : Int
  digest : List Char → Digest
  decrypt : String → Option (List Char)

/-- Why a call is refused; a dependency's own failure passes through. -/
inductive VerifyError
  | keyRevoked
  | verificationUnavailable
  | failed
  deriving DecidableEq

/-- What a load or a call ends with. -/
inductive VerifyResult
  | verified (key : VerifiedKey) (readAt : ℕ)
  | refused (error : VerifyError)
  deriving DecidableEq

/-- What the cache holds for a digest. -/
inductive CacheEntry
  | ok (key : VerifiedKey) (readAt : ℕ)
  | unknown
  deriving DecidableEq

/-- How far a load has come: it has returned before its `finally` has run. -/
inductive LoadPhase
  | reading
  | scoping (row : ApiKeyRow)
  | returned (result : VerifyResult)
  | settled (result : VerifyResult)
  deriving DecidableEq

/-- One coalesced load. -/
structure KeyLoad (Digest : Type) where
  presented : List Char
  displayPrefix : List Char
  digest : Digest
  attempt : ℕ
  startedGeneration : ℕ
  phase : LoadPhase := .reading
  deriving DecidableEq

/-- Where a `verify` call stands. -/
inductive CallPhase
  | awaiting (load : ℕ)
  | answered (result : VerifyResult)
  deriving DecidableEq

/-- A `verify` call and the generation it began at. -/
structure VerifyCall where
  beganAt : ℕ
  phase : CallPhase
  deriving DecidableEq

/-- Which digests cache a key id, in the order the ids were first listed. -/
abbrev KeyIndex (Digest : Type) := List (String × List Digest)

/-- The verifier, with every load and call it ever had and every invalidation it was told of:
of one key, or of all of them. -/
structure RouterKeyVerifier (Digest : Type) where
  cache : TtlCache Digest CacheEntry := ∅
  byKeyId : KeyIndex Digest := []
  inFlight : LruMap Digest ℕ := ∅
  generation : ℕ := 0
  loads : List (KeyLoad Digest) := []
  calls : List VerifyCall := []
  invalidations : List (Option String) := []
  deriving DecidableEq

/-- A call, an answer of the database or the scope loader, the `finally` of a load, a call that
wakes, or an invalidation. -/
inductive VerifierEvent
  | verify (presented : List Char) (now : Int)
  | rows (load : ℕ) (answer : Option (List ApiKeyRow)) (now : Int)
  | scope (load : ℕ) (answer : Option KeyScopeSnapshot) (onVerifiedThrows : Bool) (now : Int)
  | finish (load : ℕ)
  | wake (call : ℕ)
  | invalidate (keyId : String)
  | invalidateAll
  deriving DecidableEq

def maxLoadAttempts : ℕ := 3

variable {Digest : Type} [DecidableEq Digest]

/-- List the digest under the key id. -/
def KeyIndex.add (index : KeyIndex Digest) (id : String) (digest : Digest) : KeyIndex Digest :=
  match index with
  | [] => [(id, [digest])]
  | (other, digests) :: rest =>
    if other = id then (other, if digest ∈ digests then digests else digests ++ [digest]) :: rest
    else (other, digests) :: KeyIndex.add rest id digest

/-- Look every digest up and keep those the cache still holds. -/
def pruneDigests (now : Int) (cache : TtlCache Digest CacheEntry) :
    List Digest → List Digest × TtlCache Digest CacheEntry
  | [] => ([], cache)
  | digest :: rest =>
    let found := cache.get now digest
    let (kept, after) := pruneDigests now found.2 rest
    (if found.1.isSome then digest :: kept else kept, after)

/-- Drop what the cache no longer holds from the index, and the ids that cache nothing. -/
def pruneIndex (now : Int) (cache : TtlCache Digest CacheEntry) :
    KeyIndex Digest → KeyIndex Digest × TtlCache Digest CacheEntry
  | [] => ([], cache)
  | (id, digests) :: rest =>
    let pruned := pruneDigests now cache digests
    let (kept, after) := pruneIndex now pruned.2 rest
    (if pruned.1.isEmpty then kept else (id, pruned.1) :: kept, after)

/-- The first candidate row whose decrypted value is the presented key. -/
def matchRow (deps : RouterKeyVerifierDeps Digest) (rows : List ApiKeyRow) (presented : List Char) :
    Option ApiKeyRow :=
  rows.find? fun row => deps.decrypt row.value = some presented

/-- The key a row and its scope make. -/
def verifiedKey (row : ApiKeyRow) (scope : KeyScopeSnapshot) : VerifiedKey :=
  { id := row.id, name := row.name, displayPrefix := row.displayPrefix, scope,
    rateLimitRequests := row.rateLimitRequests
    rateLimitWindowSeconds := row.rateLimitWindowSeconds
    expiresAt := row.expiresAt }

namespace RouterKeyVerifier

variable (deps : RouterKeyVerifierDeps Digest) (state : RouterKeyVerifier Digest)

/-- Cache the entry, and list a verified key's digest under its id. A full index is pruned first. -/
def remember (now : Int) (digest : Digest) (entry : CacheEntry) : RouterKeyVerifier Digest :=
  let (index, cache) :=
    if deps.cache.maxEntries ≤ state.byKeyId.length then pruneIndex now state.cache state.byKeyId
    else (state.byKeyId, state.cache)
  match entry with
  | .ok key _ =>
    { state with
      cache := cache.set deps.cache now digest entry
      byKeyId := KeyIndex.add index key.id digest }
  | .unknown =>
    { state with cache := cache.set deps.cache now digest entry (some deps.negativeTtlMs), byKeyId := index }

/-- The load moves on. -/
def moveLoad (load : ℕ) (held : KeyLoad Digest) : RouterKeyVerifier Digest :=
  { state with loads := state.loads.set load held }

/-- The load returns or throws; its `finally` comes later. -/
def returnLoad (load : ℕ) (held : KeyLoad Digest) (result : VerifyResult) : RouterKeyVerifier Digest :=
  state.moveLoad load { held with phase := .returned result }

/-- The next round of the load loop: read again at the current generation, within the bound. -/
def retryLoad (load : ℕ) (held : KeyLoad Digest) : RouterKeyVerifier Digest :=
  if held.attempt + 1 < maxLoadAttempts then
    state.moveLoad load
      { held with attempt := held.attempt + 1, startedGeneration := state.generation, phase := .reading }
  else state.returnLoad load held (.refused .verificationUnavailable)

/-- The call is recorded with where it stands. -/
def addCall (phase : CallPhase) : RouterKeyVerifier Digest :=
  { state with calls := state.calls ++ [{ beganAt := state.generation, phase }] }

/-- Start a load and its first read. -/
def startLoad (presented displayPrefix : List Char) : RouterKeyVerifier Digest :=
  { state with
    loads := state.loads ++ [{ presented, displayPrefix, digest := deps.digest presented, attempt := 0,
                               startedGeneration := state.generation }]
    inFlight := state.inFlight.insert (deps.digest presented) state.loads.length }

/-- A call the cache does not answer: join the load in flight, or start one within the bound. -/
def joinOrStart (presented displayPrefix : List Char) : RouterKeyVerifier Digest :=
  match state.inFlight.lookup (deps.digest presented) with
  | some load => state.addCall (.awaiting load)
  | none =>
    if deps.cache.maxEntries ≤ mapSize state.inFlight then
      state.addCall (.answered (.refused .verificationUnavailable))
    else (state.startLoad deps presented displayPrefix).addCall (.awaiting state.loads.length)

/-- The synchronous part of a `verify` call. -/
def verify (presented : List Char) (now : Int) : RouterKeyVerifier Digest :=
  match routerKeyDisplayPrefix presented with
  | none => state.addCall (.answered (.refused .keyRevoked))
  | some displayPrefix =>
    let digest := deps.digest presented
    let found := state.cache.get now digest
    let looked := { state with cache := found.2 }
    match found.1 with
    | some .unknown => looked.addCall (.answered (.refused .keyRevoked))
    | some (.ok key readAt) =>
      if isExpired key now then
        { looked with cache := found.2.erase digest }.addCall (.answered (.refused .keyRevoked))
      else looked.addCall (.answered (.verified key readAt))
    | none => looked.joinOrStart deps presented displayPrefix

/-- The candidate rows arrived. -/
def rowsArrived (load : ℕ) (held : KeyLoad Digest) (answer : Option (List ApiKeyRow)) (now : Int) :
    RouterKeyVerifier Digest :=
  match answer with
  | none => state.returnLoad load held (.refused .failed)
  | some rows =>
    if held.startedGeneration ≠ state.generation then state.retryLoad load held
    else
      match matchRow deps rows held.presented with
      | none => (state.remember deps now held.digest .unknown).returnLoad load held (.refused .keyRevoked)
      | some row => state.moveLoad load { held with phase := .scoping row }

/-- The matched row's scope arrived. -/
def scopeArrived (load : ℕ) (held : KeyLoad Digest) (row : ApiKeyRow)
    (answer : Option KeyScopeSnapshot) (onVerifiedThrows : Bool) (now : Int) : RouterKeyVerifier Digest :=
  match answer with
  | none => state.returnLoad load held (.refused .failed)
  | some scope =>
    let key := verifiedKey row scope
    if held.startedGeneration ≠ state.generation then state.retryLoad load held
    else if isExpired key now then state.returnLoad load held (.refused .keyRevoked)
    else
      (state.remember deps now held.digest (.ok key held.startedGeneration)).returnLoad load held
        (if onVerifiedThrows then .refused .failed else .verified key held.startedGeneration)

/-- One thing happens to the verifier. -/
def step : VerifierEvent → RouterKeyVerifier Digest
  | .verify presented now => state.verify deps presented now
  | .rows load answer now =>
    match state.loads[load]? with
    | some held =>
      match held.phase with
      | .reading => state.rowsArrived deps load held answer now
      | _ => state
    | none => state
  | .scope load answer onVerifiedThrows now =>
    match state.loads[load]? with
    | some held =>
      match held.phase with
      | .scoping row => state.scopeArrived deps load held row answer onVerifiedThrows now
      | _ => state
    | none => state
  | .finish load =>
    match state.loads[load]? with
    | some held =>
      match held.phase with
      | .returned result =>
        let settled := state.moveLoad load { held with phase := .settled result }
        if state.inFlight.lookup held.digest = some load then
          { settled with inFlight := state.inFlight.erase held.digest }
        else settled
      | _ => state
    | none => state
  | .wake call =>
    match state.calls[call]? with
    | some held =>
      match held.phase with
      | .awaiting load =>
        match state.loads[load]? with
        | some loaded =>
          match loaded.phase with
          | .settled result =>
            { state with calls := state.calls.set call { held with phase := .answered result } }
          | _ => state
        | none => state
      | _ => state
    | none => state
  | .invalidate keyId =>
    { state with
      generation := state.generation + 1
      cache := eraseNames ((state.byKeyId.lookup keyId).getD []) state.cache
      byKeyId := state.byKeyId.filter fun entry => entry.1 ≠ keyId
      invalidations := state.invalidations ++ [some keyId] }
  | .invalidateAll =>
    { state with
      generation := state.generation + 1
      cache := ∅
      byKeyId := []
      invalidations := state.invalidations ++ [none] }

/-- Everything that happens to a fresh verifier. -/
def run (events : List VerifierEvent) : RouterKeyVerifier Digest :=
  runFrom (step deps) {} events

end RouterKeyVerifier

end MultiAiRouter.Dataplane
