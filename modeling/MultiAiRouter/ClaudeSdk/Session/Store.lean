import MultiAiRouter.ClaudeSdk.Session.Cache
import MultiAiRouter.ClaudeSdk.Session.Inflight

/-!
# The session store

The store as a state machine: the cache, the deletion fence, the claims, the resolved turns, the reads and the row
writes in flight, and the table behind it all. A lease is revoked when its account is deleted; a read takes a
ticket, and the deletions since the oldest open ticket are remembered, up to a limit.
-/

namespace MultiAiRouter.ClaudeSdk

open Common

/-- A lease, the account it is grouped under while it is held, and whether it still stands. -/
structure FenceLease where
  accountId : Option String
  valid : Bool := true
  grouped : Bool := true
  deriving DecidableEq

/-- The leases ever held, the open reads, and the deletions they have to know of. -/
structure DeletionFence where
  historyLimit : ℕ
  leases : List FenceLease := []
  reads : List ℕ := []
  deleted : LruMap String ℕ := ∅
  sequence : ℕ := 0
  floor : ℤ := -1

namespace DeletionFence

/-- Forget the deletions every open read is younger than. -/
def prune (fence : DeletionFence) : DeletionFence :=
  let oldest := fence.reads.foldl min fence.sequence
  { fence with
    deleted := eraseNames (fence.deleted.keys.filter fun accountId =>
      ((fence.deleted.lookup accountId).map fun seen => decide (seen ≤ oldest)).getD false) fence.deleted }

/-- Hold a lease for the account; the lease's number, and the fence. -/
def hold (fence : DeletionFence) (accountId : Option String) : ℕ × DeletionFence :=
  (fence.leases.length, { fence with leases := fence.leases ++ [{ accountId }] })

/-- The lease still stands. -/
def leaseValid (fence : DeletionFence) (lease : ℕ) : Bool :=
  ((fence.leases[lease]?).map FenceLease.valid).getD false

/-- The lease leaves its group; whether it stands does not change. -/
def releaseLease (fence : DeletionFence) (lease : ℕ) : DeletionFence :=
  { fence with leases := fence.leases.modify lease fun held => { held with grouped := false } }

/-- Open a read: its ticket, and the fence. -/
def read (fence : DeletionFence) : ℕ × DeletionFence :=
  (fence.sequence + 1,
    { fence with sequence := fence.sequence + 1, reads := fence.reads ++ [fence.sequence + 1] })

/-- What the read brings back for the account was not deleted since it began. -/
def readValid (fence : DeletionFence) (ticket : ℕ) (accountId : Option String) : Bool :=
  decide (fence.floor ≤ ticket) &&
    match accountId with
    | none => true
    | some accountId => ((fence.deleted.lookup accountId).map fun seen => decide (seen ≤ ticket)).getD true

/-- Close a read. -/
def releaseRead (fence : DeletionFence) (ticket : ℕ) : DeletionFence :=
  prune { fence with reads := fence.reads.filter (· ≠ ticket) }

/-- Drop the oldest deletion remembered; reads older than it fail from now on. -/
def forgetOldest (fence : DeletionFence) : DeletionFence :=
  match oldestName fence.deleted with
  | none => fence
  | some accountId =>
    { fence with
      floor := max fence.floor ((fence.deleted.lookup accountId).getD 0)
      deleted := fence.deleted.erase accountId }

/-- The account is deleted: its leases are revoked, and the open reads remember it. -/
def invalidate (fence : DeletionFence) (accountId : String) : DeletionFence :=
  let revoked :=
    { fence with
      leases := fence.leases.map fun lease =>
        if lease.grouped ∧ lease.accountId = some accountId then
          { lease with valid := false, grouped := false }
        else lease }
  if fence.reads = [] then revoked
  else
    let remembered := prune
      { revoked with
        sequence := fence.sequence + 1
        deleted := fence.deleted.insert accountId (fence.sequence + 1) }
    evictDown (fun fence : DeletionFence => mapSize fence.deleted) forgetOldest (fence.historyLimit + 1)
      (mapSize remembered.deleted) remembered

end DeletionFence

/-- A row of the session table, as far as the store reads it. -/
structure SessionRow where
  accountId : Option String
  sdkSessionId : Option String
  lineageState : Option SessionLineageState
  deriving DecidableEq

/-- A row binds only when it names both halves. -/
def entryOf (row : Option SessionRow) : Option SessionEntry :=
  match row.bind SessionRow.accountId, row.bind SessionRow.sdkSessionId with
  | some accountId, some sdkSessionId =>
    some { accountId, sdkSessionId
           lineage := (row.bind SessionRow.lineageState).getD { prefixHashes := [], assistantUuids := [] } }
  | _, _ => none

/-- The row that stores a binding, or that there is none. -/
def rowOf (entry : Option SessionEntry) : SessionRow where
  accountId := entry.map SessionEntry.accountId
  sdkSessionId := entry.map SessionEntry.sdkSessionId
  lineageState := entry.map SessionEntry.lineage

/-- A `binding` read past its cache miss, and the row once the database has read it. -/
structure BindingRead where
  ticket : ℕ
  apiKeyId : String
  sessionKey : String
  row : Option (Option SessionRow) := none
  deriving DecidableEq

/-- A row write behind the others of its key. -/
structure QueuedWrite where
  key : String
  apiKeyId : String
  sessionKey : String
  row : SessionRow
  lease : ℕ
  started : Bool
  landed : Bool := false
  deriving DecidableEq

/-- What a turn brings to the store, with what its keys and its fingerprint are made of. -/
structure StoreTurnInput extends ResolveTurnInput where
  apiKeyId : String
  sessionKey : String
  clientCwd : Option String
  firstUserText : String
  deriving DecidableEq

/-- What a turn's objects share, fixed when it was resolved; only the claim changes. -/
structure TurnContext where
  apiKeyId : String
  sessionKey : String
  accountId : String
  fingerprint : Option String
  claim : TurnClaim
  lease : ℕ
  prior : Option SessionEntry
  deriving DecidableEq

/-- The context's session key in the cache. -/
def TurnContext.key (context : TurnContext) : String := scopedKey context.apiKeyId context.sessionKey

/-- A turn handed to a caller: its context, its plan, and what it did. -/
structure TurnObject where
  context : ℕ
  turn : SessionTurn
  remembered : Bool := false
  released : Bool := false
  deriving DecidableEq

/-- How the attempt that ran a turn ended. -/
inductive TurnOutcome where
  | answered
  | failed
  deriving DecidableEq

/-- The digests the store uses: of a message, and of a conversation's opening. -/
structure Digests where
  message : String → String
  opening : String → String

/-- The state of a session store and of the table behind it. -/
structure SessionStore where
  options : SessionCacheOptions
  cache : SessionCache := {}
  fence : DeletionFence
  claimed : List String := []
  contexts : List TurnContext := []
  turns : List TurnObject := []
  reads : List BindingRead := []
  writes : List QueuedWrite := []
  rows : LruMap (String × String) SessionRow := ∅

/-- A store with nothing in it, in front of a table. -/
def createSessionStore (options : SessionCacheOptions) (rows : LruMap (String × String) SessionRow) :
    SessionStore where
  options := options
  fence := { historyLimit := max 1 options.maxEntries }
  rows := rows

/-- The SDK session a plan rejoins. -/
def SessionPlan.sdkSessionId? : SessionPlan → Option String
  | .resume sdkSessionId .. | .fork sdkSessionId .. => some sdkSessionId
  | .fresh _ => none

/-- The account a plan carries its transcript from. -/
def SessionPlan.carryFrom? : SessionPlan → Option String
  | .resume _ _ _ carryFrom | .fork _ _ _ carryFrom => carryFrom
  | .fresh _ => none

/-- The binding a turn can rejoin: its session key's own, else the one its fingerprint points at. -/
def boundSession (cache : SessionCache) (direct : Option (Option SessionEntry)) (apiKeyId accountId : String)
    (fingerprint : Option String) (clock : ℕ → ℤ) : Option BoundSession × SessionCache :=
  match direct with
  | some (some entry) => (some (entry.boundOn accountId), cache)
  | _ =>
    match fingerprint with
    | none => (none, cache)
    | some fingerprint =>
      match cache.aliased fingerprint (clock 1) with
      | (none, cache) => (none, cache)
      | (some aliased, cache) =>
        if !inScope apiKeyId aliased then (none, cache)
        else match cache.get aliased (clock 2) with
          | (some (some entry), cache) =>
            (if entry.accountId = accountId then some (entry.boundOn accountId) else none, cache)
          | (_, cache) => (none, cache)

namespace SessionStore

/-- Queue a row write; it starts at once when no other of its key is in flight. -/
def write (store : SessionStore) (apiKeyId sessionKey : String) (row : SessionRow) : SessionStore :=
  let (lease, fence) := store.fence.hold row.accountId
  let key := scopedKey apiKeyId sessionKey
  let queued : QueuedWrite :=
    { key, apiKeyId, sessionKey, row, lease, started := store.writes.all fun other => other.key != key }
  { store with fence, writes := store.writes ++ [queued] }

/-- `binding` begins: a cached key is answered from the cache, any other is read from the table. -/
def bindingBegin (store : SessionStore) (apiKeyId sessionKey : String) (clock : ℕ → ℤ) : SessionStore :=
  match store.cache.get (scopedKey apiKeyId sessionKey) (clock 0) with
  | (some _, cache) => { store with cache }
  | (none, cache) =>
    let (ticket, fence) := store.fence.read
    { store with cache, fence, reads := store.reads ++ [{ ticket, apiKeyId, sessionKey }] }

/-- The database reads the row of an open read. -/
def bindingTake (store : SessionStore) (ticket : ℕ) : SessionStore :=
  { store with
    reads := store.reads.map fun read =>
      if read.ticket = ticket then
        { read with row := some (store.rows.lookup (read.apiKeyId, read.sessionKey)) }
      else read }

/-- The read is over. -/
def closeRead (store : SessionStore) (ticket : ℕ) : SessionStore :=
  { store with
    fence := store.fence.releaseRead ticket
    reads := store.reads.filter fun read => read.ticket ≠ ticket }

/-- The row of an open read arrives: unless its account was deleted meanwhile, it is cached. -/
def bindingEnd (store : SessionStore) (ticket : ℕ) (clock : ℕ → ℤ) : SessionStore :=
  match store.reads.find? fun read => read.ticket = ticket with
  | none => store
  | some read =>
    match read.row with
    | none => store
    | some row =>
      let closed := store.closeRead ticket
      if store.fence.readValid ticket (row.bind SessionRow.accountId) then
        { closed with
          cache := store.cache.set store.options (scopedKey read.apiKeyId read.sessionKey) (entryOf row)
            (clock 0) }
      else closed

/-- The read failed: nothing is cached. -/
def bindingFail (store : SessionStore) (ticket : ℕ) : SessionStore :=
  if store.reads.any fun read => read.ticket = ticket then store.closeRead ticket else store

/-- The bound session is gone: dropped here, and cleared in the table. -/
def invalidate (store : SessionStore) (apiKeyId sessionKey : String) (clock : ℕ → ℤ) : SessionStore :=
  let key := scopedKey apiKeyId sessionKey
  let dropped := { store with cache := (store.cache.drop key).set store.options key none (clock 0) }
  dropped.write apiKeyId sessionKey (rowOf none)

/-- The account is deleted: its sessions leave the cache at once. -/
def invalidateAccount (store : SessionStore) (accountId : String) : SessionStore :=
  { store with fence := store.fence.invalidate accountId, cache := store.cache.dropAccount accountId }

/-- The statement that clears an account's bindings takes effect in the table. -/
def clearAccount (store : SessionStore) (accountId : String) : SessionStore :=
  { store with
    rows := store.rows.keys.foldl (fun rows name =>
      match store.rows.lookup name with
      | some row => if row.accountId = some accountId then rows.insert name (rowOf none) else rows
      | none => rows) store.rows }

/-- Plan a turn and claim its conversation. A turn that is refused, or that brought nothing to hash,
records nothing. -/
def resolve (digests : Digests) (store : SessionStore) (input : StoreTurnInput) (clock : ℕ → ℤ) :
    SessionStore :=
  let key := scopedKey input.apiKeyId input.sessionKey
  let fingerprint := input.conversation.map fun _ => sessionFingerprint digests.opening
    { apiKeyId := input.apiKeyId, accountId := input.accountId
      clientCwd := input.clientCwd, firstUserText := input.firstUserText }
  let (direct, cache) := store.cache.get key (clock 0)
  let (session, cache) := boundSession cache direct input.apiKeyId input.accountId fingerprint clock
  let candidate := candidatePlan digests.message session input.toResolveTurnInput
  let (claim, claimed) := claimSessionTurn store.claimed key input.accountId candidate.sdkSessionId?
  let turn := resolveTurn digests.message session input.toResolveTurnInput claim.held
  let (lease, fence) := store.fence.hold (some input.accountId)
  { store with
    cache, claimed
    -- Only a turn that records holds a lease.
    fence := match turn with
      | .unrecorded _ => store.fence
      | .held _ => fence
    contexts := store.contexts ++
      [{ apiKeyId := input.apiKeyId, sessionKey := input.sessionKey, accountId := input.accountId
         fingerprint, claim, lease, prior := direct.join }]
    turns := store.turns ++ [{ context := store.contexts.length, turn }] }

/-- The transcript of a turn that rejoins another account's session was moved, or could not be: then
a fresh turn of the same context takes its place. -/
def prepare (store : SessionStore) (number : ℕ) (moved : Bool) : SessionStore :=
  match store.turns[number]? with
  | some { context, turn := .held turn, .. } =>
    if turn.prepare moved = turn then store
    else { store with turns := store.turns ++ [{ context, turn := .held (turn.prepare moved) }] }
  | _ => store

/-- The claims of a context, and the keys claimed in all. -/
def withClaim (store : SessionStore) (number : ℕ) (context : TurnContext) (claim : TurnClaim)
    (claimed : List String) : SessionStore :=
  { store with claimed, contexts := store.contexts.set number { context with claim } }

/-- Store the binding of a context, point its fingerprint at it, and queue its row. -/
def recordBinding (store : SessionStore) (context : TurnContext) (entry : SessionEntry) (clock : ℕ → ℤ) :
    SessionStore :=
  let cached := store.cache.set store.options context.key (some entry) (clock 0)
  let aliased := match context.fingerprint with
    | none => cached
    | some fingerprint => cached.setAlias store.options fingerprint context.key (clock 1)
  { store with cache := aliased }.write context.apiKeyId context.sessionKey (rowOf (some entry))

/-- The SDK named its session: the turn records it, unless its account was deleted or another turn
owns that session. -/
def remember (store : SessionStore) (number : ℕ) (sdkSessionId : String) (assistantUuid : Option String)
    (clock : ℕ → ℤ) : SessionStore :=
  match store.turns[number]? with
  | some { context := place, turn := .held turn, released, .. } =>
    match store.contexts[place]? with
    | none => store
    | some context =>
      if !store.fence.leaseValid context.lease then store
      else
        let (owned, claim, claimed) := context.claim.own store.claimed sdkSessionId
        let asked := store.withClaim place context claim claimed
        if !owned then asked
        else
          let recorded := asked.recordBinding context (turn.remember sdkSessionId assistantUuid) clock
          { recorded with
            turns := store.turns.set number { context := place, turn := .held turn, remembered := true, released } }
  | _ => store

/-- Put the session key back the way the turn found it. -/
def withdraw (store : SessionStore) (context : TurnContext) (clock : ℕ → ℤ) : SessionStore :=
  { store with cache := store.cache.set store.options context.key context.prior (clock 0) }.write
    context.apiKeyId context.sessionKey (rowOf context.prior)

/-- The turn is over: a failed one withdraws what it recorded, and the claim and the lease go. -/
def release (store : SessionStore) (number : ℕ) (outcome : TurnOutcome) (clock : ℕ → ℤ) : SessionStore :=
  match store.turns[number]? with
  | none => store
  | some { context := place, turn, remembered, released } =>
    match store.contexts[place]? with
    | none => store
    | some context =>
      let (claim, claimed) := context.claim.release store.claimed
      match turn with
      | .unrecorded _ => store.withClaim place context claim claimed
      | .held _ =>
        let withdraws := !released && outcome = .failed && remembered && store.fence.leaseValid context.lease
        let settled := if withdraws then store.withdraw context clock else store
        let freed := settled.withClaim place context claim claimed
        { freed with
          fence := freed.fence.releaseLease context.lease
          turns := store.turns.set number { context := place, turn, remembered, released := true } }

/-- The write at the head of a key's queue. -/
def headWrite (store : SessionStore) (key : String) : Option QueuedWrite :=
  store.writes.find? fun queued => queued.key = key

/-- The head of a key's queue leaves it. -/
def settleWrite (store : SessionStore) (key : String) (queued : QueuedWrite) : SessionStore :=
  { store with
    writes := store.writes.eraseP fun other => other.key = key
    fence := store.fence.releaseLease queued.lease }

/-- The head of a key's queue runs: a revoked write is skipped. -/
def writeStart (store : SessionStore) (key : String) : SessionStore :=
  match store.headWrite key with
  | none => store
  | some queued =>
    if queued.started then store
    else if store.fence.leaseValid queued.lease then
      { store with
        writes := store.writes.map fun other =>
          if other = queued then { other with started := true } else other }
    else store.settleWrite key queued

/-- A started write takes effect in the table. -/
def writeLand (store : SessionStore) (key : String) : SessionStore :=
  match store.headWrite key with
  | none => store
  | some queued =>
    if queued.started && !queued.landed then
      { store with
        rows := store.rows.insert (queued.apiKeyId, queued.sessionKey) queued.row
        writes := store.writes.map fun other =>
          if other = queued then { other with landed := true } else other }
    else store

/-- A started write has been answered, whatever became of it. -/
def writeSettle (store : SessionStore) (key : String) : SessionStore :=
  match store.headWrite key with
  | none => store
  | some queued => if queued.started then store.settleWrite key queued else store

/-- Someone else wrote the row, or deleted it. -/
def storeRow (store : SessionStore) (apiKeyId sessionKey : String) (row : Option SessionRow) : SessionStore :=
  { store with
    rows := match row with
      | some row => store.rows.insert (apiKeyId, sessionKey) row
      | none => store.rows.erase (apiKeyId, sessionKey) }

end SessionStore

/-- A step of the store. -/
inductive StoreCall where
  | bindingBegin (apiKeyId sessionKey : String)
  | bindingTake (ticket : ℕ)
  | bindingEnd (ticket : ℕ)
  | bindingFail (ticket : ℕ)
  | invalidate (apiKeyId sessionKey : String)
  | invalidateAccount (accountId : String)
  | clearAccount (accountId : String)
  | resolve (input : StoreTurnInput)
  | prepare (turn : ℕ) (moved : Bool)
  | remember (turn : ℕ) (sdkSessionId : String) (assistantUuid : Option String)
  | release (turn : ℕ) (outcome : TurnOutcome)
  | writeStart (key : String)
  | writeLand (key : String)
  | writeSettle (key : String)
  | storeRow (apiKeyId sessionKey : String) (row : Option SessionRow)
  deriving DecidableEq

/-- A step and the clock readings it takes. -/
structure StoreStep where
  call : StoreCall
  clock : ℕ → ℤ := fun _ => 0

/-- The store after a step. -/
def SessionStore.step (digests : Digests) (store : SessionStore) (timed : StoreStep) : SessionStore :=
  match timed.call with
  | .bindingBegin apiKeyId sessionKey => store.bindingBegin apiKeyId sessionKey timed.clock
  | .bindingTake ticket => store.bindingTake ticket
  | .bindingEnd ticket => store.bindingEnd ticket timed.clock
  | .bindingFail ticket => store.bindingFail ticket
  | .invalidate apiKeyId sessionKey => store.invalidate apiKeyId sessionKey timed.clock
  | .invalidateAccount accountId => store.invalidateAccount accountId
  | .clearAccount accountId => store.clearAccount accountId
  | .resolve input => store.resolve digests input timed.clock
  | .prepare turn moved => store.prepare turn moved
  | .remember turn sdkSessionId assistantUuid => store.remember turn sdkSessionId assistantUuid timed.clock
  | .release turn outcome => store.release turn outcome timed.clock
  | .writeStart key => store.writeStart key
  | .writeLand key => store.writeLand key
  | .writeSettle key => store.writeSettle key
  | .storeRow apiKeyId sessionKey row => store.storeRow apiKeyId sessionKey row

end MultiAiRouter.ClaudeSdk
