import MultiAiRouter.ClaudeSdk.Session.StoreClaims

/-!
# What a step of the store caches

A step of the store changes the cache in one of three ways. A local write stores what a turn or an
invalidation knows. A read that arrives stores its row. Every other step only takes.
-/

namespace MultiAiRouter.ClaudeSdk

open Common

/-- A value written under a session key by a call, not by a read. -/
structure LocalWrite where
  apiKeyId : String
  sessionKey : String
  value : Option SessionEntry
  deriving DecidableEq

/-- The key of a local write in the cache. -/
def LocalWrite.key (write : LocalWrite) : String := scopedKey write.apiKeyId write.sessionKey

/-- The key a read asks for in the cache. -/
def BindingRead.key (read : BindingRead) : String := scopedKey read.apiKeyId read.sessionKey

namespace SessionStore

variable {digests : Digests} {store : SessionStore}

/-- What a turn writes when the SDK names its session: nothing if it records nothing, its account was deleted, or
another turn owns the session. -/
def rememberWrite (store : SessionStore) (number : ℕ) (sdkSessionId : String) (assistantUuid : Option String) :
    Option LocalWrite :=
  match store.turns[number]? with
  | some { context := place, turn := .held turn, .. } =>
    match store.contexts[place]? with
    | none => none
    | some context =>
      if store.fence.leaseValid context.lease && (context.claim.own store.claimed sdkSessionId).1 then
        some { apiKeyId := context.apiKeyId, sessionKey := context.sessionKey
               value := some (turn.remember sdkSessionId assistantUuid) }
      else none
  | _ => none

/-- What a turn writes when it ends: the first release of a failed turn withdraws what it recorded. -/
def releaseWrite (store : SessionStore) (number : ℕ) (outcome : TurnOutcome) : Option LocalWrite :=
  match store.turns[number]? with
  | some { context := place, turn := .held _, remembered, released } =>
    match store.contexts[place]? with
    | none => none
    | some context =>
      if !released && outcome = .failed && remembered && store.fence.leaseValid context.lease then
        some { apiKeyId := context.apiKeyId, sessionKey := context.sessionKey, value := context.prior }
      else none
  | _ => none

/-- The local write a call makes. -/
def localWrite (store : SessionStore) : StoreCall → Option LocalWrite
  | .remember number sdkSessionId assistantUuid => store.rememberWrite number sdkSessionId assistantUuid
  | .release number outcome => store.releaseWrite number outcome
  | .invalidate apiKeyId sessionKey => some { apiKeyId, sessionKey, value := none }
  | _ => none

/-- The read a call brings back, and its row, when it is cached. -/
def arrival (store : SessionStore) : StoreCall → Option (BindingRead × Option SessionRow)
  | .bindingEnd ticket =>
    match store.reads.find? fun read => read.ticket = ticket with
    | none => none
    | some read =>
      match read.row with
      | none => none
      | some row =>
        if store.fence.readValid ticket (row.bind SessionRow.accountId) then some (read, row) else none
  | _ => none

/-- A turn that remembers stores its local write, or leaves the cache. -/
theorem remember_cache (number : ℕ) (id : String) (uuid : Option String) (clock : ℕ → ℤ) :
    (∃ write, store.rememberWrite number id uuid = some write ∧
        SessionCache.Stores write.key write.value store.cache (store.remember number id uuid clock).cache) ∨
      (store.rememberWrite number id uuid = none ∧ (store.remember number id uuid clock).cache = store.cache) := by
  unfold rememberWrite remember
  cases hturn : store.turns[number]? with
  | none => exact .inr ⟨rfl, rfl⟩
  | some object =>
    obtain ⟨place, turn, remembered, released⟩ := object
    cases turn with
    | unrecorded plan => exact .inr ⟨rfl, rfl⟩
    | held turn =>
      dsimp only
      cases hcontext : store.contexts[place]? with
      | none => exact .inr ⟨rfl, rfl⟩
      | some context =>
        dsimp only
        cases hvalid : store.fence.leaseValid context.lease with
        | false => exact .inr ⟨rfl, rfl⟩
        | true =>
          cases howned : (context.claim.own store.claimed id).1 with
          | false => exact .inr ⟨rfl, rfl⟩
          | true =>
            refine .inl ⟨_, rfl, ?_⟩
            -- The binding is stored first; pointing the fingerprint at it only evicts.
            have hset := SessionCache.set_stores store.cache store.options context.key
              (some (turn.remember id uuid)) (clock 0)
            simp only [Bool.not_true, Bool.false_eq_true, if_false, recordBinding, withClaim, write_cache]
            cases context.fingerprint with
            | none => exact hset
            | some fingerprint =>
              exact SessionCache.setAlias_stores store.options fingerprint context.key (clock 1) hset

/-- A turn that ends stores its local write, or leaves the cache. -/
theorem release_cache (number : ℕ) (outcome : TurnOutcome) (clock : ℕ → ℤ) :
    (∃ write, store.releaseWrite number outcome = some write ∧
        SessionCache.Stores write.key write.value store.cache (store.release number outcome clock).cache) ∨
      (store.releaseWrite number outcome = none ∧ (store.release number outcome clock).cache = store.cache) := by
  unfold releaseWrite release
  cases hturn : store.turns[number]? with
  | none => exact .inr ⟨rfl, rfl⟩
  | some object =>
    obtain ⟨place, turn, remembered, released⟩ := object
    cases turn with
    | unrecorded plan =>
      refine .inr ⟨rfl, ?_⟩
      dsimp only
      split <;> rfl
    | held turn =>
      dsimp only
      cases hcontext : store.contexts[place]? with
      | none => exact .inr ⟨rfl, rfl⟩
      | some context =>
        dsimp only
        cases hwithdraws : !released && decide (outcome = .failed) && remembered &&
            store.fence.leaseValid context.lease with
        | true =>
          refine .inl ⟨_, rfl, ?_⟩
          exact SessionCache.set_stores store.cache store.options context.key context.prior (clock 0)
        | false => exact .inr ⟨rfl, rfl⟩

/-- A read that ends stores its row, or leaves the cache. -/
theorem bindingEnd_cache (ticket : ℕ) (clock : ℕ → ℤ) :
    (∃ read row, store.arrival (.bindingEnd ticket) = some (read, row) ∧
        SessionCache.Stores read.key (entryOf row) store.cache (store.bindingEnd ticket clock).cache) ∨
      (store.arrival (.bindingEnd ticket) = none ∧ (store.bindingEnd ticket clock).cache = store.cache) := by
  simp only [arrival, bindingEnd]
  cases hread : store.reads.find? fun read => read.ticket = ticket with
  | none => exact .inr ⟨rfl, rfl⟩
  | some read =>
    dsimp only
    cases hrow : read.row with
    | none => exact .inr ⟨rfl, rfl⟩
    | some row =>
      dsimp only
      cases hvalid : store.fence.readValid ticket (row.bind SessionRow.accountId) with
      | true =>
        refine .inl ⟨read, row, rfl, ?_⟩
        exact SessionCache.set_stores store.cache store.options read.key (entryOf row) (clock 0)
      | false => exact .inr ⟨rfl, rfl⟩

/-- What arrives is the row of an open read that is not fenced. -/
theorem arrival_eq_some {call : StoreCall} {read : BindingRead} {row : Option SessionRow}
    (h : store.arrival call = some (read, row)) : ∃ ticket, call = .bindingEnd ticket ∧
      (store.reads.find? fun read => read.ticket = ticket) = some read ∧ read.row = some row ∧
      store.fence.readValid ticket (row.bind SessionRow.accountId) = true := by
  cases call with
  | bindingEnd ticket =>
    simp only [arrival] at h
    split at h
    · cases h
    · next found hfound =>
      split at h
      · cases h
      · next brought hrow =>
        split at h
        · next hvalid =>
          obtain ⟨rfl, rfl⟩ := Prod.mk.inj (Option.some.inj h)
          exact ⟨ticket, rfl, hfound, hrow, hvalid⟩
        · cases h
  | _ => cases h

/-- How a step changes the cache. -/
inductive CacheMove (store after : SessionStore) (call : StoreCall) : Prop
  | wrote (write : LocalWrite) (hwrite : store.localWrite call = some write)
      (harrival : store.arrival call = none)
      (hcache : SessionCache.Stores write.key write.value store.cache after.cache)
  | arrived (read : BindingRead) (row : Option SessionRow) (hwrite : store.localWrite call = none)
      (harrival : store.arrival call = some (read, row))
      (hcache : SessionCache.Stores read.key (entryOf row) store.cache after.cache)
  | kept (hwrite : store.localWrite call = none) (harrival : store.arrival call = none)
      (hcache : SessionCache.Within store.cache after.cache)

/-- Every step changes the cache in one of the three ways. -/
theorem step_cache (store : SessionStore) (timed : StoreStep) :
    CacheMove store (store.step digests timed) timed.call := by
  obtain ⟨call, clock⟩ := timed
  have hsame {after : SessionStore} (hcache : after.cache = store.cache) :
      SessionCache.Within store.cache after.cache := hcache ▸ .refl _
  cases call with
  | bindingBegin apiKeyId sessionKey =>
    refine .kept rfl rfl ?_
    have hget := SessionCache.get_within store.cache (scopedKey apiKeyId sessionKey) (clock 0)
    simp only [step, bindingBegin]
    split
    · next hfound => rw [hfound] at hget; exact hget
    · next hfound => rw [hfound] at hget; exact hget
  | bindingTake ticket => exact .kept rfl rfl (.refl _)
  | bindingEnd ticket =>
    rcases @bindingEnd_cache store ticket clock with ⟨read, row, harrival, hcache⟩ | ⟨harrival, hcache⟩
    · exact .arrived read row rfl harrival hcache
    · exact .kept rfl harrival (hsame hcache)
  | bindingFail ticket =>
    refine .kept rfl rfl (hsame ?_)
    simp only [step, bindingFail]
    split <;> rfl
  | invalidate apiKeyId sessionKey =>
    refine .wrote _ rfl rfl ?_
    exact (SessionCache.removeEntry_within store.cache _).stores
      (SessionCache.set_stores _ store.options (scopedKey apiKeyId sessionKey) none (clock 0))
  | invalidateAccount accountId => exact .kept rfl rfl (SessionCache.dropAccount_within _ _)
  | clearAccount accountId => exact .kept rfl rfl (.refl _)
  | resolve input => exact .kept rfl rfl (resolve_storesNothing input clock).1
  | prepare number moved =>
    refine .kept rfl rfl (hsame ?_)
    simp only [step, prepare]
    split
    · split <;> rfl
    · rfl
  | remember number id uuid =>
    rcases @remember_cache store number id uuid clock with ⟨write, hwrite, hcache⟩ | ⟨hwrite, hcache⟩
    · exact .wrote write hwrite rfl hcache
    · exact .kept hwrite rfl (hsame hcache)
  | release number outcome =>
    rcases @release_cache store number outcome clock with ⟨write, hwrite, hcache⟩ | ⟨hwrite, hcache⟩
    · exact .wrote write hwrite rfl hcache
    · exact .kept hwrite rfl (hsame hcache)
  | writeStart key =>
    refine .kept rfl rfl (hsame ?_)
    simp only [step, writeStart]
    split
    · rfl
    · split
      · rfl
      · split <;> rfl
  | writeLand key =>
    refine .kept rfl rfl (hsame ?_)
    simp only [step, writeLand]
    split
    · rfl
    · split <;> rfl
  | writeSettle key =>
    refine .kept rfl rfl (hsame ?_)
    simp only [step, writeSettle]
    split
    · rfl
    · split <;> rfl
  | storeRow apiKeyId sessionKey row => exact .kept rfl rfl (.refl _)

/-- The reads after a step: each was open before, with its row or the one just read for it, or it began in this
step, past a cache that holds nothing under its key. -/
theorem step_reads (store : SessionStore) (timed : StoreStep) {read : BindingRead}
    (h : read ∈ (store.step digests timed).reads) :
    (∃ before ∈ store.reads, before.ticket = read.ticket ∧ before.apiKeyId = read.apiKeyId ∧
        before.sessionKey = read.sessionKey ∧ (read.row = before.row ∨
          read.row = some (store.rows.lookup (read.apiKeyId, read.sessionKey)))) ∨
      (timed.call = .bindingBegin read.apiKeyId read.sessionKey ∧
        read.ticket = (store.step digests timed).fence.sequence ∧ read.row = none ∧
        (store.step digests timed).cache.entries.lookup read.key = none) := by
  obtain ⟨call, clock⟩ := timed
  have hsame (hmem : read ∈ store.reads) : ∃ before ∈ store.reads, before.ticket = read.ticket ∧
      before.apiKeyId = read.apiKeyId ∧ before.sessionKey = read.sessionKey ∧ (read.row = before.row ∨
        read.row = some (store.rows.lookup (read.apiKeyId, read.sessionKey))) :=
    ⟨read, hmem, rfl, rfl, rfl, .inl rfl⟩
  cases call with
  | bindingBegin apiKeyId sessionKey =>
    have hmiss := @SessionCache.get_miss store.cache (scopedKey apiKeyId sessionKey) (clock 0)
    simp only [step, bindingBegin] at h ⊢
    split at h
    · exact .inl (hsame h)
    · next cache hfound =>
      rcases List.mem_append.mp h with hold | hnew
      · exact .inl (hsame hold)
      · rw [List.mem_singleton] at hnew
        subst hnew
        rw [hfound] at hmiss
        exact .inr ⟨rfl, rfl, rfl, hmiss rfl⟩
  | bindingTake ticket =>
    obtain ⟨before, hbefore, hread⟩ := List.mem_map.mp h
    refine .inl ⟨before, hbefore, ?_⟩
    split at hread
    · subst hread
      exact ⟨rfl, rfl, rfl, .inr rfl⟩
    · subst hread
      exact ⟨rfl, rfl, rfl, .inl rfl⟩
  | bindingEnd ticket =>
    refine .inl (hsame ?_)
    simp only [step, bindingEnd] at h
    split at h
    · exact h
    · split at h
      · exact h
      · split at h <;> exact List.mem_of_mem_filter h
  | bindingFail ticket =>
    refine .inl (hsame ?_)
    simp only [step, bindingFail] at h
    split at h
    · exact List.mem_of_mem_filter h
    · exact h
  | prepare number moved =>
    refine .inl (hsame ?_)
    simp only [step, prepare] at h
    split at h
    · split at h <;> exact h
    · exact h
  | remember number id uuid =>
    refine .inl (hsame ?_)
    simp only [step, remember] at h
    split at h
    · split at h
      · exact h
      · split at h
        · exact h
        · split at h <;> exact h
    · exact h
  | release number outcome =>
    refine .inl (hsame ?_)
    simp only [step, release] at h
    split at h
    · exact h
    · split at h
      · exact h
      · split at h
        · exact h
        · split at h <;> exact h
  | writeStart key =>
    refine .inl (hsame ?_)
    simp only [step, writeStart] at h
    split at h
    · exact h
    · split at h
      · exact h
      · split at h <;> exact h
  | writeLand key =>
    refine .inl (hsame ?_)
    simp only [step, writeLand] at h
    split at h
    · exact h
    · split at h <;> exact h
  | writeSettle key =>
    refine .inl (hsame ?_)
    simp only [step, writeSettle] at h
    split at h
    · exact h
    · split at h <;> exact h
  | invalidate | invalidateAccount | clearAccount | resolve | storeRow => exact .inl (hsame h)

/-- The contexts after a step: each was there before, or belongs to the turn just resolved. -/
theorem step_contexts (store : SessionStore) (timed : StoreStep) {context : TurnContext}
    (h : context ∈ (store.step digests timed).contexts) :
    (∃ before ∈ store.contexts, before.apiKeyId = context.apiKeyId ∧ before.prior = context.prior) ∨
      ∃ input, timed.call = .resolve input ∧ context.apiKeyId = input.apiKeyId ∧
        context.prior = (store.cache.get (scopedKey input.apiKeyId input.sessionKey) (timed.clock 0)).1.join := by
  obtain ⟨call, clock⟩ := timed
  have hsame {after : SessionStore} (hclaims : SameClaims store after) (hmem : context ∈ after.contexts) :
      ∃ before ∈ store.contexts, before.apiKeyId = context.apiKeyId ∧ before.prior = context.prior :=
    ⟨context, hclaims.1 ▸ hmem, rfl, rfl⟩
  have hset {place : ℕ} {old : TurnContext} {claim : TurnClaim} (hold : store.contexts[place]? = some old)
      (hmem : context ∈ store.contexts.set place { old with claim }) :
      ∃ before ∈ store.contexts, before.apiKeyId = context.apiKeyId ∧ before.prior = context.prior := by
    rcases List.mem_or_eq_of_mem_set hmem with hmem | rfl
    · exact ⟨context, hmem, rfl, rfl⟩
    · exact ⟨old, List.mem_of_getElem? hold, rfl, rfl⟩
  cases call with
  | resolve input =>
    rcases List.mem_append.mp h with hold | hnew
    · exact .inl ⟨context, hold, rfl, rfl⟩
    · rw [List.mem_singleton] at hnew
      subst hnew
      exact .inr ⟨input, rfl, rfl, rfl⟩
  | remember number id uuid =>
    refine .inl ?_
    simp only [step, remember] at h
    split at h
    · split at h
      · exact hsame ⟨rfl, rfl⟩ h
      · next old hold =>
        split at h
        · exact hsame ⟨rfl, rfl⟩ h
        · split at h <;> exact hset hold h
    · exact hsame ⟨rfl, rfl⟩ h
  | release number outcome =>
    refine .inl ?_
    simp only [step, release] at h
    split at h
    · exact hsame ⟨rfl, rfl⟩ h
    · split at h
      · exact hsame ⟨rfl, rfl⟩ h
      · next old hold =>
        split at h
        · exact hset hold h
        · split at h <;> exact hset hold h
  | bindingBegin apiKeyId sessionKey => exact .inl (hsame (bindingBegin_frame _ _ _).1 h)
  | bindingEnd ticket => exact .inl (hsame (bindingEnd_frame _ _).1 h)
  | bindingFail ticket => exact .inl (hsame (bindingFail_frame _).1 h)
  | prepare number moved => exact .inl (hsame (prepare_sameClaims _ _) h)
  | writeStart key => exact .inl (hsame (writeStart_frame _).1 h)
  | writeLand key => exact .inl (hsame (writeLand_frame _).1 h)
  | writeSettle key => exact .inl (hsame (writeSettle_frame _).1 h)
  | bindingTake | invalidate | invalidateAccount | clearAccount | storeRow =>
    exact .inl (hsame ⟨rfl, rfl⟩ h)

end SessionStore

end MultiAiRouter.ClaudeSdk
