import MultiAiRouter.ClaudeSdk.Session.Store
import MultiAiRouter.ClaudeSdk.Session.CacheContents

/-!
# One turn per conversation

Whatever the order of the store's steps, the claims of its turns form an exclusive table.
-/

namespace MultiAiRouter.ClaudeSdk

open Common

namespace SessionStore

variable {digests : Digests} {store : SessionStore}

/-- The claims of the contexts and the keys claimed are as they were. -/
def SameClaims (before after : SessionStore) : Prop :=
  after.contexts = before.contexts ∧ after.claimed = before.claimed

/-- How a step may change the claims. -/
inductive ClaimsMove (before after : SessionStore) : Prop
  | same (h : SameClaims before after)
  | claim (context : TurnContext) (id : Option String)
      (hcontexts : after.contexts = before.contexts ++ [context])
      (hclaim : (context.claim, after.claimed) = claimSessionTurn before.claimed context.key context.accountId id)
  | own (place : ℕ) (context : TurnContext) (id : String)
      (hcontext : before.contexts[place]? = some context)
      (hcontexts : after.contexts =
        before.contexts.set place { context with claim := (context.claim.own before.claimed id).2.1 })
      (hclaimed : after.claimed = (context.claim.own before.claimed id).2.2)
  | release (place : ℕ) (context : TurnContext) (hcontext : before.contexts[place]? = some context)
      (hcontexts : after.contexts =
        before.contexts.set place { context with claim := (context.claim.release before.claimed).1 })
      (hclaimed : after.claimed = (context.claim.release before.claimed).2)

section Frames

@[simp] theorem write_turns (apiKeyId sessionKey : String) (row : SessionRow) :
    (store.write apiKeyId sessionKey row).turns = store.turns := rfl

@[simp] theorem write_cache (apiKeyId sessionKey : String) (row : SessionRow) :
    (store.write apiKeyId sessionKey row).cache = store.cache := rfl

theorem bindingBegin_frame (apiKeyId sessionKey : String) (clock : ℕ → ℤ) :
    SameClaims store (store.bindingBegin apiKeyId sessionKey clock) ∧
      (store.bindingBegin apiKeyId sessionKey clock).turns = store.turns := by
  unfold bindingBegin
  split <;> exact ⟨⟨rfl, rfl⟩, rfl⟩

/-- A read that ends leaves the claims. -/
theorem bindingEnd_frame (ticket : ℕ) (clock : ℕ → ℤ) : SameClaims store (store.bindingEnd ticket clock) ∧
      (store.bindingEnd ticket clock).turns = store.turns := by
  unfold bindingEnd
  split
  · exact ⟨⟨rfl, rfl⟩, rfl⟩
  split
  · exact ⟨⟨rfl, rfl⟩, rfl⟩
  dsimp only
  split <;> exact ⟨⟨rfl, rfl⟩, rfl⟩

theorem bindingFail_frame (ticket : ℕ) :
    SameClaims store (store.bindingFail ticket) ∧ (store.bindingFail ticket).turns = store.turns := by
  unfold bindingFail
  split <;> exact ⟨⟨rfl, rfl⟩, rfl⟩

theorem writeStart_frame (key : String) :
    SameClaims store (store.writeStart key) ∧ (store.writeStart key).turns = store.turns := by
  unfold writeStart
  split
  · exact ⟨⟨rfl, rfl⟩, rfl⟩
  split
  · exact ⟨⟨rfl, rfl⟩, rfl⟩
  split <;> exact ⟨⟨rfl, rfl⟩, rfl⟩

theorem writeLand_frame (key : String) :
    SameClaims store (store.writeLand key) ∧ (store.writeLand key).turns = store.turns := by
  unfold writeLand
  split
  · exact ⟨⟨rfl, rfl⟩, rfl⟩
  split <;> exact ⟨⟨rfl, rfl⟩, rfl⟩

theorem writeSettle_frame (key : String) :
    SameClaims store (store.writeSettle key) ∧ (store.writeSettle key).turns = store.turns := by
  unfold writeSettle
  split
  · exact ⟨⟨rfl, rfl⟩, rfl⟩
  split <;> exact ⟨⟨rfl, rfl⟩, rfl⟩

theorem prepare_sameClaims (number : ℕ) (moved : Bool) : SameClaims store (store.prepare number moved) := by
  unfold prepare
  split
  · split <;> exact ⟨rfl, rfl⟩
  · exact ⟨rfl, rfl⟩

end Frames

/-- Resolving a turn claims for it. -/
theorem resolve_claims (input : StoreTurnInput) (clock : ℕ → ℤ) :
    ClaimsMove store (store.resolve digests input clock) :=
  .claim _ _ rfl rfl

/-- Remembering a session asks for it. -/
theorem remember_claims (number : ℕ) (sdkSessionId : String) (assistantUuid : Option String)
    (clock : ℕ → ℤ) : ClaimsMove store (store.remember number sdkSessionId assistantUuid clock) := by
  unfold remember
  split
  · next place turn released remembered hturn =>
    cases hcontext : store.contexts[place]? with
    | none => exact .same ⟨rfl, rfl⟩
    | some context =>
      dsimp only
      split
      · exact .same ⟨rfl, rfl⟩
      · split <;> exact .own place context sdkSessionId hcontext rfl rfl
  · exact .same ⟨rfl, rfl⟩

/-- Releasing a turn releases its claims. -/
theorem release_claims (number : ℕ) (outcome : TurnOutcome) (clock : ℕ → ℤ) :
    ClaimsMove store (store.release number outcome clock) := by
  unfold release
  split
  · exact .same ⟨rfl, rfl⟩
  · next place turn remembered released hturn =>
    cases hcontext : store.contexts[place]? with
    | none => exact .same ⟨rfl, rfl⟩
    | some context =>
      dsimp only
      split
      · exact .release place context hcontext rfl rfl
      · refine .release place context hcontext ?_ ?_
        · split <;> rfl
        · split <;> rfl

/-- Every step moves the claims in one of the four ways. -/
theorem step_claims (store : SessionStore) (timed : StoreStep) : ClaimsMove store (store.step digests timed) := by
  unfold step
  split
  · exact .same (bindingBegin_frame _ _ _).1
  · exact .same ⟨rfl, rfl⟩
  · exact .same (bindingEnd_frame _ _).1
  · exact .same (bindingFail_frame _).1
  · exact .same ⟨rfl, rfl⟩
  · exact .same ⟨rfl, rfl⟩
  · exact .same ⟨rfl, rfl⟩
  · exact resolve_claims _ _
  · exact .same (prepare_sameClaims _ _)
  · exact remember_claims _ _ _ _
  · exact release_claims _ _ _
  · exact .same (writeStart_frame _).1
  · exact .same (writeLand_frame _).1
  · exact .same (writeSettle_frame _).1
  · exact .same ⟨rfl, rfl⟩

/-- The turns after a step: each is one from before, the one that was just resolved, or takes the place of one that
holds its conversation. -/
theorem step_turns (store : SessionStore) (timed : StoreStep) {object : TurnObject}
    (h : object ∈ (store.step digests timed).turns) :
    (∃ before ∈ store.turns, before.context = object.context ∧ before.turn = object.turn) ∨
      (∃ before ∈ store.turns, before.context = object.context ∧ ∃ held, before.turn = SessionTurn.held held) ∨
      (object.context = store.contexts.length ∧ ∃ context plan,
        (store.step digests timed).contexts = store.contexts ++ [context] ∧
        (context.claim.held = false → object.turn = .unrecorded plan)) := by
  have hsame {turns : List TurnObject} (hturns : turns = store.turns) (hmem : object ∈ turns) :
      ∃ before ∈ store.turns, before.context = object.context ∧ before.turn = object.turn :=
    ⟨object, hturns ▸ hmem, rfl, rfl⟩
  -- A turn that was written back kept its context and its plan.
  have hset {number : ℕ} {before after : TurnObject} (hbefore : store.turns[number]? = some before)
      (hmem : object ∈ store.turns.set number after) (hcontext : before.context = after.context)
      (hturn : before.turn = after.turn) :
      ∃ before ∈ store.turns, before.context = object.context ∧ before.turn = object.turn := by
    rcases List.mem_or_eq_of_mem_set hmem with hold | rfl
    · exact ⟨object, hold, rfl, rfl⟩
    · exact ⟨before, List.mem_of_getElem? hbefore, hcontext, hturn⟩
  revert h
  unfold step
  split
  · exact fun h => .inl (hsame (bindingBegin_frame _ _ _).2 h)
  · exact fun h => .inl (hsame rfl h)
  · exact fun h => .inl (hsame (bindingEnd_frame _ _).2 h)
  · exact fun h => .inl (hsame (bindingFail_frame _).2 h)
  · exact fun h => .inl (hsame rfl h)
  · exact fun h => .inl (hsame rfl h)
  · exact fun h => .inl (hsame rfl h)
  · next input _ =>
    intro h
    rcases List.mem_append.mp h with hold | hnew
    · exact .inl ⟨object, hold, rfl, rfl⟩
    · rw [List.mem_singleton] at hnew
      subst hnew
      refine .inr (.inr ⟨rfl, _, .fresh .sessionBusy, rfl, fun hrefused => ?_⟩)
      exact resolveTurn_refused hrefused
  · next number moved _ =>
    unfold prepare
    split
    · next context turn remembered released hturn =>
      split
      · exact fun h => .inl (hsame rfl h)
      · intro h
        rcases List.mem_append.mp h with hold | hnew
        · exact .inl ⟨object, hold, rfl, rfl⟩
        · rw [List.mem_singleton] at hnew
          subst hnew
          exact .inr (.inl ⟨_, List.mem_of_getElem? hturn, rfl, turn, rfl⟩)
    · exact fun h => .inl (hsame rfl h)
  · next number sdkSessionId assistantUuid _ =>
    unfold remember
    split
    · next place turn remembered released hturn =>
      split
      · exact fun h => .inl (hsame rfl h)
      · dsimp only
        split
        · exact fun h => .inl (hsame rfl h)
        · split
          · exact fun h => .inl (hsame rfl h)
          · exact fun h => .inl (hset hturn h rfl rfl)
    · exact fun h => .inl (hsame rfl h)
  · next number outcome _ =>
    unfold release
    split
    · exact fun h => .inl (hsame rfl h)
    · next place turn remembered released hturn =>
      split
      · exact fun h => .inl (hsame rfl h)
      · dsimp only
        split
        · exact fun h => .inl (hsame rfl h)
        · exact fun h => .inl (hset hturn h rfl rfl)
  · exact fun h => .inl (hsame (writeStart_frame _).2 h)
  · exact fun h => .inl (hsame (writeLand_frame _).2 h)
  · exact fun h => .inl (hsame (writeSettle_frame _).2 h)
  · exact fun h => .inl (hsame rfl h)

/-- The claims are an exclusive table, every claim is its context's own, and a turn whose claim was
refused records nothing. -/
structure ClaimsSound (store : SessionStore) : Prop where
  exclusive : Exclusive (fun (context : TurnContext) key => context.claim.Has key) store.contexts
    (· ∈ store.claimed)
  formed : ∀ context ∈ store.contexts,
    context.claim.WellFormed context.key ∧ context.claim.accountId = context.accountId
  refused : ∀ object ∈ store.turns, object.context < store.contexts.length ∧
    ∀ context, store.contexts[object.context]? = some context → context.claim.held = false →
      ∃ plan, object.turn = .unrecorded plan

/-- The contexts after a move: a context from before with what its claim was told, or a new one. -/
theorem ClaimsMove.contexts_held {before after : SessionStore} (h : ClaimsMove before after) :
    before.contexts.length ≤ after.contexts.length ∧
      ∀ (i : ℕ) (context : TurnContext), i < before.contexts.length → after.contexts[i]? = some context →
        ∃ old, before.contexts[i]? = some old ∧ old.claim.held = context.claim.held := by
  have hset {place : ℕ} {old new : TurnContext} (hold : before.contexts[place]? = some old)
      (hheld : old.claim.held = new.claim.held) (hcontexts : after.contexts = before.contexts.set place new) :
      before.contexts.length ≤ after.contexts.length ∧
        ∀ (i : ℕ) (context : TurnContext), i < before.contexts.length → after.contexts[i]? = some context →
          ∃ old, before.contexts[i]? = some old ∧ old.claim.held = context.claim.held := by
    rw [hcontexts, List.length_set]
    refine ⟨Nat.le_refl _, fun i context hi hget => ?_⟩
    by_cases hplace : place = i
    · subst hplace
      rw [List.getElem?_set_self hi] at hget
      exact ⟨old, hold, Option.some.inj hget ▸ hheld⟩
    · rw [List.getElem?_set_ne hplace] at hget
      exact ⟨context, hget, rfl⟩
  cases h with
  | same h =>
    rw [h.1]
    exact ⟨Nat.le_refl _, fun i context _ hget => ⟨context, hget, rfl⟩⟩
  | claim context id hcontexts hclaim =>
    rw [hcontexts, List.length_append]
    refine ⟨Nat.le_add_right _ _, fun i context hi hget => ?_⟩
    rw [List.getElem?_append_left hi] at hget
    exact ⟨context, hget, rfl⟩
  | own place context id hcontext hcontexts hclaimed =>
    exact hset hcontext (TurnClaim.held_own _ _).symm hcontexts
  | release place context hcontext hcontexts hclaimed =>
    exact hset hcontext (TurnClaim.held_release _).symm hcontexts

/-- A move keeps the table exclusive and every claim its context's own. -/
theorem ClaimsMove.exclusive {before after : SessionStore} (h : ClaimsMove before after)
    (hsound : before.ClaimsSound) :
    Exclusive (fun (context : TurnContext) key => context.claim.Has key) after.contexts
        (· ∈ after.claimed) ∧
      ∀ context ∈ after.contexts,
        context.claim.WellFormed context.key ∧ context.claim.accountId = context.accountId := by
  have hset {place : ℕ} {old : TurnContext} {claim : TurnClaim}
      (hcontexts : after.contexts = before.contexts.set place { old with claim })
      (hclaim : claim.WellFormed old.key ∧ claim.accountId = old.accountId) :
      ∀ context ∈ after.contexts,
        context.claim.WellFormed context.key ∧ context.claim.accountId = context.accountId := by
    intro context hmem
    rw [hcontexts] at hmem
    rcases List.mem_or_eq_of_mem_set hmem with hold | rfl
    · exact hsound.formed context hold
    · exact hclaim
  cases h with
  | same h =>
    rw [h.1, h.2]
    exact ⟨hsound.exclusive, hsound.formed⟩
  | claim context id hcontexts hclaim =>
    obtain ⟨⟨hfree, htaken⟩, hformed, haccount⟩ :=
      claimSessionTurn_spec before.claimed context.key context.accountId id
    rw [← hclaim] at hfree htaken hformed haccount
    rw [hcontexts]
    refine ⟨hsound.exclusive.join hfree htaken, fun other hmem => ?_⟩
    rcases List.mem_append.mp hmem with hold | hnew
    · exact hsound.formed other hold
    · rw [List.mem_singleton.mp hnew]
      exact ⟨hformed, haccount⟩
  | own place context id hcontext hcontexts hclaimed =>
    obtain ⟨hformed, haccount⟩ := hsound.formed context (List.mem_of_getElem? hcontext)
    have hhas (key : String) (h : context.claim.Has key) : key ∈ before.claimed :=
      (hsound.exclusive.taken_iff key).mpr ⟨place, context, hcontext, h⟩
    have hexchange := TurnClaim.own_exchanges hhas id
    refine ⟨?_, hset hcontexts ⟨hformed.own _ id, (TurnClaim.accountId_own _ _).trans haccount⟩⟩
    rw [hcontexts, hclaimed]
    exact hsound.exclusive.exchange hcontext ⟨hexchange.free, hexchange.taken_iff⟩
  | release place context hcontext hcontexts hclaimed =>
    obtain ⟨hformed, haccount⟩ := hsound.formed context (List.mem_of_getElem? hcontext)
    have hexchange : Exchanges TurnClaim.Has (· ∈ before.claimed) context.claim
        (· ∈ (context.claim.release before.claimed).2) (context.claim.release before.claimed).1 :=
      hformed.release_exchanges
    refine ⟨?_, hset hcontexts ⟨hformed.release _, (TurnClaim.accountId_release _).trans haccount⟩⟩
    rw [hcontexts, hclaimed]
    exact hsound.exclusive.exchange hcontext ⟨hexchange.free, hexchange.taken_iff⟩

/-- A step keeps the claims sound. -/
theorem step_claimsSound (store : SessionStore) (timed : StoreStep) (h : store.ClaimsSound) :
    (store.step digests timed).ClaimsSound := by
  have hmove := @step_claims digests store timed
  obtain ⟨hexclusive, hformed⟩ := hmove.exclusive h
  obtain ⟨hlength, hheld⟩ := hmove.contexts_held
  refine ⟨hexclusive, hformed, fun object hmem => ?_⟩
  rcases step_turns store timed hmem with ⟨before, hbefore, hcontext, hturn⟩ |
    ⟨before, hbefore, hcontext, held, hturn⟩ | ⟨hcontext, new, plan, hcontexts, hrefused⟩
  · obtain ⟨hplace, hunrecorded⟩ := h.refused before hbefore
    rw [hcontext] at hplace
    refine ⟨Nat.lt_of_lt_of_le hplace hlength, fun context hget hfalse => ?_⟩
    obtain ⟨old, hold, hsame⟩ := hheld _ context hplace hget
    rw [← hturn]
    exact hunrecorded old (hcontext ▸ hold) (hsame.trans hfalse)
  · obtain ⟨hplace, hunrecorded⟩ := h.refused before hbefore
    rw [hcontext] at hplace
    refine ⟨Nat.lt_of_lt_of_le hplace hlength, fun context hget hfalse => ?_⟩
    obtain ⟨old, hold, hsame⟩ := hheld _ context hplace hget
    obtain ⟨plan, hplan⟩ := hunrecorded old (hcontext ▸ hold) (hsame.trans hfalse)
    rw [hturn] at hplan
    exact absurd hplan (by simp)
  · rw [hcontext, hcontexts]
    refine ⟨by simp, fun context hget hfalse => ⟨plan, hrefused ?_⟩⟩
    rw [List.getElem?_append_right (Nat.le_refl _), Nat.sub_self] at hget
    obtain rfl : new = context := by simpa using hget
    exact hfalse

/-- A store starts with no claim. -/
theorem createSessionStore_claimsSound (options : SessionCacheOptions)
    (rows : LruMap (String × String) SessionRow) : (createSessionStore options rows).ClaimsSound where
  exclusive := by
    have hempty : (fun key : String => key ∈ ([] : List String)) = fun _ => False := by
      funext key
      simp
    rw [createSessionStore, hempty]
    exact Exclusive.nil
  formed := by simp [createSessionStore]
  refused := by simp [createSessionStore]

/-- Two turns that run have different session keys, and own no SDK session of one account both. -/
theorem ClaimsSound.disjoint (h : store.ClaimsSound) {i j : ℕ} {first second : TurnContext}
    (hfirst : store.contexts[i]? = some first) (hsecond : store.contexts[j]? = some second) (hij : i ≠ j)
    (hrunning : first.claim.running = true) (hrunning' : second.claim.running = true) :
    first.key ≠ second.key ∧ ∀ id, first.claim.owns id = true → second.claim.owns id = true →
      first.accountId ≠ second.accountId := by
  obtain ⟨hformed, haccount⟩ := h.formed first (List.mem_of_getElem? hfirst)
  obtain ⟨hformed', haccount'⟩ := h.formed second (List.mem_of_getElem? hsecond)
  refine ⟨fun hkey => ?_, fun id howns howns' hsame => ?_⟩
  · refine hij (h.exclusive.unique i j first second (sessionClaimKey first.key) hfirst hsecond ?_ ?_)
    · exact hformed.has_session hrunning
    · rw [hkey]
      exact hformed'.has_session hrunning'
  · refine hij (h.exclusive.unique i j first second (sdkClaimKey first.claim.accountId id) hfirst hsecond ?_ ?_)
    · exact hformed.has_sdk howns
    · rw [haccount, hsame, ← haccount']
      exact hformed'.has_sdk howns'

/-- A release leaves every context but the turn's own. -/
theorem release_contexts (number : ℕ) (outcome : TurnOutcome) (clock : ℕ → ℤ) {j : ℕ}
    (hother : ∀ object, store.turns[number]? = some object → object.context ≠ j) :
    (store.release number outcome clock).contexts[j]? = store.contexts[j]? := by
  unfold release
  cases hturn : store.turns[number]? with
  | none => rfl
  | some object =>
    obtain ⟨place, turn, remembered, released⟩ := object
    have hplace : place ≠ j := hother _ hturn
    dsimp only
    cases hcontext : store.contexts[place]? with
    | none => rfl
    | some context =>
      cases turn with
      | unrecorded plan => exact List.getElem?_set_ne hplace
      | held turn =>
        dsimp only
        split <;> exact List.getElem?_set_ne hplace

/-- Releasing a turn that gave its claims back frees nothing. -/
theorem release_again (number : ℕ) (outcome : TurnOutcome) (clock : ℕ → ℤ) {object : TurnObject}
    {context : TurnContext} (hturn : store.turns[number]? = some object)
    (hcontext : store.contexts[object.context]? = some context) (hreleased : context.claim.released = true) :
    (store.release number outcome clock).claimed = store.claimed := by
  obtain ⟨place, turn, remembered, released⟩ := object
  have hclaimed := TurnClaim.release_of_released store.claimed hreleased
  unfold release
  rw [hturn]
  dsimp only at hcontext ⊢
  rw [hcontext]
  dsimp only
  rw [hclaimed]
  cases turn with
  | unrecorded plan => rfl
  | held turn =>
    dsimp only
    split <;> rfl

/-- The binding a turn looks up leaves a part of the cache. -/
theorem boundSession_within (cache : SessionCache) (direct : Option (Option SessionEntry))
    (apiKeyId accountId : String) (fingerprint : Option String) (clock : ℕ → ℤ) :
    SessionCache.Within cache (boundSession cache direct apiKeyId accountId fingerprint clock).2 := by
  unfold boundSession
  split
  · exact .refl cache
  split
  · exact .refl cache
  next fingerprint =>
  have haliased := SessionCache.aliased_within cache fingerprint (clock 1)
  split
  · next hnone =>
    rw [hnone] at haliased
    exact haliased
  · next aliased rest hsome =>
    rw [hsome] at haliased
    have hget := haliased.trans (SessionCache.get_within rest aliased (clock 2))
    split
    · exact haliased
    · split
      · next hfound =>
        rw [hfound] at hget
        exact hget
      · next hfound =>
        rw [hfound] at hget
        exact hget

/-- Nothing was stored: the cache holds at most what it held, no row write was queued and the table is
as it was. -/
def StoresNothing (before after : SessionStore) : Prop :=
  SessionCache.Within before.cache after.cache ∧ after.writes = before.writes ∧ after.rows = before.rows

/-- The cache, the row writes and the table are as they were. -/
def Untouched (before after : SessionStore) : Prop :=
  after.cache = before.cache ∧ after.writes = before.writes ∧ after.rows = before.rows

/-- Resolving a turn stores nothing. -/
theorem resolve_storesNothing (input : StoreTurnInput) (clock : ℕ → ℤ) :
    StoresNothing store (store.resolve digests input clock) :=
  ⟨(SessionCache.get_within _ _ _).trans (boundSession_within _ _ _ _ _ _), rfl, rfl⟩

/-- A turn that records nothing changes neither cache nor rows. -/
theorem unrecorded_untouched {number : ℕ} {object : TurnObject} {plan : SessionPlan}
    (hturn : store.turns[number]? = some object) (hplan : object.turn = .unrecorded plan) :
    (∀ moved, store.prepare number moved = store) ∧ (∀ id uuid clock, store.remember number id uuid clock = store) ∧
      ∀ outcome clock, Untouched store (store.release number outcome clock) := by
  obtain ⟨place, turn, remembered, released⟩ := object
  obtain rfl : turn = .unrecorded plan := hplan
  refine ⟨fun moved => ?_, fun id uuid clock => ?_, fun outcome clock => ?_⟩
  · simp [prepare, hturn]
  · simp [remember, hturn]
  · unfold release
    rw [hturn]
    dsimp only
    split <;> exact ⟨rfl, rfl, rfl⟩

/-- A turn that is told another turn owns the session it names records nothing. -/
theorem remember_refused (number : ℕ) (id : String) (uuid : Option String) (clock : ℕ → ℤ)
    {object : TurnObject} {context : TurnContext} (hturn : store.turns[number]? = some object)
    (hcontext : store.contexts[object.context]? = some context)
    (hrefused : (context.claim.own store.claimed id).1 = false) :
    Untouched store (store.remember number id uuid clock) := by
  obtain ⟨place, turn, remembered, released⟩ := object
  unfold remember
  rw [hturn]
  cases turn with
  | unrecorded plan => exact ⟨rfl, rfl, rfl⟩
  | held turn =>
    dsimp only at hcontext ⊢
    rw [hcontext]
    dsimp only
    rw [hrefused]
    split <;> exact ⟨rfl, rfl, rfl⟩

/-- In every state a run reaches: two turns that run share neither a session key nor an SDK session on one account;
a release leaves the claims of every other turn; and a turn that is refused a claim touches neither cache nor rows
afterwards. -/
theorem run_one_turn_per_conversation (digests : Digests) (options : SessionCacheOptions)
    (rows : LruMap (String × String) SessionRow) (steps : List StoreStep) :
    let store := runFrom (SessionStore.step digests) (createSessionStore options rows) steps
    (∀ (i j : ℕ) first second, store.contexts[i]? = some first → store.contexts[j]? = some second → i ≠ j →
      first.claim.running = true → second.claim.running = true →
        first.key ≠ second.key ∧ ∀ id, first.claim.owns id = true → second.claim.owns id = true →
          first.accountId ≠ second.accountId) ∧
      (∀ (number : ℕ) outcome clock, (∀ (j : ℕ) context, store.contexts[j]? = some context →
          (∀ object, store.turns[number]? = some object → object.context ≠ j) →
            (store.release number outcome clock).contexts[j]? = some context ∧
              ∀ key, context.claim.Has key → key ∈ (store.release number outcome clock).claimed) ∧
          ∀ object context, store.turns[number]? = some object →
            store.contexts[object.context]? = some context → context.claim.released = true →
              (store.release number outcome clock).claimed = store.claimed) ∧
      (∀ input clock, StoresNothing store (store.resolve digests input clock)) ∧
      ∀ (number : ℕ) object context, store.turns[number]? = some object →
        store.contexts[object.context]? = some context → (context.claim.held = false →
            (∀ moved, Untouched store (store.prepare number moved)) ∧
              (∀ id uuid clock, Untouched store (store.remember number id uuid clock)) ∧
              ∀ outcome clock, Untouched store (store.release number outcome clock)) ∧
            ∀ id, (context.claim.own store.claimed id).1 = false →
              ∀ uuid clock, Untouched store (store.remember number id uuid clock) := by
  intro store
  have hsound : store.ClaimsSound := runFrom_invariant ClaimsSound step_claimsSound steps _
    (createSessionStore_claimsSound options rows)
  refine ⟨?_, fun number outcome clock => ⟨?_, ?_⟩, fun input clock => resolve_storesNothing input clock, ?_⟩
  · intro i j first second hfirst hsecond hij hrunning hrunning'
    exact hsound.disjoint hfirst hsecond hij hrunning hrunning'
  · intro j context hcontext hother
    have hafter : (store.release number outcome clock).ClaimsSound :=
      @step_claimsSound digests store ⟨.release number outcome, clock⟩ hsound
    have hkept := (release_contexts number outcome clock hother).trans hcontext
    exact ⟨hkept, fun key hhas => (hafter.exclusive.taken_iff key).mpr ⟨j, context, hkept, hhas⟩⟩
  · intro object context hturn hcontext hreleased
    exact release_again number outcome clock hturn hcontext hreleased
  · intro number object context hturn hcontext
    refine ⟨fun hheld => ?_, fun id hrefused uuid clock => ?_⟩
    · obtain ⟨-, hunrecorded⟩ := hsound.refused object (List.mem_of_getElem? hturn)
      obtain ⟨plan, hplan⟩ := hunrecorded context hcontext hheld
      obtain ⟨hprepare, hremember, hrelease⟩ := unrecorded_untouched hturn hplan
      refine ⟨fun moved => ?_, fun id uuid clock => ?_, hrelease⟩
      · rw [hprepare]
        exact ⟨rfl, rfl, rfl⟩
      · rw [hremember]
        exact ⟨rfl, rfl, rfl⟩
    · exact remember_refused number id uuid clock hturn hcontext hrefused

end SessionStore

end MultiAiRouter.ClaudeSdk
