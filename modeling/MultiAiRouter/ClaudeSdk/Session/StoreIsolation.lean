import MultiAiRouter.ClaudeSdk.Session.WriteQueue

/-!
# Sessions stay with their router key

Whatever the order of the store's steps, a turn is planned onto an SDK session that was stored or
remembered under its own router key. What the store itself writes to the table brings nothing new: a
queued row was remembered or stored under the key it is filed under.
-/

namespace MultiAiRouter.ClaudeSdk

open Common

/-- The plan of a turn. -/
def SessionTurn.plan : SessionTurn → SessionPlan
  | .unrecorded plan => plan
  | .held turn => turn.plan

/-- A plan made from an overlap names the session it was given, and carries it from nowhere. -/
theorem planOverlap_names {session : BoundSession} {conversation : ConversationView} {overlap : LineageOverlap}
    {id : String} (h : (planOverlap session conversation overlap).sdkSessionId? = some id) :
    session.sdkSessionId = id ∧ (planOverlap session conversation overlap).carryFrom? = none := by
  unfold planOverlap at h ⊢
  cases hlineage : overlap.lineage with
  | continuation => rw [hlineage] at h; exact ⟨Option.some.inj h, rfl⟩
  | modifiedContinuation => rw [hlineage] at h; exact ⟨Option.some.inj h, rfl⟩
  | compaction => rw [hlineage] at h; exact ⟨Option.some.inj h, rfl⟩
  | replay => rw [hlineage] at h; cases h
  | diverged => rw [hlineage] at h; cases h
  | rewrite =>
    rw [hlineage] at h
    dsimp only at h ⊢
    split at h
    · cases h
    · exact ⟨Option.some.inj h, rfl⟩
  | undo =>
    rw [hlineage] at h
    dsimp only at h ⊢
    split at h
    · cases h
    · exact ⟨Option.some.inj h, rfl⟩

/-- A resolved plan names the session the turn was bound to, and carries it from nowhere. -/
theorem resolveLineage_names {digest : String → String} {input : ResolveLineageInput} {id : String}
    (h : (resolveLineage digest input).sdkSessionId? = some id) :
    ∃ bound, input.session = some bound ∧ bound.sdkSessionId = id ∧
      (resolveLineage digest input).carryFrom? = none := by
  unfold resolveLineage at h ⊢
  split at h
  · cases h
  next hbusy =>
  split at h
  · cases h
  next hgone =>
  split at h
  · cases h
  next hfork =>
  rw [if_neg hbusy, if_neg hgone, if_neg hfork]
  cases hconversation : input.conversation with
  | none => rw [hconversation] at h; cases h
  | some conversation =>
    rw [hconversation] at h
    dsimp only at h ⊢
    split at h
    · cases h
    next htool =>
    rw [if_neg htool]
    cases hsession : input.session with
    | none => rw [hsession] at h; cases h
    | some bound =>
      rw [hsession] at h
      obtain ⟨hid, hcarry⟩ := planOverlap_names h
      exact ⟨bound, rfl, hid, hcarry⟩

/-- A plan with a carry names what it named. -/
theorem withCarry_names (plan : SessionPlan) (carryFrom id : String)
    (h : (plan.withCarry carryFrom).sdkSessionId? = some id) :
    plan.sdkSessionId? = some id ∧ (plan.withCarry carryFrom).carryFrom? = some carryFrom := by
  cases plan with
  | resume => exact ⟨h, rfl⟩
  | fork => exact ⟨h, rfl⟩
  | fresh => cases h

/-- A carried plan names what it named, and the account it is carried from. -/
theorem carriedPlan_names {plan : SessionPlan} {carryFrom : String} {uuids : List String} {id : String}
    (h : (carriedPlan plan carryFrom uuids).sdkSessionId? = some id) :
    plan.sdkSessionId? = some id ∧ (carriedPlan plan carryFrom uuids).carryFrom? = some carryFrom := by
  unfold carriedPlan at h ⊢
  split at h
  · split at h
    · exact ⟨h, rfl⟩
    · exact withCarry_names _ carryFrom id h
  · exact withCarry_names _ carryFrom id h

/-- The plan of a turn names the session the turn was bound to, carried from where that lives. -/
theorem candidatePlan_names {digest : String → String} {session : Option BoundSession} {input : ResolveTurnInput}
    {id : String} (h : (candidatePlan digest session input).sdkSessionId? = some id) :
    ∃ bound, session = some bound ∧ bound.sdkSessionId = id ∧
      (candidatePlan digest session input).carryFrom? = bound.carryFrom := by
  unfold candidatePlan at h ⊢
  cases session with
  | none =>
    obtain ⟨bound, hbound, -⟩ := resolveLineage_names h
    cases hbound
  | some bound =>
    dsimp only at h ⊢
    cases hcarry : bound.carryFrom with
    | none =>
      rw [hcarry] at h
      obtain ⟨other, hother, hid, hnone⟩ := resolveLineage_names h
      obtain rfl : bound = other := Option.some.inj hother
      exact ⟨bound, rfl, hid, hnone.trans hcarry.symm⟩
    | some carryFrom =>
      rw [hcarry] at h
      obtain ⟨hplan, hsome⟩ := carriedPlan_names h
      obtain ⟨other, hother, hid, -⟩ := resolveLineage_names hplan
      obtain rfl : bound = other := Option.some.inj hother
      exact ⟨bound, rfl, hid, hsome.trans hcarry.symm⟩

/-- A turn that rejoins a session runs its candidate plan. -/
theorem resolveTurn_names {digest : String → String} {session : Option BoundSession} {input : ResolveTurnInput}
    {claimed : Bool} {id : String} (h : (resolveTurn digest session input claimed).plan.sdkSessionId? = some id) :
    (resolveTurn digest session input claimed).plan = candidatePlan digest session input := by
  cases claimed with
  | false =>
    rw [resolveTurn_refused rfl] at h
    cases h
  | true =>
    unfold resolveTurn
    dsimp only
    split <;> rfl

/-- The session a turn is bound to: its own key's, or one of its own account found in its scope. -/
theorem boundSession_found {cache : SessionCache} {direct : Option (Option SessionEntry)}
    {apiKeyId accountId : String} {fingerprint : Option String} {clock : ℕ → ℤ} {bound : BoundSession}
    (h : (boundSession cache direct apiKeyId accountId fingerprint clock).1 = some bound) :
    ∃ entry, bound = entry.boundOn accountId ∧ (direct = some (some entry) ∨
      (direct.join = none ∧ entry.accountId = accountId ∧
        ∃ aliased, inScope apiKeyId aliased = true ∧ cache.valueOf aliased = some entry)) := by
  unfold boundSession at h
  split at h
  · next entry => exact ⟨entry, (Option.some.inj h).symm, .inl rfl⟩
  next hdirect =>
  have hjoin : direct.join = none := by
    cases direct with
    | none => rfl
    | some value =>
      cases value with
      | none => rfl
      | some entry => exact absurd rfl (hdirect entry)
  split at h
  · cases h
  next fingerprint =>
  have haliased := SessionCache.aliased_within cache fingerprint (clock 1)
  split at h
  · cases h
  next aliased rest hsome =>
  rw [hsome] at haliased
  split at h
  · cases h
  next hscope =>
  split at h
  · next entry kept hfound =>
    split at h
    · next haccount =>
      obtain ⟨cached, hlookup, hvalue⟩ := @SessionCache.get_answer rest _ _ (some entry) (congrArg Prod.fst hfound)
      refine ⟨entry, (Option.some.inj h).symm, .inr ⟨hjoin, haccount, aliased, ?_, haliased.value ?_⟩⟩
      · simpa using hscope
      · rw [SessionCache.valueOf, hlookup]
        exact hvalue
    · cases h
  · cases h

/-- Someone else stores a session of the account under the router key. -/
def StoreCall.Stores (call : StoreCall) (apiKeyId accountId sdkSessionId : String) : Prop :=
  ∃ sessionKey row entry, call = .storeRow apiKeyId sessionKey row ∧ entryOf row = some entry ∧
    entry.accountId = accountId ∧ entry.sdkSessionId = sdkSessionId

namespace SessionStore

variable {digests : Digests} {store : SessionStore}

/-- The table binds a session of the account under the router key. -/
def Stored (store : SessionStore) (apiKeyId accountId sdkSessionId : String) : Prop :=
  ∃ sessionKey entry, entryOf (store.rows.lookup (apiKeyId, sessionKey)) = some entry ∧
    entry.accountId = accountId ∧ entry.sdkSessionId = sdkSessionId

/-- The call remembers the session of the account under the router key. -/
def Remembers (store : SessionStore) (call : StoreCall) (apiKeyId accountId sdkSessionId : String) : Prop :=
  ∃ number assistantUuid write entry, call = .remember number sdkSessionId assistantUuid ∧
    store.localWrite call = some write ∧ write.apiKeyId = apiKeyId ∧ write.value = some entry ∧
    entry.accountId = accountId

/-- A step of the run stores or remembers the session of the account under the router key. -/
def Brought (digests : Digests) : SessionStore → List StoreStep → String → String → String → Prop
  | _, [], _, _, _ => False
  | store, timed :: rest, apiKeyId, accountId, sdkSessionId =>
    timed.call.Stores apiKeyId accountId sdkSessionId ∨ store.Remembers timed.call apiKeyId accountId sdkSessionId ∨
      Brought digests (store.step digests timed) rest apiKeyId accountId sdkSessionId

/-- The session was in the table under the router key at first, or a step of the run brought it there from outside
or remembered it. -/
def Known (digests : Digests) (store : SessionStore) (steps : List StoreStep)
    (apiKeyId accountId sdkSessionId : String) : Prop :=
  store.Stored apiKeyId accountId sdkSessionId ∨ Brought digests store steps apiKeyId accountId sdkSessionId

end SessionStore

/-- The router key a call names. -/
def StoreCall.apiKeyId? : StoreCall → Option String
  | .bindingBegin apiKeyId _ | .invalidate apiKeyId _ | .storeRow apiKeyId _ _ => some apiKeyId
  | .resolve input => some input.apiKeyId
  | _ => none

/-- The router key a call names holds no separator. -/
def StoreCall.Scoped (call : StoreCall) : Prop := ∀ apiKeyId, call.apiKeyId? = some apiKeyId → NulFree apiKeyId

namespace SessionStore

variable {digests : Digests} {store : SessionStore}

/-- Everything the store could plan a turn from is known under the router key it is filed under. -/
structure Isolated (known : String → String → String → Prop) (store : SessionStore) : Prop where
  cached : ∀ key value, store.cache.valueOf key = some value → ∃ apiKeyId sessionKey,
    key = scopedKey apiKeyId sessionKey ∧ NulFree apiKeyId ∧ known apiKeyId value.accountId value.sdkSessionId
  stored : ∀ apiKeyId accountId id, store.Stored apiKeyId accountId id → known apiKeyId accountId id
  read : ∀ read ∈ store.reads, NulFree read.apiKeyId ∧ ∀ row value, read.row = some row →
    entryOf row = some value → known read.apiKeyId value.accountId value.sdkSessionId
  prior : ∀ context ∈ store.contexts, NulFree context.apiKeyId ∧ ∀ value, context.prior = some value →
    known context.apiKeyId value.accountId value.sdkSessionId
  queued : ∀ queued ∈ store.writes, ∀ value, entryOf (some queued.row) = some value →
    known queued.apiKeyId value.accountId value.sdkSessionId

/-- What is cached under a router key's own key is known under that router key. -/
theorem Isolated.direct {known : String → String → String → Prop} (h : Isolated known store)
    {apiKeyId sessionKey : String} (hkey : NulFree apiKeyId) {now : ℤ} {value : SessionEntry}
    (hget : (store.cache.get (scopedKey apiKeyId sessionKey) now).1 = some (some value)) :
    known apiKeyId value.accountId value.sdkSessionId := by
  obtain ⟨entry, hlookup, hvalue⟩ := SessionCache.get_answer hget
  have hcached : store.cache.valueOf (scopedKey apiKeyId sessionKey) = some value := by
    rw [SessionCache.valueOf, hlookup]
    exact hvalue
  obtain ⟨scope, name, hscoped, hfree, hknown⟩ := h.cached _ value hcached
  obtain ⟨rfl, -⟩ := scopedKey_inj hkey hfree hscoped
  exact hknown

/-- A local write brings a binding its turn remembers, or puts back one its turn found. -/
theorem localWrite_value {call : StoreCall} {write : LocalWrite} {value : SessionEntry}
    (h : store.localWrite call = some write) (hvalue : write.value = some value) :
    store.Remembers call write.apiKeyId value.accountId value.sdkSessionId ∨
      ∃ context ∈ store.contexts, context.apiKeyId = write.apiKeyId ∧ context.prior = some value := by
  cases call with
  | remember number id uuid =>
    refine .inl ?_
    have hwrite : store.rememberWrite number id uuid = some write := h
    have hid : value.sdkSessionId = id := by
      unfold rememberWrite at hwrite
      split at hwrite
      · split at hwrite
        · cases hwrite
        · split at hwrite
          · obtain rfl := Option.some.inj hwrite
            obtain rfl := Option.some.inj hvalue
            rfl
          · cases hwrite
      · cases hwrite
    rw [hid]
    exact ⟨number, uuid, write, value, rfl, h, rfl, hvalue, rfl⟩
  | release number outcome =>
    refine .inr ?_
    have hwrite : store.releaseWrite number outcome = some write := h
    unfold releaseWrite at hwrite
    split at hwrite
    · split at hwrite
      · cases hwrite
      · next context hcontext =>
        split at hwrite
        · obtain rfl := Option.some.inj hwrite
          exact ⟨context, List.mem_of_getElem? hcontext, rfl, hvalue⟩
        · cases hwrite
    · cases hwrite
  | invalidate apiKeyId sessionKey =>
    obtain rfl := Option.some.inj h
    cases hvalue
  | _ => cases h

/-- The router key of a local write holds no separator. -/
theorem Isolated.localWrite_nulFree {known : String → String → String → Prop} (h : Isolated known store)
    {call : StoreCall} (hcall : call.Scoped) {write : LocalWrite} (hwrite : store.localWrite call = some write) :
    NulFree write.apiKeyId := by
  cases call with
  | remember number id uuid =>
    replace hwrite : store.rememberWrite number id uuid = some write := hwrite
    unfold rememberWrite at hwrite
    split at hwrite
    · split at hwrite
      · cases hwrite
      · next context hcontext =>
        split at hwrite
        · obtain rfl := Option.some.inj hwrite
          exact (h.prior context (List.mem_of_getElem? hcontext)).1
        · cases hwrite
    · cases hwrite
  | release number outcome =>
    replace hwrite : store.releaseWrite number outcome = some write := hwrite
    unfold releaseWrite at hwrite
    split at hwrite
    · split at hwrite
      · cases hwrite
      · next context hcontext =>
        split at hwrite
        · obtain rfl := Option.some.inj hwrite
          exact (h.prior context (List.mem_of_getElem? hcontext)).1
        · cases hwrite
    · cases hwrite
  | invalidate apiKeyId sessionKey =>
    obtain rfl := Option.some.inj hwrite
    exact hcall apiKeyId rfl
  | _ => cases hwrite

/-- The row that arrives is known under the router key of its read. -/
theorem Isolated.arrival {known : String → String → String → Prop} (h : Isolated known store) {call : StoreCall}
    {read : BindingRead} {row : Option SessionRow} (harrival : store.arrival call = some (read, row)) :
    NulFree read.apiKeyId ∧ ∀ value, entryOf row = some value →
      known read.apiKeyId value.accountId value.sdkSessionId := by
  obtain ⟨ticket, -, hfound, hrow, -⟩ := arrival_eq_some harrival
  obtain ⟨hfree, hknown⟩ := h.read read (List.mem_of_find?_eq_some hfound)
  exact ⟨hfree, fun value hvalue => hknown row value hrow hvalue⟩

/-- A row that binds stood in the table before, was queued, or is stored by someone else. -/
theorem step_rows (timed : StoreStep) {name : String × String} {value : SessionEntry}
    (h : entryOf ((store.step digests timed).rows.lookup name) = some value) :
    entryOf (store.rows.lookup name) = some value ∨
      (∃ queued ∈ store.writes, queued.apiKeyId = name.1 ∧ entryOf (some queued.row) = some value) ∨
      timed.call.Stores name.1 value.accountId value.sdkSessionId := by
  have hinserted {rows : LruMap (String × String) SessionRow} {other : String × String} {row : SessionRow}
      (hrow : entryOf ((rows.insert other row).lookup name) = some value) :
      name = other ∧ entryOf (some row) = some value ∨ entryOf (rows.lookup name) = some value := by
    by_cases hname : name = other
    · subst hname
      rw [AList.lookup_insert] at hrow
      exact .inl ⟨rfl, hrow⟩
    · rw [AList.lookup_insert_ne hname] at hrow
      exact .inr hrow
  obtain ⟨call, clock⟩ := timed
  cases call with
  | clearAccount accountId =>
    refine .inl ?_
    have hrun {clear : LruMap (String × String) SessionRow → String × String → LruMap (String × String) SessionRow}
        (hclear : ∀ rows other, entryOf ((clear rows other).lookup name) = some value →
          entryOf (rows.lookup name) = some value) (names : List (String × String))
        (rows : LruMap (String × String) SessionRow)
        (hrow : entryOf ((names.foldl clear rows).lookup name) = some value) :
        entryOf (rows.lookup name) = some value := by
      induction names generalizing rows with
      | nil => exact hrow
      | cons other rest ih => exact hclear rows other (ih _ hrow)
    refine hrun (fun rows other hone => ?_) _ _ h
    split at hone
    · split at hone
      · exact (hinserted hone).resolve_left fun hcleared => by cases hcleared.2
      · exact hone
    · exact hone
  | writeLand key =>
    simp only [step, writeLand] at h
    split at h
    · exact .inl h
    · next queued hhead =>
      split at h
      · rcases hinserted h with ⟨rfl, hqueued⟩ | hold
        · exact .inr (.inl ⟨queued, List.mem_of_find?_eq_some hhead, rfl, hqueued⟩)
        · exact .inl hold
      · exact .inl h
  | storeRow apiKeyId sessionKey row =>
    simp only [step, storeRow] at h
    split at h
    · rcases hinserted h with ⟨rfl, hstored⟩ | hold
      · exact .inr (.inr ⟨sessionKey, _, value, rfl, hstored, rfl, rfl⟩)
      · exact .inl hold
    · by_cases hname : name = (apiKeyId, sessionKey)
      · subst hname
        rw [AList.lookup_erase] at h
        cases h
      · rw [AList.lookup_erase_ne hname] at h
        exact .inl h
  | bindingBegin | bindingEnd | bindingFail | prepare | remember | release | writeStart | writeSettle =>
    refine .inl ?_
    -- No other step writes to the table.
    simp only [step, bindingBegin, bindingEnd, bindingFail, prepare, remember, release, writeStart, writeSettle] at h
    (repeat' split at h) <;> exact h
  | bindingTake | invalidate | invalidateAccount | resolve => exact .inl h

/-- What the store knows after a step. -/
def Learned (known : String → String → String → Prop) (store : SessionStore) (call : StoreCall)
    (apiKeyId accountId sdkSessionId : String) : Prop :=
  known apiKeyId accountId sdkSessionId ∨ call.Stores apiKeyId accountId sdkSessionId ∨
    store.Remembers call apiKeyId accountId sdkSessionId

/-- A step keeps the sessions with their router keys. -/
theorem step_isolated {known : String → String → String → Prop} (timed : StoreStep) (hcall : timed.call.Scoped)
    (h : Isolated known store) : Isolated (Learned known store timed.call) (store.step digests timed) where
  cached := by
    intro key value hvalue
    have hold (hbefore : store.cache.valueOf key = some value) : ∃ apiKeyId sessionKey,
        key = scopedKey apiKeyId sessionKey ∧ NulFree apiKeyId ∧
          Learned known store timed.call apiKeyId value.accountId value.sdkSessionId := by
      obtain ⟨apiKeyId, sessionKey, hkey, hfree, hknown⟩ := h.cached key value hbefore
      exact ⟨apiKeyId, sessionKey, hkey, hfree, .inl hknown⟩
    cases @step_cache digests store timed with
    | kept _ _ hcache => exact hold (hcache.value hvalue)
    | wrote write hwrite _ hcache =>
      rcases hcache.value hvalue with ⟨hkey, hstored⟩ | ⟨-, hbefore⟩
      · refine ⟨write.apiKeyId, write.sessionKey, hkey, h.localWrite_nulFree hcall hwrite, ?_⟩
        rcases localWrite_value hwrite hstored with hremembers | ⟨context, hmem, hscope, hprior⟩
        · exact .inr (.inr hremembers)
        · exact .inl (hscope ▸ (h.prior context hmem).2 value hprior)
      · exact hold hbefore
    | arrived read row _ harrival hcache =>
      rcases hcache.value hvalue with ⟨hkey, hstored⟩ | ⟨-, hbefore⟩
      · obtain ⟨hfree, hknown⟩ := h.arrival harrival
        exact ⟨read.apiKeyId, read.sessionKey, hkey, hfree, .inl (hknown value hstored)⟩
      · exact hold hbefore
  stored := by
    rintro apiKeyId accountId id ⟨sessionKey, entry, hentry, rfl, rfl⟩
    rcases step_rows timed hentry with hold | ⟨queued, hmem, rfl, hvalue⟩ | hstores
    · exact .inl (h.stored _ _ _ ⟨sessionKey, entry, hold, rfl, rfl⟩)
    · exact .inl (h.queued queued hmem entry hvalue)
    · exact .inr (.inl hstores)
  read := by
    intro read hmem
    rcases step_reads store timed hmem with ⟨before, hbefore, -, hapi, hsession, hrow⟩ | ⟨hbegin, -, hnone, -⟩
    · obtain ⟨hfree, hknown⟩ := h.read before hbefore
      rw [hapi] at hfree hknown
      refine ⟨hfree, fun row value hsome hvalue => .inl ?_⟩
      rcases hrow with hkept | htaken
      · exact hknown row value (hkept ▸ hsome) hvalue
      · obtain rfl := Option.some.inj (hsome.symm.trans htaken)
        exact h.stored _ _ _ ⟨read.sessionKey, value, hvalue, rfl, rfl⟩
    · refine ⟨hcall read.apiKeyId (by rw [hbegin]; rfl), fun row value hsome _ => ?_⟩
      rw [hnone] at hsome
      cases hsome
  prior := by
    intro context hmem
    rcases step_contexts store timed hmem with ⟨before, hbefore, hapi, hprior⟩ | ⟨input, hresolve, hapi, hprior⟩
    · obtain ⟨hfree, hknown⟩ := h.prior before hbefore
      rw [hapi] at hfree hknown
      exact ⟨hfree, fun value hvalue => .inl (hknown value (hprior.trans hvalue))⟩
    · have hfree : NulFree input.apiKeyId := hcall input.apiKeyId (by rw [hresolve]; rfl)
      rw [hapi]
      refine ⟨hfree, fun value hvalue => .inl ?_⟩
      have hget := Option.join_eq_some_iff.mp (hprior.symm.trans hvalue)
      exact h.direct hfree hget
  queued := by
    intro queued hmem value hvalue
    have hmarked {mark : QueuedWrite → QueuedWrite}
        (hmark : ∀ other, (mark other).apiKeyId = other.apiKeyId ∧ (mark other).row = other.row)
        (hwrites : (store.step digests timed).writes = store.writes.map mark) :
        Learned known store timed.call queued.apiKeyId value.accountId value.sdkSessionId := by
      rw [hwrites] at hmem
      obtain ⟨before, hbefore, rfl⟩ := List.mem_map.mp hmem
      rw [(hmark before).2] at hvalue
      rw [(hmark before).1]
      exact .inl (h.queued before hbefore value hvalue)
    cases @step_queue digests store timed with
    | kept _ _ hwrites => exact .inl (h.queued queued (hwrites ▸ hmem) value hvalue)
    | queued write hlocal hwrites =>
      rw [hwrites] at hmem
      rcases List.mem_append.mp hmem with hold | hnew
      · exact .inl (h.queued queued hold value hvalue)
      · obtain rfl := List.mem_singleton.mp hnew
        have hwritten : write.value = some value := by
          cases hwrite : write.value with
          | none => simp [queuedBy, hwrite, entryOf, rowOf] at hvalue
          | some entry => simpa [queuedBy, hwrite, entryOf, rowOf] using hvalue
        rcases localWrite_value hlocal hwritten with hremembers | ⟨context, hcontext, hscope, hprior⟩
        · exact .inr (.inr hremembers)
        · have hknown := (h.prior context hcontext).2 value hprior
          rw [hscope] at hknown
          exact .inl hknown
    | started other _ _ _ _ _ hwrites => exact hmarked (fun other => by split <;> exact ⟨rfl, rfl⟩) hwrites
    | landed other _ _ hwrites => exact hmarked (fun other => by split <;> exact ⟨rfl, rfl⟩) hwrites
    | settled other _ _ _ hwrites =>
      rw [hwrites] at hmem
      exact .inl (h.queued queued (List.mem_of_mem_eraseP hmem) value hvalue)

/-- Knowing more keeps the sessions with their router keys. -/
theorem Isolated.mono {known known' : String → String → String → Prop} (h : Isolated known store)
    (hmono : ∀ apiKeyId accountId id, known apiKeyId accountId id → known' apiKeyId accountId id) :
    Isolated known' store where
  cached key value hvalue := by
    obtain ⟨apiKeyId, sessionKey, hkey, hfree, hknown⟩ := h.cached key value hvalue
    exact ⟨apiKeyId, sessionKey, hkey, hfree, hmono _ _ _ hknown⟩
  stored apiKeyId accountId id hstored := hmono _ _ _ (h.stored apiKeyId accountId id hstored)
  read read hmem := ⟨(h.read read hmem).1, fun row value hrow hvalue =>
    hmono _ _ _ ((h.read read hmem).2 row value hrow hvalue)⟩
  prior context hmem := ⟨(h.prior context hmem).1, fun value hvalue =>
    hmono _ _ _ ((h.prior context hmem).2 value hvalue)⟩
  queued queued hmem value hvalue := hmono _ _ _ (h.queued queued hmem value hvalue)

/-- A run keeps the sessions with their router keys. -/
theorem run_isolated {known : String → String → String → Prop} (steps : List StoreStep)
    (hsteps : ∀ timed ∈ steps, timed.call.Scoped) (h : Isolated known store) :
    Isolated (fun apiKeyId accountId id => known apiKeyId accountId id ∨
        Brought digests store steps apiKeyId accountId id)
      (runFrom (SessionStore.step digests) store steps) := by
  induction steps generalizing store known with
  | nil => exact h.mono fun _ _ _ hknown => .inl hknown
  | cons timed rest ih =>
    have hstep := @step_isolated digests _ _ timed (hsteps timed List.mem_cons_self) h
    refine (ih (fun other hmem => hsteps other (List.mem_cons_of_mem _ hmem)) hstep).mono ?_
    rintro apiKeyId accountId id ((hknown | hstores | hremembers) | hlater)
    · exact .inl hknown
    · exact .inr (.inl hstores)
    · exact .inr (.inr (.inl hremembers))
    · exact .inr (.inr (.inr hlater))

/-- The plan resolved for a router key names only a session that was in the table under that key at first, or was
stored there by someone else or remembered under it by a step that ran before; it is carried exactly when that
account is another one; and where an alias led to the session, the account is the turn's own. -/
theorem resolve_plan_isolated (digests : Digests) (options : SessionCacheOptions)
    (rows : LruMap (String × String) SessionRow) (steps : List StoreStep)
    (hsteps : ∀ timed ∈ steps, timed.call.Scoped) (input : StoreTurnInput) (hinput : NulFree input.apiKeyId)
    (clock : ℕ → ℤ) :
    let store := runFrom (SessionStore.step digests) (createSessionStore options rows) steps
    ∃ object, (store.resolve digests input clock).turns = store.turns ++ [object] ∧
      ∀ id, object.turn.plan.sdkSessionId? = some id → ∃ accountId,
        Known digests (createSessionStore options rows) steps input.apiKeyId accountId id ∧
          object.turn.plan.carryFrom? = (if accountId = input.accountId then none else some accountId) ∧
          ((store.cache.get (scopedKey input.apiKeyId input.sessionKey) (clock 0)).1.join = none →
            accountId = input.accountId) := by
  intro store
  have hisolated : Isolated (Known digests (createSessionStore options rows) steps) store := by
    have hstart : Isolated ((createSessionStore options rows).Stored) (createSessionStore options rows) :=
      ⟨by simp [createSessionStore, SessionCache.valueOf], fun _ _ _ h => h, by simp [createSessionStore],
        by simp [createSessionStore], by simp [createSessionStore]⟩
    exact @run_isolated digests _ _ steps hsteps hstart
  refine ⟨_, rfl, fun id hid => ?_⟩
  have hplan := resolveTurn_names hid
  obtain ⟨bound, hbound, rfl, hcarry⟩ := candidatePlan_names (hplan ▸ hid)
  replace hcarry := (congrArg SessionPlan.carryFrom? hplan).trans hcarry
  obtain ⟨entry, rfl, hdirect | ⟨hmiss, haccount, aliased, hscope, hvalue⟩⟩ := boundSession_found hbound
  · have hanswer : (store.cache.get (scopedKey input.apiKeyId input.sessionKey) (clock 0)).1 =
        some (some entry) := hdirect
    refine ⟨entry.accountId, hisolated.direct hinput hanswer, hcarry, fun hnone => ?_⟩
    rw [hanswer] at hnone
    cases hnone
  · -- The alias led to an entry filed under a router key whose scope the turn's key is in.
    have hcached := (SessionCache.get_within store.cache _ (clock 0)).value hvalue
    obtain ⟨apiKeyId, sessionKey, rfl, hfree, hknown⟩ := hisolated.cached aliased entry hcached
    obtain rfl := scope_of_inScope hinput hfree hscope
    exact ⟨entry.accountId, hknown, hcarry, fun _ => haccount⟩

/-- A conversation bound on one account is planned on another from the session the table binds. -/
theorem resolve_plan_isolated_carried :
    let rows : LruMap (String × String) SessionRow := AList.insert ("router", "conversation")
      ⟨some "account", some "session", some ⟨["hello"], ["", "answer"]⟩⟩ ∅
    let steps : List StoreStep :=
      [⟨.bindingBegin "router" "conversation", fun _ => 0⟩, ⟨.bindingTake 1, fun _ => 0⟩,
        ⟨.bindingEnd 1, fun _ => 0⟩]
    Known ⟨id, id⟩ (createSessionStore ⟨8, 300000, 30000⟩ rows) steps "router" "account" "session" := by
  intro rows steps
  let input : StoreTurnInput :=
    { apiKeyId := "router", sessionKey := "conversation", accountId := "other", clientCwd := none
      firstUserText := "hello", keySource := .header, clientToolLoop := false, forkOrSubagent := false
      sessionGone := false
      conversation := some ⟨[⟨.user, "hello"⟩, ⟨.assistant, "hi"⟩, ⟨.user, "more"⟩], false⟩ }
  have hsteps : ∀ timed ∈ steps, timed.call.Scoped := by
    intro timed hmem apiKeyId hkey
    simp only [steps, List.mem_cons, List.not_mem_nil, or_false] at hmem
    rcases hmem with rfl | rfl | rfl
    · obtain rfl := Option.some.inj hkey
      decide
    · cases hkey
    · cases hkey
  obtain ⟨object, hturns, hplan⟩ := resolve_plan_isolated ⟨id, id⟩ ⟨8, 300000, 30000⟩ rows steps hsteps input
    (by decide) fun _ => 0
  have hobject : object.turn.plan = .fork "session" "answer" 2 (some "account") := by
    have hplans := congrArg (List.map fun object : TurnObject => object.turn.plan) hturns
    rw [List.map_append] at hplans
    have hforked := hplans.symm.trans
      (by decide +kernel : _ = [SessionPlan.fork "session" "answer" 2 (some "account")])
    rcases List.append_eq_singleton_iff.mp hforked with ⟨-, hlast⟩ | ⟨-, hlast⟩
    · exact List.singleton_inj.mp hlast
    · simp at hlast
  obtain ⟨accountId, hknown, hcarry, -⟩ := hplan "session" (by rw [hobject]; rfl)
  rw [hobject] at hcarry
  split at hcarry
  · cases hcarry
  · obtain rfl := Option.some.inj hcarry
    exact hknown

end SessionStore

end MultiAiRouter.ClaudeSdk
