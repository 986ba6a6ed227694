import MultiAiRouter.ClaudeSdk.Session.StaleReads

/-!
# What a failed turn leaves behind

A turn that failed stores again the binding it found in the cache when it was resolved. Where the cache missed the
session's row, the row is put back as no binding. And the object that recorded has to be the one released, not one
that replaced it.
-/

namespace MultiAiRouter.ClaudeSdk

open Common

/-- The turn a call is on. -/
def StoreCall.turn? : StoreCall → Option ℕ
  | .prepare turn _ | .remember turn _ _ | .release turn _ => some turn
  | _ => none

/-- The call ends a turn. -/
def StoreCall.isRelease : StoreCall → Bool
  | .release _ _ => true
  | _ => false

namespace SessionStore

variable {digests : Digests} {store : SessionStore} {place since : ℕ} {context : TurnContext}

/-- The step is a call on an object of the context. -/
def OnTurn (place : ℕ) (store : SessionStore) (timed : StoreStep) : Prop :=
  ∃ number object, timed.call.turn? = some number ∧ store.turns[number]? = some object ∧ object.context = place

/-- Whether the object recorded a session. -/
def recorded (store : SessionStore) (number : ℕ) : Bool :=
  ((store.turns[number]?).map TurnObject.remembered).getD false

/-- No object of the context recorded a session. -/
def Unrecorded (place : ℕ) (store : SessionStore) : Prop :=
  ∀ object ∈ store.turns, object.context = place → object.remembered = false

/-- The write last queued for the key since the queue was so long. -/
def lastQueued (store : SessionStore) (key : String) (since : ℕ) : Option QueuedWrite :=
  ((store.writes.drop since).filter fun queued => queued.key = key).getLast?

/-- The cached binding is the row's, and a write queued since stores the row as it was. -/
def NoTrace (row : Option SessionRow) (key : String) (since : ℕ) (store : SessionStore) : Prop :=
  store.cache.valueOf key = entryOf row ∧
    ∀ queued, store.lastQueued key since = some queued → queued.row = row.getD (rowOf none)

/-- The turn's context is in its place, whatever became of its claim, and its lease stands. -/
structure Placed (place since : ℕ) (context : TurnContext) (store : SessionStore) : Prop where
  placed : ∃ claim, store.contexts[place]? = some { context with claim }
  valid : store.fence.leaseValid context.lease = true
  since_le : since ≤ store.writes.length

/-- Until its first release a turn that recorded nothing has changed nothing. -/
structure Running (place since : ℕ) (context : TurnContext) (store : SessionStore) : Prop
    extends Placed place since context store where
  held : ∀ object ∈ store.turns, object.context = place →
    (∃ turn, object.turn = .held turn) ∧ object.released = false
  untouched : Unrecorded place store → store.cache.valueOf context.key = context.prior ∧ store.writes.length = since

/-- After its first release the turn owns nothing, and what it found is back. -/
structure Withdrawn (wrote : Bool) (place since : ℕ) (context : TurnContext) (store : SessionStore) : Prop
    extends Placed place since context store where
  released : ∀ found, store.contexts[place]? = some found → found.claim.released = true
  cached : store.cache.valueOf context.key = context.prior
  queued : ∀ queued, store.lastQueued context.key since = some queued →
    wrote = true ∧ queued.row = rowOf context.prior
  quiet : wrote = false → Unrecorded place store

/-- A new lease leaves the others as they stand. -/
theorem leaseValid_hold (fence : DeletionFence) (accountId : Option String) {lease : ℕ}
    (h : fence.leaseValid lease = true) : (fence.hold accountId).2.leaseValid lease = true := by
  unfold DeletionFence.leaseValid DeletionFence.hold at *
  cases hlease : fence.leases[lease]? with
  | none => simp [hlease] at h
  | some held =>
    rw [List.getElem?_append_left (List.getElem?_eq_some_iff.mp hlease).1]
    exact h

/-- A released lease stands as it stood. -/
theorem leaseValid_releaseLease (fence : DeletionFence) (lease other : ℕ) :
    (fence.releaseLease lease).leaseValid other = fence.leaseValid other := by
  unfold DeletionFence.leaseValid DeletionFence.releaseLease
  rw [List.getElem?_modify]
  split <;> cases fence.leases[other]? <;> rfl

/-- A queued write keeps the context, the lease and the length. -/
theorem Placed.write (h : Placed place since context store) (apiKeyId sessionKey : String)
    (row : SessionRow) : Placed place since context (store.write apiKeyId sessionKey row) := by
  refine ⟨h.placed, leaseValid_hold _ _ h.valid, ?_⟩
  have := h.since_le
  simp only [SessionStore.write, List.length_append]
  omega

/-- A change of the claim keeps the rest of the context. -/
theorem Placed.withClaim (h : Placed place since context store) (claim : TurnClaim)
    (claimed : List String) {found : TurnContext} (hfound : store.contexts[place]? = some found) :
    Placed place since context (store.withClaim place found claim claimed) := by
  obtain ⟨old, hold⟩ := h.placed
  obtain rfl := Option.some.inj (hfound.symm.trans hold)
  have hlt : place < store.contexts.length := (List.getElem?_eq_some_iff.mp hfound).1
  exact ⟨⟨claim, by simp [SessionStore.withClaim, hlt]⟩, h.valid, h.since_le⟩

/-- The write last queued is the one just queued. -/
theorem lastQueued_write (h : since ≤ store.writes.length) (apiKeyId sessionKey : String) (row : SessionRow)
    {queued : QueuedWrite}
    (hqueued : (store.write apiKeyId sessionKey row).lastQueued (scopedKey apiKeyId sessionKey) since =
      some queued) : queued.row = row := by
  unfold lastQueued at hqueued
  simp only [SessionStore.write, List.drop_append_of_le_length h, List.filter_append] at hqueued
  rw [List.filter_cons_of_pos (by simp), List.filter_nil, List.getLast?_concat] at hqueued
  rw [← Option.some.inj hqueued]

/-- Preparing adds at most an object of the same context, which has done nothing. -/
theorem prepare_eq (store : SessionStore) (number : ℕ) (moved : Bool) :
    ∃ added, store.prepare number moved = { store with turns := store.turns ++ added } ∧
      ∀ object ∈ added, (∃ turn, object.turn = .held turn) ∧ object.released = false ∧
        object.remembered = false := by
  unfold prepare
  split
  · split
    · exact ⟨[], by simp, nofun⟩
    · refine ⟨[_], rfl, fun object hmem => ?_⟩
      rw [List.mem_singleton.mp hmem]
      exact ⟨⟨_, rfl⟩, rfl, rfl⟩
  · exact ⟨[], by simp, nofun⟩

/-- A turn of the context that remembers was refused the session, or recorded it in its object. -/
theorem remember_cases (number : ℕ) (id : String) (uuid : Option String) (clock : ℕ → ℤ)
    {object : TurnObject} {found : TurnContext} (hturn : store.turns[number]? = some object)
    (hcontext : store.contexts[object.context]? = some found) :
    (∃ claim claimed, (store.remember number id uuid clock) = store.withClaim object.context found claim claimed ∧
        (found.claim.released = true → claim = found.claim)) ∨
      store.remember number id uuid clock = store ∨
      found.claim.released = false ∧ ∃ claim claimed entry after,
        after.remembered = true ∧ after.context = object.context ∧
        (after.turn = object.turn ∧ after.released = object.released) ∧
        store.remember number id uuid clock =
          { (store.withClaim object.context found claim claimed).recordBinding found entry clock with
            turns := store.turns.set number after } := by
  obtain ⟨place, turn, remembered, released⟩ := object
  dsimp only at hcontext
  unfold remember
  rw [hturn]
  cases turn with
  | unrecorded plan => exact .inr (.inl rfl)
  | held turn =>
    dsimp only
    rw [hcontext]
    dsimp only
    split
    · exact .inr (.inl rfl)
    · cases howned : (found.claim.own store.claimed id).1 with
      | false =>
        refine .inl ⟨(found.claim.own store.claimed id).2.1, (found.claim.own store.claimed id).2.2, rfl, ?_⟩
        intro hreleased
        simp [TurnClaim.own, hreleased]
      | true =>
        refine .inr (.inr ⟨?_, (found.claim.own store.claimed id).2.1, (found.claim.own store.claimed id).2.2,
          turn.remember id uuid, { context := place, turn := .held turn, remembered := true, released },
          rfl, rfl, ⟨rfl, rfl⟩, rfl⟩)
        rw [← Bool.not_eq_true]
        intro hreleased
        simp [TurnClaim.own, hreleased] at howned

/-- A recorded binding keeps the context, the lease and the length. -/
theorem Placed.recordBinding (h : Placed place since context store) (found : TurnContext) (entry : SessionEntry)
    (clock : ℕ → ℤ) : Placed place since context (store.recordBinding found entry clock) := by
  unfold SessionStore.recordBinding
  refine Placed.write ?_ _ _ _
  exact ⟨h.placed, h.valid, h.since_le⟩

/-- A turn that ends gives its claim back, after it withdrew what its object recorded. -/
theorem release_eq (number : ℕ) (outcome : TurnOutcome) (clock : ℕ → ℤ) {object : TurnObject} {found : TurnContext}
    (hturn : store.turns[number]? = some object) (hcontext : store.contexts[object.context]? = some found) :
    ∃ settled claim claimed fence turns, store.release number outcome clock =
        { settled.withClaim object.context found claim claimed with fence, turns } ∧
      claim.released = true ∧ (∀ lease, fence.leaseValid lease = settled.fence.leaseValid lease) ∧
      (∀ after ∈ turns, ∃ before ∈ store.turns, after.context = before.context ∧
        after.remembered = before.remembered) ∧
      ((object.remembered = true ∧ settled = store.withdraw found clock) ∨
        (settled = store ∧ ¬ (object.remembered = true ∧ (∃ turn, object.turn = .held turn) ∧
          object.released = false ∧ outcome = .failed ∧ store.fence.leaseValid found.lease = true))) := by
  have hreleased : (found.claim.release store.claimed).1.released = true := by
    unfold TurnClaim.release
    split
    · assumption
    · rfl
  obtain ⟨place, turn, remembered, released⟩ := object
  dsimp only at hcontext
  unfold release
  rw [hturn]
  dsimp only
  rw [hcontext]
  cases turn with
  | unrecorded plan =>
    refine ⟨store, _, _, store.fence, store.turns, rfl, hreleased, fun _ => rfl, fun after hmem => ?_, .inr ⟨rfl, ?_⟩⟩
    · exact ⟨after, hmem, rfl, rfl⟩
    · rintro ⟨-, ⟨turn, hheld⟩, -⟩
      cases hheld
  | held turn =>
    have hturns : ∀ after ∈ store.turns.set number
        { context := place, turn := .held turn, remembered, released := true },
        ∃ before ∈ store.turns, after.context = before.context ∧ after.remembered = before.remembered := by
      intro after hmem
      rcases List.mem_or_eq_of_mem_set hmem with hmem | rfl
      · exact ⟨after, hmem, rfl, rfl⟩
      · exact ⟨_, List.mem_of_getElem? hturn, rfl, rfl⟩
    dsimp only
    split
    · next hwithdraws =>
      simp only [Bool.and_eq_true, decide_eq_true_eq] at hwithdraws
      exact ⟨store.withdraw found clock, _, _, _, _, rfl, hreleased, leaseValid_releaseLease _ _, hturns,
        .inl ⟨hwithdraws.1.2, rfl⟩⟩
    · next hstays =>
      refine ⟨store, _, _, _, _, rfl, hreleased, leaseValid_releaseLease _ _, hturns, .inr ⟨rfl, ?_⟩⟩
      rintro ⟨rfl, -, rfl, houtcome, hvalid⟩
      exact hstays (by simp [houtcome, hvalid])

/-- What a turn withdraws is back in the cache, and in the write last queued. -/
theorem Placed.withdraw (h : Placed place since context store) {claim : TurnClaim} (clock : ℕ → ℤ) :
    Placed place since context (store.withdraw { context with claim } clock) ∧
      (store.withdraw { context with claim } clock).cache.valueOf context.key = context.prior ∧
      ∀ queued, (store.withdraw { context with claim } clock).lastQueued context.key since = some queued →
        queued.row = rowOf context.prior := by
  have hcached : Placed place since context
      { store with cache := store.cache.set store.options context.key context.prior (clock 0) } :=
    ⟨h.placed, h.valid, h.since_le⟩
  refine ⟨hcached.write _ _ _, ?_, fun queued hqueued => lastQueued_write hcached.since_le _ _ _ hqueued⟩
  have hlookup := SessionCache.set_lookup store.cache store.options context.key context.prior (clock 0)
  obtain ⟨entry, hentry, hvalue⟩ := Option.map_eq_some_iff.mp hlookup
  change ((store.cache.set store.options context.key context.prior (clock 0)).entries.lookup context.key).bind
    CacheEntry.value = context.prior
  rw [hentry, Option.bind_some, hvalue]

/-- A turn that runs stays so until it is released. -/
theorem Running.step (h : Running place since context store) {timed : StoreStep} (hturn : OnTurn place store timed)
    (hrelease : timed.call.isRelease = false) : Running place since context (store.step digests timed) := by
  obtain ⟨number, object, hcall, hobject, rfl⟩ := hturn
  obtain ⟨call, clock⟩ := timed
  cases call with
  | prepare turn moved =>
    obtain ⟨added, heq, hadded⟩ := prepare_eq store turn moved
    change Running _ _ _ (store.prepare turn moved)
    rw [heq]
    refine ⟨⟨h.placed, h.valid, h.since_le⟩, fun other hother hcontext => ?_, fun hclean => ?_⟩
    · rcases List.mem_append.mp hother with hold | hnew
      · exact h.held other hold hcontext
      · exact ⟨(hadded other hnew).1, (hadded other hnew).2.1⟩
    · exact h.untouched fun other hother => hclean other (List.mem_append_left _ hother)
  | remember turn id uuid =>
    obtain rfl : turn = number := Option.some.inj hcall
    obtain ⟨claim, hplaced⟩ := h.placed
    change Running _ _ _ (store.remember turn id uuid clock)
    rcases remember_cases turn id uuid clock hobject hplaced with
      ⟨asked, claimed, heq, -⟩ | heq | ⟨-, asked, claimed, entry, after, hafter, hcontext, hsame, heq⟩
    · rw [heq]
      exact ⟨h.toPlaced.withClaim asked claimed hplaced, h.held, h.untouched⟩
    · rw [heq]
      exact h
    · rw [heq]
      have hrecorded := (h.toPlaced.withClaim asked claimed hplaced).recordBinding { context with claim } entry clock
      refine ⟨⟨hrecorded.placed, hrecorded.valid, hrecorded.since_le⟩, fun other hother hplace => ?_, ?_⟩
      · rcases List.mem_or_eq_of_mem_set hother with hold | rfl
        · exact h.held other hold hplace
        · rw [hsame.1, hsame.2]
          exact h.held object (List.mem_of_getElem? hobject) rfl
      -- The object itself has recorded now.
      · intro hclean
        have hlt : turn < store.turns.length := (List.getElem?_eq_some_iff.mp hobject).1
        have hmem : after ∈ store.turns.set turn after := List.mem_set hlt after
        rw [hclean after hmem hcontext] at hafter
        cases hafter
  | release turn outcome => cases hrelease
  | _ => cases hcall

/-- A context in place stays so when its claim is given back. -/
theorem Placed.settle (h : Placed place since context store) {found : TurnContext}
    (hfound : store.contexts[place]? = some found) (claim : TurnClaim) (claimed : List String)
    {fence : DeletionFence} (hfence : ∀ lease, fence.leaseValid lease = store.fence.leaseValid lease)
    (turns : List TurnObject) :
    Placed place since context { store.withClaim place found claim claimed with fence, turns } := by
  have hclaimed := h.withClaim claim claimed hfound
  exact ⟨hclaimed.placed, (hfence context.lease).trans hclaimed.valid, hclaimed.since_le⟩

/-- The claim that was given back is the one in place. -/
theorem withClaim_released {found other : TurnContext} (hfound : store.contexts[place]? = some found)
    {claim : TurnClaim} (hclaim : claim.released = true) (claimed : List String)
    (hother : (store.withClaim place found claim claimed).contexts[place]? = some other) :
    other.claim.released = true := by
  have hlt : place < store.contexts.length := (List.getElem?_eq_some_iff.mp hfound).1
  simp only [SessionStore.withClaim, List.getElem?_set_self hlt] at hother
  rw [← Option.some.inj hother]
  exact hclaim

/-- The first release, when it is of an object that recorded or no object did, puts back what the
turn found. -/
theorem Running.release (h : Running place since context store) {number : ℕ} {object : TurnObject}
    (hobject : store.turns[number]? = some object) (hcontext : object.context = place)
    (hrecorded : object.remembered = true ∨ Unrecorded place store) (clock : ℕ → ℤ) :
    Withdrawn object.remembered place since context (store.release number .failed clock) := by
  subst hcontext
  obtain ⟨claim, hplaced⟩ := h.placed
  have hmem := List.mem_of_getElem? hobject
  obtain ⟨settled, given, claimed, fence, turns, heq, hgiven, hfence, hturns, hsettled⟩ :=
    release_eq number .failed clock hobject hplaced
  have hquiet : object.remembered = false → Unrecorded object.context (store.release number .failed clock) := by
    intro hunrecorded after hafter hplace
    rw [heq] at hafter
    obtain ⟨before, hbefore, hsame, hremembered⟩ := hturns after hafter
    rw [hremembered]
    rcases hrecorded with hrecorded | hnone
    · rw [hrecorded] at hunrecorded
      cases hunrecorded
    · exact hnone before hbefore (hsame.symm.trans hplace)
  rcases hsettled with ⟨hremembered, rfl⟩ | ⟨rfl, hstays⟩
  · obtain ⟨hwithdrawn, hcached, hqueued⟩ := @Placed.withdraw store object.context since context h.toPlaced claim clock
    refine ⟨heq ▸ hwithdrawn.settle hplaced given claimed hfence turns, fun other hother => ?_, ?_, ?_, hquiet⟩
    · rw [heq] at hother
      exact withClaim_released hplaced hgiven claimed hother
    · rw [heq]
      exact hcached
    · intro queued hlast
      rw [heq] at hlast
      exact ⟨hremembered, hqueued queued hlast⟩
  · have hnone : Unrecorded object.context settled := by
      rcases hrecorded with hremembered | hnone
      · obtain ⟨hheld, hopen⟩ := h.held object hmem rfl
        exact absurd ⟨hremembered, hheld, hopen, rfl, h.valid⟩ hstays
      · exact hnone
    obtain ⟨hcached, hlength⟩ := h.untouched hnone
    refine ⟨heq ▸ h.toPlaced.settle hplaced given claimed hfence turns, fun other hother => ?_, ?_, ?_, hquiet⟩
    · rw [heq] at hother
      exact withClaim_released hplaced hgiven claimed hother
    · rw [heq]
      exact hcached
    · intro queued hlast
      rw [heq] at hlast
      unfold lastQueued at hlast
      rw [← hlength] at hlast
      simp [SessionStore.withClaim] at hlast

/-- After its first release no call on the turn changes what it found. -/
theorem Withdrawn.step {wrote : Bool} (h : Withdrawn wrote place since context store) {timed : StoreStep}
    (hturn : OnTurn place store timed) : Withdrawn wrote place since context (store.step digests timed) := by
  obtain ⟨number, object, hcall, hobject, rfl⟩ := hturn
  obtain ⟨claim, hplaced⟩ := h.placed
  obtain ⟨call, clock⟩ := timed
  cases call with
  | prepare turn moved =>
    obtain ⟨added, heq, hadded⟩ := prepare_eq store turn moved
    change Withdrawn _ _ _ _ (store.prepare turn moved)
    rw [heq]
    refine ⟨⟨h.placed, h.valid, h.since_le⟩, h.released, h.cached, h.queued, fun hwrote other hother hplace => ?_⟩
    rcases List.mem_append.mp hother with hold | hnew
    · exact h.quiet hwrote other hold hplace
    · exact (hadded other hnew).2.2
  | remember turn id uuid =>
    obtain rfl : turn = number := Option.some.inj hcall
    change Withdrawn _ _ _ _ (store.remember turn id uuid clock)
    have hreleased := h.released _ hplaced
    rcases remember_cases turn id uuid clock hobject hplaced with ⟨asked, claimed, heq, hsame⟩ | heq | ⟨hopen, -⟩
    · rw [heq, hsame hreleased]
      refine ⟨h.toPlaced.withClaim _ claimed hplaced, fun other hother => ?_, h.cached, h.queued, h.quiet⟩
      exact withClaim_released hplaced hreleased claimed hother
    · rw [heq]
      exact h
    · rw [hreleased] at hopen
      cases hopen
  | release turn outcome =>
    obtain rfl : turn = number := Option.some.inj hcall
    change Withdrawn _ _ _ _ (store.release turn outcome clock)
    obtain ⟨settled, given, claimed, fence, turns, heq, hgiven, hfence, hturns, hsettled⟩ :=
      release_eq turn outcome clock hobject hplaced
    have hquiet : wrote = false → Unrecorded object.context (store.release turn outcome clock) := by
      intro hwrote after hafter hplace
      rw [heq] at hafter
      obtain ⟨before, hbefore, hsame, hremembered⟩ := hturns after hafter
      rw [hremembered]
      exact h.quiet hwrote before hbefore (hsame.symm.trans hplace)
    rcases hsettled with ⟨hremembered, rfl⟩ | ⟨rfl, -⟩
    · -- Another object of the turn recorded too: the same binding is put back again.
      have hwrote : wrote = true := by
        cases wrote with
        | true => rfl
        | false =>
          rw [h.quiet rfl object (List.mem_of_getElem? hobject) rfl] at hremembered
          cases hremembered
      obtain ⟨hwithdrawn, hcached, hqueued⟩ :=
        @Placed.withdraw store object.context since context h.toPlaced claim clock
      refine ⟨heq ▸ hwithdrawn.settle hplaced given claimed hfence turns, fun other hother => ?_, ?_, ?_, hquiet⟩
      · rw [heq] at hother
        exact withClaim_released hplaced hgiven claimed hother
      · rw [heq]
        exact hcached
      · intro queued hlast
        rw [heq] at hlast
        exact ⟨hwrote, hqueued queued hlast⟩
    · refine ⟨heq ▸ h.toPlaced.settle hplaced given claimed hfence turns, fun other hother => ?_, ?_, ?_, hquiet⟩
      · rw [heq] at hother
        exact withClaim_released hplaced hgiven claimed hother
      · rw [heq]
        exact h.cached
      · intro queued hlast
        rw [heq] at hlast
        exact h.queued queued hlast
  | _ => cases hcall

/-- The turn's session key holds what the turn found, as far as the cache goes. -/
theorem get_valueOf (cache : SessionCache) (key : String) (now : ℤ) :
    (cache.get key now).2.valueOf key = (cache.get key now).1.join := by
  cases hget : (cache.get key now).1 with
  | none =>
    rw [SessionCache.valueOf, SessionCache.get_miss hget]
    rfl
  | some value =>
    unfold SessionCache.get at hget ⊢
    cases hlookup : cache.entries.lookup key with
    | none => simp [hlookup] at hget
    | some entry =>
      rw [hlookup] at hget
      dsimp only at hget ⊢
      split at hget
      · cases hget
      · next hlive =>
        rw [if_neg hlive, ← Option.some.inj hget]
        simp [SessionCache.valueOf]

/-- Looking for a session to rejoin leaves the turn's own key as it was. -/
theorem boundSession_valueOf (cache : SessionCache) (direct : Option (Option SessionEntry))
    (apiKeyId accountId : String) (fingerprint : Option String) (clock : ℕ → ℤ) {key : String}
    (hvalue : cache.valueOf key = direct.join) :
    (boundSession cache direct apiKeyId accountId fingerprint clock).2.valueOf key = direct.join := by
  cases hjoin : direct.join with
  | some entry =>
    obtain rfl := Option.join_eq_some_iff.mp hjoin
    exact hvalue
  | none =>
    rw [hjoin] at hvalue
    refine Option.eq_none_iff_forall_ne_some.mpr fun value hfound => ?_
    have hbefore := (boundSession_within cache direct apiKeyId accountId fingerprint clock).value hfound
    rw [hvalue] at hbefore
    cases hbefore

/-- What the cache answers under the turn's session key. -/
def foundBinding (store : SessionStore) (input : StoreTurnInput) (now : ℤ) : Option SessionEntry :=
  (store.cache.get (scopedKey input.apiKeyId input.sessionKey) now).1.join

/-- What the table holds under the turn's session key. -/
def sessionRow (store : SessionStore) (input : StoreTurnInput) : Option SessionRow :=
  store.rows.lookup (input.apiKeyId, input.sessionKey)

/-- A held turn begins with nothing changed. -/
theorem ClaimsSound.running (h : store.ClaimsSound) (input : StoreTurnInput) (clock : ℕ → ℤ) {turn : HeldTurn}
    (hheld : (store.resolve digests input clock).turns[store.turns.length]? =
      some { context := store.contexts.length, turn := .held turn }) :
    ∃ context, context.key = scopedKey input.apiKeyId input.sessionKey ∧
      context.prior = store.foundBinding input (clock 0) ∧
      Running store.contexts.length store.writes.length context (store.resolve digests input clock) := by
  obtain ⟨context, hcontexts, hkey, hprior, hlease⟩ : ∃ context,
      (store.resolve digests input clock).contexts = store.contexts ++ [context] ∧
      context.key = scopedKey input.apiKeyId input.sessionKey ∧
      context.prior = store.foundBinding input (clock 0) ∧ context.lease = store.fence.leases.length :=
    ⟨_, rfl, rfl, rfl, rfl⟩
  refine ⟨context, hkey, hprior, ⟨⟨⟨context.claim, ?_⟩, ?_, Nat.le_refl _⟩, ?_, fun _ => ⟨?_, rfl⟩⟩⟩
  · rw [hcontexts]
    exact List.getElem?_concat_length
  · rw [hlease]
    simp only [SessionStore.resolve, List.getElem?_concat_length, Option.some.injEq, TurnObject.mk.injEq,
      true_and, and_true] at hheld ⊢
    rw [hheld]
    simp [DeletionFence.hold, DeletionFence.leaseValid]
  · intro object hmem hplace
    rcases List.mem_append.mp hmem with hold | hnew
    · -- The objects of earlier turns are of earlier contexts.
      have hlt := (h.refused object hold).1
      omega
    · simp only [SessionStore.resolve, List.getElem?_concat_length, Option.some.injEq] at hheld
      rw [List.mem_singleton.mp hnew]
      exact ⟨⟨turn, congrArg TurnObject.turn hheld⟩, rfl⟩
  · rw [hkey, hprior]
    exact boundSession_valueOf _ _ _ _ _ _ (get_valueOf _ _ _)

/-- A turn that runs does so until its first release. -/
theorem Running.run (h : Running place since context store) (before rest : List StoreStep)
    (hturn : EveryStep (SessionStore.step digests) (OnTurn place) store (before ++ rest))
    (hfirst : ∀ timed ∈ before, timed.call.isRelease = false) :
    Running place since context (runFrom (SessionStore.step digests) store before) ∧
      EveryStep (SessionStore.step digests) (OnTurn place) (runFrom (SessionStore.step digests) store before) rest := by
  induction before generalizing store with
  | nil => exact ⟨h, hturn⟩
  | cons timed before ih =>
    have hstep : Running place since context (store.step digests timed) :=
      h.step hturn.1 (hfirst timed List.mem_cons_self)
    exact ih hstep hturn.2 fun later hlater => hfirst later (List.mem_cons_of_mem _ hlater)

/-- A held turn whose first release is a failed one leaves no trace, whatever calls on its objects come before and
after, if the cache told the turn the binding its row holds, and the object released is one that recorded, where any
did. -/
theorem run_failed_noTrace (digests : Digests) (options : SessionCacheOptions)
    (rows : LruMap (String × String) SessionRow) (history : List StoreStep) (store : SessionStore)
    (hstore : store = runFrom (SessionStore.step digests) (createSessionStore options rows) history)
    (input : StoreTurnInput) (clock ended : ℕ → ℤ) (turn : HeldTurn)
    (hheld : (store.resolve digests input clock).turns[store.turns.length]? =
      some { context := store.contexts.length, turn := .held turn })
    (before after : List StoreStep) (number : ℕ)
    (hturn : EveryStep (SessionStore.step digests) (OnTurn store.contexts.length)
      (store.resolve digests input clock) (before ++ ⟨.release number .failed, ended⟩ :: after))
    (hfirst : ∀ timed ∈ before, timed.call.isRelease = false)
    (hfound : store.foundBinding input (clock 0) = entryOf (store.sessionRow input))
    (released : SessionStore)
    (hreleased : released = runFrom (SessionStore.step digests) (store.resolve digests input clock) before)
    (hrecorded : (released.recorded number = true ∧
        rowOf (entryOf (store.sessionRow input)) = (store.sessionRow input).getD (rowOf none)) ∨
      Unrecorded store.contexts.length released) :
    NoTrace (store.sessionRow input) (scopedKey input.apiKeyId input.sessionKey) store.writes.length
      (runFrom (SessionStore.step digests) (store.resolve digests input clock)
        (before ++ ⟨.release number .failed, ended⟩ :: after)) := by
  have hsound : store.ClaimsSound := by
    rw [hstore]
    exact runFrom_invariant ClaimsSound (fun store timed h => step_claimsSound store timed h) history _
      (createSessionStore_claimsSound options rows)
  obtain ⟨context, hkey, hprior, hopened⟩ := hsound.running input clock hheld
  obtain ⟨hrunning, ⟨found, object, hcall, hobject, hcontext⟩, hafter⟩ := hopened.run before _ hturn hfirst
  obtain rfl : number = found := Option.some.inj hcall
  rw [runFrom_append, runFrom_cons]
  rw [← hreleased] at hrunning hobject hafter ⊢
  have hremembered : released.recorded number = object.remembered := by simp [recorded, hobject]
  rw [hremembered] at hrecorded
  have hwithdrawn : Withdrawn object.remembered store.contexts.length store.writes.length context
      (released.step digests ⟨.release number .failed, ended⟩) :=
    hrunning.release hobject hcontext (hrecorded.imp And.left id) ended
  have hfinal := runFrom_invariant_of_everyStep
    (Withdrawn object.remembered store.contexts.length store.writes.length context)
    (fun _ _ h hstep => h.step hstep) after _ hwithdrawn hafter
  rw [← hkey]
  refine ⟨hfinal.cached.trans (hprior.trans hfound), fun queued hqueued => ?_⟩
  obtain ⟨hwrote, hsame⟩ := hfinal.queued queued hqueued
  rw [hsame, hprior, hfound]
  rcases hrecorded with ⟨-, hwhole⟩ | hnone
  · exact hwhole
  · rw [hnone object (List.mem_of_getElem? hobject) hcontext] at hwrote
    cases hwrote

/-- A turn that found its row in the cache is refused after it named its session, and what it recorded
is withdrawn; the session it names once more is not recorded. -/
theorem run_failed_noTrace_restored :
    NoTrace (some ⟨some "account", some "stored", some ⟨["hello"], ["", "answer"]⟩⟩)
      (scopedKey "router" "conversation") 0
      (runFrom (SessionStore.step ⟨id, id⟩)
        ((runFrom (SessionStore.step ⟨id, id⟩)
            (createSessionStore ⟨8, 300000, 30000⟩ (AList.insert ("router", "conversation")
              ⟨some "account", some "stored", some ⟨["hello"], ["", "answer"]⟩⟩ ∅))
            [⟨.bindingBegin "router" "conversation", fun _ => 0⟩, ⟨.bindingTake 1, fun _ => 0⟩,
              ⟨.bindingEnd 1, fun _ => 0⟩]).resolve ⟨id, id⟩
          { apiKeyId := "router", sessionKey := "conversation", accountId := "account"
            clientCwd := none, firstUserText := "hello", keySource := .header
            clientToolLoop := false, forkOrSubagent := false, sessionGone := false
            conversation := some ⟨[⟨.user, "hello"⟩], false⟩ } fun _ => 0)
        ([⟨.remember 0 "session" none, fun _ => 0⟩] ++ ⟨.release 0 .failed, fun _ => 0⟩ ::
          [⟨.remember 0 "session" none, fun _ => 0⟩])) := by
  refine run_failed_noTrace ⟨id, id⟩ ⟨8, 300000, 30000⟩ _ _ _ rfl _ (fun _ => 0) (fun _ => 0) _ (by rfl)
    _ _ 0 ?_ ?_ ?_ _ rfl (.inl ?_)
  · refine ⟨?_, ?_, ?_, trivial⟩
    · exact ⟨0, _, rfl, by rfl, by rfl⟩
    · exact ⟨0, _, rfl, by rfl, by rfl⟩
    · exact ⟨0, _, rfl, by rfl, by rfl⟩
  · decide
  · decide +kernel
  · decide +kernel

/-- The row could not be read, so the turn finds nothing in the cache; when it is refused after it named its
session, the row is put back as no binding. -/
theorem run_failed_row_lost :
    let rows : LruMap (String × String) SessionRow := AList.insert ("router", "conversation")
      ⟨some "account", some "stored", some ⟨["hello"], ["", "answer"]⟩⟩ ∅
    let store := runFrom (SessionStore.step ⟨id, id⟩) (createSessionStore ⟨8, 300000, 30000⟩ rows)
      [⟨.bindingBegin "router" "conversation", fun _ => 0⟩, ⟨.bindingFail 1, fun _ => 0⟩]
    let resolved := store.resolve ⟨id, id⟩
      { apiKeyId := "router", sessionKey := "conversation", accountId := "account"
        clientCwd := none, firstUserText := "hello", keySource := .header
        clientToolLoop := false, forkOrSubagent := false, sessionGone := false
        conversation := some ⟨[⟨.user, "hello"⟩], false⟩ } fun _ => 0
    let ended := runFrom (SessionStore.step ⟨id, id⟩) resolved
      [⟨.remember 0 "session" none, fun _ => 0⟩, ⟨.release 0 .failed, fun _ => 0⟩]
    store.rows.lookup ("router", "conversation") =
        some ⟨some "account", some "stored", some ⟨["hello"], ["", "answer"]⟩⟩ ∧
      (∃ turn, resolved.turns[store.turns.length]? = some { context := store.contexts.length, turn := .held turn }) ∧
      (ended.lastQueued (scopedKey "router" "conversation") 0).map QueuedWrite.row = some (rowOf none) ∧
      ¬ NoTrace (store.rows.lookup ("router", "conversation")) (scopedKey "router" "conversation") 0 ended := by
  refine ⟨by decide +kernel, ⟨_, by rfl⟩, by decide +kernel, ?_⟩
  rintro ⟨hcached, -⟩
  exact absurd hcached (by decide +kernel)

end SessionStore

end MultiAiRouter.ClaudeSdk
