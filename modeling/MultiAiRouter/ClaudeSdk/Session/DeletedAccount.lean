import MultiAiRouter.ClaudeSdk.Session.FenceHistory

/-!
# A deleted account stays deleted

Reads are fenced by tickets, turns and queued writes by leases. A turn holds a lease on the account it runs on; the
binding it puts back when it fails may name another one.
-/

namespace MultiAiRouter.ClaudeSdk

open Common

namespace SessionStore

variable {digests : Digests} {store : SessionStore} {since : ℕ → List String}

/-- Every write that waits and every turn that has not been released stands while its lease does, and no
lease is shared. -/
structure Fenced (since : ℕ → List String) (store : SessionStore) : Prop where
  fresh : ∀ lease, store.fence.leases.length ≤ lease → since lease = []
  writes : ∀ queued ∈ store.writes, DeletionFence.Stands store.fence.leases since queued.lease queued.row.accountId
  turns : ∀ object ∈ store.turns, ∀ turn, object.turn = .held turn → ∃ context,
    store.contexts[object.context]? = some context ∧ context.accountId = turn.accountId ∧
    context.lease < store.fence.leases.length ∧ (∀ queued ∈ store.writes, queued.lease ≠ context.lease) ∧
    (context.claim.released = false →
      DeletionFence.Stands store.fence.leases since context.lease (some context.accountId))
  apart : ∀ first ∈ store.turns, ∀ second ∈ store.turns, ∀ held other, first.turn = .held held →
    second.turn = .held other → ∀ context found, store.contexts[first.context]? = some context →
      store.contexts[second.context]? = some found → context.lease = found.lease → first.context = second.context

/-- What the fence does not see changes nothing. -/
theorem Fenced.congr {after : SessionStore} (h : Fenced since store) (hleases : after.fence.leases = store.fence.leases)
    (hcontexts : after.contexts = store.contexts) (hturns : after.turns = store.turns)
    (hwrites : ∀ queued ∈ after.writes, ∃ before ∈ store.writes, before.lease = queued.lease ∧ before.row =
      queued.row) :
    Fenced since after where
  fresh := hleases ▸ h.fresh
  writes queued hmem := by
    obtain ⟨before, hbefore, hlease, hrow⟩ := hwrites queued hmem
    rw [hleases, ← hlease, ← hrow]
    exact h.writes before hbefore
  turns object hmem turn hturn := by
    obtain ⟨context, hcontext, haccount, hlt, hforeign, hstands⟩ := h.turns object (hturns ▸ hmem) turn hturn
    rw [hleases, hcontexts]
    refine ⟨context, hcontext, haccount, hlt, fun queued hqueued => ?_, hstands⟩
    obtain ⟨before, hbefore, hlease, -⟩ := hwrites queued hqueued
    rw [← hlease]
    exact hforeign before hbefore
  apart := by
    rw [hturns, hcontexts]
    exact h.apart

/-- A write takes a lease of its own. -/
theorem Fenced.write (h : Fenced since store) (apiKeyId sessionKey : String) (row : SessionRow) :
    Fenced since (store.write apiKeyId sessionKey row) := by
  refine ⟨fun lease hle => ?_, fun queued hmem => ?_, fun object hmem turn hturn => ?_, h.apart⟩
  · rw [SessionStore.write, length_hold] at hle
    exact h.fresh lease (Nat.le_of_succ_le hle)
  · rcases List.mem_append.mp hmem with hold | hnew
    · exact (h.writes queued hold).hold _
    · rw [List.mem_singleton.mp hnew]
      exact DeletionFence.stands_hold (h.fresh _ (Nat.le_refl _))
  · obtain ⟨context, hcontext, haccount, hlt, hforeign, hstands⟩ := h.turns object hmem turn hturn
    refine ⟨context, hcontext, haccount, ?_, fun queued hqueued => ?_, fun hrunning => (hstands hrunning).hold _⟩
    · rw [SessionStore.write, length_hold]
      exact Nat.lt_succ_of_lt hlt
    · rcases List.mem_append.mp hqueued with hold | hnew
      · exact hforeign queued hold
      · rw [List.mem_singleton.mp hnew]
        exact Nat.ne_of_gt hlt

/-- A turn's claim may change, as long as it is not taken back. -/
theorem Fenced.withClaim (h : Fenced since store) {place : ℕ} {context : TurnContext}
    (hcontext : store.contexts[place]? = some context) (claim : TurnClaim) (claimed : List String)
    (hclaim : claim.released = false → context.claim.released = false) :
    Fenced since (store.withClaim place context claim claimed) := by
  -- The context in a place has the lease and the account it had.
  have hplaced {number : ℕ} {found : TurnContext}
      (hfound : (store.contexts.set place { context with claim })[number]? = some found) :
      ∃ before, store.contexts[number]? = some before ∧ before.lease = found.lease := by
    rcases getElem?_set_cases hfound with ⟨rfl, rfl⟩ | ⟨-, hold⟩
    · exact ⟨context, hcontext, rfl⟩
    · exact ⟨found, hold, rfl⟩
  refine ⟨h.fresh, h.writes, fun object hmem turn hturn => ?_, ?_⟩
  · obtain ⟨found, hfound, haccount, hlt, hforeign, hstands⟩ := h.turns object hmem turn hturn
    by_cases hsame : place = object.context
    · subst hsame
      obtain rfl := Option.some.inj (hcontext.symm.trans hfound)
      have hbound : object.context < store.contexts.length := (List.getElem?_eq_some_iff.mp hcontext).1
      refine ⟨{ context with claim }, ?_, haccount, hlt, hforeign, fun hrunning => hstands (hclaim hrunning)⟩
      exact List.getElem?_set_self hbound
    · refine ⟨found, ?_, haccount, hlt, hforeign, hstands⟩
      exact (List.getElem?_set_ne hsame).trans hfound
  · intro first hfirst second hsecond held other hheld hother one two hone htwo hlease
    obtain ⟨oneBefore, honeBefore, honeLease⟩ := hplaced hone
    obtain ⟨twoBefore, htwoBefore, htwoLease⟩ := hplaced htwo
    exact h.apart first hfirst second hsecond held other hheld hother oneBefore twoBefore honeBefore htwoBefore
      (honeLease.trans (hlease.trans htwoLease.symm))

/-- A lease leaves its group once nothing that still runs holds it. -/
theorem Fenced.releaseLease (h : Fenced since store) (lease : ℕ)
    (hwrites : ∀ queued ∈ store.writes, queued.lease ≠ lease)
    (hturns : ∀ object ∈ store.turns, ∀ turn, object.turn = .held turn → ∀ context,
      store.contexts[object.context]? = some context → context.lease = lease → context.claim.released = true) :
    Fenced since { store with fence := store.fence.releaseLease lease } := by
  refine ⟨fun number hle => h.fresh number (by simpa using hle), fun queued hmem => ?_,
    fun object hmem turn hturn => ?_, h.apart⟩
  · exact (h.writes queued hmem).modify (Ne.symm (hwrites queued hmem)) _
  · obtain ⟨context, hcontext, haccount, hlt, hforeign, hstands⟩ := h.turns object hmem turn hturn
    refine ⟨context, hcontext, haccount, by simpa using hlt, hforeign, fun hrunning => ?_⟩
    refine (hstands hrunning).modify (fun hsame => ?_) _
    rw [hturns object hmem turn hturn context hcontext hsame.symm] at hrunning
    cases hrunning

/-- What a turn did, and a turn that takes its place, keep what it stands on. -/
theorem Fenced.withTurns (h : Fenced since store) {turns : List TurnObject}
    (hturns : ∀ object ∈ turns, ∀ turn, object.turn = .held turn → ∃ before ∈ store.turns, ∃ held,
      before.turn = .held held ∧ before.context = object.context ∧ held.accountId = turn.accountId) :
    Fenced since { store with turns } := by
  refine ⟨h.fresh, h.writes, fun object hmem turn hturn => ?_, ?_⟩
  · obtain ⟨before, hbefore, held, hheld, hplace, haccount⟩ := hturns object hmem turn hturn
    obtain ⟨context, hcontext, hsame, hrest⟩ := h.turns before hbefore held hheld
    exact ⟨context, hplace ▸ hcontext, hsame.trans haccount, hrest⟩
  · intro first hfirst second hsecond held other hheld hother one two hone htwo hlease
    obtain ⟨firstBefore, hfirstBefore, firstHeld, hfirstHeld, hfirstPlace, -⟩ := hturns first hfirst held hheld
    obtain ⟨secondBefore, hsecondBefore, secondHeld, hsecondHeld, hsecondPlace, -⟩ :=
      hturns second hsecond other hother
    rw [← hfirstPlace, ← hsecondPlace]
    exact h.apart firstBefore hfirstBefore secondBefore hsecondBefore firstHeld secondHeld hfirstHeld hsecondHeld
      one two (hfirstPlace ▸ hone) (hsecondPlace ▸ htwo) hlease

/-- The write at the head of its queue leaves it. -/
theorem Fenced.settleWrite (h : Fenced since store) (horder : store.InOrder) {queued : QueuedWrite}
    (hhead : store.headWrite queued.key = some queued) : Fenced since (store.settleWrite queued.key queued) := by
  obtain ⟨front, back, hsplit, hothers, herased⟩ := headWrite_split hhead
  have hmember : ∀ other ∈ front ++ back, other ∈ store.writes := by
    intro other hmem
    rw [← herased] at hmem
    exact List.mem_of_mem_eraseP hmem
  have hleft : Fenced since { store with writes := store.writes.eraseP fun other => other.key = queued.key } := by
    refine h.congr rfl rfl rfl fun other hmem => ?_
    exact ⟨other, hmember other (herased ▸ hmem), rfl, rfl⟩
  refine hleft.releaseLease queued.lease (fun other hmem => ?_) fun object hmem turn hturn context hcontext hsame => ?_
  · -- The other writes were called before or after it.
    have hordered := List.pairwise_append.mp (hsplit ▸ horder.order)
    rcases List.mem_append.mp (herased ▸ hmem) with hfront | hback
    · exact Nat.ne_of_lt (hordered.2.2 other hfront queued List.mem_cons_self)
    · exact Nat.ne_of_gt (horder.behind hsplit other hback)
  · obtain ⟨found, hfound, -, -, hforeign, -⟩ := h.turns object hmem turn hturn
    obtain rfl := Option.some.inj (hfound.symm.trans hcontext)
    exact absurd hsame.symm (hforeign queued (List.mem_of_find?_eq_some hhead))

/-- A recorded binding takes a lease for its row. -/
theorem Fenced.recordBinding (h : Fenced since store) (context : TurnContext) (entry : SessionEntry)
    (clock : ℕ → ℤ) : Fenced since (store.recordBinding context entry clock) := by
  unfold SessionStore.recordBinding
  refine Fenced.write ?_ _ _ _
  exact h.congr rfl rfl rfl fun queued hmem => ⟨queued, hmem, rfl, rfl⟩

/-- What a turn puts back takes a lease for its row. -/
theorem Fenced.withdraw (h : Fenced since store) (context : TurnContext) (clock : ℕ → ℤ) :
    Fenced since (store.withdraw context clock) := by
  unfold SessionStore.withdraw
  refine Fenced.write ?_ _ _ _
  exact h.congr rfl rfl rfl fun queued hmem => ⟨queued, hmem, rfl, rfl⟩

/-- Asking for a session does not take the claim back. -/
theorem own_released (claim : TurnClaim) (claimed : List String) (id : String) :
    (claim.own claimed id).2.1.released = claim.released := by
  unfold TurnClaim.own
  split
  · rfl
  · split <;> rfl

/-- A turn that remembers stands on the lease it had. -/
theorem Fenced.remember (h : Fenced since store) (number : ℕ) (id : String) (uuid : Option String)
    (clock : ℕ → ℤ) : Fenced since (store.remember number id uuid clock) := by
  unfold SessionStore.remember
  split
  · next place turn remembered released hturn =>
    cases hcontext : store.contexts[place]? with
    | none => exact h
    | some context =>
      dsimp only
      split
      · exact h
      · have hasked := h.withClaim hcontext (context.claim.own store.claimed id).2.1
          (context.claim.own store.claimed id).2.2 fun hreleased => own_released _ _ _ ▸ hreleased
        split
        · exact hasked
        · have hrecorded := hasked.recordBinding context (turn.remember id uuid) clock
          refine hrecorded.withTurns fun object hmem held hheld => ?_
          rcases List.mem_or_eq_of_mem_set hmem with hold | rfl
          · exact ⟨object, hold, held, hheld, rfl, rfl⟩
          · exact ⟨_, List.mem_of_getElem? hturn, held, hheld, rfl, rfl⟩
  · exact h

/-- A turn that gives its claim back gives up its lease with it. -/
theorem Fenced.giveUp (h : Fenced since store) {object : TurnObject} (hmem : object ∈ store.turns) {turn : HeldTurn}
    (hturn : object.turn = .held turn) {context : TurnContext}
    (hcontext : store.contexts[object.context]? = some context) {claim : TurnClaim}
    (hreleased : claim.released = true) (claimed : List String) :
    Fenced since { store.withClaim object.context context claim claimed with
      fence := store.fence.releaseLease context.lease } := by
  have hgiven := h.withClaim hcontext claim claimed fun hopen => by
    rw [hreleased] at hopen
    cases hopen
  have hbound : object.context < store.contexts.length := (List.getElem?_eq_some_iff.mp hcontext).1
  have hplaced : (store.withClaim object.context context claim claimed).contexts[object.context]? =
      some { context with claim } := List.getElem?_set_self hbound
  refine hgiven.releaseLease context.lease (fun queued hqueued => ?_) fun other hother held hheld found
    hfound hsame => ?_
  · obtain ⟨found, hfound, -, -, hforeign, -⟩ := h.turns object hmem turn hturn
    obtain rfl := Option.some.inj (hfound.symm.trans hcontext)
    exact hforeign queued hqueued
  · -- Only the turn's own objects share its lease.
    have hplace := hgiven.apart other hother object hmem held turn hheld hturn found _ hfound hplaced hsame
    rw [hplace, hplaced] at hfound
    rw [← Option.some.inj hfound]
    exact hreleased

/-- A turn that ends gives up its lease with its claim. -/
theorem Fenced.release (h : Fenced since store) (number : ℕ) (outcome : TurnOutcome) (clock : ℕ → ℤ) :
    Fenced since (store.release number outcome clock) := by
  unfold SessionStore.release
  split
  · exact h
  · next place turn remembered released hturn =>
    cases hcontext : store.contexts[place]? with
    | none => exact h
    | some context =>
      have hreleased : (context.claim.release store.claimed).1.released = true := by
        unfold TurnClaim.release
        split
        · assumption
        · rfl
      dsimp only
      cases turn with
      | unrecorded plan =>
        refine h.withClaim hcontext _ _ fun hopen => ?_
        rw [hreleased] at hopen
        cases hopen
      | held turn =>
        have hmem := List.mem_of_getElem? hturn
        have hturns : ∀ object ∈ store.turns.set number
            { context := place, turn := .held turn, remembered, released := true },
            ∀ held, object.turn = .held held → ∃ before ∈ store.turns, ∃ found, before.turn = .held found ∧
              before.context = object.context ∧ found.accountId = held.accountId := by
          intro object hobject held hheld
          rcases List.mem_or_eq_of_mem_set hobject with hold | rfl
          · exact ⟨object, hold, held, hheld, rfl, rfl⟩
          · exact ⟨_, hmem, held, hheld, rfl, rfl⟩
        dsimp only
        split
        · exact ((h.withdraw context clock).giveUp hmem rfl hcontext hreleased _).withTurns hturns
        · exact (h.giveUp hmem rfl hcontext hreleased _).withTurns hturns

/-- A deletion revokes what stands on the account. -/
theorem Fenced.invalidateAccount (h : Fenced since store) (accountId : String) :
    Fenced (DeletionFence.sinceDeletion since accountId (· < store.fence.leases.length))
      (store.invalidateAccount accountId) := by
  have hleases : (store.invalidateAccount accountId).fence.leases = _ := leases_invalidate store.fence accountId
  have hlength : (store.invalidateAccount accountId).fence.leases.length = store.fence.leases.length := by
    rw [hleases, List.length_map]
  refine ⟨fun lease hle => ?_, fun queued hmem => ?_, fun object hmem turn hturn => ?_, h.apart⟩
  · rw [hlength] at hle
    unfold DeletionFence.sinceDeletion
    rw [if_neg (by omega)]
    exact h.fresh lease hle
  · rw [hleases]
    exact (h.writes queued hmem).invalidate accountId
  · obtain ⟨context, hcontext, haccount, hlt, hforeign, hstands⟩ := h.turns object hmem turn hturn
    refine ⟨context, hcontext, haccount, hlength ▸ hlt, hforeign, fun hrunning => ?_⟩
    rw [hleases]
    exact (hstands hrunning).invalidate accountId

/-- A held turn runs on the account it was resolved for. -/
theorem resolveTurn_account {digest : String → String} {session : Option BoundSession} {input : ResolveTurnInput}
    {claimed : Bool} {turn : HeldTurn} (h : resolveTurn digest session input claimed = .held turn) :
    turn.accountId = input.accountId := by
  unfold resolveTurn at h
  dsimp only at h
  split at h
  · cases h
  · split at h
    · rw [← SessionTurn.held.inj h]
    · cases h

/-- A turn that is resolved has a new context, and a new lease on its account if it records. -/
theorem resolve_leases (input : StoreTurnInput) (clock : ℕ → ℤ) : ∃ context turn,
    (store.resolve digests input clock).contexts = store.contexts ++ [context] ∧
    (store.resolve digests input clock).turns = store.turns ++ [{ context := store.contexts.length, turn }] ∧
    context.lease = store.fence.leases.length ∧
    ((∃ plan, turn = .unrecorded plan) ∧ (store.resolve digests input clock).fence.leases = store.fence.leases ∨
      (∃ held, turn = .held held ∧ held.accountId = context.accountId) ∧
        (store.resolve digests input clock).fence.leases =
          store.fence.leases ++ [{ accountId := some context.accountId }]) := by
  unfold SessionStore.resolve
  dsimp only
  generalize hturn : resolveTurn digests.message _ input.toResolveTurnInput _ = turn
  refine ⟨_, turn, rfl, rfl, rfl, ?_⟩
  cases turn with
  | unrecorded plan => exact .inl ⟨⟨plan, rfl⟩, rfl⟩
  | held held => exact .inr ⟨⟨held, rfl, resolveTurn_account hturn⟩, rfl⟩

/-- A turn that begins leaves the others on their leases. -/
theorem Fenced.resolve (h : Fenced since store) (input : StoreTurnInput) (clock : ℕ → ℤ) :
    Fenced since (store.resolve digests input clock) := by
  obtain ⟨context, turn, hcontexts, hturns, hlease, hcases⟩ := @resolve_leases digests store input clock
  -- A lease from before stands as it stood.
  have hkept {lease : ℕ} {accountId : Option String}
      (hstands : DeletionFence.Stands store.fence.leases since lease accountId) :
      DeletionFence.Stands (store.resolve digests input clock).fence.leases since lease accountId := by
    rcases hcases with ⟨-, hleases⟩ | ⟨-, hleases⟩
    · rwa [hleases]
    · rw [hleases]
      exact hstands.hold _
  have hlength : store.fence.leases.length ≤ (store.resolve digests input clock).fence.leases.length := by
    rcases hcases with ⟨-, hleases⟩ | ⟨-, hleases⟩
    · rw [hleases]
    · rw [hleases, List.length_append]
      omega
  -- A held turn from before is in its place, under a lease from before.
  have hold {object : TurnObject} (hmem : object ∈ store.turns) {held : HeldTurn} (hheld : object.turn = .held held)
      {found : TurnContext} (hfound : (store.resolve digests input clock).contexts[object.context]? = some found) :
      store.contexts[object.context]? = some found ∧ found.lease < store.fence.leases.length := by
    obtain ⟨before, hbefore, -, hlt, -⟩ := h.turns object hmem held hheld
    rw [hcontexts, List.getElem?_append_left (List.getElem?_eq_some_iff.mp hbefore).1] at hfound
    obtain rfl := Option.some.inj (hbefore.symm.trans hfound)
    exact ⟨hbefore, hlt⟩
  -- The new one, if it is held, is in the last place, under the new lease.
  have hnew {found : TurnContext}
      (hfound : (store.resolve digests input clock).contexts[store.contexts.length]? = some found) :
      found.lease = store.fence.leases.length := by
    rw [hcontexts, List.getElem?_concat_length] at hfound
    rw [← Option.some.inj hfound]
    exact hlease
  refine ⟨fun lease hle => h.fresh lease (Nat.le_trans hlength hle), fun queued hmem => hkept (h.writes queued hmem),
    fun object hmem held hheld => ?_, ?_⟩
  · rw [hturns] at hmem
    rcases List.mem_append.mp hmem with hmem | hmem
    · obtain ⟨found, hfound, haccount, hlt, hforeign, hstands⟩ := h.turns object hmem held hheld
      refine ⟨found, ?_, haccount, Nat.lt_of_lt_of_le hlt hlength, hforeign, fun hrunning => hkept (hstands hrunning)⟩
      rw [hcontexts, List.getElem?_append_left (List.getElem?_eq_some_iff.mp hfound).1]
      exact hfound
    · obtain rfl := List.mem_singleton.mp hmem
      rcases hcases with ⟨⟨plan, rfl⟩, -⟩ | ⟨⟨other, rfl, haccount⟩, hleases⟩
      · cases hheld
      · obtain rfl := SessionTurn.held.inj hheld
        refine ⟨context, ?_, haccount.symm, ?_, fun queued hqueued => ?_, fun _ => ?_⟩
        · rw [hcontexts]
          exact List.getElem?_concat_length
        · rw [hlease, hleases, List.length_append]
          exact Nat.lt_succ_self _
        · obtain ⟨stands, hstands, -⟩ := h.writes queued hqueued
          rw [hlease]
          exact Nat.ne_of_lt (List.getElem?_eq_some_iff.mp hstands).1
        · rw [hlease, hleases]
          exact DeletionFence.stands_hold (h.fresh _ (Nat.le_refl _))
  · rw [hturns]
    intro first hfirst second hsecond held other hheld hother one two hone htwo hsame
    rcases List.mem_append.mp hfirst with hfirst | hfirst <;> rcases List.mem_append.mp hsecond with hsecond | hsecond
    · obtain ⟨hone, -⟩ := hold hfirst hheld hone
      obtain ⟨htwo, -⟩ := hold hsecond hother htwo
      exact h.apart first hfirst second hsecond held other hheld hother one two hone htwo hsame
    · obtain ⟨-, hlt⟩ := hold hfirst hheld hone
      rw [List.mem_singleton.mp hsecond] at htwo
      have hlast := hnew htwo
      omega
    · obtain ⟨-, hlt⟩ := hold hsecond hother htwo
      rw [List.mem_singleton.mp hfirst] at hone
      have hlast := hnew hone
      omega
    · rw [List.mem_singleton.mp hfirst, List.mem_singleton.mp hsecond]

/-- A turn that takes another's place runs on its account. -/
theorem Fenced.prepare (h : Fenced since store) (number : ℕ) (moved : Bool) :
    Fenced since (store.prepare number moved) := by
  unfold SessionStore.prepare
  split
  · next place turn remembered released hturn =>
    split
    · exact h
    · refine h.withTurns fun object hmem held hheld => ?_
      rcases List.mem_append.mp hmem with hold | hnew
      · exact ⟨object, hold, held, hheld, rfl, rfl⟩
      · obtain rfl := List.mem_singleton.mp hnew
        refine ⟨_, List.mem_of_getElem? hturn, turn, rfl, rfl, ?_⟩
        rw [← SessionTurn.held.inj hheld]
        unfold HeldTurn.prepare
        split
        · rfl
        · rfl
        · rfl
        · split <;> rfl
        · split <;> rfl
  · exact h

end SessionStore

end MultiAiRouter.ClaudeSdk
