import MultiAiRouter.Dataplane.Auth.Verifier

/-!
# Revocation reaches every verified key

A verified key survives an invalidation in the cache, in the index that finds it there, and in the loads in flight.
An invalidation clears the first two and makes a reading load read again. A load that has returned stays in the
table until its `finally` has run: a call that joins it there gets the key as it was before.
-/

namespace MultiAiRouter.Dataplane

open Common

variable {Digest : Type} [DecidableEq Digest]

section Index

variable {index : KeyIndex Digest} {cache : TtlCache Digest CacheEntry} {now : Int} {id : String}
  {digest : Digest} {entry : TtlEntry CacheEntry}

/-- The digest is listed under the key id. -/
def Listed (index : KeyIndex Digest) (id : String) (digest : Digest) : Prop :=
  ∃ digests, index.lookup id = some digests ∧ digest ∈ digests

omit [DecidableEq Digest] in
/-- What is listed under the first id, and under the others. -/
theorem listed_cons (other : String) (digests : List Digest) : Listed ((other, digests) :: index) id digest ↔
      (id = other ∧ digest ∈ digests) ∨ (id ≠ other ∧ Listed index id digest) := by
  by_cases h : id = other
  · simp [Listed, h]
  · simp [Listed, List.lookup_cons, h, beq_eq_false_iff_ne.mpr h]

/-- Adding lists the digest under the id and keeps what was listed. -/
theorem listed_add {newId : String} {newDigest : Digest}
    (h : (id = newId ∧ digest = newDigest) ∨ Listed index id digest) :
    Listed (KeyIndex.add index newId newDigest) id digest := by
  induction index with
  | nil =>
    rcases h with ⟨rfl, rfl⟩ | h
    · exact ⟨[digest], by simp [KeyIndex.add], List.mem_singleton_self _⟩
    · obtain ⟨_, hlookup, _⟩ := h
      cases hlookup
  | cons first rest ih =>
    obtain ⟨other, digests⟩ := first
    rw [KeyIndex.add]
    by_cases hother : other = newId
    · rw [if_pos hother, listed_cons]
      rcases h with ⟨rfl, rfl⟩ | h
      · refine .inl ⟨hother.symm, ?_⟩
        split
        · assumption
        · exact List.mem_append_right _ (List.mem_singleton_self _)
      · rcases (listed_cons other digests).mp h with ⟨hid, hmem⟩ | hrest
        · refine .inl ⟨hid, ?_⟩
          split
          · exact hmem
          · exact List.mem_append_left _ hmem
        · exact .inr hrest
    · rw [if_neg hother, listed_cons]
      rcases h with ⟨rfl, rfl⟩ | h
      · exact .inr ⟨fun heq => hother heq.symm, ih (.inl ⟨rfl, rfl⟩)⟩
      · rcases (listed_cons other digests).mp h with hfirst | ⟨hne, hrest⟩
        · exact .inl hfirst
        · exact .inr ⟨hne, ih (.inr hrest)⟩

omit [DecidableEq Digest] in
/-- Dropping one id keeps what is listed under the others. -/
theorem listed_filter {dropped : String} (h : Listed index id digest) (hne : id ≠ dropped) :
    Listed (index.filter fun entry => entry.1 ≠ dropped) id digest := by
  induction index with
  | nil => exact h
  | cons first rest ih =>
    obtain ⟨other, digests⟩ := first
    rcases (listed_cons other digests).mp h with ⟨rfl, hmem⟩ | ⟨hother, hrest⟩
    · rw [List.filter_cons_of_pos (by simpa using hne), listed_cons]
      exact .inl ⟨rfl, hmem⟩
    · by_cases hdrop : other = dropped
      · rw [List.filter_cons_of_neg (by simpa using hdrop)]
        exact ih hrest
      · rw [List.filter_cons_of_pos (by simpa using hdrop), listed_cons]
        exact .inr ⟨hother, ih hrest⟩

/-- What pruning digests leaves in the cache was there, and is kept where it was listed. -/
theorem pruneDigests_spec (digests : List Digest)
    (h : (pruneDigests now cache digests).2.lookup digest = some entry) :
    cache.lookup digest = some entry ∧ (digest ∈ digests → digest ∈ (pruneDigests now cache digests).1) := by
  induction digests generalizing cache with
  | nil => exact ⟨h, id⟩
  | cons first rest ih =>
    simp only [pruneDigests] at h ⊢
    obtain ⟨hfound, hkept⟩ := ih h
    refine ⟨TtlCache.lookup_of_get hfound, ?_⟩
    intro hmem
    by_cases hfirst : digest = first
    · subst hfirst
      rw [if_pos (TtlCache.get_isSome_of_lookup hfound)]
      exact List.mem_cons_self
    · have hrest := hkept ((List.mem_cons.mp hmem).resolve_left hfirst)
      split
      · exact List.mem_cons_of_mem _ hrest
      · exact hrest

/-- What pruning the index leaves in the cache was there, and is listed where it was. -/
theorem pruneIndex_spec (h : (pruneIndex now cache index).2.lookup digest = some entry) :
    cache.lookup digest = some entry ∧
      (Listed index id digest → Listed (pruneIndex now cache index).1 id digest) := by
  induction index generalizing cache with
  | nil => exact ⟨h, fun hlisted => hlisted⟩
  | cons first rest ih =>
    obtain ⟨other, digests⟩ := first
    simp only [pruneIndex] at h ⊢
    obtain ⟨hpruned, hrest⟩ := ih h
    obtain ⟨hfound, hkept⟩ := pruneDigests_spec digests hpruned
    refine ⟨hfound, ?_⟩
    intro hlisted
    rcases (listed_cons other digests).mp hlisted with ⟨hid, hmem⟩ | ⟨hne, hlisted⟩
    · have hmem := hkept hmem
      rw [if_neg (by rintro hempty; simp [List.isEmpty_iff.mp hempty] at hmem), listed_cons]
      exact .inl ⟨hid, hmem⟩
    · split
      · exact hrest hlisted
      · exact (listed_cons _ _).mpr (.inr ⟨hne, hrest hlisted⟩)

end Index

/-- The invalidation is of the key, or of all keys. -/
def Revokes : Option String → String → Prop
  | some keyId, id => keyId = id
  | none, _ => True

/-- No invalidation of the key from the one generation up to the other. -/
def Unrevoked (invalidations : List (Option String)) (id : String) (first last : ℕ) : Prop :=
  ∀ i invalidation, first ≤ i → i < last → invalidations[i]? = some invalidation → ¬ Revokes invalidation id

/-- Later invalidations change nothing up to where the list ended. -/
theorem Unrevoked.append {invalidations : List (Option String)} {id : String} {first last : ℕ}
    (h : Unrevoked invalidations id first last) (hlast : last ≤ invalidations.length)
    (invalidation : Option String) : Unrevoked (invalidations ++ [invalidation]) id first last := by
  intro i other hfirst hi hget
  rw [List.getElem?_append_left (by omega)] at hget
  exact h i other hfirst hi hget

/-- An invalidation of something else leaves the key unrevoked. -/
theorem Unrevoked.append_other {invalidations : List (Option String)} {id : String} {first : ℕ}
    (h : Unrevoked invalidations id first invalidations.length) {invalidation : Option String}
    (hother : ¬ Revokes invalidation id) :
    Unrevoked (invalidations ++ [invalidation]) id first (invalidations.length + 1) := by
  intro i other hfirst hi hget
  rcases getElem?_concat_cases hget with hold | ⟨rfl, rfl⟩
  · exact h i other hfirst (List.getElem?_eq_some_iff.mp hold).1 hold
  · exact hother

/-- Nothing lies between a generation and an earlier one. -/
theorem unrevoked_of_le {invalidations : List (Option String)} {id : String} {first last : ℕ}
    (h : last ≤ first) : Unrevoked invalidations id first last := by
  intro i _ hfirst hi
  omega

/-- What the load has returned, if it has. -/
def LoadPhase.result? : LoadPhase → Option VerifyResult
  | .returned result | .settled result => some result
  | _ => none

/-- The load's `finally` has not run. -/
def LoadPhase.unsettled : LoadPhase → Bool
  | .settled _ => false
  | _ => true

namespace RouterKeyVerifier

variable {deps : RouterKeyVerifierDeps Digest} {state : RouterKeyVerifier Digest}

/-- Every live key is listed under its id and was read after its last invalidation; the loads in flight are exactly
those whose `finally` has not run. -/
structure Fenced (deps : RouterKeyVerifierDeps Digest) (state : RouterKeyVerifier Digest) : Prop where
  generation_eq : state.generation = state.invalidations.length
  listed : ∀ digest (entry : TtlEntry CacheEntry) key readAt, state.cache.lookup digest = some entry →
    entry.value = .ok key readAt → Listed state.byKeyId key.id digest
  unrevoked : ∀ digest (entry : TtlEntry CacheEntry) key readAt, state.cache.lookup digest = some entry →
    entry.value = .ok key readAt → Unrevoked state.invalidations key.id readAt state.generation
  began_le : ∀ call ∈ state.calls, call.beganAt ≤ state.generation
  flying : ∀ (l : ℕ) (load : KeyLoad Digest), state.loads[l]? = some load → load.phase.unsettled = true →
    state.inFlight.lookup load.digest = some l
  found : ∀ digest l, state.inFlight.lookup digest = some l →
    ∃ load, state.loads[l]? = some load ∧ load.digest = digest ∧ load.phase.unsettled = true
  counted : state.loads.countP (fun load => load.phase.unsettled) = mapSize state.inFlight
  bounded : mapSize state.inFlight ≤ deps.cache.maxEntries

/-- A fresh verifier. -/
theorem Fenced.initial : Fenced deps ({} : RouterKeyVerifier Digest) where
  generation_eq := rfl
  listed := by simp
  unrevoked := by simp
  began_le := by simp
  flying := by simp
  found := by simp
  counted := rfl
  bounded := Nat.zero_le _

/-- A new call began now. -/
theorem Fenced.addCall (h : Fenced deps state) (phase : CallPhase) : Fenced deps (state.addCall phase) := by
  refine ⟨h.generation_eq, h.listed, h.unrevoked, ?_, h.flying, h.found, h.counted, h.bounded⟩
  intro call hcall
  rcases List.mem_append.mp hcall with hold | hnew
  · exact h.began_le call hold
  · rw [List.mem_singleton.mp hnew]
    exact Nat.le_refl _

/-- Losing cached entries does no harm. -/
theorem Fenced.shrink (h : Fenced deps state) {cache : TtlCache Digest CacheEntry}
    (hcache : ∀ digest entry, cache.lookup digest = some entry → state.cache.lookup digest = some entry) :
    Fenced deps { state with cache } :=
  ⟨h.generation_eq, fun digest entry key readAt hfound => h.listed digest entry key readAt (hcache _ _ hfound),
    fun digest entry key readAt hfound => h.unrevoked digest entry key readAt (hcache _ _ hfound),
    h.began_le, h.flying, h.found, h.counted, h.bounded⟩

/-- What is remembered now is listed, and read after every invalidation of its key. -/
theorem Fenced.remember (h : Fenced deps state) (now : Int) (digest : Digest) {entry : CacheEntry}
    (hentry : ∀ key readAt, entry = .ok key readAt → Unrevoked state.invalidations key.id readAt state.generation) :
    Fenced deps (state.remember deps now digest entry) := by
  -- Pruned or not, what is still cached was cached and is still listed.
  have hpruned (pruned : KeyIndex Digest × TtlCache Digest CacheEntry)
      (heq : pruned = if deps.cache.maxEntries ≤ state.byKeyId.length then
        pruneIndex now state.cache state.byKeyId else (state.byKeyId, state.cache))
      (other : Digest) (cached : TtlEntry CacheEntry) (hfound : pruned.2.lookup other = some cached) :
      state.cache.lookup other = some cached ∧ ∀ id, Listed state.byKeyId id other → Listed pruned.1 id other := by
    subst heq
    split at hfound
    · next hfull =>
      rw [if_pos hfull]
      exact ⟨(@pruneIndex_spec _ _ _ _ _ "" _ _ hfound).1, fun id => (pruneIndex_spec hfound).2⟩
    · next hroom =>
      rw [if_neg hroom]
      exact ⟨hfound, fun _ hlisted => hlisted⟩
  unfold RouterKeyVerifier.remember
  generalize hgen : (if deps.cache.maxEntries ≤ state.byKeyId.length then
    pruneIndex now state.cache state.byKeyId else (state.byKeyId, state.cache)) = pruned
  have hkept := hpruned pruned hgen.symm
  cases entry with
  | ok key readAt =>
    refine ⟨h.generation_eq, ?_, ?_, h.began_le, h.flying, h.found, h.counted, h.bounded⟩
    · intro other cached otherKey otherReadAt hfound hvalue
      rcases TtlCache.lookup_of_set hfound with ⟨rfl, hnew⟩ | ⟨-, hold⟩
      · obtain ⟨rfl, -⟩ := CacheEntry.ok.inj (hnew.symm.trans hvalue)
        exact listed_add (.inl ⟨rfl, rfl⟩)
      · obtain ⟨hcached, hlisted⟩ := hkept other cached hold
        exact listed_add (.inr (hlisted _ (h.listed other cached otherKey otherReadAt hcached hvalue)))
    · intro other cached otherKey otherReadAt hfound hvalue
      rcases TtlCache.lookup_of_set hfound with ⟨rfl, hnew⟩ | ⟨-, hold⟩
      · obtain ⟨rfl, rfl⟩ := CacheEntry.ok.inj (hnew.symm.trans hvalue)
        exact hentry key readAt rfl
      · exact h.unrevoked other cached otherKey otherReadAt (hkept other cached hold).1 hvalue
  | unknown =>
    refine ⟨h.generation_eq, ?_, ?_, h.began_le, h.flying, h.found, h.counted, h.bounded⟩
    · intro other cached otherKey otherReadAt hfound hvalue
      rcases TtlCache.lookup_of_set hfound with ⟨rfl, hnew⟩ | ⟨-, hold⟩
      · cases hnew.symm.trans hvalue
      · obtain ⟨hcached, hlisted⟩ := hkept other cached hold
        exact hlisted _ (h.listed other cached otherKey otherReadAt hcached hvalue)
    · intro other cached otherKey otherReadAt hfound hvalue
      rcases TtlCache.lookup_of_set hfound with ⟨rfl, hnew⟩ | ⟨-, hold⟩
      · cases hnew.symm.trans hvalue
      · exact h.unrevoked other cached otherKey otherReadAt (hkept other cached hold).1 hvalue

omit [DecidableEq Digest] in
/-- Moving a load that was not settled changes the count by that load alone. -/
theorem countP_set_load {loads : List (KeyLoad Digest)} {l : ℕ} {before : KeyLoad Digest}
    (hget : loads[l]? = some before) (hbefore : before.phase.unsettled = true) (after : KeyLoad Digest) :
    (loads.set l after).countP (fun load => load.phase.unsettled) + 1 =
      loads.countP (fun load => load.phase.unsettled) + if after.phase.unsettled then 1 else 0 := by
  obtain ⟨hlt, hbeforeGet⟩ := List.getElem?_eq_some_iff.mp hget
  have hpos : 0 < loads.countP fun load => load.phase.unsettled :=
    List.countP_pos_iff.mpr ⟨before, List.mem_of_getElem? hget, hbefore⟩
  rw [List.countP_set hlt, hbeforeGet, if_pos hbefore]
  omega

/-- A load that moves on without its `finally` stays in the table. -/
theorem Fenced.moveLoad (h : Fenced deps state) {l : ℕ} {before after : KeyLoad Digest}
    (hget : state.loads[l]? = some before) (hbefore : before.phase.unsettled = true)
    (hafter : after.phase.unsettled = true) (hdigest : after.digest = before.digest) :
    Fenced deps (state.moveLoad l after) := by
  have hlt : l < state.loads.length := (List.getElem?_eq_some_iff.mp hget).1
  refine ⟨h.generation_eq, h.listed, h.unrevoked, h.began_le, ?_, ?_, ?_, h.bounded⟩
  · intro m load hm hunsettled
    rcases getElem?_set_cases hm with ⟨rfl, rfl⟩ | ⟨-, hold⟩
    · exact hdigest ▸ h.flying m before hget hbefore
    · exact h.flying m load hold hunsettled
  · intro digest m hm
    obtain ⟨load, hload, hdig, hunsettled⟩ := h.found digest m hm
    by_cases hml : m = l
    · subst hml
      obtain rfl := Option.some.inj (hget.symm.trans hload)
      exact ⟨after, by simp [RouterKeyVerifier.moveLoad, hlt], hdigest.trans hdig, hafter⟩
    · exact ⟨load, by rw [RouterKeyVerifier.moveLoad, List.getElem?_set_ne (Ne.symm hml)]; exact hload,
        hdig, hunsettled⟩
  · have hcount := countP_set_load hget hbefore after
    rw [if_pos hafter, h.counted] at hcount
    exact Nat.add_right_cancel hcount

/-- The next round of the load loop keeps the load in the table. -/
theorem Fenced.retryLoad (h : Fenced deps state) {l : ℕ} {held : KeyLoad Digest}
    (hget : state.loads[l]? = some held) (hunsettled : held.phase.unsettled = true) :
    Fenced deps (state.retryLoad l held) := by
  unfold RouterKeyVerifier.retryLoad
  split <;> exact h.moveLoad hget hunsettled rfl rfl

/-- A load is started only for a digest that has none, within the bound. -/
theorem Fenced.startLoad (h : Fenced deps state) (presented displayPrefix : List Char)
    (hnone : state.inFlight.lookup (deps.digest presented) = none)
    (hroom : mapSize state.inFlight < deps.cache.maxEntries) :
    Fenced deps (state.startLoad deps presented displayPrefix) := by
  have hsize : mapSize (state.inFlight.insert (deps.digest presented) state.loads.length) =
      mapSize state.inFlight + 1 := by
    rw [mapSize_insert, erase_of_lookup_none hnone]
  refine ⟨h.generation_eq, h.listed, h.unrevoked, h.began_le, ?_, ?_, ?_, ?_⟩
  · intro l load hget hunsettled
    simp only [RouterKeyVerifier.startLoad, List.getElem?_append] at hget
    refine lookup_insert_eq_some.mpr ?_
    split at hget
    · have hold := h.flying l load hget hunsettled
      refine .inr ⟨?_, hold⟩
      intro heq
      rw [heq, hnone] at hold
      cases hold
    · next hge =>
      have hzero : l - state.loads.length = 0 := by
        by_contra hne
        rw [List.getElem?_eq_none (by simp; omega)] at hget
        cases hget
      rw [hzero] at hget
      obtain rfl := Option.some.inj hget
      exact .inl ⟨rfl, by omega⟩
  · intro digest l hl
    rcases lookup_insert_eq_some.mp hl with ⟨rfl, rfl⟩ | ⟨-, hold⟩
    · exact ⟨_, List.getElem?_concat_length, rfl, rfl⟩
    · obtain ⟨load, hload, hrest⟩ := h.found digest l hold
      refine ⟨load, ?_, hrest⟩
      rw [RouterKeyVerifier.startLoad, List.getElem?_append_left (List.getElem?_eq_some_iff.mp hload).1]
      exact hload
  · simp only [RouterKeyVerifier.startLoad, List.countP_append, h.counted, hsize]
    rfl
  · simp only [RouterKeyVerifier.startLoad, hsize]
    omega

/-- A `finally` takes its own load out of the table, and only that. -/
theorem Fenced.finish (h : Fenced deps state) {l : ℕ} {held : KeyLoad Digest} {result : VerifyResult}
    (hget : state.loads[l]? = some held) (hphase : held.phase = .returned result) :
    Fenced deps { state.moveLoad l { held with phase := .settled result } with
      inFlight := state.inFlight.erase held.digest } := by
  have hlt : l < state.loads.length := (List.getElem?_eq_some_iff.mp hget).1
  have hunsettled : held.phase.unsettled = true := by
    rw [hphase]
    rfl
  have hown : state.inFlight.lookup held.digest = some l := h.flying l held hget hunsettled
  have hmem : held.digest ∈ state.inFlight.keys := by
    have hin : held.digest ∈ state.inFlight := AList.lookup_isSome.mp (by rw [hown]; rfl)
    exact hin
  have hpos : 0 < mapSize state.inFlight := List.length_pos_of_mem hmem
  have hsize : mapSize (state.inFlight.erase held.digest) = mapSize state.inFlight - 1 := by
    rw [mapSize, AList.keys_erase, List.length_erase_of_mem hmem, mapSize]
  refine ⟨h.generation_eq, h.listed, h.unrevoked, h.began_le, ?_, ?_, ?_, ?_⟩
  · intro m load hm hunsettledLoad
    rcases getElem?_set_cases hm with ⟨rfl, rfl⟩ | ⟨hne, hold⟩
    · cases hunsettledLoad
    · have hlookup := h.flying m load hold hunsettledLoad
      refine lookup_erase_eq_some.mpr ⟨?_, hlookup⟩
      intro heq
      rw [heq, hown] at hlookup
      exact hne (Option.some.inj hlookup).symm
  · intro digest m hm
    obtain ⟨hne, hold⟩ := lookup_erase_eq_some.mp hm
    obtain ⟨load, hload, hdigest, hrest⟩ := h.found digest m hold
    have hml : m ≠ l := by
      rintro rfl
      obtain rfl := Option.some.inj (hget.symm.trans hload)
      exact hne hdigest.symm
    exact ⟨load, by rw [RouterKeyVerifier.moveLoad, List.getElem?_set_ne (Ne.symm hml)]; exact hload,
      hdigest, hrest⟩
  · have hcount := countP_set_load hget hunsettled { held with phase := .settled result }
    rw [if_neg (by simp [LoadPhase.unsettled]), h.counted] at hcount
    refine Eq.trans ?_ hsize.symm
    exact Nat.eq_sub_of_add_eq hcount
  · have := h.bounded
    simp only [hsize]
    omega

/-- An invalidation drops every cached key it revokes. -/
theorem Fenced.invalidate (h : Fenced deps state) (keyId : String) :
    Fenced deps (state.step deps (.invalidate keyId)) := by
  have hlength : state.generation = state.invalidations.length := h.generation_eq
  have hcached {digest : Digest} {entry : TtlEntry CacheEntry} {key : VerifiedKey} {readAt : ℕ}
      (hfound : (state.step deps (.invalidate keyId)).cache.lookup digest = some entry)
      (hvalue : entry.value = .ok key readAt) :
      state.cache.lookup digest = some entry ∧ key.id ≠ keyId := by
    obtain ⟨hnot, hold⟩ := lookup_eraseNames_eq_some.mp hfound
    refine ⟨hold, ?_⟩
    rintro rfl
    obtain ⟨digests, hdigests, hmem⟩ := h.listed digest entry key readAt hold hvalue
    exact hnot (by rw [hdigests]; exact hmem)
  refine ⟨by simp [RouterKeyVerifier.step, hlength], ?_, ?_, ?_, h.flying, h.found, h.counted, h.bounded⟩
  · intro digest entry key readAt hfound hvalue
    obtain ⟨hold, hne⟩ := hcached hfound hvalue
    exact listed_filter (h.listed digest entry key readAt hold hvalue) hne
  · intro digest entry key readAt hfound hvalue
    obtain ⟨hold, hne⟩ := hcached hfound hvalue
    have hunrevoked := h.unrevoked digest entry key readAt hold hvalue
    simp only [RouterKeyVerifier.step, hlength] at hunrevoked ⊢
    exact hunrevoked.append_other fun hrevokes => hne (Eq.symm hrevokes)
  · intro call hcall
    exact Nat.le_succ_of_le (h.began_le call hcall)

/-- An invalidation of everything leaves nothing cached. -/
theorem Fenced.invalidateAll (h : Fenced deps state) : Fenced deps (state.step deps .invalidateAll) :=
  ⟨by simp [RouterKeyVerifier.step, h.generation_eq], by simp [RouterKeyVerifier.step],
    by simp [RouterKeyVerifier.step], fun call hcall => Nat.le_succ_of_le (h.began_le call hcall),
    h.flying, h.found, h.counted, h.bounded⟩

/-- A call, whatever answers it. -/
theorem Fenced.verify (h : Fenced deps state) (presented : List Char) (now : Int) :
    Fenced deps (state.verify deps presented now) := by
  unfold RouterKeyVerifier.verify
  split
  · exact h.addCall _
  · next displayPrefix _ =>
    have hlooked : Fenced deps { state with cache := (state.cache.get now (deps.digest presented)).2 } :=
      h.shrink fun _ _ => TtlCache.lookup_of_get
    dsimp only
    split
    · exact hlooked.addCall _
    · split
      · exact (hlooked.shrink fun _ _ hfound => (lookup_erase_eq_some.mp hfound).2).addCall _
      · exact hlooked.addCall _
    · unfold RouterKeyVerifier.joinOrStart
      split
      · exact hlooked.addCall _
      · next hnone =>
        split
        · exact hlooked.addCall _
        · next hroom => exact (hlooked.startLoad presented displayPrefix hnone (by omega)).addCall _

/-- The rows of a load that was waiting for them. -/
theorem Fenced.rowsArrived (h : Fenced deps state) {l : ℕ} {held : KeyLoad Digest}
    (hget : state.loads[l]? = some held) (hunsettled : held.phase.unsettled = true)
    (answer : Option (List ApiKeyRow)) (now : Int) : Fenced deps (state.rowsArrived deps l held answer now) := by
  unfold RouterKeyVerifier.rowsArrived
  cases answer with
  | none => exact h.moveLoad hget hunsettled rfl rfl
  | some rows =>
    dsimp only
    split
    · exact h.retryLoad hget hunsettled
    · split
      · exact (h.remember now held.digest fun _ _ heq => by cases heq).moveLoad hget hunsettled rfl rfl
      · exact h.moveLoad hget hunsettled rfl rfl

/-- The scope of the row a load matched. -/
theorem Fenced.scopeArrived (h : Fenced deps state) {l : ℕ} {held : KeyLoad Digest}
    (hget : state.loads[l]? = some held) (hunsettled : held.phase.unsettled = true) (row : ApiKeyRow)
    (answer : Option Routing.KeyScopeSnapshot) (onVerifiedThrows : Bool) (now : Int) :
    Fenced deps (state.scopeArrived deps l held row answer onVerifiedThrows now) := by
  unfold RouterKeyVerifier.scopeArrived
  cases answer with
  | none => exact h.moveLoad hget hunsettled rfl rfl
  | some scope =>
    dsimp only
    split
    · exact h.retryLoad hget hunsettled
    · next hgeneration =>
      split
      · exact h.moveLoad hget hunsettled rfl rfl
      · refine (h.remember now held.digest ?_).moveLoad hget hunsettled rfl rfl
        intro key readAt heq
        obtain ⟨-, rfl⟩ := CacheEntry.ok.inj heq
        exact unrevoked_of_le (Nat.le_of_eq (Decidable.not_not.mp hgeneration).symm)

/-- Whatever happens, the verifier stays fenced. -/
theorem Fenced.step (h : Fenced deps state) (event : VerifierEvent) : Fenced deps (state.step deps event) := by
  cases event with
  | verify presented now => exact h.verify presented now
  | rows l answer now =>
    rw [RouterKeyVerifier.step]
    cases hget : state.loads[l]? with
    | none => exact h
    | some held =>
      cases hphase : held.phase with
      | reading => simpa only [hphase] using h.rowsArrived hget (by rw [hphase]; rfl) answer now
      | _ => simpa only [hphase] using h
  | scope l answer onVerifiedThrows now =>
    rw [RouterKeyVerifier.step]
    cases hget : state.loads[l]? with
    | none => exact h
    | some held =>
      cases hphase : held.phase with
      | scoping row =>
        simpa only [hphase] using h.scopeArrived hget (by rw [hphase]; rfl) row answer onVerifiedThrows now
      | _ => simpa only [hphase] using h
  | finish l =>
    rw [RouterKeyVerifier.step]
    cases hget : state.loads[l]? with
    | none => exact h
    | some held =>
      cases hphase : held.phase with
      | returned result =>
        have hown := h.flying l held hget (by rw [hphase]; rfl)
        simpa only [hphase, if_pos hown] using h.finish hget hphase
      | _ => simpa only [hphase] using h
  | wake c =>
    rw [RouterKeyVerifier.step]
    cases hcall : state.calls[c]? with
    | none => exact h
    | some held =>
      dsimp only
      split
      · split
        · split
          · refine ⟨h.generation_eq, h.listed, h.unrevoked, ?_, h.flying, h.found, h.counted, h.bounded⟩
            intro call hmem
            rcases List.mem_or_eq_of_mem_set hmem with hold | rfl
            · exact h.began_le call hold
            · exact h.began_le held (List.mem_of_getElem? hcall)
          · exact h
        · exact h
      · exact h
  | invalidate keyId => exact h.invalidate keyId
  | invalidateAll => exact h.invalidateAll

/-- Every run is fenced. -/
theorem run_fenced (events : List VerifierEvent) : Fenced deps (run deps events) :=
  runFrom_invariant (Fenced deps) (fun _ event h => h.step event) events {} .initial

/-- A key the call is answered with was not invalidated between its read and the call. -/
def ResultCurrent (invalidations : List (Option String)) (beganAt : ℕ) : Option VerifyResult → Prop
  | some (.verified key readAt) => Unrevoked invalidations key.id readAt beganAt
  | _ => True

/-- A call is answered, or will be by the load it awaits, with a current key. -/
def CallCurrent (state : RouterKeyVerifier Digest) (call : VerifyCall) : Prop :=
  match call.phase with
  | .awaiting l =>
    ∃ load, state.loads[l]? = some load ∧ ResultCurrent state.invalidations call.beganAt load.phase.result?
  | .answered result => ResultCurrent state.invalidations call.beganAt (some result)

/-- Every call is current. -/
def Current (state : RouterKeyVerifier Digest) : Prop := ∀ call ∈ state.calls, CallCurrent state call

/-- What a call was answered with was read after every invalidation of its key before the call. -/
def AnswersCurrent (state : RouterKeyVerifier Digest) : Prop :=
  ∀ call ∈ state.calls, ∀ key readAt, call.phase = .answered (.verified key readAt) →
    Unrevoked state.invalidations key.id readAt call.beganAt

omit [DecidableEq Digest] in
/-- Calls that are current are answered with current keys. -/
theorem Current.answers (h : Current state) : AnswersCurrent state := by
  intro call hcall key readAt hphase
  have hcurrent := h call hcall
  rw [CallCurrent, hphase] at hcurrent
  exact hcurrent

/-- The call misses the cache and joins a load that has already returned a key, invalidated since
its read began. -/
def JoinsRevoked (deps : RouterKeyVerifierDeps Digest) (state : RouterKeyVerifier Digest) :
    VerifierEvent → Prop
  | .verify presented now =>
    (routerKeyDisplayPrefix presented).isSome = true ∧
    (state.cache.get now (deps.digest presented)).1 = none ∧
    ∃ l load key readAt, state.inFlight.lookup (deps.digest presented) = some l ∧
      state.loads[l]? = some load ∧ load.phase = .returned (.verified key readAt) ∧
      ¬ Unrevoked state.invalidations key.id readAt state.generation
  | _ => False

omit [DecidableEq Digest] in
/-- A new call is current when what answers it is. -/
theorem Current.addCall (h : Current state) {phase : CallPhase}
    (hphase : CallCurrent state { beganAt := state.generation, phase }) : Current (state.addCall phase) := by
  intro call hcall
  rcases List.mem_append.mp hcall with hold | hnew
  · exact h call hold
  · rw [List.mem_singleton.mp hnew]
    exact hphase

omit [DecidableEq Digest] in
/-- A load moves on and is as current as it was to every call. -/
theorem Current.moveLoad (h : Current state) {l : ℕ} {before after : KeyLoad Digest}
    (hget : state.loads[l]? = some before)
    (hafter : ∀ call ∈ state.calls, ResultCurrent state.invalidations call.beganAt before.phase.result? →
      ResultCurrent state.invalidations call.beganAt after.phase.result?) :
    Current (state.moveLoad l after) := by
  intro call hcall
  have hlt : l < state.loads.length := (List.getElem?_eq_some_iff.mp hget).1
  have hold := h call hcall
  unfold CallCurrent at hold ⊢
  split
  · next m hm =>
    rw [hm] at hold
    obtain ⟨load, hload, hcurrent⟩ := hold
    by_cases hml : l = m
    · subst hml
      obtain rfl := Option.some.inj (hget.symm.trans hload)
      exact ⟨after, by simp [RouterKeyVerifier.moveLoad, hlt], hafter call hcall hcurrent⟩
    · exact ⟨load, by rw [RouterKeyVerifier.moveLoad, List.getElem?_set_ne hml]; exact hload, hcurrent⟩
  · next result hresult =>
    rw [hresult] at hold
    exact hold

/-- A load that started changes no answer. -/
theorem Current.startLoad (h : Current state) (presented displayPrefix : List Char) :
    Current (state.startLoad deps presented displayPrefix) := by
  intro call hcall
  have hold := h call hcall
  unfold CallCurrent at hold ⊢
  split
  · next m hm =>
    rw [hm] at hold
    obtain ⟨load, hload, hcurrent⟩ := hold
    refine ⟨load, ?_, hcurrent⟩
    rw [RouterKeyVerifier.startLoad, List.getElem?_append_left (List.getElem?_eq_some_iff.mp hload).1]
    exact hload
  · next result hresult =>
    rw [hresult] at hold
    exact hold

/-- An invalidation after a call leaves what answers it as it was. -/
theorem Current.invalidated {state' : RouterKeyVerifier Digest} (h : Current state) (hfenced : Fenced deps state)
    (hcalls : state'.calls = state.calls) (hloads : state'.loads = state.loads) {invalidation : Option String}
    (hinvalidations : state'.invalidations = state.invalidations ++ [invalidation]) : Current state' := by
  intro call hcall
  rw [hcalls] at hcall
  have hle : call.beganAt ≤ state.invalidations.length := hfenced.generation_eq ▸ hfenced.began_le call hcall
  have happend {result : Option VerifyResult} (hresult : ResultCurrent state.invalidations call.beganAt result) :
      ResultCurrent state'.invalidations call.beganAt result := by
    unfold ResultCurrent at hresult ⊢
    split
    · rw [hinvalidations]
      exact Unrevoked.append hresult hle invalidation
    · trivial
  have hold := h call hcall
  unfold CallCurrent at hold ⊢
  split
  · next m hm =>
    rw [hm] at hold
    obtain ⟨load, hload, hcurrent⟩ := hold
    exact ⟨load, hloads ▸ hload, happend hcurrent⟩
  · next result hresult =>
    rw [hresult] at hold
    exact happend hold

omit [DecidableEq Digest] in
/-- The next round of the load loop returns no key. -/
theorem Current.retryLoad (h : Current state) {l : ℕ} {held : KeyLoad Digest}
    (hget : state.loads[l]? = some held) : Current (state.retryLoad l held) := by
  unfold RouterKeyVerifier.retryLoad
  split <;> exact h.moveLoad hget fun _ _ _ => trivial

/-- Remembering changes neither calls nor loads. -/
theorem Current.remember (h : Current state) (now : Int) (digest : Digest) (entry : CacheEntry) :
    Current (state.remember deps now digest entry) := by
  cases entry <;> exact h

/-- A call answered from the cache, or by a load that has not returned a revoked key. -/
theorem Current.verify (h : Current state) (hfenced : Fenced deps state) (presented : List Char) (now : Int)
    (hjoins : ¬ JoinsRevoked deps state (.verify presented now)) : Current (state.verify deps presented now) := by
  unfold RouterKeyVerifier.verify
  split
  · exact h.addCall trivial
  · next displayPrefix hdisplay =>
    have hlooked : Current { state with cache := (state.cache.get now (deps.digest presented)).2 } := h
    dsimp only
    split
    · exact hlooked.addCall trivial
    · next key readAt hfound =>
      split
      · exact hlooked.addCall trivial
      · obtain ⟨entry, hentry, hvalue⟩ := TtlCache.lookup_of_get_eq hfound
        exact hlooked.addCall (hfenced.unrevoked _ entry key readAt hentry hvalue)
    · next hmiss =>
      unfold RouterKeyVerifier.joinOrStart
      split
      · next l hl =>
        obtain ⟨load, hload, -, hunsettled⟩ := hfenced.found _ l hl
        refine hlooked.addCall ⟨load, hload, ?_⟩
        unfold ResultCurrent
        split
        · next key readAt hresult =>
          -- A load with a key is settled, or returned; the first is not in flight.
          by_contra hrevoked
          refine hjoins ⟨by rw [hdisplay]; rfl, hmiss, l, load, key, readAt, hl, hload, ?_, hrevoked⟩
          revert hresult hunsettled
          cases load.phase <;> simp [LoadPhase.result?, LoadPhase.unsettled]
        · trivial
      · split
        · exact hlooked.addCall trivial
        · refine (hlooked.startLoad presented displayPrefix).addCall ?_
          exact ⟨_, List.getElem?_concat_length, trivial⟩

/-- Whatever happens, except a call that joins a revoked key, every call stays current. -/
theorem Current.step (h : Current state) (hfenced : Fenced deps state) (event : VerifierEvent)
    (hjoins : ¬ JoinsRevoked deps state event) : Current (state.step deps event) := by
  cases event with
  | verify presented now => exact h.verify hfenced presented now hjoins
  | rows l answer now =>
    rw [RouterKeyVerifier.step]
    cases hget : state.loads[l]? with
    | none => exact h
    | some held =>
      cases hphase : held.phase with
      | reading =>
        simp only [hphase, rowsArrived]
        split
        · exact h.moveLoad hget fun _ _ _ => trivial
        · split
          · exact h.retryLoad hget
          · split
            · exact (h.remember now held.digest .unknown).moveLoad hget fun _ _ _ => trivial
            · exact h.moveLoad hget fun _ _ _ => trivial
      | _ => simpa only [hphase] using h
  | scope l answer onVerifiedThrows now =>
    rw [RouterKeyVerifier.step]
    cases hget : state.loads[l]? with
    | none => exact h
    | some held =>
      cases hphase : held.phase with
      | scoping row =>
        simp only [hphase, scopeArrived]
        split
        · exact h.moveLoad hget fun _ _ _ => trivial
        · split
          · exact h.retryLoad hget
          · next hgeneration =>
            split
            · exact h.moveLoad hget fun _ _ _ => trivial
            · refine (h.remember now held.digest _).moveLoad hget ?_
              -- The key was read at the current generation, and no call is younger.
              intro call hcall _
              cases onVerifiedThrows with
              | true => trivial
              | false =>
                refine unrevoked_of_le ?_
                rw [Decidable.not_not.mp hgeneration]
                exact hfenced.began_le call hcall
      | _ => simpa only [hphase] using h
  | finish l =>
    rw [RouterKeyVerifier.step]
    cases hget : state.loads[l]? with
    | none => exact h
    | some held =>
      cases hphase : held.phase with
      | returned result =>
        have hsettled : Current (state.moveLoad l { held with phase := .settled result }) := by
          refine h.moveLoad hget ?_
          intro call _ hcurrent
          rw [hphase] at hcurrent
          exact hcurrent
        simp only [hphase]
        split <;> exact hsettled
      | _ => simpa only [hphase] using h
  | wake c =>
    rw [RouterKeyVerifier.step]
    cases hcall : state.calls[c]? with
    | none => exact h
    | some held =>
      dsimp only
      split
      · next l hawaiting =>
        cases hload : state.loads[l]? with
        | none => exact h
        | some load =>
          dsimp only
          split
          · next result hsettled =>
            have hheld := h held (List.mem_of_getElem? hcall)
            rw [CallCurrent, hawaiting] at hheld
            obtain ⟨found, hfound, hcurrent⟩ := hheld
            obtain rfl := Option.some.inj (hload.symm.trans hfound)
            rw [hsettled] at hcurrent
            intro call hmem
            rcases List.mem_or_eq_of_mem_set hmem with hold | rfl
            · exact h call hold
            · exact hcurrent
          · exact h
      · exact h
  | invalidate keyId => exact h.invalidated hfenced rfl rfl rfl
  | invalidateAll => exact h.invalidated hfenced rfl rfl rfl

/-- In every run the index lists every cached key and no more loads are in flight than the cache has
entries; and where no call joins a returned load whose key was invalidated since, every call is
answered with a key read after the invalidations before it. -/
theorem run_revocation (events : List VerifierEvent)
    (hjoins : EveryStep (RouterKeyVerifier.step deps) (fun state event => ¬ JoinsRevoked deps state event)
      {} events) :
    AnswersCurrent (run deps events) ∧
    (∀ digest (entry : TtlEntry CacheEntry) key readAt, (run deps events).cache.lookup digest = some entry →
      entry.value = .ok key readAt → Listed (run deps events).byKeyId key.id digest) ∧
    (run deps events).loads.countP (fun load => load.phase.unsettled) ≤ deps.cache.maxEntries := by
  have hfenced : Fenced deps (run deps events) := run_fenced events
  refine ⟨?_, hfenced.listed, hfenced.counted ▸ hfenced.bounded⟩
  refine Current.answers ?_
  refine (runFrom_invariant_of_everyStep (fun state => Fenced deps state ∧ Current state) ?_ events {}
    ⟨.initial, nofun⟩ hjoins).2
  intro state event h hstep
  exact ⟨h.1.step event, h.2.step h.1 event hstep⟩

/-- A verifier that keeps presented keys as they are. -/
def plainDeps : RouterKeyVerifierDeps (List Char) where
  cache := { maxEntries := 4, ttlMs := 60000 }
  negativeTtlMs := 5000
  digest := id
  decrypt value := some value.toList

/-- A laptop's key. -/
def laptopKey : List Char := "mar_live_ABCDEFGHIJKLMNOPQRSTUVWXYZabcdef".toList

def laptopRow : ApiKeyRow where
  id := "k1"
  name := "sebastian-laptop"
  value := "mar_live_ABCDEFGHIJKLMNOPQRSTUVWXYZabcdef"
  displayPrefix := "mar_live_ABCDEFGH".toList
  rateLimitRequests := none
  rateLimitWindowSeconds := none
  expiresAt := none

/-- The key is verified, revoked, and presented again after its load has settled. -/
def revokedAfterSettling : List VerifierEvent :=
  [.verify laptopKey 0, .rows 0 (some [laptopRow]) 0, .scope 0 (some .all) false 0, .finish 0, .wake 0,
    .invalidate "k1", .verify laptopKey 0]

/-- The key is revoked and presented again between its load's return and the load's `finally`. -/
def revokedBeforeSettling : List VerifierEvent :=
  [.verify laptopKey 0, .rows 0 (some [laptopRow]) 0, .scope 0 (some .all) false 0, .invalidate "k1",
    .verify laptopKey 0, .finish 0, .wake 1]

/-- A load that has settled is joined by nobody. -/
theorem run_revocation_settled :
    EveryStep (RouterKeyVerifier.step plainDeps) (fun state event => ¬ JoinsRevoked plainDeps state event)
      {} revokedAfterSettling ∧ AnswersCurrent (run plainDeps revokedAfterSettling) := by
  have hjoins : EveryStep (RouterKeyVerifier.step plainDeps)
      (fun state event => ¬ JoinsRevoked plainDeps state event) {} revokedAfterSettling := by
    refine ⟨?_, id, id, id, id, id, ?_, trivial⟩
    · rintro ⟨-, -, l, load, key, readAt, hl, -⟩
      cases hl
    · rintro ⟨-, -, l, load, key, readAt, hl, -⟩
      cases hl
  exact ⟨hjoins, (run_revocation revokedAfterSettling hjoins).1⟩

/-- A returned load is joined and answers with a revoked key. -/
theorem run_revocation_joined : ¬ AnswersCurrent (run plainDeps revokedBeforeSettling) := by
  intro h
  have hlast : (run plainDeps revokedBeforeSettling).calls[1]? =
      some ⟨1, .answered (.verified (verifiedKey laptopRow .all) 0)⟩ := by decide +kernel
  have hinvalidated : (run plainDeps revokedBeforeSettling).invalidations = [some "k1"] := by decide +kernel
  refine h _ (List.mem_of_getElem? hlast) _ _ rfl 0 (some "k1") (Nat.le_refl _) Nat.zero_lt_one ?_ rfl
  rw [hinvalidated]
  rfl

end RouterKeyVerifier

end MultiAiRouter.Dataplane
