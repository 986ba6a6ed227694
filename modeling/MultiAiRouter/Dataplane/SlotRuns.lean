import MultiAiRouter.Dataplane.RequestSlots

/-!
# Every request gives its slot back

A request that threw, or whose answer has settled, has no entry in the registry. An answer the
router estimated itself leaves its entry in place.
-/

namespace MultiAiRouter.Dataplane

open Common

namespace RequestTable

/-- What a request's phase says about its slot and about the wrapper around its lease. -/
structure SlotKept (registry : ActiveRequestRegistry) (id : ℕ) (request : DispatchedRequest) :
    Prop where
  gone : request.phase = .answered ∨ request.phase = .thrown → id ∉ registry.entries
  kept : request.phase ≠ .answered → request.phase ≠ .thrown →
    id ∈ registry.entries ∨ registry.stopping = true ∧ request.aborted = true
  wrapped : request.phase = .selecting ∨ request.phase = .chaining → request.held = true ∧ request.requested = false
  waited : request.phase = .waiting → request.held = true
  relayed : request.phase = .relaying → request.held = false

/-- Every slot belongs to a dispatched request, and every request's slot is as its phase says. -/
structure Kept (table : RequestTable) : Prop where
  bounded : ∀ id ∈ table.registry.entries, id < table.requests.length
  slots : ∀ id request, table.requests[id]? = some request → SlotKept table.registry id request
  emptied : table.registry.stopping = true → table.registry.closed = true ∧ table.registry.entries = []

variable {table : RequestTable} {id : ℕ} {request : DispatchedRequest}

/-- A registry nobody is in keeps no slot. -/
theorem start_kept (maximumEntries : ℕ) (positive : 0 < maximumEntries) : (start maximumEntries positive).Kept := by
  constructor <;> simp [start]

/-- Writing one request back, with or without its own slot, leaves the other slots alone. -/
theorem Kept.change (hkept : table.Kept) {registry : ActiveRequestRegistry} {changed : DispatchedRequest}
    (hothers : ∀ other, other ≠ id → (other ∈ registry.entries ↔ other ∈ table.registry.entries))
    (hmem : ∀ other ∈ registry.entries, other ∈ table.registry.entries)
    (hstopping : registry.stopping = table.registry.stopping) (hclosed : registry.closed = table.registry.closed)
    (hchanged : SlotKept registry id changed) :
    ({ registry := registry, requests := table.requests.set id changed } : RequestTable).Kept := by
  constructor
  · intro other hother
    simpa using hkept.bounded other (hmem other hother)
  · intro other found hfound
    rcases getElem?_set_cases hfound with ⟨rfl, rfl⟩ | ⟨hne, hold⟩
    · exact hchanged
    · have hslot := hkept.slots other found hold
      have hsame := hothers other hne
      refine ⟨fun h => ?_, fun h h' => ?_, hslot.wrapped, hslot.waited, hslot.relayed⟩
      · rw [hsame]
        exact hslot.gone h
      · rw [hsame, hstopping]
        exact hslot.kept h h'
  · intro hstop
    obtain ⟨hshut, hempty⟩ := hkept.emptied (hstopping ▸ hstop)
    refine ⟨hclosed.trans hshut, List.eq_nil_iff_forall_not_mem.mpr fun other hother => ?_⟩
    simpa [hempty] using hmem other hother

/-- Writing one request back without touching the registry. -/
theorem Kept.put (hkept : table.Kept) {changed : DispatchedRequest}
    (hchanged : SlotKept table.registry id changed) : (table.put id changed).Kept :=
  hkept.change (fun _ _ => Iff.rfl) (fun _ h => h) rfl rfl hchanged

/-- A request that gave its slot back may be answered or thrown. -/
theorem Kept.release_put (hkept : table.Kept) {changed : DispatchedRequest}
    (hphase : changed.phase = .answered ∨ changed.phase = .thrown) : ((table.release id).put id changed).Kept := by
  refine hkept.change (fun other hne => ?_)
    (fun other h => ((table.registry.mem_release id other).mp h).1) rfl rfl ?_
  · rw [release, table.registry.mem_release]
    exact ⟨fun h => h.1, fun h => ⟨h, hne⟩⟩
  refine ⟨fun _ => by simp [release], fun h h' => absurd hphase (by simp [h, h']), ?_, ?_, ?_⟩ <;>
    rcases hphase with hphase | hphase <;> simp [hphase]

/-- A throw gives the slot back. -/
theorem Kept.threw (hkept : table.Kept) : (table.threw id request).Kept := hkept.release_put (.inr rfl)

/-- The failure handler finds nothing left to release after a settlement released. -/
theorem release_threw : (table.release id).threw id request = table.threw id request := by
  simp [threw, release, ActiveRequestRegistry.release, put]

/-- A settlement followed by a throw gives the slot back. -/
theorem Kept.settle_threw (hkept : table.Kept) :
    ((table.settleLease id request).1.threw id (table.settleLease id request).2).Kept := by
  unfold settleLease
  dsimp only
  split
  · rw [release_threw]
    exact hkept.threw
  · exact hkept.threw

/-- A held chain that asks for its release and settles gives its slot back. -/
theorem releasedAndSettled_of_held (hheld : request.held = true) : table.releasedAndSettled id request =
      (table.release id, { request with requested := true, held := false }) := by
  simp [releasedAndSettled, wrappedRelease, settleLease, hheld]

/-- A chain's exit keeps every slot as the phases say. -/
theorem Kept.exited (hkept : table.Kept) (hrequest : table.requests[id]? = some request)
    (hphase : request.phase = .chaining) (exit : ChainExit) : (table.exited id request exit).Kept := by
  have hslot := hkept.slots id request hrequest
  obtain ⟨hheld, hrequested⟩ := hslot.wrapped (.inr hphase)
  have hactive := hslot.kept (by simp [hphase]) (by simp [hphase])
  cases exit with
  | refused awaitingPermit =>
    cases awaitingPermit with
    | true =>
      simp only [RequestTable.exited, if_true, wrappedRelease, hheld]
      refine hkept.put ⟨by simp, fun _ _ => hactive, by simp, fun _ => rfl, by simp⟩
    | false =>
      simp only [RequestTable.exited, Bool.false_eq_true, if_false, releasedAndSettled_of_held hheld]
      rw [release_threw]
      exact hkept.threw
  | relayedError | cancelledBeforeRelay =>
    simp only [RequestTable.exited, releasedAndSettled_of_held hheld]
    exact hkept.release_put (.inl rfl)
  | threw => exact hkept.settle_threw
  | success relaySettled =>
    cases relaySettled with
    | true =>
      simp only [RequestTable.exited, if_true, releasedAndSettled_of_held hheld]
      exact hkept.release_put (.inl rfl)
    | false =>
      simp only [RequestTable.exited, Bool.false_eq_true, if_false, settleLease, hrequested]
      exact hkept.put ⟨by simp, fun _ _ => hactive, by simp, by simp, fun _ => rfl⟩

/-- The end of a wait for a permit keeps every slot as the phases say. -/
theorem Kept.pauseEnded (hkept : table.Kept) (hrequest : table.requests[id]? = some request)
    (hphase : request.phase = .waiting) (again : Bool) : (table.pauseEnded id request again).Kept := by
  have hslot := hkept.slots id request hrequest
  cases again with
  | true =>
    simp only [RequestTable.pauseEnded, if_true]
    exact hkept.put ⟨by simp, fun _ _ => hslot.kept (by simp [hphase]) (by simp [hphase]),
      fun _ => ⟨hslot.waited hphase, rfl⟩, by simp, by simp⟩
  | false => exact hkept.settle_threw

/-- A settled relay gives its slot back. -/
theorem Kept.relaySettled (hkept : table.Kept) (hrequest : table.requests[id]? = some request)
    (hphase : request.phase = .relaying) : (table.relaySettled id request).Kept := by
  have hheld := (hkept.slots id request hrequest).relayed hphase
  simp only [RequestTable.relaySettled, wrappedRelease, hheld, Bool.false_eq_true, if_false]
  exact hkept.release_put (.inl rfl)

/-- A dispatched request takes the next slot, or throws for want of one. -/
theorem Kept.dispatched (hkept : table.Kept) : table.dispatched.Kept := by
  have hfresh : table.requests.length ∉ table.registry.entries := fun h => Nat.lt_irrefl _ (hkept.bounded _ h)
  unfold RequestTable.dispatched
  split
  · constructor
    · intro id hid
      simpa using Nat.lt_succ_of_lt (hkept.bounded id hid)
    · intro id request hrequest
      rcases getElem?_concat_cases hrequest with hold | ⟨rfl, rfl⟩
      · exact hkept.slots id request hold
      · exact ⟨fun _ => hfresh, by simp, by simp, by simp, by simp⟩
    · exact hkept.emptied
  · next registry hregistry =>
    obtain ⟨hentries, hstopping⟩ := ActiveRequestRegistry.register_eq_some hregistry
    constructor
    · intro id hid
      rw [hentries] at hid
      rw [List.length_append, List.length_singleton]
      rcases List.mem_append.mp hid with hold | hnew
      · exact Nat.lt_succ_of_lt (hkept.bounded id hold)
      · rw [List.mem_singleton.mp hnew]
        exact Nat.lt_succ_self _
    · intro id request hrequest
      simp only [List.getElem?_append] at hrequest
      split at hrequest
      · next hlt =>
        have hslot := hkept.slots id request hrequest
        have hsame : id ∈ registry.entries ↔ id ∈ table.registry.entries := by
          rw [hentries, List.mem_append, List.mem_singleton]
          exact or_iff_left (Nat.ne_of_lt hlt)
        refine ⟨fun h => ?_, fun h h' => ?_, hslot.wrapped, hslot.waited, hslot.relayed⟩
        · rw [hsame]
          exact hslot.gone h
        · rw [hsame, hstopping]
          exact hslot.kept h h'
      · next hlt =>
        have hid : id = table.requests.length := by
          have := (List.getElem?_eq_some_iff.mp hrequest).1
          simp at this
          omega
        obtain rfl := List.mem_singleton.mp (List.mem_of_getElem? hrequest)
        refine ⟨by simp, fun _ _ => .inl ?_, by simp, by simp, by simp⟩
        rw [hentries, hid]
        simp
    · intro hstop
      simp [ActiveRequestRegistry.register, (hkept.emptied (hstopping ▸ hstop)).1] at hregistry

/-- Shutdown takes every slot and aborts the requests it takes them from. -/
theorem Kept.stopped (hkept : table.Kept) : table.stopped.Kept := by
  unfold RequestTable.stopped
  split
  · exact hkept
  · next hrunning =>
    have hempty : table.registry.stop.entries = [] := by simp [ActiveRequestRegistry.stop, hrunning]
    have hstopping : table.registry.stop.stopping = true := by
      simp [ActiveRequestRegistry.stop, hrunning]
    constructor
    · simp [hempty]
    · intro id found hfound
      rw [List.getElem?_mapIdx] at hfound
      obtain ⟨request, hrequest, rfl⟩ := Option.map_eq_some_iff.mp hfound
      have hslot := hkept.slots id request hrequest
      unfold stoppedRequest
      split
      · by_cases hrelaying : request.phase = .relaying
        · exact ⟨by simp [hempty], by simp [hrelaying], by simp [hrelaying], by simp [hrelaying],
            by simp [hrelaying]⟩
        · simp only [hrelaying, if_false]
          exact ⟨by simp [hempty], fun _ _ => .inr ⟨hstopping, rfl⟩, hslot.wrapped, hslot.waited,
            fun h => absurd h hrelaying⟩
      · next hout =>
        refine ⟨by simp [hempty], fun h h' => ?_, hslot.wrapped, hslot.waited, hslot.relayed⟩
        rcases hslot.kept h h' with hin | ⟨hstop, -⟩
        · exact absurd hin hout
        · exact absurd hstop hrunning
    · exact fun _ => ⟨by simp [ActiveRequestRegistry.stop, hrunning], hempty⟩

/-- What happens to a request in another phase than it is in changes nothing. -/
theorem Kept.inPhase (hkept : table.Kept) {phase : RequestPhase} {next : DispatchedRequest → RequestTable}
    (hnext : ∀ request, table.requests[id]? = some request → request.phase = phase → (next request).Kept) :
    (match table.requests[id]? with
      | some request => if request.phase = phase then next request else table
      | none => table).Kept := by
  split
  · next request hrequest =>
    split
    · next hphase => exact hnext request hrequest hphase
    · exact hkept
  · exact hkept

/-- Whatever happens keeps every slot as the phases say. -/
theorem step_kept (hkept : table.Kept) (event : RequestEvent) : (table.step event).Kept := by
  cases event with
  | dispatch => exact hkept.dispatched
  | throws id =>
    simp only [step]
    split
    · split
      · exact hkept.threw
      · exact hkept
    · exact hkept
  | prepared id =>
    refine hkept.inPhase fun request hrequest hphase => ?_
    have hslot := hkept.slots id request hrequest
    exact hkept.put ⟨by simp, fun _ _ => hslot.kept (by simp [hphase]) (by simp [hphase]),
      fun _ => ⟨rfl, rfl⟩, by simp, by simp⟩
  | estimate id =>
    refine hkept.inPhase fun request hrequest hphase => ?_
    have hslot := hkept.slots id request hrequest
    exact hkept.put ⟨by simp, fun _ _ => hslot.kept (by simp [hphase]) (by simp [hphase]), by simp, by simp, by simp⟩
  | chain id =>
    refine hkept.inPhase fun request hrequest hphase => ?_
    have hslot := hkept.slots id request hrequest
    exact hkept.put ⟨by simp, fun _ _ => hslot.kept (by simp [hphase]) (by simp [hphase]),
      fun _ => hslot.wrapped (.inl hphase), by simp, by simp⟩
  | chainExit id exit => exact hkept.inPhase fun _ hrequest hphase => hkept.exited hrequest hphase exit
  | paused id again => exact hkept.inPhase fun _ hrequest hphase => hkept.pauseEnded hrequest hphase again
  | bodyEnds id => exact hkept.inPhase fun _ hrequest hphase => hkept.relaySettled hrequest hphase
  | closeAdmission => exact ⟨hkept.bounded, fun id request h => ⟨(hkept.slots id request h).gone,
      (hkept.slots id request h).kept, (hkept.slots id request h).wrapped,
      (hkept.slots id request h).waited, (hkept.slots id request h).relayed⟩,
      fun hstop => ⟨rfl, (hkept.emptied hstop).2⟩⟩
  | stop => exact hkept.stopped

/-- After every run the slots are as the phases say. -/
theorem run_kept (maximumEntries : ℕ) (positive : 0 < maximumEntries) (events : List RequestEvent) :
    (run (start maximumEntries positive) events).Kept :=
  runFrom_invariant Kept (fun _ event h => step_kept h event) events _
    (start_kept maximumEntries positive)

/-- A request that threw, or whose answer (the router's own estimate apart) has settled, has no entry; one under way
has its entry, unless shutdown took it; and shutdown leaves no entry. -/
theorem run_slots_given_back (maximumEntries : ℕ) (positive : 0 < maximumEntries)
    (events : List RequestEvent) (id : ℕ) (request : DispatchedRequest)
    (hrequest : (run (start maximumEntries positive) events).requests[id]? = some request) :
    (request.phase = .thrown ∨ request.phase = .answered →
      id ∉ (run (start maximumEntries positive) events).registry.entries) ∧
    (request.phase = .preparing ∨ request.phase = .selecting ∨ request.phase = .chaining ∨
        request.phase = .waiting →
      id ∈ (run (start maximumEntries positive) events).registry.entries ∨
        (run (start maximumEntries positive) events).registry.stopping = true ∧ request.aborted = true) ∧
    ((run (start maximumEntries positive) events).registry.stopping = true →
      (run (start maximumEntries positive) events).registry.entries = []) := by
  have hkept := run_kept maximumEntries positive events
  have hslot := hkept.slots id request hrequest
  refine ⟨fun h => hslot.gone h.symm, fun h => hslot.kept ?_ ?_, fun h => (hkept.emptied h).2⟩ <;>
    rcases h with h | h | h | h <;> simp [h]

/-- A chain refused for want of a permit, retried, relayed and read to its end. -/
theorem run_slots_given_back_retried :
    0 ∉ (run (start 1 (by decide)) [.dispatch, .prepared 0, .chain 0, .chainExit 0 (.refused true),
      .paused 0 true, .chain 0, .chainExit 0 (.success false), .bodyEnds 0]).registry.entries :=
  (run_slots_given_back 1 (by decide) [.dispatch, .prepared 0, .chain 0, .chainExit 0 (.refused true),
    .paused 0 true, .chain 0, .chainExit 0 (.success false), .bodyEnds 0] 0
    { leased := true, held := false, phase := .answered } (by decide +kernel)).1 (.inr rfl)

/-- Shutdown takes the slot of a request whose chain is still running. -/
theorem run_slot_taken_by_shutdown :
    (run (start 1 (by decide)) [.dispatch, .prepared 0, .chain 0, .stop]).requests[0]? =
      some { leased := true, aborted := true, phase := .chaining } ∧
    0 ∉ (run (start 1 (by decide)) [.dispatch, .prepared 0, .chain 0, .stop]).registry.entries := by
  decide +kernel

end RequestTable

end MultiAiRouter.Dataplane
