import MultiAiRouter.ClaudeSdk.Session.Answers

/-!
# A rollback point names the answer of its own position

Every turn keeps the stored states in order as long as no recorded compaction moves a named answer. Continuations,
rewrites, undos and fresh starts carry only names of messages that have not moved; a compaction shifts its surviving
messages and carries the names on unshifted.
-/

namespace MultiAiRouter.ClaudeSdk

open Common

/-- Every stored state is in order. -/
def Sessions.Aligned (sessions : Sessions) : Prop :=
  ∀ state ∈ sessions.stored, state.Aligned sessions.answers

section Step

variable {digest : String → String} {sessions : Sessions} {turn : Turn} {held : HeldTurn}

/-- What a held turn is made of. -/
theorem resolveTurn_held {session : Option BoundSession} {input : ResolveTurnInput} {claimed : Bool}
    (h : resolveTurn digest session input claimed = .held held) :
    ∃ conversation, input.conversation = some conversation ∧
      held = { accountId := input.accountId, hashes := hashMessages digest conversation.messages
               storedUuids := (session.map fun bound => bound.lineage.assistantUuids).getD []
               plan := candidatePlan digest session input } := by
  unfold resolveTurn at h
  dsimp only at h
  split at h
  · simp at h
  · next conversation hconversation =>
    split at h
    · next hclaimed =>
      simp only [SessionTurn.held.injEq] at h
      exact ⟨conversation, hconversation, h.symm⟩
    · simp at h

/-- Carrying the transcript changes nothing but the plan, and that only to a fresh one. -/
theorem prepare_cases (held : HeldTurn) (moved : Bool) :
    held.prepare moved = held ∨ held.prepare moved = { held with plan := .fresh .carryFailed } := by
  unfold HeldTurn.prepare
  split
  · exact .inl rfl
  · exact .inl rfl
  · exact .inl rfl
  · cases moved
    · exact .inr rfl
    · exact .inl rfl
  · cases moved
    · exact .inr rfl
    · exact .inl rfl

/-- The state a turn finds is one of those stored. -/
theorem find_mem {state : StoredState} (h : sessions.find turn = some state) : state ∈ sessions.stored := by
  unfold Sessions.find at h
  obtain ⟨k, -, hk⟩ := Option.bind_eq_some_iff.mp h
  exact List.mem_of_getElem? hk

/-- Every name a recorded turn carries on keeps its place. -/
theorem carried_names (hsessions : sessions.Aligned) (hplaces : TurnKeepsPlaces digest sessions turn)
    (hheld : resolveTurn digest (sessions.bound turn) turn.input turn.claimed = .held held)
    (hrecorded : ∃ report ∈ turn.reports, report.accepted) {pos : ℕ} {uuid : String}
    (hpos : pos < held.hashes.length) (hne : uuid ≠ "")
    (huuid : (held.prepare turn.moved).carried[pos]? = some uuid) : NamesAnswer sessions.answers
      (incomingHistories (sessions.find turn) held.hashes sessions.nextId) pos uuid := by
  obtain ⟨conversation, hconversation, hmade⟩ := resolveTurn_held hheld
  have hfresh (reason : FreshReason) (hplan : (held.prepare turn.moved).plan = .fresh reason) : False := by
    simp [HeldTurn.carried, hplan] at huuid
  have hprepared : held.prepare turn.moved = held := by
    rcases prepare_cases held turn.moved with h | h
    · exact h
    · exact (hfresh .carryFailed (by rw [h])).elim
  rw [hprepared] at huuid hfresh
  cases hfound : sessions.find turn with
  | none =>
    obtain ⟨reason, hnone⟩ := candidatePlan_none digest turn.input
    refine (hfresh reason ?_).elim
    rw [hmade, Sessions.bound, hfound]
    exact hnone
  | some state =>
    have hstate := hsessions state (find_mem hfound)
    have hbound : sessions.bound turn = some (state.entry.boundOn turn.input.accountId) := by
      rw [Sessions.bound, hfound, Option.map_some]
    have hhashes : held.hashes = hashMessages digest conversation.messages := by rw [hmade]
    have hstored : held.storedUuids = state.entry.lineage.assistantUuids := by
      rw [hmade, hbound]
      rfl
    have hplan : PlannedFrom state.entry.lineage.assistantUuids state.entry.lineage.prefixHashes.length
        (classifyLineage state.entry.lineage.prefixHashes held.hashes) held.plan := by
      rw [hhashes, hmade, hbound]
      exact candidatePlan_plannedFrom digest hconversation hstate.uuids_length
    cases hkind : held.plan with
    | fresh reason => exact (hfresh reason hkind).elim
    | fork sdkSessionId resumeSessionAt deltaFrom carryFrom =>
      rw [hkind] at hplan
      simp only [HeldTurn.carried, hkind, hstored] at huuid
      have hdelta : pos < deltaFrom := by
        have hlength := (List.getElem?_eq_some_iff.mp huuid).1
        rw [List.length_take] at hlength
        omega
      rw [List.getElem?_take_of_lt hdelta] at huuid
      exact fork_names hstate hplan hdelta hne huuid
    | resume sdkSessionId lineage deltaFrom carryFrom =>
      rw [hkind] at hplan
      simp only [HeldTurn.carried, hkind, hstored] at huuid
      refine resume_names hstate hplan ?_ hpos hne huuid
      rintro rfl
      rw [hhashes]
      refine hplaces ?_ state hfound conversation hconversation
      rw [recordsCompaction, hheld]
      dsimp only
      rw [hprepared, hkind]
      simpa using hrecorded

/-- One report keeps every stored state in order, the one it stores included. -/
theorem report_aligned (hsessions : sessions.Aligned) {found : Option StoredState} {nextId : MessageId}
    (report : TurnReport)
    (hcarried : report.accepted → ∀ pos < held.hashes.length, ∀ uuid, uuid ≠ "" →
      held.carried[pos]? = some uuid →
      NamesAnswer sessions.answers (incomingHistories found held.hashes nextId) pos uuid) :
    (sessions.report held (incomingHistories found held.hashes nextId) report).Aligned := by
  have hmore : sessions.answers ⊆
      (sessions.report held (incomingHistories found held.hashes nextId) report).answers :=
    List.subset_append_left ..
  intro state hmem
  simp only [Sessions.report] at hmem
  split at hmem
  · next haccepted =>
    rcases List.mem_append.mp hmem with hold | hnew
    · exact (hsessions state hold).mono hmore
    · rw [List.mem_singleton] at hnew
      subst hnew
      refine ⟨incomingHistories_length, nextLineage_uuids_length, ?_⟩
      intro pos uuid hne huuid
      rcases nextLineage_uuid hne huuid with ⟨hpos, hold⟩ | ⟨rfl, hown⟩
      · exact (hcarried haccepted pos hpos uuid hne hold).mono hmore
      · refine ⟨{ uuid, after := (incomingHistories found held.hashes nextId).getLastD [] }, ?_, rfl,
          incomingHistories_getLastD⟩
        simp [Sessions.report, hown]
  · exact (hsessions state hmem).mono hmore

/-- The reports of a turn keep every stored state in order. -/
theorem reports_aligned {found : Option StoredState} {nextId : MessageId} (reports : List TurnReport)
    (hsessions : sessions.Aligned)
    (hcarried : (∃ report ∈ reports, report.accepted) → ∀ pos < held.hashes.length, ∀ uuid, uuid ≠ "" →
      held.carried[pos]? = some uuid →
      NamesAnswer sessions.answers (incomingHistories found held.hashes nextId) pos uuid) :
    (runFrom (Sessions.report held (incomingHistories found held.hashes nextId)) sessions
      reports).Aligned := by
  induction reports generalizing sessions with
  | nil => exact hsessions
  | cons report rest ih =>
    rw [runFrom_cons]
    refine ih (report_aligned hsessions report ?_) ?_
    · intro haccepted
      exact hcarried ⟨report, List.mem_cons_self, haccepted⟩
    · rintro ⟨later, hlater, haccepted⟩ pos hpos uuid hne huuid
      have hnames := hcarried ⟨later, List.mem_cons_of_mem _ hlater, haccepted⟩ pos hpos uuid hne huuid
      exact hnames.mono (List.subset_append_left ..)

/-- A turn that keeps the places of the answers keeps every stored state in order. -/
theorem stepTurn_aligned (hsessions : sessions.Aligned) (hplaces : TurnKeepsPlaces digest sessions turn) :
    (stepTurn digest sessions turn).Aligned := by
  unfold stepTurn
  split
  · exact hsessions
  · next held hheld =>
    have hkeeps : (held.prepare turn.moved).hashes = held.hashes := by
      rcases prepare_cases held turn.moved with h | h <;> rw [h]
    have hsame : incomingHistories (sessions.find turn) held.hashes sessions.nextId =
        incomingHistories (sessions.find turn) (held.prepare turn.moved).hashes sessions.nextId := by
      rw [hkeeps]
    dsimp only
    rw [hsame]
    refine reports_aligned turn.reports hsessions ?_
    rw [hkeeps]
    intro hrecorded pos hpos uuid hne huuid
    exact carried_names hsessions hplaces hheld hrecorded hpos hne huuid

/-- A fork planned against a state in order rewinds to the answer of its own position, in the stored
conversation and in the incoming one alike. -/
theorem fork_rewinds {state : StoredState} {answers : List Answer} (hstate : state.Aligned answers)
    {input : ResolveTurnInput} {conversation : ConversationView}
    (hconversation : input.conversation = some conversation) (nextId : MessageId)
    {sdkSessionId uuid : String} {deltaFrom : ℕ} {carryFrom : Option String}
    (hplan : candidatePlan digest (some (state.entry.boundOn input.accountId)) input =
      .fork sdkSessionId uuid deltaFrom carryFrom) :
    ∃ pos < deltaFrom, state.entry.lineage.assistantUuids[pos]? = some uuid ∧
      NamesAnswer answers state.histories pos uuid ∧
      NamesAnswer answers
        (incomingHistories (some state) (hashMessages digest conversation.messages) nextId) pos uuid := by
  have hplanned : PlannedFrom state.entry.lineage.assistantUuids state.entry.lineage.prefixHashes.length
      (classifyLineage state.entry.lineage.prefixHashes (hashMessages digest conversation.messages))
      (.fork sdkSessionId uuid deltaFrom carryFrom) := by
    rw [← hplan]
    exact candidatePlan_plannedFrom digest hconversation hstate.uuids_length
  obtain ⟨pos, hpos, hne, huuid⟩ := hplanned.2.1
  exact ⟨pos, hpos, huuid, hstate.names pos uuid hne huuid, fork_names hstate hplanned hpos hne huuid⟩

end Step

/-- In every run whose recorded compactions keep the places of the answers they carry on, every
recorded uuid names the answer given to exactly the messages in front of its position, and a fork
planned later rewinds to the answer of its own position. -/
theorem runTurns_names_answers (digest : String → String) (turns : List Turn)
    (hturns : EveryStep (stepTurn digest) (TurnKeepsPlaces digest) Sessions.start turns) :
    ∀ state ∈ (runFrom (stepTurn digest) Sessions.start turns).stored,
      (∀ pos uuid, uuid ≠ "" → state.entry.lineage.assistantUuids[pos]? = some uuid →
        NamesAnswer (runFrom (stepTurn digest) Sessions.start turns).answers state.histories pos uuid) ∧
      (∀ (input : ResolveTurnInput) (conversation : ConversationView) (nextId : MessageId)
        (sdkSessionId uuid : String) (deltaFrom : ℕ) (carryFrom : Option String),
        input.conversation = some conversation →
        candidatePlan digest (some (state.entry.boundOn input.accountId)) input =
          .fork sdkSessionId uuid deltaFrom carryFrom →
        ∃ pos < deltaFrom, state.entry.lineage.assistantUuids[pos]? = some uuid ∧
          NamesAnswer (runFrom (stepTurn digest) Sessions.start turns).answers state.histories pos uuid ∧
          NamesAnswer (runFrom (stepTurn digest) Sessions.start turns).answers
            (incomingHistories (some state) (hashMessages digest conversation.messages) nextId)
            pos uuid) := by
  have hstart : Sessions.start.Aligned := by
    intro state hmem
    simp [Sessions.start] at hmem
  have haligned : (runFrom (stepTurn digest) Sessions.start turns).Aligned :=
    runFrom_invariant_of_everyStep Sessions.Aligned (fun _ _ => stepTurn_aligned) turns Sessions.start
      hstart hturns
  intro state hmem
  have hstate := haligned state hmem
  refine ⟨hstate.names, ?_⟩
  intro input conversation nextId sdkSessionId uuid deltaFrom carryFrom hconversation hplan
  exact fork_rewinds hstate hconversation nextId hplan

/-- A user message, or the echo of an answer, by its text. -/
def message (role : LineageRole) (text : String) : LineageMessage := { role, normalized := text }

/-- A turn on one account, with a client that names its session. -/
def turnOf (messages : List LineageMessage) : ResolveTurnInput where
  accountId := "account"
  conversation := some { messages, endsWithToolResult := false }
  keySource := .header
  clientToolLoop := false
  forkOrSubagent := false
  sessionGone := false

/-- A turn that finds a stored state and reports one answer. -/
def answeredTurn (found : Option ℕ) (messages : List LineageMessage) (uuid : Option String) : Turn where
  found := found
  input := turnOf messages
  claimed := true
  moved := true
  reports := [{ sdkSessionId := "session", assistantUuid := uuid, accepted := true }]

/-- Three messages and the answers between them. -/
def longConversation : List LineageMessage :=
  [message .user "a", message .assistant "r1", message .user "b", message .assistant "r2", message .user "c"]

/-- A conversation whose client rewrites the first two messages in place. -/
def summarisedInPlace : List Turn :=
  [answeredTurn none longConversation (some "u3"),
   answeredTurn (some 0)
     [message .user "x", message .assistant "y", message .user "b", message .assistant "r2",
      message .user "c", message .assistant "r3", message .user "d"] (some "u4")]

/-- A compaction that moves nothing keeps the name of the answer after the surviving messages. -/
theorem runTurns_names_answers_in_place :
    EveryStep (stepTurn id) (TurnKeepsPlaces id) Sessions.start summarisedInPlace ∧
      ∃ state ∈ (runFrom (stepTurn id) Sessions.start summarisedInPlace).stored,
        state.entry.lineage.assistantUuids = ["", "", "", "", "", "u3", "", "u4"] ∧
        NamesAnswer (runFrom (stepTurn id) Sessions.start summarisedInPlace).answers state.histories 5
          "u3" := by
  have hturns : EveryStep (stepTurn id) (TurnKeepsPlaces id) Sessions.start summarisedInPlace := by
    decide +kernel
  refine ⟨hturns, ?_⟩
  obtain ⟨state, hmem, huuids⟩ : ∃ state ∈ (runFrom (stepTurn id) Sessions.start summarisedInPlace).stored,
        state.entry.lineage.assistantUuids = ["", "", "", "", "", "u3", "", "u4"] := by
    decide +kernel
  have hnames := (runTurns_names_answers id summarisedInPlace hturns state hmem).1
  exact ⟨state, hmem, huuids, hnames 5 "u3" (by decide) (by rw [huuids]; rfl)⟩

/-- Three turns of one conversation, then a client that summarises the first two messages in one. -/
def compactedRun : List Turn :=
  [answeredTurn none (longConversation.take 1) (some "u1"),
   answeredTurn (some 0) (longConversation.take 3) (some "u2"),
   answeredTurn (some 1) longConversation (some "u3"),
   answeredTurn (some 2)
     [message .user "s", message .user "b", message .assistant "r2", message .user "c",
      message .assistant "r3", message .user "d"] (some "u4")]

/-- After a compaction the state names `u2` at position 3, where the answer to another message stands,
and an undo to the first four messages rewinds to it. -/
theorem runTurns_misnames_answer : ∃ state ∈ (runFrom (stepTurn id) Sessions.start compactedRun).stored,
      state.entry.lineage.assistantUuids = ["", "u1", "", "u2", "", "u3", "u4"] ∧
      ¬ NamesAnswer (runFrom (stepTurn id) Sessions.start compactedRun).answers state.histories 3 "u2" ∧
      NamesAnswer (runFrom (stepTurn id) Sessions.start compactedRun).answers state.histories 2 "u2" ∧
      candidatePlan id (some (state.entry.boundOn "account"))
        (turnOf [message .user "s", message .user "b", message .assistant "r2", message .user "c"]) =
          .fork "session" "u2" 4 none := by
  decide +kernel

end MultiAiRouter.ClaudeSdk
