import MultiAiRouter.ClaudeSdk.Session.Lineage

/-!
# The plan of a turn, and what a turn records

Before an SDK attempt a turn resumes the stored session, forks it at an answer the lineage names, or
starts fresh. A turn that holds its conversation then stores the hashes of its messages beside the
uuids its plan lets it carry, each time the SDK names its session.
-/

namespace MultiAiRouter.ClaudeSdk

/-- Why a turn starts a fresh SDK session. -/
inductive FreshReason where
  | noSession
  | sessionBusy
  | unreadableBody
  | diverged
  | replay
  | toolResultWithoutHeader
  | subagentChild
  | sessionGone
  | noRollbackPoint
  | carryFailed
  deriving DecidableEq

/-- What the SDK launch does with a turn; `deltaFrom` indexes the incoming messages. -/
inductive SessionPlan where
  | resume (sdkSessionId : String) (lineage : LineageClass) (deltaFrom : ℕ) (carryFrom : Option String)
  | fork (sdkSessionId resumeSessionAt : String) (deltaFrom : ℕ) (carryFrom : Option String)
  | fresh (reason : FreshReason)
  deriving DecidableEq

/-- How the router named a session. -/
inductive KeySource where
  | header
  | fingerprint
  deriving DecidableEq

/-- The binding a turn can rejoin, and where its transcript lives when that is another account. -/
structure BoundSession where
  sdkSessionId : String
  lineage : SessionLineageState
  carryFrom : Option String
  deriving DecidableEq

/-- What the router knows of a turn before it plans it. -/
structure ResolveLineageInput where
  session : Option BoundSession
  conversation : Option ConversationView
  keySource : KeySource
  clientToolLoop : Bool
  forkOrSubagent : Bool
  sessionGone : Bool
  sessionBusy : Bool
  deriving DecidableEq

/-- The name of an answer and its position. -/
structure RollbackPoint where
  uuid : String
  pos : ℕ
  deriving DecidableEq

/-- The last named answer below the position. -/
def rollbackBelow (uuids : List String) : ℕ → Option RollbackPoint
  | 0 => none
  | pos + 1 =>
    match uuids[pos]? with
    | some uuid => if uuid ≠ "" then some { uuid, pos } else rollbackBelow uuids pos
    | none => rollbackBelow uuids pos

/-- The last known answer at or before the last preserved message. -/
def rollbackPoint (uuids : List String) (preserved : ℕ) : Option RollbackPoint :=
  rollbackBelow uuids (min preserved uuids.length)

/-- A resume starts past the session's own answer when something follows the client's echo of it. -/
def pastOwnAnswer (conversation : ConversationView) (deltaFrom : ℕ) : ℕ :=
  if conversation.messages[deltaFrom]?.map LineageMessage.role = some .assistant ∧
      deltaFrom + 1 < conversation.messages.length then deltaFrom + 1
  else deltaFrom

/-- The plan for a session the conversation may rejoin. -/
def planOverlap (session : BoundSession) (conversation : ConversationView) (overlap : LineageOverlap) :
    SessionPlan :=
  match overlap.lineage with
  | .continuation | .modifiedContinuation | .compaction =>
    .resume session.sdkSessionId overlap.lineage (pastOwnAnswer conversation overlap.deltaFrom) none
  | .rewrite =>
    match rollbackPoint session.lineage.assistantUuids overlap.preserved with
    | none => .fresh .noRollbackPoint
    | some point => .fork session.sdkSessionId point.uuid (point.pos + 1) none
  | .undo =>
    match rollbackPoint session.lineage.assistantUuids overlap.preserved with
    | none => .fresh .noRollbackPoint
    | some point => .fork session.sdkSessionId point.uuid overlap.deltaFrom none
  | .replay => .fresh .replay
  | .diverged => .fresh .diverged

/-- The never-resume rules, then the classification. -/
def resolveLineage (digest : String → String) (input : ResolveLineageInput) : SessionPlan :=
  if input.sessionBusy then .fresh .sessionBusy
  else if input.sessionGone then .fresh .sessionGone
  else if input.forkOrSubagent then .fresh .subagentChild
  else match input.conversation with
    | none => .fresh .unreadableBody
    | some conversation =>
      if input.keySource = .fingerprint ∧ input.clientToolLoop = false ∧ conversation.endsWithToolResult then
        .fresh .toolResultWithoutHeader
      else match input.session with
        | none => .fresh .noSession
        | some session =>
          planOverlap session conversation
            (classifyLineage session.lineage.prefixHashes (hashMessages digest conversation.messages))

/-- The plan keeps its shape and names the account its transcript has to be carried from. -/
def SessionPlan.withCarry (plan : SessionPlan) (carryFrom : String) : SessionPlan :=
  match plan with
  | .resume sdkSessionId lineage deltaFrom _ => .resume sdkSessionId lineage deltaFrom (some carryFrom)
  | .fork sdkSessionId resumeSessionAt deltaFrom _ =>
    .fork sdkSessionId resumeSessionAt deltaFrom (some carryFrom)
  | .fresh reason => .fresh reason

/-- The plan for a session carried in: a plain continuation forks at the last recorded answer. -/
def carriedPlan (plan : SessionPlan) (carryFrom : String) (uuids : List String) : SessionPlan :=
  match plan with
  | .resume sdkSessionId .continuation deltaFrom _ =>
    match rollbackPoint uuids deltaFrom with
    | some point => .fork sdkSessionId point.uuid (point.pos + 1) (some carryFrom)
    | none => plan.withCarry carryFrom
  | _ => plan.withCarry carryFrom

/-- A stored binding: the account the session runs on, the session, and its lineage. -/
structure SessionEntry where
  accountId : String
  sdkSessionId : String
  lineage : SessionLineageState
  deriving DecidableEq

/-- The binding as a turn on this account sees it. -/
def SessionEntry.boundOn (entry : SessionEntry) (accountId : String) : BoundSession where
  sdkSessionId := entry.sdkSessionId
  lineage := entry.lineage
  carryFrom := if entry.accountId = accountId then none else some entry.accountId

/-- What a turn brings to the store. -/
structure ResolveTurnInput where
  accountId : String
  conversation : Option ConversationView
  keySource : KeySource
  clientToolLoop : Bool
  forkOrSubagent : Bool
  sessionGone : Bool
  deriving DecidableEq

/-- The plan the store would run the turn by, before it claims the conversation. -/
def candidatePlan (digest : String → String) (session : Option BoundSession) (input : ResolveTurnInput) :
    SessionPlan :=
  let resolved := resolveLineage digest
    { session, conversation := input.conversation, keySource := input.keySource,
      clientToolLoop := input.clientToolLoop, forkOrSubagent := input.forkOrSubagent,
      sessionGone := input.sessionGone, sessionBusy := false }
  match session with
  | none => resolved
  | some session =>
    match session.carryFrom with
    | none => resolved
    | some carryFrom => carriedPlan resolved carryFrom session.lineage.assistantUuids

/-- A turn that owns its conversation: its account, its hashes, the stored uuids and its plan. -/
structure HeldTurn where
  accountId : String
  hashes : List String
  storedUuids : List String
  plan : SessionPlan
  deriving DecidableEq

/-- The uuids the turn's plan carries on: none when fresh, those up to its delta when it forks. -/
def HeldTurn.carried (turn : HeldTurn) : List String :=
  match turn.plan with
  | .fresh _ => []
  | .fork _ _ deltaFrom _ => turn.storedUuids.take deltaFrom
  | .resume .. => turn.storedUuids

/-- A plan with a transcript to carry runs fresh when the carry fails. -/
def HeldTurn.prepare (turn : HeldTurn) (moved : Bool) : HeldTurn :=
  match turn.plan with
  | .fresh _ | .resume _ _ _ none | .fork _ _ _ none => turn
  | .resume _ _ _ (some _) | .fork _ _ _ (some _) =>
    if moved then turn else { turn with plan := .fresh .carryFailed }

/-- The binding the turn writes once the SDK names its session, with the answer's uuid if known. -/
def HeldTurn.remember (turn : HeldTurn) (sdkSessionId : String) (assistantUuid : Option String) :
    SessionEntry where
  accountId := turn.accountId
  sdkSessionId := sdkSessionId
  lineage := nextLineage turn.hashes turn.carried assistantUuid

/-- The turn a request runs as: one that records nothing, or one that holds its conversation. -/
inductive SessionTurn where
  | unrecorded (plan : SessionPlan)
  | held (turn : HeldTurn)
  deriving DecidableEq

/-- The turn records nothing when there is nothing to hash or its claim on the conversation is
refused. -/
def resolveTurn (digest : String → String) (session : Option BoundSession) (input : ResolveTurnInput)
    (claimed : Bool) : SessionTurn :=
  let candidate := candidatePlan digest session input
  let plan := if claimed then candidate else .fresh .sessionBusy
  match input.conversation with
  | none => .unrecorded plan
  | some conversation =>
    if claimed then
      .held { accountId := input.accountId, hashes := hashMessages digest conversation.messages
              storedUuids := (session.map fun bound => bound.lineage.assistantUuids).getD []
              plan }
    else .unrecorded plan

section Plan

variable {uuids : List String}

/-- A rollback point stands below the preserved messages and is named there. -/
theorem rollbackBelow_named {bound : ℕ} {point : RollbackPoint} (h : rollbackBelow uuids bound = some point) :
    point.pos < bound ∧ point.uuid ≠ "" ∧ uuids[point.pos]? = some point.uuid := by
  induction bound with
  | zero => simp [rollbackBelow] at h
  | succ bound ih =>
    rw [rollbackBelow] at h
    have hbelow (hrest : rollbackBelow uuids bound = some point) :
        point.pos < bound + 1 ∧ point.uuid ≠ "" ∧ uuids[point.pos]? = some point.uuid := by
      obtain ⟨hpos, hnamed⟩ := ih hrest
      exact ⟨by omega, hnamed⟩
    split at h
    · next uuid huuid =>
      split at h
      · next hne =>
        obtain rfl := Option.some.inj h
        exact ⟨Nat.lt_succ_self _, hne, huuid⟩
      · exact hbelow h
    · exact hbelow h

/-- A rollback point stands below the preserved messages and is named there. -/
theorem rollbackPoint_named {preserved : ℕ} {point : RollbackPoint} (h : rollbackPoint uuids preserved = some point)
    : point.pos < preserved ∧ point.uuid ≠ "" ∧ uuids[point.pos]? = some point.uuid := by
  obtain ⟨hpos, hnamed⟩ := rollbackBelow_named h
  exact ⟨by omega, hnamed⟩

/-- What a plan made from an overlap can be: a fresh one, the resume of the three classes that keep
their session, or a fork at a rollback point whose delta stays within the surviving messages. -/
def PlannedFrom (uuids : List String) (stored : ℕ) (overlap : LineageOverlap) : SessionPlan → Prop
  | .fresh _ => True
  | .resume _ lineage _ _ => lineage = overlap.lineage ∧
      (lineage = .continuation ∨ lineage = .modifiedContinuation ∨ lineage = .compaction)
  | .fork _ uuid deltaFrom _ => overlap.lineage ≠ .compaction ∧
      (∃ pos, pos < deltaFrom ∧ uuid ≠ "" ∧ uuids[pos]? = some uuid) ∧
      ((overlap.lineage = .continuation ∧ deltaFrom ≤ stored + 1) ∨
        ((overlap.lineage = .rewrite ∨ overlap.lineage = .undo) ∧ deltaFrom ≤ overlap.preserved))

/-- The plan made from an overlap carries from nowhere and is one of those it can be. -/
theorem planOverlap_plannedFrom (session : BoundSession) (conversation : ConversationView)
    (stored incoming : ℕ) {overlap : LineageOverlap} (hplaced : overlap.Placed stored incoming) :
    PlannedFrom session.lineage.assistantUuids stored overlap
      (planOverlap session conversation overlap) := by
  unfold planOverlap
  cases hlineage : overlap.lineage with
  | continuation => exact ⟨hlineage.symm, .inl rfl⟩
  | modifiedContinuation => exact ⟨hlineage.symm, .inr (.inl rfl)⟩
  | compaction => exact ⟨hlineage.symm, .inr (.inr rfl)⟩
  | diverged => trivial
  | replay => trivial
  | rewrite =>
    dsimp only
    split
    · trivial
    · next point hpoint =>
      obtain ⟨hpos, hnamed⟩ := rollbackPoint_named hpoint
      exact ⟨by simp [hlineage], ⟨point.pos, Nat.lt_succ_self _, hnamed⟩,
        .inr ⟨.inl hlineage, hpos⟩⟩
  | undo =>
    rw [LineageOverlap.Placed, hlineage] at hplaced
    dsimp only
    split
    · trivial
    · next point hpoint =>
      obtain ⟨hpos, hnamed⟩ := rollbackPoint_named hpoint
      refine ⟨by simp [hlineage], ⟨point.pos, ?_, hnamed⟩, .inr ⟨.inr hlineage, ?_⟩⟩
      · omega
      · omega

/-- A session carried in keeps what its plan can be. -/
theorem carriedPlan_plannedFrom {stored : ℕ} {overlap : LineageOverlap} {plan : SessionPlan}
    (huuids : uuids.length = stored + 1) (carryFrom : String) (h : PlannedFrom uuids stored overlap plan) :
    PlannedFrom uuids stored overlap (carriedPlan plan carryFrom uuids) := by
  cases plan with
  | fresh reason => trivial
  | fork sdkSessionId uuid deltaFrom _ => exact h
  | resume sdkSessionId lineage deltaFrom _ =>
    cases lineage with
    | continuation =>
      rw [carriedPlan]
      split
      · next point hpoint =>
        obtain ⟨hpos, hne, huuid⟩ := rollbackPoint_named hpoint
        have hbound : point.pos < uuids.length := (List.getElem?_eq_some_iff.mp huuid).1
        have hclass : overlap.lineage = .continuation := h.1.symm
        exact ⟨by simp [hclass], ⟨point.pos, Nat.lt_succ_self _, hne, huuid⟩,
          .inl ⟨hclass, by omega⟩⟩
      · exact h
    | _ => exact h

/-- The plan of a turn that found a session comes from the overlap of the two conversations. -/
theorem candidatePlan_plannedFrom (digest : String → String) {bound : BoundSession} {input : ResolveTurnInput}
    {conversation : ConversationView} (hconversation : input.conversation = some conversation)
    (huuids : bound.lineage.assistantUuids.length = bound.lineage.prefixHashes.length + 1) :
    PlannedFrom bound.lineage.assistantUuids bound.lineage.prefixHashes.length
      (classifyLineage bound.lineage.prefixHashes (hashMessages digest conversation.messages))
      (candidatePlan digest (some bound) input) := by
  have hresolved : PlannedFrom bound.lineage.assistantUuids bound.lineage.prefixHashes.length
      (classifyLineage bound.lineage.prefixHashes (hashMessages digest conversation.messages))
      (resolveLineage digest { session := some bound, conversation := input.conversation
                               keySource := input.keySource, clientToolLoop := input.clientToolLoop
                               forkOrSubagent := input.forkOrSubagent, sessionGone := input.sessionGone
                               sessionBusy := false }) := by
    unfold resolveLineage
    rw [hconversation]
    dsimp only
    split
    · trivial
    split
    · trivial
    split
    · trivial
    split
    · trivial
    · exact planOverlap_plannedFrom _ _ _ _ (classifyLineage_placed _ _)
  unfold candidatePlan
  dsimp only
  split
  · exact hresolved
  · exact carriedPlan_plannedFrom huuids _ hresolved

/-- A turn whose claim was refused records nothing. -/
theorem resolveTurn_refused {digest : String → String} {session : Option BoundSession}
    {input : ResolveTurnInput} {claimed : Bool} (h : claimed = false) :
    resolveTurn digest session input claimed = .unrecorded (.fresh .sessionBusy) := by
  subst h
  unfold resolveTurn
  dsimp only
  split <;> simp

/-- With no session to rejoin a turn starts fresh. -/
theorem candidatePlan_none (digest : String → String) (input : ResolveTurnInput) :
    ∃ reason, candidatePlan digest none input = .fresh reason := by
  unfold candidatePlan resolveLineage
  dsimp only
  split
  · exact ⟨_, rfl⟩
  split
  · exact ⟨_, rfl⟩
  split
  · exact ⟨_, rfl⟩
  split
  · exact ⟨_, rfl⟩
  split
  · exact ⟨_, rfl⟩
  · exact ⟨_, rfl⟩

end Plan

end MultiAiRouter.ClaudeSdk
