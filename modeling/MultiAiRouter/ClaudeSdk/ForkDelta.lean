import Mathlib.Data.List.Flatten
import MultiAiRouter.ClaudeSdk.Prompt

/-!
# What a fork sends past the answer it rewinds to

A fork rewinds to a recorded answer, so every message after it has to be sent again. A rewrite and a carried
continuation send from the message after the answer on. An undo sends the last message alone: whatever else stands
behind the answer is lost.
-/

namespace MultiAiRouter.ClaudeSdk

variable {Content : Type*}

/-- The answer a turn's plan rewinds its session to. -/
def rewoundTo (digest : String → String) (bound : BoundSession) (conversation : ConversationView) :
    Option RollbackPoint :=
  let overlap := classifyLineage bound.lineage.prefixHashes (hashMessages digest conversation.messages)
  match overlap.lineage with
  | .rewrite | .undo => rollbackPoint bound.lineage.assistantUuids overlap.preserved
  | .continuation =>
    if bound.carryFrom.isSome then
      rollbackPoint bound.lineage.assistantUuids (pastOwnAnswer conversation overlap.deltaFrom)
    else none
  | _ => none

/-- Every message behind the position that is not cleared is sent, in order. -/
def NothingLost (messages : List (SdkRequestMessage Content)) (plan : SessionPlan) (pos : ℕ) : Prop :=
  ((messages.drop (pos + 1)).filter fun message => !message.cleared).Sublist (sentMessages messages plan)

/-- The incoming conversation is the stored one cut short, and before its last message stands one that is not
cleared and has no answer at or behind it. -/
def UndoDrops (stored incoming uuids : List String) (messages : List (SdkRequestMessage Content)) : Prop :=
  incoming <+: stored ∧ incoming.length < stored.length ∧
    ∃ (i : ℕ) (message : SdkRequestMessage Content), messages[i]? = some message ∧ message.cleared = false ∧
      i + 1 < messages.length ∧ ∀ j, i ≤ j → j < messages.length → uuids[j]?.getD "" = ""

section Lineage

variable {stored incoming uuids : List String}

/-- The shared part is the whole incoming conversation exactly when that leads the stored one. -/
theorem commonPrefix_eq_length_iff :
    ∀ {stored incoming : List String}, commonPrefix stored incoming = incoming.length ↔ incoming <+: stored
  | [], [] => by simp [commonPrefix]
  | [], _ :: _ => by simp [commonPrefix]
  | _ :: _, [] => by simp [commonPrefix]
  | s :: stored, i :: incoming => by
    rw [commonPrefix, List.cons_prefix_cons]
    split
    · next hsame => simp [hsame, @commonPrefix_eq_length_iff stored incoming]
    · next hother => simp [Ne.symm hother]

/-- An undo is a stored conversation cut short. -/
theorem classifyLineage_undo_iff (hincoming : incoming ≠ []) : (classifyLineage stored incoming).lineage = .undo ↔
      incoming <+: stored ∧ incoming.length < stored.length := by
  have hpos : 0 < incoming.length := List.length_pos_iff.mpr hincoming
  have hright := commonPrefix_le_right stored incoming
  rw [← commonPrefix_eq_length_iff]
  unfold classifyLineage
  by_cases hempty : stored.length = 0 ∨ incoming.length = 0
  · rw [if_pos hempty]
    refine iff_of_false (by simp) (by omega)
  rw [if_neg hempty]
  dsimp only
  split
  · exact iff_of_false (by simp) (by omega)
  split
  · exact iff_of_false (by simp) (by omega)
  split
  · exact iff_of_true rfl (by omega)
  have hrest : ¬ (commonPrefix stored incoming = incoming.length ∧ incoming.length < stored.length) := by omega
  split
  · split <;> exact iff_of_false (by simp) hrest
  · unfold compactionOr
    split <;> exact iff_of_false (by simp) hrest

/-- No answer is recorded between a rollback point and the bound it was sought below. -/
theorem rollbackBelow_last {bound : ℕ} {point : RollbackPoint} (h : rollbackBelow uuids bound = some point)
    {j : ℕ} (hpoint : point.pos < j) (hj : j < bound) : uuids[j]?.getD "" = "" := by
  induction bound with
  | zero => omega
  | succ bound ih =>
    rw [rollbackBelow] at h
    split at h
    · next uuid huuid =>
      split at h
      · obtain rfl := Option.some.inj h
        dsimp only at hpoint
        omega
      · next hunnamed =>
        rcases Nat.lt_succ_iff_lt_or_eq.mp hj with hless | rfl
        · exact ih h hless
        · rw [huuid]
          simpa using hunnamed
    · next hnone =>
      rcases Nat.lt_succ_iff_lt_or_eq.mp hj with hless | rfl
      · exact ih h hless
      · rw [hnone]
        rfl

/-- A rollback point is the last recorded answer among the surviving messages. -/
theorem rollbackPoint_last {preserved : ℕ} {point : RollbackPoint} (h : rollbackPoint uuids preserved = some point)
    {j : ℕ} (hpoint : point.pos < j) (hj : j < preserved) : uuids[j]?.getD "" = "" := by
  by_cases hlength : j < uuids.length
  · exact rollbackBelow_last h hpoint (by omega)
  · rw [List.getElem?_eq_none (by omega)]
    rfl

/-- The fork of a plan made from an overlap rewinds to the point of its class. -/
theorem planOverlap_fork {session : BoundSession} {conversation : ConversationView} {overlap : LineageOverlap}
    {id uuid : String} {deltaFrom : ℕ} {carryFrom : Option String}
    (h : planOverlap session conversation overlap = .fork id uuid deltaFrom carryFrom) :
    ∃ point, rollbackPoint session.lineage.assistantUuids overlap.preserved = some point ∧ point.uuid = uuid ∧
      ((overlap.lineage = .undo ∧ deltaFrom = overlap.deltaFrom) ∨
        (overlap.lineage = .rewrite ∧ deltaFrom = point.pos + 1)) := by
  unfold planOverlap at h
  cases hlineage : overlap.lineage with
  | continuation => rw [hlineage] at h; cases h
  | modifiedContinuation => rw [hlineage] at h; cases h
  | compaction => rw [hlineage] at h; cases h
  | replay => rw [hlineage] at h; cases h
  | diverged => rw [hlineage] at h; cases h
  | rewrite =>
    rw [hlineage] at h
    dsimp only at h
    split at h
    · cases h
    · next point hpoint =>
      obtain ⟨-, huuid, hdelta, -⟩ := SessionPlan.fork.inj h
      exact ⟨point, hpoint, huuid, .inr ⟨rfl, hdelta.symm⟩⟩
  | undo =>
    rw [hlineage] at h
    dsimp only at h
    split at h
    · cases h
    · next point hpoint =>
      obtain ⟨-, huuid, hdelta, -⟩ := SessionPlan.fork.inj h
      exact ⟨point, hpoint, huuid, .inl ⟨rfl, hdelta.symm⟩⟩

/-- A resume made from an overlap for a plain continuation starts past the session's own answer. -/
theorem planOverlap_continuation {session : BoundSession} {conversation : ConversationView}
    {overlap : LineageOverlap} {id : String} {deltaFrom : ℕ} {carryFrom : Option String}
    (h : planOverlap session conversation overlap = .resume id .continuation deltaFrom carryFrom) :
    overlap.lineage = .continuation ∧ deltaFrom = pastOwnAnswer conversation overlap.deltaFrom := by
  unfold planOverlap at h
  cases hlineage : overlap.lineage with
  | continuation =>
    rw [hlineage] at h
    obtain ⟨-, -, hdelta, -⟩ := SessionPlan.resume.inj h
    exact ⟨rfl, hdelta.symm⟩
  | modifiedContinuation => rw [hlineage] at h; cases h
  | compaction => rw [hlineage] at h; cases h
  | replay => rw [hlineage] at h; cases h
  | diverged => rw [hlineage] at h; cases h
  | rewrite =>
    rw [hlineage] at h
    dsimp only at h
    split at h <;> cases h
  | undo =>
    rw [hlineage] at h
    dsimp only at h
    split at h <;> cases h

/-- A turn with a session and a conversation starts fresh or is planned from their overlap. -/
theorem resolveLineage_planned (digest : String → String) (input : ResolveLineageInput) {session : BoundSession}
    {conversation : ConversationView} (hsession : input.session = some session)
    (hconversation : input.conversation = some conversation) :
    (∃ reason, resolveLineage digest input = .fresh reason) ∨
      resolveLineage digest input = planOverlap session conversation
        (classifyLineage session.lineage.prefixHashes (hashMessages digest conversation.messages)) := by
  unfold resolveLineage
  rw [hsession, hconversation]
  dsimp only
  split
  · exact .inl ⟨_, rfl⟩
  split
  · exact .inl ⟨_, rfl⟩
  split
  · exact .inl ⟨_, rfl⟩
  split
  · exact .inl ⟨_, rfl⟩
  · exact .inr rfl

end Lineage

section Fork

variable {digest : String → String} {bound : BoundSession} {input : ResolveTurnInput}
  {conversation : ConversationView}

/-- A fork rewinds to the answer of its class, and sends from there on unless it is an undo. -/
theorem candidatePlan_fork (hconversation : input.conversation = some conversation) {id uuid : String}
    {deltaFrom : ℕ} {carryFrom : Option String}
    (h : candidatePlan digest (some bound) input = .fork id uuid deltaFrom carryFrom) :
    let overlap := classifyLineage bound.lineage.prefixHashes (hashMessages digest conversation.messages)
    ∃ point, rewoundTo digest bound conversation = some point ∧ point.uuid = uuid ∧
      ((overlap.lineage = .undo ∧ deltaFrom = overlap.deltaFrom ∧
          rollbackPoint bound.lineage.assistantUuids overlap.preserved = some point) ∨
        (overlap.lineage ≠ .undo ∧ deltaFrom = point.pos + 1)) := by
  intro overlap
  -- The fork of an undo or a rewrite, carried or not.
  have hoverlap {carry : Option String}
      (hplan : planOverlap bound conversation overlap = .fork id uuid deltaFrom carry) :
      ∃ point, rewoundTo digest bound conversation = some point ∧ point.uuid = uuid ∧
        ((overlap.lineage = .undo ∧ deltaFrom = overlap.deltaFrom ∧
            rollbackPoint bound.lineage.assistantUuids overlap.preserved = some point) ∨
          (overlap.lineage ≠ .undo ∧ deltaFrom = point.pos + 1)) := by
    obtain ⟨point, hpoint, huuid, ⟨hlineage, hdelta⟩ | ⟨hlineage, hdelta⟩⟩ := planOverlap_fork hplan
    · refine ⟨point, ?_, huuid, .inl ⟨hlineage, hdelta, hpoint⟩⟩
      simp only [rewoundTo, overlap, hlineage] at hpoint ⊢
      exact hpoint
    · refine ⟨point, ?_, huuid, .inr ⟨by simp [hlineage], hdelta⟩⟩
      simp only [rewoundTo, overlap, hlineage] at hpoint ⊢
      exact hpoint
  unfold candidatePlan at h
  dsimp only at h
  rcases resolveLineage_planned digest { session := some bound, conversation := input.conversation
                                         keySource := input.keySource, clientToolLoop := input.clientToolLoop
                                         forkOrSubagent := input.forkOrSubagent
                                         sessionGone := input.sessionGone, sessionBusy := false }
    rfl hconversation with ⟨reason, hfresh⟩ | hplanned
  · rw [hfresh] at h
    split at h <;> cases h
  · rw [hplanned] at h
    split at h
    · exact hoverlap h
    · next carry hcarry =>
      unfold carriedPlan at h
      split at h
      · next id' delta' carry' hresume =>
        obtain ⟨hlineage, hdelta⟩ := planOverlap_continuation hresume
        split at h
        · next point hpoint =>
          obtain ⟨-, huuid, hsent, -⟩ := SessionPlan.fork.inj h
          refine ⟨point, ?_, huuid, .inr ⟨by simp [overlap, hlineage], hsent.symm⟩⟩
          simp only [rewoundTo, hlineage, hcarry]
          rw [← hdelta]
          exact hpoint
        · rw [hresume] at h
          cases h
      · cases hplan : planOverlap bound conversation overlap with
        | fresh reason => rw [hplan] at h; cases h
        | resume => rw [hplan] at h; cases h
        | fork id' uuid' delta' carry' =>
          rw [hplan] at h
          obtain ⟨rfl, rfl, rfl, -⟩ := SessionPlan.fork.inj h
          exact hoverlap hplan

end Fork

section Lost

variable {messages : List (SdkRequestMessage Content)}

/-- What passes in the rest from one position is found in the rest from another exactly when nothing
in between passes. -/
theorem filter_drop_sublist_iff {Item : Type*} (passes : Item → Bool) (items : List Item) (first second : ℕ) :
    ((items.drop first).filter passes).Sublist ((items.drop second).filter passes) ↔
      ∀ i item, first ≤ i → i < second → items[i]? = some item → passes item = false := by
  rcases Nat.le_total second first with hle | hle
  · refine iff_of_true ((List.drop_sublist_drop_left items hle).filter passes) ?_
    intro i item hfirst hsecond
    omega
  · have hsplit : items.drop first = (items.drop first).take (second - first) ++ items.drop second := by
      conv_lhs => rw [← List.take_append_drop (second - first) (items.drop first)]
      rw [List.drop_drop, Nat.add_sub_cancel' hle]
    rw [hsplit, List.filter_append]
    constructor
    · intro h i item hfirst hsecond hitem
      have hlength := h.length_le
      rw [List.length_append] at hlength
      have hnone : ((items.drop first).take (second - first)).filter passes = [] :=
        List.length_eq_zero_iff.mp (by omega)
      rw [List.filter_eq_nil_iff] at hnone
      have hmem : item ∈ (items.drop first).take (second - first) := by
        refine List.mem_of_getElem? (i := i - first) ?_
        rw [List.getElem?_take_of_lt (by omega), List.getElem?_drop, Nat.add_sub_cancel' hfirst]
        exact hitem
      simpa using hnone item hmem
    · intro h
      have hnone : ((items.drop first).take (second - first)).filter passes = [] := by
        rw [List.filter_eq_nil_iff]
        intro item hmem
        obtain ⟨i, hi⟩ := List.mem_iff_getElem?.mp hmem
        have hbound : i < second - first := by
          by_contra hge
          rw [List.getElem?_eq_none (by rw [List.length_take]; omega)] at hi
          cases hi
        rw [List.getElem?_take_of_lt hbound, List.getElem?_drop] at hi
        simpa using h (first + i) item (by omega) (by omega) hi
      rw [hnone, List.nil_append]

/-- A fork loses nothing behind the position exactly when everything between the position and what it
sends is cleared. -/
theorem nothingLost_fork_iff (id uuid : String) (deltaFrom : ℕ) (carryFrom : Option String) (pos : ℕ) :
    NothingLost messages (.fork id uuid deltaFrom carryFrom) pos ↔
      ∀ (i : ℕ) (message : SdkRequestMessage Content), pos < i → i < min deltaFrom (messages.length - 1) →
        messages[i]? = some message → message.cleared = true := by
  rw [NothingLost, sentMessages, messagesToSend_fork, filter_drop_sublist_iff]
  simp only [Bool.not_eq_false', Nat.succ_le_iff]

/-- An undo loses nothing behind the answer it rewinds to exactly when it drops no message. -/
theorem undo_nothing_lost_iff {stored incoming uuids : List String} {point : RollbackPoint}
    {id uuid : String} {carryFrom : Option String} (hlength : messages.length = incoming.length)
    (hlineage : (classifyLineage stored incoming).lineage = .undo)
    (hpoint : rollbackPoint uuids (classifyLineage stored incoming).preserved = some point) :
    NothingLost messages (.fork id uuid (classifyLineage stored incoming).deltaFrom carryFrom) point.pos ↔
      ¬ UndoDrops stored incoming uuids messages := by
  have hplaced := classifyLineage_placed stored incoming
  rw [LineageOverlap.Placed, hlineage] at hplaced
  obtain ⟨hdelta, hpreserved, -⟩ := hplaced
  have hincoming : incoming ≠ [] := by
    rintro rfl
    simp [classifyLineage] at hlineage
  obtain ⟨hinitial, hshorter⟩ := (classifyLineage_undo_iff hincoming).mp hlineage
  obtain ⟨hpos, hne, hnamed⟩ := rollbackPoint_named hpoint
  rw [hpreserved] at hpos hpoint
  rw [nothingLost_fork_iff, hdelta, hlength]
  constructor
  · rintro hcleared ⟨-, -, i, message, hget, hshown, hi, hunnamed⟩
    by_cases hbehind : point.pos < i
    · have hgone := hcleared i message hbehind (by omega) hget
      rw [hshown] at hgone
      cases hgone
    · -- The answer the fork rewinds to is recorded at or behind the message.
      have hempty := hunnamed point.pos (by omega) (by omega)
      rw [hnamed] at hempty
      exact hne hempty
  · intro hkept i message hbehind hi hget
    by_contra hshown
    refine hkept ⟨hinitial, hshorter, i, message, hget, by simpa using hshown, by omega, fun j hij hj => ?_⟩
    exact rollbackPoint_last hpoint (by omega) (by omega)

end Lost

section Prompt

@[simp] theorem length_readMessages (messages : List (RequestMessage Content)) :
    (readMessages messages).length = messages.length := by
  simp [readMessages]

/-- A turn planned as a fork, its own or carried in, rewinds to an answer recorded at some position, and sends every
message behind it that is not cleared, exactly when the conversation is not an undo that drops one. What is not lost
stands, in order, in the prompt. -/
theorem fork_nothing_lost_iff {Attachment : Type*} (blocksOf : Content → List (PromptBlock Attachment))
    (digest : String → String) (reader : ContentReader Content) (bound : BoundSession) (input : ResolveTurnInput)
    (messages : List (RequestMessage Content)) {id uuid : String} {deltaFrom : ℕ} {carryFrom : Option String}
    (hfork : candidatePlan digest (some bound)
      { input with conversation := some (readConversation reader messages) } = .fork id uuid deltaFrom carryFrom) :
    ∃ point, rewoundTo digest bound (readConversation reader messages) = some point ∧ point.uuid = uuid ∧
      bound.lineage.assistantUuids[point.pos]? = some uuid ∧
      (NothingLost (readMessages messages) (.fork id uuid deltaFrom carryFrom) point.pos ↔
        ¬ UndoDrops bound.lineage.prefixHashes (hashMessages digest (readConversation reader messages).messages)
          bound.lineage.assistantUuids (readMessages messages)) ∧
      (NothingLost (readMessages messages) (.fork id uuid deltaFrom carryFrom) point.pos →
        ((((readMessages messages).drop (point.pos + 1)).filter fun message => !message.cleared).flatMap
            fun message => blocksOf message.content).Sublist
          (buildSdkPrompt blocksOf (readMessages messages) (.fork id uuid deltaFrom carryFrom))) := by
  have hdigested : (hashMessages digest (readConversation reader messages).messages).length = messages.length := by
    simp [hashMessages, readConversation]
  obtain ⟨point, hrewound, huuid, hsent⟩ := candidatePlan_fork rfl hfork
  have hpoint : ∃ preserved, rollbackPoint bound.lineage.assistantUuids preserved = some point := by
    unfold rewoundTo at hrewound
    dsimp only at hrewound
    split at hrewound
    · exact ⟨_, hrewound⟩
    · exact ⟨_, hrewound⟩
    · split at hrewound
      · exact ⟨_, hrewound⟩
      · cases hrewound
    · cases hrewound
  obtain ⟨preserved, hpreserved⟩ := hpoint
  obtain ⟨-, -, hnamed⟩ := rollbackPoint_named hpreserved
  refine ⟨point, hrewound, huuid, huuid ▸ hnamed, ?_, fun hkept => ?_⟩
  · rcases hsent with ⟨hlineage, rfl, hrollback⟩ | ⟨hlineage, rfl⟩
    · exact undo_nothing_lost_iff (by rw [length_readMessages, hdigested]) hlineage hrollback
    · -- A rewrite and a carried continuation send from the message behind the answer on.
      refine iff_of_true ?_ ?_
      · rw [nothingLost_fork_iff]
        intro i message hpos hi
        omega
      · rintro ⟨hinitial, hlength, i, message, -, -, hi, -⟩
        rw [length_readMessages] at hi
        refine hlineage ((classifyLineage_undo_iff ?_).mpr ⟨hinitial, hlength⟩)
        exact List.ne_nil_of_length_pos (by omega)
  · exact (hkept.flatMap _).trans (flatMap_sublist_buildSdkPrompt blocksOf _ _)

/-- A session carried in from another account continues from its last answer; the messages behind that
answer are sent. -/
theorem fork_nothing_lost_carried :
    candidatePlan id (some ⟨"session", ⟨["user\x00one"], ["", "first"]⟩, some "other"⟩)
        { accountId := "account", keySource := .header, clientToolLoop := false, forkOrSubagent := false
          sessionGone := false
          conversation := some (readConversation ⟨id, fun _ => false⟩
            [⟨.user, "one", none⟩, ⟨.assistant, "two", none⟩, ⟨.user, "three", none⟩]) } =
      .fork "session" "first" 2 (some "other") ∧
    NothingLost (readMessages [⟨.user, "one", none⟩, ⟨.assistant, "two", none⟩, ⟨.user, "three", none⟩])
      (.fork "session" "first" 2 (some "other")) 1 := by
  have hfork : candidatePlan id (some ⟨"session", ⟨["user\x00one"], ["", "first"]⟩, some "other"⟩)
      { accountId := "account", keySource := .header, clientToolLoop := false, forkOrSubagent := false
        sessionGone := false
        conversation := some (readConversation ⟨id, fun _ => false⟩
          [⟨.user, "one", none⟩, ⟨.assistant, "two", none⟩, ⟨.user, "three", none⟩]) } =
      .fork "session" "first" 2 (some "other") := by decide +kernel
  refine ⟨hfork, ?_⟩
  obtain ⟨point, hpoint, -, -, hkept, -⟩ := fork_nothing_lost_iff (fun text : String =>
    ([.text text] : List (PromptBlock Empty))) id ⟨id, fun _ => false⟩ _
    { accountId := "account", keySource := .header, clientToolLoop := false, forkOrSubagent := false
      sessionGone := false, conversation := none } _ hfork
  obtain rfl : (⟨"first", 1⟩ : RollbackPoint) = point := Option.some.inj (by rw [← hpoint]; decide +kernel)
  refine hkept.mpr ?_
  rintro ⟨-, hshorter, -⟩
  exact absurd hshorter (by decide +kernel)

/-- An undo down to a reminder behind a user's message: the reminder alone is sent. -/
theorem fork_loses_user_message :
    candidatePlan id (some ⟨"session", ⟨["user\x00one", "assistant\x00two", "user\x00three",
          "system\x00note", "assistant\x00four", "user\x00five"], ["", "first", "", "", "second", "", "third"]⟩,
          none⟩)
        { accountId := "account", keySource := .header, clientToolLoop := false, forkOrSubagent := false
          sessionGone := false
          conversation := some (readConversation ⟨id, fun _ => false⟩
            [⟨.user, "one", none⟩, ⟨.assistant, "two", none⟩, ⟨.user, "three", none⟩,
              ⟨.system, "note", none⟩]) } =
      .fork "session" "first" 4 none ∧
    rewoundTo id ⟨"session", ⟨["user\x00one", "assistant\x00two", "user\x00three", "system\x00note",
          "assistant\x00four", "user\x00five"], ["", "first", "", "", "second", "", "third"]⟩, none⟩
        (readConversation ⟨id, fun _ => false⟩ [⟨.user, "one", none⟩, ⟨.assistant, "two", none⟩,
          ⟨.user, "three", none⟩, ⟨.system, "note", none⟩]) = some ⟨"first", 1⟩ ∧
    sentMessages (readMessages [⟨.user, "one", none⟩, ⟨.assistant, "two", none⟩, ⟨.user, "three", none⟩,
        ⟨.system, "note", none⟩]) (.fork "session" "first" 4 none) = [⟨.system, "note", false⟩] ∧
    ¬ NothingLost (readMessages [⟨.user, "one", none⟩, ⟨.assistant, "two", none⟩, ⟨.user, "three", none⟩,
        ⟨.system, "note", none⟩]) (.fork "session" "first" 4 none) 1 := by
  refine ⟨by decide +kernel, by decide +kernel, by decide +kernel, ?_⟩
  rw [nothingLost_fork_iff]
  intro hcleared
  exact absurd (hcleared 2 ⟨.user, "three", false⟩ (by decide) (by decide) (by decide +kernel)) (by decide)

end Prompt

end MultiAiRouter.ClaudeSdk
