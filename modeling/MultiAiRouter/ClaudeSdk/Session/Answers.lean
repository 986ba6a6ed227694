import MultiAiRouter.Common.Run
import MultiAiRouter.ClaudeSdk.Session.Plan

/-!
# Recorded answers and the positions they are recorded at

A stored state names, at position `i`, the SDK's answer to the first `i` messages of its conversation. Over runs,
every message gets an identity, and every stored position the history in front of it: in place for a continuation,
up to the surviving prefix for a rewrite or an undo, and at their new positions for a compaction. Each answer is
logged with the history it was given to.

Which stored state a turn finds is left open.
-/

namespace MultiAiRouter.ClaudeSdk

open Common

/-- The identity of a message. -/
abbrev MessageId := ℕ

/-- The messages in front of a position. -/
abbrev History := List MessageId

/-- An answer of the SDK and the history it was given to. -/
structure Answer where
  uuid : String
  after : History
  deriving DecidableEq

/-- A stored binding and, for each position of its conversation, the history in front of it. -/
structure StoredState where
  entry : SessionEntry
  histories : List History
  deriving DecidableEq

/-- Everything stored so far, every answer given, and the first identity not yet used. -/
structure Sessions where
  stored : List StoredState
  answers : List Answer
  nextId : MessageId
  deriving DecidableEq

/-- No turn has run. -/
def Sessions.start : Sessions := { stored := [], answers := [], nextId := 0 }

/-- A block of stored messages that survives: where it stood, where it stands now, and its length. -/
structure KeptBlock where
  origin : ℕ
  start : ℕ
  count : ℕ
  deriving DecidableEq

/-- The stored messages that survive into the incoming conversation, by its class. -/
def LineageOverlap.kept (overlap : LineageOverlap) (stored : ℕ) : KeptBlock :=
  match overlap.lineage with
  | .continuation | .modifiedContinuation => { origin := 0, start := 0, count := stored }
  | .rewrite | .undo | .replay => { origin := 0, start := 0, count := overlap.preserved }
  | .compaction =>
    { origin := stored - overlap.preserved, start := overlap.deltaFrom - overlap.preserved
      count := overlap.preserved }
  | .diverged => { origin := 0, start := 0, count := 0 }

/-- Fresh identities for the messages from one position up to another. -/
def freshMessages (nextId : MessageId) (first last : ℕ) : History :=
  (List.range' first (last - first)).map (nextId + ·)

/-- The history in front of a position of the incoming conversation: the stored one where the block
survives, and fresh messages elsewhere. -/
def historyBefore (old : List History) (kept : KeptBlock) (nextId : MessageId) (pos : ℕ) : History :=
  if pos < kept.start then freshMessages nextId 0 pos
  else if pos ≤ kept.start + kept.count then old.getD (kept.origin + (pos - kept.start)) []
  else old.getD (kept.origin + kept.count) [] ++ freshMessages nextId (kept.start + kept.count) pos

/-- The histories of an incoming conversation against the stored state it found. -/
def incomingHistories (found : Option StoredState) (hashes : List String) (nextId : MessageId) :
    List History :=
  (List.range (hashes.length + 1)).map fun pos =>
    match found with
    | none => freshMessages nextId 0 pos
    | some state =>
      historyBefore state.histories
        ((classifyLineage state.entry.lineage.prefixHashes hashes).kept
          state.entry.lineage.prefixHashes.length) nextId pos

/-- What the SDK reports to a running turn, and whether the turn's lease and claim let it be written. -/
structure TurnReport where
  sdkSessionId : String
  assistantUuid : Option String
  accepted : Bool
  deriving DecidableEq

/-- A turn: the stored state it finds, what it brings, whether its claim is granted and its transcript
carried, and what the SDK reports. -/
structure Turn where
  found : Option ℕ
  input : ResolveTurnInput
  claimed : Bool
  moved : Bool
  reports : List TurnReport
  deriving DecidableEq

/-- The stored state the turn finds. -/
def Sessions.find (sessions : Sessions) (turn : Turn) : Option StoredState :=
  turn.found.bind fun k => sessions.stored[k]?

/-- The binding the turn finds, as its account sees it. -/
def Sessions.bound (sessions : Sessions) (turn : Turn) : Option BoundSession :=
  (sessions.find turn).map fun state => state.entry.boundOn turn.input.accountId

/-- One report: the answer it names is logged, and the binding is stored where that is allowed. -/
def Sessions.report (held : HeldTurn) (histories : List History) (sessions : Sessions)
    (report : TurnReport) : Sessions where
  answers := sessions.answers ++
    (report.assistantUuid.map fun uuid => { uuid, after := histories.getLastD [] }).toList
  stored :=
    if report.accepted then
      sessions.stored ++ [{ entry := held.remember report.sdkSessionId report.assistantUuid, histories }]
    else sessions.stored
  nextId := sessions.nextId

/-- One turn: it is planned, its transcript carried, and each report is taken in. -/
def stepTurn (digest : String → String) (sessions : Sessions) (turn : Turn) : Sessions :=
  match resolveTurn digest (sessions.bound turn) turn.input turn.claimed with
  | .unrecorded _ => sessions
  | .held held =>
    let histories := incomingHistories (sessions.find turn) held.hashes sessions.nextId
    runFrom (Sessions.report (held.prepare turn.moved) histories)
      { sessions with nextId := sessions.nextId + held.hashes.length } turn.reports

/-- The uuid names an answer given to exactly the history in front of the position. -/
def NamesAnswer (answers : List Answer) (histories : List History) (pos : ℕ) (uuid : String) : Prop :=
  ∃ answer ∈ answers, answer.uuid = uuid ∧ histories[pos]? = some answer.after

instance (answers : List Answer) (histories : List History) (pos : ℕ) (uuid : String) :
    Decidable (NamesAnswer answers histories pos uuid) :=
  inferInstanceAs (Decidable (∃ answer ∈ answers, answer.uuid = uuid ∧ histories[pos]? = some answer.after))

/-- A stored state is in order: one history and one uuid for each position, and every recorded uuid
names the answer given at its position. -/
structure StoredState.Aligned (state : StoredState) (answers : List Answer) : Prop where
  histories_length : state.histories.length = state.entry.lineage.prefixHashes.length + 1
  uuids_length : state.entry.lineage.assistantUuids.length = state.entry.lineage.prefixHashes.length + 1
  names : ∀ pos uuid, uuid ≠ "" → state.entry.lineage.assistantUuids[pos]? = some uuid →
    NamesAnswer answers state.histories pos uuid

/-- A compaction keeps the place of every recorded answer it carries on: it stands among the
surviving messages, and they where they stood. -/
def KeepsPlaces (lineage : SessionLineageState) (hashes : List String) : Prop :=
  let overlap := classifyLineage lineage.prefixHashes hashes
  ∀ pos < hashes.length, ∀ uuid ∈ lineage.assistantUuids[pos]?, uuid ≠ "" →
    overlap.deltaFrom = lineage.prefixHashes.length ∧ overlap.deltaFrom - overlap.preserved ≤ pos

instance (lineage : SessionLineageState) (hashes : List String) : Decidable (KeepsPlaces lineage hashes) :=
  inferInstanceAs (Decidable (∀ pos < hashes.length, ∀ uuid ∈ lineage.assistantUuids[pos]?, uuid ≠ "" →
    (classifyLineage lineage.prefixHashes hashes).deltaFrom = lineage.prefixHashes.length ∧
      (classifyLineage lineage.prefixHashes hashes).deltaFrom -
        (classifyLineage lineage.prefixHashes hashes).preserved ≤ pos))

/-- The turn resumes its session after a compaction and is recorded. -/
def recordsCompaction (digest : String → String) (sessions : Sessions) (turn : Turn) : Bool :=
  match resolveTurn digest (sessions.bound turn) turn.input turn.claimed with
  | .unrecorded _ => false
  | .held held =>
    match (held.prepare turn.moved).plan with
    | .resume _ .compaction _ _ => turn.reports.any TurnReport.accepted
    | _ => false

/-- A turn recorded after a compaction keeps the places of the answers in the state it finds. -/
def TurnKeepsPlaces (digest : String → String) (sessions : Sessions) (turn : Turn) : Prop :=
  recordsCompaction digest sessions turn → ∀ state ∈ sessions.find turn, ∀ conversation ∈ turn.input.conversation,
      KeepsPlaces state.entry.lineage (hashMessages digest conversation.messages)

instance (digest : String → String) (sessions : Sessions) (turn : Turn) :
    Decidable (TurnKeepsPlaces digest sessions turn) :=
  inferInstanceAs (Decidable (recordsCompaction digest sessions turn → ∀ state ∈ sessions.find turn,
    ∀ conversation ∈ turn.input.conversation,
      KeepsPlaces state.entry.lineage (hashMessages digest conversation.messages)))

section Histories

variable {answers : List Answer} {found : Option StoredState} {hashes : List String} {nextId : MessageId}

/-- More answers leave a name what it was. -/
theorem NamesAnswer.mono {histories : List History} {pos : ℕ} {uuid : String} {more : List Answer}
    (h : NamesAnswer answers histories pos uuid) (hmore : answers ⊆ more) :
    NamesAnswer more histories pos uuid := by
  obtain ⟨answer, hmem, hnamed⟩ := h
  exact ⟨answer, hmore hmem, hnamed⟩

/-- More answers leave a stored state in order. -/
theorem StoredState.Aligned.mono {state : StoredState} {more : List Answer}
    (h : state.Aligned answers) (hmore : answers ⊆ more) : state.Aligned more where
  histories_length := h.histories_length
  uuids_length := h.uuids_length
  names pos uuid hne huuid := (h.names pos uuid hne huuid).mono hmore

@[simp] theorem incomingHistories_length : (incomingHistories found hashes nextId).length = hashes.length + 1 := by
  simp [incomingHistories]

/-- The turn's own answer is given to the history in front of the position one past the end. -/
theorem incomingHistories_getLastD : (incomingHistories found hashes nextId)[hashes.length]? =
      some ((incomingHistories found hashes nextId).getLastD []) := by
  rw [List.getLastD_eq_getLast?, List.getLast?_eq_getElem?, incomingHistories_length,
    Nat.add_sub_cancel, List.getElem?_eq_getElem (by simp)]
  rfl

/-- Where the surviving block stands at its old place, the history in front is the stored one. -/
theorem incomingHistories_kept {state : StoredState} {pos : ℕ} (hpos : pos ≤ hashes.length)
    (hbound : pos < state.histories.length)
    (hkept : (classifyLineage state.entry.lineage.prefixHashes hashes).kept
      state.entry.lineage.prefixHashes.length = { origin, start := origin, count })
    (hstart : origin ≤ pos) (hstop : pos ≤ origin + count) :
    (incomingHistories (some state) hashes nextId)[pos]? = state.histories[pos]? := by
  have hrange : (List.range (hashes.length + 1))[pos]? = some pos :=
    List.getElem?_range (by omega)
  have hplace : origin + (pos - origin) = pos := by omega
  rw [incomingHistories, List.getElem?_map, hrange, Option.map_some]
  dsimp only
  rw [hkept]
  dsimp only [historyBefore]
  rw [if_neg (by omega), if_pos hstop, hplace, List.getD_eq_getElem?_getD,
    List.getElem?_eq_getElem hbound]
  rfl

/-- A name that keeps its place names the same answer in the incoming conversation. -/
theorem NamesAnswer.incoming {state : StoredState} {pos : ℕ} {uuid : String}
    (h : NamesAnswer answers state.histories pos uuid) (hpos : pos ≤ hashes.length)
    (hkept : (classifyLineage state.entry.lineage.prefixHashes hashes).kept
      state.entry.lineage.prefixHashes.length = { origin, start := origin, count })
    (hstart : origin ≤ pos) (hstop : pos ≤ origin + count) :
    NamesAnswer answers (incomingHistories (some state) hashes nextId) pos uuid := by
  obtain ⟨answer, hmem, hname, hafter⟩ := h
  have hbound : pos < state.histories.length := (List.getElem?_eq_some_iff.mp hafter).1
  exact ⟨answer, hmem, hname, by rw [incomingHistories_kept hpos hbound hkept hstart hstop, hafter]⟩

end Histories

section Turns

variable {answers : List Answer} {state : StoredState} {hashes : List String} {nextId : MessageId}

/-- A fork carries on only names that keep their places. -/
theorem fork_names (hstate : state.Aligned answers) {sdkSessionId resumeSessionAt : String} {deltaFrom : ℕ}
    {carryFrom : Option String}
    (hplan : PlannedFrom state.entry.lineage.assistantUuids state.entry.lineage.prefixHashes.length
      (classifyLineage state.entry.lineage.prefixHashes hashes)
      (.fork sdkSessionId resumeSessionAt deltaFrom carryFrom))
    {pos : ℕ} {uuid : String} (hpos : pos < deltaFrom) (hne : uuid ≠ "")
    (huuid : state.entry.lineage.assistantUuids[pos]? = some uuid) :
    NamesAnswer answers (incomingHistories (some state) hashes nextId) pos uuid := by
  have hplaced := classifyLineage_placed state.entry.lineage.prefixHashes hashes
  have hnames := hstate.names pos uuid hne huuid
  rw [LineageOverlap.Placed] at hplaced
  obtain ⟨-, -, ⟨hclass, hdelta⟩ | ⟨hclass | hclass, hdelta⟩⟩ := hplan
  · rw [hclass] at hplaced
    refine hnames.incoming (by omega) (by rw [LineageOverlap.kept, hclass]) (Nat.zero_le _) ?_
    omega
  · rw [hclass] at hplaced
    refine hnames.incoming (by omega) (by rw [LineageOverlap.kept, hclass]) (Nat.zero_le _) ?_
    omega
  · rw [hclass] at hplaced
    refine hnames.incoming (by omega) (by rw [LineageOverlap.kept, hclass]) (Nat.zero_le _) ?_
    omega

/-- A resume carries on only names that keep their places, if a compaction does. -/
theorem resume_names (hstate : state.Aligned answers) {sdkSessionId : String} {lineage : LineageClass}
    {deltaFrom : ℕ} {carryFrom : Option String}
    (hplan : PlannedFrom state.entry.lineage.assistantUuids state.entry.lineage.prefixHashes.length
      (classifyLineage state.entry.lineage.prefixHashes hashes)
      (.resume sdkSessionId lineage deltaFrom carryFrom))
    (hplaces : lineage = .compaction → KeepsPlaces state.entry.lineage hashes)
    {pos : ℕ} {uuid : String} (hpos : pos < hashes.length) (hne : uuid ≠ "")
    (huuid : state.entry.lineage.assistantUuids[pos]? = some uuid) :
    NamesAnswer answers (incomingHistories (some state) hashes nextId) pos uuid := by
  have hplaced := classifyLineage_placed state.entry.lineage.prefixHashes hashes
  have hnames := hstate.names pos uuid hne huuid
  have hbound : pos < state.entry.lineage.prefixHashes.length + 1 := by
    have hlength := (List.getElem?_eq_some_iff.mp huuid).1
    rwa [hstate.uuids_length] at hlength
  rw [LineageOverlap.Placed] at hplaced
  obtain ⟨hsame, hclass | hclass | hclass⟩ := hplan
  · refine hnames.incoming (Nat.le_of_lt hpos) (by rw [LineageOverlap.kept, ← hsame, hclass]) (Nat.zero_le _) ?_
    omega
  · refine hnames.incoming (Nat.le_of_lt hpos) (by rw [LineageOverlap.kept, ← hsame, hclass]) (Nat.zero_le _) ?_
    omega
  · -- The surviving suffix has not moved, so it is a block that stands where it stood.
    obtain ⟨hdelta, hstart⟩ := hplaces hclass pos hpos uuid huuid hne
    rw [← hsame, hclass] at hplaced
    have hkept : (classifyLineage state.entry.lineage.prefixHashes hashes).kept
        state.entry.lineage.prefixHashes.length =
        { origin := state.entry.lineage.prefixHashes.length -
            (classifyLineage state.entry.lineage.prefixHashes hashes).preserved
          start := state.entry.lineage.prefixHashes.length -
            (classifyLineage state.entry.lineage.prefixHashes hashes).preserved
          count := (classifyLineage state.entry.lineage.prefixHashes hashes).preserved } := by
      rw [LineageOverlap.kept, ← hsame, hclass]
      dsimp only
      rw [hdelta]
    refine hnames.incoming (Nat.le_of_lt hpos) hkept ?_ ?_
    · omega
    · omega

end Turns

end MultiAiRouter.ClaudeSdk
