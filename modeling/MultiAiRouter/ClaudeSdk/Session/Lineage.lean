import Mathlib.Data.List.Basic

/-!
# How an incoming conversation descends from the stored one

A session stores one hash for each message its SDK session has seen. The incoming conversation is
compared hash by hash and falls into one of seven classes, each with the first message the session
has not seen and the number of stored messages that survive.
-/

namespace MultiAiRouter.ClaudeSdk

/-- How a message is spoken for in the lineage view. -/
inductive LineageRole where
  | user
  | assistant
  | system
  deriving DecidableEq

/-- A message of the lineage view: its role and the rendering that is hashed. -/
structure LineageMessage where
  role : LineageRole
  normalized : String
  deriving DecidableEq

/-- The lineage view of a request: its messages, and whether its last block is a tool result. -/
structure ConversationView where
  messages : List LineageMessage
  endsWithToolResult : Bool
  deriving DecidableEq

/-- The seven relations of an incoming conversation to the stored one. -/
inductive LineageClass where
  | continuation
  | modifiedContinuation
  | rewrite
  | compaction
  | undo
  | diverged
  | replay
  deriving DecidableEq

/-- The class, the first incoming message the session has not seen, and the surviving messages. -/
structure LineageOverlap where
  lineage : LineageClass
  deltaFrom : ℕ
  preserved : ℕ
  deriving DecidableEq

/-- What is stored beside a session id: a hash for each message, and the SDK's names of its answers. -/
structure SessionLineageState where
  prefixHashes : List String
  assistantUuids : List String
  deriving DecidableEq

/-- One hash for each message, in order, by the digest given. -/
def hashMessages (digest : String → String) (messages : List LineageMessage) : List String :=
  messages.map fun message => digest message.normalized

/-- The number of leading messages the two conversations share. -/
def commonPrefix : List String → List String → ℕ
  | s :: stored, i :: incoming => if s = i then commonPrefix stored incoming + 1 else 0
  | _, _ => 0

/-- `length` hashes from `start` of the stored side equal those from `pos` of the incoming side. -/
def segmentsMatch (stored : List String) (start : ℕ) (incoming : List String) (pos length : ℕ) : Bool :=
  (List.range length).all fun i => stored[start + i]? == incoming[pos + i]?

/-- The shortest stored suffix a compaction is recognised by. -/
def minCompactionOverlap : ℕ := 2

/-- Where a stored suffix ends in the incoming conversation, and its length. -/
structure StoredSuffix where
  stop : ℕ
  length : ℕ
  deriving DecidableEq

/-- The first position after 0 where the stored suffix of this length reappears. -/
def findSuffixOfLength (stored incoming : List String) (length : ℕ) : Option ℕ :=
  (List.range' 1 (incoming.length - length)).find? fun pos =>
    segmentsMatch stored (stored.length - length) incoming pos length

/-- Try the suffix lengths from `length` down to the shortest allowed. -/
def findSuffixFrom (stored incoming : List String) : ℕ → Option StoredSuffix
  | 0 => none
  | length + 1 =>
    if length + 1 < minCompactionOverlap then none
    else match findSuffixOfLength stored incoming (length + 1) with
      | some pos => some { stop := pos + (length + 1), length := length + 1 }
      | none => findSuffixFrom stored incoming length

/-- The longest stored suffix that reappears in the incoming conversation after position 0. -/
def findStoredSuffix (stored incoming : List String) : Option StoredSuffix :=
  findSuffixFrom stored incoming (min stored.length (incoming.length - 1))

/-- A compaction when a stored suffix reappears, else the caller's verdict. -/
def compactionOr (fallback : LineageClass) (stored incoming : List String) (matched : ℕ) :
    LineageOverlap :=
  match findStoredSuffix stored incoming with
  | none => { lineage := fallback, deltaFrom := 0, preserved := matched }
  | some found => { lineage := .compaction, deltaFrom := found.stop, preserved := found.length }

/-- The messages that must survive in front, `Math.ceil(length * 0.6)`. -/
def modifiedPrefixMin (length : ℕ) : ℕ := (3 * length + 4) / 5

/-- The class of an incoming conversation against the stored one. -/
def classifyLineage (stored incoming : List String) : LineageOverlap :=
  if stored.length = 0 ∨ incoming.length = 0 then
    { lineage := .diverged, deltaFrom := 0, preserved := 0 }
  else
    let matched := commonPrefix stored incoming
    if incoming.length = stored.length ∧ matched = stored.length then
      { lineage := .replay, deltaFrom := 0, preserved := matched }
    else if stored.length < incoming.length ∧ matched = stored.length then
      { lineage := .continuation, deltaFrom := stored.length, preserved := matched }
    else if incoming.length ≤ stored.length ∧ matched = incoming.length then
      { lineage := .undo, deltaFrom := incoming.length, preserved := matched }
    else if modifiedPrefixMin stored.length ≤ matched then
      -- The stored tail still sits where it was, or it was replaced.
      if stored.length < incoming.length ∧ incoming[stored.length - 1]? = stored[stored.length - 1]? then
        { lineage := .modifiedContinuation, deltaFrom := stored.length, preserved := matched }
      else { lineage := .rewrite, deltaFrom := matched, preserved := matched }
    else compactionOr .diverged stored incoming matched

/-- The state to store: the turn's own uuid stands one past the end of its messages. -/
def nextLineage (hashes carried : List String) (assistantUuid : Option String) : SessionLineageState where
  prefixHashes := hashes
  assistantUuids :=
    let kept := carried.take hashes.length
    kept ++ List.replicate (hashes.length - kept.length) "" ++ [assistantUuid.getD ""]

section Overlap

variable {stored incoming : List String}

/-- The common prefix is no longer than what is stored. -/
theorem commonPrefix_le_left : ∀ stored incoming : List String, commonPrefix stored incoming ≤ stored.length
  | [], _ => by simp [commonPrefix]
  | _ :: _, [] => by simp [commonPrefix]
  | s :: stored, i :: incoming => by
    have ih := commonPrefix_le_left stored incoming
    rw [commonPrefix]
    split
    · simpa using ih
    · simp

/-- Nor than what comes in. -/
theorem commonPrefix_le_right : ∀ stored incoming : List String, commonPrefix stored incoming ≤ incoming.length
  | [], _ => by simp [commonPrefix]
  | _ :: _, [] => by simp [commonPrefix]
  | s :: stored, i :: incoming => by
    have ih := commonPrefix_le_right stored incoming
    rw [commonPrefix]
    split
    · simpa using ih
    · simp

/-- A suffix found lies after position 0, within both conversations. -/
theorem findSuffixFrom_bounds {length : ℕ} {found : StoredSuffix}
    (h : findSuffixFrom stored incoming length = some found) :
    found.length ≤ length ∧ found.length < found.stop ∧ found.stop ≤ incoming.length := by
  induction length with
  | zero => simp [findSuffixFrom] at h
  | succ length ih =>
    rw [findSuffixFrom] at h
    split at h
    · simp at h
    · split at h
      · next pos hpos =>
        have hmem := List.mem_of_find?_eq_some hpos
        rw [List.mem_range'_1] at hmem
        obtain rfl := Option.some.inj h
        dsimp only
        omega
      · have hbounds := ih h
        omega

/-- A suffix found is no longer than the stored conversation. -/
theorem findStoredSuffix_bounds {found : StoredSuffix} (h : findStoredSuffix stored incoming = some found) :
    found.length ≤ stored.length ∧ found.length < found.stop ∧ found.stop ≤ incoming.length := by
  have hbounds := findSuffixFrom_bounds h
  omega

/-- What the class says of the two lengths, the surviving messages and the first unseen one. -/
def LineageOverlap.Placed (overlap : LineageOverlap) (stored incoming : ℕ) : Prop :=
  match overlap.lineage with
  | .continuation => stored < incoming ∧ overlap.deltaFrom = stored ∧ overlap.preserved = stored
  | .modifiedContinuation => stored < incoming ∧ overlap.deltaFrom = stored ∧ overlap.preserved ≤ stored
  | .rewrite => overlap.deltaFrom = overlap.preserved ∧ overlap.preserved ≤ stored ∧
      overlap.preserved ≤ incoming
  | .undo => overlap.deltaFrom = incoming ∧ overlap.preserved = incoming ∧ incoming ≤ stored
  | .compaction => overlap.preserved ≤ stored ∧ overlap.preserved < overlap.deltaFrom ∧
      overlap.deltaFrom ≤ incoming
  | .diverged | .replay => True

/-- Every classification places its overlap as its class says. -/
theorem classifyLineage_placed (stored incoming : List String) :
    (classifyLineage stored incoming).Placed stored.length incoming.length := by
  have hleft := commonPrefix_le_left stored incoming
  have hright := commonPrefix_le_right stored incoming
  unfold classifyLineage
  split
  · trivial
  dsimp only
  split
  · trivial
  split
  · next h => exact ⟨h.1, rfl, h.2⟩
  split
  · next h => exact ⟨rfl, h.2, h.1⟩
  split
  · split
    · next h => exact ⟨h.1, rfl, hleft⟩
    · exact ⟨rfl, hleft, hright⟩
  unfold compactionOr
  split
  · trivial
  · next found hfound => exact findStoredSuffix_bounds hfound

end Overlap

section NextLineage

variable {hashes carried : List String} {assistantUuid : Option String}

/-- A stored state names one answer position for each message, and one past the end. -/
@[simp] theorem nextLineage_uuids_length :
    (nextLineage hashes carried assistantUuid).assistantUuids.length = hashes.length + 1 := by
  simp only [nextLineage, List.length_append, List.length_take, List.length_replicate, List.length_singleton]
  omega

/-- A name in the new state was carried at its position, or is the turn's own, one past the end. -/
theorem nextLineage_uuid {i : ℕ} {uuid : String} (hne : uuid ≠ "")
    (h : (nextLineage hashes carried assistantUuid).assistantUuids[i]? = some uuid) :
    (i < hashes.length ∧ carried[i]? = some uuid) ∨ (i = hashes.length ∧ assistantUuid = some uuid) := by
  have hlength : i < hashes.length + 1 := by
    have hi := (List.getElem?_eq_some_iff.mp h).1
    rwa [nextLineage_uuids_length] at hi
  have hfull : (carried.take hashes.length ++
      List.replicate (hashes.length - (carried.take hashes.length).length) "").length = hashes.length := by
    simp only [List.length_append, List.length_take, List.length_replicate]
    omega
  simp only [nextLineage] at h
  rcases Nat.lt_succ_iff_lt_or_eq.mp hlength with hi | rfl
  · left
    refine ⟨hi, ?_⟩
    rw [List.getElem?_append_left (by omega)] at h
    by_cases hkept : i < (carried.take hashes.length).length
    · rw [List.getElem?_append_left hkept, List.getElem?_take_of_lt hi] at h
      exact h
    · rw [List.getElem?_append_right (by omega), List.getElem?_replicate] at h
      split at h
      · exact absurd (Option.some.inj h).symm hne
      · simp at h
  · right
    rw [List.getElem?_append_right (Nat.le_of_eq hfull), hfull, Nat.sub_self] at h
    cases assistantUuid with
    | none => simp at h; exact absurd h hne
    | some own => simp at h; exact ⟨rfl, by rw [h]⟩

end NextLineage

end MultiAiRouter.ClaudeSdk
