import MultiAiRouter.Common.GroupTotals
import MultiAiRouter.Translate.Snapshots.Identity

/-!
# Final snapshots as the suffix they add

`createResponsesSnapshotRecovery`: text, refusals and arguments come in deltas and are then stated once more as a
whole. The stage remembers of each part how much of it went downstream and a digest of that; a whole text that goes
on from there becomes a delta with the rest of it, any other is an error, as is a delta behind the whole.
-/

namespace MultiAiRouter.Translate.Snapshots

open Common Translate.Anthropic

variable {Hash Digest : Type}

/-- A hash that takes its input in pieces. -/
structure RollingHash (Hash Digest : Type) where
  createHash : Hash
  update : Hash → Units → Hash
  digest : Hash → Digest

/-- Pieces add up, and no two inputs have the same digest. -/
structure RollingHash.CollisionFree (hash : RollingHash Hash Digest) : Prop where
  update_nil : ∀ state, hash.update state [] = state
  update_append : ∀ state first second, hash.update (hash.update state first) second =
  hash.update state (first ++ second)
  injective : ∀ first second, hash.digest (hash.update hash.createHash first) =
    hash.digest (hash.update hash.createHash second) → first = second

/-- What a fragment is a piece of. -/
inductive SnapshotKind
  | text
  | refusal
  | arguments
  deriving DecidableEq

namespace SnapshotKind

/-- The member that states the whole. -/
def field : SnapshotKind → String
  | .text => "text"
  | .refusal => "refusal"
  | .arguments => "arguments"

/-- How the types of its events begin. -/
def stem : SnapshotKind → Units
  | .text => asciiUnits "response.output_text."
  | .refusal => asciiUnits "response.refusal."
  | .arguments => asciiUnits "response.function_call_arguments."

/-- The kind of an event. -/
def ofType (type : Units) : Option SnapshotKind :=
  if SnapshotKind.text.stem.isPrefixOf type then some .text
  else if SnapshotKind.refusal.stem.isPrefixOf type then some .refusal
  else if SnapshotKind.arguments.stem.isPrefixOf type then some .arguments
  else none

end SnapshotKind

/-- The event states the whole. -/
def statesWhole (type : Units) : Bool := (asciiUnits ".done").isSuffixOf type

/-- The event states a piece. -/
def statesPiece (type : Units) : Bool := (asciiUnits ".delta").isSuffixOf type

/-- The type of the delta that an event becomes. -/
def deltaType (type : Units) : Units :=
  if statesWhole type then type.take (type.length - 5) ++ asciiUnits ".delta" else type

/-- A part of an item; the part is the content index as JSON. -/
structure EvidenceKey where
  item : Units
  part : Units
  kind : SnapshotKind
  deriving DecidableEq

/-- What a part is charged with: the three written as one JSON array, and an allowance. -/
def EvidenceKey.charge (json : JsonText) (key : EvidenceKey) : Nat :=
  utf8Length (asciiUnits "[" ++ json.stringify (.string key.item) ++ asciiUnits "," ++ key.part ++ asciiUnits "," ++
    json.stringify (.string (asciiUnits key.kind.field)) ++ asciiUnits "]") + 256

/-- What is remembered of a part. -/
structure Evidence (Hash : Type) where
  hash : Hash
  length : Nat
  final : Bool

/-- What the recovery stage keeps. -/
structure RecoveryState (Hash : Type) where
  limit : Nat
  table : AliasTable := {}
  evidence : InsertionMap EvidenceKey (Evidence Hash) := {}
  retained : Nat := 0

/-- What becomes of an event: it is none of the stage's, it hands a piece on, or it is refused. -/
inductive RecoveryOutcome
  | passed (event : Record)
  | handed (key : EvidenceKey) (delta : Units) (snapshot : Option Units) (event : Record)
  | refused (error : StageError)

/-- More is to be kept than may be. -/
def recoveryOverflow : StageError where
  message := asciiUnits "Translation recovery state exceeds its configured limit"
  overflow := true

namespace RecoveryState

/-- Keep the names that are not known, each under its charge. -/
def store (place : Nat) : List ItemAlias → RecoveryState Hash → RecoveryState Hash × Bool
  | [], state => (state, true)
  | name :: rest, state =>
    if (state.table.aliases.get name).isSome then store place rest state
    else
      let charged := { state with retained := state.retained + name.charge }
      if charged.limit < charged.retained then (charged, false)
      else store place rest { charged with table := charged.table.give place name }

/-- What is remembered of a part; of a new one, nothing. -/
def evidenceOf (hash : RollingHash Hash Digest) (json : JsonText) (state : RecoveryState Hash) (key : EvidenceKey) :
    RecoveryState Hash × Option (Evidence Hash) :=
  match state.evidence.get key with
  | some known => (state, some known)
  | none =>
    let fresh : Evidence Hash := { hash := hash.createHash, length := 0, final := false }
    let charged := { state with retained := state.retained + key.charge json }
    if charged.limit < charged.retained then (charged, none)
    else ({ charged with evidence := charged.evidence.set key fresh }, some fresh)

/-- Hand a piece on. -/
def accept (hash : RollingHash Hash Digest) (state : RecoveryState Hash) (key : EvidenceKey) (evidence : Evidence Hash)
    (event : Record) (type delta : Units) (snapshot : Option Units) : RecoveryState Hash × RecoveryOutcome :=
  let extended : Evidence Hash :=
    { hash := hash.update evidence.hash delta
      length := evidence.length + delta.length
      final := evidence.final || statesWhole type }
  ({ state with evidence := state.evidence.set key extended }, .handed key delta snapshot
      ((event.set (asciiUnits "type") (.string (deltaType type))).set (asciiUnits "delta") (.string delta)))

/-- Compare what an event states with what is remembered of its part. -/
def compare [DecidableEq Digest] (hash : RollingHash Hash Digest) (state : RecoveryState Hash) (key : EvidenceKey)
    (evidence : Evidence Hash) (event : Record) (type : Units) : RecoveryState Hash × RecoveryOutcome :=
  match textField event (if statesWhole type then key.kind.field else "delta") with
  | none => (state, .passed (event.set (asciiUnits "delta") (.string [])))
  | some value =>
    if statesWhole type then
      if value.length < evidence.length ∨
          hash.digest (hash.update hash.createHash (value.take evidence.length)) ≠ hash.digest evidence.hash then
        (state, .refused
          { message := asciiUnits "Final Responses snapshot disagrees with emitted content", overflow := false })
      else if evidence.final = true ∧ value.length ≠ evidence.length then
        (state, .refused
          { message := asciiUnits "Responses final snapshot changed after finalization", overflow := false })
      else accept hash state key evidence event type (value.drop evidence.length) (some value)
    else if evidence.final = true ∧ value ≠ [] then
      (state, .refused
        { message := asciiUnits "Responses delta arrived after its final snapshot", overflow := false })
    else accept hash state key evidence event type value none

/-- The item of an event: the identity its names stand for, or a new one under the first of them. -/
def claimItem (json : JsonText) (state : RecoveryState Hash) (event : Record) :
    Except StageError ((RecoveryState Hash × Bool) × Units) :=
  let id := textField event "item_id"
  let index := indexText json event
  match state.table.find id index with
  | .error message => .error { message, overflow := false }
  | .ok found =>
    let names := namesOf id index
    let key := (names.head?.map ItemAlias.text).getD (asciiUnits "unkeyed")
    let claimed := state.table.claim found key id
    .ok (store claimed.2 names { state with table := claimed.1 }, claimed.1.keyOf claimed.2)

/-- The recovery stage. -/
def recover [DecidableEq Digest] (hash : RollingHash Hash Digest) (json : JsonText) (state : RecoveryState Hash)
    (event : Record) : RecoveryState Hash × RecoveryOutcome :=
  match textField event "type" with
  | none => (state, .passed event)
  | some type =>
    match SnapshotKind.ofType type with
    | none => (state, .passed event)
    | some kind =>
      if !statesPiece type && !statesWhole type then (state, .passed event)
      else if statesWhole type && (presentField event "item_id").isNone &&
        (presentField event "output_index").isNone then
        (state, .passed
          ((event.set (asciiUnits "type") (.string (deltaType type))).set (asciiUnits "delta") (.string [])))
      else
        match state.claimItem json event with
        | .error error => (state, .refused error)
        | .ok ((stored, false), _) => (stored, .refused recoveryOverflow)
        | .ok ((stored, true), item) =>
          let key : EvidenceKey :=
            { item, part := json.stringify ((presentField event "content_index").getD .null), kind }
          match stored.evidenceOf hash json key with
          | (known, none) => (known, .refused recoveryOverflow)
          | (known, some evidence) => known.compare hash key evidence event type

end RecoveryState

/-- What an event is after the stage, or why it is refused. -/
def RecoveryOutcome.result : RecoveryOutcome → Except Value Value
  | .passed event => .ok (.object event)
  | .handed _ _ _ event => .ok (.object event)
  | .refused error => .error error.detail

/-- What a Responses stream is read with. -/
structure SnapshotSource (Hash Digest : Type) where
  hash : RollingHash Hash Digest
  json : JsonText
  parseJson : Units → Option Value
  parse : Value → Option ResponsesEvent
  usageCounts : Option Value → Record
  errorBody : Value → Value
  reasoningSeal : Option (Units → Units)

/-- A payload under its own type, or under that of its frame. -/
def typedEvent (payload : Value) (fallbackType : Option Units) : Record :=
  let event := payload.asRecord.getD []
  event.set (asciiUnits "type") (((presentField event "type").or (fallbackType.map Value.string)).getD .null)

/-- The stages before the reader of a Responses stream. -/
def SnapshotSource.stages [DecidableEq Digest] (source : SnapshotSource Hash Digest) :
    ResponsesSource IdentityState (RecoveryState Hash) where
  finalEvents frame := responsesFinalEvents ((source.parseJson frame.data).getD .null)
  validTextIdentity := validResponsesTextIdentity
  resolveIdentity state payload fallbackType :=
    let resolved := resolveIdentity source.json state (typedEvent payload fallbackType)
    (resolved.1, (resolved.2.mapError StageError.detail).map Value.object)
  recoverSnapshot state event :=
    let recovered := state.recover source.hash source.json (event.asRecord.getD [])
    (recovered.1, recovered.2.result)
  parse := source.parse
  usageCounts := source.usageCounts
  errorBody := source.errorBody
  reasoningSeal := source.reasoningSeal

/-- A piece that was handed on: the event as it came and as it was resolved, the part, the piece, and the whole
text where the event stated one. -/
structure Handed where
  payload : Record
  resolved : Record
  key : EvidenceKey
  delta : Units
  snapshot : Option Units

/-- Everything that was handed on for a part. -/
def handedOn (log : List Handed) (key : EvidenceKey) : Units :=
  joined (log.map fun entry => (entry.key, entry.delta)) key

/-- A whole text that was accepted goes on from what was handed on before, and is all that was ever handed on. -/
def Uncontradicted (log : List Handed) : Prop :=
  ∀ before entry after whole, log = before ++ entry :: after → entry.snapshot = some whole →
    handedOn before entry.key ++ entry.delta = whole ∧ handedOn log entry.key = whole

/-- The evidence of a part is about what was handed on for it. -/
structure Evidence.Of {Hash Digest : Type} (hash : RollingHash Hash Digest) (evidence : Evidence Hash) (text : Units) :
    Prop where
  length : evidence.length = text.length
  hash : evidence.hash = hash.update hash.createHash text

/-- The evidence is that of the log. -/
structure Remembers {Hash Digest : Type} (hash : RollingHash Hash Digest) (state : RecoveryState Hash)
    (log : List Handed) : Prop where
  known : ∀ key evidence, state.evidence.get key = some evidence → evidence.Of hash (handedOn log key)
  unknown : ∀ key, state.evidence.get key = none → handedOn log key = []
  final : ∀ entry ∈ log, entry.snapshot.isSome = true →
    ∃ evidence, state.evidence.get entry.key = some evidence ∧ evidence.final = true
  uncontradicted : Uncontradicted log

section Log

variable {log : List Handed} {entry : Handed} {key : EvidenceKey}

theorem handedOn_snoc (log : List Handed) (entry : Handed) (key : EvidenceKey) :
    handedOn (log ++ [entry]) key = handedOn log key ++ if entry.key = key then entry.delta else [] := by
  unfold handedOn
  rw [List.map_append]
  exact joined_snoc ..

/-- One more piece keeps the log uncontradicted where it completes what it states, and adds nothing to a
complete part. -/
theorem Uncontradicted.snoc (h : Uncontradicted log)
    (hwhole : ∀ whole, entry.snapshot = some whole → handedOn log entry.key ++ entry.delta = whole)
    (hfinal : ∀ earlier ∈ log, earlier.snapshot.isSome = true → earlier.key = entry.key → entry.delta = []) :
    Uncontradicted (log ++ [entry]) := by
  intro before held after whole hsplit hsnapshot
  rcases List.eq_nil_or_concat after with rfl | ⟨rest, last, rfl⟩
  · obtain ⟨rfl, hheld⟩ := List.append_inj' hsplit rfl
    obtain rfl := (List.cons.inj hheld).1
    refine ⟨hwhole whole hsnapshot, ?_⟩
    rw [handedOn_snoc, if_pos rfl]
    exact hwhole whole hsnapshot
  · have hsplit' : log ++ [entry] = (before ++ held :: rest) ++ [last] := by simpa using hsplit
    obtain ⟨rfl, hlast⟩ := List.append_inj' hsplit' rfl
    obtain ⟨hbefore, hall⟩ := h before held rest whole rfl hsnapshot
    refine ⟨hbefore, ?_⟩
    rw [handedOn_snoc, hall]
    split
    · next hkey =>
      rw [hfinal held (by simp) (by simp [hsnapshot]) hkey.symm, List.append_nil]
    · rw [List.append_nil]

end Log

section Steps

variable {Hash Digest : Type} {hash : RollingHash Hash Digest} {json : JsonText} {state : RecoveryState Hash}
  {log : List Handed}

/-- Names and charges are not evidence. -/
theorem Remembers.of_evidence (h : Remembers hash state log) {next : RecoveryState Hash}
    (hsame : next.evidence = state.evidence) : Remembers hash next log :=
  ⟨by rw [hsame]; exact h.known, by rw [hsame]; exact h.unknown, by rw [hsame]; exact h.final, h.uncontradicted⟩

/-- Storing names leaves the evidence. -/
theorem store_evidence (place : Nat) (names : List ItemAlias) (state : RecoveryState Hash) :
    (RecoveryState.store place names state).1.evidence = state.evidence := by
  induction names generalizing state with
  | nil => rfl
  | cons name rest ih =>
    unfold RecoveryState.store
    dsimp only
    split
    · exact ih state
    · split
      · rfl
      · exact ih _

/-- A part that is new has nothing handed on, and its evidence says so. -/
theorem Remembers.evidenceOf (h : Remembers hash state log) (hfree : hash.CollisionFree) (key : EvidenceKey) :
    Remembers hash (state.evidenceOf hash json key).1 log ∧
      ∀ evidence, (state.evidenceOf hash json key).2 = some evidence →
        (state.evidenceOf hash json key).1.evidence.get key = some evidence := by
  unfold RecoveryState.evidenceOf
  cases hget : state.evidence.get key with
  | some known => exact ⟨h, fun evidence hevidence => hget.trans hevidence⟩
  | none =>
    dsimp only
    split
    · refine ⟨h.of_evidence rfl, ?_⟩
      rintro evidence ⟨⟩
    · refine ⟨⟨?_, ?_, ?_, h.uncontradicted⟩, ?_⟩
      · intro other evidence hother
        rw [InsertionMap.get_set] at hother
        split at hother
        · next hsame =>
          obtain rfl := Option.some.inj hother
          rw [hsame, h.unknown key hget]
          exact ⟨rfl, (hfree.update_nil _).symm⟩
        · exact h.known other evidence hother
      · intro other hother
        rw [InsertionMap.get_set] at hother
        split at hother
        · cases hother
        · exact h.unknown other hother
      · intro entry hmem hsome
        obtain ⟨evidence, hevidence, hfinal⟩ := h.final entry hmem hsome
        refine ⟨evidence, ?_, hfinal⟩
        rw [InsertionMap.get_set_of_ne _ _ (by rintro hsame; rw [hsame, hget] at hevidence; cases hevidence)]
        exact hevidence
      · intro evidence hevidence
        rw [InsertionMap.get_set_self]
        exact hevidence

/-- A piece that is handed on extends the evidence of its part. -/
theorem Remembers.accept (h : Remembers hash state log) (hfree : hash.CollisionFree) {key : EvidenceKey}
    {evidence : Evidence Hash} (hget : state.evidence.get key = some evidence) {payload resolved event : Record}
    {type delta : Units} {snapshot : Option Units} (hwhole : snapshot.isSome = true → statesWhole type = true)
    (hcompletes : ∀ whole, snapshot = some whole → handedOn log key ++ delta = whole)
    (hfinal : evidence.final = true → delta = []) :
    Remembers hash (state.accept hash key evidence event type delta snapshot).1
      (log ++ [⟨payload, resolved, key, delta, snapshot⟩]) := by
  have hof := h.known key evidence hget
  refine ⟨?_, ?_, ?_, h.uncontradicted.snoc hcompletes ?_⟩
  · intro other held hheld
    rw [RecoveryState.accept, InsertionMap.get_set] at hheld
    rw [handedOn_snoc]
    split at hheld
    · next hsame =>
      obtain rfl := Option.some.inj hheld
      rw [if_pos hsame.symm, hsame]
      refine ⟨?_, ?_⟩
      · simp [hof.length]
      · simp only [hof.hash, hfree.update_append]
    · next hother =>
      rw [if_neg (Ne.symm hother), List.append_nil]
      exact h.known other held hheld
  · intro other hnone
    rw [RecoveryState.accept, InsertionMap.get_set] at hnone
    rw [handedOn_snoc]
    split at hnone
    · cases hnone
    · next hother =>
      rw [if_neg (Ne.symm hother), List.append_nil]
      exact h.unknown other hnone
  · intro entry hmem hsome
    rw [RecoveryState.accept]
    dsimp only
    rcases List.mem_append.mp hmem with hearlier | hnew
    · obtain ⟨held, hheld, hdone⟩ := h.final entry hearlier hsome
      rw [InsertionMap.get_set]
      split
      · next hsame =>
        rw [hsame, hget] at hheld
        obtain rfl := Option.some.inj hheld
        exact ⟨_, rfl, by simp [hdone]⟩
      · exact ⟨held, hheld, hdone⟩
    · obtain rfl := List.mem_singleton.mp hnew
      rw [InsertionMap.get_set_self]
      exact ⟨_, rfl, by simp [hwhole hsome]⟩
  · intro earlier hmem hsome hkey
    obtain ⟨held, hheld, hdone⟩ := h.final earlier hmem hsome
    rw [hkey, hget] at hheld
    obtain rfl := Option.some.inj hheld
    exact hfinal hdone

/-- The log with what an outcome hands on. -/
def RecoveryOutcome.logged (outcome : RecoveryOutcome) (payload resolved : Record) : List Handed :=
  match outcome with
  | .handed key delta snapshot _ => [⟨payload, resolved, key, delta, snapshot⟩]
  | _ => []

/-- A text whose beginning has the digest of what was handed on goes on from it. -/
theorem take_of_digest (hfree : hash.CollisionFree) {evidence : Evidence Hash} {text value : Units}
    (hof : evidence.Of hash text)
    (hdigest : hash.digest (hash.update hash.createHash (value.take evidence.length)) = hash.digest evidence.hash) :
    text ++ value.drop evidence.length = value := by
  rw [hof.hash] at hdigest
  rw [← hfree.injective _ _ hdigest, List.take_append_drop]

/-- A snapshot is compared with what was handed on. -/
theorem Remembers.compare [DecidableEq Digest] (h : Remembers hash state log) (hfree : hash.CollisionFree)
    {key : EvidenceKey} {evidence : Evidence Hash} (hget : state.evidence.get key = some evidence) (event : Record)
    (type : Units) (payload : Record) : Remembers hash (state.compare hash key evidence event type).1
      (log ++ (state.compare hash key evidence event type).2.logged payload event) := by
  have hof := h.known key evidence hget
  unfold RecoveryState.compare
  split
  · simpa [RecoveryOutcome.logged] using h
  · next value hvalue =>
    split
    · next hwhole =>
      split
      · simpa [RecoveryOutcome.logged] using h
      · next hprefix =>
        rw [not_or, not_not] at hprefix
        have hcompletes := take_of_digest hfree hof hprefix.2
        split
        · simpa [RecoveryOutcome.logged] using h
        · next hlength =>
          refine h.accept hfree hget (fun _ => hwhole) ?_ ?_
          · intro whole hsnapshot
            rw [← Option.some.inj hsnapshot]
            exact hcompletes
          · intro hfinal
            have hsame : value.length = evidence.length := by
              by_contra hne
              exact hlength ⟨hfinal, hne⟩
            rw [← hsame, List.drop_length]
    · split
      · simpa [RecoveryOutcome.logged] using h
      · next hpiece =>
        refine h.accept hfree hget (fun hsome => by cases hsome) (fun whole hsnapshot => by cases hsnapshot) ?_
        intro hfinal
        by_contra hne
        exact hpiece ⟨hfinal, hne⟩

/-- The whole text that an event states, where it names the item it belongs to. -/
def statedWhole (event : Record) : Option Units :=
  (textField event "type").bind fun type =>
    (SnapshotKind.ofType type).bind fun kind =>
      if statesWhole type && ((presentField event "item_id").isSome || (presentField event "output_index").isSome) then
        textField event kind.field
      else none

/-- The part and the kind are those of the event. -/
def EvidenceKey.PartOf (json : JsonText) (key : EvidenceKey) (event : Record) : Prop :=
  key.part = json.stringify ((presentField event "content_index").getD .null) ∧
    (textField event "type").bind SnapshotKind.ofType = some key.kind

/-- What the stage can do with an event. -/
inductive RecoverStep [DecidableEq Digest] (hash : RollingHash Hash Digest) (json : JsonText)
    (state : RecoveryState Hash) (event : Record) : RecoveryState Hash × RecoveryOutcome → Prop
  | untouched (passed : Record) (nothing : statedWhole event = none) :
      RecoverStep hash json state event (state, .passed passed)
  | unnamed (error : StageError) (claim : state.claimItem json event = .error error) :
      RecoverStep hash json state event (state, .refused error)
  | full (stored : RecoveryState Hash) (item : Units)
      (claim : state.claimItem json event = .ok ((stored, false), item)) :
      RecoverStep hash json state event (stored, .refused recoveryOverflow)
  | unmeasured (stored : RecoveryState Hash) (key : EvidenceKey)
      (claim : state.claimItem json event = .ok ((stored, true), key.item))
      (missing : (stored.evidenceOf hash json key).2 = none) :
      RecoverStep hash json state event ((stored.evidenceOf hash json key).1, .refused recoveryOverflow)
  | compared (stored : RecoveryState Hash) (key : EvidenceKey) (evidence : Evidence Hash) (type : Units)
      (typed : textField event "type" = some type) (part : key.PartOf json event)
      (claim : state.claimItem json event = .ok ((stored, true), key.item))
      (known : (stored.evidenceOf hash json key).2 = some evidence) :
      RecoverStep hash json state event ((stored.evidenceOf hash json key).1.compare hash key evidence event type)

/-- A recovery is a comparison or a fresh start. -/
theorem recoverStep [DecidableEq Digest] (event : Record) :
    RecoverStep hash json state event (state.recover hash json event) := by
  unfold RecoveryState.recover
  split
  · next htype => exact .untouched _ (by simp [statedWhole, htype])
  · next type htype =>
    split
    · next hkind => exact .untouched _ (by simp [statedWhole, htype, hkind])
    · next kind hkind =>
      split
      · next hother =>
        rw [Bool.and_eq_true, Bool.not_eq_true', Bool.not_eq_true'] at hother
        exact .untouched _ (by simp [statedWhole, htype, hkind, hother.2])
      · split
        · next hunscoped =>
          simp only [Bool.and_eq_true, Option.isNone_iff_eq_none] at hunscoped
          exact .untouched _ (by simp [statedWhole, htype, hunscoped.1.2, hunscoped.2])
        · split
          · next hclaim => exact .unnamed _ hclaim
          · next hclaim => exact .full _ _ hclaim
          · next stored item hclaim =>
            dsimp only
            split
            · next known hknown =>
              have hstep := @RecoverStep.unmeasured Hash Digest _ hash json state event stored
                ⟨item, json.stringify ((presentField event "content_index").getD .null), kind⟩ hclaim
                (by rw [hknown])
              rw [hknown] at hstep
              exact hstep
            · next known evidence hknown =>
              have hstep := @RecoverStep.compared Hash Digest _ hash json state event stored
                ⟨item, json.stringify ((presentField event "content_index").getD .null), kind⟩ evidence type htype
                ⟨rfl, by rw [htype]; exact hkind⟩ hclaim (by rw [hknown])
              rw [hknown] at hstep
              exact hstep

/-- Claiming an item leaves the evidence. -/
theorem claimItem_evidence {event : Record} {stored : RecoveryState Hash × Bool} {item : Units}
    (h : state.claimItem json event = .ok (stored, item)) : stored.1.evidence = state.evidence := by
  unfold RecoveryState.claimItem at h
  dsimp only at h
  split at h
  · cases h
  · obtain ⟨rfl, -⟩ := Prod.mk.inj (Except.ok.inj h)
    exact store_evidence ..

/-- An event through the stage keeps what is remembered that of the log. -/
theorem Remembers.recover [DecidableEq Digest] (h : Remembers hash state log) (hfree : hash.CollisionFree)
    (event payload : Record) : Remembers hash (state.recover hash json event).1
      (log ++ (state.recover hash json event).2.logged payload event) := by
  have hstep := @recoverStep Hash Digest hash json state _ event
  generalize state.recover hash json event = result at hstep ⊢
  cases hstep with
  | untouched passed nothing => simpa [RecoveryOutcome.logged] using h
  | unnamed error claim => simpa [RecoveryOutcome.logged] using h
  | full stored item claim =>
    simpa [RecoveryOutcome.logged] using h.of_evidence (claimItem_evidence claim)
  | unmeasured stored key claim missing =>
    have hstored := h.of_evidence (claimItem_evidence claim)
    simpa [RecoveryOutcome.logged] using (hstored.evidenceOf hfree key).1
  | compared stored key evidence type typed part claim known =>
    have hstored := h.of_evidence (claimItem_evidence claim)
    obtain ⟨hknown, hget⟩ := @Remembers.evidenceOf _ _ _ json _ _ hstored hfree key
    exact hknown.compare hfree (hget evidence known) event type payload

/-- A whole text that names its item completes what was handed on, or is refused. -/
theorem Remembers.whole [DecidableEq Digest] (h : Remembers hash state log)
    (hfree : hash.CollisionFree) {event : Record}
    {whole : Units} (hwhole : statedWhole event = some whole) :
    (∃ key delta next, (state.recover hash json event).2 = .handed key delta (some whole) next ∧
        handedOn log key ++ delta = whole) ∨
      ∃ error, (state.recover hash json event).2 = .refused error := by
  have hstep := @recoverStep Hash Digest hash json state _ event
  generalize state.recover hash json event = result at hstep ⊢
  cases hstep with
  | untouched passed nothing =>
    rw [hwhole] at nothing
    cases nothing
  | unnamed error claim => exact .inr ⟨error, rfl⟩
  | full stored item claim => exact .inr ⟨_, rfl⟩
  | unmeasured stored key claim missing => exact .inr ⟨_, rfl⟩
  | compared stored key evidence type typed part claim known =>
    have hkind : SnapshotKind.ofType type = some key.kind := by simpa [typed] using part.2
    simp only [statedWhole, typed, hkind, Option.bind_some] at hwhole
    split at hwhole
    · next hscoped =>
      rw [Bool.and_eq_true] at hscoped
      have hstored := h.of_evidence (claimItem_evidence claim)
      obtain ⟨hknown, hget⟩ := @Remembers.evidenceOf _ _ _ json _ _ hstored hfree key
      have hof := hknown.known key evidence (hget evidence known)
      unfold RecoveryState.compare
      rw [if_pos hscoped.1, hwhole]
      dsimp only
      rw [if_pos hscoped.1]
      split
      · exact .inr ⟨_, rfl⟩
      · next hprefix =>
        rw [not_or, not_not] at hprefix
        split
        · exact .inr ⟨_, rfl⟩
        · exact .inl ⟨key, _, _, rfl, take_of_digest hfree hof hprefix.2⟩
    · cases hwhole

end Steps

end MultiAiRouter.Translate.Snapshots
