import MultiAiRouter.Translate.Snapshots.Names

/-!
# A snapshot never contradicts what was streamed

The log of the pieces that the recovery stage hands on agrees with every whole text that is accepted: it is all that
is ever handed on for its part. A whole text that is not accepted ends the stream with the translation error.
-/

namespace MultiAiRouter.Translate.Snapshots

open Common Translate.Sse Translate.Anthropic

variable {Hash Digest : Type} [DecidableEq Digest] (source : SnapshotSource Hash Digest)

/-- The reader of a Responses stream, with the state of its stages. -/
abbrev SnapshotReader (Hash : Type) := ResponsesReader IdentityState (RecoveryState Hash)

omit [DecidableEq Digest] in
/-- The event of a payload that reaches the recovery stage, as it came and as it was resolved. -/
def reaching (reader : SnapshotReader Hash) (payload : Value) (fallbackType : Option Units) :
    Option (Record × Record) :=
  if reader.emitter.terminated || !validResponsesTextIdentity payload fallbackType then none
  else
    match (resolveIdentity source.json reader.identity (typedEvent payload fallbackType)).2 with
    | .error _ => none
    | .ok raw =>
      if statesArguments raw && !((rawKey raw reader.unkeyed).any fun key => key ∈ reader.knownCalls) then none
      else some (typedEvent payload fallbackType, raw)

/-- What a payload makes the recovery stage hand on. -/
def handedBy (reader : SnapshotReader Hash) (payload : Value) (fallbackType : Option Units) : List Handed :=
  match reaching source reader payload fallbackType with
  | none => []
  | some (event, raw) => (reader.recovery.recover source.hash source.json raw).2.logged event raw

/-- An event that the identity stage lets pass, and what is handed on for it. -/
structure Passed where
  event : Record
  handed : List Handed

/-- The event of a payload, where it passes. -/
def passing (reader : SnapshotReader Hash) (payload : Value) (fallbackType : Option Units) : List Passed :=
  if reader.emitter.terminated || !validResponsesTextIdentity payload fallbackType then []
  else
    match (resolveIdentity source.json reader.identity (typedEvent payload fallbackType)).2 with
    | .error _ => []
    | .ok _ => [⟨typedEvent payload fallbackType, handedBy source reader payload fallbackType⟩]

/-- What was handed on for the events. -/
def handedLog (passed : List Passed) : List Handed := passed.flatMap Passed.handed

/-- A payload is taken in, and logged where it passes. -/
def processLogged (reader : SnapshotReader Hash) (input : Value × Option Units) : SnapshotReader Hash × List Passed :=
  ((reader.process source.stages input.1 input.2).1, passing source reader input.1 input.2)

/-- A frame is taken in, and its payloads are logged. -/
def pushLogged (reader : SnapshotReader Hash) (frame : SseFrame) : SnapshotReader Hash × List Passed :=
  emitFrom (processLogged source) reader
    ((source.stages.finalEvents frame).map fun payload => (payload, frame.event))

/-- The reader at the start of a stream. -/
def SnapshotReader.begin (id model : Units) (limit : Nat) : SnapshotReader Hash where
  emitter := { id, model, pending := { limit } }
  identity := { limit }
  recovery := { limit }

/-- The stream is over with an error, and nothing comes behind it. -/
structure EndsInError (result : SnapshotReader Hash × List AnthropicEvent) : Prop where
  failed : result.1.failed = true
  terminated : result.1.emitter.terminated = true
  told : ∃ detail, result.2 = [AnthropicEvent.error (source.errorBody detail)]
  silent : ∀ frames, (emitFrom (ResponsesReader.push source.stages) result.1 frames).2 = []

section Steps

variable {source} {reader : SnapshotReader Hash} {payload : Value} {fallbackType : Option Units}

/-- A stream that is over ignores frames. -/
theorem push_terminated (h : reader.emitter.terminated = true) (frame : SseFrame) :
    reader.push source.stages frame = (reader, []) := by
  unfold ResponsesReader.push
  induction source.stages.finalEvents frame with
  | nil => rfl
  | cons payload rest ih =>
    have hprocess : reader.process source.stages payload frame.event = (reader, []) := by
      rw [ResponsesReader.process, if_pos h]
    rw [emitFrom_cons, hprocess, ih]
    rfl

theorem pushAll_terminated (h : reader.emitter.terminated = true) (frames : List SseFrame) :
    (emitFrom (ResponsesReader.push source.stages) reader frames).2 = [] := by
  induction frames with
  | nil => rfl
  | cons frame rest ih =>
    rw [emitFrom_cons, push_terminated h]
    exact ih

theorem endsInError_refuse (detail : Value) : EndsInError source (reader.refuse source.stages detail) :=
  ⟨rfl, rfl, ⟨detail, rfl⟩, pushAll_terminated rfl⟩

/-- Acting on an event leaves the stages alone. -/
theorem act_stages (event : ResponsesEvent) (kind : ResponsesEventKind) :
    (reader.act source.stages payload event kind).1.identity = reader.identity ∧
      (reader.act source.stages payload event kind).1.recovery = reader.recovery := by
  unfold ResponsesReader.act
  dsimp only
  cases kind <;> dsimp only <;> repeat' split
  all_goals exact ⟨rfl, rfl⟩

/-- A recovered payload leaves both stages. -/
theorem recovered_stages (event : Value) :
    (reader.recovered source.stages payload event fallbackType).1.identity = reader.identity ∧
      (reader.recovered source.stages payload event fallbackType).1.recovery = reader.recovery := by
  unfold ResponsesReader.recovered
  split
  · exact ⟨rfl, rfl⟩
  · exact act_stages _ _

/-- What a payload can do. -/
inductive ProcessStep (source : SnapshotSource Hash Digest) (reader : SnapshotReader Hash) (payload : Value)
    (fallbackType : Option Units) : SnapshotReader Hash × List AnthropicEvent → Prop
  | ignored (unreached : reaching source reader payload fallbackType = none)
      (stopped : passing source reader payload fallbackType = []) :
      ProcessStep source reader payload fallbackType (reader, [])
  | unreached (next : SnapshotReader Hash × List AnthropicEvent)
      (unreached : reaching source reader payload fallbackType = none)
      (identity : next.1.identity = (resolveIdentity source.json reader.identity (typedEvent payload fallbackType)).1)
      (recovery : next.1.recovery = reader.recovery) : ProcessStep source reader payload fallbackType next
  | reached (next : SnapshotReader Hash × List AnthropicEvent) (raw : Record)
      (reaches : reaching source reader payload fallbackType = some (typedEvent payload fallbackType, raw))
      (resolved : (resolveIdentity source.json reader.identity (typedEvent payload fallbackType)).2 = .ok raw)
      (identity : next.1.identity = (resolveIdentity source.json reader.identity (typedEvent payload fallbackType)).1)
      (recovery : next.1.recovery = (reader.recovery.recover source.hash source.json raw).1)
      (refuses : ∀ error, (reader.recovery.recover source.hash source.json raw).2 = .refused error →
        EndsInError source next) : ProcessStep source reader payload fallbackType next

/-- A payload that is resolved: a call nobody knows gets no arguments, and anything else goes to the recovery stage. -/
theorem process_resolved (hrunning : reader.emitter.terminated = false)
    (hvalid : validResponsesTextIdentity payload fallbackType = true) {raw : Record}
    (hresolved : (resolveIdentity source.json reader.identity (typedEvent payload fallbackType)).2 = .ok raw) :
    reader.process source.stages payload fallbackType =
      let identified := { reader with
        identity := (resolveIdentity source.json reader.identity (typedEvent payload fallbackType)).1 }
      let kept := { identified with recovery := (reader.recovery.recover source.hash source.json raw).1 }
      if (statesArguments raw && !((rawKey raw reader.unkeyed).any fun key => key ∈ reader.knownCalls)) = true then
        (identified, [])
      else
        match (reader.recovery.recover source.hash source.json raw).2.result with
        | .error detail => kept.refuse source.stages detail
        | .ok event => kept.recovered source.stages payload event fallbackType := by
  have hstage : (source.stages.resolveIdentity reader.identity payload fallbackType).2 = .ok (.object raw) := by
    simp [SnapshotSource.stages, hresolved, Except.mapError, Except.map]
  unfold ResponsesReader.process
  rw [hrunning, if_neg Bool.false_ne_true, if_neg (by simpa [SnapshotSource.stages] using hvalid)]
  dsimp only
  rw [hstage]
  rfl

/-- A payload whose names disagree ends the stream. -/
theorem process_refused (hrunning : reader.emitter.terminated = false)
    (hvalid : validResponsesTextIdentity payload fallbackType = true) {error : StageError}
    (hresolved : (resolveIdentity source.json reader.identity (typedEvent payload fallbackType)).2 = .error error) :
    reader.process source.stages payload fallbackType =
      { reader with
        identity := (resolveIdentity source.json reader.identity (typedEvent payload fallbackType)).1 }.refuse
          source.stages error.detail := by
  have hstage : (source.stages.resolveIdentity reader.identity payload fallbackType).2 = .error error.detail := by
    simp [SnapshotSource.stages, hresolved, Except.mapError, Except.map]
  unfold ResponsesReader.process
  rw [hrunning, if_neg Bool.false_ne_true, if_neg (by simpa [SnapshotSource.stages] using hvalid)]
  dsimp only
  rw [hstage]
  rfl

/-- A payload is refused, kept back or handed on. -/
theorem processStep : ProcessStep source reader payload fallbackType
    (reader.process source.stages payload fallbackType) := by
  cases hrunning : reader.emitter.terminated with
  | true =>
    rw [ResponsesReader.process, if_pos hrunning]
    exact .ignored (by simp [reaching, hrunning]) (by simp [passing, hrunning])
  | false =>
    cases hvalid : validResponsesTextIdentity payload fallbackType with
    | false =>
      rw [ResponsesReader.process, hrunning, if_neg Bool.false_ne_true,
        if_pos (by simpa [SnapshotSource.stages] using hvalid)]
      exact .ignored (by simp [reaching, hvalid]) (by simp [passing, hvalid])
    | true =>
      have hreaching : reaching source reader payload fallbackType =
          match (resolveIdentity source.json reader.identity (typedEvent payload fallbackType)).2 with
          | .error _ => none
          | .ok raw =>
            if statesArguments raw && !((rawKey raw reader.unkeyed).any fun key => key ∈ reader.knownCalls) then none
            else some (typedEvent payload fallbackType, raw) := by
        rw [reaching, if_neg (by simp [hrunning, hvalid])]
      cases hresolved : (resolveIdentity source.json reader.identity (typedEvent payload fallbackType)).2 with
      | error error =>
        rw [hresolved] at hreaching
        rw [process_refused hrunning hvalid hresolved]
        exact .unreached _ hreaching rfl rfl
      | ok raw =>
        rw [hresolved] at hreaching
        rw [process_resolved hrunning hvalid hresolved]
        dsimp only at hreaching ⊢
        by_cases hdropped : (statesArguments raw &&
            !((rawKey raw reader.unkeyed).any fun key => key ∈ reader.knownCalls)) = true
        · rw [if_pos hdropped] at hreaching ⊢
          exact .unreached _ hreaching rfl rfl
        · rw [if_neg hdropped] at hreaching ⊢
          -- A refusal ends the stream; any other outcome leaves the stages as they are now.
          have hpassed : ∀ event, (reader.recovery.recover source.hash source.json raw).2.result = .ok event →
              ∀ error, (reader.recovery.recover source.hash source.json raw).2 ≠ .refused error := by
            intro event hok error herror
            rw [herror] at hok
            cases hok
          split
          · exact .reached _ raw hreaching hresolved rfl rfl fun _ _ => endsInError_refuse _
          · next event hok =>
            exact .reached _ raw hreaching hresolved (recovered_stages _).1 (recovered_stages _).2
              fun error herror => absurd herror (hpassed event hok error)

/-- What is handed on for a payload is logged with its event. -/
theorem handedLog_passing : handedLog (passing source reader payload fallbackType) =
    handedBy source reader payload fallbackType := by
  unfold passing handedLog
  split
  · next hstopped => simp [handedBy, reaching, hstopped]
  · next hrunning =>
    split
    · next error hrefused => simp [handedBy, reaching, hrunning, hrefused]
    · simp

/-- Only the event of the payload is logged, and only where the identity stage resolves it. -/
theorem resolved_of_passing {passed : Passed} (h : passed ∈ passing source reader payload fallbackType) :
    passed.event = typedEvent payload fallbackType ∧
      ∃ raw, (resolveIdentity source.json reader.identity (typedEvent payload fallbackType)).2 = .ok raw := by
  unfold passing at h
  split at h
  · cases h
  · split at h
    · cases h
    · next raw hresolved =>
      obtain rfl := List.mem_singleton.mp h
      exact ⟨rfl, raw, hresolved⟩

end Steps

/-- Pieces whose names are linked by the events that passed, announcements among them, are of one item, and each
is logged under its own part and kind. -/
structure Coherent (json : JsonText) (passed : List Passed) : Prop where
  items : ∀ entry ∈ handedLog passed, ∀ other ∈ handedLog passed, Fragment entry.payload → Fragment other.payload →
    ∀ name ∈ itemNames json entry.payload, ∀ link ∈ itemNames json other.payload,
      Linked json (passed.map Passed.event) name link → entry.key.item = other.key.item
  parts : ∀ entry ∈ handedLog passed, entry.key.PartOf json entry.resolved

/-- The stages are about the log. -/
structure Followed (source : SnapshotSource Hash Digest) (limit : Nat) (reader : SnapshotReader Hash)
    (passed : List Passed) : Prop where
  remembers : Remembers source.hash reader.recovery (handedLog passed)
  identity : reader.identity.Kept limit
  recovery : reader.recovery.Kept source.json limit
  parts : ∀ entry ∈ handedLog passed, entry.key.PartOf source.json entry.resolved
  resolved : ∀ entry ∈ handedLog passed, reader.recovery.table.Named
    (namesOf (textField entry.resolved "item_id") (indexText source.json entry.resolved)) entry.key.item
  named : ∀ event ∈ passed.map Passed.event, ∃ key, reader.identity.table.Named (itemNames source.json event) key
  stated : ∀ entry ∈ handedLog passed, Fragment entry.payload → itemNames source.json entry.payload ≠ [] →
    ∃ key, textField entry.resolved "item_id" = some key ∧
      reader.identity.table.Named (itemNames source.json entry.payload) key

section Run

variable {source} {limit : Nat} {reader : SnapshotReader Hash} {passed : List Passed}

omit [DecidableEq Digest] in
/-- A new stream is followed. -/
theorem Followed.begin (id model : Units) : Followed source limit (SnapshotReader.begin id model limit) [] where
  remembers := ⟨fun _ _ h => (by cases h), fun _ _ => rfl, List.forall_mem_nil _, fun _ _ _ _ h =>
    (by simp [handedLog] at h)⟩
  identity := ⟨fun _ _ h => (by cases h), rfl, Nat.zero_le _, Nat.zero_le _⟩
  recovery := ⟨fun _ _ h => (by cases h), rfl, Nat.zero_le _, Nat.zero_le _⟩
  parts := List.forall_mem_nil _
  resolved := List.forall_mem_nil _
  named := List.forall_mem_nil _
  stated := List.forall_mem_nil _

/-- A payload keeps the stages about the log. -/
theorem Followed.process (hfree : source.hash.CollisionFree) (h : Followed source limit reader passed)
    (input : Value × Option Units) :
    Followed source limit (processLogged source reader input).1 (passed ++ (processLogged source reader input).2) := by
  obtain ⟨payload, fallbackType⟩ := input
  have hstep := @processStep Hash Digest _ source reader payload fallbackType
  have hlog : handedLog (passed ++ passing source reader payload fallbackType) =
      handedLog passed ++ handedBy source reader payload fallbackType := by
    rw [handedLog, List.flatMap_append]
    exact congrArg (_ ++ ·) handedLog_passing
  unfold processLogged
  dsimp only
  generalize reader.process source.stages payload fallbackType = result at hstep ⊢
  obtain ⟨hidentity, hnames, hresolves⟩ := h.identity.resolveIdentity source.json (typedEvent payload fallbackType)
  have hnamed : ∀ event ∈ (passed ++ passing source reader payload fallbackType).map Passed.event, ∃ key,
      (resolveIdentity source.json reader.identity (typedEvent payload fallbackType)).1.table.Named
        (itemNames source.json event) key := by
    intro event hevent
    obtain ⟨held, hheld, rfl⟩ := List.mem_map.mp hevent
    rcases List.mem_append.mp hheld with hearlier | hnew
    · obtain ⟨key, hkey⟩ := h.named _ (List.mem_map_of_mem hearlier)
      exact ⟨key, hkey.extends hnames⟩
    · obtain ⟨hsame, raw, hraw⟩ := resolved_of_passing hnew
      obtain ⟨key, hkey, -⟩ := hresolves raw hraw
      exact ⟨key, hsame ▸ hkey⟩
  have hearlier : ∀ entry ∈ handedLog passed, Fragment entry.payload → itemNames source.json entry.payload ≠ [] →
      ∃ key, textField entry.resolved "item_id" = some key ∧
        (resolveIdentity source.json reader.identity (typedEvent payload fallbackType)).1.table.Named
          (itemNames source.json entry.payload) key := by
    intro entry hmem hfragment hstated
    obtain ⟨key, hkey, hheld⟩ := h.stated entry hmem hfragment hstated
    exact ⟨key, hkey, hheld.extends hnames⟩
  cases hstep with
  | ignored unreached stopped =>
    rw [stopped, List.append_nil]
    exact h
  | unreached _ unreached identity recovery =>
    rw [handedBy, unreached, List.append_nil] at hlog
    refine ⟨?_, by rw [identity]; exact hidentity, by rw [recovery]; exact h.recovery, ?_, ?_,
      by rw [identity]; exact hnamed, by rw [hlog, identity]; exact hearlier⟩
    · rw [hlog, recovery]
      exact h.remembers
    · rw [hlog]
      exact h.parts
    · rw [hlog, recovery]
      exact h.resolved
  | reached _ raw reaches resolved identity recovery refuses =>
    rw [handedBy, reaches] at hlog
    obtain ⟨hkept, hextends, hentries⟩ := h.recovery.recover source.hash raw (typedEvent payload fallbackType)
    refine ⟨?_, by rw [identity]; exact hidentity, by rw [recovery]; exact hkept, ?_, ?_,
      by rw [identity]; exact hnamed, ?_⟩
    · rw [hlog, recovery]
      exact h.remembers.recover hfree raw _
    · rw [hlog]
      intro entry hmem
      rcases List.mem_append.mp hmem with hearlier | hnew
      · exact h.parts entry hearlier
      · obtain ⟨-, hraw, hpart, -⟩ := hentries entry hnew
        rw [hraw]
        exact hpart
    · rw [hlog, recovery]
      intro entry hmem
      rcases List.mem_append.mp hmem with hearlier | hnew
      · exact (h.resolved entry hearlier).extends hextends
      · obtain ⟨-, hraw, -, hnamed⟩ := hentries entry hnew
        rw [hraw]
        exact hnamed
    · rw [hlog, identity]
      intro entry hmem hfragment hstated
      rcases List.mem_append.mp hmem with hheld | hnew
      · exact hearlier entry hheld hfragment hstated
      · obtain ⟨hpayload, hraw, -, -⟩ := hentries entry hnew
        rw [hpayload] at hfragment hstated ⊢
        obtain ⟨key, hkey, hid⟩ := hresolves raw resolved
        rw [hraw]
        exact ⟨key, hid hstated hfragment.1, hkey⟩

omit [DecidableEq Digest] in
/-- Events whose names are linked have been given one id, and share their item. -/
theorem Followed.coherent (h : Followed source limit reader passed) : Coherent source.json passed where
  items entry hentry other hother hfragment hfragment' name hname link hlink hlinked := by
    obtain ⟨key, hkey, hnamed⟩ := h.stated entry hentry hfragment (List.ne_nil_of_mem hname)
    obtain ⟨key', hkey', hnamed'⟩ := h.stated other hother hfragment' (List.ne_nil_of_mem hlink)
    have hfirst : reader.identity.table.Named [name] key := fun held hheld => by
      rw [List.mem_singleton.mp hheld]
      exact hnamed name hname
    obtain rfl := (AliasTable.Named.linked h.named hlinked hfirst).unique hnamed' (List.mem_singleton_self _) hlink
    have hmem : ∀ event : Record, textField event "item_id" = some key →
        ItemAlias.byId key ∈ namesOf (textField event "item_id") (indexText source.json event) := by
      intro event hid
      simp [namesOf, hid]
    exact (h.resolved entry hentry).unique (h.resolved other hother) (hmem _ hkey) (hmem _ hkey')
  parts := h.parts

/-- A whole text that reaches the stage is accepted, or ends the stream. -/
theorem Followed.decided (hfree : source.hash.CollisionFree) (h : Followed source limit reader passed) {payload : Value}
    {fallbackType : Option Units} {event raw : Record} {whole : Units}
    (hreaches : reaching source reader payload fallbackType = some (event, raw))
    (hwhole : statedWhole raw = some whole) :
    (∃ entry, handedBy source reader payload fallbackType = [entry] ∧ entry.snapshot = some whole ∧
        handedOn (handedLog passed) entry.key ++ entry.delta = whole) ∨
      EndsInError source (reader.process source.stages payload fallbackType) := by
  have hstep := @processStep Hash Digest _ source reader payload fallbackType
  unfold handedBy
  generalize reader.process source.stages payload fallbackType = result at hstep ⊢
  cases hstep with
  | ignored unreached =>
    rw [unreached] at hreaches
    cases hreaches
  | unreached _ unreached identity recovery =>
    rw [unreached] at hreaches
    cases hreaches
  | reached _ held reaches resolved identity recovery refuses =>
    rw [reaches] at hreaches
    obtain ⟨rfl, rfl⟩ := Prod.mk.inj (Option.some.inj hreaches)
    rcases h.remembers.whole hfree hwhole with ⟨key, delta, next, houtcome, hcompletes⟩ | ⟨error, hrefused⟩
    · refine .inl ⟨⟨typedEvent payload fallbackType, held, key, delta, some whole⟩, ?_, rfl, hcompletes⟩
      rw [reaches]
      dsimp only
      rw [houtcome]
      rfl
    · exact .inr (refuses error hrefused)

/-- A frame keeps the stages about the log. -/
theorem Followed.push (hfree : source.hash.CollisionFree) (h : Followed source limit reader passed) (frame : SseFrame) :
    Followed source limit (pushLogged source reader frame).1 (passed ++ (pushLogged source reader frame).2) :=
  emitFrom_log (Followed source limit) (fun _ _ input hheld => hheld.process hfree input) _ reader passed h

end Run

/-- A message is announced under its id and its place. -/
def announcedData : Units := asciiUnits
  "\x7b\"type\":\"response.output_item.added\",\"output_index\":0,\"item\":\x7b\"id\":\"a\",\"type\":\"message\"\x7d\x7d"

/-- A piece of the message, by its place. -/
def pieceData : Units :=
  asciiUnits "\x7b\"type\":\"response.output_text.delta\",\"output_index\":0,\"content_index\":0,\"delta\":\"he\"\x7d"

/-- The whole of it, by its id. -/
def wholeData : Units :=
  asciiUnits "\x7b\"type\":\"response.output_text.done\",\"item_id\":\"a\",\"content_index\":0,\"text\":\"hello\"\x7d"

def messageFrames : List SseFrame := [announcedData, pieceData, wholeData].map fun data => { event := none, data }

end MultiAiRouter.Translate.Snapshots
