import Mathlib.Order.Lattice
import MultiAiRouter.Common.Json.Value
import MultiAiRouter.Dataplane.UsageRecords
import MultiAiRouter.Usage.ResponseFraming

/-!
# What is observed of a response

The frames of a response are read for the tokens they report and for how the response ended. A sample that is
malformed or out of range leaves the counts as they were.
-/

namespace MultiAiRouter.Usage

open Common Dataplane Translate.Sse

section Reading

/-- Persisted counts: uncached input plus separately priced cache components. -/
structure TokenCounts where
  tokensIn : ℤ := 0
  tokensOut : ℤ := 0
  cacheReadTokens : ℤ := 0
  cacheWriteTokens : ℤ := 0
  deriving DecidableEq

/-- The greatest count a column takes. -/
def maximumCount : ℤ := 2147483647

/-- A whole number in the range of a count. -/
def countOf : Value → Option ℤ
  | .number (.finite value) => if value.den = 1 ∧ 0 ≤ value.num ∧ value.num ≤ maximumCount then some value.num else none
  | _ => none

/-- The value, unless it is `null`. -/
def present : Option Value → Option Value
  | some .null => none
  | value => value

/-- What the frame says it is: its own `type`, or the name of the event. A `type` that is no text names nothing. -/
def frameType (root : Option Record) (event : Option Text) : Option Text :=
  match present (root.bind fun record => record.get (asciiUnits "type")) with
  | none => event
  | some value => value.asString

/-- The object that carries the usage. -/
def usageParent (dialect : Dialect) (root : Option Record) (type : Option Text) : Option Record :=
  match dialect with
  | .anthropic =>
    if type = some (asciiUnits "message_start") then
      (root.bind fun record => record.get (asciiUnits "message")).bind Value.asRecord
    else root
  | .openaiResponses =>
    if type.any (asciiUnits "response.").isPrefixOf then
      (root.bind fun record => record.get (asciiUnits "response")).bind Value.asRecord
    else root
  | .openaiChat => root

/-- The usage a frame states. -/
def statedUsage (dialect : Dialect) (payload : Value) (event : Option Text) : Option Value :=
  present <| (usageParent dialect payload.asRecord (frameType payload.asRecord event)).bind fun parent =>
    parent.get (asciiUnits "usage")

/-- The fields of a sample. -/
structure UsageFields where
  input : Option Value
  output : Option Value
  cache : Option Value
  write : Option Value

def UsageFields.all (fields : UsageFields) : List (Option Value) :=
  [fields.input, fields.output, fields.cache, fields.write]

def inputField (dialect : Dialect) : Text :=
  asciiUnits (if dialect = .openaiChat then "prompt_tokens" else "input_tokens")

def outputField (dialect : Dialect) : Text :=
  asciiUnits (if dialect = .openaiChat then "completion_tokens" else "output_tokens")

def detailsField (dialect : Dialect) : Text :=
  asciiUnits (if dialect = .openaiChat then "prompt_tokens_details" else "input_tokens_details")

/-- The fields of a usage object, unless its details are no object. -/
def readFields (dialect : Dialect) (usage : Record) : Option UsageFields :=
  let stated := usage.get (detailsField dialect)
  let details := stated.bind Value.asRecord
  if dialect = .anthropic then
    some {
      input := usage.get (inputField dialect)
      output := usage.get (outputField dialect)
      cache := usage.get (asciiUnits "cache_read_input_tokens")
      write := usage.get (asciiUnits "cache_creation_input_tokens") }
  else if (present stated).isSome && details.isNone then none
  else
    some {
      input := usage.get (inputField dialect)
      output := usage.get (outputField dialect)
      cache :=
        match present (details.bind fun record => record.get (asciiUnits "cached_tokens")) with
        | some value => some value
        | none => if dialect = .openaiChat then usage.get (asciiUnits "prompt_cache_hit_tokens") else none
      write := details.bind fun record => record.get (asciiUnits "cache_write_tokens") }

/-- What a frame makes of the counts. -/
structure UsageReading where
  counts : TokenCounts
  invalid : Bool
  deriving DecidableEq

/-- A complete sample of an OpenAI dialect: the stated input includes both cache components. -/
def readComplete (previous : TokenCounts) (input output cache write : Option ℤ) : UsageReading :=
  let cached := cache.getD 0 + write.getD 0
  match input with
  | none => ⟨previous, true⟩
  | some input =>
    if input < cached then ⟨previous, true⟩
    else
      ⟨{ tokensIn := input - cached, tokensOut := output.getD 0, cacheReadTokens := cache.getD 0
         cacheWriteTokens := write.getD 0 }, false⟩

/-- A sample of the Anthropic dialect: `message_start` is complete, a delta restates what it names. -/
def readPartial (previous : TokenCounts) (type : Option Text) (input output cache write : Option ℤ) : UsageReading :=
  if input = none ∧ (cache ≠ none ∨ write ≠ none) then ⟨previous, true⟩
  else
    let bundle := type = some (asciiUnits "message_start") ∧ input ≠ none
    ⟨{ tokensIn := input.getD previous.tokensIn
       tokensOut := max (output.getD 0) previous.tokensOut
       cacheReadTokens := cache.getD (if bundle then 0 else previous.cacheReadTokens)
       cacheWriteTokens := write.getD (if bundle then 0 else previous.cacheWriteTokens) }, false⟩

/-- Read the usage a frame states. -/
def readResponseUsage (dialect : Dialect) (payload : Value) (event : Option Text) (previous : TokenCounts) :
    UsageReading :=
  match statedUsage dialect payload event with
  | none => ⟨previous, false⟩
  | some usage =>
    match usage.asRecord.bind (readFields dialect) with
    | none => ⟨previous, true⟩
    | some fields =>
      if fields.all.any fun field => field.any fun value => (countOf value).isNone then ⟨previous, true⟩
      else if fields.all.all Option.isNone then ⟨previous, false⟩
      else
        let input := fields.input.bind countOf
        let output := fields.output.bind countOf
        let cache := fields.cache.bind countOf
        let write := fields.write.bind countOf
        if dialect = .anthropic then
          readPartial previous (frameType payload.asRecord event) input output cache write
        else readComplete previous input output cache write

end Reading

section Terminal

/-- What an upstream's failure is about. -/
inductive UpstreamFailureKind
  | rateLimited
  | creditsExhausted
  | auth
  | invalidRequest
  | modelUnsupported
  | serverError
  | overloaded
  | staleSession
  | busySession
  | subprocessCrash
  | unknown
  deriving DecidableEq

/-- A failure in the router's words; what a rate limit says is a parameter. -/
structure FailureClassification (RateLimit : Type) where
  kind : UpstreamFailureKind
  status : ℕ
  retryable : Bool
  signal : Text
  message : Option Text := none
  rateLimit : Option RateLimit := none
  deriving DecidableEq

/-- How a response ended, as far as its frames say. -/
inductive ResponseTerminal
  | none
  | completed
  | explicitError
  | explicitIncomplete
  deriving DecidableEq

inductive IncompleteReason
  | maxOutputTokens
  | contentFilter
  | unknown
  deriving DecidableEq

/-- What one frame says of the end. -/
structure TerminalReading (RateLimit : Type) where
  terminal : ResponseTerminal := .none
  failure : Option (FailureClassification RateLimit) := none
  incompleteReason : Option IncompleteReason := none
  deriving DecidableEq

variable {RateLimit : Type}

def protocolFailure (signal : Text) : FailureClassification RateLimit :=
  { kind := .serverError, status := 200, retryable := true, signal }

/-- The member of this name, where it is an object. -/
def memberObject (record : Record) (name : String) : Option Record :=
  (record.get (asciiUnits name)).bind Value.asRecord

/-- The member of this name, where it is a text. -/
def memberText (record : Record) (name : String) : Option Text := (record.get (asciiUnits name)).bind Value.asString

/-- How the Responses dialect ends, by the kind of the event or by the status of the response. -/
def readResponsesTerminal (payload : Record) (type : Option Text) : TerminalReading RateLimit :=
  let response := (memberObject payload "response").getD payload
  let status := memberText response "status"
  if type = some (asciiUnits "response.failed") ∨ status = some (asciiUnits "failed") then
    { terminal := .explicitError, failure := some (protocolFailure (asciiUnits "protocol:response-failed")) }
  else if type = some (asciiUnits "response.incomplete") ∨ status = some (asciiUnits "incomplete") then
    let reason := (memberObject response "incomplete_details").bind fun details => memberText details "reason"
    { terminal := .explicitIncomplete
      incompleteReason := some <|
        if reason = some (asciiUnits "max_output_tokens") then .maxOutputTokens
        else if reason = some (asciiUnits "content_filter") then .contentFilter
        else .unknown }
  else if type = some (asciiUnits "response.completed") ∨ status = some (asciiUnits "completed") then
    { terminal := .completed }
  else {}

/-- What a frame says of the end, in its dialect. -/
def readResponseTerminal (dialect : Dialect) (body : Value) (event : Option Text) : TerminalReading RateLimit :=
  match body.asRecord with
  | none => {}
  | some payload =>
    let type := frameType (some payload) event
    let topError := memberObject payload "error"
    let failed : Bool :=
      match dialect with
      | .openaiChat => topError.isSome
      | .anthropic => type = some (asciiUnits "error") && topError.isSome
      | .openaiResponses => type = some (asciiUnits "response.failed") || type = some (asciiUnits "error")
    if failed then
      { terminal := .explicitError, failure := some (protocolFailure (asciiUnits "protocol:explicit-error")) }
    else
      match dialect with
      | .anthropic => if type = some (asciiUnits "message_stop") then { terminal := .completed } else {}
      | .openaiResponses => readResponsesTerminal payload type
      | .openaiChat => {}

end Terminal

section Observer

variable {RateLimit : Type}

inductive ObservedOperation
  | messages
  | countTokens
  | embeddings
  deriving DecidableEq

/-- What an observer is made for. -/
structure ResponseObservationSpec (RateLimit : Type) where
  dialect : Dialect
  operation : ObservedOperation
  /-- The driver wants a stream to say that it is complete. -/
  requireCompletion : Bool := false
  inspectPayload : Value → Option Text → Option (FailureClassification RateLimit) := fun _ _ => none

/-- What has been observed. -/
structure ResponseObservationFacts (RateLimit : Type) where
  counts : TokenCounts := {}
  usageInvalid : Bool := false
  evidenceUnavailable : Bool := false
  terminal : ResponseTerminal := .none
  failure : Option (FailureClassification RateLimit) := none
  incompleteReason : Option IncompleteReason := none
  provider : Option (FailureClassification RateLimit) := none

namespace ResponseObservationFacts

variable (spec : ResponseObservationSpec RateLimit) (facts : ResponseObservationFacts RateLimit)

/-- The usage of a frame; a count of tokens bills none. -/
def takeUsage (payload : Value) (event : Option Text) : ResponseObservationFacts RateLimit :=
  if spec.operation = .countTokens then facts
  else
    let reading := readResponseUsage spec.dialect payload event facts.counts
    { facts with counts := reading.counts, usageInvalid := facts.usageInvalid || reading.invalid }

/-- The end a frame tells of: the first explicit error stays. -/
def takeTerminal (payload : Value) (event : Option Text) : ResponseObservationFacts RateLimit :=
  let observed : TerminalReading RateLimit := readResponseTerminal spec.dialect payload event
  let classified := spec.inspectPayload payload event
  if facts.terminal = .explicitError then facts
  else
    match classified.orElse fun _ => observed.failure with
    | some detected =>
      { facts with
        terminal := .explicitError
        failure := some { detected with message := none, rateLimit := none }
        provider := classified.orElse fun _ => facts.provider
        incompleteReason := none }
    | none =>
      if observed.terminal = .explicitIncomplete then
        { facts with terminal := .explicitIncomplete, incompleteReason := observed.incompleteReason }
      else if observed.terminal = .completed ∧ facts.terminal = .none then { facts with terminal := .completed }
      else facts

/-- What the framing reports. -/
def take : FramingReport Value → ResponseObservationFacts RateLimit
  | .payload body event => (facts.takeUsage spec body event).takeTerminal spec body event
  | .done =>
    if spec.dialect = .openaiChat ∧ facts.terminal = .none then { facts with terminal := .completed } else facts
  | .unavailable => { facts with evidenceUnavailable := true }

/-- The stream is over, and had to say that it is complete. -/
def ended (media : Media) : ResponseObservationFacts RateLimit :=
  if spec.operation = .messages ∧ media = .eventStream ∧ spec.requireCompletion = true ∧ facts.terminal = .none ∧
      facts.evidenceUnavailable = false then
    { facts with
      terminal := .explicitIncomplete
      failure := some (protocolFailure (asciiUnits "protocol:missing-completion"))
      incompleteReason := some .unknown }
  else facts

end ResponseObservationFacts

/-- What has been observed after these reports. -/
def observed (spec : ResponseObservationSpec RateLimit) (reports : List (FramingReport Value)) :
    ResponseObservationFacts RateLimit :=
  reports.foldl (ResponseObservationFacts.take spec) {}

variable {Scanner : Type}

/-- What a running stream has told so far. -/
def snapshot (spec : ResponseObservationSpec RateLimit) (input : FramingInput Scanner Value)
    (chunks : List (List UInt8)) : ResponseObservationFacts RateLimit :=
  observed spec (chunks.foldl (ResponseFraming.observe input) {}).reports

/-- What the whole body told. -/
def finish (spec : ResponseObservationSpec RateLimit) (input : FramingInput Scanner Value)
    (chunks : List (List UInt8)) : ResponseObservationFacts RateLimit :=
  (observed spec (framingReports input chunks)).ended spec input.media

end Observer

section Counters

variable {dialect : Dialect} {payload usage : Value} {event type : Option Text} {previous : TokenCounts}
  {input output cache write : Option ℤ} {fields : UsageFields} {RateLimit : Type}

/-- The count fits its column. -/
def Fits (count : ℤ) : Prop := 0 ≤ count ∧ count ≤ maximumCount

/-- Every count fits its column. -/
structure TokenCounts.InRange (counts : TokenCounts) : Prop where
  tokensIn : Fits counts.tokensIn
  tokensOut : Fits counts.tokensOut
  cacheReadTokens : Fits counts.cacheReadTokens
  cacheWriteTokens : Fits counts.cacheWriteTokens

/-- The usage is no object, its details are no object, or a field it states is no count. -/
def MalformedUsage (dialect : Dialect) (usage : Value) : Prop :=
  ∀ record, usage.asRecord = some record → ∀ fields, readFields dialect record = some fields →
    ∃ value, some value ∈ fields.all ∧ countOf value = none

theorem fits_zero : Fits 0 := ⟨by decide, by decide⟩

theorem countOf_fits {value : Value} {count : ℤ} (h : countOf value = some count) : Fits count := by
  unfold countOf at h
  split at h
  · split_ifs at h with hrange
    obtain rfl := Option.some.inj h
    exact hrange.2
  · cases h

theorem fits_bind {field : Option Value} {count : ℤ} (h : field.bind countOf = some count) : Fits count := by
  obtain ⟨value, -, hvalue⟩ := Option.bind_eq_some_iff.mp h
  exact countOf_fits hvalue

theorem fits_getD {stated : Option ℤ} {kept : ℤ} (hstated : ∀ count, stated = some count → Fits count)
    (hkept : Fits kept) : Fits (stated.getD kept) := by
  cases stated with
  | none => exact hkept
  | some count => exact hstated count rfl

/-- A complete sample adds up to the input it states, or changes nothing. -/
theorem readComplete_spec (previous : TokenCounts) (input output cache write : Option ℤ) :
    ((readComplete previous input output cache write).invalid = true ∧
        (readComplete previous input output cache write).counts = previous) ∨
      ∃ stated, input = some stated ∧ cache.getD 0 + write.getD 0 ≤ stated ∧
        readComplete previous input output cache write =
          ⟨{ tokensIn := stated - (cache.getD 0 + write.getD 0), tokensOut := output.getD 0
             cacheReadTokens := cache.getD 0, cacheWriteTokens := write.getD 0 }, false⟩ := by
  unfold readComplete
  cases input with
  | none => exact .inl ⟨rfl, rfl⟩
  | some stated =>
    dsimp only
    split_ifs with hless
    · exact .inl ⟨rfl, rfl⟩
    · exact .inr ⟨stated, rfl, by omega, rfl⟩

/-- A whole sample is in range. -/
theorem readComplete_inRange (hprevious : previous.InRange) (hinput : ∀ count, input = some count → Fits count)
    (houtput : ∀ count, output = some count → Fits count) (hcache : ∀ count, cache = some count → Fits count)
    (hwrite : ∀ count, write = some count → Fits count) :
    (readComplete previous input output cache write).counts.InRange := by
  rcases readComplete_spec previous input output cache write with ⟨-, hsame⟩ | ⟨stated, hstated, hle, hread⟩
  · rw [hsame]
    exact hprevious
  · have hread' := fits_getD hcache fits_zero
    have hwritten := fits_getD hwrite fits_zero
    have hwhole := hinput stated hstated
    rw [hread]
    refine ⟨?_, fits_getD houtput fits_zero, hread', hwritten⟩
    show Fits (stated - (cache.getD 0 + write.getD 0))
    unfold Fits at hread' hwritten hwhole ⊢
    omega

/-- A partial sample is in range. -/
theorem readPartial_inRange (hprevious : previous.InRange) (hinput : ∀ count, input = some count → Fits count)
    (houtput : ∀ count, output = some count → Fits count) (hcache : ∀ count, cache = some count → Fits count)
    (hwrite : ∀ count, write = some count → Fits count) :
    (readPartial previous type input output cache write).counts.InRange := by
  unfold readPartial
  split_ifs with hinvalid
  · exact hprevious
  · refine ⟨fits_getD hinput hprevious.tokensIn, ?_, fits_getD hcache ?_, fits_getD hwrite ?_⟩
    · rcases max_choice (output.getD 0) previous.tokensOut with hmax | hmax
      · dsimp only
        rw [hmax]
        exact fits_getD houtput fits_zero
      · dsimp only
        rw [hmax]
        exact hprevious.tokensOut
    · split_ifs
      · exact fits_zero
      · exact hprevious.cacheReadTokens
    · split_ifs
      · exact fits_zero
      · exact hprevious.cacheWriteTokens

/-- The counts are kept, or the sample is well formed and is read in its dialect. -/
theorem readResponseUsage_cases (dialect : Dialect) (payload : Value) (event : Option Text) (previous : TokenCounts) :
    ((readResponseUsage dialect payload event previous).counts = previous ∧
        (∀ usage, statedUsage dialect payload event = some usage → MalformedUsage dialect usage →
          (readResponseUsage dialect payload event previous).invalid = true)) ∨
      ∃ usage record fields, statedUsage dialect payload event = some usage ∧ usage.asRecord = some record ∧
        readFields dialect record = some fields ∧ (∀ value, some value ∈ fields.all → countOf value ≠ none) ∧
        readResponseUsage dialect payload event previous =
          if dialect = .anthropic then
            readPartial previous (frameType payload.asRecord event) (fields.input.bind countOf)
              (fields.output.bind countOf) (fields.cache.bind countOf) (fields.write.bind countOf)
          else
            readComplete previous (fields.input.bind countOf) (fields.output.bind countOf)
              (fields.cache.bind countOf) (fields.write.bind countOf) := by
  unfold readResponseUsage
  cases hstated : statedUsage dialect payload event with
  | none => exact .inl ⟨rfl, fun usage husage => by cases husage⟩
  | some usage =>
    dsimp only
    cases hrecord : usage.asRecord with
    | none => exact .inl ⟨rfl, fun _ _ _ => rfl⟩
    | some record =>
      rw [Option.bind_some]
      cases hfields : readFields dialect record with
      | none => exact .inl ⟨rfl, fun _ _ _ => rfl⟩
      | some fields =>
        dsimp only
        have hmalformed : (fields.all.any fun field => field.any fun value => (countOf value).isNone) = true ↔
            ∃ value, some value ∈ fields.all ∧ countOf value = none := by
          rw [List.any_eq_true]
          constructor
          · rintro ⟨field, hfield, hany⟩
            cases field with
            | none => cases hany
            | some value => exact ⟨value, hfield, Option.isNone_iff_eq_none.mp hany⟩
          · rintro ⟨value, hvalue, hnone⟩
            exact ⟨some value, hvalue, Option.isNone_iff_eq_none.mpr hnone⟩
        by_cases hany : (fields.all.any fun field => field.any fun value => (countOf value).isNone) = true
        · rw [if_pos hany]
          exact .inl ⟨rfl, fun _ _ _ => rfl⟩
        · rw [if_neg hany]
          by_cases hall : fields.all.all Option.isNone = true
          · rw [if_pos hall]
            refine .inl ⟨rfl, fun other hother hbad => ?_⟩
            obtain rfl := Option.some.inj hother
            exact absurd (hmalformed.mpr (hbad record hrecord fields hfields)) hany
          · rw [if_neg hall]
            refine .inr ⟨usage, record, fields, rfl, hrecord, hfields, fun value hvalue hnone => ?_, rfl⟩
            exact hany (hmalformed.mpr ⟨value, hvalue, hnone⟩)

/-- A sample of any dialect is in range. -/
theorem readResponseUsage_inRange (hprevious : previous.InRange) :
    (readResponseUsage dialect payload event previous).counts.InRange := by
  rcases readResponseUsage_cases dialect payload event previous with
    ⟨hsame, -⟩ | ⟨usage, record, fields, -, -, -, -, hread⟩
  · rw [hsame]
    exact hprevious
  · rw [hread]
    split_ifs
    · exact readPartial_inRange hprevious (fun _ => fits_bind) (fun _ => fits_bind) (fun _ => fits_bind)
        fun _ => fits_bind
    · exact readComplete_inRange hprevious (fun _ => fits_bind) (fun _ => fits_bind) (fun _ => fits_bind)
        fun _ => fits_bind

/-- A malformed sample is told and changes nothing, and so is every sample that is told invalid. -/
theorem readResponseUsage_malformed : ((readResponseUsage dialect payload event previous).invalid = true →
        (readResponseUsage dialect payload event previous).counts = previous) ∧
      ∀ usage, statedUsage dialect payload event = some usage → MalformedUsage dialect usage →
        readResponseUsage dialect payload event previous = ⟨previous, true⟩ := by
  rcases readResponseUsage_cases dialect payload event previous with
    ⟨hsame, htold⟩ | ⟨usage, record, fields, hstated, hrecord, hfields, hcounts, hread⟩
  · refine ⟨fun _ => hsame, fun usage husage hbad => ?_⟩
    have hinvalid := htold usage husage hbad
    generalize readResponseUsage dialect payload event previous = reading at hsame hinvalid
    obtain ⟨counts, invalid⟩ := reading
    obtain rfl : counts = previous := hsame
    obtain rfl : invalid = true := hinvalid
    rfl
  · constructor
    · rw [hread]
      split_ifs
      · unfold readPartial
        split_ifs
        · exact fun _ => rfl
        · exact fun hinvalid => absurd hinvalid (by simp)
      · rcases readComplete_spec previous (fields.input.bind countOf) (fields.output.bind countOf)
          (fields.cache.bind countOf) (fields.write.bind countOf) with ⟨-, hsame⟩ | ⟨stated, -, -, hcomplete⟩
        · exact fun _ => hsame
        · rw [hcomplete]
          exact fun hinvalid => absurd hinvalid (by simp)
    · intro other hother hbad
      obtain rfl : usage = other := Option.some.inj (hstated.symm.trans hother)
      obtain ⟨value, hvalue, hnone⟩ := hbad record hrecord fields hfields
      exact absurd hnone (hcounts value hvalue)

/-- The input of an OpenAI sample. -/
def reportedInput (dialect : Dialect) (payload : Value) (event : Option Text) : Option ℤ :=
  (((statedUsage dialect payload event).bind Value.asRecord).bind fun usage => usage.get (inputField dialect)).bind
    countOf

theorem readFields_input {record : Record} (h : readFields dialect record = some fields) :
    fields.input = record.get (inputField dialect) := by
  unfold readFields at h
  dsimp only at h
  split_ifs at h
  all_goals
    obtain rfl := Option.some.inj h
    rfl

/-- What a sample counts as cached, read and written together. -/
def cachedPart (dialect : Dialect) (usage : Value) : ℤ :=
  match usage.asRecord.bind (readFields dialect) with
  | none => 0
  | some fields => (fields.cache.bind countOf).getD 0 + (fields.write.bind countOf).getD 0

/-- A well-formed OpenAI sample whose cached part is within its input is taken and adds up to that input. -/
theorem readResponseUsage_sum (hdialect : dialect ≠ .anthropic) {reported : ℤ}
    (husage : statedUsage dialect payload event = some usage)
    (hreported : reportedInput dialect payload event = some reported) (hformed : ¬MalformedUsage dialect usage)
    (hcached : cachedPart dialect usage ≤ reported) :
    let reading := readResponseUsage dialect payload event previous
    reading.invalid = false ∧
      reading.counts.tokensIn + reading.counts.cacheReadTokens + reading.counts.cacheWriteTokens = reported := by
  unfold MalformedUsage at hformed
  push Not at hformed
  obtain ⟨record, hobject, fields, hfields, hcounts⟩ := hformed
  unfold reportedInput at hreported
  rw [husage, Option.bind_some, hobject, Option.bind_some, ← readFields_input hfields] at hreported
  unfold cachedPart at hcached
  rw [hobject, Option.bind_some, hfields] at hcached
  dsimp only at hcached ⊢
  have hany : ¬(fields.all.any fun field => field.any fun value => (countOf value).isNone) = true := by
    rw [List.any_eq_true]
    rintro ⟨field, hfield, hnone⟩
    cases field with
    | none => cases hnone
    | some value => exact hcounts value hfield (Option.isNone_iff_eq_none.mp hnone)
  have hnotAll : ¬fields.all.all Option.isNone = true := by
    obtain ⟨value, hinput, -⟩ := Option.bind_eq_some_iff.mp hreported
    simp [UsageFields.all, hinput]
  unfold readResponseUsage
  rw [husage]
  dsimp only
  rw [hobject, Option.bind_some, hfields]
  dsimp only
  rw [if_neg hany, if_neg hnotAll, if_neg hdialect, hreported]
  unfold readComplete
  dsimp only
  rw [if_neg (not_lt.mpr hcached)]
  exact ⟨rfl, by dsimp only; omega⟩

/-- The output of an Anthropic stream never shrinks. -/
theorem readResponseUsage_output :
    previous.tokensOut ≤ (readResponseUsage .anthropic payload event previous).counts.tokensOut := by
  rcases readResponseUsage_cases .anthropic payload event previous with
    ⟨hsame, -⟩ | ⟨usage, record, fields, -, -, -, -, hread⟩
  · rw [hsame]
  · rw [hread, if_pos rfl]
    unfold readPartial
    split_ifs
    · exact le_refl _
    · exact le_max_right _ _

end Counters

section Runs

variable {RateLimit Scanner : Type} {spec : ResponseObservationSpec RateLimit}
  {facts : ResponseObservationFacts RateLimit}

theorem takeTerminal_counts (payload : Value) (event : Option Text) :
    (facts.takeTerminal spec payload event).counts = facts.counts := by
  unfold ResponseObservationFacts.takeTerminal
  dsimp only
  split
  · rfl
  · split
    · rfl
    · split
      · rfl
      · split <;> rfl

theorem ended_counts (media : Media) : (facts.ended spec media).counts = facts.counts := by
  unfold ResponseObservationFacts.ended
  split_ifs <;> rfl

/-- One report keeps the counts, or reads a sample of its payload. -/
theorem take_counts (report : FramingReport Value) : (facts.take spec report).counts = facts.counts ∨
      ∃ payload event, report = .payload payload event ∧ spec.operation ≠ .countTokens ∧
        (facts.take spec report).counts = (readResponseUsage spec.dialect payload event facts.counts).counts := by
  cases report with
  | payload body event =>
    have hterminal := @takeTerminal_counts _ spec (facts.takeUsage spec body event) body event
    by_cases hcount : spec.operation = .countTokens
    · left
      exact hterminal.trans (by rw [ResponseObservationFacts.takeUsage, if_pos hcount])
    · right
      exact ⟨body, event, rfl, hcount, hterminal.trans (by rw [ResponseObservationFacts.takeUsage, if_neg hcount])⟩
  | done =>
    left
    unfold ResponseObservationFacts.take
    dsimp only
    split_ifs <;> rfl
  | unavailable => exact .inl rfl

/-- What was observed is in range. -/
theorem observed_inRange (reports : List (FramingReport Value)) : (observed spec reports).counts.InRange := by
  unfold observed
  induction reports using List.reverseRecOn with
  | nil => exact ⟨fits_zero, fits_zero, fits_zero, fits_zero⟩
  | append_singleton reports report ih =>
    rw [List.foldl_append, List.foldl_cons, List.foldl_nil]
    rcases @take_counts _ spec (reports.foldl (ResponseObservationFacts.take spec) {}) report with
      hsame | ⟨payload, event, -, -, hread⟩
    · rw [hsame]
      exact ih
    · rw [hread]
      exact readResponseUsage_inRange ih

/-- Over an Anthropic stream the output never shrinks. -/
theorem observed_output (hdialect : spec.dialect = .anthropic) (earlier later : List (FramingReport Value)) :
    (observed spec earlier).counts.tokensOut ≤ (observed spec (earlier ++ later)).counts.tokensOut := by
  unfold observed
  rw [List.foldl_append]
  generalize earlier.foldl (ResponseObservationFacts.take spec) {} = facts
  induction later generalizing facts with
  | nil => exact le_refl _
  | cons report rest ih =>
    rw [List.foldl_cons]
    refine le_trans ?_ (ih (facts.take spec report))
    rcases @take_counts _ spec facts report with hsame | ⟨payload, event, -, -, hread⟩
    · rw [hsame]
    · rw [hread, hdialect]
      exact readResponseUsage_output

/-- The counters of any sequence of frames fit their columns. A malformed sample leaves them, a well-formed
OpenAI sample with its cached part within its input is taken and adds up to that input, and over an Anthropic
stream the output never shrinks. -/
theorem usage_counters_consistent (spec : ResponseObservationSpec RateLimit) (frames : List (FramingReport Value)) :
    (observed spec frames).counts.InRange ∧
    (∀ payload event, (observed spec (frames ++ [.payload payload event])).counts =
        (if spec.operation = .countTokens then (observed spec frames).counts
        else (readResponseUsage spec.dialect payload event (observed spec frames).counts).counts) ∧
      ((readResponseUsage spec.dialect payload event (observed spec frames).counts).invalid = true →
        (observed spec (frames ++ [.payload payload event])).counts = (observed spec frames).counts) ∧
      (∀ usage, statedUsage spec.dialect payload event = some usage → MalformedUsage spec.dialect usage →
        (observed spec (frames ++ [.payload payload event])).counts = (observed spec frames).counts) ∧
      (spec.dialect ≠ .anthropic → spec.operation ≠ .countTokens → ∀ usage reported,
        statedUsage spec.dialect payload event = some usage →
        reportedInput spec.dialect payload event = some reported → ¬MalformedUsage spec.dialect usage →
        cachedPart spec.dialect usage ≤ reported →
          (readResponseUsage spec.dialect payload event (observed spec frames).counts).invalid = false ∧
          (observed spec (frames ++ [.payload payload event])).counts.tokensIn +
              (observed spec (frames ++ [.payload payload event])).counts.cacheReadTokens +
              (observed spec (frames ++ [.payload payload event])).counts.cacheWriteTokens = reported)) ∧
    (spec.dialect = .anthropic → ∀ later,
      (observed spec frames).counts.tokensOut ≤ (observed spec (frames ++ later)).counts.tokensOut) ∧
    ∀ (Scanner : Type) (input : FramingInput Scanner Value) (chunks : List (List UInt8)),
      (snapshot spec input chunks).counts.InRange ∧ (finish spec input chunks).counts.InRange := by
  have hnext (payload : Value) (event : Option Text) : (observed spec (frames ++ [.payload payload event])).counts =
      if spec.operation = .countTokens then (observed spec frames).counts
      else (readResponseUsage spec.dialect payload event (observed spec frames).counts).counts := by
    unfold observed
    rw [List.foldl_append, List.foldl_cons, List.foldl_nil]
    generalize frames.foldl (ResponseObservationFacts.take spec) {} = facts
    refine takeTerminal_counts payload event |>.trans ?_
    unfold ResponseObservationFacts.takeUsage
    split_ifs <;> rfl
  refine ⟨observed_inRange frames, fun payload event => ⟨hnext payload event, fun hinvalid => ?_, ?_, ?_⟩,
    fun hdialect later => observed_output hdialect frames later, fun Scanner input chunks => ⟨observed_inRange _, ?_⟩⟩
  · rw [hnext]
    split_ifs
    · rfl
    · exact readResponseUsage_malformed.1 hinvalid
  · intro usage husage hbad
    rw [hnext, readResponseUsage_malformed.2 usage husage hbad]
    split_ifs <;> rfl
  · intro hdialect hoperation usage reported husage hreported hformed hcached
    rw [hnext, if_neg hoperation]
    exact readResponseUsage_sum hdialect husage hreported hformed hcached
  · unfold finish
    rw [ended_counts]
    exact observed_inRange _

/-- A chat sample of ten input tokens, four of them read from the cache, is taken as ten. -/
theorem usage_counters_consistent_chat :
    let count (value : ℚ) : Value := .number (.finite value)
    let sample : Value := .object [(asciiUnits "usage", .object [(asciiUnits "prompt_tokens", count 10),
      (asciiUnits "prompt_tokens_details", .object [(asciiUnits "cached_tokens", count 4)])])]
    let spec : ResponseObservationSpec Unit := { dialect := .openaiChat, operation := .messages }
    let counts := (observed spec [.payload sample none]).counts
    counts.tokensIn + counts.cacheReadTokens + counts.cacheWriteTokens = 10 := by
  intro count sample spec counts
  have hinput : countOf (count 10) = some 10 := by simp [countOf, count, maximumCount]
  have hcached : countOf (count 4) = some 4 := by simp [countOf, count, maximumCount]
  have hformed : ¬MalformedUsage .openaiChat (.object [(asciiUnits "prompt_tokens", count 10),
      (asciiUnits "prompt_tokens_details", .object [(asciiUnits "cached_tokens", count 4)])]) := by
    intro hbad
    obtain ⟨value, hmem, hnone⟩ := hbad _ rfl
      ⟨some (count 10), none, some (count 4), none⟩ (by rfl)
    simp only [UsageFields.all, List.mem_cons, Option.some.injEq, reduceCtorEq, List.not_mem_nil, or_false,
      false_or] at hmem
    rcases hmem with rfl | rfl
    · simp [hinput] at hnone
    · simp [hcached] at hnone
  have hreported : reportedInput .openaiChat sample none = some 10 := by
    unfold reportedInput
    show (some (count 10)).bind countOf = some 10
    exact hinput
  have hpart : cachedPart .openaiChat (.object [(asciiUnits "prompt_tokens", count 10),
      (asciiUnits "prompt_tokens_details", .object [(asciiUnits "cached_tokens", count 4)])]) ≤ 10 := by
    show (countOf (count 4)).getD 0 + 0 ≤ 10
    rw [hcached]
    decide
  exact (((usage_counters_consistent spec []).2.1 sample none).2.2.2 (by decide) (by decide) _ 10 (by rfl)
    hreported hformed hpart).2

end Runs

end MultiAiRouter.Usage
