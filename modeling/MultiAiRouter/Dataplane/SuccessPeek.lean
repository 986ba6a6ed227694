import Mathlib.Data.Stream.Init
import MultiAiRouter.Usage.ResponseObserver

/-!
# A wall inside a success

`peekSuccess`: the front of a success body is read before the response is committed. The first frame that is no
preamble decides: an error is a wall, anything else commits, and what was read is replayed. The peek also ends at
its time, at a keepalive line, at the byte limit and at the end of the body.

A reader gets the chunks, and then the end or the fault over and over.
-/

namespace MultiAiRouter.Dataplane.SuccessWall

open Common Usage Translate.Sse

section Bodies

/-- What a read of a body comes to. -/
inductive ReadResult (Fault : Type)
  | done
  | value (bytes : List UInt8)
  | failed (fault : Fault)
  deriving DecidableEq

/-- A body: its chunks, and the fault it breaks with, unless it ends. -/
structure Body (Fault : Type) where
  chunks : List (List UInt8)
  fault : Option Fault := none
  deriving DecidableEq

/-- The reader of a body, which has these chunks still to come. -/
structure BodyReader (Fault : Type) extends Body Fault where
  cancelled : Bool := false
  deriving DecidableEq

variable {Fault : Type}

def Body.ending (body : Body Fault) : ReadResult Fault := body.fault.elim .done .failed

def Body.getReader (body : Body Fault) : BodyReader Fault := { body with }

namespace BodyReader

/-- The next read; a reader that was cancelled has nothing more. -/
def read (reader : BodyReader Fault) : ReadResult Fault × BodyReader Fault :=
  if reader.cancelled then (.done, reader)
  else
    match reader.chunks with
    | [] => (reader.ending, reader)
    | bytes :: rest => (.value bytes, { reader with chunks := rest })

def cancel (reader : BodyReader Fault) : BodyReader Fault := { reader with cancelled := true }

end BodyReader

/-- What reading a body over and over comes to. -/
def Body.answers (body : Body Fault) : Stream' (ReadResult Fault) :=
  body.chunks.map .value ++ₛ Stream'.const body.ending

/-- The bytes the peek read, then the rest of the upstream. -/
structure Replay (Fault : Type) where
  held : List (List UInt8)
  carried : Option (ReadResult Fault)
  reader : BodyReader Fault
  ended : Bool

namespace Replay

/-- The client reads. -/
def pull (replay : Replay Fault) : ReadResult Fault × Replay Fault :=
  match replay.held with
  | chunk :: rest => (.value chunk, { replay with held := rest })
  | [] =>
    if replay.ended then (.done, replay)
    else
      match replay.carried with
      | some next => (next, { replay with carried := none })
      | none => (replay.reader.read.1, { replay with reader := replay.reader.read.2 })

/-- What reading the replay over and over comes to. -/
def answers (replay : Replay Fault) : Stream' (ReadResult Fault) := Stream'.corec' pull replay

end Replay

end Bodies

section Peek

variable {Fault Headers Scanner RateLimit : Type}

structure Response (Headers Content : Type) where
  status : ℕ
  statusText : Text
  headers : Headers
  body : Option Content

/-- Who the peek reads for, and what reads a content type, JSON and frames that outgrow the limit. -/
structure SuccessPeekInput (Headers Scanner RateLimit : Type) where
  dialect : Dialect
  inspectPayload : Value → Option Text → Option (FailureClassification RateLimit) := fun _ _ => none
  /-- The driver's reading of a failure of status 200. -/
  classifyFailure : Headers → Value → Option (FailureClassification RateLimit)
  maxBytes : ℕ
  media : Headers → Media
  parseJson : Text → Option Value
  stringify : Value → Text
  salvage : ResponseSalvage Scanner Value

/-- The framing of a response with these headers. -/
def SuccessPeekInput.framing (input : SuccessPeekInput Headers Scanner RateLimit) (headers : Headers) :
    FramingInput Scanner Value where
  media := input.media headers
  maximumBytes := input.maxBytes
  parseJson := input.parseJson
  salvage := input.salvage

/-- The frames that open a response and carry no output. -/
def preamble : Dialect → List Text
  | .anthropic => [asciiUnits "message_start", asciiUnits "ping"]
  | .openaiChat => []
  | .openaiResponses => [asciiUnits "response.created", asciiUnits "response.in_progress"]

/-- The status a wall answers with. -/
def wallStatus : UpstreamFailureKind → ℕ
  | .rateLimited => 429
  | .creditsExhausted => 402
  | .auth => 401
  | .invalidRequest => 400
  | .modelUnsupported => 404
  | .serverError => 503
  | .overloaded => 503
  | .staleSession => 503
  | .busySession => 503
  | .subprocessCrash => 503
  | .unknown => 502

/-- The `type` of an object that has one, or else the name of the event. -/
def payloadType (payload : Value) (event : Option Text) : Option Text :=
  match payload.asRecord.bind fun record => record.get (asciiUnits "type") with
  | some value => value.asString
  | none => event

def isPreamble (dialect : Dialect) (payload : Value) (event : Option Text) : Bool :=
  (payloadType payload event).any fun type => type ∈ preamble dialect

/-- The driver's own reading of a frame, or else the dialect's explicit error in the driver's words. -/
def classifyPayload (input : SuccessPeekInput Headers Scanner RateLimit) (headers : Headers) (payload : Value)
    (event : Option Text) : Option (FailureClassification RateLimit) :=
  match input.inspectPayload payload event with
  | some own => some own
  | none =>
    match (readResponseTerminal input.dialect payload event : TerminalReading RateLimit).failure with
    | none => none
    | some _ =>
      some ((input.classifyFailure headers payload).getD (protocolFailure (asciiUnits "protocol:explicit-error")))

inductive Verdict (RateLimit : Type)
  | commit
  | wall (payload : Value) (classification : FailureClassification RateLimit)

/-- What a report of the framing decides. -/
def decides (input : SuccessPeekInput Headers Scanner RateLimit) (headers : Headers) :
    FramingReport Value → Option (Verdict RateLimit)
  | .payload payload event =>
    match classifyPayload input headers payload event with
    | some wall => some (.wall payload wall)
    | none => if isPreamble input.dialect payload event then none else some .commit
  | .done => some .commit
  | .unavailable => some .commit

/-- The lines of a text that are complete, and the rest; a line feed right after a carriage return ends no line. -/
def splitLines (afterCr : Bool) : Text → List Text × Text
  | [] => ([], [])
  | unit :: rest =>
    if unit = lf ∧ afterCr = true then splitLines false rest
    else
      let (lines, partialLine) := splitLines (unit = cr) rest
      if unit = lf ∨ unit = cr then ([] :: lines, partialLine)
      else
        match lines with
        | [] => ([], unit :: partialLine)
        | line :: more => ((unit :: line) :: more, partialLine)

/-- Everything the peek keeps. -/
structure Peek (Fault Scanner : Type) where
  reader : BodyReader Fault
  held : List (List UInt8) := []
  framing : ResponseFraming Scanner Value := {}
  decoder : TextDecoder := {}
  partialLine : Text := []
  read : ℕ := 0
  ended : Bool := false
  pending : Option (ReadResult Fault) := none

/-- What ends the wait for a read: the read itself, the hold that expires, or the signal. -/
inductive Wake (Fault : Type)
  | read
  | held
  | aborted (reason : Fault)

/-- Where a turn of the loop leaves the peek. -/
inductive Turn (Fault Scanner : Type)
  | again (peek : Peek Fault Scanner)
  | left (peek : Peek Fault Scanner)
  | thrown (reason : Fault) (peek : Peek Fault Scanner)

namespace Peek

variable (input : SuccessPeekInput Headers Scanner RateLimit) (headers : Headers) (peek : Peek Fault Scanner)

def verdict : Option (Verdict RateLimit) := peek.framing.reports.findSome? (decides input headers)

/-- The read that is in flight, or a new one. -/
def request : ReadResult Fault × Peek Fault Scanner :=
  match peek.pending with
  | some next => (next, peek)
  | none => (peek.reader.read.1, { peek with pending := some peek.reader.read.1, reader := peek.reader.read.2 })

/-- The body ended. -/
def finish : Peek Fault Scanner :=
  { peek with pending := none, ended := true, framing := peek.framing.finish (input.framing headers) }

/-- The lines that a chunk completes, and the rest. -/
def completed (chunk : List UInt8) : List Text × Text :=
  splitLines false (peek.partialLine ++ (peek.decoder.decodeStream chunk).2)

/-- A chunk came: it is held, and the frames it completes are judged. -/
def take (chunk : List UInt8) : Turn Fault Scanner :=
  let next :=
    { peek with
      pending := none
      held := peek.held ++ [chunk]
      read := peek.read + chunk.length
      framing := peek.framing.observe (input.framing headers) chunk }
  if (next.verdict input headers).isSome then .left next
  else
    let sse := input.media headers = .eventStream
    let (lines, partialLine) := peek.completed chunk
    let next := if sse then { next with decoder := (peek.decoder.decodeStream chunk).1, partialLine } else next
    -- a keepalive comment is what a client's idle timer runs on
    if sse ∧ lines.any (fun line => line.head? = some colon) = true then .left next
    else if input.maxBytes < next.read then .left next
    else .again next

/-- One turn of the loop. -/
def turn (wake : Wake Fault) : Turn Fault Scanner :=
  let (next, peek) := peek.request
  match wake with
  | .aborted reason => .thrown reason { peek with reader := peek.reader.cancel }
  | .held => .left peek
  | .read =>
    match next with
    | .done => .left (peek.finish input headers)
    | .value chunk => peek.take input headers chunk
    | .failed fault => .thrown fault { peek with reader := peek.reader.cancel }

/-- The loop, as the waits end in this order. -/
def run (peek : Peek Fault Scanner) : List (Wake Fault) → Turn Fault Scanner
  | [] => .again peek
  | wake :: wakes =>
    match peek.turn input headers wake with
    | .again next => next.run wakes
    | turn => turn

end Peek

/-- What the peek comes to, with the reader of the upstream where it is given up. -/
inductive SuccessPeek (Headers Fault RateLimit : Type)
  | waiting
  | thrown (reason : Fault) (reader : BodyReader Fault)
  | clear (response : Response Headers (Replay Fault))
  | wall (classification : FailureClassification RateLimit) (status : ℕ) (bodyText : Text) (reader : BodyReader Fault)

/-- The verdict on a peek that left the loop. -/
def Peek.settle (input : SuccessPeekInput Headers Scanner RateLimit) (response : Response Headers (Body Fault))
    (peek : Peek Fault Scanner) : SuccessPeek Headers Fault RateLimit :=
  match peek.verdict input response.headers with
  | some (.wall payload wall) => .wall wall (wallStatus wall.kind) (input.stringify payload) peek.reader.cancel
  | _ =>
    .clear { response with
      body := some { held := peek.held, carried := peek.pending, reader := peek.reader, ended := peek.ended } }

/-- Read the front of the body; a response without one is clear. -/
def peekSuccess (input : SuccessPeekInput Headers Scanner RateLimit) (response : Response Headers (Body Fault))
    (wakes : List (Wake Fault)) : SuccessPeek Headers Fault RateLimit :=
  match response.body with
  | none => .clear { response with body := none }
  | some body =>
    match Peek.run input response.headers { reader := body.getReader } wakes with
    | .again _ => .waiting
    | .left peek => peek.settle input response
    | .thrown reason peek => .thrown reason peek.reader

end Peek

section Answers

variable {Fault State Other Answer : Type}

/-- Two ways of answering that stay in step give the same answers. -/
theorem corec'_eq_of_steps {first : State → Answer × State} {second : Other → Answer × Other}
    (inStep : State → Other → Prop)
    (hstep : ∀ state other, inStep state other →
      (first state).1 = (second other).1 ∧ inStep (first state).2 (second other).2)
    {state : State} {other : Other} (h : inStep state other) :
    Stream'.corec' first state = Stream'.corec' second other := by
  refine Stream'.eq_of_bisim (fun one two => ∃ state other, inStep state other ∧ one = Stream'.corec' first state ∧
      two = Stream'.corec' second other) ?_ ⟨state, other, h, rfl, rfl⟩
  rintro one two ⟨state, other, hinStep, rfl, rfl⟩
  obtain ⟨hanswer, hnext⟩ := hstep state other hinStep
  rw [Stream'.corec'_eq first, Stream'.corec'_eq second]
  exact ⟨hanswer, _, _, hnext, rfl, rfl⟩

/-- An answer that leaves everything as it is comes over and over. -/
theorem corec'_const {first : State → Answer × State} {state : State} {answer : Answer}
    (h : first state = (answer, state)) : Stream'.corec' first state = Stream'.const answer := by
  refine Stream'.eq_of_bisim (fun one two => one = Stream'.corec' first state ∧ two = Stream'.const answer)
    ?_ ⟨rfl, rfl⟩
  rintro one two ⟨rfl, rfl⟩
  have hunfolded := Stream'.corec'_eq first state
  rw [h] at hunfolded
  have hhead := congrArg Stream'.head hunfolded
  have htail := congrArg Stream'.tail hunfolded
  exact ⟨hhead, htail, rfl⟩

/-- A reader that is not cancelled answers what its body does. -/
theorem BodyReader.answers_eq (reader : BodyReader Fault) (h : reader.cancelled = false) :
    Stream'.corec' BodyReader.read reader = reader.toBody.answers := by
  obtain ⟨⟨chunks, fault⟩, cancelled⟩ := reader
  obtain rfl : cancelled = false := h
  induction chunks with
  | nil => exact corec'_const rfl
  | cons bytes rest ih =>
    rw [Stream'.corec'_eq]
    exact congrArg (Stream'.cons (ReadResult.value bytes)) ih

namespace Replay

/-- What is held comes first. -/
theorem answers_held (replay : Replay Fault) :
    replay.answers = replay.held.map .value ++ₛ { replay with held := [] }.answers := by
  obtain ⟨held, carried, reader, ended⟩ := replay
  induction held with
  | nil => rfl
  | cons chunk rest ih =>
    unfold answers at ih ⊢
    rw [Stream'.corec'_eq]
    exact congrArg (Stream'.cons (ReadResult.value chunk)) ih

/-- With nothing held and nothing carried, the client reads the upstream. -/
theorem answers_reader (reader : BodyReader Fault) :
    ({ held := [], carried := none, reader, ended := false } : Replay Fault).answers =
      Stream'.corec' BodyReader.read reader :=
  corec'_eq_of_steps (fun replay reader => replay = { held := [], carried := none, reader, ended := false })
    (fun _ _ h => by subst h; exact ⟨rfl, rfl⟩) rfl

/-- What is carried comes before the rest of the upstream. -/
theorem answers_carried (next : ReadResult Fault) (reader : BodyReader Fault) :
    ({ held := [], carried := some next, reader, ended := false } : Replay Fault).answers =
      Stream'.cons next (Stream'.corec' BodyReader.read reader) := by
  rw [← answers_reader]
  exact Stream'.corec'_eq _ _

/-- A body that ended during the peek has nothing after what is held. -/
theorem answers_ended (carried : Option (ReadResult Fault)) (reader : BodyReader Fault) :
    ({ held := [], carried, reader, ended := true } : Replay Fault).answers = Stream'.const .done :=
  corec'_const rfl

end Replay

end Answers

section Keeps

variable {Fault Headers Scanner RateLimit : Type} {input : SuccessPeekInput Headers Scanner RateLimit}
  {headers : Headers}
  {body : Body Fault} {peek : Peek Fault Scanner} {chunk : List UInt8}

/-- The frames of the chunks, and of their end where the body ended. -/
def framed (input : SuccessPeekInput Headers Scanner RateLimit) (headers : Headers) (chunks : List (List UInt8))
    (ended : Bool) : ResponseFraming Scanner Value :=
  let framing := chunks.foldl (ResponseFraming.observe (input.framing headers)) {}
  if ended then framing.finish (input.framing headers) else framing

/-- The chunks that are held were read in order, and `source` is the reader that the read in flight was made on. -/
structure Peek.Reads (body : Body Fault) (peek : Peek Fault Scanner) (source : BodyReader Fault) : Prop where
  chunks : body.chunks = peek.held ++ source.chunks
  fault : source.fault = body.fault
  live : source.cancelled = false
  inFlight : peek.pending.elim (peek.reader = source) fun next => source.read = (next, peek.reader)
  whenEnded : peek.ended = true → peek.pending = none ∧ source.chunks = [] ∧ body.fault = none

/-- What the peek keeps true: nothing of the body is lost, and all that is held is framed. -/
structure Peek.Keeps (input : SuccessPeekInput Headers Scanner RateLimit) (headers : Headers) (body : Body Fault)
    (peek : Peek Fault Scanner) : Prop where
  reads : ∃ source, peek.Reads body source
  framing : peek.framing = framed input headers peek.held peek.ended

/-- A chunk that is read is the first one the reader had. -/
theorem BodyReader.read_value {source reader : BodyReader Fault} (hlive : source.cancelled = false)
    (h : source.read = (.value chunk, reader)) :
    source.chunks = chunk :: reader.chunks ∧ reader.fault = source.fault ∧ reader.cancelled = false := by
  obtain ⟨⟨chunks, fault⟩, cancelled⟩ := source
  obtain rfl : cancelled = false := hlive
  cases chunks with
  | nil =>
    cases fault with
    | none => cases h
    | some fault => cases h
  | cons bytes rest =>
    cases h
    exact ⟨rfl, rfl, rfl⟩

/-- A body that is done has nothing more and no fault. -/
theorem BodyReader.read_done {source reader : BodyReader Fault} (hlive : source.cancelled = false)
    (h : source.read = (.done, reader)) : source.chunks = [] ∧ source.fault = none := by
  obtain ⟨⟨chunks, fault⟩, cancelled⟩ := source
  obtain rfl : cancelled = false := hlive
  cases chunks with
  | nil =>
    cases fault with
    | none => exact ⟨rfl, rfl⟩
    | some fault => cases h
  | cons bytes rest => cases h

namespace Peek

/-- A request is in flight on the same reader and holds what was held. -/
theorem request_keeps (h : peek.Keeps input headers body) (hended : peek.ended = false) :
    peek.request.2.Keeps input headers body ∧ peek.request.2.pending = some peek.request.1 ∧
      peek.request.2.ended = false := by
  obtain ⟨⟨source, hreads⟩, hframing⟩ := h
  have hflight := hreads.inFlight
  unfold request
  cases hpending : peek.pending with
  | some next => exact ⟨⟨⟨source, hreads⟩, hframing⟩, hpending, hended⟩
  | none =>
    rw [hpending] at hflight
    obtain rfl : peek.reader = source := hflight
    refine ⟨⟨⟨peek.reader, hreads.chunks, hreads.fault, hreads.live, rfl, fun hover => ?_⟩, hframing⟩, rfl, hended⟩
    exact absurd (hover.symm.trans hended) Bool.noConfusion

/-- A body that ended is framed to its end. -/
theorem finish_keeps (h : peek.Keeps input headers body) (hended : peek.ended = false)
    (hpending : peek.pending = some .done) : (peek.finish input headers).Keeps input headers body := by
  obtain ⟨⟨source, hreads⟩, hframing⟩ := h
  have hflight := hreads.inFlight
  rw [hpending] at hflight
  obtain ⟨hchunks, hfault⟩ := BodyReader.read_done hreads.live hflight
  have hreader : peek.reader = source := by
    have hread : source.read = (source.ending, source) := by simp [BodyReader.read, hreads.live, hchunks]
    exact congrArg Prod.snd (hflight.symm.trans hread)
  refine ⟨⟨source, hreads.chunks, hreads.fault, hreads.live, hreader, fun _ => ⟨rfl, hchunks, ?_⟩⟩, ?_⟩
  · rw [← hreads.fault, hfault]
  · rw [hended] at hframing
    exact congrArg (ResponseFraming.finish (input.framing headers)) hframing

end Peek

/-- What is true where a turn leaves the peek. -/
def Turn.Keeps (input : SuccessPeekInput Headers Scanner RateLimit) (headers : Headers) (body : Body Fault) :
    Turn Fault Scanner → Prop
  | .again peek => peek.Keeps input headers body ∧ peek.ended = false
  | .left peek => peek.Keeps input headers body
  | .thrown _ peek => peek.reader.cancelled = true

namespace Peek

/-- A chunk that came is held, and framed with the others. -/
theorem take_keeps (h : peek.Keeps input headers body) (hended : peek.ended = false)
    (hpending : peek.pending = some (.value chunk)) : (peek.take input headers chunk).Keeps input headers body := by
  obtain ⟨⟨source, hreads⟩, hframing⟩ := h
  have hflight := hreads.inFlight
  rw [hpending] at hflight
  obtain ⟨hchunks, hfault, hlive⟩ := BodyReader.read_value hreads.live hflight
  -- however the peek goes on, it holds the chunk
  have hkeeps (decoder : TextDecoder) (partialLine : Text) : Peek.Keeps input headers body
        { peek with
          pending := none
          held := peek.held ++ [chunk]
          read := peek.read + chunk.length
          framing := peek.framing.observe (input.framing headers) chunk
          decoder
          partialLine } := by
    refine ⟨⟨peek.reader, ?_, hfault.trans hreads.fault, hlive, rfl, fun hover => ?_⟩, ?_⟩
    · rw [hreads.chunks, hchunks, List.append_cons]
    · exact absurd (hover.symm.trans hended) Bool.noConfusion
    · rw [hended] at hframing
      change peek.framing.observe _ chunk = framed input headers (peek.held ++ [chunk]) peek.ended
      rw [hended, hframing]
      unfold framed
      simp only [Bool.false_eq_true, if_false, List.foldl_append, List.foldl_cons, List.foldl_nil]
  unfold take
  dsimp only
  split_ifs
  all_goals first | exact hkeeps _ _ | exact ⟨hkeeps _ _, hended⟩

/-- One turn. -/
theorem turn_keeps (h : peek.Keeps input headers body) (hended : peek.ended = false) (wake : Wake Fault) :
    (peek.turn input headers wake).Keeps input headers body := by
  obtain ⟨hkeeps, hpending, hstill⟩ := request_keeps h hended
  unfold turn
  cases wake with
  | aborted reason => rfl
  | held => exact hkeeps
  | read =>
    dsimp only
    cases hnext : peek.request.1 with
    | done => exact finish_keeps hkeeps hstill (hpending.trans (congrArg some hnext))
    | value chunk => exact take_keeps hkeeps hstill (hpending.trans (congrArg some hnext))
    | failed fault => rfl

/-- The loop, however the waits end. -/
theorem run_keeps (h : peek.Keeps input headers body) (hended : peek.ended = false) (wakes : List (Wake Fault)) :
    (peek.run input headers wakes).Keeps input headers body := by
  induction wakes generalizing peek with
  | nil => exact ⟨h, hended⟩
  | cons wake wakes ih =>
    have hturn := turn_keeps h hended wake
    unfold run
    cases hwake : peek.turn input headers wake with
    | again next =>
      rw [hwake] at hturn
      exact ih hturn.1 hturn.2
    | left next => rwa [hwake] at hturn
    | thrown reason next => rwa [hwake] at hturn

/-- A new peek. -/
theorem keeps_start : ({ reader := body.getReader } : Peek Fault Scanner).Keeps input headers body :=
  ⟨⟨body.getReader, rfl, rfl, rfl, rfl, fun h => nomatch h⟩, rfl⟩

/-- The replay of what a peek kept answers what the upstream does. -/
theorem Keeps.answers (h : peek.Keeps input headers body) :
    ({ held := peek.held, carried := peek.pending, reader := peek.reader, ended := peek.ended } :
      Replay Fault).answers =
      body.answers := by
  obtain ⟨⟨source, hreads⟩, -⟩ := h
  have hbody : body.answers = peek.held.map .value ++ₛ source.toBody.answers := by
    unfold Body.answers Body.ending
    rw [hreads.chunks, List.map_append, Stream'.append_append_stream, hreads.fault]
  rw [Replay.answers_held, hbody]
  congr 1
  have hflight := hreads.inFlight
  rw [← source.answers_eq hreads.live]
  cases hended : peek.ended with
  | true =>
    obtain ⟨-, hchunks, hfault⟩ := hreads.whenEnded hended
    rw [Replay.answers_ended, source.answers_eq hreads.live]
    unfold Body.answers Body.ending
    rw [hchunks, hreads.fault, hfault]
    rfl
  | false =>
    cases hpending : peek.pending with
    | none =>
      rw [hpending] at hflight
      rw [Replay.answers_reader, show peek.reader = source from hflight]
    | some next =>
      rw [hpending] at hflight
      rw [Replay.answers_carried, Stream'.corec'_eq _ source, show source.read = (next, peek.reader) from hflight]

end Peek

/-- A report that decides nothing is a preamble that is no wall. -/
theorem decides_none {report : FramingReport Value} (h : decides input headers report = none) :
    ∃ payload event, report = .payload payload event ∧ classifyPayload input headers payload event = none ∧
      isPreamble input.dialect payload event = true := by
  cases report with
  | payload payload event =>
    unfold decides at h
    dsimp only at h
    cases hclassified : classifyPayload input headers payload event with
    | some wall => simp [hclassified] at h
    | none =>
      rw [hclassified] at h
      refine ⟨payload, event, rfl, hclassified, ?_⟩
      by_contra hother
      rw [Bool.not_eq_true] at hother
      simp [hother] at h
  | done => cases h
  | unavailable => cases h

/-- A wall is decided by a payload. -/
theorem decides_wall {report : FramingReport Value} {payload : Value} {wall : FailureClassification RateLimit}
    (h : decides input headers report = some (.wall payload wall)) :
    ∃ event, report = .payload payload event ∧ classifyPayload input headers payload event = some wall := by
  cases report with
  | payload other event =>
    unfold decides at h
    dsimp only at h
    cases hclassified : classifyPayload input headers other event with
    | some found =>
      rw [hclassified] at h
      cases h
      exact ⟨event, rfl, hclassified⟩
    | none =>
      rw [hclassified] at h
      dsimp only at h
      split at h <;> cases h
  | done => cases h
  | unavailable => cases h

/-- A wall was decided by the first payload that is no preamble. -/
theorem Peek.verdict_wall {payload : Value} {wall : FailureClassification RateLimit}
    (h : peek.verdict input headers = some (.wall payload wall)) :
    ∃ before event after, peek.framing.reports = before ++ .payload payload event :: after ∧
      classifyPayload input headers payload event = some wall ∧
      ∀ report ∈ before, ∃ earlier name, report = .payload earlier name ∧
        classifyPayload input headers earlier name = none ∧ isPreamble input.dialect earlier name = true := by
  obtain ⟨before, report, after, hreports, hdecides, hbefore⟩ := List.findSome?_eq_some_iff.mp h
  obtain ⟨event, rfl, hclassified⟩ := decides_wall hdecides
  exact ⟨before, event, after, hreports, hclassified, fun earlier hearlier => decides_none (hbefore earlier hearlier)⟩

/-- How a peek that was not given up is settled. -/
theorem Peek.settle_cases (response : Response Headers (Body Fault)) :
    (∃ payload wall, peek.verdict input response.headers = some (.wall payload wall) ∧ peek.settle input response =
        .wall wall (wallStatus wall.kind) (input.stringify payload) peek.reader.cancel) ∨
    peek.settle input response = .clear { response with
        body := some { held := peek.held, carried := peek.pending, reader := peek.reader, ended := peek.ended } } := by
  unfold settle
  split
  · next payload wall hverdict => exact .inl ⟨payload, wall, hverdict, rfl⟩
  · exact .inr rfl

/-- What holds of what a peek comes to. -/
def SuccessPeek.Faithful (input : SuccessPeekInput Headers Scanner RateLimit)
    (response : Response Headers (Body Fault)) : SuccessPeek Headers Fault RateLimit → Prop
  | .waiting => True
  | .thrown _ reader => reader.cancelled = true
  | .clear answer =>
    answer.status = response.status ∧ answer.statusText = response.statusText ∧ answer.headers = response.headers ∧
      answer.body.map Replay.answers = response.body.map Body.answers
  | .wall classification status bodyText reader =>
    reader.cancelled = true ∧ status = wallStatus classification.kind ∧
      ∃ body held rest ended, response.body = some body ∧ body.chunks = held ++ rest ∧
        (ended = true → rest = [] ∧ body.fault = none) ∧
        ∃ before payload event after,
          (framed input response.headers held ended).reports = before ++ .payload payload event :: after ∧
            classifyPayload input response.headers payload event = some classification ∧
            bodyText = input.stringify payload ∧
            ∀ report ∈ before, ∃ earlier name, report = .payload earlier name ∧
              classifyPayload input response.headers earlier name = none ∧
              isPreamble input.dialect earlier name = true

/--
However reads, the hold and the signal race: a clear response answers exactly what the upstream does; a wall is decided
by the first payload of the front of the body that is no preamble; and a peek that throws has cancelled the upstream.
-/
theorem peekSuccess_faithful (input : SuccessPeekInput Headers Scanner RateLimit)
    (response : Response Headers (Body Fault)) (wakes : List (Wake Fault)) :
    (peekSuccess input response wakes).Faithful input response := by
  unfold peekSuccess
  cases hbody : response.body with
  | none => exact ⟨rfl, rfl, rfl, by rw [hbody]; rfl⟩
  | some body =>
    dsimp only
    have hrun := @Peek.run_keeps Fault Headers Scanner RateLimit input response.headers body
        { reader := body.getReader }
      Peek.keeps_start rfl wakes
    cases hturn : Peek.run input response.headers ({ reader := body.getReader } : Peek Fault Scanner) wakes with
    | again peek => trivial
    | thrown reason peek =>
      rw [hturn] at hrun
      exact hrun
    | left peek =>
      rw [hturn] at hrun
      have hkeeps : peek.Keeps input response.headers body := hrun
      dsimp only
      rcases @Peek.settle_cases Fault Headers Scanner RateLimit input peek response with
        ⟨payload, wall, hverdict, hsettle⟩ | hsettle
      · rw [hsettle]
        obtain ⟨before, event, after, hreports, hclassified, hbefore⟩ := Peek.verdict_wall hverdict
        obtain ⟨source, hreads⟩ := hkeeps.reads
        refine ⟨rfl, rfl, body, peek.held, source.chunks, peek.ended, hbody, hreads.chunks,
          fun hended => (hreads.whenEnded hended).2, before, payload, event, after, ?_, hclassified, rfl, hbefore⟩
        rw [← hkeeps.framing, hreports]
      · rw [hsettle]
        refine ⟨rfl, rfl, rfl, ?_⟩
        rw [hbody]
        exact congrArg some hkeeps.answers

end Keeps

end MultiAiRouter.Dataplane.SuccessWall
