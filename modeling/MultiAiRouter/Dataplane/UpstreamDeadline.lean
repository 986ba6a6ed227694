import Mathlib.Tactic.Linarith
import Mathlib.Algebra.Order.Ring.Rat
import MultiAiRouter.Common.Run

/-!
# The clocks on a streamed attempt

A streamed attempt has a first-byte clock, an idle clock and a total clock. The idle clock measures how long the
router waits for one read of the upstream, and is armed again only when it goes off: a timestamp says since when the
read is awaited.
-/

namespace MultiAiRouter.Dataplane

open Common

/-- The windows of the clocks. The environment takes none below one millisecond. -/
structure StreamDeadlines where
  firstByteMs : ℚ
  idleMs : ℚ
  totalMs : ℚ
  idleMs_pos : 0 < idleMs

inductive DeadlineKind
  | firstByte
  | idle
  | total
  deriving DecidableEq

/-- What a read of the upstream comes to. -/
inductive UpstreamRead
  | chunk
  | done
  | failed
  deriving DecidableEq

/-- The stream the client reads. -/
inductive StreamState
  | readable
  | closed
  | errored
  deriving DecidableEq

/-- The clocks of one attempt, the body that is watched, and the time. -/
structure UpstreamDeadline where
  now : ℚ
  fired : Option DeadlineKind := none
  released : Bool := false
  /-- When each timer that is armed goes off. -/
  firstByteDue : Option ℚ := none
  idleDue : Option ℚ := none
  totalDue : Option ℚ := none
  /-- The client's own signal is aborted. -/
  clientAborted : Bool := false
  /-- What the controller was aborted with. -/
  aborts : List DeadlineKind := []
  /-- The success response was handed in to be watched. -/
  handedIn : Bool := false
  /-- A clock that fires errors the watched body. -/
  failsBody : Bool := false
  watched : Bool := false
  waitingSince : Option ℚ := none
  /-- The upstream's read that is outstanding, by when it was made. -/
  outstanding : Option ℚ := none
  failed : Bool := false
  stream : StreamState := .readable
  deriving DecidableEq

/-- What happens to an attempt. -/
inductive DeadlineEvent
  | headersArrived
  | watch (hasBody : Bool)
  /-- The client asks for the next chunk. -/
  | pull
  /-- The outstanding read comes back. -/
  | settled (next : UpstreamRead)
  /-- The client cancels the stream. -/
  | cancel
  /-- The client goes away. -/
  | abort
  | release
  /-- The timer of this clock goes off. -/
  | due (kind : DeadlineKind)
  /-- Time goes on. -/
  | pass (time : ℚ)
  deriving DecidableEq

namespace UpstreamDeadline

variable (limits : StreamDeadlines)

/-- A client already gone arms nothing. -/
def start (now : ℚ) (clientAborted : Bool) : UpstreamDeadline :=
  if clientAborted then { now, clientAborted, released := true }
  else { now, totalDue := some (now + limits.totalMs), firstByteDue := some (now + limits.firstByteMs) }

/-- The one exit: only the first call does anything. -/
def release (deadline : UpstreamDeadline) : UpstreamDeadline :=
  if deadline.released then deadline
  else { deadline with released := true, firstByteDue := none, idleDue := none, totalDue := none, failsBody := false }

/-- The watched body ends with the clock's reason. -/
def failBody (deadline : UpstreamDeadline) : UpstreamDeadline :=
  { deadline with
    failed := true
    stream := if deadline.stream = .readable then .errored else deadline.stream }

/-- A clock expires. -/
def fire (deadline : UpstreamDeadline) (kind : DeadlineKind) : UpstreamDeadline :=
  if deadline.released then deadline
  else
    let aborted := { { deadline with fired := some kind }.release with aborts := deadline.aborts ++ [kind] }
    -- taken before the release dropped it
    if deadline.failsBody then aborted.failBody else aborted

/-- For how long the upstream has been silent while it was waited for. -/
def silent (deadline : UpstreamDeadline) : ℚ :=
  match deadline.waitingSince with
  | none => 0
  | some since => deadline.now - since

/-- The idle timer went off: the window is over, or the timer is armed for what is left of it. -/
def check (deadline : UpstreamDeadline) : UpstreamDeadline :=
  if limits.idleMs ≤ deadline.silent then deadline.fire .idle
  else { deadline with idleDue := some (deadline.now + (limits.idleMs - deadline.silent)) }

/-- The body is watched, unless there is none or the attempt is over. An attempt hands in one response. -/
def watch (deadline : UpstreamDeadline) (hasBody : Bool) : UpstreamDeadline :=
  if deadline.handedIn then deadline
  else if !hasBody || deadline.released || decide (deadline.aborts ≠ []) || deadline.clientAborted then
    { deadline with handedIn := true }.release
  else
    { deadline with
      handedIn := true, watched := true, failsBody := true, idleDue := some (deadline.now + limits.idleMs) }

/-- The client asks for a chunk: the upstream is read. The stream asks once at a time. -/
def pull (deadline : UpstreamDeadline) : UpstreamDeadline :=
  if deadline.watched ∧ deadline.stream = .readable ∧ deadline.outstanding = none then
    { deadline with waitingSince := some deadline.now, outstanding := some deadline.now }
  else deadline

/-- The read comes back. -/
def settle (deadline : UpstreamDeadline) (next : UpstreamRead) : UpstreamDeadline :=
  if deadline.outstanding = none then deadline
  else
    let settled := { deadline with waitingSince := none, outstanding := none }
    let ended (stream : StreamState) :=
      { settled.release with stream := if deadline.stream = .readable then stream else deadline.stream }
    match next with
    | .failed => ended .errored
    | .done => if deadline.failed then settled else ended .closed
    | .chunk => settled

/-- The client cancels the stream. -/
def cancel (deadline : UpstreamDeadline) : UpstreamDeadline :=
  if deadline.watched ∧ deadline.stream = .readable then { deadline.release with stream := .closed } else deadline

/-- The timer of a clock goes off, if it is armed and due. -/
def goOff (deadline : UpstreamDeadline) : DeadlineKind → UpstreamDeadline
  | .firstByte =>
    if deadline.firstByteDue.any (· ≤ deadline.now) then { deadline with firstByteDue := none }.fire .firstByte
    else deadline
  | .idle =>
    if deadline.idleDue.any (· ≤ deadline.now) then { deadline with idleDue := none }.check limits else deadline
  | .total =>
    if deadline.totalDue.any (· ≤ deadline.now) then { deadline with totalDue := none }.fire .total else deadline

/-- The timers that are armed. -/
def timers (deadline : UpstreamDeadline) : List ℚ :=
  [deadline.firstByteDue, deadline.idleDue, deadline.totalDue].reduceOption

/-- Time goes on as long as no timer is due before. -/
def pass (deadline : UpstreamDeadline) (time : ℚ) : UpstreamDeadline :=
  if deadline.now ≤ time ∧ ∀ due ∈ deadline.timers, time ≤ due then { deadline with now := time } else deadline

/-- What an event does. One that cannot happen changes nothing. -/
def step (deadline : UpstreamDeadline) : DeadlineEvent → UpstreamDeadline
  | .headersArrived => { deadline with firstByteDue := none }
  | .watch hasBody => deadline.watch limits hasBody
  | .pull => deadline.pull
  | .settled next => deadline.settle next
  | .cancel => deadline.cancel
  | .abort => { deadline with clientAborted := true }.release
  | .release => deadline.release
  | .due kind => deadline.goOff limits kind
  | .pass time => deadline.pass time

/-- The attempt after these events. -/
def run (deadline : UpstreamDeadline) (events : List DeadlineEvent) : UpstreamDeadline :=
  runFrom (step limits) deadline events

/-- The events that end an attempt whatever its clocks say: it is released, the body ends or fails, or the client
cancels the stream or goes away. -/
def Ends (deadline : UpstreamDeadline) : DeadlineEvent → Prop
  | .release | .abort => True
  | .cancel => deadline.watched = true ∧ deadline.stream = .readable
  | .settled .done => deadline.outstanding ≠ none
  | .settled .failed => deadline.outstanding ≠ none
  | .watch hasBody => deadline.handedIn = false ∧ hasBody = false
  | _ => False

/-- What holds of every attempt: the idle timer is armed for no later than the window of the read that is awaited,
and no later than a window from now; and a clock has fired only if the attempt is over. -/
structure Sound (deadline : UpstreamDeadline) : Prop where
  since : deadline.waitingSince = deadline.outstanding
  watched : deadline.outstanding ≠ none → deadline.watched = true
  handedIn : deadline.watched = true → deadline.handedIn = true
  begun : ∀ since, deadline.outstanding = some since → since ≤ deadline.now
  ahead : ∀ due, deadline.idleDue = some due → deadline.now ≤ due
  armed : deadline.watched = true → deadline.released = false →
    ∃ due, deadline.idleDue = some due ∧ due ≤ deadline.now + limits.idleMs ∧
      ∀ since, deadline.outstanding = some since → due ≤ since + limits.idleMs
  aborts : deadline.aborts = deadline.fired.toList
  firedOver : deadline.fired ≠ none → deadline.released = true
  gone : deadline.clientAborted = true → deadline.released = true
  broken : deadline.failed = true → deadline.released = true

section Steps

variable {limits} {deadline : UpstreamDeadline} {kind : DeadlineKind}

/-- A new attempt is sound. -/
theorem sound_start (now : ℚ) (clientAborted : Bool) : (start limits now clientAborted).Sound limits := by
  cases clientAborted
  all_goals
    exact {
      since := rfl
      watched := fun h => absurd rfl h
      handedIn := fun h => nomatch h
      begun := fun since h => nomatch h
      ahead := fun due h => nomatch h
      armed := fun h => nomatch h
      aborts := rfl
      firedOver := fun h => absurd rfl h
      gone := fun h => h
      broken := fun h => nomatch h }

@[simp] theorem release_released : deadline.release.released = true := by
  unfold release
  split
  · assumption
  · rfl

@[simp] theorem release_aborts : deadline.release.aborts = deadline.aborts := by
  unfold release
  split <;> rfl

@[simp] theorem release_fired : deadline.release.fired = deadline.fired := by
  unfold release
  split <;> rfl

theorem fire_of_released (h : deadline.released = true) : deadline.fire kind = deadline := if_pos h

theorem fire_released : (deadline.fire kind).released = true := by
  unfold fire
  split
  · assumption
  · split
    · exact release_released
    · exact release_released

/-- A clock fires only in an attempt that is not over, and then it is the one that is told. -/
theorem fire_fired : (deadline.fire kind).fired = if deadline.released then deadline.fired else some kind := by
  unfold fire
  split
  · rfl
  · split <;> simp [failBody]

/-- A release keeps an attempt sound. -/
theorem Sound.release (h : deadline.Sound limits) : deadline.release.Sound limits := by
  unfold UpstreamDeadline.release
  split
  · exact h
  · exact { h with
      ahead := fun due hdue => nomatch hdue
      armed := fun _ hreleased => nomatch hreleased
      firedOver := fun _ => rfl
      gone := fun _ => rfl
      broken := fun _ => rfl }

/-- The stream the client reads has no part in the clocks. -/
theorem Sound.withStream (h : deadline.Sound limits) (stream : StreamState) :
    ({ deadline with stream } : UpstreamDeadline).Sound limits := { h with }

/-- A clock fires: the timers are dropped, and it is the first that does. -/
theorem Sound.fire (h : deadline.Sound limits) : (deadline.fire kind).Sound limits := by
  unfold UpstreamDeadline.fire
  split
  · exact h
  · next hreleased =>
    have hunfired : deadline.fired = none := by
      by_contra hfired
      exact hreleased (h.firedOver hfired)
    have hnone : deadline.aborts = [] := by rw [h.aborts, hunfired]; rfl
    have haborted : ({ { deadline with fired := some kind }.release with
            aborts := deadline.aborts ++ [kind] } : UpstreamDeadline).Sound limits := by
      rw [hnone]
      unfold UpstreamDeadline.release
      rw [if_neg hreleased]
      exact { h with
        ahead := fun due hdue => nomatch hdue
        armed := fun _ hover => nomatch hover
        aborts := rfl
        firedOver := fun _ => rfl
        gone := fun _ => rfl
        broken := fun _ => rfl }
    dsimp only
    split
    · exact { haborted with broken := fun _ => release_released }
    · exact haborted

theorem fire_disarmed : ({ deadline with idleDue := none } : UpstreamDeadline).fire kind =
      { deadline.fire kind with idleDue := none } := by
  unfold UpstreamDeadline.fire UpstreamDeadline.release
  dsimp only
  split
  · rfl
  · split <;> rfl

/-- The idle timer fires when the read was awaited for the whole window, and is armed for the rest of it otherwise.
-/
theorem Sound.check (h : deadline.Sound limits) :
    (({ deadline with idleDue := none } : UpstreamDeadline).check limits).Sound limits := by
  have hsilence : ({ deadline with idleDue := none } : UpstreamDeadline).silent = deadline.silent := rfl
  unfold UpstreamDeadline.check
  rw [hsilence]
  split
  · rw [fire_disarmed]
    exact { h.fire with
      ahead := fun due hdue => nomatch hdue
      armed := fun _ hreleased => absurd (fire_released.symm.trans hreleased) (by simp) }
  · next hsilent =>
    have hbegun : 0 ≤ deadline.silent := by
      unfold UpstreamDeadline.silent
      split
      · exact le_refl _
      · next since hwaiting =>
        have hbegun := h.begun since (h.since.symm.trans hwaiting)
        linarith
    refine { h with ahead := fun due hdue => ?_, armed := fun hwatched hreleased =>
      ⟨_, rfl, ?_, fun since hsince => ?_⟩ }
    · obtain rfl := Option.some.inj hdue
      linarith
    · dsimp only
      linarith
    · have hread : deadline.silent = deadline.now - since := by
        unfold UpstreamDeadline.silent
        rw [h.since.trans hsince]
      dsimp only
      linarith

/-- A timer that goes off keeps it sound. -/
theorem Sound.goOff (h : deadline.Sound limits) (kind : DeadlineKind) : (deadline.goOff limits kind).Sound limits := by
  cases kind with
  | firstByte =>
    unfold UpstreamDeadline.goOff
    dsimp only
    split
    · exact Sound.fire { h with }
    · exact h
  | idle =>
    unfold UpstreamDeadline.goOff
    dsimp only
    split
    · exact h.check
    · exact h
  | total =>
    unfold UpstreamDeadline.goOff
    dsimp only
    split
    · exact Sound.fire { h with }
    · exact h

/-- A watched body keeps it sound. -/
theorem Sound.watch (h : deadline.Sound limits) (hasBody : Bool) : (deadline.watch limits hasBody).Sound limits := by
  unfold UpstreamDeadline.watch
  split
  · exact h
  · next hfresh =>
    have hidle : deadline.watched = false := by
      by_contra hwatched
      exact hfresh (h.handedIn (Bool.eq_true_of_not_eq_false hwatched))
    have hunread : deadline.outstanding = none := by
      by_contra hread
      exact absurd (hidle.symm.trans (h.watched hread)) (by simp)
    split
    · exact Sound.release { h with handedIn := fun _ => rfl }
    · have hpositive := limits.idleMs_pos
      exact { h with
        watched := fun _ => rfl
        handedIn := fun _ => rfl
        ahead := fun due hdue => by
          obtain rfl := Option.some.inj hdue
          linarith
        armed := fun _ _ => ⟨_, rfl, by linarith, fun since hsince => nomatch hunread.symm.trans hsince⟩ }

/-- A read begins now: the timer is armed for no later than its window. -/
theorem Sound.pull (h : deadline.Sound limits) : deadline.pull.Sound limits := by
  unfold UpstreamDeadline.pull
  split
  · next hasked =>
    refine { h with
      since := rfl
      watched := fun _ => hasked.1
      begun := fun since hsince => ?_
      armed := fun hwatched hreleased => ?_ }
    · obtain rfl := Option.some.inj hsince
      exact le_refl _
    · obtain ⟨due, hdue, hlate, -⟩ := h.armed hwatched hreleased
      refine ⟨due, hdue, hlate, fun since hsince => ?_⟩
      obtain rfl := Option.some.inj hsince
      exact hlate
  · exact h

/-- A read that settles does so too. -/
theorem Sound.settle (h : deadline.Sound limits) (next : UpstreamRead) : (deadline.settle next).Sound limits := by
  have hsettled : ({ deadline with waitingSince := none, outstanding := none } : UpstreamDeadline).Sound limits :=
    { h with
      since := rfl
      watched := fun hread => absurd rfl hread
      begun := fun since hsince => nomatch hsince
      armed := fun hwatched hreleased => by
        obtain ⟨due, hdue, hlate, -⟩ := h.armed hwatched hreleased
        exact ⟨due, hdue, hlate, fun since hsince => nomatch hsince⟩ }
  unfold UpstreamDeadline.settle
  split
  · exact h
  · cases next with
    | chunk => exact hsettled
    | failed => exact hsettled.release.withStream _
    | done =>
      dsimp only
      split
      · exact hsettled
      · exact hsettled.release.withStream _

/-- A body that is cancelled does. -/
theorem Sound.cancel (h : deadline.Sound limits) : deadline.cancel.Sound limits := by
  unfold UpstreamDeadline.cancel
  split
  · exact h.release.withStream _
  · exact h

/-- A client that leaves does so too. -/
theorem Sound.abort (h : deadline.Sound limits) :
    ({ deadline with clientAborted := true } : UpstreamDeadline).release.Sound limits := by
  unfold UpstreamDeadline.release
  split
  · next hreleased => exact { h with gone := fun _ => hreleased }
  · exact { h with
      ahead := fun due hdue => nomatch hdue
      armed := fun _ hreleased => nomatch hreleased
      firedOver := fun _ => rfl
      gone := fun _ => rfl
      broken := fun _ => rfl }

/-- Time goes on only up to the timers. -/
theorem Sound.pass (h : deadline.Sound limits) (time : ℚ) : (deadline.pass time).Sound limits := by
  unfold UpstreamDeadline.pass
  split
  · next hpass =>
    obtain ⟨hlater, htimers⟩ := hpass
    refine { h with
      begun := fun since hsince => (h.begun since hsince).trans hlater
      ahead := fun due hdue => htimers due ?_
      armed := fun hwatched hreleased => ?_ }
    · exact List.mem_filterMap.mpr ⟨some due, by rw [show deadline.idleDue = some due from hdue]; simp, rfl⟩
    · obtain ⟨due, hdue, hlate, hread⟩ := h.armed hwatched hreleased
      refine ⟨due, hdue, ?_, hread⟩
      dsimp only
      linarith
  · exact h

/-- Every event keeps what holds of an attempt. -/
theorem Sound.step (h : deadline.Sound limits) (event : DeadlineEvent) : (deadline.step limits event).Sound limits := by
  cases event with
  | headersArrived => exact { h with }
  | watch hasBody => exact h.watch hasBody
  | pull => exact h.pull
  | settled next => exact h.settle next
  | cancel => exact h.cancel
  | abort => exact h.abort
  | release => exact h.release
  | due kind => exact h.goOff kind
  | pass time => exact h.pass time

/-- An attempt is sound after every run. -/
theorem Sound.run (h : deadline.Sound limits) (events : List DeadlineEvent) :
    (deadline.run limits events).Sound limits :=
  runFrom_invariant (fun deadline : UpstreamDeadline => deadline.Sound limits) (fun _ event hsound => hsound.step event)
    events deadline h

/-- A read that is awaited in an attempt that is not over is not awaited past the window. -/
theorem Sound.waited (h : deadline.Sound limits) {since : ℚ} (hread : deadline.outstanding = some since)
    (hreleased : deadline.released = false) : deadline.now ≤ since + limits.idleMs := by
  obtain ⟨due, hdue, -, hwindow⟩ := h.armed (h.watched (by simp [hread])) hreleased
  exact (h.ahead due hdue).trans (hwindow since hread)

/-- A read that settles fires nothing and aborts nothing. -/
theorem settle_fired (next : UpstreamRead) :
    (deadline.settle next).fired = deadline.fired ∧ (deadline.settle next).aborts = deadline.aborts ∧
      (deadline.released = true → (deadline.settle next).released = true) := by
  unfold settle
  split
  · exact ⟨rfl, rfl, id⟩
  · cases next with
    | chunk => exact ⟨rfl, rfl, id⟩
    | failed => exact ⟨release_fired, release_aborts, fun _ => release_released⟩
    | done =>
      dsimp only
      split
      · exact ⟨rfl, rfl, id⟩
      · exact ⟨release_fired, release_aborts, fun _ => release_released⟩

/-- What an event does to what has fired: nothing, unless it is the timer of a clock that fires in an attempt that is
not over. The idle clock fires only when the upstream was silent for its window. -/
theorem step_fires (deadline : UpstreamDeadline) (event : DeadlineEvent) :
    ((deadline.step limits event).fired = deadline.fired ∧ (deadline.step limits event).aborts = deadline.aborts ∧
        (deadline.released = true → (deadline.step limits event).released = true)) ∨
      ∃ kind, event = .due kind ∧ deadline.released = false ∧ (deadline.step limits event).fired = some kind ∧
        (kind = .idle → limits.idleMs ≤ deadline.silent) := by
  have hfires (armed : UpstreamDeadline) (kind : DeadlineKind) (hfired : armed.fired = deadline.fired)
      (haborts : armed.aborts = deadline.aborts) (hover : armed.released = deadline.released)
      (hsilent : kind = .idle → limits.idleMs ≤ deadline.silent) :
      ((armed.fire kind).fired = deadline.fired ∧ (armed.fire kind).aborts = deadline.aborts ∧
          (deadline.released = true → (armed.fire kind).released = true)) ∨
        ∃ told, DeadlineEvent.due kind = .due told ∧ deadline.released = false ∧ (armed.fire kind).fired = some told ∧
          (told = .idle → limits.idleMs ≤ deadline.silent) := by
    cases hreleased : deadline.released with
    | true =>
      rw [fire_of_released (hover.trans hreleased)]
      exact .inl ⟨hfired, haborts, fun _ => hover.trans hreleased⟩
    | false =>
      refine .inr ⟨kind, rfl, rfl, ?_, hsilent⟩
      rw [fire_fired, hover, hreleased]
      rfl
  cases event with
  | headersArrived => exact .inl ⟨rfl, rfl, id⟩
  | watch hasBody =>
    left
    unfold step watch
    dsimp only
    split
    · exact ⟨rfl, rfl, id⟩
    · split
      · exact ⟨release_fired, release_aborts, fun _ => release_released⟩
      · exact ⟨rfl, rfl, id⟩
  | pull =>
    left
    unfold step pull
    dsimp only
    split <;> exact ⟨rfl, rfl, id⟩
  | settled next => exact .inl (settle_fired next)
  | cancel =>
    left
    unfold step cancel
    dsimp only
    split
    · exact ⟨release_fired, release_aborts, fun _ => release_released⟩
    · exact ⟨rfl, rfl, id⟩
  | abort => exact .inl ⟨release_fired, release_aborts, fun _ => release_released⟩
  | release => exact .inl ⟨release_fired, release_aborts, fun _ => release_released⟩
  | pass time =>
    left
    unfold step pass
    dsimp only
    split <;> exact ⟨rfl, rfl, id⟩
  | due kind =>
    cases kind with
    | firstByte =>
      unfold step goOff
      dsimp only
      split
      · exact hfires _ .firstByte rfl rfl rfl (fun h => nomatch h)
      · exact .inl ⟨rfl, rfl, id⟩
    | total =>
      unfold step goOff
      dsimp only
      split
      · exact hfires _ .total rfl rfl rfl (fun h => nomatch h)
      · exact .inl ⟨rfl, rfl, id⟩
    | idle =>
      unfold step goOff
      dsimp only
      split
      · unfold check
        split
        · next hsilent => exact hfires _ .idle rfl rfl rfl (fun _ => hsilent)
        · exact .inl ⟨rfl, rfl, id⟩
      · exact .inl ⟨rfl, rfl, id⟩

/-- The idle clock fires only while a read is awaited, and exactly when its window is over. -/
theorem Sound.idle_fires (h : deadline.Sound limits) {event : DeadlineEvent} (hbefore : deadline.fired ≠ some .idle)
    (hafter : (deadline.step limits event).fired = some .idle) :
    event = .due .idle ∧ ∃ since, deadline.outstanding = some since ∧ deadline.now = since + limits.idleMs := by
  rcases step_fires deadline event with ⟨hsame, -⟩ | ⟨kind, rfl, hreleased, hfired, hsilent⟩
  · exact absurd (hsame.symm.trans hafter) hbefore
  · obtain rfl := Option.some.inj (hfired.symm.trans hafter)
    refine ⟨rfl, ?_⟩
    have hwindow := hsilent rfl
    have hpositive := limits.idleMs_pos
    unfold silent at hwindow
    rw [h.since] at hwindow
    cases hread : deadline.outstanding with
    | none =>
      rw [hread] at hwindow
      exact absurd hwindow (by simpa using hpositive)
    | some since =>
      rw [hread] at hwindow
      have hwaited := h.waited hread hreleased
      dsimp only at hwindow
      exact ⟨since, rfl, by linarith⟩

/-- An attempt that is over stays over, and no clock fires in it. -/
theorem run_of_released (hreleased : deadline.released = true) (events : List DeadlineEvent) :
    (deadline.run limits events).released = true ∧ (deadline.run limits events).fired = deadline.fired ∧
      (deadline.run limits events).aborts = deadline.aborts := by
  refine runFrom_invariant (fun later : UpstreamDeadline => later.released = true ∧ later.fired = deadline.fired ∧
    later.aborts = deadline.aborts) (fun later event hlater => ?_) events deadline ⟨hreleased, rfl, rfl⟩
  rcases @step_fires limits later event with ⟨hfired, haborts, hover⟩ | ⟨kind, -, hopen, -⟩
  · exact ⟨hover hlater.1, hfired.trans hlater.2.1, haborts.trans hlater.2.2⟩
  · exact absurd (hopen.symm.trans hlater.1) (by simp)

/-- The events that end an attempt release it and fire no clock. -/
theorem Sound.ends (h : deadline.Sound limits) {event : DeadlineEvent} (hends : deadline.Ends event) :
    (deadline.step limits event).released = true ∧ (deadline.step limits event).aborts = deadline.aborts := by
  have hreleased : (deadline.step limits event).released = true := by
    cases event with
    | release => exact release_released
    | abort => exact release_released
    | cancel =>
      have hcancelled : deadline.watched = true ∧ deadline.stream = .readable := hends
      unfold UpstreamDeadline.step UpstreamDeadline.cancel
      dsimp only
      rw [if_pos hcancelled]
      exact release_released
    | watch hasBody =>
      unfold UpstreamDeadline.step UpstreamDeadline.watch
      dsimp only
      rw [if_neg (by simp [hends.1]), if_pos (by simp [hends.2])]
      exact release_released
    | settled next =>
      cases next with
      | chunk => exact hends.elim
      | failed =>
        unfold UpstreamDeadline.step UpstreamDeadline.settle
        dsimp only
        rw [if_neg hends]
        exact release_released
      | done =>
        unfold UpstreamDeadline.step UpstreamDeadline.settle
        dsimp only
        rw [if_neg hends]
        split
        · next hfailed => exact h.broken hfailed
        · exact release_released
    | headersArrived => exact hends.elim
    | pull => exact hends.elim
    | due kind => exact hends.elim
    | pass time => exact hends.elim
  refine ⟨hreleased, ?_⟩
  rcases @step_fires limits deadline event with ⟨-, haborts, -⟩ | ⟨kind, rfl, -⟩
  · exact haborts
  · exact hends.elim

/-- An attempt is over only when an event ended it or a clock fired. -/
theorem Sound.over_of_released (h : deadline.Sound limits) {event : DeadlineEvent} (hopen : deadline.released = false)
    (hreleased : (deadline.step limits event).released = true) :
    deadline.Ends event ∨ ∃ kind, event = .due kind ∧ (deadline.step limits event).fired = some kind := by
  have hnone : deadline.aborts = [] := by
    cases hfired : deadline.fired with
    | none => rw [h.aborts, hfired]; rfl
    | some kind => exact absurd (hopen.symm.trans (h.firedOver (by simp [hfired]))) (by simp)
  have hpresent : deadline.clientAborted = false := by
    by_contra hgone
    exact absurd (hopen.symm.trans (h.gone (Bool.eq_true_of_not_eq_false hgone))) (by simp)
  have habsurd (h : deadline.released = true) : False := absurd (hopen.symm.trans h) (by simp)
  cases event with
  | headersArrived => exact (habsurd hreleased).elim
  | release => exact .inl trivial
  | abort => exact .inl trivial
  | pull =>
    unfold UpstreamDeadline.step UpstreamDeadline.pull at hreleased
    dsimp only at hreleased
    split at hreleased <;> exact (habsurd hreleased).elim
  | pass time =>
    unfold UpstreamDeadline.step UpstreamDeadline.pass at hreleased
    dsimp only at hreleased
    split at hreleased <;> exact (habsurd hreleased).elim
  | cancel =>
    unfold UpstreamDeadline.step UpstreamDeadline.cancel at hreleased
    dsimp only at hreleased
    split at hreleased
    · next hcancelled => exact .inl hcancelled
    · exact (habsurd hreleased).elim
  | watch hasBody =>
    unfold UpstreamDeadline.step UpstreamDeadline.watch at hreleased
    dsimp only at hreleased
    split at hreleased
    · exact (habsurd hreleased).elim
    · next hfresh =>
      split at hreleased
      · next hover =>
        left
        rw [hopen, hnone, hpresent] at hover
        exact ⟨Bool.eq_false_of_not_eq_true hfresh, by simpa using hover⟩
      · exact (habsurd hreleased).elim
  | settled next =>
    left
    unfold UpstreamDeadline.step UpstreamDeadline.settle at hreleased
    dsimp only at hreleased
    split at hreleased
    · exact (habsurd hreleased).elim
    · next hread =>
      cases next with
      | chunk => exact (habsurd hreleased).elim
      | failed => exact hread
      | done => exact hread
  | due kind =>
    right
    refine ⟨kind, rfl, ?_⟩
    have hfire (armed : UpstreamDeadline) (kind : DeadlineKind) (hover : armed.released = false) :
        (armed.fire kind).fired = some kind := by
      rw [fire_fired, hover]
      rfl
    cases kind with
    | firstByte | total =>
      unfold UpstreamDeadline.step UpstreamDeadline.goOff at hreleased ⊢
      dsimp only at hreleased ⊢
      split
      · exact hfire _ _ hopen
      · next hearly =>
        rw [if_neg hearly] at hreleased
        exact (habsurd hreleased).elim
    | idle =>
      unfold UpstreamDeadline.step UpstreamDeadline.goOff UpstreamDeadline.check at hreleased ⊢
      dsimp only at hreleased ⊢
      split
      · next hdue =>
        rw [if_pos hdue] at hreleased
        split
        · exact hfire _ _ hopen
        · next hearly =>
          rw [if_neg hearly] at hreleased
          exact (habsurd hreleased).elim
      · next hearly =>
        rw [if_neg hearly] at hreleased
        exact (habsurd hreleased).elim

end Steps

/-- In every run of a streamed attempt the idle clock fires only when the upstream's read has been awaited for its
window, to the instant; no read is awaited past the window while the attempt is not over; at most one clock fires;
and none after the attempt was released, its body ended or failed, or the client left. -/
theorem idle_clock_exact (now : ℚ) (clientAborted : Bool) (events : List DeadlineEvent) :
    let deadline := (start limits now clientAborted).run limits events
    (∀ event, deadline.fired ≠ some .idle → (deadline.step limits event).fired = some .idle →
      event = .due .idle ∧ ∃ since, deadline.outstanding = some since ∧ deadline.now = since + limits.idleMs) ∧
    (∀ since, deadline.outstanding = some since → deadline.released = false → deadline.now ≤ since + limits.idleMs) ∧
    (∀ event, deadline.released = false → (deadline.step limits event).released = true →
      deadline.Ends event ∨ ∃ kind, event = .due kind ∧ (deadline.step limits event).fired = some kind) ∧
    deadline.aborts = deadline.fired.toList ∧
    ∀ event, deadline.Ends event → ∀ later,
      ((deadline.step limits event).run limits later).aborts = deadline.aborts := by
  have h : ((start limits now clientAborted).run limits events).Sound limits :=
    (sound_start now clientAborted).run events
  refine ⟨fun event => h.idle_fires, fun since => h.waited, fun event => h.over_of_released, h.aborts,
    fun event hends later => ?_⟩
  obtain ⟨hreleased, haborts⟩ := h.ends hends
  exact (run_of_released hreleased later).2.2.trans haborts

end UpstreamDeadline

end MultiAiRouter.Dataplane
