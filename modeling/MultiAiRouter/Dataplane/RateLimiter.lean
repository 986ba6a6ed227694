import Mathlib.Algebra.Order.Ring.Int
import MultiAiRouter.Common.InsertionMap
import MultiAiRouter.Common.Run
import MultiAiRouter.Common.SlidingWindow

/-!
# The rate limit of a key

A key with a ceiling and a window has a list of the instants it was let through at, pruned by moving a head along it
and rebuilt only when the slack is worth it. The map of keys is bounded: a new key evicts the windows that say
nothing any more, and failing that the oldest one. The live part of a list is what is recent of everything the key
was let through at, so the limiter decides as the plain list does.
-/

namespace MultiAiRouter.Dataplane

open Common

/-- What the limiter needs off the verified key. -/
structure RateLimitedKey where
  id : String
  rateLimitRequests : Option ℤ
  rateLimitWindowSeconds : Option ℤ
  deriving DecidableEq

/-- What the limiter answers; a refusal names its reset as a countdown and as an instant. -/
inductive RateLimitDecision
  | allowed
  | refused (retryAfterSeconds resetsAt : ℤ)
  deriving DecidableEq

/-- The accepted instants of a key under one ceiling, in order; the live ones start at the head. -/
structure Window where
  limit : ℤ
  windowMs : ℤ
  instants : List ℤ := []
  head : ℕ := 0
  deriving DecidableEq

/-- The dead slack an instant list may carry before it is compacted. -/
def compactSlack : ℕ := 64

/-- How many entries the head moves over. -/
def expired (cutoffMs : ℤ) : List ℤ → ℕ
  | [] => 0
  | instant :: rest => if cutoffMs < instant then 0 else expired cutoffMs rest + 1

namespace Window

/-- Drop the instants that have left the window, compacting only once the slack is worth it. -/
def prune (window : Window) (cutoffMs : ℤ) : Window :=
  let head := window.head + expired cutoffMs (window.instants.drop window.head)
  if compactSlack ≤ head then { window with instants := window.instants.drop head, head := 0 }
  else { window with head }

/-- The number of accepted requests still inside the window. -/
def live (window : Window) : ℤ := (window.instants.length : ℤ) - window.head

/-- No accepted request of this key is still inside its window. -/
def drained (window : Window) (nowMs : ℤ) : Bool :=
  match window.instants.getLast? with
  | none => true
  | some newest => decide (newest + window.windowMs ≤ nowMs)

end Window

/-- The windows of the tracked keys, oldest first. -/
structure RateLimiter where
  maxKeys : ℕ := 4096
  windows : InsertionMap String Window := {}

/-- The whole seconds until an instant, never fewer than one. -/
def retryAfterSeconds (resetsAtMs nowMs : ℤ) : ℤ := max 1 (-(-(resetsAtMs - nowMs) / 1000))

namespace RateLimiter

/-- Forget drained windows, then, if that freed nothing, the oldest tracked one. -/
def evict (limiter : RateLimiter) (nowMs : ℤ) : RateLimiter :=
  let windows := limiter.windows.entries.foldl
    (fun windows entry => if entry.2.drained nowMs then windows.delete entry.1 else windows) limiter.windows
  if windows.entries.length < limiter.maxKeys then { limiter with windows }
  else
    match windows.entries.head? with
    | none => { limiter with windows }
    | some oldest => { limiter with windows := windows.delete oldest.1 }

/-- The window a key is charged against. An edited ceiling starts a fresh one. -/
def windowOf (limiter : RateLimiter) (keyId : String) (limit windowMs nowMs : ℤ) : RateLimiter × Window :=
  match limiter.windows.get keyId with
  | some window =>
    if window.limit ≠ limit ∨ window.windowMs ≠ windowMs then
      ({ limiter with windows := limiter.windows.set keyId { limit, windowMs } }, { limit, windowMs })
    else (limiter, window)
  | none =>
    let limiter := if limiter.maxKeys ≤ limiter.windows.entries.length then limiter.evict nowMs else limiter
    ({ limiter with windows := limiter.windows.set keyId { limit, windowMs } }, { limit, windowMs })

/-- Charge one request against the key's window and answer whether it may proceed. -/
def check (limiter : RateLimiter) (key : RateLimitedKey) (nowMs : ℤ) : RateLimitDecision × RateLimiter :=
  match key.rateLimitRequests, key.rateLimitWindowSeconds with
  | some limit, some windowSeconds =>
    if limit < 1 ∨ windowSeconds < 1 then (.allowed, limiter)
    else
      let windowMs := windowSeconds * 1000
      let found := limiter.windowOf key.id limit windowMs nowMs
      let window := found.2.prune (nowMs - windowMs)
      match window.instants[window.head]?.filter fun _ => decide (limit ≤ window.live) with
      | some oldest =>
        (.refused (retryAfterSeconds (oldest + windowMs) nowMs) (oldest + windowMs),
          { found.1 with windows := found.1.windows.set key.id window })
      | none =>
        let charged := { window with instants := window.instants ++ [nowMs] }
        (.allowed, { found.1 with windows := found.1.windows.set key.id charged })
  | _, _ => (.allowed, limiter)

/-- Drop a key's window. -/
def forget (limiter : RateLimiter) (keyId : String) : RateLimiter :=
  { limiter with windows := limiter.windows.delete keyId }

end RateLimiter

/-- A call of the limiter. -/
inductive LimiterCall
  | check (key : RateLimitedKey) (nowMs : ℤ)
  | forget (keyId : String)
  deriving DecidableEq

/-- The key a call is about. -/
def LimiterCall.keyId : LimiterCall → String
  | .check key _ => key.id
  | .forget keyId => keyId

/-- The clock reading of a check of a key. -/
def LimiterCall.instantOf (keyId : String) : LimiterCall → Option ℤ
  | .check key nowMs => if key.id = keyId then some nowMs else none
  | .forget _ => none

namespace RateLimiter

/-- The limiter after a call. -/
def step (limiter : RateLimiter) : LimiterCall → RateLimiter
  | .check key nowMs => (limiter.check key nowMs).2
  | .forget keyId => limiter.forget keyId

/-- What the checks of a key are answered over a run, with their clock readings. -/
def answers (keyId : String) : RateLimiter → List LimiterCall → List (ℤ × RateLimitDecision)
  | _, [] => []
  | limiter, .check key nowMs :: rest =>
    (if key.id = keyId then [(nowMs, (limiter.check key nowMs).1)] else []) ++
      answers keyId (limiter.step (.check key nowMs)) rest
  | limiter, .forget forgotten :: rest => answers keyId (limiter.step (.forget forgotten)) rest

end RateLimiter

/-- The instants of the accepted requests among the answers. -/
def acceptedInstants (answers : List (ℤ × RateLimitDecision)) : List ℤ :=
  answers.filterMap fun answer => if answer.2 = .allowed then some answer.1 else none

/-- The same limiter over the plain list of accepted instants. -/
def plainDecision (limit : ℕ) (windowMs : ℤ) (accepted : List ℤ) (nowMs : ℤ) : RateLimitDecision :=
  match SlidingWindow.recent windowMs nowMs accepted with
  | [] => .allowed
  | oldest :: rest =>
    if (oldest :: rest).length < limit then .allowed
    else .refused (retryAfterSeconds (oldest + windowMs) nowMs) (oldest + windowMs)

/-- The answers of the plain list. -/
def plainAnswers (limit : ℕ) (windowMs : ℤ) : List ℤ → List ℤ → List (ℤ × RateLimitDecision)
  | _, [] => []
  | accepted, nowMs :: rest =>
    (nowMs, plainDecision limit windowMs accepted nowMs) ::
      plainAnswers limit windowMs (SlidingWindow.request limit windowMs accepted nowMs) rest

/-- A run in which the key keeps one ceiling, a clock that never goes back and its window. -/
structure RateLimiter.Undisturbed (limiter : RateLimiter) (key : RateLimitedKey) (calls : List LimiterCall) :
    Prop where
  constant : ∀ call ∈ calls, call.keyId = key.id → ∃ nowMs, call = .check key nowMs
  clock : (calls.filterMap (LimiterCall.instantOf key.id)).Pairwise (· ≤ ·)
  kept : EveryStep RateLimiter.step (fun limiter call => (limiter.windows.get key.id).isSome = true →
    ((limiter.step call).windows.get key.id).isSome = true) limiter calls

open Common.SlidingWindow

/-- The head moves over the instants that have left the window. -/
theorem drop_expired {cutoffMs : ℤ} {instants : List ℤ} (h : instants.Pairwise (· ≤ ·)) :
    instants.drop (expired cutoffMs instants) = instants.filter fun instant => decide (cutoffMs < instant) := by
  induction instants with
  | nil => rfl
  | cons instant rest ih =>
    unfold expired
    split
    · next hlive =>
      have hall : ∀ other ∈ instant :: rest, decide (cutoffMs < other) = true := by
        intro other hmem
        rcases List.mem_cons.mp hmem with rfl | hrest
        · exact decide_eq_true hlive
        · exact decide_eq_true (lt_of_lt_of_le hlive (List.rel_of_pairwise_cons h hrest))
      rw [List.drop_zero, List.filter_eq_self.mpr hall]
    · next hgone =>
      rw [List.drop_succ_cons, ih h.of_cons, List.filter_cons_of_neg (by simpa using hgone)]

/-- What the head moves over has left the window. -/
theorem mem_take_expired {cutoffMs instant : ℤ} {instants : List ℤ}
    (h : instant ∈ instants.take (expired cutoffMs instants)) : instant ≤ cutoffMs := by
  induction instants with
  | nil => cases h
  | cons first rest ih =>
    unfold expired at h
    split at h
    · cases h
    · next hgone =>
      rcases List.mem_cons.mp h with rfl | hrest
      · exact not_lt.mp hgone
      · exact ih hrest

/-- The head stays inside the list. -/
theorem expired_le (cutoffMs : ℤ) (instants : List ℤ) : expired cutoffMs instants ≤ instants.length := by
  induction instants with
  | nil => rfl
  | cons first rest ih =>
    unfold expired
    split
    · exact Nat.zero_le _
    · exact Nat.succ_le_succ ih

namespace Window

/-- A window holds the accepted instants of its key, less some that have left it by the clock. -/
structure Holds (window : Window) (limit windowMs clock : ℤ) (accepted : List ℤ) : Prop where
  limit_eq : window.limit = limit
  windowMs_eq : window.windowMs = windowMs
  head_le : window.head ≤ window.instants.length
  older : ∃ older, accepted = older ++ window.instants.drop window.head ∧
    ∀ instant ∈ older, instant ≤ clock - windowMs

variable {window : Window} {limit windowMs clock nowMs : ℤ} {accepted : List ℤ}

/-- After pruning, the live part is what is recent of the accepted instants. -/
theorem Holds.prune (h : window.Holds limit windowMs clock accepted) (hclock : clock ≤ nowMs)
    (hchronicle : Chronicle clock accepted) :
    (window.prune (nowMs - windowMs)).Holds limit windowMs nowMs accepted ∧
      (window.prune (nowMs - windowMs)).instants.drop (window.prune (nowMs - windowMs)).head =
        recent windowMs nowMs accepted := by
  obtain ⟨older, haccepted, holder⟩ := h.older
  have hordered : (window.instants.drop window.head).Pairwise (· ≤ ·) := by
    have hall := hchronicle.ordered
    rw [haccepted] at hall
    exact (List.pairwise_append.mp hall).2.1
  have hmoved : window.instants.drop (window.head + expired (nowMs - windowMs) (window.instants.drop window.head)) =
      recent windowMs nowMs accepted := by
    have hnone : older.filter (fun instant => decide (nowMs - windowMs < instant)) = [] := by
      refine List.filter_eq_nil_iff.mpr fun instant hmem => ?_
      have hpast := holder instant hmem
      simp only [decide_eq_true_eq]
      omega
    rw [← List.drop_drop, drop_expired hordered, recent, haccepted, List.filter_append, hnone, List.nil_append]
  have hbound : window.head + expired (nowMs - windowMs) (window.instants.drop window.head) ≤
      window.instants.length := by
    have hle := expired_le (nowMs - windowMs) (window.instants.drop window.head)
    have hhead := h.head_le
    rw [List.length_drop] at hle
    omega
  -- What the head moved over joins the older instants, whether or not the list is rebuilt.
  have hsplit : ∃ gone, accepted = gone ++
      window.instants.drop (window.head + expired (nowMs - windowMs) (window.instants.drop window.head)) ∧
      ∀ instant ∈ gone, instant ≤ nowMs - windowMs := by
    refine ⟨older ++ (window.instants.drop window.head).take
      (expired (nowMs - windowMs) (window.instants.drop window.head)), ?_, ?_⟩
    · rw [← List.drop_drop, List.append_assoc, List.take_append_drop]
      exact haccepted
    · intro instant hmem
      rcases List.mem_append.mp hmem with hold | hmoved
      · have hpast := holder instant hold
        omega
      · exact mem_take_expired hmoved
  unfold Window.prune
  dsimp only
  split
  · exact ⟨⟨h.limit_eq, h.windowMs_eq, Nat.zero_le _, by rw [List.drop_zero]; exact hsplit⟩,
      by rw [List.drop_zero]; exact hmoved⟩
  · exact ⟨⟨h.limit_eq, h.windowMs_eq, hbound, hsplit⟩, hmoved⟩

/-- A fresh window holds what a key that was never let through has. -/
theorem holds_fresh (limit windowMs clock : ℤ) : ({ limit, windowMs } : Window).Holds limit windowMs clock [] :=
  ⟨rfl, rfl, le_rfl, [], rfl, by simp⟩

/-- A charge is one more accepted instant. -/
theorem Holds.charge (h : window.Holds limit windowMs nowMs accepted) :
    ({ window with instants := window.instants ++ [nowMs] } : Window).Holds limit windowMs nowMs
      (accepted ++ [nowMs]) := by
  obtain ⟨older, haccepted, holder⟩ := h.older
  refine ⟨h.limit_eq, h.windowMs_eq, ?_, older, ?_, holder⟩
  · rw [List.length_append]
    exact h.head_le.trans (Nat.le_add_right _ _)
  · rw [List.drop_append_of_le_length h.head_le, ← List.append_assoc, ← haccepted]

end Window

namespace RateLimiter

/-- The limiter holds the accepted instants of a key; a key it does not track was never let through. -/
def Tracks (limiter : RateLimiter) (keyId : String) (limit windowMs clock : ℤ) (accepted : List ℤ) : Prop :=
  match limiter.windows.get keyId with
  | none => accepted = []
  | some window => window.Holds limit windowMs clock accepted

variable {limiter : RateLimiter} {key : RateLimitedKey} {limit seconds clock nowMs : ℤ} {accepted : List ℤ}

/-- The window a key is charged against holds what the limiter holds. -/
theorem Tracks.windowOf {windowMs : ℤ} (h : limiter.Tracks key.id limit windowMs clock accepted) (nowMs : ℤ) :
    (limiter.windowOf key.id limit windowMs nowMs).2.Holds limit windowMs clock accepted := by
  unfold Tracks at h
  unfold RateLimiter.windowOf
  cases hget : limiter.windows.get key.id with
  | none =>
    rw [hget] at h
    rw [show accepted = [] from h]
    exact Window.holds_fresh limit windowMs clock
  | some window =>
    rw [hget] at h
    have hsame : ¬ (window.limit ≠ limit ∨ window.windowMs ≠ windowMs) := by
      rw [not_or, not_not, not_not]
      exact ⟨h.limit_eq, h.windowMs_eq⟩
    dsimp only
    rw [if_neg hsame]
    exact h

/-- A check decides as the plain list does, and holds what the plain list holds after it. -/
theorem Tracks.check (h : limiter.Tracks key.id limit (seconds * 1000) clock accepted)
    (hrequests : key.rateLimitRequests = some limit) (hseconds : key.rateLimitWindowSeconds = some seconds)
    (hlimit : 1 ≤ limit) (hwindow : 1 ≤ seconds) (hclock : clock ≤ nowMs) (hchronicle : Chronicle clock accepted) :
    (limiter.check key nowMs).1 = plainDecision limit.toNat (seconds * 1000) accepted nowMs ∧
      (limiter.check key nowMs).2.Tracks key.id limit (seconds * 1000) nowMs
        (request limit.toNat (seconds * 1000) accepted nowMs) := by
  have hvalid : ¬ (limit < 1 ∨ seconds < 1) := by omega
  obtain ⟨hpruned, hlive⟩ := (h.windowOf nowMs).prune hclock hchronicle
  unfold RateLimiter.check
  rw [hrequests, hseconds]
  dsimp only
  rw [if_neg hvalid]
  generalize (limiter.windowOf key.id limit (seconds * 1000) nowMs).2.prune (nowMs - seconds * 1000) = window at *
  have hlength : window.live = ((recent (seconds * 1000) nowMs accepted).length : ℤ) := by
    have hhead := hpruned.head_le
    rw [← hlive, List.length_drop, Window.live]
    omega
  have holdest : window.instants[window.head]? = (recent (seconds * 1000) nowMs accepted).head? := by
    rw [← hlive, List.head?_drop]
  unfold plainDecision request
  rw [holdest, hlength]
  cases hrecent : recent (seconds * 1000) nowMs accepted with
  | nil =>
    have hroom : ([] : List ℤ).length < limit.toNat := by simp only [List.length_nil]; omega
    rw [if_pos hroom]
    refine ⟨rfl, ?_⟩
    simp only [Tracks, List.head?_nil, Option.filter_none, InsertionMap.get_set_self]
    exact hpruned.charge
  | cons oldest rest =>
    by_cases hroom : (oldest :: rest).length < limit.toNat
    · have hopen : ¬ limit ≤ ((oldest :: rest).length : ℤ) := by omega
      simp only [if_pos hroom, Tracks, List.head?_cons, Option.filter_some, decide_eq_true_eq, if_neg hopen,
        InsertionMap.get_set_self]
      exact ⟨trivial, hpruned.charge⟩
    · have hfull : limit ≤ ((oldest :: rest).length : ℤ) := by omega
      simp only [if_neg hroom, Tracks, List.head?_cons, Option.filter_some, decide_eq_true_eq, if_pos hfull,
        InsertionMap.get_set_self]
      exact ⟨trivial, hpruned⟩

/-- Deleting entries of a map leaves a key's window alone or takes it out. -/
theorem get_foldl_delete (test : String × Window → Bool) (entries : List (String × Window))
    (windows : InsertionMap String Window) (keyId : String) :
    (entries.foldl (fun windows entry => if test entry then windows.delete entry.1 else windows) windows).get keyId =
        windows.get keyId ∨
      (entries.foldl (fun windows entry => if test entry then windows.delete entry.1 else windows) windows).get keyId =
        none := by
  induction entries generalizing windows with
  | nil => exact .inl rfl
  | cons entry rest ih =>
    rw [List.foldl_cons]
    by_cases htest : test entry = true
    · rw [if_pos htest]
      rcases ih (windows.delete entry.1) with hsame | hnone
      · rw [hsame, InsertionMap.get_delete]
        split
        · exact .inr rfl
        · exact .inl rfl
      · exact .inr hnone
    · rw [if_neg htest]
      exact ih windows

/-- Eviction leaves a key's window alone or takes it out. -/
theorem get_evict (limiter : RateLimiter) (nowMs : ℤ) (keyId : String) :
    (limiter.evict nowMs).windows.get keyId = limiter.windows.get keyId ∨
      (limiter.evict nowMs).windows.get keyId = none := by
  have hfold := get_foldl_delete (fun entry => entry.2.drained nowMs) limiter.windows.entries limiter.windows keyId
  unfold evict
  dsimp only
  split
  · exact hfold
  · split
    · exact hfold
    · simp only [InsertionMap.get_delete]
      split
      · exact .inr rfl
      · exact hfold

/-- A call about another key leaves a key's window alone or takes it out. -/
theorem get_step_of_ne (limiter : RateLimiter) {call : LimiterCall} {keyId : String} (h : call.keyId ≠ keyId) :
    (limiter.step call).windows.get keyId = limiter.windows.get keyId ∨
      (limiter.step call).windows.get keyId = none := by
  cases call with
  | forget forgotten =>
    simp only [step, forget, InsertionMap.get_delete]
    split
    · exact .inr rfl
    · exact .inl rfl
  | check other nowMs =>
    have hne : keyId ≠ other.id := Ne.symm h
    have hfound (limit windowMs : ℤ) :
        (limiter.windowOf other.id limit windowMs nowMs).1.windows.get keyId = limiter.windows.get keyId ∨
          (limiter.windowOf other.id limit windowMs nowMs).1.windows.get keyId = none := by
      unfold windowOf
      split
      · split
        · exact .inl (InsertionMap.get_set_of_ne _ _ hne)
        · exact .inl rfl
      · dsimp only
        rw [InsertionMap.get_set_of_ne _ _ hne]
        split
        · exact get_evict limiter nowMs keyId
        · exact .inl rfl
    simp only [step, RateLimiter.check]
    split
    · split
      · exact .inl rfl
      · split
        · dsimp only
          rw [InsertionMap.get_set_of_ne _ _ hne]
          exact hfound _ _
        · dsimp only
          rw [InsertionMap.get_set_of_ne _ _ hne]
          exact hfound _ _
    · exact .inl rfl

/-- A call about another key that leaves the key its window leaves it as it was. -/
theorem Tracks.step_of_ne {windowMs : ℤ} {call : LimiterCall}
    (h : limiter.Tracks key.id limit windowMs clock accepted) (hne : call.keyId ≠ key.id)
    (hkept : (limiter.windows.get key.id).isSome = true → ((limiter.step call).windows.get key.id).isSome = true) :
    (limiter.step call).Tracks key.id limit windowMs clock accepted := by
  unfold Tracks at h ⊢
  rcases get_step_of_ne limiter hne with hsame | hnone
  · rw [hsame]
    exact h
  · rw [hnone] at hkept ⊢
    cases hget : limiter.windows.get key.id with
    | none =>
      rw [hget] at h
      exact h
    | some window => simp [hget] at hkept

/-- A call about another key answers the key nothing. -/
theorem answers_of_ne {call : LimiterCall} {rest : List LimiterCall} (hne : call.keyId ≠ key.id) :
    limiter.answers key.id (call :: rest) = (limiter.step call).answers key.id rest := by
  cases call with
  | check other nowMs =>
    have hother : other.id ≠ key.id := hne
    simp [answers, hother]
  | forget forgotten => rfl

end RateLimiter

/-- A call about another key reads no clock for the key. -/
theorem instantOf_of_ne {call : LimiterCall} {keyId : String} (hne : call.keyId ≠ keyId) :
    call.instantOf keyId = none := by
  cases call with
  | check other nowMs => exact if_neg hne
  | forget forgotten => rfl

@[simp] theorem instantOf_check (key : RateLimitedKey) (nowMs : ℤ) :
    (LimiterCall.check key nowMs).instantOf key.id = some nowMs := if_pos rfl

/-- The plain list lets a request through when there is room for it. -/
theorem plainDecision_allowed {limit : ℕ} {windowMs nowMs : ℤ} {accepted : List ℤ} (hlimit : 0 < limit) :
    plainDecision limit windowMs accepted nowMs = .allowed ↔ (recent windowMs nowMs accepted).length < limit := by
  unfold plainDecision
  split
  · next hrecent => simpa [hrecent] using hlimit
  · next oldest rest hrecent =>
    rw [hrecent]
    split
    · next hroom => simpa using hroom
    · next hfull => simpa using hfull

/-- What the plain list holds after a run is what its answers let through. -/
theorem runFrom_request {limit : ℕ} {windowMs : ℤ} (hlimit : 0 < limit) (instants accepted : List ℤ) :
    runFrom (request limit windowMs) accepted instants =
      accepted ++ acceptedInstants (plainAnswers limit windowMs accepted instants) := by
  induction instants generalizing accepted with
  | nil => simp [plainAnswers, acceptedInstants]
  | cons nowMs rest ih =>
    rw [runFrom_cons, ih, plainAnswers]
    by_cases hroom : (recent windowMs nowMs accepted).length < limit
    · rw [(plainDecision_allowed hlimit).mpr hroom, request, if_pos hroom]
      simp [acceptedInstants]
    · have hrefused : plainDecision limit windowMs accepted nowMs ≠ .allowed :=
        fun h => hroom ((plainDecision_allowed hlimit).mp h)
      simp [acceptedInstants, hrefused, request, hroom]

namespace RateLimiter

variable {limiter : RateLimiter} {key : RateLimitedKey} {limit seconds : ℤ}

/-- What the limiter holds of a key at a clock, all of it in order and within the ceiling. -/
structure Sound (limiter : RateLimiter) (key : RateLimitedKey) (limit windowMs clock : ℤ) (accepted : List ℤ) :
    Prop where
  tracks : limiter.Tracks key.id limit windowMs clock accepted
  chronicle : Chronicle clock accepted
  within : WithinLimit limit.toNat windowMs accepted

/-- The calls of a run that are left undisturbed from a clock on. -/
structure Continues (limiter : RateLimiter) (key : RateLimitedKey) (clock : ℤ) (calls : List LimiterCall) : Prop where
  undisturbed : limiter.Undisturbed key calls
  later : ∀ instant ∈ calls.filterMap (LimiterCall.instantOf key.id), clock ≤ instant

/-- A run answers as the plain list does, and stays sound. -/
theorem Sound.run {clock : ℤ} {accepted : List ℤ} (h : limiter.Sound key limit (seconds * 1000) clock accepted)
    (hrequests : key.rateLimitRequests = some limit) (hseconds : key.rateLimitWindowSeconds = some seconds)
    (hlimit : 1 ≤ limit) (hwindow : 1 ≤ seconds) {calls : List LimiterCall}
    (hcalls : limiter.Continues key clock calls) :
    limiter.answers key.id calls = plainAnswers limit.toNat (seconds * 1000) accepted
        (calls.filterMap (LimiterCall.instantOf key.id)) ∧
      ∃ reached, (runFrom step limiter calls).Sound key limit (seconds * 1000) reached
        (runFrom (request limit.toNat (seconds * 1000)) accepted (calls.filterMap (LimiterCall.instantOf key.id))) ∧
        ∀ nowMs, clock ≤ nowMs → (∀ instant ∈ calls.filterMap (LimiterCall.instantOf key.id), instant ≤ nowMs) →
          reached ≤ nowMs := by
  induction calls generalizing limiter clock accepted with
  | nil => exact ⟨rfl, clock, h, fun nowMs hnow _ => hnow⟩
  | cons call rest ih =>
    have hconstant := fun other hmem => hcalls.undisturbed.constant other (List.mem_cons_of_mem call hmem)
    obtain ⟨hkeptNow, hkept⟩ := hcalls.undisturbed.kept
    have hclock := hcalls.undisturbed.clock
    have hlater := hcalls.later
    by_cases hkey : call.keyId = key.id
    · obtain ⟨nowMs, rfl⟩ := hcalls.undisturbed.constant call List.mem_cons_self hkey
      rw [List.filterMap_cons_some (instantOf_check key nowMs)] at hclock hlater ⊢
      have hnow : clock ≤ nowMs := hlater nowMs List.mem_cons_self
      obtain ⟨hdecision, htracks⟩ := h.tracks.check hrequests hseconds hlimit hwindow hnow h.chronicle
      have hsound : (limiter.step (.check key nowMs)).Sound key limit (seconds * 1000) nowMs
          (request limit.toNat (seconds * 1000) accepted nowMs) :=
        ⟨htracks, (h.chronicle.later hnow).request, h.within.request⟩
      obtain ⟨hanswers, reached, hreached, hbound⟩ :=
        ih hsound ⟨⟨hconstant, hclock.of_cons, hkept⟩, fun instant hmem => List.rel_of_pairwise_cons hclock hmem⟩
      refine ⟨?_, reached, hreached, fun later _ hall => ?_⟩
      · rw [answers, if_pos rfl, plainAnswers, hanswers, hdecision]
        rfl
      · exact hbound later (hall nowMs List.mem_cons_self) fun instant hmem =>
          hall instant (List.mem_cons_of_mem _ hmem)
    · rw [List.filterMap_cons_none (instantOf_of_ne hkey)] at hclock hlater ⊢
      rw [answers_of_ne hkey, runFrom_cons]
      exact ih ⟨h.tracks.step_of_ne hkey hkeptNow, h.chronicle, h.within⟩ ⟨⟨hconstant, hclock, hkept⟩, hlater⟩

/-- A key that is not tracked starts with nothing accepted, at any clock. -/
theorem Sound.start (hfresh : limiter.windows.get key.id = none) (limit windowMs clock : ℤ) :
    limiter.Sound key limit windowMs clock [] where
  tracks := by
    unfold Tracks
    rw [hfresh]
  chronicle := ⟨List.Pairwise.nil, by simp⟩
  within := fun start => by simp

/-- An undisturbed run continues from some clock. -/
theorem Undisturbed.continues {calls : List LimiterCall} (h : limiter.Undisturbed key calls) :
    ∃ clock, limiter.Continues key clock calls := by
  have hclock := h.clock
  cases hinstants : calls.filterMap (LimiterCall.instantOf key.id) with
  | nil => exact ⟨0, h, by simp [hinstants]⟩
  | cons first rest =>
    rw [hinstants] at hclock
    refine ⟨first, h, fun instant hmem => ?_⟩
    rw [hinstants] at hmem
    rcases List.mem_cons.mp hmem with rfl | hrest
    · exact le_rfl
    · exact List.rel_of_pairwise_cons hclock hrest

/-- The two parts of an undisturbed run. -/
theorem Undisturbed.of_append {first second : List LimiterCall} (h : limiter.Undisturbed key (first ++ second)) :
    limiter.Undisturbed key first ∧ (runFrom step limiter first).Undisturbed key second := by
  have hclock := h.clock
  rw [List.filterMap_append] at hclock
  obtain ⟨hfirst, hsecond, _⟩ := List.pairwise_append.mp hclock
  obtain ⟨hkeptFirst, hkeptSecond⟩ := everyStep_append.mp h.kept
  exact ⟨⟨fun call hmem => h.constant call (List.mem_append_left _ hmem), hfirst, hkeptFirst⟩,
    ⟨fun call hmem => h.constant call (List.mem_append_right _ hmem), hsecond, hkeptSecond⟩⟩

/-- What a refusal on a sound limiter says: the window is full, and the first instant with room. -/
theorem Sound.refused {clock nowMs wait reset : ℤ} {accepted : List ℤ}
    (h : limiter.Sound key limit (seconds * 1000) clock accepted) (hrequests : key.rateLimitRequests = some limit)
    (hseconds : key.rateLimitWindowSeconds = some seconds) (hlimit : 1 ≤ limit) (hwindow : 1 ≤ seconds)
    (hclock : clock ≤ nowMs) (hrefused : (limiter.check key nowMs).1 = .refused wait reset) :
    (limiter.step (.check key nowMs)).Sound key limit (seconds * 1000) nowMs accepted ∧
      limit.toNat ≤ (recent (seconds * 1000) nowMs accepted).length ∧
      ∀ next, nowMs ≤ next → (((limiter.step (.check key nowMs)).check key next).1 = .allowed ↔ reset ≤ next) := by
  have hpositive : 0 < limit.toNat := by omega
  have hchronicle := h.chronicle.later hclock
  obtain ⟨hdecision, htracks⟩ := h.tracks.check hrequests hseconds hlimit hwindow hclock h.chronicle
  rw [hrefused] at hdecision
  have hfull : ¬ (recent (seconds * 1000) nowMs accepted).length < limit.toNat := by
    intro hroom
    rw [(plainDecision_allowed hpositive).mpr hroom] at hdecision
    cases hdecision
  have hsound : (limiter.step (.check key nowMs)).Sound key limit (seconds * 1000) nowMs accepted := by
    rw [request, if_neg hfull] at htracks
    exact ⟨htracks, hchronicle, h.within⟩
  refine ⟨hsound, not_lt.mp hfull, fun next hnext => ?_⟩
  obtain ⟨hnextDecision, _⟩ := hsound.tracks.check hrequests hseconds hlimit hwindow hnext hchronicle
  cases hrecent : recent (seconds * 1000) nowMs accepted with
  | nil => simp [hrecent, hpositive] at hfull
  | cons oldest rest =>
    have hreset : reset = oldest + seconds * 1000 := by
      rw [plainDecision, hrecent] at hdecision
      rw [hrecent] at hfull
      simp only [if_neg hfull] at hdecision
      exact (RateLimitDecision.refused.inj hdecision).2
    rw [hnextDecision, plainDecision_allowed hpositive, hreset]
    exact room_iff_oldest hchronicle h.within (not_lt.mp hfull) hrecent hnext

/-- A fresh key's undisturbed run is answered as by the plain list, within the ceiling, and leaves a sound limiter.
-/
theorem Undisturbed.sound {calls : List LimiterCall} (h : limiter.Undisturbed key calls)
    (hrequests : key.rateLimitRequests = some limit) (hseconds : key.rateLimitWindowSeconds = some seconds)
    (hlimit : 1 ≤ limit) (hwindow : 1 ≤ seconds) (hfresh : limiter.windows.get key.id = none) :
    limiter.answers key.id calls = plainAnswers limit.toNat (seconds * 1000) []
        (calls.filterMap (LimiterCall.instantOf key.id)) ∧
      WithinLimit limit.toNat (seconds * 1000) (acceptedInstants (limiter.answers key.id calls)) ∧
      ∀ nowMs, (∀ instant ∈ calls.filterMap (LimiterCall.instantOf key.id), instant ≤ nowMs) →
        ∃ clock, clock ≤ nowMs ∧ (runFrom step limiter calls).Sound key limit (seconds * 1000) clock
          (acceptedInstants (limiter.answers key.id calls)) := by
  have hstart (clock : ℤ) (hcontinues : limiter.Continues key clock calls) :=
    (Sound.start hfresh limit (seconds * 1000) clock).run hrequests hseconds hlimit hwindow hcontinues
  obtain ⟨clock, hcontinues⟩ := h.continues
  obtain ⟨hanswers, reached, hreached, _⟩ := hstart clock hcontinues
  have hpositive : 0 < limit.toNat := by omega
  have haccepted : runFrom (request limit.toNat (seconds * 1000)) []
      (calls.filterMap (LimiterCall.instantOf key.id)) = acceptedInstants (limiter.answers key.id calls) := by
    rw [runFrom_request hpositive, List.nil_append, hanswers]
  rw [haccepted] at hreached
  refine ⟨hanswers, hreached.within, fun nowMs hall => ?_⟩
  obtain ⟨_, last, hlast, hbound⟩ := hstart (min clock nowMs)
    ⟨h, fun instant hmem => (min_le_left _ _).trans (hcontinues.later instant hmem)⟩
  rw [haccepted] at hlast
  exact ⟨last, hbound nowMs (min_le_right _ _) hall, hlast⟩

/-- Over every undisturbed run of a key with a ceiling the limiter answers as the plain list of accepted instants
does; no half-open interval of the window holds more; and a refused request finds the window full, names the first
instant the next is let through at, and changes nothing. -/
theorem check_exact (limiter : RateLimiter) (key : RateLimitedKey) (limit seconds : ℤ)
    (hrequests : key.rateLimitRequests = some limit) (hseconds : key.rateLimitWindowSeconds = some seconds)
    (hlimit : 1 ≤ limit) (hwindow : 1 ≤ seconds) (hfresh : limiter.windows.get key.id = none)
    (calls : List LimiterCall) (h : limiter.Undisturbed key calls) :
    limiter.answers key.id calls = plainAnswers limit.toNat (seconds * 1000) []
        (calls.filterMap (LimiterCall.instantOf key.id)) ∧
      (∀ start, (((acceptedInstants (limiter.answers key.id calls)).filter fun instant =>
          decide (start ≤ instant ∧ instant < start + seconds * 1000)).length : ℤ) ≤ limit ∧
        (((acceptedInstants (limiter.answers key.id calls)).filter fun instant =>
          decide (start < instant ∧ instant ≤ start + seconds * 1000)).length : ℤ) ≤ limit) ∧
      ∀ before nowMs after wait reset, calls = before ++ .check key nowMs :: after →
        ((runFrom step limiter before).check key nowMs).1 = .refused wait reset →
        (((acceptedInstants (limiter.answers key.id before)).filter fun instant =>
          decide (nowMs - seconds * 1000 < instant ∧ instant ≤ nowMs)).length : ℤ) = limit ∧
        (∀ next, nowMs ≤ next →
          (((runFrom step limiter (before ++ [.check key nowMs])).check key next).1 = .allowed ↔ reset ≤ next)) ∧
        ∀ later, limiter.Undisturbed key (before ++ .check key nowMs :: later) →
          limiter.Undisturbed key (before ++ later) →
          (runFrom step limiter (before ++ [.check key nowMs])).answers key.id later =
            (runFrom step limiter before).answers key.id later := by
  have hsoundOf {calls : List LimiterCall} (h : limiter.Undisturbed key calls) :=
    h.sound hrequests hseconds hlimit hwindow hfresh
  obtain ⟨hanswers, hwithin, _⟩ := hsoundOf h
  refine ⟨hanswers, fun start => ?_, ?_⟩
  · obtain ⟨hclosed, hopen⟩ := hwithin start
    omega
  · intro before nowMs after wait reset hcalls hrefused
    rw [hcalls] at h
    obtain ⟨_, _, hat⟩ := hsoundOf h.of_append.1
    have hclock := h.clock
    rw [List.filterMap_append, List.filterMap_cons_some (instantOf_check key nowMs)] at hclock
    have hpast := (List.pairwise_append.mp hclock).2.2
    obtain ⟨clock, hle, hsound⟩ := hat nowMs fun instant hmem => hpast instant hmem nowMs List.mem_cons_self
    obtain ⟨hafter, hfull, hnext⟩ := hsound.refused hrequests hseconds hlimit hwindow hle hrefused
    have hstep : runFrom step limiter (before ++ [.check key nowMs]) =
        (runFrom step limiter before).step (.check key nowMs) := runFrom_append ..
    refine ⟨?_, ?_, fun later hwith hwithout => ?_⟩
    · have hchronicle := hsound.chronicle.later hle
      have hbound := hsound.within.recent_le hchronicle
      rw [← recent_eq_interval hchronicle]
      omega
    · rw [hstep]
      exact hnext
    · have hlater := hwith.clock
      rw [List.filterMap_append, List.filterMap_cons_some (instantOf_check key nowMs)] at hlater
      have hfrom (instant : ℤ) (hmem : instant ∈ later.filterMap (LimiterCall.instantOf key.id)) : nowMs ≤ instant :=
        List.rel_of_pairwise_cons (List.pairwise_append.mp hlater).2.1 hmem
      have hrest : (runFrom step limiter before).Undisturbed key ([.check key nowMs] ++ later) := hwith.of_append.2
      rw [hstep, (hafter.run hrequests hseconds hlimit hwindow ⟨hrest.of_append.2, hfrom⟩).1,
        (hsound.run hrequests hseconds hlimit hwindow
          ⟨hwithout.of_append.2, fun instant hmem => hle.trans (hfrom instant hmem)⟩).1]

/-- One request a second: the second request is refused until the first has left the window. -/
theorem check_exact_three :
    ({} : RateLimiter).answers "key" [.check ⟨"key", some 1, some 1⟩ 0, .check ⟨"key", some 1, some 1⟩ 500,
      .check ⟨"key", some 1, some 1⟩ 1000] = [(0, .allowed), (500, .refused 1 1000), (1000, .allowed)] := by
  have h := check_exact {} ⟨"key", some 1, some 1⟩ 1 1 rfl rfl (by decide) (by decide) rfl
    [.check ⟨"key", some 1, some 1⟩ 0, .check ⟨"key", some 1, some 1⟩ 500, .check ⟨"key", some 1, some 1⟩ 1000]
    ⟨by simp, by decide, by decide⟩
  exact h.1.trans (by decide)

end RateLimiter

end MultiAiRouter.Dataplane
