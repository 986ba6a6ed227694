import MultiAiRouter.Common.Run

/-!
# The slot of a request

An admitted request holds a lease until something releases it, which forgets the callback that shutdown would run.
The registry is bounded; shutdown closes it and releases every lease. A chain asks for its release through a wrapper
that only notes the request while a chain may still run again, and a relayed success releases when its body is over.
-/

namespace MultiAiRouter.Dataplane

/-- What the registry keeps of one admitted request. -/
structure ActiveRequestLease (Callback : Type*) where
  callback : Option Callback := none
  released : Bool := false
  deriving DecidableEq

namespace ActiveRequestLease

variable {Callback : Type*}

/-- Replace settlement as the request moves on; a released lease keeps none. -/
def setAbandon (lease : ActiveRequestLease Callback) (next : Callback) :
    ActiveRequestLease Callback :=
  if lease.released then lease else { lease with callback := some next }

/-- Give the slot back and forget the callback. -/
def release (lease : ActiveRequestLease Callback) : ActiveRequestLease Callback :=
  if lease.released then lease else { callback := none, released := true }

/-- A released lease stays released. -/
@[simp] theorem release_released (lease : ActiveRequestLease Callback) : lease.release.released = true := by
  unfold release
  split <;> simp_all

/-- Replacing the callback does not release the lease. -/
@[simp] theorem setAbandon_released (lease : ActiveRequestLease Callback) (next : Callback) :
    (lease.setAbandon next).released = lease.released := by
  unfold setAbandon
  split <;> rfl

end ActiveRequestLease

/-- The leases of the requests that are active, by request, and whether admission is over. -/
structure ActiveRequestRegistry where
  maximumEntries : ℕ
  positive : 0 < maximumEntries
  entries : List ℕ := []
  closed : Bool := false
  stopping : Bool := false

namespace ActiveRequestRegistry

/-- Admit a request, unless the registry is closed or full. -/
def register (registry : ActiveRequestRegistry) (request : ℕ) : Option ActiveRequestRegistry :=
  if registry.closed || decide (registry.maximumEntries ≤ registry.entries.length) then none
  else some { registry with entries := registry.entries ++ [request] }

/-- Give the request's slot back; a request that has none gives nothing back. -/
def release (registry : ActiveRequestRegistry) (request : ℕ) : ActiveRequestRegistry :=
  { registry with entries := registry.entries.filter (· != request) }

/-- Admit no further request. -/
def closeAdmission (registry : ActiveRequestRegistry) : ActiveRequestRegistry :=
  { registry with closed := true }

/-- Shut down once: every entry is abandoned, aborted and released. -/
def stop (registry : ActiveRequestRegistry) : ActiveRequestRegistry :=
  if registry.stopping then registry
  else { registry with closed := true, stopping := true, entries := [] }

/-- A released slot is gone, and the other slots stay. -/
@[simp] theorem mem_release (registry : ActiveRequestRegistry) (request other : ℕ) :
    other ∈ (registry.release request).entries ↔ other ∈ registry.entries ∧ other ≠ request := by
  simp [release]

/-- Admission adds the request's own slot and nothing else. -/
theorem register_eq_some {registry next : ActiveRequestRegistry} {request : ℕ}
    (h : registry.register request = some next) :
    next.entries = registry.entries ++ [request] ∧ next.stopping = registry.stopping := by
  unfold register at h
  split at h
  · simp at h
  · obtain rfl := Option.some.inj h
    exact ⟨rfl, rfl⟩

end ActiveRequestRegistry

open Common

/-- Where a dispatched request stands. -/
inductive RequestPhase
  | preparing
  | selecting
  | chaining
  | waiting
  | relaying
  | answered
  | estimated
  | thrown
  deriving DecidableEq

/-- How a chain ends. The loop's own ends ask for the release first; a throw does not; a success leaves the release
to its relay. -/
inductive ChainExit
  | refused (awaitingPermit : Bool)
  | relayedError
  | cancelledBeforeRelay
  | threw
  | success (relaySettled : Bool)
  deriving DecidableEq

/-- A dispatched request: whether it was admitted, and the wrapper around its lease. -/
structure DispatchedRequest where
  leased : Bool
  held : Bool := true
  requested : Bool := false
  aborted : Bool := false
  phase : RequestPhase := .preparing
  deriving DecidableEq

/-- The registry and every request dispatched so far. -/
structure RequestTable where
  registry : ActiveRequestRegistry
  requests : List DispatchedRequest := []

/-- What happens to the requests. -/
inductive RequestEvent
  | dispatch
  | throws (request : ℕ)
  | prepared (request : ℕ)
  | estimate (request : ℕ)
  | chain (request : ℕ)
  | chainExit (request : ℕ) (exit : ChainExit)
  | paused (request : ℕ) (again : Bool)
  | bodyEnds (request : ℕ)
  | closeAdmission
  | stop
  deriving DecidableEq

namespace RequestTable

/-- Write one request back. -/
def put (table : RequestTable) (id : ℕ) (request : DispatchedRequest) : RequestTable :=
  { table with requests := table.requests.set id request }

/-- Give the slot back. -/
def release (table : RequestTable) (id : ℕ) : RequestTable :=
  { table with registry := table.registry.release id }

/-- The wrapper's release: noted while it is held, passed through afterwards. -/
def wrappedRelease (table : RequestTable) (id : ℕ) (request : DispatchedRequest) :
    RequestTable × DispatchedRequest :=
  if request.held then (table, { request with requested := true }) else (table.release id, request)

/-- The chain settled for good: a release it asked for happens now. -/
def settleLease (table : RequestTable) (id : ℕ) (request : DispatchedRequest) :
    RequestTable × DispatchedRequest :=
  (if request.requested then table.release id else table, { request with held := false })

/-- The chain will run again: forget the release the refused one asked for. -/
def keepLease (request : DispatchedRequest) : DispatchedRequest :=
  { request with requested := false }

/-- `dispatch` threw: the failure handler releases the lease itself. -/
def threw (table : RequestTable) (id : ℕ) (request : DispatchedRequest) : RequestTable :=
  (table.release id).put id { request with phase := .thrown }

/-- The chain's release, its settlement, and the phase the request goes on in. -/
def releasedAndSettled (table : RequestTable) (id : ℕ) (request : DispatchedRequest) :
    RequestTable × DispatchedRequest :=
  let asked := table.wrappedRelease id request
  asked.1.settleLease id asked.2

/-- A chain ended, seen through the recovery wait around it. -/
def exited (table : RequestTable) (id : ℕ) (request : DispatchedRequest) : ChainExit → RequestTable
  | .refused awaitingPermit =>
    if awaitingPermit then
      let asked := table.wrappedRelease id request
      asked.1.put id { asked.2 with phase := .waiting }
    else
      let settled := table.releasedAndSettled id request
      settled.1.threw id settled.2
  | .relayedError | .cancelledBeforeRelay =>
    let settled := table.releasedAndSettled id request
    settled.1.put id { settled.2 with phase := .answered }
  | .threw =>
    let settled := table.settleLease id request
    settled.1.threw id settled.2
  | .success relaySettled =>
    if relaySettled then
      let settled := table.releasedAndSettled id request
      settled.1.put id { settled.2 with phase := .answered }
    else
      let settled := table.settleLease id request
      settled.1.put id { settled.2 with phase := .relaying }

/-- The wait for a permit ended: run the chain again, or give up. -/
def pauseEnded (table : RequestTable) (id : ℕ) (request : DispatchedRequest) (again : Bool) :
    RequestTable :=
  if again then table.put id { keepLease request with phase := .selecting }
  else
    let settled := table.settleLease id request
    settled.1.threw id settled.2

/-- The relay settled: it releases through the wrapper. -/
def relaySettled (table : RequestTable) (id : ℕ) (request : DispatchedRequest) : RequestTable :=
  let released := table.wrappedRelease id request
  released.1.put id { released.2 with phase := .answered }

/-- A request is dispatched: admitted, or refused for want of a slot. -/
def dispatched (table : RequestTable) : RequestTable :=
  match table.registry.register table.requests.length with
  | none => { table with requests := table.requests ++ [{ leased := false, phase := .thrown }] }
  | some registry =>
    { registry := registry, requests := table.requests ++ [{ leased := true }] }

/-- Shutdown aborts the requests it finds in the registry, and an open relay of one settles. -/
def stoppedRequest (entries : List ℕ) (id : ℕ) (request : DispatchedRequest) : DispatchedRequest :=
  if id ∈ entries then
    { request with
      aborted := true
      phase := if request.phase = .relaying then .answered else request.phase }
  else request

/-- The router shuts down. -/
def stopped (table : RequestTable) : RequestTable :=
  if table.registry.stopping then table
  else
    { registry := table.registry.stop
      requests := table.requests.mapIdx (stoppedRequest table.registry.entries) }

/-- One event. -/
def step (table : RequestTable) : RequestEvent → RequestTable
  | .dispatch => table.dispatched
  | .throws id =>
    match table.requests[id]? with
    | some request =>
      if request.phase = .preparing ∨ request.phase = .selecting then table.threw id request
      else table
    | none => table
  | .prepared id =>
    match table.requests[id]? with
    | some request =>
      if request.phase = .preparing then
        table.put id { request with phase := .selecting, held := true, requested := false }
      else table
    | none => table
  | .estimate id =>
    match table.requests[id]? with
    | some request =>
      if request.phase = .selecting then table.put id { request with phase := .estimated }
      else table
    | none => table
  | .chain id =>
    match table.requests[id]? with
    | some request =>
      if request.phase = .selecting then table.put id { request with phase := .chaining }
      else table
    | none => table
  | .chainExit id exit =>
    match table.requests[id]? with
    | some request => if request.phase = .chaining then table.exited id request exit else table
    | none => table
  | .paused id again =>
    match table.requests[id]? with
    | some request => if request.phase = .waiting then table.pauseEnded id request again else table
    | none => table
  | .bodyEnds id =>
    match table.requests[id]? with
    | some request => if request.phase = .relaying then table.relaySettled id request else table
    | none => table
  | .closeAdmission => { table with registry := table.registry.closeAdmission }
  | .stop => table.stopped

/-- Everything that happens to the requests, in order. -/
def run (table : RequestTable) (events : List RequestEvent) : RequestTable :=
  runFrom step table events

/-- A registry nobody is in yet. -/
def start (maximumEntries : ℕ) (positive : 0 < maximumEntries) : RequestTable :=
  { registry := { maximumEntries := maximumEntries, positive := positive } }

end RequestTable

end MultiAiRouter.Dataplane
