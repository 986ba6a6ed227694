import MultiAiRouter.Common.Reorder
import MultiAiRouter.Routing.Filter

/-!
# The six policies and the adjustments every one of them goes through

A policy orders the eligible candidates of one group. `runPolicy` then demotes half-open probes, promotes the holder
of a recovery permit, defers alias-only accounts, and pins an honored binding to the head.

Of the rendezvous score the numerator over `2 ^ 53` is kept. Declared order and account id stand for the object
identity the source compares.
-/

namespace MultiAiRouter.Routing

open Common

/-- The UTF-16 code units of one character. -/
def utf16Units (c : Char) : List Nat :=
  if c.toNat < 0x10000 then [c.toNat]
  else [0xD800 + (c.toNat - 0x10000) / 0x400, 0xDC00 + (c.toNat - 0x10000) % 0x400]

/-- The UTF-16 code units of a string, which is what indexing and `<` see. -/
def codeUnits (text : String) : List Nat := text.toList.flatMap utf16Units

/-- Lexicographic comparison of code units: negative, zero or positive. -/
def compareUnits : List Nat → List Nat → Int
  | [], [] => 0
  | [], _ :: _ => -1
  | _ :: _, [] => 1
  | a :: left, b :: right => if a < b then -1 else if b < a then 1 else compareUnits left right

/-- FNV-1a over UTF-16 code units, seeded. -/
def fnv1a (input : String) (seed : UInt32) : UInt32 :=
  (codeUnits input).foldl (fun hash unit => (hash ^^^ UInt32.ofNat unit) * 0x01000193) seed

/-- The 32-bit finalizer that spreads the tail of the hash. -/
def fmix32 (value : UInt32) : UInt32 :=
  let hash := (value ^^^ (value >>> 16)) * 0x85ebca6b
  let hash := (hash ^^^ (hash >>> 13)) * 0xc2b2ae35
  hash ^^^ (hash >>> 16)

/-- Fold a session key into a reusable seed. -/
def sessionSeed (sessionKey : String) : UInt32 := fnv1a sessionKey 0x811c9dc5

/-- The 53-bit numerator of the rendezvous score of an account under a seed. -/
def scoreWithSeed (seed : UInt32) (accountId : String) : Nat :=
  let laneA := fmix32 (fnv1a accountId (seed ^^^ 0x9e3779b1))
  let laneB := fmix32 (fnv1a accountId (seed ^^^ 0x85ebca6b))
  laneA.toNat * 2097152 + (laneB >>> 11).toNat

/-- What one policy run reads. -/
structure PolicyInput where
  now : Instant
  candidates : List Candidate
  sessionKey : String
  rotationCounter : Int
  leastUsedMeasure : Option LeastUsedMeasure := none

/-- An ordering and what there is to say about it. -/
structure PolicyOutput where
  ordered : List Candidate
  notes : List PolicyNote

/-- The declared order, then the account id. -/
def compareDeclared (left right : Candidate) : Int :=
  if left.order ≠ right.order then (left.order : Int) - right.order
  else compareUnits (codeUnits left.account.id) (codeUnits right.account.id)

/-- The candidates in declared order. -/
def sortDeclared (candidates : List Candidate) : List Candidate := sortBy compareDeclared candidates

/-- The account ids of an ordering. -/
def accountIds (candidates : List Candidate) : List String :=
  candidates.map fun candidate => candidate.account.id

/-- Natives, then those reaching the name only through an alias; the second list is the deferred. -/
def nativeFirst (candidates : List Candidate) : List Candidate × List Candidate :=
  let native := candidates.filter fun candidate => !candidate.aliased
  if native.length = candidates.length ∨ native.length = 0 then (candidates, [])
  else (acceptedFirst (fun candidate => !candidate.aliased) candidates,
    candidates.filter fun candidate => candidate.aliased)

/-- Session affinity by rendezvous hashing, highest score first. -/
def sticky (input : PolicyInput) : PolicyOutput :=
  let seed := sessionSeed input.sessionKey
  { ordered := sortBy (fun left right =>
      let delta := (scoreWithSeed seed right.account.id : Int) - scoreWithSeed seed left.account.id
      if delta ≠ 0 then delta else compareDeclared left right) input.candidates
    notes := [] }

/-- Even rotation, ignoring session identity. -/
def roundRobin (input : PolicyInput) : PolicyOutput :=
  { ordered := rotateBy (sortDeclared input.candidates) input.rotationCounter, notes := [] }

/-- The first index whose cumulative weight passes the target, else the last one. -/
def pickIndexFrom (target cumulative : Int) (index : Nat) : List Int → Nat
  | [] => index - 1
  | weight :: rest =>
    if target < cumulative + weight then index
    else pickIndexFrom target (cumulative + weight) (index + 1) rest

/-- Walk the cumulative weights at the counter modulo their total. -/
def pickIndex (weights : List Int) (total counter : Int) : Nat :=
  pickIndexFrom (((counter.tmod total) + total).tmod total) 0 0 weights

/-- Round-robin biased by membership weight; the tail follows by descending weight. -/
def weighted (input : PolicyInput) : PolicyOutput :=
  let sorted := sortDeclared input.candidates
  let weights := sorted.map fun candidate => max 0 candidate.weight
  let total := weights.sum
  if total = 0 then
    { ordered := rotateBy sorted input.rotationCounter, notes := [.weightsAbsent (accountIds sorted)] }
  else
    let headIndex := pickIndex weights total input.rotationCounter
    let tail := sortBy (fun left right =>
      let delta := right.weight - left.weight
      if delta ≠ 0 then delta else compareDeclared left right) (sorted.eraseIdx headIndex)
    { ordered := sorted[headIndex]?.toList ++ tail, notes := [] }

/-- The current load of an account under one measure. -/
def load (candidate : Candidate) : LeastUsedMeasure → Nat
  | .inFlight => candidate.account.health.inFlight
  | .recentTokens => candidate.account.health.recentTokens

/-- The measure that breaks ties of the other. -/
def otherMeasure : LeastUsedMeasure → LeastUsedMeasure
  | .inFlight => .recentTokens
  | .recentTokens => .inFlight

/-- The candidate carrying the lowest current load first. -/
def leastUsed (input : PolicyInput) : PolicyOutput :=
  let measure := input.leastUsedMeasure.getD .inFlight
  { ordered := sortBy (fun left right =>
      let primary := (load left measure : Int) - load right measure
      let secondary := (load left (otherMeasure measure) : Int) - load right (otherMeasure measure)
      if primary ≠ 0 then primary else if secondary ≠ 0 then secondary
      else compareDeclared left right) input.candidates
    notes := [] }

/-- Strict order by membership priority, lower first. -/
def priorityFailover (input : PolicyInput) : PolicyOutput :=
  { ordered := sortBy (fun left right =>
      let delta := left.priority - right.priority
      if delta ≠ 0 then delta else compareDeclared left right) input.candidates
    notes := [] }

/-- The continuous readings of an account that still count, under either vocabulary. -/
def continuousReadings (account : AccountSnapshot) (now : Instant) : List Rat :=
  let counts (source : UtilizationSource) (resetsAt : Option Instant) : Bool :=
    source == .continuous && !(resetsAt.any fun reset => decide (reset ≤ now))
  ((account.quotaWindows.getD []).filterMap fun window =>
    if !retiredEvidence window && counts window.utilizationSource window.resetsAt then
      window.utilization else none) ++
  ((account.limiterWindows.getD []).filterMap fun reading =>
    if counts reading.utilizationSource reading.resetsAt then reading.utilization else none)

/-- Remaining headroom from continuous readings only: one minus the peak, if there is any. -/
def continuousHeadroom (account : AccountSnapshot) (now : Instant) : Option Rat :=
  match continuousReadings account now with
  | [] => none
  | first :: rest => some (1 - rest.foldl max first)

/-- The note for accounts `quota-aware` could not rank. -/
def degraded (ids : List String) : PolicyNote := .policyDegraded .quotaAware .roundRobin ids

/-- Most remaining headroom first; accounts with no continuous reading rotate behind. -/
def quotaAware (input : PolicyInput) : PolicyOutput :=
  let headroom (candidate : Candidate) := continuousHeadroom candidate.account input.now
  let ranked := input.candidates.filter fun candidate => (headroom candidate).isSome
  let unranked := input.candidates.filter fun candidate => !(headroom candidate).isSome
  if ranked.length = 0 then
    let ordered := rotateBy (sortDeclared input.candidates) input.rotationCounter
    { ordered, notes := [degraded (accountIds ordered)] }
  else
    let ranked := sortBy (fun left right =>
      let leftRoom := (headroom left).getD 0
      let rightRoom := (headroom right).getD 0
      if leftRoom < rightRoom then 1 else if rightRoom < leftRoom then -1
      else compareDeclared left right) ranked
    let unranked := rotateBy (sortDeclared unranked) input.rotationCounter
    { ordered := ranked ++ unranked
      notes := .quotaRanked (accountIds ranked) (accountIds unranked) ::
        (if unranked.length = 0 then [] else [degraded (accountIds unranked)]) }

/-- The policy registry. -/
def policies : RoutingPolicy → PolicyInput → PolicyOutput
  | .sticky => sticky
  | .roundRobin => roundRobin
  | .weighted => weighted
  | .leastUsed => leastUsed
  | .priorityFailover => priorityFailover
  | .quotaAware => quotaAware

/-- The same candidate of a group: the declared order tells a group's candidates apart. -/
def sameCandidate (left right : Candidate) : Bool :=
  left.order == right.order && left.account.id == right.account.id

/-- Half-open with nothing against it but an expired cooldown. -/
def keepsAffinity (home : Candidate) : Bool :=
  home.halfOpen && home.account.health.cooldownReason != some .credentialRejected

/-- Healthy accounts first, probes after; a sticky home that is merely half-open stays. -/
def demoteHalfOpen (ordered : List Candidate) (home : Option Candidate) : PolicyOutput :=
  let kept := home.filter keepsAffinity
  let probe (candidate : Candidate) : Bool :=
    candidate.halfOpen && !(kept.any fun home => sameCandidate candidate home)
  let notes := kept.toList.map fun home => PolicyNote.affinityKept home.account.id
  if (ordered.filter fun candidate => !probe candidate).length = ordered.length then { ordered, notes }
  else
    { ordered := acceptedFirst (fun candidate => !probe candidate) ordered
      notes := notes ++ [.halfOpenDemoted (accountIds (ordered.filter probe))] }

/-- Permit holders first; under `sticky` only the session's own home may be one. -/
def promoteRecoveryPermit (ordered : List Candidate) (home : Option Candidate) : PolicyOutput :=
  let holds (candidate : Candidate) : Bool :=
    candidate.recoveryPermit && home.all fun home => sameCandidate candidate home
  let holders := ordered.filter holds
  if holders.length = 0 then { ordered, notes := [] }
  else { ordered := acceptedFirst holds ordered, notes := [.recoveryPromoted (accountIds holders)] }

/-- Native accounts first, alias-only accounts after. -/
def deferAliased (ordered : List Candidate) : PolicyOutput :=
  let split := nativeFirst ordered
  if split.2.length = 0 then { ordered, notes := [] }
  else { ordered := split.1, notes := [.aliasedDeferred (accountIds split.2)] }

/-- Move the account with this id to the head of the candidates. -/
def hoist (candidates : List Candidate) (accountId : String) : List Candidate :=
  moveToFront (fun candidate => candidate.account.id == accountId) candidates

/-- Move the bound account of an honored binding to the head. -/
def pinBinding (ordered : List Candidate) : BindingDecision → PolicyOutput
  | .honored accountId =>
    if ordered.any fun candidate => candidate.account.id == accountId then
      { ordered := hoist ordered accountId, notes := [.bindingPinned accountId] }
    else { ordered, notes := [] }
  | _ => { ordered, notes := [] }

/-- The policy and the adjustments that hold for every policy. -/
def runPolicy (policy : RoutingPolicy) (input : PolicyInput) (binding : BindingDecision) : PolicyOutput :=
  let raw := policies policy input
  -- Only `sticky` places by affinity, so only it has a home worth protecting.
  let home := if policy = .sticky then raw.ordered.head? else none
  let demoted := demoteHalfOpen raw.ordered home
  let promoted := promoteRecoveryPermit demoted.ordered home
  let deferred := deferAliased promoted.ordered
  let pinned := pinBinding deferred.ordered binding
  { ordered := pinned.ordered
    notes := raw.notes ++ demoted.notes ++ promoted.notes ++ deferred.notes ++ pinned.notes }

/-- Putting natives first reorders. -/
theorem nativeFirst_perm (candidates : List Candidate) : (nativeFirst candidates).1.Perm candidates := by
  unfold nativeFirst
  dsimp only
  split
  · exact List.Perm.refl _
  · exact acceptedFirst_perm _ _

/-- Taking an element out and putting it first reorders. -/
theorem getElem?_append_eraseIdx_perm {A : Type*} (values : List A) (index : Nat) :
    (values[index]?.toList ++ values.eraseIdx index).Perm values := by
  by_cases h : index < values.length
  · rw [List.getElem?_eq_getElem h]
    exact List.getElem_cons_eraseIdx_perm h
  · rw [List.getElem?_eq_none (by omega), List.eraseIdx_of_length_le (by omega)]
    exact List.Perm.refl _

/-- Every policy returns its candidates in some order. -/
theorem policies_perm (policy : RoutingPolicy) (input : PolicyInput) :
    (policies policy input).ordered.Perm input.candidates := by
  cases policy with
  | sticky => exact sortBy_perm _ _
  | roundRobin => exact (rotateBy_perm _ _).trans (sortBy_perm _ _)
  | weighted =>
    simp only [policies, weighted]
    split
    · exact (rotateBy_perm _ _).trans (sortBy_perm _ _)
    · refine (List.Perm.append_left _ (sortBy_perm _ _)).trans ?_
      exact (getElem?_append_eraseIdx_perm _ _).trans (sortBy_perm _ _)
  | leastUsed => exact sortBy_perm _ _
  | priorityFailover => exact sortBy_perm _ _
  | quotaAware =>
    simp only [policies, quotaAware]
    split
    · exact (rotateBy_perm _ _).trans (sortBy_perm _ _)
    · refine ((sortBy_perm _ _).append ((rotateBy_perm _ _).trans (sortBy_perm _ _))).trans ?_
      exact acceptedFirst_perm _ _

/-- Demoting probes reorders. -/
theorem demoteHalfOpen_perm (ordered : List Candidate) (home : Option Candidate) :
    (demoteHalfOpen ordered home).ordered.Perm ordered := by
  unfold demoteHalfOpen
  dsimp only
  split
  · exact List.Perm.refl _
  · exact acceptedFirst_perm _ _

/-- Promoting permit holders reorders. -/
theorem promoteRecoveryPermit_perm (ordered : List Candidate) (home : Option Candidate) :
    (promoteRecoveryPermit ordered home).ordered.Perm ordered := by
  unfold promoteRecoveryPermit
  dsimp only
  split
  · exact List.Perm.refl _
  · exact acceptedFirst_perm _ _

/-- Deferring aliases reorders. -/
theorem deferAliased_perm (ordered : List Candidate) : (deferAliased ordered).ordered.Perm ordered := by
  unfold deferAliased
  dsimp only
  split
  · exact List.Perm.refl _
  · exact nativeFirst_perm _

/-- Hoisting an account reorders. -/
theorem hoist_perm (candidates : List Candidate) (accountId : String) :
    (hoist candidates accountId).Perm candidates := moveToFront_perm _ _

/-- Pinning a binding reorders. -/
theorem pinBinding_perm (ordered : List Candidate) (binding : BindingDecision) :
    (pinBinding ordered binding).ordered.Perm ordered := by
  unfold pinBinding
  split
  · split
    · exact hoist_perm _ _
    · exact List.Perm.refl _
  · exact List.Perm.refl _

/-- `runPolicy` returns its candidates in some order, whatever the policy and the binding. -/
theorem runPolicy_perm (policy : RoutingPolicy) (input : PolicyInput) (binding : BindingDecision) :
    (runPolicy policy input binding).ordered.Perm input.candidates :=
  (pinBinding_perm _ _).trans <| (deferAliased_perm _).trans <|
    (promoteRecoveryPermit_perm _ _).trans <| (demoteHalfOpen_perm _ _).trans (policies_perm _ _)

/-- Hoisting an account that is in the list puts it at the head. -/
theorem hoist_head {candidates : List Candidate} {accountId : String}
    (h : ∃ candidate ∈ candidates, candidate.account.id = accountId) :
    ∃ first rest, hoist candidates accountId = first :: rest ∧ first.account.id = accountId := by
  obtain ⟨candidate, hmem, hid⟩ := h
  obtain ⟨first, rest, heq, htest⟩ := moveToFront_head
    (fun candidate : Candidate => candidate.account.id == accountId) ⟨candidate, hmem, by simpa using hid⟩
  exact ⟨first, rest, heq, by simpa using htest⟩

end MultiAiRouter.Routing
