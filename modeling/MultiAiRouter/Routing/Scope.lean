import MultiAiRouter.Routing.Types
import Mathlib.Data.List.Dedup

/-!
# Scope resolution

The key's scope, intersected with pool membership, as a list of groups, because each pool's own policy runs within
that pool. A pool's overflow account is one of its own memberships, held back from the policy.

A `Map` answers with the last entry of a key, and iterates the ids in first-insertion order.
-/

namespace MultiAiRouter.Routing

/-- The account a `Map` keyed by id answers with: the last one entered under it. -/
def accountById (accounts : List AccountSnapshot) (id : String) : Option AccountSnapshot :=
  accounts.reverse.find? fun account => account.id == id

/-- The pool a `Map` keyed by id answers with. -/
def poolById (pools : List PoolSnapshot) (id : String) : Option PoolSnapshot :=
  pools.reverse.find? fun pool => pool.id == id

/-- The elements of a `Set` filled from a list, in first-insertion order. -/
def insertionOrder (ids : List String) : List String :=
  ids.reverse.dedup.reverse

/-- An account admitted outside any pool, with its own weight and priority. -/
def scopedAccount (account : AccountSnapshot) (poolId : Option String) (order : Nat) : ScopedAccount :=
  { account, poolId, weight := account.weight, priority := account.priority, order }

/-- A pool membership resolved to its account; the membership's values override. -/
def scopedMember (membership : PoolMembership) (account : AccountSnapshot) (poolId : String)
    (order : Nat) : ScopedAccount :=
  { account, poolId := some poolId
    weight := membership.weight.getD account.weight
    priority := membership.priority.getD account.priority
    order }

/-- The group of a scope that resolves outside any pool. -/
def flatGroup (accounts : List AccountSnapshot) (policy : RoutingPolicy) (rotationCounter : Int) :
    ScopeGroup :=
  { poolId := none, poolName := none, policy, rotationCounter
    members := accounts.zipIdx.map fun (account, order) => scopedAccount account none order
    overflow := none }

/-- The named accounts that exist, and the names that resolve to nothing. -/
def resolveAccountList (accountIds : List String) (accounts : List AccountSnapshot) :
    List AccountSnapshot × List String :=
  (accountIds.filterMap fun id => accountById accounts id,
    accountIds.filter fun id => (accountById accounts id).isNone)

/-- One turn of the membership loop: what the pool has gathered so far. -/
structure PoolWalk where
  members : List ScopedAccount := []
  overflowMembership : Option PoolMembership := none
  unresolved : List String := []

/-- Hold the overflow membership back, skip a missing account, admit every other member. -/
def PoolWalk.visit (pool : PoolSnapshot) (accounts : List AccountSnapshot) (walk : PoolWalk)
    (membership : PoolMembership) : PoolWalk :=
  if some membership.accountId = pool.overflowAccountId then
    { walk with overflowMembership := some membership }
  else
    match accountById accounts membership.accountId with
    | none => { walk with unresolved := walk.unresolved ++ [membership.accountId] }
    | some account =>
      { walk with members := walk.members ++ [scopedMember membership account pool.id walk.members.length] }

/-- The pool's member of last resort, when it is a membership of the pool and its account exists. -/
def resolveOverflow (pool : PoolSnapshot) (membership : Option PoolMembership)
    (accounts : List AccountSnapshot) (order : Nat) : Option ScopedAccount × List String :=
  match pool.overflowAccountId, membership with
  | some overflowId, some membership =>
    match accountById accounts overflowId with
    | none => (none, [overflowId])
    | some account => (some (scopedMember membership account pool.id order), [])
  | _, _ => (none, [])

/-- One pool's group, with the targets that no longer exist. -/
def poolGroup (pool : PoolSnapshot) (accounts : List AccountSnapshot) (fallbackRotation : Int) :
    ScopeGroup × List String :=
  let walk := pool.members.foldl (PoolWalk.visit pool accounts) {}
  let overflow := resolveOverflow pool walk.overflowMembership accounts walk.members.length
  ({ poolId := some pool.id, poolName := some pool.name, policy := pool.policy
     rotationCounter := pool.rotationCounter.getD fallbackRotation
     members := walk.members
     overflow := overflow.1 }, walk.unresolved ++ overflow.2)

/-- The groups of the named pools, in the key's order, skipping pools that no longer exist. -/
def poolGroups (snapshot : RoutingSnapshot) (rotation : Int) :
    List String → List ScopeGroup × List String
  | [] => ([], [])
  | poolId :: rest =>
    let tail := poolGroups snapshot rotation rest
    match poolById snapshot.pools poolId with
    | none => (tail.1, poolId :: tail.2)
    | some pool =>
      let group := poolGroup pool snapshot.accounts rotation
      (group.1 :: tail.1, group.2 ++ tail.2)

/-- The groups a scope resolves to, and its unresolved targets. -/
def buildGroups (snapshot : RoutingSnapshot) (request : SelectionRequest)
    (options : SelectionOptions) : List ScopeGroup × List String :=
  let unpooled := options.unpooledPolicy.getD defaultRoutingPolicy
  let rotation := request.rotationCounter.getD 0
  match request.keyScope with
  | .all => ([flatGroup snapshot.accounts unpooled rotation], [])
  | .accounts accountIds =>
    let resolved := resolveAccountList accountIds snapshot.accounts
    ([flatGroup resolved.1 unpooled rotation], resolved.2)
  | .pools poolIds => poolGroups snapshot rotation poolIds

/-- Every account of a group, the withheld overflow last. -/
def ScopeGroup.everyone (group : ScopeGroup) : List ScopedAccount :=
  group.members ++ group.overflow.toList

/-- The groups with the diagnostics every other layer reads. -/
structure ScopeResolution where
  groups : List ScopeGroup
  diagnostics : ScopeDiagnostics

/-- Resolve the presenting key's scope against the snapshot. -/
def resolveScope (snapshot : RoutingSnapshot) (request : SelectionRequest)
    (options : SelectionOptions) : ScopeResolution :=
  let built := buildGroups snapshot request options
  { groups := built.1
    diagnostics :=
      { scope := request.keyScope
        inScopeAccountIds := insertionOrder
          (built.1.flatMap fun group => group.everyone.map fun member => member.account.id)
        unresolvedTargetIds := built.2 } }

/-- What each scope admits: any account, a named one, or a membership of the named pool it is in. -/
def KeyScopeSnapshot.Admits (snapshot : RoutingSnapshot) (member : ScopedAccount) :
    KeyScopeSnapshot → Prop
  | .all => member.account ∈ snapshot.accounts
  | .accounts accountIds => member.account ∈ snapshot.accounts ∧ member.account.id ∈ accountIds
  | .pools poolIds => member.account ∈ snapshot.accounts ∧ ∃ pool ∈ snapshot.pools,
      pool.id ∈ poolIds ∧ member.poolId = some pool.id ∧
        ∃ membership ∈ pool.members, membership.accountId = member.account.id

section Lookup

variable {snapshot : RoutingSnapshot} {id : String} {account : AccountSnapshot}

/-- A lookup by id answers with an account of the list that carries the id. -/
theorem accountById_spec {accounts : List AccountSnapshot}
    (h : accountById accounts id = some account) : account ∈ accounts ∧ account.id = id := by
  refine ⟨List.mem_reverse.mp (List.mem_of_find?_eq_some h), ?_⟩
  simpa using List.find?_some h

/-- A pool looked up by id is a pool of the snapshot that carries the id. -/
theorem poolById_spec {pools : List PoolSnapshot} {pool : PoolSnapshot}
    (h : poolById pools id = some pool) : pool ∈ pools ∧ pool.id = id := by
  refine ⟨List.mem_reverse.mp (List.mem_of_find?_eq_some h), ?_⟩
  simpa using List.find?_some h

end Lookup

/-- The walk of a pool keeps only memberships of the pool, resolved to accounts of the snapshot. -/
structure PoolWalk.Sound (pool : PoolSnapshot) (accounts : List AccountSnapshot)
    (walk : PoolWalk) : Prop where
  members : ∀ member ∈ walk.members, member.account ∈ accounts ∧ member.poolId = some pool.id ∧
    ∃ membership ∈ pool.members, membership.accountId = member.account.id
  overflow : ∀ membership, walk.overflowMembership = some membership →
    membership ∈ pool.members ∧ some membership.accountId = pool.overflowAccountId

/-- Visiting a membership of the pool keeps the walk sound. -/
theorem PoolWalk.visit_sound {pool : PoolSnapshot} {accounts : List AccountSnapshot} {walk : PoolWalk}
    {membership : PoolMembership} (hwalk : walk.Sound pool accounts) (hmember : membership ∈ pool.members) :
    (walk.visit pool accounts membership).Sound pool accounts := by
  unfold PoolWalk.visit
  split
  · next hoverflow =>
    refine ⟨hwalk.members, ?_⟩
    rintro kept ⟨rfl⟩
    exact ⟨hmember, hoverflow⟩
  · split
    · exact ⟨hwalk.members, hwalk.overflow⟩
    · next account haccount =>
      refine ⟨?_, hwalk.overflow⟩
      intro member hmem
      rcases List.mem_append.mp hmem with hold | hnew
      · exact hwalk.members member hold
      · obtain rfl := List.mem_singleton.mp hnew
        obtain ⟨hin, hid⟩ := accountById_spec haccount
        exact ⟨hin, rfl, membership, hmember, hid.symm⟩

/-- The whole walk of a pool is sound. -/
theorem PoolWalk.foldl_sound {pool : PoolSnapshot} {accounts : List AccountSnapshot}
    (memberships : List PoolMembership) (hsub : ∀ membership ∈ memberships, membership ∈ pool.members)
    (walk : PoolWalk) (hwalk : walk.Sound pool accounts) :
    (memberships.foldl (PoolWalk.visit pool accounts) walk).Sound pool accounts := by
  induction memberships generalizing walk with
  | nil => exact hwalk
  | cons membership rest ih =>
    rw [List.foldl_cons]
    exact ih (fun m hm => hsub m (List.mem_cons_of_mem _ hm)) _
      (PoolWalk.visit_sound hwalk (hsub membership List.mem_cons_self))

/-- Everyone in a pool's group is an account of the snapshot with a membership of the pool. -/
theorem poolGroup_everyone {pool : PoolSnapshot} {accounts : List AccountSnapshot} {fallbackRotation : Int}
    {member : ScopedAccount} (hmember : member ∈ (poolGroup pool accounts fallbackRotation).1.everyone) :
    member.account ∈ accounts ∧ member.poolId = some pool.id ∧
      ∃ membership ∈ pool.members, membership.accountId = member.account.id := by
  have hwalk : (pool.members.foldl (PoolWalk.visit pool accounts) {}).Sound pool accounts :=
    PoolWalk.foldl_sound pool.members (fun _ h => h) {} ⟨by simp, by simp⟩
  rcases List.mem_append.mp hmember with hprimary | hoverflow
  · exact hwalk.members member hprimary
  · have hresolved : (resolveOverflow pool (pool.members.foldl (PoolWalk.visit pool accounts) {}).overflowMembership
        accounts (pool.members.foldl (PoolWalk.visit pool accounts) {}).members.length).1 = some member :=
      Option.mem_toList.mp hoverflow
    unfold resolveOverflow at hresolved
    split at hresolved
    · next overflowId membership hid hheld =>
      obtain ⟨hin, hsame⟩ := hwalk.overflow membership hheld
      split at hresolved
      · cases hresolved
      · next account haccount =>
        cases hresolved
        obtain ⟨haccounts, hname⟩ := accountById_spec haccount
        refine ⟨haccounts, rfl, membership, hin, ?_⟩
        rw [hid, Option.some.injEq] at hsame
        exact hsame.trans hname.symm
    · cases hresolved

/-- Every group of a pool scope is the group of a named pool of the snapshot. -/
theorem poolGroups_mem {snapshot : RoutingSnapshot} {rotation : Int} {poolIds : List String}
    {group : ScopeGroup} (hgroup : group ∈ (poolGroups snapshot rotation poolIds).1) :
    ∃ pool ∈ snapshot.pools, pool.id ∈ poolIds ∧ group = (poolGroup pool snapshot.accounts rotation).1 := by
  induction poolIds with
  | nil => simp [poolGroups] at hgroup
  | cons poolId rest ih =>
    have hrest (h : group ∈ (poolGroups snapshot rotation rest).1) :
        ∃ pool ∈ snapshot.pools, pool.id ∈ poolId :: rest ∧
          group = (poolGroup pool snapshot.accounts rotation).1 := by
      obtain ⟨pool, hpool, hid, heq⟩ := ih h
      exact ⟨pool, hpool, List.mem_cons_of_mem _ hid, heq⟩
    unfold poolGroups at hgroup
    split at hgroup
    · exact hrest hgroup
    · next pool hlookup =>
      rcases List.mem_cons.mp hgroup with rfl | htail
      · obtain ⟨hpool, hid⟩ := poolById_spec hlookup
        exact ⟨pool, hpool, hid ▸ List.mem_cons_self, rfl⟩
      · exact hrest htail

/-- Everyone in an unpooled group is one of the accounts it was built from. -/
theorem flatGroup_everyone {accounts : List AccountSnapshot} {policy : RoutingPolicy} {rotationCounter : Int}
    {member : ScopedAccount} (hmember : member ∈ (flatGroup accounts policy rotationCounter).everyone) :
    member.account ∈ accounts := by
  simp only [ScopeGroup.everyone, flatGroup, Option.toList_none, List.append_nil, List.mem_map] at hmember
  obtain ⟨⟨account, order⟩, hin, rfl⟩ := hmember
  exact List.fst_mem_of_mem_zipIdx hin

/-- Everyone a scope resolves to is admitted by it. -/
theorem buildGroups_admits {snapshot : RoutingSnapshot} {request : SelectionRequest} {options : SelectionOptions}
    {group : ScopeGroup} {member : ScopedAccount} (hgroup : group ∈ (buildGroups snapshot request options).1)
    (hmember : member ∈ group.everyone) : request.keyScope.Admits snapshot member := by
  unfold buildGroups at hgroup
  cases hscope : request.keyScope with
  | all =>
    simp only [hscope, List.mem_singleton] at hgroup
    subst hgroup
    exact flatGroup_everyone hmember
  | accounts accountIds =>
    simp only [hscope, List.mem_singleton] at hgroup
    subst hgroup
    obtain ⟨id, hid, hlookup⟩ := List.mem_filterMap.mp (flatGroup_everyone hmember)
    obtain ⟨haccount, hname⟩ := accountById_spec hlookup
    exact ⟨haccount, hname ▸ hid⟩
  | pools poolIds =>
    simp only [hscope] at hgroup
    obtain ⟨pool, hpool, hid, rfl⟩ := poolGroups_mem hgroup
    obtain ⟨hin, hpoolId, hmembership⟩ := poolGroup_everyone hmember
    exact ⟨hin, pool, hpool, hid, hpoolId, hmembership⟩

end MultiAiRouter.Routing
