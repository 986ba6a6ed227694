import MultiAiRouter.Common.Run

/-!
# The credential refresh window

`ensureFresh` on one account with the cross-replica lock wired, one step per synchronous stretch between two awaits:
a caller reads the credential, takes the window when no holder is active and asks for the lease, or waits and reads
again. A holder stays on the record until its claim is released; past the cap it blocks no newcomer.
-/

namespace MultiAiRouter.ClaudeSdk

open Common

/-- How wide the refresh window is, and how long a waiter waits. -/
structure CredentialFreshnessOptions where
  skewMs : Int
  maxWaitMs : Int
  deriving DecidableEq

/-- What the credential file says, without its tokens. -/
structure CredentialMetadata where
  hasTokens : Bool
  accessTokenExpiresAt : Option Int
  deriving DecidableEq

/-- Reading the credential: its metadata, a file that cannot be read, or no ownership of it. -/
inductive CredentialRead
  | metadata (metadata : CredentialMetadata)
  | unreadable
  | ownershipUnavailable
  deriving DecidableEq

/-- What the account's window looks like right now. -/
inductive Freshness
  | fresh
  | refreshing
  | noCredential
  deriving DecidableEq

/-- An unknown expiry is fresh; a known one is fresh while it is further off than the skew. -/
def classify (options : CredentialFreshnessOptions) (now : Int) (metadata : CredentialMetadata) :
    Freshness :=
  if metadata.hasTokens then
    match metadata.accessTokenExpiresAt with
    | none => .fresh
    | some expiresAt => if expiresAt - now > options.skewMs then .fresh else .refreshing
  else .noCredential

/-- One admission into the window. -/
structure Holder where
  entry : ℕ
  since : Int
  released : Bool := false
  deriving DecidableEq

/-- A holder blocks newcomers until it is released or ages past the cap. -/
def isActive (options : CredentialFreshnessOptions) (now : Int) (holder : Holder) : Bool :=
  !holder.released && decide (now - holder.since < options.maxWaitMs)

/-- What the cross-replica lock answers. -/
inductive LeaseAnswer
  | acquired
  | busy
  | capacity
  | aborted
  | thrown
  deriving DecidableEq

/-- Where one `ensureFresh` call stands. -/
inductive CallerPhase
  | reading (startedAt : Option Int)
  | trying (holder : Holder) (unreleased : Bool) (startedAt : Int)
  | waiting (startedAt : Int)
  | owning (holder : Holder) (lease : Bool)
  | through
  | rejected
  | released
  deriving DecidableEq

/-- The window of one account: the clock, the holders on record, and every call made. -/
structure RefreshWindow where
  now : Int
  holders : List Holder := []
  nextEntry : ℕ := 0
  callers : List CallerPhase := []
  deriving DecidableEq

/-- What happens to the window: time passes, a call arrives, or one of its awaits is answered. -/
inductive FreshnessCall
  | tick (ms : ℕ)
  | ensureFresh (aborted : Bool)
  | read (caller : ℕ) (result : CredentialRead)
  | answer (caller : ℕ) (lease : LeaseAnswer) (aborted : Bool)
  | wake (caller : ℕ) (aborted : Bool)
  | release (caller : ℕ)
  deriving DecidableEq

namespace RefreshWindow

/-- The call moves on to its next await, or ends. -/
def move (state : RefreshWindow) (caller : ℕ) (phase : CallerPhase) : RefreshWindow :=
  { state with callers := state.callers.set caller phase }

/-- Release the holder's entry: it leaves the record. -/
def retire (state : RefreshWindow) (holder : Holder) : RefreshWindow :=
  { state with holders := state.holders.filter fun other => other.entry != holder.entry }

/-- Record the caller's entry beside the holders already there, and ask for the lease. -/
def recordHolder (state : RefreshWindow) (caller : ℕ) (unreleased : Bool) (startedAt : Int) :
    RefreshWindow :=
  let holder : Holder := { entry := state.nextEntry, since := state.now }
  { state with
    holders := state.holders ++ [holder]
    nextEntry := state.nextEntry + 1
    callers := state.callers.set caller (.trying holder unreleased startedAt) }

/-- Take the window when no holder is active, else wait. -/
def tryOwn (options : CredentialFreshnessOptions) (state : RefreshWindow) (caller : ℕ)
    (startedAt : Int) : RefreshWindow :=
  if state.holders.any (isActive options state.now) then state.move caller (.waiting startedAt)
  else state.recordHolder caller (state.holders.any fun holder => !holder.released) startedAt

/-- The lock answered: own the window with or without the lease, or step back down. -/
def answered (state : RefreshWindow) (caller : ℕ) (holder : Holder) (unreleased : Bool)
    (startedAt : Int) (aborted : Bool) : LeaseAnswer → RefreshWindow
  | .thrown => state.move caller (.owning holder false)
  | .acquired => state.move caller (.owning holder true)
  | .busy => (state.retire holder).move caller (.waiting startedAt)
  | .capacity | .aborted =>
    if aborted then (state.retire holder).move caller .rejected
    else if unreleased then (state.retire holder).move caller (.waiting startedAt)
    else state.move caller (.owning holder false)

/-- One thing happens to the window. -/
def step (options : CredentialFreshnessOptions) (state : RefreshWindow) :
    FreshnessCall → RefreshWindow
  | .tick ms => { state with now := state.now + ms }
  | .ensureFresh aborted =>
    { state with callers := state.callers ++ [if aborted then .rejected else .reading none] }
  | .read caller result =>
    match state.callers[caller]? with
    | some (.reading startedAt) =>
      match result with
      | .ownershipUnavailable => state.move caller .rejected
      | .unreadable => state.move caller .through
      | .metadata metadata =>
        if classify options state.now metadata = .refreshing then
          state.tryOwn options caller (startedAt.getD state.now)
        else state.move caller .through
    | _ => state
  | .answer caller lease aborted =>
    match state.callers[caller]? with
    | some (.trying holder unreleased startedAt) =>
      state.answered caller holder unreleased startedAt aborted lease
    | _ => state
  | .wake caller aborted =>
    match state.callers[caller]? with
    | some (.waiting startedAt) =>
      if aborted then state.move caller .rejected
      else if state.now - startedAt ≥ options.maxWaitMs then state.move caller .through
      else state.move caller (.reading (some startedAt))
    | _ => state
  | .release caller =>
    match state.callers[caller]? with
    | some (.owning holder _) => (state.retire holder).move caller .released
    | _ => state

/-- A window nobody has called yet. -/
def start (now : Int) : RefreshWindow := { now := now }

/-- Everything that happens to a window, in order. -/
def run (options : CredentialFreshnessOptions) (state : RefreshWindow)
    (calls : List FreshnessCall) : RefreshWindow :=
  runFrom (step options) state calls

/-- The caller's claim was granted and not released. -/
def Owns (state : RefreshWindow) (caller : ℕ) : Prop :=
  ∃ holder lease, state.callers[caller]? = some (.owning holder lease)

/-- The caller owns the window and is younger than the cap. -/
def ActivelyOwns (options : CredentialFreshnessOptions) (state : RefreshWindow) (caller : ℕ) :
    Prop :=
  ∃ holder lease, state.callers[caller]? = some (.owning holder lease) ∧
    state.now - holder.since < options.maxWaitMs

/-- Whoever is granted the window while another owner has not released holds the lease. -/
def TakeoverLeased (options : CredentialFreshnessOptions) (state : RefreshWindow) (call : FreshnessCall) : Prop :=
  ∀ caller holder lease, (state.step options call).callers[caller]? = some (.owning holder lease) →
    ¬ state.Owns caller → (∃ other, state.Owns other) → lease = true

/-- The lock is unavailable to a caller that does not step back for it: it threw, or it had no session for a caller
that found nobody on the record. -/
def LeaseUnavailable (state : RefreshWindow) : FreshnessCall → Prop
  | .answer caller lease aborted =>
    ∃ holder unreleased startedAt, state.callers[caller]? = some (.trying holder unreleased startedAt) ∧
      (lease = .thrown ∨ (lease = .capacity ∨ lease = .aborted) ∧ aborted = false ∧ unreleased = false)
  | _ => False

/-- The lock is unavailable only while nobody owns the window. -/
def UnavailableAlone (state : RefreshWindow) (call : FreshnessCall) : Prop :=
  state.LeaseUnavailable call → ∀ other, ¬ state.Owns other

end RefreshWindow

end MultiAiRouter.ClaudeSdk
