import MultiAiRouter.Common.Exclusive

/-!
# One conversation, one turn at a time

A scope and a key are joined by a NUL, which no scope holds, so no two pairs spell one key. A turn claims its
session key and, as it learns them, the SDK sessions it runs on. A claim that finds its key taken is refused, and a
release gives everything back once.
-/

namespace MultiAiRouter.ClaudeSdk

/-- The character that separates a scope from its key. -/
def scopeSeparator : Char := '\x00'

/-- Join a scope to a key. -/
def scopedKey (scope key : String) : String := scope ++ String.singleton scopeSeparator ++ key

/-- The text holds no separator. -/
def NulFree (text : String) : Prop := scopeSeparator ∉ text.toList

instance (text : String) : Decidable (NulFree text) := inferInstanceAs (Decidable (_ ∉ _))

/-- What a fingerprint is made of. -/
structure FingerprintSeed where
  apiKeyId : String
  accountId : String
  clientCwd : Option String
  firstUserText : String
  deriving DecidableEq

/-- The fingerprint of an opening, scoped by router key and account. The digest stands for the first
16 hex characters of the SHA-256; the opening text arrives cut to its cap. -/
def sessionFingerprint (digest : String → String) (seed : FingerprintSeed) : String :=
  scopedKey seed.apiKeyId (scopedKey seed.accountId
    (digest (seed.clientCwd.getD "" ++ "\n" ++ seed.firstUserText)))

/-- The key is scoped by the scope. -/
def inScope (scope key : String) : Bool := (scopedKey scope "").toList.isPrefixOf key.toList

theorem toList_scopedKey (scope key : String) :
    (scopedKey scope key).toList = scope.toList ++ scopeSeparator :: key.toList := by
  simp [scopedKey]

/-- The text in front of the first separator is the same in both. -/
theorem append_separator_inj {first second rest rest' : List Char} (hfirst : scopeSeparator ∉ first)
    (hsecond : scopeSeparator ∉ second) (h : first ++ scopeSeparator :: rest = second ++ scopeSeparator :: rest') :
    first = second ∧ rest = rest' := by
  induction first generalizing second with
  | nil =>
    cases second with
    | nil => exact ⟨rfl, by simpa using h⟩
    | cons c second =>
      simp only [List.nil_append, List.cons_append, List.cons.injEq] at h
      exact absurd (h.1 ▸ List.mem_cons_self) hsecond
  | cons c first ih =>
    cases second with
    | nil =>
      simp only [List.nil_append, List.cons_append, List.cons.injEq] at h
      exact absurd (h.1 ▸ List.mem_cons_self) hfirst
    | cons d second =>
      simp only [List.cons_append, List.cons.injEq] at h
      obtain ⟨rfl, hrest⟩ := h
      obtain ⟨rfl, hkeys⟩ := ih (fun hmem => hfirst (List.mem_cons_of_mem _ hmem))
        (fun hmem => hsecond (List.mem_cons_of_mem _ hmem)) hrest
      exact ⟨rfl, hkeys⟩

/-- A scoped key has one scope and one key. -/
theorem scopedKey_inj {scope scope' key key' : String} (hscope : NulFree scope) (hscope' : NulFree scope')
    (h : scopedKey scope key = scopedKey scope' key') : scope = scope' ∧ key = key' := by
  have hlists := congrArg String.toList h
  rw [toList_scopedKey, toList_scopedKey] at hlists
  obtain ⟨hfirst, hrest⟩ := append_separator_inj hscope hscope' hlists
  exact ⟨String.toList_inj.mp hfirst, String.toList_inj.mp hrest⟩

/-- A scoped key is in no other scope. -/
theorem scope_of_inScope {scope scope' key : String} (hscope : NulFree scope) (hscope' : NulFree scope')
    (h : inScope scope (scopedKey scope' key) = true) : scope = scope' := by
  rw [inScope, List.isPrefixOf_iff_prefix, toList_scopedKey, toList_scopedKey] at h
  obtain ⟨rest, hrest⟩ := h
  rw [List.append_assoc, List.cons_append] at hrest
  exact String.toList_inj.mp (append_separator_inj hscope hscope' hrest).1

open Common

/-- A claim on one key, granted or refused, and whether it was given back. -/
structure SessionClaim where
  key : String
  held : Bool
  released : Bool := false
  deriving DecidableEq

/-- Take the key if it is free. -/
def acquireClaim (claimed : List String) (key : String) : SessionClaim × List String :=
  if key ∈ claimed then ({ key, held := false }, claimed) else ({ key, held := true }, key :: claimed)

/-- Give a granted claim back, once. -/
def SessionClaim.release (claim : SessionClaim) (claimed : List String) : SessionClaim × List String :=
  if claim.held && !claim.released then
    ({ claim with released := true }, claimed.filter (· ≠ claim.key))
  else (claim, claimed)

/-- The claim is granted and was not given back. -/
def SessionClaim.live (claim : SessionClaim) : Bool := claim.held && !claim.released

/-- A turn's claims: its session key, and the SDK sessions it asked for on its account. `held` is what
the turn was told when it claimed, and stays. -/
structure TurnClaim where
  accountId : String
  direct : SessionClaim
  sdkClaims : List (String × SessionClaim) := []
  released : Bool := false
  held : Bool := true
  deriving DecidableEq

/-- The key a turn claims for its conversation. -/
def sessionClaimKey (key : String) : String := scopedKey "session" key

/-- The key a turn claims for an SDK session on its account. -/
def sdkClaimKey (accountId sdkSessionId : String) : String :=
  scopedKey "sdk" (scopedKey accountId sdkSessionId)

namespace TurnClaim

/-- Claim the SDK session, unless the turn asked before or is over; whether the turn owns it. -/
def own (claim : TurnClaim) (claimed : List String) (sdkSessionId : String) :
    Bool × TurnClaim × List String :=
  if claim.released then (false, claim, claimed)
  else match claim.sdkClaims.lookup sdkSessionId with
    | some existing => (existing.held, claim, claimed)
    | none =>
      let (taken, claimed) := acquireClaim claimed (sdkClaimKey claim.accountId sdkSessionId)
      (taken.held, { claim with sdkClaims := claim.sdkClaims ++ [(sdkSessionId, taken)] }, claimed)

/-- Give back the SDK sessions, the first asked for first. -/
def releaseAll : List (String × SessionClaim) → List String → List (String × SessionClaim) × List String
  | [], claimed => ([], claimed)
  | (id, claim) :: rest, claimed =>
    let (given, claimed) := claim.release claimed
    let (others, claimed) := releaseAll rest claimed
    ((id, given) :: others, claimed)

/-- Give everything back, once. -/
def release (claim : TurnClaim) (claimed : List String) : TurnClaim × List String :=
  if claim.released then (claim, claimed)
  else
    let (direct, claimed) := claim.direct.release claimed
    let (sdkClaims, claimed) := releaseAll claim.sdkClaims claimed
    ({ claim with direct, sdkClaims, released := true }, claimed)

/-- The turn's claim is held and was not released. -/
def running (claim : TurnClaim) : Bool := claim.held && !claim.released

/-- The turn owns the SDK session on its account. -/
def owns (claim : TurnClaim) (sdkSessionId : String) : Bool :=
  !claim.released && ((claim.sdkClaims.lookup sdkSessionId).map SessionClaim.held).getD false

/-- The keys the turn's claims hold. -/
def Has (claim : TurnClaim) (key : String) : Prop :=
  (claim.direct.live = true ∧ claim.direct.key = key) ∨
    ∃ id sdkClaim, (id, sdkClaim) ∈ claim.sdkClaims ∧ sdkClaim.live = true ∧ sdkClaim.key = key

end TurnClaim

/-- Claim the conversation and, for a turn that rejoins a session, that session; a turn that does not
get both gives back what it got. -/
def claimSessionTurn (claimed : List String) (key accountId : String) (sdkSessionId : Option String) :
    TurnClaim × List String :=
  let (direct, claimed) := acquireClaim claimed (sessionClaimKey key)
  let claim : TurnClaim := { accountId, direct }
  let (held, claim, claimed) :=
    if direct.held then
      match sdkSessionId with
      | none => (true, claim, claimed)
      | some id => claim.own claimed id
    else (false, claim, claimed)
  if held then (claim, claimed) else { claim with held := false }.release claimed

section Claims

variable {claimed : List String}

/-- A key is taken by the claim exactly when it was free. -/
theorem acquireClaim_spec (claimed : List String) (key : String) :
    (acquireClaim claimed key).1.key = key ∧ (acquireClaim claimed key).1.released = false ∧
      ((acquireClaim claimed key).1.held = true ↔ key ∉ claimed) ∧
      ∀ other, other ∈ (acquireClaim claimed key).2 ↔
        other ∈ claimed ∨ ((acquireClaim claimed key).1.held = true ∧ other = key) := by
  unfold acquireClaim
  by_cases h : key ∈ claimed
  · simp [h]
  · simp [h, or_comm]

/-- A released claim has given its key back. -/
theorem SessionClaim.release_spec (claim : SessionClaim) (claimed : List String) :
    (claim.release claimed).1.live = false ∧ (claim.release claimed).1.key = claim.key ∧
      (claim.release claimed).1.held = claim.held ∧ ∀ other, other ∈ (claim.release claimed).2 ↔
        other ∈ claimed ∧ ¬ (claim.live = true ∧ claim.key = other) := by
  unfold SessionClaim.release SessionClaim.live
  by_cases h : (claim.held && !claim.released) = true
  · rw [if_pos h]
    refine ⟨by simp, rfl, rfl, fun other => ?_⟩
    simp only [List.mem_filter, decide_eq_true_eq, h, true_and, ne_eq]
    exact and_congr_right fun _ => not_congr eq_comm
  · rw [if_neg h]
    refine ⟨by simpa using h, rfl, rfl, fun other => ?_⟩
    simp [h]

/-- Released claims have given their keys back. -/
theorem TurnClaim.releaseAll_spec (claims : List (String × SessionClaim)) (claimed : List String) :
    (∀ pair ∈ (TurnClaim.releaseAll claims claimed).1, pair.2.live = false) ∧
      ∀ other, other ∈ (TurnClaim.releaseAll claims claimed).2 ↔
        other ∈ claimed ∧ ∀ pair ∈ claims, ¬ (pair.2.live = true ∧ pair.2.key = other) := by
  induction claims generalizing claimed with
  | nil => simp [TurnClaim.releaseAll]
  | cons pair rest ih =>
    obtain ⟨id, claim⟩ := pair
    obtain ⟨hlive, -, -, hmem⟩ := claim.release_spec claimed
    obtain ⟨hrest, hothers⟩ := ih (claim.release claimed).2
    refine ⟨?_, ?_⟩
    · intro pair hpair
      rcases List.mem_cons.mp hpair with rfl | hpair
      · exact hlive
      · exact hrest pair hpair
    · intro other
      change other ∈ (TurnClaim.releaseAll rest (claim.release claimed).2).2 ↔ _
      rw [hothers, hmem, List.forall_mem_cons, and_assoc]

/-- The claim's keys, and that it has given nothing back until it is released, and all of it after. -/
structure TurnClaim.WellFormed (claim : TurnClaim) (key : String) : Prop where
  direct_key : claim.direct.key = sessionClaimKey key
  sdk_key : ∀ pair ∈ claim.sdkClaims, pair.2.key = sdkClaimKey claim.accountId pair.1
  unreleased : claim.released = false →
    claim.direct.released = false ∧ ∀ pair ∈ claim.sdkClaims, pair.2.released = false
  released : claim.released = true → ∀ other, ¬ claim.Has other
  held : claim.held = true → claim.direct.held = true

namespace TurnClaim

variable {claim : TurnClaim} {key : String}

/-- A turn that runs has the conversation's key. -/
theorem WellFormed.has_session (h : claim.WellFormed key) (hrunning : claim.running = true) :
    claim.Has (sessionClaimKey key) := by
  simp only [running, Bool.and_eq_true, Bool.not_eq_true'] at hrunning
  have hdirect := (h.unreleased hrunning.2).1
  exact .inl ⟨by simp [SessionClaim.live, h.held hrunning.1, hdirect], h.direct_key⟩

/-- A turn that owns an SDK session has the session's key. -/
theorem WellFormed.has_sdk (h : claim.WellFormed key) {id : String} (howns : claim.owns id = true) :
    claim.Has (sdkClaimKey claim.accountId id) := by
  simp only [owns, Bool.and_eq_true, Bool.not_eq_true'] at howns
  cases hlookup : claim.sdkClaims.lookup id with
  | none => simp [hlookup] at howns
  | some sdkClaim =>
    have hmem : (id, sdkClaim) ∈ claim.sdkClaims := by
      obtain ⟨before, after, hsplit, -⟩ := List.lookup_eq_some_iff.mp hlookup
      rw [hsplit]
      simp
    have hreleased : sdkClaim.released = false := (h.unreleased howns.1).2 _ hmem
    have hheld : sdkClaim.held = true := by simpa [hlookup] using howns.2
    exact .inr ⟨id, sdkClaim, hmem, by simp [SessionClaim.live, hheld, hreleased], h.sdk_key _ hmem⟩

/-- Asking for an SDK session takes a free key or none. -/
theorem own_exchanges (hhas : ∀ other, claim.Has other → other ∈ claimed) (id : String) :
    Exchanges Has (· ∈ claimed) claim (· ∈ (claim.own claimed id).2.2) (claim.own claimed id).2.1 := by
  have hsame : Exchanges Has (· ∈ claimed) claim (· ∈ claimed) claim := by
    refine ⟨fun other h => .inl h, fun other => ⟨fun hmem => ?_, ?_⟩⟩
    · by_cases h : claim.Has other
      · exact .inr h
      · exact .inl ⟨hmem, h⟩
    · rintro (h | h)
      · exact h.1
      · exact hhas other h
  unfold own
  split
  · exact hsame
  split
  · exact hsame
  · obtain ⟨hkey, hreleased, hheld, hmem⟩ := acquireClaim_spec claimed (sdkClaimKey claim.accountId id)
    -- What the claims hold after the new one joined them.
    have hjoined (other : String) : Has { claim with sdkClaims := claim.sdkClaims ++
          [(id, (acquireClaim claimed (sdkClaimKey claim.accountId id)).1)] } other ↔
        claim.Has other ∨ ((acquireClaim claimed (sdkClaimKey claim.accountId id)).1.held = true ∧
            sdkClaimKey claim.accountId id = other) := by
      simp only [Has, List.mem_append, List.mem_singleton, Prod.mk.injEq]
      constructor
      · rintro (h | ⟨name, sdkClaim, h | ⟨rfl, rfl⟩, hlive, hother⟩)
        · exact .inl (.inl h)
        · exact .inl (.inr ⟨name, sdkClaim, h, hlive, hother⟩)
        · refine .inr ⟨?_, hkey.symm.trans hother⟩
          simpa [SessionClaim.live, hreleased] using hlive
      · rintro ((h | ⟨name, sdkClaim, h, hlive⟩) | ⟨hgranted, rfl⟩)
        · exact .inl h
        · exact .inr ⟨name, sdkClaim, .inl h, hlive⟩
        · exact .inr ⟨id, _, .inr ⟨rfl, rfl⟩, by simp [SessionClaim.live, hgranted, hreleased], hkey⟩
    refine ⟨fun other h => ?_, fun other => ?_⟩
    · rcases (hjoined other).mp h with hold | ⟨hgranted, rfl⟩
      · exact .inl hold
      · exact .inr (hheld.mp hgranted)
    · change other ∈ (acquireClaim claimed (sdkClaimKey claim.accountId id)).2 ↔ _
      rw [hmem, hjoined]
      constructor
      · rintro (h | ⟨hgranted, rfl⟩)
        · by_cases hold : claim.Has other
          · exact .inr (.inl hold)
          · exact .inl ⟨h, hold⟩
        · exact .inr (.inr ⟨hgranted, rfl⟩)
      · rintro (⟨h, -⟩ | hold | ⟨hgranted, rfl⟩)
        · exact .inl h
        · exact .inl (hhas other hold)
        · exact .inr ⟨hgranted, rfl⟩

/-- Asking for an SDK session keeps the claim well formed. -/
theorem WellFormed.own (h : claim.WellFormed key) (claimed : List String) (id : String) :
    (claim.own claimed id).2.1.WellFormed key := by
  unfold TurnClaim.own
  by_cases hopen : claim.released = true
  · rw [if_pos hopen]
    exact h
  rw [if_neg hopen]
  split
  · exact h
  · obtain ⟨hkey, hreleased, -, -⟩ := acquireClaim_spec claimed (sdkClaimKey claim.accountId id)
    have hunreleased := h.unreleased (by simpa using hopen)
    refine ⟨h.direct_key, ?_, fun _ => ⟨hunreleased.1, ?_⟩, fun hclosed => absurd hclosed hopen, h.held⟩
    · intro pair hpair
      rcases List.mem_append.mp hpair with hpair | hpair
      · exact h.sdk_key pair hpair
      · rw [List.mem_singleton.mp hpair]
        exact hkey
    · intro pair hpair
      rcases List.mem_append.mp hpair with hpair | hpair
      · exact hunreleased.2 pair hpair
      · rw [List.mem_singleton.mp hpair]
        exact hreleased

/-- A claim released for the first time holds nothing, and every key it held is free. -/
theorem release_spec (claimed : List String) (hopen : claim.released = false) :
    (∀ other, ¬ (claim.release claimed).1.Has other) ∧
      ∀ other, other ∈ (claim.release claimed).2 ↔ other ∈ claimed ∧ ¬ claim.Has other := by
  unfold release
  rw [if_neg (by simp [hopen])]
  obtain ⟨hdirect, -, -, hmem⟩ := claim.direct.release_spec claimed
  obtain ⟨hsdk, hothers⟩ := releaseAll_spec claim.sdkClaims (claim.direct.release claimed).2
  refine ⟨?_, ?_⟩
  · rintro other (⟨hlive, -⟩ | ⟨id, sdkClaim, hpair, hlive, -⟩)
    · exact absurd (hdirect.symm.trans hlive) (by simp)
    · exact absurd ((hsdk _ hpair).symm.trans hlive) (by simp)
  · intro other
    change other ∈ (releaseAll claim.sdkClaims (claim.direct.release claimed).2).2 ↔ _
    rw [hothers, hmem]
    simp only [Has, not_or, not_exists]
    constructor
    · rintro ⟨⟨htaken, hfirst⟩, hrest⟩
      exact ⟨htaken, hfirst, fun id sdkClaim ⟨hpair, hlive⟩ => hrest (id, sdkClaim) hpair hlive⟩
    · rintro ⟨htaken, hfirst, hrest⟩
      exact ⟨⟨htaken, hfirst⟩, fun pair hpair hlive => hrest pair.1 pair.2 ⟨hpair, hlive⟩⟩

/-- A claim released again changes nothing. -/
theorem release_of_released (claimed : List String) (hclosed : claim.released = true) :
    claim.release claimed = (claim, claimed) := by
  rw [release, if_pos hclosed]

/-- A release gives back the turn's own keys and no other. -/
theorem WellFormed.release_exchanges (h : claim.WellFormed key) :
    Exchanges Has (· ∈ claimed) claim (· ∈ (claim.release claimed).2) (claim.release claimed).1 := by
  cases hreleased : claim.released with
  | true =>
    rw [release_of_released claimed hreleased]
    refine ⟨fun other hhas => .inl hhas, fun other => ⟨fun hmem => .inl ⟨hmem, ?_⟩, ?_⟩⟩
    · exact h.released hreleased other
    · rintro (hmem | hhas)
      · exact hmem.1
      · exact absurd hhas (h.released hreleased other)
  | false =>
    obtain ⟨hnone, hmem⟩ := claim.release_spec claimed hreleased
    refine ⟨fun other hhas => absurd hhas (hnone other), fun other => ?_⟩
    rw [hmem, or_iff_left (hnone other)]

/-- Released claims keep their keys. -/
theorem releaseAll_key (accountId : String) (claims : List (String × SessionClaim)) (claimed : List String)
    (h : ∀ pair ∈ claims, pair.2.key = sdkClaimKey accountId pair.1) :
    ∀ pair ∈ (releaseAll claims claimed).1, pair.2.key = sdkClaimKey accountId pair.1 := by
  induction claims generalizing claimed with
  | nil => simp [releaseAll]
  | cons first rest ih =>
    obtain ⟨id, claim⟩ := first
    obtain ⟨hfirst, hrest⟩ := List.forall_mem_cons.mp h
    refine List.forall_mem_cons.mpr ⟨?_, ih _ hrest⟩
    exact (claim.release_spec claimed).2.1.trans hfirst

/-- A release keeps the claim well formed. -/
theorem WellFormed.release (h : claim.WellFormed key) (claimed : List String) :
    (claim.release claimed).1.WellFormed key := by
  cases hreleased : claim.released with
  | true =>
    rw [release_of_released claimed hreleased]
    exact h
  | false =>
    have hnone := (claim.release_spec claimed hreleased).1
    revert hnone
    unfold TurnClaim.release
    rw [if_neg (by simp [hreleased])]
    intro hnone
    refine ⟨?_, ?_, fun hopen => absurd hopen (by simp), fun _ => hnone, fun hheld => ?_⟩
    · exact (claim.direct.release_spec claimed).2.1.trans h.direct_key
    · exact releaseAll_key claim.accountId _ _ h.sdk_key
    · exact (claim.direct.release_spec claimed).2.2.1.trans (h.held hheld)

theorem accountId_own (claimed : List String) (id : String) :
    (claim.own claimed id).2.1.accountId = claim.accountId := by
  unfold own
  split
  · rfl
  split <;> rfl

theorem accountId_release (claimed : List String) : (claim.release claimed).1.accountId = claim.accountId := by
  unfold release
  split <;> rfl

theorem held_own (claimed : List String) (id : String) : (claim.own claimed id).2.1.held = claim.held := by
  unfold own
  split
  · rfl
  split <;> rfl

theorem held_release (claimed : List String) : (claim.release claimed).1.held = claim.held := by
  unfold release
  split <;> rfl

end TurnClaim

/-- A newcomer that holds free keys only, all of them now taken. -/
def Newcomer (claimed : List String) (claim : TurnClaim) (claimed' : List String) : Prop :=
  (∀ key, claim.Has key → key ∉ claimed) ∧ ∀ key, key ∈ claimed' ↔ key ∈ claimed ∨ claim.Has key

/-- A newcomer's exchange leaves it a newcomer. -/
theorem Newcomer.exchange {claimed' claimed'' : List String} {claim claim' : TurnClaim}
    (h : Newcomer claimed claim claimed') (hx : Exchanges TurnClaim.Has (· ∈ claimed') claim (· ∈ claimed'') claim')
    : Newcomer claimed claim' claimed'' := by
  refine ⟨fun key hhas => ?_, fun key => ?_⟩
  · rcases hx.free key hhas with hold | hfree
    · exact h.1 key hold
    · exact fun hmem => hfree ((h.2 key).mpr (.inl hmem))
  · rw [hx.taken_iff, h.2]
    have hdisjoint := h.1 key
    tauto

/-- A turn's claim is a newcomer on its account, and well formed. -/
theorem claimSessionTurn_spec (claimed : List String) (key accountId : String) (sdkSessionId : Option String) :
    Newcomer claimed (claimSessionTurn claimed key accountId sdkSessionId).1
        (claimSessionTurn claimed key accountId sdkSessionId).2 ∧
      (claimSessionTurn claimed key accountId sdkSessionId).1.WellFormed key ∧
      (claimSessionTurn claimed key accountId sdkSessionId).1.accountId = accountId := by
  obtain ⟨hkey, hreleased, hheld, hmem⟩ := acquireClaim_spec claimed (sessionClaimKey key)
  unfold claimSessionTurn
  revert hkey hreleased hheld hmem
  generalize acquireClaim claimed (sessionClaimKey key) = acquired
  obtain ⟨direct, taken⟩ := acquired
  intro hkey hreleased hheld hmem
  dsimp only at hkey hreleased hheld hmem ⊢
  -- What the turn has with its conversation's claim alone.
  have hhas (held : Bool) (other : String) : TurnClaim.Has { accountId, direct, held } other ↔
      direct.held = true ∧ sessionClaimKey key = other := by
    simp [TurnClaim.Has, SessionClaim.live, hreleased, hkey]
  have hnewcomer (held : Bool) : Newcomer claimed { accountId, direct, held } taken := by
    refine ⟨fun other h => ?_, fun other => ?_⟩
    · obtain ⟨hgranted, rfl⟩ := (hhas held other).mp h
      exact hheld.mp hgranted
    · rw [hmem, hhas, eq_comm]
      simp only [eq_comm]
  have hformed (held : Bool) (hdirect : held = true → direct.held = true) :
      TurnClaim.WellFormed { accountId, direct, held } key :=
    ⟨hkey, by simp, fun _ => ⟨hreleased, by simp⟩, fun hclosed => absurd hclosed (by simp), hdirect⟩
  have hrefused {claim : TurnClaim} {claimed' : List String} (hnew : Newcomer claimed claim claimed')
      (hwell : claim.WellFormed key) (haccount : claim.accountId = accountId) :
      Newcomer claimed (TurnClaim.release { claim with held := false } claimed').1
          (TurnClaim.release { claim with held := false } claimed').2 ∧
        (TurnClaim.release { claim with held := false } claimed').1.WellFormed key ∧
        (TurnClaim.release { claim with held := false } claimed').1.accountId = accountId := by
    have hwell' : TurnClaim.WellFormed { claim with held := false } key :=
      ⟨hwell.direct_key, hwell.sdk_key, hwell.unreleased, hwell.released, fun h => absurd h (by simp)⟩
    have hnew' : Newcomer claimed { claim with held := false } claimed' := hnew
    refine ⟨hnew'.exchange hwell'.release_exchanges, hwell'.release claimed', ?_⟩
    rw [TurnClaim.accountId_release]
    exact haccount
  by_cases hgranted : direct.held = true
  · simp only [hgranted, if_true]
    cases sdkSessionId with
    | none => exact ⟨hnewcomer true, hformed true fun _ => hgranted, rfl⟩
    | some id =>
      have hown := @TurnClaim.own_exchanges taken { accountId, direct }
        (fun other h => ((hnewcomer true).2 other).mpr (.inr h)) id
      have hwell := (hformed true fun _ => hgranted).own taken id
      have haccount : (TurnClaim.own { accountId, direct } taken id).2.1.accountId = accountId :=
        TurnClaim.accountId_own taken id
      cases hasked : (TurnClaim.own { accountId, direct } taken id).1 with
      | true =>
        simp only [if_true]
        exact ⟨(hnewcomer true).exchange hown, hwell, haccount⟩
      | false =>
        simp only [Bool.false_eq_true, if_false]
        exact hrefused ((hnewcomer true).exchange hown) hwell haccount
  · simp only [hgranted, Bool.false_eq_true, if_false]
    refine @hrefused { accountId, direct, held := false } _ (hnewcomer false) ?_ rfl
    exact hformed false fun h => absurd h (by simp)

end Claims

end MultiAiRouter.ClaudeSdk
