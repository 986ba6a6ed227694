import MultiAiRouter.Common.Binary64
import MultiAiRouter.Routing.PolicyPartitions

/-!
# Sticky placement moves as few sessions as it can

The score of an account under a session reads neither the other candidates nor their order, so an account
that is added or removed leaves the others in the order they had. Every value it goes through is a
binary64 number, so nothing rounds.
-/

namespace MultiAiRouter.Routing

open Common

/-- The first lane of a score. -/
def laneA (seed : UInt32) (accountId : String) : ℕ := (fmix32 (fnv1a accountId (seed ^^^ 0x9e3779b1))).toNat

/-- The second lane of a score, without its low bits. -/
def laneB (seed : UInt32) (accountId : String) : ℕ := (fmix32 (fnv1a accountId (seed ^^^ 0x85ebca6b)) >>> 11).toNat

/-- The first lane has 32 bits. -/
theorem laneA_lt (seed : UInt32) (accountId : String) : laneA seed accountId < 2 ^ 32 := UInt32.toNat_lt _

/-- The second lane keeps 21 bits. -/
theorem laneB_lt (seed : UInt32) (accountId : String) : laneB seed accountId < 2 ^ 21 := by
  have hlane := (fmix32 (fnv1a accountId (seed ^^^ 0x85ebca6b))).toNat_lt
  unfold laneB
  rw [UInt32.toNat_shiftRight]
  simp only [UInt32.toNat_ofNat, Nat.reducePow, Nat.reduceMod, Nat.shiftRight_eq_div_pow]
  omega

/-- The numerator of a score is below `2 ^ 53`. -/
theorem scoreWithSeed_lt (seed : UInt32) (accountId : String) : scoreWithSeed seed accountId < 2 ^ 53 := by
  have hA := laneA_lt seed accountId
  have hB := laneB_lt seed accountId
  have heq : scoreWithSeed seed accountId = laneA seed accountId * 2097152 + laneB seed accountId := rfl
  omega

/-- The score as the source computes it, rounded after each operation. -/
def roundedScore (rounding : Rounding) (seed : UInt32) (accountId : String) : ℚ :=
  rounding.round (rounding.round (rounding.round ((laneA seed accountId : ℚ) * 2097152) + laneB seed accountId) /
    9007199254740992)

/-- No operation of a score rounds. -/
theorem roundedScore_eq (rounding : Rounding) (seed : UInt32) (accountId : String) :
    roundedScore rounding seed accountId = (scoreWithSeed seed accountId : ℚ) / 2 ^ 53 := by
  have hA := laneA_lt seed accountId
  have hscore := scoreWithSeed_lt seed accountId
  have heq : scoreWithSeed seed accountId = laneA seed accountId * 2097152 + laneB seed accountId := rfl
  have hproduct : rounding.round ((laneA seed accountId : ℚ) * 2097152) = (laneA seed accountId : ℚ) * 2097152 := by
    have hint : |((laneA seed accountId * 2097152 : ℕ) : ℤ)| < 2 ^ 53 := by
      rw [abs_of_nonneg (Int.natCast_nonneg _)]
      omega
    have hbinary := isBinary64_int hint
    push_cast at hbinary
    exact rounding.exact _ hbinary
  have hint : |(scoreWithSeed seed accountId : ℤ)| < 2 ^ 53 := by
    rw [abs_of_nonneg (Int.natCast_nonneg _)]
    omega
  have hsum : (laneA seed accountId : ℚ) * 2097152 + laneB seed accountId =
      ((scoreWithSeed seed accountId : ℤ) : ℚ) := by
    rw [heq]
    push_cast
    ring
  have hplaces : (9007199254740992 : ℚ) = 2 ^ 53 := by norm_num
  unfold roundedScore
  rw [hproduct, hsum, rounding.exact _ (isBinary64_int hint), hplaces,
    rounding.exact _ (isBinary64_scaled hint (by decide)), Int.cast_natCast]

/-- The comparison of two scores does not round either. -/
theorem roundedDelta_eq (rounding : Rounding) (seed : UInt32) (left right : String) :
    rounding.round (roundedScore rounding seed right - roundedScore rounding seed left) =
      (((scoreWithSeed seed right : ℤ) - scoreWithSeed seed left : ℤ) : ℚ) / 2 ^ 53 := by
  have hleft := scoreWithSeed_lt seed left
  have hright := scoreWithSeed_lt seed right
  have hint : |(scoreWithSeed seed right : ℤ) - scoreWithSeed seed left| < 2 ^ 53 := by
    rw [abs_lt]
    omega
  have hdelta : (scoreWithSeed seed right : ℚ) / 2 ^ 53 - (scoreWithSeed seed left : ℚ) / 2 ^ 53 =
      (((scoreWithSeed seed right : ℤ) - scoreWithSeed seed left : ℤ) : ℚ) / 2 ^ 53 := by
    push_cast
    ring
  rw [roundedScore_eq, roundedScore_eq, hdelta]
  exact rounding.exact _ (isBinary64_scaled hint (by decide))

/-- `sticky` sorts by its comparator. -/
theorem sticky_ordered (input : PolicyInput) :
    (sticky input).ordered = sortBy (compareSticky (sessionSeed input.sessionKey)) input.candidates := rfl

/-- The order of `sticky` has every candidate once, no candidate before one that compares below it. -/
theorem sticky_sorted (input : PolicyInput) : (sticky input).ordered.Perm input.candidates ∧
    (sticky input).ordered.Pairwise fun left right =>
      compareSticky (sessionSeed input.sessionKey) left right ≤ 0 := by
  have hkey := compareSticky_compares (sessionSeed input.sessionKey)
  rw [sticky_ordered]
  exact ⟨sortBy_perm _ _, (sortBy_pairwise hkey _).imp fun hle => (hkey _ _).mpr hle⟩

/-- On accounts with ids of their own the comparator of `sticky` is a strict total order. -/
theorem compareSticky_total (seed : UInt32) : (∀ left right : Candidate, left.account.id ≠ right.account.id →
      (compareSticky seed left right ≤ 0 ↔ ¬ compareSticky seed right left ≤ 0)) ∧
    ∀ first second third : Candidate, compareSticky seed first second ≤ 0 → compareSticky seed second third ≤ 0 →
      compareSticky seed first third ≤ 0 := by
  have hkey := compareSticky_compares seed
  constructor
  · intro left right hid
    rw [hkey, hkey, not_le]
    refine ⟨fun hle => lt_of_le_of_ne hle fun hsame => hid ?_, le_of_lt⟩
    have hdeclared := (Prod.mk.inj (toLex.injective hsame)).2
    exact codeUnits_injective (Prod.mk.inj (toLex.injective hdeclared)).2
  · intro first second third hfirst hsecond
    rw [hkey] at hfirst hsecond ⊢
    exact hfirst.trans hsecond

/-- Renumbering candidates along their declared order leaves how `sticky` compares them. -/
theorem compareSticky_renumber {seed : UInt32} {renumber : Candidate → Candidate} {left right : Candidate}
    (hleft : (renumber left).account.id = left.account.id) (hright : (renumber right).account.id = right.account.id)
    (hle : (renumber left).order ≤ (renumber right).order ↔ left.order ≤ right.order)
    (hge : (renumber right).order ≤ (renumber left).order ↔ right.order ≤ left.order) :
    compareSticky seed left right ≤ 0 ↔ compareSticky seed (renumber left) (renumber right) ≤ 0 := by
  have hkey := compareSticky_compares seed
  rw [hkey, hkey]
  simp only [stickyKey, declaredKey, Prod.Lex.toLex_le_toLex, hleft, hright, Nat.cast_inj, Nat.cast_lt]
  have hsame : (renumber left).order = (renumber right).order ↔ left.order = right.order := by omega
  have hless : (renumber left).order < (renumber right).order ↔ left.order < right.order := by omega
  rw [hsame, hless]

section OneAccount

variable {added : Candidate} {kept larger smaller : List Candidate} {renumber : Candidate → Candidate}

/-- Without an account the others are sorted as they were with it. -/
theorem sortBy_without (seed : UInt32) (hlarger : larger.Perm (added :: kept)) (hdistinct : DistinctAccounts larger) :
    (sortBy (compareSticky seed) larger).filter (fun candidate => decide (candidate.account.id ≠ added.account.id)) =
      sortBy (compareSticky seed) kept := by
  have hapart : TellsApart (stickyKey seed) larger := hdistinct.declared.thenBy _
  have hcons : DistinctAccounts (added :: kept) := hdistinct.perm hlarger
  have hothers : (added :: kept).filter (fun candidate => decide (candidate.account.id ≠ added.account.id)) = kept := by
    rw [List.filter_cons_of_neg (by simp)]
    refine List.filter_eq_self.mpr fun candidate hmem => decide_eq_true fun hid => ?_
    refine (List.nodup_cons.mp hcons).1 (List.mem_map.mpr ⟨candidate, hmem, hid⟩)
  have hperm := hlarger.filter fun candidate => decide (candidate.account.id ≠ added.account.id)
  rw [hothers] at hperm
  rw [← sortBy_filter (compareSticky_compares seed) hapart]
  exact sortBy_eq_of_perm (compareSticky_compares seed) ((hdistinct.filter _).declared.thenBy _) hperm

/-- Renumbered along their declared order, candidates are sorted as they were. -/
theorem accountIds_renumbered (seed : UInt32) (hsmaller : smaller.Perm (kept.map renumber))
    (hdistinct : DistinctAccounts kept)
    (hid : ∀ candidate ∈ kept, (renumber candidate).account.id = candidate.account.id)
    (horder : ∀ left ∈ kept, ∀ right ∈ kept,
      (renumber left).order ≤ (renumber right).order ↔ left.order ≤ right.order) :
    accountIds (sortBy (compareSticky seed) smaller) = accountIds (sortBy (compareSticky seed) kept) := by
  have hids : accountIds (kept.map renumber) = accountIds kept := by
    rw [accountIds, List.map_map]
    exact List.map_congr_left hid
  have hrenumbered : DistinctAccounts (kept.map renumber) := by
    unfold DistinctAccounts
    rw [hids]
    exact hdistinct
  have hsorted : sortBy (compareSticky seed) smaller = (sortBy (compareSticky seed) kept).map renumber := by
    rw [sortBy_map renumber kept fun left hleft right hright => compareSticky_renumber (hid left hleft)
      (hid right hright) (horder left hleft right hright) (horder right hright left hleft)]
    exact (sortBy_eq_of_perm (compareSticky_compares seed) (hrenumbered.declared.thenBy _) hsmaller.symm).symm
  rw [hsorted, accountIds, List.map_map]
  exact List.map_congr_left fun candidate hmem => hid candidate ((sortBy_perm _ _).mem_iff.mp hmem)

end OneAccount

/-- Of two lists of distinct accounts of which one has one account more, `sticky` orders the common accounts alike
under every session, however the declared orders are renumbered; so a session whose first choice differs has the
account that was added, or removed, as its first choice. Scores are integers over `2 ^ 53` and order accounts
strictly; the order handed out is sorted by them and has every candidate once. -/
theorem sticky_minimal_disruption (input : PolicyInput) (added : Candidate) (kept larger smaller : List Candidate)
    (renumber : Candidate → Candidate) (hlarger : larger.Perm (added :: kept))
    (hsmaller : smaller.Perm (kept.map renumber)) (hdistinct : DistinctAccounts larger)
    (hid : ∀ candidate ∈ kept, (renumber candidate).account.id = candidate.account.id)
    (horder : ∀ left ∈ kept, ∀ right ∈ kept,
      (renumber left).order ≤ (renumber right).order ↔ left.order ≤ right.order) :
    accountIds (sticky { input with candidates := smaller }).ordered =
      (accountIds (sticky { input with candidates := larger }).ordered).filter
        (fun accountId => decide (accountId ≠ added.account.id)) ∧
    ((accountIds (sticky { input with candidates := larger }).ordered).head? ≠
        (accountIds (sticky { input with candidates := smaller }).ordered).head? →
      (accountIds (sticky { input with candidates := larger }).ordered).head? = some added.account.id) ∧
    (∀ (rounding : Rounding) (seed : UInt32) (left right : String), scoreWithSeed seed left < 2 ^ 53 ∧
      roundedScore rounding seed left = (scoreWithSeed seed left : ℚ) / 2 ^ 53 ∧
      rounding.round (roundedScore rounding seed right - roundedScore rounding seed left) =
        (((scoreWithSeed seed right : ℤ) - scoreWithSeed seed left : ℤ) : ℚ) / 2 ^ 53) ∧
    (∀ seed : UInt32, (∀ left right : Candidate, left.account.id ≠ right.account.id →
        (compareSticky seed left right ≤ 0 ↔ ¬ compareSticky seed right left ≤ 0)) ∧
      ∀ first second third : Candidate, compareSticky seed first second ≤ 0 → compareSticky seed second third ≤ 0 →
        compareSticky seed first third ≤ 0) ∧
    ∀ policyInput : PolicyInput, (sticky policyInput).ordered.Perm policyInput.candidates ∧
      (sticky policyInput).ordered.Pairwise fun left right =>
        compareSticky (sessionSeed policyInput.sessionKey) left right ≤ 0 := by
  have hkept : DistinctAccounts kept := (List.nodup_cons.mp (hdistinct.perm hlarger)).2
  have hcommon : accountIds (sticky { input with candidates := smaller }).ordered =
      (accountIds (sticky { input with candidates := larger }).ordered).filter
        (fun accountId => decide (accountId ≠ added.account.id)) := by
    simp only [sticky_ordered]
    rw [accountIds_renumbered _ hsmaller hkept hid horder, ← sortBy_without _ hlarger hdistinct, accountIds,
      accountIds, List.filter_map]
    rfl
  refine ⟨hcommon, fun hmoved => ?_, fun rounding seed left right =>
    ⟨scoreWithSeed_lt seed left, roundedScore_eq rounding seed left, roundedDelta_eq rounding seed left right⟩,
    compareSticky_total, sticky_sorted⟩
  rw [hcommon] at hmoved
  cases hids : accountIds (sticky { input with candidates := larger }).ordered with
  | nil => simp [hids] at hmoved
  | cons first rest =>
    by_contra hfirst
    have hother : first ≠ added.account.id := fun heq => hfirst (by rw [heq]; rfl)
    simp [hids, hother] at hmoved

/-- Adding the account `b` leaves `a` where it was. -/
theorem sticky_minimal_disruption_two :
    let candidate (id : String) (order : ℕ) : Candidate :=
      { account := { id }, poolId := none, weight := 1, priority := 0, order, upstreamModel := "m", halfOpen := false }
    let ids (candidates : List Candidate) := accountIds
      (sticky { now := 0, candidates, sessionKey := "session", rotationCounter := 0 }).ordered
    ids [candidate "a" 0] = (ids [candidate "b" 0, candidate "a" 1]).filter fun id => decide (id ≠ "b") := by
  intro candidate ids
  exact (sticky_minimal_disruption { now := 0, candidates := [], sessionKey := "session", rotationCounter := 0 }
    (candidate "b" 0) [candidate "a" 1] [candidate "b" 0, candidate "a" 1] [candidate "a" 0]
    (fun held => { held with order := held.order - 1 }) (List.Perm.refl _) (List.Perm.refl _)
    (by simp [DistinctAccounts, accountIds, candidate]) (by simp [candidate]) (by simp [candidate])).1

end MultiAiRouter.Routing
