import MultiAiRouter.ClaudeSdk.Session.Lineage

/-!
# What the lineage classes mean

The seven conditions are tried in a fixed order, and each class says exactly what its name does.
-/

namespace MultiAiRouter.ClaudeSdk

/-- The stored suffix of this length stands at the position of the incoming conversation. -/
def SuffixAt (stored incoming : List String) (length pos : ℕ) : Prop :=
  stored.drop (stored.length - length) <+: incoming.drop pos

/-- Both conversations begin with the same messages, and differ in the next one if both have one. -/
structure Preserves (stored incoming : List String) (preserved : ℕ) : Prop where
  le_stored : preserved ≤ stored.length
  le_incoming : preserved ≤ incoming.length
  same : stored.take preserved = incoming.take preserved
  differ : ∀ held sent, stored[preserved]? = some held → incoming[preserved]? = some sent → held ≠ sent

/-- The longest stored suffix of two messages or more that reappears after position 0, and where it ends. -/
structure LongestSuffix (stored incoming : List String) (length stop : ℕ) : Prop where
  two_le : 2 ≤ length
  le_stored : length ≤ stored.length
  occurs : ∃ pos, 1 ≤ pos ∧ SuffixAt stored incoming length pos ∧ stop = pos + length
  longest : ∀ other pos, length < other → other ≤ stored.length → 1 ≤ pos → ¬ SuffixAt stored incoming other pos

section Prefix

variable {stored incoming : List String}

/-- The common prefix is preserved. -/
theorem preserves_commonPrefix (stored incoming : List String) :
    Preserves stored incoming (commonPrefix stored incoming) := by
  refine ⟨commonPrefix_le_left stored incoming, commonPrefix_le_right stored incoming, ?_, ?_⟩
  · induction stored generalizing incoming with
    | nil => simp [commonPrefix]
    | cons held stored ih =>
      cases incoming with
      | nil => simp [commonPrefix]
      | cons sent incoming =>
        rw [commonPrefix]
        split_ifs with hsame
        · rw [List.take_succ_cons, List.take_succ_cons, ih incoming, hsame]
        · rfl
  · induction stored generalizing incoming with
    | nil => simp
    | cons held stored ih =>
      cases incoming with
      | nil => simp
      | cons sent incoming =>
        rw [commonPrefix]
        split_ifs with hsame
        · simpa using ih incoming
        · simpa using hsame

/-- All of the stored conversation survives in front of its continuations, and of no other. -/
theorem commonPrefix_eq_left_iff : commonPrefix stored incoming = stored.length ↔ stored <+: incoming := by
  have hsame := (preserves_commonPrefix stored incoming).same
  constructor
  · intro hall
    rw [hall, List.take_length] at hsame
    rw [List.prefix_iff_eq_take]
    exact hsame
  · rintro ⟨rest, rfl⟩
    induction stored with
    | nil => simp [commonPrefix]
    | cons held stored ih =>
      have hrest := ih (preserves_commonPrefix stored (stored ++ rest)).same
      simp [commonPrefix, hrest]

/-- The common prefix is symmetric. -/
theorem commonPrefix_comm (stored incoming : List String) :
    commonPrefix stored incoming = commonPrefix incoming stored := by
  induction stored generalizing incoming with
  | nil => cases incoming <;> rfl
  | cons held stored ih =>
    cases incoming with
    | nil => rfl
    | cons sent incoming =>
      rw [commonPrefix, commonPrefix, ih incoming]
      by_cases hsame : held = sent
      · rw [if_pos hsame, if_pos hsame.symm]
      · rw [if_neg hsame, if_neg fun h => hsame h.symm]

theorem commonPrefix_eq_right_iff : commonPrefix stored incoming = incoming.length ↔ incoming <+: stored := by
  rw [commonPrefix_comm, commonPrefix_eq_left_iff]

/-- A prefix that is no longer is the whole. -/
theorem prefix_ne_iff_length_lt (h : stored <+: incoming) : stored ≠ incoming ↔ stored.length < incoming.length := by
  constructor
  · exact fun hne => Nat.lt_of_le_of_ne h.length_le fun hlength => hne (h.eq_of_length hlength)
  · rintro hless rfl
    exact Nat.lt_irrefl _ hless

end Prefix

section Suffix

variable {stored incoming : List String} {length : ℕ}

/-- The segments match where the suffix stands. -/
theorem segmentsMatch_iff (hlength : length ≤ stored.length) (pos : ℕ) :
    segmentsMatch stored (stored.length - length) incoming pos length = true ↔ SuffixAt stored incoming length pos := by
  have hwhole : (stored.drop (stored.length - length)).length = length := by
    rw [List.length_drop]
    omega
  rw [segmentsMatch, List.all_eq_true, SuffixAt, List.prefix_iff_getElem?]
  constructor
  · intro h i hi
    rw [hwhole] at hi
    have hsame := h i (List.mem_range.mpr hi)
    rw [beq_iff_eq] at hsame
    rw [List.getElem?_drop, ← hsame, ← List.getElem?_drop, List.getElem?_eq_getElem]
  · intro h i hi
    have hless : i < (stored.drop (stored.length - length)).length := by
      rw [hwhole]
      exact List.mem_range.mp hi
    have hsame := h i hless
    rw [List.getElem?_drop, ← List.getElem?_eq_getElem hless, List.getElem?_drop] at hsame
    rw [beq_iff_eq, hsame]

/-- A suffix stands only where all of it fits. -/
theorem SuffixAt.fits {pos : ℕ} (h : SuffixAt stored incoming length pos) (hlength : length ≤ stored.length)
    (hpos : 1 ≤ length) : pos + length ≤ incoming.length := by
  have hle := h.length_le
  rw [List.length_drop, List.length_drop] at hle
  omega

/-- A suffix that is found is there. -/
theorem findSuffixOfLength_some {pos : ℕ} (hlength : length ≤ stored.length)
    (h : findSuffixOfLength stored incoming length = some pos) : 1 ≤ pos ∧ SuffixAt stored incoming length pos := by
  have hmatch := List.find?_some h
  have hmem := List.mem_of_find?_eq_some h
  rw [List.mem_range'_1] at hmem
  exact ⟨hmem.1, (segmentsMatch_iff hlength pos).mp hmatch⟩

/-- A suffix that is not found is not there. -/
theorem findSuffixOfLength_none (hlength : length ≤ stored.length) (hone : 1 ≤ length)
    (h : findSuffixOfLength stored incoming length = none) (pos : ℕ) (hpos : 1 ≤ pos) :
    ¬ SuffixAt stored incoming length pos := by
  intro hstands
  have hfits := hstands.fits hlength hone
  have hmem : pos ∈ List.range' 1 (incoming.length - length) := by
    rw [List.mem_range'_1]
    omega
  exact List.find?_eq_none.mp h pos hmem ((segmentsMatch_iff hlength pos).mpr hstands)

/-- The suffix found among the lengths up to this one is the longest of them. -/
theorem findSuffixFrom_spec {found : StoredSuffix} (hlength : length ≤ stored.length)
    (hlonger : ∀ other pos, length < other → other ≤ stored.length → 1 ≤ pos → ¬ SuffixAt stored incoming other pos)
    (h : findSuffixFrom stored incoming length = some found) :
    LongestSuffix stored incoming found.length found.stop := by
  induction length with
  | zero => cases h
  | succ length ih =>
    rw [findSuffixFrom] at h
    split_ifs at h with hshort
    have htwo : 2 ≤ length + 1 := by
      unfold minCompactionOverlap at hshort
      omega
    cases hfound : findSuffixOfLength stored incoming (length + 1) with
    | some pos =>
      rw [hfound] at h
      obtain rfl := Option.some.inj h
      obtain ⟨hpos, hstands⟩ := findSuffixOfLength_some hlength hfound
      exact ⟨htwo, hlength, ⟨pos, hpos, hstands, rfl⟩, hlonger⟩
    | none =>
      rw [hfound] at h
      refine ih (by omega) (fun other pos hother hstored hpos => ?_) h
      rcases Nat.lt_or_ge (length + 1) other with hless | hle
      · exact hlonger other pos hless hstored hpos
      · obtain rfl : other = length + 1 := by omega
        exact findSuffixOfLength_none hlength (by omega) hfound pos hpos

/-- The longest suffix is found. -/
theorem findStoredSuffix_spec {found : StoredSuffix} (h : findStoredSuffix stored incoming = some found) :
    LongestSuffix stored incoming found.length found.stop := by
  refine findSuffixFrom_spec (Nat.min_le_left ..) (fun other pos hother hstored hpos hstands => ?_) h
  have hfits := hstands.fits hstored (by omega)
  omega

end Suffix

section Classes

variable {stored incoming : List String}

/-- What a class says of the two conversations. -/
def LineageOverlap.Means (overlap : LineageOverlap) (stored incoming : List String) : Prop :=
  match overlap.lineage with
  | .replay => stored ≠ [] ∧ stored = incoming
  | .continuation => stored ≠ [] ∧ stored <+: incoming ∧ stored ≠ incoming
  | .undo => incoming ≠ [] ∧ incoming <+: stored ∧ incoming ≠ stored
  | .modifiedContinuation => ¬ stored <+: incoming ∧ ¬ incoming <+: stored ∧ stored ≠ [] ∧
      incoming[stored.length - 1]? = stored[stored.length - 1]?
  | .rewrite => ¬ stored <+: incoming ∧ ¬ incoming <+: stored ∧
      (incoming[stored.length - 1]? ≠ stored[stored.length - 1]? ∨ incoming.length ≤ stored.length)
  | .compaction => ¬ stored <+: incoming ∧ ¬ incoming <+: stored ∧
      LongestSuffix stored incoming overlap.preserved overlap.deltaFrom
  | .diverged => stored = [] ∨ incoming = [] ∨ ¬ stored <+: incoming ∧ ¬ incoming <+: stored

/-- Every classification means what its class says. -/
theorem means_of_classifyLineage (stored incoming : List String) :
    (classifyLineage stored incoming).Means stored incoming := by
  have hleft_iff := @commonPrefix_eq_left_iff stored incoming
  have hright_iff := @commonPrefix_eq_right_iff stored incoming
  unfold classifyLineage
  split
  · next hempty =>
    rcases hempty with hstored | hincoming
    · exact .inl (List.length_eq_zero_iff.mp hstored)
    · exact .inr (.inl (List.length_eq_zero_iff.mp hincoming))
  next hempty =>
  rw [not_or, List.length_eq_zero_iff, List.length_eq_zero_iff] at hempty
  obtain ⟨hstored, hincoming⟩ := hempty
  dsimp only
  split
  · next hreplay => exact ⟨hstored, (hleft_iff.mp hreplay.2).eq_of_length hreplay.1.symm⟩
  next hreplay =>
  split
  · next hgrew =>
    have hprefix := hleft_iff.mp hgrew.2
    exact ⟨hstored, hprefix, (prefix_ne_iff_length_lt hprefix).mpr hgrew.1⟩
  next hgrew =>
  split
  · next hshrank =>
    refine ⟨hincoming, hright_iff.mp hshrank.2, ?_⟩
    rintro rfl
    exact hreplay ⟨rfl, hshrank.2⟩
  next hshrank =>
  have hleft : ¬ stored <+: incoming := fun h =>
    (Nat.eq_or_lt_of_le h.length_le).elim (fun hlength => hreplay ⟨hlength.symm, hleft_iff.mpr h⟩)
      fun hless => hgrew ⟨hless, hleft_iff.mpr h⟩
  have hright : ¬ incoming <+: stored := fun h => hshrank ⟨h.length_le, hright_iff.mpr h⟩
  split
  · split
    · next htail => exact ⟨hleft, hright, hstored, htail.2⟩
    · next htail =>
      refine ⟨hleft, hright, ?_⟩
      rcases Nat.lt_or_ge stored.length incoming.length with hless | hle
      · exact .inl fun hsame => htail ⟨hless, hsame⟩
      · exact .inr hle
  unfold compactionOr
  split
  · exact .inr (.inr ⟨hleft, hright⟩)
  · next found hfound => exact ⟨hleft, hright, findStoredSuffix_spec hfound⟩

/-- Outside compaction the messages that survive are the ones in front. -/
theorem preserves_of_classifyLineage (stored incoming : List String) :
    (classifyLineage stored incoming).deltaFrom ≤ incoming.length ∧
      ((classifyLineage stored incoming).lineage ≠ .compaction →
        Preserves stored incoming (classifyLineage stored incoming).preserved) := by
  have hpreserves := preserves_commonPrefix stored incoming
  unfold classifyLineage
  split
  · next hempty =>
    refine ⟨Nat.zero_le _, fun _ => ⟨Nat.zero_le _, Nat.zero_le _, rfl, fun held sent hheld hsent => ?_⟩⟩
    rcases hempty with hstored | hincoming
    · rw [List.length_eq_zero_iff.mp hstored] at hheld
      cases hheld
    · rw [List.length_eq_zero_iff.mp hincoming] at hsent
      cases hsent
  dsimp only
  split
  · exact ⟨Nat.zero_le _, fun _ => hpreserves⟩
  split
  · next hgrew => exact ⟨Nat.le_of_lt hgrew.1, fun _ => hpreserves⟩
  split
  · exact ⟨Nat.le_refl _, fun _ => hpreserves⟩
  split
  · split
    · next htail => exact ⟨Nat.le_of_lt htail.1, fun _ => hpreserves⟩
    · exact ⟨hpreserves.le_incoming, fun _ => hpreserves⟩
  unfold compactionOr
  split
  · exact ⟨Nat.zero_le _, fun _ => hpreserves⟩
  · next found hfound => exact ⟨(findStoredSuffix_bounds hfound).2.2, fun hother => absurd rfl hother⟩

/-- The classes mean what they say. -/
theorem classifyLineage_means (stored incoming : List String) :
    ((classifyLineage stored incoming).lineage = .replay ↔ stored ≠ [] ∧ stored = incoming) ∧
    ((classifyLineage stored incoming).lineage = .continuation ↔
      stored ≠ [] ∧ stored <+: incoming ∧ stored ≠ incoming) ∧
    ((classifyLineage stored incoming).lineage = .undo ↔ incoming ≠ [] ∧ incoming <+: stored ∧ incoming ≠ stored) ∧
    ((classifyLineage stored incoming).lineage = .modifiedContinuation →
      stored ≠ [] ∧ incoming[stored.length - 1]? = stored[stored.length - 1]?) ∧
    ((classifyLineage stored incoming).lineage = .rewrite →
      incoming[stored.length - 1]? ≠ stored[stored.length - 1]? ∨ incoming.length ≤ stored.length) ∧
    ((classifyLineage stored incoming).lineage = .compaction →
      LongestSuffix stored incoming (classifyLineage stored incoming).preserved
        (classifyLineage stored incoming).deltaFrom) ∧
    (classifyLineage stored incoming).deltaFrom ≤ incoming.length ∧
    ((classifyLineage stored incoming).lineage ≠ .compaction →
      Preserves stored incoming (classifyLineage stored incoming).preserved) := by
  have hmeans := means_of_classifyLineage stored incoming
  obtain ⟨hdelta, hpreserves⟩ := preserves_of_classifyLineage stored incoming
  generalize classifyLineage stored incoming = overlap at hmeans hdelta hpreserves ⊢
  obtain ⟨lineage, deltaFrom, preserved⟩ := overlap
  refine ⟨⟨?_, ?_⟩, ⟨?_, ?_⟩, ⟨?_, ?_⟩, ?_, ?_, ?_, hdelta, hpreserves⟩
  · rintro rfl
    exact hmeans
  · rintro ⟨hne, rfl⟩
    cases lineage <;> simp_all [LineageOverlap.Means]
  · rintro rfl
    exact hmeans
  · rintro ⟨hne, hstarts, hother⟩
    have hapart : ¬ incoming <+: stored := fun h => hother (hstarts.eq_of_length_le h.length_le)
    cases lineage <;> simp_all [LineageOverlap.Means]
  · rintro rfl
    exact hmeans
  · rintro ⟨hne, hstarts, hother⟩
    have hapart : ¬ stored <+: incoming := fun h => hother (hstarts.eq_of_length_le h.length_le)
    cases lineage <;> simp_all [LineageOverlap.Means]
  · rintro rfl
    exact ⟨hmeans.2.2.1, hmeans.2.2.2⟩
  · rintro rfl
    exact hmeans.2.2
  · rintro rfl
    exact hmeans.2.2

end Classes

end MultiAiRouter.ClaudeSdk
