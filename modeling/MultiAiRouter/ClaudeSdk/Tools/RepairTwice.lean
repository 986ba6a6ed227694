import MultiAiRouter.ClaudeSdk.Tools.Rewrite
import MultiAiRouter.Usage.ResponseFraming

/-!
# Argument repair only renames

A repair changes names and nothing else: an undeclared name becomes a missing required one that is spelled alike.
-/

namespace MultiAiRouter.ClaudeSdk.Tools

open Common Usage

/-- Hyphens, underscores and spaces. -/
def isSeparator (unit : UInt16) : Bool := unit == 45 || unit == 95 || isWhitespace unit

/-- The spelling of a name without its case and its separators; how a text is put in lower case is a parameter. -/
def foldName (lowerCase : Units → Units) (name : Units) : Units := lowerCase (name.filter fun unit => !isSeparator unit)

/-- No two different required names are spelled alike. -/
def DistinctFolds (fold : Units → Units) (schema : ToolSchema) : Prop :=
  ∀ first ∈ schema.required, ∀ second ∈ schema.required, fold first = fold second → first = second

section Candidates

variable {fold : Units → Units} {schema : ToolSchema} {input : Record} {name key source : Units}

/-- A candidate is found behind the others. -/
theorem lookup_append_single (found : List (Units × Units)) (folded key other : Units) :
    (found ++ [(folded, key)]).lookup other =
      (found.lookup other).or (if other = folded then some key else none) := by
  rw [List.lookup_append]
  congr 1
  rw [List.lookup_cons, List.lookup_nil]
  by_cases h : other = folded
  · simp [h]
  · rw [if_neg h, beq_false_of_ne h]

/-- The candidate of a spelling is the first undeclared name of the input that is spelled so. -/
theorem lookup_candidates (folded : Units) : (candidates fold schema input).lookup folded =
      (input.map Prod.fst).find? fun key => decide (key ∉ schema.properties ∧ fold key = folded) := by
  unfold candidates
  induction input.map Prod.fst using List.reverseRecOn with
  | nil => rfl
  | append_singleton keys key ih =>
    rw [List.foldl_append, List.foldl_cons, List.foldl_nil, List.find?_append, ← ih]
    generalize (keys.foldl (fun found key =>
      if key ∈ schema.properties then found
      else if (found.lookup (fold key)).isSome then found
      else found ++ [(fold key, key)]) []) = found
    by_cases hdeclared : key ∈ schema.properties
    · simp [hdeclared]
    · rw [if_neg hdeclared]
      by_cases hfolded : fold key = folded
      · subst hfolded
        cases hfound : found.lookup (fold key) with
        | some other => simp [hfound]
        | none =>
          rw [Option.isSome_none, if_neg (by simp), lookup_append_single, hfound]
          simp [hdeclared]
      · have hskip : ((if (found.lookup (fold key)).isSome = true then found else found ++ [(fold key, key)]).lookup
            folded) = found.lookup folded := by
          split
          · rfl
          · rw [lookup_append_single, if_neg (Ne.symm hfolded), Option.or_none]
        rw [hskip]
        simp [hfolded]

/-- A candidate is an undeclared name that is spelled alike. -/
theorem candidate_spec (h : (candidates fold schema input).lookup (fold name) = some source) :
    source ∈ input.map Prod.fst ∧ source ∉ schema.properties ∧ fold source = fold name := by
  rw [lookup_candidates] at h
  have hspec := List.find?_some h
  simp only [decide_eq_true_eq] at hspec
  exact ⟨List.mem_of_find?_eq_some h, hspec.1, hspec.2⟩

/-- An undeclared name of the input has a candidate of its spelling. -/
theorem candidate_isSome (hkey : key ∈ input.map Prod.fst) (hdeclared : key ∉ schema.properties)
    (hfold : fold key = fold name) : ∃ source, (candidates fold schema input).lookup (fold name) = some source := by
  rw [lookup_candidates, ← Option.isSome_iff_exists, List.find?_isSome]
  exact ⟨key, hkey, by simp [hdeclared, hfold]⟩

theorem mem_missing : name ∈ missing schema input ↔ name ∈ schema.required ∧ name ∉ input.map Prod.fst := by
  simp [missing]

/-- What a renamed argument was and what it becomes. -/
theorem renamed_spec (h : (renamed fold schema input).lookup source = some name) :
    name ∈ schema.required ∧ name ∉ input.map Prod.fst ∧ source ∈ input.map Prod.fst ∧ source ∉ schema.properties ∧
      fold source = fold name := by
  obtain ⟨hcandidate, hmissing⟩ := sourced_renamed fold _ (mem_of_lookup h)
  obtain ⟨hrequired, habsent⟩ := mem_missing.mp hmissing
  exact ⟨hrequired, habsent, candidate_spec hcandidate⟩

/-- A missing name with a candidate has it renamed, to this name or to another. -/
theorem renamed_isSome (hmissing : name ∈ missing schema input)
    (hcandidate : (candidates fold schema input).lookup (fold name) = some source) :
    ∃ target, (renamed fold schema input).lookup source = some target := by
  have hkeeps (names : List Units) (renames : List (Units × Units)) (h : (renames.lookup source).isSome = true) :
      ((names.foldl (renameOne fold (candidates fold schema input)) renames).lookup source).isSome = true := by
    induction names generalizing renames with
    | nil => exact h
    | cons other rest ih =>
      refine ih _ ?_
      unfold renameOne
      split
      · exact h
      · split
        · exact h
        · rw [lookup_append_single]
          obtain ⟨target, htarget⟩ := Option.isSome_iff_exists.mp h
          simp [htarget]
  have htakes (names : List Units) (renames : List (Units × Units)) (h : name ∈ names) :
      ((names.foldl (renameOne fold (candidates fold schema input)) renames).lookup source).isSome = true := by
    induction names generalizing renames with
    | nil => cases h
    | cons other rest ih =>
      rcases List.mem_cons.mp h with rfl | hrest
      · refine hkeeps rest _ ?_
        unfold renameOne
        rw [hcandidate]
        dsimp only
        split
        · assumption
        · rw [lookup_append_single]
          simp
      · exact ih _ hrest
  exact Option.isSome_iff_exists.mp (htakes (missing schema input) [] hmissing)

/-- An input with no missing name that has a candidate is left as it is. -/
theorem repairToolInput_eq (h : ∀ source, (renamed fold schema input).lookup source = none) :
    repairToolInput fold schema input = input := by
  unfold repairToolInput
  conv_rhs => rw [← List.map_id input]
  refine List.map_congr_left fun member _ => ?_
  rw [h]
  rfl

/-- A repair that renames something changes the input. -/
theorem repairToolInput_ne (h : (renamed fold schema input).lookup source = some name) :
    repairToolInput fold schema input ≠ input := by
  intro hsame
  obtain ⟨-, habsent, hpresent, -⟩ := renamed_spec h
  obtain ⟨member, hmember, rfl⟩ := List.mem_map.mp hpresent
  refine habsent ?_
  rw [← hsame]
  refine List.mem_map.mpr ⟨_, List.mem_map_of_mem hmember, ?_⟩
  rw [h]
  rfl

/-- What a name of the input becomes is a name of the repaired input. -/
theorem mem_repaired (h : key ∈ input.map Prod.fst) :
    ((renamed fold schema input).lookup key).getD key ∈ (repairToolInput fold schema input).map Prod.fst := by
  obtain ⟨member, hmember, rfl⟩ := List.mem_map.mp h
  exact List.mem_map.mpr ⟨_, List.mem_map_of_mem hmember, rfl⟩

/-- A name of the repaired input is a name that stayed or one that was taken. -/
theorem of_mem_repaired (h : name ∈ (repairToolInput fold schema input).map Prod.fst) :
    ∃ key ∈ input.map Prod.fst, ((renamed fold schema input).lookup key).getD key = name := by
  obtain ⟨member, hmember, rfl⟩ := List.mem_map.mp h
  obtain ⟨other, hother, rfl⟩ := List.mem_map.mp hmember
  exact ⟨other.1, List.mem_map_of_mem hother, rfl⟩

/-- A declared name is never renamed. -/
theorem declared_stays (hdeclared : key ∈ schema.properties) (h : key ∈ input.map Prod.fst) :
    key ∈ (repairToolInput fold schema input).map Prod.fst := by
  have hnone : (renamed fold schema input).lookup key = none := by
    cases hlookup : (renamed fold schema input).lookup key with
    | none => rfl
    | some target => exact absurd hdeclared (renamed_spec hlookup).2.2.2.1
  have hmem := @mem_repaired fold schema input key h
  rwa [hnone] at hmem

/-- Where no two required names are spelled alike, no required name is renamed. -/
theorem required_stays (hdistinct : DistinctFolds fold schema) (hrequired : key ∈ schema.required)
    (h : key ∈ input.map Prod.fst) : (renamed fold schema input).lookup key = none := by
  cases hlookup : (renamed fold schema input).lookup key with
  | none => rfl
  | some target =>
    obtain ⟨htarget, habsent, -, -, hfold⟩ := renamed_spec hlookup
    obtain rfl := hdistinct _ hrequired _ htarget hfold
    exact absurd h habsent

/-- Where no two required names are spelled alike, a repaired input is left as it is. -/
theorem repairToolInput_twice (hdistinct : DistinctFolds fold schema) :
    repairToolInput fold schema (repairToolInput fold schema input) = repairToolInput fold schema input := by
  refine repairToolInput_eq fun source => ?_
  cases hlookup : (renamed fold schema (repairToolInput fold schema input)).lookup source with
  | none => rfl
  | some name =>
    obtain ⟨hrequired, habsent, hsource, hundeclared, hfold⟩ := renamed_spec hlookup
    have hmissing : name ∉ input.map Prod.fst := by
      intro hpresent
      have hmem := @mem_repaired fold schema input name hpresent
      rw [required_stays hdistinct hrequired hpresent] at hmem
      exact habsent hmem
    obtain ⟨key, hkey, hbecomes⟩ := of_mem_repaired hsource
    -- a taken name spelled like the missing one would be it
    have htaken {key target : Units} (htarget : (renamed fold schema input).lookup key = some target)
        (hspelled : fold target = fold name) : False := by
      obtain ⟨htargetRequired, -, hkey, -⟩ := renamed_spec htarget
      obtain rfl := hdistinct _ htargetRequired _ hrequired hspelled
      have hmem := @mem_repaired fold schema input key hkey
      rw [htarget] at hmem
      exact habsent hmem
    cases hrename : (renamed fold schema input).lookup key with
    | some target =>
      rw [hrename] at hbecomes
      obtain rfl : target = source := hbecomes
      exact (htaken hrename hfold).elim
    | none =>
      rw [hrename] at hbecomes
      obtain rfl : key = source := hbecomes
      obtain ⟨first, hfirst⟩ := candidate_isSome hkey hundeclared hfold
      obtain ⟨target, htarget⟩ := renamed_isSome (mem_missing.mpr ⟨hrequired, hmissing⟩) hfirst
      have hspelled := (renamed_spec htarget).2.2.2.2
      exact (htaken htarget (hspelled.symm.trans (candidate_spec hfirst).2.2)).elim

/-- A name that is the only required one of its spelling stays where it is present, declared or not. -/
theorem alone_stays (halone : ∀ other ∈ schema.required, fold other = fold key → other = key)
    (h : key ∈ input.map Prod.fst) : key ∈ (repairToolInput fold schema input).map Prod.fst := by
  have hnone : (renamed fold schema input).lookup key = none := by
    cases hlookup : (renamed fold schema input).lookup key with
    | none => rfl
    | some target =>
      obtain ⟨htarget, habsent, -, -, hfold⟩ := renamed_spec hlookup
      obtain rfl := halone _ htarget hfold.symm
      exact absurd h habsent
  have hmem := @mem_repaired fold schema input key h
  rwa [hnone] at hmem

end Candidates

section Lengthened

variable {lowerCase : Units → Units} {schema : ToolSchema} {name : Units}

/-- A name with underscores after it, so many that a schema with such a name has them all. -/
def lengthened (schema : ToolSchema) (name : Units) (more : Nat) : Units :=
  name ++ List.replicate ((schema.required ++ schema.properties).flatten.length + 1 + more) 95

/-- A lengthened name is spelled alike. -/
theorem foldName_lengthened (more : Nat) :
    foldName lowerCase (lengthened schema name more) = foldName lowerCase name := by
  unfold foldName lengthened
  have hnone (count : Nat) : (List.replicate count (95 : UInt16)).filter (fun unit => !isSeparator unit) = [] := by
    rw [List.filter_eq_nil_iff]
    intro unit hunit
    rw [List.eq_of_mem_replicate hunit]
    decide
  rw [List.filter_append, hnone, List.append_nil]

/-- The schema has no name that long. -/
theorem lengthened_notMem (more : Nat) : lengthened schema name more ∉ schema.required ++ schema.properties := by
  intro hmem
  have hle := (List.sublist_flatten_of_mem hmem).length_le
  unfold lengthened at hle
  rw [List.length_append, List.length_replicate] at hle
  omega

/-- Different lengths make different names. -/
theorem lengthened_ne {more other : Nat} (h : more ≠ other) :
    lengthened schema name more ≠ lengthened schema name other := by
  intro hsame
  have hlength := congrArg List.length hsame
  unfold lengthened at hlength
  simp only [List.length_append, List.length_replicate] at hlength
  omega

/-- Two arguments spelled like a required name, of which the first spelling wins. -/
def spelledTwice (schema : ToolSchema) (name : Units) : Record :=
  [(lengthened schema name 0, .null), (lengthened schema name 1, .null)]

theorem spelledTwice_nodup : ((spelledTwice schema name).map Prod.fst).Nodup := by
  refine List.nodup_cons.mpr ⟨?_, List.nodup_singleton _⟩
  exact fun h => lengthened_ne Nat.zero_ne_one (List.mem_singleton.mp h)

/-- The second spelling is not renamed. -/
theorem spelledTwice_second : (renamed (foldName lowerCase) schema (spelledTwice schema name)).lookup
    (lengthened schema name 1) = none := by
  cases hlookup : (renamed (foldName lowerCase) schema (spelledTwice schema name)).lookup
    (lengthened schema name 1) with
  | none => rfl
  | some target =>
    have hfold := (renamed_spec hlookup).2.2.2.2
    rw [foldName_lengthened] at hfold
    obtain ⟨hcandidate, -⟩ := sourced_renamed (foldName lowerCase) _ (mem_of_lookup hlookup)
    have hundeclared : lengthened schema name 0 ∉ schema.properties :=
      fun h => lengthened_notMem 0 (List.mem_append_right _ h)
    have hfirst : foldName lowerCase (lengthened schema name 0) = foldName lowerCase target := by
      rw [foldName_lengthened, hfold]
    rw [lookup_candidates] at hcandidate
    simp only [spelledTwice, List.map_cons, List.find?_cons, hundeclared, hfirst, not_false_eq_true, and_self,
      decide_true, Option.some.injEq] at hcandidate
    exact absurd hcandidate (lengthened_ne Nat.zero_ne_one)

/-- Where two required names are spelled alike, a second repair renames the second spelling too. -/
theorem spelledTwice_changes {other : Units} (hname : name ∈ schema.required) (hother : other ∈ schema.required)
    (hfold : foldName lowerCase name = foldName lowerCase other) (hne : name ≠ other) :
    repairToolInput (foldName lowerCase) schema
        (repairToolInput (foldName lowerCase) schema (spelledTwice schema name)) ≠
      repairToolInput (foldName lowerCase) schema (spelledTwice schema name) := by
  set once := repairToolInput (foldName lowerCase) schema (spelledTwice schema name) with honce
  -- one name is taken, so one of the two is still missing
  have hmissing : ∃ target ∈ schema.required, foldName lowerCase target = foldName lowerCase name ∧
      target ∉ once.map Prod.fst := by
    by_cases htaken : name ∈ once.map Prod.fst
    · refine ⟨other, hother, hfold.symm, fun hpresent => hne ?_⟩
      have hgained {target : Units} (htarget : target ∈ schema.required) (h : target ∈ once.map Prod.fst) :
          ((renamed (foldName lowerCase) schema (spelledTwice schema name)).lookup (lengthened schema name 0)).getD
            (lengthened schema name 0) = target := by
        obtain ⟨key, hkey, hbecomes⟩ := of_mem_repaired h
        rcases List.mem_cons.mp hkey with rfl | hkey
        · exact hbecomes
        · obtain rfl := List.mem_singleton.mp hkey
          dsimp only at hbecomes
          rw [spelledTwice_second] at hbecomes
          subst hbecomes
          exact absurd (List.mem_append_left _ htarget) (lengthened_notMem 1)
      exact (hgained hname htaken).symm.trans (hgained hother hpresent)
    · exact ⟨name, hname, rfl, htaken⟩
  obtain ⟨target, htarget, hspelled, habsent⟩ := hmissing
  have hsecond : lengthened schema name 1 ∈ once.map Prod.fst := by
    have hmem := @mem_repaired (foldName lowerCase) schema (spelledTwice schema name) (lengthened schema name 1)
      (List.mem_cons_of_mem _ (List.mem_singleton.mpr rfl))
    rwa [spelledTwice_second] at hmem
  obtain ⟨source, hsource⟩ := @candidate_isSome (foldName lowerCase) schema once target _ hsecond
    (fun h => lengthened_notMem 1 (List.mem_append_right _ h)) (by rw [foldName_lengthened, hspelled])
  obtain ⟨taken, htaken⟩ := renamed_isSome (mem_missing.mpr ⟨htarget, habsent⟩) hsource
  exact repairToolInput_ne htaken

end Lengthened

/-- Every argument keeps its value, and its name unless a missing required name is spelled like it; what is declared
stays. A second repair changes nothing exactly when no two required names are spelled alike. -/
theorem repairToolInput_renames (lowerCase : Units → Units) (schema : ToolSchema) :
    (∀ input : Record, (input.map Prod.fst).Nodup → ∃ becomes : Units → Units,
        (repairToolInput (foldName lowerCase) schema input).Perm
            (input.map fun member => (becomes member.1, member.2)) ∧
          ((repairToolInput (foldName lowerCase) schema input).map Prod.fst).Nodup ∧
          (∀ key ∈ input.map Prod.fst, becomes key ≠ key →
            key ∉ schema.properties ∧ becomes key ∈ schema.required ∧ becomes key ∉ input.map Prod.fst ∧
              foldName lowerCase key = foldName lowerCase (becomes key)) ∧
          ∀ key ∈ input.map Prod.fst, (key ∈ schema.properties ∨
              ∀ other ∈ schema.required, foldName lowerCase other = foldName lowerCase key → other = key) →
            key ∈ (repairToolInput (foldName lowerCase) schema input).map Prod.fst) ∧
      ((∀ input : Record, (input.map Prod.fst).Nodup →
          repairToolInput (foldName lowerCase) schema (repairToolInput (foldName lowerCase) schema input) =
            repairToolInput (foldName lowerCase) schema input) ↔
        DistinctFolds (foldName lowerCase) schema) := by
  refine ⟨fun input hinput => ?_, fun htwice => ?_, fun hdistinct input _ => repairToolInput_twice hdistinct⟩
  · refine ⟨fun key => ((renamed (foldName lowerCase) schema input).lookup key).getD key, .refl _,
      repairToolInput_nodup _ hinput, fun key _ hchanged => ?_, fun key hkey hstays => ?_⟩
    · dsimp only at hchanged ⊢
      cases hlookup : (renamed (foldName lowerCase) schema input).lookup key with
      | none =>
        rw [hlookup] at hchanged
        exact absurd rfl hchanged
      | some target =>
        obtain ⟨hrequired, habsent, -, hundeclared, hfold⟩ := renamed_spec hlookup
        exact ⟨hundeclared, hrequired, habsent, hfold⟩
    · rcases hstays with hdeclared | halone
      · exact declared_stays hdeclared hkey
      · exact alone_stays halone hkey
  · intro first hfirst second hsecond hfold
    by_contra hne
    exact spelledTwice_changes hfirst hsecond hfold hne (htwice _ spelledTwice_nodup)

/-- A schema that requires a parameter under two spellings; the first spelling of the model wins. -/
def twoSpellings : ToolSchema where
  required := [asciiUnits "filePath", asciiUnits "file-path"]
  properties := [asciiUnits "filePath", asciiUnits "file-path"]

/-- A schema that requires a parameter under two spellings and declares neither. -/
def undeclaredSpellings : ToolSchema where
  required := [asciiUnits "filePath", asciiUnits "file_path"]
  properties := []

/-- A second repair renames what the first one left; and a required name that is there, but not declared, is renamed
to the one that is missing. -/
theorem twoSpellings_repaired :
    let lowerCase : Units → Units := List.map fun unit => if 65 ≤ unit ∧ unit ≤ 90 then unit + 32 else unit
    let once := repairToolInput (foldName lowerCase) twoSpellings
      [(asciiUnits "FilePath", .null), (asciiUnits "FILE_PATH", .bool true)]
    once.map Prod.fst = [asciiUnits "filePath", asciiUnits "FILE_PATH"] ∧
      (repairToolInput (foldName lowerCase) twoSpellings once).map Prod.fst =
        [asciiUnits "filePath", asciiUnits "file-path"] ∧
      (repairToolInput (foldName lowerCase) undeclaredSpellings [(asciiUnits "filePath", .null)]).map Prod.fst =
        [asciiUnits "file_path"] := by
  decide +kernel

end MultiAiRouter.ClaudeSdk.Tools
