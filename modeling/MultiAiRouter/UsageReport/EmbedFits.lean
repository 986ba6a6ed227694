import Mathlib.Data.List.Forall2
import MultiAiRouter.UsageReport.DiscordRender

/-!
# What an embed shows

An embed keeps within every limit, and each of its fields shows as many of its lines as fit together with the line
that counts the rest. A first line that is too long is cut only where it stands alone.
-/

namespace MultiAiRouter.UsageReport

open Common

/-- The lines with a count of the others, where there are others. -/
def shown (lines : List Units) (count : ℕ) : Units :=
  if count = lines.length then joinLines lines
  else if count = 0 then moreText lines.length
  else joinLines (lines.take count) ++ 10 :: moreText (lines.length - count)

/-- A field shows the longest prefix of its lines that fits together with the count of the others. -/
def LongestPrefix (budget : ℕ) (lines : List Units) (value : Units) : Prop :=
  ∃ count ≤ lines.length, value = shown lines count ∧ value.length ≤ budget ∧
    ∀ more ≤ lines.length, (shown lines more).length ≤ budget → more ≤ count

/-- A first line that is longer than the budget is shown, cut. -/
def FirstLineCut (budget : ℕ) (lines : List Units) (value : Units) : Prop :=
  ∀ line ∈ lines.head?, budget < line.length → (line.take (budget - 1) ++ [ellipsis]) <+: value

/-- The embed is within every limit. -/
structure WithinLimits (embed : DiscordEmbed) : Prop where
  fields : embed.fields.length ≤ embedFieldsMax
  title : embed.title.length ≤ embedTitleMaxChars
  description : embed.description.length ≤ embedDescriptionMaxChars
  each : ∀ field ∈ embed.fields, field.name.length ≤ embedFieldNameMaxChars ∧
    field.value.length ≤ embedFieldValueMaxChars
  total : embed.title.length + embed.description.length +
    (embed.fields.map fun field => field.name.length + field.value.length).sum ≤ embedTotalMaxChars

section Fit

variable {lines before rest : List Units} {budget : ℕ}

/-- Joined lines have a line end between them. -/
theorem length_joinLines (lines : List Units) :
    (joinLines lines).length = (lines.map List.length).sum + (lines.length - 1) := by
  unfold joinLines
  induction lines with
  | nil => rfl
  | cons line rest ih =>
    cases rest with
    | nil => simp
    | cons second rest =>
      rw [List.intercalate_cons_cons, List.length_append, List.length_append, ih]
      simp only [List.map_cons, List.sum_cons, List.length_cons, List.length_nil]
      omega

theorem length_decimal (value : ℕ) : (decimal value).length = (Nat.toDigits 10 value).length := by
  rw [← Nat.toList_repr, decimal, asciiUnits, List.length_map]
  rfl

/-- Counting one less saves a digit at most. -/
theorem length_moreText_succ (count : ℕ) : (moreText (count + 1)).length ≤ (moreText count).length + 1 := by
  have hpositive : 0 < (Nat.toDigits 10 count).length := Nat.length_toDigits_pos
  have hcount := (Nat.length_toDigits_le_iff (by decide) hpositive).mp (Nat.le_refl _)
  have hnext : (Nat.toDigits 10 (count + 1)).length ≤ (Nat.toDigits 10 count).length + 1 := by
    rw [Nat.length_toDigits_le_iff (by decide) (Nat.succ_pos _), Nat.pow_succ]
    omega
  unfold moreText
  simp only [List.length_append, length_decimal]
  omega

/-- The count of the elements of an array is short. -/
theorem length_moreText_le {count : ℕ} (hcount : count < 2 ^ 32) : (moreText count).length ≤ 16 := by
  have hdigits : (Nat.toDigits 10 count).length ≤ 10 :=
    (Nat.length_toDigits_le_iff (by decide) (by decide)).mpr (by omega)
  have hwords : (asciiUnits "+").length = 1 ∧ (asciiUnits " more").length = 5 := by decide
  unfold moreText
  simp only [List.length_append, length_decimal, hwords]
  omega

/-- The length of the first lines and the count of the others. -/
def fitLength (lines : List Units) (count : ℕ) : ℕ :=
  (joinLines (lines.take count)).length + 1 + (moreText (lines.length - count)).length

/-- One more line leaves no more room. -/
theorem fitLength_mono {count : ℕ} (hpositive : 0 < count) (hcount : count < lines.length) :
    fitLength lines count ≤ fitLength lines (count + 1) := by
  have hdigits := length_moreText_succ (lines.length - (count + 1))
  have hrest : lines.length - (count + 1) + 1 = lines.length - count := by omega
  rw [hrest] at hdigits
  have hjoined : (joinLines (lines.take count)).length + 1 ≤ (joinLines (lines.take (count + 1))).length := by
    rw [length_joinLines, length_joinLines, List.take_succ_eq_append_getElem hcount, List.map_append, List.sum_append,
      List.length_append, List.length_take]
    simp only [List.length_singleton]
    omega
  unfold fitLength
  omega

/-- More lines are longer. -/
theorem fitLength_le {count more : ℕ} (hpositive : 0 < count) (hle : count ≤ more) (hmore : more ≤ lines.length) :
    fitLength lines count ≤ fitLength lines more := by
  induction more, hle using Nat.le_induction with
  | base => exact Nat.le_refl _
  | succ more hle ih =>
    exact (ih (by omega)).trans (fitLength_mono (by omega) (by omega))

/-- Every line that is kept fits, and the next does not. -/
structure Keeps (lines : List Units) (budget first kept : ℕ) : Prop where
  low : first ≤ kept
  high : kept ≤ lines.length
  fits : ∀ count, first < count → count ≤ kept → fitLength lines count ≤ budget
  stops : kept < lines.length → budget < fitLength lines (kept + 1)

/-- The loop keeps every line up to the first that does not fit. -/
theorem fitKept_keeps (hsplit : lines = before ++ rest) : Keeps lines budget before.length
      (fitKept lines.length budget rest before.length before.length (joinLines before).length) := by
  induction rest generalizing before with
  | nil =>
    rw [List.append_nil] at hsplit
    subst hsplit
    exact ⟨Nat.le_refl _, Nat.le_refl _, fun count hlow hhigh => absurd hhigh (Nat.not_le.mpr hlow),
      fun h => absurd h (Nat.lt_irrefl _)⟩
  | cons line rest ih =>
    have hnext : lines = before ++ [line] ++ rest := by rw [hsplit, List.append_assoc, List.singleton_append]
    have hlength : before.length < lines.length := by rw [hsplit]; simp
    have hcost : (joinLines before).length + (if before.length = 0 then line.length else line.length + 1) =
        (joinLines (before ++ [line])).length := by
      rw [length_joinLines, length_joinLines, List.map_append, List.sum_append, List.length_append]
      simp only [List.map_singleton, List.sum_singleton, List.length_singleton]
      split <;> omega
    have hfit : fitLength lines (before.length + 1) =
        (joinLines (before ++ [line])).length + 1 + (moreText (lines.length - before.length - 1)).length := by
      have htake : lines.take (before.length + 1) = before ++ [line] := by
        rw [hnext, List.take_left' (by simp)]
      rw [fitLength, htake, Nat.sub_sub]
    unfold fitKept
    simp only [hcost]
    split
    · next hover =>
      exact ⟨Nat.le_refl _, hlength.le, fun count hlow hhigh => absurd hhigh (Nat.not_le.mpr hlow),
        fun _ => by rwa [hfit]⟩
    · next hroom =>
      have hrest := ih hnext
      rw [List.length_append, List.length_singleton] at hrest
      refine ⟨(Nat.le_succ _).trans hrest.low, hrest.high, fun count hbefore hkept => ?_, hrest.stops⟩
      rcases Nat.lt_or_ge (before.length + 1) count with hlater | hfirst
      · exact hrest.fits count hlater hkept
      · obtain rfl : count = before.length + 1 := by omega
        rw [hfit]
        omega

/-- What is not all of the lines is as long as its lines and the count of the others. -/
theorem length_shown {count : ℕ} (hpositive : 0 < count) (hcount : count < lines.length) :
    (shown lines count).length = fitLength lines count := by
  rw [shown, if_neg (by omega), if_neg (by omega), fitLength, List.length_append, List.length_cons]
  omega

/-- A field shows the longest prefix of its lines, each cut to the budget, that fits with the count of the others. -/
theorem fitLines_longest (hbudget : 32 ≤ budget) (hlines : lines.length < 2 ^ 32) :
    LongestPrefix budget (lines.map (capLine budget)) (fitLines lines budget) := by
  unfold fitLines
  by_cases hempty : lines.isEmpty = true
  · rw [if_pos hempty, List.isEmpty_iff.mp hempty]
    exact ⟨0, Nat.le_refl 0, rfl, Nat.zero_le _, fun more hmore _ => hmore⟩
  rw [if_neg hempty]
  generalize hcapped : lines.map (capLine budget) = capped
  have hcount : capped.length = lines.length := by rw [← hcapped, List.length_map]
  have hpositive : 0 < capped.length := by
    rw [hcount, List.length_pos_iff]
    simpa using hempty
  have hall : shown capped capped.length = joinLines capped := if_pos rfl
  dsimp only
  by_cases hwhole : (joinLines capped).length ≤ budget
  · rw [if_pos hwhole]
    exact ⟨capped.length, Nat.le_refl _, hall.symm, hwhole, fun more hmore _ => hmore⟩
  rw [if_neg hwhole]
  have hkeeps : Keeps capped budget 0 (fitKept capped.length budget capped 0 0 0) :=
    @fitKept_keeps capped [] capped budget rfl
  generalize fitKept capped.length budget capped 0 0 0 = kept at hkeeps
  have hpartial : kept < capped.length := by
    refine Nat.lt_of_le_of_ne hkeeps.high fun hsame => ?_
    have hfits := hkeeps.fits kept (by omega) (Nat.le_refl _)
    rw [hsame, fitLength, List.take_length] at hfits
    omega
  have hlongest : ∀ more ≤ capped.length, (shown capped more).length ≤ budget → more ≤ kept := by
    intro more hmore hfits
    by_contra hlater
    rcases Nat.lt_or_ge more capped.length with hsome | hevery
    · have hstops := hkeeps.stops hpartial
      have hmono := fitLength_le (by omega : 0 < kept + 1) (by omega : kept + 1 ≤ more) hmore
      rw [length_shown (by omega) hsome] at hfits
      omega
    · obtain rfl : more = capped.length := by omega
      rw [hall] at hfits
      exact hwhole hfits
  rcases Nat.eq_zero_or_pos kept with rfl | hkept
  · have hshort : (moreText capped.length).length ≤ budget := (length_moreText_le (by omega)).trans (by omega)
    have hnone : shown capped 0 = moreText capped.length := by
      rw [shown, if_neg (by omega), if_pos rfl]
    rw [if_pos rfl, Nat.sub_zero, List.take_of_length_le hshort]
    exact ⟨0, Nat.zero_le _, hnone.symm, hshort, hlongest⟩
  · have hsome : shown capped kept = joinLines (capped.take kept) ++ 10 :: moreText (capped.length - kept) := by
      rw [shown, if_neg (by omega), if_neg (by omega)]
    have hfits := hkeeps.fits kept hkept (Nat.le_refl _)
    rw [if_neg (by omega), ← hsome]
    exact ⟨kept, hkeeps.high, rfl, by rwa [length_shown hkept hpartial], hlongest⟩

/-- What shows the first of several lines is longer than that line. -/
theorem shown_long {line : Units} {count : ℕ} (hrest : rest ≠ []) (hpositive : 0 < count)
    (hcount : count ≤ (line :: rest).length) : line.length < (shown (line :: rest) count).length := by
  have hlength : 0 < rest.length := List.length_pos_iff.mpr hrest
  obtain ⟨count, rfl⟩ : ∃ earlier, count = earlier + 1 := ⟨count - 1, by omega⟩
  rcases Nat.eq_or_lt_of_le hcount with hall | hsome
  · rw [shown, if_pos hall, length_joinLines, List.map_cons, List.sum_cons, List.length_cons]
    omega
  · rw [length_shown hpositive hsome, fitLength, List.take_succ_cons, length_joinLines, List.map_cons, List.sum_cons]
    omega

/-- A first line that is too long is shown, cut, exactly where it stands alone. -/
theorem firstLineCut_iff (hbudget : 32 ≤ budget) (hlines : lines.length < 2 ^ 32) :
    FirstLineCut budget lines (fitLines lines budget) ↔
      (2 ≤ lines.length → ∀ line ∈ lines.head?, line.length ≤ budget) := by
  cases lines with
  | nil => exact iff_of_true nofun nofun
  | cons line rest =>
    unfold FirstLineCut
    simp only [List.head?_cons, Option.mem_some_iff, forall_eq']
    rcases Nat.lt_or_ge budget line.length with hlong | hshort
    · have hcut : capLine budget line = line.take (budget - 1) ++ [ellipsis] := if_pos hlong
      have hlength : (capLine budget line).length = budget := by
        rw [hcut, List.length_append, List.length_take, List.length_singleton]
        omega
      rw [← hcut]
      cases rest with
      | nil =>
        have hone : fitLines [line] budget = capLine budget line := by
          unfold fitLines
          simp only [List.isEmpty_cons, Bool.false_eq_true, if_false, List.map_singleton]
          rw [if_pos (by simp [joinLines, hlength])]
          simp [joinLines]
        refine iff_of_true (fun _ => ?_) fun hmany => absurd hmany (by simp)
        exact hone ▸ List.prefix_rfl
      | cons second rest =>
        refine iff_of_false (fun hcut => ?_) fun hfits => ?_
        · obtain ⟨count, hcount, hvalue, hfits, -⟩ := fitLines_longest hbudget hlines
          have hnone : count = 0 := by
            by_contra hsome
            have hlong := @shown_long ((second :: rest).map (capLine budget)) _ _ (by simp)
              (Nat.pos_of_ne_zero hsome) hcount
            rw [← List.map_cons, ← hvalue, hlength] at hlong
            omega
          rw [hnone, shown, if_neg (by simp), if_pos rfl, List.length_map] at hvalue
          have hshort := length_moreText_le hlines
          have hprefix := (hcut hlong).length_le
          rw [hlength, hvalue] at hprefix
          omega
        · have hfirst := hfits (by simp)
          omega
    · exact iff_of_true (fun hlong => absurd hlong (by omega)) fun _ => hshort

end Fit

section Limits

variable {percentText : ℚ → Units} {report : WeeklyReport} {publicUrl : Option Units}

/-- Fields that are there under names that are given are no more and no longer than those. -/
theorem named_filterMap {options : List (Option FieldLines)} {names : List Units} {good : FieldLines → Prop}
    (h : List.Forall₂ (fun option name => ∀ field ∈ option, field.name = name ∧ good field) options names) :
    (options.filterMap id).length ≤ names.length ∧
      ((options.filterMap id).map fun field => field.name.length).sum ≤ (names.map List.length).sum ∧
      ∀ field ∈ options.filterMap id, good field := by
  induction h with
  | nil => exact ⟨Nat.le_refl _, Nat.le_refl _, nofun⟩
  | @cons option name options names hname _ ih =>
    obtain ⟨hcount, hsum, hgood⟩ := ih
    cases option with
    | none =>
      rw [List.filterMap_cons_none rfl, List.length_cons, List.map_cons, List.sum_cons]
      exact ⟨by omega, by omega, hgood⟩
    | some field =>
      have hfield := hname field rfl
      have hcons : (some field :: options).filterMap id = field :: options.filterMap id := rfl
      rw [hcons, List.length_cons, List.length_cons, List.map_cons, List.sum_cons, List.map_cons,
        List.sum_cons, hfield.1]
      refine ⟨by omega, by omega, fun other hother => ?_⟩
      rcases List.mem_cons.mp hother with rfl | hrest
      · exact hfield.2
      · exact hgood other hrest

/-- A section's field has its name and lines. -/
theorem sectionField_name {name : Units} {lines : List ReportLine} :
    ∀ field ∈ sectionField name lines, field.name = name ∧ field.lines.length = lines.length := by
  intro field hfield
  unfold sectionField at hfield
  split at hfield
  · cases hfield
  · cases hfield
    exact ⟨rfl, List.length_map ..⟩

/-- So has that of the top models. -/
theorem topModelsField_name {models : List ReportModelLine} :
    ∀ field ∈ topModelsField models, field.name = asciiUnits "Top models" ∧ field.lines.length ≤ 6 := by
  intro field hfield
  unfold topModelsField at hfield
  split at hfield
  · cases hfield
  · cases hfield
    refine ⟨rfl, ?_⟩
    have hshown : (models.take embedTopModels).length ≤ 5 := List.length_take_le ..
    rw [List.length_append, List.length_map]
    split
    · rw [List.length_singleton]
      omega
    · rw [List.length_nil]
      omega

/-- So has that of the overflow. -/
theorem overflowField_name {overflow : List ReportOverflowLine} : ∀ field ∈ overflowField percentText overflow,
      field.name = asciiUnits "Pool overflow" ∧ field.lines.length = overflow.length := by
  intro field hfield
  unfold overflowField at hfield
  split at hfield
  · cases hfield
  · cases hfield
    exact ⟨rfl, List.length_map ..⟩

theorem caveatsField_name {caveats : List Units} :
    ∀ field ∈ caveatsField caveats, field.name = asciiUnits "Caveats" ∧ field.lines = caveats := by
  intro field hfield
  unfold caveatsField at hfield
  split at hfield
  · cases hfield
  · cases hfield
    exact ⟨rfl, rfl⟩

/-- A report has seven fields at most, under short names, and their lines are those of arrays. -/
theorem buildFieldLines_bounds : (buildFieldLines percentText report).length ≤ 7 ∧
      ((buildFieldLines percentText report).map fun field => field.name.length).sum ≤ 84 ∧
      ∀ field ∈ buildFieldLines percentText report, field.lines.length < 2 ^ 32 := by
  have hnamed : List.Forall₂ (fun option name => ∀ field ∈ option, field.name = name ∧ field.lines.length < 2 ^ 32)
      (fieldOptions percentText report)
      [asciiUnits "People", asciiUnits "Services", asciiUnits "Owner kind unknown", asciiUnits "Outside owner sections",
        asciiUnits "Top models", asciiUnits "Pool overflow", asciiUnits "Caveats"] := by
    refine .cons (fun field hfield => ?_) (.cons (fun field hfield => ?_) (.cons (fun field hfield => ?_)
      (.cons (fun field hfield => ?_) (.cons (fun field hfield => ?_) (.cons (fun field hfield => ?_)
        (.cons (fun field hfield => ?_) .nil))))))
    · exact (sectionField_name field hfield).imp_right fun h => h.trans_lt report.people.2
    · exact (sectionField_name field hfield).imp_right fun h => h.trans_lt report.services.2
    · exact (sectionField_name field hfield).imp_right fun h => h.trans_lt report.unknownKind.2
    · obtain rfl := Option.some.inj hfield
      exact ⟨rfl, (by decide : 3 < 2 ^ 32)⟩
    · exact (topModelsField_name field hfield).imp_right fun h => h.trans_lt (by decide)
    · exact (overflowField_name field hfield).imp_right fun h => h.trans_lt report.overflow.2
    · obtain ⟨hname, hlines⟩ := caveatsField_name field hfield
      exact ⟨hname, hlines ▸ report.caveats.2⟩
  obtain ⟨hcount, hnames, harrays⟩ := named_filterMap hnamed
  have hall : buildFieldLines percentText report = (fieldOptions percentText report).filterMap id :=
    List.take_of_length_le (hcount.trans (by decide))
  rw [hall]
  exact ⟨hcount, hnames.trans (by decide), harrays⟩

/-- An even share of what is left is more than the floor, and no more together than what is left. -/
theorem share_bounds {title description names count : ℕ} (htitle : title ≤ 256) (hdescription : description ≤ 4096)
    (hnames : names ≤ 84) (hcount : count ≤ 7) {budget : ℕ}
    (hbudget : budget = (max 32 (min ((embedFieldValueMaxChars : ℕ) : ℤ)
      (((embedTotalMaxChars : ℕ) - title - description - names - count) / ((max 1 count : ℕ) : ℤ)))).toNat) :
    32 ≤ budget ∧ budget ≤ embedFieldValueMaxChars ∧
      title + description + names + count * budget ≤ embedTotalMaxChars := by
  unfold embedTotalMaxChars embedFieldValueMaxChars at *
  generalize hremaining : ((6000 : ℕ) : ℤ) - title - description - names - count = remaining at hbudget
  have hroom : 1557 ≤ remaining := by omega
  have hpositive : (0 : ℤ) < ((max 1 count : ℕ) : ℤ) := by omega
  have hshare : 222 ≤ remaining / ((max 1 count : ℕ) : ℤ) := by
    rw [Int.le_ediv_iff_mul_le hpositive]
    omega
  have hsplit : remaining / ((max 1 count : ℕ) : ℤ) * ((max 1 count : ℕ) : ℤ) ≤ remaining :=
    Int.ediv_mul_le _ (Int.ne_of_gt hpositive)
  generalize remaining / ((max 1 count : ℕ) : ℤ) = share at hbudget hshare hsplit
  have hle : (budget : ℤ) ≤ share := by omega
  have hvalues : ((count * budget : ℕ) : ℤ) ≤ remaining := by
    rcases Nat.eq_zero_or_pos count with rfl | hsome
    · rw [Nat.zero_mul]
      omega
    · rw [Nat.max_eq_right hsome] at hsplit
      rw [Nat.mul_comm, Int.natCast_mul]
      exact (Int.mul_le_mul_of_nonneg_right hle (by omega)).trans hsplit
  omega

/-- A field's share is at least the floor and within a value, and all are within what the names leave. -/
theorem fieldBudget_bounds : 32 ≤ fieldBudget percentText report publicUrl ∧
      fieldBudget percentText report publicUrl ≤ embedFieldValueMaxChars ∧
      (embedTitle report).length + (embedDescription report publicUrl).length +
          ((buildFieldLines percentText report).map fun field => field.name.length).sum +
          (buildFieldLines percentText report).length * fieldBudget percentText report publicUrl ≤
        embedTotalMaxChars := by
  obtain ⟨hcount, hnames, -⟩ := @buildFieldLines_bounds percentText report
  exact share_bounds (List.length_take_le ..) (List.length_take_le ..) hnames hcount rfl

/-- An embed is within every limit. -/
theorem buildEmbed_withinLimits : WithinLimits (buildEmbed percentText report publicUrl) := by
  obtain ⟨hcount, hnames, harrays⟩ := @buildFieldLines_bounds percentText report
  obtain ⟨hfloor, hceiling, htotal⟩ := @fieldBudget_bounds percentText report publicUrl
  have hvalue : ∀ field ∈ buildFieldLines percentText report,
      (fitLines field.lines (fieldBudget percentText report publicUrl)).length ≤
        fieldBudget percentText report publicUrl := by
    intro field hfield
    obtain ⟨count, -, -, hfits, -⟩ := fitLines_longest hfloor (harrays field hfield)
    exact hfits
  refine ⟨?_, List.length_take_le .., List.length_take_le .., ?_, ?_⟩
  · unfold buildEmbed
    rw [List.length_map]
    exact hcount.trans (by decide)
  · intro shown hshown
    obtain ⟨field, hfield, rfl⟩ := List.mem_map.mp hshown
    exact ⟨List.length_take_le .., (hvalue field hfield).trans hceiling⟩
  · have hvalues := List.sum_le_card_nsmul ((buildFieldLines percentText report).map fun field =>
        (fitLines field.lines (fieldBudget percentText report publicUrl)).length)
      (fieldBudget percentText report publicUrl) (by simpa using hvalue)
    have hcut : ((buildFieldLines percentText report).map fun field =>
          (field.name.take embedFieldNameMaxChars).length).sum ≤
        ((buildFieldLines percentText report).map fun field => field.name.length).sum :=
      List.sum_le_sum fun field _ => List.length_take_le' ..
    unfold buildEmbed
    simp only [List.map_map, Function.comp_def, List.sum_map_add]
    rw [List.length_map, Nat.nsmul_eq_mul] at hvalues
    omega

end Limits

/-- A field shows the longest prefix of its lines that fits, and its first line at least in part. -/
def FieldShows (budget : ℕ) (field : FieldLines) (shown : DiscordEmbedField) : Prop :=
  LongestPrefix budget (field.lines.map (capLine budget)) shown.value ∧ FirstLineCut budget field.lines shown.value

/-- The embed is within every limit, and each field shows the longest prefix of its lines that fits with the count of
the others, and a first line that is too long cut rather than not at all. -/
structure EmbedShows (percentText : ℚ → Units) (report : WeeklyReport) (publicUrl : Option Units) : Prop where
  limits : WithinLimits (buildEmbed percentText report publicUrl)
  fields : List.Forall₂ (FieldShows (fieldBudget percentText report publicUrl)) (buildFieldLines percentText report)
    (buildEmbed percentText report publicUrl).fields

/-- No field of several lines begins with one that is longer than its share. -/
def FirstLinesFit (percentText : ℚ → Units) (report : WeeklyReport) (publicUrl : Option Units) : Prop :=
  ∀ field ∈ buildFieldLines percentText report, 2 ≤ field.lines.length →
    ∀ line ∈ field.lines.head?, line.length ≤ fieldBudget percentText report publicUrl

/-- Each field shows what fits exactly when no first line is too long. -/
theorem embed_fields_iff (percentText : ℚ → Units) (report : WeeklyReport) (publicUrl : Option Units) :
    List.Forall₂ (FieldShows (fieldBudget percentText report publicUrl)) (buildFieldLines percentText report)
        (buildEmbed percentText report publicUrl).fields ↔
      FirstLinesFit percentText report publicUrl := by
  obtain ⟨hfloor, -, -⟩ := @fieldBudget_bounds percentText report publicUrl
  obtain ⟨-, -, harrays⟩ := @buildFieldLines_bounds percentText report
  unfold buildEmbed
  rw [List.forall₂_map_right_iff, List.forall₂_same]
  refine forall₂_congr fun field hfield => ?_
  rw [← firstLineCut_iff hfloor (harrays field hfield)]
  exact and_iff_right (fitLines_longest hfloor (harrays field hfield))

/-- An embed shows all this exactly when no field of several lines begins with one that is longer than its share. -/
theorem embed_shows_iff (percentText : ℚ → Units) (report : WeeklyReport) (publicUrl : Option Units) :
    EmbedShows percentText report publicUrl ↔ FirstLinesFit percentText report publicUrl := by
  have hfields := embed_fields_iff percentText report publicUrl
  exact ⟨fun h => hfields.mp h.fields, fun h => ⟨buildEmbed_withinLimits, hfields.mpr h⟩⟩

/-- A report of two lines for one owner, with a name of eleven hundred characters. -/
theorem long_owner_not_shown :
    let measures : ReportMeasures := ⟨0, asciiUnits "0", asciiUnits "0", none⟩
    let line : ReportLine := { measures with owner := List.replicate 1100 120, tool := none }
    ∃ report : WeeklyReport, report.people.1 = [line, line] ∧ ¬ EmbedShows (fun _ => []) report none := by
  intro measures line
  let report : WeeklyReport :=
    { periodStart := asciiUnits "2026-10-05", periodEnd := asciiUnits "2026-10-12", totals := measures
      people := ⟨[line, line], by simp⟩, services := ⟨[], by simp⟩, unknownKind := ⟨[], by simp⟩
      unassigned := measures, deleted := measures, none := measures
      topModels := ⟨[], by simp⟩, overflow := ⟨[], by simp⟩, caveats := ⟨[], by simp⟩ }
  refine ⟨report, rfl, fun hshows => ?_⟩
  obtain ⟨-, hceiling, -⟩ := @fieldBudget_bounds (fun _ => []) report none
  have hfit := (embed_fields_iff (fun _ => []) report none).mp hshows.fields
  have hfirst := hfit _ (List.mem_cons_self ..) (Nat.le_refl 2) _ rfl
  rw [List.length_append, List.length_append, List.length_append, List.length_replicate] at hfirst
  unfold embedFieldValueMaxChars at hceiling
  omega

end MultiAiRouter.UsageReport
