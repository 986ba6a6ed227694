import MultiAiRouter.Common.Utf8Split

/-!
# The lines of a stream

A line ends at LF, CR or CRLF. The lines are cut alike from bytes and from code units, and the lines of a
well-formed UTF-8 text are the texts of its lines of bytes.
-/

namespace MultiAiRouter.Common

section Cut

variable {Code : Type*} [DecidableEq Code] {lf cr : Code}

/-- The complete lines of a stream whose first line begins with `current`, and the line it leaves open. An LF
right after a CR ends nothing. -/
def cutLines (lf cr : Code) (current : List Code) (afterCr : Bool) : List Code → List (List Code) × List Code
  | [] => ([], current)
  | code :: rest =>
    if code = lf ∧ afterCr = true then cutLines lf cr current false rest
    else if code = lf ∨ code = cr then
      (current :: (cutLines lf cr [] (decide (code = cr)) rest).1, (cutLines lf cr [] (decide (code = cr)) rest).2)
    else cutLines lf cr (current ++ [code]) false rest

/-- The LF of a CRLF ends nothing. -/
theorem cutLines_lf_afterCr (current rest : List Code) :
    cutLines lf cr current true (lf :: rest) = cutLines lf cr current false rest := by
  rw [cutLines, if_pos ⟨rfl, rfl⟩]

/-- A code that ends a line. -/
theorem cutLines_end {code : Code} {afterCr : Bool} (hnot : ¬ (code = lf ∧ afterCr = true))
    (hend : code = lf ∨ code = cr) (current rest : List Code) :
    cutLines lf cr current afterCr (code :: rest) = (current :: (cutLines lf cr [] (decide (code = cr)) rest).1,
        (cutLines lf cr [] (decide (code = cr)) rest).2) := by
  rw [cutLines, if_neg hnot, if_pos hend]

/-- A code of a line. -/
theorem cutLines_code {code : Code} (hlf : code ≠ lf) (hcr : code ≠ cr) (current : List Code) (afterCr : Bool)
    (rest : List Code) :
    cutLines lf cr current afterCr (code :: rest) = cutLines lf cr (current ++ [code]) false rest := by
  rw [cutLines, if_neg (by simp [hlf]), if_neg (by simp [hlf, hcr])]

/-- Codes of a line are taken together. -/
theorem cutLines_plain {front : List Code} (hfront : front ≠ []) (hplain : ∀ code ∈ front, code ≠ lf ∧ code ≠ cr)
    (current : List Code) (afterCr : Bool) (rest : List Code) :
    cutLines lf cr current afterCr (front ++ rest) = cutLines lf cr (current ++ front) false rest := by
  induction front generalizing current afterCr with
  | nil => exact absurd rfl hfront
  | cons code front ih =>
    obtain ⟨hlf, hcr⟩ := hplain code (List.mem_cons_self ..)
    rw [List.cons_append, cutLines_code hlf hcr]
    cases front with
    | nil => rfl
    | cons next later =>
      rw [ih (by simp) fun other hother => hplain other (List.mem_cons_of_mem _ hother)]
      simp

/-- A line that is begun is the first one to be complete, or stays open. -/
theorem cutLines_begun {current : List Code} (hcurrent : current ≠ []) {afterCr : Bool} {rest : List Code}
    (hclosed : (cutLines lf cr current afterCr rest).2 = []) :
    ∃ more later, (cutLines lf cr current afterCr rest).1 = (current ++ more) :: later := by
  induction rest generalizing current afterCr with
  | nil => exact absurd hclosed hcurrent
  | cons code rest ih =>
    rw [cutLines] at hclosed ⊢
    split at hclosed
    · next hlf =>
      rw [if_pos hlf]
      exact ih hcurrent hclosed
    · next hlf =>
      rw [if_neg hlf]
      split at hclosed
      · next hend =>
        rw [if_pos hend]
        exact ⟨[], _, by rw [List.append_nil]⟩
      · next hend =>
        rw [if_neg hend]
        obtain ⟨more, later, heq⟩ := ih (by simp) hclosed
        exact ⟨code :: more, later, by rw [heq]; simp⟩

end Cut

section Utf8

/-- The text of well-formed bytes. -/
def utf8Text (bytes : List UInt8) : Option Units := (utf8Scalars bytes).map fun codes => codes.flatMap utf16Units

@[simp] theorem utf8Text_nil : utf8Text [] = some [] := rfl

/-- Decoding well-formed bytes yields their scalar values and leaves nothing unfinished. -/
theorem utf8Run_of_scalars {bytes : List UInt8} {codes : List ℕ} (h : utf8Scalars bytes = some codes) :
    utf8Run {} bytes = ({}, codes.map some) := by
  have hvalues (values : List (Option ℕ)) (codes : List ℕ) (h : values.mapM id = some codes) :
      values = codes.map some := by
    induction values generalizing codes with
    | nil => simpa using h
    | cons value rest ih =>
      cases value with
      | none => simp [List.mapM_cons] at h
      | some value =>
        cases hrest : rest.mapM id with
        | none => simp [List.mapM_cons, hrest] at h
        | some later =>
          simp only [List.mapM_cons, hrest, id_eq, Option.bind_eq_bind, Option.bind_some, Option.pure_def,
            Option.some.injEq] at h
          rw [← h, ih later hrest, List.map_cons]
  obtain ⟨hneeded, -⟩ := (isUtf8_iff bytes).mp (by simp [isUtf8, h])
  have hstart : (utf8Run {} bytes).1 = {} := utf8Run_needed_zero hneeded
  rw [utf8Scalars] at h
  dsimp only at h
  rw [hstart, utf8Finish, if_pos rfl, List.append_nil] at h
  exact Prod.ext hstart (hvalues _ codes h)

/-- The text of two well-formed runs of bytes. -/
theorem utf8Scalars_append {first second : List UInt8} {codes more : List ℕ} (hfirst : utf8Scalars first = some codes)
    (hsecond : utf8Scalars second = some more) : utf8Scalars (first ++ second) = some (codes ++ more) := by
  have hrun := utf8Run_of_scalars hfirst
  simp only [utf8Scalars] at hfirst hsecond ⊢
  rw [utf8Run_append]
  dsimp only
  rw [hrun]
  rw [hrun, utf8Finish, if_pos rfl, List.append_nil] at hfirst
  rw [List.append_assoc, List.mapM_append, hfirst, hsecond]
  rfl

/-- Texts follow one another as their bytes do. -/
theorem utf8Text_append {first second : List UInt8} {text more : Units} (hfirst : utf8Text first = some text)
    (hsecond : utf8Text second = some more) : utf8Text (first ++ second) = some (text ++ more) := by
  obtain ⟨codes, hcodes, rfl⟩ := Option.map_eq_some_iff.mp hfirst
  obtain ⟨others, hothers, rfl⟩ := Option.map_eq_some_iff.mp hsecond
  rw [utf8Text, utf8Scalars_append hcodes hothers]
  simp

/-- The units of a value that is not ASCII end no line. -/
theorem utf16Units_plain {code : ℕ} (hcode : 128 ≤ code) (hmax : code < 0x140000) :
    utf16Units code ≠ [] ∧ ∀ unit ∈ utf16Units code, unit ≠ 10 ∧ unit ≠ 13 := by
  have hne (value : ℕ) (hlow : 128 ≤ value) (hhigh : value < 65536) :
      value.toUInt16 ≠ 10 ∧ value.toUInt16 ≠ 13 := by
    constructor <;> intro heq <;> have := congrArg UInt16.toNat heq <;> simp at this <;> omega
  unfold utf16Units
  split
  · next hsmall => exact ⟨by simp, by simpa using hne code hcode hsmall⟩
  · refine ⟨by simp, ?_⟩
    simp only [List.mem_cons, List.not_mem_nil, or_false, forall_eq_or_imp, forall_eq]
    exact ⟨hne _ (by omega) (by omega), hne _ (by omega) (by omega)⟩

/-- The unit of any other ASCII byte ends none. -/
theorem utf16Units_ascii {byte : UInt8} (hlf : byte ≠ 10) (hcr : byte ≠ 13) :
    utf16Units byte.toNat ≠ [] ∧ ∀ unit ∈ utf16Units byte.toNat, unit ≠ 10 ∧ unit ≠ 13 := by
  have hsmall : byte.toNat < 0x10000 := Nat.lt_of_lt_of_le byte.toNat_lt (by decide)
  rw [utf16Units, if_pos hsmall]
  refine ⟨by simp, ?_⟩
  simp only [List.mem_singleton, forall_eq]
  constructor <;> intro heq <;> have hnat := congrArg UInt16.toNat heq
  · exact hlf (UInt8.toNat_inj.mp (by simpa using hnat))
  · exact hcr (UInt8.toNat_inj.mp (by simpa using hnat))

/-- The lines of the text are the texts of the lines of bytes. -/
theorem cutLines_utf8 {bytes current : List UInt8} {text held : Units} (htext : utf8Text bytes = some text)
    (hheld : utf8Text current = some held) (afterCr : Bool) :
    List.Forall₂ (fun line raw => utf8Text line = some raw) (cutLines 10 13 current afterCr bytes).1
        (cutLines 10 13 held afterCr text).1 ∧
      utf8Text (cutLines 10 13 current afterCr bytes).2 = some (cutLines 10 13 held afterCr text).2 := by
  obtain ⟨codes, hcodes, rfl⟩ := Option.map_eq_some_iff.mp htext
  clear htext
  induction codes generalizing bytes current held afterCr with
  | nil =>
    obtain ⟨rfl, -⟩ | ⟨_, _, _, _, -, hnone, -⟩ := utf8Scalars_split hcodes
    · exact ⟨.nil, hheld⟩
    · simp at hnone
  | cons code later ih =>
    obtain ⟨-, hnone⟩ | ⟨sequence, rest, first, others, rfl, hcons, hrest, hsequence, hone⟩ := utf8Scalars_split hcodes
    · simp at hnone
    obtain ⟨rfl, rfl⟩ := List.cons.inj hcons
    have hgrown : utf8Text (current ++ sequence) = some (held ++ utf16Units code) :=
      utf8Text_append hheld (by simp [utf8Text, hone])
    rw [List.flatMap_cons]
    cases hsequence with
    | longer hfront _ hbytes hcode hmax =>
      obtain ⟨hunits, hplain⟩ := utf16Units_plain hcode hmax
      rw [cutLines_plain hunits hplain, cutLines_plain hfront]
      · exact ih hgrown false hrest
      · intro byte hbyte
        have hlarge := UInt8.le_iff_toNat_le.mp (hbytes byte hbyte)
        constructor <;> rintro rfl <;> simp at hlarge
    | @ascii byte hbyte =>
      by_cases hlf : byte = 10
      · subst hlf
        have hunit : utf16Units (UInt8.toNat 10) = [10] := rfl
        rw [hunit, List.singleton_append, List.singleton_append]
        cases afterCr with
        | true =>
          rw [cutLines_lf_afterCr, cutLines_lf_afterCr]
          exact ih hheld false hrest
        | false =>
          rw [cutLines_end (by simp) (.inl rfl), cutLines_end (by simp) (.inl rfl)]
          obtain ⟨hlines, hopen⟩ := ih utf8Text_nil false hrest
          exact ⟨.cons hheld hlines, hopen⟩
      · by_cases hcr : byte = 13
        · subst hcr
          have hunit : utf16Units (UInt8.toNat 13) = [13] := rfl
          rw [hunit, List.singleton_append, List.singleton_append,
            cutLines_end (by simp) (.inr rfl), cutLines_end (by simp) (.inr rfl)]
          obtain ⟨hlines, hopen⟩ := ih utf8Text_nil true hrest
          exact ⟨.cons hheld hlines, hopen⟩
        · obtain ⟨hunits, hplain⟩ := utf16Units_ascii hlf hcr
          rw [cutLines_plain hunits hplain, cutLines_plain (by simp) (by simpa using ⟨hlf, hcr⟩)]
          exact ih hgrown false hrest

end Utf8

end MultiAiRouter.Common
