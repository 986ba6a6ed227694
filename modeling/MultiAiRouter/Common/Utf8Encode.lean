import MultiAiRouter.Common.Utf8Lines

/-!
# A text has one encoding

The bytes an encoder writes for a string without lone surrogates are well-formed UTF-8 and decode to it, and
well-formed bytes are the ones written for their text. So a text without a replacement character was read by a lossy
decoder from its one encoding.
-/

namespace MultiAiRouter.Common

/-- Every surrogate of the string is one half of a pair. -/
def isWellFormed : Units → Bool
  | [] => true
  | [unit] => !decide (0xD800 ≤ unit ∧ unit ≤ 0xDFFF)
  | unit :: next :: rest =>
    if 0xD800 ≤ unit ∧ unit ≤ 0xDBFF ∧ 0xDC00 ≤ next ∧ next ≤ 0xDFFF then isWellFormed rest
    else !decide (0xD800 ≤ unit ∧ unit ≤ 0xDFFF) && isWellFormed (next :: rest)

/-- A scalar value: a code point that is no surrogate. -/
def IsScalar (code : ℕ) : Prop := code < 0xD800 ∨ 0xDFFF < code ∧ code < 0x110000

/-- A byte of a small value is the value. -/
theorem toNat_toUInt8 {value : ℕ} (h : value < 256) : value.toUInt8.toNat = value := by
  simp [Nat.toUInt8, Nat.mod_eq_of_lt h]

/-- A continuation byte that completes its sequence. -/
theorem utf8Byte_last (state : Utf8State) {byte : UInt8} (hneeded : state.needed = 1)
    (hrange : state.lower ≤ byte.toNat ∧ byte.toNat ≤ state.upper) :
    utf8Byte state byte = ({}, [some (state.codePoint * 64 + (byte.toNat - 0x80))]) := by
  rw [utf8Byte, if_neg (by omega), if_pos hrange]
  simp [hneeded]

/-- A continuation byte that more follow. -/
theorem utf8Byte_more (state : Utf8State) (byte : UInt8) (hneeded : 1 < state.needed)
    (hrange : state.lower ≤ byte.toNat ∧ byte.toNat ≤ state.upper) : utf8Byte state byte =
      ({ needed := state.needed - 1, codePoint := state.codePoint * 64 + (byte.toNat - 0x80) }, []) := by
  rw [utf8Byte, if_neg (by omega), if_pos hrange]
  simp [show state.needed ≠ 1 by omega]

/-- The first byte of a sequence of two. -/
theorem utf8Lead_two {byte : ℕ} (h : 0xC2 ≤ byte ∧ byte ≤ 0xDF) :
    utf8Lead byte = ({ needed := 1, codePoint := byte - 0xC0 }, []) := by
  rw [utf8Lead, if_neg (by omega), if_pos h]

/-- The first byte of a sequence of three. -/
theorem utf8Lead_three {byte : ℕ} (h : 0xE0 ≤ byte ∧ byte ≤ 0xEF) :
    utf8Lead byte =
      ({ needed := 2
         lower := if byte = 0xE0 then 0xA0 else 0x80
         upper := if byte = 0xED then 0x9F else 0xBF
         codePoint := byte - 0xE0 }, []) := by
  rw [utf8Lead, if_neg (by omega), if_neg (by omega), if_pos h]

/-- The first byte of a sequence of four. -/
theorem utf8Lead_four {byte : ℕ} (h : 0xF0 ≤ byte ∧ byte ≤ 0xF4) :
    utf8Lead byte =
      ({ needed := 3
         lower := if byte = 0xF0 then 0x90 else 0x80
         upper := if byte = 0xF4 then 0x8F else 0xBF
         codePoint := byte - 0xF0 }, []) := by
  rw [utf8Lead, if_neg (by omega), if_neg (by omega), if_neg (by omega), if_pos h]

/-- A first byte is read from the start. -/
theorem utf8Byte_lead (byte : UInt8) : utf8Byte {} byte = utf8Lead byte.toNat := rfl

/-- A run goes on from where its first byte leads. -/
theorem utf8Run_step {state next : Utf8State} {byte : UInt8} {values : List (Option ℕ)}
    (h : utf8Byte state byte = (next, values)) (rest : List UInt8) :
    utf8Run state (byte :: rest) = ((utf8Run next rest).1, values ++ (utf8Run next rest).2) := by
  simp only [utf8Run, h]

/-- The bytes of a scalar value are one whole sequence. -/
theorem utf8Run_encodeScalar {code : ℕ} (h : IsScalar code) :
    utf8Run {} (utf8EncodeScalar code) = ({}, [some code]) := by
  unfold IsScalar at h
  have hlast := toNat_toUInt8 (show 0x80 + code % 64 < 256 by omega)
  have hmore := toNat_toUInt8 (show 0x80 + code / 64 % 64 < 256 by omega)
  unfold utf8EncodeScalar
  split
  · next hone =>
    have hbyte := toNat_toUInt8 (show code < 256 by omega)
    have hfirst : utf8Byte {} code.toUInt8 = ({}, [some code]) := by
      rw [utf8Byte_lead, hbyte, utf8Lead, if_pos (by omega)]
    rw [utf8Run_step hfirst]
    rfl
  · next hone =>
    split
    · next htwo =>
      have hlead := toNat_toUInt8 (show 0xC0 + code / 64 < 256 by omega)
      have hfirst := utf8Byte_lead (0xC0 + code / 64).toUInt8
      rw [hlead, utf8Lead_two (by omega)] at hfirst
      have hsecond := utf8Byte_last { needed := 1, codePoint := 0xC0 + code / 64 - 0xC0 } rfl
        (show 0x80 ≤ (0x80 + code % 64).toUInt8.toNat ∧ (0x80 + code % 64).toUInt8.toNat ≤ 0xBF by omega)
      rw [utf8Run_step hfirst, utf8Run_step hsecond, hlast]
      have hcode : (0xC0 + code / 64 - 0xC0) * 64 + (0x80 + code % 64 - 0x80) = code := by omega
      rw [hcode]
      rfl
    · next htwo =>
      split
      · next hthree =>
        have hlead := toNat_toUInt8 (show 0xE0 + code / 4096 < 256 by omega)
        have hfirst := utf8Byte_lead (0xE0 + code / 4096).toUInt8
        rw [hlead, utf8Lead_three (by omega)] at hfirst
        have hsecond := utf8Byte_more
          { needed := 2
            lower := if 0xE0 + code / 4096 = 0xE0 then 0xA0 else 0x80
            upper := if 0xE0 + code / 4096 = 0xED then 0x9F else 0xBF
            codePoint := 0xE0 + code / 4096 - 0xE0 } (0x80 + code / 64 % 64).toUInt8 (by decide : 1 < 2)
          (by rw [hmore]; dsimp only; split <;> split <;> omega)
        have hthird := utf8Byte_last
          { needed := 2 - 1
            codePoint := (0xE0 + code / 4096 - 0xE0) * 64 + ((0x80 + code / 64 % 64).toUInt8.toNat - 0x80) } rfl
          (show 0x80 ≤ (0x80 + code % 64).toUInt8.toNat ∧ (0x80 + code % 64).toUInt8.toNat ≤ 0xBF by omega)
        rw [utf8Run_step hfirst, utf8Run_step hsecond, utf8Run_step hthird, hmore, hlast]
        have hcode : ((0xE0 + code / 4096 - 0xE0) * 64 + (0x80 + code / 64 % 64 - 0x80)) * 64 +
            (0x80 + code % 64 - 0x80) = code := by omega
        rw [hcode]
        rfl
      · next hthree =>
        have hlead := toNat_toUInt8 (show 0xF0 + code / 262144 < 256 by omega)
        have hnext := toNat_toUInt8 (show 0x80 + code / 4096 % 64 < 256 by omega)
        have hfirst := utf8Byte_lead (0xF0 + code / 262144).toUInt8
        rw [hlead, utf8Lead_four (by omega)] at hfirst
        have hsecond := utf8Byte_more
          { needed := 3
            lower := if 0xF0 + code / 262144 = 0xF0 then 0x90 else 0x80
            upper := if 0xF0 + code / 262144 = 0xF4 then 0x8F else 0xBF
            codePoint := 0xF0 + code / 262144 - 0xF0 } (0x80 + code / 4096 % 64).toUInt8 (by decide : 1 < 3)
          (by rw [hnext]; dsimp only; split <;> split <;> omega)
        have hthird := utf8Byte_more
          { needed := 3 - 1
            codePoint := (0xF0 + code / 262144 - 0xF0) * 64 + ((0x80 + code / 4096 % 64).toUInt8.toNat - 0x80) }
          (0x80 + code / 64 % 64).toUInt8 (by decide : 1 < 3 - 1)
          (show 0x80 ≤ (0x80 + code / 64 % 64).toUInt8.toNat ∧ (0x80 + code / 64 % 64).toUInt8.toNat ≤ 0xBF by omega)
        have hfourth := utf8Byte_last
          { needed := 3 - 1 - 1
            codePoint := ((0xF0 + code / 262144 - 0xF0) * 64 + ((0x80 + code / 4096 % 64).toUInt8.toNat - 0x80)) * 64 +
              ((0x80 + code / 64 % 64).toUInt8.toNat - 0x80) } rfl
          (show 0x80 ≤ (0x80 + code % 64).toUInt8.toNat ∧ (0x80 + code % 64).toUInt8.toNat ≤ 0xBF by omega)
        rw [utf8Run_step hfirst, utf8Run_step hsecond, utf8Run_step hthird, utf8Run_step hfourth, hnext, hmore, hlast]
        have hcode : (((0xF0 + code / 262144 - 0xF0) * 64 + (0x80 + code / 4096 % 64 - 0x80)) * 64 +
            (0x80 + code / 64 % 64 - 0x80)) * 64 + (0x80 + code % 64 - 0x80) = code := by omega
        rw [hcode]
        rfl

/-- The bytes of a scalar value decode to it. -/
theorem utf8Text_encodeScalar {code : ℕ} (h : IsScalar code) :
    utf8Text (utf8EncodeScalar code) = some (utf16Units code) := by
  simp [utf8Text, utf8Scalars, utf8Run_encodeScalar h, utf8Finish]

/-- The scalar value of a surrogate pair is written as the pair. -/
theorem utf16Units_pair {high low : UInt16} (h : 0xD800 ≤ high ∧ high ≤ 0xDBFF ∧ 0xDC00 ≤ low ∧ low ≤ 0xDFFF) :
    IsScalar (0x10000 + (high.toNat - 0xD800) * 0x400 + (low.toNat - 0xDC00)) ∧
      utf16Units (0x10000 + (high.toNat - 0xD800) * 0x400 + (low.toNat - 0xDC00)) = [high, low] := by
  simp only [UInt16.le_iff_toNat_le, UInt16.toNat_ofNat] at h
  refine ⟨.inr (by omega), ?_⟩
  rw [utf16Units, if_neg (by omega)]
  have hhigh : 0xD800 + (0x10000 + (high.toNat - 0xD800) * 0x400 + (low.toNat - 0xDC00) - 0x10000) / 0x400 =
      high.toNat := by
    omega
  have hlow : 0xDC00 + (0x10000 + (high.toNat - 0xD800) * 0x400 + (low.toNat - 0xDC00) - 0x10000) % 0x400 =
      low.toNat := by
    omega
  rw [hhigh, hlow]
  simp

/-- A unit that is no surrogate is written as itself. -/
theorem utf8Text_encodeUnit {unit : UInt16} (h : ¬ (0xD800 ≤ unit ∧ unit ≤ 0xDFFF)) :
    utf8Text (utf8EncodeUnit unit) = some [unit] := by
  have hunits : utf16Units unit.toNat = [unit] := by
    rw [utf16Units, if_pos unit.toNat_lt]
    simp
  rw [utf8EncodeUnit, if_neg h, utf8Text_encodeScalar, hunits]
  simp only [UInt16.le_iff_toNat_le, UInt16.toNat_ofNat] at h
  have hlt := unit.toNat_lt
  unfold IsScalar
  omega

/-- A well-formed string is what the bytes written for it decode to. -/
theorem utf8Text_encode (text : Units) (h : isWellFormed text = true) : utf8Text (utf8Encode text) = some text := by
  fun_induction isWellFormed text with
  | case1 => rfl
  | case2 unit =>
    have hplain : ¬ (0xD800 ≤ unit ∧ unit ≤
        0xDFFF) := by simpa only [Bool.not_eq_true', decide_eq_false_iff_not] using h
    exact utf8Text_encodeUnit hplain
  | case3 unit next rest hpair ih =>
    obtain ⟨hscalar, hunits⟩ := utf16Units_pair hpair
    rw [utf8Encode, if_pos hpair, utf8Text_append (utf8Text_encodeScalar hscalar) (ih h), hunits]
    rfl
  | case4 unit next rest hpair ih =>
    rw [Bool.and_eq_true] at h
    have hplain : ¬ (0xD800 ≤ unit ∧ unit ≤ 0xDFFF) := by
      simpa only [Bool.not_eq_true', decide_eq_false_iff_not] using h.1
    rw [utf8Encode, if_neg hpair, utf8Text_append (utf8Text_encodeUnit hplain) (ih h.2)]
    rfl

/-- A unit that is no surrogate keeps a string well formed. -/
theorem isWellFormed_cons {unit : UInt16} (h : ¬ (0xD800 ≤ unit ∧ unit ≤ 0xDFFF)) (rest : Units) :
    isWellFormed (unit :: rest) = isWellFormed rest := by
  have hsingle : (!decide (0xD800 ≤ unit ∧ unit ≤ 0xDFFF)) = true := by
    rw [decide_eq_false h]
    rfl
  cases rest with
  | nil => rw [isWellFormed, isWellFormed, hsingle]
  | cons next later =>
    have hpair : ¬ (0xD800 ≤ unit ∧ unit ≤ 0xDBFF ∧ 0xDC00 ≤ next ∧ next ≤ 0xDFFF) := by
      rintro ⟨hlow, hhigh, -⟩
      exact h ⟨hlow, UInt16.le_trans hhigh (by decide)⟩
    rw [isWellFormed, if_neg hpair, hsingle, Bool.true_and]

/-- Well-formed strings join to one. -/
theorem isWellFormed_append {first second : Units} (hfirst : isWellFormed first = true)
    (hsecond : isWellFormed second = true) : isWellFormed (first ++ second) = true := by
  fun_induction isWellFormed first with
  | case1 => exact hsecond
  | case2 unit =>
    have hplain : ¬ (0xD800 ≤ unit ∧ unit ≤ 0xDFFF) := by
      simpa only [Bool.not_eq_true', decide_eq_false_iff_not] using hfirst
    rw [List.singleton_append, isWellFormed_cons hplain]
    exact hsecond
  | case3 unit next rest hpair ih =>
    rw [List.cons_append, List.cons_append, isWellFormed, if_pos hpair]
    exact ih hfirst
  | case4 unit next rest hpair ih =>
    rw [Bool.and_eq_true] at hfirst
    have hplain : ¬ (0xD800 ≤ unit ∧ unit ≤ 0xDFFF) := by
      simpa only [Bool.not_eq_true', decide_eq_false_iff_not] using hfirst.1
    rw [List.cons_append, isWellFormed_cons hplain]
    exact ih hfirst.2

/-- Well-formed strings join to one, however many. -/
theorem isWellFormed_flatMap {A : Type*} {values : List A} {text : A → Units}
    (h : ∀ value ∈ values, isWellFormed (text value) = true) : isWellFormed (values.flatMap text) = true := by
  induction values with
  | nil => rfl
  | cons value rest ih =>
    rw [List.flatMap_cons]
    exact isWellFormed_append (h value List.mem_cons_self) (ih fun other hmem => h other (List.mem_cons_of_mem _ hmem))

section Sequences

variable {state : Utf8State} {bytes : List UInt8} {code : ℕ}

/-- A continuation byte that is owed alone gives the value its last six bits. -/
theorem utf8ScalarsFrom_one (hneeded : state.needed = 1) (h : utf8ScalarsFrom state bytes = some [code]) :
    ∃ byte rest, bytes = byte :: rest ∧ state.lower ≤ byte.toNat ∧ byte.toNat ≤ state.upper ∧
      code = state.codePoint * 64 + (byte.toNat - 0x80) ∧ utf8Scalars rest = some [] := by
  cases bytes with
  | nil => simp [utf8ScalarsFrom, utf8Run, utf8Finish, hneeded] at h
  | cons byte rest =>
    rw [utf8ScalarsFrom_cons] at h
    by_cases hrange : state.lower ≤ byte.toNat ∧ byte.toNat ≤ state.upper
    · rw [utf8Byte_last state hneeded hrange] at h
      cases hrest : utf8ScalarsFrom {} rest with
      | none => simp [hrest] at h
      | some later =>
        simp only [hrest, List.mapM_cons, List.mapM_nil, id_eq, Option.map_some] at h
        obtain ⟨rfl, rfl⟩ := List.cons.inj (Option.some.inj h)
        exact ⟨byte, rest, rfl, hrange.1, hrange.2, rfl, hrest⟩
    · rw [utf8Byte, if_neg (by omega), if_neg hrange] at h
      simp [List.mapM_cons] at h

/-- A continuation byte that is not the last goes on. -/
theorem utf8ScalarsFrom_more (hneeded : 1 < state.needed) (h : utf8ScalarsFrom state bytes = some [code]) :
    ∃ byte rest, bytes = byte :: rest ∧ state.lower ≤ byte.toNat ∧ byte.toNat ≤ state.upper ∧
      utf8ScalarsFrom { needed := state.needed - 1, codePoint := state.codePoint * 64 + (byte.toNat - 0x80) } rest =
        some [code] := by
  cases bytes with
  | nil => simp [utf8ScalarsFrom, utf8Run, utf8Finish, Nat.ne_of_gt (Nat.lt_trans Nat.zero_lt_one hneeded)] at h
  | cons byte rest =>
    rw [utf8ScalarsFrom_cons] at h
    by_cases hrange : state.lower ≤ byte.toNat ∧ byte.toNat ≤ state.upper
    · rw [utf8Byte_more state byte hneeded hrange] at h
      exact ⟨byte, rest, rfl, hrange.1, hrange.2, by simpa using h⟩
    · rw [utf8Byte, if_neg (by omega), if_neg hrange] at h
      simp [List.mapM_cons] at h

theorem utf8Scalars_nil (h : utf8Scalars bytes = some []) : bytes = [] := by
  rcases utf8Scalars_split h with ⟨hnil, -⟩ | ⟨-, -, code, later, -, hcodes, -⟩
  · exact hnil
  · cases hcodes

/-- A byte that is written as a value. -/
theorem byte_eq {byte : UInt8} {value : ℕ} (h : value = byte.toNat) : byte = value.toUInt8 := by
  subst h
  simp

/-- The bytes of one value are what an encoder writes for it, and it is a scalar value. -/
theorem utf8EncodeScalar_of_scalars (h : utf8Scalars bytes = some [code]) :
    bytes = utf8EncodeScalar code ∧ IsScalar code := by
  cases bytes with
  | nil => simp [utf8Scalars, utf8Run, utf8Finish] at h
  | cons byte rest =>
    rw [← utf8ScalarsFrom_start, utf8ScalarsFrom_cons, utf8Byte_lead] at h
    by_cases hascii : byte.toNat ≤ 0x7F
    · rw [utf8Lead, if_pos hascii] at h
      cases hrest : utf8ScalarsFrom {} rest with
      | none => simp [hrest] at h
      | some later =>
        simp only [hrest, List.mapM_cons, List.mapM_nil, id_eq, Option.map_some] at h
        obtain ⟨rfl, rfl⟩ := List.cons.inj (Option.some.inj h)
        obtain rfl := utf8Scalars_nil hrest
        rw [utf8EncodeScalar, if_pos (by omega), ← byte_eq rfl]
        exact ⟨rfl, .inl (by omega)⟩
    by_cases htwo : 0xC2 ≤ byte.toNat ∧ byte.toNat ≤ 0xDF
    · rw [utf8Lead_two htwo] at h
      obtain ⟨second, last, rfl, hlow, hhigh, hcode, hnil⟩ := utf8ScalarsFrom_one rfl (by simpa using h)
      obtain rfl := utf8Scalars_nil hnil
      dsimp only at hlow hhigh hcode
      rw [utf8EncodeScalar, if_neg (by omega), if_pos (by omega), ← @byte_eq byte _ (by omega),
        ← @byte_eq second _ (by omega)]
      exact ⟨rfl, .inl (by omega)⟩
    by_cases hthree : 0xE0 ≤ byte.toNat ∧ byte.toNat ≤ 0xEF
    · rw [utf8Lead_three hthree] at h
      simp only [List.mapM_nil, Option.pure_def, Option.bind_some, List.nil_append, Option.map_id'] at h
      obtain ⟨second, more, rfl, hlow, hhigh, hmore⟩ := utf8ScalarsFrom_more (by simp) h
      obtain ⟨third, last, rfl, hlow', hhigh', hcode, hnil⟩ := utf8ScalarsFrom_one rfl hmore
      obtain rfl := utf8Scalars_nil hnil
      dsimp only at hlow hhigh hlow' hhigh' hcode
      have hbounds : 0x80 ≤ second.toNat ∧ second.toNat ≤ 0xBF ∧ (byte.toNat = 0xE0 → 0xA0 ≤ second.toNat) ∧
          (byte.toNat = 0xED → second.toNat ≤ 0x9F) := by
        split_ifs at hlow hhigh <;> omega
      rw [utf8EncodeScalar, if_neg (by omega), if_neg (by omega), if_pos (by omega), ← @byte_eq byte _ (by omega),
        ← @byte_eq second _ (by omega), ← @byte_eq third _ (by omega)]
      refine ⟨rfl, ?_⟩
      unfold IsScalar
      omega
    by_cases hfour : 0xF0 ≤ byte.toNat ∧ byte.toNat ≤ 0xF4
    · rw [utf8Lead_four hfour] at h
      simp only [List.mapM_nil, Option.pure_def, Option.bind_some, List.nil_append, Option.map_id'] at h
      obtain ⟨second, more, rfl, hlow, hhigh, hmore⟩ := utf8ScalarsFrom_more (by simp) h
      obtain ⟨third, later, rfl, hlow', hhigh', hlater⟩ := utf8ScalarsFrom_more (by simp) hmore
      obtain ⟨fourth, last, rfl, hlow'', hhigh'', hcode, hnil⟩ := utf8ScalarsFrom_one rfl hlater
      obtain rfl := utf8Scalars_nil hnil
      dsimp only at hlow hhigh hlow' hhigh' hlow'' hhigh'' hcode
      have hbounds : 0x80 ≤ second.toNat ∧ second.toNat ≤ 0xBF ∧ (byte.toNat = 0xF0 → 0x90 ≤ second.toNat) ∧
          (byte.toNat = 0xF4 → second.toNat ≤ 0x8F) := by
        split_ifs at hlow hhigh <;> omega
      rw [utf8EncodeScalar, if_neg (by omega), if_neg (by omega), if_neg (by omega), ← @byte_eq byte _ (by omega),
        ← @byte_eq second _ (by omega), ← @byte_eq third _ (by omega), ← @byte_eq fourth _ (by omega)]
      refine ⟨rfl, ?_⟩
      unfold IsScalar
      omega
    rw [utf8Lead, if_neg hascii, if_neg htwo, if_neg hthree, if_neg hfour] at h
    simp [List.mapM_cons] at h

/-- Well-formed bytes are the bytes of their scalar values. -/
theorem utf8Scalars_eq {codes : List ℕ} (h : utf8Scalars bytes = some codes) :
    bytes = codes.flatMap utf8EncodeScalar ∧ ∀ code ∈ codes, IsScalar code := by
  induction codes generalizing bytes with
  | nil => exact ⟨utf8Scalars_nil h, fun _ hcode => nomatch hcode⟩
  | cons code later ih =>
    rcases utf8Scalars_split h with ⟨-, hnil⟩ | ⟨sequence, rest, first, others, rfl, hcodes, hrest, -, hone⟩
    · cases hnil
    · obtain ⟨rfl, rfl⟩ := List.cons.inj hcodes
      obtain ⟨hsequence, hscalar⟩ := utf8EncodeScalar_of_scalars hone
      obtain ⟨hbytes, hall⟩ := ih hrest
      rw [List.flatMap_cons, ← hsequence, ← hbytes]
      exact ⟨rfl, List.forall_mem_cons.mpr ⟨hscalar, hall⟩⟩

end Sequences

section Texts

variable {bytes : List UInt8} {text first second : Units} {code : ℕ}

/-- The units of a scalar value are encoded as the value, whatever follows them. -/
theorem utf8Encode_scalar (h : IsScalar code) (rest : Units) :
    utf8Encode (utf16Units code ++ rest) = utf8EncodeScalar code ++ utf8Encode rest := by
  unfold IsScalar at h
  unfold utf16Units
  by_cases hsmall : code < 0x10000
  · have hunit : code.toUInt16.toNat = code := by simp [Nat.toUInt16, Nat.mod_eq_of_lt hsmall]
    have hplain : ¬(0xD800 ≤ code.toUInt16 ∧ code.toUInt16 ≤ 0xDFFF) := by
      simp only [UInt16.le_iff_toNat_le, hunit, UInt16.toNat_ofNat]
      omega
    have hone : utf8EncodeUnit code.toUInt16 = utf8EncodeScalar code := by
      rw [utf8EncodeUnit, if_neg hplain, hunit]
    rw [if_pos hsmall, List.singleton_append]
    cases rest with
    | nil =>
      rw [show utf8Encode ([] : Units) = [] from rfl, List.append_nil, ← hone]
      rfl
    | cons next later =>
      have hpair : ¬(0xD800 ≤ code.toUInt16 ∧ code.toUInt16 ≤ 0xDBFF ∧ 0xDC00 ≤ next ∧ next ≤ 0xDFFF) := by
        rintro ⟨hlow, hhigh, -⟩
        exact hplain ⟨hlow, UInt16.le_trans hhigh (by decide)⟩
      rw [utf8Encode, if_neg hpair, hone]
  · have hhigh : (0xD800 + (code - 0x10000) / 0x400).toUInt16.toNat = 0xD800 + (code - 0x10000) / 0x400 := by
      simp only [Nat.toUInt16, UInt16.toNat_ofNat']
      omega
    have hlow : (0xDC00 + (code - 0x10000) % 0x400).toUInt16.toNat = 0xDC00 + (code - 0x10000) % 0x400 := by
      simp only [Nat.toUInt16, UInt16.toNat_ofNat']
      omega
    have hpair : 0xD800 ≤ (0xD800 + (code - 0x10000) / 0x400).toUInt16 ∧
        (0xD800 + (code - 0x10000) / 0x400).toUInt16 ≤ 0xDBFF ∧
        0xDC00 ≤ (0xDC00 + (code - 0x10000) % 0x400).toUInt16 ∧
        (0xDC00 + (code - 0x10000) % 0x400).toUInt16 ≤ 0xDFFF := by
      simp only [UInt16.le_iff_toNat_le, hhigh, hlow, UInt16.toNat_ofNat]
      omega
    have hvalue : 0x10000 + (0xD800 + (code - 0x10000) / 0x400 - 0xD800) * 0x400 +
        (0xDC00 + (code - 0x10000) % 0x400 - 0xDC00) = code := by
      omega
    rw [if_neg hsmall, List.cons_append, List.cons_append, List.nil_append, utf8Encode, if_pos hpair, hhigh, hlow,
      hvalue]

/-- Scalars are encoded one by one. -/
theorem utf8Encode_scalars {codes : List ℕ} (h : ∀ code ∈ codes, IsScalar code) :
    utf8Encode (codes.flatMap utf16Units) = codes.flatMap utf8EncodeScalar := by
  induction codes with
  | nil => rfl
  | cons code later ih =>
    obtain ⟨hcode, hlater⟩ := List.forall_mem_cons.mp h
    rw [List.flatMap_cons, utf8Encode_scalar hcode, ih hlater, List.flatMap_cons]

/-- Well-formed bytes are what an encoder writes for their text. -/
theorem utf8Encode_of_text (h : utf8Text bytes = some text) : utf8Encode text = bytes := by
  obtain ⟨codes, hcodes, rfl⟩ := Option.map_eq_some_iff.mp h
  obtain ⟨hbytes, hscalars⟩ := utf8Scalars_eq hcodes
  rw [utf8Encode_scalars hscalars, hbytes]

/-- The text a lossy decoder reads from all of the bytes. -/
def utf8Lossy (bytes : List UInt8) : Units :=
  lossyUnits ((utf8Run {} bytes).2 ++ utf8Finish (utf8Run {} bytes).1)

/-- The unit that stands for a malformed sequence. -/
def replacement : UInt16 := 0xFFFD

theorem lossyUnits_some (codes : List ℕ) : lossyUnits (codes.map some) = codes.flatMap utf16Units := by
  rw [lossyUnits, List.flatMap_map]
  rfl

theorem utf8Lossy_of_text (h : utf8Text bytes = some text) : utf8Lossy bytes = text := by
  obtain ⟨codes, hcodes, rfl⟩ := Option.map_eq_some_iff.mp h
  rw [utf8Lossy, utf8Run_of_scalars hcodes]
  exact (congrArg lossyUnits (List.append_nil _)).trans (lossyUnits_some codes)

/-- A lossy decoder that replaced nothing read well-formed bytes. -/
theorem utf8Text_of_lossy (h : replacement ∉ utf8Lossy bytes) : utf8Text bytes = some (utf8Lossy bytes) := by
  have hall : ∀ values : List (Option ℕ), replacement ∉ lossyUnits values →
      ∃ codes, values.mapM id = some codes ∧ lossyUnits values = codes.flatMap utf16Units := by
    intro values hvalues
    induction values with
    | nil => exact ⟨[], rfl, rfl⟩
    | cons value later ih =>
      rw [lossyUnits, List.flatMap_cons, List.mem_append, not_or] at hvalues
      obtain ⟨codes, hcodes, hunits⟩ := ih hvalues.2
      cases value with
      | none => exact absurd (show replacement ∈ utf16Units replacementCharacter by decide) hvalues.1
      | some code =>
        refine ⟨code :: codes, by simp [List.mapM_cons, hcodes], ?_⟩
        rw [List.flatMap_cons, ← hunits]
        rfl
  obtain ⟨codes, hcodes, hunits⟩ := hall _ h
  rw [utf8Text, utf8Lossy, hunits]
  have hscalars : utf8Scalars bytes = some codes := hcodes
  rw [hscalars]
  rfl

/-- Where a text has a replacement character, other bytes are read as the same text. -/
theorem utf8Lossy_malformed (hfirst : isWellFormed first = true) (hsecond : isWellFormed second = true) :
    utf8Lossy (utf8Encode first ++ 0xFF :: utf8Encode second) = first ++ replacement :: second ∧
      utf8Text (utf8Encode first ++ 0xFF :: utf8Encode second) = none := by
  obtain ⟨front, hfront, hfirst'⟩ := Option.map_eq_some_iff.mp (utf8Text_encode first hfirst)
  obtain ⟨back, hback, hsecond'⟩ := Option.map_eq_some_iff.mp (utf8Text_encode second hsecond)
  have hrun : utf8Run {} (utf8Encode first ++ 0xFF :: utf8Encode second) =
      ({}, front.map some ++ none :: back.map some) := by
    rw [utf8Run_append, utf8Run_of_scalars hfront]
    dsimp only
    rw [utf8Run_step (show utf8Byte {} 0xFF = ({}, [none]) by decide), utf8Run_of_scalars hback]
    rfl
  constructor
  · rw [utf8Lossy, hrun]
    dsimp only [utf8Finish]
    rw [if_pos rfl, List.append_nil, lossyUnits, List.flatMap_append, List.flatMap_cons]
    have hone : utf16Units ((none : Option ℕ).getD replacementCharacter) = [replacement] := by decide
    rw [hone, ← lossyUnits, ← lossyUnits, lossyUnits_some, lossyUnits_some, hfirst', hsecond']
    rfl
  · have hnot : isUtf8 (utf8Encode first ++ 0xFF :: utf8Encode second) = false := by
      rw [← Bool.not_eq_true, isUtf8_iff, hrun]
      simp
    have hnone : utf8Scalars (utf8Encode first ++ 0xFF :: utf8Encode second) = none := by
      rwa [isUtf8, Option.isSome_eq_false_iff, Option.isNone_iff_eq_none] at hnot
    rw [utf8Text, hnone]
    rfl

/-- What is before and after a unit that is no surrogate is well formed by itself. -/
theorem isWellFormed_around {unit : UInt16} (hunit : ¬(0xD800 ≤ unit ∧ unit ≤ 0xDFFF))
    (h : isWellFormed (first ++ unit :: second) = true) : isWellFormed first = true ∧ isWellFormed second = true := by
  fun_induction isWellFormed first with
  | case1 => exact ⟨rfl, (isWellFormed_cons hunit second).symm.trans h⟩
  | case2 only =>
    have hpair : ¬(0xD800 ≤ only ∧ only ≤ 0xDBFF ∧ 0xDC00 ≤ unit ∧ unit ≤ 0xDFFF) := by
      rintro ⟨-, -, hlow, hhigh⟩
      exact hunit ⟨UInt16.le_trans (by decide) hlow, hhigh⟩
    rw [List.cons_append, List.nil_append, isWellFormed, if_neg hpair, Bool.and_eq_true] at h
    exact ⟨h.1, (isWellFormed_cons hunit second).symm.trans h.2⟩
  | case3 unit' next rest hpair ih =>
    rw [List.cons_append, List.cons_append, isWellFormed, if_pos hpair] at h
    exact ih h
  | case4 unit' next rest hpair ih =>
    rw [List.cons_append, List.cons_append, isWellFormed, if_neg hpair, Bool.and_eq_true] at h
    obtain ⟨hrest, hsecond⟩ := ih h.2
    exact ⟨by rw [Bool.and_eq_true]; exact ⟨h.1, hrest⟩, hsecond⟩

end Texts

end MultiAiRouter.Common
