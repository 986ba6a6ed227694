import MultiAiRouter.Common.Utf8
import Mathlib.Algebra.Ring.Nat

/-!
# The sequences of a UTF-8 text

Well-formed bytes are sequences, each of one scalar value: an ASCII byte, or up to four bytes that are
none. An automaton that treats all of the latter alike can be followed by the scalar values.
-/

namespace MultiAiRouter.Common

/-- The bytes of one scalar value. -/
inductive Utf8Sequence : List UInt8 → ℕ → Prop where
  | ascii {byte : UInt8} : byte < 128 → Utf8Sequence [byte] byte.toNat
  | longer {bytes : List UInt8} {code : ℕ} :
      bytes ≠ [] → bytes.length ≤ 4 → (∀ byte ∈ bytes, 128 ≤ byte) → 128 ≤ code → code < 0x140000 →
      Utf8Sequence bytes code

/-- The scalar values of the bytes from a state of the decoder on. -/
def utf8ScalarsFrom (state : Utf8State) (bytes : List UInt8) : Option (List ℕ) :=
  ((utf8Run state bytes).2 ++ utf8Finish (utf8Run state bytes).1).mapM id

theorem utf8ScalarsFrom_start (bytes : List UInt8) : utf8ScalarsFrom {} bytes = utf8Scalars bytes := rfl

/-- The first byte, and then the others. -/
theorem utf8ScalarsFrom_cons (state : Utf8State) (byte : UInt8) (rest : List UInt8) :
    utf8ScalarsFrom state (byte :: rest) = ((utf8Byte state byte).2.mapM id).bind fun values =>
        (utf8ScalarsFrom (utf8Byte state byte).1 rest).map (values ++ ·) := by
  simp only [utf8ScalarsFrom, utf8Run, List.append_assoc]
  rw [List.mapM_append]
  cases (utf8Byte state byte).2.mapM id with
  | none => rfl
  | some values =>
    generalize ((utf8Run (utf8Byte state byte).1 rest).2 ++
      utf8Finish (utf8Run (utf8Byte state byte).1 rest).1).mapM id = later
    cases later <;> rfl

/-- A pending sequence is finished by continuation bytes, and its value is in the range they leave. -/
theorem utf8ScalarsFrom_pending {needed : ℕ} {state : Utf8State} {bytes : List UInt8} {codes : List ℕ}
    (hneeded : state.needed = needed + 1) (hlower : 0x80 ≤ state.lower) (hupper : state.upper ≤ 0xBF)
    (h : utf8ScalarsFrom state bytes = some codes) :
    ∃ continuations rest code later, bytes = continuations ++ rest ∧ codes = code :: later ∧
      continuations.length = needed + 1 ∧ (∀ byte ∈ continuations, 128 ≤ byte) ∧
      utf8Scalars rest = some later ∧ utf8ScalarsFrom state continuations = some [code] ∧
      (state.codePoint * 64 + (state.lower - 0x80)) * 64 ^ needed ≤ code ∧
      code < (state.codePoint + 1) * 64 * 64 ^ needed := by
  induction needed generalizing state bytes with
  | zero =>
    cases bytes with
    | nil => simp [utf8ScalarsFrom, utf8Run, utf8Finish, hneeded] at h
    | cons byte rest =>
      rw [utf8ScalarsFrom_cons, utf8Byte, if_neg (by omega)] at h
      by_cases hrange : state.lower ≤ byte.toNat ∧ byte.toNat ≤ state.upper
      · rw [if_pos hrange] at h
        dsimp only at h
        rw [if_pos (by omega)] at h
        cases hrest : utf8ScalarsFrom {} rest with
        | none => simp [hrest] at h
        | some later =>
          simp only [hrest, List.mapM_cons, List.mapM_nil, id_eq, Option.map_some] at h
          obtain rfl := Option.some.inj h
          refine ⟨[byte], rest, _, later, rfl, rfl, rfl, ?_, hrest, ?_, ?_, ?_⟩
          · intro other hother
            rw [List.mem_singleton] at hother
            subst hother
            rw [UInt8.le_iff_toNat_le]
            simp
            omega
          · rw [utf8ScalarsFrom_cons, utf8Byte, if_neg (by omega), if_pos hrange]
            dsimp only
            rw [if_pos (by omega)]
            rfl
          · simp only [Nat.pow_zero, Nat.mul_one]
            omega
          · simp only [Nat.pow_zero, Nat.mul_one]
            omega
      · rw [if_neg hrange] at h
        simp [List.mapM_cons] at h
  | succ needed ih =>
    cases bytes with
    | nil => simp [utf8ScalarsFrom, utf8Run, utf8Finish, hneeded] at h
    | cons byte rest =>
      rw [utf8ScalarsFrom_cons, utf8Byte, if_neg (by omega)] at h
      by_cases hrange : state.lower ≤ byte.toNat ∧ byte.toNat ≤ state.upper
      · rw [if_pos hrange] at h
        dsimp only at h
        rw [if_neg (by omega)] at h
        have hrest : utf8ScalarsFrom
            { needed := state.needed - 1, codePoint := state.codePoint * 64 + (byte.toNat - 0x80) } rest =
            some codes := by
          simpa using h
        obtain ⟨continuations, later, code, codes', rfl, rfl, hlength, hall, hscalars, hone, hlow, hhigh⟩ :=
          ih (by dsimp only; omega) (Nat.le_refl _) (Nat.le_refl _) hrest
        dsimp only at hlow hhigh
        refine ⟨byte :: continuations, later, code, codes', rfl, rfl, by simp [hlength], ?_, hscalars, ?_, ?_, ?_⟩
        · intro other hother
          rw [List.mem_cons] at hother
          rcases hother with rfl | hother
          · rw [UInt8.le_iff_toNat_le]
            simp
            omega
          · exact hall other hother
        · rw [utf8ScalarsFrom_cons, utf8Byte, if_neg (by omega), if_pos hrange]
          dsimp only
          rw [if_neg (by omega), hone]
          rfl
        · refine Nat.le_trans ?_ hlow
          rw [Nat.pow_succ', ← Nat.mul_assoc]
          apply Nat.mul_le_mul_right
          omega
        · refine Nat.lt_of_lt_of_le hhigh ?_
          rw [Nat.pow_succ', ← Nat.mul_assoc]
          apply Nat.mul_le_mul_right
          omega
      · rw [if_neg hrange] at h
        simp [List.mapM_cons] at h

/-- A lead byte is ASCII, is refused, or leaves a range of values for its continuation bytes. -/
theorem utf8Lead_cases (byte : ℕ) :
    (byte < 128 ∧ utf8Lead byte = ({}, [some byte])) ∨ utf8Lead byte = ({}, [none]) ∨
      ∃ lead needed, utf8Lead byte = (lead, []) ∧ 128 ≤ byte ∧ needed < 3 ∧ lead.needed = needed + 1 ∧
        0x80 ≤ lead.lower ∧ lead.upper ≤ 0xBF ∧
        128 ≤ (lead.codePoint * 64 + (lead.lower - 0x80)) * 64 ^ needed ∧
        (lead.codePoint + 1) * 64 * 64 ^ needed ≤ 0x140000 := by
  unfold utf8Lead
  by_cases hascii : byte ≤ 0x7F
  · rw [if_pos hascii]
    exact .inl ⟨by omega, rfl⟩
  rw [if_neg hascii]
  right
  by_cases htwo : 0xC2 ≤ byte ∧ byte ≤ 0xDF
  · rw [if_pos htwo]
    exact .inr ⟨_, 0, rfl, by omega, by omega, rfl, Nat.le_refl _, Nat.le_refl _, by dsimp only; omega,
      by dsimp only; omega⟩
  rw [if_neg htwo]
  by_cases hthree : 0xE0 ≤ byte ∧ byte ≤ 0xEF
  · rw [if_pos hthree]
    refine .inr ⟨_, 1, rfl, by omega, by omega, rfl, ?_, ?_, ?_, by dsimp only; omega⟩
    all_goals
      dsimp only
      split_ifs <;> omega
  rw [if_neg hthree]
  by_cases hfour : 0xF0 ≤ byte ∧ byte ≤ 0xF4
  · rw [if_pos hfour]
    refine .inr ⟨_, 2, rfl, by omega, by omega, rfl, ?_, ?_, ?_, by dsimp only; omega⟩
    all_goals
      dsimp only
      split_ifs <;> omega
  rw [if_neg hfour]
  exact .inl rfl

/-- Well-formed bytes are nothing, or a sequence, well formed by itself, and then well-formed bytes. -/
theorem utf8Scalars_split {bytes : List UInt8} {codes : List ℕ} (h : utf8Scalars bytes = some codes) :
    (bytes = [] ∧ codes = []) ∨ ∃ sequence rest code later, bytes = sequence ++ rest ∧ codes = code :: later ∧
        utf8Scalars rest = some later ∧ Utf8Sequence sequence code ∧ utf8Scalars sequence = some [code] := by
  cases bytes with
  | nil => exact .inl ⟨rfl, by simpa [utf8Scalars, utf8Run, utf8Finish] using h.symm⟩
  | cons byte rest =>
    right
    rw [← utf8ScalarsFrom_start, utf8ScalarsFrom_cons, utf8Byte, if_pos rfl] at h
    obtain ⟨hascii, hread⟩ | hread | ⟨lead, needed, hread, hbyte, hthree, hneeded, hlower, hupper, hlow, hhigh⟩ :=
      utf8Lead_cases byte.toNat
    · rw [hread] at h
      cases hrest : utf8ScalarsFrom {} rest with
      | none => simp [hrest] at h
      | some later =>
        simp only [hrest, List.mapM_cons, List.mapM_nil, id_eq, Option.map_some] at h
        obtain rfl := Option.some.inj h
        refine ⟨[byte], rest, byte.toNat, later, rfl, rfl, hrest, .ascii ?_, ?_⟩
        · rw [UInt8.lt_iff_toNat_lt]
          exact hascii
        · rw [← utf8ScalarsFrom_start, utf8ScalarsFrom_cons, utf8Byte, if_pos rfl, hread]
          rfl
    · rw [hread] at h
      simp [List.mapM_cons] at h
    · rw [hread] at h
      obtain ⟨continuations, rest', code, later, rfl, rfl, hlength, hall, hrest, hone, hlowCode, hhighCode⟩ :=
        utf8ScalarsFrom_pending hneeded hlower hupper (by simpa using h)
      refine ⟨byte :: continuations, rest', code, later, rfl, rfl, hrest, .longer (by simp) ?_ ?_ ?_ ?_, ?_⟩
      · rw [List.length_cons, hlength]
        omega
      · intro other hother
        rw [List.mem_cons] at hother
        rcases hother with rfl | hother
        · rw [UInt8.le_iff_toNat_le]
          exact hbyte
        · exact hall other hother
      · exact Nat.le_trans hlow hlowCode
      · exact Nat.lt_of_lt_of_le hhighCode hhigh
      · rw [← utf8ScalarsFrom_start, utf8ScalarsFrom_cons, utf8Byte, if_pos rfl, hread]
        simp [hone]

end MultiAiRouter.Common
