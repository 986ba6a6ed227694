import MultiAiRouter.Common.Utf8Encode

/-!
# Unpadded base64url

Three bytes are four digits of six bits; one or two bytes at the end are two or three digits, whose unused bits are
zero. A decoder takes any digits and drops what makes no whole byte, so what it reads is written back as it was only
where the digits are canonical.
-/

namespace MultiAiRouter.Common.Base64Url

/-- The digits of bytes. -/
def digits : List UInt8 → List ℕ
  | first :: second :: third :: rest =>
    (first.toNat / 4) :: (first.toNat % 4 * 16 + second.toNat / 16) :: (second.toNat % 16 * 4 + third.toNat / 64) ::
      (third.toNat % 64) :: digits rest
  | [first, second] =>
    [first.toNat / 4, first.toNat % 4 * 16 + second.toNat / 16, second.toNat % 16 * 4]
  | [first] => [first.toNat / 4, first.toNat % 4 * 16]
  | [] => []

/-- The whole bytes of digits. -/
def bytes : List ℕ → List UInt8
  | first :: second :: third :: fourth :: rest =>
    (first * 4 + second / 16).toUInt8 :: (second % 16 * 16 + third / 4).toUInt8 ::
      (third % 4 * 64 + fourth).toUInt8 :: bytes rest
  | [first, second, third] => [(first * 4 + second / 16).toUInt8, (second % 16 * 16 + third / 4).toUInt8]
  | [first, second] => [(first * 4 + second / 16).toUInt8]
  | _ => []

/-- No digit is alone at the end, and the bits that make no byte are zero. -/
def canonicalDigits : List ℕ → Bool
  | _ :: _ :: _ :: _ :: rest => canonicalDigits rest
  | [_, _, third] => third % 4 == 0
  | [_, second] => second % 16 == 0
  | [_] => false
  | [] => true

/-- The character of a digit. -/
def digitUnit (digit : ℕ) : UInt16 :=
  if digit < 26 then (65 + digit).toUInt16
  else if digit < 52 then (97 + (digit - 26)).toUInt16
  else if digit < 62 then (48 + (digit - 52)).toUInt16
  else if digit = 62 then 45
  else 95

/-- The digit of a character, of this alphabet or of plain base64. -/
def digitOf (unit : UInt16) : Option ℕ :=
  if 65 ≤ unit ∧ unit ≤ 90 then some (unit.toNat - 65)
  else if 97 ≤ unit ∧ unit ≤ 122 then some (unit.toNat - 97 + 26)
  else if 48 ≤ unit ∧ unit ≤ 57 then some (unit.toNat - 48 + 52)
  else if unit = 45 ∨ unit = 43 then some 62
  else if unit = 95 ∨ unit = 47 then some 63
  else none

/-- The text of bytes. -/
def encode (data : List UInt8) : Units := (digits data).map digitUnit

/-- The bytes of a text. A character that is no digit is dropped. -/
def decode (text : Units) : List UInt8 := bytes (text.filterMap digitOf)

/-- The character is one of the alphabet. -/
def IsUrlDigit (unit : UInt16) : Prop :=
  (65 ≤ unit ∧ unit ≤ 90) ∨ (97 ≤ unit ∧ unit ≤ 122) ∨ (48 ≤ unit ∧ unit ≤ 57) ∨ unit = 45 ∨ unit = 95

instance : DecidablePred IsUrlDigit := fun unit =>
  inferInstanceAs (Decidable ((65 ≤ unit ∧ unit ≤ 90) ∨ (97 ≤ unit ∧ unit ≤ 122) ∨ (48 ≤ unit ∧ unit ≤ 57) ∨
    unit = 45 ∨ unit = 95))

/-- The text is what an encoder writes. -/
def Canonical (text : Units) : Prop :=
  (∀ unit ∈ text, IsUrlDigit unit) ∧ canonicalDigits (text.filterMap digitOf) = true

instance : DecidablePred Canonical := fun text =>
  inferInstanceAs (Decidable ((∀ unit ∈ text, IsUrlDigit unit) ∧ canonicalDigits (text.filterMap digitOf) = true))

section Digits

/-- A digit has six bits. -/
theorem digits_lt (data : List UInt8) : ∀ digit ∈ digits data, digit < 64 := by
  fun_induction digits data with
  | case1 first second third rest ih =>
    have := first.toNat_lt
    have := second.toNat_lt
    have := third.toNat_lt
    simp only [List.forall_mem_cons]
    exact ⟨by omega, by omega, by omega, by omega, ih⟩
  | case2 first second =>
    have := first.toNat_lt
    have := second.toNat_lt
    simp only [List.forall_mem_cons]
    exact ⟨by omega, by omega, by omega, fun _ h => nomatch h⟩
  | case3 first =>
    have := first.toNat_lt
    simp only [List.forall_mem_cons]
    exact ⟨by omega, by omega, fun _ h => nomatch h⟩
  | case4 => exact fun _ h => nomatch h

/-- A byte written as a number and read back. -/
theorem toUInt8_eq {value : ℕ} {byte : UInt8} (h : value = byte.toNat) : value.toUInt8 = byte := by
  subst h
  simp

/-- The bytes of digits of bytes. -/
theorem bytes_digits (data : List UInt8) : bytes (digits data) = data := by
  fun_induction digits data with
  | case1 first second third rest ih =>
    have := first.toNat_lt
    have := second.toNat_lt
    have := third.toNat_lt
    rw [bytes, ih, @toUInt8_eq _ first (by omega), @toUInt8_eq _ second (by omega), @toUInt8_eq _ third (by omega)]
  | case2 first second =>
    have := first.toNat_lt
    have := second.toNat_lt
    rw [bytes, @toUInt8_eq _ first (by omega), @toUInt8_eq _ second (by omega)]
  | case3 first =>
    have := first.toNat_lt
    rw [bytes, @toUInt8_eq _ first (by omega)]
  | case4 => rfl

/-- Digits are written back as they were exactly when they are canonical. -/
theorem digits_bytes_iff (values : List ℕ) (hvalues : ∀ digit ∈ values, digit < 64) :
    digits (bytes values) = values ↔ canonicalDigits values = true := by
  fun_induction bytes values with
  | case1 first second third fourth rest ih =>
    simp only [List.forall_mem_cons] at hvalues
    obtain ⟨hfirst, hsecond, hthird, hfourth, hrest⟩ := hvalues
    rw [digits, toNat_toUInt8 (by omega), toNat_toUInt8 (by omega), toNat_toUInt8 (by omega),
      canonicalDigits, ← ih hrest]
    simp only [List.cons.injEq]
    constructor
    · rintro ⟨-, -, -, -, h⟩
      exact h
    · exact fun h => ⟨by omega, by omega, by omega, by omega, h⟩
  | case2 first second third =>
    simp only [List.forall_mem_cons] at hvalues
    obtain ⟨hfirst, hsecond, hthird, -⟩ := hvalues
    rw [digits, toNat_toUInt8 (by omega), toNat_toUInt8 (by omega), canonicalDigits]
    simp only [List.cons.injEq, and_true, beq_iff_eq]
    omega
  | case3 first second =>
    simp only [List.forall_mem_cons] at hvalues
    obtain ⟨hfirst, hsecond, -⟩ := hvalues
    rw [digits, toNat_toUInt8 (by omega), canonicalDigits]
    simp only [List.cons.injEq, and_true, beq_iff_eq]
    omega
  | case4 values h4 h3 h2 =>
    match values, h4, h3, h2 with
    | [], _, _, _ => simp [digits, canonicalDigits]
    | [only], _, _, _ => simp [digits, canonicalDigits]
    | [first, second], _, _, h2 => exact absurd rfl (h2 first second)
    | [first, second, third], _, h3, _ => exact absurd rfl (h3 first second third)
    | first :: second :: third :: fourth :: rest, h4, _, _ => exact absurd rfl (h4 first second third fourth rest)

/-- The character of a digit is one of the alphabet, and is that digit. -/
theorem digitUnit_spec {digit : ℕ} (h : digit < 64) :
    digitOf (digitUnit digit) = some digit ∧ IsUrlDigit (digitUnit digit) := by
  have hall : ∀ digit < 64, digitOf (digitUnit digit) = some digit ∧ IsUrlDigit (digitUnit digit) := by decide
  exact hall digit h

/-- A character of the alphabet is a digit's. -/
theorem digitOf_spec {unit : UInt16} (h : IsUrlDigit unit) :
    ∃ digit, digitOf unit = some digit ∧ digit < 64 ∧ digitUnit digit = unit := by
  have hrange (low high offset : ℕ) (hlow : low ≤ unit.toNat) (hhigh : unit.toNat ≤ high) :
      (low + (unit.toNat - low + offset - offset)).toUInt16 = unit := by
    rw [show low + (unit.toNat - low + offset - offset) = unit.toNat by omega]
    simp
  unfold digitOf
  rcases h with ⟨hlow, hhigh⟩ | ⟨hlow, hhigh⟩ | ⟨hlow, hhigh⟩ | rfl | rfl
  · rw [if_pos ⟨hlow, hhigh⟩]
    simp only [UInt16.le_iff_toNat_le, UInt16.toNat_ofNat] at hlow hhigh
    refine ⟨_, rfl, by omega, ?_⟩
    rw [digitUnit, if_pos (by omega)]
    exact hrange 65 90 0 (by omega) (by omega)
  · rw [if_neg (by simp only [UInt16.le_iff_toNat_le, UInt16.toNat_ofNat] at *; omega), if_pos ⟨hlow, hhigh⟩]
    simp only [UInt16.le_iff_toNat_le, UInt16.toNat_ofNat] at hlow hhigh
    refine ⟨_, rfl, by omega, ?_⟩
    rw [digitUnit, if_neg (by omega), if_pos (by omega)]
    exact hrange 97 122 26 (by omega) (by omega)
  · rw [if_neg (by simp only [UInt16.le_iff_toNat_le, UInt16.toNat_ofNat] at *; omega),
      if_neg (by simp only [UInt16.le_iff_toNat_le, UInt16.toNat_ofNat] at *; omega), if_pos ⟨hlow, hhigh⟩]
    simp only [UInt16.le_iff_toNat_le, UInt16.toNat_ofNat] at hlow hhigh
    refine ⟨_, rfl, by omega, ?_⟩
    rw [digitUnit, if_neg (by omega), if_neg (by omega), if_pos (by omega)]
    exact hrange 48 57 52 (by omega) (by omega)
  · exact ⟨62, by decide⟩
  · exact ⟨63, by decide⟩

/-- Digits are read as they were written. -/
theorem filterMap_digitUnit {values : List ℕ} (h : ∀ digit ∈ values, digit < 64) :
    (values.map digitUnit).filterMap digitOf = values := by
  induction values with
  | nil => rfl
  | cons digit rest ih =>
    obtain ⟨hdigit, hrest⟩ := List.forall_mem_cons.mp h
    rw [List.map_cons, List.filterMap_cons_some (digitUnit_spec hdigit).1, ih hrest]

/-- A text of the alphabet is its digits. -/
theorem map_digitOf {text : Units} (h : ∀ unit ∈ text, IsUrlDigit unit) :
    (text.filterMap digitOf).map digitUnit = text ∧ ∀ digit ∈ text.filterMap digitOf, digit < 64 := by
  induction text with
  | nil => exact ⟨rfl, fun _ hdigit => nomatch hdigit⟩
  | cons unit rest ih =>
    obtain ⟨hunit, hrest⟩ := List.forall_mem_cons.mp h
    obtain ⟨digit, hdigit, hlt, hback⟩ := digitOf_spec hunit
    obtain ⟨hmap, hall⟩ := ih hrest
    rw [List.filterMap_cons_some hdigit]
    exact ⟨by rw [List.map_cons, hback, hmap], List.forall_mem_cons.mpr ⟨hlt, hall⟩⟩

end Digits

section Texts

variable {data : List UInt8} {text : Units}

/-- What is written is read back. -/
@[simp] theorem decode_encode (data : List UInt8) : decode (encode data) = data := by
  rw [decode, encode, filterMap_digitUnit (digits_lt data), bytes_digits]

theorem encode_injective : Function.Injective encode := fun first second h => by
  rw [← decode_encode first, h, decode_encode]

theorem encode_urlDigit (data : List UInt8) : ∀ unit ∈ encode data, IsUrlDigit unit := by
  intro unit hunit
  obtain ⟨digit, hdigit, rfl⟩ := List.mem_map.mp hunit
  exact (digitUnit_spec (digits_lt data digit hdigit)).2

/-- What is read is written back as it was exactly when the text is canonical. -/
theorem encode_decode_iff (text : Units) : encode (decode text) = text ↔ Canonical text := by
  constructor
  · intro h
    have hall : ∀ unit ∈ text, IsUrlDigit unit := h ▸ encode_urlDigit (decode text)
    refine ⟨hall, ?_⟩
    rw [← digits_bytes_iff _ (map_digitOf hall).2]
    have hdigits := congrArg (List.filterMap digitOf) h
    rwa [encode, filterMap_digitUnit (digits_lt _)] at hdigits
  · rintro ⟨hall, hcanonical⟩
    rw [encode, decode, (digits_bytes_iff _ (map_digitOf hall).2).mpr hcanonical, (map_digitOf hall).1]

theorem encode_ne_nil (h : data ≠ []) : encode data ≠ [] := by
  intro hnil
  have hback := decode_encode data
  rw [hnil] at hback
  exact h hback.symm

end Texts

end MultiAiRouter.Common.Base64Url
