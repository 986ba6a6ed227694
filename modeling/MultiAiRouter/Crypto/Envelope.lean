import MultiAiRouter.Common.Base64Url

/-!
# The credential envelope

A ciphertext is stored as `v1.<keyId>.<iv>.<authTag>.<ciphertext>`. Of the three binary segments the characters are
checked and the decoded lengths of two, so what is parsed is written back as it was exactly when the segments are
canonical.
-/

namespace MultiAiRouter.Crypto

open Common

def ivBytes : ℕ := 12
def authTagBytes : ℕ := 16
def envelopeSegments : ℕ := 5

/-- The separator of the segments. -/
def dot : UInt16 := 46

def envelopeVersion : Units := asciiUnits "v1"

/-- The parts of an envelope of the one version there is. -/
structure CredentialEnvelope where
  keyId : Units
  iv : List UInt8
  authTag : List UInt8
  ciphertext : List UInt8
  deriving DecidableEq

inductive EnvelopeField
  | version
  | keyId
  | iv
  | authTag
  | ciphertext
  deriving DecidableEq

/-- Why an envelope is rejected. -/
inductive EnvelopeRejection
  | segments (got : ℕ)
  | field (named : EnvelopeField)
  | nonce (got : ℕ)
  | authTag (got : ℕ)
  deriving DecidableEq

/-- What is wrong with a field, under the field's name. -/
def EnvelopeField.issue : EnvelopeField → String
  | .version => "version is not a supported envelope version"
  | .keyId => "keyId is not a valid key id"
  | .iv => "iv is not unpadded base64url"
  | .authTag => "authTag is not unpadded base64url"
  | .ciphertext => "ciphertext is not unpadded base64url"

/-- The words of a rejection: never a part of the envelope. -/
def EnvelopeRejection.message (rejection : EnvelopeRejection) : String :=
  "credential envelope rejected: " ++
    match rejection with
    | .segments got => s!"expected {envelopeSegments} segments, got {got}"
    | .field named => named.issue
    | .nonce got => s!"nonce must be {ivBytes} bytes, got {got}"
    | .authTag got => s!"authentication tag must be {authTagBytes} bytes, got {got}"

/-- The header that the tag covers. -/
def envelopeHeader (keyId : Units) : Units := envelopeVersion ++ dot :: keyId

def formatEnvelope (parts : CredentialEnvelope) : Units :=
  [dot].intercalate
    [envelopeHeader parts.keyId, Base64Url.encode parts.iv, Base64Url.encode parts.authTag,
      Base64Url.encode parts.ciphertext]

/-- A letter or a digit. -/
def IsAlphanumeric (unit : UInt16) : Prop :=
  (65 ≤ unit ∧ unit ≤ 90) ∨ (97 ≤ unit ∧ unit ≤ 122) ∨ (48 ≤ unit ∧ unit ≤ 57)

instance : DecidablePred IsAlphanumeric := fun unit =>
  inferInstanceAs (Decidable ((65 ≤ unit ∧ unit ≤ 90) ∨ (97 ≤ unit ∧ unit ≤ 122) ∨ (48 ≤ unit ∧ unit ≤ 57)))

/-- An operator's label of a key. -/
def isKeyId : Units → Bool
  | [] => false
  | first :: rest =>
    decide (IsAlphanumeric first) && decide (rest.length ≤ 31) && rest.all fun unit =>
      decide (Base64Url.IsUrlDigit unit)

/-- Unpadded base64url, as far as its characters go. -/
def isBase64url (segment : Units) : Bool :=
  !segment.isEmpty && segment.all fun unit => decide (Base64Url.IsUrlDigit unit)

/-- The first field that is not what it has to be. -/
def envelopeIssue (version keyId iv authTag ciphertext : Units) : Option EnvelopeField :=
  if version ≠ envelopeVersion then some .version
  else if !isKeyId keyId then some .keyId
  else if !isBase64url iv then some .iv
  else if !isBase64url authTag then some .authTag
  else if !isBase64url ciphertext then some .ciphertext
  else none

/-- A stored envelope, validated into its parts. -/
def parseEnvelope (value : Units) : Except EnvelopeRejection CredentialEnvelope :=
  match value.splitOn dot with
  | [version, keyId, iv, authTag, ciphertext] =>
    match envelopeIssue version keyId iv authTag ciphertext with
    | some field => .error (.field field)
    | none =>
      let nonce := Base64Url.decode iv
      let tag := Base64Url.decode authTag
      if nonce.length ≠ ivBytes then .error (.nonce nonce.length)
      else if tag.length ≠ authTagBytes then .error (.authTag tag.length)
      else .ok { keyId, iv := nonce, authTag := tag, ciphertext := Base64Url.decode ciphertext }
  | segments => .error (.segments segments.length)

/-- The parts an envelope is made of: a key id that is one, a nonce and a tag of their lengths, and a ciphertext. -/
structure CredentialEnvelope.Valid (parts : CredentialEnvelope) : Prop where
  keyId : isKeyId parts.keyId = true
  iv : parts.iv.length = ivBytes
  authTag : parts.authTag.length = authTagBytes
  ciphertext : parts.ciphertext ≠ []

/-- Each binary segment is what an encoder writes for what it decodes to. -/
def CanonicalEnvelope (value : Units) : Prop := ∀ segment ∈ (value.splitOn dot).drop 2, Base64Url.Canonical segment

section RoundTrip

variable {parts : CredentialEnvelope} {value : Units}

theorem dot_not_mem {text : Units} (h : ∀ unit ∈ text, Base64Url.IsUrlDigit unit) : dot ∉ text :=
  fun hmem => absurd (h dot hmem) (by decide)

/-- A key id is made of digits. -/
theorem keyId_plain {keyId : Units} (h : isKeyId keyId = true) : ∀ unit ∈ keyId, Base64Url.IsUrlDigit unit := by
  cases keyId with
  | nil => exact fun _ hunit => nomatch hunit
  | cons first rest =>
    rw [isKeyId, Bool.and_eq_true, Bool.and_eq_true, decide_eq_true_iff, List.all_eq_true] at h
    refine List.forall_mem_cons.mpr ⟨?_, fun unit hunit => of_decide_eq_true (h.2 unit hunit)⟩
    rcases h.1.1 with hupper | hlower | hdigit
    · exact .inl hupper
    · exact .inr (.inl hlower)
    · exact .inr (.inr (.inl hdigit))

theorem isBase64url_iff {segment : Units} :
    isBase64url segment = true ↔ segment ≠ [] ∧ ∀ unit ∈ segment, Base64Url.IsUrlDigit unit := by
  rw [isBase64url, Bool.and_eq_true, List.all_eq_true]
  simp

theorem isBase64url_encode {data : List UInt8} (h : data ≠ []) : isBase64url (Base64Url.encode data) = true :=
  isBase64url_iff.mpr ⟨Base64Url.encode_ne_nil h, Base64Url.encode_urlDigit data⟩

/-- What is formatted is its five segments. -/
theorem formatEnvelope_eq (parts : CredentialEnvelope) : formatEnvelope parts = [dot].intercalate
        [envelopeVersion, parts.keyId, Base64Url.encode parts.iv, Base64Url.encode parts.authTag,
          Base64Url.encode parts.ciphertext] := by
  simp [formatEnvelope, envelopeHeader, List.intercalate, List.intersperse]

/-- What is formatted splits into its segments. -/
theorem formatEnvelope_segments (h : isKeyId parts.keyId = true) : (formatEnvelope parts).splitOn dot =
      [envelopeVersion, parts.keyId, Base64Url.encode parts.iv, Base64Url.encode parts.authTag,
        Base64Url.encode parts.ciphertext] := by
  rw [formatEnvelope_eq, List.splitOn_intercalate]
  · intro segment hsegment
    simp only [List.mem_cons, List.not_mem_nil, or_false] at hsegment
    rcases hsegment with rfl | rfl | rfl | rfl | rfl
    · decide
    · exact dot_not_mem (keyId_plain h)
    all_goals exact dot_not_mem (Base64Url.encode_urlDigit _)
  · simp

/-- No issue means that every segment is as it has to be. -/
theorem envelopeIssue_none {version keyId iv authTag ciphertext : Units} :
    envelopeIssue version keyId iv authTag ciphertext = none ↔
      version = envelopeVersion ∧ isKeyId keyId = true ∧ isBase64url iv = true ∧ isBase64url authTag = true ∧
        isBase64url ciphertext = true := by
  unfold envelopeIssue
  split_ifs <;> simp_all

theorem ne_nil_of_length {data : List UInt8} {length : ℕ} (h : data.length = length + 1) : data ≠ [] := by
  rintro rfl
  cases h

/-- What is formatted of valid parts is parsed as the parts. -/
theorem parseEnvelope_format (h : parts.Valid) : parseEnvelope (formatEnvelope parts) = .ok parts := by
  have hissue : envelopeIssue envelopeVersion parts.keyId (Base64Url.encode parts.iv) (Base64Url.encode parts.authTag)
      (Base64Url.encode parts.ciphertext) = none :=
    envelopeIssue_none.mpr ⟨rfl, h.keyId, isBase64url_encode (ne_nil_of_length h.iv),
      isBase64url_encode (ne_nil_of_length h.authTag), isBase64url_encode h.ciphertext⟩
  rw [parseEnvelope, formatEnvelope_segments h.keyId]
  dsimp only
  rw [hissue]
  dsimp only
  rw [Base64Url.decode_encode, Base64Url.decode_encode, Base64Url.decode_encode, if_neg (by simp [h.iv]),
    if_neg (by simp [h.authTag])]

/-- What is parsed is its five segments: a header that is one, and three texts of the alphabet, decoded. -/
theorem parseEnvelope_ok (h : parseEnvelope value = .ok parts) :
    isKeyId parts.keyId = true ∧ ∃ iv authTag ciphertext,
      value.splitOn dot = [envelopeVersion, parts.keyId, iv, authTag, ciphertext] ∧
      parts.iv = Base64Url.decode iv ∧ parts.authTag = Base64Url.decode authTag ∧
      parts.ciphertext = Base64Url.decode ciphertext := by
  unfold parseEnvelope at h
  split at h
  · next version keyId iv authTag ciphertext hsegments =>
    split at h
    · cases h
    · next hissue =>
      obtain ⟨rfl, hkey, -⟩ := envelopeIssue_none.mp hissue
      dsimp only at h
      split_ifs at h
      obtain rfl := Except.ok.inj h
      exact ⟨hkey, iv, authTag, ciphertext, hsegments, rfl, rfl, rfl⟩
  · cases h

/-- What is parsed is formatted as it was exactly when its binary segments are canonical. -/
theorem formatEnvelope_parse_iff (h : parseEnvelope value = .ok parts) :
    formatEnvelope parts = value ↔ CanonicalEnvelope value := by
  obtain ⟨hkey, iv, authTag, ciphertext, hsegments, hiv, htag, hciphertext⟩ := parseEnvelope_ok h
  have hcanonical : CanonicalEnvelope value ↔
      Base64Url.encode parts.iv = iv ∧ Base64Url.encode parts.authTag = authTag ∧
        Base64Url.encode parts.ciphertext = ciphertext := by
    rw [CanonicalEnvelope, hsegments, hiv, htag, hciphertext, Base64Url.encode_decode_iff, Base64Url.encode_decode_iff,
      Base64Url.encode_decode_iff]
    simp
  rw [hcanonical]
  constructor
  · intro hformat
    have hsame := (formatEnvelope_segments hkey).symm.trans ((congrArg (List.splitOn dot) hformat).trans hsegments)
    simpa using hsame
  · rintro ⟨hiv', htag', hciphertext'⟩
    rw [formatEnvelope_eq, hiv', htag', hciphertext', ← hsegments, List.intercalate_splitOn]

/-- Parts are parsed from what is formatted of them. A stored string is what is formatted of its parts exactly when
its binary segments are canonical, and of two such strings only equal ones have the same parts. -/
theorem envelope_bijective_iff (parts : CredentialEnvelope) (first : Units) :
    (parts.Valid → parseEnvelope (formatEnvelope parts) = .ok parts) ∧
    (parseEnvelope first = .ok parts → (formatEnvelope parts = first ↔ CanonicalEnvelope first)) ∧
    ∀ second, parseEnvelope first = .ok parts → parseEnvelope second = .ok parts →
      CanonicalEnvelope first → CanonicalEnvelope second → first = second := by
  refine ⟨parseEnvelope_format, formatEnvelope_parse_iff, ?_⟩
  intro second hfirst hsecond hcanonical hcanonical'
  rw [← (formatEnvelope_parse_iff hfirst).mpr hcanonical, ← (formatEnvelope_parse_iff hsecond).mpr hcanonical']

/-- A ciphertext of one zero byte. -/
def zeroByte : CredentialEnvelope :=
  { keyId := asciiUnits "k1", iv := List.replicate 12 1, authTag := List.replicate 16 2, ciphertext := [0] }

/-- Its envelope with unused bits of the last segment set: `AB` where an encoder writes `AA`. -/
def looseEnvelope : Units := asciiUnits "v1.k1.AQEBAQEBAQEBAQEB.AgICAgICAgICAgICAgICAg.AB"

/-- Two stored strings are parsed as the same record, and one of them is not what is formatted of it. -/
theorem looseEnvelope_parsed :
    parseEnvelope looseEnvelope = .ok zeroByte ∧ formatEnvelope zeroByte ≠ looseEnvelope ∧
      parseEnvelope (formatEnvelope zeroByte) = .ok zeroByte := by
  refine ⟨by decide, by decide, by decide⟩

/-- A stored string that is accepted has a key id, a nonce and a tag as they have to be, and what is formatted of its
parts is accepted with the same parts exactly when its ciphertext decodes to a byte at least. -/
theorem reformatted_iff (h : parseEnvelope value = .ok parts) :
    isKeyId parts.keyId = true ∧ parts.iv.length = ivBytes ∧ parts.authTag.length = authTagBytes ∧
      (parseEnvelope (formatEnvelope parts) = .ok parts ↔ parts.ciphertext ≠ []) := by
  obtain ⟨hkey, -⟩ := parseEnvelope_ok h
  have hlengths : parts.iv.length = ivBytes ∧ parts.authTag.length = authTagBytes := by
    unfold parseEnvelope at h
    split at h
    · split at h
      · cases h
      · dsimp only at h
        split_ifs at h with hiv htag
        rw [← Except.ok.inj h]
        exact ⟨not_not.mp hiv, not_not.mp htag⟩
    · cases h
  refine ⟨hkey, hlengths.1, hlengths.2, fun hagain hnone => ?_, fun hsome => ?_⟩
  · -- An empty segment is no base64url.
    unfold parseEnvelope at hagain
    rw [formatEnvelope_segments hkey] at hagain
    dsimp only at hagain
    split at hagain
    · cases hagain
    · next hissue =>
      have hsegment := (envelopeIssue_none.mp hissue).2.2.2.2
      rw [hnone] at hsegment
      exact absurd hsegment (by decide)
  · exact parseEnvelope_format ⟨hkey, hlengths.1, hlengths.2, hsome⟩

/-- One digit of a ciphertext is accepted and is no byte, so its parts are not accepted again. -/
theorem reformatted_iff_empty :
    parseEnvelope (formatEnvelope { zeroByte with ciphertext := [] }) ≠ .ok { zeroByte with ciphertext := [] } :=
  fun hagain => (@reformatted_iff _ (asciiUnits "v1.k1.AQEBAQEBAQEBAQEB.AgICAgICAgICAgICAgICAg.A")
    (by decide)).2.2.2.mp hagain rfl

end RoundTrip

end MultiAiRouter.Crypto
