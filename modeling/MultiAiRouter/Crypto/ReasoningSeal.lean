import MultiAiRouter.Crypto.Envelope

/-!
# The seal of an upstream's reasoning

A blob is carried by the client as `mrs1.<blob>.<mac>`, both in base64url, and is opened only for the account that
sealed it. The MAC covers the text the blob's bytes decode to, so a blob with a replacement character is opened from
other bytes as well.
-/

namespace MultiAiRouter.Crypto

open Common

def sealVersion : Units := asciiUnits "mrs1"

def macBytes : ℕ := 32

/-- HMAC-SHA256 under the sealer's key. -/
structure Hmac where
  digest : List UInt8 → List UInt8
  digest_length : ∀ message, (digest message).length = macBytes

/-- No other message has the digest of this one. -/
def Hmac.InjectiveAt (hmac : Hmac) (message : List UInt8) : Prop :=
  ∀ other, hmac.digest other = hmac.digest message → other = message

/-- The id of an account: a text without NUL. -/
structure AccountId where
  units : Units
  wellFormed : isWellFormed units = true
  noNul : 0 ∉ units

/-- What the MAC covers. -/
def macText (account : AccountId) (blob : Units) : Units := sealVersion ++ 0 :: (account.units ++ 0 :: blob)

variable (hmac : Hmac) (account : AccountId)

def mac (blob : Units) : List UInt8 := hmac.digest (utf8Encode (macText account blob))

/-- The form of a blob a client can carry, bound to the account. -/
def sealReasoning (encrypted : Units) : Units :=
  [dot].intercalate
    [sealVersion, Base64Url.encode (utf8Encode encrypted), Base64Url.encode (mac hmac account encrypted)]

/-- The blob of a seal, or nothing when the value is malformed or its MAC is another. -/
def openReasoning (signature : Units) : Option Units :=
  match signature.splitOn dot with
  | [version, payload, tag] =>
    if version ≠ sealVersion ∨ payload = [] then none
    else
      let given := Base64Url.decode tag
      -- re-encoding catches a non-canonical encoding: two spellings of one tag are one tag
      if given.length ≠ macBytes ∨ Base64Url.encode given ≠ tag then none
      else
        let blob := Base64Url.decode payload
        if Base64Url.encode blob ≠ payload then none
        else
          let encrypted := utf8Lossy blob
          if given = mac hmac account encrypted then some encrypted else none
  | _ => none

section Exactness

variable {hmac account} {blob signature : Units} {data : List UInt8}

/-- A seal splits into its three parts. -/
theorem splitOn_seal (data tag : List UInt8) :
    ([dot].intercalate [sealVersion, Base64Url.encode data, Base64Url.encode tag]).splitOn dot =
      [sealVersion, Base64Url.encode data, Base64Url.encode tag] := by
  rw [List.splitOn_intercalate]
  · intro segment hsegment
    simp only [List.mem_cons, List.not_mem_nil, or_false] at hsegment
    rcases hsegment with rfl | rfl | rfl
    · decide
    all_goals exact dot_not_mem (Base64Url.encode_urlDigit _)
  · simp

/-- What a value opens to is what its bytes decode to, under the MAC of that. -/
theorem openReasoning_iff : openReasoning hmac account signature = some blob ↔
      ∃ data, data ≠ [] ∧ utf8Lossy data = blob ∧ signature = [dot].intercalate
          [sealVersion, Base64Url.encode data, Base64Url.encode (mac hmac account blob)] := by
  constructor
  · intro h
    unfold openReasoning at h
    split at h
    · next version payload tag hsegments =>
      dsimp only at h
      split_ifs at h with hshape htag hpayload hmac
      obtain rfl := Option.some.inj h
      push Not at hshape htag hpayload
      refine ⟨Base64Url.decode payload, fun hnil => hshape.2 ?_, rfl, ?_⟩
      · rw [← hpayload, hnil]
        rfl
      · rw [← hmac, htag.2, hpayload, ← hshape.1, ← hsegments, List.intercalate_splitOn]
    · cases h
  · rintro ⟨data, hdata, rfl, rfl⟩
    unfold openReasoning
    rw [splitOn_seal]
    dsimp only
    rw [if_neg (by simp [Base64Url.encode_ne_nil hdata]), Base64Url.decode_encode, Base64Url.decode_encode,
      if_neg (by simp [mac, hmac.digest_length]), if_neg (by simp), if_pos rfl]

theorem utf8Encode_ne_nil (hblob : blob ≠ []) (hformed : isWellFormed blob = true) : utf8Encode blob ≠ [] := by
  intro hnil
  have htext := utf8Text_encode blob hformed
  rw [hnil] at htext
  exact hblob (Option.some.inj htext).symm

/-- A seal opens to what was sealed. -/
theorem openReasoning_seal (hblob : blob ≠ []) (hformed : isWellFormed blob = true) :
    openReasoning hmac account (sealReasoning hmac account blob) = some blob :=
  openReasoning_iff.mpr
    ⟨utf8Encode blob, utf8Encode_ne_nil hblob hformed, utf8Lossy_of_text (utf8Text_encode blob hformed), rfl⟩

/-- A blob without a replacement character is opened from its seal alone. -/
theorem openReasoning_exact (hplain : replacement ∉ blob) (h : openReasoning hmac account signature = some blob) :
    signature = sealReasoning hmac account blob := by
  obtain ⟨data, -, hlossy, rfl⟩ := openReasoning_iff.mp h
  subst hlossy
  rw [sealReasoning, utf8Encode_of_text (utf8Text_of_lossy hplain)]

/-- A blob with a replacement character is opened from a value that is not its seal. -/
theorem openReasoning_altered (hformed : isWellFormed blob = true) (hmem : replacement ∈ blob) :
    ∃ signature, signature ≠ sealReasoning hmac account blob ∧ openReasoning hmac account signature = some blob := by
  obtain ⟨first, second, rfl⟩ := List.append_of_mem hmem
  obtain ⟨hfirst, hsecond⟩ := isWellFormed_around (by decide) hformed
  obtain ⟨hlossy, hnone⟩ := utf8Lossy_malformed hfirst hsecond
  refine ⟨_, ?_, openReasoning_iff.mpr ⟨utf8Encode first ++ 0xFF :: utf8Encode second, by simp, hlossy, rfl⟩⟩
  intro hsame
  have hsegments := (splitOn_seal _ _).symm.trans ((congrArg (List.splitOn dot) hsame).trans (splitOn_seal _ _))
  have hdata := Base64Url.encode_injective (List.cons.inj (List.cons.inj hsegments).2).1
  rw [hdata, utf8Text_encode _ hformed] at hnone
  cases hnone

/-- The text under the MAC is well formed. -/
theorem macText_wellFormed (account : AccountId) (hformed : isWellFormed blob = true) :
    isWellFormed (macText account blob) = true := by
  have hnul (rest : Units) (h : isWellFormed rest = true) : isWellFormed (0 :: rest) = true :=
    (isWellFormed_cons (by decide) rest).trans h
  exact isWellFormed_append (by decide) (hnul _ (isWellFormed_append account.wellFormed (hnul _ hformed)))

/-- The message of a MAC names its account. -/
theorem macText_account {other : AccountId} {first second : Units} (h : macText account first = macText other second) :
    account.units = other.units := by
  have hrest : account.units ++ 0 :: first = other.units ++ 0 :: second := by
    have hnul := List.append_cancel_left h
    exact (List.cons.inj hnul).2
  have hsplit := congrArg (List.splitOn 0) hrest
  rw [List.splitOn_append_cons_self, List.splitOn_append_cons_self, List.splitOn_eq_singleton account.noNul,
    List.splitOn_eq_singleton other.noNul] at hsplit
  exact (List.cons.inj hsplit).1

/-- No other account opens a seal. -/
theorem openReasoning_other {other : AccountId} (hother : other.units ≠ account.units)
    (hformed : isWellFormed blob = true) (hinjective : hmac.InjectiveAt (utf8Encode (macText account blob))) :
    openReasoning hmac other (sealReasoning hmac account blob) = none := by
  rw [Option.eq_none_iff_forall_ne_some]
  intro opened hopened
  obtain ⟨data, -, rfl, hsame⟩ := openReasoning_iff.mp hopened
  have hsegments := (splitOn_seal _ _).symm.trans ((congrArg (List.splitOn dot) hsame).trans (splitOn_seal _ _))
  obtain ⟨hdata, htag⟩ := List.cons.inj (List.cons.inj hsegments).2
  have hbytes := Base64Url.encode_injective hdata
  have hmacs := Base64Url.encode_injective (List.cons.inj htag).1
  subst hbytes
  rw [utf8Lossy_of_text (utf8Text_encode blob hformed)] at hmacs
  have hmessage := hinjective _ hmacs.symm
  have htexts : macText other blob = macText account blob := by
    have hleft := utf8Text_encode _ (macText_wellFormed other hformed)
    rw [hmessage, utf8Text_encode _ (macText_wellFormed account hformed)] at hleft
    exact (Option.some.inj hleft).symm
  exact hother (macText_account htexts)

end Exactness

/-- A blob is opened from its seal and from nothing else exactly when it has no replacement character; and where no
other message has the MAC of the sealed one, no other account opens the seal. -/
theorem reasoning_seal_iff (encrypted : Units) (hblob : encrypted ≠ []) (hformed : isWellFormed encrypted = true) :
    ((∀ signature, openReasoning hmac account signature = some encrypted ↔
        signature = sealReasoning hmac account encrypted) ↔ replacement ∉ encrypted) ∧
    ∀ other : AccountId, other.units ≠ account.units → hmac.InjectiveAt (utf8Encode (macText account encrypted)) →
        openReasoning hmac other (sealReasoning hmac account encrypted) = none := by
  refine ⟨⟨fun h hmem => ?_, fun hplain signature => ⟨openReasoning_exact hplain, ?_⟩⟩,
    fun other hother => openReasoning_other hother hformed⟩
  · obtain ⟨signature, hne, hopen⟩ := @openReasoning_altered hmac account encrypted hformed hmem
    exact hne ((h signature).mp hopen)
  · rintro rfl
    exact openReasoning_seal hblob hformed

/-- A MAC that tells one message from all others. -/
def markMac (message : List UInt8) : Hmac where
  digest other := List.replicate macBytes (if other = message then 1 else 0)
  digest_length _ := List.length_replicate

theorem markMac_injectiveAt (message : List UInt8) : (markMac message).InjectiveAt message := by
  intro other h
  by_contra hne
  simp only [markMac, if_neg hne, if_true] at h
  exact absurd h (by decide)

def firstAccount : AccountId := ⟨asciiUnits "a", by decide, by decide⟩
def otherAccount : AccountId := ⟨asciiUnits "b", by decide, by decide⟩

/-- The MAC in use, as far as the message of this blob goes. -/
def blobMac (blob : Units) : Hmac := markMac (utf8Encode (macText firstAccount blob))

/-- A plain blob opened from its seal alone. -/
theorem reasoning_seal_iff_blob :
    (∀ signature, openReasoning (blobMac (asciiUnits "gAAA")) firstAccount signature = some (asciiUnits "gAAA") ↔
      signature = sealReasoning (blobMac (asciiUnits "gAAA")) firstAccount (asciiUnits "gAAA")) ∧
    openReasoning (blobMac (asciiUnits "gAAA")) otherAccount
      (sealReasoning (blobMac (asciiUnits "gAAA")) firstAccount (asciiUnits "gAAA")) = none := by
  have h := reasoning_seal_iff (blobMac (asciiUnits "gAAA")) firstAccount (asciiUnits "gAAA") (by decide) (by decide)
  exact ⟨h.1.mpr (by decide), h.2 otherAccount (by decide) (markMac_injectiveAt _)⟩

/-- The seal of one replacement character, its payload `77-9` changed to `_w`: the single byte FF. -/
def alteredSeal : Units :=
  [dot].intercalate
    [sealVersion, asciiUnits "_w", Base64Url.encode (mac (blobMac [replacement]) firstAccount [replacement])]

/-- An altered seal is opened. -/
theorem alteredSeal_opened : (blobMac [replacement]).InjectiveAt (utf8Encode (macText firstAccount [replacement])) ∧
      alteredSeal ≠ sealReasoning (blobMac [replacement]) firstAccount [replacement] ∧
      openReasoning (blobMac [replacement]) firstAccount alteredSeal = some [replacement] := by
  refine ⟨markMac_injectiveAt _, by decide, by decide⟩

end MultiAiRouter.Crypto
