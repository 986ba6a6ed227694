import Mathlib.Data.List.Induction
import MultiAiRouter.Accounts.Lifecycle

/-!
# Stale observations are fenced off

Every transaction that states an intent or proves a credential raises the lifecycle version, but for the save of a
refreshed credential, which replaces the ciphertext by a new one. So an observation from before it no longer matches
the row.
-/

namespace MultiAiRouter.Accounts.Lifecycle

open Common Routing Recovery

/-- The facts that every observation states. -/
structure AccountFacts where
  lifecycleVersion : ℕ
  authMaterial : Option String
  status : AccountStatus
  deriving DecidableEq

/-- What an observed write expects of the account; no other transaction is one. -/
def LifecycleCall.expected : LifecycleCall → Option AccountFacts
  | .transitionObservedStatus input =>
    some
      { lifecycleVersion := input.expected.lifecycleVersion
        authMaterial := input.expected.authMaterial
        status := input.expected.status }
  | .upsertObservedQuotaWindow input =>
    some
      { lifecycleVersion := input.expected.lifecycleVersion
        authMaterial := input.expected.authMaterial
        status := input.expected.status }
  | _ => none

/-- The transaction changes the account for another reason than what was observed of it. -/
def LifecycleCall.mutates : LifecycleCall → Bool
  | .updateOperatorAccount input => input.patch.intent
  | .recheckAccount _ | .confirmAccountAuthorization _ | .recoverObservedAuthentication _
  | .reviveRefreshedCredential _ | .saveRefreshedCredential _ => true
  | .transitionObservedStatus _ | .upsertObservedQuotaWindow _ | .elsewhere .. => false

/-- The ciphertext a transaction brings. -/
def LifecycleCall.ciphertext : LifecycleCall → Option String
  | .updateOperatorAccount input => input.patch.authMaterial.bind id
  | .reviveRefreshedCredential input | .saveRefreshedCredential input => some input.authMaterial
  | _ => none

/-- The facts were read off the account's row. -/
def ReadFrom (db : AccountDb) (facts : AccountFacts) : Prop :=
  ∃ row, db.account = some row ∧ facts.lifecycleVersion = row.lifecycleVersion ∧
    facts.authMaterial = row.authMaterial ∧ facts.status = row.status

/-- The ciphertext that is there at first and those the transactions bring. -/
def ciphertexts (db : AccountDb) (calls : List LifecycleCall) : List String :=
  (db.account.bind AccountRow.authMaterial).toList ++ calls.filterMap LifecycleCall.ciphertext

section Steps

variable {fingerprint : Option String → String} {cooldownMs : Int} {db : AccountDb}

/-- What a transaction can do to the row: the version stays or is raised, and the credential stays, is the one it
brings, or is taken away under a raised version. -/
structure Moved (call : LifecycleCall) (before after : AccountRow) : Prop where
  version : after.lifecycleVersion = before.lifecycleVersion ∨ after.lifecycleVersion = before.lifecycleVersion + 1
  credential : after.authMaterial = before.authMaterial ∨ (∃ text, call.ciphertext = some text ∧
      after.authMaterial = some text) ∨
    after.authMaterial = none ∧ after.lifecycleVersion = before.lifecycleVersion + 1
  mutated : call.mutates = true → after.lifecycleVersion = before.lifecycleVersion + 1 ∨
    ∃ text, call.ciphertext = some text ∧ after.authMaterial = some text ∧ before.authMaterial ≠ none

/-- A statement that finds no row or fails leaves the database as it was; else it commits its change. -/
theorem updateWhere_cases (guard : AccountRow → Bool) (change : AccountRow → Except String AccountRow)
    (commit : AccountRow → AccountDb) :
    ((db.updateWhere guard change commit).2 = db ∧ ∀ row, (db.updateWhere guard change commit).1 ≠ .ok (some row)) ∨
      ∃ before after, db.account = some before ∧ guard before = true ∧ change before = .ok after ∧
        db.updateWhere guard change commit = (.ok (some after), commit after) := by
  unfold AccountDb.updateWhere
  cases hfound : db.account.filter guard with
  | none => exact .inl ⟨rfl, fun row hrow => by simp at hrow⟩
  | some before =>
    obtain ⟨haccount, hguard⟩ := Option.filter_eq_some_iff.mp hfound
    dsimp only
    cases hchange : change before with
    | error message => exact .inl ⟨rfl, fun row hrow => by simp at hrow⟩
    | ok after => exact .inr ⟨before, after, haccount, hguard, hchange, rfl⟩

theorem raise_eq_ok {version next : ℕ} (h : raise version = .ok next) : next = version + 1 := by
  unfold raise at h
  split at h
  · exact (Except.ok.inj h).symm
  · cases h

/-- What succeeds in two steps succeeds in each. -/
theorem exists_of_bind_eq_ok {A B : Type} {first : Except String A} {rest : A → Except String B} {result : B}
    (h : (first >>= rest) = .ok result) : ∃ value, first = .ok value ∧ rest value = .ok result := by
  cases first with
  | error message => cases h
  | ok value => exact ⟨value, rfl, h⟩

/-- What a transaction did to the account: nothing, or what `Moved` allows. -/
def Moves (db : AccountDb) (call : LifecycleCall) (out : LifecycleAnswer × AccountDb) : Prop :=
  (out.2.account = db.account ∧ ∀ row, out.1 ≠ .ok (some row)) ∨
    ∃ before after, db.account = some before ∧ out.2.account = some after ∧ Moved call before after

/-- A statement moves the account as its change does. -/
theorem moves_updateWhere {call : LifecycleCall} {guard : AccountRow → Bool}
    {change : AccountRow → Except String AccountRow} {commit : AccountRow → AccountDb}
    (hcommit : ∀ after, (commit after).account = some after)
    (hmoved : ∀ before after, guard before = true → change before = .ok after → Moved call before after) :
    Moves db call (db.updateWhere guard change commit) := by
  rcases updateWhere_cases guard change commit with ⟨hsame, hnone⟩ | ⟨before, after, haccount, hguard, hchange, heq⟩
  · exact .inl ⟨congrArg _ hsame, hnone⟩
  · exact .inr ⟨before, after, haccount, by rw [heq]; exact hcommit after, hmoved before after hguard hchange⟩

/-- The version is raised and the credential stays. -/
theorem moved_raised {call : LifecycleCall} {before after : AccountRow}
    (hversion : after.lifecycleVersion = before.lifecycleVersion + 1)
    (hcredential : after.authMaterial = before.authMaterial) : Moved call before after :=
  ⟨.inr hversion, .inl hcredential, fun _ => .inl hversion⟩

/-- An authorization moves the row. -/
theorem moves_completeAuthorization (call : LifecycleCall) (input : CompleteAuthorizationInput) :
    Moves db call (completeAuthorization fingerprint cooldownMs db input) := by
  refine moves_updateWhere (fun _ => rfl) fun before after _ hchange => ?_
  obtain ⟨version, hversion, hchange⟩ := exists_of_bind_eq_ok hchange
  obtain ⟨authVersion, -, hchange⟩ := exists_of_bind_eq_ok hchange
  obtain rfl := Except.ok.inj hchange
  exact moved_raised (raise_eq_ok hversion) rfl

/-- An operator moves the row. -/
theorem moves_updateOperatorAccount (input : OperatorInput) :
    Moves db (.updateOperatorAccount input) (updateOperatorAccount fingerprint cooldownMs db input) := by
  refine moves_updateWhere (fun after => ?_) fun before after _ hchange => ?_
  · split <;> rfl
  · obtain ⟨authVersion, -, hchange⟩ := exists_of_bind_eq_ok hchange
    obtain ⟨version, hversion, hchange⟩ := exists_of_bind_eq_ok hchange
    obtain ⟨healthVersion, -, hchange⟩ := exists_of_bind_eq_ok hchange
    obtain rfl := Except.ok.inj hchange
    cases hintent : input.patch.intent with
    | true =>
      rw [hintent, raiseIf, if_pos rfl] at hversion
      have hraised := raise_eq_ok hversion
      refine ⟨.inr hraised, ?_, fun _ => .inl hraised⟩
      cases hpatch : input.patch.authMaterial with
      | none => exact .inl rfl
      | some credential =>
        cases credential with
        | none => exact .inr (.inr ⟨rfl, hraised⟩)
        | some text => exact .inr (.inl ⟨text, by simp [LifecycleCall.ciphertext, hpatch], rfl⟩)
    | false =>
      rw [hintent, raiseIf, if_neg (by simp)] at hversion
      have hcredential : input.patch.authMaterial = none := by
        simpa [AccountPatch.credential] using (Bool.or_eq_false_iff.mp hintent).1
      refine ⟨.inl (Except.ok.inj hversion).symm, .inl (by simp [hcredential]), fun hmutates => ?_⟩
      simp [LifecycleCall.mutates, hintent] at hmutates

/-- Every transaction moves the account as it may. -/
theorem moves_answer (call : LifecycleCall) : Moves db call (db.answer fingerprint cooldownMs call) := by
  cases call with
  | saveRefreshedCredential input =>
    refine moves_updateWhere (fun _ => rfl) fun before after hguard hchange => ?_
    obtain rfl := Except.ok.inj hchange
    refine ⟨.inl rfl, .inr (.inl ⟨_, rfl, rfl⟩), fun _ => .inr ⟨_, rfl, rfl, ?_⟩⟩
    rw [eq_of_beq hguard]
    exact Option.some_ne_none _
  | reviveRefreshedCredential input =>
    refine moves_updateWhere (fun _ => rfl) fun before after _ hchange => ?_
    obtain ⟨version, hversion, hchange⟩ := exists_of_bind_eq_ok hchange
    obtain ⟨authVersion, -, hchange⟩ := exists_of_bind_eq_ok hchange
    obtain rfl := Except.ok.inj hchange
    exact ⟨.inr (raise_eq_ok hversion), .inr (.inl ⟨_, rfl, rfl⟩), fun _ => .inl (raise_eq_ok hversion)⟩
  | transitionObservedStatus input =>
    simp only [AccountDb.answer, transitionObservedStatus]
    split
    · exact .inl ⟨rfl, fun row hrow => by simp at hrow⟩
    · split
      · exact .inl ⟨rfl, fun row hrow => by simp at hrow⟩
      · refine moves_updateWhere (fun _ => rfl) fun before after _ hchange => ?_
        obtain rfl := Except.ok.inj hchange
        exact ⟨.inl rfl, .inl rfl, fun hmutates => by simp [LifecycleCall.mutates] at hmutates⟩
  | updateOperatorAccount input => exact moves_updateOperatorAccount input
  | recheckAccount now =>
    refine moves_updateWhere (fun _ => rfl) fun before after _ hchange => ?_
    obtain ⟨version, hversion, hchange⟩ := exists_of_bind_eq_ok hchange
    obtain ⟨healthVersion, -, hchange⟩ := exists_of_bind_eq_ok hchange
    obtain rfl := Except.ok.inj hchange
    exact moved_raised (raise_eq_ok hversion) rfl
  | recoverObservedAuthentication input =>
    simp only [AccountDb.answer, recoverObservedAuthentication]
    split
    · exact .inl ⟨rfl, fun row hrow => by simp at hrow⟩
    · exact moves_completeAuthorization ..
  | confirmAccountAuthorization input => exact moves_completeAuthorization ..
  | upsertObservedQuotaWindow input =>
    refine .inl ⟨?_, fun row hrow => by simp [AccountDb.answer] at hrow⟩
    simp only [AccountDb.answer, upsertObservedQuotaWindow]
    split <;> rfl
  | elsewhere quotas recovery operatorCheck => exact .inl ⟨rfl, fun row hrow => by simp [AccountDb.answer] at hrow⟩

end Steps

section Runs

variable {fingerprint : Option String → String} {cooldownMs : Int} {db start : AccountDb} {facts : AccountFacts}

/-- The version has not come down since the facts were read. -/
def Since (facts : AccountFacts) (db : AccountDb) : Prop :=
  ∀ row, db.account = some row → facts.lifecycleVersion ≤ row.lifecycleVersion

/-- The row has left the facts behind: its version is higher, or its credential is another. -/
def LeftBehind (facts : AccountFacts) (db : AccountDb) : Prop :=
  ∀ row, db.account = some row → facts.lifecycleVersion ≤ row.lifecycleVersion ∧
      (facts.lifecycleVersion < row.lifecycleVersion ∨ row.authMaterial ≠ facts.authMaterial)

/-- The transaction does not bring the credential of the facts. -/
def BringsOther (facts : AccountFacts) (call : LifecycleCall) : Prop :=
  ∀ text, call.ciphertext = some text → facts.authMaterial ≠ some text

/-- Every step keeps what has happened since. -/
theorem Since.step (h : Since facts db) (call : LifecycleCall) :
    Since facts (db.step fingerprint cooldownMs call) := by
  intro row hrow
  rcases @moves_answer fingerprint cooldownMs db call with ⟨hsame, -⟩ | ⟨before, after, hbefore, hafter, hmoved⟩
  · exact h row (hsame ▸ hrow)
  · obtain rfl := Option.some.inj (hafter.symm.trans hrow)
    have hheld := h before hbefore
    rcases hmoved.version with hversion | hversion <;> omega

/-- A row that was left behind stays behind. -/
theorem LeftBehind.step (h : LeftBehind facts db) {call : LifecycleCall} (hother : BringsOther facts call) :
    LeftBehind facts (db.step fingerprint cooldownMs call) := by
  intro row hrow
  rcases @moves_answer fingerprint cooldownMs db call with ⟨hsame, -⟩ | ⟨before, after, hbefore, hafter, hmoved⟩
  · exact h row (hsame ▸ hrow)
  · obtain rfl := Option.some.inj (hafter.symm.trans hrow)
    obtain ⟨hle, hleft⟩ := h before hbefore
    refine ⟨by rcases hmoved.version with hversion | hversion <;> omega, ?_⟩
    rcases hleft with hbelow | hcredential
    · exact .inl (by rcases hmoved.version with hversion | hversion <;> omega)
    · rcases hmoved.credential with hkept | ⟨text, htext, hbrought⟩ | ⟨-, hraised⟩
      · exact .inr (hkept ▸ hcredential)
      · exact .inr (hbrought ▸ (hother text htext).symm)
      · exact .inl (by omega)

/-- A transaction that states an intent or proves a credential leaves the facts behind. -/
theorem Since.leftBehind (h : Since facts db) {call : LifecycleCall} (hmutates : call.mutates = true)
    (hcommitted : Committed fingerprint cooldownMs db call) (hother : BringsOther facts call) :
    LeftBehind facts (db.step fingerprint cooldownMs call) := by
  intro row hrow
  obtain ⟨answered, hanswered⟩ := hcommitted
  rcases @moves_answer fingerprint cooldownMs db call with ⟨-, hnone⟩ | ⟨before, after, hbefore, hafter, hmoved⟩
  · exact absurd hanswered (hnone answered)
  · obtain rfl := Option.some.inj (hafter.symm.trans hrow)
    have hheld := h before hbefore
    refine ⟨by rcases hmoved.version with hversion | hversion <;> omega, ?_⟩
    rcases hmoved.mutated hmutates with hraised | ⟨text, htext, hbrought, -⟩
    · exact .inl (by omega)
    · exact .inr (hbrought ▸ (hother text htext).symm)

/-- An observed write on a row that left its facts behind changes nothing. -/
theorem LeftBehind.write (h : LeftBehind facts db) {call : LifecycleCall} (hexpected : call.expected = some facts) :
    db.step fingerprint cooldownMs call = db := by
  have hnever : ∀ row, db.account = some row →
      ¬ (row.lifecycleVersion = facts.lifecycleVersion ∧ row.authMaterial = facts.authMaterial) := by
    rintro row hrow ⟨hversion, hcredential⟩
    obtain ⟨-, hbelow | hother⟩ := h row hrow
    · omega
    · exact hother hcredential
  cases call with
  | transitionObservedStatus input =>
    obtain rfl := Option.some.inj hexpected
    simp only [AccountDb.step, AccountDb.answer, transitionObservedStatus]
    split
    · rfl
    · split
      · rfl
      · rcases @updateWhere_cases db (observedAccount db input.clock input.expected) _ _ with
          ⟨hsame, -⟩ | ⟨before, after, hbefore, hguard, -⟩
        · exact hsame
        · refine absurd ⟨?_, ?_⟩ (hnever before hbefore) <;> simp_all [observedAccount]
  | upsertObservedQuotaWindow input =>
    obtain rfl := Option.some.inj hexpected
    simp only [AccountDb.step, AccountDb.answer, upsertObservedQuotaWindow]
    split
    · next hmatch =>
      obtain ⟨row, hrow, hguard⟩ := (Option.any_eq_true _ _).mp hmatch
      refine absurd ⟨?_, ?_⟩ (hnever row hrow) <;> simp_all [observedQuotaAccount]
    · rfl
  | _ => simp [LifecycleCall.expected] at hexpected

/-- A credential of the account was there at first or a transaction brought it. -/
theorem mem_ciphertexts (calls : List LifecycleCall) {row : AccountRow} {text : String}
    (hrow : (start.run fingerprint cooldownMs calls).account = some row) (htext : row.authMaterial = some text) :
    text ∈ ciphertexts start calls := by
  induction calls using List.reverseRecOn generalizing row with
  | nil =>
    have hfirst : start.account = some row := hrow
    simp [ciphertexts, hfirst, htext]
  | append_singleton calls call ih =>
    have hearlier : ∀ {before : AccountRow}, (start.run fingerprint cooldownMs calls).account = some before →
        before.authMaterial = some text → text ∈ ciphertexts start (calls ++ [call]) := by
      intro before hbefore hheld
      have hmem := ih hbefore hheld
      unfold ciphertexts at hmem ⊢
      rw [List.filterMap_append, ← List.append_assoc]
      exact List.mem_append_left _ hmem
    rw [AccountDb.run, runFrom_append] at hrow
    rcases @moves_answer fingerprint cooldownMs (start.run fingerprint cooldownMs calls) call with
      ⟨hsame, -⟩ | ⟨before, after, hbefore, hafter, hmoved⟩
    · exact hearlier (hsame ▸ hrow) htext
    · obtain rfl := Option.some.inj (hafter.symm.trans hrow)
      rcases hmoved.credential with hkept | ⟨brought, hcall, hbrought⟩ | ⟨hnone, -⟩
      · exact hearlier hbefore (hkept ▸ htext)
      · obtain rfl := Option.some.inj (hbrought.symm.trans htext)
        unfold ciphertexts
        rw [List.filterMap_append, ← List.append_assoc]
        exact List.mem_append_right _ (by simp [hcall])
      · simp [hnone] at htext

/-- The facts of an observation from before a committed change are left behind by everything after it. -/
theorem leftBehind_run {before between later : List LifecycleCall} {mutation : LifecycleCall}
    (hread : ReadFrom (start.run fingerprint cooldownMs before) facts) (hmutates : mutation.mutates = true)
    (hcommitted : Committed fingerprint cooldownMs (start.run fingerprint cooldownMs (before ++ between)) mutation)
    (hdistinct : (ciphertexts start (before ++ between ++ mutation :: later)).Nodup) :
    LeftBehind facts (start.run fingerprint cooldownMs (before ++ between ++ mutation :: later)) := by
  obtain ⟨row, hrow, hversion, hcredential, -⟩ := hread
  have hother : ∀ call ∈ mutation :: later, BringsOther facts call := by
    intro call hcall text htext hsame
    have hearly := mem_ciphertexts before hrow (hcredential ▸ hsame)
    have hsplit : ciphertexts start (before ++ between ++ mutation :: later) =
        ciphertexts start before ++ (between ++ mutation :: later).filterMap LifecycleCall.ciphertext := by
      simp only [ciphertexts, List.filterMap_append, List.append_assoc]
    rw [hsplit] at hdistinct
    refine (List.nodup_append.mp hdistinct).2.2 text hearly text ?_ rfl
    exact List.mem_filterMap.mpr ⟨call, List.mem_append_right _ hcall, htext⟩
  have hsince : Since facts (start.run fingerprint cooldownMs (before ++ between)) := by
    rw [AccountDb.run, runFrom_append]
    refine runFrom_invariant (Since facts) (fun db call hdb => hdb.step call) between _ ?_
    intro other hother
    obtain rfl := Option.some.inj (hrow.symm.trans hother)
    exact hversion.le
  have hleft := hsince.leftBehind hmutates hcommitted (hother mutation (List.mem_cons_self ..))
  rw [AccountDb.run, runFrom_append, runFrom_cons]
  exact runFrom_invariant_of_everyStep (LeftBehind facts) (fun db call hdb hcall => hdb.step hcall) later _ hleft
    (everyStep_of_forall (fun call hcall _ => hother call (List.mem_cons_of_mem _ hcall)) _)

end Runs

/-- An observed write whose facts were read before an operator, a re-check, an authorization or a refresh
changed the account changes nothing after it. -/
theorem stale_observation_changes_nothing (fingerprint : Option String → String) (cooldownMs : Int)
    (start : AccountDb) (before between later : List LifecycleCall) (mutation write : LifecycleCall)
    (facts : AccountFacts) (hwrite : write.expected = some facts)
    (hread : ReadFrom (start.run fingerprint cooldownMs before) facts) (hmutates : mutation.mutates = true)
    (hcommitted : Committed fingerprint cooldownMs (start.run fingerprint cooldownMs (before ++ between)) mutation)
    (hdistinct : (ciphertexts start (before ++ between ++ mutation :: later)).Nodup) :
    start.run fingerprint cooldownMs (before ++ between ++ mutation :: later ++ [write]) =
      start.run fingerprint cooldownMs (before ++ between ++ mutation :: later) := by
  have hleft := leftBehind_run hread hmutates hcommitted hdistinct
  rw [AccountDb.run, runFrom_append]
  exact hleft.write hwrite

def activeAccount : AccountDb where
  account := some
    { status := .active
      lifecycleVersion := 3
      healthRecoveryVersion := 0
      authRecoveryVersion := 0
      authorizationAttemptId := none
      authMaterial := some "cipher-1"
      tokenExpiresAt := none
      authRefreshSpentOn := none
      updatedAt := 0 }

/-- An observer of that account found it out of credits. -/
def foundExhausted : LifecycleCall :=
  .transitionObservedStatus
    { expected := { lifecycleVersion := 3, authMaterial := some "cipher-1", status := .active }
      status := .exhausted
      quotaWindows := none
      clock := 0
      now := 0 }

/-- Two observers saw the account active. The first one's verdict lands and a re-check takes it back; the second
one's is refused. -/
theorem stale_observation_after_recheck :
    (activeAccount.run (fun _ => "") 0 [foundExhausted, .recheckAccount 1, foundExhausted]).account.map
        AccountRow.status = some .active := by
  have hsame := stale_observation_changes_nothing (fun _ => "") 0 activeAccount [] [foundExhausted] []
    (.recheckAccount 1) foundExhausted
    { lifecycleVersion := 3, authMaterial := some "cipher-1", status := .active } rfl ⟨_, rfl, rfl, rfl, rfl⟩ rfl
    ⟨_, rfl⟩ (by decide)
  exact (congrArg (fun db => db.account.map AccountRow.status) hsame).trans rfl

end MultiAiRouter.Accounts.Lifecycle
