import Mathlib.Logic.Relation
import MultiAiRouter.Translate.Snapshots.Remembered

/-!
# Names keep their item, and what is kept stays within its limit

A name that was given to an identity is never given to another, and an identity never changes its key. So
events whose names are linked by events that state both share their item.
-/

namespace MultiAiRouter.Translate.Snapshots

open Common Translate.Anthropic

namespace AliasTable

/-- Every name stands for an identity that was made. -/
def Valid (table : AliasTable) : Prop :=
  ∀ name place, table.aliases.get name = some place → place < table.identities.length

/-- All names and all keys are as they were. -/
structure Extends (table next : AliasTable) : Prop where
  names : ∀ name place, table.aliases.get name = some place → next.aliases.get name = some place
  keys : ∀ place, place < table.identities.length → place < next.identities.length ∧ next.keyOf place =
  table.keyOf place

/-- The names stand for an item of this key. -/
def Named (table : AliasTable) (names : List ItemAlias) (key : Units) : Prop :=
  ∀ name ∈ names, ∃ place, table.aliases.get name = some place ∧ place < table.identities.length ∧
  table.keyOf place = key

variable {table next last : AliasTable} {names : List ItemAlias} {key : Units}

theorem Extends.refl (table : AliasTable) : Extends table table := ⟨fun _ _ h => h, fun _ h => ⟨h, rfl⟩⟩

/-- An extension is extended. -/
theorem Extends.trans (hfirst : Extends table next) (hsecond : Extends next last) : Extends table last := by
  refine ⟨fun name place h => hsecond.names name place (hfirst.names name place h), fun place hplace => ?_⟩
  obtain ⟨hnext, hkey⟩ := hfirst.keys place hplace
  obtain ⟨hlast, hsame⟩ := hsecond.keys place hnext
  exact ⟨hlast, hsame.trans hkey⟩

/-- Names stay in an extended table. -/
theorem Named.extends (h : table.Named names key) (hextends : Extends table next) : next.Named names key := by
  intro name hmem
  obtain ⟨place, hget, hplace, hkey⟩ := h name hmem
  obtain ⟨hnext, hsame⟩ := hextends.keys place hplace
  exact ⟨place, hextends.names name place hget, hnext, hsame.trans hkey⟩

/-- Two items that share a name are one. -/
theorem Named.unique {other : Units} {others : List ItemAlias} (h : table.Named names key)
    (hother : table.Named others other)
    {name : ItemAlias} (hmem : name ∈ names) (hshared : name ∈ others) : key = other := by
  obtain ⟨place, hget, -, hkey⟩ := h name hmem
  obtain ⟨place', hget', -, hkey'⟩ := hother name hshared
  rw [hget] at hget'
  obtain rfl := Option.some.inj hget'
  exact hkey.symm.trans hkey'

/-- Names that are known are known by the identity that was found. -/
theorem find_ok {id index : Option Units} {found : Option Nat} (h : table.find id index = .ok found) :
    ∀ name ∈ namesOf id index, ∀ place, table.aliases.get name = some place → found = some place := by
  unfold find at h
  dsimp only at h
  split at h
  · cases h
  · next hagree =>
    split at h
    · cases h
    · have hfound := Except.ok.inj h
      intro name hmem place hget
      rw [← hfound]
      rcases List.mem_append.mp hmem with hid | hindex
      · obtain ⟨stated, rfl, rfl⟩ := Option.map_eq_some_iff.mp (Option.mem_toList.mp hid)
        simp [hget]
      · obtain ⟨stated, rfl, rfl⟩ := Option.map_eq_some_iff.mp (Option.mem_toList.mp hindex)
        rw [Option.bind_some, hget] at hagree ⊢
        cases hby : id.bind fun id => table.aliases.get (.byId id) with
        | none => rfl
        | some other => simpa [hby] using hagree

/-- What is found is an identity of the table. -/
theorem find_valid (hvalid : table.Valid) {id index : Option Units} {found : Option Nat}
    (h : table.find id index = .ok found) : ∀ place, found = some place → place < table.identities.length := by
  unfold find at h
  dsimp only at h
  split at h
  · cases h
  · split at h
    · cases h
    · rintro place rfl
      have hfound := Except.ok.inj h
      rcases Option.or_eq_some_iff.mp hfound with hid | ⟨-, hindex⟩
      · obtain ⟨stated, -, hget⟩ := Option.bind_eq_some_iff.mp hid
        exact hvalid _ _ hget
      · obtain ⟨stated, -, hget⟩ := Option.bind_eq_some_iff.mp hindex
        exact hvalid _ _ hget

/-- A claim keeps the names and the keys. -/
theorem claim_extends {found : Option Nat} (hfound : ∀ place, found = some place → place < table.identities.length)
    (id : Option Units) :
    Extends table (table.claim found key id).1 ∧ (table.claim found key id).1.aliases = table.aliases ∧
      (table.claim found key id).2 < (table.claim found key id).1.identities.length ∧
      ∀ place, found = some place → (table.claim found key id).2 = place := by
  unfold claim
  cases found with
  | some place =>
    refine ⟨⟨fun _ _ h => h, fun held hheld => ?_⟩, rfl, ?_, fun _ h => Option.some.inj h⟩
    · dsimp only
      rw [List.length_modify]
      refine ⟨hheld, ?_⟩
      simp only [keyOf, List.getElem?_modify]
      cases table.identities[held]? with
      | none => rfl
      | some identity => by_cases hsame : place = held <;> simp [hsame]
    · simpa using hfound place rfl
  | none =>
    refine ⟨⟨fun _ _ h => h, fun held hheld => ?_⟩, rfl, by simp, fun _ h => by cases h⟩
    dsimp only
    refine ⟨by simpa using Nat.lt_succ_of_lt hheld, ?_⟩
    simp only [keyOf, List.getElem?_append_left hheld]

theorem claim_length (found : Option Nat) (key : Units) (id : Option Units) :
    (table.claim found key id).1.identities.length = table.identities.length + if found.isNone then 1 else 0 := by
  unfold claim
  cases found <;> simp

theorem give_get (place : Nat) (table : AliasTable) (name other : ItemAlias) :
    (table.give place name).aliases.get other = if other = name then some place else table.aliases.get other :=
  InsertionMap.get_set ..

/-- A name that nobody had is given. -/
theorem give_extends {place : Nat} {name : ItemAlias} (hnone : table.aliases.get name = none) :
    Extends table (table.give place name) := by
  refine ⟨fun other held hget => ?_, fun _ h => ⟨h, rfl⟩⟩
  rw [give_get, if_neg (by rintro rfl; rw [hnone] at hget; cases hget)]
  exact hget

/-- A name is given to an identity of the table. -/
theorem Valid.give {place : Nat} (h : table.Valid) (hplace : place < table.identities.length) (name : ItemAlias) :
    (table.give place name).Valid := by
  intro other held hget
  rw [give_get] at hget
  split at hget
  · rw [← Option.some.inj hget]
    exact hplace
  · exact h other held hget

/-- What the names of a table are charged with. -/
def bytes (table : AliasTable) : Nat := ((table.aliases.entries.map Prod.fst).map ItemAlias.charge).sum

theorem give_bytes {place : Nat} {name : ItemAlias} (hnone : table.aliases.get name = none) :
    (table.give place name).bytes = table.bytes + name.charge := by
  unfold bytes give
  rw [InsertionMap.keys_set_of_none _ hnone]
  simp

/-- Names that nobody had are given one after another. -/
theorem foldl_give {place : Nat} (names : List ItemAlias) (hvalid : table.Valid)
    (hplace : place < table.identities.length)
    (hnone : ∀ name ∈ names, table.aliases.get name = none) (hnodup : names.Nodup) :
    (names.foldl (give place) table).Valid ∧ Extends table (names.foldl (give place) table) ∧
      (names.foldl (give place) table).identities = table.identities ∧
      (names.foldl (give place) table).bytes = table.bytes + (names.map ItemAlias.charge).sum ∧
      ∀ name ∈ names, (names.foldl (give place) table).aliases.get name = some place := by
  induction names generalizing table with
  | nil => exact ⟨hvalid, .refl _, rfl, rfl, fun _ hmem => by cases hmem⟩
  | cons name rest ih =>
    have hfirst := hnone name (List.mem_cons_self ..)
    rw [List.nodup_cons] at hnodup
    obtain ⟨hkept, hextends, hidentities, hbytes, hgiven⟩ :=
      @ih (table.give place name) (hvalid.give hplace name) hplace
      (by
        intro other hmem
        rw [give_get, if_neg (by rintro rfl; exact hnodup.1 hmem)]
        exact hnone other (List.mem_cons_of_mem _ hmem)) hnodup.2
    have hget : (table.give place name).aliases.get name = some place := by rw [give_get, if_pos rfl]
    refine ⟨hkept, (give_extends hfirst).trans hextends, hidentities, ?_, ?_⟩
    · rw [List.foldl_cons, hbytes, give_bytes hfirst, List.map_cons, List.sum_cons, Nat.add_assoc]
    · intro other hmem
      rcases List.mem_cons.mp hmem with rfl | hlater
      · exact hextends.names _ _ hget
      · exact hgiven other hlater

theorem nodup_namesOf (id index : Option Units) : (namesOf id index).Nodup := by
  cases id <;> cases index <;> simp [namesOf]

end AliasTable

section Recovery

variable {Hash Digest : Type} {hash : RollingHash Hash Digest} {json : JsonText} {state : RecoveryState Hash}

namespace RecoveryState

/-- What is kept: the names, and what is remembered of the parts. -/
def stored (json : JsonText) (state : RecoveryState Hash) : Nat :=
  state.table.bytes + ((state.evidence.entries.map Prod.fst).map (EvidenceKey.charge json)).sum

/-- The names stand for identities, and everything that is kept was charged for within the limit. -/
structure Kept (json : JsonText) (limit : Nat) (state : RecoveryState Hash) : Prop where
  valid : state.table.Valid
  limited : state.limit = limit
  charged : state.stored json ≤ state.retained
  bounded : state.stored json ≤ limit

/-- Names are kept while the limit allows, and if all are, they stand for the place. -/
theorem store_kept {limit place : Nat} (names : List ItemAlias) (h : state.Kept json limit)
    (hplace : place < state.table.identities.length)
    (hknown : ∀ name ∈ names, ∀ held, state.table.aliases.get name = some held → held = place) :
    (store place names state).1.Kept json limit ∧ state.table.Extends (store place names state).1.table ∧
      (store place names state).1.table.keyOf place = state.table.keyOf place ∧
      ((store place names state).2 = true →
        (store place names state).1.table.Named names (state.table.keyOf place)) := by
  induction names generalizing state with
  | nil => exact ⟨h, .refl _, rfl, fun _ _ hmem => by cases hmem⟩
  | cons name rest ih =>
    have hrest : ∀ other ∈ rest, ∀ held, state.table.aliases.get other = some held → held = place :=
      fun other hmem => hknown other (List.mem_cons_of_mem _ hmem)
    unfold store
    dsimp only
    split
    · next hsome =>
      obtain ⟨hkept, hextends, hkey, hnamed⟩ := ih h hplace hrest
      refine ⟨hkept, hextends, hkey, fun hall other hmem => ?_⟩
      rcases List.mem_cons.mp hmem with rfl | hlater
      · obtain ⟨held, hget⟩ := Option.isSome_iff_exists.mp hsome
        obtain rfl := hknown other (List.mem_cons_self ..) held hget
        exact ⟨held, hextends.names _ _ hget, (hextends.keys held hplace).1, hkey⟩
      · exact hnamed hall other hlater
    · next hmissing =>
      have hnone : state.table.aliases.get name = none := by simpa using hmissing
      split
      · refine ⟨⟨h.valid, h.limited, ?_, h.bounded⟩, .refl _, rfl, fun hall => by cases hall⟩
        exact h.charged.trans (Nat.le_add_right _ _)
      · next hfits =>
        have hstored : ({ state with retained := state.retained + name.charge, table := state.table.give place name } :
            RecoveryState Hash).stored json = state.stored json + name.charge := by
          unfold stored
          dsimp only
          rw [AliasTable.give_bytes hnone]
          omega
        have hcharged := h.charged
        have hlimit := h.limited
        have hgiven : ({ state with retained := state.retained + name.charge, table := state.table.give place name } :
            RecoveryState Hash).Kept json limit :=
          ⟨h.valid.give hplace name, h.limited, by rw [hstored]; dsimp only; omega, by rw [hstored]; omega⟩
        obtain ⟨hkept, hextends, hkey, hnamed⟩ := ih hgiven hplace (by
          intro other hmem held hget
          rw [AliasTable.give_get] at hget
          split at hget
          · exact (Option.some.inj hget).symm
          · exact hrest other hmem held hget)
        have hfirst : (state.table.give place name).aliases.get name = some place := by
          rw [AliasTable.give_get, if_pos rfl]
        refine ⟨hkept, (AliasTable.give_extends hnone).trans hextends, hkey, fun hall other hmem => ?_⟩
        rcases List.mem_cons.mp hmem with rfl | hlater
        · exact ⟨place, hextends.names _ _ hfirst, (hextends.keys place hplace).1, hkey⟩
        · exact hnamed hall other hlater

/-- An item is claimed under all of its names. -/
theorem Kept.claimItem {limit : Nat} (h : state.Kept json limit) {event : Record} {stored : RecoveryState Hash}
    {all : Bool} {item : Units} (hclaim : state.claimItem json event = .ok ((stored, all), item)) :
    stored.Kept json limit ∧ state.table.Extends stored.table ∧
      (all = true → stored.table.Named (namesOf (textField event "item_id") (indexText json event)) item) := by
  unfold RecoveryState.claimItem at hclaim
  dsimp only at hclaim
  split at hclaim
  · cases hclaim
  · next found hfind =>
    obtain ⟨hstore, rfl⟩ := Prod.mk.inj (Except.ok.inj hclaim)
    obtain ⟨hextends, haliases, hplace, hsame⟩ := @AliasTable.claim_extends state.table
      (((namesOf (textField event "item_id") (indexText json event)).head?.map ItemAlias.text).getD
        (asciiUnits "unkeyed")) found (AliasTable.find_valid h.valid hfind) (textField event "item_id")
    have hclaimed : ({ state with table := (state.table.claim found
        (((namesOf (textField event "item_id") (indexText json event)).head?.map ItemAlias.text).getD
          (asciiUnits "unkeyed")) (textField event "item_id")).1 } : RecoveryState Hash).Kept json limit := by
      refine ⟨?_, h.limited, ?_, ?_⟩
      · intro name place hget
        dsimp only at hget ⊢
        rw [haliases] at hget
        exact (hextends.keys place (h.valid name place hget)).1
      · have hcharged := h.charged
        unfold RecoveryState.stored AliasTable.bytes at hcharged ⊢
        rw [haliases]
        exact hcharged
      · have hbounded := h.bounded
        unfold RecoveryState.stored AliasTable.bytes at hbounded ⊢
        rw [haliases]
        exact hbounded
    obtain ⟨hkept, hstored, hkey, hnamed⟩ := store_kept (namesOf (textField event "item_id") (indexText json event))
      hclaimed hplace (by
        intro name hmem held hget
        dsimp only at hget
        rw [haliases] at hget
        exact (hsame held (AliasTable.find_ok hfind name hmem held hget)).symm)
    rw [hstore] at hkept hstored hnamed
    exact ⟨hkept, hextends.trans hstored, hnamed⟩

/-- A part is charged before it is remembered. -/
theorem Kept.evidenceOf {limit : Nat} (h : state.Kept json limit) (hash : RollingHash Hash Digest) (key : EvidenceKey) :
    (state.evidenceOf hash json key).1.Kept json limit ∧ (state.evidenceOf hash json key).1.table = state.table ∧
      ∀ evidence, (state.evidenceOf hash json key).2 = some evidence →
        ((state.evidenceOf hash json key).1.evidence.get key).isSome = true := by
  unfold RecoveryState.evidenceOf
  cases hget : state.evidence.get key with
  | some known => exact ⟨h, rfl, fun _ _ => by simp [hget]⟩
  | none =>
    dsimp only
    split
    · refine ⟨⟨h.valid, h.limited, h.charged.trans (Nat.le_add_right _ _), h.bounded⟩, rfl, ?_⟩
      rintro evidence ⟨⟩
    · next hfits =>
      have hstored : ({ state with
          retained := state.retained + key.charge json
          evidence := state.evidence.set key { hash := hash.createHash, length := 0, final := false } } :
          RecoveryState Hash).stored json = state.stored json + key.charge json := by
        unfold stored
        dsimp only
        rw [InsertionMap.keys_set_of_none _ hget]
        simp [Nat.add_assoc]
      have hcharged := h.charged
      have hlimit := h.limited
      refine ⟨⟨h.valid, h.limited, by rw [hstored]; dsimp only; omega, by rw [hstored]; omega⟩, rfl, ?_⟩
      intro _ _
      simp

/-- Comparing keeps the names and the parts, and hands on a piece of the part that is compared. -/
theorem Kept.compare [DecidableEq Digest] {limit : Nat} (h : state.Kept json limit) {key : EvidenceKey}
    (hknown : (state.evidence.get key).isSome = true) (evidence : Evidence Hash) (event : Record) (type : Units)
    (payload : Record) : (state.compare hash key evidence event type).1.Kept json limit ∧
      (state.compare hash key evidence event type).1.table = state.table ∧
      ∀ entry ∈ (state.compare hash key evidence event type).2.logged payload event,
        entry.payload = payload ∧ entry.resolved = event ∧ entry.key = key := by
  have hnothing : ∀ entry ∈ ([] : List Handed), entry.payload = payload ∧ entry.resolved = event ∧ entry.key = key :=
    List.forall_mem_nil _
  have haccept : ∀ delta snapshot, (state.accept hash key evidence event type delta snapshot).1.Kept json limit ∧
      (state.accept hash key evidence event type delta snapshot).1.table = state.table ∧
      ∀ entry ∈ (state.accept hash key evidence event type delta snapshot).2.logged payload event,
        entry.payload = payload ∧ entry.resolved = event ∧ entry.key = key := by
    intro delta snapshot
    have hstored : (state.accept hash key evidence event type delta snapshot).1.stored json = state.stored json := by
      unfold stored RecoveryState.accept
      dsimp only
      rw [InsertionMap.keys_set_of_some _ hknown]
    refine ⟨⟨h.valid, h.limited, hstored ▸ h.charged, hstored ▸ h.bounded⟩, rfl, ?_⟩
    intro entry hmem
    rw [List.mem_singleton.mp hmem]
    exact ⟨rfl, rfl, rfl⟩
  unfold RecoveryState.compare
  split
  · exact ⟨h, rfl, hnothing⟩
  · split
    · split
      · exact ⟨h, rfl, hnothing⟩
      · split
        · exact ⟨h, rfl, hnothing⟩
        · exact haccept _ _
    · split
      · exact ⟨h, rfl, hnothing⟩
      · exact haccept _ _

/-- An event through the stage: names and keys stay, and what is handed on belongs to the item of its names. -/
theorem Kept.recover [DecidableEq Digest] {limit : Nat} (h : state.Kept json limit) (hash : RollingHash Hash Digest)
    (event payload : Record) : (state.recover hash json event).1.Kept json limit ∧
      state.table.Extends (state.recover hash json event).1.table ∧
      ∀ entry ∈ (state.recover hash json event).2.logged payload event,
        entry.payload = payload ∧ entry.resolved = event ∧ entry.key.PartOf json event ∧
          (state.recover hash json event).1.table.Named (namesOf (textField event "item_id") (indexText json event))
            entry.key.item := by
  have hstep := @recoverStep Hash Digest hash json state _ event
  generalize state.recover hash json event = result at hstep ⊢
  cases hstep with
  | untouched passed nothing => exact ⟨h, .refl _, List.forall_mem_nil _⟩
  | unnamed error claim => exact ⟨h, .refl _, List.forall_mem_nil _⟩
  | full stored item claim =>
    obtain ⟨hkept, hextends, -⟩ := h.claimItem claim
    exact ⟨hkept, hextends, List.forall_mem_nil _⟩
  | unmeasured stored key claim missing =>
    obtain ⟨hkept, hextends, -⟩ := h.claimItem claim
    obtain ⟨hmeasured, htable, -⟩ := hkept.evidenceOf hash key
    exact ⟨hmeasured, htable ▸ hextends, List.forall_mem_nil _⟩
  | compared stored key evidence type typed part claim known =>
    obtain ⟨hkept, hextends, hnamed⟩ := h.claimItem claim
    obtain ⟨hmeasured, htable, hknown⟩ := hkept.evidenceOf hash key
    obtain ⟨hcompared, hsame, hentries⟩ := @Kept.compare _ _ hash json _ _ _ hmeasured key (hknown evidence known)
      evidence event type payload
    refine ⟨hcompared, ?_, fun entry hmem => ?_⟩
    · rw [hsame, htable]
      exact hextends
    · obtain ⟨hpayload, hresolved, hkey⟩ := hentries entry hmem
      rw [hsame, htable, hkey]
      exact ⟨hpayload, hresolved, part, hnamed rfl⟩

end RecoveryState

end Recovery

section Identity

variable {json : JsonText} {state : IdentityState}

namespace IdentityState

/-- What is kept: the names, and an allowance for each identity. -/
def stored (state : IdentityState) : Nat := state.table.bytes + 128 * state.table.identities.length

/-- The names stand for identities, and everything that is kept was charged for within the limit. -/
structure Kept (limit : Nat) (state : IdentityState) : Prop where
  valid : state.table.Valid
  limited : state.limit = limit
  charged : state.stored ≤ state.retained
  bounded : state.retained ≤ limit

end IdentityState

/-- An event without an item of its own: a piece or a whole of a part. -/
def Fragment (event : Record) : Prop :=
  eventItem event = none ∧ ∃ type, textField event "type" = some type ∧ type ∈ fragmentTypes

/-- The names of the item that an event concerns. -/
def itemNames (json : JsonText) (event : Record) : List ItemAlias :=
  if (textField event "type").any fun type => type ∈ itemTypes then namesOf (statedId event) (indexText json event)
  else []

/-- A chain of the events leads from one name to the other, each stating two that are next to each other. -/
def Linked (json : JsonText) (events : List Record) : ItemAlias → ItemAlias → Prop :=
  Relation.ReflTransGen fun first second => ∃ event ∈ events, first ∈ itemNames json event ∧
  second ∈ itemNames json event

theorem Fragment.itemNames {event : Record} (h : Fragment event) (json : JsonText) :
    itemNames json event = namesOf (statedId event) (indexText json event) := by
  obtain ⟨-, type, htype, hmem⟩ := h
  exact if_pos (by simp [htype, itemTypes, hmem])

/-- Where the names of each event stand for one item, so do names that are linked. -/
theorem AliasTable.Named.linked {table : AliasTable} {json : JsonText} {events : List Record}
    (h : ∀ event ∈ events, ∃ key, table.Named (Snapshots.itemNames json event) key) {first second : ItemAlias}
    {key : Units} (hlinked : Linked json events first second) (hfirst : table.Named [first] key) :
    table.Named [second] key := by
  induction hlinked with
  | refl => exact hfirst
  | @tail middle last _ hstep ih =>
    obtain ⟨event, hevent, hmiddle, hlast⟩ := hstep
    obtain ⟨other, hother⟩ := h event hevent
    obtain rfl := ih.unique hother (List.mem_singleton_self _) hmiddle
    intro name hname
    rw [List.mem_singleton.mp hname]
    exact hother last hlast

/-- An event that is named is claimed under all of its names, where the limit allows. -/
theorem IdentityState.Kept.claimed {limit : Nat} (h : state.Kept limit) {id index : Option Units} {found : Option Nat}
    (hfind : state.table.find id index = .ok found) (key : Units)
    (hfits : ¬ state.limit < state.retained + (((state.table.missing id index).map ItemAlias.charge).sum +
      (if found.isNone then 128 else 0))) :
    let claimed := state.table.claim found key id
    let table := (state.table.missing id index).foldl (AliasTable.give claimed.2) claimed.1
    table.Valid ∧ state.table.Extends table ∧ table.Named (namesOf id index) (claimed.1.keyOf claimed.2) ∧
      table.bytes + 128 * table.identities.length ≤ state.retained +
        (((state.table.missing id index).map ItemAlias.charge).sum + (if found.isNone then 128 else 0)) := by
  intro claimed table
  obtain ⟨hextends, haliases, hplace, hsame⟩ :=
    @AliasTable.claim_extends state.table key found (AliasTable.find_valid h.valid hfind) id
  have hlength := @AliasTable.claim_length state.table found key id
  have hvalid : claimed.1.Valid := by
    intro name place hget
    rw [haliases] at hget
    exact (hextends.keys place (h.valid name place hget)).1
  obtain ⟨htable, hgiven, hidentities, hbytes, hnames⟩ := @AliasTable.foldl_give claimed.1 claimed.2
    (state.table.missing id index) hvalid hplace
    (by
      intro name hmem
      rw [haliases]
      simpa using (List.mem_filter.mp hmem).2)
    ((AliasTable.nodup_namesOf id index).filter _)
  have hkey : table.keyOf claimed.2 = claimed.1.keyOf claimed.2 := (hgiven.keys _ hplace).2
  refine ⟨htable, hextends.trans hgiven, fun name hmem => ⟨claimed.2, ?_, (hgiven.keys _ hplace).1, hkey⟩, ?_⟩
  · cases hget : state.table.aliases.get name with
    | none => exact hnames name (List.mem_filter.mpr ⟨hmem, by simp [hget]⟩)
    | some held =>
      rw [hsame held (AliasTable.find_ok hfind name hmem held hget)]
      exact hgiven.names _ _ (hextends.names _ _ hget)
  · have hcharged := h.charged
    have hheld : claimed.1.bytes = state.table.bytes := by
      unfold AliasTable.bytes
      rw [haliases]
    unfold IdentityState.stored at hcharged
    change ((state.table.missing id index).foldl (AliasTable.give claimed.2) claimed.1).bytes +
      128 * ((state.table.missing id index).foldl (AliasTable.give claimed.2) claimed.1).identities.length ≤ _
    rw [hbytes, hheld, hidentities, hlength]
    cases found <;> simp <;> omega

/-- An event through the identity stage: names and keys stay, and one that goes on does so under the key of its
names. -/
theorem IdentityState.Kept.resolveIdentity {limit : Nat} (h : state.Kept limit) (json : JsonText) (event : Record) :
    (resolveIdentity json state event).1.Kept limit ∧
      state.table.Extends (resolveIdentity json state event).1.table ∧
      ∀ raw, (resolveIdentity json state event).2 = .ok raw →
        ∃ key, (resolveIdentity json state event).1.table.Named (itemNames json event) key ∧
          (itemNames json event ≠ [] → eventItem event = none → textField raw "item_id" = some key) := by
  have hunchanged : ∀ result : Except StageError Record, (∀ raw, result = .ok raw → itemNames json event = []) →
      state.Kept limit ∧ state.table.Extends state.table ∧ ∀ raw, result = .ok raw →
        ∃ key, state.table.Named (itemNames json event) key ∧
          (itemNames json event ≠ [] → eventItem event = none → textField raw "item_id" = some key) := by
    refine fun result hnone => ⟨h, .refl _, fun raw hok => ⟨[], ?_, fun hnames => absurd (hnone raw hok) hnames⟩⟩
    rw [hnone raw hok]
    exact fun _ hmem => by cases hmem
  unfold Snapshots.resolveIdentity
  split
  · next htype => exact hunchanged _ fun _ _ => if_neg (by simp [htype])
  · next type htype =>
    split
    · next hother => exact hunchanged _ fun _ _ => if_neg (by simp [htype, hother])
    · next hitem =>
      have hnames : itemNames json event = namesOf (statedId event) (indexText json event) :=
        if_pos (by simpa [htype] using hitem)
      dsimp only
      split
      · next hunnamed =>
        have hnone : itemNames json event = [] := by
          simp only [Bool.and_eq_true, Option.isNone_iff_eq_none] at hunnamed
          rw [hnames, hunnamed.1.1, hunnamed.1.2]
          rfl
        split <;> exact hunchanged _ fun _ _ => hnone
      · split
        · exact hunchanged _ fun _ hok => by cases hok
        · next found hfind =>
          by_cases hfits : state.limit < state.retained +
              (((state.table.missing (statedId event) (indexText json event)).map ItemAlias.charge).sum +
                (if found.isNone then 128 else 0))
          · rw [if_pos hfits]
            exact hunchanged _ fun _ hok => by cases hok
          · rw [if_neg hfits, hnames]
            obtain ⟨hvalid, hextends, hnamed, hcharged⟩ := h.claimed hfind
              (asciiUnits "router-item-" ++ decimal state.next) hfits
            have hlimit := h.limited
            refine ⟨⟨hvalid, h.limited, hcharged, by dsimp only; omega⟩, hextends, fun raw hok => ?_⟩
            obtain rfl := Except.ok.inj hok
            refine ⟨_, hnamed, fun _ hfragment => ?_⟩
            rw [keyedEvent, hfragment]
            dsimp only
            rw [textField, Record.get_set_self]
            rfl

end Identity

end MultiAiRouter.Translate.Snapshots
