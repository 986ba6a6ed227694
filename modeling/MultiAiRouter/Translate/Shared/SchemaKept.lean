import MultiAiRouter.Translate.Shared.SchemaStrip

/-!
# What is left of a stripped schema

What is stripped is clean and keeps its subschemas, so it is stripped once and for all. Address by address a stripped
schema has what the schema has, but for the patterns that are dropped.
-/

namespace MultiAiRouter.Translate.Shared

open Common Common.Json

section Subschemas

variable {strip : Record → Record} {schema : Record} {key : Units}

/-- A keyword of the stripped members. -/
theorem get_mapMembers (strip : Record → Record) (schema : Record) (key : Units) :
    Record.get (mapMembers strip schema) key = (schema.get key).map (mapKeyword strip key) := by
  unfold Record.get mapMembers
  induction schema with
  | nil => rfl
  | cons member rest ih =>
    rw [List.map_cons, List.lookup_cons, List.lookup_cons, ih]
    cases hkey : key == member.1 with
    | true => rw [eq_of_beq hkey]; rfl
    | false => rfl

/-- What was deleted is gone. -/
theorem get_delete_self (schema : Record) (key : Units) : Record.get (Record.delete schema key) key = none := by
  rw [Record.get, Record.delete, List.lookup_eq_none_iff]
  intro member hmember
  have hne := (List.mem_filter.mp hmember).2
  rw [bne_iff_ne] at hne
  exact bne_iff_ne.mpr hne.symm

/-- A pattern holds no schemas. -/
theorem shapesOf_pattern : shapesOf patternKey = [] := by decide

/-- So none are found in it. -/
theorem held_pattern (value : Value) : held patternKey value = [] := by
  cases value <;> simp [held, shapesOf_pattern]

/-- And it is left as it is. -/
theorem mapKeyword_pattern (value : Value) : mapKeyword strip patternKey value = value := by
  cases value <;> simp [mapKeyword, shapesOf_pattern]

/-- A keyword holds subschemas in an object in one way only. -/
theorem single_notMem_of_map {keyword : Units} (h : Shape.map ∈ shapesOf keyword) :
    Shape.single ∉ shapesOf keyword := by
  have htable : ∀ entry ∈ subschemaKeywords, Shape.map ∈ entry.2 → Shape.single ∉ entry.2 := by decide
  rw [shapesOf] at h ⊢
  cases hlookup : subschemaKeywords.lookup keyword with
  | none => simp
  | some shapes =>
    rw [hlookup] at h
    exact htable _ (mem_of_lookup hlookup) h

/-- An object stays an object. -/
theorem asRecord_mapObject (strip : Record → Record) (value : Value) :
    (mapObject strip value).asRecord = value.asRecord.map strip := by
  cases value <;> rfl

/-- A stripped keyword holds the stripped subschemas. -/
theorem held_mapKeyword (strip : Record → Record) (keyword : Units) (value : Value) :
    held keyword (mapKeyword strip keyword value) = (held keyword value).map strip := by
  cases value with
  | object members =>
    rw [mapKeyword, held]
    by_cases hsingle : Shape.single ∈ shapesOf keyword
    · simp [held, hsingle]
    · by_cases hmap : Shape.map ∈ shapesOf keyword
      · simp only [if_neg hsingle, if_pos hmap, held, List.filterMap_map, List.map_filterMap]
        apply List.filterMap_congr
        intro member _
        exact asRecord_mapObject strip member.2
      · simp [held, hsingle, hmap]
  | array items =>
    rw [mapKeyword, held]
    by_cases harray : Shape.array ∈ shapesOf keyword
    · simp only [if_pos harray, held, List.filterMap_map, List.map_filterMap]
      apply List.filterMap_congr
      intro item _
      exact asRecord_mapObject strip item
    · simp [held, harray]
  | _ => rfl

/-- The subschemas of the stripped members. -/
theorem subschemas_mapMembers (strip : Record → Record) (schema : Record) :
    subschemas (mapMembers strip schema) = (subschemas schema).map strip := by
  rw [subschemas, mapMembers, List.flatMap_map, subschemas, List.map_flatMap]
  apply List.flatMap_congr
  intro member _
  exact held_mapKeyword strip member.1 member.2

/-- A pattern is no subschema. -/
theorem subschemas_delete (schema : Record) : subschemas (Record.delete schema patternKey) = subschemas schema := by
  unfold subschemas Record.delete
  induction schema with
  | nil => rfl
  | cons member rest ih =>
    rw [List.flatMap_cons, ← ih]
    by_cases hmember : member.1 = patternKey
    · rw [List.filter_cons_of_neg (by simpa using hmember), hmember, held_pattern, List.nil_append]
    · rw [List.filter_cons_of_pos (by simpa using hmember), List.flatMap_cons]

/-- The subschemas of a stripped schema are stripped. -/
theorem subschemas_strip (levels : ℕ) (schema : Record) :
    subschemas (stripSchema (levels + 1) schema) = (subschemas schema).map (stripSchema levels) := by
  rw [stripSchema]
  split
  · rw [subschemas_delete, subschemas_mapMembers]
  · rw [subschemas_mapMembers]

/-- The pattern of a stripped schema is the one the schema has, where it is not dropped. -/
theorem dropsPattern_strip (levels : ℕ) (schema : Record) : dropsPattern (stripSchema (levels + 1) schema) = false := by
  have hkept : (mapMembers (stripSchema levels) schema).get patternKey = schema.get patternKey := by
    rw [get_mapMembers]
    cases schema.get patternKey with
    | none => rfl
    | some value => rw [Option.map_some, mapKeyword_pattern]
  rw [stripSchema]
  cases hdrops : dropsPattern schema with
  | true =>
    rw [if_pos rfl, dropsPattern, get_delete_self]
  | false =>
    rw [if_neg Bool.false_ne_true, dropsPattern, hkept]
    exact hdrops

end Subschemas

section CleanSchemas

variable {strip : Record → Record} {levels : ℕ} {schema : Record}

/-- A stripped schema is clean. -/
theorem clean_strip (levels : ℕ) (schema : Record) : Clean levels (stripSchema levels schema) := by
  induction levels generalizing schema with
  | zero => trivial
  | succ levels ih =>
    refine ⟨dropsPattern_strip levels schema, ?_⟩
    rw [subschemas_strip]
    intro sub hsub
    obtain ⟨before, -, rfl⟩ := List.mem_map.mp hsub
    exact ih before

/-- What is fixed is left as it is. -/
theorem mapObject_of_fixed {value : Value} (h : ∀ sub, value.asRecord = some sub → strip sub = sub) :
    mapObject strip value = value := by
  cases value with
  | object sub => rw [mapObject, h sub rfl]
  | _ => rfl

/-- So is a keyword that holds only such schemas. -/
theorem mapKeyword_of_fixed {keyword : Units} {value : Value} (h : ∀ sub ∈ held keyword value, strip sub = sub) :
    mapKeyword strip keyword value = value := by
  cases value with
  | object members =>
    rw [held] at h
    rw [mapKeyword]
    by_cases hsingle : Shape.single ∈ shapesOf keyword
    · simp only [if_pos hsingle, List.mem_singleton, forall_eq] at h ⊢
      rw [h]
    · by_cases hmap : Shape.map ∈ shapesOf keyword
      · simp only [if_neg hsingle, if_pos hmap] at h ⊢
        congr 1
        rw [List.map_congr_left (g := id), List.map_id]
        intro member hmember
        rw [mapObject_of_fixed fun sub hsub => h sub (List.mem_filterMap.mpr ⟨member, hmember, hsub⟩)]
        rfl
      · simp only [if_neg hsingle, if_neg hmap]
  | array items =>
    rw [held] at h
    rw [mapKeyword]
    by_cases harray : Shape.array ∈ shapesOf keyword
    · simp only [if_pos harray] at h ⊢
      congr 1
      rw [List.map_congr_left (g := id), List.map_id]
      intro item hitem
      exact mapObject_of_fixed fun sub hsub => h sub (List.mem_filterMap.mpr ⟨item, hitem, hsub⟩)
    · simp only [if_neg harray]
  | _ => rfl

/-- A clean schema is left as it is. -/
theorem strip_of_clean (h : Clean levels schema) : stripSchema levels schema = schema := by
  induction levels generalizing schema with
  | zero => rfl
  | succ levels ih =>
    rw [stripSchema, h.1, if_neg Bool.false_ne_true, mapMembers, List.map_congr_left (g := id), List.map_id]
    intro member hmember
    rw [mapKeyword_of_fixed fun sub hsub => ih (h.2 sub (List.mem_flatMap.mpr ⟨member, hmember, hsub⟩))]
    rfl

/-- Stripping keeps the number of schemas. -/
theorem count_strip (levels : ℕ) (schema : Record) :
    schemaCount levels (stripSchema levels schema) = schemaCount levels schema := by
  induction levels generalizing schema with
  | zero => rfl
  | succ levels ih =>
    rw [schemaCount, schemaCount, subschemas_strip, List.map_map]
    congr 2
    exact List.map_congr_left fun sub _ => ih sub

/-- And the depth. -/
theorem depth_strip (h : DepthWithin levels schema) : DepthWithin levels (stripSchema levels schema) := by
  induction levels generalizing schema with
  | zero => exact h
  | succ levels ih =>
    rw [DepthWithin, subschemas_strip]
    intro sub hsub
    obtain ⟨before, hbefore, rfl⟩ := List.mem_map.mp hsub
    exact ih (h before hbefore)

end CleanSchemas

section Precheck

variable {text : ℚ → Units} {levels : ℕ} {schema sub : Record}

/-- A text with such a part has a lookaround. -/
theorem hasLookaround_mono {part whole : Units} (h : part <:+: whole) (hpart : hasLookaround part = true) :
    hasLookaround whole = true := by
  obtain ⟨opener, hopener, hinside⟩ := List.any_eq_true.mp hpart
  exact List.any_eq_true.mpr ⟨opener, hopener, decide_eq_true ((of_decide_eq_true hinside).trans h)⟩

/-- A lookaround of a string is one of the string as it is written. -/
theorem hasLookaround_written {pattern : Units} (h : hasLookaround pattern = true) :
    hasLookaround (stringify text (.string pattern)) = true := by
  obtain ⟨opener, hopener, hinside⟩ := List.any_eq_true.mp h
  have hwords : (lookarounds.all fun opener => !opener.isEmpty && opener.all isPlain) = true := by decide
  have hword := List.all_eq_true.mp hwords opener hopener
  rw [Bool.and_eq_true, Bool.not_eq_true', List.isEmpty_eq_false_iff, List.all_eq_true] at hword
  have hquoted := infix_quoteUnits hword.2 hword.1 (of_decide_eq_true hinside)
  refine List.any_eq_true.mpr ⟨opener, hopener, decide_eq_true ?_⟩
  exact hquoted.trans ((List.suffix_cons _ _).isInfix.trans (List.prefix_append _ _).isInfix)

/-- A subschema is written inside the value that holds it. -/
theorem infix_held {keyword : Units} {value : Value} (h : sub ∈ held keyword value) :
    stringify text (.object sub) <:+: stringify text value := by
  cases value with
  | object members =>
    rw [held] at h
    split at h
    · rw [List.mem_singleton.mp h]
    · split at h
      · obtain ⟨member, hmember, hsub⟩ := List.mem_filterMap.mp h
        obtain ⟨name, value⟩ := member
        cases value <;> cases hsub
        exact infix_member hmember
      · simp at h
  | array items =>
    rw [held] at h
    split at h
    · obtain ⟨item, hitem, hsub⟩ := List.mem_filterMap.mp h
      cases item <;> cases hsub
      exact infix_item hitem
    · simp at h
  | _ => simp [held] at h

/-- A schema whose text holds no lookaround is clean. -/
theorem clean_of_text (levels : ℕ) (h : hasLookaround (stringify text (.object schema)) = false) :
    Clean levels schema := by
  induction levels generalizing schema with
  | zero => trivial
  | succ levels ih =>
    refine ⟨?_, fun sub hsub => ih ?_⟩
    · rw [dropsPattern]
      split
      · next pattern hpattern =>
        by_contra hfound
        rw [Bool.not_eq_false] at hfound
        have hwhole := hasLookaround_mono (infix_member (mem_of_lookup hpattern))
          (@hasLookaround_written text _ hfound)
        rw [h] at hwhole
        cases hwhole
      · rfl
    · obtain ⟨member, hmember, hheld⟩ := List.mem_flatMap.mp hsub
      by_contra hfound
      rw [Bool.not_eq_false] at hfound
      have hwhole := hasLookaround_mono ((infix_held hheld).trans (infix_member hmember)) hfound
      rw [h] at hwhole
      cases hwhole

end Precheck

section Positions

variable {keyword : Units} {value : Value} {head address : Address} {sub schema target : Record} {levels : ℕ}

/-- A schema at an address of the keyword is held by it. -/
theorem mem_held (h : HeldAt keyword value head sub) : sub ∈ held keyword value := by
  cases h with
  | single hshape => rw [held, if_pos hshape]; exact List.mem_singleton_self sub
  | item hshape hitem =>
    rw [held, if_pos hshape]
    exact List.mem_filterMap.mpr ⟨_, List.mem_of_getElem? hitem, rfl⟩
  | entry hshape hentry =>
    rw [held, if_neg (single_notMem_of_map hshape), if_pos hshape]
    exact List.mem_filterMap.mpr ⟨_, mem_of_lookup hentry, rfl⟩

/-- No schema position of a clean schema has a pattern with a lookaround. -/
theorem dropsPattern_of_clean (hdepth : DepthWithin levels schema) (hclean : Clean levels schema)
    (h : SchemaAt schema address target) : dropsPattern target = false := by
  induction h generalizing levels with
  | here =>
    cases levels with
    | zero => exact hdepth.elim
    | succ levels => exact hclean.1
  | @inside schema sub _ _ _ _ _ hvalue hheld hrest ih =>
    cases levels with
    | zero => exact hdepth.elim
    | succ levels =>
      have hsub : sub ∈ subschemas schema := List.mem_flatMap.mpr ⟨_, mem_of_lookup hvalue, mem_held hheld⟩
      exact ih (hdepth _ hsub) (hclean.2 _ hsub)

/-- The pattern at this address holds a lookaround at a schema position. -/
def Dropped (schema : Record) (address : Address) : Prop :=
  ∃ position target, SchemaAt schema position target ∧ dropsPattern target = true ∧
    address = position ++ [.key patternKey]

/-- Values of one kind: equal ones, arrays of one length, objects with the same names in order, but for the pattern.
-/
def SameShape : Value → Value → Prop
  | .array before, .array after => after.length = before.length
  | .object before, .object after =>
    after.map Prod.fst = before.map Prod.fst ∨
      after.map Prod.fst = (before.map Prod.fst).filter fun key => key != patternKey
  | before, after => after = before

/-- Every value has its own shape. -/
theorem SameShape.refl (value : Value) : SameShape value value := by
  cases value with
  | array items => exact Eq.refl items.length
  | object members => exact .inl rfl
  | _ => exact Eq.refl _

/-- At every address the later value has what the earlier one has, but for what is dropped. -/
def Follows (dropped : Address → Prop) (before after : Value) : Prop :=
  ∀ address, (dropped address ∧ valueAt after address = none) ∨
    Option.Rel SameShape (valueAt before address) (valueAt after address)

/-- What is found has its own shape. -/
theorem rel_self (found : Option Value) : Option.Rel SameShape found found := by
  cases found with
  | none => exact .none
  | some value => exact .some (SameShape.refl value)

/-- Every value follows itself. -/
theorem Follows.refl (dropped : Address → Prop) (value : Value) : Follows dropped value value :=
  fun address => .inr (rel_self (valueAt value address))

variable {strip : Record → Record}

/-- What is stripped follows, if every object in it does. -/
theorem follows_mapObject {dropped : Record → Address → Prop}
    (h : ∀ sub, Follows (dropped sub) (.object sub) (.object (strip sub)))
    (value : Value) : Follows (fun address => ∃ sub, value = .object sub ∧ dropped sub address) value
      (mapObject strip value) := by
  cases value with
  | object sub =>
    intro address
    exact (h sub address).imp_left fun hdropped => ⟨⟨sub, rfl, hdropped.1⟩, hdropped.2⟩
  | _ => exact Follows.refl _ _

/-- An entry of a map whose values are changed. -/
theorem get_map_entries (make : Value → Value) (entries : Record) (name : Units) :
    Record.get (entries.map fun member => (member.1, make member.2)) name = (entries.get name).map make := by
  unfold Record.get
  induction entries with
  | nil => rfl
  | cons member rest ih =>
    rw [List.map_cons, List.lookup_cons, List.lookup_cons, ih]
    cases name == member.1 <;> rfl

/-- What a keyword holds is stripped where it is held, and the rest is left. -/
theorem follows_mapKeyword {dropped : Record → Address → Prop}
    (h : ∀ sub, Follows (dropped sub) (.object sub) (.object (strip sub))) (keyword : Units) (value : Value) :
    Follows (fun address => ∃ head sub rest, HeldAt keyword value head sub ∧ dropped sub rest ∧ address = head ++ rest)
      value (mapKeyword strip keyword value) := by
  intro address
  cases value with
  | object members =>
    rw [mapKeyword]
    by_cases hsingle : Shape.single ∈ shapesOf keyword
    · rw [if_pos hsingle]
      exact (h members address).imp_left fun hdropped =>
        ⟨⟨[], members, address, .single hsingle, hdropped.1, rfl⟩, hdropped.2⟩
    · rw [if_neg hsingle]
      by_cases hmap : Shape.map ∈ shapesOf keyword
      · rw [if_pos hmap]
        cases address with
        | nil =>
          right
          refine .some (.inl ?_)
          rw [List.map_map]
          rfl
        | cons step rest =>
          cases step with
          | index place => exact .inr .none
          | key name =>
            rw [valueAt, valueAt, get_map_entries]
            cases hentry : Record.get members name with
            | none => exact .inr .none
            | some entry =>
              rcases follows_mapObject h entry rest with ⟨⟨sub, hsub, hdropped⟩, hnone⟩ | hrel
              · rw [hsub] at hentry
                exact .inl ⟨⟨[.key name], sub, rest, .entry hmap hentry, hdropped, rfl⟩, hnone⟩
              · exact .inr hrel
      · rw [if_neg hmap]
        exact .inr (rel_self _)
  | array items =>
    rw [mapKeyword]
    by_cases harray : Shape.array ∈ shapesOf keyword
    · rw [if_pos harray]
      cases address with
      | nil => exact .inr (.some (List.length_map _))
      | cons step rest =>
        cases step with
        | key name => exact .inr .none
        | index place =>
          rw [valueAt, valueAt, List.getElem?_map]
          cases hitem : items[place]? with
          | none => exact .inr .none
          | some item =>
            rcases follows_mapObject h item rest with ⟨⟨sub, hsub, hdropped⟩, hnone⟩ | hrel
            · rw [hsub] at hitem
              exact .inl ⟨⟨[.index place], sub, rest, .item harray hitem, hdropped, rfl⟩, hnone⟩
            · exact .inr hrel
    · rw [if_neg harray]
      exact .inr (rel_self _)
  | _ => exact .inr (rel_self _)

/-- A stripped schema has at each address what the schema has, but for the patterns that are dropped. -/
theorem follows_strip (levels : ℕ) (schema : Record) :
    Follows (Dropped schema) (.object schema) (.object (stripSchema levels schema)) := by
  induction levels generalizing schema with
  | zero => exact Follows.refl _ _
  | succ levels ih =>
    intro address
    match address with
    | [] =>
      have hkeys : (mapMembers (stripSchema levels) schema).map Prod.fst = schema.map Prod.fst := by
        rw [mapMembers, List.map_map]
        rfl
      right
      rw [stripSchema]
      split
      · refine .some (.inr ?_)
        rw [Record.delete, ← hkeys, List.filter_map]
        rfl
      · exact .some (.inl hkeys)
    | .index place :: rest => exact .inr .none
    | .key key :: rest =>
      by_cases hgone : dropsPattern schema = true ∧ key = patternKey
      · obtain ⟨hdrops, rfl⟩ := hgone
        have hnone : Record.get (stripSchema (levels + 1) schema) patternKey = none := by
          rw [stripSchema, if_pos hdrops, get_delete_self]
        have hafter : valueAt (.object (stripSchema (levels + 1) schema)) (.key patternKey :: rest) = none := by
          rw [valueAt, hnone]
          rfl
        cases rest with
        | nil => exact .inl ⟨⟨[], schema, .here, hdrops, rfl⟩, hafter⟩
        | cons step rest =>
          right
          rw [hafter, valueAt]
          rw [dropsPattern] at hdrops
          split at hdrops
          · next pattern hpattern =>
            rw [hpattern, Option.bind_some]
            cases step <;> exact .none
          · cases hdrops
      · have hget : Record.get (stripSchema (levels + 1) schema) key =
            (schema.get key).map (mapKeyword (stripSchema levels) key) := by
          rw [stripSchema]
          split
          · next hdrops => rw [Record.get_delete_of_ne fun hkey => hgone ⟨hdrops, hkey⟩, get_mapMembers]
          · rw [get_mapMembers]
        rw [valueAt, valueAt, hget]
        cases hvalue : schema.get key with
        | none => exact .inr .none
        | some value =>
          rcases follows_mapKeyword ih key value rest with ⟨⟨head, sub, below, hheld, hdropped, rfl⟩, hnone⟩ | hrel
          · obtain ⟨position, target, hposition, hdrops, rfl⟩ := hdropped
            refine .inl ⟨⟨.key key :: (head ++ position), target, .inside hvalue hheld hposition, hdrops, ?_⟩, hnone⟩
            simp
          · exact .inr hrel

end Positions

end MultiAiRouter.Translate.Shared
