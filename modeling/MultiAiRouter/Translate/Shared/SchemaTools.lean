import MultiAiRouter.Translate.Shared.SchemaKept

/-!
# The tools of a body without lookarounds

Within the bounds a body is given with the parameters of each tool stripped.
-/

namespace MultiAiRouter.Translate.Shared

open Common Common.Json

section Records

variable {record : Record} {key : Units} {before after value : Value}

/-- The second of two writes of a key stands. -/
theorem set_set (record : Record) (key : Units) (first second : Value) :
    Record.set (record.set key first) key second = record.set key second := by
  by_cases hany : record.any fun member => member.1 == key
  · have hkept : (record.map fun member => if member.1 = key then (key, first) else member).any
        (fun member => member.1 == key) = true := by
      rw [List.any_map]
      obtain ⟨member, hmember, hkey⟩ := List.any_eq_true.mp hany
      refine List.any_eq_true.mpr ⟨member, hmember, ?_⟩
      simp [eq_of_beq hkey]
    rw [Record.set, Record.set, if_pos hany, if_pos hkept, List.map_map, Record.set, if_pos hany]
    apply List.map_congr_left
    intro member _
    simp only [Function.comp]
    by_cases hkey : member.1 = key
    · rw [if_pos hkey, if_pos rfl, if_pos hkey]
    · rw [if_neg hkey, if_neg hkey]
  · have hnew : (record ++ [(key, first)]).any (fun member => member.1 == key) = true := by simp
    rw [Record.set, Record.set, if_neg hany, if_pos hnew, Record.set, if_neg hany, List.map_append]
    congr 1
    · rw [List.map_congr_left (g := id), List.map_id]
      intro member hmember
      rw [if_neg]
      · rfl
      · intro hkey
        exact hany (List.any_eq_true.mpr ⟨member, hmember, beq_iff_eq.mpr hkey⟩)
    · simp

/-- Setting a member that is there keeps the names. -/
theorem keys_set (hget : record.get key = some before) (after : Value) :
    (record.set key after).map Prod.fst = record.map Prod.fst := by
  have hany : (record.any fun member => member.1 == key) = true :=
    List.any_eq_true.mpr ⟨_, mem_of_lookup hget, beq_iff_eq.mpr rfl⟩
  rw [Record.set, if_pos hany, List.map_map]
  apply List.map_congr_left
  intro member _
  simp only [Function.comp]
  split
  · next hkey => exact hkey.symm
  · rfl

variable {dropped wider : Address → Prop}

/-- What follows with few addresses dropped follows with more. -/
theorem Follows.mono (h : Follows dropped before after) (hwider : ∀ address, dropped address → wider address) :
    Follows wider before after :=
  fun address => (h address).imp_left fun hdropped => ⟨hwider address hdropped.1, hdropped.2⟩

/-- A member that is replaced by one that follows it. -/
theorem follows_set (hget : record.get key = some before) (h : Follows dropped before after) :
    Follows (fun address => ∃ rest, address = .key key :: rest ∧ dropped rest) (.object record)
      (.object (record.set key after)) := by
  intro address
  match address with
  | [] => exact .inr (.some (.inl (keys_set hget after)))
  | .index place :: rest => exact .inr .none
  | .key other :: rest =>
    rw [valueAt, valueAt]
    by_cases hkey : other = key
    · subst hkey
      rw [hget, Record.get_set_self]
      exact (h rest).imp_left fun hdropped => ⟨⟨rest, rfl, hdropped.1⟩, hdropped.2⟩
    · rw [Record.get_set_of_ne hkey]
      exact .inr (rel_self _)

/-- Items that are replaced by ones that follow them. -/
theorem follows_items {make : Value → Value} {gone : Value → Address → Prop} (items : List Value)
    (h : ∀ item, Follows (gone item) item (make item)) :
    Follows (fun address => ∃ place item rest, items[place]? = some item ∧ address = .index place :: rest ∧
      gone item rest)
      (.array items) (.array (items.map make)) := by
  intro address
  match address with
  | [] => exact .inr (.some (List.length_map _))
  | .key name :: rest => exact .inr .none
  | .index place :: rest =>
    rw [valueAt, valueAt, List.getElem?_map]
    cases hitem : items[place]? with
    | none => exact .inr .none
    | some item =>
      exact (h item rest).imp_left fun hdropped => ⟨⟨place, item, rest, hitem, rfl, hdropped.1⟩, hdropped.2⟩

end Records

section Tools

variable {text : ℚ → Units}

/-- A tool with its parameters stripped, where they are walked. -/
def mapTool (text : ℚ → Units) (tool : Value) : Value :=
  match tool, walkedParameters text tool with
  | .object members, some parameters =>
    .object (Record.set members parametersKey (.object (stripSchema (maxSchemaDepth + 1) parameters)))
  | _, _ => tool

/-- The parameters of a tool that are walked are those of an object, and their text holds a lookaround. -/
theorem walkedParameters_some {tool : Value} {parameters : Record} (h : walkedParameters text tool = some parameters) :
    ∃ members, tool = .object members ∧ Record.get members parametersKey = some (.object parameters) ∧
      hasLookaround (stringify text (.object parameters)) = true := by
  cases tool with
  | object members =>
    rw [walkedParameters] at h
    split at h
    · next found hfound =>
      split at h
      · next htext =>
        cases h
        exact ⟨members, rfl, hfound, htext⟩
      · cases h
    · cases h
  | _ => cases h

theorem mapTool_of_none {tool : Value} (h : walkedParameters text tool = none) : mapTool text tool = tool := by
  unfold mapTool
  rw [h]
  cases tool <;> rfl

/-- The parameters of a tool are stripped. -/
theorem mapTool_of_some {members parameters : Record}
    (h : walkedParameters text (.object members) = some parameters) : mapTool text (.object members) =
      .object (Record.set members parametersKey (.object (stripSchema (maxSchemaDepth + 1) parameters))) := by
  unfold mapTool
  rw [h]

/-- A tool that is walked within the depth is stripped. -/
theorem stripTool_does {tool : Value} (hdepth : ∀ parameters, walkedParameters text tool = some parameters →
      DepthWithin (maxSchemaDepth + 1) parameters) (place : ℕ) :
    Does (stripTool text place tool) (mapTool text tool) (toolCount text tool)
      (∀ parameters, walkedParameters text tool = some parameters → Clean (maxSchemaDepth + 1) parameters) := by
  cases hwalked : walkedParameters text tool with
  | none =>
    rw [mapTool_of_none hwalked, toolCount, hwalked]
    unfold stripTool
    rw [hwalked]
    cases tool <;> exact Does.done _ _
  | some parameters =>
    obtain ⟨members, rfl, -, -⟩ := walkedParameters_some hwalked
    rw [mapTool_of_some hwalked, toolCount, hwalked]
    unfold stripTool
    rw [hwalked]
    have hwalk := walk_does (lookaroundReason (toolName members place)) (maxSchemaDepth + 1) parameters
      (hdepth parameters hwalked) (asciiUnits "tools" ++ indexed place ++ asciiUnits ".parameters")
    refine Does.weaken (hwalk.ends fun walked => Value.object (Record.set members parametersKey (.object walked))) ?_
    intro hclean
    exact hclean parameters rfl

/-- The second pass walks at most what the first one walked, and finds it clean. -/
theorem walkedParameters_mapTool {tool : Value} {parameters : Record}
    (h : walkedParameters text (mapTool text tool) = some parameters) :
    ∃ before, walkedParameters text tool = some before ∧ parameters = stripSchema (maxSchemaDepth + 1) before := by
  cases hwalked : walkedParameters text tool with
  | none =>
    rw [mapTool_of_none hwalked, hwalked] at h
    cases h
  | some before =>
    obtain ⟨members, rfl, -, -⟩ := walkedParameters_some hwalked
    rw [mapTool_of_some hwalked] at h
    obtain ⟨later, hlater, hget, -⟩ := walkedParameters_some h
    cases hlater
    rw [Record.get_set_self] at hget
    cases hget
    exact ⟨before, rfl, rfl⟩

/-- A tool is stripped once and for all. -/
theorem mapTool_mapTool (tool : Value) : mapTool text (mapTool text tool) = mapTool text tool := by
  cases hagain : walkedParameters text (mapTool text tool) with
  | none => exact mapTool_of_none hagain
  | some parameters =>
    obtain ⟨before, hwalked, rfl⟩ := walkedParameters_mapTool hagain
    obtain ⟨members, rfl, -, -⟩ := walkedParameters_some hwalked
    rw [mapTool_of_some hwalked] at hagain ⊢
    rw [mapTool_of_some hagain, set_set, strip_of_clean (clean_strip _ before)]

/-- A stripped tool has no more subschemas. -/
theorem toolCount_mapTool (tool : Value) : toolCount text (mapTool text tool) ≤ toolCount text tool := by
  rw [toolCount]
  cases hagain : walkedParameters text (mapTool text tool) with
  | none => exact Nat.zero_le _
  | some parameters =>
    obtain ⟨before, hwalked, rfl⟩ := walkedParameters_mapTool hagain
    rw [toolCount, hwalked, Option.elim_some, Option.elim_some, count_strip]

/-- Stripped tools are within the bounds. -/
theorem withinBounds_mapTool {tools : List Value} (h : WithinBounds text tools) :
    WithinBounds text (tools.map (mapTool text)) := by
  refine ⟨?_, Nat.le_trans ?_ h.2⟩
  · intro tool hmem parameters hwalked
    obtain ⟨before, hbefore, rfl⟩ := List.mem_map.mp hmem
    obtain ⟨first, hfirst, rfl⟩ := walkedParameters_mapTool hwalked
    exact depth_strip (h.1 before hbefore first hfirst)
  · rw [List.map_map]
    exact List.sum_le_sum fun tool _ => toolCount_mapTool tool

/-- Within the bounds each tool is stripped, and where all are clean nothing is noticed. -/
theorem strip_tools {body : Record} {tools : List Value} (htools : body.get toolsKey = some (.array tools))
    (hbounds : WithinBounds text tools) : ∃ drops, stripLookaroundPatternsFromTools text body =
        .ok (body.set toolsKey (.array (tools.map (mapTool text))), drops) ∧
      ((∀ tool ∈ tools, ∀ parameters, walkedParameters text tool = some parameters →
        Clean (maxSchemaDepth + 1) parameters) → drops = []) := by
  have hdoes := Does.forEach tools (fun tool htool => stripTool_does (hbounds.1 tool htool)) 0
  obtain ⟨dropped, hrun, hsilent⟩ := hdoes {} (by rw [Nat.zero_add]; exact hbounds.2)
  refine ⟨dropped, ?_, hsilent⟩
  rw [stripLookaroundPatternsFromTools, htools]
  simp only [StateT.run, hrun]
  rfl

/-- What a schema position holds is written inside the schema. -/
theorem infix_schemaAt {schema target : Record} {address : Address} (h : SchemaAt schema address target) :
    stringify text (.object target) <:+: stringify text (.object schema) := by
  induction h with
  | here => exact List.infix_rfl
  | inside hvalue hheld _ ih =>
      exact ih.trans ((infix_held (mem_held hheld)).trans (infix_member (mem_of_lookup hvalue)))

/-- No schema position of a tool that went through has a pattern with a lookaround. -/
theorem dropsPattern_mapTool {tool : Value} {members parameters target : Record} {address : Address}
    (hdepth : ∀ parameters, walkedParameters text tool = some parameters → DepthWithin (maxSchemaDepth + 1) parameters)
    (htool : mapTool text tool = .object members) (hget : Record.get members parametersKey = some (.object parameters))
    (h : SchemaAt parameters address target) : dropsPattern target = false := by
  cases hwalked : walkedParameters text tool with
  | none =>
    rw [mapTool_of_none hwalked] at htool
    subst htool
    rw [walkedParameters, hget] at hwalked
    have htext : hasLookaround (stringify text (.object parameters)) = false := by
      by_contra hfound
      rw [Bool.not_eq_false] at hfound
      simp [hfound] at hwalked
    have htarget : hasLookaround (stringify text (.object target)) = false := by
      by_contra hfound
      rw [Bool.not_eq_false] at hfound
      rw [hasLookaround_mono (infix_schemaAt h) hfound] at htext
      cases htext
    exact (clean_of_text 1 htarget).1
  | some before =>
    obtain ⟨first, rfl, -, -⟩ := walkedParameters_some hwalked
    rw [mapTool_of_some hwalked] at htool
    cases htool
    rw [Record.get_set_self] at hget
    cases hget
    exact dropsPattern_of_clean (depth_strip (hdepth before hwalked)) (clean_strip _ before) h

/-- A schema position of the parameters of a tool has a pattern there that holds a lookaround. -/
def ToolDropped (tool : Value) (address : Address) : Prop :=
  ∃ members parameters rest, tool = .object members ∧ Record.get members parametersKey = some (.object parameters) ∧
    address = .key parametersKey :: rest ∧ Dropped parameters rest

/-- A stripped tool follows the tool. -/
theorem follows_mapTool (text : ℚ → Units) (tool : Value) : Follows (ToolDropped tool) tool (mapTool text tool) := by
  cases hwalked : walkedParameters text tool with
  | none =>
    rw [mapTool_of_none hwalked]
    exact Follows.refl _ _
  | some parameters =>
    obtain ⟨members, rfl, hget, -⟩ := walkedParameters_some hwalked
    rw [mapTool_of_some hwalked]
    apply (follows_set hget (follows_strip (maxSchemaDepth + 1) parameters)).mono
    rintro address ⟨rest, rfl, hdropped⟩
    exact ⟨members, parameters, rest, rfl, hget, rfl, hdropped⟩

/-- The address is that of the pattern of a schema position of the tools, and the pattern holds a lookaround. -/
def BodyDropped (body : Record) (address : Address) : Prop :=
  ∃ position target, ToolSchemaAt body position target ∧ dropsPattern target = true ∧
    address = position ++ [.key patternKey]

/-- Within the bounds on depth and number the tools are stripped: no schema position of the result has a pattern with
a lookaround; at every other address the result has what the body has; parameters without a lookaround are left
unchanged; and a second pass changes nothing and notices nothing. -/
theorem lookarounds_stripped (text : ℚ → Units) (body : Record) (tools : List Value)
    (htools : body.get toolsKey = some (.array tools)) (hbounds : WithinBounds text tools) :
    ∃ out drops, stripLookaroundPatternsFromTools text body = .ok (out, drops) ∧
      (∀ address target pattern, ToolSchemaAt out address target → target.get patternKey = some (.string pattern) →
        hasLookaround pattern = false) ∧
      Follows (BodyDropped body) (.object body) (.object out) ∧
      (∀ parameters, hasLookaround (stringify text (.object parameters)) = false →
        ∀ reason levels path state, DepthWithin levels parameters →
          state.nodes + schemaCount levels parameters ≤ maxSchemaNodes →
          walk reason levels parameters path state =
            .ok (parameters, { state with nodes := state.nodes + schemaCount levels parameters })) ∧
      stripLookaroundPatternsFromTools text out = .ok (out, []) := by
  obtain ⟨drops, hrun, -⟩ := strip_tools htools hbounds
  have hout : Record.get (body.set toolsKey (.array (tools.map (mapTool text)))) toolsKey =
      some (.array (tools.map (mapTool text))) := Record.get_set_self ..
  refine ⟨_, drops, hrun, ?_, ?_, ?_, ?_⟩
  · rintro address target pattern ⟨stripped, place, members, parameters, rest, hstripped, htool, hget, hat, -⟩ hpattern
    cases hout.symm.trans hstripped
    rw [List.getElem?_map] at htool
    obtain ⟨tool, hplace, hmap⟩ := Option.map_eq_some_iff.mp htool
    have hclean := dropsPattern_mapTool (hbounds.1 tool (List.mem_of_getElem? hplace)) hmap hget hat
    rw [dropsPattern, hpattern] at hclean
    exact hclean
  · apply (follows_set htools (follows_items tools (follows_mapTool text))).mono
    rintro address ⟨_, rfl, place, tool, _, hplace, rfl, members, parameters, _, rfl, hget, rfl, position, target, hat,
      hdrops, rfl⟩
    exact ⟨.key toolsKey :: .index place :: .key parametersKey :: position, target,
      ⟨tools, place, members, parameters, position, htools, hplace, hget, hat, rfl⟩, hdrops, rfl⟩
  · intro parameters htext reason levels path state hdepth hcount
    obtain ⟨dropped, hwalk, hsilent⟩ := walk_does reason levels parameters hdepth path state hcount
    have hclean := clean_of_text levels htext
    rw [hwalk, strip_of_clean hclean, hsilent hclean, List.append_nil]
  · obtain ⟨again, hagain, hsilent⟩ := strip_tools hout (withinBounds_mapTool hbounds)
    rw [hagain, set_set, List.map_map, hsilent]
    · congr 5
      funext tool
      exact mapTool_mapTool tool
    · intro tool hmem parameters hwalked
      obtain ⟨before, -, rfl⟩ := List.mem_map.mp hmem
      obtain ⟨first, -, rfl⟩ := walkedParameters_mapTool hwalked
      exact clean_strip _ first

/-- A body with one tool, of these parameters. -/
def toolBody (parameters : Record) : Record :=
  [(toolsKey, .array [.object [(parametersKey, .object parameters)]])]

/-- A property whose default has a member of the name, as data. -/
def dataDefault : Units × Value :=
  (asciiUnits "default", .object [(patternKey, .string (asciiUnits "(?=b)"))])

/-- Parameters with this property, and a property named by a pattern. -/
def propertyParameters (property : Record) : Record :=
  [(asciiUnits "properties", .object [(asciiUnits "a", .object property)]),
    (asciiUnits "patternProperties", .object
      [(asciiUnits "(?!x)", .object [(patternKey, .string (asciiUnits "^b"))])])]

/-- The pattern of the property goes; its data, the name with a lookaround and the plain pattern stay. -/
theorem lookarounds_stripped_one :
    let stripped := toolBody (propertyParameters [dataDefault])
    (∃ drops, stripLookaroundPatternsFromTools (fun _ => [])
        (toolBody (propertyParameters [(patternKey, .string (asciiUnits "(?=a)")), dataDefault])) =
          .ok (stripped, drops)) ∧
      stripLookaroundPatternsFromTools (fun _ => []) stripped = .ok (stripped, []) := by
  intro stripped
  have hbounds : WithinBounds (fun _ => []) [.object [(parametersKey,
      .object (propertyParameters [(patternKey, .string (asciiUnits "(?=a)")), dataDefault]))]] := by
    refine ⟨fun tool htool parameters hwalked sub hsub => ?_, by decide +kernel⟩
    rw [List.mem_singleton.mp htool] at hwalked
    obtain rfl := Option.some.inj hwalked
    have hleaf (leaf : Record) (hleaf : subschemas leaf = []) : DepthWithin maxSchemaDepth leaf := by
      intro sub hsub
      rw [hleaf] at hsub
      cases hsub
    rcases List.mem_cons.mp hsub with rfl | hsub
    · exact hleaf _ (by decide +kernel)
    · rw [List.mem_singleton.mp hsub]
      exact hleaf _ (by decide +kernel)
  obtain ⟨out, drops, hrun, -, -, -, hagain⟩ := lookarounds_stripped (fun _ => []) (toolBody _) _ rfl hbounds
  have hout : out = stripped := congrArg Prod.fst (Except.ok.inj hrun.symm)
  exact ⟨⟨drops, hout ▸ hrun⟩, hout ▸ hagain⟩

/-- A name of `patternProperties` with a lookaround stays, and a pattern with an escaped opener goes. -/
theorem name_stays_and_escape_goes :
    let named := toolBody [(asciiUnits "patternProperties", .object [(asciiUnits "(?=a)", .object [])])]
    let escaped := toolBody [(patternKey, .string (asciiUnits "\\(?=a"))]
    stripLookaroundPatternsFromTools (fun _ => []) named = .ok (named, []) ∧
      ∃ drops, stripLookaroundPatternsFromTools (fun _ => []) escaped = .ok (toolBody [], drops) :=
  ⟨rfl, _, rfl⟩

end Tools

end MultiAiRouter.Translate.Shared
