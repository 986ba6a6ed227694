import Mathlib.Data.Option.Basic
import MultiAiRouter.Translate.Shared.SchemaLookarounds

/-!
# What the lookaround walk makes of the tools

A walk within its bounds strips the schema: at each schema position the pattern goes if it holds a lookaround, and
nothing else changes. What is clean is not changed, and a schema whose text holds no lookaround is clean.
-/

namespace MultiAiRouter.Translate.Shared

open Common Common.Json

section Does

/-- Within the bound the walk ends with the value, having counted so many subschemas; where it is silent nothing is
noticed. -/
def Does {A : Type} (action : Walk A) (value : A) (nodes : ℕ) (silent : Prop) : Prop :=
  ∀ state : WalkState, state.nodes + nodes ≤ maxSchemaNodes →
    ∃ dropped, action state = .ok (value, { nodes := state.nodes + nodes, drops := state.drops ++ dropped }) ∧
      (silent → dropped = [])

variable {A B : Type} {action : Walk A} {value : A} {nodes more : ℕ} {silent quiet : Prop}

/-- A value costs nothing. -/
theorem Does.done (value : A) (silent : Prop) : Does (pure value : Walk A) value 0 silent := by
  intro state _
  exact ⟨[], by rw [List.append_nil]; rfl, fun _ => rfl⟩

/-- One walk after another. -/
theorem Does.bind {next : A → Walk B} {result : B} (h : Does action value nodes silent)
    (hnext : Does (next value) result more quiet) : Does (action >>= next) result (nodes + more) (silent ∧ quiet) := by
  intro state hbound
  obtain ⟨dropped, hrun, hsilent⟩ := h state (by omega)
  obtain ⟨later, hlater, hquiet⟩ :=
    hnext { nodes := state.nodes + nodes, drops := state.drops ++ dropped } (by simp only; omega)
  refine ⟨dropped ++ later, ?_, fun hboth => by rw [hsilent hboth.1, hquiet hboth.2]; rfl⟩
  simp only [Bind.bind, StateT.bind, hrun, Except.bind, hlater, Nat.add_assoc, List.append_assoc]

/-- A mapped walk. -/
theorem Does.map (f : A → B) (h : Does action value nodes silent) : Does (f <$> action) (f value) nodes silent := by
  intro state hbound
  obtain ⟨dropped, hrun, hsilent⟩ := h state hbound
  refine ⟨dropped, ?_, hsilent⟩
  simp only [Functor.map, StateT.map, Bind.bind, hrun, Except.bind]
  rfl

/-- A value that is returned after the action. -/
theorem Does.ends (f : A → B) (h : Does action value nodes silent) :
    Does (action >>= fun found => pure (f found)) (f value) nodes silent := by
  intro state hbound
  obtain ⟨dropped, hrun, hsilent⟩ := h state hbound
  refine ⟨dropped, ?_, hsilent⟩
  simp only [Bind.bind, StateT.bind, hrun, Except.bind]
  rfl

theorem Does.weaken (h : Does action value nodes silent) (hquiet : quiet → silent) : Does action value nodes quiet := by
  intro state hbound
  obtain ⟨dropped, hrun, hsilent⟩ := h state hbound
  exact ⟨dropped, hrun, fun h => hsilent (hquiet h)⟩

/-- What is done for each entry is done for the list. -/
theorem Does.forEach {visit : ℕ → A → Walk B} {make : A → B} {count : A → ℕ} {clean : A → Prop} (entries : List A)
    (h : ∀ entry ∈ entries, ∀ place, Does (visit place entry) (make entry) (count entry) (clean entry)) (place : ℕ) :
    Does (forEach visit place entries) (entries.map make) (entries.map count).sum (∀ entry ∈ entries, clean entry) := by
  induction entries generalizing place with
  | nil => exact Does.done [] _
  | cons entry rest ih =>
    have hfirst := h entry (List.mem_cons_self ..) place
    have hrest := ih (fun other hother => h other (.tail _ hother)) (place + 1)
    rw [List.map_cons, List.map_cons, List.sum_cons, Shared.forEach]
    refine Does.weaken (hfirst.bind (hrest.ends (make entry :: ·))) ?_
    intro hall
    exact ⟨hall entry (List.mem_cons_self ..), fun other hother => hall other (.tail _ hother)⟩

end Does

section Strip

/-- An object made of its subschema; what is no object is left. -/
def mapObject (strip : Record → Record) : Value → Value
  | .object sub => .object (strip sub)
  | other => other

/-- The value of a keyword with its subschemas stripped. -/
def mapKeyword (strip : Record → Record) (keyword : Units) : Value → Value
  | .object members =>
    if .single ∈ shapesOf keyword then .object (strip members)
    else if .map ∈ shapesOf keyword then .object (members.map fun member => (member.1, mapObject strip member.2))
    else .object members
  | .array items => if .array ∈ shapesOf keyword then .array (items.map (mapObject strip)) else .array items
  | other => other

/-- The members of a schema with the subschemas of each stripped. -/
def mapMembers (strip : Record → Record) (schema : Record) : Record :=
  schema.map fun member => (member.1, mapKeyword strip member.1 member.2)

/-- A schema without the patterns that hold a lookaround, on so many levels. -/
def stripSchema : ℕ → Record → Record
  | 0, schema => schema
  | levels + 1, schema =>
    if dropsPattern schema then Record.delete (mapMembers (stripSchema levels) schema) patternKey
    else mapMembers (stripSchema levels) schema

/-- No pattern on so many levels holds a lookaround. -/
def Clean : ℕ → Record → Prop
  | 0, _ => True
  | levels + 1, schema => dropsPattern schema = false ∧ ∀ sub ∈ subschemas schema, Clean levels sub

/-- What is filtered out counts nothing. -/
theorem sum_filterMap {A : Type} (part : A → Option Record) (count : Record → ℕ) (entries : List A) :
    ((entries.filterMap part).map count).sum = (entries.map fun entry => (part entry).elim 0 count).sum := by
  induction entries with
  | nil => rfl
  | cons entry rest ih =>
    rw [List.map_cons, List.sum_cons, ← ih]
    cases hpart : part entry with
    | none => rw [List.filterMap_cons_none hpart, Option.elim_none, Nat.zero_add]
    | some sub => rw [List.filterMap_cons_some hpart, List.map_cons, List.sum_cons, Option.elim_some]

variable {visit : Record → Units → Walk Record} {strip : Record → Record} {count : Record → ℕ} {clean : Record → Prop}

/-- A walk of an object does what it does to the record. -/
theorem walkObject_does {value : Value}
    (h : ∀ sub, value.asRecord = some sub → ∀ path, Does (visit sub path) (strip sub) (count sub) (clean sub))
    (path : Units) : Does (walkObject visit path value) (mapObject strip value) (value.asRecord.elim 0 count)
      (∀ sub, value.asRecord = some sub → clean sub) := by
  cases value with
  | object sub =>
    apply Does.weaken ((h sub rfl path).map Value.object)
    intro hclean
    exact hclean sub rfl
  | _ => exact Does.done _ _

/-- The walk of a keyword strips what it holds. -/
theorem walkKeyword_does {keyword : Units} {value : Value}
    (h : ∀ sub ∈ held keyword value, ∀ path, Does (visit sub path) (strip sub) (count sub) (clean sub))
    (path : Units) : Does (walkKeyword visit keyword value path) (mapKeyword strip keyword value)
      ((held keyword value).map count).sum (∀ sub ∈ held keyword value, clean sub) := by
  cases value with
  | object members =>
    rw [walkKeyword, mapKeyword, held] at *
    by_cases hsingle : Shape.single ∈ shapesOf keyword
    · simp only [if_pos hsingle, List.mem_singleton, forall_eq] at h ⊢
      rw [List.map_singleton, List.sum_singleton]
      exact (h _).map Value.object
    · by_cases hmap : Shape.map ∈ shapesOf keyword
      · simp only [if_neg hsingle, if_pos hmap] at h ⊢
        rw [sum_filterMap]
        have hentry (member : Units × Value) (hmember : member ∈ members) (place : ℕ) :=
          (walkObject_does (fun sub hsub => h sub (List.mem_filterMap.mpr ⟨member, hmember, hsub⟩))
            (path ++ asciiUnits "." ++ mapSegment keyword member.1 place)).map (member.1, ·)
        apply Does.weaken ((Does.forEach members hentry 0).map Value.object)
        intro hclean member hmember sub hsub
        exact hclean sub (List.mem_filterMap.mpr ⟨member, hmember, hsub⟩)
      · simp only [if_neg hsingle, if_neg hmap]
        exact Does.done _ _
  | array items =>
    rw [walkKeyword, mapKeyword, held] at *
    by_cases harray : Shape.array ∈ shapesOf keyword
    · simp only [if_pos harray] at h ⊢
      rw [sum_filterMap]
      have hitem (item : Value) (hitem : item ∈ items) (place : ℕ) :=
        walkObject_does (fun sub hsub => h sub (List.mem_filterMap.mpr ⟨item, hitem, hsub⟩))
          (path ++ asciiUnits "." ++ keyword ++ indexed place)
      apply Does.weaken ((Does.forEach items hitem 0).map Value.array)
      intro hclean item hmem sub hsub
      exact hclean sub (List.mem_filterMap.mpr ⟨item, hmem, hsub⟩)
    · simp only [if_neg harray]
      exact Does.done _ _
  | _ => exact Does.done _ _

/-- A node counts once. -/
theorem countNode_does (path : Units) : Does (countNode path) () 1 True := by
  intro state hbound
  refine ⟨[], ?_, fun _ => rfl⟩
  have hroom : ¬ maxSchemaNodes < state.nodes + 1 := by omega
  simp only [countNode, Bind.bind, StateT.bind, get, getThe, MonadStateOf.get, StateT.get, pure, Except.pure,
    Except.bind, if_neg hroom, List.append_nil]
  rfl

/-- A notice counts no subschema. -/
theorem Does.afterDrop {A : Type} {next : Walk A} {value : A} {nodes : ℕ} {silent : Prop} (drop : Drop)
    (h : Does next value nodes silent) : Does (onDrop drop >>= fun _ => next) value nodes False := by
  intro state hbound
  obtain ⟨dropped, hrun, -⟩ := h { state with drops := state.drops ++ [drop] } hbound
  refine ⟨drop :: dropped, ?_, False.elim⟩
  rw [List.append_cons]
  exact hrun

/-- A walk within its bounds strips the schema, and gives no notice for a clean one. -/
theorem walk_does (reason : Units) (levels : ℕ) (schema : Record) (hdepth : DepthWithin levels schema) (path : Units) :
    Does (walk reason levels schema path) (stripSchema levels schema) (schemaCount levels schema)
      (Clean levels schema) := by
  induction levels generalizing schema path with
  | zero => exact hdepth.elim
  | succ levels ih =>
    have hmember (member : Units × Value) (hmember : member ∈ schema) (place : ℕ) :=
      (walkKeyword_does (fun sub hsub => ih sub (hdepth sub (List.mem_flatMap.mpr ⟨member, hmember, hsub⟩)))
        path).map (member.1, ·)
    have hmembers := Does.forEach schema hmember 0
    have hcount : (schema.map fun member => ((held member.1 member.2).map (schemaCount levels)).sum).sum =
        ((subschemas schema).map (schemaCount levels)).sum := by
      rw [subschemas, List.flatMap, List.map_flatten, List.sum_flatten, List.map_map, List.map_map]
      rfl
    rw [hcount] at hmembers
    have hbelow (hclean : Clean (levels + 1) schema) : ∀ member ∈ schema, ∀ sub ∈ held member.1 member.2,
        Clean levels sub :=
      fun member hmember sub hsub => hclean.2 sub (List.mem_flatMap.mpr ⟨member, hmember, hsub⟩)
    rw [walk, stripSchema, schemaCount]
    cases hdrops : dropsPattern schema with
    | false =>
      refine Does.weaken ((countNode_does path).bind (hmembers.ends id)) ?_
      intro hclean
      exact ⟨trivial, hbelow hclean⟩
    | true =>
      have hend := Does.afterDrop { field := path ++ asciiUnits ".pattern", reason }
        (hmembers.ends (Record.delete · patternKey))
      refine Does.weaken ((countNode_does path).bind hend) ?_
      intro hclean
      rw [Clean, hdrops] at hclean
      cases hclean.1

end Strip

end MultiAiRouter.Translate.Shared
