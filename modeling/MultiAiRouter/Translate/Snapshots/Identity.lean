import MultiAiRouter.Common.InsertionMap
import MultiAiRouter.Translate.Anthropic.ResponsesStream

/-!
# Which item an event of a Responses stream belongs to

An item is named by its id, by its place in the output, or by both, and the two names come in any order. A table
gives each name to one identity: a new name beside one that is known is added to it, and two names that are known
apart, or an index that names two ids, are an error. The stage puts an id of its own in place of the upstream's,
within a limit.

Numbers as text and JSON as text are parameters.
-/

namespace MultiAiRouter.Translate.Snapshots

open Common Translate.Anthropic

/-- How a template writes a number, and how a value is written as JSON. -/
structure JsonText where
  numberText : Number → Units
  stringify : Value → Units

/-- A name of an item. -/
inductive ItemAlias
  | byId (id : Units)
  | byIndex (index : Units)
  deriving DecidableEq

namespace ItemAlias

/-- The name as it is kept. -/
def text : ItemAlias → Units
  | .byId id => asciiUnits "id:" ++ id
  | .byIndex index => asciiUnits "index:" ++ index

/-- What a name is charged with. -/
def charge (name : ItemAlias) : Nat := utf8Length name.text + 128

end ItemAlias

/-- The names an event states. -/
def namesOf (id index : Option Units) : List ItemAlias :=
  (id.map ItemAlias.byId).toList ++ (index.map ItemAlias.byIndex).toList

/-- An item: its key, and the id it was stated with, once it was. -/
structure ItemIdentity where
  key : Units
  id : Option Units
  deriving DecidableEq

/-- The identities that were made, and the one each name stands for. -/
structure AliasTable where
  identities : List ItemIdentity := []
  aliases : InsertionMap ItemAlias Nat := {}

namespace AliasTable

/-- The identity that the names of an event stand for, if one is known. -/
def find (table : AliasTable) (id index : Option Units) : Except Units (Option Nat) :=
  let byId := id.bind fun id => table.aliases.get (.byId id)
  let byIndex := index.bind fun index => table.aliases.get (.byIndex index)
  if byId.isSome && byIndex.isSome && byId != byIndex then .error (asciiUnits "Responses item identities disagree")
  else
    let known := ((byId.or byIndex).bind fun place => table.identities[place]?).bind ItemIdentity.id
    if id.isSome && known.isSome && id != known then
      .error (asciiUnits "Responses output index names two different items")
    else .ok (byId.or byIndex)

/-- The known identity with the id it may have lacked, or a new one. -/
def claim (table : AliasTable) (found : Option Nat) (key : Units) (id : Option Units) : AliasTable × Nat :=
  match found with
  | some place =>
    ({ table with identities := table.identities.modify place fun identity =>
        { identity with id := identity.id.or id } }, place)
  | none => ({ table with identities := table.identities ++ [{ key, id }] }, table.identities.length)

/-- Give a name to an identity. -/
def give (place : Nat) (table : AliasTable) (name : ItemAlias) : AliasTable :=
  { table with aliases := table.aliases.set name place }

/-- The key of an identity. -/
def keyOf (table : AliasTable) (place : Nat) : Units := ((table.identities[place]?).map ItemIdentity.key).getD []

/-- The names of an event that are not known yet. -/
def missing (table : AliasTable) (id index : Option Units) : List ItemAlias :=
  (namesOf id index).filter fun name => (table.aliases.get name).isNone

end AliasTable

/-- Why a stage refuses an event. -/
structure StageError where
  message : Units
  overflow : Bool
  deriving DecidableEq

/-- The error as the emitter is given it. -/
def StageError.detail (error : StageError) : Value :=
  .object [(asciiUnits "message", .string error.message), (asciiUnits "code", .string (asciiUnits
    (if error.overflow then "translation_pending_overflow" else "translation_protocol_error")))]

/-- The events that state text or arguments. -/
def fragmentTypes : List Units :=
  ["response.output_text.delta", "response.output_text.done", "response.refusal.delta", "response.refusal.done",
    "response.function_call_arguments.delta", "response.function_call_arguments.done"].map asciiUnits

/-- The events that concern an item. -/
def itemTypes : List Units :=
  ["response.output_item.added", "response.output_item.done"].map asciiUnits ++ fragmentTypes

/-- The place in the output, as a template writes it. -/
def indexText (json : JsonText) (event : Record) : Option Units :=
  match event.get (asciiUnits "output_index") with
  | some (.number number) => some (json.numberText number)
  | _ => none

/-- What the identity stage keeps. -/
structure IdentityState where
  limit : Nat
  table : AliasTable := {}
  retained : Nat := 0
  next : Nat := 0
  unkeyedCall : Option Units := none

/-- The item of an event, where it is an object. -/
def eventItem (event : Record) : Option Record := (event.get (asciiUnits "item")).bind Value.asRecord

/-- The id that an event states: its item's, or else its own; only a text is one. -/
def statedId (event : Record) : Option Units :=
  (((eventItem event).bind fun item => presentField item "id").or (presentField event "item_id")).bind Value.asString

/-- The event under the identity's key. -/
def keyedEvent (event : Record) (key : Units) : Record :=
  match eventItem event with
  | none => event.set (asciiUnits "item_id") (.string key)
  | some item =>
    let keyed := item.set (asciiUnits "id") (.string key)
    let call := if textField item "type" = some (asciiUnits "function_call") then
        keyed.set (asciiUnits "call_id") (((presentField item "call_id").or (presentField item "id")).getD (.string []))
      else keyed
    event.set (asciiUnits "item") (.object call)

/-- The identity stage. -/
def resolveIdentity (json : JsonText) (state : IdentityState) (event : Record) :
    IdentityState × Except StageError Record :=
  match textField event "type" with
  | none => (state, .ok event)
  | some type =>
    if type ∉ itemTypes then (state, .ok event)
    else
      let id := statedId event
      let index := indexText json event
      if id.isNone && index.isNone && type != asciiUnits "response.output_item.added" then
        match state.unkeyedCall.filter fun _ => (asciiUnits "response.function_call_arguments.").isPrefixOf type with
        | some call => (state, .ok (event.set (asciiUnits "item_id") (.string call)))
        | none => (state, .ok event)
      else
        match state.table.find id index with
        | .error message => (state, .error { message, overflow := false })
        | .ok found =>
          let missing := state.table.missing id index
          let charge := (missing.map ItemAlias.charge).sum + (if found.isNone then 128 else 0)
          if state.limit < state.retained + charge then
            (state, .error
              { message := asciiUnits "Translation identity state exceeds its configured limit", overflow := true })
          else
            let claimed := state.table.claim found (asciiUnits "router-item-" ++ decimal state.next) id
            let key := claimed.1.keyOf claimed.2
            ({ state with
                table := missing.foldl (AliasTable.give claimed.2) claimed.1
                retained := state.retained + charge
                next := if found.isNone then state.next + 1 else state.next
                unkeyedCall :=
                  if id.isNone && index.isNone &&
                      ((eventItem event).bind fun item => textField item "type") == some (asciiUnits "function_call")
                    then some key else state.unkeyedCall },
              .ok (keyedEvent event key))

/-- A place or a part: absent, or a whole number from zero. -/
def validIndex (event : Record) (name : String) : Bool :=
  match presentField event name with
  | none => true
  | some value => (integer value).any fun index => 0 ≤ index

/-- Text and arguments come under well-formed names. -/
def validResponsesTextIdentity (payload : Value) (fallbackType : Option Units) : Bool :=
  match payload with
  | .object event =>
    let type := match Record.get event (asciiUnits "type") with
      | some value => value.asString
      | none => fallbackType
    match type with
    | none => true
    | some type =>
      !fragmentTypes.contains type ||
        (validIndex event "output_index" && validIndex event "content_index" &&
          match presentField event "item_id" with
          | none => true
          | some value => value.asString.isSome)
  | _ => true

section FinalEvents

/-- The members that name the item of a final event. -/
def finalIdentity (event item : Record) : Record :=
  (item.get (asciiUnits "id")).toList.map (fun id => (asciiUnits "item_id", id)) ++
    (event.get (asciiUnits "output_index")).toList.map fun index => (asciiUnits "output_index", index)

/-- The event of a part of a final message. -/
def finalPart (identity : Record) (part : Value) (contentIndex : Nat) : List Value :=
  let named := identity ++ [(asciiUnits "content_index", .number (.finite contentIndex))]
  match part with
  | .object fields =>
    if textField fields "type" = some (asciiUnits "output_text") ∧ (textField fields "text").isSome then
      [.object (named ++ [(asciiUnits "type", .string (asciiUnits "response.output_text.done")),
        (asciiUnits "text", .string ((textField fields "text").getD []))])]
    else if textField fields "type" = some (asciiUnits "refusal") ∧ (textField fields "refusal").isSome then
      [.object (named ++ [(asciiUnits "type", .string (asciiUnits "response.refusal.done")),
        (asciiUnits "refusal", .string ((textField fields "refusal").getD []))])]
    else []
  | _ => []

/-- The members of an object; an array has none of these names. -/
def objectFields : Value → Option Record
  | .object fields => some fields
  | .array _ => some []
  | _ => none

/-- The events of an item that is announced or done: a call with its arguments, a message part by part. A final
item that names neither id nor place is dropped. -/
def responsesFinalEvents (payload : Value) : List Value :=
  match payload with
  | .object event =>
    let type := textField event "type"
    let isDone := type == some (asciiUnits "response.output_item.done")
    if !isDone && type != some (asciiUnits "response.output_item.added") then [payload]
    else
      match (Record.get event (asciiUnits "item")).bind objectFields with
      | some item =>
        if isDone && (presentField item "id").isNone && (presentField event "output_index").isNone then []
        else
          let identity := finalIdentity event item
          if textField item "type" = some (asciiUnits "function_call") then
            let added := Value.object
              (Record.set event (asciiUnits "type") (.string (asciiUnits "response.output_item.added")))
            match (textField item "arguments").filter fun arguments => isDone || !arguments.isEmpty with
            | none => if isDone then [added, payload] else [added]
            | some arguments =>
              if isDone then
                [added, .object (identity ++
                  [(asciiUnits "type", .string (asciiUnits "response.function_call_arguments.done")),
                    (asciiUnits "arguments", .string arguments)]), payload]
              else
                [added, .object (identity ++
                  [(asciiUnits "type", .string (asciiUnits "response.function_call_arguments.delta")),
                    (asciiUnits "delta", .string arguments)])]
          else
            match textField item "type", item.get (asciiUnits "content") with
            | some type, some (.array content) =>
              if isDone && type = asciiUnits "message" then
                content.zipIdx.flatMap fun part => finalPart identity part.1 part.2
              else [payload]
            | _, _ => [payload]
      | none => [payload]
  | _ => [payload]

end FinalEvents

end MultiAiRouter.Translate.Snapshots
