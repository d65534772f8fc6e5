import RmqttThings.Js.Objects

namespace RmqttThings.Schema

open Js

-- The fields of `JSONSchema` that the operations on its children use.
structure JSONSchema where
  properties : Option Object
  required : Option (List String)

namespace JSONSchema

-- `schema.properties ?? {}`.
def ownProperties (schema : JSONSchema) : Object := schema.properties.getD .empty

def entries (schema : JSONSchema) : List Entry := schema.ownProperties.own

def propertyKeys (schema : JSONSchema) : List String := schema.ownProperties.keys

def requiredFields (schema : JSONSchema) : List String := schema.required.getD []

end JSONSchema

-- `undefined` stands for the empty list.
def nonEmpty (fields : List String) :
    Option (List String) := if fields.length > 0 then some fields else none

inductive Direction where
  | up
  | down

def Direction.target : Direction → Nat → Option Nat
  | up, 0 => none
  | up, index + 1 => some index
  | down, index => some (index + 1)

def moveChild (schema : JSONSchema) (key : String) (direction : Direction) : JSONSchema :=
  match schema.entries.findIdx? (·.1 = key) with
  | none => schema
  | some index =>
      match direction.target index with
      | none => schema
      | some target =>
          if target ≥ schema.entries.length then schema
          else { schema with properties := some (.fromEntries (schema.entries.swap index target)) }

-- `Array.from(new Set(...))` keeps the first of each.
def updateRequired (schema : JSONSchema) (key : String) (required : Bool) : JSONSchema :=
  let nextRequired := if required then (schema.requiredFields ++ [key]).eraseDups
      else schema.requiredFields.filter (· ≠ key)
  { schema with required := nonEmpty nextRequired }

-- The options of the list are the keys of the properties.
def selectRequired (schema : JSONSchema) (chosen : List String) : JSONSchema :=
  { schema with required := nonEmpty (schema.propertyKeys.filter (chosen.contains ·)) }

def newName (schema : JSONSchema) : String := "field" ++ toString (schema.propertyKeys.length + 1)

def addChild (schema : JSONSchema) : JSONSchema :=
  { schema with
    properties := some (schema.ownProperties.spread.define (newName schema,
      .object [("type", .string "string")])) }

def renamed (key nextKey name : String) : String := if name = key then nextKey else name

-- `onKeyChange`.
def renameChild (schema : JSONSchema) (key newKey : String) : JSONSchema :=
  let nextKey := trim newKey
  if nextKey = "" ∨ nextKey = key then schema
  else
    let newEntries := schema.ownProperties.forIn.map fun entry => (renamed key nextKey entry.1,
        entry.2)
    { schema with
      properties := some (Object.empty.assignAll newEntries)
      required := schema.required.map (·.map (renamed key nextKey)) }

-- `onRemove`.
def removeChild (schema : JSONSchema) (key : String) : JSONSchema where
  properties := some (schema.ownProperties.spread.delete key)
  required := schema.required.bind fun fields => nonEmpty (fields.filter (· ≠ key))

inductive ChildOperation where
  | add
  | rename (key newKey : String)
  | remove (key : String)
  | move (key : String) (direction : Direction)
  | setRequired (key : String) (required : Bool)
  | selectRequired (chosen : List String)

namespace ChildOperation

def apply : ChildOperation → JSONSchema → JSONSchema
  | add, schema => addChild schema
  | rename key newKey, schema => renameChild schema key newKey
  | remove key, schema => removeChild schema key
  | move key direction, schema => moveChild schema key direction
  | setRequired key required, schema => updateRequired schema key required
  | selectRequired chosen, schema => Schema.selectRequired schema chosen

-- Each property of the object has a field editor, whose buttons and inputs are these operations.
def Offered : ChildOperation → JSONSchema → Prop
  | add, _ => True
  | rename key _, schema => key ∈ schema.propertyKeys
  | remove key, schema => key ∈ schema.propertyKeys
  | move key _, schema => key ∈ schema.propertyKeys
  | setRequired key _, schema => key ∈ schema.propertyKeys
  | selectRequired _, _ => True

end ChildOperation

end RmqttThings.Schema
