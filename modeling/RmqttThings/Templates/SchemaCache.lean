import RmqttThings.Access.Identity
import RmqttThings.Effects.Pool
import RmqttThings.Templates.Table

namespace RmqttThings.Templates

open Effects
open Api (ApiError)
open Commands (extractAndValidateProductId validateIdentifier)
open Access (extractEventIdentifierFromTopic)

namespace TemplateTable

-- The row of this id, if it is Active for the product and the event.
def activeRow (table : TemplateTable) (key : String × String) (id : Nat) :
    Option EventValidTemplate :=
  (table.rows id).filter fun row => row.status == .active && row.key == key

-- `SELECT … WHERE product_id = $1 AND event = $2 AND status = $3`, and at most one row of it.
def activeTemplate (table : TemplateTable) (key : String × String) : Option EventValidTemplate :=
  (List.range table.nextId).findSome? (table.activeRow key)

end TemplateTable

def activeTemplateSchemaErr : String := "Cannot update schema of active template"

-- A call with its answer: the number of rows, or the id of a new one.
def Request.exec (request : Request) (table : TemplateTable) : Except String Nat × TemplateTable :=
  match request with
  | .insert productId event description schema =>
      (.ok table.nextId, table.insert ⟨productId, event, description, schema, .draft⟩)
  | .updateStatus id status =>
      match table.rows id with
      | none => (.ok 0, table)
      | some _ => (.ok 1, table.updateStatus id status)
  | .update id schema description =>
      match table.rows id with
      | none => (.ok 0, table)
      | some row =>
          if schema.isNone && description.isNone then (.ok 0, table)
          else if schema.isSome ∧ row.status = .active then (.error activeTemplateSchemaErr, table)
          else (.ok 1, table.modify id (·.withContent schema description))
  | .delete id =>
      match table.rows id with
      | none => (.ok 0, table)
      | some _ => (.ok 1, table.erase id)

inductive Op where
  | cacheGet (key : String)
  | cacheSet (key : String) (schema : Json)
  | cacheRemove (key : String)
  | getActive (productId event : String)
  | getById (id : Nat)
  | write (request : Request)

def Op.Ans : Op → Type
  | .cacheGet _ => Except String (Option Json)
  | .cacheSet _ _ => Except String Unit
  | .cacheRemove _ => Except String Unit
  | .getActive _ _ => Except String (Option EventValidTemplate)
  | .getById _ => Except String (Option EventValidTemplate)
  | .write _ => Except String Nat

-- The n-th operation from here on fails with the n-th fault, if there is one. A call that
-- fails has left the table alone.
structure SchemaWorld where
  templates : TemplateTable
  cache : String → Option Json
  faults : Nat → Option String

def Op.exec (world : SchemaWorld) : (op : Op) → op.Ans × SchemaWorld
  | .cacheGet key => (.ok (world.cache key), world)
  | .cacheSet key schema =>
      (.ok (), { world with cache := Function.update world.cache key (some schema) })
  | .cacheRemove key => (.ok (), { world with cache := Function.update world.cache key none })
  | .getActive productId event => (.ok (world.templates.activeTemplate (productId, event)), world)
  | .getById id => (.ok (world.templates.rows id), world)
  | .write request =>
      ((request.exec world.templates).1,
        { world with templates := (request.exec world.templates).2 })

def Op.failed (message : String) : (op : Op) → op.Ans
  | .cacheGet _ | .cacheSet _ _ | .cacheRemove _ | .getActive _ _ | .getById _ | .write _ =>
      .error message

def sem (op : Op) (world : SchemaWorld) : op.Ans × SchemaWorld :=
  let rest := { world with faults := fun n => world.faults (n + 1) }
  match world.faults 0 with
  | some message => (op.failed message, rest)
  | none => op.exec rest

abbrev M := Prog Op.Ans

def cacheGet (key : String) : M (Except String (Option Json)) := Prog.perform (Op.cacheGet key)
def cacheSet (key : String) (schema : Json) : M (Except String Unit) :=
  Prog.perform (Op.cacheSet key schema)
def cacheRemove (key : String) : M (Except String Unit) := Prog.perform (Op.cacheRemove key)
def getEventValidTemplate (productId event : String) :
    M (Except String (Option EventValidTemplate)) :=
  Prog.perform (Op.getActive productId event)
def getEventValidTemplateById (id : Nat) : M (Except String (Option EventValidTemplate)) :=
  Prog.perform (Op.getById id)
def write (request : Request) : M (Except String Nat) := Prog.perform (Op.write request)

inductive Reply where
  -- the schema that the values of the post are checked against
  | checked (schema : Option Json)
  | ok
  | created
  | error (error : ApiError)

def databaseError : ApiError := .internal "Database operation failed"

def eventCacheKey (productId event : String) : String := "event:" ++ productId ++ ":" ++ event

-- The key in the cache for a product and an event.
def cacheKey (key : String × String) :
    String := if key.2 == "property" then key.1 else eventCacheKey key.1 key.2

section Handlers

-- The `jsonschema` crate: whether a schema compiles, and the check of a schema as such.
variable (compiles : Json → Bool) (metaValidate : Json → Except String Unit)

-- The cache first, then the database. What comes after a miss is put into the cache by a task
-- of its own, which nobody waits for: it is the last thing here. The rest of a request
-- touches neither the templates nor the cache.
def loadSchema (key productId event : String) : M Reply := do
  match ← cacheGet key with
  | .error _ => return .error (.internal "Cache error")
  | .ok (some schema) =>
      if compiles schema then return .checked (some schema)
      else return .error (.internal "Schema compilation failed")
  | .ok none =>
      match ← getEventValidTemplate productId event with
      | .error _ => return .error databaseError
      | .ok none => return .checked none
      | .ok (some template) =>
          if compiles template.schema then
            let _ ← cacheSet key template.schema
            return .checked (some template.schema)
          else return .error (.internal "Schema compilation failed")

def propertyPost (topic : String) : M Reply :=
  match extractAndValidateProductId topic with
  | .error error => return .error error
  | .ok productId => loadSchema compiles productId productId "property"

def loadEventValidator (productId event : String) : M Reply :=
  loadSchema compiles (eventCacheKey productId event) productId event

def eventPost (topic : String) : M Reply :=
  match extractEventIdentifierFromTopic topic with
  | none =>
      match extractAndValidateProductId topic with
      | .error error => return .error error
      | .ok _ => return .checked none
  | some event =>
      if event = "property" then propertyPost compiles topic
      else
        match extractAndValidateProductId topic with
        | .error error => return .error error
        | .ok productId => loadEventValidator compiles productId event

-- An error of the cache is only logged.
def invalidate (template : Option EventValidTemplate) : M Unit :=
  match template with
  | none => return ()
  | some template => do
      let _ ← cacheRemove (cacheKey template.key)
      return ()

-- The end that the handlers of a change share.
def writeTemplate (template : Option EventValidTemplate) (request : Request)
    (failure : String → ApiError) (missing : ApiError) : M Reply := do
  match ← write request with
  | .error message => return .error (failure message)
  | .ok rowsAffected =>
      if 0 < rowsAffected then
        invalidate template
        return .ok
      else return .error missing

def updateEventValidTemplateStatus (id : Nat) (status : EventValidTemplateStatus) : M Reply := do
  match ← getEventValidTemplateById id with
  | .error _ => return .error databaseError
  | .ok template =>
      writeTemplate template (.updateStatus id status) (fun _ => databaseError)
        (.notFound "Template not found")

def invalidSchema (message : String) : ApiError := .badRequest ("Invalid JSON schema: " ++ message)

def contains (text pattern : String) : Bool :=
  text.toList.tails.any fun rest => pattern.toList.isPrefixOf rest

def updateError (message : String) : ApiError :=
  if contains message activeTemplateSchemaErr then .badRequest message else databaseError

def updateEventValidTemplate (id : Nat) (schema : Option Json) (description : Option String) :
    M Reply := do
  match ← getEventValidTemplateById id with
  | .error _ => return .error databaseError
  | .ok template =>
      match schema.elim (.ok ()) metaValidate with
      | .error message => return .error (invalidSchema message)
      | .ok _ =>
          writeTemplate template (.update id schema description) updateError
            (.notFound "Template not found or cannot be updated")

def deleteEventValidTemplate (id : Nat) : M Reply := do
  match ← getEventValidTemplateById id with
  | .error _ => return .error databaseError
  | .ok template =>
      writeTemplate template (.delete id) (fun _ => databaseError) (.notFound "Template not found")

def createEventValidTemplate (productId event : String) (description : Option String)
    (schema : Json) : M Reply :=
  match validateIdentifier productId "product_id" with
  | .error error => return .error error
  | .ok _ =>
      match metaValidate schema with
      | .error message => return .error (invalidSchema message)
      | .ok _ => do
          match ← write (.insert productId event description schema) with
          | .error _ => return .error databaseError
          | .ok _ => return .created

inductive Call where
  | propertyPost (topic : String)
  | eventPost (topic : String)
  | create (productId event : String) (description : Option String) (schema : Json)
  | updateStatus (id : Nat) (status : EventValidTemplateStatus)
  | update (id : Nat) (schema : Option Json) (description : Option String)
  | delete (id : Nat)

def serve : Call → M Reply
  | .propertyPost topic => propertyPost compiles topic
  | .eventPost topic => eventPost compiles topic
  | .create productId event description schema =>
      createEventValidTemplate metaValidate productId event description schema
  | .updateStatus id status => updateEventValidTemplateStatus id status
  | .update id schema description => updateEventValidTemplate metaValidate id schema description
  | .delete id => deleteEventValidTemplate id

end Handlers

abbrev Served := Pool SchemaWorld Call Op.Ans Reply

-- Any number of requests, in any order of their operations.
def served (compiles : Json → Bool) (metaValidate : Json → Except String Unit)
    (moves : List (Move Call)) (start : SchemaWorld) : Served :=
  Pool.play sem (serve compiles metaValidate) moves start

end RmqttThings.Templates
