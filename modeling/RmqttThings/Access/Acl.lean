import RmqttThings.Commands.Topics
import RmqttThings.Time

namespace RmqttThings.Access

open Commands (segments parseI64)

inductive Decision where
  | allow
  | deny
  deriving DecidableEq

-- `strip_prefix('/').unwrap_or(topic)`: one slash, if there is one.
def stripSlash (topic : String) : String :=
  match topic.toList with
  | '/' :: rest => String.ofList rest
  | _ => topic

def thingSegment (segment : String) : Bool :=
  segment == "event" || segment == "service" || segment == "file" || segment == "factory-metadata"

def otaSegment (segment : String) : Bool := segment == "upgrade" || segment == "version"

def acl (username : Option String) (clientId topic : String) : Decision :=
  match segments (stripSlash topic) with
  | p0 :: p1 :: p2 :: p3 :: _ =>
      if p1 ≠ clientId then .deny
      else
        match username with
        | none => .deny
        | some username =>
            if p0 ≠ username then .deny
            else if p2 == "thing" && thingSegment p3 then .allow
            else if p2 == "ota" && otaSegment p3 then .allow
            else .deny
  | _ => .deny

structure AuthPayload where
  clientId : String
  username : Option String
  password : String

structure AuthConfig where
  suffix : String
  timestampToleranceSecs : Int

-- The rows of `devices` and of `product` that admission reads.
structure AccessTables where
  devices : List (String × String)
  products : List (String × Bool)

-- What a request meets: the server's clock in seconds, and the errors of the two statements.
structure AuthEnv where
  now : Int
  checkFault : Option String
  upsertFault : Option String

-- Whether the device is registered, and the product's setting when there is a product.
def admissionCheck (tables : AccessTables) (productId deviceId : String) : Bool × Option Bool :=
  (tables.devices.contains (productId, deviceId), tables.products.lookup productId)

def upsertDevice (tables : AccessTables) (productId deviceId : String) : AccessTables :=
  if tables.devices.contains (productId, deviceId) then tables
  else { tables with devices := tables.devices ++ [(productId, deviceId)] }

def checkDeviceAdmission (env : AuthEnv) (productId deviceId : String) (tables : AccessTables) :
    Decision × AccessTables :=
  match env.checkFault with
  | some _ => (.deny, tables)
  | none =>
      match admissionCheck tables productId deviceId with
      | (true, _) => (.allow, tables)
      | (false, some true) =>
          match env.upsertFault with
          | some _ => (.deny, tables)
          | none => (.allow, upsertDevice tables productId deviceId)
      | (false, some false) => (.deny, tables)
      | (false, none) => (.deny, tables)

section Auth

-- The hexadecimal HMAC-SHA1 of a message under a key.
variable (hmacSha1 : String → String → String)

def auth (config : AuthConfig) (env : AuthEnv) (payload : AuthPayload) (tables : AccessTables) :
    Decision × AccessTables :=
  if payload.clientId.utf8ByteSize > 64 ∨ payload.password.utf8ByteSize > 256 ∨
    payload.password.isEmpty then
    (.deny, tables)
  else
    match (payload.password.toList.splitOn '.').map String.ofList with
    | [nonce, timestampStr, hash] =>
        if nonce.utf8ByteSize ≠ 6 then (.deny, tables)
        else
          match parseI64 timestampStr with
          | none => (.deny, tables)
          | some timestamp =>
              let timeDiff := wrapI64 (wrapI64 (env.now - timestamp)).natAbs
              if timeDiff > config.timestampToleranceSecs then (.deny, tables)
              else
                let toSign := payload.clientId ++ "." ++ nonce ++ "." ++ timestampStr ++ "." ++
                    config.suffix
                if hmacSha1 config.suffix toSign ≠ hash then (.deny, tables)
                else
                  match payload.username with
                  | none => (.deny, tables)
                  | some productId => checkDeviceAdmission env productId payload.clientId tables
    | _ => (.deny, tables)

end Auth

end RmqttThings.Access
