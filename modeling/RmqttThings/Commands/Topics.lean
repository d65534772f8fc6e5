import RmqttThings.Api.AlarmModels

namespace RmqttThings.Commands

open Api (ApiError)

-- `str::split` at a character: one more piece than separators.
def segments (text : String) : List String := (text.toList.splitOn '/').map String.ofList

-- `trim_start_matches('/')` before the split.
def trimmedSegments (topic : String) : List String :=
  segments (String.ofList (topic.toList.dropWhile (· == '/')))

-- `str::split_once`.
def splitOnce (separator : Char) (text : String) : Option (String × String) :=
  match text.toList.span (· != separator) with
  | (_, []) => none
  | (before, _ :: after) => some (String.ofList before, String.ofList after)

def startsWith (text start : String) : Bool := start.toList.isPrefixOf text.toList

theorem startsWith_iff {text start : String} :
    startsWith text start = true ↔ start.toList <+: text.toList :=
  List.isPrefixOf_iff_prefix

-- `str::replace` of a pattern that is not empty. While `skip` is positive the
-- characters belong to an occurrence that has been replaced.
def replaceChars (pattern replacement : List Char) : (skip : Nat) → List Char → List Char
  | _, [] => []
  | skip + 1, _ :: rest => replaceChars pattern replacement skip rest
  | 0, char :: rest =>
      if pattern.isPrefixOf (char :: rest) then
        replacement ++ replaceChars pattern replacement (pattern.length - 1) rest
      else char :: replaceChars pattern replacement 0 rest

def replace (text pattern replacement : String) : String :=
  String.ofList (replaceChars pattern.toList replacement.toList 0 text.toList)

-- `str::parse::<i64>`: an optional sign, at least one digit, and no overflow.
def parseI64 (text : String) : Option Int :=
  let (negative, rest) := ParseF64.sign text.toList
  if rest.isEmpty ∨ ¬rest.all Char.isDigit then none
  else
    let value : Int := if negative then -(ParseF64.digits rest : Int) else ParseF64.digits rest
    if -2 ^ 63 ≤ value ∧ value < 2 ^ 63 then some value else none

def maxIdentifierLength : Nat := 128

def firstInvalidIdentifierChar (id : String) : Option Char :=
  id.toList.find? fun char => !Api.isAsciiAlphanumeric char && char != '-' && char != '_'

-- The length is counted in bytes.
def validateIdentifier (id fieldName : String) : Except ApiError Unit :=
  if id.isEmpty then .error (.badRequest (fieldName ++ " must not be empty"))
  else if id.utf8ByteSize > maxIdentifierLength then
    .error (.badRequest (fieldName ++ " must not exceed " ++ toString maxIdentifierLength ++
      " characters"))
  else
    match firstInvalidIdentifierChar id with
    | some char =>
        .error (.badRequest (fieldName ++ " contains invalid character '" ++
          String.singleton char ++
        "'. Only alphanumeric characters, hyphens, and underscores are allowed"))
    | none => .ok ()

def validateServiceType (serviceType : String) : Except ApiError Unit :=
  if serviceType.isEmpty ∨ serviceType.utf8ByteSize > 32 then
    .error (.badRequest "serviceType must be 1-32 characters")
  else
    match firstInvalidIdentifierChar serviceType with
    | some char =>
        .error (.badRequest ("serviceType contains invalid character '" ++ String.singleton char ++
        "'. Only alphanumeric characters, hyphens, and underscores are allowed"))
    | none => .ok ()

def extractProductIdFromTopic (topic : String) : Option String :=
  if topic.toList.contains '/' then (trimmedSegments topic).head?.filter fun segment =>
    !segment.isEmpty
  else none

def extractAndValidateProductId (topic : String) : Except ApiError String :=
  match extractProductIdFromTopic topic with
  | none => .error (.badRequest "Product ID not found in topic")
  | some productId => do
      validateIdentifier productId "product_id"
      return productId

-- Expected: product, device, `thing`, `service`, the service type, and anything.
def extractServiceTypeFromTopic (topic : String) : Option String :=
  match trimmedSegments topic with
  | _ :: _ :: third :: fourth :: serviceType :: _ =>
      if third == "thing" && fourth == "service" && !serviceType.isEmpty then some serviceType
      else none
  | _ => none

example : extractServiceTypeFromTopic "/p/d/thing/service/reboot/set_reply" = some "reboot" := by
  decide +kernel
example : extractProductIdFromTopic "product1" = none := by decide +kernel

-- The loop of `mqtt_topic_matches` over the two iterators.
def matchParts : List String → List String → Bool
  | [], [] => true
  | [], _ :: _ => false
  | part :: parts, topic =>
      if part == "#" then true
      else
        match topic with
        | [] => false
        | segment :: topic => (part == "+" || part == segment) && matchParts parts topic

-- Whether a subscription filter matches a concrete topic.
def mqttTopicMatches (topicFilter topic : String) : Bool :=
  topicFilter == topic || matchParts (segments topicFilter) (segments topic)

-- The topic that `is_subscribed_to_service_action` checks.
def serviceActionTopic (productId clientId serviceType : String) : String :=
  productId ++ "/" ++ clientId ++ "/thing/service/" ++ serviceType ++ "/set"

example : mqttTopicMatches "+/d/thing/service/+/set" (serviceActionTopic "p" "d" "reboot") =
    true := by
  decide +kernel
example : mqttTopicMatches "p/d/thing/service/property/set" (serviceActionTopic "p" "d" "reboot") =
    false := by
  decide +kernel

end RmqttThings.Commands
