import RmqttThings.Access.Guards

namespace RmqttThings.Access

open Commands (segments startsWith startsWith_iff)

inductive Handler where
  | healthCheck
  | getAuthConfig | oauthStart | oauthCallback | refreshToken | logout
  | auth | acl | serviceSetSubscribe | propertyPost | serviceSetReply | eventPost
  | fileUploadHandler
  | factoryMetadataGetHandler | otaVersionPost | deviceConnect | deviceDisconnect
  | getPropertyLatest | getPropertyCommands | createPropertyCommand | deletePropertyCommands
  | getServiceCommands | createServiceCommand | deleteServiceCommands
  | setPropertyDesired | getPropertyShadow | getPropertyHistory | getPropertyHistoryKeys
  | getPropertyHistorySeries
  | getEventHistory | getDeviceStatus | getDeviceOperations | getDeviceStatusHistory
  | getEventValidTemplates | createEventValidTemplate | getEventValidTemplate
  | updateEventValidTemplate
  | deleteEventValidTemplate | updateEventValidTemplateStatus
  | listCertsHandler | issueCertHandler | getCaCertHandler | getCertHandler
  | updateCertStatusHandler
  | listProducts | createProduct | getProduct | updateProduct
  | getOtaVersions | createOtaVersion | getOtaVersion | updateOtaVersion | deleteOtaVersion
  | adminFileUploadHandler | adminFileDownloadUrlHandler
  | listAlarmRules | createAlarmRule | getAlarmRule | updateAlarmRule | deleteAlarmRule
  | updateAlarmRuleStatus
  | listAlarms | ackAlarm | clearAlarm
  | getFactoryDeviceViewHandler | queryComponentChangesHandler
  | factoryFileUploadHandler | upsertComponentHandler | upsertDeviceMetadataHandler
  | replaceAssociationsHandler
  deriving DecidableEq

inductive Segment where
  | literal (text : String)
  | param
  deriving DecidableEq

-- The routers that `create_router` merges. A layer belongs to one of them.
inductive Group where
  | health
  | auth
  | webhook
  | admin
  | factory
  deriving DecidableEq

structure Route where
  group : Group
  pattern : List Segment
  handlers : List (Method × Handler)

def fixed (texts : List String) : List Segment := texts.map .literal

def healthRoute : List Route := [⟨.health, fixed ["health"], [(.get, .healthCheck)]⟩]

def authRoutes : List Route :=
  [⟨.auth, fixed ["auth", "config"], [(.get, .getAuthConfig)]⟩,
    ⟨.auth, fixed ["auth", "oauth", "start"], [(.get, .oauthStart)]⟩,
    ⟨.auth, fixed ["auth", "oauth", "callback"], [(.get, .oauthCallback)]⟩,
    ⟨.auth, fixed ["auth", "refresh"], [(.post, .refreshToken)]⟩,
    ⟨.auth, fixed ["auth", "logout"], [(.post, .logout)]⟩]

def webhookRoutes : List Route :=
  [⟨.webhook, fixed ["access", "auth"], [(.post, .auth)]⟩,
    ⟨.webhook, fixed ["access", "acl"], [(.post, .acl)]⟩,
    ⟨.webhook, fixed ["thing", "service", "set_subscribe"], [(.post, .serviceSetSubscribe)]⟩,
    ⟨.webhook, fixed ["thing", "property", "post"], [(.post, .propertyPost)]⟩,
    ⟨.webhook, fixed ["thing", "service", "set_reply"], [(.post, .serviceSetReply)]⟩,
    ⟨.webhook, fixed ["thing", "event", "post"], [(.post, .eventPost)]⟩,
    ⟨.webhook, fixed ["thing", "file", "upload"], [(.post, .fileUploadHandler)]⟩,
    ⟨.webhook, fixed ["thing", "factory-metadata", "get"], [(.post, .factoryMetadataGetHandler)]⟩,
    ⟨.webhook, fixed ["ota", "version"], [(.post, .otaVersionPost)]⟩,
    ⟨.webhook, fixed ["device", "connect"], [(.post, .deviceConnect)]⟩,
    ⟨.webhook, fixed ["device", "disconnect"], [(.post, .deviceDisconnect)]⟩]

def adminRoutes : List Route :=
  [⟨.admin, fixed ["admin", "property"], [(.get, .getPropertyLatest)]⟩,
    ⟨.admin, fixed ["admin", "property", "command"],
      [(.get, .getPropertyCommands), (.post, .createPropertyCommand),
        (.delete, .deletePropertyCommands)]⟩,
    ⟨.admin, fixed ["admin", "service", "command"],
      [(.get, .getServiceCommands), (.post, .createServiceCommand),
        (.delete, .deleteServiceCommands)]⟩,
    ⟨.admin, fixed ["admin", "property", "shadow", "desired"], [(.put, .setPropertyDesired)]⟩,
    ⟨.admin, fixed ["admin", "property", "shadow"], [(.get, .getPropertyShadow)]⟩,
    ⟨.admin, fixed ["admin", "property", "history"], [(.get, .getPropertyHistory)]⟩,
    ⟨.admin, fixed ["admin", "property", "history", "keys"], [(.get, .getPropertyHistoryKeys)]⟩,
    ⟨.admin, fixed ["admin", "property", "history", "series"], [(.get, .getPropertyHistorySeries)]⟩,
    ⟨.admin, fixed ["admin", "event"], [(.get, .getEventHistory)]⟩,
    ⟨.admin, fixed ["admin", "device", "status"], [(.get, .getDeviceStatus)]⟩,
    ⟨.admin, fixed ["admin", "device", "operation"], [(.get, .getDeviceOperations)]⟩,
    ⟨.admin, fixed ["admin", "device", "status", "history"], [(.get, .getDeviceStatusHistory)]⟩,
    ⟨.admin, fixed ["admin", "valid", "event"],
      [(.get, .getEventValidTemplates), (.post, .createEventValidTemplate)]⟩,
    ⟨.admin, fixed ["admin", "valid", "event"] ++ [.param],
      [(.get, .getEventValidTemplate), (.patch, .updateEventValidTemplate),
        (.delete, .deleteEventValidTemplate)]⟩,
    ⟨.admin, fixed ["admin", "valid", "event"] ++ [.param, .literal "status"],
      [(.patch, .updateEventValidTemplateStatus)]⟩,
    ⟨.admin, fixed ["admin", "ca", "cert"],
      [(.get, .listCertsHandler), (.post, .issueCertHandler)]⟩,
    ⟨.admin, fixed ["admin", "ca", "pem"], [(.get, .getCaCertHandler)]⟩,
    ⟨.admin, fixed ["admin", "ca", "cert"] ++ [.param], [(.get, .getCertHandler)]⟩,
    ⟨.admin, fixed ["admin", "ca", "cert", "status"], [(.patch, .updateCertStatusHandler)]⟩,
    ⟨.admin, fixed ["admin", "product"], [(.get, .listProducts), (.post, .createProduct)]⟩,
    ⟨.admin, fixed ["admin", "product"] ++ [.param],
      [(.get, .getProduct), (.patch, .updateProduct)]⟩,
    ⟨.admin, fixed ["admin", "ota", "version"],
      [(.get, .getOtaVersions), (.post, .createOtaVersion)]⟩,
    ⟨.admin, fixed ["admin", "ota", "version"] ++ [.param],
      [(.get, .getOtaVersion), (.put, .updateOtaVersion), (.delete, .deleteOtaVersion)]⟩,
    ⟨.admin, fixed ["admin", "file", "upload"], [(.post, .adminFileUploadHandler)]⟩,
    ⟨.admin, fixed ["admin", "file", "download-url"], [(.get, .adminFileDownloadUrlHandler)]⟩,
    ⟨.admin, fixed ["admin", "alarm-rule"], [(.get, .listAlarmRules), (.post, .createAlarmRule)]⟩,
    ⟨.admin, fixed ["admin", "alarm-rule"] ++ [.param],
      [(.get, .getAlarmRule), (.patch, .updateAlarmRule), (.delete, .deleteAlarmRule)]⟩,
    ⟨.admin, fixed ["admin", "alarm-rule"] ++ [.param, .literal "status"],
      [(.patch, .updateAlarmRuleStatus)]⟩,
    ⟨.admin, fixed ["admin", "alarm"], [(.get, .listAlarms)]⟩,
    ⟨.admin, fixed ["admin", "alarm"] ++ [.param, .literal "ack"], [(.patch, .ackAlarm)]⟩,
    ⟨.admin, fixed ["admin", "alarm"] ++ [.param, .literal "clear"], [(.patch, .clearAlarm)]⟩,
    ⟨.admin, fixed ["admin", "factory", "devices"] ++ [.param],
      [(.get, .getFactoryDeviceViewHandler)]⟩,
    ⟨.admin, fixed ["admin", "factory", "sn"] ++ [.param, .literal "changes"],
      [(.get, .queryComponentChangesHandler)]⟩]

def factoryRoutes : List Route :=
  [⟨.factory, fixed ["factory", "file", "upload"], [(.post, .factoryFileUploadHandler)]⟩,
    ⟨.factory, fixed ["factory", "components"] ++ [.param], [(.put, .upsertComponentHandler)]⟩,
    ⟨.factory, fixed ["factory", "devices"] ++ [.param], [(.put, .upsertDeviceMetadataHandler)]⟩,
    ⟨.factory, fixed ["factory", "devices"] ++ [.param, .literal "components"],
      [(.put, .replaceAssociationsHandler)]⟩]

def apiRoutes : List Route :=
  healthRoute ++ webhookRoutes ++ adminRoutes ++ factoryRoutes ++ authRoutes

-- A parameter takes any segment but the empty one.
def matchSegments : List Segment → List String → Option (List String)
  | [], [] => some []
  | .literal text :: pattern, segment :: rest =>
      if segment = text then matchSegments pattern rest else none
  | .param :: pattern, segment :: rest =>
      if segment = "" then none else (matchSegments pattern rest).map (segment :: ·)
  | _, _ => none

-- Of two patterns for one path, the one that is literal where they first differ goes first.
def precedes : List Segment → List Segment → Bool
  | .literal _ :: _, .param :: _ => true
  | .param :: _, .literal _ :: _ => false
  | _ :: pattern, _ :: other => precedes pattern other
  | _, _ => false

def findRoute (path : List String) : Option (Route × List String) :=
  let found := apiRoutes.filterMap fun route => (matchSegments route.pattern path).map (route, ·)
  found.find? fun candidate => !found.any fun other => precedes other.1.pattern candidate.1.pattern

-- A route for `GET` serves `HEAD` too.
def Route.handler (route : Route) (method : Method) : Option Handler :=
  route.handlers.lookup (if method = .head then .get else method)

structure Deployment where
  -- The client of Herald, where it is configured.
  herald : Option CheckPermission
  apiKeys : List String

-- The layers of a group, and the user they hand on.
def Group.layer (deployment : Deployment) (request : Request) :
    Group → Except AuthError (Option String)
  | .health | .auth => .ok none
  | .webhook => (internalIpMiddleware request).map fun _ => none
  | .admin =>
      match deployment.herald with
      | some checkPermission => (heraldAuthMiddleware checkPermission request).map some
      | none => .ok none
  | .factory => (factoryAuthMiddleware deployment.apiKeys request.headers).map fun _ => none

inductive Outcome where
  | notFound
  | methodNotAllowed
  | rejected (error : AuthError)
  | handled (handler : Handler) (params : List String) (user : Option String)
  deriving DecidableEq

def joined (path : List String) : List Char := path.flatMap fun segment => '/' :: segment.toList

-- The layers see the path without the prefix of the nest, and come before the choice of the method.
def serve (deployment : Deployment) (request : Request) : Outcome :=
  match segments request.path with
  | "" :: "api" :: path =>
      match findRoute path with
      | none => .notFound
      | some (route, params) =>
          match route.group.layer deployment { request with path := String.ofList (joined path) }
            with
          | .error error => .rejected error
          | .ok user =>
              match route.handler request.method with
              | none => .methodNotAllowed
              | some handler => .handled handler params user
  | _ => .notFound

-- What a handler does to the things it serves: who may ask for it, and whether it changes them.
inductive Duty where
  | anyone
  | broker
  | line
  | console (resource : String) (changes : Bool)
  deriving DecidableEq

def Handler.duty : Handler → Duty
  | .healthCheck | .getAuthConfig | .oauthStart | .oauthCallback | .refreshToken | .logout =>
      .anyone
  | .auth | .acl | .serviceSetSubscribe | .propertyPost | .serviceSetReply | .eventPost
  | .fileUploadHandler
  | .factoryMetadataGetHandler | .otaVersionPost | .deviceConnect | .deviceDisconnect => .broker
  | .factoryFileUploadHandler | .upsertComponentHandler | .upsertDeviceMetadataHandler
  | .replaceAssociationsHandler => .line
  | .listProducts | .getProduct | .getEventValidTemplates | .getEventValidTemplate
  | .adminFileDownloadUrlHandler => .console "product" false
  | .createProduct | .updateProduct | .createEventValidTemplate | .updateEventValidTemplate
  | .deleteEventValidTemplate | .updateEventValidTemplateStatus | .adminFileUploadHandler =>
      .console "product" true
  | .getPropertyLatest | .getPropertyCommands | .getServiceCommands | .getPropertyShadow
  | .getPropertyHistory
  | .getPropertyHistoryKeys | .getPropertyHistorySeries | .getEventHistory | .getDeviceStatus
  | .getDeviceOperations
  | .getDeviceStatusHistory | .listAlarmRules | .getAlarmRule | .listAlarms
  | .getFactoryDeviceViewHandler
  | .queryComponentChangesHandler => .console "device" false
  | .createPropertyCommand | .deletePropertyCommands | .createServiceCommand
  | .deleteServiceCommands
  | .setPropertyDesired | .createAlarmRule | .updateAlarmRule | .deleteAlarmRule
  | .updateAlarmRuleStatus
  | .ackAlarm | .clearAlarm => .console "device" true
  | .listCertsHandler | .getCaCertHandler | .getCertHandler | .getOtaVersions | .getOtaVersion =>
      .console "cert" false
  | .issueCertHandler | .updateCertStatusHandler | .createOtaVersion | .updateOtaVersion
  | .deleteOtaVersion => .console "cert" true

-- The request names what its handler asks for, and whoever decides on it agrees.
def Duty.Granted (deployment : Deployment) (request : Request) (user : Option String) : Duty → Prop
  | .anyone => user = none
  | .broker =>
      user = none ∧ ∃ ip, extractClientIp request.headers request.peer = some ip ∧ ip.Private
  | .line => user = none ∧
      ∃ key ∈ deployment.apiKeys, (request.headers.lookup "authorization").bind toStr =
        some ("Bearer " ++ key)
  | .console resource changes =>
      match deployment.herald with
      | none => user = none
      | some checkPermission => request.method ≠ .head ∧ ∃ token userId, user = some userId ∧
          extractAuthToken request.headers = some token ∧
          checkPermission token ⟨resource, if changes then "write" else "read"⟩ = .ok ⟨true,
            some userId⟩

-- The route that the path and the method select.
def Routed (request : Request) (handler : Handler) (params : List String) : Prop :=
  ∃ path route, segments request.path = "" :: "api" :: path ∧
    findRoute path = some (route, params) ∧ route.handler request.method = some handler

end RmqttThings.Access
