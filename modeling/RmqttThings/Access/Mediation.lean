import RmqttThings.Access.Routes

namespace RmqttThings.Access

open Commands (segments startsWith startsWith_iff)
open Login (Jar CookieName CookieText getCookie getCookie_requestHeaders)

section Paths

-- The text that every path of a pattern starts with.
def stem : List Segment → List Char
  | .literal text :: pattern => '/' :: text.toList ++ stem pattern
  | _ => []

theorem stem_prefix {pattern : List Segment} {path params : List String}
    (h : matchSegments pattern path = some params) :
    stem pattern <+: joined path := by
  induction pattern generalizing path params with
  | nil => exact List.nil_prefix
  | cons segment pattern ih =>
      cases segment with
      | param => exact List.nil_prefix
      | literal text =>
          cases path with
          | nil => cases h
          | cons first path =>
              rw [matchSegments] at h
              split_ifs at h with hfirst
              obtain ⟨tail, htail⟩ := ih h
              refine ⟨tail, ?_⟩
              rw [joined, List.flatMap_cons, ← joined, ← htail, hfirst, stem]
              simp

-- Whether the stem decides how a longer text starts.
def decided (stem : List Char) (start : String) : Option Bool :=
  if start.toList <+: stem then some true else if stem <+: start.toList then none else some false

theorem startsWith_of_decided {stem : List Char} {start path : String} {value : Bool}
    (h : decided stem start = some value) (hpath : stem <+: path.toList) :
    startsWith path start = value := by
  unfold decided at h
  split_ifs at h with hstart hstem
  · obtain rfl : true = value := by simpa using h
    exact startsWith_iff.mpr (hstart.trans hpath)
  · obtain rfl : false = value := by simpa using h
    rw [Bool.eq_false_iff, ne_eq, startsWith_iff]
    intro hprefix
    rcases List.prefix_or_prefix_of_prefix hprefix hpath with hshort | hlong
    · exact hstart hshort
    · exact hstem hlong

def anyDecided (stem : List Char) (starts : List String) : Option Bool :=
  if starts.any fun start => decided stem start = some true then some true
  else if starts.all fun start => decided stem start = some false then some false
  else none

theorem any_of_anyDecided {stem : List Char} {starts : List String} {path : String} {value : Bool}
    (h : anyDecided stem starts = some value) (hpath : stem <+: path.toList) :
    starts.any (startsWith path) = value := by
  unfold anyDecided at h
  split_ifs at h with hany hall
  · obtain rfl : true = value := by simpa using h
    obtain ⟨start, hmem, hdecided⟩ := List.any_eq_true.mp hany
    exact List.any_eq_true.mpr ⟨start, hmem,
      startsWith_of_decided (of_decide_eq_true hdecided) hpath⟩
  · obtain rfl : false = value := by simpa using h
    rw [List.any_eq_false]
    intro start hmem
    have hdecided := List.all_eq_true.mp hall start hmem
    rw [startsWith_of_decided (of_decide_eq_true hdecided) hpath]
    exact Bool.false_ne_true

-- The resource that the stem leads to.
def resourceAt (stem : List Char) : Option String :=
  match anyDecided stem productPaths, anyDecided stem devicePaths, anyDecided stem certPaths with
  | some true, _, _ => some "product"
  | some false, some true, _ => some "device"
  | some false, some false, some true => some "cert"
  | _, _, _ => none

theorem resourceOf_eq {stem : List Char} {path resource : String}
    (h : resourceAt stem = some resource)
    (hpath : stem <+: path.toList) : resourceOf path = some resource := by
  unfold resourceAt at h
  split at h
  · next hproduct =>
      rw [resourceOf, any_of_anyDecided hproduct hpath, if_pos rfl]
      exact h
  · next hproduct hdevice =>
      rw [resourceOf, any_of_anyDecided hproduct hpath, any_of_anyDecided hdevice hpath]
      exact h
  · next hproduct hdevice hcert =>
      rw [resourceOf, any_of_anyDecided hproduct hpath, any_of_anyDecided hdevice hpath,
        any_of_anyDecided hcert hpath]
      exact h
  · cases h

end Paths

section Table

-- What the table says of a handler is what its duty says.
def agrees (route : Route) (method : Method) (handler : Handler) : Bool :=
  match route.group, handler.duty with
  | .health, .anyone | .auth, .anyone | .webhook, .broker | .factory, .line => true
  | .admin, .console resource changes =>
      resourceAt (stem route.pattern) == some resource && decided (stem route.pattern) "/api" ==
        some false && actionOf method == some (if changes then "write" else "read")
  | _, _ => false

theorem apiRoutes_agree :
    ∀ route ∈ apiRoutes, ∀ entry ∈ route.handlers, agrees route entry.1 entry.2 = true := by
  decide +kernel

theorem findRoute_eq_some {path params : List String} {route : Route}
    (h : findRoute path = some (route, params)) :
    route ∈ apiRoutes ∧ matchSegments route.pattern path = some params := by
  have hmem := List.mem_of_find?_eq_some h
  obtain ⟨other, hother, hmap⟩ := List.mem_filterMap.mp hmem
  obtain ⟨found, hfound, heq⟩ := Option.map_eq_some_iff.mp hmap
  cases heq
  exact ⟨hother, hfound⟩

theorem mem_handlers {route : Route} {method : Method} {handler : Handler}
    (h : route.handler method = some handler) :
    ((if method = .head then .get else method), handler) ∈ route.handlers := by
  obtain ⟨before, after, hsplit, -⟩ := List.lookup_eq_some_iff.mp h
  rw [hsplit]
  simp

-- The rule of an admin request is what the duty of its handler asks for.
theorem extractPermission_of_agrees {route : Route} {method : Method} {handler : Handler}
    {path params : List String} {resource : String} {changes : Bool}
    (hmatch : matchSegments route.pattern path = some params) (hgroup : route.group = .admin)
    (hduty : handler.duty = .console resource changes)
    (hagrees : agrees route (if method = .head then .get else method) handler = true) :
    extractPermission (String.ofList (joined path)) method =
      if method = .head then none else some ⟨resource, if changes then "write" else "read"⟩ := by
  simp only [agrees, hgroup, hduty, Bool.and_eq_true, beq_iff_eq] at hagrees
  obtain ⟨⟨hresource, happ⟩, haction⟩ := hagrees
  have hstem : stem route.pattern <+: (String.ofList (joined path)).toList := by
    rw [String.toList_ofList]
    exact stem_prefix hmatch
  have hnone : stripPrefix (String.ofList (joined path)) "/api" = none := by
    rw [stripPrefix, startsWith_of_decided happ hstem]
    exact if_neg Bool.false_ne_true
  rw [extractPermission, hnone, Option.getD_none, resourceOf_eq hresource hstem]
  by_cases hhead : method = .head
  · rw [if_pos hhead, hhead]
    rfl
  · rw [if_neg hhead] at haction ⊢
    rw [haction]
    rfl

end Table

section Requests

variable {deployment : Deployment} {request : Request} {route : Route} {handler : Handler}
  {path params : List String} {user : Option String}

theorem map_eq_ok_iff {α β : Type} {result : Except AuthError α} {f : α → β} {value : β} :
    result.map f = .ok value ↔ ∃ a, result = .ok a ∧ f a = value := by
  cases result with
  | error error => simp [Except.map]
  | ok a => simp [Except.map]

theorem map_unit_eq_ok_iff {result : Except AuthError Unit} :
    (result.map fun _ => (none : Option String)) = .ok user ↔ result = .ok () ∧ user = none := by
  rw [map_eq_ok_iff]
  constructor
  · rintro ⟨⟨⟩, hok, rfl⟩
    exact ⟨hok, rfl⟩
  · rintro ⟨hok, rfl⟩
    exact ⟨(), hok, rfl⟩

-- The duties of the handlers in a group.
theorem duty_of_agrees {method : Method} (h : agrees route method handler = true) :
    match route.group with
    | .health | .auth => handler.duty = .anyone
    | .webhook => handler.duty = .broker
    | .factory => handler.duty = .line
    | .admin => ∃ resource changes, handler.duty = .console resource changes := by
  unfold agrees at h
  split at h
  all_goals simp_all

-- The layers of the route let through what the duty of the handler grants.
theorem layer_ok_iff (hmatch : matchSegments route.pattern path = some params)
    (hagrees : agrees route (if request.method = .head then .get else request.method) handler =
      true) :
    route.group.layer deployment { request with path := String.ofList (joined path) } = .ok user ↔
      handler.duty.Granted deployment request user := by
  have hduty := duty_of_agrees hagrees
  cases hgroup : route.group with
  | health =>
      simp only [hgroup] at hduty
      simp [Group.layer, hduty, Duty.Granted, eq_comm]
  | auth =>
      simp only [hgroup] at hduty
      simp [Group.layer, hduty, Duty.Granted, eq_comm]
  | webhook =>
      simp only [hgroup] at hduty
      rw [Group.layer, map_unit_eq_ok_iff, internalIpMiddleware_ok_iff, hduty, Duty.Granted,
        and_comm]
  | factory =>
      simp only [hgroup] at hduty
      rw [Group.layer, map_unit_eq_ok_iff, factoryAuthMiddleware_ok_iff, hduty, Duty.Granted,
        and_comm]
  | admin =>
      simp only [hgroup] at hduty
      obtain ⟨resource, changes, hduty⟩ := hduty
      have hpermission := extractPermission_of_agrees hmatch hgroup hduty hagrees
      rw [Group.layer, hduty, Duty.Granted]
      cases deployment.herald with
      | none => simp [eq_comm]
      | some checkPermission =>
          simp only [map_eq_ok_iff, heraldAuthMiddleware_ok_iff, hpermission]
          by_cases hhead : request.method = .head
          · simp [hhead]
          · simp only [hhead, if_false, Option.some.injEq, ne_eq, not_false_eq_true, true_and]
            constructor
            · rintro ⟨userId, ⟨token, rule, htoken, rfl, hcheck⟩, rfl⟩
              exact ⟨token, userId, rfl, htoken, hcheck⟩
            · rintro ⟨token, userId, rfl, htoken, hcheck⟩
              exact ⟨userId, ⟨token, _, htoken, rfl, hcheck⟩, rfl⟩

-- On every route of the table the layers ask for what the handler's duty says.
theorem layer_iff_granted {path : List String} {route : Route}
    (hroute : findRoute path = some (route, params))
    (hhandler : route.handler request.method = some handler) :
    route.group.layer deployment { request with path := String.ofList (joined path) } = .ok user ↔
      handler.duty.Granted deployment request user := by
  obtain ⟨hmem, hmatch⟩ := findRoute_eq_some hroute
  exact layer_ok_iff hmatch (apiRoutes_agree route hmem _ (mem_handlers hhandler))

theorem granted_of_handled (h : serve deployment request = .handled handler params user) :
    Routed request handler params ∧ handler.duty.Granted deployment request user := by
  unfold serve at h
  split at h
  · next path hpath =>
    split at h
    · cases h
    · next route found hroute =>
      split at h
      · cases h
      · next user' hlayer =>
        split at h
        · cases h
        · next handler' hhandler =>
          cases h
          exact ⟨⟨path, route, hpath, hroute, hhandler⟩,
            (layer_iff_granted hroute hhandler).mp hlayer⟩
  · cases h

theorem handled_of_granted (hrouted : Routed request handler params)
    (hgranted : handler.duty.Granted deployment request user) :
    serve deployment request = .handled handler params user := by
  obtain ⟨path, route, hpath, hroute, hhandler⟩ := hrouted
  have hlayer := (layer_iff_granted hroute hhandler).mpr hgranted
  unfold serve
  simp only [hpath, hroute, hlayer, hhandler]

-- Complete mediation: a handler runs exactly if the request selects it and is granted what the
-- handler asks for.
theorem handled_iff (deployment : Deployment) (request : Request) (handler : Handler)
    (params : List String) (user : Option String) :
    serve deployment request = .handled handler params user ↔
      Routed request handler params ∧ handler.duty.Granted deployment request user :=
  ⟨granted_of_handled, fun h => handled_of_granted h.1 h.2⟩

theorem visible_octet : ∀ octet : Fin 256, (toString octet.val).toList.all isVisible = true := by
  decide +kernel

theorem visible_text (addr : Ipv4Addr) : ∀ char ∈ addr.text.toList, isVisible char = true := by
  have hoctet : ∀ octet : UInt8, ∀ char ∈ (toString octet.toNat).toList, isVisible char = true :=
    fun octet => List.all_eq_true.mp (visible_octet ⟨octet.toNat, octet.toNat_lt⟩)
  have hdot : isVisible '.' = true := by decide
  intro char hmem
  simp only [toList_text, List.mem_append, List.mem_cons, List.not_mem_nil, or_false] at hmem
  rcases hmem with h | rfl | h | rfl | h | rfl | h
  · exact hoctet _ char h
  · exact hdot
  · exact hoctet _ char h
  · exact hdot
  · exact hoctet _ char h
  · exact hdot
  · exact hoctet _ char h

-- The address that a proxy has written down comes before every other source of the address.
theorem extractClientIp_realIp {headers : HeaderMap} {addr : Ipv4Addr} {peer : Option IpAddr}
    (h : headers.lookup "x-real-ip" = some (utf8Bytes addr.text)) :
    extractClientIp headers peer = some (.v4 addr) := by
  have hvisible := visible_text addr
  have htext : toStr (utf8Bytes addr.text) = some addr.text := by
    apply Login.toStr_utf8Bytes
    intro char hmem
    have hchar := hvisible char hmem
    simp only [isVisible, Bool.and_eq_true, decide_eq_true_eq] at hchar
    omega
  have htrim := trim_spaces hvisible 0
  rw [List.replicate_zero, List.nil_append, String.ofList_toList] at htrim
  rw [extractClientIp, headerIp, h, Option.bind_some, htext, Option.bind_some, id, htrim,
    parseIpAddr_text]
  rfl

-- Behind a proxy that names the client, the handlers of the broker run for the addresses of the
-- private blocks only, whatever the client sends beside it.
theorem broker_handled_iff (deployment : Deployment) (request : Request) (handler : Handler)
    (params : List String) (addr : Ipv4Addr) (hduty : handler.duty = .broker)
    (hproxy : request.headers.lookup "x-real-ip" = some (utf8Bytes addr.text)) :
    serve deployment request = .handled handler params none ↔
      Routed request handler params ∧ ∃ block ∈ privateBlocks4, block.Contains addr.bits := by
  have hgranted : handler.duty.Granted deployment request none ↔ (IpAddr.v4 addr).Private := by
    rw [hduty, Duty.Granted, extractClientIp_realIp hproxy]
    simp
  rw [← IpAddr.Private, ← hgranted]
  exact ⟨granted_of_handled, fun h => handled_of_granted h.1 h.2⟩

def connectRequest : Request :=
  ⟨.post, "/api/device/connect", [("x-forwarded-for", utf8Bytes "8.8.8.8"),
    ("x-real-ip", utf8Bytes "10.0.0.7")], none⟩

theorem connect_handled : serve ⟨none, []⟩ connectRequest = .handled .deviceConnect [] none := by
  apply (broker_handled_iff ⟨none, []⟩ connectRequest .deviceConnect [] ⟨10, 0, 0, 7⟩ rfl
    (by decide +kernel)).mpr
  refine ⟨⟨["device", "connect"], ⟨.webhook, fixed ["device", "connect"],
    [(.post, .deviceConnect)]⟩, ?_⟩, ?_⟩
  · exact ⟨by decide +kernel, by rfl, rfl⟩
  · exact (isPrivateIp_iff (.v4 ⟨10, 0, 0, 7⟩)).mp (by decide)

-- The fixed path hides the path with a parameter, for every method.
example : serve ⟨none, []⟩ ⟨.get, "/api/admin/ca/cert/status", [], none⟩ = .methodNotAllowed := by
  decide +kernel

end Requests

end RmqttThings.Access
