/-
  ClusterGate.Target.Connect — the connections that are opened to a route's target
  (`safeLookup` and `validateTargetUrlSync` of `lib/security.ts`, `proxyRequest` from its
  resolved URL on, `proxy/wsHandler.ts`, `services/healthService.ts`, and the connection
  test of `routes/routes.router.ts`).

  A request to a URL connects to the URL's host: to the host itself where it is an address,
  else to what its lookup makes of DNS's answer. A `Wire` holds what the outside does next,
  one `Exchange` for each connection, and every address a connection was opened to. Of several
  addresses any may be tried, so all of them count. What a connection brings is a reply or
  a fault; a fault that says the target speaks plain HTTP is answered with a second request
  to the URL as `http`.

  The proxies and the connection test give their agents `safeLookup`, and follow no
  redirect. The health check gives its agent no lookup, and follows three. A route's test
  run is a policy check and the HTTP proxy. No forward proxy is set.
-/

import ClusterGate.Lib.UrlRecord
import ClusterGate.Proxy.Admission
import ClusterGate.Proxy.Origin
import ClusterGate.Route.Access

namespace ClusterGate

open Lib Lib.Act Lib.Text

/-! ## The outside -/

/-- An error of the HTTP client. -/
structure Fault where
  code : String
  message : String
  deriving DecidableEq

/-- `location` is the URL a redirect names, read against the URL that was asked. -/
structure Reply where
  status : Nat
  statusText : String := ""
  location : Option String := none
  deriving DecidableEq

/-- DNS's answer for the host, and what comes of the connection. -/
structure Exchange where
  answer : List String
  outcome : Except Fault Reply

structure Wire where
  exchanges : List Exchange
  opened : List String

abbrev Outbound (α : Type) := Act Wire Fault α

def nextExchange : Outbound Exchange := fun w => match w.exchanges with
  | [] => (.error ⟨"ETIMEDOUT", "timeout"⟩, w)
  | exchange :: exchanges => (.ok exchange, { w with exchanges := exchanges })

/-! ## Lookups -/

/-- What an agent makes of DNS's answer. -/
abbrev Lookup := List String → Except Fault (List String)

/-- Node's own. -/
def dnsLookup : Lookup := .ok

/-- Why `safeLookup` refuses an address (none: it does not). -/
def addressRefused (W : World) (addr : String) : Option String :=
  if isMetadataIp addr then some ("Blocked SSRF to cloud metadata IP " ++ addr)
  else (matchIp W addr).map fun denied => "Blocked SSRF to " ++ addr ++ " (" ++ denied ++ ")"

def safeLookup (W : World) : Lookup := fun answer =>
  match answer.findSome? (addressRefused W) with
  | some message => .error ⟨"", message⟩
  | none => .ok answer

/-! ## Requests -/

/-- The socket of a request. No lookup is called for a host that is an address. -/
def connect (W : World) (lookup : Lookup) (host : String) : Outbound Reply := do
  let exchange ← nextExchange
  let addresses ← ofExcept (if W.isIP host ≠ 0 then .ok [host] else lookup exchange.answer)
  require (addresses ≠ []) ⟨"ENOTFOUND", "getaddrinfo ENOTFOUND " ++ host⟩
  modify fun w => { w with opened := w.opened ++ addresses }
  ofExcept exchange.outcome

/-- The host a URL is connected to: an IPv6 address without its brackets. -/
def connectHost (hostname : String) : String :=
  if startsWith hostname "[" then sliceEnd (slice hostname 1) 1 else hostname

/-- A request that follows no redirect. No scheme but http and https connects. -/
def request (W : World) (lookup : Lookup) (url : String) : Outbound Reply :=
  match W.url url with
  | none => throw ⟨"ERR_INVALID_URL", "Invalid URL"⟩
  | some parsed =>
    if parsed.scheme = "http" ∨ parsed.scheme = "https" then connect W lookup (connectHost (parsed.host.getD ""))
    else throw ⟨"ERR_BAD_REQUEST", "Unsupported protocol " ++ parsed.scheme ++ ":"⟩

def Reply.redirect (r : Reply) : Option String :=
  if 300 ≤ r.status ∧ r.status < 400 then r.location.filter (· ≠ "") else none

/-- A request that follows up to `maxRedirects` redirects. -/
def follow (W : World) (lookup : Lookup) : (maxRedirects : Nat) → (url : String) → Outbound Reply
  | 0, url => do
    let res ← request W lookup url
    match res.redirect with
    | none => pure res
    | some _ => throw ⟨"ERR_FR_TOO_MANY_REDIRECTS", "Maximum number of redirects exceeded"⟩
  | n + 1, url => do
    let res ← request W lookup url
    match res.redirect with
    | none => pure res
    | some location => follow W lookup n location

def isTlsProtocolMismatch (err : Fault) : Bool :=
  err.code = "EPROTO" || includes (toLowerAscii err.message) "packet length too long" ||
    includes (toLowerAscii err.message) "wrong version number"

/-- The URL to ask instead, of a target that spoke plain HTTP on an https URL. -/
def httpFallback (err : Fault) (url : String) : Option String :=
  if isTlsProtocolMismatch err && startsWith url "https://" then some ("http://" ++ slice url 8) else none

/-- Asks a second time where the URL has a fallback. -/
def orHttp (send : String → Outbound Reply) (url : String) : Outbound Reply := do
  match ← attempt (send url) with
  | .ok res => pure res
  | .error err =>
    match httpFallback err url with
    | some plain => send plain
    | none => throw err

/-! ## The HTTP proxy -/

/-- The retry loop, after `lastError`. Once the URL has fallen back to http it stays so. -/
def proxyAttempts (send : String → Outbound Reply) : (attempts : Nat) → (lastError : Fault) → (url : String) → Outbound Reply
  | 0, lastError, _ => throw lastError
  | n + 1, _, url => do
    match ← attempt (send url) with
    | .ok res => pure res
    | .error err =>
      match httpFallback err url with
      | none => proxyAttempts send n err url
      | some plain =>
        match ← attempt (send plain) with
        | .ok res => pure res
        | .error httpErr => proxyAttempts send n httpErr plain

/-- A body that is streamed cannot be sent again. -/
def Row.attempts (route : Row) (streamedBody : Bool) : Nat :=
  if streamedBody then 1 else (1 + (route.val .retryCount).int?.getD 0).toNat

/-- `proxyRequest` to the selected target, for a request that passed its checks. -/
def Row.forward (W : World) (route : Row) (selectedTargetUrl path : String) (params : Option String)
    (streamedBody : Bool) : Outbound Reply :=
  let url := resolvedUrl selectedTargetUrl (route.targetPath W path) params
  if route.flag .streamResponse then orHttp (request W (safeLookup W)) url
  else proxyAttempts (request W (safeLookup W)) (route.attempts streamedBody) ⟨"", "No response received"⟩ url

/-! ## The WebSocket proxy -/

/-- `proxy.ws` of an upgrade that passed its checks. `hostname` is the host the proxy
    library reads in a URL. -/
def Row.upgrade (W : World) (hostname : String → String) (route : Row) (path : String) : Outbound Reply :=
  connect W (safeLookup W) (hostname (route.wsTarget path))

/-! ## n8n -/

def looksLikeN8n (W : World) (targetUrl : String) : Bool :=
  match UrlRecord.read W.hostParser none targetUrl with
  | some u => includes (toLowerAscii (u.host.getD "")) "n8n" || includes (String.ofList u.pathname) "/webhook/"
  | none => false

def isN8nTarget (W : World) (targetType : Option String) (targetUrl : String) : Bool :=
  targetType = some "N8N" || looksLikeN8n W targetUrl

/-! ## The connection test -/

/-- An unrestricted organization adds nothing to the checks that always apply. -/
def candidatePolicies (policies : List OrgTargetPolicy) : List (Option OrgTargetPolicy) :=
  if policies.any (!·.restrictTargets) then [none] else policies.map some

/-- The first refusal, where every candidate refuses. -/
def refusedByAll (W : World) (targetUrl : String) (candidates : List (Option OrgTargetPolicy)) : Option String :=
  (candidates.mapM (assertTargetAllowed W targetUrl)).bind List.head?

/-- Why a caller may not test a target that is no route's yet (none: it may). -/
def assertTargetAllowedForUser (W : World) (s : Store) (targetUrl : String) (u : Caller)
    (organizationId : Option String) : Option String :=
  match organizationId.filter (· ≠ "") with
  | some org =>
    if canManageOrgRoutes s u org then targetRefused W s targetUrl (.str org)
    else some "You need Owner or Admin role in this organization"
  | none =>
    if u.role = .ADMIN then targetRefused W s targetUrl .null
    else
      let memberships := s.orgMemberships.rows.filter fun m => m.1.1 = u.userId && (m.2 = .OWNER || m.2 = .ADMIN)
      let policies := memberships.filterMap fun m => (s.organizations.get? m.1.2).map toPolicy
      if policies = [] then some "You need Owner or Admin role in an organization"
      else refusedByAll W targetUrl (candidatePolicies policies)

/-- What of a test's body is read for its connection. -/
structure TestTarget where
  targetUrl : String
  targetType : Option String := none
  organizationId : Option String := none
  deriving DecidableEq

structure ConnectionTest where
  ok : Bool
  status : Option Nat := none
  error : Option String := none
  detectedTool : Option String := none
  hint : Option String := none
  deriving DecidableEq

/-- `POST /test-connection`. -/
def testConnection (W : World) (s : Store) (u : Caller) (cfg : TestTarget) : Outbound ConnectionTest :=
  match assertTargetAllowedForUser W s cfg.targetUrl u cfg.organizationId with
  | some message => pure { ok := false, status := some 403, error := some ("Target blocked: " ++ message) }
  | none => do
    let isN8n := isN8nTarget W cfg.targetType cfg.targetUrl
    let tool := if isN8n then "n8n" else "generic"
    let answer (res : Reply) : ConnectionTest :=
      { ok := res.status < 500, status := some res.status, detectedTool := some tool,
        hint := if isN8n then some "n8n detected — chatInput and sessionId are sent automatically" else none }
    let makeReq := request W (safeLookup W)
    match ← attempt (makeReq cfg.targetUrl) with
    | .ok res => pure (answer res)
    | .error err =>
      match httpFallback err cfg.targetUrl with
      | some plain => do
        let res ← makeReq plain
        pure (answer res)
      | none => pure { ok := false, error := some err.message, detectedTool := some tool }

/-! ## The health check -/

/-- The message of what it refuses. -/
def validateTargetUrlSync (W : World) (targetUrl : String) : Option String :=
  match W.url targetUrl with
  | none => some "Invalid target URL format"
  | some parsed =>
    if parsed.scheme ≠ "http" ∧ parsed.scheme ≠ "https" then some ("Blocked URL scheme: " ++ parsed.scheme ++ ":")
    else
      let hostname := toLowerAscii (parsed.host.getD "")
      if BLOCKED_HOSTNAMES.contains hostname || isMetadataIp hostname then
        some ("Blocked cloud metadata endpoint: " ++ hostname)
      else none

inductive HealthStatus
  | HEALTHY | UNHEALTHY | UNKNOWN
  deriving DecidableEq

structure HealthResult where
  status : HealthStatus
  error : Option String := none
  deriving DecidableEq

/-- An n8n target is posted to where the route has no body of its own. -/
def Row.probeMethod (W : World) (route : Row) : String :=
  if isN8nTarget W (route.text .targetType) (route.string .targetUrl) && orText (route.text .healthCheckBody) "" = "" then
    "POST"
  else String.ofList ((orText (route.text .healthCheckMethod) "HEAD").toList.map Char.toUpper)

def Row.probeUrl (route : Row) (base : String) : String := targetBase base ++ orText (route.text .healthCheckPath) ""

/-- A HEAD that is not supported is asked again as a GET. -/
def Row.probe (W : World) (route : Row) (base : String) : Outbound Reply := do
  let res ← follow W dnsLookup 3 (route.probeUrl base)
  if route.probeMethod W = "HEAD" ∧ (res.status = 405 ∨ res.status = 501) then
    follow W dnsLookup 3 (route.probeUrl base)
  else pure res

def checkRouteHealth (W : World) (route : Row) : Outbound HealthResult :=
  match validateTargetUrlSync W (route.string .targetUrl) with
  | some message => pure ⟨.UNHEALTHY, some ("SSRF blocked: " ++ message)⟩
  | none => do
    match ← attempt (orHttp (route.probe W) (route.string .targetUrl)) with
    | .error err => pure ⟨.UNHEALTHY, some err.message⟩
    | .ok res =>
      if res.status < 500 then pure ⟨.HEALTHY, none⟩
      else pure ⟨.UNHEALTHY, some ("HTTP " ++ toString res.status ++ " " ++ orText (some res.statusText) "Server Error")⟩

end ClusterGate
