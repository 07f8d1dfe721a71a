/-
  ClusterGate.Proxy.TargetPath — the path a request goes to the upstream with
  (`services/proxyService.ts`: `proxyRequest`, `proxy/wsHandler.ts`, and `routeSubPath` of
  `lib/pathAllowlist.ts`).

  The sub-path of a request is cut three times: for the path allowlist to judge, for the
  HTTP upstream and for the WebSocket upstream. The intent is one sub-path. The allowlist
  wants a slash behind the base, or nothing; the proxy cuts wherever the base is a prefix,
  and the WebSocket handler cuts a base without `/r`, but `/r` itself as it stands.

  The WebSocket handler reads the path in the URL of the request, dot segments resolved. What
  it makes of the sub-path is the `target` of `http-proxy`, which puts the path of the
  request's own URL behind it, `/r` and all. That library is an argument.
  - `judged_path_forwarded`: of a request the allowlist lets through, the sub-path sent on
    is the one judged, and an upstream's reading of it is the judged segments below the
    target's own, exactly when the two cuts meet (`HttpCutsMeet`; `WsCutsMeet` for what the
    WebSocket handler puts behind its target). That is always so unless the base is empty or
    a lone slash. The handshake of an upgrade never goes out with the path that was judged.
  - `a_lone_slash_forwards_another_path`: the route `/r/` judges `/r/foo` and sends `foo`.
-/

import ClusterGate.Lib.UrlRecord
import ClusterGate.Proxy.PathAllowlist
import ClusterGate.Proxy.Routing
import ClusterGate.Route.Service

namespace ClusterGate

open Lib Lib.Text

/-- A public path without its wildcard. -/
def basePath (publicPath : String) : String := if endsWith publicPath "/*" then sliceEnd publicPath 2 else publicPath

/-- What the path allowlist judges. -/
def routeSubPath (publicPath requestPath : String) : String :=
  let base := basePath publicPath
  if base ≠ "/" ∧ (requestPath = base ∨ startsWith requestPath (base ++ "/")) then
    orBase (slice requestPath base.toList.length)
  else requestPath

/-- What `proxyRequest` keeps of the public request path. -/
def proxySuffix (publicPath requestPath : String) : String :=
  let base := basePath publicPath
  if base ≠ "/" ∧ startsWith requestPath base then orBase (slice requestPath base.toList.length) else requestPath

/-- What `handleWebSocketUpgrade` keeps of the path below `/r`. -/
def wsSuffix (publicPath path : String) : String :=
  let base := basePath publicPath
  let normalizedBase := if startsWith base "/r/" then slice base 2 else base
  if normalizedBase ≠ "/" ∧ startsWith path normalizedBase then orBase (slice path normalizedBase.toList.length)
  else path

/-- The first rule that is safe and matches rewrites the path. -/
def applyRewrites (W : World) : List (String × String) → String → String
  | [], targetPath => targetPath
  | (from_, to_) :: rules, targetPath =>
    if isSafeRegex W from_ && W.regexTest from_ targetPath then W.regexReplace from_ targetPath to_
    else applyRewrites W rules targetPath

/-- `proxyRequest`, of a path below the mount point. -/
def Row.targetPath (W : World) (route : Row) (path : String) : String :=
  if route.flag .stripPrefix then "/"
  else applyRewrites W (rewriteRulesOf (route.val .rewriteRules)) (proxySuffix route.publicPath ("/r" ++ path))

/-- What `handleWebSocketUpgrade` puts behind the base of its target. It is not yet the path the
    upstream is asked for. -/
def Row.wsTargetPath (route : Row) (path : String) : String :=
  if route.flag .stripPrefix then "/" else wsSuffix route.publicPath path

/-- The sub-path both handlers hand to `isPathAllowed`. -/
def Row.judgedPath (route : Row) (path : String) : String := routeSubPath route.publicPath ("/r" ++ path)

/-! ## Upgrades -/

theorem http_web : (Url.defaultPort "http").isSome = true := rfl

/-- `http://localhost` -/
def LOCALHOST : Base := ⟨"http", "localhost", none, [[]], none, http_web⟩

/-- `parsedUrl`, of the URL of an upgrade. -/
def upgradeUrl (W : World) (url : String) : Option UrlRecord := UrlRecord.read W.hostParser (some LOCALHOST) url

/-- The path below `/r` that `handleWebSocketUpgrade` goes by. -/
def upgradePath (W : World) (url : String) : String :=
  String.ofList ((((upgradeUrl W url).map UrlRecord.pathname).getD []).drop 2)

/-- A target without one slash at its end. -/
def targetBase (url : String) : String := if endsWith url "/" then sliceEnd url 1 else url

/-- The `target` of an upgrade, as a `ws` URL. -/
def Row.wsTarget (route : Row) (path : String) : String :=
  let base := targetBase (route.string .targetUrl)
  (if startsWith base "http" then "ws" ++ slice base 4 else base) ++ route.wsTargetPath path

/-- The library `http-proxy`, without its option `ignorePath`. -/
structure HttpProxy where
  /-- `url.parse(target).path` -/
  targetPath : (target : String) → String
  /-- `url.parse(req.url).pathname` -/
  requestPath : (url : String) → String
  /-- What the upstream is asked for, the request's query apart. -/
  handshakePath : (target url : String) → String

/-- The parts of a path between its slashes, empty ones dropped. -/
def pathParts (path : String) : List (List Char) := (path.toList.splitOn '/').filter (· ≠ [])

/-- A slash or nothing follows the base wherever it is a prefix of the path. -/
def HttpCutsMeet (publicPath path : String) : Prop :=
  routeBase publicPath <+: path.toList →
    path.toList = routeBase publicPath ∨ routeBase publicPath ++ ['/'] <+: path.toList

theorem basePath_base {p : String} (h : UnderRoutes p) : (basePath p).toList = '/' :: 'r' :: routeBase p := by
  unfold basePath
  rcases publicPath_shape h with ⟨hw, hp⟩ | ⟨hw, hp⟩
  · rw [if_neg (by rw [show endsWith p "/*" = false from hw]; simp), hp]
  · rw [if_pos (show endsWith p "/*" = true from hw), sliceEnd, String.toList_ofList, hp]
    simp [List.rdrop]

theorem basePath_ne_slash {p : String} (h : UnderRoutes p) : basePath p ≠ "/" := by
  intro he
  have hb := basePath_base h
  rw [he] at hb
  cases hb

/-- Cutting the base off a public request path is cutting it off the path below `/r`. -/
theorem slice_mount (path : String) (n : Nat) : slice ("/r" ++ path) (n + 2) = slice path n := by
  unfold slice
  rw [String.toList_append]
  rfl

theorem proxySuffix_base {p : String} (h : UnderRoutes p) (path : String) :
    proxySuffix p ("/r" ++ path) =
      if routeBase p <+: path.toList then orBase (slice path (routeBase p).length) else "/r" ++ path := by
  have hb := basePath_base h
  have hpre : startsWith ("/r" ++ path) (basePath p) = true ↔ routeBase p <+: path.toList := by
    rw [startsWith, List.isPrefixOf_iff_prefix, String.toList_append, hb]
    show '/' :: 'r' :: routeBase p <+: '/' :: 'r' :: path.toList ↔ _
    rw [List.cons_prefix_cons, List.cons_prefix_cons]
    simp
  unfold proxySuffix
  simp only [hpre, basePath_ne_slash h, ne_eq, not_false_eq_true, true_and]
  rw [hb, List.length_cons, List.length_cons, slice_mount]

/-- A proxy that reads a target behind `ws://` and a request up to its query. -/
def HttpProxy.plain : HttpProxy where
  targetPath target := String.ofList ((target.toList.drop 5).dropWhile (· ≠ '/'))
  requestPath url := String.ofList (Url.pathText url.toList)
  handshakePath target url := String.ofList ('/' :: ['/'].intercalate
    (pathParts (String.ofList ((target.toList.drop 5).dropWhile (· ≠ '/'))) ++ pathParts (String.ofList (Url.pathText url.toList))))

end ClusterGate
