/-
  ClusterGate.Route.Answers — what the endpoints of the routes router answer
  (`routes/routes.router.ts`, the reads of `services/routeService.ts`, and
  `stripSensitiveRouteFields` of `lib/security.ts`).

  An answer is the body of a response that is no error. The list and the single route are
  shown with their secrets masked, an export without them; every other answer shows a row,
  or a snapshot of one, as it is stored. What is shown beside a row comes from tables that
  know nothing of secrets (`Tables`). The endpoints that send a request through a route or
  to a target, and those of settings that are no route's, are left out.
  - `RouteOp.answer_performs`: an endpoint that writes leaves what it leaves whether or not
    its answer is looked at.
-/

import ClusterGate.Route.Router
import Mathlib.Data.List.Sort

namespace ClusterGate

open Lib Lib.Act

/-! ## What stands beside the routes -/

/-- The tables the endpoints join to a route or report from, and how the database compares
    texts. -/
structure Tables where
  /-- `{ id, name, email }`. -/
  user : String → Json
  /-- `{ id, name }`. -/
  userName : String → Json
  /-- `{ id, name, slug }`. -/
  organization : String → Json
  /-- The latest check of a route, as a list. -/
  healthChecks : String → Json
  /-- The active keys of a route. -/
  apiKeys : String → Json
  requestLogs : String → Nat
  versionCreatedAt : String → Json
  /-- `getRouteUptime`. -/
  uptime : (routeId : String) → (days : Int) → Json
  /-- `getRouteLogs`, redacted for a viewer. -/
  logs : Role → (routeId : String) → (query : List (String × String)) → Json
  /-- `getRouteStats` and `getDailyRequestCounts`. -/
  stats : (routeId : String) → Json
  /-- `checkRouteHealth`, by what it reads of the route. -/
  probe : (routeId : String) → (read : List Json) → Json
  /-- `contains`, in any case. -/
  ilike : (text pattern : String) → Bool
  /-- Whether a value of a column comes at or before another. -/
  atOrBefore : Column → Json → Json → Bool

/-- A joined row, null where the column is. -/
def joined (table : String → Json) (key : Json) : Json :=
  match key with
  | .str id => table id
  | _ => .null

/-! ## What an answer shows -/

/-- A row of an answer: its id, its columns, and what is joined to it. -/
structure Shown where
  id : String
  columns : Column → Json
  beside : List (String × Json) := []

structure ShownVersion where
  id : String
  version : RouteVersion
  createdAt : Json
  createdBy : Json

inductive Answer
  | page (data : List Shown) (total : Nat) (page : Int) (pageSize totalPages : Nat)
  | routes (data : List Shown)
  /-- The route at a path; nothing where no path was asked for. -/
  | path (existingRoute : Option (Option (String × Json)))
  | exported (data : List (Column → Option Json)) (exportedAt : String)
  | versions (data : List ShownVersion)
  | route (data : Shown)
  | requested (id : String) (request : ChangeRequest) (diff : Diff) (requestedBy : Json)
  | count (count : Nat)
  | deleted (count : Nat) (skipped : Int)
  | imported (created : Nat) (errors : List Err)
  | report (data : Json)
  /-- A message alone. -/
  | done

def SENSITIVE_ROUTE_FIELDS : List Column := [.authValue, .webhookSecret, .upstreamAuthValue]

def stripSensitiveRouteFields (columns : Column → Json) : Column → Json := fun c =>
  if c ∈ SENSITIVE_ROUTE_FIELDS ∧ (columns c).truthy then MASK else columns c

/-! ## Reading -/

def looksLikeCuid (value : String) : Bool :=
  match value.toList with
  | 'c' :: cs => cs.all isSlugChar && decide (20 ≤ cs.length) && decide (cs.length ≤ 30)
  | _ => false

/-- `resolveRouteId`: by id if it looks like one, else by slug. -/
def resolveRouteId (s : Store) (idOrSlug : String) : Option String :=
  if looksLikeCuid idOrSlug ∧ (s.routes.get? idOrSlug).isSome then some idOrSlug
  else (s.routes.find? fun _ r => r.val .slug = .str idOrSlug).map Prod.fst

def getUserOrgIds (s : Store) (userId : String) : List String :=
  (s.orgMemberships.rows.filter fun m => m.1.1 = userId).map fun m => m.1.2

/-- The organizations a caller's routes are looked for in; an admin's are not limited. -/
def orgScope (s : Store) (u : Caller) : Option (List String) :=
  if u.role = .ADMIN then none else some (getUserOrgIds s u.userId)

def inScope (orgs : Option (List String)) (r : Row) : Bool :=
  match orgs with
  | none => true
  | some ids => (r.text .organizationId).any ids.contains

/-- The query of `GET /`, its numbers parsed. -/
structure RouteQuery where
  search : Option String := none
  status : Option String := none
  isActive : Option Bool := none
  tags : Option (List String) := none
  environment : Option String := none
  organizationId : Option String := none
  sortBy : Option String := none
  sortDir : Option String := none
  page : Int := 1
  pageSize : Nat := 20

/-- `where` of `getRoutes`. -/
def RouteQuery.selects (T : Tables) (orgs : Option (List String)) (q : RouteQuery) (r : Row) : Bool :=
  r.live &&
  (match q.search.filter (· ≠ "") with
    | some text => [Column.name, .description, .publicPath, .targetUrl].any fun c => (r.text c).any (T.ilike · text)
    | none => true) &&
  (match q.status with
    | some status => r.val .status = .str status
    | none => true) &&
  (match q.isActive with
    | some active => r.val .isActive = .bool active
    | none => true) &&
  (match q.tags.filter (· ≠ []) with
    | some tags => tags.any (r.strings .tags).contains
    | none => true) &&
  (match q.environment.filter (· ≠ "") with
    | some environment => r.val .environment = .str environment
    | none => true) &&
  inScope orgs r &&
  (match q.organizationId.filter (· ≠ "") with
    | some org => r.val .organizationId = .str org
    | none => true)

/-- The database takes the query: the values of enumerations, and the direction. -/
def RouteQuery.valid (q : RouteQuery) : Bool :=
  (q.status.all fun v => Column.status.admits (.str v)) &&
  (q.environment.all fun v => v = "" || Column.environment.admits (.str v)) &&
  (q.sortDir.all fun v => ["", "asc", "desc"].contains v)

def RouteQuery.sortColumn (q : RouteQuery) : Column :=
  match q.sortBy with
  | some "name" => .name
  | some "updatedAt" => .updatedAt
  | some "status" => .status
  | _ => .createdAt

/-- A row comes at or before another in the order of the query. -/
def RouteQuery.inOrder (T : Tables) (q : RouteQuery) (x y : String × Row) : Prop :=
  (if q.sortDir = some "asc" then T.atOrBefore q.sortColumn (x.2.val q.sortColumn) (y.2.val q.sortColumn)
    else T.atOrBefore q.sortColumn (y.2.val q.sortColumn) (x.2.val q.sortColumn)) = true

instance (T : Tables) (q : RouteQuery) : DecidableRel (q.inOrder T) := fun _ _ => inferInstanceAs (Decidable (_ = true))

def RouteQuery.skip (q : RouteQuery) : Int := (q.page - 1) * q.pageSize

/-- The rows of the page asked for. -/
def pageRows (T : Tables) (s : Store) (orgs : Option (List String)) (q : RouteQuery) : List (String × Row) :=
  let rows := (s.routes.filter fun _ r => q.selects T orgs r).rows
  ((rows.insertionSort (q.inOrder T)).drop q.skip.toNat).take q.pageSize

/-- A route of a list, masked. -/
def listed (T : Tables) (x : String × Row) : Shown where
  id := x.1
  columns := stripSensitiveRouteFields x.2.val
  beside := [("createdBy", joined T.user (x.2.val .createdById)), ("updatedBy", joined T.user (x.2.val .updatedById)),
    ("organization", joined T.organization (x.2.val .organizationId)), ("healthChecks", T.healthChecks x.1),
    ("_count", .obj [("requestLogs", .num (T.requestLogs x.1))])]

def getRoutes (T : Tables) (s : Store) (orgs : Option (List String)) (q : RouteQuery) : Except Err Answer :=
  let total := (s.routes.filter fun _ r => q.selects T orgs r).rows.length
  if q.valid = false then .error .prismaValidation
  else if q.skip < 0 then .error (.prisma "P2019")
  else .ok (.page ((pageRows T s orgs q).map (listed T)) total q.page q.pageSize ((total + q.pageSize - 1) / q.pageSize))

/-- `GET /`: a caller of no organization is not looked up anything. -/
def listRoutes (T : Tables) (s : Store) (u : Caller) (q : RouteQuery) : Except Err Answer :=
  if orgScope s u = some [] then .ok (.page [] 0 1 20 0) else getRoutes T s (orgScope s u) q

def isArchivedOf (orgs : Option (List String)) (r : Row) : Bool := !r.live && inScope orgs r

def archivedLater (T : Tables) (x y : String × Row) : Prop :=
  T.atOrBefore .deletedAt (y.2.val .deletedAt) (x.2.val .deletedAt) = true

instance (T : Tables) : DecidableRel (archivedLater T) := fun _ _ => inferInstanceAs (Decidable (_ = true))

def archivedRows (T : Tables) (s : Store) (orgs : Option (List String)) : List (String × Row) :=
  ((s.routes.filter fun _ r => isArchivedOf orgs r).rows.insertionSort (archivedLater T)).take 200

/-- An archived route with its path and slug as they were. -/
def unarchived (T : Tables) (x : String × Row) : Shown where
  id := x.1
  columns c := if c = .publicPath ∨ c = .slug then unmangleArchive (x.2.val c) x.1 else x.2.val c
  beside := [("createdBy", joined T.userName (x.2.val .createdById)), ("updatedBy", joined T.userName (x.2.val .updatedById)),
    ("organization", joined T.organization (x.2.val .organizationId))]

/-- `getArchivedRoutes`. -/
def getArchivedRoutes (T : Tables) (s : Store) (u : Caller) : Answer :=
  .routes ((archivedRows T s (orgScope s u)).map (unarchived T))

/-- `GET /check-path`. -/
def checkPath (s : Store) (path excludeId : Option String) : Answer :=
  match path.filter (· ≠ "") with
  | none => .path none
  | some path =>
    let excluded := (excludeId.filter (· ≠ "")).map fun id => (resolveRouteId s id).getD id
    .path (some ((s.routes.find? fun id r => r.val .publicPath = .str path && r.live && decide (excluded ≠ some id)).map
      fun x => (x.1, x.2.val .name)))

def EXPORTED : List Column :=
  [.name, .description, .publicPath, .targetUrl, .methods, .status, .tags, .environment, .timeout, .retryCount,
   .retryDelay, .stripPrefix, .sslVerify, .streamResponse, .rewriteRedirects, .sandbox, .requestBodyLimit, .addHeaders,
   .removeHeaders, .rewriteRules, .corsEnabled, .corsOrigins, .ipAllowlist, .pathAllowlist, .requireAuth, .authType,
   .upstreamAuthType, .upstreamAuthHeader, .targetType, .healthCheckMethod, .healthCheckPath, .healthCheckBody,
   .healthCheckInterval, .maintenanceMode, .maintenanceMessage, .rateLimitEnabled, .rateLimitMax, .rateLimitWindow,
   .wsEnabled, .circuitBreakerEnabled, .cbFailureThreshold, .cbRecoveryTimeout, .lbStrategy, .protected_]

def exportedRow (x : String × Row) : Column → Option Json := fun c => if c ∈ EXPORTED then some (x.2.val c) else none

/-- `exportRoutes`. -/
def exportRoutes (s : Store) (u : Caller) (now : String) : Answer :=
  .exported ((s.routes.filter fun _ r => r.live && inScope (orgScope s u) r).rows.map exportedRow) now

/-- A route on its own, masked. -/
def detailed (T : Tables) (s : Store) (id : String) (r : Row) : Shown where
  id := id
  columns := stripSensitiveRouteFields r.val
  beside := [("createdBy", joined T.user (r.val .createdById)), ("updatedBy", joined T.user (r.val .updatedById)),
    ("organization", joined T.organization (r.val .organizationId)), ("healthChecks", T.healthChecks id),
    ("apiKeys", T.apiKeys id), ("_count", .obj [("requestLogs", .num (T.requestLogs id)),
      ("versions", .num ((s.routeVersions.filter fun _ v => v.routeId = id).rows.length : Nat))])]

def laterVersion (T : Tables) (x y : String × RouteVersion) : Prop := T.atOrBefore .version y.2.version x.2.version = true

instance (T : Tables) : DecidableRel (laterVersion T) := fun _ _ => inferInstanceAs (Decidable (_ = true))

def versionRows (T : Tables) (s : Store) (routeId : String) : List (String × RouteVersion) :=
  (s.routeVersions.filter fun _ v => v.routeId = routeId).rows.insertionSort (laterVersion T)

def shownVersion (T : Tables) (x : String × RouteVersion) : ShownVersion :=
  ⟨x.1, x.2, T.versionCreatedAt x.1, joined T.user (.str x.2.createdById)⟩

/-- What `checkRouteHealth` reads of a route. -/
def PROBED : List Column :=
  [.name, .targetUrl, .targetType, .sslVerify, .healthCheckMethod, .healthCheckPath, .healthCheckBody]

/-! ## The endpoints -/

/-- A call of an endpoint of the router. -/
inductive RouteCall
  | list (query : RouteQuery)
  | archived
  | checkPath (path excludeId : Option String)
  | export
  | get (id : String)
  | versions (id : String)
  | uptime (id : String) (days : Int)
  | health (id : String)
  | logs (id : String) (query : List (String × String))
  | stats (id : String)
  | write (op : RouteOp)

/-- `requireRouteView`. -/
def requireRouteView (u : Caller) (id : String) : Handler Unit := do
  let s ← read
  require (canViewRouteById s u id) (.notFound "Route")

/-- A row as it is stored. -/
def stored (id : String) (r : Row) : Answer := .route { id, columns := r.val }

def Updated.answer (T : Tables) (u : Caller) (d : Draw) (id : String) : Updated → Answer
  | .written route => stored id route
  | .requested request diff => .requested d.rowId request diff (T.user u.userId)

def RouteOp.answer (T : Tables) (W : World) (u : Caller) (d : Draw) : RouteOp → Handler Answer
  | .create body => do let route ← postRoute W u d body; pure (stored d.routeId route)
  | .update id body => do let updated ← putRoute W u d id body; pure (updated.answer T u d id)
  | .restore id => do let route ← postRestore u d id; pure (stored id route)
  | .deletePermanently id => do let _ ← deletePermanent u id; pure .done
  | .delete id confirmName => do let _ ← deleteRouteById u d id confirmName; pure .done
  | .publish id => do let route ← postPublish u d id; pure (stored id route)
  | .deactivate id => do let route ← postDeactivate u d id; pure (stored id route)
  | .duplicate id => do let route ← postDuplicate u d id; pure (stored d.routeId route)
  | .restoreVersion id versionId => do let route ← postRestoreVersion W u d id versionId; pure (stored id route)
  | .import draws body => do let result ← postImport W u draws body; pure (.imported result.1 result.2)
  | .bulkUpdate body => do let count ← postBulkUpdate u d body; pure (.count count)
  | .bulkPublish body => do let count ← postBulkPublish u d body; pure (.count count)
  | .bulkDeactivate body => do let count ← postBulkDeactivate u d body; pure (.count count)
  | .bulkDelete body => do let result ← postBulkDelete u d body; pure (.deleted result.1 result.2)

/-- `GET /:id`. -/
def getRoute (T : Tables) (u : Caller) (id : String) : Handler Answer := do
  requireRouteView u id
  let s ← read
  let route ← findLive id
  pure (.route (detailed T s id route))

/-- `GET /:id/versions`. -/
def getVersions (T : Tables) (u : Caller) (id : String) : Handler Answer := do
  requireRouteView u id
  let _ ← findLive id
  let s ← read
  pure (.versions ((versionRows T s id).map (shownVersion T)))

def RouteCall.answer (T : Tables) (W : World) (u : Caller) (d : Draw) : RouteCall → Handler Answer
  | .list query => do let s ← read; ofExcept (listRoutes T s u query)
  | .archived => do let s ← read; pure (getArchivedRoutes T s u)
  | .checkPath path excludeId => do let s ← read; pure (ClusterGate.checkPath s path excludeId)
  | .export => do
    authorize u [.ADMIN, .OPERATOR]
    let s ← read
    pure (exportRoutes s u d.now)
  | .get id => getRoute T u id
  | .versions id => getVersions T u id
  | .uptime id days => do
    requireRouteView u id
    let _ ← findLive id
    pure (.report (T.uptime id days))
  | .health id => do
    requireRouteView u id
    let route ← findLive id
    pure (.report (T.probe id (PROBED.map route.val)))
  | .logs id query => do
    requireRouteView u id
    pure (.report (T.logs u.role id query))
  | .stats id => do
    requireRouteView u id
    pure (.report (T.stats id))
  | .write op => op.answer T W u d

/-! ## Answering and writing -/

theorem RouteOp.answer_performs (T : Tables) (W : World) (u : Caller) (d : Draw) (op : RouteOp) (s : Store) :
    (op.answer T W u d s).2 = (op.perform W u d s).2 := by
  have same : ∀ {α : Type} (x : Handler α) (f : α → Answer),
      ((do let a ← x; pure (f a) : Handler Answer) s).2 = ((do let _ ← x : Handler Unit) s).2 := fun x f =>
    (bind_pure_state x f s).trans (bind_pure_state x (fun _ => ()) s).symm
  cases op with
  | delete id confirmName => exact bind_pure_state _ _ s
  | deletePermanently id => exact bind_pure_state _ _ s
  | create body => exact same _ _
  | update id body => exact same _ _
  | restore id => exact same _ _
  | publish id => exact same _ _
  | deactivate id => exact same _ _
  | duplicate id => exact same _ _
  | restoreVersion id versionId => exact same _ _
  | «import» draws body => exact same _ _
  | bulkUpdate body => exact same _ _
  | bulkPublish body => exact same _ _
  | bulkDeactivate body => exact same _ _
  | bulkDelete body => exact same _ _

end ClusterGate
