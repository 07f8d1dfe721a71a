/-
  ClusterGate.Route.Router — the endpoints that write routes (`routes/routes.router.ts`).

  An id in a path may be a route's slug; it is resolved before the handler runs, so an
  operation here carries the resolved id. Audit entries, achievements and the metric of
  active routes are left out.
-/

import ClusterGate.Route.Lifecycle
import ClusterGate.Change.Service
import ClusterGate.Body

namespace ClusterGate

open Lib Lib.Act Lib.Zod

/-- A call of one of the endpoints. -/
inductive RouteOp
  | create (body : Json)
  | update (id : String) (body : Json)
  | restore (id : String)
  | deletePermanently (id : String)
  | delete (id : String) (confirmName : Option String)
  | publish (id : String)
  | deactivate (id : String)
  | duplicate (id : String)
  | restoreVersion (id versionId : String)
  /-- With what each of the routes draws. -/
  | import (draws : Nat → Draw) (body : Json)
  | bulkUpdate (body : Json)
  | bulkPublish (body : Json)
  | bulkDeactivate (body : Json)
  | bulkDelete (body : Json)

/-! ## Create and update -/

/-- Callers other than system admins name an organization whose routes they manage. -/
def requireOwnOrg (u : Caller) (organizationId : Json) : Handler Unit := do
  let s ← read
  require (u.role = .ADMIN ∨ organizationId.truthy) (respond 400 "Organization is required")
  require (u.role = .ADMIN ∨ ∃ org ∈ organizationId.str?, canManageOrgRoutes s u org)
    (respond 403 "You need Owner or Admin role in this organization to create routes")

/-- `POST /`. -/
def postRoute (W : World) (u : Caller) (d : Draw) (body : Json) : Handler Row := do
  let data ← ofExcept (routeData W (routeBodySchema W) body)
  requireOwnOrg u ((data .organizationId).getD .null)
  createRoute W d data u.userId

def changedFields (current : Row) (data : Patch) : Nat :=
  (Column.all.filter fun c => match data c with
    | some v => v ≠ current.val c
    | none => false).length

/-- The `diff` of a change request: what each field is changed from, and to. -/
abbrev Diff := Column → Option (Json × Json)

def diffOf (current : Row) (data : Patch) : Diff := fun c =>
  ((data c).filter (· ≠ current.val c)).map fun value => (current.val c, value)

/-- The request a filed update becomes. -/
def updateRequest (u : Caller) (id : String) (existing : Row) (data : Patch) : ChangeRequest where
  routeId := some id
  type := "update"
  title := "Update route: " ++ (existing.text .name).getD ""
  description := some ("Proposed changes to " ++ toString (changedFields existing data) ++ " field(s)")
  payload := data
  requestedById := u.userId

/-- The change request a guarded update becomes, with its diff. -/
def requestUpdate (W : World) (u : Caller) (d : Draw) (id : String) (data : Patch) : Handler (ChangeRequest × Diff) := do
  let current ← findLive id
  when ((data .targetUrl).getD .null).truthy
    (assertRouteTargetAllowed W (textOf (data .targetUrl)) (current.val .organizationId))
  crCreate d.rowId (updateRequest u id current data)
  pure (updateRequest u id current data, diffOf current data)

/-- What an update comes to. -/
inductive Updated
  | written (route : Row)
  | requested (request : ChangeRequest) (diff : Diff)

/-- `PUT /:id`. -/
def putRoute (W : World) (u : Caller) (d : Draw) (id : String) (body : Json) : Handler Updated := do
  let data ← ofExcept (routeData W (partialUpdate (routeBodySchema W)) body)
  let s ← read
  require (u.role = .ADMIN ∨ canManageRoute s u id)
    (respond 403 "You need Owner or Admin role in this route's organization")
  if canBypass s u id then do
    let route ← updateRoute W d id data u.userId
    pure (.written route)
  else do
    let (request, diff) ← requestUpdate W u d id data
    pure (.requested request diff)

/-! ## One route -/

/-- The archived route, for its organization's owner or a system admin. -/
def requireArchivedDelete (u : Caller) (id verb : String) : Handler Unit := do
  let s ← read
  let route ← orThrow (archivedRoute? s id) (respond 404 "Archived route not found")
  require (u.role = .ADMIN ∨ route.orgId.isSome) (respond 403 "Only admins can manage routes without an organization")
  require (u.role = .ADMIN ∨ ∃ org ∈ route.orgId, canDeleteOrgRoutes s u org)
    (respond 403 ("You need Owner/Admin role in this route's organization to " ++ verb ++ " it"))

/-- `POST /:id/restore`. -/
def postRestore (u : Caller) (d : Draw) (id : String) : Handler Row := do
  requireArchivedDelete u id "restore"
  restoreRoute d.now id u.userId

/-- `DELETE /:id/permanent`. -/
def deletePermanent (u : Caller) (id : String) : Handler Unit := do
  requireArchivedDelete u id "permanently delete"
  permanentlyDeleteRoute id

/-- `DELETE /:id`. -/
def deleteRouteById (u : Caller) (d : Draw) (id : String) (confirmName : Option String) : Handler Unit := do
  let s ← read
  require (canDeleteRoute s u id) (respond 403 "You need Owner role in this route's organization to delete routes")
  deleteRoute d.now id confirmName

/-- The caller may manage the route. -/
def requireManage (u : Caller) (id : String) : Handler Unit := do
  let s ← read
  require (u.role = .ADMIN ∨ canManageRoute s u id) (respond 403 "Insufficient permissions")

/-- `POST /:id/publish`. -/
def postPublish (u : Caller) (d : Draw) (id : String) : Handler Row := do
  requireManage u id
  publishRoute d.now id u.userId

/-- `POST /:id/deactivate`. -/
def postDeactivate (u : Caller) (d : Draw) (id : String) : Handler Row := do
  requireManage u id
  deactivateRoute d.now id u.userId

/-- `POST /:id/duplicate`. -/
def postDuplicate (u : Caller) (d : Draw) (id : String) : Handler Row := do
  requireManage u id
  duplicateRoute d.now d.routeId id u.userId

/-- `POST /:id/versions/:versionId/restore`. -/
def postRestoreVersion (W : World) (u : Caller) (d : Draw) (id versionId : String) : Handler Row := do
  authorize u [.ADMIN]
  restoreRouteVersion W d id versionId u.userId

/-! ## Many routes -/

/-- The routes of an import body, each parsed. -/
def parseImport (W : World) (body : Json) : Except Err (List Patch) :=
  match body.get? "routes" with
  | some (.arr routes) => routes.mapM (routeData W (routeBodySchema W))
  | _ => .error (.zod [⟨"routes", none⟩])

def withDraws (draws : Nat → Draw) (routes : List Patch) : List (Draw × Patch) :=
  routes.zipIdx.map fun r => (draws r.2, r.1)

/-- `POST /import`: how many were created, and the errors of the others. -/
def postImport (W : World) (u : Caller) (draws : Nat → Draw) (body : Json) : Handler (Nat × List Err) := do
  authorize u [.ADMIN]
  let routes ← ofExcept (parseImport W body)
  importRoutes W u.userId (withDraws draws routes)

def bulkIds : ZodType :=
  .leaf (array (string []) [(fun xs => 1 ≤ xs.length, none), (fun xs => xs.length ≤ 100, none)])

def bulkIdsSchema : Shape String := fun field => match field with
  | "ids" => bulkIds
  | _ => none

def bulkUpdateSchema : Shape String := fun field => match field with
  | "ids" => bulkIds
  | "environment" => ZodType.optional (.leaf (enum ["NONE", "PRODUCTION", "STAGING", "DEVELOPMENT"]))
  | "routeGroupId" => ZodType.optional (.nullable textField)
  | "addTags" => ZodType.optional (.leaf (array (string [maxLength 50]) [(fun xs => xs.length ≤ 20, none)]))
  | _ => none

def bulkPatchOf (data : String → Option Json) : BulkPatch := ⟨data "environment", data "routeGroupId", textList data "addTags"⟩

/-- The patch says nothing. -/
def BulkPatch.isEmpty (patch : BulkPatch) : Bool :=
  !(patch.environment.getD .null).truthy && patch.routeGroupId.isNone && patch.addTags.isEmpty

/-- `POST /bulk/update`: how many routes. -/
def postBulkUpdate (u : Caller) (d : Draw) (body : Json) : Handler Nat := do
  authorize u [.ADMIN, .OPERATOR]
  let data ← parseBody ["ids", "environment", "routeGroupId", "addTags"] bulkUpdateSchema body
  require ((bulkPatchOf data).isEmpty = false)
    (.badRequest "Provide at least one of: environment, routeGroupId, addTags")
  bulkUpdate d.now (textList data "ids") (bulkPatchOf data) u.userId

/-- `POST /bulk/publish`. -/
def postBulkPublish (u : Caller) (d : Draw) (body : Json) : Handler Nat := do
  authorize u [.ADMIN, .OPERATOR]
  let data ← parseBody ["ids"] bulkIdsSchema body
  bulkPublish d.now (textList data "ids") u.userId

/-- `POST /bulk/deactivate`. -/
def postBulkDeactivate (u : Caller) (d : Draw) (body : Json) : Handler Nat := do
  authorize u [.ADMIN, .OPERATOR]
  let data ← parseBody ["ids"] bulkIdsSchema body
  bulkDeactivate d.now (textList data "ids") u.userId

/-- The routes a bulk delete takes: neither active nor protected, and the caller's to delete. -/
def eligible (s : Store) (u : Caller) (ids : List String) : List String :=
  ((s.routes.filter fun id r => liveAmong ids id r && !r.flag .isActive && !r.flag .protected_ &&
    canDeleteRoute s u id).rows).map Prod.fst

/-- `POST /bulk/delete`: how many routes, and how many of the ids were passed over. -/
def postBulkDelete (u : Caller) (d : Draw) (body : Json) : Handler (Nat × Int) := do
  authorize u [.ADMIN, .OPERATOR]
  let data ← parseBody ["ids"] bulkIdsSchema body
  let s ← read
  let ids := eligible s u (textList data "ids")
  let count ← (if ids ≠ [] then bulkDelete d.now ids else pure 0 : Handler Nat)
  pure (count, (textList data "ids").length - count)

def RouteOp.perform (W : World) (u : Caller) (d : Draw) : RouteOp → Handler Unit
  | .create body => do let _ ← postRoute W u d body
  | .update id body => do let _ ← putRoute W u d id body
  | .restore id => do let _ ← postRestore u d id
  | .deletePermanently id => deletePermanent u id
  | .delete id confirmName => deleteRouteById u d id confirmName
  | .publish id => do let _ ← postPublish u d id
  | .deactivate id => do let _ ← postDeactivate u d id
  | .duplicate id => do let _ ← postDuplicate u d id
  | .restoreVersion id versionId => do let _ ← postRestoreVersion W u d id versionId
  | .import draws body => do let _ ← postImport W u draws body
  | .bulkUpdate body => do let _ ← postBulkUpdate u d body
  | .bulkPublish body => do let _ ← postBulkPublish u d body
  | .bulkDeactivate body => do let _ ← postBulkDeactivate u d body
  | .bulkDelete body => do let _ ← postBulkDelete u d body

end ClusterGate
