/-
  ClusterGate.Grouping.Folders — route folders (`routes/folders.router.ts`).

  A folder is of one organization, and so are the routes in it; without an organization
  it is the system admins' only.
-/

import ClusterGate.Grouping.Groups
import ClusterGate.Children.Targets

namespace ClusterGate

open Lib Lib.Act Lib.Zod

inductive FolderOp
  | create (body : Json)
  | update (id : String) (body : Json)
  | delete (id : String)
  | moveRoutes (id : String) (body : Json)
  | removeRoute (id routeId : String)

/-- `z.string().trim()` before its checks. -/
def trimmed (f : Leaf) : Leaf := fun v => match v with
  | .str s => f (.str (Text.trim s))
  | v => f v

def folderName : Leaf := trimmed (string [minLength 1, maxLength 100])

def folderSchema : Shape String := fun field => match field with
  | "name" => ZodType.leaf folderName
  | "organizationId" => ZodType.optional (.nullable textField)
  | _ => none

def folderUpdateSchema : Shape String := fun field => match field with
  | "name" => ZodType.optional (.leaf folderName)
  | "sortOrder" => ZodType.optional (.leaf (int 0 (some 100000)))
  | _ => none

def moveRoutesSchema : Shape String := fun field => match field with
  | "routeIds" => ZodType.leaf (array (string []) [(fun xs => 1 ≤ xs.length, none), (fun xs => xs.length ≤ 200, none)])
  | _ => none

/-- The folder, for a caller who manages its organization. -/
def requireFolderManage (u : Caller) (id : String) : Handler RouteFolder := do
  let s ← read
  let folder ← orThrow (s.routeFolders.get? id) (.notFound "Folder")
  require (u.role = .ADMIN ∨ ∃ org ∈ folder.organizationId.filter (· ≠ ""), canManageOrgRoutes s u org)
    (.notFound "Folder")
  pure folder

/-- `POST /`. -/
def postFolder (u : Caller) (d : Draw) (body : Json) : Handler Unit := do
  authorize u [.ADMIN, .OPERATOR]
  let data ← parseBody ["name", "organizationId"] folderSchema body
  let organizationId := textField? data "organizationId"
  let named := organizationId.filter (· ≠ "")
  let s ← read
  require (u.role = .ADMIN ∨ named.isSome) (.badRequest "Organization is required")
  require (u.role = .ADMIN ∨ ∃ org ∈ named, canManageOrgRoutes s u org)
    (.forbidden "You need Owner or Admin role in this organization to create folders")
  require (u.role ≠ .ADMIN ∨ ∀ org ∈ named, (s.organizations.get? org).isSome) (.notFound "Organization")
  require (s.routeFolders.get? d.rowId).isNone (.prisma "P2002")
  require (∀ org ∈ organizationId, (s.organizations.get? org).isSome) (.prisma "P2003")
  let folder : RouteFolder := { name := (textField? data "name").getD "", organizationId }
  modify fun s => { s with routeFolders := s.routeFolders.insert d.rowId folder }

def RouteFolder.withFields (f : RouteFolder) (data : String → Option Json) : RouteFolder :=
  { f with name := (textField? data "name").getD f.name, sortOrder := (intField? data "sortOrder").getD f.sortOrder }

/-- `PUT /:id`. -/
def putFolder (u : Caller) (id : String) (body : Json) : Handler Unit := do
  authorize u [.ADMIN, .OPERATOR]
  let _ ← requireFolderManage u id
  let data ← parseBody ["name", "sortOrder"] folderUpdateSchema body
  modify fun s => { s with routeFolders := s.routeFolders.modify id fun f => f.withFields data }

def unfold : Patch := Patch.ofList [(.folderId, .null)]

/-- `DELETE /:id`: the database takes the folder out of its routes. -/
def deleteFolder (u : Caller) (id : String) : Handler Unit := do
  authorize u [.ADMIN, .OPERATOR]
  let _ ← requireFolderManage u id
  modify fun s => { s with
    routeFolders := s.routeFolders.erase id,
    routes := s.routes.mapRows (writtenIf (fun _ r => r.val .folderId = .str id) unfold) }

/-- `POST /:id/routes`: every route is the caller's to manage and of the folder's organization. -/
def postFolderRoutes (u : Caller) (d : Draw) (id : String) (body : Json) : Handler Unit := do
  authorize u [.ADMIN, .OPERATOR]
  let folder ← requireFolderManage u id
  let data ← parseBody ["routeIds"] moveRoutesSchema body
  let ids := dedupe (textList data "routeIds")
  let s ← read
  require (∀ i ∈ ids, canManageRoute s u i) (.notFound "Route")
  require (∀ i ∈ ids, (liveRoute? s i).isSome) (.notFound "Route")
  require (∀ i ∈ ids, ∀ r ∈ liveRoute? s i, r.val .organizationId = (folder.organizationId.map Json.str).getD .null)
    (.badRequest "Routes must belong to the folder's organization")
  let _ ← routeUpdateMany d.now (fun i _ => ids.contains i) (Patch.ofList [(.folderId, .str id)])

/-- `DELETE /:id/routes/:routeId`. -/
def deleteFolderRoute (u : Caller) (d : Draw) (id routeId : String) : Handler Unit := do
  authorize u [.ADMIN, .OPERATOR]
  requireRouteManage u routeId
  let _ ← requireFolderManage u id
  let count ← routeUpdateMany d.now (fun i r => i = routeId && r.val .folderId = .str id) unfold
  require (count ≠ 0) (.notFound "Route")

def FolderOp.perform (u : Caller) (d : Draw) : FolderOp → Handler Unit
  | .create body => postFolder u d body
  | .update id body => putFolder u id body
  | .delete id => deleteFolder u id
  | .moveRoutes id body => postFolderRoutes u d id body
  | .removeRoute id routeId => deleteFolderRoute u d id routeId

end ClusterGate
