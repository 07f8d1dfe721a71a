/-
  ClusterGate.Grouping.Groups — route groups: their change policy and which routes are
  in them (`routes/routegroups.router.ts`, `services/routeGroupService.ts`).

  A group belongs to the organization of its team; without a team it is the system
  admins' only. The defaults a group may carry for its routes are checked by the schema
  and stored, but nothing modelled reads them, so a row here leaves them out.
-/

import ClusterGate.Route.Service
import ClusterGate.Body

namespace ClusterGate

open Lib Lib.Act Lib.Zod

inductive GroupOp
  | create (body : Json)
  | update (id : String) (body : Json)
  | delete (id : String)
  | assign (id routeId : String)
  | remove (id routeId : String)

/-! ## Access -/

/-- The organization of a group's team. -/
def groupOrg? (s : Store) (groupId : String) : Option String :=
  ((s.routeGroups.get? groupId).bind fun g => g.teamId.bind fun t => (s.teams.get? t).map Team.organizationId).filter
    (· ≠ "")

/-- `assertGroupAccess`, to manage. -/
def assertGroupManage (u : Caller) (groupId : String) : Handler Unit := do
  let s ← read
  require (u.role = .ADMIN ∨ ∃ org ∈ groupOrg? s groupId, canManageOrgRoutes s u org) (.notFound "Route group")

/-- A team assigned to a group is of an organization the caller manages. -/
def assertTeamManageable (u : Caller) (teamId : Option String) : Handler Unit := do
  let s ← read
  let teamId := teamId.filter (· ≠ "")
  require (u.role = .ADMIN ∨ teamId.isSome)
    (.forbidden "A team is required so the group belongs to an organization")
  require (u.role = .ADMIN ∨ ∃ team ∈ teamId.bind s.teams.get?, canManageOrgRoutes s u team.organizationId)
    (.notFound "Team")

/-! ## The schema -/

def orgRoles : Leaf := array (enum ["OWNER", "ADMIN", "MEMBER"])

def routeGroupSchema : Shape String := fun field => match field with
  | "name" => textField [minLength 1, maxLength 100]
  | "description" => ZodType.optional (textField [maxLength 500])
  | "pathPrefix" => textField [minLength 3, startsWithCheck "/r/"]
  | "teamId" => ZodType.optional textField
  | "defaultTimeout" => ZodType.optional (.leaf (int 1000 (some 120000)))
  | "defaultRetryCount" => ZodType.optional (.leaf (int 0 (some 5)))
  | "defaultRateLimitEnabled" => ZodType.optional (.leaf boolean)
  | "defaultRateLimitMax" => ZodType.optional (.leaf (int 1 none))
  | "defaultRateLimitWindow" => ZodType.optional (.leaf (int 1000 none))
  | "defaultAuthType" => ZodType.optional (.leaf (enum Column.authTypes))
  | "defaultAuthValue" => ZodType.optional textField
  | "defaultAddHeaders" => ZodType.optional (.leaf (record (string [])))
  | "defaultRemoveHeaders" => ZodType.optional (.leaf strings)
  | "defaultCorsEnabled" => ZodType.optional (.leaf boolean)
  | "defaultCorsOrigins" => ZodType.optional (.leaf strings)
  | "defaultIpAllowlist" => ZodType.optional (.leaf strings)
  | "changeRequestsEnabled" => ZodType.optional (.nullable (.leaf boolean))
  | "crBypassRoles" => ZodType.optional (.leaf orgRoles)
  | "crApproverRoles" => ZodType.optional (.leaf orgRoles)
  | _ => none

def routeGroupFields : List String :=
  ["name", "description", "pathPrefix", "teamId", "defaultTimeout", "defaultRetryCount", "defaultRateLimitEnabled",
   "defaultRateLimitMax", "defaultRateLimitWindow", "defaultAuthType", "defaultAuthValue", "defaultAddHeaders",
   "defaultRemoveHeaders", "defaultCorsEnabled", "defaultCorsOrigins", "defaultIpAllowlist", "changeRequestsEnabled",
   "crBypassRoles", "crApproverRoles"]

def orgRole? : String → Option OrgRole
  | "OWNER" => some .OWNER
  | "ADMIN" => some .ADMIN
  | "MEMBER" => some .MEMBER
  | _ => none

/-- The roles of a parsed list, if the body has it. -/
def rolesField? (data : String → Option Json) (field : String) : Option (List OrgRole) :=
  (data field).map fun v => (v.strList?.getD []).filterMap orgRole?

/-- A nullable flag: null is absent. -/
def nullableFlag : Json → Option Bool
  | .bool b => some b
  | _ => none

/-! ## The service -/

/-- `pickGroupSlug`. -/
def pickGroupSlug (W : World) (s : Store) (name : String) (excludeId : Option String) : Option String :=
  (slugify W name).bind fun base =>
    slugLoop (fun c => s.routeGroups.any fun k g => excludeId ≠ some k && g.slug = some c) base 50 1 base

def prefixTaken (s : Store) (id : Option String) (pathPrefix : String) : Bool :=
  s.routeGroups.any fun k g => some k ≠ id && g.pathPrefix = pathPrefix

/-- What the database asks of a written group row. -/
def groupWritable (s : Store) (id : Option String) (g : RouteGroup) : Handler Unit := do
  require (¬ prefixTaken s id g.pathPrefix ∧ ¬ (g.slug.isSome ∧ s.routeGroups.any fun k h => some k ≠ id && h.slug = g.slug))
    (.prisma "P2002")
  require (∀ t ∈ g.teamId, (s.teams.get? t).isSome) (.prisma "P2003")

/-- `createRouteGroup`: the change policy of the body is not taken over. -/
def createRouteGroup (W : World) (id : String) (data : String → Option Json) : Handler Unit := do
  let name := (textField? data "name").getD ""
  let pathPrefix := (textField? data "pathPrefix").getD ""
  let s ← read
  require (Text.startsWith pathPrefix "/r/") (.badRequest "Path prefix must start with /r/")
  require (¬ prefixTaken s none pathPrefix) (.conflict ("Path prefix \"" ++ pathPrefix ++ "\" is already in use"))
  let group : RouteGroup := { name, slug := pickGroupSlug W s name none, pathPrefix, teamId := textField? data "teamId" }
  require (s.routeGroups.get? id).isNone (.prisma "P2002")
  groupWritable s none group
  modify fun s => { s with routeGroups := s.routeGroups.insert id group }

/-- A group with the fields a parsed body gives, and a new slug for a new name. -/
def RouteGroup.withFields (W : World) (s : Store) (id : String) (g : RouteGroup) (data : String → Option Json) :
    RouteGroup where
  name := (textField? data "name").getD g.name
  slug := match textField? data "name" with
    | some name => if name ≠ g.name then pickGroupSlug W s name (some id) else g.slug
    | none => g.slug
  pathPrefix := (textField? data "pathPrefix").getD g.pathPrefix
  teamId := (textField? data "teamId").or g.teamId
  changeRequestsEnabled := ((data "changeRequestsEnabled").map nullableFlag).getD g.changeRequestsEnabled
  crBypassRoles := (rolesField? data "crBypassRoles").getD g.crBypassRoles
  crApproverRoles := (rolesField? data "crApproverRoles").getD g.crApproverRoles

/-- A new prefix: absent, empty or the old one is none. -/
def newPrefix? (g : RouteGroup) (data : String → Option Json) : Option String :=
  (textField? data "pathPrefix").filter fun p => p ≠ "" && p ≠ g.pathPrefix

def updateRouteGroup (W : World) (id : String) (data : String → Option Json) : Handler Unit := do
  let s ← read
  let group ← orThrow (s.routeGroups.get? id) (.notFound "Route group")
  require (∀ p ∈ newPrefix? group data, Text.startsWith p "/r/") (.badRequest "Path prefix must start with /r/")
  require (∀ p ∈ newPrefix? group data, ¬ prefixTaken s none p)
    (.conflict ("Path prefix \"" ++ (newPrefix? group data).getD "" ++ "\" is already in use"))
  groupWritable s (some id) (group.withFields W s id data)
  modify fun s => { s with routeGroups := s.routeGroups.modify id fun g => g.withFields W s id data }

def ungroup : Patch := Patch.ofList [(.routeGroupId, .null)]

/-- `deleteRouteGroup`: its routes, archived ones too, leave it first. -/
def deleteRouteGroup (now id : String) : Handler Unit := do
  let s ← read
  require (s.routeGroups.get? id).isSome (.notFound "Route group")
  let _ ← routeUpdateMany now (fun _ r => r.val .routeGroupId = .str id) ungroup
  modify fun s => { s with routeGroups := s.routeGroups.erase id }

def assignRouteToGroup (now routeId : String) (routeGroupId : Json) : Handler Unit := do
  let _ ← routeUpdate now routeId (Patch.ofList [(.routeGroupId, routeGroupId)])

/-! ## The endpoints -/

/-- `POST /`. -/
def postGroup (W : World) (u : Caller) (d : Draw) (body : Json) : Handler Unit := do
  authorize u [.ADMIN, .OPERATOR]
  let data ← parseBody routeGroupFields routeGroupSchema body
  assertTeamManageable u (textField? data "teamId")
  createRouteGroup W d.rowId data

/-- `PUT /:id`. -/
def putGroup (W : World) (u : Caller) (id : String) (body : Json) : Handler Unit := do
  authorize u [.ADMIN, .OPERATOR]
  assertGroupManage u id
  let data ← parseBody routeGroupFields (partialUpdate routeGroupSchema) body
  when (data "teamId").isSome (assertTeamManageable u (textField? data "teamId"))
  updateRouteGroup W id data

/-- `DELETE /:id`. -/
def deleteGroup (u : Caller) (d : Draw) (id : String) : Handler Unit := do
  authorize u [.ADMIN]
  deleteRouteGroup d.now id

/-- `POST /:id/routes/:routeId`. -/
def postGroupRoute (u : Caller) (d : Draw) (id routeId : String) : Handler Unit := do
  authorize u [.ADMIN, .OPERATOR]
  requireRouteManage u routeId
  assertGroupManage u id
  assignRouteToGroup d.now routeId (.str id)

/-- `DELETE /:id/routes/:routeId`. -/
def deleteGroupRoute (u : Caller) (d : Draw) (id routeId : String) : Handler Unit := do
  authorize u [.ADMIN, .OPERATOR]
  requireRouteManage u routeId
  assertGroupManage u id
  assignRouteToGroup d.now routeId .null

def GroupOp.perform (W : World) (u : Caller) (d : Draw) : GroupOp → Handler Unit
  | .create body => postGroup W u d body
  | .update id body => putGroup W u id body
  | .delete id => deleteGroup u d id
  | .assign id routeId => postGroupRoute u d id routeId
  | .remove id routeId => deleteGroupRoute u d id routeId

end ClusterGate
