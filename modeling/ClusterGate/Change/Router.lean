/-
  ClusterGate.Change.Router — the endpoints of change requests
  (`routes/changeRequests.router.ts`).
-/

import ClusterGate.Change.Service
import ClusterGate.Body

namespace ClusterGate

open Lib Lib.Act Lib.Zod

/-- A call of one of the endpoints. -/
inductive ChangeOp
  | create (body : Json)
  | approve (id : String) (body : Json)
  | reject (id : String) (body : Json)
  | delete (id : String)

def changeRequestSchema : Shape String := fun field => match field with
  | "routeId" => ZodType.optional textField
  | "type" => ZodType.leaf (enum ["create", "update", "delete"])
  | "title" => textField [minLength 1, maxLength 200]
  | "description" => ZodType.optional (textField [maxLength 2000])
  | "payload" => ZodType.leaf (record .ok)
  | "diff" => ZodType.optional (.leaf (record .ok))
  | _ => none

def reviewSchema : Shape String := fun field => match field with
  | "comment" => ZodType.optional (textField [maxLength 1000])
  | _ => none

def membersOf (v : Option Json) : Patch := match v with
  | some (.obj kvs) => Patch.ofMembers kvs
  | _ => Patch.empty

/-- The payload is for an organization the caller belongs to. -/
def proposesForOwnOrg (s : Store) (u : Caller) (payload : Patch) : Bool := match payload .organizationId with
  | some (.str org) => isOrgMember s u org
  | _ => false

/-- The request a parsed body makes. -/
def changeRequestOf (u : Caller) (data : String → Option Json) : ChangeRequest where
  routeId := textField? data "routeId"
  type := (textField? data "type").getD ""
  title := (textField? data "title").getD ""
  description := textField? data "description"
  payload := membersOf (data "payload")
  requestedById := u.userId

/-- A proposal is for a route the caller can see, or for an organization of theirs. -/
def requireProposal (u : Caller) (cr : ChangeRequest) : Handler Unit := do
  let s ← read
  match cr.route? with
  | some routeId => require (canViewRouteById s u routeId) (.notFound "Route")
  | none =>
    require (u.role = .ADMIN ∨ proposesForOwnOrg s u cr.payload)
      (.forbidden "Change requests for new routes must target an organization you belong to")

/-- `POST /`. -/
def postChangeRequest (u : Caller) (d : Draw) (body : Json) : Handler Unit := do
  authorize u [.ADMIN, .OPERATOR]
  let data ← parseBody ["routeId", "type", "title", "description", "payload", "diff"] changeRequestSchema body
  let cr := changeRequestOf u data
  requireProposal u cr
  crCreate d.rowId cr

/-- A reviewer's comment, from one who may review the request. -/
def reviewComment (u : Caller) (id verb : String) (body : Json) : Handler (Option String) := do
  authorize u [.ADMIN, .OPERATOR]
  let s ← read
  require (canApprove s u id) (respond 403 ("You do not have permission to " ++ verb ++ " this change request"))
  let data ← parseBody ["comment"] reviewSchema (orEmpty body)
  pure (textField? data "comment")

/-- `POST /:id/approve`. -/
def postApprove (W : World) (u : Caller) (d : Draw) (id : String) (body : Json) : Handler Unit := do
  let comment ← reviewComment u id "approve" body
  let _ ← approve W d.now id u.userId comment

/-- `POST /:id/reject`. -/
def postReject (u : Caller) (d : Draw) (id : String) (body : Json) : Handler Unit := do
  let comment ← reviewComment u id "reject" body
  let _ ← reject d.now id u.userId comment

/-- `DELETE /:id`. -/
def deleteRequest (u : Caller) (id : String) : Handler Unit := do
  authorize u [.ADMIN]
  deleteChangeRequest id

def ChangeOp.perform (W : World) (u : Caller) (d : Draw) : ChangeOp → Handler Unit
  | .create body => postChangeRequest u d body
  | .approve id body => postApprove W u d id body
  | .reject id body => postReject u d id body
  | .delete id => deleteRequest u id

end ClusterGate
