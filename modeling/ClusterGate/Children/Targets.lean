/-
  ClusterGate.Children.Targets — a route's load-balancing targets
  (`routes/targets.router.ts`, with the rows' operations of `loadBalancerService.ts`).

  A target's URL is judged like the route's own, by the policy of the organization the
  route is in.
-/

import ClusterGate.Route.Access
import ClusterGate.Body

namespace ClusterGate

open Lib Lib.Act Lib.Zod

inductive TargetOp
  | add (routeId : String) (body : Json)
  | update (routeId targetId : String) (body : Json)
  | delete (routeId targetId : String)

def targetSchema (W : World) : Shape String := fun field => match field with
  | "url" => ZodType.leaf (urlLeaf W none)
  | "weight" => dflt (.num 100) (int 1 (some 100))
  | "priority" => dflt (.num 0) (int 0 none)
  | _ => none

def targetFields : List String := ["url", "weight", "priority"]

def assertTargetUrl (W : World) (url routeId : String) : Handler Unit := do
  let s ← read
  let route ← orThrow (s.routes.get? routeId) (.notFound "Route")
  assertRouteTargetAllowed W url (route.val .organizationId)

def assertTargetBelongsToRoute (targetId routeId : String) : Handler Unit := do
  let s ← read
  require ((s.routeTargets.get? targetId).any fun t => t.routeId = routeId) (.notFound "Target")

/-- An integer column takes what has 32 bits. -/
def isInt32 (n : Int) : Bool := -2147483648 ≤ n && n ≤ 2147483647

def intField? (data : String → Option Json) (field : String) : Option Int := (data field).bind Json.int?

/-- `prisma.routeTarget.create`. -/
def addTarget (id : String) (t : RouteTarget) : Handler Unit := do
  let s ← read
  require (isInt32 t.priority) .prismaValidation
  require (s.routeTargets.get? id).isNone (.prisma "P2002")
  require (s.routes.get? t.routeId).isSome (.prisma "P2003")
  modify fun s => { s with routeTargets := s.routeTargets.insert id t }

/-- A target with the fields a parsed body gives. -/
def RouteTarget.withFields (t : RouteTarget) (data : String → Option Json) : RouteTarget :=
  { t with
    url := (textField? data "url").getD t.url
    weight := (intField? data "weight").getD t.weight
    priority := (intField? data "priority").getD t.priority }

/-- `prisma.routeTarget.update`. -/
def updateTarget (id : String) (data : String → Option Json) : Handler Unit := do
  let s ← read
  require ((intField? data "priority").all isInt32) .prismaValidation
  require (s.routeTargets.get? id).isSome (.prisma "P2025")
  modify fun s => { s with routeTargets := s.routeTargets.modify id fun t => t.withFields data }

/-- `POST /:routeId/targets`. -/
def postTarget (W : World) (u : Caller) (d : Draw) (routeId : String) (body : Json) : Handler Unit := do
  authorize u [.ADMIN, .OPERATOR]
  requireRouteManage u routeId
  let data ← parseBody targetFields (targetSchema W) body
  let url := (textField? data "url").getD ""
  when (url ≠ "") (assertTargetUrl W url routeId)
  addTarget d.rowId {
    routeId, url, weight := (intField? data "weight").getD 100, priority := (intField? data "priority").getD 0 }

/-- `PUT /:routeId/targets/:targetId`. -/
def putTarget (W : World) (u : Caller) (routeId targetId : String) (body : Json) : Handler Unit := do
  authorize u [.ADMIN, .OPERATOR]
  requireRouteManage u routeId
  let data ← parseBody targetFields (partialUpdate (targetSchema W)) body
  let url := (textField? data "url").getD ""
  when (url ≠ "") (assertTargetUrl W url routeId)
  assertTargetBelongsToRoute targetId routeId
  updateTarget targetId data

/-- `DELETE /:routeId/targets/:targetId`. -/
def deleteTarget (u : Caller) (routeId targetId : String) : Handler Unit := do
  authorize u [.ADMIN]
  requireRouteManage u routeId
  assertTargetBelongsToRoute targetId routeId
  modify fun s => { s with routeTargets := s.routeTargets.erase targetId }

def TargetOp.perform (W : World) (u : Caller) (d : Draw) : TargetOp → Handler Unit
  | .add routeId body => postTarget W u d routeId body
  | .update routeId targetId body => putTarget W u routeId targetId body
  | .delete routeId targetId => deleteTarget u routeId targetId

end ClusterGate
