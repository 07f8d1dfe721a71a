/-
  ClusterGate.Endpoint — the endpoints as one system: a request is a call of an endpoint
  by a caller, and a step of the store is a request carried out.
-/

import ClusterGate.Route.Router
import ClusterGate.Change.Router
import ClusterGate.Children.Transforms
import ClusterGate.Grouping.Folders
import ClusterGate.Grouping.Members
import ClusterGate.Lib.Run

namespace ClusterGate

open Lib Lib.Act

inductive Endpoint
  | route (op : RouteOp)
  | change (op : ChangeOp)
  | target (op : TargetOp)
  | transform (op : TransformOp)
  | group (op : GroupOp)
  | folder (op : FolderOp)
  | member (op : MemberOp)

structure Request where
  caller : Caller
  draw : Draw
  endpoint : Endpoint

def Request.perform (W : World) (q : Request) : Handler Unit :=
  match q.endpoint with
  | .route op => op.perform W q.caller q.draw
  | .change op => op.perform W q.caller q.draw
  | .target op => op.perform W q.caller q.draw
  | .transform op => op.perform q.caller q.draw
  | .group op => op.perform W q.caller q.draw
  | .folder op => op.perform q.caller q.draw
  | .member op => op.perform q.caller

/-- The store after a request, carried out or refused. -/
def step (W : World) (s : Store) (q : Request) : Store := (q.perform W s).2

/-- A store without routes or anything that hangs on them. -/
structure Store.NoRoutes (s : Store) : Prop where
  routes : ∀ id, s.routes.get? id = none
  routeVersions : ∀ id, s.routeVersions.get? id = none
  routeTargets : ∀ id, s.routeTargets.get? id = none
  transformRules : ∀ id, s.transformRules.get? id = none
  changeRequests : ∀ id, s.changeRequests.get? id = none

end ClusterGate
