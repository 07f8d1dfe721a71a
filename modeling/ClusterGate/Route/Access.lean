/-
  ClusterGate.Route.Access — who may do what with a route (`services/orgAccessService.ts`,
  `middleware/routeAccess.ts`), and the target policy of an organization
  (`services/targetPolicyService.ts`).

  System admins may do everything. Everyone else acts through a membership: OWNER or
  ADMIN manages the organization's routes, OWNER deletes them, any role sees them. A
  route without an organization is the system admins' only.
-/

import ClusterGate.Target.Policy
import ClusterGate.Store.State

namespace ClusterGate

open Lib Lib.Act

def getUserOrgRole (s : Store) (userId organizationId : String) : Option OrgRole :=
  s.orgMemberships.get? (userId, organizationId)

/-- Create, edit and publish routes of an organization. -/
def canManageOrgRoutes (s : Store) (u : Caller) (organizationId : String) : Bool :=
  u.role = .ADMIN || getUserOrgRole s u.userId organizationId = some .OWNER ||
    getUserOrgRole s u.userId organizationId = some .ADMIN

def canDeleteOrgRoutes (s : Store) (u : Caller) (organizationId : String) : Bool :=
  u.role = .ADMIN || getUserOrgRole s u.userId organizationId = some .OWNER

def isOrgMember (s : Store) (u : Caller) (organizationId : String) : Bool :=
  u.role = .ADMIN || (getUserOrgRole s u.userId organizationId).isSome

/-- A route's organization, if it has one that is not the empty text. -/
def Row.orgId (r : Row) : Option String := (r.text .organizationId).filter (· ≠ "")

/-- What a caller may do with a live route through its organization. -/
def onLiveRoute (s : Store) (u : Caller) (routeId : String) (allowed : String → Bool) : Bool :=
  u.role = .ADMIN || (match (liveRoute? s routeId).bind Row.orgId with
    | some org => allowed org
    | none => false)

def canViewRouteById (s : Store) (u : Caller) (routeId : String) : Bool := onLiveRoute s u routeId (isOrgMember s u)

def canManageRoute (s : Store) (u : Caller) (routeId : String) : Bool := onLiveRoute s u routeId (canManageOrgRoutes s u)

def canDeleteRoute (s : Store) (u : Caller) (routeId : String) : Bool := onLiveRoute s u routeId (canDeleteOrgRoutes s u)

/-- `requireRouteManage`. -/
def requireRouteManage (u : Caller) (routeId : String) : Handler Unit := do
  let s ← read
  require (canManageRoute s u routeId) (.notFound "Route")

/-- `authorize(roles)`. -/
def authorize (u : Caller) (roles : List Role) : Handler Unit := require (u.role ∈ roles) .forbidden

/-- The caller passes `authorize` for operators and `requireRouteManage`. -/
def MayWrite (s : Store) (u : Caller) (routeId : String) : Prop :=
  u.role ∈ [Role.ADMIN, .OPERATOR] ∧ canManageRoute s u routeId = true

/-! ## The organization's target policy -/

def toPolicy (org : Organization) : OrgTargetPolicy :=
  ⟨org.name, org.restrictTargets, org.allowedTargetNamespaces, org.allowedTargetHosts⟩

/-- The policy of an organization; null, absent and empty name none. -/
def getOrgTargetPolicy (s : Store) (organizationId : Json) : Option OrgTargetPolicy :=
  (organizationId.str?.filter (· ≠ "")).bind fun id => (s.organizations.get? id).map toPolicy

/-- Why a target may not be used in an organization (none: it may). -/
def targetRefused (W : World) (s : Store) (targetUrl : String) (organizationId : Json) : Option String :=
  assertTargetAllowed W targetUrl (getOrgTargetPolicy s organizationId)

def assertRouteTargetAllowed (W : World) (targetUrl : String) (organizationId : Json) : Handler Unit := do
  let s ← read
  match targetRefused W s targetUrl organizationId with
  | some message => throw (.badRequest message)
  | none => pure ()

@[simp] theorem wp_assertRouteTargetAllowed {W : World} {targetUrl : String} {organizationId : Json} {s : Store}
    {Q : Unit → Store → Prop} {E : Err → Store → Prop} :
    wp (assertRouteTargetAllowed W targetUrl organizationId) Q E s ↔
      (targetRefused W s targetUrl organizationId = none → Q () s) ∧
        ∀ m, targetRefused W s targetUrl organizationId = some m → E (.badRequest m) s := by
  simp only [assertRouteTargetAllowed, wp_bind, wp_read]
  split <;> simp_all

end ClusterGate
