/-
  ClusterGate.Grouping.Members — who belongs to an organization
  (`routes/organizations.router.ts`, with the memberships of `organizationService.ts`).

  Members are added, and their roles changed, by those who manage the organization;
  owners are made by owners. What else the router offers is the system admins' only and
  not modelled here.
-/

import ClusterGate.Grouping.Groups

namespace ClusterGate

open Lib Lib.Act Lib.Zod

inductive MemberOp
  /-- With the users there are. -/
  | add (users : String → Bool) (orgId : String) (body : Json)
  | update (orgId userId : String) (body : Json)
  | remove (orgId userId : String)

def memberRole : Leaf := enum ["OWNER", "ADMIN", "MEMBER"]

def newMemberSchema : Shape String := fun field => match field with
  | "userId" => textField
  | "role" => dflt (.str "MEMBER") memberRole
  | _ => none

def memberSchema : Shape String := fun field => match field with
  | "role" => ZodType.leaf memberRole
  | _ => none

def roleField (data : String → Option Json) : OrgRole := ((textField? data "role").bind orgRole?).getD .MEMBER

def assertOrgAdmin (u : Caller) (orgId : String) : Handler Unit := do
  let s ← read
  require (canManageOrgRoutes s u orgId) (.notFound "Organization")

/-- Only owners make owners, system admins included. -/
def requireOwnerForOwner (u : Caller) (orgId : String) (role : OrgRole) : Handler Unit := do
  let s ← read
  require (role = .OWNER → getUserOrgRole s u.userId orgId = some .OWNER)
    (respond 403 "Only organization owners can assign the OWNER role")

/-- `POST /:id/members`. -/
def postMember (u : Caller) (users : String → Bool) (orgId : String) (body : Json) : Handler Unit := do
  authorize u [.ADMIN, .OPERATOR]
  assertOrgAdmin u orgId
  let data ← parseBody ["userId", "role"] newMemberSchema body
  requireOwnerForOwner u orgId (roleField data)
  let userId := (textField? data "userId").getD ""
  let s ← read
  require (s.orgMemberships.get? (userId, orgId)).isNone (.conflict "User is already a member of this organization")
  require (users userId ∧ (s.organizations.get? orgId).isSome) (.prisma "P2003")
  modify fun s => { s with orgMemberships := s.orgMemberships.insert (userId, orgId) (roleField data) }

/-- `PUT /:id/members/:userId`. -/
def putMember (u : Caller) (orgId userId : String) (body : Json) : Handler Unit := do
  authorize u [.ADMIN, .OPERATOR]
  assertOrgAdmin u orgId
  let data ← parseBody ["role"] memberSchema body
  requireOwnerForOwner u orgId (roleField data)
  let s ← read
  require (s.orgMemberships.get? (userId, orgId)).isSome (.notFound "Membership")
  modify fun s => { s with orgMemberships := s.orgMemberships.modify (userId, orgId) fun _ => roleField data }

/-- `removeOrgMember`: the last owner stays. -/
def removeOrgMember (orgId userId : String) : Handler Unit := do
  let s ← read
  let role ← orThrow (s.orgMemberships.get? (userId, orgId)) (.notFound "Membership")
  let owners := (s.orgMemberships.filter fun k r => k.2 = orgId && r = .OWNER).rows.length
  require (¬ (role = .OWNER ∧ owners ≤ 1)) (.badRequest "Cannot remove the last owner of an organization")
  modify fun s => { s with orgMemberships := s.orgMemberships.erase (userId, orgId) }

/-- `DELETE /:id/members/:userId`. -/
def deleteMember (u : Caller) (orgId userId : String) : Handler Unit := do
  authorize u [.ADMIN]
  removeOrgMember orgId userId

def MemberOp.perform (u : Caller) : MemberOp → Handler Unit
  | .add users orgId body => postMember u users orgId body
  | .update orgId userId body => putMember u orgId userId body
  | .remove orgId userId => deleteMember u orgId userId

/-! ## The frame -/

/-- Only memberships differ. -/
def MemberEffect (s s' : Store) : Prop := ∃ m, s' = { s with orgMemberships := m }

theorem MemberOp.perform_keeps {u : Caller} {s : Store} (op : MemberOp) : Keeps (op.perform u) (MemberEffect s) s := by
  have same : MemberEffect s s := ⟨_, rfl⟩
  cases op with
  | add users orgId body =>
    simp only [Keeps, MemberOp.perform, postMember, authorize, assertOrgAdmin, requireOwnerForOwner, parseBody]
    simp only [wp_bind, wp_require, wp_read, wp_ofExcept, wp_modify]
    exact ⟨fun _ => ⟨fun _ => ⟨fun data _ => ⟨fun _ => ⟨fun _ => ⟨fun _ => ⟨_, rfl⟩, fun _ => same⟩, fun _ => same⟩,
      fun _ => same⟩, fun _ _ => same⟩, fun _ => same⟩, fun _ => same⟩
  | update orgId userId body =>
    simp only [Keeps, MemberOp.perform, putMember, authorize, assertOrgAdmin, requireOwnerForOwner, parseBody]
    simp only [wp_bind, wp_require, wp_read, wp_ofExcept, wp_modify]
    exact ⟨fun _ => ⟨fun _ => ⟨fun data _ => ⟨fun _ => ⟨fun _ => ⟨_, rfl⟩, fun _ => same⟩, fun _ => same⟩,
      fun _ _ => same⟩, fun _ => same⟩, fun _ => same⟩
  | remove orgId userId =>
    simp only [Keeps, MemberOp.perform, deleteMember, removeOrgMember, authorize]
    simp only [wp_bind, wp_require, wp_read, wp_orThrow, wp_modify]
    exact ⟨fun _ => ⟨fun role _ => ⟨fun _ => ⟨_, rfl⟩, fun _ => same⟩, fun _ => same⟩, fun _ => same⟩

end ClusterGate
