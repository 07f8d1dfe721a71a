/-
  ClusterGate.Accounts.Organizations — organizations and their members step by step
  (`services/organizationService.ts`, `routes/organizations.router.ts`, the purge of
  `cron/jobs.ts`): every organization keeps an owner.

  An organization is created with an owner in one transaction. After that an owner's row
  can go three ways: `updateOrgMemberRole` writes another role, `removeOrgMember` deletes it
  once it has counted, and the purge of users that have been inactive for thirty days takes
  their memberships along. Only the second asks whether it is the last.
  - `tells_owners`: what each step of each request does to the owners there are.
  - `every_organization_keeps_an_owner_iff`: they all keep one in every state of a run
    exactly if every step spares the last owner (`Spares`): no role is taken from an
    organization's only owner, nobody becomes its only owner between a removal's check and
    its delete, and no purge finds one whose owners are all due.
  - `the_last_owner_steps_down`: one request suffices.
-/

import ClusterGate.Accounts.Users
import ClusterGate.Accounts.Sessions

namespace ClusterGate.Accounts

open Lib Lib.Act Async Auth

/-! ## Rows -/

namespace Store

def membershipOf (s : Store) (organizationId userId : String) : Option (String × OrgMembership) :=
  s.orgMemberships.find? fun _ m => m.userId = userId && m.organizationId = organizationId

def ownerCount (s : Store) (organizationId : String) : Nat :=
  s.orgMemberships.count fun _ m => m.organizationId = organizationId && m.role = .OWNER

end Store

/-- An owner's row of `organizationId`. -/
def OrgMembership.owns (m : OrgMembership) (organizationId : String) : Bool :=
  m.organizationId = organizationId && m.role = .OWNER

/-- `organization.findFirst({ where: { OR: [{ id }, { slug }] } })`. -/
def resolveOrganizationId (idOrSlug : String) : Query (Option String) := fun s =>
  (.ok ((s.organizations.find? fun id o => id = idOrSlug || o.slug = idOrSlug).map Prod.fst), s)

def findMembership (organizationId userId : String) : Query (Option (String × OrgMembership)) := fun s =>
  (.ok (s.membershipOf organizationId userId), s)

/-- The membership a service needs. -/
def membership (organizationId userId : String) : Query (String × OrgMembership) := do
  let m ← findMembership organizationId userId
  orThrow m (.notFound "Membership")

def createMembership (id : String) (m : OrgMembership) : Query Unit := do
  let s ← read
  require ((s.orgMemberships.get? id).isNone ∧ (s.membershipOf m.organizationId m.userId).isNone) (.prisma "P2002")
  require ((s.users.get? m.userId).isSome ∧ (s.organizations.get? m.organizationId).isSome) (.prisma "P2003")
  modify fun s => { s with orgMemberships := s.orgMemberships.insert id m }

def updateMembership (id : String) (role : OrgRole) : Query Unit := do
  let s ← read
  require ((s.orgMemberships.get? id).isSome) (.prisma "P2025")
  modify fun s => { s with orgMemberships := s.orgMemberships.modify id fun m => { m with role } }

def deleteMembership (id : String) : Query Unit := do
  let s ← read
  require ((s.orgMemberships.get? id).isSome) (.prisma "P2025")
  modify fun s => { s with orgMemberships := s.orgMemberships.erase id }

def countOwners (organizationId : String) : Query Nat := fun s => (.ok (s.ownerCount organizationId), s)

/-! ## The services -/

/-- The transaction of `createOrganization`: its creator becomes OWNER. -/
def createOwned (id membershipId : String) (data : Organization) (creatorId : String) : Query Unit :=
  atomic do
    let s ← read
    require ((s.organizations.get? id).isNone ∧ s.organizations.any (fun _ o => o.slug = data.slug) = false) (.prisma "P2002")
    modify fun s => { s with organizations := s.organizations.insert id data }
    createMembership membershipId ⟨creatorId, id, .OWNER⟩

def slugFree (slug : String) : Query Unit := do
  let s ← read
  require (s.organizations.any (fun _ o => o.slug = slug) = false)
    (.conflict ("Organization slug \"" ++ slug ++ "\" is already taken"))

def createOrganization (id membershipId : String) (data : Organization) (creatorId : String) : Service Unit := do
  await (slugFree data.slug)
  await (createOwned id membershipId data creatorId)

def organizationById (id : String) : Query Organization := do
  let s ← read
  orThrow (s.organizations.get? id) (.notFound "Organization")

/-- `organization.delete`, its memberships with it. -/
def removeOrganization (id : String) : Query Unit := do
  let s ← read
  require ((s.organizations.get? id).isSome) (.prisma "P2025")
  modify fun s => { s with organizations := s.organizations.erase id,
                           orgMemberships := s.orgMemberships.filter fun _ m => m.organizationId ≠ id }

def deleteOrganization (id : String) : Service Unit := do
  let _ ← await (organizationById id)
  await (removeOrganization id)

def noMembership (organizationId userId : String) : Query Unit := do
  let m ← findMembership organizationId userId
  require m.isNone (.conflict "User is already a member of this organization")

def addOrgMember (id organizationId userId : String) (role : OrgRole) : Service Unit := do
  await (noMembership organizationId userId)
  await (createMembership id ⟨userId, organizationId, role⟩)

def updateOrgMemberRole (organizationId userId : String) (role : OrgRole) : Service Unit := do
  let m ← await (membership organizationId userId)
  await (updateMembership m.1 role)

/-- An OWNER has to be one of several. -/
def guardLastOwner (m : OrgMembership) (organizationId : String) : Service Unit :=
  if m.role = .OWNER then do
    let ownerCount ← await (countOwners organizationId)
    require (1 < ownerCount) (.badRequest "Cannot remove the last owner of an organization")
  else pure ()

def removeOrgMember (organizationId userId : String) : Service Unit := do
  let m ← await (membership organizationId userId)
  guardLastOwner m.2 organizationId
  await (deleteMembership m.1)

/-! ## The purge of inactive users -/

def RETENTION_MS : Nat := 30 * 24 * 60 * 60 * 1000

/-- Inactive, and not written since `cutoff`. -/
def Store.due (s : Store) (cutoff : Nat) (userId : String) : Bool :=
  (s.users.get? userId).any fun u => !u.isActive && s.updatedAt userId ≤ cutoff

/-- The rows that are due are gone, their memberships and sessions with them. -/
def Store.purged (cutoff : Nat) (s : Store) : Store :=
  { s with users := s.users.filter fun id _ => !s.due cutoff id,
           sessions := s.sessions.filter fun _ r => !s.due cutoff r.userId,
           orgMemberships := s.orgMemberships.filter fun _ m => !s.due cutoff m.userId }

/-- `user.deleteMany`, refused where a change request still names one of the users. -/
def purgeDue (requesters : List String) (cutoff : Nat) : Query Unit := do
  let s ← read
  require ((requesters.any (s.due cutoff)) = false) (.prisma "P2003")
  modify (Store.purged cutoff)

def purgeUsers (requesters : List String) : Service Unit := do
  let now ← await clock
  await (purgeDue requesters (now - RETENTION_MS))

/-! ## The endpoints -/

inductive OrgRequest
  | create (caller : String) (id membershipId : String) (data : Organization)
  | delete (caller : String) (param : String)
  | addMember (caller : String) (param membershipId userId : String) (role : OrgRole)
  | setRole (caller : String) (param userId : String) (role : OrgRole)
  | removeMember (caller : String) (param userId : String)
  | user (r : UserRequest)
  /-- The cron job; `requesters` are the users that change requests name when it runs. -/
  | purge (requesters : List String)
  | cleanup
  deriving DecidableEq

/-- `resolveOrgParam`: a slug is rewritten to the id. -/
def organizationParam (value : String) : Service String := do
  let id ← await (resolveOrganizationId value)
  pure (id.getD value)

/-- `assertOrgAdmin`: a system ADMIN, or an OWNER or ADMIN of the organization. -/
def assertOrgAdmin (caller : Caller) (organizationId : String) : Service Unit :=
  if caller.role = .ADMIN then pure () else do
    let m ← await (findMembership organizationId caller.userId)
    require (m.any (fun m => m.2.role = .OWNER || m.2.role = .ADMIN) = true) (.notFound "Organization")

/-- Only OWNERs assign the OWNER role. -/
def assertMayAssign (caller : Caller) (organizationId : String) (role : OrgRole) : Service Unit :=
  if role = .OWNER then do
    let m ← await (findMembership organizationId caller.userId)
    require (m.any (fun m => m.2.role = .OWNER) = true)
      (.app ⟨403, "", "Only organization owners can assign the OWNER role", []⟩)
  else pure ()

/-- What the endpoints ask that give somebody a role. -/
def managing (caller param : String) (role : OrgRole) : Service String := do
  let id ← organizationParam param
  let caller ← await (authorized caller [.ADMIN, .OPERATOR])
  assertOrgAdmin caller id
  assertMayAssign caller id role
  pure id

/-- What the endpoints ask that are a system ADMIN's. -/
def administering (caller param : String) : Service String := do
  let id ← organizationParam param
  let _ ← await (authorized caller [.ADMIN])
  pure id

/-- `orgSchema`. -/
def Organization.issues (data : Organization) : List Issue :=
  let slug := data.slug.toList
  (if 1 ≤ Text.utf16Length data.name ∧ Text.utf16Length data.name ≤ 100 then [] else [⟨"name", none⟩]) ++
  (if 2 ≤ slug.length ∧ slug.length ≤ 50 then [] else [⟨"slug", none⟩]) ++
  (if slug.all (fun c => ('a' ≤ c && c ≤ 'z') || ('0' ≤ c && c ≤ '9') || c = '-') then []
    else [⟨"slug", some "Slug must be lowercase alphanumeric with hyphens"⟩]) ++
  (if data.description.all (fun d => Text.utf16Length d ≤ 500) then [] else [⟨"description", none⟩])

def creating (caller : String) (data : Organization) : Service Caller := do
  let caller ← await (authorized caller [.ADMIN])
  require (data.issues = []) (.zod data.issues)
  pure caller

def orgEndpoint : OrgRequest → Service Unit
  | .create caller id membershipId data => do
    let caller ← creating caller data
    createOrganization id membershipId data caller.userId
  | .delete caller param => do
    let id ← administering caller param
    deleteOrganization id
  | .addMember caller param membershipId userId role => do
    let id ← managing caller param role
    addOrgMember membershipId id userId role
  | .setRole caller param userId role => do
    let id ← managing caller param role
    updateOrgMemberRole id userId role
  | .removeMember caller param userId => do
    let id ← administering caller param
    removeOrgMember id userId
  | .user r => userEndpoint r
  | .purge requesters => purgeUsers requesters
  | .cleanup => cleanupSessions

/-! ## Owners -/

/-- `organizationId` has a membership with role OWNER. -/
def Store.owned (s : Store) (organizationId : String) : Bool := s.orgMemberships.any fun _ m => m.owns organizationId

def OwnersKept (s : Store) : Prop := s.organizations.any (fun id _ => !s.owned id) = false

instance (s : Store) : Decidable (OwnersKept s) := inferInstanceAs (Decidable (_ = false))

theorem owned_iff {s : Store} {org : String} :
    s.owned org = true ↔ ∃ id m, s.orgMemberships.get? id = some m ∧ m.owns org = true := Table.any_iff

theorem ownersKept_iff {s : Store} : OwnersKept s ↔ ∀ org o, s.organizations.get? org = some o → s.owned org = true := by
  unfold OwnersKept
  rw [Table.any_eq_false]
  simp only [Bool.not_eq_false']

/-- The row of `id` is the only owner's row of an organization there is. -/
def Store.onlyOwner (s : Store) (id : String) : Bool :=
  (s.orgMemberships.get? id).any fun m =>
    m.role = .OWNER && (s.organizations.get? m.organizationId).isSome &&
      !s.orgMemberships.any fun id' m' => id' ≠ id && m'.owns m.organizationId

theorem onlyOwner_iff {s : Store} {id : String} :
    s.onlyOwner id = true ↔ ∃ m o, s.orgMemberships.get? id = some m ∧ m.role = .OWNER ∧
      s.organizations.get? m.organizationId = some o ∧
        ∀ id' m', s.orgMemberships.get? id' = some m' → m'.owns m.organizationId = true → id' = id := by
  unfold Store.onlyOwner
  rw [Option.any_eq_true]
  refine exists_congr fun m => ?_
  rw [Bool.and_eq_true, Bool.and_eq_true, decide_eq_true_iff, Bool.not_eq_true', Table.any_eq_false,
    Option.isSome_iff_exists]
  have hothers : (∀ id' m', s.orgMemberships.get? id' = some m' → (id' ≠ id && m'.owns m.organizationId) = false) ↔
      ∀ id' m', s.orgMemberships.get? id' = some m' → m'.owns m.organizationId = true → id' = id := by
    refine forall_congr' fun id' => forall_congr' fun m' => forall_congr' fun _ => ?_
    by_cases hid : id' = id
    · simp [hid]
    · simp [hid]
  rw [hothers]
  constructor
  · rintro ⟨hm, ⟨hrole, o, ho⟩, hall⟩
    exact ⟨o, hm, hrole, ho, hall⟩
  · rintro ⟨o, hm, hrole, ho, hall⟩
    exact ⟨hm, ⟨hrole, o, ho⟩, hall⟩

section Writes

variable {s s' : Store} {id : String}

/-- A step that leaves organizations and memberships as they are. -/
theorem ownersKept_same (ho : s'.organizations = s.organizations) (hm : s'.orgMemberships = s.orgMemberships)
    (h : OwnersKept s) : OwnersKept s' := by
  unfold OwnersKept Store.owned at h ⊢
  rw [ho, hm]
  exact h

/-- A step after which the row of `id` is no owner's, and every other row is as it was. -/
theorem ownersKept_iff_spared (ho : s'.organizations = s.organizations)
    (hothers : ∀ k, k ≠ id → s'.orgMemberships.get? k = s.orgMemberships.get? k)
    (hrow : ∀ m, s'.orgMemberships.get? id = some m → m.role ≠ .OWNER) (h : OwnersKept s) :
    s.onlyOwner id = false ↔ OwnersKept s' := by
  rw [← Bool.not_eq_true, onlyOwner_iff, ownersKept_iff, ho]
  rw [ownersKept_iff] at h
  constructor
  · intro hspared org o horg
    by_contra hnone
    -- The owner there was is gone, so it was the row of `id`, and the only one.
    have hgone : ∀ k m, s.orgMemberships.get? k = some m → m.owns org = true → k = id := by
      intro k m hm howns
      by_contra hk
      exact hnone (owned_iff.2 ⟨k, m, by rw [hothers k hk, hm], howns⟩)
    obtain ⟨k, m, hm, howns⟩ := owned_iff.1 (h org o horg)
    obtain rfl := hgone k m hm howns
    have hm' : m.organizationId = org ∧ m.role = .OWNER := by simpa [OrgMembership.owns] using howns
    refine hspared ⟨m, o, hm, hm'.2, ?_, ?_⟩
    · rw [hm'.1]
      exact horg
    · rw [hm'.1]
      exact hgone
  · rintro hkept ⟨m, o, hm, -, ho', hall⟩
    obtain ⟨k, m', hm', howns⟩ := owned_iff.1 (hkept m.organizationId o ho')
    by_cases hk : k = id
    · subst hk
      exact hrow m' hm' (by simpa [OrgMembership.owns] using (Bool.and_eq_true_iff.1 howns).2)
    · exact hk (hall k m' (by rw [← hothers k hk, hm']) howns)

/-- A step after which every owner there was is still one. -/
theorem ownersKept_of_grows (ho : s'.organizations = s.organizations)
    (hrows : ∀ k m, s.orgMemberships.get? k = some m → m.role = .OWNER →
      ∃ m', s'.orgMemberships.get? k = some m' ∧ m'.organizationId = m.organizationId ∧ m'.role = .OWNER)
    (h : OwnersKept s) : OwnersKept s' := by
  rw [ownersKept_iff] at h ⊢
  rw [ho]
  intro org o horg
  obtain ⟨k, m, hm, howns⟩ := owned_iff.1 (h org o horg)
  have hm' : m.organizationId = org ∧ m.role = .OWNER := by simpa [OrgMembership.owns] using howns
  obtain ⟨m', hget, horg', hrole⟩ := hrows k m hm hm'.2
  refine owned_iff.2 ⟨k, m', hget, ?_⟩
  rw [OrgMembership.owns, horg', hm'.1, hrole]
  simp

end Writes

/-! ### What each write does -/

section Effects

variable {s : Store}

theorem createMembership_kept {id : String} {m : OrgMembership} (h : OwnersKept s) :
    OwnersKept (createMembership id m s).2 := by
  refine wp_final (P := OwnersKept) ?_
  simp only [createMembership, wp_bind, wp_read, wp_require, wp_modify, h, implies_true, and_true]
  rintro ⟨hid, -⟩ -
  refine ownersKept_of_grows (s := s) rfl (fun k m' hm' hrole => ⟨m', ?_, rfl, hrole⟩) h
  show (s.orgMemberships.insert id m).get? k = some m'
  rw [Table.get?_insert (Option.isNone_iff_eq_none.1 hid)]
  by_cases hk : k = id
  · subst hk
    rw [Option.isNone_iff_eq_none.1 hid] at hm'
    cases hm'
  · rw [if_neg hk, hm']

theorem createOwned_kept {id membershipId creatorId : String} {data : Organization} (h : OwnersKept s) :
    OwnersKept (createOwned id membershipId data creatorId s).2 := by
  refine wp_final (P := OwnersKept) ?_
  simp only [createOwned, createMembership, wp_atomic, wp_bind, wp_read, wp_require, wp_modify, h, implies_true, and_true]
  rintro ⟨hid, -⟩ ⟨hmid, -⟩ -
  rw [ownersKept_iff] at h ⊢
  intro org o horg
  dsimp only at horg
  rw [Table.get?_insert (Option.isNone_iff_eq_none.1 hid)] at horg
  by_cases hk : org = id
  · refine owned_iff.2 ⟨membershipId, ⟨creatorId, id, .OWNER⟩, ?_, by simp [OrgMembership.owns, hk]⟩
    show (s.orgMemberships.insert _ _).get? _ = _
    rw [Table.get?_insert (Option.isNone_iff_eq_none.1 hmid), if_pos rfl]
  · rw [if_neg hk] at horg
    obtain ⟨k, m, hm, howns⟩ := owned_iff.1 (h org o horg)
    refine owned_iff.2 ⟨k, m, ?_, howns⟩
    show (s.orgMemberships.insert _ _).get? _ = _
    rw [Table.get?_insert (Option.isNone_iff_eq_none.1 hmid), if_neg ?_, hm]
    rintro rfl
    rw [Option.isNone_iff_eq_none.1 hmid] at hm
    cases hm

theorem removeOrganization_kept {id : String} (h : OwnersKept s) : OwnersKept (removeOrganization id s).2 := by
  refine wp_final (P := OwnersKept) ?_
  simp only [removeOrganization, wp_bind, wp_read, wp_require, wp_modify, h, implies_true, and_true]
  intro _
  rw [ownersKept_iff] at h ⊢
  intro org o horg
  dsimp only at horg
  rw [Table.get?_erase] at horg
  by_cases hk : org = id
  · rw [if_pos hk] at horg
    cases horg
  · rw [if_neg hk] at horg
    obtain ⟨k, m, hm, howns⟩ := owned_iff.1 (h org o horg)
    refine owned_iff.2 ⟨k, m, ?_, howns⟩
    show (s.orgMemberships.filter _).get? k = some m
    have hm' : m.organizationId = org := by simpa using (Bool.and_eq_true_iff.1 howns).1
    rw [Table.get?_filter, hm, Option.filter_some, if_pos]
    rw [hm']
    exact decide_eq_true hk

/-- A role other than OWNER is written. -/
theorem updateMembership_kept_iff {id : String} {role : OrgRole} (hrole : role ≠ .OWNER) (h : OwnersKept s) :
    s.onlyOwner id = false ↔ OwnersKept (updateMembership id role s).2 := by
  refine wp_final (P := fun t => s.onlyOwner id = false ↔ OwnersKept t) ?_
  simp only [updateMembership, wp_bind, wp_read, wp_require, wp_modify]
  refine ⟨fun _ => ownersKept_iff_spared rfl (fun k hk => ?_) (fun m hm => ?_) h, fun hnone => ?_⟩
  · exact (Table.get?_modify _ _ _ _).trans (if_neg hk)
  · dsimp only at hm
    rw [Table.get?_modify, if_pos rfl] at hm
    obtain ⟨m₀, -, rfl⟩ := Option.map_eq_some_iff.1 hm
    exact hrole
  · refine iff_of_true ?_ h
    rw [Option.not_isSome_iff_eq_none] at hnone
    rw [Store.onlyOwner, hnone]
    rfl

theorem updateMembership_kept {id : String} (h : OwnersKept s) : OwnersKept (updateMembership id .OWNER s).2 := by
  refine wp_final (P := OwnersKept) ?_
  simp only [updateMembership, wp_bind, wp_read, wp_require, wp_modify, h, implies_true, and_true]
  intro _
  refine ownersKept_of_grows (s := s) rfl (fun k m hm hrole => ?_) h
  show ∃ m', (s.orgMemberships.modify _ _).get? k = some m' ∧ _
  rw [Table.get?_modify]
  by_cases hk : k = id
  · rw [if_pos hk, ← hk, hm]
    exact ⟨_, rfl, rfl, rfl⟩
  · rw [if_neg hk]
    exact ⟨m, hm, rfl, hrole⟩

theorem deleteMembership_kept_iff {id : String} (h : OwnersKept s) :
    s.onlyOwner id = false ↔ OwnersKept (deleteMembership id s).2 := by
  refine wp_final (P := fun t => s.onlyOwner id = false ↔ OwnersKept t) ?_
  simp only [deleteMembership, wp_bind, wp_read, wp_require, wp_modify]
  refine ⟨fun _ => ownersKept_iff_spared rfl (fun k hk => ?_) (fun m hm => ?_) h, fun hnone => ?_⟩
  · exact (Table.get?_erase _ _ _).trans (if_neg hk)
  · dsimp only at hm
    rw [Table.get?_erase, if_pos rfl] at hm
    cases hm
  · refine iff_of_true ?_ h
    rw [Option.not_isSome_iff_eq_none] at hnone
    rw [Store.onlyOwner, hnone]
    rfl

/-- An organization whose owners are all due. -/
def Store.stranded (s : Store) (cutoff : Nat) (organizationId : String) : Bool :=
  !s.orgMemberships.any fun _ m => m.owns organizationId && !s.due cutoff m.userId

theorem purged_kept_iff {cutoff : Nat} :
    s.organizations.any (fun id _ => s.stranded cutoff id) = false ↔ OwnersKept (s.purged cutoff) := by
  rw [ownersKept_iff, Table.any_eq_false]
  refine forall_congr' fun org => forall_congr' fun o => forall_congr' fun _ => ?_
  rw [Store.stranded, Bool.not_eq_false', Table.any_iff, owned_iff]
  refine exists_congr fun id => exists_congr fun m => ?_
  show _ ↔ (s.orgMemberships.filter _).get? id = some m ∧ _
  rw [Table.get?_filter, Option.filter_eq_some_iff, Bool.and_eq_true]
  tauto

end Effects

/-! ## The condition -/

/-- A membership is about to get `role`: it is not an organization's only owner. -/
def RoleSpares (userId : String) (role : OrgRole) (organizationId : String) (s : Store) : List Store → Prop
  | [found] => role ≠ .OWNER → ∀ m ∈ found.membershipOf organizationId userId, s.onlyOwner m.1 = false
  | _ => True

/-- A membership is about to be deleted: if it is an organization's only owner, the check
    has found it to be one, and the only one. -/
def RemovalSpares (userId organizationId : String) (s : Store) : List Store → Prop
  | [found] => ∀ m ∈ found.membershipOf organizationId userId, m.2.role ≠ .OWNER → s.onlyOwner m.1 = false
  | [found, counted] => ∀ m ∈ found.membershipOf organizationId userId, s.onlyOwner m.1 = true →
      m.2.role = .OWNER ∧ counted.ownerCount organizationId ≤ 1
  | _ => True

/-- The purge is about to run: it will be refused, or every organization has an owner who is not due. -/
def PurgeSpares (requesters : List String) (s : Store) : List Store → Prop
  | [clocked] => requesters.any (s.due (clocked.now - RETENTION_MS)) = true ∨
      s.organizations.any (fun id _ => s.stranded (clocked.now - RETENTION_MS) id) = false
  | _ => True

def Spares (r : OrgRequest) (seen : List Store) (s : Store) : Prop :=
  match r with
  | .setRole caller param userId role => ∀ p ∈ past (managing caller param role) seen, RoleSpares userId role p.1 s p.2
  | .removeMember caller param userId => ∀ p ∈ past (administering caller param) seen, RemovalSpares userId p.1 s p.2
  | .purge requesters => PurgeSpares requesters s seen
  | _ => True

instance (userId : String) (role : OrgRole) (org : String) (s : Store) : ∀ rest, Decidable (RoleSpares userId role org s rest)
  | [found] => inferInstanceAs (Decidable (role ≠ .OWNER → ∀ m ∈ found.membershipOf org userId, s.onlyOwner m.1 = false))
  | [] => instDecidableTrue
  | _ :: _ :: _ => instDecidableTrue

instance (userId org : String) (s : Store) : ∀ rest, Decidable (RemovalSpares userId org s rest)
  | [found] =>
    inferInstanceAs (Decidable (∀ m ∈ found.membershipOf org userId, m.2.role ≠ .OWNER → s.onlyOwner m.1 = false))
  | [found, counted] => inferInstanceAs (Decidable (∀ m ∈ found.membershipOf org userId, s.onlyOwner m.1 = true →
      m.2.role = .OWNER ∧ counted.ownerCount org ≤ 1))
  | [] => instDecidableTrue
  | _ :: _ :: _ :: _ => instDecidableTrue

instance (requesters : List String) (s : Store) : ∀ seen, Decidable (PurgeSpares requesters s seen)
  | [clocked] => inferInstanceAs (Decidable (requesters.any (s.due (clocked.now - RETENTION_MS)) = true ∨
      s.organizations.any (fun id _ => s.stranded (clocked.now - RETENTION_MS) id) = false))
  | [] => instDecidableTrue
  | _ :: _ :: _ => instDecidableTrue

instance (seen : List Store) (s : Store) : ∀ r, Decidable (Spares r seen s)
  | .setRole caller param userId role =>
    inferInstanceAs (Decidable (∀ p ∈ past (managing caller param role) seen, RoleSpares userId role p.1 s p.2))
  | .removeMember caller param userId =>
    inferInstanceAs (Decidable (∀ p ∈ past (administering caller param) seen, RemovalSpares userId p.1 s p.2))
  | .purge requesters => inferInstanceAs (Decidable (PurgeSpares requesters s seen))
  | .create .. => instDecidableTrue
  | .delete .. => instDecidableTrue
  | .addMember .. => instDecidableTrue
  | .user .. => instDecidableTrue
  | .cleanup => instDecidableTrue

/-- A step keeps the owners exactly if the condition is met. -/
def OwnersIff (C : List Store → Store → Prop) (seen : List Store) (s s' : Store) : Prop :=
  OwnersKept s → (C seen s ↔ OwnersKept s')

section Steps

variable {C : List Store → Store → Prop} {seen : List Store} {s s' : Store}

theorem ownersIff_kept (hC : C seen s) (h : OwnersKept s → OwnersKept s') : OwnersIff C seen s s' :=
  fun hs => iff_of_true hC (h hs)

theorem ownersIff_read (hC : C seen s) (h : s' = s) : OwnersIff C seen s s' := ownersIff_kept hC fun hs => h ▸ hs

end Steps

/-! ### What is asked first only reads -/

theorem organizationParam_reads (value : String) : EveryStep (fun s s' => s' = s) (organizationParam value) :=
  everyStep_bind (everyStep_await fun _ => rfl) fun _ => everyStep_pure _

theorem assertOrgAdmin_reads (caller : Caller) (id : String) : EveryStep (fun s s' => s' = s) (assertOrgAdmin caller id) := by
  unfold assertOrgAdmin
  split
  · exact everyStep_pure _
  · exact everyStep_bind (everyStep_await fun _ => rfl) fun _ => everyStep_require _ _

theorem assertMayAssign_reads (caller : Caller) (id : String) (role : OrgRole) :
    EveryStep (fun s s' => s' = s) (assertMayAssign caller id role) := by
  unfold assertMayAssign
  split
  · exact everyStep_bind (everyStep_await fun _ => rfl) fun _ => everyStep_require _ _
  · exact everyStep_pure _

theorem managing_reads (caller param : String) (role : OrgRole) :
    EveryStep (fun s s' => s' = s) (managing caller param role) :=
  everyStep_bind (organizationParam_reads param) fun id =>
    everyStep_bind (everyStep_await fun s => authorized_state _ _ s) fun caller =>
      everyStep_bind (assertOrgAdmin_reads caller id) fun _ =>
        everyStep_bind (assertMayAssign_reads caller id role) fun _ => everyStep_pure _

theorem administering_reads (caller param : String) : EveryStep (fun s s' => s' = s) (administering caller param) :=
  everyStep_bind (organizationParam_reads param) fun _ =>
    everyStep_bind (everyStep_await fun s => authorized_state _ _ s) fun _ => everyStep_pure _

theorem creating_reads (caller : String) (data : Organization) : EveryStep (fun s s' => s' = s) (creating caller data) :=
  everyStep_bind (everyStep_await fun s => authorized_state _ _ s) fun _ =>
    everyStep_bind (everyStep_require _ _) fun _ => everyStep_pure _

/-! ### The services -/

theorem membership_state (org userId : String) (s : Store) : (membership org userId s).2 = s := by
  show (orThrow (s.membershipOf org userId) (.notFound "Membership") s : Except Err (String × OrgMembership) × Store).2 = s
  cases s.membershipOf org userId <;> rfl

theorem membership_ok {org userId : String} {s : Store} {m : String × OrgMembership}
    (h : (membership org userId s).1 = .ok m) : s.membershipOf org userId = some m := by
  revert h
  show (orThrow (s.membershipOf org userId) (.notFound "Membership") s : Except Err (String × OrgMembership) × Store).1 = _ → _
  cases s.membershipOf org userId with
  | none => rintro ⟨⟩
  | some m' =>
    rintro ⟨⟩
    rfl

theorem slugFree_state (slug : String) (s : Store) : (slugFree slug s).2 = s := by
  refine wp_final (P := fun t => t = s) ?_
  simp only [slugFree, wp_bind, wp_read, wp_require, implies_true, and_self]

theorem organizationById_state (id : String) (s : Store) : (organizationById id s).2 = s := by
  refine wp_final (P := fun t => t = s) ?_
  simp only [organizationById, wp_bind, wp_read, wp_orThrow, implies_true, and_self]

theorem noMembership_state (org userId : String) (s : Store) : (noMembership org userId s).2 = s := by
  show (require (s.membershipOf org userId).isNone (.conflict _) s : Except Err Unit × Store).2 = s
  unfold Act.require
  split <;> rfl

/-- A service none of whose steps takes an owner away. -/
theorem tells_kept {α : Type} {C : List Store → Store → Prop} (hC : ∀ seen s, C seen s) {x : Service α}
    (h : EveryStep (fun s s' => OwnersKept s → OwnersKept s') x) (seen : List Store) :
    Tells (OwnersIff C) (fun _ _ => True) seen x := by
  induction x generalizing seen with
  | done outcome =>
    cases outcome with
    | ok a => exact trivial
    | error e => trivial
  | step act rest ih => exact fun s => ⟨ownersIff_kept (hC _ _) (h s).1, ih s (h s).2 _⟩

theorem createOrganization_kept (id membershipId : String) (data : Organization) (creatorId : String) :
    EveryStep (fun s s' => OwnersKept s → OwnersKept s') (createOrganization id membershipId data creatorId) :=
  everyStep_bind (everyStep_await fun s hs => (slugFree_state data.slug s).symm ▸ hs) fun _ =>
    everyStep_await fun _ hs => createOwned_kept hs

theorem deleteOrganization_kept (id : String) :
    EveryStep (fun s s' => OwnersKept s → OwnersKept s') (deleteOrganization id) :=
  everyStep_bind (everyStep_await fun s hs => (organizationById_state id s).symm ▸ hs) fun _ =>
    everyStep_await fun _ hs => removeOrganization_kept hs

theorem addOrgMember_kept (id organizationId userId : String) (role : OrgRole) :
    EveryStep (fun s s' => OwnersKept s → OwnersKept s') (addOrgMember id organizationId userId role) :=
  everyStep_bind (everyStep_await fun s hs => (noMembership_state organizationId userId s).symm ▸ hs) fun _ =>
    everyStep_await fun _ hs => createMembership_kept hs

theorem updateUserRow_kept (id : String) (f : User → User) (s : Store) (h : OwnersKept s) :
    OwnersKept (updateUserRow id f s).2 := by
  rw [updateUserRow_state]
  split
  · exact ownersKept_same rfl rfl h
  · exact h

theorem guardLastAdmin_kept (guarded : Bool) (message : String) :
    EveryStep (fun s s' => OwnersKept s → OwnersKept s') (guardLastAdmin guarded message) := by
  unfold guardLastAdmin
  split
  · exact everyStep_bind (everyStep_await fun _ hs => hs) fun _ => everyStep_require _ _
  · exact everyStep_pure _

theorem userEndpoint_kept (r : UserRequest) : EveryStep (fun s s' => OwnersKept s → OwnersKept s') (userEndpoint r) := by
  have hread : ∀ id, EveryStep (fun s s' => OwnersKept s → OwnersKept s') (await (userById id)) := fun id =>
    everyStep_await fun s hs => (userById_state id s).symm ▸ hs
  have hwrite : ∀ id f, EveryStep (fun s s' => OwnersKept s → OwnersKept s') (await (updateUserRow id f)) := fun id f =>
    everyStep_await fun s hs => updateUserRow_kept id f s hs
  refine everyStep_bind (everyStep_await fun s hs => (authorized_state _ _ s).symm ▸ hs) fun caller => ?_
  cases r.op with
  | update id data =>
    refine everyStep_bind (everyStep_require _ _) fun _ => everyStep_bind ?_ fun _ => everyStep_pure _
    exact everyStep_bind (hread id) fun user => everyStep_bind (guardLastAdmin_kept _ _) fun _ => hwrite id _
  | delete id =>
    refine everyStep_bind (everyStep_require _ _) fun _ => everyStep_bind (hread id) fun user => ?_
    exact everyStep_bind (guardLastAdmin_kept _ _) fun _ => everyStep_bind (hwrite id _) fun _ => everyStep_pure _
  | restore id =>
    refine everyStep_bind ?_ fun _ => everyStep_pure _
    exact everyStep_bind (hread id) fun user => everyStep_bind (everyStep_require _ _) fun _ => hwrite id _

theorem cleanupSessions_kept : EveryStep (fun s s' => OwnersKept s → OwnersKept s') cleanupSessions :=
  everyStep_bind (everyStep_await fun _ hs => hs) fun _ => everyStep_await fun _ hs => ownersKept_same rfl rfl hs

/-- The role is read with the membership and written in the next step. -/
theorem tells_updateOrgMemberRole (organizationId userId : String) (role : OrgRole) :
    Tells (OwnersIff fun seen s => RoleSpares userId role organizationId s seen) (fun _ _ => True) []
      (updateOrgMemberRole organizationId userId role) := by
  simp only [updateOrgMemberRole, tells_bind, tells_await, implies_true, and_true]
  intro found
  refine ⟨ownersIff_read trivial (membership_state _ _ _), fun m hm s hs => ?_⟩
  have hfound := membership_ok hm
  have hspares : RoleSpares userId role organizationId s [found] ↔ (role ≠ .OWNER → s.onlyOwner m.1 = false) := by
    simp only [RoleSpares, hfound, Option.mem_some_iff, forall_eq']
  by_cases hrole : role = .OWNER
  · subst hrole
    exact iff_of_true (hspares.2 fun hne => absurd rfl hne) (updateMembership_kept hs)
  · refine hspares.trans ?_
    rw [← updateMembership_kept_iff hrole hs]
    exact ⟨fun h => h hrole, fun h _ => h⟩

theorem tells_removeOrgMember (organizationId userId : String) :
    Tells (OwnersIff fun seen s => RemovalSpares userId organizationId s seen) (fun _ _ => True) []
      (removeOrgMember organizationId userId) := by
  rw [removeOrgMember, tells_bind, tells_await]
  intro found
  refine ⟨ownersIff_read trivial (membership_state _ _ _), fun m hm => ?_⟩
  have hfound := membership_ok hm
  rw [guardLastOwner, tells_bind, tells_ite]
  refine ⟨fun hrole => ?_, fun hrole => ?_⟩
  · simp only [tells_bind, tells_await, tells_require, implies_true, and_true]
    intro counted
    refine ⟨ownersIff_read ?_ rfl, fun n hn hlt s hs => ?_⟩
    · intro m' hm' hne
      rw [hfound] at hm'
      cases hm'
      exact absurd hrole hne
    · obtain rfl : counted.ownerCount organizationId = n := Except.ok.inj hn
      rw [← deleteMembership_kept_iff hs, ← Bool.not_eq_true]
      constructor
      · intro h honly
        have hle := (h m hfound honly).2
        omega
      · intro h m' hm' honly
        obtain rfl := Option.some.inj (hfound.symm.trans hm')
        exact absurd honly h
  · simp only [tells_pure, tells_await, implies_true, and_true]
    intro s hs
    rw [← deleteMembership_kept_iff hs]
    constructor
    · intro h
      exact h m hfound hrole
    · intro h m' hm' _
      obtain rfl := Option.some.inj (hfound.symm.trans hm')
      exact h

theorem tells_purgeUsers (requesters : List String) :
    Tells (OwnersIff fun seen s => PurgeSpares requesters s seen) (fun _ _ => True) [] (purgeUsers requesters) := by
  simp only [purgeUsers, tells_bind, tells_await, implies_true, and_true]
  intro clocked
  refine ⟨ownersIff_read trivial rfl, fun now hnow s hs => ?_⟩
  obtain rfl : clocked.now = now := Except.ok.inj hnow
  refine wp_final (P := fun t => PurgeSpares requesters s [clocked] ↔ OwnersKept t) ?_
  simp only [purgeDue, wp_bind, wp_read, wp_require, wp_modify, Bool.not_eq_false]
  refine ⟨fun hgo => ?_, fun hrefused => iff_of_true (.inl hrefused) hs⟩
  rw [PurgeSpares, hgo, ← purged_kept_iff]
  exact or_iff_right (by decide)

/-- Every step of every request. -/
theorem tells_owners (r : OrgRequest) : Tells (OwnersIff (Spares r)) (fun _ _ => True) [] (orgEndpoint r) := by
  have hfree : (∀ seen s, Spares r seen s) → ∀ {β : Type} {x : Service β} {f : β → Service Unit},
      EveryStep (fun s s' => s' = s) x → (∀ b, EveryStep (fun s s' => OwnersKept s → OwnersKept s') (f b)) →
      Tells (OwnersIff (Spares r)) (fun _ _ => True) [] (x >>= f) := by
    intro hC β x f hx hf
    exact tells_past (tells_everyStep hx) (fun seen s s' _ he => ownersIff_read (hC seen s) he)
      fun pre b _ _ => tells_kept hC (hf b) pre
  cases r with
  | create caller id membershipId data =>
    exact hfree (fun _ _ => trivial) (creating_reads caller data) fun _ => createOrganization_kept _ _ _ _
  | delete caller param =>
    exact hfree (fun _ _ => trivial) (administering_reads caller param) fun _ => deleteOrganization_kept _
  | addMember caller param membershipId userId role =>
    exact hfree (fun _ _ => trivial) (managing_reads caller param role) fun _ => addOrgMember_kept _ _ _ _
  | setRole caller param userId role =>
    refine tells_past (tells_everyStep (managing_reads caller param role)) ?_ fun pre id _ hpast =>
      tells_shift pre (tells_updateOrgMemberRole id userId role) ?_ fun _ _ _ => trivial
    · intro seen s s' hpast he
      refine ownersIff_read (fun p hp => ?_) he
      rw [hpast] at hp
      cases hp
    · intro more s s' h
      have hiff : Spares (.setRole caller param userId role) (pre ++ more) s ↔ RoleSpares userId role id s more := by
        simp only [Spares, hpast, Option.mem_some_iff, forall_eq']
      exact fun hs => hiff.trans (h hs)
  | removeMember caller param userId =>
    refine tells_past (tells_everyStep (administering_reads caller param)) ?_ fun pre id _ hpast =>
      tells_shift pre (tells_removeOrgMember id userId) ?_ fun _ _ _ => trivial
    · intro seen s s' hpast he
      refine ownersIff_read (fun p hp => ?_) he
      rw [hpast] at hp
      cases hp
    · intro more s s' h
      have hiff : Spares (.removeMember caller param userId) (pre ++ more) s ↔ RemovalSpares userId id s more := by
        simp only [Spares, hpast, Option.mem_some_iff, forall_eq']
      exact fun hs => hiff.trans (h hs)
  | user r => exact tells_kept (fun _ _ => trivial) (userEndpoint_kept r) []
  | purge requesters => exact tells_purgeUsers requesters
  | cleanup => exact tells_kept (fun _ _ => trivial) cleanupSessions_kept []

/-! ## Runs -/

abbrev OrgCall := Call OrgRequest Store

def orgStep : Pool Store OrgCall → Move Nat → Pool Store OrgCall := Pool.step (Call.advance orgEndpoint) Store.elapse

def organizing (s : Store) (requests : List OrgRequest) : Pool Store OrgCall := ⟨s, requests.map Call.start⟩

theorem every_organization_keeps_an_owner_iff (s : Store) (hs : OwnersKept s) (requests : List OrgRequest)
    (moves : List (Move Nat)) :
    (∀ pre post, moves = pre ++ post → OwnersKept (run orgStep (organizing s requests) pre).shared) ↔
      Along orgStep (Pool.AtStep orgEndpoint Spares) (organizing s requests) moves :=
  have hother : ∀ ms t, OwnersKept t → OwnersKept (Store.elapse ms t) := fun _ _ ht => ht
  have hcall : ∀ (c : OrgCall) t, c.ended orgEndpoint = false → OwnersKept t →
      (Spares c.request c.seen t ↔ OwnersKept ((c.left orgEndpoint).advance t).2) :=
    fun c t hg ht => tells_step (tells_owners c.request) hg t ht
  Pool.shared_iff hother hcall hs moves

/-! ## The last owner -/

/-- Ada creates an organization. -/
def founding : OrgRequest := .create "ada" "org1" "m1" ⟨"Acme", "acme", none⟩

/-- `PUT /api/organizations/acme/members/ada {"role":"MEMBER"}`, by Ada. -/
def steppingDown : OrgRequest := .setRole "ada" "acme" "ada" .MEMBER

/-- A removal finds the last owner. -/
theorem the_last_owner_is_not_removed :
    OwnersKept (run orgStep (organizing office [founding, .removeMember "bob" "acme" "ada"])
      [.call 0, .call 0, .call 0, .call 1, .call 1, .call 1, .call 1]).shared := by
  have hall := (every_organization_keeps_an_owner_iff office (by decide) [founding, .removeMember "bob" "acme" "ada"]
    [.call 0, .call 0, .call 0, .call 1, .call 1, .call 1, .call 1]).2 (by decide +kernel)
  exact hall _ [] (List.append_nil _).symm

theorem the_last_owner_steps_down :
    ¬∀ (s : Store), OwnersKept s → ∀ (requests : List OrgRequest) (moves : List (Move Nat)) pre post,
      moves = pre ++ post → OwnersKept (run orgStep (organizing s requests) pre).shared := by
  intro h
  have hkept := h office (by decide) [founding, steppingDown]
    [.call 0, .call 0, .call 0, .call 1, .call 1, .call 1, .call 1] _ [] (List.append_nil _).symm
  revert hkept
  decide +kernel

end ClusterGate.Accounts
