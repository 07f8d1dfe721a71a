/-
  ClusterGate.Store.State — the tables behind the route endpoints and the database
  client's operations on routes.

  A write of a route checks what the database checks: the record exists (`P2025`), every
  field is of its column's type, no other row has the written path or slug (`P2002`), and
  a written reference names a row (`P2003`). Nothing else about a row is checked here:
  what a handler did not check is stored as sent. References to users are not checked,
  the only ids written there being the caller's.

  A change request's `trail` is the model's record of what happened to it; no handler
  reads it.
  - `routeUpdate_spec`, `routeCreate_spec`, `routeUpdateMany_spec`: the store after a
    write that went through, and that a refused one leaves the store alone.
-/

import ClusterGate.Errors
import ClusterGate.Caller
import ClusterGate.World
import ClusterGate.Lib.Act
import ClusterGate.Lib.Table

namespace ClusterGate

open Lib Lib.Act

structure Organization where
  name : String
  changeRequestsEnabled : Bool := false
  crBypassRoles : List OrgRole := [.OWNER]
  crApproverRoles : List OrgRole := [.OWNER, .ADMIN]
  restrictTargets : Bool := false
  allowedTargetNamespaces : List String := []
  allowedTargetHosts : List String := []
  deriving DecidableEq

structure Team where
  organizationId : String
  name : String
  deriving DecidableEq

structure RouteGroup where
  name : String
  slug : Option String := none
  pathPrefix : String
  teamId : Option String := none
  /-- Absent: the organization's policy applies. -/
  changeRequestsEnabled : Option Bool := none
  crBypassRoles : List OrgRole := []
  crApproverRoles : List OrgRole := []
  deriving DecidableEq

structure RouteFolder where
  name : String
  organizationId : Option String
  sortOrder : Int := 0
  deriving DecidableEq

/-- A stored version of a route: the row as it was, without its id. -/
structure RouteVersion where
  routeId : String
  version : Json
  snapshot : Column → Json
  createdById : String

structure RouteTarget where
  routeId : String
  url : String
  weight : Int := 100
  priority : Int := 0
  isHealthy : Bool := true
  deriving DecidableEq

structure TransformRule where
  routeId : String
  phase : String
  type : String
  name : String
  config : Json
  order : Int := 0
  isActive : Bool := true
  condition : Option Json := none
  deriving DecidableEq

inductive ChangeRequestStatus
  | PENDING | APPROVED | REJECTED | APPLIED
  deriving DecidableEq

/-- What happens to a change request: it is given a status, or a route is created, updated
    or deleted on its behalf. -/
inductive CrEvent
  | status (s : ChangeRequestStatus)
  | created (routeId : String) (row : Row)
  | updated (routeId : String) (before after : Row)
  | deleted (routeId : String)

/-- The payload is an object of any members; only those named as columns are ever read. -/
structure ChangeRequest where
  routeId : Option String
  type : String
  status : ChangeRequestStatus := .PENDING
  title : String
  description : Option String := none
  payload : Patch
  requestedById : String
  reviewedById : Option String := none
  reviewComment : Option String := none
  reviewedAt : Option String := none
  trail : List CrEvent := [.status .PENDING]

structure Store where
  organizations : Table String Organization
  /-- By user and organization. -/
  orgMemberships : Table (String × String) OrgRole
  teams : Table String Team
  routeGroups : Table String RouteGroup
  routeFolders : Table String RouteFolder
  routes : Table String Row
  routeVersions : Table String RouteVersion
  routeTargets : Table String RouteTarget
  transformRules : Table String TransformRule
  changeRequests : Table String ChangeRequest

def Store.empty : Store where
  organizations := Table.empty
  orgMemberships := Table.empty
  teams := Table.empty
  routeGroups := Table.empty
  routeFolders := Table.empty
  routes := Table.empty
  routeVersions := Table.empty
  routeTargets := Table.empty
  transformRules := Table.empty
  changeRequests := Table.empty

abbrev Handler (α : Type) := Act Store Err α

/-- What a handler keeps whether it returns or throws. -/
abbrev Keeps {α : Type} (x : Handler α) (P : Store → Prop) (s : Store) : Prop := wp x (fun _ => P) (fun _ => P) s

/-! ## The constraints of the routes table -/

/-- Another row has the value in a unique column; null is never taken. -/
def taken (s : Store) (id : String) (c : Column) (v : Json) : Bool :=
  v ≠ .null && s.routes.any fun k r => k ≠ id && r.val c = v

/-- The unique columns a write touches are free for the row. -/
def uniqueOk (s : Store) (id : String) (p : Patch) (row : Row) : Bool :=
  ((p .publicPath).isNone || !taken s id .publicPath (row.val .publicPath)) &&
    ((p .slug).isNone || !taken s id .slug (row.val .slug))

def refersTo {α : Type} (t : Table String α) (v : Json) : Bool :=
  match v with
  | .str id => (t.get? id).isSome
  | _ => true

/-- The references a write touches name rows. -/
def refsOk (s : Store) (p : Patch) (row : Row) : Bool :=
  ((p .organizationId).isNone || refersTo s.organizations (row.val .organizationId)) &&
    ((p .routeGroupId).isNone || refersTo s.routeGroups (row.val .routeGroupId)) &&
    ((p .folderId).isNone || refersTo s.routeFolders (row.val .folderId))

/-! ## Operations on routes -/

/-- `prisma.route.findUnique({ where: { id, deletedAt: null } })`. -/
def liveRoute? (s : Store) (id : String) : Option Row := (s.routes.get? id).filter Row.live

/-- The data of a write at a time: `@updatedAt`. -/
def stamped (now : String) (data : Patch) : Patch := data.set .updatedAt (.str now)

/-- What a write makes of a route's row, or why the client or the database refuses it. -/
def routeWrite (s : Store) (now id : String) (data : Patch) : Except Err Row :=
  match s.routes.get? id with
  | none => .error (.prisma "P2025")
  | some old =>
    match old.write (stamped now data) with
    | none => .error .prismaValidation
    | some row =>
      if uniqueOk s id data row = false then .error (.prisma "P2002")
      else if refsOk s data row = false then .error (.prisma "P2003")
      else .ok row

/-- `prisma.route.update({ where: { id }, data })`. -/
def routeUpdate (now id : String) (data : Patch) : Handler Row := do
  let s ← read
  let row ← ofExcept (routeWrite s now id data)
  modify fun s => { s with routes := s.routes.modify id fun _ => row }
  pure row

/-- `prisma.route.create({ data })`, with the id the client draws. -/
def routeCreate (now id : String) (data : Patch) : Handler Row := do
  let s ← read
  let row ← orThrow (Row.create (stamped now (data.set .createdAt (.str now)))) .prismaValidation
  require ((s.routes.get? id).isNone ∧ uniqueOk s id (fun c => some (row.val c)) row) (.prisma "P2002")
  require (refsOk s (fun c => some (row.val c)) row) (.prisma "P2003")
  modify fun s => { s with routes := s.routes.insert id row }
  pure row

/-- A row after a write of `data` to the selected rows. -/
def writtenIf (sel : String → Row → Bool) (data : Patch) (id : String) (r : Row) : Row :=
  if sel id r then (r.write data).getD r else r

/-- `prisma.route.updateMany({ where, data })`: how many rows. -/
def routeUpdateMany (now : String) (sel : String → Row → Bool) (data : Patch) : Handler Nat := do
  let s ← read
  let data' := stamped now data
  require (¬ s.routes.any fun id r => sel id r && (r.write data').isNone) .prismaValidation
  require (¬ s.routes.any fun id r => sel id r && !(refsOk s data ((r.write data').getD r))) (.prisma "P2003")
  modify fun s => { s with routes := s.routes.mapRows (writtenIf sel data') }
  pure (s.routes.filter sel).rows.length

/-- `prisma.route.delete({ where: { id } })`: what hangs on the route goes with it, and
    its change requests lose it. -/
def routeDelete (id : String) : Handler Unit := do
  let s ← read
  require (s.routes.get? id).isSome (.prisma "P2025")
  modify fun s => { s with
    routes := s.routes.erase id,
    routeVersions := s.routeVersions.filter fun _ v => v.routeId ≠ id,
    routeTargets := s.routeTargets.filter fun _ t => t.routeId ≠ id,
    transformRules := s.transformRules.filter fun _ t => t.routeId ≠ id,
    changeRequests := s.changeRequests.mapRows fun _ c =>
      if c.routeId = some id then { c with routeId := none } else c }

/-- `prisma.routeVersion.create`: a version of a route with the row it had. -/
def versionCreate (versionId routeId : String) (version : Json) (row : Row) (userId : String) : Handler Unit := do
  let s ← read
  require (s.routeVersions.get? versionId).isNone (.prisma "P2002")
  modify fun s => { s with routeVersions := s.routeVersions.insert versionId ⟨routeId, version, row.val, userId⟩ }

/-! ## What they leave -/

/-- The row `row` is what a write of `data` makes of route `id`. -/
def WritesTo (s : Store) (now id : String) (data : Patch) (row : Row) : Prop :=
  ∃ old, s.routes.get? id = some old ∧ old.write (stamped now data) = some row

theorem routeWrite_ok {s : Store} {now id : String} {data : Patch} {row : Row} (h : routeWrite s now id data = .ok row) :
    WritesTo s now id data row := by
  unfold routeWrite at h
  split at h
  · cases h
  · rename_i old ho
    split at h
    · cases h
    · rename_i row' hr
      split at h
      · cases h
      · split at h
        · cases h
        · injection h with h
          exact ⟨old, ho, h ▸ hr⟩

/-- The database takes a write: the route is there, every value is one its column takes, no
    other row has its path or slug, and what it refers to exists. -/
def Takes (s : Store) (now id : String) (data : Patch) : Prop :=
  ∃ old row, s.routes.get? id = some old ∧ old.write (stamped now data) = some row ∧ uniqueOk s id data row = true ∧
    refsOk s data row = true

theorem routeWrite_takes {s : Store} {now id : String} {data : Patch} :
    (∃ row, routeWrite s now id data = .ok row) ↔ Takes s now id data := by
  unfold routeWrite Takes
  cases ho : s.routes.get? id with
  | none => simp
  | some old =>
    cases hw : old.write (stamped now data) with
    | none => simp [hw]
    | some row =>
      by_cases hu : uniqueOk s id data row = true
      · by_cases hr : refsOk s data row = true
        · simp [hw, hu, hr]
        · simp [hw, hu, hr]
      · simp [hw, hu]

theorem routeUpdate_spec {now id : String} {data : Patch} {s : Store} :
    wp (routeUpdate now id data)
      (fun row s' => routeWrite s now id data = .ok row ∧ s' = { s with routes := s.routes.modify id fun _ => row })
      (fun e s' => routeWrite s now id data = .error e ∧ s' = s) s := by
  simp only [routeUpdate, wp_bind, wp_read, wp_ofExcept, wp_modify, wp_pure]
  exact ⟨fun row hr => ⟨hr, trivial⟩, fun e he => ⟨he, trivial⟩⟩

theorem routeUpdate_returns {s s' : Store} {now id : String} {data : Patch} {row : Row} :
    Returns (routeUpdate now id data) s row s' ↔
      routeWrite s now id data = .ok row ∧ s' = { s with routes := s.routes.modify id fun _ => row } := by
  unfold routeUpdate
  simp only [returns_read_bind, returns_ofExcept_bind, returns_modify_bind, returns_pure]
  constructor
  · rintro ⟨b, hb, rfl, rfl⟩
    exact ⟨hb, rfl⟩
  · rintro ⟨h, rfl⟩
    exact ⟨row, h, rfl, rfl⟩

theorem routeCreate_spec {now id : String} {data : Patch} {s : Store} :
    wp (routeCreate now id data)
      (fun row s' => s.routes.get? id = none ∧
        Row.create (stamped now (data.set .createdAt (.str now))) = some row ∧
        uniqueOk s id (fun c => some (row.val c)) row = true ∧ refsOk s (fun c => some (row.val c)) row = true ∧
        s' = { s with routes := s.routes.insert id row })
      (fun _ s' => s' = s) s := by
  simp only [routeCreate, wp_bind, wp_read, wp_orThrow, wp_require, wp_modify, wp_pure, implies_true, and_true]
  exact fun row hr hu hrefs => ⟨by simpa using hu.1, hr, hu.2, hrefs⟩

/-- A write of many rows: each selected row is written, the others stay. -/
theorem routeUpdateMany_spec {now : String} {sel : String → Row → Bool} {data : Patch} {s : Store} :
    wp (routeUpdateMany now sel data)
      (fun n s' => n = (s.routes.filter sel).rows.length ∧
        (∀ id r, s.routes.get? id = some r → sel id r = true →
          ∃ r', r.write (stamped now data) = some r' ∧ refsOk s data r' = true) ∧
        s' = { s with routes := s.routes.mapRows (writtenIf sel (stamped now data)) })
      (fun _ s' => s' = s) s := by
  simp only [routeUpdateMany, wp_bind, wp_read, wp_require, wp_modify, wp_pure, implies_true, and_true, true_and]
  intro h hrefs id r hr hs
  have taken := (Table.any_eq_false.1 (Bool.not_eq_true _ ▸ h)) id r hr
  simp only [hs, Bool.true_and, Option.isNone_eq_false_iff, Option.isSome_iff_exists] at taken
  obtain ⟨r', hr'⟩ := taken
  have refs := (Table.any_eq_false.1 (Bool.not_eq_true _ ▸ hrefs)) id r hr
  simp only [hs, hr', Bool.true_and, Option.getD_some, Bool.not_eq_false'] at refs
  exact ⟨r', hr', refs⟩

end ClusterGate
