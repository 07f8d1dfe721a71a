/-
  ClusterGate.Change.Service — change requests and the policy that asks for them
  (`services/changeRequestService.ts`).

  An approval is three writes around a check and a write of the route: the request is
  marked approved, its payload goes to the route, the request is marked applied. Nothing
  undoes the first when the second throws.
  - `approve_spec`: every way an approval can end, with the store it leaves.
-/

import ClusterGate.Route.Access

namespace ClusterGate

open Lib Lib.Act

/-! ## The policy -/

inductive PolicySource
  | none | organization | group
  deriving DecidableEq

structure CRPolicy where
  required : Bool
  bypassRoles : List OrgRole
  approverRoles : List OrgRole
  source : PolicySource
  deriving DecidableEq

def noPolicy : CRPolicy := ⟨false, [], [], .none⟩

/-- The organization of a route, live or archived. -/
def routeOrg? (s : Store) (routeId : String) : Option String := (s.routes.get? routeId).bind Row.orgId

/-- The group of a route, live or archived. -/
def routeGroup? (s : Store) (routeId : String) : Option RouteGroup :=
  (((s.routes.get? routeId).bind fun r => r.text .routeGroupId).filter (· ≠ "")).bind s.routeGroups.get?

/-- A group's roles, or the organization's where it lists none. -/
def orElseRoles (own inherited : List OrgRole) : List OrgRole := if own = [] then inherited else own

def orgPolicy (org : Organization) : CRPolicy :=
  ⟨org.changeRequestsEnabled, org.crBypassRoles, org.crApproverRoles,
   if org.changeRequestsEnabled then .organization else .none⟩

def groupPolicy (org : Organization) (group : RouteGroup) (enabled : Bool) : CRPolicy :=
  ⟨enabled, orElseRoles group.crBypassRoles org.crBypassRoles, orElseRoles group.crApproverRoles org.crApproverRoles,
   .group⟩

/-- `getPolicy`: a group that says so overrides its organization. -/
def getPolicy (s : Store) (routeId : String) : CRPolicy :=
  match (routeOrg? s routeId).bind s.organizations.get? with
  | none => noPolicy
  | some org =>
    match routeGroup? s routeId with
    | none => orgPolicy org
    | some group =>
      match group.changeRequestsEnabled with
      | some enabled => groupPolicy org group enabled
      | none => orgPolicy org

/-- `canBypass`: a caller without a membership passes, the endpoint's own check applies. -/
def canBypass (s : Store) (u : Caller) (routeId : String) : Bool :=
  u.role = .ADMIN || !(getPolicy s routeId).required ||
    (match (routeOrg? s routeId).bind (getUserOrgRole s u.userId) with
      | none => true
      | some role => (getPolicy s routeId).bypassRoles.contains role)

/-- The route a change request is about. -/
def ChangeRequest.route? (cr : ChangeRequest) : Option String := cr.routeId.filter (· ≠ "")

def canApprove (s : Store) (u : Caller) (crId : String) : Bool :=
  u.role = .ADMIN ||
    (match (s.changeRequests.get? crId).bind ChangeRequest.route? with
      | none => false
      | some routeId => match (routeOrg? s routeId).bind (getUserOrgRole s u.userId) with
        | none => false
        | some role => (getPolicy s routeId).approverRoles.contains role)

/-! ## The table -/

/-- `prisma.changeRequest.create`. -/
def crCreate (id : String) (cr : ChangeRequest) : Handler Unit := do
  let s ← read
  require (s.changeRequests.get? id).isNone (.prisma "P2002")
  require (∀ r ∈ cr.routeId, (s.routes.get? r).isSome) (.prisma "P2003")
  modify fun s => { s with changeRequests := s.changeRequests.insert id cr }

/-- `prisma.changeRequest.update`. -/
def crUpdate (id : String) (f : ChangeRequest → ChangeRequest) : Handler ChangeRequest := do
  let s ← read
  let cr ← orThrow (s.changeRequests.get? id) (.prisma "P2025")
  modify fun s => { s with changeRequests := s.changeRequests.modify id f }
  pure (f cr)

/-- A request with a status. -/
def ChangeRequest.withStatus (status : ChangeRequestStatus) (cr : ChangeRequest) : ChangeRequest :=
  { cr with status, trail := cr.trail ++ [.status status] }

/-- A request with a review; no comment leaves an earlier one. -/
def ChangeRequest.reviewed (status : ChangeRequestStatus) (reviewerId : String) (comment : Option String) (now : String)
    (cr : ChangeRequest) : ChangeRequest :=
  { cr.withStatus status with
    reviewedById := some reviewerId, reviewComment := comment.or cr.reviewComment, reviewedAt := some now }

/-- For the record: the request's payload has been written to a route. -/
def ChangeRequest.noted (routeId : String) (before after : Row) (cr : ChangeRequest) : ChangeRequest :=
  { cr with trail := cr.trail ++ [.updated routeId before after] }

def noteUpdate (id routeId : String) (before after : Row) : Handler Unit :=
  modify fun s => { s with changeRequests := s.changeRequests.modify id (ChangeRequest.noted routeId before after) }

/-! ## The service -/

/-- `assertTargetAllowed`: only a target that is a text is judged, by the policy of the
    route's organization. -/
def payloadTargetRefused (W : World) (s : Store) (cr : ChangeRequest) : Option String :=
  match cr.route?, cr.payload .targetUrl with
  | some routeId, some (.str url) =>
    targetRefused W s url (((s.routes.get? routeId).map fun r => r.val .organizationId).getD .null)
  | _, _ => none

def assertPayloadTargetAllowed (W : World) (cr : ChangeRequest) : Handler Unit := do
  let s ← read
  match payloadTargetRefused W s cr with
  | some message => throw (.badRequest message)
  | none => pure ()

/-- The fields an approval takes from a payload. -/
def APPLIED_FIELDS : List Column :=
  [.name, .description, .targetUrl, .methods, .publicPath, .timeout, .retryCount, .retryDelay, .rateLimitEnabled,
   .rateLimitMax, .rateLimitWindow, .stripPrefix, .sslVerify, .corsEnabled, .corsOrigins, .pathAllowlist, .requireAuth,
   .authType, .authValue, .tags, .wsEnabled, .circuitBreakerEnabled, .cbFailureThreshold, .cbRecoveryTimeout,
   .lbStrategy, .maintenanceMode, .maintenanceMessage, .sandbox]

/-- What an approval writes of a payload. -/
def appliedData (payload : Patch) : Patch := fun c => if c ∈ APPLIED_FIELDS then payload c else none

/-- The route an approval writes: only updates of a route do anything. -/
def ChangeRequest.writes? (cr : ChangeRequest) : Option String := if cr.type = "update" then cr.route? else none

def applyChange (W : World) (now id : String) (cr : ChangeRequest) : Handler Unit :=
  match cr.writes? with
  | none => pure ()
  | some routeId => do
    assertPayloadTargetAllowed W cr
    let before ← read
    let row ← routeUpdate now routeId (appliedData cr.payload)
    (before.routes.get? routeId).forM fun old => noteUpdate id routeId old row

def approve (W : World) (now id reviewerId : String) (comment : Option String) : Handler ChangeRequest := do
  let s ← read
  (s.changeRequests.get? id).forM (assertPayloadTargetAllowed W)
  let cr ← crUpdate id (ChangeRequest.reviewed .APPROVED reviewerId comment now)
  applyChange W now id cr
  crUpdate id (ChangeRequest.withStatus .APPLIED)

def reject (now id reviewerId : String) (comment : Option String) : Handler ChangeRequest :=
  crUpdate id (ChangeRequest.reviewed .REJECTED reviewerId comment now)

/-- `delete`: a pending request is not deleted. -/
def deleteChangeRequest (id : String) : Handler Unit := do
  let s ← read
  let cr ← orThrow (s.changeRequests.get? id) (.notFound "Change request")
  require (cr.status ≠ .PENDING)
    (.badRequest "Cannot delete a pending change request — approve or reject it first")
  modify fun s => { s with changeRequests := s.changeRequests.erase id }

/-! ## How an approval can end -/

/-- A request after an approval that wrote nothing. -/
def ChangeRequest.appliedIdle (reviewerId : String) (comment : Option String) (now : String) : ChangeRequest → ChangeRequest :=
  ChangeRequest.withStatus .APPLIED ∘ ChangeRequest.reviewed .APPROVED reviewerId comment now

/-- A request after an approval that wrote a route. -/
def ChangeRequest.applied (reviewerId : String) (comment : Option String) (now routeId : String) (before after : Row) :
    ChangeRequest → ChangeRequest :=
  ChangeRequest.withStatus .APPLIED ∘ ChangeRequest.noted routeId before after ∘
    ChangeRequest.reviewed .APPROVED reviewerId comment now

theorem wp_assertPayloadTargetAllowed {W : World} {cr : ChangeRequest} {s : Store} {Q : Unit → Store → Prop}
    {E : Err → Store → Prop} :
    wp (assertPayloadTargetAllowed W cr) Q E s ↔
      (payloadTargetRefused W s cr = none → Q () s) ∧
        ∀ m, payloadTargetRefused W s cr = some m → E (.badRequest m) s := by
  simp only [assertPayloadTargetAllowed, wp_bind, wp_read]
  split <;> simp_all

theorem wp_crUpdate {id : String} {f : ChangeRequest → ChangeRequest} {s : Store} {Q : ChangeRequest → Store → Prop}
    {E : Err → Store → Prop} :
    wp (crUpdate id f) Q E s ↔
      (∀ cr, s.changeRequests.get? id = some cr → Q (f cr) { s with changeRequests := s.changeRequests.modify id f }) ∧
        (s.changeRequests.get? id = none → E (.prisma "P2025") s) := by
  simp only [crUpdate, wp_bind, wp_read, wp_orThrow, wp_modify, wp_pure]

/-- The store an approval leaves that marked the request and went no further. -/
def markedApproved (now id reviewerId : String) (comment : Option String) (s : Store) : Store :=
  { s with changeRequests := s.changeRequests.modify id (ChangeRequest.reviewed .APPROVED reviewerId comment now) }

/-- Every way an approval ends: no such request or a target refused, with the store as it
    was; the write of the route refused, with the request marked; or done. -/
theorem approve_spec {W : World} {now id reviewerId : String} {comment : Option String} {s : Store} :
    wp (approve W now id reviewerId comment)
      (fun _ s' => ∃ cr, s.changeRequests.get? id = some cr ∧ payloadTargetRefused W s cr = none ∧
        ((cr.writes? = none ∧ s' = { s with
          changeRequests := s.changeRequests.modify id (ChangeRequest.appliedIdle reviewerId comment now) }) ∨
        ∃ routeId old row, cr.writes? = some routeId ∧ s.routes.get? routeId = some old ∧
          routeWrite s now routeId (appliedData cr.payload) = .ok row ∧ s' = { s with
            routes := s.routes.modify routeId fun _ => row,
            changeRequests := s.changeRequests.modify id
              (ChangeRequest.applied reviewerId comment now routeId old row) }))
      (fun e s' => (s' = s ∧ (s.changeRequests.get? id = none ∨
          ∃ cr, s.changeRequests.get? id = some cr ∧ (payloadTargetRefused W s cr).isSome = true)) ∨
        ∃ cr routeId, s.changeRequests.get? id = some cr ∧ payloadTargetRefused W s cr = none ∧
          cr.writes? = some routeId ∧ routeWrite s now routeId (appliedData cr.payload) = .error e ∧
          s' = markedApproved now id reviewerId comment s) s := by
  unfold approve
  rw [wp_bind, wp_read, wp_bind]
  cases hcr : s.changeRequests.get? id with
  | none =>
    refine (wp_bind _ _).2 (wp_crUpdate.2 ⟨fun cr h => ?_, fun _ => Or.inl ⟨rfl, Or.inl rfl⟩⟩)
    rw [hcr] at h
    cases h
  | some cr =>
    refine wp_assertPayloadTargetAllowed.2 ⟨fun ht => ?_, fun m hm => Or.inl ⟨rfl, Or.inr ⟨cr, rfl, by rw [hm]; rfl⟩⟩⟩
    refine (wp_bind _ _).2 (wp_crUpdate.2 ⟨fun cr' h => ?_, fun h => ?_⟩)
    · obtain rfl : cr = cr' := by simpa [hcr] using h
      have get_marked : (s.changeRequests.modify id (ChangeRequest.reviewed .APPROVED reviewerId comment now)).get? id =
          some (ChangeRequest.reviewed .APPROVED reviewerId comment now cr) := by
        rw [Table.get?_modify, if_pos rfl, hcr]
        rfl
      -- what the request writes, and whether its target is refused, does not depend on its review
      have hw : (ChangeRequest.reviewed .APPROVED reviewerId comment now cr).writes? = cr.writes? := rfl
      rw [wp_bind, applyChange, hw]
      cases hr : cr.writes? with
      | none =>
        refine wp_crUpdate.2 ⟨fun _ _ => ⟨cr, rfl, ht, Or.inl ⟨hr, ?_⟩⟩, fun h => ?_⟩
        · rw [Table.modify_modify]
          rfl
        · rw [get_marked] at h
          cases h
      | some routeId =>
        refine (wp_bind _ _).2 (wp_assertPayloadTargetAllowed.2 ⟨fun _ => ?_, fun m hm => ?_⟩)
        · refine (wp_bind _ _).2 ((wp_bind _ _).2 (wp_mono routeUpdate_spec ?_ ?_))
          · intro row s' h
            obtain ⟨hrow, rfl⟩ := h
            obtain ⟨old, ho, -⟩ := routeWrite_ok hrow
            have ho' : s.routes.get? routeId = some old := ho
            simp only [ho', Option.forM]
            refine wp_crUpdate.2 ⟨fun _ _ => ⟨cr, rfl, ht, Or.inr ⟨routeId, old, row, hr, ho, hrow, ?_⟩⟩, fun h => ?_⟩
            · rw [Table.modify_modify, Table.modify_modify]
              rfl
            · rw [Table.get?_modify, if_pos rfl, get_marked] at h
              cases h
          · intro e s' h
            obtain ⟨he, rfl⟩ := h
            exact Or.inr ⟨cr, routeId, rfl, ht, hr, he, rfl⟩
        · have again : payloadTargetRefused W s cr = some m := hm
          rw [again] at ht
          cases ht
    · rw [hcr] at h
      cases h

end ClusterGate
