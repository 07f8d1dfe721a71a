/-
  ClusterGate.Target.ForUser — which targets a user may test a connection to
  (`services/targetPolicyService.ts`: `assertTargetAllowedForUser`).

  A user who names no organization may test what an organization whose routes the user
  manages could have as a target. The code folds over the policies of those organizations,
  asks an unrestricted one no more than the global checks, and keeps the first error.
  - `user_check_agrees`: for a user who is not a system admin that is the existential over
    the managed organizations. With an organization named it is the organization's own
    check, for those who manage it.
  - `a_member_is_refused_an_allowed_target`: a member of the organization, not a manager.
-/

import ClusterGate.Target.Guard

namespace ClusterGate

open Lib Lib.Text

/-- An organization whose routes the caller manages. -/
def Manages (s : Store) (u : Caller) (org : Organization) : Prop :=
  ∃ id, s.organizations.get? id = some org ∧ canManageOrgRoutes s u id = true

/-! ## Policies -/

section Policies

variable {W : World} {targetUrl : String}

/-- A policy adds to the checks that always apply. -/
theorem allowed_global {policy : OrgTargetPolicy} (h : assertTargetAllowed W targetUrl (some policy) = none) :
    assertTargetAllowed W targetUrl none = none := by
  unfold assertTargetAllowed at h ⊢
  simp only [Option.or_eq_none_iff] at h ⊢
  obtain ⟨hvalid, hhost, haddresses, -⟩ := h
  exact ⟨hvalid, hhost, haddresses, rfl⟩

theorem unrestricted_allowed {policy : OrgTargetPolicy} (hp : policy.restrictTargets = false)
    (h : assertTargetAllowed W targetUrl none = none) : assertTargetAllowed W targetUrl (some policy) = none := by
  unfold assertTargetAllowed at h ⊢
  simp only [Option.or_eq_none_iff] at h ⊢
  obtain ⟨hvalid, hhost, haddresses, -⟩ := h
  refine ⟨hvalid, hhost, haddresses, ?_⟩
  simp [orgPolicyAllows, hp]

/-- The short cut for an unrestricted organization loses nothing. -/
theorem candidates_allowed_iff {policies : List OrgTargetPolicy} :
    (∃ candidate ∈ candidatePolicies policies, assertTargetAllowed W targetUrl candidate = none) ↔
      ∃ policy ∈ policies, assertTargetAllowed W targetUrl (some policy) = none := by
  unfold candidatePolicies
  split
  · rename_i hany
    obtain ⟨free, hfree, hopen⟩ := List.any_eq_true.1 hany
    constructor
    · intro h
      obtain ⟨candidate, hmem, hallowed⟩ := h
      rw [List.mem_singleton.1 hmem] at hallowed
      exact ⟨free, hfree, unrestricted_allowed (by simpa using hopen) hallowed⟩
    · intro h
      obtain ⟨policy, -, hallowed⟩ := h
      exact ⟨none, List.mem_singleton.2 rfl, allowed_global hallowed⟩
  · simp

end Policies

/-! ## The organizations of a user -/

/-- The roles that manage an organization's routes. -/
theorem canManage_iff {s : Store} {u : Caller} (hu : u.role ≠ .ADMIN) (id : String) :
    canManageOrgRoutes s u id = true ↔
      ∃ role, s.orgMemberships.get? (u.userId, id) = some role ∧ (role = .OWNER ∨ role = .ADMIN) := by
  unfold canManageOrgRoutes getUserOrgRole
  cases s.orgMemberships.get? (u.userId, id) with
  | none => simp [hu]
  | some role => simp [hu]

/-- What the query for memberships brings. -/
def managedPolicies (s : Store) (u : Caller) : List OrgTargetPolicy :=
  (s.orgMemberships.rows.filter fun m => m.1.1 = u.userId && (m.2 = .OWNER || m.2 = .ADMIN)).filterMap fun m =>
    (s.organizations.get? m.1.2).map toPolicy

theorem mem_managedPolicies {s : Store} {u : Caller} (hu : u.role ≠ .ADMIN) (policy : OrgTargetPolicy) :
    policy ∈ managedPolicies s u ↔ ∃ org, Manages s u org ∧ toPolicy org = policy := by
  simp only [managedPolicies, List.mem_filterMap, List.mem_filter, Option.map_eq_some_iff, Manages]
  constructor
  · intro h
    obtain ⟨⟨⟨userId, id⟩, role⟩, ⟨hmem, hrole⟩, org, horg, rfl⟩ := h
    simp only [Bool.and_eq_true, Bool.or_eq_true, decide_eq_true_eq] at hrole
    obtain ⟨rfl, hrole⟩ := hrole
    exact ⟨org, ⟨id, horg, (canManage_iff hu id).2 ⟨role, Table.mem_rows_iff.1 hmem, hrole⟩⟩, rfl⟩
  · intro h
    obtain ⟨org, ⟨id, horg, hmanages⟩, rfl⟩ := h
    obtain ⟨role, hrow, hrole⟩ := (canManage_iff hu id).1 hmanages
    refine ⟨((u.userId, id), role), ⟨Table.mem_rows_iff.2 hrow, ?_⟩, org, horg, rfl⟩
    simpa using hrole

/-! ## The check -/

theorem user_check_agrees (W : World) (s : Store) (targetUrl : String) (u : Caller) (hu : u.role ≠ .ADMIN) :
    (∀ organizationId : Option String, organizationId.filter (· ≠ "") = none →
      (assertTargetAllowedForUser W s targetUrl u organizationId = none ↔
        ∃ org, Manages s u org ∧ assertTargetAllowed W targetUrl (some (toPolicy org)) = none)) ∧
    ∀ organizationId, organizationId ≠ "" →
      (assertTargetAllowedForUser W s targetUrl u (some organizationId) = none ↔
        canManageOrgRoutes s u organizationId = true ∧ targetRefused W s targetUrl (.str organizationId) = none) := by
  constructor
  · intro organizationId hnone
    have hcheck : assertTargetAllowedForUser W s targetUrl u organizationId = none ↔
        ∃ policy ∈ managedPolicies s u, assertTargetAllowed W targetUrl (some policy) = none := by
      unfold assertTargetAllowedForUser
      rw [hnone]
      dsimp only
      rw [if_neg hu]
      show (if managedPolicies s u = [] then _ else _) = none ↔ _
      by_cases hempty : managedPolicies s u = []
      · simp [hempty]
      · rw [if_neg hempty]
        exact (refusedByAll_none_iff (candidatePolicies_ne_nil hempty)).trans candidates_allowed_iff
    rw [hcheck]
    constructor
    · intro h
      obtain ⟨policy, hmem, hallowed⟩ := h
      obtain ⟨org, hmanages, rfl⟩ := (mem_managedPolicies hu policy).1 hmem
      exact ⟨org, hmanages, hallowed⟩
    · intro h
      obtain ⟨org, hmanages, hallowed⟩ := h
      exact ⟨toPolicy org, (mem_managedPolicies hu _).2 ⟨org, hmanages, rfl⟩, hallowed⟩
  · intro organizationId hne
    unfold assertTargetAllowedForUser
    rw [Option.filter_some_pos (by simpa using hne)]
    dsimp only
    split
    · rename_i hmanages
      simp [hmanages]
    · rename_i hmanages
      simp [hmanages]

/-- The owner of an organization restricted to a namespace, who is a member of another. -/
def shopAndLab : Store := { Store.empty with
  organizations := (Table.empty.insert "lab" { name := "Lab" }).insert "shop"
    { name := "Shop", restrictTargets := true, allowedTargetNamespaces := ["shop"] }
  orgMemberships := (Table.empty.insert ("ann", "lab") .MEMBER).insert ("ann", "shop") .OWNER }

def ann : Caller := ⟨"ann", .OPERATOR⟩

theorem user_check_shop :
    assertTargetAllowedForUser World.plain shopAndLab "http://cart.shop.svc" ann none = none ∧
      assertTargetAllowedForUser World.plain shopAndLab "http://cart.shop.svc" ann (some "shop") = none ∧
      assertTargetAllowedForUser World.plain shopAndLab "http://cart.shop.svc" ann (some "lab") ≠ none := by
  obtain ⟨hfree, hnamed⟩ := user_check_agrees World.plain shopAndLab "http://cart.shop.svc" ann (by decide)
  have hshop : assertTargetAllowed World.plain "http://cart.shop.svc" (getOrgTargetPolicy shopAndLab (.str "shop")) = none := by
    decide +kernel
  refine ⟨?_, ?_, ?_⟩
  · exact (hfree none rfl).2 ⟨_, ⟨"shop", rfl, by decide⟩, hshop⟩
  · exact (hnamed "shop" (by decide)).2 ⟨by decide, hshop⟩
  · intro h
    exact absurd ((hnamed "lab" (by decide)).1 h).1 (by decide)

/-- The organization's own check would let the target through. -/
theorem a_member_is_refused_an_allowed_target :
    targetRefused World.plain shopAndLab "http://cart.lab.svc" (.str "lab") = none ∧
      assertTargetAllowedForUser World.plain shopAndLab "http://cart.lab.svc" ann (some "lab") =
        some "You need Owner or Admin role in this organization" := by
  constructor
  · decide +kernel
  · rfl

end ClusterGate
