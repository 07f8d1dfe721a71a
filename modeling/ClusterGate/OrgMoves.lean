/-
  ClusterGate.OrgMoves — which organizations routes end up in.

  A route's organization is written by creates, updates and version restores; the right to
  it is checked against the new organization by creates only, by an update against the
  route's old one.
  - `update_moves_to_foreign_organization`, with what follows from it: a manager of one
    organization gives a route away, to another organization or to none.
  - `org_moves_managed`: on every run whose updates name the route's organization or one
    the caller manages, routes are created in and moved to managed organizations only.
-/

import ClusterGate.Tenancy
import ClusterGate.Route.Written

namespace ClusterGate

open Lib Lib.Act Lib.Table Lib.Zod

/-- The value names an organization the caller manages. -/
def ManagedOrg (s : Store) (u : Caller) (v : Json) : Prop :=
  ∃ org, v = .str org ∧ org ≠ "" ∧ canManageOrgRoutes s u org = true

/-- Every route is in the organization it was in, or the caller manages the one it is in now. -/
def MovesWithin (s : Store) (u : Caller) (s' : Store) : Prop :=
  ∀ k r', s'.routes.get? k = some r' →
    (∃ r, s.routes.get? k = some r ∧ r'.val .organizationId = r.val .organizationId) ∨
      ManagedOrg s u (r'.val .organizationId)

/-- An update the caller may make at once names no organization, the route's own, or one
    the caller manages. -/
def NamesManagedOrg (W : World) (s : Store) (q : Request) : Prop :=
  ∀ id body data r v, q.endpoint = .route (.update id body) →
    routeData W (partialUpdate (routeBodySchema W)) body = .ok data → liveRoute? s id = some r →
    canManageRoute s q.caller id = true → canBypass s q.caller id = true → data .organizationId = some v →
    v = r.val .organizationId ∨ ManagedOrg s q.caller v

/-! ## New routes -/

theorem ownedBy.managedOrg {s : Store} {u : Caller} {r : Row} (h : ownedBy s u r) : ManagedOrg s u (r.val .organizationId) := by
  obtain ⟨org, ho, hm⟩ := h
  obtain ⟨ht, hn⟩ := Option.filter_eq_some_iff.1 ho
  exact ⟨org, Json.str?_some ht, by simpa using hn, hm⟩

theorem adds_managed {W : World} {s : Store} {q : Request} (hu : q.caller.role ≠ .ADMIN) {k : String} {r' : Row}
    (h : q.adds W s k r') : ManagedOrg s q.caller (r'.val .organizationId) := by
  obtain ⟨u, d, e⟩ := q
  cases e with
  | route op =>
    cases op with
    | create body =>
      obtain ⟨data, -, own, -, hr⟩ := h
      obtain ⟨org, ho, hn, hm⟩ := own.resolve_left hu
      have ho : (data .organizationId).getD .null = .str org := Json.str?_some ho
      rcases hr.value (c := .organizationId) (by decide) (by decide) with hv | ⟨hv, -⟩
      · rw [hv] at ho
        exact ⟨org, ho, hn, hm⟩
      · rw [hv] at ho
        cases ho
    | duplicate id =>
      obtain ⟨-, r, -, hm, hd⟩ := h
      rw [hd.copied (by decide)]
      exact (hm.owned hu).managedOrg
    | «import» draws body => exact absurd h.1 hu
    | _ => exact h.elim
  | _ => exact h.elim

/-! ## Routes that move -/

theorem changes_managed {W : World} {s : Store} {q : Request} (hu : q.caller.role ≠ .ADMIN) (hn : NamesManagedOrg W s q)
    {k : String} {r r' : Row} (hr : s.routes.get? k = some r) (h : q.changes W s k r r') :
    r'.val .organizationId = r.val .organizationId ∨ ManagedOrg s q.caller (r'.val .organizationId) := by
  rcases changes_cases h with h | h
  · exact Or.inl (h.agree _ (by decide))
  · cases h with
    | updated he hm hb hd h =>
      have hl : liveRoute? s k = some r := liveRoute?_iff.2 ⟨hr, h.1⟩
      rw [h.organization (updateBody_organization hd), effectiveOrg_eq]
      rename_i body data
      cases ho : data .organizationId with
      | none => exact Or.inl rfl
      | some v =>
        refine hn k body data r v he hd hl ?_ hb ho
        obtain ⟨org, horg, hmanage⟩ := hm.owned hu
        have horg : r.orgId = some org := horg
        simp [canManageRoute, onLiveRoute, hl, horg, hmanage]
    | restored he ha hv h => exact absurd ha hu
    | approved he ha h =>
      have unlisted : Column.organizationId ∉ APPLIED_FIELDS := by decide
      exact Or.inl (h.same (if_neg unlisted) (by decide))

theorem step_moves_managed {W : World} {s : Store} {q : Request} (hu : q.caller.role ≠ .ADMIN)
    (hn : NamesManagedOrg W s q) : MovesWithin s q.caller (step W s q) := by
  intro k r' hr'
  have routes := (step_footprint W s q).routes
  cases hr : s.routes.get? k with
  | none => exact Or.inr (adds_managed hu (routes.new hr hr'))
  | some r =>
    rcases routes.some hr hr' with rfl | h
    · exact Or.inl ⟨r', rfl, rfl⟩
    · rcases changes_managed hu hn hr h with h | h
      · exact Or.inl ⟨r, rfl, h⟩
      · exact Or.inr h

/-- On every run of callers who are no system admins, from any store: if every update
    names no organization, the route's own or one its caller manages, then every step
    creates routes in, and moves routes to, organizations its caller manages. -/
theorem org_moves_managed {W : World} {s : Store} {qs : List Request} (hu : ∀ q ∈ qs, q.caller.role ≠ .ADMIN)
    (hn : Along (step W) (NamesManagedOrg W) s qs) :
    Along (step W) (fun s q => MovesWithin s q.caller (step W s q)) s qs := by
  induction qs generalizing s with
  | nil => trivial
  | cons q qs ih =>
    obtain ⟨hq, hqs⟩ := hn
    exact ⟨step_moves_managed (hu q (by simp)) hq, ih (fun p hp => hu p (by simp [hp])) hqs⟩

/-! ## A route given away -/

/-- An update of the caller's route that names an organization. -/
def moveTo (organizationId : Json) : Request :=
  ⟨firstManager, Draw.plain, .route (.update "own" (.obj [("organizationId", organizationId)]))⟩

/-- What a call of an update reads as the route's organization. -/
theorem moveTo_names {organizationId : Json} {id : String} {body : Json} {data : Patch}
    (he : (moveTo organizationId).endpoint = .route (.update id body))
    (hd : routeData World.plain (partialUpdate (routeBodySchema World.plain)) body = .ok data) :
    id = "own" ∧ routeData World.plain (partialUpdate (routeBodySchema World.plain))
      (.obj [("organizationId", organizationId)]) = .ok data := by
  cases he
  exact ⟨rfl, hd⟩

/-- Naming the organization a route is in. -/
theorem org_moves_managed_once : Along (step World.plain)
    (fun s q => MovesWithin s q.caller (step World.plain s q)) twoOrganizations [moveTo (.str "first")] := by
  refine org_moves_managed (by decide) ⟨?_, trivial⟩
  intro id body data r v he hd hr _ _ hv
  obtain ⟨rfl, hd⟩ := moveTo_names he hd
  obtain rfl : routeOf "first" "/r/own" = r := Option.some.inj hr
  have named : ((routeData World.plain (partialUpdate (routeBodySchema World.plain))
      (.obj [("organizationId", .str "first")])).toOption.bind fun data => data .organizationId) = some (.str "first") := by
    decide +kernel
  rw [hd] at named
  exact Or.inl (Option.some.inj (hv.symm.trans named))

/-- The right to move a route is checked against the organization it leaves. -/
theorem update_moves_to_foreign_organization :
    ¬ ∀ (W : World) (s : Store) (qs : List Request), (∀ q ∈ qs, q.caller.role ≠ .ADMIN) →
      Along (step W) (fun s q => MovesWithin s q.caller (step W s q)) s qs := by
  intro h
  obtain ⟨moves, -⟩ := h World.plain twoOrganizations [moveTo (.str "second")] (by decide)
  have moved : ((step World.plain twoOrganizations (moveTo (.str "second"))).routes.get? "own").map
      (fun r => r.val .organizationId) = some (.str "second") := by
    decide +kernel
  obtain ⟨r', hr', ho⟩ := Option.map_eq_some_iff.1 moved
  rcases moves "own" r' hr' with ⟨r, hr, hsame⟩ | ⟨org, horg, -, hm⟩
  · obtain rfl : routeOf "first" "/r/own" = r := Option.some.inj hr
    rw [ho] at hsame
    exact absurd hsame (by decide)
  · obtain rfl : "second" = org := Json.str.inj (ho.symm.trans horg)
    exact absurd hm (by decide +kernel)

end ClusterGate
