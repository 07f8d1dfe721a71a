/-
  ClusterGate.Frame — what a request may do to the store, whichever endpoint it calls and
  whether it is carried out or refused.

  `Footprint` puts the tables of the families of endpoints together; `step_footprint` is
  that a step stays in it. Every invariant of the store is derived from it.
-/

import ClusterGate.Endpoint
import ClusterGate.Route.Frame
import ClusterGate.Change.Frame
import ClusterGate.Children.Frame
import ClusterGate.Grouping.Frame

namespace ClusterGate

open Lib Lib.Act Lib.Table

/-! ## What a request may do -/

def Request.changes (W : World) (s : Store) (q : Request) : RowChange := match q.endpoint with
  | .route op => op.changes W s q.caller q.draw
  | .change op => op.changes W s q.caller q.draw
  | .group op => op.changes s q.caller
  | .folder _ => FolderChange
  | .target _ | .transform _ | .member _ => noChange

def Request.adds (W : World) (s : Store) (q : Request) : RowSet := match q.endpoint with
  | .route op => op.adds W s q.caller q.draw
  | _ => noRow

def Request.removes (s : Store) (q : Request) : RowSet := match q.endpoint with
  | .route op => op.removes s q.caller
  | _ => noRow

def Request.addsTarget (W : World) (s : Store) (q : Request) : String → RouteTarget → Prop := match q.endpoint with
  | .target op => op.adds W s q.caller
  | _ => fun _ _ => False

def Request.changesTarget (W : World) (s : Store) (q : Request) : String → RouteTarget → RouteTarget → Prop :=
  match q.endpoint with
  | .target op => op.changes W s q.caller
  | _ => fun _ _ _ => False

def Request.removesTarget (q : Request) : String → RouteTarget → Prop := match q.endpoint with
  | .target op => op.removes q.caller
  | _ => fun _ _ => False

def Request.addsRule (s : Store) (q : Request) : String → TransformRule → Prop := match q.endpoint with
  | .transform op => op.adds s q.caller
  | _ => fun _ _ => False

def Request.changesRule (s : Store) (q : Request) : String → TransformRule → TransformRule → Prop := match q.endpoint with
  | .transform op => op.changes s q.caller
  | _ => fun _ _ _ => False

def Request.removesRule (q : Request) : String → TransformRule → Prop := match q.endpoint with
  | .transform op => op.removes q.caller
  | _ => fun _ _ => False

def Request.regroups (W : World) (s : Store) (q : Request) : String → RouteGroup → RouteGroup → Prop := match q.endpoint with
  | .group op => op.regroups W s q.caller
  | _ => fun _ _ _ => False

def Request.disbands (q : Request) : String → Prop := match q.endpoint with
  | .group op => op.disbands q.caller
  | _ => fun _ => False

/-- The rows a request writes, new ones and others. -/
def Request.writes (W : World) (s : Store) (q : Request) : RowSet := fun k r' =>
  q.adds W s k r' ∨ ∃ r, s.routes.get? k = some r ∧ q.changes W s k r r'

/-- How the store may differ after a request. What hangs on a route that is gone goes too. -/
structure Footprint (W : World) (q : Request) (s s' : Store) : Prop where
  routes : Changes (q.changes W s) (q.adds W s) (q.removes s) s.routes s'.routes
  versions : VersionsOf (q.writes W s) s.routeVersions s'.routeVersions
  organizations : s'.organizations = s.organizations
  orgMemberships : (∀ op, q.endpoint ≠ .member op) → s'.orgMemberships = s.orgMemberships
  teams : s'.teams = s.teams
  routeGroups : Changes (q.regroups W s) (fun _ g => g.changeRequestsEnabled = none) (fun k _ => q.disbands k)
    s.routeGroups s'.routeGroups
  routeTargets : Changes (q.changesTarget W s) (q.addsTarget W s)
    (fun k t => q.removesTarget k t ∨ s'.routes.get? t.routeId = none) s.routeTargets s'.routeTargets
  targetsHang : ∀ k t, s'.routeTargets.get? k = some t → s'.routes.get? t.routeId = none → s.routes.get? t.routeId = none
  transformRules : Changes (q.changesRule s) (q.addsRule s)
    (fun k t => q.removesRule k t ∨ s'.routes.get? t.routeId = none) s.transformRules s'.transformRules

/-! ## A step stays in its footprint -/

theorem Kept.changes {α : Type} {routeId : α → String} {t t' : Table String α} {routes routes' : Table String Row}
    {R : String → α → α → Prop} {C D : String → α → Prop} (h : Kept routeId t t' routes routes') :
    Changes R C (fun k a => D k a ∨ routes'.get? (routeId a) = none) t t' := by
  intro k
  obtain ⟨old, kept, -⟩ := h
  have hold := old k
  have hkept := kept k
  revert hold hkept
  cases t.get? k with
  | none =>
    cases t'.get? k with
    | none => exact fun _ _ => trivial
    | some b => exact fun hold _ => nomatch hold b rfl
  | some a =>
    cases t'.get? k with
    | none => exact fun _ hkept => Or.inr ((hkept a rfl).resolve_left nofun)
    | some b => exact fun hold _ => Or.inl (Option.some.inj (hold b rfl)).symm

variable {W : World} {s s' : Store}

/-- Only routes, folders and change requests differ. -/
theorem Footprint.ofRoutes {q : Request} {t : Table String Row} {f : Table String RouteFolder}
    {cs : Table String ChangeRequest} (h : Changes (q.changes W s) noRow noRow s.routes t)
    (hq : q.adds W s = noRow ∧ q.removes s = noRow) :
    Footprint W q s { s with routes := t, routeFolders := f, changeRequests := cs } := by
  refine ⟨?_, fun _ _ hv => Or.inl hv, rfl, fun _ => rfl, rfl, Changes.refl _, Changes.refl _, fun _ _ _ hr => h.absent hr,
    Changes.refl _⟩
  rw [hq.1, hq.2]
  exact h

theorem perform_footprint (W : World) (s : Store) (q : Request) : Keeps (q.perform W) (Footprint W q s) s := by
  obtain ⟨u, d, e⟩ := q
  cases e with
  | route op =>
    refine wp_mono (op.perform_keeps (W := W) (u := u) (d := d)) ?_ ?_ <;>
    · intro _ s' h
      exact ⟨h.routes, h.versions, h.organizations, fun _ => h.orgMemberships, h.teams, h.routeGroups ▸ Changes.refl _,
        h.routeTargets.changes, h.routeTargets.hang, h.transformRules.changes⟩
  | change op =>
    refine wp_mono (op.perform_keeps (W := W) (u := u) (d := d)) ?_ ?_ <;>
    · intro _ s' h
      obtain ⟨t, cs, rfl, hc⟩ := h
      exact Footprint.ofRoutes hc ⟨rfl, rfl⟩
  | target op =>
    refine wp_mono (op.perform_keeps (W := W) (u := u) (d := d)) ?_ ?_ <;>
    · intro _ s' h
      obtain ⟨t, rfl, hc⟩ := h
      exact ⟨Changes.refl _, fun _ _ hv => Or.inl hv, rfl, fun _ => rfl, rfl, Changes.refl _,
        hc.mono (fun _ _ _ _ h => h) (fun _ _ _ h => h) fun _ _ _ h => Or.inl h, fun _ _ _ h => h, Changes.refl _⟩
  | transform op =>
    refine wp_mono (op.perform_keeps (u := u) (d := d)) ?_ ?_ <;>
    · intro _ s' h
      obtain ⟨t, rfl, hc⟩ := h
      exact ⟨Changes.refl _, fun _ _ hv => Or.inl hv, rfl, fun _ => rfl, rfl, Changes.refl _, Changes.refl _,
        fun _ _ _ h => h, hc.mono (fun _ _ _ _ h => h) (fun _ _ _ h => h) fun _ _ _ h => Or.inl h⟩
  | group op =>
    refine wp_mono (op.perform_keeps (W := W) (u := u) (d := d)) ?_ ?_ <;>
    · intro _ s' h
      obtain ⟨t, g, rfl, hc, hg⟩ := h
      exact ⟨hc, fun _ _ hv => Or.inl hv, rfl, fun _ => rfl, rfl, hg, Changes.refl _, fun _ _ _ hr => hc.absent hr,
        Changes.refl _⟩
  | folder op =>
    refine wp_mono (op.perform_keeps (u := u) (d := d)) ?_ ?_ <;>
    · intro _ s' h
      obtain ⟨t, f, rfl, hc⟩ := h
      exact Footprint.ofRoutes hc ⟨rfl, rfl⟩
  | member op =>
    refine wp_mono op.perform_keeps ?_ ?_ <;>
    · intro _ s' h
      obtain ⟨m, rfl⟩ := h
      exact ⟨Changes.refl _, fun _ _ hv => Or.inl hv, rfl, fun hn => absurd rfl (hn op), rfl, Changes.refl _, Changes.refl _,
        fun _ _ _ h => h, Changes.refl _⟩

theorem step_footprint (W : World) (s : Store) (q : Request) : Footprint W q s (step W s q) :=
  wp_final (perform_footprint W s q)

end ClusterGate
