/-
  ClusterGate.Route.Frame — what a call of a routes endpoint may do to the store.

  `RouteOp.changes`, `adds` and `removes` say of each endpoint, row by row, how it may
  change, add and remove routes, with what was checked before; `RouteOp.perform_keeps` is
  that no call does anything else, whether it is carried out or refused. What holds of
  calls, runs and callers is derived from them.
-/

import ClusterGate.Route.Effects
import ClusterGate.Route.Router

namespace ClusterGate

open Lib Lib.Act Lib.Table Lib.Zod

/-! ## Whose routes -/

/-- The caller manages the organization the row is in. -/
def manages (s : Store) (u : Caller) (r : Row) : Prop :=
  u.role = .ADMIN ∨ ∃ org ∈ r.orgId, canManageOrgRoutes s u org = true

/-- The caller may delete routes of the organization the row is in. -/
def deletes (s : Store) (u : Caller) (r : Row) : Prop :=
  u.role = .ADMIN ∨ ∃ org ∈ r.orgId, canDeleteOrgRoutes s u org = true

theorem deletes.manages {s : Store} {u : Caller} {r : Row} (h : deletes s u r) : manages s u r := by
  rcases h with h | ⟨org, ho, h⟩
  · exact Or.inl h
  · refine Or.inr ⟨org, ho, ?_⟩
    simp only [canDeleteOrgRoutes, canManageOrgRoutes, Bool.or_eq_true] at h ⊢
    rcases h with h | h
    · exact Or.inl (Or.inl h)
    · exact Or.inl (Or.inr h)

theorem onLiveRoute_row {s : Store} {u : Caller} {id : String} {allowed : String → Bool} {r : Row}
    (h : onLiveRoute s u id allowed = true) (hr : liveRoute? s id = some r) :
    u.role = .ADMIN ∨ ∃ org ∈ r.orgId, allowed org = true := by
  simp only [onLiveRoute, hr, Option.bind_some, Bool.or_eq_true, decide_eq_true_eq] at h
  rcases h with h | h
  · exact Or.inl h
  · cases ho : r.orgId with
    | none => rw [ho] at h; cases h
    | some org =>
      rw [ho] at h
      exact Or.inr ⟨org, rfl, h⟩

theorem manages_of {s : Store} {u : Caller} {id : String} {r : Row} (h : u.role = .ADMIN ∨ canManageRoute s u id = true)
    (hr : liveRoute? s id = some r) : manages s u r := by
  rcases h with h | h
  · exact Or.inl h
  · exact onLiveRoute_row h hr

theorem liveRoute?_iff {s : Store} {id : String} {r : Row} :
    liveRoute? s id = some r ↔ s.routes.get? id = some r ∧ r.live = true := Option.filter_eq_some_iff

theorem archivedRoute?_iff {s : Store} {id : String} {r : Row} :
    archivedRoute? s id = some r ↔ s.routes.get? id = some r ∧ r.live = false := by
  rw [archivedRoute?, Option.filter_eq_some_iff, Bool.not_eq_true']

/-! ## What each endpoint may do -/

/-- A write to one live route of the caller's. -/
def writesLive (s : Store) (u : Caller) (now id : String) (data : Patch) : RowChange := fun k r r' =>
  k = id ∧ r.live = true ∧ manages s u r ∧ WrittenRow now data r r'

/-- How a call may change the rows of routes. -/
def RouteOp.changes (W : World) (s : Store) (u : Caller) (d : Draw) : RouteOp → RowChange
  | .create _ | .import _ _ => Freed
  | .update id body => fun k r r' => Freed k r r' ∨ k = id ∧ manages s u r ∧ canBypass s u id = true ∧
      ∃ data, routeData W (partialUpdate (routeBodySchema W)) body = .ok data ∧ UpdatedRow W s d id data u.userId r r'
  | .restoreVersion id versionId => fun k r r' => Freed k r r' ∨ k = id ∧ u.role = .ADMIN ∧
      ∃ v, s.routeVersions.get? versionId = some v ∧ v.routeId = id ∧ UpdatedRow W s d id (snapshotData v) u.userId r r'
  | .publish id => writesLive s u d.now id (publishData u.userId)
  | .deactivate id => writesLive s u d.now id (deactivateData u.userId)
  | .delete id _ => fun k r r' => k = id ∧ r.live = true ∧ deletes s u r ∧ r.flag .isActive = false ∧
      WrittenRow d.now (archiveData d.now id r) r r'
  | .restore id => fun k r r' => k = id ∧ r.live = false ∧ deletes s u r ∧
      WrittenRow d.now (restoreData s id u.userId r) r r'
  | .bulkUpdate body => fun k r r' => u.role ∈ [Role.ADMIN, .OPERATOR] ∧ ∃ data,
      parsed ["ids", "environment", "routeGroupId", "addTags"] bulkUpdateSchema body = .ok data ∧
      k ∈ textList data "ids" ∧ r.live = true ∧ WrittenRow d.now (bulkData (bulkPatchOf data) u.userId r) r r'
  | .bulkPublish body => fun k r r' => u.role ∈ [Role.ADMIN, .OPERATOR] ∧ ∃ data,
      parsed ["ids"] bulkIdsSchema body = .ok data ∧ k ∈ textList data "ids" ∧ r.live = true ∧
      WrittenRow d.now (publishData u.userId) r r'
  | .bulkDeactivate body => fun k r r' => u.role ∈ [Role.ADMIN, .OPERATOR] ∧ ∃ data,
      parsed ["ids"] bulkIdsSchema body = .ok data ∧ k ∈ textList data "ids" ∧ r.live = true ∧
      WrittenRow d.now (deactivateData u.userId) r r'
  | .bulkDelete body => fun k r r' => ∃ data, parsed ["ids"] bulkIdsSchema body = .ok data ∧
      k ∈ textList data "ids" ∧ r.live = true ∧ deletes s u r ∧ r.flag .isActive = false ∧
      WrittenRow d.now (bulkArchiveData d.now k r) r r'
  | .deletePermanently _ | .duplicate _ => noChange

/-- A caller other than a system admin creates in an organization they manage. -/
def ownOrg (s : Store) (u : Caller) (organizationId : Json) : Prop :=
  u.role = .ADMIN ∨ ∃ org ∈ organizationId.str?, org ≠ "" ∧ canManageOrgRoutes s u org = true

/-- A duplicate of a live route: a new row, and no other has its path or slug. -/
def DuplicateOf (s : Store) (d : Draw) (userId : String) (r r' : Row) : Prop :=
  Row.create (stamped d.now ((duplicateData s userId r).set .createdAt (.str d.now))) = some r' ∧
    uniqueOk s d.routeId (fun c => some (r'.val c)) r' = true ∧ s.routes.get? d.routeId = none

/-- Which rows a call may add. -/
def RouteOp.adds (W : World) (s : Store) (u : Caller) (d : Draw) : RouteOp → RowSet
  | .create body => fun k r' => ∃ data, routeData W (routeBodySchema W) body = .ok data ∧
      ownOrg s u ((data .organizationId).getD .null) ∧ createdBy W s d data u.userId k r'
  | .duplicate id => fun k r' => k = d.routeId ∧ ∃ r, liveRoute? s id = some r ∧ manages s u r ∧ DuplicateOf s d u.userId r r'
  | .import draws body => fun k r' => u.role = .ADMIN ∧ ∃ xs, parseImport W body = .ok xs ∧
      importedBy W s u.userId (withDraws draws xs) k r'
  | _ => noRow

/-- Which rows a call may remove. -/
def RouteOp.removes (s : Store) (u : Caller) : RouteOp → RowSet
  | .deletePermanently id => fun k r => k = id ∧ r.live = false ∧ deletes s u r
  | _ => noRow

/-! ## The effect of a call on the whole store -/

/-- Rows that hang on routes stay, but for those of a route that is gone, and none hangs on
    a route that went. -/
structure Kept {α : Type} (routeId : α → String) (t t' : Table String α) (routes routes' : Table String Row) : Prop where
  old : ∀ k a, t'.get? k = some a → t.get? k = some a
  stay : ∀ k a, t.get? k = some a → t'.get? k = some a ∨ routes'.get? (routeId a) = none
  hang : ∀ k a, t'.get? k = some a → routes'.get? (routeId a) = none → routes.get? (routeId a) = none

theorem Kept.refl {α : Type} {routeId : α → String} {t : Table String α} {routes routes' : Table String Row}
    (h : ∀ k, routes'.get? k = none → routes.get? k = none) : Kept routeId t t routes routes' :=
  ⟨fun _ _ h => h, fun _ _ h => Or.inl h, fun _ _ _ => h _⟩

/-- The routes differ by `R`, `C` and `D`, new versions are snapshots of what was written,
    and what else hangs on routes stays with them; nobody's rights change. -/
structure Effect (R : RowChange) (C D : RowSet) (s s' : Store) : Prop where
  routes : Changes R C D s.routes s'.routes
  versions : VersionsOf (fun k r' => C k r' ∨ ∃ r, s.routes.get? k = some r ∧ R k r r') s.routeVersions s'.routeVersions
  organizations : s'.organizations = s.organizations
  orgMemberships : s'.orgMemberships = s.orgMemberships
  teams : s'.teams = s.teams
  routeGroups : s'.routeGroups = s.routeGroups
  routeTargets : Kept RouteTarget.routeId s.routeTargets s'.routeTargets s.routes s'.routes
  transformRules : Kept TransformRule.routeId s.transformRules s'.transformRules s.routes s'.routes

variable {R R' : RowChange} {C C' D V : RowSet} {s s' : Store}

theorem Effect.refl (s : Store) : Effect R C D s s :=
  ⟨Changes.refl _, fun _ _ h => Or.inl h, rfl, rfl, rfl, rfl, Kept.refl fun _ h => h, Kept.refl fun _ h => h⟩

theorem WriterEffect.effect (h : WriterEffect R C noRow V s s')
    (hR : ∀ k r r', s.routes.get? k = some r → R k r r' → R' k r r') (hC : ∀ k r', C k r' → C' k r')
    (hV : ∀ k r', V k r' → C' k r' ∨ ∃ r, s.routes.get? k = some r ∧ R' k r r') : Effect R' C' D s s' := by
  obtain ⟨t, vs, rfl, hc, hv⟩ := h
  have stay : ∀ k, t.get? k = none → s.routes.get? k = none := fun k h => hc.absent h
  refine ⟨hc.mono hR (fun k r' _ => hC k r') fun _ _ _ h => h.elim, fun k v hk => ?_, rfl, rfl, rfl, rfl,
    Kept.refl stay, Kept.refl stay⟩
  rcases hv k v hk with h | ⟨r, hr, h⟩
  · exact Or.inl h
  · exact Or.inr ⟨r, hV _ _ hr, h⟩

theorem RoutesChange.effect (h : RoutesChange R C noRow s s')
    (hR : ∀ k r r', s.routes.get? k = some r → R k r r' → R' k r r') (hC : ∀ k r', C k r' → C' k r') :
    Effect R' C' D s s' :=
  (RoutesChange.writer (V := noRow) h).effect hR hC fun _ _ h => h.elim

/-! ## No call does anything else -/

section Perform

variable {W : World} {u : Caller} {d : Draw}

theorem crCreate_keeps {id : String} {cr : ChangeRequest} : Keeps (crCreate id cr) (Effect R C D s) s := by
  simp only [Keeps, crCreate, wp_bind, wp_read, wp_require, wp_modify]
  refine ⟨fun _ => ⟨fun _ => ?_, fun _ => Effect.refl s⟩, fun _ => Effect.refl s⟩
  exact ⟨Changes.refl _, fun _ _ h => Or.inl h, rfl, rfl, rfl, rfl, Kept.refl fun _ h => h, Kept.refl fun _ h => h⟩

theorem postRoute_keeps {body : Json} :
    Keeps (postRoute W u d body) (Effect (RouteOp.changes W s u d (.create body)) (RouteOp.adds W s u d (.create body)) noRow s) s := by
  simp only [Keeps, postRoute, requireOwnOrg, wp_bind, wp_ofExcept, wp_read, wp_require]
  refine ⟨fun data hd => ⟨fun h₁ => ⟨fun h₂ => ?_, fun _ => Effect.refl s⟩, fun _ => Effect.refl s⟩, fun _ _ => Effect.refl s⟩
  have own : ownOrg s u ((data .organizationId).getD .null) := by
    rcases h₂ with h | ⟨org, ho, h⟩
    · exact Or.inl h
    · refine h₁.imp_right fun ht => ⟨org, ho, ?_, h⟩
      rw [Json.str?_some ho] at ht
      simpa using ht
  have sub : ∀ k r', createdBy W s d data u.userId k r' → RouteOp.adds W s u d (.create body) k r' :=
    fun k r' h => ⟨data, hd, own, h⟩
  refine wp_mono createRoute_keeps ?_ ?_ <;>
  · intro _ s' h
    exact h.effect (fun _ _ _ _ h => h) sub fun k r' h => Or.inl (sub k r' h)

theorem putRoute_keeps {id : String} {body : Json} :
    Keeps (putRoute W u d id body) (Effect (RouteOp.changes W s u d (.update id body)) noRow noRow s) s := by
  simp only [Keeps, putRoute, wp_bind, wp_ofExcept, wp_read, wp_require, wp_ite]
  refine ⟨fun data hd => ⟨fun hm => ⟨fun hb => ?_, fun _ => ?_⟩, fun _ => Effect.refl s⟩, fun _ _ => Effect.refl s⟩
  · have sub : ∀ k r r', s.routes.get? k = some r → updatedBy W s d id data u.userId k r r' →
        RouteOp.changes W s u d (.update id body) k r r' := by
      rintro k r r' hr (h | ⟨rfl, h⟩)
      · exact Or.inl h
      · exact Or.inr ⟨rfl, manages_of hm (liveRoute?_iff.2 ⟨hr, h.1⟩), hb, data, hd, h⟩
    refine wp_mono updateRoute_keeps ?_ ?_ <;>
    · intro _ s' h
      refine h.effect sub (fun _ _ h => h) ?_
      rintro k r' ⟨rfl, r, hr, h⟩
      exact Or.inr ⟨r, hr, sub k r r' hr (Or.inr ⟨rfl, h⟩)⟩
  · simp only [requestUpdate, findLive, wp_bind, wp_read, wp_orThrow, wp_when, wp_assertRouteTargetAllowed]
    exact ⟨fun _ _ => ⟨fun _ => ⟨fun _ => crCreate_keeps, fun _ _ => Effect.refl s⟩, fun _ => crCreate_keeps⟩,
      fun _ => Effect.refl s⟩

/-- What a route of the caller's is written with. -/
theorem writeLive_keeps {now id : String} {data : Patch} (hm : u.role = .ADMIN ∨ canManageRoute s u id = true) {r : Row}
    (hr : liveRoute? s id = some r) : Keeps (routeUpdate now id data) (Effect (writesLive s u now id data) noRow noRow s) s := by
  refine wp_mono routeUpdate_keeps ?_ ?_ <;>
  · intro _ s' h
    refine h.effect ?_ fun _ _ h => h
    rintro k a b ha ⟨rfl, hw⟩
    obtain ⟨hr', hl⟩ := liveRoute?_iff.1 hr
    obtain rfl : r = a := by simpa [hr'] using ha
    exact ⟨rfl, hl, manages_of hm hr, hw⟩

theorem postPublish_keeps {id : String} :
    Keeps (postPublish u d id) (Effect (RouteOp.changes W s u d (.publish id)) noRow noRow s) s := by
  simp only [Keeps, postPublish, requireManage, publishRoute, findLive, wp_bind, wp_read, wp_require, wp_orThrow]
  exact ⟨fun hm => ⟨fun r hr => writeLive_keeps hm hr, fun _ => Effect.refl s⟩, fun _ => Effect.refl s⟩

theorem postDeactivate_keeps {id : String} :
    Keeps (postDeactivate u d id) (Effect (RouteOp.changes W s u d (.deactivate id)) noRow noRow s) s := by
  simp only [Keeps, postDeactivate, requireManage, deactivateRoute, findLive, wp_bind, wp_read, wp_require, wp_orThrow]
  exact ⟨fun hm => ⟨fun r hr => writeLive_keeps hm hr, fun _ => Effect.refl s⟩, fun _ => Effect.refl s⟩

theorem deleteRouteById_keeps {id : String} {confirmName : Option String} :
    Keeps (deleteRouteById u d id confirmName) (Effect (RouteOp.changes W s u d (.delete id confirmName)) noRow noRow s) s := by
  simp only [Keeps, deleteRouteById, deleteRoute, findLive, wp_bind, wp_read, wp_require, wp_orThrow]
  refine ⟨fun hd => ⟨fun r hr => ⟨fun ha => ⟨fun _ => ?_, fun _ => Effect.refl s⟩, fun _ => Effect.refl s⟩,
    fun _ => Effect.refl s⟩, fun _ => Effect.refl s⟩
  obtain ⟨hr', hl⟩ := liveRoute?_iff.1 hr
  refine wp_mono routeUpdate_keeps ?_ ?_ <;>
  · intro _ s' h
    refine h.effect ?_ fun _ _ h => h
    rintro k a b hk ⟨rfl, hw⟩
    obtain rfl : r = a := by simpa [hr'] using hk
    exact ⟨rfl, hl, onLiveRoute_row hd hr, by simpa using ha, hw⟩

/-- The guard of restoring a route and of deleting it for good. -/
theorem wp_requireArchivedDelete {id verb : String} {Q : Unit → Store → Prop} {E : Err → Store → Prop}
    (hQ : ∀ r, archivedRoute? s id = some r → deletes s u r → Q () s) (hE : ∀ e, E e s) :
    wp (requireArchivedDelete u id verb) Q E s := by
  simp only [requireArchivedDelete, wp_bind, wp_read, wp_orThrow, wp_require]
  exact ⟨fun r hr => ⟨fun _ => ⟨fun hd => hQ r hr hd, fun _ => hE _⟩, fun _ => hE _⟩, fun _ => hE _⟩

theorem postRestore_keeps {id : String} :
    Keeps (postRestore u d id) (Effect (RouteOp.changes W s u d (.restore id)) noRow noRow s) s := by
  simp only [Keeps, postRestore, wp_bind]
  refine wp_requireArchivedDelete (fun r hr hd => ?_) fun _ => Effect.refl s
  simp only [restoreRoute, findArchived, wp_bind, wp_read, wp_orThrow]
  refine ⟨fun r' hr' => ?_, fun _ => Effect.refl s⟩
  obtain rfl : r = r' := by simpa [hr] using hr'
  obtain ⟨hg, hl⟩ := archivedRoute?_iff.1 hr
  refine wp_mono routeUpdate_keeps ?_ ?_ <;>
  · intro _ s' h
    refine h.effect ?_ fun _ _ h => h
    rintro k a b hk ⟨rfl, hw⟩
    obtain rfl : r = a := by simpa [hg] using hk
    exact ⟨rfl, hl, hd, hw⟩

theorem deletePermanent_keeps {id : String} :
    Keeps (deletePermanent u id) (Effect noChange noRow (RouteOp.removes s u (.deletePermanently id)) s) s := by
  simp only [Keeps, deletePermanent, wp_bind]
  refine wp_requireArchivedDelete (fun r hr hd => ?_) fun _ => Effect.refl s
  simp only [permanentlyDeleteRoute, findArchived, routeDelete, wp_bind, wp_read, wp_orThrow, wp_require, wp_modify]
  refine ⟨fun _ _ => ⟨fun _ => ?_, fun _ => Effect.refl s⟩, fun _ => Effect.refl s⟩
  obtain ⟨hg, hl⟩ := archivedRoute?_iff.1 hr
  have gone : (s.routes.erase id).get? id = none := by rw [get?_erase, if_pos rfl]
  have kept : ∀ {α : Type} (routeId : α → String) (t : Table String α),
      Kept routeId t (t.filter fun _ a => routeId a ≠ id) s.routes (s.routes.erase id) := by
    intro α routeId t
    refine ⟨fun k a h => ?_, fun k a h => ?_, fun k a h hg => ?_⟩
    · rw [get?_filter, Option.filter_eq_some_iff] at h
      exact h.1
    · by_cases e : routeId a = id
      · exact Or.inr (e ▸ gone)
      · refine Or.inl ?_
        rw [get?_filter, h, Option.filter_some, if_pos (by simpa using e)]
    · rw [get?_filter, Option.filter_eq_some_iff] at h
      rwa [get?_erase, if_neg (by simpa using h.2)] at hg
  refine ⟨changes_filter fun k a ha hk => ?_, fun k v hv => ?_, rfl, rfl, rfl, rfl, kept _ _, kept _ _⟩
  · obtain rfl : k = id := by simpa using hk
    obtain rfl : r = a := by simpa [hg] using ha
    exact ⟨rfl, hl, hd⟩
  · rw [get?_filter, Option.filter_eq_some_iff] at hv
    exact Or.inl hv.1

theorem postDuplicate_keeps {id : String} :
    Keeps (postDuplicate u d id) (Effect noChange (RouteOp.adds W s u d (.duplicate id)) noRow s) s := by
  simp only [Keeps, postDuplicate, requireManage, duplicateRoute, findLive, wp_bind, wp_read, wp_require, wp_orThrow]
  refine ⟨fun hm => ⟨fun r hr => ?_, fun _ => Effect.refl s⟩, fun _ => Effect.refl s⟩
  refine wp_mono routeCreate_spec ?_ (by rintro _ _ rfl; exact Effect.refl _)
  rintro row _ ⟨hn, hrow, hu, -, rfl⟩
  exact RoutesChange.effect ⟨_, rfl, (Changes.refl (R := noChange) (D := noRow) s.routes).insert hn hn
    (C := RouteOp.adds W s u d (.duplicate id)) ⟨rfl, r, hr, manages_of hm hr, hrow, hu, hn⟩⟩
    (fun _ _ _ _ h => h) fun _ _ h => h

theorem postRestoreVersion_keeps {id versionId : String} :
    Keeps (postRestoreVersion W u d id versionId)
      (Effect (RouteOp.changes W s u d (.restoreVersion id versionId)) noRow noRow s) s := by
  simp only [Keeps, postRestoreVersion, authorize, restoreRouteVersion, wp_bind, wp_require, wp_read, wp_orThrow]
  refine ⟨fun ha => ⟨fun v hv => ?_, fun _ => Effect.refl s⟩, fun _ => Effect.refl s⟩
  obtain ⟨hg, hid⟩ := Option.filter_eq_some_iff.1 hv
  have sub : ∀ k r r', s.routes.get? k = some r → updatedBy W s d id (snapshotData v) u.userId k r r' →
      RouteOp.changes W s u d (.restoreVersion id versionId) k r r' := by
    rintro k r r' _ (h | ⟨rfl, h⟩)
    · exact Or.inl h
    · exact Or.inr ⟨rfl, by simpa using ha, v, hg, by simpa using hid, h⟩
  refine wp_mono updateRoute_keeps ?_ ?_ <;>
  · intro _ s' h
    refine h.effect sub (fun _ _ h => h) ?_
    rintro k r' ⟨rfl, r, hr, h⟩
    exact Or.inr ⟨r, hr, sub k r r' hr (Or.inr ⟨rfl, h⟩)⟩

theorem mapM_ok_mem {α β ε : Type} {f : α → Except ε β} {xs : List α} {ys : List β} (h : xs.mapM f = .ok ys) {y : β}
    (hy : y ∈ ys) : ∃ x ∈ xs, f x = .ok y := forall₂_right (mapM_ok_iff.1 h) hy

/-- Every route of an import is one the schema let through. -/
theorem parseImport_mem {body : Json} {xs : List Patch} {data : Patch} (h : parseImport W body = .ok xs) (hx : data ∈ xs) :
    ∃ r, routeData W (routeBodySchema W) r = .ok data := by
  unfold parseImport at h
  split at h
  · obtain ⟨r, -, hr⟩ := mapM_ok_mem h hx
    exact ⟨r, hr⟩
  · cases h

theorem mem_withDraws {draws : Nat → Draw} {xs : List Patch} {x : Draw × Patch} (h : x ∈ withDraws draws xs) : x.2 ∈ xs := by
  obtain ⟨⟨data, i⟩, hm, rfl⟩ := List.mem_map.1 h
  exact (List.mem_zipIdx hm).2.2 ▸ List.getElem_mem _

/-- What the routes of an import draw is apart if the draws are. -/
theorem draws_nodup {draws : Nat → Draw} {xs : List Patch} {f : Draw → String}
    (hf : ∀ i j, i ≠ j → f (draws i) ≠ f (draws j)) : ((withDraws draws xs).map fun x => f x.1).Nodup := by
  have hrange : (xs.zipIdx.map Prod.snd).Nodup := by
    rw [List.zipIdx_map_snd]
    exact List.nodup_range'
  have hmap : (withDraws draws xs).map (fun x => f x.1) = (xs.zipIdx.map Prod.snd).map fun i => f (draws i) := by
    rw [withDraws, List.map_map, List.map_map]
    rfl
  rw [hmap]
  refine hrange.map fun i j he => ?_
  by_contra hne
  exact hf i j hne he

theorem postImport_keeps {draws : Nat → Draw} {body : Json} :
    Keeps (postImport W u draws body)
      (Effect (RouteOp.changes W s u d (.import draws body)) (RouteOp.adds W s u d (.import draws body)) noRow s) s := by
  simp only [Keeps, postImport, authorize, wp_bind, wp_require, wp_ofExcept]
  refine ⟨fun ha => ⟨fun xs hx => ?_, fun _ _ => Effect.refl s⟩, fun _ => Effect.refl s⟩
  have hd : ∀ x ∈ withDraws draws xs, x.2 .deletedAt = none := by
    intro x hm
    obtain ⟨r, hr⟩ := parseImport_mem hx (mem_withDraws hm)
    exact routeData_noField hr rfl
  have sub : ∀ k r', importedBy W s u.userId (withDraws draws xs) k r' → RouteOp.adds W s u d (.import draws body) k r' :=
    fun k r' h => ⟨by simpa using ha, xs, hx, h⟩
  refine wp_mono (importRoutes_keeps hd) ?_ ?_ <;>
  · intro _ s' h
    exact h.effect (fun _ _ _ _ h => h) sub fun k r' h => Or.inl (sub k r' h)

/-! ## Many routes -/

theorem liveAmong_iff {ids : List String} {k : String} {r : Row} : liveAmong ids k r = true ↔ k ∈ ids ∧ r.live = true := by
  simp [liveAmong]

theorem mem_liveAmong {ids : List String} {k : String} {r : Row} (h : (k, r) ∈ (s.routes.filter (liveAmong ids)).rows) :
    s.routes.get? k = some r ∧ k ∈ ids ∧ r.live = true := by
  rw [mem_rows_iff, get?_filter, Option.filter_eq_some_iff, liveAmong_iff] at h
  exact h

/-- The writes of a transaction over the live routes among `ids`. -/
theorem liveUpdates_keep {now : String} (data : String → Row → Patch) {ids : List String} :
    Keeps (atomic ((s.routes.filter (liveAmong ids)).rows.forM fun x => do let _ ← routeUpdate now x.1 (data x.1 x.2)))
      (RoutesChange (fun k r r' => k ∈ ids ∧ r.live = true ∧ refsOk s (data k r) r' = true ∧ WrittenRow now (data k r) r r')
        noRow noRow s) s := by
  have hx : ∀ x ∈ (s.routes.filter (liveAmong ids)).rows, s.routes.get? x.1 = some x.2 := fun x h => (mem_liveAmong h).1
  refine wp_mono (routeUpdates_keep data hx (s.routes.filter (liveAmong ids)).nodup) ?_ ?_ <;>
  · rintro _ _ ⟨t, rfl, hc⟩
    refine ⟨t, rfl, hc.mono ?_ (fun _ _ _ h => h) fun _ _ _ h => h⟩
    intro k r r' _ h
    obtain ⟨hm, hw⟩ := h
    exact ⟨(mem_liveAmong hm).2.1, (mem_liveAmong hm).2.2, hw⟩

theorem liveUpdateMany_keeps {now : String} {data : Patch} {ids : List String} :
    Keeps (routeUpdateMany now (liveAmong ids) data)
      (RoutesChange (fun k r r' => k ∈ ids ∧ r.live = true ∧ refsOk s data r' = true ∧ WrittenRow now data r r')
        noRow noRow s) s := by
  refine wp_mono routeUpdateMany_keeps ?_ ?_ <;>
  · rintro _ _ ⟨t, rfl, hc⟩
    refine ⟨t, rfl, hc.mono ?_ (fun _ _ _ h => h) fun _ _ _ h => h⟩
    rintro k r r' _ ⟨hs, hw⟩
    obtain ⟨hm, hl⟩ := liveAmong_iff.1 hs
    exact ⟨hm, hl, hw⟩

theorem bulkUpdate_keeps {now userId : String} {ids : List String} {patch : BulkPatch} :
    Keeps (bulkUpdate now ids patch userId)
      (RoutesChange (fun k r r' => k ∈ ids ∧ r.live = true ∧ refsOk s (bulkData patch userId r) r' = true ∧
        WrittenRow now (bulkData patch userId r) r r') noRow noRow s) s := by
  unfold bulkUpdate
  by_cases ht : cleanTags patch = []
  · rw [if_pos ht]
    simp only [bulkData, if_pos ht]
    exact liveUpdateMany_keeps
  · rw [if_neg ht]
    simp only [Keeps, wp_bind, wp_read]
    exact liveUpdates_keep fun _ r => bulkData patch userId r

theorem postBulkUpdate_keeps {body : Json} :
    Keeps (postBulkUpdate u d body) (Effect (RouteOp.changes W s u d (.bulkUpdate body)) noRow noRow s) s := by
  simp only [Keeps, postBulkUpdate, authorize, parseBody, wp_bind, wp_require, wp_ofExcept]
  refine ⟨fun ha => ⟨fun data hd => ⟨fun _ => ?_, fun _ => Effect.refl s⟩, fun _ _ => Effect.refl s⟩, fun _ => Effect.refl s⟩
  refine wp_mono bulkUpdate_keeps ?_ ?_ <;>
  · intro _ s' h
    exact h.effect (fun k r r' _ hw => ⟨ha, data, hd, hw.1, hw.2.1, hw.2.2.2⟩) fun _ _ h => h

theorem postBulkPublish_keeps {body : Json} :
    Keeps (postBulkPublish u d body) (Effect (RouteOp.changes W s u d (.bulkPublish body)) noRow noRow s) s := by
  simp only [Keeps, postBulkPublish, authorize, parseBody, bulkPublish, wp_bind, wp_require, wp_ofExcept]
  refine ⟨fun ha => ⟨fun data hd => ?_, fun _ _ => Effect.refl s⟩, fun _ => Effect.refl s⟩
  refine wp_mono liveUpdateMany_keeps ?_ ?_ <;>
  · intro _ s' h
    exact h.effect (fun k r r' _ hw => ⟨ha, data, hd, hw.1, hw.2.1, hw.2.2.2⟩) fun _ _ h => h

theorem postBulkDeactivate_keeps {body : Json} :
    Keeps (postBulkDeactivate u d body) (Effect (RouteOp.changes W s u d (.bulkDeactivate body)) noRow noRow s) s := by
  simp only [Keeps, postBulkDeactivate, authorize, parseBody, bulkDeactivate, wp_bind, wp_require, wp_ofExcept]
  refine ⟨fun ha => ⟨fun data hd => ?_, fun _ _ => Effect.refl s⟩, fun _ => Effect.refl s⟩
  refine wp_mono liveUpdateMany_keeps ?_ ?_ <;>
  · intro _ s' h
    exact h.effect (fun k r r' _ hw => ⟨ha, data, hd, hw.1, hw.2.1, hw.2.2.2⟩) fun _ _ h => h

theorem mem_eligible {ids : List String} {k : String} (h : k ∈ eligible s u ids) :
    k ∈ ids ∧ canDeleteRoute s u k = true ∧ ∃ r, s.routes.get? k = some r ∧ r.flag .isActive = false := by
  obtain ⟨⟨k', r⟩, hm, rfl⟩ := List.mem_map.1 h
  rw [mem_rows_iff, get?_filter, Option.filter_eq_some_iff] at hm
  simp only [Bool.and_eq_true, Bool.not_eq_true', liveAmong_iff] at hm
  obtain ⟨hr, ⟨⟨⟨hi, -⟩, ha⟩, -⟩, hd⟩ := hm
  exact ⟨hi, hd, r, hr, ha⟩

theorem postBulkDelete_keeps {body : Json} :
    Keeps (postBulkDelete u d body) (Effect (RouteOp.changes W s u d (.bulkDelete body)) noRow noRow s) s := by
  simp only [Keeps, postBulkDelete, authorize, parseBody, bulkDelete, wp_bind, wp_require, wp_ofExcept, wp_read, wp_ite]
  refine ⟨fun _ => ⟨fun data hd => ⟨fun _ => ?_, fun _ => Effect.refl s⟩, fun _ _ => Effect.refl s⟩, fun _ => Effect.refl s⟩
  refine wp_mono (liveUpdates_keep (bulkArchiveData d.now)) ?_ ?_ <;>
  · intro _ s' h
    refine h.effect ?_ fun _ _ h => h
    rintro k r r' hr ⟨hm, hl, -, hw⟩
    obtain ⟨hi, hdel, r₀, hr₀, ha⟩ := mem_eligible hm
    obtain rfl : r = r₀ := by simpa [hr] using hr₀
    exact ⟨data, hd, hi, hl, onLiveRoute_row hdel (liveRoute?_iff.2 ⟨hr, hl⟩), ha, hw⟩

/-! ## All endpoints -/

/-- What a handler answers is nothing to what it leaves. -/
theorem keeps_discard {α : Type} {x : Handler α} {P : Store → Prop} (h : Keeps x P s) :
    Keeps (do let _ ← x : Handler Unit) P s := by
  rw [Keeps, wp_bind]
  exact h

/-- A call of a routes endpoint does what its table says and nothing else. -/
theorem RouteOp.perform_keeps (op : RouteOp) :
    Keeps (op.perform W u d) (Effect (op.changes W s u d) (op.adds W s u d) (op.removes s u) s) s := by
  cases op with
  | create body => exact keeps_discard postRoute_keeps
  | update id body => exact keeps_discard putRoute_keeps
  | restore id => exact keeps_discard postRestore_keeps
  | deletePermanently id => exact deletePermanent_keeps
  | delete id confirmName => exact deleteRouteById_keeps
  | publish id => exact keeps_discard postPublish_keeps
  | deactivate id => exact keeps_discard postDeactivate_keeps
  | duplicate id => exact keeps_discard postDuplicate_keeps
  | restoreVersion id versionId => exact keeps_discard postRestoreVersion_keeps
  | «import» draws body => exact keeps_discard postImport_keeps
  | bulkUpdate body => exact keeps_discard postBulkUpdate_keeps
  | bulkPublish body => exact keeps_discard postBulkPublish_keeps
  | bulkDeactivate body => exact keeps_discard postBulkDeactivate_keeps
  | bulkDelete body => exact keeps_discard postBulkDelete_keeps

end Perform

end ClusterGate
