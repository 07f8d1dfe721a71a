/-
  ClusterGate.Route.FolderFrame — what a call of a routes endpoint does to folders.

  None writes a folder, and the database takes a route into a folder that is there only.
  Each operation on the database keeps that (`InFolders`), so does what is put together of
  them, and `RouteOp.perform_inFolders` is that every call of the endpoints does.
-/

import ClusterGate.Route.Frame

namespace ClusterGate

open Lib Lib.Act Lib.Table Lib.Zod

/-! ## Folders that are there -/

/-- The folders are `F`, and every route in a folder is in one of them. -/
structure InFolders (F : Table String RouteFolder) (s : Store) : Prop where
  folders : s.routeFolders = F
  present : ∀ k r f, s.routes.get? k = some r → r.val .folderId = .str f → (F.get? f).isSome = true

section Stable

variable {F : Table String RouteFolder} {s : Store} {W : World} {u : Caller} {d : Draw} {now id userId : String} {data : Patch}

/-- A row the database takes is in a folder that is there. -/
theorem InFolders.written (h : InFolders F s) {old row : Row} (ho : s.routes.get? id = some old)
    (hw : old.write (stamped now data) = some row) (hrefs : refsOk s data row = true) {f : String}
    (hf : row.val .folderId = .str f) : (F.get? f).isSome = true := by
  cases hd : data .folderId with
  | none =>
    have hsame := WrittenRow.same hw hd (by decide)
    rw [hsame] at hf
    exact h.present _ old f ho hf
  | some v =>
    simp only [refsOk, hd, Option.isNone_some, Bool.false_or, Bool.and_eq_true, hf] at hrefs
    rw [← h.folders]
    exact hrefs.2

theorem routeUpdate_inFolders : Stable (InFolders F) (routeUpdate now id data) := by
  intro s hs
  refine wp_mono routeUpdate_spec ?_ fun _ _ h => h.2 ▸ hs
  rintro row _ ⟨hw, rfl⟩
  obtain ⟨old, row', ho, hwrite, -, hrefs⟩ := routeWrite_takes.1 ⟨row, hw⟩
  obtain ⟨old', ho', hwrite'⟩ := routeWrite_ok hw
  obtain rfl : old = old' := Option.some.inj (ho.symm.trans ho')
  obtain rfl : row' = row := Option.some.inj (hwrite.symm.trans hwrite')
  refine ⟨hs.folders, fun k r f hr hf => ?_⟩
  rw [get?_modify] at hr
  split at hr
  · rw [ho] at hr
    obtain rfl := Option.some.inj hr
    exact hs.written ho hwrite hrefs hf
  · exact hs.present k r f hr hf

theorem routeCreate_inFolders : Stable (InFolders F) (routeCreate now id data) := by
  intro s hs
  simp only [routeCreate, wp_bind, wp_read, wp_orThrow, wp_require, wp_modify, wp_pure]
  refine ⟨fun row _ => ⟨fun hn => ⟨fun hrefs => ⟨hs.folders, fun k r f hr hf => ?_⟩, fun _ => hs⟩, fun _ => hs⟩, fun _ => hs⟩
  rw [get?_insert (by simpa using hn.1)] at hr
  split at hr
  · obtain rfl := Option.some.inj hr
    simp only [refsOk, Option.isNone_some, Bool.false_or, Bool.and_eq_true, hf] at hrefs
    rw [← hs.folders]
    exact hrefs.2
  · exact hs.present k r f hr hf

theorem routeUpdateMany_inFolders {sel : String → Row → Bool} : Stable (InFolders F) (routeUpdateMany now sel data) := by
  intro s hs
  simp only [routeUpdateMany, wp_bind, wp_read, wp_require, wp_modify, wp_pure]
  refine ⟨fun hwritten => ⟨fun hrefs => ⟨hs.folders, fun k r' f hr hf => ?_⟩, fun _ => hs⟩, fun _ => hs⟩
  rw [get?_mapRows, Option.map_eq_some_iff] at hr
  obtain ⟨r, hr, rfl⟩ := hr
  unfold writtenIf at hf
  split at hf
  · rename_i hsel
    have hw := any_eq_false.1 (Bool.not_eq_true _ ▸ hwritten) k r hr
    have hok := any_eq_false.1 (Bool.not_eq_true _ ▸ hrefs) k r hr
    simp only [hsel, Bool.true_and, Option.isNone_eq_false_iff, Option.isSome_iff_exists] at hw
    obtain ⟨row, hrow⟩ := hw
    rw [hrow] at hf hok
    exact hs.written hr hrow (by simpa [hsel] using hok) hf
  · exact hs.present k r f hr hf

theorem routeDelete_inFolders : Stable (InFolders F) (routeDelete id) := by
  refine stable_bind stable_read fun _ => stable_bind (stable_require _ _) fun _ => stable_modify fun s hs => ?_
  refine ⟨hs.folders, fun k r f hr hf => ?_⟩
  rw [get?_erase] at hr
  split at hr
  · cases hr
  · exact hs.present k r f hr hf

/-- What neither touches routes nor folders. -/
theorem modify_inFolders {g : Store → Store} (hg : ∀ s, (g s).routes = s.routes ∧ (g s).routeFolders = s.routeFolders) :
    Stable (InFolders F) (modify g : Handler Unit) := by
  refine stable_modify fun s hs => ⟨(hg s).2.trans hs.folders, fun k r f hr hf => ?_⟩
  rw [(hg s).1] at hr
  exact hs.present k r f hr hf

theorem versionCreate_inFolders {versionId routeId : String} {version : Json} {row : Row} :
    Stable (InFolders F) (versionCreate versionId routeId version row userId) :=
  stable_bind stable_read fun _ => stable_bind (stable_require _ _) fun _ => modify_inFolders fun _ => ⟨rfl, rfl⟩

theorem crCreate_inFolders {cr : ChangeRequest} : Stable (InFolders F) (crCreate id cr) :=
  stable_bind stable_read fun _ => stable_bind (stable_require _ _) fun _ => stable_bind (stable_require _ _) fun _ =>
    modify_inFolders fun _ => ⟨rfl, rfl⟩

/-! ## The route service -/

theorem checkRewriteRules_inFolders {rules : Option Json} : Stable (InFolders F) (checkRewriteRules W rules) :=
  stable_forM (fun _ => stable_require _ _) _

theorem freeSoftDeletedPublicPath_inFolders {publicPath : Json} :
    Stable (InFolders F) (freeSoftDeletedPublicPath now publicPath) := by
  refine stable_bind stable_read fun s => ?_
  split
  · exact stable_pure ()
  · exact stable_bind routeUpdate_inFolders fun _ => stable_pure ()

theorem assertRouteTargetAllowed_inFolders {url : String} {organizationId : Json} :
    Stable (InFolders F) (assertRouteTargetAllowed W url organizationId) := by
  intro s hs
  rw [wp_assertRouteTargetAllowed]
  exact ⟨fun _ => hs, fun _ _ => hs⟩

theorem createRoute_inFolders : Stable (InFolders F) (createRoute W d data userId) :=
  stable_bind assertRouteTargetAllowed_inFolders fun _ => stable_bind freeSoftDeletedPublicPath_inFolders fun _ =>
    stable_bind (stable_require _ _) fun _ => stable_bind checkRewriteRules_inFolders fun _ => stable_bind stable_read fun _ =>
    stable_bind routeCreate_inFolders fun _ => stable_bind versionCreate_inFolders fun _ => stable_pure _

theorem checkTargets_inFolders {existing : Row} : Stable (InFolders F) (checkTargets W id existing data) :=
  fun _ hs => wp_mono checkTargets_spec (fun _ _ h => h.1 ▸ hs) fun _ _ h => h.1 ▸ hs

theorem updateRoute_inFolders : Stable (InFolders F) (updateRoute W d id data userId) :=
  stable_bind stable_read fun _ => stable_bind (stable_orThrow _ _) fun _ => stable_bind checkTargets_inFolders fun _ =>
    stable_bind (stable_when (stable_when freeSoftDeletedPublicPath_inFolders)) fun _ =>
    stable_bind checkRewriteRules_inFolders fun _ => stable_bind routeUpdate_inFolders fun _ =>
    stable_bind (stable_when versionCreate_inFolders) fun _ => stable_pure _

theorem importRoutes_inFolders {routes : List (Draw × Patch)} : Stable (InFolders F) (importRoutes W userId routes) := by
  induction routes with
  | nil => exact stable_pure _
  | cons route rest ih =>
    exact stable_bind (stable_attempt createRoute_inFolders) fun _ => stable_bind ih fun _ => stable_pure _

theorem findLive_inFolders : Stable (InFolders F) (findLive id) := stable_bind stable_read fun _ => stable_orThrow _ _

theorem findArchived_inFolders : Stable (InFolders F) (findArchived id) := stable_bind stable_read fun _ => stable_orThrow _ _

/-- A transaction of writes. -/
theorem routeUpdates_inFolders {rows : List (String × Row)} {write : String × Row → Patch} :
    Stable (InFolders F) (atomic (rows.forM fun r => do let _ ← routeUpdate now r.1 (write r))) :=
  stable_atomic (stable_forM (fun _ => stable_bind routeUpdate_inFolders fun _ => stable_pure _) _)

/-! ## The endpoints -/

theorem requireManage_inFolders : Stable (InFolders F) (requireManage u id) := stable_bind stable_read fun _ => stable_require _ _

theorem requireArchivedDelete_inFolders {verb : String} : Stable (InFolders F) (requireArchivedDelete u id verb) :=
  stable_bind stable_read fun _ => stable_bind (stable_orThrow _ _) fun _ => stable_bind (stable_require _ _) fun _ =>
    stable_require _ _

theorem putRoute_inFolders {body : Json} : Stable (InFolders F) (putRoute W u d id body) := by
  refine stable_bind (stable_ofExcept _) fun data => stable_bind stable_read fun _ => stable_bind (stable_require _ _) fun _ => ?_
  refine stable_ite (stable_bind updateRoute_inFolders fun _ => stable_pure _) (stable_bind ?_ fun _ => stable_pure _)
  exact stable_bind findLive_inFolders fun _ => stable_bind (stable_when assertRouteTargetAllowed_inFolders) fun _ =>
    stable_bind crCreate_inFolders fun _ => stable_pure _

theorem bulkUpdate_inFolders {ids : List String} {patch : BulkPatch} :
    Stable (InFolders F) (bulkUpdate now ids patch userId) := by
  refine stable_ite routeUpdateMany_inFolders (stable_bind stable_read fun _ => ?_)
  exact stable_bind routeUpdates_inFolders fun _ => stable_pure _

theorem bulkDelete_inFolders {ids : List String} : Stable (InFolders F) (bulkDelete now ids) :=
  stable_bind stable_read fun _ => stable_bind routeUpdates_inFolders fun _ => stable_pure _

theorem parseBody_inFolders {fields : List String} {schema : Shape String} {body : Json} :
    Stable (InFolders F) (parseBody fields schema body) := stable_ofExcept _

/-- A call of a routes endpoint leaves the folders alone, and routes in folders that are there. -/
theorem RouteOp.perform_inFolders (op : RouteOp) : Stable (InFolders F) (op.perform W u d) := by
  have void {α : Type} {x : Handler α} (hx : Stable (InFolders F) x) : Stable (InFolders F) (do let _ ← x) :=
    stable_bind hx fun _ => stable_pure _
  cases op with
  | create body =>
    refine void (stable_bind (stable_ofExcept _) fun _ => stable_bind ?_ fun _ => createRoute_inFolders)
    exact stable_bind stable_read fun _ => stable_bind (stable_require _ _) fun _ => stable_require _ _
  | update id body => exact void putRoute_inFolders
  | restore id =>
    refine void (stable_bind requireArchivedDelete_inFolders fun _ => ?_)
    exact stable_bind findArchived_inFolders fun _ => stable_bind stable_read fun _ => routeUpdate_inFolders
  | deletePermanently id =>
    exact stable_bind requireArchivedDelete_inFolders fun _ => stable_bind findArchived_inFolders fun _ =>
      routeDelete_inFolders
  | delete id confirmName =>
    refine stable_bind stable_read fun _ => stable_bind (stable_require _ _) fun _ => ?_
    exact stable_bind findLive_inFolders fun _ => stable_bind (stable_require _ _) fun _ =>
      stable_bind (stable_require _ _) fun _ => stable_bind routeUpdate_inFolders fun _ => stable_pure _
  | publish id =>
    exact void (stable_bind requireManage_inFolders fun _ => stable_bind findLive_inFolders fun _ => routeUpdate_inFolders)
  | deactivate id =>
    exact void (stable_bind requireManage_inFolders fun _ => stable_bind findLive_inFolders fun _ => routeUpdate_inFolders)
  | duplicate id =>
    exact void (stable_bind requireManage_inFolders fun _ => stable_bind findLive_inFolders fun _ =>
      stable_bind stable_read fun _ => routeCreate_inFolders)
  | restoreVersion id versionId =>
    exact void (stable_bind (stable_require _ _) fun _ => stable_bind stable_read fun _ =>
      stable_bind (stable_orThrow _ _) fun _ => updateRoute_inFolders)
  | «import» draws body =>
    exact void (stable_bind (stable_require _ _) fun _ => stable_bind (stable_ofExcept _) fun _ => importRoutes_inFolders)
  | bulkUpdate body =>
    exact void (stable_bind (stable_require _ _) fun _ => stable_bind parseBody_inFolders fun _ =>
      stable_bind (stable_require _ _) fun _ => bulkUpdate_inFolders)
  | bulkPublish body =>
    exact void (stable_bind (stable_require _ _) fun _ => stable_bind parseBody_inFolders fun _ => routeUpdateMany_inFolders)
  | bulkDeactivate body =>
    exact void (stable_bind (stable_require _ _) fun _ => stable_bind parseBody_inFolders fun _ => routeUpdateMany_inFolders)
  | bulkDelete body =>
    refine void (stable_bind (stable_require _ _) fun _ => stable_bind parseBody_inFolders fun _ =>
      stable_bind stable_read fun _ => ?_)
    exact stable_bind (stable_ite bulkDelete_inFolders (stable_pure _)) fun _ => stable_pure _

end Stable

end ClusterGate
