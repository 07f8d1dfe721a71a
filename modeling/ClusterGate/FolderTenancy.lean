/-
  ClusterGate.FolderTenancy — whether a folder's routes are of its organization.

  A route's folder and its organization are two columns. Moving a route into a folder
  compares them, and an API key that is bound to the folder reaches every route in it; an
  update that names an organization writes the one column and leaves the other.
  - `folders_in_tenant`: on every run from a store without routes in which no update moves a
    route that is in a folder to another organization, every route in a folder is of the
    folder's organization.
  - `an_update_leaves_the_folder_behind`: such an update.
-/

import ClusterGate.Proxy.Admission
import ClusterGate.Route.FolderFrame
import ClusterGate.TargetInvariant

namespace ClusterGate

open Lib Lib.Act Lib.Table Lib.Zod

/-! ## The invariant -/

/-- A folder's organization, as a column has it. -/
def RouteFolder.org (folder : RouteFolder) : Json := (folder.organizationId.map Json.str).getD .null

/-- Every route that is in a folder is of the folder's organization. -/
def FolderTenancy (s : Store) : Prop :=
  ∀ k r, s.routes.get? k = some r → r.val .folderId ≠ .null →
    ∃ f folder, r.val .folderId = .str f ∧ s.routeFolders.get? f = some folder ∧ r.val .organizationId = folder.org

/-- The row is in no folder of another organization. -/
def Within (folders : Table String RouteFolder) (r : Row) : Prop :=
  ∀ f folder, r.val .folderId = .str f → folders.get? f = some folder → r.val .organizationId = folder.org

/-- Routes are in folders that are there, and neither a route nor a version is in one of
    another organization. -/
structure FoldersInTenant (s : Store) : Prop where
  present : ∀ k r f, s.routes.get? k = some r → r.val .folderId = .str f → (s.routeFolders.get? f).isSome = true
  route : ∀ k r, s.routes.get? k = some r → Within s.routeFolders r
  version : ∀ k v, s.routeVersions.get? k = some v → ∃ r : Row, v.snapshot = r.val ∧ Within s.routeFolders r

theorem folderId_cases (r : Row) : r.val .folderId = .null ∨ ∃ f, r.val .folderId = .str f := by
  have htyped := r.typed .folderId
  cases hv : r.val .folderId with
  | null => exact .inl rfl
  | str f => exact .inr ⟨f, rfl⟩
  | _ =>
    rw [hv] at htyped
    cases htyped

theorem FoldersInTenant.tenancy {s : Store} (h : FoldersInTenant s) : FolderTenancy s := by
  intro k r hr hf
  obtain ⟨f, hf⟩ := (folderId_cases r).resolve_left hf
  obtain ⟨folder, hfolder⟩ := Option.isSome_iff_exists.1 (h.present k r f hr hf)
  exact ⟨f, folder, hf, hfolder, h.route k r hr f folder hf hfolder⟩

/-- What an API key reaches through folders is of the folders' organizations. -/
theorem FolderTenancy.covers {s : Store} (h : FolderTenancy s) {key : ApiKey} {k : String} {r : Row}
    (hr : s.routes.get? k = some r) (hc : key.covers k (r.text .folderId) = true) :
    key.routeId = k ∨ k ∈ key.sharedRoutes ∨
      ∃ f ∈ key.sharedFolders, ∃ folder, s.routeFolders.get? f = some folder ∧ r.val .organizationId = folder.org := by
  simp only [ApiKey.covers, Bool.or_eq_true, decide_eq_true_eq, List.contains_iff_mem] at hc
  rcases hc with (hown | hshared) | hfolder
  · exact .inl hown
  · exact .inr (.inl hshared)
  · cases ht : r.text .folderId with
    | none =>
      rw [ht] at hfolder
      cases hfolder
    | some f =>
      rw [ht, List.contains_iff_mem] at hfolder
      have hf : r.val .folderId = .str f := Json.str?_some ht
      obtain ⟨f', folder, hf', hfound, horg⟩ := h k r hr (by rw [hf]; nofun)
      obtain rfl : f = f' := Json.str.inj (hf.symm.trans hf')
      exact .inr (.inr ⟨f, hfolder, folder, hfound, horg⟩)

theorem Within.same {folders : Table String RouteFolder} {r r' : Row} (h : Within folders r)
    (hf : r'.val .folderId = r.val .folderId) (ho : r'.val .organizationId = r.val .organizationId) : Within folders r' := by
  unfold Within
  rw [hf, ho]
  exact h

theorem within_null {folders : Table String RouteFolder} {r : Row} (h : r.val .folderId = .null) : Within folders r := by
  intro f folder hf
  rw [h] at hf
  cases hf

/-- No update the caller may make at once moves a route that is in a folder to another
    organization, and a new folder's id is not one that a version still names. -/
structure KeepsFolders (W : World) (s : Store) (q : Request) : Prop where
  update : ∀ id body data r v, q.endpoint = .route (.update id body) →
    routeData W (partialUpdate (routeBodySchema W)) body = .ok data → liveRoute? s id = some r →
    manages s q.caller r → canBypass s q.caller id = true → r.val .folderId ≠ .null →
    data .organizationId = some v → v = r.val .organizationId
  fresh : ∀ body, q.endpoint = .folder (.create body) → ∀ k v, s.routeVersions.get? k = some v →
    v.snapshot .folderId ≠ .str q.draw.rowId

/-! ## Rows that other endpoints write -/

section Rows

variable {W : World} {s : Store} {q : Request} {k : String} {r r' : Row}

/-- Outside the folder endpoints only the restore of a version writes a route's folder. -/
theorem changes_folder (hq : ∀ op, q.endpoint ≠ .folder op) (h : q.changes W s k r r') :
    r'.val .folderId = r.val .folderId ∨ ∃ versionId v, q.endpoint = .route (.restoreVersion k versionId) ∧
      s.routeVersions.get? versionId = some v ∧ UpdatedRow W s q.draw k (snapshotData v) q.caller.userId r r' := by
  obtain ⟨u, d, e⟩ := q
  cases e with
  | folder op => exact absurd rfl (hq op)
  | target op => exact h.elim
  | transform op => exact h.elim
  | member op => exact h.elim
  | group op =>
    cases op with
    | create body => exact h.elim
    | update id body => exact h.elim
    | delete id => exact .inl (h.2.2 _ (by decide))
    | assign id routeId => exact .inl (h.2.2.2.2 _ (by decide))
    | remove id routeId => exact .inl (h.2.2.2.2 _ (by decide))
  | change op =>
    obtain ⟨cr, -, h⟩ := h
    have unlisted : Column.folderId ∉ APPLIED_FIELDS := by decide
    exact .inl (h.same (if_neg unlisted) (by decide))
  | route op =>
    have freed (h : Freed k r r') : r'.val .folderId = r.val .folderId := h.2.2 _ (by decide) (by decide)
    cases op with
    | create body => exact .inl (freed h)
    | «import» draws body => exact .inl (freed h)
    | update id body =>
      rcases h with h | ⟨rfl, -, -, data, hd, h⟩
      · exact .inl (freed h)
      · exact .inl (h.same (by decide) (routeData_noField hd rfl))
    | restoreVersion id versionId =>
      rcases h with h | ⟨rfl, -, v, hv, -, h⟩
      · exact .inl (freed h)
      · exact .inr ⟨versionId, v, rfl, hv, h⟩
    | publish id => exact .inl (h.2.2.2.same rfl (by decide))
    | deactivate id => exact .inl (h.2.2.2.same rfl (by decide))
    | delete id confirmName => exact .inl (h.2.2.2.2.same rfl (by decide))
    | restore id => exact .inl (h.2.2.2.same rfl (by decide))
    | bulkUpdate body =>
      obtain ⟨-, data, -, -, -, hw⟩ := h
      refine .inl (hw.same ?_ (by decide))
      unfold bulkData
      split
      · rfl
      · exact (Patch.set_ne _ _ (by decide)).trans rfl
    | bulkPublish body =>
      obtain ⟨-, data, -, -, -, hw⟩ := h
      exact .inl (hw.same rfl (by decide))
    | bulkDeactivate body =>
      obtain ⟨-, data, -, -, -, hw⟩ := h
      exact .inl (hw.same rfl (by decide))
    | bulkDelete body =>
      obtain ⟨data, -, -, -, -, -, hw⟩ := h
      exact .inl (hw.same rfl (by decide))
    | deletePermanently id => exact h.elim
    | duplicate id => exact h.elim

/-- A version that is restored brings its folder and its organization. -/
theorem restored_within {v : RouteVersion} (hi : FoldersInTenant s) {versionId : String}
    (hv : s.routeVersions.get? versionId = some v)
    (h : UpdatedRow W s q.draw k (snapshotData v) q.caller.userId r r') : Within s.routeFolders r' := by
  obtain ⟨row, hsnapshot, hwithin⟩ := hi.version _ _ hv
  have restored {c : Column} (hc : c ∉ DERIVED) (hn : c ∉ [Column.version, .createdAt, .updatedAt, .createdById, .updatedById]) :
      r'.val c = row.val c := by
    have hdata : snapshotData v c = some (row.val c) := by rw [snapshotData, Patch.remove, if_neg hn, hsnapshot]
    exact h.plain hc hdata (row.typed c)
  exact hwithin.same (restored (by decide) (by decide)) (restored (by decide) (by decide))

/-- Any other row that is written stays in its folder, and so in its organization. -/
theorem changes_within (hi : FoldersInTenant s) (hc : KeepsFolders W s q) (hq : ∀ op, q.endpoint ≠ .folder op)
    (hr : s.routes.get? k = some r) (h : q.changes W s k r r') : Within s.routeFolders r' := by
  rcases changes_folder hq h with hf | ⟨versionId, v, -, hv, h⟩
  · have stays (ho : r.val .folderId ≠ .null → r'.val .organizationId = r.val .organizationId) :
        Within s.routeFolders r' := by
      by_cases hnull : r.val .folderId = .null
      · exact within_null (hf.trans hnull)
      · exact (hi.route k r hr).same hf (ho hnull)
    rcases changes_cases h with h | h
    · exact stays fun _ => h.agree _ (by decide)
    · cases h with
      | restored he ha hv h => exact restored_within hi hv h
      | approved he ha h =>
        have unlisted : Column.organizationId ∉ APPLIED_FIELDS := by decide
        exact stays fun _ => h.same (if_neg unlisted) (by decide)
      | updated he hm hb hd h =>
        refine stays fun hnull => ?_
        rw [h.organization (updateBody_organization hd), effectiveOrg_eq]
        rename_i body data
        cases ho : data .organizationId with
        | none => rfl
        | some v => exact hc.update k body data r v he hd (liveRoute?_iff.2 ⟨hr, h.1⟩) hm hb hnull ho
  · exact restored_within hi hv h

theorem adds_within (hi : FoldersInTenant s) (h : q.adds W s k r') : Within s.routeFolders r' := by
  have created {d : Draw} {data : Patch} {userId : String} (h : CreatedRow W s d data userId r')
      (hd : data .folderId = none) : Within s.routeFolders r' := by
    rcases h.value (c := .folderId) (by decide) (by decide) with hv | ⟨-, hv⟩
    · rw [hd] at hv
      cases hv
    · exact within_null (Option.some.inj hv).symm
  obtain ⟨u, d, e⟩ := q
  cases e with
  | route op =>
    cases op with
    | create body =>
      obtain ⟨data, hd, -, -, h⟩ := h
      exact created h (routeData_noField hd rfl)
    | duplicate id =>
      obtain ⟨-, r, hr, -, h⟩ := h
      exact (hi.route id r (liveRoute?_iff.1 hr).1).same (h.copied (by decide)) (h.copied (by decide))
    | «import» draws body =>
      obtain ⟨-, xs, hx, x, hm, -, h⟩ := h
      obtain ⟨b, hb⟩ := parseImport_mem hx (mem_withDraws hm)
      exact created h (routeData_noField hb rfl)
    | _ => exact h.elim
  | _ => exact h.elim

end Rows

/-! ## A step of any other endpoint -/

section Step

variable {W : World} {s : Store} {q : Request}

/-- Folders stay, and routes are in folders that are there. -/
theorem step_inFolders (hs : InFolders s.routeFolders s) (hq : ∀ op, q.endpoint ≠ .folder op) :
    InFolders s.routeFolders (step W s q) := by
  -- no row these write is moved to a folder
  have kept {R : RowChange} {s' : Store} (hf : s'.routeFolders = s.routeFolders)
      (hc : Changes R noRow noRow s.routes s'.routes)
      (hR : ∀ k r r', R k r r' → r'.val .folderId = r.val .folderId) : InFolders s.routeFolders s' := by
    refine ⟨hf, fun k r' f hr' hfolder => ?_⟩
    cases hr : s.routes.get? k with
    | none => exact (hc.new hr hr').elim
    | some r =>
      rcases hc.some hr hr' with rfl | h
      · exact hs.present k r' f hr hfolder
      · exact hs.present k r f hr (hR k r r' h ▸ hfolder)
  have changed : ∀ k r r', q.changes W s k r r' → (∀ op, q.endpoint ≠ .route op) → r'.val .folderId = r.val .folderId := by
    intro k r r' h hroute
    rcases changes_folder hq h with h | ⟨versionId, v, he, -⟩
    · exact h
    · exact absurd he (hroute _)
  obtain ⟨u, d, e⟩ := q
  cases e with
  | folder op => exact absurd rfl (hq op)
  | route op => exact wp_final (op.perform_inFolders s hs)
  | change op =>
    refine wp_final (wp_mono (op.perform_keeps (W := W) (u := u) (d := d)) ?_ ?_) <;>
    · intro _ s' h
      obtain ⟨t, cs, rfl, hc⟩ := h
      exact kept rfl hc fun k r r' h => changed k r r' h nofun
  | group op =>
    refine wp_final (wp_mono (op.perform_keeps (W := W) (u := u) (d := d)) ?_ ?_) <;>
    · intro _ s' h
      obtain ⟨t, g, rfl, hc, -⟩ := h
      exact kept rfl hc fun k r r' h => changed k r r' h nofun
  | target op =>
    refine wp_final (wp_mono (op.perform_keeps (W := W) (u := u) (d := d)) ?_ ?_) <;>
    · intro _ s' h
      obtain ⟨t, rfl, -⟩ := h
      exact ⟨rfl, hs.present⟩
  | transform op =>
    refine wp_final (wp_mono (op.perform_keeps (u := u) (d := d)) ?_ ?_) <;>
    · intro _ s' h
      obtain ⟨t, rfl, -⟩ := h
      exact ⟨rfl, hs.present⟩
  | member op =>
    refine wp_final (wp_mono op.perform_keeps ?_ ?_) <;>
    · intro _ s' h
      obtain ⟨m, rfl⟩ := h
      exact ⟨rfl, hs.present⟩

theorem step_other (hi : FoldersInTenant s) (hc : KeepsFolders W s q) (hq : ∀ op, q.endpoint ≠ .folder op) :
    FoldersInTenant (step W s q) := by
  have hstep := step_inFolders (W := W) ⟨rfl, hi.present⟩ hq
  have f := step_footprint W s q
  have written : ∀ k r', q.writes W s k r' → Within s.routeFolders r' := by
    rintro k r' (h | ⟨r, hr, h⟩)
    · exact adds_within hi h
    · exact changes_within hi hc hq hr h
  refine ⟨?_, fun k r' hr' => ?_, fun k v hv => ?_⟩
  · rw [hstep.folders]
    exact hstep.present
  · rw [hstep.folders]
    cases hr : s.routes.get? k with
    | none => exact written k r' (.inl (f.routes.new hr hr'))
    | some r =>
      rcases f.routes.some hr hr' with rfl | h
      · exact hi.route k r' hr
      · exact written k r' (.inr ⟨r, hr, h⟩)
  · rw [hstep.folders]
    rcases f.versions k v hv with h | ⟨r, hr, h⟩
    · exact hi.version k v h
    · exact ⟨r, h, written _ _ hr⟩

end Step

/-! ## A call of a folder endpoint -/

section FolderStep

variable {u : Caller} {d : Draw} {s : Store}

/-- Other folders, in which no folder the row may be in changes its organization. -/
theorem Within.folders {F F' : Table String RouteFolder} {r : Row} (h : Within F r)
    (hF : ∀ f folder', r.val .folderId = .str f → F'.get? f = some folder' →
      ∃ folder, F.get? f = some folder ∧ folder'.org = folder.org) : Within F' r := by
  intro f folder' hf hfolder'
  obtain ⟨folder, hfolder, horg⟩ := hF f folder' hf hfolder'
  rw [horg]
  exact h f folder hf hfolder

/-- Moving routes is sound if each that is selected may go where it is moved. -/
theorem moveMany_keeps (hi : FoldersInTenant s) {now : String} {sel : String → Row → Bool} {v : Json}
    (hv : Column.folderId.admits v = true)
    (hsel : ∀ k r, s.routes.get? k = some r → sel k r = true → ∀ f, v = .str f →
      ∃ folder, s.routeFolders.get? f = some folder ∧ r.val .organizationId = folder.org) :
    Keeps (routeUpdateMany now sel (Patch.ofList [(.folderId, v)])) FoldersInTenant s := by
  have moved : ∀ s', RoutesChange (fun k r r' => sel k r = true ∧ refsOk s (Patch.ofList [(.folderId, v)]) r' = true ∧
      WrittenRow now (Patch.ofList [(.folderId, v)]) r r') noRow noRow s s' → FoldersInTenant s' := by
    rintro _ ⟨t, rfl, hc⟩
    have row : ∀ k r', t.get? k = some r' → s.routes.get? k = some r' ∨
        r'.val .folderId = v ∧ ∃ r, s.routes.get? k = some r ∧ sel k r = true ∧
          r'.val .organizationId = r.val .organizationId := by
      intro k r' hr'
      cases hr : s.routes.get? k with
      | none => exact (hc.new hr hr').elim
      | some r =>
        rcases hc.some hr hr' with rfl | ⟨hs, -, hw⟩
        · exact .inl rfl
        · exact .inr ⟨hw.plain (c := .folderId) rfl (by decide) hv, r, rfl, hs, hw.same rfl (by decide)⟩
    refine ⟨fun k r' f hr' hf => ?_, fun k r' hr' f folder hf hfolder => ?_, hi.version⟩
    · rcases row k r' hr' with h | ⟨hfolder, r, hr, hs, -⟩
      · exact hi.present k r' f h hf
      · obtain ⟨folder, hfolder, -⟩ := hsel k r hr hs f (hfolder.symm.trans hf)
        exact Option.isSome_iff_exists.2 ⟨folder, hfolder⟩
    · rcases row k r' hr' with h | ⟨hv', r, hr, hs, horg⟩
      · exact hi.route k r' h f folder hf hfolder
      · obtain ⟨folder', hfolder', horg'⟩ := hsel k r hr hs f (hv'.symm.trans hf)
        obtain rfl : folder' = folder := Option.some.inj (hfolder'.symm.trans hfolder)
        rw [horg]
        exact horg'
  exact wp_mono routeUpdateMany_keeps (fun _ s' h => moved s' h) fun _ s' h => moved s' h

/-- Taking a route out of its folder is always possible. -/
theorem write_unfold (r : Row) :
    ∃ r', r.write unfold = some r' ∧ r'.val .folderId = .null ∧ r'.val .organizationId = r.val .organizationId := by
  have hsome : (r.write unfold).isSome = true := by
    rw [write_isSome]
    intro c
    by_cases hc : c = .folderId
    · subst hc
      rfl
    · have hnone : unfold c = none := by simp [unfold, Patch.ofList, Ne.symm hc]
      rw [written, hnone]
      rfl
  obtain ⟨r', hr'⟩ := Option.isSome_iff_exists.1 hsome
  exact ⟨r', hr', write_plain hr' (c := .folderId) rfl rfl, write_same hr' rfl⟩

theorem postFolder_keeps (hi : FoldersInTenant s) {body : Json}
    (hfresh : ∀ k v, s.routeVersions.get? k = some v → v.snapshot .folderId ≠ .str d.rowId) :
    Keeps (postFolder u d body) FoldersInTenant s := by
  simp only [Keeps, postFolder, authorize, parseBody, wp_bind, wp_require, wp_ofExcept, wp_read, wp_modify]
  refine ⟨fun _ => ⟨fun data _ => ⟨fun _ => ⟨fun _ => ⟨fun _ => ⟨fun hn => ⟨fun _ => ?_, fun _ => hi⟩, fun _ => hi⟩,
    fun _ => hi⟩, fun _ => hi⟩, fun _ => hi⟩, fun _ _ => hi⟩, fun _ => hi⟩
  have hn : s.routeFolders.get? d.rowId = none := by simpa using hn
  -- a row that does not name the new folder is where it was
  have within {r : Row} (h : Within s.routeFolders r) (hne : r.val .folderId ≠ .str d.rowId) (folder : RouteFolder) :
      Within (s.routeFolders.insert d.rowId folder) r := by
    refine h.folders fun f folder' hf hfolder' => ?_
    rw [get?_insert hn, if_neg fun heq : f = d.rowId => hne (heq ▸ hf)] at hfolder'
    exact ⟨folder', hfolder', rfl⟩
  refine ⟨fun k r f hr hf => ?_, fun k r hr => ?_, fun k v hv => ?_⟩
  · rw [get?_insert hn]
    split
    · rfl
    · exact hi.present k r f hr hf
  · refine within (hi.route k r hr) (fun hf => ?_) _
    have := hi.present k r _ hr hf
    rw [hn] at this
    cases this
  · obtain ⟨r, hsnapshot, h⟩ := hi.version k v hv
    exact ⟨r, hsnapshot, within h (by rw [← hsnapshot]; exact hfresh k v hv) _⟩

theorem putFolder_keeps (hi : FoldersInTenant s) {id : String} {body : Json} :
    Keeps (putFolder u id body) FoldersInTenant s := by
  simp only [Keeps, putFolder, authorize, parseBody, wp_bind, wp_require]
  refine ⟨fun _ => wp_requireFolderManage (fun _ _ => ?_) fun _ => hi, fun _ => hi⟩
  simp only [wp_bind, wp_ofExcept, wp_modify]
  refine ⟨fun data _ => ?_, fun _ _ => hi⟩
  have within {r : Row} (h : Within s.routeFolders r) :
      Within (s.routeFolders.modify id fun f => f.withFields data) r := by
    refine h.folders fun f folder' _ hfolder' => ?_
    rw [get?_modify] at hfolder'
    split at hfolder'
    · rename_i hid
      obtain ⟨folder, hfolder, rfl⟩ := Option.map_eq_some_iff.1 hfolder'
      exact ⟨folder, hid ▸ hfolder, rfl⟩
    · exact ⟨folder', hfolder', rfl⟩
  refine ⟨fun k r f hr hf => ?_, fun k r hr => within (hi.route k r hr), fun k v hv => ?_⟩
  · have := hi.present k r f hr hf
    rw [get?_modify]
    split
    · rename_i hid
      rw [Option.isSome_map, ← hid]
      exact this
    · exact this
  · obtain ⟨r, hsnapshot, h⟩ := hi.version k v hv
    exact ⟨r, hsnapshot, within h⟩

theorem deleteFolder_tenant (hi : FoldersInTenant s) {id : String} : Keeps (deleteFolder u id) FoldersInTenant s := by
  simp only [Keeps, deleteFolder, authorize, wp_bind, wp_require]
  refine ⟨fun _ => wp_requireFolderManage (fun _ _ => ?_) fun _ => hi, fun _ => hi⟩
  rw [wp_modify]
  have within {r : Row} (h : Within s.routeFolders r) : Within (s.routeFolders.erase id) r := by
    refine h.folders fun f folder' _ hfolder' => ?_
    rw [get?_erase] at hfolder'
    split at hfolder'
    · cases hfolder'
    · exact ⟨folder', hfolder', rfl⟩
  have row : ∀ k r', (s.routes.mapRows (writtenIf (fun _ r => r.val .folderId = .str id) unfold)).get? k = some r' →
      r'.val .folderId = .null ∨ s.routes.get? k = some r' ∧ r'.val .folderId ≠ .str id := by
    intro k r' hr'
    rw [get?_mapRows, Option.map_eq_some_iff] at hr'
    obtain ⟨r, hr, rfl⟩ := hr'
    by_cases hid : r.val .folderId = .str id
    · obtain ⟨r', hwrite, hnull, -⟩ := write_unfold r
      refine .inl ?_
      simp only [writtenIf, hid, decide_true, if_true, hwrite, Option.getD_some]
      exact hnull
    · simp only [writtenIf, hid, decide_false, Bool.false_eq_true, if_false]
      exact .inr ⟨hr, hid⟩
  refine ⟨fun k r' f hr' hf => ?_, fun k r' hr' => ?_, fun k v hv => ?_⟩
  · rcases row k r' hr' with hnull | ⟨hr, hne⟩
    · rw [hnull] at hf
      cases hf
    · rw [get?_erase, if_neg fun heq : f = id => hne (heq ▸ hf)]
      exact hi.present k r' f hr hf
  · rcases row k r' hr' with hnull | ⟨hr, -⟩
    · exact within_null hnull
    · exact within (hi.route k r' hr)
  · obtain ⟨r, hsnapshot, h⟩ := hi.version k v hv
    exact ⟨r, hsnapshot, within h⟩

theorem postFolderRoutes_keeps (hi : FoldersInTenant s) {id : String} {body : Json} :
    Keeps (postFolderRoutes u d id body) FoldersInTenant s := by
  simp only [Keeps, postFolderRoutes, authorize, parseBody, wp_bind, wp_require]
  refine ⟨fun _ => wp_requireFolderManage (fun folder hfolder => ?_) fun _ => hi, fun _ => hi⟩
  simp only [wp_bind, wp_require, wp_ofExcept, wp_read]
  refine ⟨fun data _ => ⟨fun _ => ⟨fun hlive => ⟨fun horg => ?_, fun _ => hi⟩, fun _ => hi⟩, fun _ => hi⟩, fun _ _ => hi⟩
  refine moveMany_keeps hi rfl fun k r hr hs f hf => ?_
  obtain rfl := Json.str.inj hf
  have hmem : k ∈ dedupe (textList data "routeIds") := by simpa using hs
  obtain ⟨r', hr'⟩ := Option.isSome_iff_exists.1 (hlive k hmem)
  obtain rfl : r' = r := Option.some.inj ((liveRoute?_iff.1 hr').1.symm.trans hr)
  exact ⟨folder, hfolder, horg k hmem r' hr'⟩

theorem deleteFolderRoute_keeps (hi : FoldersInTenant s) {id routeId : String} :
    Keeps (deleteFolderRoute u d id routeId) FoldersInTenant s := by
  simp only [Keeps, deleteFolderRoute, authorize, requireRouteManage, wp_bind, wp_require, wp_read]
  refine ⟨fun _ => ⟨fun _ => wp_requireFolderManage (fun _ _ => ?_) fun _ => hi, fun _ => hi⟩, fun _ => hi⟩
  rw [wp_bind]
  refine wp_mono (moveMany_keeps hi rfl ?_) (fun n s' h => ?_) fun _ _ h => h
  · intro _ _ _ _ f hf
    cases hf
  · rw [wp_require]
    exact ⟨fun _ => h, fun _ => h⟩

end FolderStep

/-! ## Runs -/

theorem step_in_tenant {W : World} {s : Store} {q : Request} (hi : FoldersInTenant s) (hc : KeepsFolders W s q) :
    FoldersInTenant (step W s q) := by
  by_cases hq : ∀ op, q.endpoint ≠ .folder op
  · exact step_other hi hc hq
  · push Not at hq
    obtain ⟨op, he⟩ := hq
    obtain ⟨u, d, e⟩ := q
    obtain rfl : e = .folder op := he
    cases op with
    | create body => exact wp_final (postFolder_keeps hi (hc.fresh body rfl))
    | update id body => exact wp_final (putFolder_keeps hi)
    | delete id => exact wp_final (deleteFolder_tenant hi)
    | moveRoutes id body => exact wp_final (postFolderRoutes_keeps hi)
    | removeRoute id routeId => exact wp_final (deleteFolderRoute_keeps hi)

theorem Store.NoRoutes.in_tenant {s : Store} (h : s.NoRoutes) : FoldersInTenant s where
  present k r f hr := by rw [h.routes] at hr; cases hr
  route k r hr := by rw [h.routes] at hr; cases hr
  version k v hv := by rw [h.routeVersions] at hv; cases hv

/-- On every run from a store without routes in which no update moves a route that is in a
    folder to another organization, every route that is in a folder is of the folder's
    organization, and so is what a key reaches through a folder it is bound to. -/
theorem folders_in_tenant {W : World} {s : Store} {qs : List Request} (hs : s.NoRoutes)
    (hq : Along (step W) (KeepsFolders W) s qs) :
    FolderTenancy (run (step W) s qs) ∧
      ∀ (key : ApiKey) (k : String) (r : Row), (run (step W) s qs).routes.get? k = some r →
        key.covers k (r.text .folderId) = true → key.routeId = k ∨ k ∈ key.sharedRoutes ∨
          ∃ f ∈ key.sharedFolders, ∃ folder, (run (step W) s qs).routeFolders.get? f = some folder ∧
            r.val .organizationId = folder.org := by
  have htenancy := (run_keeps (fun _ _ hi hc => step_in_tenant hi hc) hs.in_tenant hq).tenancy
  exact ⟨htenancy, fun key k r hr hc => htenancy.covers hr hc⟩

/-! ## A folder left behind -/

/-- An organization with an owner and another one, and no routes. -/
def ownAndOther : Store := { oneOrganization with organizations := oneOrganization.organizations.insert "other" { name := "Other" } }

theorem ownAndOther_noRoutes : ownAndOther.NoRoutes :=
  ⟨fun _ => rfl, fun _ => rfl, fun _ => rfl, fun _ => rfl, fun _ => rfl⟩

/-- A route is created, a folder of its organization, and the route moved into it. -/
def routeFiled : List Request :=
  [createRequest,
   ⟨owner, Draw.plain, .folder (.create (.obj [("name", .str "Folder"), ("organizationId", .str "org")]))⟩,
   ⟨owner, Draw.plain, .folder (.moveRoutes "row" (.obj [("routeIds", .arr [.str "route"])]))⟩]

/-- And then its organization is named. -/
def filedAndUpdated (organizationId : Json) : List Request :=
  routeFiled ++ [⟨owner, { Draw.plain with versionId := "updated" }, .route (.update "route" (.obj [("organizationId", organizationId)]))⟩]

/-- Naming the organization the route is in. -/
theorem folders_in_tenant_updated : FolderTenancy (run (step World.plain) ownAndOther (filedAndUpdated (.str "org"))) := by
  have hq : Along (step World.plain) (KeepsFolders World.plain) ownAndOther (filedAndUpdated (.str "org")) := by
    refine ⟨⟨nofun, nofun⟩, ⟨nofun, ?_⟩, ⟨nofun, nofun⟩, ⟨?_, nofun⟩, trivial⟩
    · intro body _ k v hv
      have hall : ∀ p ∈ (step World.plain ownAndOther createRequest).routeVersions.rows, p.2.snapshot .folderId ≠ .str "row" := by
        decide +kernel
      exact hall (k, v) (mem_rows_iff.2 hv)
    · intro id body data r v he hd hr _ _ _ hv
      cases he
      have route : (liveRoute? (run (step World.plain) ownAndOther routeFiled) "route").map (fun r => r.val .organizationId) =
          some (.str "org") := by
        decide +kernel
      have named : ((routeData World.plain (partialUpdate (routeBodySchema World.plain))
          (.obj [("organizationId", .str "org")])).toOption.bind fun data => data .organizationId) = some (.str "org") := by
        decide +kernel
      obtain ⟨r', hr', horg⟩ := Option.map_eq_some_iff.1 route
      obtain rfl : r' = r := Option.some.inj (hr'.symm.trans hr)
      rw [hd] at named
      rw [horg]
      exact Option.some.inj (hv.symm.trans named)
  exact (folders_in_tenant ownAndOther_noRoutes hq).1

/-- The route is in another organization, and still in the folder. -/
theorem an_update_leaves_the_folder_behind :
    ¬ ∀ (W : World) (s : Store) (qs : List Request), s.NoRoutes → FolderTenancy (run (step W) s qs) := by
  intro h
  have moved : ((run (step World.plain) ownAndOther (filedAndUpdated (.str "other"))).routes.get? "route").map
      (fun r => (r.val .folderId, r.val .organizationId)) = some (.str "row", .str "other") := by
    decide +kernel
  have folder : ((run (step World.plain) ownAndOther (filedAndUpdated (.str "other"))).routeFolders.get? "row").map
      RouteFolder.org = some (.str "org") := by
    decide +kernel
  obtain ⟨r, hr, hrow⟩ := Option.map_eq_some_iff.1 moved
  obtain ⟨hfolder, horg⟩ := Prod.mk.inj hrow
  obtain ⟨f, found, hf, hfound, hsame⟩ := h _ _ _ ownAndOther_noRoutes "route" r hr (by rw [hfolder]; nofun)
  obtain rfl : "row" = f := Json.str.inj (hfolder.symm.trans hf)
  rw [hfound, Option.map_some, Option.some.injEq] at folder
  rw [horg, folder] at hsame
  exact absurd hsame (by decide)

end ClusterGate
