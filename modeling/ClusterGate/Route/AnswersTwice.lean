/-
  ClusterGate.Route.AnswersTwice — the endpoints that write, called in two stores that
  differ only in the values of secrets.

  Publishing, deactivating, restoring and duplicating answer with a row that has the
  secrets of the route they found (`shown_iff`); an update tells what its write leaves, and
  a filed one what it would change.
  - `publish_told`, `deactivate_told`, `restore_told`, `duplicate_told`.
  - `putRoute_told`, `restoreVersion_told`.
-/

import ClusterGate.Route.UpdateTwice

namespace ClusterGate

open Lib Lib.Act Lib.Table Lib.Zod

/-! ## Stores that differ in secrets -/

/-- The same but for secrets, which are texts in both. -/
def SecretsAside (f f' : Column → Json) : Prop :=
  ∀ c, f c = f' c ∨ (c ∈ secretColumns ∧ (f c).isStr = true ∧ (f' c).isStr = true)

structure VersionAside (v v' : RouteVersion) : Prop where
  routeId : v.routeId = v'.routeId
  version : v.version = v'.version
  createdById : v.createdById = v'.createdById
  snapshot : SecretsAside v.snapshot v'.snapshot

/-- Two stores that differ only in the values of routes' secrets, in rows and snapshots: a
    secret that is null in one is null in the other. -/
structure SameButSecrets (s t : Store) : Prop where
  organizations : s.organizations = t.organizations
  orgMemberships : s.orgMemberships = t.orgMemberships
  teams : s.teams = t.teams
  routeGroups : s.routeGroups = t.routeGroups
  routeFolders : s.routeFolders = t.routeFolders
  routeTargets : s.routeTargets = t.routeTargets
  transformRules : s.transformRules = t.transformRules
  changeRequests : s.changeRequests = t.changeRequests
  routes : Table.Alike (fun r r' => SecretsAside r.val r'.val) s.routes t.routes
  routeVersions : Table.Alike VersionAside s.routeVersions t.routeVersions

theorem SecretsAside.public {f f' : Column → Json} (h : SecretsAside f f') : PublicAlike f f' :=
  fun c hc => (h c).resolve_right fun hs => hc hs.1

theorem SameButSecrets.veiled {s t : Store} (h : SameButSecrets s t) : Veiled s t where
  organizations := h.organizations
  orgMemberships := h.orgMemberships
  teams := h.teams
  routeGroups := h.routeGroups
  routeFolders := h.routeFolders
  routeTargets := h.routeTargets
  transformRules := h.transformRules
  changeRequests := h.changeRequests ▸ Table.Alike.refl (fun _ => trivial) s.changeRequests
  routes := h.routes.mono fun _ _ hr => hr.public
  routeVersions := h.routeVersions.mono fun _ _ hv => ⟨hv.routeId, hv.version, hv.createdById, hv.snapshot.public⟩

/-- The secrets are empty in both or in neither. -/
def BlankAlike (f f' : Column → Json) : Prop := ∀ c ∈ secretColumns, (f c).truthy = (f' c).truthy

/-- Two masked texts differ where one is empty. -/
theorem masked_text (a b : String) : (if (Json.str a).truthy = true then MASK else .str a) =
    (if (Json.str b).truthy = true then MASK else .str b) ↔ (Json.str a).truthy = (Json.str b).truthy := by
  by_cases ha : a = ""
  · by_cases hb : b = ""
    · simp [ha, hb]
    · simp [ha, hb, MASK, Json.truthy, Ne.symm]
  · by_cases hb : b = ""
    · simp [ha, hb, MASK, Json.truthy]
    · simp [ha, hb, Json.truthy]

/-- Masked, secrets differ only where one is empty. -/
theorem masked_iff {f f' : Column → Json} (h : SecretsAside f f') :
    stripSensitiveRouteFields f = stripSensitiveRouteFields f' ↔ BlankAlike f f' := by
  have sensitive : ∀ c, c ∈ SENSITIVE_ROUTE_FIELDS ↔ c ∈ secretColumns := by decide
  have column : ∀ c, stripSensitiveRouteFields f c = stripSensitiveRouteFields f' c ↔
      (c ∈ secretColumns → (f c).truthy = (f' c).truthy) := by
    intro c
    simp only [stripSensitiveRouteFields, sensitive]
    rcases h c with hsame | ⟨hc, hstr, hstr'⟩
    · rw [hsame]
      exact iff_of_true rfl fun _ => rfl
    · obtain ⟨a, ha⟩ := Json.isStr_iff.1 hstr
      obtain ⟨b, hb⟩ := Json.isStr_iff.1 hstr'
      simp only [hc, true_and, ha, hb, true_implies]
      exact masked_text a b
  constructor
  · intro he c hc
    exact (column c).1 (congrFun he c) hc
  · exact fun hb => funext fun c => (column c).2 (hb c)

/-! ## Rows as they are stored -/

/-- Where two calls each return a row with the secrets of one they found, they return the
    same when the two they found have the same secrets. -/
theorem shown_iff {s t : Store} {x y : Handler Row} {P P' : Row → Prop} (h : Act.Alike Veiled RowAlike x y s t)
    (hx : wp x (fun a _ => ∃ r, P r ∧ SecretsSame a.val r.val) (fun _ _ => ∀ r, ¬P r) s)
    (hy : wp y (fun a _ => ∃ r, P' r ∧ SecretsSame a.val r.val) (fun _ _ => ∀ r, ¬P' r) t)
    (one : ∀ r₁ r₂, P r₁ → P r₂ → r₁ = r₂) (one' : ∀ r₁ r₂, P' r₁ → P' r₂ → r₁ = r₂) :
    (x s).1 = (y t).1 ↔ ∀ r r', P r → P' r' → SecretsSame r.val r'.val := by
  constructor
  · intro hsame r r' hp hp' c hc
    cases hok : (x s).1 with
    | error e => exact absurd hp (wp_outcome_error hx hok r)
    | ok a =>
      obtain ⟨r₁, hp₁, hs₁⟩ := wp_outcome_ok hx hok
      obtain ⟨r₂, hp₂, hs₂⟩ := wp_outcome_ok hy (hsame ▸ hok)
      obtain rfl := one r r₁ hp hp₁
      obtain rfl := one' r' r₂ hp' hp₂
      rw [← hs₁ c hc, ← hs₂ c hc]
  · intro hall
    refine h.outcome_iff.2 fun a b ha hb hab => hab.eq_iff.2 fun c hc => ?_
    obtain ⟨r, hp, hs⟩ := wp_outcome_ok hx ha
    obtain ⟨r', hp', hs'⟩ := wp_outcome_ok hy hb
    rw [hs c hc, hs' c hc, hall r r' hp hp' c hc]

/-- The caller may manage the route, which is live. -/
structure Managed (s : Store) (u : Caller) (id : String) (r : Row) : Prop where
  manages : u.role = .ADMIN ∨ canManageRoute s u id = true
  found : liveRoute? s id = some r

/-- The caller may restore the route, which is archived, and the database takes it back. -/
structure Restorable (s : Store) (u : Caller) (now id : String) (r : Row) : Prop where
  found : archivedRoute? s id = some r
  deletes : u.role = .ADMIN ∨ ∃ org ∈ r.orgId, canDeleteOrgRoutes s u org = true
  takes : Takes s now id (restoreData s id u.userId r)

/-- The caller may manage the route, and the database takes a copy of it. -/
structure Copied (s : Store) (u : Caller) (d : Draw) (id : String) (r : Row) : Prop extends Managed s u id r where
  takes : ∃ row, newRow d.now (duplicateData s u.userId r) = some row ∧ s.routes.get? d.routeId = none ∧
    uniqueOk s d.routeId (fun c => some (row.val c)) row = true ∧ refsOk s (fun c => some (row.val c)) row = true

section Stored

variable {s t : Store} {u : Caller} {d : Draw} {id : String}

theorem Managed.one (r₁ r₂ : Row) (h₁ : Managed s u id r₁) (h₂ : Managed s u id r₂) : r₁ = r₂ :=
  Option.some.inj (h₁.found.symm.trans h₂.found)

theorem requireManage_same (h : Veiled s t) :
    Act.Alike Veiled (fun _ _ => True) (requireManage u id) (requireManage u id) s t := by
  unfold requireManage
  refine alike_read_bind ?_
  rw [canManageRoute_same h]
  exact (alike_require Iff.rfl h).mono fun _ _ _ => trivial

/-- A write of other columns keeps the secrets. -/
theorem routeWrite_keeps_secrets {now : String} {data : Patch} {r row : Row} (hr : s.routes.get? id = some r)
    (hd : ∀ c ∈ secretColumns, data c = none) (hw : routeWrite s now id data = .ok row) : SecretsSame row.val r.val := by
  obtain ⟨old, ho, hrow⟩ := routeWrite_ok hw
  obtain rfl : r = old := Option.some.inj (hr.symm.trans ho)
  intro c hc
  refine write_same hrow ?_
  have ht : c ≠ .updatedAt := by
    intro e
    subst e
    exact absurd hc (by decide)
  rw [stamped_ne ht, hd c hc]

/-- A write of what the columns may hold, and of no reference or path, is taken. -/
theorem takes_plain {now : String} {data : Patch} {r : Row} (hr : s.routes.get? id = some r)
    (ha : ∀ c v, data c = some v → c.admits v = true)
    (hn : ∀ c ∈ [Column.publicPath, .slug, .organizationId, .routeGroupId, .folderId], data c = none) :
    Takes s now id data := by
  have hsome : (r.write (stamped now data)).isSome := by
    refine write_isSome.2 fun c => ?_
    unfold written
    cases hc : stamped now data c with
    | none => rfl
    | some v =>
      dsimp only
      rw [writeField_plain]
      · rfl
      · by_cases ht : c = .updatedAt
        · subst ht
          rw [stamped, Patch.set_same] at hc
          exact Option.some.inj hc ▸ rfl
        · rw [stamped_ne ht] at hc
          exact ha c v hc
  obtain ⟨row, hrow⟩ := Option.isSome_iff_exists.1 hsome
  refine ⟨r, row, hr, hrow, ?_, ?_⟩
  · unfold uniqueOk
    rw [hn .publicPath (by decide), hn .slug (by decide)]
    rfl
  · unfold refsOk
    rw [hn .organizationId (by decide), hn .routeGroupId (by decide), hn .folderId (by decide)]
    rfl

/-- A write of other columns touches none of these. -/
theorem untouched {kvs : List (Column × Json)} {cs : List Column} (h : ∀ c ∈ cs, c ∉ kvs.map Prod.fst) :
    ∀ c ∈ cs, Patch.ofList kvs c = none := fun c hc => Patch.ofList_none (h c hc)

/-- A write of plain values to a live route that a caller may manage. -/
theorem managedWrite_told (h : Veiled s t) {kvs : List (Column × Json)} (hs : ∀ c ∈ secretColumns, c ∉ kvs.map Prod.fst)
    (ha : ∀ x ∈ kvs, x.1.admits x.2 = true)
    (hn : ∀ c ∈ [Column.publicPath, .slug, .organizationId, .routeGroupId, .folderId], c ∉ kvs.map Prod.fst) :
    let x : Handler Row := do
      requireManage u id
      let _ ← findLive id
      routeUpdate d.now id (Patch.ofList kvs)
    (x s).1 = (x t).1 ↔ ∀ r r', Managed s u id r → Managed t u id r' → SecretsSame r.val r'.val := by
  intro x
  have spec : ∀ s, wp x (fun a _ => ∃ r, Managed s u id r ∧ SecretsSame a.val r.val) (fun _ _ => ∀ r, ¬Managed s u id r) s := by
    intro s
    simp only [x, requireManage, findLive, wp_bind, wp_read, wp_require, wp_orThrow]
    refine ⟨fun hm => ⟨fun r hr => ?_, fun hnone r hmr => ?_⟩, fun hno r hmr => hno hmr.manages⟩
    · have hg := (liveRoute?_iff.1 hr).1
      refine wp_mono routeUpdate_spec ?_ ?_
      · intro row _ hw
        exact ⟨r, ⟨hm, hr⟩, routeWrite_keeps_secrets hg (untouched hs) hw.1⟩
      · intro e _ hw
        have takes : Takes s d.now id (Patch.ofList kvs) :=
          takes_plain hg (fun c v hv => ha (c, v) (Patch.mem_of_ofList hv)) (untouched hn)
        obtain ⟨row, hrow⟩ := routeWrite_takes.2 takes
        rw [hrow] at hw
        cases hw.1
    · rw [hmr.found] at hnone
      cases hnone
  refine shown_iff ?_ (spec s) (spec t) Managed.one Managed.one
  refine alike_bind (requireManage_same h) fun _ _ s t _ h => alike_bind (findLive_alike h) fun _ _ s t _ h => ?_
  exact routeUpdate_alike h (PatchAlike.refl _)

theorem publish_told (h : Veiled s t) :
    ((postPublish u d id) s).1 = ((postPublish u d id) t).1 ↔
      ∀ r r', Managed s u id r → Managed t u id r' → SecretsSame r.val r'.val := by
  refine managedWrite_told h ?_ (fun x hx => ?_) ?_
  · show ∀ c ∈ secretColumns, c ∉ [Column.status, .isActive, .updatedById]
    decide
  · simp only [List.mem_cons, List.not_mem_nil, or_false] at hx
    rcases hx with rfl | rfl | rfl <;> rfl
  · show ∀ c ∈ [Column.publicPath, .slug, .organizationId, .routeGroupId, .folderId],
      c ∉ [Column.status, .isActive, .updatedById]
    decide

theorem deactivate_told (h : Veiled s t) :
    ((postDeactivate u d id) s).1 = ((postDeactivate u d id) t).1 ↔
      ∀ r r', Managed s u id r → Managed t u id r' → SecretsSame r.val r'.val := by
  refine managedWrite_told h ?_ (fun x hx => ?_) ?_
  · show ∀ c ∈ secretColumns, c ∉ [Column.isActive, .updatedById]
    decide
  · simp only [List.mem_cons, List.not_mem_nil, or_false] at hx
    rcases hx with rfl | rfl <;> rfl
  · show ∀ c ∈ [Column.publicPath, .slug, .organizationId, .routeGroupId, .folderId], c ∉ [Column.isActive, .updatedById]
    decide

theorem requireArchivedDelete_same (h : Veiled s t) (verb : String) :
    Act.Alike Veiled (fun _ _ => True) (requireArchivedDelete u id verb) (requireArchivedDelete u id verb) s t := by
  unfold requireArchivedDelete
  refine alike_read_bind (alike_bind (alike_orThrow (archivedRoute?_alike h id) h) fun r r' s' t' hr hv => ?_)
  rw [hr.1.orgId, canDeleteOrgRoutes_same h]
  refine alike_bind (alike_require Iff.rfl hv) fun _ _ s t _ h => ?_
  exact (alike_require Iff.rfl h).mono fun _ _ _ => trivial

theorem restore_told (h : Veiled s t) :
    ((postRestore u d id) s).1 = ((postRestore u d id) t).1 ↔
      ∀ r r', Restorable s u d.now id r → Restorable t u d.now id r' → SecretsSame r.val r'.val := by
  have secrets : ∀ (s : Store) (r : Row), ∀ c ∈ secretColumns, restoreData s id u.userId r c = none := by
    intro s r
    refine untouched ?_
    show ∀ c ∈ secretColumns, c ∉ [Column.deletedAt, .isActive, .status, .publicPath, .slug, .updatedById]
    decide
  have spec : ∀ s, wp (postRestore u d id) (fun a _ => ∃ r, Restorable s u d.now id r ∧ SecretsSame a.val r.val)
      (fun _ _ => ∀ r, ¬Restorable s u d.now id r) s := by
    intro s
    have one : ∀ {r r' : Row}, archivedRoute? s id = some r → Restorable s u d.now id r' → r = r' := fun hr hres =>
      Option.some.inj (hr.symm.trans hres.found)
    simp only [postRestore, requireArchivedDelete, restoreRoute, findArchived, wp_bind, wp_read, wp_orThrow, wp_require]
    refine ⟨fun r hr => ⟨fun _ => ⟨fun hd => ⟨fun r' hr' => ?_, ?_⟩, ?_⟩, ?_⟩, ?_⟩
    · obtain rfl : r = r' := Option.some.inj (hr.symm.trans hr')
      refine wp_mono routeUpdate_spec ?_ ?_
      · intro row _ hw
        exact ⟨r, ⟨hr, hd, routeWrite_takes.1 ⟨row, hw.1⟩⟩,
          routeWrite_keeps_secrets (archivedRoute?_iff.1 hr).1 (secrets s r) hw.1⟩
      · intro e _ hw r' hres
        obtain rfl := one hr hres
        obtain ⟨row, hrow⟩ := routeWrite_takes.2 hres.takes
        rw [hrow] at hw
        cases hw.1
    · intro hnone
      rw [hr] at hnone
      cases hnone
    · intro hno r' hres
      obtain rfl := one hr hres
      exact hno hres.deletes
    · intro hno r' hres
      obtain rfl := one hr hres
      rcases hres.deletes with ha | ⟨org, ho, -⟩
      · exact hno (.inl ha)
      · exact hno (.inr (Option.isSome_of_mem ho))
    · intro hnone r' hres
      rw [hres.found] at hnone
      cases hnone
  have one : ∀ s r₁ r₂, Restorable s u d.now id r₁ → Restorable s u d.now id r₂ → r₁ = r₂ :=
    fun _ _ _ h₁ h₂ => Option.some.inj (h₁.found.symm.trans h₂.found)
  refine shown_iff ?_ (spec s) (spec t) (one s) (one t)
  exact alike_bind (requireArchivedDelete_same h _) fun _ _ _ _ _ h => restoreRoute_alike h

/-- A copy has the secrets of the route it is made of. -/
theorem newRow_secrets {r row : Row} (h : newRow d.now (duplicateData s u.userId r) = some row) : SecretsSame row.val r.val := by
  intro c hc
  have hcopy : stamped d.now ((duplicateData s u.userId r).set .createdAt (.str d.now)) c = some (r.val c) := by
    simp only [secretColumns, List.mem_cons, List.not_mem_nil, or_false] at hc
    rcases hc with rfl | rfl | rfl <;> rfl
  exact create_given h hcopy (Column.coerce_admitted (r.typed c))

theorem duplicate_told (h : Veiled s t) :
    ((postDuplicate u d id) s).1 = ((postDuplicate u d id) t).1 ↔
      ∀ r r', Copied s u d id r → Copied t u d id r' → SecretsSame r.val r'.val := by
  have spec : ∀ s, wp (postDuplicate u d id) (fun a _ => ∃ r, Copied s u d id r ∧ SecretsSame a.val r.val)
      (fun _ _ => ∀ r, ¬Copied s u d id r) s := by
    intro s
    simp only [postDuplicate, requireManage, duplicateRoute, findLive, routeCreate, wp_bind, wp_read, wp_require,
      wp_orThrow, wp_modify, wp_pure]
    refine ⟨fun hm => ⟨fun r hr => ?_, fun hnone r hcop => ?_⟩, fun hno r hcop => hno hcop.manages⟩
    · have one : ∀ {r'}, Copied s u d id r' → r = r' := fun hcop => Option.some.inj (hr.symm.trans hcop.found)
      refine ⟨fun row hrow => ⟨fun hu => ⟨fun hf => ?_, ?_⟩, ?_⟩, ?_⟩
      · exact ⟨r, ⟨⟨hm, hr⟩, row, hrow, Option.isNone_iff_eq_none.1 hu.1, hu.2, hf⟩, newRow_secrets hrow⟩
      · intro hno r' hcop
        obtain rfl := one hcop
        obtain ⟨row', hrow', -, -, hf⟩ := hcop.takes
        obtain rfl : row = row' := Option.some.inj (hrow.symm.trans hrow')
        exact hno hf
      · intro hno r' hcop
        obtain rfl := one hcop
        obtain ⟨row', hrow', hfree, hu, -⟩ := hcop.takes
        obtain rfl : row = row' := Option.some.inj (hrow.symm.trans hrow')
        exact hno ⟨Option.isNone_iff_eq_none.2 hfree, hu⟩
      · intro hnone r' hcop
        obtain rfl := one hcop
        obtain ⟨row', hrow', -⟩ := hcop.takes
        rw [newRow] at hrow'
        rw [hrow'] at hnone
        cases hnone
    · rw [hcop.found] at hnone
      cases hnone
  have one : ∀ s r₁ r₂, Copied s u d id r₁ → Copied s u d id r₂ → r₁ = r₂ :=
    fun _ _ _ h₁ h₂ => Managed.one _ _ h₁.toManaged h₂.toManaged
  refine shown_iff ?_ (spec s) (spec t) (one s) (one t)
  exact alike_bind (requireManage_same h) fun _ _ _ _ _ h => duplicateRoute_alike h

end Stored

/-! ## Updates -/

/-- The target the data names is allowed in the route's organization. -/
def TargetAllowed (W : World) (s : Store) (r : Row) (data : Patch) : Prop :=
  ((data .targetUrl).getD .null).truthy = true →
    targetRefused W s (textOf (data .targetUrl)) (r.val .organizationId) = none

/-- A secret may be any text. -/
theorem secret_admits {c : Column} (hc : c ∈ secretColumns) {v : Json} (hv : v.isStr = true) : c.admits v = true := by
  simp only [secretColumns, List.mem_cons, List.not_mem_nil, or_false] at hc
  rcases hc with rfl | rfl | rfl <;> simp [Column.admits, Column.type, ColType.admits, hv]

/-- A filed update shows what each field would be changed from. -/
def RequestTold (W : World) (d : Draw) (id : String) (s t : Store) (data : Patch) : Prop :=
  ∀ r r', liveRoute? s id = some r → liveRoute? t id = some r' → TargetAllowed W s r data →
    s.changeRequests.get? d.rowId = none → ∀ c ∈ secretColumns, (data c).isSome → r.val c = r'.val c

section Updates

variable {W : World} {s t : Store} {u : Caller} {d : Draw} {id : String} {data : Patch} {r r' : Row}

theorem diffOf_column {c : Column} :
    diffOf r data c = diffOf r' data c ↔ ((data c).isSome → r.val c = r'.val c) := by
  unfold diffOf
  cases data c with
  | none => simp
  | some v =>
    by_cases h : v = r.val c
    · by_cases h' : v = r'.val c
      · simp [Option.filter, ← h, ← h']
      · simp [Option.filter, ← h, h']
    · by_cases h' : v = r'.val c
      · simp [Option.filter, h, ← h']
        exact fun e => h e.symm
      · simp [Option.filter, h, h']

theorem diffOf_same (hr : RowAlike r r') :
    diffOf r data = diffOf r' data ↔ ∀ c ∈ secretColumns, (data c).isSome → r.val c = r'.val c := by
  constructor
  · exact fun he c _ => diffOf_column.1 (congrFun he c)
  · intro hs
    refine funext fun c => diffOf_column.2 fun hc => ?_
    by_cases hm : c ∈ secretColumns
    · exact hs c hm hc
    · exact hr c hm

/-- A request says how many fields the data would change, as the diff does. -/
theorem updateRequest_same (hr : RowAlike r r') (hd : diffOf r data = diffOf r' data) :
    updateRequest u id r data = updateRequest u id r' data := by
  have changed : changedFields r data = changedFields r' data := by
    unfold changedFields
    refine congrArg List.length (List.filter_congr fun c _ => ?_)
    have hc := diffOf_column.1 (congrFun hd c)
    cases hv : data c with
    | none => rfl
    | some v =>
      rw [hv] at hc
      dsimp only
      rw [hc rfl]
  unfold updateRequest
  rw [changed, hr.text (by decide)]

theorem crCreate_same {cr cr' : ChangeRequest} (h : Veiled s t) (hc : cr.routeId = cr'.routeId) :
    Act.Alike Veiled (fun _ _ => True) (crCreate d.rowId cr) (crCreate d.rowId cr') s t := by
  have free : (s.changeRequests.get? d.rowId).isNone = (t.changeRequests.get? d.rowId).isNone := by
    have hrow := h.changeRequests.get? d.rowId
    generalize s.changeRequests.get? d.rowId = o at hrow
    generalize t.changeRequests.get? d.rowId = o' at hrow
    cases hrow <;> rfl
  have there : ∀ k, (s.routes.get? k).isSome = (t.routes.get? k).isSome := by
    intro k
    have hrow := h.routes.get? k
    generalize s.routes.get? k = o at hrow
    generalize t.routes.get? k = o' at hrow
    cases hrow <;> rfl
  unfold crCreate
  refine alike_read_bind (alike_bind (alike_require (by rw [free]) h) fun _ _ s t _ h => ?_)
  refine alike_bind (alike_require ?_ h) fun _ _ s t _ h => ?_
  · rw [hc]
    exact forall_congr' fun k => by rw [there k]
  · exact (alike_modify { h with changeRequests := h.changeRequests.insert trivial }).mono fun _ _ _ => trivial

theorem requestUpdate_alike (h : Veiled s t) :
    Act.Alike Veiled (fun _ _ => True) (requestUpdate W u d id data) (requestUpdate W u d id data) s t := by
  unfold requestUpdate
  refine alike_bind (findLive_alike h) fun r r' s t hr h => ?_
  have org : r.val .organizationId = r'.val .organizationId := hr.1 .organizationId (by decide)
  rw [org]
  refine alike_bind (alike_when Iff.rfl h fun _ => assertRouteTargetAllowed_same h rfl rfl) fun _ _ s t _ h => ?_
  exact alike_bind (crCreate_same h rfl) fun _ _ s t _ h => alike_pure h trivial

theorem requestUpdate_spec :
    wp (requestUpdate W u d id data)
      (fun a _ => ∃ r, liveRoute? s id = some r ∧ TargetAllowed W s r data ∧ s.changeRequests.get? d.rowId = none ∧
        a = (updateRequest u id r data, diffOf r data))
      (fun _ _ => ∀ r, liveRoute? s id = some r → TargetAllowed W s r data → s.changeRequests.get? d.rowId ≠ none) s := by
  have file : ∀ r, liveRoute? s id = some r → TargetAllowed W s r data →
      wp (do
        crCreate d.rowId (updateRequest u id r data)
        pure (updateRequest u id r data, diffOf r data))
        (fun a _ => ∃ r, liveRoute? s id = some r ∧ TargetAllowed W s r data ∧ s.changeRequests.get? d.rowId = none ∧
          a = (updateRequest u id r data, diffOf r data))
        (fun _ _ => ∀ r, liveRoute? s id = some r → TargetAllowed W s r data → s.changeRequests.get? d.rowId ≠ none) s := by
    intro r hr ht
    simp only [crCreate, wp_bind, wp_read, wp_require, wp_modify, wp_pure]
    refine ⟨fun hf => ⟨fun _ => ⟨r, hr, ht, Option.isNone_iff_eq_none.1 hf, rfl⟩, fun hno => ?_⟩, fun hno _ _ _ hf => ?_⟩
    · refine absurd (fun k hk => ?_) hno
      obtain rfl : id = k := Option.some.inj hk
      rw [(liveRoute?_iff.1 hr).1]
      rfl
    · exact hno (Option.isNone_iff_eq_none.2 hf)
  unfold requestUpdate findLive
  simp only [wp_bind, wp_read, wp_orThrow]
  refine ⟨fun r hr => ?_, fun hnone r hr => by rw [hr] at hnone; cases hnone⟩
  rw [wp_when, wp_assertRouteTargetAllowed]
  refine ⟨fun hu => ⟨fun ht => file r hr fun _ => ht, fun m hm r' hr' ht' => ?_⟩, fun hu => file r hr fun h => absurd h hu⟩
  obtain rfl : r = r' := Option.some.inj (hr.symm.trans hr')
  have hallowed := ht' hu
  rw [hm] at hallowed
  cases hallowed

theorem requestUpdate_told (h : Veiled s t) :
    ((requestUpdate W u d id data) s).1 = ((requestUpdate W u d id data) t).1 ↔ RequestTold W d id s t data := by
  constructor
  · intro hsame r r' hr hr' ht hf c hc
    cases hok : ((requestUpdate W u d id data) s).1 with
    | error e => exact absurd hf (wp_outcome_error requestUpdate_spec hok r hr ht)
    | ok a =>
      obtain ⟨r₁, hr₁, -, -, ha⟩ := wp_outcome_ok requestUpdate_spec hok
      obtain ⟨r₂, hr₂, -, -, ha'⟩ := wp_outcome_ok requestUpdate_spec (hsame ▸ hok)
      obtain rfl : r = r₁ := Option.some.inj (hr.symm.trans hr₁)
      obtain rfl : r' = r₂ := Option.some.inj (hr'.symm.trans hr₂)
      have hdiff : diffOf r data = diffOf r' data := congrArg Prod.snd (ha.symm.trans ha')
      exact diffOf_column.1 (congrFun hdiff c)
  · intro htold
    refine (requestUpdate_alike h).outcome_iff.2 fun a b ha hb _ => ?_
    obtain ⟨r, hr, ht, hf, rfl⟩ := wp_outcome_ok requestUpdate_spec ha
    obtain ⟨r', hr', -, -, rfl⟩ := wp_outcome_ok requestUpdate_spec hb
    have hrow := liveRoute?_alike h id
    rw [hr, hr'] at hrow
    obtain ⟨hrow⟩ := hrow
    have hdiff := (diffOf_same hrow).2 (htold r r' hr hr' ht hf)
    rw [updateRequest_same hrow hdiff, hdiff]

/-- What `PUT /:id` tells: of the write, or of the request it files. -/
def PutTold (W : World) (u : Caller) (d : Draw) (id : String) (body : Json) (s t : Store) : Prop :=
  ∀ data, routeData W (partialUpdate (routeBodySchema W)) body = .ok data →
    (u.role = .ADMIN ∨ canManageRoute s u id = true) →
    if canBypass s u id then UpdateTold W d id u.userId s t data data else RequestTold W d id s t data

theorem written_injective : Function.Injective Updated.written := fun _ _ h => Updated.written.inj h

theorem requested_injective : Function.Injective fun filed : ChangeRequest × Diff => Updated.requested filed.1 filed.2 :=
  fun _ _ h => Prod.ext (Updated.requested.inj h).1 (Updated.requested.inj h).2

theorem putRoute_refused {body : Json} (hd : routeData W (partialUpdate (routeBodySchema W)) body = .ok data)
    (hm : ¬(u.role = .ADMIN ∨ canManageRoute s u id = true)) :
    putRoute W u d id body s =
      (throw (respond 403 "You need Owner or Admin role in this route's organization") : Handler Updated) s := by
  unfold putRoute
  rw [hd]
  show (require _ _ >>= _ : Handler Updated) s = _
  rw [require_bind_not hm]

theorem putRoute_bypass {body : Json} (hd : routeData W (partialUpdate (routeBodySchema W)) body = .ok data)
    (hm : u.role = .ADMIN ∨ canManageRoute s u id = true) (hb : canBypass s u id = true) :
    putRoute W u d id body s = (do let route ← updateRoute W d id data u.userId; pure (.written route) : Handler Updated) s := by
  unfold putRoute
  rw [hd]
  show (require _ _ >>= _ : Handler Updated) s = _
  rw [require_bind hm, if_pos hb]

theorem putRoute_files {body : Json} (hd : routeData W (partialUpdate (routeBodySchema W)) body = .ok data)
    (hm : u.role = .ADMIN ∨ canManageRoute s u id = true) (hb : canBypass s u id = false) :
    putRoute W u d id body s =
      (do let filed ← requestUpdate W u d id data; pure (.requested filed.1 filed.2) : Handler Updated) s := by
  unfold putRoute
  rw [hd]
  show (require _ _ >>= _ : Handler Updated) s = _
  rw [require_bind hm, if_neg (by rw [hb]; decide)]

theorem putRoute_told {body : Json} (h : Veiled s t) :
    ((putRoute W u d id body) s).1 = ((putRoute W u d id body) t).1 ↔ PutTold W u d id body s t := by
  unfold PutTold
  cases hd : routeData W (partialUpdate (routeBodySchema W)) body with
  | error e =>
    refine iff_of_true ?_ fun data hdata => by cases hdata
    unfold putRoute
    rw [hd]
    rfl
  | ok data =>
    have hver : ∀ data, routeData W (partialUpdate (routeBodySchema W)) body = .ok data → data .version = none :=
      fun data hd => routeData_noField hd rfl
    have hmanage : canManageRoute s u id = canManageRoute t u id := canManageRoute_same h
    have hbypass : canBypass s u id = canBypass t u id := canBypass_same h
    by_cases hm : u.role = .ADMIN ∨ canManageRoute s u id = true
    · have hm' : u.role = .ADMIN ∨ canManageRoute t u id = true := hmanage ▸ hm
      cases hb : canBypass s u id with
      | true =>
        rw [putRoute_bypass hd hm hb, putRoute_bypass hd hm' (hbypass ▸ hb), outcome_map_iff written_injective,
          updateRoute_told h (PatchAlike.refl data) (hver data hd)]
        refine ⟨fun ht data' hdata _ => ?_, fun ht => ht data rfl hm⟩
        exact Except.ok.inj hdata ▸ ht
      | false =>
        rw [putRoute_files hd hm hb, putRoute_files hd hm' (hbypass ▸ hb), outcome_map_iff requested_injective,
          requestUpdate_told h]
        refine ⟨fun ht data' hdata _ => ?_, fun ht => ht data rfl hm⟩
        exact Except.ok.inj hdata ▸ ht
    · have hm' : ¬(u.role = .ADMIN ∨ canManageRoute t u id = true) := hmanage ▸ hm
      refine iff_of_true ?_ fun _ _ hyes => absurd hyes hm
      rw [putRoute_refused hd hm, putRoute_refused hd hm']
      rfl

/-- The version of that id is of the route. -/
structure VersionOf (s : Store) (id versionId : String) (v : RouteVersion) : Prop where
  found : s.routeVersions.get? versionId = some v
  ofRoute : v.routeId = id

theorem snapshotData_alike {v v' : RouteVersion} (h : VersionAside v v') : PatchAlike (snapshotData v) (snapshotData v') := by
  intro c
  unfold snapshotData Patch.remove
  by_cases hc : c ∈ [Column.version, .createdAt, .updatedAt, .createdById, .updatedById]
  · rw [if_pos hc, if_pos hc]
    exact .inl rfl
  · rw [if_neg hc, if_neg hc]
    rcases h.snapshot c with he | ⟨hm, hs, hs'⟩
    · exact .inl (congrArg some he)
    · refine .inr ⟨hm, fun w hw => ?_, fun w hw => ?_⟩
      · exact Option.some.inj hw ▸ secret_admits hm hs
      · exact Option.some.inj hw ▸ secret_admits hm hs'

theorem restoreRouteVersion_told {versionId : String} (h : SameButSecrets s t) :
    ((restoreRouteVersion W d id versionId u.userId) s).1 = ((restoreRouteVersion W d id versionId u.userId) t).1 ↔
      ∀ v v', VersionOf s id versionId v → VersionOf t id versionId v' →
        UpdateTold W d id u.userId s t (snapshotData v) (snapshotData v') := by
  have hfind : Option.Rel VersionAside ((s.routeVersions.get? versionId).filter fun v => v.routeId = id)
      ((t.routeVersions.get? versionId).filter fun v => v.routeId = id) := by
    have hrow := h.routeVersions.get? versionId
    generalize s.routeVersions.get? versionId = o at hrow
    generalize t.routeVersions.get? versionId = o' at hrow
    cases hrow with
    | none => exact .none
    | @some v v' hv =>
      rw [Option.filter_some, Option.filter_some, hv.routeId]
      split
      · exact .some hv
      · exact .none
  have versionOf : ∀ {s v}, (s.routeVersions.get? versionId).filter (fun v => v.routeId = id) = some v ↔
      VersionOf s id versionId v := by
    intro s v
    rw [Option.filter_eq_some_iff, decide_eq_true_eq]
    exact ⟨fun hv => ⟨hv.1, hv.2⟩, fun hv => ⟨hv.found, hv.ofRoute⟩⟩
  have update : ∀ {v v'}, VersionAside v v' →
      (((updateRoute W d id (snapshotData v) u.userId) s).1 = ((updateRoute W d id (snapshotData v') u.userId) t).1 ↔
        UpdateTold W d id u.userId s t (snapshotData v) (snapshotData v')) :=
    fun hv => updateRoute_told h.veiled (snapshotData_alike hv) rfl
  unfold restoreRouteVersion
  show ((orThrow _ _ >>= _ : Handler Row) s).1 = ((orThrow _ _ >>= _ : Handler Row) t).1 ↔ _
  rw [(alike_orThrow hfind h.veiled).outcome_bind_iff]
  constructor
  · intro hall v v' hv hv'
    have hs := versionOf.2 hv
    have ht := versionOf.2 hv'
    rw [hs, ht] at hfind
    obtain ⟨hvv⟩ := hfind
    exact (update hvv).1 (hall v v' s t (by rw [hs]; rfl) (by rw [ht]; rfl) ⟨hvv, hs, ht⟩ h.veiled)
  · intro htold v v' s' t' hx hy hab _
    obtain ⟨hvv, hs, ht⟩ := hab
    rw [hs] at hx
    rw [ht] at hy
    cases hx
    cases hy
    exact (update hvv).2 (htold v v' (versionOf.1 hs) (versionOf.1 ht))

theorem restoreVersion_told {versionId : String} (h : SameButSecrets s t) :
    ((postRestoreVersion W u d id versionId) s).1 = ((postRestoreVersion W u d id versionId) t).1 ↔
      (u.role = .ADMIN → ∀ v v', VersionOf s id versionId v → VersionOf t id versionId v' →
        UpdateTold W d id u.userId s t (snapshotData v) (snapshotData v')) := by
  unfold postRestoreVersion authorize
  by_cases hu : u.role = .ADMIN
  · rw [require_bind (by rw [hu]; decide), restoreRouteVersion_told h]
    exact ⟨fun ht _ => ht, fun ht => ht hu⟩
  · rw [require_bind_not (by simpa using hu)]
    exact iff_of_true rfl fun ha => absurd ha hu

end Updates

/-! ## What tells nothing -/

section Silent

variable {W : World} {s t : Store} {u : Caller} {d : Draw} {id : String} {body : Json}

theorem authorize_same {roles : List Role} (h : Veiled s t) :
    Act.Alike Veiled (fun _ _ => True) (authorize u roles) (authorize u roles) s t :=
  (alike_require Iff.rfl h).mono fun _ _ _ => trivial

theorem parsed_same {α : Type} {x : Except Err α} (h : Veiled s t) : Act.Alike Veiled Eq (ofExcept x) (ofExcept x) s t :=
  (alike_ofExcept_same h).mono fun _ _ hab => hab.1

theorem requireOwnOrg_same {organizationId : Json} (h : Veiled s t) :
    Act.Alike Veiled (fun _ _ => True) (requireOwnOrg u organizationId) (requireOwnOrg u organizationId) s t := by
  unfold requireOwnOrg
  refine alike_read_bind ?_
  rw [canManageOrgRoutes_same h]
  refine alike_bind (alike_require Iff.rfl h) fun _ _ s t _ h => ?_
  exact (alike_require Iff.rfl h).mono fun _ _ _ => trivial

theorem postRoute_same (h : Veiled s t) : Act.Alike Veiled Eq (postRoute W u d body) (postRoute W u d body) s t := by
  unfold postRoute
  refine alike_bind (parsed_same h) fun data data' s t hd h => ?_
  subst hd
  exact alike_bind (requireOwnOrg_same h) fun _ _ s t _ h => createRoute_same h

theorem deletePermanent_same (h : Veiled s t) : Act.Alike Veiled Eq (deletePermanent u id) (deletePermanent u id) s t := by
  unfold deletePermanent
  exact alike_bind (requireArchivedDelete_same h _) fun _ _ s t _ h => permanentlyDeleteRoute_same h

theorem deleteRouteById_same {confirmName : Option String} (h : Veiled s t) :
    Act.Alike Veiled Eq (deleteRouteById u d id confirmName) (deleteRouteById u d id confirmName) s t := by
  unfold deleteRouteById
  refine alike_read_bind ?_
  rw [canDeleteRoute_same h]
  exact alike_bind (alike_require Iff.rfl h) fun _ _ s t _ h => deleteRoute_same h

theorem postImport_same {draws : Nat → Draw} (h : Veiled s t) :
    Act.Alike Veiled Eq (postImport W u draws body) (postImport W u draws body) s t := by
  unfold postImport
  refine alike_bind (authorize_same h) fun _ _ s t _ h => alike_bind (parsed_same h) fun routes routes' s t hd h => ?_
  subst hd
  exact importRoutes_same _ s t h

theorem postBulkUpdate_same (h : Veiled s t) : Act.Alike Veiled Eq (postBulkUpdate u d body) (postBulkUpdate u d body) s t := by
  unfold postBulkUpdate
  refine alike_bind (authorize_same h) fun _ _ s t _ h => alike_bind (parsed_same h) fun data data' s t hd h => ?_
  subst hd
  exact alike_bind (alike_require Iff.rfl h) fun _ _ s t _ h => bulkUpdate_same h

theorem postBulkPublish_same (h : Veiled s t) :
    Act.Alike Veiled Eq (postBulkPublish u d body) (postBulkPublish u d body) s t := by
  unfold postBulkPublish
  refine alike_bind (authorize_same h) fun _ _ s t _ h => alike_bind (parsed_same h) fun data data' s t hd h => ?_
  subst hd
  exact bulkPublish_same h

theorem postBulkDeactivate_same (h : Veiled s t) :
    Act.Alike Veiled Eq (postBulkDeactivate u d body) (postBulkDeactivate u d body) s t := by
  unfold postBulkDeactivate
  refine alike_bind (authorize_same h) fun _ _ s t _ h => alike_bind (parsed_same h) fun data data' s t hd h => ?_
  subst hd
  exact bulkDeactivate_same h

theorem eligible_same (h : Veiled s t) (ids : List String) : eligible s u ids = eligible t u ids := by
  have rows : Table.Alike RowAlike
      (s.routes.filter fun id r => liveAmong ids id r && !r.flag .isActive && !r.flag .protected_ && canDeleteRoute s u id)
      (t.routes.filter fun id r => liveAmong ids id r && !r.flag .isActive && !r.flag .protected_ && canDeleteRoute t u id) :=
    h.routes.filter fun k r r' hr => by
      rw [liveAmong_same ids k r r' hr, hr.flag (by decide), hr.flag (by decide), canDeleteRoute_same h]
  exact rows.keys

theorem postBulkDelete_same (h : Veiled s t) : Act.Alike Veiled Eq (postBulkDelete u d body) (postBulkDelete u d body) s t := by
  unfold postBulkDelete
  refine alike_bind (authorize_same h) fun _ _ s t _ h => alike_bind (parsed_same h) fun data data' s t hd h => ?_
  subst hd
  refine alike_read_bind ?_
  rw [eligible_same h]
  refine alike_bind (alike_ite Iff.rfl (fun _ => bulkDelete_same h) fun _ => alike_pure h rfl) fun n n' s t hn h => ?_
  subst hn
  exact alike_pure h rfl

end Silent

end ClusterGate
