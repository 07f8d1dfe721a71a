/-
  ClusterGate.ExportImport — an export of routes as the import of another instance
  (`services/routeService.ts`: `exportRoutes`, `importRoutes`; `routes/routes.router.ts`).

  An export lists the saveable columns of the caller's live routes as they are stored. Each
  route of an import goes through the schema of a create and is then created. The schema
  has no null where the database has one, no status, and trims and cuts the target again.
  - `rowJson_members`: an import reads the columns an export wrote.
  - `importRoutes_all`, `created_stay`: an import without errors is a row of creates.
  - `export_import_iff`: every route comes across with its columns exactly if all of them
    are `Portable`; of a route the API made, that is a draft with no null among its columns
    whose target is not cut again.
  - `a_route_without_a_description_is_not_imported`: and no other route of its export.
-/

import ClusterGate.Route.Answers
import ClusterGate.Route.VersionRestore
import ClusterGate.StoredValidity

namespace ClusterGate

open Lib Lib.Act Lib.Table Lib.Zod

/-! ## An export as a body -/

/-- The routes an export lists for a caller. -/
def exportedRoutes (s : Store) (u : Caller) : List (String × Row) :=
  (s.routes.filter fun _ r => r.live && inScope (orgScope s u) r).rows

/-- A route of an export as the response has it. -/
def rowJson (row : Column → Option Json) : Json := .obj (Column.all.filterMap fun c => (row c).map fun v => (c.key, v))

/-- The body of an import made of the `data` of an export. -/
def importBody (data : List (Column → Option Json)) : Json := .obj [("routes", .arr (data.map rowJson))]

theorem keys_nodup : (Column.all.map Column.key).Nodup := by decide +kernel

theorem member_of_keyed {row : Column → Option Json} {cs : List Column} (hn : (cs.map Column.key).Nodup) {c : Column}
    (hc : c ∈ cs) :
    ((cs.filterMap fun c => (row c).map fun v => (c.key, v)).find? fun p => p.1 = c.key).map Prod.snd = row c := by
  induction cs with
  | nil => cases hc
  | cons a cs ih =>
    rw [List.map_cons, List.nodup_cons] at hn
    have absent : ∀ b ∈ cs, b.key ≠ a.key := fun b hb he => hn.1 (List.mem_map.2 ⟨b, hb, he⟩)
    rcases List.mem_cons.1 hc with rfl | hc
    · cases hv : row c with
      | some v => simp [hv]
      | none =>
        -- no later column has the key
        have rest : ((cs.filterMap fun c => (row c).map fun v => (c.key, v)).find? fun p => p.1 = c.key) = none := by
          rw [List.find?_eq_none]
          intro p hp
          obtain ⟨b, hb, hpb⟩ := List.mem_filterMap.1 hp
          obtain ⟨v, -, rfl⟩ := Option.map_eq_some_iff.1 hpb
          simpa using absent b hb
        simp [hv, rest]
    · have hne : a.key ≠ c.key := (absent c hc).symm
      cases hv : row a with
      | none => simpa [hv] using ih hn.2 hc
      | some v => simpa [hv, hne] using ih hn.2 hc

/-- An import reads a route of an export column by column. -/
theorem rowJson_members (row : Column → Option Json) : ∃ kvs, rowJson row = .obj kvs ∧ Patch.ofMembers kvs = row :=
  ⟨_, rfl, funext fun c => member_of_keyed keys_nodup (Column.mem_all c)⟩

/-! ## What the schema makes of it -/

section Reading

variable {W : World} {r : Row} {id : String} {data : Patch} {c : Column}

/-- The columns of an export that an import asks for. -/
theorem exported_field (hc : c ∈ EXPORTED) (hs : c ≠ .status) : ∃ t, routeBodySchema W c = some t := by
  cases c <;> first
    | exact ⟨_, rfl⟩
    | exact absurd rfl hs
    | exact absurd hc (by decide)

/-- The fields of a body that an export leaves out are ones it may leave out. -/
theorem unexported_field (hc : c ∉ EXPORTED) : parseField (routeBodySchema W) (exportedRow (id, r)) c = .ok none := by
  rw [parseField, exportedRow, if_neg hc]
  cases c <;> first
    | rfl
    | exact absurd (by decide) hc

theorem exportedRow_some (hc : c ∈ EXPORTED) : exportedRow (id, r) c = some (r.val c) := by rw [exportedRow, if_pos hc]

/-- What a body of an export is read as. -/
structure ReadAs (W : World) (r : Row) (data : Patch) : Prop where
  exported : ∀ c ∈ EXPORTED, ∀ t, routeBodySchema W c = some t → t.parse (some (r.val c)) = .ok (data c)
  other : ∀ c, c ∉ EXPORTED ∨ c = .status → data c = none

theorem routeData_export (h : routeData W (routeBodySchema W) (rowJson (exportedRow (id, r))) = .ok data) : ReadAs W r data := by
  obtain ⟨kvs, hjson, hmembers⟩ := rowJson_members (exportedRow (id, r))
  rw [hjson, routeData, parsedRoute, hmembers] at h
  cases hp : parseObject routeBodyFields (routeBodySchema W) (exportedRow (id, r)) with
  | error e =>
    rw [hp] at h
    cases h
  | ok out =>
    rw [hp] at h
    obtain rfl : encodeBasicAuthInputs W out = data := Except.ok.inj h
    have field : ∀ c t, routeBodySchema W c = some t →
        parseField (routeBodySchema W) (exportedRow (id, r)) c = .ok (out c) :=
      fun c t ht => parseObject_ok hp (schema_field ht)
    constructor
    · intro c hc t ht
      have hf := field c t ht
      rw [parseField, ht, exportedRow_some hc] at hf
      rw [encodeBasicAuthInputs_ne (by rintro rfl; exact absurd hc (by decide)) (by rintro rfl; exact absurd hc (by decide))]
      exact hf
    · intro c hc
      have hnone : out c = none := by
        cases ht : routeBodySchema W c with
        | none => exact parseObject_noField hp ht
        | some t =>
          rcases hc with hc | rfl
          · have hf := field c t ht
            rw [unexported_field hc] at hf
            exact (Except.ok.inj hf).symm
          · cases ht
      rw [encodeBasicAuthInputs, hnone]
      rfl

theorem routeData_export_exists (h : ∀ c ∈ EXPORTED, ∀ t, routeBodySchema W c = some t → ∃ o, t.parse (some (r.val c)) = .ok o) :
    ∃ data, routeData W (routeBodySchema W) (rowJson (exportedRow (id, r))) = .ok data := by
  obtain ⟨kvs, hjson, hmembers⟩ := rowJson_members (exportedRow (id, r))
  rw [hjson, routeData, parsedRoute, hmembers]
  have field : (routeBodyFields.all fun c => (parseField (routeBodySchema W) (exportedRow (id, r)) c).isOk) = true := by
    refine List.all_eq_true.2 fun c _ => ?_
    by_cases hc : c ∈ EXPORTED
    · rw [parseField, exportedRow_some hc]
      cases ht : routeBodySchema W c with
      | none => rfl
      | some t =>
        obtain ⟨o, ho⟩ := h c hc t ht
        simp [ho, Except.isOk, Except.toBool]
    · rw [unexported_field hc]
      rfl
  rw [parseObject, if_pos field]
  exact ⟨_, rfl⟩

end Reading

/-! ## Creating what was read -/

section Creating

variable {W : World} {s s' : Store} {d : Draw} {userId : String} {r row : Row} {data : Patch}

theorem createRoute_rules (h : Returns (createRoute W d data userId) s row s') : RulesSafe W (data .rewriteRules) := by
  refine wp_returns (Q := fun _ _ => RulesSafe W (data .rewriteRules)) (E := fun _ _ => True) ?_ h
  unfold createRoute
  simp only [wp_bind, wp_assertRouteTargetAllowed]
  refine ⟨fun _ => ?_, fun _ _ => trivial⟩
  refine wp_mono freeSoftDeletedPublicPath_keeps (fun _ s₁ _ => ?_) fun _ _ _ => trivial
  rw [wp_bind, wp_require]
  refine ⟨fun _ => ?_, fun _ => trivial⟩
  rw [wp_bind]
  refine wp_mono checkRewriteRules_spec ?_ fun _ _ _ => trivial
  rintro _ s₂ ⟨rfl, hrules⟩
  exact wp_mono (wp_of_final (P := fun _ => True) trivial) (fun _ _ _ => hrules) fun _ _ _ => trivial

/-- What a create that went through leaves: its row, and the live ones as they were. -/
theorem createRoute_made (h : Returns (createRoute W d data userId) s row s') :
    CreatedRow W s d data userId row ∧ s'.routes.get? d.routeId = some row ∧
      ∀ k q, s.routes.get? k = some q → q.live = true → s'.routes.get? k = some q := by
  obtain ⟨t, hcreation, -, rfl⟩ := wp_returns createRoute_spec h
  refine ⟨hcreation.row, by rw [get?_insert hcreation.fresh, if_pos rfl], fun k q hq hl => ?_⟩
  have hkept : t.get? k = some q := by
    cases ht : t.get? k with
    | none => exact absurd (hcreation.freed.absent ht) (by simp [hq])
    | some q' =>
      rcases hcreation.freed.some hq ht with rfl | hfreed
      · rfl
      · rw [hfreed.1] at hl
        cases hl
  have hne : k ≠ d.routeId := by
    rintro rfl
    rw [hcreation.fresh] at hkept
    cases hkept
  rw [get?_insert hcreation.fresh, if_neg hne]
  exact hkept

/-- Every route of a list is created, one after the other. -/
def CreatesAll (W : World) (userId : String) : List (Draw × Patch) → Store → Store → Prop
  | [], s, s' => s' = s
  | (d, data) :: rest, s, s' =>
    ∃ row t, Returns (createRoute W d data userId) s row t ∧ CreatesAll W userId rest t s'

/-- An import without errors creates every route. -/
theorem importRoutes_all {xs : List (Draw × Patch)} {n : Nat} :
    Returns (importRoutes W userId xs) s (n, []) s' ↔ n = xs.length ∧ CreatesAll W userId xs s s' := by
  induction xs generalizing s n with
  | nil =>
    unfold importRoutes CreatesAll
    rw [returns_pure, Prod.mk.injEq]
    simp
  | cons x xs ih =>
    obtain ⟨d, data⟩ := x
    unfold importRoutes CreatesAll
    simp only [returns_bind, returns_attempt, returns_pure]
    constructor
    · rintro ⟨result, t, hcreate, ⟨created, errors⟩, t', hrest, hresult, rfl⟩
      cases result with
      | error e => cases hresult
      | ok row =>
        obtain ⟨rfl, rfl⟩ := Prod.mk.inj hresult
        obtain ⟨rfl, hall⟩ := ih.1 hrest
        exact ⟨rfl, row, t, hcreate, hall⟩
    · rintro ⟨rfl, row, t, hcreate, hall⟩
      exact ⟨.ok row, t, hcreate, (xs.length, []), s', ih.2 ⟨rfl, hall⟩, rfl, rfl⟩

/-- A route once created stays as the others are created. -/
theorem created_stay {xs : List (Draw × Patch)} (hd : ∀ x ∈ xs, x.2 .deletedAt = none) (h : CreatesAll W userId xs s s') :
    (∀ k q, s.routes.get? k = some q → q.live = true → s'.routes.get? k = some q) ∧
      ∀ x ∈ xs, ∃ row t t', s'.routes.get? x.1.routeId = some row ∧ Returns (createRoute W x.1 x.2 userId) t row t' := by
  induction xs generalizing s with
  | nil =>
    unfold CreatesAll at h
    subst h
    exact ⟨fun _ _ hq _ => hq, fun x hx => by cases hx⟩
  | cons x xs ih =>
    obtain ⟨d, data⟩ := x
    unfold CreatesAll at h
    obtain ⟨row, t, hcreate, hall⟩ := h
    obtain ⟨hrow, hnew, hkept⟩ := createRoute_made hcreate
    obtain ⟨stay, rest⟩ := ih (fun x hx => hd x (List.mem_cons_of_mem _ hx)) hall
    refine ⟨fun k q hq hl => stay k q (hkept k q hq hl) hl, fun x hx => ?_⟩
    rcases List.mem_cons.1 hx with rfl | hx
    · exact ⟨row, s, t, stay _ row hnew (hrow.live (hd _ (List.mem_cons_self ..))), hcreate⟩
    · exact rest x hx

/-- A store with room for a route: none is archived, and neither its path nor its ids are taken. -/
structure RoomFor (s : Store) (d : Draw) (data : Patch) : Prop where
  live : ∀ k q, s.routes.get? k = some q → q.live = true
  path : ∀ k q, s.routes.get? k = some q → data .publicPath ≠ some (q.val .publicPath)
  id : s.routes.get? d.routeId = none
  version : s.routeVersions.get? d.versionId = none

/-- The store with a route and its first version. -/
def withRoute (s : Store) (d : Draw) (userId : String) (row : Row) : Store :=
  { s with routes := s.routes.insert d.routeId row,
           routeVersions := s.routeVersions.insert d.versionId ⟨d.routeId, .num 1, row.val, userId⟩ }

/-- With room for it, a create whose checks hold goes through. -/
theorem createRoute_takes (hroom : RoomFor s d data)
    (htarget : targetRefused W s (textOf (withTarget data .targetUrl)) ((data .organizationId).getD .null) = none)
    (hpath : Text.startsWith (textOf (data .publicPath)) "/" = true) (hrules : RulesSafe W (data .rewriteRules))
    (hrow : Row.create (newRowData W s d userId data) = some row)
    (hunique : uniqueOk s d.routeId (fun c => some (row.val c)) row = true)
    (hrefs : refsOk s (fun c => some (row.val c)) row = true) :
    Returns (createRoute W d data userId) s row (withRoute s d userId row) := by
  have none_archived : s.routes.find? (fun _ q => q.val .publicPath = (data .publicPath).getD .null && !q.live) = none := by
    cases hf : s.routes.find? fun _ q => q.val .publicPath = (data .publicPath).getD .null && !q.live with
    | none => rfl
    | some stale =>
      obtain ⟨hq, hp⟩ := find?_some hf
      simp [hroom.live _ _ hq] at hp
  refine returns_iff.2 ?_
  unfold createRoute
  rw [wp_bind, wp_assertRouteTargetAllowed]
  refine ⟨fun _ => ?_, fun m hm => by rw [htarget] at hm; cases hm⟩
  rw [wp_bind, freeSoftDeletedPublicPath, wp_bind, wp_read, none_archived]
  simp only [wp_pure]
  rw [wp_bind, wp_require]
  refine ⟨fun _ => ?_, fun h => absurd hpath h⟩
  rw [wp_bind]
  refine wp_mono checkRewriteRules_spec ?_ fun _ _ h => h.2 hrules
  rintro _ s₁ ⟨rfl, -⟩
  rw [wp_bind, wp_read]
  have hnew : Row.create (stamped d.now ((createData W s₁ d data userId).set .createdAt (.str d.now))) = some row := hrow
  simp only [routeCreate, versionCreate, wp_bind, wp_read, hnew, orThrow, wp_pure, wp_require, wp_modify, hroom.id, hunique,
    hrefs, hroom.version]
  simp [withRoute]

/-! ### The row of a create -/

theorem newRowData_secret {c : Column} (hc : c ∈ secretColumns) (hd : data c = none) : newRowData W s d userId data c = none := by
  have plain : c ≠ .updatedAt ∧ c ≠ .createdAt ∧ c ≠ .slug ∧ c ≠ .createdById ∧ c ≠ .updatedById ∧ c ≠ .targetUrl := by
    simp only [secretColumns, List.mem_cons, List.not_mem_nil, or_false] at hc
    rcases hc with rfl | rfl | rfl <;> decide
  obtain ⟨hup, hcr, hs, hb, hub, ht⟩ := plain
  rw [newRowData, stamped_ne hup, Patch.set_ne _ _ hcr, createData_ne hs hb hub, sealSecrets, if_pos hc, withTarget, if_neg ht, hd]
  rfl

/-- A slug that is left out is picked for the name. -/
theorem newRowData_slug {name : String} (hn : data .name = some (.str name)) (hs : data .slug = none) :
    newRowData W s d userId data .slug = some (slugJson (pickRouteSlug W s name none)) := by
  have hk : ∀ c : Column, c ∉ secretColumns → c ≠ .targetUrl → sealSecrets W d (withTarget data) c = data c := by
    intro c hc ht
    rw [sealSecrets, if_neg hc, withTarget, if_neg ht]
  rw [newRowData, stamped_ne (by decide), Patch.set_ne _ _ (by decide), createData, Patch.set_ne _ _ (by decide),
    Patch.set_ne _ _ (by decide), hk .name (by decide) (by decide), hk .slug (by decide) (by decide), hn, hs]
  have hnone : ¬((none : Option Json).getD .null).truthy = true := by decide
  dsimp only
  rw [if_neg hnone, Patch.set_same]

end Creating

/-! ## The routes that come across -/

/-- A route an import gives back as it was exported: a draft, every column of which the
    schema of a create takes as it is, with a target that is not cut again. -/
structure Portable (W : World) (r : Row) : Prop where
  draft : r.val .status = .str "DRAFT"
  fields : ∀ c ∈ EXPORTED, c ≠ .targetUrl → ∀ t, routeBodySchema W c = some t → t.parse (some (r.val c)) = .ok (some (r.val c))
  url : (W.url (Text.trim (r.string .targetUrl))).isSome = true
  target : normalizeTarget (Text.trim (r.string .targetUrl)) = r.string .targetUrl
  rules : RulesSafe W (some (r.val .rewriteRules))

section Portable

variable {W : World} {s s' : Store} {d : Draw} {userId : String} {r row : Row} {data : Patch}

theorem target_string (r : Row) : r.val .targetUrl = .str (r.string .targetUrl) := by
  obtain ⟨url, hurl⟩ := r.string_val (c := .targetUrl) rfl rfl
  rw [Row.string, Row.text, hurl]
  rfl

theorem exported_plain {c : Column} (hc : c ∈ EXPORTED) (ht : c ≠ .targetUrl) : c ∉ CREATE_DERIVED := by
  intro hd
  simp only [CREATE_DERIVED, List.mem_cons, List.not_mem_nil, or_false] at hd
  rcases hd with rfl | rfl | rfl | rfl | rfl | rfl | rfl | rfl | rfl
  all_goals first
    | exact ht rfl
    | exact absurd hc (by decide)

/-- What the schema makes of a target. -/
theorem target_read (hread : ReadAs W r data) :
    (W.url (Text.trim (r.string .targetUrl))).isSome = true ∧ data .targetUrl = some (.str (Text.trim (r.string .targetUrl))) := by
  have hparse := hread.exported .targetUrl (by decide) _ rfl
  rw [target_string] at hparse
  obtain ⟨v, w, hv, hw, hleaf⟩ := ZodType.parse_leaf hparse
  obtain ⟨text, htext, rfl, hurl⟩ := urlLeaf_ok hleaf
  obtain rfl : r.string .targetUrl = text := Json.str.inj ((Option.some.inj hv).trans htext)
  exact ⟨hurl, hw⟩

/-- A route that came across with its columns is portable. -/
theorem portable_of_created (hread : ReadAs W r data) (hmade : Returns (createRoute W d data userId) s row s')
    (hsame : ∀ c ∈ EXPORTED, row.val c = r.val c) : Portable W r := by
  obtain ⟨hcreated, -, -⟩ := createRoute_made hmade
  obtain ⟨hurl, htarget⟩ := target_read hread
  have field : ∀ c ∈ EXPORTED, c ≠ .targetUrl → ∀ t, routeBodySchema W c = some t → data c = some (r.val c) := by
    intro c hc ht t hschema
    have hparse := hread.exported c hc t hschema
    obtain ⟨w, hw⟩ := ZodType.parse_present hparse
    rcases hcreated.coerced (exported_plain hc ht) with ⟨v, hv, hrow⟩ | ⟨hnone, -⟩
    · rw [hv] at hparse
      rw [schema_coerced hschema ((routeBodySchema_sound W hschema).admits hparse), hsame c hc] at hrow
      rw [hv, hrow]
    · rw [hnone] at hw
      cases hw
  refine ⟨?_, ?_, hurl, ?_, ?_⟩
  · rw [← hsame .status (by decide)]
    rcases hcreated.value (c := .status) (by decide) (by decide) with hv | ⟨-, hdefault⟩
    · rw [hread.other .status (.inr rfl)] at hv
      cases hv
    · exact (Option.some.inj hdefault).symm
  · intro c hc ht t hschema
    rw [hread.exported c hc t hschema, field c hc ht t hschema]
  · have hstored := hcreated.target htarget
    rw [hsame .targetUrl (by decide), target_string r] at hstored
    exact (Json.str.inj hstored).symm
  · have hrules := createRoute_rules hmade
    rwa [field .rewriteRules (by decide) (by decide) _ rfl] at hrules

/-- What a portable route is read as. -/
theorem Portable.read (hp : Portable W r) (hread : ReadAs W r data) {c : Column} (hc : c ∈ EXPORTED) (hs : c ≠ .status)
    (ht : c ≠ .targetUrl) : data c = some (r.val c) := by
  obtain ⟨t, hschema⟩ := exported_field (W := W) hc hs
  have hparse := hread.exported c hc t hschema
  rw [hp.fields c hc ht t hschema] at hparse
  exact (Except.ok.inj hparse).symm

/-- Every value of a portable route's create is one its column takes. -/
theorem Portable.filled (hp : Portable W r) (hread : ReadAs W r data) : ∃ row, Row.create (newRowData W s d userId data) = some row := by
  obtain ⟨-, htarget⟩ := target_read hread
  obtain ⟨name, hname⟩ := r.string_val (c := .name) rfl rfl
  have field : ∀ c, (createdField (newRowData W s d userId data) c).isSome = true := by
    intro c
    by_cases hc : c ∈ CREATE_DERIVED
    · simp only [CREATE_DERIVED, List.mem_cons, List.not_mem_nil, or_false] at hc
      rcases hc with rfl | rfl | rfl | rfl | rfl | rfl | rfl | rfl | rfl
      · have hdata : data .name = some (.str name) := by rw [hp.read hread (by decide) (by decide) (by decide), hname]
        rw [createdField, newRowData_slug hdata (hread.other .slug (.inl (by decide)))]
        cases pickRouteSlug W s name none with
        | none => rfl
        | some t => rfl
      · rw [createdField, newRowData_target, htarget]
        rfl
      all_goals first
        | rfl
        | rw [createdField, newRowData_secret (by decide) (hread.other _ (.inl (by decide)))]
          rfl
    · rw [createdField, newRowData_plain hc]
      by_cases hexported : c ∈ EXPORTED ∧ c ≠ .status
      · rw [hp.read hread hexported.1 hexported.2 (by rintro rfl; exact hc (by decide))]
        simp [Column.coerce_admitted (r.typed c), r.typed c]
      · have hnone : data c = none := hread.other c (by tauto)
        rw [hnone]
        cases c <;> first
          | rfl
          | exact absurd (by decide) hc
          | exact absurd (by decide) hexported
  unfold Row.create
  rw [dif_pos field]
  exact ⟨_, rfl⟩

/-- A portable route is created as it was. -/
theorem Portable.same (hp : Portable W r) (hread : ReadAs W r data) (hrow : Row.create (newRowData W s d userId data) = some row) :
    ∀ c ∈ EXPORTED, row.val c = r.val c := by
  intro c hc
  by_cases hs : c = .status
  · subst hs
    have hdefault : Column.status.default = some (row.val .status) := by
      refine create_default hrow ?_
      rw [newRowData_plain (by decide), hread.other .status (.inr rfl)]
    rw [hp.draft]
    exact (Option.some.inj hdefault).symm
  · by_cases ht : c = .targetUrl
    · subst ht
      refine create_given hrow ?_ (Column.coerce_admitted (r.typed _))
      rw [newRowData_target, (target_read hread).2, target_string r]
      exact congrArg (fun text => some (Json.str text)) hp.target
    · refine create_given hrow ?_ (Column.coerce_admitted (r.typed c))
      rw [newRowData_plain (exported_plain hc ht), hp.read hread hc hs ht]

/-- With room for it, a portable route is created. -/
theorem Portable.creates (hp : Portable W r) (hread : ReadAs W r data) (hroom : RoomFor s d data)
    (hallowed : targetRefused W s (r.string .targetUrl) .null = none) :
    ∃ row, Returns (createRoute W d data userId) s row (withRoute s d userId row) := by
  obtain ⟨-, htarget⟩ := target_read hread
  obtain ⟨row, hrow⟩ : ∃ row, Row.create (newRowData W s d userId data) = some row := hp.filled hread
  have same := hp.same hread hrow
  obtain ⟨name, hname⟩ := r.string_val (c := .name) rfl rfl
  have hdname : data .name = some (.str name) := by rw [hp.read hread (by decide) (by decide) (by decide), hname]
  have hdpath : data .publicPath = some (r.val .publicPath) := hp.read hread (by decide) (by decide) (by decide)
  have left : ∀ c, c ∉ CREATE_DERIVED → c ∉ EXPORTED → c.default = some (row.val c) := by
    intro c hc ho
    refine create_default hrow ?_
    rw [newRowData_plain hc, hread.other c (.inl ho)]
  have htext : textOf (withTarget data .targetUrl) = r.string .targetUrl := by
    rw [withTarget, if_pos rfl, htarget]
    simp only [Option.map_some, normalizeTargetJson, textOf, Option.bind_some, Json.str?, Option.getD_some, hp.target]
  refine ⟨row, createRoute_takes hroom ?_ ?_ ?_ hrow ?_ ?_⟩
  · rw [htext, hread.other .organizationId (.inl (by decide)), Option.getD_none]
    exact hallowed
  · -- the schema asks for `/r/`
    have hpath := hp.fields .publicPath (by decide) (by decide) _ rfl
    obtain ⟨v, _, hval, -, hleaf⟩ := ZodType.parse_leaf hpath
    obtain ⟨p, rfl, -, hchecks⟩ := string_ok hleaf
    have hstart : Text.startsWith p "/r/" = true := hchecks (startsWithCheck "/r/" "Public path must start with /r/") (by simp)
    rw [hdpath, textOf, Option.bind_some, Option.some.inj hval, Json.str?, Option.getD_some]
    rw [Text.startsWith, List.isPrefixOf_iff_prefix] at hstart ⊢
    have hshort : ("/" : String).toList <+: ("/r/" : String).toList := by decide
    exact hshort.trans hstart
  · rw [hp.read hread (by decide) (by decide) (by decide)]
    exact hp.rules
  · have hfreepath : taken s d.routeId .publicPath (row.val .publicPath) = false := by
      rw [path_string, taken_text]
      rintro ⟨k, q, -, hq, hheld⟩
      refine hroom.path k q hq ?_
      rw [hdpath, ← same .publicPath (by decide), path_string row, hheld]
    have hfreeslug : taken s d.routeId .slug (row.val .slug) = false := by
      rw [create_given hrow (newRowData_slug hdname (hread.other .slug (.inl (by decide)))) (ColType.coerce_of_ne (by decide) _)]
      cases hpick : pickRouteSlug W s name none with
      | none => exact taken_null
      | some slug =>
        refine taken_text.2 ?_
        rintro ⟨k, q, -, hq, hheld⟩
        exact pickRouteSlug_free hpick hq hheld
    simp [uniqueOk, hfreepath, hfreeslug]
  · have horg : row.val .organizationId = .null := (Option.some.inj (left .organizationId (by decide) (by decide))).symm
    have hgroup : row.val .routeGroupId = .null := (Option.some.inj (left .routeGroupId (by decide) (by decide))).symm
    have hfolder : row.val .folderId = .null := (Option.some.inj (left .folderId (by decide) (by decide))).symm
    simp [refsOk, refersTo, horg, hgroup, hfolder]

/-- An empty store takes a list of portable routes with paths and ids of their own. -/
theorem creates_all {rs : List Row} {ys : List (Draw × Patch)}
    (h : List.Forall₂ (fun r y => Portable W r ∧ ReadAs W r y.2 ∧ assertTargetAllowed W (r.string .targetUrl) none = none) rs ys)
    (paths : (rs.map fun r => r.val .publicPath).Nodup) (ids : (ys.map fun y => y.1.routeId).Nodup)
    (versions : (ys.map fun y => y.1.versionId).Nodup) (room : ∀ y ∈ ys, RoomFor s y.1 y.2) :
    ∃ s', CreatesAll W userId ys s s' := by
  induction h generalizing s with
  | nil => exact ⟨s, rfl⟩
  | @cons r y rs ys hr hrest ih =>
    obtain ⟨hp, hread, hallowed⟩ := hr
    rw [List.map_cons, List.nodup_cons] at paths ids versions
    have hroom := room y (List.mem_cons_self ..)
    obtain ⟨row, hcreate⟩ : ∃ row, Returns (createRoute W y.1 y.2 userId) s row (withRoute s y.1 userId row) :=
      hp.creates hread hroom hallowed
    obtain ⟨⟨-, -, t, hrow⟩, -, -⟩ := createRoute_made hcreate
    have hlive : row.live = true := (createRoute_made hcreate).1.live (hread.other .deletedAt (.inl (by decide)))
    have hpath : row.val .publicPath = r.val .publicPath := hp.same hread hrow _ (by decide)
    -- the rest still has room
    have left : ∀ z ∈ ys, RoomFor (withRoute s y.1 userId row) z.1 z.2 := by
      intro z hz
      have hz' := room z (List.mem_cons_of_mem _ hz)
      have hid : z.1.routeId ≠ y.1.routeId := fun he => ids.1 (List.mem_map.2 ⟨z, hz, he⟩)
      have hversion : z.1.versionId ≠ y.1.versionId := fun he => versions.1 (List.mem_map.2 ⟨z, hz, he⟩)
      refine ⟨fun k q hq => ?_, fun k q hq => ?_, ?_, ?_⟩
      · rw [withRoute, get?_insert hroom.id] at hq
        split at hq
        · exact Option.some.inj hq ▸ hlive
        · exact hz'.live k q hq
      · rw [withRoute, get?_insert hroom.id] at hq
        split at hq
        · obtain rfl := Option.some.inj hq
          obtain ⟨q, hq, hpq, hreadq, -⟩ := forall₂_right hrest hz
          rw [hpath, hpq.read hreadq (by decide) (by decide) (by decide)]
          exact fun he => paths.1 (List.mem_map.2 ⟨q, hq, Option.some.inj he⟩)
        · exact hz'.path k q hq
      · rw [withRoute, get?_insert hroom.id, if_neg hid]
        exact hz'.id
      · rw [withRoute, get?_insert hroom.version, if_neg hversion]
        exact hz'.version
    obtain ⟨s', hall⟩ := ih paths.2 ids.2 versions.2 left
    exact ⟨s', row, _, hcreate, hall⟩

end Portable

/-! ## Routes the API made -/

/-- A route as a create of the API left it, but for what publishing and deactivating write. -/
def MadeByApi (W : World) (r : Row) : Prop :=
  ∃ u d body s₀ s₁ r₀, Returns (postRoute W u d body) s₀ r₀ s₁ ∧ AgreeBut [.status, .isActive, .updatedAt, .updatedById] r₀ r

/-- A draft with a description, a health check's path and body, and a target that stays as it is. -/
structure Complete (W : World) (r : Row) : Prop where
  draft : r.val .status = .str "DRAFT"
  given : ∀ c ∈ [Column.description, .healthCheckPath, .healthCheckBody], r.val c ≠ .null
  url : (W.url (Text.trim (r.string .targetUrl))).isSome = true
  target : normalizeTarget (Text.trim (r.string .targetUrl)) = r.string .targetUrl

section Made

variable {W : World} {r : Row} {c : Column}

/-- What is put out for an absent exported field is taken as it is. -/
theorem default_again {t : ZodType} (ht : routeBodySchema W c = some t) {v : Json}
    (h : t.parse none = .ok (some v)) : t.parse (some v) = .ok (some v) := by
  cases c <;> cases ht <;> cases h <;> rfl

/-- Only some exported fields may put out nothing. -/
theorem put_out {t : ZodType} (hc : c ∈ EXPORTED) (ht : routeBodySchema W c = some t) {o : Option Json}
    (h : t.parse o = .ok none) : c ∈ [Column.description, .healthCheckPath, .healthCheckBody, .maintenanceMessage] := by
  cases o with
  | some v =>
    obtain ⟨w, hw⟩ := ZodType.parse_present h
    cases hw
  | none =>
    cases c <;> cases ht <;> first
      | decide
      | exact absurd hc (by decide)
      | cases h

theorem null_refused (hc : c ∈ [Column.description, .healthCheckPath, .healthCheckBody]) :
    ∃ t, routeBodySchema W c = some t ∧ t.parse (some .null) ≠ .ok (some .null) := by
  simp only [List.mem_cons, List.not_mem_nil, or_false] at hc
  rcases hc with rfl | rfl | rfl
  · exact ⟨_, rfl, fun h => by cases h⟩
  · exact ⟨_, rfl, fun h => by cases h⟩
  · exact ⟨_, rfl, fun h => by cases h⟩

/-- A create of the API is a create of what its body is read as. -/
theorem postRoute_creates {u : Caller} {d : Draw} {body : Json} {s s' : Store} (h : Returns (postRoute W u d body) s r s') :
    ∃ data, routeData W (routeBodySchema W) body = .ok data ∧ Returns (createRoute W d data u.userId) s r s' := by
  unfold postRoute requireOwnOrg at h
  simp only [returns_ofExcept_bind] at h
  obtain ⟨data, hdata, h⟩ := h
  obtain ⟨_, t, hown, hmade⟩ := (returns_bind _ _).1 h
  simp only [returns_read_bind, returns_require_bind, returns_require] at hown
  obtain ⟨-, -, rfl⟩ := hown
  exact ⟨data, hdata, hmade⟩

/-- What publishing and deactivating leave of an exported column. -/
theorem agree_exported {r₀ : Row} (h : AgreeBut [.status, .isActive, .updatedAt, .updatedById] r₀ r) (hc : c ∈ EXPORTED)
    (hs : c ≠ .status) : r.val c = r₀.val c := by
  refine h c fun hm => ?_
  simp only [List.mem_cons, List.not_mem_nil, or_false] at hm
  rcases hm with rfl | rfl | rfl | rfl
  · exact hs rfl
  all_goals exact absurd hc (by decide)

/-- The schema takes what a create stored of an exported column, unless it is the database's null. -/
theorem created_again {s₀ : Store} {d : Draw} {userId : String} {body : Json} {data : Patch} {r₀ : Row}
    (hdata : routeData W (routeBodySchema W) body = .ok data) (hcreated : CreatedRow W s₀ d data userId r₀) (hc : c ∈ EXPORTED)
    (htarget : c ≠ .targetUrl) (hgiven : c ∈ [Column.description, .healthCheckPath, .healthCheckBody] → r₀.val c ≠ .null)
    {t : ZodType} (ht : routeBodySchema W c = some t) : t.parse (some (r₀.val c)) = .ok (some (r₀.val c)) := by
  obtain ⟨o, hparse⟩ := routeData_field hdata (schema_field ht) ht (by rintro rfl; exact absurd hc (by decide))
    (by rintro rfl; exact absurd hc (by decide))
  rcases hcreated.coerced (exported_plain hc htarget) with ⟨v, hv, hrow⟩ | ⟨hnone, hdefault⟩
  · rw [hv] at hparse
    have again : t.parse (some v) = .ok (some v) := by
      cases o with
      | none => exact default_again ht hparse
      | some v => exact (routeBodySchema_sound W ht).again hparse
    rwa [hrow, schema_coerced ht ⟨v, again⟩]
  · -- the database has a default of its own
    rw [hnone] at hparse
    have hfew := put_out hc ht hparse
    by_cases hnull : c ∈ [Column.description, .healthCheckPath, .healthCheckBody]
    · have hdefault' : c.default = some .null := by
        simp only [List.mem_cons, List.not_mem_nil, or_false] at hnull
        rcases hnull with rfl | rfl | rfl <;> rfl
      exact absurd (Option.some.inj (hdefault.symm.trans hdefault')) (hgiven hnull)
    · obtain rfl : c = .maintenanceMessage := by
        simp only [List.mem_cons, List.not_mem_nil, or_false] at hfew hnull
        tauto
      cases ht
      rw [← Option.some.inj hdefault]
      rfl

/-- A route the API made comes across exactly if it is complete. -/
theorem MadeByApi.portable_iff (h : MadeByApi W r) : Portable W r ↔ Complete W r := by
  obtain ⟨u, d, body, s₀, s₁, r₀, hret, hagree⟩ := h
  constructor
  · intro hp
    refine ⟨hp.draft, fun c hc hnull => ?_, hp.url, hp.target⟩
    obtain ⟨t, ht, hrefused⟩ := null_refused (W := W) hc
    have hexported : c ∈ EXPORTED ∧ c ≠ .targetUrl := by
      simp only [List.mem_cons, List.not_mem_nil, or_false] at hc
      rcases hc with rfl | rfl | rfl <;> decide
    have htaken := hp.fields c hexported.1 hexported.2 t ht
    rw [hnull] at htaken
    exact hrefused htaken
  · intro hcomplete
    obtain ⟨data, hdata, hmade⟩ := postRoute_creates hret
    obtain ⟨hcreated, -, -⟩ := createRoute_made hmade
    have fields : ∀ c ∈ EXPORTED, c ≠ .targetUrl → ∀ t, routeBodySchema W c = some t →
        t.parse (some (r.val c)) = .ok (some (r.val c)) := by
      intro c hc htarget t ht
      have hsame := agree_exported hagree hc (by rintro rfl; cases ht)
      rw [hsame]
      refine created_again hdata hcreated hc htarget (fun hnull => ?_) ht
      rw [← hsame]
      exact hcomplete.given c hnull
    refine ⟨hcomplete.draft, fields, hcomplete.url, hcomplete.target, ?_⟩
    have hrules := createRoute_rules hmade
    rcases hcreated.value (c := .rewriteRules) (by decide) (by decide) with hv | ⟨hnone, -⟩
    · rw [hv] at hrules
      rwa [agree_exported hagree (by decide) (by decide)]
    · obtain ⟨o, hparse⟩ := routeData_field hdata (c := .rewriteRules) (by decide) rfl (by decide) (by decide)
      rw [hnone] at hparse
      exact absurd (put_out (W := W) (c := .rewriteRules) (by decide) rfl hparse) (by decide)

end Made

/-! ## Exports and imports -/

/-- No two routes of an import draw one id. -/
def DrawsApart (draws : Nat → Draw) : Prop :=
  ∀ i j, i ≠ j → (draws i).routeId ≠ (draws j).routeId ∧ (draws i).versionId ≠ (draws j).versionId

/-- Every route of an export is there, with what was exported of it. -/
def CameAcross (draws : Nat → Draw) (xs : List (String × Row)) (s' : Store) : Prop :=
  ∀ i x, xs[i]? = some x → ∃ r', s'.routes.get? (draws i).routeId = some r' ∧ r'.live = true ∧ ∀ c ∈ EXPORTED, r'.val c = x.2.val c

section Importing

variable {W : World} {s e s' : Store} {u admin : Caller} {draws : Nat → Draw} {xs : List (String × Row)}

theorem parseImport_export {data : List Patch} :
    parseImport W (importBody (xs.map exportedRow)) = .ok data ↔
      List.Forall₂ (fun x data => routeData W (routeBodySchema W) (rowJson (exportedRow x)) = .ok data) xs data := by
  show (((xs.map exportedRow).map rowJson).mapM (routeData W (routeBodySchema W))) = .ok data ↔ _
  rw [mapM_ok_iff, List.forall₂_map_left_iff, List.forall₂_map_left_iff]

theorem exported_paths (hn : s.NamesUnique) : ((exportedRoutes s u).map fun x => x.2.val .publicPath).Nodup := by
  unfold exportedRoutes
  have hkeys := (s.routes.filter fun _ r => r.live && inScope (orgScope s u) r).nodup
  rw [List.Nodup, List.pairwise_map] at hkeys ⊢
  refine hkeys.imp_of_mem fun {a b} ha hb hne he => ?_
  have hget : ∀ x ∈ (s.routes.filter fun _ r => r.live && inScope (orgScope s u) r).rows, s.routes.get? x.1 = some x.2 := by
    intro x hx
    have hx' := mem_rows_iff.1 hx
    rw [get?_filter, Option.filter_eq_some_iff] at hx'
    exact hx'.1
  exact (hn a.1 b.1 a.2 b.2 (hget a ha) (hget b hb) hne).1 he

theorem postImport_returns {n : Nat} (hadmin : admin.role = .ADMIN) {body : Json} :
    Returns (postImport W admin draws body) e (n, []) s' ↔
      ∃ data, parseImport W body = .ok data ∧ n = data.length ∧ CreatesAll W admin.userId (withDraws draws data) e s' := by
  unfold postImport authorize
  simp only [returns_require_bind, hadmin, List.mem_singleton, true_and, returns_ofExcept_bind, importRoutes_all]
  refine exists_congr fun data => and_congr_right fun _ => ?_
  rw [withDraws, List.length_map, List.length_zipIdx]

theorem mem_withDraws_at {data : List Patch} {i : Nat} {p : Patch} (h : data[i]? = some p) :
    (draws i, p) ∈ withDraws draws data := by
  refine List.mem_map.2 ⟨(p, i), ?_, rfl⟩
  exact List.mem_zipIdx_iff_getElem?.2 h

/-- The schema takes a portable route. -/
theorem Portable.parses {x : String × Row} (hp : Portable W x.2) :
    ∃ data, routeData W (routeBodySchema W) (rowJson (exportedRow x)) = .ok data := by
  refine routeData_export_exists fun c hc t ht => ?_
  by_cases hurl : c = .targetUrl
  · subst hurl
    obtain rfl : ZodType.leaf (urlLeaf W "Target URL must be a valid URL") = t := Option.some.inj ht
    refine ⟨some (.str (Text.trim (x.2.string .targetUrl))), ?_⟩
    rw [target_string, ZodType.parse, urlLeaf, if_pos hp.url]
    rfl
  · exact ⟨_, hp.fields c hc hurl t ht⟩

/-- Where there are no routes there is room for any. -/
theorem Store.NoRoutes.room (he : e.NoRoutes) (d : Draw) (data : Patch) : RoomFor e d data := by
  refine ⟨fun k q hq => ?_, fun k q hq => ?_, he.routes _, he.routeVersions _⟩
  · rw [he.routes k] at hq
    cases hq
  · rw [he.routes k] at hq
    cases hq

/-- What arrives of an export of portable routes, one for each. -/
theorem export_arrives {data : List Patch} (hportable : ∀ x ∈ xs, Portable W x.2)
    (hallowed : ∀ x ∈ xs, assertTargetAllowed W (x.2.string .targetUrl) none = none)
    (hread : List.Forall₂ (fun x data => routeData W (routeBodySchema W) (rowJson (exportedRow x)) = .ok data) xs data) :
    List.Forall₂ (fun r y => Portable W r ∧ ReadAs W r y.2 ∧ assertTargetAllowed W (r.string .targetUrl) none = none)
      (xs.map Prod.snd) (withDraws draws data) := by
  have hindexed : List.Forall₂ (fun (x : String × Row) data => x ∈ xs ∧
      routeData W (routeBodySchema W) (rowJson (exportedRow x)) = .ok data) xs (data.zipIdx.map Prod.fst) := by
    rw [List.zipIdx_map_fst]
    exact forall₂_mem hread
  rw [withDraws, List.forall₂_map_left_iff, List.forall₂_map_right_iff]
  rw [List.forall₂_map_right_iff] at hindexed
  exact hindexed.imp fun x y h => ⟨hportable x h.1, routeData_export h.2, hallowed x h.1⟩

/-- Every exported route is imported, and has what was exported of it, exactly if all of
    them are portable; those the API made are if they are complete. -/
theorem export_import_iff (hn : s.NamesUnique) (he : e.NoRoutes) (hadmin : admin.role = .ADMIN) (hdraws : DrawsApart draws)
    (hallowed : ∀ x ∈ exportedRoutes s u, assertTargetAllowed W (x.2.string .targetUrl) none = none) :
    ((∃ s', Returns (postImport W admin draws (importBody ((exportedRoutes s u).map exportedRow))) e
        ((exportedRoutes s u).length, []) s' ∧ CameAcross draws (exportedRoutes s u) s') ↔
      ∀ x ∈ exportedRoutes s u, Portable W x.2) ∧
    ∀ x ∈ exportedRoutes s u, MadeByApi W x.2 → (Portable W x.2 ↔ Complete W x.2) := by
  refine ⟨?_, fun x _ h => h.portable_iff⟩
  have unarchived : ∀ {data : List Patch}, List.Forall₂ (fun x data => routeData W (routeBodySchema W) (rowJson (exportedRow x)) =
      .ok data) (exportedRoutes s u) data → ∀ y ∈ withDraws draws data, y.2 .deletedAt = none := by
    intro data hread y hy
    obtain ⟨x, -, hx⟩ := forall₂_right hread (mem_withDraws hy)
    exact (routeData_export hx).other .deletedAt (.inl (by decide))
  constructor
  · rintro ⟨s', hret, hcame⟩ x hx
    obtain ⟨data, hparse, -, hall⟩ := (postImport_returns hadmin).1 hret
    have hread := parseImport_export.1 hparse
    obtain ⟨i, hi⟩ := List.mem_iff_getElem?.1 hx
    obtain ⟨p, hp, hroute⟩ := forall₂_at hread hi
    obtain ⟨row, t, t', hrow, hcreate⟩ := (created_stay (unarchived hread) hall).2 _ (mem_withDraws_at hp)
    obtain ⟨r', hr', -, hsame⟩ := hcame i x hi
    obtain rfl : row = r' := Option.some.inj (hrow.symm.trans hr')
    exact portable_of_created (routeData_export hroute) hcreate hsame
  · intro hportable
    obtain ⟨data, hread⟩ := forall₂_exists fun x hx => (hportable x hx).parses
    have hlength : data.length = (exportedRoutes s u).length := hread.length_eq.symm
    obtain ⟨s', hall⟩ : ∃ s', CreatesAll W admin.userId (withDraws draws data) e s' :=
      creates_all (export_arrives hportable hallowed hread) (by rw [List.map_map]; exact exported_paths hn)
        (draws_nodup fun i j hne => (hdraws i j hne).1) (draws_nodup fun i j hne => (hdraws i j hne).2)
        fun y _ => he.room y.1 y.2
    refine ⟨s', (postImport_returns hadmin).2 ⟨data, parseImport_export.2 hread, hlength.symm, hall⟩, fun i x hi => ?_⟩
    obtain ⟨p, hp, hroute⟩ := forall₂_at hread hi
    obtain ⟨row, t, t', hrow, hcreate⟩ := (created_stay (unarchived hread) hall).2 _ (mem_withDraws_at hp)
    obtain ⟨hcreated, -, -⟩ := createRoute_made hcreate
    have hreadp := routeData_export hroute
    obtain ⟨-, -, t₀, hnew⟩ := hcreated
    have hlive : row.live = true := (createRoute_made hcreate).1.live (hreadp.other .deletedAt (.inl (by decide)))
    exact ⟨row, hrow, hlive, (hportable x (List.mem_of_getElem? hi)).same hreadp hnew⟩

end Importing

/-! ## One route, exported and imported -/

namespace Exporting

def administrator : Caller := ⟨"admin", .ADMIN⟩

/-- A body with the fields a create asks for, and others. -/
def body (others : List (String × Json)) : Json :=
  .obj ([("name", .str "Shop"), ("publicPath", .str "/r/shop"), ("targetUrl", .str "http://backend.svc"),
    ("methods", .arr [.str "GET"])] ++ others)

def store (others : List (String × Json)) : Store := (postRoute World.plain administrator Draw.plain (body others) Store.empty).2

def described : List (String × Json) :=
  [("description", .str "All things"), ("healthCheckPath", .str "/health"), ("healthCheckBody", .str "")]

def draws (i : Nat) : Draw :=
  { Draw.plain with routeId := String.ofList (List.replicate i 'r'), versionId := String.ofList (List.replicate i 'v') }

theorem draws_apart : DrawsApart draws := by
  intro i j hne
  constructor
  · intro he
    exact hne (List.replicate_inj.1 (String.ofList_injective he)).1
  · intro he
    exact hne (List.replicate_inj.1 (String.ofList_injective he)).1

theorem one_name {s : Store} (h : ∀ x ∈ s.routes.rows, x.1 = "route") : s.NamesUnique := by
  intro j k a b ha hb hne
  have hj : j = "route" := h _ (mem_rows_iff.2 ha)
  have hk : k = "route" := h _ (mem_rows_iff.2 hb)
  exact absurd (hj.trans hk.symm) hne

theorem empty_noRoutes : Store.empty.NoRoutes := ⟨fun _ => rfl, fun _ => rfl, fun _ => rfl, fun _ => rfl, fun _ => rfl⟩

/-- The one route is as the API made it. -/
theorem made {others : List (String × Json)} (hone : ∀ x ∈ (store others).routes.rows, x.1 = "route")
    (hsucceeds : Succeeds (postRoute World.plain administrator Draw.plain (body others)) Store.empty) :
    ∀ x ∈ exportedRoutes (store others) administrator, MadeByApi World.plain x.2 := by
  intro x hx
  obtain ⟨r₀, s₁, hret⟩ := hsucceeds
  obtain ⟨data, -, hcreate⟩ := postRoute_creates hret
  obtain ⟨-, hrow, -⟩ := createRoute_made hcreate
  have hstore : store others = s₁ := congrArg Prod.snd hret
  have hmem : x ∈ (store others).routes.rows := (List.mem_filter.1 hx).1
  have hget : (store others).routes.get? x.1 = some x.2 := mem_rows_iff.1 hmem
  rw [hone x hmem, hstore] at hget
  obtain rfl : x.2 = r₀ := Option.some.inj (hget.symm.trans hrow)
  exact ⟨administrator, Draw.plain, body others, Store.empty, s₁, x.2, hret, fun _ _ => rfl⟩

end Exporting

theorem a_described_route_comes_across :
    ∃ s', Returns (postImport World.plain Exporting.administrator Exporting.draws
        (importBody ((exportedRoutes (Exporting.store Exporting.described) Exporting.administrator).map exportedRow))) Store.empty
        ((exportedRoutes (Exporting.store Exporting.described) Exporting.administrator).length, []) s' ∧
      CameAcross Exporting.draws (exportedRoutes (Exporting.store Exporting.described) Exporting.administrator) s' := by
  have hone : ∀ x ∈ (Exporting.store Exporting.described).routes.rows, x.1 = "route" := by decide +kernel
  have hchecks : ∀ x ∈ exportedRoutes (Exporting.store Exporting.described) Exporting.administrator,
      assertTargetAllowed World.plain (x.2.string .targetUrl) none = none ∧ x.2.val .status = .str "DRAFT" ∧
        (∀ c ∈ [Column.description, .healthCheckPath, .healthCheckBody], x.2.val c ≠ .null) ∧
        (World.plain.url (Text.trim (x.2.string .targetUrl))).isSome = true ∧
        normalizeTarget (Text.trim (x.2.string .targetUrl)) = x.2.string .targetUrl := by decide +kernel
  have hmade := Exporting.made hone (by decide +kernel)
  obtain ⟨hiff, hcomplete⟩ := export_import_iff (W := World.plain) (u := Exporting.administrator) (Exporting.one_name hone)
    Exporting.empty_noRoutes (show Exporting.administrator.role = .ADMIN from rfl) Exporting.draws_apart
    fun x hx => (hchecks x hx).1
  refine hiff.2 fun x hx => (hcomplete x hx (hmade x hx)).2 ?_
  obtain ⟨-, hdraft, hgiven, hurl, htarget⟩ := hchecks x hx
  exact ⟨hdraft, hgiven, hurl, htarget⟩

/-- The export has a null for the description, and the schema of the import has none. -/
theorem a_route_without_a_description_is_not_imported :
    ¬∀ (W : World) (s e : Store) (u admin : Caller) (draws : Nat → Draw), s.NamesUnique → e.NoRoutes → admin.role = .ADMIN →
      DrawsApart draws → (∀ x ∈ exportedRoutes s u, MadeByApi W x.2) →
      (∀ x ∈ exportedRoutes s u, assertTargetAllowed W (x.2.string .targetUrl) none = none) →
      ∃ s', Returns (postImport W admin draws (importBody ((exportedRoutes s u).map exportedRow))) e
        ((exportedRoutes s u).length, []) s' ∧ CameAcross draws (exportedRoutes s u) s' := by
  intro h
  have hone : ∀ x ∈ (Exporting.store []).routes.rows, x.1 = "route" := by decide +kernel
  have hallowed : ∀ x ∈ exportedRoutes (Exporting.store []) Exporting.administrator,
      assertTargetAllowed World.plain (x.2.string .targetUrl) none = none := by decide +kernel
  have hrefused : ¬Succeeds (postImport World.plain Exporting.administrator Exporting.draws
      (importBody ((exportedRoutes (Exporting.store []) Exporting.administrator).map exportedRow))) Store.empty := by
    decide +kernel
  obtain ⟨s', hret, -⟩ := h World.plain (Exporting.store []) Store.empty Exporting.administrator Exporting.administrator
    Exporting.draws (Exporting.one_name hone) Exporting.empty_noRoutes rfl Exporting.draws_apart
    (Exporting.made hone (by decide +kernel)) hallowed
  exact hrefused ⟨_, s', hret⟩

end ClusterGate
