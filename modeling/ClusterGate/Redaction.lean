/-
  ClusterGate.Redaction — what the answers of the routes endpoints tell of the routes'
  secrets.

  Two stores differ only in the values of secrets. The list and the single route mask
  them, so their answers differ only where a secret is empty in one store and not in the
  other. Every answer that shows a row or a snapshot as it is stored tells its secrets:
  the archived routes, the versions, and what publishing, deactivating, restoring,
  duplicating and updating answer with. An update also tells whether a secret was changed,
  by the version it counts, and a filed one shows what it would change.
  - `page_told`, `archived_told`, `versions_told`: what the lists show.
  - `answers_tell`: exactly when a call answers alike in both.
  - `publishing_shows_a_secret`: two answers to one call, told apart by a password.
-/

import ClusterGate.Route.AnswersTwice

namespace ClusterGate

open Lib Lib.Act Lib.Table

/-! ## Lists -/

section Lists

variable {T : Tables} {s t : Store} {u : Caller} {orgs : Option (List String)} {query : RouteQuery} {r r' : Row}

theorem inScope_same (hr : RowAlike r r') : inScope orgs r = inScope orgs r' := by
  unfold inScope
  rw [hr.text (by decide)]

theorem selects_same (hr : RowAlike r r') : query.selects T orgs r = query.selects T orgs r' := by
  unfold RouteQuery.selects Row.strings
  simp only [List.any_cons, List.any_nil, hr.live, hr.text (c := .name) (by decide), hr.text (c := .description) (by decide),
    hr.text (c := .publicPath) (by decide), hr.text (c := .targetUrl) (by decide), hr .status (by decide),
    hr .isActive (by decide), hr .tags (by decide), hr .environment (by decide), hr .organizationId (by decide),
    inScope_same hr]

theorem sortColumn_public : query.sortColumn ∉ secretColumns := by
  unfold RouteQuery.sortColumn
  split <;> decide

theorem pageRows_alike (h : SameButSecrets s t) :
    List.Forall₂ (Beside fun r r' => SecretsAside r.val r'.val) (pageRows T s orgs query) (pageRows T t orgs query) := by
  unfold pageRows
  refine List.forall₂_take _ (List.forall₂_drop _ (forall₂_insertionSort (fun a a' b b' hab hab' => ?_) ?_))
  · unfold RouteQuery.inOrder
    rw [hab.2.public _ sortColumn_public, hab'.2.public _ sortColumn_public]
  · exact h.routes.filter fun _ _ _ hr => selects_same hr.public

theorem listed_iff {k : String} (hr : SecretsAside r.val r'.val) :
    listed T (k, r) = listed T (k, r') ↔ BlankAlike r.val r'.val := by
  rw [← masked_iff hr]
  unfold listed
  rw [Shown.mk.injEq, hr.public .createdById (by decide), hr.public .updatedById (by decide),
    hr.public .organizationId (by decide)]
  exact ⟨fun he => he.2.1, fun he => ⟨rfl, he, rfl⟩⟩

theorem mem_pageRows {k : String} (h : (k, r) ∈ pageRows T s orgs query) : (k, r) ∈ s.routes.rows := by
  have hm := List.mem_of_mem_drop (List.mem_of_mem_take h)
  exact (List.mem_filter.1 ((List.mem_insertionSort _).1 hm)).1

/-- The database takes the query, and the caller is looked up something. -/
structure Listed (s : Store) (u : Caller) (query : RouteQuery) : Prop where
  valid : query.valid = true
  skip : 0 ≤ query.skip
  scope : orgScope s u ≠ some []

theorem page_told (h : SameButSecrets s t) :
    listRoutes T s u query = listRoutes T t u query ↔
      (Listed s u query → ∀ k r r', (k, r) ∈ pageRows T s (orgScope s u) query → t.routes.get? k = some r' →
        BlankAlike r.val r'.val) := by
  have total : (s.routes.filter fun _ r => query.selects T (orgScope s u) r).rows.length =
      (t.routes.filter fun _ r => query.selects T (orgScope s u) r).rows.length :=
    List.Forall₂.length_eq (h.routes.filter fun _ _ _ hr => selects_same hr.public)
  have page : (pageRows T s (orgScope s u) query).map (listed T) = (pageRows T t (orgScope s u) query).map (listed T) ↔
      ∀ k r r', (k, r) ∈ pageRows T s (orgScope s u) query → t.routes.get? k = some r' → BlankAlike r.val r'.val :=
    map_eq_iff (pageRows_alike h) (fun x hx => mem_pageRows hx) fun _ _ _ hr => listed_iff hr
  unfold listRoutes
  rw [← orgScope_same h.veiled (u := u)]
  by_cases hscope : orgScope s u = some []
  · rw [if_pos hscope, if_pos hscope]
    exact iff_of_true rfl fun hl => absurd hscope hl.scope
  · rw [if_neg hscope, if_neg hscope]
    unfold getRoutes
    by_cases hv : query.valid = false
    · rw [if_pos hv, if_pos hv]
      exact iff_of_true rfl fun hl => by rw [hl.valid] at hv; cases hv
    · rw [if_neg hv, if_neg hv]
      by_cases hskip : query.skip < 0
      · rw [if_pos hskip, if_pos hskip]
        exact iff_of_true rfl fun hl => absurd hskip (Int.not_lt.2 hl.skip)
      · have hlisted : Listed s u query := ⟨(Bool.not_eq_false _) ▸ hv, Int.not_lt.1 hskip, hscope⟩
        rw [if_neg hskip, if_neg hskip, total, Except.ok.injEq, Answer.page.injEq]
        constructor
        · exact fun he _ => page.1 he.1
        · exact fun hb => ⟨page.2 (hb hlisted), rfl, rfl, rfl, rfl⟩

theorem archivedRows_alike (h : SameButSecrets s t) :
    List.Forall₂ (Beside fun r r' => SecretsAside r.val r'.val) (archivedRows T s orgs) (archivedRows T t orgs) := by
  unfold archivedRows
  refine List.forall₂_take _ (forall₂_insertionSort (fun a a' b b' hab hab' => ?_) ?_)
  · unfold archivedLater
    rw [hab.2.public .deletedAt (by decide), hab'.2.public .deletedAt (by decide)]
  · refine h.routes.filter fun _ r r' hr => ?_
    have hr : RowAlike r r' := hr.public
    unfold isArchivedOf
    rw [hr.live, inScope_same hr]

theorem mem_archivedRows {k : String} (h : (k, r) ∈ archivedRows T s orgs) : (k, r) ∈ s.routes.rows :=
  (List.mem_filter.1 ((List.mem_insertionSort _).1 (List.mem_of_mem_take h))).1

theorem unarchived_iff {k : String} (hr : SecretsAside r.val r'.val) :
    unarchived T (k, r) = unarchived T (k, r') ↔ SecretsSame r.val r'.val := by
  unfold unarchived
  rw [Shown.mk.injEq, hr.public .createdById (by decide), hr.public .updatedById (by decide),
    hr.public .organizationId (by decide)]
  constructor
  · intro he c hc
    have hcol := congrFun he.2.1 c
    have hplain : ¬(c = .publicPath ∨ c = .slug) := by
      rintro (rfl | rfl) <;> exact absurd hc (by decide)
    simpa only [if_neg hplain] using hcol
  · intro hs
    have hsame : r.val = r'.val := (PublicAlike.eq_iff hr.public).2 hs
    exact ⟨rfl, by rw [hsame], rfl⟩

theorem archived_told (h : SameButSecrets s t) :
    getArchivedRoutes T s u = getArchivedRoutes T t u ↔
      ∀ k r r', (k, r) ∈ archivedRows T s (orgScope s u) → t.routes.get? k = some r' → SecretsSame r.val r'.val := by
  unfold getArchivedRoutes
  rw [Answer.routes.injEq, ← orgScope_same h.veiled]
  exact map_eq_iff (archivedRows_alike h) (fun x hx => mem_archivedRows hx) fun _ _ _ hr => unarchived_iff hr

theorem versionRows_alike {id : String} (h : SameButSecrets s t) :
    List.Forall₂ (Beside VersionAside) (versionRows T s id) (versionRows T t id) := by
  unfold versionRows
  refine forall₂_insertionSort (fun a a' b b' hab hab' => ?_) ?_
  · unfold laterVersion
    rw [hab.2.version, hab'.2.version]
  · exact h.routeVersions.filter fun _ _ _ hv => by rw [hv.routeId]

theorem mem_versionRows {id k : String} {v : RouteVersion} : (k, v) ∈ versionRows T s id ↔ VersionOf s id k v := by
  unfold versionRows
  rw [List.mem_insertionSort]
  constructor
  · intro h
    obtain ⟨hm, hid⟩ := List.mem_filter.1 h
    exact ⟨mem_rows_iff.1 hm, of_decide_eq_true hid⟩
  · exact fun h => List.mem_filter.2 ⟨mem_rows_iff.2 h.found, decide_eq_true h.ofRoute⟩

theorem shownVersion_iff {k : String} {v v' : RouteVersion} (h : VersionAside v v') :
    shownVersion T (k, v) = shownVersion T (k, v') ↔ SecretsSame v.snapshot v'.snapshot := by
  rw [← PublicAlike.eq_iff h.snapshot.public]
  obtain ⟨hid, hver, hby, -⟩ := h
  obtain ⟨routeId, version, snapshot, createdById⟩ := v
  obtain ⟨routeId', version', snapshot', createdById'⟩ := v'
  dsimp only at hid hver hby ⊢
  subst hid hver hby
  unfold shownVersion
  rw [ShownVersion.mk.injEq, RouteVersion.mk.injEq]
  exact ⟨fun he => he.2.1.2.2.1, fun he => ⟨rfl, ⟨rfl, rfl, he, rfl⟩, rfl, rfl⟩⟩

end Lists

/-! ## One route -/

section One

variable {T : Tables} {W : World} {s t : Store} {u : Caller} {d : Draw} {id : String}

theorem requireRouteView_same (h : Veiled s t) :
    Act.Alike Veiled (fun _ _ => True) (requireRouteView u id) (requireRouteView u id) s t := by
  unfold requireRouteView
  refine alike_read_bind ?_
  rw [canViewRouteById_same h]
  exact (alike_require Iff.rfl h).mono fun _ _ _ => trivial

/-- The answer to a viewer of a live route. -/
def viewed (f : Store → Row → Answer) (s : Store) (u : Caller) (id : String) : Except Err Answer :=
  if canViewRouteById s u id then
    match liveRoute? s id with
    | some route => .ok (f s route)
    | none => .error (.notFound "Route")
  else .error (.notFound "Route")

theorem getRoute_viewed : ((getRoute T u id) s).1 = viewed (fun s route => .route (detailed T s id route)) s u id := by
  unfold viewed getRoute requireRouteView
  show ((require _ _ >>= _ : Handler Answer) s).1 = _
  by_cases hv : canViewRouteById s u id = true
  · rw [require_bind hv, if_pos hv]
    show ((orThrow (liveRoute? s id) _ >>= _ : Handler Answer) s).1 = _
    cases liveRoute? s id <;> rfl
  · rw [require_bind_not hv, if_neg hv]
    rfl

theorem getVersions_viewed :
    ((getVersions T u id) s).1 = viewed (fun s _ => .versions ((versionRows T s id).map (shownVersion T))) s u id := by
  unfold viewed getVersions requireRouteView
  show ((require _ _ >>= _ : Handler Answer) s).1 = _
  by_cases hv : canViewRouteById s u id = true
  · rw [require_bind hv, if_pos hv]
    show ((orThrow (liveRoute? s id) _ >>= _ : Handler Answer) s).1 = _
    cases liveRoute? s id <;> rfl
  · rw [require_bind_not hv, if_neg hv]
    rfl

theorem viewed_told {f : Store → Row → Answer} {P : Row → Row → Prop} (h : Veiled s t)
    (hP : ∀ r r', liveRoute? s id = some r → liveRoute? t id = some r' → (f s r = f t r' ↔ P r r')) :
    viewed f s u id = viewed f t u id ↔
      (canViewRouteById s u id = true → ∀ r r', liveRoute? s id = some r → liveRoute? t id = some r' → P r r') := by
  unfold viewed
  rw [← canViewRouteById_same h]
  by_cases hv : canViewRouteById s u id = true
  · rw [if_pos hv, if_pos hv]
    have hrow := liveRoute?_alike h id
    generalize liveRoute? s id = o at hrow hP
    generalize liveRoute? t id = o' at hrow hP
    cases hrow with
    | none => exact iff_of_true rfl fun _ r _ hr => by cases hr
    | @some r r' _ =>
      dsimp only
      rw [Except.ok.injEq, hP r r' rfl rfl]
      constructor
      · intro hp _ a b ha hb
        cases ha
        cases hb
        exact hp
      · exact fun hall => hall hv r r' rfl rfl
  · rw [if_neg hv, if_neg hv]
    exact iff_of_true rfl fun hyes => absurd hyes hv

theorem get_told (h : SameButSecrets s t) :
    ((getRoute T u id) s).1 = ((getRoute T u id) t).1 ↔
      (canViewRouteById s u id = true →
        ∀ r r', liveRoute? s id = some r → liveRoute? t id = some r' → BlankAlike r.val r'.val) := by
  rw [getRoute_viewed, getRoute_viewed]
  refine viewed_told h.veiled fun r r' hr hr' => ?_
  have hrow := h.routes.get? id
  rw [(liveRoute?_iff.1 hr).1, (liveRoute?_iff.1 hr').1] at hrow
  obtain ⟨hrow⟩ := hrow
  have versions : (s.routeVersions.filter fun _ v => v.routeId = id).rows.length =
      (t.routeVersions.filter fun _ v => v.routeId = id).rows.length :=
    List.Forall₂.length_eq (h.routeVersions.filter fun _ _ _ hv => by rw [hv.routeId])
  rw [← masked_iff hrow, Answer.route.injEq]
  unfold detailed
  rw [Shown.mk.injEq, versions, hrow.public .createdById (by decide), hrow.public .updatedById (by decide),
    hrow.public .organizationId (by decide)]
  exact ⟨fun he => he.2.1, fun he => ⟨rfl, he, rfl⟩⟩

/-- The versions of a live route are shown to its viewers as they are stored. -/
def VersionsTold (s t : Store) (u : Caller) (id : String) : Prop :=
  canViewRouteById s u id = true → (liveRoute? s id).isSome → ∀ k v v', VersionOf s id k v →
    t.routeVersions.get? k = some v' → SecretsSame v.snapshot v'.snapshot

theorem versions_told (h : SameButSecrets s t) :
    ((getVersions T u id) s).1 = ((getVersions T u id) t).1 ↔ VersionsTold s t u id := by
  have rows : (versionRows T s id).map (shownVersion T) = (versionRows T t id).map (shownVersion T) ↔
      ∀ k v v', VersionOf s id k v → t.routeVersions.get? k = some v' → SecretsSame v.snapshot v'.snapshot := by
    have mem : ∀ x ∈ versionRows T t id, x ∈ t.routeVersions.rows := fun x hx =>
      mem_rows_iff.2 (mem_versionRows.1 hx).found
    simp only [← mem_versionRows (T := T)]
    exact map_eq_iff (versionRows_alike h) mem fun _ _ _ hv => shownVersion_iff hv
  rw [getVersions_viewed, getVersions_viewed, viewed_told h.veiled fun _ _ _ _ => by rw [Answer.versions.injEq, rows]]
  unfold VersionsTold
  have hrow := liveRoute?_alike h.veiled id
  generalize liveRoute? s id = o at hrow
  generalize liveRoute? t id = o' at hrow
  cases hrow with
  | none => exact ⟨fun _ _ hsome => absurd hsome (by decide), fun _ _ r _ hr => (by cases hr)⟩
  | @some r r' _ => exact ⟨fun hall hv _ => hall hv r r' rfl rfl, fun hall hv _ _ _ _ => hall hv rfl⟩

/-- What is reported of a route knows nothing of its secrets. -/
theorem report_same {f : Row → Json} (h : Veiled s t) (hf : ∀ r r', RowAlike r r' → f r = f r') :
    Act.Alike Veiled Eq (do requireRouteView u id; let route ← findLive id; pure (.report (f route)) : Handler Answer)
      (do requireRouteView u id; let route ← findLive id; pure (.report (f route))) s t := by
  refine alike_bind (requireRouteView_same h) fun _ _ s t _ h => alike_bind (findLive_alike h) fun r r' s t hr h => ?_
  exact alike_pure h (by rw [hf r r' hr.1])

theorem viewReport_same {a : Answer} (h : Veiled s t) :
    Act.Alike Veiled Eq (do requireRouteView u id; pure a : Handler Answer) (do requireRouteView u id; pure a) s t :=
  alike_bind (requireRouteView_same h) fun _ _ _ _ _ h => alike_pure h rfl

theorem probed_same {r r' : Row} (hr : RowAlike r r') : PROBED.map r.val = PROBED.map r'.val := by
  refine List.map_congr_left fun c hc => hr c ?_
  revert c
  decide

theorem resolveRouteId_same (h : Veiled s t) (idOrSlug : String) : resolveRouteId s idOrSlug = resolveRouteId t idOrSlug := by
  have there : (s.routes.get? idOrSlug).isSome = (t.routes.get? idOrSlug).isSome := by
    have hrow := h.routes.get? idOrSlug
    generalize s.routes.get? idOrSlug = o at hrow
    generalize t.routes.get? idOrSlug = o' at hrow
    cases hrow <;> rfl
  have hfind : Option.Rel (Beside RowAlike) (s.routes.find? fun _ r => r.val .slug = .str idOrSlug)
      (t.routes.find? fun _ r => r.val .slug = .str idOrSlug) :=
    h.routes.find? fun _ r r' hr => by rw [hr .slug (by decide)]
  unfold resolveRouteId
  rw [there]
  generalize s.routes.find? (fun _ r => r.val .slug = .str idOrSlug) = o at hfind
  generalize t.routes.find? (fun _ r => r.val .slug = .str idOrSlug) = o' at hfind
  cases hfind with
  | none => rfl
  | some hxy => rw [Option.map_some, Option.map_some, hxy.1]

theorem checkPath_same (h : Veiled s t) (path excludeId : Option String) : checkPath s path excludeId = checkPath t path excludeId := by
  have excluded : (excludeId.filter (· ≠ "")).map (fun id => (resolveRouteId s id).getD id) =
      (excludeId.filter (· ≠ "")).map fun id => (resolveRouteId t id).getD id := by
    simp only [resolveRouteId_same h]
  unfold checkPath
  cases path.filter (· ≠ "") with
  | none => rfl
  | some path =>
    dsimp only
    rw [excluded]
    generalize (excludeId.filter (· ≠ "")).map (fun id => (resolveRouteId t id).getD id) = excluded
    have hfind : Option.Rel (Beside RowAlike)
        (s.routes.find? fun id r => r.val .publicPath = .str path && r.live && decide (excluded ≠ some id))
        (t.routes.find? fun id r => r.val .publicPath = .str path && r.live && decide (excluded ≠ some id)) :=
      h.routes.find? fun _ r r' hr => by rw [hr .publicPath (by decide), hr.live]
    generalize s.routes.find? (fun id r => r.val .publicPath = .str path && r.live && decide (excluded ≠ some id)) = o at hfind
    generalize t.routes.find? (fun id r => r.val .publicPath = .str path && r.live && decide (excluded ≠ some id)) = o' at hfind
    cases hfind with
    | none => rfl
    | @some x y hxy =>
      have name : x.2.val .name = y.2.val .name := hxy.2 .name (by decide)
      rw [Option.map_some, Option.map_some, hxy.1, name]

/-- An export has no secrets in it. -/
theorem exportRoutes_same (h : Veiled s t) (now : String) : exportRoutes s u now = exportRoutes t u now := by
  have shown : ∀ c ∈ EXPORTED, c ∉ secretColumns := by decide
  have rows : Table.Alike RowAlike (s.routes.filter fun _ r => r.live && inScope (orgScope s u) r)
      (t.routes.filter fun _ r => r.live && inScope (orgScope s u) r) :=
    h.routes.filter fun _ r r' hr => by rw [hr.live, inScope_same hr]
  unfold exportRoutes
  rw [← orgScope_same h, Answer.exported.injEq]
  refine ⟨List.forall₂_eq_eq_eq ▸ ?_, rfl⟩
  rw [List.forall₂_map_left_iff, List.forall₂_map_right_iff]
  refine List.Forall₂.imp (fun x y hxy => ?_) rows
  funext c
  unfold exportedRow
  by_cases hc : c ∈ EXPORTED
  · rw [if_pos hc, if_pos hc, hxy.2 c (shown c hc)]
  · rw [if_neg hc, if_neg hc]

end One

/-! ## Every endpoint -/

/-- The answers of an endpoint that writes tell nothing. -/
def RouteOp.ToldAlike (W : World) (u : Caller) (d : Draw) (s t : Store) : RouteOp → Prop
  | .update id body => PutTold W u d id body s t
  | .publish id | .deactivate id => ∀ r r', Managed s u id r → Managed t u id r' → SecretsSame r.val r'.val
  | .restore id => ∀ r r', Restorable s u d.now id r → Restorable t u d.now id r' → SecretsSame r.val r'.val
  | .duplicate id => ∀ r r', Copied s u d id r → Copied t u d id r' → SecretsSame r.val r'.val
  | .restoreVersion id versionId => u.role = .ADMIN → ∀ v v', VersionOf s id versionId v → VersionOf t id versionId v' →
    UpdateTold W d id u.userId s t (snapshotData v) (snapshotData v')
  | _ => True

/-- The answers of an endpoint tell nothing. -/
def RouteCall.ToldAlike (T : Tables) (W : World) (u : Caller) (d : Draw) (s t : Store) : RouteCall → Prop
  | .list query => Listed s u query → ∀ k r r', (k, r) ∈ pageRows T s (orgScope s u) query →
    t.routes.get? k = some r' → BlankAlike r.val r'.val
  | .get id => canViewRouteById s u id = true →
    ∀ r r', liveRoute? s id = some r → liveRoute? t id = some r' → BlankAlike r.val r'.val
  | .archived => ∀ k r r', (k, r) ∈ archivedRows T s (orgScope s u) → t.routes.get? k = some r' →
    SecretsSame r.val r'.val
  | .versions id => VersionsTold s t u id
  | .write op => op.ToldAlike W u d s t
  | _ => True

theorem stored_injective (id : String) : Function.Injective (stored id) := fun _ _ h =>
  Row.ext fun c => congrFun (Shown.mk.inj (Answer.route.inj h)).2.1 c

section Answers

variable {T : Tables} {W : World} {s t : Store} {u : Caller} {d : Draw} {id : String}

theorem updatedAnswer_injective : Function.Injective (Updated.answer T u d id) := by
  intro a b h
  cases a with
  | written route =>
    cases b with
    | written route' => rw [stored_injective id h]
    | requested request diff => cases h
  | requested request diff =>
    cases b with
    | written route => cases h
    | requested request' diff' =>
      obtain ⟨-, hr, hd, -⟩ := Answer.requested.inj h
      rw [hr, hd]

theorem answer_write_told (h : SameButSecrets s t) (op : RouteOp) :
    (op.answer T W u d s).1 = (op.answer T W u d t).1 ↔ op.ToldAlike W u d s t := by
  -- what is answered with the same value
  have silent : ∀ {α : Type} {x : Handler α} {f : α → Answer}, Act.Alike Veiled Eq x x s t →
      (((do let a ← x; pure (f a) : Handler Answer) s).1 = ((do let a ← x; pure (f a) : Handler Answer) t).1 ↔ True) := by
    intro α x f hx
    have hanswer : Act.Alike Veiled Eq (do let a ← x; pure (f a) : Handler Answer) (do let a ← x; pure (f a)) s t :=
      alike_bind hx fun a b s t hab h => alike_pure h (congrArg f hab)
    exact iff_true_intro hanswer.outcome_eq
  cases op with
  | create body => exact silent (postRoute_same h.veiled)
  | deletePermanently id => exact silent (deletePermanent_same h.veiled)
  | delete id confirmName => exact silent (deleteRouteById_same h.veiled)
  | «import» draws body => exact silent (postImport_same h.veiled)
  | bulkUpdate body => exact silent (postBulkUpdate_same h.veiled)
  | bulkPublish body => exact silent (postBulkPublish_same h.veiled)
  | bulkDeactivate body => exact silent (postBulkDeactivate_same h.veiled)
  | bulkDelete body => exact silent (postBulkDelete_same h.veiled)
  | update id body => exact (outcome_map_iff updatedAnswer_injective _ _).trans (putRoute_told h.veiled)
  | publish id => exact (outcome_map_iff (stored_injective id) _ _).trans (publish_told h.veiled)
  | deactivate id => exact (outcome_map_iff (stored_injective id) _ _).trans (deactivate_told h.veiled)
  | restore id => exact (outcome_map_iff (stored_injective id) _ _).trans (restore_told h.veiled)
  | duplicate id => exact (outcome_map_iff (stored_injective d.routeId) _ _).trans (duplicate_told h.veiled)
  | restoreVersion id versionId => exact (outcome_map_iff (stored_injective id) _ _).trans (restoreVersion_told h)

/-- Exactly when a call is answered alike in two stores that differ only in secrets. -/
theorem answers_tell (T : Tables) (W : World) (u : Caller) (d : Draw) {s t : Store} (h : SameButSecrets s t)
    (call : RouteCall) :
    (call.answer T W u d s).1 = (call.answer T W u d t).1 ↔ call.ToldAlike T W u d s t := by
  cases call with
  | list query => exact page_told h
  | archived =>
    show Except.ok _ = Except.ok _ ↔ _
    rw [Except.ok.injEq]
    exact archived_told h
  | checkPath path excludeId => exact iff_of_true (congrArg Except.ok (checkPath_same h.veiled path excludeId)) trivial
  | «export» =>
    have hanswer : Act.Alike Veiled Eq (RouteCall.export.answer T W u d) (RouteCall.export.answer T W u d) s t := by
      refine alike_bind (authorize_same h.veiled) fun _ _ s t _ h => alike_read_bind ?_
      exact alike_pure h (exportRoutes_same h d.now)
    exact iff_of_true hanswer.outcome_eq trivial
  | get id => exact get_told h
  | versions id => exact versions_told h
  | uptime id days => exact iff_of_true (report_same h.veiled fun _ _ _ => rfl).outcome_eq trivial
  | health id =>
    exact iff_of_true (report_same h.veiled fun _ _ hr => by rw [probed_same hr]).outcome_eq trivial
  | logs id query => exact iff_of_true (viewReport_same h.veiled).outcome_eq trivial
  | stats id => exact iff_of_true (viewReport_same h.veiled).outcome_eq trivial
  | write op => exact answer_write_told h op

end Answers

/-! ## A password in an answer -/

def noTables : Tables where
  user _ := .null
  userName _ := .null
  organization _ := .null
  healthChecks _ := .null
  apiKeys _ := .null
  requestLogs _ := 0
  versionCreatedAt _ := .null
  uptime _ _ := .null
  logs _ _ _ := .null
  stats _ := .null
  probe _ _ := .null
  ilike _ _ := false
  atOrBefore _ _ _ := true

/-- The route behind a password. -/
def guardedRoute (password : String) : Row where
  val c := if c = .authValue then .str password else plainRoute.val c
  typed c := by
    by_cases hc : c = .authValue
    · subst hc
      rfl
    · rw [if_neg hc]
      exact plainRoute.typed c

def oneGuarded (password : String) : Store :=
  { oneOrganization with routes := Table.empty.insert "route" (guardedRoute password) }

theorem oneGuarded_aside (a b : String) : SameButSecrets (oneGuarded a) (oneGuarded b) := by
  have aside : SecretsAside (guardedRoute a).val (guardedRoute b).val := by
    intro c
    by_cases hc : c = .authValue
    · subst hc
      exact .inr ⟨by decide, rfl, rfl⟩
    · left
      show (if c = .authValue then Json.str a else plainRoute.val c) = if c = .authValue then Json.str b else plainRoute.val c
      rw [if_neg hc, if_neg hc]
  exact ⟨rfl, rfl, rfl, rfl, rfl, rfl, rfl, rfl, Table.Alike.insert .nil aside, .nil⟩

def adminCaller : Caller := ⟨"admin", .ADMIN⟩

/-- The route on its own is shown alike behind any two passwords. -/
theorem a_single_route_is_masked : ((RouteCall.get "route").answer noTables World.plain adminCaller Draw.plain (oneGuarded "a")).1 =
    ((RouteCall.get "route").answer noTables World.plain adminCaller Draw.plain (oneGuarded "b")).1 := by
  refine (answers_tell noTables World.plain adminCaller Draw.plain (oneGuarded_aside "a" "b") (.get "route")).2 ?_
  intro _ r r' hr hr' c hc
  have row : ∀ p, liveRoute? (oneGuarded p) "route" = some (guardedRoute p) := fun _ => rfl
  obtain rfl : guardedRoute "a" = r := Option.some.inj ((row "a").symm.trans hr)
  obtain rfl : guardedRoute "b" = r' := Option.some.inj ((row "b").symm.trans hr')
  revert c
  decide +kernel

/-- The credential an answer shows. -/
def shownCredential : Except Err Answer → Option Json
  | .ok (.route data) => some (data.columns .authValue)
  | _ => none

/-- Publishing a route answers with its password. -/
theorem publishing_shows_a_secret :
    ¬ ∀ (T : Tables) (W : World) (u : Caller) (d : Draw) (s t : Store), SameButSecrets s t → ∀ call : RouteCall,
      (call.answer T W u d s).1 = (call.answer T W u d t).1 := by
  intro h
  have hsame := h noTables World.plain adminCaller Draw.plain _ _ (oneGuarded_aside "a" "b") (.write (.publish "route"))
  have shown : ∀ p ∈ ["a", "b"], shownCredential
      ((RouteCall.write (.publish "route")).answer noTables World.plain adminCaller Draw.plain (oneGuarded p)).1 =
      some (.str p) := by decide +kernel
  have hcred := congrArg shownCredential hsame
  rw [shown "a" (by simp), shown "b" (by simp)] at hcred
  exact absurd hcred (by decide)

end ClusterGate
