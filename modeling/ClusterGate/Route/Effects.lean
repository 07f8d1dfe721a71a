/-
  ClusterGate.Route.Effects — what the writers of the route service leave behind, whether
  they return or throw.

  Each lemma says how the routes table may differ afterwards, row by row (`Changes`), and
  that a version stored is a snapshot of a row that is there.
  - `createRoute_keeps`, `updateRoute_keeps`: the two writers.
  - `routeUpdates_keep`: a transaction of one write a row.
-/

import ClusterGate.Route.Lifecycle

namespace ClusterGate

open Lib Lib.Act Lib.Table

abbrev RowChange := String → Row → Row → Prop

abbrev RowSet := String → Row → Prop

def noRow : RowSet := fun _ _ => False

def noChange : RowChange := fun _ _ _ => False

/-- Only the routes differ, and only so. -/
def RoutesChange (R : RowChange) (C D : RowSet) (s s' : Store) : Prop :=
  ∃ t, s' = { s with routes := t } ∧ Changes R C D s.routes t

theorem RoutesChange.refl {R : RowChange} {C D : RowSet} (s : Store) : RoutesChange R C D s s :=
  ⟨s.routes, rfl, Changes.refl _⟩

/-- A row written with `data` at `now`. -/
def WrittenRow (now : String) (data : Patch) (r r' : Row) : Prop := r.write (stamped now data) = some r'

theorem stamped_ne {now : String} {data : Patch} {c : Column} (h : c ≠ .updatedAt) : stamped now data c = data c :=
  Patch.set_ne _ _ h

/-- A column the data leaves out stays. -/
theorem WrittenRow.same {now : String} {data : Patch} {r r' : Row} (h : WrittenRow now data r r') {c : Column}
    (hc : data c = none) (hu : c ≠ .updatedAt) : r'.val c = r.val c :=
  write_same h (by rw [stamped_ne hu, hc])

/-- A value of the column's type is stored as it is. -/
theorem WrittenRow.plain {now : String} {data : Patch} {r r' : Row} (h : WrittenRow now data r r') {c : Column} {v : Json}
    (hc : data c = some v) (hu : c ≠ .updatedAt) (ha : c.admits v = true) : r'.val c = v :=
  write_plain h (by rw [stamped_ne hu, hc]) ha

theorem WrittenRow.field {now : String} {data : Patch} {r r' : Row} (h : WrittenRow now data r r') {c : Column} {v : Json}
    (hc : data c = some v) (hu : c ≠ .updatedAt) : writeField c (r.val c) v = some (r'.val c) :=
  write_field h (by rw [stamped_ne hu, hc])

/-- A write of values that the columns take, as they are, goes through. -/
theorem write_typed (r : Row) (now : String) {data : Patch} (h : ∀ c v, data c = some v → c.admits v = true) :
    ∃ row, WrittenRow now data r row := by
  refine Option.isSome_iff_exists.1 (write_isSome.2 fun c => ?_)
  unfold written
  by_cases hu : c = .updatedAt
  · subst hu
    simp [stamped, writeField_plain _ (show Column.updatedAt.admits (.str now) = true from rfl)]
  · rw [stamped_ne hu]
    cases hc : data c with
    | none => rfl
    | some v => simp [writeField_plain _ (h c v hc)]

/-! ## One write -/

theorem routeWrite_row {s : Store} {now id : String} {data : Patch} {row : Row} (h : routeWrite s now id data = .ok row) :
    ∃ old, s.routes.get? id = some old ∧ WrittenRow now data old row := routeWrite_ok h

/-- A write the database took leaves no reference to what is not there. -/
theorem routeWrite_refs {s : Store} {now id : String} {data : Patch} {row : Row} (h : routeWrite s now id data = .ok row) :
    refsOk s data row = true := by
  obtain ⟨old, row', ho, hw, hu, hrefs⟩ := routeWrite_takes.1 ⟨row, h⟩
  obtain ⟨old', ho', hw'⟩ := routeWrite_row h
  obtain rfl : old = old' := Option.some.inj (ho.symm.trans ho')
  obtain rfl : row' = row := Option.some.inj (hw.symm.trans hw')
  exact hrefs

theorem routeUpdate_keeps {now id : String} {data : Patch} {s : Store} :
    Keeps (routeUpdate now id data)
      (RoutesChange (fun k r r' => k = id ∧ WrittenRow now data r r') noRow noRow s) s := by
  refine wp_mono routeUpdate_spec ?_ ?_
  · rintro row t ⟨hw, rfl⟩
    obtain ⟨old, ho, hr⟩ := routeWrite_row hw
    exact ⟨_, rfl, (Changes.refl _).modify ho ho ⟨rfl, hr⟩⟩
  · rintro e t ⟨-, rfl⟩
    exact RoutesChange.refl _

theorem routeUpdateMany_keeps {now : String} {sel : String → Row → Bool} {data : Patch} {s : Store} :
    Keeps (routeUpdateMany now sel data)
      (RoutesChange (fun k r r' => sel k r = true ∧ refsOk s data r' = true ∧ WrittenRow now data r r') noRow noRow s) s := by
  refine wp_mono routeUpdateMany_spec ?_ ?_
  · rintro n t ⟨-, hw, rfl⟩
    refine ⟨_, rfl, changes_mapRows fun k r hr => ?_⟩
    by_cases hs : sel k r = true
    · obtain ⟨r', hr', hrefs⟩ := hw k r hr hs
      refine Or.inr ⟨hs, ?_⟩
      rw [writtenIf, if_pos hs, hr']
      exact ⟨hrefs, hr'⟩
    · exact Or.inl (if_neg hs)
  · rintro e t rfl
    exact RoutesChange.refl _

/-- A transaction that writes the rows of a list, each at most once: all of them are
    written, and nothing else. -/
theorem routeUpdates_spec {now : String} (data : String → Row → Patch) {s : Store} {xs : List (String × Row)}
    (hx : ∀ x ∈ xs, s.routes.get? x.1 = some x.2) (hn : (xs.map Prod.fst).Nodup) :
    wp (atomic (xs.forM fun x => do let _ ← routeUpdate now x.1 (data x.1 x.2)))
      (fun _ s' => ∃ t, s' = { s with routes := t } ∧
        (∀ x ∈ xs, ∃ r', (refsOk s (data x.1 x.2) r' = true ∧ WrittenRow now (data x.1 x.2) x.2 r') ∧
          t.get? x.1 = some r') ∧
        ∀ k, (∀ r, (k, r) ∉ xs) → t.get? k = s.routes.get? k)
      (fun _ s' => s' = s) s := by
  rw [wp_atomic]
  -- the rows of what is left of the list are still those of `s`, the others are written
  let I : List (String × Row) → Store → Prop := fun ys s' => ∃ t, s' = { s with routes := t } ∧
    (ys.map Prod.fst).Nodup ∧ (∀ y ∈ ys, t.get? y.1 = some y.2) ∧
    (∀ x ∈ xs, x ∈ ys ∨ ∃ r', (refsOk s (data x.1 x.2) r' = true ∧ WrittenRow now (data x.1 x.2) x.2 r') ∧
      t.get? x.1 = some r') ∧
    (∀ y ∈ ys, y ∈ xs) ∧ ∀ k, (∀ r, (k, r) ∉ xs) → t.get? k = s.routes.get? k
  have hI : I xs s := ⟨s.routes, rfl, hn, hx, fun x h => Or.inl h, fun _ h => h, fun _ _ => rfl⟩
  have hloop : ∀ y ys s', I (y :: ys) s' →
      wp (do let _ ← routeUpdate now y.1 (data y.1 y.2)) (fun _ => I ys) (fun _ _ => True) s' := by
    intro y ys s' h
    obtain ⟨t, rfl, hn, hy, hw, hmem, hsame⟩ := h
    have hr : t.get? y.1 = some y.2 := hy y (by simp)
    rw [List.map_cons, List.nodup_cons] at hn
    rw [wp_bind]
    refine wp_mono routeUpdate_spec ?_ fun _ _ _ => trivial
    intro row s'' h
    obtain ⟨hwrite, rfl⟩ := h
    obtain ⟨old, ho, hrow⟩ := routeWrite_row hwrite
    have hrefs := routeWrite_refs hwrite
    obtain rfl : y.2 = old := by simpa [hr] using ho
    have hne : ∀ z ∈ ys, z.1 ≠ y.1 := fun z hz e => hn.1 (List.mem_map.2 ⟨z, hz, e⟩)
    have hyrow : (t.modify y.1 fun _ => row).get? y.1 = some row := by
      rw [get?_modify, if_pos rfl, hr]
      rfl
    refine ⟨_, rfl, hn.2, ?_, ?_, fun z hz => hmem z (by simp [hz]), ?_⟩
    · intro z hz
      rw [get?_modify, if_neg (hne z hz)]
      exact hy z (by simp [hz])
    · intro x hm
      by_cases e : x.1 = y.1
      · have hxy : x.2 = y.2 := by
          have := hx x hm
          rw [e, hx y (hmem y (by simp)), Option.some.injEq] at this
          exact this.symm
        obtain rfl : x = y := Prod.ext e hxy
        exact Or.inr ⟨row, ⟨hrefs, hrow⟩, hyrow⟩
      · rcases hw x hm with h | ⟨r', hr', h⟩
        · rcases List.mem_cons.1 h with rfl | h
          · exact absurd rfl e
          · exact Or.inl h
        · refine Or.inr ⟨r', hr', ?_⟩
          rw [get?_modify, if_neg e]
          exact h
    · intro k hk
      have hky : k ≠ y.1 := by
        intro e
        subst e
        exact hk y.2 (hmem y (by simp))
      rw [get?_modify, if_neg hky]
      exact hsame k hk
  refine wp_mono (wp_forM_rest hloop xs s hI) ?_ fun _ _ _ => rfl
  intro _ s' h
  obtain ⟨t, rfl, -, -, hw, -, hsame⟩ := h
  refine ⟨t, rfl, fun x hx => ?_, hsame⟩
  rcases hw x hx with h | h
  · cases h
  · exact h

theorem routeUpdates_keep {now : String} (data : String → Row → Patch) {s : Store} {xs : List (String × Row)}
    (hx : ∀ x ∈ xs, s.routes.get? x.1 = some x.2) (hn : (xs.map Prod.fst).Nodup) :
    Keeps (atomic (xs.forM fun x => do let _ ← routeUpdate now x.1 (data x.1 x.2)))
      (RoutesChange (fun k r r' => (k, r) ∈ xs ∧ refsOk s (data k r) r' = true ∧ WrittenRow now (data k r) r r') noRow noRow s)
      s := by
  refine wp_mono (routeUpdates_spec data hx hn) ?_ (by rintro _ _ rfl; exact RoutesChange.refl _)
  intro _ s' h
  obtain ⟨t, rfl, hw, hsame⟩ := h
  refine ⟨t, rfl, fun k => ?_⟩
  by_cases hk : ∃ r, (k, r) ∈ xs
  · obtain ⟨r, hr⟩ := hk
    obtain ⟨r', hr', ht⟩ := hw (k, r) hr
    rw [hx (k, r) hr, ht]
    exact Or.inr ⟨hr, hr'⟩
  · rw [hsame k fun r hr => hk ⟨r, hr⟩]
    exact Changes.refl (R := fun k r r' => (k, r) ∈ xs ∧ refsOk s (data k r) r' = true ∧ WrittenRow now (data k r) r r')
      (C := noRow) (D := noRow) s.routes k

/-! ## Freeing a path -/

/-- An archived route whose path was made longer. -/
def Freed (_ : String) (r r' : Row) : Prop :=
  r.live = false ∧ (∃ p q, r.val .publicPath = .str p ∧ r'.val .publicPath = .str (p ++ q)) ∧
    ∀ c, c ≠ .publicPath → c ≠ .updatedAt → r'.val c = r.val c

theorem Freed.live {id : String} {r r' : Row} (h : Freed id r r') : r'.live = false := by
  rw [← h.1, Row.live, Row.live, h.2.2 .deletedAt (by decide) (by decide)]

theorem Freed.trans {id : String} {r r' r'' : Row} (h : Freed id r r') (h' : Freed id r' r'') : Freed id r r'' := by
  obtain ⟨hl, ⟨p, q, hp, hq⟩, hc⟩ := h
  obtain ⟨-, ⟨p', q', hp', hq'⟩, hc'⟩ := h'
  rw [hq, Json.str.injEq] at hp'
  refine ⟨hl, ⟨p, q ++ q', hp, by rw [hq', ← hp', String.append_assoc]⟩, fun c h1 h2 => ?_⟩
  rw [hc' c h1 h2, hc c h1 h2]

theorem freeSoftDeletedPublicPath_keeps {now : String} {path : Json} {s : Store} :
    Keeps (freeSoftDeletedPublicPath now path) (RoutesChange Freed noRow noRow s) s := by
  simp only [Keeps, freeSoftDeletedPublicPath, wp_bind, wp_read]
  cases hf : s.routes.find? fun _ r => r.val .publicPath = path && !r.live with
  | none => exact RoutesChange.refl s
  | some stale =>
    obtain ⟨id, r⟩ := stale
    obtain ⟨hr, hp⟩ := find?_some hf
    simp only [Bool.and_eq_true, Bool.not_eq_true'] at hp
    simp only [wp_bind]
    refine wp_mono routeUpdate_keeps ?_ ?_ <;>
    · rintro _ s' ⟨t, rfl, hc⟩
      refine ⟨t, rfl, hc.mono ?_ (fun _ _ _ h => h) fun _ _ _ h => h⟩
      rintro k a b ha ⟨rfl, hw⟩
      obtain rfl : r = a := by simpa [hr] using ha
      obtain ⟨p, hpath⟩ := r.string_val (c := .publicPath) rfl rfl
      refine ⟨hp.2, ⟨p, ARCHIVE_TAG ++ k, hpath, ?_⟩, fun c h1 h2 => hw.same ?_ h2⟩
      · rw [hw.plain (c := .publicPath) rfl (by decide) rfl, Row.text, hpath, Json.str?, Option.getD_some,
          String.append_assoc]
      · simp [Patch.ofList, Ne.symm h1]

/-! ## The checks of the writers -/

/-- Every rewrite rule's pattern is safe. -/
def RulesSafe (W : World) (rules : Option Json) : Prop :=
  ∀ rule ∈ rewriteRulesOf (rules.getD .null), isSafeRegex W rule.1 = true

theorem checkRewriteRules_spec {W : World} {rules : Option Json} {s : Store} :
    wp (checkRewriteRules W rules) (fun _ s' => s' = s ∧ RulesSafe W rules) (fun _ s' => s' = s ∧ ¬ RulesSafe W rules) s := by
  refine wp_forM_checks (P := fun rule : String × String => isSafeRegex W rule.1 = true) ?_ ⟨?_, ?_⟩
  · intro rule _
    rw [wp_require]
    exact ⟨fun h => ⟨rfl, h⟩, fun h => ⟨rfl, h⟩⟩
  · exact fun h => ⟨rfl, h⟩
  · rintro ⟨rule, hm, hn⟩ e
    exact ⟨rfl, fun h => hn (h rule hm)⟩

/-- The targets an update leaves on a route are allowed in the organization it leaves the
    route in: the new target, or after a move the old one, and after a move the
    load-balancing targets. -/
structure TargetsAllowed (W : World) (s : Store) (id : String) (existing : Row) (data : Patch) : Prop where
  new : ((data .targetUrl).getD .null).truthy = true →
    targetRefused W s (textOf (withTarget data .targetUrl)) (effectiveOrg existing data) = none
  old : ((data .targetUrl).getD .null).truthy = false → (movesTo existing data).isSome = true →
    targetRefused W s (textOf (some (existing.val .targetUrl))) (effectiveOrg existing data) = none
  others : (movesTo existing data).isSome = true → ∀ k t, s.routeTargets.get? k = some t → t.routeId = id →
    targetRefused W s t.url (effectiveOrg existing data) = none

theorem checkTargets_spec {W : World} {id : String} {existing : Row} {data : Patch} {s : Store} :
    wp (checkTargets W id existing data) (fun _ s' => s' = s ∧ TargetsAllowed W s id existing data)
      (fun _ s' => s' = s ∧ ¬ TargetsAllowed W s id existing data) s := by
  -- the loop over the load-balancing targets, once the target itself has passed
  have others : (((data .targetUrl).getD .null).truthy = true →
        targetRefused W s (textOf (withTarget data .targetUrl)) (effectiveOrg existing data) = none) →
      (((data .targetUrl).getD .null).truthy = false → (movesTo existing data).isSome = true →
        targetRefused W s (textOf (some (existing.val .targetUrl))) (effectiveOrg existing data) = none) →
      wp (when (movesTo existing data).isSome
          ((s.routeTargets.filter fun _ t => t.routeId = id).rows.forM fun t =>
            assertRouteTargetAllowed W t.2.url (effectiveOrg existing data)))
        (fun _ s' => s' = s ∧ TargetsAllowed W s id existing data)
        (fun _ s' => s' = s ∧ ¬ TargetsAllowed W s id existing data) s := by
    intro hn ho
    rw [wp_when]
    refine ⟨fun hm => ?_, fun hm => ⟨rfl, hn, ho, fun h => absurd h hm⟩⟩
    refine wp_forM_checks (P := fun t : String × RouteTarget => targetRefused W s t.2.url (effectiveOrg existing data) = none)
      (fun t _ => ?_) ⟨fun h => ⟨rfl, hn, ho, fun _ k t ht hid => ?_⟩, ?_⟩
    · rw [wp_assertRouteTargetAllowed]
      exact ⟨fun h => ⟨rfl, h⟩, fun m h => ⟨rfl, by rw [h]; exact nofun⟩⟩
    · refine h (k, t) (mem_rows_iff.2 ?_)
      rw [get?_filter, ht, Option.filter_some, if_pos (by simpa using hid)]
    · rintro ⟨⟨k, t⟩, ht, hr⟩ e
      rw [mem_rows_iff, get?_filter, Option.filter_eq_some_iff] at ht
      exact ⟨rfl, fun hall => hr (hall.others hm k t ht.1 (by simpa using ht.2))⟩
  unfold checkTargets
  by_cases hu : ((data .targetUrl).getD .null).truthy = true
  · rw [if_pos hu, wp_bind, wp_assertRouteTargetAllowed]
    refine ⟨fun h => ?_, fun m hm => ⟨rfl, fun hall => ?_⟩⟩
    · rw [wp_bind, wp_read]
      exact others (fun _ => h) fun h' => absurd hu (by simp [h'])
    · have := hall.new hu
      rw [hm] at this
      cases this
  · have hu' : ((data .targetUrl).getD .null).truthy = false := by simpa using hu
    rw [if_neg hu, wp_bind, wp_when]
    refine ⟨fun hm => ?_, fun hm => ?_⟩
    · rw [wp_assertRouteTargetAllowed]
      refine ⟨fun h => ?_, fun m hr => ⟨rfl, fun hall => ?_⟩⟩
      · rw [wp_bind, wp_read]
        exact others (fun h' => absurd h' hu) fun _ _ => h
      · have := hall.old hu' hm
        rw [hr] at this
        cases this
    · rw [wp_bind, wp_read]
      exact others (fun h' => absurd h' hu) fun _ h => absurd h hm

/-! ## Versions -/

/-- Versions from before, and snapshots of rows in `V`. -/
def VersionsOf (V : RowSet) (vs vs' : Table String RouteVersion) : Prop :=
  ∀ k v, vs'.get? k = some v → vs.get? k = some v ∨ ∃ r, V v.routeId r ∧ v.snapshot = r.val

/-- Only the routes and their versions differ, and only so. -/
def WriterEffect (R : RowChange) (C D V : RowSet) (s s' : Store) : Prop :=
  ∃ t vs, s' = { s with routes := t, routeVersions := vs } ∧ Changes R C D s.routes t ∧
    VersionsOf V s.routeVersions vs

theorem RoutesChange.writer {R : RowChange} {C D V : RowSet} {s s' : Store} (h : RoutesChange R C D s s') :
    WriterEffect R C D V s s' := by
  obtain ⟨t, rfl, hc⟩ := h
  exact ⟨t, s.routeVersions, rfl, hc, fun _ _ hv => Or.inl hv⟩

/-! ## The writers -/

/-- A row `createRoute` makes of its data; the slug is picked after a path was freed. -/
def CreatedRow (W : World) (s : Store) (d : Draw) (data : Patch) (userId : String) (r' : Row) : Prop :=
  targetRefused W s (textOf (withTarget data .targetUrl)) ((data .organizationId).getD .null) = none ∧
    Text.startsWith (textOf (data .publicPath)) "/" = true ∧
    ∃ t, Row.create (stamped d.now ((createData W t d data userId).set .createdAt (.str d.now))) = some r'

/-- The rows a create may add. -/
def createdBy (W : World) (s : Store) (d : Draw) (data : Patch) (userId : String) : RowSet := fun k r' =>
  k = d.routeId ∧ CreatedRow W s d data userId r'

/-- A create that got as far as the database: a path was freed, and the row is new. -/
structure Creation (W : World) (s : Store) (d : Draw) (data : Patch) (userId : String) (row : Row) (t : Table String Row) :
    Prop where
  freed : Changes Freed noRow noRow s.routes t
  fresh : t.get? d.routeId = none
  row : CreatedRow W s d data userId row

/-- A create stores its row and a first version of it, unless something is refused; the path
    it freed stays freed. -/
theorem createRoute_spec {W : World} {d : Draw} {data : Patch} {userId : String} {s : Store} :
    wp (createRoute W d data userId)
      (fun row s' => ∃ t, Creation W s d data userId row t ∧ s.routeVersions.get? d.versionId = none ∧
        s' = { s with routes := t.insert d.routeId row,
                      routeVersions := s.routeVersions.insert d.versionId ⟨d.routeId, .num 1, row.val, userId⟩ })
      (fun _ s' => RoutesChange Freed noRow noRow s s' ∨
        ∃ row t, Creation W s d data userId row t ∧ (s.routeVersions.get? d.versionId).isSome = true ∧
          s' = { s with routes := t.insert d.routeId row }) s := by
  unfold createRoute
  simp only [wp_bind, wp_assertRouteTargetAllowed]
  refine ⟨fun ht => ?_, fun _ _ => Or.inl (RoutesChange.refl s)⟩
  refine wp_mono freeSoftDeletedPublicPath_keeps ?_ fun _ _ h => Or.inl h
  rintro _ s₁ ⟨t, rfl, hf⟩
  have freed : RoutesChange Freed noRow noRow s { s with routes := t } := ⟨t, rfl, hf⟩
  rw [wp_bind, wp_require]
  refine ⟨fun hp => ?_, fun _ => Or.inl freed⟩
  rw [wp_bind]
  refine wp_mono checkRewriteRules_spec ?_ fun _ _ h => Or.inl (h.1 ▸ freed)
  rintro _ s₂ ⟨rfl, -⟩
  rw [wp_bind, wp_read, wp_bind]
  refine wp_mono routeCreate_spec ?_ fun _ _ h => Or.inl (h ▸ freed)
  rintro row s₃ ⟨hfree, hrow, -, -, rfl⟩
  have hC : Creation W s d data userId row t := ⟨hf, hfree, ht, hp, _, hrow⟩
  simp only [versionCreate, wp_bind, wp_read, wp_require, wp_modify, wp_pure]
  refine ⟨fun hv => ⟨t, hC, by simpa using hv, rfl⟩, fun hv => Or.inr ⟨row, t, hC, ?_, rfl⟩⟩
  simpa [Option.isSome_iff_ne_none] using hv

theorem Creation.changes {W : World} {s : Store} {d : Draw} {data : Patch} {userId : String} {row : Row} {t : Table String Row}
    (h : Creation W s d data userId row t) :
    Changes Freed (createdBy W s d data userId) noRow s.routes (t.insert d.routeId row) := by
  have hnew : s.routes.get? d.routeId = none := by
    cases hs : s.routes.get? d.routeId with
    | none => rfl
    | some a => exact (h.freed.gone hs h.fresh).elim
  exact (h.freed.mono (fun _ _ _ _ h => h) (fun _ _ _ h => h.elim) fun _ _ _ h => h).insert hnew h.fresh ⟨rfl, h.row⟩

/-- The versions after one was stored. -/
theorem versionsOf_insert {V : RowSet} {vs : Table String RouteVersion} {versionId : String} {v : RouteVersion}
    (hv : vs.get? versionId = none) {row : Row} (hV : V v.routeId row) (hs : v.snapshot = row.val) :
    VersionsOf V vs (vs.insert versionId v) := by
  intro k w hk
  rw [get?_insert hv] at hk
  by_cases e : k = versionId
  · rw [if_pos e, Option.some.injEq] at hk
    subst hk
    exact Or.inr ⟨row, hV, hs⟩
  · rw [if_neg e] at hk
    exact Or.inl hk

theorem createRoute_keeps {W : World} {d : Draw} {data : Patch} {userId : String} {s : Store} :
    Keeps (createRoute W d data userId)
      (WriterEffect Freed (createdBy W s d data userId) noRow (createdBy W s d data userId) s) s := by
  refine wp_mono createRoute_spec ?_ ?_
  · rintro row _ ⟨t, h, hv, rfl⟩
    exact ⟨_, _, rfl, h.changes, versionsOf_insert hv ⟨rfl, h.row⟩ rfl⟩
  · rintro _ s' (⟨t, rfl, hf⟩ | ⟨row, t, h, -, rfl⟩)
    · exact RoutesChange.writer ⟨t, rfl, hf.mono (fun _ _ _ _ h => h) (fun _ _ _ h => h.elim) fun _ _ _ h => h⟩
    · exact RoutesChange.writer ⟨_, rfl, h.changes⟩

/-- A row `updateRoute` makes of another. -/
def UpdatedRow (W : World) (s : Store) (d : Draw) (id : String) (data : Patch) (userId : String) (r r' : Row) : Prop :=
  r.live = true ∧ TargetsAllowed W s id r data ∧
    WrittenRow d.now (updatePatch r (updateData W s d id r data) userId) r r'

/-- How an update may change rows: the route's own, and one that gives up its path. -/
def updatedBy (W : World) (s : Store) (d : Draw) (id : String) (data : Patch) (userId : String) : RowChange := fun k r r' =>
  Freed k r r' ∨ k = id ∧ UpdatedRow W s d id data userId r r'

/-- The rows an update may store versions of. -/
def updatedTo (W : World) (s : Store) (d : Draw) (id : String) (data : Patch) (userId : String) : RowSet := fun k r' =>
  k = id ∧ ∃ r, s.routes.get? id = some r ∧ UpdatedRow W s d id data userId r r'

/-- An update that got as far as the database: a path was freed, and the row is written. -/
structure Updating (W : World) (s : Store) (d : Draw) (id : String) (data : Patch) (userId : String) (r row : Row)
    (t : Table String Row) : Prop where
  live : liveRoute? s id = some r
  freed : Changes Freed noRow noRow s.routes t
  found : t.get? id = some r
  row : UpdatedRow W s d id data userId r row

/-- The versions after an update: one more, of the row it wrote, if a field changed. -/
def updatedVersions (W : World) (s : Store) (d : Draw) (id : String) (data : Patch) (userId : String) (r row : Row) :
    Table String RouteVersion :=
  if hasChanges r (updateData W s d id r data) then
    s.routeVersions.insert d.versionId ⟨id, row.val .version, row.val, userId⟩
  else s.routeVersions

/-- An update writes its row, and a version of it if a field changed, unless something is
    refused; the path it freed stays freed. -/
theorem updateRoute_spec {W : World} {d : Draw} {id : String} {data : Patch} {userId : String} {s : Store} :
    wp (updateRoute W d id data userId)
      (fun row s' => ∃ r t, Updating W s d id data userId r row t ∧
        (hasChanges r (updateData W s d id r data) = true → s.routeVersions.get? d.versionId = none) ∧
        s' = { s with routes := t.modify id fun _ => row, routeVersions := updatedVersions W s d id data userId r row })
      (fun _ s' => RoutesChange Freed noRow noRow s s' ∨
        ∃ r row t, Updating W s d id data userId r row t ∧ (s.routeVersions.get? d.versionId).isSome = true ∧
          s' = { s with routes := t.modify id fun _ => row }) s := by
  unfold updateRoute
  simp only [wp_bind, wp_read, wp_orThrow]
  refine ⟨fun r hr => ?_, fun _ => Or.inl (RoutesChange.refl s)⟩
  obtain ⟨hget, hl⟩ := Option.filter_eq_some_iff.1 hr
  refine wp_mono checkTargets_spec ?_ (by rintro _ _ ⟨rfl, -⟩; exact Or.inl (RoutesChange.refl _))
  rintro _ s₁ ⟨rfl, ht⟩
  -- freeing a path leaves the live row alone
  have rest : ∀ s', RoutesChange Freed noRow noRow s₁ s' →
      wp (do
        checkRewriteRules W (updateData W s₁ d id r data .rewriteRules)
        let route ← routeUpdate d.now id (updatePatch r (updateData W s₁ d id r data) userId)
        when (hasChanges r (updateData W s₁ d id r data)) (versionCreate d.versionId id (route.val .version) route userId)
        pure route)
        (fun row s' => ∃ r t, Updating W s₁ d id data userId r row t ∧
          (hasChanges r (updateData W s₁ d id r data) = true → s₁.routeVersions.get? d.versionId = none) ∧
          s' = { s₁ with routes := t.modify id fun _ => row, routeVersions := updatedVersions W s₁ d id data userId r row })
        (fun _ s' => RoutesChange Freed noRow noRow s₁ s' ∨
          ∃ r row t, Updating W s₁ d id data userId r row t ∧ (s₁.routeVersions.get? d.versionId).isSome = true ∧
            s' = { s₁ with routes := t.modify id fun _ => row }) s' := by
    rintro _ ⟨t, rfl, hf⟩
    have freed : RoutesChange Freed noRow noRow s₁ { s₁ with routes := t } := ⟨t, rfl, hf⟩
    rw [wp_bind]
    refine wp_mono checkRewriteRules_spec ?_ fun _ _ h => Or.inl (h.1 ▸ freed)
    rintro _ s₂ ⟨rfl, -⟩
    rw [wp_bind]
    refine wp_mono routeUpdate_spec ?_ fun _ _ h => Or.inl (h.2 ▸ freed)
    rintro row s₃ ⟨hw, rfl⟩
    obtain ⟨old, ho, hrow⟩ := routeWrite_row hw
    have hsame : old = r := by
      rcases hf.some hget ho with h | h
      · exact h
      · rw [h.1] at hl
        cases hl
    subst hsame
    have hU : Updating W s₁ d id data userId old row t := ⟨hr, hf, ho, hl, ht, hrow⟩
    rw [wp_bind, wp_when]
    refine ⟨fun hchange => ?_, fun hchange => ⟨old, t, hU, fun h => absurd h hchange, ?_⟩⟩
    · simp only [versionCreate, wp_bind, wp_read, wp_require, wp_modify, wp_pure]
      refine ⟨fun hv => ⟨old, t, hU, fun _ => by simpa using hv, ?_⟩, fun hv => Or.inr ⟨old, row, t, hU, ?_, rfl⟩⟩
      · rw [updatedVersions, if_pos hchange]
      · simpa [Option.isSome_iff_ne_none] using hv
    · rw [updatedVersions, if_neg hchange]
  rw [wp_bind, wp_when]
  refine ⟨fun _ => ?_, fun _ => rest s₁ (RoutesChange.refl s₁)⟩
  rw [wp_when]
  refine ⟨fun _ => ?_, fun _ => rest s₁ (RoutesChange.refl s₁)⟩
  exact wp_mono freeSoftDeletedPublicPath_keeps (fun _ s' h => rest s' h) fun _ _ h => Or.inl h

theorem Updating.changes {W : World} {s : Store} {d : Draw} {id : String} {data : Patch} {userId : String} {r row : Row}
    {t : Table String Row} (h : Updating W s d id data userId r row t) :
    Changes (updatedBy W s d id data userId) noRow noRow s.routes (t.modify id fun _ => row) := by
  have hget := (Option.filter_eq_some_iff.1 h.live).1
  exact (h.freed.mono (fun _ _ _ _ h => Or.inl h) (fun _ _ _ h => h) fun _ _ _ h => h).modify hget h.found
    (Or.inr ⟨rfl, h.row⟩)

theorem updateRoute_keeps {W : World} {d : Draw} {id : String} {data : Patch} {userId : String} {s : Store} :
    Keeps (updateRoute W d id data userId)
      (WriterEffect (updatedBy W s d id data userId) noRow noRow (updatedTo W s d id data userId) s) s := by
  refine wp_mono updateRoute_spec ?_ ?_
  · rintro row _ ⟨r, t, h, hv, rfl⟩
    have hget := (Option.filter_eq_some_iff.1 h.live).1
    refine ⟨_, _, rfl, h.changes, ?_⟩
    unfold updatedVersions
    by_cases hchange : hasChanges r (updateData W s d id r data) = true
    · rw [if_pos hchange]
      exact versionsOf_insert (hv hchange) ⟨rfl, r, hget, h.row⟩ rfl
    · rw [if_neg hchange]
      exact fun _ _ hk => Or.inl hk
  · rintro _ s' (⟨t, rfl, hf⟩ | ⟨r, row, t, h, -, rfl⟩)
    · exact RoutesChange.writer ⟨t, rfl, hf.mono (fun _ _ _ _ h => Or.inl h) (fun _ _ _ h => h) fun _ _ _ h => h⟩
    · exact RoutesChange.writer ⟨_, rfl, h.changes⟩

/-! ## Imports -/

theorem create_live {p : Patch} {r : Row} (h : Row.create p = some r) (hd : p .deletedAt = none) : r.live = true := by
  have := create_default h hd
  simp only [Column.default, Column.nullable, if_true, Option.some.injEq] at this
  simp [Row.live, ← this]

/-- Outside the slug and the authors a create stores its data with the target normalised
    and the secrets sealed. -/
theorem createData_ne {W : World} {t : Store} {d : Draw} {data : Patch} {userId : String} {c : Column}
    (h₁ : c ≠ .slug) (h₂ : c ≠ .createdById) (h₃ : c ≠ .updatedById) :
    createData W t d data userId c = sealSecrets W d (withTarget data) c := by
  unfold createData
  rw [Patch.set_ne _ _ h₃, Patch.set_ne _ _ h₂]
  cases sealSecrets W d (withTarget data) .name with
  | none => rfl
  | some v =>
    cases v with
    | str name =>
      by_cases hs : ((sealSecrets W d (withTarget data) .slug).getD .null).truthy = true
      · simp only [if_pos hs]
      · simp only [if_neg hs, Patch.set_ne _ _ h₁]
    | _ => rfl

/-- A slug that is given is kept. -/
theorem createData_slug {W : World} {t : Store} {d : Draw} {data : Patch} {userId : String} {slug : Json} (hs : data .slug = some slug)
    (ht : slug.truthy = true) : createData W t d data userId .slug = some slug := by
  have hk : Column.slug ∉ secretColumns := by decide
  have hdata : sealSecrets W d (withTarget data) .slug = some slug := by
    rw [sealSecrets, if_neg hk, withTarget, if_neg (by decide), hs]
  unfold createData
  rw [Patch.set_ne _ _ (by decide), Patch.set_ne _ _ (by decide)]
  cases sealSecrets W d (withTarget data) .name with
  | none => exact hdata
  | some v =>
    cases v with
    | str name =>
      simp only [hdata, Option.getD_some, ht, if_true]
    | _ => exact hdata

/-- A created row is live unless the data says otherwise. -/
theorem CreatedRow.live {W : World} {s : Store} {d : Draw} {data : Patch} {userId : String} {r : Row}
    (h : CreatedRow W s d data userId r) (hd : data .deletedAt = none) : r.live = true := by
  obtain ⟨-, -, t, hr⟩ := h
  refine create_live hr ?_
  rw [stamped_ne (by decide), Patch.set_ne _ _ (by decide), createData_ne (by decide) (by decide) (by decide)]
  simp [sealSecrets, secretColumns, withTarget, hd]

/-- The rows an import may add. -/
def importedBy (W : World) (s : Store) (userId : String) (xs : List (Draw × Patch)) : RowSet := fun k r' =>
  ∃ x ∈ xs, createdBy W s x.1 x.2 userId k r'

theorem importRoutes_keeps {W : World} {userId : String} {s : Store} {xs : List (Draw × Patch)}
    (hd : ∀ x ∈ xs, x.2 .deletedAt = none) :
    Keeps (importRoutes W userId xs)
      (WriterEffect Freed (importedBy W s userId xs) noRow (importedBy W s userId xs) s) s := by
  -- an invariant over what is imported so far: all of it comes from the whole list
  suffices h : ∀ ys, (∀ y ∈ ys, y ∈ xs) → ∀ s', WriterEffect Freed (importedBy W s userId xs) noRow
      (importedBy W s userId xs) s s' → Keeps (importRoutes W userId ys)
        (WriterEffect Freed (importedBy W s userId xs) noRow (importedBy W s userId xs) s) s' from
    h xs (fun _ h => h) s (RoutesChange.refl s).writer
  intro ys
  induction ys with
  | nil => exact fun _ s' h => h
  | cons y ys ih =>
    rintro hy _ ⟨t, vs, rfl, hc, hv⟩
    have step : ∀ s', WriterEffect Freed (createdBy W s y.1 y.2 userId) noRow (createdBy W s y.1 y.2 userId)
        { s with routes := t, routeVersions := vs } s' →
        WriterEffect Freed (importedBy W s userId xs) noRow (importedBy W s userId xs) s s' := by
      rintro _ ⟨t', vs', rfl, hc', hv'⟩
      have mem : ∀ k r, createdBy W s y.1 y.2 userId k r → importedBy W s userId xs k r :=
        fun k r h => ⟨y, hy y (by simp), h⟩
      refine ⟨t', vs', rfl, hc.trans (hc'.mono (fun _ _ _ _ h => h) (fun k r _ h => mem k r h) fun _ _ _ h => h)
        (fun _ _ _ _ h h' => h.trans h') ?_ (fun _ _ _ _ h => h) fun _ _ _ h _ => h.elim, ?_⟩
      · rintro k b c ⟨x, hx, -, hrow⟩ hf
        have := hf.1
        rw [hrow.live (hd x hx)] at this
        cases this
      · intro k v hk
        rcases hv' k v hk with h | ⟨r, hr, h⟩
        · exact hv k v h
        · exact Or.inr ⟨r, mem _ _ hr, h⟩
    -- the rest of the list, whatever became of the first
    have rest : ∀ (count : Nat × List Err → Handler (Nat × List Err)), (∀ p t, (count p t).2 = t) → ∀ s',
        WriterEffect Freed (createdBy W s y.1 y.2 userId) noRow (createdBy W s y.1 y.2 userId)
          { s with routes := t, routeVersions := vs } s' →
        Keeps (importRoutes W userId ys >>= count)
          (WriterEffect Freed (importedBy W s userId xs) noRow (importedBy W s userId xs) s) s' := by
      intro count hcount s' h
      rw [Keeps, wp_bind]
      refine wp_mono (ih (fun z hz => hy z (by simp [hz])) s' (step s' h)) (fun p t' ht => ?_) fun _ _ h => h
      exact wp_of_final (by rw [hcount]; exact ht)
    obtain ⟨d, data⟩ := y
    unfold importRoutes
    rw [Keeps, wp_bind, wp_attempt]
    exact wp_mono createRoute_keeps (fun _ s' h => rest _ (fun _ _ => rfl) s' h) fun _ s' h => rest _ (fun _ _ => rfl) s' h

end ClusterGate
