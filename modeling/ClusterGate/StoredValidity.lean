/-
  ClusterGate.StoredValidity — every stored route meets the constraints of the schema its
  body was checked by.

  The schema is looked at when a body comes in; eight services write rows, from bodies,
  snapshots, payloads and made-up names and paths. Two of them let values in that the
  schema refuses: an approval writes its payload as the database takes it, and a copy's
  name is the original's with an ending.
  - `approval_stores_an_invalid_route`: what the first lets in.
  - `stored_routes_valid`: on every run from a store without routes in which payloads are
    within the schema and copied names are short enough, every route is valid.
-/

import ClusterGate.TargetInvariant

namespace ClusterGate

open Lib Lib.Act Lib.Table Lib.Zod

/-! ## The constraints of a row -/

/-- The schema's constraint on a column, null standing for an absent value; a stored target
    has lost its ending and is an http or https URL. -/
def FieldOk (W : World) (c : Column) (v : Json) : Prop :=
  if c = .targetUrl then ∃ url u, v = .str url ∧ W.url url = some u ∧ (u.scheme = "http" ∨ u.scheme = "https")
  else ∀ t, routeBodySchema W c = some t → t.Admits v ∨ (c.nullable = true ∧ v = .null)

def ValidRow (W : World) (r : Row) : Prop := ∀ c, FieldOk W c (r.val c)

section Fields

variable {W : World} {c : Column} {v : Json}

theorem fieldOk_target {s : Store} {url : String} {org : Json} (h : targetRefused W s url org = none) :
    FieldOk W .targetUrl (.str url) := by
  obtain ⟨u, hu, hs⟩ := assertTargetAllowed_http h
  rw [FieldOk, if_pos rfl]
  exact ⟨url, u, rfl, hu, hs⟩

theorem fieldOk_admitted {t : ZodType} (hc : c ≠ .targetUrl) (ht : routeBodySchema W c = some t) (h : t.Admits v) :
    FieldOk W c v := by
  rw [FieldOk, if_neg hc]
  intro t' ht'
  rw [ht, Option.some.injEq] at ht'
  exact Or.inl (ht' ▸ h)

theorem fieldOk_noField (hc : c ≠ .targetUrl) (ht : routeBodySchema W c = none) : FieldOk W c v := by
  rw [FieldOk, if_neg hc]
  intro t ht'
  rw [ht] at ht'
  cases ht'

theorem array_string_admits {xs : List String} : array (string []) [] (Json.ofStrList xs) = .ok (Json.ofStrList xs) := by
  refine array_of_mapM (mapM_eq_self.2 fun x hx => ?_) (by simp)
  obtain ⟨s, -, rfl⟩ := List.mem_map.1 hx
  rfl

theorem strList?_some {xs : List String} (h : v.strList? = some xs) : v = Json.ofStrList xs := by
  cases v with
  | arr ys =>
    have hall : ys.mapM Json.str? = some xs := h
    rw [mapM_some_iff] at hall
    have htexts := hall.imp fun _ _ => Json.str?_some
    rw [← List.forall₂_map_right_iff, List.forall₂_eq_eq_eq] at htexts
    rw [htexts, Json.ofStrList]
  | _ => cases h

/-- Columns whose type is all the schema asks for. -/
def TYPE_SUFFICES : List Column := [.authValue, .upstreamAuthValue, .webhookSecret, .tags, .environment, .routeGroupId]

theorem fieldOk_typed (hc : c ∈ TYPE_SUFFICES) (h : c.admits v = true) : FieldOk W c v := by
  have text : c.type = .string → c.nullable = true → (∀ s t, routeBodySchema W c = some t → t.Admits (.str s)) →
      FieldOk W c v := by
    intro ht hn hs
    rw [FieldOk, if_neg (by rintro rfl; cases hn)]
    intro t hst
    rw [Column.admits, ht, hn, Bool.true_and, Bool.or_eq_true, decide_eq_true_eq, ColType.admits, Json.isStr_iff] at h
    rcases h with rfl | ⟨s, rfl⟩
    · exact Or.inr ⟨hn, rfl⟩
    · exact Or.inl (hs s t hst)
  simp only [TYPE_SUFFICES, List.mem_cons, List.not_mem_nil, or_false] at hc
  rcases hc with rfl | rfl | rfl | rfl | rfl | rfl
  · exact text rfl rfl fun s t ht => by cases ht; exact ⟨_, rfl⟩
  · exact text rfl rfl fun s t ht => by cases ht; exact ⟨_, rfl⟩
  · exact text rfl rfl fun s t ht => by cases ht; exact ⟨_, rfl⟩
  · obtain ⟨xs, hxs⟩ := Option.isSome_iff_exists.1 (show v.strList?.isSome = true from h)
    rw [strList?_some hxs]
    exact fieldOk_admitted (by decide) rfl ⟨Json.ofStrList xs, by
      show (array (string []) [] _).map some = _
      rw [array_string_admits]
      rfl⟩
  · cases v with
    | str e =>
      have he : e ∈ ["NONE", "PRODUCTION", "STAGING", "DEVELOPMENT"] := by simpa [Column.admits, ColType.admits, Column.type,
        Column.nullable] using h
      refine fieldOk_admitted (by decide) rfl ⟨.str e, ?_⟩
      show (enum _ _).map some = _
      rw [enum, if_pos he]
      rfl
    | _ => cases h
  · exact text rfl rfl fun s t ht => by cases ht; exact ⟨_, rfl⟩

/-- A value within the schema is within it as it is stored. -/
theorem fieldOk_coerced (hc : c ≠ .targetUrl) (h : FieldOk W c v) : FieldOk W c (c.coerce v) := by
  cases ht : routeBodySchema W c with
  | none => exact fieldOk_noField hc ht
  | some t =>
    have same : c.coerce v = v := by
      rw [FieldOk, if_neg hc] at h
      rcases h t ht with h | ⟨-, rfl⟩
      · exact schema_coerced ht h
      · exact ColType.coerce_of_not_num (fun q e => by cases e) _
    rwa [same]

/-- Every default of the database is within the schema. -/
theorem fieldOk_default (h : c.default = some v) : FieldOk W c v := by
  cases c <;> cases h
  all_goals first
    | exact fieldOk_noField (by decide) rfl
    | exact fieldOk_admitted (by decide) rfl ⟨_, rfl⟩
    | exact fun _ _ => Or.inr ⟨rfl, rfl⟩

/-- Of the schema's fields only headers and credentials can be objects. -/
theorem admits_object {t : ZodType} {kvs : List (String × Json)} (ht : routeBodySchema W c = some t)
    (h : t.Admits (.obj kvs)) : c ∈ [Column.addHeaders, .authValue, .upstreamAuthValue] := by
  obtain ⟨w, hw⟩ := h
  cases c <;> cases ht
  all_goals first
    | decide
    | cases hw

/-- The schema asks a path to be under `/r/`. -/
theorem fieldOk_path : FieldOk W .publicPath v ↔ ∃ p, v = .str p ∧ UnderRoutes p := by
  constructor
  · intro h
    rcases h _ rfl with ⟨w, hw⟩ | ⟨hn, -⟩
    · obtain ⟨_, w', hv, -, hleaf⟩ := ZodType.parse_leaf hw
      obtain ⟨p, rfl, -, hchecks⟩ := string_ok hleaf
      refine ⟨p, Option.some.inj hv, underRoutes_iff.2 ?_⟩
      exact hchecks (startsWithCheck "/r/" "Public path must start with /r/") (by simp)
    · cases hn
  · rintro ⟨p, rfl, hp⟩
    refine fieldOk_admitted (by decide) rfl ⟨.str p, ?_⟩
    have nonempty : 1 ≤ Text.utf16Length p := by
      obtain ⟨rest, hrest⟩ := hp
      simp [Text.utf16Length, hrest]
    have checks : failed [minLength 1 "Public path is required", startsWithCheck "/r/" "Public path must start with /r/"] p = [] :=
      failed_eq_nil.2 (by simpa [minLength, startsWithCheck] using ⟨nonempty, underRoutes_iff.1 hp⟩)
    show (string _ (.str p)).map some = _
    rw [string, if_pos checks]
    rfl

theorem fieldOk_name {name : String} (h₁ : 1 ≤ Text.utf16Length name) (h₂ : Text.utf16Length name ≤ 100) :
    FieldOk W .name (.str name) := by
  refine fieldOk_admitted (by decide) rfl ⟨.str name, ?_⟩
  have checks : failed [minLength 1 "Name is required", maxLength 100] name = [] :=
    failed_eq_nil.2 (by simpa [minLength, maxLength] using ⟨h₁, h₂⟩)
  show (string _ (.str name)).map some = _
  rw [string, if_pos checks]
  rfl

/-- What a create's body puts out is within the schema. -/
theorem createBody_ok {body : Json} {data : Patch} (h : routeData W (routeBodySchema W) body = .ok data)
    (hc : c ≠ .targetUrl) (hs : c ∉ TYPE_SUFFICES) (hv : data c = some v) : FieldOk W c v := by
  cases ht : routeBodySchema W c with
  | none => exact fieldOk_noField hc ht
  | some t =>
    obtain ⟨o, hp⟩ := routeData_field h (schema_field ht) ht (by rintro rfl; exact hs (by decide))
      (by rintro rfl; exact hs (by decide))
    rw [hv] at hp
    exact fieldOk_admitted hc ht ((routeBodySchema_sound W ht).admits hp)

/-- What an update's body puts out is within the schema, and stored as it is. -/
theorem updateBody_ok {body : Json} {data : Patch} (h : routeData W (partialUpdate (routeBodySchema W)) body = .ok data)
    (hc : c ∉ DERIVED) (hv : data c = some v) : FieldOk W c v ∧ (c.admits v = true ∨ isFixed v = true) := by
  have hne : c ≠ .targetUrl ∧ c ≠ .authValue ∧ c ≠ .upstreamAuthValue := by
    refine ⟨?_, ?_, ?_⟩ <;>
    · rintro rfl
      exact hc (by decide)
  cases ht : routeBodySchema W c with
  | none =>
    rw [routeData_noField h (by rw [partialUpdate, ht]; rfl)] at hv
    cases hv
  | some t =>
    obtain ⟨o, hp⟩ := routeData_field h (schema_field ht) (by rw [partialUpdate, ht]; rfl) hne.2.1 hne.2.2
    rw [hv] at hp
    have admitted := admits_of_partial (routeBodySchema_sound W ht) hp
    refine ⟨fieldOk_admitted hne.1 ht admitted, ?_⟩
    cases v with
    | obj kvs =>
      have hm := admits_object ht admitted
      simp only [List.mem_cons, List.not_mem_nil, or_false] at hm
      rcases hm with rfl | rfl | rfl
      · exact Or.inl rfl
      · exact absurd rfl hne.2.1
      · exact absurd rfl hne.2.2
    | num q => exact Or.inl (admits_number ht admitted)
    | _ => exact Or.inr rfl

end Fields

/-! ## The rows a request writes -/

section Rows

variable {W : World} {s : Store} {d : Draw} {id userId : String} {r r' : Row} {data : Patch}

theorem CreatedRow.valid {body : Json} (hd : routeData W (routeBodySchema W) body = .ok data)
    (h : CreatedRow W s d data userId r') : ValidRow W r' := by
  intro c
  by_cases ht : c = .targetUrl
  · subst ht
    obtain ⟨url, hurl⟩ := createBody_target hd
    have judged := h.1
    rw [withTarget, if_pos rfl, hurl] at judged
    rw [h.target hurl]
    exact fieldOk_target judged
  · by_cases hs : c ∈ TYPE_SUFFICES
    · exact fieldOk_typed hs (r'.typed c)
    · by_cases hc : c ∈ CREATE_DERIVED
      · refine fieldOk_noField ht ?_
        simp only [CREATE_DERIVED, List.mem_cons, List.not_mem_nil, or_false] at hc
        rcases hc with rfl | rfl | rfl | rfl | rfl | rfl | rfl | rfl | rfl
        all_goals first
          | rfl
          | exact absurd (by decide) hs
          | exact absurd rfl ht
      · rcases h.coerced hc with ⟨v, hv, hr⟩ | ⟨-, hv⟩
        · rw [hr]
          exact fieldOk_coerced ht (createBody_ok hd ht hs hv)
        · exact fieldOk_default hv

/-- Data an update may be made with: within the schema, and of values that are stored as they are. -/
def ValidData (W : World) (data : Patch) : Prop :=
  ∀ c v, c ∉ DERIVED → data c = some v → FieldOk W c v ∧ (c.admits v = true ∨ isFixed v = true)

theorem UpdatedRow.valid (h : UpdatedRow W s d id data userId r r') (hr : ValidRow W r) (hd : ValidData W data)
    (ht : PlainTarget data) : ValidRow W r' := by
  intro c
  by_cases hc : c ∈ DERIVED
  · by_cases htarget : c = .targetUrl
    · subst htarget
      cases hv : data .targetUrl with
      | none =>
        rw [h.target_same hv]
        exact hr .targetUrl
      | some v =>
        obtain ⟨url, rfl, hn⟩ := ht v hv
        have judged := h.2.1.new (by simp [hv, hn])
        rw [withTarget, if_pos rfl, hv] at judged
        rw [h.target hv hn]
        exact fieldOk_target judged
    · simp only [DERIVED, List.mem_cons, List.not_mem_nil, or_false] at hc
      rcases hc with rfl | rfl | rfl | rfl | rfl | rfl | rfl | rfl
      all_goals first
        | exact fieldOk_noField (by decide) rfl
        | exact fieldOk_typed (by decide) (r'.typed _)
        | exact absurd rfl htarget
  · cases hv : data c with
    | none =>
      rw [h.same hc hv]
      exact hr c
    | some v =>
      obtain ⟨ok, hplain⟩ := hd c v hc hv
      rcases hplain with hp | hp
      · rw [h.plain hc hv hp]
        exact ok
      · rw [h.value hc hv hp]
        exact ok

/-- A row whose lifecycle moved is as valid as it was. -/
theorem LifecycleChange.valid (h : LifecycleChange r r') (hr : ValidRow W r) : ValidRow W r' := by
  intro c
  by_cases hc : c ∈ LIFECYCLE
  · simp only [LIFECYCLE, List.mem_cons, List.not_mem_nil, or_false] at hc
    have path : FieldOk W .publicPath (r'.val .publicPath) := by
      obtain ⟨p, hp, hu⟩ := fieldOk_path.1 (hr .publicPath)
      exact fieldOk_path.2 (h.path p hp hu)
    rcases hc with rfl | rfl | rfl | rfl | rfl | rfl | rfl | rfl | rfl | rfl | rfl
    all_goals first
      | exact fieldOk_noField (by decide) rfl
      | exact fieldOk_typed (by decide) (r'.typed _)
      | exact path
  · rw [h.agree c hc]
    exact hr c

theorem DuplicateOf.name (h : DuplicateOf s d userId r r') :
    r'.val .name = .str ((r.text .name).getD "" ++ " (Copy)") := create_given h.1 rfl rfl

theorem DuplicateOf.path (h : DuplicateOf s d userId r r') {p : String} (hp : r.val .publicPath = .str p) (hu : UnderRoutes p) :
    ∃ p', r'.val .publicPath = .str p' ∧ UnderRoutes p' := by
  refine ⟨_, create_given h.1 rfl rfl, copyPath_underRoutes ?_ ?_⟩
  · rw [Row.text, hp]
    exact hu
  · rw [Row.text, hp]
    exact hu.append _

/-- A route with a slug is not duplicated: the copy would have the same slug. -/
theorem DuplicateOf.noSlug (h : DuplicateOf s d userId r r') (hr : s.routes.get? id = some r) : r.val .slug = .null := by
  have hne : id ≠ d.routeId := by
    intro e
    rw [e, h.2.2] at hr
    cases hr
  have hu := h.2.1
  simp only [uniqueOk, Option.isNone_some, Bool.false_or, Bool.and_eq_true, Bool.not_eq_true', taken] at hu
  have hslug := hu.2
  rw [h.copied (by decide)] at hslug
  by_contra hnull
  have clash : s.routes.any (fun k a => k ≠ d.routeId && a.val .slug = r.val .slug) = true :=
    any_iff.2 ⟨id, r, hr, by simp [hne]⟩
  rw [clash] at hslug
  simp [hnull] at hslug

theorem DuplicateOf.valid (h : DuplicateOf s d userId r r') (hr : ValidRow W r)
    (hname : Text.utf16Length ((r.text .name).getD "" ++ " (Copy)") ≤ 100) : ValidRow W r' := by
  intro c
  by_cases hc : c ∈ OWN_OF_DUPLICATE
  · have name : FieldOk W .name (r'.val .name) := by
      rw [h.name]
      refine fieldOk_name ?_ hname
      rw [Text.utf16Length, String.toList_append, List.map_append, List.sum_append]
      exact Nat.le_add_left_of_le (by decide)
    have path : FieldOk W .publicPath (r'.val .publicPath) := by
      obtain ⟨p, hp, hu⟩ := fieldOk_path.1 (hr .publicPath)
      exact fieldOk_path.2 (h.path hp hu)
    simp only [OWN_OF_DUPLICATE, NOT_COPIED, List.cons_append, List.nil_append, List.mem_cons, List.not_mem_nil,
      or_false] at hc
    rcases hc with rfl | rfl | rfl | rfl | rfl | rfl | rfl | rfl | rfl | rfl
    all_goals first
      | exact fieldOk_noField (by decide) rfl
      | exact name
      | exact path
  · rw [h.copied hc]
    exact hr c

end Rows

/-! ## A step keeps it -/

/-- Routes, live and archived, are valid, and versions are of valid rows. -/
structure RoutesValid (W : World) (s : Store) : Prop where
  route : ∀ k r, s.routes.get? k = some r → ValidRow W r
  version : ∀ k v, s.routeVersions.get? k = some v → ∃ r : Row, v.snapshot = r.val ∧ ValidRow W r

/-- An approval writes only values the schema takes. -/
def AppliesValid (W : World) (s : Store) (q : Request) : Prop :=
  ∀ op cr k r, q.endpoint = .change op → op.applies W s q.caller q.draw cr k → s.routes.get? k = some r →
    ∀ c ∈ APPLIED_FIELDS, ∀ v w, cr.payload c = some v → writeField c (r.val c) v = some w → FieldOk W c w

/-- A route without a slug is duplicated only if its copy's name is not too long; one with
    a slug is not duplicated at all. -/
def CopiesFit (s : Store) (q : Request) : Prop :=
  ∀ id r, q.endpoint = .route (.duplicate id) → liveRoute? s id = some r → manages s q.caller r → r.val .slug = .null →
    Text.utf16Length ((r.text .name).getD "" ++ " (Copy)") ≤ 100

section Step

variable {W : World} {s : Store} {q : Request} {k : String} {r r' : Row}

theorem ValidRow.target_ne (h : ValidRow W r) : r.val .targetUrl ≠ .str "" := by
  intro e
  obtain ⟨url, u, hurl, hu, -⟩ : ∃ url u, r.val .targetUrl = .str url ∧ W.url url = some u ∧ _ := h .targetUrl
  obtain rfl : "" = url := Json.str.inj (e.symm.trans hurl)
  cases hu

theorem adds_valid (hi : RoutesValid W s) (hq : CopiesFit s q) (h : q.adds W s k r') :
    ValidRow W r' := by
  obtain ⟨u, d, e⟩ := q
  cases e with
  | route op =>
    cases op with
    | create body =>
      obtain ⟨data, hd, -, -, hr⟩ := h
      exact hr.valid hd
    | duplicate id =>
      obtain ⟨rfl, r, hr, hm, hd⟩ := h
      obtain ⟨hg, -⟩ := liveRoute?_iff.1 hr
      exact hd.valid (hi.route id r hg) (hq id r rfl hr hm (hd.noSlug hg))
    | «import» draws body =>
      obtain ⟨-, xs, hx, x, hm, -, hr⟩ := h
      obtain ⟨b, hb⟩ := parseImport_mem hx (mem_withDraws hm)
      exact hr.valid hb
    | _ => exact h.elim
  | _ => exact h.elim

/-- A snapshot of a valid row is data an update may be made with. -/
theorem snapshot_valid {v : RouteVersion} {row : Row} (hs : v.snapshot = row.val) (hv : ValidRow W row) :
    ValidData W (snapshotData v) := by
  intro c x _ hx
  rw [snapshotData, Patch.remove] at hx
  split at hx
  · cases hx
  · rw [hs, Option.some.injEq] at hx
    subst hx
    exact ⟨hv c, Or.inl (row.typed c)⟩

theorem changes_valid (hi : RoutesValid W s) (hq : AppliesValid W s q) (hr : s.routes.get? k = some r)
    (h : q.changes W s k r r') : ValidRow W r' := by
  have valid := hi.route k r hr
  rcases changes_cases h with h | h
  · exact h.valid valid
  · cases h with
    | updated he hm hb hd h => exact h.valid valid (fun c v hc hv => updateBody_ok hd hc hv) (updateBody_target hd)
    | restored he ha hv h =>
      obtain ⟨row, hs, hvalid⟩ := hi.version _ _ hv
      refine h.valid valid (snapshot_valid hs hvalid) fun v ht => ?_
      rw [snapshot_data hs (by decide), Option.some.injEq] at ht
      obtain ⟨url, hurl⟩ := row.string_val (c := .targetUrl) rfl rfl
      exact ⟨url, ht ▸ hurl, fun e => hvalid.target_ne (e ▸ hurl)⟩
    | approved he ha h =>
      intro c
      cases hv : appliedData _ c with
      | none =>
        by_cases hu : c = .updatedAt
        · subst hu
          exact fieldOk_noField (by decide) rfl
        · rw [h.same hv hu]
          exact valid c
      | some v =>
        have listed : c ∈ APPLIED_FIELDS := by
          unfold appliedData at hv
          split at hv
          · assumption
          · cases hv
        have hp := hv
        rw [appliedData, if_pos listed] at hp
        exact hq _ _ k r he ha hr c listed v _ hp (h.field hv (by rintro rfl; exact absurd listed (by decide)))

theorem step_valid (hi : RoutesValid W s) (hq : AppliesValid W s q ∧ CopiesFit s q) : RoutesValid W (step W s q) := by
  have f := step_footprint W s q
  refine ⟨fun k r' hr' => ?_, fun k v hv => ?_⟩
  · cases hr : s.routes.get? k with
    | none => exact adds_valid hi hq.2 (f.routes.new hr hr')
    | some r =>
      rcases f.routes.some hr hr' with rfl | h
      · exact hi.route k r' hr
      · exact changes_valid hi hq.1 hr h
  · rcases f.versions k v hv with h | ⟨r', hr', h⟩
    · exact hi.version k v h
    · refine ⟨r', h, ?_⟩
      rcases hr' with hr' | ⟨r, hr, hr'⟩
      · exact adds_valid hi hq.2 hr'
      · exact changes_valid hi hq.1 hr hr'

end Step

theorem Store.NoRoutes.valid {W : World} {s : Store} (h : s.NoRoutes) : RoutesValid W s where
  route k r hr := by rw [h.routes] at hr; cases hr
  version k v hv := by rw [h.routeVersions] at hv; cases hv

/-- Every live route meets the constraints of the schema. -/
def LiveRoutesValid (W : World) (s : Store) : Prop := ∀ k r, liveRoute? s k = some r → ValidRow W r

/-- On every run from a store without routes in which approvals write only values the
    schema takes and copied names fit it, every live route meets the schema's constraints. -/
theorem stored_routes_valid {W : World} {s : Store} {qs : List Request} (hs : s.NoRoutes)
    (hq : Along (step W) (fun s q => AppliesValid W s q ∧ CopiesFit s q) s qs) : LiveRoutesValid W (run (step W) s qs) :=
  fun k _ hr => (run_keeps (fun _ _ hi hq => step_valid hi hq) hs.valid hq).route k _ (liveRoute?_iff.1 hr).1

/-! ## A payload past the schema -/

def proposedTimeout (n : Rat) : List Request := proposal (.obj [("timeout", .num n)])

/-- A timeout within the bounds, proposed and approved. -/
theorem proposed_timeout_valid : LiveRoutesValid World.plain (run (step World.plain) oneOrganization (proposedTimeout 5000)) := by
  refine stored_routes_valid oneOrganization_noRoutes ⟨⟨?_, ?_⟩, ⟨?_, ?_⟩, ⟨?_, ?_⟩, trivial⟩
  · intro op cr k r he
    cases he
  · intro id r he
    cases he
  · intro op cr k r he ha
    cases he
    obtain ⟨id, body, hop, -⟩ := ha
    cases hop
  · intro id r he
    cases he
  · intro op cr k r he ha hr c _ v w hv hw
    cases he
    obtain ⟨id, body, hop, -, hcr, -⟩ := ha
    cases hop
    have payload : ((run (step World.plain) oneOrganization ((proposedTimeout 5000).take 2)).changeRequests.get? "row").all
        (fun cr => decide (∀ c, cr.payload c = if c = .timeout then some (.num 5000) else none)) = true := by
      decide +kernel
    have hcr : (run (step World.plain) oneOrganization ((proposedTimeout 5000).take 2)).changeRequests.get? "row" = some cr := hcr
    rw [hcr, Option.all_some, decide_eq_true_eq] at payload
    by_cases hc : c = .timeout
    · subst hc
      rw [payload, if_pos rfl, Option.some.injEq] at hv
      subst hv
      rw [writeField_plain _ rfl, Option.some.injEq] at hw
      subst hw
      exact fieldOk_admitted (by decide) rfl ⟨_, rfl⟩
    · rw [payload, if_neg hc] at hv
      cases hv
  · intro id r he
    cases he

/-- The endpoint that takes proposals takes any record as a payload. -/
theorem approval_stores_an_invalid_route :
    ¬ ∀ (W : World) (s : Store) (qs : List Request), s.NoRoutes → LiveRoutesValid W (run (step W) s qs) := by
  intro h
  have timeout : (liveRoute? (run (step World.plain) oneOrganization (proposedTimeout (-5))) "route").map
      (fun r => r.val .timeout) = some (.num (-5)) := by
    decide +kernel
  obtain ⟨r, hr, ht⟩ := Option.map_eq_some_iff.1 timeout
  have valid := h _ _ _ oneOrganization_noRoutes _ r hr .timeout
  rw [ht] at valid
  rcases valid _ rfl with ⟨w, hw⟩ | ⟨hn, -⟩
  · obtain ⟨_, w', hv, -, hleaf⟩ := ZodType.parse_leaf (f := int 1000 (some 120000)) hw
    obtain rfl : Json.num (-5) = _ := Option.some.inj hv
    obtain ⟨-, n, hn, hlo, -⟩ := int_ok hleaf
    obtain rfl : (-5 : Int) = n := by simpa [Json.int?] using hn
    omega
  · cases hn

end ClusterGate
