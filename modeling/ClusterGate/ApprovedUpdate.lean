/-
  ClusterGate.ApprovedUpdate — an update filed as a change request and approved, beside
  the same update made at once.

  The approval writes the fields of its own list as they were sent. The update normalises
  the target, rederives the slug, drops masks, seals secrets, checks rewrite rules, frees
  an archived route's path, and stores a version whenever a value changes.
  - `updateRoute_outcome`, `filedAndApproved_spec`: what each leaves of the route and of its
    versions, and when it does anything.
  - `approved_update_agrees`: they leave the same configuration and the same versions
    exactly when neither of them changes anything.
  - `approval_stores_plaintext`: a password, in clear and without a version.
-/

import ClusterGate.Change.Lifecycle
import ClusterGate.StoredValidity

namespace ClusterGate

open Lib Lib.Act Lib.Table Lib.Zod

/-! ## The update made at once -/

/-- The store once an archived route gave up the path, if the database lets it. -/
def freedPath (now : String) (path : Json) (s : Store) : Option Store :=
  match s.routes.find? fun _ r => r.val .publicPath = path && !r.live with
  | none => some s
  | some (staleId, stale) =>
    match routeWrite s now staleId (Patch.ofList
      [(.publicPath, .str (((stale.text .publicPath).getD "") ++ ARCHIVE_TAG ++ staleId))]) with
    | .ok row => some { s with routes := s.routes.modify staleId fun _ => row }
    | .error _ => none

/-- The store an update writes its route in: a new path is freed first. -/
def updateBase (now : String) (existing : Row) (data : Patch) (s : Store) : Option Store :=
  if ((data .publicPath).getD .null).isStr ∧ data .publicPath ≠ some (existing.val .publicPath) then
    freedPath now ((data .publicPath).getD .null) s
  else some s

/-- The update goes through and leaves `row`: its targets are allowed, its rewrite rules
    safe, and the database takes it. -/
structure UpdateTakes (W : World) (s : Store) (d : Draw) (id : String) (existing : Row) (data : Patch) (userId : String)
    (row : Row) : Prop where
  targets : TargetsAllowed W s id existing data
  rules : RulesSafe W (updateData W s d id existing data .rewriteRules)
  write : ∃ base, updateBase d.now existing (updateData W s d id existing data) s = some base ∧
    routeWrite base d.now id (updatePatch existing (updateData W s d id existing data) userId) = .ok row

/-- The versions after an update that changed something. -/
def withVersion (s : Store) (d : Draw) (id userId : String) (row : Row) : Table String RouteVersion :=
  s.routeVersions.insert d.versionId ⟨id, row.val .version, row.val, userId⟩

section Direct

variable {W : World} {s : Store} {d : Draw} {id userId : String} {r : Row} {data : Patch}

theorem freeSoftDeletedPublicPath_spec {now : String} {path : Json} :
    wp (freeSoftDeletedPublicPath now path) (fun _ s' => freedPath now path s = some s')
      (fun _ s' => freedPath now path s = none ∧ s' = s) s := by
  unfold freeSoftDeletedPublicPath freedPath
  rw [wp_bind, wp_read]
  cases s.routes.find? fun _ r => r.val .publicPath = path && !r.live with
  | none => exact rfl
  | some stale =>
    obtain ⟨staleId, stale⟩ := stale
    dsimp only
    rw [wp_bind]
    refine wp_mono routeUpdate_spec ?_ ?_
    · intro row s' h
      obtain ⟨hw, rfl⟩ := h
      simp only [wp_pure, hw]
    · intro e s' h
      obtain ⟨he, rfl⟩ := h
      simp only [he, and_self]

/-- Freeing a path leaves live routes and the versions alone. -/
theorem freedPath_live {now : String} {path : Json} {base : Store} (h : freedPath now path s = some base)
    (hr : s.routes.get? id = some r) (hl : r.live = true) :
    base.routes.get? id = some r ∧ base.routeVersions = s.routeVersions := by
  unfold freedPath at h
  split at h
  · cases h
    exact ⟨hr, rfl⟩
  · rename_i staleId stale hf
    split at h
    · cases h
      obtain ⟨hs, hp⟩ := find?_some hf
      refine ⟨?_, rfl⟩
      have hne : id ≠ staleId := by
        intro e
        subst e
        obtain rfl : stale = r := Option.some.inj (hs.symm.trans hr)
        simp [hl] at hp
      show (s.routes.modify staleId _).get? id = some r
      rw [get?_modify, if_neg hne]
      exact hr
    · cases h

theorem updateBase_live {now : String} {existing : Row} {base : Store} (h : updateBase now existing data s = some base)
    (hr : s.routes.get? id = some r) (hl : r.live = true) :
    base.routes.get? id = some r ∧ base.routeVersions = s.routeVersions := by
  unfold updateBase at h
  split at h
  · exact freedPath_live h hr hl
  · cases h
    exact ⟨hr, rfl⟩

/-- The part of an update after its targets, in the store with the path freed. -/
theorem updateRest_spec {base : Store} (hg : s.routes.get? id = some r) (hl : r.live = true)
    (hv : s.routeVersions.get? d.versionId = none) (ht : TargetsAllowed W s id r data)
    (hb : updateBase d.now r (updateData W s d id r data) s = some base) :
    wp (do
      checkRewriteRules W (updateData W s d id r data .rewriteRules)
      let route ← routeUpdate d.now id (updatePatch r (updateData W s d id r data) userId)
      when (hasChanges r (updateData W s d id r data)) (versionCreate d.versionId id (route.val .version) route userId)
      pure route)
      (fun row s' => UpdateTakes W s d id r data userId row ∧ s'.routes.get? id = some row ∧
        s'.routeVersions =
          if hasChanges r (updateData W s d id r data) then withVersion s d id userId row else s.routeVersions)
      (fun _ s' => (∀ row, ¬ UpdateTakes W s d id r data userId row) ∧ s'.routes.get? id = some r ∧
        s'.routeVersions = s.routeVersions) base := by
  obtain ⟨hbr, hbv⟩ := updateBase_live hb hg hl
  rw [wp_bind]
  refine wp_mono checkRewriteRules_spec ?_ ?_
  · intro _ s₂ h
    obtain ⟨rfl, hrules⟩ := h
    rw [wp_bind]
    refine wp_mono routeUpdate_spec ?_ ?_
    · intro row s₃ h
      obtain ⟨hw, rfl⟩ := h
      have takes : UpdateTakes W s d id r data userId row := ⟨ht, hrules, s₂, hb, hw⟩
      have written : (s₂.routes.modify id fun _ => row).get? id = some row := by
        rw [get?_modify, if_pos rfl, hbr]
        rfl
      simp only [wp_bind, wp_when, wp_pure, versionCreate, wp_read, wp_require, wp_modify]
      refine ⟨fun hc => ⟨fun _ => ⟨takes, written, ?_⟩, fun hn => ?_⟩, fun hc => ⟨takes, written, ?_⟩⟩
      · rw [if_pos hc, withVersion, hbv]
      · rw [hbv, hv] at hn
        exact absurd rfl hn
      · rw [if_neg hc]
        exact hbv
    · intro e s₃ h
      obtain ⟨he, rfl⟩ := h
      refine ⟨?_, hbr, hbv⟩
      intro row takes
      obtain ⟨base', hb', hw⟩ := takes.write
      obtain rfl : s₃ = base' := Option.some.inj (hb.symm.trans hb')
      rw [he] at hw
      cases hw
  · intro e s₂ h
    obtain ⟨rfl, hn⟩ := h
    exact ⟨fun row takes => hn takes.rules, hbr, hbv⟩

/-- An update either goes through, with a version if a value changes, or leaves the route
    and the versions as they were. -/
theorem updateRoute_outcome (hr : liveRoute? s id = some r) (hv : s.routeVersions.get? d.versionId = none) :
    wp (updateRoute W d id data userId)
      (fun row s' => UpdateTakes W s d id r data userId row ∧ s'.routes.get? id = some row ∧
        s'.routeVersions =
          if hasChanges r (updateData W s d id r data) then withVersion s d id userId row else s.routeVersions)
      (fun _ s' => (∀ row, ¬ UpdateTakes W s d id r data userId row) ∧ s'.routes.get? id = some r ∧
        s'.routeVersions = s.routeVersions) s := by
  obtain ⟨hg, hl⟩ := liveRoute?_iff.1 hr
  unfold updateRoute
  simp only [wp_bind, wp_read, wp_orThrow]
  refine ⟨fun existing he => ?_, fun hn => ?_⟩
  · obtain rfl : r = existing := Option.some.inj (hr.symm.trans he)
    refine wp_mono checkTargets_spec ?_ ?_
    · intro _ s₁ h
      obtain ⟨rfl, ht⟩ := h
      rw [wp_bind, wp_when]
      have same : ¬ (((updateData W s₁ d id r data .publicPath).getD .null).isStr = true ∧
          updateData W s₁ d id r data .publicPath ≠ some (r.val .publicPath)) →
          updateBase d.now r (updateData W s₁ d id r data) s₁ = some s₁ := fun h => if_neg h
      refine ⟨fun hs => ?_, fun hs => updateRest_spec hg hl hv ht (same fun h => hs h.1)⟩
      rw [wp_when]
      refine ⟨fun hp => ?_, fun hp => updateRest_spec hg hl hv ht (same fun h => hp h.2)⟩
      have base : updateBase d.now r (updateData W s₁ d id r data) s₁ =
          freedPath d.now ((updateData W s₁ d id r data .publicPath).getD .null) s₁ := if_pos ⟨hs, hp⟩
      refine wp_mono freeSoftDeletedPublicPath_spec ?_ ?_
      · intro _ s₂ h
        exact updateRest_spec hg hl hv ht (base.trans h)
      · intro e s₂ h
        obtain ⟨hn, rfl⟩ := h
        refine ⟨fun row takes => ?_, hg, rfl⟩
        obtain ⟨base', hb', -⟩ := takes.write
        rw [base, hn] at hb'
        cases hb'
    · intro e s₁ h
      obtain ⟨rfl, hn⟩ := h
      exact ⟨fun row takes => hn takes.targets, hg, rfl⟩
  · rw [hr] at hn
    cases hn

end Direct

/-! ## The update filed and approved -/

/-- `PUT /:id` by a caller who needs approval, and the approval. -/
def filedAndApproved (W : World) (u : Caller) (d : Draw) (id : String) (data : Patch) (now reviewerId : String)
    (comment : Option String) : Handler Unit := do
  let _ ← requestUpdate W u d id data
  let _ ← approve W now d.rowId reviewerId comment

/-- The approval goes through and leaves `row`: the target as sent is allowed in the route's
    organization, and the database takes the listed fields. -/
structure ApprovalTakes (W : World) (s : Store) (now id : String) (existing : Row) (data : Patch) (row : Row) : Prop where
  named : id ≠ ""
  target : ((data .targetUrl).getD .null).truthy = true →
    targetRefused W s (textOf (data .targetUrl)) (existing.val .organizationId) = none
  write : routeWrite s now id (appliedData data) = .ok row

section Approval

variable {W : World} {s : Store} {u : Caller} {d : Draw} {id now reviewerId : String} {comment : Option String} {r : Row}
  {data : Patch}

/-- What an approved update leaves: it goes through or leaves the route as it was, and either
    way no version is stored. -/
structure ApprovalOutcome (W : World) (s : Store) (now id : String) (existing : Row) (data : Patch) (s' : Store) : Prop where
  versions : s'.routeVersions = s.routeVersions
  row : ∃ r', s'.routes.get? id = some r' ∧
    (ApprovalTakes W s now id existing data r' ∨ r' = existing ∧ ∀ row, ¬ ApprovalTakes W s now id existing data row)

/-- The store with the request filed. -/
def filed (s : Store) (u : Caller) (d : Draw) (id : String) (existing : Row) (data : Patch) : Store :=
  { s with changeRequests := s.changeRequests.insert d.rowId (updateRequest u id existing data) }

theorem ApprovalOutcome.untouched {s' : Store} (hg : s.routes.get? id = some r) (hroutes : s'.routes = s.routes)
    (hv : s'.routeVersions = s.routeVersions) (hn : ∀ row, ¬ ApprovalTakes W s now id r data row) :
    ApprovalOutcome W s now id r data s' := ⟨hv, r, by rw [hroutes, hg], Or.inr ⟨rfl, hn⟩⟩

theorem updateRequest_writes {existing : Row} :
    (updateRequest u id existing data).writes? = if id = "" then none else some id := by
  by_cases e : id = ""
  · subst e
    rfl
  · simp [ChangeRequest.writes?, ChangeRequest.route?, updateRequest, e]

/-- The target was judged when the request was filed, and the approval judges it alike. -/
theorem filed_target_allowed (hg : s.routes.get? id = some r) (hp : PlainTarget data)
    (ht : ((data .targetUrl).getD .null).truthy = true →
      targetRefused W s (textOf (data .targetUrl)) (r.val .organizationId) = none) :
    payloadTargetRefused W (filed s u d id r data) (updateRequest u id r data) = none := by
  unfold payloadTargetRefused
  split
  · rename_i routeId url hroute hurl
    obtain rfl : id = routeId := Option.some.inj (Option.filter_eq_some_iff.1 hroute).1
    have htext : data .targetUrl = some (.str url) := hurl
    obtain ⟨_, he, hne⟩ := hp _ htext
    obtain rfl : url = _ := Json.str.inj he
    have allowed := ht (by simp [htext, hne])
    have row : (filed s u d id r data).routes.get? id = some r := hg
    rw [htext] at allowed
    rw [row]
    exact allowed
  · rfl

theorem approve_filed (hg : s.routes.get? id = some r) (hc : s.changeRequests.get? d.rowId = none) (hp : PlainTarget data)
    (ht : ((data .targetUrl).getD .null).truthy = true →
      targetRefused W s (textOf (data .targetUrl)) (r.val .organizationId) = none) :
    Keeps (approve W now d.rowId reviewerId comment) (ApprovalOutcome W s now id r data) (filed s u d id r data) := by
  have found : (filed s u d id r data).changeRequests.get? d.rowId = some (updateRequest u id r data) := by
    show (s.changeRequests.insert d.rowId _).get? d.rowId = _
    rw [get?_insert hc, if_pos rfl]
  refine wp_mono approve_spec ?_ ?_
  · intro _ s' h
    obtain ⟨cr, hcr, -, ⟨hw, rfl⟩ | ⟨routeId, old, row, hw, ho, hrow, rfl⟩⟩ := h
    · obtain rfl : updateRequest u id r data = cr := Option.some.inj (found.symm.trans hcr)
      refine .untouched hg rfl rfl fun row takes => ?_
      rw [updateRequest_writes, if_neg takes.named] at hw
      cases hw
    · obtain rfl : updateRequest u id r data = cr := Option.some.inj (found.symm.trans hcr)
      rw [updateRequest_writes] at hw
      by_cases e : id = ""
      · rw [if_pos e] at hw
        cases hw
      · rw [if_neg e, Option.some.injEq] at hw
        subst hw
        refine ⟨rfl, row, ?_, Or.inl ⟨e, ht, hrow⟩⟩
        show (s.routes.modify id _).get? id = some row
        rw [get?_modify, if_pos rfl, hg]
        rfl
  · intro e s' h
    rcases h with ⟨rfl, hnone | ⟨cr, hcr, hrefused⟩⟩ | ⟨cr, routeId, hcr, -, hw, he, rfl⟩
    · rw [found] at hnone
      cases hnone
    · obtain rfl : updateRequest u id r data = cr := Option.some.inj (found.symm.trans hcr)
      rw [filed_target_allowed hg hp ht] at hrefused
      cases hrefused
    · obtain rfl : updateRequest u id r data = cr := Option.some.inj (found.symm.trans hcr)
      refine .untouched hg rfl rfl fun row takes => ?_
      rw [updateRequest_writes, if_neg takes.named, Option.some.injEq] at hw
      subst hw
      have hok : routeWrite s now id (appliedData data) = .error e := he
      rw [takes.write] at hok
      cases hok

theorem filedAndApproved_spec (hr : liveRoute? s id = some r) (hc : s.changeRequests.get? d.rowId = none)
    (hp : PlainTarget data) :
    Keeps (filedAndApproved W u d id data now reviewerId comment) (ApprovalOutcome W s now id r data) s := by
  obtain ⟨hg, hl⟩ := liveRoute?_iff.1 hr
  have file : (((data .targetUrl).getD .null).truthy = true →
      targetRefused W s (textOf (data .targetUrl)) (r.val .organizationId) = none) →
      Keeps (crCreate d.rowId (updateRequest u id r data) >>= fun _ =>
        (do let _ ← approve W now d.rowId reviewerId comment)) (ApprovalOutcome W s now id r data) s := by
    intro ht
    simp only [Keeps, crCreate, wp_bind, wp_read, wp_require, wp_modify]
    refine ⟨fun _ => ⟨fun _ => approve_filed hg hc hp ht, fun hn => absurd (fun k hk => ?_) hn⟩, fun hn => absurd ?_ hn⟩
    · obtain rfl : id = k := Option.some.inj hk
      rw [hg]
      rfl
    · rw [hc]
      rfl
  simp only [Keeps, filedAndApproved, requestUpdate, findLive]
  simp only [wp_bind, wp_read, wp_orThrow, wp_when, wp_assertRouteTargetAllowed]
  simp only [Keeps, wp_bind] at file
  refine ⟨fun existing he => ?_, fun hn => by rw [hr] at hn; cases hn⟩
  obtain rfl : r = existing := Option.some.inj (hr.symm.trans he)
  refine ⟨fun hu => ⟨fun ht => file fun _ => ht, fun m hm => ?_⟩, fun hu => file fun h => absurd h hu⟩
  refine .untouched hg rfl rfl fun row takes => ?_
  have hnone := takes.target hu
  rw [hm] at hnone
  cases hnone

end Approval

/-! ## What a body's data writes -/

section Written

variable {W : World} {s : Store} {d : Draw} {id now userId : String} {r row : Row} {body : Json} {data : Patch} {c : Column}
  {v : Json}

/-- Credentials come out of a body as a text. -/
theorem updateBody_credential (h : routeData W (partialUpdate (routeBodySchema W)) body = .ok data)
    (hv : data .authValue = some v) : ∃ t, v = .str t := by
  obtain ⟨members, out, hp, rfl⟩ := routeData_ok h
  have hf := parseObject_ok hp (k := .authValue) (by decide)
  have hfield : parseField (partialUpdate (routeBodySchema W)) members .authValue =
      (ZodType.optional (.leaf (union (string []) basicCredentials))).parse (members .authValue) := rfl
  rw [hfield] at hf
  rw [encodeBasicAuthInputs] at hv
  rcases ZodType.parse_optional_leaf hf with hn | ⟨x, w, -, hw, hleaf⟩
  · rw [hn] at hv
    cases hv
  · rw [hw, Option.map_some, Option.some.injEq] at hv
    subst hv
    simp only [union] at hleaf
    split at hleaf
    · rename_i w' hs
      cases hleaf
      obtain ⟨t, -, rfl, -⟩ := string_ok hs
      exact ⟨t, rfl⟩
    · split at hleaf
      · rename_i w' ho
        cases hleaf
        obtain ⟨_, _, a, b, -, -, rfl⟩ := object_two_ok ho
        exact ⟨_, rfl⟩
      · cases hleaf

/-- An approval stores what it takes of a body as it was sent. -/
theorem appliedValue (h : routeData W (partialUpdate (routeBodySchema W)) body = .ok data) (hc : c ∈ APPLIED_FIELDS)
    (hv : data c = some v) (hw : WrittenRow now (appliedData data) r row) : row.val c = v := by
  have hu : c ≠ .updatedAt := by
    rintro rfl
    exact absurd hc (by decide)
  have field := hw.field (c := c) (v := v) (by rw [appliedData, if_pos hc, hv]) hu
  by_cases hd : c ∈ DERIVED
  · have hd' : c = .targetUrl ∨ c = .authValue := by
      revert hc hd
      cases c <;> decide
    rcases hd' with rfl | rfl
    · obtain ⟨url, rfl, -⟩ := updateBody_target h v hv
      exact writeField_str field
    · obtain ⟨t, rfl⟩ := updateBody_credential h hv
      exact writeField_str field
  · rcases (updateBody_ok h hd hv).2 with ha | ho
    · rw [writeField_plain _ ha, Option.some.injEq] at field
      exact field.symm
    · exact writeField_value ho field

/-- A body never names the columns versions do not look at. -/
theorem updateBody_unversioned (h : routeData W (partialUpdate (routeBodySchema W)) body = .ok data)
    (hc : c ∈ NON_VERSIONED) : updateData W s d id r data c = none := by
  have hs : routeBodySchema W c = none := by
    revert hc
    cases c <;> first | exact fun _ => rfl | exact fun hc => absurd hc (by decide)
  rw [updateData_ne ?_ ?_ ?_]
  · exact routeData_noField h (by rw [partialUpdate, hs]; rfl)
  · rintro rfl
    exact absurd hc (by decide)
  · rintro rfl
    exact absurd hc (by decide)
  · intro hk
    revert hc hk
    cases c <;> decide

/-- An update that changes nothing leaves the configuration. -/
theorem UpdateTakes.same (h : UpdateTakes W s d id r data userId row) (hr : s.routes.get? id = some r) (hl : r.live = true)
    (hd : routeData W (partialUpdate (routeBodySchema W)) body = .ok data)
    (hn : hasChanges r (updateData W s d id r data) = false) : AgreeBut [.updatedAt, .updatedById] r row := by
  obtain ⟨base, hb, hw⟩ := h.write
  obtain ⟨old, ho, hrow⟩ := routeWrite_row hw
  obtain rfl : r = old := Option.some.inj ((updateBase_live hb hr hl).1.symm.trans ho)
  intro c hc
  simp only [List.mem_cons, List.not_mem_nil, or_false, not_or] at hc
  have patch : updatePatch r (updateData W s d id r data) userId c = updateData W s d id r data c := by
    rw [updatePatch, Patch.set_ne _ _ hc.2, hn]
    rfl
  cases hv : updateData W s d id r data c with
  | none => exact hrow.same (patch.trans hv) hc.1
  | some v =>
    have versioned : c ∉ NON_VERSIONED := by
      intro hm
      rw [updateBody_unversioned hd hm] at hv
      cases hv
    have same : v = r.val c := by
      have all := List.any_eq_false.1 hn c (Column.mem_all c)
      rw [hv] at all
      simpa [versioned] using all
    subst same
    exact hrow.plain (patch.trans hv) hc.1 (r.typed c)

/-- An approval leaves the configuration exactly when it sends nothing new. -/
theorem ApprovalTakes.same_iff (h : ApprovalTakes W s now id r data row) (hr : s.routes.get? id = some r)
    (hd : routeData W (partialUpdate (routeBodySchema W)) body = .ok data) :
    AgreeBut [.updatedAt, .updatedById] r row ↔ ∀ c ∈ APPLIED_FIELDS, ∀ v ∈ data c, v = r.val c := by
  obtain ⟨old, ho, hrow⟩ := routeWrite_row h.write
  obtain rfl : r = old := Option.some.inj (hr.symm.trans ho)
  constructor
  · intro agree c hc v hv
    rw [← appliedValue hd hc hv hrow]
    refine agree c ?_
    revert hc
    cases c <;> decide
  · intro same c hc
    simp only [List.mem_cons, List.not_mem_nil, or_false, not_or] at hc
    by_cases ha : c ∈ APPLIED_FIELDS
    · cases hv : data c with
      | none => exact hrow.same (by rw [appliedData, if_pos ha, hv]) hc.1
      | some v => rw [appliedValue hd ha hv hrow, same c ha v hv]
    · exact hrow.same (by rw [appliedData, if_neg ha]) hc.1

end Written

/-! ## The two outcomes -/

/-- The versions of a route that `s'` has and `s` has not: number and snapshot, without who
    wrote it and when. -/
def newVersions (s s' : Store) (id : String) : List (Json × (Column → Json)) :=
  (s'.routeVersions.filter fun k v => v.routeId = id && (s.routeVersions.get? k).isNone).rows.map fun v =>
    (v.2.version, fun c => if c ∈ [Column.updatedAt, .updatedById] then .null else v.2.snapshot c)

/-- After `s`, the route has the same configuration in both stores, and got the same versions. -/
structure SameOutcome (s s₁ s₂ : Store) (id : String) : Prop where
  configuration : ∃ r₁ r₂, s₁.routes.get? id = some r₁ ∧ s₂.routes.get? id = some r₂ ∧
    AgreeBut [.updatedAt, .updatedById] r₁ r₂
  versions : newVersions s s₁ id = newVersions s s₂ id

theorem newVersions_same {s s' : Store} {id : String} (h : s'.routeVersions = s.routeVersions) : newVersions s s' id = [] := by
  have none_new : (s'.routeVersions.filter fun k v => v.routeId = id && (s.routeVersions.get? k).isNone).rows = [] := by
    refine List.filter_eq_nil_iff.2 fun v hv hp => ?_
    rw [h] at hv
    have hget : s.routeVersions.get? v.1 = some v.2 := mem_rows_iff.1 hv
    simp [hget] at hp
  rw [newVersions, none_new]
  rfl

theorem newVersions_ne {s s' : Store} {d : Draw} {id userId : String} {row : Row}
    (hv : s.routeVersions.get? d.versionId = none) (h : s'.routeVersions = withVersion s d id userId row) :
    newVersions s s' id ≠ [] := by
  intro hn
  rw [newVersions, List.map_eq_nil_iff] at hn
  have hget : s'.routeVersions.get? d.versionId = some ⟨id, row.val .version, row.val, userId⟩ := by
    rw [h, withVersion, get?_insert hv, if_pos rfl]
  have hm : (d.versionId, (⟨id, row.val .version, row.val, userId⟩ : RouteVersion)) ∈
      (s'.routeVersions.filter fun k v => v.routeId = id && (s.routeVersions.get? k).isNone).rows := by
    rw [mem_rows_iff, get?_filter, hget, Option.filter_some, if_pos (by simp [hv])]
  rw [hn] at hm
  cases hm

/-- Filing and approving an update comes to the same as making it exactly when neither
    changes anything: the update would be refused or writes what is stored, and the
    approval would be refused or its listed fields are stored as sent. -/
theorem approved_update_agrees {W : World} {s : Store} {u : Caller} {d : Draw} {id userId now reviewerId : String}
    {comment : Option String} {r : Row} {body : Json} {data : Patch} (hr : liveRoute? s id = some r)
    (hd : routeData W (partialUpdate (routeBodySchema W)) body = .ok data)
    (hc : s.changeRequests.get? d.rowId = none) (hv : s.routeVersions.get? d.versionId = none) :
    SameOutcome s (updateRoute W d id data userId s).2 (filedAndApproved W u d id data now reviewerId comment s).2 id ↔
      ((∃ row, UpdateTakes W s d id r data userId row) → hasChanges r (updateData W s d id r data) = false) ∧
      ((∃ row, ApprovalTakes W s now id r data row) → ∀ c ∈ APPLIED_FIELDS, ∀ v ∈ data c, v = r.val c) := by
  obtain ⟨hg, hl⟩ := liveRoute?_iff.1 hr
  obtain ⟨versions, r₂, hr₂, approved⟩ := wp_final (filedAndApproved_spec (W := W) (u := u) hr hc (updateBody_target hd))
  have direct : (∃ row, UpdateTakes W s d id r data userId row ∧
        (updateRoute W d id data userId s).2.routes.get? id = some row ∧
        (updateRoute W d id data userId s).2.routeVersions =
          if hasChanges r (updateData W s d id r data) then withVersion s d id userId row else s.routeVersions) ∨
      (∀ row, ¬ UpdateTakes W s d id r data userId row) ∧ (updateRoute W d id data userId s).2.routes.get? id = some r ∧
        (updateRoute W d id data userId s).2.routeVersions = s.routeVersions := by
    refine wp_final (P := fun s' => (∃ row, UpdateTakes W s d id r data userId row ∧ s'.routes.get? id = some row ∧
        s'.routeVersions =
          if hasChanges r (updateData W s d id r data) then withVersion s d id userId row else s.routeVersions) ∨
      (∀ row, ¬ UpdateTakes W s d id r data userId row) ∧ s'.routes.get? id = some r ∧
        s'.routeVersions = s.routeVersions) (wp_mono (updateRoute_outcome hr hv) ?_ ?_)
    · intro row s' h
      exact Or.inl ⟨row, h⟩
    · intro _ s' h
      exact Or.inr h
  -- what the approval leaves agrees with the old row exactly when it sends nothing new
  have approved_iff : AgreeBut [.updatedAt, .updatedById] r r₂ ↔
      ((∃ row, ApprovalTakes W s now id r data row) → ∀ c ∈ APPLIED_FIELDS, ∀ v ∈ data c, v = r.val c) := by
    rcases approved with takes | ⟨rfl, hn⟩
    · rw [takes.same_iff hg hd]
      exact ⟨fun h _ => h, fun h => h ⟨r₂, takes⟩⟩
    · exact ⟨fun _ h => absurd h.choose_spec (hn _), fun _ _ _ => rfl⟩
  rcases direct with ⟨row, takes, hrow, hver⟩ | ⟨hn, hrow, hver⟩
  · by_cases hch : hasChanges r (updateData W s d id r data) = true
    · rw [if_pos hch] at hver
      constructor
      · intro h
        have differ := newVersions_ne hv hver
        rw [h.versions, newVersions_same versions] at differ
        exact absurd rfl differ
      · intro h
        rw [h.1 ⟨row, takes⟩] at hch
        cases hch
    · have hsame : hasChanges r (updateData W s d id r data) = false := by simpa using hch
      rw [if_neg hch] at hver
      have unchanged := takes.same hg hl hd hsame
      constructor
      · intro h
        refine ⟨fun _ => hsame, approved_iff.1 fun c hc => ?_⟩
        obtain ⟨r₁', r₂', h₁, h₂, agree⟩ := h.configuration
        obtain rfl : row = r₁' := Option.some.inj (hrow.symm.trans h₁)
        obtain rfl : r₂ = r₂' := Option.some.inj (hr₂.symm.trans h₂)
        rw [agree c hc, unchanged c hc]
      · intro h
        refine ⟨⟨row, r₂, hrow, hr₂, fun c hc => ?_⟩, ?_⟩
        · rw [approved_iff.2 h.2 c hc, unchanged c hc]
        · rw [newVersions_same hver, newVersions_same versions]
  · constructor
    · intro h
      refine ⟨fun ht => absurd ht.choose_spec (hn _), approved_iff.1 ?_⟩
      obtain ⟨r₁', r₂', h₁, h₂, agree⟩ := h.configuration
      obtain rfl : r = r₁' := Option.some.inj (hrow.symm.trans h₁)
      obtain rfl : r₂ = r₂' := Option.some.inj (hr₂.symm.trans h₂)
      exact agree
    · intro h
      refine ⟨⟨r, r₂, hrow, hr₂, approved_iff.2 h.2⟩, ?_⟩
      rw [newVersions_same hver, newVersions_same versions]

/-! ## A password in clear -/

/-- What comes out of an update's body of one field. -/
def oneField (field : String) (v : Json) : Patch :=
  ((routeData World.plain (partialUpdate (routeBodySchema World.plain)) (.obj [(field, v)])).toOption).getD Patch.empty

/-- The update of the plain route, filed and approved or at once, comes to the same. -/
def AgreesOn (data : Patch) : Prop :=
  SameOutcome oneRoute (updateRoute World.plain Draw.plain "route" data "reviewer" oneRoute).2
    (filedAndApproved World.plain reviewer Draw.plain "route" data "now" "reviewer" none oneRoute).2 "route"

/-- The timeout the route has. -/
theorem approved_update_agrees_timeout : AgreesOn (oneField "timeout" (.num 120000)) := by
  have parsed : routeData World.plain (partialUpdate (routeBodySchema World.plain)) (.obj [("timeout", .num 120000)]) =
      .ok (oneField "timeout" (.num 120000)) := rfl
  refine (approved_update_agrees (r := plainRoute) rfl parsed rfl rfl).2 ⟨fun _ => ?_, fun _ => ?_⟩
  · decide +kernel
  · decide +kernel

/-- A password: the update seals it, the approval stores it in clear. -/
theorem approval_stores_plaintext :
    ¬ ∀ (W : World) (s : Store) (u : Caller) (d : Draw) (id userId now reviewerId : String) (comment : Option String)
      (r : Row) (body : Json) (data : Patch), liveRoute? s id = some r →
      routeData W (partialUpdate (routeBodySchema W)) body = .ok data → s.changeRequests.get? d.rowId = none →
      s.routeVersions.get? d.versionId = none →
      SameOutcome s (updateRoute W d id data userId s).2 (filedAndApproved W u d id data now reviewerId comment s).2 id := by
  intro h
  have parsed : routeData World.plain (partialUpdate (routeBodySchema World.plain)) (.obj [("authValue", .str "hunter2")]) =
      .ok (oneField "authValue" (.str "hunter2")) := rfl
  have same := h World.plain oneRoute reviewer Draw.plain "route" "reviewer" "now" "reviewer" none plainRoute _ _ rfl parsed
    rfl rfl
  have direct : ((updateRoute World.plain Draw.plain "route" (oneField "authValue" (.str "hunter2")) "reviewer"
      oneRoute).2.routes.get? "route").map (fun r => r.val .authValue) =
        some (.str "enc:v1:AAAAAAAAAAAAAAAAAAAAAAAAAAAAAAAAAAAAAGh1bnRlcjI=") := by
    decide +kernel
  have approved : ((filedAndApproved World.plain reviewer Draw.plain "route" (oneField "authValue" (.str "hunter2")) "now"
      "reviewer" none oneRoute).2.routes.get? "route").map (fun r => r.val .authValue) = some (.str "hunter2") := by
    decide +kernel
  obtain ⟨r₁, r₂, h₁, h₂, agree⟩ := same.configuration
  rw [h₁, Option.map_some, Option.some.injEq] at direct
  rw [h₂, Option.map_some, Option.some.injEq, agree .authValue (by decide), direct] at approved
  exact absurd approved (by decide)

end ClusterGate
