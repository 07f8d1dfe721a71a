/-
  ClusterGate.Tenancy — which routes a call of a routes endpoint may touch.

  A caller who is no system admin may change the routes of the organizations they manage,
  and an archived route may give up its path. Every endpoint checks that but three: the
  bulk update, publish and deactivate select by id alone.
  - `bulk_deactivate_crosses_tenants`: what that does.
  - `tenant_frame`: a call that succeeds keeps to the caller's organizations exactly when
    no bulk call of the three names a live route outside them that it would alter.
-/

import ClusterGate.Route.Frame

namespace ClusterGate

open Lib Lib.Act Lib.Table Lib.Zod

/-- The row is in an organization the caller has the role to manage. -/
def ownedBy (s : Store) (u : Caller) (r : Row) : Prop := ∃ org ∈ r.orgId, canManageOrgRoutes s u org = true

/-- Every route whose row differs was in an organization the caller manages, or is an
    archived one that gave up its path. -/
def TenantFrame (s : Store) (u : Caller) (s' : Store) : Prop :=
  ∀ k r, s.routes.get? k = some r → s'.routes.get? k = some r ∨ ownedBy s u r ∨
    ∃ r', s'.routes.get? k = some r' ∧ Freed k r r'

/-- What the bulk update, publish and deactivate write to a live route they name. -/
def RouteOp.bulkWrites (u : Caller) (op : RouteOp) (k : String) (r : Row) : Option Patch :=
  match op with
  | .bulkUpdate body =>
    match parsed ["ids", "environment", "routeGroupId", "addTags"] bulkUpdateSchema body with
    | .ok data => if k ∈ textList data "ids" then some (bulkData (bulkPatchOf data) u.userId r) else none
    | .error _ => none
  | .bulkPublish body =>
    match parsed ["ids"] bulkIdsSchema body with
    | .ok data => if k ∈ textList data "ids" then some (publishData u.userId) else none
    | .error _ => none
  | .bulkDeactivate body =>
    match parsed ["ids"] bulkIdsSchema body with
    | .ok data => if k ∈ textList data "ids" then some (deactivateData u.userId) else none
    | .error _ => none
  | _ => none

/-- The row holds every value of the data already. -/
def Holds (data : Patch) (r : Row) : Prop := ∀ c v, data c = some v → r.val c = v

/-- A bulk call names no live route outside the caller's organizations that it would alter. -/
def NamesOwnRoutes (s : Store) (u : Caller) (d : Draw) (op : RouteOp) : Prop :=
  ∀ k r data, liveRoute? s k = some r → op.bulkWrites u k r = some data →
    ownedBy s u r ∨ Holds (stamped d.now data) r

/-! ## Writing what is there -/

theorem WrittenRow.self {now : String} {data : Patch} {r r' : Row} (h : WrittenRow now data r r')
    (hh : Holds (stamped now data) r) : r' = r := by
  refine Row.ext fun c => ?_
  cases hc : stamped now data c with
  | none => exact write_same h hc
  | some v =>
    have hv := hh c v hc
    exact (write_plain h hc (hv ▸ r.typed c)).trans hv.symm

/-- Data of fixed values that changes nothing was there already. -/
theorem WrittenRow.holds {now : String} {data : Patch} {r : Row} (h : WrittenRow now data r r)
    (hp : ∀ c v, data c = some v → isFixed v = true) : Holds (stamped now data) r := by
  intro c v hc
  refine writeField_value ?_ (write_field h hc)
  by_cases hu : c = .updatedAt
  · subst hu
    obtain rfl : Json.str now = v := by simpa [stamped] using hc
    rfl
  · exact hp c v (by rwa [stamped_ne hu] at hc)

/-! ## What the three write is fixed -/

theorem withTags_value (r : Row) (tags : List String) : isFixed (withTags r tags) = true := by
  unfold withTags
  split
  · rfl
  · have ht := r.typed .tags
    cases hv : r.val .tags with
    | arr vs => rfl
    | _ =>
      rw [hv] at ht
      cases ht

/-- No value the three write is a number or an operation on a field. -/
theorem bulkWrites_value {u : Caller} {op : RouteOp} {k : String} {r : Row} {data : Patch}
    (h : op.bulkWrites u k r = some data) {c : Column} {v : Json} (hc : data c = some v) : isFixed v = true := by
  have published : ∀ {v}, publishData u.userId c = some v → isFixed v = true := by
    intro v hv
    have := Patch.mem_of_ofList hv
    simp only [List.mem_cons, Prod.mk.injEq, List.not_mem_nil, or_false] at this
    rcases this with ⟨-, rfl⟩ | ⟨-, rfl⟩ | ⟨-, rfl⟩ <;> rfl
  have deactivated : ∀ {v}, deactivateData u.userId c = some v → isFixed v = true := by
    intro v hv
    have := Patch.mem_of_ofList hv
    simp only [List.mem_cons, Prod.mk.injEq, List.not_mem_nil, or_false] at this
    rcases this with ⟨-, rfl⟩ | ⟨-, rfl⟩ <;> rfl
  unfold RouteOp.bulkWrites at h
  split at h
  · split at h
    · rename_i out ho
      split at h
      · injection h with h
        subst h
        -- the environment and the group come from the schema, tags are a list
        have base : ∀ {v}, bulkBase (bulkPatchOf out) u.userId c = some v → isFixed v = true := by
          intro v hv
          unfold bulkBase at hv
          split at hv
          · cases hv
            rfl
          · obtain ⟨o, hf⟩ := parsed_field (f := "environment") ho (by decide) rfl
            rw [bulkPatchOf, Option.filter_eq_some_iff] at hv
            have henv : out "environment" = some v := hv.1
            rw [henv] at hf
            exact enum_value hf
          · obtain ⟨o, hf⟩ := parsed_field (f := "routeGroupId") ho (by decide) rfl
            have hgroup : out "routeGroupId" = some v := hv
            rw [hgroup] at hf
            exact nullableText_value hf
          · cases hv
        unfold bulkData at hc
        by_cases ht : cleanTags (bulkPatchOf out) = []
        · rw [if_pos ht] at hc
          exact base hc
        · rw [if_neg ht] at hc
          by_cases e : c = .tags
          · subst e
            rw [Patch.set_same, Option.some.injEq] at hc
            exact hc ▸ withTags_value r _
          · rw [Patch.set_ne _ _ e] at hc
            exact base hc
      · cases h
    · cases h
  · split at h
    · split at h
      · injection h with h
        exact published (h ▸ hc)
      · cases h
    · cases h
  · split at h
    · split at h
      · injection h with h
        exact deactivated (h ▸ hc)
      · cases h
    · cases h
  · cases h

/-! ## The three write every live route they name -/

theorem bulkMany_written {now : String} {ids : List String} {data : Patch} {s : Store} :
    wp (routeUpdateMany now (liveAmong ids) data)
      (fun _ s' => ∀ k r, liveRoute? s k = some r → k ∈ ids →
        ∃ r', s'.routes.get? k = some r' ∧ WrittenRow now data r r') (fun _ _ => True) s := by
  refine wp_mono routeUpdateMany_spec ?_ fun _ _ _ => trivial
  intro n s' h k r hr hk
  obtain ⟨-, hw, rfl⟩ := h
  obtain ⟨hg, hl⟩ := liveRoute?_iff.1 hr
  have hs : liveAmong ids k r = true := liveAmong_iff.2 ⟨hk, hl⟩
  obtain ⟨r', hr', -⟩ := hw k r hg hs
  refine ⟨r', ?_, hr'⟩
  show (s.routes.mapRows _).get? k = some r'
  rw [get?_mapRows, hg, Option.map_some, writtenIf, if_pos hs, hr']
  rfl

theorem bulkUpdate_written {now userId : String} {ids : List String} {patch : BulkPatch} {s : Store} :
    wp (bulkUpdate now ids patch userId)
      (fun _ s' => ∀ k r, liveRoute? s k = some r → k ∈ ids →
        ∃ r', s'.routes.get? k = some r' ∧ WrittenRow now (bulkData patch userId r) r r') (fun _ _ => True) s := by
  unfold bulkUpdate
  by_cases ht : cleanTags patch = []
  · rw [if_pos ht]
    simp only [bulkData, if_pos ht]
    exact bulkMany_written
  · rw [if_neg ht]
    simp only [wp_bind, wp_read]
    have hx : ∀ x ∈ (s.routes.filter (liveAmong ids)).rows, s.routes.get? x.1 = some x.2 := fun x h => (mem_liveAmong h).1
    refine wp_mono (routeUpdates_spec (fun _ r => bulkData patch userId r) hx
      (s.routes.filter (liveAmong ids)).nodup) ?_ fun _ _ _ => trivial
    intro _ s' h k r hr hk
    obtain ⟨t, rfl, hw, -⟩ := h
    obtain ⟨hg, hl⟩ := liveRoute?_iff.1 hr
    have hm : (k, r) ∈ (s.routes.filter (liveAmong ids)).rows := by
      rw [mem_rows_iff, get?_filter, hg, Option.filter_some, if_pos (liveAmong_iff.2 ⟨hk, hl⟩)]
    obtain ⟨r', ⟨-, hr'⟩, ht⟩ := hw (k, r) hm
    exact ⟨r', ht, hr'⟩

theorem bulk_written {W : World} {u : Caller} {d : Draw} {op : RouteOp} {s : Store} {k : String} {r : Row} {data : Patch}
    (hs : Succeeds (op.perform W u d) s) (hr : liveRoute? s k = some r) (hb : op.bulkWrites u k r = some data) :
    ∃ r', (op.perform W u d s).2.routes.get? k = some r' ∧ WrittenRow d.now data r r' := by
  unfold RouteOp.bulkWrites at hb
  split at hb
  · rename_i body
    refine wp_succeeds (P := fun s' => ∃ r', s'.routes.get? k = some r' ∧ WrittenRow d.now data r r')
      (E := fun _ _ => True) ?_ hs
    simp only [RouteOp.perform, postBulkUpdate, authorize, parseBody, wp_bind, wp_require, wp_ofExcept]
    refine ⟨fun _ => ⟨fun out ho => ⟨fun _ => ?_, fun _ => trivial⟩, fun _ _ => trivial⟩, fun _ => trivial⟩
    simp only [ho] at hb
    split at hb
    · rename_i hk
      injection hb with hb
      subst hb
      exact wp_mono bulkUpdate_written (fun _ s' h => h k r hr hk) fun _ _ _ => trivial
    · cases hb
  · rename_i body
    refine wp_succeeds (P := fun s' => ∃ r', s'.routes.get? k = some r' ∧ WrittenRow d.now data r r')
      (E := fun _ _ => True) ?_ hs
    simp only [RouteOp.perform, postBulkPublish, authorize, parseBody, wp_bind, wp_require, wp_ofExcept]
    refine ⟨fun _ => ⟨fun out ho => ?_, fun _ _ => trivial⟩, fun _ => trivial⟩
    simp only [ho] at hb
    split at hb
    · rename_i hk
      injection hb with hb
      subst hb
      exact wp_mono bulkMany_written (fun _ s' h => h k r hr hk) fun _ _ _ => trivial
    · cases hb
  · rename_i body
    refine wp_succeeds (P := fun s' => ∃ r', s'.routes.get? k = some r' ∧ WrittenRow d.now data r r')
      (E := fun _ _ => True) ?_ hs
    simp only [RouteOp.perform, postBulkDeactivate, authorize, parseBody, wp_bind, wp_require, wp_ofExcept]
    refine ⟨fun _ => ⟨fun out ho => ?_, fun _ _ => trivial⟩, fun _ => trivial⟩
    simp only [ho] at hb
    split at hb
    · rename_i hk
      injection hb with hb
      subst hb
      exact wp_mono bulkMany_written (fun _ s' h => h k r hr hk) fun _ _ _ => trivial
    · cases hb
  · cases hb

/-! ## The frame -/

theorem manages.owned {s : Store} {u : Caller} {r : Row} (h : manages s u r) (hu : u.role ≠ .ADMIN) : ownedBy s u r :=
  h.resolve_left hu

/-- Outside the three, a changed row is the caller's or an archived one. -/
theorem changes_owned {W : World} {s : Store} {u : Caller} {d : Draw} {op : RouteOp} {k : String} {r r' : Row}
    (hu : u.role ≠ .ADMIN) (h : op.changes W s u d k r r') :
    Freed k r r' ∨ ownedBy s u r ∨ ∃ data, r.live = true ∧ op.bulkWrites u k r = some data ∧ WrittenRow d.now data r r' := by
  cases op with
  | create body => exact Or.inl h
  | «import» draws body => exact Or.inl h
  | update id body =>
    rcases h with h | ⟨-, hm, -⟩
    · exact Or.inl h
    · exact Or.inr (Or.inl (hm.owned hu))
  | restoreVersion id versionId =>
    rcases h with h | ⟨-, ha, -⟩
    · exact Or.inl h
    · exact absurd ha hu
  | publish id =>
    obtain ⟨-, -, hm, -⟩ := h
    exact Or.inr (Or.inl (hm.owned hu))
  | deactivate id =>
    obtain ⟨-, -, hm, -⟩ := h
    exact Or.inr (Or.inl (hm.owned hu))
  | delete id confirmName =>
    obtain ⟨-, -, hd, -⟩ := h
    exact Or.inr (Or.inl (hd.manages.owned hu))
  | restore id =>
    obtain ⟨-, -, hd, -⟩ := h
    exact Or.inr (Or.inl (hd.manages.owned hu))
  | bulkDelete body =>
    obtain ⟨-, -, -, -, hd, -⟩ := h
    exact Or.inr (Or.inl (hd.manages.owned hu))
  | bulkUpdate body =>
    obtain ⟨-, data, hd, hk, hl, hw⟩ := h
    exact Or.inr (Or.inr ⟨_, hl, by simp only [RouteOp.bulkWrites, hd, if_pos hk], hw⟩)
  | bulkPublish body =>
    obtain ⟨-, data, hd, hk, hl, hw⟩ := h
    exact Or.inr (Or.inr ⟨_, hl, by simp only [RouteOp.bulkWrites, hd, if_pos hk], hw⟩)
  | bulkDeactivate body =>
    obtain ⟨-, data, hd, hk, hl, hw⟩ := h
    exact Or.inr (Or.inr ⟨_, hl, by simp only [RouteOp.bulkWrites, hd, if_pos hk], hw⟩)
  | deletePermanently id => exact h.elim
  | duplicate id => exact h.elim

/-- Only a route of the caller's is removed. -/
theorem removes_owned {s : Store} {u : Caller} {op : RouteOp} {k : String} {r : Row} (hu : u.role ≠ .ADMIN)
    (h : op.removes s u k r) : ownedBy s u r := by
  cases op
  case deletePermanently id =>
    obtain ⟨-, -, hd⟩ := h
    exact hd.manages.owned hu
  all_goals exact h.elim

/-- A call that succeeds for a caller who is no system admin keeps to the organizations
    they manage exactly when it is no bulk update, publish or deactivate that names, and
    would alter, a live route outside them. -/
theorem tenant_frame {W : World} {s : Store} {u : Caller} {d : Draw} {op : RouteOp} (hu : u.role ≠ .ADMIN)
    (hs : Succeeds (op.perform W u d) s) :
    TenantFrame s u (op.perform W u d s).2 ↔ NamesOwnRoutes s u d op := by
  constructor
  · intro hf k r data hr hb
    obtain ⟨hg, hl⟩ := liveRoute?_iff.1 hr
    obtain ⟨r', hr', hw⟩ := bulk_written hs hr hb
    rcases hf k r hg with h | h | ⟨_, _, h⟩
    · obtain rfl : r' = r := by simpa [hr'] using h
      exact Or.inr (hw.holds fun c v hc => bulkWrites_value hb hc)
    · exact Or.inl h
    · rw [h.1] at hl
      cases hl
  · intro hn k r hr
    have effect := wp_final (RouteOp.perform_keeps (W := W) (u := u) (d := d) (s := s) op)
    cases hr' : (op.perform W u d s).2.routes.get? k with
    | none => exact Or.inr (Or.inl (removes_owned hu (effect.routes.gone hr hr')))
    | some r' =>
      rcases effect.routes.some hr hr' with rfl | h
      · exact Or.inl rfl
      · rcases changes_owned hu h with h | h | ⟨data, hl, hb, hw⟩
        · exact Or.inr (Or.inr ⟨r', rfl, h⟩)
        · exact Or.inr (Or.inl h)
        · rcases hn k r data (liveRoute?_iff.2 ⟨hr, hl⟩) hb with h | h
          · exact Or.inr (Or.inl h)
          · exact Or.inl (by rw [hw.self h])

/-! ## Two organizations -/

/-- A caller who manages the first organization only. -/
def firstManager : Caller := ⟨"user", .OPERATOR⟩

def routeOf (org path : String) : Row := Row.ofFields
  [(.name, .str "route"), (.publicPath, .str path), (.targetUrl, .str "http://upstream"), (.isActive, .bool true),
   (.organizationId, .str org)] (by intro c; cases c <;> rfl)

/-- A route in each of two organizations. -/
def twoOrganizations : Store := { Store.empty with
  organizations := (Table.empty.insert "first" { name := "First" }).insert "second" { name := "Second" }
  orgMemberships := Table.empty.insert ("user", "first") .ADMIN
  routes := (Table.empty.insert "own" (routeOf "first" "/r/own")).insert "foreign" (routeOf "second" "/r/foreign") }

/-- A route of the caller's is published. -/
theorem own_publish_frame : TenantFrame twoOrganizations firstManager
    ((RouteOp.publish "own").perform World.plain firstManager Draw.plain twoOrganizations).2 :=
  (tenant_frame (by decide) (by decide +kernel)).2 fun _ _ _ _ h => nomatch h

/-- Deactivating in bulk selects by id alone: another organization's route goes down. -/
theorem bulk_deactivate_crosses_tenants :
    ¬ ∀ (W : World) (s : Store) (u : Caller) (d : Draw) (op : RouteOp), u.role ≠ .ADMIN → Succeeds (op.perform W u d) s →
      TenantFrame s u (op.perform W u d s).2 := by
  intro h
  have frame := h World.plain twoOrganizations firstManager Draw.plain
    (.bulkDeactivate (.obj [("ids", .arr [.str "foreign"])])) (by decide) (by decide +kernel)
  rcases frame "foreign" (routeOf "second" "/r/foreign") rfl with h | ⟨org, ho, hm⟩ | ⟨_, _, h⟩
  · have active := congrArg (Option.map fun r : Row => r.val .isActive) h
    exact absurd active (by decide +kernel)
  · obtain rfl : "second" = org := Option.some.inj ho
    exact absurd hm (by decide +kernel)
  · exact absurd h.1 (by decide +kernel)

end ClusterGate
