/-
  ClusterGate.ChangePolicy — what stands between a caller whom a route's change policy
  binds and the route.

  A policy binds a caller who is no system admin and holds none of its bypass roles. What
  the proxy does with a route's requests is where it serves the route (`servedAt`), the
  columns it reads, the route's load-balancing targets and transform rules, its group and
  its policy. Only `PUT /:id` asks the policy: publishing, deactivating, the bulk
  endpoints, targets, transform rules and groups do not. `Request.sidesteps` lists the
  calls that get around it so.
  - `guarded_routes_change_by_approval`: over every run without such a call, a guarded
    caller's calls leave the proxy's treatment of the route alone, approvals apart.
  - `a_target_sidesteps_approval`: a guarded caller adds a load-balancing target.
-/

import ClusterGate.Route.Written

namespace ClusterGate

open Lib Lib.Act Lib.Table Lib.Zod

/-! ## What the proxy does with a route -/

/-- The path the proxy serves a route at, if it serves it. -/
def servedAt (r : Row) : Option Json :=
  if r.live = true ∧ r.flag .isActive = true ∧ r.val .status = .str "PUBLISHED" then some (r.val .publicPath) else none

/-- The columns that matter to the proxy through `servedAt` only, or not at all. The folder is
    among them: a key of the folder may be admitted to the route, and which keys are admitted
    is left out. -/
def UNREAD : List Column :=
  [.isActive, .status, .publicPath, .deletedAt, .slug, .folderId, .environment, .tags, .updatedById, .updatedAt]

/-- The proxy treats route `k`, whose row was `r`, in `s'` as it did in `s`. -/
structure SameTreatment (s s' : Store) (k : String) (r : Row) : Prop where
  row : ∃ r', s'.routes.get? k = some r' ∧ servedAt r' = servedAt r ∧ AgreeBut UNREAD r r'
  targets : ∀ j t, t.routeId = k → (s'.routeTargets.get? j = some t ↔ s.routeTargets.get? j = some t)
  rules : ∀ j t, t.routeId = k → (s'.transformRules.get? j = some t ↔ s.transformRules.get? j = some t)
  policy : getPolicy s' k = getPolicy s k

/-- The route's policy asks for approval, and the caller holds no role that passes. -/
structure Guarded (s : Store) (u : Caller) (k : String) : Prop where
  role : u.role ≠ .ADMIN
  required : (getPolicy s k).required = true
  bypass : ∀ org ∈ routeOrg? s k, ∀ role ∈ getUserOrgRole s u.userId org, role ∉ (getPolicy s k).bypassRoles

/-! ## Ways around the policy -/

/-- The body names the route, and the caller may call the bulk endpoints. -/
def bulkNames (u : Caller) (k : String) (out : Except Err (String → Option Json)) (P : (String → Option Json) → Prop) : Prop :=
  u.role ∈ [Role.ADMIN, .OPERATOR] ∧ ∃ data, out = .ok data ∧ k ∈ textList data "ids" ∧ P data

/-- Taking the route up or down, or into another group. -/
def RouteOp.sidesteps (s : Store) (u : Caller) (k : String) (r : Row) : RouteOp → Prop
  | .publish id => id = k ∧ manages s u r ∧ servedAt r = none
  | .deactivate id => id = k ∧ manages s u r ∧ servedAt r ≠ none
  | .bulkPublish body => bulkNames u k (parsed ["ids"] bulkIdsSchema body) fun _ => servedAt r = none
  | .bulkDeactivate body => bulkNames u k (parsed ["ids"] bulkIdsSchema body) fun _ => servedAt r ≠ none
  | .bulkUpdate body =>
    bulkNames u k (parsed ["ids", "environment", "routeGroupId", "addTags"] bulkUpdateSchema body) fun data =>
      ∃ v ∈ data "routeGroupId", v ≠ r.val .routeGroupId
  | _ => False

/-- Adding a target to the route, or altering one. -/
def TargetOp.sidesteps (W : World) (s : Store) (u : Caller) (k : String) : TargetOp → Prop
  | .add routeId body => routeId = k ∧ MayWrite s u k ∧ ∃ data, parsed targetFields (targetSchema W) body = .ok data
  | .update routeId targetId body => routeId = k ∧ MayWrite s u k ∧ ∃ data t,
      parsed targetFields (partialUpdate (targetSchema W)) body = .ok data ∧ s.routeTargets.get? targetId = some t ∧
      t.routeId = k ∧ t.withFields data ≠ t
  | .delete _ _ => False

/-- Adding a transform rule to the route, or altering one. -/
def TransformOp.sidesteps (s : Store) (u : Caller) (k : String) : TransformOp → Prop
  | .create routeId body => routeId = k ∧ MayWrite s u k ∧ ∃ data,
      parsed transformRuleFields transformRuleSchema body = .ok data
  | .update routeId ruleId body => routeId = k ∧ MayWrite s u k ∧ ∃ data t,
      parsed transformRuleFields (partialUpdate transformRuleSchema) body = .ok data ∧
      s.transformRules.get? ruleId = some t ∧ t.routeId = k ∧ t.withFields data ≠ t
  | .delete _ _ => False

/-- The policy of a route of an organization, with a group or without. -/
def policyIn (org : Organization) (group : Option RouteGroup) : CRPolicy := match group with
  | none => orgPolicy org
  | some g => match g.changeRequestsEnabled with
    | some enabled => groupPolicy org g enabled
    | none => orgPolicy org

/-- Another group for the route, or another policy for its group. -/
def GroupOp.sidesteps (W : World) (s : Store) (u : Caller) (k : String) (r : Row) : GroupOp → Prop
  | .assign id routeId => routeId = k ∧ MayWrite s u k ∧ managesGroup s u id ∧ r.val .routeGroupId ≠ .str id
  | .remove id routeId => routeId = k ∧ MayWrite s u k ∧ managesGroup s u id ∧ r.val .routeGroupId ≠ .null
  | .update id body => r.val .routeGroupId = .str id ∧ u.role ∈ [Role.ADMIN, .OPERATOR] ∧ managesGroup s u id ∧
      ∃ data g, parsed routeGroupFields (partialUpdate routeGroupSchema) body = .ok data ∧
        s.routeGroups.get? id = some g ∧ ∃ org ∈ (routeOrg? s k).bind s.organizations.get?,
          policyIn org (some (g.withFields W s id data)) ≠ policyIn org (some g)
  | _ => False

/-- The call changes the proxy's treatment of route `k` without asking its policy. -/
def Request.sidesteps (W : World) (s : Store) (q : Request) (k : String) (r : Row) : Prop := match q.endpoint with
  | .route op => op.sidesteps s q.caller k r
  | .target op => op.sidesteps W s q.caller k
  | .transform op => op.sidesteps s q.caller k
  | .group op => op.sidesteps W s q.caller k r
  | .change _ | .folder _ | .member _ => False

/-- The call approves a change of route `k`, by one who may approve it. -/
def Request.approves (W : World) (s : Store) (q : Request) (k : String) : Prop :=
  ∃ op cr, q.endpoint = .change op ∧ op.applies W s q.caller q.draw cr k

/-! ## A guarded caller's call -/

section Calls

variable {W : World} {s s' : Store} {q : Request} {u : Caller} {k : String} {r r' : Row}

/-- One who manages a guarded route does not pass its policy. -/
theorem Guarded.not_bypass (h : Guarded s u k) (hr : s.routes.get? k = some r) (hm : manages s u r) :
    canBypass s u k = false := by
  rcases hm with ha | ⟨org, ho, hm⟩
  · exact absurd ha h.role
  · have horg : routeOrg? s k = some org := by
      rw [routeOrg?, hr]
      exact ho
    obtain ⟨role, hrole⟩ : ∃ role, getUserOrgRole s u.userId org = some role := by
      simp only [canManageOrgRoutes, Bool.or_eq_true, decide_eq_true_eq] at hm
      rcases hm with (ha | hm) | hm
      · exact absurd ha h.role
      · exact ⟨_, hm⟩
      · exact ⟨_, hm⟩
    have hnot := h.bypass org horg role hrole
    simp only [canBypass, horg, Option.bind_some, hrole, h.required, Bool.not_true, Bool.or_false]
    simp [h.role, hnot]

theorem servedAt_congr {cs : List Column} (h : AgreeBut cs r r') (hd : .deletedAt ∉ cs) (ha : .isActive ∉ cs)
    (hs : .status ∉ cs) (hp : .publicPath ∉ cs) : servedAt r' = servedAt r := by
  unfold servedAt Row.live Row.flag
  rw [h _ hd, h _ ha, h _ hs, h _ hp]

theorem servedAt_inactive (h : r.flag .isActive = false) : servedAt r = none := by
  refine if_neg fun hs => ?_
  rw [h] at hs
  exact absurd hs.2.1 (by decide)

theorem servedAt_some (h : servedAt r ≠ none) :
    r.val .isActive = .bool true ∧ r.val .status = .str "PUBLISHED" := by
  unfold servedAt at h
  split at h
  · rename_i hs
    exact ⟨by simpa [Row.flag] using hs.2.1, hs.2.2⟩
  · exact absurd rfl h

/-- Publishing a route that is served changes nothing about it. -/
theorem published_same {now userId : String} (h : WrittenRow now (publishData userId) r r') (hs : servedAt r ≠ none) :
    servedAt r' = servedAt r ∧ AgreeBut UNREAD r r' := by
  have agree : AgreeBut [.status, .isActive, .updatedById, .updatedAt] r r' :=
    h.agree (fun c v hv => by
      have := Patch.mem_of_ofList hv
      simp only [List.mem_cons, Prod.mk.injEq, List.not_mem_nil, or_false] at this ⊢
      rcases this with ⟨rfl, -⟩ | ⟨rfl, -⟩ | ⟨rfl, -⟩ <;> simp) (by decide)
  obtain ⟨ha, hp⟩ := servedAt_some hs
  have active : r'.val .isActive = r.val .isActive := by
    rw [h.plain (c := .isActive) rfl (by decide) rfl, ha]
  have status : r'.val .status = r.val .status := by
    rw [h.plain (c := .status) rfl (by decide) (by decide), hp]
  refine ⟨?_, agree.mono (by decide)⟩
  unfold servedAt Row.live Row.flag
  rw [active, status, agree .deletedAt (by decide), agree .publicPath (by decide)]

/-- A route that was not served, and is not active any more, is treated as before. -/
theorem withdrawn_same {now : String} {data : Patch} (h : WrittenRow now data r r') (hs : servedAt r = none)
    (hd : ∀ c v, data c = some v → c ∈ UNREAD) (ha : data .isActive = some (.bool false)) :
    servedAt r' = servedAt r ∧ AgreeBut UNREAD r r' := by
  have inactive : r'.flag .isActive = false := by
    rw [Row.flag, h.plain ha (by decide) rfl]
    rfl
  rw [servedAt_inactive inactive, hs]
  exact ⟨rfl, h.agree hd (by decide)⟩

theorem deactivated_same {now userId : String} (h : WrittenRow now (deactivateData userId) r r') (hs : servedAt r = none) :
    servedAt r' = servedAt r ∧ AgreeBut UNREAD r r' := by
  refine withdrawn_same h hs (fun c v hv => ?_) rfl
  have := Patch.mem_of_ofList hv
  simp only [List.mem_cons, Prod.mk.injEq, List.not_mem_nil, or_false] at this
  rcases this with ⟨rfl, -⟩ | ⟨rfl, -⟩ <;> decide

/-- A bulk update that names no other group leaves the proxy's columns alone. -/
theorem bulkUpdated_same {now userId : String} {patch : BulkPatch} (h : WrittenRow now (bulkData patch userId r) r r')
    (hg : ∀ v ∈ patch.routeGroupId, v = r.val .routeGroupId) : servedAt r' = servedAt r ∧ AgreeBut UNREAD r r' := by
  have base : ∀ {c v}, bulkBase patch userId c = some v → c ∈ [.updatedById, .environment] ∨ c = .routeGroupId ∧ v = r.val .routeGroupId := by
    intro c v hv
    unfold bulkBase at hv
    split at hv
    · exact Or.inl (by decide)
    · exact Or.inl (by decide)
    · exact Or.inr ⟨rfl, hg v hv⟩
    · cases hv
  have written : ∀ {c v}, bulkData patch userId r c = some v →
      c ∈ [.updatedById, .environment, .tags] ∨ c = .routeGroupId ∧ v = r.val .routeGroupId := by
    intro c v hv
    unfold bulkData at hv
    split at hv
    · exact (base hv).imp_left fun hc => List.mem_append_left [.tags] hc
    · by_cases e : c = .tags
      · subst e
        exact Or.inl (by decide)
      · rw [Patch.set_ne _ _ e] at hv
        exact (base hv).imp_left fun hc => List.mem_append_left [.tags] hc
  have agree : AgreeBut [.updatedById, .environment, .tags, .updatedAt] r r' := by
    intro c hc
    have hu : c ≠ .updatedAt := fun e => hc (by rw [e]; decide)
    cases hv : bulkData patch userId r c with
    | none => exact h.same hv hu
    | some v =>
      rcases written hv with hm | ⟨rfl, rfl⟩
      · exact (hc (List.mem_append_left [Column.updatedAt] hm)).elim
      · exact h.plain hv hu (r.typed _)
  exact ⟨servedAt_congr agree (by decide) (by decide) (by decide) (by decide), agree.mono (by decide)⟩

/-- A call that changes the row of a live route it is guarded on sidesteps the policy,
    approves the change, or changes nothing the proxy reads. -/
theorem changes_guarded (hg : Guarded s q.caller k) (hl : r.live = true) (hr : s.routes.get? k = some r)
    (hn : ¬ q.sidesteps W s k r) (h : q.changes W s k r r') :
    (servedAt r' = servedAt r ∧ AgreeBut UNREAD r r') ∨ q.approves W s k := by
  have freed : ¬ Freed k r r' := by
    intro hf
    have harch := hf.1
    rw [hl] at harch
    cases harch
  have archived : ¬ r.live = false := by
    rw [hl]
    exact nofun
  obtain ⟨u, d, e⟩ := q
  cases e with
  | target op => exact h.elim
  | transform op => exact h.elim
  | member op => exact h.elim
  | folder op =>
    have moved : AgreeBut [.folderId, .updatedAt] r r' := h
    exact Or.inl ⟨servedAt_congr moved (by decide) (by decide) (by decide) (by decide), moved.mono (by decide)⟩
  | change op =>
    obtain ⟨cr, ha, -⟩ := h
    exact Or.inr ⟨op, cr, rfl, ha⟩
  | group op =>
    have regrouped : ∀ v, AgreeBut [.routeGroupId, .updatedAt] r r' → r'.val .routeGroupId = v → r.val .routeGroupId = v →
        servedAt r' = servedAt r ∧ AgreeBut UNREAD r r' := by
      intro v hagree hnew hold
      refine ⟨servedAt_congr hagree (by decide) (by decide) (by decide) (by decide), fun c hc => ?_⟩
      by_cases e : c = .routeGroupId
      · rw [e, hnew, hold]
      · refine hagree c ?_
        simp only [UNREAD, List.mem_cons, List.not_mem_nil, or_false, not_or] at hc ⊢
        exact ⟨e, hc.2.2.2.2.2.2.2.2.2⟩
    cases op with
    | create body => exact h.elim
    | update id body => exact h.elim
    | delete id => exact absurd h.1 hg.role
    | assign id routeId =>
      obtain ⟨rfl, hw, hm, hv, hagree⟩ := h
      by_cases hold : r.val .routeGroupId = .str id
      · exact Or.inl (regrouped _ hagree hv hold)
      · exact absurd ⟨rfl, hw, hm, hold⟩ hn
    | remove id routeId =>
      obtain ⟨rfl, hw, hm, hv, hagree⟩ := h
      by_cases hold : r.val .routeGroupId = .null
      · exact Or.inl (regrouped _ hagree hv hold)
      · exact absurd ⟨rfl, hw, hm, hold⟩ hn
  | route op =>
    cases op with
    | create body => exact absurd h freed
    | «import» draws body => exact absurd h freed
    | update id body =>
      rcases h with h | ⟨rfl, hm, hb, -⟩
      · exact absurd h freed
      · rw [hg.not_bypass hr hm] at hb
        cases hb
    | restoreVersion id versionId =>
      rcases h with h | ⟨-, ha, -⟩
      · exact absurd h freed
      · exact absurd ha hg.role
    | publish id =>
      obtain ⟨rfl, -, hm, hw⟩ := h
      exact Or.inl (published_same hw fun hs => hn ⟨rfl, hm, hs⟩)
    | deactivate id =>
      obtain ⟨rfl, -, hm, hw⟩ := h
      exact Or.inl (deactivated_same hw (by_contra fun hs => hn ⟨rfl, hm, hs⟩))
    | delete id confirmName =>
      obtain ⟨-, -, -, ha, hw⟩ := h
      refine Or.inl (withdrawn_same hw (servedAt_inactive ha) (fun c v hv => ?_) rfl)
      have := Patch.mem_of_ofList hv
      simp only [List.mem_cons, Prod.mk.injEq, List.not_mem_nil, or_false] at this
      rcases this with ⟨rfl, -⟩ | ⟨rfl, -⟩ | ⟨rfl, -⟩ | ⟨rfl, -⟩ <;> decide
    | bulkDelete body =>
      obtain ⟨data, -, -, -, -, ha, hw⟩ := h
      refine Or.inl (withdrawn_same hw (servedAt_inactive ha) (fun c v hv => ?_) rfl)
      have := Patch.mem_of_ofList hv
      simp only [List.mem_cons, Prod.mk.injEq, List.not_mem_nil, or_false] at this
      rcases this with ⟨rfl, -⟩ | ⟨rfl, -⟩ | ⟨rfl, -⟩ <;> decide
    | restore id => exact absurd h.2.1 archived
    | bulkUpdate body =>
      obtain ⟨ha, data, hd, hk, -, hw⟩ := h
      refine Or.inl (bulkUpdated_same hw fun v hv => by_contra fun hne => hn ⟨ha, data, hd, hk, v, hv, hne⟩)
    | bulkPublish body =>
      obtain ⟨ha, data, hd, hk, -, hw⟩ := h
      exact Or.inl (published_same hw fun hs => hn ⟨ha, data, hd, hk, hs⟩)
    | bulkDeactivate body =>
      obtain ⟨ha, data, hd, hk, -, hw⟩ := h
      exact Or.inl (deactivated_same hw (by_contra fun hs => hn ⟨ha, data, hd, hk, hs⟩))
    | deletePermanently id => exact h.elim
    | duplicate id => exact h.elim

/-- The row is still there. -/
theorem live_stays (hl : r.live = true) (hr : s.routes.get? k = some r) : ∃ r', (step W s q).routes.get? k = some r' := by
  cases hr' : (step W s q).routes.get? k with
  | some r' => exact ⟨r', rfl⟩
  | none =>
    have gone := (step_footprint W s q).routes.gone hr hr'
    obtain ⟨u, d, e⟩ := q
    cases e with
    | route op =>
      cases op with
      | deletePermanently id =>
        have harch := gone.2.1
        rw [hl] at harch
        cases harch
      | _ => exact gone.elim
    | _ => exact gone.elim

theorem targets_guarded (hg : Guarded s q.caller k) (hn : ¬ q.sidesteps W s k r) (hr' : (step W s q).routes.get? k = some r')
    (j : String) (t : RouteTarget) (ht : t.routeId = k) :
    (step W s q).routeTargets.get? j = some t ↔ s.routeTargets.get? j = some t := by
  refine (step_footprint W s q).routeTargets.untouched (P := fun t => t.routeId = k) ?_ ?_ ?_ ht
  · intro j b h hb
    obtain ⟨u, d, e⟩ := q
    cases e with
    | target op =>
      cases op with
      | add routeId body =>
        obtain ⟨hw, ⟨hid, -⟩, hd⟩ := h
        obtain rfl : routeId = k := hid.symm.trans hb
        exact hn ⟨rfl, hw, hd⟩
      | _ => exact h.elim
    | _ => exact h.elim
  · intro j a b ha h
    obtain ⟨u, d, e⟩ := q
    cases e with
    | target op =>
      cases op with
      | update routeId targetId body =>
        obtain ⟨hw, rfl, hid, -, data, hd, rfl⟩ := h
        by_cases hk : routeId = k
        · subst hk
          exact Or.inl (by_contra fun hne => hn ⟨rfl, hw, data, a, hd, ha, hid, hne⟩)
        · exact Or.inr ⟨fun he => hk (hid.symm.trans he), fun he => hk (hid.symm.trans he)⟩
      | _ => exact h.elim
    | _ => exact h.elim
  · intro j a h ha
    rcases h with h | h
    · obtain ⟨u, d, e⟩ := q
      cases e with
      | target op =>
        cases op with
        | delete routeId targetId => exact hg.role h.1
        | _ => exact h.elim
      | _ => exact h.elim
    · rw [ha, hr'] at h
      cases h

theorem rules_guarded (hg : Guarded s q.caller k) (hn : ¬ q.sidesteps W s k r) (hr' : (step W s q).routes.get? k = some r')
    (j : String) (t : TransformRule) (ht : t.routeId = k) :
    (step W s q).transformRules.get? j = some t ↔ s.transformRules.get? j = some t := by
  refine (step_footprint W s q).transformRules.untouched (P := fun t => t.routeId = k) ?_ ?_ ?_ ht
  · intro j b h hb
    obtain ⟨u, d, e⟩ := q
    cases e with
    | transform op =>
      cases op with
      | create routeId body =>
        obtain ⟨hw, hid, hd⟩ := h
        obtain rfl : routeId = k := hid.symm.trans hb
        exact hn ⟨rfl, hw, hd⟩
      | _ => exact h.elim
    | _ => exact h.elim
  · intro j a b ha h
    obtain ⟨u, d, e⟩ := q
    cases e with
    | transform op =>
      cases op with
      | update routeId ruleId body =>
        obtain ⟨hw, rfl, hid, data, hd, rfl⟩ := h
        by_cases hk : routeId = k
        · subst hk
          exact Or.inl (by_contra fun hne => hn ⟨rfl, hw, data, a, hd, ha, hid, hne⟩)
        · exact Or.inr ⟨fun he => hk (hid.symm.trans he), fun he => hk (hid.symm.trans he)⟩
      | _ => exact h.elim
    | _ => exact h.elim
  · intro j a h ha
    rcases h with h | h
    · obtain ⟨u, d, e⟩ := q
      cases e with
      | transform op =>
        cases op with
        | delete routeId ruleId => exact hg.role h.1
        | _ => exact h.elim
      | _ => exact h.elim
    · rw [ha, hr'] at h
      cases h

theorem getPolicy_eq (s : Store) (k : String) :
    getPolicy s k = match (routeOrg? s k).bind s.organizations.get? with
      | none => noPolicy
      | some org => policyIn org (routeGroup? s k) := by
  unfold getPolicy policyIn
  cases (routeOrg? s k).bind s.organizations.get? <;> rfl

/-- The policy of a route that stays in its organization and group. -/
theorem policy_guarded (hg : Guarded s q.caller k) (hr : s.routes.get? k = some r) (hn : ¬ q.sidesteps W s k r)
    (hr' : (step W s q).routes.get? k = some r') (hagree : AgreeBut UNREAD r r') :
    getPolicy (step W s q) k = getPolicy s k := by
  have f := step_footprint W s q
  have horg : routeOrg? (step W s q) k = routeOrg? s k := by
    rw [routeOrg?, routeOrg?, hr, hr', Option.bind_some, Option.bind_some, Row.orgId, Row.orgId, Row.text, Row.text,
      hagree .organizationId (by decide)]
  rw [getPolicy_eq, getPolicy_eq, horg, f.organizations]
  cases ho : (routeOrg? s k).bind s.organizations.get? with
  | none => rfl
  | some org =>
    have hgroup : routeGroup? (step W s q) k = ((r.text .routeGroupId).filter (· ≠ "")).bind (step W s q).routeGroups.get? := by
      rw [routeGroup?, hr', Option.bind_some, Row.text, Row.text, hagree .routeGroupId (by decide)]
    have hgroup₀ : routeGroup? s k = ((r.text .routeGroupId).filter (· ≠ "")).bind s.routeGroups.get? := by
      rw [routeGroup?, hr, Option.bind_some]
    show policyIn org (routeGroup? (step W s q) k) = policyIn org (routeGroup? s k)
    rw [hgroup, hgroup₀]
    cases hid : (r.text .routeGroupId).filter (· ≠ "") with
    | none => rfl
    | some id =>
      have hval : r.val .routeGroupId = .str id := by
        obtain ⟨ht, -⟩ := Option.filter_eq_some_iff.1 hid
        exact Json.str?_some ht
      rw [Option.bind_some, Option.bind_some]
      cases hb : s.routeGroups.get? id with
      | none =>
        cases ha : (step W s q).routeGroups.get? id with
        | none => rfl
        | some g' =>
          have unset := f.routeGroups.new hb ha
          simp only [policyIn, unset]
      | some g =>
        cases ha : (step W s q).routeGroups.get? id with
        | none =>
          have gone := f.routeGroups.gone hb ha
          obtain ⟨u, d, e⟩ := q
          cases e with
          | group op =>
            cases op with
            | delete _ => exact absurd gone.2 hg.role
            | _ => exact gone.elim
          | _ => exact gone.elim
        | some g' =>
          rcases f.routeGroups.some hb ha with rfl | h
          · rfl
          · obtain ⟨u, d, e⟩ := q
            cases e with
            | group op =>
              cases op with
              | update _ body =>
                obtain ⟨rfl, hrole, hm, data, hd, rfl⟩ := h
                exact by_contra fun hne => hn ⟨hval, hrole, hm, data, g, hd, hb, org, ho, hne⟩
              | _ => exact h.elim
            | _ => exact h.elim

end Calls

/-! ## Runs -/

/-- What happens to the store: a call of a modelled endpoint, or a write from elsewhere
    (the system admins' other endpoints, the proxy's own bookkeeping, the jobs). -/
inductive Event
  | call (q : Request)
  | elsewhere (s' : Store)

def Event.step (W : World) (s : Store) : Event → Store
  | .call q => ClusterGate.step W s q
  | .elsewhere s' => s'

/-- The call, if its caller is guarded on a live route, leaves the proxy's treatment of it
    as it was, or approves the change. -/
def KeepsGuarded (W : World) (s : Store) : Event → Prop
  | .call q => ∀ k r, liveRoute? s k = some r → Guarded s q.caller k → SameTreatment s (step W s q) k r ∨ q.approves W s k
  | .elsewhere _ => True

/-- The call sidesteps no policy that guards its caller. -/
def HeedsPolicies (W : World) (s : Store) : Event → Prop
  | .call q => ∀ k r, liveRoute? s k = some r → Guarded s q.caller k → ¬ q.sidesteps W s k r
  | .elsewhere _ => True

theorem step_keepsGuarded {W : World} {s : Store} {e : Event} (h : HeedsPolicies W s e) : KeepsGuarded W s e := by
  cases e with
  | elsewhere s' => trivial
  | call q =>
    intro k r hr hg
    obtain ⟨hget, hl⟩ := liveRoute?_iff.1 hr
    have hn := h k r hr hg
    obtain ⟨r', hr'⟩ := live_stays (W := W) (q := q) hl hget
    have row : (servedAt r' = servedAt r ∧ AgreeBut UNREAD r r') ∨ q.approves W s k := by
      rcases (step_footprint W s q).routes.some hget hr' with rfl | hc
      · exact Or.inl ⟨rfl, fun _ _ => rfl⟩
      · exact changes_guarded hg hl hget hn hc
    rcases row with ⟨hserved, hagree⟩ | happroves
    · exact Or.inl ⟨⟨r', hr', hserved, hagree⟩, targets_guarded hg hn hr', rules_guarded hg hn hr',
        policy_guarded hg hget hn hr' hagree⟩
    · exact Or.inr happroves

/-- On every run without a call that sidesteps a policy, no call of a caller whom a live
    route's policy guards changes what the proxy does with the route, but an approval by
    one who may approve. -/
theorem guarded_routes_change_by_approval {W : World} {s : Store} {es : List Event}
    (h : Along (Event.step W) (HeedsPolicies W) s es) : Along (Event.step W) (KeepsGuarded W) s es :=
  along_of (I := fun _ => True) (fun _ _ _ hc => ⟨step_keepsGuarded hc, trivial⟩) trivial h

/-! ## Two members of an organization -/

/-- An organization that asks for approval, with a served route, its owner and an editor. -/
def reviewedOrganization : Store := { Store.empty with
  organizations := Table.empty.insert "org" { name := "Org", changeRequestsEnabled := true }
  orgMemberships := (Table.empty.insert ("owner", "org") .OWNER).insert ("editor", "org") .ADMIN
  routes := Table.empty.insert "route" (Row.ofFields
    [(.name, .str "route"), (.publicPath, .str "/r/route"), (.targetUrl, .str "http://upstream"),
     (.isActive, .bool true), (.status, .str "PUBLISHED"), (.organizationId, .str "org")]
    (by intro c; cases c <;> rfl)) }

def editor : Caller := ⟨"editor", .OPERATOR⟩

/-- The editor's update waits for approval. -/
def editorsUpdate : Request := ⟨editor, Draw.plain, .route (.update "route" (.obj [("timeout", .num 5000)]))⟩

/-- The owner approves it. -/
def ownersApproval : Request := ⟨⟨"owner", .OPERATOR⟩, Draw.plain, .change (.approve "row" (.obj []))⟩

theorem guarded_routes_change_by_approval_reviewed :
    Along (Event.step World.plain) (KeepsGuarded World.plain) reviewedOrganization [.call editorsUpdate, .call ownersApproval] :=
  guarded_routes_change_by_approval ⟨fun _ _ _ _ h => h, fun _ _ _ _ h => h, trivial⟩

/-- The editor adds a load-balancing target. -/
def editorsTarget : Request :=
  ⟨editor, Draw.plain, .target (.add "route" (.obj [("url", .str "http://elsewhere")]))⟩

/-- A load-balancing target is added past the policy. -/
theorem a_target_sidesteps_approval :
    ¬ ∀ (W : World) (s : Store) (es : List Event), Along (Event.step W) (KeepsGuarded W) s es := by
  intro h
  have hlive : (liveRoute? reviewedOrganization "route").isSome = true := by decide +kernel
  obtain ⟨r, hr⟩ := Option.isSome_iff_exists.1 hlive
  have horg : routeOrg? reviewedOrganization "route" = some "org" := by decide +kernel
  have hrole : getUserOrgRole reviewedOrganization "editor" "org" = some .ADMIN := by decide +kernel
  have guarded : Guarded reviewedOrganization editor "route" := by
    refine ⟨by decide, by decide +kernel, fun org ho role hm => ?_⟩
    obtain rfl : "org" = org := Option.some.inj (horg.symm.trans ho)
    obtain rfl : .ADMIN = role := Option.some.inj (hrole.symm.trans hm)
    decide +kernel
  rcases (h World.plain reviewedOrganization [.call editorsTarget]).1 "route" r hr guarded with same | ⟨op, cr, he, -⟩
  · have added : (step World.plain reviewedOrganization editorsTarget).routeTargets.get? "row" =
        some ⟨"route", "http://elsewhere", 100, 0, true⟩ := by decide +kernel
    have absent : reviewedOrganization.routeTargets.get? "row" = none := rfl
    rw [same.targets "row" ⟨"route", "http://elsewhere", 100, 0, true⟩ rfl, absent] at added
    cases added
  · cases he

end ClusterGate
