/-
  ClusterGate.TargetInvariant — every target in the store is one its route's organization
  allows.

  The policies of the organizations, the deny list and the DNS answers are fixed. Each
  writer repeats the check under a guard of its own; an approval judges a target only if
  the payload has it as a text, and the database client also takes `{ set: text }`.
  - `approval_sets_a_refused_target`: what that lets in.
  - `targets_in_policy`: on every run from a store without routes in which no approval
    sets a refused target that way, every target is allowed.
-/

import ClusterGate.Route.Written

namespace ClusterGate

open Lib Lib.Act Lib.Table Lib.Zod

/-! ## The invariant -/

/-- The row's target is allowed in the row's organization. -/
def AllowedRow (W : World) (s : Store) (r : Row) : Prop :=
  targetRefused W s (textOf (some (r.val .targetUrl))) (r.val .organizationId) = none

/-- Every live route's target, and every one of its load-balancing targets, is allowed in
    the organization the route is in. -/
def LiveTargetsAllowed (W : World) (s : Store) : Prop :=
  ∀ k r, liveRoute? s k = some r → AllowedRow W s r ∧
    ∀ j t, s.routeTargets.get? j = some t → t.routeId = k → targetRefused W s t.url (r.val .organizationId) = none

/-- The targets of routes, live and archived, and of their load balancing are allowed, and
    versions are of rows that have a target. -/
structure TargetsInPolicy (W : World) (s : Store) : Prop where
  route : ∀ k r, s.routes.get? k = some r → AllowedRow W s r
  balanced : ∀ k t, s.routeTargets.get? k = some t →
    ∃ r, s.routes.get? t.routeId = some r ∧ targetRefused W s t.url (r.val .organizationId) = none
  version : ∀ k v, s.routeVersions.get? k = some v → ∃ r : Row, v.snapshot = r.val ∧ r.val .targetUrl ≠ .str ""

theorem TargetsInPolicy.live {W : World} {s : Store} (h : TargetsInPolicy W s) : LiveTargetsAllowed W s := by
  intro k r hr
  obtain ⟨hg, -⟩ := liveRoute?_iff.1 hr
  refine ⟨h.route k r hg, fun j t ht hk => ?_⟩
  obtain ⟨r', hr', hallowed⟩ := h.balanced j t ht
  obtain rfl : r = r' := by simpa [hk, hg] using hr'
  exact hallowed

theorem targetRefused_congr {W : World} {s s' : Store} (h : s'.organizations = s.organizations) (url : String) (org : Json) :
    targetRefused W s' url org = targetRefused W s url org := by
  simp only [targetRefused, getOrgTargetPolicy, h]

theorem AllowedRow.target_ne {W : World} {s : Store} {r : Row} (h : AllowedRow W s r) : r.val .targetUrl ≠ .str "" := by
  intro e
  rw [AllowedRow, e] at h
  obtain ⟨u, hu, -⟩ := assertTargetAllowed_http h
  cases hu

/-! ## The rows a request writes -/

section Rows

variable {W : World} {s : Store} {q : Request} {k : String} {r r' : Row}

/-- An approval sets no target by the operation that its route's organization refuses. -/
def SetsAllowedTarget (W : World) (s : Store) (q : Request) : Prop :=
  ∀ op cr k r url, q.endpoint = .change op → op.applies W s q.caller q.draw cr k → s.routes.get? k = some r →
    cr.payload .targetUrl = some (.obj [("set", .str url)]) → targetRefused W s url (r.val .organizationId) = none

/-- A target in the data is a text that is not empty. -/
def PlainTarget (data : Patch) : Prop := ∀ v, data .targetUrl = some v → ∃ url, v = .str url ∧ url ≠ ""

theorem updateBody_target {body : Json} {data : Patch}
    (h : routeData W (partialUpdate (routeBodySchema W)) body = .ok data) : PlainTarget data := by
  intro v hv
  obtain ⟨o, hp⟩ := routeData_field h (c := .targetUrl) (by decide) rfl (by decide) (by decide)
  rcases ZodType.parse_optional_leaf hp with hn | ⟨_, w, -, hw, hleaf⟩
  · rw [hn] at hv
    cases hv
  · obtain ⟨url, rfl, hne⟩ := urlLeaf_ne hleaf
    exact ⟨url, Option.some.inj (hv.symm.trans hw), hne⟩

theorem createBody_target {body : Json} {data : Patch} (h : routeData W (routeBodySchema W) body = .ok data) :
    ∃ url, data .targetUrl = some (.str url) := by
  obtain ⟨o, hp⟩ := routeData_field h (c := .targetUrl) (by decide) rfl (by decide) (by decide)
  obtain ⟨_, w, -, hw, hleaf⟩ := ZodType.parse_leaf hp
  obtain ⟨url, rfl, -⟩ := urlLeaf_ne hleaf
  exact ⟨url, hw⟩

theorem snapshot_data {v : RouteVersion} {r : Row} (hs : v.snapshot = r.val) {c : Column}
    (hc : c ∉ [Column.version, .createdAt, .updatedAt, .createdById, .updatedById]) :
    snapshotData v c = some (r.val c) := by
  rw [snapshotData, Patch.remove, if_neg hc, hs]

/-- A route's organization is a text or null. -/
theorem Row.organization_fixed (r : Row) : isFixed (r.val .organizationId) = true := by
  have ht := r.typed .organizationId
  cases hv : r.val .organizationId with
  | num q =>
    rw [hv] at ht
    cases ht
  | obj kvs =>
    rw [hv] at ht
    cases ht
  | _ => rfl

/-- A created row is allowed in the organization it was judged for. -/
theorem CreatedRow.allowed {d : Draw} {userId : String} {data : Patch} (h : CreatedRow W s d data userId r')
    {url : String} (ht : data .targetUrl = some (.str url)) : AllowedRow W s r' := by
  have judged := h.1
  rw [AllowedRow, h.target ht]
  rw [withTarget, if_pos rfl, ht] at judged
  rcases h.value (c := .organizationId) (by decide) (by decide) with hv | ⟨hv, hn⟩
  · rw [hv] at judged
    exact judged
  · rw [hv] at judged
    rw [← Option.some.inj hn]
    exact judged

/-- An update leaves an allowed row allowed, also in another organization. -/
theorem UpdatedRow.allowed {d : Draw} {id userId : String} {data : Patch} (h : UpdatedRow W s d id data userId r r')
    (hr : AllowedRow W s r) (ht : PlainTarget data) (ho : ∀ v, data .organizationId = some v → isFixed v = true) :
    AllowedRow W s r' := by
  rw [AllowedRow, h.organization ho]
  cases hv : data .targetUrl with
  | some v =>
    obtain ⟨url, rfl, hn⟩ := ht v hv
    have judged := h.2.1.new (by simp [hv, hn])
    rw [withTarget, if_pos rfl, hv] at judged
    rw [h.target hv hn]
    exact judged
  | none =>
    rw [h.target_same hv]
    by_cases hm : (movesTo r data).isSome = true
    · exact h.2.1.old (by rw [hv]; rfl) hm
    · have stays : effectiveOrg r data = r.val .organizationId := by
        rw [effectiveOrg, Option.not_isSome_iff_eq_none.1 hm]
        rfl
      rw [stays]
      exact hr

/-- A row an approval writes is allowed: a text was judged before, and an operation by
    hypothesis. -/
theorem approved_allowed {now : String} {cr : ChangeRequest} (h : WrittenRow now (appliedData cr.payload) r r')
    (hr : s.routes.get? k = some r) (hallowed : AllowedRow W s r) (hw : cr.writes? = some k)
    (ht : payloadTargetRefused W s cr = none)
    (hset : ∀ url, cr.payload .targetUrl = some (.obj [("set", .str url)]) →
      targetRefused W s url (r.val .organizationId) = none) : AllowedRow W s r' := by
  have listed : Column.targetUrl ∈ APPLIED_FIELDS := by decide
  have unlisted : Column.organizationId ∉ APPLIED_FIELDS := by decide
  have hroute : cr.route? = some k := by
    unfold ChangeRequest.writes? at hw
    split at hw
    · exact hw
    · cases hw
  rw [AllowedRow, h.same (c := .organizationId) (if_neg unlisted) (by decide)]
  have applied : appliedData cr.payload .targetUrl = cr.payload .targetUrl := if_pos listed
  cases hv : cr.payload .targetUrl with
  | none =>
    rw [h.same (applied.trans hv) (by decide)]
    exact hallowed
  | some v =>
    obtain ⟨url, hurl, rfl | rfl⟩ := writeField_text rfl rfl (h.field (applied.trans hv) (by decide))
    · have judged : targetRefused W s url (r.val .organizationId) = none := by
        simpa only [payloadTargetRefused, hroute, hv, hr, Option.map_some, Option.getD_some] using ht
      rw [hurl]
      exact judged
    · rw [hurl]
      exact hset url hv

/-- Every row a request writes is allowed. -/
theorem adds_allowed (hi : TargetsInPolicy W s) (h : q.adds W s k r') : AllowedRow W s r' := by
  obtain ⟨u, d, e⟩ := q
  cases e with
  | route op =>
    cases op with
    | create body =>
      obtain ⟨data, hd, -, -, hr⟩ := h
      obtain ⟨url, ht⟩ := createBody_target hd
      exact hr.allowed ht
    | duplicate id =>
      obtain ⟨-, r, hr, -, hd⟩ := h
      rw [AllowedRow, hd.copied (by decide), hd.copied (by decide)]
      exact hi.route id r (liveRoute?_iff.1 hr).1
    | «import» draws body =>
      obtain ⟨-, xs, hx, x, hm, -, hr⟩ := h
      obtain ⟨b, hb⟩ := parseImport_mem hx (mem_withDraws hm)
      obtain ⟨url, ht⟩ := createBody_target hb
      exact hr.allowed ht
    | _ => exact h.elim
  | _ => exact h.elim

theorem changes_allowed (hi : TargetsInPolicy W s) (hq : SetsAllowedTarget W s q) (hr : s.routes.get? k = some r)
    (h : q.changes W s k r r') : AllowedRow W s r' := by
  have hallowed := hi.route k r hr
  rcases changes_cases h with h | h
  · rw [AllowedRow, h.agree .targetUrl (by decide), h.agree .organizationId (by decide)]
    exact hallowed
  · cases h with
    | updated he hm hb hd h => exact h.allowed hallowed (updateBody_target hd) (updateBody_organization hd)
    | restored he ha hv h =>
      obtain ⟨row, hs, hne⟩ := hi.version _ _ hv
      refine h.allowed hallowed ?_ ?_
      · intro v ht
        rw [snapshot_data hs (by decide), Option.some.injEq] at ht
        obtain ⟨url, hurl⟩ := row.string_val (c := .targetUrl) rfl rfl
        exact ⟨url, ht ▸ hurl, fun e => hne (e ▸ hurl)⟩
      · intro v ho
        rw [snapshot_data hs (by decide), Option.some.injEq] at ho
        exact ho ▸ row.organization_fixed
    | approved he ha h =>
      obtain ⟨id, body, -, -, -, hw, ht, -⟩ := id ha
      exact approved_allowed h hr hallowed hw ht fun url hset => hq _ _ k r url he ha hr hset

theorem writes_allowed (hi : TargetsInPolicy W s) (hq : SetsAllowedTarget W s q) (h : q.writes W s k r') :
    AllowedRow W s r' := by
  rcases h with h | ⟨r, hr, h⟩
  · exact adds_allowed hi h
  · exact changes_allowed hi hq hr h

/-- Where a request moves a route, its load-balancing targets are allowed too. -/
theorem changes_balanced (hi : TargetsInPolicy W s) (hr : s.routes.get? k = some r) (h : q.changes W s k r r') {j : String}
    {t : RouteTarget} (ht : s.routeTargets.get? j = some t) (hk : t.routeId = k) :
    targetRefused W s t.url (r'.val .organizationId) = none := by
  obtain ⟨r₀, hr₀, hallowed⟩ := hi.balanced j t ht
  obtain rfl : r = r₀ := by simpa [hk, hr] using hr₀
  have updated : ∀ {data : Patch}, UpdatedRow W s q.draw k data q.caller.userId r r' →
      (∀ v, data .organizationId = some v → isFixed v = true) → targetRefused W s t.url (r'.val .organizationId) = none := by
    intro data h ho
    rw [h.organization ho]
    by_cases hm : (movesTo r data).isSome = true
    · exact h.2.1.others hm j t ht hk
    · rw [effectiveOrg, Option.not_isSome_iff_eq_none.1 hm]
      exact hallowed
  rcases changes_cases h with h | h
  · rw [h.agree .organizationId (by decide)]
    exact hallowed
  · cases h with
    | updated he hm hb hd h => exact updated h (updateBody_organization hd)
    | restored he ha hv h =>
      obtain ⟨row, hs, -⟩ := hi.version _ _ hv
      refine updated h fun v ho => ?_
      rw [snapshot_data hs (by decide), Option.some.injEq] at ho
      exact ho ▸ row.organization_fixed
    | approved he ha h =>
      have unlisted : Column.organizationId ∉ APPLIED_FIELDS := by decide
      rw [h.same (c := .organizationId) (if_neg unlisted) (by decide)]
      exact hallowed

end Rows

/-! ## A step keeps it -/

/-- A load-balancing target after a step hangs on a route that was there, and is allowed
    there and wherever the step moves the route. -/
theorem step_target {W : World} {s : Store} {q : Request} (hi : TargetsInPolicy W s) {j : String} {t : RouteTarget}
    (ht : (step W s q).routeTargets.get? j = some t) :
    ∃ r, s.routes.get? t.routeId = some r ∧ targetRefused W s t.url (r.val .organizationId) = none ∧
      ∀ r', q.changes W s t.routeId r r' → targetRefused W s t.url (r'.val .organizationId) = none := by
  have f := step_footprint W s q
  cases ht₀ : s.routeTargets.get? j with
  | none =>
    have h := f.routeTargets.new ht₀ ht
    obtain ⟨u, d, e⟩ := q
    cases e with
    | target op =>
      cases op with
      | add routeId body =>
        obtain ⟨-, ⟨rfl, r, hr, hallowed⟩, -⟩ := h
        exact ⟨r, hr, hallowed, fun _ hc => hc.elim⟩
      | _ => exact h.elim
    | _ => exact h.elim
  | some t₀ =>
    rcases f.routeTargets.some ht₀ ht with rfl | h
    · obtain ⟨r, hr, hallowed⟩ := hi.balanced j t ht₀
      exact ⟨r, hr, hallowed, fun r' hc => changes_balanced hi hr hc ht₀ rfl⟩
    · obtain ⟨u, d, e⟩ := q
      cases e with
      | target op =>
        cases op with
        | update routeId targetId body =>
          obtain ⟨-, -, hold, hurl, data, -, rfl⟩ := h
          have hnew : (t₀.withFields data).routeId = t₀.routeId := rfl
          rcases hurl with hurl | ⟨-, r, hr, hallowed⟩
          · obtain ⟨r, hr, hallowed⟩ := hi.balanced j t₀ ht₀
            rw [hurl, hnew]
            exact ⟨r, hr, hallowed, fun _ hc => hc.elim⟩
          · rw [← hold] at hr
            exact ⟨r, hr, hallowed, fun _ hc => hc.elim⟩
        | _ => exact h.elim
      | _ => exact h.elim

theorem step_in_policy {W : World} {s : Store} {q : Request} (hi : TargetsInPolicy W s) (hq : SetsAllowedTarget W s q) :
    TargetsInPolicy W (step W s q) := by
  have f := step_footprint W s q
  have congr := targetRefused_congr (W := W) f.organizations
  refine ⟨fun k r' hr' => ?_, fun j t ht => ?_, fun k v hv => ?_⟩
  · rw [AllowedRow, congr]
    cases hr : s.routes.get? k with
    | none => exact adds_allowed hi (f.routes.new hr hr')
    | some r =>
      rcases f.routes.some hr hr' with rfl | h
      · exact hi.route k r' hr
      · exact changes_allowed hi hq hr h
  · obtain ⟨r, hr, hallowed, hmoved⟩ := step_target hi ht
    cases hr' : (step W s q).routes.get? t.routeId with
    | none =>
      have gone := f.targetsHang j t ht hr'
      rw [hr] at gone
      cases gone
    | some r' =>
      refine ⟨r', rfl, ?_⟩
      rw [congr]
      rcases f.routes.some hr hr' with rfl | h
      · exact hallowed
      · exact hmoved r' h
  · rcases f.versions k v hv with h | ⟨r, hr, h⟩
    · exact hi.version k v h
    · exact ⟨r, h, (writes_allowed hi hq hr).target_ne⟩

theorem Store.NoRoutes.in_policy {W : World} {s : Store} (h : s.NoRoutes) : TargetsInPolicy W s where
  route k r hr := by rw [h.routes] at hr; cases hr
  balanced k t ht := by rw [h.routeTargets] at ht; cases ht
  version k v hv := by rw [h.routeVersions] at hv; cases hv

/-- On every run from a store without routes in which no approval sets a target that the
    route's organization refuses, every live route's target and every one of its
    load-balancing targets is allowed in the organization the route is in. -/
theorem targets_in_policy {W : World} {s : Store} {qs : List Request} (hs : s.NoRoutes)
    (hq : Along (step W) (SetsAllowedTarget W) s qs) : LiveTargetsAllowed W (run (step W) s qs) :=
  (run_keeps (fun _ _ hi hq => step_in_policy hi hq) hs.in_policy hq).live

/-! ## A target set past the check -/

def owner : Caller := ⟨"owner", .OPERATOR⟩

/-- An organization with an owner, and no routes. -/
def oneOrganization : Store := { Store.empty with
  organizations := Table.empty.insert "org" { name := "Org" }
  orgMemberships := Table.empty.insert ("owner", "org") .OWNER }

theorem oneOrganization_noRoutes : oneOrganization.NoRoutes :=
  ⟨fun _ => rfl, fun _ => rfl, fun _ => rfl, fun _ => rfl, fun _ => rfl⟩

def createBody : Json := .obj
  [("name", .str "route"), ("publicPath", .str "/r/route"), ("targetUrl", .str "http://upstream"),
   ("methods", .arr [.str "GET"]), ("organizationId", .str "org")]

def createRequest : Request := ⟨owner, Draw.plain, .route (.create createBody)⟩

/-- A route is created, an update of it proposed, and the proposal approved. -/
def proposal (payload : Json) : List Request :=
  [createRequest,
   ⟨owner, Draw.plain, .change (.create (.obj
      [("routeId", .str "route"), ("type", .str "update"), ("title", .str "Update"), ("payload", payload)]))⟩,
   ⟨owner, Draw.plain, .change (.approve "row" (.obj []))⟩]

def proposedTarget (url : String) : List Request := proposal (.obj [("targetUrl", .obj [("set", .str url)])])

/-- Another upstream, set the same way. -/
theorem targets_in_policy_proposed :
    LiveTargetsAllowed World.plain (run (step World.plain) oneOrganization (proposedTarget "http://other")) := by
  refine targets_in_policy oneOrganization_noRoutes ⟨?_, ?_, ?_, trivial⟩
  · intro op cr k r url he
    cases he
  · intro op cr k r url he ha
    cases he
    obtain ⟨id, body, hop, -⟩ := ha
    cases hop
  · intro op cr k r url he ha hr hset
    cases he
    obtain ⟨id, body, hop, -, hcr, hw, -⟩ := ha
    cases hop
    have request : ((run (step World.plain) oneOrganization ((proposedTarget "http://other").take 2)).changeRequests.get?
        "row").map (fun cr => (cr.payload .targetUrl, cr.writes?)) =
          some (some (.obj [("set", .str "http://other")]), some "route") := by
      decide +kernel
    have route : ((run (step World.plain) oneOrganization ((proposedTarget "http://other").take 2)).routes.get? "route").map
        (fun r => r.val .organizationId) = some (.str "org") := by
      decide +kernel
    obtain ⟨cr', hcr', h⟩ := Option.map_eq_some_iff.1 request
    obtain rfl : cr' = cr := Option.some.inj (hcr'.symm.trans hcr)
    obtain ⟨hpayload, hwrites⟩ := Prod.mk.inj h
    obtain rfl : "route" = k := Option.some.inj (hwrites.symm.trans hw)
    obtain ⟨r', hr', horg⟩ := Option.map_eq_some_iff.1 route
    obtain rfl : r' = r := Option.some.inj (hr'.symm.trans hr)
    have hurl := hpayload.symm.trans hset
    simp only [Option.some.injEq, Json.obj.injEq, List.cons.injEq, Prod.mk.injEq, Json.str.injEq, true_and, and_true] at hurl
    rw [← hurl, horg]
    decide +kernel

/-- The metadata endpoint, set as a target through a proposal. -/
theorem approval_sets_a_refused_target :
    ¬ ∀ (W : World) (s : Store) (qs : List Request), s.NoRoutes → LiveTargetsAllowed W (run (step W) s qs) := by
  intro h
  have target : (liveRoute? (run (step World.plain) oneOrganization (proposedTarget "http://169.254.169.254")) "route").map
        (fun r => (r.val .targetUrl, r.val .organizationId)) = some (.str "http://169.254.169.254", .str "org") := by
    decide +kernel
  obtain ⟨r, hr, ht⟩ := Option.map_eq_some_iff.1 target
  have allowed := (h _ _ _ oneOrganization_noRoutes _ r hr).1
  obtain ⟨hurl, horg⟩ := Prod.mk.inj ht
  rw [AllowedRow, hurl, horg] at allowed
  exact absurd allowed (by decide +kernel)

end ClusterGate
