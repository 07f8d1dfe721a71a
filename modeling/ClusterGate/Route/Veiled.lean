/-
  ClusterGate.Route.Veiled — two stores that differ only in the secrets of routes, and the
  same call in both.

  Outside three columns the rows and snapshots of the two stores are the same, and so is
  everything that decides what a handler does: who may call it, what the target policy
  says, whether the database takes a write. A call of a service in one store therefore
  ends like the same call in the other (`Act.Alike`), up to the secrets of the rows it
  returns.
  - `routeUpdate_alike`, `routeCreate_alike`, `routeUpdateMany_alike`: the database.
  - `createRoute_same`, `importRoutes_same`, `bulkUpdate_same`, …: what returns no stored
    secret returns the same.
-/

import ClusterGate.Route.Answers
import ClusterGate.Route.Effects
import ClusterGate.Lib.TwoRuns

namespace ClusterGate

open Lib Lib.Act Lib.Table

/-! ## Rows and stores -/

/-- The same outside the secrets. -/
def PublicAlike (f f' : Column → Json) : Prop := ∀ c, c ∉ secretColumns → f c = f' c

abbrev RowAlike (r r' : Row) : Prop := PublicAlike r.val r'.val

structure VersionAlike (v v' : RouteVersion) : Prop where
  routeId : v.routeId = v'.routeId
  version : v.version = v'.version
  createdById : v.createdById = v'.createdById
  snapshot : PublicAlike v.snapshot v'.snapshot

/-- Two stores whose routes and snapshots may differ in the secrets. What change requests
    say is left open: a handler that files one tells in it how many fields it changes. -/
structure Veiled (s t : Store) : Prop where
  organizations : s.organizations = t.organizations
  orgMemberships : s.orgMemberships = t.orgMemberships
  teams : s.teams = t.teams
  routeGroups : s.routeGroups = t.routeGroups
  routeFolders : s.routeFolders = t.routeFolders
  routeTargets : s.routeTargets = t.routeTargets
  transformRules : s.transformRules = t.transformRules
  changeRequests : Table.Alike (fun _ _ => True) s.changeRequests t.changeRequests
  routes : Table.Alike RowAlike s.routes t.routes
  routeVersions : Table.Alike VersionAlike s.routeVersions t.routeVersions

theorem publicAlike_refl (f : Column → Json) : PublicAlike f f := fun _ _ => rfl

/-- The secrets are the same. -/
def SecretsSame (f f' : Column → Json) : Prop := ∀ c ∈ secretColumns, f c = f' c

theorem PublicAlike.eq_iff {f f' : Column → Json} (h : PublicAlike f f') : f = f' ↔ SecretsSame f f' := by
  constructor
  · intro he c _
    rw [he]
  · intro hs
    refine funext fun c => ?_
    by_cases hc : c ∈ secretColumns
    · exact hs c hc
    · exact h c hc

theorem PublicAlike.symm {f f' : Column → Json} (h : PublicAlike f f') : PublicAlike f' f := fun c hc => (h c hc).symm

theorem Veiled.symm {s t : Store} (h : Veiled s t) : Veiled t s where
  organizations := h.organizations.symm
  orgMemberships := h.orgMemberships.symm
  teams := h.teams.symm
  routeGroups := h.routeGroups.symm
  routeFolders := h.routeFolders.symm
  routeTargets := h.routeTargets.symm
  transformRules := h.transformRules.symm
  changeRequests := h.changeRequests.symm fun _ _ _ => trivial
  routes := h.routes.symm fun _ _ hr => hr.symm
  routeVersions := h.routeVersions.symm fun _ _ hv =>
    ⟨hv.routeId.symm, hv.version.symm, hv.createdById.symm, hv.snapshot.symm⟩

section Rows

variable {r r' : Row} {c : Column}

theorem RowAlike.text (h : RowAlike r r') (hc : c ∉ secretColumns) : r.text c = r'.text c := by
  rw [Row.text, Row.text, h c hc]

theorem RowAlike.live (h : RowAlike r r') : r.live = r'.live := by rw [Row.live, Row.live, h .deletedAt (by decide)]

theorem RowAlike.flag (h : RowAlike r r') (hc : c ∉ secretColumns) : r.flag c = r'.flag c := by
  rw [Row.flag, Row.flag, h c hc]

theorem RowAlike.orgId (h : RowAlike r r') : r.orgId = r'.orgId := by
  rw [Row.orgId, Row.orgId, h.text (by decide)]

/-- Rows alike are the same when their secrets are. -/
theorem RowAlike.eq_iff (h : RowAlike r r') : r = r' ↔ SecretsSame r.val r'.val := by
  rw [← PublicAlike.eq_iff h]
  exact ⟨fun he => congrArg Row.val he, fun he => Row.ext fun c => congrFun he c⟩

end Rows

/-! ## Who may do what -/

section Access

variable {s t : Store} {u : Caller} {id : String}

/-- Rows that look alike pass a filter alike. -/
theorem filter_alike {o o' : Option Row} {p : Row → Bool} (h : Option.Rel RowAlike o o')
    (hp : ∀ r r', RowAlike r r' → p r = p r') : Option.Rel RowAlike (o.filter p) (o'.filter p) := by
  cases h with
  | none => exact .none
  | @some r r' hr =>
    rw [Option.filter_some, Option.filter_some, hp r r' hr]
    cases p r' with
    | true => exact .some hr
    | false => exact .none

theorem liveRoute?_alike (h : Veiled s t) (id : String) : Option.Rel RowAlike (liveRoute? s id) (liveRoute? t id) :=
  filter_alike (h.routes.get? id) fun _ _ hr => hr.live

theorem archivedRoute?_alike (h : Veiled s t) (id : String) :
    Option.Rel RowAlike (archivedRoute? s id) (archivedRoute? t id) := by
  refine filter_alike (h.routes.get? id) fun r r' hr => ?_
  rw [hr.live]

theorem getUserOrgRole_same (h : Veiled s t) : getUserOrgRole s = getUserOrgRole t := by
  unfold getUserOrgRole
  rw [h.orgMemberships]

theorem onLiveRoute_same (h : Veiled s t) {allowed allowed' : String → Bool} (ha : allowed = allowed') :
    onLiveRoute s u id allowed = onLiveRoute t u id allowed' := by
  subst ha
  unfold onLiveRoute
  have hrow := liveRoute?_alike h id
  generalize liveRoute? s id = o at hrow
  generalize liveRoute? t id = o' at hrow
  cases hrow with
  | none => rfl
  | some hr => rw [Option.bind_some, Option.bind_some, hr.orgId]

theorem canManageOrgRoutes_same (h : Veiled s t) : canManageOrgRoutes s u = canManageOrgRoutes t u := by
  unfold canManageOrgRoutes
  rw [getUserOrgRole_same h]

theorem canDeleteOrgRoutes_same (h : Veiled s t) : canDeleteOrgRoutes s u = canDeleteOrgRoutes t u := by
  unfold canDeleteOrgRoutes
  rw [getUserOrgRole_same h]

theorem canManageRoute_same (h : Veiled s t) : canManageRoute s u id = canManageRoute t u id :=
  onLiveRoute_same h (canManageOrgRoutes_same h)

theorem canDeleteRoute_same (h : Veiled s t) : canDeleteRoute s u id = canDeleteRoute t u id :=
  onLiveRoute_same h (canDeleteOrgRoutes_same h)

theorem canViewRouteById_same (h : Veiled s t) : canViewRouteById s u id = canViewRouteById t u id := by
  refine onLiveRoute_same h ?_
  unfold isOrgMember
  rw [getUserOrgRole_same h]

theorem routeOrg?_same (h : Veiled s t) : routeOrg? s id = routeOrg? t id := by
  unfold routeOrg?
  have hrow := h.routes.get? id
  generalize s.routes.get? id = o at hrow
  generalize t.routes.get? id = o' at hrow
  cases hrow with
  | none => rfl
  | some hr => rw [Option.bind_some, Option.bind_some, hr.orgId]

theorem routeGroup?_same (h : Veiled s t) : routeGroup? s id = routeGroup? t id := by
  unfold routeGroup?
  have hrow := h.routes.get? id
  generalize s.routes.get? id = o at hrow
  generalize t.routes.get? id = o' at hrow
  rw [h.routeGroups]
  cases hrow with
  | none => rfl
  | some hr => rw [Option.bind_some, Option.bind_some, hr.text (by decide)]

theorem canBypass_same (h : Veiled s t) : canBypass s u id = canBypass t u id := by
  unfold canBypass getPolicy
  rw [routeOrg?_same h, routeGroup?_same h, h.organizations, getUserOrgRole_same h]

theorem targetRefused_same (h : Veiled s t) (W : World) : targetRefused W s = targetRefused W t := by
  unfold targetRefused getOrgTargetPolicy
  rw [h.organizations]

theorem orgScope_same (h : Veiled s t) : orgScope s u = orgScope t u := by
  unfold orgScope getUserOrgIds
  rw [h.orgMemberships]

end Access

/-! ## Writing -/

/-- Data that differ at most in secrets, and there hold what the column may. -/
def PatchAlike (p p' : Patch) : Prop := ∀ c, p c = p' c ∨
  (c ∈ secretColumns ∧ (∀ v, p c = some v → c.admits v = true) ∧ ∀ v, p' c = some v → c.admits v = true)

theorem PatchAlike.refl (p : Patch) : PatchAlike p p := fun _ => .inl rfl

theorem PatchAlike.symm {p p' : Patch} (h : PatchAlike p p') : PatchAlike p' p := fun c =>
  (h c).imp Eq.symm fun ⟨hc, ha, ha'⟩ => ⟨hc, ha', ha⟩

theorem PatchAlike.same {p p' : Patch} (h : PatchAlike p p') {c : Column} (hc : c ∉ secretColumns) : p c = p' c :=
  (h c).resolve_right fun hs => hc hs.1

theorem PatchAlike.set {p p' : Patch} (h : PatchAlike p p') (c : Column) (v : Json) : PatchAlike (p.set c v) (p'.set c v) := by
  intro c'
  by_cases hc : c' = c
  · subst hc
    exact .inl (by rw [Patch.set_same, Patch.set_same])
  · rw [Patch.set_ne _ _ hc, Patch.set_ne _ _ hc]
    exact h c'

/-- What a secret is written over does not matter. -/
theorem writeField_secret {c : Column} (hc : c ∈ secretColumns) (old old' v : Json) :
    writeField c old v = writeField c old' v := by
  have ht : c.type = .string := by
    simp only [secretColumns, List.mem_cons, List.not_mem_nil, or_false] at hc
    rcases hc with rfl | rfl | rfl <;> rfl
  unfold writeField
  rw [ht, show c.coerce v = v from ColType.coerce_of_ne (by rw [ht]; decide) v]
  by_cases hv : c.admits v = true
  · rw [if_pos hv, if_pos hv]
  · rw [if_neg hv, if_neg hv]
    split
    · rfl
    · rename_i op x _
      rw [ColType.coerce_of_ne (by decide)]
      have hop : fieldOp .string op old x = fieldOp .string op old' x := by
        unfold fieldOp
        split <;> first | rfl | contradiction
      rw [hop]
    · rfl

section Write

variable {r r' : Row} {p p' : Patch}

theorem written_same (hr : RowAlike r r') (hp : PatchAlike p p') {c : Column} (hc : c ∉ secretColumns) :
    written r p c = written r' p' c := by
  rw [written, written, hp.same hc, hr c hc]

theorem written_isSome (hr : RowAlike r r') (hp : PatchAlike p p') (c : Column) :
    (written r p c).isSome = (written r' p' c).isSome := by
  by_cases hc : c ∈ secretColumns
  · have taken : ∀ {r : Row} {p : Patch}, (∀ v, p c = some v → c.admits v = true) → (written r p c).isSome = true := by
      intro r p ha
      unfold written
      cases hv : p c with
      | none => rfl
      | some v => simp only [writeField_plain _ (ha v hv), Option.isSome_some]
    rcases hp c with he | ⟨-, ha, ha'⟩
    · unfold written
      rw [he]
      cases p' c with
      | none => rfl
      | some v => simp only [writeField_secret hc (r.val c) (r'.val c)]
    · rw [taken ha, taken ha']
  · rw [written_same hr hp hc]

theorem write_alike (hr : RowAlike r r') (hp : PatchAlike p p') : Option.Rel RowAlike (r.write p) (r'.write p') := by
  have hsome : (r.write p).isSome = (r'.write p').isSome := by
    rw [Bool.eq_iff_iff, write_isSome, write_isSome]
    exact forall_congr' fun c => by rw [written_isSome hr hp c]
  cases hw : r.write p with
  | none =>
    rw [hw] at hsome
    have hn : r'.write p' = none := Option.not_isSome_iff_eq_none.1 (by rw [← hsome]; decide)
    rw [hn]
    exact .none
  | some a =>
    rw [hw] at hsome
    obtain ⟨b, hb⟩ := Option.isSome_iff_exists.1 hsome.symm
    rw [hb]
    refine .some fun c hc => ?_
    have hval := write_val hw c
    rw [written_same hr hp hc, write_val hb c] at hval
    exact (Option.some.inj hval).symm

end Write

section Database

variable {s t : Store} {now id : String} {p p' : Patch} {row row' : Row}

theorem taken_same (h : Veiled s t) {c : Column} (hc : c ∉ secretColumns) {v v' : Json} (hv : v = v') :
    taken s id c v = taken t id c v' := by
  subst hv
  unfold taken
  rw [h.routes.any fun k r r' hr => by rw [hr c hc]]

theorem uniqueOk_same (id : String) (h : Veiled s t) (hp : PatchAlike p p') (hr : RowAlike row row') :
    uniqueOk s id p row = uniqueOk t id p' row' := by
  unfold uniqueOk
  rw [hp.same (c := .publicPath) (by decide), hp.same (c := .slug) (by decide),
    taken_same h (c := .publicPath) (by decide) (hr .publicPath (by decide)),
    taken_same h (c := .slug) (by decide) (hr .slug (by decide))]

theorem refsOk_same (h : Veiled s t) (hp : PatchAlike p p') (hr : RowAlike row row') :
    refsOk s p row = refsOk t p' row' := by
  unfold refsOk
  rw [hp.same (c := .organizationId) (by decide), hp.same (c := .routeGroupId) (by decide),
    hp.same (c := .folderId) (by decide), hr .organizationId (by decide), hr .routeGroupId (by decide),
    hr .folderId (by decide), h.organizations, h.routeGroups, h.routeFolders]

theorem routeWrite_alike (h : Veiled s t) (hp : PatchAlike p p') :
    SameOutcome RowAlike (routeWrite s now id p) (routeWrite t now id p') := by
  unfold routeWrite
  have hrow := h.routes.get? id
  generalize s.routes.get? id = o at hrow
  generalize t.routes.get? id = o' at hrow
  cases hrow with
  | none => exact rfl
  | @some r r' hr =>
    have hw := write_alike hr (hp.set .updatedAt (.str now))
    dsimp only
    rw [stamped, stamped]
    generalize r.write (p.set .updatedAt (.str now)) = w at hw
    generalize r'.write (p'.set .updatedAt (.str now)) = w' at hw
    cases hw with
    | none => exact rfl
    | some hw =>
      dsimp only
      rw [uniqueOk_same id h hp hw, refsOk_same h hp hw]
      split
      · exact rfl
      · split
        · exact rfl
        · exact hw

theorem Veiled.withRoutes (h : Veiled s t) {a b : Table String Row} (hab : Table.Alike RowAlike a b) :
    Veiled { s with routes := a } { t with routes := b } := { h with routes := hab }

theorem routeUpdate_alike (h : Veiled s t) (hp : PatchAlike p p') :
    Alike Veiled RowAlike (routeUpdate now id p) (routeUpdate now id p') s t := by
  unfold routeUpdate
  refine alike_read_bind (alike_bind (alike_ofExcept (routeWrite_alike h hp) h) fun a b s' t' hab hv => ?_)
  refine alike_bind (alike_modify (hv.withRoutes (hv.routes.modify fun _ _ _ => hab.1))) fun _ _ s'' t'' _ hv' => ?_
  exact alike_pure hv' hab.1

theorem create_alike (hp : PatchAlike p p') : Option.Rel RowAlike (Row.create p) (Row.create p') := by
  have field : ∀ c, c ∉ secretColumns → createdField p c = createdField p' c := by
    intro c hc
    rw [createdField, createdField, hp.same hc]
  have some_of : ∀ {p : Patch} {c : Column}, c ∈ secretColumns → (∀ v, p c = some v → c.admits v = true) →
      (createdField p c).isSome = true := by
    intro p c hc ha
    unfold createdField
    cases hv : p c with
    | none =>
      simp only [secretColumns, List.mem_cons, List.not_mem_nil, or_false] at hc
      rcases hc with rfl | rfl | rfl <;> rfl
    | some v => simp only [Column.coerce_admitted (ha v hv), ha v hv, if_true, Option.isSome_some]
  have isSome : ∀ c, (createdField p c).isSome = (createdField p' c).isSome := by
    intro c
    by_cases hc : c ∈ secretColumns
    · rcases hp c with he | ⟨-, ha, ha'⟩
      · rw [createdField, createdField, he]
      · rw [some_of hc ha, some_of hc ha']
    · rw [field c hc]
  unfold Row.create
  by_cases hall : ∀ c, (createdField p c).isSome = true
  · have hall' : ∀ c, (createdField p' c).isSome = true := fun c => isSome c ▸ hall c
    rw [dif_pos hall, dif_pos hall']
    refine .some fun c hc => ?_
    simp only [field c hc]
  · have hall' : ¬∀ c, (createdField p' c).isSome = true := fun h => hall fun c => (isSome c).symm ▸ h c
    rw [dif_neg hall, dif_neg hall']
    exact .none

theorem wholeRow_alike (hr : RowAlike row row') : PatchAlike (fun c => some (row.val c)) fun c => some (row'.val c) := by
  intro c
  by_cases hc : c ∈ secretColumns
  · refine .inr ⟨hc, fun v hv => ?_, fun v hv => ?_⟩
    · exact Option.some.inj hv ▸ row.typed c
    · exact Option.some.inj hv ▸ row'.typed c
  · exact .inl (congrArg some (hr c hc))

/-- The row a create makes of its data. -/
def newRow (now : String) (data : Patch) : Option Row := Row.create (stamped now (data.set .createdAt (.str now)))

theorem routeCreate_alike (h : Veiled s t) (hp : PatchAlike p p') :
    Alike Veiled (fun a b => RowAlike a b ∧ newRow now p = some a ∧ newRow now p' = some b) (routeCreate now id p)
      (routeCreate now id p') s t := by
  have hrow : Option.Rel RowAlike (newRow now p) (newRow now p') := create_alike ((hp.set .createdAt _).set .updatedAt _)
  unfold routeCreate
  refine alike_read_bind (alike_bind (alike_orThrow hrow h) fun a b s' t' hab hv => ?_)
  have free : (s.routes.get? id).isNone = (t.routes.get? id).isNone := by
    have hrow := h.routes.get? id
    generalize s.routes.get? id = o at hrow
    generalize t.routes.get? id = o' at hrow
    cases hrow <;> rfl
  have unique := uniqueOk_same id h (wholeRow_alike hab.1) hab.1
  have refs := refsOk_same h (wholeRow_alike hab.1) hab.1
  refine alike_bind (alike_require (by rw [free, unique]) hv) fun _ _ s' t' _ hv => ?_
  refine alike_bind (alike_require (by rw [refs]) hv) fun _ _ s' t' _ hv => ?_
  refine alike_bind (alike_modify (hv.withRoutes (hv.routes.insert hab.1))) fun _ _ s' t' _ hv => ?_
  exact alike_pure hv hab

theorem writtenIf_alike {sel : String → Row → Bool} (hsel : ∀ k r r', RowAlike r r' → sel k r = sel k r') (k : String)
    (hr : RowAlike row row') : RowAlike (writtenIf sel p k row) (writtenIf sel p k row') := by
  unfold writtenIf
  rw [hsel k row row' hr]
  cases sel k row' with
  | false => exact hr
  | true =>
    have hw := write_alike hr (PatchAlike.refl p)
    rw [if_pos rfl, if_pos rfl]
    generalize row.write p = w at hw
    generalize row'.write p = w' at hw
    cases hw with
    | none => exact hr
    | some hw => exact hw

theorem routeUpdateMany_same {sel : String → Row → Bool} (h : Veiled s t)
    (hsel : ∀ k r r', RowAlike r r' → sel k r = sel k r') :
    Alike Veiled Eq (routeUpdateMany now sel p) (routeUpdateMany now sel p) s t := by
  have refused : (s.routes.any fun id r => sel id r && (r.write (stamped now p)).isNone) =
      t.routes.any fun id r => sel id r && (r.write (stamped now p)).isNone := by
    refine h.routes.any fun k r r' hr => ?_
    have hw := write_alike hr (PatchAlike.refl (stamped now p))
    rw [hsel k r r' hr]
    generalize r.write (stamped now p) = w at hw
    generalize r'.write (stamped now p) = w' at hw
    cases hw <;> rfl
  have dangling : (s.routes.any fun id r => sel id r && !(refsOk s p ((r.write (stamped now p)).getD r))) =
      t.routes.any fun id r => sel id r && !(refsOk t p ((r.write (stamped now p)).getD r)) := by
    refine h.routes.any fun k r r' hr => ?_
    have hw := write_alike hr (PatchAlike.refl (stamped now p))
    rw [hsel k r r' hr]
    generalize r.write (stamped now p) = w at hw
    generalize r'.write (stamped now p) = w' at hw
    cases hw with
    | none => rw [Option.getD_none, Option.getD_none, refsOk_same h (PatchAlike.refl p) hr]
    | some hw => rw [Option.getD_some, Option.getD_some, refsOk_same h (PatchAlike.refl p) hw]
  have count : (s.routes.filter sel).rows.length = (t.routes.filter sel).rows.length :=
    List.Forall₂.length_eq (h.routes.filter hsel)
  unfold routeUpdateMany
  refine alike_read_bind (alike_bind (alike_require (by rw [refused]) h) fun _ _ s' t' _ hv => ?_)
  refine alike_bind (alike_require (by rw [dangling]) hv) fun _ _ s' t' _ hv => ?_
  refine alike_bind (alike_modify (hv.withRoutes (hv.routes.mapRows fun k _ _ hr => writtenIf_alike hsel k hr))) fun _ _ s' t' _ hv => ?_
  exact alike_pure hv count

theorem routeDelete_same (h : Veiled s t) : Alike Veiled Eq (routeDelete id) (routeDelete id) s t := by
  have there : (s.routes.get? id).isSome = (t.routes.get? id).isSome := by
    have hrow := h.routes.get? id
    generalize s.routes.get? id = o at hrow
    generalize t.routes.get? id = o' at hrow
    cases hrow <;> rfl
  unfold routeDelete
  refine alike_read_bind (alike_bind (alike_require (by rw [there]) h) fun _ _ s' t' _ hv => alike_modify ?_)
  exact {
    organizations := hv.organizations
    orgMemberships := hv.orgMemberships
    teams := hv.teams
    routeGroups := hv.routeGroups
    routeFolders := hv.routeFolders
    routeTargets := by simp only [hv.routeTargets]
    transformRules := by simp only [hv.transformRules]
    changeRequests := hv.changeRequests.mapRows fun _ _ _ _ => trivial
    routes := hv.routes.filter fun _ _ _ _ => rfl
    routeVersions := hv.routeVersions.filter fun _ _ _ hab => by rw [hab.routeId] }

theorem versionCreate_same {versionId : String} {version : Json} {userId : String} (h : Veiled s t) (hr : RowAlike row row') :
    Alike Veiled (fun _ _ => True) (versionCreate versionId id version row userId)
      (versionCreate versionId id version row' userId) s t := by
  have free : (s.routeVersions.get? versionId).isNone = (t.routeVersions.get? versionId).isNone := by
    have hrow := h.routeVersions.get? versionId
    generalize s.routeVersions.get? versionId = o at hrow
    generalize t.routeVersions.get? versionId = o' at hrow
    cases hrow <;> rfl
  unfold versionCreate
  refine alike_read_bind (alike_bind (alike_require (by rw [free]) h) fun _ _ s' t' _ hv => ?_)
  refine (alike_modify ?_).mono fun _ _ _ => trivial
  exact { hv with routeVersions := hv.routeVersions.insert ⟨rfl, rfl, rfl, hr⟩ }

end Database

/-! ## The writers -/

section Writers

variable {W : World} {s t : Store} {d : Draw} {u : Caller} {id userId : String} {data data' : Patch} {r r' : Row}

theorem assertRouteTargetAllowed_same {url url' : String} {org org' : Json} (h : Veiled s t) (hu : url = url')
    (ho : org = org') :
    Alike Veiled (fun _ _ => True) (assertRouteTargetAllowed W url org) (assertRouteTargetAllowed W url' org') s t := by
  subst hu ho
  unfold assertRouteTargetAllowed
  refine alike_read_bind ?_
  rw [targetRefused_same h]
  cases targetRefused W t url org with
  | none => exact alike_pure h trivial
  | some message => exact alike_throw h

theorem checkRewriteRules_same {rules : Option Json} (h : Veiled s t) :
    Alike Veiled (fun _ _ => True) (checkRewriteRules W rules) (checkRewriteRules W rules) s t := by
  refine alike_forM (U := Eq) (List.forall₂_refl _) (fun a b s t _ _ hab hv => ?_) s t h
  subst hab
  exact (alike_require Iff.rfl hv).mono fun _ _ _ => trivial

theorem freeSoftDeletedPublicPath_same {now : String} {path : Json} (h : Veiled s t) :
    Alike Veiled (fun _ _ => True) (freeSoftDeletedPublicPath now path) (freeSoftDeletedPublicPath now path) s t := by
  have hfind : Option.Rel (Beside RowAlike) (s.routes.find? fun _ r => r.val .publicPath = path && !r.live)
      (t.routes.find? fun _ r => r.val .publicPath = path && !r.live) :=
    h.routes.find? fun k r r' hr => by rw [hr .publicPath (by decide), hr.live]
  unfold freeSoftDeletedPublicPath
  refine alike_read_bind ?_
  generalize s.routes.find? (fun _ r => r.val .publicPath = path && !r.live) = o at hfind
  generalize t.routes.find? (fun _ r => r.val .publicPath = path && !r.live) = o' at hfind
  cases hfind with
  | none => exact alike_pure h trivial
  | @some x y hxy =>
    obtain ⟨k, r⟩ := x
    obtain ⟨k', r'⟩ := y
    obtain ⟨rfl, hr⟩ := hxy
    have hr : RowAlike r r' := hr
    dsimp only
    rw [hr.text (c := .publicPath) (by decide)]
    exact alike_bind (routeUpdate_alike h (PatchAlike.refl _)) fun _ _ _ _ _ hv => alike_pure hv trivial

theorem pickRouteSlug_same {name : String} {excludeId : Option String} (h : Veiled s t) :
    pickRouteSlug W s name excludeId = pickRouteSlug W t name excludeId := by
  unfold pickRouteSlug
  have clash : (fun c => s.routes.any fun k r => excludeId ≠ some k && r.val .slug = .str c) =
      fun c => t.routes.any fun k r => excludeId ≠ some k && r.val .slug = .str c :=
    funext fun c => h.routes.any fun k r r' hr => by rw [hr .slug (by decide)]
  rw [clash]

theorem createData_same (h : Veiled s t) : createData W s d data userId = createData W t d data userId := by
  unfold createData
  simp only [pickRouteSlug_same h]

theorem createRoute_same (h : Veiled s t) : Alike Veiled Eq (createRoute W d data userId) (createRoute W d data userId) s t := by
  unfold createRoute
  refine alike_bind (assertRouteTargetAllowed_same h rfl rfl) fun _ _ s t _ h => ?_
  refine alike_bind (freeSoftDeletedPublicPath_same h) fun _ _ s t _ h => ?_
  refine alike_bind (alike_require Iff.rfl h) fun _ _ s t _ h => ?_
  refine alike_bind (checkRewriteRules_same h) fun _ _ s t _ h => ?_
  refine alike_read_bind ?_
  rw [createData_same h]
  refine alike_bind (routeCreate_alike h (PatchAlike.refl _)) fun a b s t hab h => ?_
  -- the new row is made of the same data
  obtain ⟨-, ha, hb⟩ := hab
  obtain rfl : a = b := Option.some.inj (ha.symm.trans hb)
  refine alike_bind (versionCreate_same h (publicAlike_refl _)) fun _ _ s t _ h => ?_
  exact alike_pure h rfl

theorem importRoutes_same (routes : List (Draw × Patch)) :
    ∀ s t, Veiled s t → Alike Veiled Eq (importRoutes W userId routes) (importRoutes W userId routes) s t := by
  induction routes with
  | nil => exact fun s t h => alike_pure h rfl
  | cons x rest ih =>
    intro s t h
    obtain ⟨d, data⟩ := x
    unfold importRoutes
    refine alike_bind (alike_attempt (createRoute_same h)) fun a b s t hab h => ?_
    refine alike_bind (ih s t h) fun m n s t hmn h => ?_
    subst hmn
    refine alike_pure h ?_
    cases a with
    | error e =>
      cases b with
      | error f =>
        obtain rfl : e = f := hab
        rfl
      | ok row => exact hab.elim
    | ok row =>
      cases b with
      | error f => exact hab.elim
      | ok row' => rfl

/-! ## One route -/

theorem findLive_alike (h : Veiled s t) :
    Alike Veiled (fun a b => RowAlike a b ∧ liveRoute? s id = some a ∧ liveRoute? t id = some b) (findLive id) (findLive id)
      s t := by
  unfold findLive
  exact alike_read_bind (alike_orThrow (liveRoute?_alike h id) h)

theorem archiveData_same {now : String} (hr : RowAlike r r') : archiveData now id r = archiveData now id r' := by
  unfold archiveData
  rw [hr .publicPath (by decide), hr .slug (by decide)]

theorem deleteRoute_same {now : String} {confirmName : Option String} (h : Veiled s t) :
    Alike Veiled Eq (deleteRoute now id confirmName) (deleteRoute now id confirmName) s t := by
  unfold deleteRoute
  refine alike_bind (findLive_alike h) fun r r' s t hr h => ?_
  obtain ⟨hr, -, -⟩ := hr
  have active : r.flag .isActive = r'.flag .isActive := hr.flag (by decide)
  have protect : r.flag .protected_ = r'.flag .protected_ := hr.flag (by decide)
  have name : r.val .name = r'.val .name := hr .name (by decide)
  refine alike_bind (alike_require (by rw [active]) h) fun _ _ s t _ h => ?_
  refine alike_bind (alike_require (by rw [protect, name]) h) fun _ _ s t _ h => ?_
  rw [archiveData_same hr]
  exact alike_bind (routeUpdate_alike h (PatchAlike.refl _)) fun _ _ _ _ _ h => alike_pure h rfl

theorem liveClash_same (h : Veiled s t) {c : Column} (hc : c ∉ secretColumns) (v : Json) :
    liveClash s id c v = liveClash t id c v := by
  unfold liveClash
  exact h.routes.any fun k r r' hr => by rw [hr.live, hr c hc]

theorem restoredText_same (h : Veiled s t) {c : Column} (hc : c ∉ secretColumns) (v : Json) :
    restoredText s id c v = restoredText t id c v := by
  unfold restoredText
  cases v with
  | str text =>
    dsimp only
    rw [liveClash_same h hc]
  | _ => rfl

theorem restoreData_same (h : Veiled s t) (hr : RowAlike r r') : restoreData s id userId r = restoreData t id userId r' := by
  unfold restoreData
  rw [hr .publicPath (by decide), hr .slug (by decide)]
  simp only [restoredText_same h (c := .publicPath) (by decide), restoredText_same h (c := .slug) (by decide)]

theorem restoreRoute_alike {now : String} (h : Veiled s t) :
    Alike Veiled RowAlike (restoreRoute now id userId) (restoreRoute now id userId) s t := by
  unfold restoreRoute findArchived
  refine alike_bind (alike_read_bind (alike_orThrow (archivedRoute?_alike h id) h)) fun r r' s t hr h => ?_
  refine alike_read_bind ?_
  rw [restoreData_same h hr.1]
  exact routeUpdate_alike h (PatchAlike.refl _)

theorem permanentlyDeleteRoute_same (h : Veiled s t) :
    Alike Veiled Eq (permanentlyDeleteRoute id) (permanentlyDeleteRoute id) s t := by
  unfold permanentlyDeleteRoute findArchived
  refine alike_bind (alike_read_bind (alike_orThrow (archivedRoute?_alike h id) h)) fun _ _ s t _ h => ?_
  exact routeDelete_same h

theorem duplicateData_alike (h : Veiled s t) (hr : RowAlike r r') :
    PatchAlike (duplicateData s userId r) (duplicateData t userId r') := by
  have clash : (fun p => s.routes.any fun _ r => r.live && r.val .publicPath = .str p) =
      fun p => t.routes.any fun _ r => r.live && r.val .publicPath = .str p :=
    funext fun p => h.routes.any fun k r r' hr => by rw [hr.live, hr .publicPath (by decide)]
  intro c
  unfold duplicateData
  rw [clash, hr.text (c := .publicPath) (by decide), hr.text (c := .name) (by decide)]
  by_cases hc : c ∈ secretColumns
  · refine .inr ⟨hc, ?_⟩
    simp only [secretColumns, List.mem_cons, List.not_mem_nil, or_false] at hc
    rcases hc with rfl | rfl | rfl <;>
    · refine ⟨fun v hv => ?_, fun v hv => ?_⟩
      · exact Option.some.inj hv ▸ r.typed _
      · exact Option.some.inj hv ▸ r'.typed _
  · refine .inl ?_
    simp only [Patch.merge, Patch.remove, hr c hc]

theorem duplicateRoute_alike {now newId : String} (h : Veiled s t) :
    Alike Veiled RowAlike (duplicateRoute now newId id userId) (duplicateRoute now newId id userId) s t := by
  unfold duplicateRoute
  refine alike_bind (findLive_alike h) fun r r' s t hr h => alike_read_bind ?_
  exact (routeCreate_alike h (duplicateData_alike h hr.1)).mono fun _ _ hab => hab.1

/-! ## Many routes -/

theorem liveAmong_same (ids : List String) (k : String) (r r' : Row) (hr : RowAlike r r') :
    liveAmong ids k r = liveAmong ids k r' := by
  unfold liveAmong
  rw [hr.live]

theorem bulkPublish_same {now : String} {ids : List String} (h : Veiled s t) :
    Alike Veiled Eq (bulkPublish now ids userId) (bulkPublish now ids userId) s t :=
  routeUpdateMany_same h (liveAmong_same ids)

theorem bulkDeactivate_same {now : String} {ids : List String} (h : Veiled s t) :
    Alike Veiled Eq (bulkDeactivate now ids userId) (bulkDeactivate now ids userId) s t :=
  routeUpdateMany_same h (liveAmong_same ids)

/-- A transaction of one write a row. -/
theorem liveUpdates_same {now : String} {ids : List String} (write : String → Row → Patch) (h : Veiled s t)
    (hw : ∀ k r r', RowAlike r r' → write k r = write k r') :
    Alike Veiled (fun _ _ => True)
      (atomic ((s.routes.filter (liveAmong ids)).rows.forM fun r => do let _ ← routeUpdate now r.1 (write r.1 r.2)))
      (atomic ((t.routes.filter (liveAmong ids)).rows.forM fun r => do let _ ← routeUpdate now r.1 (write r.1 r.2))) s t := by
  refine alike_atomic ?_ h
  refine alike_forM (h.routes.filter (liveAmong_same ids)) (fun a b s t _ _ hab h => ?_) s t h
  obtain ⟨hk, hr⟩ := hab
  rw [hk, hw b.1 a.2 b.2 hr]
  exact alike_bind (routeUpdate_alike h (PatchAlike.refl _)) fun _ _ _ _ _ h => alike_pure h trivial

theorem bulkData_same {patch : BulkPatch} (hr : RowAlike r r') : bulkData patch userId r = bulkData patch userId r' := by
  unfold bulkData withTags
  rw [hr .tags (by decide)]

theorem bulkUpdate_same {now : String} {ids : List String} {patch : BulkPatch} (h : Veiled s t) :
    Alike Veiled Eq (bulkUpdate now ids patch userId) (bulkUpdate now ids patch userId) s t := by
  have count : (s.routes.filter (liveAmong ids)).rows.length = (t.routes.filter (liveAmong ids)).rows.length :=
    List.Forall₂.length_eq (h.routes.filter (liveAmong_same ids))
  unfold bulkUpdate
  refine alike_ite Iff.rfl (fun _ => routeUpdateMany_same h (liveAmong_same ids)) fun _ => alike_read_bind ?_
  refine alike_bind (liveUpdates_same (fun _ r => bulkData patch userId r) h fun _ _ _ hr => bulkData_same hr) fun _ _ s t _ h => ?_
  exact alike_pure h count

theorem bulkDelete_same {now : String} {ids : List String} (h : Veiled s t) :
    Alike Veiled Eq (bulkDelete now ids) (bulkDelete now ids) s t := by
  have count : (s.routes.filter (liveAmong ids)).rows.length = (t.routes.filter (liveAmong ids)).rows.length :=
    List.Forall₂.length_eq (h.routes.filter (liveAmong_same ids))
  unfold bulkDelete
  refine alike_read_bind (alike_bind (liveUpdates_same (bulkArchiveData now) h fun k r r' hr => ?_) fun _ _ s t _ h => ?_)
  · unfold bulkArchiveData
    rw [hr.text (by decide)]
  · exact alike_pure h count

end Writers

end ClusterGate
