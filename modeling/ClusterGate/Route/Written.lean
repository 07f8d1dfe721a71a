/-
  ClusterGate.Route.Written — what the writers leave in a row, column by column, and which
  of the ways a row changes reach its configuration.

  Outside the slug, the target, the secrets and the bookkeeping both writers store their
  data as it comes. `changes_cases`: everything but an update, the restore of a version
  and an approval keeps to the columns of a route's lifecycle.
-/

import ClusterGate.Frame
import ClusterGate.Route.Path

namespace ClusterGate

open Lib Lib.Act Lib.Table Lib.Zod

/-! ## Updated rows -/

section Updated

variable {W : World} {s : Store} {d : Draw} {id userId : String} {r r' : Row} {data : Patch} {c : Column}

theorem withSlug_ne (hc : c ≠ .slug) : withSlug W s id r data c = data c := by
  unfold withSlug
  cases data .name with
  | none => rfl
  | some v =>
    cases v with
    | str name =>
      by_cases hs : .str name ≠ r.val .name ∧ ¬ ((data .slug).getD .null).truthy = true
      · simp only [if_pos hs, Patch.set_ne _ _ hc]
      · simp only [if_neg hs]
    | _ => rfl

theorem updateData_ne (hs : c ≠ .slug) (ht : c ≠ .targetUrl) (hk : c ∉ secretColumns) :
    updateData W s d id r data c = data c := by
  simp only [updateData, sealSecrets, dropMasked, hk, false_and, if_false]
  split
  · rw [withTarget, if_neg ht, withSlug_ne hs]
  · exact withSlug_ne hs

theorem updateData_target : updateData W s d id r data .targetUrl =
    if ((data .targetUrl).getD .null).truthy then withTarget data .targetUrl else data .targetUrl := by
  have target : withSlug W s id r data .targetUrl = data .targetUrl := withSlug_ne (by decide)
  have hk : Column.targetUrl ∉ secretColumns := by decide
  simp only [updateData, sealSecrets, dropMasked, hk, false_and, if_false]
  rw [target]
  split
  · rw [withTarget, withTarget, target]
  · exact target

theorem updateData_secret {c : Column} (hc : c ∈ secretColumns) :
    updateData W s d id r data c = (dropMasked data c).map (encryptSecret W (d.nonce c)) := by
  have hs : c ≠ .slug := by rintro rfl; exact absurd hc (by decide)
  have ht : c ≠ .targetUrl := by rintro rfl; exact absurd hc (by decide)
  have inner : ∀ p : Patch, p c = data c → sealSecrets W d (dropMasked p) c =
      (dropMasked data c).map (encryptSecret W (d.nonce c)) := by
    intro p hp
    rw [sealSecrets, if_pos hc, dropMasked, dropMasked, hp]
  unfold updateData
  split
  · exact inner _ (by rw [withTarget, if_neg ht, withSlug_ne hs])
  · exact inner _ (withSlug_ne hs)

/-- What is sealed of a text or null is a text or null. -/
theorem encryptSecret_admits {c : Column} (hc : c ∈ secretColumns) (nonce : Nonce) {v : Json} (hv : c.admits v = true) :
    c.admits (encryptSecret W nonce v) = true := by
  have text : ∀ a, c.admits (.str a) = true := by
    intro a
    simp only [secretColumns, List.mem_cons, List.not_mem_nil, or_false] at hc
    rcases hc with rfl | rfl | rfl <;> rfl
  cases v with
  | str a =>
    obtain ⟨b, hb⟩ := encryptSecret_text W nonce a
    rw [hb]
    exact text b
  | _ => exact hv

theorem updateData_slug : updateData W s d id r data .slug = withSlug W s id r data .slug := by
  have hk : Column.slug ∉ secretColumns := by decide
  simp only [updateData, sealSecrets, dropMasked, hk, false_and, if_false]
  split
  · rw [withTarget, if_neg (by decide)]
  · rfl

theorem updatePatch_ne (hv : c ≠ .version) (hu : c ≠ .updatedById) : updatePatch r data userId c = data c := by
  rw [updatePatch, Patch.set_ne _ _ hu]
  split
  · exact Patch.set_ne _ _ hv
  · rfl

/-- The columns an update does not simply store. -/
def DERIVED : List Column :=
  [.slug, .targetUrl, .authValue, .upstreamAuthValue, .webhookSecret, .version, .updatedById, .updatedAt]

theorem UpdatedRow.patch (W : World) (s : Store) (d : Draw) (id userId : String) (r : Row) (data : Patch) (hc : c ∉ DERIVED) :
    updatePatch r (updateData W s d id r data) userId c = data c ∧ c ≠ .updatedAt := by
  simp only [DERIVED, List.mem_cons, List.not_mem_nil, or_false, not_or] at hc
  obtain ⟨hs, ht, ha, hu, hw, hv, hb, hd⟩ := hc
  have hk : c ∉ secretColumns := by simp [secretColumns, ha, hu, hw]
  rw [updatePatch_ne hv hb, updateData_ne hs ht hk]
  exact ⟨rfl, hd⟩

/-- A column the data leaves out stays. -/
theorem UpdatedRow.same (h : UpdatedRow W s d id data userId r r') (hc : c ∉ DERIVED) (hd : data c = none) :
    r'.val c = r.val c := by
  obtain ⟨hp, hu⟩ := UpdatedRow.patch W s d id userId r data hc
  exact h.2.2.same (hp.trans hd) hu

/-- A fixed value is stored as it is. -/
theorem UpdatedRow.value (h : UpdatedRow W s d id data userId r r') (hc : c ∉ DERIVED) {v : Json} (hd : data c = some v)
    (hv : isFixed v = true) : r'.val c = v := by
  obtain ⟨hp, hu⟩ := UpdatedRow.patch W s d id userId r data hc
  exact writeField_value hv (h.2.2.field (hp.trans hd) hu)

/-- A value of the column's type is stored as it is. -/
theorem UpdatedRow.plain (h : UpdatedRow W s d id data userId r r') (hc : c ∉ DERIVED) {v : Json} (hd : data c = some v)
    (hv : c.admits v = true) : r'.val c = v := by
  obtain ⟨hp, hu⟩ := UpdatedRow.patch W s d id userId r data hc
  exact h.2.2.plain (hp.trans hd) hu hv

theorem effectiveOrg_eq : effectiveOrg r data = (data .organizationId).getD (r.val .organizationId) := by
  unfold effectiveOrg movesTo
  cases data .organizationId with
  | none => rfl
  | some v =>
    rw [Option.filter_some]
    by_cases e : v = r.val .organizationId
    · simp [e]
    · simp [e]

/-- An update leaves a route in the organization its targets were judged for. -/
theorem UpdatedRow.organization (h : UpdatedRow W s d id data userId r r') (hv : ∀ v, data .organizationId = some v → isFixed v = true) :
    r'.val .organizationId = effectiveOrg r data := by
  rw [effectiveOrg_eq]
  cases ho : data .organizationId with
  | none => exact h.same (by decide) ho
  | some v => exact h.value (by decide) ho (hv v ho)

/-- An update with a target stores it as it was judged. -/
theorem UpdatedRow.target (h : UpdatedRow W s d id data userId r r') {url : String} (ht : data .targetUrl = some (.str url))
    (hn : url ≠ "") : r'.val .targetUrl = .str (normalizeTarget url) := by
  refine writeField_str (h.2.2.field (c := .targetUrl) (v := .str (normalizeTarget url)) ?_ (by decide))
  rw [updatePatch_ne (by decide) (by decide), updateData_target, if_pos (by simp [ht, hn]), withTarget, if_pos rfl, ht]
  rfl

theorem UpdatedRow.target_same (h : UpdatedRow W s d id data userId r r') (ht : data .targetUrl = none) :
    r'.val .targetUrl = r.val .targetUrl := by
  refine h.2.2.same ?_ (by decide)
  rw [updatePatch_ne (by decide) (by decide), updateData_target, ht]
  rfl

end Updated

/-- An update's body names an organization by its id, or none. -/
theorem updateBody_organization {W : World} {body : Json} {data : Patch}
    (h : routeData W (partialUpdate (routeBodySchema W)) body = .ok data) (v : Json) (ho : data .organizationId = some v) :
    isFixed v = true := by
  obtain ⟨o, hp⟩ := routeData_field h (c := .organizationId) (by decide) rfl (by decide) (by decide)
  rw [ho] at hp
  exact nullableText_value hp

/-! ## Created rows -/

section Created

variable {W : World} {s : Store} {d : Draw} {userId : String} {r r' : Row} {data : Patch} {c : Column}

/-- The columns a create does not simply store. -/
def CREATE_DERIVED : List Column :=
  [.slug, .targetUrl, .authValue, .upstreamAuthValue, .webhookSecret, .createdById, .updatedById, .createdAt, .updatedAt]

/-- What the database is given for a create. -/
def newRowData (W : World) (s : Store) (d : Draw) (userId : String) (data : Patch) : Patch :=
  stamped d.now ((createData W s d data userId).set .createdAt (.str d.now))

theorem newRowData_plain {c : Column} (hc : c ∉ CREATE_DERIVED) : newRowData W s d userId data c = data c := by
  simp only [CREATE_DERIVED, List.mem_cons, List.not_mem_nil, or_false, not_or] at hc
  obtain ⟨hs, ht, ha, hu, hw, hb, hub, hcr, hup⟩ := hc
  have hk : c ∉ secretColumns := by simp [secretColumns, ha, hu, hw]
  rw [newRowData, stamped_ne hup, Patch.set_ne _ _ hcr, createData_ne hs hb hub, sealSecrets, if_neg hk, withTarget, if_neg ht]

theorem newRowData_target : newRowData W s d userId data .targetUrl = (data .targetUrl).map normalizeTargetJson := by
  have hk : Column.targetUrl ∉ secretColumns := by decide
  rw [newRowData, stamped_ne (by decide), Patch.set_ne _ _ (by decide), createData_ne (by decide) (by decide) (by decide),
    sealSecrets, if_neg hk, withTarget, if_pos rfl]

/-- A create stores its data as the columns have it, and the defaults of what it leaves out. -/
theorem CreatedRow.coerced (h : CreatedRow W s d data userId r') (hc : c ∉ CREATE_DERIVED) :
    (∃ v, data c = some v ∧ r'.val c = c.coerce v) ∨ data c = none ∧ c.default = some (r'.val c) := by
  obtain ⟨-, -, t, hr⟩ := h
  have stored : newRowData W t d userId data c = data c := newRowData_plain hc
  cases hd : data c with
  | none => exact Or.inr ⟨rfl, create_default hr (stored.trans hd)⟩
  | some v => exact Or.inl ⟨v, rfl, create_coerced hr (stored.trans hd)⟩

/-- Outside the `Int` columns data is stored as it comes. -/
theorem CreatedRow.value (h : CreatedRow W s d data userId r') (hc : c ∉ CREATE_DERIVED) (ht : c.type ≠ .int) :
    data c = some (r'.val c) ∨ data c = none ∧ c.default = some (r'.val c) := by
  rcases h.coerced hc with ⟨v, hv, hr⟩ | hd
  · rw [Column.coerce, ColType.coerce_of_ne ht] at hr
    exact Or.inl (hv.trans (congrArg some hr.symm))
  · exact Or.inr hd

/-- A create stores the target as it was judged. -/
theorem CreatedRow.target (h : CreatedRow W s d data userId r') {v : Json} (ht : data .targetUrl = some v) :
    r'.val .targetUrl = normalizeTargetJson v := by
  obtain ⟨-, -, t, hr⟩ := h
  have stored : newRowData W t d userId data .targetUrl = some (normalizeTargetJson v) := by
    rw [newRowData_target, ht]
    rfl
  exact create_given hr stored (ColType.coerce_of_ne (by decide) _)

/-- The columns a duplicate has of its own. -/
def OWN_OF_DUPLICATE : List Column := NOT_COPIED ++ [.name, .publicPath, .status, .isActive]

theorem DuplicateOf.copied (h : DuplicateOf s d userId r r') (hc : c ∉ OWN_OF_DUPLICATE) : r'.val c = r.val c := by
  simp only [OWN_OF_DUPLICATE, NOT_COPIED, List.cons_append, List.nil_append, List.mem_cons, List.not_mem_nil, or_false,
    not_or] at hc
  obtain ⟨hca, hua, hda, hv, hcb, hub, hn, hp, hs, ha⟩ := hc
  refine create_given h.1 ?_ (Column.coerce_admitted (r.typed c))
  rw [stamped_ne hua, Patch.set_ne _ _ hca, duplicateData]
  simp [Patch.merge, Patch.ofList, Patch.remove, NOT_COPIED, hca, hua, hda, hv, hcb, hub, Ne.symm hn, Ne.symm hp,
    Ne.symm hs, Ne.symm ha, Ne.symm hv, Ne.symm hcb, Ne.symm hub]

end Created

/-! ## What reaches the configuration -/

/-- The columns of a route's lifecycle and of its place among others. -/
def LIFECYCLE : List Column :=
  [.isActive, .status, .updatedById, .updatedAt, .deletedAt, .publicPath, .slug, .routeGroupId, .folderId, .environment,
   .tags]

theorem WrittenRow.agree {now : String} {data : Patch} {r r' : Row} {cs : List Column} (h : WrittenRow now data r r')
    (hd : ∀ c v, data c = some v → c ∈ cs) (hu : .updatedAt ∈ cs) : AgreeBut cs r r' := by
  intro c hc
  refine h.same ?_ fun e => hc (e ▸ hu)
  cases hv : data c with
  | none => rfl
  | some v => exact absurd (hd c v hv) hc

theorem AgreeBut.mono {cs cs' : List Column} {r r' : Row} (h : AgreeBut cs r r') (hs : cs ⊆ cs') : AgreeBut cs' r r' :=
  fun c hc => h c fun hm => hc (hs hm)

/-- A change that keeps to the lifecycle's columns, and the path under `/r/`. -/
structure LifecycleChange (r r' : Row) : Prop where
  agree : AgreeBut LIFECYCLE r r'
  path : PathKept r r'

/-- A change that leaves the path alone. -/
theorem LifecycleChange.ofAgree {cs : List Column} {r r' : Row} (h : AgreeBut cs r r') (hs : cs ⊆ LIFECYCLE)
    (hp : .publicPath ∉ cs) : LifecycleChange r r' := ⟨h.mono hs, .same (h _ hp)⟩

/-- What data with a path writes: the path is a text. -/
theorem LifecycleChange.ofList {now : String} {kvs : List (Column × Json)} {r r' : Row}
    (h : WrittenRow now (Patch.ofList kvs) r r') (hk : ∀ p ∈ kvs, p.1 ∈ LIFECYCLE)
    (hp : ∀ p, r.val .publicPath = .str p → UnderRoutes p → ∃ p', Patch.ofList kvs .publicPath = some (.str p') ∧ UnderRoutes p') :
    LifecycleChange r r' := by
  refine ⟨h.agree (fun c v hv => hk (c, v) (Patch.mem_of_ofList hv)) (by decide), fun p hr hu => ?_⟩
  obtain ⟨p', hv, hu'⟩ := hp p hr hu
  exact ⟨p', writeField_str (h.field hv (by decide)), hu'⟩

/-- What data without a path writes. -/
theorem LifecycleChange.ofListNoPath {now : String} {kvs : List (Column × Json)} {r r' : Row}
    (h : WrittenRow now (Patch.ofList kvs) r r') (hk : ∀ p ∈ kvs, p.1 ∈ LIFECYCLE.erase .publicPath) : LifecycleChange r r' := by
  have agree : AgreeBut (LIFECYCLE.erase .publicPath) r r' :=
    h.agree (fun c v hv => hk (c, v) (Patch.mem_of_ofList hv)) (by decide)
  exact .ofAgree agree (by decide) (by decide)

/-- A change of a row that may reach its configuration. -/
inductive Reconfigured (W : World) (s : Store) (q : Request) (k : String) (r r' : Row) : Prop
  | updated {body : Json} {data : Patch} (he : q.endpoint = .route (.update k body)) (hm : manages s q.caller r)
      (hb : canBypass s q.caller k = true) (hd : routeData W (partialUpdate (routeBodySchema W)) body = .ok data)
      (h : UpdatedRow W s q.draw k data q.caller.userId r r')
  | restored {versionId : String} {v : RouteVersion} (he : q.endpoint = .route (.restoreVersion k versionId))
      (ha : q.caller.role = .ADMIN) (hv : s.routeVersions.get? versionId = some v)
      (h : UpdatedRow W s q.draw k (snapshotData v) q.caller.userId r r')
  | approved {op : ChangeOp} {cr : ChangeRequest} (he : q.endpoint = .change op)
      (ha : op.applies W s q.caller q.draw cr k) (h : WrittenRow q.draw.now (appliedData cr.payload) r r')

theorem bulkData_lifecycle {patch : BulkPatch} {userId : String} {r : Row} {c : Column} {v : Json}
    (h : bulkData patch userId r c = some v) : c ∈ LIFECYCLE.erase .publicPath := by
  have base : ∀ {v}, bulkBase patch userId c = some v → c ∈ LIFECYCLE.erase .publicPath := by
    intro v hv
    unfold bulkBase at hv
    split at hv
    · decide
    · decide
    · decide
    · cases hv
  unfold bulkData at h
  split at h
  · exact base h
  · by_cases e : c = .tags
    · subst e
      decide
    · rw [Patch.set_ne _ _ e] at h
      exact base h

theorem Freed.lifecycle {k : String} {r r' : Row} (h : Freed k r r') : LifecycleChange r r' := by
  obtain ⟨-, ⟨p, ending, hp, hp'⟩, hc⟩ := h
  refine ⟨fun c h => ?_, fun p₀ hp₀ hu => ?_⟩
  · simp only [LIFECYCLE, List.mem_cons, List.not_mem_nil, or_false, not_or] at h
    exact hc c h.2.2.2.2.2.1 h.2.2.2.1
  · obtain rfl : p = p₀ := Json.str.inj (hp.symm.trans hp₀)
    exact ⟨_, hp', hu.append ending⟩

theorem published_lifecycle {now userId : String} {r r' : Row} (h : WrittenRow now (publishData userId) r r') :
    LifecycleChange r r' := .ofListNoPath h (by simp [LIFECYCLE])

theorem deactivated_lifecycle {now userId : String} {r r' : Row} (h : WrittenRow now (deactivateData userId) r r') :
    LifecycleChange r r' := .ofListNoPath h (by simp [LIFECYCLE])

theorem archived_lifecycle {now id : String} {r r' : Row} (h : WrittenRow now (archiveData now id r) r r') :
    LifecycleChange r r' := by
  refine .ofList h (by simp [LIFECYCLE]) fun p hp hu => ⟨mangleText p id, ?_, hu.mangle id⟩
  rw [hp]
  rfl

theorem restored_lifecycle {s : Store} {now id userId : String} {r r' : Row}
    (h : WrittenRow now (restoreData s id userId r) r r') : LifecycleChange r r' := by
  refine .ofList h (by simp [LIFECYCLE]) fun p hp hu => ?_
  obtain ⟨p', hp', hu'⟩ := @restored_underRoutes s id p hu
  refine ⟨p', ?_, hu'⟩
  rw [← hp', ← hp]
  rfl

theorem bulkArchived_lifecycle {now id : String} {r r' : Row} (h : WrittenRow now (bulkArchiveData now id r) r r') :
    LifecycleChange r r' := by
  refine .ofList h (by simp [LIFECYCLE]) fun p hp hu => ⟨p ++ "__deleted_" ++ id, ?_, (hu.append _).append _⟩
  rw [Row.text, hp]
  rfl

/-- Everything but an update, the restore of a version and an approval keeps to the
    lifecycle's columns. -/
theorem changes_cases {W : World} {s : Store} {q : Request} {k : String} {r r' : Row} (h : q.changes W s k r r') :
    LifecycleChange r r' ∨ Reconfigured W s q k r r' := by
  obtain ⟨u, d, e⟩ := q
  cases e with
  | target op => exact h.elim
  | transform op => exact h.elim
  | member op => exact h.elim
  | folder op => exact Or.inl (.ofAgree h (by decide) (by decide))
  | group op =>
    cases op with
    | create body => exact h.elim
    | update id body => exact h.elim
    | delete id => exact Or.inl (.ofAgree h.2.2 (by decide) (by decide))
    | assign id routeId => exact Or.inl (.ofAgree h.2.2.2.2 (by decide) (by decide))
    | remove id routeId => exact Or.inl (.ofAgree h.2.2.2.2 (by decide) (by decide))
  | change op =>
    obtain ⟨cr, ha, h⟩ := h
    exact Or.inr (.approved rfl ha h)
  | route op =>
    cases op with
    | create body => exact Or.inl (Freed.lifecycle (k := k) h)
    | «import» draws body => exact Or.inl (Freed.lifecycle (k := k) h)
    | update id body =>
      rcases h with h | ⟨rfl, hm, hb, data, hd, h⟩
      · exact Or.inl (Freed.lifecycle (k := k) h)
      · exact Or.inr (.updated rfl hm hb hd h)
    | restoreVersion id versionId =>
      rcases h with h | ⟨rfl, ha, v, hv, -, h⟩
      · exact Or.inl (Freed.lifecycle (k := k) h)
      · exact Or.inr (.restored rfl ha hv h)
    | publish id => exact Or.inl (published_lifecycle h.2.2.2)
    | deactivate id => exact Or.inl (deactivated_lifecycle h.2.2.2)
    | delete id confirmName => exact Or.inl (archived_lifecycle h.2.2.2.2)
    | restore id => exact Or.inl (restored_lifecycle h.2.2.2)
    | bulkUpdate body =>
      obtain ⟨-, data, -, -, -, hw⟩ := h
      exact Or.inl (.ofAgree (hw.agree (fun c v hv => bulkData_lifecycle hv) (by decide)) (by decide) (by decide))
    | bulkPublish body =>
      obtain ⟨-, data, -, -, -, hw⟩ := h
      exact Or.inl (published_lifecycle hw)
    | bulkDeactivate body =>
      obtain ⟨-, data, -, -, -, hw⟩ := h
      exact Or.inl (deactivated_lifecycle hw)
    | bulkDelete body =>
      obtain ⟨data, -, -, -, -, -, hw⟩ := h
      exact Or.inl (bulkArchived_lifecycle hw)
    | deletePermanently id => exact h.elim
    | duplicate id => exact h.elim

end ClusterGate
