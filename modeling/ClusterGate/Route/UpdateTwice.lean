/-
  ClusterGate.Route.UpdateTwice — an update in two stores that differ only in secrets, by
  data that differ only in secrets.

  Up to the write the two updates go alike. Then the version goes up where a value is new,
  which a secret may decide: it may be the one stored in one store and another in the
  other. Where both count a version or neither does, the rows they return differ in the
  secrets the write leaves.
  - `readyUpdate_alike`: the checks, and what is written after them.
  - `storeUpdate_told`: exactly when the write returns the same in both.
  - `updateRoute_told`: exactly when the update does.
-/

import ClusterGate.Route.Veiled
import ClusterGate.ApprovedUpdate

namespace ClusterGate

open Lib Lib.Act Lib.Table

/-! ## Checking, then writing -/

/-- An update up to its write: the row it found, and the data it writes. -/
def readyUpdate (W : World) (d : Draw) (id : String) (data : Patch) : Handler (Row × Patch) := do
  let s ← read
  let existing ← orThrow (liveRoute? s id) (.notFound "Route")
  checkTargets W id existing data
  let data := updateData W s d id existing data
  when ((data .publicPath).getD .null).isStr
    (when (data .publicPath ≠ some (existing.val .publicPath))
      (freeSoftDeletedPublicPath d.now ((data .publicPath).getD .null)))
  checkRewriteRules W (data .rewriteRules)
  pure (existing, data)

/-- The rest of it. -/
def storeUpdate (d : Draw) (id userId : String) (ready : Row × Patch) : Handler Row := do
  let route ← routeUpdate d.now id (updatePatch ready.1 ready.2 userId)
  when (hasChanges ready.1 ready.2) (versionCreate d.versionId id (route.val .version) route userId)
  pure route

theorem updateRoute_eq (W : World) (d : Draw) (id : String) (data : Patch) (userId : String) :
    updateRoute W d id data userId = readyUpdate W d id data >>= storeUpdate d id userId := by
  unfold updateRoute readyUpdate
  simp only [bind_assoc]
  rfl

/-- The checks of an update pass, and `base` is the store it writes in. -/
structure UpdateReady (W : World) (s : Store) (d : Draw) (id : String) (existing : Row) (data : Patch) (base : Store) :
    Prop where
  targets : TargetsAllowed W s id existing data
  rules : RulesSafe W (updateData W s d id existing data .rewriteRules)
  base : updateBase d.now existing (updateData W s d id existing data) s = some base

section Ready

variable {W : World} {s t : Store} {d : Draw} {id userId : String} {data data' : Patch} {r r' : Row}

theorem readyUpdate_spec :
    wp (readyUpdate W d id data)
      (fun ready base => liveRoute? s id = some ready.1 ∧ ready.2 = updateData W s d id ready.1 data ∧
        UpdateReady W s d id ready.1 data base)
      (fun _ _ => ∀ r base, liveRoute? s id = some r → ¬UpdateReady W s d id r data base) s := by
  unfold readyUpdate
  rw [wp_bind, wp_read, wp_bind, wp_orThrow]
  refine ⟨fun r hr => ?_, fun hn r base hr => by rw [hn] at hr; cases hr⟩
  have none_ready : (∀ base, ¬UpdateReady W s d id r data base) →
      ∀ r' base, liveRoute? s id = some r' → ¬UpdateReady W s d id r' data base := by
    intro h r' base hr'
    obtain rfl : r = r' := Option.some.inj (hr.symm.trans hr')
    exact h base
  rw [wp_bind]
  refine wp_mono checkTargets_spec ?_ ?_
  · intro _ s₁ h
    obtain ⟨rfl, ht⟩ := h
    have rest : ∀ base, updateBase d.now r (updateData W s₁ d id r data) s₁ = some base →
        wp (do
          checkRewriteRules W (updateData W s₁ d id r data .rewriteRules)
          pure (r, updateData W s₁ d id r data))
          (fun ready base => liveRoute? s₁ id = some ready.1 ∧ ready.2 = updateData W s₁ d id ready.1 data ∧
            UpdateReady W s₁ d id ready.1 data base)
          (fun _ _ => ∀ r base, liveRoute? s₁ id = some r → ¬UpdateReady W s₁ d id r data base) base := by
      intro base hb
      rw [wp_bind]
      refine wp_mono checkRewriteRules_spec ?_ ?_
      · intro _ s₂ h
        obtain ⟨rfl, hrules⟩ := h
        exact ⟨hr, rfl, ht, hrules, hb⟩
      · intro _ _ h
        exact none_ready fun _ hready => h.2 hready.rules
    rw [wp_bind, wp_when]
    have same : ¬ (((updateData W s₁ d id r data .publicPath).getD .null).isStr = true ∧
        updateData W s₁ d id r data .publicPath ≠ some (r.val .publicPath)) →
        updateBase d.now r (updateData W s₁ d id r data) s₁ = some s₁ := fun h => if_neg h
    refine ⟨fun hs => ?_, fun hs => rest s₁ (same fun h => hs h.1)⟩
    rw [wp_when]
    refine ⟨fun hp => ?_, fun hp => rest s₁ (same fun h => hp h.2)⟩
    have base : updateBase d.now r (updateData W s₁ d id r data) s₁ =
        freedPath d.now ((updateData W s₁ d id r data .publicPath).getD .null) s₁ := if_pos ⟨hs, hp⟩
    refine wp_mono freeSoftDeletedPublicPath_spec (fun _ s₂ h => rest s₂ (base.trans h)) ?_
    intro e s₂ h
    refine none_ready fun b hready => ?_
    have hb := hready.base
    rw [base, h.1] at hb
    cases hb
  · intro _ _ h
    exact none_ready fun _ hready => h.2 hready.targets

theorem readyUpdate_ok {ready : Row × Patch} {base : Store} :
    readyUpdate W d id data s = (.ok ready, base) ↔ liveRoute? s id = some ready.1 ∧
      ready.2 = updateData W s d id ready.1 data ∧ UpdateReady W s d id ready.1 data base := by
  constructor
  · intro h
    have hspec := wp_ok readyUpdate_spec h
    exact hspec
  · intro h
    obtain ⟨hr, hp, hready⟩ := h
    rcases hx : readyUpdate W d id data s with ⟨e | found, base'⟩
    · exact absurd hready (wp_error readyUpdate_spec hx ready.1 base hr)
    · obtain ⟨hr', hp', hready'⟩ := wp_ok readyUpdate_spec hx
      have hrow : found.1 = ready.1 := Option.some.inj (hr'.symm.trans hr)
      have hfound : found = ready := Prod.ext hrow (by rw [hp', hp, hrow])
      have hbase := hready'.base
      rw [hrow, hready.base, Option.some.injEq] at hbase
      rw [hfound, hbase]

theorem withSlug_alike (h : Veiled s t) (hr : RowAlike r r') (hd : PatchAlike data data') :
    withSlug W s id r data .slug = withSlug W t id r' data' .slug := by
  have name : data .name = data' .name := hd.same (by decide)
  have slug : data .slug = data' .slug := hd.same (by decide)
  have old : r.val .name = r'.val .name := hr .name (by decide)
  unfold withSlug
  rw [name]
  cases data' .name with
  | none => exact slug
  | some v =>
    cases v with
    | str text =>
      dsimp only
      rw [slug, old, pickRouteSlug_same h]
      split
      · rw [Patch.set_same, Patch.set_same]
      · exact slug
    | _ => exact slug

theorem updateData_alike (h : Veiled s t) (hr : RowAlike r r') (hd : PatchAlike data data') :
    PatchAlike (updateData W s d id r data) (updateData W t d id r' data') := by
  intro c
  by_cases hc : c ∈ secretColumns
  · rw [updateData_secret hc, updateData_secret hc]
    rcases hd c with he | ⟨-, ha, ha'⟩
    · exact .inl (by rw [dropMasked, dropMasked, he])
    · have admitted : ∀ {p : Patch}, (∀ v, p c = some v → c.admits v = true) →
          ∀ v, (dropMasked p c).map (encryptSecret W (d.nonce c)) = some v → c.admits v = true := by
        intro p hp v hv
        obtain ⟨w, hw, rfl⟩ := Option.map_eq_some_iff.1 hv
        unfold dropMasked at hw
        split at hw
        · cases hw
        · exact encryptSecret_admits hc _ (hp w hw)
      exact .inr ⟨hc, admitted ha, admitted ha'⟩
  · refine .inl ?_
    by_cases hs : c = .slug
    · subst hs
      rw [updateData_slug, updateData_slug, withSlug_alike h hr hd]
    · by_cases ht : c = .targetUrl
      · subst ht
        rw [updateData_target, updateData_target, withTarget, withTarget, hd.same hc]
      · rw [updateData_ne hs ht hc, updateData_ne hs ht hc, hd.same hc]

theorem checkTargets_same (h : Veiled s t) (hr : RowAlike r r') (hd : PatchAlike data data') :
    Alike Veiled (fun _ _ => True) (checkTargets W id r data) (checkTargets W id r' data') s t := by
  have target : data .targetUrl = data' .targetUrl := hd.same (by decide)
  have old : r.val .targetUrl = r'.val .targetUrl := hr .targetUrl (by decide)
  have moves : movesTo r data = movesTo r' data' := by
    rw [movesTo, movesTo, hd.same (c := .organizationId) (by decide), hr .organizationId (by decide)]
  have org : effectiveOrg r data = effectiveOrg r' data' := by
    rw [effectiveOrg, effectiveOrg, moves, hr .organizationId (by decide)]
  -- the load-balancing targets, after the target itself
  have others : ∀ s t, Veiled s t → Alike Veiled (fun _ _ => True)
      (do
        let s ← read
        when (movesTo r' data').isSome ((s.routeTargets.filter fun _ t => t.routeId = id).rows.forM fun t =>
          assertRouteTargetAllowed W t.2.url (effectiveOrg r' data')))
      (do
        let s ← read
        when (movesTo r' data').isSome ((s.routeTargets.filter fun _ t => t.routeId = id).rows.forM fun t =>
          assertRouteTargetAllowed W t.2.url (effectiveOrg r' data'))) s t := by
    intro s t h
    refine alike_read_bind ?_
    rw [h.routeTargets]
    refine alike_when Iff.rfl h fun _ => ?_
    refine alike_forM (U := Eq) (List.forall₂_refl _) (fun a b s t _ _ hab h => ?_) s t h
    subst hab
    exact assertRouteTargetAllowed_same h rfl rfl
  unfold checkTargets
  rw [withTarget, withTarget, target, old, moves, org]
  refine alike_ite Iff.rfl (fun _ => ?_) fun _ => ?_
  · exact alike_bind (assertRouteTargetAllowed_same h rfl rfl) fun _ _ s t _ h => others s t h
  · refine alike_bind (alike_when Iff.rfl h fun _ => ?_) fun _ _ s t _ h => others s t h
    exact assertRouteTargetAllowed_same h rfl rfl

theorem readyUpdate_alike (h : Veiled s t) (hd : PatchAlike data data') :
    Alike Veiled (fun a b => RowAlike a.1 b.1 ∧ PatchAlike a.2 b.2) (readyUpdate W d id data) (readyUpdate W d id data')
      s t := by
  unfold readyUpdate
  refine alike_read_bind (alike_bind (alike_orThrow (liveRoute?_alike h id) h) fun r r' s' t' hr hv => ?_)
  obtain ⟨hr, -, -⟩ := hr
  have ready : PatchAlike (updateData W s d id r data) (updateData W t d id r' data') := updateData_alike h hr hd
  have path : updateData W s d id r data .publicPath = updateData W t d id r' data' .publicPath := ready.same (by decide)
  have rules : updateData W s d id r data .rewriteRules = updateData W t d id r' data' .rewriteRules := ready.same (by decide)
  have old : r.val .publicPath = r'.val .publicPath := hr .publicPath (by decide)
  refine alike_bind (checkTargets_same hv hr hd) fun _ _ s' t' _ hv => ?_
  dsimp only
  rw [path, rules, old]
  refine alike_bind (alike_when Iff.rfl hv fun _ => alike_when Iff.rfl hv fun _ => freeSoftDeletedPublicPath_same hv) fun _ _ s' t' _ hv => ?_
  refine alike_bind (checkRewriteRules_same hv) fun _ _ s' t' _ hv => ?_
  exact alike_pure hv ⟨hr, ready⟩

end Ready

/-! ## The write -/

/-- The database takes the write, and the id the new version needs is free. -/
structure UpdateStored (d : Draw) (id userId : String) (base : Store) (r : Row) (p : Patch) : Prop where
  takes : Takes base d.now id (updatePatch r p userId)
  free : hasChanges r p = true → base.routeVersions.get? d.versionId = none

/-- The write returns the same in both stores: it counts a version in both or in neither
    and leaves the same secrets, or the database refuses it in both for the same reason. -/
def StoreTold (d : Draw) (id userId : String) (base base' : Store) (r r' : Row) (p p' : Patch) : Prop :=
  (hasChanges r p = hasChanges r' p' ∧
      (UpdateStored d id userId base r p → ∀ c ∈ secretColumns, written r p c = written r' p' c)) ∨
    (hasChanges r p ≠ hasChanges r' p' ∧ ∃ e, routeWrite base d.now id (updatePatch r p userId) = .error e ∧
      routeWrite base' d.now id (updatePatch r' p' userId) = .error e)

section Store

variable {base base' : Store} {d : Draw} {id userId : String} {r r' row : Row} {p p' : Patch}

theorem storeUpdate_spec :
    wp (storeUpdate d id userId (r, p))
      (fun row _ => routeWrite base d.now id (updatePatch r p userId) = .ok row ∧
        (hasChanges r p = true → base.routeVersions.get? d.versionId = none))
      (fun _ _ => ¬UpdateStored d id userId base r p) base := by
  unfold storeUpdate
  rw [wp_bind]
  refine wp_mono routeUpdate_spec ?_ ?_
  · intro row s h
    obtain ⟨hw, rfl⟩ := h
    simp only [wp_bind, wp_when, wp_pure, versionCreate, wp_read, wp_require, wp_modify]
    refine ⟨fun hc => ⟨fun hf => ⟨hw, fun _ => ?_⟩, fun hn hs => hn ?_⟩, fun hc => ⟨hw, fun h => absurd h hc⟩⟩
    · exact Option.isNone_iff_eq_none.1 hf
    · exact Option.isNone_iff_eq_none.2 (hs.free hc)
  · intro e s h hs
    obtain ⟨row, hrow⟩ := routeWrite_takes.2 hs.takes
    rw [hrow] at h
    cases h.1

/-- Nothing else decides what the write returns. -/
theorem storeUpdate_ok :
    ((storeUpdate d id userId (r, p)) base).1 = .ok row ↔ routeWrite base d.now id (updatePatch r p userId) = .ok row ∧
      (hasChanges r p = true → base.routeVersions.get? d.versionId = none) := by
  constructor
  · exact fun h => wp_outcome_ok storeUpdate_spec h
  · intro h
    cases hx : ((storeUpdate d id userId (r, p)) base).1 with
    | error e => exact absurd ⟨routeWrite_takes.1 ⟨row, h.1⟩, h.2⟩ (wp_outcome_error storeUpdate_spec hx)
    | ok row' =>
      have hrow := (wp_outcome_ok storeUpdate_spec hx).1
      rw [h.1, Except.ok.injEq] at hrow
      rw [hrow]

theorem storeUpdate_refused {e : Err} (h : routeWrite base d.now id (updatePatch r p userId) = .error e) :
    ((storeUpdate d id userId (r, p)) base).1 = .error e := by
  have spec : wp (storeUpdate d id userId (r, p)) (fun _ _ => False) (fun f _ => f = e) base := by
    unfold storeUpdate
    rw [wp_bind]
    refine wp_mono routeUpdate_spec (fun row _ hw => ?_) fun f _ hw => ?_
    · rw [h] at hw
      cases hw.1
    · have he := hw.1
      rw [h, Except.error.injEq] at he
      exact he.symm
  cases hx : ((storeUpdate d id userId (r, p)) base).1 with
  | error f => rw [wp_outcome_error spec hx]
  | ok row => exact (wp_outcome_ok spec hx).elim

theorem updatePatch_secret {c : Column} (hc : c ∈ secretColumns) :
    stamped d.now (updatePatch r p userId) c = p c := by
  simp only [secretColumns, List.mem_cons, List.not_mem_nil, or_false] at hc
  rcases hc with rfl | rfl | rfl <;>
  · rw [stamped_ne (by decide), updatePatch_ne (by decide) (by decide)]

/-- The secrets of the row a write leaves. -/
theorem routeWrite_secret (hr : base.routes.get? id = some r)
    (hw : routeWrite base d.now id (updatePatch r p userId) = .ok row) {c : Column} (hc : c ∈ secretColumns) :
    written r p c = some (row.val c) := by
  obtain ⟨old, ho, hrow⟩ := routeWrite_ok hw
  obtain rfl : r = old := Option.some.inj (hr.symm.trans ho)
  have hval := write_val hrow c
  rwa [written, updatePatch_secret hc] at hval

theorem updatePatch_alike (hc : hasChanges r p = hasChanges r' p') (hp : PatchAlike p p') :
    PatchAlike (updatePatch r p userId) (updatePatch r' p' userId) := by
  unfold updatePatch
  rw [hc]
  cases hasChanges r' p' with
  | true => exact (hp.set .version increment).set .updatedById _
  | false => exact hp.set .updatedById _

theorem storeUpdate_alike (h : Veiled base base') (hc : hasChanges r p = hasChanges r' p') (hp : PatchAlike p p') :
    Alike Veiled RowAlike (storeUpdate d id userId (r, p)) (storeUpdate d id userId (r', p')) base base' := by
  unfold storeUpdate
  refine alike_bind (routeUpdate_alike h (updatePatch_alike hc hp)) fun a b s t hab h => ?_
  dsimp only
  rw [hc, hab .version (by decide)]
  refine alike_bind (alike_when Iff.rfl h fun _ => versionCreate_same h hab) fun _ _ s t _ h => ?_
  exact alike_pure h hab

theorem storeUpdate_counted_alike (h : Veiled base base') (hr : base.routes.get? id = some r)
    (hr' : base'.routes.get? id = some r') (hc : hasChanges r p = hasChanges r' p') (hp : PatchAlike p p') :
    ((storeUpdate d id userId (r, p)) base).1 = ((storeUpdate d id userId (r', p')) base').1 ↔
      (UpdateStored d id userId base r p → ∀ c ∈ secretColumns, written r p c = written r' p' c) := by
  constructor
  · intro hsame hs c hm
    obtain ⟨row, hrow⟩ := routeWrite_takes.2 hs.takes
    -- the same row comes back in the other store
    have hok : ((storeUpdate d id userId (r', p')) base').1 = .ok row := hsame ▸ storeUpdate_ok.2 ⟨hrow, hs.free⟩
    have hrow' := (storeUpdate_ok.1 hok).1
    rw [routeWrite_secret hr hrow hm, routeWrite_secret hr' hrow' hm]
  · intro hsecrets
    refine (storeUpdate_alike h hc hp).outcome_iff.2 fun a b ha hb hab => ?_
    obtain ⟨hwa, hfree⟩ := storeUpdate_ok.1 ha
    obtain ⟨hwb, -⟩ := storeUpdate_ok.1 hb
    refine hab.eq_iff.2 fun c hm => ?_
    have hval := hsecrets ⟨routeWrite_takes.1 ⟨a, hwa⟩, hfree⟩ c hm
    rw [routeWrite_secret hr hwa hm, routeWrite_secret hr' hwb hm] at hval
    exact Option.some.inj hval

/-- A number counted up is another number. -/
theorem increment_ne {c : Column} {old v : Json} (ht : c.type = .int) (h : writeField c old increment = some v) :
    v ≠ old := by
  have hno : c.admits increment = false := by
    unfold Column.admits
    rw [ht]
    simp [increment, ColType.admits, Json.int?]
  unfold writeField at h
  rw [Column.coerce, ColType.coerce_of_not_num (v := increment) (fun q e => by cases e), hno, ht] at h
  have hf := (Option.filter_eq_some_iff.1 h).1
  rw [ColType.coerce_admitted (by decide)] at hf
  simp only [fieldOp] at hf
  obtain ⟨n, hn, rfl⟩ := Option.map_eq_some_iff.1 hf
  obtain ⟨a, ha, hb⟩ := Option.bind_eq_some_iff.1 hn
  obtain ⟨one, h1, rfl⟩ := Option.map_eq_some_iff.1 hb
  intro he
  obtain rfl : one = 1 := Option.some.inj (h1.symm.trans (by simp [Json.int?]))
  have hsum : Json.int? (.num ((a + 1 : Int) : Rat)) = some (a + 1) := by
    rw [Json.int?, Rat.den_intCast, Rat.num_intCast, if_pos rfl]
  rw [he, ha] at hsum
  have := Option.some.inj hsum
  omega

/-- The database takes a write without the version it takes with one. -/
theorem Takes.unversioned {s : Store} {now : String} {q q' : Patch} (h : Takes s now id q)
    (hq : ∀ c, c ≠ .version → q c = q' c) (hn : q' .version = none) : Takes s now id q' := by
  obtain ⟨old, row, ho, hw, hu, hf⟩ := h
  have stamp : ∀ c, c ≠ .version → stamped now q c = stamped now q' c := by
    intro c hc
    by_cases ha : c = .updatedAt
    · subst ha
      rw [stamped, stamped, Patch.set_same, Patch.set_same]
    · rw [stamped_ne ha, stamped_ne ha, hq c hc]
  have same : ∀ c, c ≠ .version → written old (stamped now q') c = some (row.val c) := by
    intro c hc
    rw [← write_val hw c, written, written, stamp c hc]
  have hsome : (old.write (stamped now q')).isSome := by
    refine write_isSome.2 fun c => ?_
    by_cases hc : c = .version
    · subst hc
      rw [written, stamped_ne (by decide), hn]
      rfl
    · rw [same c hc]
      rfl
  obtain ⟨row', hw'⟩ := Option.isSome_iff_exists.1 hsome
  have rows : ∀ c, c ≠ .version → row'.val c = row.val c := by
    intro c hc
    have hval := write_val hw' c
    rw [same c hc] at hval
    exact (Option.some.inj hval).symm
  refine ⟨old, row', ho, hw', ?_, ?_⟩
  · rw [← hu]
    unfold uniqueOk
    rw [← hq .publicPath (by decide), ← hq .slug (by decide), rows .publicPath (by decide), rows .slug (by decide)]
  · rw [← hf]
    unfold refsOk
    rw [← hq .organizationId (by decide), ← hq .routeGroupId (by decide), ← hq .folderId (by decide),
      rows .organizationId (by decide), rows .routeGroupId (by decide), rows .folderId (by decide)]

theorem Takes.alike {now : String} {q q' : Patch} (h : Veiled base base') (hq : PatchAlike q q')
    (ht : Takes base now id q) : Takes base' now id q' := by
  obtain ⟨row, hrow⟩ := routeWrite_takes.2 ht
  have hsame : Act.SameOutcome RowAlike (routeWrite base now id q) (routeWrite base' now id q') := routeWrite_alike h hq
  rw [hrow] at hsame
  cases hw : routeWrite base' now id q' with
  | error e =>
    rw [hw] at hsame
    exact hsame.elim
  | ok row' => exact routeWrite_takes.1 ⟨row', hw⟩

theorem updatePatch_counted (hc : hasChanges r p = true) :
    updatePatch r p userId = (p.set .version increment).set .updatedById (.str userId) := by
  rw [updatePatch, if_pos hc]

theorem updatePatch_uncounted (hc : hasChanges r p = false) : updatePatch r p userId = p.set .updatedById (.str userId) := by
  rw [updatePatch, hc]
  rfl

theorem routeWrite_version_counted (hr : base.routes.get? id = some r) (hc : hasChanges r p = true)
    (hw : routeWrite base d.now id (updatePatch r p userId) = .ok row) : row.val .version ≠ r.val .version := by
  obtain ⟨old, ho, hrow⟩ := routeWrite_ok hw
  obtain rfl : r = old := Option.some.inj (hr.symm.trans ho)
  refine increment_ne rfl (write_field hrow ?_)
  rw [stamped_ne (by decide), updatePatch_counted hc, Patch.set_ne _ _ (by decide), Patch.set_same]

theorem routeWrite_version_kept (hr : base.routes.get? id = some r) (hc : hasChanges r p = false) (hv : p .version = none)
    (hw : routeWrite base d.now id (updatePatch r p userId) = .ok row) : row.val .version = r.val .version := by
  obtain ⟨old, ho, hrow⟩ := routeWrite_ok hw
  obtain rfl : r = old := Option.some.inj (hr.symm.trans ho)
  refine write_same hrow ?_
  rw [stamped_ne (by decide), updatePatch_uncounted hc, Patch.set_ne _ _ (by decide), hv]

/-- Where only the first counts a version, it returns what the second returns only if it is
    refused. -/
theorem storeUpdate_uncounted (h : Veiled base base') (hrow : RowAlike r r') (hr : base.routes.get? id = some r)
    (hr' : base'.routes.get? id = some r') (hp : PatchAlike p p') (hv' : p' .version = none)
    (hc : hasChanges r p = true) (hc' : hasChanges r' p' = false)
    (hsame : ((storeUpdate d id userId (r, p)) base).1 = ((storeUpdate d id userId (r', p')) base').1) :
    ∃ e, routeWrite base d.now id (updatePatch r p userId) = .error e ∧
      routeWrite base' d.now id (updatePatch r' p' userId) = .error e := by
  have stored' : ∀ row, routeWrite base' d.now id (updatePatch r' p' userId) = .ok row →
      ((storeUpdate d id userId (r', p')) base').1 = .ok row :=
    fun row hw => storeUpdate_ok.2 ⟨hw, fun hn => by rw [hc'] at hn; cases hn⟩
  cases hw : routeWrite base d.now id (updatePatch r p userId) with
  | ok row =>
    -- the second is written too, and with another version
    have takes : Takes base' d.now id (updatePatch r' p' userId) := by
      have ht := (routeWrite_takes.1 ⟨row, hw⟩).alike h (updatePatch_counted hc ▸ (hp.set .version increment).set .updatedById _)
      refine ht.unversioned (fun c hne => ?_) ?_
      · rw [updatePatch_uncounted hc']
        by_cases hby : c = .updatedById
        · subst hby
          rw [Patch.set_same, Patch.set_same]
        · rw [Patch.set_ne _ _ hby, Patch.set_ne _ _ hne, Patch.set_ne _ _ hby]
      · rw [updatePatch_uncounted hc', Patch.set_ne _ _ (by decide), hv']
    obtain ⟨row', hw'⟩ := routeWrite_takes.2 takes
    have hok := (storeUpdate_ok.1 (hsame.trans (stored' row' hw'))).1
    have counted := routeWrite_version_counted hr hc hok
    have kept := routeWrite_version_kept hr' hc' hv' hw'
    exact absurd (kept.trans (hrow .version (by decide)).symm) counted
  | error e =>
    refine ⟨e, rfl, ?_⟩
    cases hw' : routeWrite base' d.now id (updatePatch r' p' userId) with
    | ok row' =>
      have hok := hsame ▸ stored' row' hw'
      rw [storeUpdate_refused hw] at hok
      cases hok
    | error e' =>
      rw [storeUpdate_refused hw, storeUpdate_refused hw', Except.error.injEq] at hsame
      rw [hsame]

theorem storeUpdate_told (h : Veiled base base') (hrow : RowAlike r r') (hr : base.routes.get? id = some r)
    (hr' : base'.routes.get? id = some r') (hp : PatchAlike p p') (hv : p .version = none) (hv' : p' .version = none) :
    ((storeUpdate d id userId (r, p)) base).1 = ((storeUpdate d id userId (r', p')) base').1 ↔
      StoreTold d id userId base base' r r' p p' := by
  by_cases hc : hasChanges r p = hasChanges r' p'
  · rw [storeUpdate_counted_alike h hr hr' hc hp]
    exact ⟨fun hs => .inl ⟨hc, hs⟩, fun ht => (ht.resolve_right fun hn => hn.1 hc).2⟩
  · constructor
    · intro hsame
      refine .inr ⟨hc, ?_⟩
      cases hone : hasChanges r p with
      | true =>
        have hother : hasChanges r' p' = false := by
          rw [hone] at hc
          exact Bool.eq_false_iff.2 (Ne.symm hc)
        exact storeUpdate_uncounted h hrow hr hr' hp hv' hone hother hsame
      | false =>
        have hother : hasChanges r' p' = true := by
          rw [hone] at hc
          exact Bool.eq_true_of_not_eq_false (Ne.symm hc)
        obtain ⟨e, he', he⟩ := storeUpdate_uncounted h.symm hrow.symm hr' hr hp.symm hv hother hone hsame.symm
        exact ⟨e, he, he'⟩
    · intro ht
      obtain ⟨-, e, he, he'⟩ := ht.resolve_left fun hs => hc hs.1
      rw [storeUpdate_refused he, storeUpdate_refused he']

end Store

/-! ## The update -/

/-- Wherever both updates reach their write, it returns the same. -/
def UpdateTold (W : World) (d : Draw) (id userId : String) (s t : Store) (data data' : Patch) : Prop :=
  ∀ r r' base base', liveRoute? s id = some r → liveRoute? t id = some r' → UpdateReady W s d id r data base →
    UpdateReady W t d id r' data' base' →
    StoreTold d id userId base base' r r' (updateData W s d id r data) (updateData W t d id r' data')

section Update

variable {W : World} {s t : Store} {d : Draw} {id userId : String} {data data' : Patch}

theorem updateRoute_told (h : Veiled s t) (hd : PatchAlike data data') (hv : data .version = none) :
    ((updateRoute W d id data userId) s).1 = ((updateRoute W d id data' userId) t).1 ↔
      UpdateTold W d id userId s t data data' := by
  have version : ∀ {s : Store} {r : Row} {data : Patch}, data .version = none →
      updateData W s d id r data .version = none := fun hv => by
    rw [updateData_ne (by decide) (by decide) (by decide), hv]
  have hv' : data' .version = none := (hd.same (by decide)).symm.trans hv
  have same : ∀ r r' base base', RowAlike r r' → Veiled base base' →
      liveRoute? s id = some r → liveRoute? t id = some r' → UpdateReady W s d id r data base →
      UpdateReady W t d id r' data' base' →
      PatchAlike (updateData W s d id r data) (updateData W t d id r' data') →
      (((storeUpdate d id userId (r, updateData W s d id r data)) base).1 =
          ((storeUpdate d id userId (r', updateData W t d id r' data')) base').1 ↔
        StoreTold d id userId base base' r r' (updateData W s d id r data) (updateData W t d id r' data')) := by
    intro r r' base base' hrow hbase hr hr' hready hready' hp
    obtain ⟨hg, hl⟩ := liveRoute?_iff.1 hr
    obtain ⟨hg', hl'⟩ := liveRoute?_iff.1 hr'
    exact storeUpdate_told hbase hrow (updateBase_live hready.base hg hl).1 (updateBase_live hready'.base hg' hl').1 hp
      (version hv) (version hv')
  rw [updateRoute_eq, updateRoute_eq, (readyUpdate_alike h hd).outcome_bind_iff]
  constructor
  · intro hall r r' base base' hr hr' hready hready'
    have hx : readyUpdate W d id data s = (.ok (r, updateData W s d id r data), base) :=
      readyUpdate_ok.2 ⟨hr, rfl, hready⟩
    have hy : readyUpdate W d id data' t = (.ok (r', updateData W t d id r' data'), base') :=
      readyUpdate_ok.2 ⟨hr', rfl, hready'⟩
    have halike : Alike _ _ (readyUpdate W d id data) (readyUpdate W d id data') s t := readyUpdate_alike h hd
    unfold Act.Alike at halike
    rw [hx, hy] at halike
    obtain ⟨⟨hrow, hp⟩, hbase⟩ := halike
    exact (same r r' base base' hrow hbase hr hr' hready hready' hp).1 (hall _ _ _ _ hx hy ⟨hrow, hp⟩ hbase)
  · intro htold a b base base' hx hy hab hbase
    obtain ⟨hr, hp, hready⟩ := readyUpdate_ok.1 hx
    obtain ⟨hr', hp', hready'⟩ := readyUpdate_ok.1 hy
    obtain ⟨r, p⟩ := a
    obtain ⟨r', p'⟩ := b
    dsimp only at hr hp hready hr' hp' hready' hab
    subst hp hp'
    exact (same r r' base base' hab.1 hbase hr hr' hready hready' hab.2).2 (htold r r' base base' hr hr' hready hready')

end Update

end ClusterGate
