/-
  ClusterGate.Route.VersionRestore — going back to a stored version of a route
  (`services/routeService.ts`: `restoreRouteVersion`).

  A version holds the whole row, as it was when it was stored. A restore sends it through
  `updateRoute` without the row's bookkeeping: everything else is written back, the state
  of the circuit breaker too, and whatever an update makes of its data is made of it. The
  target is cut once more, a slug is found for a name that is not the route's, and a secret
  that reads as the mask is left alone.
  - `restoreRouteVersion_returns`: what a restore that went through wrote.
  - `restored_version_iff`: after any run, the configuration is the version's and the rest
    stays exactly if the version meets `Restores`.
  - `a_restore_closes_the_breaker`: a route whose breaker opened after its version.
-/

import ClusterGate.Route.FreeSlug
import ClusterGate.Route.Names
import ClusterGate.Route.Written

namespace ClusterGate

open Lib Lib.Act Lib.Table

/-! ## Columns -/

/-- What the proxy writes of a route as it serves it. -/
def SERVED : List Column := [.cbState, .cbFailureCount, .cbLastFailureAt, .cbOpenedAt, .lbRrIndex]

/-- The columns of a row that are neither configuration nor runtime. -/
def BOOKKEEPING : List Column := [.version, .createdAt, .updatedAt, .createdById, .updatedById]

/-- What going back to a version should make of a route: its configuration the version's, the
    rest as it was. -/
structure RestoredTo (W : World) (snapshot : Column → Json) (r r' : Row) : Prop where
  configuration : ∀ c, c ∉ SERVED → c ≠ .deletedAt → c ∉ BOOKKEEPING → c ∉ secretColumns → r'.val c = snapshot c
  secrets : ∀ c ∈ secretColumns, decryptSecret W (r'.text c) = decryptSecret W (snapshot c).str?
  runtime : ∀ c ∈ SERVED, r'.val c = r.val c
  archive : r'.val .deletedAt = r.val .deletedAt

/-! ## Slugs -/

/-- Nothing of a name makes a slug, or other routes have every slug it could have. -/
def NoSlugFor (W : World) (s : Store) (id name : String) : Prop :=
  ∀ base, slugify W name = some base → ∀ n, n < 50 → HeldByOther s id .slug (.str (slugCandidate base n))

theorem pickRouteSlug_none {W : World} {s : Store} {id name : String} :
    pickRouteSlug W s name (some id) = none ↔ NoSlugFor W s id name := by
  have clash : ∀ t, (s.routes.any fun k r => some id ≠ some k && r.val .slug = .str t) = true ↔ HeldByOther s id .slug (.str t) := by
    intro t
    simp only [any_iff, HeldByOther, Bool.and_eq_true, decide_eq_true_eq, ne_eq, Option.some.injEq]
    constructor
    · rintro ⟨k, r, hr, hne, hv⟩
      exact ⟨k, r, Ne.symm hne, hr, hv⟩
    · rintro ⟨k, r, hne, hr, hv⟩
      exact ⟨k, r, hr, Ne.symm hne, hv⟩
  unfold pickRouteSlug NoSlugFor
  cases slugify W name with
  | none => simp
  | some base =>
    rw [Option.bind_some]
    refine (slugLoop_none 50 0).trans ?_
    simp only [clash, Nat.zero_add, Option.some.injEq, forall_eq']

theorem pickRouteSlug_ne_empty {W : World} {s : Store} {name slug : String} {id : Option String}
    (h : pickRouteSlug W s name id = some slug) : slug ≠ "" := by
  obtain ⟨base, hb, hloop⟩ := Option.bind_eq_some_iff.1 h
  obtain ⟨n, rfl⟩ := slugLoop_some 50 0 hloop
  exact slugCandidate_ne_empty (slugify_ne_empty hb) n

/-! ## The versions a route goes back to -/

/-- The target is one that is not cut any further, the name is the route's, comes with its
    slug or has none to give, no secret is the mask, and breaker and balancer are where they
    were. -/
structure Restores (W : World) (s : Store) (id : String) (snapshot : Column → Json) (r : Row) : Prop where
  target : ∀ url, snapshot .targetUrl = .str url → normalizeTarget url = url
  slug : (snapshot .slug).truthy = true ∨ snapshot .name = r.val .name ∨
    snapshot .slug = .null ∧ ∀ name, snapshot .name = .str name → NoSlugFor W s id name
  secrets : ∀ c ∈ secretColumns, snapshot c = MASK → decryptSecret W (r.text c) = decryptSecret W MASK.str?
  runtime : ∀ c ∈ SERVED, snapshot c = r.val c
  archive : snapshot .deletedAt = r.val .deletedAt

/-- Every value of a snapshot is of its column's type, as in the row it was taken of. -/
def Typed (snapshot : Column → Json) : Prop := ∀ c : Column, c.admits (snapshot c) = true

section Restoring

variable {W : World} {s s' : Store} {d : Draw} {id versionId userId : String} {v : RouteVersion} {r r' : Row}

/-- What a version's restore wrote, if it went through. -/
theorem restoreRouteVersion_returns (hv : s.routeVersions.get? versionId = some v)
    (hr : s.routes.get? id = some r) (h : Returns (restoreRouteVersion W d id versionId userId) s r' s') :
    v.routeId = id ∧ s'.routes.get? id = some r' ∧ UpdatedRow W s d id (snapshotData v) userId r r' := by
  unfold restoreRouteVersion at h
  simp only [returns_read_bind, returns_orThrow_bind, hv] at h
  obtain ⟨w, hw, h⟩ := h
  obtain ⟨hvw, hid⟩ := Option.filter_eq_some_iff.1 hw
  obtain rfl : v = w := Option.some.inj hvw
  obtain ⟨old, t, hupdate, -, rfl⟩ := wp_returns updateRoute_spec h
  obtain rfl : r = old := Option.some.inj (hr.symm.trans (liveRoute?_iff.1 hupdate.live).1)
  refine ⟨by simpa using hid, ?_, hupdate.row⟩
  show (t.modify id fun _ => r').get? id = some r'
  rw [get?_modify, if_pos rfl, hupdate.found]
  rfl

theorem snapshotData_some {c : Column} (hc : c ∉ BOOKKEEPING) : snapshotData v c = some (v.snapshot c) := by
  have hkept : c ∉ [Column.version, .createdAt, .updatedAt, .createdById, .updatedById] := hc
  rw [snapshotData, Patch.remove, if_neg hkept]

/-- The columns a restore does not simply write back. -/
theorem derived_cases {c : Column} (hd : c ∈ DERIVED) (hb : c ∉ BOOKKEEPING) (hs : c ∉ secretColumns) :
    c = .slug ∨ c = .targetUrl := by
  cases c <;> simp_all [DERIVED, BOOKKEEPING, secretColumns]

/-- Most columns are the version's. -/
theorem restored_same (h : UpdatedRow W s d id (snapshotData v) userId r r') (typed : Typed v.snapshot) {c : Column}
    (hd : c ∉ DERIVED) (hb : c ∉ BOOKKEEPING) : r'.val c = v.snapshot c :=
  h.plain hd (snapshotData_some hb) (typed c)

/-- The target is the version's, cut once more. -/
theorem restored_target (h : UpdatedRow W s d id (snapshotData v) userId r r') {url : String}
    (ht : v.snapshot .targetUrl = .str url) :
    r'.val .targetUrl = .str (normalizeTarget url) := by
  have hdata : snapshotData v .targetUrl = some (.str url) := by rw [snapshotData_some (by decide), ht]
  by_cases hempty : url = ""
  · subst hempty
    refine h.2.2.plain ?_ (by decide) rfl
    rw [updatePatch_ne (by decide) (by decide), updateData_target, hdata]
    rfl
  · exact h.target hdata hempty

/-- The slug is the version's, or what an update finds for a name that is not the route's. -/
theorem restored_slug (h : UpdatedRow W s d id (snapshotData v) userId r r') (typed : Typed v.snapshot) {name : String}
    (hn : v.snapshot .name = .str name) :
    r'.val .slug = if v.snapshot .name = r.val .name ∨ (v.snapshot .slug).truthy = true then v.snapshot .slug
      else slugJson (pickRouteSlug W s name (some id)) := by
  have hname : snapshotData v .name = some (.str name) := by rw [snapshotData_some (by decide), hn]
  have hslug : snapshotData v .slug = some (v.snapshot .slug) := snapshotData_some (by decide)
  have picked : Column.slug.admits (slugJson (pickRouteSlug W s name (some id))) = true := by
    cases pickRouteSlug W s name (some id) with
    | none => rfl
    | some t => rfl
  have data : updatePatch r (updateData W s d id r (snapshotData v)) userId .slug = withSlug W s id r (snapshotData v) .slug := by
    rw [updatePatch_ne (by decide) (by decide), updateData_slug]
  by_cases hkeep : v.snapshot .name = r.val .name ∨ (v.snapshot .slug).truthy = true
  · rw [if_pos hkeep]
    refine h.2.2.plain (data.trans ?_) (by decide) (typed .slug)
    rw [withSlug, hname]
    rw [hn] at hkeep
    simp only [hslug, Option.getD_some]
    rw [if_neg (by tauto), hslug]
  · rw [if_neg hkeep]
    refine h.2.2.plain (data.trans ?_) (by decide) picked
    rw [withSlug, hname]
    rw [hn] at hkeep
    simp only [hslug, Option.getD_some]
    rw [if_pos (by tauto), Patch.set_same]

/-- A secret is the version's, sealed if it was not, unless it is the mask. -/
theorem restored_secret (h : UpdatedRow W s d id (snapshotData v) userId r r') (typed : Typed v.snapshot) {c : Column}
    (hc : c ∈ secretColumns) :
    r'.val c = if v.snapshot c = MASK then r.val c else encryptSecret W (d.nonce c) (v.snapshot c) := by
  have hb : c ∉ BOOKKEEPING := by
    simp only [secretColumns, List.mem_cons, List.not_mem_nil, or_false] at hc
    rcases hc with rfl | rfl | rfl <;> decide
  have bookkept : c ≠ .version ∧ c ≠ .updatedById ∧ c ≠ .updatedAt := by
    refine ⟨?_, ?_, ?_⟩ <;>
    · rintro rfl
      exact hb (by decide)
  have data : updatePatch r (updateData W s d id r (snapshotData v)) userId c =
      (dropMasked (snapshotData v) c).map (encryptSecret W (d.nonce c)) := by
    rw [updatePatch_ne bookkept.1 bookkept.2.1, updateData_secret hc]
  rw [dropMasked, snapshotData_some hb] at data
  by_cases hm : v.snapshot c = MASK
  · rw [if_pos ⟨hc, congrArg some hm⟩, Option.map_none] at data
    rw [if_pos hm]
    exact h.2.2.same data bookkept.2.2
  · rw [if_neg fun h => hm (Option.some.inj h.2), Option.map_some] at data
    rw [if_neg hm]
    exact h.2.2.plain data bookkept.2.2 (encryptSecret_admits hc _ (typed c))

theorem Typed.string {snapshot : Column → Json} (typed : Typed snapshot) {c : Column} (ht : c.type = .string)
    (hn : c.nullable = false) : ∃ text, snapshot c = .str text := Row.string_val ⟨snapshot, typed⟩ ht hn

theorem not_derived {c : Column} (hc : c ∈ SERVED ∨ c = .deletedAt) : c ∉ DERIVED ∧ c ∉ BOOKKEEPING := by
  rcases hc with hc | rfl
  · simp only [SERVED, List.mem_cons, List.not_mem_nil, or_false] at hc
    rcases hc with rfl | rfl | rfl | rfl | rfl <;> decide
  · decide

theorem UpdatedRow.restores (h : UpdatedRow W s d id (snapshotData v) userId r r') (typed : Typed v.snapshot)
    (hr : RestoredTo W v.snapshot r r') : Restores W s id v.snapshot r where
  target url ht := by
    have hsame : r'.val .targetUrl = v.snapshot .targetUrl := hr.configuration _ (by decide) (by decide) (by decide) (by decide)
    rw [restored_target h ht, ht] at hsame
    exact Json.str.inj hsame
  slug := by
    obtain ⟨name, hn⟩ := typed.string (c := .name) rfl rfl
    have hsame : r'.val .slug = v.snapshot .slug := hr.configuration _ (by decide) (by decide) (by decide) (by decide)
    rw [restored_slug h typed hn] at hsame
    by_cases hkeep : v.snapshot .name = r.val .name ∨ (v.snapshot .slug).truthy = true
    · rcases hkeep with hname | hslug
      · exact .inr (.inl hname)
      · exact .inl hslug
    · rw [if_neg hkeep] at hsame
      refine .inr (.inr ?_)
      cases hp : pickRouteSlug W s name (some id) with
      | none =>
        refine ⟨by rw [← hsame, hp]; rfl, fun name' hn' => ?_⟩
        obtain rfl : name = name' := Json.str.inj (hn.symm.trans hn')
        exact pickRouteSlug_none.1 hp
      | some slug =>
        -- a slug that is found has a character
        refine absurd (.inr ?_) hkeep
        rw [← hsame, hp]
        simpa [slugJson] using pickRouteSlug_ne_empty hp
  secrets c hc hm := by
    have hkept : r'.val c = r.val c := by rw [restored_secret h typed hc, if_pos hm]
    have hread := hr.secrets c hc
    rw [Row.text, hkept, hm] at hread
    exact hread
  runtime c hc := by
    obtain ⟨hd, hb⟩ := not_derived (.inl hc)
    rw [← restored_same h typed hd hb, hr.runtime c hc]
  archive := by
    obtain ⟨hd, hb⟩ := not_derived (.inr rfl)
    rw [← restored_same h typed hd hb, hr.archive]

theorem UpdatedRow.restoredTo (hW : W.cipher.Ideal) (h : UpdatedRow W s d id (snapshotData v) userId r r')
    (typed : Typed v.snapshot) (hv : Restores W s id v.snapshot r) : RestoredTo W v.snapshot r r' where
  configuration c hserved harchive hb hsecret := by
    by_cases hd : c ∈ DERIVED
    · rcases derived_cases hd hb hsecret with rfl | rfl
      · obtain ⟨name, hn⟩ := typed.string (c := .name) rfl rfl
        rw [restored_slug h typed hn]
        by_cases hkeep : v.snapshot .name = r.val .name ∨ (v.snapshot .slug).truthy = true
        · rw [if_pos hkeep]
        · rw [if_neg hkeep]
          rcases hv.slug with hslug | hname | ⟨hnull, hnone⟩
          · exact absurd (.inr hslug) hkeep
          · exact absurd (.inl hname) hkeep
          · rw [pickRouteSlug_none.2 (hnone name hn), hnull]
            rfl
      · obtain ⟨url, ht⟩ := typed.string (c := .targetUrl) rfl rfl
        rw [restored_target h ht, hv.target url ht, ht]
    · exact restored_same h typed hd hb
  secrets c hc := by
    by_cases hm : v.snapshot c = MASK
    · have hkept : r'.val c = r.val c := by rw [restored_secret h typed hc, if_pos hm]
      rw [Row.text, hkept, hm]
      exact hv.secrets c hc hm
    · rw [Row.text, restored_secret h typed hc, if_neg hm]
      exact decryptSecret_encryptSecret hW _ _
  runtime c hc := by
    obtain ⟨hd, hb⟩ := not_derived (.inl hc)
    rw [restored_same h typed hd hb, hv.runtime c hc]
  archive := by
    obtain ⟨hd, hb⟩ := not_derived (.inr rfl)
    rw [restored_same h typed hd hb, hv.archive]

end Restoring

/-! ## Runs -/

/-- What happens to a route: requests, and the proxy's own writes as it serves it. -/
inductive RouteEvent
  | request (q : Request)
  | serves (id : String) (row : Row)

/-- The proxy leaves a route's configuration alone. -/
def serve (s : Store) (id : String) (row : Row) : Store :=
  if (s.routes.get? id).all (fun r => decide (∀ c, c ∉ SERVED → row.val c = r.val c)) then
    { s with routes := s.routes.modify id fun _ => row }
  else s

def eventStep (W : World) (s : Store) : RouteEvent → Store
  | .request q => step W s q
  | .serves id row => serve s id row

/-- Every version is of a row. -/
def VersionsTyped (s : Store) : Prop := ∀ k v, s.routeVersions.get? k = some v → Typed v.snapshot

theorem eventStep_typed {W : World} {s : Store} (h : VersionsTyped s) (e : RouteEvent) : VersionsTyped (eventStep W s e) := by
  intro k v hv
  cases e with
  | request q =>
    rcases (step_footprint W s q).versions k v hv with hold | ⟨row, -, hnew⟩
    · exact h k v hold
    · rw [hnew]
      exact row.typed
  | serves id row =>
    have versions : (serve s id row).routeVersions = s.routeVersions := by
      unfold serve
      split <;> rfl
    exact h k v (versions ▸ hv)

/-- After any run, a restore that goes through leaves the route with the version's
    configuration, and its runtime as it was, exactly if the version meets `Restores`. -/
theorem restored_version_iff {W : World} (hW : W.cipher.Ideal) {s₀ s s' : Store} (h₀ : VersionsTyped s₀) (es : List RouteEvent)
    (hs : s = run (eventStep W) s₀ es) {d : Draw} {id versionId userId : String} {v : RouteVersion} {r r' : Row}
    (hv : s.routeVersions.get? versionId = some v) (hr : s.routes.get? id = some r)
    (hret : Returns (restoreRouteVersion W d id versionId userId) s r' s') :
    s'.routes.get? id = some r' ∧ (RestoredTo W v.snapshot r r' ↔ Restores W s id v.snapshot r) := by
  have typed : Typed v.snapshot := by
    have versions : VersionsTyped s := hs ▸ run_stable (fun _ h => eventStep_typed h) h₀ es
    exact versions versionId v hv
  obtain ⟨-, hrow, hupdate⟩ := restoreRouteVersion_returns hv hr hret
  exact ⟨hrow, hupdate.restores typed, hupdate.restoredTo hW typed⟩

/-! ## A route and its first version -/

namespace Restoring

def created : Row := shopRoute

/-- The same route after its upstream failed. -/
def opened : Row := Row.ofFields
  [(.name, .str "Shop"), (.slug, .str "shop"), (.publicPath, .str "/r/shop"), (.targetUrl, .str "http://backend.svc"),
   (.createdAt, .str "2026-01-01T00:00:00.000Z"), (.updatedAt, .str "2026-01-01T00:00:00.000Z"), (.cbState, .str "OPEN"),
   (.cbOpenedAt, .str "2026-01-02T00:00:00.000Z")] (by intro c; cases c <;> rfl)

def first : RouteVersion := ⟨"shop", .num 1, created.val, "admin"⟩

def store : Store :=
  { Store.empty with routes := Table.empty.insert "shop" created, routeVersions := Table.empty.insert "first" first }

theorem store_typed : VersionsTyped store := by
  intro k v hv
  rw [store, get?_insert rfl, get?_empty] at hv
  split at hv
  · obtain rfl := Option.some.inj hv
    exact created.typed
  · cases hv

/-- The store after the proxy served the route and left `row`. -/
def served (row : Row) : Store := run (eventStep World.plain) store [.serves "shop" row]

end Restoring

theorem a_route_goes_back :
    ∃ r' s', Returns (restoreRouteVersion World.plain Draw.plain "shop" "first" "admin") (Restoring.served Restoring.created) r' s' ∧
      s'.routes.get? "shop" = some r' ∧ RestoredTo World.plain Restoring.created.val Restoring.created r' := by
  have hsucceeds : Succeeds (restoreRouteVersion World.plain Draw.plain "shop" "first" "admin")
      (Restoring.served Restoring.created) := by decide +kernel
  obtain ⟨r', s', hret⟩ := hsucceeds
  have hv : (Restoring.served Restoring.created).routeVersions.get? "first" = some Restoring.first := rfl
  have hr : (Restoring.served Restoring.created).routes.get? "shop" = some Restoring.created := rfl
  have hsecrets : ∀ c ∈ secretColumns, Restoring.created.val c ≠ MASK := by decide
  obtain ⟨hrow, hiff⟩ := restored_version_iff (W := World.plain) Gcm.plain_ideal Restoring.store_typed _ rfl hv hr hret
  refine ⟨r', s', hret, hrow, hiff.2 ⟨?_, .inl rfl, fun c hc hm => absurd hm (hsecrets c hc), fun _ _ => rfl, rfl⟩⟩
  intro url hurl
  obtain rfl := Json.str.inj hurl
  decide

/-- The version is from before the breaker opened, and going back to it closes the breaker. -/
theorem a_restore_closes_the_breaker :
    ¬∀ (W : World), W.cipher.Ideal → ∀ (s₀ s s' : Store), VersionsTyped s₀ → ∀ (es : List RouteEvent),
      s = run (eventStep W) s₀ es → ∀ (d : Draw) (id versionId userId : String) (v : RouteVersion) (r r' : Row),
      s.routeVersions.get? versionId = some v → s.routes.get? id = some r →
      Returns (restoreRouteVersion W d id versionId userId) s r' s' → RestoredTo W v.snapshot r r' := by
  intro h
  have hsucceeds : Succeeds (restoreRouteVersion World.plain Draw.plain "shop" "first" "admin")
      (Restoring.served Restoring.opened) := by decide +kernel
  obtain ⟨r', s', hret⟩ := hsucceeds
  have hv : (Restoring.served Restoring.opened).routeVersions.get? "first" = some Restoring.first := rfl
  have hr : (Restoring.served Restoring.opened).routes.get? "shop" = some Restoring.opened := rfl
  have hrestored := h World.plain Gcm.plain_ideal _ _ s' Restoring.store_typed _ rfl Draw.plain "shop" "first" "admin" _ _ r' hv hr hret
  obtain ⟨-, -, hupdate⟩ := restoreRouteVersion_returns hv hr hret
  -- the breaker would have to be where it was in the version
  have hstate : Restoring.created.val .cbState = Restoring.opened.val .cbState :=
    (hupdate.restores Restoring.created.typed hrestored).runtime .cbState (by decide)
  revert hstate
  decide

end ClusterGate
