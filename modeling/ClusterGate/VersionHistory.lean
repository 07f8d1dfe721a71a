/-
  ClusterGate.VersionHistory — a route's row, its number and its versions
  (`services/routeService.ts`).

  `createRoute` stores the new row as version 1; `updateRoute` counts a change in the row and
  stores the row under its new number. A duplicate, a bulk update and the approval of a
  change request write rows past both.
  - `Numbered.next`: one more version is the next number.
  - `History.settle`, `History.add`, `History.count`: what the rows and versions may become.
  - `updateRoute_history`, `createRoute_history`, `importRoutes_history`: the writers that
    keep to it.
  - `version_history_complete`: along every run whose steps meet `KeepsHistory`.
  - `a_bulk_update_is_not_recorded`: a row that is no longer its latest version.
-/

import ClusterGate.Duplicates
import ClusterGate.Frame
import ClusterGate.TargetInvariant

namespace ClusterGate

open Lib Lib.Act Lib.Table

/-! ## The versions of a route -/

section Versions

variable {versions : Table String RouteVersion} {id versionId : String} {r row : Row} {n m : Nat} {k : String} {v : RouteVersion}

/-- `k` is version `n` of the route. -/
def IsVersion (versions : Table String RouteVersion) (id : String) (n : Nat) (k : String) : Prop :=
  ∃ v, versions.get? k = some v ∧ v.routeId = id ∧ v.version = .num n

/-- The versions of the route are those from 1 to `n`, one of each number. -/
structure Numbered (versions : Table String RouteVersion) (id : String) (n : Nat) : Prop where
  each : ∀ m, 1 ≤ m → m ≤ n → ∃! k, IsVersion versions id m k
  none_beyond : ∀ k v, versions.get? k = some v → v.routeId = id → ∃ m : Nat, 1 ≤ m ∧ m ≤ n ∧ v.version = .num m

/-- The route's number is `n`, its versions go up to it, and the latest is its row. -/
structure UpToDate (versions : Table String RouteVersion) (id : String) (r : Row) (n : Nat) : Prop where
  number : r.val .version = .num n
  first : 1 ≤ n
  numbered : Numbered versions id n
  latest : ∀ k v, versions.get? k = some v → v.routeId = id → v.version = .num n → ∀ c ∉ NON_VERSIONED, v.snapshot c = r.val c

/-- Of every live route there is a version for each number up to its own, and the latest is
    the row. -/
def VersionsComplete (s : Store) : Prop := ∀ k r, liveRoute? s k = some r → ∃ n, UpToDate s.routeVersions k r n

theorem number_inj {a b : Nat} (h : Json.num a = Json.num b) : a = b := by
  injection h with h
  exact_mod_cast h

theorem isVersion_insert (hnew : versions.get? versionId = none) :
    IsVersion (versions.insert versionId v) id m k ↔
      IsVersion versions id m k ∨ k = versionId ∧ v.routeId = id ∧ v.version = .num m := by
  unfold IsVersion
  rw [get?_insert hnew]
  by_cases hk : k = versionId
  · subst hk
    simp [hnew]
  · simp [hk]

/-- A version of another route is none of this one's. -/
theorem Numbered.other (h : Numbered versions id n) (hnew : versions.get? versionId = none) (hv : v.routeId ≠ id) :
    Numbered (versions.insert versionId v) id n := by
  refine ⟨fun m h1 h2 => ?_, fun k w hw hr => ?_⟩
  · simpa only [isVersion_insert hnew, hv, false_and, and_false, or_false] using h.each m h1 h2
  · rw [get?_insert hnew] at hw
    split at hw
    · cases hw
      exact absurd hr hv
    · exact h.none_beyond k w hw hr

/-- One more version is the next number. -/
theorem Numbered.next (h : Numbered versions id n) (hnew : versions.get? versionId = none) (hr : v.routeId = id)
    (hv : v.version = .num (n + 1 : Nat)) : Numbered (versions.insert versionId v) id (n + 1) := by
  refine ⟨fun m h1 h2 => ?_, fun k w hw hwr => ?_⟩
  · by_cases hm : m = n + 1
    · subst hm
      refine ⟨versionId, (isVersion_insert hnew).2 (Or.inr ⟨rfl, hr, hv⟩), fun k hk => ?_⟩
      rcases (isVersion_insert hnew).1 hk with ⟨w, hw, hwr, hwv⟩ | ⟨hk, -⟩
      · obtain ⟨m, -, hle, hm⟩ := h.none_beyond k w hw hwr
        have := number_inj (hwv.symm.trans hm)
        omega
      · exact hk
    · obtain ⟨k, hk, honly⟩ := h.each m h1 (by omega)
      refine ⟨k, (isVersion_insert hnew).2 (Or.inl hk), fun k' hk' => ?_⟩
      rcases (isVersion_insert hnew).1 hk' with hk' | ⟨-, -, hm'⟩
      · exact honly k' hk'
      · exact absurd (number_inj (hm'.symm.trans hv)) hm
  · rw [get?_insert hnew] at hw
    split at hw
    · cases hw
      exact ⟨n + 1, by omega, Nat.le_refl _, hv⟩
    · obtain ⟨m, h1, h2, hm⟩ := h.none_beyond k w hw hwr
      exact ⟨m, h1, by omega, hm⟩

theorem UpToDate.other (h : UpToDate versions id r n) (hnew : versions.get? versionId = none) (hv : v.routeId ≠ id) :
    UpToDate (versions.insert versionId v) id r n := by
  refine ⟨h.number, h.first, h.numbered.other hnew hv, fun k w hw hr => ?_⟩
  rw [get?_insert hnew] at hw
  split at hw
  · cases hw
    exact absurd hr hv
  · exact h.latest k w hw hr

/-- The row as it is stored under the next number. -/
theorem Numbered.upToDate (h : Numbered versions id n) (hnew : versions.get? versionId = none) (hr : v.routeId = id)
    (hv : v.version = .num (n + 1 : Nat)) (hs : v.snapshot = row.val) (hrow : row.val .version = .num (n + 1 : Nat)) :
    UpToDate (versions.insert versionId v) id row (n + 1) := by
  refine ⟨hrow, by omega, h.next hnew hr hv, fun k w hw hwr hwv c _ => ?_⟩
  rw [get?_insert hnew] at hw
  split at hw
  · cases hw
    rw [hs]
  · obtain ⟨m, -, hle, hm⟩ := h.none_beyond k w hw hwr
    have := number_inj (hwv.symm.trans hm)
    omega

end Versions

/-! ## Rows and versions -/

section Histories

variable {routes routes' : Table String Row} {versions : Table String RouteVersion} {id versionId : String} {r row : Row}
  {v : RouteVersion}

/-- The versions of the live routes are complete, and every version is one of a route. -/
structure History (routes : Table String Row) (versions : Table String RouteVersion) : Prop where
  complete : ∀ k r, routes.get? k = some r → r.live = true → ∃ n, UpToDate versions k r n
  hang : ∀ k v, versions.get? k = some v → (routes.get? v.routeId).isSome = true

theorem History.versionsComplete {s : Store} (h : History s.routes s.routeVersions) : VersionsComplete s :=
  fun k r hr => h.complete k r (liveRoute?_iff.1 hr).1 (liveRoute?_iff.1 hr).2

/-- A row that is live after a change was so before, with the same number and configuration. -/
def Settled (r r' : Row) : Prop :=
  r'.live = true → r.live = true ∧ r'.val .version = r.val .version ∧ ∀ c ∉ NON_VERSIONED, r'.val c = r.val c

theorem Freed.settled {k : String} {r r' : Row} (h : Freed k r r') : Settled r r' := by
  intro hl
  rw [h.live] at hl
  cases hl

/-- Rows may change as long as their configuration stays. -/
theorem History.settle {R : RowChange} (h : History routes versions) (hc : Changes R noRow noRow routes routes')
    (hR : ∀ k r r', routes.get? k = some r → R k r r' → Settled r r') : History routes' versions := by
  refine ⟨fun k r' hr' hl => ?_, fun k v hv => ?_⟩
  · cases hr : routes.get? k with
    | none => exact (hc.new hr hr').elim
    | some r =>
      have settled : Settled r r' := by
        rcases hc.some hr hr' with rfl | hchange
        · exact fun hl => ⟨hl, rfl, fun _ _ => rfl⟩
        · exact hR k r r' hr hchange
      obtain ⟨hlive, hversion, hsame⟩ := settled hl
      obtain ⟨n, number, first, numbered, latest⟩ := h.complete k r hr hlive
      refine ⟨n, hversion.trans number, first, numbered, fun j v hv hid hn c hcol => ?_⟩
      rw [hsame c hcol]
      exact latest j v hv hid hn c hcol
  · have hroute := h.hang k v hv
    rw [Option.isSome_iff_ne_none] at hroute ⊢
    exact fun hgone => hroute (hc.absent hgone)

theorem History.unversioned (h : History routes versions) (hid : routes.get? id = none) : Numbered versions id 0 := by
  refine ⟨fun m h1 h2 => by omega, fun k v hv hr => ?_⟩
  have hroute := h.hang k v hv
  rw [hr, hid] at hroute
  cases hroute

/-- A new row and its first version. -/
theorem History.add (h : History routes versions) (hid : routes.get? id = none) (hnew : versions.get? versionId = none)
    (hr : v.routeId = id) (hv : v.version = .num 1) (hs : v.snapshot = row.val) (hrow : row.val .version = .num 1) :
    History (routes.insert id row) (versions.insert versionId v) := by
  refine ⟨fun k r hk hl => ?_, fun k w hw => ?_⟩
  · rw [get?_insert hid] at hk
    split at hk
    · rename_i he
      cases hk
      exact ⟨1, he ▸ (h.unversioned hid).upToDate hnew hr hv hs hrow⟩
    · rename_i hne
      obtain ⟨n, hn⟩ := h.complete k r hk hl
      exact ⟨n, hn.other hnew (hr ▸ Ne.symm hne)⟩
  · rw [get?_insert hid]
    rw [get?_insert hnew] at hw
    split
    · rfl
    · rename_i hne
      split at hw
      · cases hw
        exact absurd hr hne
      · exact h.hang k w hw

/-- A row that is counted up and stored under its new number. -/
theorem History.count (h : History routes versions) (hid : routes.get? id = some r) (hl : r.live = true)
    (hnew : versions.get? versionId = none) (hr : v.routeId = id) (hv : v.version = row.val .version) (hs : v.snapshot = row.val)
    (hrow : ∀ n : Nat, r.val .version = .num n → row.val .version = .num (n + 1 : Nat)) :
    History (routes.modify id fun _ => row) (versions.insert versionId v) := by
  refine ⟨fun k q hk hq => ?_, fun k w hw => ?_⟩
  · rw [get?_modify] at hk
    split at hk
    · rename_i he
      subst he
      rw [hid] at hk
      cases hk
      obtain ⟨n, hn⟩ := h.complete k r hid hl
      have number := hrow n hn.number
      exact ⟨n + 1, hn.numbered.upToDate hnew hr (hv.trans number) hs number⟩
    · rename_i hne
      obtain ⟨n, hn⟩ := h.complete k q hk hq
      exact ⟨n, hn.other hnew (hr ▸ Ne.symm hne)⟩
  · have hroute : (routes.get? w.routeId).isSome = true := by
      rw [get?_insert hnew] at hw
      split at hw
      · cases hw
        rw [hr, hid]
        rfl
      · exact h.hang k w hw
    rw [get?_modify]
    split
    · rw [hid]
      rfl
    · exact hroute

end Histories

/-! ## The writers that count -/

section Writers

variable {W : World} {s : Store} {d : Draw} {id userId : String} {data : Patch} {r row : Row} {now : String}

/-- What `increment` makes of a number, if the database takes it. -/
theorem increment_counts {n : Nat} {w : Json} (h : writeField .version (.num n) increment = some w) : w = .num (n + 1 : Nat) := by
  have hop : fieldOp .int "increment" (.num n) (.num 1) = some (.num (n + 1 : Nat)) := by
    simp [fieldOp, Json.int?]
  unfold writeField at h
  rw [if_neg (by decide)] at h
  simp only [Column.type, increment] at h
  obtain ⟨hcount, -⟩ := Option.filter_eq_some_iff.1 h
  exact Option.some.inj (hcount.symm.trans hop)

/-- A column in which nothing changes stays. -/
theorem unchanged_written (h : WrittenRow now data r row) {c : Column} (hu : c ≠ .updatedAt)
    (hd : data c = none ∨ data c = some (r.val c)) : row.val c = r.val c := by
  rcases hd with hd | hd
  · exact h.same hd hu
  · exact h.plain hd hu (r.typed c)

theorem updateData_version (hv : data .version = none) : updateData W s d id r data .version = none := by
  rw [updateData_ne (by decide) (by decide) (by decide), hv]

/-- An update without a change leaves number and configuration. -/
theorem UpdatedRow.settled (h : UpdatedRow W s d id data userId r row) (hv : data .version = none)
    (hn : hasChanges r (updateData W s d id r data) = false) : Settled r row := by
  obtain ⟨hlive, -, hw⟩ := h
  have patch : ∀ c, c ≠ .updatedById →
      updatePatch r (updateData W s d id r data) userId c = updateData W s d id r data c := by
    intro c hc
    rw [updatePatch, Patch.set_ne _ _ hc, hn]
    rfl
  refine fun _ => ⟨hlive, hw.same ((patch _ (by decide)).trans (updateData_version hv)) (by decide), fun c hc => ?_⟩
  have hby : c ≠ .updatedById := fun e => hc (by rw [e]; decide)
  have hat : c ≠ .updatedAt := fun e => hc (by rw [e]; decide)
  refine unchanged_written hw hat ?_
  rw [patch c hby]
  cases hdata : updateData W s d id r data c with
  | none => exact Or.inl rfl
  | some v =>
    have hsame := List.any_eq_false.1 hn c (Column.mem_all c)
    simp only [hdata] at hsame
    simp [hc] at hsame
    exact Or.inr (congrArg some hsame)

/-- An update counts a change and stores the row under its new number. -/
theorem updateRoute_history (h : History s.routes s.routeVersions) (hv : data .version = none)
    (hnew : s.routeVersions.get? d.versionId = none) :
    Keeps (updateRoute W d id data userId) (fun s' => History s'.routes s'.routeVersions) s := by
  have freed : ∀ {t}, Changes Freed noRow noRow s.routes t → History t s.routeVersions :=
    fun hc => h.settle hc fun _ _ _ _ => Freed.settled
  refine wp_mono updateRoute_spec ?_ ?_
  · intro row s' hout
    obtain ⟨r, t, hu, -, rfl⟩ := hout
    have hlive : r.live = true := (liveRoute?_iff.1 hu.live).2
    show History (t.modify id fun _ => row) (updatedVersions W s d id data userId r row)
    unfold updatedVersions
    cases hchange : hasChanges r (updateData W s d id r data) with
    | true =>
      refine (freed hu.freed).count hu.found hlive hnew rfl rfl rfl fun n hn => ?_
      have counted : updatePatch r (updateData W s d id r data) userId .version = some increment := by
        rw [updatePatch, Patch.set_ne _ _ (by decide), if_pos hchange, Patch.set_same]
      exact increment_counts (hn ▸ hu.row.2.2.field counted (by decide))
    | false =>
      refine (freed hu.freed).settle (R := fun _ => Settled) ?_ fun _ _ _ _ h => h
      exact (Changes.refl t).modify hu.found hu.found (hu.row.settled hv hchange)
  · intro e s' hout
    rcases hout with ⟨t, rfl, hc⟩ | ⟨r, row, t, -, htaken, -⟩
    · exact freed hc
    · rw [hnew] at htaken
      cases htaken

/-- A create stores its row as version 1; it takes no other version's id. -/
theorem createRoute_history (h : History s.routes s.routeVersions) (hv : data .version = none)
    (hnew : s.routeVersions.get? d.versionId = none) :
    Keeps (createRoute W d data userId) (fun s' => History s'.routes s'.routeVersions ∧
      ∀ k, k ≠ d.versionId → s.routeVersions.get? k = none → s'.routeVersions.get? k = none) s := by
  have freed : ∀ {t}, Changes Freed noRow noRow s.routes t → History t s.routeVersions :=
    fun hc => h.settle hc fun _ _ _ _ => Freed.settled
  refine wp_mono createRoute_spec ?_ ?_
  · intro row s' hout
    obtain ⟨t, hc, -, rfl⟩ := hout
    have number : row.val .version = .num 1 := by
      rcases hc.row.coerced (c := .version) (by decide) with ⟨_, hsome, -⟩ | ⟨-, hdefault⟩
      · rw [hv] at hsome
        cases hsome
      · exact (Option.some.inj hdefault).symm
    refine ⟨(freed hc.freed).add hc.fresh hnew rfl rfl rfl number, fun k hk hfree => ?_⟩
    rw [get?_insert hnew, if_neg hk]
    exact hfree
  · intro e s' hout
    rcases hout with ⟨t, rfl, hc⟩ | ⟨row, t, -, htaken, -⟩
    · exact ⟨freed hc, fun _ _ hfree => hfree⟩
    · rw [hnew] at htaken
      cases htaken

/-- An import is a row of creates, whatever becomes of each. -/
theorem importRoutes_history {xs : List (Draw × Patch)} (h : History s.routes s.routeVersions)
    (hv : ∀ x ∈ xs, x.2 .version = none) (hnew : ∀ x ∈ xs, s.routeVersions.get? x.1.versionId = none)
    (hn : (xs.map fun x => x.1.versionId).Nodup) :
    Keeps (importRoutes W userId xs) (fun s' => History s'.routes s'.routeVersions) s := by
  induction xs generalizing s with
  | nil => exact h
  | cons x xs ih =>
    obtain ⟨d, data⟩ := x
    rw [List.map_cons, List.nodup_cons] at hn
    have rest : ∀ s', (History s'.routes s'.routeVersions ∧
        ∀ k, k ≠ d.versionId → s.routeVersions.get? k = none → s'.routeVersions.get? k = none) →
        Keeps (importRoutes W userId xs) (fun s' => History s'.routes s'.routeVersions) s' := by
      intro s' hs'
      refine ih hs'.1 (fun x hx => hv x (List.mem_cons_of_mem _ hx)) (fun x hx => ?_) hn.2
      refine hs'.2 _ (fun e => hn.1 (List.mem_map.2 ⟨x, hx, e⟩)) (hnew x (List.mem_cons_of_mem _ hx))
    unfold importRoutes
    rw [Keeps, wp_bind, wp_attempt]
    refine wp_mono (createRoute_history h (hv _ (List.mem_cons_self ..)) (hnew _ (List.mem_cons_self ..))) ?_ ?_ <;>
    · intro _ s' hs'
      rw [wp_bind]
      exact wp_mono (rest s' hs') (fun _ _ h => h) fun _ _ h => h

end Writers

/-! ## Writes that do not count -/

section Uncounted

variable {s : Store} {now userId : String} {data : Patch} {r row : Row} {patch : BulkPatch}

/-- A write of `data` leaves the configuration in a row. -/
def LeavesConfiguration (data : Patch) (r : Row) : Prop := ∀ c ∉ NON_VERSIONED, written r data c = some (r.val c)

theorem LeavesConfiguration.settled (h : LeavesConfiguration data r) (hw : WrittenRow now data r row)
    (hv : data .version = none) (hd : data .deletedAt = none) : Settled r row := by
  have archived : row.val .deletedAt = r.val .deletedAt := hw.same hd (by decide)
  refine fun hl => ⟨?_, hw.same hv (by decide), fun c hc => ?_⟩
  · rw [← hl, Row.live, Row.live, archived]
  · have hat : c ≠ .updatedAt := fun e => hc (by rw [e]; decide)
    have field := write_val hw c
    rw [written, stamped_ne hat] at field
    exact Option.some.inj (field.symm.trans (h c hc))

/-- A row that stays archived. -/
theorem archived_settled (hw : WrittenRow now data r row) (hd : data .deletedAt = none) (hl : r.live = false) :
    Settled r row := by
  have archived : row.val .deletedAt = r.val .deletedAt := hw.same hd (by decide)
  intro hlive
  rw [Row.live, archived] at hlive
  rw [Row.live, hlive] at hl
  cases hl

theorem bulkData_none {c : Column} (hc : c ∉ [Column.updatedById, .environment, .routeGroupId, .tags]) :
    bulkData patch userId r c = none := by
  simp only [List.mem_cons, List.not_mem_nil, or_false, not_or] at hc
  obtain ⟨hby, henv, hgroup, htags⟩ := hc
  have base : bulkBase patch userId c = none := by
    unfold bulkBase
    split <;> first | rfl | contradiction
  unfold bulkData
  split
  · exact base
  · rw [Patch.set_ne _ _ htags]
    exact base

/-- The database takes a copy of the route. -/
structure TakesCopy (s : Store) (r : Row) : Prop where
  free : CopyNameFree s (r.string .publicPath)
  noSlug : r.val .slug = .null
  refs : RefsExist s r

end Uncounted

/-! ## Requests -/

/-- The endpoints that write routes and do not archive them, and those of change requests. -/
def Endpoint.recorded : Endpoint → Bool
  | .route (.create _) | .route (.update _ _) | .route (.import _ _) | .route (.duplicate _) | .route (.restoreVersion _ _)
  | .route (.bulkUpdate _) | .change _ => true
  | _ => false

/-- The ids a request draws for versions are no version's, and apart. -/
def DrawsVersions (s : Store) (q : Request) : Prop :=
  match q.endpoint with
  | .route (.import draws _) => (∀ i, s.routeVersions.get? (draws i).versionId = none) ∧
      ∀ i j, i ≠ j → (draws i).versionId ≠ (draws j).versionId
  | _ => s.routeVersions.get? q.draw.versionId = none

/-- No copy is made, and what a bulk update and an approval write to a live route leaves its
    configuration. -/
def KeepsHistory (W : World) (s : Store) (q : Request) : Prop :=
  match q.endpoint with
  | .route (.duplicate id) => ∀ r, liveRoute? s id = some r → q.caller.role = .ADMIN ∨ canManageRoute s q.caller id = true →
      ¬TakesCopy s r
  | .route (.bulkUpdate body) => ∀ data, q.caller.role ∈ [Role.ADMIN, .OPERATOR] →
      parsed ["ids", "environment", "routeGroupId", "addTags"] bulkUpdateSchema body = .ok data →
      ∀ k ∈ textList data "ids", ∀ r, liveRoute? s k = some r →
        Takes s q.draw.now k (bulkData (bulkPatchOf data) q.caller.userId r) →
        LeavesConfiguration (bulkData (bulkPatchOf data) q.caller.userId r) r
  | .change op => ∀ cr k r, op.applies W s q.caller q.draw cr k → liveRoute? s k = some r →
      LeavesConfiguration (appliedData cr.payload) r
  | _ => True

section Requests

variable {W : World} {s : Store} {u : Caller} {d : Draw} {id : String} {body : Json}

theorem postRoute_history (h : History s.routes s.routeVersions) (hnew : s.routeVersions.get? d.versionId = none) :
    Keeps (postRoute W u d body) (fun s' => History s'.routes s'.routeVersions) s := by
  simp only [Keeps, postRoute, requireOwnOrg, wp_bind, wp_read, wp_ofExcept, wp_require]
  refine ⟨fun data hd => ⟨fun _ => ⟨fun _ => ?_, fun _ => h⟩, fun _ => h⟩, fun _ _ => h⟩
  exact wp_mono (createRoute_history h (routeData_noField hd rfl) hnew) (fun _ _ h => h.1) fun _ _ h => h.1

theorem putRoute_history (h : History s.routes s.routeVersions) (hnew : s.routeVersions.get? d.versionId = none) :
    Keeps (putRoute W u d id body) (fun s' => History s'.routes s'.routeVersions) s := by
  simp only [Keeps, putRoute, wp_bind, wp_read, wp_ofExcept, wp_require, wp_ite]
  refine ⟨fun data hd => ⟨fun _ => ⟨fun _ => ?_, fun _ => ?_⟩, fun _ => h⟩, fun _ _ => h⟩
  · exact updateRoute_history h (routeData_noField hd rfl) hnew
  · simp only [requestUpdate, findLive, crCreate, wp_bind, wp_read, wp_orThrow, wp_when, wp_assertRouteTargetAllowed,
      wp_require, wp_modify, wp_pure]
    simp only [h, implies_true, and_self]

theorem postRestoreVersion_history {versionId : String} (h : History s.routes s.routeVersions)
    (hnew : s.routeVersions.get? d.versionId = none) :
    Keeps (postRestoreVersion W u d id versionId) (fun s' => History s'.routes s'.routeVersions) s := by
  simp only [Keeps, postRestoreVersion, authorize, restoreRouteVersion, wp_bind, wp_read, wp_require, wp_orThrow]
  exact ⟨fun _ => ⟨fun v _ => updateRoute_history h rfl hnew, fun _ => h⟩, fun _ => h⟩

/-- An import draws for each of its routes. -/
theorem postImport_history {draws : Nat → Draw} (h : History s.routes s.routeVersions)
    (hnew : ∀ i, s.routeVersions.get? (draws i).versionId = none)
    (apart : ∀ i j, i ≠ j → (draws i).versionId ≠ (draws j).versionId) :
    Keeps (postImport W u draws body) (fun s' => History s'.routes s'.routeVersions) s := by
  simp only [Keeps, postImport, authorize, wp_bind, wp_require, wp_ofExcept]
  refine ⟨fun _ => ⟨fun xs hx => ?_, fun _ _ => h⟩, fun _ => h⟩
  refine importRoutes_history h (fun x hm => ?_) (fun x hm => ?_) ?_
  · obtain ⟨r, hr⟩ := parseImport_mem hx (mem_withDraws hm)
    exact routeData_noField hr rfl
  · obtain ⟨p, -, rfl⟩ := List.mem_map.1 hm
    exact hnew p.2
  · exact draws_nodup (f := Draw.versionId) apart

/-- A copy that the database does not take leaves the store. -/
theorem postDuplicate_history (h : History s.routes s.routeVersions)
    (hcopy : ∀ r, liveRoute? s id = some r → u.role = .ADMIN ∨ canManageRoute s u id = true → ¬TakesCopy s r) :
    Keeps (postDuplicate u d id) (fun s' => History s'.routes s'.routeVersions) s := by
  simp only [Keeps, postDuplicate, requireManage, duplicateRoute, findLive, wp_bind, wp_read, wp_require, wp_orThrow]
  refine ⟨fun hm => ⟨fun r hr => ?_, fun _ => h⟩, fun _ => h⟩
  refine wp_mono routeCreate_spec ?_ (by rintro _ _ rfl; exact h)
  intro row s' hout
  obtain ⟨hnew, hrow, hunique, hrefs, -⟩ := hout
  obtain ⟨hfree, hslug⟩ := (copyRow_unique (liveRoute?_iff.1 hr).1 hnew hrow).1 hunique
  exact absurd ⟨hfree, hslug, (copyRow_refs hrow).1 hrefs⟩ (hcopy r hr hm)

theorem postBulkUpdate_history (h : History s.routes s.routeVersions)
    (hkeeps : KeepsHistory W s ⟨u, d, .route (.bulkUpdate body)⟩) :
    Keeps (postBulkUpdate u d body) (fun s' => History s'.routes s'.routeVersions) s := by
  simp only [Keeps, postBulkUpdate, authorize, parseBody, wp_bind, wp_require, wp_ofExcept]
  refine ⟨fun ha => ⟨fun data hd => ⟨fun _ => ?_, fun _ => h⟩, fun _ _ => h⟩, fun _ => h⟩
  refine wp_mono bulkUpdate_keeps ?_ ?_ <;>
  · intro _ s' hout
    obtain ⟨t, rfl, hc⟩ := hout
    refine h.settle hc fun k r row hr hchange => ?_
    obtain ⟨hk, hl, hrefs, hw⟩ := hchange
    have unique : uniqueOk s k (bulkData (bulkPatchOf data) u.userId r) row = true := by
      rw [uniqueOk, bulkData_none (by decide), bulkData_none (by decide)]
      rfl
    have leaves := hkeeps data ha hd k hk r (liveRoute?_iff.2 ⟨hr, hl⟩) ⟨r, row, hr, hw, unique, hrefs⟩
    exact leaves.settled hw (bulkData_none (by decide)) (bulkData_none (by decide))

theorem ChangeOp.perform_history {op : ChangeOp} (h : History s.routes s.routeVersions)
    (hkeeps : KeepsHistory W s ⟨u, d, .change op⟩) :
    Keeps (op.perform W u d) (fun s' => History s'.routes s'.routeVersions) s := by
  refine wp_mono op.perform_keeps ?_ ?_ <;>
  · intro _ s' hout
    obtain ⟨t, cs, rfl, hc⟩ := hout
    refine h.settle hc fun k r row hr hchange => ?_
    obtain ⟨cr, happlies, hw⟩ := hchange
    have noVersion : appliedData cr.payload .version = none := if_neg (by decide)
    have noArchive : appliedData cr.payload .deletedAt = none := if_neg (by decide)
    cases hl : r.live with
    | true => exact (hkeeps cr k r happlies (liveRoute?_iff.2 ⟨hr, hl⟩)).settled hw noVersion noArchive
    | false => exact archived_settled hw noArchive hl

/-- What a request keeps of the history. -/
theorem step_history {q : Request} (h : History s.routes s.routeVersions) (hq : q.endpoint.recorded = true)
    (hnew : DrawsVersions s q) (hkeeps : KeepsHistory W s q) : History (step W s q).routes (step W s q).routeVersions := by
  refine wp_final (P := fun s' => History s'.routes s'.routeVersions) (x := q.perform W) ?_
  obtain ⟨u, d, e⟩ := q
  cases e with
  | change op => exact op.perform_history h hkeeps
  | route op =>
    cases op with
    | create body => exact keeps_discard (postRoute_history h hnew)
    | update id body => exact keeps_discard (putRoute_history h hnew)
    | restoreVersion id versionId => exact keeps_discard (postRestoreVersion_history h hnew)
    | «import» draws body => exact keeps_discard (postImport_history h hnew.1 hnew.2)
    | duplicate id => exact keeps_discard (postDuplicate_history h hkeeps)
    | bulkUpdate body => exact keeps_discard (postBulkUpdate_history h hkeeps)
    | _ => cases hq
  | _ => cases hq

end Requests

theorem Store.NoRoutes.history {s : Store} (h : s.NoRoutes) : History s.routes s.routeVersions := by
  refine ⟨fun k r hr _ => ?_, fun k v hv => ?_⟩
  · rw [h.routes k] at hr
    cases hr
  · rw [h.routeVersions k] at hv
    cases hv

/-- In every run from a store without routes in which no step writes the configuration of a
    live route past `createRoute` and `updateRoute`, the versions are complete in every
    state. -/
theorem version_history_complete {W : World} {s : Store} {qs : List Request} (hs : s.NoRoutes)
    (hq : Along (step W) (fun s q => q.endpoint.recorded = true ∧ DrawsVersions s q ∧ KeepsHistory W s q) s qs) :
    Throughout (step W) VersionsComplete s qs := by
  refine throughout_iff.2 fun pre post he => ?_
  subst he
  have kept : History (run (step W) s pre).routes (run (step W) s pre).routeVersions :=
    run_keeps (I := fun s => History s.routes s.routeVersions) (fun _ _ h hq => step_history h hq.1 hq.2.1 hq.2.2) hs.history
      (along_append.1 hq).1
  exact kept.versionsComplete

/-! ## A route that is created and updated -/

namespace Recording

def slower : Request :=
  ⟨owner, { Draw.plain with versionId := "second" }, .route (.update "route" (.obj [("timeout", .num 5000)]))⟩

def toProduction : Request :=
  ⟨owner, { Draw.plain with versionId := "second" },
   .route (.bulkUpdate (.obj [("ids", .arr [.str "route"]), ("environment", .str "PRODUCTION")]))⟩

theorem second_unused : (step World.plain oneOrganization createRequest).routeVersions.get? "second" = none := by
  have unused : ((step World.plain oneOrganization createRequest).routeVersions.get? "second").isNone = true := by decide +kernel
  exact Option.isNone_iff_eq_none.1 unused

end Recording

theorem an_update_is_recorded : Throughout (step World.plain) VersionsComplete oneOrganization [createRequest, Recording.slower] :=
  version_history_complete oneOrganization_noRoutes
    ⟨⟨rfl, rfl, trivial⟩, ⟨rfl, Recording.second_unused, trivial⟩, trivial⟩

/-- The environment of a route is in its versions, and a bulk update of it stores none. -/
theorem a_bulk_update_is_not_recorded :
    ¬∀ (W : World) (s : Store) (qs : List Request), s.NoRoutes →
      Along (step W) (fun s q => q.endpoint.recorded = true ∧ DrawsVersions s q) s qs →
      Throughout (step W) VersionsComplete s qs := by
  intro h
  have throughout := h World.plain oneOrganization [createRequest, Recording.toProduction] oneOrganization_noRoutes
    ⟨⟨rfl, rfl⟩, ⟨rfl, Recording.second_unused⟩, trivial⟩
  have complete := throughout_iff.1 throughout [createRequest, Recording.toProduction] [] rfl
  have left : (liveRoute? (run (step World.plain) oneOrganization [createRequest, Recording.toProduction]) "route").map
        (fun r => (r.val .version, r.val .environment)) = some (.num 1, .str "PRODUCTION") ∧
      ((run (step World.plain) oneOrganization [createRequest, Recording.toProduction]).routeVersions.get? "version").map
        (fun v => (v.routeId, v.version, v.snapshot .environment)) = some ("route", .num 1, .str "NONE") := by
    decide +kernel
  obtain ⟨r, hr, hrow⟩ := Option.map_eq_some_iff.1 left.1
  obtain ⟨v, hv, hversion⟩ := Option.map_eq_some_iff.1 left.2
  simp only [Prod.mk.injEq] at hrow hversion
  obtain ⟨n, hn⟩ := complete "route" r hr
  have latest := hn.latest "version" v hv hversion.1 (hversion.2.1.trans (hrow.1.symm.trans hn.number)) .environment (by decide)
  rw [hversion.2.2, hrow.2] at latest
  exact absurd latest (by decide)

end ClusterGate
