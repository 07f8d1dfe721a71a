/-
  ClusterGate.Archive — what becomes of a route's names while it is archived
  (`services/routeService.ts`: `deleteRoute`, `bulkDelete`, `restoreRoute`).

  Path and slug are unique among all routes, so an archived one has to give them up: both
  are marked with `__deleted_` and the id, and cut back when the route returns. A name in
  which the mark occurs is left as it is; `bulkDelete` marks the path only. A route whose
  name went to a live one returns under `-restored-` and the end of its id; archived holders
  are not looked for, and a path that ends in `/*` gets its ending behind that.
  - `unmangle_marked`: what is cut off is what was put there, and all that came behind it.
  - `ArchivedBy.usable_iff`, `NamesUsable.create`: when the names are left to others, and that
    a create is not refused for them then.
  - `run_keptArchived`: what requests about other routes do to an archived one.
  - `restore_gives_back_iff`: when a restore gives back what it should.
  - `archive_life_cycle_iff`: all of it, from a live route to the restored one.
  - `a_bulk_delete_keeps_the_slug`: an archived route that still has its slug.
-/

import ClusterGate.Frame
import ClusterGate.Route.Names
import ClusterGate.StoredValidity

namespace ClusterGate

open Lib Lib.Act Lib.Table

/-! ## The mark -/

/-- Ids are drawn of letters and digits. -/
def PlainId (id : String) : Prop := id.toList ≠ [] ∧ ∀ c ∈ id.toList, c.isAlphanum = true

theorem PlainId.cons {id : String} (h : PlainId id) : ∃ c cs, id.toList = c :: cs ∧ c ≠ '_' := by
  obtain ⟨c, cs, hl⟩ := List.exists_cons_of_ne_nil h.1
  refine ⟨c, cs, hl, ?_⟩
  rintro rfl
  have hunder := h.2 '_' (by simp [hl])
  cases hunder

/-- A text without a mark. -/
def Unmarked (t : String) : Prop := Text.includes t ARCHIVE_TAG = false

theorem unmarked_iff {t : String} : Unmarked t ↔ ¬ARCHIVE_TAG.toList <:+: t.toList := by
  rw [Unmarked, Bool.eq_false_iff, ne_eq, Text.includes_iff]

theorem not_unmarked (t x : String) : ¬Unmarked (t ++ ARCHIVE_TAG ++ x) := by
  rw [unmarked_iff, not_not, String.toList_append, String.toList_append]
  exact ⟨_, _, rfl⟩

/-- The mark with an id does not begin in front of where it was put, in a text that has no
    mark itself. -/
theorem mark_not_earlier {l m rest : List Char} {c : Char} {cs : List Char} (hc : c ≠ '_')
    (hl : ¬ARCHIVE_TAG.toList <:+: l) (hm : m <:+ l) (hne : m ≠ []) :
    ¬ARCHIVE_TAG.toList ++ c :: cs <+: m ++ (ARCHIVE_TAG.toList ++ c :: cs ++ rest) := by
  rintro ⟨u, hu⟩
  have tag : ARCHIVE_TAG.toList = ['_', '_', 'd', 'e', 'l', 'e', 't', 'e', 'd', '_'] := by decide
  rw [tag] at hu hl
  match m, hu with
  | [], _ => exact hne rfl
  | [_], hu => simp at hu
  | [_, _], hu => simp at hu
  | [_, _, _], hu => simp at hu
  | [_, _, _, _], hu => simp at hu
  | [_, _, _, _, _], hu => simp at hu
  | [_, _, _, _, _, _], hu => simp at hu
  | [_, _, _, _, _, _, _], hu => simp at hu
  | [_, _, _, _, _, _, _, _], hu => simp at hu
  | [_, _, _, _, _, _, _, _, _], hu => simp [hc] at hu
  | a₁ :: a₂ :: a₃ :: a₄ :: a₅ :: a₆ :: a₇ :: a₈ :: a₉ :: a₁₀ :: m', hu =>
    simp only [List.cons_append, List.nil_append, List.cons.injEq] at hu
    obtain ⟨rfl, rfl, rfl, rfl, rfl, rfl, rfl, rfl, rfl, rfl, -⟩ := hu
    exact hl (List.IsInfix.trans ⟨[], m', by simp⟩ hm.isInfix)

/-- A marked text is cut back to what it was, whatever else was put behind the mark. -/
theorem unmangle_marked {t id : String} (hid : PlainId id) (ht : Unmarked t) (x : String) :
    unmangleText (t ++ ARCHIVE_TAG ++ id ++ x) id = t := by
  obtain ⟨c, cs, hlist, hc⟩ := hid.cons
  have hchars : (t ++ ARCHIVE_TAG ++ id ++ x).toList = t.toList ++ ((ARCHIVE_TAG ++ id).toList ++ x.toList) := by
    simp only [String.toList_append, List.append_assoc]
  have hindex : Text.indexOf (t ++ ARCHIVE_TAG ++ id ++ x) (ARCHIVE_TAG ++ id) = some t.toList.length := by
    rw [Text.indexOf, List.findIdx?_eq_some_iff_getElem]
    refine ⟨by rw [hchars]; simp; omega, ?_, ?_⟩
    · rw [List.getElem_tails, List.isPrefixOf_iff_prefix, hchars, List.drop_left]
      exact ⟨x.toList, rfl⟩
    · intro j hj
      rw [List.getElem_tails, List.isPrefixOf_iff_prefix, hchars, List.drop_append_of_le_length (Nat.le_of_lt hj),
        String.toList_append, hlist]
      exact mark_not_earlier hc (unmarked_iff.1 ht) (List.drop_suffix j _) (by simpa using hj)
  rw [unmangleText, hindex]
  simp only [hchars, List.take_left, String.ofList_toList]

/-! ## Archiving -/

/-- The two ways to archive a route. -/
inductive Archiving
  | one (confirmName : Option String)
  | among (ids : List String)

def Archiving.perform (now id : String) : Archiving → Handler Unit
  | .one confirmName => deleteRoute now id confirmName
  | .among ids => do let _ ← bulkDelete now ids

/-- The path an archived route is left with. -/
def Archiving.path (a : Archiving) (id p : String) : String := match a with
  | .one _ => mangleText p id
  | .among _ => p ++ ARCHIVE_TAG ++ id

/-- The slug it is left with. -/
def Archiving.slug (a : Archiving) (id : String) (v : Json) : Json := match a with
  | .one _ => mangleForArchive v id
  | .among _ => v

/-- What another route may lose when one is archived: its path, to one with a mark. -/
def KeepsName (q q' : Row) : Prop :=
  q'.val .slug = q.val .slug ∧
    (q'.val .publicPath = q.val .publicPath ∨ ∃ t, q'.val .publicPath = .str t ∧ ¬Unmarked t)

/-- What archiving a route leaves. -/
structure ArchivedBy (a : Archiving) (id : String) (r : Row) (s s' : Store) : Prop where
  row : ∃ r', s'.routes.get? id = some r' ∧ r'.live = false ∧
    r'.val .publicPath = .str (a.path id (r.string .publicPath)) ∧ r'.val .slug = a.slug id (r.val .slug)
  others : ∀ k q', k ≠ id → s'.routes.get? k = some q' → ∃ q, s.routes.get? k = some q ∧ KeepsName q q'
  unique : s'.NamesUnique

section Archiving

variable {s s' : Store} {now id : String} {r : Row}

theorem KeepsName.refl (q : Row) : KeepsName q q := ⟨rfl, Or.inl rfl⟩

theorem archived_of_written {data : Patch} {row : Row} (hw : WrittenRow now data r row)
    (hd : data .deletedAt = some (.str now)) : row.live = false := by
  rw [Row.live, hw.plain hd (by decide) rfl]
  rfl

theorem deleteRoute_archives (hu : s.NamesUnique) (hr : liveRoute? s id = some r) {confirmName : Option String}
    (h : Returns (deleteRoute now id confirmName) s () s') : ArchivedBy (.one confirmName) id r s s' := by
  unfold deleteRoute findLive at h
  simp only [bind_assoc, returns_read_bind, hr, returns_orThrow_bind, Option.some.injEq, exists_eq_left', returns_require_bind]
    at h
  obtain ⟨-, -, h⟩ := h
  obtain ⟨row, t, hwrite, hpure⟩ := (returns_bind _ _).1 h
  obtain rfl : s' = t := ((returns_pure _).1 hpure).2
  obtain ⟨hrow, rfl⟩ := wp_returns routeUpdate_spec hwrite
  obtain ⟨old, ho, hw⟩ := routeWrite_row hrow
  obtain rfl : r = old := Option.some.inj ((liveRoute?_iff.1 hr).1.symm.trans ho)
  refine ⟨⟨row, ?_, archived_of_written hw rfl, ?_, ?_⟩, ?_, wp_returns (routeUpdate_unique s hu) hwrite⟩
  · rw [get?_modify, if_pos rfl, ho]
    rfl
  · refine hw.plain ?_ (by decide) rfl
    show some (mangleForArchive (r.val .publicPath) id) = _
    rw [path_string]
    rfl
  · refine hw.plain rfl (by decide) ?_
    rcases slug_cases r with hs | ⟨t, hs⟩ <;>
    · rw [hs]
      rfl
  · intro k q hk hq
    rw [get?_modify, if_neg hk] at hq
    exact ⟨q, hq, KeepsName.refl q⟩

theorem bulkDelete_unique {ids : List String} : Stable Store.NamesUnique (bulkDelete now ids) := by
  refine stable_bind stable_read fun s => stable_bind (stable_atomic (stable_forM (fun x => ?_) _)) fun _ => stable_pure _
  exact stable_bind routeUpdate_unique fun _ => stable_pure _

theorem bulkDelete_archives (hu : s.NamesUnique) (hr : liveRoute? s id = some r) {ids : List String} {n : Nat}
    (h : Returns (bulkDelete now ids) s n s') (hgone : ∃ r', archivedRoute? s' id = some r') :
    ArchivedBy (.among ids) id r s s' := by
  have hunique : s'.NamesUnique := wp_returns (bulkDelete_unique s hu) h
  unfold bulkDelete at h
  rw [returns_read_bind] at h
  obtain ⟨u, t, hwrite, hpure⟩ := (returns_bind _ _).1 h
  obtain rfl : s' = t := ((returns_pure _).1 hpure).2
  obtain ⟨routes, rfl, hc⟩ := wp_returns (liveUpdates_keep (bulkArchiveData now)) hwrite
  obtain ⟨hget, hlive⟩ := liveRoute?_iff.1 hr
  obtain ⟨r', hr'⟩ := hgone
  obtain ⟨hget', hlive'⟩ := archivedRoute?_iff.1 hr'
  refine ⟨⟨r', hget', hlive', ?_⟩, ?_, hunique⟩
  · rcases hc.some hget hget' with rfl | ⟨-, -, -, hw⟩
    · rw [hlive] at hlive'
      cases hlive'
    · exact ⟨hw.plain rfl (by decide) rfl, hw.same rfl (by decide)⟩
  · intro k q' _ hq'
    cases hq : s.routes.get? k with
    | none => exact (hc.new hq hq').elim
    | some q =>
      refine ⟨q, rfl, ?_⟩
      rcases hc.some hq hq' with rfl | ⟨-, -, -, hw⟩
      · exact KeepsName.refl q'
      · exact ⟨hw.same rfl (by decide), Or.inr ⟨_, hw.plain rfl (by decide) rfl, not_unmarked _ _⟩⟩

/-- A route that one of the two archived. -/
theorem Archiving.archives {a : Archiving} (hu : s.NamesUnique) (hr : liveRoute? s id = some r)
    (h : Returns (a.perform now id) s () s') (hgone : ∃ r', archivedRoute? s' id = some r') : ArchivedBy a id r s s' := by
  cases a with
  | one confirmName => exact deleteRoute_archives hu hr h
  | among ids =>
    obtain ⟨n, t, hbulk, hpure⟩ := (returns_bind _ _).1 h
    obtain rfl : s' = t := ((returns_pure _).1 hpure).2
    exact bulkDelete_archives hu hr hbulk hgone

end Archiving

/-! ## Names for others -/

/-- `createRoute` first frees the path of a new route from an archived one; then no route may
    have it. Its slug no route may have, unless it is null. -/
structure NamesUsable (s : Store) (path : String) (slug : Json) : Prop where
  path : ∀ now, ∃ s', Returns (freeSoftDeletedPublicPath now (.str path)) s () s' ∧
    ∀ k q, s'.routes.get? k = some q → q.val .publicPath ≠ .str path
  slug : slug = .null ∨ ∀ k q, s.routes.get? k = some q → q.val .slug ≠ slug

/-- The holder of a path, if there is one, is archived, and no other route has the path with
    its mark. -/
def Freeable (s : Store) (path : String) : Prop :=
  ∀ k q, s.routes.get? k = some q → q.val .publicPath = .str path →
    q.live = false ∧ ¬HeldByOther s k .publicPath (.str (path ++ ARCHIVE_TAG ++ k))

section Usable

variable {s : Store} {now id : String} {r : Row} {path : String} {slug : Json}

theorem pathWrite_iff (hr : s.routes.get? id = some r) {p : String} :
    (∃ row, routeWrite s now id (Patch.ofList [(.publicPath, .str p)]) = .ok row) ↔
      ¬HeldByOther s id .publicPath (.str p) := by
  obtain ⟨row, hw⟩ := write_typed r now (show ∀ c v, Patch.ofList [(.publicPath, .str p)] c = some v → c.admits v = true by
    intro c v h
    have hm := Patch.mem_of_ofList h
    simp only [List.mem_singleton, Prod.mk.injEq] at hm
    rw [hm.1, hm.2]
    rfl)
  have hpath : row.val .publicPath = .str p := hw.plain rfl (by decide) rfl
  have hunique : uniqueOk s id (Patch.ofList [(.publicPath, .str p)]) row = true ↔ ¬HeldByOther s id .publicPath (.str p) := by
    rw [← taken_text, uniqueOk, hpath]
    simp [Patch.ofList]
  rw [routeWrite_takes, ← hunique]
  constructor
  · rintro ⟨old, row', ho, hw', hok, -⟩
    obtain rfl : r = old := Option.some.inj (hr.symm.trans ho)
    obtain rfl : row = row' := Option.some.inj (hw.symm.trans hw')
    exact hok
  · intro h
    exact ⟨r, row, hr, hw, h, by simp [refsOk, Patch.ofList]⟩

theorem marked_ne (t x : String) : t ++ ARCHIVE_TAG ++ x ≠ t := by
  intro h
  have hlen := congrArg (fun u => u.toList.length) h
  have htag : ARCHIVE_TAG.toList.length = 10 := by decide
  simp only [String.toList_append, List.length_append, htag] at hlen
  omega

/-- The path of a new route is free after that exactly if its holder can give it up. -/
theorem free_path_iff (hu : s.NamesUnique) {path : String} :
    (∃ s', Returns (freeSoftDeletedPublicPath now (.str path)) s () s' ∧
      ∀ k q, s'.routes.get? k = some q → q.val .publicPath ≠ .str path) ↔ Freeable s path := by
  unfold freeSoftDeletedPublicPath
  simp only [returns_read_bind]
  cases hf : s.routes.find? fun _ r => r.val .publicPath = .str path && !r.live with
  | none =>
    simp only [returns_pure, true_and, exists_eq_left]
    constructor
    · intro h k q hq hp
      exact absurd hp (h k q hq)
    · intro h k q hq hp
      have hnone := find?_none hf hq
      simp [hp, (h k q hq hp).1] at hnone
  | some stale =>
    obtain ⟨k, r⟩ := stale
    obtain ⟨hr, hstale⟩ := find?_some hf
    simp only [Bool.and_eq_true, decide_eq_true_eq, Bool.not_eq_true'] at hstale
    obtain ⟨hp, hl⟩ := hstale
    have htext : (r.text .publicPath).getD "" = path := by rw [Row.text, hp]; rfl
    have only : ∀ j q, s.routes.get? j = some q → q.val .publicPath = .str path → j = k := by
      intro j q hq hpath
      by_contra hne
      exact hu.path hr ⟨j, q, hne, hq, hpath.trans hp.symm⟩
    have hiff : Freeable s path ↔ ∃ row, routeWrite s now k (Patch.ofList [(.publicPath, .str (path ++ ARCHIVE_TAG ++ k))]) = .ok row := by
      rw [pathWrite_iff hr]
      constructor
      · intro h
        exact (h k r hr hp).2
      · intro h j q hq hpath
        obtain rfl := only j q hq hpath
        obtain rfl : r = q := Option.some.inj (hr.symm.trans hq)
        exact ⟨hl, h⟩
    rw [hiff]
    simp only [htext]
    constructor
    · rintro ⟨s', hret, -⟩
      obtain ⟨row, t, hwrite, -⟩ := (returns_bind _ _).1 hret
      exact ⟨row, (wp_returns routeUpdate_spec hwrite).1⟩
    · rintro ⟨row, hrow⟩
      obtain ⟨old, ho, hw⟩ := routeWrite_row hrow
      refine ⟨{ s with routes := s.routes.modify k fun _ => row }, (returns_bind _ _).2 ⟨row, _, routeUpdate_returns.2 ⟨hrow, rfl⟩,
        (returns_pure _).2 ⟨rfl, rfl⟩⟩, ?_⟩
      intro j q hq
      rw [get?_modify] at hq
      by_cases hj : j = k
      · subst hj
        rw [if_pos rfl, hr, Option.map_some, Option.some.injEq] at hq
        rw [← hq, hw.plain rfl (by decide) rfl]
        exact fun h => marked_ne path _ (Json.str.inj h)
      · rw [if_neg hj] at hq
        exact fun hpath => hj (only j q hq hpath)

theorem mangleText_unmarked {t : String} (ht : Unmarked t) (id : String) : mangleText t id = t ++ ARCHIVE_TAG ++ id := by
  rw [mangleText, ht]
  rfl

theorem mangleText_marked {t : String} (ht : ¬Unmarked t) (id : String) : mangleText t id = t := by
  rw [mangleText, if_pos (by simpa [Unmarked] using ht)]

theorem Archiving.path_unmarked (a : Archiving) {p : String} (hp : Unmarked p) (id : String) :
    a.path id p = p ++ ARCHIVE_TAG ++ id := by
  cases a with
  | one confirmName => exact mangleText_unmarked hp id
  | among ids => rfl

/-- An archived route whose path has no mark of its own has given it up already. -/
theorem ArchivedBy.path_gone {a : Archiving} {s' : Store} (h : ArchivedBy a id r s s') (hu : s.NamesUnique)
    (hr : liveRoute? s id = some r) (hp : Unmarked (r.string .publicPath)) {k : String} {q : Row}
    (hq : s'.routes.get? k = some q) : q.val .publicPath ≠ .str (r.string .publicPath) := by
  intro hpath
  by_cases hk : k = id
  · subst hk
    obtain ⟨r', hr', -, hpath', -⟩ := h.row
    obtain rfl : r' = q := Option.some.inj (hr'.symm.trans hq)
    rw [hpath', a.path_unmarked hp, Json.str.injEq] at hpath
    exact marked_ne _ _ hpath
  · obtain ⟨q₀, hq₀, -, hsame | ⟨t, ht, hmarked⟩⟩ := h.others k q hk hq
    · rw [hsame, ← path_string] at hpath
      exact hu.path (liveRoute?_iff.1 hr).1 ⟨k, q₀, hk, hq₀, hpath⟩
    · rw [ht, Json.str.injEq] at hpath
      exact hmarked (hpath ▸ hp)

/-- When an archived route leaves both its names to others. -/
structure Releases (a : Archiving) (s' : Store) (path : String) (slug : Json) : Prop where
  slug : slug = .null ∨ ∃ t confirmName, slug = .str t ∧ a = .one confirmName ∧ Unmarked t
  path : Unmarked path ∨ Freeable s' path

theorem ArchivedBy.usable_iff {a : Archiving} {s' : Store} (h : ArchivedBy a id r s s') (hu : s.NamesUnique)
    (hr : liveRoute? s id = some r) :
    NamesUsable s' (r.string .publicPath) (r.val .slug) ↔ Releases a s' (r.string .publicPath) (r.val .slug) := by
  obtain ⟨r', hr', -, -, hslug⟩ := h.row
  constructor
  · intro hn
    refine ⟨?_, Or.inr ((free_path_iff h.unique).1 (hn.path ""))⟩
    rcases slug_cases r with hnull | ⟨t, ht⟩
    · exact Or.inl hnull
    · have hother : r'.val .slug ≠ .str t := ht ▸ (hn.slug.resolve_left (by rw [ht]; exact nofun)) id r' hr'
      rw [hslug, ht] at hother
      cases a with
      | among ids => exact absurd rfl hother
      | one confirmName =>
        refine Or.inr ⟨t, confirmName, ht, rfl, ?_⟩
        by_contra hm
        exact hother (congrArg Json.str (mangleText_marked hm id))
  · intro hr'
    constructor
    case path =>
      intro now
      refine (free_path_iff h.unique).2 ?_
      rcases hr'.path with hp | hfree
      · exact fun k q hq hpath => absurd hpath (h.path_gone hu hr hp hq)
      · exact hfree
    case slug =>
      rcases hr'.slug with hnull | ⟨t, confirmName, ht, rfl, hm⟩
      · exact Or.inl hnull
      · refine Or.inr fun k q hq hheld => ?_
        by_cases hk : k = id
        · subst hk
          obtain ⟨r₁, hr₁, -, -, hslug₁⟩ := h.row
          obtain rfl : r₁ = q := Option.some.inj (hr₁.symm.trans hq)
          rw [hslug₁, ht] at hheld
          exact marked_ne t k ((mangleText_unmarked hm k).symm.trans (Json.str.inj hheld))
        · obtain ⟨q₀, hq₀, hsame, -⟩ := h.others k q hk hq
          rw [hsame] at hheld
          exact hu.slug (liveRoute?_iff.1 hr).1 (by rw [ht]; exact nofun) ⟨k, q₀, hk, hq₀, hheld⟩

/-- A create that asks for the names is not refused for them. -/
theorem NamesUsable.create (h : NamesUsable s path slug) {W : World} {d : Draw} {data : Patch} {userId : String}
    (hp : data .publicPath = some (.str path)) (hs : data .slug = some slug) (ht : slug.truthy = true)
    (hid : s.routes.get? d.routeId = none) (hv : s.routeVersions.get? d.versionId = none) :
    wp (createRoute W d data userId) (fun _ _ => True) (fun e _ => e ≠ .prisma "P2002") s := by
  have hnull : slug ≠ .null := by
    rintro rfl
    cases ht
  unfold createRoute
  simp only [wp_bind, wp_assertRouteTargetAllowed]
  refine ⟨fun _ => ?_, fun _ _ => by simp [Err.badRequest]⟩
  obtain ⟨s', hfree, hpath⟩ := h.path d.now
  obtain ⟨t, rfl, hc⟩ := wp_returns freeSoftDeletedPublicPath_keeps hfree
  have hslug : ∀ k q, t.get? k = some q → q.val .slug ≠ slug := by
    intro k q hq
    cases hq₀ : s.routes.get? k with
    | none => exact (hc.new hq₀ hq).elim
    | some q₀ =>
      have hother := h.slug.resolve_left hnull k q₀ hq₀
      rcases hc.some hq₀ hq with rfl | hfreed
      · exact hother
      · rw [hfreed.2.2 .slug (by decide) (by decide)]
        exact hother
  rw [hp, Option.getD_some]
  refine wp_of_returns hfree ?_
  simp only [wp_bind, wp_require]
  refine ⟨fun _ => ?_, fun _ => by simp [Err.badRequest]⟩
  have hrules : wp (checkRewriteRules W (data .rewriteRules)) (fun _ s' => s' = { s with routes := t })
      (fun e _ => e ≠ .prisma "P2002") { s with routes := t } := by
    refine wp_forM_rest (I := fun _ s' => s' = { s with routes := t }) ?_ _ _ rfl
    rintro rule rules _ rfl
    rw [wp_require]
    exact ⟨fun _ => rfl, fun _ => by simp [Err.badRequest]⟩
  refine wp_mono hrules ?_ fun _ _ he => he
  rintro _ _ rfl
  unfold routeCreate
  simp only [wp_bind, wp_read, wp_orThrow, wp_require, wp_modify, wp_pure, versionCreate]
  refine ⟨fun row hrow => ⟨fun _ => ⟨fun _ => ⟨fun _ => trivial, fun hn => absurd (by rw [hv]; rfl) hn⟩, fun _ => by simp⟩,
    fun hn => absurd ⟨?_, ?_⟩ hn⟩, fun _ => by simp⟩
  · cases hq : t.get? d.routeId with
    | none => rfl
    | some q => exact (hc.new hid hq).elim
  · have hrowPath : row.val .publicPath = .str path := by
      refine create_given hrow ?_ (ColType.coerce_of_ne (by decide) _)
      rw [stamped_ne (by decide), Patch.set_ne _ _ (by decide), createData_ne (by decide) (by decide) (by decide), sealSecrets,
        if_neg (by decide), withTarget, if_neg (by decide), hp]
    have hrowSlug : row.val .slug = slug := by
      refine create_given hrow ?_ (ColType.coerce_of_ne (by decide) _)
      rw [stamped_ne (by decide), Patch.set_ne _ _ (by decide), createData_slug hs ht]
    have hpathFree : taken { s with routes := t } d.routeId .publicPath (row.val .publicPath) = false := by
      rw [hrowPath, taken_text]
      rintro ⟨k, q, -, hq, hheld⟩
      exact hpath k q hq hheld
    have hslugFree : taken { s with routes := t } d.routeId .slug (row.val .slug) = false := by
      rw [hrowSlug, Bool.eq_false_iff, ne_eq, taken_iff]
      rintro ⟨-, k, q, -, hq, hheld⟩
      exact hslug k q hq hheld
    simp [uniqueOk, hpathFree, hslugFree]

end Usable

/-! ## Meanwhile -/

/-- A request is about an archived route: it restores it or deletes it for good, or applies a
    change request to it. -/
def Request.concerns (W : World) (s : Store) (q : Request) (id : String) : Prop := match q.endpoint with
  | .route (.restore k) | .route (.deletePermanently k) => k = id
  | .change op => ∃ cr, op.applies W s q.caller q.draw cr id
  | _ => False

/-- The route is archived, with this slug and this path or one that goes on from it. -/
def KeptArchived (id path : String) (slug : Json) (s : Store) : Prop :=
  ∃ r x, s.routes.get? id = some r ∧ r.live = false ∧ r.val .publicPath = .str (path ++ x) ∧ r.val .slug = slug

section Meanwhile

variable {W : World} {s : Store} {q : Request} {id path : String} {slug : Json}

/-- An archived row may only be changed where its names are not, or have its path freed. -/
def ArchivedChange (id : String) (r r' : Row) : Prop :=
  Freed id r r' ∨
    (r'.val .deletedAt = r.val .deletedAt ∧ r'.val .publicPath = r.val .publicPath ∧ r'.val .slug = r.val .slug)

theorem AgreeBut.archivedChange {c : Column} {r r' : Row} (h : AgreeBut [c, .updatedAt] r r')
    (hc : c ∉ [Column.deletedAt, .publicPath, .slug]) : ArchivedChange id r r' := by
  simp only [List.mem_cons, List.not_mem_nil, or_false, not_or] at hc
  refine Or.inr ⟨h _ ?_, h _ ?_, h _ ?_⟩ <;> simp [Ne.symm hc.1, Ne.symm hc.2.1, Ne.symm hc.2.2]

/-- A request that is about other routes. -/
theorem changes_archived {r r' : Row} (h : q.changes W s id r r') (hl : r.live = false) (hq : ¬q.concerns W s id) :
    ArchivedChange id r r' := by
  obtain ⟨u, d, e⟩ := q
  have dead : ∀ {P : Prop}, r.live = true → P := by
    intro P h
    rw [hl] at h
    cases h
  cases e with
  | target op => exact h.elim
  | transform op => exact h.elim
  | member op => exact h.elim
  | folder op => exact AgreeBut.archivedChange h (by decide)
  | change op =>
    obtain ⟨cr, happlies, -⟩ := h
    exact absurd ⟨cr, happlies⟩ hq
  | group op =>
    cases op with
    | assign k routeId => exact h.2.2.2.2.archivedChange (by decide)
    | remove k routeId => exact h.2.2.2.2.archivedChange (by decide)
    | delete k => exact h.2.2.archivedChange (by decide)
    | create body => exact h.elim
    | update k body => exact h.elim
  | route op =>
    cases op with
    | create body => exact Or.inl h
    | «import» draws body => exact Or.inl h
    | update k body =>
      rcases h with hfreed | ⟨-, -, -, data, -, hupdated⟩
      · exact Or.inl hfreed
      · exact dead hupdated.1
    | restoreVersion k v =>
      rcases h with hfreed | ⟨-, -, version, -, -, hupdated⟩
      · exact Or.inl hfreed
      · exact dead hupdated.1
    | publish k => exact dead h.2.1
    | deactivate k => exact dead h.2.1
    | delete k c => exact dead h.2.1
    | restore k => exact absurd h.1.symm hq
    | deletePermanently k => exact h.elim
    | duplicate k => exact h.elim
    | bulkUpdate body =>
      obtain ⟨-, data, -, -, hlive, -⟩ := h
      exact dead hlive
    | bulkPublish body =>
      obtain ⟨-, data, -, -, hlive, -⟩ := h
      exact dead hlive
    | bulkDeactivate body =>
      obtain ⟨-, data, -, -, hlive, -⟩ := h
      exact dead hlive
    | bulkDelete body =>
      obtain ⟨data, -, -, hlive, -⟩ := h
      exact dead hlive

theorem step_keptArchived (h : KeptArchived id path slug s) (hq : ¬q.concerns W s id) :
    KeptArchived id path slug (step W s q) := by
  obtain ⟨r, x, hr, hl, hpath, hslug⟩ := h
  have hroutes := (step_footprint W s q).routes
  cases hr' : (step W s q).routes.get? id with
  | none =>
    have hremoved := hroutes.gone hr hr'
    obtain ⟨u, d, e⟩ := q
    cases e with
    | route op =>
      cases op with
      | deletePermanently k => exact absurd hremoved.1.symm hq
      | _ => exact hremoved.elim
    | _ => exact hremoved.elim
  | some r' =>
    rcases hroutes.some hr hr' with rfl | hchange
    · exact ⟨r', x, hr', hl, hpath, hslug⟩
    · rcases changes_archived hchange hl hq with hfreed | ⟨hd, hp, hs⟩
      · have hl' := hfreed.live
        obtain ⟨-, ⟨p, y, hp, hp'⟩, hrest⟩ := hfreed
        rw [hpath, Json.str.injEq] at hp
        refine ⟨r', x ++ y, hr', hl', ?_, (hrest .slug (by decide) (by decide)).trans hslug⟩
        rw [hp', ← hp, String.append_assoc]
      · refine ⟨r', x, hr', ?_, hp.trans hpath, hs.trans hslug⟩
        rw [Row.live, hd]
        exact hl

/-- Requests about other routes leave an archived route archived, with its names. -/
theorem run_keptArchived {es : List Request} (h : KeptArchived id path slug s)
    (hes : Along (step W) (fun s q => ¬q.concerns W s id) s es) : KeptArchived id path slug (run (step W) s es) :=
  run_keeps (fun _ _ hk hq => step_keptArchived hk hq) h hes

end Meanwhile

/-! ## Coming back -/

/-- What a name that is taken becomes. -/
def restoredName (id t : String) : String := t ++ "-restored-" ++ String.ofList (id.toList.rtake 5)

/-- The name a route comes back under. -/
def comesBack (s : Store) (id : String) (c : Column) (t : String) : String :=
  if liveClash s id c (.str t) then restoredName id t else t

/-- The slug it comes back under; an empty one is not looked for. -/
def slugBack (s : Store) (id : String) (slug : Json) : Json := match slug with
  | .str t => .str (if t = "" then "" else comesBack s id .slug t)
  | v => v

section Restoring

variable {s s' : Store} {now id userId path : String} {slug : Json} {r : Row}

theorem restoredText_str (c : Column) (t : String) : restoredText s id c (.str t) = .str (comesBack s id c t) := by
  cases h : liveClash s id c (.str t) <;> simp [restoredText, comesBack, restoredName, h]

theorem restoreData_path (hp : unmangleText (r.string .publicPath) id = path) :
    restoreData s id userId r .publicPath = some (.str (comesBack s id .publicPath path)) := by
  show some (restoredText s id .publicPath (unmangleArchive (r.val .publicPath) id)) = _
  rw [path_string, unmangleArchive, hp, restoredText_str]

theorem restoreData_slug (hs : unmangleArchive (r.val .slug) id = slug) :
    restoreData s id userId r .slug = some (slugBack s id slug) := by
  show some (if (unmangleArchive (r.val .slug) id).truthy then
    restoredText s id .slug (unmangleArchive (r.val .slug) id) else unmangleArchive (r.val .slug) id) = _
  rw [hs]
  rcases slug_cases r with hnull | ⟨t, ht⟩
  · rw [hnull] at hs
    rw [← hs]
    rfl
  · rw [ht] at hs
    rw [← hs]
    unfold unmangleArchive slugBack
    by_cases hempty : unmangleText t id = ""
    · simp [hempty, Json.truthy]
    · simp [hempty, restoredText_str]

theorem slugBack_admits (hs : unmangleArchive (r.val .slug) id = slug) : Column.slug.admits (slugBack s id slug) = true := by
  rcases slug_cases r with hnull | ⟨t, ht⟩
  · rw [hnull] at hs
    rw [← hs]
    rfl
  · rw [ht] at hs
    rw [← hs]
    rfl

theorem restoreData_admits (hp : unmangleText (r.string .publicPath) id = path)
    (hs : unmangleArchive (r.val .slug) id = slug) {c : Column} {v : Json} (h : restoreData s id userId r c = some v) :
    c.admits v = true := by
  by_cases hpath : c = .publicPath
  · subst hpath
    rw [restoreData_path hp, Option.some.injEq] at h
    rw [← h]
    rfl
  by_cases hslug : c = .slug
  · subst hslug
    rw [restoreData_slug hs, Option.some.injEq] at h
    rw [← h]
    exact slugBack_admits hs
  have hm := Patch.mem_of_ofList h
  simp only [List.mem_cons, Prod.mk.injEq, hpath, hslug, false_and, List.not_mem_nil, or_false, false_or] at hm
  rcases hm with ⟨rfl, rfl⟩ | ⟨rfl, rfl⟩ | ⟨rfl, rfl⟩ | ⟨rfl, rfl⟩ <;> rfl

/-- The row a restore writes, if the database takes it. -/
theorem restore_written (s : Store) (now userId : String) (hp : unmangleText (r.string .publicPath) id = path)
    (hs : unmangleArchive (r.val .slug) id = slug) :
    ∃ row, WrittenRow now (restoreData s id userId r) r row ∧
      row.val .publicPath = .str (comesBack s id .publicPath path) ∧ row.val .slug = slugBack s id slug := by
  obtain ⟨row, hw⟩ := write_typed r now fun c v (h : restoreData s id userId r c = some v) => restoreData_admits hp hs h
  exact ⟨row, hw, hw.plain (restoreData_path hp) (by decide) rfl,
    hw.plain (restoreData_slug hs) (by decide) (slugBack_admits hs)⟩

/-- A restore goes through exactly if no other route has the names it writes. -/
theorem restoreRoute_returns (hr : archivedRoute? s id = some r) {row : Row}
    (hw : WrittenRow now (restoreData s id userId r) r row) {a : Row} :
    Returns (restoreRoute now id userId) s a s' ↔
      (taken s id .publicPath (row.val .publicPath) = false ∧ taken s id .slug (row.val .slug) = false) ∧
        a = row ∧ s' = { s with routes := s.routes.modify id fun _ => row } := by
  obtain ⟨hget, -⟩ := archivedRoute?_iff.1 hr
  have hunique : uniqueOk s id (restoreData s id userId r) row = true ↔
      taken s id .publicPath (row.val .publicPath) = false ∧ taken s id .slug (row.val .slug) = false := by
    simp [uniqueOk, restoreData, Patch.ofList]
  have hrefs : refsOk s (restoreData s id userId r) row = true := by simp [refsOk, restoreData, Patch.ofList]
  unfold restoreRoute findArchived
  simp only [bind_assoc, returns_read_bind, hr, returns_orThrow_bind, Option.some.injEq, exists_eq_left', routeUpdate_returns,
    ← hunique]
  constructor
  · rintro ⟨hok, rfl⟩
    obtain ⟨old, row', ho, hw', hu, -⟩ := routeWrite_takes.1 ⟨a, hok⟩
    obtain ⟨old', ho', ha⟩ := routeWrite_row hok
    obtain rfl : r = old := Option.some.inj (hget.symm.trans ho)
    obtain rfl : r = old' := Option.some.inj (hget.symm.trans ho')
    obtain rfl : row = row' := Option.some.inj (hw.symm.trans hw')
    obtain rfl : row = a := Option.some.inj (hw.symm.trans ha)
    exact ⟨hu, rfl, rfl⟩
  · rintro ⟨hu, rfl, rfl⟩
    obtain ⟨row', hok⟩ := routeWrite_takes.2 ⟨r, a, hget, hw, hu, hrefs⟩
    obtain ⟨old', ho', ha⟩ := routeWrite_row hok
    obtain rfl : r = old' := Option.some.inj (hget.symm.trans ho')
    obtain rfl : a = row' := Option.some.inj (hw.symm.trans ha)
    exact ⟨hok, rfl⟩

/-- What a restored route should have: its own names where no live route has them, else a
    free path of the same kind that the schema takes, and a free slug. -/
structure GivenBack (s : Store) (id path : String) (slug : Json) (r' : Row) : Prop where
  ownPath : liveClash s id .publicPath (.str path) = false → r'.val .publicPath = .str path
  otherPath : liveClash s id .publicPath (.str path) = true →
    ¬HeldByOther s id .publicPath (r'.val .publicPath) ∧ (∀ W, FieldOk W .publicPath (r'.val .publicPath)) ∧
      wildcard (r'.string .publicPath) = wildcard path
  noSlug : slug = .null → r'.val .slug = .null
  ownSlug : ∀ t, slug = .str t → liveClash s id .slug (.str t) = false → r'.val .slug = .str t
  otherSlug : ∀ t, slug = .str t → liveClash s id .slug (.str t) = true →
    ∃ t', r'.val .slug = .str t' ∧ ¬HeldByOther s id .slug (.str t')

/-- No other route has the name, or a live one has it and no route has the name with the
    ending. -/
def NameWaits (s : Store) (id : String) (c : Column) (t : String) : Prop :=
  if liveClash s id c (.str t) = true then ¬HeldByOther s id c (.str (restoredName id t)) else ¬HeldByOther s id c (.str t)

/-- When a route's names wait for it; an empty slug never gets an ending. -/
structure NamesWait (s : Store) (id path : String) (slug : Json) : Prop where
  pathWaits : NameWaits s id .publicPath path
  kind : liveClash s id .publicPath (.str path) = true → wildcard path = false ∧ UnderRoutes path
  slugWaits : ∀ t, slug = .str t → if t = "" then ¬HeldByOther s id .slug (.str "") else NameWaits s id .slug t

theorem nameWaits_iff {c : Column} {t : String} : NameWaits s id c t ↔ ¬HeldByOther s id c (.str (comesBack s id c t)) := by
  unfold NameWaits comesBack
  cases liveClash s id c (.str t) <;> simp

/-- The slug a restore writes is free exactly when the slug waits. -/
theorem slugBack_free (hs : unmangleArchive (r.val .slug) id = slug) :
    taken s id .slug (slugBack s id slug) = false ↔
      ∀ t, slug = .str t → if t = "" then ¬HeldByOther s id .slug (.str "") else NameWaits s id .slug t := by
  rcases slug_cases r with hnull | ⟨t₀, ht₀⟩
  · have hv : slug = .null := by
      rw [← hs, hnull]
      rfl
    rw [hv]
    exact iff_of_true taken_null fun t h => by cases h
  · have hv : slug = .str (unmangleText t₀ id) := by
      rw [← hs, ht₀]
      rfl
    have hone : (∀ t, slug = .str t → if t = "" then ¬HeldByOther s id .slug (.str "") else NameWaits s id .slug t) ↔
        if unmangleText t₀ id = "" then ¬HeldByOther s id .slug (.str "") else NameWaits s id .slug (unmangleText t₀ id) := by
      constructor
      · intro h
        exact h _ hv
      · intro h t ht
        obtain rfl : unmangleText t₀ id = t := Json.str.inj (hv.symm.trans ht)
        exact h
    rw [hone, hv, slugBack, taken_text]
    by_cases hempty : unmangleText t₀ id = ""
    · rw [if_pos hempty, if_pos hempty]
    · rw [if_neg hempty, if_neg hempty, nameWaits_iff]

theorem restoredName_exact (hid : PlainId id) (t : String) : wildcard (restoredName id t) = false := by
  have hne : id.toList.rtake 5 ≠ [] := by
    intro h
    have hlen := congrArg List.length h
    have hpos : 0 < id.toList.length := List.length_pos_iff.2 hid.1
    rw [List.rtake, List.length_drop, List.length_nil] at hlen
    omega
  have hlast : (id.toList.rtake 5).getLast hne ∈ id.toList := List.mem_of_mem_drop (List.getLast_mem hne)
  have hlist : (restoredName id t).toList =
      t.toList ++ "-restored-".toList ++ (id.toList.rtake 5).dropLast ++ [(id.toList.rtake 5).getLast hne] := by
    rw [List.append_assoc, List.dropLast_append_getLast hne]
    simp [restoredName]
  refine wildcard_of_last hlist ?_
  intro h
  have hstar := hid.2 _ (h ▸ hlast)
  cases hstar

theorem restoredName_underRoutes {id t : String} : UnderRoutes (restoredName id t) ↔ UnderRoutes t := by
  have hlist : (restoredName id t).toList = t.toList ++ '-' :: ("restored-".toList ++ id.toList.rtake 5) := by
    simp [restoredName]
  exact underRoutes_dash hlist

/-- What a restore gives back, when the marks are cut off again. -/
theorem restore_gives_back_iff (hid : PlainId id) (hr : archivedRoute? s id = some r)
    (hp : unmangleText (r.string .publicPath) id = path) (hs : unmangleArchive (r.val .slug) id = slug) :
    (∃ r' s', Returns (restoreRoute now id userId) s r' s' ∧ GivenBack s id path slug r') ↔ NamesWait s id path slug := by
  obtain ⟨row, hw, hpath, hslug⟩ := restore_written s now userId hp hs
  have hstring : row.string .publicPath = comesBack s id .publicPath path := by
    rw [Row.string, Row.text, hpath]
    rfl
  have returns : ∀ a s', Returns (restoreRoute now id userId) s a s' ↔ _ := fun _ _ => restoreRoute_returns hr hw
  have hfree : taken s id .publicPath (row.val .publicPath) = false ↔ NameWaits s id .publicPath path := by
    rw [hpath, taken_text, nameWaits_iff]
  have hslugFree : taken s id .slug (slugBack s id slug) = false ↔ _ := slugBack_free hs
  rw [← hslug] at hslugFree
  constructor
  · rintro ⟨a, s', hret, hback⟩
    obtain ⟨⟨hpfree, hsfree⟩, rfl, -⟩ := (returns a s').1 hret
    constructor
    case pathWaits => exact hfree.1 hpfree
    case kind =>
      intro hclash
      obtain ⟨-, hvalid, hkind⟩ := hback.otherPath hclash
      obtain ⟨p, hp', hunder⟩ := fieldOk_path.1 (hvalid World.plain)
      have hname : comesBack s id .publicPath path = restoredName id path := if_pos hclash
      rw [hpath, hname, Json.str.injEq] at hp'
      rw [hstring, hname, restoredName_exact hid] at hkind
      rw [← hp', restoredName_underRoutes] at hunder
      exact ⟨hkind.symm, hunder⟩
    case slugWaits => exact hslugFree.1 hsfree
  · intro h
    have hsfree := hslugFree.2 h.slugWaits
    refine ⟨row, _, (returns row _).2 ⟨⟨hfree.2 h.pathWaits, hsfree⟩, rfl, rfl⟩, ?_⟩
    constructor
    case ownPath =>
      intro hclash
      rw [hpath, comesBack, hclash]
      rfl
    case otherPath =>
      intro hclash
      obtain ⟨hexact, hunder⟩ := h.kind hclash
      have hname : comesBack s id .publicPath path = restoredName id path := if_pos hclash
      refine ⟨?_, fun W => fieldOk_path.2 ⟨_, hpath, ?_⟩, ?_⟩
      · rw [hpath]
        exact nameWaits_iff.1 h.pathWaits
      · rw [hname]
        exact restoredName_underRoutes.2 hunder
      · rw [hstring, hname, restoredName_exact hid, hexact]
    case noSlug =>
      rintro rfl
      exact hslug
    case ownSlug =>
      rintro t rfl hclash
      rw [hslug, slugBack, comesBack, hclash]
      simp
    case otherSlug =>
      rintro t rfl hclash
      rw [hslug, slugBack, taken_text] at hsfree
      exact ⟨_, hslug, hsfree⟩

end Restoring

/-! ## The whole life -/

/-- The archived row's path is cut back to the path it was archived with. -/
def CutsBack (s : Store) (id path : String) : Prop :=
  Unmarked path ∨ ∀ r, s.routes.get? id = some r → unmangleText (r.string .publicPath) id = path

section Life

variable {W : World} {s s₁ : Store} {a : Archiving} {now id userId : String} {r : Row}

theorem ArchivedBy.kept (h : ArchivedBy a id r s s₁) :
    KeptArchived id (a.path id (r.string .publicPath)) (a.slug id (r.val .slug)) s₁ := by
  obtain ⟨r₁, hr₁, hl, hpath, hslug⟩ := h.row
  exact ⟨r₁, "", hr₁, hl, by rw [hpath, String.append_empty], hslug⟩

/-- A slug that was released comes back. -/
theorem Releases.unmangle_slug {slug : Json} {path : String} (h : Releases a s₁ path slug) (hid : PlainId id) :
    unmangleArchive (a.slug id slug) id = slug := by
  rcases h.slug with rfl | ⟨t, confirmName, rfl, rfl, ht⟩
  · cases a <;> rfl
  · show Json.str (unmangleText (mangleText t id) id) = _
    rw [mangleText_unmarked ht, ← String.append_empty (s := t ++ ARCHIVE_TAG ++ id), unmangle_marked hid ht]

/-- A route that was archived, with any requests about other routes after that, left its
    names to others and gets them back, or free ones of their kind, exactly if they carried
    no mark, the slug was given up too, and they wait for it when it is restored. -/
theorem archive_life_cycle_iff (hid : PlainId id) (hu : s.NamesUnique) (hr : liveRoute? s id = some r)
    (ha : Returns (a.perform now id) s () s₁) (hgone : ∃ r', archivedRoute? s₁ id = some r') {es : List Request}
    (hes : Along (step W) (fun s q => ¬q.concerns W s id) s₁ es)
    (hcut : CutsBack (run (step W) s₁ es) id (r.string .publicPath)) (later : String) :
    (NamesUsable s₁ (r.string .publicPath) (r.val .slug) ∧
        ∃ r' s', Returns (restoreRoute later id userId) (run (step W) s₁ es) r' s' ∧
          GivenBack (run (step W) s₁ es) id (r.string .publicPath) (r.val .slug) r') ↔
      Releases a s₁ (r.string .publicPath) (r.val .slug) ∧
        NamesWait (run (step W) s₁ es) id (r.string .publicPath) (r.val .slug) := by
  have harch := Archiving.archives hu hr ha hgone
  obtain ⟨r₂, x, hr₂, hl₂, hpath₂, hslug₂⟩ := run_keptArchived harch.kept hes
  have hpath : unmangleText (r₂.string .publicPath) id = r.string .publicPath := by
    rcases hcut with hplain | hcut
    · have hstring : r₂.string .publicPath = a.path id (r.string .publicPath) ++ x := by
        rw [Row.string, Row.text, hpath₂]
        rfl
      rw [hstring, a.path_unmarked hplain]
      exact unmangle_marked hid hplain x
    · exact hcut r₂ hr₂
  rw [harch.usable_iff hu hr]
  refine and_congr_right fun hreleased => ?_
  refine restore_gives_back_iff hid (archivedRoute?_iff.2 ⟨hr₂, hl₂⟩) hpath ?_
  rw [hslug₂]
  exact hreleased.unmangle_slug hid

end Life

/-! ## One route -/

namespace Archives

def id : String := "cmf3x1q2r0000s6o1h9d8k2ab"

def shop : Row := shopRoute

def store : Store := { Store.empty with routes := Table.empty.insert id shop }

theorem plainId : PlainId id := ⟨by decide, List.all_eq_true.1 (by decide)⟩

theorem only {k : String} {q : Row} (h : store.routes.get? k = some q) : k = id ∧ q = shop := by
  rw [store, get?_insert rfl, get?_empty] at h
  split at h
  · rename_i hk
    exact ⟨hk, (Option.some.inj h).symm⟩
  · cases h

theorem unique : store.NamesUnique := by
  intro j k a b ha hb hne
  rw [(only ha).1, (only hb).1] at hne
  exact absurd rfl hne

/-- The store after the route was archived. -/
def archived (a : Archiving) : Store := (a.perform "2026-01-02T00:00:00.000Z" id store).2

/-- No route but this one is there. -/
theorem alone {a : Archiving} (h : ArchivedBy a id shop store (archived a)) (c : Column) (v : Json) :
    ¬HeldByOther (archived a) id c v := by
  rintro ⟨k, q, hne, hq, -⟩
  obtain ⟨q₀, hq₀, -⟩ := h.others k q hne hq
  exact hne (only hq₀).1

end Archives

theorem a_deleted_route_comes_back :
    NamesUsable (Archives.archived (.one none)) "/r/shop" (.str "shop") ∧
      ∃ r' s', Returns (restoreRoute "2026-01-03T00:00:00.000Z" Archives.id "admin") (Archives.archived (.one none)) r' s' ∧
        GivenBack (Archives.archived (.one none)) Archives.id "/r/shop" (.str "shop") r' := by
  have hunmarked : Unmarked "/r/shop" := by
    unfold Unmarked
    decide
  have hslug : Unmarked "shop" := by
    unfold Unmarked
    decide
  have hreturns : Returns (Archiving.perform "2026-01-02T00:00:00.000Z" Archives.id (.one none)) Archives.store ()
      (Archives.archived (.one none)) := rfl
  have hgone : ∃ r', archivedRoute? (Archives.archived (.one none)) Archives.id = some r' :=
    Option.isSome_iff_exists.1 rfl
  have halone := Archives.alone (Archiving.archives Archives.unique rfl hreturns hgone)
  have hnone : Along (step World.plain) (fun s q => ¬q.concerns World.plain s Archives.id) (Archives.archived (.one none)) [] :=
    trivial
  refine (archive_life_cycle_iff Archives.plainId Archives.unique rfl hreturns hgone hnone (.inl hunmarked) _).2
    ⟨⟨.inr ⟨"shop", none, rfl, rfl, hslug⟩, .inl hunmarked⟩, ⟨?_, ?_, ?_⟩⟩
  · exact nameWaits_iff.2 (halone _ _)
  · intro hclash
    exact absurd (HeldByOther.of_clash hclash) (halone _ _)
  · intro t ht
    rw [if_neg (by cases ht; decide)]
    exact nameWaits_iff.2 (halone _ _)

/-- `bulkDelete` leaves the slug with the archived route. -/
theorem a_bulk_delete_keeps_the_slug :
    ¬∀ (W : World) (s s₁ : Store) (a : Archiving) (now id later userId : String) (r : Row) (es : List Request), PlainId id →
      s.NamesUnique → liveRoute? s id = some r → Returns (a.perform now id) s () s₁ →
      (∃ r', archivedRoute? s₁ id = some r') → Along (step W) (fun s q => ¬q.concerns W s id) s₁ es →
        NamesUsable s₁ (r.string .publicPath) (r.val .slug) ∧
          ∃ r' s', Returns (restoreRoute later id userId) (run (step W) s₁ es) r' s' ∧
            GivenBack (run (step W) s₁ es) id (r.string .publicPath) (r.val .slug) r' := by
  intro h
  have hreturns : Returns (Archiving.perform "2026-01-02T00:00:00.000Z" Archives.id (.among [Archives.id])) Archives.store ()
      (Archives.archived (.among [Archives.id])) := rfl
  have hgone : ∃ r', archivedRoute? (Archives.archived (.among [Archives.id])) Archives.id = some r' :=
    Option.isSome_iff_exists.1 rfl
  obtain ⟨husable, -⟩ := h World.plain Archives.store (Archives.archived (.among [Archives.id])) (.among [Archives.id])
    "2026-01-02T00:00:00.000Z" Archives.id "" "admin" Archives.shop [] Archives.plainId Archives.unique rfl hreturns hgone trivial
  obtain ⟨r', hr', -, -, hslug⟩ := (Archiving.archives Archives.unique rfl hreturns hgone).row
  rcases husable.slug with hnull | hfree
  · cases hnull
  · exact hfree Archives.id r' hr' hslug

end ClusterGate
