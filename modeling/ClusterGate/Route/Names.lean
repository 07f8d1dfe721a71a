/-
  ClusterGate.Route.Names — which route has which path and slug.

  Both are unique among all routes, archived ones included; a null slug is none. Where the
  service makes a name of another, it puts an ending behind it that starts with a dash.
  - `routeUpdate_unique`: a write keeps names unique.
-/

import ClusterGate.Route.Effects
import ClusterGate.Proxy.Routing

namespace ClusterGate

open Lib Lib.Act Lib.Table

/-! ## Holders -/

/-- A route other than `id` has the value in the column. -/
def HeldByOther (s : Store) (id : String) (c : Column) (v : Json) : Prop :=
  ∃ k r, k ≠ id ∧ s.routes.get? k = some r ∧ r.val c = v

/-- No two routes have one path or one slug. -/
def Store.NamesUnique (s : Store) : Prop :=
  ∀ j k a b, s.routes.get? j = some a → s.routes.get? k = some b → j ≠ k →
    a.val .publicPath ≠ b.val .publicPath ∧ (a.val .slug = b.val .slug → a.val .slug = .null)

section Holders

variable {s : Store} {id : String} {c : Column} {v : Json} {r : Row}

theorem path_string (r : Row) : r.val .publicPath = .str (r.string .publicPath) := by
  obtain ⟨p, hp⟩ := r.string_val (c := .publicPath) rfl rfl
  rw [Row.string, Row.text, hp]
  rfl

/-- A slug is null or a text. -/
theorem slug_cases (r : Row) : r.val .slug = .null ∨ ∃ t, r.val .slug = .str t := by
  have h := r.typed .slug
  simp only [Column.admits, Column.nullable, Column.type, ColType.admits, Bool.true_and, Bool.or_eq_true,
    decide_eq_true_eq, Json.isStr_iff] at h
  exact h

theorem taken_iff : taken s id c v = true ↔ v ≠ .null ∧ HeldByOther s id c v := by
  simp only [taken, HeldByOther, Bool.and_eq_true, decide_eq_true_eq, any_iff]
  refine and_congr_right fun _ => ?_
  constructor
  · rintro ⟨k, q, hq, hne, hv⟩
    exact ⟨k, q, hne, hq, hv⟩
  · rintro ⟨k, q, hne, hq, hv⟩
    exact ⟨k, q, hq, hne, hv⟩

theorem taken_text {t : String} : taken s id c (.str t) = false ↔ ¬HeldByOther s id c (.str t) := by
  rw [Bool.eq_false_iff, ne_eq, taken_iff]
  simp

theorem taken_null : taken s id c .null = false := by simp [taken]

theorem liveClash_iff :
    liveClash s id c v = true ↔ ∃ k r, k ≠ id ∧ s.routes.get? k = some r ∧ r.live = true ∧ r.val c = v := by
  simp only [liveClash, any_iff, Bool.and_eq_true, decide_eq_true_eq]
  constructor
  · rintro ⟨k, q, hq, ⟨hne, hl⟩, hv⟩
    exact ⟨k, q, hne, hq, hl, hv⟩
  · rintro ⟨k, q, hne, hq, hl, hv⟩
    exact ⟨k, q, hq, ⟨hne, hl⟩, hv⟩

theorem HeldByOther.of_clash (h : liveClash s id c v = true) : HeldByOther s id c v := by
  obtain ⟨k, q, hne, hq, -, hv⟩ := liveClash_iff.1 h
  exact ⟨k, q, hne, hq, hv⟩

theorem Store.NamesUnique.path (hu : s.NamesUnique) (hr : s.routes.get? id = some r) :
    ¬HeldByOther s id .publicPath (r.val .publicPath) := by
  rintro ⟨k, q, hne, hq, hv⟩
  exact (hu k id q r hq hr hne).1 hv

theorem Store.NamesUnique.slug (hu : s.NamesUnique) (hr : s.routes.get? id = some r) (hs : r.val .slug ≠ .null) :
    ¬HeldByOther s id .slug (r.val .slug) := by
  rintro ⟨k, q, hne, hq, hv⟩
  exact hs ((hu id k r q hr hq hne.symm).2 hv.symm)

/-- The names a write leaves on its route are no other route's. -/
theorem routeWrite_names {now : String} {data : Patch} {row : Row} (hu : s.NamesUnique)
    (h : routeWrite s now id data = .ok row) :
    ¬HeldByOther s id .publicPath (row.val .publicPath) ∧
      (row.val .slug ≠ .null → ¬HeldByOther s id .slug (row.val .slug)) := by
  obtain ⟨old, row', ho, hw, hok, -⟩ := routeWrite_takes.1 ⟨row, h⟩
  obtain ⟨old', ho', hw'⟩ := routeWrite_row h
  obtain rfl : old = old' := Option.some.inj (ho.symm.trans ho')
  obtain rfl : row' = row := Option.some.inj (hw.symm.trans hw')
  simp only [uniqueOk, Bool.and_eq_true, Bool.or_eq_true, Bool.not_eq_true', Option.isNone_iff_eq_none] at hok
  constructor
  · rcases hok.1 with hnone | hfree
    · rw [hw'.same hnone (by decide)]
      exact hu.path ho
    · obtain ⟨p, hp⟩ := row'.string_val (c := .publicPath) rfl rfl
      rw [hp] at hfree ⊢
      exact taken_text.1 hfree
  · intro hs
    rcases hok.2 with hnone | hfree
    · rw [hw'.same hnone (by decide)] at hs ⊢
      exact hu.slug ho hs
    · exact fun hheld => absurd (taken_iff.2 ⟨hs, hheld⟩) (by simp [hfree])

theorem routeUpdate_unique {now : String} {data : Patch} : Stable Store.NamesUnique (routeUpdate now id data) := by
  intro s hu
  refine wp_mono routeUpdate_spec ?_ (by rintro _ _ ⟨-, rfl⟩; exact hu)
  rintro row _ ⟨hw, rfl⟩
  obtain ⟨hpath, hslug⟩ := routeWrite_names hu hw
  obtain ⟨old, ho, -⟩ := routeWrite_row hw
  have own : (s.routes.modify id fun _ => row).get? id = some row := by
    rw [get?_modify, if_pos rfl, ho]
    rfl
  have rest : ∀ k, k ≠ id → (s.routes.modify id fun _ => row).get? k = s.routes.get? k := by
    intro k hk
    rw [get?_modify, if_neg hk]
  intro j k a b ha hb hne
  by_cases hj : j = id
  · subst hj
    have hk : k ≠ j := Ne.symm hne
    obtain rfl : row = a := Option.some.inj (own.symm.trans ha)
    have hb' : s.routes.get? k = some b := (rest k hk).symm.trans hb
    refine ⟨fun h => hpath ⟨k, b, hk, hb', h.symm⟩, fun h => ?_⟩
    by_contra hs
    exact hslug hs ⟨k, b, hk, hb', h.symm⟩
  · have ha' : s.routes.get? j = some a := (rest j hj).symm.trans ha
    by_cases hk : k = id
    · subst hk
      obtain rfl : row = b := Option.some.inj (own.symm.trans hb)
      refine ⟨fun h => hpath ⟨j, a, hj, ha', h⟩, fun h => ?_⟩
      by_contra hs
      exact hslug (h ▸ hs) ⟨j, a, hj, ha', h⟩
    · exact hu j k a b ha' ((rest k hk).symm.trans hb) hne

end Holders

/-! ## Slugs -/

theorem cutTo_ne_empty {cs : List Char} {text : String}
    (h : (if cs = [] then none else some (String.ofList (cs.take 64))) = some text) : text ≠ "" := by
  by_cases hcs : cs = []
  · rw [if_pos hcs] at h
    cases h
  · rw [if_neg hcs] at h
    injection h with h
    rw [← h]
    intro he
    have htake := congrArg String.toList he
    rw [String.toList_ofList] at htake
    rcases List.take_eq_nil_iff.1 htake with h64 | hnil
    · cases h64
    · exact hcs hnil

theorem slugify_ne_empty {W : World} {name friendly : String} (h : slugify W name = some friendly) : friendly ≠ "" := by
  unfold slugify at h
  exact cutTo_ne_empty h

/-- What the search finds is free. -/
theorem slugLoop_free {clash : String → Bool} {base slug : String} {rounds i : Nat} {candidate : String}
    (h : slugLoop clash base rounds i candidate = some slug) : clash slug = false := by
  induction rounds generalizing i candidate with
  | zero => cases h
  | succ rounds ih =>
    rw [slugLoop] at h
    by_cases hc : clash candidate = true
    · rw [if_pos hc] at h
      exact ih h
    · rw [if_neg hc, Option.some.injEq] at h
      exact h ▸ Bool.eq_false_iff.2 hc

/-- A slug that is picked for a new route no route has. -/
theorem pickRouteSlug_free {W : World} {s : Store} {name slug : String} (h : pickRouteSlug W s name none = some slug) {k : String}
    {q : Row} (hq : s.routes.get? k = some q) : q.val .slug ≠ .str slug := by
  obtain ⟨base, -, hloop⟩ := Option.bind_eq_some_iff.1 h
  intro hheld
  have clash := slugLoop_free hloop
  have held : (s.routes.any fun k r => none ≠ some k && r.val .slug = .str slug) = true :=
    any_iff.2 ⟨k, q, hq, by simp [hheld]⟩
  rw [held] at clash
  cases clash

/-! ## Endings -/

/-- A name that does not end in a star is no wildcard. -/
theorem wildcard_of_last {p : String} {l : List Char} {c : Char} (h : p.toList = l ++ [c]) (hc : c ≠ '*') :
    wildcard p = false := by
  rw [wildcard, Text.endsWith, Bool.eq_false_iff, ne_eq, List.isSuffixOf_iff_suffix]
  rintro ⟨front, hfront⟩
  have hstar : (front ++ "/*".toList).getLast? = some '*' := by simp
  rw [hfront, h, List.getLast?_concat, Option.some.injEq] at hstar
  exact hc hstar

/-- A dash behind a path makes no difference to where it stands. -/
theorem underRoutes_dash {p base : String} {t : List Char} (h : p.toList = base.toList ++ '-' :: t) :
    UnderRoutes p ↔ UnderRoutes base := by
  unfold UnderRoutes
  rw [h]
  constructor
  · rintro ⟨rest, h⟩
    match base.toList, h with
    | [], h => cases h
    | [_], h => simp at h
    | [_, _], h => simp at h
    | a :: b :: d :: rest', h =>
      simp only [List.cons_append, List.cons.injEq] at h
      obtain ⟨rfl, rfl, rfl, -⟩ := h
      exact ⟨rest', rfl⟩
  · rintro ⟨rest, h⟩
    rw [h]
    exact ⟨_, rfl⟩

/-! ## A route -/

/-- A route with a slug of its name. -/
def shopRoute : Row := Row.ofFields
  [(.name, .str "Shop"), (.slug, .str "shop"), (.publicPath, .str "/r/shop"), (.targetUrl, .str "http://backend.svc"),
   (.createdAt, .str "2026-01-01T00:00:00.000Z"), (.updatedAt, .str "2026-01-01T00:00:00.000Z")] (by intro c; cases c <;> rfl)

end ClusterGate
