/-
  ClusterGate.Route.FreeSlug — the search for a slug that no other route has
  (`pickRouteSlug` of `services/routeService.ts`, `pickGroupSlug` of
  `services/routeGroupService.ts`; `uniqueSlug` of `lib/slug.ts`).

  `uniqueSlug` tries the base, then the base with -2, -3 and so on behind it, and finds the
  first of these that is free: `uniqueSlug_first`. The search over the rows counts twice a
  round and has an end of its own: it tries -2, -4 and so on up to -98.
  - `free_slug_found_iff`: both find the same slug exactly if the base is free or the least
    free number is even and at most 98.
  - `an_odd_number_is_skipped`: the base and -2 are taken, -3 is not.
-/

import ClusterGate.Grouping.Groups
import ClusterGate.Lib.IpText
import ClusterGate.Route.Slug
import Mathlib.Data.List.Perm.Subperm

namespace ClusterGate

open Lib Lib.Table

/-! ## Candidates -/

/-- A base with a number behind it. -/
def numbered (base : String) (i : Nat) : String := base ++ "-" ++ toString i

theorem numbered_injective (base : String) : Function.Injective (numbered base) := by
  intro i j h
  have htext : (base ++ "-").toList ++ (Nat.repr i).toList = (base ++ "-").toList ++ (Nat.repr j).toList := by
    rw [← String.toList_append, ← String.toList_append]
    exact congrArg String.toList h
  exact Ip.repr_injective (String.toList_inj.1 (List.append_cancel_left htext))

/-- Of finitely many slugs, some number up to one more than there are is free. -/
theorem exists_free (existing : List String) (base : String) :
    ∃ i ∈ List.range' 2 (existing.length + 1), numbered base i ∉ existing := by
  by_contra hall
  push Not at hall
  have hsub : (List.range' 2 (existing.length + 1)).map (numbered base) ⊆ existing := by
    intro slug hslug
    obtain ⟨i, hi, rfl⟩ := List.mem_map.1 hslug
    exact hall i hi
  have hnodup : ((List.range' 2 (existing.length + 1)).map (numbered base)).Nodup :=
    List.Nodup.map (numbered_injective base) List.nodup_range'
  have hlen := (List.subperm_of_subset hnodup hsub).length_le
  rw [List.length_map, List.length_range'] at hlen
  omega

/-- The base where it is free, else the base with the least free number. -/
def FirstFree (existing : List String) (base slug : String) : Prop :=
  (base ∉ existing ∧ slug = base) ∨
    (base ∈ existing ∧ ∃ i, 2 ≤ i ∧ numbered base i ∉ existing ∧ (∀ j, 2 ≤ j → j < i → numbered base j ∈ existing) ∧
      slug = numbered base i)

theorem FirstFree.unique {existing : List String} {base s t : String} (hs : FirstFree existing base s)
    (ht : FirstFree existing base t) : s = t := by
  rcases hs with ⟨hbase, rfl⟩ | ⟨hbase, i, hi, hfree, hleast, rfl⟩ <;>
    rcases ht with ⟨hbase', rfl⟩ | ⟨hbase', j, hj, hfree', hleast', rfl⟩
  · rfl
  · exact absurd hbase' hbase
  · exact absurd hbase hbase'
  · rcases Nat.lt_trichotomy i j with hlt | rfl | hlt
    · exact absurd (hleast' i hi hlt) hfree
    · rfl
    · exact absurd (hleast j hj hlt) hfree'

/-! ## `uniqueSlug` -/

/-- The loop over the numbers, as far as some rounds go. -/
def numberLoop (existing : List String) (base : String) : (rounds i : Nat) → Option String
  | 0, _ => none
  | rounds + 1, i =>
    if numbered base i ∈ existing then numberLoop existing base rounds (i + 1) else some (numbered base i)

/-- `uniqueSlug`: one round more than there are slugs is as good as no end. -/
def uniqueSlug (base : String) (existing : List String) : Option String :=
  if base ∉ existing then some base else numberLoop existing base (existing.length + 1) 2

theorem numberLoop_eq (existing : List String) (base : String) (rounds i : Nat) :
    numberLoop existing base rounds i =
      ((List.range' i rounds).find? fun j => decide (numbered base j ∉ existing)).map (numbered base) := by
  induction rounds generalizing i with
  | zero => rfl
  | succ rounds ih =>
    rw [numberLoop, List.range'_succ]
    by_cases h : numbered base i ∈ existing
    · rw [if_pos h, List.find?_cons_of_neg (by simpa using h), ih]
    · rw [if_neg h, List.find?_cons_of_pos (by simpa using h)]
      rfl

/-- However many rounds are left, the loop ends with the least free number. -/
theorem numberLoop_first {existing : List String} {base : String} (hbase : base ∈ existing) {rounds : Nat}
    (hrounds : existing.length < rounds) :
    ∃ slug, numberLoop existing base rounds 2 = some slug ∧ FirstFree existing base slug := by
  rw [numberLoop_eq]
  cases hfind : (List.range' 2 rounds).find? fun j => decide (numbered base j ∉ existing) with
  | none =>
    obtain ⟨i, hi, hfree⟩ := exists_free existing base
    rw [List.mem_range'_1] at hi
    have htaken := List.find?_eq_none.1 hfind i (List.mem_range'_1.2 ⟨hi.1, by omega⟩)
    exact absurd hfree (by simpa using htaken)
  | some i =>
    obtain ⟨hfree, hi, hleast⟩ := List.find?_range'_eq_some.1 hfind
    refine ⟨numbered base i, rfl, .inr ⟨hbase, i, (List.mem_range'_1.1 hi).1, by simpa using hfree, ?_, rfl⟩⟩
    intro j hj hlt
    simpa using hleast j hj hlt

theorem uniqueSlug_first (base : String) (existing : List String) :
    ∃ slug, uniqueSlug base existing = some slug ∧ FirstFree existing base slug := by
  unfold uniqueSlug
  by_cases hbase : base ∈ existing
  · rw [if_neg (not_not_intro hbase)]
    exact numberLoop_first hbase (Nat.lt_succ_self _)
  · rw [if_pos hbase]
    exact ⟨base, rfl, .inl ⟨hbase, rfl⟩⟩

/-! ## The search over the rows -/

/-- The slugs it tries for a name, in this order. -/
def slugCandidate (base : String) : Nat → String
  | 0 => base
  | n + 1 => base ++ "-" ++ toString (2 * n + 2)

theorem slugCandidate_ne_empty {base : String} (h : base ≠ "") (n : Nat) : slugCandidate base n ≠ "" := by
  cases n with
  | zero => exact h
  | succ n =>
    intro he
    have hlist := congrArg String.toList he
    simp [slugCandidate] at hlist

section Search

variable {clash : String → Bool} {base : String}

/-- The search finds the first of its candidates that is free. -/
theorem slugLoop_eq (rounds k : Nat) :
    slugLoop clash base rounds (2 * k + 1) (slugCandidate base k) =
      ((List.range' k rounds).find? fun n => !clash (slugCandidate base n)).map (slugCandidate base) := by
  induction rounds generalizing k with
  | zero => rfl
  | succ rounds ih =>
    have next : base ++ "-" ++ toString (2 * k + 1 + 1) = slugCandidate base (k + 1) := rfl
    have hi : 2 * k + 1 + 2 = 2 * (k + 1) + 1 := by omega
    rw [slugLoop, next, hi, List.range'_succ]
    cases hc : clash (slugCandidate base k) with
    | false =>
      rw [if_neg (by simp), List.find?_cons_of_pos (by simp [hc])]
      rfl
    | true => rw [if_pos rfl, List.find?_cons_of_neg (by simp [hc]), ih (k + 1)]

/-- The search ends without a slug if all its candidates are taken. -/
theorem slugLoop_none (rounds k : Nat) :
    slugLoop clash base rounds (2 * k + 1) (slugCandidate base k) = none ↔
      ∀ j, j < rounds → clash (slugCandidate base (k + j)) = true := by
  rw [slugLoop_eq, Option.map_eq_none_iff, List.find?_eq_none]
  constructor
  · intro h j hj
    simpa using h (k + j) (List.mem_range'_1.2 ⟨by omega, by omega⟩)
  · intro h n hn
    obtain ⟨hk, hlt⟩ := List.mem_range'_1.1 hn
    obtain ⟨j, rfl⟩ := Nat.exists_eq_add_of_le hk
    simpa using h j (by omega)

/-- A slug the search finds is one of its candidates. -/
theorem slugLoop_some {slug : String} (rounds k : Nat)
    (h : slugLoop clash base rounds (2 * k + 1) (slugCandidate base k) = some slug) : ∃ n, slug = slugCandidate base n := by
  rw [slugLoop_eq] at h
  obtain ⟨n, -, hn⟩ := Option.map_eq_some_iff.1 h
  exact ⟨n, hn.symm⟩

/-- A free base, or a least free number that is among those the search tries. -/
def FreeEven (existing : List String) (base : String) : Prop :=
  base ∉ existing ∨ ∃ i, 2 ≤ i ∧ i ≤ 98 ∧ Even i ∧ numbered base i ∉ existing ∧
    ∀ j, 2 ≤ j → j < i → numbered base j ∈ existing

/-- The search finds the first free slug exactly if that is one it tries. -/
theorem slugLoop_first_iff {existing : List String} (hclash : ∀ slug, clash slug = true ↔ slug ∈ existing) :
    (∃ slug, slugLoop clash base 50 1 base = some slug ∧ FirstFree existing base slug) ↔ FreeEven existing base := by
  have hfree : ∀ slug, clash slug = false ↔ slug ∉ existing := fun slug => by
    rw [← hclash, Bool.not_eq_true]
  have hloop : slugLoop clash base 50 1 base = _ := slugLoop_eq 50 0
  constructor
  · rintro ⟨slug, hslug, hfirst⟩
    rcases hfirst with ⟨hbase, -⟩ | ⟨hbase, i, hi, hnot, hleast, rfl⟩
    · exact .inl hbase
    · obtain ⟨n, hn, heq⟩ := Option.map_eq_some_iff.1 (hloop.symm.trans hslug)
      obtain ⟨-, hmem, -⟩ := List.find?_range'_eq_some.1 hn
      cases n with
      | zero => exact absurd (heq ▸ hbase) hnot
      | succ n =>
        have hin := (List.mem_range'_1.1 hmem).2
        obtain rfl : 2 * n + 2 = i := numbered_injective base heq
        exact .inr ⟨2 * n + 2, hi, by omega, ⟨n + 1, by omega⟩, hnot, hleast⟩
  · rintro (hbase | ⟨i, hi, hmax, ⟨m, rfl⟩, hnot, hleast⟩)
    · refine ⟨base, ?_, .inl ⟨hbase, rfl⟩⟩
      rw [slugLoop, if_neg (by rw [(hfree base).2 hbase]; simp)]
    · by_cases hbase : base ∈ existing
      · refine ⟨numbered base (m + m), ?_, .inr ⟨hbase, m + m, hi, hnot, hleast, rfl⟩⟩
        have hcandidate : slugCandidate base m = numbered base (m + m) := by
          obtain ⟨n, rfl⟩ : ∃ n, m = n + 1 := ⟨m - 1, by omega⟩
          show numbered base (2 * n + 2) = _
          congr 1
          omega
        refine hloop.trans ?_
        have hfind : ((List.range' 0 50).find? fun n => !clash (slugCandidate base n)) = some m := by
          refine List.find?_range'_eq_some.2 ⟨?_, List.mem_range'_1.2 ⟨by omega, by omega⟩, ?_⟩
          · rw [hcandidate, (hfree _).2 hnot]
            rfl
          · intro j _ hj
            rw [Bool.not_not]
            cases j with
            | zero => exact (hclash base).2 hbase
            | succ j => exact (hclash _).2 (hleast (2 * j + 2) (by omega) (by omega))
        rw [hfind, Option.map_some, hcandidate]
      · refine ⟨base, ?_, .inl ⟨hbase, rfl⟩⟩
        rw [slugLoop, if_neg (by rw [(hfree base).2 hbase]; simp)]

end Search

/-! ## Routes -/

/-- The slugs of the routes, but for the one that is being renamed. -/
def slugsOf (s : Store) (excludeId : Option String) : List String :=
  s.routes.rows.filterMap fun r => if excludeId ≠ some r.1 then (r.2.val .slug).str? else none

theorem mem_slugsOf {s : Store} {excludeId : Option String} {slug : String} :
    (s.routes.any fun k r => excludeId ≠ some k && r.val .slug = .str slug) = true ↔ slug ∈ slugsOf s excludeId := by
  rw [any_iff, slugsOf, List.mem_filterMap]
  constructor
  · rintro ⟨k, r, hr, h⟩
    simp only [Bool.and_eq_true, decide_eq_true_eq] at h
    exact ⟨(k, r), mem_rows_iff.2 hr, by rw [if_pos h.1, h.2]; rfl⟩
  · rintro ⟨⟨k, r⟩, hr, h⟩
    split at h
    · rename_i hne
      exact ⟨k, r, mem_rows_iff.1 hr, by simpa [hne] using Json.str?_some h⟩
    · cases h

/-- For every store, name with a base and route that is left out. -/
theorem free_slug_found_iff {W : World} {s : Store} {name base : String} {excludeId : Option String}
    (hbase : slugify W name = some base) :
    (∃ slug, pickRouteSlug W s name excludeId = some slug ∧ uniqueSlug base (slugsOf s excludeId) = some slug ∧
        FirstFree (slugsOf s excludeId) base slug) ↔
      FreeEven (slugsOf s excludeId) base := by
  rw [← slugLoop_first_iff (fun slug => mem_slugsOf)]
  have hpick : pickRouteSlug W s name excludeId =
      slugLoop (fun c => s.routes.any fun k r => excludeId ≠ some k && r.val .slug = .str c) base 50 1 base := by
    rw [pickRouteSlug, hbase]
    rfl
  rw [hpick]
  constructor
  · rintro ⟨slug, hslug, -, hfirst⟩
    exact ⟨slug, hslug, hfirst⟩
  · rintro ⟨slug, hslug, hfirst⟩
    obtain ⟨t, ht, htfirst⟩ := uniqueSlug_first base (slugsOf s excludeId)
    exact ⟨slug, hslug, ht.trans (by rw [htfirst.unique hfirst]), hfirst⟩

/-- Groups of routes have the same search. -/
theorem free_group_slug_iff {W : World} {s : Store} {name base : String} {excludeId : Option String} {existing : List String}
    (hbase : slugify W name = some base)
    (hexisting : ∀ slug, (s.routeGroups.any fun k g => excludeId ≠ some k && g.slug = some slug) = true ↔ slug ∈ existing) :
    (∃ slug, pickGroupSlug W s name excludeId = some slug ∧ FirstFree existing base slug) ↔ FreeEven existing base := by
  have hpick : pickGroupSlug W s name excludeId =
      slugLoop (fun c => s.routeGroups.any fun k g => excludeId ≠ some k && g.slug = some c) base 50 1 base := by
    rw [pickGroupSlug, hbase]
    rfl
  rw [hpick]
  exact slugLoop_first_iff hexisting

/-! ## An odd number -/

/-- A route with this slug. -/
def slugRoute (slug : String) : Row := Row.ofFields
  [(.name, .str "Shop"), (.slug, .str slug), (.publicPath, .str ("/r/" ++ slug)), (.targetUrl, .str "http://backend.svc"),
   (.createdAt, .str "2026-01-01T00:00:00.000Z"), (.updatedAt, .str "2026-01-01T00:00:00.000Z")] (by intro c; cases c <;> rfl)

/-- A store with routes of these slugs. -/
def slugStore (slugs : List String) : Store :=
  { Store.empty with routes := slugs.foldl (fun routes slug => routes.insert slug (slugRoute slug)) Table.empty }

theorem free_slug_found_shop :
    ∃ slug, pickRouteSlug World.plain (slugStore ["shop"]) "Shop" none = some slug ∧
      uniqueSlug "shop" (slugsOf (slugStore ["shop"]) none) = some slug ∧
      FirstFree (slugsOf (slugStore ["shop"]) none) "shop" slug :=
  (free_slug_found_iff (by decide +kernel)).2
    (.inr ⟨2, by decide, by decide, ⟨1, rfl⟩, by decide +kernel, fun j hj hlt => absurd hlt (by omega)⟩)

/-- Of shop and shop-2 the search makes shop-4. -/
theorem an_odd_number_is_skipped :
    ¬∀ (W : World) (s : Store) (name base : String) (excludeId : Option String), slugify W name = some base →
      ∃ slug, pickRouteSlug W s name excludeId = some slug ∧ uniqueSlug base (slugsOf s excludeId) = some slug ∧
        FirstFree (slugsOf s excludeId) base slug := by
  intro h
  obtain ⟨slug, hpick, hunique, -⟩ := h World.plain (slugStore ["shop", "shop-2"]) "Shop" "shop" none (by decide +kernel)
  have hfour : pickRouteSlug World.plain (slugStore ["shop", "shop-2"]) "Shop" none = some "shop-4" := by decide +kernel
  have hthree : uniqueSlug "shop" (slugsOf (slugStore ["shop", "shop-2"]) none) = some "shop-3" := by decide +kernel
  have hsame : some "shop-4" = some "shop-3" := by
    rw [← hfour, ← hthree, hpick, hunique]
  exact absurd hsame (by decide)

end ClusterGate
