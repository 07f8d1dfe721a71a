/-
  ClusterGate.Route.Path — public paths stay under `/r/`, whatever the lifecycle makes of
  them: archiving and freeing append to a path, restoring takes that off again or appends,
  and a copy's path is the original's with an ending.
-/

import ClusterGate.Route.Lifecycle
import Mathlib.Data.List.Infix

namespace ClusterGate

open Lib

/-- A path the proxy serves. -/
def UnderRoutes (path : String) : Prop := ∃ rest, path.toList = '/' :: 'r' :: '/' :: rest

theorem underRoutes_iff {path : String} : UnderRoutes path ↔ Text.startsWith path "/r/" = true := by
  rw [Text.startsWith, List.isPrefixOf_iff_prefix]
  constructor
  · rintro ⟨rest, h⟩
    exact ⟨rest, h.symm⟩
  · rintro ⟨rest, h⟩
    exact ⟨rest, h.symm⟩

theorem UnderRoutes.append {path : String} (h : UnderRoutes path) (ending : String) : UnderRoutes (path ++ ending) := by
  obtain ⟨rest, h⟩ := h
  exact ⟨rest ++ ending.toList, by rw [String.toList_append, h]; rfl⟩

theorem UnderRoutes.mangle {path : String} (h : UnderRoutes path) (id : String) : UnderRoutes (mangleText path id) := by
  unfold mangleText
  split
  · exact h
  · rw [String.append_assoc]
    exact h.append _

/-- The archive tag is found behind the first three characters at the earliest. -/
theorem UnderRoutes.indexOf_tag {path id : String} (h : UnderRoutes path) {i : Nat}
    (hi : Text.indexOf path (ARCHIVE_TAG ++ id) = some i) : 3 ≤ i := by
  obtain ⟨rest, h⟩ := h
  obtain ⟨hlt, htag, -⟩ := List.findIdx?_eq_some_iff_getElem.1 hi
  rw [List.getElem_tails, h, String.toList_append, List.isPrefixOf_iff_prefix] at htag
  have head : (ARCHIVE_TAG.toList ++ id.toList).head? = some '_' := rfl
  obtain ⟨t, ht⟩ := htag
  have found : (List.drop i ('/' :: 'r' :: '/' :: rest)).head? = some '_' := by
    rw [← ht, List.head?_append, head]
    rfl
  match i, found with
  | 0, found => cases found
  | 1, found => cases found
  | 2, found => cases found
  | i + 3, _ => exact Nat.le_add_left 3 i

theorem UnderRoutes.unmangle {path id : String} (h : UnderRoutes path) : UnderRoutes (unmangleText path id) := by
  unfold unmangleText
  split
  · rename_i i hi
    have hge := h.indexOf_tag hi
    obtain ⟨rest, h⟩ := h
    refine ⟨rest.take (i - 3), ?_⟩
    obtain ⟨j, rfl⟩ := Nat.exists_eq_add_of_le' hge
    rw [String.toList_ofList, h]
    simp
  · exact h

theorem copyPath_underRoutes {clash : String → Bool} {base : String} (hb : UnderRoutes base) {rounds attempts : Nat}
    {path : String} (hp : UnderRoutes path) : UnderRoutes (copyPath clash base rounds attempts path) := by
  induction rounds generalizing attempts path with
  | zero => exact hp
  | succ rounds ih =>
    unfold copyPath
    split
    · refine ih ?_
      rw [String.append_assoc]
      exact hb.append _
    · exact hp

/-- Whatever a route is written with, its path stays under `/r/`. -/
def PathKept (r r' : Row) : Prop :=
  ∀ p, r.val .publicPath = .str p → UnderRoutes p → ∃ p', r'.val .publicPath = .str p' ∧ UnderRoutes p'

theorem PathKept.same {r r' : Row} (h : r'.val .publicPath = r.val .publicPath) : PathKept r r' :=
  fun p hp hu => ⟨p, h.trans hp, hu⟩

theorem restored_underRoutes {s : Store} {id p : String} (h : UnderRoutes p) :
    ∃ p', restoredText s id .publicPath (unmangleArchive (.str p) id) = .str p' ∧ UnderRoutes p' := by
  unfold unmangleArchive restoredText
  dsimp only
  split
  · refine ⟨_, rfl, ?_⟩
    rw [String.append_assoc]
    exact h.unmangle.append _
  · exact ⟨_, rfl, h.unmangle⟩

end ClusterGate
