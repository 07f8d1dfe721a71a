/-
  ClusterGate.Lib.Turns — the elements of a list, taken in turn.

  Turn `i` is the element at place `i` modulo the list's length. However many turns are
  taken and wherever they begin, as many in a row as the list is long are the list, rotated
  (`window_perm`).
-/

import Mathlib.Data.List.Rotate

namespace ClusterGate.Lib

section Turns

variable {α : Type} {l : List α} (hl : l ≠ [])

def turn (i : Nat) : α := l.get ⟨i % l.length, Nat.mod_lt _ (List.length_pos_iff.2 hl)⟩

/-- `k` turns from the `s`-th on. -/
def turns (s k : Nat) : List α := (List.range' s k).map (turn hl)

theorem turn_eq (i : Nat) : l[i % l.length]? = some (turn hl i) :=
  List.getElem?_eq_getElem (Nat.mod_lt i (List.length_pos_iff.2 hl))

@[simp] theorem turns_zero (s : Nat) : turns hl s 0 = [] := rfl

/-- One more turn. -/
theorem turns_succ (s k : Nat) : turns hl s (k + 1) = turns hl s k ++ [turn hl (s + k)] := by
  rw [turns, List.range'_1_concat, List.map_append]
  rfl

/-- Once around. -/
theorem turns_around (s : Nat) : turns hl s l.length = l.rotate s := by
  refine List.ext_getElem ?_ fun i h₁ h₂ => ?_
  · rw [turns, List.length_map, List.length_range', List.length_rotate]
  · rw [List.getElem_rotate]
    simp only [turns, List.getElem_map, List.getElem_range', turn, List.get_eq_getElem, Nat.one_mul, Nat.add_comm s i]

theorem window_perm {s k : Nat} {window : List α} (h : window <:+: turns hl s k) (hlen : window.length = l.length) :
    window.Perm l := by
  obtain ⟨before, after, hparts⟩ := h
  obtain ⟨xs, ys, hrange, hxs, -⟩ := List.map_eq_append_iff.1 hparts.symm
  obtain ⟨us, vs, rfl, -, hvs⟩ := List.map_eq_append_iff.1 hxs
  obtain ⟨m, -, huv, -⟩ := List.range'_eq_append_iff.1 hrange
  obtain ⟨j, -, -, rfl⟩ := List.range'_eq_append_iff.1 huv.symm
  have hcount : m - j = l.length := by
    rw [← hlen, ← hvs, List.length_map, List.length_range']
  have hturns : window = turns hl (s + j) l.length := by
    rw [← hvs, hcount, Nat.mul_one]
    rfl
  rw [hturns, turns_around]
  exact List.rotate_perm l _

end Turns

end ClusterGate.Lib
