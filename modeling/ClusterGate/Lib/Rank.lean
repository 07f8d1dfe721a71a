/-
  ClusterGate.Lib.Rank — the values of a list in ascending order, and percentiles.

  Ranks are counted from 0. A value is at least that of rank `k` exactly if more than `k`
  values are at most as great (`rank_le_iff`), so a value of the list is a percentile
  exactly if it is at least that of the percentile's rank (`percentile_iff`).
-/

import Mathlib.Data.List.Sort

namespace ClusterGate.Lib

section Rank

variable {α : Type} [LinearOrder α]

def ascending (xs : List α) : List α := xs.mergeSort fun a b => a ≤ b

def rank? (xs : List α) (k : Nat) : Option α := (ascending xs)[k]?

theorem ascending_perm (xs : List α) : (ascending xs).Perm xs := List.mergeSort_perm xs _

theorem ascending_sorted (xs : List α) : (ascending xs).Pairwise (· ≤ ·) := List.pairwise_mergeSort' _ xs

theorem ascending_of_sorted {xs : List α} (h : xs.Pairwise (· ≤ ·)) : ascending xs = xs := List.mergeSort_eq_self _ h

theorem rank_some_iff {xs : List α} {k : Nat} : (∃ v, rank? xs k = some v) ↔ k < xs.length := by
  rw [← (ascending_perm xs).length_eq, rank?]
  exact ⟨fun h => (List.getElem?_eq_some_iff.1 h.choose_spec).1, fun h => ⟨_, List.getElem?_eq_getElem h⟩⟩

theorem rank_mem {xs : List α} {k : Nat} {v : α} (h : rank? xs k = some v) : v ∈ xs :=
  (ascending_perm xs).mem_iff.1 (List.mem_of_getElem? h)

theorem sorted_le_iff {s : List α} (hs : s.Pairwise (· ≤ ·)) {k : Nat} {w : α} (hw : s[k]? = some w) (v : α) :
    w ≤ v ↔ k < s.countP (· ≤ v) := by
  induction s generalizing k with
  | nil => cases hw
  | cons x s ih =>
    obtain ⟨hx, hs⟩ := List.pairwise_cons.1 hs
    by_cases hle : x ≤ v
    · rw [List.countP_cons_of_pos (by simpa using hle)]
      cases k with
      | zero =>
        obtain rfl : x = w := Option.some.inj hw
        simp [hle]
      | succ k =>
        rw [List.getElem?_cons_succ] at hw
        rw [ih hs hw]
        omega
    · have hnone : s.countP (· ≤ v) = 0 := by
        rw [List.countP_eq_zero]
        intro y hy
        simpa using lt_of_lt_of_le (not_le.1 hle) (hx y hy)
      rw [List.countP_cons_of_neg (by simpa using hle), hnone]
      have hgreat : x ≤ w := by
        cases k with
        | zero => exact (Option.some.inj hw).le
        | succ k => exact hx w (List.mem_of_getElem? hw)
      simpa using lt_of_lt_of_le (not_le.1 hle) hgreat

theorem rank_le_iff {xs : List α} {k : Nat} {w : α} (h : rank? xs k = some w) (v : α) : w ≤ v ↔ k < xs.countP (· ≤ v) := by
  rw [sorted_le_iff (ascending_sorted xs) h v, (ascending_perm xs).countP_eq]

theorem rank_mono {xs : List α} {i j : Nat} {v w : α} (hi : rank? xs i = some v) (hj : rank? xs j = some w) (h : i ≤ j) :
    v ≤ w := by
  have hw := (rank_le_iff hj w).1 le_rfl
  exact (rank_le_iff hi w).2 (by omega)

/-- A value of the list with `p` percent of the values at most as great, and no more than the
    others greater. -/
structure IsPercentile (p : Nat) (xs : List α) (v : α) : Prop where
  mem : v ∈ xs
  below : p * xs.length ≤ 100 * xs.countP (· ≤ v)
  above : 100 * xs.countP (v < ·) ≤ (100 - p) * xs.length

/-- The rank that a percentile has at least. -/
def percentileRank (p n : Nat) : Nat := (p * n + 99) / 100 - 1

theorem percentile_iff {p : Nat} (hp : 0 < p) (hp' : p ≤ 100) {xs : List α} {v w : α} (hv : v ∈ xs)
    (hw : rank? xs (percentileRank p xs.length) = some w) : IsPercentile p xs v ↔ w ≤ v := by
  have hcount : xs.countP (v < ·) + xs.countP (· ≤ v) = xs.length := by
    rw [List.length_eq_countP_add_countP (fun x => decide (x ≤ v)) (l := xs), Nat.add_comm]
    simp
  have hpos : 0 < p * xs.length := Nat.mul_pos hp (List.length_pos_of_mem hv)
  have hsplit : (100 - p) * xs.length + p * xs.length = 100 * xs.length := by
    rw [← Nat.add_mul, Nat.sub_add_cancel hp']
  rw [rank_le_iff hw v, percentileRank]
  constructor
  · intro h
    have hbelow := h.below
    omega
  · intro h
    exact ⟨hv, by omega, by omega⟩

end Rank

end ClusterGate.Lib
