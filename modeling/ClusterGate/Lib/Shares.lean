/-
  ClusterGate.Lib.Shares — a list of weights as shares of its sum.

  A draw is walked along the list, each weight taken off it, and stops at the first place
  where nothing is left of it.
  - `place_eq_some_iff`: that is the first place whose cumulative weight the draw does not
    exceed, whatever the signs of the weights.
  - `place_isSome`: a draw up to the sum stops.
  - `draws_between`: where no weight is negative, the draws that stop at one place are those
    between two cumulative weights, as far apart as its weight.
-/

import Mathlib.Algebra.Order.Field.Basic
import Mathlib.Algebra.Order.Group.Unbundled.Basic
import Mathlib.Algebra.Order.BigOperators.Group.List
import Mathlib.Order.Bounds.Basic
import Mathlib.Order.Interval.Set.Defs
import Mathlib.Tactic.Linarith

namespace ClusterGate.Lib

section Shares

variable {K : Type} [Field K]

/-- The weight of the first `k` places. -/
def share (ws : List K) (k : Nat) : K := (ws.take k).sum

/-- Where nothing is left of `r`. -/
def place [LinearOrder K] (r : K) : List K → Option Nat
  | [] => none
  | w :: ws => if r - w ≤ 0 then some 0 else (place (r - w) ws).map (· + 1)

@[simp] theorem share_zero (ws : List K) : share ws 0 = 0 := rfl
@[simp] theorem share_cons (w : K) (ws : List K) (k : Nat) : share (w :: ws) (k + 1) = w + share ws k := by simp [share]
@[simp] theorem share_length (ws : List K) : share ws ws.length = ws.sum := by simp [share]

theorem share_succ {ws : List K} {k : Nat} (hk : k < ws.length) : share ws (k + 1) = share ws k + ws[k] := by
  rw [share, share, List.sum_take_succ]

variable [LinearOrder K] [IsStrictOrderedRing K]

/-- The first place whose cumulative weight `r` does not exceed. -/
theorem place_eq_some_iff {ws : List K} {r : K} {k : Nat} :
    place r ws = some k ↔ k < ws.length ∧ r ≤ share ws (k + 1) ∧ ∀ j < k, share ws (j + 1) < r := by
  induction ws generalizing r k with
  | nil => simp [place]
  | cons w ws ih =>
    unfold place
    by_cases hw : r - w ≤ 0
    · rw [if_pos hw, Option.some.injEq]
      constructor
      · rintro rfl
        refine ⟨by simp, ?_, by simp⟩
        rw [share_cons, share_zero]
        linarith
      · rintro ⟨-, -, hbefore⟩
        cases k with
        | zero => rfl
        | succ k =>
          have hfirst := hbefore 0 (Nat.succ_pos k)
          rw [share_cons, share_zero] at hfirst
          linarith
    · rw [if_neg hw, Option.map_eq_some_iff]
      constructor
      · rintro ⟨k, hplace, rfl⟩
        obtain ⟨hk, hle, hbefore⟩ := ih.1 hplace
        refine ⟨by simpa using hk, ?_, ?_⟩
        · rw [share_cons]
          linarith
        · intro j hj
          rw [share_cons]
          cases j with
          | zero =>
            rw [share_zero]
            linarith
          | succ j =>
            have := hbefore j (by omega)
            linarith
      · rintro ⟨hk, hle, hbefore⟩
        cases k with
        | zero =>
          rw [share_cons, share_zero] at hle
          exact absurd hle (by linarith)
        | succ k =>
          refine ⟨k, ih.2 ⟨by simpa using hk, ?_, ?_⟩, rfl⟩
          · rw [share_cons] at hle
            linarith
          · intro j hj
            have := hbefore (j + 1) (by omega)
            rw [share_cons] at this
            linarith

/-- The place is the least such index, past the end of the list included. -/
theorem place_isLeast {ws : List K} {r : K} {k : Nat} (h : place r ws = some k) :
    IsLeast {j | r ≤ share ws (j + 1)} k := by
  obtain ⟨-, hle, hbefore⟩ := place_eq_some_iff.1 h
  refine ⟨hle, fun j hj => ?_⟩
  by_contra hlt
  exact absurd hj (not_le.2 (hbefore j (by omega)))

theorem place_isSome {ws : List K} (hne : ws ≠ []) {r : K} (hr : r ≤ ws.sum) : (place r ws).isSome = true := by
  induction ws generalizing r with
  | nil => exact absurd rfl hne
  | cons w ws ih =>
    unfold place
    by_cases hw : r - w ≤ 0
    · rw [if_pos hw]
      rfl
    · rw [if_neg hw, Option.isSome_map]
      rw [List.sum_cons] at hr
      have hnil : ws ≠ [] := by
        rintro rfl
        rw [List.sum_nil] at hr
        exact hw (by linarith)
      exact ih hnil (by linarith)

section Between

variable {ws : List K} (hws : ∀ w ∈ ws, 0 ≤ w)
include hws

theorem share_mono {i j : Nat} (hij : i ≤ j) : share ws i ≤ share ws j := by
  induction j, hij using Nat.le_induction with
  | base => exact le_refl _
  | succ j _ ih =>
    rcases Nat.lt_or_ge j ws.length with hj | hj
    · rw [share_succ hj]
      have := hws _ (List.getElem_mem hj)
      linarith
    · have hsame : share ws (j + 1) = share ws j := by
        rw [share, share, List.take_of_length_le hj, List.take_of_length_le (by omega)]
      rw [hsame]
      exact ih

theorem share_nonneg (k : Nat) : 0 ≤ share ws k := by
  rw [← share_zero ws]
  exact share_mono hws (Nat.zero_le k)

/-- The draws from `[0, 1)` that stop at place `k` begin and end at the shares before and
    behind it. -/
theorem draws_between (hsum : 0 < ws.sum) {k : Nat} (hk : k < ws.length) :
    Set.Ioo (share ws k / ws.sum) (share ws (k + 1) / ws.sum) ⊆
        {u | 0 ≤ u ∧ u < 1 ∧ place (u * ws.sum) ws = some k} ∧
      {u | 0 ≤ u ∧ u < 1 ∧ place (u * ws.sum) ws = some k} ⊆
        Set.Icc (share ws k / ws.sum) (share ws (k + 1) / ws.sum) ∧
      share ws (k + 1) / ws.sum - share ws k / ws.sum = ws[k] / ws.sum := by
  refine ⟨?_, ?_, ?_⟩
  · rintro u ⟨hlo, hhi⟩
    rw [div_lt_iff₀ hsum] at hlo
    rw [lt_div_iff₀ hsum] at hhi
    refine ⟨?_, ?_, place_eq_some_iff.2 ⟨hk, hhi.le, fun j hj => ?_⟩⟩
    · have hpos : 0 < u * ws.sum := lt_of_le_of_lt (share_nonneg hws k) hlo
      exact (pos_of_mul_pos_left hpos hsum.le).le
    · have htotal : share ws (k + 1) ≤ ws.sum := by
        rw [← share_length ws]
        exact share_mono hws hk
      have : u * ws.sum < 1 * ws.sum := by linarith
      exact lt_of_mul_lt_mul_right this hsum.le
    · exact lt_of_le_of_lt (share_mono hws (by omega)) hlo
  · rintro u ⟨hu, -, hplace⟩
    obtain ⟨-, hle, hbefore⟩ := place_eq_some_iff.1 hplace
    refine ⟨?_, (le_div_iff₀ hsum).2 hle⟩
    rw [div_le_iff₀ hsum]
    cases k with
    | zero =>
      rw [share_zero]
      exact mul_nonneg hu hsum.le
    | succ k => exact (hbefore k (by omega)).le
  · rw [share_succ hk, ← sub_div, add_sub_cancel_left]

end Between

end Shares

end ClusterGate.Lib
