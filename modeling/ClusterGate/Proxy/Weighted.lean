/-
  ClusterGate.Proxy.Weighted — the draw of a weighted route's target (`weighted` of
  `services/loadBalancerService.ts`).

  The draw, scaled by the sum of the weights, loses the weight of one target after another
  and stops where nothing is left of it. The target listed last is there for a loop that
  does not stop.
  - `weighted_is_exact`: it stops at the first target whose cumulative weight the scaled
    draw does not exceed, so each target has a stretch of the draws as long as its share;
    the last target is never fallen back on.
-/

import ClusterGate.Lib.Shares
import ClusterGate.Proxy.RoundRobin
import Mathlib.Algebra.Order.Ring.Rat
import Mathlib.Algebra.BigOperators.Group.List.Basic
import Mathlib.Data.Rat.Cast.Order

namespace ClusterGate

open Lib

/-- The weights of the targets, in their order. -/
def weightsOf (targets : TargetRows) : List Rat := targets.map fun target => (target.2.weight : Rat)

theorem foldl_weights (targets : TargetRows) (start : Int) :
    ((targets.foldl (fun sum target => sum + target.2.weight) start : Int) : Rat) = start + (weightsOf targets).sum := by
  induction targets generalizing start with
  | nil => simp [weightsOf]
  | cons target targets ih =>
    show _ = (start : Rat) + ((target.2.weight : Rat) :: weightsOf targets).sum
    rw [List.foldl_cons, ih, List.sum_cons, Int.cast_add, add_assoc]

/-- `totalWeight` -/
theorem totalWeight_eq (targets : TargetRows) :
    ((targets.foldl (fun sum target => sum + target.2.weight) (0 : Int) : Int) : Rat) = (weightsOf targets).sum := by
  rw [foldl_weights, Int.cast_zero, zero_add]

/-- The loop returns the target at the place where it stops. -/
theorem weightedFrom_place (random : Rat) (targets : TargetRows) :
    weightedFrom random targets = (place random (weightsOf targets)).bind fun k => targets[k]? := by
  induction targets generalizing random with
  | nil => rfl
  | cons target targets ih =>
    show (if random - target.2.weight ≤ 0 then some target else weightedFrom (random - target.2.weight) targets) =
      (place random ((target.2.weight : Rat) :: weightsOf targets)).bind _
    unfold place
    by_cases hstop : random - (target.2.weight : Rat) ≤ 0
    · rw [if_pos hstop, if_pos hstop]
      rfl
    · rw [if_neg hstop, if_neg hstop, ih, Option.bind_map]
      rfl

/-- A target the loop returns is the one drawn. -/
theorem weighted_of_loop {draw : Rat} {targets : TargetRows} {target : String × RouteTarget}
    (h : weightedFrom (draw * (weightsOf targets).sum) targets = some target) :
    weighted draw targets = some (selected target) := by
  unfold weighted
  dsimp only
  rw [totalWeight_eq, h]
  rfl

theorem selectTarget_weighted (draw : Rat) (routeId : String) {rows : TargetRows} (h : healthy rows ≠ []) :
    selectTarget draw routeId "WEIGHTED" rows = pure (weighted draw (healthy rows)) := by
  unfold selectTarget
  unfold healthy at h ⊢
  rw [if_neg h, if_neg (by decide), if_pos rfl]

/-- Of the healthy targets, each of a weight of at least one. -/
theorem weighted_is_exact (routeId : String) (rows : TargetRows) (hne : healthy rows ≠ [])
    (hweights : ∀ target ∈ healthy rows, 1 ≤ target.2.weight) :
    (∀ draw : Rat, 0 ≤ draw → draw < 1 → ∃ k target,
      (healthy rows)[k]? = some target ∧
      IsLeast {j | draw * (weightsOf (healthy rows)).sum ≤ share (weightsOf (healthy rows)) (j + 1)} k ∧
      place (draw * (weightsOf (healthy rows)).sum) (weightsOf (healthy rows)) = some k ∧
      weightedFrom (draw * (weightsOf (healthy rows)).sum) (healthy rows) = some target ∧
      ∀ g, selectTarget draw routeId "WEIGHTED" rows g = (.ok (some (selected target)), g)) ∧
    ∀ k target, (healthy rows)[k]? = some target →
      let draws := {draw : Rat | 0 ≤ draw ∧ draw < 1 ∧
        place (draw * (weightsOf (healthy rows)).sum) (weightsOf (healthy rows)) = some k}
      ∃ lo hi, Set.Ioo lo hi ⊆ draws ∧ draws ⊆ Set.Icc lo hi ∧ hi - lo = target.2.weight / (weightsOf (healthy rows)).sum := by
  generalize hts : healthy rows = targets at hne hweights ⊢
  have hnonneg : ∀ w ∈ weightsOf targets, 0 ≤ w := by
    intro w hw
    obtain ⟨target, htarget, rfl⟩ := List.mem_map.1 hw
    have := hweights target htarget
    exact_mod_cast (show (0 : Int) ≤ target.2.weight by omega)
  have hsum : 0 < (weightsOf targets).sum := by
    obtain ⟨target, rest, rfl⟩ := List.exists_cons_of_ne_nil hne
    have hfirst : (1 : Rat) ≤ target.2.weight := by exact_mod_cast hweights target List.mem_cons_self
    have hrest : 0 ≤ (weightsOf rest).sum := List.sum_nonneg fun w hw => hnonneg w (List.mem_cons_of_mem _ hw)
    show 0 < ((target.2.weight : Rat) :: weightsOf rest).sum
    rw [List.sum_cons]
    linarith
  refine ⟨?_, ?_⟩
  · intro draw h0 h1
    have hscaled : draw * (weightsOf targets).sum ≤ (weightsOf targets).sum := by
      have := mul_le_mul_of_nonneg_right h1.le hsum.le
      rwa [one_mul] at this
    have hstops := place_isSome (by simpa [weightsOf] using hne) hscaled
    obtain ⟨k, hplace⟩ := Option.isSome_iff_exists.1 hstops
    have hk : k < targets.length := by simpa [weightsOf] using (place_eq_some_iff.1 hplace).1
    have htarget : targets[k]? = some targets[k] := List.getElem?_eq_getElem hk
    have hloop : weightedFrom (draw * (weightsOf targets).sum) targets = some targets[k] := by
      rw [weightedFrom_place, hplace]
      exact htarget
    refine ⟨k, targets[k], htarget, place_isLeast hplace, hplace, hloop, fun g => ?_⟩
    rw [selectTarget_weighted draw routeId (by rw [hts]; exact hne), hts, weighted_of_loop hloop]
    rfl
  · intro k target htarget
    obtain ⟨hk, rfl⟩ := List.getElem?_eq_some_iff.1 htarget
    have hlen : k < (weightsOf targets).length := by simpa [weightsOf] using hk
    obtain ⟨hinside, houtside, hwidth⟩ := draws_between hnonneg hsum hlen
    refine ⟨_, _, hinside, houtside, hwidth.trans ?_⟩
    simp [weightsOf]

/-- Two targets, one of three times the weight of the other. -/
def oneToThree : TargetRows := [("a", { cartA.2 with weight := 1 }), ("b", { cartB.2 with weight := 3 })]

theorem weighted_is_exact_one_to_three :
    ∃ (k : Nat) (target : String × RouteTarget), (healthy oneToThree)[k]? = some target ∧
      ∀ g, selectTarget (1 / 2) "cart" "WEIGHTED" oneToThree g = (.ok (some (selected target)), g) := by
  obtain ⟨hdraws, -⟩ := weighted_is_exact "cart" oneToThree (by decide) (by simp [healthy, oneToThree])
  obtain ⟨k, target, htarget, -, -, -, hselect⟩ := hdraws (1 / 2) (by norm_num) (by norm_num)
  exact ⟨k, target, htarget, hselect⟩

end ClusterGate
