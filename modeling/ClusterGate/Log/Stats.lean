/-
  ClusterGate.Log.Stats — the 95th percentile of a route's durations (`services/logService.ts`:
  `getRouteStats`).

  The database is asked for the shortest thousand, and the percentile is that of these.
  - `p95Index_eq`: the index, in doubles, is the one of the fraction.
  - `p95_percentile_iff`: it is one of all durations exactly if there are at most 1001, or
    the one of rank 951 is as long as the one a percentile needs.
  - `the_shortest_thousand`: with 1002 different ones it is none.
-/

import ClusterGate.Lib.Number
import ClusterGate.Lib.Rank

namespace ClusterGate.Log

open Lib

inductive RequestSource
  | TRAFFIC | TEST | HEALTH_CHECK
  deriving DecidableEq

/-- What the query reads of a row. -/
structure TimedLog where
  routeId : Option String
  source : RequestSource
  duration : Option Int
  deriving DecidableEq

def NOT_HEALTH_CHECK (log : TimedLog) : Bool := log.source ≠ .HEALTH_CHECK

/-- The durations the query is about. -/
def loggedDurations (routeId : String) (logs : List TimedLog) : List Int :=
  (logs.filter fun l => l.routeId = some routeId && NOT_HEALTH_CHECK l).filterMap TimedLog.duration

/-- `Math.floor(n * 0.95)`; the double next to 0.95 is 8556839292003942 / 2^53. -/
def p95Index (n : Nat) : Nat := Number.nearest (n * 8556839292003942) / 2 ^ 53

def p95Duration (routeId : String) (logs : List TimedLog) : Option Int :=
  let found := (ascending (loggedDurations routeId logs)).take 1000
  let durations := ascending found
  durations[p95Index durations.length]?

theorem p95Index_eq {n : Nat} (h : n ≤ 1000) : p95Index n = 95 * n / 100 := by
  have hall : (List.range 1001).all (fun n => p95Index n = 95 * n / 100) = true := by decide +kernel
  simpa using List.all_eq_true.1 hall n (List.mem_range.2 (by omega))

/-- It is the duration of a rank among all. -/
theorem p95Duration_eq (routeId : String) (logs : List TimedLog) :
    p95Duration routeId logs =
      rank? (loggedDurations routeId logs) (95 * min 1000 (loggedDurations routeId logs).length / 100) := by
  rw [p95Duration]
  generalize loggedDurations routeId logs = ds
  have hsorted : ((ascending ds).take 1000).Pairwise (· ≤ ·) := (ascending_sorted ds).sublist (List.take_sublist 1000 _)
  have hlength : ((ascending ds).take 1000).length = min 1000 ds.length := by
    rw [List.length_take, (ascending_perm ds).length_eq]
  rw [ascending_of_sorted hsorted, hlength, p95Index_eq (Nat.min_le_left _ _), rank?, List.getElem?_take_of_lt (by omega)]

theorem p95_percentile_iff {routeId : String} {logs : List TimedLog} (h : loggedDurations routeId logs ≠ []) :
    (∃ v, p95Duration routeId logs = some v ∧ IsPercentile 95 (loggedDurations routeId logs) v) ↔
      (loggedDurations routeId logs).length ≤ 1001 ∨
        rank? (loggedDurations routeId logs) 950 =
          rank? (loggedDurations routeId logs) (percentileRank 95 (loggedDurations routeId logs).length) := by
  rw [p95Duration_eq]
  generalize loggedDurations routeId logs = ds at h ⊢
  have hpos : 0 < ds.length := List.length_pos_iff.2 h
  obtain ⟨v, hv⟩ := rank_some_iff.2 (show 95 * min 1000 ds.length / 100 < ds.length by omega)
  obtain ⟨w, hw⟩ := rank_some_iff.2 (show percentileRank 95 ds.length < ds.length by unfold percentileRank; omega)
  have hiff := percentile_iff (p := 95) (by decide) (by decide) (rank_mem hv) hw
  have hreported : (∃ u, rank? ds (95 * min 1000 ds.length / 100) = some u ∧ IsPercentile 95 ds u) ↔ w ≤ v := by
    rw [← hiff, hv]
    exact ⟨fun hu => by obtain ⟨u, hu, hp⟩ := hu; cases hu; exact hp, fun hp => ⟨v, rfl, hp⟩⟩
  rw [hreported, hw]
  by_cases hsmall : ds.length ≤ 1001
  · -- The percentile's rank is that of the thousand, or below.
    refine iff_of_true (rank_mono hw hv ?_) (.inl hsmall)
    unfold percentileRank
    omega
  · have hindex : 95 * min 1000 ds.length / 100 = 950 := by omega
    rw [hindex] at hv
    have hle : v ≤ w := rank_mono hv hw (by unfold percentileRank; omega)
    rw [hv, Option.some.injEq]
    exact ⟨fun hwv => .inr (le_antisymm hle hwv), fun hor => (hor.resolve_left hsmall).ge⟩

/-- The logs of a route, one with each of these durations. -/
def timed (durations : List Int) : List TimedLog := durations.map fun d => ⟨some "orders", .TRAFFIC, some d⟩

theorem loggedDurations_timed (durations : List Int) : loggedDurations "orders" (timed durations) = durations := by
  induction durations with
  | nil => rfl
  | cons d durations ih =>
    rw [timed, List.map_cons, loggedDurations, List.filter_cons_of_pos (by simp [NOT_HEALTH_CHECK]), List.filterMap_cons]
    exact congrArg (d :: ·) ih

theorem p95_of_twenty : ∃ v, p95Duration "orders" (timed ((List.range 20).map Int.ofNat)) = some v ∧
    IsPercentile 95 (loggedDurations "orders" (timed ((List.range 20).map Int.ofNat))) v :=
  (p95_percentile_iff (by rw [loggedDurations_timed]; simp)).2 (.inl (by rw [loggedDurations_timed]; simp))

/-- The durations from 0 to 1001. -/
def manyDurations : List Int := (List.range 1002).map Int.ofNat

theorem the_shortest_thousand : p95Duration "orders" (timed manyDurations) = some 950 ∧
    ¬IsPercentile 95 (loggedDurations "orders" (timed manyDurations)) 950 := by
  have hlength : manyDurations.length = 1002 := by simp [manyDurations]
  have hsorted : manyDurations.Pairwise (· ≤ ·) := by
    rw [manyDurations, List.pairwise_map]
    exact List.pairwise_le_range.imp fun hle => Int.ofNat_le.2 hle
  have hrank : ∀ k : Nat, k < 1002 → rank? manyDurations k = some k := by
    intro k hk
    rw [rank?, ascending_of_sorted hsorted, manyDurations, List.getElem?_map, List.getElem?_range hk]
    rfl
  have hreported : rank? manyDurations (95 * min 1000 1002 / 100) = some 950 := hrank 950 (by decide)
  have hneeded : rank? manyDurations (percentileRank 95 manyDurations.length) = some 951 := by
    rw [hlength]
    exact hrank 951 (by decide)
  rw [p95Duration_eq, loggedDurations_timed, hlength]
  refine ⟨hreported, fun h => ?_⟩
  exact absurd ((percentile_iff (by decide) (by decide) (rank_mem hreported) hneeded).1 h) (by decide)

end ClusterGate.Log
