/-
  ClusterGate.Proxy.RoundRobin — the targets of a route taken in turn by all replicas
  (`roundRobin` of `services/loadBalancerService.ts`).

  A request on some replica loads the route with its targets, in whatever order the
  database returns them, and selects later: it increases the row's index and takes the
  healthy target at that place of its own list. Loads and selections of all replicas
  interleave. Where the index is not increased a replica counts on its own; these
  selections are kept apart.

  The intent is that any n selections in a row, in the order of the increments, take each
  of the n healthy targets once.
  - `round_robin_is_fair`: they do in every run whose requests find the healthy targets in
    one order.
  - `two_orders_take_one_target_twice`: the query asks for no order of the targets.
-/

import ClusterGate.Lib.Run
import ClusterGate.Lib.Turns
import ClusterGate.Proxy.Gates

namespace ClusterGate

open Lib

/-! ## The replicas -/

abbrev TargetRows := List (String × RouteTarget)

def healthy (rows : TargetRows) : TargetRows := rows.filter fun target => target.2.isHealthy

/-- The route's index, what each replica counts on its own, the requests that have loaded
    the route, with their replica and rows, and the selections made. -/
structure Balancer where
  lbRrIndex : Nat
  rrIndexMaps : Nat → Table String Nat
  loaded : List (Nat × TargetRows) := []
  selections : List Selected := []
  fallbacks : List Selected := []

inductive BalancerEvent
  | load (replica : Nat) (rows : TargetRows)
  /-- The `i`-th of the requests that have loaded the route selects. -/
  | select (i : Nat) (up : Bool)

/-- What a selection on a replica finds. -/
def Balancer.gateway (b : Balancer) (replica : Nat) (up : Bool) : Gateway :=
  ⟨0, up, none, Table.empty, some b.lbRrIndex, b.rrIndexMaps replica⟩

def Balancer.step (routeId : String) (b : Balancer) : BalancerEvent → Balancer
  | .load replica rows => { b with loaded := b.loaded ++ [(replica, rows)] }
  | .select i up =>
    match b.loaded[i]? with
    | none => b
    | some (replica, rows) =>
      let g := b.gateway replica up
      let (res, g') := selectTarget 0 routeId "ROUND_ROBIN" rows g
      let target := match res with
        | .ok selected => selected.toList
        | .error _ => []
      { lbRrIndex := g'.lbRrIndex.getD b.lbRrIndex
        rrIndexMaps := fun r => if r = replica then g'.rrIndexMap else b.rrIndexMaps r
        loaded := b.loaded.eraseIdx i
        selections := if g.increments then b.selections ++ target else b.selections
        fallbacks := if g.increments then b.fallbacks else b.fallbacks ++ target }

/-- Any n selections in a row take each of the n targets once. -/
def Fair (targets : TargetRows) (b : Balancer) : Prop :=
  ∀ window, window <:+: b.selections → window.length = targets.length → window.Perm (targets.map selected)

/-- The healthy targets stay what they are. -/
def Unchanged (targets : TargetRows) (_ : Balancer) : BalancerEvent → Prop
  | .load _ rows => (healthy rows).Perm targets
  | .select _ _ => True

/-- And are found in one order. -/
def OneOrder (targets : TargetRows) (_ : Balancer) : BalancerEvent → Prop
  | .load _ rows => healthy rows = targets
  | .select _ _ => True

/-- A selection whose increment succeeds. -/
def Increments (b : Balancer) : BalancerEvent → Prop
  | .load _ _ => True
  | .select _ up => (b.gateway 0 up).increments = true

/-! ## One selection -/

theorem selectTarget_roundRobin (draw : Rat) (routeId : String) {rows : TargetRows} (h : healthy rows ≠ []) :
    selectTarget draw routeId "ROUND_ROBIN" rows = roundRobin routeId (healthy rows) := by
  unfold selectTarget
  unfold healthy at h ⊢
  rw [if_neg h, if_pos rfl]

section Order

variable {routeId : String} {targets : TargetRows} (hne : targets.map selected ≠ [])

/-- The target at the index's place, and the index after it. -/
theorem selectTarget_increments {rows : TargetRows} (hrows : healthy rows = targets) {b : Balancer} {replica : Nat} {up : Bool}
    (h : (b.gateway replica up).increments = true) :
    selectTarget 0 routeId "ROUND_ROBIN" rows (b.gateway replica up) =
      (.ok (some (turn hne (b.lbRrIndex + 1))), { b.gateway replica up with lbRrIndex := some (b.lbRrIndex + 1) }) := by
  have htargets : targets ≠ [] := fun hnil => hne (by rw [hnil]; rfl)
  have hturn := turn_eq hne (b.lbRrIndex + 1)
  rw [List.length_map, List.getElem?_map] at hturn
  rw [selectTarget_roundRobin 0 routeId (by rw [hrows]; exact htargets), hrows]
  unfold roundRobin
  rw [if_pos h]
  show (Except.ok ((targets[(b.lbRrIndex + 1) % targets.length]?).map selected), _) = _
  rw [hturn]
  rfl

/-- Otherwise the row's index stays. -/
theorem selectTarget_falls_back {rows : TargetRows} {b : Balancer} {replica : Nat} {up : Bool}
    (h : (b.gateway replica up).increments = false) :
    (selectTarget 0 routeId "ROUND_ROBIN" rows (b.gateway replica up)).2.lbRrIndex = some b.lbRrIndex := by
  by_cases hrows : healthy rows = []
  · unfold selectTarget
    unfold healthy at hrows
    rw [if_pos hrows]
    rfl
  · rw [selectTarget_roundRobin 0 routeId hrows]
    unfold roundRobin
    rw [if_neg (by rw [h]; decide)]
    rfl

/-! ## Every run -/

/-- Since the index was `start`, each increment has taken the next target. -/
structure TakenInTurn (start : Nat) (b : Balancer) : Prop where
  loaded : ∀ request ∈ b.loaded, healthy request.2 = targets
  selections : ∃ k, b.lbRrIndex = start + k ∧ b.selections = turns hne (start + 1) k

theorem step_takenInTurn {start : Nat} {b : Balancer} {e : BalancerEvent} (hb : TakenInTurn hne start b)
    (he : OneOrder targets b e) : TakenInTurn hne start (b.step routeId e) := by
  obtain ⟨hloaded, k, hindex, hsel⟩ := hb
  cases e with
  | load replica rows =>
    refine ⟨?_, k, hindex, hsel⟩
    intro request hrequest
    rcases List.mem_append.1 hrequest with hold | hnew
    · exact hloaded request hold
    · rw [List.mem_singleton.1 hnew]
      exact he
  | select i up =>
    unfold Balancer.step
    dsimp only
    split
    · exact ⟨hloaded, k, hindex, hsel⟩
    · rename_i replica rows hi
      have hrows := hloaded _ (List.mem_of_getElem? hi)
      have hrest : ∀ request ∈ b.loaded.eraseIdx i, healthy request.2 = targets :=
        fun request hrequest => hloaded request (List.mem_of_mem_eraseIdx hrequest)
      cases hinc : (b.gateway replica up).increments with
      | true =>
        rw [selectTarget_increments hne hrows hinc]
        refine ⟨hrest, k + 1, ?_, ?_⟩
        · show b.lbRrIndex + 1 = start + (k + 1)
          omega
        · show b.selections ++ [turn hne (b.lbRrIndex + 1)] = turns hne (start + 1) (k + 1)
          rw [turns_succ, hsel, hindex, Nat.add_right_comm]
      | false =>
        have hkept : (selectTarget 0 routeId "ROUND_ROBIN" rows (b.gateway replica up)).2.lbRrIndex = some b.lbRrIndex :=
          selectTarget_falls_back hinc
        refine ⟨hrest, k, ?_, hsel⟩
        show (selectTarget 0 routeId "ROUND_ROBIN" rows (b.gateway replica up)).2.lbRrIndex.getD b.lbRrIndex = start + k
        rw [hkept]
        exact hindex

theorem fair_of_takenInTurn {start : Nat} {b : Balancer} (hb : TakenInTurn hne start b) : Fair targets b := by
  obtain ⟨-, k, -, hsel⟩ := hb
  intro window hwindow hlen
  rw [hsel] at hwindow
  exact window_perm hne hwindow (by rw [hlen, List.length_map])

end Order

/-- Where every increment succeeds, no replica counts on its own. -/
theorem step_fallbacks {routeId : String} {b : Balancer} {e : BalancerEvent} (he : Increments b e) :
    (b.step routeId e).fallbacks = b.fallbacks := by
  cases e with
  | load replica rows => rfl
  | select i up =>
    unfold Balancer.step
    dsimp only
    split
    · rfl
    · exact if_pos he

/-- However many replicas, whatever the index the route begins with and however the loads
    and selections interleave. -/
theorem round_robin_is_fair (routeId : String) (targets : TargetRows) (hne : targets ≠ []) (start : Nat)
    (rrIndexMaps : Nat → Table String Nat) (es : List BalancerEvent)
    (horder : Along (Balancer.step routeId) (OneOrder targets) ⟨start, rrIndexMaps, [], [], []⟩ es) :
    Throughout (Balancer.step routeId) (Fair targets) ⟨start, rrIndexMaps, [], [], []⟩ es ∧
      (Along (Balancer.step routeId) Increments ⟨start, rrIndexMaps, [], [], []⟩ es →
        (run (Balancer.step routeId) ⟨start, rrIndexMaps, [], [], []⟩ es).fallbacks = []) := by
  have hsel : targets.map selected ≠ [] := by simpa using hne
  have hstart : TakenInTurn hsel start ⟨start, rrIndexMaps, [], [], []⟩ := ⟨by simp, 0, rfl, rfl⟩
  constructor
  · rw [throughout_iff]
    intro pre post hes
    rw [hes, along_append] at horder
    exact fair_of_takenInTurn hsel (run_keeps (fun b e hb he => step_takenInTurn hsel hb he) hstart horder.1)
  · intro hinc
    exact run_keeps (I := fun b => b.fallbacks = []) (fun b e hb he => (step_fallbacks he).trans hb) rfl hinc

def cartA : String × RouteTarget := ("a", { routeId := "cart", url := "http://cart-a.svc" })
def cartB : String × RouteTarget := ("b", { routeId := "cart", url := "http://cart-b.svc" })

/-- A route no request has been sent to. -/
def fresh : Balancer := ⟨0, fun _ => Table.empty, [], [], []⟩

/-- Two replicas, the request that loads last selecting first. -/
theorem two_replicas_take_turns :
    Throughout (Balancer.step "cart") (Fair [cartA, cartB]) fresh
        [.load 0 [cartA, cartB], .load 1 [cartA, cartB], .select 1 true, .select 0 true] ∧
      (run (Balancer.step "cart") fresh
        [.load 0 [cartA, cartB], .load 1 [cartA, cartB], .select 1 true, .select 0 true]).fallbacks = [] := by
  obtain ⟨hfair, hfallbacks⟩ := round_robin_is_fair "cart" [cartA, cartB] (by decide) 0 (fun _ => Table.empty)
    [.load 0 [cartA, cartB], .load 1 [cartA, cartB], .select 1 true, .select 0 true]
    ⟨rfl, rfl, trivial, trivial, trivial⟩
  exact ⟨hfair, hfallbacks ⟨trivial, trivial, rfl, rfl, trivial⟩⟩

/-- The database returns the same targets in two orders. -/
theorem two_orders_take_one_target_twice :
    ¬∀ (routeId : String) (targets : TargetRows) (start : Nat) (rrIndexMaps : Nat → Table String Nat)
      (es : List BalancerEvent), targets ≠ [] →
      Along (Balancer.step routeId) (Unchanged targets) ⟨start, rrIndexMaps, [], [], []⟩ es →
      Throughout (Balancer.step routeId) (Fair targets) ⟨start, rrIndexMaps, [], [], []⟩ es := by
  intro h
  have hfair := h "cart" [cartA, cartB] 0 (fun _ => Table.empty)
    [.load 0 [cartA, cartB], .load 1 [cartB, cartA], .select 0 true, .select 0 true] (by decide)
    ⟨List.Perm.refl [cartA, cartB], List.Perm.swap cartA cartB [], trivial, trivial, trivial⟩
  have hlast := throughout_iff.1 hfair _ [] (List.append_nil _).symm
  have hselections : (run (Balancer.step "cart") fresh
      [.load 0 [cartA, cartB], .load 1 [cartB, cartA], .select 0 true, .select 0 true]).selections =
      [selected cartB, selected cartB] := by rfl
  have htwice := hlast [selected cartB, selected cartB] (by rw [← hselections]; exact List.infix_refl _) rfl
  exact absurd htwice (by decide)

end ClusterGate
