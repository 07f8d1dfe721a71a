/-
  ClusterGate.Proxy.TargetHealth — how targets are taken out of service and come back
  (`markTargetHealthy` and `markTargetUnhealthy` of `services/loadBalancerService.ts`, as
  `proxyHandler` and `proxyRequest` use them).

  A request loads the route with its targets, selects one of those it has found healthy, and
  writes afterwards what came of the call: the target is healthy after an answer and
  unhealthy after an error. The writes are not awaited. Nothing else writes the column, no
  endpoint and no job (the restore of a backup apart), so a target that is out is not tried
  again.

  Requests interleave with each other and with any request to the API.
  - `selected_healthy`: what a request selects is a target it has found healthy.
  - `step_comes_back`: what brings a target back is the answer to a request that has found it
    healthy, or a new target under its id.
  - `unhealthy_stays_out`: while no request has selected it or, yet to select, has found it healthy,
    a target that is out stays out and is not selected.
  - `a_late_answer_brings_back`: a request that is still on its way.
-/

import ClusterGate.Frame
import ClusterGate.Proxy.RoundRobin

namespace ClusterGate

open Lib Async Lib.Table

/-! ## Requests and what they write -/

/-- What comes of the upstream call. An answer that cannot be passed on to its end counts
    as both, and the later of its two writes stays. A write may fail. -/
inductive Relayed
  | answered
  | failed
  | broken (answerLast : Bool)
  | unwritten
  deriving DecidableEq

def Relayed.marks : Relayed → List Bool
  | .answered => [true]
  | .failed => [false]
  | .broken false => [true, false]
  | .broken true => [false, true]
  | .unwritten => []

structure Fleet where
  gateway : Gateway
  store : Store

/-- A request to a route. All that is loaded of the route but its targets is given with it, and
    so is the order in which the database returns these. -/
structure FleetRequest where
  draw : Rat
  route : LoadedRoute
  arrange : TargetRows → TargetRows
  perm : ∀ rows, (arrange rows).Perm rows
  req : ProxyIncoming
  relayed : Relayed

def targetRows (r : FleetRequest) (s : Fleet) : TargetRows :=
  r.arrange (s.store.routeTargets.rows.filter fun target => target.2.routeId = r.route.id)

def loadTargets (r : FleetRequest) : Act Fleet Err TargetRows := fun s => (.ok (targetRows r s), s)

/-- A step on what the gates find and change. -/
def onGateway {α : Type} (x : Act Gateway Err α) : Act Fleet Err α := fun s =>
  ((x s.gateway).1, { s with gateway := (x s.gateway).2 })

/-- `markTargetHealthy` and `markTargetUnhealthy`. That the row is gone is no error. -/
def mark (id : String) (isHealthy : Bool) : Act Fleet Err Unit := fun s =>
  (.ok (), { s with store := { s.store with
    routeTargets := s.store.routeTargets.modify id fun target => { target with isHealthy } } })

def markAll (id : String) : List Bool → Async Fleet Err Unit
  | [] => pure ()
  | isHealthy :: rest => do
    await (mark id isHealthy)
    markAll id rest

section Program

variable (W : World) (hmac : (secret body : String) → String) (keys : ApiKeys)

/-- The gates and the selection, for the targets that were loaded. -/
def passGates (r : FleetRequest) (rows : TargetRows) : Act Fleet Err Forward :=
  onGateway (proxyRequest W hmac keys r.draw { r.route with targets := rows } r.req)

def relay (r : FleetRequest) (forward : Forward) : Async Fleet Err Unit :=
  match forward.selectedTargetId with
  | none => pure ()
  | some id => markAll id r.relayed.marks

def proxied (r : FleetRequest) : Async Fleet Err Unit := do
  let rows ← await (loadTargets r)
  let forward ← await (passGates W hmac keys r rows)
  relay r forward

end Program

/-- A request to the API, or all that the gates depend on changes. -/
inductive FleetEvent
  | api (q : Request)
  | gateway (g : Gateway)

def FleetEvent.apply (W : World) : FleetEvent → Fleet → Fleet
  | .api q, s => { s with store := step W s.store q }
  | .gateway g, s => { s with gateway := g }

abbrev ProxyCall := Call FleetRequest Fleet

def fleetStep (W : World) (hmac : (secret body : String) → String) (keys : ApiKeys) :
    Pool Fleet ProxyCall → Move FleetEvent → Pool Fleet ProxyCall :=
  Pool.step (Call.advance (proxied W hmac keys)) (FleetEvent.apply W)

/-! ## What is selected -/

theorem weightedFrom_mem {random : Rat} {rows : TargetRows} {target : String × RouteTarget}
    (h : weightedFrom random rows = some target) : target ∈ rows := by
  induction rows generalizing random with
  | nil => cases h
  | cons first rows ih =>
    rw [weightedFrom] at h
    by_cases hle : random - first.2.weight ≤ 0
    · rw [if_pos hle] at h
      obtain rfl := Option.some.inj h
      exact List.mem_cons_self
    · rw [if_neg hle] at h
      exact List.mem_cons_of_mem first (ih h)

theorem weighted_mem {draw : Rat} {rows : TargetRows} {found : Selected} (h : weighted draw rows = some found) :
    ∃ target ∈ rows, selected target = found := by
  unfold weighted at h
  obtain ⟨target, htarget, rfl⟩ := Option.map_eq_some_iff.1 h
  refine ⟨target, ?_, rfl⟩
  rcases Option.or_eq_some_iff.1 htarget with hfrom | ⟨-, hlast⟩
  · exact weightedFrom_mem hfrom
  · exact List.mem_of_getLast? hlast

theorem failover_mem {rows : TargetRows} {found : Selected} (h : failover rows = some found) :
    ∃ target ∈ rows, selected target = found := by
  unfold failover at h
  obtain ⟨target, htarget, rfl⟩ := Option.map_eq_some_iff.1 h
  exact ⟨target, List.mem_mergeSort.1 (List.mem_of_head? htarget), rfl⟩

theorem roundRobin_mem {routeId : String} {rows : TargetRows} {g : Gateway} {found : Selected}
    (h : (roundRobin routeId rows g).1 = .ok (some found)) : ∃ target ∈ rows, selected target = found := by
  have hpick : ∀ i : Nat, Except.ok (ε := Err) ((rows[i]?).map selected) = .ok (some found) →
      ∃ target ∈ rows, selected target = found := by
    intro i hi
    obtain ⟨target, htarget, rfl⟩ := Option.map_eq_some_iff.1 (Except.ok.inj hi)
    exact ⟨target, List.mem_of_getElem? htarget, rfl⟩
  unfold roundRobin at h
  dsimp only at h
  split at h
  · exact hpick _ h
  · exact hpick _ h

/-- Whatever the strategy, a healthy target is selected. -/
theorem selectTarget_mem {draw : Rat} {routeId strategy : String} {rows : TargetRows} {g : Gateway} {found : Selected}
    (h : (selectTarget draw routeId strategy rows g).1 = .ok (some found)) : ∃ target ∈ healthy rows, selected target = found := by
  have hpure : ∀ o : Option Selected, ((pure o : Act Gateway Err (Option Selected)) g).1 = .ok (some found) → o = some found :=
    fun o ho => Except.ok.inj ho
  unfold selectTarget at h
  split at h
  · cases hpure _ h
  split at h
  · exact roundRobin_mem h
  split at h
  · exact weighted_mem (hpure _ h)
  split at h
  · exact failover_mem (hpure _ h)
  · obtain ⟨target, htarget, rfl⟩ := Option.map_eq_some_iff.1 (hpure _ h)
    exact ⟨target, List.mem_of_head? htarget, rfl⟩

theorem passTarget_mem {draw : Rat} {route : LoadedRoute} {g g' : Gateway} {url id : String}
    (h : Act.Returns (passTarget draw route) g (url, some id) g') : ∃ row, (id, row) ∈ healthy route.targets := by
  unfold passTarget at h
  split at h
  · cases h
  · obtain ⟨found, g₁, hfound, h⟩ := (Act.returns_bind _ _).1 h
    obtain ⟨target, rfl, h⟩ := (Act.returns_orThrow_bind _ _ _).1 h
    obtain ⟨⟨k, row⟩, hmem, rfl⟩ := selectTarget_mem (congrArg Prod.fst hfound)
    obtain ⟨hpair, -⟩ := (Act.returns_pure _).1 h
    obtain rfl : id = k := Option.some.inj (congrArg Prod.snd hpair)
    exact ⟨row, hmem⟩

section Calls

variable {W : World} {hmac : (secret body : String) → String} {keys : ApiKeys}

/-- What passes the gates goes to a target that was loaded as healthy. -/
theorem proxyRequest_mem {draw : Rat} {route : LoadedRoute} {req : ProxyIncoming} {g g' : Gateway} {forward : Forward}
    {id : String} (h : Act.Returns (proxyRequest W hmac keys draw route req) g forward g')
    (hid : forward.selectedTargetId = some id) : ∃ row, (id, row) ∈ healthy route.targets := by
  unfold proxyRequest at h
  obtain ⟨-, g₁, -, h⟩ := (Act.returns_bind _ _).1 h
  obtain ⟨-, g₂, -, h⟩ := (Act.returns_bind _ _).1 h
  obtain ⟨-, g₃, -, h⟩ := (Act.returns_bind _ _).1 h
  obtain ⟨-, g₄, -, h⟩ := (Act.returns_bind _ _).1 h
  obtain ⟨consumed, g₅, -, h⟩ := (Act.returns_bind _ _).1 h
  obtain ⟨rawBody, g₆, -, h⟩ := (Act.returns_bind _ _).1 h
  obtain ⟨-, g₇, -, h⟩ := (Act.returns_bind _ _).1 h
  obtain ⟨⟨url, found⟩, g₈, htarget, h⟩ := (Act.returns_bind _ _).1 h
  obtain ⟨rfl, -⟩ := (Act.returns_pure _).1 h
  obtain rfl : found = some id := hid
  exact passTarget_mem htarget

/-! ## What a step does -/

/-- There is no such target, or it is unhealthy. -/
def Out (id : String) (s : Fleet) : Prop := ∀ row, s.store.routeTargets.get? id = some row → row.isHealthy = false

variable (W hmac keys) in
/-- The target a request has selected. -/
def selectedBy (c : ProxyCall) : Option String :=
  match c.seen with
  | s₀ :: s₁ :: _ =>
    match (passGates W hmac keys c.request (targetRows c.request s₀) s₁).1 with
    | .ok forward => forward.selectedTargetId
    | .error _ => none
  | _ => none

theorem selected_healthy {c : ProxyCall} {id : String} (h : selectedBy W hmac keys c = some id) :
    ∃ s₀, c.seen.head? = some s₀ ∧ ¬Out id s₀ := by
  obtain ⟨r, seen⟩ := c
  unfold selectedBy at h
  match seen with
  | [] => cases h
  | [_] => cases h
  | s₀ :: s₁ :: rest =>
    dsimp only at h
    split at h
    · rename_i forward hforward
      obtain ⟨row, hmem⟩ := proxyRequest_mem (g := s₁.gateway) (Prod.ext hforward rfl) h
      obtain ⟨hloaded, hhealthy⟩ := List.mem_filter.1 hmem
      have hrow : (id, row) ∈ s₀.store.routeTargets.rows := (List.mem_filter.1 ((r.perm _).mem_iff.1 hloaded)).1
      refine ⟨s₀, rfl, ?_⟩
      intro hout
      rw [hout row (mem_rows_iff.1 hrow)] at hhealthy
      cases hhealthy
    · cases h

theorem everyStep_markAll (id : String) (marks : List Bool) :
    EveryStep (fun s s' => ∃ isHealthy ∈ marks, s' = (mark id isHealthy s).2) (markAll id marks) := by
  have hall : ∀ rest, rest ⊆ marks →
      EveryStep (fun s s' => ∃ isHealthy ∈ marks, s' = (mark id isHealthy s).2) (markAll id rest) := by
    intro rest
    induction rest with
    | nil => exact fun _ => everyStep_pure ()
    | cons isHealthy rest ih =>
      intro hsub
      have hmem : isHealthy ∈ marks := hsub List.mem_cons_self
      refine everyStep_bind (everyStep_await fun s => ⟨isHealthy, hmem, rfl⟩) fun _ => ih ?_
      exact fun b hb => hsub (List.mem_cons_of_mem isHealthy hb)
  exact hall marks (List.Subset.refl marks)

/-- A request writes the health of the target it has selected, and nothing else of the store. -/
theorem proxied_step {c : ProxyCall} (hg : c.ended (proxied W hmac keys) = false) (s : Fleet) :
    ((c.left (proxied W hmac keys)).advance s).2.store = s.store ∨
      ∃ id isHealthy, selectedBy W hmac keys c = some id ∧ isHealthy ∈ c.request.relayed.marks ∧
        ((c.left (proxied W hmac keys)).advance s).2 = (mark id isHealthy s).2 := by
  obtain ⟨r, seen⟩ := c
  match seen with
  | [] => exact .inl rfl
  | [s₀] => exact .inl rfl
  | s₀ :: s₁ :: rest =>
    have hleft : Call.left (proxied W hmac keys) (⟨r, s₀ :: s₁ :: rest⟩ : ProxyCall) =
        (Async.bind (.done (passGates W hmac keys r (targetRows r s₀) s₁).1) (relay r)).after rest := rfl
    unfold Call.ended at hg
    rw [hleft] at hg ⊢
    cases hgates : (passGates W hmac keys r (targetRows r s₀) s₁).1 with
    | error e =>
      rw [hgates, show Async.bind (.done (.error e)) (relay r) = .done (.error e) from rfl, after_done] at hg
      cases hg
    | ok forward =>
      rw [hgates, show Async.bind (.done (.ok forward)) (relay r) = relay r forward from rfl] at hg
      rw [show Async.bind (.done (.ok forward)) (relay r) = relay r forward from rfl]
      have hselected : selectedBy W hmac keys (⟨r, s₀ :: s₁ :: rest⟩ : ProxyCall) = forward.selectedTargetId := by
        simp only [selectedBy, hgates]
      unfold relay at hg ⊢
      cases hid : forward.selectedTargetId with
      | none =>
        rw [hid] at hg
        rw [show (pure () : Async Fleet Err Unit).after rest = pure () from after_done _ rest] at hg
        cases hg
      | some id =>
        rw [hid] at hg
        obtain ⟨isHealthy, hmem, h⟩ := everyStep_advance (everyStep_after rest (everyStep_markAll id r.relayed.marks)) hg s
        exact .inr ⟨id, isHealthy, by rw [hselected, hid], hmem, h⟩

theorem mark_out {id target : String} {isHealthy : Bool} {s : Fleet} (h : Out id s)
    (hmark : target = id → isHealthy = false) : Out id (mark target isHealthy s).2 := by
  intro row hrow
  have hrow : (s.store.routeTargets.modify target fun t => { t with isHealthy }).get? id = some row := hrow
  rw [get?_modify] at hrow
  by_cases hid : id = target
  · rw [if_pos hid] at hrow
    obtain ⟨old, -, rfl⟩ := Option.map_eq_some_iff.1 hrow
    exact hmark hid.symm
  · rw [if_neg hid] at hrow
    exact h row hrow

theorem addTarget_stable {id rowId : String} (row : RouteTarget) (hid : rowId ≠ id) :
    Act.Stable (fun s : Store => s.routeTargets.get? id = none) (addTarget rowId row) := by
  intro s hs
  simp only [addTarget, Act.wp_bind, Act.wp_read, Act.wp_require, Act.wp_modify]
  refine ⟨fun _ => ⟨fun hnone => ⟨fun _ => ?_, fun _ => hs⟩, fun _ => hs⟩, fun _ => hs⟩
  rw [get?_insert (Option.isNone_iff_eq_none.1 hnone), if_neg (Ne.symm hid)]
  exact hs

theorem postTarget_stable {u : Caller} {d : Draw} {routeId id : String} {body : Json} (hid : d.rowId ≠ id) :
    Act.Stable (fun s : Store => s.routeTargets.get? id = none) (postTarget W u d routeId body) := by
  have hallowed : ∀ url organizationId,
      Act.Stable (fun s : Store => s.routeTargets.get? id = none) (assertRouteTargetAllowed W url organizationId) := by
    intro url organizationId
    refine Act.stable_bind Act.stable_read fun s => ?_
    split
    · exact Act.stable_throw _
    · exact Act.stable_pure ()
  have hurl : ∀ url, Act.Stable (fun s : Store => s.routeTargets.get? id = none) (assertTargetUrl W url routeId) := fun url =>
    Act.stable_bind Act.stable_read fun _ => Act.stable_bind (Act.stable_orThrow _ _) fun _ => hallowed _ _
  unfold postTarget authorize requireRouteManage parseBody
  refine Act.stable_bind (Act.stable_require _ _) fun _ => Act.stable_bind ?_ fun _ =>
    Act.stable_bind (Act.stable_ofExcept _) fun data => Act.stable_bind (Act.stable_when (hurl _)) fun _ =>
      addTarget_stable _ hid
  exact Act.stable_bind Act.stable_read fun _ => Act.stable_require _ _

/-- What an endpoint adds has the id it draws. -/
theorem api_adds {q : Request} {s : Store} {id : String} (h : s.routeTargets.get? id = none) (hid : q.draw.rowId ≠ id) :
    (step W s q).routeTargets.get? id = none := by
  cases hnew : (step W s q).routeTargets.get? id with
  | none => rfl
  | some row =>
    have hadds := (step_footprint W s q).routeTargets.new h hnew
    obtain ⟨u, d, e⟩ := q
    cases e with
    | target op =>
      cases op with
      | add routeId body =>
        have hnone : (postTarget W u d routeId body s).2.routeTargets.get? id = none :=
          Act.wp_final (postTarget_stable hid s h)
        exact hnew.symm.trans hnone
      | update routeId targetId body => exact hadds.elim
      | delete routeId targetId => exact hadds.elim
    | _ => exact hadds.elim

/-- A request to the API leaves a target that is out as it is, or deletes it. -/
theorem api_out {q : Request} {s : Fleet} {id : String} (h : Out id s) (hid : q.draw.rowId ≠ id) :
    Out id { s with store := step W s.store q } := by
  intro row hrow
  cases hold : s.store.routeTargets.get? id with
  | none =>
    have hrow : (step W s.store q).routeTargets.get? id = some row := hrow
    rw [api_adds hold hid] at hrow
    cases hrow
  | some old =>
    rcases (step_footprint W s.store q).routeTargets.some hold hrow with rfl | hchange
    · exact h row hold
    · obtain ⟨u, d, e⟩ := q
      cases e with
      | target op =>
        cases op with
        | update routeId targetId body =>
          obtain ⟨-, -, -, -, data, -, rfl⟩ := hchange
          exact h old hold
        | add routeId body => exact hchange.elim
        | delete routeId targetId => exact hchange.elim
      | _ => exact hchange.elim

/-! ## Every run -/

/-- The move is the answer to a request that has selected the target, or draws its id. -/
def BringsBack (W : World) (hmac : (secret body : String) → String) (keys : ApiKeys) (id : String) (P : Pool Fleet ProxyCall) :
    Move FleetEvent → Prop
  | .call i => ∃ c ∈ P.calls[i]?, selectedBy W hmac keys c = some id ∧ true ∈ c.request.relayed.marks
  | .other (.api q) => q.draw.rowId = id
  | .other (.gateway _) => False

/-- What brings a target back. -/
theorem step_comes_back {id : String} {P : Pool Fleet ProxyCall} (h : Out id P.shared) (m : Move FleetEvent)
    (hm : ¬BringsBack W hmac keys id P m) : Out id (fleetStep W hmac keys P m).shared := by
  cases m with
  | other e =>
    cases e with
    | gateway g => exact h
    | api q => exact api_out h hm
  | call i =>
    cases hc : P.calls[i]? with
    | none =>
      rw [fleetStep, Pool.step_none hc]
      exact h
    | some c =>
      cases hg : c.ended (proxied W hmac keys) with
      | true =>
        rw [fleetStep, Pool.step_ended hc hg]
        exact h
      | false =>
        rw [fleetStep, Pool.step_going hc hg]
        show Out id ((c.left (proxied W hmac keys)).advance P.shared).2
        rcases proxied_step hg P.shared with hsame | ⟨target, isHealthy, hselected, hmem, hmark⟩
        · intro row hrow
          rw [hsame] at hrow
          exact h row hrow
        · rw [hmark]
          refine mark_out h ?_
          rintro rfl
          cases isHealthy with
          | false => rfl
          | true => exact absurd ⟨c, hc, hselected, hmem⟩ hm

/-- No request has loaded the target as healthy. -/
def Unreached (id : String) (c : ProxyCall) : Prop := ∀ s₀ ∈ c.seen.head?, Out id s₀

theorem Unreached.notSelected {id : String} {c : ProxyCall} (h : Unreached id c) : selectedBy W hmac keys c ≠ some id := by
  intro hselected
  obtain ⟨s₀, hhead, hout⟩ := selected_healthy hselected
  exact hout (h s₀ hhead)

theorem Unreached.concat {id : String} {c : ProxyCall} {s : Fleet} (h : Unreached id c) (hs : Out id s) :
    Unreached id ⟨c.request, c.seen ++ [s]⟩ := by
  obtain ⟨request, seen⟩ := c
  cases seen with
  | nil =>
    intro s₀ hs₀
    obtain rfl := Option.some.inj hs₀
    exact hs
  | cons first rest => exact h

/-- What a request has selected it has selected for good. -/
theorem selectedBy_concat {c : ProxyCall} (s : Fleet) (h : 2 ≤ c.seen.length) :
    selectedBy W hmac keys ⟨c.request, c.seen ++ [s]⟩ = selectedBy W hmac keys c := by
  obtain ⟨request, seen⟩ := c
  match seen, h with
  | _ :: _ :: _, _ => rfl

variable (W hmac keys) in
/-- The request has selected another target or none, or it has not found this one healthy. -/
def PassesBy (id : String) (c : ProxyCall) : Prop :=
  (2 ≤ c.seen.length ∧ selectedBy W hmac keys c ≠ some id) ∨ Unreached id c

theorem PassesBy.notSelected {id : String} {c : ProxyCall} (h : PassesBy W hmac keys id c) :
    selectedBy W hmac keys c ≠ some id :=
  h.elim And.right Unreached.notSelected

theorem PassesBy.concat {id : String} {c : ProxyCall} {s : Fleet} (h : PassesBy W hmac keys id c) (hs : Out id s) :
    PassesBy W hmac keys id ⟨c.request, c.seen ++ [s]⟩ := by
  rcases h with ⟨hlen, hselected⟩ | h
  · left
    rw [selectedBy_concat s hlen, List.length_append]
    exact ⟨by omega, hselected⟩
  · exact .inr (h.concat hs)

variable (W hmac keys) in
/-- The target is out, and every request passes it by. A request that is over takes no step
    and need not be in the pool. -/
structure OutOfService (id : String) (P : Pool Fleet ProxyCall) : Prop where
  out : Out id P.shared
  passedBy : ∀ c ∈ P.calls, PassesBy W hmac keys id c

/-- The move draws another id. -/
def DrawsAnother (id : String) (_ : Pool Fleet ProxyCall) : Move FleetEvent → Prop
  | .other (.api q) => q.draw.rowId ≠ id
  | _ => True

theorem step_outOfService {id : String} (P : Pool Fleet ProxyCall) (m : Move FleetEvent)
    (h : OutOfService W hmac keys id P) (hm : DrawsAnother id P m) :
    OutOfService W hmac keys id (fleetStep W hmac keys P m) := by
  constructor
  · refine step_comes_back h.out m ?_
    intro hback
    cases m with
    | other e =>
      cases e with
      | gateway g => exact hback
      | api q => exact hm hback
    | call i =>
      obtain ⟨c, hc, hselected, -⟩ := hback
      exact (h.passedBy c (List.mem_of_getElem? hc)).notSelected hselected
  · cases m with
    | other e => exact h.passedBy
    | call i =>
      cases hc : P.calls[i]? with
      | none =>
        rw [fleetStep, Pool.step_none hc]
        exact h.passedBy
      | some c =>
        cases hg : c.ended (proxied W hmac keys) with
        | true =>
          rw [fleetStep, Pool.step_ended hc hg]
          exact h.passedBy
        | false =>
          have hself := (h.passedBy c (List.mem_of_getElem? hc)).concat h.out
          exact Pool.forall_going h.passedBy hc hg hself

theorem unhealthy_stays_out (W : World) (hmac : (secret body : String) → String) (keys : ApiKeys) (id : String)
    (P : Pool Fleet ProxyCall) (h : OutOfService W hmac keys id P) (ms : List (Move FleetEvent))
    (hms : Along (fleetStep W hmac keys) (DrawsAnother id) P ms) :
    Out id (run (fleetStep W hmac keys) P ms).shared ∧
      ∀ c ∈ (run (fleetStep W hmac keys) P ms).calls, selectedBy W hmac keys c ≠ some id := by
  have hout := run_keeps (I := OutOfService W hmac keys id) step_outOfService h hms
  exact ⟨hout.out, fun c hc => (hout.passedBy c hc).notSelected⟩

end Calls

/-! ## Two targets -/

/-- A route with two targets, the first drawn. -/
def cartRoute : LoadedRoute where
  id := "cart"
  row := Row.ofFields
    [(.name, .str "cart"), (.publicPath, .str "/r/cart"), (.targetUrl, .str "http://cart-a.svc"), (.isActive, .bool true),
     (.status, .str "PUBLISHED"), (.lbStrategy, .str "WEIGHTED")]
    (by intro c; cases c <;> rfl)
  breaker := ⟨false, 5, 1000, .CLOSED, 0, none, none⟩
  targets := []
  hasTransformRules := false

def cartRequest (relayed : Relayed) : Call FleetRequest Fleet :=
  Call.start
    { draw := 0, route := cartRoute, arrange := id, perm := fun _ => .refl _, relayed
      req := { method := "GET", url := "/r/cart", path := "/cart", header := fun _ => none, ip := some "10.0.0.2",
               remoteAddress := some "10.0.0.2", body := .buffer [] } }

/-- The first target is healthy or not; one request fails and one is answered. -/
def cartFleet (isHealthy : Bool) : Pool Fleet ProxyCall :=
  ⟨⟨⟨0, true, none, .empty, some 0, .empty⟩,
    { Store.empty with routeTargets := (Table.empty.insert "a" { cartA.2 with isHealthy }).insert "b" cartB.2 }⟩,
   [cartRequest .failed, cartRequest .answered]⟩

def cartRun (isHealthy : Bool) (ms : List (Move FleetEvent)) : Pool Fleet ProxyCall :=
  run (fleetStep World.plain (fun _ body => body) noKeys) (cartFleet isHealthy) ms

theorem a_stays_out :
    (Out "a" (cartRun false [.call 0, .call 0, .call 1, .call 1, .call 0, .call 1]).shared ∧
        ∀ c ∈ (cartRun false [.call 0, .call 0, .call 1, .call 1, .call 0, .call 1]).calls,
          selectedBy World.plain (fun _ body => body) noKeys c ≠ some "a") ∧
      (cartRun false [.call 0, .call 0, .call 1, .call 1, .call 0, .call 1]).calls.map
        (selectedBy World.plain (fun _ body => body) noKeys) = [some "b", some "b"] := by
  refine ⟨unhealthy_stays_out World.plain (fun _ body => body) noKeys "a" (cartFleet false) ⟨?_, ?_⟩ _ ?_, by decide +kernel⟩
  · intro row hrow
    have hget : (cartFleet false).shared.store.routeTargets.get? "a" = some { cartA.2 with isHealthy := false } := by decide +kernel
    rw [hget] at hrow
    obtain rfl := Option.some.inj hrow
    rfl
  · intro c hc
    refine .inr fun s₀ hs₀ => ?_
    rcases List.mem_cons.1 hc with rfl | hc
    · cases hs₀
    · obtain rfl := List.mem_singleton.1 hc
      cases hs₀
  · exact ⟨trivial, trivial, trivial, trivial, trivial, trivial, trivial⟩

/-- Both requests have loaded the target as healthy; one takes it out, the other brings it back. -/
theorem a_late_answer_brings_back :
    (cartRun true [.call 0, .call 1, .call 0, .call 1, .call 0]).shared.store.routeTargets.get? "a" =
        some { cartA.2 with isHealthy := false } ∧
      (cartRun true [.call 0, .call 1, .call 0, .call 1, .call 0, .call 1]).shared.store.routeTargets.get? "a" =
        some { cartA.2 with isHealthy := true } := by
  constructor
  · decide +kernel
  · decide +kernel

end ClusterGate
