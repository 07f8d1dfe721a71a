/-
  ClusterGate.Incidents.Resolution — when an incident's `resolvedAt` says when it was resolved
  (`services/incidentService.ts`: `updateStatus`, `autoResolveIfHealthy`).

  `updateStatus` stamps an incident it resolves, and passes `undefined` for any other status,
  which leaves the stamp there was. Incidents can be reopened or dismissed after they were
  resolved, by users and at any time.
  - `stamped_withStatus`: a write of a status keeps the stamp right exactly if the status is
    RESOLVED or there was no stamp.
  - `stamped_step`: no other step touches it.
  - `resolution_iff`: in every order of the steps, `resolvedAt` is right in all states exactly
    if every status but RESOLVED is written to an incident without one.
  - `a_reopened_incident_keeps_its_stamp`: a user resolves an incident and opens it again.
-/

import ClusterGate.Incidents.Service

namespace ClusterGate.Incidents

open Lib Async IncidentStore

/-- When the incident was last set to RESOLVED. -/
def Incident.latestResolved (i : Incident) : Option Nat :=
  (i.transitions.find? fun t => t.status = .RESOLVED).map Transition.time

structure Incident.Stamped (i : Incident) : Prop where
  resolved_iff : i.status = .RESOLVED ↔ i.resolvedAt.isSome = true
  latest : ∀ t, i.resolvedAt = some t → i.latestResolved = some t

def IncidentStore.Stamped (s : IncidentStore) : Prop := ∀ id i, s.incidents.get? id = some i → i.Stamped

/-- The call does not write another status than RESOLVED to an incident with a stamp. -/
def LeavesNoStamp : IncidentRequest → List IncidentStore → IncidentStore → Prop
  | .updateStatus id status _, [_], s => status ≠ .RESOLVED → ∀ i ∈ s.incidents.get? id, i.resolvedAt = none
  | _, _, _ => True

theorem stamped_withStatus (i : Incident) (status : IncidentStatus) (now : Nat) :
    (i.withStatus status now).Stamped ↔ (status ≠ .RESOLVED → i.resolvedAt = none) := by
  by_cases hs : status = .RESOLVED
  · subst hs
    refine iff_of_true ⟨by simp [Incident.withStatus], ?_⟩ fun h => absurd rfl h
    intro t ht
    simpa [Incident.withStatus, Incident.latestResolved] using ht
  · constructor
    · intro h _
      have hstatus := h.resolved_iff
      simp only [Incident.withStatus, hs, if_false, false_iff] at hstatus
      exact Option.not_isSome_iff_eq_none.1 hstatus
    · intro h
      have hnone := h hs
      constructor
      · simp [Incident.withStatus, hs, hnone]
      · intro t ht
        simp [Incident.withStatus, hs, hnone] at ht

theorem stamped_row (data : NewIncident) (automatic : Bool) (now : Nat) : (data.row automatic now).Stamped := by
  constructor
  · simp [NewIncident.row]
  · intro t ht
    cases ht

theorem Same.stamped {s s' : IncidentStore} (h : Same s s') (hs : s.Stamped) : s'.Stamped := by
  intro id i hi
  rw [h id] at hi
  exact hs id i hi

/-- A status is written to a row. -/
theorem update_stamped {s : IncidentStore} (hs : s.Stamped) (id : String) (status : IncidentStatus) (now : Nat) :
    (update id (Incident.withStatus status now) s).2.Stamped ↔
      (status ≠ .RESOLVED → ∀ i ∈ s.incidents.get? id, i.resolvedAt = none) := by
  constructor
  · intro h hstatus i hi
    refine (stamped_withStatus i status now).1 (h id _ ?_) hstatus
    rw [get?_update, if_pos rfl, Option.mem_def.1 hi, Option.map_some]
  · intro h k i hi
    rw [get?_update] at hi
    by_cases hk : k = id
    · rw [if_pos hk] at hi
      obtain ⟨j, hj, rfl⟩ := Option.map_eq_some_iff.1 hi
      exact (stamped_withStatus j status now).2 fun hstatus => h hstatus j hj
    · rw [if_neg hk] at hi
      exact hs k i hi

theorem insertIncident_stamped {s : IncidentStore} (hs : s.Stamped) (id : String) (automatic : Bool) (data : NewIncident) :
    (insertIncident id automatic data s).2.Stamped := by
  intro k i hi
  rw [get?_insertIncident] at hi
  by_cases h : Insertable id data.routeId s ∧ k = id
  · rw [if_pos h] at hi
    obtain rfl := Option.some.inj hi
    exact stamped_row data automatic s.now
  · rw [if_neg h] at hi
    exact hs k i hi

theorem delete_stamped {s : IncidentStore} (hs : s.Stamped) (id : String) : (delete id s).2.Stamped := by
  intro k i hi
  rw [get?_delete] at hi
  by_cases hk : k = id
  · rw [if_pos hk] at hi
    cases hi
  · rw [if_neg hk] at hi
    exact hs k i hi

theorem world_stamped (e : IncidentWorld) (s : IncidentStore) (hs : s.Stamped) : (e.apply s).Stamped := by
  cases e with
  | wait d => exact hs
  | routeCreated routeId => exact hs
  | routeDeleted routeId =>
    intro id i hi
    change (s.incidents.mapRows fun _ i => i.detach routeId).get? id = some i at hi
    rw [Table.get?_mapRows] at hi
    obtain ⟨j, hj, rfl⟩ := Option.map_eq_some_iff.1 hi
    have hstamped := hs id j hj
    unfold Incident.detach
    split
    · exact ⟨hstamped.resolved_iff, hstamped.latest⟩
    · exact hstamped

theorem checkAndCreate_stamped {id routeId : String} {event : NewEvent} {data : NewIncident} {seen : List IncidentStore}
    (hg : ((checkAndCreate id routeId event data).after seen).ended = false) {s : IncidentStore} (hs : s.Stamped) :
    (((checkAndCreate id routeId event data).after seen).advance s).2.Stamped := by
  rcases checkAndCreate_step hg s with ⟨-, h⟩ | ⟨s₀, -, -, h⟩
  · exact h.stamped hs
  · rw [h]
    exact insertIncident_stamped hs id true data

theorem Quiet.stamped {s s' : IncidentStore} (h : Quiet s s') (hs : s.Stamped) : s'.Stamped := by
  cases h with
  | same h => exact h.stamped hs
  | opened id data h => exact h ▸ insertIncident_stamped hs id false data
  | resolved id now h => exact h ▸ (update_stamped hs id .RESOLVED now).2 fun hne => absurd rfl hne
  | deleted id h => exact h ▸ delete_stamped hs id

/-- One step of a call. -/
theorem stamped_step (c : IncidentCall) (s : IncidentStore) (hg : c.ended IncidentRequest.program = false) (hs : s.Stamped) :
    LeavesNoStamp c.request c.seen s ↔ ((c.left IncidentRequest.program).advance s).2.Stamped := by
  obtain ⟨request, seen⟩ := c
  cases request with
  | updateStatus id status userId =>
    rcases updateStatus_step hg s with ⟨hlen, h⟩ | ⟨s₀, rfl, h⟩
    · refine iff_of_true ?_ (h.stamped hs)
      match seen with
      | [] => trivial
      | [_] => exact absurd rfl hlen
      | _ :: _ :: _ => trivial
    · show _ ↔ (((updateStatus id status userId).after [s₀]).advance s).2.Stamped
      rw [h]
      exact (update_stamped hs id status s₀.now).symm
  | healthFailure id routeId routeName error => exact iff_of_true trivial (checkAndCreate_stamped hg hs)
  | cbOpen id routeId routeName => exact iff_of_true trivial (checkAndCreate_stamped hg hs)
  | create id data => exact iff_of_true trivial ((quiet_step rfl hg s).stamped hs)
  | addEvent incidentId event => exact iff_of_true trivial ((quiet_step rfl hg s).stamped hs)
  | autoResolve routeId => exact iff_of_true trivial ((quiet_step rfl hg s).stamped hs)
  | delete id => exact iff_of_true trivial ((quiet_step rfl hg s).stamped hs)

/-- In whatever order the steps are taken: all states are right exactly if no status but RESOLVED
    is written to an incident with a stamp. -/
theorem resolution_iff (P : IncidentPool) (hP : P.shared.Stamped) (ms : List (Move IncidentWorld)) :
    (∀ pre post, ms = pre ++ post → (run incidentStep P pre).shared.Stamped) ↔
      Along incidentStep (Pool.AtStep IncidentRequest.program LeavesNoStamp) P ms :=
  Pool.shared_iff (fun e s => world_stamped e s) stamped_step hP ms

theorem stamped_none (now : Nat) (routes : List String) (events : List IncidentEvent) :
    (⟨now, routes, .empty, events⟩ : IncidentStore).Stamped := by
  intro id i hi
  rw [Table.get?_empty] at hi
  cases hi

/-- An incident, its resolution and its reopening. -/
def outage : IncidentPool where
  shared := ⟨100, [], .empty, []⟩
  calls := [.start (.create "i" ⟨"Outage", none, none, none⟩), .start (.updateStatus "i" .RESOLVED (some "u")),
    .start (.updateStatus "i" .ACTIVE (some "u"))]

/-- The first two run to their ends, with five milliseconds in between. -/
def resolvedOutage : List (Move IncidentWorld) :=
  [.call 0, .call 0, .other (.wait 5), .call 1, .call 1, .call 1]

theorem resolution_iff_outage :
    (∀ pre post, resolvedOutage = pre ++ post → (run incidentStep outage pre).shared.Stamped) ↔
      Along incidentStep (Pool.AtStep IncidentRequest.program LeavesNoStamp) outage resolvedOutage :=
  resolution_iff outage (stamped_none 100 [] []) resolvedOutage

/-- The incident is open again, and says that it was resolved at 105. -/
theorem a_reopened_incident_keeps_its_stamp :
    outage.shared.Stamped ∧
      (((run incidentStep outage (resolvedOutage ++ [.call 2, .call 2])).shared.incidents.get? "i").map fun i =>
        (i.status, i.resolvedAt)) = some (.ACTIVE, some 105) ∧
      ¬ (run incidentStep outage (resolvedOutage ++ [.call 2, .call 2])).shared.Stamped := by
  have hread : (((run incidentStep outage (resolvedOutage ++ [.call 2, .call 2])).shared.incidents.get? "i").map fun i =>
      (i.status, i.resolvedAt)) = some (.ACTIVE, some 105) := by
    decide +kernel
  refine ⟨stamped_none 100 [] [], hread, ?_⟩
  intro h
  obtain ⟨i, hi, hcolumns⟩ := Option.map_eq_some_iff.1 hread
  obtain ⟨hstatus, hresolved⟩ := Prod.mk.inj hcolumns
  have hiff := (h "i" i hi).resolved_iff
  rw [hstatus, hresolved] at hiff
  simp at hiff

end ClusterGate.Incidents
