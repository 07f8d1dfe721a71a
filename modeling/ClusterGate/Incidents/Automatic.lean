/-
  ClusterGate.Incidents.Automatic — how many automatic incidents of a route are open
  (`services/incidentService.ts`: `checkAndCreateFromHealthFailure`,
  `checkAndCreateFromCBOpen`).

  A failed health check and an opened circuit breaker look for an open incident of the route
  with one query and insert a new one with the next if there is none. They are sent off by
  concurrent requests and probes that do not wait for them, so any of them may insert
  between the two queries of another.
  - `insertIncident_atMostOne`, `update_atMostOne`: an insertion and a change of a status
    leave one open incident at most exactly if no other is open.
  - `atMostOne_step`: no other step opens one.
  - `automatic_iff`: where no user reopens one, in every order of the steps, there is one at
    most in all states exactly if every check inserts while none is open.
  - `two_checks_insert`: two checks look before either inserts.
-/

import ClusterGate.Incidents.Service

namespace ClusterGate.Incidents

open Lib Async IncidentStore

/-- ACTIVE or INVESTIGATING. -/
def IncidentStatus.isOpen (status : IncidentStatus) : Bool := status = .ACTIVE || status = .INVESTIGATING

/-- One of the checks made it, and it is an open incident of the route. -/
def Incident.openAutomatic (routeId : String) (i : Incident) : Bool := i.automatic && i.isOpen && i.routeId = some routeId

namespace IncidentStore

def AtMostOne (routeId : String) (s : IncidentStore) : Prop :=
  ∀ id id' i i', s.incidents.get? id = some i → s.incidents.get? id' = some i' →
    i.openAutomatic routeId = true → i'.openAutomatic routeId = true → id = id'

def NoneOpen (routeId : String) (s : IncidentStore) : Prop := (s.incidents.any fun _ i => i.openAutomatic routeId) = false

/-- No incident but that of `id` is open. -/
def NoOtherOpen (routeId id : String) (s : IncidentStore) : Prop :=
  ∀ id' i, s.incidents.get? id' = some i → i.openAutomatic routeId = true → id' = id

end IncidentStore

/-- What a check asks for: the id a new incident would get, and the route. -/
def IncidentRequest.check : IncidentRequest → Option (String × String)
  | .healthFailure id routeId _ _ => some (id, routeId)
  | .cbOpen id routeId _ => some (id, routeId)
  | .create _ _ => none
  | .updateStatus _ _ _ => none
  | .addEvent _ _ => none
  | .autoResolve _ => none
  | .delete _ => none

/-- The id and the route of what the next step of a check inserts: it has found no open incident. -/
def IncidentRequest.inserts (request : IncidentRequest) (seen : List IncidentStore) : Option (String × String) :=
  match request.check, seen with
  | some (id, routeId), [s₀] => if (s₀.openOf routeId).isNone then some (id, routeId) else none
  | _, _ => none

/-- The incident that the next step of a call sets to an open status. -/
def IncidentRequest.setsOpen (request : IncidentRequest) (seen : List IncidentStore) : Option String :=
  match request, seen with
  | .updateStatus id status _, [_] => if status.isOpen then some id else none
  | _, _ => none

/-- A check inserts an incident of the route while no automatic one is open. -/
def InsertsAlone (routeId : String) (request : IncidentRequest) (seen : List IncidentStore) (s : IncidentStore) : Prop :=
  ∀ new ∈ request.inserts seen, new.2 = routeId → Insertable new.1 (some routeId) s → s.NoneOpen routeId

/-- An automatic incident of the route that is set to an open status was open before. -/
def ReopensNone (routeId : String) (request : IncidentRequest) (seen : List IncidentStore) (s : IncidentStore) : Prop :=
  ∀ id ∈ request.setsOpen seen, ∀ i ∈ s.incidents.get? id, i.automatic = true → i.routeId = some routeId →
    i.isOpen = true

/-- No other one is open when it is. -/
def ReopensAlone (routeId : String) (request : IncidentRequest) (seen : List IncidentStore) (s : IncidentStore) : Prop :=
  ∀ id ∈ request.setsOpen seen, ∀ i ∈ s.incidents.get? id, i.automatic = true → i.routeId = some routeId →
    s.NoOtherOpen routeId id

instance decidableInsertsAlone (routeId : String) (request : IncidentRequest) (seen : List IncidentStore)
    (s : IncidentStore) : Decidable (InsertsAlone routeId request seen s) :=
  inferInstanceAs (Decidable (∀ new ∈ request.inserts seen, new.2 = routeId → Insertable new.1 (some routeId) s →
    (s.incidents.any fun _ i => i.openAutomatic routeId) = false))

instance decidableReopensNone (routeId : String) (request : IncidentRequest) (seen : List IncidentStore)
    (s : IncidentStore) : Decidable (ReopensNone routeId request seen s) :=
  inferInstanceAs (Decidable (∀ id ∈ request.setsOpen seen, ∀ i ∈ s.incidents.get? id, i.automatic = true →
    i.routeId = some routeId → i.isOpen = true))

/-! ## One step -/

section Step

variable {routeId : String} {s s' : IncidentStore}

theorem openAutomatic_iff {i : Incident} :
    i.openAutomatic routeId = true ↔ i.automatic = true ∧ i.isOpen = true ∧ i.routeId = some routeId := by
  simp [Incident.openAutomatic, and_assoc]

/-- What is open was open before. -/
theorem atMostOne_of (hs : s.AtMostOne routeId)
    (h : ∀ id i', s'.incidents.get? id = some i' → i'.openAutomatic routeId = true →
      ∃ i, s.incidents.get? id = some i ∧ i.openAutomatic routeId = true) : s'.AtMostOne routeId := by
  intro id id' i i' hi hi' ho ho'
  obtain ⟨j, hj, hjo⟩ := h id i hi ho
  obtain ⟨j', hj', hjo'⟩ := h id' i' hi' ho'
  exact hs id id' j j' hj hj' hjo hjo'

theorem Same.atMostOne (h : Same s s') (hs : s.AtMostOne routeId) : s'.AtMostOne routeId := by
  refine atMostOne_of hs ?_
  intro id i hi ho
  rw [h id] at hi
  exact ⟨i, hi, ho⟩

theorem insertIncident_atMostOne (hs : s.AtMostOne routeId) (id : String) (data : NewIncident) :
    (insertIncident id true data s).2.AtMostOne routeId ↔
      (data.routeId = some routeId → Insertable id data.routeId s → s.NoneOpen routeId) := by
  constructor
  · intro h hr hins
    refine Table.any_eq_false.2 fun k j hj => ?_
    cases ho : j.openAutomatic routeId with
    | false => rfl
    | true =>
      have hk : k ≠ id := by
        rintro rfl
        rw [hins.1] at hj
        cases hj
      have hnew : (data.row true s.now).openAutomatic routeId = true := by
        simp [openAutomatic_iff, NewIncident.row, Incident.isOpen, hr]
      refine absurd (h k id j (data.row true s.now) ?_ ?_ ho hnew) hk
      · rw [get?_insertIncident, if_neg fun hki => hk hki.2]
        exact hj
      · rw [get?_insertIncident, if_pos ⟨hins, rfl⟩]
  · intro h
    by_cases hnew : data.routeId = some routeId ∧ Insertable id data.routeId s
    · have hnone := h hnew.1 hnew.2
      have hid : ∀ k j, (insertIncident id true data s).2.incidents.get? k = some j →
          j.openAutomatic routeId = true → k = id := by
        intro k j hj ho
        rw [get?_insertIncident] at hj
        by_cases hk : Insertable id data.routeId s ∧ k = id
        · exact hk.2
        · rw [if_neg hk] at hj
          rw [Table.any_eq_false.1 hnone k j hj] at ho
          cases ho
      intro k k' j j' hj hj' ho ho'
      rw [hid k j hj ho, hid k' j' hj' ho']
    · refine atMostOne_of hs ?_
      intro k j hj ho
      rw [get?_insertIncident] at hj
      by_cases hk : Insertable id data.routeId s ∧ k = id
      · rw [if_pos hk] at hj
        obtain rfl := Option.some.inj hj
        exact absurd ⟨(openAutomatic_iff.1 ho).2.2, hk.1⟩ hnew
      · rw [if_neg hk] at hj
        exact ⟨j, hj, ho⟩

/-- An incident that no check made does not count. -/
theorem insertManual_atMostOne (hs : s.AtMostOne routeId) (id : String) (data : NewIncident) :
    (insertIncident id false data s).2.AtMostOne routeId := by
  refine atMostOne_of hs ?_
  intro k j hj ho
  rw [get?_insertIncident] at hj
  by_cases hk : Insertable id data.routeId s ∧ k = id
  · rw [if_pos hk] at hj
    obtain rfl := Option.some.inj hj
    cases (openAutomatic_iff.1 ho).1
  · rw [if_neg hk] at hj
    exact ⟨j, hj, ho⟩

theorem delete_atMostOne (hs : s.AtMostOne routeId) (id : String) : (delete id s).2.AtMostOne routeId := by
  refine atMostOne_of hs ?_
  intro k j hj ho
  rw [get?_delete] at hj
  by_cases hk : k = id
  · rw [if_pos hk] at hj
    cases hj
  · rw [if_neg hk] at hj
    exact ⟨j, hj, ho⟩

theorem openAutomatic_withStatus {i : Incident} {status : IncidentStatus} {now : Nat} :
    (i.withStatus status now).openAutomatic routeId = true ↔
      i.automatic = true ∧ status.isOpen = true ∧ i.routeId = some routeId := openAutomatic_iff

theorem update_atMostOne (hs : s.AtMostOne routeId) (id : String) (status : IncidentStatus) (now : Nat) :
    (update id (Incident.withStatus status now) s).2.AtMostOne routeId ↔
      (∀ i, status.isOpen = true → s.incidents.get? id = some i → i.automatic = true → i.routeId = some routeId →
        s.NoOtherOpen routeId id) := by
  constructor
  · intro h i hstatus hi ha hr k j hj ho
    by_cases hk : k = id
    · exact hk
    · refine h k id j (i.withStatus status now) ?_ ?_ ho (openAutomatic_withStatus.2 ⟨ha, hstatus, hr⟩)
      · rw [get?_update, if_neg hk]
        exact hj
      · rw [get?_update, if_pos rfl, hi, Option.map_some]
  · intro h
    have hopen : ∀ k j, (update id (Incident.withStatus status now) s).2.incidents.get? k = some j →
        j.openAutomatic routeId = true → (k = id ∧ s.NoOtherOpen routeId id) ∨
          (k ≠ id ∧ s.incidents.get? k = some j ∧ j.openAutomatic routeId = true) := by
      intro k j hj ho
      rw [get?_update] at hj
      by_cases hk : k = id
      · rw [if_pos hk] at hj
        obtain ⟨i, hi, rfl⟩ := Option.map_eq_some_iff.1 hj
        obtain ⟨ha, hstatus, hr⟩ := openAutomatic_withStatus.1 ho
        exact .inl ⟨hk, h i hstatus hi ha hr⟩
      · rw [if_neg hk] at hj
        exact .inr ⟨hk, hj, ho⟩
    intro k k' j j' hj hj' ho ho'
    rcases hopen k j hj ho with ⟨rfl, hother⟩ | ⟨hk, hjs, hos⟩
    · rcases hopen k' j' hj' ho' with ⟨rfl, -⟩ | ⟨-, hjs', hos'⟩
      · rfl
      · exact (hother k' j' hjs' hos').symm
    · rcases hopen k' j' hj' ho' with ⟨rfl, hother⟩ | ⟨-, hjs', hos'⟩
      · exact hother k j hjs hos
      · exact hs k k' j j' hjs hjs' hos hos'

theorem world_atMostOne (e : IncidentWorld) (s : IncidentStore) (hs : s.AtMostOne routeId) : (e.apply s).AtMostOne routeId := by
  cases e with
  | wait d => exact hs
  | routeCreated r => exact hs
  | routeDeleted r =>
    refine atMostOne_of hs ?_
    intro id i hi ho
    change (s.incidents.mapRows fun _ i => i.detach r).get? id = some i at hi
    rw [Table.get?_mapRows] at hi
    obtain ⟨j, hj, rfl⟩ := Option.map_eq_some_iff.1 hi
    refine ⟨j, hj, ?_⟩
    unfold Incident.detach at ho
    by_cases hr : j.routeId = some r
    · rw [if_pos hr] at ho
      cases (openAutomatic_iff.1 ho).2.2
    · rw [if_neg hr] at ho
      exact ho

/-- A check that is at its insertion, or is not. -/
theorem check_atMostOne {request : IncidentRequest} {id r : String} {event : NewEvent} {data : NewIncident}
    (hcheck : request.check = some (id, r)) (hdata : data.routeId = some r) {seen : List IncidentStore}
    (hg : ((checkAndCreate id r event data).after seen).ended = false) (hs : s.AtMostOne routeId) :
    InsertsAlone routeId request seen s ↔ (((checkAndCreate id r event data).after seen).advance s).2.AtMostOne routeId := by
  rcases checkAndCreate_step hg s with ⟨hlooked, h⟩ | ⟨s₀, rfl, hnone, h⟩
  · refine iff_of_true ?_ (h.atMostOne hs)
    have hnone : request.inserts seen = none := by
      unfold IncidentRequest.inserts
      rw [hcheck]
      match seen with
      | [] => rfl
      | [s₀] =>
        refine if_neg ?_
        intro hopen
        exact hlooked ⟨s₀, rfl, Option.isNone_iff_eq_none.1 hopen⟩
      | _ :: _ :: _ => rfl
    intro new hnew
    rw [hnone] at hnew
    cases hnew
  · have hinserts : request.inserts [s₀] = some (id, r) := by
      unfold IncidentRequest.inserts
      rw [hcheck]
      exact if_pos (Option.isNone_iff_eq_none.2 hnone)
    rw [h, insertIncident_atMostOne hs, hdata]
    constructor
    · intro halone hr hins
      obtain rfl := Option.some.inj hr
      exact halone (id, r) hinserts rfl hins
    · intro hinsert new hnew hr hins
      obtain rfl := Option.some.inj (hinserts.symm.trans hnew)
      obtain rfl : r = routeId := hr
      exact hinsert rfl hins

theorem insertsAlone_of_none {request : IncidentRequest} (h : request.check = none) (seen : List IncidentStore)
    (s : IncidentStore) : InsertsAlone routeId request seen s := by
  have hnone : request.inserts seen = none := by
    unfold IncidentRequest.inserts
    rw [h]
  intro new hnew
  rw [hnone] at hnew
  cases hnew

theorem reopensAlone_of_none {request : IncidentRequest} {seen : List IncidentStore} (h : request.setsOpen seen = none)
    (s : IncidentStore) : ReopensAlone routeId request seen s := by
  intro id hid
  rw [h] at hid
  cases hid

/-- A user's change of a status that is at its write, or is not. -/
theorem updateStatus_atMostOne {id : String} {status : IncidentStatus} {userId : Option String} {seen : List IncidentStore}
    (hg : ((updateStatus id status userId).after seen).ended = false) (hs : s.AtMostOne routeId) :
    ReopensAlone routeId (.updateStatus id status userId) seen s ↔
      (((updateStatus id status userId).after seen).advance s).2.AtMostOne routeId := by
  rcases updateStatus_step hg s with ⟨hlen, h⟩ | ⟨s₀, rfl, h⟩
  · refine iff_of_true (reopensAlone_of_none ?_ s) (h.atMostOne hs)
    match seen with
    | [] => rfl
    | [_] => exact absurd rfl hlen
    | _ :: _ :: _ => rfl
  · rw [h, update_atMostOne hs]
    constructor
    · intro halone i hstatus hi ha hr
      exact halone id (if_pos hstatus) i hi ha hr
    · intro halone k hk i hi ha hr
      cases hstatus : status.isOpen with
      | false =>
        rw [IncidentRequest.setsOpen, hstatus] at hk
        cases hk
      | true =>
        rw [IncidentRequest.setsOpen, hstatus] at hk
        obtain rfl := Option.some.inj hk
        exact halone i hstatus hi ha hr

theorem Quiet.atMostOne (h : Quiet s s') (hs : s.AtMostOne routeId) : s'.AtMostOne routeId := by
  cases h with
  | same h => exact h.atMostOne hs
  | opened id data h => exact h ▸ insertManual_atMostOne hs id data
  | resolved id now h =>
    rw [h, update_atMostOne hs]
    intro i hopen
    cases hopen
  | deleted id h => exact h ▸ delete_atMostOne hs id

/-- A request that is neither a check nor a change of a status. -/
theorem quiet_atMostOne {request : IncidentRequest} (hquiet : request.isQuiet = true) (hcheck : request.check = none)
    {seen : List IncidentStore} (hsets : request.setsOpen seen = none) (hg : (request.program.after seen).ended = false)
    (hs : s.AtMostOne routeId) :
    (InsertsAlone routeId request seen s ∧ ReopensAlone routeId request seen s) ↔
      ((request.program.after seen).advance s).2.AtMostOne routeId :=
  iff_of_true ⟨insertsAlone_of_none hcheck seen s, reopensAlone_of_none hsets s⟩ ((quiet_step hquiet hg s).atMostOne hs)

/-- One step of a call. -/
theorem atMostOne_step (c : IncidentCall) (s : IncidentStore) (hg : c.ended IncidentRequest.program = false)
    (hs : s.AtMostOne routeId) :
    (InsertsAlone routeId c.request c.seen s ∧ ReopensAlone routeId c.request c.seen s) ↔
      ((c.left IncidentRequest.program).advance s).2.AtMostOne routeId := by
  obtain ⟨request, seen⟩ := c
  cases request with
  | updateStatus id status userId =>
    rw [and_iff_right (insertsAlone_of_none rfl seen s)]
    exact updateStatus_atMostOne hg hs
  | healthFailure id r routeName error =>
    rw [and_iff_left (reopensAlone_of_none rfl s)]
    exact check_atMostOne rfl rfl hg hs
  | cbOpen id r routeName =>
    rw [and_iff_left (reopensAlone_of_none rfl s)]
    exact check_atMostOne rfl rfl hg hs
  | create id data => exact quiet_atMostOne rfl rfl rfl hg hs
  | addEvent incidentId event => exact quiet_atMostOne rfl rfl rfl hg hs
  | autoResolve r => exact quiet_atMostOne rfl rfl rfl hg hs
  | delete id => exact quiet_atMostOne rfl rfl rfl hg hs

/-- An incident that is open, and is set to an open status, is the only one. -/
theorem reopensAlone_of_open {request : IncidentRequest} {seen : List IncidentStore} (hs : s.AtMostOne routeId)
    (h : ReopensNone routeId request seen s) : ReopensAlone routeId request seen s := by
  intro id hid i hi ha hr k j hj ho
  exact hs k id j i hj hi ho (openAutomatic_iff.2 ⟨ha, h id hid i hi ha hr, hr⟩)

end Step

/-! ## Every run -/

/-- Where no user reopens one: at most one automatic incident of the route is open in all states
    exactly if no check inserts one while another is open. -/
theorem automatic_iff (routeId : String) (P : IncidentPool) (hP : P.shared.AtMostOne routeId) (ms : List (Move IncidentWorld))
    (hnone : Along incidentStep (Pool.AtStep IncidentRequest.program (ReopensNone routeId)) P ms) :
    (∀ pre post, ms = pre ++ post → (run incidentStep P pre).shared.AtMostOne routeId) ↔
      Along incidentStep (Pool.AtStep IncidentRequest.program (InsertsAlone routeId)) P ms := by
  have hiff : (∀ pre post, ms = pre ++ post → (run incidentStep P pre).shared.AtMostOne routeId) ↔
      Along incidentStep (Pool.AtStep IncidentRequest.program fun request seen s =>
        InsertsAlone routeId request seen s ∧ ReopensAlone routeId request seen s) P ms :=
    Pool.shared_iff world_atMostOne atMostOne_step hP ms
  refine Iff.trans hiff ⟨?_, ?_⟩
  · exact along_of (I := fun _ => True) (fun Q m _ hm => ⟨Pool.atStep_mono hm fun c hc => hc.1, trivial⟩) trivial
  · intro halone
    refine along_of (I := fun Q => Q.shared.AtMostOne routeId) ?_ hP (along_and.2 ⟨halone, hnone⟩)
    intro Q m hQ hm
    have hboth := Pool.atStep_mono (Pool.atStep_and hm.1 hm.2)
      (D := fun request seen s => InsertsAlone routeId request seen s ∧ ReopensAlone routeId request seen s)
      fun c hc => ⟨hc.1, reopensAlone_of_open hQ hc.2⟩
    exact ⟨hboth, (Pool.shared_step world_atMostOne atMostOne_step hQ m).1 hboth⟩

theorem atMostOne_none (routeId : String) (now : Nat) (routes : List String) (events : List IncidentEvent) :
    (⟨now, routes, .empty, events⟩ : IncidentStore).AtMostOne routeId := by
  intro id id' i i' hi
  rw [Table.get?_empty] at hi
  cases hi

/-- A failed probe and an opened breaker of one route. -/
def failingRoute : IncidentPool where
  shared := ⟨100, ["r"], .empty, []⟩
  calls := [.start (.healthFailure "i" "r" "Shop" "timeout"), .start (.cbOpen "j" "r" "Shop")]

/-- The probe's check runs to its end first. -/
def oneAfterTheOther : List (Move IncidentWorld) := [.call 0, .call 0, .call 1, .call 1]

/-- Both look before either inserts. -/
def bothLook : List (Move IncidentWorld) := [.call 0, .call 1, .call 0, .call 1]

theorem automatic_iff_sequential :
    (∀ pre post, oneAfterTheOther = pre ++ post → (run incidentStep failingRoute pre).shared.AtMostOne "r") ↔
      Along incidentStep (Pool.AtStep IncidentRequest.program (InsertsAlone "r")) failingRoute oneAfterTheOther :=
  automatic_iff "r" failingRoute (atMostOne_none "r" 100 ["r"] []) oneAfterTheOther (by decide +kernel)

/-- No user reopens one, and two are open. -/
theorem two_checks_insert :
    failingRoute.shared.AtMostOne "r" ∧
      Along incidentStep (Pool.AtStep IncidentRequest.program (ReopensNone "r")) failingRoute bothLook ∧
      (((run incidentStep failingRoute bothLook).shared.incidents.rows.filter fun r => r.2.openAutomatic "r").map Prod.fst) =
        ["i", "j"] ∧
      ¬ (run incidentStep failingRoute bothLook).shared.AtMostOne "r" := by
  refine ⟨atMostOne_none "r" 100 ["r"] [], by decide +kernel, by decide +kernel, ?_⟩
  intro h
  have hfirst : ((run incidentStep failingRoute bothLook).shared.incidents.get? "i").map (Incident.openAutomatic "r") =
      some true := by
    decide +kernel
  have hsecond : ((run incidentStep failingRoute bothLook).shared.incidents.get? "j").map (Incident.openAutomatic "r") =
      some true := by
    decide +kernel
  obtain ⟨i, hi, ho⟩ := Option.map_eq_some_iff.1 hfirst
  obtain ⟨j, hj, ho'⟩ := Option.map_eq_some_iff.1 hsecond
  exact absurd (h "i" "j" i j hi hj ho ho') (by decide)

end ClusterGate.Incidents
