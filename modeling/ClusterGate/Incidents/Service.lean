/-
  ClusterGate.Incidents.Service — incidents and their status
  (`services/incidentService.ts`, `routes/incidents.router.ts`).

  An incident is opened by a user, or by a failed health check or an opened circuit breaker
  of its route; users change its status, and a route that is healthy again resolves what is
  open. Every `await` of a query is one step, and so is the reading of the clock. The columns
  are the source's; `automatic` and `transitions` of a row are bookkeeping, which no query
  reads: whether one of the two checks made the row, and the changes of its status with the
  clock readings of the calls that made them, the latest first. The access checks of the
  endpoints and the listings, which write nothing, are left out.
  - `updateStatus_step`, `checkAndCreate_step`: the one step of a call that writes an incident;
    every other step leaves the incidents as they are (`Same`).
  - `quiet_step`: a step of any other request.
-/

import ClusterGate.Errors
import ClusterGate.Lib.Async
import ClusterGate.Lib.Json
import ClusterGate.Lib.Table

namespace ClusterGate.Incidents

open Lib Async

inductive IncidentStatus
  | ACTIVE | INVESTIGATING | RESOLVED | DISMISSED
  deriving DecidableEq

def IncidentStatus.text : IncidentStatus → String
  | .ACTIVE => "ACTIVE"
  | .INVESTIGATING => "INVESTIGATING"
  | .RESOLVED => "RESOLVED"
  | .DISMISSED => "DISMISSED"

inductive IncidentSeverity
  | LOW | MEDIUM | HIGH | CRITICAL
  deriving DecidableEq

structure Transition where
  status : IncidentStatus
  time : Nat
  deriving DecidableEq

structure Incident where
  title : String
  description : Option String
  status : IncidentStatus
  severity : IncidentSeverity
  routeId : Option String
  startedAt : Nat
  resolvedAt : Option Nat
  automatic : Bool
  transitions : List Transition
  deriving DecidableEq

structure IncidentEvent where
  incidentId : String
  type : String
  title : String
  description : Option String
  metadata : Json
  createdById : Option String

structure IncidentStore where
  now : Nat
  routes : List String
  incidents : Table String Incident
  events : List IncidentEvent

/-- `status: { in: ['ACTIVE', 'INVESTIGATING'] }` -/
def Incident.isOpen (i : Incident) : Bool := i.status = .ACTIVE || i.status = .INVESTIGATING

/-- The `data` of `updateStatus`: `resolvedAt: undefined` leaves the column as it is. -/
def Incident.withStatus (status : IncidentStatus) (now : Nat) (i : Incident) : Incident :=
  { i with status := status
           resolvedAt := if status = .RESOLVED then some now else i.resolvedAt
           transitions := ⟨status, now⟩ :: i.transitions }

/-- What `create` is given. -/
structure NewIncident where
  title : String
  description : Option String
  severity : Option IncidentSeverity
  routeId : Option String
  deriving DecidableEq

/-- The row of a new incident: with its status, and its severity if none is given, by default. -/
def NewIncident.row (data : NewIncident) (automatic : Bool) (now : Nat) : Incident :=
  ⟨data.title, data.description, .ACTIVE, data.severity.getD .MEDIUM, data.routeId, now, none, automatic, []⟩

/-- What `addEvent` is given. -/
structure NewEvent where
  type : String
  title : String
  description : Option String := none
  metadata : Option Json := none
  createdById : Option String := none

namespace IncidentStore

/-- `new Date()` -/
def clock : Act IncidentStore Err Nat := fun s => (.ok s.now, s)

/-- An open incident of the route. -/
def openOf (routeId : String) (s : IncidentStore) : Option (String × Incident) :=
  s.incidents.find? fun _ i => i.routeId = some routeId && i.isOpen

/-- `incident.findFirst` -/
def findOpen (routeId : String) : Act IncidentStore Err (Option (String × Incident)) := fun s => (.ok (s.openOf routeId), s)

/-- `incident.findMany`, of the open ones of a route. -/
def findManyOpen (routeId : String) : Act IncidentStore Err (List String) := fun s =>
  (.ok ((s.incidents.rows.filter fun r => r.2.routeId = some routeId && r.2.isOpen).map Prod.fst), s)

/-- `incident.create` -/
def insertIncident (id : String) (automatic : Bool) (data : NewIncident) : Act IncidentStore Err Incident := fun s =>
  if (s.incidents.get? id).isSome = true then (.error (.prisma "P2002"), s)
  else if ∀ routeId ∈ data.routeId, routeId ∈ s.routes then
    let incident := data.row automatic s.now
    (.ok incident, { s with incidents := s.incidents.insert id incident })
  else (.error (.prisma "P2003"), s)

/-- `incident.update` -/
def update (id : String) (data : Incident → Incident) : Act IncidentStore Err Incident := fun s =>
  match s.incidents.get? id with
  | none => (.error (.prisma "P2025"), s)
  | some i => (.ok (data i), { s with incidents := s.incidents.modify id data })

/-- `incidentEvent.create` -/
def insertEvent (incidentId : String) (event : NewEvent) : Act IncidentStore Err IncidentEvent := fun s =>
  if (s.incidents.get? incidentId).isSome = true then
    let e : IncidentEvent :=
      ⟨incidentId, event.type, event.title, event.description, event.metadata.getD (.obj []), event.createdById⟩
    (.ok e, { s with events := s.events ++ [e] })
  else (.error (.prisma "P2003"), s)

/-- `incidentEvent.deleteMany` -/
def deleteEvents (incidentId : String) : Act IncidentStore Err Unit := fun s =>
  (.ok (), { s with events := s.events.filter fun e => e.incidentId ≠ incidentId })

/-- `incident.delete`, and the events that are left go with it. -/
def delete (id : String) : Act IncidentStore Err Incident := fun s =>
  match s.incidents.get? id with
  | none => (.error (.prisma "P2025"), s)
  | some i => (.ok i, { s with incidents := s.incidents.erase id, events := s.events.filter fun e => e.incidentId ≠ id })

end IncidentStore

open IncidentStore

/-! ## The service -/

inductive IncidentAnswer
  | incident (id : String) (incident : Incident)
  | event (event : IncidentEvent)
  | resolved

/-- `create`; the new row gets `id`. -/
def create (id : String) (automatic : Bool) (data : NewIncident) : Async IncidentStore Err IncidentAnswer := do
  let incident ← await (insertIncident id automatic data)
  let _ ← await (insertEvent id
    { type := "status_change", title := "Incident created", description := data.description })
  pure (.incident id incident)

def updateStatus (id : String) (status : IncidentStatus) (userId : Option String) :
    Async IncidentStore Err IncidentAnswer := do
  let now ← await clock
  let incident ← await (update id (Incident.withStatus status now))
  let _ ← await (insertEvent id
    { type := "status_change", title := "Status changed to " ++ status.text, createdById := userId })
  pure (.incident id incident)

def addEvent (incidentId : String) (event : NewEvent) : Async IncidentStore Err IncidentAnswer := do
  let e ← await (insertEvent incidentId event)
  pure (.event e)

/-- A check, from the open incident it found on. -/
def checkFound (id : String) (event : NewEvent) (data : NewIncident) :
    Option (String × Incident) → Async IncidentStore Err IncidentAnswer
  | some (existing, incident) => do
    let _ ← addEvent existing event
    pure (.incident existing incident)
  | none => create id true data

/-- The two checks: an event for the open incident of the route, or a new incident. -/
def checkAndCreate (id routeId : String) (event : NewEvent) (data : NewIncident) :
    Async IncidentStore Err IncidentAnswer := do
  let existing ← await (findOpen routeId)
  checkFound id event data existing

def checkAndCreateFromHealthFailure (id routeId routeName error : String) : Async IncidentStore Err IncidentAnswer :=
  checkAndCreate id routeId
    { type := "health_check_failed", title := "Health check failed", description := some error
      metadata := some (.obj [("routeId", .str routeId), ("routeName", .str routeName)]) }
    ⟨"Route \"" ++ routeName ++ "\" health check failing", some ("Health check returned: " ++ error), some .HIGH,
      some routeId⟩

def checkAndCreateFromCBOpen (id routeId routeName : String) : Async IncidentStore Err IncidentAnswer :=
  checkAndCreate id routeId
    { type := "cb_opened", title := "Circuit breaker opened", metadata := some (.obj [("routeId", .str routeId)]) }
    ⟨"Circuit breaker opened for \"" ++ routeName ++ "\"",
      some "Failure threshold exceeded, traffic is being blocked.", some .CRITICAL, some routeId⟩

def deleteIncident (id : String) : Async IncidentStore Err IncidentAnswer := do
  await (deleteEvents id)
  let incident ← await (delete id)
  pure (.incident id incident)

/-- The loop of `autoResolveIfHealthy`. -/
def resolveAll : List String → Async IncidentStore Err IncidentAnswer
  | [] => pure .resolved
  | id :: active => do
    let _ ← updateStatus id .RESOLVED none
    let _ ← addEvent id { type := "status_change", title := "Auto-resolved: route is healthy again" }
    resolveAll active

def autoResolveIfHealthy (routeId : String) : Async IncidentStore Err IncidentAnswer := do
  let active ← await (findManyOpen routeId)
  resolveAll active

/-- What is asked for. `updateStatus` is also what an incident's dismissal asks for. -/
inductive IncidentRequest
  | create (id : String) (data : NewIncident)
  | updateStatus (id : String) (status : IncidentStatus) (userId : Option String)
  | addEvent (incidentId : String) (event : NewEvent)
  | healthFailure (id routeId routeName error : String)
  | cbOpen (id routeId routeName : String)
  | autoResolve (routeId : String)
  | delete (id : String)

def IncidentRequest.program : IncidentRequest → Async IncidentStore Err IncidentAnswer
  | .create id data => Incidents.create id false data
  | .updateStatus id status userId => Incidents.updateStatus id status userId
  | .addEvent incidentId event => Incidents.addEvent incidentId event
  | .healthFailure id routeId routeName error => checkAndCreateFromHealthFailure id routeId routeName error
  | .cbOpen id routeId routeName => checkAndCreateFromCBOpen id routeId routeName
  | .autoResolve routeId => autoResolveIfHealthy routeId
  | .delete id => deleteIncident id

/-- Time passes; a route is made, or is deleted and its incidents stay without one. -/
inductive IncidentWorld
  | wait (d : Nat)
  | routeCreated (routeId : String)
  | routeDeleted (routeId : String)
  deriving DecidableEq

def Incident.detach (routeId : String) (i : Incident) : Incident :=
  if i.routeId = some routeId then { i with routeId := none } else i

def IncidentWorld.apply : IncidentWorld → IncidentStore → IncidentStore
  | .wait d, s => { s with now := s.now + d }
  | .routeCreated routeId, s => { s with routes := routeId :: s.routes }
  | .routeDeleted routeId, s =>
    { s with routes := s.routes.filter fun r => r ≠ routeId, incidents := s.incidents.mapRows fun _ i => i.detach routeId }

abbrev IncidentCall := Call IncidentRequest IncidentStore

abbrev IncidentPool := Pool IncidentStore IncidentCall

def incidentStep : IncidentPool → Move IncidentWorld → IncidentPool :=
  Pool.step (Call.advance IncidentRequest.program) IncidentWorld.apply

/-! ## What a step writes -/

/-- The incidents are as they were. -/
def Same (s s' : IncidentStore) : Prop := ∀ id, s'.incidents.get? id = s.incidents.get? id

theorem same_refl (s : IncidentStore) : Same s s := fun _ => rfl

theorem insertEvent_same (incidentId : String) (event : NewEvent) (s : IncidentStore) :
    Same s (insertEvent incidentId event s).2 := by
  unfold insertEvent
  split <;> exact fun _ => rfl

@[simp] theorem get?_update (id : String) (data : Incident → Incident) (s : IncidentStore) (k : String) :
    (update id data s).2.incidents.get? k = if k = id then (s.incidents.get? id).map data else s.incidents.get? k := by
  unfold update
  cases h : s.incidents.get? id with
  | none =>
    by_cases hk : k = id
    · rw [if_pos hk, hk]
      exact h
    · rw [if_neg hk]
  | some i =>
    show (s.incidents.modify id data).get? k = _
    rw [Table.get?_modify, h]

@[simp] theorem get?_delete (id : String) (s : IncidentStore) (k : String) :
    (delete id s).2.incidents.get? k = if k = id then none else s.incidents.get? k := by
  unfold delete
  cases h : s.incidents.get? id with
  | none =>
    by_cases hk : k = id
    · rw [if_pos hk, hk]
      exact h
    · rw [if_neg hk]
  | some i => exact Table.get?_erase id s.incidents k

/-- Whether `incident.create` finds its id free and its route there. -/
def Insertable (id : String) (routeId : Option String) (s : IncidentStore) : Prop :=
  s.incidents.get? id = none ∧ ∀ r ∈ routeId, r ∈ s.routes

instance decidableInsertable (id : String) (routeId : Option String) (s : IncidentStore) :
    Decidable (Insertable id routeId s) :=
  inferInstanceAs (Decidable (_ ∧ ∀ r ∈ routeId, r ∈ s.routes))

theorem get?_insertIncident (id : String) (automatic : Bool) (data : NewIncident) (s : IncidentStore) (k : String) :
    (insertIncident id automatic data s).2.incidents.get? k =
      if Insertable id data.routeId s ∧ k = id then some (data.row automatic s.now) else s.incidents.get? k := by
  unfold insertIncident
  by_cases hid : (s.incidents.get? id).isSome = true
  · have hno : ¬ (Insertable id data.routeId s ∧ k = id) := by
      intro h
      rw [h.1.1] at hid
      cases hid
    rw [if_pos hid, if_neg hno]
  · have hnone : s.incidents.get? id = none := Option.not_isSome_iff_eq_none.1 hid
    rw [if_neg hid]
    by_cases hr : ∀ r ∈ data.routeId, r ∈ s.routes
    · rw [if_pos hr]
      show (s.incidents.insert id (data.row automatic s.now)).get? k = _
      rw [Table.get?_insert hnone]
      by_cases hk : k = id
      · rw [if_pos hk, if_pos ⟨⟨hnone, hr⟩, hk⟩]
      · rw [if_neg hk, if_neg fun h => hk h.2]
    · rw [if_neg hr, if_neg fun h => hr h.1.2]

theorem created_steps (id : String) (event : NewEvent) (incident : Incident) :
    EveryStep Same
      (await (insertEvent id event) >>= fun _ => (pure (.incident id incident) : Async IncidentStore Err IncidentAnswer)) :=
  everyStep_bind (everyStep_await (insertEvent_same id event)) fun _ => everyStep_pure _

theorem addEvent_steps (incidentId : String) (event : NewEvent) : EveryStep Same (addEvent incidentId event) :=
  everyStep_bind (everyStep_await (insertEvent_same incidentId event)) fun _ => everyStep_pure _

/-- The second step of `updateStatus` writes the status, with the clock reading of the first. -/
theorem updateStatus_step {id : String} {status : IncidentStatus} {userId : Option String} {seen : List IncidentStore}
    (hg : ((updateStatus id status userId).after seen).ended = false) (s : IncidentStore) :
    (seen.length ≠ 1 ∧ Same s (((updateStatus id status userId).after seen).advance s).2) ∨
      ∃ s₀, seen = [s₀] ∧ (((updateStatus id status userId).after seen).advance s).2 =
        (update id (Incident.withStatus status s₀.now) s).2 := by
  rcases second_step same_refl (fun now => everyStep_rest (created_steps id _)) hg s with h | ⟨s₀, now, hseen, hnow, h⟩
  · exact .inl h
  · obtain rfl : s₀.now = now := Except.ok.inj hnow
    refine .inr ⟨s₀, hseen, ?_⟩
    unfold updateStatus
    rw [h]
    rfl

/-- The second step of a check that has found no open incident inserts one. -/
theorem checkAndCreate_step {id routeId : String} {event : NewEvent} {data : NewIncident} {seen : List IncidentStore}
    (hg : ((checkAndCreate id routeId event data).after seen).ended = false) (s : IncidentStore) :
    (¬ (∃ s₀, seen = [s₀] ∧ s₀.openOf routeId = none) ∧
        Same s (((checkAndCreate id routeId event data).after seen).advance s).2) ∨
      ∃ s₀, seen = [s₀] ∧ s₀.openOf routeId = none ∧
        (((checkAndCreate id routeId event data).after seen).advance s).2 = (insertIncident id true data s).2 := by
  have htail : ∀ existing s, EveryStep Same ((checkFound id event data existing).advance s).1 := by
    intro existing t
    cases existing with
    | none => exact everyStep_rest (created_steps id _) t
    | some r =>
      have hsteps : EveryStep Same (checkFound id event data (some r)) :=
        everyStep_bind (addEvent_steps r.1 event) fun _ => everyStep_pure _
      exact everyStep_after [t] hsteps
  rcases second_step same_refl htail hg s with ⟨hlen, h⟩ | ⟨s₀, existing, rfl, hfound, h⟩
  · left
    refine ⟨?_, h⟩
    rintro ⟨s₀, rfl, -⟩
    exact hlen rfl
  · unfold checkAndCreate
    rw [h]
    have hopen : s₀.openOf routeId = existing := Except.ok.inj hfound
    cases existing with
    | none => exact .inr ⟨s₀, rfl, hopen, rfl⟩
    | some r =>
      left
      refine ⟨?_, insertEvent_same r.1 event s⟩
      rintro ⟨t, hseen, hnone⟩
      obtain rfl := (List.cons.inj hseen).1
      rw [hopen] at hnone
      cases hnone

/-- A step of the requests that neither set a status of their own nor check: a user's new
    incident, a resolution by the health logic, a deletion, or none of these. -/
inductive Quiet (s s' : IncidentStore) : Prop
  | same (h : Same s s')
  | opened (id : String) (data : NewIncident) (h : s' = (insertIncident id false data s).2)
  | resolved (id : String) (now : Nat) (h : s' = (update id (Incident.withStatus .RESOLVED now) s).2)
  | deleted (id : String) (h : s' = (delete id s).2)

theorem Same.quiet {s s' : IncidentStore} (h : Same s s') : Quiet s s' := .same h

theorem addEvent_quiet (incidentId : String) (event : NewEvent) : EveryStep Quiet (addEvent incidentId event) :=
  everyStep_bind (everyStep_await fun s => (insertEvent_same incidentId event s).quiet) fun _ => everyStep_pure _

theorem create_quiet (id : String) (data : NewIncident) : EveryStep Quiet (create id false data) := by
  refine everyStep_bind (everyStep_await fun s => .opened id data rfl) fun incident => ?_
  exact everyStep_bind (everyStep_await fun s => (insertEvent_same id _ s).quiet) fun _ => everyStep_pure _

theorem autoResolve_quiet (routeId : String) : EveryStep Quiet (autoResolveIfHealthy routeId) := by
  refine everyStep_bind (everyStep_await fun s => (same_refl s).quiet) fun active => ?_
  induction active with
  | nil => exact everyStep_pure _
  | cons id active ih =>
    refine everyStep_bind ?_ fun _ => ?_
    · refine everyStep_bind (everyStep_await fun s => (same_refl s).quiet) fun now => ?_
      refine everyStep_bind (everyStep_await fun s => .resolved id now rfl) fun incident => ?_
      exact everyStep_bind (everyStep_await fun s => (insertEvent_same id _ s).quiet) fun _ => everyStep_pure _
    · exact everyStep_bind (addEvent_quiet id _) fun _ => ih

theorem deleteIncident_quiet (id : String) : EveryStep Quiet (deleteIncident id) := by
  refine everyStep_bind (everyStep_await fun s => .same fun _ => rfl) fun _ => ?_
  exact everyStep_bind (everyStep_await fun s => .deleted id rfl) fun _ => everyStep_pure _

/-- The other requests. -/
def IncidentRequest.isQuiet : IncidentRequest → Bool
  | .create _ _ | .addEvent _ _ | .autoResolve _ | .delete _ => true
  | .updateStatus _ _ _ | .healthFailure _ _ _ _ | .cbOpen _ _ _ => false

theorem quiet_step {request : IncidentRequest} (h : request.isQuiet = true) {seen : List IncidentStore}
    (hg : (request.program.after seen).ended = false) (s : IncidentStore) :
    Quiet s ((request.program.after seen).advance s).2 := by
  have hsteps : EveryStep Quiet request.program := by
    cases request with
    | create id data => exact create_quiet id data
    | addEvent incidentId event => exact addEvent_quiet incidentId event
    | autoResolve routeId => exact autoResolve_quiet routeId
    | delete id => exact deleteIncident_quiet id
    | updateStatus id status userId => cases h
    | healthFailure id routeId routeName error => cases h
    | cbOpen id routeId routeName => cases h
  exact everyStep_advance (everyStep_after seen hsteps) hg s

end ClusterGate.Incidents
