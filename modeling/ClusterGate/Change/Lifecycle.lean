/-
  ClusterGate.Change.Lifecycle — what becomes of a change request over any sequence of
  calls.

  A request should go from pending to approved to applied, its payload written to its
  route once in between, or from pending to rejected. The endpoints look at neither the
  status of the request they approve or reject nor its type: an approval always ends in
  applied, whatever it could write.
  - `approval_applies_nothing`: a proposal to delete a route is applied, and nothing is.
  - `requests_in_order`: on every run that reviews only what is still open, and approves
    only updates it can carry out in full, every request keeps to its lifecycle.
-/

import ClusterGate.Endpoint
import ClusterGate.Change.Frame
import Mathlib.Data.List.Chain

namespace ClusterGate

open Lib Lib.Act Lib.Table Lib.Zod

/-! ## The lifecycle -/

/-- The moves between statuses; a review may be repeated. -/
def ChangeRequestStatus.Moves (a b : ChangeRequestStatus) : Prop :=
  (a = .PENDING ∧ (b = .APPROVED ∨ b = .REJECTED)) ∨ (a = .APPROVED ∧ (b = .APPROVED ∨ b = .APPLIED)) ∨
    (a = .REJECTED ∧ b = .REJECTED)

def CrEvent.status? : CrEvent → Option ChangeRequestStatus
  | .status s => some s
  | _ => none

/-- A write on behalf of the request. -/
def CrEvent.isEffect : CrEvent → Bool
  | .status _ => false
  | _ => true

/-- What the request asks for was done: its route has every field of the payload, or it
    was created, or deleted. -/
def ChangeRequest.CarriedOut (cr : ChangeRequest) : Prop :=
  (cr.type = "update" ∧ ∃ routeId before after, cr.routeId = some routeId ∧ .updated routeId before after ∈ cr.trail ∧
      ∀ c v, cr.payload c = some v → writeField c (before.val c) v = some (after.val c)) ∨
    (cr.type = "create" ∧ ∃ routeId row, .created routeId row ∈ cr.trail) ∨
    (cr.type = "delete" ∧ ∃ routeId, cr.routeId = some routeId ∧ .deleted routeId ∈ cr.trail)

def ChangeRequest.statuses (cr : ChangeRequest) : List ChangeRequestStatus := cr.trail.filterMap CrEvent.status?

structure ChangeRequest.InOrder (cr : ChangeRequest) : Prop where
  start : cr.statuses.head? = some .PENDING
  moves : cr.statuses.IsChain ChangeRequestStatus.Moves
  now : cr.statuses.getLast? = some cr.status
  once : (cr.trail.filter CrEvent.isEffect).length ≤ 1
  notAfterRejection : ∀ before after, cr.trail = before ++ .status .REJECTED :: after → ∀ e ∈ after, e.isEffect = false
  applied : cr.status = .APPLIED → cr.CarriedOut

/-- The trails the lifecycle allows, with the status they end in. -/
inductive Lifecycle : ChangeRequestStatus → List CrEvent → Prop
  | pending : Lifecycle .PENDING [.status .PENDING]
  | approve {a : ChangeRequestStatus} {es : List CrEvent} (h : Lifecycle a es) (ha : a = .PENDING ∨ a = .APPROVED) :
      Lifecycle .APPROVED (es ++ [.status .APPROVED])
  | reject {a : ChangeRequestStatus} {es : List CrEvent} (h : Lifecycle a es) (ha : a = .PENDING ∨ a = .REJECTED) :
      Lifecycle .REJECTED (es ++ [.status .REJECTED])
  | apply {es : List CrEvent} {e : CrEvent} (h : Lifecycle .APPROVED es) (he : e.isEffect = true) :
      Lifecycle .APPLIED (es ++ [e, .status .APPLIED])

namespace Lifecycle

variable {a : ChangeRequestStatus} {es : List CrEvent}

theorem head (h : Lifecycle a es) : (es.filterMap CrEvent.status?).head? = some .PENDING := by
  induction h with
  | pending => rfl
  | approve h ha ih | reject h ha ih | apply h he ih => rw [List.filterMap_append, List.head?_append, ih]; rfl

theorem effect_status {e : CrEvent} (he : e.isEffect = true) : e.status? = none := by
  cases e with
  | status s => cases he
  | _ => rfl

theorem last (h : Lifecycle a es) : (es.filterMap CrEvent.status?).getLast? = some a := by
  cases h with
  | pending => rfl
  | approve h ha | reject h ha => simp [List.filterMap_append, CrEvent.status?]
  | apply h he =>
    rw [List.filterMap_append, List.filterMap_cons, effect_status he]
    simp [CrEvent.status?]

theorem chain (h : Lifecycle a es) : (es.filterMap CrEvent.status?).IsChain ChangeRequestStatus.Moves := by
  -- one more status is a move from the last one
  have snoc : ∀ {a b : ChangeRequestStatus} {es : List CrEvent}, Lifecycle a es →
      (es.filterMap CrEvent.status?).IsChain ChangeRequestStatus.Moves → a.Moves b →
      ((es.filterMap CrEvent.status?) ++ [b]).IsChain ChangeRequestStatus.Moves := by
    intro a b es h hc hm
    refine List.isChain_append.2 ⟨hc, List.isChain_singleton b, fun x hx y hy => ?_⟩
    rw [h.last] at hx
    obtain rfl : a = x := by simpa using hx
    obtain rfl : b = y := by simpa using hy
    exact hm
  induction h with
  | pending => exact List.isChain_singleton _
  | approve h ha ih =>
    rw [List.filterMap_append]
    refine snoc h ih ?_
    rcases ha with rfl | rfl
    · exact Or.inl ⟨rfl, Or.inl rfl⟩
    · exact Or.inr (Or.inl ⟨rfl, Or.inl rfl⟩)
  | reject h ha ih =>
    rw [List.filterMap_append]
    refine snoc h ih ?_
    rcases ha with rfl | rfl
    · exact Or.inl ⟨rfl, Or.inr rfl⟩
    · exact Or.inr (Or.inr ⟨rfl, rfl⟩)
  | apply h he ih =>
    rw [List.filterMap_append, List.filterMap_cons, effect_status he]
    exact snoc h ih (Or.inr (Or.inl ⟨rfl, Or.inr rfl⟩))

/-- Nothing is done before the request is applied. -/
theorem noEffect (h : Lifecycle a es) (ha : a ≠ .APPLIED) : es.filter CrEvent.isEffect = [] := by
  induction h with
  | pending => rfl
  | approve h hst ih | reject h hst ih =>
    rw [List.filter_append, ih (by rcases hst with rfl | rfl <;> decide)]
    rfl
  | apply h he ih => exact absurd rfl ha

theorem once (h : Lifecycle a es) : (es.filter CrEvent.isEffect).length ≤ 1 := by
  by_cases ha : a = .APPLIED
  · subst ha
    cases h with
    | apply h he =>
      rw [List.filter_append, h.noEffect (by decide), List.nil_append, List.filter_cons_of_pos he]
      exact Nat.le_refl 1
  · rw [h.noEffect ha]
    exact Nat.zero_le 1

/-- A rejected request ends in a rejection. -/
theorem rejected (h : Lifecycle a es) (hr : .status .REJECTED ∈ es) : a = .REJECTED := by
  induction h with
  | pending => simp at hr
  | approve h hst ih =>
    rcases List.mem_append.1 hr with hr | hr
    · have := ih hr
      rcases hst with rfl | rfl <;> cases this
    · simp at hr
  | reject h hst ih => rfl
  | apply h he ih =>
    rcases List.mem_append.1 hr with hr | hr
    · cases ih hr
    · rcases List.mem_cons.1 hr with rfl | hr
      · cases he
      · simp at hr

end Lifecycle

/-- The invariant of a request: its trail is one of the lifecycle's, and applied means
    carried out. -/
structure ChangeRequest.Lawful (cr : ChangeRequest) : Prop where
  trail : Lifecycle cr.status cr.trail
  applied : cr.status = .APPLIED → cr.CarriedOut

theorem ChangeRequest.Lawful.inOrder {cr : ChangeRequest} (h : cr.Lawful) : cr.InOrder where
  start := h.trail.head
  moves := h.trail.chain
  now := h.trail.last
  once := h.trail.once
  notAfterRejection := by
    intro before after ht e he
    have hr : cr.status = .REJECTED := h.trail.rejected (by simp [ht])
    have none := h.trail.noEffect (by rw [hr]; decide)
    rw [List.filter_eq_nil_iff] at none
    simpa using none e (by simp [ht, he])
  applied := h.applied

/-! ## Calls -/

structure ChangeCall where
  caller : Caller
  draw : Draw
  op : ChangeOp

def changeStep (W : World) (s : Store) (c : ChangeCall) : Store := step W s ⟨c.caller, c.draw, .change c.op⟩

theorem changeStep_cases (W : World) (s : Store) (c : ChangeCall) :
    changeStep W s c = s ∨ ChangeStep W s c.caller c.draw c.op (changeStep W s c) :=
  wp_final (c.op.perform_step (W := W) (u := c.caller) (d := c.draw))

/-- An approval can do all that the request asks for: an update of a route in the fields
    an approval takes over. -/
def ChangeRequest.Applicable (cr : ChangeRequest) : Prop :=
  cr.type = "update" ∧ cr.route?.isSome = true ∧ ∀ c, (cr.payload c).isSome = true → c ∈ APPLIED_FIELDS

instance (cr : ChangeRequest) : Decidable cr.Applicable := inferInstanceAs (Decidable (_ ∧ _ ∧ _))

/-- The write of the request's route would be refused. -/
def WriteRefused (s : Store) (now : String) (cr : ChangeRequest) : Prop :=
  ∃ routeId e, cr.writes? = some routeId ∧ routeWrite s now routeId (appliedData cr.payload) = .error e

/-- A call that approves or rejects finds the request open for that, and approves only what
    it can carry out in full or what is refused on the way. -/
def ReviewsOpen (W : World) (s : Store) (c : ChangeCall) : Prop :=
  ∀ id body cr, MayReview s c.caller id body → s.changeRequests.get? id = some cr →
    (c.op = .approve id body → payloadTargetRefused W s cr = none →
      (cr.status = .PENDING ∨ cr.status = .APPROVED) ∧ (cr.Applicable ∨ WriteRefused s c.draw.now cr)) ∧
    (c.op = .reject id body → cr.status = .PENDING ∨ cr.status = .REJECTED)

/-! ## A call keeps the requests lawful -/

def RequestsLawful (s : Store) : Prop := ∀ id cr, s.changeRequests.get? id = some cr → cr.Lawful

/-- One request is rewritten, the others stay. -/
theorem lawful_modify {s : Store} {id : String} {f : ChangeRequest → ChangeRequest} {cr : ChangeRequest}
    (hs : RequestsLawful s) (hcr : s.changeRequests.get? id = some cr) (hf : (f cr).Lawful) {k : String}
    {cr' : ChangeRequest} (h : (s.changeRequests.modify id f).get? k = some cr') : cr'.Lawful := by
  rw [get?_modify] at h
  by_cases e : k = id
  · rw [if_pos e, hcr] at h
    obtain rfl : f cr = cr' := by simpa using h
    exact hf
  · rw [if_neg e] at h
    exact hs k cr' h

theorem lawful_reviewed {cr : ChangeRequest} {userId now : String} {comment : Option String} (h : cr.Lawful)
    (hp : cr.status = .PENDING ∨ cr.status = .APPROVED) : (cr.reviewed .APPROVED userId comment now).Lawful :=
  ⟨h.trail.approve hp, fun ha => nomatch ha⟩

theorem lawful_rejected {cr : ChangeRequest} {userId now : String} {comment : Option String} (h : cr.Lawful)
    (hp : cr.status = .PENDING ∨ cr.status = .REJECTED) : (cr.reviewed .REJECTED userId comment now).Lawful :=
  ⟨h.trail.reject hp, fun ha => nomatch ha⟩

/-- An update in the fields an approval takes over is carried out by it. -/
theorem lawful_applied {cr : ChangeRequest} {userId now routeId : String} {comment : Option String} {before after : Row}
    (h : cr.Lawful) (hp : cr.status = .PENDING ∨ cr.status = .APPROVED) (ha : cr.Applicable)
    (hw : cr.writes? = some routeId) (hrow : WrittenRow now (appliedData cr.payload) before after) :
    (cr.applied userId comment now routeId before after).Lawful := by
  obtain ⟨htype, hroute, hfields⟩ := ha
  have trail : (cr.applied userId comment now routeId before after).trail =
      cr.trail ++ [.status .APPROVED] ++ [.updated routeId before after, .status .APPLIED] := by
    simp [ChangeRequest.applied, ChangeRequest.noted, ChangeRequest.reviewed, ChangeRequest.withStatus]
  have hid : cr.routeId = some routeId := by
    rw [ChangeRequest.writes?, if_pos htype, ChangeRequest.route?, Option.filter_eq_some_iff] at hw
    exact hw.1
  refine ⟨?_, fun _ => Or.inl ⟨htype, routeId, before, after, hid, by rw [trail]; simp, fun c v hv => ?_⟩⟩
  · rw [trail]
    exact (h.trail.approve hp).apply rfl
  · have hc : c ∈ APPLIED_FIELDS := hfields c (by rw [show cr.payload c = some v from hv]; rfl)
    exact hrow.field ((if_pos hc).trans hv) fun e => absurd hc (e ▸ by decide)

theorem step_lawful {W : World} {s : Store} {c : ChangeCall} (hs : RequestsLawful s) (hc : ReviewsOpen W s c) :
    RequestsLawful (changeStep W s c) := by
  rcases changeStep_cases W s c with h | h
  · rw [h]
    exact hs
  · obtain ⟨u, d, op⟩ := c
    revert h
    generalize changeStep W s ⟨u, d, op⟩ = s'
    intro h k cr' hk
    cases h with
    | proposed hd hn =>
      change (s.changeRequests.insert _ _).get? k = some cr' at hk
      rw [get?_insert hn] at hk
      by_cases e : k = d.rowId
      · rw [if_pos e] at hk
        cases hk
        exact ⟨.pending, fun ha => nomatch ha⟩
      · rw [if_neg e] at hk
        exact hs k cr' hk
    | idle hu hcr ht hw =>
      obtain ⟨-, ha | ⟨routeId, e, hr, -⟩⟩ := (hc _ _ _ hu hcr).1 rfl ht
      · obtain ⟨htype, hroute, -⟩ := ha
        rw [ChangeRequest.writes?, if_pos htype] at hw
        rw [hw] at hroute
        cases hroute
      · rw [hw] at hr
        cases hr
    | applied hu hcr ht hw ho hr =>
      obtain ⟨hp, ha | ⟨routeId, e, hw', he⟩⟩ := (hc _ _ _ hu hcr).1 rfl ht
      · obtain ⟨old, ho', hrow⟩ := routeWrite_row hr
        rw [ho] at ho'
        cases ho'
        exact lawful_modify hs hcr (lawful_applied (hs _ _ hcr) hp ha hw hrow) hk
      · rw [hw] at hw'
        cases hw'
        rw [hr] at he
        cases he
    | stuck hu hcr ht hw hr =>
      obtain ⟨hp, -⟩ := (hc _ _ _ hu hcr).1 rfl ht
      exact lawful_modify hs hcr (lawful_reviewed (hs _ _ hcr) hp) hk
    | rejected hu hcr => exact lawful_modify hs hcr (lawful_rejected (hs _ _ hcr) ((hc _ _ _ hu hcr).2 rfl)) hk
    | deleted hcr hp =>
      change (s.changeRequests.erase _).get? k = some cr' at hk
      rw [get?_erase] at hk
      split at hk
      · cases hk
      · exact hs k cr' hk

/-! ## What the trails record -/

/-- A trail gains a write exactly where a route is written. -/
structure Recorded (s s' : Store) : Prop where
  happened : ∀ id cr' k before after, s'.changeRequests.get? id = some cr' → .updated k before after ∈ cr'.trail →
    (∃ cr, s.changeRequests.get? id = some cr ∧ .updated k before after ∈ cr.trail) ∨
      (s.routes.get? k = some before ∧ s'.routes.get? k = some after)
  noted : ∀ k before, s.routes.get? k = some before → s'.routes.get? k = some before ∨
    ∃ after id cr', s'.routes.get? k = some after ∧ s'.changeRequests.get? id = some cr' ∧
      .updated k before after ∈ cr'.trail

/-- Only a status is added to a trail. -/
theorem recorded_status {s : Store} {id : String} {f : ChangeRequest → ChangeRequest}
    (hf : ∀ cr k before after, .updated k before after ∈ (f cr).trail → .updated k before after ∈ cr.trail) :
    Recorded s { s with changeRequests := s.changeRequests.modify id f } := by
  refine ⟨fun j cr' k before after hj hm => Or.inl ?_, fun k before h => Or.inl h⟩
  change (s.changeRequests.modify id f).get? j = some cr' at hj
  rw [get?_modify] at hj
  by_cases e : j = id
  · rw [if_pos e] at hj
    obtain ⟨cr, hcr, rfl⟩ := Option.map_eq_some_iff.1 hj
    exact ⟨cr, e ▸ hcr, hf cr k before after hm⟩
  · rw [if_neg e] at hj
    exact ⟨cr', hj, hm⟩

theorem step_recorded (W : World) (s : Store) (c : ChangeCall) : Recorded s (changeStep W s c) := by
  have same : Recorded s s := ⟨fun j cr' _ _ _ hj hm => Or.inl ⟨cr', hj, hm⟩, fun _ _ h => Or.inl h⟩
  rcases changeStep_cases W s c with h | h
  · rw [h]
    exact same
  · obtain ⟨u, d, op⟩ := c
    revert h
    generalize changeStep W s ⟨u, d, op⟩ = s'
    intro h
    cases h with
    | proposed hd hn =>
      refine ⟨fun j cr' k before after hj hm => ?_, fun _ _ h => Or.inl h⟩
      change (s.changeRequests.insert _ _).get? j = some cr' at hj
      rw [get?_insert hn] at hj
      by_cases e : j = d.rowId
      · rw [if_pos e] at hj
        cases hj
        simp [changeRequestOf] at hm
      · rw [if_neg e] at hj
        exact Or.inl ⟨cr', hj, hm⟩
    | idle hu hcr ht hw =>
      refine recorded_status fun cr k before after hm => ?_
      simpa [ChangeRequest.appliedIdle, ChangeRequest.reviewed, ChangeRequest.withStatus] using hm
    | stuck hu hcr ht hw hr =>
      refine recorded_status fun cr k before after hm => ?_
      simpa [ChangeRequest.reviewed, ChangeRequest.withStatus] using hm
    | rejected hu hcr =>
      refine recorded_status fun cr k before after hm => ?_
      simpa [ChangeRequest.reviewed, ChangeRequest.withStatus] using hm
    | deleted hcr hp =>
      refine ⟨fun j cr' k before after hj hm => Or.inl ?_, fun _ _ h => Or.inl h⟩
      change (s.changeRequests.erase _).get? j = some cr' at hj
      rw [get?_erase] at hj
      split at hj
      · cases hj
      · exact ⟨cr', hj, hm⟩
    | applied hu hcr ht hw ho hr =>
      rename_i id body comment cr routeId old row
      have route : (s.routes.modify routeId fun _ => row).get? routeId = some row := by
        rw [get?_modify, if_pos rfl, ho]
        rfl
      refine ⟨fun j cr' k before after hj hm => ?_, fun k before hk => ?_⟩
      · change (s.changeRequests.modify _ _).get? j = some cr' at hj
        rw [get?_modify] at hj
        by_cases e : j = id
        · rw [if_pos e, hcr] at hj
          cases hj
          simp only [ChangeRequest.applied, ChangeRequest.noted, ChangeRequest.reviewed, ChangeRequest.withStatus,
            Function.comp_apply, List.mem_append, List.mem_cons, List.not_mem_nil, or_false, reduceCtorEq,
            CrEvent.updated.injEq] at hm
          rcases hm with hm | ⟨rfl, rfl, rfl⟩
          · exact Or.inl ⟨cr, e ▸ hcr, hm⟩
          · exact Or.inr ⟨ho, route⟩
        · rw [if_neg e] at hj
          exact Or.inl ⟨cr', hj, hm⟩
      · by_cases e : k = routeId
        · subst e
          obtain rfl : old = before := by simpa [ho] using hk
          refine Or.inr ⟨row, id, cr.applied u.userId comment d.now k old row, route, ?_, ?_⟩
          · change (s.changeRequests.modify _ _).get? id = _
            rw [get?_modify, if_pos rfl, hcr]
            rfl
          · simp [ChangeRequest.applied, ChangeRequest.noted, ChangeRequest.withStatus]
        · refine Or.inl ?_
          change (s.routes.modify _ _).get? k = _
          rw [get?_modify, if_neg e]
          exact hk

/-! ## Every sequence of calls -/

/-- On every sequence of calls, from a store without change requests, that reviews only
    what is open and approves only what it can carry out in full: every request keeps to
    its lifecycle, and its trail records the writes of routes as they happened. -/
theorem requests_in_order {W : World} {s : Store} {cs : List ChangeCall} (hs : ∀ id, s.changeRequests.get? id = none)
    (hc : Along (changeStep W) (ReviewsOpen W) s cs) :
    (∀ id cr, (run (changeStep W) s cs).changeRequests.get? id = some cr → cr.InOrder) ∧
      Along (changeStep W) (fun s c => Recorded s (changeStep W s c)) s cs := by
  have start : RequestsLawful s := by
    intro id cr h
    rw [hs] at h
    cases h
  refine ⟨fun id cr h => ?_, along_of (I := fun _ => True) (fun s c _ _ => ⟨step_recorded W s c, trivial⟩) trivial hc⟩
  exact (run_keeps (fun _ _ hi hc => step_lawful hi hc) start hc id cr h).inOrder

/-! ## A proposal to delete a route -/

def reviewer : Caller := ⟨"reviewer", .OPERATOR⟩

def plainRoute : Row := Row.ofFields
  [(.name, .str "route"), (.publicPath, .str "/r/route"), (.targetUrl, .str "http://upstream"), (.isActive, .bool true),
   (.organizationId, .str "org")] (by intro c; cases c <;> rfl)

/-- A route of an organization, and the organization's owner. -/
def oneRoute : Store := { Store.empty with
  organizations := Table.empty.insert "org" { name := "Org" }
  orgMemberships := Table.empty.insert ("reviewer", "org") .OWNER
  routes := Table.empty.insert "route" plainRoute }

/-- A proposal for the route, and its approval. -/
def proposeAndApprove (type : String) (payload : Json) : List ChangeCall :=
  [⟨reviewer, Draw.plain, .create (.obj
      [("routeId", .str "route"), ("type", .str type), ("title", .str "Proposal"), ("payload", payload)])⟩,
   ⟨reviewer, Draw.plain, .approve "row" (.obj [])⟩]

def timeoutProposal : List ChangeCall := proposeAndApprove "update" (.obj [("timeout", .num 5000)])

/-- A new timeout, proposed and approved. -/
theorem timeout_in_order :
    (∀ id cr, (run (changeStep World.plain) oneRoute timeoutProposal).changeRequests.get? id = some cr → cr.InOrder) ∧
      Along (changeStep World.plain) (fun s c => Recorded s (changeStep World.plain s c)) oneRoute timeoutProposal := by
  refine requests_in_order (fun _ => rfl) ⟨?_, ?_, trivial⟩
  · intro id body cr _ hcr
    cases hcr
  · intro id body cr _ hcr
    refine ⟨fun hop _ => ?_, fun hop => nomatch hop⟩
    cases hop
    have open_ : ((run (changeStep World.plain) oneRoute (timeoutProposal.take 1)).changeRequests.get? "row").all
        (fun cr => decide (cr.status = .PENDING ∧ cr.Applicable)) = true := by
      decide +kernel
    have hcr : (run (changeStep World.plain) oneRoute (timeoutProposal.take 1)).changeRequests.get? "row" = some cr := hcr
    rw [hcr, Option.all_some, decide_eq_true_eq] at open_
    exact ⟨Or.inl open_.1, Or.inl open_.2⟩

/-- An approval that wrote nothing leaves its request applied. -/
theorem approval_applies_nothing :
    ¬ ∀ (W : World) (s : Store) (cs : List ChangeCall), (∀ id, s.changeRequests.get? id = none) →
      ∀ id cr, (run (changeStep W) s cs).changeRequests.get? id = some cr → cr.InOrder := by
  intro h
  have stored : ((run (changeStep World.plain) oneRoute (proposeAndApprove "delete" (.obj []))).changeRequests.get? "row").map
      (fun cr => (cr.status, cr.type, cr.trail.any CrEvent.isEffect)) = some (.APPLIED, "delete", false) := by
    decide +kernel
  obtain ⟨cr, hcr, hs⟩ := Option.map_eq_some_iff.1 stored
  obtain ⟨hstatus, htype, hnone⟩ : cr.status = .APPLIED ∧ cr.type = "delete" ∧ cr.trail.any CrEvent.isEffect = false := by
    simpa using hs
  rcases (h _ _ _ (fun _ => rfl) "row" cr hcr).applied hstatus with ⟨ht, -⟩ | ⟨ht, -⟩ | ⟨-, routeId, -, hm⟩
  · rw [htype] at ht
    exact absurd ht (by decide)
  · rw [htype] at ht
    exact absurd ht (by decide)
  · rw [List.any_eq_false] at hnone
    exact hnone _ hm rfl

end ClusterGate
