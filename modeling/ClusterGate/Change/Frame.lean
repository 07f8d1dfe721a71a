/-
  ClusterGate.Change.Frame — every way a call of a change-request endpoint can end.

  A call that is refused at once leaves the store alone; what the others leave is one of
  the cases of `ChangeStep`. Only an approval writes a route, and it may stop halfway.
-/

import ClusterGate.Change.Router
import ClusterGate.Route.Effects

namespace ClusterGate

open Lib Lib.Act Lib.Table Lib.Zod

def changeRequestFields : List String := ["routeId", "type", "title", "description", "payload", "diff"]

/-- The caller may review the request, and the review parses. -/
def MayReview (s : Store) (u : Caller) (id : String) (body : Json) : Prop :=
  u.role ∈ [Role.ADMIN, .OPERATOR] ∧ canApprove s u id = true ∧ ∃ data, parsed ["comment"] reviewSchema (orEmpty body) = .ok data

/-- What a call leaves that does anything. -/
inductive ChangeStep (W : World) (s : Store) (u : Caller) (d : Draw) : ChangeOp → Store → Prop
  | proposed {body : Json} {data : String → Option Json} (hd : parsed changeRequestFields changeRequestSchema body = .ok data)
      (hn : s.changeRequests.get? d.rowId = none) :
      ChangeStep W s u d (.create body)
        { s with changeRequests := s.changeRequests.insert d.rowId (changeRequestOf u data) }
  /-- Approved and applied, with nothing to write. -/
  | idle {id : String} {body : Json} {comment : Option String} {cr : ChangeRequest} (hu : MayReview s u id body)
      (hcr : s.changeRequests.get? id = some cr) (ht : payloadTargetRefused W s cr = none) (hw : cr.writes? = none) :
      ChangeStep W s u d (.approve id body) { s with
        changeRequests := s.changeRequests.modify id (ChangeRequest.appliedIdle u.userId comment d.now) }
  /-- Approved, its route written, and applied. -/
  | applied {id : String} {body : Json} {comment : Option String} {cr : ChangeRequest} {routeId : String} {old row : Row}
      (hu : MayReview s u id body) (hcr : s.changeRequests.get? id = some cr)
      (ht : payloadTargetRefused W s cr = none) (hw : cr.writes? = some routeId)
      (ho : s.routes.get? routeId = some old) (hr : routeWrite s d.now routeId (appliedData cr.payload) = .ok row) :
      ChangeStep W s u d (.approve id body) { s with
        routes := s.routes.modify routeId fun _ => row,
        changeRequests := s.changeRequests.modify id (ChangeRequest.applied u.userId comment d.now routeId old row) }
  /-- Approved, and the write of its route refused. -/
  | stuck {id : String} {body : Json} {comment : Option String} {cr : ChangeRequest} {routeId : String} {e : Err}
      (hu : MayReview s u id body) (hcr : s.changeRequests.get? id = some cr)
      (ht : payloadTargetRefused W s cr = none) (hw : cr.writes? = some routeId)
      (hr : routeWrite s d.now routeId (appliedData cr.payload) = .error e) :
      ChangeStep W s u d (.approve id body) (markedApproved d.now id u.userId comment s)
  | rejected {id : String} {body : Json} {comment : Option String} {cr : ChangeRequest} (hu : MayReview s u id body)
      (hcr : s.changeRequests.get? id = some cr) :
      ChangeStep W s u d (.reject id body) { s with
        changeRequests := s.changeRequests.modify id (ChangeRequest.reviewed .REJECTED u.userId comment d.now) }
  | deleted {id : String} {cr : ChangeRequest} (hcr : s.changeRequests.get? id = some cr) (hp : cr.status ≠ .PENDING) :
      ChangeStep W s u d (.delete id) { s with changeRequests := s.changeRequests.erase id }

section Perform

variable {W : World} {u : Caller} {d : Draw} {s : Store}

theorem postChangeRequest_step {body : Json} :
    Keeps (postChangeRequest u d body) (fun s' => s' = s ∨ ChangeStep W s u d (.create body) s') s := by
  simp only [Keeps, postChangeRequest, authorize, parseBody, wp_bind, wp_require, wp_ofExcept]
  refine ⟨fun _ => ⟨fun data hd => ?_, fun _ _ => Or.inl trivial⟩, fun _ => Or.inl trivial⟩
  have create : Keeps (crCreate d.rowId (changeRequestOf u data)) (fun s' => s' = s ∨ ChangeStep W s u d (.create body) s') s := by
    simp only [Keeps, crCreate, wp_bind, wp_read, wp_require, wp_modify]
    refine ⟨fun hn => ⟨fun _ => ?_, fun _ => Or.inl trivial⟩, fun _ => Or.inl trivial⟩
    exact Or.inr (.proposed hd (by simpa using hn))
  unfold requireProposal
  rw [wp_bind, wp_read]
  cases (changeRequestOf u data).route? with
  | some routeId => exact (wp_require _ _).2 ⟨fun _ => create, fun _ => Or.inl rfl⟩
  | none => exact (wp_require _ _).2 ⟨fun _ => create, fun _ => Or.inl rfl⟩

/-- A review goes on only for one who may review the request. -/
theorem wp_reviewComment {id verb : String} {body : Json} {Q : Option String → Store → Prop} {E : Err → Store → Prop}
    (hQ : MayReview s u id body → ∀ comment, Q comment s) (hE : ∀ e, E e s) :
    wp (reviewComment u id verb body) Q E s := by
  simp only [reviewComment, authorize, parseBody, wp_bind, wp_require, wp_read, wp_ofExcept, wp_pure]
  exact ⟨fun hr => ⟨fun hu => ⟨fun data hd => hQ ⟨hr, hu, data, hd⟩ _, fun _ _ => hE _⟩, fun _ => hE _⟩, fun _ => hE _⟩

theorem postApprove_step {id : String} {body : Json} :
    Keeps (postApprove W u d id body) (fun s' => s' = s ∨ ChangeStep W s u d (.approve id body) s') s := by
  rw [Keeps, postApprove, wp_bind]
  refine wp_reviewComment (fun hu comment => ?_) fun _ => Or.inl rfl
  rw [wp_bind]
  refine wp_mono approve_spec ?_ ?_
  · intro _ s' h
    obtain ⟨cr, hcr, ht, ⟨hw, rfl⟩ | ⟨routeId, old, row, hw, ho, hr, rfl⟩⟩ := h
    · exact Or.inr (.idle hu hcr ht hw)
    · exact Or.inr (.applied hu hcr ht hw ho hr)
  · intro e s' h
    rcases h with ⟨rfl, -⟩ | ⟨cr, routeId, hcr, ht, hw, hr, rfl⟩
    · exact Or.inl rfl
    · exact Or.inr (.stuck hu hcr ht hw hr)

theorem postReject_step {id : String} {body : Json} :
    Keeps (postReject u d id body) (fun s' => s' = s ∨ ChangeStep W s u d (.reject id body) s') s := by
  rw [Keeps, postReject, wp_bind]
  refine wp_reviewComment (fun hu comment => ?_) fun _ => Or.inl rfl
  rw [wp_bind, reject, wp_crUpdate]
  exact ⟨fun cr hcr => Or.inr (.rejected hu hcr), fun _ => Or.inl rfl⟩

theorem deleteRequest_step {id : String} :
    Keeps (deleteRequest u id) (fun s' => s' = s ∨ ChangeStep W s u d (.delete id) s') s := by
  simp only [Keeps, deleteRequest, authorize, deleteChangeRequest, wp_bind, wp_require, wp_read, wp_orThrow, wp_modify]
  exact ⟨fun _ => ⟨fun cr hcr => ⟨fun hp => Or.inr (.deleted hcr hp), fun _ => Or.inl trivial⟩, fun _ => Or.inl trivial⟩,
    fun _ => Or.inl trivial⟩

/-- A call leaves the store as it was, or one of the cases. -/
theorem ChangeOp.perform_step (op : ChangeOp) :
    Keeps (op.perform W u d) (fun s' => s' = s ∨ ChangeStep W s u d op s') s := by
  cases op with
  | create body => exact postChangeRequest_step
  | approve id body => exact postApprove_step
  | reject id body => exact postReject_step
  | delete id => exact deleteRequest_step

end Perform

/-! ## The routes -/

/-- The call is an approval that writes route `k` from the payload of `cr`. -/
def ChangeOp.applies (W : World) (s : Store) (u : Caller) (d : Draw) (op : ChangeOp) (cr : ChangeRequest) (k : String) : Prop :=
  ∃ id body, op = .approve id body ∧ MayReview s u id body ∧ s.changeRequests.get? id = some cr ∧ cr.writes? = some k ∧
    payloadTargetRefused W s cr = none ∧ Takes s d.now k (appliedData cr.payload)

/-- How a call may change the rows of routes: an approval writes the fields it takes from
    the payload. -/
def ChangeOp.changes (W : World) (s : Store) (u : Caller) (d : Draw) (op : ChangeOp) : RowChange := fun k r r' =>
  ∃ cr, op.applies W s u d cr k ∧ WrittenRow d.now (appliedData cr.payload) r r'

/-- Only routes and change requests differ, the routes by `R`. -/
def ReviewEffect (R : RowChange) (s s' : Store) : Prop :=
  ∃ t cs, s' = { s with routes := t, changeRequests := cs } ∧ Changes R noRow noRow s.routes t

theorem ChangeStep.effect {W : World} {u : Caller} {d : Draw} {s s' : Store} {op : ChangeOp}
    (h : ChangeStep W s u d op s') : ReviewEffect (op.changes W s u d) s s' := by
  cases h with
  | applied hu hcr ht hw ho hr =>
    have applies := routeWrite_takes.1 ⟨_, hr⟩
    refine ⟨_, _, rfl, (Changes.refl _).modify ho ho ⟨_, ⟨_, _, rfl, hu, hcr, hw, ht, applies⟩, ?_⟩⟩
    obtain ⟨old, ho', hrow⟩ := routeWrite_row hr
    rw [ho] at ho'
    injection ho' with ho'
    subst ho'
    exact hrow
  | proposed | idle | stuck | rejected | deleted => exact ⟨_, _, rfl, Changes.refl _⟩

theorem ChangeOp.perform_keeps {W : World} {u : Caller} {d : Draw} {s : Store} (op : ChangeOp) :
    Keeps (op.perform W u d) (ReviewEffect (op.changes W s u d) s) s := by
  refine wp_mono op.perform_step ?_ ?_ <;>
  · intro _ s' h
    rcases h with rfl | h
    · exact ⟨_, _, rfl, Changes.refl _⟩
    · exact h.effect

end ClusterGate
