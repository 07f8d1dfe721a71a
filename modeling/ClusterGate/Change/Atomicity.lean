/-
  ClusterGate.Change.Atomicity — an approval that fails and what it leaves.

  The target is judged before anything is written, so that a refused request stays
  pending. Every other failure comes after the request was marked approved: the route is
  gone, a value is not of its column's type, a path is taken.
  - `approve_leaves_approved`: such a request is no longer pending, and its route is as it
    was.
  - `approve_atomic`: a failed approval leaves everything as it was exactly when the
    target is refused, or nothing can fail after it.
-/

import ClusterGate.Change.Lifecycle

namespace ClusterGate

open Lib Lib.Act Lib.Table

/-- The status and the review of a request. -/
def reviewOf (s : Store) (id : String) : Option (ChangeRequestStatus × Option String × Option String × Option String) :=
  (s.changeRequests.get? id).map fun cr => (cr.status, cr.reviewedById, cr.reviewComment, cr.reviewedAt)

/-- If the approval throws, the request's status and review and every route are as they were. -/
def ApproveAtomic (W : World) (s : Store) (now id reviewerId : String) (comment : Option String) : Prop :=
  ∀ e s', approve W now id reviewerId comment s = (.error e, s') →
    reviewOf s' id = reviewOf s id ∧ ∀ k, s'.routes.get? k = s.routes.get? k

section Approve

variable {W : World} {s : Store} {now id reviewerId : String} {comment : Option String} {cr : ChangeRequest}

theorem markedApproved_status (hcr : s.changeRequests.get? id = some cr) :
    (reviewOf (markedApproved now id reviewerId comment s) id).map Prod.fst = some .APPROVED := by
  have marked : (markedApproved now id reviewerId comment s).changeRequests.get? id =
      some (cr.reviewed .APPROVED reviewerId comment now) := by
    change (s.changeRequests.modify id _).get? id = _
    rw [get?_modify, if_pos rfl, hcr]
    rfl
  rw [reviewOf, marked]
  rfl

/-- An approval that could fail after the request was marked does, and leaves it marked. -/
theorem approve_stuck (hcr : s.changeRequests.get? id = some cr) (ht : payloadTargetRefused W s cr = none) {routeId : String}
    (hw : cr.writes? = some routeId) (hn : ¬ Takes s now routeId (appliedData cr.payload)) :
    ∃ e, approve W now id reviewerId comment s = (.error e, markedApproved now id reviewerId comment s) := by
  have spec := @approve_spec W now id reviewerId comment s
  cases ha : approve W now id reviewerId comment s with
  | mk result s' =>
    cases result with
    | ok _ =>
      obtain ⟨cr', hcr', -, ⟨hw', -⟩ | ⟨k, old, row, hw', ho, hr, -⟩⟩ := wp_ok spec ha
      · obtain rfl : cr = cr' := by simpa [hcr] using hcr'
        rw [hw] at hw'
        cases hw'
      · obtain rfl : cr = cr' := by simpa [hcr] using hcr'
        obtain rfl : routeId = k := by simpa [hw] using hw'
        exact absurd (routeWrite_takes.1 ⟨row, hr⟩) hn
    | error e =>
      rcases wp_error spec ha with ⟨-, hnone | ⟨cr', hcr', hrefused⟩⟩ | ⟨cr', k, -, -, -, -, rfl⟩
      · rw [hcr] at hnone
        cases hnone
      · obtain rfl : cr = cr' := by simpa [hcr] using hcr'
        rw [ht] at hrefused
        cases hrefused
      · exact ⟨e, rfl⟩

/-- Approving a pending request is atomic exactly when its target is refused at once, or it
    writes no route, or the database takes what it writes. -/
theorem approve_atomic (hcr : s.changeRequests.get? id = some cr) (hp : cr.status = .PENDING) :
    ApproveAtomic W s now id reviewerId comment ↔
      (payloadTargetRefused W s cr).isSome = true ∨ cr.writes? = none ∨
        ∃ routeId, cr.writes? = some routeId ∧ Takes s now routeId (appliedData cr.payload) := by
  constructor
  · intro h
    by_contra hn
    simp only [not_or, Option.not_isSome_iff_eq_none] at hn
    obtain ⟨ht, hw, htakes⟩ := hn
    obtain ⟨routeId, hw⟩ := Option.ne_none_iff_exists'.1 hw
    have untaken : ¬ Takes s now routeId (appliedData cr.payload) := fun htake => htakes ⟨routeId, hw, htake⟩
    obtain ⟨e, he⟩ : ∃ e, approve W now id reviewerId comment s = (.error e, markedApproved now id reviewerId comment s) :=
      approve_stuck hcr ht hw untaken
    have same := congrArg (Option.map Prod.fst) (h e _ he).1
    rw [markedApproved_status hcr, reviewOf, hcr, Option.map_some, Option.map_some, hp] at same
    cases same
  · intro h e s' he
    have spec := @approve_spec W now id reviewerId comment s
    rcases wp_error spec he with ⟨rfl, -⟩ | ⟨cr', k, hcr', ht, hw, hr, -⟩
    · exact ⟨rfl, fun _ => rfl⟩
    · obtain rfl : cr = cr' := by simpa [hcr] using hcr'
      rcases h with h | h | ⟨routeId, hw', htakes⟩
      · rw [ht] at h
        cases h
      · rw [hw] at h
        cases h
      · obtain rfl : k = routeId := by simpa [hw] using hw'
        obtain ⟨row, hrow⟩ := routeWrite_takes.2 htakes
        rw [hr] at hrow
        cases hrow

end Approve

/-! ## A value of the wrong type -/

/-- A proposal stored, and not reviewed yet. -/
def proposed (payload : Json) : Store :=
  run (changeStep World.plain) oneRoute ((proposeAndApprove "update" payload).take 1)

/-- A new timeout. -/
theorem timeout_approve_atomic :
    ApproveAtomic World.plain (proposed (.obj [("timeout", .num 5000)])) "now" "row" "reviewer" none := by
  have stored : ((proposed (.obj [("timeout", .num 5000)])).changeRequests.get? "row").map (fun cr =>
      (cr.status, cr.writes?, (routeWrite (proposed (.obj [("timeout", .num 5000)])) "now" "route"
        (appliedData cr.payload)).isOk)) = some (.PENDING, some "route", true) := by
    decide +kernel
  obtain ⟨cr, hcr, hs⟩ := Option.map_eq_some_iff.1 stored
  simp only [Prod.mk.injEq] at hs
  obtain ⟨hp, hw, hok⟩ := hs
  refine (approve_atomic hcr hp).2 (Or.inr (Or.inr ⟨"route", hw, routeWrite_takes.1 ?_⟩))
  cases hr : routeWrite (proposed (.obj [("timeout", .num 5000)])) "now" "route" (appliedData cr.payload) with
  | error e =>
    rw [hr] at hok
    cases hok
  | ok row => exact ⟨row, rfl⟩

/-- A timeout that is no number: the request is left approved, and never applied. -/
theorem approve_leaves_approved :
    ¬ ∀ (W : World) (s : Store) (now id reviewerId : String) (comment : Option String) (cr : ChangeRequest),
      s.changeRequests.get? id = some cr → cr.status = .PENDING → ApproveAtomic W s now id reviewerId comment := by
  intro h
  have stored : ((proposed (.obj [("timeout", .str "soon")])).changeRequests.get? "row").map ChangeRequest.status =
      some .PENDING := by
    decide +kernel
  obtain ⟨cr, hcr, hp⟩ := Option.map_eq_some_iff.1 stored
  have atomic := h World.plain (proposed (.obj [("timeout", .str "soon")])) "now" "row" "reviewer" none cr hcr hp
  have outcome : (match approve World.plain "now" "row" "reviewer" none (proposed (.obj [("timeout", .str "soon")])) with
      | (.ok _, _) => none
      | (.error _, s') => (reviewOf s' "row").map Prod.fst) = some .APPROVED := by
    decide +kernel
  cases ha : approve World.plain "now" "row" "reviewer" none (proposed (.obj [("timeout", .str "soon")])) with
  | mk result s' =>
    rw [ha] at outcome
    cases result with
    | ok _ => cases outcome
    | error e =>
      have same := congrArg (Option.map Prod.fst) (atomic e s' ha).1
      have marked : (reviewOf s' "row").map Prod.fst = some .APPROVED := outcome
      rw [marked, reviewOf, hcr, Option.map_some, Option.map_some, hp] at same
      cases same

end ClusterGate
