/-
  ClusterGate.Breaker.Probe — requests that meet a breaker whose timeout has elapsed
  (`proxy/proxyHandler.ts`, `services/proxyService.ts`: `proxyRequest`, as far as they
  concern the breaker).

  A request reads the route's row, is checked by the row it read, and if it is let through
  records its outcome later, once. Requests take their steps in any order, time passes in
  between. HALF_OPEN is to let one request through, but the check neither claims the probe
  nor looks at the stored row again: whoever has read OPEN after the timeout goes through,
  and so does whoever reads HALF_OPEN.
  - `lets_everyone`: while no outcome is recorded, every request that finishes its check is
    let through.
  - `single_probe_iff`: so at most one is let through before an outcome exactly if at most
    one finishes its check. A request that still holds a row from before, OPEN and within
    its timeout, may yet be held back.
  - `two_probes`: two requests that both read OPEN.
-/

import ClusterGate.Breaker.Service

namespace ClusterGate

open Lib Async BreakerStore

/-- The row of the route, then the check by it. -/
def arrived (path : String) : Option Breaker → Async BreakerStore Err CircuitBreakerResult
  | none => throw (.app ⟨404, "ROUTE_NOT_FOUND", "No route configured for /r" ++ path, []⟩)
  | some route => checkCircuitBreaker route

def arrive (path : String) : Async BreakerStore Err CircuitBreakerResult := do
  let route ← await findUnique
  arrived path route

def recordOutcome (success : Bool) : Async BreakerStore Err Unit := if success = true then recordSuccess else recordFailure

/-- A request, how it will end, and the states in which it took its steps. -/
structure Proxied where
  path : String
  success : Bool
  checkSeen : List BreakerStore
  recordSeen : List BreakerStore

namespace Proxied

def new (path : String) (success : Bool) : Proxied := ⟨path, success, [], []⟩

def check (q : Proxied) : Async BreakerStore Err CircuitBreakerResult := (arrive q.path).after q.checkSeen

def record (q : Proxied) : Async BreakerStore Err Unit := (recordOutcome q.success).after q.recordSeen

/-- It has been checked. -/
def checked (q : Proxied) : Bool := q.check.ended

/-- It has been checked and let through. -/
def letThrough (q : Proxied) : Bool :=
  match q.check with
  | .done (.ok result) => result.allowed
  | _ => false

/-- Its outcome has been recorded. -/
def recorded (q : Proxied) : Bool := q.letThrough && q.record.ended

/-- First the check; then, if it was let through, the record of its outcome. -/
def advance (q : Proxied) (s : BreakerStore) : Proxied × BreakerStore :=
  if q.checked = false then (⟨q.path, q.success, q.checkSeen ++ [s], q.recordSeen⟩, (q.check.advance s).2)
  else if q.letThrough = true ∧ q.record.ended = false then
    (⟨q.path, q.success, q.checkSeen, q.recordSeen ++ [s]⟩, (q.record.advance s).2)
  else (q, s)

/-- It holds a row that it read before and that would hold it back, at `now`. -/
def stillHeld (q : Proxied) (now : Int) : Prop :=
  ∃ s₀ r₀, q.checkSeen = [s₀] ∧ s₀.route = some r₀ ∧ r₀.holdsBack now = true

end Proxied

/-- Time passes. -/
def BreakerStore.wait (d : Nat) (s : BreakerStore) : BreakerStore := { s with now := s.now + d }

def probesStep : Pool BreakerStore Proxied → Move Nat → Pool BreakerStore Proxied := Pool.step Proxied.advance wait

def checkedCount (P : Pool BreakerStore Proxied) : Nat := P.calls.countP Proxied.checked

def letThroughCount (P : Pool BreakerStore Proxied) : Nat := P.calls.countP Proxied.letThrough

def recordedCount (P : Pool BreakerStore Proxied) : Nat := P.calls.countP Proxied.recorded

/-! ## A record writes with its last step -/

theorem writeFailure_writesLast (route : Breaker) (now : Int) : WritesLast (writeFailure route now) := by
  unfold writeFailure
  split
  · exact writesLast_await _
  · split <;> exact writesLast_await _

theorem record_writesLast (success : Bool) : WritesLast (recordOutcome success) := by
  unfold recordOutcome
  split
  · intro s
    refine ⟨fun _ => rfl, ?_⟩
    show WritesLast (successOf s.route)
    unfold successOf
    cases s.route with
    | none => trivial
    | some route =>
      dsimp only
      split
      · trivial
      · split
        · exact writesLast_await _
        · exact writesLast_await _
        · trivial
  · intro s
    refine ⟨fun _ => rfl, ?_⟩
    show WritesLast (failureOf s.route)
    unfold failureOf
    cases s.route with
    | none => trivial
    | some route =>
      dsimp only
      split
      · trivial
      · intro s'
        exact ⟨fun _ => rfl, writeFailure_writesLast route s'.now⟩

/-! ## Where a request is -/

/-- What is left of a check that has found the timeout elapsed. -/
def halfOpening : Async BreakerStore Err CircuitBreakerResult := do
  await (update Breaker.halfOpened)
  pure ⟨true, .HALF_OPEN⟩

/-- What can be left of a check, if no row that was read holds back at `now`. -/
inductive CheckAt (now : Int) : Async BreakerStore Err CircuitBreakerResult → Prop
  | arriving (path : String) : CheckAt now (arrive path)
  | loaded (r₀ : Breaker) (h : r₀.holdsBack now = false) : CheckAt now (checkCircuitBreaker r₀)
  | halfOpening : CheckAt now halfOpening
  | finished (x : Async BreakerStore Err CircuitBreakerResult) (h : x.ended = true) : CheckAt now x

/-- The check goes on, or has ended and lets through. -/
def LetsThrough (x : Async BreakerStore Err CircuitBreakerResult) : Prop :=
  x.ended = true → ∃ result, x = .done (.ok result) ∧ result.allowed = true

theorem holdsBack_later {r : Breaker} {now : Int} (h : r.holdsBack now = false) (d : Nat) : r.holdsBack (now + d) = false := by
  unfold Breaker.holdsBack at h ⊢
  cases ho : r.cbOpenedAt with
  | none => simp
  | some openedAt =>
    simp only [ho, Bool.and_eq_false_iff, decide_eq_false_iff_not] at h ⊢
    rcases h with h | h
    · exact .inl h
    · exact .inr (by omega)

theorem CheckAt.later {now : Int} {x : Async BreakerStore Err CircuitBreakerResult} (h : CheckAt now x) (d : Nat) :
    CheckAt (now + d) x := by
  cases h with
  | arriving path => exact .arriving path
  | loaded r₀ h => exact .loaded r₀ (holdsBack_later h d)
  | halfOpening => exact .halfOpening
  | finished x h => exact .finished x h

/-- A check that ends where it begins lets through. -/
theorem loaded_lets (r₀ : Breaker) : LetsThrough (checkCircuitBreaker r₀) := by
  unfold LetsThrough checkCircuitBreaker
  intro he
  split at he
  · rename_i hd
    rw [if_pos hd]
    exact ⟨_, rfl, rfl⟩
  · rename_i hd
    rw [if_neg hd]
    cases hs : r₀.cbState with
    | CLOSED => exact ⟨_, rfl, rfl⟩
    | HALF_OPEN => exact ⟨_, rfl, rfl⟩
    | OPEN =>
      rw [hs] at he
      cases ho : r₀.cbOpenedAt with
      | none => rw [ho] at he; cases he
      | some openedAt => rw [ho] at he; cases he

/-- One step of a check, where neither the stored row nor the one it read holds back. -/
theorem check_step {now : Int} {r : Breaker} (hr : r.holdsBack now = false) {x : Async BreakerStore Err CircuitBreakerResult}
    (hx : CheckAt now x) (hg : x.ended = false) :
    (∃ r', (x.advance ⟨now, some r⟩).2 = ⟨now, some r'⟩ ∧ r'.holdsBack now = false) ∧
      CheckAt now (x.advance ⟨now, some r⟩).1 ∧ LetsThrough (x.advance ⟨now, some r⟩).1 := by
  cases hx with
  | arriving path => exact ⟨⟨r, rfl, hr⟩, .loaded r hr, loaded_lets r⟩
  | finished x h =>
    rw [h] at hg
    cases hg
  | halfOpening =>
    refine ⟨⟨r.halfOpened, rfl, ?_⟩, .finished _ rfl, fun _ => ⟨_, rfl, rfl⟩⟩
    simp [Breaker.holdsBack, Breaker.halfOpened]
  | loaded r₀ h =>
    unfold checkCircuitBreaker at hg ⊢
    split at hg
    · cases hg
    · rename_i hd
      rw [if_neg hd]
      cases hs : r₀.cbState with
      | CLOSED => rw [hs] at hg; cases hg
      | HALF_OPEN => rw [hs] at hg; cases hg
      | OPEN =>
        cases ho : r₀.cbOpenedAt with
        | none =>
          refine ⟨⟨r.reset, rfl, ?_⟩, .finished _ rfl, fun _ => ⟨_, rfl, rfl⟩⟩
          simp [Breaker.holdsBack, Breaker.reset]
        | some openedAt =>
          have helapsed : now - openedAt ≥ r₀.cbRecoveryTimeout := by
            have he : r₀.circuitBreakerEnabled = true := by simpa using hd
            simpa [Breaker.holdsBack, hs, ho, he] using h
          have hleft : ((await clock >>= fun now => checkOpen r₀ openedAt now).advance ⟨now, some r⟩) =
              (halfOpening, ⟨now, some r⟩) := by
            show (checkOpen r₀ openedAt now, (⟨now, some r⟩ : BreakerStore)) = _
            rw [checkOpen, if_pos helapsed]
            rfl
          dsimp only
          rw [hleft]
          exact ⟨⟨r, rfl, hr⟩, .halfOpening, fun he => by cases he⟩

/-! ## One move -/

namespace Proxied

variable {q : Proxied} {s : BreakerStore}

theorem advance_check (h : q.checked = false) :
    q.advance s = (⟨q.path, q.success, q.checkSeen ++ [s], q.recordSeen⟩, (q.check.advance s).2) := by
  rw [advance, if_pos h]

theorem advance_record (h : q.letThrough = true) (hg : q.record.ended = false) :
    q.advance s = (⟨q.path, q.success, q.checkSeen, q.recordSeen ++ [s]⟩, (q.record.advance s).2) := by
  have hc : ¬q.checked = false := by
    intro hn
    unfold letThrough at h
    unfold checked at hn
    split at h
    · rename_i he
      rw [he] at hn
      cases hn
    · cases h
  rw [advance, if_neg hc, if_pos ⟨h, hg⟩]

theorem advance_over (h : q.checked = true) (hn : q.letThrough = true → q.record.ended = true) : q.advance s = (q, s) := by
  rw [advance, if_neg (by rw [h]; decide), if_neg]
  intro hr
  rw [hn hr.1] at hr
  cases hr.2

theorem letThrough_checked (h : q.letThrough = true) : q.checked = true := by
  cases hc : q.checked with
  | true => rfl
  | false =>
    have hx : ∀ outcome, q.check ≠ .done outcome := by
      intro outcome he
      rw [checked, he] at hc
      cases hc
    unfold letThrough at h
    split at h
    · rename_i he
      exact absurd he (hx _)
    · cases h

/-- What a request can do next. -/
inductive Next (q : Proxied) : Prop
  | checks (h : q.checked = false)
  | records (h : q.letThrough = true) (hg : q.record.ended = false)
  | finished (h : q.checked = true) (hn : q.letThrough = true → q.record.ended = true)

theorem next (q : Proxied) : q.Next := by
  cases hc : q.checked with
  | false => exact .checks hc
  | true =>
    cases hl : q.letThrough with
    | false => exact .finished hc (fun h => by rw [hl] at h; cases h)
    | true =>
      cases hr : q.record.ended with
      | false => exact .records hl hr
      | true => exact .finished hc (fun _ => hr)

/-- The check, after one more step of it. -/
theorem check_after (s : BreakerStore) :
    check ⟨q.path, q.success, q.checkSeen ++ [s], q.recordSeen⟩ = (q.check.advance s).1 := after_concat _ _ _

theorem record_after (s : BreakerStore) :
    record ⟨q.path, q.success, q.checkSeen, q.recordSeen ++ [s]⟩ = (q.record.advance s).1 := after_concat _ _ _

/-- Once a request has been checked, its check is what it was. -/
theorem check_stays (h : q.checked = true) (s : BreakerStore) : (q.advance s).1.check = q.check := by
  cases q.next with
  | checks hn =>
    rw [h] at hn
    cases hn
  | records hl hg =>
    rw [advance_record hl hg]
    rfl
  | finished hc hn => rw [advance_over hc hn]

theorem through_stays (h : q.checked = true) (s : BreakerStore) :
    (q.advance s).1.letThrough = q.letThrough ∧ (q.advance s).1.checked = true := by
  have hstays := check_stays h s
  constructor
  · rw [letThrough, hstays]
    rfl
  · rw [checked, hstays]
    exact h

end Proxied

section Step

variable {P : Pool BreakerStore Proxied}

/-- A recorded outcome stays recorded. -/
theorem recorded_step (m : Move Nat) : recordedCount P ≤ recordedCount (probesStep P m) := by
  cases m with
  | other d => exact Nat.le_refl _
  | call i =>
    cases hq : P.calls[i]? with
    | none => exact Nat.le_of_eq (by rw [probesStep, Pool.step_none hq])
    | some q =>
      have hcount := @Pool.count_call _ _ Nat Proxied.advance wait P i q Proxied.recorded hq
      have hkeep : q.recorded = true → (q.advance P.shared).1 = q := by
        intro hr
        rw [Proxied.recorded, Bool.and_eq_true] at hr
        rw [Proxied.advance_over (Proxied.letThrough_checked hr.1) fun _ => hr.2]
      show P.calls.countP Proxied.recorded ≤ (P.step Proxied.advance wait (.call i)).calls.countP Proxied.recorded
      by_cases hr : q.recorded = true
      · rw [hkeep hr] at hcount
        omega
      · rw [if_neg hr] at hcount
        omega

/-- Whoever is let through has been checked. -/
theorem through_step (m : Move Nat) :
    letThroughCount (probesStep P m) + checkedCount P ≤ checkedCount (probesStep P m) + letThroughCount P := by
  cases m with
  | other d => exact Nat.le_of_eq (Nat.add_comm _ _)
  | call i =>
    cases hq : P.calls[i]? with
    | none =>
      rw [probesStep, Pool.step_none hq]
      exact Nat.le_of_eq (Nat.add_comm _ _)
    | some q =>
      have hthrough := @Pool.count_call _ _ Nat Proxied.advance wait P i q Proxied.letThrough hq
      have hchecked := @Pool.count_call _ _ Nat Proxied.advance wait P i q Proxied.checked hq
      have hmove : (if (q.advance P.shared).1.letThrough = true then 1 else 0) + (if q.checked = true then 1 else 0) ≤
          (if (q.advance P.shared).1.checked = true then 1 else 0) + (if q.letThrough = true then 1 else 0) := by
        cases hc : q.checked with
        | true =>
          obtain ⟨hl, hc'⟩ := Proxied.through_stays hc P.shared
          rw [hl, hc', if_pos rfl]
          omega
        | false =>
          by_cases hl : (q.advance P.shared).1.letThrough = true
          · rw [if_pos hl, if_pos (Proxied.letThrough_checked hl)]
            simp
          · rw [if_neg hl]
            simp
      show (P.step Proxied.advance wait (.call i)).calls.countP Proxied.letThrough + P.calls.countP Proxied.checked ≤
        (P.step Proxied.advance wait (.call i)).calls.countP Proxied.checked + P.calls.countP Proxied.letThrough
      omega

/-- The stored row does not hold back, and no row does that a check has read. -/
abbrev NoneHeld : Pool BreakerStore Proxied → Prop :=
  Pool.Holds (fun s => ∃ r, s.route = some r ∧ r.holdsBack s.now = false) fun s q => CheckAt s.now q.check

/-- A check under way ends, if it ends, with the request let through. -/
theorem probe_checks {i : Nat} {q : Proxied} (h : NoneHeld P) (hq : P.calls[i]? = some q) (hc : q.checked = false) :
    NoneHeld (probesStep P (.call i)) ∧
      letThroughCount (probesStep P (.call i)) + checkedCount P = checkedCount (probesStep P (.call i)) + letThroughCount P := by
  obtain ⟨r, hr, hfree⟩ := h.shared
  have hstate : P.shared = ⟨P.shared.now, some r⟩ := by rw [← hr]
  have hthrough := @Pool.count_call _ _ Nat Proxied.advance wait P i q Proxied.letThrough hq
  have hchecked := @Pool.count_call _ _ Nat Proxied.advance wait P i q Proxied.checked hq
  obtain ⟨⟨r', hr', hfree'⟩, hat, hlets⟩ := check_step hfree (h.at hq) hc
  rw [← hstate] at hr' hat hlets
  have hshared : (q.advance P.shared).2 = ⟨P.shared.now, some r'⟩ := by
    rw [Proxied.advance_check hc]
    exact hr'
  have hcheck : (q.advance P.shared).1.check = (q.check.advance P.shared).1 := by
    rw [Proxied.advance_check hc]
    exact Proxied.check_after P.shared
  refine ⟨Pool.holds_call h hq ?_ ?_ ?_, ?_⟩
  · rw [hshared]
    exact ⟨r', rfl, hfree'⟩
  · rw [hshared, hcheck]
    exact hat
  · intro u hu
    rw [hshared]
    exact hu
  · have hl : q.letThrough = false := by
      cases hl : q.letThrough with
      | false => rfl
      | true =>
        rw [Proxied.letThrough_checked hl] at hc
        cases hc
    have hsame : (q.advance P.shared).1.letThrough = (q.advance P.shared).1.checked := by
      rw [Proxied.checked, Proxied.letThrough, hcheck]
      cases he : ((q.check.advance P.shared).1).ended with
      | true =>
        obtain ⟨result, hdone, hallowed⟩ := hlets he
        rw [hdone]
        exact hallowed
      | false =>
        cases hx : (q.check.advance P.shared).1 with
        | done outcome =>
          rw [hx] at he
          cases he
        | step act rest => rfl
    rw [hsame, hl] at hthrough
    rw [hc] at hchecked
    show (P.step Proxied.advance wait (.call i)).calls.countP Proxied.letThrough + P.calls.countP Proxied.checked =
      (P.step Proxied.advance wait (.call i)).calls.countP Proxied.checked + P.calls.countP Proxied.letThrough
    simp only [Bool.false_eq_true, if_false] at hthrough hchecked
    omega

/-- A record under way that does not end has not written. -/
theorem probe_records {i : Nat} {q : Proxied} (h : NoneHeld P) (hq : P.calls[i]? = some q) (hl : q.letThrough = true)
    (hg : q.record.ended = false) (hnone : recordedCount (probesStep P (.call i)) = recordedCount P) :
    NoneHeld (probesStep P (.call i)) ∧
      letThroughCount (probesStep P (.call i)) + checkedCount P = checkedCount (probesStep P (.call i)) + letThroughCount P := by
  have hthrough := @Pool.count_call _ _ Nat Proxied.advance wait P i q Proxied.letThrough hq
  have hchecked := @Pool.count_call _ _ Nat Proxied.advance wait P i q Proxied.checked hq
  have hrecorded := @Pool.count_call _ _ Nat Proxied.advance wait P i q Proxied.recorded hq
  have hc := Proxied.letThrough_checked hl
  obtain ⟨hthrough', hchecked'⟩ := Proxied.through_stays hc P.shared
  -- A record that wrote would be over, and counted.
  have hgoing : (q.record.advance P.shared).1.ended = false := by
    cases he : (q.record.advance P.shared).1.ended with
    | false => rfl
    | true =>
      have hrec : (q.advance P.shared).1.recorded = true := by
        rw [Proxied.recorded, hthrough', hl, Proxied.advance_record hl hg, Proxied.record_after, he]
        rfl
      have hnot : q.recorded = false := by rw [Proxied.recorded, hl, hg]; rfl
      rw [hrec, hnot] at hrecorded
      have hrun : (P.step Proxied.advance wait (.call i)).calls.countP Proxied.recorded =
        P.calls.countP Proxied.recorded := hnone
      simp only [Bool.false_eq_true, if_false, if_true] at hrecorded
      omega
  have hshared : (q.advance P.shared).2 = P.shared := by
    rw [Proxied.advance_record hl hg]
    exact writesLast_advance (writesLast_after q.recordSeen (record_writesLast q.success)) hgoing
  refine ⟨Pool.holds_call h hq ?_ ?_ ?_, ?_⟩
  · rw [hshared]
    exact h.shared
  · rw [hshared, Proxied.check_stays hc]
    exact h.at hq
  · intro u hu
    rw [hshared]
    exact hu
  · rw [hthrough'] at hthrough
    rw [hc, hchecked'] at hchecked
    show (P.step Proxied.advance wait (.call i)).calls.countP Proxied.letThrough + P.calls.countP Proxied.checked =
      (P.step Proxied.advance wait (.call i)).calls.countP Proxied.checked + P.calls.countP Proxied.letThrough
    omega

/-- A move that records nothing: whoever is checked by it is let through. -/
theorem probe_step (h : NoneHeld P) (m : Move Nat) (hnone : recordedCount (probesStep P m) = recordedCount P) :
    NoneHeld (probesStep P m) ∧
      letThroughCount (probesStep P m) + checkedCount P = checkedCount (probesStep P m) + letThroughCount P := by
  obtain ⟨r, hr, hfree⟩ := h.shared
  cases m with
  | other d =>
    refine ⟨Pool.holds_other h ⟨r, hr, holdsBack_later hfree d⟩ (fun q hq => hq.later d), ?_⟩
    exact Nat.add_comm _ _
  | call i =>
    cases hq : P.calls[i]? with
    | none =>
      rw [probesStep, Pool.step_none hq]
      exact ⟨h, Nat.add_comm _ _⟩
    | some q =>
      cases q.next with
      | checks hc => exact probe_checks h hq hc
      | records hl hg => exact probe_records h hq hl hg hnone
      | finished hc hn =>
        have hsame : probesStep P (.call i) = P := Pool.step_same hq (Proxied.advance_over hc hn)
        rw [hsame]
        exact ⟨h, Nat.add_comm _ _⟩

end Step

/-! ## Runs -/

theorem recorded_run (P : Pool BreakerStore Proxied) (moves : List (Move Nat)) :
    recordedCount P ≤ recordedCount (run probesStep P moves) := by
  induction moves generalizing P with
  | nil => exact Nat.le_refl _
  | cons m moves ih => exact Nat.le_trans (recorded_step m) (ih (probesStep P m))

theorem through_run (P : Pool BreakerStore Proxied) (moves : List (Move Nat)) :
    letThroughCount (run probesStep P moves) + checkedCount P ≤ checkedCount (run probesStep P moves) + letThroughCount P := by
  induction moves generalizing P with
  | nil => exact Nat.le_of_eq (Nat.add_comm _ _)
  | cons m moves ih =>
    have hstep := through_step (P := P) m
    have hrun := ih (probesStep P m)
    rw [run_cons]
    omega

/-- While nothing is recorded, every request that is checked is let through. -/
theorem lets_everyone {P : Pool BreakerStore Proxied} (h : NoneHeld P) (moves : List (Move Nat))
    (hnone : recordedCount (run probesStep P moves) = recordedCount P) :
    letThroughCount (run probesStep P moves) + checkedCount P = checkedCount (run probesStep P moves) + letThroughCount P := by
  induction moves generalizing P with
  | nil => exact Nat.add_comm _ _
  | cons m moves ih =>
    rw [run_cons] at hnone ⊢
    have hfirst := recorded_step (P := P) m
    have hrest := recorded_run (probesStep P m) moves
    obtain ⟨hstep, hcount⟩ := probe_step h m (by omega)
    have hrun := ih hstep (by omega)
    omega

theorem over_after (now : Int) (outcome : Except Err CircuitBreakerResult) (seen : List BreakerStore) :
    CheckAt now ((done outcome : Async BreakerStore Err CircuitBreakerResult).after seen) := by
  rw [after_done]
  exact .finished _ rfl

/-- What is left of a check after its row, which does not hold back, and the clock. -/
theorem check_beyond (now : Int) (r₀ : Breaker) (s₁ : BreakerStore) (seen : List BreakerStore) :
    CheckAt now ((checkCircuitBreaker r₀).after (s₁ :: seen)) := by
  unfold checkCircuitBreaker
  split
  · exact over_after now _ seen
  · split
    · exact over_after now _ seen
    · split
      · obtain ⟨outcome, hout⟩ := advance_last (update Breaker.reset) (fun _ => (⟨true, .CLOSED⟩ : CircuitBreakerResult)) s₁
        rw [after_cons, resetCircuitBreaker, hout]
        exact over_after now outcome seen
      · rename_i openedAt _
        show CheckAt now ((checkOpen r₀ openedAt s₁.now).after seen)
        unfold checkOpen
        split
        · cases seen with
          | nil => exact .halfOpening
          | cons s₂ seen =>
            obtain ⟨outcome, hout⟩ :=
              advance_last (update Breaker.halfOpened) (fun _ => (⟨true, .HALF_OPEN⟩ : CircuitBreakerResult)) s₂
            rw [after_cons, hout]
            exact over_after now outcome seen
        · exact over_after now _ seen
    · exact over_after now _ seen

/-- What is left of a check, if the row it holds does not hold back. -/
theorem check_at (q : Proxied) (now : Int) (h : ¬q.stillHeld now) : CheckAt now q.check := by
  obtain ⟨path, success, seen, recordSeen⟩ := q
  show CheckAt now ((arrive path).after seen)
  cases seen with
  | nil => exact .arriving path
  | cons s₀ seen =>
    show CheckAt now ((arrived path s₀.route).after seen)
    cases hr : s₀.route with
    | none => exact over_after now _ seen
    | some r₀ =>
      cases seen with
      | nil =>
        refine .loaded r₀ ?_
        cases hb : r₀.holdsBack now with
        | false => rfl
        | true => exact absurd ⟨s₀, r₀, rfl, hr, hb⟩ h
      | cons s₁ seen => exact check_beyond now r₀ s₁ seen

theorem single_probe_iff (P : Pool BreakerStore Proxied) (r : Breaker) (openedAt : Int) (hr : P.shared.route = some r)
    (ho : r.cbState = .OPEN) (hat : r.cbOpenedAt = some openedAt) (hT : P.shared.now - openedAt ≥ r.cbRecoveryTimeout)
    (moves : List (Move Nat)) (hnone : recordedCount (run probesStep P moves) = recordedCount P) :
    (checkedCount (run probesStep P moves) ≤ checkedCount P + 1 →
        letThroughCount (run probesStep P moves) ≤ letThroughCount P + 1) ∧
      ((∀ q ∈ P.calls, ¬q.stillHeld P.shared.now) →
        letThroughCount (run probesStep P moves) ≤ letThroughCount P + 1 →
        checkedCount (run probesStep P moves) ≤ checkedCount P + 1) := by
  constructor
  · intro hchecked
    have hthrough := through_run P moves
    omega
  · intro hheld hthrough
    have hfree : r.holdsBack P.shared.now = false := by
      have hlt : ¬P.shared.now - openedAt < r.cbRecoveryTimeout := by omega
      simp [Breaker.holdsBack, ho, hat, hlt]
    have hevery := lets_everyone (P := P) ⟨⟨r, hr, hfree⟩, fun q hq => check_at q P.shared.now (hheld q hq)⟩ moves hnone
    omega

/-! ## Two probes -/

/-- A breaker that opened at 0, its timeout of a second just over, and two requests. -/
def elapsedBreaker : Breaker := ⟨true, 5, 1000, .OPEN, 5, some 0, some 0⟩

def twoRequests : Pool BreakerStore Proxied := ⟨⟨1000, some elapsedBreaker⟩, [.new "/chat" true, .new "/chat" true]⟩

theorem single_probe_iff_alone :
    letThroughCount (run probesStep twoRequests [.call 0, .call 0, .other 5, .call 0]) ≤
      letThroughCount twoRequests + 1 :=
  (single_probe_iff twoRequests elapsedBreaker 0 rfl rfl rfl (by decide) _ (by decide)).1 (by decide)

theorem two_probes :
    ¬∀ (P : Pool BreakerStore Proxied) (r : Breaker) (openedAt : Int), P.shared.route = some r →
      r.circuitBreakerEnabled = true → r.cbState = .OPEN → r.cbOpenedAt = some openedAt →
      P.shared.now - openedAt ≥ r.cbRecoveryTimeout → ∀ moves,
      recordedCount (run probesStep P moves) = recordedCount P →
        letThroughCount (run probesStep P moves) ≤ letThroughCount P + 1 := by
  intro h
  have hone := h twoRequests elapsedBreaker 0 rfl rfl rfl rfl (by decide)
    [.call 0, .call 1, .call 0, .call 1, .call 0, .call 1] (by decide)
  exact absurd hone (by decide)

end ClusterGate
