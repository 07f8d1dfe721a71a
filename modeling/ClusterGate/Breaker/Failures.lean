/-
  ClusterGate.Breaker.Failures — failures recorded at the same time
  (`services/circuitBreakerService.ts`: `recordFailure`).

  A failure is a read of the row, then a write of the count it read plus one: two calls
  that read before either writes count one failure. `n` calls take their steps in any
  order, the clock moves as it likes.
  - `NoFailureLost`: the stored count is the number of calls that have completed, and the
    breaker is OPEN when all have.
  - `FreshWrite`: a write finds the count it was worked out from. The write of the last
    call need not when the threshold was reached before it.
  - `no_failure_lost_iff`: for every number of calls, threshold and order, the first holds
    in every state of the run exactly if the second holds of every step.
  - `two_failures_count_once`: two calls, a threshold of two, and a breaker that stays
    CLOSED.
-/

import ClusterGate.Breaker.Service

namespace ClusterGate

open Lib Async BreakerStore

/-- A call of `recordFailure`. -/
abbrev FailureCall := Call Unit BreakerStore

def recording (_ : Unit) : Async BreakerStore Err Unit := recordFailure

/-- The clock moves. -/
def BreakerStore.tick (now : Int) (s : BreakerStore) : BreakerStore := { s with now := now }

def failuresStep : Pool BreakerStore FailureCall → Move Int → Pool BreakerStore FailureCall :=
  Pool.step (Call.advance recording) tick

/-- `n` failures are about to be recorded. -/
def failures (n : Nat) (now : Int) (r : Breaker) : Pool BreakerStore FailureCall :=
  ⟨⟨now, some r⟩, List.replicate n (.start ())⟩

def completed (P : Pool BreakerStore FailureCall) : Nat := P.calls.countP (Call.ended recording)

def NoFailureLost (P : Pool BreakerStore FailureCall) : Prop :=
  ∀ r, P.shared.route = some r →
    (completed P = P.calls.length → r.cbState = .OPEN) ∧
      (completed P ≠ P.calls.length → r.cbFailureCount = completed P)

/-- The count of the row in `s`. -/
def BreakerStore.count (s : BreakerStore) : Option Nat := s.route.map Breaker.cbFailureCount

/-- The count of the row a call has read. -/
def readCount (c : FailureCall) : Option Nat := c.seen.head?.bind BreakerStore.count

/-- A call that has read its row and the clock is about to write. -/
def FreshWrite (k : Nat) (P : Pool BreakerStore FailureCall) : Move Int → Prop
  | .other _ => True
  | .call i => ∀ c ∈ P.calls[i]?, c.seen.length = 2 → c.ended recording = false →
      readCount c = P.shared.count ∨ (k < P.calls.length ∧ completed P + 1 = P.calls.length)

instance decidableFreshWrite (k : Nat) (P : Pool BreakerStore FailureCall) : ∀ m, Decidable (FreshWrite k P m)
  | .other _ => instDecidableTrue
  | .call i => inferInstanceAs (Decidable (∀ c ∈ P.calls[i]?, c.seen.length = 2 → c.ended recording = false →
      readCount c = P.shared.count ∨ (k < P.calls.length ∧ completed P + 1 = P.calls.length)))

/-! ## Where a call is -/

/-- A row of the breaker in question that has not gone half-open. -/
structure Counting (k : Nat) (r : Breaker) : Prop where
  enabled : r.circuitBreakerEnabled = true
  threshold : r.cbFailureThreshold = k
  notHalf : r.cbState ≠ .HALF_OPEN

/-- The states a call of `recordFailure` has taken its steps in, under a row that counts `m`. -/
inductive FailureSeen (k m : Nat) : List BreakerStore → Prop
  | start : FailureSeen k m []
  | read (now : Int) (r : Breaker) (hr : Counting k r) (hm : r.cbFailureCount ≤ m) : FailureSeen k m [⟨now, some r⟩]
  | clocked (now : Int) (r : Breaker) (hr : Counting k r) (hm : r.cbFailureCount ≤ m) (s₁ : BreakerStore) :
      FailureSeen k m [⟨now, some r⟩, s₁]
  | written (now : Int) (r : Breaker) (hr : Counting k r) (s₁ s₂ : BreakerStore) (h₂ : s₂.route.isSome = true) :
      FailureSeen k m [⟨now, some r⟩, s₁, s₂]

section Positions

variable {k : Nat}

theorem failureOf_counting {r : Breaker} (hr : Counting k r) :
    failureOf (some r) = await clock >>= fun now => writeFailure r now := by
  rw [failureOf, if_neg (by rw [hr.enabled]; decide)]

theorem left_clocked (now : Int) {r : Breaker} (hr : Counting k r) (s₁ : BreakerStore) :
    recordFailure.after [⟨now, some r⟩, s₁] = writeFailure r s₁.now := by
  rw [after_cons, after_cons, after_nil]
  show ((failureOf (some r)).advance s₁).1 = _
  rw [failureOf_counting hr]
  rfl

/-- The row a call that read `r` leaves of `q`. -/
def Breaker.overwritten (r : Breaker) (now : Int) (q : Breaker) : Breaker :=
  if r.cbFailureCount + 1 ≥ r.cbFailureThreshold then q.tripped (r.cbFailureCount + 1) now
  else q.counted (r.cbFailureCount + 1) now

theorem counting_overwritten {q : Breaker} (hq : Counting k q) (r : Breaker) (now : Int) :
    Counting k (r.overwritten now q) := by
  unfold Breaker.overwritten
  split
  · exact ⟨hq.enabled, hq.threshold, by simp [Breaker.tripped]⟩
  · exact ⟨hq.enabled, hq.threshold, hq.notHalf⟩

theorem write_advance {r : Breaker} (hr : Counting k r) (t now : Int) (q : Breaker) :
    (writeFailure r t).advance ⟨now, some q⟩ = (pure (), ⟨now, some (r.overwritten t q)⟩) := by
  unfold writeFailure Breaker.overwritten
  rw [if_neg hr.notHalf]
  split <;> rfl

theorem write_going {r : Breaker} (hr : Counting k r) (t : Int) : (writeFailure r t).ended = false := by
  unfold writeFailure
  rw [if_neg hr.notHalf]
  split <;> rfl

theorem left_written (now : Int) {r : Breaker} (hr : Counting k r) (s₁ s₂ : BreakerStore) (h₂ : s₂.route.isSome = true) :
    recordFailure.after [⟨now, some r⟩, s₁, s₂] = pure () := by
  obtain ⟨q, hq⟩ := Option.isSome_iff_exists.1 h₂
  obtain ⟨t, route⟩ := s₂
  cases hq
  show ((recordFailure.after [⟨now, some r⟩, s₁]).advance ⟨t, some q⟩).1 = _
  rw [left_clocked now hr, write_advance hr]

end Positions

/-! ## The invariant -/

/-- The row and the calls, as long as a call is under way. -/
structure CountingRow (k : Nat) (P : Pool BreakerStore FailureCall) (r : Breaker) : Prop where
  row : P.shared.route = some r
  counting : Counting k r
  opened : r.cbState = .OPEN ↔ k ≤ r.cbFailureCount
  calls : ∀ c ∈ P.calls, FailureSeen k r.cbFailureCount c.seen

def FailureInv (k n : Nat) (P : Pool BreakerStore FailureCall) : Prop :=
  P.calls.length = n ∧ (completed P ≠ n → ∃ r, CountingRow k P r)

theorem FailureSeen.mono {k m m' : Nat} {seen : List BreakerStore} (h : FailureSeen k m seen) (hm : m ≤ m') :
    FailureSeen k m' seen := by
  cases h with
  | start => exact .start
  | read now r hr hle => exact .read now r hr (Nat.le_trans hle hm)
  | clocked now r hr hle s₁ => exact .clocked now r hr (Nat.le_trans hle hm) s₁
  | written now r hr s₁ s₂ h₂ => exact .written now r hr s₁ s₂ h₂

/-- What a move does: a call writes, or nothing that matters happens. -/
inductive FailureMove (k : Nat) (P : Pool BreakerStore FailureCall) (r : Breaker) (m : Move Int) : Prop
  | quiet (row : (failuresStep P m).shared.route = some r) (done : completed (failuresStep P m) = completed P)
      (calls : ∀ c ∈ (failuresStep P m).calls, FailureSeen k r.cbFailureCount c.seen)
      (fresh : FreshWrite k P m)
  | write (r₀ : Breaker) (t : Int) (counting : Counting k r₀) (older : r₀.cbFailureCount ≤ r.cbFailureCount)
      (row : (failuresStep P m).shared.route = some (r₀.overwritten t r))
      (done : completed (failuresStep P m) = completed P + 1) (under : completed P < P.calls.length)
      (calls : ∀ c ∈ (failuresStep P m).calls, FailureSeen k r.cbFailureCount c.seen)
      (fresh : FreshWrite k P m ↔ r₀.cbFailureCount = r.cbFailureCount ∨
        (k < P.calls.length ∧ completed P + 1 = P.calls.length))

section Step

variable {k : Nat} {P : Pool BreakerStore FailureCall} {r : Breaker}

/-- The calls after one of them has gone on. -/
theorem calls_after {i : Nat} {c : FailureCall} (h : CountingRow k P r) (hc : P.calls[i]? = some c)
    (hg : c.ended recording = false) (hseen : FailureSeen k r.cbFailureCount (c.seen ++ [P.shared])) :
    ∀ d ∈ (failuresStep P (.call i)).calls, FailureSeen k r.cbFailureCount d.seen := by
  intro d hd
  rw [failuresStep, Pool.step_going hc hg] at hd
  rcases List.mem_or_eq_of_mem_set hd with hd | rfl
  · exact h.calls d hd
  · exact hseen

/-- How many have completed after one has gone on. -/
theorem completed_after {i : Nat} {c : FailureCall} (hc : P.calls[i]? = some c) (hg : c.ended recording = false) :
    completed (failuresStep P (.call i)) =
      completed P + (if (recordFailure.after (c.seen ++ [P.shared])).ended = true then 1 else 0) := by
  have hcount := @Pool.count_going _ _ _ _ _ recording tick P i c (Call.ended recording) hc hg
  rw [hg] at hcount
  exact hcount

/-- Only the third step of a call writes. -/
theorem fresh_unwritten {i : Nat} {c : FailureCall} (hc : P.calls[i]? = some c) (hlen : c.seen.length ≠ 2) :
    FreshWrite k P (.call i) := by
  intro d hd hseen _
  obtain rfl := Option.some.inj (hc.symm.trans hd)
  exact absurd hseen hlen

theorem CountingRow.shared (h : CountingRow k P r) : P.shared = ⟨P.shared.now, some r⟩ := by rw [← h.row]

section Moves

variable {i : Nat} {request : Unit} {now : Int} {r₀ : Breaker} {s₁ : BreakerStore}

/-- A move that leaves everything as it is. -/
theorem failure_same {m : Move Int} (h : CountingRow k P r) (hsame : failuresStep P m = P) (hfresh : FreshWrite k P m) :
    FailureMove k P r m :=
  .quiet (by rw [hsame]; exact h.row) (by rw [hsame]) (by rw [hsame]; exact h.calls) hfresh

/-- A call reads the row. -/
theorem failure_read (h : CountingRow k P r) (hc : P.calls[i]? = some ⟨request, []⟩) : FailureMove k P r (.call i) := by
  have hg : Call.ended recording (⟨request, []⟩ : FailureCall) = false := rfl
  refine .quiet ?_ ?_ (calls_after h hc hg ?_) (fresh_unwritten hc (by simp))
  · rw [failuresStep, Pool.step_going hc hg]
    exact h.row
  · rw [completed_after hc hg, h.shared]
    show completed P + (if (failureOf (some r)).ended = true then 1 else 0) = completed P
    rw [failureOf_counting h.counting]
    rfl
  · rw [h.shared]
    exact .read _ r h.counting (Nat.le_refl _)

/-- It reads the clock. -/
theorem failure_clock (h : CountingRow k P r) (hc : P.calls[i]? = some ⟨request, [⟨now, some r₀⟩]⟩) (hr₀ : Counting k r₀)
    (hm : r₀.cbFailureCount ≤ r.cbFailureCount) : FailureMove k P r (.call i) := by
  have hg : Call.ended recording (⟨request, [⟨now, some r₀⟩]⟩ : FailureCall) = false := by
    show (failureOf (some r₀)).ended = false
    rw [failureOf_counting hr₀]
    rfl
  refine .quiet ?_ ?_ (calls_after h hc hg (.clocked now r₀ hr₀ hm P.shared)) (fresh_unwritten hc (by simp))
  · rw [failuresStep, Pool.step_going hc hg]
    show ((failureOf (some r₀)).advance P.shared).2.route = some r
    rw [failureOf_counting hr₀]
    exact h.row
  · rw [completed_after hc hg]
    show completed P + (if (recordFailure.after [⟨now, some r₀⟩, P.shared]).ended = true then 1 else 0) = completed P
    rw [left_clocked now hr₀, write_going hr₀]
    rfl

/-- It writes, from the row it has read. -/
theorem failure_write (h : CountingRow k P r) (hc : P.calls[i]? = some ⟨request, [⟨now, some r₀⟩, s₁]⟩) (hr₀ : Counting k r₀)
    (hm : r₀.cbFailureCount ≤ r.cbFailureCount) : FailureMove k P r (.call i) := by
  have hleft : Call.left recording (⟨request, [⟨now, some r₀⟩, s₁]⟩ : FailureCall) = writeFailure r₀ s₁.now :=
    left_clocked now hr₀ s₁
  have hg : Call.ended recording (⟨request, [⟨now, some r₀⟩, s₁]⟩ : FailureCall) = false := by
    rw [Call.ended, hleft, write_going hr₀]
  have hrow : P.shared.route.isSome := by rw [h.row]; rfl
  refine .write r₀ s₁.now hr₀ hm ?_ ?_ (Pool.ended_lt hc hg)
    (calls_after h hc hg (.written now r₀ hr₀ s₁ P.shared hrow)) ?_
  · rw [failuresStep, Pool.step_going hc hg, hleft, h.shared, write_advance hr₀]
  · rw [completed_after hc hg]
    show completed P + (if (recordFailure.after [⟨now, some r₀⟩, s₁, P.shared]).ended = true then 1 else 0) = completed P + 1
    rw [left_written now hr₀ s₁ P.shared hrow]
    rfl
  · have hcount : (readCount ⟨request, [⟨now, some r₀⟩, s₁]⟩ = P.shared.count) ↔ r₀.cbFailureCount = r.cbFailureCount := by
      rw [h.shared]
      simp [readCount, BreakerStore.count]
    constructor
    · intro hf
      rw [← hcount]
      exact hf _ hc rfl hg
    · intro hf c hc' _ _
      obtain rfl := Option.some.inj (hc.symm.trans hc')
      rw [hcount]
      exact hf

end Moves

theorem failure_move (h : CountingRow k P r) (m : Move Int) : FailureMove k P r m := by
  cases m with
  | other now => exact .quiet h.row rfl h.calls trivial
  | call i =>
    cases hc : P.calls[i]? with
    | none =>
      refine failure_same h (Pool.step_none hc) ?_
      intro c hc' _ _
      rw [hc] at hc'
      cases hc'
    | some c =>
      have hs := h.calls c (List.mem_of_getElem? hc)
      obtain ⟨request, seen⟩ := c
      cases hs with
      | start => exact failure_read h hc
      | read now r₀ hr₀ hm => exact failure_clock h hc hr₀ hm
      | clocked now r₀ hr₀ hm s₁ => exact failure_write h hc hr₀ hm
      | written now r₀ hr₀ s₁ s₂ h₂ =>
        have he : Call.ended recording (⟨request, [⟨now, some r₀⟩, s₁, s₂]⟩ : FailureCall) = true := by
          show (recordFailure.after [⟨now, some r₀⟩, s₁, s₂]).ended = true
          rw [left_written now hr₀ s₁ s₂ h₂]
          rfl
        exact failure_same h (Pool.step_ended hc he) (fresh_unwritten hc (by simp))

/-- When all have completed, nobody writes any more. -/
theorem failure_over (hall : completed P = P.calls.length) (m : Move Int) :
    (failuresStep P m).shared.route = P.shared.route ∧ completed (failuresStep P m) = completed P ∧ FreshWrite k P m := by
  have hended : ∀ c ∈ P.calls, c.ended recording = true := List.countP_eq_length.1 hall
  cases m with
  | other now => exact ⟨rfl, rfl, trivial⟩
  | call i =>
    have hfresh : FreshWrite k P (.call i) := by
      intro c hc _ hg
      rw [hended c (List.mem_of_getElem? hc)] at hg
      cases hg
    have hsame : failuresStep P (.call i) = P := by
      cases hc : P.calls[i]? with
      | none => exact Pool.step_none hc
      | some c => exact Pool.step_ended hc (hended c (List.mem_of_getElem? hc))
    rw [hsame]
    exact ⟨rfl, rfl, hfresh⟩

/-- A move keeps the count exactly if it finds it fresh. -/
theorem failure_step {n : Nat} (hkn : k ≤ n) (hi : FailureInv k n P) (hq : NoFailureLost P) (m : Move Int) :
    (FreshWrite k P m ↔ NoFailureLost (failuresStep P m)) ∧
      (NoFailureLost (failuresStep P m) → FailureInv k n (failuresStep P m)) := by
  obtain ⟨hlen, hrow⟩ := hi
  have hlen' : (failuresStep P m).calls.length = n := by rw [failuresStep, Pool.step_length, hlen]
  by_cases hall : completed P = n
  · obtain ⟨hsame, hdone, hfresh⟩ := @failure_over k P (hall.trans hlen.symm) m
    have hq' : NoFailureLost (failuresStep P m) := by
      intro q hr
      rw [hsame] at hr
      rw [hdone, hlen', ← hlen]
      exact hq q hr
    exact ⟨iff_of_true hfresh hq', fun _ => ⟨hlen', fun hne => absurd (hdone.trans hall) hne⟩⟩
  obtain ⟨r, h⟩ := hrow hall
  have hcount : r.cbFailureCount = completed P := (hq r h.row).2 (by rw [hlen]; exact hall)
  cases failure_move h m with
  | quiet row done calls fresh =>
    have hq' : NoFailureLost (failuresStep P m) := by
      intro q hr
      rw [row] at hr
      cases hr
      rw [done, hlen']
      exact ⟨fun he => absurd he hall, fun _ => hcount⟩
    exact ⟨iff_of_true fresh hq', fun _ => ⟨hlen', fun _ => ⟨r, row, h.counting, h.opened, calls⟩⟩⟩
  | write r₀ t counting older row done under calls fresh =>
    have hcount' : (r₀.overwritten t r).cbFailureCount = r₀.cbFailureCount + 1 := by
      unfold Breaker.overwritten
      split <;> rfl
    have hstate' : (r₀.overwritten t r).cbState = .OPEN ↔ k ≤ r₀.cbFailureCount + 1 ∨ k ≤ r.cbFailureCount := by
      unfold Breaker.overwritten
      rw [counting.threshold, ← h.opened]
      split
      · rename_i hge
        exact iff_of_true rfl (.inl hge)
      · rename_i hlt
        exact ⟨.inr, fun ho => ho.resolve_left (by omega)⟩
    have hlost : NoFailureLost (failuresStep P m) ↔
        (completed P + 1 = n → k ≤ r₀.cbFailureCount + 1 ∨ k ≤ r.cbFailureCount) ∧
          (completed P + 1 ≠ n → r₀.cbFailureCount + 1 = completed P + 1) := by
      rw [← hstate', ← hcount', ← done, ← hlen']
      exact ⟨fun hq' => hq' _ row, fun hq' q hr => by rw [row] at hr; cases hr; exact hq'⟩
    rw [hlen] at under fresh
    constructor
    · rw [fresh, hlost, hcount]
      omega
    · intro hq'
      rw [hlost] at hq'
      refine ⟨hlen', fun hne => ⟨_, row, ?_, ?_, ?_⟩⟩
      · exact counting_overwritten h.counting r₀ t
      · rw [hstate', hcount']
        rw [done] at hne
        have := hq'.2 hne
        omega
      · intro c hc
        refine (calls c hc).mono ?_
        rw [hcount']
        rw [done] at hne
        have := hq'.2 hne
        omega

end Step

theorem failures_start (n k : Nat) (hk1 : 1 ≤ k) (hkn : k ≤ n) (now : Int) (r : Breaker) (hr : Counting k r)
    (hc : r.cbState = .CLOSED) (h0 : r.cbFailureCount = 0) :
    FailureInv k n (failures n now r) ∧ NoFailureLost (failures n now r) := by
  have hnone : completed (failures n now r) = 0 := by
    rw [completed, List.countP_eq_zero]
    intro c hmem
    obtain ⟨-, rfl⟩ := List.mem_replicate.1 hmem
    decide
  have hlen : (failures n now r).calls.length = n := List.length_replicate
  refine ⟨⟨hlen, fun _ => ⟨r, rfl, hr, ?_, ?_⟩⟩, ?_⟩
  · rw [hc, h0]
    exact iff_of_false (by decide) (by omega)
  · intro c hmem
    obtain ⟨-, rfl⟩ := List.mem_replicate.1 hmem
    exact .start
  · intro q hq
    cases hq
    rw [hnone, hlen]
    exact ⟨fun he => by omega, fun _ => h0⟩

theorem no_failure_lost_iff (n k : Nat) (hk1 : 1 ≤ k) (hkn : k ≤ n) (now : Int) (r : Breaker)
    (he : r.circuitBreakerEnabled = true) (hk : r.cbFailureThreshold = k) (hc : r.cbState = .CLOSED)
    (h0 : r.cbFailureCount = 0) (moves : List (Move Int)) :
    (∀ pre post, moves = pre ++ post → NoFailureLost (run failuresStep (failures n now r) pre)) ↔
      Along failuresStep (FreshWrite k) (failures n now r) moves := by
  obtain ⟨hi, hq⟩ := failures_start n k hk1 hkn now r ⟨he, hk, by rw [hc]; decide⟩ hc h0
  rw [← throughout_iff]
  exact throughout_iff_along (I := FailureInv k n) (fun P m hi hq => (failure_step hkn hi hq m).1)
    (fun P m hi hq => (failure_step hkn hi hq m).2) hi hq

/-! ## Two failures at once -/

/-- A breaker that opens at the second failure. -/
def twoStrikes : Breaker := ⟨true, 2, 30000, .CLOSED, 0, none, none⟩

/-- Both read, then both write. -/
def bothThenBoth : List (Move Int) := [.call 0, .call 1, .call 0, .call 1, .call 0, .call 1]

/-- One call after the other. -/
def oneByOne : List (Move Int) := [.call 0, .call 0, .call 0, .call 1, .call 1, .call 1]

theorem no_failure_lost_one_by_one : NoFailureLost (run failuresStep (failures 2 0 twoStrikes) oneByOne) := by
  have hall := (no_failure_lost_iff 2 2 (by decide) (by decide) 0 twoStrikes rfl rfl rfl rfl oneByOne).2 (by decide)
  exact hall oneByOne [] (List.append_nil oneByOne).symm

theorem two_failures_count_once :
    ¬∀ (n k : Nat), 1 ≤ k → k ≤ n → ∀ (now : Int) (r : Breaker), r.circuitBreakerEnabled = true →
      r.cbFailureThreshold = k → r.cbState = .CLOSED → r.cbFailureCount = 0 → ∀ moves pre post, moves = pre ++ post →
        NoFailureLost (run failuresStep (failures n now r) pre) := by
  intro h
  have hlost := h 2 2 (by decide) (by decide) 0 twoStrikes rfl rfl rfl rfl bothThenBoth bothThenBoth [] rfl
  have hclosed := (hlost ⟨true, 2, 30000, .CLOSED, 1, some 0, none⟩ (by decide)).1 (by decide)
  cases hclosed

end ClusterGate
