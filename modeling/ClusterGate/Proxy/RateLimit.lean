/-
  ClusterGate.Proxy.RateLimit — the rate limit of a route, over any number of replicas
  (`lib/rateLimitStore.ts`).

  A check reads the clock and works out its window, and later counts itself with one
  upsert: the row of a key holds the window and the count of the last upsert's window, and
  starts again at one when the window is another. A background job deletes rows whose
  window began over an hour before it read the clock. Both may be late.
  - `InOrder`: an upsert finds no row of a later window, and the job deletes no row while a
    check of its window or an earlier one is on its way.
  - `rate_limit_caps`: in every run all of whose steps are in order, no more than `max`
    checks of any window are allowed.
  - `a_late_check_resets`: a check that comes a window late starts the present one again.
-/

import ClusterGate.Errors
import ClusterGate.Lib.Async
import ClusterGate.Lib.Table

namespace ClusterGate

open Lib Async

/-- A row of `rate_limit_counters`. -/
structure RateLimitCounter where
  windowStart : Nat
  count : Nat
  deriving DecidableEq

structure RateLimitResult where
  allowed : Bool
  remaining : Nat
  resetAt : Nat
  deriving DecidableEq

/-- The clock, whether the database answers, and the counters by key. -/
structure RateStore where
  now : Nat
  up : Bool
  counters : Table String RateLimitCounter

namespace RateStore

def clock : Act RateStore Err Nat := fun s => (.ok s.now, s)

/-- The row an upsert leaves. -/
def counted (windowStart : Nat) : Option RateLimitCounter → RateLimitCounter
  | none => ⟨windowStart, 1⟩
  | some row => ⟨windowStart, if row.windowStart = windowStart then row.count + 1 else 1⟩

/-- `INSERT … ON CONFLICT ("key") DO UPDATE … RETURNING "count"` -/
def upsert (key : String) (windowStart : Nat) : Act RateStore Err Nat := fun s =>
  if s.up = false then (.error (.prisma "P2010"), s)
  else
    let row := counted windowStart (s.counters.get? key)
    (.ok row.count, { s with counters := s.counters.upsert key row })

/-- `DELETE … WHERE "windowStart" < cutoff`, and how many it deletes. -/
def deleteBefore (cutoff : Int) : Act RateStore Err Nat := fun s =>
  if s.up = false then (.error (.prisma "P2010"), s)
  else
    let kept := s.counters.filter fun _ row => !decide ((row.windowStart : Int) < cutoff)
    (.ok (s.counters.size - kept.size), { s with counters := kept })

end RateStore

open RateStore

def windowOf (now windowMs : Nat) : Nat := now / windowMs * windowMs

def rateKey (routeId clientIp : String) : String := routeId ++ ":" ++ clientIp

/-- The answer of `checkRateLimit`, by what the upsert returned. -/
def limited (max resetAt : Nat) (failClosed : Bool) : Except Err Nat → RateLimitResult
  | .ok count => ⟨count ≤ max, max - count, resetAt⟩
  | .error _ => if failClosed = true then ⟨false, 0, resetAt⟩ else ⟨true, max, resetAt⟩

def checkRateLimit (routeId clientIp : String) (max windowMs : Nat) (failClosed : Bool) : Async RateStore Err RateLimitResult := do
  let now ← await clock
  let rows ← await (Act.attempt (upsert (rateKey routeId clientIp) (windowOf now windowMs)))
  pure (limited max (windowOf now windowMs + windowMs) failClosed rows)

def cleanupRateLimitCounters : Async RateStore Err Nat := do
  let now ← await clock
  let res ← await (Act.attempt (deleteBefore ((now : Int) - 3600000)))
  pure (match res with
    | .ok deleted => deleted
    | .error _ => 0)

/-! ## Checks and clean-ups -/

inductive RateRequest
  | check (routeId clientIp : String) (max windowMs : Nat) (failClosed : Bool)
  | cleanup
  deriving DecidableEq

namespace RateRequest

/-- A clean-up answers no check. -/
def program : RateRequest → Async RateStore Err (Option RateLimitResult)
  | .check routeId clientIp max windowMs failClosed => do
    let result ← checkRateLimit routeId clientIp max windowMs failClosed
    pure (some result)
  | .cleanup => do
    let _ ← cleanupRateLimitCounters
    pure none

/-- If it is a check of the key, it is at this rate. -/
def atRate (key : String) (max windowMs : Nat) : RateRequest → Prop
  | .check routeId clientIp max' windowMs' _ => rateKey routeId clientIp = key → max' = max ∧ windowMs' = windowMs
  | .cleanup => True

end RateRequest

abbrev RateCall := Call RateRequest RateStore

/-- Time passes. -/
def RateStore.wait (d : Nat) (s : RateStore) : RateStore := { s with now := s.now + d }

def rateStep : Pool RateStore RateCall → Move Nat → Pool RateStore RateCall :=
  Pool.step (Call.advance RateRequest.program) RateStore.wait

/-- The window a check of the key has read from the clock. -/
def windowRead (key : String) (c : RateCall) : Option Nat :=
  match c.request with
  | .check routeId clientIp _ windowMs _ =>
    if rateKey routeId clientIp = key then c.seen.head?.map fun s => windowOf s.now windowMs else none
  | .cleanup => none

/-- The window of a check of the key that has yet to count itself. -/
def onItsWay (key : String) (c : RateCall) : Option Nat := if c.seen.length = 1 then windowRead key c else none

/-- What a clean-up is about to delete before. -/
def cutoff (c : RateCall) : Option Int :=
  match c.request with
  | .check _ _ _ _ _ => none
  | .cleanup => if c.seen.length = 1 then c.seen.head?.map fun s => (s.now : Int) - 3600000 else none

/-- An upsert finds no row of a later window, and no row is deleted that a check on its way
    would count itself in or before. -/
def InOrder (key : String) (P : Pool RateStore RateCall) : Move Nat → Prop
  | .other _ => True
  | .call i => ∀ c ∈ P.calls[i]?, ∀ row ∈ P.shared.counters.get? key,
      (∀ w ∈ onItsWay key c, row.windowStart ≤ w) ∧
        (∀ cut ∈ cutoff c, (row.windowStart : Int) < cut → ∀ d ∈ P.calls, ∀ w ∈ onItsWay key d, row.windowStart < w)

instance decidableInOrder (key : String) (P : Pool RateStore RateCall) : ∀ m, Decidable (InOrder key P m)
  | .other _ => instDecidableTrue
  | .call i => inferInstanceAs (Decidable (∀ c ∈ P.calls[i]?, ∀ row ∈ P.shared.counters.get? key,
      (∀ w ∈ onItsWay key c, row.windowStart ≤ w) ∧
        (∀ cut ∈ cutoff c, (row.windowStart : Int) < cut → ∀ d ∈ P.calls, ∀ w ∈ onItsWay key d, row.windowStart < w)))

/-- A check of the key whose clock reading is in the window and that is allowed. -/
def allowedIn (key : String) (w : Nat) (c : RateCall) : Bool :=
  windowRead key c = some w && ((c.returned RateRequest.program).bind id).any RateLimitResult.allowed

def allowedCount (key : String) (w : Nat) (P : Pool RateStore RateCall) : Nat := P.calls.countP (allowedIn key w)

/-! ## Two steps -/

theorem check_counts (routeId clientIp : String) (max windowMs : Nat) (failClosed : Bool) (s₀ s₁ : RateStore) :
    (((RateRequest.check routeId clientIp max windowMs failClosed).program.after [s₀]).advance s₁).2 =
      (upsert (rateKey routeId clientIp) (windowOf s₀.now windowMs) s₁).2 := rfl

theorem cleanup_deletes (s₀ s₁ : RateStore) :
    ((RateRequest.cleanup.program.after [s₀]).advance s₁).2 = (deleteBefore ((s₀.now : Int) - 3600000) s₁).2 := rfl

/-- A call has ended after two steps. -/
theorem rate_ended (c : RateCall) : c.ended RateRequest.program = decide (2 ≤ c.seen.length) := by
  obtain ⟨request, seen⟩ := c
  cases seen with
  | nil => cases request <;> rfl
  | cons s₀ seen =>
    cases seen with
    | nil => cases request <;> rfl
    | cons s₁ seen =>
      have hend : ∃ outcome, request.program.after [s₀, s₁] = .done outcome := by cases request <;> exact ⟨_, rfl⟩
      obtain ⟨outcome, hout⟩ := hend
      show ((request.program.after [s₀, s₁]).after seen).ended = _
      rw [hout, after_done]
      simp [ended]

theorem clock_step (request : RateRequest) (s : RateStore) : (request.program.advance s).2 = s := by
  cases request <;> rfl

/-- Nothing is returned before the second step. -/
theorem allowed_ended {key : String} {w : Nat} {c : RateCall} (h : allowedIn key w c = true) : 2 ≤ c.seen.length := by
  have he : c.ended RateRequest.program = true := by
    rw [allowedIn, Bool.and_eq_true] at h
    have hr := h.2
    unfold Call.returned at hr
    unfold Call.ended
    cases hl : c.left RateRequest.program with
    | done outcome => rfl
    | step act rest =>
      rw [hl] at hr
      cases hr
  rw [rate_ended] at he
  simpa using he

/-- A check of the key that has counted itself in the window. -/
def served (key : String) (w : Nat) (c : RateCall) : Bool := windowRead key c = some w && decide (2 ≤ c.seen.length)

theorem allowed_served {key : String} {w : Nat} {c : RateCall} (h : allowedIn key w c = true) : served key w c = true := by
  have hlen := allowed_ended h
  rw [allowedIn, Bool.and_eq_true] at h
  rw [served, h.1, Bool.true_and]
  simpa using hlen

def servedCount (key : String) (w : Nat) (P : Pool RateStore RateCall) : Nat := P.calls.countP (served key w)

theorem allowed_le_served (key : String) (w : Nat) (P : Pool RateStore RateCall) : allowedCount key w P ≤ servedCount key w P :=
  List.countP_mono_left fun _ _ h => allowed_served h

/-! ## The invariant -/

/-- The row of the key holds its latest window and counts all of its checks; where there is
    none, the windows counted so far are over. -/
structure Caps (key : String) (max windowMs : Nat) (P : Pool RateStore RateCall) : Prop where
  up : P.shared.up = true
  rate : ∀ c ∈ P.calls, c.request.atRate key max windowMs
  past : ∀ c ∈ P.calls, ∀ s ∈ c.seen, s.now ≤ P.shared.now
  capped : ∀ w, allowedCount key w P ≤ max
  latest : ∀ row, P.shared.counters.get? key = some row → ∀ c ∈ P.calls, ∀ w, served key w c = true → w ≤ row.windowStart
  counts : ∀ row, P.shared.counters.get? key = some row → servedCount key row.windowStart P ≤ row.count
  gone : P.shared.counters.get? key = none → ∀ c ∈ P.calls, ∀ v, served key v c = true →
    v + windowMs ≤ P.shared.now ∧ ∀ d ∈ P.calls, ∀ w ∈ onItsWay key d, v < w

section Step

variable {key : String} {max windowMs : Nat} {P : Pool RateStore RateCall} {i : Nat} {c : RateCall}

theorem window_after (now : Nat) (hw : 0 < windowMs) : now < windowOf now windowMs + windowMs := by
  have hdiv := Nat.div_add_mod now windowMs
  have hmod := Nat.mod_lt now hw
  rw [windowOf, Nat.mul_comm]
  omega

theorem windowRead_concat {request : RateRequest} {s₀ s : RateStore} {seen : List RateStore} :
    windowRead key ⟨request, (s₀ :: seen) ++ [s]⟩ = windowRead key ⟨request, s₀ :: seen⟩ := by
  cases request <;> rfl

/-- A check of the key reads a window at its rate. -/
theorem windowRead_now (h : c.request.atRate key max windowMs) {s₀ : RateStore} {seen : List RateStore}
    (hs : c.seen = s₀ :: seen) {w : Nat} (hr : windowRead key c = some w) : w = windowOf s₀.now windowMs := by
  obtain ⟨request, seen'⟩ := c
  obtain rfl : seen' = s₀ :: seen := hs
  cases request with
  | cleanup => cases hr
  | check routeId clientIp max' windowMs' failClosed =>
    by_cases hk : rateKey routeId clientIp = key
    · simp only [windowRead, if_pos hk, List.head?_cons, Option.map_some, Option.some.injEq] at hr
      rw [← hr, (h hk).2]
    · simp only [windowRead, if_neg hk] at hr
      cases hr

/-- No call has seen a time to come, after one more step either. -/
theorem past_going (h : ∀ c ∈ P.calls, ∀ s ∈ c.seen, s.now ≤ P.shared.now) (hc : P.calls[i]? = some c)
    (hg : c.ended RateRequest.program = false) :
    ∀ c ∈ (rateStep P (.call i)).calls, ∀ s ∈ c.seen, s.now ≤ P.shared.now := by
  refine Pool.forall_going h hc hg ?_
  intro s hs
  rcases List.mem_append.1 hs with hs | hs
  · exact h c (List.mem_of_getElem? hc) s hs
  · obtain rfl := List.mem_singleton.1 hs
    exact Nat.le_refl _

/-- A call reads the clock. -/
theorem caps_clock (hw : 0 < windowMs) (h : Caps key max windowMs P) (hc : P.calls[i]? = some c) (hs : c.seen = []) :
    Caps key max windowMs (rateStep P (.call i)) := by
  have hg : c.ended RateRequest.program = false := by rw [rate_ended, hs]; rfl
  have hmem := List.mem_of_getElem? hc
  have hshared : (rateStep P (.call i)).shared = P.shared := by
    rw [rateStep, Pool.step_going hc hg]
    show ((c.request.program.after c.seen).advance P.shared).2 = P.shared
    rw [hs]
    exact clock_step c.request P.shared
  have hnew : ∀ w, served key w ⟨c.request, c.seen ++ [P.shared]⟩ = false := by
    intro w
    rw [hs]
    simp [served]
  have hold : ∀ w, served key w c = false := by
    intro w
    simp [served, hs]
  have hnot : ∀ (w : Nat) (d : RateCall), served key w d = false → allowedIn key w d = false := by
    intro w d hd
    cases ha : allowedIn key w d with
    | false => rfl
    | true =>
      rw [allowed_served ha] at hd
      cases hd
  refine ⟨?_, ?_, ?_, ?_, ?_, ?_, ?_⟩
  · rw [hshared]
    exact h.up
  · exact Pool.forall_going h.rate hc hg (h.rate c hmem)
  · rw [hshared]
    exact past_going h.past hc hg
  · intro w
    rw [allowedCount, rateStep, Pool.count_apart _ hc hg (hnot w _ (hold w)) (hnot w _ (hnew w))]
    exact h.capped w
  · intro row hrow
    rw [hshared] at hrow
    refine Pool.forall_going (h.latest row hrow) hc hg ?_
    intro w hserved
    rw [hnew w] at hserved
    cases hserved
  · intro row hrow
    rw [hshared] at hrow
    rw [servedCount, rateStep, Pool.count_apart _ hc hg (hold _) (hnew _)]
    exact h.counts row hrow
  · intro hnone
    rw [hshared] at hnone ⊢
    refine Pool.forall_going (Q := fun c => ∀ v, served key v c = true → v + windowMs ≤ P.shared.now ∧ _) ?_ hc hg ?_
    · intro d hd v hv
      obtain ⟨hle, hway⟩ := h.gone hnone d hd v hv
      refine ⟨hle, Pool.forall_going hway hc hg ?_⟩
      intro w hread
      -- The window just read is later than any that is over.
      rw [hs] at hread
      have hnow := windowRead_now (c := ⟨c.request, [P.shared]⟩) (h.rate c hmem) rfl hread
      have hafter := window_after P.shared.now hw
      omega
    · intro v hv
      rw [hnew v] at hv
      cases hv

/-- A call that counts nothing of the key and leaves its row as it was. -/
theorem caps_apart (h : Caps key max windowMs P) (hc : P.calls[i]? = some c) (hg : c.ended RateRequest.program = false)
    {s₀ : RateStore} (hs : c.seen = [s₀]) (hread : windowRead key c = none)
    (hup : (rateStep P (.call i)).shared.up = true) (hnow : (rateStep P (.call i)).shared.now = P.shared.now)
    (hrow : (rateStep P (.call i)).shared.counters.get? key = P.shared.counters.get? key ∨
      ((rateStep P (.call i)).shared.counters.get? key = none ∧ ∀ c ∈ P.calls, ∀ v, served key v c = true →
        v + windowMs ≤ P.shared.now ∧ ∀ d ∈ P.calls, ∀ w ∈ onItsWay key d, v < w)) :
    Caps key max windowMs (rateStep P (.call i)) := by
  have hmem := List.mem_of_getElem? hc
  have hread' : windowRead key ⟨c.request, c.seen ++ [P.shared]⟩ = none := by
    rw [hs, windowRead_concat, ← hs]
    exact hread
  have hserved : ∀ w, served key w ⟨c.request, c.seen ++ [P.shared]⟩ = false := by
    intro w
    rw [served, hread']
    rfl
  have hover : ∀ {N : Nat}, (∀ c ∈ P.calls, ∀ v, served key v c = true →
      v + windowMs ≤ N ∧ ∀ d ∈ P.calls, ∀ w ∈ onItsWay key d, v < w) →
      ∀ c ∈ (rateStep P (.call i)).calls, ∀ v, served key v c = true →
        v + windowMs ≤ N ∧ ∀ d ∈ (rateStep P (.call i)).calls, ∀ w ∈ onItsWay key d, v < w := by
    intro N hall
    refine Pool.forall_going (Q := fun c => ∀ v, served key v c = true → v + windowMs ≤ N ∧ _) ?_ hc hg ?_
    · intro d hd v hv
      obtain ⟨hle, hway⟩ := hall d hd v hv
      refine ⟨hle, Pool.forall_going hway hc hg ?_⟩
      intro w hw
      rw [hs] at hw
      cases hw
    · intro v hv
      rw [hserved v] at hv
      cases hv
  refine ⟨hup, Pool.forall_going h.rate hc hg (h.rate c hmem), ?_, ?_, ?_, ?_, ?_⟩
  · rw [hnow]
    exact past_going h.past hc hg
  · intro w
    rw [allowedCount, rateStep, Pool.count_apart _ hc hg (by rw [allowedIn, hread]; rfl) (by rw [allowedIn, hread']; rfl)]
    exact h.capped w
  · intro row hget
    rcases hrow with hrow | ⟨hrow, -⟩
    · rw [hrow] at hget
      refine Pool.forall_going (h.latest row hget) hc hg ?_
      intro w hw
      rw [hserved w] at hw
      cases hw
    · rw [hrow] at hget
      cases hget
  · intro row hget
    rcases hrow with hrow | ⟨hrow, -⟩
    · rw [hrow] at hget
      rw [servedCount, rateStep, Pool.count_apart _ hc hg (by rw [served, hread]; rfl) (hserved _)]
      exact h.counts row hget
    · rw [hrow] at hget
      cases hget
  · intro hnone
    rw [hnow]
    rcases hrow with hrow | ⟨-, hall⟩
    · rw [hrow] at hnone
      exact hover (h.gone hnone)
    · exact hover hall

/-- A clean-up deletes what is over, if no check of it is on its way. -/
theorem caps_cleanup (hw : windowMs ≤ 3600000) (h : Caps key max windowMs P) {s₀ : RateStore}
    (hc : P.calls[i]? = some ⟨.cleanup, [s₀]⟩) (ho : InOrder key P (.call i)) : Caps key max windowMs (rateStep P (.call i)) := by
  have hg : Call.ended RateRequest.program (⟨.cleanup, [s₀]⟩ : RateCall) = false := rfl
  have hmem := List.mem_of_getElem? hc
  have hshared : (rateStep P (.call i)).shared = (deleteBefore ((s₀.now : Int) - 3600000) P.shared).2 := by
    rw [rateStep, Pool.step_going hc hg]
    exact cleanup_deletes s₀ P.shared
  rw [deleteBefore, if_neg (by rw [h.up]; decide)] at hshared
  refine caps_apart h hc hg rfl rfl (by rw [hshared]; exact h.up) (by rw [hshared]) ?_
  rw [hshared]
  dsimp only
  rw [Table.get?_filter]
  cases hrow : P.shared.counters.get? key with
  | none => exact .inl rfl
  | some row =>
    by_cases hcut : (row.windowStart : Int) < (s₀.now : Int) - 3600000
    · right
      rw [Option.filter_some, if_neg (by simp [hcut])]
      refine ⟨rfl, ?_⟩
      intro d hd v hv
      have hle := h.latest row hrow d hd v hv
      have hpast := h.past _ hmem s₀ (List.mem_singleton.2 rfl)
      refine ⟨by omega, ?_⟩
      intro d' hd' w hway
      have hlt := (ho _ hc row hrow).2 _ rfl hcut d' hd' w hway
      omega
    · left
      rw [Option.filter_some, if_pos (by simp only [Bool.not_eq_true', decide_eq_false_iff_not]; exact hcut)]

theorem counted_start (W : Nat) (old : Option RateLimitCounter) : (counted W old).windowStart = W := by
  cases old <;> rfl

/-- Where a check counts itself in order, no later window has been counted. -/
theorem latest_before (h : Caps key max windowMs P) {W : Nat} (hc : c ∈ P.calls) (hway : onItsWay key c = some W)
    (ho : ∀ row, P.shared.counters.get? key = some row → row.windowStart ≤ W) :
    ∀ d ∈ P.calls, ∀ w, served key w d = true → w ≤ W := by
  intro d hd w hw
  cases hrow : P.shared.counters.get? key with
  | none =>
    have hlt := (h.gone hrow d hd w hw).2 c hc W hway
    omega
  | some row =>
    have hle := h.latest row hrow d hd w hw
    have hle' := ho row hrow
    omega

/-- The row then counts it and all checks of its window before it. -/
theorem counted_before (h : Caps key max windowMs P) {W : Nat} (hc : c ∈ P.calls) (hway : onItsWay key c = some W)
    (ho : ∀ row, P.shared.counters.get? key = some row → row.windowStart ≤ W) :
    servedCount key W P + 1 ≤ (counted W (P.shared.counters.get? key)).count := by
  have hzero : (∀ d ∈ P.calls, served key W d = true → False) → servedCount key W P = 0 := by
    intro hall
    rw [servedCount, List.countP_eq_zero]
    intro d hd
    exact hall d hd
  cases hrow : P.shared.counters.get? key with
  | none =>
    have hnone : servedCount key W P = 0 := by
      refine hzero ?_
      intro d hd hs
      have hlt := (h.gone hrow d hd W hs).2 c hc W hway
      omega
    rw [hnone]
    exact Nat.le_refl _
  | some row =>
    have hle := ho row hrow
    by_cases he : row.windowStart = W
    · have hcounts := h.counts row hrow
      rw [he] at hcounts
      simp only [counted, if_pos he]
      omega
    · have hnone : servedCount key W P = 0 := by
        refine hzero ?_
        intro d hd hs
        have hlast := h.latest row hrow d hd W hs
        omega
      rw [hnone]
      simp only [counted, if_neg he]
      exact Nat.le_refl _

/-- A check is let through by the count that its own upsert made. -/
theorem allowed_counted {routeId clientIp : String} {failClosed : Bool} {s₀ s : RateStore} {w : Nat} (hup : s.up = true)
    (hk : rateKey routeId clientIp = key)
    (ha : allowedIn key w ⟨.check routeId clientIp max windowMs failClosed, [s₀] ++ [s]⟩ = true) :
    (counted (windowOf s₀.now windowMs) (s.counters.get? key)).count ≤ max := by
  rw [allowedIn, Bool.and_eq_true] at ha
  have hreturned : Call.returned RateRequest.program
      (⟨.check routeId clientIp max windowMs failClosed, [s₀] ++ [s]⟩ : RateCall) =
        some (some (limited max (windowOf s₀.now windowMs + windowMs) failClosed
          (upsert (rateKey routeId clientIp) (windowOf s₀.now windowMs) s).1)) := rfl
  rw [hreturned, upsert, if_neg (by rw [hup]; decide), hk] at ha
  simpa [limited] using ha.2

/-- A check of the key counts itself. -/
theorem caps_count (h : Caps key max windowMs P) {routeId clientIp : String} {failClosed : Bool}
    {s₀ : RateStore} (hk : rateKey routeId clientIp = key)
    (hc : P.calls[i]? = some ⟨.check routeId clientIp max windowMs failClosed, [s₀]⟩) (ho : InOrder key P (.call i)) :
    Caps key max windowMs (rateStep P (.call i)) := by
  have hg : Call.ended RateRequest.program (⟨.check routeId clientIp max windowMs failClosed, [s₀]⟩ : RateCall) = false := rfl
  have hmem := List.mem_of_getElem? hc
  obtain ⟨W, hW⟩ : ∃ W, W = windowOf s₀.now windowMs := ⟨_, rfl⟩
  obtain ⟨row', hrow'⟩ : ∃ row', row' = counted W (P.shared.counters.get? key) := ⟨_, rfl⟩
  have hread : windowRead key ⟨.check routeId clientIp max windowMs failClosed, [s₀]⟩ = some W := by
    simp [windowRead, hk, hW]
  have hread' : windowRead key ⟨.check routeId clientIp max windowMs failClosed, [s₀] ++ [P.shared]⟩ = some W := by
    rw [windowRead_concat]
    exact hread
  have hway : onItsWay key ⟨.check routeId clientIp max windowMs failClosed, [s₀]⟩ = some W := by
    simpa [onItsWay] using hread
  have hshared : (rateStep P (.call i)).shared = { P.shared with counters := P.shared.counters.upsert key row' } := by
    rw [rateStep, Pool.step_going hc hg]
    show (upsert (rateKey routeId clientIp) (windowOf s₀.now windowMs) P.shared).2 = _
    rw [upsert, if_neg (by rw [h.up]; decide), hk, ← hW, ← hrow']
  have hget : (rateStep P (.call i)).shared.counters.get? key = some row' := by
    rw [hshared]
    dsimp only
    rw [Table.get?_upsert, if_pos rfl]
  have hstart : row'.windowStart = W := by
    rw [hrow']
    exact counted_start W _
  have hlatest := latest_before h hmem hway fun row hrow => (ho _ hc row hrow).1 W hway
  have hbefore : servedCount key W P + 1 ≤ row'.count := by
    rw [hrow']
    exact counted_before h hmem hway fun row hrow => (ho _ hc row hrow).1 W hway
  have hserved : ∀ w, served key w ⟨.check routeId clientIp max windowMs failClosed, [s₀] ++ [P.shared]⟩ = decide (w = W) := by
    intro w
    rw [served, hread']
    simp [eq_comm]
  have hunserved : ∀ w, served key w ⟨.check routeId clientIp max windowMs failClosed, [s₀]⟩ = false := by
    intro w
    simp [served]
  have hservedCount : servedCount key W (rateStep P (.call i)) = servedCount key W P + 1 := by
    have hcount := @Pool.count_going _ _ _ _ _ RateRequest.program RateStore.wait P i _ (served key W) hc hg
    rw [hunserved, hserved, decide_eq_true rfl] at hcount
    exact hcount
  have hrate : RateRequest.atRate key max windowMs (.check routeId clientIp max windowMs failClosed) := h.rate _ hmem
  refine ⟨?_, Pool.forall_going h.rate hc hg hrate, ?_, ?_, ?_, ?_, ?_⟩
  · rw [hshared]
    exact h.up
  · rw [hshared]
    exact past_going h.past hc hg
  · intro w
    have hcount := @Pool.count_going _ _ _ _ _ RateRequest.program RateStore.wait P i _ (allowedIn key w) hc hg
    have hcapped := h.capped w
    have hnew : allowedCount key w (rateStep P (.call i)) ≤ allowedCount key w P +
        (if allowedIn key w ⟨.check routeId clientIp max windowMs failClosed, [s₀] ++ [P.shared]⟩ = true then 1 else 0) := by
      exact Nat.le.intro hcount
    by_cases ha : allowedIn key w ⟨.check routeId clientIp max windowMs failClosed, [s₀] ++ [P.shared]⟩ = true
    · -- It is allowed by a count that holds all checks of its window.
      have hw : w = W := by
        have hs := allowed_served ha
        rw [hserved w] at hs
        exact of_decide_eq_true hs
      subst hw
      have hallowed : row'.count ≤ max := by
        rw [hrow', hW]
        exact allowed_counted h.up hk ha
      have hle := allowed_le_served key w (rateStep P (.call i))
      omega
    · rw [if_neg ha] at hnew
      omega
  · intro row hrow
    rw [hget] at hrow
    cases hrow
    rw [hstart]
    refine Pool.forall_going hlatest hc hg ?_
    intro w hw
    rw [hserved w] at hw
    exact Nat.le_of_eq (of_decide_eq_true hw)
  · intro row hrow
    rw [hget] at hrow
    cases hrow
    rw [hstart, hservedCount]
    exact hbefore
  · intro hnone
    rw [hget] at hnone
    cases hnone

/-- One move in order. -/
theorem caps_step (hw0 : 0 < windowMs) (hw : windowMs ≤ 3600000) (h : Caps key max windowMs P)
    (m : Move Nat) (ho : InOrder key P m) : Caps key max windowMs (rateStep P m) := by
  cases m with
  | other d =>
    refine ⟨h.up, h.rate, ?_, h.capped, h.latest, h.counts, ?_⟩
    · intro c hc s hs
      exact Nat.le_trans (h.past c hc s hs) (Nat.le_add_right _ _)
    · intro hnone c hc v hv
      obtain ⟨hle, hway⟩ := h.gone hnone c hc v hv
      exact ⟨Nat.le_trans hle (Nat.le_add_right _ _), hway⟩
  | call i =>
    cases hc : P.calls[i]? with
    | none =>
      rw [rateStep, Pool.step_none hc]
      exact h
    | some c =>
      obtain ⟨request, seen⟩ := c
      have hmem := List.mem_of_getElem? hc
      cases seen with
      | nil => exact caps_clock hw0 h hc rfl
      | cons s₀ seen =>
        cases seen with
        | cons s₁ seen =>
          have he : Call.ended RateRequest.program (⟨request, s₀ :: s₁ :: seen⟩ : RateCall) = true := by
            rw [rate_ended]
            simp
          rw [rateStep, Pool.step_ended hc he]
          exact h
        | nil =>
          cases request with
          | cleanup => exact caps_cleanup hw h hc ho
          | check routeId clientIp max' windowMs' failClosed =>
            by_cases hk : rateKey routeId clientIp = key
            · obtain ⟨rfl, rfl⟩ := h.rate _ hmem hk
              exact caps_count h hk hc ho
            · have hshared : (rateStep P (.call i)).shared =
                  (upsert (rateKey routeId clientIp) (windowOf s₀.now windowMs') P.shared).2 := by
                rw [rateStep, Pool.step_going hc rfl]
                exact check_counts routeId clientIp max' windowMs' failClosed s₀ P.shared
              rw [upsert, if_neg (by rw [h.up]; decide)] at hshared
              refine caps_apart h hc rfl rfl (by simp [windowRead, hk]) (by rw [hshared]; exact h.up) (by rw [hshared]) ?_
              left
              rw [hshared]
              dsimp only
              rw [Table.get?_upsert, if_neg (Ne.symm hk)]

end Step

/-! ## Runs -/

/-- Checks and clean-ups about to be made. -/
def ratePool (s : RateStore) (requests : List RateRequest) : Pool RateStore RateCall := ⟨s, requests.map Call.start⟩

theorem caps_start {key : String} {max windowMs : Nat} {s : RateStore} (hup : s.up = true) {requests : List RateRequest}
    (hrate : ∀ r ∈ requests, r.atRate key max windowMs) : Caps key max windowMs (ratePool s requests) := by
  have hserved : ∀ c ∈ (ratePool s requests).calls, ∀ w, served key w c = false := by
    intro c hc w
    obtain ⟨r, -, rfl⟩ := List.mem_map.1 hc
    simp [served, Call.start]
  have hzero : ∀ w, servedCount key w (ratePool s requests) = 0 := by
    intro w
    rw [servedCount, List.countP_eq_zero]
    intro c hc
    rw [hserved c hc w]
    decide
  refine ⟨hup, ?_, ?_, ?_, ?_, ?_, ?_⟩
  · intro c hc
    obtain ⟨r, hr, rfl⟩ := List.mem_map.1 hc
    exact hrate r hr
  · intro c hc t ht
    obtain ⟨r, -, rfl⟩ := List.mem_map.1 hc
    cases ht
  · intro w
    have hle := allowed_le_served key w (ratePool s requests)
    have hz := hzero w
    omega
  · intro row _ c hc w hw
    rw [hserved c hc w] at hw
    cases hw
  · intro row _
    rw [hzero]
    exact Nat.zero_le _
  · intro _ c hc v hv
    rw [hserved c hc v] at hv
    cases hv

theorem rate_limit_caps (key : String) (max windowMs : Nat) (hw0 : 0 < windowMs) (hw : windowMs ≤ 3600000)
    (s : RateStore) (hup : s.up = true) (requests : List RateRequest) (hrate : ∀ r ∈ requests, r.atRate key max windowMs)
    (moves : List (Move Nat)) (ho : Along rateStep (InOrder key) (ratePool s requests) moves) (w : Nat) :
    allowedCount key w (run rateStep (ratePool s requests) moves) ≤ max := by
  have hcaps : Caps key max windowMs (run rateStep (ratePool s requests) moves) :=
    run_keeps (I := Caps key max windowMs) (fun P m h hm => caps_step hw0 hw h m hm) (caps_start hup hrate) ho
  exact hcaps.capped w

/-! ## A check that comes late -/

/-- The database, a millisecond before the next second. -/
def beforeTheSecond : RateStore := ⟨999, true, .empty⟩

/-- Three requests of one client, at one a second. -/
def threeChecks : List RateRequest := List.replicate 3 (.check "r" "::1" 1 1000 false)

theorem threeChecks_rate : ∀ r ∈ threeChecks, r.atRate "r:::1" 1 1000 := by
  intro r hr
  obtain ⟨-, rfl⟩ := List.mem_replicate.1 hr
  exact fun _ => ⟨rfl, rfl⟩

theorem rate_limit_caps_in_turn :
    allowedCount "r:::1" 1000 (run rateStep (ratePool beforeTheSecond threeChecks)
      [.call 0, .call 0, .other 1, .call 1, .call 1, .call 2, .call 2]) ≤ 1 := by
  exact rate_limit_caps "r:::1" 1 1000 (by decide) (by decide) beforeTheSecond rfl threeChecks threeChecks_rate _
    (by decide +kernel) 1000

theorem a_late_check_resets :
    ¬∀ (key : String) (max windowMs : Nat), 1 ≤ max → max ≤ 100000 → 1000 ≤ windowMs → windowMs ≤ 3600000 →
      ∀ (s : RateStore), s.up = true → ∀ requests, (∀ r ∈ requests, r.atRate key max windowMs) →
        ∀ moves w, allowedCount key w (run rateStep (ratePool s requests) moves) ≤ max := by
  intro h
  -- The first reads the clock in one second and counts itself in the next, after the second.
  have hcap := h "r:::1" 1 1000 (by decide) (by decide) (by decide) (by decide) beforeTheSecond rfl threeChecks threeChecks_rate
    [.call 0, .other 1, .call 1, .call 1, .call 0, .call 2, .call 2] 1000
  exact absurd hcap (by decide +kernel)

end ClusterGate
