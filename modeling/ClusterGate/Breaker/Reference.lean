/-
  ClusterGate.Breaker.Reference — the breaker against the automaton it stands for.

  Requests are taken one at a time: one arrives and is let through or not, and if it was
  its outcome is recorded before the next arrives. `Reference` is the automaton the
  service's comment draws: CLOSED counts failures in a row, OPEN knows since when,
  HALF_OPEN has its one probe under way and lets nobody else through. The code keeps the
  same in five columns, of which every write sets some and leaves the others stale.
  - `Stands`: which rows stand for which state of the automaton. A count is only read in
    CLOSED, an instant only in OPEN, and HALF_OPEN is only met with a probe under way.
  - `breaker_refines_reference`: over every run both let the same requests through, and in
    every state of it a CLOSED row counts less than the threshold and an OPEN one has its
    instant.
-/

import ClusterGate.Breaker.Service

namespace ClusterGate

open Lib

/-! ## One request at a time -/

/-- A request arrives, or the one that was let through ends. -/
inductive Half
  | arrives (now : Int)
  | ends (success : Bool) (now : Int)
  deriving DecidableEq

/-- Something that lets requests through and is told how they end. -/
structure Gate (α : Type) where
  arrive : Int → α → Bool × α
  finish : Bool → Int → α → α

/-- A gate's state, and whether a request is under way. -/
structure OneAtATime (α : Type) where
  state : α
  underWay : Bool
  deriving DecidableEq

/-- The answer is whether an arriving request is let through. None arrives while one is
    under way, and none ends before. -/
def Gate.half {α : Type} (G : Gate α) (s : OneAtATime α) : Half → Option Bool × OneAtATime α
  | .arrives now =>
    if s.underWay = true then (none, s)
    else (some (G.arrive now s.state).1, ⟨(G.arrive now s.state).2, (G.arrive now s.state).1⟩)
  | .ends success now => if s.underWay = true then (none, ⟨G.finish success now s.state, false⟩) else (none, s)

/-! ## The two gates -/

/-- The row a step leaves. -/
def rowLeft (x : Act BreakerStore Err Unit) (now : Int) (r : Breaker) : Breaker := (x ⟨now, some r⟩).2.route.getD r

/-- The service, on the row it reads for a request. -/
def breakerGate : Gate Breaker where
  arrive now r :=
    let result := (checkCircuitBreaker r).run ⟨now, some r⟩
    (result.1.toOption.any CircuitBreakerResult.allowed, result.2.route.getD r)
  finish success now r := if success = true then rowLeft recordSuccess.run now r else rowLeft recordFailure.run now r

inductive Reference
  | closed (failures : Nat)
  | opened (openedAt : Int)
  | halfOpen
  deriving DecidableEq

/-- The automaton, of threshold `k` and recovery timeout `T`. -/
def referenceGate (k : Nat) (T : Int) : Gate Reference where
  arrive now
    | .closed failures => (true, .closed failures)
    | .opened openedAt => if now - openedAt < T then (false, .opened openedAt) else (true, .halfOpen)
    | .halfOpen => (false, .halfOpen)
  finish success now
    | .closed failures =>
      if success = true then .closed 0 else if failures + 1 ≥ k then .opened now else .closed (failures + 1)
    | .opened openedAt => .opened openedAt
    | .halfOpen => if success = true then .closed 0 else .opened now

/-! ## The simulation -/

/-- The row stands for the state of the automaton. -/
def Stands (k : Nat) (T : Int) (s : OneAtATime Breaker) (t : OneAtATime Reference) : Prop :=
  s.underWay = t.underWay ∧ s.state.circuitBreakerEnabled = true ∧ s.state.cbFailureThreshold = k ∧
    s.state.cbRecoveryTimeout = T ∧
    match t.state with
    | .closed failures => s.state.cbState = .CLOSED ∧ s.state.cbFailureCount = failures ∧ failures < k
    | .opened openedAt => s.state.cbState = .OPEN ∧ s.state.cbOpenedAt = some openedAt ∧ t.underWay = false
    | .halfOpen => s.state.cbState = .HALF_OPEN ∧ t.underWay = true

theorem breaker_arrives (now : Int) (r : Breaker) : breakerGate.arrive now r = (!r.holdsBack now, r.checked now r) := by
  unfold breakerGate
  dsimp only
  rw [check_spec]
  rfl

theorem breaker_ends (success : Bool) (now : Int) (r : Breaker) :
    breakerGate.finish success now r = if success = true then r.succeeded else r.failed now := by
  unfold breakerGate rowLeft
  dsimp only
  rw [recordSuccess_spec, recordFailure_spec]
  rfl

section Step

variable {k : Nat} {T : Int} {s : OneAtATime Breaker} {t : OneAtATime Reference}

theorem stands_arrives (h : Stands k T s t) (now : Int) :
    (breakerGate.half s (.arrives now)).1 = ((referenceGate k T).half t (.arrives now)).1 ∧
      Stands k T (breakerGate.half s (.arrives now)).2 ((referenceGate k T).half t (.arrives now)).2 := by
  obtain ⟨hu, he, hk, hT, hs⟩ := h
  by_cases hw : t.underWay = true
  · have hws : s.underWay = true := hu.trans hw
    simp only [Gate.half, if_pos hw, if_pos hws]
    exact ⟨trivial, hu, he, hk, hT, hs⟩
  have hws : ¬s.underWay = true := by rw [hu]; exact hw
  simp only [Gate.half, if_neg hw, if_neg hws, breaker_arrives]
  cases ht : t.state with
  | closed failures =>
    rw [ht] at hs
    obtain ⟨hc, hn, hlt⟩ := hs
    have hback : s.state.holdsBack now = false := by simp [Breaker.holdsBack, hc]
    have hsame : s.state.checked now s.state = s.state := by simp [Breaker.checked, hc]
    simp only [hback, hsame, referenceGate]
    exact ⟨rfl, rfl, he, hk, hT, hc, hn, hlt⟩
  | opened openedAt =>
    rw [ht] at hs
    obtain ⟨ho, hat, -⟩ := hs
    by_cases hin : now - openedAt < T
    · have hback : s.state.holdsBack now = true := by simp [Breaker.holdsBack, he, ho, hat, hT, hin]
      have hge : ¬now - openedAt ≥ T := by omega
      have hsame : s.state.checked now s.state = s.state := by
        simp only [Breaker.checked, he, ho, hat, hT, if_neg hge, true_and, if_true, id_eq]
      simp only [hback, hsame, referenceGate, if_pos hin]
      exact ⟨rfl, rfl, he, hk, hT, ho, hat, rfl⟩
    · have hback : s.state.holdsBack now = false := by simp [Breaker.holdsBack, ho, hat, hT, hin]
      have hge : now - openedAt ≥ T := by omega
      have hhalf : s.state.checked now s.state = s.state.halfOpened := by
        simp only [Breaker.checked, he, ho, hat, hT, if_pos hge, true_and, if_true]
      simp only [hback, hhalf, referenceGate, if_neg hin]
      exact ⟨rfl, rfl, he, hk, hT, rfl, rfl⟩
  | halfOpen =>
    rw [ht] at hs
    exact absurd hs.2 hw

theorem stands_ends (hk1 : 1 ≤ k) (h : Stands k T s t) (success : Bool) (now : Int) :
    (breakerGate.half s (.ends success now)).1 = ((referenceGate k T).half t (.ends success now)).1 ∧
      Stands k T (breakerGate.half s (.ends success now)).2 ((referenceGate k T).half t (.ends success now)).2 := by
  obtain ⟨hu, he, hk, hT, hs⟩ := h
  by_cases hw : ¬t.underWay = true
  · have hws : ¬s.underWay = true := by rw [hu]; exact hw
    simp only [Gate.half, if_neg hw, if_neg hws]
    exact ⟨trivial, hu, he, hk, hT, hs⟩
  have hw : t.underWay = true := by simpa using hw
  have hws : s.underWay = true := hu.trans hw
  simp only [Gate.half, if_pos hw, if_pos hws, breaker_ends]
  refine ⟨trivial, ?_⟩
  cases ht : t.state with
  | closed failures =>
    rw [ht] at hs
    obtain ⟨hc, hn, hlt⟩ := hs
    cases success with
    | true => exact ⟨rfl, by simp [Breaker.succeeded, he, hc, Breaker.forgiven, referenceGate, hk, hT]; omega⟩
    | false =>
      by_cases hge : failures + 1 ≥ k
      · have hfail : s.state.failed now = s.state.tripped (failures + 1) now := by
          simp [Breaker.failed, he, hc, hn, hk, hge]
        simp only [hfail, referenceGate, Bool.false_eq_true, if_false, if_pos hge]
        exact ⟨rfl, he, hk, hT, rfl, rfl, rfl⟩
      · have hfail : s.state.failed now = s.state.counted (failures + 1) now := by
          simp [Breaker.failed, he, hc, hn, hk, hge]
        simp only [hfail, referenceGate, Bool.false_eq_true, if_false, if_neg hge]
        exact ⟨rfl, he, hk, hT, hc, rfl, by omega⟩
  | opened openedAt =>
    rw [ht] at hs
    rw [hs.2.2] at hw
    cases hw
  | halfOpen =>
    rw [ht] at hs
    cases success with
    | true => exact ⟨rfl, by simp [Breaker.succeeded, he, hs.1, Breaker.reset, referenceGate, hk, hT]; omega⟩
    | false =>
      have hfail : s.state.failed now = s.state.reopened now := by simp [Breaker.failed, he, hs.1]
      simp only [hfail, referenceGate, Bool.false_eq_true, if_false]
      exact ⟨rfl, he, hk, hT, rfl, rfl, rfl⟩

theorem stands_half (hk1 : 1 ≤ k) (h : Stands k T s t) (e : Half) :
    (breakerGate.half s e).1 = ((referenceGate k T).half t e).1 ∧
      Stands k T (breakerGate.half s e).2 ((referenceGate k T).half t e).2 := by
  cases e with
  | arrives now => exact stands_arrives h now
  | ends success now => exact stands_ends hk1 h success now

/-- What a row that stands for some state satisfies. -/
theorem stands_row (h : Stands k T s t) :
    (s.state.cbState = .CLOSED → s.state.cbFailureCount < k) ∧
      (s.state.cbState = .OPEN → s.state.cbOpenedAt.isSome = true) := by
  obtain ⟨-, -, -, -, hs⟩ := h
  cases ht : t.state with
  | closed failures =>
    rw [ht] at hs
    refine ⟨fun _ => by omega, fun ho => ?_⟩
    rw [hs.1] at ho
    cases ho
  | opened openedAt =>
    rw [ht] at hs
    refine ⟨fun hc => ?_, fun _ => by rw [hs.2.1]; rfl⟩
    rw [hs.1] at hc
    cases hc
  | halfOpen =>
    rw [ht] at hs
    refine ⟨fun hc => ?_, fun ho => ?_⟩
    · rw [hs.1] at hc
      cases hc
    · rw [hs.1] at ho
      cases ho

end Step

theorem breaker_refines_reference (k : Nat) (T : Int) (hk : 1 ≤ k) (r : Breaker)
    (he : r.circuitBreakerEnabled = true) (hkr : r.cbFailureThreshold = k) (hT : r.cbRecoveryTimeout = T)
    (hc : r.cbState = .CLOSED) (hn : r.cbFailureCount = 0) (halves : List Half) :
    answers breakerGate.half ⟨r, false⟩ halves = answers (referenceGate k T).half ⟨.closed 0, false⟩ halves ∧
      ∀ pre post, halves = pre ++ post →
        ((final breakerGate.half ⟨r, false⟩ pre).state.cbState = .CLOSED →
            (final breakerGate.half ⟨r, false⟩ pre).state.cbFailureCount < k) ∧
          ((final breakerGate.half ⟨r, false⟩ pre).state.cbState = .OPEN →
            (final breakerGate.half ⟨r, false⟩ pre).state.cbOpenedAt.isSome = true) := by
  have hstart : Stands k T ⟨r, false⟩ ⟨.closed 0, false⟩ := ⟨rfl, he, hkr, hT, hc, hn, by omega⟩
  refine ⟨answers_eq (R := Stands k T) (fun s t e h => stands_half hk h e) hstart halves, ?_⟩
  intro pre post hpre
  exact stands_row (final_related (R := Stands k T) (fun s t e h => (stands_half hk h e).2) hstart pre)

/-- The breaker of a route that nothing has failed on. -/
def newBreaker (k : Nat) (T : Int) : Breaker := ⟨true, k, T, .CLOSED, 0, none, none⟩

/-- Two failures, a request too early, a probe that fails, and one more request. -/
def trippingHalves : List Half :=
  [.arrives 0, .ends false 5, .arrives 10, .ends false 20, .arrives 1019, .arrives 1020, .ends false 1030, .arrives 1031]

theorem breaker_refines_reference_tripping :
    answers breakerGate.half ⟨newBreaker 2 1000, false⟩ trippingHalves =
      [some true, none, some true, none, some false, some true, none, some false] := by
  have h := breaker_refines_reference 2 1000 (by decide) (newBreaker 2 1000) rfl rfl rfl rfl rfl trippingHalves
  exact h.1.trans (by decide)

end ClusterGate
