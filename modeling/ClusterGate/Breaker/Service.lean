/-
  ClusterGate.Breaker.Service — the circuit breaker of a route
  (`services/circuitBreakerService.ts`).

  Every function is given the id of one route and reads and writes that route's row only,
  so the store is this row, and the clock. What follows an opening or a closing and does
  not touch the breaker's columns (a log line, the incident with the route's name) is left
  out.
  - `check_spec`: what a check admits and writes, by the row it is given.
  - `recordSuccess_spec`, `recordFailure_spec`: what an outcome leaves of a row.
-/

import ClusterGate.Errors
import ClusterGate.Lib.Async

namespace ClusterGate

open Lib Async

inductive CBState
  | CLOSED | OPEN | HALF_OPEN
  deriving DecidableEq

/-- The breaker's columns of a route. Instants are in milliseconds. -/
structure Breaker where
  circuitBreakerEnabled : Bool
  cbFailureThreshold : Nat
  cbRecoveryTimeout : Int
  cbState : CBState
  cbFailureCount : Nat
  cbLastFailureAt : Option Int
  cbOpenedAt : Option Int
  deriving DecidableEq

structure CircuitBreakerResult where
  allowed : Bool
  state : CBState
  deriving DecidableEq

structure BreakerStore where
  now : Int
  route : Option Breaker
  deriving DecidableEq

namespace BreakerStore

/-- `Date.now()` -/
def clock : Act BreakerStore Err Int := fun s => (.ok s.now, s)

def findUnique : Act BreakerStore Err (Option Breaker) := fun s => (.ok s.route, s)

def update (data : Breaker → Breaker) : Act BreakerStore Err Unit := fun s =>
  match s.route with
  | none => (.error (.prisma "P2025"), s)
  | some route => (.ok (), { s with route := some (data route) })

end BreakerStore

open BreakerStore

namespace Breaker

/-- The `data` of the writes. -/
def halfOpened (r : Breaker) : Breaker := { r with cbState := .HALF_OPEN }

def reset (r : Breaker) : Breaker :=
  { r with cbState := .CLOSED, cbFailureCount := 0, cbOpenedAt := none, cbLastFailureAt := none }

def forgiven (r : Breaker) : Breaker := { r with cbFailureCount := 0 }

def reopened (now : Int) (r : Breaker) : Breaker :=
  { r with cbState := .OPEN, cbOpenedAt := some now, cbLastFailureAt := some now }

def tripped (newCount : Nat) (now : Int) (r : Breaker) : Breaker :=
  { r with cbState := .OPEN, cbFailureCount := newCount, cbLastFailureAt := some now, cbOpenedAt := some now }

def counted (newCount : Nat) (now : Int) (r : Breaker) : Breaker :=
  { r with cbFailureCount := newCount, cbLastFailureAt := some now }

end Breaker

def resetCircuitBreaker : Async BreakerStore Err Unit := await (update Breaker.reset)

/-- `checkCircuitBreaker`, from the reading of the clock on. -/
def checkOpen (route : Breaker) (openedAt now : Int) : Async BreakerStore Err CircuitBreakerResult :=
  if now - openedAt ≥ route.cbRecoveryTimeout then do
    await (update Breaker.halfOpened)
    pure ⟨true, .HALF_OPEN⟩
  else pure ⟨false, .OPEN⟩

/-- Whether a request may go through, by the row `route` it was given. -/
def checkCircuitBreaker (route : Breaker) : Async BreakerStore Err CircuitBreakerResult :=
  if route.circuitBreakerEnabled = false then pure ⟨true, .CLOSED⟩
  else match route.cbState with
    | .CLOSED => pure ⟨true, .CLOSED⟩
    | .OPEN => match route.cbOpenedAt with
      | none => do
        resetCircuitBreaker
        pure ⟨true, .CLOSED⟩
      | some openedAt => do
        let now ← await clock
        checkOpen route openedAt now
    | .HALF_OPEN => pure ⟨true, .HALF_OPEN⟩

/-- `recordSuccess`, from its row on. -/
def successOf : Option Breaker → Async BreakerStore Err Unit
  | none => pure ()
  | some route =>
    if route.circuitBreakerEnabled = false then pure ()
    else match route.cbState with
      | .HALF_OPEN => resetCircuitBreaker
      | .CLOSED => await (update Breaker.forgiven)
      | .OPEN => pure ()

def recordSuccess : Async BreakerStore Err Unit := do
  let route ← await findUnique
  successOf route

/-- The write of `recordFailure`, by the row it read and the clock. -/
def writeFailure (route : Breaker) (now : Int) : Async BreakerStore Err Unit :=
  if route.cbState = .HALF_OPEN then await (update (Breaker.reopened now))
  else if route.cbFailureCount + 1 ≥ route.cbFailureThreshold then
    await (update (Breaker.tripped (route.cbFailureCount + 1) now))
  else await (update (Breaker.counted (route.cbFailureCount + 1) now))

/-- `recordFailure`, from its row on. -/
def failureOf : Option Breaker → Async BreakerStore Err Unit
  | none => pure ()
  | some route =>
    if route.circuitBreakerEnabled = false then pure ()
    else do
      let now ← await clock
      writeFailure route now

def recordFailure : Async BreakerStore Err Unit := do
  let route ← await findUnique
  failureOf route

/-! ## What the steps do -/

namespace Breaker

/-- What a check of the row `r` writes, at `now`. -/
def checked (r : Breaker) (now : Int) : Breaker → Breaker :=
  if r.circuitBreakerEnabled = true ∧ r.cbState = .OPEN then
    match r.cbOpenedAt with
    | none => reset
    | some openedAt => if now - openedAt ≥ r.cbRecoveryTimeout then halfOpened else id
  else id

/-- Whether the row `r` holds a request back, at `now`. -/
def holdsBack (r : Breaker) (now : Int) : Bool :=
  r.circuitBreakerEnabled && r.cbState = .OPEN &&
    match r.cbOpenedAt with
    | none => false
    | some openedAt => now - openedAt < r.cbRecoveryTimeout

end Breaker

/-- The state a check returns. -/
def checkedState (r : Breaker) (now : Int) : CBState :=
  if r.circuitBreakerEnabled = false then .CLOSED
  else match r.cbState with
    | .CLOSED => .CLOSED
    | .OPEN => match r.cbOpenedAt with
      | none => .CLOSED
      | some openedAt => if now - openedAt ≥ r.cbRecoveryTimeout then .HALF_OPEN else .OPEN
    | .HALF_OPEN => .HALF_OPEN

/-- A check, run by itself: the row it was given decides, the stored row is written. -/
theorem check_spec (route r : Breaker) (now : Int) :
    (checkCircuitBreaker route).run ⟨now, some r⟩ =
      (.ok ⟨!route.holdsBack now, checkedState route now⟩, ⟨now, some (route.checked now r)⟩) := by
  unfold checkCircuitBreaker Breaker.holdsBack Breaker.checked checkedState
  cases he : route.circuitBreakerEnabled with
  | false => rfl
  | true =>
    cases hs : route.cbState with
    | CLOSED => rfl
    | HALF_OPEN => rfl
    | OPEN =>
      cases ho : route.cbOpenedAt with
      | none => rfl
      | some openedAt =>
        by_cases ht : now - openedAt ≥ route.cbRecoveryTimeout
        · have hlt : ¬now - openedAt < route.cbRecoveryTimeout := by omega
          simp [checkOpen, ht, hlt, Act.bind_run, clock, update]
          rfl
        · have hlt : now - openedAt < route.cbRecoveryTimeout := by omega
          simp [checkOpen, ht, hlt, Act.bind_run, clock]
          rfl

/-- What a success leaves of the row. -/
def Breaker.succeeded (r : Breaker) : Breaker :=
  if r.circuitBreakerEnabled = true then
    match r.cbState with
    | .HALF_OPEN => r.reset
    | .CLOSED => r.forgiven
    | .OPEN => r
  else r

theorem recordSuccess_spec (r : Breaker) (now : Int) :
    recordSuccess.run ⟨now, some r⟩ = (.ok (), ⟨now, some r.succeeded⟩) := by
  rw [recordSuccess, run_bind, Act.bind_run]
  show (successOf (some r)).run ⟨now, some r⟩ = _
  simp only [successOf, Breaker.succeeded]
  cases he : r.circuitBreakerEnabled with
  | false => rfl
  | true => cases hs : r.cbState <;> rfl

/-- What a failure leaves of the row. -/
def Breaker.failed (r : Breaker) (now : Int) : Breaker :=
  if r.circuitBreakerEnabled = true then
    if r.cbState = .HALF_OPEN then r.reopened now
    else if r.cbFailureCount + 1 ≥ r.cbFailureThreshold then r.tripped (r.cbFailureCount + 1) now
    else r.counted (r.cbFailureCount + 1) now
  else r

theorem recordFailure_spec (r : Breaker) (now : Int) :
    recordFailure.run ⟨now, some r⟩ = (.ok (), ⟨now, some (r.failed now)⟩) := by
  rw [recordFailure, run_bind, Act.bind_run]
  show (failureOf (some r)).run ⟨now, some r⟩ = _
  simp only [failureOf, Breaker.failed]
  cases he : r.circuitBreakerEnabled with
  | false => rfl
  | true =>
    show (writeFailure r now).run ⟨now, some r⟩ = _
    unfold writeFailure
    rw [run_ite, run_ite]
    by_cases hh : r.cbState = .HALF_OPEN
    · rw [if_pos hh, if_pos rfl, if_pos hh]
      rfl
    by_cases hc : r.cbFailureCount + 1 ≥ r.cbFailureThreshold
    · rw [if_neg hh, if_pos hc, if_pos rfl, if_neg hh, if_pos hc]
      rfl
    · rw [if_neg hh, if_neg hc, if_pos rfl, if_neg hh, if_neg hc]
      rfl

end ClusterGate
