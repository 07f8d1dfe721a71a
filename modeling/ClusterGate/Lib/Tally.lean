/-
  ClusterGate.Lib.Tally — a measure that every answer of a kind adds to.

  Calls take turns over a shared state. `Tallies μ p x` says of what is left of a call that
  the step with which it returns an answer that satisfies `p` adds one to the measure `μ`,
  and that no other step of it changes `μ`.
  - `tallies_await`: the rule for a step and what follows it.
  - `Pool.tally_call`: the balance of one step of a call.
  - `Pool.tally_run`: where every call tallies and the world loses what `loss` says, the
    measure and what was lost make up what there was and the answers returned since. It is
    said of runs that end in a state of a kind (`Alive`) that cannot come about in them.
-/

import ClusterGate.Lib.Async

namespace ClusterGate.Lib

namespace Async

variable {σ ε α β : Type}

/-- The call has returned an answer that satisfies `p`. -/
def gave (p : α → Bool) : Async σ ε α → Bool
  | .done (.ok a) => p a
  | .done (.error _) => false
  | .step _ _ => false

def Tallies (μ : σ → Nat) (p : α → Bool) : Async σ ε α → Prop
  | .done _ => True
  | .step act rest => ∀ s, μ (act s) = μ s + (if (rest s).gave p then 1 else 0) ∧ Tallies μ p (rest s)

variable {μ : σ → Nat} {p : α → Bool}

@[simp] theorem gave_pure (a : α) : (pure a : Async σ ε α).gave p = p a := rfl

@[simp] theorem gave_await (x : Act σ ε β) (f : β → Async σ ε α) : (await x >>= f).gave p = false := rfl

theorem gave_going {x : Async σ ε α} (h : x.ended = false) : x.gave p = false := by
  cases x with
  | done outcome => cases h
  | step act rest => rfl

theorem tallies_pure (a : α) : Tallies μ p (pure a : Async σ ε α) := trivial

theorem tallies_await {x : Act σ ε β} {f : β → Async σ ε α}
    (hok : ∀ s b, (x s).1 = .ok b → μ (x s).2 = μ s + (if (f b).gave p then 1 else 0) ∧ Tallies μ p (f b))
    (herror : ∀ s e, (x s).1 = .error e → μ (x s).2 = μ s) : Tallies μ p (await x >>= f) := by
  intro s
  show μ (x s).2 = μ s + (if (bind (.done (x s).1) f).gave p then 1 else 0) ∧ Tallies μ p (bind (.done (x s).1) f)
  cases hx : (x s).1 with
  | ok b => exact hok s b hx
  | error e =>
    rw [herror s e hx]
    exact ⟨rfl, trivial⟩

theorem tallies_after (seen : List σ) {x : Async σ ε α} (h : Tallies μ p x) : Tallies μ p (x.after seen) := by
  induction seen generalizing x with
  | nil => exact h
  | cons s seen ih =>
    cases x with
    | done outcome => exact ih trivial
    | step act rest => exact ih (h s).2

theorem tallies_advance {x : Async σ ε α} (h : Tallies μ p x) (hg : x.ended = false) (s : σ) :
    μ (x.advance s).2 = μ s + (if (x.advance s).1.gave p then 1 else 0) := by
  cases x with
  | done outcome => cases hg
  | step act rest => exact (h s).1

end Async

namespace Pool

open Async

variable {ρ σ ε α η : Type} (program : ρ → Async σ ε α) (env : η → σ → σ) (p : α → Bool)
  (loss : η → σ → Nat)

/-- How many calls have returned an answer that satisfies `p`. -/
def given (P : Pool σ (Call ρ σ)) : Nat := P.calls.countP fun c => (c.left program).gave p

def lossAt (P : Pool σ (Call ρ σ)) : Move η → Nat
  | .call _ => 0
  | .other e => loss e P.shared

/-- What the moves of a run lose. -/
def lost : Pool σ (Call ρ σ) → List (Move η) → Nat
  | _, [] => 0
  | P, m :: ms => P.lossAt loss m + lost (P.step (Call.advance program) env m) ms

variable {program env p loss} {μ : σ → Nat} {Alive : σ → Prop} {P : Pool σ (Call ρ σ)} {ms : List (Move η)}

/-- A step of a call: the measure grows by the answer it returns. -/
theorem tally_call (h : ∀ request, Tallies μ p (program request)) (i : Nat) :
    μ (P.step (Call.advance program) env (.call i)).shared + P.given program p =
      μ P.shared + (P.step (Call.advance program) env (.call i)).given program p := by
  cases hc : P.calls[i]? with
  | none => rw [step_none hc]
  | some c =>
    cases hg : c.ended program with
    | true => rw [step_ended hc hg]
    | false =>
      have hcount := @count_going ρ σ ε α η program env P i c (fun c => (c.left program).gave p) hc hg
      have hstep := tallies_advance (tallies_after c.seen (h c.request)) hg P.shared
      have hgoing : (c.left program).gave p = false := gave_going hg
      rw [hgoing, Call.left_concat, if_neg (by decide), Nat.add_zero] at hcount
      unfold given
      rw [hcount, step_going hc hg]
      show μ ((c.left program).advance P.shared).2 + _ = _
      rw [show μ ((c.left program).advance P.shared).2 = _ from hstep]
      rw [Nat.add_assoc]
      exact congrArg (μ P.shared + ·) (Nat.add_comm _ _)

/-- A state of the kind comes from one of the kind. -/
theorem alive_step (hcall : ∀ request, EveryStep (fun s s' => Alive s' → Alive s) (program request))
    (hother : ∀ e s, Alive (env e s) → Alive s) (m : Move η)
    (h : Alive (P.step (Call.advance program) env m).shared) : Alive P.shared := by
  cases m with
  | other e => exact hother e P.shared h
  | call i =>
    cases hc : P.calls[i]? with
    | none =>
      rw [step_none hc] at h
      exact h
    | some c =>
      cases hg : c.ended program with
      | true =>
        rw [step_ended hc hg] at h
        exact h
      | false =>
        rw [step_going hc hg] at h
        exact everyStep_advance (everyStep_after c.seen (hcall c.request)) hg P.shared h

theorem alive_run (hcall : ∀ request, EveryStep (fun s s' => Alive s' → Alive s) (program request))
    (hother : ∀ e s, Alive (env e s) → Alive s) (h : Alive (run (step (Call.advance program) env) P ms).shared) :
    Alive P.shared := by
  induction ms generalizing P with
  | nil => exact h
  | cons m ms ih => exact alive_step hcall hother m (ih h)

/-- The balance of a run. -/
theorem tally_run (htally : ∀ request, Tallies μ p (program request))
    (hcall : ∀ request, EveryStep (fun s s' => Alive s' → Alive s) (program request))
    (hother : ∀ e s, Alive (env e s) → Alive s) (hloss : ∀ e s, Alive (env e s) → μ (env e s) + loss e s = μ s)
    (h : Alive (run (step (Call.advance program) env) P ms).shared) :
    μ (run (step (Call.advance program) env) P ms).shared + P.lost program env loss ms + P.given program p =
      μ P.shared + (run (step (Call.advance program) env) P ms).given program p := by
  induction ms generalizing P with
  | nil => rfl
  | cons m ms ih =>
    have hrest := ih h
    have halive : Alive (P.step (Call.advance program) env m).shared := alive_run hcall hother h
    have hm : μ (P.step (Call.advance program) env m).shared + P.lossAt loss m + P.given program p =
        μ P.shared + (P.step (Call.advance program) env m).given program p := by
      cases m with
      | call i => exact tally_call htally i
      | other e =>
        have he := hloss e P.shared halive
        show μ (env e P.shared) + loss e P.shared + P.given program p = μ P.shared + P.given program p
        rw [he]
    rw [run_cons, lost]
    omega

end Pool

end ClusterGate.Lib
