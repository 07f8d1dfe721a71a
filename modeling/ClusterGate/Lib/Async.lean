/-
  ClusterGate.Lib.Async — calls that take turns at their awaits.

  An `async` function runs by itself up to its next `await`, and other calls may run
  before it goes on. `Async σ ε α` is what is left of a call: its outcome, or its next
  atomic step on the shared state and what is left after it. A step is an `Act`
  (`await`), so a function is written as the source has it, one `await` after another.
  - `run`: a call with nothing in between, an `Act` again; `run_bind`, `run_await`: it
    takes the steps in order.
  - `EveryStep G`: every step of a call is one of `G`, whatever the state it is taken in.
  - `second_step`: a call of which only the second step is not one of `G`.
  - `Stages I Q`: what is so after each number of steps, with a rule for each construct.
  - `WritesLast`: a call that only reads before its last step; `writesLast_advance`: as long
    as it goes on the state is as it was.
  - `Call`: what was asked for and the states the steps were taken in, from which follows
    what is left of the call (`Call.left`).
  - `Pool`: calls over one shared state and a world that moves by itself. A run of a pool
    is any order of their steps.
  - `Pool.holds_call`, `Pool.holds_other`: an invariant of the shared state and of every
    call's position in it, kept by a move if the call that moved keeps it and leaves it to
    the others.
  - `Pool.at_run`: what is so of one call along a run; `Pool.seen_state`: what a call has seen
    the run has been in.
  - `Pool.count_call`: how a move changes the number of calls at a position.
  - `Pool.AtStep C`: what the step of a move meets: `C` of what its call asked for, of the states
    that call has seen and of this one. `Pool.holds_step`: an invariant that steps under
    `C` keep. `Call.Saw`, `Call.Under`: what is so of all a call has
    seen, and of the steps it has taken. `Pool.shared_iff`: where a step keeps something of the
    shared state exactly under `C`, a run does exactly if all its steps meet it.
-/

import Mathlib.Data.List.Induction
import ClusterGate.Lib.Act
import ClusterGate.Lib.Run

namespace ClusterGate.Lib

/-- What is left of a call. -/
inductive Async (σ ε α : Type) : Type
  | done (outcome : Except ε α)
  | step (act : σ → σ) (rest : σ → Async σ ε α)

namespace Async

variable {σ ε α β : Type}

def bind : Async σ ε α → (α → Async σ ε β) → Async σ ε β
  | .done (.ok a), f => f a
  | .done (.error e), _ => .done (.error e)
  | .step act rest, f => .step act fun s => (rest s).bind f

instance : Monad (Async σ ε) where
  pure a := .done (.ok a)
  bind := bind

def throw (e : ε) : Async σ ε α := .done (.error e)

/-- Go on only under `c`. -/
def require (c : Prop) [Decidable c] (e : ε) : Async σ ε Unit := if c then pure () else throw e

/-- One atomic step. -/
def await (x : Act σ ε α) : Async σ ε α := .step (fun s => (x s).2) fun s => .done (x s).1

/-- The outcome of a call as a value: a failure is caught, the steps before it stay taken. -/
def attempt : Async σ ε α → Async σ ε (Except ε α)
  | .done outcome => .done (.ok outcome)
  | .step act rest => .step act fun s => (rest s).attempt

def ended : Async σ ε α → Bool
  | .done _ => true
  | .step _ _ => false

/-- The next step of a call. -/
def advance : Async σ ε α → σ → Async σ ε α × σ
  | .done outcome, s => (.done outcome, s)
  | .step act rest, s => (rest s, act s)

/-- All steps of a call, with nothing in between. -/
def run : Async σ ε α → Act σ ε α
  | .done outcome => fun s => (outcome, s)
  | .step act rest => fun s => (rest s).run (act s)

@[simp] theorem run_pure (a : α) : (pure a : Async σ ε α).run = pure a := rfl

@[simp] theorem run_throw (e : ε) : (throw e : Async σ ε α).run = Act.throw e := rfl

@[simp] theorem run_await (x : Act σ ε α) : (await x).run = x := rfl

@[simp] theorem run_bind (x : Async σ ε α) (f : α → Async σ ε β) : (x >>= f).run = x.run >>= fun a => (f a).run := by
  funext s
  rw [Act.bind_run]
  induction x generalizing s with
  | done outcome => cases outcome <;> rfl
  | step act rest ih => exact ih s (act s)

theorem run_require (c : Prop) [Decidable c] (e : ε) : (require c e : Async σ ε Unit).run = Act.require c e := by
  unfold require Act.require
  split <;> rfl

theorem bind_assoc {γ : Type} (x : Async σ ε α) (f : α → Async σ ε β) (g : β → Async σ ε γ) :
    x >>= f >>= g = x >>= fun a => f a >>= g := by
  show (x.bind f).bind g = x.bind fun a => (f a).bind g
  induction x with
  | done outcome => cases outcome <;> rfl
  | step act rest ih =>
    show step act (fun s => ((rest s).bind f).bind g) = step act fun s => (rest s).bind fun a => (f a).bind g
    congr 1
    exact funext ih

theorem run_ite (c : Prop) [Decidable c] (x y : Async σ ε α) : (if c then x else y).run = if c then x.run else y.run := by
  split <;> rfl

/-! ## One step -/

@[simp] theorem advance_done (outcome : Except ε α) (s : σ) :
    (done outcome : Async σ ε α).advance s = (done outcome, s) := rfl

@[simp] theorem advance_pure (a : α) (s : σ) : (pure a : Async σ ε α).advance s = (pure a, s) := rfl

theorem advance_await {x : Act σ ε β} {f : β → Async σ ε α} {s s' : σ} {b : β} (h : x s = (.ok b, s')) :
    (await x >>= f).advance s = (f b, s') := by
  show (bind (.done (x s).1) f, (x s).2) = (f b, s')
  rw [h]
  rfl

theorem advance_throws {x : Act σ ε β} {f : β → Async σ ε α} {s s' : σ} {e : ε} (h : x s = (.error e, s')) :
    (await x >>= f).advance s = (throw e, s') := by
  show (bind (.done (x s).1) f, (x s).2) = (throw e, s')
  rw [h]
  rfl

/-- A requirement that holds is gone. -/
theorem require_holds {c : Prop} [Decidable c] (hc : c) (e : ε) (f : Unit → Async σ ε α) : (require c e >>= f) = f () := by
  rw [require, if_pos hc]
  rfl

theorem require_fails {c : Prop} [Decidable c] (hc : ¬c) (e : ε) (f : Unit → Async σ ε α) :
    (require c e >>= f) = throw e := by
  rw [require, if_neg hc]
  rfl

/-- A last step ends the call, one way or another. -/
theorem advance_last (x : Act σ ε β) (f : β → α) (s : σ) :
    ∃ outcome, ((await x >>= fun b => pure (f b)).advance s).1 = done outcome := by
  show ∃ outcome, (done (x s).1 : Async σ ε β).bind (fun b => pure (f b)) = done outcome
  cases (x s).1 with
  | ok b => exact ⟨.ok (f b), rfl⟩
  | error e => exact ⟨.error e, rfl⟩

/-- What is left of a call whose steps were taken in the states `seen`. -/
def after (x : Async σ ε α) (seen : List σ) : Async σ ε α := seen.foldl (fun x s => (x.advance s).1) x

@[simp] theorem after_nil (x : Async σ ε α) : x.after [] = x := rfl

@[simp] theorem after_cons (x : Async σ ε α) (s : σ) (seen : List σ) :
    x.after (s :: seen) = (x.advance s).1.after seen := rfl

@[simp] theorem after_done (outcome : Except ε α) (seen : List σ) : (done outcome : Async σ ε α).after seen = done outcome := by
  induction seen with
  | nil => rfl
  | cons s seen ih => exact ih

@[simp] theorem after_concat (x : Async σ ε α) (seen : List σ) (s : σ) :
    x.after (seen ++ [s]) = ((x.after seen).advance s).1 := by
  simp [after]

/-- No step but the last of what is left of a call changes the state. -/
def WritesLast : Async σ ε α → Prop
  | .done _ => True
  | .step act rest => ∀ s, ((rest s).ended = false → act s = s) ∧ WritesLast (rest s)

theorem writesLast_after (seen : List σ) {x : Async σ ε α} (h : WritesLast x) : WritesLast (x.after seen) := by
  induction seen generalizing x with
  | nil => exact h
  | cons s seen ih =>
    cases x with
    | done outcome => exact ih trivial
    | step act rest => exact ih (h s).2

theorem writesLast_advance {x : Async σ ε α} (h : WritesLast x) {s : σ} (hg : (x.advance s).1.ended = false) :
    (x.advance s).2 = s := by
  cases x with
  | done outcome => cases hg
  | step act rest => exact (h s).1 hg

theorem writesLast_await (x : Act σ ε α) : WritesLast (await x) := by
  intro s
  refine ⟨?_, trivial⟩
  intro hg
  cases hg

/-- Every step of what is left of a call relates the state before to the one after. -/
def EveryStep (G : σ → σ → Prop) : Async σ ε α → Prop
  | .done _ => True
  | .step act rest => ∀ s, G s (act s) ∧ EveryStep G (rest s)

section EveryStep

variable {G : σ → σ → Prop}

theorem everyStep_pure (a : α) : EveryStep G (pure a : Async σ ε α) := trivial

theorem everyStep_await {x : Act σ ε α} (h : ∀ s, G s (x s).2) : EveryStep G (await x) := fun s => ⟨h s, trivial⟩

theorem everyStep_require (c : Prop) [Decidable c] (e : ε) : EveryStep G (require c e : Async σ ε Unit) := by
  unfold require
  split <;> trivial

theorem everyStep_bind {x : Async σ ε α} {f : α → Async σ ε β} (hx : EveryStep G x) (hf : ∀ a, EveryStep G (f a)) :
    EveryStep G (x >>= f) := by
  show EveryStep G (x.bind f)
  induction x with
  | done outcome =>
    cases outcome with
    | ok a => exact hf a
    | error e => trivial
  | step act rest ih => exact fun s => ⟨(hx s).1, ih s (hx s).2⟩

theorem everyStep_after (seen : List σ) {x : Async σ ε α} (h : EveryStep G x) : EveryStep G (x.after seen) := by
  induction seen generalizing x with
  | nil => exact h
  | cons s seen ih =>
    cases x with
    | done outcome => exact ih trivial
    | step act rest => exact ih (h s).2

theorem everyStep_advance {x : Async σ ε α} (h : EveryStep G x) (hg : x.ended = false) (s : σ) : G s (x.advance s).2 := by
  cases x with
  | done outcome => cases hg
  | step act rest => exact (h s).1

/-- What follows a step that has been taken. -/
theorem everyStep_rest {x : Act σ ε β} {f : β → Async σ ε α} (hf : ∀ b, EveryStep G (f b)) (s : σ) :
    EveryStep G ((await x >>= f).advance s).1 := by
  show EveryStep G (bind (.done (x s).1) f)
  cases (x s).1 with
  | ok b => exact hf b
  | error e => trivial

/-- A call that reads, takes one step that depends on what it has read, and goes on with steps
    of `G`: its second step is that one. -/
theorem second_step {x : Act σ ε β} {f : β → Async σ ε α} (hx : ∀ s, G s (x s).2)
    (hf : ∀ b s, EveryStep G ((f b).advance s).1) {seen : List σ} (hg : ((await x >>= f).after seen).ended = false) (s : σ) :
    (seen.length ≠ 1 ∧ G s (((await x >>= f).after seen).advance s).2) ∨
      ∃ s₀ b, seen = [s₀] ∧ (x s₀).1 = .ok b ∧ (await x >>= f).after seen = f b := by
  match seen with
  | [] => exact .inl ⟨Nat.zero_ne_one, hx s⟩
  | s₀ :: seen =>
    have hafter : (await x >>= f).after (s₀ :: seen) = (bind (.done (x s₀).1) f).after seen := rfl
    rw [hafter] at hg ⊢
    cases hb : (x s₀).1 with
    | error e =>
      rw [hb, show bind (.done (.error e)) f = .done (.error e) from rfl, after_done] at hg
      cases hg
    | ok b =>
      rw [hb, show bind (.done (.ok b)) f = f b from rfl] at hg
      rw [show bind (.done (.ok b)) f = f b from rfl]
      match seen with
      | [] => exact .inr ⟨s₀, b, rfl, hb, rfl⟩
      | s₁ :: seen =>
        left
        refine ⟨?_, everyStep_advance (everyStep_after seen (hf b s₁)) hg s⟩
        show seen.length + 1 + 1 ≠ 1
        omega

end EveryStep

/-- `I n` is to be so after `n` steps, and `Q n` of what a call returns after `n` steps: a
    step keeps it so, or the call fails. -/
def Stages (I : Nat → σ → Prop) (Q : Nat → α → Prop) : Nat → Async σ ε α → Prop
  | n, .done (.ok a) => Q n a
  | _, .done (.error _) => True
  | n, .step act rest => ∀ s, I n s → (∃ e, rest s = .done (.error e)) ∨ (I (n + 1) (act s) ∧ Stages I Q (n + 1) (rest s))

section Stages

variable {I : Nat → σ → Prop} {Q : Nat → α → Prop} {n : Nat}

theorem stages_pure {a : α} (h : Q n a) : Stages I Q n (pure a : Async σ ε α) := h

theorem stages_await {x : Act σ ε α} (h : ∀ s a s', I n s → x s = (.ok a, s') → I (n + 1) s' ∧ Q (n + 1) a) :
    Stages I Q n (await x) := by
  intro s hs
  show (∃ e, Async.done (x s).1 = .done (.error e)) ∨ (I (n + 1) (x s).2 ∧ Stages I Q (n + 1) (Async.done (x s).1))
  cases hx : (x s).1 with
  | error e => exact .inl ⟨e, rfl⟩
  | ok a => exact .inr (h s a (x s).2 hs (Prod.ext hx rfl))

theorem stages_require {c : Prop} [Decidable c] {e : ε} {Q : Nat → Unit → Prop} (h : c → Q n ()) :
    Stages I Q n (require c e : Async σ ε Unit) := by
  unfold require
  by_cases hc : c
  · rw [if_pos hc]
    exact h hc
  · rw [if_neg hc]
    trivial

theorem stages_bind {x : Async σ ε β} {f : β → Async σ ε α} (h : Stages I (fun m b => Stages I Q m (f b)) n x) :
    Stages I Q n (x >>= f) := by
  show Stages I Q n (x.bind f)
  induction x generalizing n with
  | done outcome =>
    cases outcome with
    | ok b => exact h
    | error e => trivial
  | step act rest ih =>
    intro s hs
    rcases h s hs with ⟨e, he⟩ | ⟨hI, hrest⟩
    · left
      refine ⟨e, ?_⟩
      show (rest s).bind f = _
      rw [he]
      rfl
    · exact .inr ⟨hI, ih s hrest⟩

/-- A step that goes on is at the next stage, or has failed. -/
theorem stages_advance {x : Async σ ε α} (h : Stages I Q n x) (hg : x.ended = false) {s : σ} (hs : I n s) :
    (∃ e, (x.advance s).1 = .done (.error e)) ∨ (I (n + 1) (x.advance s).2 ∧ Stages I Q (n + 1) (x.advance s).1) := by
  cases x with
  | done outcome => cases hg
  | step act rest => exact h s hs

end Stages

end Async

/-- A call: what was asked for, and the states its steps were taken in. -/
structure Call (ρ σ : Type) where
  request : ρ
  seen : List σ
  deriving DecidableEq

namespace Call

variable {ρ σ ε α : Type}

/-- A call that has not begun. -/
def start (request : ρ) : Call ρ σ := ⟨request, []⟩

/-- The state of the first step, if the next one is taken in `s`. -/
def begun (c : Call ρ σ) (s : σ) : σ := c.seen.headD s

variable (program : ρ → Async σ ε α)

def left (c : Call ρ σ) : Async σ ε α := (program c.request).after c.seen

def ended (c : Call ρ σ) : Bool := (c.left program).ended

/-- What a call has returned. -/
def returned (c : Call ρ σ) : Option α :=
  match c.left program with
  | .done (.ok a) => some a
  | _ => none

def advance (c : Call ρ σ) (s : σ) : Call ρ σ × σ :=
  if c.ended program = true then (c, s) else (⟨c.request, c.seen ++ [s]⟩, ((c.left program).advance s).2)

variable {program}

theorem advance_ended {c : Call ρ σ} (h : c.ended program = true) (s : σ) : c.advance program s = (c, s) := by
  rw [advance, if_pos h]

theorem advance_going {c : Call ρ σ} (h : c.ended program = false) (s : σ) :
    c.advance program s = (⟨c.request, c.seen ++ [s]⟩, ((c.left program).advance s).2) := by
  rw [advance, if_neg (by rw [h]; decide)]

/-- A call that has returned `a` is over. -/
theorem returned_iff {c : Call ρ σ} {a : α} : c.returned program = some a ↔ c.left program = pure a := by
  unfold returned
  constructor
  · intro h
    cases hl : c.left program with
    | step act rest =>
      rw [hl] at h
      cases h
    | done outcome =>
      rw [hl] at h
      cases outcome with
      | error e => cases h
      | ok b =>
        obtain rfl := Option.some.inj h
        rfl
  · intro h
    rw [h]
    rfl

theorem left_concat (request : ρ) (seen : List σ) (s : σ) :
    left program ⟨request, seen ++ [s]⟩ = ((left program ⟨request, seen⟩).advance s).1 := Async.after_concat _ _ _

end Call

/-- The states a call has seen satisfy `I`, and none is later than `s`. -/
def Call.Saw {ρ σ : Type} (I : σ → Prop) (Later : σ → σ → Prop) (s : σ) (c : Call ρ σ) : Prop :=
  ∀ t ∈ c.seen, I t ∧ Later t s

section Saw

variable {ρ σ : Type} {I : σ → Prop} {Later : σ → σ → Prop} {s s' : σ} {c : Call ρ σ}

theorem Call.Saw.later (htrans : ∀ s t u, Later s t → Later t u → Later s u) (h : Later s s') (hc : c.Saw I Later s) :
    c.Saw I Later s' := fun t ht => ⟨(hc t ht).1, htrans t s s' (hc t ht).2 h⟩

theorem Call.Saw.concat (htrans : ∀ s t u, Later s t → Later t u → Later s u) (hI : I s) (h : Later s s')
    (hc : c.Saw I Later s) : Call.Saw I Later s' (⟨c.request, c.seen ++ [s]⟩ : Call ρ σ) := by
  intro t ht
  rcases List.mem_append.1 ht with ht | ht
  · exact hc.later htrans h t ht
  · obtain rfl := List.mem_singleton.1 ht
    exact ⟨hI, h⟩

end Saw

/-- The steps a call has taken met `C`. -/
def Call.Under {ρ σ : Type} (C : ρ → List σ → σ → Prop) (c : Call ρ σ) : Prop :=
  ∀ pre t, pre ++ [t] <+: c.seen → C c.request pre t

theorem Call.under_start {ρ σ : Type} {C : ρ → List σ → σ → Prop} (request : ρ) : (Call.start request).Under C := by
  intro pre t h
  exact absurd (List.prefix_nil.1 h) (List.append_ne_nil_of_right_ne_nil pre (List.cons_ne_nil t []))

theorem Call.Under.concat {ρ σ : Type} {C : ρ → List σ → σ → Prop} {c : Call ρ σ} {s : σ} (h : c.Under C)
    (hs : C c.request c.seen s) : Call.Under C ⟨c.request, c.seen ++ [s]⟩ := by
  intro pre t hpre
  rcases List.prefix_concat_iff.1 hpre with heq | hpre
  · obtain ⟨rfl, ht⟩ := List.append_inj' heq rfl
    obtain ⟨rfl, -⟩ := List.cons.inj ht
    exact hs
  · exact h pre t hpre

/-! ## Calls that take turns -/

/-- Calls over a shared state. -/
structure Pool (σ τ : Type) where
  shared : σ
  calls : List τ

/-- A call takes its next step, or something else moves. -/
inductive Move (η : Type)
  | call (i : Nat)
  | other (e : η)
  deriving DecidableEq

namespace Pool

section Steps

variable {σ τ η : Type} (advance : τ → σ → τ × σ) (env : η → σ → σ)

def step (P : Pool σ τ) : Move η → Pool σ τ
  | .call i => match P.calls[i]? with
    | none => P
    | some t => ⟨(advance t P.shared).2, P.calls.set i (advance t P.shared).1⟩
  | .other e => ⟨env e P.shared, P.calls⟩

variable {advance env} {P : Pool σ τ} {i : Nat} {t : τ}

theorem step_call (ht : P.calls[i]? = some t) :
    P.step advance env (.call i) = ⟨(advance t P.shared).2, P.calls.set i (advance t P.shared).1⟩ := by
  simp only [step, ht]

theorem step_none (ht : P.calls[i]? = none) : P.step advance env (.call i) = P := by
  simp only [step, ht]

/-- A call that stays as it is and leaves the state as it was. -/
theorem step_same (ht : P.calls[i]? = some t) (h : advance t P.shared = (t, P.shared)) :
    P.step advance env (.call i) = P := by
  rw [step_call ht, h]
  obtain ⟨hi, rfl⟩ := List.getElem?_eq_some_iff.1 ht
  rw [List.set_getElem_self]

@[simp] theorem step_other (e : η) : P.step advance env (.other e) = ⟨env e P.shared, P.calls⟩ := rfl

@[simp] theorem step_length (m : Move η) : (P.step advance env m).calls.length = P.calls.length := by
  cases m with
  | call i =>
    cases ht : P.calls[i]? with
    | none => rw [step_none ht]
    | some t => rw [step_call ht, List.length_set]
  | other e => rfl

theorem run_length (ms : List (Move η)) : (run (step advance env) P ms).calls.length = P.calls.length := by
  induction ms generalizing P with
  | nil => rfl
  | cons m ms ih => rw [run_cons, ih, step_length]

/-- How many calls are where `p` says. -/
theorem count_call (p : τ → Bool) (ht : P.calls[i]? = some t) :
    (P.step advance env (.call i)).calls.countP p + (if p t then 1 else 0) =
      P.calls.countP p + (if p (advance t P.shared).1 then 1 else 0) := by
  obtain ⟨hi, rfl⟩ := List.getElem?_eq_some_iff.1 ht
  have hle : (if p P.calls[i] = true then 1 else 0) ≤ P.calls.countP p := List.boole_getElem_le_countP hi
  rw [step_call ht]
  dsimp only
  rw [List.countP_set hi]
  omega

/-- What is so of the shared state, and of every call's position in it. -/
structure Holds (I : σ → Prop) (Ok : σ → τ → Prop) (P : Pool σ τ) : Prop where
  shared : I P.shared
  calls : ∀ t ∈ P.calls, Ok P.shared t

variable {I : σ → Prop} {Ok : σ → τ → Prop}

theorem Holds.at (h : P.Holds I Ok) (ht : P.calls[i]? = some t) : Ok P.shared t :=
  h.calls t (List.mem_of_getElem? ht)

/-- A call keeps what is so if it does at its own position and leaves it to the others. -/
theorem holds_call (h : P.Holds I Ok) (ht : P.calls[i]? = some t) (hI : I (advance t P.shared).2)
    (hself : Ok (advance t P.shared).2 (advance t P.shared).1)
    (hothers : ∀ u, Ok P.shared u → Ok (advance t P.shared).2 u) : (P.step advance env (.call i)).Holds I Ok := by
  rw [step_call ht]
  refine ⟨hI, ?_⟩
  intro u hu
  rcases List.mem_or_eq_of_mem_set hu with hu | rfl
  · exact hothers u (h.calls u hu)
  · exact hself

theorem holds_other {e : η} (h : P.Holds I Ok) (hI : I (env e P.shared))
    (hothers : ∀ u, Ok P.shared u → Ok (env e P.shared) u) : (P.step advance env (.other e)).Holds I Ok :=
  ⟨hI, fun u hu => hothers u (h.calls u hu)⟩

end Steps

/-! ### Pools of calls -/

section Calls

variable {ρ σ ε α η : Type} {program : ρ → Async σ ε α} {env : η → σ → σ} {P : Pool σ (Call ρ σ)} {i : Nat} {c : Call ρ σ}

/-- A call that has ended takes no step. -/
theorem step_ended (hc : P.calls[i]? = some c) (he : c.ended program = true) :
    P.step (Call.advance program) env (.call i) = P :=
  step_same hc (Call.advance_ended he _)

theorem step_going (hc : P.calls[i]? = some c) (hg : c.ended program = false) :
    P.step (Call.advance program) env (.call i) =
      ⟨((c.left program).advance P.shared).2, P.calls.set i ⟨c.request, c.seen ++ [P.shared]⟩⟩ := by
  rw [step_call hc, Call.advance_going hg]

/-- How many calls are where `p` says after one has gone on. -/
theorem count_going (p : Call ρ σ → Bool) (hc : P.calls[i]? = some c) (hg : c.ended program = false) :
    (P.step (Call.advance program) env (.call i)).calls.countP p + (if p c then 1 else 0) =
      P.calls.countP p + (if p ⟨c.request, c.seen ++ [P.shared]⟩ then 1 else 0) := by
  have hcount := @count_call σ (Call ρ σ) η (Call.advance program) env P i c p hc
  rw [Call.advance_going hg] at hcount
  exact hcount

/-- What is gathered from a list, one of whose elements is another. -/
theorem gather_set {β γ : Type} (f : β → Option γ) (d : β) {l : List β} {i : Nat} {c : β} (hc : l[i]? = some c) :
    ((f c).toList ++ (l.set i d).filterMap f).Perm ((f d).toList ++ l.filterMap f) := by
  have hcons : ∀ e l, List.filterMap f (e :: l) = (f e).toList ++ List.filterMap f l := by
    intro e l
    rw [List.filterMap_cons]
    cases f e <;> rfl
  induction l generalizing i with
  | nil => cases hc
  | cons e l ih =>
    cases i with
    | zero =>
      obtain rfl := Option.some.inj hc
      rw [List.set_cons_zero, hcons, hcons]
      exact List.perm_append_comm_assoc _ _ _
    | succ i =>
      rw [List.set_cons_succ, hcons, hcons]
      refine (List.perm_append_comm_assoc _ _ _).trans (List.Perm.trans ?_ (List.perm_append_comm_assoc _ _ _))
      exact (ih hc).append_left _

/-- What is gathered from the calls after one has gone on. -/
theorem gather_going {β : Type} (f : Call ρ σ → Option β) (hc : P.calls[i]? = some c) (hg : c.ended program = false) :
    ((f c).toList ++ (P.step (Call.advance program) env (.call i)).calls.filterMap f).Perm
      ((f ⟨c.request, c.seen ++ [P.shared]⟩).toList ++ P.calls.filterMap f) := by
  rw [step_going hc hg]
  exact gather_set f _ hc

/-- A call that is not where `p` says, before or after. -/
theorem count_apart (p : Call ρ σ → Bool) (hc : P.calls[i]? = some c) (hg : c.ended program = false) (h : p c = false)
    (h' : p ⟨c.request, c.seen ++ [P.shared]⟩ = false) :
    (P.step (Call.advance program) env (.call i)).calls.countP p = P.calls.countP p := by
  have hcount := @count_going ρ σ ε α η program env P i c p hc hg
  rw [h, h'] at hcount
  exact hcount

/-- What is so of every call, and of the one that has gone on. -/
theorem forall_going {Q : Call ρ σ → Prop} (h : ∀ d ∈ P.calls, Q d) (hc : P.calls[i]? = some c)
    (hg : c.ended program = false) (hself : Q ⟨c.request, c.seen ++ [P.shared]⟩) :
    ∀ d ∈ (P.step (Call.advance program) env (.call i)).calls, Q d := by
  intro d hd
  rw [step_going hc hg] at hd
  rcases List.mem_or_eq_of_mem_set hd with hd | rfl
  · exact h d hd
  · exact hself

theorem going_mem (hc : P.calls[i]? = some c) (hg : c.ended program = false) :
    ⟨c.request, c.seen ++ [P.shared]⟩ ∈ (P.step (Call.advance program) env (.call i)).calls := by
  obtain ⟨hi, rfl⟩ := List.getElem?_eq_some_iff.1 hc
  rw [step_going hc hg]
  exact List.mem_set hi _

/-- Some call is so, and one that goes on stays so. -/
theorem exists_step {Q : Call ρ σ → Prop} (h : ∃ d ∈ P.calls, Q d) (hkept : ∀ c s, Q c → Q ⟨c.request, c.seen ++ [s]⟩)
    (m : Move η) : ∃ d ∈ (P.step (Call.advance program) env m).calls, Q d := by
  obtain ⟨d, hd, hQ⟩ := h
  cases m with
  | other e => exact ⟨d, hd, hQ⟩
  | call i =>
    cases hc : P.calls[i]? with
    | none =>
      rw [step_none hc]
      exact ⟨d, hd, hQ⟩
    | some c =>
      cases hg : c.ended program with
      | true =>
        rw [step_ended hc hg]
        exact ⟨d, hd, hQ⟩
      | false =>
        obtain ⟨j, hj⟩ := List.mem_iff_getElem?.1 hd
        by_cases hij : i = j
        · rw [hij, hj] at hc
          obtain rfl := Option.some.inj hc
          exact ⟨_, going_mem (by rw [hij]; exact hj) hg, hkept d P.shared hQ⟩
        · refine ⟨d, ?_, hQ⟩
          rw [step_going (by assumption) hg]
          refine List.mem_iff_getElem?.2 ⟨j, ?_⟩
          show (P.calls.set i _)[j]? = some d
          rw [List.getElem?_set_ne hij, hj]

/-- A call that has ended stays where it is. -/
theorem ended_mem {d : Call ρ σ} (hd : d ∈ P.calls) (he : d.ended program = true) (hc : P.calls[i]? = some c)
    (hg : c.ended program = false) : d ∈ (P.step (Call.advance program) env (.call i)).calls := by
  obtain ⟨j, hj⟩ := List.mem_iff_getElem?.1 hd
  have hne : i ≠ j := by
    intro h
    rw [h, hj] at hc
    obtain rfl := Option.some.inj hc
    rw [he] at hg
    cases hg
  rw [step_going hc hg]
  refine List.mem_iff_getElem?.2 ⟨j, ?_⟩
  show (P.calls.set i _)[j]? = some d
  rw [List.getElem?_set_ne hne, hj]

/-- What is so of a call that begins, and kept by every step it takes in a state of the run. -/
theorem at_run {P₀ : Pool σ (Call ρ σ)} {R : Call ρ σ → Prop} {ms : List (Move η)} {c₀ : Call ρ σ}
    (hc₀ : P₀.calls[i]? = some c₀) (h₀ : R c₀)
    (h : ∀ pre post c, ms = pre ++ post → R c → c.ended program = false →
      R ⟨c.request, c.seen ++ [(run (step (Call.advance program) env) P₀ pre).shared]⟩) :
    ∃ c, (run (step (Call.advance program) env) P₀ ms).calls[i]? = some c ∧ R c := by
  induction ms using List.reverseRecOn with
  | nil => exact ⟨c₀, hc₀, h₀⟩
  | append_singleton ms m ih =>
    obtain ⟨c, hc, hR⟩ := ih fun pre post d he => h pre (post ++ [m]) d (by rw [he, List.append_assoc])
    rw [run_append, run_cons, run_nil]
    cases m with
    | other e => exact ⟨c, hc, hR⟩
    | call j =>
      cases hd : (run (step (Call.advance program) env) P₀ ms).calls[j]? with
      | none =>
        rw [step_none hd]
        exact ⟨c, hc, hR⟩
      | some d =>
        cases hg : d.ended program with
        | true =>
          rw [step_ended hd hg]
          exact ⟨c, hc, hR⟩
        | false =>
          rw [step_going hd hg]
          by_cases hij : j = i
          · rw [hij] at hd ⊢
            obtain rfl := Option.some.inj (hc.symm.trans hd)
            exact ⟨_, List.getElem?_set_self (List.getElem?_eq_some_iff.1 hc).1, h ms [.call j] c rfl hR hg⟩
          · exact ⟨c, (List.getElem?_set_ne hij).trans hc, hR⟩

/-- A state in which a call took a step is one the run was in. -/
theorem seen_state {P₀ : Pool σ (Call ρ σ)} (h₀ : ∀ c ∈ P₀.calls, c.seen = []) (ms : List (Move η)) :
    ∀ c ∈ (run (step (Call.advance program) env) P₀ ms).calls, ∀ s ∈ c.seen,
      ∃ pre post, ms = pre ++ post ∧ (run (step (Call.advance program) env) P₀ pre).shared = s := by
  intro c hc
  obtain ⟨i, hi⟩ := List.mem_iff_getElem?.1 hc
  have hlt : i < P₀.calls.length := by
    have := (List.getElem?_eq_some_iff.1 hi).1
    rwa [run_length] at this
  obtain ⟨d, hd, hR⟩ := @at_run ρ σ ε α η program env i P₀
    (fun c => ∀ s ∈ c.seen, ∃ pre post, ms = pre ++ post ∧ (run (step (Call.advance program) env) P₀ pre).shared = s)
    ms P₀.calls[i] (List.getElem?_eq_getElem hlt)
    (by
      intro s hs
      rw [h₀ _ (List.getElem_mem hlt)] at hs
      cases hs)
    (by
      intro pre post c he hR _ s hs
      rcases List.mem_append.1 hs with hs | hs
      · exact hR s hs
      · obtain rfl := List.mem_singleton.1 hs
        exact ⟨pre, post, he, rfl⟩)
  obtain rfl := Option.some.inj (hd.symm.trans hi)
  exact hR

/-- What the calls have asked for stays. -/
theorem requests_step (m : Move η) :
    (P.step (Call.advance program) env m).calls.map Call.request = P.calls.map Call.request := by
  cases m with
  | other e => rfl
  | call i =>
    cases hc : P.calls[i]? with
    | none => rw [step_none hc]
    | some c =>
      cases hg : c.ended program with
      | true => rw [step_ended hc hg]
      | false =>
        obtain ⟨hi, rfl⟩ := List.getElem?_eq_some_iff.1 hc
        rw [step_going hc hg]
        show (P.calls.set i _).map Call.request = _
        rw [List.map_set, ← List.getElem_map Call.request (h := by rw [List.length_map]; exact hi), List.set_getElem_self]

theorem ended_lt (hc : P.calls[i]? = some c) (hg : c.ended program = false) :
    P.calls.countP (Call.ended program) < P.calls.length := by
  refine Nat.lt_of_le_of_ne List.countP_le_length ?_
  intro h
  have hall := List.countP_eq_length.1 h c (List.mem_of_getElem? hc)
  rw [hg] at hall
  cases hall

/-- What is so of every call in the state as it is, when no step spoils it for the others. -/
theorem calls_step {Ok : σ → Call ρ σ → Prop} (hother : ∀ e s c, Ok s c → Ok (env e s) c)
    (hcall : ∀ c s d, Call.ended program c = false → Ok s d → Ok ((c.left program).advance s).2 d)
    (hself : ∀ c s, Call.ended program c = false → Ok s c → Ok ((c.left program).advance s).2 ⟨c.request, c.seen ++ [s]⟩)
    (h : ∀ c ∈ P.calls, Ok P.shared c) (m : Move η) :
    ∀ c ∈ (P.step (Call.advance program) env m).calls, Ok (P.step (Call.advance program) env m).shared c := by
  cases m with
  | other e => exact fun c hc => hother e P.shared c (h c hc)
  | call i =>
    cases hc : P.calls[i]? with
    | none =>
      rw [step_none hc]
      exact h
    | some c =>
      cases hg : c.ended program with
      | true =>
        rw [step_ended hc hg]
        exact h
      | false =>
        have hmem := List.mem_of_getElem? hc
        rw [step_going hc hg]
        intro d hd
        rcases List.mem_or_eq_of_mem_set hd with hd | rfl
        · exact hcall c P.shared d hg (h d hd)
        · exact hself c P.shared hg (h c hmem)

/-- What is so of the state a call took its step number `n` in: now, or it was before. -/
theorem forall_seen_concat {n : Nat} {seen : List σ} {s : σ} {F : σ → Prop} (hnow : seen.length = n → F s)
    (h : ∀ t ∈ seen[n]?, F t) : ∀ t ∈ (seen ++ [s])[n]?, F t := by
  intro t ht
  rcases Nat.lt_trichotomy n seen.length with hlt | rfl | hgt
  · rw [List.getElem?_append_left hlt] at ht
    exact h t ht
  · rw [List.getElem?_concat_length] at ht
    obtain rfl := Option.some.inj ht
    exact hnow rfl
  · rw [List.getElem?_eq_none (by rw [List.length_append, List.length_singleton]; omega)] at ht
    cases ht

/-! ### Steps that meet a condition -/

variable (program) in
/-- `C` of what the call that moves asked for, of the states it has seen and of this one. -/
def AtStep (C : ρ → List σ → σ → Prop) (P : Pool σ (Call ρ σ)) : Move η → Prop
  | .other _ => True
  | .call i => ∀ c ∈ P.calls[i]?, c.ended program = false → C c.request c.seen P.shared

instance decidableAtStep (C : ρ → List σ → σ → Prop) [∀ request seen s, Decidable (C request seen s)]
    (P : Pool σ (Call ρ σ)) : ∀ m : Move η, Decidable (AtStep program C P m)
  | .other _ => instDecidableTrue
  | .call i => inferInstanceAs (Decidable (∀ c ∈ P.calls[i]?, c.ended program = false → C c.request c.seen P.shared))

variable {C : ρ → List σ → σ → Prop}

theorem atStep_going (hc : P.calls[i]? = some c) (hg : c.ended program = false) :
    AtStep program C P (.call i : Move η) ↔ C c.request c.seen P.shared := by
  constructor
  · intro h
    exact h c hc hg
  · intro h d hd _
    rw [hc] at hd
    obtain rfl := Option.some.inj hd
    exact h

theorem atStep_none (hc : P.calls[i]? = none) : AtStep program C P (.call i : Move η) := by
  intro c hd
  rw [hc] at hd
  cases hd

theorem atStep_ended (hc : P.calls[i]? = some c) (he : c.ended program = true) : AtStep program C P (.call i : Move η) := by
  intro d hd hg
  rw [hc] at hd
  obtain rfl := Option.some.inj hd
  rw [he] at hg
  cases hg

theorem atStep_mono {D : ρ → List σ → σ → Prop} {m : Move η} (h : AtStep program C P m)
    (hCD : ∀ c : Call ρ σ, C c.request c.seen P.shared → D c.request c.seen P.shared) : AtStep program D P m := by
  cases m with
  | other e => trivial
  | call i => exact fun c hc hg => hCD c (h c hc hg)

theorem atStep_and {D : ρ → List σ → σ → Prop} {m : Move η} (hC : AtStep program C P m) (hD : AtStep program D P m) :
    AtStep program (fun request seen s => C request seen s ∧ D request seen s) P m := by
  cases m with
  | other e => trivial
  | call i => exact fun c hc hg => ⟨hC c hc hg, hD c hc hg⟩

/-- An invariant of the shared state and of the calls, kept by a step under `C` that leaves a
    later state, in which what was so of the other calls still is. -/
theorem holds_step {I : σ → Prop} {Ok : σ → Call ρ σ → Prop} {Later : σ → σ → Prop}
    (hlater : ∀ s s' c, Later s s' → Ok s c → Ok s' c) (hother : ∀ e s, I s → I (env e s) ∧ Later s (env e s))
    (hcall : ∀ c s, Call.ended program c = false → I s → Ok s c → C c.request c.seen s →
      I ((c.left program).advance s).2 ∧ Later s ((c.left program).advance s).2 ∧
        Ok ((c.left program).advance s).2 ⟨c.request, c.seen ++ [s]⟩)
    (h : P.Holds I Ok) (m : Move η) (hm : AtStep program C P m) : (P.step (Call.advance program) env m).Holds I Ok := by
  cases m with
  | other e =>
    obtain ⟨hI, hL⟩ := hother e P.shared h.shared
    exact holds_other h hI fun c => hlater P.shared _ c hL
  | call i =>
    cases hc : P.calls[i]? with
    | none =>
      rw [step_none hc]
      exact h
    | some c =>
      cases hg : c.ended program with
      | true =>
        rw [step_ended hc hg]
        exact h
      | false =>
        obtain ⟨hI, hL, hOk⟩ := hcall c P.shared hg h.shared (h.at hc) ((atStep_going hc hg).1 hm)
        refine holds_call h hc ?_ ?_ ?_ <;> rw [Call.advance_going hg]
        · exact hI
        · exact hOk
        · exact fun d => hlater P.shared _ d hL

/-- What one step keeps exactly under `C`, the next state of a pool has exactly if the move meets it. -/
theorem shared_step {Q : σ → Prop} (hother : ∀ e s, Q s → Q (env e s))
    (hcall : ∀ c s, Call.ended program c = false → Q s → (C c.request c.seen s ↔ Q ((c.left program).advance s).2))
    (hQ : Q P.shared) (m : Move η) :
    AtStep program C P m ↔ Q (P.step (Call.advance program) env m).shared := by
  cases m with
  | other e => exact iff_of_true trivial (hother e P.shared hQ)
  | call i =>
    cases hc : P.calls[i]? with
    | none =>
      rw [step_none hc]
      exact iff_of_true (atStep_none hc) hQ
    | some c =>
      cases hg : c.ended program with
      | true =>
        rw [step_ended hc hg]
        exact iff_of_true (atStep_ended hc hg) hQ
      | false =>
        rw [atStep_going hc hg, step_going hc hg]
        exact hcall c P.shared hg hQ

theorem shared_iff {Q : σ → Prop} (hother : ∀ e s, Q s → Q (env e s))
    (hcall : ∀ c s, Call.ended program c = false → Q s → (C c.request c.seen s ↔ Q ((c.left program).advance s).2))
    (hQ : Q P.shared) (ms : List (Move η)) :
    (∀ pre post, ms = pre ++ post → Q (run (step (Call.advance program) env) P pre).shared) ↔
      Along (step (Call.advance program) env) (AtStep program C) P ms := by
  rw [← throughout_iff (Q := fun P : Pool σ (Call ρ σ) => Q P.shared)]
  exact throughout_iff_along (I := fun _ => True) (fun P m _ hq => shared_step hother hcall hq m)
    (fun _ _ _ _ _ => trivial) trivial hQ

end Calls

end Pool

end ClusterGate.Lib
