/-
  ClusterGate.Lib.Run — runs of a step function and what holds along them.

  A system is a step function `step : σ → ε → σ`; a run is the fold of it over a list
  of events. `Along step P s es` says that every step of the run from `s` over `es`
  satisfies `P` in the state it is taken in.
  - `run_keeps`, `run_stable`: an invariant the steps keep holds in the state a run leaves.
  - `along_of`: what an invariant gives at one step holds at every step of a run.
  - `along_iff`: two conditions on a step that agree under an invariant agree on runs.
  - `along_append`, `along_at`: what holds along a run, along a prefix and a rest and at the
    step between them.

  `Throughout step Q s es` says that every state of the run satisfies `Q`.
  - `throughout_iff`: it is so after every prefix of the run.
  - `throughout_iff_along`: where, under an invariant, a step keeps `Q` exactly under a
    condition, a run keeps it exactly if all its steps meet the condition.

  A machine also answers each event; `answers` is what it answers along a run.
  - `answers_eq`, `final_related`: two machines that answer alike and stay related at one
    step do so along every run.
-/

namespace ClusterGate.Lib

section Runs

variable {σ ε : Type} (step : σ → ε → σ)

def run (s : σ) (es : List ε) : σ := es.foldl step s

/-- Every step of the run from `s` over `es` satisfies `P` where it is taken. -/
def Along (P : σ → ε → Prop) : σ → List ε → Prop
  | _, [] => True
  | s, e :: es => P s e ∧ Along P (step s e) es

@[simp] theorem run_nil (s : σ) : run step s [] = s := rfl
@[simp] theorem run_cons (s : σ) (e : ε) (es : List ε) : run step s (e :: es) = run step (step s e) es := rfl
theorem run_append (s : σ) (es fs : List ε) : run step s (es ++ fs) = run step (run step s es) fs := by
  simp [run]

@[simp] theorem along_nil (P : σ → ε → Prop) (s : σ) : Along step P s [] ↔ True := Iff.rfl
@[simp] theorem along_cons (P : σ → ε → Prop) (s : σ) (e : ε) (es : List ε) :
    Along step P s (e :: es) ↔ P s e ∧ Along step P (step s e) es := Iff.rfl

instance decidableAlong (P : σ → ε → Prop) [∀ s e, Decidable (P s e)] : ∀ s es, Decidable (Along step P s es)
  | _, [] => instDecidableTrue
  | s, e :: es => @instDecidableAnd _ _ _ (decidableAlong P (step s e) es)

variable {step} {I : σ → Prop} {C P : σ → ε → Prop}

theorem run_keeps (h : ∀ s e, I s → C s e → I (step s e)) {s : σ} {es : List ε} (hs : I s)
    (hc : Along step C s es) : I (run step s es) := by
  induction es generalizing s with
  | nil => exact hs
  | cons e es ih => exact ih (h s e hs hc.1) hc.2

/-- What every step keeps, every run keeps. -/
theorem run_stable (h : ∀ s, I s → ∀ e, I (step s e)) {s : σ} (hs : I s) (es : List ε) : I (run step s es) := by
  induction es generalizing s with
  | nil => exact hs
  | cons e es ih => exact ih (h s hs e)

theorem along_of (h : ∀ s e, I s → C s e → P s e ∧ I (step s e)) {s : σ} {es : List ε} (hs : I s)
    (hc : Along step C s es) : Along step P s es := by
  induction es generalizing s with
  | nil => trivial
  | cons e es ih =>
    obtain ⟨hp, hi⟩ := h s e hs hc.1
    exact ⟨hp, ih hi hc.2⟩

theorem along_iff (hI : ∀ s e, I s → I (step s e)) (h : ∀ s e, I s → (C s e ↔ P s e)) {s : σ} {es : List ε}
    (hs : I s) : Along step C s es ↔ Along step P s es :=
  ⟨along_of (fun s e hi hc => ⟨(h s e hi).1 hc, hI s e hi⟩) hs,
    along_of (fun s e hi hp => ⟨(h s e hi).2 hp, hI s e hi⟩) hs⟩

theorem along_at {s : σ} {pre post : List ε} {e : ε} (h : Along step P s (pre ++ e :: post)) : P (run step s pre) e := by
  induction pre generalizing s with
  | nil => exact h.1
  | cons d pre ih => exact ih h.2

theorem along_append {s : σ} {es fs : List ε} :
    Along step P s (es ++ fs) ↔ Along step P s es ∧ Along step P (run step s es) fs := by
  induction es generalizing s with
  | nil =>
    rw [List.nil_append, along_nil, true_and]
    rfl
  | cons e es ih =>
    show P s e ∧ Along step P (step s e) (es ++ fs) ↔ (P s e ∧ Along step P (step s e) es) ∧ _
    rw [ih, and_assoc]
    rfl

theorem along_and {s : σ} {es : List ε} :
    Along step (fun s e => C s e ∧ P s e) s es ↔ Along step C s es ∧ Along step P s es := by
  induction es generalizing s with
  | nil => exact iff_of_true trivial ⟨trivial, trivial⟩
  | cons e es ih =>
    rw [along_cons, along_cons, along_cons, ih]
    exact and_and_and_comm

/-- Every state of the run from `s` over `es` satisfies `Q`. -/
def Throughout (step : σ → ε → σ) (Q : σ → Prop) : σ → List ε → Prop
  | s, [] => Q s
  | s, e :: es => Q s ∧ Throughout step Q (step s e) es

variable {Q : σ → Prop}

theorem throughout_start {s : σ} {es : List ε} (h : Throughout step Q s es) : Q s := by
  cases es with
  | nil => exact h
  | cons e es => exact h.1

theorem throughout_iff {s : σ} {es : List ε} :
    Throughout step Q s es ↔ ∀ pre post, es = pre ++ post → Q (run step s pre) := by
  induction es generalizing s with
  | nil =>
    constructor
    · intro h pre post he
      obtain ⟨rfl, -⟩ := List.append_eq_nil_iff.1 he.symm
      exact h
    · intro h
      exact h [] [] rfl
  | cons e es ih =>
    constructor
    · intro h pre post he
      cases pre with
      | nil => exact h.1
      | cons d pre =>
        obtain ⟨rfl, rfl⟩ := List.cons.inj he
        exact ih.1 h.2 pre post rfl
    · intro h
      exact ⟨h [] (e :: es) rfl, ih.2 fun pre post he => h (e :: pre) post (by rw [he]; rfl)⟩

theorem throughout_iff_along (hC : ∀ s e, I s → Q s → (C s e ↔ Q (step s e)))
    (hI : ∀ s e, I s → Q s → Q (step s e) → I (step s e)) {s : σ} {es : List ε} (hs : I s) (hq : Q s) :
    Throughout step Q s es ↔ Along step C s es := by
  induction es generalizing s with
  | nil => exact iff_of_true hq trivial
  | cons e es ih =>
    constructor
    · intro h
      have hq' : Q (step s e) := throughout_start h.2
      exact ⟨(hC s e hs hq).2 hq', (ih (hI s e hs hq hq') hq').1 h.2⟩
    · intro h
      have hq' : Q (step s e) := (hC s e hs hq).1 h.1
      exact ⟨hq, (ih (hI s e hs hq hq') hq').2 h.2⟩

end Runs

section Machines

variable {σ τ ε ο : Type}

/-- The state a machine leaves. -/
def final (step : σ → ε → ο × σ) : σ → List ε → σ := run fun s e => (step s e).2

def answers (step : σ → ε → ο × σ) : σ → List ε → List ο
  | _, [] => []
  | s, e :: es => (step s e).1 :: answers step (step s e).2 es

theorem final_append (step : σ → ε → ο × σ) (s : σ) (es fs : List ε) :
    final step s (es ++ fs) = final step (final step s es) fs := by
  simp [final, run]

variable {step : σ → ε → ο × σ} {step' : τ → ε → ο × τ} {R : σ → τ → Prop}

theorem final_related (h : ∀ s t e, R s t → R (step s e).2 (step' t e).2) {s : σ} {t : τ} (hr : R s t) (es : List ε) :
    R (final step s es) (final step' t es) := by
  induction es generalizing s t with
  | nil => exact hr
  | cons e es ih => exact ih (h s t e hr)

theorem answers_eq (h : ∀ s t e, R s t → (step s e).1 = (step' t e).1 ∧ R (step s e).2 (step' t e).2) {s : σ} {t : τ}
    (hr : R s t) (es : List ε) : answers step s es = answers step' t es := by
  induction es generalizing s t with
  | nil => rfl
  | cons e es ih =>
    obtain ⟨ha, hr⟩ := h s t e hr
    rw [answers, answers, ha, ih hr]

end Machines

end ClusterGate.Lib
