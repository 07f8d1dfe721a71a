/-
  ClusterGate.Lib.Since — what has been so since a step of a run.

  Steps of one kind bring something about, steps of another end it. After a run it is so
  exactly if some step has brought it about and none has ended it since.
  - `since_concat`: with one step more.
  - `holds_since`: what a step gives and only some steps take, told of whole runs;
    `holds_iff_since`: what nothing else gives.
-/

import Mathlib.Data.List.Induction
import ClusterGate.Lib.Run

namespace ClusterGate.Lib

variable {σ ε : Type} (step : σ → ε → σ) (Begins Ends : σ → ε → Prop)

/-- Some step of the run brings it about, and no later one ends it. -/
def Since (s : σ) (es : List ε) : Prop :=
  ∃ pre e post, es = pre ++ e :: post ∧ Begins (run step s pre) e ∧
    Along step (fun t d => ¬Ends t d) (run step s (pre ++ [e])) post

variable {step Begins Ends} {s : σ}

theorem since_nil : ¬Since step Begins Ends s [] := by
  intro h
  obtain ⟨pre, e, post, hes, -, -⟩ := h
  exact List.append_ne_nil_of_right_ne_nil pre (List.cons_ne_nil e post) hes.symm

theorem since_concat {es : List ε} {e : ε} :
    Since step Begins Ends s (es ++ [e]) ↔
      Begins (run step s es) e ∨ (Since step Begins Ends s es ∧ ¬Ends (run step s es) e) := by
  constructor
  · intro h
    obtain ⟨pre, d, post, hes, hbegins, hkept⟩ := h
    rcases List.eq_nil_or_concat post with rfl | ⟨post, last, rfl⟩
    · obtain ⟨rfl, hd⟩ := List.append_inj' hes rfl
      obtain rfl := (List.cons.inj hd).1
      exact .inl hbegins
    · rw [List.concat_eq_append] at hes hkept
      obtain ⟨rfl, hlast⟩ := List.append_inj' (hes.trans (List.append_assoc pre (d :: post) [last]).symm) rfl
      obtain rfl := (List.cons.inj hlast).1
      obtain ⟨hkept, hend, -⟩ := along_append.1 hkept
      rw [← run_append, List.append_assoc, List.singleton_append] at hend
      exact .inr ⟨⟨pre, d, post, rfl, hbegins, hkept⟩, hend⟩
  · intro h
    rcases h with hbegins | ⟨⟨pre, d, post, rfl, hbegins, hkept⟩, hend⟩
    · exact ⟨es, e, [], rfl, hbegins, trivial⟩
    · refine ⟨pre, d, post ++ [e], List.append_assoc pre (d :: post) [e], hbegins, along_append.2 ⟨hkept, ?_, trivial⟩⟩
      rw [← run_append, List.append_assoc, List.singleton_append]
      exact hend

/-- What a step of the one kind brings about, and only steps of the other kind end. -/
theorem holds_since {P : σ → Prop} (hbegins : ∀ s e, Begins s e → P (step s e)) (hkeeps : ∀ s e, P s → ¬Ends s e → P (step s e))
    {es : List ε} (h : Since step Begins Ends s es) : P (run step s es) := by
  obtain ⟨pre, e, post, rfl, hbegun, hkept⟩ := h
  have hthere : P (run step s (pre ++ [e])) := by
    rw [run_append]
    exact hbegins _ _ hbegun
  rw [← List.singleton_append, ← List.append_assoc, run_append]
  exact run_keeps hkeeps hthere hkept

/-- Under an invariant, what is so after a step exactly if the step brings it about, or it was so
    and the step does not end it, is so after a run exactly if it has been so since a step. -/
theorem holds_iff_since {I P : σ → Prop} (hI : ∀ s e, I s → I (step s e))
    (h : ∀ s e, I s → (P (step s e) ↔ Begins s e ∨ (P s ∧ ¬Ends s e))) (hs : I s) (hP : ¬P s) (es : List ε) :
    P (run step s es) ↔ Since step Begins Ends s es := by
  induction es using List.reverseRecOn with
  | nil => exact iff_of_false hP since_nil
  | append_singleton es e ih =>
    have hinv : I (run step s es) := run_stable (fun s hs e => hI s e hs) hs es
    rw [run_append, since_concat, ← ih]
    exact h _ _ hinv

end ClusterGate.Lib
