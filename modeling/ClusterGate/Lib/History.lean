/-
  ClusterGate.Lib.History — what a call does, told from the states it has seen.

  What is left of a call follows from the states its steps were taken in, so a guard that
  was checked some steps ago is a fact about one of these.
  - `Tells R Q seen x`: every step `x` may still take, from what has been seen and the state
    it is taken in to the state it leaves, is one of `R`, and what it returns satisfies `Q`
    of all it has seen by then. One rule for each construct; `tells_bind` and `tells_await`
    take a program apart from its first line to its last.
  - `tells_step`: what a call that has yet to end does next.
  - `past x seen`: what the first part `x` of a call has returned, and the states seen since.
    `tells_past`: the steps of both parts, the rest told when the first has returned. `past_now`,
    `past_of_returned`: when a call gets past its first part.
-/

import ClusterGate.Lib.Async

namespace ClusterGate.Lib.Async

variable {σ ε α β : Type}

/-- Every step of what is left after `seen` is one of `R`, and a value it returns satisfies `Q`. -/
def Tells (R : List σ → σ → σ → Prop) (Q : List σ → α → Prop) : List σ → Async σ ε α → Prop
  | seen, .done (.ok a) => Q seen a
  | _, .done (.error _) => True
  | seen, .step act rest => ∀ s, R seen s (act s) ∧ Tells R Q (seen ++ [s]) (rest s)

variable {R R' : List σ → σ → σ → Prop} {Q Q' : List σ → α → Prop} {seen : List σ}

@[simp] theorem tells_pure (a : α) : Tells R Q seen (pure a : Async σ ε α) ↔ Q seen a := Iff.rfl

@[simp] theorem tells_throw (e : ε) : Tells R Q seen (throw e : Async σ ε α) ↔ True := Iff.rfl

@[simp] theorem tells_require (c : Prop) [Decidable c] (e : ε) {Q : List σ → Unit → Prop} :
    Tells R Q seen (require c e : Async σ ε Unit) ↔ (c → Q seen ()) := by
  unfold require
  by_cases hc : c
  · rw [if_pos hc]
    exact ⟨fun h _ => h, fun h => h hc⟩
  · rw [if_neg hc]
    exact ⟨fun _ h => absurd h hc, fun _ => trivial⟩

theorem tells_ite (c : Prop) [Decidable c] (x y : Async σ ε α) :
    Tells R Q seen (if c then x else y) ↔ (c → Tells R Q seen x) ∧ (¬c → Tells R Q seen y) := by
  by_cases hc : c
  · rw [if_pos hc]
    exact ⟨fun h => ⟨fun _ => h, fun hn => absurd hc hn⟩, fun h => h.1 hc⟩
  · rw [if_neg hc]
    exact ⟨fun h => ⟨fun hp => absurd hp hc, fun _ => h⟩, fun h => h.2 hc⟩

@[simp] theorem tells_await (x : Act σ ε α) :
    Tells R Q seen (await x) ↔ ∀ s, R seen s (x s).2 ∧ ∀ a, (x s).1 = .ok a → Q (seen ++ [s]) a := by
  show (∀ s, R seen s (x s).2 ∧ Tells R Q (seen ++ [s]) (.done (x s).1)) ↔ _
  refine forall_congr' fun s => and_congr_right fun _ => ?_
  cases (x s).1 with
  | ok a =>
    constructor
    · rintro h b hb
      cases hb
      exact h
    · intro h
      exact h a rfl
  | error e =>
    constructor
    · rintro - b hb
      cases hb
    · intro _
      trivial

/-- The same, with the step taken apart by the rules for what it is made of. -/
theorem tells_await_wp (x : Act σ ε α) :
    Tells R Q seen (await x) ↔
      ∀ s, Act.wp x (fun a s' => R seen s s' ∧ Q (seen ++ [s]) a) (fun _ s' => R seen s s') s := by
  rw [tells_await]
  refine forall_congr' fun s => ?_
  unfold Act.wp
  rcases x s with ⟨e | a, s'⟩
  · constructor
    · intro h
      exact h.1
    · intro h
      refine ⟨h, ?_⟩
      rintro a ⟨⟩
  · constructor
    · intro h
      exact ⟨h.1, h.2 a rfl⟩
    · rintro ⟨hR, hQ⟩
      refine ⟨hR, ?_⟩
      rintro b ⟨⟩
      exact hQ

@[simp] theorem tells_bind (x : Async σ ε β) (f : β → Async σ ε α) :
    Tells R Q seen (x >>= f) ↔ Tells R (fun seen b => Tells R Q seen (f b)) seen x := by
  show Tells R Q seen (x.bind f) ↔ _
  induction x generalizing seen with
  | done outcome => cases outcome <;> exact Iff.rfl
  | step act rest ih => exact forall_congr' fun s => and_congr_right fun _ => ih s

theorem tells_mono {x : Async σ ε α} (h : Tells R Q seen x) (hR : ∀ seen s s', R seen s s' → R' seen s s')
    (hQ : ∀ seen a, Q seen a → Q' seen a) : Tells R' Q' seen x := by
  induction x generalizing seen with
  | done outcome =>
    cases outcome with
    | ok a => exact hQ seen a h
    | error e => trivial
  | step act rest ih => exact fun s => ⟨hR seen s _ (h s).1, ih s (h s).2⟩

/-- What is left after more steps. -/
theorem tells_after (more : List σ) {x : Async σ ε α} (h : Tells R Q seen x) (hg : (x.after more).ended = false) :
    Tells R Q (seen ++ more) (x.after more) := by
  induction more generalizing seen x with
  | nil =>
    rw [List.append_nil]
    exact h
  | cons s more ih =>
    cases x with
    | done outcome =>
      rw [after_done] at hg
      cases hg
    | step act rest =>
      have hrest : Tells R Q (seen ++ [s]) (rest s) := (h s).2
      rw [List.append_cons]
      exact ih hrest hg

theorem tells_step {x : Async σ ε α} (h : Tells R Q [] x) (hg : (x.after seen).ended = false) (s : σ) :
    R seen s ((x.after seen).advance s).2 := by
  have hleft := tells_after seen h hg
  rw [List.nil_append] at hleft
  cases hx : x.after seen with
  | done outcome =>
    rw [hx] at hg
    cases hg
  | step act rest =>
    rw [hx] at hleft
    exact (hleft s).1

/-- What a call has seen that returns with the step it takes. -/
theorem tells_returns {x : Async σ ε α} {s : σ} {a : α} (h : Tells R Q [] x) (hg : (x.after seen).ended = false)
    (ha : x.after (seen ++ [s]) = pure a) : Q (seen ++ [s]) a := by
  have hleft := tells_after seen h hg
  rw [List.nil_append] at hleft
  rw [after_concat] at ha
  cases hx : x.after seen with
  | done outcome =>
    rw [hx] at hg
    cases hg
  | step act rest =>
    rw [hx] at hleft ha
    have hrest : Tells R Q (seen ++ [s]) (rest s) := (hleft s).2
    replace ha : rest s = pure a := ha
    rw [ha] at hrest
    exact hrest

/-! ## A first part and the rest -/

/-- What a first part has returned, and the states seen since. -/
def past : Async σ ε α → List σ → Option (α × List σ)
  | .done (.ok a), seen => some (a, seen)
  | .done (.error _), _ => none
  | .step _ _, [] => none
  | .step _ rest, s :: seen => past (rest s) seen

/-- What a part tells from what it has seen itself, told from all that has been seen. -/
theorem tells_shift {x : Async σ ε α} (pre : List σ) (h : Tells R Q [] x)
    (hR : ∀ seen s s', R seen s s' → R' (pre ++ seen) s s') (hQ : ∀ seen a, Q seen a → Q' (pre ++ seen) a) :
    Tells R' Q' pre x := by
  have hall : ∀ (y : Async σ ε α) (seen : List σ), Tells R Q seen y → Tells R' Q' (pre ++ seen) y := by
    intro y
    induction y with
    | done outcome =>
      intro seen hy
      cases outcome with
      | ok a => exact hQ seen a hy
      | error e => trivial
    | step act rest ih =>
      intro seen hy s
      refine ⟨hR seen s _ (hy s).1, ?_⟩
      rw [List.append_assoc]
      exact ih s (seen ++ [s]) (hy s).2
  have hpre := hall x [] h
  rwa [List.append_nil] at hpre

/-- Steps that are related whatever has been seen. -/
theorem tells_everyStep {G : σ → σ → Prop} {x : Async σ ε α} (h : EveryStep G x) :
    Tells (fun _ => G) (fun _ _ => True) seen x := by
  induction x generalizing seen with
  | done outcome => cases outcome <;> trivial
  | step act rest ih => exact fun s => ⟨(h s).1, ih s (h s).2⟩

theorem tells_past {x : Async σ ε β} {f : β → Async σ ε α} {G : List σ → σ → σ → Prop} {P : List σ → β → Prop}
    (hx : Tells G P [] x) (hfirst : ∀ seen s s', past x seen = none → G seen s s' → R seen s s')
    (hrest : ∀ pre b, P pre b → (∀ more, past x (pre ++ more) = some (b, more)) → Tells R Q pre (f b)) :
    Tells R Q [] (x >>= f) := by
  -- The induction is on what is left of the first part after `pre`.
  have hleft : ∀ (y : Async σ ε β) (pre : List σ), Tells G P pre y → (∀ more, past x (pre ++ more) = past y more) →
      Tells R Q pre (y >>= f) := by
    intro y
    induction y with
    | done outcome =>
      intro pre hy hpast
      cases outcome with
      | error e => trivial
      | ok b => exact hrest pre b hy hpast
    | step act rest ih =>
      intro pre hy hpast
      refine fun s => ⟨hfirst pre s _ ?_ (hy s).1, ih s (pre ++ [s]) (hy s).2 fun more => ?_⟩
      · rw [← List.append_nil pre, hpast]
        rfl
      · rw [List.append_assoc, hpast]
        rfl
  exact hleft x [] hx fun _ => rfl

/-- What a first part has seen that has returned. -/
theorem tells_of_past {x : Async σ ε α} {a : α} {more rest : List σ} (h : Tells R Q seen x) (hp : past x more = some (a, rest)) :
    ∃ pre, more = pre ++ rest ∧ Q (seen ++ pre) a := by
  induction x generalizing seen more with
  | done outcome =>
    cases outcome with
    | error e => cases hp
    | ok b =>
      cases hp
      refine ⟨[], rfl, ?_⟩
      rw [List.append_nil]
      exact h
  | step act f ih =>
    cases more with
    | nil => cases hp
    | cons s more =>
      obtain ⟨pre, rfl, hQ⟩ := ih s (h s).2 hp
      refine ⟨s :: pre, rfl, ?_⟩
      rw [List.append_cons]
      exact hQ

theorem past_concat {x : Async σ ε α} {a : α} {rest : List σ} (s : σ) (hp : past x seen = some (a, rest)) :
    past x (seen ++ [s]) = some (a, rest ++ [s]) := by
  induction x generalizing seen with
  | done outcome =>
    cases outcome with
    | error e => cases hp
    | ok b =>
      cases hp
      rfl
  | step act f ih =>
    cases seen with
    | nil => cases hp
    | cons t seen => exact ih t hp

/-- A first part that returns with the step it takes. -/
theorem past_now {x : Async σ ε α} {a : α} {s : σ} {rest : List σ} (h : Tells R Q [] x) (hnone : past x seen = none)
    (hp : past x (seen ++ [s]) = some (a, rest)) : rest = [] ∧ Q (seen ++ [s]) a := by
  have hrest : rest = [] := by
    clear h
    induction x generalizing seen with
    | done outcome =>
      cases outcome with
      | error e => cases hp
      | ok b => cases hnone
    | step act f ih =>
      cases seen with
      | nil =>
        replace hp : past (f s) [] = some (a, rest) := hp
        cases hfs : f s with
        | done outcome =>
          rw [hfs] at hp
          cases outcome with
          | error e => cases hp
          | ok b =>
            cases hp
            rfl
        | step act' f' =>
          rw [hfs] at hp
          cases hp
      | cons t seen => exact ih t hnone hp
  subst hrest
  obtain ⟨pre, hpre, hQ⟩ := tells_of_past h hp
  rw [List.append_nil] at hpre
  rw [hpre]
  exact ⟨rfl, hQ⟩

/-- A call that has returned is past its first part. -/
theorem past_of_returned {x : Async σ ε β} {f : β → Async σ ε α} {a : α} (h : (x >>= f).after seen = pure a) :
    (past x seen).isSome = true := by
  induction x generalizing seen with
  | done outcome =>
    cases outcome with
    | ok b => rfl
    | error e =>
      replace h : (throw e : Async σ ε α).after seen = pure a := h
      rw [throw, after_done] at h
      cases h
  | step act rest ih =>
    cases seen with
    | nil => cases h
    | cons s seen => exact ih s h

end ClusterGate.Lib.Async
