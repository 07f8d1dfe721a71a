/-
  ClusterGate.Lib.Act — computations over a shared state that may throw.

  A handler of a service awaits one store operation after another and may throw at
  any of them; what it wrote before throwing stays written. `Act σ ε α` is such a
  computation: from a state it gives the outcome and the state it leaves, also when
  the outcome is an error. `atomic` is a transaction: an error undoes its writes.
  `zoom` runs a computation over a part of the state.

  `wp x Q E s` says what running `x` at `s` ensures: `Q` of the value and the state
  on success, `E` of the error and the state on a throw. The rules below compute it
  from the shape of `x`, so a specification of a caller is assembled from the
  specifications of its callees (`wp_mono`), and `wp_forM_rest` carries an invariant
  through a loop over a list.
-/

namespace ClusterGate.Lib

/-- A computation over `σ` that may throw an `ε`; its writes survive a throw. -/
def Act (σ ε α : Type) := σ → Except ε α × σ

namespace Act

variable {σ ε α β : Type}

instance : Monad (Act σ ε) where
  pure a := fun s => (.ok a, s)
  bind x f := fun s => match x s with
    | (.ok a, s') => f a s'
    | (.error e, s') => (.error e, s')

def throw (e : ε) : Act σ ε α := fun s => (.error e, s)

def read : Act σ ε σ := fun s => (.ok s, s)

def modify (f : σ → σ) : Act σ ε Unit := fun s => (.ok (), f s)

/-- Go on only under `c`. -/
def require (c : Prop) [Decidable c] (e : ε) : Act σ ε Unit := if c then pure () else throw e

/-- Run `x` only under `c`. -/
def when (c : Prop) [Decidable c] (x : Act σ ε Unit) : Act σ ε Unit := if c then x else pure ()

/-- The value of an option, or a throw. -/
def orThrow (o : Option α) (e : ε) : Act σ ε α := match o with
  | some a => pure a
  | none => throw e

def ofExcept (x : Except ε α) : Act σ ε α := fun s => (x, s)

/-- A transaction: a throw leaves the state as it was. -/
def atomic (x : Act σ ε α) : Act σ ε α := fun s => match x s with
  | (.ok a, s') => (.ok a, s')
  | (.error e, _) => (.error e, s)

/-- The outcome of `x` as a value: a throw is caught, its writes stay. -/
def attempt (x : Act σ ε α) : Act σ ε (Except ε α) := fun s => (.ok (x s).1, (x s).2)

/-- A computation over a part of the state. -/
def zoom {τ : Type} (part : σ → τ) (put : τ → σ → σ) (x : Act τ ε α) : Act σ ε α := fun s =>
  ((x (part s)).1, put (x (part s)).2 s)

/-- What running one after the other is. -/
theorem bind_run (x : Act σ ε β) (f : β → Act σ ε α) (s : σ) :
    (x >>= f) s = match x s with
      | (.ok b, s') => f b s'
      | (.error e, s') => (.error e, s') := rfl

/-! ## What a run ensures -/

def wp (x : Act σ ε α) (Q : α → σ → Prop) (E : ε → σ → Prop) (s : σ) : Prop :=
  match x s with
  | (.ok a, s') => Q a s'
  | (.error e, s') => E e s'

variable {Q Q' : α → σ → Prop} {E E' : ε → σ → Prop} {P : σ → Prop} {s s' : σ}

theorem wp_mono {x : Act σ ε α} (h : wp x Q E s) (hQ : ∀ a s', Q a s' → Q' a s') (hE : ∀ e s', E e s' → E' e s') :
    wp x Q' E' s := by
  unfold wp at h ⊢
  split
  · rename_i a t hx; rw [hx] at h; exact hQ a t h
  · rename_i e t hx; rw [hx] at h; exact hE e t h

/-- What a successful run ensures. -/
theorem wp_ok {x : Act σ ε α} {a : α} (h : wp x Q E s) (hx : x s = (.ok a, s')) : Q a s' := by
  unfold wp at h; rw [hx] at h; exact h

theorem wp_error {x : Act σ ε α} {e : ε} (h : wp x Q E s) (hx : x s = (.error e, s')) : E e s' := by
  unfold wp at h; rw [hx] at h; exact h

theorem wp_outcome_ok {x : Act σ ε α} {a : α} (h : wp x Q E s) (hx : (x s).1 = .ok a) : Q a (x s).2 :=
  wp_ok h (Prod.ext hx rfl)

theorem wp_outcome_error {x : Act σ ε α} {e : ε} (h : wp x Q E s) (hx : (x s).1 = .error e) : E e (x s).2 :=
  wp_error h (Prod.ext hx rfl)

/-- What the state a run leaves satisfies, whatever its outcome. -/
theorem wp_final {x : Act σ ε α} (h : wp x (fun _ => P) (fun _ => P) s) : P (x s).2 := by
  unfold wp at h
  split at h <;> rename_i hx <;> rw [hx] <;> exact h

theorem wp_of_final {x : Act σ ε α} (h : P (x s).2) : wp x (fun _ => P) (fun _ => P) s := by
  unfold wp
  split <;> rename_i hx <;> rw [hx] at h <;> exact h

/-! ## The rules -/

@[simp] theorem wp_pure (a : α) : wp (pure a : Act σ ε α) Q E s ↔ Q a s := Iff.rfl

@[simp] theorem wp_throw (e : ε) : wp (throw e : Act σ ε α) Q E s ↔ E e s := Iff.rfl

@[simp] theorem wp_read {R : σ → σ → Prop} : wp (read : Act σ ε σ) R E s ↔ R s s := Iff.rfl

@[simp] theorem wp_modify (f : σ → σ) {R : Unit → σ → Prop} : wp (modify f : Act σ ε Unit) R E s ↔ R () (f s) :=
  Iff.rfl

@[simp] theorem wp_bind (x : Act σ ε β) (f : β → Act σ ε α) :
    wp (x >>= f) Q E s ↔ wp x (fun b => wp (f b) Q E) E s := by
  unfold wp
  rw [bind_run]
  rcases x s with ⟨_ | _, _⟩ <;> rfl

@[simp] theorem wp_ite (c : Prop) [Decidable c] (x y : Act σ ε α) :
    wp (if c then x else y) Q E s ↔ (c → wp x Q E s) ∧ (¬ c → wp y Q E s) := by
  split <;> simp_all

@[simp] theorem wp_require (c : Prop) [Decidable c] (e : ε) {R : Unit → σ → Prop} :
    wp (require c e : Act σ ε Unit) R E s ↔ (c → R () s) ∧ (¬ c → E e s) := by
  simp [require]

@[simp] theorem wp_when (c : Prop) [Decidable c] (x : Act σ ε Unit) {R : Unit → σ → Prop} :
    wp (when c x) R E s ↔ (c → wp x R E s) ∧ (¬ c → R () s) := by
  simp [when]

@[simp] theorem wp_orThrow (o : Option α) (e : ε) :
    wp (orThrow o e : Act σ ε α) Q E s ↔ (∀ a, o = some a → Q a s) ∧ (o = none → E e s) := by
  cases o <;> simp [orThrow]

@[simp] theorem wp_ofExcept (x : Except ε α) :
    wp (ofExcept x : Act σ ε α) Q E s ↔ (∀ a, x = .ok a → Q a s) ∧ (∀ e, x = .error e → E e s) := by
  cases x <;> simp [ofExcept, wp]

@[simp] theorem wp_atomic (x : Act σ ε α) : wp (atomic x) Q E s ↔ wp x Q (fun e _ => E e s) s := by
  unfold wp atomic
  rcases x s with ⟨_ | _, _⟩ <;> rfl

@[simp] theorem wp_attempt (x : Act σ ε α) {R : Except ε α → σ → Prop} :
    wp (attempt x) R E s ↔ wp x (fun a => R (.ok a)) (fun e => R (.error e)) s := by
  unfold wp attempt
  rcases x s with ⟨_ | _, _⟩ <;> rfl

theorem wp_zoom {τ : Type} {part : σ → τ} {put : τ → σ → σ} {x : Act τ ε α} :
    wp (zoom part put x) Q E s ↔ wp x (fun a t => Q a (put t s)) (fun e t => E e (put t s)) (part s) := by
  unfold wp zoom
  rcases x (part s) with ⟨_ | _, _⟩ <;> rfl

theorem wp_map {x : Act σ ε β} {f : β → α} : wp (f <$> x) Q E s ↔ wp x (fun b => Q (f b)) E s :=
  wp_bind x fun b => pure (f b)

/-- A loop with an invariant that speaks of what is left of the list. -/
theorem wp_forM_rest {f : β → Act σ ε PUnit} {I : List β → σ → Prop}
    (h : ∀ b bs s, I (b :: bs) s → wp (f b) (fun _ => I bs) E s) :
    ∀ xs s, I xs s → wp (xs.forM f) (fun _ => I []) E s := by
  intro xs
  induction xs with
  | nil => intro s hs; exact hs
  | cons b xs ih =>
    intro s hs
    show wp (f b >>= fun _ => xs.forM f) _ _ s
    rw [wp_bind]
    exact wp_mono (h b xs s hs) (fun _ t ht => ih t ht) fun _ _ he => he

/-- A loop of checks, each of which leaves the state alone: it goes through exactly
    when every check does, and otherwise throws in the state it started in. -/
theorem wp_forM_checks {xs : List β} {f : β → Act σ ε PUnit} {P : β → Prop} {R : PUnit → σ → Prop}
    (h : ∀ b ∈ xs, wp (f b) (fun _ t => t = s ∧ P b) (fun _ t => t = s ∧ ¬ P b) s) :
    (((∀ b ∈ xs, P b) → R ⟨⟩ s) ∧ ((∃ b ∈ xs, ¬ P b) → ∀ e, E e s)) → wp (xs.forM f) R E s := by
  induction xs with
  | nil => rintro ⟨h1, -⟩; exact h1 (by simp)
  | cons b xs ih =>
    rintro ⟨h1, h2⟩
    show wp (f b >>= fun _ => xs.forM f) _ _ s
    rw [wp_bind]
    refine wp_mono (h b (by simp)) ?_ ?_
    · rintro _ t ⟨rfl, hb⟩
      refine ih (fun c hc => h c (by simp [hc])) ⟨fun hall => h1 (by simpa using ⟨hb, hall⟩), ?_⟩
      rintro ⟨c, hc, hn⟩
      exact h2 ⟨c, by simp [hc], hn⟩
    · rintro e t ⟨rfl, hn⟩
      exact h2 ⟨b, by simp, hn⟩ e

/-! ## What every run keeps -/

/-- `x` keeps `I`, whatever its outcome. -/
def Stable (I : σ → Prop) (x : Act σ ε α) : Prop := ∀ s, I s → wp x (fun _ => I) (fun _ => I) s

section Stable

variable {I : σ → Prop} {x : Act σ ε α}

theorem stable_pure (a : α) : Stable I (pure a : Act σ ε α) := fun _ h => h

theorem stable_read : Stable I (read : Act σ ε σ) := fun _ h => h

theorem stable_throw (e : ε) : Stable I (throw e : Act σ ε α) := fun _ h => h

theorem stable_require (c : Prop) [Decidable c] (e : ε) : Stable I (require c e) :=
  fun _ h => (wp_require c e).2 ⟨fun _ => h, fun _ => h⟩

theorem stable_orThrow (o : Option α) (e : ε) : Stable I (orThrow o e) :=
  fun _ h => (wp_orThrow o e).2 ⟨fun _ _ => h, fun _ => h⟩

theorem stable_ofExcept (o : Except ε α) : Stable I (ofExcept o : Act σ ε α) :=
  fun _ h => (wp_ofExcept o).2 ⟨fun _ _ => h, fun _ _ => h⟩

theorem stable_modify {f : σ → σ} (h : ∀ s, I s → I (f s)) : Stable I (modify f : Act σ ε Unit) := h

theorem stable_bind {x : Act σ ε β} {f : β → Act σ ε α} (hx : Stable I x) (hf : ∀ b, Stable I (f b)) : Stable I (x >>= f) := by
  intro s hs
  rw [wp_bind]
  exact wp_mono (hx s hs) (fun b s' hs' => hf b s' hs') fun _ _ h => h

theorem stable_ite {c : Prop} [Decidable c] {y : Act σ ε α} (hx : Stable I x) (hy : Stable I y) :
    Stable I (if c then x else y) := by
  split
  · exact hx
  · exact hy

theorem stable_when {c : Prop} [Decidable c] {x : Act σ ε Unit} (hx : Stable I x) : Stable I (when c x) :=
  stable_ite hx (stable_pure ())

theorem stable_atomic (hx : Stable I x) : Stable I (atomic x) := by
  intro s hs
  rw [wp_atomic]
  exact wp_mono (hx s hs) (fun _ _ h => h) fun _ _ _ => hs

theorem stable_attempt (hx : Stable I x) : Stable I (attempt x : Act σ ε (Except ε α)) := by
  intro s hs
  rw [wp_attempt]
  exact hx s hs

theorem stable_forM {f : β → Act σ ε PUnit} (hf : ∀ b, Stable I (f b)) (bs : List β) : Stable I (bs.forM f) := by
  induction bs with
  | nil => exact stable_pure _
  | cons b bs ih => exact stable_bind (hf b) fun _ => ih

end Stable

/-! ## Reading a run off -/

/-- `x` returns a value from `s`. -/
def Succeeds (x : Act σ ε α) (s : σ) : Prop := ∃ a s', x s = (.ok a, s')

instance decidableSucceeds (x : Act σ ε α) (s : σ) : Decidable (Succeeds x s) :=
  match h : x s with
  | (.ok a, s') => isTrue ⟨a, s', h⟩
  | (.error _, _) => isFalse fun ⟨_, _, h'⟩ => by rw [h] at h'; cases h'

theorem succeeds_iff {x : Act σ ε α} : Succeeds x s ↔ wp x (fun _ _ => True) (fun _ _ => False) s := by
  unfold Succeeds wp
  rcases x s with ⟨e | a, t⟩ <;> simp

@[simp] theorem succeeds_pure (a : α) : Succeeds (pure a : Act σ ε α) s ↔ True := by simp [succeeds_iff]

@[simp] theorem succeeds_throw (e : ε) : Succeeds (throw e : Act σ ε α) s ↔ False := by simp [succeeds_iff]

@[simp] theorem succeeds_read_bind (f : σ → Act σ ε α) : Succeeds (read >>= f) s ↔ Succeeds (f s) s := by
  simp [succeeds_iff]

@[simp] theorem succeeds_modify_bind (g : σ → σ) (f : Unit → Act σ ε α) :
    Succeeds (modify g >>= f) s ↔ Succeeds (f ()) (g s) := by
  simp [succeeds_iff]

@[simp] theorem succeeds_require (c : Prop) [Decidable c] (e : ε) : Succeeds (require c e : Act σ ε Unit) s ↔ c := by
  by_cases h : c <;> simp [succeeds_iff, h]

@[simp] theorem succeeds_pure_bind (b : β) (f : β → Act σ ε α) : Succeeds (pure b >>= f) s ↔ Succeeds (f b) s := by
  simp [succeeds_iff]

@[simp] theorem succeeds_ofExcept_bind (o : Except ε β) (f : β → Act σ ε α) :
    Succeeds (ofExcept o >>= f) s ↔ ∃ b, o = .ok b ∧ Succeeds (f b) s := by
  cases o <;> simp [succeeds_iff]

@[simp] theorem succeeds_require_bind (c : Prop) [Decidable c] (e : ε) (f : Unit → Act σ ε α) :
    Succeeds (require c e >>= f) s ↔ c ∧ Succeeds (f ()) s := by
  by_cases h : c <;> simp [succeeds_iff, h]

@[simp] theorem succeeds_orThrow_bind (o : Option β) (e : ε) (f : β → Act σ ε α) :
    Succeeds (orThrow o e >>= f) s ↔ ∃ b, o = some b ∧ Succeeds (f b) s := by
  cases o <;> simp [succeeds_iff]

/-- What a run that returns ensures of the state it leaves. -/
theorem wp_succeeds {x : Act σ ε α} (h : wp x (fun _ => P) E s) (hs : Succeeds x s) : P (x s).2 := by
  obtain ⟨a, t, hx⟩ := hs
  rw [hx]
  exact wp_ok h hx

/-! ## What a run returns -/

section Returning

variable {a : α}

/-- `x` returns `a` from `s` and leaves `s'`. -/
def Returns (x : Act σ ε α) (s : σ) (a : α) (s' : σ) : Prop := x s = (.ok a, s')

theorem returns_iff {x : Act σ ε α} : Returns x s a s' ↔ wp x (fun b t => b = a ∧ t = s') (fun _ _ => False) s := by
  unfold Returns wp
  rcases x s with ⟨e | b, t⟩ <;> simp

theorem wp_returns {Q : α → σ → Prop} {E : ε → σ → Prop} {x : Act σ ε α} (h : wp x Q E s) (hx : Returns x s a s') : Q a s' :=
  wp_ok h hx

theorem wp_of_returns {Q : α → σ → Prop} {E : ε → σ → Prop} {x : Act σ ε α} (hx : Returns x s a s') (hq : Q a s') :
    wp x Q E s := by
  unfold wp
  rw [hx]
  exact hq

@[simp] theorem returns_pure (b : α) : Returns (pure b : Act σ ε α) s a s' ↔ a = b ∧ s' = s := by
  simp [returns_iff, eq_comm]

@[simp] theorem returns_throw (e : ε) : Returns (throw e : Act σ ε α) s a s' ↔ False := by simp [returns_iff]

@[simp] theorem returns_read_bind (f : σ → Act σ ε α) : Returns (read >>= f) s a s' ↔ Returns (f s) s a s' := by
  simp [returns_iff]

@[simp] theorem returns_modify_bind (g : σ → σ) (f : Unit → Act σ ε α) :
    Returns (modify g >>= f) s a s' ↔ Returns (f ()) (g s) a s' := by
  simp [returns_iff]

@[simp] theorem returns_require (c : Prop) [Decidable c] (e : ε) {u : Unit} :
    Returns (require c e : Act σ ε Unit) s u s' ↔ c ∧ s' = s := by
  by_cases h : c <;> simp [returns_iff, h, eq_comm]

@[simp] theorem returns_require_bind (c : Prop) [Decidable c] (e : ε) (f : Unit → Act σ ε α) :
    Returns (require c e >>= f) s a s' ↔ c ∧ Returns (f ()) s a s' := by
  by_cases h : c <;> simp [returns_iff, h]

@[simp] theorem returns_orThrow (o : Option α) (e : ε) :
    Returns (orThrow o e : Act σ ε α) s a s' ↔ o = some a ∧ s' = s := by
  cases o <;> simp [returns_iff, eq_comm]

@[simp] theorem returns_orThrow_bind (o : Option β) (e : ε) (f : β → Act σ ε α) :
    Returns (orThrow o e >>= f) s a s' ↔ ∃ b, o = some b ∧ Returns (f b) s a s' := by
  cases o <;> simp [returns_iff]

@[simp] theorem returns_ofExcept_bind (o : Except ε β) (f : β → Act σ ε α) :
    Returns (ofExcept o >>= f) s a s' ↔ ∃ b, o = .ok b ∧ Returns (f b) s a s' := by
  cases o <;> simp [returns_iff]

@[simp] theorem returns_attempt (x : Act σ ε α) {r : Except ε α} :
    Returns (attempt x : Act σ ε (Except ε α)) s r s' ↔ x s = (r, s') := by
  unfold Returns attempt
  constructor
  · intro h
    simp only [Prod.mk.injEq, Except.ok.injEq] at h
    exact Prod.ext h.1 h.2
  · intro h
    rw [h]

theorem returns_bind (x : Act σ ε β) (f : β → Act σ ε α) :
    Returns (x >>= f) s a s' ↔ ∃ b t, Returns x s b t ∧ Returns (f b) t a s' := by
  unfold Returns
  rw [bind_run]
  rcases x s with ⟨e | b, t⟩
  · simp
  · simp only [Prod.mk.injEq, Except.ok.injEq]
    constructor
    · intro h
      exact ⟨b, t, ⟨rfl, rfl⟩, h⟩
    · rintro ⟨b', t', ⟨rfl, rfl⟩, h⟩
      exact h

end Returning

/-- A requirement that holds is gone. -/
theorem require_bind {c : Prop} [Decidable c] (hc : c) (e : ε) (f : Unit → Act σ ε α) : require c e >>= f = f () := by
  rw [require, if_pos hc]
  rfl

/-- One that does not is an error. -/
theorem require_bind_not {c : Prop} [Decidable c] (hc : ¬c) (e : ε) (f : Unit → Act σ ε α) :
    require c e >>= f = throw e := by
  rw [require, if_neg hc]
  rfl

theorem bind_assoc {γ : Type} (x : Act σ ε β) (f : β → Act σ ε γ) (g : γ → Act σ ε α) :
    x >>= f >>= g = x >>= fun b => f b >>= g := by
  funext s
  rw [bind_run, bind_run, bind_run]
  rcases x s with ⟨_ | _, _⟩ <;> rfl

/-- Making something of a value leaves the state alone. -/
theorem bind_pure_state (x : Act σ ε α) (f : α → β) (s : σ) : ((x >>= fun a => pure (f a)) s).2 = (x s).2 := by
  rw [bind_run]
  rcases x s with ⟨_ | _, _⟩ <;> rfl

end Act

end ClusterGate.Lib
