/-
  ClusterGate.Lib.Regex — the backtracking search of a regular expression, in texts whose
  elements carry units.

  The ends of a match stand in the order the search tries them: a greedy repetition goes on
  first, a lazy one stops first. The first of them is the match; a text is searched from the
  left, each time behind the last match.
  - `mem_ends_iff`: the ends are those of the stretches the expression describes.
  - `uses_of_describes`: a match has only units of the expression's classes.
  - `replaced`: a rule for what copying a unit and replacing a match both keep.
  - `replaceAll_map`: what the elements are besides their units does not matter.
-/

import Mathlib.Data.List.TakeWhile

namespace ClusterGate.Lib

/-- An expression over units: a class, a sequence, `p*`, `p*?`, `(?:r){min,max}`, and a test
    of the units before and behind a place (`\b`, `$`, `(?<!p)`, `(?!p)`). -/
inductive Regex (σ : Type) where
  | one (p : σ → Bool)
  | seq (r s : Regex σ)
  | many (p : σ → Bool)
  | lazy (p : σ → Bool)
  | times (r : Regex σ) (min max : Nat)
  | look (t : Option σ → Option σ → Bool)

namespace Regex

variable {σ α β : Type}

def chain : List (Regex σ) → Regex σ
  | [] => look fun _ _ => true
  | r :: rs => seq r (chain rs)

/-- `p+` -/
def plus (p : σ → Bool) : Regex σ := seq (one p) (many p)

def exactly (n : Nat) (p : σ → Bool) : Regex σ := times (one p) n n
def upTo (n : Nat) (p : σ → Bool) : Regex σ := times (one p) 0 n

/-! ## The search -/

/-- A place in a text: what stands before it, the nearest first, and what follows. -/
abbrev Place (α : Type) := List α × List α

def manyEnds (p : α → Bool) : List α → List α → List (Place α)
  | b, [] => [(b, [])]
  | b, a :: rest => if p a then manyEnds p (a :: b) rest ++ [(b, a :: rest)] else [(b, a :: rest)]

/-- The group matches no empty text. -/
def timesEnds (once : List α → List α → List (Place α)) (min : Nat) : Nat → List α → List α → List (Place α)
  | 0, b, rest => if min = 0 then [(b, rest)] else []
  | max + 1, b, rest =>
    (once b rest).flatMap (fun e => timesEnds once (min - 1) max e.1 e.2) ++ if min = 0 then [(b, rest)] else []

variable (unit : α → σ)

def ends : Regex σ → List α → List α → List (Place α)
  | one _, _, [] => []
  | one p, b, a :: rest => if p (unit a) then [(a :: b, rest)] else []
  | seq r s, b, rest => (ends r b rest).flatMap fun e => ends s e.1 e.2
  | many p, b, rest => manyEnds (fun a => p (unit a)) b rest
  | lazy p, b, rest => (manyEnds (fun a => p (unit a)) b rest).reverse
  | times r min max, b, rest => timesEnds (ends r) min max b rest
  | look t, b, rest => if t (b.head?.map unit) (rest.head?.map unit) then [(b, rest)] else []

/-- The match at a place, and what follows it. -/
def find (r : Regex σ) (b rest : List α) : Option (List α × List α) :=
  (r.ends unit b rest).head?.map fun e => (rest.take (rest.length - e.2.length), e.2)

/-- `text.replace(r, f)` for a global `r`; `skip` is what is left of the last match. -/
def replaceFrom (r : Regex σ) (f : List α → List α → List α → List α) : Nat → List α → List α → List α
  | _, b, [] => match r.find unit b [] with
    | some _ => f b [] []
    | none => []
  | skip + 1, b, a :: rest => replaceFrom r f skip (a :: b) rest
  | 0, b, a :: rest => match r.find unit b (a :: rest) with
    | some ([], _) => f b [] (a :: rest) ++ a :: replaceFrom r f 0 (a :: b) rest
    | some (m, after) => f b m after ++ replaceFrom r f (m.length - 1) (a :: b) rest
    | none => a :: replaceFrom r f 0 (a :: b) rest

def replaceAll (r : Regex σ) (f : List α → List α → List α → List α) (text : List α) : List α :=
  replaceFrom unit r f 0 [] text

/-- `text.replace(r, f)` for an `r` that is not global. -/
def replaceFirst (r : Regex σ) (f : List α → List α → List α → List α) : List α → List α → List α
  | b, [] => match r.find unit b [] with
    | some _ => f b [] []
    | none => []
  | b, a :: rest => match r.find unit b (a :: rest) with
    | some (m, after) => f b m after ++ after
    | none => a :: replaceFirst r f (a :: b) rest

/-! ## What an expression describes -/

/-- `n` stretches after one another. -/
def Repeats (P : List α → List α → List α → Prop) : Nat → List α → List α → List α → Prop
  | 0, _, m, _ => m = []
  | n + 1, b, m, after => ∃ x y, m = x ++ y ∧ P b x (y ++ after) ∧ Repeats P n (x.reverse ++ b) y after

/-- `m` is described where it stands, between `b` and `after`. -/
def Describes : Regex σ → List α → List α → List α → Prop
  | one p, _, m, _ => ∃ a, m = [a] ∧ p (unit a) = true
  | seq r s, b, m, after => ∃ x y, m = x ++ y ∧ Describes r b x (y ++ after) ∧ Describes s (x.reverse ++ b) y after
  | many p, _, m, _ => ∀ a ∈ m, p (unit a) = true
  | lazy p, _, m, _ => ∀ a ∈ m, p (unit a) = true
  | times r min max, b, m, after => ∃ n, min ≤ n ∧ n ≤ max ∧ Repeats (Describes r) n b m after
  | look t, b, m, after => m = [] ∧ t (b.head?.map unit) (after.head?.map unit) = true

/-- A place that is reached from another over a stretch. -/
def Reaches (P : List α → List α → List α → Prop) (b rest : List α) (e : Place α) : Prop :=
  ∃ m, rest = m ++ e.2 ∧ e.1 = m.reverse ++ b ∧ P b m e.2

variable {unit}

theorem mem_manyEnds_iff (p : α → Bool) (b rest : List α) (e : Place α) :
    e ∈ manyEnds p b rest ↔ Reaches (fun _ m _ => ∀ a ∈ m, p a = true) b rest e := by
  induction rest generalizing b with
  | nil =>
    rw [manyEnds, List.mem_singleton]
    constructor
    · intro h
      subst h
      exact ⟨[], by simp⟩
    · intro ⟨m, hm, he, _⟩
      obtain ⟨rfl, hnil⟩ := List.append_eq_nil_iff.1 hm.symm
      exact Prod.ext he hnil
  | cons a rest ih =>
    have hstop : (b, a :: rest) = e → Reaches (fun _ m _ => ∀ a ∈ m, p a = true) b (a :: rest) e := by
      intro h
      subst h
      exact ⟨[], by simp⟩
    have hgo : ∀ {m}, a :: rest = m ++ e.2 → e.1 = m.reverse ++ b → (∀ x ∈ m, p x = true) →
        (b, a :: rest) = e ∨ p a = true ∧ Reaches (fun _ m _ => ∀ a ∈ m, p a = true) (a :: b) rest e := by
      intro m hm he hall
      cases m with
      | nil => exact .inl (Prod.ext he.symm hm)
      | cons x m =>
        obtain ⟨rfl, htail⟩ := List.cons_eq_cons.1 hm
        exact .inr ⟨hall a List.mem_cons_self, m, htail, by simpa using he, fun x hx => hall x (List.mem_cons_of_mem a hx)⟩
    rw [manyEnds]
    split
    next hp =>
      rw [List.mem_append, List.mem_singleton, ih]
      constructor
      · rintro (⟨m, hm, he, hall⟩ | h)
        · exact ⟨a :: m, by simp [hm], by simp [he], by simpa [hp] using hall⟩
        · exact hstop h.symm
      · intro ⟨m, hm, he, hall⟩
        exact (hgo hm he hall).elim (fun h => .inr h.symm) fun h => .inl h.2
    next hp =>
      rw [List.mem_singleton]
      exact ⟨fun h => hstop h.symm, fun ⟨m, hm, he, hall⟩ => (hgo hm he hall).elim Eq.symm fun h => absurd h.1 hp⟩

theorem reaches_seq {P Q : List α → List α → List α → Prop} {b rest : List α} {e : Place α} :
    Reaches (fun b m after => ∃ x y, m = x ++ y ∧ P b x (y ++ after) ∧ Q (x.reverse ++ b) y after) b rest e ↔
      ∃ d, Reaches P b rest d ∧ Reaches Q d.1 d.2 e := by
  constructor
  · intro ⟨m, hm, he, x, y, hsplit, hP, hQ⟩
    subst hsplit
    exact ⟨(x.reverse ++ b, y ++ e.2), ⟨x, by rw [hm, List.append_assoc], rfl, hP⟩, y, rfl, by simp [he], hQ⟩
  · intro ⟨d, ⟨x, hx, hdx, hP⟩, y, hy, hey, hQ⟩
    refine ⟨x ++ y, by rw [hx, hy, List.append_assoc], ?_, x, y, rfl, hy ▸ hP, hdx ▸ hQ⟩
    rw [hey, hdx, List.reverse_append, List.append_assoc]

theorem reaches_here {P : List α → List α → List α → Prop} {b rest : List α} {e : Place α} :
    Reaches (fun b m after => m = [] ∧ P b m after) b rest e ↔ P b [] rest ∧ e = (b, rest) := by
  constructor
  · intro ⟨m, hm, he, hnil, hP⟩
    subst hnil
    obtain rfl : rest = e.2 := hm
    exact ⟨hP, Prod.ext he rfl⟩
  · intro ⟨hP, h⟩
    subst h
    exact ⟨[], rfl, rfl, rfl, hP⟩

theorem reaches_congr {P Q : List α → List α → List α → Prop} {b rest : List α} {e : Place α}
    (h : ∀ b m after, P b m after ↔ Q b m after) : Reaches P b rest e ↔ Reaches Q b rest e := by
  simp only [Reaches, h]

theorem mem_timesEnds_iff {once : List α → List α → List (Place α)} {P : List α → List α → List α → Prop}
    (h : ∀ b rest e, e ∈ once b rest ↔ Reaches P b rest e) (min max : Nat) (b rest : List α) (e : Place α) :
    e ∈ timesEnds once min max b rest ↔
      Reaches (fun b m after => ∃ n, min ≤ n ∧ n ≤ max ∧ Repeats P n b m after) b rest e := by
  have hstop : e ∈ (if min = 0 then [(b, rest)] else []) ↔ min = 0 ∧ e = (b, rest) := by
    split <;> simp [*]
  induction max generalizing min b rest with
  | zero =>
    have hzero : ∀ b m after, (∃ n, min ≤ n ∧ n ≤ 0 ∧ Repeats P n b m after) ↔ m = [] ∧ min = 0 := by
      intro b m after
      constructor
      · intro ⟨n, hmin, hn, hrep⟩
        obtain rfl : n = 0 := by omega
        exact ⟨hrep, by omega⟩
      · intro ⟨hm, hmin⟩
        exact ⟨0, by omega, by omega, hm⟩
    rw [timesEnds, hstop, reaches_congr hzero, reaches_here]
  | succ max ih =>
    have hsucc : ∀ b m after, (∃ n, min ≤ n ∧ n ≤ max + 1 ∧ Repeats P n b m after) ↔
        (∃ x y, m = x ++ y ∧ P b x (y ++ after) ∧
          ∃ n, min - 1 ≤ n ∧ n ≤ max ∧ Repeats P n (x.reverse ++ b) y after) ∨ m = [] ∧ min = 0 := by
      intro b m after
      constructor
      · intro ⟨n, hmin, hmax, hrep⟩
        cases n with
        | zero => exact .inr ⟨hrep, by omega⟩
        | succ n =>
          obtain ⟨x, y, hsplit, hP, hrep⟩ := hrep
          exact .inl ⟨x, y, hsplit, hP, n, by omega, by omega, hrep⟩
      · intro hcases
        cases hcases with
        | inl hgo =>
          obtain ⟨x, y, hsplit, hP, n, hmin, hmax, hrep⟩ := hgo
          exact ⟨n + 1, by omega, by omega, x, y, hsplit, hP, hrep⟩
        | inr hnil => exact ⟨0, by omega, by omega, hnil.1⟩
    have hor : Reaches (fun b m after => ∃ n, min ≤ n ∧ n ≤ max + 1 ∧ Repeats P n b m after) b rest e ↔
        (∃ d, Reaches P b rest d ∧
          Reaches (fun b m after => ∃ n, min - 1 ≤ n ∧ n ≤ max ∧ Repeats P n b m after) d.1 d.2 e) ∨
        min = 0 ∧ e = (b, rest) := by
      rw [reaches_congr hsucc, ← reaches_seq, ← reaches_here (P := fun _ _ _ => min = 0)]
      simp only [Reaches, and_or_left, exists_or]
    rw [timesEnds, List.mem_append, hstop, hor, List.mem_flatMap]
    have hnext : ∀ d : Place α, _ := fun d => ih (min - 1) d.1 d.2 (by split <;> simp [*])
    simp only [h, hnext]

theorem mem_ends_iff (r : Regex σ) (b rest : List α) (e : Place α) :
    e ∈ r.ends unit b rest ↔ Reaches (r.Describes unit) b rest e := by
  induction r generalizing b rest e with
  | one p =>
    cases rest with
    | nil => simp [ends, Reaches, Describes]
    | cons a rest =>
      rw [ends]
      constructor
      · intro h
        split at h
        next hp => exact ⟨[a], by simp [List.mem_singleton.1 h], by simp [List.mem_singleton.1 h], a, rfl, hp⟩
        next => cases h
      · intro ⟨m, hm, he, x, hx, hp⟩
        subst hx
        obtain ⟨rfl, hrest⟩ := List.cons_eq_cons.1 hm
        rw [if_pos hp, List.mem_singleton]
        exact Prod.ext he hrest.symm
  | seq r s ihr ihs =>
    rw [ends, List.mem_flatMap]
    simp only [ihr, ihs]
    exact reaches_seq.symm
  | many p => exact mem_manyEnds_iff _ b rest e
  | lazy p =>
    rw [ends, List.mem_reverse]
    exact mem_manyEnds_iff _ b rest e
  | times r min max ih => exact mem_timesEnds_iff ih min max b rest e
  | look t =>
    refine Iff.trans ?_ (reaches_here (P := fun b _ after => t (b.head?.map unit) (after.head?.map unit) = true)).symm
    rw [ends]
    split <;> simp [*]

/-! ### What is described -/

@[simp] theorem describes_nil {b m after : List α} : (chain []).Describes unit b m after ↔ m = [] := by
  simp [chain, Describes]

@[simp] theorem describes_cons {r : Regex σ} {rs : List (Regex σ)} {b m after : List α} :
    (chain (r :: rs)).Describes unit b m after ↔
      ∃ x y, m = x ++ y ∧ r.Describes unit b x (y ++ after) ∧ (chain rs).Describes unit (x.reverse ++ b) y after :=
  Iff.rfl

@[simp] theorem describes_look {t : Option σ → Option σ → Bool} {b m after : List α} :
    (look t).Describes unit b m after ↔ m = [] ∧ t (b.head?.map unit) (after.head?.map unit) = true :=
  Iff.rfl

@[simp] theorem describes_one {p : σ → Bool} {b m after : List α} :
    (one p).Describes unit b m after ↔ ∃ a, m = [a] ∧ p (unit a) = true :=
  Iff.rfl

theorem describes_plus {p : σ → Bool} {b m after : List α} :
    (plus p).Describes unit b m after ↔ m ≠ [] ∧ ∀ a ∈ m, p (unit a) = true := by
  simp only [plus, Describes]
  constructor
  · intro ⟨x, y, hm, ⟨a, ha, hp⟩, hall⟩
    subst hm ha
    simpa [hp] using hall
  · intro ⟨hne, hall⟩
    obtain ⟨a, m, rfl⟩ := List.exists_cons_of_ne_nil hne
    exact ⟨[a], m, rfl, ⟨a, rfl, hall a List.mem_cons_self⟩, fun x hx => hall x (List.mem_cons_of_mem a hx)⟩

theorem repeats_one {p : σ → Bool} {n : Nat} {b m after : List α} :
    Repeats ((one p).Describes unit) n b m after ↔ m.length = n ∧ ∀ a ∈ m, p (unit a) = true := by
  induction n generalizing b m with
  | zero =>
    rw [Repeats, List.length_eq_zero_iff]
    exact ⟨fun h => ⟨h, by simp [h]⟩, fun h => h.1⟩
  | succ n ih =>
    simp only [Repeats, ih]
    constructor
    · intro ⟨x, y, hm, ⟨a, ha, hp⟩, hlen, hall⟩
      subst hm ha
      exact ⟨by simp [hlen], by simpa [hp] using hall⟩
    · intro ⟨hlen, hall⟩
      obtain ⟨a, m, rfl⟩ := List.exists_cons_of_length_eq_add_one hlen
      exact ⟨[a], m, rfl, ⟨a, rfl, hall a List.mem_cons_self⟩, by simpa using hlen,
        fun x hx => hall x (List.mem_cons_of_mem a hx)⟩

theorem describes_times_one {p : σ → Bool} {min max : Nat} {b m after : List α} :
    (times (one p) min max).Describes unit b m after ↔
      min ≤ m.length ∧ m.length ≤ max ∧ ∀ a ∈ m, p (unit a) = true := by
  constructor
  · intro ⟨n, hmin, hmax, hrep⟩
    obtain ⟨hlen, hall⟩ := repeats_one.1 hrep
    exact ⟨by omega, by omega, hall⟩
  · intro ⟨hmin, hmax, hall⟩
    exact ⟨m.length, hmin, hmax, repeats_one.2 ⟨rfl, hall⟩⟩

theorem describes_exactly {p : σ → Bool} {n : Nat} {b m after : List α} :
    (exactly n p).Describes unit b m after ↔ m.length = n ∧ ∀ a ∈ m, p (unit a) = true := by
  rw [exactly, describes_times_one, ← and_assoc]
  exact and_congr_left fun _ => by omega

theorem describes_upTo {p : σ → Bool} {n : Nat} {b m after : List α} :
    (upTo n p).Describes unit b m after ↔ m.length ≤ n ∧ ∀ a ∈ m, p (unit a) = true := by
  rw [upTo, describes_times_one]
  simp

/-- The units of the classes of an expression. -/
def uses : Regex σ → σ → Bool
  | one p => p
  | seq r s => fun u => r.uses u || s.uses u
  | many p => p
  | lazy p => p
  | times r _ _ => r.uses
  | look _ => fun _ => false

theorem uses_of_repeats {p : σ → Bool} {P : List α → List α → List α → Prop} (h : ∀ b m after, P b m after → ∀ a ∈ m, p (unit a) = true)
    {n : Nat} {b m after : List α} (hrep : Repeats P n b m after) : ∀ a ∈ m, p (unit a) = true := by
  induction n generalizing b m with
  | zero =>
    obtain rfl : m = [] := hrep
    simp
  | succ n ih =>
    obtain ⟨x, y, rfl, hP, hrep⟩ := hrep
    intro a ha
    rcases List.mem_append.1 ha with hx | hy
    · exact h _ _ _ hP a hx
    · exact ih hrep a hy

theorem uses_of_describes (r : Regex σ) {b m after : List α} (h : r.Describes unit b m after) :
    ∀ a ∈ m, r.uses (unit a) = true := by
  induction r generalizing b m after with
  | one p =>
    obtain ⟨a, rfl, hp⟩ := h
    simpa [uses] using hp
  | seq r s ihr ihs =>
    obtain ⟨x, y, rfl, hr, hs⟩ := h
    intro a ha
    rw [uses, Bool.or_eq_true]
    exact (List.mem_append.1 ha).imp (ihr hr a) (ihs hs a)
  | many p => exact h
  | lazy p => exact h
  | times r min max ih =>
    obtain ⟨n, -, -, hrep⟩ := h
    exact uses_of_repeats (fun b m after => ih) hrep
  | look t =>
    obtain ⟨rfl, -⟩ := h
    simp

/-- An expression that needs a unit. -/
def consumes : Regex σ → Bool
  | one _ => true
  | seq r s => r.consumes || s.consumes
  | many _ => false
  | lazy _ => false
  | times r min _ => 0 < min && r.consumes
  | look _ => false

/-- The expression describes no empty stretch. -/
def Solid (unit : α → σ) (r : Regex σ) : Prop := ∀ b m after, r.Describes unit b m after → m ≠ []

theorem solid_of_consumes {r : Regex σ} (hr : r.consumes = true) : r.Solid unit := by
  intro b m after h
  induction r generalizing b m after with
  | one p =>
    obtain ⟨a, rfl, -⟩ := h
    exact List.cons_ne_nil a []
  | seq r s ihr ihs =>
    obtain ⟨x, y, rfl, hx, hy⟩ := h
    rw [consumes, Bool.or_eq_true] at hr
    rcases hr with hr | hs
    · exact List.append_ne_nil_of_left_ne_nil (ihr hr _ _ _ hx) y
    · exact List.append_ne_nil_of_right_ne_nil x (ihs hs _ _ _ hy)
  | many p => cases hr
  | lazy p => cases hr
  | times r min max ih =>
    simp only [consumes, Bool.and_eq_true, decide_eq_true_eq] at hr
    obtain ⟨n, hmin, -, hrep⟩ := h
    cases n with
    | zero => omega
    | succ n =>
      obtain ⟨x, y, rfl, hx, -⟩ := hrep
      exact List.append_ne_nil_of_left_ne_nil (ih hr.2 _ _ _ hx) y
  | look t => cases hr

/-- The units a stretch may begin with. -/
def begins : Regex σ → σ → Bool
  | one p => p
  | seq r s => fun u => r.begins u || (!r.consumes && s.begins u)
  | many p => p
  | lazy p => p
  | times r _ _ => r.begins
  | look _ => fun _ => false

theorem begins_of_repeats {p : σ → Bool} {P : List α → List α → List α → Prop}
    (h : ∀ b m after, P b m after → ∀ a ∈ m.head?, p (unit a) = true) {n : Nat} {b m after : List α}
    (hrep : Repeats P n b m after) : ∀ a ∈ m.head?, p (unit a) = true := by
  induction n generalizing b m with
  | zero =>
    obtain rfl : m = [] := hrep
    simp
  | succ n ih =>
    obtain ⟨x, y, rfl, hP, hrep⟩ := hrep
    cases x with
    | nil => exact ih hrep
    | cons a x => exact fun c hc => h _ _ _ hP c hc

theorem begins_of_describes (r : Regex σ) {b m after : List α} (h : r.Describes unit b m after) :
    ∀ a ∈ m.head?, r.begins (unit a) = true := by
  induction r generalizing b m after with
  | one p =>
    obtain ⟨a, rfl, hp⟩ := h
    simpa [begins] using hp
  | seq r s ihr ihs =>
    obtain ⟨x, y, rfl, hr, hs⟩ := h
    intro a ha
    rw [begins, Bool.or_eq_true]
    cases x with
    | nil =>
      refine .inr ?_
      have hnot : r.consumes = false := by
        by_contra hcon
        exact solid_of_consumes (by simpa using hcon) _ _ _ hr rfl
      rw [hnot, ihs hs a ha]
      rfl
    | cons x xs => exact .inl (ihr hr a ha)
  | many p => exact fun a ha => h a (List.mem_of_head? ha)
  | lazy p => exact fun a ha => h a (List.mem_of_head? ha)
  | times r min max ih =>
    obtain ⟨n, -, -, hrep⟩ := h
    exact begins_of_repeats (fun b m after => ih) hrep
  | look t =>
    obtain ⟨rfl, -⟩ := h
    simp

theorem repeats_congr {P : List α → List α → List α → Prop}
    (h : ∀ b b' m after after', b.head? = b'.head? → after.head? = after'.head? → P b m after → P b' m after')
    {n : Nat} {b b' m after after' : List α} (hb : b.head? = b'.head?) (hafter : after.head? = after'.head?)
    (hrep : Repeats P n b m after) : Repeats P n b' m after' := by
  induction n generalizing b b' m with
  | zero => exact hrep
  | succ n ih =>
    obtain ⟨x, y, hm, hP, hrep⟩ := hrep
    exact ⟨x, y, hm, h _ _ _ _ _ hb (by simp [hafter]) hP, ih (by simp [hb]) hrep⟩

/-- Of what stands around a stretch only the nearest units matter. -/
theorem describes_congr (r : Regex σ) {b b' m after after' : List α} (hb : b.head? = b'.head?)
    (hafter : after.head? = after'.head?) (h : r.Describes unit b m after) : r.Describes unit b' m after' := by
  induction r generalizing b b' m after after' with
  | one p => exact h
  | seq r s ihr ihs =>
    obtain ⟨x, y, hm, hx, hy⟩ := h
    exact ⟨x, y, hm, ihr hb (by simp [hafter]) hx, ihs (by simp [hb]) hafter hy⟩
  | many p => exact h
  | lazy p => exact h
  | times r min max ih =>
    obtain ⟨n, hmin, hmax, hrep⟩ := h
    exact ⟨n, hmin, hmax, repeats_congr (P := r.Describes unit) (fun _ _ _ _ _ hb hafter h => ih hb hafter h) hb hafter hrep⟩
  | look t => exact ⟨h.1, by rw [← hb, ← hafter]; exact h.2⟩

/-! ## The match -/

theorem find_eq_some {r : Regex σ} {b rest m after : List α} (h : r.find unit b rest = some (m, after)) :
    rest = m ++ after ∧ r.Describes unit b m after := by
  obtain ⟨e, he, hm⟩ := Option.map_eq_some_iff.1 h
  obtain ⟨n, hrest, -, hdesc⟩ := (mem_ends_iff r b rest e).1 (List.mem_of_head? he)
  have htake : rest.take (rest.length - e.2.length) = n := by simp [hrest]
  rw [htake] at hm
  obtain ⟨rfl, rfl⟩ := Prod.mk.inj hm
  exact ⟨hrest, hdesc⟩

theorem find_eq_none {r : Regex σ} {b rest : List α} (h : r.find unit b rest = none) {m after : List α}
    (hrest : rest = m ++ after) : ¬r.Describes unit b m after := by
  intro hdesc
  have hmem : (m.reverse ++ b, after) ∈ r.ends unit b rest := (mem_ends_iff r b rest _).2 ⟨m, hrest, rfl, hdesc⟩
  rw [find, Option.map_eq_none_iff, List.head?_eq_none_iff] at h
  rw [h] at hmem
  cases hmem

theorem find_eq_none_iff {r : Regex σ} {b rest : List α} :
    r.find unit b rest = none ↔ ∀ m after, rest = m ++ after → ¬r.Describes unit b m after := by
  refine ⟨fun h m after => find_eq_none h, fun h => ?_⟩
  cases hfind : r.find unit b rest with
  | none => rfl
  | some e =>
    obtain ⟨hrest, hdesc⟩ := find_eq_some hfind
    exact absurd hdesc (h _ _ hrest)

/-- A test behind an expression keeps the ends that pass it. -/
theorem ends_look (r : Regex σ) (t : Option σ → Option σ → Bool) (b rest : List α) :
    (chain [r, look t]).ends unit b rest =
      (r.ends unit b rest).filter fun e => t (e.1.head?.map unit) (e.2.head?.map unit) := by
  simp only [chain, ends]
  induction r.ends unit b rest with
  | nil => rfl
  | cons e es ih =>
    rw [List.flatMap_cons, List.filter_cons, ih]
    cases t (e.1.head?.map unit) (e.2.head?.map unit) <;> rfl

/-! ## Replacing -/

section Replace

variable {r : Regex σ} {f : List α → List α → List α → List α}

theorem replaceFrom_skip (xs b rest : List α) :
    replaceFrom unit r f xs.length b (xs ++ rest) = replaceFrom unit r f 0 (xs.reverse ++ b) rest := by
  induction xs generalizing b with
  | nil => rfl
  | cons a xs ih =>
    rw [List.length_cons, List.cons_append, replaceFrom, ih, List.reverse_cons, List.append_assoc]
    rfl

theorem replaceFrom_nil (hr : r.Solid unit) (b : List α) : replaceFrom unit r f 0 b [] = [] := by
  rw [replaceFrom]
  split
  next e hfind =>
    obtain ⟨hnil, hdesc⟩ := find_eq_some hfind
    exact absurd (List.append_eq_nil_iff.1 hnil.symm).1 (hr _ _ _ hdesc)
  next => rfl

theorem replaceFrom_none {b rest : List α} {a : α} (h : r.find unit b (a :: rest) = none) :
    replaceFrom unit r f 0 b (a :: rest) = a :: replaceFrom unit r f 0 (a :: b) rest := by
  rw [replaceFrom, h]

theorem replaceFrom_some (hr : r.Solid unit) {b m after : List α} (h : r.find unit b (m ++ after) = some (m, after)) :
    replaceFrom unit r f 0 b (m ++ after) = f b m after ++ replaceFrom unit r f 0 (m.reverse ++ b) after := by
  obtain ⟨a, xs, rfl⟩ := List.exists_cons_of_ne_nil (hr _ _ _ (find_eq_some h).2)
  rw [List.cons_append] at h ⊢
  rw [replaceFrom, h, List.reverse_cons, List.append_assoc]
  exact congrArg (f b (a :: xs) after ++ ·) (replaceFrom_skip xs (a :: b) after)

/-- A rule for replacements: `P before rest out` holds of what a text is replaced by if it
    holds of nothing, and is kept by copying a unit where nothing matches and by replacing a
    match. -/
theorem replaced {P : List α → List α → List α → Prop} (hr : r.Solid unit) (nil : ∀ b, P b [] [])
    (copy : ∀ b a rest out, r.find unit b (a :: rest) = none → P (a :: b) rest out → P b (a :: rest) (a :: out))
    (swap : ∀ b m after out, r.find unit b (m ++ after) = some (m, after) → P (m.reverse ++ b) after out →
      P b (m ++ after) (f b m after ++ out))
    (b rest : List α) : P b rest (replaceFrom unit r f 0 b rest) := by
  induction hlen : rest.length using Nat.strong_induction_on generalizing b rest with
  | _ n ih =>
    cases rest with
    | nil =>
      rw [replaceFrom_nil hr]
      exact nil b
    | cons a rest =>
      cases hfind : r.find unit b (a :: rest) with
      | none =>
        rw [replaceFrom_none hfind]
        exact copy b a rest _ hfind (ih rest.length (by simp [← hlen]) (a :: b) rest rfl)
      | some e =>
        obtain ⟨m, after⟩ := e
        obtain ⟨hsplit, hdesc⟩ := find_eq_some hfind
        have hpos : 0 < m.length := List.length_pos_iff.2 (hr _ _ _ hdesc)
        rw [hsplit] at hfind hlen ⊢
        rw [List.length_append] at hlen
        rw [replaceFrom_some hr hfind]
        exact swap b m after _ hfind (ih after.length (by omega) _ after rfl)

/-- Where no match begins a text is copied. -/
theorem replaceFrom_copy {xs b rest : List α}
    (h : ∀ x y, xs = x ++ y → y ≠ [] → r.find unit (x.reverse ++ b) (y ++ rest) = none) :
    replaceFrom unit r f 0 b (xs ++ rest) = xs ++ replaceFrom unit r f 0 (xs.reverse ++ b) rest := by
  induction xs generalizing b with
  | nil => rfl
  | cons a xs ih =>
    have hhere : r.find unit b (a :: (xs ++ rest)) = none := h [] (a :: xs) rfl (List.cons_ne_nil a xs)
    have hnext := ih (b := a :: b) fun x y hxs hy => by
      simpa using h (a :: x) y (by rw [hxs, List.cons_append]) hy
    rw [List.cons_append, replaceFrom_none hhere, hnext]
    simp

theorem mem_replaceFrom (hr : r.Solid unit) {Q : α → Prop} (hf : ∀ b m after, ∀ a ∈ f b m after, a ∈ m ∨ Q a) (b rest : List α) :
    ∀ a ∈ replaceFrom unit r f 0 b rest, a ∈ rest ∨ Q a := by
  refine replaced (P := fun _ rest out => ∀ a ∈ out, a ∈ rest ∨ Q a) hr (by simp) ?_ ?_ b rest
  · intro b x rest out _ ih a ha
    rcases List.mem_cons.1 ha with rfl | hout
    · exact .inl List.mem_cons_self
    · exact (ih a hout).imp_left (List.mem_cons_of_mem x)
  · intro b m after out _ ih a ha
    rcases List.mem_append.1 ha with hm | hout
    · exact (hf b m after a hm).imp_left (List.mem_append_left after)
    · exact (ih a hout).imp_left (List.mem_append_right m)

theorem mem_replaceFirst {Q : α → Prop} (hf : ∀ b m after, ∀ a ∈ f b m after, a ∈ m ∨ Q a) (b rest : List α) :
    ∀ a ∈ replaceFirst unit r f b rest, a ∈ rest ∨ Q a := by
  induction rest generalizing b with
  | nil =>
    intro a ha
    rw [replaceFirst] at ha
    split at ha
    · exact hf b [] [] a ha
    · cases ha
  | cons x rest ih =>
    intro a ha
    rw [replaceFirst] at ha
    split at ha
    next m after hfind =>
      rw [(find_eq_some hfind).1, List.mem_append]
      rcases List.mem_append.1 ha with hm | hafter
      · exact (hf b m after a hm).imp_left .inl
      · exact .inl (.inr hafter)
    next =>
      rcases List.mem_cons.1 ha with rfl | hrest
      · exact .inl List.mem_cons_self
      · exact (ih (x :: b) a hrest).imp_left (List.mem_cons_of_mem x)

/-- What is described somewhere is replaced by a search that is not global. -/
theorem replaceFirst_found {b x y z : List α} (h : r.Describes unit (x.reverse ++ b) y z) :
    ∃ x' b' y' z', replaceFirst unit r f b (x ++ (y ++ z)) = x' ++ (f b' y' z' ++ z') := by
  induction x generalizing b with
  | nil =>
    rw [List.nil_append]
    have hfind : ∃ e, r.find unit b (y ++ z) = some e := by
      by_contra hnone
      rw [← Option.ne_none_iff_exists', not_not] at hnone
      exact find_eq_none_iff.1 hnone y z rfl h
    obtain ⟨⟨m, after⟩, hm⟩ := hfind
    have hrest := (find_eq_some hm).1
    cases hyz : y ++ z with
    | nil =>
      rw [hyz] at hm hrest
      obtain ⟨-, rfl⟩ := List.append_eq_nil_iff.1 hrest.symm
      exact ⟨[], b, [], [], by rw [replaceFirst, hm]; simp⟩
    | cons a rest =>
      rw [hyz] at hm
      exact ⟨[], b, m, after, by rw [replaceFirst, hm]; rfl⟩
  | cons a x ih =>
    rw [List.cons_append]
    cases hfind : r.find unit b (a :: (x ++ (y ++ z))) with
    | some e => exact ⟨[], b, e.1, e.2, by rw [replaceFirst, hfind]; rfl⟩
    | none =>
      obtain ⟨x', b', y', z', heq⟩ := ih (b := a :: b) (by simpa using h)
      exact ⟨a :: x', b', y', z', by rw [replaceFirst, hfind, List.cons_append, heq]⟩

/-- The places of a text at which a global search with `find` looks for a match. -/
inductive Tries (find : List α → List α → Option (List α × List α)) (text : List α) : List α → List α → Prop
  | start : Tries find text [] text
  | copy {b rest : List α} {a : α} : Tries find text b (a :: rest) → find b (a :: rest) = none → Tries find text (a :: b) rest
  | swap {b m after : List α} : Tries find text b (m ++ after) → find b (m ++ after) = some (m, after) →
      Tries find text (m.reverse ++ b) after

/-- What is written before a place comes from what stands before it. -/
theorem Tries.written (hr : r.Solid unit) {Q : α → Prop} (hf : ∀ b m after, ∀ a ∈ f b m after, a ∈ m ∨ Q a) {text b rest : List α}
    (h : Tries (r.find unit) text b rest) :
    text = b.reverse ++ rest ∧
      ∃ out, replaceAll unit r f text = out ++ replaceFrom unit r f 0 b rest ∧ ∀ a ∈ out, a ∈ b ∨ Q a := by
  induction h with
  | start => exact ⟨rfl, [], rfl, by simp⟩
  | copy _ hfind ih =>
    obtain ⟨htext, out, hout, hmem⟩ := ih
    refine ⟨by simp [htext], out ++ [_], by rw [hout, replaceFrom_none hfind, List.append_cons], ?_⟩
    intro x hx
    rcases List.mem_append.1 hx with hx | hx
    · exact (hmem x hx).imp_left (List.mem_cons_of_mem _)
    · exact .inl (by simp [List.mem_singleton.1 hx])
  | swap _ hfind ih =>
    obtain ⟨htext, out, hout, hmem⟩ := ih
    refine ⟨by simp [htext], out ++ f _ _ _, by rw [hout, replaceFrom_some hr hfind, List.append_assoc], ?_⟩
    intro x hx
    rcases List.mem_append.1 hx with hx | hx
    · exact (hmem x hx).imp_left (List.mem_append_right _)
    · exact (hf _ _ _ x hx).imp_left fun hm => List.mem_append_left _ (List.mem_reverse.2 hm)

/-- What is not in the replacement was in a match that was replaced by something without it. -/
theorem lost (hr : r.Solid unit) {text b rest : List α} (h : Tries (r.find unit) text b rest) {a : α} (ha : a ∈ rest)
    (hlost : a ∉ replaceFrom unit r f 0 b rest) :
    ∃ b m after, Tries (r.find unit) text b (m ++ after) ∧ r.find unit b (m ++ after) = some (m, after) ∧ a ∈ m ∧
      a ∉ f b m after := by
  revert h ha hlost
  refine replaced (P := fun b rest out => Tries (r.find unit) text b rest → a ∈ rest → a ∉ out → _) hr ?_ ?_ ?_ b rest
  · intro b _ ha
    cases ha
  · intro b x rest out hfind ih h ha hlost
    rcases List.mem_cons.1 ha with rfl | ha
    · exact absurd List.mem_cons_self hlost
    · exact ih (h.copy hfind) ha fun hout => hlost (List.mem_cons_of_mem x hout)
  · intro b m after out hfind ih h ha hlost
    rw [List.mem_append, not_or] at hlost
    rcases List.mem_append.1 ha with hm | ha
    · exact ⟨b, m, after, h, hfind, hm, hlost.1⟩
    · exact ih (h.swap hfind) ha hlost.2

end Replace

/-! ## What the elements are -/

section Map

variable {unit' : β → σ} {g : α → β}

def Place.map (g : α → β) (e : Place α) : Place β := (e.1.map g, e.2.map g)

theorem manyEnds_map {p : α → Bool} {q : β → Bool} (h : ∀ a, q (g a) = p a) (b rest : List α) :
    manyEnds q (b.map g) (rest.map g) = (manyEnds p b rest).map (Place.map g) := by
  induction rest generalizing b with
  | nil => rfl
  | cons a rest ih =>
    rw [manyEnds, List.map_cons, manyEnds, h]
    split
    · rw [List.map_append, ← ih (a :: b)]
      rfl
    · rfl

theorem timesEnds_map {once : List α → List α → List (Place α)} {once' : List β → List β → List (Place β)}
    (h : ∀ b rest, once' (b.map g) (rest.map g) = (once b rest).map (Place.map g)) (min max : Nat) (b rest : List α) :
    timesEnds once' min max (b.map g) (rest.map g) = (timesEnds once min max b rest).map (Place.map g) := by
  have hstop : (if min = 0 then [(b.map g, rest.map g)] else []) = (if min = 0 then [(b, rest)] else []).map (Place.map g) := by
    split <;> rfl
  induction max generalizing min b rest with
  | zero => rw [timesEnds, timesEnds, hstop]
  | succ max ih =>
    rw [timesEnds, timesEnds, List.map_append, hstop, h, List.flatMap_map, List.map_flatMap]
    congr 2
    funext e
    exact ih (min - 1) e.1 e.2 (by split <;> rfl)

theorem ends_map (h : ∀ a, unit' (g a) = unit a) (r : Regex σ) (b rest : List α) :
    r.ends unit' (b.map g) (rest.map g) = (r.ends unit b rest).map (Place.map g) := by
  have hhead : ∀ xs : List α, (xs.map g).head?.map unit' = xs.head?.map unit := by
    intro xs
    cases xs <;> simp [h]
  induction r generalizing b rest with
  | one p =>
    cases rest with
    | nil => rfl
    | cons a rest =>
      rw [List.map_cons, ends, ends, h]
      split <;> rfl
  | seq r s ihr ihs =>
    rw [ends, ends, ihr, List.flatMap_map, List.map_flatMap]
    congr 1
    funext e
    exact ihs e.1 e.2
  | many p => exact manyEnds_map (fun a => by rw [h]) b rest
  | lazy p =>
    rw [ends, ends, List.map_reverse]
    exact congrArg List.reverse (manyEnds_map (fun a => by rw [h]) b rest)
  | times r min max ih => exact timesEnds_map ih min max b rest
  | look t =>
    rw [ends, ends, hhead, hhead]
    split <;> rfl

theorem find_map (h : ∀ a, unit' (g a) = unit a) (r : Regex σ) (b rest : List α) :
    r.find unit' (b.map g) (rest.map g) = (r.find unit b rest).map (Place.map g) := by
  rw [find, find, ends_map h, List.head?_map, Option.map_map, Option.map_map]
  congr 1
  funext e
  simp [Place.map, List.map_take]

theorem replaceFrom_map (h : ∀ a, unit' (g a) = unit a) (r : Regex σ) {f : List α → List α → List α → List α}
    {f' : List β → List β → List β → List β} (hf : ∀ b m after, f' (b.map g) (m.map g) (after.map g) = (f b m after).map g)
    (skip : Nat) (b rest : List α) :
    replaceFrom unit' r f' skip (b.map g) (rest.map g) = (replaceFrom unit r f skip b rest).map g := by
  induction rest generalizing skip b with
  | nil =>
    have hfind := find_map h r b []
    rw [List.map_nil] at hfind ⊢
    rw [replaceFrom, replaceFrom, hfind]
    cases r.find unit b [] with
    | none => rfl
    | some e => exact hf b [] []
  | cons a rest ih =>
    cases skip with
    | succ skip => exact ih skip (a :: b)
    | zero =>
      have hfind := find_map h r b (a :: rest)
      have hnext : ∀ k, _ := fun k => ih k (a :: b)
      rw [List.map_cons] at hfind ⊢
      rw [replaceFrom, replaceFrom, hfind]
      rcases r.find unit b (a :: rest) with _ | ⟨_ | ⟨x, m⟩, after⟩
      · exact congrArg (g a :: ·) (hnext 0)
      · show f' (b.map g) [] (g a :: rest.map g) ++ g a :: _ = _
        rw [List.map_append, List.map_cons, ← hnext 0, ← hf]
        rfl
      · show f' (b.map g) ((x :: m).map g) (after.map g) ++ _ = _
        rw [List.map_append, ← hnext, ← hf]
        simp

theorem replaceFirst_map (h : ∀ a, unit' (g a) = unit a) (r : Regex σ) {f : List α → List α → List α → List α}
    {f' : List β → List β → List β → List β} (hf : ∀ b m after, f' (b.map g) (m.map g) (after.map g) = (f b m after).map g)
    (b rest : List α) :
    replaceFirst unit' r f' (b.map g) (rest.map g) = (replaceFirst unit r f b rest).map g := by
  induction rest generalizing b with
  | nil =>
    have hfind := find_map h r b []
    rw [List.map_nil] at hfind ⊢
    rw [replaceFirst, replaceFirst, hfind]
    cases r.find unit b [] with
    | none => rfl
    | some e => exact hf b [] []
  | cons a rest ih =>
    have hfind := find_map h r b (a :: rest)
    rw [List.map_cons] at hfind ⊢
    rw [replaceFirst, replaceFirst, hfind]
    cases r.find unit b (a :: rest) with
    | none => exact congrArg (g a :: ·) (ih (a :: b))
    | some e =>
      show f' (b.map g) (e.1.map g) (e.2.map g) ++ e.2.map g = _
      rw [hf, ← List.map_append]

/-- A replacement does not depend on what the elements of the text are besides their units. -/
theorem replaceAll_map (h : ∀ a, unit' (g a) = unit a) (r : Regex σ) {f : List α → List α → List α → List α}
    {f' : List β → List β → List β → List β} (hf : ∀ b m after, f' (b.map g) (m.map g) (after.map g) = (f b m after).map g)
    (text : List α) : replaceAll unit' r f' (text.map g) = (replaceAll unit r f text).map g :=
  replaceFrom_map h r hf 0 [] text

end Map

end Regex

end ClusterGate.Lib
