/-
  ClusterGate.Lib.Sql — the truth values of SQL, and its patterns.

  A comparison with NULL is unknown (`none`); AND, OR and NOT are Kleene's, and a filter
  selects a row only where it is true (`Selects`). The lemmas say what it takes for each
  connective to be true, so a filter is read off as a proposition about the columns.

  A pattern of LIKE has `%` for any text, `_` for one character and a backslash before a
  character meant literally; `like_contains`: `%text%` of a text without these is the
  search for a substring.
-/

import ClusterGate.Lib.Text
import Mathlib.Data.List.Infix

namespace ClusterGate.Lib.Sql

/-- True, false or unknown. -/
abbrev Truth := Option Bool

def not_ (a : Truth) : Truth := a.map (!·)

def and_ : Truth → Truth → Truth
  | some false, _ => some false
  | _, some false => some false
  | some true, some true => some true
  | _, _ => none

def or_ : Truth → Truth → Truth
  | some true, _ => some true
  | _, some true => some true
  | some false, some false => some false
  | _, _ => none

/-- A conjunction of any length. -/
def all (ts : List Truth) : Truth := ts.foldr and_ (some true)

/-- A disjunction of any length. -/
def any (ts : List Truth) : Truth := ts.foldr or_ (some false)

/-- A comparison of a column that may be NULL. -/
def cmp {α : Type} (p : α → Bool) (column : Option α) : Truth := column.map p

def isNull {α : Type} (column : Option α) : Truth := some column.isNone

/-- The filter takes the row. -/
def Selects (t : Truth) : Prop := t = some true

instance (t : Truth) : Decidable (Selects t) := inferInstanceAs (Decidable (t = some true))

@[simp] theorem selects_true : Selects (some true) := rfl

@[simp] theorem not_selects_false : ¬Selects (some false) := by simp [Selects]

@[simp] theorem selects_and (a b : Truth) : Selects (and_ a b) ↔ Selects a ∧ Selects b := by
  rcases a with - | - | - <;> rcases b with - | - | - <;> simp [Selects, and_]

@[simp] theorem selects_or (a b : Truth) : Selects (or_ a b) ↔ Selects a ∨ Selects b := by
  rcases a with - | - | - <;> rcases b with - | - | - <;> simp [Selects, or_]

theorem selects_all (ts : List Truth) : Selects (all ts) ↔ ∀ t ∈ ts, Selects t := by
  induction ts with
  | nil => simp [all]
  | cons t ts ih =>
    show Selects (and_ t (all ts)) ↔ _
    rw [selects_and, ih, List.forall_mem_cons]

theorem selects_any (ts : List Truth) : Selects (any ts) ↔ ∃ t ∈ ts, Selects t := by
  induction ts with
  | nil => simp [any]
  | cons t ts ih =>
    show Selects (or_ t (any ts)) ↔ _
    rw [selects_or, ih, List.exists_mem_cons_iff]

@[simp] theorem selects_isNull {α : Type} (column : Option α) : Selects (isNull column) ↔ column = none := by
  cases column <;> simp [Selects, isNull]

@[simp] theorem selects_not_isNull {α : Type} (column : Option α) :
    Selects (not_ (isNull column)) ↔ column ≠ none := by
  cases column <;> simp [Selects, isNull, not_]

/-- A comparison is true of a value only: of NULL it is unknown. -/
@[simp] theorem selects_cmp {α : Type} (p : α → Bool) (column : Option α) :
    Selects (cmp p column) ↔ ∃ v, column = some v ∧ p v = true := by
  cases column <;> simp [Selects, cmp]

/-- So is its negation. -/
@[simp] theorem selects_not_cmp {α : Type} (p : α → Bool) (column : Option α) :
    Selects (not_ (cmp p column)) ↔ ∃ v, column = some v ∧ p v = false := by
  cases column <;> simp [Selects, cmp, not_]

/-! ## Patterns -/

/-- A piece of a pattern. -/
inductive Piece
  | any
  | one
  | char (c : Char)

def pieces (escaped : Bool) : List Char → List Piece
  | [] => []
  | c :: cs =>
    if escaped then .char c :: pieces false cs
    else if c = '\\' then pieces true cs
    else if c = '%' then .any :: pieces false cs
    else if c = '_' then .one :: pieces false cs
    else .char c :: pieces false cs

def matchesPieces : List Piece → List Char → Bool
  | [], text => text.isEmpty
  | .any :: ps, text => text.tails.any fun t => matchesPieces ps t
  | .one :: ps, text => match text with
    | [] => false
    | _ :: text => matchesPieces ps text
  | .char p :: ps, text => match text with
    | [] => false
    | c :: text => p = c && matchesPieces ps text

/-- `text LIKE pattern`. -/
def like (pattern text : String) : Bool := matchesPieces (pieces false pattern.toList) text.toList

/-- No character of the text is special in a pattern. -/
def isLiteral (cs : List Char) : Bool := cs.all fun c => c ≠ '%' ∧ c ≠ '_' ∧ c ≠ '\\'

theorem pieces_literal {cs : List Char} (hc : isLiteral cs = true) (ds : List Char) :
    pieces false (cs ++ ds) = cs.map Piece.char ++ pieces false ds := by
  induction cs with
  | nil => rfl
  | cons c cs ih =>
    simp only [isLiteral, List.all_cons, Bool.and_eq_true, decide_eq_true_eq] at hc
    obtain ⟨⟨h1, h2, h3⟩, ht⟩ := hc
    simp only [List.cons_append, pieces, h1, h2, h3, if_false, ih ht, List.map_cons, Bool.false_eq_true]

/-- Literal characters, then anything: the text starts with them. -/
theorem matches_prefix (cs text : List Char) :
    matchesPieces (cs.map Piece.char ++ [.any]) text = cs.isPrefixOf text := by
  induction cs generalizing text with
  | nil =>
    show (text.tails.any fun t => t.isEmpty) = true
    rw [List.any_eq_true]
    exact ⟨[], by simp, rfl⟩
  | cons c cs ih =>
    cases text with
    | nil => rfl
    | cons d text =>
      show (decide (c = d) && matchesPieces (cs.map Piece.char ++ [.any]) text) = _
      rw [ih]
      rfl

/-- A literal text between two `%` is looked for anywhere. -/
theorem like_contains {pattern literal : String} (hp : pattern.toList = '%' :: (literal.toList ++ ['%']))
    (hl : isLiteral literal.toList = true) (text : String) : like pattern text = Text.includes text literal := by
  have hpieces : pieces false pattern.toList = .any :: (literal.toList.map Piece.char ++ [.any]) := by
    rw [hp]
    show Piece.any :: pieces false (literal.toList ++ ['%']) = _
    rw [pieces_literal hl]
    rfl
  unfold like Text.includes
  rw [hpieces]
  exact congrArg (text.toList.tails.any ·) (funext fun t => matches_prefix literal.toList t)

end ClusterGate.Lib.Sql
