/-
  ClusterGate.Sanitizer.Numbers — what the passes do to a number of a JSON text.

  A number is left alone as a whole, and only if it is nothing but digits and stands directly
  behind `[`, `:` or `,`. What the patterns match is a group of its digits, or its beginning.
  - `bare_direct`: which digits pass for a bare JSON number.
-/

import ClusterGate.Sanitizer.Strings

namespace ClusterGate.Sanitizer

open Lib
open Lib.JsonLexemes hiding isDigit

/-! ## Around a number -/

def isGapLexeme : Lexeme → Bool
  | .blank .space | .blank .tab => true
  | _ => false

/-- A number stands directly behind `[`, `:` or `,`, but for spaces and tabs. -/
def direct (before : List Lexeme) : Bool :=
  match before.dropWhile isGapLexeme with
  | .mark m :: _ => m = .openArray || m = .colon || m = .comma
  | _ => false

/-- A number ends with digits. -/
theorem numeral_digits (n : Numeral) : ∃ xs ds, n.text = xs ++ ds ∧ ds ≠ [] ∧ ∀ u ∈ ds, isDigit u = true := by
  rw [Numeral.text, Numeral.power]
  cases n.exponent with
  | some e =>
    exact ⟨n.minus ++ (n.whole ++ (n.point ++ e.letter :: e.sign.toList)), e.digits, by simp [Exponent.text], e.some_digit, e.allDigits⟩
  | none =>
    by_cases hfraction : n.fraction = []
    · exact ⟨n.minus, n.whole, by simp [Numeral.point, hfraction], n.some_whole, n.whole_digits⟩
    · exact ⟨n.minus ++ (n.whole ++ ['.'.toNat]), n.fraction, by simp [Numeral.point, hfraction], hfraction, n.fraction_digits⟩

theorem numeral_last (n : Numeral) : ∃ u, n.text.reverse.head? = some u ∧ isDigit u = true := by
  obtain ⟨xs, ds, htext, hne, hdigits⟩ := numeral_digits n
  refine ⟨ds.getLast hne, ?_, hdigits _ (List.getLast_mem hne)⟩
  rw [List.head?_reverse, htext, List.getLast?_append, List.getLast?_eq_some_getLast hne, Option.some_or]

theorem name_last (n : Name) : ∃ u, n.text.reverse.head? = some u ∧ (u = 'e'.toNat ∨ u = 'l'.toNat) := by
  cases n
  · exact ⟨'l'.toNat, rfl, .inr rfl⟩
  · exact ⟨'e'.toNat, rfl, .inl rfl⟩
  · exact ⟨'e'.toNat, rfl, .inl rfl⟩

theorem str_last (items : List Item) : (Lexeme.str items).text.reverse.head? = some '"'.toNat := by
  rw [List.head?_reverse, Lexeme.text, List.getLast?_cons, List.getLast?_append]
  rfl

/-- The last unit of what ends a value is not white space. -/
theorem ends_last {l : Lexeme} {k : Kind} (hk : l.kind? = some k) (hends : k.ends = true) :
    ∃ u us, l.text.reverse = u :: us ∧ isSpace u = false ∧
      (isOf "\"" u || isDigit u || isOf "\x7d]el" u) = true ∧ (k = .string → u = '"'.toNat) := by
  have hsplit : ∀ {u}, l.text.reverse.head? = some u → ∃ us, l.text.reverse = u :: us := fun hu => List.head?_eq_some_iff.1 hu
  cases l with
  | blank b => cases hk
  | mark m =>
    obtain rfl := Option.some.inj hk
    cases m with
    | closeArray => exact ⟨_, [], rfl, by decide, by decide, fun h => by cases h⟩
    | closeObject => exact ⟨_, [], rfl, by decide, by decide, fun h => by cases h⟩
    | _ => cases hends
  | name n =>
    obtain rfl := Option.some.inj hk
    obtain ⟨u, hu, hcases⟩ := name_last n
    obtain ⟨us, hus⟩ := hsplit hu
    refine ⟨u, us, hus, ?_, ?_, fun h => by cases h⟩
    · rcases hcases with rfl | rfl <;> decide
    · rcases hcases with rfl | rfl <;> decide
  | num n =>
    obtain rfl := Option.some.inj hk
    obtain ⟨u, hu, hdigit⟩ := numeral_last n
    obtain ⟨us, hus⟩ := hsplit hu
    refine ⟨u, us, hus, ?_, by rw [hdigit, Bool.or_true, Bool.true_or], fun h => by cases h⟩
    simp only [isDigit, isSpace, Bool.and_eq_true, decide_eq_true_eq, Char.reduceToNat, Bool.or_eq_false_iff,
      Bool.and_eq_false_iff, decide_eq_false_iff_not, beq_eq_false_iff_ne] at hdigit ⊢
    omega
  | str items =>
    obtain ⟨us, hus⟩ := hsplit (str_last items)
    exact ⟨_, us, hus, by decide, by decide, fun _ => rfl⟩

theorem blank_space (b : Blank) : isSpace b.unit = true := by
  cases b <;> rfl

/-- Behind the end of a value, over white space. -/
theorem value_before {before : List Lexeme} {k : Kind} (hk : (kinds before).head? = some k) (hends : k.ends = true) :
    ∃ u, ((rtext before).dropWhile fun u => isSpace u).head? = some u ∧
      (isOf "\"" u || isDigit u || isOf "\x7d]el" u) = true ∧ (k = .string → u = '"'.toNat) := by
  induction before with
  | nil => cases hk
  | cons l before ih =>
    cases hl : l.kind? with
    | none =>
      cases l with
      | blank b =>
        obtain ⟨u, hu, hcond⟩ := ih hk
        refine ⟨u, ?_, hcond⟩
        rw [rtext_cons, Lexeme.text, List.reverse_singleton, List.singleton_append, List.dropWhile_cons, if_pos (blank_space b)]
        exact hu
      | _ => cases hl
    | some j =>
      rw [kinds_token hl, List.head?_cons] at hk
      obtain rfl := Option.some.inj hk
      obtain ⟨u, us, htext, hspace, hcond⟩ := ends_last hl hends
      refine ⟨u, ?_, hcond⟩
      rw [rtext_cons, htext, List.cons_append, List.dropWhile_cons, if_neg (by simp [hspace])]
      rfl

/-- What may follow a number. -/
def Follows (todo : List Lexeme) : Prop := ∀ j ∈ (kinds todo).head?, Kind.scalar.meets j = true

theorem follows_cases {l : Lexeme} {todo : List Lexeme} (h : Follows (l :: todo)) :
    (∃ b, l = .blank b ∧ Follows todo) ∨ ∃ m, l = .mark m ∧ (m = .comma ∨ m = .closeArray ∨ m = .closeObject) := by
  cases l with
  | blank b => exact .inl ⟨b, rfl, h⟩
  | mark m =>
    have hm := h (.mark m) rfl
    cases m with
    | comma => exact .inr ⟨_, rfl, .inl rfl⟩
    | closeArray => exact .inr ⟨_, rfl, .inr (.inl rfl)⟩
    | closeObject => exact .inr ⟨_, rfl, .inr (.inr rfl)⟩
    | _ => cases hm
  | name n => cases h .scalar rfl
  | num n => cases h .scalar rfl
  | str items => cases h .string rfl

theorem follows_first {todo : List Lexeme} (h : Follows todo) {u : Nat} (hu : (text todo).head? = some u) :
    isWord u = false ∧ isDigit u = false ∧ isOf ".-)" u = false := by
  cases todo with
  | nil => cases hu
  | cons l todo =>
    rcases follows_cases h with ⟨b, rfl, -⟩ | ⟨m, rfl, hm⟩
    · obtain rfl := Option.some.inj hu
      cases b <;> decide
    · obtain rfl := Option.some.inj hu
      rcases hm with rfl | rfl | rfl <;> decide

/-- Behind a number there is nothing that keeps it from being bare. -/
theorem follows_bare {todo : List Lexeme} (h : Follows todo) :
    ((text todo).dropWhile (isGap plain)).head?.all (fun u => isOf ",\x7d]\r\n" u) = true := by
  induction todo with
  | nil => rfl
  | cons l todo ih =>
    rcases follows_cases h with ⟨b, rfl, hnext⟩ | ⟨m, rfl, hm⟩
    · cases b with
      | space => exact ih hnext
      | tab => exact ih hnext
      | newline => rfl
      | return_ => rfl
    · rcases hm with rfl | rfl | rfl <;> rfl

/-! ## Bare numbers -/

theorem isBareJsonNumber_gap {u : Nat} (h : isGap plain u = true) (b m after : List Nat) :
    isBareJsonNumber plain (u :: b) m after = isBareJsonNumber plain b m after := by
  simp only [isBareJsonNumber, List.dropWhile_cons, h, if_true]

/-- Behind something that is neither a gap nor `[`, `:` or `,` no number is bare. -/
theorem isBareJsonNumber_behind {u : Nat} (hgap : isGap plain u = false) (hmark : isOf "[" u = false ∧ isOf ":," u = false)
    (b m after : List Nat) : isBareJsonNumber plain (u :: b) m after = false := by
  simp [isBareJsonNumber, hgap, hmark.1, hmark.2]

theorem isBareJsonNumber_nil (m after : List Nat) : isBareJsonNumber plain [] m after = false := by
  simp [isBareJsonNumber]

/-- Before something that is neither a gap nor an end of a value no number is bare. -/
theorem isBareJsonNumber_front {u : Nat} (hgap : isGap plain u = false) (hmark : isOf ",\x7d]\r\n" u = false)
    (b m after : List Nat) : isBareJsonNumber plain b m (u :: after) = false := by
  simp only [isBareJsonNumber, List.dropWhile_cons, hgap, plain_unit, Bool.false_eq_true, if_false, List.head?_cons, Option.all_some,
    hmark, Bool.not_false, if_true, ite_self]

theorem meets_scalar {k : Kind} (h : k.meets .scalar = true) : k = .mark .openArray ∨ k = .mark .comma ∨ k = .mark .colon := by
  cases k with
  | mark m => cases m <;> simp [Kind.meets] at h ⊢
  | scalar => cases h
  | string => cases h

theorem meets_comma {k : Kind} (h : k.meets (.mark .comma) = true) : k.ends = true := by
  cases k with
  | mark m => cases m <;> first | rfl | cases h
  | scalar => rfl
  | string => rfl

theorem meets_colon {k : Kind} (h : k.meets (.mark .colon) = true) : k = .string := by
  cases k with
  | mark m => cases m <;> cases h
  | scalar => cases h
  | string => rfl

/-- What may stand before a number, the white space left out. -/
theorem linked_number {l : Lexeme} {before todo : List Lexeme} (h : Linked (l :: before) todo)
    (hnext : (kinds todo).head? = some .scalar) :
    (∃ b, l = .blank b ∧ Linked before todo) ∨ ∃ m, l = .mark m ∧ (m = .openArray ∨ m = .comma ∨ m = .colon) := by
  have hmeets : ∀ {k}, l.kind? = some k → k.meets .scalar = true := fun hk => (linked_next.2 h).behind hk _ hnext
  cases l with
  | blank b => exact .inl ⟨b, rfl, h.opens, h.chain⟩
  | mark m =>
    refine .inr ⟨m, rfl, ?_⟩
    rcases meets_scalar (hmeets rfl) with hm | hm | hm
    · exact .inl (by injection hm)
    · exact .inr (.inl (by injection hm))
    · exact .inr (.inr (by injection hm))
  | name n => cases hmeets rfl
  | num n => cases hmeets rfl
  | str items => cases hmeets rfl

/-- Digits behind which the text goes on as behind a number are bare if they stand directly
    behind `[`, `:` or `,`. -/
theorem isBareJsonNumber_direct {ds after : List Nat} (hne : ds ≠ []) (hdigits : ∀ u ∈ ds, isDigit u = true)
    (hafter : (after.dropWhile (isGap plain)).head?.all (fun u => isOf ",\x7d]\r\n" u) = true) {before todo : List Lexeme}
    (h : Linked before todo) (hnext : (kinds todo).head? = some .scalar) :
    isBareJsonNumber plain (rtext before) ds after = direct before := by
  have hall : ds.all (fun u => isDigit u) = true := List.all_eq_true.2 hdigits
  induction before with
  | nil => exact isBareJsonNumber_nil ds after
  | cons l before ih =>
    rcases linked_number h hnext with ⟨b, rfl, hbefore⟩ | ⟨m, rfl, hm⟩
    · rw [rtext_cons, Lexeme.text, List.reverse_singleton, List.singleton_append]
      cases b with
      | space => exact (isBareJsonNumber_gap rfl _ _ _).trans (ih hbefore)
      | tab => exact (isBareJsonNumber_gap rfl _ _ _).trans (ih hbefore)
      | newline => exact isBareJsonNumber_behind rfl ⟨rfl, rfl⟩ _ _ _
      | return_ => exact isBareJsonNumber_behind rfl ⟨rfl, rfl⟩ _ _ _
    · have hgap : isGap plain m.unit = false := by
        cases m <;> rfl
      have hdirect : direct (.mark m :: before) = true := by
        rcases hm with rfl | rfl | rfl <;> rfl
      rw [hdirect, rtext_cons, Lexeme.text, List.reverse_singleton, List.singleton_append, isBareJsonNumber,
        List.dropWhile_cons, hgap]
      simp only [plain_unit, hafter, hne, hall, ne_eq, not_false_eq_true, decide_true, Bool.and_self, if_true,
        Bool.not_true, Bool.false_eq_true, if_false]
      rcases hm with rfl | rfl | rfl
      · rfl
      · obtain ⟨k, hk⟩ := (linked_next.2 h).preceded rfl rfl
        obtain ⟨u, hu, hcond, -⟩ := value_before hk (meets_comma ((linked_next.2 h).before rfl k hk))
        rw [hu]
        exact hcond
      · obtain ⟨k, hk⟩ := (linked_next.2 h).preceded rfl rfl
        have hstring := meets_colon ((linked_next.2 h).before rfl k hk)
        obtain ⟨u, hu, -, hquote⟩ := value_before hk (by rw [hstring]; rfl)
        rw [hu, hquote hstring]
        rfl

/-- No word and no sign stands before a number. -/
theorem number_behind {before todo : List Lexeme} (h : Linked before todo) (hnext : (kinds todo).head? = some .scalar) :
    (rtext before).head?.any (fun u => isWord u || isOf ".+-" u) = false := by
  cases before with
  | nil => rfl
  | cons l before =>
    rcases linked_number h hnext with ⟨b, rfl, -⟩ | ⟨m, rfl, -⟩
    · cases b <;> rfl
    · cases m <;> rfl

end ClusterGate.Sanitizer
