/-
  ClusterGate.Sanitizer.Groups — what the passes make of a number of a JSON text.

  A number is taken in pieces: its sign, its digits before the point, what stands behind it and
  the exponent. Each is left as it is if a condition holds, and else gets a `*`.
  - `Goes.append`: the conditions of two pieces one after the other.
  - `OfDigits.number`: which groups of a number must not look like a card number or a social
    security number.
-/

import ClusterGate.Sanitizer.Digits

namespace ClusterGate.Sanitizer

open Lib
open Lib.JsonLexemes hiding isDigit

/-! ## Pieces -/

section Pass

variable (r : Regex Nat) (f : List Nat → List Nat → List Nat → List Nat)

def Keeps (b xs tail : List Nat) : Prop :=
  Regex.replaceFrom plain.unit r f 0 b (xs ++ tail) = xs ++ Regex.replaceFrom plain.unit r f 0 (xs.reverse ++ b) tail

def Spoils (b rest : List Nat) : Prop := spoilt .out (Regex.replaceFrom plain.unit r f 0 b rest) = true

/-- A piece outside the strings is left as it is if the condition holds, and else a `*` is
    written there. -/
structure Goes (P : Prop) (b xs tail : List Nat) : Prop where
  quote : '"'.toNat ∉ xs
  keeps : P → Keeps r f b xs tail
  spoils : ¬P → Spoils r f b (xs ++ tail)

variable {r f} {P Q : Prop} {b xs ys tail : List Nat}

theorem Goes.append (hx : Goes r f P b xs (ys ++ tail)) (hy : Goes r f Q (xs.reverse ++ b) ys tail) :
    Goes r f (P ∧ Q) b (xs ++ ys) tail where
  quote hmem := (List.mem_append.1 hmem).elim hx.quote hy.quote
  keeps h := by
    have hfirst := hx.keeps h.1
    have hnext := hy.keeps h.2
    rw [Keeps] at hfirst hnext ⊢
    rw [List.append_assoc, hfirst, hnext, List.append_assoc, List.reverse_append, List.append_assoc]
  spoils h := by
    rw [List.append_assoc]
    by_cases hP : P
    · have hnext := hy.spoils fun hQ => h ⟨hP, hQ⟩
      rw [Spoils] at hnext ⊢
      rw [hx.keeps hP, spoilt_append, read_out hx.quote, hnext, Bool.or_true]
    · exact hx.spoils hP

theorem Goes.congr (h : Goes r f P b xs tail) (hiff : P ↔ Q) : Goes r f Q b xs tail :=
  ⟨h.quote, fun hQ => h.keeps (hiff.2 hQ), fun hQ => h.spoils fun hP => hQ (hiff.1 hP)⟩

theorem goes_nil : Goes r f True b [] tail :=
  ⟨List.not_mem_nil, fun _ => rfl, fun h => absurd trivial h⟩

/-- A piece in which no match begins. -/
theorem goes_copy (hquote : '"'.toNat ∉ xs)
    (h : ∀ x y, xs = x ++ y → y ≠ [] → r.find plain.unit (x.reverse ++ b) (y ++ tail) = none) : Goes r f True b xs tail :=
  ⟨hquote, fun _ => Regex.replaceFrom_copy h, fun hnot => absurd trivial hnot⟩

theorem find_begins (ht : Tame r f) {u : Nat} (hu : r.begins u = false) (b rest : List Nat) :
    r.find plain.unit b (u :: rest) = none := by
  refine Regex.find_eq_none_iff.2 fun m after hsplit hdesc => ?_
  cases m with
  | nil => exact ht.solid _ _ _ hdesc rfl
  | cons v m =>
    obtain ⟨rfl, -⟩ := List.cons_eq_cons.1 hsplit
    have hbegins : r.begins u = true := Regex.begins_of_describes r hdesc u rfl
    rw [hu] at hbegins
    cases hbegins

theorem goes_begins (ht : Tame r f) (hquote : '"'.toNat ∉ xs) (h : ∀ u ∈ xs, r.begins u = false) (b tail : List Nat) :
    Goes r f True b xs tail := by
  refine goes_copy hquote fun x y hsplit hne => ?_
  obtain ⟨u, y, rfl⟩ := List.exists_cons_of_ne_nil hne
  exact find_begins ht (h u (by simp [hsplit])) _ _

theorem quote_not_word {xs : List Nat} (h : ∀ u ∈ xs, isWord u = true) : '"'.toNat ∉ xs := by
  intro hmem
  cases h _ hmem

theorem head_reverse {x : List Nat} (hb : b.head?.any isWord = true) (hx : ∀ u ∈ x, isWord u = true) :
    (x.reverse ++ b).head?.any isWord = true := by
  cases hrev : x.reverse with
  | nil => exact hb
  | cons u x' => exact hx u (List.mem_reverse.1 (by simp [hrev]))

/-- A piece inside a word. -/
theorem goes_inside (ht : Tame r f) (hb : b.head?.any isWord = true) (h : ∀ u ∈ xs, isWord u = true) (tail : List Nat) :
    Goes r f True b xs tail := by
  refine goes_copy (quote_not_word h) fun x y hsplit hne => ?_
  obtain ⟨u, y, rfl⟩ := List.exists_cons_of_ne_nil hne
  exact find_inside ht (head_reverse hb fun v hv => h v (by simp [hsplit, hv])) (h u (by simp [hsplit]))

/-- A piece that is replaced by itself or by something with a `*`. -/
theorem goes_found (ht : Tame r f) (hfind : r.find plain.unit b (xs ++ tail) = some (xs, tail))
    (hkept : P → f b xs tail = xs) (hmasked : ¬P → '*'.toNat ∈ f b xs tail) : Goes r f P b xs tail := by
  have hdesc := (Regex.find_eq_some hfind).2
  refine ⟨fun hmem => (ht.bare hdesc _ hmem).1 rfl, fun hP => ?_, fun hP => ?_⟩
  · rw [Keeps, Regex.replaceFrom_some ht.solid hfind, hkept hP]
  · have hquote : '"'.toNat ∉ f b xs tail := fun hmem => (ht.bare_written hdesc _ hmem).1 rfl
    rw [Spoils, Regex.replaceFrom_some ht.solid hfind, spoilt_append, spoilt_out hquote (hmasked hP), Bool.true_or]

end Pass

/-! ## Patterns of digits -/

/-- A pattern of digits changes some groups: it matches these as a whole where no word goes on
    behind them. -/
structure OfDigits (r : Regex Nat) (mask : List Nat → List Nat) (changes : List Nat → Bool) : Prop where
  tame : Tame r (unlessJsonNumber plain mask)
  begins : ∀ u, r.begins u = true → isDigit u = true
  changed : ∀ {b ds tail}, ds ≠ [] → (∀ u ∈ ds, isDigit u = true) → b.head?.any isWord = false → Calm tail →
    changes ds = true → tail.head?.any isWord = false →
      r.find plain.unit b (ds ++ tail) = some (ds, tail) ∧ '*'.toNat ∈ mask ds
  kept : ∀ {b ds tail}, ds ≠ [] → (∀ u ∈ ds, isDigit u = true) → b.head?.any isWord = false → Calm tail →
    ¬(changes ds = true ∧ tail.head?.any isWord = false) →
      r.find plain.unit b (ds ++ tail) = none ∨ r.find plain.unit b (ds ++ tail) = some (ds, tail) ∧ mask ds = ds

def changesCard (ds : List Nat) : Bool := 13 ≤ ds.length && ds.length ≤ 19 && luhnCheck plain ds
def changesSSN (ds : List Nat) : Bool := ds.length = 9

theorem digitsOf_digits {ds : List Nat} (h : ∀ u ∈ ds, isDigit u = true) : digitsOf plain ds = ds :=
  List.filter_eq_self.2 h

theorem creditCard_ofDigits : OfDigits patterns.creditCard (maskCard plain) changesCard where
  tame := card_tame
  begins u hu := by simpa [patterns.creditCard, Regex.chain, Regex.begins, Regex.consumes, boundary] using hu
  changed {b ds tail} hne hds hb hcalm hchanges htail := by
    simp only [changesCard, Bool.and_eq_true, decide_eq_true_eq] at hchanges
    obtain ⟨⟨hmin, hmax⟩, hluhn⟩ := hchanges
    have hfind := creditCard_digits hb hne hds hcalm
    rw [if_pos ⟨⟨hmin, hmax⟩, htail⟩] at hfind
    refine ⟨hfind, ?_⟩
    rw [creditCard_find] at hfind
    rw [maskCard_of_luhn hfind (by rwa [digitsOf_digits hds]), digitsOf_digits hds]
    refine List.mem_append_left _ (List.mem_append_right _ (List.mem_replicate.2 ⟨by omega, rfl⟩))
  kept {b ds tail} hne hds hb hcalm hnot := by
    have hfind := creditCard_digits hb hne hds hcalm
    by_cases hcond : (13 ≤ ds.length ∧ ds.length ≤ 19) ∧ tail.head?.any isWord = false
    · rw [if_pos hcond] at hfind
      refine .inr ⟨hfind, ?_⟩
      have hluhn : luhnCheck plain ds = false := by
        by_contra hcon
        rw [Bool.not_eq_false] at hcon
        exact hnot ⟨by simp [changesCard, hcond.1, hcon], hcond.2⟩
      simp [maskCard, digitsOf_digits hds, hluhn]
    · rw [if_neg hcond] at hfind
      exact .inl hfind

theorem ssn_ofDigits : OfDigits patterns.ssn (maskSSN plain) changesSSN where
  tame := ssn_tame
  begins u hu := by simpa [patterns.ssn, Regex.chain, Regex.begins, Regex.consumes, boundary, Regex.exactly] using hu
  changed {b ds tail} hne hds hb hcalm hchanges htail := by
    have hfind := ssn_digits hb hds hcalm
    rw [if_pos ⟨by simpa [changesSSN] using hchanges, htail⟩] at hfind
    exact ⟨hfind, List.mem_append_left _ (by decide)⟩
  kept {b ds tail} hne hds hb hcalm hnot := by
    have hfind := ssn_digits hb hds hcalm
    rw [if_neg fun h => hnot ⟨by simpa [changesSSN] using h.1, h.2⟩] at hfind
    exact .inl hfind

theorem OfDigits.notBegins {r : Regex Nat} {mask : List Nat → List Nat} {changes : List Nat → Bool} (h : OfDigits r mask changes) {u : Nat}
    (hu : isDigit u = false) : r.begins u = false := by
  by_contra hcon
  rw [h.begins u (by simpa using hcon)] at hu
  cases hu

/-- A group is left as it is, unless the pattern changes it where it is no bare JSON number. -/
theorem OfDigits.group {r : Regex Nat} {mask : List Nat → List Nat} {changes : List Nat → Bool} (h : OfDigits r mask changes)
    {b ds tail : List Nat} (hne : ds ≠ []) (hds : ∀ u ∈ ds, isDigit u = true) (hb : b.head?.any isWord = false) (hcalm : Calm tail) :
    Goes r (unlessJsonNumber plain mask)
      (changes ds = true → tail.head?.any isWord = false → isBareJsonNumber plain b ds tail = true) b ds tail := by
  have hcopy : r.find plain.unit b (ds ++ tail) = none → Goes r (unlessJsonNumber plain mask) True b ds tail := by
    intro hnone
    have hwords : ∀ u ∈ ds, isWord u = true := fun u hu => word_of_digit (hds u hu)
    refine goes_copy (quote_not_word hwords) fun x y hsplit hy => ?_
    cases x with
    | nil =>
      rw [List.nil_append] at hsplit
      rwa [hsplit] at hnone
    | cons u x =>
      obtain ⟨v, y, rfl⟩ := List.exists_cons_of_ne_nil hy
      have hx : ∀ w ∈ u :: x, isWord w = true := fun w hw => hwords w (by rw [hsplit]; exact List.mem_append_left _ hw)
      have hlast : ((u :: x).reverse ++ b).head?.any isWord = true := by
        rw [List.head?_append, List.head?_reverse, List.getLast?_eq_some_getLast (List.cons_ne_nil u x), Option.some_or]
        exact hx _ (List.getLast_mem _)
      exact find_inside h.tame hlast (hwords v (by simp [hsplit]))
  by_cases hchanges : changes ds = true ∧ tail.head?.any isWord = false
  · obtain ⟨hfind, hstar⟩ := h.changed hne hds hb hcalm hchanges.1 hchanges.2
    refine goes_found h.tame hfind (fun hP => ?_) fun hP => ?_
    · rw [unlessJsonNumber, hP hchanges.1 hchanges.2, if_pos rfl]
    · have hbare : isBareJsonNumber plain b ds tail = false := by
        by_contra hcon
        exact hP fun _ _ => by simpa using hcon
      rwa [unlessJsonNumber, hbare, if_neg Bool.false_ne_true]
  · refine Goes.congr (P := True) ?_ ⟨fun _ hc ht => absurd ⟨hc, ht⟩ hchanges, fun _ => trivial⟩
    rcases h.kept hne hds hb hcalm hchanges with hnone | ⟨hfind, hmask⟩
    · exact hcopy hnone
    · refine goes_found h.tame hfind (fun _ => ?_) fun hnot => absurd trivial hnot
      rw [unlessJsonNumber, hmask, ite_self]

/-! ## The groups of a number -/

/-- A number that is nothing but digits. -/
def onlyDigits (n : Numeral) : Bool := !n.negative && n.fraction = [] && n.exponent = none

/-- The groups of digits of a number with no letter at their sides. -/
def groups (n : Numeral) : List (List Nat) :=
  (if n.fraction ≠ [] ∨ n.exponent = none then [n.whole] else []) ++
    ((if n.fraction ≠ [] ∧ n.exponent = none then [n.fraction] else []) ++
      match n.exponent with
      | some e => if e.sign = none then [] else [e.digits]
      | none => [])

/-- A number with a group that would be changed stands as a bare JSON number. -/
def LeavesGroups (changes : List Nat → Bool) (before : List Lexeme) (n : Numeral) : Prop :=
  ∀ ds ∈ groups n, changes ds = true → onlyDigits n = true ∧ direct before = true

theorem exponent_letter (e : Exponent) : isWord e.letter = true ∧ isDigit e.letter = false ∧ patterns.isDashSpace e.letter = false := by
  rcases e.isLetter with h | h <;> rw [h] <;> decide

theorem exponent_sign (e : Exponent) : ∀ u ∈ e.sign.toList, isWord u = false ∧ isDigit u = false := by
  intro u hu
  rcases e.isSign u (Option.mem_toList.1 hu) with rfl | rfl <;> decide

section Number

variable {before todo : List Lexeme} {n : Numeral}

theorem follows_of_linked (h : Linked before (.num n :: todo)) : Follows todo := h.behind rfl

theorem text_word (h : Follows todo) : (text todo).head?.any isWord = false := by
  cases hhead : (text todo).head? with
  | none => rfl
  | some u => exact (follows_first h hhead).1

theorem power_calm (n : Numeral) (h : Follows todo) : Calm (n.power ++ text todo) := by
  rw [Numeral.power]
  cases n.exponent with
  | none => exact calm_text h
  | some e => exact calm_cons (exponent_letter e).2.2 (exponent_letter e).2.1 _

theorem power_word (n : Numeral) (h : Follows todo) :
    (n.power ++ text todo).head?.any isWord = false ↔ n.exponent = none := by
  rw [Numeral.power]
  cases n.exponent with
  | none => exact iff_of_true (text_word h) rfl
  | some e => exact iff_of_false (by simp [Exponent.text, (exponent_letter e).1]) (by simp)

theorem point_calm (n : Numeral) (h : Follows todo) : Calm (n.point ++ (n.power ++ text todo)) := by
  rw [Numeral.point]
  split
  · exact power_calm n h
  · exact calm_cons rfl rfl _

theorem point_word (n : Numeral) (h : Follows todo) :
    (n.point ++ (n.power ++ text todo)).head?.any isWord = false ↔ n.fraction ≠ [] ∨ n.exponent = none := by
  rw [Numeral.point]
  split
  next hnil => simpa [hnil] using power_word n h
  next hne => exact iff_of_true rfl (.inl hne)

theorem minus_word (h : Linked before (.num n :: todo)) : (n.minus.reverse ++ rtext before).head?.any isWord = false := by
  rw [Numeral.minus]
  split
  · rfl
  · have hbehind := number_behind h rfl
    rw [List.reverse_nil, List.nil_append]
    cases hhead : (rtext before).head? with
    | none => rfl
    | some u =>
      rw [hhead, Option.any_some, Bool.or_eq_false_iff] at hbehind
      exact hbehind.1

/-- The digits before the point are bare if they are all of the number and it stands directly
    behind `[`, `:` or `,`. -/
theorem whole_bare (h : Linked before (.num n :: todo)) :
    isBareJsonNumber plain (n.minus.reverse ++ rtext before) n.whole (n.point ++ (n.power ++ text todo)) =
      (onlyDigits n && direct before) := by
  rw [onlyDigits, Numeral.minus]
  cases n.negative with
  | true => exact isBareJsonNumber_behind rfl ⟨rfl, rfl⟩ _ _ _
  | false =>
    by_cases hfraction : n.fraction = []
    · cases he : n.exponent with
      | some e =>
        have hgap : isGap plain e.letter = false ∧ isOf ",\x7d]\r\n" e.letter = false := by
          rcases e.isLetter with h | h <;> rw [h] <;> decide
        simp [Numeral.point, Numeral.power, he, hfraction, Exponent.text, isBareJsonNumber_front hgap.1 hgap.2]
      | none =>
        have hdirect := isBareJsonNumber_direct n.some_whole n.whole_digits (follows_bare (follows_of_linked h)) h rfl
        simpa [Numeral.point, Numeral.power, he, hfraction] using hdirect
    · have hfront : ∀ b m after, isBareJsonNumber plain b m ('.'.toNat :: after) = false :=
        isBareJsonNumber_front rfl rfl
      rw [Numeral.point, if_neg hfraction, List.cons_append, hfront]
      simp [hfraction]

variable {r : Regex Nat} {mask : List Nat → List Nat} {changes : List Nat → Bool}

theorem OfDigits.whole (h : OfDigits r mask changes) (hlinked : Linked before (.num n :: todo)) :
    Goes r (unlessJsonNumber plain mask)
      (∀ ds ∈ (if n.fraction ≠ [] ∨ n.exponent = none then [n.whole] else []), changes ds = true →
        onlyDigits n = true ∧ direct before = true)
      (n.minus.reverse ++ rtext before) n.whole (n.point ++ (n.power ++ text todo)) := by
  have hfollows := follows_of_linked hlinked
  refine (h.group n.some_whole n.whole_digits (minus_word hlinked) (point_calm n hfollows)).congr ?_
  rw [point_word n hfollows, whole_bare hlinked, Bool.and_eq_true]
  split
  next hcond => simp [hcond]
  next hcond => simp [hcond]

theorem OfDigits.point (h : OfDigits r mask changes) (hfollows : Follows todo) (before : List Lexeme) (b : List Nat) :
    Goes r (unlessJsonNumber plain mask)
      (∀ ds ∈ (if n.fraction ≠ [] ∧ n.exponent = none then [n.fraction] else []), changes ds = true →
        onlyDigits n = true ∧ direct before = true)
      b n.point (n.power ++ text todo) := by
  by_cases hne : n.fraction = []
  · rw [Numeral.point, if_pos hne]
    exact goes_nil.congr (by simp [hne])
  · rw [Numeral.point, if_neg hne]
    have hpoint : Goes r (unlessJsonNumber plain mask) True b ['.'.toNat] (n.fraction ++ (n.power ++ text todo)) :=
      goes_begins h.tame (by decide) (by simpa using h.notBegins rfl) _ _
    have hgroup := h.group (b := '.'.toNat :: b) hne n.fraction_digits rfl (power_calm n hfollows)
    refine (hpoint.append hgroup).congr ?_
    have hbare : isBareJsonNumber plain ('.'.toNat :: b) n.fraction (n.power ++ text todo) = false :=
      isBareJsonNumber_behind rfl ⟨rfl, rfl⟩ _ _ _
    rw [power_word n hfollows, hbare]
    by_cases he : n.exponent = none
    · simp [he, hne, onlyDigits]
    · simp [he]

theorem OfDigits.power (h : OfDigits r mask changes) (hfollows : Follows todo) (before : List Lexeme) (b : List Nat) :
    Goes r (unlessJsonNumber plain mask)
      (∀ ds ∈ (match n.exponent with | some e => if e.sign = none then [] else [e.digits] | none => []), changes ds = true →
        onlyDigits n = true ∧ direct before = true)
      b n.power (text todo) := by
  rw [Numeral.power]
  cases he : n.exponent with
  | none => exact goes_nil.congr (by simp)
  | some e =>
    have hletter : ∀ tail, Goes r (unlessJsonNumber plain mask) True b [e.letter] tail := fun tail =>
      goes_begins h.tame (by rcases e.isLetter with h | h <;> rw [h] <;> decide)
        (by simpa using h.notBegins (exponent_letter e).2.1) _ _
    show Goes r _ _ b (e.letter :: (e.sign.toList ++ e.digits)) _
    cases hs : e.sign with
    | none =>
      have hdigits : Goes r (unlessJsonNumber plain mask) True (e.letter :: b) e.digits (text todo) :=
        goes_inside h.tame (b := e.letter :: b) (exponent_letter e).1 (fun u hu => word_of_digit (e.allDigits u hu)) _
      exact ((hletter _).append hdigits).congr (by simp [hs])
    | some s =>
      have hnot := exponent_sign e s (by simp [hs])
      have hs' : s = '+'.toNat ∨ s = '-'.toNat := e.isSign s (by simp [hs])
      have hsign : Goes r (unlessJsonNumber plain mask) True (e.letter :: b) [s] (e.digits ++ text todo) :=
        goes_begins h.tame (by rcases hs' with rfl | rfl <;> decide) (by simpa using h.notBegins hnot.2) _ _
      have hgroup := h.group (b := s :: e.letter :: b) e.some_digit e.allDigits hnot.1 (calm_text hfollows)
      have hbare : isBareJsonNumber plain (s :: e.letter :: b) e.digits (text todo) = false := by
        rcases hs' with rfl | rfl <;> exact isBareJsonNumber_behind rfl ⟨rfl, rfl⟩ _ _ _
      refine ((hletter _).append (hsign.append hgroup)).congr ?_
      rw [hbare]
      simp [text_word hfollows, onlyDigits, he, hs]

/-- A number is left as it is, unless a group of it would be changed and it is no bare JSON
    number. -/
theorem OfDigits.number (h : OfDigits r mask changes) (hlinked : Linked before (.num n :: todo)) :
    Goes r (unlessJsonNumber plain mask) (LeavesGroups changes before n) (rtext before) n.text (text todo) := by
  have hfollows := follows_of_linked hlinked
  have hminus : Goes r (unlessJsonNumber plain mask) True (rtext before) n.minus
      ((n.whole ++ (n.point ++ n.power)) ++ text todo) := by
    rw [Numeral.minus]
    split
    · exact goes_begins h.tame (by decide) (by simpa using h.notBegins rfl) _ _
    · exact goes_nil
  have hwhole := h.whole hlinked
  rw [← List.append_assoc n.point] at hwhole
  have hparts := hminus.append (hwhole.append ((h.point hfollows before _).append (h.power hfollows before _)))
  refine hparts.congr ?_
  rw [LeavesGroups, groups, List.forall_mem_append, List.forall_mem_append]
  exact Iff.of_eq (true_and _)

end Number

end ClusterGate.Sanitizer
