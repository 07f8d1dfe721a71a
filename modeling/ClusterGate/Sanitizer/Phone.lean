/-
  ClusterGate.Sanitizer.Phone — what the phone pattern, the e-mail pattern and the IBAN pattern
  make of what stands outside the strings of a JSON text.

  A phone number can only begin where a number does: it is ten digits before a point or an
  end, or its point stands for one of the pattern's separators.
  - `phone_number`: which numbers must not look like a phone number.
  - `email_outside`, `iban_number`: the other two leave every number as it is.
-/

import ClusterGate.Sanitizer.Groups

namespace ClusterGate.Sanitizer

open Lib
open Lib.JsonLexemes hiding isDigit

/-! ## Phone numbers -/

/-- What must not stand before a phone number. -/
def joins (u : Nat) : Bool := isWord u || isOf ".+-" u

/-- What the pattern matches from a digit on. -/
theorem phone_parts {b m after : List Nat} (h : patterns.phone.Describes plain.unit b m after)
    (hdigit : m.head?.any isDigit = true) :
    b.head?.any joins = false ∧ ∃ area closing gap x s y, m = area ++ (closing ++ (gap ++ (x ++ (s ++ y)))) ∧
      (area.length = 3 ∧ ∀ u ∈ area, isDigit u = true) ∧ (closing.length ≤ 1 ∧ ∀ u ∈ closing, isOf ")" u = true) ∧
      (gap.length ≤ 1 ∧ ∀ u ∈ gap, patterns.isDashDotSpace u = true) ∧ (x.length = 3 ∧ ∀ u ∈ x, isDigit u = true) ∧
      (s.length ≤ 1 ∧ ∀ u ∈ s, patterns.isDashDotSpace u = true) ∧ (y.length = 4 ∧ ∀ u ∈ y, isDigit u = true) ∧
      after.head?.any isWord = false := by
  simp only [patterns.phone, Regex.describes_cons, Regex.describes_nil, notBehind, notAhead, Regex.describes_look,
    Regex.describes_exactly, Regex.describes_upTo] at h
  obtain ⟨_, _, rfl, ⟨rfl, hb⟩, country, _, rfl, hcountry, opening, _, rfl, hopening, area, _, rfl, harea, closing, _, rfl,
    hclosing, gap, _, rfl, hgap, x, _, rfl, hx, s, _, rfl, hs, y, _, rfl, hy, _, _, rfl, ⟨rfl, hend⟩, rfl⟩ := h
  have hno : country = [] := by
    cases country with
    | nil => rfl
    | cons u country =>
      have hplus : isOf "+" u = true := by simpa [Regex.begins, Regex.chain, Regex.consumes] using Regex.begins_of_describes _ hcountry u rfl
      obtain rfl : u = '+'.toNat := by simpa [isOf] using hplus
      cases hdigit
  subst hno
  have hno : opening = [] := by
    cases opening with
    | nil => rfl
    | cons u opening =>
      obtain rfl : u = '('.toNat := by simpa [isOf] using hopening.2 u List.mem_cons_self
      cases hdigit
  subst hno
  rw [plain_unit_eq, Option.map_id, id_eq, Bool.not_eq_true'] at hb
  refine ⟨hb, area, closing, gap, x, s, y, by simp, harea, hclosing, hgap, hx, hs, hy, ?_⟩
  rw [List.nil_append, plain_unit_eq, Option.map_id, id_eq] at hend
  cases hhead : after.head? with
  | none => rfl
  | some u =>
    rw [hhead, Option.any_some, Bool.not_eq_true', Bool.or_eq_false_iff] at hend
    exact hend.1

theorem phone_of_digits {b area gap x s y after : List Nat} (hb : b.head?.any joins = false)
    (harea : area.length = 3 ∧ ∀ u ∈ area, isDigit u = true) (hgap : gap.length ≤ 1 ∧ ∀ u ∈ gap, patterns.isDashDotSpace u = true)
    (hx : x.length = 3 ∧ ∀ u ∈ x, isDigit u = true) (hs : s.length ≤ 1 ∧ ∀ u ∈ s, patterns.isDashDotSpace u = true)
    (hy : y.length = 4 ∧ ∀ u ∈ y, isDigit u = true) (hafter : after.head?.any (fun u => isWord u || isOf "-" u) = false) :
    patterns.phone.Describes plain.unit b (area ++ (gap ++ (x ++ (s ++ y)))) after := by
  simp only [patterns.phone, Regex.describes_cons, Regex.describes_nil, notBehind, notAhead, Regex.describes_look,
    Regex.describes_exactly, Regex.describes_upTo]
  refine ⟨[], _, rfl, ⟨rfl, ?_⟩, [], _, rfl, ⟨0, le_refl 0, Nat.zero_le 1, rfl⟩, [], _, rfl, by simp, area, _, rfl, harea, [], _, rfl,
    by simp, gap, _, rfl, hgap, x, _, rfl, hx, s, _, rfl, hs, y, [], by simp, hy, [], [], rfl, ⟨rfl, ?_⟩, rfl⟩
  · rw [plain_unit_eq, Option.map_id, id_eq, Bool.not_eq_true']
    exact hb
  · rw [plain_unit_eq, Option.map_id, id_eq, List.nil_append, hafter]
    rfl

theorem dashDotSpace_cases {u : Nat} (h : patterns.isDashDotSpace u = true) : u = '.'.toNat ∨ patterns.isDashSpace u = true := by
  simp only [patterns.isDashDotSpace, patterns.isDashSpace, isOf, String.reduceToList, List.any_cons, List.any_nil, Bool.or_eq_true,
    beq_iff_eq, Char.reduceToNat, Bool.or_false] at h ⊢
  rcases h with (h | h) | h
  · exact .inr (.inl h)
  · exact .inl h
  · exact .inr (.inr h)

section Number

variable {before todo : List Lexeme} {n : Numeral}

/-- The number looks like a phone number: ten digits before a point or an end, or seven of
    them cut by the point. -/
def LooksPhone (n : Numeral) : Prop :=
  n.negative = false ∧
    (n.whole.length = 10 ∧ (n.fraction ≠ [] ∨ n.exponent = none) ∨
      n.exponent = none ∧ (n.whole.length = 6 ∧ n.fraction.length = 4 ∨ n.whole.length = 3 ∧ n.fraction.length = 7))

instance (n : Numeral) : Decidable (LooksPhone n) :=
  inferInstanceAs (Decidable (n.negative = false ∧
    (n.whole.length = 10 ∧ (n.fraction ≠ [] ∨ n.exponent = none) ∨
      n.exponent = none ∧ (n.whole.length = 6 ∧ n.fraction.length = 4 ∨ n.whole.length = 3 ∧ n.fraction.length = 7))))

/-- A separator with a digit behind it, after digits before which the point is the only one. -/
theorem separator_point {ds tail s rest : List Nat} (h : ds ++ tail = s ++ rest) (hds : ∀ u ∈ ds, isDigit u = true) (hcalm : Calm tail)
    (hs : s.length ≤ 1 ∧ ∀ u ∈ s, patterns.isDashDotSpace u = true) (hrest : rest.head?.any isDigit = true) :
    s = [] ∨ s = ['.'.toNat] ∧ ds = [] ∧ tail = '.'.toNat :: rest := by
  obtain ⟨hlen, hsep⟩ := hs
  match s, hlen with
  | [], _ => exact .inl rfl
  | [g], _ =>
    rcases dashDotSpace_cases (hsep g List.mem_cons_self) with rfl | hdash
    · right
      cases ds with
      | nil => exact ⟨rfl, rfl, h⟩
      | cons u ds =>
        obtain ⟨rfl, -⟩ := List.cons_eq_cons.1 h
        cases hds _ List.mem_cons_self
    · left
      exact no_separator h hds hcalm ⟨le_refl 1, by simpa using hdash⟩ hrest

theorem closing_nil {ds tail closing rest : List Nat} (h : ds ++ tail = closing ++ rest) (hds : ∀ u ∈ ds, isDigit u = true)
    (htail : tail.head?.any (isOf ")") = false) (hclosing : ∀ u ∈ closing, isOf ")" u = true) : closing = [] := by
  cases closing with
  | nil => rfl
  | cons g closing =>
    obtain rfl : g = ')'.toNat := by simpa [isOf] using hclosing g List.mem_cons_self
    cases ds with
    | cons u ds =>
      obtain ⟨rfl, -⟩ := List.cons_eq_cons.1 h
      cases hds _ List.mem_cons_self
    | nil =>
      rw [List.nil_append] at h
      rw [h] at htail
      cases htail

/-- Behind a point comes the fraction. -/
theorem point_cons {rest : List Nat} (hfollows : Follows todo) (h : n.point ++ (n.power ++ text todo) = '.'.toNat :: rest) :
    n.fraction ≠ [] ∧ rest = n.fraction ++ (n.power ++ text todo) := by
  rw [Numeral.point] at h
  split at h
  next hnil =>
    rw [List.nil_append, Numeral.power] at h
    cases he : n.exponent with
    | none =>
      rw [he, Option.map_none, Option.getD_none, List.nil_append] at h
      have hnot := (follows_first hfollows (u := '.'.toNat) (by rw [h]; rfl)).2.2
      cases hnot
    | some e =>
      rw [he] at h
      obtain ⟨hletter, -⟩ := List.cons_eq_cons.1 h
      have hword := (exponent_letter e).1
      rw [hletter] at hword
      cases hword
  next hne => exact ⟨hne, (List.cons_eq_cons.1 h).2.symm⟩

theorem head_closing (hfollows : Follows todo) : (n.point ++ (n.power ++ text todo)).head?.any (isOf ")") = false := by
  rw [Numeral.point]
  split
  · rw [List.nil_append, Numeral.power]
    cases n.exponent with
    | none =>
      cases hhead : (text todo).head? with
      | none => simp [hhead]
      | some u =>
        have hnot := (follows_first hfollows hhead).2.2
        simp only [isOf, String.reduceToList, List.any_cons, List.any_nil, Bool.or_eq_false_iff] at hnot
        simpa [hhead, isOf] using hnot.2.2.1
    | some e => rcases e.isLetter with h | h <;> simp [Exponent.text, h] <;> decide
  · rfl

/-- What the pattern matches where a number begins: its digits before the point, or these and
    the fraction. -/
theorem phone_matches {b m after : List Nat} (h : patterns.phone.Describes plain.unit b m after) (hfollows : Follows todo)
    (hsplit : n.whole ++ (n.point ++ (n.power ++ text todo)) = m ++ after) :
    m = n.whole ∧ n.whole.length = 10 ∧ (n.fraction ≠ [] ∨ n.exponent = none) ∨
      m = n.whole ++ n.point ∧ n.fraction ≠ [] ∧ n.exponent = none ∧
        (n.whole.length = 6 ∧ n.fraction.length = 4 ∨ n.whole.length = 3 ∧ n.fraction.length = 7) := by
  have hmne : m ≠ [] := phone_solid _ _ _ h
  have hdigit : m.head?.any isDigit = true := by
    obtain ⟨u, m, rfl⟩ := List.exists_cons_of_ne_nil hmne
    have hhead := head_digit n.some_whole n.whole_digits (n.point ++ (n.power ++ text todo))
    rwa [hsplit] at hhead
  obtain ⟨-, area, closing, gap, x, s, y, rfl, harea, hclosing, hgap, hx, hs, hy, hend⟩ := phone_parts h hdigit
  simp only [List.append_assoc] at hsplit
  have hcalm := point_calm n hfollows
  obtain ⟨d, hwhole, hd⟩ := digits_split hsplit harea.2 hcalm.head
  have hdd : ∀ u ∈ d, isDigit u = true := fun u hu => n.whole_digits u (by rw [hwhole]; exact List.mem_append_right _ hu)
  obtain rfl := closing_nil hd.symm hdd (head_closing hfollows) hclosing.2
  rw [List.nil_append] at hd
  have hxhead := head_digit (ne_nil_of_length hx.1) hx.2 (s ++ (y ++ after))
  have hyhead := head_digit (ne_nil_of_length hy.1) hy.2 after
  rcases separator_point hd.symm hdd hcalm hgap hxhead with rfl | ⟨rfl, rfl, hpoint⟩
  · rw [List.nil_append] at hd
    obtain ⟨d', rfl, hd'⟩ := digits_split hd.symm hx.2 hcalm.head
    have hdd' : ∀ u ∈ d', isDigit u = true := fun u hu => hdd u (List.mem_append_right x hu)
    rcases separator_point hd'.symm hdd' hcalm hs hyhead with rfl | ⟨rfl, rfl, hpoint⟩
    · -- ten digits
      left
      rw [List.nil_append] at hd'
      obtain ⟨d'', rfl, hafter⟩ := digits_split hd'.symm hy.2 hcalm.head
      obtain rfl := digits_all hafter (fun u hu => hdd' u (List.mem_append_right y hu)) hend
      rw [hafter, List.nil_append, point_word n hfollows] at hend
      exact ⟨by simp [hwhole], by simp [hwhole, harea.1, hx.1, hy.1], hend⟩
    · -- six digits, the point and four
      right
      obtain ⟨hne, hrest⟩ := point_cons hfollows hpoint
      obtain ⟨d'', hfraction, hafter⟩ := digits_split hrest.symm hy.2 (power_calm n hfollows).head
      obtain rfl := digits_all hafter (fun u hu => n.fraction_digits u (by rw [hfraction]; exact List.mem_append_right y hu)) hend
      rw [hafter, List.nil_append, power_word n hfollows] at hend
      refine ⟨?_, hne, hend, .inl ⟨by simp [hwhole, harea.1, hx.1], by simp [hfraction, hy.1]⟩⟩
      rw [Numeral.point, if_neg hne, hwhole, hfraction]
      simp
  · obtain ⟨hne, hrest⟩ := point_cons hfollows hpoint
    obtain ⟨d', hfraction, hd'⟩ := digits_split hrest.symm hx.2 (power_calm n hfollows).head
    have hdd' : ∀ u ∈ d', isDigit u = true := fun u hu => n.fraction_digits u (by rw [hfraction]; exact List.mem_append_right x hu)
    rcases separator_point hd'.symm hdd' (power_calm n hfollows) hs hyhead with rfl | ⟨rfl, rfl, hpower⟩
    · -- three digits, the point and seven
      right
      rw [List.nil_append] at hd'
      obtain ⟨d'', rfl, hafter⟩ := digits_split hd'.symm hy.2 (power_calm n hfollows).head
      obtain rfl := digits_all hafter (fun u hu => hdd' u (List.mem_append_right y hu)) hend
      rw [hafter, List.nil_append, power_word n hfollows] at hend
      refine ⟨?_, hne, hend, .inr ⟨by simp [hwhole, harea.1], by simp [hfraction, hx.1, hy.1]⟩⟩
      rw [Numeral.point, if_neg hne, hwhole, hfraction]
      simp
    · -- a number has one point
      exfalso
      rw [Numeral.power] at hpower
      cases he : n.exponent with
      | none =>
        rw [he, Option.map_none, Option.getD_none, List.nil_append] at hpower
        have hnot := (follows_first hfollows (u := '.'.toNat) (by rw [hpower]; rfl)).2.2
        cases hnot
      | some e =>
        rw [he] at hpower
        obtain ⟨hletter, -⟩ := List.cons_eq_cons.1 hpower
        have hword := (exponent_letter e).1
        rw [hletter] at hword
        cases hword

theorem phone_of_looks {b : List Nat} (hb : b.head?.any joins = false) (hfollows : Follows todo) (h : LooksPhone n) :
    ∃ m after, n.whole ++ (n.point ++ (n.power ++ text todo)) = m ++ after ∧ patterns.phone.Describes plain.unit b m after := by
  have hdash : ∀ {xs : List Nat}, xs = n.point ++ (n.power ++ text todo) ∧ (n.fraction ≠ [] ∨ n.exponent = none) ∨
      xs = n.power ++ text todo ∧ n.exponent = none → xs.head?.any (fun u => isWord u || isOf "-" u) = false := by
    have htext : (text todo).head?.any (fun u => isWord u || isOf "-" u) = false := by
      cases hhead : (text todo).head? with
      | none => rfl
      | some u =>
        obtain ⟨hword, -, hnot⟩ := follows_first hfollows hhead
        simp only [isOf, String.reduceToList, List.any_cons, List.any_nil, Bool.or_eq_false_iff] at hnot
        have hhyphen : u ≠ '-'.toNat := ne_of_beq_false hnot.2.1
        simpa [hword, isOf] using hhyphen
    intro xs hxs
    rcases hxs with ⟨rfl, hcond⟩ | ⟨rfl, he⟩
    · by_cases hne : n.fraction = []
      · have he := hcond.resolve_left fun hnot => hnot hne
        simpa [Numeral.point, Numeral.power, hne, he] using htext
      · rw [Numeral.point, if_neg hne]
        rfl
    · simpa [Numeral.power, he] using htext
  have hdigits : ∀ {xs : List Nat}, (∀ u ∈ xs, isDigit u = true) → ∀ i j, ∀ u ∈ (xs.drop i).take j, isDigit u = true :=
    fun hxs i j u hu => hxs u (List.mem_of_mem_drop (List.mem_of_mem_take hu))
  obtain ⟨-, ⟨hten, hcond⟩ | ⟨he, ⟨hsix, hfour⟩ | ⟨hthree, hseven⟩⟩⟩ := h
  · refine ⟨_, _, rfl, ?_⟩
    have hparts : n.whole = n.whole.take 3 ++ ([] ++ ((n.whole.drop 3).take 3 ++ ([] ++ (n.whole.drop 6).take 4))) := by
      have hrest : (n.whole.drop 6).take 4 = n.whole.drop 6 := List.take_of_length_le (by rw [List.length_drop]; omega)
      have hmid : (n.whole.drop 3).take 3 ++ n.whole.drop 6 = n.whole.drop 3 := by
        have hdrop : n.whole.drop 6 = (n.whole.drop 3).drop 3 := by rw [List.drop_drop]
        rw [hdrop, List.take_append_drop]
      rw [List.nil_append, List.nil_append, hrest, hmid, List.take_append_drop]
    rw [hparts]
    exact phone_of_digits hb ⟨by simp [hten], fun u hu => n.whole_digits u (List.mem_of_mem_take hu)⟩ (by simp)
      ⟨by simp [hten], hdigits n.whole_digits 3 3⟩ (by simp) ⟨by simp [hten], hdigits n.whole_digits 6 4⟩ (hdash (.inl ⟨rfl, hcond⟩))
  · have hne : n.fraction ≠ [] := ne_nil_of_length hfour
    refine ⟨n.whole.take 3 ++ ([] ++ (n.whole.drop 3 ++ (['.'.toNat] ++ n.fraction))), n.power ++ text todo, ?_, ?_⟩
    · rw [Numeral.point, if_neg hne, List.nil_append]
      simp only [← List.append_assoc, List.take_append_drop]
      simp
    · exact phone_of_digits hb ⟨by simp [hsix], fun u hu => n.whole_digits u (List.mem_of_mem_take hu)⟩ (by simp)
        ⟨by simp [hsix], fun u hu => n.whole_digits u (List.mem_of_mem_drop hu)⟩ ⟨by simp, by simp; rfl⟩
        ⟨hfour, n.fraction_digits⟩ (hdash (.inr ⟨rfl, he⟩))
  · have hne : n.fraction ≠ [] := ne_nil_of_length hseven
    refine ⟨n.whole ++ (['.'.toNat] ++ (n.fraction.take 3 ++ ([] ++ n.fraction.drop 3))), n.power ++ text todo, ?_, ?_⟩
    · rw [Numeral.point, if_neg hne, List.nil_append, List.take_append_drop]
      simp
    · exact phone_of_digits hb ⟨hthree, n.whole_digits⟩ ⟨by simp, by simp; rfl⟩
        ⟨by simp [hseven], fun u hu => n.fraction_digits u (List.mem_of_mem_take hu)⟩ (by simp)
        ⟨by simp [hseven], fun u hu => n.fraction_digits u (List.mem_of_mem_drop hu)⟩ (hdash (.inr ⟨rfl, he⟩))

theorem phone_behind {b m after : List Nat} (h : patterns.phone.Describes plain.unit b m after) : b.head?.any joins = false := by
  simp only [patterns.phone, Regex.describes_cons, notBehind, Regex.describes_look] at h
  obtain ⟨_, _, rfl, ⟨rfl, hb⟩, -⟩ := h
  rwa [plain_unit_eq, Option.map_id, id_eq, Bool.not_eq_true'] at hb

theorem find_joined {b : List Nat} (hb : b.head?.any joins = true) (rest : List Nat) : patterns.phone.find plain.unit b rest = none := by
  refine Regex.find_eq_none_iff.2 fun m after _ hdesc => ?_
  rw [phone_behind hdesc] at hb
  cases hb

theorem numeral_joins (n : Numeral) : ∀ u ∈ n.text, joins u = true := by
  intro u hu
  rcases numeral_units n u hu with hdigit | hother
  · simp [joins, word_of_digit hdigit]
  · rw [isOf, List.any_eq_true] at hother
    obtain ⟨c, hc, hu⟩ := hother
    have hall : ("-+.eE".toList.all fun c => joins c.toNat) = true := by decide +kernel
    rw [eq_of_beq hu]
    exact List.all_eq_true.1 hall c hc

/-- Inside a number no phone number begins. -/
theorem goes_joined {b xs : List Nat} {todo : List Lexeme} (hquote : '"'.toNat ∉ xs) (hxs : ∀ u ∈ xs, joins u = true)
    (hfirst : b.head?.any joins = true ∨ patterns.phone.find plain.unit b (xs ++ text todo) = none) :
    Goes patterns.phone (unlessJsonNumber plain (maskPhone plain)) True b xs (text todo) := by
  refine goes_copy hquote fun x y hsplit hy => ?_
  cases x with
  | nil =>
    rw [List.nil_append] at hsplit
    subst hsplit
    rcases hfirst with hb | hnone
    · exact find_joined hb _
    · exact hnone
  | cons u x =>
    refine find_joined ?_ _
    rw [List.head?_append, List.head?_reverse, List.getLast?_eq_some_getLast (List.cons_ne_nil u x), Option.some_or]
    exact hxs _ (by rw [hsplit]; exact List.mem_append_left _ (List.getLast_mem _))

theorem star_maskPhone {b m after : List Nat} (h : patterns.phone.Describes plain.unit b m after) : '*'.toNat ∈ maskPhone plain m := by
  obtain ⟨front, rest, heq⟩ := maskPhone_found h
  rw [heq]
  exact List.mem_append_right _ (List.mem_append_left _ (by decide))

theorem not_bare_of_point {m : List Nat} (hm : '.'.toNat ∈ m) (b after : List Nat) : isBareJsonNumber plain b m after = false := by
  have hall : m.all (fun u => isDigit u) = false := List.all_eq_false.2 ⟨_, hm, by decide⟩
  simp [isBareJsonNumber, hall]

/-- A number is left as it is, unless it looks like a phone number and is no bare JSON number. -/
theorem phone_number (hlinked : Linked before (.num n :: todo)) :
    Goes patterns.phone (unlessJsonNumber plain (maskPhone plain)) (LooksPhone n → onlyDigits n = true ∧ direct before = true)
      (rtext before) n.text (text todo) := by
  have hfollows := follows_of_linked hlinked
  have hquote : '"'.toNat ∉ n.text := numeral_not (by decide)
  have hjoins := numeral_joins n
  rw [Numeral.text] at hquote hjoins ⊢
  cases hneg : n.negative with
  | true =>
    rw [Numeral.minus, hneg, if_pos rfl] at hquote hjoins ⊢
    have hminus : Goes patterns.phone (unlessJsonNumber plain (maskPhone plain)) True (rtext before) ['-'.toNat]
        ((n.whole ++ (n.point ++ n.power)) ++ text todo) := goes_begins phone_tame (by decide) (by decide +kernel) _ _
    have hrest : Goes patterns.phone (unlessJsonNumber plain (maskPhone plain)) True ('-'.toNat :: rtext before)
        (n.whole ++ (n.point ++ n.power)) (text todo) :=
      goes_joined (fun hmem => hquote (List.mem_append_right _ hmem)) (fun u hu => hjoins u (List.mem_append_right _ hu)) (.inl rfl)
    refine (hminus.append hrest).congr (iff_of_true ⟨trivial, trivial⟩ fun hlooks => ?_)
    rw [hlooks.1] at hneg
    cases hneg
  | false =>
    have hbare := whole_bare hlinked
    rw [Numeral.minus, hneg, if_neg Bool.false_ne_true, List.nil_append] at hquote hjoins ⊢
    rw [Numeral.minus, hneg, if_neg Bool.false_ne_true, List.reverse_nil, List.nil_append] at hbare
    cases hfind : patterns.phone.find plain.unit (rtext before) (n.whole ++ (n.point ++ n.power) ++ text todo) with
    | none =>
      refine (goes_joined hquote hjoins (.inr hfind)).congr (iff_of_true trivial fun hlooks => ?_)
      obtain ⟨m, after, hsplit, hdesc⟩ := phone_of_looks (number_behind hlinked rfl) hfollows hlooks
      refine absurd hdesc (Regex.find_eq_none_iff.1 hfind m after ?_)
      rw [← hsplit, List.append_assoc, List.append_assoc]
    | some e =>
      obtain ⟨m, after⟩ := e
      obtain ⟨hsplit, hdesc⟩ := Regex.find_eq_some hfind
      rw [List.append_assoc, List.append_assoc] at hsplit hfind
      rcases phone_matches hdesc hfollows hsplit with ⟨rfl, hten, hcond⟩ | ⟨rfl, hne, he, hlengths⟩
      · obtain rfl : after = n.point ++ (n.power ++ text todo) := (List.append_cancel_left hsplit).symm
        have hwhole : Goes patterns.phone (unlessJsonNumber plain (maskPhone plain)) (onlyDigits n = true ∧ direct before = true)
            (rtext before) n.whole ((n.point ++ n.power) ++ text todo) := by
          rw [List.append_assoc]
          refine goes_found phone_tame hfind (fun hP => ?_) fun hP => ?_
          · rw [unlessJsonNumber, hbare, hP.1, hP.2]
            rfl
          · have hnot : (onlyDigits n && direct before) = false := by
              rwa [← Bool.not_eq_true, Bool.and_eq_true]
            rw [unlessJsonNumber, hbare, hnot, if_neg Bool.false_ne_true]
            exact star_maskPhone hdesc
        have hlast : (n.whole.reverse ++ rtext before).head?.any joins = true := by
          rw [List.head?_append, List.head?_reverse, List.getLast?_eq_some_getLast n.some_whole, Option.some_or]
          exact hjoins _ (List.mem_append_left _ (List.getLast_mem _))
        have hrest : Goes patterns.phone (unlessJsonNumber plain (maskPhone plain)) True (n.whole.reverse ++ rtext before)
            (n.point ++ n.power) (text todo) :=
          goes_joined (fun hmem => hquote (List.mem_append_right _ hmem)) (fun u hu => hjoins u (List.mem_append_right _ hu))
            (.inl hlast)
        refine (hwhole.append hrest).congr ⟨fun h _ => h.1, fun h => ⟨h ⟨hneg, .inl ⟨hten, hcond⟩⟩, trivial⟩⟩
      · have hpower : n.power = [] := by rw [Numeral.power, he]; rfl
        rw [hpower] at hsplit hfind hquote hjoins ⊢
        rw [List.append_nil] at hquote hjoins ⊢
        obtain rfl : after = text todo := by
          rw [List.nil_append, ← List.append_assoc] at hsplit
          exact (List.append_cancel_left hsplit).symm
        rw [List.nil_append, ← List.append_assoc] at hfind
        have honly : onlyDigits n = false := by simp [onlyDigits, hne]
        refine goes_found phone_tame hfind (fun hP => ?_) fun _ => ?_
        · have hcon := (hP ⟨hneg, .inr ⟨he, hlengths⟩⟩).1
          rw [honly] at hcon
          cases hcon
        · have hpoint : '.'.toNat ∈ n.whole ++ n.point := by simp [Numeral.point, hne]
          rw [unlessJsonNumber, not_bare_of_point hpoint, if_neg Bool.false_ne_true]
          exact star_maskPhone hdesc

end Number

/-! ## IBANs and addresses -/

/-- Only the `E` of an exponent is a letter an IBAN may begin with, and it stands behind a
    digit. -/
theorem iban_number {before todo : List Lexeme} {n : Numeral} :
    Goes patterns.iban (fun _ m _ => maskIBAN plain m) True (rtext before) n.text (text todo) := by
  have hbegins : ∀ {u}, isUpper u = false → patterns.iban.begins u = false := by
    intro u hu
    simpa [patterns.iban, Regex.chain, Regex.begins, Regex.consumes, boundary, Regex.exactly] using hu
  have hnotUpper : ∀ {u}, isDigit u = true → isUpper u = false := by
    intro u hu
    simp only [isDigit, isUpper, Bool.and_eq_true, decide_eq_true_eq, Bool.and_eq_false_iff, decide_eq_false_iff_not, Char.reduceToNat] at hu ⊢
    omega
  have hdigits : ∀ {xs : List Nat}, (∀ u ∈ xs, isDigit u = true) → ∀ b tail,
      Goes patterns.iban (fun _ m _ => maskIBAN plain m) True b xs tail := fun hxs b tail =>
    goes_begins iban_tame (quote_not_word fun u hu => word_of_digit (hxs u hu)) (fun u hu => hbegins (hnotUpper (hxs u hu))) b tail
  have hminus : ∀ b tail, Goes patterns.iban (fun _ m _ => maskIBAN plain m) True b n.minus tail := by
    intro b tail
    rw [Numeral.minus]
    split
    · exact goes_begins iban_tame (by decide) (by simpa using hbegins rfl) b tail
    · exact goes_nil
  have hpoint : ∀ b tail, Goes patterns.iban (fun _ m _ => maskIBAN plain m) True b n.point tail := by
    intro b tail
    rw [Numeral.point]
    split
    · exact goes_nil
    · have hdot : Goes patterns.iban (fun _ m _ => maskIBAN plain m) True b ['.'.toNat] (n.fraction ++ tail) :=
        goes_begins iban_tame (by decide) (by simpa using hbegins rfl) b _
      exact (hdot.append (hdigits n.fraction_digits _ tail)).congr (by simp)
  have hpower : ∀ b, b.head?.any isWord = true → ∀ tail, Goes patterns.iban (fun _ m _ => maskIBAN plain m) True b n.power tail := by
    intro b hb tail
    rw [Numeral.power]
    cases n.exponent with
    | none => exact goes_nil
    | some e =>
      have hletter : Goes patterns.iban (fun _ m _ => maskIBAN plain m) True b [e.letter] ((e.sign.toList ++ e.digits) ++ tail) :=
        goes_inside iban_tame hb (by simpa using (exponent_letter e).1) _
      have hsign : Goes patterns.iban (fun _ m _ => maskIBAN plain m) True (e.letter :: b) e.sign.toList (e.digits ++ tail) := by
        have hcases := fun u hu => e.isSign u (Option.mem_toList.1 hu)
        refine goes_begins iban_tame (fun hmem => ?_) (fun u hu => hbegins ?_) _ _
        · rcases hcases _ hmem with h | h <;> cases h
        · rcases hcases u hu with rfl | rfl <;> rfl
      exact (hletter.append (hsign.append (hdigits e.allDigits _ tail))).congr (by simp)
  have hlast : (n.point.reverse ++ (n.whole.reverse ++ (n.minus.reverse ++ rtext before))).head?.any isWord = true := by
    rw [Numeral.point]
    split
    · rw [List.reverse_nil, List.nil_append, List.head?_append, List.head?_reverse, List.getLast?_eq_some_getLast n.some_whole,
        Option.some_or]
      exact word_of_digit (n.whole_digits _ (List.getLast_mem _))
    next hne =>
      rw [List.head?_append, List.head?_reverse, List.getLast?_cons, List.getLast?_eq_some_getLast hne, Option.some_or]
      exact word_of_digit (n.fraction_digits _ (List.getLast_mem _))
  have hparts := (hminus (rtext before) _).append ((hdigits n.whole_digits _ _).append ((hpoint _ _).append (hpower _ hlast (text todo))))
  exact hparts.congr (by simp)

/-- Where neither `@` nor a unit of a local part follows, no address begins. -/
theorem email_outside {xs tail : List Nat} (hxs : ∀ u ∈ xs, patterns.isLocal u = true)
    (htail : tail.head?.any (fun u => patterns.isLocal u || isOf "@" u) = false) (b : List Nat) :
    Goes patterns.email (fun _ m _ => maskEmail plain m) True b xs tail := by
  have hat : '@'.toNat ∉ xs := fun hmem => by cases hxs _ hmem
  refine goes_copy (fun hmem => by cases hxs _ hmem) fun x y hsplit _ => ?_
  refine Regex.find_eq_none_iff.2 fun m after hrest hdesc => ?_
  obtain ⟨c, l, d, rfl, hc, hl, -⟩ := email_describes hdesc
  have hlocal : ∀ u ∈ c :: l, patterns.isLocal u = true := by
    intro u hu
    rcases List.mem_cons.1 hu with rfl | hu
    · exact hc
    · exact hl u hu
  have hrest' : y ++ tail = (c :: l) ++ ('@'.toNat :: (d ++ after)) := by simpa using hrest
  rcases List.append_eq_append_iff.1 hrest' with ⟨z, hlong, htail'⟩ | ⟨z, hy, hz⟩
  · cases z with
    | nil =>
      rw [htail'] at htail
      cases htail
    | cons u z =>
      have hu := hlocal u (by simp [hlong])
      rw [htail', List.cons_append, List.head?_cons, Option.any_some, hu] at htail
      cases htail
  · cases z with
    | nil =>
      rw [← List.nil_append tail, ← hz] at htail
      cases htail
    | cons u z =>
      obtain ⟨rfl, -⟩ := List.cons_eq_cons.1 hz
      exact hat (by rw [hsplit, hy]; simp)

end ClusterGate.Sanitizer
