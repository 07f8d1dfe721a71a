/-
  ClusterGate.Sanitizer.Digits — what the patterns of digits match of a number of a JSON text.

  No separator of theirs has a digit behind it there, so that a match is a whole group of
  digits: `creditCard_digits` (of 13 to 19), `ssn_digits` (of nine).
-/

import ClusterGate.Sanitizer.Numbers

namespace ClusterGate.Sanitizer

open Lib
open Lib.JsonLexemes hiding isDigit

/-! ## Behind digits -/

/-- No digit follows, over hyphens and white space. -/
def Calm (tail : List Nat) : Prop := (tail.dropWhile patterns.isDashSpace).head?.any isDigit = false

theorem dashSpace_facts {u : Nat} (h : patterns.isDashSpace u = true) : isDigit u = false ∧ isWord u = false := by
  simp only [patterns.isDashSpace, isOf, isSpace, String.reduceToList, List.any_cons, List.any_nil, Bool.or_eq_true, Bool.and_eq_true,
    decide_eq_true_eq, beq_iff_eq, Char.reduceToNat, Bool.or_false] at h
  simp only [isWord, isLetter, isUpper, isLower, isDigit, Char.reduceToNat, Bool.or_eq_false_iff, Bool.and_eq_false_iff,
    decide_eq_false_iff_not, beq_eq_false_iff_ne]
  omega

theorem digit_not_dashSpace {u : Nat} (h : isDigit u = true) : patterns.isDashSpace u = false := by
  by_contra hcon
  rw [Bool.not_eq_false] at hcon
  rw [(dashSpace_facts hcon).1] at h
  cases h

theorem Calm.head {tail : List Nat} (h : Calm tail) : tail.head?.any isDigit = false := by
  cases tail with
  | nil => rfl
  | cons u tail =>
    by_cases hu : patterns.isDashSpace u = true
    · exact (dashSpace_facts hu).1
    · rwa [Calm, List.dropWhile_cons, if_neg hu] at h

theorem Calm.tail {u : Nat} {tail : List Nat} (h : Calm (u :: tail)) (hu : patterns.isDashSpace u = true) : Calm tail := by
  rwa [Calm, List.dropWhile_cons, if_pos hu] at h

theorem calm_cons {u : Nat} (hdash : patterns.isDashSpace u = false) (hdigit : isDigit u = false) (tail : List Nat) :
    Calm (u :: tail) := by
  rw [Calm, List.dropWhile_cons, if_neg (by simp [hdash])]
  exact hdigit

theorem blank_dashSpace (b : Blank) : patterns.isDashSpace b.unit = true := by
  cases b <;> rfl

theorem calm_text {todo : List Lexeme} (h : Follows todo) : Calm (text todo) := by
  induction todo with
  | nil => rfl
  | cons l todo ih =>
    rcases follows_cases h with ⟨b, rfl, hnext⟩ | ⟨m, rfl, hm⟩
    · have hcalm := ih hnext
      rwa [text_cons, Lexeme.text, List.singleton_append, Calm, List.dropWhile_cons, if_pos (blank_dashSpace b)]
    · rcases hm with rfl | rfl | rfl
      all_goals exact calm_cons rfl rfl _

/-- Digits at the beginning are of the digits a text begins with. -/
theorem digits_split {ds tail xs ys : List Nat} (h : ds ++ tail = xs ++ ys) (hxs : ∀ u ∈ xs, isDigit u = true)
    (htail : tail.head?.any isDigit = false) : ∃ zs, ds = xs ++ zs ∧ ys = zs ++ tail := by
  rcases List.append_eq_append_iff.1 h with ⟨zs, hsplit, hrest⟩ | ⟨zs, hsplit, hrest⟩
  · cases zs with
    | nil => exact ⟨[], by simpa using hsplit.symm, by simpa using hrest.symm⟩
    | cons u zs =>
      have hdigit := hxs u (by simp [hsplit])
      rw [hrest] at htail
      exact absurd hdigit (by simpa using htail)
  · exact ⟨zs, hsplit, hrest⟩

/-- A separator with a digit behind it does not stand behind digits. -/
theorem no_separator {ds tail s rest : List Nat} (h : ds ++ tail = s ++ rest) (hds : ∀ u ∈ ds, isDigit u = true) (hcalm : Calm tail)
    (hs : s.length ≤ 1 ∧ ∀ u ∈ s, patterns.isDashSpace u = true) (hrest : rest.head?.any isDigit = true) : s = [] := by
  obtain ⟨hlen, hsep⟩ := hs
  match s, hlen with
  | [], _ => rfl
  | [g], _ =>
    have hg := hsep g List.mem_cons_self
    cases ds with
    | cons u ds =>
      obtain ⟨rfl, -⟩ := List.cons_eq_cons.1 h
      rw [digit_not_dashSpace (hds _ List.mem_cons_self)] at hg
      cases hg
    | nil =>
      rw [List.nil_append, List.singleton_append] at h
      rw [h] at hcalm
      rw [(hcalm.tail hg).head] at hrest
      cases hrest

theorem head_digit {xs : List Nat} (hne : xs ≠ []) (hdigits : ∀ u ∈ xs, isDigit u = true) (ys : List Nat) :
    (xs ++ ys).head?.any isDigit = true := by
  obtain ⟨u, xs, rfl⟩ := List.exists_cons_of_ne_nil hne
  exact hdigits u List.mem_cons_self

theorem ne_nil_of_length {xs : List Nat} {n : Nat} (h : xs.length = n + 1) : xs ≠ [] := by
  rintro rfl
  cases h

theorem word_of_digit {u : Nat} (h : isDigit u = true) : isWord u = true := (digit_facts h).1

/-- Where no word goes on behind digits all of them are taken. -/
theorem digits_all {ds tail after : List Nat} (h : after = ds ++ tail) (hds : ∀ u ∈ ds, isDigit u = true)
    (hafter : after.head?.any isWord = false) : ds = [] := by
  cases ds with
  | nil => rfl
  | cons u ds =>
    rw [h] at hafter
    exact absurd (word_of_digit (hds u List.mem_cons_self)) (by simpa using hafter)

/-! ## What is matched of a group of digits -/

/-- What the social security pattern matches at the beginning of a group is the group, of nine
    digits. -/
theorem ssn_group {b m after ds tail : List Nat} (h : patterns.ssn.Describes plain.unit b m after) (hsplit : ds ++ tail = m ++ after)
    (hds : ∀ u ∈ ds, isDigit u = true) (hcalm : Calm tail) : m = ds ∧ ds.length = 9 ∧ tail.head?.any isWord = false := by
  obtain ⟨x, s, y, s', z, rfl, hx, hy, hz, hxd, hyd, hzd, hs, hs', hend⟩ := ssn_describes h
  simp only [List.append_assoc] at hsplit
  obtain ⟨d, rfl, hd⟩ := digits_split hsplit hxd hcalm.head
  have hdd : ∀ u ∈ d, isDigit u = true := fun u hu => hds u (List.mem_append_right x hu)
  obtain rfl := no_separator hd.symm hdd hcalm hs (head_digit (ne_nil_of_length hy) hyd _)
  rw [List.nil_append] at hd
  obtain ⟨d', rfl, hd'⟩ := digits_split hd.symm hyd hcalm.head
  have hdd' : ∀ u ∈ d', isDigit u = true := fun u hu => hdd u (List.mem_append_right y hu)
  obtain rfl := no_separator hd'.symm hdd' hcalm hs' (head_digit (ne_nil_of_length hz) hzd _)
  rw [List.nil_append] at hd'
  obtain ⟨d'', rfl, hafter⟩ := digits_split hd'.symm hzd hcalm.head
  have hlast : (x ++ ([] ++ (y ++ ([] ++ z)))).getLast?.any isWord = true := by
    obtain ⟨z, u, rfl⟩ := (List.eq_nil_or_concat z).resolve_left (ne_nil_of_length hz)
    simpa using word_of_digit (hzd u (by simp))
  rw [hlast, Bool.true_bne, Bool.not_eq_true'] at hend
  obtain rfl := digits_all hafter (fun u hu => hdd' u (List.mem_append_right z hu)) hend
  refine ⟨by simp, by simp [hx, hy, hz], ?_⟩
  rwa [hafter, List.nil_append] at hend

theorem ssn_of_group {b ds tail : List Nat} (hb : b.head?.any isWord = false) (hds : ∀ u ∈ ds, isDigit u = true)
    (hlen : ds.length = 9) (htail : tail.head?.any isWord = false) : patterns.ssn.Describes plain.unit b ds tail := by
  match ds, hlen with
  | [d1, d2, d3, d4, d5, d6, d7, d8, d9], _ =>
    have hd : ∀ u ∈ [d1, d2, d3, d4, d5, d6, d7, d8, d9], isDigit u = true := hds
    simp only [List.mem_cons, List.not_mem_nil, or_false, forall_eq_or_imp, forall_eq] at hd
    simp only [patterns.ssn, Regex.describes_cons, Regex.describes_nil, boundary, Regex.describes_look,
      Regex.describes_exactly, Regex.describes_upTo]
    refine ⟨[], _, rfl, ⟨rfl, ?_⟩, [d1, d2, d3], [d4, d5, d6, d7, d8, d9], rfl, by simp [hd], [], _, rfl, by simp,
      [d4, d5], [d6, d7, d8, d9], rfl, by simp [hd], [], _, rfl, by simp, [d6, d7, d8, d9], [], rfl, by simp [hd],
      [], [], rfl, ⟨rfl, ?_⟩, rfl⟩
    · simp [hb, word_of_digit hd.1]
    · simp [htail, word_of_digit hd.2.2.2.2.2.2.2.2]

theorem ssn_digits {b ds tail : List Nat} (hb : b.head?.any isWord = false) (hds : ∀ u ∈ ds, isDigit u = true) (hcalm : Calm tail) :
    patterns.ssn.find plain.unit b (ds ++ tail) = if ds.length = 9 ∧ tail.head?.any isWord = false then some (ds, tail) else none := by
  split
  next hcond =>
    have hdesc := ssn_of_group hb hds hcond.1 hcond.2
    cases hfind : patterns.ssn.find plain.unit b (ds ++ tail) with
    | none => exact absurd hdesc (Regex.find_eq_none_iff.1 hfind ds tail rfl)
    | some e =>
      obtain ⟨hsplit, hm⟩ := Regex.find_eq_some hfind
      obtain ⟨heq, -⟩ := ssn_group hm hsplit hds hcalm
      rw [heq] at hsplit
      exact congrArg some (Prod.ext heq (List.append_cancel_left hsplit).symm)
  next hcond =>
    refine Regex.find_eq_none_iff.2 fun m after hsplit hm => hcond ?_
    exact (ssn_group hm hsplit hds hcalm).2

/-- The scan goes over digits. -/
theorem cardScan_digits {ds : List Nat} (hds : ∀ u ∈ ds, isDigit u = true) (min max : Nat) (tail : List Nat) :
    cardScan plain min max (ds ++ tail) =
      if ds.length ≤ max then cardScan plain (min - ds.length) (max - ds.length) tail else none := by
  induction ds generalizing min max with
  | nil => simp
  | cons u ds ih =>
    have hu : isDigit (plain.unit u) = true := hds u List.mem_cons_self
    cases max with
    | zero =>
      rw [List.cons_append, cardScan_digit_zero hu]
      rfl
    | succ max =>
      rw [List.cons_append, cardScan_digit hu, ih (fun v hv => hds v (List.mem_cons_of_mem u hv)), List.length_cons]
      have hmin : min - 1 - ds.length = min - (ds.length + 1) := by omega
      have hmax : max + 1 - (ds.length + 1) = max - ds.length := by omega
      rw [hmin, hmax]
      simp

/-- Where no digit follows the scan ends at once or not at all. -/
theorem cardScan_calm {tail : List Nat} (h : Calm tail) (min max : Nat) :
    cardScan plain min max tail = if min = 0 ∧ tail.head?.any isWord = false then some tail else none := by
  induction tail with
  | nil =>
    rw [cardScan_nil]
    simp
  | cons u tail ih =>
    have hdigit : ¬isDigit (plain.unit u) = true := by simpa using h.head
    rw [cardScan_other hdigit]
    by_cases hsep : isOf " -" u = true
    · have hdash : patterns.isDashSpace u = true := by
        have hu : u = 32 ∨ u = 45 := by simpa [isOf] using hsep
        rcases hu with rfl | rfl <;> rfl
      rw [plain_unit, if_pos hsep]
      by_cases hmin : min = 0
      · simp [hmin, (dashSpace_facts hdash).2]
      · rw [if_neg hmin, ih (h.tail hdash)]
        simp [hmin]
    · rw [plain_unit, if_neg hsep]
      exact if_congr Iff.rfl rfl rfl

theorem creditCard_digits {b ds tail : List Nat} (hb : b.head?.any isWord = false) (hne : ds ≠ [])
    (hds : ∀ u ∈ ds, isDigit u = true) (hcalm : Calm tail) :
    patterns.creditCard.find plain.unit b (ds ++ tail) =
      if (13 ≤ ds.length ∧ ds.length ≤ 19) ∧ tail.head?.any isWord = false then some (ds, tail) else none := by
  have hhead : (ds ++ tail).head?.any (fun u => isDigit (plain.unit u)) = true := head_digit hne hds tail
  have hb' : b.head?.any (fun u => isWord (plain.unit u)) = false := hb
  have htake : (ds ++ tail).take ((ds ++ tail).length - tail.length) = ds := by simp
  rw [creditCard_find, cardFind, hb', hhead, if_neg Bool.false_ne_true, if_pos rfl, cardScan_digits hds, cardScan_calm hcalm]
  by_cases hmax : ds.length ≤ 19
  · by_cases hmin : 13 - ds.length = 0 ∧ tail.head?.any isWord = false
    · rw [if_pos hmax, if_pos hmin, if_pos ⟨⟨by omega, hmax⟩, hmin.2⟩, Option.map_some, htake]
    · rw [if_pos hmax, if_neg hmin, if_neg fun h => hmin ⟨by omega, h.2⟩, Option.map_none]
  · rw [if_neg hmax, if_neg fun h => hmax h.1.2, Option.map_none]

end ClusterGate.Sanitizer
