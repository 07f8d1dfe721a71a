/-
  ClusterGate.Sanitizer.Patterns — what the patterns match in plain text, and what their
  masks leave of it.

  - `email_tame`, `card_tame`, `ssn_tame`, `phone_tame`, `iban_tame`: no match has a quote, a
    backslash or a `*` in it, none begins inside a word, and its mask is again plain text.
-/

import ClusterGate.Lib.JsonLexemes
import ClusterGate.Sanitizer.Cards

namespace ClusterGate.Sanitizer

open Lib
open Lib.JsonLexemes (isPlain)

@[simp] theorem plain_unit (u : Nat) : plain.unit u = u := rfl
@[simp] theorem plain_unit_eq : plain.unit = id := rfl

theorem email_describes {b m after : List Nat} (h : patterns.email.Describes plain.unit b m after) :
    ∃ c l d, m = c :: (l ++ '@'.toNat :: d) ∧ patterns.isLocal c = true ∧ (∀ u ∈ l, patterns.isLocal u = true) ∧ d ≠ [] ∧
      (∀ u ∈ d, patterns.isDomain u = true ∨ patterns.isTop u = true) ∧ b.head?.any isWord ≠ isWord c := by
  simp only [patterns.email, Regex.describes_cons, Regex.describes_nil, boundary, Regex.describes_look, Regex.describes_plus,
    Regex.describes_one] at h
  obtain ⟨_, _, rfl, ⟨rfl, hb⟩, l, _, rfl, ⟨hne, hl⟩, _, _, rfl, ⟨at_, rfl, hat⟩, d, _, rfl, ⟨hd, hdom⟩, _, _, rfl,
    ⟨dot, rfl, hdot⟩, _, _, rfl, ⟨t, rfl, ht⟩, _, _, rfl, ⟨t', rfl, ht'⟩, ts, _, rfl, hts, _, _, rfl, ⟨rfl, -⟩, rfl⟩ := h
  obtain ⟨c, l, rfl⟩ := List.exists_cons_of_ne_nil hne
  obtain rfl : at_ = '@'.toNat := by simpa [isOf] using hat
  refine ⟨c, l, d ++ dot :: t :: t' :: ts, by simp, hl c List.mem_cons_self, fun u hu => hl u (List.mem_cons_of_mem c hu),
    by simp, ?_, by simpa using hb⟩
  intro u hu
  simp only [List.mem_append, List.mem_cons] at hu
  rcases hu with hu | rfl | rfl | rfl | hu
  · exact .inl (hdom u hu)
  · refine .inl ?_
    obtain rfl : u = '.'.toNat := by simpa [isOf] using hdot
    decide
  · exact .inr ht
  · exact .inr ht'
  · exact .inr (hts u hu)

/-- The four digits at the end and the three before them, with at most one unit between. -/
theorem phone_describes {b m after : List Nat} (h : patterns.phone.Describes plain.unit b m after) :
    b.head?.any isWord = false ∧
      ∃ front x s y, m = front ++ (x ++ (s ++ y)) ∧ x.length = 3 ∧ lastDigits.Describes plain.unit front.reverse (x ++ (s ++ y)) [] := by
  simp only [patterns.phone, Regex.describes_cons, Regex.describes_nil, notBehind, notAhead, Regex.describes_look,
    Regex.describes_exactly, Regex.describes_upTo] at h
  obtain ⟨_, _, rfl, ⟨rfl, hb⟩, country, _, rfl, -, opening, _, rfl, -, area, _, rfl, -, closing, _, rfl, -, gap, _, rfl, -,
    x, _, rfl, hx, s, _, rfl, hs, y, _, rfl, hy, _, _, rfl, ⟨rfl, -⟩, rfl⟩ := h
  refine ⟨?_, country ++ (opening ++ (area ++ (closing ++ gap))), x, s, y, by simp, hx.1, ?_⟩
  · cases b with
    | nil => rfl
    | cons u b =>
      simp only [List.head?_cons, Option.map_some, plain_unit, Option.any_some, Bool.not_eq_true', Bool.or_eq_false_iff] at hb ⊢
      exact hb.1
  · simp only [lastDigits, Regex.describes_cons, Regex.describes_nil, atEnd, Regex.describes_look, Regex.describes_exactly,
      Regex.describes_upTo]
    exact ⟨x, s ++ y, rfl, hx, s, y, rfl, hs, y, [], by simp, hy, [], [], rfl, ⟨rfl, rfl⟩, rfl⟩

theorem maskPhone_found {b m after : List Nat} (h : patterns.phone.Describes plain.unit b m after) :
    ∃ front rest, maskPhone plain m = front ++ (literal plain "***-****" ++ rest) := by
  obtain ⟨-, front, x, s, y, rfl, -, hlast⟩ := phone_describes h
  have hfound := Regex.replaceFirst_found (f := fun _ _ _ => literal plain "***-****") (b := []) (by simpa using hlast)
  obtain ⟨front, -, -, rest, heq⟩ := hfound
  rw [List.append_nil] at heq
  exact ⟨front, rest, heq⟩

theorem maskEmail_eq {c : Nat} {l d : List Nat} (hc : patterns.isLocal c = true) (hl : ∀ u ∈ l, patterns.isLocal u = true)
    (hd : d ≠ []) (hdomain : ∀ u ∈ d, patterns.isDomain u = true ∨ patterns.isTop u = true) :
    maskEmail plain (c :: (l ++ '@'.toNat :: d)) = c :: (literal plain "***@" ++ d) := by
  have hat : ∀ u ∈ c :: l, isOf "@" u = false := by
    intro u hu
    have hlocal : patterns.isLocal u = true := by
      rcases List.mem_cons.1 hu with rfl | hu
      · exact hc
      · exact hl u hu
    by_contra hcon
    obtain rfl : u = 64 := by simpa [isOf] using hcon
    revert hlocal
    decide
  have hnot : ∀ u ∈ d, isOf "@" u = false := by
    intro u hu
    have hu := hdomain u hu
    by_contra hcon
    obtain rfl : u = 64 := by simpa [isOf] using hcon
    revert hu
    decide
  have htake : (c :: (l ++ '@'.toNat :: d)).takeWhile (fun a => !isOf "@" a) = c :: l := by
    rw [← List.cons_append, List.takeWhile_append_of_pos fun u hu => by simp [hat u hu]]
    simp [isOf]
  have hdrop : (c :: (l ++ '@'.toNat :: d)).dropWhile (fun a => !isOf "@" a) = '@'.toNat :: d := by
    rw [← List.cons_append, List.dropWhile_append_of_pos fun u hu => by simp [hat u hu]]
    simp [isOf]
  have hall : d.takeWhile (fun a => !isOf "@" a) = d := List.takeWhile_eq_self_iff.2 fun u hu => by simp [hnot u hu]
  simp only [maskEmail, plain_unit, htake, hdrop, List.tail_cons, hall, hd, if_false]
  rfl

/-! ## What every match is -/

/-- Of every match: it has no quote, backslash or `*`, and does not begin inside a word; what it
    is replaced by has units of it and of masks, and begins with the same letter if it begins
    with a letter of an escape. Both have two units at least. -/
structure Tame (r : Regex Nat) (f : List Nat → List Nat → List Nat → List Nat) : Prop where
  solid : r.Solid plain.unit
  quote : r.uses '"'.toNat = false
  backslash : r.uses '\\'.toNat = false
  star : r.uses '*'.toNat = false
  inside : ∀ {b c m after}, r.Describes plain.unit b (c :: m) after → b.head?.any isWord = true → isWord c = false
  written : ∀ b m after, ∀ u ∈ f b m after, u ∈ m ∨ OfMask plain u
  wide : ∀ {b m after}, r.find plain.unit b (m ++ after) = some (m, after) → 2 ≤ m.length
  long : ∀ {b m after}, r.find plain.unit b (m ++ after) = some (m, after) → 2 ≤ (f b m after).length
  letter : ∀ {b c m after}, r.find plain.unit b (c :: m ++ after) = some (c :: m, after) →
    isOf "\"\\/bfnrtu" c = true → (f b (c :: m) after).head? = some c

theorem inside_of_boundary {rs : List (Regex Nat)} {b m after : List Nat} {c : Nat}
    (h : (Regex.chain (boundary :: rs)).Describes plain.unit b (c :: m) after) (hb : b.head?.any isWord = true) : isWord c = false := by
  simp only [Regex.describes_cons, boundary, Regex.describes_look] at h
  obtain ⟨x, y, hm, ⟨rfl, ht⟩, -⟩ := h
  rw [List.nil_append] at hm
  subst hm
  simpa [hb] using ht

theorem long_unlessJsonNumber {mask : List Nat → List Nat} {b m after : List Nat} (hm : 2 ≤ m.length)
    (hmask : 2 ≤ (mask m).length) : 2 ≤ (unlessJsonNumber plain mask b m after).length := by
  rw [unlessJsonNumber]
  split
  · exact hm
  · exact hmask

/-- No match begins with a letter of an escape. -/
def NoLetter (r : Regex Nat) : Prop := ("\"\\/bfnrtu".toList.all fun c => !r.begins c.toNat) = true

instance (r : Regex Nat) : Decidable (NoLetter r) :=
  inferInstanceAs (Decidable (("\"\\/bfnrtu".toList.all fun c => !r.begins c.toNat) = true))

theorem letter_of_begins {r : Regex Nat} (hr : NoLetter r) {b m after : List Nat} {c : Nat}
    (hfind : r.find plain.unit b (c :: m ++ after) = some (c :: m, after)) : isOf "\"\\/bfnrtu" c = false := by
  have hbegins : r.begins c = true := Regex.begins_of_describes r (Regex.find_eq_some hfind).2 c rfl
  by_contra hcon
  rw [Bool.not_eq_false, isOf, List.any_eq_true] at hcon
  obtain ⟨x, hx, hc⟩ := hcon
  have hnot := List.all_eq_true.1 hr x hx
  rw [← eq_of_beq hc, hbegins] at hnot
  cases hnot

theorem creditCard_noLetter : NoLetter patterns.creditCard := by decide +kernel
theorem ssn_noLetter : NoLetter patterns.ssn := by decide +kernel
theorem phone_noLetter : NoLetter patterns.phone := by decide +kernel
theorem iban_noLetter : NoLetter patterns.iban := by decide +kernel


theorem email_tame : Tame patterns.email fun _ m _ => maskEmail plain m where
  solid := email_solid
  quote := by decide
  backslash := by decide
  star := by decide
  inside := inside_of_boundary
  written _ _ _ _ := mem_maskEmail
  wide hfind := by
    obtain ⟨c, l, d, rfl, -⟩ := email_describes (Regex.find_eq_some hfind).2
    simp only [List.length_cons, List.length_append]
    omega
  long hfind := by
    obtain ⟨c, l, d, rfl, hc, hl, hd, hdomain, -⟩ := email_describes (Regex.find_eq_some hfind).2
    rw [maskEmail_eq hc hl hd hdomain]
    simp [literal]
  letter hfind _ := by
    obtain ⟨c, l, d, hm, hc, hl, hd, hdomain, -⟩ := email_describes (Regex.find_eq_some hfind).2
    rw [hm, maskEmail_eq hc hl hd hdomain]
    exact congrArg List.head? hm.symm

theorem card_wide {b m after : List Nat} (hfind : patterns.creditCard.find plain.unit b (m ++ after) = some (m, after)) :
    2 ≤ m.length := by
  rw [creditCard_find] at hfind
  obtain ⟨-, hmin, -⟩ := cardFind_some hfind
  have hm : (digitsOf plain m).length ≤ m.length := List.length_filter_le _ _
  omega

theorem card_tame : Tame patterns.creditCard (unlessJsonNumber plain (maskCard plain)) where
  solid := creditCard_solid
  quote := by decide
  backslash := by decide
  star := by decide
  inside := inside_of_boundary
  written := mem_unlessJsonNumber mem_maskCard
  wide hfind := card_wide hfind
  long {b m after} hfind := by
    have hm := card_wide hfind
    rw [creditCard_find] at hfind
    obtain ⟨-, hmin, -⟩ := cardFind_some hfind
    refine long_unlessJsonNumber (by omega) ?_
    cases hluhn : luhnCheck plain (digitsOf plain m) with
    | false =>
      simp only [maskCard, hluhn, Bool.and_false, Bool.false_eq_true, if_false]
      omega
    | true =>
      rw [maskCard_of_luhn hfind hluhn]
      simp only [List.length_append, List.length_take]
      omega
  letter hfind hc := by
    have hnot := letter_of_begins creditCard_noLetter hfind
    rw [hnot] at hc
    cases hc

theorem ssn_describes {b m after : List Nat} (h : patterns.ssn.Describes plain.unit b m after) :
    ∃ x s y s' z, m = x ++ (s ++ (y ++ (s' ++ z))) ∧ x.length = 3 ∧ y.length = 2 ∧ z.length = 4 ∧
      (∀ u ∈ x, isDigit u = true) ∧ (∀ u ∈ y, isDigit u = true) ∧ (∀ u ∈ z, isDigit u = true) ∧
      (s.length ≤ 1 ∧ ∀ u ∈ s, patterns.isDashSpace u = true) ∧ (s'.length ≤ 1 ∧ ∀ u ∈ s', patterns.isDashSpace u = true) ∧
      (m.getLast?.any isWord != after.head?.any isWord) = true := by
  simp only [patterns.ssn, Regex.describes_cons, Regex.describes_nil, boundary, Regex.describes_look,
    Regex.describes_exactly, Regex.describes_upTo] at h
  obtain ⟨_, _, rfl, ⟨rfl, -⟩, x, _, rfl, ⟨hx, hxd⟩, s, _, rfl, hs, y, _, rfl, ⟨hy, hyd⟩, s', _, rfl, hs', z, _, rfl, ⟨hz, hzd⟩,
    _, _, rfl, ⟨rfl, hend⟩, rfl⟩ := h
  refine ⟨x, s, y, s', z, by simp, hx, hy, hz, hxd, hyd, hzd, hs, hs', ?_⟩
  have hne : z ≠ [] := by
    rintro rfl
    simp at hz
  obtain ⟨z, u, rfl⟩ := List.eq_nil_or_concat z |>.resolve_left hne
  simpa using hend

theorem ssn_wide {b m after : List Nat} (hfind : patterns.ssn.find plain.unit b (m ++ after) = some (m, after)) :
    2 ≤ m.length := by
  obtain ⟨x, s, y, s', z, rfl, hx, -⟩ := ssn_describes (Regex.find_eq_some hfind).2
  rw [List.length_append]
  omega

theorem ssn_tame : Tame patterns.ssn (unlessJsonNumber plain (maskSSN plain)) where
  solid := ssn_solid
  quote := by decide
  backslash := by decide
  star := by decide
  inside := inside_of_boundary
  written := mem_unlessJsonNumber mem_maskSSN
  wide hfind := ssn_wide hfind
  long hfind := long_unlessJsonNumber (ssn_wide hfind) (by simp [maskSSN, literal])
  letter hfind hc := by
    have hnot := letter_of_begins ssn_noLetter hfind
    rw [hnot] at hc
    cases hc

theorem phone_wide {b m after : List Nat} (hfind : patterns.phone.find plain.unit b (m ++ after) = some (m, after)) :
    2 ≤ m.length := by
  obtain ⟨-, front, x, s, y, rfl, hx, -⟩ := phone_describes (Regex.find_eq_some hfind).2
  simp only [List.length_append]
  omega

theorem phone_tame : Tame patterns.phone (unlessJsonNumber plain (maskPhone plain)) where
  solid := phone_solid
  quote := by decide
  backslash := by decide
  star := by decide
  inside h hb := by
    rw [(phone_describes h).1] at hb
    cases hb
  written := mem_unlessJsonNumber mem_maskPhone
  wide hfind := phone_wide hfind
  long hfind := by
    refine long_unlessJsonNumber (phone_wide hfind) ?_
    obtain ⟨front, rest, heq⟩ := maskPhone_found (Regex.find_eq_some hfind).2
    rw [heq]
    simp [literal]
    omega
  letter hfind hc := by
    have hnot := letter_of_begins phone_noLetter hfind
    rw [hnot] at hc
    cases hc

theorem iban_tame : Tame patterns.iban fun _ m _ => maskIBAN plain m where
  solid := iban_solid
  quote := by decide
  backslash := by decide
  star := by decide
  inside := inside_of_boundary
  written _ _ _ _ := mem_maskIBAN
  wide hfind := by
    have h := (Regex.find_eq_some hfind).2
    simp only [patterns.iban, Regex.describes_cons, boundary, Regex.describes_look, Regex.describes_exactly] at h
    obtain ⟨_, _, rfl, ⟨rfl, -⟩, x, _, rfl, ⟨hx, -⟩, -⟩ := h
    simp only [List.length_append]
    omega
  long _ := by
    simp [maskIBAN, literal]
    omega
  letter hfind hc := by
    have hnot := letter_of_begins iban_noLetter hfind
    rw [hnot] at hc
    cases hc

end ClusterGate.Sanitizer
