/-
  ClusterGate.Sanitizer.Cards — which card numbers a masked text does not tell.

  The card pattern goes on lazily over spaces and hyphens: from where it begins it takes
  groups of digits up to the first at whose end it has thirteen, and the Luhn test is about
  these digits, whatever number they are of.
  - `creditCard_find`: what the pattern matches, by the groups of digits.
  - `card_hidden_iff`: a number is not told in full if a stretch that is masked hides one of
    its digits, and where nothing else is masked only then.
  - `a_longer_match_is_tested`: digits before a number shift the match.
-/

import Mathlib.Data.List.Nodup
import ClusterGate.Sanitizer.Origin

namespace ClusterGate.Sanitizer

open Lib

/-! ## The stretch the card pattern takes -/

section Scan

variable {α : Type} (W : Writing α)

/-- What follows the groups of digits that are taken, at least `min` digits and at most `max`:
    nothing is taken behind the first group that reaches `min`. -/
def cardScan : Nat → Nat → List α → Option (List α)
  | min, _, [] => if min = 0 then some [] else none
  | min, max, a :: rest =>
    if isDigit (W.unit a) then
      match max with
      | 0 => none
      | max + 1 => cardScan (min - 1) max rest
    else if isOf " -" (W.unit a) then if min = 0 then some (a :: rest) else cardScan min max rest
    else if min = 0 ∧ isWord (W.unit a) = false then some (a :: rest)
    else none

/-- The stretch and what follows it: it begins with a digit before which stands no letter,
    digit or `_`. -/
def cardFind (before rest : List α) : Option (List α × List α) :=
  if before.head?.any (fun a => isWord (W.unit a)) then none
  else if rest.head?.any (fun a => isDigit (W.unit a)) then
    (cardScan W 13 19 rest).map fun after => (rest.take (rest.length - after.length), after)
  else none

variable {W}

theorem cardScan_nil (min max : Nat) : cardScan W min max [] = if min = 0 then some [] else none := by
  cases max <;> rfl

theorem cardScan_digit {a : α} (h : isDigit (W.unit a) = true) (min max : Nat) (rest : List α) :
    cardScan W min (max + 1) (a :: rest) = cardScan W (min - 1) max rest := by
  rw [cardScan, if_pos h]

theorem cardScan_digit_zero {a : α} (h : isDigit (W.unit a) = true) (min : Nat) (rest : List α) :
    cardScan W min 0 (a :: rest) = none := by
  rw [cardScan, if_pos h]

theorem cardScan_other {a : α} (h : ¬isDigit (W.unit a) = true) (min max : Nat) (rest : List α) :
    cardScan W min max (a :: rest) =
      if isOf " -" (W.unit a) then if min = 0 then some (a :: rest) else cardScan W min max rest
      else if min = 0 ∧ isWord (W.unit a) = false then some (a :: rest)
      else none := by
  cases max <;> rw [cardScan, if_neg h]

theorem digit_facts {u : Nat} (h : isDigit u = true) : isWord u = true ∧ isOf " -" u = false := by
  refine ⟨by simp [isWord, h], ?_⟩
  simp [isDigit, isOf] at h ⊢
  omega

theorem separator_facts {u : Nat} (h : isOf " -" u = true) : isDigit u = false ∧ isWord u = false := by
  have hu : u = 32 ∨ u = 45 := by simpa [isOf] using h
  rcases hu with rfl | rfl <;> decide

/-- The test of `\b`, of places. -/
def atBoundary (W : Writing α) (e : Regex.Place α) : Bool :=
  e.1.head?.any (fun a => isWord (W.unit a)) != e.2.head?.any fun a => isWord (W.unit a)

def cardGroup : Regex Nat := .seq (.one isDigit) (.lazy (isOf " -"))

theorem lazyEnds_cons (b rest : List α) (a : α) :
    (Regex.lazy (isOf " -")).ends W.unit b (a :: rest) =
      (b, a :: rest) :: if isOf " -" (W.unit a) then (Regex.lazy (isOf " -")).ends W.unit (a :: b) rest else [] := by
  rw [Regex.ends, Regex.manyEnds]
  split
  · rw [List.reverse_append]
    rfl
  · rfl

theorem cardGroup_ends (b rest : List α) (a : α) :
    cardGroup.ends W.unit b (a :: rest) =
      if isDigit (W.unit a) then (Regex.lazy (isOf " -")).ends W.unit (a :: b) rest else [] := by
  rw [cardGroup, Regex.ends, Regex.ends]
  split <;> simp

theorem timesEnds_stop {min max : Nat} {b rest : List α} (h : rest.head?.any (fun a => isDigit (W.unit a)) = false) :
    Regex.timesEnds (cardGroup.ends W.unit) min max b rest = if min = 0 then [(b, rest)] else [] := by
  have honce : cardGroup.ends W.unit b rest = [] := by
    cases rest with
    | nil => rfl
    | cons a rest =>
      rw [cardGroup_ends, if_neg]
      simpa using h
  cases max with
  | zero => rfl
  | succ max => rw [Regex.timesEnds, honce, List.flatMap_nil, List.nil_append]

/-- From behind a digit and over the spaces and hyphens there, the first end at a boundary is
    that of the scan. -/
theorem groups_find (rest b : List α) (min max : Nat) (hword : min = 0 → b.head?.any (fun a => isWord (W.unit a)) = true) :
    ((((Regex.lazy (isOf " -")).ends W.unit b rest).flatMap fun e =>
      Regex.timesEnds (cardGroup.ends W.unit) min max e.1 e.2).find? (atBoundary W)).map Prod.snd =
    cardScan W min max rest := by
  induction rest generalizing b min max with
  | nil =>
    have hends : (Regex.lazy (isOf " -")).ends W.unit b [] = [(b, [])] := rfl
    rw [hends, List.flatMap_singleton, timesEnds_stop rfl, cardScan_nil]
    split
    next hmin => simp [atBoundary, hword hmin]
    next => rfl
  | cons a rest ih =>
    rw [lazyEnds_cons, List.flatMap_cons]
    by_cases hdigit : isDigit (W.unit a) = true
    · obtain ⟨hisword, hsep⟩ := digit_facts hdigit
      have hinside : min = 0 → atBoundary W (b, a :: rest) = false := fun hmin => by
        simp [atBoundary, hword hmin, hisword]
      rw [hsep, if_neg Bool.false_ne_true, List.flatMap_nil, List.append_nil]
      cases max with
      | zero =>
        rw [Regex.timesEnds, cardScan_digit_zero hdigit]
        split
        next hmin => simp [hinside hmin]
        next => rfl
      | succ max =>
        have hnext := ih (a :: b) (min - 1) max (fun _ => by simp [hisword])
        rw [Regex.timesEnds, cardGroup_ends, if_pos hdigit, List.find?_append, cardScan_digit hdigit]
        have hstop : (if min = 0 then [(b, a :: rest)] else []).find? (atBoundary W) = none := by
          split
          next hmin => simp [hinside hmin]
          next => rfl
        rw [hstop, Option.or_none]
        exact hnext
    · rw [cardScan_other hdigit, timesEnds_stop (by simpa using hdigit)]
      by_cases hsep : isOf " -" (W.unit a) = true
      · rw [if_pos hsep, if_pos hsep]
        by_cases hmin : min = 0
        · have hat : atBoundary W (b, a :: rest) = true := by
            simp [atBoundary, hword hmin, (separator_facts hsep).2]
          simp [hmin, hat]
        · rw [if_neg hmin, if_neg hmin, List.nil_append]
          exact ih (a :: b) min max (fun h => absurd h hmin)
      · rw [if_neg hsep, if_neg hsep, List.flatMap_nil, List.append_nil]
        by_cases hmin : min = 0
        · cases hend : isWord (W.unit a) <;> simp [hmin, atBoundary, hword hmin, hend]
        · simp [hmin]

theorem creditCard_ends (b rest : List α) :
    patterns.creditCard.ends W.unit b rest =
      if atBoundary W (b, rest) then (Regex.timesEnds (cardGroup.ends W.unit) 13 19 b rest).filter (atBoundary W) else [] := by
  have htest : (fun e : Regex.Place α => (e.1.head?.map W.unit).any isWord != (e.2.head?.map W.unit).any isWord) = atBoundary W := by
    funext e
    rw [Option.any_map, Option.any_map]
    rfl
  have hgroups : (Regex.chain [.times cardGroup 13 19, boundary]).ends W.unit b rest = _ :=
    Regex.ends_look (.times cardGroup 13 19) (fun before after => before.any isWord != after.any isWord) b rest
  rw [htest] at hgroups
  have hbegin := congrFun htest (b, rest)
  rw [patterns.creditCard, Regex.chain, Regex.ends, boundary, Regex.ends, hbegin]
  split
  · exact (List.flatMap_singleton _ _).trans hgroups
  · rfl

/-- The card pattern matches what the scan takes. -/
theorem creditCard_find (b rest : List α) : patterns.creditCard.find W.unit b rest = cardFind W b rest := by
  have hends : (patterns.creditCard.ends W.unit b rest).head?.map Prod.snd =
      if b.head?.any (fun a => isWord (W.unit a)) then none
      else if rest.head?.any (fun a => isDigit (W.unit a)) then cardScan W 13 19 rest else none := by
    rw [creditCard_ends]
    by_cases hdigit : rest.head?.any (fun a => isDigit (W.unit a)) = true
    · cases rest with
      | nil => cases hdigit
      | cons a rest =>
        have hd : isDigit (W.unit a) = true := hdigit
        have hat : atBoundary W (b, a :: rest) = !b.head?.any fun a => isWord (W.unit a) := by
          simp [atBoundary, (digit_facts hd).1]
        have hscan := groups_find (W := W) rest (a :: b) 12 18 (by simp)
        have hfirst : Regex.timesEnds (cardGroup.ends W.unit) 13 19 b (a :: rest) =
            ((Regex.lazy (isOf " -")).ends W.unit (a :: b) rest).flatMap fun e =>
              Regex.timesEnds (cardGroup.ends W.unit) 12 18 e.1 e.2 := by
          rw [Regex.timesEnds, cardGroup_ends, if_pos hd]
          exact List.append_nil _
        rw [hat, hfirst, if_pos hdigit, cardScan_digit hd]
        cases b.head?.any fun a => isWord (W.unit a) with
        | true => rfl
        | false =>
          rw [← List.head?_filter] at hscan
          exact hscan
    · rw [timesEnds_stop (by simpa using hdigit), if_neg hdigit]
      simp
  have hfind : patterns.creditCard.find W.unit b rest =
      ((patterns.creditCard.ends W.unit b rest).head?.map Prod.snd).map fun after =>
        (rest.take (rest.length - after.length), after) := by
    rw [Regex.find, Option.map_map]
    rfl
  rw [hfind, hends, cardFind]
  split
  · rfl
  · split <;> rfl

/-- What is taken has as many digits as it needs and no more than it may. -/
theorem cardScan_some {rest after : List α} {min max : Nat} (h : cardScan W min max rest = some after) :
    ∃ m, rest = m ++ after ∧ min ≤ (digitsOf W m).length ∧ (digitsOf W m).length ≤ max := by
  induction rest generalizing min max with
  | nil =>
    rw [cardScan_nil] at h
    split at h
    next hmin => exact ⟨[], (Option.some.inj h), by simp [hmin], Nat.zero_le max⟩
    next => cases h
  | cons a rest ih =>
    by_cases hdigit : isDigit (W.unit a) = true
    · cases max with
      | zero =>
        rw [cardScan_digit_zero hdigit] at h
        cases h
      | succ max =>
        rw [cardScan_digit hdigit] at h
        obtain ⟨m, hrest, hmin, hmax⟩ := ih h
        refine ⟨a :: m, by rw [hrest, List.cons_append], ?_, ?_⟩ <;> simp [digitsOf, hdigit] at hmin hmax ⊢ <;> omega
    · have hstop : min = 0 → some (a :: rest) = some after →
          ∃ m, a :: rest = m ++ after ∧ min ≤ (digitsOf W m).length ∧ (digitsOf W m).length ≤ max :=
        fun hmin heq => ⟨[], Option.some.inj heq, by simp [hmin], Nat.zero_le max⟩
      rw [cardScan_other hdigit] at h
      split at h
      · split at h
        next hmin => exact hstop hmin h
        next =>
          obtain ⟨m, hrest, hcount⟩ := ih h
          exact ⟨a :: m, by rw [hrest, List.cons_append], by simpa [digitsOf, hdigit] using hcount⟩
      · split at h
        next hmin => exact hstop hmin.1 h
        next => cases h

theorem cardFind_some {b rest m after : List α} (h : cardFind W b rest = some (m, after)) :
    rest = m ++ after ∧ 13 ≤ (digitsOf W m).length ∧ (digitsOf W m).length ≤ 19 := by
  rw [cardFind] at h
  split at h
  · cases h
  split at h
  · obtain ⟨after', hscan, hm⟩ := Option.map_eq_some_iff.1 h
    obtain ⟨x, hrest, hcount⟩ := cardScan_some hscan
    have htake : rest.take (rest.length - after'.length) = x := by simp [hrest]
    rw [htake] at hm
    obtain ⟨rfl, rfl⟩ := Prod.mk.inj hm
    exact ⟨hrest, hcount⟩
  · cases h

/-- Groups whose last one reaches the digits that are needed are taken as they stand. -/
theorem cardScan_whole {m after : List α} {min max : Nat} (hunits : ∀ a ∈ m, isDigit (W.unit a) = true ∨ isOf " -" (W.unit a) = true)
    (hmin : min ≤ (digitsOf W m).length) (hmax : (digitsOf W m).length ≤ max)
    (hshort : ∀ x y, m = x ++ y → y.head?.any (fun a => isOf " -" (W.unit a)) = true → (digitsOf W x).length < min)
    (hafter : after.head?.all (fun a => !isWord (W.unit a)) = true) : cardScan W min max (m ++ after) = some after := by
  induction m generalizing min max with
  | nil =>
    obtain rfl : min = 0 := by simpa [digitsOf] using hmin
    cases after with
    | nil => exact cardScan_nil 0 max
    | cons a after =>
      have hword : isWord (W.unit a) = false := by simpa using hafter
      have hdigit : ¬isDigit (W.unit a) = true := fun h => by simp [(digit_facts h).1] at hword
      rw [List.nil_append, cardScan_other hdigit]
      simp [hword]
  | cons a m ih =>
    have hrest : ∀ u ∈ m, isDigit (W.unit u) = true ∨ isOf " -" (W.unit u) = true := fun u hu =>
      hunits u (List.mem_cons_of_mem a hu)
    by_cases hdigit : isDigit (W.unit a) = true
    · have hlen : (digitsOf W (a :: m)).length = (digitsOf W m).length + 1 := by simp [digitsOf, hdigit]
      obtain ⟨k, rfl⟩ : ∃ k, max = k + 1 := ⟨max - 1, by omega⟩
      rw [List.cons_append, cardScan_digit hdigit]
      refine ih hrest (by omega) (by omega) fun x y hm hy => ?_
      have hx := hshort (a :: x) y (by rw [hm, List.cons_append]) hy
      have hxlen : (digitsOf W (a :: x)).length = (digitsOf W x).length + 1 := by simp [digitsOf, hdigit]
      omega
    · have hsep : isOf " -" (W.unit a) = true := (hunits a List.mem_cons_self).resolve_left hdigit
      have hpos : 0 < min := hshort [] (a :: m) rfl (by simpa using hsep)
      have hlen : digitsOf W (a :: m) = digitsOf W m := by simp [digitsOf, hdigit]
      rw [hlen] at hmin hmax
      rw [List.cons_append, cardScan_other hdigit, if_pos hsep, if_neg (by omega)]
      refine ih hrest hmin hmax fun x y hm hy => ?_
      have hx := hshort (a :: x) y (by rw [hm, List.cons_append]) hy
      have hxlen : digitsOf W (a :: x) = digitsOf W x := by simp [digitsOf, hdigit]
      rwa [hxlen] at hx

end Scan

/-! ## What the card pass hides -/

section Hidden

variable {α : Type}

/-- The card pass comes to a stretch with a Luhn number that is no bare JSON number, and the
    element is a digit of it, not among its first four nor its last four. -/
def Hidden (W : Writing α) (text : List α) (a : α) : Prop :=
  ∃ b m after, Regex.Tries (cardFind W) text b (m ++ after) ∧ cardFind W b (m ++ after) = some (m, after) ∧
    luhnCheck W (digitsOf W m) = true ∧ isBareJsonNumber W b m after = false ∧
    a ∈ ((digitsOf W m).drop 4).take ((digitsOf W m).length - 8)

variable {W : Writing α}

theorem digits_parts (ds : List α) (h : 8 ≤ ds.length) :
    ds.take 4 ++ ((ds.drop 4).take (ds.length - 8) ++ ds.drop (ds.length - 4)) = ds := by
  have hlast : ds.drop (ds.length - 4) = (ds.drop 4).drop (ds.length - 8) := by
    rw [List.drop_drop]
    congr 1
    omega
  rw [hlast, List.take_append_drop, List.take_append_drop]

theorem maskCard_of_luhn {b m after : List α} (hfind : cardFind W b (m ++ after) = some (m, after))
    (hluhn : luhnCheck W (digitsOf W m) = true) :
    maskCard W m = (digitsOf W m).take 4 ++ List.replicate ((digitsOf W m).length - 8) (W.fresh '*'.toNat) ++
      (digitsOf W m).drop ((digitsOf W m).length - 4) := by
  obtain ⟨-, hmin, hmax⟩ := cardFind_some hfind
  have hshort : ¬(digitsOf W m).length < 13 := by omega
  simp [maskCard, maskCreditCard, hluhn, hmin, hmax, hshort]

theorem creditCard_find_eq : patterns.creditCard.find W.unit = cardFind W := funext fun b => funext (creditCard_find b)

theorem hidden_of_lost {text : List α} {a : α} (ha : a ∈ text) (hdigit : isDigit (W.unit a) = true)
    (hlost : a ∉ cardPass W text) : Hidden W text a := by
  obtain ⟨b, m, after, htries, hfind, hm, hnot⟩ := Regex.lost creditCard_solid .start ha hlost
  rw [creditCard_find_eq] at htries hfind
  obtain ⟨-, hmin, hmax⟩ := cardFind_some hfind
  rw [unlessJsonNumber] at hnot
  split at hnot
  · exact absurd hm hnot
  next hbare =>
    cases hluhn : luhnCheck W (digitsOf W m) with
    | false =>
      rw [maskCard] at hnot
      simp only [hluhn, Bool.and_false, Bool.false_eq_true, if_false] at hnot
      exact absurd hm hnot
    | true =>
      refine ⟨b, m, after, htries, hfind, hluhn, by simpa using hbare, ?_⟩
      have hmem : a ∈ digitsOf W m := mem_digitsOf.2 ⟨hm, hdigit⟩
      rw [maskCard_of_luhn hfind hluhn, List.mem_append, List.mem_append, not_or, not_or] at hnot
      rw [← digits_parts (digitsOf W m) (by omega), List.mem_append, List.mem_append] at hmem
      exact (hmem.resolve_left hnot.1.1).resolve_right hnot.2

theorem lost_of_hidden [BEq α] [LawfulBEq α] {text : List α} {a : α} (hwritten : ¬Written W a) (honce : text.count a ≤ 1)
    (h : Hidden W text a) : a ∉ cardPass W text := by
  obtain ⟨b, m, after, htries, hfind, hluhn, hbare, hmem⟩ := h
  obtain ⟨-, hmin, hmax⟩ := cardFind_some hfind
  have hf : ∀ b m after, ∀ a ∈ unlessJsonNumber W (maskCard W) b m after, a ∈ m ∨ Written W a :=
    fun b m after a ha => (mem_unlessJsonNumber mem_maskCard b m after a ha).imp_right OfMask.written
  rw [← creditCard_find_eq] at htries
  obtain ⟨htext, out, hout, hbefore⟩ := htries.written creditCard_solid hf
  have hparts := congrArg (List.count a) (digits_parts (digitsOf W m) (by omega))
  have hdigits : (digitsOf W m).count a ≤ m.count a := List.filter_sublist.count_le a
  have hmid := List.count_pos_iff.2 hmem
  rw [htext] at honce
  simp only [List.count_append, List.count_reverse] at hparts honce
  have hfirst : a ∉ (digitsOf W m).take 4 := List.count_eq_zero.1 (by omega)
  have hlast : a ∉ (digitsOf W m).drop ((digitsOf W m).length - 4) := List.count_eq_zero.1 (by omega)
  have hb : a ∉ b := List.count_eq_zero.1 (by omega)
  have hafter : a ∉ after := List.count_eq_zero.1 (by omega)
  rw [← creditCard_find_eq] at hfind
  rw [cardPass, hout, Regex.replaceFrom_some creditCard_solid hfind, List.mem_append, List.mem_append]
  rintro (hmem | hmem | hmem)
  · exact (hbefore a hmem).elim hb hwritten
  · rw [creditCard_find_eq] at hfind
    rw [unlessJsonNumber, hbare, if_neg Bool.false_ne_true, maskCard_of_luhn hfind hluhn, List.mem_append,
      List.mem_append] at hmem
    rcases hmem with (hmem | hmem) | hmem
    · exact hfirst hmem
    · exact hwritten ⟨_, List.eq_of_mem_replicate hmem⟩
    · exact hlast hmem
  · exact (Regex.mem_replaceFrom creditCard_solid hf _ _ a hmem).elim hafter hwritten

end Hidden

/-! ## A number in a text -/

/-- A unit, with its place in the text if it was not written by a mask. -/
abbrev Mark := Nat × Option Nat

def marking (replaceCustom : CustomPattern → List Mark → Option (List Mark)) : Writing Mark :=
  ⟨Prod.fst, fun u => (u, none), replaceCustom⟩

/-- A text from the place `n` on. -/
def placed (n : Nat) (text : List Nat) : List Mark := (text.zipIdx n).map fun e => (e.1, some e.2)

/-- Groups of digits with one space or hyphen between two of them, or none. -/
structure Grouped (occ : List Nat) : Prop where
  units : ∀ u ∈ occ, isDigit u = true ∨ isOf " -" u = true
  single : occ.IsChain fun u v => ¬(isOf " -" u = true ∧ isOf " -" v = true)
  first : occ.head?.any isDigit = true
  last : occ.getLast?.any isDigit = true

/-- A card number, with no letter or digit at its sides. -/
structure CardNumber (pre occ post : List Nat) : Prop where
  grouped : Grouped occ
  count : 13 ≤ (digitsOf plain occ).length ∧ (digitsOf plain occ).length ≤ 19
  luhn : luhnCheck plain (digitsOf plain occ) = true
  before : pre.getLast?.all (fun u => !(isLetter u || isDigit u)) = true
  behind : post.head?.all (fun u => !(isLetter u || isDigit u)) = true

/-- The digits of the number, as those of the text. -/
def numberOf (W : Writing Mark) (pre occ : List Nat) : List Mark := digitsOf W (placed pre.length occ)

/-- All digits of the number are in the output. -/
def Told (W : Writing Mark) (configCache : Option SanitizerConfig) (pre occ post : List Nat) : Prop :=
  ∀ a ∈ numberOf W pre occ, a ∈ (sanitizeText W configCache (some (placed 0 (pre ++ occ ++ post)))).getD []

instance (W : Writing Mark) (configCache : Option SanitizerConfig) (pre occ post : List Nat) :
    Decidable (Told W configCache pre occ post) :=
  inferInstanceAs (Decidable (∀ a ∈ numberOf W pre occ, a ∈ (sanitizeText W configCache (some (placed 0 (pre ++ occ ++ post)))).getD []))

/-- The text the card pass reads. -/
def cardText (W : Writing Mark) (cfg : SanitizerConfig) (pre occ post : List Nat) : List Mark :=
  passIf cfg.maskEmails (emailPass W) (placed 0 (pre ++ occ ++ post))

/-- One of the digits is gone with an e-mail address or hidden by the card pass. -/
def HidesDigit (W : Writing Mark) (cfg : SanitizerConfig) (pre occ post : List Nat) : Prop :=
  ∃ a ∈ numberOf W pre occ, a ∉ cardText W cfg pre occ post ∨ Hidden W (cardText W cfg pre occ post) a

/-- The card pass comes to the number, with no letter, digit or `_` at its sides, no group
    before the last reaches thirteen digits, and it is no bare JSON number. -/
def ComesAlone (W : Writing Mark) (cfg : SanitizerConfig) (pre occ post : List Nat) : Prop :=
  let number := placed pre.length occ
  ∃ b after, Regex.Tries (cardFind W) (cardText W cfg pre occ post) b (number ++ after) ∧
    b.head?.all (fun a => !isWord a.1) = true ∧ after.head?.all (fun a => !isWord a.1) = true ∧
    isBareJsonNumber W b number after = false ∧
    ∀ i < number.length, (number.drop i).head?.any (fun a => isOf " -" a.1) = true → (digitsOf W (number.take i)).length < 13

def OnlyCards (cfg : SanitizerConfig) : Prop :=
  cfg.maskEmails = false ∧ cfg.maskSSNs = false ∧ cfg.maskPhoneNumbers = false ∧ cfg.maskIBANs = false ∧
    cfg.customPatterns = []

variable {replaceCustom : CustomPattern → List Mark → Option (List Mark)} {pre occ post : List Nat}

@[simp] theorem placed_units (n : Nat) (text : List Nat) : (placed n text).map Prod.fst = text := by
  rw [placed, List.map_map]
  exact List.zipIdx_map_fst n text

theorem placed_append (n : Nat) (text rest : List Nat) : placed n (text ++ rest) = placed n text ++ placed (n + text.length) rest := by
  rw [placed, List.zipIdx_append, List.map_append]
  rfl

theorem placed_not_written (replaceCustom : CustomPattern → List Mark → Option (List Mark)) {n : Nat} {text : List Nat}
    {a : Mark} (h : a ∈ placed n text) : ¬Written (marking replaceCustom) a := by
  obtain ⟨e, -, rfl⟩ := List.mem_map.1 h
  intro ⟨u, hu⟩
  cases congrArg Prod.snd hu

theorem placed_count_le (n : Nat) (text : List Nat) (a : Mark) : (placed n text).count a ≤ 1 := by
  have hplaces : ((placed n text).map Prod.snd).Nodup := by
    have hmap : (placed n text).map Prod.snd = (List.range' n text.length).map some := by
      rw [placed, List.map_map, ← List.zipIdx_map_snd, List.map_map]
      rfl
    rw [hmap]
    exact (List.nodup_range' ..).map fun _ _ => Option.some.inj
  exact List.nodup_iff_count_le_one.1 hplaces.of_map a

theorem mem_numberOf (post : List Nat) {a : Mark} (h : a ∈ numberOf (marking replaceCustom) pre occ) :
    a ∈ placed 0 (pre ++ occ ++ post) ∧ isDigit a.1 = true := by
  obtain ⟨hmem, hdigit⟩ := mem_digitsOf.1 h
  refine ⟨?_, hdigit⟩
  rw [placed_append, placed_append, Nat.zero_add]
  exact List.mem_append_left _ (List.mem_append_right _ hmem)

theorem cardText_count_le (cfg : SanitizerConfig) {a : Mark} (ha : ¬Written (marking replaceCustom) a) :
    (cardText (marking replaceCustom) cfg pre occ post).count a ≤ 1 := by
  have hplaced := placed_count_le 0 (pre ++ occ ++ post) a
  rw [cardText, passIf]
  split
  · exact (count_emailPass_le ha _).trans hplaced
  · exact hplaced

/-- Read without their places, the marked units are sanitized as the text is. -/
theorem marked_units {replacePlain : CustomPattern → List Nat → Option (List Nat)}
    (h : ∀ custom text, replacePlain custom (text.map Prod.fst) = (replaceCustom custom text).map (List.map Prod.fst))
    (configCache : Option SanitizerConfig) (text : List Nat) :
    (sanitizeText (marking replaceCustom) configCache (some (placed 0 text))).map (List.map Prod.fst) =
      sanitizeText ⟨id, id, replacePlain⟩ configCache (some text) := by
  have hreads : Reads (marking replaceCustom) ⟨id, id, replacePlain⟩ Prod.fst := ⟨fun _ => rfl, fun _ => rfl, h⟩
  rw [← sanitizeText_map hreads, Option.map_some, placed_units]

theorem sanitizeText_some (W : Writing Mark) {configCache : Option SanitizerConfig}
    (henabled : (configCache.getD DEFAULT_CONFIG).enabled = true) {text : List Mark} (hne : text ≠ []) :
    sanitizeText W configCache (some text) = some (mask W (configCache.getD DEFAULT_CONFIG) text) := by
  obtain ⟨a, text, rfl⟩ := List.exists_cons_of_ne_nil hne
  simp [sanitizeText, henabled]

/-- A number the card pass comes to by itself is hidden. -/
theorem hidden_of_alone {cfg : SanitizerConfig} (h : CardNumber pre occ post)
    (halone : ComesAlone (marking replaceCustom) cfg pre occ post) : HidesDigit (marking replaceCustom) cfg pre occ post := by
  obtain ⟨b, after, htries, hb, hafter, hbare, hshort⟩ := halone
  have hunit : (marking replaceCustom).unit = Prod.fst := rfl
  have hdigits : (numberOf (marking replaceCustom) pre occ).map Prod.fst = digitsOf plain occ := by
    have hplaced := placed_units pre.length occ
    rw [numberOf, digitsOf, digitsOf, hunit]
    conv_rhs => rw [← hplaced, List.filter_map]
    rfl
  have hlength : (numberOf (marking replaceCustom) pre occ).length = (digitsOf plain occ).length := by
    rw [← hdigits, List.length_map]
  have hluhn : luhnCheck (marking replaceCustom) (numberOf (marking replaceCustom) pre occ) = true := by
    rw [← h.luhn, ← hdigits, luhnCheck, luhnCheck, ← List.map_reverse, List.map_map]
    rfl
  have hfind : cardFind (marking replaceCustom) b (placed pre.length occ ++ after) = some (placed pre.length occ, after) := by
    have hhead : (placed pre.length occ ++ after).head?.any (fun a => isDigit a.1) = true := by
      have hfirst := h.grouped.first
      cases occ with
      | nil => cases hfirst
      | cons u occ => exact hfirst
    have hscan : cardScan (marking replaceCustom) 13 19 (placed pre.length occ ++ after) = some after := by
      refine cardScan_whole ?_ (hlength.symm ▸ h.count.1) (hlength.symm ▸ h.count.2) ?_ hafter
      · intro a ha
        refine h.grouped.units a.1 ?_
        rw [← placed_units pre.length occ]
        exact List.mem_map_of_mem ha
      · intro x y hsplit hy
        have hpos : 0 < y.length := by
          cases y with
          | nil => cases hy
          | cons a y => exact Nat.succ_pos _
        have hx := hshort x.length (by rw [hsplit, List.length_append]; omega)
        rw [hsplit, List.drop_left, List.take_left] at hx
        exact hx hy
    have hno : b.head?.any (fun a => isWord a.1) = false := by
      cases hhead : b.head? with
      | none => rfl
      | some a => simpa [hhead] using hb
    rw [cardFind]
    simp only [hunit, hno, hhead, hscan, Bool.false_eq_true, if_false, if_true, Option.map_some]
    simp
  have hcount := h.count
  have hpos : 0 < (((numberOf (marking replaceCustom) pre occ).drop 4).take ((numberOf (marking replaceCustom) pre occ).length - 8)).length := by
    rw [List.length_take, List.length_drop]
    omega
  obtain ⟨a, ha⟩ := List.exists_mem_of_length_pos hpos
  exact ⟨a, List.mem_of_mem_drop (List.mem_of_mem_take ha), .inr ⟨b, _, after, htries, hfind, hluhn, hbare, ha⟩⟩

/-- With the card numbers masked, whatever else is: a number the card pass comes to by itself
    is hidden, one of which a digit is hidden is not told in full, and where nothing but card
    numbers is masked no other is kept from being told. -/
theorem card_hidden_iff {replaceCustom : CustomPattern → List Mark → Option (List Mark)}
    (hcopies : Copies (marking replaceCustom)) {configCache : Option SanitizerConfig}
    (henabled : (configCache.getD DEFAULT_CONFIG).enabled = true)
    (hcards : (configCache.getD DEFAULT_CONFIG).maskCreditCards = true) {pre occ post : List Nat}
    (h : CardNumber pre occ post) :
    (ComesAlone (marking replaceCustom) (configCache.getD DEFAULT_CONFIG) pre occ post →
      HidesDigit (marking replaceCustom) (configCache.getD DEFAULT_CONFIG) pre occ post) ∧
    (HidesDigit (marking replaceCustom) (configCache.getD DEFAULT_CONFIG) pre occ post →
      ¬Told (marking replaceCustom) configCache pre occ post) ∧
    (OnlyCards (configCache.getD DEFAULT_CONFIG) → ¬Told (marking replaceCustom) configCache pre occ post →
      HidesDigit (marking replaceCustom) (configCache.getD DEFAULT_CONFIG) pre occ post) := by
  have hne : placed 0 (pre ++ occ ++ post) ≠ [] := by
    intro hnil
    have hunits := placed_units 0 (pre ++ occ ++ post)
    rw [hnil, List.map_nil] at hunits
    have hfirst := h.grouped.first
    have hocc : occ = [] := (List.append_eq_nil_iff.1 (List.append_eq_nil_iff.1 hunits.symm).1).2
    rw [hocc] at hfirst
    cases hfirst
  refine ⟨hidden_of_alone h, ?_, ?_⟩
  · intro hhides htold
    obtain ⟨a, ha, hgone⟩ := hhides
    obtain ⟨hmem, hdigit⟩ := mem_numberOf post ha
    have hwritten := placed_not_written replaceCustom hmem
    have hout := htold a ha
    rw [sanitizeText_some _ henabled hne, Option.getD_some] at hout
    have hcard := (mem_mask hcopies _ _ a hout).resolve_right hwritten
    rw [hcards, passIf, if_pos rfl] at hcard
    cases hgone with
    | inl hgone => exact (mem_cardPass _ a hcard).elim hgone fun hmask => hwritten hmask.written
    | inr hhidden => exact lost_of_hidden hwritten (cardText_count_le _ hwritten) hhidden hcard
  · intro honly hnot
    obtain ⟨hemails, hssns, hphones, hibans, hcustoms⟩ := honly
    rw [Told, sanitizeText_some _ henabled hne, Option.getD_some] at hnot
    simp only [mask, hemails, hcards, hssns, hphones, hibans, hcustoms, passIf, Bool.false_eq_true, if_false, if_true,
      List.foldl_nil, not_forall] at hnot
    obtain ⟨a, ha, hlost⟩ := hnot
    obtain ⟨hmem, hdigit⟩ := mem_numberOf post ha
    refine ⟨a, ha, .inr ?_⟩
    rw [cardText, hemails, passIf, if_neg Bool.false_ne_true]
    exact hidden_of_lost hmem hdigit hlost

theorem card_number_visa : CardNumber [] (literal plain "4111 1111 1111 1111") [] where
  grouped := ⟨by decide, by decide, by decide, by decide⟩
  count := by decide
  luhn := by decide
  before := rfl
  behind := rfl

theorem copies_none : Copies (marking fun _ _ => none) := by
  intro custom text out h
  cases h

theorem card_hidden_visa : ¬Told (marking fun _ _ => none) none [] (literal plain "4111 1111 1111 1111") [] := by
  have halone : ComesAlone (marking fun _ _ => none) DEFAULT_CONFIG [] (literal plain "4111 1111 1111 1111") [] := by
    refine ⟨[], [], ?_, rfl, rfl, by decide, ?_⟩
    · have htext : cardText (marking fun _ _ => none) DEFAULT_CONFIG [] (literal plain "4111 1111 1111 1111") [] =
          placed 0 (literal plain "4111 1111 1111 1111") ++ [] := by decide +kernel
      rw [htext]
      exact .start
    · decide
  have henabled : (Option.getD none DEFAULT_CONFIG).enabled = true := rfl
  have hcard := card_hidden_iff copies_none henabled rfl card_number_visa
  exact hcard.2.1 (hcard.1 halone)

/-- In `12 4111 1111 1111 1111` the first thirteen digits and those of their group are
    tested, and these are of no card. -/
theorem a_longer_match_is_tested :
    CardNumber (literal plain "12 ") (literal plain "4111 1111 1111 1111") [] ∧
    isBareJsonNumber plain (literal plain "12 ").reverse (literal plain "4111 1111 1111 1111") [] = false ∧
    Told (marking fun _ _ => none) none (literal plain "12 ") (literal plain "4111 1111 1111 1111") [] := by
  refine ⟨⟨⟨by decide, by decide, by decide, by decide⟩, by decide, by decide, by decide, rfl⟩, by decide, ?_⟩
  decide +kernel

end ClusterGate.Sanitizer
