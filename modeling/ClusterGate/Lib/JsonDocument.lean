/-
  ClusterGate.Lib.JsonDocument — what `JSON.parse` reads is a document of the grammar.

  The reader takes one token after another off a text, each with the blanks before it.
  - `value_takes`: the tokens it takes for a value are derived by the grammar.
  - `document_of_parse`: a text that is read is a document.
  - `object_of_parse`: the text of an object reaches from brace to brace, if no blanks are around it.
-/

import ClusterGate.Lib.JsonCompact
import ClusterGate.Lib.JsonLexemes

namespace ClusterGate.Lib.JsonDocument

open JsonParse (Units Value isBlank skip stringBody isNumber)
open JsonLexemes (Blank Item Lexeme Mark Name Kind Part Derives Document Exponent Numeral kinds text itemsText)

/-- The UTF-16 units of a text. -/
def charUnits (cs : List Char) : Units := cs.flatMap JsonParse.units

@[simp] theorem charUnits_nil : charUnits [] = [] := rfl
theorem charUnits_cons (c : Char) (cs : List Char) : charUnits (c :: cs) = JsonParse.units c ++ charUnits cs := rfl
theorem charUnits_append (cs ds : List Char) : charUnits (cs ++ ds) = charUnits cs ++ charUnits ds := List.flatMap_append

theorem units_small {c : Char} (h : c.toNat < 0x10000) : JsonParse.units c = [c.toNat] := if_pos h

theorem charUnits_small {cs : List Char} (h : ∀ c ∈ cs, c.toNat < 0x10000) : charUnits cs = cs.map Char.toNat := by
  induction cs with
  | nil => rfl
  | cons c cs ih =>
    rw [charUnits_cons, units_small (h c List.mem_cons_self), ih fun d hd => h d (List.mem_cons_of_mem c hd)]
    rfl

theorem text_append (ls ms : List Lexeme) : text (ls ++ ms) = text ls ++ text ms := List.flatMap_append

theorem kinds_append (ls ms : List Lexeme) : kinds (ls ++ ms) = kinds ls ++ kinds ms := List.filterMap_append

/-- Units that are a text's: no half of a pair stands alone. -/
def IsText (us : Units) : Prop := ∃ cs, us = charUnits cs

theorem IsText.chars {us : Units} (h : IsText us) : charUnits (JsonParse.chars us) = us := by
  obtain ⟨cs, rfl⟩ := h
  exact congrArg charUnits (JsonParse.chars_units cs)

theorem units_cases (c : Char) :
    JsonParse.units c = [c.toNat] ∨
      ∃ high low, JsonParse.units c = [high, low] ∧ JsonParse.isHigh high = true ∧ JsonParse.isLow low = true := by
  rw [JsonParse.units]
  split
  · exact .inl rfl
  · have hvalid : c.toNat.isValidChar := c.valid
    unfold Nat.isValidChar at hvalid
    refine .inr ⟨_, _, rfl, ?_⟩
    simp only [JsonParse.isHigh, JsonParse.isLow, Bool.and_eq_true, decide_eq_true_eq]
    omega

/-- A text may be cut before a unit that is no second half. -/
theorem IsText.cut {us vs : Units} (h : IsText (us ++ vs)) (hlow : ∀ v ∈ vs.head?, JsonParse.isLow v = false) :
    IsText us ∧ IsText vs := by
  obtain ⟨cs, hcs⟩ := h
  induction cs generalizing us with
  | nil =>
    obtain ⟨rfl, rfl⟩ := List.append_eq_nil_iff.1 hcs
    exact ⟨⟨[], rfl⟩, ⟨[], rfl⟩⟩
  | cons c cs ih =>
    rw [charUnits_cons] at hcs
    have hnext : ∀ rest, us = JsonParse.units c ++ rest → IsText us ∧ IsText vs := by
      intro rest hus
      rw [hus, List.append_assoc] at hcs
      obtain ⟨⟨cs', hrest⟩, hvs⟩ := ih (List.append_cancel_left hcs)
      exact ⟨⟨c :: cs', by rw [hus, hrest, charUnits_cons]⟩, hvs⟩
    cases us with
    | nil => exact ⟨⟨[], rfl⟩, ⟨c :: cs, by rw [charUnits_cons]; exact hcs⟩⟩
    | cons u us =>
      rcases units_cases c with hc | ⟨high, low, hc, -, hislow⟩
      · rw [hc] at hcs
        exact hnext us (by rw [hc, (List.cons.inj hcs).1]; rfl)
      · rw [hc] at hcs
        obtain ⟨rfl, hrest⟩ := List.cons.inj hcs
        cases us with
        | nil =>
          replace hrest : vs = low :: charUnits cs := hrest
          rw [hrest] at hlow
          rw [hlow low rfl] at hislow
          cases hislow
        | cons u' us => exact hnext us (by rw [hc, (List.cons.inj hrest).1]; rfl)

theorem IsText.drop {us vs : Units} (h : IsText (us ++ vs)) (hsmall : ∀ u ∈ us, JsonParse.isHigh u = false) : IsText vs := by
  induction us with
  | nil => exact h
  | cons u us ih =>
    obtain ⟨hsmall, hrest⟩ := List.forall_mem_cons.1 hsmall
    refine ih ?_ hrest
    obtain ⟨cs, hcs⟩ := h
    cases cs with
    | nil => cases hcs
    | cons c cs =>
      rw [charUnits_cons] at hcs
      rcases units_cases c with hc | ⟨high, low, hc, hhigh, -⟩
      · rw [hc] at hcs
        exact ⟨cs, (List.cons.inj hcs).2⟩
      · rw [hc] at hcs
        rw [(List.cons.inj hcs).1, hhigh] at hsmall
        cases hsmall

/-! ## What is taken off a text -/

/-- The strings among the tokens are well written. -/
def Lexed (ls : List Lexeme) : Prop := ∀ items, .str items ∈ ls → ∀ i ∈ items, i.valid = true

/-- Tokens of the kinds `ks`, with blanks, lead from one text to the other. -/
def Taken (cs : List Char) (ks : List Kind) (rest : List Char) : Prop :=
  ∃ ls, charUnits cs = text ls ++ charUnits rest ∧ Lexed ls ∧ kinds ls = ks

theorem Taken.refl (cs : List Char) : Taken cs [] cs := ⟨[], rfl, fun _ h => (List.not_mem_nil h).elim, rfl⟩

theorem Taken.trans {cs mid rest : List Char} {ks js : List Kind} (h : Taken cs ks mid) (h' : Taken mid js rest) :
    Taken cs (ks ++ js) rest := by
  obtain ⟨ls, htext, hlexed, hkinds⟩ := h
  obtain ⟨ms, htext', hlexed', hkinds'⟩ := h'
  refine ⟨ls ++ ms, ?_, ?_, ?_⟩
  · rw [htext, htext', text_append, List.append_assoc]
  · intro items hitems
    rcases List.mem_append.1 hitems with h | h
    · exact hlexed items h
    · exact hlexed' items h
  · rw [kinds_append, hkinds, hkinds']

/-- A token that is no string. -/
theorem Taken.token {cs rest : List Char} {l : Lexeme} {k : Kind} (htext : charUnits cs = l.text ++ charUnits rest)
    (hkind : l.kind? = some k) (hstring : k ≠ .string) : Taken cs [k] rest := by
  refine ⟨[l], by rw [htext, JsonLexemes.text_cons, JsonLexemes.text_nil, List.append_nil], ?_, by simp [kinds, hkind]⟩
  intro items hitems
  rw [← List.mem_singleton.1 hitems] at hkind
  exact (hstring (Option.some.inj hkind).symm).elim

theorem Taken.mark (m : Mark) {c : Char} (cs : List Char) (hc : JsonParse.units c = [m.unit]) : Taken (c :: cs) [.mark m] cs :=
  .token (l := .mark m) (by rw [charUnits_cons, hc]; rfl) rfl nofun

theorem Taken.blanks (cs : List Char) : Taken cs [] (skip cs) := by
  induction cs with
  | nil => exact .refl []
  | cons c cs ih =>
    by_cases hblank : isBlank c = true
    · obtain ⟨b, hb⟩ : ∃ b : Blank, JsonParse.units c = [b.unit] := by
        simp only [isBlank, Bool.or_eq_true, decide_eq_true_eq] at hblank
        rcases hblank with ((rfl | rfl) | rfl) | rfl
        · exact ⟨.space, rfl⟩
        · exact ⟨.tab, rfl⟩
        · exact ⟨.newline, rfl⟩
        · exact ⟨.return_, rfl⟩
      have hone : Taken (c :: cs) [] cs := by
        refine ⟨[.blank b], by rw [charUnits_cons, hb]; rfl, fun items hitems => ?_, rfl⟩
        cases List.mem_singleton.1 hitems
      rw [skip, List.dropWhile_cons_of_pos hblank]
      exact hone.trans ih
    · rw [skip, List.dropWhile_cons_of_neg hblank]
      exact .refl (c :: cs)

/-! ## Strings -/

theorem itemsText_units (us : Units) : itemsText (us.map Item.unit) = us := by
  induction us with
  | nil => rfl
  | cons u us ih => rw [List.map_cons, JsonLexemes.itemsText_cons, ih]; rfl

theorem plain_units {c : Char} (hquote : c ≠ '"') (hback : c ≠ '\\') (hcontrol : ¬c.toNat < 32) :
    ∀ u ∈ JsonParse.units c, JsonLexemes.isPlain u = true := by
  have hquote' : c.toNat ≠ '"'.toNat := fun h => hquote (Char.toNat_inj.1 h)
  have hback' : c.toNat ≠ '\\'.toNat := fun h => hback (Char.toNat_inj.1 h)
  have hplain : ∀ u, 32 ≤ u → u ≠ '"'.toNat → u ≠ '\\'.toNat → JsonLexemes.isPlain u = true := by
    intro u h h' h''
    simp only [JsonLexemes.isPlain, Bool.and_eq_true, decide_eq_true_eq, bne_iff_ne]
    exact ⟨⟨h, h'⟩, h''⟩
  have hvalues : '"'.toNat = 34 ∧ '\\'.toNat = 92 := by decide
  intro u hu
  rw [JsonParse.units] at hu
  split at hu
  · rw [List.mem_singleton.1 hu]
    exact hplain _ (by omega) hquote' hback'
  · simp only [List.mem_cons, List.not_mem_nil, or_false] at hu
    exact hplain u (by omega) (by omega) (by omega)

theorem hexDigit_isHex {c : Char} {n : Nat} (h : Text.hexDigit? c = some n) : JsonLexemes.isHex c.toNat = true := by
  have hvalues : '0'.toNat = 48 ∧ '9'.toNat = 57 ∧ 'A'.toNat = 65 ∧ 'F'.toNat = 70 ∧ 'a'.toNat = 97 ∧ 'f'.toNat = 102 := by
    decide
  simp only [JsonLexemes.isHex, JsonLexemes.isDigit, Bool.or_eq_true, Bool.and_eq_true, decide_eq_true_eq]
  unfold Text.hexDigit? at h
  split at h
  · rename_i hdigit
    have := Char.isDigit_iff_toNat.1 hdigit
    omega
  split at h
  · rename_i hlower
    have hlow : 97 ≤ c.toNat := hlower.1
    have hhigh : c.toNat ≤ 102 := hlower.2
    omega
  split at h
  · rename_i hupper
    have hlow : 65 ≤ c.toNat := hupper.1
    have hhigh : c.toNat ≤ 70 := hupper.2
    omega
  · cases h

theorem hexUnit_isHex {x y z w : Char} {u : Nat} (h : JsonParse.hexUnit x y z w = some u) :
    JsonLexemes.isHex x.toNat = true ∧ JsonLexemes.isHex y.toNat = true ∧ JsonLexemes.isHex z.toNat = true ∧
      JsonLexemes.isHex w.toNat = true := by
  unfold JsonParse.hexUnit at h
  split at h
  · rename_i hx hy hz hw
    exact ⟨hexDigit_isHex hx, hexDigit_isHex hy, hexDigit_isHex hz, hexDigit_isHex hw⟩
  · cases h

theorem letterUnit_valid {e : Char} {u : Nat} (h : JsonParse.letterUnit e = some u) : (Item.letter e.toNat).valid = true := by
  unfold JsonParse.letterUnit at h
  split at h
  · rename_i he
    rcases he with rfl | rfl | rfl <;> decide
  repeat
    split at h
    · rename_i he
      rw [he]
      decide
  cases h

theorem hex_small {c : Char} (h : JsonLexemes.isHex c.toNat = true) : JsonParse.units c = [c.toNat] := by
  have hvalues : '9'.toNat = 57 ∧ 'F'.toNat = 70 ∧ 'f'.toNat = 102 := by decide
  simp only [JsonLexemes.isHex, JsonLexemes.isDigit, Bool.or_eq_true, Bool.and_eq_true, decide_eq_true_eq] at h
  exact units_small (by omega)

theorem letter_small {e : Char} {u : Nat} (h : JsonParse.letterUnit e = some u) : JsonParse.units e = [e.toNat] := by
  unfold JsonParse.letterUnit at h
  split at h
  · rename_i he
    rcases he with rfl | rfl | rfl <;> rfl
  repeat
    split at h
    · rename_i he
      rw [he]
      rfl
  cases h

/-- `cs` is a text of items, and a quote and `rest` behind it. -/
def Spelled (cs rest : List Char) : Prop :=
  ∃ items, (∀ i ∈ items, Item.valid i = true) ∧ charUnits cs = itemsText items ++ '"'.toNat :: charUnits rest

theorem Spelled.more {front cs rest : List Char} {is : List Item} (hfront : charUnits front = itemsText is)
    (his : ∀ i ∈ is, Item.valid i = true) (h : Spelled cs rest) : Spelled (front ++ cs) rest := by
  obtain ⟨items, hitems, htext⟩ := h
  refine ⟨is ++ items, fun i hi => (List.mem_append.1 hi).elim (his i) (hitems i), ?_⟩
  rw [charUnits_append, hfront, htext, itemsText, itemsText, itemsText, List.flatMap_append, List.append_assoc]

theorem read_map (front : Units) {read : Option (Units × List Char)} {us : Units} {rest : List Char}
    (h : read.map (fun p => (front ++ p.1, p.2)) = some (us, rest)) : ∃ us', read = some (us', rest) := by
  obtain ⟨⟨us', rest'⟩, hread, heq⟩ := Option.map_eq_some_iff.1 h
  obtain ⟨-, rfl⟩ := Prod.mk.inj heq
  exact ⟨us', hread⟩

/-- A quoted text is spelled up to its last quote. -/
theorem spelled_of_stringBody {cs rest : List Char} {us : Units} (h : stringBody cs = some (us, rest)) : Spelled cs rest := by
  induction cs using JsonParse.stringBody.induct generalizing us rest with
  | case1 => cases h
  | case2 cs =>
    rw [JsonParse.stringBody_quote] at h
    obtain ⟨rfl, rfl⟩ := Prod.mk.inj (Option.some.inj h)
    exact ⟨[], fun _ hi => (List.not_mem_nil hi).elim, rfl⟩
  | case3 => cases h
  | case4 x y z w cs _ ih =>
    rw [JsonParse.stringBody.eq_def] at h
    obtain ⟨u, hu, h⟩ := Option.bind_eq_some_iff.1 h
    obtain ⟨hx, hy, hz, hw⟩ := hexUnit_isHex hu
    obtain ⟨us', hread⟩ := read_map [u] h
    have hfront : charUnits ['\\', 'u', x, y, z, w] = itemsText [.number x.toNat y.toNat z.toNat w.toNat] := by
      simp only [charUnits_cons, charUnits_nil, hex_small hx, hex_small hy, hex_small hz, hex_small hw]
      rfl
    refine (ih hread).more hfront fun i hi => ?_
    rw [List.mem_singleton.1 hi, Item.valid, hx, hy, hz, hw]
    rfl
  | case5 cs hshort =>
    rw [JsonParse.stringBody.eq_def] at h
    rcases cs with _ | ⟨x, _ | ⟨y, _ | ⟨z, _ | ⟨w, cs⟩⟩⟩⟩
    · cases h
    · cases h
    · cases h
    · cases h
    · exact (hshort _ _ _ _ _ rfl).elim
  | case6 e cs hu _ ih =>
    rw [JsonParse.stringBody.eq_def] at h
    simp only [hu] at h
    obtain ⟨u, hletter, h⟩ := Option.bind_eq_some_iff.1 h
    obtain ⟨us', hread⟩ := read_map [u] h
    have hfront : charUnits ['\\', e] = itemsText [.letter e.toNat] := by
      simp only [charUnits_cons, charUnits_nil, letter_small hletter]
      rfl
    refine (ih hread).more hfront fun i hi => ?_
    rw [List.mem_singleton.1 hi]
    exact letterUnit_valid hletter
  | case7 c cs hq hb hc =>
    rw [JsonParse.stringBody.eq_def] at h
    simp [hq, hb, hc] at h
  | case8 c cs hq hb hc ih =>
    rw [JsonParse.stringBody_plain hq hb (Nat.not_lt.1 hc)] at h
    obtain ⟨us', hread⟩ := read_map _ h
    have hfront : charUnits [c] = itemsText ((JsonParse.units c).map .unit) := by
      rw [itemsText_units, charUnits_cons, charUnits_nil, List.append_nil]
    refine (ih hread).more hfront fun i hi => ?_
    obtain ⟨u, hu, rfl⟩ := List.mem_map.1 hi
    exact plain_units hq hb hc u hu

theorem Taken.string {cs rest : List Char} {us : Units} (h : stringBody cs = some (us, rest)) :
    Taken ('"' :: cs) [.string] rest := by
  obtain ⟨items, hitems, htext⟩ := spelled_of_stringBody h
  refine ⟨[.str items], ?_, ?_, rfl⟩
  · rw [charUnits_cons, htext, JsonLexemes.text_cons, JsonLexemes.text_nil, List.append_nil, Lexeme.text, List.cons_append,
      List.append_assoc]
    rfl
  · intro items' hmem
    obtain rfl := Lexeme.str.inj (List.mem_singleton.1 hmem)
    exact hitems

/-! ## Numbers -/

theorem digit_toNat {c : Char} (h : c.isDigit = true) : JsonLexemes.isDigit c.toNat = true := by
  have hrange := Char.isDigit_iff_toNat.1 h
  simp only [JsonLexemes.isDigit, Bool.and_eq_true, decide_eq_true_eq]
  exact hrange

theorem digits_toNat {cs : List Char} (h : ∀ c ∈ cs, c.isDigit = true) : ∀ u ∈ cs.map Char.toNat, JsonLexemes.isDigit u = true := by
  intro u hu
  obtain ⟨c, hc, rfl⟩ := List.mem_map.1 hu
  exact digit_toNat (h c hc)

theorem exponent_of {e : Char} {cs : List Char} (he : e = 'e' ∨ e = 'E') (h : JsonParse.isExponent cs = true) :
    ∃ x : Exponent, x.text = (e :: cs).map Char.toNat := by
  have hletter : e.toNat = 'e'.toNat ∨ e.toNat = 'E'.toNat := he.imp (congrArg Char.toNat) (congrArg Char.toNat)
  have hwith : ∀ (sign : Option Char) (ds : List Char), (∀ c ∈ sign, c = '+' ∨ c = '-') →
      (decide (ds ≠ []) && ds.all Char.isDigit) = true →
      ∃ x : Exponent, x.text = e.toNat :: ((sign.map Char.toNat).toList ++ ds.map Char.toNat) := by
    intro sign ds hsign hds
    rw [Bool.and_eq_true, decide_eq_true_eq, List.all_eq_true] at hds
    refine ⟨⟨e.toNat, sign.map Char.toNat, ds.map Char.toNat, hletter, ?_, digits_toNat hds.2, by simpa using hds.1⟩, rfl⟩
    intro u hu
    obtain ⟨c, hc, rfl⟩ := Option.map_eq_some_iff.1 hu
    exact (hsign c hc).imp (congrArg Char.toNat) (congrArg Char.toNat)
  unfold JsonParse.isExponent at h
  split at h
  · exact hwith (some '+') _ (by simp) h
  · exact hwith (some '-') _ (by simp) h
  · exact hwith none _ (by simp) h

theorem power_of {e : Char} {cs : List Char} (h : ((decide (e = 'e') || decide (e = 'E')) && JsonParse.isExponent cs) = true) :
    ∃ x : Exponent, x.text = (e :: cs).map Char.toNat := by
  rw [Bool.and_eq_true, Bool.or_eq_true, decide_eq_true_eq, decide_eq_true_eq] at h
  exact exponent_of h.1 h.2

/-- What follows the digits of a number: a fraction and an exponent, or neither. -/
def Ending (cs : List Char) (digits : List Nat) (exponent : Option Exponent) : Prop :=
  (∀ u ∈ digits, JsonLexemes.isDigit u = true) ∧
    cs.map Char.toNat = (if digits = [] then [] else '.'.toNat :: digits) ++ (exponent.map Exponent.text).getD []

theorem ending_of {cs : List Char} (h : JsonParse.isFraction cs = true) : ∃ digits exponent, Ending cs digits exponent := by
  unfold JsonParse.isFraction at h
  split at h
  · exact ⟨[], none, by simp, rfl⟩
  · rename_i cs
    rw [Bool.and_eq_true, decide_eq_true_eq] at h
    have hdigits := digits_toNat fun c hc => List.mem_takeWhile_imp (p := Char.isDigit) (l := cs) hc
    have hsome : (cs.takeWhile Char.isDigit).map Char.toNat ≠ [] := by simpa using h.1
    have hsplit : cs.map Char.toNat =
        (cs.takeWhile Char.isDigit).map Char.toNat ++ (cs.dropWhile Char.isDigit).map Char.toNat := by
      rw [← List.map_append, List.takeWhile_append_dropWhile]
    have hrest := h.2
    split at hrest
    · rename_i hnil
      rw [hnil] at hsplit
      exact ⟨_, none, hdigits, by rw [if_neg hsome, List.map_cons, hsplit]; rfl⟩
    · rename_i e cs' hcons
      obtain ⟨x, hx⟩ := power_of hrest
      rw [hcons, ← hx] at hsplit
      exact ⟨_, some x, hdigits, by rw [if_neg hsome, List.map_cons, hsplit]; rfl⟩
  · obtain ⟨x, hx⟩ := power_of h
    exact ⟨[], some x, by simp, by rw [← hx]; rfl⟩

theorem magnitude_of {cs : List Char} (h : JsonParse.isMagnitude cs = true) (negative : Bool) :
    ∃ n : Numeral, n.text = (if negative then ['-'.toNat] else []) ++ cs.map Char.toNat := by
  have hdigits := digits_toNat fun c hc => List.mem_takeWhile_imp (p := Char.isDigit) (l := cs) hc
  have hsplit : cs.map Char.toNat =
      (cs.takeWhile Char.isDigit).map Char.toNat ++ (cs.dropWhile Char.isDigit).map Char.toNat := by
    rw [← List.map_append, List.takeWhile_append_dropWhile]
  have hwith : cs.takeWhile Char.isDigit ≠ [] → JsonParse.isFraction (cs.dropWhile Char.isDigit) = true →
      (((cs.takeWhile Char.isDigit).map Char.toNat).head? = some '0'.toNat →
        (cs.takeWhile Char.isDigit).map Char.toNat = ['0'.toNat]) →
      ∃ n : Numeral, n.text = (if negative then ['-'.toNat] else []) ++ cs.map Char.toNat := by
    intro hne hfraction hzero
    obtain ⟨fraction, exponent, hfraction, hending⟩ := ending_of hfraction
    refine ⟨⟨negative, _, fraction, exponent, hdigits, by simpa using hne, hzero, hfraction⟩, ?_⟩
    rw [hsplit, hending]
    rfl
  unfold JsonParse.isMagnitude at h
  split at h
  · cases h
  · rename_i ds hzero
    rw [Bool.and_eq_true, decide_eq_true_eq] at h
    exact hwith (by rw [hzero]; simp) h.2 fun _ => by rw [hzero, h.1]; rfl
  · rename_i hnil hnot
    refine hwith hnil h fun hhead => ?_
    cases hds : cs.takeWhile Char.isDigit with
    | nil => exact (hnil hds).elim
    | cons d ds =>
      rw [hds] at hhead
      exact (hnot ds (by rw [hds, Char.toNat_inj.1 (Option.some.inj hhead)])).elim

theorem numeral_of {token : List Char} (h : isNumber token = true) : ∃ n : Numeral, n.text = token.map Char.toNat := by
  unfold isNumber at h
  rw [Bool.and_eq_true] at h
  have hmagnitude := h.2
  split at hmagnitude
  · exact magnitude_of hmagnitude true
  · exact magnitude_of hmagnitude false

theorem Taken.scalar {cs rest : List Char} {v : Value} (h : JsonParse.scalar cs = some (v, rest)) : Taken cs [.scalar] rest := by
  have hsplit : ∀ token, cs.takeWhile JsonParse.isTokenChar = token →
      charUnits cs = charUnits token ++ charUnits (cs.dropWhile JsonParse.isTokenChar) := by
    intro token htoken
    rw [← htoken, ← charUnits_append, List.takeWhile_append_dropWhile]
  unfold JsonParse.scalar at h
  dsimp only at h
  split at h
  · rename_i htoken
    obtain ⟨-, rfl⟩ := Prod.mk.inj (Option.some.inj h)
    exact .token (l := .name .null) (hsplit _ htoken) rfl nofun
  split at h
  · rename_i htoken
    obtain ⟨-, rfl⟩ := Prod.mk.inj (Option.some.inj h)
    exact .token (l := .name .true_) (hsplit _ htoken) rfl nofun
  split at h
  · rename_i htoken
    obtain ⟨-, rfl⟩ := Prod.mk.inj (Option.some.inj h)
    exact .token (l := .name .false_) (hsplit _ htoken) rfl nofun
  split at h
  · rename_i htoken
    obtain ⟨-, rfl⟩ := Prod.mk.inj (Option.some.inj h)
    obtain ⟨n, hn⟩ := numeral_of htoken
    have hsmall := charUnits_small fun c hc => by
      have hrange := JsonParse.tokenChar_range (JsonParse.isNumber_token htoken c hc)
      show c.toNat < 0x10000
      omega
    exact .token (l := .num n) (by rw [hsplit _ rfl, hsmall, ← hn]; rfl) rfl nofun
  · cases h

/-! ## Lists and members -/

/-- What a reader takes are tokens that meet `P`. -/
def Takes {α : Type} (P : List Kind → Prop) (item : List Char → Option (α × List Char)) : Prop :=
  ∀ cs a rest, item cs = some (a, rest) → ∃ ks, P ks ∧ Taken cs ks rest

section Lists

variable {α : Type} {close : Char} {item : List Char → Option (α × List Char)} {P : List Kind → Prop} {part : Part} {m : Mark}

theorem items_takes (hclose : JsonParse.units close = [m.unit]) (hitem : Takes P item)
    (last : ∀ ks, P ks → Derives part ks)
    (more : ∀ ks js, P ks → Derives part js → Derives part (ks ++ .mark .comma :: js)) (n : Nat) :
    Takes (fun ks => ∃ js, ks = js ++ [.mark m] ∧ ∀ is, P is → Derives part (is ++ js)) (JsonParse.items close item n) := by
  induction n with
  | zero => intro cs as rest h; cases h
  | succ n ih =>
    intro cs as rest h
    have hblanks := Taken.blanks cs
    rw [JsonParse.items] at h
    cases hs : skip cs with
    | nil => rw [hs] at h; cases h
    | cons c cs' =>
      rw [hs] at h hblanks
      dsimp only at h
      split at h
      · rename_i hc
        obtain ⟨-, rfl⟩ := Prod.mk.inj (Option.some.inj h)
        exact ⟨[.mark m], ⟨[], rfl, fun is his => (List.append_nil is).symm ▸ last is his⟩,
          hblanks.trans (.mark m cs' (hc ▸ hclose))⟩
      split at h
      · rename_i hc
        obtain ⟨⟨a, r⟩, ha, h⟩ := Option.bind_eq_some_iff.1 h
        obtain ⟨⟨as', r'⟩, has, h⟩ := Option.map_eq_some_iff.1 h
        obtain ⟨-, rfl⟩ := Prod.mk.inj h
        obtain ⟨ks, hks, htaken⟩ := hitem _ _ _ ha
        obtain ⟨_, ⟨js, rfl, hjs⟩, htaken'⟩ := ih _ _ _ has
        refine ⟨.mark .comma :: (ks ++ (js ++ [.mark m])), ⟨.mark .comma :: (ks ++ js), by simp, fun is his => ?_⟩, ?_⟩
        · exact more is (ks ++ js) his (hjs ks hks)
        · exact hblanks.trans ((Taken.mark .comma cs' (hc ▸ rfl)).trans (htaken.trans htaken'))
      · cases h

theorem listOf_takes (hclose : JsonParse.units close = [m.unit]) (hitem : Takes P item)
    (last : ∀ ks, P ks → Derives part ks)
    (more : ∀ ks js, P ks → Derives part js → Derives part (ks ++ .mark .comma :: js)) (n : Nat) :
    Takes (fun ks => ∃ js, ks = js ++ [.mark m] ∧ (js = [] ∨ Derives part js)) (JsonParse.listOf close item n) := by
  intro cs as rest h
  have hblanks := Taken.blanks cs
  rw [JsonParse.listOf] at h
  cases hs : skip cs with
  | nil => rw [hs] at h; cases h
  | cons c cs' =>
    rw [hs] at h hblanks
    dsimp only at h
    split at h
    · rename_i hc
      obtain ⟨-, rfl⟩ := Prod.mk.inj (Option.some.inj h)
      exact ⟨[.mark m], ⟨[], rfl, .inl rfl⟩, hblanks.trans (.mark m cs' (hc ▸ hclose))⟩
    · obtain ⟨⟨a, r⟩, ha, h⟩ := Option.bind_eq_some_iff.1 h
      obtain ⟨⟨as', r'⟩, has, h⟩ := Option.map_eq_some_iff.1 h
      obtain ⟨-, rfl⟩ := Prod.mk.inj h
      obtain ⟨ks, hks, htaken⟩ := hitem _ _ _ ha
      obtain ⟨_, ⟨js, rfl, hjs⟩, htaken'⟩ := items_takes hclose hitem last more n _ _ _ has
      exact ⟨ks ++ (js ++ [.mark m]), ⟨ks ++ js, (List.append_assoc ..).symm, .inr (hjs ks hks)⟩,
        hblanks.trans (htaken.trans htaken')⟩

end Lists

/-- The tokens of a key, a colon and a value. -/
def IsMember (ks : List Kind) : Prop := ∃ js, Derives .value js ∧ ks = .string :: .mark .colon :: js

theorem member_takes {item : List Char → Option (Value × List Char)} (hitem : Takes (Derives .value) item) :
    Takes IsMember (JsonParse.member item) := by
  intro cs kv rest h
  have hblanks := Taken.blanks cs
  rw [JsonParse.member] at h
  cases hs : skip cs with
  | nil => rw [hs] at h; cases h
  | cons c cs' =>
    rw [hs] at h hblanks
    dsimp only at h
    split at h
    · cases h
    rename_i hquote
    obtain rfl : c = '"' := not_not.1 hquote
    obtain ⟨⟨k, r⟩, hk, h⟩ := Option.bind_eq_some_iff.1 h
    have hblanks' := Taken.blanks r
    dsimp only at h
    cases hs' : skip r with
    | nil => rw [hs'] at h; cases h
    | cons c' cs'' =>
      rw [hs'] at h hblanks'
      dsimp only at h
      split at h
      · cases h
      rename_i hcolon
      obtain rfl : c' = ':' := not_not.1 hcolon
      obtain ⟨⟨v, r'⟩, hv, h⟩ := Option.map_eq_some_iff.1 h
      obtain ⟨-, rfl⟩ := Prod.mk.inj h
      obtain ⟨ks, hks, htaken⟩ := hitem _ _ _ hv
      exact ⟨.string :: .mark .colon :: ks, ⟨ks, hks, rfl⟩,
        hblanks.trans ((Taken.string hk).trans (hblanks'.trans ((Taken.mark .colon cs'' rfl).trans htaken)))⟩

/-! ## Values -/

theorem array_of {js : List Kind} (h : js = [] ∨ Derives .elements js) :
    Derives .value (.mark .openArray :: (js ++ [.mark .closeArray])) := by
  rcases h with rfl | h
  · exact .emptyArray
  · exact .array h

theorem object_of {js : List Kind} (h : js = [] ∨ Derives .members js) :
    Derives .value (.mark .openObject :: (js ++ [.mark .closeObject])) := by
  rcases h with rfl | h
  · exact .emptyObject
  · exact .object h

/-- The tokens of a value; those of an object begin with its brace and end with it. -/
def IsValue (v : Value) (ks : List Kind) : Prop :=
  Derives .value ks ∧ ∀ kvs, v = .obj kvs → ∃ js, ks = .mark .openObject :: (js ++ [.mark .closeObject])

theorem scalar_not_object {cs rest : List Char} {v : Value} (h : JsonParse.scalar cs = some (v, rest)) :
    ∀ kvs, v ≠ .obj kvs := by
  unfold JsonParse.scalar at h
  dsimp only at h
  intro kvs heq
  split_ifs at h <;> cases h <;> cases heq

/-- What the reader takes for a value is derived by the grammar. -/
theorem value_takes (n : Nat) {cs rest : List Char} {v : Value} (h : JsonParse.value n cs = some (v, rest)) :
    ∃ ks, IsValue v ks ∧ Taken cs ks rest := by
  induction n generalizing cs rest v with
  | zero => cases h
  | succ n ih =>
    have hitem : Takes (Derives .value) (JsonParse.value n) := by
      intro cs' v' rest' h'
      obtain ⟨ks, hvalue, htaken⟩ := ih h'
      exact ⟨ks, hvalue.1, htaken⟩
    have hblanks := Taken.blanks cs
    rw [JsonParse.value] at h
    cases hs : skip cs with
    | nil => rw [hs] at h; cases h
    | cons c cs' =>
      rw [hs] at h hblanks
      dsimp only at h
      split at h
      · rename_i hc
        obtain ⟨⟨us, r⟩, hus, h⟩ := Option.map_eq_some_iff.1 h
        obtain ⟨rfl, rfl⟩ := Prod.mk.inj h
        have hvalue : IsValue (.str us) [.string] := ⟨.string, fun kvs heq => by cases heq⟩
        exact ⟨[.string], hvalue, hblanks.trans (hc ▸ Taken.string hus)⟩
      split at h
      · rename_i hc
        obtain ⟨⟨vs, r⟩, hvs, h⟩ := Option.map_eq_some_iff.1 h
        obtain ⟨rfl, rfl⟩ := Prod.mk.inj h
        obtain ⟨_, ⟨js, rfl, hjs⟩, htaken⟩ :=
          listOf_takes (m := .closeArray) rfl hitem (fun _ => .lastElement) (fun _ _ => .element) n _ _ _ hvs
        exact ⟨_, ⟨array_of hjs, fun kvs heq => by cases heq⟩, hblanks.trans ((Taken.mark .openArray cs' (hc ▸ rfl)).trans htaken)⟩
      split at h
      · rename_i hc
        obtain ⟨⟨kvs, r⟩, hkvs, h⟩ := Option.map_eq_some_iff.1 h
        obtain ⟨rfl, rfl⟩ := Prod.mk.inj h
        have hlast : ∀ ks, IsMember ks → Derives .members ks := by
          intro ks hks
          obtain ⟨js, hjs, rfl⟩ := hks
          exact .lastMember hjs
        have hmore : ∀ ks js, IsMember ks → Derives .members js → Derives .members (ks ++ .mark .comma :: js) := by
          intro ks js hks hjs
          obtain ⟨is, his, rfl⟩ := hks
          exact .member his hjs
        obtain ⟨_, ⟨js, rfl, hjs⟩, htaken⟩ :=
          listOf_takes (m := .closeObject) rfl (member_takes hitem) hlast hmore n _ _ _ hkvs
        exact ⟨_, ⟨object_of hjs, fun _ _ => ⟨js, rfl⟩⟩,
          hblanks.trans ((Taken.mark .openObject cs' (hc ▸ rfl)).trans htaken)⟩
      · exact ⟨[.scalar], ⟨.scalar, fun kvs heq => (scalar_not_object h kvs heq).elim⟩, hblanks.trans (Taken.scalar h)⟩

/-- A string is not longer than its text. -/
theorem length_of_stringBody {cs rest : List Char} {us : Units} (h : stringBody cs = some (us, rest)) :
    us.length < (charUnits cs).length := by
  have hquoted : ∀ {rest cs : List Char} {us : Units}, JsonParse.Quoted rest cs us → us.length < (charUnits cs).length := by
    intro rest cs us h
    induction h with
    | close => simp [charUnits_cons, units_small]
    | @piece front cs us us' hp _ ih =>
      rw [charUnits_append, List.length_append, List.length_append]
      have hfront : us.length ≤ (charUnits front).length := by
        cases hp with
        | hex => simp [charUnits_cons, units_small]
        | letter => simp [charUnits_cons, units_small]
        | plain c => simp [charUnits_cons]
      omega
  exact hquoted (JsonParse.quoted_of_stringBody h)

theorem length_charUnits_chars {us : Units} (hus : ∀ u ∈ us, u < 0x10000) : (charUnits (JsonParse.chars us)).length ≤ us.length := by
  have hone : ∀ u, u < 0x10000 → (JsonParse.units (JsonParse.unitChar u)).length = 1 := by
    intro u hu
    rw [units_small (JsonParse.unitChar_toNat hu)]
    rfl
  induction us using JsonParse.chars.induct with
  | case1 => simp [JsonParse.chars]
  | case2 u =>
    rw [JsonParse.chars, charUnits_cons, charUnits_nil, List.append_nil, hone u (hus u List.mem_cons_self)]
    rfl
  | case3 h l us hpair ih =>
    have hrest := ih fun u hu => hus u (List.mem_cons_of_mem h (List.mem_cons_of_mem l hu))
    have hboth := (Bool.and_eq_true _ _).mp hpair
    rw [JsonParse.chars, if_pos hpair, charUnits_cons, List.length_append, JsonParse.units_pair hboth.1 hboth.2]
    simp only [List.length_cons, List.length_nil]
    omega
  | case4 h l us hpair ih =>
    have hrest := ih fun u hu => hus u (List.mem_cons_of_mem h hu)
    rw [JsonParse.chars, if_neg hpair, charUnits_cons, List.length_append, hone h (hus h List.mem_cons_self)]
    simp only [List.length_cons] at hrest ⊢
    omega

theorem parse_quote {cs : List Char} {v : Value} (h : JsonParse.parse ('"' :: cs) = some v) :
    ∃ us rest, stringBody cs = some (us, rest) ∧ v = .str us := by
  obtain ⟨⟨v', rest⟩, hv, h⟩ := Option.bind_eq_some_iff.1 h
  have hskip : skip ('"' :: cs) = '"' :: cs := JsonParse.skip_of_head rfl
  rw [JsonParse.value, hskip] at hv
  dsimp only at hv
  rw [if_pos rfl] at hv
  obtain ⟨⟨us, rest'⟩, hus, heq⟩ := Option.map_eq_some_iff.1 hv
  obtain ⟨rfl, rfl⟩ := Prod.mk.inj heq
  dsimp only at h
  split at h
  · exact ⟨us, rest', hus, (Option.some.inj h).symm⟩
  · cases h

/-- A text that is read is a document. -/
theorem document_of_parse {cs : List Char} {v : Value} (h : JsonParse.parse cs = some v) :
    ∃ ls, charUnits cs = text ls ∧ Document ls ∧ IsValue v (kinds ls) := by
  obtain ⟨⟨v', rest⟩, hv, h⟩ := Option.bind_eq_some_iff.1 h
  dsimp only at h
  split at h
  · rename_i hskip
    obtain rfl := Option.some.inj h
    obtain ⟨ks, hvalue, htaken⟩ := value_takes _ hv
    have hend := Taken.blanks rest
    rw [hskip] at hend
    obtain ⟨ls, htext, hlexed, hkinds⟩ := htaken.trans hend
    rw [List.append_nil] at hkinds
    rw [charUnits_nil, List.append_nil] at htext
    exact ⟨ls, htext, ⟨hlexed, hkinds ▸ hvalue.1⟩, hkinds ▸ hvalue⟩
  · cases h

theorem lexeme_of_mark {l : Lexeme} {m : Mark} (h : l.kind? = some (.mark m)) : l = .mark m := by
  cases l with
  | mark m' => rw [Kind.mark.inj (Option.some.inj h)]
  | blank | name | num | str => cases h

/-- The text of an object with no blanks around it reaches from brace to brace. -/
theorem object_of_parse {cs : List Char} {kvs : List (Units × Value)} (h : JsonParse.parse cs = some (.obj kvs))
    (hfirst : ∀ b : Blank, (charUnits cs).head? ≠ some b.unit) (hlast : ∀ b : Blank, (charUnits cs).getLast? ≠ some b.unit) :
    ∃ ls, charUnits cs = text ls ∧ Document ls ∧ ls.head? = some (.mark .openObject) ∧
      ls.getLast? = some (.mark .closeObject) := by
  obtain ⟨ls, htext, hdoc, -, hobject⟩ := document_of_parse h
  obtain ⟨js, hkinds⟩ := hobject kvs rfl
  rw [htext] at hfirst hlast
  refine ⟨ls, htext, hdoc, ?_, ?_⟩
  · cases ls with
    | nil => cases hkinds
    | cons l ls =>
      cases hkind : l.kind? with
      | none =>
        cases l with
        | blank b => exact (hfirst b rfl).elim
        | mark | name | num | str => cases hkind
      | some k =>
        rw [JsonLexemes.kinds_token hkind] at hkinds
        rw [(List.cons.inj hkinds).1] at hkind
        exact congrArg some (lexeme_of_mark hkind)
  · obtain rfl | ⟨front, l, rfl⟩ := List.eq_nil_or_concat' ls
    · cases hkinds
    · rw [List.getLast?_concat]
      cases hkind : l.kind? with
      | none =>
        cases l with
        | blank b => exact (hlast b (by rw [text_append]; simp [Lexeme.text])).elim
        | mark | name | num | str => cases hkind
      | some k =>
        have hone : kinds [l] = [k] := JsonLexemes.kinds_token hkind []
        rw [kinds_append, hone, ← List.cons_append] at hkinds
        have hk := List.append_inj_right' hkinds rfl
        rw [(List.cons.inj hk).1] at hkind
        exact congrArg some (lexeme_of_mark hkind)

end ClusterGate.Lib.JsonDocument
