/-
  ClusterGate.Lib.FormUrlencoded — the `application/x-www-form-urlencoded` format of the URL
  standard: names and values as a text (`URLSearchParams.toString`), and a text read back.

  What bytes mean as text is an argument of the reader.
  - `read_serialize`: pairs are read back as they were written.
  - `bytes_decoded`: what `decodeURIComponent` decodes, pluses as blanks, has the same bytes.
  - `serialize_kept`: no character of what is written means anything to a URL's parser, or is
    changed by it.
-/

import ClusterGate.Lib.Percent
import ClusterGate.Lib.UrlReparse
import ClusterGate.Lib.Utf8

namespace ClusterGate.Lib.FormUrlencoded

open Url

abbrev Pair := List Char × List Char

/-! ## Writing -/

/-- Letters, digits and four marks stay. -/
def inFormSet (c : Char) : Bool := !(c.isAlphanum || c = '*' || c = '-' || c = '.' || c = '_')

def formChar (c : Char) : List Char := if c = ' ' then ['+'] else percentEncodeChar inFormSet c

def formText (cs : List Char) : List Char := cs.flatMap formChar

def formPair (p : Pair) : List Char := formText p.1 ++ '=' :: formText p.2

def serialize (pairs : List Pair) : List Char := ['&'].intercalate (pairs.map formPair)

/-! ## Reading -/

def hexByte (a b : Char) : Option UInt8 :=
  match Text.hexDigit? a, Text.hexDigit? b with
  | some h, some l => some (UInt8.ofNat (16 * h + l))
  | _, _ => none

/-- The byte of the two digits a text begins with. -/
def escaped : List Char → Option UInt8
  | a :: b :: _ => hexByte a b
  | _ => none

/-- The bytes of a text behind its first characters, its pluses as blanks and its escapes
    resolved. -/
def bytesFrom : (skipped : Nat) → List Char → List UInt8
  | _, [] => []
  | n + 1, _ :: cs => bytesFrom n cs
  | 0, c :: cs =>
    if c = '%' then
      match escaped cs with
      | some v => v :: bytesFrom 2 cs
      | none => 0x25 :: bytesFrom 0 cs
    else if c = '+' then 0x20 :: bytesFrom 0 cs
    else String.utf8EncodeChar c ++ bytesFrom 0 cs

def bytes (cs : List Char) : List UInt8 := bytesFrom 0 cs

section Reading

variable (decode : List UInt8 → List Char)

/-- A name up to the first equals sign, and the value behind it. -/
def readPair (part : List Char) : Pair :=
  (decode (bytes (part.takeWhile (· ≠ '='))), decode (bytes ((part.dropWhile (· ≠ '=')).drop 1)))

def read (cs : List Char) : List Pair := ((cs.splitOn '&').filter (· ≠ [])).map (readPair decode)

end Reading

example : read (fun bs => bs.map fun b => Char.ofNat b.toNat) "a=1&b=x+y%26&&c".toList =
    [("a".toList, "1".toList), ("b".toList, "x y&".toList), ("c".toList, [])] := by decide

/-! ## What is written is read back -/

theorem hexByte_hexUpper (b : UInt8) : hexByte (hexUpper (b.toNat / 16)) (hexUpper (b.toNat % 16)) = some b := by
  have hb := b.toNat_lt
  have hdigit : ∀ n < 16, Text.hexDigit? (hexUpper n) = some n := by decide
  unfold hexByte
  rw [hdigit _ (by omega), hdigit _ (by omega)]
  dsimp only
  rw [Nat.div_add_mod, UInt8.ofNat_toNat]

theorem bytes_escape (b : UInt8) (rest : List Char) :
    bytes ('%' :: hexUpper (b.toNat / 16) :: hexUpper (b.toNat % 16) :: rest) = b :: bytes rest := by
  unfold bytes
  rw [bytesFrom, if_pos rfl, escaped, hexByte_hexUpper]
  rfl

/-- Escaped bytes are the bytes again. -/
theorem bytes_escapes (bs : List UInt8) (rest : List Char) :
    bytes ((bs.flatMap fun b => ['%', hexUpper (b.toNat / 16), hexUpper (b.toNat % 16)]) ++ rest) = bs ++ bytes rest := by
  induction bs with
  | nil => rfl
  | cons b bs ih =>
    rw [List.flatMap_cons, List.append_assoc]
    exact (bytes_escape b _).trans (congrArg (b :: ·) ih)

theorem kept_plain {c : Char} (h : inFormSet c = false) : c ≠ '%' ∧ c ≠ '+' := by
  constructor
  · rintro rfl
    exact absurd h (by decide)
  · rintro rfl
    exact absurd h (by decide)

theorem bytes_other {c : Char} (hc : c ≠ '%') (cs : List Char) :
    bytes (c :: cs) = String.utf8EncodeChar (if c = '+' then ' ' else c) ++ bytes cs := by
  unfold bytes
  rw [bytesFrom, if_neg hc]
  by_cases hplus : c = '+'
  · rw [if_pos hplus, if_pos hplus]
    rfl
  · rw [if_neg hplus, if_neg hplus]

theorem bytes_formChar (c : Char) (rest : List Char) : bytes (formChar c ++ rest) = String.utf8EncodeChar c ++ bytes rest := by
  unfold formChar
  by_cases hblank : c = ' '
  · subst hblank
    rfl
  · rw [if_neg hblank]
    unfold percentEncodeChar
    cases hset : inFormSet c with
    | true => exact bytes_escapes _ rest
    | false =>
      obtain ⟨hpercent, hplus⟩ := kept_plain hset
      rw [if_neg Bool.false_ne_true, List.singleton_append, bytes_other hpercent, if_neg hplus]

theorem bytes_formText (cs : List Char) : bytes (formText cs) = cs.flatMap String.utf8EncodeChar := by
  induction cs with
  | nil => rfl
  | cons c cs ih =>
    unfold formText at ih ⊢
    rw [List.flatMap_cons, bytes_formChar, ih, List.flatMap_cons]

/-! ## What `decodeURIComponent` reads -/

open Percent (Token tokens utf8)

def plusToSpace (cs : List Char) : List Char := cs.map fun c => if c = '+' then ' ' else c

def tokenBytes : Token → List UInt8
  | .char c => String.utf8EncodeChar c
  | .byte b => [UInt8.ofNat b]

theorem hexDigit_not_plus {c : Char} {x : Nat} (h : Text.hexDigit? (if c = '+' then ' ' else c) = some x) :
    Text.hexDigit? c = some x := by
  by_cases hc : c = '+'
  · have hblank : Text.hexDigit? ' ' = none := by decide
    rw [if_pos hc, hblank] at h
    cases h
  · rwa [if_neg hc] at h

theorem bytes_percent {a b : Char} {x y : Nat} (ha : Text.hexDigit? a = some x) (hb : Text.hexDigit? b = some y) (cs : List Char) :
    bytes ('%' :: a :: b :: cs) = UInt8.ofNat (16 * x + y) :: bytes cs := by
  have hescaped : escaped (a :: b :: cs) = some (UInt8.ofNat (16 * x + y)) := by
    rw [escaped, hexByte, ha, hb]
  unfold bytes
  rw [bytesFrom, if_pos rfl, hescaped]
  rfl

theorem tokens_other {c : Char} (hc : c ≠ '%') (cs : List Char) :
    tokens none (plusToSpace (c :: cs)) = (tokens none (plusToSpace cs)).map (.char (if c = '+' then ' ' else c) :: ·) := by
  have hblank : (if c = '+' then ' ' else c) ≠ '%' := by
    split
    · decide
    · exact hc
  show tokens none ((if c = '+' then ' ' else c) :: plusToSpace cs) = _
  rw [tokens, if_neg hblank]

/-- The bytes of a text are those of its escapes and other characters. -/
theorem bytes_tokens (cs : List Char) {ts : List Token} (h : tokens none (plusToSpace cs) = some ts) :
    bytes cs = ts.flatMap tokenBytes := by
  obtain ⟨n, hn⟩ : ∃ n, cs.length = n := ⟨_, rfl⟩
  induction n using Nat.strong_induction_on generalizing cs ts with
  | _ n ih =>
    subst hn
    match cs with
    | [] =>
      obtain rfl := Option.some.inj h
      rfl
    | c :: cs =>
      by_cases hc : c = '%'
      · subst hc
        -- an escape: two digits, which are no pluses
        match cs with
        | [] => cases h
        | [a] =>
          obtain ⟨x, -, h⟩ := Option.bind_eq_some_iff.1 h
          cases h
        | a :: b :: cs =>
          obtain ⟨x, hx, h⟩ := Option.bind_eq_some_iff.1 h
          obtain ⟨y, hy, h⟩ := Option.bind_eq_some_iff.1 h
          obtain ⟨us, hus, rfl⟩ := Option.map_eq_some_iff.1 h
          have hbytes := ih _ (by simp only [List.length_cons]; omega) cs hus rfl
          rw [bytes_percent (hexDigit_not_plus hx) (hexDigit_not_plus hy), hbytes]
          rfl
      · rw [tokens_other hc] at h
        obtain ⟨us, hus, rfl⟩ := Option.map_eq_some_iff.1 h
        rw [bytes_other hc, ih _ (by simp only [List.length_cons]; omega) cs hus rfl]
        rfl

theorem byte_toNat {b : Nat} (h : b < 256) : (UInt8.ofNat b).toNat = b := by simp [Nat.mod_eq_of_lt h]

theorem scalar_char {n : Nat} (h : Percent.isScalar n = true) : (Char.ofNat n).toNat = n := by
  simp only [Percent.isScalar, Bool.or_eq_true, Bool.and_eq_true, decide_eq_true_eq] at h
  refine JsonParse.toNat_ofNat ?_
  unfold Nat.isValidChar
  omega

/-- The tokens begin with the bytes of the first character, and the others are read from what
    is behind them. -/
def ReadsFirst (ts : List Token) (ds : List Char) : Prop :=
  ∃ bs us c es, ts = bs.map Token.byte ++ us ∧ bs ≠ [] ∧ Utf8.Written c (bs.map UInt8.ofNat) ∧
    utf8 none us = some es ∧ ds = c :: es

theorem reads_one {a : Nat} {ts : List Token} {ds : List Char} (ha : a < 0x80)
    (h : (utf8 none ts).map (Char.ofNat a :: ·) = some ds) : ReadsFirst (.byte a :: ts) ds := by
  obtain ⟨es, hes, rfl⟩ := Option.map_eq_some_iff.1 h
  have hchar : (Char.ofNat a).toNat = a := scalar_char (by simp [Percent.isScalar]; omega)
  have haNat : (UInt8.ofNat a).toNat = a := byte_toNat (by omega)
  exact ⟨[a], ts, _, es, rfl, List.cons_ne_nil _ _, .one (by omega) (by omega), hes, rfl⟩

theorem reads_two {a : Nat} {ts : List Token} {ds : List Char} (ha : 0xC0 ≤ a ∧ a < 0xE0)
    (h : utf8 (some ⟨1, a - 0xC0, 0x80⟩) ts = some ds) : ReadsFirst (.byte a :: ts) ds := by
  obtain ⟨b, us, es, rfl, hb, hb', hleast, hscalar, hes, rfl⟩ := Percent.utf8_last h
  have hchar := scalar_char hscalar
  have haNat : (UInt8.ofNat a).toNat = a := byte_toNat (by omega)
  have hbNat : (UInt8.ofNat b).toNat = b := byte_toNat (by omega)
  refine ⟨[a, b], us, _, es, rfl, List.cons_ne_nil _ _, ?_, hes, rfl⟩
  exact .two (by omega) (by omega) (by omega) (by omega) (by omega)

theorem reads_three {a : Nat} {ts : List Token} {ds : List Char} (ha : 0xE0 ≤ a ∧ a < 0xF0)
    (h : utf8 (some ⟨2, a - 0xE0, 0x800⟩) ts = some ds) : ReadsFirst (.byte a :: ts) ds := by
  obtain ⟨b, us, rfl, hb, hb', h⟩ := Percent.utf8_more h
  obtain ⟨d, vs, es, rfl, hd, hd', hleast, hscalar, hes, rfl⟩ := Percent.utf8_last h
  have hchar := scalar_char hscalar
  have haNat : (UInt8.ofNat a).toNat = a := byte_toNat (by omega)
  have hbNat : (UInt8.ofNat b).toNat = b := byte_toNat (by omega)
  have hdNat : (UInt8.ofNat d).toNat = d := byte_toNat (by omega)
  simp only [Percent.isScalar, Bool.or_eq_true, Bool.and_eq_true, decide_eq_true_eq] at hscalar
  refine ⟨[a, b, d], vs, _, es, rfl, List.cons_ne_nil _ _, ?_, hes, rfl⟩
  refine .three (by omega) (by omega) ?_ ?_ (by omega) (by omega) (by omega)
  · split <;> omega
  · split <;> omega

theorem reads_four {a : Nat} {ts : List Token} {ds : List Char} (ha : 0xF0 ≤ a ∧ a < 0xF8)
    (h : utf8 (some ⟨3, a - 0xF0, 0x10000⟩) ts = some ds) : ReadsFirst (.byte a :: ts) ds := by
  obtain ⟨b, us, rfl, hb, hb', h⟩ := Percent.utf8_more h
  obtain ⟨d, vs, rfl, hd, hd', h⟩ := Percent.utf8_more h
  obtain ⟨e, ws, es, rfl, he, he', hleast, hscalar, hes, rfl⟩ := Percent.utf8_last h
  have hchar := scalar_char hscalar
  have haNat : (UInt8.ofNat a).toNat = a := byte_toNat (by omega)
  have hbNat : (UInt8.ofNat b).toNat = b := byte_toNat (by omega)
  have hdNat : (UInt8.ofNat d).toNat = d := byte_toNat (by omega)
  have heNat : (UInt8.ofNat e).toNat = e := byte_toNat (by omega)
  simp only [Percent.isScalar, Bool.or_eq_true, Bool.and_eq_true, decide_eq_true_eq] at hscalar
  refine ⟨[a, b, d, e], ws, _, es, rfl, List.cons_ne_nil _ _, ?_, hes, rfl⟩
  refine .four (by omega) (by omega) ?_ ?_ (by omega) (by omega) (by omega) (by omega) (by omega)
  · split <;> omega
  · split <;> omega

theorem utf8_first {a : Nat} {ts : List Token} {ds : List Char} (h : utf8 none (.byte a :: ts) = some ds) :
    ReadsFirst (.byte a :: ts) ds := by
  simp only [utf8] at h
  split at h
  · exact reads_one ‹_› h
  obtain ⟨p, hp, h⟩ := Option.bind_eq_some_iff.1 h
  unfold Percent.leadByte at hp
  split at hp
  · obtain rfl := Option.some.inj hp
    exact reads_two ‹_› h
  split at hp
  · obtain rfl := Option.some.inj hp
    exact reads_three ‹_› h
  split at hp
  · obtain rfl := Option.some.inj hp
    exact reads_four ‹_› h
  · cases hp

theorem tokenBytes_bytes (bs : List Nat) : (bs.map Token.byte).flatMap tokenBytes = bs.map UInt8.ofNat := by
  induction bs with
  | nil => rfl
  | cons b bs ih =>
    rw [List.map_cons, List.flatMap_cons, ih]
    rfl

/-- A character of several bytes is that character in UTF-8. -/
theorem utf8_bytes (ts : List Token) {ds : List Char} (h : utf8 none ts = some ds) :
    ts.flatMap tokenBytes = ds.flatMap String.utf8EncodeChar := by
  obtain ⟨n, hn⟩ : ∃ n, ts.length = n := ⟨_, rfl⟩
  induction n using Nat.strong_induction_on generalizing ts ds with
  | _ n ih =>
    subst hn
    match ts with
    | [] =>
      obtain rfl := Option.some.inj h
      rfl
    | .char c :: ts =>
      obtain ⟨es, hes, rfl⟩ := Option.map_eq_some_iff.1 h
      rw [List.flatMap_cons, List.flatMap_cons, ih _ (Nat.lt_succ_self _) ts hes rfl]
      rfl
    | .byte a :: ts =>
      obtain ⟨bs, us, c, es, hts, hne, hwritten, hes, rfl⟩ := utf8_first h
      have hshorter : us.length < (Token.byte a :: ts).length := by
        have hpos := List.length_pos_iff.2 hne
        rw [hts, List.length_append, List.length_map]
        omega
      rw [hts, List.flatMap_append, tokenBytes_bytes, ih _ hshorter us hes rfl, hwritten.eq, List.flatMap_cons]

/-- What is decoded has the bytes of its text. -/
theorem bytes_decoded {cs ds : List Char} (h : Percent.decodeChars (plusToSpace cs) = some ds) :
    bytes cs = ds.flatMap String.utf8EncodeChar := by
  obtain ⟨ts, hts, hds⟩ := Option.bind_eq_some_iff.1 h
  rw [bytes_tokens cs hts, utf8_bytes ts hds]

/-! ### The characters of what is written -/

/-- What is so of the characters that stay, of the plus and of the characters of an escape, is
    so of all. -/
theorem formText_chars {P : Char → Prop} (hplus : P '+') (hpercent : P '%') (hhex : ∀ n < 16, P (hexUpper n))
    (hkept : ∀ c, inFormSet c = false → P c) {cs : List Char} : ∀ c ∈ formText cs, P c := by
  intro c hc
  obtain ⟨d, -, hd⟩ := List.mem_flatMap.1 hc
  unfold formChar at hd
  split at hd
  · rw [List.mem_singleton.1 hd]
    exact hplus
  · have hmem : c ∈ percentEncode inFormSet [d] := by
      rw [percentEncode, List.flatMap_cons, List.flatMap_nil, List.append_nil]
      exact hd
    exact escape_char hpercent hhex (fun e _ he => hkept e he) c hmem

theorem formText_no_separator {cs : List Char} : '&' ∉ formText cs ∧ '=' ∉ formText cs := by
  constructor
  · intro h
    refine formText_chars (P := (· ≠ '&')) (by decide) (by decide) (by decide) ?_ '&' h rfl
    rintro c hc rfl
    exact absurd hc (by decide)
  · intro h
    refine formText_chars (P := (· ≠ '=')) (by decide) (by decide) (by decide) ?_ '=' h rfl
    rintro c hc rfl
    exact absurd hc (by decide)

theorem formPair_no_ampersand (p : Pair) : '&' ∉ formPair p := by
  intro h
  rcases List.mem_append.1 h with h | h
  · exact formText_no_separator.1 h
  rcases List.mem_cons.1 h with h | h
  · exact absurd h (by decide)
  · exact formText_no_separator.1 h

theorem formPair_ne_nil (p : Pair) : formPair p ≠ [] := by simp [formPair]

theorem readPair_formPair {decode : List UInt8 → List Char} (h : ∀ cs : List Char, decode (cs.flatMap String.utf8EncodeChar) = cs)
    (p : Pair) : readPair decode (formPair p) = p := by
  have hname : ∀ c ∈ formText p.1, decide (c ≠ '=') = true := by
    intro c hc
    rw [decide_eq_true_eq]
    rintro rfl
    exact formText_no_separator.2 hc
  unfold readPair formPair
  rw [List.takeWhile_append_of_pos hname, List.dropWhile_append_of_pos hname]
  simp [bytes_formText, h]

/-- Pairs are read back as they were written. -/
theorem read_serialize {decode : List UInt8 → List Char} (h : ∀ cs : List Char, decode (cs.flatMap String.utf8EncodeChar) = cs)
    (pairs : List Pair) : read decode (serialize pairs) = pairs := by
  cases pairs with
  | nil => rfl
  | cons p pairs =>
    have hsplit : (serialize (p :: pairs)).splitOn '&' = (p :: pairs).map formPair := by
      refine List.splitOn_intercalate _ ?_ (by simp)
      intro l hl
      obtain ⟨q, -, rfl⟩ := List.mem_map.1 hl
      exact formPair_no_ampersand q
    have hfull : ((p :: pairs).map formPair).filter (· ≠ []) = (p :: pairs).map formPair := by
      rw [List.filter_eq_self]
      intro l hl
      obtain ⟨q, -, rfl⟩ := List.mem_map.1 hl
      simpa using formPair_ne_nil q
    rw [read, hsplit, hfull, List.map_map]
    refine (List.map_congr_left fun q _ => ?_).trans (List.map_id _)
    exact readPair_formPair h q

/-! ### A URL's parser keeps it -/

/-- A character of a query that the parser neither drops nor encodes. -/
def QueryChar (c : Char) : Prop := inSpecialQuerySet c = false ∧ isC0OrSpace c = false

instance (c : Char) : Decidable (QueryChar c) := inferInstanceAs (Decidable (_ ∧ _))

theorem queryChar_of_kept {c : Char} (h : inFormSet c = false) : QueryChar c := by
  have hset : ∀ d, inFormSet d = true → c ≠ d := by
    rintro d hd rfl
    rw [h] at hd
    cases hd
  have hascii : 0x20 < c.toNat ∧ c.toNat ≤ 0x7E := by
    simp only [inFormSet, Bool.not_eq_false', Bool.or_eq_true, decide_eq_true_eq] at h
    rcases h with (((h | rfl) | rfl) | rfl) | rfl
    · have := Text.alphanum_range h
      omega
    · decide
    · decide
    · decide
    · decide
  constructor
  · simp only [inSpecialQuerySet, inQuerySet, inC0Set, Bool.or_eq_false_iff, decide_eq_false_iff_not]
    refine ⟨⟨⟨⟨⟨⟨⟨?_, ?_⟩, ?_⟩, ?_⟩, ?_⟩, ?_⟩, ?_⟩, ?_⟩
    · omega
    · omega
    all_goals exact hset _ (by decide)
  · rw [isC0OrSpace, decide_eq_false_iff_not]
    omega

theorem serialize_kept (pairs : List Pair) : ∀ c ∈ serialize pairs, QueryChar c := by
  have htext : ∀ cs, ∀ c ∈ formText cs, QueryChar c := fun cs =>
    formText_chars (by decide) (by decide) (by decide) fun c hc => queryChar_of_kept hc
  intro c hc
  rcases Text.mem_intercalate hc with rfl | ⟨l, hl, hc⟩
  · decide
  · obtain ⟨p, -, rfl⟩ := List.mem_map.1 hl
    rcases List.mem_append.1 hc with hc | hc
    · exact htext _ c hc
    rcases List.mem_cons.1 hc with rfl | hc
    · decide
    · exact htext _ c hc

end ClusterGate.Lib.FormUrlencoded
