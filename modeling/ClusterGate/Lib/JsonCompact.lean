/-
  ClusterGate.Lib.JsonCompact — which JSON texts are written as they were read.

  A compact text has no blanks, its members in the order the language gives them, each
  character escaped only where it must be, and each number as its value is written.
  - `parse_write`: a value is read back from its text.
  - `stringify_parse_iff`: a text is written as it was read exactly if it is compact.
  - `size_of_parse`: a text that is JSON for another one is longer than it.
-/

import ClusterGate.Lib.JsonParse

namespace ClusterGate.Lib.JsonParse

/-! ## Units read back -/

theorem toNat_ofNat {n : Nat} (h : n.isValidChar) : (Char.ofNat n).toNat = n := by
  rw [Char.ofNat, dif_pos h]
  rfl

theorem valid_unit {u : Nat} (hu : u < 0x10000) (hh : isHigh u = false) (hl : isLow u = false) : u.isValidChar := by
  simp only [isHigh, isLow, Bool.and_eq_false_iff, decide_eq_false_iff_not] at hh hl
  unfold Nat.isValidChar
  omega

theorem toNat_pair {h l : Nat} (hh : isHigh h = true) (hl : isLow l = true) :
    (pair h l).toNat = 0x10000 + (h - 0xD800) * 0x400 + (l - 0xDC00) := by
  simp only [isHigh, isLow, Bool.and_eq_true, decide_eq_true_eq] at hh hl
  refine toNat_ofNat ?_
  unfold Nat.isValidChar
  omega

theorem units_pair {h l : Nat} (hh : isHigh h = true) (hl : isLow l = true) : units (pair h l) = [h, l] := by
  unfold units
  rw [toNat_pair hh hl]
  simp only [isHigh, isLow, Bool.and_eq_true, decide_eq_true_eq] at hh hl
  rw [if_neg (by omega)]
  have hfirst : 0xD800 + (0x10000 + (h - 0xD800) * 0x400 + (l - 0xDC00) - 0x10000) / 0x400 = h := by omega
  have hsecond : 0xDC00 + (0x10000 + (h - 0xD800) * 0x400 + (l - 0xDC00) - 0x10000) % 0x400 = l := by omega
  rw [hfirst, hsecond]

theorem units_ofNat {u : Nat} (hu : u < 0x10000) (hh : isHigh u = false) (hl : isLow u = false) :
    units (Char.ofNat u) = [u] := by
  unfold units
  rw [toNat_ofNat (valid_unit hu hh hl), if_pos hu]

theorem hexDigit?_hexDigit : ∀ n < 16, Text.hexDigit? (Json.hexDigit n) = some n := by decide

theorem hexUnit_digits {u : Nat} (hu : u < 0x10000) :
    hexUnit (Json.hexDigit (u / 0x1000)) (Json.hexDigit (u / 0x100 % 16)) (Json.hexDigit (u / 16 % 16)) (Json.hexDigit (u % 16)) =
      some u := by
  unfold hexUnit
  rw [hexDigit?_hexDigit _ (by omega), hexDigit?_hexDigit _ (by omega), hexDigit?_hexDigit _ (by omega),
    hexDigit?_hexDigit _ (by omega)]
  dsimp only
  congr 1
  omega

theorem letterUnit_shortEscape {c e : Char} (h : Json.shortEscape c = some e) : e ≠ 'u' ∧ letterUnit e = some c.toNat := by
  unfold Json.shortEscape at h
  split at h
  · subst_vars; obtain rfl := Option.some.inj h; decide
  split at h
  · subst_vars; obtain rfl := Option.some.inj h; decide
  split at h
  · subst_vars; obtain rfl := Option.some.inj h; decide
  split at h
  · subst_vars; obtain rfl := Option.some.inj h; decide
  split at h
  · subst_vars; obtain rfl := Option.some.inj h; decide
  split at h
  · subst_vars; obtain rfl := Option.some.inj h; decide
  split at h
  · subst_vars; obtain rfl := Option.some.inj h; decide
  · cases h

/-! ### Quoted texts -/

section Body

variable {r : List Char}

theorem stringBody_hex {u : Nat} (hu : u < 0x10000) :
    stringBody ('\\' :: 'u' :: Json.hexDigit (u / 0x1000) :: Json.hexDigit (u / 0x100 % 16) :: Json.hexDigit (u / 16 % 16) ::
      Json.hexDigit (u % 16) :: r) = (stringBody r).map fun p => (u :: p.1, p.2) := by
  rw [stringBody]
  simp [hexUnit_digits hu]

theorem stringBody_letter {e : Char} {u : Nat} (he : e ≠ 'u') (hu : letterUnit e = some u) :
    stringBody ('\\' :: e :: r) = (stringBody r).map fun p => (u :: p.1, p.2) := by
  rw [stringBody.eq_def]
  simp [he, hu]

theorem stringBody_escapeUnit {u : Nat} (hu : u < 0x10000) :
    stringBody (escapeUnit u ++ r) = (stringBody r).map fun p => (u :: p.1, p.2) := by
  unfold escapeUnit
  by_cases hs : (isHigh u || isLow u) = true
  · rw [if_pos hs]
    exact stringBody_hex hu
  · rw [if_neg hs]
    rw [Bool.not_eq_true, Bool.or_eq_false_iff] at hs
    have hn := toNat_ofNat (valid_unit hu hs.1 hs.2)
    unfold Json.escape
    cases he : Json.shortEscape (Char.ofNat u) with
    | some e =>
      obtain ⟨hne, hletter⟩ := letterUnit_shortEscape he
      rw [hn] at hletter
      exact stringBody_letter hne hletter
    | none =>
      obtain ⟨hq, hb⟩ := Json.shortEscape_none he
      dsimp only
      rw [hn]
      by_cases hlt : u < 32
      · rw [if_pos hlt]
        have h1 : u / 0x1000 = 0 := by omega
        have h2 : u / 0x100 % 16 = 0 := by omega
        have h3 : u / 16 % 16 = u / 16 := by omega
        have hhex := stringBody_hex (r := r) hu
        rw [h1, h2, h3] at hhex
        exact hhex
      · rw [if_neg hlt]
        have hplain := stringBody_plain (r := r) hq hb (by omega)
        rw [units_ofNat hu hs.1 hs.2] at hplain
        exact hplain

theorem stringBody_escapeUnits {us : Units} (hus : ∀ u ∈ us, u < 0x10000) :
    stringBody (escapeUnits us ++ '"' :: r) = some (us, r) := by
  induction us using escapeUnits.induct with
  | case1 =>
    exact stringBody_quote
  | case2 u =>
    rw [escapeUnits, stringBody_escapeUnit (hus u (by simp)), stringBody_quote]
    rfl
  | case3 h l us hs ih =>
    rw [escapeUnits, if_pos hs]
    rw [Bool.and_eq_true] at hs
    have hn := toNat_pair hs.1 hs.2
    have hlarge : 0x10000 ≤ (pair h l).toNat := by omega
    have hq : pair h l ≠ '"' := by
      intro he
      rw [he] at hlarge
      exact absurd hlarge (by decide)
    have hb : pair h l ≠ '\\' := by
      intro he
      rw [he] at hlarge
      exact absurd hlarge (by decide)
    rw [List.cons_append, stringBody_plain hq hb (by omega), ih fun u hu => hus u (by simp [hu]), units_pair hs.1 hs.2]
    rfl
  | case4 h l us hs ih =>
    rw [escapeUnits, if_neg hs, List.append_assoc, stringBody_escapeUnit (hus h (by simp)), ih fun u hu => hus u (by simp [hu])]
    rfl

end Body

/-! ## Values read back -/

theorem skip_of_head {c : Char} {cs : List Char} (h : isBlank c = false) : skip (c :: cs) = c :: cs := by
  unfold skip
  rw [List.dropWhile_cons_of_neg (by simp [h])]

/-- No token goes on here. -/
def Stop (rest : List Char) : Prop := ∀ c ∈ rest.head?, isTokenChar c = false

theorem stop_cons {c : Char} {cs : List Char} (h : isTokenChar c = false) : Stop (c :: cs) := by
  intro d hd
  rwa [← Option.some.inj hd]

theorem token_chars {token : List Char} (h : token.all isTokenChar = true) : ∀ c ∈ token, isTokenChar c = true :=
  List.all_eq_true.1 h

theorem token_split {token rest : List Char} (ht : ∀ c ∈ token, isTokenChar c = true) (hr : Stop rest) :
    (token ++ rest).takeWhile isTokenChar = token ∧ (token ++ rest).dropWhile isTokenChar = rest := by
  have hstop : rest.takeWhile isTokenChar = [] ∧ rest.dropWhile isTokenChar = rest := by
    cases rest with
    | nil => simp
    | cons c cs =>
      have := hr c rfl
      simp [this]
  rw [List.takeWhile_append_of_pos ht, List.dropWhile_append_of_pos ht, hstop.1, hstop.2, List.append_nil]
  exact ⟨rfl, rfl⟩

section Items

variable {α : Type} {text : α → List Char} {close : Char} {item : List Char → Option (α × List Char)}

/-- The texts of the items after the first, and the closing bracket. -/
def itemTexts (text : α → List Char) (close : Char) : List α → List Char
  | [] => [close]
  | a :: as => ',' :: (text a ++ itemTexts text close as)

theorem itemTexts_stop (hc : isTokenChar close = false) (as : List α) (rest : List Char) : Stop (itemTexts text close as ++ rest) := by
  cases as with
  | nil => exact stop_cons hc
  | cons a as => exact stop_cons (by decide)

/-- The reader takes its texts up to length `n` back, wherever they stop. -/
def TakesBack (text : α → List Char) (item : List Char → Option (α × List Char)) (n : Nat) (a : α) : Prop :=
  ∀ rest, (text a ++ rest).length < n → Stop rest → item (text a ++ rest) = some (a, rest)

theorem items_back (hc : isTokenChar close = false) (hblank : isBlank close = false) (hcomma : close ≠ ',') {n : Nat} {as : List α}
    {rest : List Char} (hitem : ∀ a ∈ as, TakesBack text item n a) (hn : (itemTexts text close as ++ rest).length ≤ n) {m : Nat}
    (hm : (itemTexts text close as ++ rest).length ≤ m) : items close item m (itemTexts text close as ++ rest) = some (as, rest) := by
  induction as generalizing m with
  | nil =>
    obtain ⟨m, rfl⟩ : ∃ m', m = m' + 1 := ⟨m - 1, by simp [itemTexts] at hm; omega⟩
    rw [itemTexts, List.singleton_append, items, skip_of_head hblank]
    simp
  | cons a as ih =>
    rw [itemTexts, List.cons_append, List.append_assoc] at hn hm ⊢
    rw [List.length_cons, List.length_append] at hn hm
    obtain ⟨m, rfl⟩ : ∃ m', m = m' + 1 := ⟨m - 1, by omega⟩
    have hfirst := hitem a (by simp) (itemTexts text close as ++ rest) (by rw [List.length_append]; omega) (itemTexts_stop hc as rest)
    have hrest := ih (m := m) (fun b hb => hitem b (List.mem_cons_of_mem _ hb)) (by omega) (by omega)
    rw [items, skip_of_head (by decide)]
    dsimp only
    rw [if_neg (Ne.symm hcomma), if_pos rfl, hfirst, Option.bind_some, hrest]
    rfl

/-- A list that is not empty, its items' texts beginning with no blank and no closing bracket. -/
theorem listOf_back (hc : isTokenChar close = false) (hblank : isBlank close = false) (hcomma : close ≠ ',') {n : Nat} {a : α}
    {as : List α} {rest : List Char} (hhead : ∃ c cs, text a = c :: cs ∧ isBlank c = false ∧ c ≠ close)
    (hitem : ∀ b ∈ a :: as, TakesBack text item n b)
    (hn : (text a ++ (itemTexts text close as ++ rest)).length < n) :
    listOf close item n (text a ++ (itemTexts text close as ++ rest)) = some (a :: as, rest) := by
  obtain ⟨c, cs, htext, hb, hne⟩ := hhead
  have hfirst := hitem a (by simp) _ hn (itemTexts_stop hc as rest)
  rw [List.length_append] at hn
  have hrest : items close item n (itemTexts text close as ++ rest) = some (as, rest) :=
    items_back hc hblank hcomma (fun b hb => hitem b (List.mem_cons_of_mem _ hb)) (by omega) (by omega)
  rw [htext, List.cons_append] at hfirst ⊢
  rw [listOf, skip_of_head hb]
  dsimp only
  rw [if_neg hne, hfirst, Option.bind_some, hrest]
  rfl

theorem listOf_back_nil (hblank : isBlank close = false) (n : Nat) (rest : List Char) :
    listOf close item n (close :: rest) = some ([], rest) := by
  rw [listOf, skip_of_head hblank]
  simp

end Items

/-- The text of a member. -/
def writeMember (kv : Units × Value) : List Char := quote kv.1 ++ ':' :: write kv.2

theorem writeItems_eq (vs : List Value) : writeItems vs = itemTexts write ']' vs := by
  induction vs with
  | nil => rfl
  | cons v vs ih => rw [writeItems, itemTexts, ih]

theorem writeMembers_eq (kvs : List (Units × Value)) : writeMembers kvs = itemTexts writeMember '\x7d' kvs := by
  induction kvs with
  | nil => rfl
  | cons kv kvs ih => rw [writeMembers, itemTexts, ih, writeMember]

theorem member_back {n : Nat} {kv : Units × Value} {item : List Char → Option (Value × List Char)}
    (hk : ∀ u ∈ kv.1, u < 0x10000) (hv : TakesBack write item n kv.2) : TakesBack writeMember (member item) n kv := by
  intro rest hn hstop
  have hbody : stringBody (escapeUnits kv.1 ++ '"' :: (':' :: (write kv.2 ++ rest))) = some (kv.1, ':' :: (write kv.2 ++ rest)) :=
    stringBody_escapeUnits hk
  have htext : writeMember kv ++ rest = '"' :: (escapeUnits kv.1 ++ '"' :: (':' :: (write kv.2 ++ rest))) := by
    simp [writeMember, quote]
  rw [htext] at hn ⊢
  simp only [List.length_cons, List.length_append] at hn
  have hvalue := hv rest (by rw [List.length_append]; omega) hstop
  rw [member, skip_of_head (by decide)]
  dsimp only
  rw [if_neg (by simp), hbody, Option.bind_some]
  dsimp only
  rw [skip_of_head (by decide)]
  dsimp only
  rw [if_neg (by simp), hvalue]
  rfl

/-- A token that is read as itself. -/
theorem value_token {n : Nat} {token rest : List Char} {v : Value} (hne : token ≠ []) (ht : ∀ c ∈ token, isTokenChar c = true)
    (hv : scalar (token ++ rest) = some (v, rest)) : value (n + 1) (token ++ rest) = some (v, rest) := by
  cases token with
  | nil => exact absurd rfl hne
  | cons c cs =>
    have hc := ht c (by simp)
    have hother : isBlank c = false ∧ c ≠ '"' ∧ c ≠ '[' ∧ c ≠ '\x7b' := by
      refine ⟨?_, ?_, ?_, ?_⟩
      · rw [Bool.eq_false_iff]
        intro hb
        simp only [isBlank, Bool.or_eq_true, decide_eq_true_eq] at hb
        rcases hb with ((rfl | rfl) | rfl) | rfl <;> exact absurd hc (by decide)
      · rintro rfl; exact absurd hc (by decide)
      · rintro rfl; exact absurd hc (by decide)
      · rintro rfl; exact absurd hc (by decide)
    rw [List.cons_append] at hv ⊢
    rw [value, skip_of_head hother.1]
    dsimp only
    rw [if_neg hother.2.1, if_neg hother.2.2.1, if_neg hother.2.2.2, hv]

theorem isNumber_token {token : List Char} (h : isNumber token = true) : ∀ c ∈ token, isTokenChar c = true := by
  unfold isNumber at h
  rw [Bool.and_eq_true] at h
  exact List.all_eq_true.1 h.1

theorem scalar_number {token rest : List Char} (h : isNumber token = true) (hr : Stop rest) :
    scalar (token ++ rest) = some (.num token, rest) := by
  have hother : ∀ word, isNumber word = false → token ≠ word := by
    intro word hw ht
    rw [ht, hw] at h
    cases h
  unfold scalar
  rw [(token_split (isNumber_token h) hr).1, (token_split (isNumber_token h) hr).2]
  dsimp only
  rw [if_neg (hother _ (by decide)), if_neg (hother _ (by decide)), if_neg (hother _ (by decide)), if_pos h]

section Back

variable {P : List Char → Prop}

/-- The first character of a value's text. -/
theorem write_head (hP : ∀ token, P token → isNumber token = true) {v : Value} (h : Good P v) :
    ∃ c cs, write v = c :: cs ∧ isBlank c = false ∧ c ≠ ']' := by
  cases h with
  | null => exact ⟨_, _, rfl, by decide, by decide⟩
  | bool b => cases b <;> exact ⟨_, _, rfl, by decide, by decide⟩
  | @num token ht =>
    have hn := hP token ht
    cases token with
    | nil => exact absurd hn (by decide)
    | cons c cs =>
      have hc := isNumber_token hn c (by simp)
      refine ⟨c, cs, rfl, ?_, ?_⟩
      · rw [Bool.eq_false_iff]
        intro hb
        simp only [isBlank, Bool.or_eq_true, decide_eq_true_eq] at hb
        rcases hb with ((rfl | rfl) | rfl) | rfl <;> exact absurd hc (by decide)
      · rintro rfl
        exact absurd hc (by decide)
  | str _ => exact ⟨_, _, rfl, by decide, by decide⟩
  | @arr vs _ =>
    cases vs with
    | nil => exact ⟨_, _, rfl, by decide, by decide⟩
    | cons v vs => exact ⟨_, _, rfl, by decide, by decide⟩
  | @obj kvs _ _ _ =>
    cases kvs with
    | nil => exact ⟨_, _, rfl, by decide, by decide⟩
    | cons kv kvs => exact ⟨_, _, rfl, by decide, by decide⟩

theorem value_back (hP : ∀ token, P token → isNumber token = true) {v : Value} (h : Good P v) (n : Nat) :
    TakesBack write (value n) n v := by
  induction h generalizing n with
  | null =>
    intro rest hn hr
    obtain ⟨n, rfl⟩ : ∃ n', n = n' + 1 := ⟨n - 1, by omega⟩
    refine value_token (by decide) (token_chars (by decide)) ?_
    unfold scalar
    rw [(token_split (token_chars (by decide)) hr).1, (token_split (token_chars (by decide)) hr).2]
    rfl
  | bool b =>
    intro rest hn hr
    obtain ⟨n, rfl⟩ : ∃ n', n = n' + 1 := ⟨n - 1, by omega⟩
    cases b with
    | true =>
      refine value_token (by decide) (token_chars (by decide)) ?_
      unfold scalar
      rw [(token_split (token_chars (by decide)) hr).1, (token_split (token_chars (by decide)) hr).2]
      rfl
    | false =>
      refine value_token (by decide) (token_chars (by decide)) ?_
      unfold scalar
      rw [(token_split (token_chars (by decide)) hr).1, (token_split (token_chars (by decide)) hr).2]
      rfl
  | num ht =>
    intro rest hn hr
    obtain ⟨n, rfl⟩ : ∃ n', n = n' + 1 := ⟨n - 1, by omega⟩
    have hnumber := hP _ ht
    refine value_token ?_ (isNumber_token hnumber) (scalar_number hnumber hr)
    rintro rfl
    exact absurd hnumber (by decide)
  | @str us hus =>
    intro rest hn hr
    obtain ⟨n, rfl⟩ : ∃ n', n = n' + 1 := ⟨n - 1, by omega⟩
    have htext : write (.str us) ++ rest = '"' :: (escapeUnits us ++ '"' :: rest) := by simp [write, quote]
    rw [htext, value, skip_of_head (by decide)]
    dsimp only
    rw [if_pos rfl, stringBody_escapeUnits hus]
    rfl
  | @arr vs hvs ih =>
    intro rest hn hr
    obtain ⟨n, rfl⟩ : ∃ n', n = n' + 1 := ⟨n - 1, by omega⟩
    cases vs with
    | nil =>
      show value (n + 1) ('[' :: ']' :: rest) = _
      rw [value, skip_of_head (by decide)]
      dsimp only
      rw [if_neg (by decide), if_pos rfl, listOf_back_nil (by decide)]
      rfl
    | cons v vs =>
      have htext : write (.arr (v :: vs)) ++ rest = '[' :: (write v ++ (itemTexts write ']' vs ++ rest)) := by
        rw [write, writeItems_eq]
        simp
      rw [htext, List.length_cons] at hn
      have hlist := listOf_back (show isTokenChar ']' = false by decide) (by decide) (by decide) (write_head hP (hvs v (by simp)))
        (fun b hb => ih b hb n) (Nat.lt_of_succ_lt_succ hn)
      rw [htext, value, skip_of_head (by decide)]
      dsimp only
      rw [if_neg (by decide), if_pos rfl, hlist]
      rfl
  | @obj kvs hkeys hordered hvs ih =>
    intro rest hn hr
    obtain ⟨n, rfl⟩ : ∃ n', n = n' + 1 := ⟨n - 1, by omega⟩
    cases kvs with
    | nil =>
      show value (n + 1) ('\x7b' :: '\x7d' :: rest) = _
      rw [value, skip_of_head (by decide)]
      dsimp only
      rw [if_neg (by decide), if_neg (by decide), if_pos rfl, listOf_back_nil (by decide)]
      rfl
    | cons kv kvs =>
      have htext : write (.obj (kv :: kvs)) ++ rest = '\x7b' :: (writeMember kv ++ (itemTexts writeMember '\x7d' kvs ++ rest)) := by
        obtain ⟨k, v⟩ := kv
        rw [write, writeMembers_eq, writeMember]
        simp
      rw [htext, List.length_cons] at hn
      have hhead : ∃ c cs, writeMember kv = c :: cs ∧ isBlank c = false ∧ c ≠ '\x7d' :=
        ⟨_, _, List.cons_append, by decide, by decide⟩
      have hlist := listOf_back (show isTokenChar '\x7d' = false by decide) (by decide) (by decide) hhead
        (fun b hb => member_back (hkeys b hb) (ih b hb n)) (Nat.lt_of_succ_lt_succ hn)
      rw [htext, value, skip_of_head (by decide)]
      dsimp only
      rw [if_neg (by decide), if_neg (by decide), if_pos rfl, hlist, Option.map_some, ownMembers_of_ordered hordered]

/-- A value is read back from its text. -/
theorem parse_write (hP : ∀ token, P token → isNumber token = true) {v : Value} (h : Good P v) : parse (write v) = some v := by
  have hback := value_back hP h ((write v).length + 1) [] (by simp) (by simp [Stop])
  rw [List.append_nil] at hback
  rw [parse, hback, Option.bind_some]
  rfl

end Back

/-! ## Compact texts -/

/-- What a number is written as: a number again, written as itself, or `null` if it is not
    finite. -/
structure Numerals (numeral : List Char → List Char) : Prop where
  token : ∀ token, isNumber token = true → isNumber (numeral token) = true ∨ numeral token = "null".toList
  stable : ∀ token, isNumber token = true → isNumber (numeral token) = true → numeral (numeral token) = numeral token

/-- A number written as its value is. -/
def Written (numeral : List Char → List Char) (token : List Char) : Prop := isNumber token = true ∧ numeral token = token

/-- A text without blanks or needless escapes, its members in order, its numbers written as
    their values are. -/
def Compact (numeral : List Char → List Char) (cs : List Char) : Prop := ∃ v, Good (Written numeral) v ∧ cs = write v

section Settled

variable {numeral : List Char → List Char}

theorem settleAll_map (vs : List Value) : settleAll numeral vs = vs.map (settle numeral) := by
  induction vs with
  | nil => rfl
  | cons v vs ih => rw [settleAll, ih, List.map_cons]

theorem settleMembers_map (kvs : List (Units × Value)) :
    settleMembers numeral kvs = kvs.map fun kv => (kv.1, settle numeral kv.2) := by
  induction kvs with
  | nil => rfl
  | cons kv kvs ih => rw [settleMembers, ih, List.map_cons]

theorem settle_good (hn : Numerals numeral) {v : Value} (h : Good (fun token => isNumber token = true) v) :
    Good (Written numeral) (settle numeral v) := by
  induction h with
  | null => exact .null
  | bool b => exact .bool b
  | @num token ht =>
    rw [settle]
    split
    · exact .null
    · rename_i hnull
      have hnumber := (hn.token token ht).resolve_right hnull
      exact .num ⟨hnumber, hn.stable token ht hnumber⟩
  | str hus => exact .str hus
  | @arr vs _ ih =>
    rw [settle, settleAll_map]
    refine .arr fun v hv => ?_
    obtain ⟨w, hw, rfl⟩ := List.mem_map.1 hv
    exact ih w hw
  | @obj kvs hkeys hordered _ ih =>
    rw [settle, settleMembers_map]
    refine .obj ?_ ?_ ?_
    · intro kv hkv
      obtain ⟨kv', hkv', rfl⟩ := List.mem_map.1 hkv
      exact hkeys kv' hkv'
    · exact List.pairwise_map.2 hordered
    · intro kv hkv
      obtain ⟨kv', hkv', rfl⟩ := List.mem_map.1 hkv
      exact ih kv' hkv'

theorem settle_written {v : Value} (h : Good (Written numeral) v) : settle numeral v = v := by
  induction h with
  | null => rfl
  | bool b => rfl
  | @num token ht =>
    rw [settle, ht.2, if_neg]
    rintro rfl
    exact absurd ht.1 (by decide)
  | str _ => rfl
  | @arr vs _ ih =>
    rw [settle, settleAll_map]
    congr 1
    exact (List.map_congr_left fun v hv => ih v hv).trans (List.map_id' vs)
  | @obj kvs _ _ _ ih =>
    rw [settle, settleMembers_map]
    congr 1
    refine (List.map_congr_left fun kv hkv => ?_).trans (List.map_id' kvs)
    rw [ih kv hkv]

/-- What is written is compact. -/
theorem stringify_compact (hn : Numerals numeral) {cs : List Char} {v : Value} (h : parse cs = some v) :
    Compact numeral (stringify numeral v) := ⟨_, settle_good hn (parse_good h), rfl⟩

/-- A text is written as it was read exactly if it is compact. -/
theorem stringify_parse_iff (hn : Numerals numeral) {cs : List Char} {v : Value} (h : parse cs = some v) :
    stringify numeral v = cs ↔ Compact numeral cs := by
  constructor
  · intro hsame
    exact hsame ▸ stringify_compact hn h
  · intro hcompact
    obtain ⟨w, hw, rfl⟩ := hcompact
    have hback := (parse_write (fun token ht => ht.1) hw).symm.trans h
    obtain rfl := Option.some.inj hback
    rw [stringify, settle_written hw]

end Settled

/-! ## The characters of a text -/

/-- The character of a unit; half a pair has none, and the replacement character stands for it. -/
def unitChar (u : Nat) : Char := if isHigh u || isLow u then '\uFFFD' else Char.ofNat u

def chars : Units → List Char
  | [] => []
  | [u] => [unitChar u]
  | h :: l :: us => if isHigh h && isLow l then pair h l :: chars us else unitChar h :: chars (l :: us)

theorem chars_cons {u : Nat} (h : isHigh u = false) (us : Units) : chars (u :: us) = unitChar u :: chars us := by
  cases us with
  | nil => rfl
  | cons l us => rw [chars, h, Bool.false_and, if_neg (by simp)]

theorem not_high_low {u : Nat} (h : isLow u = true) : isHigh u = false := by
  simp only [isHigh, isLow, Bool.and_eq_true, decide_eq_true_eq, Bool.and_eq_false_iff, decide_eq_false_iff_not] at *
  omega

theorem chars_units_append (c : Char) (us : Units) : chars (units c ++ us) = c :: chars us := by
  have hvalid : c.toNat.isValidChar := c.valid
  unfold Nat.isValidChar at hvalid
  unfold units
  split
  · have hh : isHigh c.toNat = false := by
      simp only [isHigh, Bool.and_eq_false_iff, decide_eq_false_iff_not]
      omega
    have hl : isLow c.toNat = false := by
      simp only [isLow, Bool.and_eq_false_iff, decide_eq_false_iff_not]
      omega
    rw [List.singleton_append, chars_cons hh, unitChar, hh, hl, Bool.or_false, if_neg (by simp), Char.ofNat_toNat]
  · rename_i hlarge
    have hh : isHigh (0xD800 + (c.toNat - 0x10000) / 0x400) = true := by
      simp only [isHigh, Bool.and_eq_true, decide_eq_true_eq]
      omega
    have hl : isLow (0xDC00 + (c.toNat - 0x10000) % 0x400) = true := by
      simp only [isLow, Bool.and_eq_true, decide_eq_true_eq]
      omega
    have hpair : pair (0xD800 + (c.toNat - 0x10000) / 0x400) (0xDC00 + (c.toNat - 0x10000) % 0x400) = c := by
      have hn := toNat_pair hh hl
      apply Char.toNat_inj.1
      omega
    rw [List.cons_append, List.singleton_append, chars, hh, hl, Bool.and_self, if_pos rfl, hpair]

theorem chars_units (cs : List Char) : chars (cs.flatMap units) = cs := by
  induction cs with
  | nil => rfl
  | cons c cs ih => rw [List.flatMap_cons, chars_units_append, ih]

/-- How many bytes the characters have in UTF-8. -/
def size (cs : List Char) : Nat := (cs.flatMap String.utf8EncodeChar).length

@[simp] theorem size_nil : size [] = 0 := rfl

@[simp] theorem size_cons (c : Char) (cs : List Char) : size (c :: cs) = c.utf8Size + size cs := by simp [size]

@[simp] theorem size_append (cs ds : List Char) : size (cs ++ ds) = size cs + size ds := by simp [size]

theorem unitChar_toNat {u : Nat} (hu : u < 0x10000) : (unitChar u).toNat < 0x10000 := by
  unfold unitChar
  split
  · decide
  · rename_i hs
    rw [Bool.not_eq_true, Bool.or_eq_false_iff] at hs
    rw [toNat_ofNat (valid_unit hu hs.1 hs.2)]
    exact hu

theorem unitChar_size {u : Nat} (hu : u < 0x10000) : (unitChar u).utf8Size ≤ 3 := by
  have hn := unitChar_toNat hu
  rcases Char.utf8Size_eq (unitChar u) with h | h | h | h
  · omega
  · omega
  · omega
  · have hlarge : 0xffff < (unitChar u).toNat := UInt32.lt_iff_toNat_lt.1 (Char.utf8Size_eq_four_iff.1 h)
    omega

/-- A unit in front takes three bytes at most. -/
theorem size_chars_cons {u : Nat} (hu : u < 0x10000) (us : Units) : size (chars (u :: us)) ≤ 3 + size (chars us) := by
  have hsize := unitChar_size hu
  cases us with
  | nil =>
    rw [chars, chars, size_cons, size_nil]
    omega
  | cons l us =>
    rw [chars]
    split
    · rename_i hs
      rw [Bool.and_eq_true] at hs
      have hlow : unitChar l = '\uFFFD' := by
        unfold unitChar
        rw [hs.2, Bool.or_true, if_pos rfl]
      have hfour : (pair u l).utf8Size ≤ 4 := Char.utf8Size_le_four _
      have hthree : ('\uFFFD').utf8Size = 3 := by decide
      rw [chars_cons (not_high_low hs.2), hlow, size_cons, size_cons, hthree]
      omega
    · rw [size_cons]
      omega

theorem size_chars_small {u : Nat} (hu : u < 128) (us : Units) : size (chars (u :: us)) = 1 + size (chars us) := by
  have hh : isHigh u = false := by
    simp only [isHigh, Bool.and_eq_false_iff, decide_eq_false_iff_not]
    omega
  have hl : isLow u = false := by
    simp only [isLow, Bool.and_eq_false_iff, decide_eq_false_iff_not]
    omega
  have hone : (unitChar u).utf8Size = 1 := by
    refine Char.utf8Size_eq_one_iff.2 (UInt32.le_iff_toNat_le.2 ?_)
    show (unitChar u).toNat ≤ 127
    rw [unitChar, hh, hl, Bool.or_false, if_neg (by simp), toNat_ofNat (.inl (by omega))]
    omega
  rw [chars_cons hh, size_cons, hone]

/-- A quoted text is longer than what it says. -/
theorem size_of_quoted {rest cs : List Char} {us : Units} (h : Quoted rest cs us) : size (chars us) + size rest < size cs := by
  induction h with
  | close =>
    rw [size_cons]
    have hquote : ('"').utf8Size = 1 := by decide
    rw [chars, size_nil, hquote]
    omega
  | @piece front cs us us' hp _ ih =>
    rw [size_append]
    cases hp with
    | @hex x y z w u h =>
      have hchars := size_chars_cons (hexUnit_lt h) us'
      have hx := x.utf8Size_pos
      have hy := y.utf8Size_pos
      have hz := z.utf8Size_pos
      have hw := w.utf8Size_pos
      have hb : ('\\').utf8Size = 1 := by decide
      have hu : ('u').utf8Size = 1 := by decide
      simp only [size_cons, size_nil, List.singleton_append, hb, hu]
      omega
    | @letter e u h =>
      have hchars := size_chars_small (letterUnit_lt h) us'
      have he := e.utf8Size_pos
      have hb : ('\\').utf8Size = 1 := by decide
      simp only [size_cons, size_nil, List.singleton_append, hb]
      omega
    | plain c =>
      rw [chars_units_append, size_cons, size_cons]
      rw [size_nil]
      omega

theorem size_infix {cs ds : List Char} (h : cs <:+: ds) : size cs ≤ size ds := by
  obtain ⟨front, back, rfl⟩ := h
  rw [size_append, size_append]
  omega

/-- A text that is JSON for another one is longer than it. -/
theorem size_of_parse {cs : List Char} {us : Units} (h : parse cs = some (.str us)) : size (chars us) < size cs := by
  obtain ⟨⟨v, rest⟩, hv, h⟩ := Option.bind_eq_some_iff.1 h
  have hstr : v = .str us := by
    split at h
    · exact Option.some.inj h
    · cases h
  subst hstr
  have hsuffix : skip cs <:+ cs := List.dropWhile_suffix _
  rw [value] at hv
  cases hs : skip cs with
  | nil => rw [hs] at hv; cases hv
  | cons c cs' =>
    rw [hs] at hv hsuffix
    dsimp only at hv
    split at hv
    · obtain ⟨⟨us', rest'⟩, hbody, hp⟩ := Option.map_eq_some_iff.1 hv
      obtain ⟨hstr, -⟩ := Prod.mk.inj hp
      obtain rfl := Value.str.inj hstr
      have hlonger := size_of_quoted (quoted_of_stringBody hbody)
      have hwhole := size_infix hsuffix.isInfix
      rw [size_cons] at hwhole
      dsimp only
      omega
    split at hv
    · obtain ⟨_, -, hp⟩ := Option.map_eq_some_iff.1 hv
      cases hp
    split at hv
    · obtain ⟨_, -, hp⟩ := Option.map_eq_some_iff.1 hv
      cases hp
    · unfold scalar at hv
      dsimp only at hv
      split at hv
      · cases hv
      split at hv
      · cases hv
      split at hv
      · cases hv
      split at hv
      · cases hv
      · cases hv

/-! ## Where a text begins and ends -/

theorem tokenChar_range {c : Char} (h : isTokenChar c = true) : 43 ≤ c.toNat ∧ c.toNat ≤ 122 := by
  simp only [isTokenChar, Bool.or_eq_true, decide_eq_true_eq] at h
  rcases h with ((h | rfl) | rfl) | rfl
  · have := Text.alphanum_range h
    omega
  · decide
  · decide
  · decide

theorem tokenChar_space {c : Char} (h : isTokenChar c = true) : Text.isSpace c = false := by
  obtain ⟨hlow, hhigh⟩ := tokenChar_range h
  unfold Text.isSpace
  simp only [Bool.or_eq_false_iff, Bool.and_eq_false_iff, decide_eq_false_iff_not]
  omega
section Ends

variable {P : List Char → Prop}

theorem itemTexts_last {α : Type} (text : α → List Char) (close : Char) (as : List α) :
    ∃ front, itemTexts text close as = front ++ [close] := by
  induction as with
  | nil => exact ⟨[], rfl⟩
  | cons a as ih =>
    obtain ⟨front, hfront⟩ := ih
    exact ⟨',' :: (text a ++ front), by rw [itemTexts, hfront]; simp⟩

/-- A value's text begins and ends with no white space. -/
theorem write_trim (hP : ∀ token, P token → isNumber token = true) {v : Value} (h : Good P v) :
    Text.trim (String.ofList (write v)) = String.ofList (write v) := by
  have hbracket : ∀ (first last : Char) (middle : List Char), Text.isSpace first = false → Text.isSpace last = false →
      Text.trim (String.ofList (first :: (middle ++ [last]))) = String.ofList (first :: (middle ++ [last])) := by
    intro first last middle hfirst hlast
    refine Text.trim_of_ends ?_ ?_
    · intro c hc
      rw [← Option.some.inj hc]
      exact hfirst
    · intro c hc
      rw [← List.cons_append, List.getLast?_concat] at hc
      rw [← Option.some.inj hc]
      exact hlast
  cases h with
  | null => decide
  | bool b => cases b <;> decide
  | @num token ht =>
    have htoken := isNumber_token (hP token ht)
    refine Text.trim_of_ends (fun c hc => tokenChar_space (htoken c (List.mem_of_mem_head? hc)))
      fun c hc => tokenChar_space (htoken c (List.mem_of_getLast? hc))
  | @str us _ => exact hbracket '"' '"' (escapeUnits us) (by decide) (by decide)
  | @arr vs _ =>
    cases vs with
    | nil => decide
    | cons v vs =>
      obtain ⟨front, hfront⟩ := itemTexts_last write ']' vs
      rw [write, writeItems_eq, hfront, ← List.append_assoc]
      exact hbracket '[' ']' _ (by decide) (by decide)
  | @obj kvs _ _ _ =>
    cases kvs with
    | nil => decide
    | cons kv kvs =>
      obtain ⟨k, v⟩ := kv
      obtain ⟨front, hfront⟩ := itemTexts_last writeMember '\x7d' kvs
      rw [write, writeMembers_eq, hfront, ← List.append_assoc]
      exact hbracket '\x7b' '\x7d' _ (by decide) (by decide)

end Ends

end ClusterGate.Lib.JsonParse
