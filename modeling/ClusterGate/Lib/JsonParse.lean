/-
  ClusterGate.Lib.JsonParse — JSON texts as the source language reads and writes them
  (`JSON.parse`, `JSON.stringify`).

  A value keeps the token of each number, and of each text its UTF-16 units; the members of
  an object are in the order the language gives its keys. What number a token stands for
  is left to `numeral`, the token that number is written as.
  - `value_fuel`: the reader's bound is never what stops it.
  - `parse_good`: what is read is in good order, its members by their keys.
-/

import Mathlib.Data.Nat.Digits.Lemmas
import ClusterGate.Lib.JsonText

namespace ClusterGate.Lib.JsonParse

/-- A text of the source language: UTF-16 units. -/
abbrev Units := List Nat

inductive Value
  | null
  | bool (b : Bool)
  | num (token : List Char)
  | str (us : Units)
  | arr (vs : List Value)
  | obj (kvs : List (Units × Value))

/-! ## Units -/

def isHigh (u : Nat) : Bool := 0xD800 ≤ u && u < 0xDC00
def isLow (u : Nat) : Bool := 0xDC00 ≤ u && u < 0xE000

def units (c : Char) : Units :=
  if c.toNat < 0x10000 then [c.toNat] else [0xD800 + (c.toNat - 0x10000) / 0x400, 0xDC00 + (c.toNat - 0x10000) % 0x400]

/-- The character of a pair. -/
def pair (h l : Nat) : Char := Char.ofNat (0x10000 + (h - 0xD800) * 0x400 + (l - 0xDC00))

/-- A unit that is no character is written by its number. -/
def escapeUnit (u : Nat) : List Char :=
  if isHigh u || isLow u then
    ['\\', 'u', Json.hexDigit (u / 0x1000), Json.hexDigit (u / 0x100 % 16), Json.hexDigit (u / 16 % 16), Json.hexDigit (u % 16)]
  else Json.escape (Char.ofNat u)

def escapeUnits : Units → List Char
  | [] => []
  | [u] => escapeUnit u
  | h :: l :: us => if isHigh h && isLow l then pair h l :: escapeUnits us else escapeUnit h ++ escapeUnits (l :: us)

def quote (us : Units) : List Char := '"' :: (escapeUnits us ++ ['"'])

/-- What a letter after a backslash stands for. -/
def letterUnit (e : Char) : Option Nat :=
  if e = '"' ∨ e = '\\' ∨ e = '/' then some e.toNat
  else if e = 'b' then some 8
  else if e = 'f' then some 12
  else if e = 'n' then some 10
  else if e = 'r' then some 13
  else if e = 't' then some 9
  else none

def hexUnit (a b c d : Char) : Option Nat :=
  match Text.hexDigit? a, Text.hexDigit? b, Text.hexDigit? c, Text.hexDigit? d with
  | some a, some b, some c, some d => some (((a * 16 + b) * 16 + c) * 16 + d)
  | _, _, _, _ => none

/-- A quoted text after its first quote, and what follows it. -/
def stringBody : List Char → Option (Units × List Char)
  | [] => none
  | c :: cs =>
    if c = '"' then some ([], cs)
    else if c = '\\' then
      match cs with
      | [] => none
      | e :: cs =>
        if e = 'u' then
          match cs with
          | x :: y :: z :: w :: cs => (hexUnit x y z w).bind fun u => (stringBody cs).map fun p => (u :: p.1, p.2)
          | _ => none
        else (letterUnit e).bind fun u => (stringBody cs).map fun p => (u :: p.1, p.2)
    else if c.toNat < 32 then none
    else (stringBody cs).map fun p => (units c ++ p.1, p.2)

/-! ## Numbers -/

/-- The characters of numbers and of `null`, `true` and `false`. -/
def isTokenChar (c : Char) : Bool := c.isAlphanum || c = '+' || c = '-' || c = '.'

def isExponent (cs : List Char) : Bool :=
  match cs with
  | '+' :: ds => ds ≠ [] && ds.all Char.isDigit
  | '-' :: ds => ds ≠ [] && ds.all Char.isDigit
  | ds => ds ≠ [] && ds.all Char.isDigit

/-- What may follow the digits before the point. -/
def isFraction (cs : List Char) : Bool :=
  match cs with
  | [] => true
  | '.' :: cs => cs.takeWhile Char.isDigit ≠ [] && (match cs.dropWhile Char.isDigit with
    | [] => true
    | e :: cs => (e = 'e' || e = 'E') && isExponent cs)
  | e :: cs => (e = 'e' || e = 'E') && isExponent cs

/-- The digits do not begin with a zero, unless it is the only one. -/
def isMagnitude (cs : List Char) : Bool :=
  match cs.takeWhile Char.isDigit with
  | [] => false
  | '0' :: ds => ds = [] && isFraction (cs.dropWhile Char.isDigit)
  | _ => isFraction (cs.dropWhile Char.isDigit)

def isNumber (token : List Char) : Bool :=
  token.all isTokenChar && (match token with
    | '-' :: cs => isMagnitude cs
    | cs => isMagnitude cs)

/-! ## Keys -/

/-- A key that is an array index, as a number. -/
def index? (k : Units) : Option Nat :=
  if k ≠ [] ∧ k.all (fun u => 48 ≤ u && u ≤ 57) ∧ (k = [48] ∨ k.head? ≠ some 48) then
    let n := k.foldl (fun n u => 10 * n + (u - 48)) 0
    if n < 2 ^ 32 - 1 then some n else none
  else none

/-- Indices come first, in their order; other keys stay in the order they were set. -/
def precedes (k k' : Units) : Bool :=
  match index? k, index? k' with
  | some m, some n => m < n
  | some _, none => true
  | none, some _ => false
  | none, none => k ≠ k'

/-- A member is set. -/
def setMember (kvs : List (Units × Value)) (k : Units) (v : Value) : List (Units × Value) :=
  kvs.takeWhile (fun kv => precedes kv.1 k) ++ (match kvs.dropWhile (fun kv => precedes kv.1 k) with
    | [] => [(k, v)]
    | kv :: rest => if kv.1 = k then (k, v) :: rest else (k, v) :: kv :: rest)

def ownMembers (kvs : List (Units × Value)) : List (Units × Value) :=
  kvs.foldl (fun own kv => setMember own kv.1 kv.2) []

/-! ## Reading -/

def isBlank (c : Char) : Bool := c = ' ' || c = '\t' || c = '\n' || c = '\r'

def skip (cs : List Char) : List Char := cs.dropWhile isBlank

section Lists

variable {α : Type} (close : Char) (item : List Char → Option (α × List Char))

/-- The items after the first, and what follows the closing bracket. -/
def items : Nat → List Char → Option (List α × List Char)
  | 0, _ => none
  | n + 1, cs =>
    match skip cs with
    | [] => none
    | c :: cs =>
      if c = close then some ([], cs)
      else if c = ',' then (item cs).bind fun p => (items n p.2).map fun q => (p.1 :: q.1, q.2)
      else none

def listOf (n : Nat) (cs : List Char) : Option (List α × List Char) :=
  match skip cs with
  | [] => none
  | c :: rest => if c = close then some ([], rest)
    else (item (c :: rest)).bind fun p => (items close item n p.2).map fun q => (p.1 :: q.1, q.2)

end Lists

/-- A key, a colon and a value. -/
def member (item : List Char → Option (Value × List Char)) (cs : List Char) : Option ((Units × Value) × List Char) :=
  match skip cs with
  | [] => none
  | c :: cs => if c ≠ '"' then none else (stringBody cs).bind fun k =>
    match skip k.2 with
    | [] => none
    | c :: cs => if c ≠ ':' then none else (item cs).map fun v => ((k.1, v.1), v.2)

def scalar (cs : List Char) : Option (Value × List Char) :=
  let token := cs.takeWhile isTokenChar
  let rest := cs.dropWhile isTokenChar
  if token = "null".toList then some (.null, rest)
  else if token = "true".toList then some (.bool true, rest)
  else if token = "false".toList then some (.bool false, rest)
  else if isNumber token = true then some (.num token, rest)
  else none

def value : Nat → List Char → Option (Value × List Char)
  | 0, _ => none
  | n + 1, cs =>
    match skip cs with
    | [] => none
    | c :: cs =>
      if c = '"' then (stringBody cs).map fun p => (.str p.1, p.2)
      else if c = '[' then (listOf ']' (value n) n cs).map fun p => (.arr p.1, p.2)
      else if c = '\x7b' then (listOf '\x7d' (member (value n)) n cs).map fun p => (.obj (ownMembers p.1), p.2)
      else scalar (c :: cs)

/-- `JSON.parse`; none where it throws. -/
def parse (cs : List Char) : Option Value :=
  (value (cs.length + 1) cs).bind fun p => if skip p.2 = [] then some p.1 else none

/-! ## Writing -/

mutual
/-- The text of a value, its numbers as their tokens. -/
def write : Value → List Char
  | .null => "null".toList
  | .bool true => "true".toList
  | .bool false => "false".toList
  | .num token => token
  | .str us => quote us
  | .arr [] => ['[', ']']
  | .arr (v :: vs) => '[' :: (write v ++ writeItems vs)
  | .obj [] => ['\x7b', '\x7d']
  | .obj ((k, v) :: kvs) => '\x7b' :: ((quote k ++ ':' :: write v) ++ writeMembers kvs)

/-- The items after the first, and the closing bracket. -/
def writeItems : List Value → List Char
  | [] => [']']
  | v :: vs => ',' :: (write v ++ writeItems vs)

def writeMembers : List (Units × Value) → List Char
  | [] => ['\x7d']
  | (k, v) :: kvs => ',' :: ((quote k ++ ':' :: write v) ++ writeMembers kvs)
end

section Numerals

variable (numeral : List Char → List Char)

mutual
/-- The value with its numbers as they are written; a number that is not finite is `null`. -/
def settle : Value → Value
  | .num token => if numeral token = "null".toList then .null else .num (numeral token)
  | .arr vs => .arr (settleAll vs)
  | .obj kvs => .obj (settleMembers kvs)
  | v => v

def settleAll : List Value → List Value
  | [] => []
  | v :: vs => settle v :: settleAll vs

def settleMembers : List (Units × Value) → List (Units × Value)
  | [] => []
  | (k, v) :: kvs => (k, settle v) :: settleMembers kvs
end

/-- `JSON.stringify` -/
def stringify (v : Value) : List Char := write (settle numeral v)

end Numerals

/-! ## Quoted texts -/

/-- The units of a character are units. -/
theorem units_lt {c : Char} : ∀ u ∈ units c, u < 0x10000 := by
  have hc : c.toNat < 0x110000 := by
    have hvalid : c.toNat.isValidChar := c.valid
    unfold Nat.isValidChar at hvalid
    omega
  unfold units
  split
  · intro u hu
    rw [List.mem_singleton.1 hu]
    assumption
  · intro u hu
    simp only [List.mem_cons, List.not_mem_nil, or_false] at hu
    rcases hu with hu | hu
    · omega
    · omega

theorem hexUnit_lt {x y z w : Char} {u : Nat} (h : hexUnit x y z w = some u) : u < 0x10000 := by
  unfold hexUnit at h
  split at h
  · rename_i a b c d ha hb hc hd
    have h1 := Text.hexDigit?_lt ha
    have h2 := Text.hexDigit?_lt hb
    have h3 := Text.hexDigit?_lt hc
    have h4 := Text.hexDigit?_lt hd
    have := Option.some.inj h
    omega
  · cases h

theorem letterUnit_lt {e : Char} {u : Nat} (h : letterUnit e = some u) : u < 128 := by
  unfold letterUnit at h
  split at h
  · rename_i he
    obtain rfl := Option.some.inj h
    rcases he with rfl | rfl | rfl <;> decide
  split at h
  · obtain rfl := Option.some.inj h; decide
  split at h
  · obtain rfl := Option.some.inj h; decide
  split at h
  · obtain rfl := Option.some.inj h; decide
  split at h
  · obtain rfl := Option.some.inj h; decide
  split at h
  · obtain rfl := Option.some.inj h; decide
  · cases h

section Body

variable {r : List Char}

theorem stringBody_quote : stringBody ('"' :: r) = some ([], r) := by
  rw [stringBody.eq_def]
  simp

theorem stringBody_plain {c : Char} (hq : c ≠ '"') (hb : c ≠ '\\') (hc : 32 ≤ c.toNat) :
    stringBody (c :: r) = (stringBody r).map fun p => (units c ++ p.1, p.2) := by
  rw [stringBody.eq_def]
  simp [hq, hb, Nat.not_lt.2 hc]

end Body

/-- One character as it may be written in a quoted text, and its units. -/
inductive Piece : List Char → Units → Prop
  | hex {x y z w : Char} {u : Nat} (h : hexUnit x y z w = some u) : Piece ['\\', 'u', x, y, z, w] [u]
  | letter {e : Char} {u : Nat} (h : letterUnit e = some u) : Piece ['\\', e] [u]
  | plain (c : Char) : Piece [c] (units c)

/-- A quoted text up to its last quote, and what follows it. -/
inductive Quoted (rest : List Char) : List Char → Units → Prop
  | close : Quoted rest ('"' :: rest) []
  | piece {front cs : List Char} {us us' : Units} (h : Piece front us) (hrest : Quoted rest cs us') :
    Quoted rest (front ++ cs) (us ++ us')

theorem Quoted.of_map {front cs rest : List Char} {us us' : Units} {read : Option (Units × List Char)} (hp : Piece front us')
    (h : (read.map fun p => (us' ++ p.1, p.2)) = some (us, rest)) (ih : ∀ us, read = some (us, rest) → Quoted rest cs us) :
    Quoted rest (front ++ cs) us := by
  obtain ⟨⟨us'', rest'⟩, hread, hp'⟩ := Option.map_eq_some_iff.1 h
  obtain ⟨rfl, rfl⟩ := Prod.mk.inj hp'
  exact .piece hp (ih us'' hread)

theorem quoted_of_stringBody {cs rest : List Char} {us : Units} (h : stringBody cs = some (us, rest)) : Quoted rest cs us := by
  induction cs using stringBody.induct generalizing us rest with
  | case1 => cases h
  | case2 cs =>
    rw [stringBody_quote] at h
    obtain ⟨rfl, rfl⟩ := Prod.mk.inj (Option.some.inj h)
    exact .close
  | case3 => cases h
  | case4 x y z w cs _ ih =>
    rw [stringBody.eq_def] at h
    obtain ⟨u, hu, h⟩ := Option.bind_eq_some_iff.1 h
    exact Quoted.of_map (.hex hu) h fun us => ih
  | case5 cs hshort =>
    rw [stringBody.eq_def] at h
    rcases cs with _ | ⟨x, _ | ⟨y, _ | ⟨z, _ | ⟨w, cs⟩⟩⟩⟩
    · cases h
    · cases h
    · cases h
    · cases h
    · exact (hshort _ _ _ _ _ rfl).elim
  | case6 e cs hu _ ih =>
    rw [stringBody.eq_def] at h
    simp only [hu] at h
    obtain ⟨u, hu, h⟩ := Option.bind_eq_some_iff.1 h
    exact Quoted.of_map (.letter hu) h fun us => ih
  | case7 c cs hq hb hc =>
    rw [stringBody.eq_def] at h
    simp [hq, hb, hc] at h
  | case8 c cs hq hb hc ih =>
    rw [stringBody_plain hq hb (Nat.not_lt.1 hc)] at h
    exact Quoted.of_map (.plain c) h fun us => ih

theorem quoted_units {rest cs : List Char} {us : Units} (h : Quoted rest cs us) : ∀ u ∈ us, u < 0x10000 := by
  induction h with
  | close => simp
  | piece hp _ ih =>
    intro u hu
    rcases List.mem_append.1 hu with hu | hu
    · cases hp with
      | hex h => exact List.mem_singleton.1 hu ▸ hexUnit_lt h
      | letter h => exact lt_trans (List.mem_singleton.1 hu ▸ letterUnit_lt h) (by omega)
      | plain c => exact units_lt u hu
    · exact ih u hu

theorem quoted_length {rest cs : List Char} {us : Units} (h : Quoted rest cs us) : rest.length < cs.length := by
  induction h with
  | close => simp
  | piece hp _ ih =>
    rw [List.length_append]
    omega

theorem stringBody_units {cs rest : List Char} {us : Units} (h : stringBody cs = some (us, rest)) : ∀ u ∈ us, u < 0x10000 :=
  quoted_units (quoted_of_stringBody h)

theorem stringBody_length {cs rest : List Char} {us : Units} (h : stringBody cs = some (us, rest)) : rest.length < cs.length :=
  quoted_length (quoted_of_stringBody h)

/-! ## Keys in order -/

theorem index?_some {k : Units} {n : Nat} (h : index? k = some n) :
    (k ≠ [] ∧ (∀ u ∈ k, 48 ≤ u ∧ u ≤ 57) ∧ (k = [48] ∨ k.head? ≠ some 48)) ∧
      k.foldl (fun n u => 10 * n + (u - 48)) 0 = n := by
  unfold index? at h
  split at h
  · rename_i hk
    dsimp only at h
    split at h
    · refine ⟨⟨hk.1, fun u hu => ?_, hk.2.2⟩, Option.some.inj h⟩
      simpa using List.all_eq_true.1 hk.2.1 u hu
    · cases h
  · cases h

/-- The digits of a key, the last one first. -/
theorem key_digits {k : Units} (hne : k ≠ []) (hd : ∀ u ∈ k, 48 ≤ u ∧ u ≤ 57) (h0 : k.head? ≠ some 48) :
    Nat.digits 10 (k.foldl (fun n u => 10 * n + (u - 48)) 0) = (k.map (· - 48)).reverse := by
  have hfold : k.foldl (fun n u => 10 * n + (u - 48)) 0 = Nat.ofDigits 10 (k.map (· - 48)).reverse := by
    rw [Nat.ofDigits_eq_foldr, List.foldr_reverse, List.foldl_map]
    congr 1
    funext n u
    simp [Nat.add_comm]
  rw [hfold]
  refine Nat.digits_ofDigits 10 (by omega) _ ?_ ?_
  · intro d hd'
    obtain ⟨u, hu, rfl⟩ := List.mem_map.1 (List.mem_reverse.1 hd')
    have := hd u hu
    omega
  · intro hr
    rw [List.getLast_reverse]
    cases k with
    | nil => exact absurd rfl hne
    | cons u k =>
      have := hd u (by simp)
      simp only [List.head?_cons, ne_eq, Option.some.injEq] at h0
      simp only [List.map_cons, List.head_cons]
      omega

theorem index?_inj {k k' : Units} {n : Nat} (h : index? k = some n) (h' : index? k' = some n) : k = k' := by
  obtain ⟨⟨hne, hd, h0⟩, hn⟩ := index?_some h
  obtain ⟨⟨hne', hd', h0'⟩, hn'⟩ := index?_some h'
  have hzero : ∀ {k : Units}, k ≠ [] → (∀ u ∈ k, 48 ≤ u ∧ u ≤ 57) → k.head? ≠ some 48 →
      k.foldl (fun n u => 10 * n + (u - 48)) 0 ≠ 0 := by
    intro k hne hd h0 hk
    have hdigits := key_digits hne hd h0
    rw [hk, Nat.digits_zero] at hdigits
    exact hne (by simpa using hdigits.symm)
  rcases h0 with rfl | h0
  · rcases h0' with rfl | h0'
    · rfl
    · exact absurd (hn'.trans hn.symm) (hzero hne' hd' h0')
  · rcases h0' with rfl | h0'
    · exact absurd (hn.trans hn'.symm) (hzero hne hd h0)
    · have hdigits := key_digits hne hd h0
      rw [hn, ← hn', key_digits hne' hd' h0', List.reverse_inj] at hdigits
      have hback : ∀ {k : Units}, (∀ u ∈ k, 48 ≤ u ∧ u ≤ 57) → (k.map (· - 48)).map (· + 48) = k := by
        intro k hd
        rw [List.map_map]
        refine (List.map_congr_left fun u hu => ?_).trans (List.map_id k)
        have := hd u hu
        simp only [Function.comp_apply, id_eq]
        omega
      rw [← hback hd, ← hdigits, hback hd']

/-- A key that another one is not before, comes before it, or is the same. -/
theorem precedes_of_not {a k : Units} (h : precedes a k = false) : a = k ∨ (precedes k a = true ∧ index? k ≠ none) := by
  unfold precedes at h ⊢
  cases ha : index? a with
  | none =>
    rw [ha] at h
    cases hk : index? k with
    | none => rw [hk] at h; simpa using h
    | some n => simp
  | some m =>
    rw [ha] at h
    cases hk : index? k with
    | none => rw [hk] at h; simp at h
    | some n =>
      rw [hk] at h
      simp only [decide_eq_false_iff_not, not_lt] at h
      rcases Nat.lt_or_ge n m with hlt | hge
      · exact .inr ⟨by simpa using hlt, by simp⟩
      · obtain rfl : m = n := by omega
        exact .inl (index?_inj ha hk)

theorem precedes_trans {a b c : Units} (h : index? a ≠ none) (hab : precedes a b = true) (hbc : precedes b c = true) :
    precedes a c = true := by
  unfold precedes at *
  cases ha : index? a with
  | none => exact absurd ha h
  | some l =>
    rw [ha] at hab
    cases hc : index? c with
    | none => rfl
    | some n =>
      rw [hc] at hbc
      cases hb : index? b with
      | none => rw [hb] at hbc; cases hbc
      | some m =>
        rw [hb] at hab hbc
        simp only [decide_eq_true_eq] at *
        omega

/-- The keys are in the order the language gives them. -/
def Ordered (kvs : List (Units × Value)) : Prop := kvs.Pairwise fun a b => precedes a.1 b.1 = true

/-- Where a member is set: behind what comes before its key, in the place of what had the key. -/
theorem setMember_cases (kvs : List (Units × Value)) (k : Units) (v : Value) :
    ∃ front back, (∀ kv ∈ front, precedes kv.1 k = true) ∧
      ((kvs = front ++ back ∧ setMember kvs k v = front ++ (k, v) :: back ∧
          ∀ kv ∈ back.head?, precedes kv.1 k = false ∧ kv.1 ≠ k) ∨
        ∃ old, kvs = front ++ (k, old) :: back ∧ setMember kvs k v = front ++ (k, v) :: back) := by
  refine ⟨kvs.takeWhile fun kv => precedes kv.1 k, ?_⟩
  have hfront : ∀ kv ∈ kvs.takeWhile fun kv => precedes kv.1 k, precedes kv.1 k = true := fun kv hkv =>
    List.mem_takeWhile_imp (p := fun kv : Units × Value => precedes kv.1 k) hkv
  have hsplit := List.takeWhile_append_dropWhile (p := fun kv : Units × Value => precedes kv.1 k) (l := kvs)
  unfold setMember
  cases hd : kvs.dropWhile fun kv => precedes kv.1 k with
  | nil =>
    rw [hd] at hsplit
    exact ⟨[], hfront, .inl ⟨hsplit.symm, rfl, by simp⟩⟩
  | cons kv rest =>
    have hhead : precedes kv.1 k = false := by
      have := List.head_dropWhile_not (fun kv : Units × Value => precedes kv.1 k) (l := kvs) (by rw [hd]; simp)
      simpa [hd] using this
    rw [hd] at hsplit
    dsimp only
    by_cases hk : kv.1 = k
    · obtain ⟨k', old⟩ := kv
      subst hk
      exact ⟨rest, hfront, .inr ⟨old, hsplit.symm, by rw [if_pos rfl]⟩⟩
    · refine ⟨kv :: rest, hfront, .inl ⟨hsplit.symm, by rw [if_neg hk], ?_⟩⟩
      intro kv' hkv'
      obtain rfl := Option.some.inj hkv'
      exact ⟨hhead, hk⟩

theorem setMember_ordered {kvs : List (Units × Value)} (h : Ordered kvs) (k : Units) (v : Value) :
    Ordered (setMember kvs k v) := by
  obtain ⟨front, back, hfront, ⟨rfl, hset, hback⟩ | ⟨old, rfl, hset⟩⟩ := setMember_cases kvs k v
  · rw [hset]
    obtain ⟨hf, hb, hfb⟩ := List.pairwise_append.1 h
    have hkb : ∀ kv ∈ back, precedes k kv.1 = true := by
      cases back with
      | nil => simp
      | cons kv back =>
        obtain ⟨hnot, hne⟩ := hback kv rfl
        obtain ⟨hbefore, hindex⟩ := (precedes_of_not hnot).resolve_left hne
        intro kv' hkv'
        rcases List.mem_cons.1 hkv' with rfl | hkv'
        · exact hbefore
        · exact precedes_trans hindex hbefore (List.rel_of_pairwise_cons hb hkv')
    refine List.pairwise_append.2 ⟨hf, List.pairwise_cons.2 ⟨hkb, hb⟩, ?_⟩
    intro a ha b hb'
    rcases List.mem_cons.1 hb' with rfl | hb'
    · exact hfront a ha
    · exact hfb a ha b hb'
  · rw [hset]
    obtain ⟨hf, hb, hfb⟩ := List.pairwise_append.1 h
    refine List.pairwise_append.2 ⟨hf, List.pairwise_cons.2 ⟨fun b hb' => List.rel_of_pairwise_cons hb hb', hb.of_cons⟩, ?_⟩
    intro a ha b hb'
    rcases List.mem_cons.1 hb' with rfl | hb'
    · exact hfront a ha
    · exact hfb a ha b (List.mem_cons_of_mem _ hb')

theorem mem_setMember {kvs : List (Units × Value)} {k : Units} {v : Value} {kv : Units × Value}
    (h : kv ∈ setMember kvs k v) : kv = (k, v) ∨ kv ∈ kvs := by
  obtain ⟨front, back, -, ⟨rfl, hset, -⟩ | ⟨old, rfl, hset⟩⟩ := setMember_cases kvs k v
  · rw [hset] at h
    simp only [List.mem_append, List.mem_cons] at h ⊢
    tauto
  · rw [hset] at h
    simp only [List.mem_append, List.mem_cons] at h ⊢
    tauto

theorem foldl_setMember_ordered {own : List (Units × Value)} (h : Ordered own) (kvs : List (Units × Value)) :
    Ordered (kvs.foldl (fun own kv => setMember own kv.1 kv.2) own) := by
  induction kvs generalizing own with
  | nil => exact h
  | cons kv kvs ih => exact ih (setMember_ordered h kv.1 kv.2)

theorem ownMembers_ordered (kvs : List (Units × Value)) : Ordered (ownMembers kvs) :=
  foldl_setMember_ordered .nil kvs

theorem mem_ownMembers {kvs : List (Units × Value)} {kv : Units × Value} (h : kv ∈ ownMembers kvs) : kv ∈ kvs := by
  have hmem : ∀ own, kv ∈ kvs.foldl (fun own kv => setMember own kv.1 kv.2) own → kv ∈ own ∨ kv ∈ kvs := by
    clear h
    induction kvs with
    | nil => exact fun own h => .inl h
    | cons kv' kvs ih =>
      intro own h
      rcases ih _ h with h | h
      · rcases mem_setMember h with rfl | h
        · exact .inr (by simp)
        · exact .inl h
      · exact .inr (List.mem_cons_of_mem _ h)
  simpa using hmem [] h

/-- Members that are in order are set one behind the other. -/
theorem ownMembers_of_ordered {kvs : List (Units × Value)} (h : Ordered kvs) : ownMembers kvs = kvs := by
  have hfold : ∀ own, Ordered (own ++ kvs) → kvs.foldl (fun own kv => setMember own kv.1 kv.2) own = own ++ kvs := by
    clear h
    induction kvs with
    | nil => simp
    | cons kv kvs ih =>
      intro own h
      have hbefore : ∀ a ∈ own, precedes a.1 kv.1 = true := fun a ha => (List.pairwise_append.1 h).2.2 a ha kv (by simp)
      have hset : setMember own kv.1 kv.2 = own ++ [kv] := by
        unfold setMember
        rw [List.takeWhile_eq_self_iff.2 hbefore, List.dropWhile_eq_nil_iff.2 hbefore]
      rw [List.foldl_cons, hset, ih _ (by simpa using h)]
      simp
  exact hfold [] h

/-! ## What is read -/

/-- A value whose texts are units, whose members are in order and whose numbers meet `P`. -/
inductive Good (P : List Char → Prop) : Value → Prop
  | null : Good P .null
  | bool (b : Bool) : Good P (.bool b)
  | num {token : List Char} (h : P token) : Good P (.num token)
  | str {us : Units} (h : ∀ u ∈ us, u < 0x10000) : Good P (.str us)
  | arr {vs : List Value} (h : ∀ v ∈ vs, Good P v) : Good P (.arr vs)
  | obj {kvs : List (Units × Value)} (keys : ∀ kv ∈ kvs, ∀ u ∈ kv.1, u < 0x10000) (ordered : Ordered kvs)
    (h : ∀ kv ∈ kvs, Good P kv.2) : Good P (.obj kvs)

theorem skip_length (cs : List Char) : (skip cs).length ≤ cs.length := List.length_dropWhile_le ..

section Lists

variable {α : Type} {close : Char} {item item' : List Char → Option (α × List Char)}

/-- What a reader of items gives meets `R`, and leaves less text than it was given. -/
def Reads (R : α → Prop) (item : List Char → Option (α × List Char)) : Prop :=
  ∀ cs a rest, item cs = some (a, rest) → R a ∧ rest.length < cs.length

theorem items_reads {R : α → Prop} (hitem : Reads R item) (n : Nat) : Reads (fun as => ∀ a ∈ as, R a) (items close item n) := by
  induction n with
  | zero => intro cs as rest h; cases h
  | succ n ih =>
    intro cs as rest h
    have hskip := skip_length cs
    rw [items] at h
    cases hs : skip cs with
    | nil => rw [hs] at h; cases h
    | cons c cs' =>
      rw [hs] at h hskip
      rw [List.length_cons] at hskip
      dsimp only at h
      split at h
      · obtain ⟨rfl, rfl⟩ := Prod.mk.inj (Option.some.inj h)
        exact ⟨by simp, by omega⟩
      split at h
      · obtain ⟨⟨a, r⟩, ha, h⟩ := Option.bind_eq_some_iff.1 h
        obtain ⟨⟨as', r'⟩, has, h⟩ := Option.map_eq_some_iff.1 h
        obtain ⟨rfl, rfl⟩ := Prod.mk.inj h
        obtain ⟨hR, hlen⟩ := hitem _ _ _ ha
        obtain ⟨hRs, hlens⟩ := ih _ _ _ has
        refine ⟨?_, by dsimp only at hlens ⊢; omega⟩
        intro b hb
        rcases List.mem_cons.1 hb with rfl | hb
        · exact hR
        · exact hRs b hb
      · cases h

theorem listOf_reads {R : α → Prop} (hitem : Reads R item) (n : Nat) :
    Reads (fun as => ∀ a ∈ as, R a) (listOf close item n) := by
  intro cs as rest h
  have hskip := skip_length cs
  rw [listOf] at h
  cases hs : skip cs with
  | nil => rw [hs] at h; cases h
  | cons c cs' =>
    rw [hs] at h hskip
    dsimp only at h
    split at h
    · obtain ⟨rfl, rfl⟩ := Prod.mk.inj (Option.some.inj h)
      rw [List.length_cons] at hskip
      exact ⟨by simp, by omega⟩
    · obtain ⟨⟨a, r⟩, ha, h⟩ := Option.bind_eq_some_iff.1 h
      obtain ⟨⟨as', r'⟩, has, h⟩ := Option.map_eq_some_iff.1 h
      obtain ⟨rfl, rfl⟩ := Prod.mk.inj h
      obtain ⟨hR, hlen⟩ := hitem _ _ _ ha
      obtain ⟨hRs, hlens⟩ := items_reads hitem n _ _ _ has
      refine ⟨?_, by dsimp only at hlens ⊢; omega⟩
      intro b hb
      rcases List.mem_cons.1 hb with rfl | hb
      · exact hR
      · exact hRs b hb

/-- Two readers that agree on the texts up to some length read the same items from them, whatever
    their bounds. -/
theorem items_congr {R : α → Prop} (hreads : Reads R item) {n m : Nat} {cs : List Char} (hn : cs.length < n) (hm : cs.length < m)
    (hitem : ∀ cs', cs'.length ≤ cs.length → item cs' = item' cs') : items close item n cs = items close item' m cs := by
  induction n generalizing m cs with
  | zero => omega
  | succ n ih =>
    obtain ⟨m, rfl⟩ : ∃ m', m = m' + 1 := ⟨m - 1, by omega⟩
    have hskip := skip_length cs
    rw [items, items]
    cases hs : skip cs with
    | nil => rfl
    | cons c cs' =>
      rw [hs, List.length_cons] at hskip
      dsimp only
      split
      · rfl
      split
      · rw [hitem cs' (by omega)]
        cases ha : item' cs' with
        | none => rfl
        | some p =>
          have hlen := (hreads cs' p.1 p.2 ((hitem cs' (by omega)).trans ha)).2
          rw [Option.bind_some, Option.bind_some, ih (m := m) (by omega) (by omega) fun cs'' h => hitem cs'' (by omega)]
      · rfl

theorem listOf_congr {R : α → Prop} (hreads : Reads R item) {n m : Nat} {cs : List Char} (hn : cs.length < n) (hm : cs.length < m)
    (hitem : ∀ cs', cs'.length ≤ cs.length → item cs' = item' cs') : listOf close item n cs = listOf close item' m cs := by
  have hskip := skip_length cs
  rw [listOf, listOf]
  cases hs : skip cs with
  | nil => rfl
  | cons c cs' =>
    rw [hs] at hskip
    dsimp only
    split
    · rfl
    · rw [hitem _ hskip]
      cases ha : item' (c :: cs') with
      | none => rfl
      | some p =>
        have hlen := (hreads _ p.1 p.2 ((hitem _ hskip).trans ha)).2
        rw [Option.bind_some, Option.bind_some, items_congr hreads (m := m) (by omega) (by omega) fun cs'' h => hitem cs'' (by omega)]

end Lists

theorem member_reads {R : Value → Prop} {item : List Char → Option (Value × List Char)} (hitem : Reads R item) :
    Reads (fun kv : Units × Value => (∀ u ∈ kv.1, u < 0x10000) ∧ R kv.2) (member item) := by
  intro cs kv rest h
  have hskip := skip_length cs
  rw [member] at h
  cases hs : skip cs with
  | nil => rw [hs] at h; cases h
  | cons c cs' =>
    rw [hs, List.length_cons] at hskip
    rw [hs] at h
    dsimp only at h
    split at h
    · cases h
    obtain ⟨⟨k, r⟩, hk, h⟩ := Option.bind_eq_some_iff.1 h
    have hklen := stringBody_length hk
    have hskip' := skip_length r
    dsimp only at h
    cases hs' : skip r with
    | nil => rw [hs'] at h; cases h
    | cons c' cs'' =>
      rw [hs', List.length_cons] at hskip'
      rw [hs'] at h
      dsimp only at h
      split at h
      · cases h
      obtain ⟨⟨v, r'⟩, hv, h⟩ := Option.map_eq_some_iff.1 h
      obtain ⟨rfl, rfl⟩ := Prod.mk.inj h
      obtain ⟨hR, hlen⟩ := hitem _ _ _ hv
      exact ⟨⟨stringBody_units hk, hR⟩, by dsimp only; omega⟩

theorem member_congr {item item' : List Char → Option (Value × List Char)} {cs : List Char}
    (hitem : ∀ cs', cs'.length ≤ cs.length → item cs' = item' cs') : member item cs = member item' cs := by
  have hskip := skip_length cs
  rw [member, member]
  cases hs : skip cs with
  | nil => rfl
  | cons c cs' =>
    rw [hs, List.length_cons] at hskip
    dsimp only
    split
    · rfl
    cases hk : stringBody cs' with
    | none => rfl
    | some p =>
      have hklen : p.2.length < cs'.length := stringBody_length hk
      have hskip' := skip_length p.2
      rw [Option.bind_some, Option.bind_some]
      cases hs' : skip p.2 with
      | nil => rfl
      | cons c' cs'' =>
        rw [hs', List.length_cons] at hskip'
        dsimp only
        split
        · rfl
        · rw [hitem cs'' (by omega)]

theorem scalar_reads : Reads (Good fun token => isNumber token = true) scalar := by
  intro cs v rest h
  have hsplit := congrArg List.length (List.takeWhile_append_dropWhile (p := isTokenChar) (l := cs))
  rw [List.length_append] at hsplit
  -- No token is empty.
  have hlen : ∀ token, token ≠ [] → cs.takeWhile isTokenChar = token → (cs.dropWhile isTokenChar).length < cs.length := by
    intro token hne htoken
    have := List.length_pos_iff.2 (fun h => hne (htoken.symm.trans h) : cs.takeWhile isTokenChar ≠ [])
    omega
  unfold scalar at h
  dsimp only at h
  split at h
  · rename_i htoken
    obtain ⟨rfl, rfl⟩ := Prod.mk.inj (Option.some.inj h)
    exact ⟨.null, hlen _ (by decide) htoken⟩
  split at h
  · rename_i htoken
    obtain ⟨rfl, rfl⟩ := Prod.mk.inj (Option.some.inj h)
    exact ⟨.bool _, hlen _ (by decide) htoken⟩
  split at h
  · rename_i htoken
    obtain ⟨rfl, rfl⟩ := Prod.mk.inj (Option.some.inj h)
    exact ⟨.bool _, hlen _ (by decide) htoken⟩
  split at h
  · rename_i htoken
    obtain ⟨rfl, rfl⟩ := Prod.mk.inj (Option.some.inj h)
    refine ⟨.num htoken, hlen _ ?_ rfl⟩
    intro hnil
    rw [hnil] at htoken
    exact absurd htoken (by decide)
  · cases h

theorem value_reads (n : Nat) : Reads (Good fun token => isNumber token = true) (value n) := by
  induction n with
  | zero => intro cs v rest h; cases h
  | succ n ih =>
    intro cs v rest h
    have hskip := skip_length cs
    rw [value] at h
    cases hs : skip cs with
    | nil => rw [hs] at h; cases h
    | cons c cs' =>
      rw [hs, List.length_cons] at hskip
      rw [hs] at h
      dsimp only at h
      split at h
      · obtain ⟨⟨us, r⟩, hus, h⟩ := Option.map_eq_some_iff.1 h
        obtain ⟨rfl, rfl⟩ := Prod.mk.inj h
        have hlen := stringBody_length hus
        exact ⟨.str (stringBody_units hus), by dsimp only; omega⟩
      split at h
      · obtain ⟨⟨vs, r⟩, hvs, h⟩ := Option.map_eq_some_iff.1 h
        obtain ⟨rfl, rfl⟩ := Prod.mk.inj h
        obtain ⟨hgood, hlen⟩ := listOf_reads ih n _ _ _ hvs
        exact ⟨.arr hgood, by dsimp only; omega⟩
      split at h
      · obtain ⟨⟨kvs, r⟩, hkvs, h⟩ := Option.map_eq_some_iff.1 h
        obtain ⟨rfl, rfl⟩ := Prod.mk.inj h
        obtain ⟨hgood, hlen⟩ := listOf_reads (member_reads ih) n _ _ _ hkvs
        exact ⟨.obj (fun kv hkv => (hgood kv (mem_ownMembers hkv)).1) (ownMembers_ordered _)
          fun kv hkv => (hgood kv (mem_ownMembers hkv)).2, by dsimp only; omega⟩
      · obtain ⟨hgood, hlen⟩ := scalar_reads _ _ _ h
        rw [List.length_cons] at hlen
        exact ⟨hgood, by omega⟩

/-- A bound above the length of the text is as good as any. -/
theorem value_fuel {n m : Nat} {cs : List Char} (hn : cs.length < n) (hm : cs.length < m) : value n cs = value m cs := by
  induction n generalizing m cs with
  | zero => omega
  | succ n ih =>
    obtain ⟨m, rfl⟩ : ∃ m', m = m' + 1 := ⟨m - 1, by omega⟩
    have hskip := skip_length cs
    rw [value, value]
    cases hs : skip cs with
    | nil => rfl
    | cons c cs' =>
      rw [hs, List.length_cons] at hskip
      have hsame : ∀ cs'', cs''.length ≤ cs'.length → value n cs'' = value m cs'' := fun cs'' h => ih (by omega) (by omega)
      have hitems : listOf ']' (value n) n cs' = listOf ']' (value m) m cs' :=
        listOf_congr (value_reads n) (by omega) (by omega) hsame
      have hmembers : listOf '\x7d' (member (value n)) n cs' = listOf '\x7d' (member (value m)) m cs' :=
        listOf_congr (member_reads (value_reads n)) (by omega) (by omega) fun cs'' h =>
          member_congr fun t h' => hsame t (by omega)
      dsimp only
      rw [hitems, hmembers]

theorem parse_good {cs : List Char} {v : Value} (h : parse cs = some v) : Good (fun token => isNumber token = true) v := by
  obtain ⟨⟨v', rest⟩, hv, h⟩ := Option.bind_eq_some_iff.1 h
  dsimp only at h
  split at h
  · obtain rfl := Option.some.inj h
    exact (value_reads _ _ _ _ hv).1
  · cases h

end ClusterGate.Lib.JsonParse
