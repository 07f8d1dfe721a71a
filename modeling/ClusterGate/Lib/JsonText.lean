/-
  ClusterGate.Lib.JsonText — the text of a JSON value (`JSON.stringify`).

  `chars numeral gap indent v` is the text of `v`, each level on lines of its own and in by
  another `gap`; with no gap it is all on one line. How a number is written is left to
  `numeral`.
  - `size_stringify`: a bound of its size that is quickly found.
  - `shape`: a value without what its texts say.
  - `quote_inj`: where a quoted text ends, and what it says.
  - `stringify_inj`: values of one shape have one text only if they are the same.
-/

import Mathlib.Data.String.Basic
import ClusterGate.Lib.Json

namespace ClusterGate.Lib.Json

/-! ## Quoted texts -/

/-- The letter that stands for a character after a backslash. -/
def shortEscape (c : Char) : Option Char :=
  if c = '"' then some '"'
  else if c = '\\' then some '\\'
  else if c = '\x08' then some 'b'
  else if c = '\t' then some 't'
  else if c = '\n' then some 'n'
  else if c = '\x0c' then some 'f'
  else if c = '\r' then some 'r'
  else none

def hexDigit (n : Nat) : Char := if n < 10 then Char.ofNat (48 + n) else Char.ofNat (87 + n)

def escape (c : Char) : List Char :=
  match shortEscape c with
  | some e => ['\\', e]
  | none => if c.toNat < 32 then ['\\', 'u', '0', '0', hexDigit (c.toNat / 16), hexDigit (c.toNat % 16)] else [c]

def quote (s : String) : List Char := '"' :: (s.toList.flatMap escape ++ ['"'])

/-! ## The text of a value -/

section Text

variable (numeral : Rat → String) (gap : List Char)

/-- A new line, where there is a gap. -/
def newLine (indent : List Char) : List Char := if gap = [] then [] else '\n' :: indent

/-- What stands between a member's name and its value. -/
def colon : List Char := if gap = [] then [':'] else [':', ' ']

mutual
def chars (indent : List Char) : Json → List Char
  | .null => "null".toList
  | .bool true => "true".toList
  | .bool false => "false".toList
  | .num q => (numeral q).toList
  | .str s => quote s
  | .arr [] => ['[', ']']
  | .arr (x :: xs) => '[' :: (newLine gap (indent ++ gap) ++ (chars (indent ++ gap) x ++
      (elements (indent ++ gap) xs ++ (newLine gap indent ++ [']']))))
  | .obj [] => ['\x7b', '\x7d']
  | .obj ((k, v) :: kvs) => '\x7b' :: (newLine gap (indent ++ gap) ++ (quote k ++ (colon gap ++ (chars (indent ++ gap) v ++
      (members (indent ++ gap) kvs ++ (newLine gap indent ++ ['\x7d']))))))

/-- The elements of a list after its first. -/
def elements (indent : List Char) : List Json → List Char
  | [] => []
  | x :: xs => ',' :: (newLine gap indent ++ (chars indent x ++ elements indent xs))

/-- The members of an object after its first. -/
def members (indent : List Char) : List (String × Json) → List Char
  | [] => []
  | (k, v) :: kvs => ',' :: (newLine gap indent ++ (quote k ++ (colon gap ++ (chars indent v ++ members indent kvs))))
end

/-- `JSON.stringify(v, null, gap)` -/
def stringify (v : Json) : String := String.ofList (chars numeral gap [] v)

end Text

/-! ## How long a text can be -/

section Room

variable (numeral : Rat → String)

mutual
/-- A bound of the characters of a value's text on one line. -/
def room : Json → Nat
  | .null | .bool _ => 5
  | .num q => (numeral q).toList.length
  | .str s => 2 + 6 * s.toList.length
  | .arr xs => 2 + itemsRoom xs
  | .obj kvs => 2 + membersRoom kvs

def itemsRoom : List Json → Nat
  | [] => 0
  | x :: xs => 1 + room x + itemsRoom xs

def membersRoom : List (String × Json) → Nat
  | [] => 0
  | (k, v) :: kvs => 4 + 6 * k.toList.length + room v + membersRoom kvs
end

theorem length_escape (c : Char) : (escape c).length ≤ 6 := by
  unfold escape
  cases shortEscape c with
  | some e => simp
  | none =>
    dsimp only
    split <;> simp

theorem length_quote (s : String) : (quote s).length ≤ 2 + 6 * s.toList.length := by
  have hbody : ∀ cs : List Char, (cs.flatMap escape).length ≤ 6 * cs.length := by
    intro cs
    induction cs with
    | nil => exact Nat.le_refl 0
    | cons c cs ih =>
      have hc := length_escape c
      rw [List.flatMap_cons, List.length_append, List.length_cons]
      omega
  have hs := hbody s.toList
  rw [quote, List.length_cons, List.length_append, List.length_singleton]
  omega

mutual
theorem length_chars (v : Json) : (chars numeral [] [] v).length ≤ room numeral v := by
  cases v with
  | null => simp [chars, room]
  | bool b => cases b <;> simp [chars, room]
  | num q => exact Nat.le_refl _
  | str s => exact length_quote s
  | arr xs =>
    cases xs with
    | nil => simp [chars, room]
    | cons x xs =>
      have hx := length_chars x
      have hxs := length_elements xs
      simp only [chars, room, itemsRoom, newLine, if_true, List.nil_append, List.length_cons, List.length_append, List.length_nil]
      omega
  | obj kvs =>
    cases kvs with
    | nil => simp [chars, room]
    | cons kv kvs =>
      obtain ⟨k, v⟩ := kv
      have hk := length_quote k
      have hv := length_chars v
      have hkvs := length_members kvs
      simp only [chars, room, membersRoom, newLine, colon, if_true, List.nil_append, List.length_cons, List.length_append,
        List.length_nil]
      omega

theorem length_elements (xs : List Json) : (elements numeral [] [] xs).length ≤ itemsRoom numeral xs := by
  cases xs with
  | nil => exact Nat.le_refl 0
  | cons x xs =>
    have hx := length_chars x
    have hxs := length_elements xs
    simp only [elements, itemsRoom, newLine, if_true, List.nil_append, List.length_cons, List.length_append]
    omega

theorem length_members (kvs : List (String × Json)) : (members numeral [] [] kvs).length ≤ membersRoom numeral kvs := by
  cases kvs with
  | nil => exact Nat.le_refl 0
  | cons kv kvs =>
    obtain ⟨k, v⟩ := kv
    have hk := length_quote k
    have hv := length_chars v
    have hkvs := length_members kvs
    simp only [members, membersRoom, newLine, colon, if_true, List.nil_append, List.length_cons, List.length_append,
      List.length_nil]
    omega
end

/-- A character takes four bytes at most. -/
theorem size_stringify (v : Json) : (stringify numeral [] v).utf8ByteSize ≤ 4 * room numeral v := by
  have hbytes : ∀ cs : List Char, (String.ofList cs).utf8ByteSize ≤ 4 * cs.length := by
    intro cs
    induction cs with
    | nil => exact Nat.le_refl 0
    | cons c cs ih =>
      have hc := c.utf8Size_le_four
      rw [String.utf8ByteSize_ofList] at ih ⊢
      rw [String.utf8Len_cons, List.length_cons]
      omega
  have hchars := length_chars numeral v
  exact (hbytes _).trans (Nat.mul_le_mul_left 4 hchars)

end Room

/-! ## Shapes -/

mutual
/-- The value with all its texts emptied. -/
def shape : Json → Json
  | .str _ => .str ""
  | .arr xs => .arr (shapes xs)
  | .obj kvs => .obj (memberShapes kvs)
  | v => v

def shapes : List Json → List Json
  | [] => []
  | x :: xs => shape x :: shapes xs

def memberShapes : List (String × Json) → List (String × Json)
  | [] => []
  | (k, v) :: kvs => (k, shape v) :: memberShapes kvs
end

theorem shapes_map (xs : List Json) : shapes xs = xs.map shape := by
  induction xs with
  | nil => rfl
  | cons x xs ih => rw [shapes, ih, List.map_cons]

theorem memberShapes_map (kvs : List (String × Json)) : memberShapes kvs = kvs.map fun kv => (kv.1, kv.2.shape) := by
  induction kvs with
  | nil => rfl
  | cons kv kvs ih => rw [memberShapes, ih, List.map_cons]

/-! ## A text tells the value -/

def hexValue (c : Char) : Nat := if c.toNat < 58 then c.toNat - 48 else c.toNat - 87

def letterChar (e : Char) : Char :=
  if e = 'b' then '\x08'
  else if e = 't' then '\t'
  else if e = 'n' then '\n'
  else if e = 'f' then '\x0c'
  else if e = 'r' then '\r'
  else e

/-- The first character of an escaped text, and the rest. -/
def unescape : List Char → Option (Char × List Char)
  | '\\' :: 'u' :: _ :: _ :: h :: l :: cs => some (Char.ofNat (16 * hexValue h + hexValue l), cs)
  | '\\' :: e :: cs => some (letterChar e, cs)
  | c :: cs => some (c, cs)
  | [] => none

theorem hexValue_hexDigit : ∀ n < 16, hexValue (hexDigit n) = n := by decide

theorem shortEscape_letter {c e : Char} (h : shortEscape c = some e) : e ≠ 'u' ∧ letterChar e = c := by
  unfold shortEscape at h
  by_cases h₁ : c = '"'
  · subst h₁; obtain rfl := Option.some.inj h; decide
  by_cases h₂ : c = '\\'
  · subst h₂; obtain rfl := Option.some.inj h; decide
  by_cases h₃ : c = '\x08'
  · subst h₃; obtain rfl := Option.some.inj h; decide
  by_cases h₄ : c = '\t'
  · subst h₄; obtain rfl := Option.some.inj h; decide
  by_cases h₅ : c = '\n'
  · subst h₅; obtain rfl := Option.some.inj h; decide
  by_cases h₆ : c = '\x0c'
  · subst h₆; obtain rfl := Option.some.inj h; decide
  by_cases h₇ : c = '\r'
  · subst h₇; obtain rfl := Option.some.inj h; decide
  simp only [h₁, h₂, h₃, h₄, h₅, h₆, h₇, if_false] at h
  cases h

theorem shortEscape_none {c : Char} (h : shortEscape c = none) : c ≠ '"' ∧ c ≠ '\\' := by
  constructor
  · intro hc
    subst hc
    cases h
  · intro hc
    subst hc
    cases h

theorem unescape_letter {e : Char} (h : e ≠ 'u') (cs : List Char) : unescape ('\\' :: e :: cs) = some (letterChar e, cs) := by
  unfold unescape
  split
  · rename_i hcs
    simp only [List.cons.injEq, true_and] at hcs
    exact absurd hcs.1 h
  · rename_i hcs
    simp only [List.cons.injEq, true_and] at hcs
    obtain ⟨rfl, rfl⟩ := hcs
    rfl
  · rename_i hn hcs
    obtain ⟨rfl, rfl⟩ := List.cons.inj hcs
    exact absurd rfl (hn e cs rfl)
  · rename_i hcs
    cases hcs

theorem unescape_plain {c : Char} (h : c ≠ '\\') (cs : List Char) : unescape (c :: cs) = some (c, cs) := by
  unfold unescape
  split
  · rename_i hcs
    exact absurd (List.cons.inj hcs).1 h
  · rename_i hcs
    exact absurd (List.cons.inj hcs).1 h
  · rename_i hcs
    obtain ⟨rfl, rfl⟩ := List.cons.inj hcs
    rfl
  · rename_i hcs
    cases hcs

theorem unescape_escape (c : Char) (r : List Char) : unescape (escape c ++ r) = some (c, r) := by
  unfold escape
  cases hs : shortEscape c with
  | some e =>
    obtain ⟨hu, hc⟩ := shortEscape_letter hs
    show unescape ('\\' :: e :: r) = _
    rw [unescape_letter hu, hc]
  | none =>
    by_cases hlt : c.toNat < 32
    · dsimp only
      rw [if_pos hlt]
      show some (Char.ofNat (16 * hexValue (hexDigit (c.toNat / 16)) + hexValue (hexDigit (c.toNat % 16))), r) = _
      rw [hexValue_hexDigit _ (by omega), hexValue_hexDigit _ (by omega), Nat.div_add_mod, Char.ofNat_toNat]
    · dsimp only
      rw [if_neg hlt]
      exact unescape_plain (shortEscape_none hs).2 r

theorem escape_head (c : Char) : (escape c).head? ≠ some '"' := by
  unfold escape
  cases hs : shortEscape c with
  | some e => simp
  | none =>
    dsimp only
    by_cases hlt : c.toNat < 32
    · rw [if_pos hlt]
      simp
    · rw [if_neg hlt]
      intro h
      exact (shortEscape_none hs).1 (Option.some.inj h)

theorem escape_ne_nil (c : Char) : escape c ≠ [] := by
  unfold escape
  cases shortEscape c with
  | some e => exact List.cons_ne_nil _ _
  | none =>
    dsimp only
    split <;> exact List.cons_ne_nil _ _

/-- The escaped characters up to the closing quote. -/
theorem escaped_inj {cs cs' r r' : List Char} (h : cs.flatMap escape ++ '"' :: r = cs'.flatMap escape ++ '"' :: r') :
    cs = cs' ∧ r = r' := by
  have hquote : ∀ (c : Char) (xs ys : List Char), '"' :: xs ≠ escape c ++ ys := by
    intro c xs ys he
    have hhead : (escape c ++ ys).head? = some '"' := by rw [← he]; rfl
    rw [List.head?_append_of_ne_nil _ (escape_ne_nil c)] at hhead
    exact escape_head c hhead
  induction cs generalizing cs' with
  | nil =>
    cases cs' with
    | nil => exact ⟨rfl, (List.cons.inj h).2⟩
    | cons c' cs' =>
      rw [List.flatMap_cons, List.append_assoc] at h
      exact absurd h (hquote c' _ _)
  | cons c cs ih =>
    cases cs' with
    | nil =>
      rw [List.flatMap_cons, List.append_assoc] at h
      exact absurd h.symm (hquote c _ _)
    | cons c' cs' =>
      rw [List.flatMap_cons, List.flatMap_cons, List.append_assoc, List.append_assoc] at h
      have hun := congrArg unescape h
      rw [unescape_escape, unescape_escape] at hun
      obtain ⟨rfl, hrest⟩ := Prod.mk.inj (Option.some.inj hun)
      obtain ⟨rfl, rfl⟩ := ih hrest
      exact ⟨rfl, rfl⟩

theorem quote_inj {s s' : String} {r r' : List Char} (h : quote s ++ r = quote s' ++ r') : s = s' ∧ r = r' := by
  unfold quote at h
  rw [List.cons_append, List.cons_append, List.append_assoc, List.append_assoc] at h
  obtain ⟨hs, hr⟩ := escaped_inj (List.cons.inj h).2
  exact ⟨String.toList_inj.1 hs, hr⟩

/-! ### Values of one shape -/

section Injective

variable {numeral : Rat → String} {gap : List Char}

mutual
theorem chars_inj (indent : List Char) (v v' : Json) (r r' : List Char) (hs : v.shape = v'.shape)
    (h : chars numeral gap indent v ++ r = chars numeral gap indent v' ++ r') : v = v' ∧ r = r' := by
  cases v with
  | null =>
    cases v' with
    | null => exact ⟨rfl, List.append_cancel_left h⟩
    | _ => cases hs
  | bool b =>
    cases v' with
    | bool b' =>
      have hs : Json.bool b = Json.bool b' := hs
      obtain rfl := Json.bool.inj hs
      exact ⟨rfl, List.append_cancel_left h⟩
    | _ => cases hs
  | num q =>
    cases v' with
    | num q' =>
      have hs : Json.num q = Json.num q' := hs
      obtain rfl := Json.num.inj hs
      exact ⟨rfl, List.append_cancel_left h⟩
    | _ => cases hs
  | str s =>
    cases v' with
    | str s' =>
      rw [chars, chars] at h
      obtain ⟨rfl, rfl⟩ := quote_inj h
      exact ⟨rfl, rfl⟩
    | _ => cases hs
  | arr xs =>
    cases v' with
    | arr xs' =>
      rw [shape, shape] at hs
      have hs := Json.arr.inj hs
      cases xs with
      | nil =>
        cases xs' with
        | nil => exact ⟨rfl, List.append_cancel_left h⟩
        | cons x' xs' => cases hs
      | cons x xs =>
        cases xs' with
        | nil => cases hs
        | cons x' xs' =>
          rw [shapes, shapes] at hs
          obtain ⟨hx, hxs⟩ := List.cons.inj hs
          rw [chars, chars] at h
          simp only [List.cons_append, List.append_assoc] at h
          obtain ⟨rfl, hrest⟩ := chars_inj (indent ++ gap) x x' _ _ hx (List.append_cancel_left (List.cons.inj h).2)
          obtain ⟨rfl, hend⟩ := elements_inj (indent ++ gap) xs xs' _ _ hxs hrest
          exact ⟨rfl, (List.cons.inj (List.append_cancel_left hend)).2⟩
    | _ => cases hs
  | obj kvs =>
    cases v' with
    | obj kvs' =>
      rw [shape, shape] at hs
      have hs := Json.obj.inj hs
      cases kvs with
      | nil =>
        cases kvs' with
        | nil => exact ⟨rfl, List.append_cancel_left h⟩
        | cons p kvs' => cases hs
      | cons p kvs =>
        cases kvs' with
        | nil => cases hs
        | cons p' kvs' =>
          obtain ⟨k, v⟩ := p
          obtain ⟨k', v'⟩ := p'
          rw [memberShapes, memberShapes] at hs
          obtain ⟨hp, hkvs⟩ := List.cons.inj hs
          obtain ⟨rfl, hv⟩ := Prod.mk.inj hp
          rw [chars, chars] at h
          simp only [List.cons_append, List.append_assoc] at h
          have hvalue := List.append_cancel_left (List.append_cancel_left (List.append_cancel_left (List.cons.inj h).2))
          obtain ⟨rfl, hrest⟩ := chars_inj (indent ++ gap) v v' _ _ hv hvalue
          obtain ⟨rfl, hend⟩ := members_inj (indent ++ gap) kvs kvs' _ _ hkvs hrest
          exact ⟨rfl, (List.cons.inj (List.append_cancel_left hend)).2⟩
    | _ => cases hs

theorem elements_inj (indent : List Char) (xs xs' : List Json) (r r' : List Char) (hs : shapes xs = shapes xs')
    (h : elements numeral gap indent xs ++ r = elements numeral gap indent xs' ++ r') : xs = xs' ∧ r = r' := by
  cases xs with
  | nil =>
    cases xs' with
    | nil => exact ⟨rfl, h⟩
    | cons x' xs' => cases hs
  | cons x xs =>
    cases xs' with
    | nil => cases hs
    | cons x' xs' =>
      rw [shapes, shapes] at hs
      obtain ⟨hx, hxs⟩ := List.cons.inj hs
      rw [elements, elements] at h
      simp only [List.cons_append, List.append_assoc] at h
      obtain ⟨rfl, hrest⟩ := chars_inj indent x x' _ _ hx (List.append_cancel_left (List.cons.inj h).2)
      obtain ⟨rfl, hend⟩ := elements_inj indent xs xs' _ _ hxs hrest
      exact ⟨rfl, hend⟩

theorem members_inj (indent : List Char) (kvs kvs' : List (String × Json)) (r r' : List Char)
    (hs : memberShapes kvs = memberShapes kvs')
    (h : members numeral gap indent kvs ++ r = members numeral gap indent kvs' ++ r') : kvs = kvs' ∧ r = r' := by
  cases kvs with
  | nil =>
    cases kvs' with
    | nil => exact ⟨rfl, h⟩
    | cons p kvs' => cases hs
  | cons p kvs =>
    cases kvs' with
    | nil => cases hs
    | cons p' kvs' =>
      obtain ⟨k, v⟩ := p
      obtain ⟨k', v'⟩ := p'
      rw [memberShapes, memberShapes] at hs
      obtain ⟨hp, hkvs⟩ := List.cons.inj hs
      obtain ⟨rfl, hv⟩ := Prod.mk.inj hp
      rw [members, members] at h
      simp only [List.cons_append, List.append_assoc] at h
      have hvalue := List.append_cancel_left (List.append_cancel_left (List.append_cancel_left (List.cons.inj h).2))
      obtain ⟨rfl, hrest⟩ := chars_inj indent v v' _ _ hv hvalue
      obtain ⟨rfl, hend⟩ := members_inj indent kvs kvs' _ _ hkvs hrest
      exact ⟨rfl, hend⟩
end

theorem stringify_inj {v v' : Json} (hs : v.shape = v'.shape) (h : stringify numeral gap v = stringify numeral gap v') :
    v = v' := by
  have hchars : chars numeral gap [] v ++ [] = chars numeral gap [] v' ++ [] := by
    rw [List.append_nil, List.append_nil]
    exact String.ofList_inj.1 h
  exact (chars_inj [] v v' [] [] hs hchars).1

end Injective

end ClusterGate.Lib.Json
