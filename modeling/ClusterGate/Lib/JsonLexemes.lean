/-
  ClusterGate.Lib.JsonLexemes — JSON texts by their tokens and the blanks between them.

  A text is written in UTF-16 units. It is a document if its tokens are derived by the
  grammar of values; the grammar does not look at what a number or a string holds.
  - `derives_adjacent`: which tokens stand next to each other.
  - `Document.linked`, `linked_next`: and so at each place of a document.
-/

import Mathlib.Data.List.Chain

namespace ClusterGate.Lib.JsonLexemes

def isDigit (u : Nat) : Bool := '0'.toNat ≤ u && u ≤ '9'.toNat

def isHex (u : Nat) : Bool :=
  isDigit u || ('A'.toNat ≤ u && u ≤ 'F'.toNat) || ('a'.toNat ≤ u && u ≤ 'f'.toNat)

/-- The units of a text of plain characters. -/
def units (s : String) : List Nat := s.toList.map Char.toNat

/-! ## Lexemes -/

/-- What a string is made of: a unit that stands for itself, an escape by a letter, and an
    escape by four digits. -/
inductive Item where
  | unit (u : Nat)
  | letter (u : Nat)
  | number (a b c d : Nat)
  deriving DecidableEq

def isPlain (u : Nat) : Bool := 0x20 ≤ u && u != '"'.toNat && u != '\\'.toNat

def Item.valid : Item → Bool
  | unit u => isPlain u
  | letter u => (units "\"\\/bfnrt").contains u
  | number a b c d => isHex a && isHex b && isHex c && isHex d

def Item.text : Item → List Nat
  | unit u => [u]
  | letter u => ['\\'.toNat, u]
  | number a b c d => ['\\'.toNat, 'u'.toNat, a, b, c, d]

def itemsText (items : List Item) : List Nat := items.flatMap Item.text

structure Exponent where
  letter : Nat
  sign : Option Nat
  digits : List Nat
  isLetter : letter = 'e'.toNat ∨ letter = 'E'.toNat
  isSign : ∀ u ∈ sign, u = '+'.toNat ∨ u = '-'.toNat
  allDigits : ∀ u ∈ digits, isDigit u = true
  some_digit : digits ≠ []
  deriving DecidableEq

/-- A number; no fraction is the empty one. -/
structure Numeral where
  negative : Bool
  whole : List Nat
  fraction : List Nat
  exponent : Option Exponent
  whole_digits : ∀ u ∈ whole, isDigit u = true
  some_whole : whole ≠ []
  no_zero : whole.head? = some '0'.toNat → whole = ['0'.toNat]
  fraction_digits : ∀ u ∈ fraction, isDigit u = true
  deriving DecidableEq

def Exponent.text (e : Exponent) : List Nat := e.letter :: (e.sign.toList ++ e.digits)

def Numeral.minus (n : Numeral) : List Nat := if n.negative then ['-'.toNat] else []
def Numeral.point (n : Numeral) : List Nat := if n.fraction = [] then [] else '.'.toNat :: n.fraction
def Numeral.power (n : Numeral) : List Nat := (n.exponent.map Exponent.text).getD []

def Numeral.text (n : Numeral) : List Nat := n.minus ++ (n.whole ++ (n.point ++ n.power))

inductive Mark where
  | openArray
  | closeArray
  | openObject
  | closeObject
  | comma
  | colon
  deriving DecidableEq

def Mark.unit : Mark → Nat
  | openArray => '['.toNat
  | closeArray => ']'.toNat
  | openObject => '\x7b'.toNat
  | closeObject => '\x7d'.toNat
  | comma => ','.toNat
  | colon => ':'.toNat

inductive Name where
  | null
  | true_
  | false_
  deriving DecidableEq

def Name.text : Name → List Nat
  | null => units "null"
  | true_ => units "true"
  | false_ => units "false"

inductive Blank where
  | space
  | tab
  | newline
  | return_
  deriving DecidableEq

def Blank.unit : Blank → Nat
  | space => 0x20
  | tab => 9
  | newline => 10
  | return_ => 13

inductive Lexeme where
  | blank (b : Blank)
  | mark (m : Mark)
  | name (n : Name)
  | num (n : Numeral)
  | str (items : List Item)
  deriving DecidableEq

def Lexeme.text : Lexeme → List Nat
  | blank b => [b.unit]
  | mark m => [m.unit]
  | name n => n.text
  | num n => n.text
  | str items => '"'.toNat :: (itemsText items ++ ['"'.toNat])

def text (ls : List Lexeme) : List Nat := ls.flatMap Lexeme.text

@[simp] theorem text_nil : text [] = [] := rfl
@[simp] theorem text_cons (l : Lexeme) (ls : List Lexeme) : text (l :: ls) = l.text ++ text ls := rfl
@[simp] theorem itemsText_nil : itemsText [] = [] := rfl
@[simp] theorem itemsText_cons (i : Item) (items : List Item) : itemsText (i :: items) = i.text ++ itemsText items := rfl

/-! ## Documents -/

/-- What the grammar sees of a token. -/
inductive Kind where
  | mark (m : Mark)
  | scalar
  | string
  deriving DecidableEq

def Lexeme.kind? : Lexeme → Option Kind
  | blank _ => none
  | mark m => some (.mark m)
  | name _ => some .scalar
  | num _ => some .scalar
  | str _ => some .string

def kinds (ls : List Lexeme) : List Kind := ls.filterMap Lexeme.kind?

inductive Part where
  | value
  | elements
  | members

inductive Derives : Part → List Kind → Prop
  | scalar : Derives .value [.scalar]
  | string : Derives .value [.string]
  | emptyArray : Derives .value [.mark .openArray, .mark .closeArray]
  | array {ks} : Derives .elements ks → Derives .value (.mark .openArray :: (ks ++ [.mark .closeArray]))
  | emptyObject : Derives .value [.mark .openObject, .mark .closeObject]
  | object {ks} : Derives .members ks → Derives .value (.mark .openObject :: (ks ++ [.mark .closeObject]))
  | lastElement {ks} : Derives .value ks → Derives .elements ks
  | element {ks js} : Derives .value ks → Derives .elements js → Derives .elements (ks ++ .mark .comma :: js)
  | lastMember {ks} : Derives .value ks → Derives .members (.string :: .mark .colon :: ks)
  | member {ks js} : Derives .value ks → Derives .members js →
      Derives .members (.string :: .mark .colon :: (ks ++ .mark .comma :: js))

structure Document (ls : List Lexeme) : Prop where
  strings : ∀ items, .str items ∈ ls → ∀ i ∈ items, i.valid = true
  grammar : Derives .value (kinds ls)

/-- A token but for what a string holds. -/
def Lexeme.outline : Lexeme → Lexeme
  | str _ => str []
  | l => l

def tokens (ls : List Lexeme) : List Lexeme := ls.filter fun l => l.kind?.isSome

/-- The documents have the same tokens, but for what their strings hold. -/
def SameShape (ls ls' : List Lexeme) : Prop := (tokens ls).map Lexeme.outline = (tokens ls').map Lexeme.outline

/-! ## Neighbours -/

def Kind.begins : Kind → Bool
  | scalar | string | mark .openArray | mark .openObject => true
  | _ => false

def Kind.ends : Kind → Bool
  | scalar | string | mark .closeArray | mark .closeObject => true
  | _ => false

/-- Two tokens that may stand next to each other. -/
def Kind.meets (k j : Kind) : Bool :=
  match k with
  | .mark .openArray => j.begins || j = .mark .closeArray
  | .mark .openObject => j = .string || j = .mark .closeObject
  | .mark .comma | .mark .colon => j.begins
  | .string => j = .mark .comma || j = .mark .closeArray || j = .mark .closeObject || j = .mark .colon
  | _ => j = .mark .comma || j = .mark .closeArray || j = .mark .closeObject

/-- What a part begins and ends with, and the neighbours in it. -/
structure Adjacent (ks : List Kind) : Prop where
  begins : ∀ k ∈ ks.head?, k.begins = true
  ends : ∀ k ∈ ks.getLast?, k.ends = true
  chain : ks.IsChain fun k j => k.meets j = true
  ne_nil : ks ≠ []

theorem meets_of_ends {k : Kind} (h : k.ends = true) {m : Mark} (hm : m = .comma ∨ m = .closeArray ∨ m = .closeObject) :
    k.meets (.mark m) = true := by
  rcases hm with rfl | rfl | rfl
  all_goals
    cases k with
    | mark m => cases m <;> first | rfl | cases h
    | scalar => rfl
    | string => rfl

theorem Adjacent.single {k : Kind} (hbegins : k.begins = true) (hends : k.ends = true) : Adjacent [k] where
  begins := by simpa using hbegins
  ends := by simpa using hends
  chain := List.isChain_singleton k
  ne_nil := List.cons_ne_nil k []

/-- A part behind a mark or a key. -/
theorem Adjacent.behind {k : Kind} {ks : List Kind} (h : Adjacent ks) (hbegins : k.begins = true)
    (hmeets : ∀ j ∈ ks.head?, k.meets j = true) : Adjacent (k :: ks) where
  begins := by simpa using hbegins
  ends := by
    obtain ⟨j, js, rfl⟩ := List.exists_cons_of_ne_nil h.ne_nil
    simpa [List.getLast?_cons_cons] using h.ends
  chain := List.isChain_cons.2 ⟨hmeets, h.chain⟩
  ne_nil := List.cons_ne_nil k ks

/-- A part with a closing mark. -/
theorem Adjacent.closed {ks : List Kind} (h : Adjacent ks) {m : Mark} (hm : m = .closeArray ∨ m = .closeObject) :
    Adjacent (ks ++ [.mark m]) where
  begins := by
    obtain ⟨j, js, rfl⟩ := List.exists_cons_of_ne_nil h.ne_nil
    exact h.begins
  ends := by
    rw [List.getLast?_append_cons]
    rcases hm with rfl | rfl <;> simp [Kind.ends]
  chain := by
    refine List.isChain_append.2 ⟨h.chain, List.isChain_singleton _, fun k hk j hj => ?_⟩
    rw [List.head?_cons, Option.mem_some_iff] at hj
    subst hj
    exact meets_of_ends (h.ends k hk) (.inr hm)
  ne_nil := List.append_ne_nil_of_left_ne_nil h.ne_nil _

/-- A part, a comma and another part. -/
theorem Adjacent.joined {ks js : List Kind} (hk : Adjacent ks) (hj : Adjacent js) : Adjacent (ks ++ .mark .comma :: js) where
  begins := by
    obtain ⟨k, ks, rfl⟩ := List.exists_cons_of_ne_nil hk.ne_nil
    exact hk.begins
  ends := by
    obtain ⟨j, js, rfl⟩ := List.exists_cons_of_ne_nil hj.ne_nil
    rw [List.getLast?_append_cons, List.getLast?_cons_cons]
    exact hj.ends
  chain := by
    have hcomma : ∀ j ∈ js.head?, Kind.meets (.mark .comma) j = true := fun j hmem => hj.begins j hmem
    refine List.isChain_append.2 ⟨hk.chain, List.isChain_cons.2 ⟨hcomma, hj.chain⟩, fun k hmem j hhead => ?_⟩
    rw [List.head?_cons, Option.mem_some_iff] at hhead
    subst hhead
    exact meets_of_ends (hk.ends k hmem) (.inl rfl)
  ne_nil := List.append_ne_nil_of_left_ne_nil hk.ne_nil _

theorem derives_adjacent {part : Part} {ks : List Kind} (h : Derives part ks) :
    Adjacent ks ∧ (part = .members → ks.head? = some .string) := by
  have member : ∀ {ks}, Adjacent ks → Adjacent (.string :: .mark .colon :: ks) := by
    intro ks h
    have hcolon : (Kind.mark .colon :: ks).IsChain fun k j => k.meets j = true :=
      List.isChain_cons.2 ⟨fun j hj => h.begins j hj, h.chain⟩
    refine ⟨by simp [Kind.begins], ?_, List.isChain_cons.2 ⟨by simp [Kind.meets], hcolon⟩, List.cons_ne_nil _ _⟩
    obtain ⟨j, js, rfl⟩ := List.exists_cons_of_ne_nil h.ne_nil
    simpa [List.getLast?_cons_cons] using h.ends
  induction h with
  | scalar => exact ⟨.single rfl rfl, fun h => by cases h⟩
  | string => exact ⟨.single rfl rfl, fun h => by cases h⟩
  | emptyArray => exact ⟨⟨by simp [Kind.begins], by simp [Kind.ends], by simp [Kind.meets], by simp⟩, fun h => by cases h⟩
  | array _ ih =>
    have hclosed := ih.1.closed (.inl rfl)
    refine ⟨hclosed.behind rfl fun j hj => ?_, fun h => by cases h⟩
    simp [Kind.meets, hclosed.begins j hj]
  | emptyObject => exact ⟨⟨by simp [Kind.begins], by simp [Kind.ends], by simp [Kind.meets], by simp⟩, fun h => by cases h⟩
  | @object ks _ ih =>
    have hclosed := ih.1.closed (.inr rfl)
    have hhead := ih.2 rfl
    refine ⟨hclosed.behind rfl fun j hj => ?_, fun h => by cases h⟩
    rw [List.head?_append, hhead, Option.some_or, Option.mem_some_iff] at hj
    subst hj
    rfl
  | lastElement _ ih => exact ⟨ih.1, fun h => by cases h⟩
  | element _ _ ihk ihj => exact ⟨ihk.1.joined ihj.1, fun h => by cases h⟩
  | lastMember _ ih => exact ⟨member ih.1, fun _ => rfl⟩
  | member _ _ ihk ihj => exact ⟨member (ihk.1.joined ihj.1), fun _ => rfl⟩

/-! ## A place in a document -/

/-- The lexemes before a place, the nearest first, and those behind it: the first token begins
    a value, and the others may stand where they do. -/
structure Linked (before todo : List Lexeme) : Prop where
  opens : ∀ k ∈ ((kinds before).reverse ++ kinds todo).head?, k.begins = true
  chain : ((kinds before).reverse ++ kinds todo).IsChain fun k j => k.meets j = true

/-- The text before a place, the nearest unit first. -/
def rtext (before : List Lexeme) : List Nat := before.flatMap fun l => l.text.reverse

@[simp] theorem rtext_nil : rtext [] = [] := rfl
@[simp] theorem rtext_cons (l : Lexeme) (before : List Lexeme) : rtext (l :: before) = l.text.reverse ++ rtext before := rfl

theorem Document.linked {ls : List Lexeme} (h : Document ls) : Linked [] ls :=
  ⟨(derives_adjacent h.grammar).1.begins, (derives_adjacent h.grammar).1.chain⟩

theorem kinds_token {l : Lexeme} {k : Kind} (h : l.kind? = some k) (ls : List Lexeme) : kinds (l :: ls) = k :: kinds ls :=
  List.filterMap_cons_some h

/-- Going on to the next lexeme changes nothing in the order of the tokens. -/
theorem kinds_next (before todo : List Lexeme) (l : Lexeme) :
    (kinds before).reverse ++ kinds (l :: todo) = (kinds (l :: before)).reverse ++ kinds todo := by
  cases hk : l.kind? with
  | none =>
    have hkinds : ∀ ls, kinds (l :: ls) = kinds ls := fun ls => List.filterMap_cons_none hk
    rw [hkinds, hkinds]
  | some k => rw [kinds_token hk, kinds_token hk, List.reverse_cons, List.append_assoc, List.singleton_append]

theorem linked_next {before todo : List Lexeme} {l : Lexeme} : Linked before (l :: todo) ↔ Linked (l :: before) todo := by
  constructor
  · intro ⟨hopens, hchain⟩
    rw [kinds_next] at hopens hchain
    exact ⟨hopens, hchain⟩
  · intro ⟨hopens, hchain⟩
    rw [← kinds_next] at hopens hchain
    exact ⟨hopens, hchain⟩

theorem Linked.behind {before todo : List Lexeme} {l : Lexeme} {k : Kind} (h : Linked before (l :: todo)) (hk : l.kind? = some k) :
    ∀ j ∈ (kinds todo).head?, k.meets j = true := by
  have hchain := h.chain
  rw [kinds_token hk] at hchain
  exact (List.isChain_cons.1 (List.isChain_append.1 hchain).2.1).1

theorem Linked.before {before todo : List Lexeme} {l : Lexeme} {k : Kind} (h : Linked before (l :: todo)) (hk : l.kind? = some k) :
    ∀ j ∈ (kinds before).head?, j.meets k = true := by
  intro j hj
  have hchain := h.chain
  rw [kinds_token hk] at hchain
  exact (List.isChain_append.1 hchain).2.2 j (by rwa [List.getLast?_reverse]) k rfl

/-- What begins no value has a token before it. -/
theorem Linked.preceded {before todo : List Lexeme} {l : Lexeme} {k : Kind} (h : Linked before (l :: todo)) (hk : l.kind? = some k)
    (hbegins : k.begins = false) : ∃ j, (kinds before).head? = some j := by
  cases hkinds : kinds before with
  | cons j js => exact ⟨j, rfl⟩
  | nil =>
    have hopens := h.opens k
    rw [hkinds, kinds_token hk, hbegins] at hopens
    cases hopens rfl

/-! ## Outlines -/

@[simp] theorem kind_outline (l : Lexeme) : l.outline.kind? = l.kind? := by
  cases l <;> rfl

theorem kinds_outline (ls : List Lexeme) : kinds (ls.map Lexeme.outline) = kinds ls := by
  rw [kinds, List.filterMap_map]
  exact List.filterMap_congr fun l _ => kind_outline l

theorem Document.of_outline {ls ls' : List Lexeme} (h : Document ls) (houtline : ls'.map Lexeme.outline = ls.map Lexeme.outline)
    (hstrings : ∀ items, .str items ∈ ls' → ∀ i ∈ items, i.valid = true) : Document ls' := by
  refine ⟨hstrings, ?_⟩
  rw [← kinds_outline, houtline, kinds_outline]
  exact h.grammar

theorem sameShape_of_outline {ls ls' : List Lexeme} (houtline : ls'.map Lexeme.outline = ls.map Lexeme.outline) :
    SameShape ls ls' := by
  have htokens : ∀ ls : List Lexeme, (tokens ls).map Lexeme.outline = (ls.map Lexeme.outline).filter fun l => l.kind?.isSome := by
    intro ls
    rw [tokens, List.filter_map]
    congr 1
    exact List.filter_congr fun l _ => by simp
  rw [SameShape, htokens, htokens, houtline]

end ClusterGate.Lib.JsonLexemes
