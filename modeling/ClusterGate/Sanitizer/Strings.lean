/-
  ClusterGate.Sanitizer.Strings — what a pass does inside and outside the strings of a JSON
  text.

  A match has no quote and no backslash, so that a pass keeps every string a string. What it
  writes has a `*`, and no JSON text has one outside its strings or behind `\u`.
  - `string_run`: a string stays one, unless an address begins at the `u` of an escape.
  - `spoilt_replaceFrom`: a `*` in the wrong place stays there.
  - `document_not_spoilt`: no document has one.
-/

import ClusterGate.Sanitizer.Patterns

namespace ClusterGate.Sanitizer

open Lib
open Lib.JsonLexemes

/-! ## Where a unit stands -/

/-- Outside strings, in a string, behind a backslash, and behind `\u`. -/
inductive Mode where
  | out
  | str
  | esc
  | uni
  deriving DecidableEq

def Mode.step : Mode → Nat → Mode
  | out, u => if u = '"'.toNat then str else out
  | esc, u => if u = 'u'.toNat then uni else str
  | _, u => if u = '"'.toNat then out else if u = '\\'.toNat then esc else str

def read (mode : Mode) (text : List Nat) : Mode := text.foldl Mode.step mode

/-- A `*` stands outside the strings, or where an escape needs a digit. -/
def spoilt : Mode → List Nat → Bool
  | _, [] => false
  | mode, u :: text => (u == '*'.toNat && (mode == .out || mode == .uni)) || spoilt (mode.step u) text

theorem read_append (mode : Mode) (xs ys : List Nat) : read mode (xs ++ ys) = read (read mode xs) ys := List.foldl_append

theorem spoilt_append (mode : Mode) (xs ys : List Nat) :
    spoilt mode (xs ++ ys) = (spoilt mode xs || spoilt (read mode xs) ys) := by
  induction xs generalizing mode with
  | nil => rfl
  | cons u xs ih =>
    rw [List.cons_append, spoilt, spoilt, ih, Bool.or_assoc]
    rfl

theorem spoilt_of_no_star {xs : List Nat} (h : '*'.toNat ∉ xs) (mode : Mode) : spoilt mode xs = false := by
  induction xs generalizing mode with
  | nil => rfl
  | cons u xs ih =>
    rw [List.mem_cons, not_or] at h
    have hu : (u == '*'.toNat) = false := beq_false_of_ne fun heq => h.1 heq.symm
    rw [spoilt, hu, ih h.2]
    rfl

/-- Of a text with a `*` outside the strings. -/
theorem spoilt_out {xs : List Nat} (hquote : '"'.toNat ∉ xs) (hstar : '*'.toNat ∈ xs) : spoilt .out xs = true := by
  induction xs with
  | nil => cases hstar
  | cons u xs ih =>
    rw [List.mem_cons, not_or] at hquote
    have hstep : Mode.out.step u = .out := if_neg fun heq => hquote.1 heq.symm
    rw [spoilt, hstep]
    rcases List.mem_cons.1 hstar with rfl | hstar
    · rfl
    · rw [ih hquote.2 hstar, Bool.or_true]

/-- No quote and no backslash. -/
def Bare (xs : List Nat) : Prop := ∀ u ∈ xs, u ≠ '"'.toNat ∧ u ≠ '\\'.toNat

theorem read_out {xs : List Nat} (h : '"'.toNat ∉ xs) : read .out xs = .out := by
  induction xs with
  | nil => rfl
  | cons u xs ih =>
    rw [List.mem_cons, not_or] at h
    have hstep : Mode.out.step u = .out := if_neg fun heq => h.1 heq.symm
    rw [read, List.foldl_cons, hstep]
    exact ih h.2

theorem read_str {xs : List Nat} (h : Bare xs) : read .str xs = .str := by
  induction xs with
  | nil => rfl
  | cons u xs ih =>
    obtain ⟨hquote, hslash⟩ := h u List.mem_cons_self
    have hstep : Mode.str.step u = .str := by simp only [Mode.step, if_neg hquote, if_neg hslash]
    rw [read, List.foldl_cons, hstep]
    exact ih fun u hu => h u (List.mem_cons_of_mem _ hu)

/-- Bare texts of two units and more are read alike. -/
theorem read_bare {xs : List Nat} (h : Bare xs) (hlen : 2 ≤ xs.length) (mode : Mode) :
    read mode xs = if mode = .out then .out else .str := by
  split
  next hmode =>
    subst hmode
    exact read_out fun hmem => (h _ hmem).1 rfl
  next hmode =>
    obtain ⟨u, v, xs, rfl⟩ : ∃ u v ys, xs = u :: v :: ys := by
      match xs, hlen with
      | u :: v :: ys, _ => exact ⟨u, v, ys, rfl⟩
    have hstr : ∀ w, w ≠ '"'.toNat → w ≠ '\\'.toNat → ∀ mode : Mode, mode ≠ .out → mode ≠ .esc → mode.step w = .str := by
      intro w hquote hslash mode hout hesc
      cases mode <;> simp_all [Mode.step]
    obtain ⟨hu, hu'⟩ := h u List.mem_cons_self
    obtain ⟨hv, hv'⟩ := h v (List.mem_cons_of_mem _ List.mem_cons_self)
    have hrest : Bare xs := fun w hw => h w (List.mem_cons_of_mem _ (List.mem_cons_of_mem _ hw))
    have hfirst : mode.step u ≠ .out ∧ mode.step u ≠ .esc := by
      cases mode with
      | out => exact absurd rfl hmode
      | str => rw [hstr u hu hu' .str (by decide) (by decide)]; decide
      | esc => rw [Mode.step]; split <;> decide
      | uni => rw [hstr u hu hu' .uni (by decide) (by decide)]; decide
    rw [read, List.foldl_cons, List.foldl_cons, hstr v hv hv' _ hfirst.1 hfirst.2]
    exact read_str hrest

/-! ## What a pass keeps -/

section Pass

variable {r : Regex Nat} {f : List Nat → List Nat → List Nat → List Nat}

theorem ofMask_plain {u : Nat} (h : OfMask plain u) : isPlain u = true := by
  obtain ⟨v, hv, rfl⟩ := h
  rw [isOf, List.any_eq_true] at hv
  obtain ⟨c, hc, hvc⟩ := hv
  have hall : ("*-@ []EMAILundefi".toList.all fun c => isPlain c.toNat) = true := by decide +kernel
  have hplain := List.all_eq_true.1 hall c hc
  rwa [← eq_of_beq hvc] at hplain

theorem plain_iff {u : Nat} : isPlain u = true ↔ 0x20 ≤ u ∧ u ≠ '"'.toNat ∧ u ≠ '\\'.toNat := by
  simp [isPlain, and_assoc]

namespace Tame

variable (ht : Tame r f)
include ht

theorem bare {b m after : List Nat} (h : r.Describes plain.unit b m after) : Bare m := by
  intro u hu
  have huses : r.uses u = true := Regex.uses_of_describes r h u hu
  refine ⟨?_, ?_⟩
  · rintro rfl
    rw [ht.quote] at huses
    cases huses
  · rintro rfl
    rw [ht.backslash] at huses
    cases huses

theorem no_star {b m after : List Nat} (h : r.Describes plain.unit b m after) : '*'.toNat ∉ m := by
  intro hmem
  have huses : r.uses '*'.toNat = true := Regex.uses_of_describes r h _ hmem
  rw [ht.star] at huses
  cases huses

theorem bare_written {b m after : List Nat} (h : r.Describes plain.unit b m after) : Bare (f b m after) := by
  intro u hu
  rcases ht.written b m after u hu with hm | hmask
  · exact ht.bare h u hm
  · exact (plain_iff.1 (ofMask_plain hmask)).2

theorem length {b m after : List Nat} (hfind : r.find plain.unit b (m ++ after) = some (m, after)) : 0 < m.length :=
  List.length_pos_iff.2 (ht.solid _ _ _ (Regex.find_eq_some hfind).2)

end Tame

/-- A `*` in the wrong place stays there. -/
theorem spoilt_replaceFrom (ht : Tame r f) (b rest : List Nat) :
    ∀ mode, spoilt mode rest = true → spoilt mode (Regex.replaceFrom plain.unit r f 0 b rest) = true := by
  refine Regex.replaced (P := fun _ rest out => ∀ mode, spoilt mode rest = true → spoilt mode out = true) ht.solid ?_ ?_ ?_ b rest
  · intro b mode h
    exact h
  · intro b u rest out _ ih mode h
    rw [spoilt, Bool.or_eq_true] at h ⊢
    exact h.imp_right (ih _)
  · intro b m after out hfind ih mode h
    have hdesc := (Regex.find_eq_some hfind).2
    rw [spoilt_append, spoilt_of_no_star (ht.no_star hdesc), Bool.false_or, read_bare (ht.bare hdesc) (ht.wide hfind)] at h
    rw [spoilt_append, read_bare (ht.bare_written hdesc) (ht.long hfind), ih _ h, Bool.or_true]

/-! ## A string -/

/-- The text from the `u` of an escape on. -/
def fromEscape (a b c d : Nat) (items : List Item) (rest : List Nat) : List Nat :=
  'u'.toNat :: a :: b :: c :: d :: (itemsText items ++ '"'.toNat :: rest)

/-- No match begins at the `u` of an escape. -/
def NoneAtEscape (r : Regex Nat) (rest : List Nat) : List Item → Prop
  | [] => True
  | .number a b c d :: items =>
    (∀ m after, fromEscape a b c d items rest = m ++ after → ¬r.Describes plain.unit ['\\'.toNat] m after) ∧
      NoneAtEscape r rest items
  | _ :: items => NoneAtEscape r rest items

/-- A match in a string is of units that stand for themselves. -/
theorem match_items {items : List Item} {m after rest : List Nat} (hm : Bare m)
    (h : itemsText items ++ '"'.toNat :: rest = m ++ after) :
    ∃ items', items = m.map Item.unit ++ items' ∧ after = itemsText items' ++ '"'.toNat :: rest := by
  induction m generalizing items with
  | nil => exact ⟨items, rfl, h.symm⟩
  | cons u m ih =>
    obtain ⟨hquote, hslash⟩ := hm u List.mem_cons_self
    have hrest : Bare m := fun v hv => hm v (List.mem_cons_of_mem u hv)
    cases items with
    | nil => exact absurd (List.cons_eq_cons.1 h).1.symm hquote
    | cons i items =>
      cases i with
      | unit v =>
        obtain ⟨rfl, htail⟩ := List.cons_eq_cons.1 h
        obtain ⟨items', rfl, hafter⟩ := ih hrest htail
        exact ⟨items', rfl, hafter⟩
      | letter v => exact absurd (List.cons_eq_cons.1 h).1.symm hslash
      | number a b c d => exact absurd (List.cons_eq_cons.1 h).1.symm hslash

theorem noneAtEscape_units (rest : List Nat) (m : List Nat) (items : List Item) :
    NoneAtEscape r rest (m.map Item.unit ++ items) ↔ NoneAtEscape r rest items := by
  induction m with
  | nil => exact Iff.rfl
  | cons u m ih => exact ih

theorem hex_word {u : Nat} (h : isHex u = true) : isWord u = true := by
  simp only [isHex, JsonLexemes.isDigit, isWord, isLetter, isUpper, isLower, isDigit, Bool.or_eq_true, Bool.and_eq_true,
    decide_eq_true_eq, Char.reduceToNat] at h ⊢
  omega

theorem find_inside (ht : Tame r f) {b rest : List Nat} {c : Nat} (hb : b.head?.any isWord = true) (hc : isWord c = true) :
    r.find plain.unit b (c :: rest) = none := by
  refine Regex.find_eq_none_iff.2 fun m after hrest hdesc => ?_
  cases m with
  | nil => exact ht.solid _ _ _ hdesc rfl
  | cons u m =>
    obtain ⟨rfl, -⟩ := List.cons_eq_cons.1 hrest
    have hnot := ht.inside hdesc hb
    rw [hc] at hnot
    cases hnot

theorem find_backslash (ht : Tame r f) (b rest : List Nat) : r.find plain.unit b ('\\'.toNat :: rest) = none := by
  refine Regex.find_eq_none_iff.2 fun m after hrest hdesc => ?_
  cases m with
  | nil => exact ht.solid _ _ _ hdesc rfl
  | cons u m =>
    obtain ⟨rfl, -⟩ := List.cons_eq_cons.1 hrest
    exact (ht.bare hdesc _ List.mem_cons_self).2 rfl

@[simp] theorem itemsText_units (xs : List Nat) : itemsText (xs.map Item.unit) = xs := by
  induction xs with
  | nil => rfl
  | cons u xs ih => rw [List.map_cons, itemsText_cons, ih]; rfl

@[simp] theorem itemsText_append (items items' : List Item) : itemsText (items ++ items') = itemsText items ++ itemsText items' :=
  List.flatMap_append

theorem valid_units {xs : List Nat} (h : ∀ u ∈ xs, isPlain u = true) : ∀ i ∈ xs.map Item.unit, i.valid = true := by
  intro i hi
  obtain ⟨u, hu, rfl⟩ := List.mem_map.1 hi
  exact h u hu

theorem letter_facts {e : Nat} (h : (Item.letter e).valid = true) : isOf "\"\\/bfnrtu" e = true ∧ 0x20 ≤ e := by
  have hall : ("\"\\/bfnrt".toList.all fun c => isOf "\"\\/bfnrtu" c.toNat && 0x20 ≤ c.toNat) = true := by decide +kernel
  obtain ⟨c, hc, rfl⟩ := List.mem_map.1 (List.contains_iff_mem.1 h)
  simpa using List.all_eq_true.1 hall c hc

variable (r f)

/-- A pass goes over some of the items and writes items for them. -/
def Steps (rest b : List Nat) (items : List Item) : Prop :=
  ∃ done items' written, items = done ++ items' ∧ done ≠ [] ∧ (∀ i ∈ written, i.valid = true) ∧
    Regex.replaceFrom plain.unit r f 0 b (itemsText items ++ '"'.toNat :: rest) = itemsText written ++
      Regex.replaceFrom plain.unit r f 0 ((itemsText done).reverse ++ b) (itemsText items' ++ '"'.toNat :: rest) ∧
    (NoneAtEscape r rest items ↔ NoneAtEscape r rest items')

variable {r f}

theorem plain_written (ht : Tame r f) {b m after : List Nat} (hm : ∀ u ∈ m, isPlain u = true) : ∀ u ∈ f b m after, isPlain u = true :=
  fun u hu => (ht.written b m after u hu).elim (hm u) ofMask_plain

theorem steps_unit (ht : Tame r f) (rest b : List Nat) (u : Nat) (items : List Item)
    (hvalid : ∀ i ∈ .unit u :: items, i.valid = true) : Steps r f rest b (.unit u :: items) := by
  cases hfind : r.find plain.unit b (itemsText (.unit u :: items) ++ '"'.toNat :: rest) with
  | none =>
    refine ⟨[.unit u], items, [.unit u], rfl, List.cons_ne_nil _ _, ?_, Regex.replaceFrom_none hfind, Iff.rfl⟩
    simpa using hvalid (.unit u) List.mem_cons_self
  | some e =>
    obtain ⟨m, after⟩ := e
    obtain ⟨hsplit, hdesc⟩ := Regex.find_eq_some hfind
    obtain ⟨items', hitems, hafter⟩ := match_items (ht.bare hdesc) hsplit
    have hm : ∀ v ∈ m, isPlain v = true := by
      intro v hv
      refine hvalid (.unit v) ?_
      rw [hitems]
      exact List.mem_append_left _ (List.mem_map_of_mem hv)
    have hne : m ≠ [] := ht.solid _ _ _ hdesc
    rw [hsplit] at hfind
    refine ⟨m.map .unit, items', (f b m after).map .unit, hitems, by simpa using hne, valid_units (plain_written ht hm), ?_, ?_⟩
    · rw [hsplit, Regex.replaceFrom_some ht.solid hfind, itemsText_units, itemsText_units, hafter]
    · rw [hitems, noneAtEscape_units]

theorem replaceFrom_backslash (ht : Tame r f) (b xs : List Nat) :
    Regex.replaceFrom plain.unit r f 0 b ('\\'.toNat :: xs) =
      '\\'.toNat :: Regex.replaceFrom plain.unit r f 0 ('\\'.toNat :: b) xs :=
  Regex.replaceFrom_none (find_backslash ht b xs)

theorem steps_letter (ht : Tame r f) (rest b : List Nat) (e : Nat) (items : List Item)
    (hvalid : ∀ i ∈ .letter e :: items, i.valid = true) : Steps r f rest b (.letter e :: items) := by
  have he := hvalid (.letter e) List.mem_cons_self
  obtain ⟨hletter, hlow⟩ := letter_facts he
  have htext : itemsText (.letter e :: items) ++ '"'.toNat :: rest =
      '\\'.toNat :: e :: (itemsText items ++ '"'.toNat :: rest) := rfl
  cases hfind : r.find plain.unit ('\\'.toNat :: b) (e :: (itemsText items ++ '"'.toNat :: rest)) with
  | none =>
    refine ⟨[.letter e], items, [.letter e], rfl, List.cons_ne_nil _ _, by simpa using he, ?_, Iff.rfl⟩
    rw [htext, replaceFrom_backslash ht, Regex.replaceFrom_none hfind]
    rfl
  | some p =>
    obtain ⟨m, after⟩ := p
    obtain ⟨hsplit, hdesc⟩ := Regex.find_eq_some hfind
    obtain ⟨c, m, rfl⟩ := List.exists_cons_of_ne_nil (ht.solid _ _ _ hdesc)
    obtain ⟨rfl, htail⟩ := List.cons_eq_cons.1 hsplit
    have hbare := ht.bare hdesc
    obtain ⟨items', hitems, hafter⟩ := match_items (fun u hu => hbare u (List.mem_cons_of_mem _ hu)) htail
    have hall : ∀ u ∈ e :: m, isPlain u = true := by
      intro u hu
      rcases List.mem_cons.1 hu with rfl | hm
      · exact plain_iff.2 ⟨hlow, hbare u hu⟩
      · refine hvalid (.unit u) (List.mem_cons_of_mem _ ?_)
        rw [hitems]
        exact List.mem_append_left _ (List.mem_map_of_mem hm)
    rw [hsplit] at hfind
    have hwritten : ∀ u ∈ f ('\\'.toNat :: b) (e :: m) after, isPlain u = true := plain_written ht hall
    obtain ⟨w, hw⟩ := List.head?_eq_some_iff.1 (ht.letter hfind hletter)
    rw [hw] at hwritten
    refine ⟨.letter e :: m.map .unit, items', .letter e :: w.map .unit, by rw [hitems]; rfl, List.cons_ne_nil _ _, ?_, ?_, ?_⟩
    · intro i hi
      rcases List.mem_cons.1 hi with rfl | hi
      · exact he
      · exact valid_units (fun u hu => hwritten u (List.mem_cons_of_mem e hu)) i hi
    · rw [htext, replaceFrom_backslash ht, hsplit, Regex.replaceFrom_some ht.solid hfind, hw, hafter]
      simp [Item.text]
    · show NoneAtEscape r rest items ↔ _
      rw [hitems, noneAtEscape_units]

/-- An escape by digits is copied, unless a match begins at its `u`: what that is replaced by
    has a `*` instead of the digits. -/
theorem steps_number (ht : Tame r f)
    (hstar : ∀ {b m after}, r.find plain.unit b ('u'.toNat :: m ++ after) = some ('u'.toNat :: m, after) →
      ∃ w, f b ('u'.toNat :: m) after = 'u'.toNat :: '*'.toNat :: w)
    (rest bef : List Nat) (a b c d : Nat) (items : List Item) (hvalid : (Item.number a b c d).valid = true) :
    Steps r f rest bef (.number a b c d :: items) ∨
    ¬NoneAtEscape r rest (.number a b c d :: items) ∧
      spoilt .str (Regex.replaceFrom plain.unit r f 0 bef (itemsText (.number a b c d :: items) ++ '"'.toNat :: rest)) = true := by
  have htext : itemsText (.number a b c d :: items) ++ '"'.toNat :: rest =
      '\\'.toNat :: fromEscape a b c d items rest := rfl
  rw [htext, replaceFrom_backslash ht]
  cases hfind : r.find plain.unit ('\\'.toNat :: bef) (fromEscape a b c d items rest) with
  | some p =>
    right
    obtain ⟨m, after⟩ := p
    obtain ⟨hsplit, hdesc⟩ := Regex.find_eq_some hfind
    have hhead : ('\\'.toNat :: bef).head? = ['\\'.toNat].head? := rfl
    refine ⟨fun hnone => hnone.1 m after hsplit (Regex.describes_congr r hhead rfl hdesc), ?_⟩
    obtain ⟨u, m, rfl⟩ := List.exists_cons_of_ne_nil (ht.solid _ _ _ hdesc)
    obtain ⟨rfl, -⟩ := List.cons_eq_cons.1 hsplit
    rw [hsplit] at hfind
    obtain ⟨w, hw⟩ := hstar hfind
    rw [hsplit, Regex.replaceFrom_some ht.solid hfind, hw]
    rfl
  | none =>
    left
    have hhex : isHex a = true ∧ isHex b = true ∧ isHex c = true ∧ isHex d = true := by
      simpa [Item.valid, and_assoc] using hvalid
    have hword : ∀ {u : Nat}, isHex u = true → ∀ xs : List Nat, (u :: xs).head?.any isWord = true := fun hu _ => hex_word hu
    refine ⟨[.number a b c d], items, [.number a b c d], rfl, List.cons_ne_nil _ _, by simpa using hvalid, ?_, ?_⟩
    · rw [htext, replaceFrom_backslash ht, fromEscape] at *
      rw [Regex.replaceFrom_none hfind, Regex.replaceFrom_none (find_inside ht rfl (hex_word hhex.1)),
        Regex.replaceFrom_none (find_inside ht (hword hhex.1 _) (hex_word hhex.2.1)),
        Regex.replaceFrom_none (find_inside ht (hword hhex.2.1 _) (hex_word hhex.2.2.1)),
        Regex.replaceFrom_none (find_inside ht (hword hhex.2.2.1 _) (hex_word hhex.2.2.2))]
      rfl
    · have hhead : ['\\'.toNat].head? = ('\\'.toNat :: bef).head? := rfl
      refine ⟨fun hnone => hnone.2, fun hnone => ⟨fun m after hsplit hdesc => ?_, hnone⟩⟩
      exact Regex.find_eq_none_iff.1 hfind m after hsplit (Regex.describes_congr r hhead rfl hdesc)

theorem step_str {u : Nat} (h : u ≠ '"'.toNat ∧ u ≠ '\\'.toNat) : Mode.str.step u = .str ∧ Mode.uni.step u = .str := by
  constructor
  · simp only [Mode.step, if_neg h.1, if_neg h.2]
  · simp only [Mode.step, if_neg h.1, if_neg h.2]

theorem hex_facts {u : Nat} (h : isHex u = true) : (u ≠ '"'.toNat ∧ u ≠ '\\'.toNat) ∧ (u == '*'.toNat) = false := by
  have hhex : ∀ v, isHex v = false → u ≠ v := by
    rintro v hv rfl
    rw [h] at hv
    cases hv
  exact ⟨⟨hhex _ (by decide), hhex _ (by decide)⟩, beq_false_of_ne (hhex _ (by decide))⟩

theorem item_read {i : Item} (h : i.valid = true) : read .str i.text = .str ∧ spoilt .str i.text = false := by
  cases i with
  | unit u =>
    have hstep := (step_str (plain_iff.1 h).2).1
    exact ⟨hstep, by simp [Item.text, spoilt]⟩
  | letter e =>
    have hu : e ≠ 'u'.toNat := by
      rintro rfl
      revert h
      decide
    have hstep : Mode.esc.step e = .str := if_neg hu
    exact ⟨hstep, by simp [Item.text, spoilt, Mode.step]⟩
  | number a b c d =>
    obtain ⟨ha, hb, hc, hd⟩ : isHex a = true ∧ isHex b = true ∧ isHex c = true ∧ isHex d = true := by
      simpa [Item.valid, and_assoc] using h
    have hfirst : (Mode.str.step '\\'.toNat).step 'u'.toNat = .uni := rfl
    have hstep := (step_str (hex_facts ha).1).2
    have hstr : ∀ {u}, isHex u = true → Mode.str.step u = .str := fun hu => (step_str (hex_facts hu).1).1
    constructor
    · simp only [Item.text, read, List.foldl_cons, hfirst, hstep, hstr hb, hstr hc, hstr hd, List.foldl_nil]
    · simp only [Item.text, spoilt, hfirst, hstep, hstr hb, hstr hc, (hex_facts ha).2, (hex_facts hb).2, (hex_facts hc).2,
        (hex_facts hd).2]
      rfl

theorem items_read {items : List Item} (hvalid : ∀ i ∈ items, i.valid = true) :
    read .str (itemsText items) = .str ∧ spoilt .str (itemsText items) = false := by
  induction items with
  | nil => exact ⟨rfl, rfl⟩
  | cons i items ih =>
    obtain ⟨hread, hspoilt⟩ := ih fun j hj => hvalid j (List.mem_cons_of_mem i hj)
    obtain ⟨hi, hi'⟩ := item_read (hvalid i List.mem_cons_self)
    rw [itemsText_cons, read_append, spoilt_append, hi, hi']
    exact ⟨hread, hspoilt⟩

/-- A string stays a string where no match begins at the `u` of an escape, and elsewhere gets a
    `*` there. -/
theorem string_run (ht : Tame r f)
    (hstar : ∀ {b m after}, r.find plain.unit b ('u'.toNat :: m ++ after) = some ('u'.toNat :: m, after) →
      ∃ w, f b ('u'.toNat :: m) after = 'u'.toNat :: '*'.toNat :: w)
    (rest b : List Nat) (items : List Item) (hvalid : ∀ i ∈ items, i.valid = true) :
    (NoneAtEscape r rest items → ∃ items', (∀ i ∈ items', i.valid = true) ∧
      Regex.replaceFrom plain.unit r f 0 b (itemsText items ++ '"'.toNat :: rest) = itemsText items' ++
        Regex.replaceFrom plain.unit r f 0 ((itemsText items).reverse ++ b) ('"'.toNat :: rest)) ∧
    (¬NoneAtEscape r rest items →
      spoilt .str (Regex.replaceFrom plain.unit r f 0 b (itemsText items ++ '"'.toNat :: rest)) = true) := by
  induction hlen : items.length using Nat.strong_induction_on generalizing items b with
  | _ n ih =>
    cases items with
    | nil => exact ⟨fun _ => ⟨[], by simp, rfl⟩, fun h => absurd trivial h⟩
    | cons i items =>
      have hstep : Steps r f rest b (i :: items) ∨ ¬NoneAtEscape r rest (i :: items) ∧
          spoilt .str (Regex.replaceFrom plain.unit r f 0 b (itemsText (i :: items) ++ '"'.toNat :: rest)) = true := by
        cases i with
        | unit u => exact .inl (steps_unit ht rest b u items hvalid)
        | letter e => exact .inl (steps_letter ht rest b e items hvalid)
        | number a b' c d => exact steps_number ht hstar rest b a b' c d items (hvalid _ List.mem_cons_self)
      rcases hstep with ⟨done, items', written, hitems, hne, hwritten, hrun, hnone⟩ | ⟨hnone, hspoilt⟩
      · have hpos := List.length_pos_iff.2 hne
        have hrest := ih items'.length (by rw [← hlen, hitems, List.length_append]; omega) ((itemsText done).reverse ++ b) items'
          (fun j hj => hvalid j (by rw [hitems]; exact List.mem_append_right done hj)) rfl
        rw [hrun, hnone, hitems, itemsText_append, List.reverse_append, List.append_assoc]
        constructor
        · intro h
          obtain ⟨written', hwritten', hrun'⟩ := hrest.1 h
          refine ⟨written ++ written', fun j hj => (List.mem_append.1 hj).elim (hwritten j) (hwritten' j), ?_⟩
          rw [hrun', itemsText_append, List.append_assoc]
        · intro h
          rw [spoilt_append, (items_read hwritten).1, hrest.2 h, Bool.or_true]
      · exact ⟨fun h => absurd h hnone, fun _ => hspoilt⟩

end Pass

/-! ## Documents -/

theorem numeral_units (n : Numeral) : ∀ u ∈ n.text, isDigit u = true ∨ isOf "-+.eE" u = true := by
  have hexp : ∀ e : Exponent, ∀ u ∈ e.text, isDigit u = true ∨ isOf "-+.eE" u = true := by
    intro e u hu
    rw [Exponent.text, List.mem_cons, List.mem_append] at hu
    rcases hu with rfl | hsign | hdigit
    · rcases e.isLetter with h | h
      · rw [h]; exact .inr (by decide)
      · rw [h]; exact .inr (by decide)
    · rcases e.isSign u (Option.mem_toList.1 hsign) with rfl | rfl
      · exact .inr (by decide)
      · exact .inr (by decide)
    · exact .inl (e.allDigits u hdigit)
  intro u hu
  rw [Numeral.text, List.mem_append, List.mem_append, List.mem_append] at hu
  rcases hu with hu | hu | hu | hu
  · rw [Numeral.minus] at hu
    split at hu
    · rw [List.mem_singleton.1 hu]; exact .inr (by decide)
    · cases hu
  · exact .inl (n.whole_digits u hu)
  · rw [Numeral.point] at hu
    split at hu
    · cases hu
    · rcases List.mem_cons.1 hu with rfl | hu
      · exact .inr (by decide)
      · exact .inl (n.fraction_digits u hu)
  · rw [Numeral.power] at hu
    cases he : n.exponent with
    | none => rw [he] at hu; cases hu
    | some e => rw [he] at hu; exact hexp e u hu

theorem numeral_not {n : Numeral} {u : Nat} (h : isDigit u = false ∧ isOf "-+.eE" u = false) : u ∉ n.text := by
  intro hmem
  rcases numeral_units n u hmem with hd | ho
  · rw [h.1] at hd; cases hd
  · rw [h.2] at ho; cases ho

/-- Outside strings there is no `*`. -/
theorem lexeme_read {l : Lexeme} (hvalid : ∀ items, l = .str items → ∀ i ∈ items, i.valid = true) :
    read .out l.text = .out ∧ spoilt .out l.text = false := by
  cases l with
  | blank b => cases b <;> decide
  | mark m => cases m <;> decide
  | name n => cases n <;> decide
  | num n => exact ⟨read_out (numeral_not (by decide)), spoilt_of_no_star (numeral_not (by decide)) _⟩
  | str items =>
    obtain ⟨hread, hspoilt⟩ := items_read (hvalid items rfl)
    have hopen : Mode.out.step '"'.toNat = .str := rfl
    rw [Lexeme.text, read, List.foldl_cons, spoilt, hopen, ← read, read_append, spoilt_append, hread, hspoilt]
    exact ⟨rfl, rfl⟩

theorem text_not_spoilt {ls : List Lexeme} (hvalid : ∀ items, .str items ∈ ls → ∀ i ∈ items, i.valid = true) :
    spoilt .out (text ls) = false := by
  induction ls with
  | nil => rfl
  | cons l ls ih =>
    obtain ⟨hread, hspoilt⟩ := lexeme_read (l := l) fun items hl => hvalid items (hl ▸ List.mem_cons_self)
    rw [text_cons, spoilt_append, hread, hspoilt, ih fun items hmem => hvalid items (List.mem_cons_of_mem l hmem)]
    rfl

end ClusterGate.Sanitizer
