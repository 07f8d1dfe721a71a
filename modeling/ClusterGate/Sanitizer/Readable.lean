/-
  ClusterGate.Sanitizer.Readable — which JSON documents a masked text still is.

  A pass goes over the tokens of a document and either leaves the outline of each as it is or
  writes a `*` where no JSON text has one, which no later pass takes away.
  - `readable_iff`: the output is a document of the same shape exactly if no address begins at
    the `u` of an escape, and each number that looks like a card number, a social security
    number or a phone number is nothing but digits directly behind `[`, `:` or `,`.
  - `number_on_its_own_line`: the numbers of an indented array are masked.
-/

import ClusterGate.Sanitizer.Phone

namespace ClusterGate.Sanitizer

open Lib
open Lib.JsonLexemes hiding isDigit

/-! ## What a pass does to a token -/

def Valid (ls : List Lexeme) : Prop := ∀ items, .str items ∈ ls → ∀ i ∈ items, i.valid = true

section Pass

variable {r : Regex Nat} {f : List Nat → List Nat → List Nat → List Nat}

/-- A pass leaves the outline of a token as it is if the condition holds, and else writes a `*`
    outside the strings. -/
structure Outlines (r : Regex Nat) (f : List Nat → List Nat → List Nat → List Nat) (P : Prop) (before : List Lexeme) (l : Lexeme)
    (todo : List Lexeme) : Prop where
  keeps : P → ∃ l', l'.outline = l.outline ∧ Valid [l'] ∧
    Regex.replaceFrom plain.unit r f 0 (rtext before) (text (l :: todo)) =
      l'.text ++ Regex.replaceFrom plain.unit r f 0 (rtext (l :: before)) (text todo)
  spoils : ¬P → Spoils r f (rtext before) (text (l :: todo))

theorem valid_of_not_str {l : Lexeme} (h : ∀ items, l ≠ .str items) : Valid [l] := by
  intro items hmem
  exact absurd (List.mem_singleton.1 hmem).symm (h items)

theorem outlines_of_goes {P : Prop} {before todo : List Lexeme} {l : Lexeme} (hl : ∀ items, l ≠ .str items)
    (h : Goes r f P (rtext before) l.text (text todo)) : Outlines r f P before l todo :=
  ⟨fun hP => ⟨l, rfl, valid_of_not_str hl, h.keeps hP⟩, h.spoils⟩

theorem find_quote (ht : Tame r f) (b rest : List Nat) : r.find plain.unit b ('"'.toNat :: rest) = none := by
  refine Regex.find_eq_none_iff.2 fun m after hsplit hdesc => ?_
  cases m with
  | nil => exact ht.solid _ _ _ hdesc rfl
  | cons u m =>
    obtain ⟨rfl, -⟩ := List.cons_eq_cons.1 hsplit
    exact (ht.bare hdesc _ List.mem_cons_self).1 rfl

theorem outlines_str (ht : Tame r f)
    (hstar : ∀ {b m after}, r.find plain.unit b ('u'.toNat :: m ++ after) = some ('u'.toNat :: m, after) →
      ∃ w, f b ('u'.toNat :: m) after = 'u'.toNat :: '*'.toNat :: w)
    (before todo : List Lexeme) {items : List Item} (hvalid : ∀ i ∈ items, i.valid = true) :
    Outlines r f (NoneAtEscape r (text todo) items) before (.str items) todo := by
  have htext : text (.str items :: todo) = '"'.toNat :: (itemsText items ++ '"'.toNat :: text todo) := by
    simp [Lexeme.text]
  have hrun := string_run ht hstar (text todo) ('"'.toNat :: rtext before) items hvalid
  have hopen := Regex.replaceFrom_none (f := f) (find_quote ht (rtext before) (itemsText items ++ '"'.toNat :: text todo))
  constructor
  · intro hnone
    obtain ⟨items', hvalid', hitems⟩ := hrun.1 hnone
    refine ⟨.str items', rfl, fun xs hxs => ?_, ?_⟩
    · obtain rfl : xs = items' := by injection List.mem_singleton.1 hxs
      exact hvalid'
    · rw [htext, hopen, hitems, Regex.replaceFrom_none (find_quote ht _ _)]
      simp [Lexeme.text]
  · intro hnot
    have hspoilt := hrun.2 hnot
    rw [Spoils, htext, hopen, spoilt]
    simpa [Mode.step] using hspoilt

/-- No match begins with a unit of the text. -/
def Shuns (r : Regex Nat) (s : String) : Prop := (s.toList.all fun c => !r.begins c.toNat) = true

instance (r : Regex Nat) (s : String) : Decidable (Shuns r s) :=
  inferInstanceAs (Decidable ((s.toList.all fun c => !r.begins c.toNat) = true))

theorem Shuns.begins {s : String} (h : Shuns r s) {u : Nat} (hu : isOf s u = true) : r.begins u = false := by
  rw [isOf, List.any_eq_true] at hu
  obtain ⟨c, hc, hcu⟩ := hu
  rw [eq_of_beq hcu]
  simpa using List.all_eq_true.1 h c hc

def Marks : String := "[]\x7b\x7d,: \t\n\r"
def Letters : String := "nultrefas"

theorem mark_isOf (m : JsonLexemes.Mark) : isOf Marks m.unit = true := by
  cases m <;> decide

theorem blank_isOf (b : Blank) : isOf Marks b.unit = true := by
  cases b <;> decide

theorem name_isOf (n : Name) : ∀ u ∈ n.text, isOf Letters u = true := by
  cases n <;> decide

theorem outlines_mark (ht : Tame r f) (h : Shuns r Marks) (before todo : List Lexeme) (m : JsonLexemes.Mark) :
    Outlines r f True before (.mark m) todo := by
  refine outlines_of_goes (fun _ hcon => by cases hcon) (goes_begins ht ?_ ?_ _ _)
  · cases m <;> decide
  · intro u hu
    rw [List.mem_singleton.1 hu]
    exact h.begins (mark_isOf m)

theorem outlines_blank (ht : Tame r f) (h : Shuns r Marks) (before todo : List Lexeme) (b : Blank) :
    Outlines r f True before (.blank b) todo := by
  refine outlines_of_goes (fun _ hcon => by cases hcon) (goes_begins ht ?_ ?_ _ _)
  · cases b <;> decide
  · intro u hu
    rw [List.mem_singleton.1 hu]
    exact h.begins (blank_isOf b)

end Pass

/-- What a pass does to each token of a document. -/
structure Treats (r : Regex Nat) (f : List Nat → List Nat → List Nat → List Nat) (Fine : List Lexeme → Lexeme → Prop) : Prop where
  tame : Tame r f
  token : ∀ {before l todo}, Linked before (l :: todo) → Valid (l :: todo) → Outlines r f (Fine before l) before l todo

/-! ## The passes -/

/-- No address begins at the `u` of an escape. -/
def emailFine (_ : List Lexeme) : Lexeme → Prop
  | .str items => NoneAtEscape patterns.email [] items
  | _ => True

def numberFine (P : List Lexeme → Numeral → Prop) (before : List Lexeme) : Lexeme → Prop
  | .num n => P before n
  | _ => True

/-- A number that looks like a phone number stands as a bare JSON number. -/
def LeavesPhone (before : List Lexeme) (n : Numeral) : Prop :=
  LooksPhone n → onlyDigits n = true ∧ direct before = true

theorem noneAtEscape_of_shuns {r : Regex Nat} {f : List Nat → List Nat → List Nat → List Nat} (ht : Tame r f)
    (hu : r.begins 'u'.toNat = false) (rest : List Nat) (items : List Item) : NoneAtEscape r rest items := by
  induction items with
  | nil => trivial
  | cons i items ih =>
    cases i with
    | unit u => exact ih
    | letter u => exact ih
    | number a b c d =>
      refine ⟨fun m after hsplit hdesc => ?_, ih⟩
      exact Regex.find_eq_none_iff.1 (find_begins ht hu ['\\'.toNat] _) m after hsplit hdesc

/-- A pass that only numbers matter to. -/
theorem treats_numbers {r : Regex Nat} {f : List Nat → List Nat → List Nat → List Nat} {P : List Lexeme → Numeral → Prop} (ht : Tame r f)
    (hmarks : Shuns r Marks) (hletters : Shuns r Letters)
    (hnumber : ∀ {before todo n}, Linked before (.num n :: todo) → Goes r f (P before n) (rtext before) n.text (text todo)) :
    Treats r f (numberFine P) where
  tame := ht
  token {before l todo} hlinked hvalid := by
    have hu : r.begins 'u'.toNat = false := hletters.begins (by decide)
    cases l with
    | blank b => exact outlines_blank ht hmarks before todo b
    | mark m => exact outlines_mark ht hmarks before todo m
    | num n => exact outlines_of_goes (fun _ hcon => by cases hcon) (hnumber hlinked)
    | name n =>
      refine outlines_of_goes (fun _ hcon => by cases hcon) (goes_begins ht ?_ (fun u h => hletters.begins (name_isOf n u h)) _ _)
      cases n <;> decide
    | str items =>
      have hstr := outlines_str ht (fun hfind => ?_) before todo (hvalid items List.mem_cons_self)
      · exact ⟨fun _ => hstr.keeps (noneAtEscape_of_shuns ht hu _ _), fun hnot => absurd trivial hnot⟩
      · rw [List.cons_append, find_begins ht hu] at hfind
        cases hfind

theorem card_treats : Treats patterns.creditCard (unlessJsonNumber plain (maskCard plain)) (numberFine (LeavesGroups changesCard)) :=
  treats_numbers card_tame (by decide +kernel) (by decide +kernel) creditCard_ofDigits.number

theorem ssn_treats : Treats patterns.ssn (unlessJsonNumber plain (maskSSN plain)) (numberFine (LeavesGroups changesSSN)) :=
  treats_numbers ssn_tame (by decide +kernel) (by decide +kernel) ssn_ofDigits.number

theorem phone_treats : Treats patterns.phone (unlessJsonNumber plain (maskPhone plain)) (numberFine LeavesPhone) :=
  treats_numbers phone_tame (by decide +kernel) (by decide +kernel) phone_number

theorem iban_treats : Treats patterns.iban (fun _ m _ => maskIBAN plain m) (numberFine fun _ _ => True) :=
  treats_numbers iban_tame (by decide +kernel) (by decide +kernel) fun _ => iban_number

/-- What follows a string does not matter to the addresses in it. -/
theorem noneAtEscape_rest {r : Regex Nat} {f : List Nat → List Nat → List Nat → List Nat} (ht : Tame r f) (rest rest' : List Nat)
    (items : List Item) (h : NoneAtEscape r rest items) : NoneAtEscape r rest' items := by
  induction items with
  | nil => trivial
  | cons i items ih =>
    cases i with
    | unit u => exact ih h
    | letter u => exact ih h
    | number a b c d =>
      refine ⟨fun m after hsplit hdesc => ?_, ih h.2⟩
      have hquote : '"'.toNat ∉ m := fun hmem => (ht.bare hdesc _ hmem).1 rfl
      have hitems : ('u'.toNat :: a :: b :: c :: d :: itemsText items) ++ '"'.toNat :: rest' = m ++ after := hsplit
      rcases List.append_eq_append_iff.1 hitems with ⟨z, hm, htail⟩ | ⟨z, hxs, hafter⟩
      · cases z with
        | nil =>
          refine h.1 m ('"'.toNat :: rest) (by rw [hm]; simp [fromEscape]) (Regex.describes_congr r rfl ?_ hdesc)
          rw [← List.nil_append after, ← htail]
          rfl
        | cons v z =>
          obtain ⟨rfl, -⟩ := List.cons_eq_cons.1 htail
          exact absurd (by rw [hm]; simp) hquote
      · refine h.1 m (z ++ '"'.toNat :: rest) ?_ (Regex.describes_congr r rfl (by rw [hafter]; cases z <;> rfl) hdesc)
        rw [← List.append_assoc, ← hxs]
        rfl

theorem follows_email {todo : List Lexeme} (h : Follows todo) :
    (text todo).head?.any (fun u => patterns.isLocal u || isOf "@" u) = false := by
  cases todo with
  | nil => rfl
  | cons l todo =>
    rcases follows_cases h with ⟨b, rfl, -⟩ | ⟨m, rfl, -⟩
    · cases b <;> rfl
    · cases m <;> rfl

theorem email_treats : Treats patterns.email (fun _ m _ => maskEmail plain m) emailFine where
  tame := email_tame
  token {before l todo} hlinked hvalid := by
    have hmarks : Shuns patterns.email Marks := by decide +kernel
    cases l with
    | blank b => exact outlines_blank email_tame hmarks before todo b
    | mark m => exact outlines_mark email_tame hmarks before todo m
    | num n =>
      refine outlines_of_goes (fun _ hcon => by cases hcon) (email_outside (fun u hu => ?_) (follows_email (hlinked.behind rfl)) _)
      rcases numeral_units n u hu with hdigit | hother
      · simp [patterns.isLocal, hdigit]
      · rw [isOf, List.any_eq_true] at hother
        obtain ⟨c, hc, hcu⟩ := hother
        have hall : ("-+.eE".toList.all fun c => patterns.isLocal c.toNat) = true := by decide +kernel
        rw [eq_of_beq hcu]
        exact List.all_eq_true.1 hall c hc
    | name n =>
      refine outlines_of_goes (fun _ hcon => by cases hcon) (email_outside ?_ (follows_email (hlinked.behind rfl)) _)
      cases n <;> decide
    | str items =>
      have hstr := outlines_str email_tame (fun hfind => ?_) before todo (hvalid items List.mem_cons_self)
      · exact ⟨fun h => hstr.keeps (noneAtEscape_rest email_tame _ _ _ h),
          fun hnot => hstr.spoils fun h => hnot (noneAtEscape_rest email_tame _ _ _ h)⟩
      · obtain ⟨c, l, d, hm, hc, hl, hd, hdomain, -⟩ := email_describes (Regex.find_eq_some hfind).2
        obtain ⟨rfl, -⟩ := List.cons_eq_cons.1 hm
        rw [hm, maskEmail_eq hc hl hd hdomain]
        exact ⟨_, rfl⟩

/-! ## All tokens of a document -/

/-- The condition holds of every token, before which the others stand. -/
def AllFine (F : List Lexeme → Lexeme → Prop) : List Lexeme → List Lexeme → Prop
  | _, [] => True
  | before, l :: todo => F before l ∧ AllFine F (l :: before) todo

theorem Treats.run {r : Regex Nat} {f : List Nat → List Nat → List Nat → List Nat} {F : List Lexeme → Lexeme → Prop} (h : Treats r f F)
    {before todo : List Lexeme} (hlinked : Linked before todo) (hvalid : Valid todo) :
    (AllFine F before todo → ∃ todo', todo'.map Lexeme.outline = todo.map Lexeme.outline ∧ Valid todo' ∧
      Regex.replaceFrom plain.unit r f 0 (rtext before) (text todo) = text todo') ∧
    (¬AllFine F before todo → Spoils r f (rtext before) (text todo)) := by
  induction todo generalizing before with
  | nil => exact ⟨fun _ => ⟨[], rfl, hvalid, Regex.replaceFrom_nil h.tame.solid _⟩, fun hnot => absurd trivial hnot⟩
  | cons l todo ih =>
    have htoken := h.token hlinked hvalid
    have hrest := ih (linked_next.1 hlinked) fun items hmem => hvalid items (List.mem_cons_of_mem l hmem)
    constructor
    · intro ⟨hfirst, hall⟩
      obtain ⟨l', hl', hvalid', hout⟩ := htoken.keeps hfirst
      obtain ⟨todo', houtline, hvalid'', hrun⟩ := hrest.1 hall
      refine ⟨l' :: todo', by rw [List.map_cons, hl', houtline, List.map_cons], fun items hmem => ?_, by rw [hout, hrun]; rfl⟩
      rcases List.mem_cons.1 hmem with rfl | hmem
      · exact hvalid' items List.mem_cons_self
      · exact hvalid'' items hmem
    · intro hnot
      by_cases hfirst : F before l
      · obtain ⟨l', -, hvalid', hout⟩ := htoken.keeps hfirst
        have hspoilt := hrest.2 fun hall => hnot ⟨hfirst, hall⟩
        have hread := (lexeme_read (l := l') fun items hl => hvalid' items (hl ▸ List.mem_cons_self)).1
        rw [Spoils] at hspoilt ⊢
        rw [hout, spoilt_append, hread, hspoilt, Bool.or_true]
      · exact htoken.spoils hfirst

theorem direct_outline {before before' : List Lexeme} (h : before.map Lexeme.outline = before'.map Lexeme.outline) :
    direct before = direct before' := by
  have hdirect : ∀ before : List Lexeme, direct (before.map Lexeme.outline) = direct before := by
    intro before
    induction before with
    | nil => rfl
    | cons l before ih =>
      cases l with
      | blank b => cases b <;> first | exact ih | rfl
      | _ => rfl
  rw [← hdirect before, h, hdirect]

/-- Where only numbers matter the outlines do. -/
theorem allFine_outline {P : List Lexeme → Numeral → Prop}
    (hP : ∀ {before before' : List Lexeme} (n : Numeral), direct before = direct before' → (P before n ↔ P before' n))
    {before before' todo todo' : List Lexeme} (hbefore : before.map Lexeme.outline = before'.map Lexeme.outline)
    (htodo : todo.map Lexeme.outline = todo'.map Lexeme.outline) :
    AllFine (numberFine P) before todo ↔ AllFine (numberFine P) before' todo' := by
  induction todo generalizing before before' todo' with
  | nil =>
    obtain rfl : todo' = [] := by simpa using htodo.symm
    exact Iff.rfl
  | cons l todo ih =>
    obtain ⟨l', todo', rfl⟩ : ∃ l' ts, todo' = l' :: ts := List.exists_cons_of_ne_nil fun hnil => by simp [hnil] at htodo
    rw [List.map_cons, List.map_cons, List.cons.injEq] at htodo
    have hfirst : numberFine P before l ↔ numberFine P before' l' := by
      cases l <;> cases l' <;> simp only [Lexeme.outline, reduceCtorEq, false_and] at htodo
      case num.num n n' =>
        obtain rfl : n = n' := by injection htodo.1
        exact hP n (direct_outline hbefore)
      all_goals exact Iff.rfl
    exact and_congr hfirst (ih (by simp [hbefore, htodo.1]) htodo.2)

/-! ## One pass after the other -/

/-- What has become of a document: another of the same outline if the condition holds, and else
    a text with a `*` outside its strings. -/
structure Outcome (ls : List Lexeme) (P : Prop) (out : List Nat) : Prop where
  keeps : P → ∃ ls', Document ls' ∧ ls'.map Lexeme.outline = ls.map Lexeme.outline ∧ out = text ls'
  spoils : ¬P → spoilt .out out = true

theorem Outcome.refl {ls : List Lexeme} (h : Document ls) : Outcome ls True (text ls) :=
  ⟨fun _ => ⟨ls, h, rfl, rfl⟩, fun hnot => absurd trivial hnot⟩

theorem Outcome.congr {ls : List Lexeme} {P Q : Prop} {out : List Nat} (h : Outcome ls P out) (hiff : P ↔ Q) : Outcome ls Q out :=
  ⟨fun hQ => h.keeps (hiff.2 hQ), fun hQ => h.spoils fun hP => hQ (hiff.1 hP)⟩

/-- A pass that may be switched off; which tokens it spares depends on the outline only, or it
    is the first. -/
theorem Outcome.next {ls : List Lexeme} {P : Prop} {out : List Nat} (h : Outcome ls P out) {r : Regex Nat}
    {f : List Nat → List Nat → List Nat → List Nat} {F : List Lexeme → Lexeme → Prop} (ht : Treats r f F) (on : Bool)
    (hF : ∀ ls', out = text ls' → Document ls' → ls'.map Lexeme.outline = ls.map Lexeme.outline →
      ∃ ls'', Document ls'' ∧ ls''.map Lexeme.outline = ls.map Lexeme.outline ∧ out = text ls'' ∧
        (AllFine F [] ls'' ↔ AllFine F [] ls)) :
    Outcome ls (P ∧ (on = true → AllFine F [] ls)) (passIf on (Regex.replaceAll plain.unit r f) out) := by
  cases on with
  | false => exact h.congr (by simp)
  | true =>
    constructor
    · intro ⟨hP, hall⟩
      obtain ⟨ls', hdoc, houtline, hout⟩ := h.keeps hP
      obtain ⟨ls'', hdoc'', houtline'', hout'', hiff⟩ := hF ls' hout hdoc houtline
      obtain ⟨todo', htodo, hvalid, hrun⟩ := (ht.run hdoc''.linked hdoc''.strings).1 (hiff.2 (hall rfl))
      refine ⟨todo', hdoc''.of_outline htodo hvalid, htodo.trans houtline'', ?_⟩
      rw [hout'']
      exact hrun
    · intro hnot
      by_cases hP : P
      · obtain ⟨ls', hdoc, houtline, hout⟩ := h.keeps hP
        obtain ⟨ls'', hdoc'', houtline'', hout'', hiff⟩ := hF ls' hout hdoc houtline
        have hspoils := (ht.run hdoc''.linked hdoc''.strings).2 fun hall => hnot ⟨hP, fun _ => hiff.1 hall⟩
        rw [hout'']
        exact hspoils
      · exact spoilt_replaceFrom ht.tame [] out .out (h.spoils hP)

theorem Outcome.nextNumbers {ls : List Lexeme} {P : Prop} {out : List Nat} (h : Outcome ls P out) {r : Regex Nat}
    {f : List Nat → List Nat → List Nat → List Nat} {Q : List Lexeme → Numeral → Prop} (ht : Treats r f (numberFine Q)) (on : Bool)
    (hQ : ∀ {before before' : List Lexeme} (n : Numeral), direct before = direct before' → (Q before n ↔ Q before' n)) :
    Outcome ls (P ∧ (on = true → AllFine (numberFine Q) [] ls)) (passIf on (Regex.replaceAll plain.unit r f) out) :=
  h.next ht on fun ls' hout hdoc houtline => ⟨ls', hdoc, houtline, hout, allFine_outline hQ rfl houtline⟩

/-! ## The masked document -/

/-- What the passes that are on spare of a document. -/
structure Readable (cfg : SanitizerConfig) (ls : List Lexeme) : Prop where
  emails : cfg.maskEmails = true → AllFine emailFine [] ls
  cards : cfg.maskCreditCards = true → AllFine (numberFine (LeavesGroups changesCard)) [] ls
  ssns : cfg.maskSSNs = true → AllFine (numberFine (LeavesGroups changesSSN)) [] ls
  phones : cfg.maskPhoneNumbers = true → AllFine (numberFine LeavesPhone) [] ls

theorem allFine_true (before todo : List Lexeme) : AllFine (numberFine fun _ _ => True) before todo := by
  induction todo generalizing before with
  | nil => trivial
  | cons l todo ih =>
    refine ⟨?_, ih (l :: before)⟩
    cases l <;> trivial

theorem mask_outcome {cfg : SanitizerConfig} (hcustoms : cfg.customPatterns = []) {ls : List Lexeme} (h : Document ls) :
    Outcome ls (Readable cfg ls) (mask plain cfg (text ls)) := by
  have hemails := (Outcome.refl h).next email_treats cfg.maskEmails fun _ hout _ _ => ⟨ls, h, rfl, rfl, Iff.rfl⟩
  have hcards := hemails.nextNumbers card_treats cfg.maskCreditCards fun n hdirect => by simp only [LeavesGroups, hdirect]
  have hssns := hcards.nextNumbers ssn_treats cfg.maskSSNs fun n hdirect => by simp only [LeavesGroups, hdirect]
  have hphones := hssns.nextNumbers phone_treats cfg.maskPhoneNumbers fun n hdirect => by simp only [LeavesPhone, hdirect]
  have hibans := hphones.nextNumbers iban_treats cfg.maskIBANs fun n _ => Iff.rfl
  rw [mask, hcustoms]
  refine hibans.congr ⟨fun hall => ?_, fun hreadable => ?_⟩
  · obtain ⟨⟨⟨⟨⟨-, hemails⟩, hcards⟩, hssns⟩, hphones⟩, -⟩ := hall
    exact ⟨hemails, hcards, hssns, hphones⟩
  · exact ⟨⟨⟨⟨⟨trivial, hreadable.emails⟩, hreadable.cards⟩, hreadable.ssns⟩, hreadable.phones⟩, fun _ => allFine_true [] ls⟩

theorem text_ne_nil {ls : List Lexeme} (h : Document ls) : text ls ≠ [] := by
  intro hnil
  have hkinds : kinds ls = [] := by
    rw [kinds, List.filterMap_eq_nil_iff]
    intro l hl
    have htext : l.text = [] := List.flatMap_eq_nil_iff.1 hnil l hl
    cases l with
    | blank b => rfl
    | mark m => cases htext
    | name n => cases n <;> cases htext
    | num n =>
      obtain ⟨u, hu, -⟩ := numeral_last n
      rw [show n.text = [] from htext] at hu
      cases hu
    | str items => cases htext
  exact (derives_adjacent h.grammar).1.ne_nil hkinds

/-- With built-in patterns only, the masked text of a document is a document of the same shape,
    with the same numbers, exactly if the passes that are on spare it. -/
theorem readable_iff {configCache : Option SanitizerConfig} (hcustoms : (configCache.getD DEFAULT_CONFIG).customPatterns = [])
    {ls : List Lexeme} (h : Document ls) :
    (∃ ls', Document ls' ∧ SameShape ls ls' ∧ sanitizeText plain configCache (some (text ls)) = some (text ls')) ↔
      ((configCache.getD DEFAULT_CONFIG).enabled = true → Readable (configCache.getD DEFAULT_CONFIG) ls) := by
  have hout : sanitizeText plain configCache (some (text ls)) =
      some (if (configCache.getD DEFAULT_CONFIG).enabled then mask plain (configCache.getD DEFAULT_CONFIG) (text ls) else text ls) := by
    obtain ⟨u, us, htext⟩ := List.exists_cons_of_ne_nil (text_ne_nil h)
    rw [htext]
    simp only [sanitizeText]
    split <;> rfl
  have houtcome := mask_outcome hcustoms h
  rw [hout]
  cases henabled : (configCache.getD DEFAULT_CONFIG).enabled with
  | false => exact iff_of_true ⟨ls, h, rfl, rfl⟩ fun hcon => by cases hcon
  | true =>
    rw [if_pos rfl]
    constructor
    · intro hread _
      obtain ⟨ls', hdoc, _, heq⟩ := hread
      by_contra hnot
      have hspoilt := houtcome.spoils hnot
      rw [Option.some.inj heq, text_not_spoilt hdoc.strings] at hspoilt
      cases hspoilt
    · intro hreadable
      obtain ⟨ls', hdoc, houtline, heq⟩ := houtcome.keeps (hreadable rfl)
      exact ⟨ls', hdoc, sameShape_of_outline houtline, congrArg some heq⟩

/-- A number without sign, fraction and exponent. -/
def digitsNumeral (whole : List Nat) (h : ∀ u ∈ whole, isDigit u = true) (hne : whole ≠ [])
    (hzero : whole.head? = some '0'.toNat → whole = ['0'.toNat]) : Numeral :=
  ⟨false, whole, [], none, h, hne, hzero, by simp⟩

/-- `1234567890` -/
def tenDigits : Numeral := digitsNumeral (units "1234567890") (by decide) (by decide) (by decide)

/-- `[1234567890]` -/
def onOneLine : List Lexeme := [.mark .openArray, .num tenDigits, .mark .closeArray]

/-- The same array with its number on a line of its own. -/
def onItsOwnLine : List Lexeme := [.mark .openArray, .blank .newline, .num tenDigits, .blank .newline, .mark .closeArray]

theorem readable_on_one_line :
    ∃ ls', Document ls' ∧ SameShape onOneLine ls' ∧ sanitizeText plain none (some (text onOneLine)) = some (text ls') := by
  have hdoc : Document onOneLine := ⟨fun items hmem => by simp [onOneLine] at hmem, .array (.lastElement .scalar)⟩
  have hcustoms : (Option.getD none DEFAULT_CONFIG).customPatterns = [] := rfl
  refine (readable_iff hcustoms hdoc).2 fun _ => ⟨fun _ => ?_, fun _ => ?_, fun _ => ?_, fun _ => ?_⟩
  · simp [onOneLine, AllFine, emailFine]
  · simp only [onOneLine, AllFine, numberFine, true_and, and_true, LeavesGroups]
    decide
  · simp only [onOneLine, AllFine, numberFine, true_and, and_true, LeavesGroups]
    decide
  · simp only [onOneLine, AllFine, numberFine, true_and, and_true, LeavesPhone]
    decide

/-- The line break keeps the number from being bare, and `123***-****` is no number. -/
theorem number_on_its_own_line :
    Document onItsOwnLine ∧ sanitizeText plain none (some (text onItsOwnLine)) = some (units "[\n123***-****\n]") ∧
      ¬∃ ls', Document ls' ∧ SameShape onItsOwnLine ls' ∧
        sanitizeText plain none (some (text onItsOwnLine)) = some (text ls') := by
  have hout : sanitizeText plain none (some (text onItsOwnLine)) = some (units "[\n123***-****\n]") := by decide +kernel
  refine ⟨⟨fun items hmem => by simp [onItsOwnLine] at hmem, .array (.lastElement .scalar)⟩, hout, ?_⟩
  rw [hout]
  intro ⟨ls', hdoc, _, heq⟩
  have hspoilt : spoilt .out (units "[\n123***-****\n]") = true := by decide +kernel
  rw [Option.some.inj heq, text_not_spoilt hdoc.strings] at hspoilt
  cases hspoilt

end ClusterGate.Sanitizer
