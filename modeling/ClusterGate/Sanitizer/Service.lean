/-
  ClusterGate.Sanitizer.Service — what is masked in a body before it is logged
  (`sanitizerService`).

  A text is a list of elements that carry UTF-16 units. Read as plain units this is the
  service's own text; when each element also carries its place in the text, the output tells
  which of its units are those of the input and which were written by a mask.
  - `sanitizeText_map`: the units of the output depend on the units of the text only.
-/

import ClusterGate.Lib.Regex

namespace ClusterGate.Sanitizer

open Lib

/-! ## Units -/

def isDigit (u : Nat) : Bool := '0'.toNat ≤ u && u ≤ '9'.toNat
def isUpper (u : Nat) : Bool := 'A'.toNat ≤ u && u ≤ 'Z'.toNat
def isLower (u : Nat) : Bool := 'a'.toNat ≤ u && u ≤ 'z'.toNat
def isLetter (u : Nat) : Bool := isUpper u || isLower u

/-- `[…]` with the characters of a text. -/
def isOf (s : String) (u : Nat) : Bool := s.toList.any fun c => u == c.toNat

/-- `\w` -/
def isWord (u : Nat) : Bool := isLetter u || isDigit u || u == '_'.toNat

/-- `\s` -/
def isSpace (u : Nat) : Bool :=
  (9 ≤ u && u ≤ 13) || u == 0x20 || u == 0xA0 || u == 0x1680 || (0x2000 ≤ u && u ≤ 0x200A) || u == 0x2028 ||
    u == 0x2029 || u == 0x202F || u == 0x205F || u == 0x3000 || u == 0xFEFF

/-! ## Patterns -/

/-- `\b` -/
def boundary : Regex Nat := .look fun before after => before.any isWord != after.any isWord

/-- `(?<!p)` -/
def notBehind (p : Nat → Bool) : Regex Nat := .look fun before _ => !before.any p

/-- `(?!p)` -/
def notAhead (p : Nat → Bool) : Regex Nat := .look fun _ after => !after.any p

/-- `$` -/
def atEnd : Regex Nat := .look fun _ after => after.isNone

namespace patterns

def isLocal (u : Nat) : Bool := isLetter u || isDigit u || isOf "._%+-" u
def isDomain (u : Nat) : Bool := isLetter u || isDigit u || isOf ".-" u
def isTop (u : Nat) : Bool := isLetter u || isOf "|" u

def email : Regex Nat :=
  .chain [boundary, .plus isLocal, .one (isOf "@"), .plus isDomain, .one (isOf "."), .one isTop, .one isTop, .many isTop,
    boundary]

def creditCard : Regex Nat :=
  .chain [boundary, .times (.seq (.one isDigit) (.lazy (isOf " -"))) 13 19, boundary]

def isDashSpace (u : Nat) : Bool := isOf "-" u || isSpace u

def ssn : Regex Nat :=
  .chain [boundary, .exactly 3 isDigit, .upTo 1 isDashSpace, .exactly 2 isDigit, .upTo 1 isDashSpace, .exactly 4 isDigit,
    boundary]

def isDashDotSpace (u : Nat) : Bool := isOf "-." u || isSpace u

def phone : Regex Nat :=
  .chain [notBehind fun u => isWord u || isOf ".+-" u,
    .times (.chain [.one (isOf "+"), .times (.one isDigit) 1 3, .upTo 1 isDashDotSpace]) 0 1, .upTo 1 (isOf "("),
    .exactly 3 isDigit, .upTo 1 (isOf ")"), .upTo 1 isDashDotSpace, .exactly 3 isDigit, .upTo 1 isDashDotSpace,
    .exactly 4 isDigit, notAhead fun u => isWord u || isOf "-" u]

def isUpperDigit (u : Nat) : Bool := isDigit u || isUpper u

def iban : Regex Nat :=
  .chain [boundary, .exactly 2 isUpper, .exactly 2 isDigit, .upTo 1 isSpace, .exactly 4 isUpperDigit, .upTo 1 isSpace,
    .exactly 4 isUpperDigit, .upTo 1 isSpace, .exactly 4 isUpperDigit, .upTo 1 isSpace, .exactly 4 isUpperDigit,
    .upTo 1 isSpace, .upTo 4 isUpperDigit, boundary]

end patterns

/-- `/\d{3}[-.\s]?\d{4}$/` -/
def lastDigits : Regex Nat :=
  .chain [.exactly 3 isDigit, .upTo 1 patterns.isDashDotSpace, .exactly 4 isDigit, atEnd]

/-! ## Configuration -/

structure CustomPattern where
  pattern : String
  replacement : String
  deriving DecidableEq

structure SanitizerConfig where
  enabled : Bool
  maskEmails : Bool
  maskCreditCards : Bool
  maskSSNs : Bool
  maskPhoneNumbers : Bool
  maskIBANs : Bool
  customPatterns : List CustomPattern
  deriving DecidableEq

def DEFAULT_CONFIG : SanitizerConfig := ⟨true, true, true, true, true, true, []⟩

/-! ## Masks -/

/-- What the elements of a text are: the unit each carries, the element that is written for
    a unit, and what `text.replace(new RegExp(pattern, 'g'), replacement)` makes of a text,
    nothing where the pattern is no expression. -/
structure Writing (α : Type) where
  unit : α → Nat
  fresh : Nat → α
  replaceCustom : CustomPattern → List α → Option (List α)

/-- A text's own units. -/
def plain : Writing Nat := ⟨id, id, fun _ _ => none⟩

section

variable {α : Type} (W : Writing α)

def literal (s : String) : List α := s.toList.map fun c => W.fresh c.toNat

def digitsOf (m : List α) : List α := m.filter fun a => isDigit (W.unit a)

def isGap (a : α) : Bool := isOf " \t" (W.unit a)

/-- `before` holds the text before the match, the nearest first. -/
def isBareJsonNumber (before m after : List α) : Bool :=
  if m ≠ [] && m.all (fun a => isDigit (W.unit a)) then
    let before := before.dropWhile (isGap W)
    let after := after.dropWhile (isGap W)
    if !(after.head?.all fun a => isOf ",\x7d]\r\n" (W.unit a)) then false
    else match before with
      | [] => false
      | a :: before =>
        if isOf "[" (W.unit a) then true
        else if !isOf ":," (W.unit a) then false
        else
          let prev := (before.dropWhile fun a => isSpace (W.unit a)).head?
          if isOf ":" (W.unit a) then prev.any fun a => isOf "\"" (W.unit a)
          else prev.any fun a => isOf "\"" (W.unit a) || isDigit (W.unit a) || isOf "\x7d]el" (W.unit a)
  else false

def unlessJsonNumber (mask : List α → List α) (before m after : List α) : List α :=
  if isBareJsonNumber W before m after then m else mask m

def maskEmail (m : List α) : List α :=
  let isAt := fun a => isOf "@" (W.unit a)
  let localPart := m.takeWhile fun a => !isAt a
  let domain := (m.dropWhile fun a => !isAt a).tail.takeWhile fun a => !isAt a
  if domain = [] then literal W "[EMAIL]"
  else (match localPart with
    | [] => literal W "undefined"
    | a :: _ => [a]) ++ literal W "***@" ++ domain

def maskCreditCard (m : List α) : List α :=
  let digits := digitsOf W m
  if digits.length < 13 then m
  else digits.take 4 ++ List.replicate (digits.length - 8) (W.fresh '*'.toNat) ++ digits.drop (digits.length - 4)

def maskSSN (m : List α) : List α :=
  let digits := digitsOf W m
  literal W "***-**-" ++ digits.drop (digits.length - 4)

def maskPhone (m : List α) : List α := lastDigits.replaceFirst W.unit (fun _ _ _ => literal W "***-****") [] m

def maskIBAN (m : List α) : List α :=
  let clean := m.filter fun a => !isSpace (W.unit a)
  clean.take 4 ++ literal W " **** **** **** " ++ clean.drop (clean.length - 2)

/-- The sum of the digits, from the last one on. -/
def luhnSum : Bool → List Nat → Nat
  | _, [] => 0
  | double, d :: ds => (if double then if d * 2 > 9 then d * 2 - 9 else d * 2 else d) + luhnSum (!double) ds

def luhnCheck (num : List α) : Bool := luhnSum false (num.reverse.map fun a => W.unit a - '0'.toNat) % 10 = 0

def maskCard (m : List α) : List α :=
  let digits := digitsOf W m
  if 13 ≤ digits.length && digits.length ≤ 19 && luhnCheck W digits then maskCreditCard W m else m

/-! ## Passes -/

def emailPass (text : List α) : List α := patterns.email.replaceAll W.unit (fun _ m _ => maskEmail W m) text
def cardPass (text : List α) : List α := patterns.creditCard.replaceAll W.unit (unlessJsonNumber W (maskCard W)) text
def ssnPass (text : List α) : List α := patterns.ssn.replaceAll W.unit (unlessJsonNumber W (maskSSN W)) text
def phonePass (text : List α) : List α := patterns.phone.replaceAll W.unit (unlessJsonNumber W (maskPhone W)) text
def ibanPass (text : List α) : List α := patterns.iban.replaceAll W.unit (fun _ m _ => maskIBAN W m) text

/-- A pattern that is no expression is skipped. -/
def customPass (text : List α) (custom : CustomPattern) : List α := (W.replaceCustom custom text).getD text

/-- A pass that may be switched off. -/
def passIf (on : Bool) (pass : List α → List α) (text : List α) : List α := if on then pass text else text

def mask (cfg : SanitizerConfig) (text : List α) : List α :=
  let result := passIf cfg.maskEmails (emailPass W) text
  let result := passIf cfg.maskCreditCards (cardPass W) result
  let result := passIf cfg.maskSSNs (ssnPass W) result
  let result := passIf cfg.maskPhoneNumbers (phonePass W) result
  let result := passIf cfg.maskIBANs (ibanPass W) result
  cfg.customPatterns.foldl (customPass W) result

/-- No text stands for `null` and `undefined`. -/
def sanitizeText (configCache : Option SanitizerConfig) (text : Option (List α)) : Option (List α) :=
  let cfg := configCache.getD DEFAULT_CONFIG
  match text with
  | none => none
  | some [] => some []
  | some text => if cfg.enabled then some (mask W cfg text) else some text

end

/-! ## What the elements are -/

section Map

variable {α β : Type} {W : Writing α} {W' : Writing β} {g : α → β}

/-- What is read of the elements of a text is what is read of those they are taken to. -/
structure Reads (W : Writing α) (W' : Writing β) (g : α → β) : Prop where
  unit : ∀ a, W'.unit (g a) = W.unit a
  fresh : ∀ u, g (W.fresh u) = W'.fresh u
  replaceCustom : ∀ custom text, W'.replaceCustom custom (text.map g) = (W.replaceCustom custom text).map (List.map g)

variable (h : Reads W W' g)
include h

theorem literal_map (s : String) : (literal W s).map g = literal W' s := by
  simp [literal, h.fresh]

theorem digitsOf_map (m : List α) : digitsOf W' (m.map g) = (digitsOf W m).map g := by
  rw [digitsOf, digitsOf, List.filter_map]
  simp only [Function.comp_def, h.unit]

theorem isBareJsonNumber_map (before m after : List α) :
    isBareJsonNumber W' (before.map g) (m.map g) (after.map g) = isBareJsonNumber W before m after := by
  have hgap : (fun a => isGap W' (g a)) = isGap W := funext fun a => by rw [isGap, isGap, h.unit]
  simp only [isBareJsonNumber, List.dropWhile_map, Function.comp_def, hgap]
  cases before.dropWhile (isGap W) with
  | nil => simp [h.unit]
  | cons a before => simp [h.unit, Function.comp_def, List.dropWhile_map, Option.all_map, Option.any_map]

theorem unlessJsonNumber_map {mask : List α → List α} {mask' : List β → List β}
    (hmask : ∀ m, mask' (m.map g) = (mask m).map g) (before m after : List α) :
    unlessJsonNumber W' mask' (before.map g) (m.map g) (after.map g) = (unlessJsonNumber W mask before m after).map g := by
  rw [unlessJsonNumber, unlessJsonNumber, isBareJsonNumber_map h, hmask]
  split <;> rfl

theorem maskEmail_map (m : List α) : maskEmail W' (m.map g) = (maskEmail W m).map g := by
  simp only [maskEmail, List.takeWhile_map, List.dropWhile_map, ← List.map_tail, Function.comp_def, h.unit, List.map_eq_nil_iff]
  split
  · exact (literal_map h _).symm
  · simp only [List.map_append, literal_map h]
    congr 2
    cases m.takeWhile fun a => !isOf "@" (W.unit a) with
    | nil => exact (literal_map h _).symm
    | cons a m => rfl

theorem maskCreditCard_map (m : List α) : maskCreditCard W' (m.map g) = (maskCreditCard W m).map g := by
  simp only [maskCreditCard, digitsOf_map h, List.length_map]
  split
  · rfl
  · simp [List.map_take, List.map_drop, h.fresh]

theorem maskSSN_map (m : List α) : maskSSN W' (m.map g) = (maskSSN W m).map g := by
  simp [maskSSN, digitsOf_map h, List.map_drop, literal_map h]

theorem maskPhone_map (m : List α) : maskPhone W' (m.map g) = (maskPhone W m).map g :=
  Regex.replaceFirst_map h.unit _ (fun _ _ _ => (literal_map h _).symm) [] m

theorem maskIBAN_map (m : List α) : maskIBAN W' (m.map g) = (maskIBAN W m).map g := by
  simp only [maskIBAN, List.filter_map, Function.comp_def, h.unit, List.length_map]
  simp [List.map_take, List.map_drop, literal_map h]

theorem luhnCheck_map (num : List α) : luhnCheck W' (num.map g) = luhnCheck W num := by
  simp only [luhnCheck, ← List.map_reverse, List.map_map, Function.comp_def, h.unit]

theorem maskCard_map (m : List α) : maskCard W' (m.map g) = (maskCard W m).map g := by
  simp only [maskCard, digitsOf_map h, List.length_map, luhnCheck_map h, maskCreditCard_map h]
  split <;> rfl

theorem customPass_map (text : List α) (custom : CustomPattern) :
    customPass W' (text.map g) custom = (customPass W text custom).map g := by
  rw [customPass, customPass, h.replaceCustom]
  cases W.replaceCustom custom text <;> rfl

omit h in
theorem passIf_map {on : Bool} {pass : List α → List α} {pass' : List β → List β}
    (hpass : ∀ text, pass' (text.map g) = (pass text).map g) (text : List α) :
    passIf on pass' (text.map g) = (passIf on pass text).map g := by
  rw [passIf, passIf, hpass]
  split <;> rfl

theorem customPasses_map (customs : List CustomPattern) (text : List α) :
    customs.foldl (customPass W') (text.map g) = (customs.foldl (customPass W) text).map g := by
  induction customs generalizing text with
  | nil => rfl
  | cons custom customs ih => rw [List.foldl_cons, List.foldl_cons, customPass_map h, ih]

theorem mask_map (cfg : SanitizerConfig) (text : List α) : mask W' cfg (text.map g) = (mask W cfg text).map g := by
  have hemail : ∀ text, emailPass W' (text.map g) = (emailPass W text).map g :=
    Regex.replaceAll_map h.unit _ fun _ m _ => maskEmail_map h m
  have hcard : ∀ text, cardPass W' (text.map g) = (cardPass W text).map g :=
    Regex.replaceAll_map h.unit _ (unlessJsonNumber_map h (maskCard_map h))
  have hssn : ∀ text, ssnPass W' (text.map g) = (ssnPass W text).map g :=
    Regex.replaceAll_map h.unit _ (unlessJsonNumber_map h (maskSSN_map h))
  have hphone : ∀ text, phonePass W' (text.map g) = (phonePass W text).map g :=
    Regex.replaceAll_map h.unit _ (unlessJsonNumber_map h (maskPhone_map h))
  have hiban : ∀ text, ibanPass W' (text.map g) = (ibanPass W text).map g :=
    Regex.replaceAll_map h.unit _ fun _ m _ => maskIBAN_map h m
  rw [mask, mask, passIf_map hemail, passIf_map hcard, passIf_map hssn, passIf_map hphone, passIf_map hiban]
  exact customPasses_map h _ _

/-- The sanitizer reads nothing of a text but its units. -/
theorem sanitizeText_map (configCache : Option SanitizerConfig) (text : Option (List α)) :
    sanitizeText W' configCache (text.map (List.map g)) = (sanitizeText W configCache text).map (List.map g) := by
  rcases text with _ | _ | ⟨a, text⟩
  · rfl
  · rfl
  · have hmask := mask_map h (configCache.getD DEFAULT_CONFIG) (a :: text)
    rw [List.map_cons] at hmask
    simp only [sanitizeText, Option.map_some, List.map_cons, hmask]
    split <;> rfl

end Map

end ClusterGate.Sanitizer
