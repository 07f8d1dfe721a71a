/-
  ClusterGate.Sanitizer.Origin — where the elements of a masked text come from.

  A mask keeps elements of the match, in their order, and writes new ones.
  - `mem_sanitizeText`: an element of the output is one of the text or a written one.
  - `count_emailPass_le`: none of the text comes twice.
-/

import ClusterGate.Sanitizer.Service

namespace ClusterGate.Sanitizer

open Lib

variable {α : Type} {W : Writing α}

/-- An element that is written, not copied. -/
def Written (W : Writing α) (a : α) : Prop := ∃ u, a = W.fresh u

/-- An element that a mask has written. -/
def OfMask (W : Writing α) (a : α) : Prop := ∃ u, isOf "*-@ []EMAILundefi" u = true ∧ a = W.fresh u

theorem OfMask.written {a : α} (h : OfMask W a) : Written W a := ⟨h.choose, h.choose_spec.2⟩

/-- What `replace` makes of a pattern from the configuration copies from the text or writes. -/
def Copies (W : Writing α) : Prop :=
  ∀ custom text out, W.replaceCustom custom text = some out → ∀ a ∈ out, a ∈ text ∨ Written W a

theorem mem_literal {s : String} {a : α} (hs : s.toList.all (fun c => isOf "*-@ []EMAILundefi" c.toNat) = true)
    (h : a ∈ literal W s) : OfMask W a := by
  obtain ⟨c, hmem, hc⟩ := List.mem_map.1 h
  exact ⟨c.toNat, List.all_eq_true.1 hs c hmem, hc.symm⟩

/-! ## Masks -/

theorem mem_digitsOf {m : List α} {a : α} : a ∈ digitsOf W m ↔ a ∈ m ∧ isDigit (W.unit a) = true := List.mem_filter

theorem mem_maskEmail {m : List α} {a : α} (h : a ∈ maskEmail W m) : a ∈ m ∨ OfMask W a := by
  rw [maskEmail] at h
  split at h
  · exact .inr (mem_literal rfl h)
  · rw [List.mem_append, List.mem_append] at h
    rcases h with (hlocal | hstars) | hdomain
    · split at hlocal
      · exact .inr (mem_literal rfl hlocal)
      next hl =>
        have hmem : a ∈ m.takeWhile fun a => !isOf "@" (W.unit a) := by
          rw [hl, List.mem_singleton.1 hlocal]
          exact List.mem_cons_self
        exact .inl ((List.takeWhile_sublist _).mem hmem)
    · exact .inr (mem_literal rfl hstars)
    · exact .inl ((List.dropWhile_sublist _).mem (List.mem_of_mem_tail ((List.takeWhile_sublist _).mem hdomain)))

theorem mem_maskCard {m : List α} {a : α} (h : a ∈ maskCard W m) : a ∈ m ∨ OfMask W a := by
  rw [maskCard] at h
  split at h
  · rw [maskCreditCard] at h
    split at h
    · exact .inl h
    · rw [List.mem_append, List.mem_append] at h
      rcases h with (hfirst | hstars) | hlast
      · exact .inl (mem_digitsOf.1 (List.mem_of_mem_take hfirst)).1
      · exact .inr ⟨_, rfl, List.eq_of_mem_replicate hstars⟩
      · exact .inl (mem_digitsOf.1 (List.mem_of_mem_drop hlast)).1
  · exact .inl h

theorem mem_maskSSN {m : List α} {a : α} (h : a ∈ maskSSN W m) : a ∈ m ∨ OfMask W a := by
  rw [maskSSN, List.mem_append] at h
  exact h.symm.imp (fun hlast => (mem_digitsOf.1 (List.mem_of_mem_drop hlast)).1) (mem_literal rfl)

theorem mem_maskPhone {m : List α} {a : α} (h : a ∈ maskPhone W m) : a ∈ m ∨ OfMask W a :=
  Regex.mem_replaceFirst (fun _ _ _ _ => .inr ∘ mem_literal rfl) [] m a h

theorem mem_maskIBAN {m : List α} {a : α} (h : a ∈ maskIBAN W m) : a ∈ m ∨ OfMask W a := by
  simp only [maskIBAN, List.mem_append] at h
  rcases h with (hfirst | hstars) | hlast
  · exact .inl (List.mem_filter.1 (List.mem_of_mem_take hfirst)).1
  · exact .inr (mem_literal rfl hstars)
  · exact .inl (List.mem_filter.1 (List.mem_of_mem_drop hlast)).1

theorem mem_unlessJsonNumber {mask : List α → List α} (hmask : ∀ {m a}, a ∈ mask m → a ∈ m ∨ OfMask W a)
    (before m after : List α) : ∀ a ∈ unlessJsonNumber W mask before m after, a ∈ m ∨ OfMask W a := by
  intro a ha
  rw [unlessJsonNumber] at ha
  split at ha
  · exact .inl ha
  · exact hmask ha

/-! ## Passes -/

theorem email_solid : patterns.email.Solid W.unit := Regex.solid_of_consumes rfl
theorem creditCard_solid : patterns.creditCard.Solid W.unit := Regex.solid_of_consumes rfl
theorem ssn_solid : patterns.ssn.Solid W.unit := Regex.solid_of_consumes rfl
theorem phone_solid : patterns.phone.Solid W.unit := Regex.solid_of_consumes rfl
theorem iban_solid : patterns.iban.Solid W.unit := Regex.solid_of_consumes rfl

theorem mem_passIf {on : Bool} {pass : List α → List α} {text : List α}
    (hpass : ∀ a ∈ pass text, a ∈ text ∨ OfMask W a) : ∀ a ∈ passIf on pass text, a ∈ text ∨ OfMask W a := by
  intro a ha
  rw [passIf] at ha
  split at ha
  · exact hpass a ha
  · exact .inl ha

theorem mem_cardPass (text : List α) : ∀ a ∈ cardPass W text, a ∈ text ∨ OfMask W a :=
  Regex.mem_replaceFrom creditCard_solid (mem_unlessJsonNumber mem_maskCard) [] text

theorem mem_ssnPass (text : List α) : ∀ a ∈ ssnPass W text, a ∈ text ∨ OfMask W a :=
  Regex.mem_replaceFrom ssn_solid (mem_unlessJsonNumber mem_maskSSN) [] text

theorem mem_phonePass (text : List α) : ∀ a ∈ phonePass W text, a ∈ text ∨ OfMask W a :=
  Regex.mem_replaceFrom phone_solid (mem_unlessJsonNumber mem_maskPhone) [] text

theorem mem_ibanPass (text : List α) : ∀ a ∈ ibanPass W text, a ∈ text ∨ OfMask W a :=
  Regex.mem_replaceFrom iban_solid (fun _ _ _ _ => mem_maskIBAN) [] text

theorem mem_customPasses (hcopies : Copies W) (customs : List CustomPattern) (text : List α) :
    ∀ a ∈ customs.foldl (customPass W) text, a ∈ text ∨ Written W a := by
  induction customs generalizing text with
  | nil => exact fun a ha => .inl ha
  | cons custom customs ih =>
    intro a ha
    rcases ih _ a ha with hmem | hwritten
    · rw [customPass] at hmem
      cases hout : W.replaceCustom custom text with
      | none => exact .inl (by simpa [hout] using hmem)
      | some out => exact hcopies custom text out hout a (by simpa [hout] using hmem)
    · exact .inr hwritten

/-- What is gone after the e-mail pass and the card pass is gone from the output. -/
theorem mem_mask (hcopies : Copies W) (cfg : SanitizerConfig) (text : List α) :
    ∀ a ∈ mask W cfg text,
      a ∈ passIf cfg.maskCreditCards (cardPass W) (passIf cfg.maskEmails (emailPass W) text) ∨ Written W a := by
  intro a ha
  rw [mask] at ha
  rcases mem_customPasses hcopies _ _ a ha with ha | hw
  · rcases mem_passIf (mem_ibanPass _) a ha with ha | hw
    · rcases mem_passIf (mem_phonePass _) a ha with ha | hw
      · exact (mem_passIf (mem_ssnPass _) a ha).imp_right OfMask.written
      · exact .inr hw.written
    · exact .inr hw.written
  · exact .inr hw

/-! ## Nothing comes twice -/

section Count

variable [BEq α] [LawfulBEq α] {a : α} (ha : ¬Written W a)
include ha

theorem count_literal (s : String) : (literal W s).count a = 0 := by
  refine List.count_eq_zero_of_not_mem fun hmem => ?_
  obtain ⟨c, -, hc⟩ := List.mem_map.1 hmem
  exact ha ⟨c.toNat, hc.symm⟩

theorem count_maskEmail_le (m : List α) : (maskEmail W m).count a ≤ m.count a := by
  have hsplit := congrArg (List.count a) (List.takeWhile_append_dropWhile (p := fun a => !isOf "@" (W.unit a)) (l := m))
  have hdomain : ((m.dropWhile fun a => !isOf "@" (W.unit a)).tail.takeWhile fun a => !isOf "@" (W.unit a)).count a ≤
      (m.dropWhile fun a => !isOf "@" (W.unit a)).count a :=
    ((List.takeWhile_sublist _).trans (List.tail_sublist _)).count_le a
  rw [List.count_append] at hsplit
  unfold maskEmail
  dsimp only
  split
  · rw [count_literal ha]
    exact Nat.zero_le _
  · rw [List.count_append, List.count_append, count_literal ha]
    split
    · rw [count_literal ha]
      omega
    next x l hl =>
      rw [hl, List.count_cons] at hsplit
      rw [List.count_singleton]
      omega

theorem count_emailPass_le (text : List α) : (emailPass W text).count a ≤ text.count a := by
  refine Regex.replaced (P := fun _ rest out => out.count a ≤ rest.count a) email_solid (fun _ => Nat.le_refl _) ?_ ?_ [] text
  · intro b x rest out _ ih
    rw [List.count_cons, List.count_cons]
    omega
  · intro b m after out _ ih
    have hm := count_maskEmail_le ha m
    rw [List.count_append, List.count_append]
    omega

end Count

end ClusterGate.Sanitizer
