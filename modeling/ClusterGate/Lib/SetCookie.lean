/-
  ClusterGate.Lib.SetCookie — what a browser makes of a Set-Cookie value, and what it sends
  back (RFC 6265bis, sections 5.6 to 5.8).

  Texts are lists of characters, an octet of a header each. What attributes, the origin of
  the response and a browser's own rules decide is a parameter of the browser
  (`UserAgent.admits`); what it keeps of the pair is not.
  - `upTo`, `behind`, `trimBy`: what stands before and behind a character, and trimming.
  - `parse`, `UserAgent.stores`, `Cookie.text`: from a Set-Cookie value to the cookie, and
    to its part of a Cookie header.
-/

import ClusterGate.Lib.Text

namespace ClusterGate.Lib.SetCookie

/-! ## Cutting -/

section Cut

variable {c : Char} {cs : List Char}

/-- What stands before the first `c`. -/
def upTo (c : Char) (cs : List Char) : List Char := cs.takeWhile fun d => d ≠ c

/-- What stands behind the first `c`. -/
def behind (c : Char) (cs : List Char) : List Char := (cs.dropWhile fun d => d ≠ c).drop 1

theorem not_mem_upTo : c ∉ upTo c cs := by
  intro h
  have := List.mem_takeWhile_imp h
  simp at this

theorem upTo_of_not_mem (h : c ∉ cs) : upTo c cs = cs := by
  apply List.takeWhile_eq_self_iff.2
  intro d hd
  exact decide_eq_true fun heq => h (heq ▸ hd)

theorem upTo_append (h : c ∉ cs) (ds : List Char) : upTo c (cs ++ c :: ds) = cs := by
  have hall : ∀ d ∈ cs, decide (d ≠ c) = true := fun d hd => decide_eq_true fun heq => h (heq ▸ hd)
  unfold upTo
  rw [List.takeWhile_append_of_pos hall]
  simp

theorem upTo_behind (h : c ∈ cs) : cs = upTo c cs ++ c :: behind c cs := by
  induction cs with
  | nil => cases h
  | cons d cs ih =>
    by_cases hd : d = c
    · subst hd
      simp [upTo, behind]
    · have hmem : c ∈ cs := (List.mem_cons.1 h).resolve_left fun heq => hd heq.symm
      have hne : (d ≠ c) = True := eq_true hd
      simp only [upTo, behind, List.takeWhile_cons, List.dropWhile_cons, hne, decide_true, if_true, List.cons_append]
      exact congrArg (d :: ·) (ih hmem)

end Cut

/-! ## Trimming -/

section Trim

variable {p q : Char → Bool} {c : Char} {cs : List Char}

def trimBy (p : Char → Bool) (cs : List Char) : List Char := (cs.dropWhile p).rdropWhile p

/-- A text is what a trim leaves, with something to cut on either side. -/
theorem trimBy_cut (p : Char → Bool) (cs : List Char) :
    ∃ as bs, (∀ a ∈ as, p a = true) ∧ (∀ b ∈ bs, p b = true) ∧ cs = as ++ trimBy p cs ++ bs := by
  refine ⟨cs.takeWhile p, (cs.dropWhile p).rtakeWhile p, ?_, ?_, ?_⟩
  · intro a ha
    exact List.mem_takeWhile_imp ha
  · intro b hb
    exact List.mem_rtakeWhile_imp hb
  · rw [trimBy, List.append_assoc, List.rdropWhile_append_rtakeWhile, List.takeWhile_append_dropWhile]

theorem rdropWhile_append {bs : List Char} (hbs : ∀ b ∈ bs, p b = true) : (cs ++ bs).rdropWhile p = cs.rdropWhile p := by
  induction bs using List.reverseRecOn with
  | nil => rw [List.append_nil]
  | append_singleton bs b ih =>
    rw [← List.append_assoc, List.rdropWhile_concat_pos _ _ _ (hbs b (by simp))]
    exact ih fun b' hb' => hbs b' (List.mem_append_left _ hb')

theorem trimBy_sublist (p : Char → Bool) (cs : List Char) : (trimBy p cs).Sublist cs :=
  (List.rdropWhile_prefix p _).sublist.trans (List.dropWhile_sublist p)

theorem trimBy_append {as bs : List Char} (has : ∀ a ∈ as, p a = true) (hbs : ∀ b ∈ bs, p b = true) :
    trimBy p (as ++ cs ++ bs) = trimBy p cs := by
  unfold trimBy
  rw [List.append_assoc, List.dropWhile_append_of_pos has, List.dropWhile_append]
  split
  · rename_i hcs
    have hall : ∀ b ∈ bs.dropWhile p, p b = true := fun b hb => hbs b ((List.dropWhile_sublist p).subset hb)
    rw [List.isEmpty_iff.1 hcs, ← List.nil_append (bs.dropWhile p)]
    exact rdropWhile_append hall
  · exact rdropWhile_append hbs

/-- A trim inside a wider one is none. -/
theorem trimBy_trimBy (hpq : ∀ d, p d = true → q d = true) : trimBy q (trimBy p cs) = trimBy q cs := by
  obtain ⟨as, bs, has, hbs, hcs⟩ := trimBy_cut p cs
  conv_rhs => rw [hcs]
  exact (trimBy_append (fun a ha => hpq a (has a ha)) fun b hb => hpq b (hbs b hb)).symm

theorem mem_trimBy (hc : p c = false) : c ∈ trimBy p cs ↔ c ∈ cs := by
  obtain ⟨as, bs, has, hbs, hcs⟩ := trimBy_cut p cs
  have hnot {ds : List Char} (hds : ∀ d ∈ ds, p d = true) : c ∉ ds := fun h => by simpa [hc] using hds c h
  conv_rhs => rw [hcs]
  simp [hnot has, hnot hbs]

theorem upTo_append_of_not_mem {as : List Char} (has : c ∉ as) : upTo c (as ++ cs) = as ++ upTo c cs := by
  apply List.takeWhile_append_of_pos
  intro a ha
  exact decide_eq_true fun heq => has (heq ▸ ha)

theorem upTo_append_of_mem (hc : c ∈ cs) (bs : List Char) : upTo c (cs ++ bs) = upTo c cs := by
  conv_lhs => rw [upTo_behind hc, List.append_assoc, List.cons_append]
  exact upTo_append not_mem_upTo _

/-- What stands before a character, trimmed, is the same of the trimmed text. -/
theorem trimBy_upTo (hpq : ∀ d, p d = true → q d = true) (hc : p c = false) :
    trimBy q (upTo c (trimBy p cs)) = trimBy q (upTo c cs) := by
  by_cases hmem : c ∈ trimBy p cs
  · obtain ⟨as, bs, has, _, hcs⟩ := trimBy_cut p cs
    have hnot : c ∉ as := fun h => by simpa [hc] using has c h
    have hup : upTo c cs = as ++ upTo c (trimBy p cs) ++ [] := by
      conv_lhs => rw [hcs, List.append_assoc, upTo_append_of_not_mem hnot, upTo_append_of_mem hmem]
      rw [List.append_nil]
    rw [hup]
    exact (trimBy_append (fun a ha => hpq a (has a ha)) (by simp)).symm
  · rw [upTo_of_not_mem hmem, upTo_of_not_mem fun h => hmem ((mem_trimBy hc).2 h)]
    exact trimBy_trimBy hpq

theorem trimBy_of_head {d : Char} (hd : p d = false) : trimBy p (d :: cs) = (d :: cs).rdropWhile p := by
  rw [trimBy, List.dropWhile_cons_of_neg (by simp [hd])]

/-- A trim at the end keeps what starts the text, up to a character that is not trimmed. -/
theorem prefix_rdropWhile {pre : List Char} {d : Char} (hd : p d = false) (h : pre ++ [d] <+: cs) :
    pre ++ [d] <+: cs.rdropWhile p := by
  have hcs : cs.rdropWhile p ++ cs.rtakeWhile p = cs := List.rdropWhile_append_rtakeWhile
  rcases List.prefix_or_prefix_of_prefix h (List.rdropWhile_prefix p cs) with hpre | hsuf
  · exact hpre
  · obtain ⟨ds, hds⟩ := hsuf
    rcases List.eq_nil_or_concat ds with rfl | ⟨es, e, rfl⟩
    · rw [← hds, List.append_nil]
    -- the last character would be among those cut off
    · have hlast : e = d := by simpa using congrArg List.getLast? hds
      have hpre : cs.rdropWhile p ++ es.concat e <+: cs.rdropWhile p ++ cs.rtakeWhile p := by rw [hds, hcs]; exact h
      have hmem : e ∈ cs.rtakeWhile p := ((List.prefix_append_right_inj _).1 hpre).subset (by simp)
      have := List.mem_rtakeWhile_imp hmem
      rw [hlast, hd] at this
      exact absurd this (by simp)

end Trim

/-! ## The browser -/

/-- Space and tab, the white space of the grammar. -/
def isWsp (c : Char) : Bool := c = ' ' || c = '\t'

/-- What makes a browser ignore a Set-Cookie value. -/
def isCtl (c : Char) : Bool := (c.toNat ≤ 0x1F && c ≠ '\t') || c.toNat = 0x7F

structure Cookie where
  name : List Char
  value : List Char
  deriving DecidableEq

def lower (cs : List Char) : List Char := cs.map Char.toLower

/-- The pair a Set-Cookie value starts with. -/
def pair (v : List Char) : List Char := upTo ';' v

/-- The cookie of a pair; without an equals sign it has no name. -/
def Cookie.ofPair (t : List Char) : Cookie :=
  if '=' ∈ t then ⟨trimBy isWsp (upTo '=' t), trimBy isWsp (behind '=' t)⟩ else ⟨[], trimBy isWsp t⟩

/-- A Set-Cookie value as a cookie and its attributes, as they stand. -/
def parse (v : List Char) : Option (Cookie × List Char) :=
  let c := Cookie.ofPair (pair v)
  if v.any isCtl ∨ 4096 < c.name.length + c.value.length then none else some (c, behind ';' v)

/-- A nameless cookie whose value would pass for the name of a guarded one. -/
def Cookie.unnamed (c : Cookie) : Bool :=
  c.name = [] && (c.value = [] || "__secure-".toList.isPrefixOf (lower c.value) || "__host-".toList.isPrefixOf (lower c.value))

/-- A browser, by what it stores of the cookies that are not refused for their pair. -/
structure UserAgent where
  admits : Cookie → List Char → Bool

/-- The cookie a browser stores for a Set-Cookie value. -/
def UserAgent.stores (ua : UserAgent) (v : List Char) : Option Cookie :=
  (parse v).bind fun (c, attributes) => if !c.unnamed && ua.admits c attributes then some c else none

/-- A cookie in a Cookie header. -/
def Cookie.text (c : Cookie) : List Char := if c.name = [] then c.value else c.name ++ '=' :: c.value

/-- The Cookie header of some cookies. -/
def cookieHeader (cs : List Cookie) : List Char := [';', ' '].intercalate (cs.map Cookie.text)

variable {ua : UserAgent} {v : List Char} {c : Cookie}

theorem stores_pair (h : ua.stores v = some c) : c = Cookie.ofPair (pair v) := by
  simp only [UserAgent.stores, parse, Option.bind_eq_some_iff] at h
  obtain ⟨⟨c', attributes⟩, hparse, hadmits⟩ := h
  split at hparse
  · cases hparse
  · cases hparse
    split at hadmits
    · exact (Option.some.inj hadmits).symm
    · cases hadmits

/-- What comes back of a pair is the pair with less white space, or what stands behind its
    equals sign if it has a blank name. -/
theorem text_ofPair (t : List Char) : (Cookie.ofPair t).text =
    if '=' ∈ t then
      if trimBy isWsp (upTo '=' t) = [] then trimBy isWsp (behind '=' t)
      else trimBy isWsp (upTo '=' t) ++ '=' :: trimBy isWsp (behind '=' t)
    else trimBy isWsp t := by
  unfold Cookie.ofPair Cookie.text
  split
  · rfl
  · rfl

theorem not_mem_text {d : Char} (hd : d ≠ '=') {t : List Char} (ht : d ∉ t) : d ∉ (Cookie.ofPair t).text := by
  have hup : d ∉ trimBy isWsp (upTo '=' t) := fun h =>
    ht ((List.takeWhile_sublist _).subset ((trimBy_sublist _ _).subset h))
  have hbehind : d ∉ trimBy isWsp (behind '=' t) := fun h =>
    ht ((List.dropWhile_sublist _).subset ((List.drop_sublist 1 _).subset ((trimBy_sublist _ _).subset h)))
  have hall : d ∉ trimBy isWsp t := fun h => ht ((trimBy_sublist _ _).subset h)
  rw [text_ofPair]
  split_ifs
  · exact hbehind
  · simp [hup, hd, hbehind]
  · exact hall

theorem intercalate_blank (t : List Char) (ts : List (List Char)) :
    [';', ' '].intercalate (t :: ts) = [';'].intercalate (t :: ts.map fun t' => ' ' :: t') := by
  induction ts generalizing t with
  | nil => rfl
  | cons t' ts ih =>
    rw [List.map_cons, List.intercalate_cons_cons, List.intercalate_cons_cons, ih t']
    cases ts with
    | nil => simp
    | cons t'' ts => simp [List.intercalate_cons_cons]

/-- Cookies come back as they went, each behind a blank but the first. -/
theorem splitOn_cookieHeader {cs : List Cookie} (h : ∀ c' ∈ c :: cs, ';' ∉ c'.text) :
    (cookieHeader (c :: cs)).splitOn ';' = c.text :: cs.map fun c' => ' ' :: c'.text := by
  have hcs : ∀ t ∈ c.text :: cs.map fun c' => ' ' :: c'.text, ';' ∉ t := by
    intro t ht
    rcases List.mem_cons.1 ht with rfl | ht
    · exact h c List.mem_cons_self
    · obtain ⟨c', hc', rfl⟩ := List.mem_map.1 ht
      simpa using h c' (List.mem_cons_of_mem _ hc')
  rw [cookieHeader, List.map_cons, intercalate_blank, List.map_map]
  exact List.splitOn_intercalate ';' hcs (List.cons_ne_nil _ _)

end ClusterGate.Lib.SetCookie
