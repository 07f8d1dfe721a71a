/-
  ClusterGate.Lib.UrlJoin — what text put behind a web URL does to its origin.

  The parser trims a text before it reads it, so an authority is read from `body`: what is
  left of a text behind its scheme and slashes, untrimmed at its end (`Web`). Text behind
  it is read as if it had always been there (`Web.append`).
  - `authority_closed`: behind the first character that ends the authority, nothing counts.
  - `authority_open`: otherwise the text counts up to its own first such character.
  - `authority_clean`: an authority that parses has no blank at its end, if the host parser
    refuses blanks, as the standard's does.
  - `parse_web_behind`: what stands behind `http://` or `https://` has one host under both.
-/

import ClusterGate.Lib.Url

namespace ClusterGate.Lib.Url

/-- The standard's host parser fails on spaces and C0 controls. -/
def RefusesBlanks (H : HostParser) : Prop := ∀ cs, (∃ c ∈ cs, isC0OrSpace c = true) → H true cs = none

structure Origin where
  scheme : String
  host : Option String
  port : Option Nat
  deriving DecidableEq

def origin (u : Url) : Origin := ⟨u.scheme, u.host, u.port⟩

def kept (c : Char) : Bool := !isTabOrNewline c

/-- A text without the blanks in front, tabs and newlines. -/
def lead (cs : List Char) : List Char := (cs.dropWhile isC0OrSpace).filter kept

def trail (cs : List Char) : List Char := cs.rdropWhile isC0OrSpace

def ends (c : Char) : Bool := endsAuthority true c

def authority (cs : List Char) : List Char := cs.takeWhile fun c => !ends c

theorem blank_of_dropped {c : Char} (h : kept c = false) : isC0OrSpace c = true := by
  unfold kept isTabOrNewline at h
  simp only [Bool.not_eq_false', Bool.or_eq_true, decide_eq_true_eq] at h
  rcases h with (rfl | rfl) | rfl <;> decide

theorem dropWhile_filter {α : Type} {p q : α → Bool} (h : ∀ c, q c = false → p c = true) (l : List α) :
    (l.dropWhile p).filter q = (l.filter q).dropWhile p := by
  induction l with
  | nil => rfl
  | cons c l ih =>
    by_cases hp : p c = true
    · rw [List.dropWhile_cons_of_pos hp, ih]
      by_cases hq : q c = true
      · rw [List.filter_cons_of_pos hq, List.dropWhile_cons_of_pos hp]
      · rw [List.filter_cons_of_neg hq]
    · have hq : q c = true := by
        by_contra hq
        exact hp (h c (Bool.eq_false_iff.2 hq))
      rw [List.dropWhile_cons_of_neg hp, List.filter_cons_of_pos hq, List.dropWhile_cons_of_neg hp]

theorem strip_eq (cs : List Char) : strip cs = trail (lead cs) := by
  unfold strip trail lead List.rdropWhile
  rw [← List.filter_reverse, ← dropWhile_filter (fun c => blank_of_dropped), List.filter_reverse]
  rfl

/-- A blank at the end is trimmed off nothing that does not end in one. -/
theorem trail_append {xs ys : List Char} (h : ∀ c ∈ xs.getLast?, isC0OrSpace c = false) : trail (xs ++ ys) = xs ++ trail ys := by
  unfold trail
  rw [List.rdropWhile, List.reverse_append, List.dropWhile_append]
  by_cases hy : (List.dropWhile isC0OrSpace ys.reverse).isEmpty = true
  · rw [if_pos hy]
    have hnil : ys.rdropWhile isC0OrSpace = [] := by
      rw [List.rdropWhile, List.isEmpty_iff.1 hy]
      rfl
    rw [hnil, List.append_nil]
    have hself : xs.rdropWhile isC0OrSpace = xs := by
      rw [List.rdropWhile_eq_self_iff]
      intro hne
      rw [h _ (List.getLast?_eq_getLast_of_ne_nil hne)]
      simp
    exact hself
  · rw [if_neg hy, List.reverse_append, List.reverse_reverse]
    rfl

theorem trail_of (cs : List Char) : trail cs <+: cs := List.rdropWhile_prefix _ _

/-! ## A text's scheme, slashes and body -/

def IsScheme (name : List Char) : Prop := (∃ c ∈ name.head?, c.isAlpha = true) ∧ ∀ c ∈ name, isSchemeChar c = true

theorem splitScheme_name {name : List Char} (h : IsScheme name) (rest : List Char) :
    splitScheme (name ++ ':' :: rest) = some (String.ofList (name.map Char.toLower), rest) := by
  obtain ⟨⟨c, hc, ha⟩, hall⟩ := h
  cases name with
  | nil => cases hc
  | cons d name =>
    rw [List.head?_cons, Option.mem_some_iff] at hc
    subst hc
    have htake : ((d :: name) ++ ':' :: rest).takeWhile isSchemeChar = d :: name := by
      rw [List.takeWhile_append_of_pos hall, List.takeWhile_cons_of_neg (by decide), List.append_nil]
    have hdrop : ((d :: name) ++ ':' :: rest).dropWhile isSchemeChar = ':' :: rest := by
      rw [List.dropWhile_append_of_pos hall, List.dropWhile_cons_of_neg (by decide)]
    unfold splitScheme
    rw [List.cons_append] at htake hdrop ⊢
    simp only [ha, if_true, htake, hdrop]

theorem splitScheme_eq {cs : List Char} {scheme : String} {rest : List Char} (h : splitScheme cs = some (scheme, rest)) :
    ∃ name, cs = name ++ ':' :: rest ∧ IsScheme name ∧ scheme = String.ofList (name.map Char.toLower) := by
  cases cs with
  | nil => cases h
  | cons c cs =>
    simp only [splitScheme] at h
    by_cases ha : c.isAlpha = true
    · rw [if_pos ha] at h
      have hc : isSchemeChar c = true := by simp [isSchemeChar, Char.isAlphanum, ha]
      have hjoin : (c :: cs).takeWhile isSchemeChar ++ (c :: cs).dropWhile isSchemeChar = c :: cs :=
        List.takeWhile_append_dropWhile
      split at h
      · rename_i tail hd
        injection h with h
        injection h with hs hr
        subst hr
        rw [hd] at hjoin
        refine ⟨_, hjoin.symm, ⟨⟨c, ?_, ha⟩, fun x hx => List.mem_takeWhile_imp hx⟩, hs.symm⟩
        rw [List.takeWhile_cons_of_pos hc]
        rfl
      · cases h
    · rw [if_neg ha] at h
      cases h

theorem slash_not_blank {c : Char} (h : isSlash c = true) : isC0OrSpace c = false := by
  unfold isSlash at h
  simp only [Bool.or_eq_true, decide_eq_true_eq] at h
  rcases h with rfl | rfl <;> decide

/-- A scheme, its colon, and slashes. -/
def Front (scheme : String) (front : List Char) : Prop :=
  ∃ name slashes, front = name ++ ':' :: slashes ∧ IsScheme name ∧ scheme = String.ofList (name.map Char.toLower) ∧
    ∀ c ∈ slashes, isSlash c = true

theorem Front.last {scheme : String} {front : List Char} (h : Front scheme front) :
    ∀ c ∈ front.getLast?, isC0OrSpace c = false := by
  obtain ⟨name, slashes, rfl, -, -, hslashes⟩ := h
  intro c hc
  rw [List.getLast?_append, List.getLast?_cons, Option.some_or, Option.mem_some_iff] at hc
  cases hsl : slashes.getLast? with
  | none =>
    rw [hsl] at hc
    rw [← hc]
    decide
  | some d =>
    rw [hsl, Option.getD_some] at hc
    rw [← hc]
    exact slash_not_blank (hslashes _ (List.mem_of_getLast? hsl))

theorem Front.no_question {scheme : String} {front : List Char} (h : Front scheme front) : '?' ∉ front := by
  obtain ⟨name, slashes, rfl, hname, -, hslashes⟩ := h
  intro hq
  rcases List.mem_append.1 hq with hq | hq
  · exact absurd (hname.2 _ hq) (by decide)
  rcases List.mem_cons.1 hq with hq | hq
  · exact absurd hq (by decide)
  · exact absurd (hslashes _ hq) (by decide)

/-- A front starts with a letter, so with nothing that ends an authority. -/
theorem Front.head {scheme : String} {front ys zs : List Char} {e : Char} (h : Front scheme front) (he : ends e = true) :
    front ++ ys ≠ e :: zs := by
  obtain ⟨name, slashes, rfl, ⟨⟨c, hc, ha⟩, hall⟩, -, -⟩ := h
  intro hjoin
  cases name with
  | nil => cases hc
  | cons d name =>
    injection hjoin with hd _
    have hchar := hall d List.mem_cons_self
    rw [hd] at hchar
    unfold ends endsAuthority at he
    simp only [Bool.or_eq_true, decide_eq_true_eq, Bool.and_eq_true, true_and] at he
    rcases he with ((rfl | rfl) | rfl) | rfl <;> exact absurd hchar (by decide)

/-- A text read as a web URL's: its front, and the body behind it. -/
structure Web (cs : List Char) (scheme : String) (body : List Char) : Prop where
  web : scheme = "http" ∨ scheme = "https"
  noSlash : body.dropWhile isSlash = body
  text : ∃ front, lead cs = front ++ body ∧ Front scheme front

theorem Web.trail_lead {cs : List Char} {scheme : String} {body : List Char} (h : Web cs scheme body) :
    trail (lead cs) = lead cs ↔ trail body = body := by
  obtain ⟨front, htext, hfront⟩ := h.text
  rw [htext, trail_append hfront.last, List.append_cancel_left_eq]

theorem Web.parse {cs : List Char} {scheme : String} {body : List Char} (h : Web cs scheme body) (H : HostParser) :
    parseChars H cs = withAuthority H true scheme (trail body) := by
  obtain ⟨front, htext, hfront⟩ := h.text
  have hstrip : strip cs = front ++ trail body := by rw [strip_eq, htext, trail_append hfront.last]
  obtain ⟨name, slashes, rfl, hname, hscheme, hslashes⟩ := hfront
  have hdrop : (slashes ++ trail body).dropWhile isSlash = trail body := by
    rw [List.dropWhile_append_of_pos hslashes]
    exact Text.dropWhile_prefix_self (trail_of body) h.noSlash
  have hfile : scheme ≠ "file" := by
    intro he
    have hweb := h.web
    rw [he] at hweb
    exact absurd hweb (by decide)
  have hport : (defaultPort scheme).isSome = true := by rcases h.web with rfl | rfl <;> rfl
  unfold parseChars
  rw [hstrip, List.append_assoc, List.cons_append, splitScheme_name hname, ← hscheme, Option.bind_some, if_neg hfile,
    if_pos hport, hdrop]

/-- A text has one body. -/
theorem Web.unique {cs : List Char} {scheme scheme' : String} {body body' : List Char} (h : Web cs scheme body)
    (h' : Web cs scheme' body') : body = body' := by
  obtain ⟨front, htext, name, slashes, hf, hname, -, hslashes⟩ := h.text
  obtain ⟨front', htext', name', slashes', hf', hname', -, hslashes'⟩ := h'.text
  have hsplit : splitScheme (lead cs) = some (String.ofList (name.map Char.toLower), slashes ++ body) := by
    rw [htext, hf, List.append_assoc, List.cons_append, splitScheme_name hname]
  rw [htext', hf', List.append_assoc, List.cons_append, splitScheme_name hname'] at hsplit
  injection hsplit with hsplit
  injection hsplit with _ hrest
  have hbody : (slashes ++ body).dropWhile isSlash = body :=
    (List.dropWhile_append_of_pos hslashes).trans h.noSlash
  have hbody' : (slashes' ++ body').dropWhile isSlash = body' :=
    (List.dropWhile_append_of_pos hslashes').trans h'.noSlash
  rw [← hbody, ← hbody', hrest]

theorem lead_append {cs ys : List Char} (h : lead cs ≠ []) : lead (cs ++ ys) = lead cs ++ ys.filter kept := by
  unfold lead at h ⊢
  rw [List.dropWhile_append]
  have hne : ¬(cs.dropWhile isC0OrSpace).isEmpty = true := by
    intro he
    rw [List.isEmpty_iff.1 he] at h
    exact h rfl
  rw [if_neg hne, List.filter_append]

/-- Text behind a web URL goes on with its body. -/
theorem Web.append {cs : List Char} {scheme : String} {body : List Char} (h : Web cs scheme body) (hne : body ≠ [])
    (ys : List Char) : Web (cs ++ ys) scheme (body ++ ys.filter kept) := by
  obtain ⟨front, htext, hfront⟩ := h.text
  have hlead : lead cs ≠ [] := by
    rw [htext]
    simp [hne]
  refine ⟨h.web, ?_, front, by rw [lead_append hlead, htext, List.append_assoc], hfront⟩
  cases body with
  | nil => exact absurd rfl hne
  | cons c body =>
    have hc : ¬isSlash c = true := by
      intro hc
      have hself := Text.dropWhile_prefix_self (m := [c]) ⟨body, rfl⟩ h.noSlash
      rw [List.dropWhile_cons_of_pos hc] at hself
      cases hself
    rw [List.cons_append, List.dropWhile_cons_of_neg hc]

theorem withAuthority_scheme {H : HostParser} {special : Bool} {scheme : String} {cs : List Char} {u : Url}
    (h : withAuthority H special scheme cs = some u) : u.scheme = scheme := by
  obtain ⟨hp, -, rfl⟩ := Option.map_eq_some_iff.1 h
  rfl

theorem parseFile_scheme {H : HostParser} {cs : List Char} {u : Url} (h : parseFile H cs = some u) :
    u.scheme = "file" := by
  unfold parseFile at h
  dsimp only at h
  repeat' split at h
  all_goals first
    | (injection h with h; rw [← h])
    | (obtain ⟨_, -, rfl⟩ := Option.map_eq_some_iff.1 h; rfl)

/-- What parses to a web URL reads as one. -/
theorem web_of_parse {H : HostParser} {cs : List Char} {u : Url} (h : parseChars H cs = some u)
    (hu : u.scheme = "http" ∨ u.scheme = "https") :
    ∃ body, Web cs u.scheme body ∧ withAuthority H true u.scheme (trail body) = some u := by
  have hparse := h
  obtain ⟨⟨scheme, rest⟩, hsplit, h⟩ := Option.bind_eq_some_iff.1 h
  have hs : u.scheme = scheme := by
    dsimp only at h
    split at h
    · rename_i hf
      rw [hf, parseFile_scheme h]
    · split at h
      · exact withAuthority_scheme h
      · split at h
        · exact withAuthority_scheme h
        · injection h with h
          rw [← h]
  obtain ⟨name, htext, hname, hscheme⟩ := splitScheme_eq hsplit
  obtain ⟨blanks, hblanks⟩ := trail_of (lead cs)
  have hlead : lead cs = (name ++ ':' :: (rest ++ blanks).takeWhile isSlash) ++ (rest ++ blanks).dropWhile isSlash := by
    rw [List.append_assoc, List.cons_append, List.takeWhile_append_dropWhile, ← hblanks, ← strip_eq, htext]
    simp
  have hfront : Front u.scheme (name ++ ':' :: (rest ++ blanks).takeWhile isSlash) :=
    ⟨name, _, rfl, hname, hs.trans hscheme, fun c hc => List.mem_takeWhile_imp hc⟩
  have hweb : Web cs u.scheme ((rest ++ blanks).dropWhile isSlash) :=
    ⟨hu, List.dropWhile_idempotent _ _, _, hlead, hfront⟩
  exact ⟨_, hweb, (hweb.parse H).symm.trans hparse⟩

/-! ## Authorities -/

theorem end_not_blank {c : Char} (h : ends c = true) : isC0OrSpace c = false := by
  unfold ends endsAuthority at h
  simp only [Bool.or_eq_true, decide_eq_true_eq, Bool.and_eq_true, true_and] at h
  rcases h with ((rfl | rfl) | rfl) | rfl <;> decide

theorem end_kept {c : Char} (h : ends c = true) : kept c = true := by
  by_contra hk
  have hb := blank_of_dropped (Bool.eq_false_iff.2 hk)
  rw [end_not_blank h] at hb
  cases hb

theorem authority_at {xs ys : List Char} {e : Char} (hx : ∀ c ∈ xs, ends c = false) (he : ends e = true) :
    authority (xs ++ e :: ys) = xs := by
  unfold authority
  rw [List.takeWhile_append_of_pos (by simpa using hx), List.takeWhile_cons_of_neg (by simp [he]), List.append_nil]

theorem trail_at {xs ys : List Char} {e : Char} (he : ends e = true) :
    trail (xs ++ e :: ys) = xs ++ e :: trail ys := by
  have hsplit : xs ++ e :: ys = (xs ++ [e]) ++ ys := by simp
  rw [hsplit, trail_append]
  · simp
  · intro c hc
    rw [List.getLast?_concat, Option.mem_some_iff] at hc
    rw [← hc]
    exact end_not_blank he

/-- A text is its authority, or goes on with the character that ends it. -/
theorem authority_split (cs : List Char) :
    (∀ c ∈ authority cs, ends c = false) ∧
      (authority cs = cs ∨ ∃ e rest, ends e = true ∧ cs = authority cs ++ e :: rest) := by
  have hno : ∀ c ∈ authority cs, ends c = false := fun c hc => by simpa using List.mem_takeWhile_imp hc
  refine ⟨hno, ?_⟩
  have hjoin : authority cs ++ cs.dropWhile (fun c => !ends c) = cs := List.takeWhile_append_dropWhile
  cases hd : cs.dropWhile fun c => !ends c with
  | nil =>
    rw [hd, List.append_nil] at hjoin
    exact .inl hjoin
  | cons e rest =>
    have hne : cs.dropWhile (fun c => !ends c) ≠ [] := by simp [hd]
    have he := List.head_dropWhile_not (fun c => !ends c) hne
    simp only [hd, List.head_cons, Bool.not_eq_false'] at he
    rw [hd] at hjoin
    exact .inr ⟨e, rest, he, hjoin.symm⟩

theorem authority_closed {body : List Char} (h : authority body ≠ body) (ys : List Char) :
    authority (trail (body ++ ys)) = authority body := by
  obtain ⟨hno, hself | ⟨e, rest, he, hbody⟩⟩ := authority_split body
  · exact absurd hself h
  · have hjoin : body ++ ys = authority body ++ e :: (rest ++ ys) := by
      conv_lhs => rw [hbody]
      simp
    rw [hjoin, trail_at he, authority_at hno he]

theorem authority_trail {body : List Char} (h : authority body = body) : authority (trail body) = trail body := by
  have hno := (authority_split body).1
  rw [h] at hno
  refine (authority_split (trail body)).2.resolve_right ?_
  intro hend
  obtain ⟨e, rest, he, hsplit⟩ := hend
  have hmem : e ∈ trail body := by
    rw [hsplit]
    simp
  rw [hno e ((trail_of body).subset hmem)] at he
  cases he

/-- What counts of a text behind an open authority. -/
def upToEnd (ys : List Char) : List Char := authority ys ++ (ys.dropWhile fun c => !ends c).take 1

theorem authority_open {body : List Char} (hb : authority body = body) (ys : List Char) :
    authority (trail (body ++ ys.filter kept)) = authority (trail (body ++ (upToEnd ys).filter kept)) := by
  have hno : ∀ c ∈ body, ends c = false := by
    have h := (authority_split body).1
    rwa [hb] at h
  obtain ⟨hys, hself | ⟨e, rest, he, hrest⟩⟩ := authority_split ys
  · have hall : upToEnd ys = ys := by
      have hd : ys.dropWhile (fun c => !ends c) = [] := by
        rw [List.dropWhile_eq_nil_iff]
        intro c hc
        rw [← hself] at hc
        rw [hys c hc]
        rfl
      rw [upToEnd, hself, hd, List.take_nil, List.append_nil]
    rw [hall]
  · have hup : upToEnd ys = authority ys ++ [e] := by
      have hd : ys.dropWhile (fun c => !ends c) = e :: rest := by
        have hjoin : authority ys ++ ys.dropWhile (fun c => !ends c) = ys := List.takeWhile_append_dropWhile
        exact List.append_cancel_left (hjoin.trans hrest)
      rw [upToEnd, hd]
      rfl
    have hno' : ∀ c ∈ body ++ (authority ys).filter kept, ends c = false := by
      intro c hc
      rcases List.mem_append.1 hc with hc | hc
      · exact hno c hc
      · exact hys c (List.mem_filter.1 hc).1
    have hlong : body ++ ys.filter kept = (body ++ (authority ys).filter kept) ++ e :: rest.filter kept := by
      conv_lhs => rw [hrest]
      rw [List.filter_append, List.filter_cons_of_pos (end_kept he)]
      simp
    have hshort : body ++ (upToEnd ys).filter kept = (body ++ (authority ys).filter kept) ++ e :: [] := by
      rw [hup, List.filter_append, List.filter_cons_of_pos (end_kept he)]
      simp
    rw [hlong, hshort, trail_at he, trail_at he, authority_at hno' he, authority_at hno' he]

theorem splitPort_text (inside : Bool) (cs : List Char) :
    ((splitPort inside cs).2 = none → (splitPort inside cs).1 = cs) ∧
      ∀ port, (splitPort inside cs).2 = some port → cs = (splitPort inside cs).1 ++ ':' :: port := by
  induction cs generalizing inside with
  | nil => exact ⟨fun _ => rfl, fun _ h => by cases h⟩
  | cons c cs ih =>
    unfold splitPort
    by_cases hc : c = ':' ∧ inside = false
    · rw [if_pos hc]
      refine ⟨(fun h => by cases h), ?_⟩
      intro port h
      injection h with h
      rw [hc.1, h]
      rfl
    · rw [if_neg hc]
      obtain ⟨h1, h2⟩ := ih (if c = '[' then true else if c = ']' then false else inside)
      exact ⟨fun h => congrArg _ (h1 h), fun port h => congrArg _ (h2 port h)⟩

theorem afterCredentials_suffix (auth : List Char) : afterCredentials auth <:+ auth := by
  obtain ⟨t, ht⟩ := List.takeWhile_prefix (l := auth.reverse) (· ≠ '@')
  refine ⟨t.reverse, ?_⟩
  rw [afterCredentials, ← List.reverse_append, ht, List.reverse_reverse]

/-- Digits are no blanks. -/
theorem digit_not_blank {c : Char} (h : c.isDigit = true) : isC0OrSpace c = false := by
  unfold Char.isDigit at h
  simp only [Bool.and_eq_true, decide_eq_true_eq] at h
  have h0 : '0'.toNat ≤ c.toNat := h.1
  unfold isC0OrSpace
  rw [decide_eq_false_iff_not]
  have : '0'.toNat = 48 := rfl
  omega

theorem authority_clean {H : HostParser} (hH : RefusesBlanks H) {scheme : String} {auth : List Char}
    {hp : String × Option Nat} (h : parseAuthority H true scheme auth = some hp) : trail auth = auth := by
  unfold parseAuthority at h
  dsimp only at h
  split at h
  · cases h
  rename_i hcond
  obtain ⟨hostText, hhost, hport⟩ := Option.bind_eq_some_iff.1 h
  obtain ⟨port, hport, -⟩ := Option.map_eq_some_iff.1 hport
  have hne : (splitPort false (afterCredentials auth)).1 ≠ [] := fun e => hcond ⟨e, .inl rfl⟩
  rw [if_neg hne] at hhost
  have hclean : ∀ c ∈ (splitPort false (afterCredentials auth)).1, isC0OrSpace c = false := by
    intro c hc
    rw [Bool.eq_false_iff]
    intro hb
    rw [hH _ ⟨c, hc, hb⟩] at hhost
    cases hhost
  obtain ⟨hnone, hsome⟩ := splitPort_text false (afterCredentials auth)
  have hlast : ∀ c ∈ (afterCredentials auth).getLast?, isC0OrSpace c = false := by
    intro c hc
    cases hp2 : (splitPort false (afterCredentials auth)).2 with
    | none =>
      rw [← hnone hp2] at hc
      exact hclean c (List.mem_of_getLast? hc)
    | some ds =>
      rw [hsome ds hp2, List.getLast?_append, List.getLast?_cons] at hc
      simp only [Option.some_or, Option.mem_some_iff] at hc
      rw [hp2, Option.getD_some] at hport
      cases hds : ds.getLast? with
      | none =>
        rw [hds, Option.getD_none] at hc
        rw [← hc]
        decide
      | some d =>
        rw [hds, Option.getD_some] at hc
        subst hc
        have hnil : ds ≠ [] := by
          intro e
          rw [e] at hds
          cases hds
        unfold parsePort at hport
        rw [if_neg hnil] at hport
        split at hport
        · rename_i hdigits
          exact digit_not_blank (List.all_eq_true.1 hdigits.1 d (List.mem_of_getLast? hds))
        · cases hport
  have hnil : afterCredentials auth ≠ [] := by
    intro e
    rw [e] at hne
    exact hne rfl
  obtain ⟨t, ht⟩ := afterCredentials_suffix auth
  have hself : trail (t ++ afterCredentials auth ++ []) = t ++ afterCredentials auth ++ trail [] := by
    refine trail_append ?_
    intro c hc
    rw [List.getLast?_append_of_ne_nil _ hnil] at hc
    exact hlast c hc
  rw [ht, List.append_nil] at hself
  exact hself.trans (List.append_nil _)

theorem authority_append {body : List Char} (h : authority body ≠ body) (ys : List Char) :
    authority (body ++ ys) = authority body := by
  obtain ⟨hno, hself | ⟨e, rest, he, hbody⟩⟩ := authority_split body
  · exact absurd hself h
  · have hjoin : body ++ ys = authority body ++ e :: (rest ++ ys) := by
      conv_lhs => rw [hbody]
      simp
    rw [hjoin, authority_at hno he]

/-- The origin of a web URL is read from its authority. -/
theorem Web.origin {cs : List Char} {scheme : String} {body : List Char} (h : Web cs scheme body) (H : HostParser) :
    (parseChars H cs).map Url.origin =
      (parseAuthority H true scheme (authority (trail body))).map fun hp => ⟨scheme, some hp.1, hp.2⟩ := by
  rw [h.parse H]
  unfold withAuthority
  rw [Option.map_map]
  rfl

theorem lead_eq_nil {cs : List Char} (h : lead cs = []) : cs.dropWhile isC0OrSpace = [] := by
  cases hd : cs.dropWhile isC0OrSpace with
  | nil => rfl
  | cons c rest =>
    have hne : cs.dropWhile isC0OrSpace ≠ [] := by simp [hd]
    have hc := List.head_dropWhile_not isC0OrSpace hne
    simp only [hd, List.head_cons] at hc
    have hk : kept c = true := by
      by_contra hk
      rw [blank_of_dropped (Bool.eq_false_iff.2 hk)] at hc
      cases hc
    rw [lead, hd, List.filter_cons_of_pos hk] at h
    cases h

/-- The text before a question mark, or before the last character, is a web URL's too. -/
theorem Web.before {cs ys : List Char} {e : Char} {scheme : String} {body : List Char}
    (h : Web (cs ++ e :: ys) scheme body) (he : ends e = true) (ha : authority body ≠ []) (hys : e = '?' ∨ ys = []) :
    ∃ b, body = b ++ e :: ys.filter kept ∧ b ≠ [] ∧ Web cs scheme b := by
  obtain ⟨front, htext, hfront⟩ := h.text
  have hlead : lead cs ≠ [] := by
    intro hnil
    have hfirst : lead (cs ++ e :: ys) = e :: ys.filter kept := by
      rw [lead, List.dropWhile_append, lead_eq_nil hnil]
      simp only [List.isEmpty_nil, if_true]
      rw [List.dropWhile_cons_of_neg (by simp [end_not_blank he]), List.filter_cons_of_pos (end_kept he)]
    rw [hfirst] at htext
    exact hfront.head he htext.symm
  rw [lead_append hlead, List.filter_cons_of_pos (end_kept he)] at htext
  have hbody : ∀ rest, body ≠ e :: rest := by
    intro rest hb
    refine ha ?_
    rw [hb]
    have hno : ∀ c ∈ ([] : List Char), ends c = false := by simp
    exact authority_at hno he
  rcases List.append_eq_append_iff.1 htext with ⟨a, hpre, hrest⟩ | ⟨b, hpre, hb⟩
  · -- the character would be of the front
    cases a with
    | nil => exact absurd hrest.symm (hbody _)
    | cons d a =>
      rw [List.cons_append] at hrest
      injection hrest with hd hrest
      rcases hys with hq | hnil
      · refine absurd ?_ hfront.no_question
        rw [hpre, ← hd, hq]
        simp
      · rw [hnil] at hrest
        have hb : body = [] := (List.append_eq_nil_iff.1 hrest.symm).2
        rw [hb] at ha
        exact absurd rfl ha
  · refine ⟨b, hb, ?_, h.web, Text.dropWhile_prefix_self ⟨e :: ys.filter kept, hb.symm⟩ h.noSlash, front, hpre, hfront⟩
    intro hnil
    rw [hnil] at hb
    exact hbody _ hb

/-! ## One host under two schemes -/

/-- A web scheme's name. -/
def IsWeb (name : List Char) : Prop := name = "http".toList ∨ name = "https".toList

/-- What stands behind a scheme and two slashes is read the same under either scheme. -/
theorem web_behind {name : List Char} (h : IsWeb name) (rest : List Char) :
    Web (name ++ ':' :: '/' :: '/' :: rest) (String.ofList name) ((rest.filter kept).dropWhile isSlash) := by
  have hkept : ∀ c ∈ name, kept c = true := by rcases h with rfl | rfl <;> exact List.all_eq_true.1 (by decide)
  have hname : IsScheme name := by
    rcases h with rfl | rfl <;> exact ⟨⟨'h', rfl, by decide⟩, List.all_eq_true.1 (by decide)⟩
  have hlower : name.map Char.toLower = name := by rcases h with rfl | rfl <;> decide
  have hfirst : (name ++ ':' :: '/' :: '/' :: rest).dropWhile isC0OrSpace = name ++ ':' :: '/' :: '/' :: rest := by
    rcases h with rfl | rfl <;> exact List.dropWhile_cons_of_neg (by decide)
  refine ⟨?_, List.dropWhile_idempotent _ _, name ++ ':' :: '/' :: '/' :: (rest.filter kept).takeWhile isSlash, ?_,
    name, _, rfl, hname, by rw [hlower], ?_⟩
  · rcases h with rfl | rfl <;> decide
  · unfold lead
    rw [hfirst, List.filter_append, List.filter_eq_self.2 hkept, List.filter_cons_of_pos (by decide),
      List.filter_cons_of_pos (by decide), List.filter_cons_of_pos (by decide), List.append_assoc]
    simp only [List.cons_append, List.takeWhile_append_dropWhile]
  · intro c hc
    rcases List.mem_cons.1 hc with rfl | hc
    · decide
    rcases List.mem_cons.1 hc with rfl | hc
    · decide
    exact List.mem_takeWhile_imp hc

theorem parsePort_scheme (scheme scheme' : String) (ds : List Char) :
    (parsePort scheme ds).isSome = (parsePort scheme' ds).isSome := by
  unfold parsePort
  split
  · rfl
  · split <;> rfl

/-- Only the port of an authority depends on the scheme. -/
theorem parseAuthority_host (H : HostParser) (special : Bool) (scheme scheme' : String) {auth : List Char}
    {hp : String × Option Nat} (h : parseAuthority H special scheme auth = some hp) :
    ∃ port, parseAuthority H special scheme' auth = some (hp.1, port) := by
  unfold parseAuthority at h ⊢
  dsimp only at h ⊢
  split at h
  · cases h
  rename_i hcond
  rw [if_neg hcond]
  obtain ⟨host, hhost, h⟩ := Option.bind_eq_some_iff.1 h
  obtain ⟨port, hport, rfl⟩ := Option.map_eq_some_iff.1 h
  have hsome : (parsePort scheme' ((splitPort false (afterCredentials auth)).2.getD [])).isSome = true := by
    rw [parsePort_scheme scheme' scheme, hport]
    rfl
  obtain ⟨port', hport'⟩ := Option.isSome_iff_exists.1 hsome
  exact ⟨port', by rw [hhost, Option.bind_some, hport', Option.map_some]⟩

theorem parse_web_behind {name name' : List Char} (hn : IsWeb name) (hn' : IsWeb name') (H : HostParser) {rest : List Char}
    {u : Url} (h : parseChars H (name ++ ':' :: '/' :: '/' :: rest) = some u) :
    ∃ v, parseChars H (name' ++ ':' :: '/' :: '/' :: rest) = some v ∧ v.scheme = String.ofList name' ∧ v.host = u.host := by
  rw [(web_behind hn rest).parse H] at h
  rw [(web_behind hn' rest).parse H]
  obtain ⟨hp, hparse, rfl⟩ := Option.map_eq_some_iff.1 h
  obtain ⟨port, hport⟩ := parseAuthority_host H true (String.ofList name) (String.ofList name') hparse
  exact ⟨_, Option.map_eq_some_iff.2 ⟨_, hport, rfl⟩, rfl, rfl⟩

end ClusterGate.Lib.Url
