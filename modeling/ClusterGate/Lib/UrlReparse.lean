/-
  ClusterGate.Lib.UrlReparse — the serialized parts of a web URL read again.

  What the parser makes of a text is in normal form (`read_normal`): no segment of its path
  is a dot, or has a slash or a character the path would encode, its host is one the host
  parser gave out, and its port is not the scheme's own. So the parts put back together
  read as the same scheme, host, port and path, whatever query or fragment stands behind:
  - `read_origin`: origin and path, read anywhere.
  - `read_path`: a path alone, read against a base, lies on the base's host.
  - `read_slashes`: unless its first segment is empty and others follow. Then the first
    segment that is not empty is read as an authority.
-/

import ClusterGate.Lib.UrlRecord

namespace ClusterGate.Lib

namespace Url

/-- What is so of each character of a closed text is decided on the text, not on all
    characters there are. -/
theorem forall_chars {P : Char → Prop} [DecidablePred P] {cs : List Char} (h : cs.all (fun c => decide (P c)) = true) :
    ∀ c ∈ cs, P c := fun c hc => of_decide_eq_true (List.all_eq_true.1 h c hc)

/-! ## Percent encoding -/

theorem utf8EncodeChar_ne_nil (c : Char) : String.utf8EncodeChar c ≠ [] := by
  have h := String.length_utf8EncodeChar c
  intro hnil
  rw [hnil] at h
  have hpos := c.utf8Size_pos
  simp only [List.length_nil] at h
  omega

theorem percentEncode_self {inSet : Char → Bool} {cs : List Char} (h : ∀ c ∈ cs, inSet c = false) :
    percentEncode inSet cs = cs := by
  induction cs with
  | nil => rfl
  | cons c cs ih =>
    have hc : percentEncodeChar inSet c = [c] := by
      rw [percentEncodeChar, h c List.mem_cons_self]
      rfl
    have htail := ih fun d hd => h d (List.mem_cons_of_mem _ hd)
    unfold percentEncode at htail ⊢
    rw [List.flatMap_cons, hc, htail]
    rfl

theorem percentEncode_append (inSet : Char → Bool) (cs ds : List Char) :
    percentEncode inSet (cs ++ ds) = percentEncode inSet cs ++ percentEncode inSet ds := List.flatMap_append

theorem percentEncode_ne_nil (inSet : Char → Bool) {cs : List Char} (h : cs ≠ []) : percentEncode inSet cs ≠ [] := by
  obtain ⟨c, cs, rfl⟩ := List.exists_cons_of_ne_nil h
  unfold percentEncode
  rw [List.flatMap_cons]
  intro hnil
  have hc := (List.append_eq_nil_iff.1 hnil).1
  unfold percentEncodeChar at hc
  split at hc
  · obtain ⟨b, bs, hb⟩ := List.exists_cons_of_ne_nil (utf8EncodeChar_ne_nil c)
    rw [hb] at hc
    cases hc
  · cases hc

/-- A character of an encoded text is one of an escape, or was kept. -/
theorem mem_percentEncode {inSet : Char → Bool} {cs : List Char} {c : Char} (h : c ∈ percentEncode inSet cs) :
    c = '%' ∨ (∃ n, n < 16 ∧ c = hexUpper n) ∨ (c ∈ cs ∧ inSet c = false) := by
  obtain ⟨d, hd, hc⟩ := List.mem_flatMap.1 h
  unfold percentEncodeChar at hc
  split at hc
  · obtain ⟨b, -, hc⟩ := List.mem_flatMap.1 hc
    have hb : b.toNat < 256 := UInt8.toNat_lt b
    simp only [List.mem_cons, List.not_mem_nil, or_false] at hc
    rcases hc with hc | hc | hc
    · exact .inl hc
    · exact .inr (.inl ⟨_, by omega, hc⟩)
    · exact .inr (.inl ⟨_, by omega, hc⟩)
  · rename_i hset
    rw [List.mem_singleton.1 hc]
    exact .inr (.inr ⟨hd, Bool.eq_false_iff.2 hset⟩)

theorem kept_mem {inSet : Char → Bool} {cs : List Char} {c : Char} (h : c ∈ cs) (hset : inSet c = false) :
    c ∈ percentEncode inSet cs := by
  refine List.mem_flatMap.2 ⟨c, h, ?_⟩
  rw [percentEncodeChar, hset]
  exact List.mem_singleton.2 rfl

theorem percent_mem {inSet : Char → Bool} {cs : List Char} {c : Char} (h : c ∈ cs) (hset : inSet c = true) :
    '%' ∈ percentEncode inSet cs := by
  refine List.mem_flatMap.2 ⟨c, h, ?_⟩
  rw [percentEncodeChar, hset, if_pos rfl]
  obtain ⟨b, bs, hb⟩ := List.exists_cons_of_ne_nil (utf8EncodeChar_ne_nil c)
  rw [hb, List.flatMap_cons]
  exact List.mem_cons_self

/-- The characters of an escape, whatever is asked of them. -/
theorem escape_char {P : Char → Prop} (hp : P '%') (hd : ∀ n < 16, P (hexUpper n)) {inSet : Char → Bool}
    {cs : List Char} (hk : ∀ c ∈ cs, inSet c = false → P c) : ∀ c ∈ percentEncode inSet cs, P c := by
  intro c hc
  rcases mem_percentEncode hc with rfl | ⟨n, hn, rfl⟩ | ⟨hc, hs⟩
  · exact hp
  · exact hd n hn
  · exact hk c hc hs

/-! ## Segments -/

/-- A character the path keeps, and no slash of either kind. -/
def PathChar (c : Char) : Prop := inPathSet c = false ∧ isSlash c = false

instance (c : Char) : Decidable (PathChar c) := inferInstanceAs (Decidable (_ ∧ _))

theorem PathChar.not_blank {c : Char} (h : PathChar c) : isC0OrSpace c = false := by
  by_contra hb
  have hn : c.toNat ≤ 0x20 := by simpa [isC0OrSpace] using hb
  have hset : inPathSet c = true := by
    by_cases hlt : c.toNat < 0x20
    · simp [inPathSet, inQuerySet, inC0Set, hlt]
    · have hs : c = ' ' := Char.ext (UInt32.toNat_inj.1 (show c.toNat = 0x20 by omega))
      rw [hs]
      decide
  rw [h.1] at hset
  cases hset

theorem PathChar.not_end {c : Char} (h : PathChar c) : ends c = false := by
  by_contra he
  simp only [ends, endsAuthority, Bool.not_eq_false, Bool.or_eq_true, decide_eq_true_eq, Bool.and_eq_true, true_and] at he
  rcases he with ((rfl | rfl) | rfl) | rfl
  · exact absurd h.2 (by decide)
  · exact absurd h.1 (by decide)
  · exact absurd h.1 (by decide)
  · exact absurd h.2 (by decide)

theorem endsPath_of_ends {c : Char} (h : ends c = false) : endsPath c = false := by
  unfold ends endsAuthority at h
  unfold endsPath
  simp_all

structure NormalSegment (s : List Char) : Prop where
  chars : ∀ c ∈ s, PathChar c
  notSingle : isSingleDot s = false
  notDouble : isDoubleDot s = false

theorem NormalSegment.nil : NormalSegment [] := ⟨by simp, by decide, by decide⟩

theorem not_mem_splitOnP {p : Char → Bool} {cs : List Char} : ∀ l ∈ cs.splitOnP p, ∀ c ∈ l, p c = false := by
  induction cs with
  | nil => simp
  | cons d cs ih =>
    rw [List.splitOnP_cons_eq_if_modifyHead]
    by_cases hd : p d = true
    · rw [if_pos hd]
      intro l hl
      rcases List.mem_cons.1 hl with rfl | hl
      · simp
      · exact ih l hl
    · rw [if_neg hd]
      obtain ⟨x, l, hx⟩ := List.exists_cons_of_ne_nil (List.splitOnP_ne_nil p cs)
      rw [hx] at ih ⊢
      intro m hm
      rcases List.mem_cons.1 hm with rfl | hm
      · intro c hc
        rcases List.mem_cons.1 hc with rfl | hc
        · exact Bool.eq_false_iff.2 hd
        · exact ih x List.mem_cons_self c hc
      · exact ih m (List.mem_cons_of_mem _ hm)

theorem isSeparator_true : isSeparator true = isSlash := by
  funext c
  simp [isSeparator, isSlash]

theorem rawSegments_noSlash (cs : List Char) : ∀ r ∈ rawSegments true cs, ∀ c ∈ r, isSlash c = false := by
  unfold rawSegments
  rw [isSeparator_true]
  exact not_mem_splitOnP

theorem shorten_subset (path : List (List Char)) : ∀ s ∈ shorten false path, s ∈ path := by
  intro s hs
  unfold shorten at hs
  split at hs
  · simp at hs
  · exact List.mem_of_mem_dropLast hs

/-- What is walked through comes out in normal form. -/
theorem walk_normal {path raws : List (List Char)} (hp : ∀ s ∈ path, NormalSegment s)
    (hr : ∀ r ∈ raws, ∀ c ∈ r, isSlash c = false) : ∀ s ∈ walk false path raws, NormalSegment s := by
  induction raws generalizing path with
  | nil => exact hp
  | cons raw rest ih =>
    have hrest : ∀ r ∈ rest, ∀ c ∈ r, isSlash c = false := fun r h => hr r (List.mem_cons_of_mem _ h)
    have hclose : ∀ path : List (List Char), (∀ s ∈ path, NormalSegment s) →
        ∀ s ∈ (if rest.isEmpty then path ++ [[]] else path), NormalSegment s := by
      intro path hp s hs
      split at hs
      · rcases List.mem_append.1 hs with hs | hs
        · exact hp s hs
        · rw [List.mem_singleton.1 hs]
          exact NormalSegment.nil
      · exact hp s hs
    unfold walk
    dsimp only
    split
    · exact ih (hclose _ fun s hs => hp s (shorten_subset path s hs)) hrest
    split
    · exact ih (hclose _ hp) hrest
    · rename_i hdouble hsingle
      refine ih ?_ hrest
      have hpush : pushSegment false path (percentEncode inPathSet raw) = path ++ [percentEncode inPathSet raw] := rfl
      rw [hpush]
      intro s hs
      rcases List.mem_append.1 hs with hs | hs
      · exact hp s hs
      · rw [List.mem_singleton.1 hs]
        have hchars : ∀ c ∈ percentEncode inPathSet raw, PathChar c :=
          escape_char (by decide) (by decide) fun c hc hset => ⟨hset, hr raw List.mem_cons_self c hc⟩
        exact ⟨hchars, Bool.eq_false_iff.2 hsingle, Bool.eq_false_iff.2 hdouble⟩

/-- And is never empty: the last segment stays, or leaves an empty one. -/
theorem walk_ne_nil {path raws : List (List Char)} (h : raws ≠ []) : walk false path raws ≠ [] := by
  induction raws generalizing path with
  | nil => exact absurd rfl h
  | cons raw rest ih =>
    unfold walk
    dsimp only
    cases rest with
    | nil =>
      simp only [walk, List.isEmpty_nil, if_true]
      split
      · simp
      split
      · simp
      · simp [pushSegment]
    | cons r rest =>
      split
      · exact ih (by simp)
      split
      · exact ih (by simp)
      · exact ih (by simp)

/-- Segments in normal form are walked through as they stand. -/
theorem walk_self {path segs : List (List Char)} (h : ∀ s ∈ segs, NormalSegment s) : walk false path segs = path ++ segs := by
  induction segs generalizing path with
  | nil => exact (List.append_nil path).symm
  | cons s segs ih =>
    have hs := h s List.mem_cons_self
    have henc : percentEncode inPathSet s = s := percentEncode_self fun c hc => (hs.chars c hc).1
    have hpush : pushSegment false path s = path ++ [s] := rfl
    unfold walk
    dsimp only
    rw [henc, hs.notDouble, hs.notSingle, hpush]
    simp only [Bool.false_eq_true, if_false]
    rw [ih fun t ht => h t (List.mem_cons_of_mem _ ht), List.append_assoc]
    rfl

/-! ## What stands behind a path -/

/-- Nothing, or a query, or a fragment. -/
def Tail (r : List Char) : Prop := ∀ c ∈ r.head?, endsPath c = true

theorem endsPath_ends {e : Char} (h : endsPath e = true) : ends e = true := by
  unfold endsPath at h
  simp only [Bool.or_eq_true, decide_eq_true_eq] at h
  rcases h with rfl | rfl <;> decide

theorem Tail.cases {r : List Char} (h : Tail r) : r = [] ∨ ∃ e t, endsPath e = true ∧ r = e :: t := by
  cases r with
  | nil => exact .inl rfl
  | cons e t => exact .inr ⟨e, t, h e rfl, rfl⟩

theorem takeWhile_tail (p : Char → Bool) (xs r : List Char) (hx : ∀ c ∈ xs, p c = true)
    (hr : ∀ c ∈ r.head?, p c = false) : (xs ++ r).takeWhile p = xs ∧ (xs ++ r).dropWhile p = r := by
  rw [List.takeWhile_append_of_pos hx, List.dropWhile_append_of_pos hx]
  cases r with
  | nil => exact ⟨List.append_nil xs, rfl⟩
  | cons c r =>
    have hc : ¬p c = true := by simp [hr c rfl]
    rw [List.takeWhile_cons_of_neg hc, List.dropWhile_cons_of_neg hc]
    exact ⟨List.append_nil xs, rfl⟩

/-- The parser takes nothing off a text without blanks, only off what stands behind it. -/
theorem strip_head {front r : List Char} (hne : front ≠ []) (hf : ∀ c ∈ front, isC0OrSpace c = false)
    (hr : ∀ c ∈ r.head?, ends c = true) : ∃ r', r'.head? = r.head? ∧ strip (front ++ r) = front ++ r' := by
  have hkept : front.filter kept = front := by
    rw [List.filter_eq_self]
    intro c hc
    by_contra hk
    have hb := blank_of_dropped (Bool.eq_false_iff.2 hk)
    rw [hf c hc] at hb
    cases hb
  have hlead : lead (front ++ r) = front ++ r.filter kept := by
    obtain ⟨c, cs, rfl⟩ := List.exists_cons_of_ne_nil hne
    have hc : ¬isC0OrSpace c = true := by simp [hf c List.mem_cons_self]
    rw [lead, List.cons_append, List.dropWhile_cons_of_neg hc, ← List.cons_append, List.filter_append, hkept]
  have hlast : ∀ c ∈ front.getLast?, isC0OrSpace c = false := fun c hc => hf c (List.mem_of_getLast? hc)
  refine ⟨trail (r.filter kept), ?_, by rw [strip_eq, hlead, trail_append hlast]⟩
  cases r with
  | nil => rfl
  | cons e t =>
    have he : ends e = true := hr e rfl
    have hcut : trail ([] ++ e :: t.filter kept) = [] ++ e :: trail (t.filter kept) := trail_at he
    rw [List.nil_append, List.nil_append] at hcut
    rw [List.filter_cons_of_pos (end_kept he), hcut]
    rfl

theorem strip_front {front r : List Char} (hne : front ≠ []) (hf : ∀ c ∈ front, isC0OrSpace c = false) (hr : Tail r) :
    ∃ r', Tail r' ∧ strip (front ++ r) = front ++ r' := by
  obtain ⟨r', hhead, hstrip⟩ := strip_head hne hf fun c hc => endsPath_ends (hr c hc)
  refine ⟨r', ?_, hstrip⟩
  unfold Tail
  rw [hhead]
  exact hr

/-! ## Joined segments -/

open UrlRecord

theorem joinSegments_cons (s : List Char) (segs : List (List Char)) :
    joinSegments (s :: segs) = '/' :: s ++ joinSegments segs := rfl

theorem mem_joinSegments {segs : List (List Char)} {c : Char} (h : c ∈ joinSegments segs) :
    c = '/' ∨ ∃ s ∈ segs, c ∈ s := by
  obtain ⟨s, hs, hc⟩ := List.mem_flatMap.1 h
  rcases List.mem_cons.1 hc with rfl | hc
  · exact .inl rfl
  · exact .inr ⟨s, hs, hc⟩

theorem joinSegments_clean {segs : List (List Char)} (h : ∀ s ∈ segs, NormalSegment s) :
    ∀ c ∈ joinSegments segs, isC0OrSpace c = false ∧ endsPath c = false := by
  intro c hc
  rcases mem_joinSegments hc with rfl | ⟨s, hs, hc⟩
  · decide
  · have hchar := (h s hs).chars c hc
    exact ⟨hchar.not_blank, endsPath_of_ends hchar.not_end⟩

theorem splitOnP_joined {s : List Char} {segs : List (List Char)} (hs : ∀ c ∈ s, isSlash c = false)
    (h : ∀ t ∈ segs, ∀ c ∈ t, isSlash c = false) : (s ++ joinSegments segs).splitOnP isSlash = s :: segs := by
  induction segs generalizing s with
  | nil =>
    have hnil : s ++ joinSegments [] = s := List.append_nil s
    rw [hnil, List.splitOnP_eq_singleton hs]
  | cons t segs ih =>
    have htail := ih (h t List.mem_cons_self) fun u hu => h u (List.mem_cons_of_mem _ hu)
    have hcons : s ++ joinSegments (t :: segs) = s ++ '/' :: (t ++ joinSegments segs) := rfl
    rw [hcons, List.splitOnP_append_cons_of_forall_mem hs '/' (by decide), htail]

/-- Joined segments are split into the same ones. -/
theorem rawSegments_joined {s : List Char} {segs : List (List Char)} {r : List Char}
    (h : ∀ t ∈ s :: segs, NormalSegment t) (hr : Tail r) : rawSegments true (s ++ joinSegments segs ++ r) = s :: segs := by
  have hclean : ∀ c ∈ s ++ joinSegments segs, (!endsPath c) = true := by
    intro c hc
    rcases List.mem_append.1 hc with hc | hc
    · have hchar := (h s List.mem_cons_self).chars c hc
      rw [endsPath_of_ends hchar.not_end]
      rfl
    · rw [(joinSegments_clean (fun t ht => h t (List.mem_cons_of_mem _ ht)) c hc).2]
      rfl
  have hcut : pathText (s ++ joinSegments segs ++ r) = s ++ joinSegments segs :=
    (takeWhile_tail _ _ _ hclean fun c hc => by rw [hr c hc]; rfl).1
  have hslash : ∀ t ∈ s :: segs, ∀ c ∈ t, isSlash c = false := fun t ht c hc => ((h t ht).chars c hc).2
  rw [rawSegments, hcut, isSeparator_true]
  exact splitOnP_joined (hslash s List.mem_cons_self) fun t ht => hslash t (List.mem_cons_of_mem _ ht)

/-- So a path in normal form behind an authority reads as itself. -/
theorem startPath_joined {segs : List (List Char)} {r : List Char} (h : ∀ s ∈ segs, NormalSegment s) (hr : Tail r) :
    startPath true false (joinSegments segs ++ r) = if segs = [] then [[]] else segs := by
  cases segs with
  | nil =>
    have hcut : pathText ([] ++ r) = [] := (takeWhile_tail _ _ _ (by simp) fun c hc => by rw [hr c hc]; rfl).1
    have hjoin : joinSegments [] ++ r = [] ++ r := rfl
    rw [hjoin, startPath, hcut]
    rfl
  | cons s segs =>
    have hjoin : joinSegments (s :: segs) ++ r = '/' :: (s ++ joinSegments segs ++ r) := by
      rw [joinSegments_cons]
      simp
    have hcut : pathText ('/' :: (s ++ joinSegments segs ++ r)) = '/' :: pathText (s ++ joinSegments segs ++ r) :=
      List.takeWhile_cons_of_pos (by decide)
    have hsep : isSeparator true '/' = true := rfl
    rw [hjoin, startPath, hcut]
    dsimp only
    rw [hsep, if_pos rfl, List.tail_cons, rawSegments_joined h hr, walk_self h, if_neg (by simp)]
    rfl

/-! ## Authorities -/

/-- A host's text: brackets stand around the whole of it, or it has no colon. -/
structure HostText (host : List Char) : Prop where
  nonempty : host ≠ []
  chars : ∀ c ∈ host, isC0OrSpace c = false ∧ ends c = false ∧ c ≠ '@'
  colon : (∀ c ∈ host, c ≠ ':' ∧ c ≠ '[') ∨ ∃ inner, host = '[' :: (inner ++ [']']) ∧ ∀ c ∈ inner, c ≠ '[' ∧ c ≠ ']'

/-- It stays one when it is encoded, if brackets are kept. -/
theorem HostText.encode {host : List Char} (h : HostText host) {inSet : Char → Bool} (hopen : inSet '[' = false)
    (hclose : inSet ']' = false) : HostText (percentEncode inSet host) := by
  refine ⟨percentEncode_ne_nil inSet h.nonempty, escape_char (by decide) (by decide) fun c hc _ => h.chars c hc, ?_⟩
  rcases h.colon with hc | ⟨inner, rfl, hinner⟩
  · exact .inl (escape_char (by decide) (by decide) fun c hmem _ => hc c hmem)
  · refine .inr ⟨percentEncode inSet inner, ?_, escape_char (by decide) (by decide) fun c hmem _ => hinner c hmem⟩
    have hsplit : '[' :: (inner ++ [']']) = ['['] ++ (inner ++ [']']) := rfl
    have ho : percentEncode inSet ['['] = ['['] := percentEncode_self (by simpa using hopen)
    have hc : percentEncode inSet [']'] = [']'] := percentEncode_self (by simpa using hclose)
    rw [hsplit, percentEncode_append, percentEncode_append, ho, hc]
    rfl

/-- A port the scheme would not leave out. -/
def PortOk (scheme : String) (port : Option Nat) : Prop := ∀ n ∈ port, n ≤ 65535 ∧ defaultPort scheme ≠ some n

theorem splitPort_outside {host : List Char} (h : ∀ c ∈ host, c ≠ ':' ∧ c ≠ '[') (t : List Char) :
    splitPort false (host ++ t) = (host ++ (splitPort false t).1, (splitPort false t).2) := by
  induction host with
  | nil => rfl
  | cons c host ih =>
    obtain ⟨hcolon, hopen⟩ := h c List.mem_cons_self
    have hstate : (if c = '[' then true else if c = ']' then false else false) = false := by simp [hopen]
    rw [List.cons_append, splitPort, if_neg fun hc => hcolon hc.1]
    dsimp only
    rw [hstate, ih fun d hd => h d (List.mem_cons_of_mem _ hd)]
    rfl

theorem splitPort_inside {inner : List Char} (h : ∀ c ∈ inner, c ≠ '[' ∧ c ≠ ']') (t : List Char) :
    splitPort true (inner ++ ']' :: t) = (inner ++ ']' :: (splitPort false t).1, (splitPort false t).2) := by
  induction inner with
  | nil => rfl
  | cons c inner ih =>
    obtain ⟨hopen, hclose⟩ := h c List.mem_cons_self
    have hstate : (if c = '[' then true else if c = ']' then false else true) = true := by simp [hclose]
    rw [List.cons_append, splitPort, if_neg (by simp)]
    dsimp only
    rw [hstate, ih fun d hd => h d (List.mem_cons_of_mem _ hd)]
    rfl

/-- The port is split off a host's text, and nothing else. -/
theorem HostText.splitPort {host : List Char} (h : HostText host) (t : List Char) :
    splitPort false (host ++ t) = (host ++ (Url.splitPort false t).1, (Url.splitPort false t).2) := by
  rcases h.colon with hc | ⟨inner, rfl, hinner⟩
  · exact splitPort_outside hc t
  · have hjoin : '[' :: (inner ++ [']']) ++ t = '[' :: (inner ++ ']' :: t) := by simp
    rw [hjoin, Url.splitPort, if_neg (by simp)]
    dsimp only
    rw [if_pos rfl, splitPort_inside hinner]
    simp

theorem digitsValue_append (xs : List Char) (x : Char) :
    digitsValue (xs ++ [x]) = 10 * digitsValue xs + (x.toNat - '0'.toNat) := by
  unfold digitsValue
  rw [List.foldl_append]
  rfl

theorem digitChar_value {d : Nat} (h : d < 10) : (Nat.digitChar d).toNat - '0'.toNat = d := by
  revert d
  decide

theorem digitsValue_toDigits (n : Nat) : digitsValue (Nat.toDigits 10 n) = n := by
  induction n using Nat.strongRecOn with
  | ind n ih =>
    by_cases hn : n < 10
    · rw [Nat.toDigits_of_lt_base hn]
      have hd := digitChar_value hn
      simp only [digitsValue, List.foldl_cons, List.foldl_nil]
      omega
    · have hlt : n / 10 < n := by omega
      rw [Nat.toDigits_of_base_le (by omega) (by omega), digitsValue_append, ih _ hlt,
        digitChar_value (Nat.mod_lt n (by omega))]
      omega

theorem portText_some (n : Nat) : portText (some n) = ':' :: Nat.toDigits 10 n := by
  have htext : (toString n).toList = Nat.toDigits 10 n := Nat.toList_repr
  rw [portText, htext]

theorem parsePort_text {scheme : String} {n : Nat} (h : PortOk scheme (some n)) :
    parsePort scheme (Nat.toDigits 10 n) = some (some n) := by
  obtain ⟨hle, hne⟩ := h n rfl
  have hdigits : (Nat.toDigits 10 n).all Char.isDigit = true :=
    List.all_eq_true.2 fun c hc => Nat.isDigit_of_mem_toDigits (by decide) (by decide) hc
  have hval := digitsValue_toDigits n
  unfold parsePort
  rw [if_neg Nat.toDigits_ne_nil, hval, if_pos ⟨hdigits, hle⟩, if_neg hne]

theorem portText_chars {port : Option Nat} : ∀ c ∈ portText port, isC0OrSpace c = false ∧ ends c = false ∧ c ≠ '@' := by
  intro c hc
  cases port with
  | none => cases hc
  | some n =>
    rw [portText_some] at hc
    rcases List.mem_cons.1 hc with rfl | hc
    · decide
    · have hdigit : c.isDigit = true := Nat.isDigit_of_mem_toDigits (by decide) (by decide) hc
      refine ⟨digit_not_blank hdigit, ?_, ?_⟩
      · by_contra he
        simp only [ends, endsAuthority, Bool.not_eq_false, Bool.or_eq_true, decide_eq_true_eq, Bool.and_eq_true,
          true_and] at he
        rcases he with ((rfl | rfl) | rfl) | rfl <;> exact absurd hdigit (by decide)
      · rintro rfl
        exact absurd hdigit (by decide)

theorem afterCredentials_self {auth : List Char} (h : '@' ∉ auth) : afterCredentials auth = auth := by
  have hall : ∀ c ∈ auth.reverse, decide (c ≠ '@') = true := by
    intro c hc
    have hne : c ≠ '@' := fun e => h (e ▸ List.mem_reverse.1 hc)
    simpa using hne
  rw [afterCredentials, List.takeWhile_eq_self_iff.2 hall, List.reverse_reverse]

theorem credentials_none {auth : List Char} (h : '@' ∉ auth) : credentials auth = [] := by
  have hall : auth.reverse.dropWhile (· ≠ '@') = [] := by
    rw [List.dropWhile_eq_nil_iff]
    intro c hc
    have hne : c ≠ '@' := fun e => h (e ▸ List.mem_reverse.1 hc)
    simpa using hne
  rw [credentials, hall]
  rfl

/-- Host and port of a web URL read as themselves. -/
theorem parseAuthority_text {H : HostParser} {scheme host : String} {text : List Char} {port : Option Nat}
    (ht : HostText text) (hH : H true text = some host) (hp : PortOk scheme port) :
    parseAuthority H true scheme (text ++ portText port) = some (host, port) := by
  have hat : '@' ∉ text ++ portText port := by
    intro hmem
    rcases List.mem_append.1 hmem with hmem | hmem
    · exact (ht.chars _ hmem).2.2 rfl
    · exact (portText_chars _ hmem).2.2 rfl
  have hself := afterCredentials_self hat
  unfold parseAuthority
  dsimp only
  rw [hself, ht.splitPort]
  cases port with
  | none =>
    have hsplit : Url.splitPort false (portText none) = ([], none) := rfl
    rw [hsplit]
    simp [ht.nonempty, hH, parsePort]
  | some n =>
    have hsplit : Url.splitPort false (portText (some n)) = ([], some (Nat.toDigits 10 n)) := by
      rw [portText_some]
      rfl
    rw [hsplit]
    simp [ht.nonempty, hH, parsePort_text hp]

end Url

namespace UrlRecord

open Url

/-! ## The parts read again -/

theorem web_special {scheme : String} (h : (defaultPort scheme).isSome = true) : isSpecial scheme = true := by
  rw [isSpecial, h, Bool.or_true]

theorem web_not_file {scheme : String} (h : (defaultPort scheme).isSome = true) : scheme ≠ "file" := by
  rintro rfl
  exact absurd h (by decide)

theorem tail_ends {segs : List (List Char)} {r : List Char} (hr : Tail r) :
    ∀ c ∈ (joinSegments segs ++ r).head?, ends c = true := by
  intro c hc
  cases segs with
  | nil => exact endsPath_ends (hr c hc)
  | cons s segs =>
    rw [joinSegments_cons, List.cons_append, List.cons_append, List.head?_cons, Option.mem_some_iff] at hc
    rw [← hc]
    decide

/-- An authority's text in front of a path is cut off there. -/
theorem readAuthority_at (H : HostParser) {scheme : String} (hw : (defaultPort scheme).isSome = true) {auth : List Char}
    (hauth : ∀ c ∈ auth, ends c = false) {segs : List (List Char)} (hn : ∀ s ∈ segs, NormalSegment s) {r : List Char}
    (hr : Tail r) :
    readAuthority H scheme (auth ++ (joinSegments segs ++ r)) =
      (parseAuthority H true scheme auth).map fun hp =>
        { scheme := scheme
          username := percentEncode inUserinfoSet ((credentials auth).takeWhile (· ≠ ':'))
          password := percentEncode inUserinfoSet (((credentials auth).dropWhile (· ≠ ':')).drop 1)
          host := some hp.1
          port := hp.2
          path := .segments (if segs = [] then [[]] else segs)
          query := readQuery true (joinSegments segs ++ r) } := by
  have hcut := takeWhile_tail (fun c => !endsAuthority true c) auth (joinSegments segs ++ r)
    (fun c hc => by
      have hend : endsAuthority true c = false := hauth c hc
      simp [hend])
    (fun c hc => by
      have hend : endsAuthority true c = true := tail_ends hr c hc
      simp [hend])
  unfold readAuthority
  dsimp only
  rw [web_special hw, hcut.1, hcut.2, startPath_joined hn hr]

theorem splitScheme_slash (cs : List Char) : splitScheme ('/' :: cs) = none := rfl

theorem joinSegments_slash {segs : List (List Char)} (h : segs ≠ []) : ∃ cs, joinSegments segs = '/' :: cs := by
  obtain ⟨s, segs, rfl⟩ := List.exists_cons_of_ne_nil h
  exact ⟨_, rfl⟩

/-- A path read against a base is relative. -/
theorem read_relative (H : HostParser) (b : Base) {segs : List (List Char)} (hne : segs ≠ [])
    (hn : ∀ s ∈ segs, NormalSegment s) {r : List Char} (hr : Tail r) :
    ∃ r', Tail r' ∧ readChars H (some b) (joinSegments segs ++ r) = readRelative H b (joinSegments segs ++ r') := by
  obtain ⟨cs, hcs⟩ := joinSegments_slash hne
  have hfront : joinSegments segs ≠ [] := by simp [hcs]
  obtain ⟨r', hr', hstrip⟩ := strip_front hfront (fun c hc => (joinSegments_clean hn c hc).1) hr
  refine ⟨r', hr', ?_⟩
  have hscheme : splitScheme (joinSegments segs ++ r') = none := by
    rw [hcs, List.cons_append]
    exact splitScheme_slash _
  unfold readChars
  rw [hstrip, hscheme]

theorem read_path (H : HostParser) (b : Base) {s : List Char} {segs : List (List Char)} (hs : s ≠ [] ∨ segs = [])
    (hn : ∀ t ∈ s :: segs, NormalSegment t) {r : List Char} (hr : Tail r) :
    ∃ query, readChars H (some b) (joinSegments (s :: segs) ++ r) = some (onBase b (s :: segs) query) := by
  obtain ⟨r', hr', hread⟩ := read_relative H b (by simp) hn hr
  have hjoin : joinSegments (s :: segs) ++ r' = '/' :: (s ++ joinSegments segs ++ r') := by
    rw [joinSegments_cons]
    simp
  have hsecond : (s ++ joinSegments segs ++ r').head?.any isSlash = false := by
    cases s with
    | cons c s =>
      have hc := ((hn (c :: s) List.mem_cons_self).chars c List.mem_cons_self).2
      simpa using hc
    | nil =>
      have hsegs : segs = [] := hs.resolve_left (by simp)
      rw [hsegs]
      rcases hr'.cases with rfl | ⟨e, t, he, rfl⟩
      · rfl
      · have hslash : isSlash e = false := by
          unfold endsPath at he
          simp only [Bool.or_eq_true, decide_eq_true_eq] at he
          rcases he with rfl | rfl <;> decide
        simpa [joinSegments] using hslash
  have hslash : isSlash '/' = true := rfl
  refine ⟨readQuery true (s ++ joinSegments segs ++ r'), ?_⟩
  rw [hread, hjoin, readRelative, if_pos hslash, hsecond, rawSegments_joined hn hr', walk_self hn]
  rfl

/-- What a path with an empty first segment and others behind it is read as, against a
    base: the first that is not empty is an authority, the rest its path. -/
def behindSlashes (H : HostParser) (scheme : String) (segs : List (List Char)) :
    Option ((String × Option Nat) × List (List Char)) :=
  match segs.dropWhile (·.isEmpty) with
  | [] => none
  | auth :: more => (parseAuthority H true scheme auth).map fun hp => (hp, if more = [] then [[]] else more)

theorem dropSlashes {segs : List (List Char)} (hn : ∀ s ∈ segs, NormalSegment s) {r : List Char} (hr : Tail r) :
    (joinSegments segs ++ r).dropWhile isSlash =
      match segs.dropWhile (·.isEmpty) with
      | [] => r
      | auth :: more => auth ++ (joinSegments more ++ r) := by
  induction segs with
  | nil =>
    rcases hr.cases with rfl | ⟨e, t, he, rfl⟩
    · rfl
    · have hslash : ¬isSlash e = true := by
        unfold endsPath at he
        simp only [Bool.or_eq_true, decide_eq_true_eq] at he
        rcases he with rfl | rfl <;> decide
      exact List.dropWhile_cons_of_neg hslash
  | cons s segs ih =>
    have htail := ih fun t ht => hn t (List.mem_cons_of_mem _ ht)
    have hslash : isSlash '/' = true := rfl
    rw [joinSegments_cons, List.cons_append, List.cons_append, List.dropWhile_cons_of_pos hslash, List.append_assoc]
    cases s with
    | nil =>
      rw [List.dropWhile_cons_of_pos (by rfl)]
      exact htail
    | cons c s =>
      have hc : ¬isSlash c = true := by simp [((hn (c :: s) List.mem_cons_self).chars c List.mem_cons_self).2]
      rw [List.cons_append, List.dropWhile_cons_of_neg hc, List.dropWhile_cons_of_neg (by simp)]
      rfl

theorem read_slashes (H : HostParser) (b : Base) {t : List Char} {segs : List (List Char)}
    (hn : ∀ s ∈ [] :: t :: segs, NormalSegment s) {r : List Char} (hr : Tail r) :
    ∃ username password query, readChars H (some b) (joinSegments ([] :: t :: segs) ++ r) =
      (behindSlashes H b.scheme (t :: segs)).map fun read =>
        { scheme := b.scheme, username := username, password := password, host := some read.1.1, port := read.1.2,
          path := .segments read.2, query := query } := by
  obtain ⟨r', hr', hread⟩ := read_relative H b (by simp) hn hr
  have hn' : ∀ s ∈ t :: segs, NormalSegment s := fun s hs => hn s (List.mem_cons_of_mem _ hs)
  have hjoin : joinSegments ([] :: t :: segs) ++ r' = '/' :: (joinSegments (t :: segs) ++ r') := rfl
  have hslash : isSlash '/' = true := rfl
  have hsecond : (joinSegments (t :: segs) ++ r').head?.any isSlash = true := rfl
  have hauth : readChars H (some b) (joinSegments ([] :: t :: segs) ++ r) =
      readAuthority H b.scheme ((joinSegments (t :: segs) ++ r').dropWhile isSlash) := by
    rw [hread, hjoin, readRelative, if_pos hslash, hsecond, if_pos rfl]
  have hdrop := dropSlashes hn' hr'
  rw [hauth, hdrop, behindSlashes]
  cases hsegs : (t :: segs).dropWhile (·.isEmpty) with
  | nil =>
    have hnil : readAuthority H b.scheme ([] ++ (joinSegments [] ++ r')) = _ :=
      readAuthority_at H b.web (by simp) (by simp) hr'
    exact ⟨[], [], none, hnil⟩
  | cons auth more =>
    have hmem : ∀ s ∈ auth :: more, NormalSegment s := by
      intro s hs
      rw [← hsegs] at hs
      exact hn' s ((List.dropWhile_suffix _).subset hs)
    have hchars : ∀ c ∈ auth, ends c = false := fun c hc => ((hmem auth List.mem_cons_self).chars c hc).not_end
    have hread := readAuthority_at H b.web hchars (fun s hs => hmem s (List.mem_cons_of_mem _ hs)) hr'
    simp only [Option.map_map]
    exact ⟨_, _, _, hread⟩

theorem web_scheme {scheme : String} (h : (defaultPort scheme).isSome = true) :
    IsScheme scheme.toList ∧ String.ofList (scheme.toList.map Char.toLower) = scheme ∧
      ∀ c ∈ scheme.toList, isC0OrSpace c = false := by
  unfold defaultPort at h
  split at h
  all_goals first
    | exact ⟨⟨⟨_, rfl, by decide⟩, forall_chars (by decide)⟩, by decide, forall_chars (by decide)⟩
    | cases h

theorem webOrigin_text (scheme host : String) (port : Option Nat) :
    (webOrigin scheme host port).toList = scheme.toList ++ ':' :: '/' :: '/' :: (host.toList ++ portText port) := by
  unfold webOrigin
  rw [String.toList_append, String.toList_append, String.toList_append, String.toList_ofList]
  simp

/-- A web URL's parts, put together again, are read as they were. -/
theorem read_origin (H : HostParser) (base : Option Base) {scheme host : String} {text : List Char} {port : Option Nat}
    (hw : (defaultPort scheme).isSome = true) (ht : HostText text) (hH : H true text = some host)
    (hp : PortOk scheme port) {segs : List (List Char)} (hn : ∀ s ∈ segs, NormalSegment s) {r : List Char} (hr : Tail r) :
    ∃ query, readChars H base
        (scheme.toList ++ ':' :: '/' :: '/' :: (text ++ portText port) ++ joinSegments segs ++ r) =
      some { scheme := scheme, host := some host, port := port,
             path := .segments (if segs = [] then [[]] else segs), query := query } := by
  obtain ⟨hname, hlower, hclean⟩ := web_scheme hw
  have hauth : ∀ c ∈ text ++ portText port, isC0OrSpace c = false ∧ ends c = false ∧ c ≠ '@' := by
    intro c hc
    rcases List.mem_append.1 hc with hc | hc
    · exact ht.chars c hc
    · exact portText_chars c hc
  have hfront : ∀ c ∈ scheme.toList ++ ':' :: '/' :: '/' :: (text ++ portText port) ++ joinSegments segs,
      isC0OrSpace c = false := by
    intro c hc
    rcases List.mem_append.1 hc with hc | hc
    · rcases List.mem_append.1 hc with hc | hc
      · exact hclean c hc
      · simp only [List.mem_cons] at hc
        rcases hc with rfl | rfl | rfl | hc
        · rfl
        · rfl
        · rfl
        · exact (hauth c hc).1
    · exact (joinSegments_clean hn c hc).1
  obtain ⟨r', hr', hstrip⟩ := strip_front (by simp) hfront hr
  have hsplit : splitScheme (scheme.toList ++ ':' :: '/' :: '/' :: (text ++ portText port) ++ joinSegments segs ++ r') =
      some (scheme, '/' :: '/' :: (text ++ portText port ++ (joinSegments segs ++ r'))) := by
    have hname' := splitScheme_name hname ('/' :: '/' :: (text ++ portText port ++ (joinSegments segs ++ r')))
    rw [hlower] at hname'
    rw [← hname']
    simp
  have habs : readAbsolute H scheme ('/' :: '/' :: (text ++ portText port ++ (joinSegments segs ++ r'))) =
      readAuthority H scheme (text ++ portText port ++ (joinSegments segs ++ r')) := by
    obtain ⟨c, cs, rfl⟩ := List.exists_cons_of_ne_nil ht.nonempty
    have hc : ¬isSlash c = true := by
      intro hslash
      have hend := (ht.chars c List.mem_cons_self).2.1
      unfold isSlash at hslash
      simp only [Bool.or_eq_true, decide_eq_true_eq] at hslash
      rcases hslash with rfl | rfl <;> exact absurd hend (by decide)
    rw [readAbsolute, if_neg (web_not_file hw), if_pos hw, List.dropWhile_cons_of_pos (by rfl),
      List.dropWhile_cons_of_pos (by rfl), List.cons_append, List.cons_append, List.dropWhile_cons_of_neg hc]
  have hread : readChars H base (scheme.toList ++ ':' :: '/' :: '/' :: (text ++ portText port) ++ joinSegments segs ++ r) =
      readAbsolute H scheme ('/' :: '/' :: (text ++ portText port ++ (joinSegments segs ++ r'))) := by
    unfold readChars
    rw [hstrip, hsplit]
    cases base with
    | none => rfl
    | some b => exact if_neg fun h => h.2 ⟨_, rfl⟩
  have hat : '@' ∉ text ++ portText port := fun hmem => (hauth _ hmem).2.2 rfl
  have hcred := credentials_none hat
  rw [hread, habs, readAuthority_at H hw (fun c hc => (hauth c hc).2.1) hn hr', parseAuthority_text ht hH hp, hcred]
  exact ⟨_, rfl⟩

/-! ## What is read is in normal form -/

/-- A web URL as the parser leaves it. -/
structure Normal (H : HostParser) (u : UrlRecord) : Prop where
  host : ∃ host, u.host = some host ∧ ∃ text, H true text = some host
  port : PortOk u.scheme u.port
  path : ∃ segs, u.path = .segments segs ∧ segs ≠ [] ∧ ∀ s ∈ segs, NormalSegment s

structure NormalBase (H : HostParser) (b : Base) : Prop where
  host : ∃ text, H true text = some b.host
  port : PortOk b.scheme b.port
  nonempty : b.path ≠ []
  path : ∀ s ∈ b.path, NormalSegment s

theorem parsePort_ok {scheme : String} {ds : List Char} {port : Option Nat} (h : parsePort scheme ds = some port) :
    PortOk scheme port := by
  unfold parsePort at h
  intro n hn
  split at h
  · injection h with h
    rw [← h] at hn
    cases hn
  split at h
  · rename_i hdigits
    injection h with h
    rw [← h] at hn
    split at hn
    · cases hn
    · rename_i hne
      rw [Option.mem_some_iff] at hn
      rw [← hn]
      exact ⟨hdigits.2, hne⟩
  · cases h

theorem parseAuthority_ok {H : HostParser} {scheme : String} {auth : List Char} {hp : String × Option Nat}
    (h : parseAuthority H true scheme auth = some hp) : (∃ text, H true text = some hp.1) ∧ PortOk scheme hp.2 := by
  unfold parseAuthority at h
  dsimp only at h
  split at h
  · cases h
  rename_i hcond
  obtain ⟨host, hhost, h⟩ := Option.bind_eq_some_iff.1 h
  obtain ⟨port, hport, rfl⟩ := Option.map_eq_some_iff.1 h
  have hne : (splitPort false (afterCredentials auth)).1 ≠ [] := fun e => hcond ⟨e, .inl rfl⟩
  rw [if_neg hne] at hhost
  exact ⟨⟨_, hhost⟩, parsePort_ok hport⟩

/-- The host of a web URL is one the host parser gives. -/
theorem web_host {H : HostParser} {cs : List Char} {u : Url} (h : parseChars H cs = some u)
    (hu : u.scheme = "http" ∨ u.scheme = "https") : ∃ text host, H true text = some host ∧ u.host = some host := by
  obtain ⟨body, -, hbody⟩ := web_of_parse h hu
  obtain ⟨hp, hparse, hurl⟩ := Option.map_eq_some_iff.1 hbody
  obtain ⟨⟨text, htext⟩, -⟩ := parseAuthority_ok hparse
  exact ⟨text, hp.1, htext, by rw [← hurl]⟩

theorem rawSegments_ne_nil (cs : List Char) : rawSegments true cs ≠ [] := List.splitOnP_ne_nil _ _

theorem startPath_normal (cs : List Char) :
    startPath true false cs ≠ [] ∧ ∀ s ∈ startPath true false cs, NormalSegment s := by
  unfold startPath
  split
  · refine ⟨by simp, ?_⟩
    intro s hs
    rw [if_pos rfl] at hs
    rw [List.mem_singleton.1 hs]
    exact NormalSegment.nil
  · exact ⟨walk_ne_nil (rawSegments_ne_nil _), walk_normal (by simp) (rawSegments_noSlash _)⟩

theorem readAuthority_normal {H : HostParser} {scheme : String} (hw : (defaultPort scheme).isSome = true) {cs : List Char}
    {u : UrlRecord} (h : readAuthority H scheme cs = some u) : Normal H u := by
  obtain ⟨hp, hparse, rfl⟩ := Option.map_eq_some_iff.1 h
  rw [web_special hw] at hparse
  obtain ⟨hhost, hport⟩ := parseAuthority_ok hparse
  rw [web_special hw]
  exact ⟨⟨_, rfl, hhost⟩, hport, _, rfl, startPath_normal _⟩

theorem onBase_normal {H : HostParser} {b : Base} (hb : NormalBase H b) {path : List (List Char)}
    {query : Option (List Char)} (hne : path ≠ []) (hn : ∀ s ∈ path, NormalSegment s) : Normal H (onBase b path query) :=
  ⟨⟨_, rfl, hb.host⟩, hb.port, _, rfl, hne, hn⟩

theorem readRelative_normal {H : HostParser} {b : Base} (hb : NormalBase H b) {cs : List Char} {u : UrlRecord}
    (h : readRelative H b cs = some u) : Normal H u := by
  unfold readRelative at h
  split at h
  · injection h with h
    rw [← h]
    exact onBase_normal hb hb.nonempty hb.path
  split at h
  · split at h
    · exact readAuthority_normal b.web h
    · injection h with h
      rw [← h]
      exact onBase_normal hb (walk_ne_nil (rawSegments_ne_nil _)) (walk_normal (by simp) (rawSegments_noSlash _))
  split at h
  · injection h with h
    rw [← h]
    exact onBase_normal hb hb.nonempty hb.path
  split at h
  · injection h with h
    rw [← h]
    exact onBase_normal hb hb.nonempty hb.path
  · injection h with h
    rw [← h]
    have hpath : ∀ s ∈ b.path.dropLast, NormalSegment s := fun s hs => hb.path s (List.mem_of_mem_dropLast hs)
    exact onBase_normal hb (walk_ne_nil (rawSegments_ne_nil _)) (walk_normal hpath (rawSegments_noSlash _))

theorem readAuthority_scheme {H : HostParser} {scheme : String} {cs : List Char} {u : UrlRecord}
    (h : readAuthority H scheme cs = some u) : u.scheme = scheme := by
  obtain ⟨hp, -, rfl⟩ := Option.map_eq_some_iff.1 h
  rfl

theorem readFile_scheme {H : HostParser} {cs : List Char} {u : UrlRecord} (h : readFile H cs = some u) :
    u.scheme = "file" := by
  unfold readFile at h
  dsimp only at h
  repeat' split at h
  all_goals first
    | (injection h with h; rw [← h])
    | (obtain ⟨_, -, rfl⟩ := Option.map_eq_some_iff.1 h; rfl)

theorem readAbsolute_normal {H : HostParser} {scheme : String} {cs : List Char} {u : UrlRecord}
    (h : readAbsolute H scheme cs = some u) (hw : (defaultPort u.scheme).isSome = true) : Normal H u := by
  unfold readAbsolute at h
  split at h
  · exact absurd (readFile_scheme h) (web_not_file hw)
  split at h
  · rename_i hweb
    exact readAuthority_normal hweb h
  · rename_i hweb
    exfalso
    split at h
    · rw [readAuthority_scheme h] at hw
      exact hweb hw
    · injection h with h
      rw [← h] at hw
      exact hweb hw
    · injection h with h
      rw [← h] at hw
      exact hweb hw

theorem read_normal {H : HostParser} {base : Option Base} (hb : ∀ b ∈ base, NormalBase H b) {cs : List Char}
    {u : UrlRecord} (h : readChars H base cs = some u) (hw : (defaultPort u.scheme).isSome = true) : Normal H u := by
  unfold readChars at h
  split at h
  · cases h
  · exact readRelative_normal (hb _ rfl) h
  · exact readAbsolute_normal h hw
  · split at h
    · exact readRelative_normal (hb _ rfl) h
    · exact readAbsolute_normal h hw

theorem origin_web {H : HostParser} {u : UrlRecord} (hw : (defaultPort u.scheme).isSome = true) :
    u.origin H = webOrigin u.scheme (u.host.getD "") u.port := by
  rw [origin, if_pos hw]

/-- A name is no URL, nor is one with a path behind it. -/
theorem read_name_alone (H : HostParser) {name r : List Char} (hne : name ≠ [])
    (hname : ∀ c ∈ name, isSchemeChar c = true ∧ isC0OrSpace c = false) (hr : ∀ c ∈ r.head?, ends c = true) :
    readChars H none (name ++ r) = none := by
  obtain ⟨r', hhead, hstrip⟩ := strip_head hne (fun c hc => (hname c hc).2) hr
  have hsplit : splitScheme (name ++ r') = none := by
    cases hs : splitScheme (name ++ r') with
    | none => rfl
    | some read =>
      exfalso
      obtain ⟨other, htext, hother, -⟩ := splitScheme_eq hs
      have hcut := (takeWhile_tail isSchemeChar name r' (fun c hc => (hname c hc).1)
        (fun c hc => by
          rw [hhead] at hc
          have hend := hr c hc
          simp only [ends, endsAuthority, Bool.or_eq_true, decide_eq_true_eq, Bool.and_eq_true, true_and] at hend
          rcases hend with ((rfl | rfl) | rfl) | rfl <;> decide)).2
      have hcut' := (takeWhile_tail isSchemeChar other (':' :: read.2) hother.2
        (fun c hc => by
          rw [List.head?_cons, Option.mem_some_iff] at hc
          rw [← hc]
          decide)).2
      rw [htext, hcut'] at hcut
      have hcolon := hr ':'
      rw [← hhead, ← hcut] at hcolon
      exact absurd (hcolon rfl) (by decide)
  unfold readChars
  rw [hstrip, hsplit]

/-- No path of segments is a URL by itself. -/
theorem read_segments_alone (H : HostParser) (segs : List (List Char)) : readChars H none (joinSegments segs) = none := by
  cases segs with
  | nil => rfl
  | cons s segs =>
    have hlead : ∃ cs, strip (joinSegments (s :: segs)) = '/' :: cs := by
      have hsplit : joinSegments (s :: segs) = '/' :: (s ++ joinSegments segs) := rfl
      have hslash : ¬isC0OrSpace '/' = true := by decide
      have hkept : kept '/' = true := rfl
      rw [hsplit, strip_eq, lead, List.dropWhile_cons_of_neg hslash, List.filter_cons_of_pos hkept]
      have hcut : ∀ ys, trail ([] ++ '/' :: ys) = [] ++ '/' :: trail ys := fun ys => trail_at (by decide)
      exact ⟨_, hcut _⟩
    obtain ⟨cs, hcs⟩ := hlead
    unfold readChars
    rw [hcs, splitScheme_slash]

/-- So a URL with a path of segments has an origin only if it is a web URL. -/
theorem origin_segments {H : HostParser} {u : UrlRecord} {segs : List (List Char)} (hpath : u.path = .segments segs)
    (hw : ¬(defaultPort u.scheme).isSome = true) : u.origin H = "null" := by
  unfold origin
  rw [if_neg hw]
  have hname : u.pathname = joinSegments segs := by rw [pathname, hpath]
  rw [hname, read_segments_alone]
  split <;> rfl

end UrlRecord

end ClusterGate.Lib
