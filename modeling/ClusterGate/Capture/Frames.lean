/-
  ClusterGate.Capture.Frames — the objects of a streamed body, as the log view finds them
  (`scanObjects` of the frontend's `lib/streamText.ts`).

  The scanner counts braces outside strings. Inside an object the count stays above zero,
  whatever the strings hold, so an object ends where its own brace is closed.
  - `climb_part`: the tokens of a value leave the depth as it was, and never go below it.
  - `scan_lexemes`: behind an opening brace the scanner follows the tokens, string by string.
  - `scan_object`, `scan_cut`: what it makes of one object, and of the beginning of one.
  - `scanObjects_frames`: objects with blanks between them are split exactly, and one that is
    cut is left as the rest.
  - `looksLikeJsonFrames_frames`: such a body is taken for a framed one from two objects on.
-/

import ClusterGate.Capture.Note
import ClusterGate.Lib.JsonLexemes

namespace ClusterGate.Capture

open Lib
open Lib.JsonParse (Units)
open Lib.JsonLexemes (Blank Lexeme Item Part Derives Document)

/-! ## The scanner -/

/-- Where a bound of `slice` falls in a string of `n` units. -/
def sliceBound (n : Nat) (a : Int) : Nat := if a < 0 then (n + a).toNat else min a.toNat n

def sliceUnits (s : Units) (start stop : Int) : Units :=
  (s.drop (sliceBound s.length start)).take (sliceBound s.length stop - sliceBound s.length start)

structure Scan where
  objects : List Units
  depth : Nat
  start : Int
  inString : Bool
  escaped : Bool
  stray : Bool
  deriving DecidableEq

/-- One turn of the loop, at the unit `c` of place `i`. -/
def scanUnit (s : Units) (i : Nat) (c : Nat) (st : Scan) : Scan :=
  if st.inString then
    if st.escaped then { st with escaped := false }
    else if c = '\\'.toNat then { st with escaped := true }
    else if c = '"'.toNat then { st with inString := false }
    else st
  else if c = '"'.toNat then
    if st.depth > 0 then { st with inString := true } else { st with stray := true }
  else if c = '\x7b'.toNat then
    { st with depth := st.depth + 1, start := if st.depth = 0 then i else st.start }
  else if c = '\x7d'.toNat then
    if st.depth = 0 then { st with stray := true }
    else if st.depth - 1 = 0 then
      { st with depth := 0, objects := st.objects ++ [sliceUnits s st.start (i + 1)], start := -1 }
    else { st with depth := st.depth - 1 }
  else if st.depth = 0 ∧ isSpaceUnit c = false then { st with stray := true }
  else st

def scanLoop (s : Units) : Nat → Units → Scan → Scan
  | _, [], st => st
  | i, c :: cs, st => scanLoop s (i + 1) cs (scanUnit s i c st)

structure Scanned where
  objects : List Units
  rest : Units
  stray : Bool
  deriving DecidableEq

def scanObjects (s : Units) : Scanned :=
  let st := scanLoop s 0 s ⟨[], 0, -1, false, false, false⟩
  ⟨st.objects, if st.start ≥ 0 then sliceUnits s st.start s.length else [], st.stray⟩

theorem scanLoop_append (s : Units) (i : Nat) (cs ds : Units) (st : Scan) :
    scanLoop s i (cs ++ ds) st = scanLoop s (i + cs.length) ds (scanLoop s i cs st) := by
  induction cs generalizing i st with
  | nil => rfl
  | cons c cs ih =>
    rw [List.cons_append, scanLoop, ih, scanLoop, List.length_cons]
    congr 1
    omega

/-! ## Between objects -/

/-- Nothing is open. -/
def idle (objects : List Units) : Scan := ⟨objects, 0, -1, false, false, false⟩

theorem scanUnit_blank (s : Units) (i : Nat) (b : Blank) (objects : List Units) :
    scanUnit s i b.unit (idle objects) = idle objects := by
  cases b <;> rfl

theorem scan_blanks (s : Units) (i : Nat) (gap : List Blank) (objects : List Units) :
    scanLoop s i (gap.map Blank.unit) (idle objects) = idle objects := by
  induction gap generalizing i with
  | nil => rfl
  | cons b gap ih => rw [List.map_cons, scanLoop, scanUnit_blank, ih]

/-! ## Inside an object -/

/-- An object is open from `start`, and the scanner is in no string. -/
def within (objects : List Units) (start : Int) (depth : Nat) : Scan := ⟨objects, depth + 1, start, false, false, false⟩

/-- The same, in a string. -/
def quoted (objects : List Units) (start : Int) (depth : Nat) : Scan := ⟨objects, depth + 1, start, true, false, false⟩

section Within

variable (s : Units) (i : Nat) (objects : List Units) (start : Int) (depth : Nat)

/-- The units that mean something to the scanner outside strings. -/
def isBrace (u : Nat) : Bool := u == '"'.toNat || u == '\x7b'.toNat || u == '\x7d'.toNat

theorem scanUnit_other {u : Nat} (h : isBrace u = false) :
    scanUnit s i u (within objects start depth) = within objects start depth := by
  simp only [isBrace, Bool.or_eq_false_iff, beq_eq_false_iff_ne] at h
  obtain ⟨⟨hquote, hopen⟩, hclose⟩ := h
  simp only [scanUnit, within, if_neg hquote, if_neg hopen, if_neg hclose]
  rfl

theorem scan_others (us : Units) (h : ∀ u ∈ us, isBrace u = false) :
    scanLoop s i us (within objects start depth) = within objects start depth := by
  induction us generalizing i with
  | nil => rfl
  | cons u us ih =>
    rw [scanLoop, scanUnit_other s i objects start depth (h u List.mem_cons_self)]
    exact ih (i + 1) fun v hv => h v (List.mem_cons_of_mem u hv)

theorem scan_plain {u : Nat} (hquote : u ≠ '"'.toNat) (hback : u ≠ '\\'.toNat) :
    scanUnit s i u (quoted objects start depth) = quoted objects start depth := by
  simp only [scanUnit, quoted, if_neg hquote, if_neg hback]
  rfl

/-- An item of a string does not end it. -/
theorem scan_item {item : Item} (h : item.valid = true) :
    scanLoop s i item.text (quoted objects start depth) = quoted objects start depth := by
  cases item with
  | unit u =>
    simp only [Item.valid, JsonLexemes.isPlain, Bool.and_eq_true, bne_iff_ne] at h
    exact scan_plain s i objects start depth h.1.2 h.2
  | letter u => rfl
  | number a b c d =>
    simp only [Item.valid, Bool.and_eq_true] at h
    have hhex : ∀ {v : Nat}, JsonLexemes.isHex v = true → v ≠ '"'.toNat ∧ v ≠ '\\'.toNat := by
      intro v hv
      refine ⟨fun heq => ?_, fun heq => ?_⟩ <;> rw [heq] at hv <;> exact absurd hv (by decide)
    show scanLoop s (i + 2) [a, b, c, d] (quoted objects start depth) = quoted objects start depth
    simp only [scanLoop, scan_plain s _ objects start depth (hhex h.1.1.1).1 (hhex h.1.1.1).2,
      scan_plain s _ objects start depth (hhex h.1.1.2).1 (hhex h.1.1.2).2,
      scan_plain s _ objects start depth (hhex h.1.2).1 (hhex h.1.2).2,
      scan_plain s _ objects start depth (hhex h.2).1 (hhex h.2).2]

theorem scan_items (items : List Item) (h : ∀ item ∈ items, item.valid = true) :
    scanLoop s i (JsonLexemes.itemsText items) (quoted objects start depth) = quoted objects start depth := by
  induction items generalizing i with
  | nil => rfl
  | cons item items ih =>
    rw [JsonLexemes.itemsText_cons, scanLoop_append, scan_item s i objects start depth (h item List.mem_cons_self)]
    exact ih _ fun j hj => h j (List.mem_cons_of_mem item hj)

theorem scan_string (items : List Item) (h : ∀ item ∈ items, item.valid = true) :
    scanLoop s i (Lexeme.str items).text (within objects start depth) = within objects start depth := by
  show scanLoop s (i + 1) (JsonLexemes.itemsText items ++ ['"'.toNat]) (quoted objects start depth) = _
  rw [scanLoop_append, scan_items s (i + 1) objects start depth items h]
  rfl

end Within

/-! ## Depth -/

def tread (depth : Nat) : JsonLexemes.Kind → Option Nat
  | .mark .openObject => some (depth + 1)
  | .mark .closeObject => if depth = 0 then none else some (depth - 1)
  | _ => some depth

/-- The braces open behind the tokens, or nothing if one more is closed than was opened. -/
def climb (depth : Nat) (ks : List JsonLexemes.Kind) : Option Nat := ks.foldlM tread depth

theorem climb_cons (depth : Nat) (k : JsonLexemes.Kind) (ks : List JsonLexemes.Kind) :
    climb depth (k :: ks) = (tread depth k).bind fun d => climb d ks :=
  List.foldlM_cons

theorem climb_append (depth : Nat) (ks js : List JsonLexemes.Kind) :
    climb depth (ks ++ js) = (climb depth ks).bind fun d => climb d js :=
  List.foldlM_append

theorem climb_part {part : Part} {ks : List JsonLexemes.Kind} (h : Derives part ks) (depth : Nat) :
    climb depth ks = some depth := by
  induction h generalizing depth with
  | scalar => rfl
  | string => rfl
  | emptyArray => rfl
  | array _ ih =>
    show climb depth (_ ++ _) = _
    rw [climb_append, ih]
    rfl
  | emptyObject => rfl
  | object _ ih =>
    show climb (depth + 1) (_ ++ _) = _
    rw [climb_append, ih]
    rfl
  | lastElement _ ih => exact ih depth
  | element _ _ ihk ihj =>
    rw [climb_append, ihk]
    exact ihj depth
  | lastMember _ ih => exact ih depth
  | member _ _ ihk ihj =>
    show climb depth (_ ++ _) = _
    rw [climb_append, ihk]
    exact ihj depth

/-! ## An object -/

theorem kinds_append (ls ms : List Lexeme) : JsonLexemes.kinds (ls ++ ms) = JsonLexemes.kinds ls ++ JsonLexemes.kinds ms :=
  List.filterMap_append

theorem text_append (ls ms : List Lexeme) : JsonLexemes.text (ls ++ ms) = JsonLexemes.text ls ++ JsonLexemes.text ms :=
  List.flatMap_append

theorem digit_other {u : Nat} (h : JsonLexemes.isDigit u = true) : isBrace u = false := by
  simp only [JsonLexemes.isDigit, Bool.and_eq_true, decide_eq_true_eq] at h
  simp only [isBrace, Bool.or_eq_false_iff, beq_eq_false_iff_ne]
  refine ⟨⟨?_, ?_⟩, ?_⟩ <;> intro heq <;> rw [heq] at h <;> exact absurd h (by decide)

theorem numeral_other (n : JsonLexemes.Numeral) : ∀ u ∈ n.text, isBrace u = false := by
  have hminus : ∀ u ∈ n.minus, isBrace u = false := by
    intro u hu
    rw [JsonLexemes.Numeral.minus] at hu
    split at hu
    · rw [List.mem_singleton.1 hu]
      rfl
    · cases hu
  have hpoint : ∀ u ∈ n.point, isBrace u = false := by
    intro u hu
    rw [JsonLexemes.Numeral.point] at hu
    split at hu
    · cases hu
    · rcases List.mem_cons.1 hu with rfl | hdigit
      · rfl
      · exact digit_other (n.fraction_digits u hdigit)
  have hpower : ∀ u ∈ n.power, isBrace u = false := by
    intro u hu
    rw [JsonLexemes.Numeral.power] at hu
    cases hexponent : n.exponent with
    | none => rw [hexponent] at hu; cases hu
    | some e =>
      rw [hexponent] at hu
      rcases List.mem_cons.1 hu with heq | hu
      · rcases e.isLetter with hletter | hletter <;> rw [heq, hletter] <;> rfl
      · rcases List.mem_append.1 hu with hsign | hdigit
        · rcases e.isSign u (Option.mem_toList.1 hsign) with rfl | rfl <;> rfl
        · exact digit_other (e.allDigits u hdigit)
  intro u hu
  rw [JsonLexemes.Numeral.text, List.mem_append, List.mem_append, List.mem_append] at hu
  rcases hu with hu | hu | hu | hu
  · exact hminus u hu
  · exact digit_other (n.whole_digits u hu)
  · exact hpoint u hu
  · exact hpower u hu

/-- The scanner goes where the token goes. -/
theorem scan_lexeme (s : Units) (i : Nat) (objects : List Units) (start : Int) {depth : Nat} {l : Lexeme}
    (hstring : ∀ items, l = .str items → ∀ item ∈ items, item.valid = true) {d : Nat}
    (hclimb : climb depth (JsonLexemes.kinds [l]) = some d) :
    scanLoop s i l.text (within objects start depth) = within objects start d := by
  have hsame : ∀ {k}, l.kind? = some k → tread depth k = some depth → d = depth := by
    intro k hk htread
    rw [JsonLexemes.kinds_token hk, climb_cons, htread] at hclimb
    exact (Option.some.inj hclimb).symm
  cases l with
  | blank b =>
    obtain rfl : depth = d := Option.some.inj hclimb
    exact scan_others s i objects start depth [b.unit] fun u hu => by
      rw [List.mem_singleton.1 hu]
      cases b <;> rfl
  | name n =>
    obtain rfl := hsame rfl rfl
    refine scan_others s i objects start d n.text fun u hu => ?_
    have hall : n.text.all (fun u => !isBrace u) = true := by cases n <;> decide
    simpa using List.all_eq_true.1 hall u hu
  | num n =>
    obtain rfl := hsame rfl rfl
    exact scan_others s i objects start d n.text (numeral_other n)
  | str items =>
    obtain rfl := hsame rfl rfl
    exact scan_string s i objects start d items (hstring items rfl)
  | mark m =>
    cases m with
    | openObject =>
      obtain rfl : depth + 1 = d := Option.some.inj hclimb
      rfl
    | closeObject =>
      cases depth with
      | zero => cases hclimb
      | succ depth =>
        obtain rfl : depth = d := Option.some.inj hclimb
        rfl
    | openArray | closeArray | comma | colon =>
      obtain rfl := hsame rfl rfl
      exact scan_others s i objects start d _ fun u hu => by
        rw [List.mem_singleton.1 hu]
        rfl

theorem scan_lexemes (s : Units) (i : Nat) (objects : List Units) (start : Int) {depth d : Nat} {ls : List Lexeme}
    (hstrings : ∀ items, .str items ∈ ls → ∀ item ∈ items, item.valid = true)
    (hclimb : climb depth (JsonLexemes.kinds ls) = some d) :
    scanLoop s i (JsonLexemes.text ls) (within objects start depth) = within objects start d := by
  induction ls generalizing i depth with
  | nil =>
    obtain rfl : depth = d := Option.some.inj hclimb
    rfl
  | cons l ls ih =>
    have hkinds : JsonLexemes.kinds (l :: ls) = JsonLexemes.kinds [l] ++ JsonLexemes.kinds ls :=
      kinds_append [l] ls
    rw [hkinds, climb_append] at hclimb
    obtain ⟨mid, hmid, hrest⟩ := Option.bind_eq_some_iff.1 hclimb
    rw [JsonLexemes.text_cons, scanLoop_append,
      scan_lexeme s i objects start (fun items heq => hstrings items (by rw [heq]; exact List.mem_cons_self)) hmid]
    exact ih _ (fun items hmem => hstrings items (List.mem_cons_of_mem l hmem)) hrest

/-- The text of an object, from its brace to its brace. -/
structure ObjectText (ls : List Lexeme) : Prop where
  document : Document ls
  opens : ls.head? = some (.mark .openObject)
  closes : ls.getLast? = some (.mark .closeObject)

theorem climb_inside {ks : List JsonLexemes.Kind}
    (h : Derives .value (.mark .openObject :: (ks ++ [.mark .closeObject]))) : climb 0 ks = some 0 := by
  generalize hall : JsonLexemes.Kind.mark .openObject :: (ks ++ [.mark .closeObject]) = all at h
  cases h with
  | emptyObject =>
    have hks : ks = [] := List.append_cancel_right (List.cons.inj hall).2
    rw [hks]
    rfl
  | object hmembers =>
    rw [List.append_cancel_right (List.cons.inj hall).2]
    exact climb_part hmembers 0
  | scalar | string | emptyArray | array => cases hall

theorem ObjectText.split {ls : List Lexeme} (h : ObjectText ls) :
    ∃ mid, ls = .mark .openObject :: (mid ++ [.mark .closeObject]) ∧ climb 0 (JsonLexemes.kinds mid) = some 0 ∧
      ∀ items, .str items ∈ mid → ∀ item ∈ items, item.valid = true := by
  obtain ⟨hdoc, hopens, hcloses⟩ := h
  obtain ⟨rest, rfl⟩ : ∃ rest, ls = .mark .openObject :: rest := List.head?_eq_some_iff.1 hopens
  have hne : rest ≠ [] := by
    intro hnil
    rw [hnil] at hcloses
    cases hcloses
  rw [List.getLast?_cons_of_ne_nil hne] at hcloses
  obtain ⟨mid, rfl⟩ := List.getLast?_eq_some_iff.1 hcloses
  have hkinds : JsonLexemes.kinds (.mark .openObject :: (mid ++ [.mark .closeObject])) =
      .mark .openObject :: (JsonLexemes.kinds mid ++ [.mark .closeObject]) := by
    rw [JsonLexemes.kinds_token rfl]
    exact congrArg _ (kinds_append mid [.mark .closeObject])
  have hgrammar := hdoc.grammar
  rw [hkinds] at hgrammar
  exact ⟨mid, rfl, climb_inside hgrammar, fun items hmem =>
    hdoc.strings items (List.mem_cons_of_mem _ (List.mem_append_left _ hmem))⟩

theorem object_text (mid : List Lexeme) :
    JsonLexemes.text (.mark .openObject :: (mid ++ [.mark .closeObject])) =
      '\x7b'.toNat :: (JsonLexemes.text mid ++ ['\x7d'.toNat]) := by
  rw [JsonLexemes.text_cons, text_append]
  rfl

theorem sliceUnits_between (done t after : Units) :
    sliceUnits (done ++ (t ++ after)) done.length (done.length + t.length : Nat) = t := by
  have hbound : ∀ k : Nat, k ≤ (done ++ (t ++ after)).length → sliceBound (done ++ (t ++ after)).length k = k := by
    intro k hk
    rw [sliceBound, if_neg (by omega), Int.toNat_natCast]
    omega
  have hlength : (done ++ (t ++ after)).length = done.length + (t.length + after.length) := by simp
  rw [sliceUnits, hbound _ (by omega), hbound _ (by omega), List.drop_left]
  simp

/-- An object is found whole. -/
theorem scan_object {ls : List Lexeme} (h : ObjectText ls) (done after : Units) (objects : List Units) :
    scanLoop (done ++ (JsonLexemes.text ls ++ after)) done.length (JsonLexemes.text ls) (idle objects) =
      idle (objects ++ [JsonLexemes.text ls]) := by
  obtain ⟨mid, hls, hclimb, hstrings⟩ := h.split
  have htext : JsonLexemes.text ls = '\x7b'.toNat :: (JsonLexemes.text mid ++ ['\x7d'.toNat]) := by rw [hls, object_text]
  have hslice := sliceUnits_between done (JsonLexemes.text ls) after
  generalize done ++ (JsonLexemes.text ls ++ after) = s at hslice ⊢
  have hopen : scanUnit s done.length '\x7b'.toNat (idle objects) = within objects done.length 0 := rfl
  have hlength : done.length + (JsonLexemes.text ls).length = done.length + 1 + (JsonLexemes.text mid).length + 1 := by
    rw [htext, List.length_cons, List.length_append, List.length_singleton]
    omega
  calc scanLoop s done.length (JsonLexemes.text ls) (idle objects)
    _ = scanLoop s (done.length + 1) (JsonLexemes.text mid ++ ['\x7d'.toNat]) (within objects done.length 0) := by
      rw [htext, scanLoop, hopen]
    _ = scanUnit s (done.length + 1 + (JsonLexemes.text mid).length) '\x7d'.toNat (within objects done.length 0) := by
      rw [scanLoop_append, scan_lexemes s _ objects _ hstrings hclimb]
      rfl
    _ = idle (objects ++ [sliceUnits s done.length (done.length + (JsonLexemes.text ls).length : Nat)]) := by
      rw [hlength]
      rfl
    _ = idle (objects ++ [JsonLexemes.text ls]) := by rw [hslice]

/-! ## The beginning of an object -/

theorem scanUnit_objects (s : Units) (i c : Nat) (st : Scan) : st.objects <+: (scanUnit s i c st).objects := by
  unfold scanUnit
  split_ifs <;> simp

theorem scanLoop_objects (s : Units) (i : Nat) (cs : Units) (st : Scan) : st.objects <+: (scanLoop s i cs st).objects := by
  induction cs generalizing i st with
  | nil => exact List.prefix_rfl
  | cons c cs ih => exact (scanUnit_objects s i c st).trans (ih (i + 1) (scanUnit s i c st))

/-- While no object is finished, the open one stays open. -/
theorem scanUnit_open {s : Units} {i c : Nat} {st : Scan} (hdepth : 0 < st.depth)
    (hobjects : (scanUnit s i c st).objects = st.objects) :
    0 < (scanUnit s i c st).depth ∧ (scanUnit s i c st).start = st.start ∧ (scanUnit s i c st).stray = st.stray := by
  unfold scanUnit at hobjects ⊢
  split_ifs at hobjects ⊢ <;> simp_all
  omega

theorem scanLoop_open {s : Units} {i : Nat} {cs : Units} {st : Scan} (hdepth : 0 < st.depth)
    (hobjects : (scanLoop s i cs st).objects = st.objects) :
    (scanLoop s i cs st).start = st.start ∧ (scanLoop s i cs st).stray = st.stray := by
  induction cs generalizing i st with
  | nil => exact ⟨rfl, rfl⟩
  | cons c cs ih =>
    have hlater := scanLoop_objects s (i + 1) cs (scanUnit s i c st)
    have hstep : (scanUnit s i c st).objects = st.objects := by
      rw [scanLoop] at hobjects
      rw [hobjects] at hlater
      exact (hlater.eq_of_length_le (scanUnit_objects s i c st).length_le)
    obtain ⟨hopen, hstart, hstray⟩ := scanUnit_open hdepth hstep
    have hrest := ih hopen (hobjects.trans hstep.symm)
    exact ⟨hrest.1.trans hstart, hrest.2.trans hstray⟩

/-- Of an object that is cut, the scanner keeps the place where it began. -/
theorem scan_cut {ls : List Lexeme} (h : ObjectText ls) {cut : Units} (hcut : cut <+: JsonLexemes.text ls) (hsome : cut ≠ [])
    (hproper : cut ≠ JsonLexemes.text ls) (s : Units) (k : Nat) (objects : List Units) :
    (scanLoop s k cut (idle objects)).objects = objects ∧ (scanLoop s k cut (idle objects)).start = k ∧
      (scanLoop s k cut (idle objects)).stray = false := by
  obtain ⟨mid, rfl, hclimb, hstrings⟩ := h.split
  rw [object_text] at hcut hproper
  obtain ⟨c, p, rfl⟩ := List.exists_cons_of_ne_nil hsome
  obtain ⟨rfl, hp⟩ := List.cons_prefix_cons.1 hcut
  have hmid : p <+: JsonLexemes.text mid := by
    rcases List.prefix_concat_iff.1 hp with heq | hprefix
    · exact absurd (congrArg _ heq) hproper
    · exact hprefix
  obtain ⟨q, hq⟩ := hmid
  have hopen : scanUnit s k '\x7b'.toNat (idle objects) = within objects k 0 := rfl
  rw [scanLoop, hopen]
  have hwhole := scan_lexemes s (k + 1) objects k hstrings hclimb
  rw [← hq, scanLoop_append] at hwhole
  have hlater := scanLoop_objects s (k + 1 + p.length) q (scanLoop s (k + 1) p (within objects k 0))
  rw [hwhole] at hlater
  have hobjects : (scanLoop s (k + 1) p (within objects k 0)).objects = objects :=
    hlater.eq_of_length_le (scanLoop_objects s (k + 1) p (within objects k 0)).length_le
  exact ⟨hobjects, scanLoop_open (Nat.succ_pos 0) hobjects⟩

/-! ## Frames -/

/-- An object of a framed body, with the blanks before it. -/
structure Frame where
  gap : List Blank
  object : List Lexeme
  isObject : ObjectText object

def Frame.text (f : Frame) : Units := f.gap.map Blank.unit ++ JsonLexemes.text f.object

def joined (frames : List Frame) : Units := frames.flatMap Frame.text

def objectsOf (frames : List Frame) : List Units := frames.map fun f => JsonLexemes.text f.object

theorem scan_frames (frames : List Frame) (done after : Units) (objects : List Units) :
    scanLoop (done ++ (joined frames ++ after)) done.length (joined frames) (idle objects) =
      idle (objects ++ objectsOf frames) := by
  induction frames generalizing done objects with
  | nil => exact congrArg idle (List.append_nil objects).symm
  | cons f frames ih =>
    have hjoined : joined (f :: frames) = f.gap.map Blank.unit ++ (JsonLexemes.text f.object ++ joined frames) := by
      rw [joined, List.flatMap_cons, Frame.text, List.append_assoc]
      rfl
    have hobject := scan_object f.isObject (done ++ f.gap.map Blank.unit) (joined frames ++ after) objects
    have hrest := ih (done ++ f.gap.map Blank.unit ++ JsonLexemes.text f.object) (objects ++ [JsonLexemes.text f.object])
    simp only [List.append_assoc, List.length_append] at hobject hrest
    rw [hjoined, scanLoop_append, scan_blanks, scanLoop_append]
    simp only [List.append_assoc]
    rw [hobject, Nat.add_assoc, hrest]
    rfl

theorem scanObjects_whole (frames : List Frame) (trailing : List Blank) :
    scanObjects (joined frames ++ trailing.map Blank.unit) = ⟨objectsOf frames, [], false⟩ := by
  have hframes := scan_frames frames [] (trailing.map Blank.unit) []
  rw [List.nil_append, List.nil_append, List.length_nil] at hframes
  have hstart : (⟨[], 0, -1, false, false, false⟩ : Scan) = idle [] := rfl
  rw [scanObjects, hstart, scanLoop_append, hframes, scan_blanks]
  rfl

theorem scanObjects_cut (frames : List Frame) (last : Frame) {cut : Units} (hcut : cut <+: JsonLexemes.text last.object)
    (hsome : cut ≠ []) (hproper : cut ≠ JsonLexemes.text last.object) :
    scanObjects (joined frames ++ (last.gap.map Blank.unit ++ cut)) = ⟨objectsOf frames, cut, false⟩ := by
  have hframes := scan_frames frames [] (last.gap.map Blank.unit ++ cut) []
  rw [List.nil_append, List.nil_append, List.length_nil] at hframes
  have hslice := sliceUnits_between (joined frames ++ last.gap.map Blank.unit) cut []
  rw [List.append_nil, List.append_assoc] at hslice
  have hplace : 0 + (joined frames).length + (last.gap.map Blank.unit).length =
      (joined frames ++ last.gap.map Blank.unit).length := by simp
  have hend : (joined frames ++ (last.gap.map Blank.unit ++ cut)).length =
      (joined frames ++ last.gap.map Blank.unit).length + cut.length := by simp [Nat.add_assoc]
  obtain ⟨hobjects, hbegin, hstray⟩ := scan_cut last.isObject hcut hsome hproper
    (joined frames ++ (last.gap.map Blank.unit ++ cut)) (joined frames ++ last.gap.map Blank.unit).length (objectsOf frames)
  have hstart : (⟨[], 0, -1, false, false, false⟩ : Scan) = idle [] := rfl
  rw [scanObjects, hstart, scanLoop_append, hframes, scanLoop_append, scan_blanks, hplace]
  simp only [hobjects, hbegin, hstray, hend, if_pos (Int.natCast_nonneg _), hslice]

/-- Objects with blanks between them are split exactly, and of one that is cut the beginning is the rest. -/
theorem scanObjects_frames (frames : List Frame) :
    (∀ trailing : List Blank, scanObjects (joined frames ++ trailing.map Blank.unit) = ⟨objectsOf frames, [], false⟩) ∧
    ∀ (last : Frame) (cut : Units), cut <+: JsonLexemes.text last.object → cut ≠ [] → cut ≠ JsonLexemes.text last.object →
      scanObjects (joined frames ++ (last.gap.map Blank.unit ++ cut)) = ⟨objectsOf frames, cut, false⟩ :=
  ⟨scanObjects_whole frames, fun last _ hcut hsome hproper => scanObjects_cut frames last hcut hsome hproper⟩

/-- The object with a member `a` that holds the given string. -/
def oneString (items : List Item) : List Lexeme :=
  [.mark .openObject, .str [.unit 'a'.toNat], .mark .colon, .str items, .mark .closeObject]

theorem oneString_object {items : List Item} (h : ∀ item ∈ items, item.valid = true) : ObjectText (oneString items) where
  document := by
    refine ⟨fun items' hmem item hitem => ?_, .object (.lastMember .string)⟩
    simp only [oneString, List.mem_cons, reduceCtorEq, Lexeme.str.injEq, false_or, List.not_mem_nil, or_false] at hmem
    rcases hmem with rfl | rfl
    · rw [List.mem_singleton.1 hitem]
      rfl
    · exact h item hitem
  opens := rfl
  closes := rfl

/-- `{"a":"}"}` -/
def braceFrame : Frame := ⟨[], oneString [.unit '\x7d'.toNat], oneString_object (by simp [Item.valid, JsonLexemes.isPlain])⟩

/-- `{"a":"\""}`, on a line of its own. -/
def quoteFrame : Frame := ⟨[.newline], oneString [.letter '"'.toNat], oneString_object (by simp [Item.valid]; decide)⟩

theorem frames_brace_quote :
    scanObjects (JsonLexemes.units "\x7b\"a\":\"\x7d\"\x7d\n\x7b\"a\":\"\\") =
      ⟨[JsonLexemes.units "\x7b\"a\":\"\x7d\"\x7d"], JsonLexemes.units "\x7b\"a\":\"\\", false⟩ :=
  (scanObjects_frames [braceFrame]).2 quoteFrame (JsonLexemes.units "\x7b\"a\":\"\\") (by decide) (by decide) (by decide)

def looksLikeJsonFrames (toUpperCase : Units → Units) (raw : Units) : Bool :=
  let scanned := scanObjects (splitTruncation toUpperCase raw).body
  !scanned.stray && scanned.objects.length ≥ 2

/-- A framed body is told by its objects, also when a note stands behind it. -/
theorem looksLikeJsonFrames_frames (toUpperCase : Units → Units) {raw : Units} {frames : List Frame} {trailing : List Blank}
    (hbody : (splitTruncation toUpperCase raw).body = joined frames ++ trailing.map Blank.unit) :
    looksLikeJsonFrames toUpperCase raw = decide (2 ≤ frames.length) := by
  rw [looksLikeJsonFrames, hbody, scanObjects_whole]
  simp [objectsOf]

end ClusterGate.Capture
