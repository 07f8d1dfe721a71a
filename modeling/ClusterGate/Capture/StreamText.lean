/-
  ClusterGate.Capture.StreamText — the readable text of a streamed body (`extractStreamText`
  and `assembleStreamText` of the frontend's `lib/streamText.ts`).

  The test panel reads a stream line by line while it runs; the log view puts the text of a
  whole body together. Both read `data` lines and JSON objects, and differ on other lines.
  - `event_texts_iff`: of a body that is read as an event stream both make the same text
    exactly if each of its lines is one they read alike.
  - `object_texts`: of a body of JSON objects they do if each object has a line of its own.
-/

import ClusterGate.Capture.Frames
import ClusterGate.Lib.JsonDocument

namespace ClusterGate.Capture

open Lib
open Lib.JsonParse (Units Value)
open Lib.JsonDocument (charUnits IsText)

/-! ## One frame -/

/-- A property of an object; other values have none of the names read here. -/
def property (name : String) : Value → Option Value
  | .obj kvs => (kvs.find? (·.1 == asUnits name)).map (·.2)
  | _ => none

def asString : Value → Option Units
  | .str us => some us
  | _ => none

/-- `v?.name?.…`, where that is a string. -/
def stringAt (names : List String) (v : Value) : Option Units :=
  (names.foldlM (fun v name => property name v) v).bind asString

def textOfFrame (obj : Value) : Units :=
  let choice := match property "choices" obj with
    | some (.arr vs) => vs.head?
    | _ => none
  ((choice.bind (stringAt ["delta", "content"])).or <| (choice.bind (stringAt ["message", "content"])).or <|
    (choice.bind (stringAt ["text"])).or <| (stringAt ["content"] obj).or <| (stringAt ["delta"] obj).or <|
    stringAt ["text"] obj).getD []

/-- `JSON.parse` of a text; none where it throws. -/
def jsonParse (us : Units) : Option Value := JsonParse.parse (JsonParse.chars us)

/-- The text of a frame; none where `JSON.parse` throws. -/
def frameText (payload : Units) : Option Units :=
  if payload = [] ∨ payload = asUnits "[DONE]" then some [] else (jsonParse payload).map textOfFrame

/-! ## A line -/

def startsWith (us : Units) (p : String) : Bool := (asUnits p).isPrefixOf us

/-- `/^(event|id|retry):/.test(trimmed)` -/
def isOtherField (trimmed : Units) : Bool := ["event:", "id:", "retry:"].any (startsWith trimmed)

def extractStreamText (line : Units) : Units :=
  let trimmed := trimUnits line
  if trimmed = [] then []
  else if startsWith trimmed "data:" then (frameText (trimUnits (trimmed.drop 5))).getD line
  else if isOtherField trimmed then []
  else (frameText trimmed).getD line

/-! ## A frame that is cut -/

/-- What `^` in a pattern with `m` may stand behind, and `.` does not match. -/
def isTerminator (u : Nat) : Bool := u == 10 || u == 13 || u == 0x2028 || u == 0x2029

/-- What follows `"(?:content|delta|text)"\s*:\s*"`. -/
def behindKey (us : Units) : Option Units :=
  (["\"content\"", "\"delta\"", "\"text\""].find? (startsWith us)).bind fun key =>
    match (us.drop (asUnits key).length).dropWhile isSpaceUnit with
    | [] => none
    | c :: us =>
      if c = ':'.toNat then
        match us.dropWhile isSpaceUnit with
        | [] => none
        | q :: us => if q = '"'.toNat then some us else none
      else none

/-- What `(?:[^"\\]|\\.)*` matches, and what follows it. -/
def stringItems : Units → Units × Units
  | [] => ([], [])
  | u :: us =>
    if u = '"'.toNat then ([], u :: us)
    else if u = '\\'.toNat then
      match us with
      | [] => ([], [u])
      | e :: us =>
        if isTerminator e then ([], u :: e :: us)
        else
          let more := stringItems us
          (u :: e :: more.1, more.2)
    else
      let more := stringItems us
      (u :: more.1, more.2)

/-- The first place where a key is followed by a string that ends as `ends` says. -/
def firstString (ends : Units → Bool) (fragment : Units) : Option Units :=
  fragment.tails.findSome? fun us => (behindKey us).bind fun us =>
    if ends (stringItems us).2 then some (stringItems us).1 else none

/-- `(\\)?$` -/
def atEnd (rest : Units) : Bool := rest == [] || rest == ['\\'.toNat]

def atQuote (rest : Units) : Bool := rest.head? == some '"'.toNat

def textOfPartialFrame (fragment : Units) : Units :=
  match (firstString atEnd fragment).or (firstString atQuote fragment) with
  | none => []
  | some m =>
    match jsonParse ('"'.toNat :: (m ++ ['"'.toNat])) with
    | some (.str us) => us
    | _ => []

/-! ## A whole body -/

def splitLines (us : Units) : List Units := us.splitOn '\n'.toNat

/-- Some line begins with a field; `start` where the text so far ends with a line. -/
def fieldAtLineStart (fields : List String) : Bool → Units → Bool
  | _, [] => false
  | start, u :: us => (start && fields.any (startsWith (u :: us))) || fieldAtLineStart fields (isTerminator u) us

/-- `/^(data|event|id|retry):/m.test(body)` -/
def hasFieldLine (body : Units) : Bool := fieldAtLineStart ["data:", "event:", "id:", "retry:"] true body

/-- The text of a `data` line. -/
def dataText (line : Units) (last : Bool) : Units :=
  let payload := trimUnits (line.drop 5)
  match frameText payload with
  | some text => text
  | none => if startsWith payload "\x7b" then (if last then textOfPartialFrame payload else []) else payload

def dataTexts : List Units → Units
  | [] => []
  | line :: lines => dataText line lines.isEmpty ++ dataTexts lines

def isDataLine (trimmed : Units) : Bool := startsWith trimmed "data:"

/-- The text of a frame, or nothing for a malformed one. -/
def frameTextOrSkip (frame : Units) : Units := ((jsonParse frame).map textOfFrame).getD []

def assembleStreamText (toUpperCase : Units → Units) (raw : Units) : Units :=
  let body := (splitTruncation toUpperCase raw).body
  if hasFieldLine body then dataTexts (((splitLines body).map trimUnits).filter isDataLine)
  else
    let scanned := scanObjects body
    if scanned.objects = [] ∨ scanned.stray = true then []
    else
      scanned.objects.flatMap frameTextOrSkip ++
        if scanned.rest = [] then [] else textOfPartialFrame scanned.rest

/-! ## What is cut is not longer -/

theorem behindKey_suffix {us vs : Units} (h : behindKey us = some vs) : vs <:+ us := by
  obtain ⟨key, -, h⟩ := Option.bind_eq_some_iff.1 h
  have hspaces : ∀ ws : Units, ws.dropWhile isSpaceUnit <:+ ws := fun ws => List.dropWhile_suffix _
  have hbehind := (hspaces _).trans (List.drop_suffix (asUnits key).length us)
  cases hcolon : (us.drop (asUnits key).length).dropWhile isSpaceUnit with
  | nil => rw [hcolon] at h; cases h
  | cons c ws =>
    rw [hcolon] at h hbehind
    dsimp only at h
    split at h
    · have hbehind' := (hspaces ws).trans ((List.suffix_cons c ws).trans hbehind)
      cases hquote : ws.dropWhile isSpaceUnit with
      | nil => rw [hquote] at h; cases h
      | cons q xs =>
        rw [hquote] at h hbehind'
        dsimp only at h
        split at h
        · obtain rfl := Option.some.inj h
          exact (List.suffix_cons q xs).trans hbehind'
        · cases h
    · cases h

theorem stringItems_append (us : Units) : (stringItems us).1 ++ (stringItems us).2 = us := by
  fun_induction stringItems us with
  | case1 => rfl
  | case2 => rfl
  | case3 => rfl
  | case4 => rfl
  | case5 =>
    rename_i ih
    exact congrArg (fun rest => _ :: _ :: rest) ih
  | case6 =>
    rename_i ih
    exact congrArg (List.cons _) ih

theorem firstString_within {ends : Units → Bool} {fragment m : Units} (h : firstString ends fragment = some m) :
    m <:+: fragment := by
  obtain ⟨us, hus, h⟩ := List.exists_of_findSome?_eq_some h
  obtain ⟨vs, hbehind, h⟩ := Option.bind_eq_some_iff.1 h
  split at h
  · obtain rfl := Option.some.inj h
    have hitems : (stringItems vs).1 <+: vs := ⟨_, stringItems_append vs⟩
    have htail := (behindKey_suffix hbehind).trans ((List.mem_tails us fragment).1 hus)
    exact hitems.isInfix.trans htail.isInfix
  · cases h

/-- Units that are numbers of 16 bits. -/
def Sixteen (us : Units) : Prop := ∀ u ∈ us, u < 0x10000

theorem Sixteen.part {us vs : Units} (h : Sixteen vs) (hpart : us <:+: vs) : Sixteen us := fun u hu => h u (hpart.subset hu)

theorem quoted_length {m us : Units} (hm : Sixteen m)
    (h : jsonParse ('"'.toNat :: (m ++ ['"'.toNat])) = some (.str us)) : us.length ≤ m.length := by
  have hquote : JsonParse.chars ('"'.toNat :: (m ++ ['"'.toNat])) = '"' :: JsonParse.chars (m ++ ['"'.toNat]) :=
    JsonParse.chars_units_append '"' (m ++ ['"'.toNat])
  have hwhole : Sixteen (m ++ ['"'.toNat]) := by
    intro u hu
    rcases List.mem_append.1 hu with hu | hu
    · exact hm u hu
    · rw [List.mem_singleton.1 hu]
      decide
  rw [jsonParse, hquote] at h
  obtain ⟨us', rest, hread, heq⟩ := JsonDocument.parse_quote h
  obtain rfl := Value.str.inj heq
  have hlonger := JsonDocument.length_of_stringBody hread
  have hchars := JsonDocument.length_charUnits_chars hwhole
  rw [List.length_append, List.length_singleton] at hchars
  omega

theorem partial_length {fragment : Units} (h : Sixteen fragment) : (textOfPartialFrame fragment).length ≤ fragment.length := by
  have hsome : ∀ m, (firstString atEnd fragment).or (firstString atQuote fragment) = some m → m <:+: fragment := by
    intro m hm
    rcases Option.or_eq_some_iff.1 hm with hfirst | ⟨-, hsecond⟩
    · exact firstString_within hfirst
    · exact firstString_within hsecond
  unfold textOfPartialFrame
  split
  · exact Nat.zero_le _
  · rename_i m hm
    split
    · rename_i us hus
      exact (quoted_length (h.part (hsome m hm)) hus).trans (hsome m hm).length_le
    · exact Nat.zero_le _

/-! ## Event streams -/

/-- A line that says what it is, or holds no text. -/
def EventLine (line : Units) : Prop :=
  let trimmed := trimUnits line
  if isDataLine trimmed = true then frameText (trimUnits (trimmed.drop 5)) ≠ none
  else isOtherField trimmed = true ∨ frameText trimmed = some []

theorem trimUnits_within (us : Units) : trimUnits us <:+: us :=
  (List.rdropWhile_prefix _ _).isInfix.trans (List.dropWhile_suffix _).isInfix

theorem extract_data {line : Units} (h : isDataLine (trimUnits line) = true) :
    extractStreamText line = (frameText (trimUnits ((trimUnits line).drop 5))).getD line := by
  have hne : trimUnits line ≠ [] := by
    intro hnil
    rw [hnil] at h
    cases h
  rw [isDataLine] at h
  simp only [extractStreamText, if_neg hne, if_pos h]

theorem extract_other {line : Units} (h : isDataLine (trimUnits line) = false) (hother : isOtherField (trimUnits line) = true) :
    extractStreamText line = [] := by
  rw [isDataLine] at h
  simp only [extractStreamText, h, hother]
  simp

theorem extract_bare {line : Units} (h : isDataLine (trimUnits line) = false) (hother : isOtherField (trimUnits line) = false)
    (hne : trimUnits line ≠ []) : extractStreamText line = (frameText (trimUnits line)).getD line := by
  rw [isDataLine] at h
  simp only [extractStreamText, if_neg hne, h, hother]
  simp

/-- The lines the log view reads, and one behind the other what it takes from them. -/
def loggedText (lines : List Units) : Units := dataTexts ((lines.map trimUnits).filter isDataLine)

theorem frameText_nil : frameText [] = some [] := by simp [frameText]

theorem data_prefix {us : Units} (h : isDataLine us = true) : 5 ≤ us.length := by
  have hprefix := (List.isPrefixOf_iff_prefix.1 h).length_le
  exact hprefix

theorem dataText_length {line : Units} (h : Sixteen line) (last : Bool)
    (hnone : frameText (trimUnits (line.drop 5)) = none) : (dataText line last).length ≤ (trimUnits (line.drop 5)).length := by
  have hpayload : Sixteen (trimUnits (line.drop 5)) :=
    h.part ((trimUnits_within _).trans (List.drop_suffix 5 line).isInfix)
  simp only [dataText, hnone]
  split_ifs
  · exact partial_length hpayload
  · exact Nat.zero_le _
  · exact Nat.le_refl _

/-- What the panel shows for a line that is read alike, and that it shows more for another. -/
theorem data_line {line : Units} (hsixteen : Sixteen line) (h : isDataLine (trimUnits line) = true) (last : Bool) :
    (EventLine line → dataText (trimUnits line) last = extractStreamText line) ∧
      (¬EventLine line → (dataText (trimUnits line) last).length < (extractStreamText line).length) := by
  rw [extract_data h]
  simp only [EventLine, if_pos h]
  constructor
  · intro hsome
    obtain ⟨text, htext⟩ := Option.ne_none_iff_exists'.1 hsome
    simp only [dataText, htext, Option.getD_some]
  · intro hnone
    rw [not_not] at hnone
    have htrim := (trimUnits_within line).length_le
    have hdata := data_prefix h
    have hpayload := (trimUnits_within ((trimUnits line).drop 5)).length_le
    have hshort := dataText_length (hsixteen.part (trimUnits_within line)) last hnone
    rw [List.length_drop] at hpayload
    rw [hnone, Option.getD_none]
    omega

theorem plain_line {line : Units} (h : isDataLine (trimUnits line) = false) :
    (EventLine line → extractStreamText line = []) ∧ (¬EventLine line → 0 < (extractStreamText line).length) := by
  have hnot : ¬isDataLine (trimUnits line) = true := by simp [h]
  simp only [EventLine, if_neg hnot]
  cases hother : isOtherField (trimUnits line) with
  | true => exact ⟨fun _ => extract_other h hother, fun hnot => (hnot (.inl rfl)).elim⟩
  | false =>
    by_cases hne : trimUnits line = []
    · have hblank : extractStreamText line = [] := by simp [extractStreamText, hne]
      exact ⟨fun _ => hblank, fun hnot => (hnot (.inr (hne ▸ frameText_nil))).elim⟩
    · rw [extract_bare h hother hne]
      constructor
      · intro hline
        rw [hline.resolve_left (by simp), Option.getD_some]
      · intro hline
        rw [List.length_pos_iff]
        intro hnil
        cases htext : frameText (trimUnits line) with
        | none =>
          rw [htext, Option.getD_none] at hnil
          rw [hnil] at hne
          exact hne rfl
        | some text =>
          rw [htext, Option.getD_some] at hnil
          exact hline (.inr (by rw [htext, hnil]))

/-- What is logged of some lines is what the panel shows of them, or shorter. -/
theorem event_texts {lines : List Units} (h : ∀ line ∈ lines, Sixteen line) :
    ((∀ line ∈ lines, EventLine line) → loggedText lines = lines.flatMap extractStreamText) ∧
      (¬(∀ line ∈ lines, EventLine line) → (loggedText lines).length < (lines.flatMap extractStreamText).length) := by
  induction lines with
  | nil => exact ⟨fun _ => rfl, fun hnot => (hnot (by simp)).elim⟩
  | cons line lines ih =>
    obtain ⟨hsame, hshorter⟩ := ih fun l hl => h l (List.mem_cons_of_mem line hl)
    have hle : (loggedText lines).length ≤ (lines.flatMap extractStreamText).length := by
      by_cases hall : ∀ l ∈ lines, EventLine l
      · rw [hsame hall]
      · exact (hshorter hall).le
    rw [List.forall_mem_cons, List.flatMap_cons]
    cases hdata : isDataLine (trimUnits line) with
    | true =>
      have hlogged : loggedText (line :: lines) =
          dataText (trimUnits line) ((lines.map trimUnits).filter isDataLine).isEmpty ++ loggedText lines := by
        simp only [loggedText, List.map_cons, List.filter_cons, hdata, if_true, dataTexts]
      obtain ⟨halike, hmore⟩ := data_line (h line List.mem_cons_self) hdata ((lines.map trimUnits).filter isDataLine).isEmpty
      rw [hlogged]
      constructor
      · intro hall
        rw [halike hall.1, hsame hall.2]
      · intro hnot
        rw [List.length_append, List.length_append]
        by_cases hline : EventLine line
        · have := hshorter fun hall => hnot ⟨hline, hall⟩
          rw [halike hline]
          omega
        · have := hmore hline
          omega
    | false =>
      have hlogged : loggedText (line :: lines) = loggedText lines := by
        simp [loggedText, hdata]
      obtain ⟨hnothing, hmore⟩ := plain_line hdata
      rw [hlogged]
      constructor
      · intro hall
        rw [hnothing hall.1, hsame hall.2]
        rfl
      · intro hnot
        rw [List.length_append]
        by_cases hline : EventLine line
        · have := hshorter fun hall => hnot ⟨hline, hall⟩
          omega
        · have := hmore hline
          omega

/-- The text of an event stream is logged as it was shown exactly if every line says what it is. -/
theorem event_texts_iff {lines : List Units} (h : ∀ line ∈ lines, Sixteen line) :
    lines.flatMap extractStreamText = loggedText lines ↔ ∀ line ∈ lines, EventLine line := by
  obtain ⟨hsame, hshorter⟩ := event_texts h
  constructor
  · intro heq
    by_contra hnot
    have hlt := hshorter hnot
    rw [heq] at hlt
    exact Nat.lt_irrefl _ hlt
  · exact fun hall => (hsame hall).symm

/-! ## JSON objects -/

/-- A line with one object on it, or with nothing. -/
def ObjectLine (line : Units) : Prop := trimUnits line = [] ∨ ∃ kvs, jsonParse (trimUnits line) = some (.obj kvs)

/-- The object of a line. -/
def lineObjects (line : Units) : List Units := if trimUnits line = [] then [] else [trimUnits line]

theorem space_whole {u : Nat} (h : isSpaceUnit u = true) : JsonParse.isHigh u = false ∧ JsonParse.isLow u = false := by
  rw [← Bool.or_eq_false_iff]
  by_contra hpair
  rw [Bool.not_eq_false] at hpair
  rw [isSpaceUnit, JsonParse.unitChar, if_pos hpair] at h
  exact absurd h (by decide)

theorem trim_split (us : Units) : ∃ front back, us = front ++ (trimUnits us ++ back) ∧
    (∀ u ∈ front, isSpaceUnit u = true) ∧ ∀ u ∈ back, isSpaceUnit u = true := by
  refine ⟨us.takeWhile isSpaceUnit, (us.dropWhile isSpaceUnit).rtakeWhile isSpaceUnit, ?_, ?_, ?_⟩
  · have hback : trimUnits us ++ (us.dropWhile isSpaceUnit).rtakeWhile isSpaceUnit = us.dropWhile isSpaceUnit := by
      rw [trimUnits, List.rdropWhile, List.rtakeWhile, ← List.reverse_append, List.takeWhile_append_dropWhile,
        List.reverse_reverse]
    rw [hback, List.takeWhile_append_dropWhile]
  · exact fun u hu => List.mem_takeWhile_imp hu
  · exact fun u hu => List.mem_rtakeWhile_imp hu

theorem trim_first {us : Units} : ∀ u ∈ (trimUnits us).head?, isSpaceUnit u = false := by
  intro u hu
  have hprefix : trimUnits us <+: us.dropWhile isSpaceUnit := List.rdropWhile_prefix _ _
  obtain ⟨rest, hrest⟩ := List.head?_eq_some_iff.1 hu
  rw [hrest] at hprefix
  obtain ⟨more, hmore⟩ := hprefix
  have hhead := List.head?_dropWhile_not isSpaceUnit us
  rw [← hmore] at hhead
  simpa using hhead

theorem trim_last {us : Units} : ∀ u ∈ (trimUnits us).getLast?, isSpaceUnit u = false := by
  intro u hu
  have hne : trimUnits us ≠ [] := by
    intro hnil
    rw [hnil] at hu
    cases hu
  have hlast := List.rdropWhile_last_not isSpaceUnit (us.dropWhile isSpaceUnit) hne
  have hget : (trimUnits us).getLast hne = u := by
    rw [List.getLast?_eq_some_getLast hne] at hu
    exact Option.some.inj hu
  rw [← hget]
  exact Bool.eq_false_of_not_eq_true hlast

theorem isText_trim {us : Units} (h : IsText us) : IsText (trimUnits us) := by
  obtain ⟨front, back, hsplit, hfront, hback⟩ := trim_split us
  rw [hsplit] at h
  have hrest := h.drop fun u hu => (space_whole (hfront u hu)).1
  exact (hrest.cut fun u hu => (space_whole (hback u (List.mem_of_mem_head? hu))).2).1

theorem blank_space (b : JsonLexemes.Blank) : isSpaceUnit b.unit = true := by
  cases b <;> decide

/-- The text of an object is one for the scanner. -/
theorem object_line {line : Units} (hline : IsText line) {kvs : List (Units × Value)}
    (h : jsonParse (trimUnits line) = some (.obj kvs)) : ∃ ls, trimUnits line = JsonLexemes.text ls ∧ ObjectText ls := by
  have hchars := (isText_trim hline).chars
  have hfirst : ∀ b : JsonLexemes.Blank, (trimUnits line).head? ≠ some b.unit := by
    intro b hb
    have := trim_first b.unit hb
    rw [blank_space] at this
    cases this
  have hlast : ∀ b : JsonLexemes.Blank, (trimUnits line).getLast? ≠ some b.unit := by
    intro b hb
    have := trim_last b.unit hb
    rw [blank_space] at this
    cases this
  rw [← hchars] at hfirst hlast
  obtain ⟨ls, htext, hdoc, hopens, hcloses⟩ := JsonDocument.object_of_parse h hfirst hlast
  exact ⟨ls, hchars.symm.trans htext, hdoc, hopens, hcloses⟩

/-! ### Scanning lines -/

theorem scan_spaces (s : Units) (i : Nat) {gap : Units} (h : ∀ u ∈ gap, isSpaceUnit u = true) (objects : List Units) :
    scanLoop s i gap (idle objects) = idle objects := by
  induction gap generalizing i with
  | nil => rfl
  | cons u gap ih =>
    obtain ⟨hu, hrest⟩ := List.forall_mem_cons.1 h
    have hne : ∀ c : Char, isSpaceUnit c.toNat = false → u ≠ c.toNat := by
      intro c hc heq
      rw [heq, hc] at hu
      cases hu
    have hstay : scanUnit s i u (idle objects) = idle objects := by
      simp only [scanUnit, idle, if_neg (hne '"' (by decide)), if_neg (hne '\x7b' (by decide)), if_neg (hne '\x7d' (by decide)), hu]
      simp
    rw [scanLoop, hstay, ih (i + 1) hrest]

theorem scan_line {line : Units} (hline : IsText line) (h : ObjectLine line) (done after : Units) (objects : List Units) :
    scanLoop (done ++ (line ++ after)) done.length line (idle objects) = idle (objects ++ lineObjects line) := by
  obtain ⟨front, back, hsplit, hfront, hback⟩ := trim_split line
  rcases h with hblank | ⟨kvs, hparse⟩
  · have hspaces : ∀ u ∈ line, isSpaceUnit u = true := by
      intro u hu
      rw [hsplit, hblank, List.nil_append] at hu
      exact (List.mem_append.1 hu).elim (hfront u) (hback u)
    rw [scan_spaces _ _ hspaces, lineObjects, if_pos hblank, List.append_nil]
  · obtain ⟨ls, htext, hobject⟩ := object_line hline hparse
    have hne : trimUnits line ≠ [] := by
      obtain ⟨mid, hls, -⟩ := hobject.split
      rw [htext, hls, object_text]
      exact List.cons_ne_nil _ _
    have hscan := scan_object hobject (done ++ front) (back ++ after) objects
    rw [← htext] at hscan
    have hwhole : done ++ front ++ (trimUnits line ++ (back ++ after)) = done ++ (line ++ after) := by
      conv_rhs => rw [hsplit]
      simp only [List.append_assoc]
    rw [hwhole, List.length_append] at hscan
    generalize done ++ (line ++ after) = s at hscan ⊢
    conv_lhs => rw [hsplit]
    rw [scanLoop_append, scan_spaces s _ hfront, scanLoop_append, hscan, scan_spaces s _ hback, lineObjects, if_neg hne]

theorem isText_newline {us vs : Units} (h : IsText (us ++ ('\n'.toNat :: vs))) : IsText us ∧ IsText vs := by
  have hcut := h.cut fun u hu => by
    rw [← Option.some.inj hu]
    rfl
  have hafter : IsText (['\n'.toNat] ++ vs) := hcut.2
  refine ⟨hcut.1, hafter.drop fun u hu => ?_⟩
  rw [List.mem_singleton.1 hu]
  rfl

theorem intercalate_newline (line next : Units) (lines : List Units) :
    ['\n'.toNat].intercalate (line :: next :: lines) = line ++ ('\n'.toNat :: ['\n'.toNat].intercalate (next :: lines)) := by
  rw [List.intercalate_cons_cons, List.append_assoc]
  rfl

theorem isText_lines {lines : List Units} (h : IsText (['\n'.toNat].intercalate lines)) : ∀ line ∈ lines, IsText line := by
  induction lines with
  | nil => exact fun _ hl => (List.not_mem_nil hl).elim
  | cons line lines ih =>
    cases lines with
    | nil =>
      rw [List.intercalate_singleton] at h
      exact fun l hl => List.mem_singleton.1 hl ▸ h
    | cons next lines =>
      rw [intercalate_newline] at h
      obtain ⟨hline, hrest⟩ := isText_newline h
      exact List.forall_mem_cons.2 ⟨hline, ih hrest⟩

theorem scan_lines {lines : List Units} (htexts : ∀ line ∈ lines, IsText line) (h : ∀ line ∈ lines, ObjectLine line)
    (done : Units) (objects : List Units) :
    scanLoop (done ++ ['\n'.toNat].intercalate lines) done.length (['\n'.toNat].intercalate lines) (idle objects) =
      idle (objects ++ lines.flatMap lineObjects) := by
  induction lines generalizing done objects with
  | nil => exact congrArg idle (List.append_nil objects).symm
  | cons line lines ih =>
    obtain ⟨htext, htexts⟩ := List.forall_mem_cons.1 htexts
    obtain ⟨hline, hlines⟩ := List.forall_mem_cons.1 h
    cases lines with
    | nil =>
      have hone := scan_line htext hline done [] objects
      rw [List.append_nil] at hone
      rw [List.intercalate_singleton, hone, List.flatMap_singleton]
    | cons next lines =>
      have hone := scan_line htext hline done ('\n'.toNat :: ['\n'.toNat].intercalate (next :: lines)) objects
      have hrest := ih htexts hlines (done ++ line ++ ['\n'.toNat]) (objects ++ lineObjects line)
      have hwhole : done ++ line ++ ['\n'.toNat] ++ ['\n'.toNat].intercalate (next :: lines) =
          done ++ (line ++ '\n'.toNat :: ['\n'.toNat].intercalate (next :: lines)) := by
        simp only [List.append_assoc, List.singleton_append]
      have hplace : (done ++ line ++ ['\n'.toNat]).length = done.length + line.length + 1 := by
        simp only [List.length_append, List.length_singleton]
      have hnewline : ∀ s i objects, scanUnit s i '\n'.toNat (idle objects) = idle objects := fun _ _ _ => rfl
      rw [hwhole, hplace] at hrest
      rw [intercalate_newline, scanLoop_append, hone, scanLoop, hnewline, hrest]
      simp only [List.flatMap_cons, List.append_assoc]

/-- Objects on lines of their own are found, one after the other. -/
theorem scanObjects_lines {body : Units} (hbody : IsText body) (h : ∀ line ∈ splitLines body, ObjectLine line) :
    scanObjects body = ⟨(splitLines body).flatMap lineObjects, [], false⟩ := by
  have hjoin : ['\n'.toNat].intercalate (splitLines body) = body := List.intercalate_splitOn _
  have htexts := isText_lines (hjoin.symm ▸ hbody)
  have hscan := scan_lines htexts h [] []
  rw [hjoin] at hscan
  have hstart : (⟨[], 0, -1, false, false, false⟩ : Scan) = idle [] := rfl
  rw [scanObjects, hstart]
  rw [List.nil_append, List.length_nil, List.nil_append] at hscan
  rw [hscan]
  rfl

theorem extract_object {line : Units} (hline : IsText line) (h : ObjectLine line) :
    extractStreamText line = (lineObjects line).flatMap frameTextOrSkip := by
  rcases h with hblank | ⟨kvs, hparse⟩
  · simp [extractStreamText, lineObjects, hblank]
  · obtain ⟨ls, htext, hobject⟩ := object_line hline hparse
    obtain ⟨mid, hls, -⟩ := hobject.split
    rw [hls, object_text] at htext
    have hne : trimUnits line ≠ [] := by
      rw [htext]
      exact List.cons_ne_nil _ _
    have hdata : isDataLine (trimUnits line) = false := by
      rw [htext]
      rfl
    have hother : isOtherField (trimUnits line) = false := by
      rw [htext]
      rfl
    have hdone : trimUnits line ≠ asUnits "[DONE]" := by
      rw [htext]
      intro heq
      exact absurd (List.cons.inj heq).1 (by decide)
    have hframe : frameText (trimUnits line) = some (textOfFrame (.obj kvs)) := by
      rw [frameText, if_neg (not_or.2 ⟨hne, hdone⟩), hparse, Option.map_some]
    rw [extract_bare hdata hother hne, hframe, lineObjects, if_neg hne, List.flatMap_singleton, frameTextOrSkip, hparse]
    rfl

/-- The text of objects on lines of their own is made alike. -/
theorem object_texts {lines : List Units} (htexts : ∀ line ∈ lines, IsText line) (h : ∀ line ∈ lines, ObjectLine line) :
    lines.flatMap extractStreamText = (lines.flatMap lineObjects).flatMap frameTextOrSkip := by
  rw [List.flatMap_assoc]
  exact List.flatMap_congr fun line hline => extract_object (htexts line hline) (h line hline)

end ClusterGate.Capture
