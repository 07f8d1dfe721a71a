/-
  ClusterGate.Capture.Note — the note behind a cut body, as the log view reads it back
  (`splitTruncation` of the frontend's `lib/streamText.ts`).

  The reader looks for the last marker in the text. The note holds no other one, so a note
  that is there is found; a text that is not cut has none, and what stands behind a marker
  of its own is taken for one.
  - `split_note`: a text with its note is split into both.
  - `note_read_back_iff`: a note is shown exactly where the body was cut, with the text
    before it, unless the text is whole and has the marker in it.
-/

import ClusterGate.Capture.Service

namespace ClusterGate.Capture

open Lib
open Lib.Base64 (Bytes)
open Lib.JsonParse (Units)

/-! ## The last place -/

section LastIndexOf

variable {α : Type} [DecidableEq α]

def lastIndexOf (p : List α) : List α → Option Nat
  | [] => if p.isEmpty then some 0 else none
  | x :: xs =>
    match lastIndexOf p xs with
    | some i => some (i + 1)
    | none => if p.isPrefixOf (x :: xs) then some 0 else none

theorem lastIndexOf_none_iff {p xs : List α} : lastIndexOf p xs = none ↔ ¬p <:+: xs := by
  induction xs with
  | nil => cases p <;> simp [lastIndexOf]
  | cons x xs ih =>
    rw [List.infix_cons_iff, lastIndexOf]
    cases h : lastIndexOf p xs with
    | none =>
      have hrest : ¬p <:+: xs := ih.1 h
      simp [hrest]
    | some i =>
      have hrest : p <:+: xs := by
        by_contra hnot
        rw [ih.2 hnot] at h
        cases h
      simp [hrest]

/-- What stands before does not matter. -/
theorem lastIndexOf_append {p xs : List α} {i : Nat} (h : lastIndexOf p xs = some i) (before : List α) :
    lastIndexOf p (before ++ xs) = some (before.length + i) := by
  induction before with
  | nil => simpa using h
  | cons x before ih =>
    rw [List.cons_append, lastIndexOf, ih, List.length_cons]
    exact congrArg some (by omega)

theorem lastIndexOf_start {p xs : List α} {x : α} (hp : p <+: x :: xs) (hrest : ¬p <:+: xs) :
    lastIndexOf p (x :: xs) = some 0 := by
  rw [lastIndexOf, lastIndexOf_none_iff.2 hrest]
  simp [hp]

end LastIndexOf

/-! ## The reader -/

/-- The units `trim` takes off and `\s` matches. -/
def isSpaceUnit (u : Nat) : Bool := Text.isSpace (JsonParse.unitChar u)

def trimUnits (us : Units) : Units := (us.dropWhile isSpaceUnit).rdropWhile isSpaceUnit

/-- `note.replace(/^\[…\s*/, '')` -/
def withoutOpening (note : Units) : Units :=
  if (asUnits "[…").isPrefixOf note then (note.drop (asUnits "[…").length).dropWhile isSpaceUnit else note

/-- `note.replace(/\]$/, '')` -/
def withoutClosing (note : Units) : Units := if note.getLast? = some 0x5D then note.dropLast else note

structure Split where
  body : Units
  note : Option Units
  deriving DecidableEq

def markerText : Units := asUnits ("\n\n" ++ truncationMarker)

def splitTruncation (toUpperCase : Units → Units) (raw : Units) : Split :=
  match lastIndexOf markerText raw with
  | none => ⟨raw, none⟩
  | some i =>
    let note := withoutClosing (withoutOpening (trimUnits (raw.drop (i + 2))))
    ⟨raw.take i, some (toUpperCase (note.take 1) ++ note.drop 1)⟩

/-! ## The note -/

theorem asUnits_append (s t : String) : asUnits (s ++ t) = asUnits s ++ asUnits t := by
  simp [asUnits]

theorem newline_units {c : Char} (h : c ≠ '\n') : 10 ∉ JsonParse.units c := by
  have hvalue : c.toNat ≠ 10 := fun heq => h (Char.toNat_inj.1 heq)
  rw [JsonParse.units]
  split
  · simpa using Ne.symm hvalue
  · simp only [List.mem_cons, List.not_mem_nil, or_false, not_or]
    omega

theorem newline_asUnits {s : String} (h : '\n' ∉ s.toList) : 10 ∉ asUnits s := by
  intro hmem
  obtain ⟨c, hc, hunit⟩ := List.mem_flatMap.1 hmem
  exact newline_units (fun heq => h (heq ▸ hc)) hunit

theorem newline_digits (n : Nat) : '\n' ∉ (toString n).toList := by
  intro h
  have hmem : '\n' ∈ Nat.toDigits 10 n := by rwa [← Nat.toList_repr]
  have hdigit := Nat.isDigit_of_mem_toDigits (by decide) (by decide) hmem
  cases hdigit

theorem newline_append {s t : String} (hs : '\n' ∉ s.toList) (ht : '\n' ∉ t.toList) : '\n' ∉ (s ++ t).toList := by
  rw [String.toList_append, List.mem_append, not_or]
  exact ⟨hs, ht⟩

theorem newline_endStateText (state : CaptureEndState) : '\n' ∉ (endStateText state).toList := by
  cases state <;> decide

/-- Behind its two line breaks the note is one line. -/
theorem newline_noteText (shown total : Nat) (compressed : Bool) (state : CaptureEndState) :
    '\n' ∉ (noteText shown total compressed state).toList := by
  have hshown : '\n' ∉ (": showing first " ++ toString shown).toList := newline_append (by decide) (newline_digits shown)
  have hopen : ∀ s, '\n' ∉ (": showing first " ++ toString shown ++ " bytes, " ++ endStateText s ++ "]").toList := fun s =>
    newline_append (newline_append (newline_append hshown (by decide)) (newline_endStateText s)) (by decide)
  cases state with
  | complete =>
    have hsize : '\n' ∉ (if compressed then " (compressed size)" else "").toList := by cases compressed <;> decide
    exact newline_append (newline_append (newline_append (newline_append (newline_append hshown (by decide))
      (newline_digits total)) (by decide)) hsize) (by decide)
  | open_ => exact hopen .open_
  | aborted => exact hopen .aborted

theorem markerText_eq : markerText = 10 :: 10 :: asUnits truncationMarker := rfl

theorem note_line (shown total : Nat) (compressed : Bool) (state : CaptureEndState) :
    ∃ line, asUnits (truncationNote shown total compressed state) = 10 :: 10 :: line ∧ 10 ∉ line ∧
      markerText <+: 10 :: 10 :: line := by
  have hnote : asUnits (truncationNote shown total compressed state) =
      markerText ++ asUnits (noteText shown total compressed state) := by
    rw [truncationNote, asUnits_append, markerText]
  refine ⟨asUnits truncationMarker ++ asUnits (noteText shown total compressed state), ?_, ?_, ?_⟩
  · rw [hnote, markerText_eq, List.cons_append, List.cons_append]
  · rw [List.mem_append, not_or]
    exact ⟨newline_asUnits (by decide), newline_asUnits (newline_noteText shown total compressed state)⟩
  · rw [markerText_eq]
    exact ⟨_, rfl⟩

theorem lastIndexOf_note (shown total : Nat) (compressed : Bool) (state : CaptureEndState) :
    lastIndexOf markerText (asUnits (truncationNote shown total compressed state)) = some 0 := by
  obtain ⟨line, hnote, hline, hprefix⟩ := note_line shown total compressed state
  rw [hnote]
  refine lastIndexOf_start hprefix fun hinfix => ?_
  rw [markerText_eq] at hinfix
  obtain ⟨before, after, heq⟩ := hinfix
  -- two line breaks in a row, and only one is left
  have hcount := congrArg (List.count 10) heq
  have hnone : List.count 10 line = 0 := List.count_eq_zero.2 hline
  simp only [List.append_assoc, List.cons_append, List.count_append, List.count_cons_self, hnone] at hcount
  omega

/-- A text and its note are split into both. -/
theorem split_note (toUpperCase : Units → Units) (text : Units) (shown total : Nat) (compressed : Bool)
    (state : CaptureEndState) :
    ∃ note, splitTruncation toUpperCase (text ++ asUnits (truncationNote shown total compressed state)) =
      ⟨text, some note⟩ := by
  have hat := lastIndexOf_append (lastIndexOf_note shown total compressed state) text
  rw [splitTruncation, hat]
  dsimp only
  rw [Nat.add_zero, List.take_left']
  · exact ⟨_, rfl⟩
  · rfl

theorem split_plain (toUpperCase : Units → Units) {text : Units} (h : ¬markerText <:+: text) :
    splitTruncation toUpperCase text = ⟨text, none⟩ := by
  rw [splitTruncation, lastIndexOf_none_iff.2 h]

theorem split_marker (toUpperCase : Units → Units) {text : Units} (h : markerText <:+: text) :
    ∃ note, (splitTruncation toUpperCase text).note = some note := by
  rw [splitTruncation]
  cases hat : lastIndexOf markerText text with
  | none => exact absurd h (lastIndexOf_none_iff.1 hat)
  | some i => exact ⟨_, rfl⟩

/-! ## Writer and reader -/

/-- What stands behind a text in the body of a result. -/
def noteOf (P : Platform) (opts : StreamCaptureOptions) (state : CaptureEndState) (r : StreamCaptureResult)
    (text : Units) : Units :=
  if r.truncated then asUnits (truncationNote (bytesOf text).length r.totalBytes (isCompressed P opts) state) else []

/-- The reader shows a note exactly for a cut body, and the text before it. -/
structure ReadBack (toUpperCase : Units → Units) (P : Platform) (opts : StreamCaptureOptions) (state : CaptureEndState)
    (r : StreamCaptureResult) : Prop where
  note : (splitTruncation toUpperCase r.body).note.isSome = r.truncated
  body : (splitTruncation toUpperCase r.body).body ++ noteOf P opts state r (splitTruncation toUpperCase r.body).body = r.body

variable {toUpperCase : Units → Units} {P : Platform} {opts : StreamCaptureOptions} {state : CaptureEndState}

theorem readBack_cut {text : Units} {total : Nat} {r : StreamCaptureResult}
    (h : r = ⟨text ++ asUnits (truncationNote (bytesOf text).length total (isCompressed P opts) state), true, total, false⟩) :
    ReadBack toUpperCase P opts state r := by
  obtain ⟨note, hsplit⟩ := split_note toUpperCase text (bytesOf text).length total (isCompressed P opts) state
  subst h
  constructor
  · rw [hsplit]
    rfl
  · rw [hsplit]
    rfl

theorem readBack_whole_iff {text : Units} {total : Nat} :
    ReadBack toUpperCase P opts state ⟨text, false, total, false⟩ ↔ ¬markerText <:+: text := by
  constructor
  · intro h hmarker
    obtain ⟨note, hnote⟩ := split_marker toUpperCase hmarker
    have hshown := h.note
    rw [hnote] at hshown
    cases hshown
  · intro hmarker
    have hsplit := split_plain toUpperCase hmarker
    constructor
    · rw [hsplit]
      rfl
    · rw [hsplit]
      exact List.append_nil _

/-- Whatever the body, its chunks, the limit and the end: the note is read back exactly
    unless a text that is whole has the marker in it. -/
theorem note_read_back_iff (toUpperCase : Units → Units) (P : Platform) (opts : StreamCaptureOptions)
    (state : CaptureEndState) (chunks : List Chunk) {decoded : Bytes}
    (hdecoded : decode P ((chunks.flatMap Chunk.bytes).take (budget P opts)) opts.contentEncoding (opts.limit * 4) =
      some decoded)
    (htext : isBinary P opts decoded = false) :
    ReadBack toUpperCase P opts state (finish P (pushAll (create P opts) chunks) state) ↔
      chunks.flatMap Chunk.bytes = [] ∨ IsCut P opts (chunks.flatMap Chunk.bytes) decoded state ∨
        ¬markerText <:+: textOf decoded := by
  rw [finish_of_holds (captured_holds P opts chunks)]
  by_cases hne : chunks.flatMap Chunk.bytes = []
  · rw [hne, outcome_empty, readBack_whole_iff]
    exact iff_of_true (by decide) (.inl rfl)
  · obtain ⟨cut, hcut, hout⟩ := outcome_text state hne hdecoded htext
    cases cut with
    | true => exact iff_of_true (readBack_cut hout) (.inr (.inl (hcut.1 rfl)))
    | false =>
      have hwhole : ¬IsCut P opts (chunks.flatMap Chunk.bytes) decoded state := fun h => Bool.noConfusion (hcut.2 h)
      have hshort : ¬opts.limit < (textOf decoded).length := fun h => hwhole (.inr (.inr (.inr h)))
      have htextOf : shownText opts decoded false = textOf decoded := by simp [shownText, hshort]
      have hbody : outcome P opts (chunks.flatMap Chunk.bytes) state =
          ⟨textOf decoded, false, (chunks.flatMap Chunk.bytes).length, false⟩ := by
        rw [hout, htextOf]
        simp
      rw [hbody, readBack_whole_iff]
      simp [hne, hwhole]

theorem note_read_back_abc :
    ReadBack id plainPlatform (plainText 2) .complete
      (finish plainPlatform (pushAll (create plainPlatform (plainText 2)) [.buffer [97, 98, 99]]) .complete) :=
  (note_read_back_iff id plainPlatform (plainText 2) .complete [.buffer [97, 98, 99]]
    (show decode plainPlatform _ _ _ = some [97, 98] by decide) (by decide)).2 (.inr (.inl (.inr (.inl (by decide)))))

/-- A log line that quotes a note, whole and far below the limit. -/
def quotedNote : List Char := "a\n\n[… truncated".toList

theorem a_quoted_note_is_taken_for_one :
    ¬ReadBack id plainPlatform (plainText 1000) .complete
      (finish plainPlatform (pushAll (create plainPlatform (plainText 1000)) [.buffer (Utf8.encode quotedNote)])
        .complete) := by
  have hheld := captured_holds plainPlatform (plainText 1000) [.buffer (Utf8.encode quotedNote)]
  have hbytes : [Chunk.buffer (Utf8.encode quotedNote)].flatMap Chunk.bytes = Utf8.encode quotedNote := by
    simp [Chunk.bytes]
  rw [hbytes] at hheld
  have hmarker : markerText <:+: textOf (Utf8.encode quotedNote) := by
    rw [textOf, Utf8.decode_encode]
    decide
  rw [finish_of_holds hheld, outcome_whole (by decide) (by decide) (by decide), readBack_whole_iff]
  exact fun hnot => hnot hmarker

end ClusterGate.Capture
