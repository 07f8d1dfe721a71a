/-
  ClusterGate.Capture.TestPanel — a streamed response in the test panel (`handleStreamTest` of
  the frontend's `RouteTestPanel.tsx`), beside the same body in the log view.

  The panel decodes the chunks as they come, keeps the line that is not finished yet, and
  shows the text of each line when it is.
  - `stream_lines`: what it shows in the end is the text of the body's lines, whatever the
    chunks.
  - `live_text_logged`: which of the bodies show the same text in the panel and in the log.
  - `a_comment_is_shown`: a comment of an event stream is one the panel shows as it stands.
-/

import ClusterGate.Capture.StreamText
import ClusterGate.Lib.Lines
import ClusterGate.Lib.Text

namespace ClusterGate.Capture

open Lib
open Lib.Base64 (Bytes)
open Lib.JsonParse (Units)
open Lib.JsonDocument (charUnits IsText charUnits_append charUnits_cons)

/-! ## The panel -/

/-- `collectedText` and `rawAll` are shown as they grow. -/
structure Panel where
  decoder : Utf8.TextDecoder
  buffer : Units
  collectedText : Units
  rawAll : Units
  showStreamRaw : Bool
  wasStream : Bool

def openPanel : Panel := ⟨.fresh, [], [], [], false, true⟩

def onChunk (p : Panel) (value : Bytes) : Panel :=
  let chunk := p.decoder.decode value
  let fed := Lines.feed '\n'.toNat p.buffer (charUnits chunk.1)
  let rawAll := p.rawAll ++ charUnits chunk.1
  let collectedText := p.collectedText ++ fed.1.flatMap extractStreamText
  { p with
    decoder := chunk.2
    buffer := fed.2
    collectedText
    rawAll
    showStreamRaw := p.showStreamRaw || (collectedText == [] && 1024 < rawAll.length) }

def onDone (contentType : String) (p : Panel) : Panel :=
  let isEventStream := Text.includes contentType "text/event-stream" || Text.includes contentType "ndjson"
  let collectedText :=
    if trimUnits p.buffer ≠ [] then p.collectedText ++ extractStreamText p.buffer else p.collectedText
  let singleDocument := !isEventStream && (jsonParse p.rawAll).isSome
  { p with collectedText, wasStream := !singleDocument, showStreamRaw := singleDocument || collectedText == [] }

def handleStreamTest (contentType : String) (chunks : List Bytes) : Panel := onDone contentType (chunks.foldl onChunk openPanel)

/-! ## While it reads -/

/-- What has come so far, read up to its last line. -/
structure Reading (text : Units) (p : Panel) : Prop where
  raw : p.rawAll = text
  read : ∃ done, splitLines text = done ++ [p.buffer] ∧ p.collectedText = done.flatMap extractStreamText

theorem openPanel_reading : Reading [] openPanel := ⟨rfl, [], rfl, rfl⟩

theorem onChunk_reading {text : Units} {p : Panel} (h : Reading text p) (value : Bytes) :
    Reading (text ++ charUnits (p.decoder.decode value).1) (onChunk p value) := by
  obtain ⟨done, hlines, htext⟩ := h.read
  refine ⟨?_, done ++ (Lines.feed '\n'.toNat p.buffer (charUnits (p.decoder.decode value).1)).1, ?_, ?_⟩
  · show p.rawAll ++ _ = _
    rw [h.raw]
  · exact Lines.feed_lines '\n'.toNat hlines _
  · show p.collectedText ++ _ = _
    rw [htext, List.flatMap_append]

theorem reading_chunks {text : Units} {p : Panel} (h : Reading text p) (chunks : List Bytes) :
    Reading (text ++ charUnits (p.decoder.decodeAll chunks)) (chunks.foldl onChunk p) := by
  induction chunks generalizing text p with
  | nil =>
    rw [Utf8.TextDecoder.decodeAll, JsonDocument.charUnits_nil, List.append_nil]
    exact h
  | cons value chunks ih =>
    have hrest := ih (onChunk_reading h value)
    rw [List.append_assoc, ← charUnits_append] at hrest
    exact hrest

theorem onDone_text {text : Units} {p : Panel} (h : Reading text p) (contentType : String) :
    (onDone contentType p).collectedText = (splitLines text).flatMap extractStreamText := by
  obtain ⟨done, hlines, htext⟩ := h.read
  rw [hlines, List.flatMap_append, List.flatMap_singleton, ← htext]
  by_cases hblank : trimUnits p.buffer = []
  · have hnothing : extractStreamText p.buffer = [] := by simp [extractStreamText, hblank]
    simp [onDone, hblank, hnothing]
  · simp [onDone, hblank]

/-- The text that is shown in the end is that of the lines, whatever the chunks. -/
theorem stream_lines (contentType : String) {body : List Char} {chunks : List Bytes} (h : chunks.flatten = Utf8.encode body) :
    (handleStreamTest contentType chunks).collectedText =
      (splitLines (charUnits (Utf8.withoutMark false body).1)).flatMap extractStreamText := by
  have hread := reading_chunks openPanel_reading chunks
  rw [show openPanel.decoder = .fresh from rfl, Utf8.decode_pieces h, List.nil_append] at hread
  exact onDone_text hread contentType

/-! ## The byte order mark -/

theorem trim_mark (line : Units) : trimUnits (0xFEFF :: line) = trimUnits line := by
  rw [trimUnits, List.dropWhile_cons_of_pos (by decide), trimUnits]

/-- It is white space before the first line. -/
theorem lines_mark (body : List Char) :
    (splitLines (charUnits (Utf8.withoutMark false body).1)).map trimUnits = (splitLines (charUnits body)).map trimUnits := by
  cases body with
  | nil => rfl
  | cons c cs =>
    rw [Utf8.withoutMark]
    split
    · rename_i hmark
      have hunits : charUnits (c :: cs) = 0xFEFF :: charUnits cs := by
        rw [hmark]
        rfl
      obtain ⟨line, lines, hlines⟩ := List.exists_cons_of_ne_nil (List.splitOn_ne_nil '\n'.toNat (charUnits cs))
      have hnot : ¬((0xFEFF : Nat) == '\n'.toNat) = true := by decide
      rw [hunits, splitLines, splitLines, List.splitOn_cons_eq_if_modifyHead, if_neg hnot, hlines, List.modifyHead_cons,
        List.map_cons, List.map_cons, trim_mark]
    · rfl

/-! ## Panel and log -/

theorem sixteen_charUnits (cs : List Char) : Sixteen (charUnits cs) := by
  intro u hu
  obtain ⟨c, -, hu⟩ := List.mem_flatMap.1 hu
  exact JsonParse.units_lt u hu

theorem splitLines_join (us : Units) : ['\n'.toNat].intercalate (splitLines us) = us := List.intercalate_splitOn _

theorem lines_isText (cs : List Char) : ∀ line ∈ splitLines (charUnits cs), IsText line :=
  isText_lines ⟨cs, splitLines_join _⟩

theorem lines_sixteen (cs : List Char) : ∀ line ∈ splitLines (charUnits cs), Sixteen line := by
  intro line hline
  obtain ⟨ds, rfl⟩ := lines_isText cs line hline
  exact sixteen_charUnits ds

theorem forall_trim {P : Units → Prop} {lines lines' : List Units} (h : lines.map trimUnits = lines'.map trimUnits) :
    (∀ line ∈ lines, P (trimUnits line)) ↔ ∀ line ∈ lines', P (trimUnits line) := by
  rw [← List.forall_mem_map, h, List.forall_mem_map]

/-- Of an event stream the panel shows the text that is logged exactly if every line says what
    it is; of JSON objects it does if each has a line of its own. -/
theorem live_text_logged (toUpperCase : Units → Units) (contentType : String) {body : List Char} {chunks : List Bytes}
    (hchunks : chunks.flatten = Utf8.encode body) (hmarker : ¬markerText <:+: charUnits body) :
    (hasFieldLine (charUnits body) = true →
      ((handleStreamTest contentType chunks).collectedText = assembleStreamText toUpperCase (charUnits body) ↔
        ∀ line ∈ splitLines (charUnits body), EventLine line)) ∧
    (hasFieldLine (charUnits body) = false → (∀ line ∈ splitLines (charUnits body), ObjectLine line) →
      (handleStreamTest contentType chunks).collectedText = assembleStreamText toUpperCase (charUnits body)) := by
  have htrims := lines_mark body
  rw [stream_lines contentType hchunks, assembleStreamText, split_plain toUpperCase hmarker]
  dsimp only
  constructor
  · intro hevents
    have hlogged : dataTexts (((splitLines (charUnits body)).map trimUnits).filter isDataLine) =
        loggedText (splitLines (charUnits (Utf8.withoutMark false body).1)) := by rw [loggedText, htrims]
    have hlines : (∀ line ∈ splitLines (charUnits body), EventLine line) ↔
        ∀ line ∈ splitLines (charUnits (Utf8.withoutMark false body).1), EventLine line := by
      exact forall_trim (P := fun trimmed => if isDataLine trimmed = true then frameText (trimUnits (trimmed.drop 5)) ≠ none
        else isOtherField trimmed = true ∨ frameText trimmed = some []) htrims.symm
    rw [if_pos hevents, hlogged, hlines]
    exact event_texts_iff (lines_sixteen _)
  · intro hplain hobjects
    have hlines : ∀ line ∈ splitLines (charUnits (Utf8.withoutMark false body).1), ObjectLine line :=
      (forall_trim (P := fun trimmed => trimmed = [] ∨ ∃ kvs, jsonParse trimmed = some (.obj kvs)) htrims).2 hobjects
    have hfound : (splitLines (charUnits (Utf8.withoutMark false body).1)).flatMap lineObjects =
        (splitLines (charUnits body)).flatMap lineObjects := by
      have hmap := congrArg (List.flatMap fun trimmed : Units => if trimmed = [] then [] else [trimmed]) htrims
      rwa [List.flatMap_map, List.flatMap_map] at hmap
    rw [if_neg (by simp [hplain]), object_texts (lines_isText _) hlines, hfound, scanObjects_lines ⟨body, rfl⟩ hobjects]
    split
    · rename_i hnone
      have hobjects : (splitLines (charUnits body)).flatMap lineObjects = [] := hnone.resolve_right (by simp)
      rw [hobjects, List.flatMap_nil]
    · rw [if_pos rfl, List.append_nil]

/-- `{"text":"hi"}` -/
def hiFrame : JsonParse.Value := .obj [(asUnits "text", .str (asUnits "hi"))]

theorem hiFrame_write : JsonParse.write hiFrame = "\x7b\"text\":\"hi\"\x7d".toList := by decide

theorem hiFrame_parse : jsonParse (charUnits (JsonParse.write hiFrame)) = some hiFrame := by
  have hgood : JsonParse.Good (fun token => JsonParse.isNumber token = true) hiFrame :=
    .obj (by decide) (List.pairwise_singleton _ _) fun kv hkv => by
      rw [List.mem_singleton.1 hkv]
      exact .str (by decide)
  rw [jsonParse, charUnits, JsonParse.chars_units]
  exact JsonParse.parse_write (fun _ h => h) hgood

/-- `data: {"text":"hi"}` -/
def hiLine : List Char := "data: ".toList ++ JsonParse.write hiFrame

theorem hiLine_event : EventLine (charUnits hiLine) := by
  have hdata : isDataLine (trimUnits (charUnits hiLine)) = true := by
    rw [hiLine, hiFrame_write]
    decide
  have hpayload : trimUnits ((trimUnits (charUnits hiLine)).drop 5) = charUnits (JsonParse.write hiFrame) := by
    rw [hiLine, hiFrame_write]
    decide
  simp only [EventLine, if_pos hdata, hpayload, frameText, hiFrame_parse]
  split <;> simp

/-- The line and its end come in two chunks, the first of which ends inside the line. -/
theorem hiLine_logged :
    (handleStreamTest "text/event-stream"
        [(Utf8.encode (hiLine ++ ['\n'])).take 9, (Utf8.encode (hiLine ++ ['\n'])).drop 9]).collectedText =
      assembleStreamText id (charUnits (hiLine ++ ['\n'])) := by
  have hlines : splitLines (charUnits (hiLine ++ ['\n'])) = [charUnits hiLine, []] := by
    have hinside : '\n'.toNat ∉ charUnits hiLine := by
      rw [hiLine, hiFrame_write]
      decide
    rw [charUnits_append]
    exact List.splitOn_append_cons_self_of_not_mem hinside []
  have hmarker : ¬markerText <:+: charUnits (hiLine ++ ['\n']) := by
    intro h
    have hcount := h.sublist.count_le 10
    rw [hiLine, hiFrame_write] at hcount
    exact absurd hcount (by decide)
  have hevents : hasFieldLine (charUnits (hiLine ++ ['\n'])) = true := by
    rw [hiLine, hiFrame_write]
    decide
  refine ((live_text_logged id "text/event-stream" (by simp) hmarker).1 hevents).2 ?_
  rw [hlines, List.forall_mem_cons, List.forall_mem_singleton]
  exact ⟨hiLine_event, .inr frameText_nil⟩

/-! ## Comments -/

theorem parse_colon (cs : List Char) : JsonParse.parse (':' :: cs) = none := by
  have hskip : JsonParse.skip (':' :: cs) = ':' :: cs := JsonParse.skip_of_head rfl
  have htoken : (':' :: cs).takeWhile JsonParse.isTokenChar = [] := List.takeWhile_cons_of_neg (by decide)
  have hscalar : JsonParse.scalar (':' :: cs) = none := by
    rw [JsonParse.scalar, htoken]
    rfl
  rw [JsonParse.parse, JsonParse.value, hskip]
  simp [hscalar]

/-- A comment of an event stream is one the panel shows as it stands. -/
theorem a_comment_is_shown {line rest : Units} (h : trimUnits line = ':'.toNat :: rest) :
    extractStreamText line = line ∧ ¬EventLine line := by
  have hdata : isDataLine (trimUnits line) = false := by
    rw [h]
    rfl
  have hother : isOtherField (trimUnits line) = false := by
    rw [h]
    rfl
  have hne : trimUnits line ≠ [] := by
    rw [h]
    exact List.cons_ne_nil _ _
  have hdone : trimUnits line ≠ asUnits "[DONE]" := by
    rw [h]
    intro heq
    exact absurd (List.cons.inj heq).1 (by decide)
  have hparse : jsonParse (trimUnits line) = none := by
    have hchars : JsonParse.chars (trimUnits line) = ':' :: JsonParse.chars rest := by
      rw [h]
      exact JsonParse.chars_units_append ':' rest
    rw [jsonParse, hchars, parse_colon]
  have hframe : frameText (trimUnits line) = none := by
    rw [frameText, if_neg (not_or.2 ⟨hne, hdone⟩), hparse, Option.map_none]
  constructor
  · rw [extract_bare hdata hother hne, hframe, Option.getD_none]
  · simp [EventLine, hdata, hother, hframe]

end ClusterGate.Capture
