/-
  ClusterGate.Capture.Service — the tee of a response body for the request log
  (`StreamCapture` of `lib/streamCapture.ts`).

  `push` copies bytes until the budget is spent and counts the rest; `finish` decodes what
  was copied, once. A header's lower case and what a zlib stream emits for its input are
  the platform's.
  - `pushAll_holds`: after any chunks the capture holds the first bytes of all of them.
  - `finish_of_holds`: what it gives at the end is a function of those bytes.
  - `capture_ignores_chunking`: so two ways to cut the bytes into chunks are captured alike,
    and text within the limit is captured whole.
-/

import ClusterGate.Lib.Text
import ClusterGate.Lib.Utf8

namespace ClusterGate.Capture

open Lib
open Lib.Base64 (Bytes)
open Lib.JsonParse (Units chars)

def asUnits (s : String) : Units := s.toList.flatMap JsonParse.units

inductive CaptureEndState where
  | complete
  | open_
  | aborted
  deriving DecidableEq

def endStateText : CaptureEndState → String
  | .complete => "complete"
  | .open_ => "stream still open"
  | .aborted => "stream aborted"

inductive Kind where
  | stream
  | body
  deriving DecidableEq

def Kind.text : Kind → String
  | .stream => "stream"
  | .body => "body"

structure StreamCaptureResult where
  body : Units
  truncated : Bool
  totalBytes : Nat
  binary : Bool
  deriving DecidableEq

structure StreamCaptureOptions where
  contentType : Option String
  contentEncoding : Option String
  limit : Nat
  kind : Option Kind

/-! ## The platform -/

inductive Decoder where
  | gunzip
  | inflate
  | inflateRaw
  | brotliDecompress
  deriving DecidableEq

/-- The chunks a decoder emits, and whether it ends after them or with an error. -/
structure Emitted where
  data : List Bytes
  ended : Bool

structure Platform where
  toLowerCase : String → String
  toLowerCase_empty : toLowerCase "" = ""
  zlib : Decoder → Bytes → Emitted

/-! ## Content types -/

def isWordChar (c : Char) : Bool := c.isAlphanum || c == '_'

/-- `p\b`, for a `p` that ends with a word character, at the start of a text. -/
def wordAt (p : String) (cs : List Char) : Bool :=
  p.toList.isPrefixOf cs && !(cs.drop p.toList.length).head?.any isWordChar

def textSubtypes : List String :=
  ["json", "x-ndjson", "ndjson", "jsonl", "x-jsonlines", "xml", "javascript", "ecmascript", "graphql",
    "x-www-form-urlencoded", "problem+json", "problem+xml"]

def matchesTextTypes (ct : List Char) : Bool :=
  "text/".toList.isPrefixOf ct ||
  (textSubtypes.any fun t => wordAt ("application/" ++ t) ct) ||
  ct.tails.any fun rest => wordAt "+json" rest || wordAt "+xml" rest

def isTextContentType (P : Platform) : Option String → Option Bool
  | none => none
  | some contentType =>
    if contentType = "" then none else some (matchesTextTypes (Text.trim (P.toLowerCase contentType)).toList)

/-- Without a content type, text has no control bytes in its first kilobyte. -/
def looksLikeText (buf : Bytes) : Bool :=
  (buf.take 1024).all fun b => !(b.toNat < 0x09 || (0x0d < b.toNat && b.toNat < 0x20))

/-! ## Decoding -/

def createDecoder (encoding : String) : Option Decoder :=
  if encoding = "gzip" || encoding = "x-gzip" then some .gunzip
  else if encoding = "deflate" then some .inflate
  else if encoding = "deflate-raw" then some .inflateRaw
  else if encoding = "br" then some .brotliDecompress
  else none

/-- The listeners of `inflatePrefix`, with the output so far. -/
def settle (maxOutput : Nat) (out : Bytes) : List Bytes → Bool → Option Bytes
  | [], ended => if ended || 0 < out.length then some out else none
  | chunk :: data, ended =>
    if maxOutput ≤ (out ++ chunk).length then some ((out ++ chunk).take maxOutput)
    else settle maxOutput (out ++ chunk) data ended

def inflatePrefix (P : Platform) (raw : Bytes) (encoding : String) (maxOutput : Nat) : Option Bytes :=
  match createDecoder encoding with
  | none => none
  | some decoder => settle maxOutput [] (P.zlib decoder raw).data (P.zlib decoder raw).ended

def encodingName (P : Platform) (encoding : Option String) : String := Text.trim (P.toLowerCase (encoding.getD ""))

def decode (P : Platform) (raw : Bytes) (encoding : Option String) (maxOutput : Nat) : Option Bytes :=
  let enc := encodingName P encoding
  if enc = "" || enc = "identity" then some raw
  else
    match inflatePrefix P raw enc maxOutput with
    | some decoded => some decoded
    | none => if enc = "deflate" then inflatePrefix P raw "deflate-raw" maxOutput else none

/-- `Buffer.toString('utf8')` -/
def textOf (bs : Bytes) : Units := (Utf8.decode bs).flatMap JsonParse.units

/-- `Buffer.from(text)`: half a surrogate pair is written as the replacement character. -/
def bytesOf (us : Units) : Bytes := Utf8.encode (chars us)

/-! ## The capture -/

inductive Chunk where
  | buffer (bytes : Bytes)
  | text (us : Units)

def Chunk.bytes : Chunk → Bytes
  | .buffer bytes => bytes
  | .text us => bytesOf us

structure StreamCapture where
  opts : StreamCaptureOptions
  chunks : List Bytes
  captured : Nat
  total : Nat
  rawBudget : Nat
  compressed : Bool

def isCompressed (P : Platform) (opts : StreamCaptureOptions) : Bool :=
  encodingName P opts.contentEncoding != "" && encodingName P opts.contentEncoding != "identity"

def budget (P : Platform) (opts : StreamCaptureOptions) : Nat :=
  if isCompressed P opts then opts.limit * 4 else opts.limit

/-- `new StreamCapture(opts)` -/
def create (P : Platform) (opts : StreamCaptureOptions) : StreamCapture :=
  ⟨opts, [], 0, 0, budget P opts, isCompressed P opts⟩

def push (c : StreamCapture) (chunk : Chunk) : StreamCapture :=
  let buf := chunk.bytes
  let counted := { c with total := c.total + buf.length }
  if c.rawBudget ≤ c.captured then counted
  else
    let remaining := c.rawBudget - c.captured
    let slice := if buf.length ≤ remaining then buf else buf.take remaining
    { counted with chunks := c.chunks ++ [slice], captured := c.captured + slice.length }

def pushAll (c : StreamCapture) (chunks : List Chunk) : StreamCapture := chunks.foldl push c

def full (c : StreamCapture) : Bool := c.rawBudget ≤ c.captured

/-! ## Its end -/

def truncationMarker : String := "[… truncated"

def noteText (shown total : Nat) (compressed : Bool) : CaptureEndState → String
  | .complete => ": showing first " ++ toString shown ++ " of " ++ toString total ++ " bytes" ++
      (if compressed then " (compressed size)" else "") ++ "]"
  | state => ": showing first " ++ toString shown ++ " bytes, " ++ endStateText state ++ "]"

def truncationNote (shown total : Nat) (compressed : Bool) (state : CaptureEndState) : String :=
  "\n\n" ++ truncationMarker ++ noteText shown total compressed state

/-- A character split at the cut is decoded to U+FFFD. -/
def dropReplacements (text : Units) : Units := text.rdropWhile (· == 0xFFFD)

def isBinary (P : Platform) (opts : StreamCaptureOptions) (decoded : Bytes) : Bool :=
  isTextContentType P opts.contentType == some false ||
    (isTextContentType P opts.contentType == none && !looksLikeText decoded)

def kindText (opts : StreamCaptureOptions) : String := (opts.kind.getD .stream).text

def undecodable (opts : StreamCaptureOptions) (total : Nat) : String :=
  "[" ++ kindText opts ++ ": " ++ toString total ++ " bytes, " ++ opts.contentEncoding.getD "undefined" ++
    " encoded — not decodable for preview]"

def binaryPlaceholder (opts : StreamCaptureOptions) (total : Nat) (state : CaptureEndState) : String :=
  "[binary " ++ kindText opts ++ ": " ++
    (if state = .complete then toString total ++ " bytes" else toString total ++ "+ bytes, " ++ endStateText state) ++
    (match opts.contentType with
      | none => ""
      | some contentType => if contentType = "" then "" else ", " ++ contentType) ++ "]"

def rawTruncated (c : StreamCapture) (state : CaptureEndState) : Bool := state != .complete || c.captured < c.total

/-- The text that is kept, and whether any of the body is not. -/
def keptText (limit : Nat) (truncated : Bool) (text : Units) : Units × Bool :=
  let truncated := truncated || limit < text.length
  let text := if limit < text.length then text.take limit else text
  (if truncated then dropReplacements text else text, truncated)

def finishText (c : StreamCapture) (state : CaptureEndState) (decoded : Bytes) : StreamCaptureResult :=
  let (text, truncated) :=
    keptText c.opts.limit (rawTruncated c state || c.opts.limit * 4 ≤ decoded.length) (textOf decoded)
  let note := if truncated then asUnits (truncationNote (bytesOf text).length c.total c.compressed state) else []
  ⟨text ++ note, truncated, c.total, false⟩

def finish (P : Platform) (c : StreamCapture) (state : CaptureEndState) : StreamCaptureResult :=
  if c.total = 0 then ⟨[], false, 0, false⟩
  else
    match decode P c.chunks.flatten c.opts.contentEncoding (c.opts.limit * 4) with
    | none => ⟨asUnits (undecodable c.opts c.total), rawTruncated c state, c.total, true⟩
    | some decoded =>
      if isBinary P c.opts decoded then ⟨asUnits (binaryPlaceholder c.opts c.total state), false, c.total, true⟩
      else finishText c state decoded

/-! ## What it holds -/

/-- After the bytes have been pushed, in whatever chunks. -/
structure Holds (P : Platform) (opts : StreamCaptureOptions) (bytes : Bytes) (c : StreamCapture) : Prop where
  options : c.opts = opts
  rawBudget : c.rawBudget = budget P opts
  compressed : c.compressed = isCompressed P opts
  raw : c.chunks.flatten = bytes.take c.rawBudget
  captured : c.captured = min bytes.length c.rawBudget
  total : c.total = bytes.length

variable {P : Platform} {opts : StreamCaptureOptions} {bytes : Bytes} {c : StreamCapture}

theorem create_holds (P : Platform) (opts : StreamCaptureOptions) : Holds P opts [] (create P opts) :=
  ⟨rfl, rfl, rfl, by simp [create], by simp [create], rfl⟩

theorem push_holds (h : Holds P opts bytes c) (chunk : Chunk) : Holds P opts (bytes ++ chunk.bytes) (push c chunk) := by
  have hcaptured := h.captured
  rw [push]
  split
  · rename_i hspent
    have hlong : c.rawBudget ≤ bytes.length := by omega
    refine ⟨h.options, h.rawBudget, h.compressed, ?_, ?_, ?_⟩
    · show c.chunks.flatten = (bytes ++ chunk.bytes).take c.rawBudget
      rw [h.raw, List.take_append_of_le_length hlong]
    · show c.captured = min (bytes ++ chunk.bytes).length c.rawBudget
      rw [List.length_append]
      omega
    · show c.total + chunk.bytes.length = (bytes ++ chunk.bytes).length
      rw [h.total, List.length_append]
  · rename_i hleft
    have hshort : bytes.length < c.rawBudget := by omega
    have hslice : (if chunk.bytes.length ≤ c.rawBudget - c.captured then chunk.bytes
        else chunk.bytes.take (c.rawBudget - c.captured)) = chunk.bytes.take (c.rawBudget - bytes.length) := by
      have hn : c.captured = bytes.length := by omega
      rw [hn]
      split
      · rename_i hle
        rw [List.take_of_length_le hle]
      · rfl
    dsimp only
    rw [hslice]
    refine ⟨h.options, h.rawBudget, h.compressed, ?_, ?_, ?_⟩
    · show (c.chunks ++ [chunk.bytes.take (c.rawBudget - bytes.length)]).flatten = (bytes ++ chunk.bytes).take c.rawBudget
      rw [List.flatten_append, h.raw, List.flatten_singleton, List.take_append, List.take_of_length_le hshort.le]
    · show c.captured + (chunk.bytes.take (c.rawBudget - bytes.length)).length =
        min (bytes ++ chunk.bytes).length c.rawBudget
      rw [List.length_take, List.length_append]
      omega
    · show c.total + chunk.bytes.length = (bytes ++ chunk.bytes).length
      rw [h.total, List.length_append]

theorem pushAll_holds (h : Holds P opts bytes c) (chunks : List Chunk) :
    Holds P opts (bytes ++ chunks.flatMap Chunk.bytes) (pushAll c chunks) := by
  induction chunks generalizing bytes c with
  | nil => rwa [List.flatMap_nil, List.append_nil]
  | cons chunk chunks ih =>
    rw [List.flatMap_cons, ← List.append_assoc]
    exact ih (push_holds h chunk)

theorem captured_holds (P : Platform) (opts : StreamCaptureOptions) (chunks : List Chunk) :
    Holds P opts (chunks.flatMap Chunk.bytes) (pushAll (create P opts) chunks) :=
  pushAll_holds (create_holds P opts) chunks

/-! ## What it gives -/

/-- The end of a capture of the bytes. -/
def outcome (P : Platform) (opts : StreamCaptureOptions) (bytes : Bytes) (state : CaptureEndState) :
    StreamCaptureResult :=
  finish P ⟨opts, [bytes.take (budget P opts)], min bytes.length (budget P opts), bytes.length, budget P opts,
    isCompressed P opts⟩ state

theorem finish_of_holds (h : Holds P opts bytes c) (state : CaptureEndState) :
    finish P c state = outcome P opts bytes state := by
  have hraw : c.chunks.flatten = [bytes.take (budget P opts)].flatten := by
    rw [h.raw, h.rawBudget, List.flatten_singleton]
  have hcaptured : c.captured = min bytes.length (budget P opts) := by rw [h.captured, h.rawBudget]
  unfold outcome finish finishText rawTruncated
  rw [h.options, hraw, hcaptured, h.total, h.compressed]

/-- Part of the body is not in the text: it did not come to its end, or is longer than the
    budget, or than what is decoded of it, or its text than the limit. -/
def IsCut (P : Platform) (opts : StreamCaptureOptions) (bytes decoded : Bytes) (state : CaptureEndState) : Prop :=
  state ≠ .complete ∨ budget P opts < bytes.length ∨ opts.limit * 4 ≤ decoded.length ∨
    opts.limit < (textOf decoded).length

/-- The text of a capture, before its note. -/
def shownText (opts : StreamCaptureOptions) (decoded : Bytes) (cut : Bool) : Units :=
  let text := if opts.limit < (textOf decoded).length then (textOf decoded).take opts.limit else textOf decoded
  if cut then dropReplacements text else text

theorem outcome_text (state : CaptureEndState) {decoded : Bytes} (hne : bytes ≠ [])
    (hdecoded : decode P (bytes.take (budget P opts)) opts.contentEncoding (opts.limit * 4) = some decoded)
    (htext : isBinary P opts decoded = false) :
    ∃ cut : Bool, (cut = true ↔ IsCut P opts bytes decoded state) ∧
      outcome P opts bytes state = ⟨shownText opts decoded cut ++
        (if cut then asUnits (truncationNote (bytesOf (shownText opts decoded cut)).length bytes.length
          (isCompressed P opts) state) else []), cut, bytes.length, false⟩ := by
  refine ⟨state != .complete || decide (budget P opts < bytes.length) || decide (opts.limit * 4 ≤ decoded.length) ||
    decide (opts.limit < (textOf decoded).length), ?_, ?_⟩
  · simp [IsCut, or_assoc]
  · have hlength : bytes.length ≠ 0 := fun h => hne (List.length_eq_zero_iff.1 h)
    have hmin : decide (min bytes.length (budget P opts) < bytes.length) = decide (budget P opts < bytes.length) :=
      decide_eq_decide.2 (by omega)
    have hdec : decode P [bytes.take (budget P opts)].flatten opts.contentEncoding (opts.limit * 4) = some decoded := by
      rwa [List.flatten_singleton]
    simp only [outcome, finish, hlength, if_false, hdec, htext, finishText, keptText, shownText, rawTruncated, hmin,
      Bool.false_eq_true]

theorem full_of_holds (h : Holds P opts bytes c) : full c = decide (budget P opts ≤ bytes.length) := by
  rw [full, h.captured, h.rawBudget]
  exact decide_eq_decide.2 (by omega)

theorem decode_uncompressed (h : isCompressed P opts = false) (raw : Bytes) (maxOutput : Nat) :
    decode P raw opts.contentEncoding maxOutput = some raw := by
  have henc : encodingName P opts.contentEncoding = "" ∨ encodingName P opts.contentEncoding = "identity" := by
    rw [isCompressed, Bool.and_eq_false_iff, bne_eq_false_iff_eq, bne_eq_false_iff_eq] at h
    exact h
  unfold decode
  rcases henc with henc | henc <;> simp [henc]

theorem length_textOf_le (bs : Bytes) : (textOf bs).length ≤ bs.length := Utf8.units_decode_le bs

theorem keptText_within {limit : Nat} {text : Units} (h : text.length ≤ limit) :
    keptText limit false text = (text, false) := by
  have hnot : ¬limit < text.length := by omega
  simp [keptText, hnot]

theorem outcome_empty (state : CaptureEndState) : outcome P opts [] state = ⟨[], false, 0, false⟩ := rfl

/-- Text within the limit that has come to its end is kept as it is. -/
theorem outcome_whole (hplain : isCompressed P opts = false) (htext : isBinary P opts bytes = false)
    (hle : bytes.length ≤ opts.limit) : outcome P opts bytes .complete = ⟨textOf bytes, false, bytes.length, false⟩ := by
  by_cases hne : bytes.length = 0
  · rw [List.length_eq_zero_iff.1 hne]
    rfl
  · have hbudget : budget P opts = opts.limit := by simp [budget, hplain]
    have hraw : [bytes.take opts.limit].flatten = bytes := by rw [List.flatten_singleton, List.take_of_length_le hle]
    have hmin : min bytes.length opts.limit = bytes.length := Nat.min_eq_left hle
    have hpart : (rawTruncated ⟨opts, [bytes.take opts.limit], bytes.length, bytes.length, opts.limit, false⟩ .complete ||
        decide (opts.limit * 4 ≤ bytes.length)) = false := by
      have hlong : ¬opts.limit * 4 ≤ bytes.length := by omega
      simp [rawTruncated, hlong]
    have hkept : keptText opts.limit false (textOf bytes) = (textOf bytes, false) :=
      keptText_within ((length_textOf_le bytes).trans hle)
    simp only [outcome, finish, finishText, hbudget, hraw, hmin, hplain, decode_uncompressed hplain, htext, hne,
      if_false, hpart, hkept, List.append_nil, Bool.false_eq_true]

/-- Two ways to cut the same bytes into chunks, empty ones among them, end alike in every
    state, with as many bytes captured as the budget allows; and a text within the limit is
    decoded from all of its bytes. -/
theorem capture_ignores_chunking (P : Platform) (opts : StreamCaptureOptions) {chunks chunks' : List Chunk}
    (h : chunks.flatMap Chunk.bytes = chunks'.flatMap Chunk.bytes) :
    (∀ state, finish P (pushAll (create P opts) chunks) state = finish P (pushAll (create P opts) chunks') state) ∧
    full (pushAll (create P opts) chunks) = full (pushAll (create P opts) chunks') ∧
    (pushAll (create P opts) chunks).captured =
      min (pushAll (create P opts) chunks).total (if isCompressed P opts then opts.limit * 4 else opts.limit) ∧
    (pushAll (create P opts) chunks).total = (chunks.flatMap Chunk.bytes).length ∧
    (isCompressed P opts = false → isBinary P opts (chunks.flatMap Chunk.bytes) = false →
      (chunks.flatMap Chunk.bytes).length ≤ opts.limit →
      finish P (pushAll (create P opts) chunks) .complete =
        ⟨textOf (chunks.flatMap Chunk.bytes), false, (chunks.flatMap Chunk.bytes).length, false⟩) := by
  have hleft := captured_holds P opts chunks
  have hright := captured_holds P opts chunks'
  rw [← h] at hright
  refine ⟨fun state => ?_, ?_, ?_, hleft.total, fun hplain htext hle => ?_⟩
  · rw [finish_of_holds hleft, finish_of_holds hright]
  · rw [full_of_holds hleft, full_of_holds hright]
  · rw [hleft.captured, hleft.total, hleft.rawBudget, budget]
  · rw [finish_of_holds hleft, outcome_whole hplain htext hle]

theorem id_empty : id "" = "" := rfl

/-- A platform that leaves header names as they are and decompresses nothing. -/
def plainPlatform : Platform := ⟨id, id_empty, fun _ _ => ⟨[], false⟩⟩

def plainText (limit : Nat) : StreamCaptureOptions := ⟨some "text/plain", none, limit, none⟩

theorem capture_ignores_chunking_abc :
    finish plainPlatform (pushAll (create plainPlatform (plainText 2))
        [.buffer [97], .buffer [], .buffer [98, 99]]) .complete =
      finish plainPlatform (pushAll (create plainPlatform (plainText 2)) [.buffer [97, 98, 99]]) .complete :=
  (capture_ignores_chunking plainPlatform (plainText 2) (by decide)).1 .complete

end ClusterGate.Capture
