/-
  ClusterGate.Capture.Prefix — captured text as a prefix of the body's.

  The bytes are cut by the budget, or by the decoder that stops early, and the decoded text
  by the limit in UTF-16 units. A text whose bytes are cut has its replacement characters
  taken off at the end; the cut of the text has nothing taken off behind half a pair.
  - `shown_prefix_iff`: what is shown is a prefix unless the limit splits a pair, or what was
    decompressed ends inside a character and counts as all of it.
  - `clean_prefix_iff`: so for every body, limit, end and encoding.
-/

import ClusterGate.Capture.Note
import Mathlib.Data.List.DropRight

namespace ClusterGate.Capture

open Lib
open Lib.Base64 (Bytes)
open Lib.JsonParse (Units chars isHigh isLow chars_units)
open Lib.Utf8 (encode replacement EndsInside)

/-! ## Cuts between units -/

def textUnits (cs : List Char) : Units := cs.flatMap JsonParse.units

@[simp] theorem textUnits_nil : textUnits [] = [] := rfl
theorem textUnits_cons (c : Char) (cs : List Char) : textUnits (c :: cs) = JsonParse.units c ++ textUnits cs := rfl
theorem textUnits_append (cs ds : List Char) : textUnits (cs ++ ds) = textUnits cs ++ textUnits ds := List.flatMap_append

theorem textUnits_injective {cs ds : List Char} (h : textUnits cs = textUnits ds) : cs = ds := by
  rw [← chars_units cs, ← chars_units ds]
  exact congrArg chars h

/-- The first half of a pair is among the first units of the text, the second is not. -/
def SplitsPair (n : Nat) (text : Units) : Prop :=
  ∃ before h l after, text = before ++ h :: l :: after ∧ n = before.length + 1 ∧ isHigh h = true ∧ isLow l = true

/-- A character is one unit that is no half of a pair, or a pair. -/
theorem units_cases (c : Char) :
    (∃ u, JsonParse.units c = [u] ∧ isHigh u = false ∧ (u = 0xFFFD → c = replacement)) ∨
    ∃ h l, JsonParse.units c = [h, l] ∧ isHigh h = true ∧ isLow l = true := by
  have hvalid := Utf8.char_valid c
  rw [JsonParse.units]
  split
  · refine .inl ⟨c.toNat, rfl, ?_, fun h => Char.toNat_inj.1 h⟩
    rw [isHigh, Bool.and_eq_false_iff, decide_eq_false_iff_not, decide_eq_false_iff_not]
    omega
  · refine .inr ⟨_, _, rfl, ?_, ?_⟩
    · rw [isHigh, Bool.and_eq_true, decide_eq_true_eq, decide_eq_true_eq]
      omega
    · rw [isLow, Bool.and_eq_true, decide_eq_true_eq, decide_eq_true_eq]
      omega

theorem take_units (cs : List Char) (n : Nat) :
    (∃ k, (textUnits cs).take n = textUnits (cs.take k)) ∨ SplitsPair n (textUnits cs) := by
  induction cs generalizing n with
  | nil => exact .inl ⟨0, by simp⟩
  | cons c cs ih =>
    by_cases hzero : n = 0
    · exact .inl ⟨0, by simp [hzero]⟩
    · by_cases hlong : (JsonParse.units c).length ≤ n
      · rcases ih (n - (JsonParse.units c).length) with ⟨k, hk⟩ | ⟨before, h, l, after, htext, hn, hh, hl⟩
        · refine .inl ⟨k + 1, ?_⟩
          rw [textUnits_cons, List.take_append, List.take_of_length_le hlong, hk, List.take_succ_cons, textUnits_cons]
        · refine .inr ⟨JsonParse.units c ++ before, h, l, after, ?_, ?_, hh, hl⟩
          · rw [textUnits_cons, htext, List.append_assoc]
          · rw [List.length_append]
            omega
      · rcases units_cases c with ⟨u, hu, -⟩ | ⟨h, l, hu, hh, hl⟩
        · rw [hu, List.length_singleton] at hlong
          omega
        · rw [hu, List.length_cons, List.length_singleton] at hlong
          exact .inr ⟨[], h, l, textUnits cs, by rw [textUnits_cons, hu]; rfl, by simp; omega, hh, hl⟩

/-- A text of characters does not end with the first half of a pair. -/
theorem textUnits_last (cs : List Char) : ∀ u ∈ (textUnits cs).getLast?, isHigh u = false := by
  induction cs using List.reverseRecOn with
  | nil => simp
  | append_singleton cs c =>
    intro u hu
    rw [textUnits_append, textUnits_cons, textUnits_nil, List.append_nil] at hu
    rcases units_cases c with ⟨v, hv, hlow, -⟩ | ⟨h, l, hv, -, hl⟩
    · rw [hv, List.getLast?_concat, Option.mem_some_iff] at hu
      exact hu ▸ hlow
    · rw [hv, List.append_cons, List.getLast?_concat, Option.mem_some_iff] at hu
      exact hu ▸ JsonParse.not_high_low hl

theorem dropReplacements_replacement (text : Units) : dropReplacements (text ++ [0xFFFD]) = dropReplacements text :=
  List.rdropWhile_concat_pos _ _ _ rfl

theorem dropReplacements_other (text : Units) {u : Nat} (h : u ≠ 0xFFFD) :
    dropReplacements (text ++ [u]) = text ++ [u] :=
  List.rdropWhile_concat_neg _ _ _ (by simpa using h)

/-- Taking replacement characters off the end leaves the first of the characters. -/
theorem dropReplacements_units (cs : List Char) : ∃ k, dropReplacements (textUnits cs) = textUnits (cs.take k) := by
  induction cs using List.reverseRecOn with
  | nil => exact ⟨0, by simp [dropReplacements]⟩
  | append_singleton cs c ih =>
    have hunits : textUnits (cs ++ [c]) = textUnits cs ++ JsonParse.units c := by
      rw [textUnits_append, textUnits_cons, textUnits_nil, List.append_nil]
    have hall : ∃ k, textUnits (cs ++ [c]) = textUnits ((cs ++ [c]).take k) := ⟨_, by rw [List.take_length]⟩
    rcases units_cases c with ⟨u, hu, -⟩ | ⟨h, l, hu, -, hl⟩
    · by_cases hrep : u = 0xFFFD
      · obtain ⟨k, hk⟩ := ih
        refine ⟨min k cs.length, ?_⟩
        rw [hunits, hu, hrep, dropReplacements_replacement, hk, List.take_append_of_le_length (Nat.min_le_right _ _),
          List.take_eq_take_min]
      · rw [hunits, hu, dropReplacements_other _ hrep, ← hu, ← hunits]
        exact hall
    · have hrep : l ≠ 0xFFFD := by
        rintro rfl
        cases hl
      rw [hunits, hu, List.append_cons, dropReplacements_other _ hrep, ← List.append_cons, ← hu, ← hunits]
      exact hall

/-! ## What is shown -/

/-- What a prefix of a text's bytes is decoded to: characters of the text, and perhaps a
    replacement character behind them. -/
theorem dropReplacements_decoded {cs : List Char} {decoded : Bytes} (h : decoded <+: encode cs) (k : Nat) :
    ∃ m, dropReplacements (textUnits ((Utf8.decode decoded).take k)) = textUnits (cs.take m) := by
  have hpart : ∀ n, ∃ m, dropReplacements (textUnits (cs.take n)) = textUnits (cs.take m) := fun n => by
    obtain ⟨m, hm⟩ := dropReplacements_units (cs.take n)
    exact ⟨min m n, by rw [hm, List.take_take]⟩
  obtain ⟨n, part, rfl, rfl | ⟨c, hc, hinside⟩⟩ := Utf8.prefix_encode h
  · rw [List.append_nil, Utf8.decode_encode, List.take_take]
    exact hpart _
  · rw [Utf8.decode_inside _ hinside, List.take_append, textUnits_append]
    by_cases hk : k ≤ (cs.take n).length
    · rw [Nat.sub_eq_zero_of_le hk, List.take_zero, textUnits_nil, List.append_nil, List.take_take]
      exact hpart _
    · have hwhole : [replacement].take (k - (cs.take n).length) = [replacement] :=
        List.take_of_length_le (by simp only [List.length_singleton]; omega)
      have hunit : textUnits [replacement] = [0xFFFD] := rfl
      rw [hwhole, hunit, dropReplacements_replacement, List.take_take]
      exact hpart _

variable {P : Platform} {opts : StreamCaptureOptions} {bytes decoded : Bytes} {state : CaptureEndState} {cs : List Char}

theorem shown_sliced_iff (h : decoded <+: encode cs) (hlong : opts.limit < (textOf decoded).length) :
    (∃ k, shownText opts decoded true = textUnits (cs.take k)) ↔ ¬SplitsPair opts.limit (textOf decoded) := by
  have hshown : shownText opts decoded true = dropReplacements ((textOf decoded).take opts.limit) := by
    simp [shownText, hlong]
  rw [hshown]
  constructor
  · rintro ⟨k, hk⟩ ⟨before, hi, lo, after, htext, hn, hh, -⟩
    have htake : (textOf decoded).take opts.limit = before ++ [hi] := by
      rw [htext, hn, List.append_cons, List.take_left']
      simp
    have hrep : hi ≠ 0xFFFD := by
      rintro rfl
      cases hh
    rw [htake, dropReplacements_other _ hrep] at hk
    have hlast := textUnits_last (cs.take k) hi
    rw [← hk, List.getLast?_concat] at hlast
    rw [hlast rfl] at hh
    cases hh
  · intro hwhole
    obtain ⟨k, hk⟩ := (take_units (Utf8.decode decoded) opts.limit).resolve_right hwhole
    obtain ⟨m, hm⟩ := dropReplacements_decoded h k
    exact ⟨m, by rw [← hm, ← hk]; rfl⟩

theorem shown_prefix_iff (h : decoded <+: encode cs) {cut : Bool} (hcut : opts.limit < (textOf decoded).length → cut = true) :
    (∃ k, shownText opts decoded cut = textUnits (cs.take k)) ↔
      ¬(opts.limit < (textOf decoded).length ∧ SplitsPair opts.limit (textOf decoded)) ∧
      ¬(cut = false ∧ EndsInside cs decoded) := by
  by_cases hlong : opts.limit < (textOf decoded).length
  · rw [hcut hlong, shown_sliced_iff h hlong]
    simp [hlong]
  · cases cut with
    | true =>
      obtain ⟨m, hm⟩ := dropReplacements_decoded h (Utf8.decode decoded).length
      rw [List.take_length] at hm
      have hshown : shownText opts decoded true = textUnits (cs.take m) := by
        simp only [shownText, if_neg hlong, if_true]
        exact hm
      exact iff_of_true ⟨m, hshown⟩ ⟨fun hsliced => hlong hsliced.1, fun hwhole => Bool.noConfusion hwhole.1⟩
    | false =>
      have hshown : shownText opts decoded false = textUnits (Utf8.decode decoded) := by
        simp only [shownText, if_neg hlong, Bool.false_eq_true, if_false]
        rfl
      rw [hshown]
      constructor
      · rintro ⟨k, hk⟩
        exact ⟨fun hsliced => hlong hsliced.1, fun hends => (Utf8.decode_prefix_iff h).1 ⟨k, textUnits_injective hk⟩ hends.2⟩
      · rintro ⟨-, hends⟩
        obtain ⟨k, hk⟩ := (Utf8.decode_prefix_iff h).2 fun hinside => hends ⟨rfl, hinside⟩
        exact ⟨k, by rw [hk]⟩

/-! ## The body and its capture -/

/-- The bytes of the capture are the body's: the first of them, and all at its end. Compressed,
    what they decompress to is the first of the body's. -/
structure Received (P : Platform) (opts : StreamCaptureOptions) (cs : List Char) (bytes decoded : Bytes)
    (state : CaptureEndState) : Prop where
  decodes : decode P (bytes.take (budget P opts)) opts.contentEncoding (opts.limit * 4) = some decoded
  plain : isCompressed P opts = false → bytes <+: encode cs ∧ (state = .complete → bytes = encode cs)
  inflated : isCompressed P opts = true → decoded <+: encode cs

/-- Without its note, the body of the result is the first characters of the text. -/
def CleanPrefix (P : Platform) (opts : StreamCaptureOptions) (cs : List Char) (state : CaptureEndState)
    (r : StreamCaptureResult) : Prop :=
  ∃ k, r.body = textUnits (cs.take k) ++ noteOf P opts state r (textUnits (cs.take k))

/-- What stands before the note is determined by the body. -/
theorem note_cancel {text text' : Units} {shown shown' total : Nat} {compressed : Bool}
    (h : text ++ asUnits (truncationNote shown total compressed state) =
      text' ++ asUnits (truncationNote shown' total compressed state)) : text = text' := by
  obtain ⟨note, hsplit⟩ := split_note id text shown total compressed state
  obtain ⟨note', hsplit'⟩ := split_note id text' shown' total compressed state
  rw [h, hsplit'] at hsplit
  exact (congrArg Split.body hsplit).symm

theorem cleanPrefix_iff {text : Units} {cut : Bool} {total : Nat} :
    CleanPrefix P opts cs state ⟨text ++ (if cut then asUnits (truncationNote (bytesOf text).length total
      (isCompressed P opts) state) else []), cut, total, false⟩ ↔ ∃ k, text = textUnits (cs.take k) := by
  constructor
  · rintro ⟨k, hk⟩
    cases cut with
    | true =>
      simp only [noteOf, if_true] at hk
      exact ⟨k, note_cancel hk⟩
    | false =>
      simp only [noteOf, Bool.false_eq_true, if_false, List.append_nil] at hk
      exact ⟨k, hk⟩
  · rintro ⟨k, rfl⟩
    exact ⟨k, by rw [noteOf]⟩

theorem Received.part (h : Received P opts cs bytes decoded state) : decoded <+: encode cs := by
  cases hcompressed : isCompressed P opts with
  | true => exact h.inflated hcompressed
  | false =>
    have hdecoded := h.decodes
    rw [decode_uncompressed hcompressed] at hdecoded
    rw [← Option.some.inj hdecoded]
    exact (List.take_prefix _ _).trans (h.plain hcompressed).1

/-- An uncompressed body is cut by the budget only, and then known to be cut. -/
theorem Received.plain_whole (h : Received P opts cs bytes decoded state) (hcompressed : isCompressed P opts = false) :
    ¬opts.limit < (textOf decoded).length ∧ (¬IsCut P opts bytes decoded state → decoded = encode cs) := by
  have hbudget : budget P opts = opts.limit := by simp [budget, hcompressed]
  have hdecoded : bytes.take opts.limit = decoded := by
    have hdecoded := h.decodes
    rw [decode_uncompressed hcompressed, hbudget] at hdecoded
    exact Option.some.inj hdecoded
  have hlength : decoded.length ≤ opts.limit := by
    rw [← hdecoded, List.length_take]
    exact Nat.min_le_left _ _
  refine ⟨?_, fun hwhole => ?_⟩
  · have hunits := length_textOf_le decoded
    omega
  · have hend : state = .complete := by
      by_contra hnot
      exact hwhole (.inl hnot)
    have hall : bytes.length ≤ opts.limit := by
      by_contra hnot
      exact hwhole (.inr (.inl (by omega)))
    rw [← hdecoded, List.take_of_length_le hall]
    exact (h.plain hcompressed).2 hend

theorem outcome_clean_iff (hne : bytes ≠ []) (h : Received P opts cs bytes decoded state)
    (htext : isBinary P opts decoded = false) :
    CleanPrefix P opts cs state (outcome P opts bytes state) ↔
      ¬(opts.limit < (textOf decoded).length ∧ SplitsPair opts.limit (textOf decoded)) ∧
        (IsCut P opts bytes decoded state ∨ ¬EndsInside cs decoded) := by
  obtain ⟨cut, hcut, hout⟩ := outcome_text state hne h.decodes htext
  have hsliced : opts.limit < (textOf decoded).length → cut = true := fun hlong => hcut.2 (.inr (.inr (.inr hlong)))
  have hfalse : cut = false ↔ ¬IsCut P opts bytes decoded state := by rw [← hcut, Bool.not_eq_true]
  rw [hout, cleanPrefix_iff, shown_prefix_iff h.part hsliced, hfalse, not_and (b := EndsInside cs decoded), ← or_iff_not_imp_left]

/-- Whatever the body, its chunks, the limit, the end and the encoding: the text is a clean
    prefix unless it was decompressed and either the limit splits a pair of it, or what was
    decompressed ends inside a character and nothing tells that it is not all. -/
theorem clean_prefix_iff (P : Platform) (opts : StreamCaptureOptions) (state : CaptureEndState) (chunks : List Chunk)
    {cs : List Char} {decoded : Bytes} (h : Received P opts cs (chunks.flatMap Chunk.bytes) decoded state)
    (htext : isBinary P opts decoded = false) :
    CleanPrefix P opts cs state (finish P (pushAll (create P opts) chunks) state) ↔
      chunks.flatMap Chunk.bytes = [] ∨ isCompressed P opts = false ∨
        (¬(opts.limit < (textOf decoded).length ∧ SplitsPair opts.limit (textOf decoded)) ∧
          (IsCut P opts (chunks.flatMap Chunk.bytes) decoded state ∨ ¬EndsInside cs decoded)) := by
  rw [finish_of_holds (captured_holds P opts chunks)]
  by_cases hne : chunks.flatMap Chunk.bytes = []
  · rw [hne, outcome_empty]
    exact iff_of_true ⟨0, rfl⟩ (.inl rfl)
  · rw [outcome_clean_iff hne h htext]
    cases hcompressed : isCompressed P opts with
    | true => simp [hne]
    | false =>
      obtain ⟨hshort, hwhole⟩ := h.plain_whole hcompressed
      refine iff_of_true ⟨fun hlong => hshort hlong.1, ?_⟩ (.inr (.inl rfl))
      rw [or_iff_not_imp_left]
      intro hall
      rw [hwhole hall]
      exact (Utf8.decode_prefix_iff (List.prefix_refl _)).1 ⟨cs.length, by rw [Utf8.decode_encode, List.take_length]⟩

theorem clean_prefix_euro :
    CleanPrefix plainPlatform (plainText 3) "ab€€".toList .complete
      (finish plainPlatform (pushAll (create plainPlatform (plainText 3)) [.buffer (encode "ab€€".toList)]) .complete) :=
  have hreceived : Received plainPlatform (plainText 3) "ab€€".toList (encode "ab€€".toList) [0x61, 0x62, 0xE2] .complete :=
    ⟨by decide, fun _ => ⟨List.prefix_refl _, fun _ => rfl⟩, by decide⟩
  (clean_prefix_iff plainPlatform (plainText 3) .complete [.buffer (encode "ab€€".toList)] hreceived (by decide)).2
    (.inr (.inl (by decide)))

/-- `ab😀` in a brotli stream of one stored block. -/
def brotliEmoji : Bytes := [0x8B, 0x02, 0x80, 0x61, 0x62, 0xF0, 0x9F, 0x98, 0x80, 0x03]

def brotliPlatform : Platform :=
  ⟨id, id_empty, fun decoder raw =>
    if decoder = .brotliDecompress ∧ raw = brotliEmoji then ⟨[encode "ab😀".toList], true⟩ else ⟨[], false⟩⟩

def brotliText (limit : Nat) : StreamCaptureOptions := ⟨some "text/plain", some "br", limit, none⟩

theorem the_limit_splits_a_pair :
    Received brotliPlatform (brotliText 3) "ab😀".toList brotliEmoji (encode "ab😀".toList) .complete ∧
    ¬CleanPrefix brotliPlatform (brotliText 3) "ab😀".toList .complete
      (finish brotliPlatform (pushAll (create brotliPlatform (brotliText 3)) [.buffer brotliEmoji]) .complete) := by
  have hreceived : Received brotliPlatform (brotliText 3) "ab😀".toList brotliEmoji (encode "ab😀".toList) .complete :=
    ⟨by decide, by decide, fun _ => List.prefix_refl _⟩
  have hsplit : SplitsPair 3 (textOf (encode "ab😀".toList)) := ⟨[97, 98], 0xD83D, 0xDE00, [], by decide, rfl, rfl, rfl⟩
  refine ⟨hreceived, fun hclean => ?_⟩
  rw [finish_of_holds (captured_holds brotliPlatform (brotliText 3) [.buffer brotliEmoji])] at hclean
  exact ((outcome_clean_iff (by decide) hreceived (by decide)).1 hclean).1 ⟨by decide, hsplit⟩

end ClusterGate.Capture
