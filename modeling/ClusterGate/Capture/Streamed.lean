/-
  ClusterGate.Capture.Streamed — the body that is logged for a streamed response, and for a
  buffered one (`proxyRequest`, `captureBody` of `proxyService.ts`).

  A streamed response is logged before its body is there; the handlers of the upstream's
  chunks, of its end and of the client's leaving fill it in, the first that finishes the
  capture. A spent budget finishes it too, as a stream that is still open.
  - `seen_spec`: before the end and the close, the capture holds what was seen, unless that
    spent the budget.
  - `streamed_as_buffered_iff`: both ways log the same body exactly if it is shorter than the
    limit and ends before the client leaves.
  - `a_full_body_is_logged_as_open`: at the limit the body is whole, and logged as cut.
-/

import ClusterGate.Capture.Prefix

namespace ClusterGate.Capture

open Lib
open Lib.Base64 (Bytes)
open Lib.JsonParse (Units)

/-! ## The handlers -/

inductive Event where
  | data (chunk : Bytes)
  | end_
  | error
  | close
  deriving DecidableEq

structure Tee where
  capture : StreamCapture
  /-- The result of the finished capture (`captureFlushed`). -/
  flushed : Option StreamCaptureResult
  readableEnded : Bool

variable (P : Platform)

def flushCapture (t : Tee) (state : CaptureEndState) : Tee :=
  if t.flushed.isSome then t else { t with flushed := some (finish P t.capture state) }

def handle (t : Tee) : Event → Tee
  | .data chunk =>
    if t.flushed.isSome then t
    else
      let t := { t with capture := push t.capture (.buffer chunk) }
      if full t.capture then flushCapture P t .open_ else t
  | .end_ => flushCapture P { t with readableEnded := true } .complete
  | .error => flushCapture P t .aborted
  | .close => flushCapture P t (if t.readableEnded then .complete else .aborted)

def handleAll (t : Tee) (events : List Event) : Tee := events.foldl (handle P) t

def openTee (opts : StreamCaptureOptions) : Tee := ⟨create P opts, none, false⟩

/-! ## What is stored -/

/-- `sanitizeText(body) ?? body` -/
def sanitized (sanitizeText : Option Units → Option Units) (body : Option Units) : Option Units :=
  match sanitizeText body with
  | some text => some text
  | none => body

def streamingPlaceholder : String := "[streaming…]"

/-- `responseBody` of the log entry: the placeholder until the capture is finished. -/
def storedStreamed (sanitizeText : Option Units → Option Units) (t : Tee) : Option Units :=
  match t.flushed with
  | none => sanitized sanitizeText (some (asUnits streamingPlaceholder))
  | some result => sanitized sanitizeText (some result.body)

def captureBody (body : Bytes) (contentType contentEncoding : Option String) (limit : Nat) : Option Units :=
  if body.length = 0 then none
  else
    let capture := push (create P ⟨contentType, contentEncoding, limit, some .body⟩) (.buffer body)
    let result := finish P capture .complete
    if result.body = [] then none else some result.body

/-- axios has decompressed the body, so it has no encoding here. -/
def storedBuffered (sanitizeText : Option Units → Option Units) (body : Bytes) (contentType : Option String)
    (limit : Nat) : Option Units :=
  sanitized sanitizeText (captureBody P body contentType none limit)

/-! ## Orders of events -/

def Event.chunk : Event → Bytes
  | .data chunk => chunk
  | _ => []

/-- The bytes of the chunks in some events. -/
def seen (events : List Event) : Bytes := events.flatMap Event.chunk

/-- The upstream delivers the body in chunks, in any way, and ends; the client's connection is
    closed at any time. -/
def Delivered (body : Bytes) (events : List Event) : Prop :=
  ∃ chunks : List Bytes, events.filter (· ≠ .close) = chunks.map .data ++ [.end_] ∧ chunks.flatten = body

/-- The upstream ends before the client's connection is closed. -/
def ClosedLast (events : List Event) : Prop :=
  ∀ before after, events = before ++ .close :: after → .end_ ∈ before

variable {P} {opts : StreamCaptureOptions}

/-- The chunks that come before the end and the close. -/
theorem delivered_split {body : Bytes} {events : List Event} (h : Delivered body events) :
    ∃ chunks : List Bytes, (∃ after, events = chunks.map .data ++ .end_ :: after ∧ chunks.flatten = body) ∨
      ∃ after, events = chunks.map .data ++ .close :: after ∧ chunks.flatten <+: body := by
  obtain ⟨chunks, hevents, rfl⟩ := h
  induction events generalizing chunks with
  | nil => simp at hevents
  | cons e events ih =>
    cases e with
    | close => exact ⟨[], .inr ⟨events, rfl, List.nil_prefix⟩⟩
    | data chunk =>
      cases chunks with
      | nil => simp at hevents
      | cons first chunks =>
        obtain ⟨rfl, hrest⟩ : chunk = first ∧ events.filter (· ≠ .close) = chunks.map .data ++ [.end_] := by
          simpa using hevents
        obtain ⟨seen, ⟨after, rfl, hbody⟩ | ⟨after, rfl, hbody⟩⟩ := ih chunks hrest
        · exact ⟨chunk :: seen, .inl ⟨after, rfl, by rw [List.flatten_cons, List.flatten_cons, hbody]⟩⟩
        · refine ⟨chunk :: seen, .inr ⟨after, rfl, ?_⟩⟩
          rw [List.flatten_cons, List.flatten_cons]
          exact (List.prefix_append_right_inj _).2 hbody
    | end_ =>
      cases chunks with
      | nil => exact ⟨[], .inl ⟨events, rfl, rfl⟩⟩
      | cons first chunks => simp at hevents
    | error =>
      cases chunks with
      | nil => simp at hevents
      | cons first chunks => simp at hevents

/-! ## Runs -/

theorem flush_flushed {t : Tee} {r : StreamCaptureResult} (h : t.flushed = some r) (state : CaptureEndState) :
    (flushCapture P t state).flushed = some r := by
  rw [flushCapture, h, Option.isSome_some, if_pos rfl, h]

theorem handle_flushed {t : Tee} {r : StreamCaptureResult} (h : t.flushed = some r) (e : Event) :
    (handle P t e).flushed = some r := by
  cases e with
  | data chunk => rwa [handle, h, Option.isSome_some, if_pos rfl]
  | end_ => exact flush_flushed (t := { t with readableEnded := true }) h .complete
  | error => exact flush_flushed h .aborted
  | close => exact flush_flushed h _

/-- The first result stays. -/
theorem handleAll_flushed {t : Tee} {r : StreamCaptureResult} (h : t.flushed = some r) (events : List Event) :
    (handleAll P t events).flushed = some r := by
  induction events generalizing t with
  | nil => exact h
  | cons e events ih => exact ih (handle_flushed h e)

theorem handleAll_append (t : Tee) (events events' : List Event) :
    handleAll P t (events ++ events') = handleAll P (handleAll P t events) events' := List.foldl_append

theorem handleAll_cons (t : Tee) (e : Event) (events : List Event) :
    handleAll P t (e :: events) = handleAll P (handle P t e) events := rfl

theorem flush_complete {bytes : Bytes} {t : Tee} (hnone : t.flushed = none) (h : Holds P opts bytes t.capture) :
    (handle P t .end_).flushed = some (outcome P opts bytes .complete) := by
  rw [handle, flushCapture, hnone, Option.isSome_none, if_neg Bool.false_ne_true]
  exact congrArg some (finish_of_holds h .complete)

theorem flush_aborted {bytes : Bytes} {t : Tee} (hnone : t.flushed = none) (hended : t.readableEnded = false)
    (h : Holds P opts bytes t.capture) : (handle P t .close).flushed = some (outcome P opts bytes .aborted) := by
  rw [handle, flushCapture, hnone, hended, Option.isSome_none, if_neg Bool.false_ne_true]
  exact congrArg some (finish_of_holds h .aborted)

/-- After chunks within the limit: what they hold is captured, or was finished as open when it
    came to the limit. -/
structure Seen (P : Platform) (opts : StreamCaptureOptions) (bytes : Bytes) (t : Tee) : Prop where
  waits : bytes.length < opts.limit → t.flushed = none ∧ t.readableEnded = false ∧ Holds P opts bytes t.capture
  spent : bytes.length = opts.limit → t.flushed = some (outcome P opts bytes .open_)

theorem handle_seen {bytes chunk : Bytes} {t : Tee} (hplain : isCompressed P opts = false) (h : Seen P opts bytes t)
    (hle : (bytes ++ chunk).length ≤ opts.limit) : Seen P opts (bytes ++ chunk) (handle P t (.data chunk)) := by
  have hbudget : budget P opts = opts.limit := by simp [budget, hplain]
  rw [List.length_append] at hle
  by_cases hwait : bytes.length < opts.limit
  · obtain ⟨hnone, hended, hholds⟩ := h.waits hwait
    have hpushed := push_holds hholds (.buffer chunk)
    have hfull := full_of_holds hpushed
    rw [hbudget] at hfull
    have hnot : ¬t.flushed.isSome = true := by simp [hnone]
    rw [handle, if_neg hnot]
    constructor
    · intro hshort
      have hopen : ¬full (push t.capture (.buffer chunk)) = true := by
        rw [hfull, decide_eq_true_eq]
        exact Nat.not_le.2 hshort
      rw [if_neg hopen]
      exact ⟨hnone, hended, hpushed⟩
    · intro heq
      have hspent : full (push t.capture (.buffer chunk)) = true := by
        rw [hfull, decide_eq_true_eq]
        exact heq.ge
      rw [if_pos hspent, flushCapture, if_neg hnot]
      exact congrArg some (finish_of_holds hpushed .open_)
  · have hspent := h.spent (by omega)
    have hnil : chunk = [] := List.length_eq_zero_iff.1 (by omega)
    rw [hnil, List.append_nil]
    exact ⟨fun hshort => absurd hshort hwait, fun _ => handle_flushed hspent _⟩

theorem seen_spec (hplain : isCompressed P opts = false) (hpos : 0 < opts.limit) {chunks : List Bytes}
    (hle : chunks.flatten.length ≤ opts.limit) :
    Seen P opts chunks.flatten (handleAll P (openTee P opts) (chunks.map .data)) := by
  induction chunks using List.reverseRecOn with
  | nil => exact ⟨fun _ => ⟨rfl, rfl, create_holds P opts⟩, fun h => absurd h (by simp; omega)⟩
  | append_singleton chunks chunk ih =>
    have hflat : (chunks ++ [chunk]).flatten = chunks.flatten ++ chunk := by simp
    rw [hflat] at hle ⊢
    have hprev := ih (by rw [List.length_append] at hle; omega)
    rw [List.map_append, handleAll, List.foldl_append]
    exact handle_seen hplain hprev hle

/-! ## Texts -/

theorem looksLikeText_part {bytes part : Bytes} (h : looksLikeText bytes = true) (hpart : part <+: bytes) :
    looksLikeText part = true := by
  rw [looksLikeText, List.all_eq_true] at h ⊢
  exact fun b hb => h b ((hpart.take 1024).subset hb)

theorem isBinary_part {bytes part : Bytes} (h : isBinary P opts bytes = false) (hpart : part <+: bytes) :
    isBinary P opts part = false := by
  simp only [isBinary, Bool.or_eq_false_iff, Bool.and_eq_false_iff, Bool.not_eq_false'] at h ⊢
  exact ⟨h.1, h.2.imp_right fun htext => looksLikeText_part htext hpart⟩

theorem textOf_ne_nil {bytes : Bytes} (h : bytes ≠ []) : textOf bytes ≠ [] := by
  obtain ⟨c, cs, hdecode⟩ := List.exists_cons_of_ne_nil (Utf8.decode_ne_nil h)
  rw [textOf, hdecode, List.flatMap_cons]
  rcases units_cases c with ⟨u, hu, -⟩ | ⟨hi, lo, hu, -⟩ <;> simp [hu]

/-- What is taken off the end of a text is not a note. -/
theorem dropped_not_note (text : Units) (shown total : Nat) (compressed : Bool) (state : CaptureEndState) :
    dropReplacements text ++ asUnits (truncationNote shown total compressed state) ≠ text := by
  intro h
  obtain ⟨line, hnote, -⟩ := note_line shown total compressed state
  have hsame : asUnits (truncationNote shown total compressed state) = text.rtakeWhile (· == 0xFFFD) := by
    have hsplit : dropReplacements text ++ text.rtakeWhile (· == 0xFFFD) = text := List.rdropWhile_append_rtakeWhile
    exact List.append_cancel_left (h.trans hsplit.symm)
  have hbreak : 10 ∈ text.rtakeWhile (· == 0xFFFD) := by
    rw [← hsame, hnote]
    exact List.mem_cons_self
  have hrep := List.mem_rtakeWhile_imp hbreak
  simp at hrep

/-- What a plain text within the limit is logged as if it has not come to its end. -/
theorem outcome_cut {bytes : Bytes} {state : CaptureEndState} (hplain : isCompressed P opts = false)
    (htext : isBinary P opts bytes = false) (hne : bytes ≠ []) (hle : bytes.length ≤ opts.limit)
    (hstate : state ≠ .complete) :
    (outcome P opts bytes state).body = dropReplacements (textOf bytes) ++
      asUnits (truncationNote (bytesOf (dropReplacements (textOf bytes))).length bytes.length false state) := by
  have hraw : bytes.take (budget P opts) = bytes := by
    rw [budget, hplain]
    exact List.take_of_length_le hle
  have hdecoded : decode P (bytes.take (budget P opts)) opts.contentEncoding (opts.limit * 4) = some bytes := by
    rw [decode_uncompressed hplain, hraw]
  obtain ⟨cut, hcut, hout⟩ := outcome_text state hne hdecoded htext
  have hshort : ¬opts.limit < (textOf bytes).length := by
    have hunits := length_textOf_le bytes
    omega
  have hshown : shownText opts bytes true = dropReplacements (textOf bytes) := by
    simp only [shownText, if_neg hshort, if_true]
  rw [hcut.2 (.inl hstate), hshown, hplain] at hout
  rw [hout]
  rfl

theorem captureBody_text {body : Bytes} {contentType contentEncoding : Option String} {limit : Nat}
    (htext : isBinary P ⟨contentType, contentEncoding, limit, none⟩ body = false) (hne : body ≠ [])
    (hle : body.length ≤ limit) : captureBody P body contentType none limit = some (textOf body) := by
  have hempty : ¬body.length = 0 := fun h => hne (List.length_eq_zero_iff.1 h)
  have hnone : isCompressed P ⟨contentType, none, limit, some .body⟩ = false := by
    have hname : encodingName P none = "" := by
      rw [encodingName, Option.getD_none, P.toLowerCase_empty]
      rfl
    simp [isCompressed, hname]
  have hholds := push_holds (create_holds P ⟨contentType, none, limit, some .body⟩) (.buffer body)
  have hfinish : finish P (push (create P ⟨contentType, none, limit, some .body⟩) (.buffer body)) .complete =
      ⟨textOf body, false, body.length, false⟩ := by
    rw [finish_of_holds hholds]
    exact outcome_whole hnone htext hle
  rw [captureBody, if_neg hempty]
  dsimp only
  rw [hfinish, if_neg (textOf_ne_nil hne)]

/-! ## Both ways -/

/-- The client leaves first, and the body goes on from what was seen with the very note that is
    then written. -/
def EndsWithNote (body : Bytes) (events : List Event) (limit : Nat) : Prop :=
  ∃ before after, events = before ++ .close :: after ∧ .close ∉ before ∧ .end_ ∉ before ∧
    seen before ≠ [] ∧ (seen before).length < limit ∧
    textOf body = dropReplacements (textOf (seen before)) ++
      asUnits (truncationNote (bytesOf (dropReplacements (textOf (seen before)))).length (seen before).length false .aborted)

theorem seen_data (chunks : List Bytes) : seen (chunks.map .data) = chunks.flatten := by
  rw [seen, List.flatMap_map]
  exact List.flatMap_id

theorem closedLast_of_end (chunks : List Bytes) (after : List Event) :
    ClosedLast (chunks.map .data ++ .end_ :: after) := by
  induction chunks with
  | nil =>
    intro before rest heq
    cases before with
    | nil => simp at heq
    | cons e before =>
      obtain ⟨rfl, -⟩ := List.cons_eq_cons.1 heq
      exact List.mem_cons_self
  | cons chunk chunks ih =>
    intro before rest heq
    cases before with
    | nil => simp at heq
    | cons e before => exact List.mem_cons_of_mem _ (ih before rest (List.cons_eq_cons.1 heq).2)

/-- Nothing but chunks comes before the first close, so it is determined by the events. -/
theorem before_close {chunks : List Bytes} {before after rest : List Event} (hnot : .close ∉ before)
    (heq : chunks.map .data ++ .close :: after = before ++ .close :: rest) : before = chunks.map .data := by
  induction chunks generalizing before with
  | nil =>
    cases before with
    | nil => rfl
    | cons e before =>
      obtain ⟨rfl, -⟩ := List.cons_eq_cons.1 heq
      exact absurd List.mem_cons_self hnot
  | cons chunk chunks ih =>
    cases before with
    | nil => simp at heq
    | cons e before =>
      obtain ⟨rfl, htail⟩ := List.cons_eq_cons.1 heq
      rw [ih (fun hmem => hnot (List.mem_cons_of_mem _ hmem)) htail, List.map_cons]

theorem endsWithNote_close_iff {body : Bytes} {chunks : List Bytes} {after : List Event} {limit : Nat} :
    EndsWithNote body (chunks.map .data ++ .close :: after) limit ↔
      chunks.flatten ≠ [] ∧ chunks.flatten.length < limit ∧
      textOf body = dropReplacements (textOf chunks.flatten) ++
        asUnits (truncationNote (bytesOf (dropReplacements (textOf chunks.flatten))).length chunks.flatten.length false
          .aborted) := by
  have hclose : Event.close ∉ chunks.map .data := by simp
  have hend : Event.end_ ∉ chunks.map .data := by simp
  constructor
  · rintro ⟨before, rest, heq, hnot, -, h⟩
    rwa [before_close hnot heq, seen_data] at h
  · intro h
    refine ⟨chunks.map .data, after, rfl, hclose, hend, ?_⟩
    rwa [seen_data]

theorem not_closedLast_close {chunks : List Bytes} {after : List Event} :
    ¬ClosedLast (chunks.map .data ++ .close :: after) := by
  intro h
  have hmem := h (chunks.map .data) after rfl
  simp at hmem

theorem storedStreamed_eq_iff {t : Tee} {r : StreamCaptureResult} {body : Bytes} {contentType : Option String} {limit : Nat}
    (hflushed : t.flushed = some r) (hbuffered : captureBody P body contentType none limit = some (textOf body)) :
    (∀ sanitizeText, storedStreamed sanitizeText t = storedBuffered P sanitizeText body contentType limit) ↔
      r.body = textOf body := by
  have hstored : ∀ sanitizeText, storedStreamed sanitizeText t = sanitized sanitizeText (some r.body) := fun _ => by
    rw [storedStreamed, hflushed]
  have hother : ∀ sanitizeText, storedBuffered P sanitizeText body contentType limit =
      sanitized sanitizeText (some (textOf body)) := fun _ => by rw [storedBuffered, hbuffered]
  constructor
  · intro h
    have hid := h id
    rw [hstored, hother] at hid
    exact Option.some.inj hid
  · intro h sanitizeText
    rw [hstored, hother, h]

/-- With equal limits, a plain text that is delivered whole and is within the limit is stored
    alike, whatever the chunks and the order of the events, if and only if it is shorter than
    the limit and ends before the client leaves (or ends with the note of the leaving). -/
theorem streamed_as_buffered_iff (P : Platform) (contentType contentEncoding : Option String) (limit : Nat) {body : Bytes}
    {events : List Event} (hne : body ≠ []) (hle : body.length ≤ limit)
    (hplain : isCompressed P ⟨contentType, contentEncoding, limit, none⟩ = false)
    (htext : isBinary P ⟨contentType, contentEncoding, limit, none⟩ body = false) (h : Delivered body events) :
    (∀ sanitizeText,
      storedStreamed sanitizeText (handleAll P (openTee P ⟨contentType, contentEncoding, limit, none⟩) events) =
        storedBuffered P sanitizeText body contentType limit) ↔
      (body.length < limit ∧ ClosedLast events) ∨ EndsWithNote body events limit := by
  have hpos : 0 < limit := (List.length_pos_iff.2 hne).trans_le hle
  have hbuffered := captureBody_text htext hne hle
  have hopen : (outcome P ⟨contentType, contentEncoding, limit, none⟩ body .open_).body ≠ textOf body := by
    rw [outcome_cut hplain htext hne hle (by decide)]
    exact dropped_not_note _ _ _ _ _
  obtain ⟨chunks, ⟨after, rfl, rfl⟩ | ⟨after, rfl, hpart⟩⟩ := delivered_split h
  · have hseen := seen_spec hplain hpos hle
    have hlast := closedLast_of_end chunks after
    have hno : ¬EndsWithNote chunks.flatten (chunks.map .data ++ .end_ :: after) limit := by
      rintro ⟨before, rest, heq, -, hnot, -⟩
      exact hnot (hlast before rest heq)
    by_cases hshort : chunks.flatten.length < limit
    · obtain ⟨hnone, -, hholds⟩ := hseen.waits hshort
      have hflushed := handleAll_flushed (P := P) (flush_complete hnone hholds) after
      rw [← handleAll_cons, ← handleAll_append] at hflushed
      rw [storedStreamed_eq_iff hflushed hbuffered, outcome_whole hplain htext hle]
      exact iff_of_true rfl (.inl ⟨hshort, hlast⟩)
    · have hflushed := handleAll_flushed (P := P) (hseen.spent (show chunks.flatten.length = limit by omega)) (.end_ :: after)
      rw [← handleAll_append] at hflushed
      rw [storedStreamed_eq_iff hflushed hbuffered]
      exact iff_of_false hopen fun hcond => hcond.elim (fun hlt => hshort hlt.1) hno
  · have hseenle : chunks.flatten.length ≤ limit := hpart.length_le.trans hle
    have hseen := seen_spec hplain hpos hseenle
    rw [endsWithNote_close_iff]
    by_cases hshort : chunks.flatten.length < limit
    · obtain ⟨hnone, hended, hholds⟩ := hseen.waits hshort
      have hflushed := handleAll_flushed (P := P) (flush_aborted hnone hended hholds) after
      rw [← handleAll_cons, ← handleAll_append] at hflushed
      rw [storedStreamed_eq_iff hflushed hbuffered]
      by_cases hnil : chunks.flatten = []
      · rw [hnil, outcome_empty]
        exact iff_of_false (textOf_ne_nil hne).symm fun hcond =>
          hcond.elim (fun hlt => not_closedLast_close hlt.2) fun hnote => hnote.1 rfl
      · rw [outcome_cut hplain (isBinary_part htext hpart) hnil hseenle (by decide)]
        constructor
        · intro heq
          exact .inr ⟨hnil, hshort, heq.symm⟩
        · rintro (hlt | hnote)
          · exact absurd hlt.2 not_closedLast_close
          · exact hnote.2.2.symm
    · have hall : chunks.flatten = body := hpart.eq_of_length (by have := hpart.length_le; omega)
      have hflushed := handleAll_flushed (P := P) (hseen.spent (show chunks.flatten.length = limit by omega)) (.close :: after)
      rw [← handleAll_append, hall] at hflushed
      rw [storedStreamed_eq_iff hflushed hbuffered]
      exact iff_of_false hopen fun hcond =>
        hcond.elim (fun hlt => not_closedLast_close hlt.2) fun hnote => hshort hnote.2.1

theorem streamed_as_buffered_abc :
    storedStreamed id (handleAll plainPlatform (openTee plainPlatform (plainText 4))
      [.data [97], .data [98, 99], .end_, .close]) =
      storedBuffered plainPlatform id [97, 98, 99] (some "text/plain") 4 :=
  (streamed_as_buffered_iff plainPlatform (some "text/plain") none 4 (by decide) (by decide) (by decide) (by decide)
    ⟨[[97], [98, 99]], by decide, rfl⟩).2 (.inl ⟨by decide, closedLast_of_end [[97], [98, 99]] [.close]⟩) id

theorem a_full_body_is_logged_as_open :
    Delivered [97, 98, 99] [.data [97], .data [98, 99], .end_, .close] ∧
    ¬∀ sanitizeText,
      storedStreamed sanitizeText (handleAll plainPlatform (openTee plainPlatform (plainText 3))
        [.data [97], .data [98, 99], .end_, .close]) =
        storedBuffered plainPlatform sanitizeText [97, 98, 99] (some "text/plain") 3 := by
  refine ⟨⟨[[97], [98, 99]], by decide, rfl⟩, fun h => ?_⟩
  have hstored := h id
  revert hstored
  decide

end ClusterGate.Capture
