/-
  ClusterGate.Proxy.GatewayHeaders — the headers the gateway itself sends an upstream, and
  what a client's headers can do to them (`services/proxyService.ts`: `proxyRequest`).

  The upstream's credential and the `X-Forwarded-*` and route id headers are set last, and
  the intent is that no header of the client decides what is sent under their names. The
  map tells keys by their casing, and a key keeps its place: a client's header stands
  first under its name, so it can move another value of the name behind it.
  - `named_edits_eq`: the rows of one name under the edits, on their own.
  - `related_edits`: a row in front of all others of its name stays there or goes.
  - `gateway_headers_held_iff`: the values are held exactly if of no name the last
    configured spelling is the one in lower case, after another with another value.
  - `a_client_moves_the_credential`: a configured `X-N8N-Key` beside the credential's
    `x-n8n-key`.
-/

import ClusterGate.Proxy.UpstreamHeaders

namespace ClusterGate

open Lib Lib.Text

abbrev HeaderRows := List (String × Json)

/-! ## The rows of a name under an edit -/

/-- A row of the key is rewritten, or one is added. -/
def setRow (k : String) (v : Json) (rows : HeaderRows) : HeaderRows :=
  if k ∈ rows.map Prod.fst then rows.map fun r => (r.1, if r.1 = k then v else r.2) else rows ++ [(k, v)]

/-- What an edit of the name does to its rows. -/
def HeaderEdit.onRows (rows : HeaderRows) : HeaderEdit → HeaderRows
  | .set k v => setRow k v rows
  | .remove k => rows.filter fun r => r.1 ≠ k && r.1 ≠ toLowerAscii k

theorem onRows_remove (k : String) (rows : HeaderRows) :
    (HeaderEdit.remove k).onRows rows = rows.filter fun r => r.1 ≠ k && r.1 ≠ toLowerAscii k := rfl

def editRows (name : String) (edits : List HeaderEdit) (rows : HeaderRows) : HeaderRows :=
  (edits.filter (HeaderEdit.names name)).foldl HeaderEdit.onRows rows

theorem named_set {name k : String} (h : isNamed name k = true) (t : ForwardHeaders) (v : Json) :
    named name (t.upsert k v) = setRow k v (named name t) := by
  have hmem : k ∈ (named name t).map Prod.fst ↔ ∃ old, t.get? k = some old := by
    rw [List.mem_map]
    constructor
    · intro hk
      obtain ⟨⟨k', old⟩, hrow, rfl⟩ := hk
      exact ⟨old, Table.mem_rows_iff.1 (List.mem_of_mem_filter hrow)⟩
    · intro hk
      obtain ⟨old, hold⟩ := hk
      exact ⟨(k, old), List.mem_filter.2 ⟨Table.mem_rows_iff.2 hold, h⟩, rfl⟩
  unfold setRow
  cases hg : t.get? k with
  | none =>
    rw [if_neg (by rw [hmem, hg]; simp)]
    have hfree : k ∉ t.rows.map Prod.fst := by
      intro hk
      obtain ⟨⟨k', a⟩, hr, rfl⟩ := List.mem_map.1 hk
      exact Table.get?_eq_none.1 hg a hr
    unfold named Table.upsert
    rw [hg]
    unfold Table.insert
    rw [dif_neg hfree]
    simp [h]
  | some old =>
    rw [if_pos (hmem.2 ⟨old, hg⟩), named, Table.upsert_of_some hg, Table.rows_modify, List.filter_map]
    rfl

theorem named_apply {name : String} {e : HeaderEdit} (h : e.names name = true) (t : ForwardHeaders) :
    named name (e.apply t) = e.onRows (named name t) := by
  cases e with
  | set k v => exact named_set h t v
  | remove k =>
    show (((t.rows.filter _).filter _).filter _) = ((t.rows.filter _).filter _)
    rw [List.filter_filter, List.filter_filter, List.filter_filter]
    refine List.filter_congr fun r _ => ?_
    rw [Bool.and_assoc, Bool.and_comm]

/-- The rows of a name depend on nothing else. -/
theorem named_edits_eq (name : String) (edits : List HeaderEdit) (t : ForwardHeaders) :
    named name (applyEdits t edits) = editRows name edits (named name t) := by
  induction edits generalizing t with
  | nil => rfl
  | cons e edits ih =>
    show named name (applyEdits (e.apply t) edits) = _
    rw [ih]
    unfold editRows
    cases he : e.names name with
    | true => rw [List.filter_cons_of_pos he, List.foldl_cons, named_apply he]
    | false => rw [List.filter_cons_of_neg (by rw [he]; decide), named_apply_other he]

/-! ## A row in front -/

/-- The second rows are the first with one of the key in front; a row of the key that the
    first have has the same value. -/
def Ahead (name : String) (v : Json) (rows rows' : HeaderRows) : Prop :=
  rows' = (name, v) :: rows.filter (fun r => r.1 ≠ name) ∧ ∀ r ∈ rows, r.1 = name → r.2 = v

def RelatedRows (name : String) (rows rows' : HeaderRows) : Prop := rows = rows' ∨ ∃ v, Ahead name v rows rows'

section Ahead

variable {name : String}

theorem ahead_set {v : Json} {rows rows' : HeaderRows} (h : Ahead name v rows rows') (k : String) (w : Json) :
    ∃ u, Ahead name u (setRow k w rows) (setRow k w rows') := by
  obtain ⟨rfl, hsame⟩ := h
  by_cases hk : k = name
  · subst hk
    have hrest : (rows.filter fun r => r.1 ≠ k).map (fun r => (r.1, if r.1 = k then w else r.2)) =
        rows.filter fun r => r.1 ≠ k := by
      refine (List.map_congr_left fun r hr => ?_).trans (List.map_id _)
      have hne : r.1 ≠ k := by simpa using List.of_mem_filter hr
      rw [if_neg hne]
      rfl
    have hfront : setRow k w ((k, v) :: rows.filter fun r => r.1 ≠ k) = (k, w) :: rows.filter fun r => r.1 ≠ k := by
      rw [setRow, if_pos (by simp), List.map_cons, hrest]
      simp
    refine ⟨w, ?_, ?_⟩
    · rw [hfront]
      unfold setRow
      split
      · rw [List.filter_map]
        congr 1
        exact (hrest.symm.trans (List.map_congr_left fun r _ => rfl))
      · rw [List.filter_append]
        simp
    · intro r hr hrk
      unfold setRow at hr
      split at hr
      · obtain ⟨a, -, rfl⟩ := List.mem_map.1 hr
        exact if_pos hrk
      · rename_i hno
        rcases List.mem_append.1 hr with hr | hr
        · exact absurd (List.mem_map.2 ⟨r, hr, hrk⟩) hno
        · rw [List.mem_singleton.1 hr]
  · have hmem : k ∈ ((name, v) :: rows.filter fun r => r.1 ≠ name).map Prod.fst ↔ k ∈ rows.map Prod.fst := by
      simp only [List.map_cons, List.mem_cons, hk, false_or, List.mem_map, List.mem_filter]
      constructor
      · intro hr
        obtain ⟨r, ⟨hr, -⟩, hrk⟩ := hr
        exact ⟨r, hr, hrk⟩
      · intro hr
        obtain ⟨r, hr, hrk⟩ := hr
        exact ⟨r, ⟨hr, by simpa [hrk] using hk⟩, hrk⟩
    refine ⟨v, ?_, ?_⟩
    · unfold setRow
      by_cases hin : k ∈ rows.map Prod.fst
      · rw [if_pos (hmem.2 hin), if_pos hin, List.map_cons, if_neg (Ne.symm hk), List.filter_map]
        rfl
      · rw [if_neg (fun h => hin (hmem.1 h)), if_neg hin, List.filter_append, List.cons_append]
        simp [hk]
    · intro r hr hrn
      unfold setRow at hr
      split at hr
      · obtain ⟨a, ha, rfl⟩ := List.mem_map.1 hr
        have hne : a.1 ≠ k := fun hak => hk (hak.symm.trans hrn)
        dsimp only
        rw [if_neg hne]
        exact hsame a ha hrn
      · rcases List.mem_append.1 hr with hr | hr
        · exact hsame r hr hrn
        · rw [List.mem_singleton.1 hr] at hrn
          exact absurd hrn hk

/-- Removing the name takes the row in front away. -/
theorem ahead_remove {v : Json} {rows rows' : HeaderRows} (h : Ahead name v rows rows') {k : String}
    (hk : toLowerAscii k = name) : (HeaderEdit.remove k).onRows rows = (HeaderEdit.remove k).onRows rows' := by
  obtain ⟨rfl, -⟩ := h
  rw [onRows_remove, onRows_remove, hk, List.filter_cons_of_neg (by simp), List.filter_filter]
  refine List.filter_congr fun r _ => ?_
  rw [Bool.and_assoc, Bool.and_self]

theorem related_edits {edits : List HeaderEdit} {rows rows' : HeaderRows} (h : RelatedRows name rows rows') :
    RelatedRows name (editRows name edits rows) (editRows name edits rows') := by
  unfold editRows
  have hall : ∀ e ∈ edits.filter (HeaderEdit.names name), isNamed name e.key = true :=
    fun e he => (List.mem_filter.1 he).2
  generalize edits.filter (HeaderEdit.names name) = es at hall
  induction es generalizing rows rows' with
  | nil => exact h
  | cons e es ih =>
    refine ih ?_ fun e' he' => hall e' (List.mem_cons_of_mem _ he')
    rcases h with rfl | ⟨v, h⟩
    · exact .inl rfl
    · cases e with
      | set k w => exact .inr (ahead_set h k w)
      | remove k =>
        have hk : isNamed name k = true := hall (.remove k) List.mem_cons_self
        exact .inl (ahead_remove h (by simpa [isNamed] using hk))

/-- Where the name is not removed, it stays in front. -/
theorem ahead_edits {edits : List HeaderEdit} (hkept : ∀ k, HeaderEdit.remove k ∈ edits → isNamed name k = false)
    {v : Json} {rows rows' : HeaderRows} (h : Ahead name v rows rows') :
    ∃ u, Ahead name u (editRows name edits rows) (editRows name edits rows') := by
  unfold editRows
  have hset : ∀ e ∈ edits.filter (HeaderEdit.names name), ∃ k w, e = .set k w := by
    intro e he
    obtain ⟨hmem, hnames⟩ := List.mem_filter.1 he
    cases e with
    | set k w => exact ⟨k, w, rfl⟩
    | remove k =>
      have hno := hkept k hmem
      rw [show isNamed name k = true from hnames] at hno
      cases hno
  generalize edits.filter (HeaderEdit.names name) = es at hset
  induction es generalizing v rows rows' with
  | nil => exact ⟨v, h⟩
  | cons e es ih =>
    obtain ⟨k, w, rfl⟩ := hset e List.mem_cons_self
    obtain ⟨u, hu⟩ := ahead_set h k w
    exact ih hu fun e' he' => hset e' (List.mem_cons_of_mem _ he')

end Ahead

/-! ## What is sent of the rows -/

def sentRows (display : Json → String) (rows : HeaderRows) : List String :=
  ((rows.getLast?).map fun r => sentTexts display r.2).getD []

theorem sentUnder_rows (display : Json → String) (urlAuth : Option String) (t : ForwardHeaders) (name : String) :
    sentUnder display urlAuth t name =
      match urlAuth with
      | some credential => if name = "authorization" then ["Basic " ++ credential] else sentRows display (named name t)
      | none => sentRows display (named name t) := rfl

/-- The spelling in lower case is not the last, after another with another value. -/
def Steady (display : Json → String) (name : String) (rows : HeaderRows) : Prop :=
  ∀ front last r, rows = front ++ [last] → last.1 = name → front.getLast? = some r →
    sentTexts display r.2 = sentTexts display last.2

theorem ahead_sent {display : Json → String} {name : String} {v : Json} {rows rows' : HeaderRows}
    (h : Ahead name v rows rows') (hne : rows ≠ []) (hnodup : (rows.map Prod.fst).Nodup) :
    sentRows display rows = sentRows display rows' ↔ Steady display name rows := by
  obtain ⟨rfl, hsame⟩ := h
  obtain ⟨front, last, rfl⟩ : ∃ front last, rows = front ++ [last] := ⟨_, _, (List.dropLast_append_getLast hne).symm⟩
  have hlast : sentRows display (front ++ [last]) = sentTexts display last.2 := by
    rw [sentRows, List.getLast?_append, List.getLast?_singleton]
    rfl
  rw [hlast, List.filter_append]
  by_cases hname : last.1 = name
  · -- The name is in no other row.
    have hfront : front.filter (fun r => r.1 ≠ name) = front := by
      rw [List.filter_eq_self]
      intro r hr
      rw [List.map_append, List.nodup_append] at hnodup
      have hdisjoint := hnodup.2.2 r.1 (List.mem_map.2 ⟨r, hr, rfl⟩) last.1 (by simp)
      simpa [hname] using hdisjoint
    have hv : v = last.2 := (hsame last (by simp) hname).symm
    rw [hfront, List.filter_cons_of_neg (by simpa using hname), List.filter_nil, List.append_nil]
    constructor
    · intro h front' last' r hrows _ hr
      obtain ⟨rfl, hl⟩ := List.append_inj' hrows rfl
      obtain rfl := (List.cons.inj hl).1
      rw [h, sentRows, List.getLast?_cons, hr]
      rfl
    · intro h
      cases hr : front.getLast? with
      | none =>
        rw [List.getLast?_eq_none_iff.1 hr, hv]
        rfl
      | some r =>
        rw [sentRows, List.getLast?_cons, hr, ← h front last r rfl hname hr]
        rfl
  · rw [List.filter_cons_of_pos (by simpa using hname), List.filter_nil, ← List.cons_append]
    have hkept : sentRows display (((name, v) :: front.filter fun r => r.1 ≠ name) ++ [last]) = sentTexts display last.2 := by
      rw [sentRows, List.getLast?_append, List.getLast?_singleton]
      rfl
    rw [hkept]
    refine iff_of_true rfl ?_
    intro front' last' r hrows hlast' _
    obtain ⟨-, hl⟩ := List.append_inj' hrows rfl
    exact absurd ((List.cons.inj hl).1 ▸ hlast') hname

theorem setRow_ne_nil (k : String) (v : Json) (rows : HeaderRows) : setRow k v rows ≠ [] := by
  unfold setRow
  split
  · rename_i hin
    intro hnil
    rw [List.map_eq_nil_iff.1 hnil] at hin
    cases hin
  · simp

theorem editRows_append (name : String) (es es' : List HeaderEdit) (rows : HeaderRows) :
    editRows name (es ++ es') rows = editRows name es' (editRows name es rows) := by
  unfold editRows
  rw [List.filter_append, List.foldl_append]

theorem editRows_other {name : String} {edits : List HeaderEdit} (h : ∀ e ∈ edits, e.names name = false) (rows : HeaderRows) :
    editRows name edits rows = rows := by
  have hnone : edits.filter (HeaderEdit.names name) = [] := by
    rw [List.filter_eq_nil_iff]
    exact fun e he => by rw [h e he]; decide
  rw [editRows, hnone, List.foldl_nil]

/-- After a set of the name, sets leave a row of it. -/
theorem editRows_sets {name : String} {edits : List HeaderEdit} (hsets : ∀ e ∈ edits, ∃ k v, e = .set k v) {rows : HeaderRows}
    (h : rows ≠ [] ∨ edits.any (HeaderEdit.names name) = true) : editRows name edits rows ≠ [] := by
  induction edits generalizing rows with
  | nil => exact h.resolve_right (by simp)
  | cons e edits ih =>
    obtain ⟨k, v, rfl⟩ := hsets e List.mem_cons_self
    have hrest : ∀ e ∈ edits, ∃ k v, e = .set k v := fun e he => hsets e (List.mem_cons_of_mem _ he)
    cases hnames : (HeaderEdit.set k v).names name with
    | true =>
      rw [editRows, List.filter_cons_of_pos hnames, List.foldl_cons]
      exact ih hrest (.inl (setRow_ne_nil k v rows))
    | false =>
      rw [editRows, List.filter_cons_of_neg (by rw [hnames]; decide)]
      rw [List.any_cons, hnames, Bool.false_or] at h
      exact ih hrest h

/-- Where the name is removed, nothing stays in front. -/
theorem removed_edits {name : String} {edits : List HeaderEdit} {k : String} (hmem : HeaderEdit.remove k ∈ edits)
    (hk : isNamed name k = true) {rows rows' : HeaderRows} (h : RelatedRows name rows rows') :
    editRows name edits rows = editRows name edits rows' := by
  obtain ⟨before, after, rfl⟩ := List.append_of_mem hmem
  rw [editRows_append, editRows_append]
  have hbefore : RelatedRows name (editRows name before rows) (editRows name before rows') := related_edits h
  generalize editRows name before rows = xs at hbefore ⊢
  generalize editRows name before rows' = xs' at hbefore ⊢
  rcases hbefore with rfl | ⟨v, hahead⟩
  · rfl
  · rw [editRows, editRows, List.filter_cons_of_pos (show (HeaderEdit.remove k).names name = true from hk), List.foldl_cons,
      List.foldl_cons, ahead_remove hahead (of_decide_eq_true hk)]

/-! ## Requests that differ in their headers -/

/-- The request with another value of a header, or without it. -/
def ReceivedRequest.withHeader (req : ReceivedRequest) (name : String) (hname : toLowerAscii name = name)
    (value : Option String) : ReceivedRequest := { req with
  header := fun n => if n = name then value else req.header n
  headers := match value with
    | some v => req.headers.upsert name (.str v)
    | none => req.headers.erase name
  lowered := by
    intro key v h
    by_cases hkey : key = name
    · rw [hkey, hname]
    · cases value with
      | none =>
        dsimp only at h
        rw [Table.get?_erase, if_neg hkey] at h
        exact req.lowered key v h
      | some w =>
        dsimp only at h
        rw [Table.get?_upsert, if_neg hkey] at h
        exact req.lowered key v h
  header_eq := by
    intro n
    cases value with
    | none =>
      dsimp only
      rw [Table.get?_erase, req.header_eq]
      split <;> rfl
    | some w =>
      dsimp only
      rw [Table.get?_upsert, req.header_eq]
      split <;> rfl }

/-- The same request, but for headers that decide nothing. -/
structure Varies (decides : String → Prop) (base req : ReceivedRequest) : Prop where
  headers : ∀ name, decides name → req.headers.get? name = base.headers.get? name
  incoming : { base.toIncoming with header := req.header } = req.toIncoming
  query : req.query = base.query
  protocol : req.protocol = base.protocol
  hostname : req.hostname = base.hostname

theorem withHeader_varies {decides : String → Prop} (base : ReceivedRequest) {name : String} (hname : toLowerAscii name = name)
    (hfree : ¬decides name) (value : Option String) : Varies decides base (base.withHeader name hname value) where
  headers n hn := by
    have hne : n ≠ name := fun heq => hfree (heq ▸ hn)
    cases value with
    | none =>
      show (base.headers.erase name).get? n = _
      rw [Table.get?_erase, if_neg hne]
    | some v =>
      show (base.headers.upsert name (.str v)).get? n = _
      rw [Table.get?_upsert, if_neg hne]
  incoming := rfl
  query := rfl
  protocol := rfl
  hostname := rfl

section Start

variable {consumedAuthHeader : Option String} {name : String} (hlower : toLowerAscii name = name)

/-- The client's rows of a name, without the gateway's own cookies. -/
def clientRows (consumedAuthHeader : Option String) (req : ReceivedRequest) (name : String) : HeaderRows :=
  editRows name (cookieEdits (clientHeaders consumedAuthHeader req)) (named name (clientHeaders consumedAuthHeader req))

/-- At most one row, under the name itself. -/
theorem named_client_get (req : ReceivedRequest) :
    named name (clientHeaders consumedAuthHeader req) =
      ((clientHeaders consumedAuthHeader req).get? name).toList.map fun v => (name, v) := by
  rw [← Table.rows_filter_key, named]
  refine List.filter_congr fun r hr => ?_
  have hkey := req.lowered r.1 r.2 (Table.mem_rows_iff.1 (List.mem_of_mem_filter hr))
  rw [isNamed, hkey]

theorem clientHeaders_get (req : ReceivedRequest) (name : String) :
    (clientHeaders consumedAuthHeader req).get? name = (req.headers.get? name).filter fun v =>
      !(HOP_BY_HOP_HEADERS.contains (toLowerAscii name)) && some (toLowerAscii name) ≠ consumedAuthHeader && v.isStr := by
  rw [clientHeaders, Table.get?_filter]

theorem cookieEdits_cases (t : ForwardHeaders) :
    cookieEdits t = [] ∨ (∃ v, cookieEdits t = [.set "cookie" v]) ∨ cookieEdits t = [.remove "cookie"] := by
  unfold cookieEdits
  split
  · exact .inl rfl
  · split
    · exact .inr (.inl ⟨_, rfl⟩)
    · exact .inr (.inr rfl)

theorem cookieEdits_other (t : ForwardHeaders) (h : name ≠ "cookie") : ∀ e ∈ cookieEdits t, e.names name = false := by
  have hcookie : isNamed name "cookie" = false := by
    have hlow : toLowerAscii "cookie" = "cookie" := by decide
    rw [isNamed, hlow, decide_eq_false_iff_not]
    exact Ne.symm h
  intro e he
  rcases cookieEdits_cases t with hnone | ⟨v, hset⟩ | hremove
  · rw [hnone] at he
    cases he
  · rw [hset] at he
    rw [List.mem_singleton.1 he]
    exact hcookie
  · rw [hremove] at he
    rw [List.mem_singleton.1 he]
    exact hcookie

/-- What the cookie edit leaves of the one row there may be. -/
theorem editRows_cookie {e : HeaderEdit} (he : e.key = "cookie") (rows : HeaderRows) :
    editRows "cookie" [e] rows = e.onRows rows := by
  have hnames : e.names "cookie" = true := by
    rw [HeaderEdit.names, he]
    decide
  rw [editRows, List.filter_cons_of_pos hnames]
  rfl

include hlower in
/-- The row in front of all that the gateway adds, if there is one. -/
theorem clientRows_related (req : ReceivedRequest) : RelatedRows name [] (clientRows consumedAuthHeader req name) := by
  have hone : ∀ v : Json, RelatedRows name [] [(name, v)] := fun v => .inr ⟨v, rfl, by simp⟩
  unfold clientRows
  rw [named_client_get]
  by_cases hcookie : name = "cookie"
  · subst hcookie
    rcases cookieEdits_cases (clientHeaders consumedAuthHeader req) with hnone | ⟨w, hset⟩ | hremove
    · rw [hnone]
      cases (clientHeaders consumedAuthHeader req).get? "cookie" with
      | none => exact .inl rfl
      | some v => exact hone v
    · rw [hset, editRows_cookie rfl]
      cases (clientHeaders consumedAuthHeader req).get? "cookie" with
      | none => exact hone w
      | some v => exact hone w
    · rw [hremove, editRows_cookie rfl]
      cases (clientHeaders consumedAuthHeader req).get? "cookie" with
      | none => exact .inl rfl
      | some v =>
        left
        rw [onRows_remove]
        simp
  · rw [editRows_other (cookieEdits_other _ hcookie)]
    cases (clientHeaders consumedAuthHeader req).get? name with
    | none => exact .inl rfl
    | some v => exact hone v

include hlower in
/-- A header that is not forwarded has no row. -/
theorem clientRows_nil (h : name ∈ HOP_BY_HOP_HEADERS ∨ some name = consumedAuthHeader) (req : ReceivedRequest) :
    clientRows consumedAuthHeader req name = [] := by
  have hnone : (clientHeaders consumedAuthHeader req).get? name = none := by
    rw [clientHeaders_get, hlower]
    cases req.headers.get? name with
    | none => rfl
    | some v =>
      refine Option.filter_some_neg ?_
      rcases h with h | h
      · simp [h]
      · simp [h]
  have hrows : named name (clientHeaders consumedAuthHeader req) = [] := by
    rw [named_client_get, hnone]
    rfl
  unfold clientRows
  rw [hrows]
  by_cases hcookie : name = "cookie"
  · rw [hcookie] at hnone
    rw [cookieEdits, hnone]
    rfl
  · exact editRows_other (cookieEdits_other _ hcookie) []

include hlower in
/-- The same header, the same rows. -/
theorem clientRows_congr {req req' : ReceivedRequest} (h : req.headers.get? name = req'.headers.get? name) :
    clientRows consumedAuthHeader req name = clientRows consumedAuthHeader req' name := by
  have hget : (clientHeaders consumedAuthHeader req).get? name = (clientHeaders consumedAuthHeader req').get? name := by
    rw [clientHeaders_get, clientHeaders_get, h]
  unfold clientRows
  rw [named_client_get, named_client_get, hget]
  by_cases hcookie : name = "cookie"
  · subst hcookie
    rw [cookieEdits, cookieEdits, hget]
  · rw [editRows_other (cookieEdits_other _ hcookie), editRows_other (cookieEdits_other _ hcookie)]

/-- What is forwarded of a header of one character. -/
theorem clientRows_sent {hlower : toLowerAscii name = name} (hhop : name ∉ HOP_BY_HOP_HEADERS)
    (hconsumed : some name ≠ consumedAuthHeader) (base : ReceivedRequest) :
    clientRows consumedAuthHeader (base.withHeader name hlower (some "x")) name = [(name, .str "x")] := by
  have hget : (clientHeaders consumedAuthHeader (base.withHeader name hlower (some "x"))).get? name = some (.str "x") := by
    rw [clientHeaders_get, hlower]
    show ((base.headers.upsert name (.str "x")).get? name).filter _ = _
    rw [Table.get?_upsert, if_pos rfl]
    refine Option.filter_some_pos ?_
    simp [hhop, hconsumed, Json.isStr]
  unfold clientRows
  rw [named_client_get, hget]
  by_cases hcookie : name = "cookie"
  · subst hcookie
    have hkept : stripClusterGateCookies "x" = some "x" := by decide +kernel
    rw [cookieEdits, hget, Option.bind_some, Json.str?]
    dsimp only
    rw [hkept]
    dsimp only
    rw [editRows_cookie rfl]
    rfl
  · exact editRows_other (cookieEdits_other _ hcookie) _

theorem clientRows_unsent {hlower : toLowerAscii name = name} (base : ReceivedRequest) :
    clientRows consumedAuthHeader (base.withHeader name hlower none) name = [] := by
  have hget : (clientHeaders consumedAuthHeader (base.withHeader name hlower none)).get? name = none := by
    rw [clientHeaders_get]
    show ((base.headers.erase name).get? name).filter _ = _
    rw [Table.get?_erase, if_pos rfl]
    rfl
  unfold clientRows
  rw [named_client_get, hget]
  by_cases hcookie : name = "cookie"
  · subst hcookie
    rw [cookieEdits, hget]
    rfl
  · exact editRows_other (cookieEdits_other _ hcookie) _

end Start

/-! ## The gateway's headers -/

/-- The edits after those of the client's headers. -/
def gatewayEdits (W : World) (routeId requestId : String) (route : Row) (req : ReceivedRequest) : List HeaderEdit :=
  addHeaderEdits route ++ removeHeaderEdits route ++ (upstreamEdits W route ++ identityEdits routeId requestId req)

/-- The names of the credential's header and of the proxy's own. -/
def gatewayHeaders (W : World) (route : Row) : List String :=
  (upstreamCredential W route).toList.map (fun p => toLowerAscii p.1) ++
    ["x-clustergate-route-id", "x-forwarded-for", "x-forwarded-proto", "x-forwarded-host"]

/-- No rule on the request sets or removes a header. -/
def NoHeaderRules (rules : List TransformRule) : Prop :=
  ∀ rule ∈ requestRules rules, rule.type ≠ "SET_HEADER" ∧ rule.type ≠ "REMOVE_HEADER"

/-- The rows of a name that a request without headers is forwarded with. -/
def configuredRows (W : World) (routeId requestId : String) (route : Row) (base : ReceivedRequest) (name : String) : HeaderRows :=
  editRows name (gatewayEdits W routeId requestId route base) []

/-- The length of a streamed body is written before another spelling, or not at all. -/
def LengthBehind (rows : HeaderRows) : Prop :=
  ∃ front last, rows = front ++ [last] ∧ last.1 ≠ "Content-Length" ∧ "Content-Length" ∈ front.map Prod.fst

section Gateway

variable {W : World} {display : Json → String} {routeId requestId : String} {route : Row} {rules : List TransformRule}
  {consumedAuthHeader : Option String} {streamed : Bool} {req base : ReceivedRequest} {t : ForwardHeaders}
  {decides : String → Prop} {name : String}

theorem gatewayEdits_varies (h : Varies decides base req) :
    gatewayEdits W routeId requestId route req = gatewayEdits W routeId requestId route base := by
  have hip : req.ip = base.ip := (congrArg Incoming.ip h.incoming).symm
  rw [gatewayEdits, gatewayEdits, identityEdits, identityEdits, hip, h.protocol, h.hostname]

theorem rules_keep_headers (hrules : NoHeaderRules rules) {st st' : TransformState}
    (h : applyRequestTransforms display rules st = some st') : st'.headers = st.headers := by
  obtain ⟨edits, hheaders, hfrom, -⟩ := rules_edits h
  have hnone : edits = [] := by
    rw [List.eq_nil_iff_forall_not_mem]
    intro e he
    obtain ⟨rule, hrule, es, hes, hmem⟩ := hfrom e he
    obtain ⟨hset, hremove⟩ := hrules rule hrule
    unfold TransformRule.edit at hes
    split at hes
    · exact hset (by assumption)
    · exact hremove (by assumption)
    · exact hremove (by assumption)
    · rw [← Option.some.inj hes] at hmem
      cases hmem
  rw [hheaders, hnone]
  rfl

/-- The rows of a name that are sent. -/
theorem named_build (hrules : NoHeaderRules rules) (h : Varies decides base req)
    (hbuild : buildHeaders W display routeId requestId route rules consumedAuthHeader streamed req = some t) (name : String) :
    named name t = editRows name (lengthEdits streamed req)
      (editRows name (gatewayEdits W routeId requestId route base) (clientRows consumedAuthHeader req name)) := by
  obtain ⟨st, hst, rfl⟩ := Option.map_eq_some_iff.1 hbuild
  rw [rules_keep_headers hrules hst, named_edits_eq, ← gatewayEdits_varies h]
  unfold ruleStart editedHeaders clientRows gatewayEdits
  dsimp only
  rw [named_edits_eq, named_edits_eq, List.append_assoc (addHeaderEdits route ++ removeHeaderEdits route)]

/-- The gateway's edits leave a row of each of its headers. -/
theorem gatewayRows_ne_nil (hname : name ∈ gatewayHeaders W route) (rows : HeaderRows) :
    editRows name (gatewayEdits W routeId requestId route base) rows ≠ [] := by
  unfold gatewayEdits
  rw [editRows_append]
  refine editRows_sets ?_ (.inr ?_)
  · intro e he
    rcases List.mem_append.1 he with he | he
    · obtain ⟨p, -, rfl⟩ := List.mem_map.1 he
      exact ⟨_, _, rfl⟩
    · simp only [identityEdits, List.mem_cons, List.not_mem_nil, or_false] at he
      rcases he with rfl | rfl | rfl | rfl | rfl <;> exact ⟨_, _, rfl⟩
  · rw [List.any_append, Bool.or_eq_true]
    rcases List.mem_append.1 hname with hname | hname
    · left
      obtain ⟨p, hp, rfl⟩ := List.mem_map.1 hname
      rw [List.any_eq_true]
      exact ⟨.set p.1 (.str p.2), List.mem_map.2 ⟨p, hp, rfl⟩, by simp [HeaderEdit.names, HeaderEdit.key, isNamed]⟩
    · right
      have hall : ∀ name ∈ ["x-clustergate-route-id", "x-forwarded-for", "x-forwarded-proto", "x-forwarded-host"],
          ∃ key ∈ ["X-Forwarded-For", "X-Forwarded-Proto", "X-Forwarded-Host", "X-ClusterGate-Route-ID"],
            isNamed name key = true := by decide
      obtain ⟨key, hkey, hnamed⟩ := hall name hname
      simp only [identityEdits, List.any_cons, HeaderEdit.names, HeaderEdit.key]
      simp only [List.mem_cons, List.not_mem_nil, or_false] at hkey
      rcases hkey with rfl | rfl | rfl | rfl <;> simp [hnamed]

theorem gatewayHeaders_lower (hname : name ∈ gatewayHeaders W route) : toLowerAscii name = name := by
  rcases List.mem_append.1 hname with hname | hname
  · obtain ⟨p, -, rfl⟩ := List.mem_map.1 hname
    exact toLowerAscii_toLowerAscii _
  · have hall : ∀ name ∈ ["x-clustergate-route-id", "x-forwarded-for", "x-forwarded-proto", "x-forwarded-host"],
        toLowerAscii name = name := by decide
    exact hall name hname

theorem lengthEdits_other (hname : name ≠ "content-length") (rows : HeaderRows) :
    editRows name (lengthEdits streamed req) rows = rows := by
  refine editRows_other ?_ rows
  intro e he
  have hkey : e.key = "Content-Length" := by
    unfold lengthEdits at he
    split at he
    · obtain ⟨v, -, rfl⟩ := List.mem_map.1 he
      rfl
    · cases he
  have hlow : toLowerAscii "Content-Length" = "content-length" := by decide
  rw [HeaderEdit.names, hkey, isNamed, hlow, decide_eq_false_iff_not]
  exact Ne.symm hname

theorem configuredRows_nodup : ((configuredRows W routeId requestId route base name).map Prod.fst).Nodup := by
  have hrows : configuredRows W routeId requestId route base name =
      named name (applyEdits Table.empty (gatewayEdits W routeId requestId route base)) := by
    rw [named_edits_eq]
    rfl
  rw [hrows]
  exact (Table.nodup _).sublist (List.filter_sublist.map _)

/-- A length written before another spelling is not sent. -/
theorem sentRows_length {rows : HeaderRows} (h : LengthBehind rows) :
    sentRows display (editRows "content-length" (lengthEdits streamed req) rows) = sentRows display rows := by
  obtain ⟨front, last, rfl, hlast, hmem⟩ := h
  unfold lengthEdits
  split
  · cases (req.header "content-length").filter (· ≠ "") with
    | none => rfl
    | some cl =>
      have hset : editRows "content-length" ((some cl).toList.map fun cl => .set "Content-Length" (.str cl))
          (front ++ [last]) = setRow "Content-Length" (.str cl) (front ++ [last]) := by
        have hnames : (HeaderEdit.set "Content-Length" (.str cl)).names "content-length" = true := by
          show isNamed "content-length" "Content-Length" = true
          decide
        rw [Option.toList_some, List.map_singleton, editRows, List.filter_cons_of_pos hnames]
        rfl
      rw [hset, setRow, if_pos (by rw [List.map_append]; exact List.mem_append_left _ hmem), List.map_append, sentRows,
        sentRows, List.getLast?_append, List.getLast?_append, List.map_singleton, List.getLast?_singleton,
        List.getLast?_singleton, if_neg hlast]
      rfl
  · rfl

/-- Otherwise it is. -/
theorem sentRows_length_sent {rows : HeaderRows} (h : ¬LengthBehind rows) (cl : String) :
    sentRows display (setRow "Content-Length" (.str cl) rows) = [cl] := by
  unfold setRow
  split
  · rename_i hmem
    have hne : rows ≠ [] := by
      intro hnil
      rw [hnil] at hmem
      cases hmem
    obtain ⟨front, last, rfl⟩ : ∃ front last, rows = front ++ [last] := ⟨_, _, (List.dropLast_append_getLast hne).symm⟩
    have hlast : last.1 = "Content-Length" := by
      by_contra hother
      rw [List.map_append, List.mem_append, List.map_singleton, List.mem_singleton] at hmem
      exact h ⟨front, last, rfl, hother, hmem.resolve_right (Ne.symm hother)⟩
    rw [List.map_append, sentRows, List.getLast?_append, List.map_singleton, List.getLast?_singleton, if_pos hlast]
    rfl
  · rw [sentRows, List.getLast?_append, List.getLast?_singleton]
    rfl

theorem builds_without_rules (W : World) (display : Json → String) (routeId requestId : String) (route : Row)
    (consumedAuthHeader : Option String) (streamed : Bool) (req : ReceivedRequest) :
    buildHeaders W display routeId requestId route [] consumedAuthHeader streamed req =
      some (applyEdits (editedHeaders W routeId requestId route consumedAuthHeader req) (lengthEdits streamed req)) := by
  have hrules : requestRules [] = [] := by simp [requestRules]
  rw [buildHeaders, applyRequestTransforms, hrules]
  rfl

theorem noHeaderRules_nil : NoHeaderRules [] := by simp [NoHeaderRules, requestRules]

end Gateway

/-! ## Whether a client decides what is sent -/

/-- Of requests that vary in headers that decide nothing, the upstream receives the same
    under the gateway's names. -/
def GatewayHeadersHeld (W : World) (display : Json → String) (routeId requestId : String) (route : Row)
    (consumedAuthHeader urlAuth : Option String) (streamed : Bool) (decides : String → Prop) (base : ReceivedRequest) : Prop :=
  ∀ rules, NoHeaderRules rules → ∀ req req', Varies decides base req → Varies decides base req' → ∀ t t',
    buildHeaders W display routeId requestId route rules consumedAuthHeader streamed req = some t →
    buildHeaders W display routeId requestId route rules consumedAuthHeader streamed req' = some t' →
    ∀ name ∈ gatewayHeaders W route, sentUnder display urlAuth t name = sentUnder display urlAuth t' name

/-- No client header decides what is sent under a name: it decides the admission, the
    target's URL has a credential in its place, it is not forwarded, it is removed, or it
    moves no other value behind its own. -/
def HeldAt (W : World) (display : Json → String) (routeId requestId : String) (route : Row)
    (consumedAuthHeader urlAuth : Option String) (streamed : Bool) (decides : String → Prop) (base : ReceivedRequest)
    (name : String) : Prop :=
  decides name ∨ (urlAuth.isSome = true ∧ name = "authorization") ∨
    if name = "content-length" then (streamed = true → LengthBehind (configuredRows W routeId requestId route base name))
    else name ∈ HOP_BY_HOP_HEADERS ∨ some name = consumedAuthHeader ∨ (route.strings .removeHeaders).any (isNamed name) = true ∨
      Steady display name (configuredRows W routeId requestId route base name)

theorem sentUnder_congr {display : Json → String} {urlAuth : Option String} {t t' : ForwardHeaders} {name : String}
    (h : sentRows display (named name t) = sentRows display (named name t')) :
    sentUnder display urlAuth t name = sentUnder display urlAuth t' name := by
  rw [sentUnder_rows, sentUnder_rows, h]

section Held

variable {W : World} {display : Json → String} {routeId requestId : String} {route : Row} {rules : List TransformRule}
  {consumedAuthHeader urlAuth : Option String} {streamed : Bool} {decides : String → Prop} {base req req' : ReceivedRequest}
  {t t' : ForwardHeaders} {name : String}

/-- The name has rows of its own, unless the target's URL has a credential in their place. -/
theorem sentRows_of_held
    (h : GatewayHeadersHeld W display routeId requestId route consumedAuthHeader urlAuth streamed decides base)
    (hname : name ∈ gatewayHeaders W route) (hurl : ¬(urlAuth.isSome = true ∧ name = "authorization"))
    (hreq : Varies decides base req) (hreq' : Varies decides base req')
    (ht : buildHeaders W display routeId requestId route [] consumedAuthHeader streamed req = some t)
    (ht' : buildHeaders W display routeId requestId route [] consumedAuthHeader streamed req' = some t') :
    sentRows display (named name t) = sentRows display (named name t') := by
  have hsent := h [] noHeaderRules_nil req req' hreq hreq' t t' ht ht' name hname
  rw [sentUnder_rows, sentUnder_rows] at hsent
  cases urlAuth with
  | none => exact hsent
  | some credential =>
    dsimp only at hsent
    rwa [if_neg (fun heq => hurl ⟨rfl, heq⟩), if_neg (fun heq => hurl ⟨rfl, heq⟩)] at hsent

/-- What a streamed body of this length is sent with. -/
theorem sent_length (hlower : toLowerAscii "content-length" = "content-length") (hfree : ¬decides "content-length")
    (hbehind : ¬LengthBehind (configuredRows W routeId requestId route base "content-length")) {cl : String} (hcl : cl ≠ "")
    (ht : buildHeaders W display routeId requestId route [] consumedAuthHeader true
      (base.withHeader "content-length" hlower (some cl)) = some t) :
    sentRows display (named "content-length" t) = [cl] := by
  have hget : (base.withHeader "content-length" hlower (some cl)).header "content-length" = some cl := by
    show (if "content-length" = "content-length" then some cl else base.header "content-length") = some cl
    rw [if_pos rfl]
  have hedit : lengthEdits true (base.withHeader "content-length" hlower (some cl)) = [.set "Content-Length" (.str cl)] := by
    unfold lengthEdits
    rw [if_pos rfl, hget, Option.filter_some_pos (by simpa using hcl)]
    rfl
  have hnames : (HeaderEdit.set "Content-Length" (.str cl)).names "content-length" = true := by
    show isNamed "content-length" "Content-Length" = true
    decide
  rw [named_build noHeaderRules_nil (withHeader_varies base hlower hfree (some cl)) ht,
    clientRows_nil hlower (.inl (by decide)), hedit, editRows, List.filter_cons_of_pos hnames]
  exact sentRows_length_sent hbehind cl

/-- Two lengths of a streamed body. -/
theorem lengthBehind_of_held
    (h : GatewayHeadersHeld W display routeId requestId route consumedAuthHeader urlAuth true decides base)
    (hname : "content-length" ∈ gatewayHeaders W route) (hfree : ¬decides "content-length") :
    LengthBehind (configuredRows W routeId requestId route base "content-length") := by
  by_contra hbehind
  have hlower : toLowerAscii "content-length" = "content-length" := by decide
  have ht := builds_without_rules W display routeId requestId route consumedAuthHeader true
    (base.withHeader "content-length" hlower (some "1"))
  have ht' := builds_without_rules W display routeId requestId route consumedAuthHeader true
    (base.withHeader "content-length" hlower (some "2"))
  have hsame := sentRows_of_held h hname (fun hurl => absurd hurl.2 (by decide)) (withHeader_varies base hlower hfree _)
    (withHeader_varies base hlower hfree _) ht ht'
  rw [sent_length hlower hfree hbehind (by decide) ht, sent_length hlower hfree hbehind (by decide) ht'] at hsame
  exact absurd hsame (by decide)

theorem remove_mem_gatewayEdits {k : String} :
    HeaderEdit.remove k ∈ gatewayEdits W routeId requestId route base ↔ k ∈ route.strings .removeHeaders := by
  unfold gatewayEdits
  rw [List.mem_append, List.mem_append, List.mem_append]
  constructor
  · intro h
    rcases h with (h | h) | h | h
    · obtain ⟨p, -, hp⟩ := List.mem_map.1 h
      cases hp
    · obtain ⟨k', hk', hp⟩ := List.mem_map.1 h
      exact HeaderEdit.remove.inj hp ▸ hk'
    · obtain ⟨p, -, hp⟩ := List.mem_map.1 h
      cases hp
    · simp [identityEdits] at h
  · intro h
    exact .inl (.inr (List.mem_map.2 ⟨k, h, rfl⟩))

/-- A request with the header, and one without. -/
theorem steady_of_held
    (h : GatewayHeadersHeld W display routeId requestId route consumedAuthHeader urlAuth streamed decides base)
    (hname : name ∈ gatewayHeaders W route) (hfree : ¬decides name) (hurl : ¬(urlAuth.isSome = true ∧ name = "authorization"))
    (hlength : name ≠ "content-length") (hhop : name ∉ HOP_BY_HOP_HEADERS) (hconsumed : some name ≠ consumedAuthHeader)
    (hkept : ¬(route.strings .removeHeaders).any (isNamed name) = true) :
    Steady display name (configuredRows W routeId requestId route base name) := by
  have hlower := gatewayHeaders_lower hname
  have ht := builds_without_rules W display routeId requestId route consumedAuthHeader streamed
    (base.withHeader name hlower none)
  have ht' := builds_without_rules W display routeId requestId route consumedAuthHeader streamed
    (base.withHeader name hlower (some "x"))
  have hsame := sentRows_of_held h hname hurl (withHeader_varies base hlower hfree _) (withHeader_varies base hlower hfree _)
    ht ht'
  rw [named_build noHeaderRules_nil (withHeader_varies base hlower hfree none) ht,
    named_build noHeaderRules_nil (withHeader_varies base hlower hfree (some "x")) ht', lengthEdits_other hlength,
    lengthEdits_other hlength, clientRows_unsent, clientRows_sent hhop hconsumed] at hsame
  have hremoved : ∀ k, HeaderEdit.remove k ∈ gatewayEdits W routeId requestId route base → isNamed name k = false := by
    intro k hk
    rw [Bool.eq_false_iff]
    intro hnamed
    exact hkept (List.any_eq_true.2 ⟨k, remove_mem_gatewayEdits.1 hk, hnamed⟩)
  have hfront : Ahead name (.str "x") [] [(name, .str "x")] := ⟨rfl, by simp⟩
  obtain ⟨v, hahead⟩ := ahead_edits hremoved hfront
  exact (ahead_sent hahead (gatewayRows_ne_nil hname []) configuredRows_nodup).1 hsame

/-- What is sent where no client header decides it: what is configured. -/
theorem sentRows_configured (hname : name ∈ gatewayHeaders W route) (hlength : name ≠ "content-length")
    (h : name ∈ HOP_BY_HOP_HEADERS ∨ some name = consumedAuthHeader ∨
      (route.strings .removeHeaders).any (isNamed name) = true ∨
      Steady display name (configuredRows W routeId requestId route base name))
    (hrules : NoHeaderRules rules) (hreq : Varies decides base req)
    (ht : buildHeaders W display routeId requestId route rules consumedAuthHeader streamed req = some t) :
    sentRows display (named name t) = sentRows display (configuredRows W routeId requestId route base name) := by
  have hlower := gatewayHeaders_lower hname
  rw [named_build hrules hreq ht, lengthEdits_other hlength]
  have hnil : name ∈ HOP_BY_HOP_HEADERS ∨ some name = consumedAuthHeader →
      sentRows display (editRows name (gatewayEdits W routeId requestId route base) (clientRows consumedAuthHeader req name)) =
        sentRows display (configuredRows W routeId requestId route base name) := by
    intro hunsent
    rw [clientRows_nil hlower hunsent]
    rfl
  rcases h with hhop | hconsumed | hremoved | hsteady
  · exact hnil (.inl hhop)
  · exact hnil (.inr hconsumed)
  · obtain ⟨k, hk, hnamed⟩ := List.any_eq_true.1 hremoved
    rw [← removed_edits (remove_mem_gatewayEdits.2 hk) hnamed (clientRows_related hlower req)]
    rfl
  · rcases related_edits (clientRows_related hlower req) with hsame | ⟨v, hahead⟩
    · rw [← hsame]
      rfl
    · exact ((ahead_sent hahead (gatewayRows_ne_nil hname []) configuredRows_nodup).2 hsteady).symm

theorem sentUnder_of_heldAt
    (h : HeldAt W display routeId requestId route consumedAuthHeader urlAuth streamed decides base name)
    (hname : name ∈ gatewayHeaders W route) (hrules : NoHeaderRules rules) (hreq : Varies decides base req)
    (hreq' : Varies decides base req')
    (ht : buildHeaders W display routeId requestId route rules consumedAuthHeader streamed req = some t)
    (ht' : buildHeaders W display routeId requestId route rules consumedAuthHeader streamed req' = some t') :
    sentUnder display urlAuth t name = sentUnder display urlAuth t' name := by
  have hlower := gatewayHeaders_lower hname
  rcases h with hdecides | ⟨hurl, rfl⟩ | h
  · -- The two requests have the same header.
    have hget : req.headers.get? name = req'.headers.get? name := (hreq.headers name hdecides).trans (hreq'.headers name hdecides).symm
    refine sentUnder_congr ?_
    rw [named_build hrules hreq ht, named_build hrules hreq' ht', clientRows_congr hlower hget]
    by_cases hlength : name = "content-length"
    · subst hlength
      rw [lengthEdits, lengthEdits, req.header_eq, req'.header_eq, hget]
    · rw [lengthEdits_other hlength, lengthEdits_other hlength]
  · obtain ⟨credential, rfl⟩ := Option.isSome_iff_exists.1 hurl
    rw [sentUnder_rows, sentUnder_rows]
    rfl
  · refine sentUnder_congr ?_
    split at h
    · rename_i hlength
      subst hlength
      have hlen : ∀ {r u}, Varies decides base r →
          buildHeaders W display routeId requestId route rules consumedAuthHeader streamed r = some u →
          sentRows display (named "content-length" u) =
            sentRows display (configuredRows W routeId requestId route base "content-length") := by
        intro r u hr hu
        rw [named_build hrules hr hu, clientRows_nil hlower (.inl (by decide))]
        cases streamed with
        | true => exact sentRows_length (h rfl)
        | false => rfl
      rw [hlen hreq ht, hlen hreq' ht']
    · rename_i hlength
      rw [sentRows_configured hname hlength h hrules hreq ht, sentRows_configured hname hlength h hrules hreq' ht']

end Held

/-- Whatever the route, the request and the headers that decide its admission. -/
theorem gateway_headers_held_iff (W : World) (display : Json → String) (routeId requestId : String) (route : Row)
    (consumedAuthHeader urlAuth : Option String) (streamed : Bool) (decides : String → Prop) (base : ReceivedRequest) :
    GatewayHeadersHeld W display routeId requestId route consumedAuthHeader urlAuth streamed decides base ↔
      ∀ name ∈ gatewayHeaders W route,
        HeldAt W display routeId requestId route consumedAuthHeader urlAuth streamed decides base name := by
  constructor
  · intro h name hname
    by_contra hno
    unfold HeldAt at hno
    rw [not_or, not_or] at hno
    obtain ⟨hfree, hurl, hno⟩ := hno
    split at hno
    · rename_i hlength
      subst hlength
      rw [Classical.not_imp] at hno
      obtain ⟨rfl, hbehind⟩ := hno
      exact hbehind (lengthBehind_of_held h hname hfree)
    · rename_i hlength
      simp only [not_or] at hno
      obtain ⟨hhop, hconsumed, hkept, hsteady⟩ := hno
      exact hsteady (steady_of_held h hname hfree hurl hlength hhop hconsumed hkept)
  · intro h rules hrules req req' hreq hreq' t t' ht ht' name hname
    exact sentUnder_of_heldAt (h name hname) hname hrules hreq hreq' ht ht'

/-! ## A header in two spellings -/

namespace Credentialed

/-- The configured header and the credential's differ in casing. -/
def route : Row := Row.ofFields
  [(.name, .str "flows"), (.publicPath, .str "/r/flows"), (.targetUrl, .str "http://n8n"), (.isActive, .bool true),
   (.status, .str "PUBLISHED"), (.addHeaders, .obj [("X-N8N-Key", .str "old")]), (.upstreamAuthType, .str "API_KEY"),
   (.upstreamAuthHeader, .str "x-n8n-key"), (.upstreamAuthValue, .str "secret"),
   (.createdAt, .str "2026-01-01T00:00:00.000Z"), (.updatedAt, .str "2026-01-01T00:00:00.000Z")]
  (by intro c; cases c <;> rfl)

def request : ReceivedRequest := Keyed.request [] List.nodup_nil Keyed.nothing_lowered

def requestWithKey : ReceivedRequest := request.withHeader "x-n8n-key" (by decide) (some "any")

end Credentialed

theorem a_client_moves_the_credential :
    ¬∀ (W : World) (display : Json → String) (routeId requestId : String) (route : Row)
      (consumedAuthHeader urlAuth : Option String) (streamed : Bool) (decides : String → Prop) (base : ReceivedRequest),
      (upstreamCredential W route).isSome = true →
      GatewayHeadersHeld W display routeId requestId route consumedAuthHeader urlAuth streamed decides base := by
  intro h
  have hheld := h World.plain (fun _ => "") "flows" "id" Credentialed.route none none false (· ≠ "x-n8n-key")
    Credentialed.request (by decide)
  have hsent := hheld [] noHeaderRules_nil Credentialed.request Credentialed.requestWithKey
    ⟨fun _ _ => rfl, rfl, rfl, rfl, rfl⟩ (withHeader_varies _ _ (by decide) _) _ _ (builds_without_rules ..)
    (builds_without_rules ..) "x-n8n-key" (by decide)
  exact absurd hsent (by decide +kernel)

end ClusterGate
