/-
  ClusterGate.Proxy.Query — the query a request is forwarded with
  (`services/proxyService.ts`: `proxyRequest`, from the parsed query to the URL of the call).

  The query comes parsed into an object. It is spread, written again by `URLSearchParams`, one
  pair for each key in the order of the object's keys, and put behind the target and the
  path, of which what follows the first question mark is cut off. Express's parser is an
  argument: what it makes of a query string, a table of texts where no brackets take names
  apart (`askedPairs`). What the client sent is what the URL standard reads in the string.
  - `ownRows`: an object's keys as the language enumerates them, array indices first.
  - `received_eq`: what the upstream reads in the URL.
  - `query_passed_iff`: it reads the client's pairs beside the target's own exactly if the
    target has none and no fragment, and no name is repeated, dropped or moved, and none and
    no value is read in another way by Express's parser.
  - `a_repeated_name_is_joined`: `a=1&a=2` arrives as `a=1,2`.
-/

import ClusterGate.Lib.JsonParse
import ClusterGate.Lib.UrlQuery
import ClusterGate.Proxy.GatewayHeaders
import ClusterGate.Proxy.Origin

namespace ClusterGate

open Lib Lib.Text

/-! ## The URL of the call -/

/-- A key that is an array index, as a number. -/
def keyIndex (key : String) : Option Nat := JsonParse.index? (key.toList.flatMap JsonParse.units)

/-- Indices come before other keys, in their order. -/
def indexBefore : Option Nat → Option Nat → Bool
  | some m, some n => m ≤ n
  | some _, none => true
  | none, some _ => false
  | none, none => true

def keyBefore (a b : String) : Bool := indexBefore (keyIndex a) (keyIndex b)

/-- The members of an object as its keys are enumerated, from the order they were set in. -/
def ownRows {α : Type} (rows : List (String × α)) : List (String × α) := rows.mergeSort fun a b => keyBefore a.1 b.1

section Call

variable (shown : Json → Option String)

/-- `String(v)`; `shown` is that of a value that is not a text, none if it throws. -/
def shownText : Json → Option String
  | .str s => some s
  | v => shown v

/-- The pairs of `new URLSearchParams(queryParams)`. -/
def searchParams (queryParams : Table String Json) : Option (List (String × String)) :=
  (ownRows queryParams.rows).mapM fun r => (shownText shown r.2).map fun text => (r.1, text)

/-- `URLSearchParams.toString()`, where there are keys. -/
def queryString (params : List (String × String)) : Option String :=
  if params = [] then none
  else some (String.ofList (FormUrlencoded.serialize (params.map fun p => (p.1.toList, p.2.toList))))

/-- `resolvedUrl`; none where the request fails before. -/
def forwardUrl (W : World) (display : Json → String) (routeId requestId : String) (route : Row) (rules : List TransformRule)
    (consumedAuthHeader : Option String) (selectedTargetUrl : String) (req : ReceivedRequest) : Option String :=
  (searchParams shown req.query).bind fun _ =>
    (applyRequestTransforms display rules (ruleStart W routeId requestId route consumedAuthHeader req)).bind fun st =>
      (searchParams shown st.queryParams).map fun params =>
        resolvedUrl selectedTargetUrl (route.targetPath W req.path) (queryString params)

end Call

/-! ## What the client sends and the upstream reads -/

/-- The parts of a query between its ampersands. -/
def queryParts (q : String) : List (List Char) := (q.toList.splitOn '&').filter (· ≠ [])

/-- The pair of a part, as the URL standard reads it. -/
def clientPair (W : World) (part : List Char) : String × String :=
  let pair := FormUrlencoded.readPair (fun bytes => (utf8Text W bytes).toList) part
  (String.ofList pair.1, String.ofList pair.2)

def clientPairs (W : World) (q : String) : List (String × String) := readPairs W q.toList

/-- The pairs in the query of a URL. -/
def urlPairs (W : World) (url : String) : List (String × String) :=
  readPairs W (((UrlRecord.read W.hostParser none url).bind UrlRecord.query).getD [])

/-- Pairs with those of one name together, in the order the names first appear. -/
def grouped : List (String × String) → List (String × String)
  | [] => []
  | p :: pairs => p :: ((grouped pairs).filter (fun q => q.1 = p.1) ++ (grouped pairs).filter fun q => q.1 ≠ p.1)

/-- The client's pairs and the target's own, on either side of them. -/
def QueryPassed (received own client : List (String × String)) : Prop :=
  received = own ++ grouped client ∨ received = grouped client ++ own

/-! ## Express's parser -/

/-- A text up to its `n + 1`st ampersand. -/
def upToAmpersand : Nat → List Char → List Char
  | _, [] => []
  | n, c :: cs =>
    if c = '&' then
      match n with
      | 0 => []
      | n + 1 => c :: upToAmpersand n cs
    else c :: upToAmpersand n cs

/-- The first thousand parts of a query. -/
def parsedParts (q : String) : String := String.ofList (upToAmpersand 999 q.toList)

/-- `%5B` and `%5D` become brackets before anything is read. -/
def unescapeBrackets : List Char → List Char
  | '%' :: '5' :: c :: cs =>
    if c = 'B' ∨ c = 'b' then '[' :: unescapeBrackets cs
    else if c = 'D' ∨ c = 'd' then ']' :: unescapeBrackets cs
    else '%' :: unescapeBrackets ('5' :: c :: cs)
  | c :: cs => c :: unescapeBrackets cs
  | [] => []

def rawName (part : List Char) : List Char := part.takeWhile (· ≠ '=')

def rawValue (part : List Char) : List Char := (part.dropWhile (· ≠ '=')).drop 1

/-- A name with a bracket may be taken apart, and an equals sign behind a bracket ends a name. -/
def bracketedPart (part : List Char) : Bool :=
  (unescapeBrackets (rawName part)).any (fun c => c = '[' || c = ']') ||
    includes (String.ofList (unescapeBrackets (rawValue part))) "]="

def bracketed (q : String) : Bool := (queryParts (parsedParts q)).any bracketedPart

/-- `decodeURIComponent` with pluses as blanks; a text it throws at stays as it is. -/
def askedText (cs : List Char) : String :=
  let text := FormUrlencoded.plusToSpace cs
  String.ofList ((Percent.decodeChars text).getD text)

def askedPair (part : List Char) : String × String := (askedText (rawName part), askedText (unescapeBrackets (rawValue part)))

example : askedPair "a=%FF+b".toList = ("a", "%FF b") := by decide

/-- What Express's parser reads where nothing is bracketed. -/
def askedPairs (q : String) : List (String × String) := (queryParts (parsedParts q)).map askedPair

/-- No name, and that of an object's prototype, are dropped. -/
def KeptName (name : String) : Prop := name ≠ "" ∧ name ≠ "__proto__"

instance (name : String) : Decidable (KeptName name) := inferInstanceAs (Decidable (_ ∧ _))

/-- Express's parser of query strings. -/
structure QueryParser where
  query : String → Table String Json

/-- Only the first thousand parts are read, each for no more than one key. Where nothing is
    bracketed the keys are the names that are kept, and if each of them is there once their
    values are texts, in the order an object enumerates them. What brackets make, or a
    repeated name, makes no difference. -/
structure QueryParser.Parses (P : QueryParser) : Prop where
  keys : ∀ q, (P.query q).rows.length ≤ (queryParts (parsedParts q)).length
  named : ∀ q, bracketed q = false → ∀ row ∈ (P.query q).rows, KeptName row.1 ∧ row.1 ∈ (askedPairs q).map Prod.fst
  texts : ∀ q, bracketed q = false → ((askedPairs q).map Prod.fst).Nodup → (∀ p ∈ askedPairs q, KeptName p.1) →
    (P.query q).rows = ownRows ((askedPairs q).map fun p => (p.1, .str p.2))

/-! ## The condition -/

/-- No rule on the request sets or removes a parameter. -/
def NoQueryRules (rules : List TransformRule) : Prop :=
  ∀ rule ∈ requestRules rules, rule.type ≠ "SET_QUERY_PARAM" ∧ rule.type ≠ "REMOVE_QUERY_PARAM"

/-- The URL in front of the query. -/
def frontOf (target targetPath : String) : List Char := ((targetBase target).toList ++ targetPath.toList).takeWhile (· ≠ '?')

/-- Nothing is behind the thousandth part, each part is read alike by Express's parser and by
    the URL standard, and the names are kept, each there once and in the order an object
    enumerates them. -/
structure PlainKept (W : World) (q : String) : Prop where
  limited : queryParts (parsedParts q) = queryParts q
  alike : ∀ part ∈ queryParts q, askedPair part = clientPair W part
  kept : ∀ p ∈ clientPairs W q, KeptName p.1
  once : ((clientPairs W q).map Prod.fst).Nodup
  ordered : ((clientPairs W q).map Prod.fst).Pairwise fun a b => keyBefore a b = true

/-- What the parser makes of a query with brackets is key by key what the client sent. -/
def BracketsKept (W : World) (shown : Json → Option String) (P : QueryParser) (q : String) : Prop :=
  List.Forall₂ (fun row p => row.1 = p.1 ∧ shownText shown row.2 = some p.2) (ownRows (P.query q).rows) (clientPairs W q)

/-- The target has no pairs of its own; and there are none to forward, or no hash stands in
    front of them and the parser takes them for what they are. -/
def QueryKept (W : World) (shown : Json → Option String) (P : QueryParser) (target targetPath q : String) : Prop :=
  urlPairs W target = [] ∧
    (clientPairs W q = [] ∨
      ('#' ∉ frontOf target targetPath ∧ (bracketed q = true → BracketsKept W shown P q) ∧
        (bracketed q = false → PlainKept W q)))

/-! ## Keys in order -/

theorem keyBefore_trans {a b c : String} (hab : keyBefore a b = true) (hbc : keyBefore b c = true) : keyBefore a c = true := by
  unfold keyBefore indexBefore at *
  cases ha : keyIndex a <;> cases hb : keyIndex b <;> cases hc : keyIndex c <;> simp_all
  omega

theorem keyBefore_total (a b : String) : (keyBefore a b || keyBefore b a) = true := by
  unfold keyBefore indexBefore
  cases keyIndex a <;> cases keyIndex b <;> simp
  omega

theorem ownRows_perm {α : Type} (rows : List (String × α)) : (ownRows rows).Perm rows := List.mergeSort_perm _ _

theorem ownRows_pairwise {α : Type} (rows : List (String × α)) : (ownRows rows).Pairwise fun a b => keyBefore a.1 b.1 = true := by
  apply List.pairwise_mergeSort
  · intro a b c
    exact keyBefore_trans
  · intro a b
    exact keyBefore_total a.1 b.1

/-- Members whose keys are enumerated as they stand, and no others, stay where they are. -/
theorem ownRows_eq_iff {α : Type} {rows : List (String × α)} :
    ownRows rows = rows ↔ (rows.map Prod.fst).Pairwise fun a b => keyBefore a b = true := by
  rw [List.pairwise_map]
  constructor
  · intro h
    rw [← h]
    exact ownRows_pairwise rows
  · exact List.mergeSort_of_pairwise

theorem ownRows_own {α : Type} (rows : List (String × α)) : ownRows (ownRows rows) = ownRows rows := by
  rw [ownRows_eq_iff, List.pairwise_map]
  exact ownRows_pairwise rows

/-- Where keys that may be more often indices take the places of others, they all are indices
    where these are. -/
theorem indices_eq {xs ys : List (Option Nat)} (h : List.Forall₂ (fun x y => x ≠ none → y = x) xs ys) :
    xs.countP Option.isSome ≤ ys.countP Option.isSome ∧ (ys.countP Option.isSome = xs.countP Option.isSome → xs = ys) := by
  induction h with
  | nil => exact ⟨Nat.le_refl _, fun _ => rfl⟩
  | @cons x y xs ys hxy _ ih =>
    obtain ⟨hle, heq⟩ := ih
    rw [List.countP_cons, List.countP_cons]
    cases x with
    | some n =>
      obtain rfl := hxy (by simp)
      exact ⟨by omega, fun hcount => by rw [heq (by omega)]⟩
    | none =>
      cases y with
      | none => exact ⟨by simpa using hle, fun hcount => by rw [heq (by simpa using hcount)]⟩
      | some n =>
        refine ⟨by simp; omega, fun hcount => ?_⟩
        simp at hcount
        omega

/-- Members that become, in their order, others whose keys are indices where theirs are have
    been these from the first. -/
theorem ownRows_same {α : Type} {rows rows' : List (String × α)} (h : ownRows rows = rows')
    (hindex : List.Forall₂ (fun a b => keyIndex a.1 ≠ none → keyIndex b.1 = keyIndex a.1) rows rows') : rows = rows' := by
  have hcount : (rows'.map fun r => keyIndex r.1).countP Option.isSome = (rows.map fun r => keyIndex r.1).countP Option.isSome := by
    rw [← h]
    exact ((ownRows_perm rows).map _).countP_eq _
  have hkeys : (rows.map fun r => keyIndex r.1) = rows'.map fun r => keyIndex r.1 :=
    (indices_eq (List.forall₂_map_left_iff.2 (List.forall₂_map_right_iff.2 hindex))).2 hcount
  have horder : ∀ l : List (String × α), (l.map Prod.fst).Pairwise (fun a b => keyBefore a b = true) ↔
      (l.map fun r => keyIndex r.1).Pairwise fun m n => indexBefore m n = true := by
    intro l
    rw [List.pairwise_map, List.pairwise_map]
    rfl
  rw [← h, eq_comm, ownRows_eq_iff, horder, hkeys, ← horder, List.pairwise_map, ← h]
  exact ownRows_pairwise rows

/-! ## Parts -/

/-- The parts up to an ampersand are the first parts. -/
theorem upToAmpersand_parts (n : Nat) (cs : List Char) : (upToAmpersand n cs).splitOn '&' <+: cs.splitOn '&' := by
  induction cs generalizing n with
  | nil => exact List.prefix_refl _
  | cons c cs ih =>
    rw [upToAmpersand.eq_def, List.splitOn_cons_eq_if_modifyHead]
    dsimp only
    by_cases hc : c = '&'
    · rw [if_pos hc, if_pos (by simpa using hc)]
      cases n with
      | zero => exact List.prefix_append [[]] _
      | succ n =>
        dsimp only
        rw [List.splitOn_cons_eq_if_modifyHead, if_pos (by simpa using hc)]
        exact (List.prefix_append_right_inj [[]]).2 (ih n)
    · rw [if_neg hc, if_neg (by simpa using hc), List.splitOn_cons_eq_if_modifyHead, if_neg (by simpa using hc)]
      obtain ⟨x, xs, hx⟩ := List.exists_cons_of_ne_nil (List.splitOn_ne_nil '&' (upToAmpersand n cs))
      obtain ⟨rest, hrest⟩ := ih n
      rw [← hrest, hx]
      exact ⟨rest, rfl⟩

theorem parsedParts_first (q : String) : queryParts (parsedParts q) <+: queryParts q := by
  unfold queryParts
  rw [parsedParts, String.toList_ofList]
  exact (upToAmpersand_parts 999 q.toList).filter _

theorem clientPairs_eq (W : World) (q : String) : clientPairs W q = (queryParts q).map (clientPair W) := by
  unfold clientPairs readPairs FormUrlencoded.read
  rw [List.map_map]
  rfl

/-! ## Names that are indices -/

theorem index_no_percent {name : String} (h : keyIndex name ≠ none) : '%' ∉ name.toList := by
  intro hin
  unfold keyIndex JsonParse.index? at h
  split at h
  · rename_i hdigits
    have hunit : 37 ∈ name.toList.flatMap JsonParse.units := List.mem_flatMap.2 ⟨'%', hin, by decide⟩
    have hdigit := List.all_eq_true.1 hdigits.2.1 37 hunit
    exact absurd hdigit (by decide)
  · exact h rfl

theorem askedText_eq (cs : List Char) : askedText cs =
    String.ofList ((Percent.decodeChars (FormUrlencoded.plusToSpace cs)).getD (FormUrlencoded.plusToSpace cs)) := rfl

/-- An index is read alike, for it has no escapes that fail. -/
theorem index_alike (W : World) {part : List Char} (h : keyIndex (askedPair part).1 ≠ none) :
    (clientPair W part).1 = (askedPair part).1 := by
  have hdecoded : ∀ text, Percent.decodeChars (FormUrlencoded.plusToSpace (rawName part)) = some text →
      (clientPair W part).1 = (askedPair part).1 := by
    intro text htext
    have hread : (utf8Text W (FormUrlencoded.bytes (rawName part))).toList = text := by
      rw [FormUrlencoded.bytes_decoded htext, ← utf8Bytes_ofList, utf8Text_bytes, String.toList_ofList]
    show String.ofList (utf8Text W (FormUrlencoded.bytes (rawName part))).toList = askedText (rawName part)
    rw [hread, askedText_eq, htext, Option.getD_some]
  cases htext : Percent.decodeChars (FormUrlencoded.plusToSpace (rawName part)) with
  | some text => exact hdecoded text htext
  | none =>
    have hname : (askedPair part).1 = String.ofList (FormUrlencoded.plusToSpace (rawName part)) := by
      show askedText (rawName part) = _
      rw [askedText_eq, htext, Option.getD_none]
    have hno := index_no_percent h
    rw [hname, String.toList_ofList] at hno
    rw [Percent.decodeChars_plain hno] at htext
    cases htext

/-! ## Groups -/

theorem grouped_perm (pairs : List (String × String)) : (grouped pairs).Perm pairs := by
  induction pairs with
  | nil => exact .nil
  | cons p pairs ih =>
    have hsplit := List.filter_append_perm (fun q : String × String => decide (q.1 = p.1)) (grouped pairs)
    refine List.Perm.cons p (List.Perm.trans ?_ ih)
    simpa using hsplit

theorem grouped_of_nodup {pairs : List (String × String)} (h : (pairs.map Prod.fst).Nodup) : grouped pairs = pairs := by
  induction pairs with
  | nil => rfl
  | cons p pairs ih =>
    rw [List.map_cons, List.nodup_cons] at h
    have hother : ∀ q ∈ pairs, q.1 ≠ p.1 := fun q hq he => h.1 (he ▸ List.mem_map_of_mem hq)
    rw [grouped, ih h.2, List.filter_eq_nil_iff.2, List.filter_eq_self.2]
    · rfl
    · simpa using hother
    · simpa using hother

/-! ## The pairs that are sent -/

section Sent

variable {W : World} {shown : Json → Option String} {display : Json → String} {routeId requestId : String} {route : Row}
  {rules : List TransformRule} {consumedAuthHeader : Option String} {target q : String} {req : ReceivedRequest}

theorem rules_keep_query (hrules : NoQueryRules rules) {st st' : TransformState}
    (h : applyRequestTransforms display rules st = some st') : st'.queryParams = st.queryParams := by
  have hall : ∀ rule ∈ requestRules rules, ∀ table, rule.queryEdit display table = table := by
    intro rule hrule table
    obtain ⟨hset, hremove⟩ := hrules rule hrule
    unfold TransformRule.queryEdit
    split
    · exact absurd (by assumption) hset
    · exact absurd (by assumption) hremove
    · rfl
  unfold applyRequestTransforms at h
  generalize requestRules rules = rs at h hall
  induction rs generalizing st with
  | nil =>
    obtain rfl : st = st' := by simpa using h
    rfl
  | cons rule rs ih =>
    rw [List.foldlM_cons] at h
    obtain ⟨st₁, hstep, h⟩ := Option.bind_eq_some_iff.1 h
    obtain ⟨met, -, happly⟩ := Option.bind_eq_some_iff.1 hstep
    have hquery : st₁.queryParams = st.queryParams := by
      cases met with
      | false => exact congrArg TransformState.queryParams (Option.some.inj happly).symm
      | true =>
        obtain ⟨es, -, rfl⟩ := Option.map_eq_some_iff.1 happly
        exact hall rule List.mem_cons_self _
    exact (ih h fun r hr => hall r (List.mem_cons_of_mem _ hr)).trans hquery

/-- One pair for each key. -/
theorem searchParams_names {t : Table String Json} {params : List (String × String)} (h : searchParams shown t = some params) :
    params.map Prod.fst = (ownRows t.rows).map Prod.fst := by
  have hall := mapM_some_iff.1 h
  clear h
  generalize ownRows t.rows = rows at hall
  induction hall with
  | nil => rfl
  | cons hr _ ih =>
    obtain ⟨text, -, rfl⟩ := Option.map_eq_some_iff.1 hr
    rw [List.map_cons, List.map_cons, ih]

theorem searchParams_nodup {t : Table String Json} {params : List (String × String)} (h : searchParams shown t = some params) :
    (params.map Prod.fst).Nodup := by
  rw [searchParams_names h]
  exact ((ownRows_perm t.rows).map Prod.fst).nodup_iff.2 t.nodup

theorem searchParams_length {t : Table String Json} {params : List (String × String)} (h : searchParams shown t = some params) :
    params.length = t.rows.length := by
  have hlength := congrArg List.length (searchParams_names h)
  rw [List.length_map, List.length_map, (ownRows_perm t.rows).length_eq] at hlength
  exact hlength

/-- Texts are written as they are. -/
theorem searchParams_texts {t : Table String Json} {pairs : List (String × String)}
    (hrows : t.rows = ownRows (pairs.map fun p => (p.1, .str p.2))) : searchParams shown t = some (ownRows pairs) := by
  have hsort := List.map_mergeSort (r := fun a b => keyBefore a.1 b.1) (s := fun a b => keyBefore a.1 b.1) (l := pairs)
    (f := fun p : String × String => (p.1, Json.str p.2)) fun a _ b _ => rfl
  have hown : ownRows t.rows = (ownRows pairs).map fun p => (p.1, Json.str p.2) := by
    rw [hrows, ownRows_own, ownRows, ← hsort, ownRows]
  unfold searchParams
  rw [hown, mapM_some_iff, List.forall₂_map_left_iff, List.forall₂_same]
  exact fun p _ => rfl

theorem forwardUrl_eq (hrules : NoQueryRules rules) {url : String}
    (h : forwardUrl shown W display routeId requestId route rules consumedAuthHeader target req = some url) :
    ∃ params, searchParams shown req.query = some params ∧
      url = resolvedUrl target (route.targetPath W req.path) (queryString params) := by
  obtain ⟨_, -, h⟩ := Option.bind_eq_some_iff.1 h
  obtain ⟨st, hst, h⟩ := Option.bind_eq_some_iff.1 h
  obtain ⟨params, hparams, rfl⟩ := Option.map_eq_some_iff.1 h
  have hquery : st.queryParams = req.query := rules_keep_query hrules hst
  exact ⟨params, by rw [← hquery]; exact hparams, rfl⟩

/-! ## What is read of them -/

theorem frontOf_no_question (target targetPath : String) : '?' ∉ frontOf target targetPath := by
  intro h
  have := List.mem_takeWhile_imp h
  simp at this

theorem readPairs_nil (W : World) : readPairs W [] = [] := rfl

theorem readPairs_serialize (params : List (String × String)) :
    readPairs W (FormUrlencoded.serialize (params.map fun p => (p.1.toList, p.2.toList))) = params := by
  have hdecode : ∀ cs : List Char, (utf8Text W (cs.flatMap String.utf8EncodeChar)).toList = cs := by
    intro cs
    rw [← utf8Bytes_ofList, utf8Text_bytes, String.toList_ofList]
  rw [readPairs, FormUrlencoded.read_serialize hdecode, List.map_map]
  refine (List.map_congr_left fun p _ => ?_).trans (List.map_id _)
  simp

/-- Behind a hash nothing is read, else what was sent. -/
theorem received_eq {params : List (String × String)} {targetPath : String} {u : UrlRecord}
    (h : UrlRecord.read W.hostParser none (resolvedUrl target targetPath (queryString params)) = some u)
    (hw : (Url.defaultPort u.scheme).isSome = true) :
    readPairs W (u.query.getD []) = if '#' ∈ frontOf target targetPath then [] else params := by
  have hfront := frontOf_no_question target targetPath
  unfold UrlRecord.read at h
  rw [resolvedUrl_text] at h
  unfold queryString at h
  by_cases hempty : params = []
  · subst hempty
    rw [if_pos rfl, queryText, List.append_nil] at h
    rw [Url.query_absent hfront h hw]
    simp [readPairs_nil]
  · rw [if_neg hempty] at h
    have hchars := FormUrlencoded.serialize_kept (params.map fun p => (p.1.toList, p.2.toList))
    have htext : queryText (some (String.ofList (FormUrlencoded.serialize (params.map fun p => (p.1.toList, p.2.toList))))) =
        '?' :: FormUrlencoded.serialize (params.map fun p => (p.1.toList, p.2.toList)) := by
      rw [queryText, String.toList_ofList]
    rw [htext] at h
    by_cases hhash : '#' ∈ frontOf target targetPath
    · rw [if_pos hhash, Url.query_hashed hchars hfront hhash h hw]
      exact readPairs_nil W
    · rw [if_neg hhash, Url.query_behind hchars hfront hhash h hw, Option.getD_some, readPairs_serialize]

/-! ## When the query arrives -/

variable {P : QueryParser}

/-- Of pairs with no name twice, grouping changes nothing. -/
theorem client_nodup {received own client : List (String × String)} (hpassed : QueryPassed received own client)
    (hnames : (received.map Prod.fst).Nodup) : (client.map Prod.fst).Nodup ∧ grouped client = client := by
  have hgrouped : ((grouped client).map Prod.fst).Nodup := by
    rcases hpassed with rfl | rfl
    · rw [List.map_append] at hnames
      exact hnames.of_append_right
    · rw [List.map_append] at hnames
      exact hnames.of_append_left
  have hclient := ((grouped_perm client).map Prod.fst).nodup_iff.1 hgrouped
  exact ⟨hclient, grouped_of_nodup hclient⟩

theorem passed_length {received own client : List (String × String)} (hpassed : QueryPassed received own client) :
    received.length = own.length + client.length := by
  have hlength := (grouped_perm client).length_eq
  rcases hpassed with rfl | rfl
  · rw [List.length_append, hlength]
  · rw [List.length_append, hlength, Nat.add_comm]

/-- Nothing but the client's pairs is sent, and no more of them than there are parts. -/
theorem passed_counts (hP : P.Parses) {params own : List (String × String)} (hsent : searchParams shown (P.query q) = some params)
    (hpassed : QueryPassed params own (clientPairs W q)) : own = [] ∧ params = clientPairs W q ∧
      queryParts (parsedParts q) = queryParts q ∧ (P.query q).rows.length = (queryParts q).length := by
  have hlength := passed_length hpassed
  have hclient : (clientPairs W q).length = (queryParts q).length := by rw [clientPairs_eq, List.length_map]
  have hrows := searchParams_length hsent
  have hkeys := hP.keys q
  have hlimit := (parsedParts_first q).length_le
  have hown : own = [] := List.length_eq_zero_iff.1 (by omega)
  obtain ⟨-, hgrouped⟩ := client_nodup hpassed (searchParams_nodup hsent)
  refine ⟨hown, ?_, (parsedParts_first q).eq_of_length (by omega), by omega⟩
  rcases hpassed with h | h
  · rw [h, hown, hgrouped, List.nil_append]
  · rw [h, hown, hgrouped, List.append_nil]

/-- As many keys as parts: the names are kept, and none is there twice. -/
theorem asked_names (hP : P.Parses) (hplain : bracketed q = false)
    (hlength : (P.query q).rows.length = (queryParts (parsedParts q)).length) :
    ((askedPairs q).map Prod.fst).Nodup ∧ ∀ p ∈ askedPairs q, KeptName p.1 := by
  have hsub : (P.query q).rows.map Prod.fst ⊆ (askedPairs q).map Prod.fst := by
    intro name hname
    obtain ⟨row, hrow, rfl⟩ := List.mem_map.1 hname
    exact (hP.named q hplain row hrow).2
  have hperm : ((P.query q).rows.map Prod.fst).Perm ((askedPairs q).map Prod.fst) := by
    refine ((P.query q).nodup.subperm hsub).perm_of_length_le ?_
    rw [List.length_map, List.length_map, hlength, askedPairs, List.length_map]
  refine ⟨hperm.nodup_iff.1 (P.query q).nodup, ?_⟩
  intro p hp
  obtain ⟨row, hrow, hname⟩ := List.mem_map.1 (hperm.mem_iff.2 (List.mem_map_of_mem hp))
  rw [← hname]
  exact (hP.named q hplain row hrow).1

/-- What is sent of a query without brackets is the client's pairs, and nothing beside, under
    the condition only. -/
theorem plain_passed_iff (hP : P.Parses) (hplain : bracketed q = false) {params own : List (String × String)}
    (hsent : searchParams shown (P.query q) = some params) :
    QueryPassed params own (clientPairs W q) ↔ own = [] ∧ PlainKept W q := by
  have hparams : ((askedPairs q).map Prod.fst).Nodup → (∀ p ∈ askedPairs q, KeptName p.1) → params = ownRows (askedPairs q) := by
    intro hnodup hkept
    rw [searchParams_texts (hP.texts q hplain hnodup hkept)] at hsent
    exact (Option.some.inj hsent).symm
  constructor
  · intro hpassed
    obtain ⟨hown, hsame, hlimited, hlength⟩ := passed_counts hP hsent hpassed
    obtain ⟨hnodup, hkept⟩ := asked_names hP hplain (hlimited ▸ hlength)
    have hrows : ownRows (askedPairs q) = clientPairs W q := (hparams hnodup hkept).symm.trans hsame
    have hasked : askedPairs q = clientPairs W q := by
      refine ownRows_same hrows ?_
      rw [askedPairs, hlimited, clientPairs_eq, List.forall₂_map_left_iff, List.forall₂_map_right_iff, List.forall₂_same]
      intro part _ hindex
      rw [index_alike W hindex]
    refine ⟨hown, hlimited, ?_, hasked ▸ hkept, hasked ▸ hnodup, ?_⟩
    · rw [clientPairs_eq, askedPairs, hlimited] at hasked
      exact List.map_inj_left.1 hasked
    · rw [hasked] at hrows
      exact ownRows_eq_iff.1 hrows
  · rintro ⟨rfl, hkept⟩
    have hasked : askedPairs q = clientPairs W q := by
      rw [askedPairs, hkept.limited, clientPairs_eq]
      exact List.map_inj_left.2 hkept.alike
    left
    rw [hparams (hasked ▸ hkept.once) (hasked ▸ hkept.kept), hasked, ownRows_eq_iff.2 hkept.ordered,
      grouped_of_nodup hkept.once, List.nil_append]

/-- And of one with brackets, if the parser left it as it was. -/
theorem bracketed_passed_iff (hP : P.Parses) {params own : List (String × String)}
    (hsent : searchParams shown (P.query q) = some params) :
    QueryPassed params own (clientPairs W q) ↔ own = [] ∧ BracketsKept W shown P q := by
  have hkept : BracketsKept W shown P q ↔ params = clientPairs W q := by
    have hpairs : BracketsKept W shown P q ↔ searchParams shown (P.query q) = some (clientPairs W q) := by
      unfold BracketsKept searchParams
      rw [mapM_some_iff]
      refine iff_of_eq (congrArg (fun R => List.Forall₂ R _ _) (funext fun row => funext fun p => propext ?_))
      rw [Option.map_eq_some_iff]
      constructor
      · rintro ⟨hname, htext⟩
        exact ⟨p.2, htext, by rw [hname]⟩
      · rintro ⟨text, htext, rfl⟩
        exact ⟨rfl, htext⟩
    rw [hpairs, hsent, Option.some_inj]
  rw [hkept]
  constructor
  · intro hpassed
    obtain ⟨hown, hsame, -⟩ := passed_counts hP hsent hpassed
    exact ⟨hown, hsame⟩
  · rintro ⟨rfl, hsame⟩
    left
    rw [← hsame, grouped_of_nodup (searchParams_nodup hsent), List.nil_append]

theorem passed_nothing {own client : List (String × String)} : QueryPassed [] own client ↔ own = [] ∧ client = [] := by
  have hgrouped : grouped client = [] ↔ client = [] := by
    rw [← List.length_eq_zero_iff, (grouped_perm client).length_eq, List.length_eq_zero_iff]
  unfold QueryPassed
  rw [List.nil_eq_append_iff, List.nil_eq_append_iff, hgrouped, and_comm (a := client = []), or_self]

/-- The request is sent, and its URL is one of the web: then the upstream reads the client's
    pairs and the target's under the condition, and not otherwise. -/
theorem query_passed_iff (hP : P.Parses) (hreq : req.query = P.query q) (hrules : NoQueryRules rules) {url : String} {u : UrlRecord}
    (hurl : forwardUrl shown W display routeId requestId route rules consumedAuthHeader target req = some url)
    (hread : UrlRecord.read W.hostParser none url = some u) (hw : (Url.defaultPort u.scheme).isSome = true) :
    QueryPassed (readPairs W (u.query.getD [])) (urlPairs W target) (clientPairs W q) ↔
      QueryKept W shown P target (route.targetPath W req.path) q := by
  obtain ⟨params, hsent, rfl⟩ := forwardUrl_eq hrules hurl
  rw [hreq] at hsent
  rw [received_eq hread hw]
  unfold QueryKept
  by_cases hnone : clientPairs W q = []
  · have hempty : params = [] := by
      have hkeys := hP.keys q
      have hlimit := (parsedParts_first q).length_le
      rw [clientPairs_eq, List.map_eq_nil_iff] at hnone
      rw [hnone, List.length_nil] at hlimit
      have hlength := searchParams_length hsent
      exact List.length_eq_zero_iff.1 (by omega)
    rw [hempty, ite_self, passed_nothing]
    simp [hnone]
  by_cases hhash : '#' ∈ frontOf target (route.targetPath W req.path)
  · rw [if_pos hhash, passed_nothing]
    simp [hnone, hhash]
  · rw [if_neg hhash]
    cases hb : bracketed q with
    | true =>
      rw [bracketed_passed_iff hP hsent]
      simp [hnone, hhash]
    | false =>
      rw [plain_passed_iff hP hb hsent]
      simp [hnone, hhash]

end Sent

/-! ## A name that is repeated -/

namespace Asked

def keptPairs (q : String) : List (String × String) := (askedPairs q).filter fun p => KeptName p.1

/-- The names, each once. -/
def names (ps : List (String × String)) : List String := (ps.map Prod.fst).reverse.dedup.reverse

/-- The values of a repeated name become a list. -/
def valueOf (ps : List (String × String)) (name : String) : Json :=
  match ps.filter fun p => p.1 = name with
  | [p] => .str p.2
  | ps => .arr (ps.map fun p => .str p.2)

def members (ps : List (String × String)) : List (String × Json) := (names ps).map fun name => (name, valueOf ps name)

theorem members_names (ps : List (String × String)) : (members ps).map Prod.fst = names ps := by
  rw [members, List.map_map]
  exact List.map_id _

theorem names_nodup (ps : List (String × String)) : (names ps).Nodup := List.nodup_reverse.2 (List.nodup_dedup _)

def query (q : String) : Table String Json where
  rows := ownRows (members (keptPairs q))
  nodup := by
    rw [((ownRows_perm (members (keptPairs q))).map Prod.fst).nodup_iff, members_names]
    exact names_nodup _

theorem query_rows (q : String) : (query q).rows = ownRows (members (keptPairs q)) := rfl

def parser : QueryParser := ⟨query⟩

theorem members_length (ps : List (String × String)) : (members ps).length ≤ ps.length := by
  have hdedup := (List.dedup_sublist (ps.map Prod.fst).reverse).length_le
  rw [List.length_reverse, List.length_map] at hdedup
  rw [members, List.length_map, names, List.length_reverse]
  exact hdedup

/-- Of pairs with no name twice, each is a member. -/
theorem members_texts {ps : List (String × String)} (h : (ps.map Prod.fst).Nodup) : members ps = ps.map fun p => (p.1, .str p.2) := by
  have hnames : names ps = ps.map Prod.fst := by
    rw [names, (List.nodup_reverse.2 h).dedup, List.reverse_reverse]
  rw [members, hnames, List.map_map]
  apply List.map_congr_left
  intro p hp
  have hone : ps.filter (fun r => r.1 = p.1) = [p] := by
    clear hnames
    induction ps with
    | nil => cases hp
    | cons r ps ih =>
      rw [List.map_cons, List.nodup_cons] at h
      rcases List.mem_cons.1 hp with rfl | hp
      · have hother : ps.filter (fun r => r.1 = p.1) = [] := by
          rw [List.filter_eq_nil_iff]
          intro r hr he
          exact h.1 (List.mem_map.2 ⟨r, hr, of_decide_eq_true he⟩)
        rw [List.filter_cons_of_pos (by simp), hother]
      · have hne : r.1 ≠ p.1 := fun he => h.1 (List.mem_map.2 ⟨p, hp, he.symm⟩)
        rw [List.filter_cons_of_neg (by simpa using hne), ih h.2 hp]
  show (p.1, valueOf ps p.1) = _
  rw [valueOf, hone]

theorem query_keys (q : String) : (query q).rows.length ≤ (queryParts (parsedParts q)).length := by
  have hkept : (keptPairs q).length ≤ (askedPairs q).length := List.length_filter_le _ _
  have hasked : (askedPairs q).length = (queryParts (parsedParts q)).length := List.length_map _
  have hmembers := members_length (keptPairs q)
  rw [query_rows, (ownRows_perm _).length_eq]
  omega

theorem query_named (q : String) : ∀ row ∈ (query q).rows, KeptName row.1 ∧ row.1 ∈ (askedPairs q).map Prod.fst := by
  intro row hrow
  rw [query_rows, (ownRows_perm _).mem_iff] at hrow
  have hname : row.1 ∈ names (keptPairs q) := by
    rw [← members_names]
    exact List.mem_map_of_mem hrow
  rw [names, List.mem_reverse, List.mem_dedup, List.mem_reverse] at hname
  obtain ⟨p, hp, hkey⟩ := List.mem_map.1 hname
  obtain ⟨hasked, hkept⟩ := List.mem_filter.1 hp
  rw [← hkey]
  exact ⟨of_decide_eq_true hkept, List.mem_map_of_mem hasked⟩

theorem query_texts (q : String) (hnodup : ((askedPairs q).map Prod.fst).Nodup) (hkept : ∀ p ∈ askedPairs q, KeptName p.1) :
    (query q).rows = ownRows ((askedPairs q).map fun p => (p.1, .str p.2)) := by
  have hall : keptPairs q = askedPairs q := by
    rw [keptPairs, List.filter_eq_self]
    exact fun p hp => decide_eq_true (hkept p hp)
  rw [query_rows, hall, members_texts hnodup]

theorem parser_parses : parser.Parses where
  keys := query_keys
  named q _ := query_named q
  texts q _ := query_texts q

def route : Row := Row.ofFields
  [(.name, .str "orders"), (.publicPath, .str "/r/orders"), (.targetUrl, .str "http://orders"), (.isActive, .bool true),
   (.status, .str "PUBLISHED"), (.createdAt, .str "2026-01-01T00:00:00.000Z"), (.updatedAt, .str "2026-01-01T00:00:00.000Z")]
  (by intro c; cases c <;> rfl)

def request (q : String) : ReceivedRequest :=
  { Keyed.request [] List.nodup_nil Keyed.nothing_lowered with url := "/r/orders/open?" ++ q, path := "/orders/open", query := query q }

/-- `String(v)` of a list of texts. -/
def joined : Json → Option String
  | .arr vs => some (",".intercalate (vs.map fun v => v.str?.getD ""))
  | _ => none

/-- The URL of a request with this query. -/
def url (q : String) : Option String :=
  forwardUrl joined World.plain (fun _ => "") "orders" "id" route [] none "http://orders" (request q)

theorem url_eq {q : String} {params : List (String × String)} (h : searchParams joined (query q) = some params) :
    url q = some (resolvedUrl "http://orders" (route.targetPath World.plain "/orders/open") (queryString params)) := by
  have hrules : requestRules [] = [] := List.mergeSort_nil
  have hquery : searchParams joined (request q).query = some params := h
  unfold url forwardUrl
  rw [hquery, Option.bind_some, applyRequestTransforms, hrules]
  show Option.map _ (searchParams joined (request q).query) = _
  rw [hquery]
  rfl

def distinct : String := "b=2&a=1"

def repeated : String := "a=1&a=2"

theorem distinct_asked : askedPairs distinct = [("b", "2"), ("a", "1")] := by decide +kernel

theorem repeated_asked : askedPairs repeated = [("a", "1"), ("a", "2")] := by decide +kernel

theorem distinct_client : clientPairs World.plain distinct = [("b", "2"), ("a", "1")] := by decide +kernel

theorem distinct_kept : PlainKept World.plain distinct where
  limited := by decide +kernel
  alike := by decide +kernel
  kept := by
    rw [distinct_client]
    decide
  once := by
    rw [distinct_client]
    decide
  ordered := by
    rw [distinct_client]
    decide

theorem distinct_params : searchParams joined (query distinct) = some [("b", "2"), ("a", "1")] := by
  have hnodup : ((askedPairs distinct).map Prod.fst).Nodup := by
    rw [distinct_asked]
    decide
  have hkept : ∀ p ∈ askedPairs distinct, KeptName p.1 := by
    rw [distinct_asked]
    decide
  have horder : ownRows (askedPairs distinct) = askedPairs distinct := by
    rw [ownRows_eq_iff, distinct_asked]
    decide
  rw [searchParams_texts (query_texts distinct hnodup hkept), horder, distinct_asked]

theorem repeated_params : searchParams joined (query repeated) = some [("a", "1,2")] := by
  have hmembers : members (keptPairs repeated) = [("a", .arr [.str "1", .str "2"])] := by
    rw [keptPairs, repeated_asked]
    decide
  rw [searchParams, query_rows, ownRows_own, hmembers, ownRows, List.mergeSort_singleton]
  decide

theorem no_rules : NoQueryRules [] := by
  intro rule hrule
  rw [show requestRules [] = [] from List.mergeSort_nil] at hrule
  cases hrule

/-- The URL with these parameters is one of the web. -/
theorem read_web (params : List (String × String))
    (h : ((UrlRecord.read World.plain.hostParser none
      (resolvedUrl "http://orders" (route.targetPath World.plain "/orders/open") (queryString params))).map fun u =>
        (Url.defaultPort u.scheme).isSome) = some true) :
    ∃ u, UrlRecord.read World.plain.hostParser none
      (resolvedUrl "http://orders" (route.targetPath World.plain "/orders/open") (queryString params)) = some u ∧
        (Url.defaultPort u.scheme).isSome = true := Option.map_eq_some_iff.1 h

end Asked

theorem distinct_names_arrive : ∃ url u, Asked.url Asked.distinct = some url ∧
    UrlRecord.read World.plain.hostParser none url = some u ∧
    QueryPassed (readPairs World.plain (u.query.getD [])) (urlPairs World.plain "http://orders")
      (clientPairs World.plain Asked.distinct) := by
  obtain ⟨u, hread, hw⟩ := Asked.read_web [("b", "2"), ("a", "1")] (by decide +kernel)
  have hurl := Asked.url_eq Asked.distinct_params
  have hplain : bracketed Asked.distinct = false := by decide +kernel
  refine ⟨_, u, hurl, hread,
    (query_passed_iff Asked.parser_parses rfl Asked.no_rules hurl hread hw).2 ⟨?_, .inr ⟨?_, ?_, fun _ => Asked.distinct_kept⟩⟩⟩
  · decide +kernel
  · show '#' ∉ frontOf "http://orders" (Asked.route.targetPath World.plain "/orders/open")
    decide +kernel
  · intro hb
    rw [hplain] at hb
    cases hb

/-- The name arrives once, with the values in one. -/
theorem a_repeated_name_is_joined :
    ¬∀ (W : World) (P : QueryParser) (shown : Json → Option String) (display : Json → String) (routeId requestId : String)
        (route : Row) (rules : List TransformRule) (consumedAuthHeader : Option String) (target q : String)
        (req : ReceivedRequest) (url : String) (u : UrlRecord),
        P.Parses → req.query = P.query q → NoQueryRules rules →
        forwardUrl shown W display routeId requestId route rules consumedAuthHeader target req = some url →
        UrlRecord.read W.hostParser none url = some u → (Url.defaultPort u.scheme).isSome = true →
        QueryPassed (readPairs W (u.query.getD [])) (urlPairs W target) (clientPairs W q) := by
  intro h
  obtain ⟨u, hread, hw⟩ := Asked.read_web [("a", "1,2")] (by decide +kernel)
  have hurl := Asked.url_eq Asked.repeated_params
  have hpassed := h World.plain Asked.parser Asked.joined (fun _ => "") "orders" "id" Asked.route [] none "http://orders"
    Asked.repeated (Asked.request Asked.repeated) _ u Asked.parser_parses rfl Asked.no_rules hurl hread hw
  rw [received_eq hread hw] at hpassed
  have hclient := (client_nodup hpassed (by split <;> decide)).1
  rw [show clientPairs World.plain Asked.repeated = [("a", "1"), ("a", "2")] by decide +kernel] at hclient
  exact absurd hclient (by decide)

end ClusterGate
