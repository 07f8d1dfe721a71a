/-
  ClusterGate.Proxy.Cookies — the headers of an upstream's answer on their way to the client
  (`services/proxyService.ts`: `proxyRequest`; `lib/proxySecurityHeaders.ts`,
  `transformService.ts`: `applyResponseTransforms`), and what the server reads of the
  cookies a browser keeps of them (`lib/clientToken.ts`: `countSessionCookies`, and the
  cookie parser).

  Set-Cookie entries are dropped by the name in front of their equals sign. A browser keeps
  a pair with a blank name by its value alone, and gives the value back as it stands.
  - `harmless_iff`: values plant no cookie of ours exactly if none the browser stores has a
    pair that reads as one, or a blank name with one behind it.
  - `upstream_cookies_harmless_iff`: exactly when what is sent plants none: no blank name
    hides one, and no second Set-Cookie key, in another casing, carries one past the filter,
    which looks at the first.
  - `a_blank_name_plants_the_session`: `=cg_session=evil`.
-/

import ClusterGate.Lib.SetCookie
import ClusterGate.Proxy.Routing

namespace ClusterGate

open Lib Lib.SetCookie

/-! ## Header maps -/

/-- What a header map of the upstream holds: a text, or a list of them. -/
inductive HeaderValue
  | text (s : String)
  | list (ss : List String)
  deriving DecidableEq

def HeaderValue.texts : HeaderValue → List String
  | .text s => [s]
  | .list ss => ss

/-- Headers by key, in the order they were set. -/
abbrev Headers := Table String HeaderValue

/-- Whether `name` is the key's name, whatever its casing. -/
def isNamed (name key : String) : Bool := Text.toLowerAscii key = name

def findKey (headers : Headers) (name : String) : Option String :=
  (headers.find? fun key _ => isNamed name key).map Prod.fst

/-! ## From the upstream's headers to the hardened ones -/

def HOP_BY_HOP_HEADERS : List String :=
  ["connection", "keep-alive", "proxy-authenticate", "proxy-authorization", "te", "trailers", "transfer-encoding", "host",
    "content-length"]

def endToEnd (headers : Headers) : Headers := headers.filter fun key _ => Text.toLowerAscii key ∉ HOP_BY_HOP_HEADERS

section Transforms

variable (display : Json → String)

/-- `String(v)`; `display` is that of a value that is not a text. -/
def toText : Json → String
  | .str s => s
  | v => display v

/-- A value a rule sets, with its texts as they would be sent. -/
def HeaderValue.ofJson : Json → HeaderValue
  | .arr vs => .list (vs.map (toText display))
  | v => .text (toText display v)

/-- A rule on the headers; the rules on the status and the body leave them alone. None
    where a key has no `toLowerCase`. -/
def applyResponseTransform (headers : Headers) (rule : TransformRule) : Option Headers :=
  match rule.type, rule.config.get? "key" with
  | "SET_HEADER", some key =>
    match rule.config.get? "value" with
    | some value => some (if key.truthy then headers.upsert (toText display key) (.ofJson display value) else headers)
    | none => some headers
  | "REMOVE_HEADER", some (.str key) =>
    some (if key ≠ "" then (headers.erase key).erase (Text.toLowerAscii key) else headers)
  | "REMOVE_HEADER", some key => if key.truthy then none else some headers
  | _, _ => some headers

def applyResponseTransforms (rules : List TransformRule) (headers : Headers) : Option Headers :=
  ((rules.filter fun r => r.phase = "RESPONSE" && r.isActive).mergeSort fun a b => a.order ≤ b.order).foldlM
    (applyResponseTransform display) headers

/-- The rules change the map they are given and answer with that same map. The handler
    takes every key out of its own before it copies the answer into it, so none is left. -/
def transformed (rules : List TransformRule) (headers : Headers) : Option Headers :=
  if rules = [] then some headers else (applyResponseTransforms display rules headers).map fun _ => .empty

end Transforms

def rewriteLocationHeader (location basePath : String) (upstreamOrigin : Option String) : String :=
  if location = "" || Text.startsWith location (basePath ++ "/") || location = basePath then location
  else if Text.startsWith location "/" then basePath ++ location
  else match upstreamOrigin with
    | none => location
    | some origin =>
      if Text.startsWith location origin then
        basePath ++ (if Text.slice location origin.length = "" then "/" else Text.slice location origin.length)
      else location

/-- None where the value has no `startsWith`. -/
def maybeRewriteLocation (headers : Headers) (status : Nat) (basePath : String) (upstreamOrigin : Option String)
    (enabled : Bool) : Option Headers :=
  if !enabled || status < 300 || status ≥ 400 then some headers
  else match headers.find? fun key _ => isNamed "location" key with
    | none => some headers
    | some (key, .text location) => some (headers.upsert key (.text (rewriteLocationHeader location basePath upstreamOrigin)))
    | some (_, .list _) => none

def SANDBOX_CSP : String :=
  "sandbox allow-scripts allow-forms allow-popups allow-modals allow-downloads allow-pointer-lock allow-presentation"

def RESERVED_COOKIE_PREFIX : String := "cg_"

def cookieName (setCookie : String) : String :=
  let name := Text.toLowerAscii (Text.trim ((Text.split ((Text.split setCookie ';').headD "") '=').headD ""))
  if Text.startsWith name "__host-" then Text.slice name 7
  else if Text.startsWith name "__secure-" then Text.slice name 9
  else name

def dropScopeHeaders (headers : Headers) : Headers :=
  headers.filter fun key _ => !isNamed "service-worker-allowed" key && !isNamed "cross-origin-opener-policy" key

/-- The entries of a Set-Cookie header that go on. -/
def keptCookies (raw : HeaderValue) : List String :=
  raw.texts.filter fun c => !Text.startsWith (cookieName c) RESERVED_COOKIE_PREFIX

def dropOwnCookies (headers : Headers) : Headers :=
  match headers.find? fun key _ => isNamed "set-cookie" key with
  | none => headers
  | some (key, raw) => if keptCookies raw ≠ [] then headers.upsert key (.list (keptCookies raw)) else headers.erase key

def addSandbox (headers : Headers) : Headers :=
  match headers.find? fun key _ => isNamed "content-security-policy" key with
  | none => headers.upsert "Content-Security-Policy" (.text SANDBOX_CSP)
  | some (key, existing) =>
    (headers.erase key).upsert "Content-Security-Policy" (.list (existing.texts ++ [SANDBOX_CSP]))

def hardenProxyResponseHeaders (headers : Headers) (sandbox : Bool) : Headers :=
  let cleaned := dropOwnCookies (dropScopeHeaders headers)
  if sandbox then addSandbox cleaned else cleaned

/-- `proxyRequest`, from the headers of the upstream's answer to those of ours. None where
    the request fails before any is set. -/
def proxyHeaders (display : Json → String) (route : Row) (rules : List TransformRule) (upstreamOrigin : Option String)
    (status : Nat) (upstream : Headers) : Option Headers :=
  let basePath := if Text.endsWith route.publicPath "/*" then Text.sliceEnd route.publicPath 2 else route.publicPath
  let collected :=
    if (route.val .streamResponse).truthy then some (endToEnd upstream)
    else transformed display rules ((endToEnd upstream).filter fun key _ => !isNamed "content-encoding" key)
  collected.bind fun h => maybeRewriteLocation h status basePath upstreamOrigin (route.val .rewriteRedirects ≠ .bool false)

/-! ## What is sent -/

/-- A character `res.setHeader` takes in a value. -/
def headerChar (c : Char) : Bool := c = '\t' || (0x20 ≤ c.toNat && c.toNat ≤ 0x7E) || (0x80 ≤ c.toNat && c.toNat ≤ 0xFF)

def tokenChar (c : Char) : Bool := c.isAlphanum || "!#$%&'*+-.^_`|~".toList.contains c

/-- Whether `res.setHeader` takes a header; else it throws, and what was set until then goes
    out with the error. -/
def settable (header : String × HeaderValue) : Bool :=
  header.1 ≠ "" && header.1.toList.all tokenChar && header.2.texts.all fun t => t.toList.all headerChar

def isSetCookie (header : String × HeaderValue) : Bool := isNamed "set-cookie" header.1

/-- The Set-Cookie values of the answer: a later key of that name takes an earlier one's
    place. -/
def sentCookies (headers : Headers) : List String :=
  (((headers.rows.takeWhile settable).filter isSetCookie).getLast?.map fun h => h.2.texts).getD []

/-! ## What the server reads -/

/-- The names the cookie parser finds in a Cookie header, as far as they are ours: of each
    part that has an equals sign, what stands before it, without white space. -/
structure CookieParser where
  names : List Char → List (List Char)
  names_own : ∀ header name, RESERVED_COOKIE_PREFIX.toList <+: name →
    (name ∈ names header ↔ ∃ part ∈ header.splitOn ';', '=' ∈ part ∧ trimBy isWsp (upTo '=' part) = name)

def countSessionCookies (cookieHeader : String) : Nat :=
  (Text.split cookieHeader ';').countP fun part =>
    Text.trim ((Text.split (Text.trim part) '=').headD "") = "cg_session"

/-- A Cookie header in which the server finds none of its own. -/
def Foreign (parser : CookieParser) (header : List Char) : Prop :=
  (∀ name ∈ parser.names header, ¬ RESERVED_COOKIE_PREFIX.toList <+: name) ∧
    countSessionCookies (String.ofList header) = 0

/-- No cookies a browser keeps of these Set-Cookie values show it one of its own. -/
def Harmless (ua : UserAgent) (parser : CookieParser) (values : List String) : Prop :=
  ∀ jar : List Cookie, (∀ c ∈ jar, ∃ v ∈ values, ua.stores v.toList = some c) → Foreign parser (cookieHeader jar)

/-! ## What a Set-Cookie value plants -/

/-- A part of a Cookie header the server takes for a cookie of its own. -/
def ReadsAsOurs (t : List Char) : Prop :=
  ('=' ∈ t ∧ RESERVED_COOKIE_PREFIX.toList <+: trimBy isWsp (upTo '=' t)) ∨
    trimBy Text.isSpace (upTo '=' t) = "cg_session".toList

/-- A pair with a blank name and one of ours behind it. -/
def HidesOurs (t : List Char) : Prop := '=' ∈ t ∧ trimBy isWsp (upTo '=' t) = [] ∧ ReadsAsOurs (behind '=' t)

theorem isSpace_of_isWsp (d : Char) (h : isWsp d = true) : Text.isSpace d = true := by
  simp only [isWsp, Bool.or_eq_true, decide_eq_true_eq] at h
  rcases h with rfl | rfl <;> decide

theorem split_head (s : String) (c : Char) : (Text.split s c).headD "" = String.ofList (upTo c s.toList) := by
  unfold Text.split
  by_cases hc : c ∈ s.toList
  · conv_lhs => rw [upTo_behind hc, List.splitOn_append_cons_self_of_not_mem not_mem_upTo]
    rfl
  · rw [List.splitOn_eq_singleton hc, upTo_of_not_mem hc]
    rfl

theorem trim_eq (s : String) : Text.trim s = String.ofList (trimBy Text.isSpace s.toList) := rfl

theorem reads_trim (t : List Char) : ReadsAsOurs (trimBy isWsp t) ↔ ReadsAsOurs t := by
  have heq : isWsp '=' = false := by decide
  unfold ReadsAsOurs
  rw [mem_trimBy heq, trimBy_upTo (fun _ h => h) heq, trimBy_upTo isSpace_of_isWsp heq]

theorem reads_blank (t : List Char) : ReadsAsOurs (' ' :: t) ↔ ReadsAsOurs t := by
  rw [← reads_trim, ← reads_trim t]
  rfl

theorem counted_iff (t : List Char) :
    Text.trim ((Text.split (Text.trim (String.ofList t)) '=').headD "") = "cg_session" ↔
      trimBy Text.isSpace (upTo '=' t) = "cg_session".toList := by
  have heq : Text.isSpace '=' = false := by decide
  have htext : Text.trim ((Text.split (Text.trim (String.ofList t)) '=').headD "") =
      String.ofList (trimBy Text.isSpace (upTo '=' t)) := by
    rw [split_head, trim_eq, trim_eq, String.toList_ofList, String.toList_ofList, String.toList_ofList,
      trimBy_upTo (fun _ h => h) heq]
  rw [htext]
  constructor
  · intro h
    rw [← h, String.toList_ofList]
  · intro h
    rw [h, String.ofList_toList]

theorem foreign_iff {parser : CookieParser} {header : List Char} :
    Foreign parser header ↔ ∀ part ∈ header.splitOn ';', ¬ ReadsAsOurs part := by
  have hnames : (∀ name ∈ parser.names header, ¬ RESERVED_COOKIE_PREFIX.toList <+: name) ↔
      ∀ part ∈ header.splitOn ';', ¬ ('=' ∈ part ∧ RESERVED_COOKIE_PREFIX.toList <+: trimBy isWsp (upTo '=' part)) := by
    constructor
    · rintro h part hpart ⟨heq, hpre⟩
      exact h _ ((parser.names_own _ _ hpre).2 ⟨part, hpart, heq, rfl⟩) hpre
    · intro h name hname hpre
      obtain ⟨part, hpart, heq, rfl⟩ := (parser.names_own _ _ hpre).1 hname
      exact h part hpart ⟨heq, hpre⟩
  have hcount : countSessionCookies (String.ofList header) = 0 ↔
      ∀ part ∈ header.splitOn ';', ¬ trimBy Text.isSpace (upTo '=' part) = "cg_session".toList := by
    rw [countSessionCookies, List.countP_eq_zero, Text.split, String.toList_ofList, List.forall_mem_map]
    refine forall₂_congr fun part _ => ?_
    rw [decide_eq_true_eq, counted_iff]
  unfold Foreign ReadsAsOurs
  rw [hnames, hcount]
  simp only [not_or, forall_and]

/-- A named pair keeps its name, and one without an equals sign its text. -/
theorem reads_text (t : List Char) : ReadsAsOurs (Cookie.ofPair t).text ↔ ReadsAsOurs t ∨ HidesOurs t := by
  have heq : isWsp '=' = false := by decide
  have hnot (cs : List Char) : '=' ∉ trimBy isWsp (upTo '=' cs) := fun h => not_mem_upTo ((mem_trimBy heq).1 h)
  rw [text_ofPair]
  split_ifs with hmem hblank
  · have hown : ¬ ReadsAsOurs t := by
      rintro (⟨-, hpre⟩ | hname)
      · rw [hblank] at hpre
        cases List.prefix_nil.1 hpre
      · rw [← trimBy_trimBy isSpace_of_isWsp, hblank] at hname
        cases hname
    rw [reads_trim]
    simp [HidesOurs, hmem, hblank, hown]
  · have hhide : ¬ HidesOurs t := fun h => hblank h.2.1
    simp only [hhide, or_false, ReadsAsOurs, upTo_append (hnot t), hmem, true_and]
    rw [trimBy_trimBy fun _ h => h, trimBy_trimBy isSpace_of_isWsp]
    simp
  · have hhide : ¬ HidesOurs t := fun h => hmem h.1
    rw [reads_trim]
    simp [hhide]

/-! ## What the filter keeps -/

theorem cookieName_eq (v : String) : cookieName v =
    (let name := Text.toLowerAscii (String.ofList (trimBy Text.isSpace (upTo '=' (pair v.toList))))
     if Text.startsWith name "__host-" then Text.slice name 7
     else if Text.startsWith name "__secure-" then Text.slice name 9
     else name) := by
  unfold cookieName
  rw [split_head, split_head, trim_eq, String.toList_ofList, String.toList_ofList]
  rfl

/-- A pair with one of our names is filtered. -/
theorem reserved_of_reads {v : String} (h : ReadsAsOurs (pair v.toList)) :
    Text.startsWith (cookieName v) RESERVED_COOKIE_PREFIX = true := by
  have hpre : ['c', 'g'] ++ ['_'] <+: trimBy Text.isSpace (upTo '=' (pair v.toList)) := by
    rcases h with ⟨-, hpre⟩ | hname
    · rw [← trimBy_trimBy isSpace_of_isWsp]
      have hpre : ['c', 'g'] ++ ['_'] <+: trimBy isWsp (upTo '=' (pair v.toList)) := hpre
      have hspace : Text.isSpace '_' = false := by decide
      obtain ⟨ds, hds⟩ := hpre
      have hhead : trimBy Text.isSpace (['c', 'g'] ++ ['_'] ++ ds) = (['c', 'g'] ++ ['_'] ++ ds).rdropWhile Text.isSpace :=
        trimBy_of_head (by decide)
      rw [← hds, hhead]
      exact prefix_rdropWhile hspace (List.prefix_append _ _)
    · rw [hname]
      decide
  obtain ⟨ds, hds⟩ := hpre
  rw [cookieName_eq, ← hds]
  simp [Text.toLowerAscii, Text.startsWith, RESERVED_COOKIE_PREFIX]

/-- A pair with a blank name is not. -/
theorem kept_of_hides {v : String} (h : HidesOurs (pair v.toList)) :
    Text.startsWith (cookieName v) RESERVED_COOKIE_PREFIX = false := by
  rw [cookieName_eq, ← trimBy_trimBy isSpace_of_isWsp, h.2.1]
  decide

theorem mem_keptCookies {raw : HeaderValue} {v : String} :
    v ∈ keptCookies raw ↔ v ∈ raw.texts ∧ Text.startsWith (cookieName v) RESERVED_COOKIE_PREFIX = false := by
  simp [keptCookies]

/-! ## What a browser gives back -/

section Sent

variable {ua : UserAgent} {parser : CookieParser}

/-- A header is foreign if each of its cookies is. -/
theorem foreign_cookieHeader {jar : List Cookie} (hjar : ∀ c ∈ jar, ';' ∉ c.text) :
    Foreign parser (cookieHeader jar) ↔ ∀ c ∈ jar, ¬ ReadsAsOurs c.text := by
  rw [foreign_iff]
  cases jar with
  | nil =>
    have hnil : ¬ ReadsAsOurs [] := by simp [ReadsAsOurs, upTo, trimBy]
    simpa [cookieHeader] using hnil
  | cons c jar =>
    rw [splitOn_cookieHeader hjar, List.forall_mem_cons, List.forall_mem_map, List.forall_mem_cons]
    simp only [reads_blank]

theorem stores_text {v : List Char} {c : Cookie} (h : ua.stores v = some c) :
    ';' ∉ c.text ∧ (ReadsAsOurs c.text ↔ ReadsAsOurs (pair v) ∨ HidesOurs (pair v)) := by
  rw [stores_pair h]
  exact ⟨not_mem_text (by decide) not_mem_upTo, reads_text _⟩

/-- Of the values the browser stores, none reads as ours or hides one. -/
theorem harmless_iff {values : List String} : Harmless ua parser values ↔
    ∀ v ∈ values, (ua.stores v.toList).isSome → ¬ ReadsAsOurs (pair v.toList) ∧ ¬ HidesOurs (pair v.toList) := by
  constructor
  · intro h v hv hstored
    obtain ⟨c, hc⟩ := Option.isSome_iff_exists.1 hstored
    have hone : ∀ c' ∈ [c], ∃ v ∈ values, ua.stores v.toList = some c' := by
      intro c' hc'
      exact ⟨v, hv, by rw [List.mem_singleton.1 hc', hc]⟩
    have hnot : ∀ c' ∈ [c], ';' ∉ c'.text := by simpa using (stores_text hc).1
    have hforeign := (foreign_cookieHeader hnot).1 (h [c] hone) c (List.mem_singleton.2 rfl)
    rw [(stores_text hc).2, not_or] at hforeign
    exact hforeign
  · intro h jar hjar
    refine (foreign_cookieHeader fun c hc => ?_).2 fun c hc => ?_
    · obtain ⟨v, -, hv⟩ := hjar c hc
      exact (stores_text hv).1
    · obtain ⟨v, hmem, hv⟩ := hjar c hc
      rw [(stores_text hv).2, not_or]
      exact h v hmem (by rw [hv]; rfl)

/-! ## What is left of the Set-Cookie headers -/

/-- The Set-Cookie headers with the first one filtered. -/
def keepFirst : List (String × HeaderValue) → List (String × HeaderValue)
  | [] => []
  | (key, raw) :: rest => (if keptCookies raw ≠ [] then [(key, .list (keptCookies raw))] else []) ++ rest

theorem filter_dropScopeHeaders (headers : Headers) :
    (dropScopeHeaders headers).rows.filter isSetCookie = headers.rows.filter isSetCookie := by
  simp only [dropScopeHeaders, Table.filter, List.filter_filter]
  apply List.filter_congr
  rintro ⟨key, raw⟩ -
  simp only [isSetCookie, isNamed]
  by_cases hkey : Text.toLowerAscii key = "set-cookie"
  · simp [hkey]
  · simp [hkey]

theorem filter_dropOwnCookies (headers : Headers) :
    (dropOwnCookies headers).rows.filter isSetCookie = keepFirst (headers.rows.filter isSetCookie) := by
  have hfind : headers.find? (fun key _ => isNamed "set-cookie" key) = (headers.rows.filter isSetCookie).head? :=
    List.head?_filter.symm
  have hkeys : ((headers.rows.filter isSetCookie).map Prod.fst).Nodup :=
    headers.nodup.sublist (List.filter_sublist.map _)
  unfold dropOwnCookies
  rw [hfind]
  cases hrows : headers.rows.filter isSetCookie with
  | nil => exact hrows
  | cons header rest =>
    obtain ⟨key, raw⟩ := header
    have hmem : (key, raw) ∈ headers.rows ∧ isSetCookie (key, raw) = true := by
      rw [← List.mem_filter, hrows]
      exact List.mem_cons_self
    have hrest : ∀ r ∈ rest, r.1 ≠ key := by
      intro r hr heq
      rw [hrows, List.map_cons, List.nodup_cons] at hkeys
      exact hkeys.1 (List.mem_map.2 ⟨r, hr, heq⟩)
    simp only [List.head?_cons, keepFirst]
    split_ifs with hkept
    -- the row is rewritten in its place
    · rw [Table.upsert_of_some (Table.mem_rows_iff.1 hmem.1), Table.rows_modify, List.filter_map]
      have hfun : (isSetCookie ∘ fun r : String × HeaderValue =>
          (r.1, if r.1 = key then HeaderValue.list (keptCookies raw) else r.2)) = isSetCookie := rfl
      rw [hfun, hrows, List.map_cons, if_pos rfl]
      refine congrArg _ ((List.map_congr_left fun r hr => ?_).trans (List.map_id rest))
      rw [if_neg (hrest r hr)]
      rfl
    -- and it is taken out
    · have hswap : (headers.erase key).rows.filter isSetCookie =
          (headers.rows.filter isSetCookie).filter fun r => decide (r.1 ≠ key) := by
        simp only [Table.erase, Table.filter, List.filter_filter, Bool.and_comm]
      rw [hswap, hrows, List.filter_cons_of_neg (by simp), List.nil_append, List.filter_eq_self]
      exact fun r hr => decide_eq_true (hrest r hr)

theorem filter_addSandbox (headers : Headers) :
    (addSandbox headers).rows.filter isSetCookie = headers.rows.filter isSetCookie := by
  have hnot : ∀ raw, isSetCookie ("Content-Security-Policy", raw) = false := by
    intro raw
    have : isNamed "set-cookie" "Content-Security-Policy" = false := by decide
    exact this
  unfold addSandbox
  split
  · exact Table.rows_filter_upsert hnot _ _
  · rename_i key existing hfound
    have hkey : ∀ raw, isSetCookie (key, raw) = false := by
      intro raw
      have hcsp := (Table.find?_some hfound).2
      simp only [isSetCookie, isNamed, decide_eq_true_eq] at hcsp ⊢
      rw [hcsp]
      decide
    rw [Table.rows_filter_upsert hnot, Table.rows_filter_erase hkey]

theorem filter_harden (headers : Headers) (sandbox : Bool) :
    (hardenProxyResponseHeaders headers sandbox).rows.filter isSetCookie =
      keepFirst (headers.rows.filter isSetCookie) := by
  have hcleaned : (dropOwnCookies (dropScopeHeaders headers)).rows.filter isSetCookie =
      keepFirst (headers.rows.filter isSetCookie) := by rw [filter_dropOwnCookies, filter_dropScopeHeaders]
  cases sandbox with
  | false => exact hcleaned
  | true => exact (filter_addSandbox _).trans hcleaned

/-! ## What is sent -/

/-- Every header of the map can be set. -/
def Sendable (headers : Headers) : Prop := ∀ header ∈ headers.rows, settable header = true

theorem sendable_filter {headers : Headers} (h : Sendable headers) (p : String → HeaderValue → Bool) :
    Sendable (headers.filter p) := fun header hmem => h header (List.mem_of_mem_filter hmem)

theorem sendable_upsert {headers : Headers} (h : Sendable headers) {key : String} {value : HeaderValue}
    (hnew : settable (key, value) = true) : Sendable (headers.upsert key value) := by
  rintro ⟨key', value'⟩ hmem
  rw [Table.mem_rows_iff, Table.get?_upsert] at hmem
  split at hmem
  · rename_i hkey
    rw [hkey, ← Option.some.inj hmem]
    exact hnew
  · exact h _ (Table.mem_rows_iff.2 hmem)

theorem sendable_dropOwnCookies {headers : Headers} (h : Sendable headers) : Sendable (dropOwnCookies headers) := by
  unfold dropOwnCookies
  split
  · exact h
  · rename_i key raw hfound
    have hset := h (key, raw) (Table.mem_rows_iff.2 (Table.find?_some hfound).1)
    split_ifs
    · apply sendable_upsert h
      simp only [settable, Bool.and_eq_true, List.all_eq_true] at hset ⊢
      exact ⟨hset.1, fun t ht => hset.2 t (mem_keptCookies.1 ht).1⟩
    · exact sendable_filter h _

theorem settable_sandbox {texts : List String} (h : ∀ t ∈ texts, t.toList.all headerChar = true) :
    settable ("Content-Security-Policy", .list (texts ++ [SANDBOX_CSP])) = true := by
  have hname : ("Content-Security-Policy" ≠ "" && "Content-Security-Policy".toList.all tokenChar) = true := by decide
  have hcsp : SANDBOX_CSP.toList.all headerChar = true := by decide
  have htexts : (texts ++ [SANDBOX_CSP]).all (fun t => t.toList.all headerChar) = true := by
    rw [List.all_eq_true]
    intro t ht
    rcases List.mem_append.1 ht with ht | ht
    · exact h t ht
    · rw [List.mem_singleton.1 ht]
      exact hcsp
  unfold settable HeaderValue.texts
  rw [hname, htexts]
  rfl

theorem sendable_addSandbox {headers : Headers} (h : Sendable headers) : Sendable (addSandbox headers) := by
  unfold addSandbox
  split
  · have hnone : ∀ t ∈ ([] : List String), t.toList.all headerChar = true := by simp
    exact sendable_upsert h (settable_sandbox hnone)
  · rename_i key existing hfound
    have hset := h (key, existing) (Table.mem_rows_iff.2 (Table.find?_some hfound).1)
    simp only [settable, Bool.and_eq_true, List.all_eq_true] at hset
    refine sendable_upsert (sendable_filter h _) (settable_sandbox fun t ht => ?_)
    exact List.all_eq_true.2 (hset.2 t ht)

theorem sendable_harden {headers : Headers} (h : Sendable headers) (sandbox : Bool) :
    Sendable (hardenProxyResponseHeaders headers sandbox) := by
  have hcleaned : Sendable (dropOwnCookies (dropScopeHeaders headers)) := sendable_dropOwnCookies (sendable_filter h _)
  cases sandbox with
  | false => exact hcleaned
  | true => exact sendable_addSandbox hcleaned

/-- What is sent is an entry of a Set-Cookie header that the filter leaves. -/
theorem mem_sentCookies {headers : Headers} {v : String} (h : v ∈ sentCookies headers) :
    ∃ header ∈ headers.rows.filter isSetCookie, v ∈ header.2.texts := by
  unfold sentCookies at h
  cases hlast : ((headers.rows.takeWhile settable).filter isSetCookie).getLast? with
  | none =>
    rw [hlast] at h
    cases h
  | some header =>
    rw [hlast] at h
    have hmem := List.mem_of_getLast? hlast
    exact ⟨header, ((List.takeWhile_sublist _).filter _).subset hmem, h⟩

theorem sentCookies_of_sendable {headers : Headers} (h : Sendable headers) :
    sentCookies headers = ((headers.rows.filter isSetCookie).getLast?.map fun h => h.2.texts).getD [] := by
  rw [sentCookies, List.takeWhile_eq_self_iff.2 h]

/-- What a Set-Cookie header may carry: nothing hidden behind a blank name, and, where it is
    not the header the filter looks at, nothing of ours. -/
def Clean (ua : UserAgent) (headers : Headers) (header : String × HeaderValue) : Prop :=
  ∀ v ∈ header.2.texts, (ua.stores v.toList).isSome →
    ¬ HidesOurs (pair v.toList) ∧ (findKey headers "set-cookie" ≠ some header.1 → ¬ ReadsAsOurs (pair v.toList))

theorem findKey_eq (headers : Headers) : findKey headers "set-cookie" = (headers.rows.filter isSetCookie).head?.map Prod.fst :=
  congrArg (Option.map Prod.fst) List.head?_filter.symm

/-- No key but the first one is the one the filter looks at. -/
theorem findKey_ne {headers : Headers} {first header : String × HeaderValue} {rest : List (String × HeaderValue)}
    (hrows : headers.rows.filter isSetCookie = first :: rest) (h : header ∈ rest) :
    findKey headers "set-cookie" ≠ some header.1 := by
  have hkeys : ((headers.rows.filter isSetCookie).map Prod.fst).Nodup :=
    headers.nodup.sublist (List.filter_sublist.map _)
  rw [hrows, List.map_cons, List.nodup_cons] at hkeys
  rw [findKey_eq, hrows]
  intro heq
  exact hkeys.1 (List.mem_map.2 ⟨header, h, (Option.some.inj heq).symm⟩)

/-- The filter leaves a first header harmless exactly if it hides nothing. -/
theorem kept_harmless_iff {headers : Headers} {key : String} {raw : HeaderValue}
    (hfirst : findKey headers "set-cookie" = some key) :
    Harmless ua parser (keptCookies raw) ↔ Clean ua headers (key, raw) := by
  rw [harmless_iff]
  constructor
  · intro h v hv hstored
    refine ⟨fun hhides => ?_, fun hne => absurd hfirst hne⟩
    exact (h v (mem_keptCookies.2 ⟨hv, kept_of_hides hhides⟩) hstored).2 hhides
  · intro h v hv hstored
    obtain ⟨hraw, hkept⟩ := mem_keptCookies.1 hv
    refine ⟨fun hreads => ?_, (h v hraw hstored).1⟩
    rw [reserved_of_reads hreads] at hkept
    cases hkept

/-- Any other header is as harmless as it came. -/
theorem other_harmless_iff {headers : Headers} {header : String × HeaderValue}
    (hother : findKey headers "set-cookie" ≠ some header.1) :
    Harmless ua parser header.2.texts ↔ Clean ua headers header := by
  rw [harmless_iff]
  refine forall₃_congr fun v _ _ => ?_
  simp only [hother, ne_eq, not_false_eq_true, true_imp_iff]
  exact and_comm

theorem harmless_nil : Harmless ua parser [] := harmless_iff.2 fun _ h => nomatch h

theorem harden_harmless_iff {headers : Headers} (h : Sendable headers) (sandbox : Bool) :
    Harmless ua parser (sentCookies (hardenProxyResponseHeaders headers sandbox)) ↔
      ∀ header, (headers.rows.filter isSetCookie).getLast? = some header → Clean ua headers header := by
  rw [sentCookies_of_sendable (sendable_harden h sandbox), filter_harden]
  cases hrows : headers.rows.filter isSetCookie with
  | nil => simpa [keepFirst] using harmless_nil
  | cons first rest =>
    obtain ⟨key, raw⟩ := first
    have hfirst : findKey headers "set-cookie" = some key := by rw [findKey_eq, hrows]; rfl
    rcases List.eq_nil_or_concat rest with rfl | ⟨init, last, rfl⟩
    · have hsent : ((keepFirst [(key, raw)]).getLast?.map fun h => h.2.texts).getD [] = keptCookies raw := by
        by_cases hkept : keptCookies raw = []
        · simp [keepFirst, hkept]
        · simp [keepFirst, hkept, HeaderValue.texts]
      rw [hsent, kept_harmless_iff hfirst]
      simp
    · have hother : findKey headers "set-cookie" ≠ some last.1 := findKey_ne hrows (by simp)
      have hsent : ((keepFirst ((key, raw) :: init.concat last)).getLast?.map fun h => h.2.texts).getD [] = last.2.texts := by
        simp [keepFirst, List.concat_eq_append, ← List.append_assoc]
      have hlast : ((key, raw) :: init.concat last).getLast? = some last := by
        rw [List.concat_eq_append, ← List.cons_append]
        exact List.getLast?_concat
      rw [hsent, other_harmless_iff hother, hlast]
      simp

/-- However few of the headers can be set. -/
theorem harden_harmless {headers : Headers} (sandbox : Bool)
    (h : ∀ header ∈ headers.rows, isSetCookie header = true → Clean ua headers header) :
    Harmless ua parser (sentCookies (hardenProxyResponseHeaders headers sandbox)) := by
  have hclean : ∀ header ∈ headers.rows.filter isSetCookie, Clean ua headers header := by
    intro header hmem
    exact h header (List.mem_filter.1 hmem).1 (List.mem_filter.1 hmem).2
  rw [harmless_iff]
  intro v hv
  obtain ⟨header, hheader, hv⟩ := mem_sentCookies hv
  rw [filter_harden] at hheader
  cases hrows : headers.rows.filter isSetCookie with
  | nil =>
    rw [hrows] at hheader
    cases hheader
  | cons first rest =>
    rw [hrows] at hclean hheader
    rcases List.mem_append.1 hheader with hkept | hrest
    · have hfirst : findKey headers "set-cookie" = some first.1 := by rw [findKey_eq, hrows]; rfl
      have hharmless : Harmless ua parser (keptCookies first.2) := (kept_harmless_iff hfirst).2 (hclean first List.mem_cons_self)
      split_ifs at hkept
      · rw [List.mem_singleton.1 hkept] at hv
        exact harmless_iff.1 hharmless v hv
      · cases hkept
    · have hharmless : Harmless ua parser header.2.texts :=
        (other_harmless_iff (findKey_ne hrows hrest)).2 (hclean header (List.mem_cons_of_mem _ hrest))
      exact harmless_iff.1 hharmless v hv

end Sent

/-! ## What reaches the client -/

/-- The Set-Cookie values of the answer to a proxied request. -/
def clientCookies (display : Json → String) (route : Row) (rules : List TransformRule) (upstreamOrigin : Option String)
    (status : Nat) (upstream : Headers) : List String :=
  ((proxyHeaders display route rules upstreamOrigin status upstream).map fun headers =>
    sentCookies (hardenProxyResponseHeaders headers (route.val .sandbox = .bool true))).getD []

/-- Whatever a browser keeps of an answer's cookies, the server takes none of it for its own,
    exactly if the last Set-Cookie header, which is the one sent, is clean. Where a header
    cannot be set, only those before it are sent, and it is enough that each is clean. -/
theorem upstream_cookies_harmless_iff (ua : UserAgent) (parser : CookieParser) (display : Json → String) (route : Row)
    (rules : List TransformRule) (upstreamOrigin : Option String) (status : Nat) (upstream : Headers) :
    ((∀ headers ∈ proxyHeaders display route rules upstreamOrigin status upstream, Sendable headers) →
      (Harmless ua parser (clientCookies display route rules upstreamOrigin status upstream) ↔
        ∀ headers ∈ proxyHeaders display route rules upstreamOrigin status upstream,
          ∀ header, (headers.rows.filter isSetCookie).getLast? = some header → Clean ua headers header)) ∧
    ((∀ headers ∈ proxyHeaders display route rules upstreamOrigin status upstream,
        ∀ header ∈ headers.rows, isSetCookie header = true → Clean ua headers header) →
      Harmless ua parser (clientCookies display route rules upstreamOrigin status upstream)) := by
  unfold clientCookies
  cases hheaders : proxyHeaders display route rules upstreamOrigin status upstream with
  | none => exact ⟨fun _ => ⟨fun _ => by simp, fun _ => harmless_nil⟩, fun _ => harmless_nil⟩
  | some headers =>
    simp only [Option.mem_some_iff, forall_eq', Option.map_some, Option.getD_some]
    exact ⟨fun hsend => harden_harmless_iff hsend _, harden_harmless _⟩

/-- The parser as it is. -/
def cookieParse : CookieParser where
  names header := ((header.splitOn ';').filter fun part => '=' ∈ part).map fun part => trimBy isWsp (upTo '=' part)
  names_own header name _ := by simp [and_assoc]

/-- A browser that refuses nothing by its attributes or its origin. -/
def trustingBrowser : UserAgent := ⟨fun _ _ => true⟩

def cookieHeaders (cookie : String) : Headers := ⟨[("set-cookie", .list [cookie])], by simp⟩

theorem an_application_cookie_is_harmless :
    clientCookies (fun _ => "") (publishedRoute "/r/app") [] none 200 (cookieHeaders "app_session=ok; Path=/r/app") =
      ["app_session=ok; Path=/r/app"] ∧
    Harmless trustingBrowser cookieParse
      (clientCookies (fun _ => "") (publishedRoute "/r/app") [] none 200 (cookieHeaders "app_session=ok; Path=/r/app")) := by
  have hrows : (proxyHeaders (fun _ => "") (publishedRoute "/r/app") [] none 200
      (cookieHeaders "app_session=ok; Path=/r/app")).map Table.rows =
        some [("set-cookie", .list ["app_session=ok; Path=/r/app"])] := by decide +kernel
  have hreads : ¬ HidesOurs (pair "app_session=ok; Path=/r/app".toList) := by
    have hname : trimBy isWsp (upTo '=' (pair "app_session=ok; Path=/r/app".toList)) ≠ [] := by decide +kernel
    exact fun h => hname h.2.1
  refine ⟨by decide +kernel, ((upstream_cookies_harmless_iff _ _ _ _ _ _ _ _).1 ?_).2 ?_⟩
  · intro headers hheaders header hmem
    rw [hheaders, Option.map_some, Option.some.injEq] at hrows
    rw [hrows, List.mem_singleton] at hmem
    rw [hmem]
    decide +kernel
  · intro headers hheaders header hlast v hv _
    rw [hheaders, Option.map_some, Option.some.injEq] at hrows
    have hone : headers.rows.filter isSetCookie = [("set-cookie", .list ["app_session=ok; Path=/r/app"])] := by
      rw [hrows]
      decide +kernel
    rw [hone] at hlast
    obtain rfl := Option.some.inj hlast
    obtain rfl := List.mem_singleton.1 hv
    exact ⟨hreads, fun hne => absurd (by rw [findKey_eq, hone]; rfl) hne⟩

/-- The browser keeps `cg_session=evil` as the value of a nameless cookie. -/
theorem a_blank_name_plants_the_session :
    clientCookies (fun _ => "") (publishedRoute "/r/app") [] none 200 (cookieHeaders "=cg_session=evil") =
      ["=cg_session=evil"] ∧
    trustingBrowser.stores "=cg_session=evil".toList = some ⟨[], "cg_session=evil".toList⟩ ∧
    countSessionCookies (String.ofList (cookieHeader [⟨[], "cg_session=evil".toList⟩])) = 1 ∧
    ¬ Harmless trustingBrowser cookieParse
      (clientCookies (fun _ => "") (publishedRoute "/r/app") [] none 200 (cookieHeaders "=cg_session=evil")) := by
  have hsent : clientCookies (fun _ => "") (publishedRoute "/r/app") [] none 200 (cookieHeaders "=cg_session=evil") =
      ["=cg_session=evil"] := by decide +kernel
  have hstored : trustingBrowser.stores "=cg_session=evil".toList = some ⟨[], "cg_session=evil".toList⟩ := by decide +kernel
  have hcount : countSessionCookies (String.ofList (cookieHeader [⟨[], "cg_session=evil".toList⟩])) = 1 := by decide +kernel
  refine ⟨hsent, hstored, hcount, fun h => ?_⟩
  have hforeign := h [⟨[], "cg_session=evil".toList⟩] (by simpa [hsent] using hstored)
  rw [hforeign.2] at hcount
  cases hcount

end ClusterGate
