/-
  ClusterGate.Auth.Resume — where a resume sends the browser
  (`lib/clientToken.ts`: `safeResumeTarget`; `routes/auth.router.ts`: `resumeHandler`).

  A top-level navigation to `/api/auth/resume` is sent on to the UI page `to` names, with
  the client token in the fragment, or to the login page if it has no session. The text of
  `to` is read against a host of no one, judged, and put together again from what was read;
  the browser reads the result against the UI's own URL. The intent is that it stays on the
  UI's origins, and off the paths that serve other code.

  What a URL of an allowed origin is put together from is read as it was. What is read
  against the host of no one is sent on as a path alone, and a path that starts with two
  slashes is read as a host. Dot segments are out by then, so `/.//evil.com` is one.
  - `resume_stays_in_ui_iff`: a redirect stays in the UI exactly when there is no session, or
    `to` names its origin, or its path does not start so, or what stands behind the slashes
    happens to be ours.
  - `a_dot_segment_hides_another_host`: `/.//evil.com/x` takes the token to `evil.com`.
-/

import ClusterGate.Auth.Authenticate
import ClusterGate.Lib.UrlReparse

namespace ClusterGate.Auth

open Lib Lib.Act

/-! ## The target -/

def NON_UI_PREFIXES : List String := ["api", "r", "metrics"]

def resumeBase : String := "http://resume.invalid"

/-- What `resumeBase` is read as. -/
def resumeInvalid : Base := ⟨"http", "resume.invalid", none, [[]], none, rfl⟩

/-- `pathname.split('/')[1]?.toLowerCase() ?? ''` -/
def firstSegment (pathname : List Char) : String :=
  Text.toLowerAscii (((Text.split (String.ofList pathname) '/')[1]?).getD "")

def isRelative (H : HostParser) (url : UrlRecord) (to_ : String) : Bool :=
  url.origin H = resumeBase && Text.startsWith to_ "/" && !Text.startsWith to_ "//"

def safeResumeTarget (H : HostParser) (to_ : String) (allowedOrigins : List String) : Option String :=
  if to_ = "" ∨ 2048 < Text.utf16Length to_ then none
  else (UrlRecord.read H (some resumeInvalid) to_).bind fun url =>
    if isRelative H url to_ = false ∧ url.origin H ∉ allowedOrigins then none
    else if url.username ≠ [] ∨ url.password ≠ [] then none
    else if '%' ∈ url.pathname then none
    else if firstSegment url.pathname ∈ NON_UI_PREFIXES then none
    else
      let pathAndQuery := String.ofList (url.pathname ++ url.search)
      some (if isRelative H url to_ then pathAndQuery else url.origin H ++ pathAndQuery)

/-- Fails on a target that is neither a path nor a URL. -/
def loginUrl (H : HostParser) (target : String) : Option String :=
  if Text.startsWith target "/" then some ("/login?redirect=" ++ Url.encodeURIComponent target)
  else (UrlRecord.read H none target).map fun url =>
    url.origin H ++ "/login?redirect=" ++ Url.encodeURIComponent (String.ofList url.pathname)

/-! ## The endpoint -/

/-- `req.query.to`: a text, or what the query parser makes of several. -/
inductive QueryValue
  | absent
  | text (s : String)
  | other
  deriving DecidableEq

def QueryValue.target (H : HostParser) (allowedOrigins : List String) : QueryValue → Option String
  | .absent => safeResumeTarget H "/dashboard" allowedOrigins
  | .text s => safeResumeTarget H s allowedOrigins
  | .other => none

/-- The answer's Location header, and whether it clears the session cookie. -/
structure Redirect where
  location : String
  clearsCookie : Bool
  deriving DecidableEq

/-- `encodeurl` is what the framework does to a Location on its way out. -/
def resumeHandler (H : HostParser) (encodeurl : String → String) (env : Env) (allowedOrigins : List String) (now : Nat)
    (to_ : QueryValue) (req : Request) : Handler Redirect := do
  require (isTopLevelNavigation req = true) (.badRequest "Resume must be a top-level navigation")
  let target := (to_.target H allowedOrigins).getD "/dashboard"
  let login ← orThrow (loginUrl H target) .internal
  let session ← attempt (authenticateRequest env now { skipClientToken := true } req)
  match session, cookieToken req with
  | .ok _, some jwt =>
    pure ⟨encodeurl (target ++ "#cg_ct=" ++ Url.encodeURIComponent (env.deriveClientToken jwt)), false⟩
  | _, _ => pure ⟨encodeurl login, true⟩

/-! ## What is outside the sources -/

/-- A character `encodeurl` replaces by its escapes, as it does a percent sign that begins
    none. -/
def inUrlSet (c : Char) : Bool :=
  Url.inC0Set c || c = ' ' || c = '"' || c = '<' || c = '>' || c = '`' || c = '{' || c = '}'

/-- It encodes a text from the left, characters of its set only, escapes apart. -/
def EncodesUrls (encodeurl : String → String) : Prop :=
  ∀ front rest, '%' ∉ front → ∃ rest',
    (encodeurl (String.ofList (front ++ rest))).toList = Url.percentEncode inUrlSet front ++ rest'

/-- Of the standard's host parser: what it gives out it takes for the same host, escapes in
    a text are decoded, and a domain in lower case stands for itself. -/
structure StandardHosts (H : HostParser) : Prop where
  again : ∀ text host, H true text = some host → H true host.toList = some host
  text : ∀ text host, H true text = some host → Url.HostText host.toList ∧ '%' ∉ host.toList
  decodes : ∀ text, '%' ∉ text → H true (Url.percentEncode inUrlSet text) = H true text
  resume : H true "resume.invalid".toList = some "resume.invalid"

/-! ## The property and the condition -/

/-- The browser, at `ui`, reads the header as a URL of an origin of ours and a page of the
    UI. -/
def StaysInUi (H : HostParser) (ui : Base) (allowedOrigins : List String) (location : String) : Prop :=
  ∃ url, UrlRecord.read H (some ui) location = some url ∧
    (url.origin H = ui.origin ∨ url.origin H ∈ allowedOrigins) ∧ firstSegment url.pathname ∉ NON_UI_PREFIXES

/-- The endpoint accepts the request's session. -/
def HasSession (env : Env) (now : Nat) (req : Request) (s : State) : Prop :=
  Succeeds (authenticateRequest env now { skipClientToken := true } req) s ∧ (cookieToken req).isSome = true

/-- The first text between the slashes is a host and port of ours, and what follows is no
    excluded path. -/
def NamesOurs (H : HostParser) (ui : Base) (allowedOrigins : List String) (segs : List (List Char)) : Prop :=
  ∃ hp path, UrlRecord.behindSlashes H ui.scheme segs = some (hp, path) ∧
    (UrlRecord.webOrigin ui.scheme hp.1 hp.2 = ui.origin ∨ UrlRecord.webOrigin ui.scheme hp.1 hp.2 ∈ allowedOrigins) ∧
    firstSegment (UrlRecord.joinSegments path) ∉ NON_UI_PREFIXES

/-- A path that starts with two slashes names a host of ours. -/
def SlashesHarmless (H : HostParser) (ui : Base) (allowedOrigins : List String) : List (List Char) → Prop
  | [] :: t :: segs => NamesOurs H ui allowedOrigins (t :: segs)
  | _ => True

/-- `to` has a path of segments, and with a session and no origin of its own a harmless one. -/
def KeepsToUi (H : HostParser) (ui : Base) (allowedOrigins : List String) (to_ : String) (session : Prop) : Prop :=
  ∃ url segs, UrlRecord.read H (some resumeInvalid) to_ = some url ∧ url.path = .segments segs ∧
    (session → isRelative H url to_ = true → SlashesHarmless H ui allowedOrigins segs)

/-- `blob:` and the like: a scheme's colon and no slash. -/
def HasOpaquePath (H : HostParser) (to_ : String) : Prop :=
  ∃ url text, UrlRecord.read H (some resumeInvalid) to_ = some url ∧ url.path = .flat text

/-! ## The header on its way out -/

theorem inPathSet_of {c : Char} (h : inUrlSet c = true) : Url.inPathSet c = true := by
  unfold inUrlSet at h
  unfold Url.inPathSet Url.inQuerySet
  simp only [Bool.or_eq_true, decide_eq_true_eq] at h ⊢
  tauto

theorem pathChar_url {c : Char} (h : Url.PathChar c) : inUrlSet c = false := by
  by_contra hc
  have hset := inPathSet_of (Bool.not_eq_false _ ▸ hc)
  rw [h.1] at hset
  cases hset

theorem segments_url {segs : List (List Char)} (h : ∀ s ∈ segs, Url.NormalSegment s) :
    Url.percentEncode inUrlSet (UrlRecord.joinSegments segs) = UrlRecord.joinSegments segs := by
  refine Url.percentEncode_self ?_
  intro c hc
  rcases Url.mem_joinSegments hc with rfl | ⟨s, hs, hc⟩
  · decide
  · exact pathChar_url ((h s hs).chars c hc)

/-- What stands in front of a question mark or a hash goes out in front of one. -/
theorem location_text {encodeurl : String → String} (hE : EncodesUrls encodeurl) {front r : List Char} (hf : '%' ∉ front)
    (hr : Url.Tail r) (hne : r ≠ []) :
    ∃ r', Url.Tail r' ∧ (encodeurl (String.ofList (front ++ r))).toList = Url.percentEncode inUrlSet front ++ r' := by
  obtain ⟨e, t, he, rfl⟩ := hr.cases.resolve_left hne
  have hcases : e = '?' ∨ e = '#' := by
    unfold Url.endsPath at he
    simpa using he
  have hpercent : '%' ∉ front ++ [e] := by
    intro hmem
    rcases List.mem_append.1 hmem with hmem | hmem
    · exact hf hmem
    · rw [← List.mem_singleton.1 hmem] at hcases
      exact absurd hcases (by decide)
  have hkept : Url.percentEncode inUrlSet [e] = [e] := by
    refine Url.percentEncode_self ?_
    intro c hc
    rw [List.mem_singleton.1 hc]
    rcases hcases with rfl | rfl <;> decide
  obtain ⟨t', ht'⟩ := hE (front ++ [e]) t hpercent
  rw [Url.percentEncode_append, hkept] at ht'
  refine ⟨e :: t', ?_, by simpa using ht'⟩
  intro c hc
  rw [List.head?_cons, Option.mem_some_iff] at hc
  rwa [← hc]

theorem web_url {scheme : String} (h : (Url.defaultPort scheme).isSome = true) :
    ∀ c ∈ scheme.toList, inUrlSet c = false ∧ c ≠ '%' := by
  unfold Url.defaultPort at h
  split at h
  all_goals first
    | exact Url.forall_chars (by decide)
    | cases h

theorem digit_url {c : Char} (h : c.isDigit = true) : inUrlSet c = false ∧ c ≠ '%' := by
  constructor
  · by_contra hc
    have hset : inUrlSet c = true := by simpa using hc
    have hbound : 48 ≤ c.toNat ∧ c.toNat ≤ 57 := by
      unfold Char.isDigit at h
      simp only [Bool.and_eq_true, decide_eq_true_eq] at h
      exact ⟨h.1, h.2⟩
    unfold inUrlSet Url.inC0Set at hset
    simp only [Bool.or_eq_true, decide_eq_true_eq] at hset
    rcases hset with (((((((hset | hset) | rfl) | rfl) | rfl) | rfl) | rfl) | rfl) | rfl
    · omega
    · omega
    all_goals exact absurd h (by decide)
  · rintro rfl
    exact absurd h (by decide)

theorem port_url (port : Option Nat) : ∀ c ∈ UrlRecord.portText port, inUrlSet c = false ∧ c ≠ '%' := by
  intro c hc
  cases port with
  | none => cases hc
  | some n =>
    rw [Url.portText_some] at hc
    rcases List.mem_cons.1 hc with rfl | hc
    · decide
    · exact digit_url (Nat.isDigit_of_mem_toDigits (by decide) (by decide) hc)

/-- An origin's text in front of a path goes out with its host encoded, no more. -/
theorem front_url {scheme : String} (hw : (Url.defaultPort scheme).isSome = true) (host : List Char) (port : Option Nat)
    {segs : List (List Char)} (hn : ∀ s ∈ segs, Url.NormalSegment s) :
    Url.percentEncode inUrlSet
        (scheme.toList ++ ':' :: '/' :: '/' :: (host ++ UrlRecord.portText port) ++ UrlRecord.joinSegments segs) =
      scheme.toList ++ ':' :: '/' :: '/' :: (Url.percentEncode inUrlSet host ++ UrlRecord.portText port) ++
        UrlRecord.joinSegments segs := by
  have hsplit : ':' :: '/' :: '/' :: (host ++ UrlRecord.portText port) =
      [':', '/', '/'] ++ (host ++ UrlRecord.portText port) := rfl
  have hslashes : Url.percentEncode inUrlSet [':', '/', '/'] = [':', '/', '/'] :=
    Url.percentEncode_self (Url.forall_chars (by decide))
  have hscheme : Url.percentEncode inUrlSet scheme.toList = scheme.toList :=
    Url.percentEncode_self fun c hc => (web_url hw c hc).1
  have hport : Url.percentEncode inUrlSet (UrlRecord.portText port) = UrlRecord.portText port :=
    Url.percentEncode_self fun c hc => (port_url port c hc).1
  rw [hsplit, Url.percentEncode_append, Url.percentEncode_append, Url.percentEncode_append, Url.percentEncode_append,
    hscheme, hslashes, hport, segments_url hn]
  rfl

/-! ## What the browser reads -/

section Reading

variable {H : HostParser} {encodeurl : String → String} {ui : Base} {allowedOrigins : List String}

/-- The path sent on is the one judged, on an origin of ours. -/
theorem stays_of_read {location : String} {url : UrlRecord} {segs : List (List Char)}
    (hread : UrlRecord.read H (some ui) location = some url) (hpath : url.path = .segments segs)
    (ho : url.origin H = ui.origin ∨ url.origin H ∈ allowedOrigins)
    (hseg : firstSegment (UrlRecord.joinSegments segs) ∉ NON_UI_PREFIXES) : StaysInUi H ui allowedOrigins location := by
  refine ⟨url, hread, ho, ?_⟩
  have hname : url.pathname = UrlRecord.joinSegments segs := by rw [UrlRecord.pathname, hpath]
  rwa [hname]

theorem onBase_origin (H : HostParser) (b : Base) (path : List (List Char)) (query : Option (List Char)) :
    (UrlRecord.onBase b path query).origin H = b.origin := UrlRecord.origin_web b.web

/-- A path of segments that does not start with two slashes. -/
theorem path_stays (hE : EncodesUrls encodeurl) {s : List Char} {segs : List (List Char)} (hs : s ≠ [] ∨ segs = [])
    (hn : ∀ t ∈ s :: segs, Url.NormalSegment t) (hpercent : '%' ∉ UrlRecord.joinSegments (s :: segs))
    (hseg : firstSegment (UrlRecord.joinSegments (s :: segs)) ∉ NON_UI_PREFIXES) {r : List Char} (hr : Url.Tail r)
    (hne : r ≠ []) :
    StaysInUi H ui allowedOrigins (encodeurl (String.ofList (UrlRecord.joinSegments (s :: segs) ++ r))) := by
  obtain ⟨r', hr', hlocation⟩ := location_text hE hpercent hr hne
  rw [segments_url hn] at hlocation
  obtain ⟨query, hread⟩ := UrlRecord.read_path H ui hs hn hr'
  rw [← hlocation] at hread
  exact stays_of_read hread rfl (.inl (onBase_origin H ui _ _)) hseg

/-- One that does is read as what stands behind them. -/
theorem slashes_stay_iff (hE : EncodesUrls encodeurl) {t : List Char} {segs : List (List Char)}
    (hn : ∀ s ∈ [] :: t :: segs, Url.NormalSegment s) (hpercent : '%' ∉ UrlRecord.joinSegments ([] :: t :: segs))
    {r : List Char} (hr : Url.Tail r) (hne : r ≠ []) :
    StaysInUi H ui allowedOrigins (encodeurl (String.ofList (UrlRecord.joinSegments ([] :: t :: segs) ++ r))) ↔
      NamesOurs H ui allowedOrigins (t :: segs) := by
  obtain ⟨r', hr', hlocation⟩ := location_text hE hpercent hr hne
  rw [segments_url hn] at hlocation
  obtain ⟨username, password, query, hread⟩ := UrlRecord.read_slashes H ui hn hr'
  rw [← hlocation] at hread
  constructor
  · rintro ⟨url, hurl, ho, hseg⟩
    obtain ⟨⟨hp, path⟩, hbehind, rfl⟩ := Option.map_eq_some_iff.1 (hread.symm.trans hurl)
    rw [UrlRecord.origin_web ui.web] at ho
    exact ⟨hp, path, hbehind, ho, hseg⟩
  · rintro ⟨hp, path, hbehind, ho, hseg⟩
    rw [hbehind] at hread
    refine stays_of_read hread rfl ?_ hseg
    rw [UrlRecord.origin_web ui.web]
    exact ho

/-- So a path put behind nothing stays exactly when its slashes are harmless. -/
theorem segments_stay_iff (hE : EncodesUrls encodeurl) {segs : List (List Char)} (hsegs : segs ≠ [])
    (hn : ∀ s ∈ segs, Url.NormalSegment s) (hpercent : '%' ∉ UrlRecord.joinSegments segs)
    (hseg : firstSegment (UrlRecord.joinSegments segs) ∉ NON_UI_PREFIXES) {r : List Char} (hr : Url.Tail r) (hne : r ≠ []) :
    StaysInUi H ui allowedOrigins (encodeurl (String.ofList (UrlRecord.joinSegments segs ++ r))) ↔
      SlashesHarmless H ui allowedOrigins segs := by
  obtain ⟨s, segs, rfl⟩ := List.exists_cons_of_ne_nil hsegs
  cases s with
  | cons c s =>
    have hstays : StaysInUi H ui allowedOrigins _ := path_stays hE (.inl (by simp)) hn hpercent hseg hr hne
    exact iff_of_true hstays trivial
  | nil =>
    cases segs with
    | nil =>
      have hstays : StaysInUi H ui allowedOrigins _ := path_stays hE (.inr rfl) hn hpercent hseg hr hne
      exact iff_of_true hstays trivial
    | cons t segs => exact slashes_stay_iff hE hn hpercent hr hne

theorem no_percent_front {scheme : String} (hw : (Url.defaultPort scheme).isSome = true) {host : List Char}
    (hhost : '%' ∉ host) (port : Option Nat) {segs : List (List Char)} (hpath : '%' ∉ UrlRecord.joinSegments segs) :
    '%' ∉ scheme.toList ++ ':' :: '/' :: '/' :: (host ++ UrlRecord.portText port) ++ UrlRecord.joinSegments segs := by
  intro hmem
  simp only [List.mem_append, List.mem_cons] at hmem
  rcases hmem with (hmem | hmem | hmem | hmem | hmem | hmem) | hmem
  · exact (web_url hw _ hmem).2 rfl
  · exact absurd hmem (by decide)
  · exact absurd hmem (by decide)
  · exact absurd hmem (by decide)
  · exact hhost hmem
  · exact (port_url port _ hmem).2 rfl
  · exact hpath hmem

/-- A web URL's origin, read again in front of another path. -/
theorem origin_text {url : UrlRecord} (hw : (Url.defaultPort url.scheme).isSome = true) {host : String}
    (hhost : url.host = some host) :
    (url.origin H).toList = url.scheme.toList ++ ':' :: '/' :: '/' :: (host.toList ++ UrlRecord.portText url.port) := by
  rw [UrlRecord.origin_web hw, hhost, Option.getD_some, UrlRecord.webOrigin_text]

/-- An origin of ours with a page of the UI behind it. -/
theorem origin_stays (hH : StandardHosts H) (hE : EncodesUrls encodeurl) {url : UrlRecord}
    (hw : (Url.defaultPort url.scheme).isSome = true) (hurl : UrlRecord.Normal H url)
    (ho : url.origin H ∈ allowedOrigins) {segs : List (List Char)} (hsegs : segs ≠ [])
    (hn : ∀ s ∈ segs, Url.NormalSegment s) (hpercent : '%' ∉ UrlRecord.joinSegments segs)
    (hseg : firstSegment (UrlRecord.joinSegments segs) ∉ NON_UI_PREFIXES) {r : List Char} (hr : Url.Tail r) (hne : r ≠ []) :
    StaysInUi H ui allowedOrigins
      (encodeurl (String.ofList ((url.origin H).toList ++ UrlRecord.joinSegments segs ++ r))) := by
  obtain ⟨host, hhost, text, htext⟩ := hurl.host
  obtain ⟨hostText, hclean⟩ := hH.text text host htext
  have hfront := origin_text (H := H) hw hhost
  obtain ⟨r', hr', hlocation⟩ := location_text hE (no_percent_front hw hclean url.port hpercent) hr hne
  rw [front_url hw _ _ hn, ← hfront] at hlocation
  have hdecoded : H true (Url.percentEncode inUrlSet host.toList) = some host :=
    (hH.decodes _ hclean).trans (hH.again text host htext)
  obtain ⟨query, hread⟩ := UrlRecord.read_origin H (some ui) hw (hostText.encode (by decide) (by decide)) hdecoded
    hurl.port hn hr'
  rw [← hlocation] at hread
  rw [UrlRecord.origin_web hw, hhost] at ho
  refine stays_of_read hread (by rw [if_neg hsegs]) (.inr ?_) hseg
  rw [UrlRecord.origin_web]
  · exact ho
  · exact hw

end Reading

/-! ## What the endpoint sends -/

section Sending

variable {H : HostParser} {encodeurl : String → String} {env : Env} {allowedOrigins : List String} {now : Nat}

/-- What an accepted text is read as, and what is sent on of it. -/
structure Accepted (H : HostParser) (allowedOrigins : List String) (to_ target : String) (url : UrlRecord) : Prop where
  read : UrlRecord.read H (some resumeInvalid) to_ = some url
  ours : isRelative H url to_ = true ∨ url.origin H ∈ allowedOrigins
  noPercent : '%' ∉ url.pathname
  page : firstSegment url.pathname ∉ NON_UI_PREFIXES
  target : target.toList =
    (if isRelative H url to_ then [] else (url.origin H).toList) ++ (url.pathname ++ url.search)

theorem accepted_of {to_ target : String} (h : safeResumeTarget H to_ allowedOrigins = some target) :
    ∃ url, Accepted H allowedOrigins to_ target url := by
  unfold safeResumeTarget at h
  split at h
  · cases h
  obtain ⟨url, hread, h⟩ := Option.bind_eq_some_iff.1 h
  dsimp only at h
  split at h
  · cases h
  rename_i hours
  split at h
  · cases h
  split at h
  · cases h
  rename_i hpercent
  split at h
  · cases h
  rename_i hpage
  injection h with h
  refine ⟨url, hread, ?_, hpercent, hpage, ?_⟩
  · by_contra hno
    rw [not_or] at hno
    exact hours ⟨Bool.eq_false_iff.2 hno.1, hno.2⟩
  · rw [← h]
    split
    · exact String.toList_ofList
    · rw [String.toList_append, String.toList_ofList]

theorem search_tail (url : UrlRecord) : Url.Tail url.search := by
  unfold UrlRecord.search
  split <;> simp [Url.Tail, Url.endsPath]

/-- A redirect goes to the target with the token behind it, or to the login page. -/
theorem resumeHandler_spec {to_ target : String} (hsafe : safeResumeTarget H to_ allowedOrigins = some target)
    {req : Request} {s : State} {redirect : Redirect}
    (h : (resumeHandler H encodeurl env allowedOrigins now (.text to_) req s).1 = .ok redirect) :
    ∃ login, loginUrl H target = some login ∧
      ((HasSession env now req s ∧ ∃ token : String, redirect.location = encodeurl (target ++ "#cg_ct=" ++ token)) ∨
        (¬HasSession env now req s ∧ redirect.location = encodeurl login)) := by
  have htarget : (QueryValue.text to_).target H allowedOrigins = some target := hsafe
  have hspec : wp (resumeHandler H encodeurl env allowedOrigins now (.text to_) req)
      (fun redirect _ => ∃ login, loginUrl H target = some login ∧
        ((HasSession env now req s ∧ ∃ token : String, redirect.location = encodeurl (target ++ "#cg_ct=" ++ token)) ∨
          (¬HasSession env now req s ∧ redirect.location = encodeurl login))) (fun _ _ => True) s := by
    unfold resumeHandler
    simp only [htarget, Option.getD_some, wp_bind, wp_require, wp_orThrow, wp_attempt, and_true, implies_true]
    intro _ login hlogin
    unfold wp
    rcases hrun : authenticateRequest env now { skipClientToken := true } req s with ⟨e | user, t⟩
    · have hno : ¬HasSession env now req s := by
        rintro ⟨⟨user, t', hok⟩, -⟩
        rw [hrun] at hok
        cases hok
      exact ⟨login, hlogin, .inr ⟨hno, rfl⟩⟩
    · cases hcookie : cookieToken req with
      | none =>
        have hno : ¬HasSession env now req s := by
          rintro ⟨-, hsome⟩
          rw [hcookie] at hsome
          cases hsome
        exact ⟨login, hlogin, .inr ⟨hno, rfl⟩⟩
      | some jwt =>
        have hyes : HasSession env now req s := ⟨⟨user, t, hrun⟩, by rw [hcookie]; rfl⟩
        exact ⟨login, hlogin, .inl ⟨hyes, _, rfl⟩⟩
  exact wp_outcome_ok hspec h

/-! ## The condition is exact -/

theorem tail_append {q r : List Char} (hq : Url.Tail q) (hr : Url.Tail r) : Url.Tail (q ++ r) := by
  cases q with
  | nil => exact hr
  | cons c q => exact hq

theorem resumeInvalid_normal (hH : StandardHosts H) : UrlRecord.NormalBase H resumeInvalid := by
  refine ⟨⟨_, hH.resume⟩, ?_, by simp [resumeInvalid], ?_⟩
  · intro n hn
    cases hn
  · intro s hs
    rw [List.mem_singleton.1 hs]
    exact Url.NormalSegment.nil

/-- What is accepted with a path of segments is a web URL, or has an opaque origin. -/
theorem accepted_normal (hH : StandardHosts H) {to_ target : String} {url : UrlRecord}
    (h : Accepted H allowedOrigins to_ target url) {segs : List (List Char)} (hpath : url.path = .segments segs)
    (hw : (Url.defaultPort url.scheme).isSome = true) :
    UrlRecord.Normal H url ∧ segs ≠ [] ∧ (∀ s ∈ segs, Url.NormalSegment s) ∧ '%' ∉ UrlRecord.joinSegments segs ∧
      firstSegment (UrlRecord.joinSegments segs) ∉ NON_UI_PREFIXES := by
  have hbase : ∀ b ∈ some resumeInvalid, UrlRecord.NormalBase H b := by
    intro b hb
    rw [Option.mem_some_iff] at hb
    rw [← hb]
    exact resumeInvalid_normal hH
  have hnormal := UrlRecord.read_normal hbase h.read hw
  obtain ⟨segs', hpath', hne, hn⟩ := hnormal.path
  rw [hpath] at hpath'
  injection hpath' with hsegs
  subst hsegs
  have hname : url.pathname = UrlRecord.joinSegments segs := by rw [UrlRecord.pathname, hpath]
  have hpercent := h.noPercent
  have hpage := h.page
  rw [hname] at hpercent hpage
  exact ⟨hnormal, hne, hn, hpercent, hpage⟩

theorem fragment_text (target token : String) :
    target ++ "#cg_ct=" ++ token = String.ofList (target.toList ++ ('#' :: ("cg_ct=".toList ++ token.toList))) := by
  refine String.toList_inj.1 ?_
  rw [String.toList_append, String.toList_append, String.toList_ofList]
  simp

theorem login_text (front redirect : String) :
    front ++ "/login?redirect=" ++ redirect =
      String.ofList (front.toList ++ UrlRecord.joinSegments ["login".toList] ++
        ('?' :: ("redirect=".toList ++ redirect.toList))) := by
  refine String.toList_inj.1 ?_
  rw [String.toList_append, String.toList_append, String.toList_ofList]
  simp [UrlRecord.joinSegments]

theorem login_normal : ∀ s ∈ ["login".toList], Url.NormalSegment s := by
  intro s hs
  rw [List.mem_singleton.1 hs]
  exact ⟨Url.forall_chars (by decide), by decide, by decide⟩

theorem tail_at (e : Char) (t : List Char) (he : Url.endsPath e = true) : Url.Tail (e :: t) := by
  intro c hc
  rw [List.head?_cons, Option.mem_some_iff] at hc
  rwa [← hc]

/-- A relative target: with a session its slashes decide, without one it is the login page. -/
theorem relative_stays_iff (hH : StandardHosts H) (hE : EncodesUrls encodeurl) {to_ target : String} {url : UrlRecord}
    (h : Accepted H allowedOrigins to_ target url) {segs : List (List Char)} (hpath : url.path = .segments segs)
    (hrel : isRelative H url to_ = true) {req : Request} {s : State} {ui : Base} {redirect : Redirect}
    (hsafe : safeResumeTarget H to_ allowedOrigins = some target)
    (hsent : (resumeHandler H encodeurl env allowedOrigins now (.text to_) req s).1 = .ok redirect) :
    StaysInUi H ui allowedOrigins redirect.location ↔
      (HasSession env now req s → SlashesHarmless H ui allowedOrigins segs) := by
  have hw : (Url.defaultPort url.scheme).isSome = true := by
    by_contra hw
    rw [isRelative, UrlRecord.origin_segments hpath hw] at hrel
    simp [resumeBase] at hrel
  obtain ⟨-, hne, hn, hpercent, hpage⟩ := accepted_normal hH h hpath hw
  have hname : url.pathname = UrlRecord.joinSegments segs := by rw [UrlRecord.pathname, hpath]
  have htarget := h.target
  rw [if_pos hrel, hname, List.nil_append] at htarget
  have hslash : Text.startsWith target "/" = true := by
    obtain ⟨cs, hcs⟩ := UrlRecord.joinSegments_slash hne
    rw [Text.startsWith, htarget, hcs]
    rfl
  obtain ⟨login, hlogin, ⟨hses, token, hloc⟩ | ⟨hses, hloc⟩⟩ := resumeHandler_spec hsafe hsent
  · have htail : Url.Tail (url.search ++ '#' :: ("cg_ct=".toList ++ token.toList)) :=
      tail_append (search_tail url) (tail_at _ _ rfl)
    rw [hloc, fragment_text, htarget, List.append_assoc, segments_stay_iff hE hne hn hpercent hpage htail (by simp)]
    exact ⟨fun hours _ => hours, fun hours => hours hses⟩
  · have hform : login = "" ++ "/login?redirect=" ++ Url.encodeURIComponent target := by
      rw [loginUrl, if_pos hslash] at hlogin
      injection hlogin with hlogin
      rw [← hlogin]
      rfl
    have hstays : StaysInUi H ui allowedOrigins _ := path_stays hE (.inr rfl) login_normal (by decide) (by decide)
      (tail_at '?' ("redirect=".toList ++ (Url.encodeURIComponent target).toList) rfl) (by simp)
    rw [hloc, hform, login_text]
    exact iff_of_true hstays fun hyes => absurd hyes hses

theorem not_slash_start {target : String} (h : ∀ c ∈ target.toList.head?, c ≠ '/') :
    Text.startsWith target "/" = false := by
  rw [Bool.eq_false_iff]
  intro hs
  obtain ⟨t, ht⟩ := List.isPrefixOf_iff_prefix.1 hs
  rw [← ht] at h
  exact h '/' rfl rfl

/-- A target of segments behind an opaque origin is no URL, and nothing is sent. -/
theorem loginUrl_null (H : HostParser) {target : String} {segs : List (List Char)} {url : UrlRecord}
    (ht : target.toList = "null".toList ++ (UrlRecord.joinSegments segs ++ url.search)) : loginUrl H target = none := by
  have hends : ∀ c ∈ (UrlRecord.joinSegments segs ++ url.search).head?, Url.ends c = true :=
    UrlRecord.tail_ends (search_tail url)
  have hnone : UrlRecord.read H none target = none := by
    rw [UrlRecord.read, ht]
    exact UrlRecord.read_name_alone H (by simp) (Url.forall_chars (by decide)) hends
  rw [loginUrl, not_slash_start (by rw [ht]; simp), hnone]
  rfl

/-- A web URL's text reads as one of its origin, so the login page is on it. -/
theorem loginUrl_origin (hH : StandardHosts H) {target : String} {url : UrlRecord}
    (hw : (Url.defaultPort url.scheme).isSome = true) (hurl : UrlRecord.Normal H url) {segs : List (List Char)}
    (hn : ∀ s ∈ segs, Url.NormalSegment s)
    (ht : target.toList = (url.origin H).toList ++ (UrlRecord.joinSegments segs ++ url.search)) :
    ∃ redirect, loginUrl H target = some (url.origin H ++ "/login?redirect=" ++ redirect) := by
  obtain ⟨host, hhost, text, htext⟩ := hurl.host
  have hfront : (url.origin H).toList = _ := origin_text hw hhost
  obtain ⟨query, hread⟩ := UrlRecord.read_origin H none hw (hH.text text host htext).1 (hH.again text host htext)
    hurl.port hn (search_tail url)
  rw [← hfront, List.append_assoc, ← ht] at hread
  have hstart : Text.startsWith target "/" = false := by
    refine not_slash_start ?_
    rw [ht, hfront]
    intro c hc hslash
    obtain ⟨⟨d, hd, halpha⟩, -⟩ := (UrlRecord.web_scheme hw).1
    rw [Option.mem_def] at hd hc
    rw [List.append_assoc, List.head?_append, hd, Option.some_or] at hc
    injection hc with hdc
    rw [hdc, hslash] at halpha
    exact absurd halpha (by decide)
  have hsame : UrlRecord.origin H
      { scheme := url.scheme, host := some host, port := url.port,
        path := .segments (if segs = [] then [[]] else segs), query := query } = url.origin H := by
    rw [UrlRecord.origin_web hw, hhost]
    exact UrlRecord.origin_web hw
  rw [loginUrl, hstart, UrlRecord.read, hread, if_neg (by simp), Option.map_some, hsame]
  exact ⟨_, rfl⟩

theorem absolute_stays (hH : StandardHosts H) (hE : EncodesUrls encodeurl) {to_ target : String} {url : UrlRecord}
    (h : Accepted H allowedOrigins to_ target url) {segs : List (List Char)} (hpath : url.path = .segments segs)
    (hrel : ¬isRelative H url to_ = true) {req : Request} {s : State} {ui : Base} {redirect : Redirect}
    (hsafe : safeResumeTarget H to_ allowedOrigins = some target)
    (hsent : (resumeHandler H encodeurl env allowedOrigins now (.text to_) req s).1 = .ok redirect) :
    StaysInUi H ui allowedOrigins redirect.location := by
  have ho := h.ours.resolve_left hrel
  have hname : url.pathname = UrlRecord.joinSegments segs := by rw [UrlRecord.pathname, hpath]
  have htarget := h.target
  rw [if_neg hrel, hname] at htarget
  obtain ⟨login, hlogin, hsent⟩ := resumeHandler_spec hsafe hsent
  by_cases hw : (Url.defaultPort url.scheme).isSome = true
  · obtain ⟨hnormal, hne, hn, hpercent, hpage⟩ := accepted_normal hH h hpath hw
    rcases hsent with ⟨-, token, hloc⟩ | ⟨-, hloc⟩
    · have htail : Url.Tail (url.search ++ '#' :: ("cg_ct=".toList ++ token.toList)) :=
        tail_append (search_tail url) (tail_at _ _ rfl)
      have hstays : StaysInUi H ui allowedOrigins _ :=
        origin_stays hH hE hw hnormal ho hne hn hpercent hpage htail (by simp)
      rw [hloc, fragment_text, htarget]
      simpa using hstays
    · obtain ⟨redirect, hform⟩ := loginUrl_origin hH hw hnormal hn htarget
      rw [hlogin] at hform
      injection hform with hform
      have hstays : StaysInUi H ui allowedOrigins _ := origin_stays hH hE hw hnormal ho (by simp) login_normal (by decide)
        (by decide) (tail_at '?' ("redirect=".toList ++ redirect.toList) rfl) (by simp)
      rw [hloc, hform, login_text]
      exact hstays
  · rw [UrlRecord.origin_segments hpath hw] at htarget
    rw [loginUrl_null H htarget] at hlogin
    cases hlogin

/-- Where `safeResumeTarget` accepts `to_`, what the endpoint sends stays in the UI exactly
    when `KeepsToUi` says so. An opaque path is put behind an origin with nothing between
    them; what that comes to is left open. -/
theorem resume_stays_in_ui_iff (hH : StandardHosts H) (hE : EncodesUrls encodeurl) (ui : Base) {to_ target : String}
    (hsafe : safeResumeTarget H to_ allowedOrigins = some target) {req : Request} {s : State} {redirect : Redirect}
    (hsent : (resumeHandler H encodeurl env allowedOrigins now (.text to_) req s).1 = .ok redirect) :
    (KeepsToUi H ui allowedOrigins to_ (HasSession env now req s) → StaysInUi H ui allowedOrigins redirect.location) ∧
      (StaysInUi H ui allowedOrigins redirect.location →
        KeepsToUi H ui allowedOrigins to_ (HasSession env now req s) ∨ HasOpaquePath H to_) := by
  obtain ⟨url, h⟩ := accepted_of hsafe
  constructor
  · rintro ⟨url', segs, hread, hpath, hkeeps⟩
    obtain rfl : url = url' := Option.some.inj (h.read.symm.trans hread)
    by_cases hrel : isRelative H url to_ = true
    · exact (relative_stays_iff hH hE h hpath hrel hsafe hsent).2 fun hses => hkeeps hses hrel
    · exact absolute_stays hH hE h hpath hrel hsafe hsent
  · intro hstays
    cases hpath : url.path with
    | flat text => exact .inr ⟨url, text, h.read, hpath⟩
    | segments segs =>
      left
      refine ⟨url, segs, h.read, hpath, ?_⟩
      intro hses hrel
      exact (relative_stays_iff hH hE h hpath hrel hsafe hsent).1 hstays hses

end Sending

namespace Resuming

def hostChars : List Char := "abcdefghijklmnopqrstuvwxyz0123456789.-".toList

/-- Domains in lower case, as they stand. -/
def hosts : HostParser := fun _ text =>
  if text ≠ [] ∧ text.all hostChars.contains = true then some (String.ofList text) else none

def encodeurl (s : String) : String := String.ofList (Url.percentEncode inUrlSet s.toList)

theorem hostChars_plain : ∀ c ∈ hostChars, (Url.isC0OrSpace c = false ∧ Url.ends c = false ∧ c ≠ '@') ∧
    (c ≠ ':' ∧ c ≠ '[') ∧ c ≠ '%' ∧ inUrlSet c = false := Url.forall_chars (by decide)

theorem hosts_some {text : List Char} {host : String} (h : hosts true text = some host) :
    host.toList = text ∧ text ≠ [] ∧ ∀ c ∈ text, c ∈ hostChars := by
  unfold hosts at h
  split at h
  · rename_i hall
    injection h with h
    rw [← h]
    exact ⟨String.toList_ofList, hall.1, by simpa using hall.2⟩
  · cases h

theorem hosts_standard : StandardHosts hosts := by
  refine ⟨?_, ?_, ?_, by decide⟩
  · intro text host h
    rw [(hosts_some h).1]
    exact h
  · intro text host h
    obtain ⟨htext, hne, hall⟩ := hosts_some h
    rw [htext]
    have hplain := fun c hc => hostChars_plain c (hall c hc)
    exact ⟨⟨hne, fun c hc => (hplain c hc).1, .inl fun c hc => (hplain c hc).2.1⟩, fun hc => (hplain _ hc).2.2.1 rfl⟩
  · intro text _
    by_cases hall : ∀ c ∈ text, c ∈ hostChars
    · rw [Url.percentEncode_self fun c hc => (hostChars_plain c (hall c hc)).2.2.2]
    · have hencoded : ¬∀ c ∈ Url.percentEncode inUrlSet text, c ∈ hostChars := by
        intro hmem
        refine hall fun c hc => ?_
        cases hset : inUrlSet c with
        | false => exact hmem c (Url.kept_mem hc hset)
        | true => exact absurd rfl (hostChars_plain _ (hmem _ (Url.percent_mem hc hset))).2.2.1
      have hnone : ∀ cs : List Char, ¬(∀ c ∈ cs, c ∈ hostChars) → hosts true cs = none := by
        intro cs hcs
        refine if_neg fun h => hcs ?_
        simpa using h.2
      rw [hnone _ hencoded, hnone _ hall]

theorem encodeurl_encodes : EncodesUrls encodeurl := by
  intro front rest _
  refine ⟨Url.percentEncode inUrlSet rest, ?_⟩
  rw [encodeurl, String.toList_ofList, String.toList_ofList, Url.percentEncode_append]

def env : Env where
  bcryptCompare password hash := password = hash
  bcryptHash password := password
  totpValidate _ _ _ _ := false
  deriveClientToken _ := "mac"
  isEmail email := Text.includes email "@"
  jwtExpiresIn := 604800
  tokenLifetimeMs := 604800000
  apiClientTokenRequired := none

def admin : User where
  email := "admin@corp.example"
  passwordHash := "Correct-Horse-1"
  name := "Admin"
  role := .ADMIN
  isActive := true

def claims : Claims where
  userId := "u1"
  tokenVersion := some 0
  sid := some "s1"
  iat := 1000
  exp := 605800

def state : State :=
  { users := Table.empty.insert "u1" admin
    sessions := Table.empty.insert "s1" (newSession env 1000000 "u1" {})
    invites := Table.empty
    lastTouch := Table.empty
    minted := [⟨claims, none⟩]
    passed := []
    nextLogin := 0 }

/-- The browser's own navigation, with the session's cookie. -/
def request : Request :=
  { method := "GET", cookies := [("cg_session", .signed claims)], secFetchMode := some "navigate",
    secFetchDest := some "document" }

def ui : Base := ⟨"https", "ui.example.com", none, [[]], none, rfl⟩

def sent (to_ : String) : Except Err Redirect :=
  (resumeHandler hosts encodeurl env ["https://ui.example.com"] 1002000 (.text to_) request state).1

end Resuming

/-- The dashboard stays. -/
theorem the_dashboard_stays :
    Resuming.sent "/dashboard" = .ok ⟨"/dashboard#cg_ct=mac", false⟩ ∧
      StaysInUi Resuming.hosts Resuming.ui ["https://ui.example.com"] "/dashboard#cg_ct=mac" := by
  have hsent : Resuming.sent "/dashboard" = .ok ⟨"/dashboard#cg_ct=mac", false⟩ := by decide
  have hsafe : safeResumeTarget Resuming.hosts "/dashboard" ["https://ui.example.com"] = some "/dashboard" := by decide
  refine ⟨hsent, (resume_stays_in_ui_iff Resuming.hosts_standard Resuming.encodeurl_encodes Resuming.ui hsafe hsent).1 ?_⟩
  exact ⟨UrlRecord.onBase resumeInvalid ["dashboard".toList] none, _, by decide, rfl, fun _ _ => trivial⟩

/-- With the dot segment gone the path starts with two slashes. -/
theorem a_dot_segment_hides_another_host :
    ¬∀ (H : HostParser) (encodeurl : String → String) (env : Env) (ui : Base) (allowedOrigins : List String) (now : Nat)
        (to_ target : String) (req : Request) (s : State) (redirect : Redirect),
      StandardHosts H → EncodesUrls encodeurl → safeResumeTarget H to_ allowedOrigins = some target →
        (resumeHandler H encodeurl env allowedOrigins now (.text to_) req s).1 = .ok redirect →
          StaysInUi H ui allowedOrigins redirect.location := by
  intro h
  have hsafe : safeResumeTarget Resuming.hosts "/.//evil.com/x" ["https://ui.example.com"] = some "//evil.com/x" := by decide
  have hsent : Resuming.sent "/.//evil.com/x" = .ok ⟨"//evil.com/x#cg_ct=mac", false⟩ := by decide
  obtain ⟨url, hread, ho, -⟩ := h _ _ _ Resuming.ui _ _ _ _ _ _ _ Resuming.hosts_standard Resuming.encodeurl_encodes hsafe
    hsent
  have hurl : UrlRecord.read Resuming.hosts (some Resuming.ui) "//evil.com/x#cg_ct=mac" =
      some { scheme := "https", host := some "evil.com", path := .segments ["x".toList], query := none } := by decide
  rw [hurl] at hread
  injection hread with hread
  rw [← hread] at ho
  exact absurd ho (by decide)

end ClusterGate.Auth
