/-
  ClusterGate.Proxy.Origin — where the URL of a proxied request points
  (`services/proxyService.ts`: `proxyRequest`, from the selected target on).

  The URL is glued: the target without one slash at its end, the path of the request
  behind it, all of that up to the first question mark, and the query. The intent is that
  scheme, host and port are the target's. A target is one `assertTargetAllowed` lets
  through, as every write of one checks, and the host parser refuses blanks.

  Nothing puts a slash between target and path. A path without one in front goes on with
  the host, or the port, or turns the host into credentials:
  - `origin_confined`: the URL keeps the target's origin exactly when the target has
    something behind its authority, or the path starts with a slash and the target has no
    blank at its end (`SlashBehind`), or what stands in front of the path's first slash
    happens to leave host and port as they are.
  - `a_lone_slash_reaches_another_host`: at `/r/`, `/.evil.com` goes to
    `http://upstream.evil.com`.
-/

import ClusterGate.Lib.UrlJoin
import ClusterGate.Proxy.TargetPath
import ClusterGate.Target.Policy

namespace ClusterGate

open Lib Lib.Text

/-- `resolvedUrl` of `proxyRequest`; a request without parameters has no query. -/
def resolvedUrl (selectedTargetUrl targetPath : String) (params : Option String) : String :=
  let fullTargetUrl := targetBase selectedTargetUrl ++ targetPath
  let qs := match params with
    | none => ""
    | some encoded => "?" ++ encoded
  (split fullTargetUrl '?').headD "" ++ qs

def SameOrigin (W : World) (url target : String) : Prop :=
  ∃ o, (W.url url).map Url.origin = some o ∧ (W.url target).map Url.origin = some o

/-! ## The condition -/

/-- What the first rule that takes the sub-path makes of it. -/
def Row.rewriteOf (W : World) (route : Row) (path : String) : Option String :=
  let below := proxySuffix route.publicPath ("/r" ++ path)
  ((rewriteRulesOf (route.val .rewriteRules)).find? fun rule => isSafeRegex W rule.1 && W.regexTest rule.1 below).map
    fun rule => W.regexReplace rule.1 below rule.2

/-- A slash, a backslash or a hash. -/
def OpensPath (text : String) : Prop := ∃ e ∈ text.toList.head?, Url.ends e = true ∧ e ≠ '?'

/-- The path sent on starts with a slash: it is stripped, or a rule's replacement does, or
    a slash follows the base. -/
def SlashBehind (W : World) (route : Row) (path : String) : Prop :=
  route.flag .stripPrefix = true ∨
    match route.rewriteOf W path with
    | some text => OpensPath text
    | none => HttpCutsMeet route.publicPath path

/-- The target has a path, a query or a fragment. -/
def AuthorityClosed (target : String) : Prop :=
  ∃ scheme body, Url.Web (targetBase target).toList scheme body ∧ Url.authority body ≠ body

/-- The target has no blank at its end. -/
def EndsClean (target : String) : Prop :=
  Url.trail (Url.lead (targetBase target).toList) = Url.lead (targetBase target).toList

/-- Otherwise: what a rule makes of the path, or the path without its base. -/
def bareText (W : World) (route : Row) (path : String) : String :=
  (route.rewriteOf W path).getD (slice path (routeBase route.publicPath).length)

/-- A query's text. -/
def queryText (params : Option String) : List Char :=
  match params with
  | none => []
  | some encoded => '?' :: encoded.toList

/-- What stands in front of the text's first slash makes no difference behind the target. -/
def GluesHarmlessly (W : World) (target text : String) (params : Option String) : Prop :=
  SameOrigin W (targetBase target ++
    String.ofList (Url.upToEnd (text.toList.takeWhile (· ≠ '?') ++ queryText params))) target

def Confined (W : World) (route : Row) (target path : String) (params : Option String) : Prop :=
  AuthorityClosed target ∨ (SlashBehind W route path ∧ EndsClean target) ∨
    (¬SlashBehind W route path ∧ GluesHarmlessly W target (bareText W route path) params)

/-! ## The text of the URL -/

theorem splitOn_head (c : Char) (cs : List Char) : (cs.splitOn c).head? = some (cs.takeWhile (· ≠ c)) := by
  induction cs with
  | nil => rfl
  | cons d cs ih =>
    rw [List.splitOn_cons_eq_if_modifyHead]
    by_cases hd : d = c
    · subst hd
      simp
    · rw [if_neg (by simpa using hd), List.takeWhile_cons_of_pos (by simpa using hd)]
      obtain ⟨x, l, hx⟩ := List.exists_cons_of_ne_nil (List.splitOn_ne_nil c cs)
      rw [hx] at ih ⊢
      injection ih with ih
      rw [← ih]
      rfl

theorem resolvedUrl_text (target targetPath : String) (params : Option String) :
    (resolvedUrl target targetPath params).toList =
      ((targetBase target).toList ++ targetPath.toList).takeWhile (· ≠ '?') ++ queryText params := by
  have hhead : ((split (targetBase target ++ targetPath) '?').headD "").toList =
      ((targetBase target).toList ++ targetPath.toList).takeWhile (· ≠ '?') := by
    rw [split, List.headD_eq_head?_getD, List.head?_map, splitOn_head, String.toList_append]
    exact String.toList_ofList
  unfold resolvedUrl
  dsimp only
  rw [String.toList_append, hhead]
  cases params with
  | none => rfl
  | some encoded =>
    rw [String.toList_append]
    rfl

theorem targetBase_text (target : String) :
    target.toList = (targetBase target).toList ∨ target.toList = (targetBase target).toList ++ ['/'] := by
  unfold targetBase
  by_cases hs : endsWith target "/" = true
  · right
    obtain ⟨t, ht⟩ := List.isSuffixOf_iff_suffix.1 hs
    have ht' : target.toList = t ++ ['/'] := ht.symm
    rw [if_pos hs, sliceEnd, String.toList_ofList, ht']
    simp [List.rdrop]
  · rw [if_neg hs]
    exact .inl rfl

theorem applyRewrites_find (W : World) (rules : List (String × String)) (p : String) :
    applyRewrites W rules p =
      ((rules.find? fun rule => isSafeRegex W rule.1 && W.regexTest rule.1 p).map fun rule =>
        W.regexReplace rule.1 p rule.2).getD p := by
  induction rules with
  | nil => rfl
  | cons rule rules ih =>
    obtain ⟨from_, to_⟩ := rule
    unfold applyRewrites
    by_cases hr : (isSafeRegex W from_ && W.regexTest from_ p) = true
    · simp only [hr, if_true, List.find?_cons, Option.map_some, Option.getD_some]
    · simp only [hr, List.find?_cons, ih]
      simp

/-- A sub-path starts with a slash if the cuts meet, and is the bare path otherwise. -/
theorem proxySuffix_cases {p : String} (h : UnderRoutes p) (path : String) :
    (HttpCutsMeet p path ∧ ∃ t, (proxySuffix p ("/r" ++ path)).toList = '/' :: t) ∨
      (¬HttpCutsMeet p path ∧ proxySuffix p ("/r" ++ path) = slice path (routeBase p).length) := by
  rw [proxySuffix_base h]
  unfold HttpCutsMeet
  by_cases hpre : routeBase p <+: path.toList
  · rw [if_pos hpre]
    have hdrop : (slice path (routeBase p).length).toList = path.toList.drop (routeBase p).length := String.toList_ofList
    by_cases hcut : path.toList = routeBase p ∨ routeBase p ++ ['/'] <+: path.toList
    · refine .inl ⟨fun _ => hcut, ?_⟩
      rcases hcut with he | ⟨t, ht⟩
      · rw [he, List.drop_length] at hdrop
        refine ⟨[], ?_⟩
        rw [orBase, if_pos (String.toList_eq_nil_iff.1 hdrop)]
        rfl
      · rw [← ht, List.append_assoc, List.drop_left] at hdrop
        refine ⟨t, ?_⟩
        rw [orBase, if_neg, hdrop]
        · rfl
        · intro he
          rw [he] at hdrop
          cases hdrop
    · refine .inr ⟨fun hm => hcut (hm hpre), ?_⟩
      rw [orBase, if_neg]
      intro he
      rw [he] at hdrop
      obtain ⟨t, ht⟩ := hpre
      rw [← ht, List.drop_left] at hdrop
      exact hcut (.inl (by rw [← ht, ← hdrop, String.toList_empty, List.append_nil]))
  · rw [if_neg hpre]
    refine .inl ⟨fun hp => absurd hp hpre, 'r' :: path.toList, ?_⟩
    rw [String.toList_append]
    rfl

/-- The path sent on. -/
theorem targetPath_cases (W : World) {route : Row} (h : UnderRoutes route.publicPath) (path : String) :
    (SlashBehind W route path ∧ OpensPath (route.targetPath W path)) ∨
      (¬SlashBehind W route path ∧ route.targetPath W path = bareText W route path) := by
  have hslash : OpensPath "/" := ⟨'/', rfl, by decide⟩
  unfold Row.targetPath SlashBehind
  by_cases hs : route.flag .stripPrefix = true
  · rw [if_pos hs]
    exact .inl ⟨.inl hs, hslash⟩
  rw [if_neg hs, applyRewrites_find]
  show (_ ∧ OpensPath ((route.rewriteOf W path).getD _)) ∨ (_ ∧ (route.rewriteOf W path).getD _ = _)
  unfold bareText
  cases hr : route.rewriteOf W path with
  | some text =>
    rw [Option.getD_some, Option.getD_some]
    by_cases ho : OpensPath text
    · exact .inl ⟨.inr ho, ho⟩
    · exact .inr ⟨fun h => h.elim hs ho, rfl⟩
  | none =>
    rw [Option.getD_none, Option.getD_none]
    rcases proxySuffix_cases h path with ⟨hm, t, ht⟩ | ⟨hm, he⟩
    · refine .inl ⟨.inr hm, '/', ?_, by decide⟩
      rw [ht]
      rfl
    · exact .inr ⟨fun h => h.elim hs hm, he⟩

/-! ## The join -/

open Url in
/-- The authority of a body is not empty if what the parser makes of it is not. -/
theorem authority_of_trail {body : List Char} (h : authority (trail body) ≠ []) : authority body ≠ [] := by
  obtain ⟨t, ht⟩ := trail_of body
  intro hnil
  cases hb : trail body with
  | nil =>
    rw [hb] at h
    exact h rfl
  | cons c rest =>
    rw [hb] at h ht
    have hc : ends c = true := by
      by_contra hc
      rw [← ht, List.cons_append, authority, List.takeWhile_cons_of_pos (by simpa using hc)] at hnil
      cases hnil
    have hno : ∀ x ∈ ([] : List Char), ends x = false := fun x hx => by cases hx
    exact h (authority_at hno hc)

open Url in
/-- An allowed target, as it is read without its last slash. -/
theorem target_web {W : World} {target : String} {policy : Option OrgTargetPolicy}
    (h : assertTargetAllowed W target policy = none) :
    ∃ scheme body slash hp, Web (targetBase target).toList scheme body ∧ body ≠ [] ∧ (slash = [] ∨ slash = ['/']) ∧
      parseAuthority W.hostParser true scheme (authority (trail (body ++ slash))) = some hp ∧
      (W.url target).map origin = some ⟨scheme, some hp.1, hp.2⟩ := by
  obtain ⟨u, hu, hscheme⟩ := assertTargetAllowed_http h
  obtain ⟨body, hweb, hauth⟩ := web_of_parse hu hscheme
  obtain ⟨hp, hparse, hurl⟩ := Option.map_eq_some_iff.1 hauth
  have horigin : (W.url target).map origin = some ⟨u.scheme, some hp.1, hp.2⟩ := by
    rw [hu, ← hurl]
    rfl
  have hne : authority body ≠ [] := by
    refine authority_of_trail ?_
    intro hnil
    unfold authority ends at hnil
    rw [hnil] at hparse
    cases hparse
  rcases targetBase_text target with ht | ht
  · rw [ht] at hweb
    refine ⟨u.scheme, body, [], hp, hweb, ?_, .inl rfl, by rw [List.append_nil]; exact hparse, horigin⟩
    intro hnil
    rw [hnil] at hne
    exact hne rfl
  · rw [ht] at hweb
    obtain ⟨b, hb, hbne, hwebb⟩ := hweb.before (by decide) hne (.inr rfl)
    refine ⟨u.scheme, b, ['/'], hp, hwebb, hbne, .inr rfl, ?_, horigin⟩
    have hb' : b ++ ['/'] = body := by rw [hb]; rfl
    rw [hb']
    exact hparse

open Url in
theorem no_question_before {cs : List Char} {scheme : String} {body : List Char} (h : Web cs scheme body)
    (hopen : authority body = body) : '?' ∉ cs := by
  intro hq
  obtain ⟨front, htext, hfront⟩ := h.text
  have hlead : '?' ∈ lead cs := by
    refine List.mem_filter.2 ⟨?_, by decide⟩
    rw [← List.takeWhile_append_dropWhile (p := isC0OrSpace) (l := cs)] at hq
    rcases List.mem_append.1 hq with hq | hq
    · exact absurd (List.mem_takeWhile_imp hq) (by decide)
    · exact hq
  rw [htext] at hlead
  rcases List.mem_append.1 hlead with hq | hq
  · exact hfront.no_question hq
  · rw [← hopen] at hq
    exact absurd ((authority_split body).1 _ hq) (by decide)

open Url in
/-- A question mark cuts off nothing of a target with an open authority. -/
theorem join_open {cs : List Char} {scheme : String} {body : List Char} (h : Web cs scheme body)
    (hopen : authority body = body) (text : List Char) :
    (cs ++ text).takeWhile (· ≠ '?') = cs ++ text.takeWhile (· ≠ '?') := by
  refine List.takeWhile_append_of_pos ?_
  intro c hc
  rw [decide_eq_true_iff]
  rintro rfl
  exact no_question_before h hopen hc

open Url in
/-- What is put behind a closed authority does not reach it. -/
theorem join_closed {H : HostParser} (hH : RefusesBlanks H) {cs : List Char} {scheme : String} {body slash : List Char}
    (h : Web cs scheme body) (hne : body ≠ []) (hclosed : authority body ≠ body) {hp : String × Option Nat}
    (hparse : parseAuthority H true scheme (authority (trail (body ++ slash))) = some hp) (text : List Char)
    {query : List Char} (hquery : query = [] ∨ ∃ q, query = '?' :: q) :
    (parseChars H ((cs ++ text).takeWhile (· ≠ '?') ++ query)).map origin = some ⟨scheme, some hp.1, hp.2⟩ := by
  rw [authority_closed hclosed] at hparse
  have hauth : authority body ≠ [] := by
    intro hnil
    rw [hnil] at hparse
    cases hparse
  have hfinal : ∀ {ds b ys}, Web ds scheme b → b ≠ [] → authority (trail (b ++ ys.filter kept)) = authority body →
      (parseChars H (ds ++ ys)).map origin = some ⟨scheme, some hp.1, hp.2⟩ := by
    intro ds b ys hw hb hsame
    rw [(hw.append hb ys).origin H, hsame, hparse]
    rfl
  by_cases hq : '?' ∈ cs
  · -- cut at the target's own question mark
    obtain ⟨front, rest, hcs, hfront⟩ := List.eq_append_cons_of_mem hq
    rw [hcs] at h
    obtain ⟨b, hb, hbne, hwebb⟩ := h.before (by decide) hauth (.inl rfl)
    have htake : (cs ++ text).takeWhile (· ≠ '?') = front := by
      have hkeep : ∀ c ∈ front, decide (c ≠ '?') = true := by
        intro c hc
        rw [decide_eq_true_iff]
        rintro rfl
        exact hfront hc
      rw [hcs, List.append_assoc, List.takeWhile_append_of_pos hkeep, List.cons_append,
        List.takeWhile_cons_of_neg (by simp), List.append_nil]
    rw [htake]
    refine hfinal hwebb hbne ?_
    by_cases hbc : authority b = b
    · have hbody : authority body = b := by
        rw [hb]
        have hbno := (authority_split b).1
        rw [hbc] at hbno
        exact authority_at hbno (by decide)
      rw [hbody]
      rcases hquery with rfl | ⟨q, rfl⟩
      · rw [hbody] at hparse
        rw [List.filter_nil, List.append_nil, authority_clean hH hparse, hbc]
      · have hbno := (authority_split b).1
        rw [hbc] at hbno
        rw [List.filter_cons_of_pos (by decide), trail_at (by decide), authority_at hbno (by decide)]
    · rw [authority_closed hbc, hb, authority_append hbc]
  · have htake : (cs ++ text).takeWhile (· ≠ '?') = cs ++ text.takeWhile (· ≠ '?') := by
      refine List.takeWhile_append_of_pos ?_
      intro c hc
      rw [decide_eq_true_iff]
      rintro rfl
      exact hq hc
    rw [htake, List.append_assoc]
    exact hfinal h hne (authority_closed hclosed _)

open Url in
/-- Behind an open authority, text that opens a path leaves it as it is. -/
theorem authority_before_path {body ys : List Char} (hopen : authority body = body)
    (hys : ∃ e ∈ ys.head?, ends e = true) : authority (trail (body ++ ys.filter kept)) = body := by
  obtain ⟨e, he, hends⟩ := hys
  have hno := (authority_split body).1
  rw [hopen] at hno
  cases ys with
  | nil => cases he
  | cons c ys =>
    rw [List.head?_cons, Option.mem_some_iff] at he
    subst he
    rw [List.filter_cons_of_pos (end_kept hends), trail_at hends, authority_at hno hends]

theorem queryText_shape (params : Option String) : queryText params = [] ∨ ∃ q, queryText params = '?' :: q := by
  cases params with
  | none => exact .inl rfl
  | some encoded => exact .inr ⟨_, rfl⟩

/-- A path that opens with a slash still does after it is cut at a question mark. -/
theorem OpensPath.cut {text : String} (h : OpensPath text) (query : List Char) :
    ∃ e ∈ (text.toList.takeWhile (· ≠ '?') ++ query).head?, Url.ends e = true := by
  obtain ⟨e, he, hends, hq⟩ := h
  refine ⟨e, ?_, hends⟩
  cases ht : text.toList with
  | nil =>
    rw [ht] at he
    cases he
  | cons c t =>
    rw [ht, List.head?_cons, Option.mem_some_iff] at he
    subst he
    rw [List.takeWhile_cons_of_pos (by simpa using hq)]
    rfl

theorem origin_confined (W : World) (hW : Url.RefusesBlanks W.hostParser) (route : Row) (hr : UnderRoutes route.publicPath)
    (target : String) (policy : Option OrgTargetPolicy) (ht : assertTargetAllowed W target policy = none) (path : String)
    (params : Option String) :
    SameOrigin W (resolvedUrl target (route.targetPath W path) params) target ↔
      Confined W route target path params := by
  obtain ⟨scheme, body, slash, hp, hweb, hne, hslash, hparse, horigin⟩ := target_web ht
  have hsame : ∀ {url : String}, SameOrigin W url target ↔
      (W.url url).map Url.origin = some ⟨scheme, some hp.1, hp.2⟩ := by
    intro url
    unfold SameOrigin
    rw [horigin]
    constructor
    · intro h
      obtain ⟨o, ho, ho'⟩ := h
      rw [ho, ho']
    · intro h
      exact ⟨_, h, rfl⟩
  by_cases hclosed : Url.authority body ≠ body
  · -- the target's authority has ended already
    refine iff_of_true ?_ (.inl ⟨scheme, body, hweb, hclosed⟩)
    rw [hsame, World.url, Url.parse, resolvedUrl_text]
    exact join_closed hW hweb hne hclosed hparse _ (queryText_shape params)
  rw [not_not] at hclosed
  have hnotClosed : ¬AuthorityClosed target := by
    intro h
    obtain ⟨scheme', body', hweb', hc'⟩ := h
    rw [← hweb.unique hweb'] at hc'
    exact hc' hclosed
  have htarget : Url.parseAuthority W.hostParser true scheme (Url.trail body) = some hp := by
    rcases hslash with rfl | rfl
    · rwa [List.append_nil, Url.authority_trail hclosed] at hparse
    · have hopen : Url.authority (Url.trail (body ++ ['/'].filter Url.kept)) = body :=
        authority_before_path hclosed ⟨'/', rfl, by decide⟩
      have hkeep : ['/'].filter Url.kept = ['/'] := by decide
      rw [hkeep] at hopen
      rw [hopen] at hparse
      rwa [Url.authority_clean hW hparse]
  have hclean : EndsClean target ↔ Url.trail body = body := hweb.trail_lead
  -- what counts is the text behind the target
  have hjoined : ∀ ys : List Char, (Url.parseChars W.hostParser ((targetBase target).toList ++ ys)).map Url.origin =
      (Url.parseAuthority W.hostParser true scheme (Url.authority (Url.trail (body ++ ys.filter Url.kept)))).map
        fun hp => ⟨scheme, some hp.1, hp.2⟩ := fun ys => (hweb.append hne ys).origin W.hostParser
  rw [hsame, World.url, Url.parse, resolvedUrl_text, join_open hweb hclosed, List.append_assoc, hjoined]
  unfold Confined
  rcases targetPath_cases W hr path with ⟨hb, hopens⟩ | ⟨hb, htext⟩
  · rw [authority_before_path hclosed (hopens.cut _)]
    simp only [hnotClosed, hb, hclean, true_and, not_true, false_and, or_false, false_or]
    constructor
    · intro h
      obtain ⟨hp', hparse', -⟩ := Option.map_eq_some_iff.1 h
      exact Url.authority_clean hW hparse'
    · intro h
      rw [h] at htarget
      rw [htarget]
      rfl
  · rw [htext]
    simp only [hnotClosed, hb, not_false_eq_true, true_and, false_and, false_or]
    unfold GluesHarmlessly
    rw [hsame, World.url, Url.parse, String.toList_append, String.toList_ofList, hjoined, ← Url.authority_open hclosed]

/-- `World.plain` with a host parser that refuses blanks. -/
def strictWorld : World := { World.plain with
  hostParser := fun _ cs => if cs.any Url.isC0OrSpace then none else some (String.ofList cs) }

theorem strictWorld_refuses : Url.RefusesBlanks strictWorld.hostParser := by
  intro cs h
  have hany : cs.any Url.isC0OrSpace = true := List.any_eq_true.2 h
  exact if_pos hany

theorem strictWorld_allows : assertTargetAllowed strictWorld "http://upstream" none = none := by decide +kernel

theorem origin_confined_api :
    SameOrigin strictWorld (resolvedUrl "http://upstream" ((publishedRoute "/r/api/*").targetPath strictWorld "/api/v1") none)
        "http://upstream" ↔
      Confined strictWorld (publishedRoute "/r/api/*") "http://upstream" "/api/v1" none :=
  origin_confined strictWorld strictWorld_refuses (publishedRoute "/r/api/*") (underRoutes_iff.2 (by decide +kernel))
    "http://upstream" none strictWorld_allows "/api/v1" none

theorem a_lone_slash_reaches_another_host :
    ¬∀ (W : World), Url.RefusesBlanks W.hostParser → ∀ route : Row, UnderRoutes route.publicPath →
      ∀ (target : String) (policy : Option OrgTargetPolicy), assertTargetAllowed W target policy = none →
      ∀ (path : String) (params : Option String), matchesRoute route.publicPath path = true →
        SameOrigin W (resolvedUrl target (route.targetPath W path) params) target := by
  intro h
  obtain ⟨o, ho, ho'⟩ := h strictWorld strictWorld_refuses (publishedRoute "/r/") (underRoutes_iff.2 (by decide +kernel))
    "http://upstream" none strictWorld_allows "/.evil.com" none (by decide +kernel)
  have hurl : (strictWorld.url (resolvedUrl "http://upstream"
      ((publishedRoute "/r/").targetPath strictWorld "/.evil.com") none)).map Url.origin =
        some ⟨"http", some "upstream.evil.com", none⟩ := by decide +kernel
  have htarget : (strictWorld.url "http://upstream").map Url.origin = some ⟨"http", some "upstream", none⟩ := by
    decide +kernel
  rw [hurl] at ho
  rw [htarget, ← ho] at ho'
  exact absurd ho' (by decide)

end ClusterGate
