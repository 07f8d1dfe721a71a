/-
  ClusterGate.Target.Guard — where the connections to a route's target go.

  An address is allowed if it is no cloud metadata address and the deny list in force does
  not hold it. The intent is that whatever DNS answers, a connection to a target goes to an
  allowed address: a stored target was checked when it was written, but its name is
  answered anew, and the deny list may have grown. `safeLookup` judges the answer, and only
  the answer: a host that is an address itself is not looked up.

  - `connections_guarded_iff`: the HTTP proxy is guarded exactly when the host of the URL it
    asks is a name or an allowed address, the WebSocket proxy likewise, and the connection
    test always, as its policy judges the address first. A health check is guarded only
    where it connects to nothing: its target is refused, or its URL is no web URL.
  - `a_health_check_reaches_the_metadata_service`: of a target the policy lets through, whose
    name is answered with the metadata address when the probe is sent.
-/

import ClusterGate.Lib.UrlReparse
import ClusterGate.Route.Names
import ClusterGate.Target.Address
import ClusterGate.Target.Connect

namespace ClusterGate

open Lib Lib.Act Lib.Text

def Allowed (W : World) (addr : String) : Prop := isMetadataIp addr = false ∧ matchIp W addr = none

def OpensAllowed (W : World) (w : Wire) : Prop := ∀ addr ∈ w.opened, Allowed W addr

/-- Whatever the outside does, every connection goes to an allowed address. -/
def ConnectsAllowed {α : Type} (W : World) (x : Outbound α) : Prop := ∀ exchanges, OpensAllowed W (x ⟨exchanges, []⟩).2

/-! ## The condition -/

/-- A host is a name, or an allowed address. -/
def LiteralAllowed (W : World) (host : String) : Prop := W.isIP host ≠ 0 → Allowed W host

/-- A URL that is asked at all. -/
def WebUrl (W : World) (url : String) : Prop := ∃ u, W.url url = some u ∧ (u.scheme = "http" ∨ u.scheme = "https")

def HostAllowed (W : World) (url : String) : Prop :=
  ∀ u, W.url url = some u → (u.scheme = "http" ∨ u.scheme = "https") → LiteralAllowed W (connectHost (u.host.getD ""))

theorem hostAllowed_iff {W : World} {url : String} {u : Url} (hu : W.url url = some u)
    (hweb : u.scheme = "http" ∨ u.scheme = "https") :
    HostAllowed W url ↔ LiteralAllowed W (connectHost (u.host.getD "")) := by
  constructor
  · intro h
    exact h u hu hweb
  · intro h v hv _
    rw [hu] at hv
    injection hv with hv
    rw [← hv]
    exact h

/-- The HTTP proxy sends at least once. -/
def Row.Sends (route : Row) (streamedBody : Bool) : Prop :=
  route.flag .streamResponse = true ∨ route.attempts streamedBody ≠ 0

/-! ## What the platform makes of hosts -/

def addressChars : List Char := "0123456789abcdef:.".toList

/-- `host` is the address `addr` as a URL writes it. -/
structure WrittenAddress (addr host : String) : Prop where
  chars : ∀ c ∈ addr.toList, c ∈ addressChars
  noRootDot : endsWith addr "." = false
  host : host = addr ∨ host = "[" ++ addr ++ "]"

/-- How `URL` writes the hosts that `net.isIP` takes for addresses. -/
structure PlatformHosts (W : World) : Prop where
  written : ∀ text host, W.hostParser true text = some host → W.isIP (connectHost host) ≠ 0 →
    WrittenAddress (connectHost host) host
  mapped : ∀ addr v4, W.isIP addr ≠ 0 → mappedIPv4 addr = some v4 → W.isIP v4 ≠ 0
  metadata : W.hostParser true "169.254.169.254".toList = some "169.254.169.254"

/-! ## One connection -/

theorem addressRefused_none {W : World} {addr : String} (h : addressRefused W addr = none) : Allowed W addr := by
  unfold addressRefused at h
  split at h
  · cases h
  · rename_i hmeta
    exact ⟨Bool.eq_false_iff.2 hmeta, Option.map_eq_none_iff.1 h⟩

theorem safeLookup_allowed {W : World} {answer addresses : List String} (h : safeLookup W answer = .ok addresses) :
    ∀ addr ∈ addresses, Allowed W addr := by
  unfold safeLookup at h
  split at h
  · cases h
  · rename_i hnone
    injection h with h
    subst h
    exact fun addr haddr => addressRefused_none (List.findSome?_eq_none_iff.1 hnone addr haddr)

theorem nextExchange_stable {W : World} : Stable (OpensAllowed W) nextExchange := by
  intro w hw
  unfold wp nextExchange
  cases w.exchanges with
  | nil => exact hw
  | cons exchange exchanges => exact hw

theorem connect_stable {W : World} {host : String} (h : LiteralAllowed W host) :
    Stable (OpensAllowed W) (connect W (safeLookup W) host) := by
  unfold connect
  refine stable_bind nextExchange_stable fun exchange => ?_
  intro w hw
  rw [wp_bind, wp_ofExcept]
  refine ⟨fun addresses haddr => ?_, fun _ _ => hw⟩
  have hallowed : ∀ addr ∈ addresses, Allowed W addr := by
    split at haddr
    · rename_i hip
      injection haddr with haddr
      subst haddr
      intro addr hmem
      rw [List.mem_singleton.1 hmem]
      exact h hip
    · exact safeLookup_allowed haddr
  have hopen : Stable (OpensAllowed W) (modify fun w => { w with opened := w.opened ++ addresses } : Outbound Unit) := by
    refine stable_modify fun w hw addr hmem => ?_
    rcases List.mem_append.1 hmem with hmem | hmem
    · exact hw addr hmem
    · exact hallowed addr hmem
  exact stable_bind (stable_require _ _) (fun _ => stable_bind hopen fun _ => stable_ofExcept _) w hw

theorem request_stable {W : World} {url : String} (h : HostAllowed W url) :
    Stable (OpensAllowed W) (request W (safeLookup W) url) := by
  unfold request
  split
  · exact stable_throw _
  · rename_i u hu
    split
    · rename_i hweb
      exact connect_stable (h u hu hweb)
    · exact stable_throw _

theorem guarded_of_stable {α : Type} {W : World} {x : Outbound α} (h : Stable (OpensAllowed W) x) : ConnectsAllowed W x := by
  intro exchanges
  refine wp_final (h _ ?_)
  intro addr hmem
  cases hmem

/-! ## The URL as http -/

theorem httpFallback_eq {err : Fault} {url plain : String} (h : httpFallback err url = some plain) :
    url = "https://" ++ slice url 8 ∧ plain = "http://" ++ slice url 8 := by
  unfold httpFallback at h
  split at h
  · rename_i hc
    rw [Bool.and_eq_true] at hc
    injection h with h
    refine ⟨?_, h.symm⟩
    obtain ⟨rest, hrest⟩ := List.isPrefixOf_iff_prefix.1 hc.2
    have hdrop : (slice url 8).toList = rest := by
      rw [slice, String.toList_ofList, ← hrest]
      rfl
    rw [← String.toList_inj, String.toList_append, hdrop, hrest]
  · cases h

theorem url_plain {W : World} {rest : String} {u : Url} (h : W.url ("http://" ++ rest) = some u) :
    ∃ v, W.url ("https://" ++ rest) = some v ∧ v.scheme = "https" ∧ v.host = u.host := by
  have hparse : Url.parseChars W.hostParser ("http".toList ++ ':' :: '/' :: '/' :: rest.toList) = some u := by
    rw [← h, World.url, Url.parse, String.toList_append]
    rfl
  obtain ⟨v, hv, hscheme, hhost⟩ := Url.parse_web_behind (.inl rfl) (.inr rfl) W.hostParser hparse
  refine ⟨v, ?_, hscheme, hhost⟩
  rw [← hv, World.url, Url.parse, String.toList_append]
  rfl

theorem HostAllowed.plain {W : World} {url plain : String} {err : Fault} (h : HostAllowed W url)
    (hf : httpFallback err url = some plain) : HostAllowed W plain := by
  obtain ⟨hurl, hplain⟩ := httpFallback_eq hf
  intro u hu _
  rw [hplain] at hu
  obtain ⟨v, hv, hscheme, hhost⟩ := url_plain hu
  rw [← hurl] at hv
  rw [← hhost]
  exact h v hv (.inr hscheme)

theorem orHttp_stable {I : Wire → Prop} {send : String → Outbound Reply} {url : String} (h : Stable I (send url))
    (hplain : ∀ err plain, httpFallback err url = some plain → Stable I (send plain)) : Stable I (orHttp send url) := by
  unfold orHttp
  refine stable_bind (stable_attempt h) fun r => ?_
  cases r with
  | ok res => exact stable_pure res
  | error err =>
    dsimp only
    split
    · rename_i plain hf
      exact hplain err plain hf
    · exact stable_throw err

/-- However often it tries. -/
theorem proxyAttempts_stable {W : World} (n : Nat) (lastError : Fault) {url : String} (h : HostAllowed W url) :
    Stable (OpensAllowed W) (proxyAttempts (request W (safeLookup W)) n lastError url) := by
  induction n generalizing lastError url with
  | zero => exact stable_throw lastError
  | succ n ih =>
    unfold proxyAttempts
    refine stable_bind (stable_attempt (request_stable h)) fun r => ?_
    cases r with
    | ok res => exact stable_pure res
    | error err =>
      dsimp only
      split
      · exact ih err h
      · rename_i plain hf
        refine stable_bind (stable_attempt (request_stable (h.plain hf))) fun r => ?_
        cases r with
        | ok res => exact stable_pure res
        | error httpErr => exact ih httpErr (h.plain hf)

/-! ## An address that is not looked up -/

/-- A reply without a redirect. -/
def plainReply : Reply := { status := 200, statusText := "OK" }

theorem connect_returns {W : World} {lookup : Lookup} {host : String} {exchange : Exchange} {addresses : List String}
    {res : Reply} (h : (if W.isIP host ≠ 0 then .ok [host] else lookup exchange.answer) = .ok addresses)
    (hne : addresses ≠ []) (hres : exchange.outcome = .ok res) (exchanges : List Exchange) (opened : List String) :
    Returns (connect W lookup host) ⟨exchange :: exchanges, opened⟩ res ⟨exchanges, opened ++ addresses⟩ := by
  unfold connect
  refine (returns_bind _ _).2 ⟨exchange, ⟨exchanges, opened⟩, rfl, ?_⟩
  rw [returns_ofExcept_bind]
  refine ⟨addresses, h, ?_⟩
  rw [returns_require_bind]
  refine ⟨hne, ?_⟩
  rw [returns_modify_bind, hres]
  rfl

theorem connect_literal {W : World} (lookup : Lookup) {host : String} (h : W.isIP host ≠ 0) :
    Returns (connect W lookup host) ⟨[⟨[], .ok plainReply⟩], []⟩ plainReply ⟨[], [host]⟩ :=
  connect_returns (if_pos h) (by simp) rfl [] []

theorem request_literal {W : World} (lookup : Lookup) {url : String} {u : Url} (hu : W.url url = some u)
    (hweb : u.scheme = "http" ∨ u.scheme = "https") (h : W.isIP (connectHost (u.host.getD "")) ≠ 0) :
    Returns (request W lookup url) ⟨[⟨[], .ok plainReply⟩], []⟩ plainReply ⟨[], [connectHost (u.host.getD "")]⟩ := by
  unfold request
  rw [hu]
  dsimp only
  rw [if_pos hweb]
  exact connect_literal lookup h

theorem orHttp_returns {send : String → Outbound Reply} {url : String} {w w' : Wire} {res : Reply}
    (h : Returns (send url) w res w') : Returns (orHttp send url) w res w' := by
  unfold orHttp
  exact (returns_bind _ _).2 ⟨.ok res, w', (returns_attempt _).2 h, rfl⟩

theorem proxyAttempts_returns {send : String → Outbound Reply} {url : String} {w w' : Wire} {res : Reply} (n : Nat)
    (lastError : Fault) (h : Returns (send url) w res w') : Returns (proxyAttempts send (n + 1) lastError url) w res w' := by
  unfold proxyAttempts
  exact (returns_bind _ _).2 ⟨.ok res, w', (returns_attempt _).2 h, rfl⟩

/-- A guarded run that opens one address opens an allowed one. -/
theorem ConnectsAllowed.opened {W : World} {α : Type} {x : Outbound α} (h : ConnectsAllowed W x)
    {exchanges rest : List Exchange} {a : α} {opened : List String}
    (hx : Returns x ⟨exchanges, []⟩ a ⟨rest, opened⟩) : ∀ addr ∈ opened, Allowed W addr := by
  have hw := h exchanges
  rw [show x ⟨exchanges, []⟩ = (.ok a, ⟨rest, opened⟩) from hx] at hw
  exact hw

/-! ## The proxies -/

/-- A request that is sent at all is sent to the URL's host first. -/
theorem forward_literal {W : World} {route : Row} {selectedTargetUrl path : String} {params : Option String}
    {streamedBody : Bool} (hsends : route.Sends streamedBody) {u : Url}
    (hu : W.url (resolvedUrl selectedTargetUrl (route.targetPath W path) params) = some u)
    (hweb : u.scheme = "http" ∨ u.scheme = "https") (hip : W.isIP (connectHost (u.host.getD "")) ≠ 0) :
    Returns (route.forward W selectedTargetUrl path params streamedBody) ⟨[⟨[], .ok plainReply⟩], []⟩ plainReply
      ⟨[], [connectHost (u.host.getD "")]⟩ := by
  unfold Row.forward
  dsimp only
  by_cases hstream : route.flag .streamResponse = true
  · rw [if_pos hstream]
    exact orHttp_returns (request_literal _ hu hweb hip)
  · rw [if_neg hstream]
    obtain ⟨n, hn⟩ := Nat.exists_eq_succ_of_ne_zero (hsends.resolve_left hstream)
    rw [hn]
    exact proxyAttempts_returns n _ (request_literal _ hu hweb hip)

theorem forward_stable {W : World} {route : Row} {selectedTargetUrl path : String} {params : Option String}
    {streamedBody : Bool}
    (h : route.Sends streamedBody → HostAllowed W (resolvedUrl selectedTargetUrl (route.targetPath W path) params)) :
    Stable (OpensAllowed W) (route.forward W selectedTargetUrl path params streamedBody) := by
  unfold Row.forward
  dsimp only
  generalize resolvedUrl selectedTargetUrl (route.targetPath W path) params = url at h ⊢
  by_cases hstream : route.flag .streamResponse = true
  · rw [if_pos hstream]
    have hurl := h (.inl hstream)
    exact orHttp_stable (request_stable hurl) fun err plain hf => request_stable (hurl.plain hf)
  · rw [if_neg hstream]
    by_cases hn : route.attempts streamedBody = 0
    · rw [hn]
      exact stable_throw _
    · exact proxyAttempts_stable _ _ (h (.inr hn))

theorem forward_guarded_iff (W : World) (route : Row) (selectedTargetUrl path : String) (params : Option String)
    (streamedBody : Bool) :
    ConnectsAllowed W (route.forward W selectedTargetUrl path params streamedBody) ↔
      (route.Sends streamedBody → HostAllowed W (resolvedUrl selectedTargetUrl (route.targetPath W path) params)) := by
  constructor
  · intro h hsends u hu hweb hip
    exact h.opened (forward_literal hsends hu hweb hip) _ List.mem_cons_self
  · intro h
    exact guarded_of_stable (forward_stable h)

theorem upgrade_guarded_iff (W : World) (hostname : String → String) (route : Row) (path : String) :
    ConnectsAllowed W (route.upgrade W hostname path) ↔ LiteralAllowed W (hostname (route.wsTarget path)) := by
  unfold Row.upgrade
  constructor
  · intro h hip
    exact h.opened (connect_literal _ hip) _ List.mem_cons_self
  · intro h
    exact guarded_of_stable (connect_stable h)

/-! ## An address as a URL writes it -/

theorem addressChars_plain {c : Char} (h : c ∈ '[' :: ']' :: addressChars) :
    c.toLower = c ∧ isSpace c = false ∧ c ≠ '%' := by
  have hall : ∀ d ∈ '[' :: ']' :: addressChars, d.toLower = d ∧ isSpace d = false ∧ d ≠ '%' := Url.forall_chars (by decide)
  exact hall c h

theorem addressChars_open : '[' ∉ addressChars := by decide

theorem addressChars_percent : '%' ∉ addressChars := by decide

section Written

variable {addr host : String}

theorem WrittenAddress.self (h : WrittenAddress addr host) : WrittenAddress addr addr := ⟨h.chars, h.noRootDot, .inl rfl⟩

theorem WrittenAddress.host_chars (h : WrittenAddress addr host) : ∀ c ∈ host.toList, c ∈ '[' :: ']' :: addressChars := by
  intro c hc
  rcases h.host with rfl | rfl
  · exact List.mem_cons_of_mem _ (List.mem_cons_of_mem _ (h.chars c hc))
  · rw [String.toList_append, String.toList_append] at hc
    simp only [List.mem_append] at hc
    rcases hc with (hc | hc) | hc
    · rw [List.mem_singleton.1 hc]
      exact List.mem_cons_self
    · exact List.mem_cons_of_mem _ (List.mem_cons_of_mem _ (h.chars c hc))
    · rw [List.mem_singleton.1 hc]
      exact List.mem_cons_of_mem _ List.mem_cons_self

theorem WrittenAddress.lower (h : WrittenAddress addr host) : toLowerAscii host = host := by
  have hmap : host.toList.map Char.toLower = host.toList :=
    (List.map_congr_left fun c hc => (addressChars_plain (h.host_chars c hc)).1).trans (List.map_id _)
  rw [toLowerAscii, hmap, String.ofList_toList]

theorem WrittenAddress.trimmed (h : WrittenAddress addr host) : trim host = host :=
  trim_clean fun c hc => (addressChars_plain (h.host_chars c hc)).2.1

theorem WrittenAddress.unbracketed (h : WrittenAddress addr host) :
    (if startsWith host "[" && endsWith host "]" then sliceEnd (slice host 1) 1 else host) = addr := by
  rcases h.host with rfl | rfl
  · refine bracket_none fun hopen => ?_
    exact addressChars_open (h.chars _ (List.mem_of_mem_head? hopen))
  · exact unbracket addr

theorem WrittenAddress.zoneless (h : WrittenAddress addr host) : indexOf addr "%" = none :=
  indexOf_none rfl fun hmem => addressChars_percent (h.chars _ hmem)

theorem WrittenAddress.normalized (h : WrittenAddress addr host) : normalizeHost host = addr := by
  unfold normalizeHost
  dsimp only
  rw [h.trimmed, h.lower, h.unbracketed, h.zoneless, ite_self, h.noRootDot]
  rfl

theorem WrittenAddress.metadata (h : WrittenAddress addr host) :
    isMetadataIp host = if includes addr ":" then isMetadataIpv6 addr else isMetadataIpv4 addr := by
  unfold isMetadataIp
  dsimp only
  rw [h.lower, h.unbracketed, h.zoneless]

/-- What the policy judges of a URL's address is the address. -/
theorem WrittenAddress.judged {W : World} (hW : PlatformHosts W) (h : WrittenAddress addr host) (hip : W.isIP addr ≠ 0)
    (hmeta : isMetadataIp (toLowerAscii host) = false) (hmatch : matchHost W (normalizeHost host) = none) :
    Allowed W addr := by
  rw [h.lower, h.metadata, ← h.self.metadata] at hmeta
  refine ⟨hmeta, ?_⟩
  rw [h.normalized] at hmatch
  unfold matchHost at hmatch
  rw [h.self.normalized, Option.or_eq_none_iff] at hmatch
  have hunmapped : W.isIP (unmapIp addr) ≠ 0 := by
    unfold unmapIp
    dsimp only
    rw [h.self.normalized]
    cases hm : mappedIPv4 addr with
    | none => exact hip
    | some v4 => exact hW.mapped addr v4 hip hm
  have hlast := hmatch.2
  rwa [if_neg hunmapped] at hlast

end Written

/-- A target the policy lets through has no other address in its URL. -/
theorem target_literal_allowed {W : World} (hW : PlatformHosts W) {targetUrl : String} {policy : Option OrgTargetPolicy}
    (h : assertTargetAllowed W targetUrl policy = none) : HostAllowed W targetUrl := by
  intro u hu hweb hip
  obtain ⟨text, host, htext, hhost⟩ := UrlRecord.web_host hu hweb
  rw [hhost, Option.getD_some] at hip ⊢
  unfold assertTargetAllowed at h
  simp only [hu, Option.bind_some, hhost, Option.getD_some, Option.or_eq_none_iff, Option.map_eq_none_iff] at h
  obtain ⟨hvalid, hmatch, -⟩ := h
  refine (hW.written text host htext hip).judged hW hip ?_ hmatch
  unfold validateTargetUrl at hvalid
  rw [hu] at hvalid
  dsimp only at hvalid
  split at hvalid
  · cases hvalid
  rw [hhost, Option.getD_some] at hvalid
  split at hvalid
  · cases hvalid
  · rename_i hblocked
    rw [Bool.or_eq_true, not_or] at hblocked
    exact Bool.eq_false_iff.2 hblocked.2

/-! ## The connection test -/

theorem refusedByAll_none_iff {W : World} {targetUrl : String} {candidates : List (Option OrgTargetPolicy)}
    (hne : candidates ≠ []) :
    refusedByAll W targetUrl candidates = none ↔
      ∃ policy ∈ candidates, assertTargetAllowed W targetUrl policy = none := by
  rw [← mapM_none_iff]
  unfold refusedByAll
  constructor
  · intro h
    cases hmessages : candidates.mapM (assertTargetAllowed W targetUrl) with
    | none => rfl
    | some messages =>
      rw [hmessages, Option.bind_some, List.head?_eq_none_iff] at h
      subst h
      exact absurd (List.forall₂_nil_right_iff.1 (mapM_some_iff.1 hmessages)) hne
  · intro h
    rw [h]
    rfl

theorem candidatePolicies_ne_nil {policies : List OrgTargetPolicy} (h : policies ≠ []) :
    candidatePolicies policies ≠ [] := by
  unfold candidatePolicies
  split
  · simp
  · simpa using h

/-- A caller may test only what some policy lets through. -/
theorem testable_allowed {W : World} {s : Store} {targetUrl : String} {u : Caller} {organizationId : Option String}
    (h : assertTargetAllowedForUser W s targetUrl u organizationId = none) :
    ∃ policy, assertTargetAllowed W targetUrl policy = none := by
  unfold assertTargetAllowedForUser at h
  split at h
  · split at h
    · exact ⟨_, h⟩
    · cases h
  · split at h
    · exact ⟨_, h⟩
    · dsimp only at h
      split at h
      · cases h
      · rename_i hpolicies
        obtain ⟨policy, -, hallowed⟩ := (refusedByAll_none_iff (candidatePolicies_ne_nil hpolicies)).1 h
        exact ⟨policy, hallowed⟩

theorem testConnection_guarded {W : World} (hW : PlatformHosts W) (s : Store) (u : Caller) (cfg : TestTarget) :
    ConnectsAllowed W (testConnection W s u cfg) := by
  refine guarded_of_stable ?_
  unfold testConnection
  split
  · exact stable_pure _
  · rename_i hnone
    obtain ⟨policy, hpolicy⟩ := testable_allowed hnone
    have hurl := target_literal_allowed hW hpolicy
    dsimp only
    refine stable_bind (stable_attempt (request_stable hurl)) fun r => ?_
    cases r with
    | ok res => exact stable_pure _
    | error err =>
      dsimp only
      split
      · rename_i plain hf
        exact stable_bind (request_stable (hurl.plain hf)) fun res => stable_pure _
      · exact stable_pure _

/-! ## The health check -/

theorem throws_stable {I : Wire → Prop} {α : Type} {x : Outbound α} (h : ∃ err, x = Act.throw err) : Stable I x := by
  obtain ⟨err, rfl⟩ := h
  exact stable_throw err

/-- No URL but a web URL is asked. -/
theorem request_unasked {W : World} {url : String} (h : ¬WebUrl W url) (lookup : Lookup) :
    ∃ err, request W lookup url = Act.throw err := by
  unfold request
  split
  · exact ⟨_, rfl⟩
  · rename_i u hu
    rw [if_neg fun hweb => h ⟨u, hu, hweb⟩]
    exact ⟨_, rfl⟩

theorem probe_unasked {W : World} {route : Row} {base : String} (h : ¬WebUrl W (route.probeUrl base)) :
    ∃ err, route.probe W base = Act.throw err := by
  obtain ⟨err, herr⟩ := request_unasked h dnsLookup
  refine ⟨err, ?_⟩
  unfold Row.probe
  rw [follow, herr]
  rfl

theorem targetBase_concat {url : String} {init : List Char} {c : Char} (h : url.toList = init ++ [c]) :
    (targetBase url).toList = if c = '/' then init else init ++ [c] := by
  have hends : endsWith url "/" = true ↔ c = '/' := by
    unfold endsWith
    rw [h, List.isSuffixOf_iff_suffix]
    constructor
    · intro hs
      obtain ⟨t, ht⟩ := hs
      exact (List.singleton_inj.1 (List.append_inj_right' ht rfl)).symm
    · rintro rfl
      exact ⟨init, rfl⟩
  unfold targetBase
  by_cases hc : c = '/'
  · rw [if_pos (hends.2 hc), if_pos hc, sliceEnd, String.toList_ofList, h, List.rdrop_concat_succ, List.rdrop_zero]
  · rw [if_neg (fun he => hc (hends.1 he)), if_neg hc, h]

theorem targetBase_prefix (front : String) {rest : String} (h : rest ≠ "") :
    targetBase (front ++ rest) = front ++ targetBase rest := by
  rcases List.eq_nil_or_concat rest.toList with hnil | ⟨init, c, hrest⟩
  · exact absurd (String.toList_eq_nil_iff.1 hnil) h
  · have hjoin : (front ++ rest).toList = (front.toList ++ init) ++ [c] := by
      rw [String.toList_append, hrest, List.append_assoc, List.concat_eq_append]
    have hlast := targetBase_concat (hrest.trans List.concat_eq_append)
    rw [← String.toList_inj, targetBase_concat hjoin, String.toList_append, hlast]
    split
    · rfl
    · rw [List.append_assoc]

/-- A probe that asks nothing asks nothing as http. -/
theorem probe_plain_unasked {W : World} {route : Row} {url plain : String} {err : Fault} (h : ¬WebUrl W (route.probeUrl url))
    (hvalid : validateTargetUrlSync W url = none) (hf : httpFallback err url = some plain) :
    ¬WebUrl W (route.probeUrl plain) := by
  obtain ⟨hurl, hplain⟩ := httpFallback_eq hf
  have hrest : slice url 8 ≠ "" := by
    intro hempty
    rw [hempty] at hurl
    have hnone : W.url url = none := by
      rw [hurl]
      exact (Url.web_behind (.inr rfl) []).parse W.hostParser
    unfold validateTargetUrlSync at hvalid
    rw [hnone] at hvalid
    cases hvalid
  intro hweb
  obtain ⟨u, hu, -⟩ := hweb
  rw [hplain, Row.probeUrl, targetBase_prefix _ hrest, String.append_assoc] at hu
  obtain ⟨v, hv, hscheme, -⟩ := url_plain hu
  refine h ⟨v, ?_, .inr hscheme⟩
  rw [hurl, Row.probeUrl, targetBase_prefix _ hrest, String.append_assoc]
  exact hv

/-! ### What a redirect reaches -/

theorem metadata_address : isMetadataIp "169.254.169.254" = true := by decide +kernel

def METADATA_URL : String := "http://169.254.169.254/"

theorem metadata_url {W : World} (hW : PlatformHosts W) :
    W.url METADATA_URL = some ⟨"http", some "169.254.169.254", none, ['/']⟩ := by
  have hparse := (Url.web_behind (.inl rfl) "169.254.169.254/".toList).parse W.hostParser
  have hhost : Url.HostText "169.254.169.254".toList :=
    ⟨by decide, Url.forall_chars (by decide), .inl (Url.forall_chars (by decide))⟩
  have hport : Url.PortOk "http" none := fun _ h => by cases h
  have hauth : Url.parseAuthority W.hostParser true "http" "169.254.169.254".toList = some ("169.254.169.254", none) :=
    Url.parseAuthority_text hhost hW.metadata hport
  rw [show Url.trail (List.dropWhile Url.isSlash (List.filter Url.kept "169.254.169.254/".toList)) =
    "169.254.169.254/".toList from by decide +kernel, Url.withAuthority] at hparse
  rw [World.url, Url.parse]
  refine hparse.trans (Option.map_eq_some_iff.2 ⟨_, hauth, rfl⟩)

/-- Without a guard a request opens what DNS answers. -/
theorem request_opens {W : World} {url : String} {u : Url} (hu : W.url url = some u)
    (hweb : u.scheme = "http" ∨ u.scheme = "https") (answer : List String) (hne : answer ≠ []) (res : Reply)
    (exchanges : List Exchange) (opened : List String) :
    Returns (request W dnsLookup url) ⟨⟨answer, .ok res⟩ :: exchanges, opened⟩ res
      ⟨exchanges,
        opened ++ if W.isIP (connectHost (u.host.getD "")) ≠ 0 then [connectHost (u.host.getD "")] else answer⟩ := by
  unfold request
  rw [hu]
  dsimp only
  rw [if_pos hweb]
  split
  · rename_i hip
    exact connect_returns (if_pos hip) (by simp) rfl exchanges opened
  · rename_i hip
    exact connect_returns (if_neg hip) hne rfl exchanges opened

def toMetadata : Reply := { status := 302, location := some METADATA_URL }

theorem metadata_opens {W : World} (hW : PlatformHosts W) (opened : List String) :
    Returns (request W dnsLookup METADATA_URL) ⟨[⟨["169.254.169.254"], .ok plainReply⟩], opened⟩ plainReply
      ⟨[], opened ++ ["169.254.169.254"]⟩ := by
  have h := request_opens (metadata_url hW) (.inl rfl) ["169.254.169.254"] (by simp) plainReply [] opened
  rwa [Option.getD_some, show connectHost "169.254.169.254" = "169.254.169.254" from by decide, ite_self] at h

/-- Wherever a URL leads first, a redirect leads on to the metadata address. -/
theorem follow_reaches_metadata {W : World} (hW : PlatformHosts W) {url : String} (h : WebUrl W url) (n : Nat) :
    ∃ exchanges first, Returns (follow W dnsLookup (n + 1) url) ⟨exchanges, []⟩ plainReply
      ⟨[], first ++ ["169.254.169.254"]⟩ := by
  obtain ⟨u, hu, hweb⟩ := h
  obtain ⟨first, hfirst⟩ : ∃ first, Returns (request W dnsLookup url)
      ⟨[⟨["169.254.169.254"], .ok toMetadata⟩, ⟨["169.254.169.254"], .ok plainReply⟩], []⟩ toMetadata
      ⟨[⟨["169.254.169.254"], .ok plainReply⟩], first⟩ :=
    ⟨_, request_opens hu hweb ["169.254.169.254"] (by simp) toMetadata _ []⟩
  refine ⟨_, first, (returns_bind _ _).2 ⟨_, _, hfirst, ?_⟩⟩
  -- the redirect's own request
  show Returns (follow W dnsLookup n METADATA_URL) _ _ _
  cases n with
  | zero => exact (returns_bind _ _).2 ⟨_, _, metadata_opens hW _, rfl⟩
  | succ n => exact (returns_bind _ _).2 ⟨_, _, metadata_opens hW _, rfl⟩

theorem checkRouteHealth_reaches_metadata {W : World} (hW : PlatformHosts W) {route : Row}
    (hvalid : validateTargetUrlSync W (route.string .targetUrl) = none)
    (hweb : WebUrl W (route.probeUrl (route.string .targetUrl))) :
    ∃ exchanges first, Returns (checkRouteHealth W route) ⟨exchanges, []⟩ ⟨.HEALTHY, none⟩
      ⟨[], first ++ ["169.254.169.254"]⟩ := by
  obtain ⟨exchanges, first, hfollow⟩ := follow_reaches_metadata hW hweb 2
  have hsupported : ¬(route.probeMethod W = "HEAD" ∧ (plainReply.status = 405 ∨ plainReply.status = 501)) :=
    fun hc => absurd hc.2 (by decide)
  have hprobe : Returns (route.probe W (route.string .targetUrl)) ⟨exchanges, []⟩ plainReply
      ⟨[], first ++ ["169.254.169.254"]⟩ := by
    refine (returns_bind _ _).2 ⟨_, _, hfollow, ?_⟩
    rw [if_neg hsupported]
    rfl
  refine ⟨exchanges, first, ?_⟩
  unfold checkRouteHealth
  rw [hvalid]
  exact (returns_bind _ _).2 ⟨.ok plainReply, _, (returns_attempt _).2 (orHttp_returns hprobe), rfl⟩

theorem health_guarded_iff {W : World} (hW : PlatformHosts W) (route : Row) :
    ConnectsAllowed W (checkRouteHealth W route) ↔
      validateTargetUrlSync W (route.string .targetUrl) ≠ none ∨ ¬WebUrl W (route.probeUrl (route.string .targetUrl)) := by
  constructor
  · intro h
    by_contra hno
    rw [not_or, not_not, not_not] at hno
    obtain ⟨exchanges, first, hrun⟩ := checkRouteHealth_reaches_metadata hW hno.1 hno.2
    have hmeta := (h.opened hrun "169.254.169.254" (by simp)).1
    rw [metadata_address] at hmeta
    cases hmeta
  · intro h
    refine guarded_of_stable ?_
    unfold checkRouteHealth
    split
    · exact stable_pure _
    · rename_i hvalid
      have hunasked := h.resolve_left (not_not.2 hvalid)
      have hfirst := probe_unasked hunasked
      have hplain : ∀ err plain, httpFallback err (route.string .targetUrl) = some plain →
          ∃ err', route.probe W plain = Act.throw err' :=
        fun err plain hf => probe_unasked (probe_plain_unasked hunasked hvalid hf)
      generalize route.probe W = send at hfirst hplain ⊢
      have hasked : Stable (OpensAllowed W) (orHttp send (route.string .targetUrl)) :=
        orHttp_stable (throws_stable hfirst) fun err plain hf => throws_stable (hplain err plain hf)
      refine stable_bind (stable_attempt hasked) fun r => ?_
      cases r with
      | error err => exact stable_pure _
      | ok res =>
        dsimp only
        split
        · exact stable_pure _
        · exact stable_pure _

/-! ## Every connection to a target -/

/-- For every target, every DNS answer and the deny list in force. -/
theorem connections_guarded_iff (W : World) (hW : PlatformHosts W) (hostname : String → String) :
    (∀ (route : Row) (selectedTargetUrl path : String) (params : Option String) (streamedBody : Bool),
      ConnectsAllowed W (route.forward W selectedTargetUrl path params streamedBody) ↔
        (route.Sends streamedBody → HostAllowed W (resolvedUrl selectedTargetUrl (route.targetPath W path) params))) ∧
    (∀ (route : Row) (path : String),
      ConnectsAllowed W (route.upgrade W hostname path) ↔ LiteralAllowed W (hostname (route.wsTarget path))) ∧
    (∀ (s : Store) (u : Caller) (cfg : TestTarget), ConnectsAllowed W (testConnection W s u cfg)) ∧
    ∀ route : Row, ConnectsAllowed W (checkRouteHealth W route) ↔
      validateTargetUrlSync W (route.string .targetUrl) ≠ none ∨ ¬WebUrl W (route.probeUrl (route.string .targetUrl)) := by
  refine ⟨?_, ?_, ?_, ?_⟩
  · exact forward_guarded_iff W
  · exact upgrade_guarded_iff W hostname
  · exact testConnection_guarded hW
  · exact health_guarded_iff hW

def hostChars : List Char := "abcdefghijklmnopqrstuvwxyz0123456789.-".toList

/-- Two addresses, the first of them denied. -/
def officeWorld : World := { World.plain with
  hostParser := fun _ cs => if cs.all hostChars.contains then some (String.ofList cs) else none
  isIP := fun text => if text = "10.0.0.5" ∨ text = "169.254.169.254" then 4 else 0
  subnetHas := fun addr _ ip => addr = ip
  denyList := [.cidr "10.0.0.5" 32 "denied by TARGET_DENY_EXTRA"] }

theorem officeWorld_isIP {text : String} (h : officeWorld.isIP text ≠ 0) : text = "10.0.0.5" ∨ text = "169.254.169.254" := by
  by_contra hno
  exact h (if_neg hno)

theorem officeWorld_hosts : PlatformHosts officeWorld where
  written text host hhost hip := by
    have hparse : text.all hostChars.contains = true ∧ String.ofList text = host := by
      by_cases hall : text.all hostChars.contains = true
      · exact ⟨hall, Option.some.inj ((if_pos hall).symm.trans hhost)⟩
      · exact absurd ((if_neg hall).symm.trans hhost) (by simp)
    have hself : connectHost host = host := by
      rw [connectHost, if_neg]
      intro hopen
      have hmem : '[' ∈ host.toList := (List.isPrefixOf_iff_prefix.1 hopen).subset List.mem_cons_self
      rw [← hparse.2, String.toList_ofList] at hmem
      exact absurd (List.all_eq_true.1 hparse.1 _ hmem) (by decide)
    rw [hself] at hip ⊢
    rcases officeWorld_isIP hip with rfl | rfl
    · exact ⟨Url.forall_chars (by decide), by decide, .inl rfl⟩
    · exact ⟨Url.forall_chars (by decide), by decide, .inl rfl⟩
  mapped addr v4 hip hmapped := by
    have hnone : mappedIPv4 addr = none := by rcases officeWorld_isIP hip with rfl | rfl <;> decide
    rw [hnone] at hmapped
    cases hmapped
  metadata := by decide +kernel

theorem office_connections :
    ConnectsAllowed officeWorld (shopRoute.forward officeWorld "http://backend.svc" "/shop/cart" none false) ∧
      ¬ConnectsAllowed officeWorld (shopRoute.forward officeWorld "http://10.0.0.5" "/shop/cart" none false) ∧
      ConnectsAllowed officeWorld (shopRoute.upgrade officeWorld (fun _ => "backend.svc") "/shop/cart") ∧
      ConnectsAllowed officeWorld
        (testConnection officeWorld Store.empty ⟨"admin", .ADMIN⟩ { targetUrl := "http://10.0.0.5" }) ∧
      ¬ConnectsAllowed officeWorld (checkRouteHealth officeWorld shopRoute) := by
  obtain ⟨hforward, hupgrade, htest, hhealth⟩ := connections_guarded_iff officeWorld officeWorld_hosts fun _ => "backend.svc"
  have hname : officeWorld.isIP (connectHost "backend.svc") = 0 := by decide
  have hnamed : officeWorld.url (resolvedUrl "http://backend.svc" (shopRoute.targetPath officeWorld "/shop/cart") none) =
      some ⟨"http", some "backend.svc", none, "/cart".toList⟩ := by decide +kernel
  have hdenied : officeWorld.url (resolvedUrl "http://10.0.0.5" (shopRoute.targetPath officeWorld "/shop/cart") none) =
      some ⟨"http", some "10.0.0.5", none, "/cart".toList⟩ := by decide +kernel
  refine ⟨?_, ?_, ?_, htest _ _ _, ?_⟩
  · refine (hforward ..).2 fun _ => (hostAllowed_iff hnamed (.inl rfl)).2 ?_
    exact fun hip => absurd hname hip
  · intro hguarded
    have hallowed := (hostAllowed_iff hdenied (.inl rfl)).1 ((hforward ..).1 hguarded (.inr (by decide))) (by decide)
    exact absurd hallowed.2 (by decide)
  · exact (hupgrade ..).2 fun hip => absurd hname hip
  · rw [hhealth, not_or, not_not, not_not]
    exact ⟨by decide +kernel, ⟨"http", some "backend.svc", none, []⟩, by decide +kernel, .inl rfl⟩

theorem a_health_check_reaches_the_metadata_service :
    ¬∀ (W : World) (policy : Option OrgTargetPolicy) (route : Row), PlatformHosts W →
      assertTargetAllowed W (route.string .targetUrl) policy = none → ConnectsAllowed W (checkRouteHealth W route) := by
  intro h
  have hallowed : assertTargetAllowed officeWorld (shopRoute.string .targetUrl) none = none := by decide +kernel
  have hopened : (checkRouteHealth officeWorld shopRoute ⟨[⟨["169.254.169.254"], .ok plainReply⟩], []⟩).2.opened =
      ["169.254.169.254"] := by decide +kernel
  have hguarded := h officeWorld none shopRoute officeWorld_hosts hallowed [⟨["169.254.169.254"], .ok plainReply⟩]
  have hmeta := (hguarded "169.254.169.254" (by rw [hopened]; exact List.mem_cons_self)).1
  rw [metadata_address] at hmeta
  cases hmeta

end ClusterGate
