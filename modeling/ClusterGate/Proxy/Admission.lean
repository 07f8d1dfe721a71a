/-
  ClusterGate.Proxy.Admission — whether a route takes a request (`services/proxyService.ts`:
  `proxyRequest` up to the rate limit, and `validateRouteAuth`; `services/apiKeyService.ts`:
  `verifyApiKey`; `proxy/wsHandler.ts`: the upgrade checks and `isWsAuthorized`).

  Both handlers look at the client's address, the path and the credentials. Given the same
  address the first check is one. The second goes by Express's path in one handler and in
  the other by the URL's own, which has its dot segments resolved. The third is written
  twice: HTTP opens the stored credential and takes an API key from the managed ones, the
  WebSocket handler compares with the stored text as it stands, sealed, and takes an API key
  from the query as well.
  - `admissions_agree`: the two decisions are the same exactly when the address is refused,
    or both paths are, or neither and the credentials sent tell the two readings of the
    stored ones apart no more than not at all (`CredentialsAlike`), or one is and the other
    handler finds no credentials it takes.
  - `a_sealed_token_is_refused`: a route with a sealed bearer token takes the token over
    HTTP and refuses it to an upgrade.
-/

import ClusterGate.Lib.FormUrlencoded
import ClusterGate.Proxy.IpAllowlist
import ClusterGate.Proxy.TargetPath

namespace ClusterGate

open Lib Lib.Text

/-! ## API keys -/

inductive ApiKeyScope
  | READ | FULL
  deriving DecidableEq

structure ApiKey where
  routeId : String
  keyHash : String
  isActive : Bool
  scope : ApiKeyScope
  expiresAt : Option Nat
  sharedRoutes : List String
  sharedFolders : List String
  deriving DecidableEq

/-- The keys in the database, and the recent answers a process keeps, by route and hash. -/
structure ApiKeys where
  now : Nat
  rows : List ApiKey
  cached : (routeId keyHash : String) → Option ApiKeyScope

/-- `keyCoversRoute`: it owns the route, is shared with it, or bound to the folder it is in. -/
def ApiKey.covers (key : ApiKey) (routeId : String) (folderId : Option String) : Bool :=
  key.routeId = routeId || key.sharedRoutes.contains routeId ||
    (match folderId with
      | some folder => key.sharedFolders.contains folder
      | none => false)

def ApiKey.unexpired (key : ApiKey) (now : Nat) : Bool :=
  match key.expiresAt with
  | none => true
  | some t => now < t

/-- `verifyApiKey`: the scope of the key that matches. -/
def verifyApiKey (W : World) (keys : ApiKeys) (key routeId : String) (folderId : Option String) : Option ApiKeyScope :=
  let keyHash := W.sha256 key
  (keys.cached routeId keyHash).or
    ((keys.rows.find? fun k => k.keyHash = keyHash && k.isActive && k.unexpired keys.now && k.covers routeId folderId).map
      ApiKey.scope)

/-! ## Requests -/

/-- What both handlers are given of a request. Header names are in lower case. -/
structure Incoming where
  method : String
  /-- The URL of the request line. -/
  url : String
  /-- The path below the mount point, as Express reads it. -/
  path : String
  header : String → Option String
  /-- What Express makes of the connection and the forwarding headers. -/
  ip : Option String
  remoteAddress : Option String

/-- `a || b`, of texts. -/
def orText (a : Option String) (b : String) : String :=
  match a with
  | some text => if text = "" then b else text
  | none => b

def SAFE_METHODS : List String := ["GET", "HEAD", "OPTIONS"]

/-- What follows a scheme in an `Authorization` header. -/
def credentialsOf (scheme : String) (header : String) : Option String :=
  if startsWith header scheme then some (slice header scheme.toList.length) else none

/-! ## HTTP -/

/-- A key from `X-API-Key`, or from `Authorization: Bearer`, and the header it came in. -/
def presentedKey (req : Incoming) : Option (String × String) :=
  match (req.header "x-api-key").filter (· ≠ "") with
  | some key => some (key, "x-api-key")
  | none => (((req.header "authorization").bind (credentialsOf "Bearer ")).filter (· ≠ "")).map (·, "authorization")

/-- `validateRouteAuth`: the header that carried a managed key. -/
def validateRouteAuth (W : World) (keys : ApiKeys) (routeId : String) (route : Row) (req : Incoming) :
    Except Err (Option String) :=
  let authType := route.string .authType
  let authValue := decryptSecret W (route.text .authValue)
  if authType = "API_KEY" then
    match presentedKey req with
    | none => .error (.unauthorized "API key required — provide it via the X-API-Key header or as Authorization: Bearer")
    | some (apiKey, consumedHeader) =>
      match verifyApiKey W keys apiKey routeId (route.text .folderId) with
      | none => .error (.unauthorized
          "Invalid API key — generate one for this route and send it via X-API-Key or Authorization: Bearer")
      | some scope =>
        if scope = .READ ∧ req.method ∉ SAFE_METHODS then
          .error (.forbidden "This API key is read-only and cannot perform write requests")
        else .ok (some consumedHeader)
  else match authValue.filter (· ≠ "") with
    | none => .error (.internal "Route requires authentication but no auth value is configured")
    | some value =>
      if authType = "BASIC" then
        match (req.header "authorization").bind (credentialsOf "Basic ") with
        | none => .error (.unauthorized "Basic authentication required")
        | some credentials => if credentials = value then .ok none else .error (.unauthorized "Invalid credentials")
      else if authType = "BEARER" then
        match (req.header "authorization").bind (credentialsOf "Bearer ") with
        | none => .error (.unauthorized "Bearer token required")
        | some token => if token = value then .ok none else .error (.unauthorized "Invalid bearer token")
      else .error (.internal ("Unknown auth type: " ++ authType))

/-- A route that asks for credentials. -/
def Row.guarded (route : Row) : Bool := route.flag .requireAuth && decide (route.string .authType ≠ "NONE")

/-- `proxyRequest`, up to what it forwards: the header that carried a managed key. -/
def proxyAdmission (W : World) (keys : ApiKeys) (routeId : String) (route : Row) (req : Incoming) :
    Except Err (Option String) :=
  let clientIp := orText req.ip (orText req.remoteAddress "")
  if route.strings .ipAllowlist ≠ [] ∧ isIpAllowed clientIp (route.strings .ipAllowlist) = false then
    .error (.forbidden "Your IP address is not allowed to access this route")
  else if route.strings .pathAllowlist ≠ [] ∧
      isPathAllowed (route.judgedPath req.path) (route.strings .pathAllowlist) = false then
    .error (.app ⟨404, "PATH_NOT_ALLOWED", "This path is not exposed by the route", []⟩)
  else if route.guarded then validateRouteAuth W keys routeId route req
  else .ok none

/-! ## WebSockets -/

/-- The pairs of a query's text. -/
def readPairs (W : World) (query : List Char) : List (String × String) :=
  (FormUrlencoded.read (fun bytes => (utf8Text W bytes).toList) query).map fun p => (String.ofList p.1, String.ofList p.2)

/-- `parsedUrl.searchParams.get(name)` -/
def upgradeParam (W : World) (url name : String) : Option String :=
  ((readPairs W (((upgradeUrl W url).bind UrlRecord.query).getD [])).find? fun p => p.1 = name).map Prod.snd

def isWsAuthorized (W : World) (route : Row) (req : Incoming) : Bool :=
  let authType := route.string .authType
  match (route.text .authValue).filter (· ≠ "") with
  | none => false
  | some authValue =>
    let authorization := orText (req.header "authorization") ""
    if authType = "API_KEY" then
      let apiKey := orText (req.header "x-api-key") (orText (upgradeParam W req.url "api_key") "")
      apiKey ≠ "" && apiKey = authValue
    else if authType = "BASIC" then credentialsOf "Basic " authorization = some authValue
    else if authType = "BEARER" then credentialsOf "Bearer " authorization = some authValue
    else false

/-- `handleWebSocketUpgrade`, up to what it connects. -/
def wsAdmission (W : World) (route : Row) (req : Incoming) : Bool :=
  let clientIp := orText req.remoteAddress ""
  if route.strings .ipAllowlist ≠ [] ∧ isIpAllowed clientIp (route.strings .ipAllowlist) = false then false
  else if route.strings .pathAllowlist ≠ [] ∧
      isPathAllowed (route.judgedPath (upgradePath W req.url)) (route.strings .pathAllowlist) = false then false
  else if route.guarded then isWsAuthorized W route req
  else true

def admitted {α : Type} : Except Err α → Bool
  | .ok _ => true
  | .error _ => false

/-! ## The condition -/

/-- A process remembers a grant of the key for the route, or one of its rows grants it. -/
def KeyGranted (W : World) (keys : ApiKeys) (routeId : String) (route : Row) (key : String) : Prop :=
  (∃ scope, keys.cached routeId (W.sha256 key) = some scope) ∨
    ∃ k ∈ keys.rows, k.keyHash = W.sha256 key ∧ k.isActive = true ∧ (∀ t ∈ k.expiresAt, keys.now < t) ∧
      (k.routeId = routeId ∨ routeId ∈ k.sharedRoutes ∨ ∃ folder, route.text .folderId = some folder ∧ folder ∈ k.sharedFolders)

/-- The request has no key in `X-API-Key`. -/
def NoKeyHeader (req : Incoming) : Prop := ∀ key, req.header "x-api-key" = some key → key = ""

/-- The request carries a managed key of the route, in `X-API-Key` or without one there as a
    bearer token. -/
def ManagedKey (W : World) (keys : ApiKeys) (routeId : String) (route : Row) (req : Incoming) : Prop :=
  ∃ key, key ≠ "" ∧ KeyGranted W keys routeId route key ∧
    (req.header "x-api-key" = some key ∨ (NoKeyHeader req ∧ req.header "authorization" = some ("Bearer " ++ key)))

/-- The request carries the stored text as a key, in `X-API-Key` or without one there in the
    query. -/
def StoredKey (W : World) (route : Row) (req : Incoming) : Prop :=
  ∃ text, text ≠ "" ∧ route.text .authValue = some text ∧
    (req.header "x-api-key" = some text ∨ (NoKeyHeader req ∧ upgradeParam W req.url "api_key" = some text))

/-- What is in `X-API-Key` is the stored text and a managed key, or neither; without a key there
    a managed one is the bearer token and the stored text is in the query, or neither is. -/
def KeysAlike (W : World) (keys : ApiKeys) (routeId : String) (route : Row) (req : Incoming) : Prop :=
  (ManagedKey W keys routeId route req ∧ StoredKey W route req) ∨
    (¬ManagedKey W keys routeId route req ∧ ¬StoredKey W route req)

/-- The stored text opens to itself, or neither it nor what it opens to was sent. -/
def NotTold (W : World) (stored sent : String) : Prop :=
  decryptSecret W (some stored) = some stored ∨
    (sent ≠ stored ∧ ¬(sent ≠ "" ∧ decryptSecret W (some stored) = some sent))

/-- What was sent behind the scheme does not tell the stored text from what it opens to. -/
def SentAlike (W : World) (scheme : String) (route : Row) (req : Incoming) : Prop :=
  ∀ stored sent, stored ≠ "" → route.text .authValue = some stored →
    (req.header "authorization").bind (credentialsOf scheme) = some sent → NotTold W stored sent

/-- By the route's kind of credentials. -/
def CredentialsAlike (W : World) (keys : ApiKeys) (routeId : String) (route : Row) (req : Incoming) : Prop :=
  route.guarded = true →
    (route.string .authType = "API_KEY" → KeysAlike W keys routeId route req) ∧
      (route.string .authType = "BASIC" → SentAlike W "Basic " route req) ∧
      (route.string .authType = "BEARER" → SentAlike W "Bearer " route req)

def IpRefused (route : Row) (clientIp : String) : Prop :=
  route.strings .ipAllowlist ≠ [] ∧ isIpAllowed clientIp (route.strings .ipAllowlist) = false

def PathRefused (route : Row) (path : String) : Prop :=
  route.strings .pathAllowlist ≠ [] ∧ isPathAllowed (route.judgedPath path) (route.strings .pathAllowlist) = false

/-! ## The two decisions -/

theorem credentialsOf_eq_some {scheme header value : String} : credentialsOf scheme header = some value ↔ header = scheme ++ value := by
  unfold credentialsOf
  constructor
  · intro h
    split at h
    · rename_i hstart
      obtain ⟨t, ht⟩ := List.isPrefixOf_iff_prefix.1 hstart
      obtain rfl := Option.some.inj h
      rw [← String.toList_inj, String.toList_append, slice, String.toList_ofList, ← ht, List.drop_left]
    · cases h
  · intro h
    have hlist : header.toList = scheme.toList ++ value.toList := by rw [h, String.toList_append]
    have hstart : startsWith header scheme = true := List.isPrefixOf_iff_prefix.2 ⟨value.toList, hlist.symm⟩
    rw [if_pos hstart, slice, hlist, List.drop_left, String.ofList_toList]

theorem filter_empty : (some "" : Option String).filter (fun text => decide (text ≠ "")) = none := by decide

/-- A text that is there and not empty, with what is asked of it. -/
theorem only_text {text : String} {p : String → Prop} :
    (∃ v, v ≠ "" ∧ some text = some v ∧ p v) ↔ text ≠ "" ∧ p text := by
  constructor
  · intro h
    obtain ⟨v, hne, he, hp⟩ := h
    obtain rfl := Option.some.inj he
    exact ⟨hne, hp⟩
  · intro h
    exact ⟨text, h.1, rfl, h.2⟩

/-- The text that is looked at first, and the one behind it where that is missing or empty. -/
theorem orText_eq {a b : Option String} {text : String} (hne : text ≠ "") :
    orText a (orText b "") = text ↔ a = some text ∨ ((∀ t, a = some t → t = "") ∧ b = some text) := by
  have hother : "" ≠ text := fun h => hne h.symm
  have hlast : orText b "" = text ↔ b = some text := by
    cases b with
    | none => exact iff_of_false hother (by simp)
    | some t =>
      show (if t = "" then "" else t) = text ↔ _
      by_cases ht : t = ""
      · rw [if_pos ht, ht]
        exact iff_of_false hother fun h => hother (Option.some.inj h)
      · rw [if_neg ht, Option.some_inj]
  cases a with
  | none =>
    show orText b "" = text ↔ _
    simp [hlast]
  | some t =>
    show (if t = "" then orText b "" else t) = text ↔ _
    by_cases ht : t = ""
    · rw [if_pos ht, ht, hlast]
      simp [hother]
    · rw [if_neg ht]
      simp [ht]

section Decisions

variable {W : World} {keys : ApiKeys} {routeId : String} {route : Row} {req : Incoming}

theorem presentedKey_iff {key : String} : (∃ header, presentedKey req = some (key, header)) ↔
    key ≠ "" ∧ (req.header "x-api-key" = some key ∨ (NoKeyHeader req ∧ req.header "authorization" = some ("Bearer " ++ key))) := by
  have hbearer : (((req.header "authorization").bind (credentialsOf "Bearer ")).filter (· ≠ "")) = some key ↔
      key ≠ "" ∧ req.header "authorization" = some ("Bearer " ++ key) := by
    rw [Option.filter_eq_some_iff, Option.bind_eq_some_iff, and_comm]
    simp only [credentialsOf_eq_some, decide_eq_true_eq, exists_eq_right]
  unfold presentedKey NoKeyHeader
  cases hx : (req.header "x-api-key").filter (· ≠ "") with
  | some sent =>
    obtain ⟨hsent, hne⟩ := Option.filter_eq_some_iff.1 hx
    have hne : sent ≠ "" := of_decide_eq_true hne
    rw [hsent]
    constructor
    · rintro ⟨header, h⟩
      obtain rfl : sent = key := congrArg Prod.fst (Option.some.inj h)
      exact ⟨hne, .inl rfl⟩
    · rintro ⟨-, h | ⟨hno, -⟩⟩
      · rw [Option.some.inj h]
        exact ⟨_, rfl⟩
      · exact absurd (hno sent rfl) hne
  | none =>
    have hno : ∀ sent, req.header "x-api-key" = some sent → sent = "" := by
      intro sent hsent
      by_contra hne
      rw [hsent, Option.filter_some, if_pos (by simpa using hne)] at hx
      cases hx
    have hmap : (∃ header, ((((req.header "authorization").bind (credentialsOf "Bearer ")).filter (· ≠ "")).map
        (·, "authorization")) = some (key, header)) ↔
          (((req.header "authorization").bind (credentialsOf "Bearer ")).filter (· ≠ "")) = some key := by
      simp [Option.map_eq_some_iff]
    refine hmap.trans (hbearer.trans (and_congr_right fun hne => ?_))
    exact ⟨fun h => .inr ⟨hno, h⟩, fun h => (h.resolve_left fun hkey => hne (hno key hkey)).2⟩

theorem ApiKey.covers_iff {k : ApiKey} {folderId : Option String} : k.covers routeId folderId = true ↔
    k.routeId = routeId ∨ routeId ∈ k.sharedRoutes ∨ ∃ folder, folderId = some folder ∧ folder ∈ k.sharedFolders := by
  unfold ApiKey.covers
  cases folderId <;> simp [or_assoc]

theorem ApiKey.unexpired_iff {k : ApiKey} {now : Nat} : k.unexpired now = true ↔ ∀ t ∈ k.expiresAt, now < t := by
  unfold ApiKey.unexpired
  cases k.expiresAt <;> simp

theorem verifyApiKey_granted {key : String} :
    (verifyApiKey W keys key routeId (route.text .folderId)).isSome = true ↔ KeyGranted W keys routeId route key := by
  have hgrant : ∀ k : ApiKey, (decide (k.keyHash = W.sha256 key) && k.isActive && k.unexpired keys.now &&
      k.covers routeId (route.text .folderId)) = true ↔
        k.keyHash = W.sha256 key ∧ k.isActive = true ∧ (∀ t ∈ k.expiresAt, keys.now < t) ∧
          (k.routeId = routeId ∨ routeId ∈ k.sharedRoutes ∨
            ∃ folder, route.text .folderId = some folder ∧ folder ∈ k.sharedFolders) := by
    intro k
    rw [Bool.and_eq_true, Bool.and_eq_true, Bool.and_eq_true, decide_eq_true_eq, ApiKey.unexpired_iff, ApiKey.covers_iff, and_assoc, and_assoc]
  unfold verifyApiKey KeyGranted
  dsimp only
  rw [Option.isSome_or, Option.isSome_map, Bool.or_eq_true, Option.isSome_iff_exists, List.find?_isSome]
  simp only [hgrant]

/-- A reading request is not held to a key's scope. -/
theorem api_key_http (ht : route.string .authType = "API_KEY") (hget : req.method = "GET") :
    admitted (validateRouteAuth W keys routeId route req) = true ↔ ManagedKey W keys routeId route req := by
  have hmanaged : ManagedKey W keys routeId route req ↔ ∃ key header, presentedKey req = some (key, header) ∧
      (verifyApiKey W keys key routeId (route.text .folderId)).isSome = true := by
    refine exists_congr fun key => ?_
    rw [exists_and_right, presentedKey_iff, verifyApiKey_granted, and_right_comm, and_assoc]
  rw [hmanaged]
  unfold validateRouteAuth
  dsimp only
  rw [if_pos ht]
  cases hp : presentedKey req with
  | none => exact iff_of_false (by simp [admitted]) (by simp)
  | some presented =>
    obtain ⟨key, header⟩ := presented
    dsimp only
    cases hv : verifyApiKey W keys key routeId (route.text .folderId) with
    | none =>
      refine iff_of_false (by simp [admitted]) ?_
      intro h
      obtain ⟨key', header', he, hsome⟩ := h
      injection he with he
      injection he with he _
      rw [← he, hv] at hsome
      cases hsome
    | some scope =>
      have hsafe : ¬(scope = .READ ∧ req.method ∉ SAFE_METHODS) := fun h => h.2 (by rw [hget]; decide)
      dsimp only
      rw [if_neg hsafe]
      exact iff_of_true rfl ⟨key, header, rfl, by rw [hv]; rfl⟩

theorem api_key_ws (ht : route.string .authType = "API_KEY") :
    isWsAuthorized W route req = true ↔ StoredKey W route req := by
  unfold isWsAuthorized StoredKey
  dsimp only
  cases hv : route.text .authValue with
  | none => exact iff_of_false (by simp) (by simp)
  | some text =>
    rw [only_text]
    by_cases hne : text = ""
    · subst hne
      rw [filter_empty]
      exact iff_of_false (by simp) fun h => h.1 rfl
    · rw [Option.filter_some, if_pos (by simpa using hne)]
      dsimp only
      rw [if_pos ht, Bool.and_eq_true, decide_eq_true_eq, decide_eq_true_eq, orText_eq hne]
      constructor
      · intro h
        exact ⟨hne, h.2⟩
      · intro h
        refine ⟨?_, h.2⟩
        rw [(orText_eq hne).2 h.2]
        exact hne

/-- The two schemes of a stored credential. -/
def StaticScheme (route : Row) (scheme : String) : Prop :=
  (route.string .authType = "BASIC" ∧ scheme = "Basic ") ∨ (route.string .authType = "BEARER" ∧ scheme = "Bearer ")

theorem static_http {scheme : String} (ht : StaticScheme route scheme) :
    admitted (validateRouteAuth W keys routeId route req) = true ↔
      ∃ value, value ≠ "" ∧ decryptSecret W (route.text .authValue) = some value ∧
        (req.header "authorization").bind (credentialsOf scheme) = some value := by
  unfold validateRouteAuth
  dsimp only
  have hkey : route.string .authType ≠ "API_KEY" := by
    intro h
    rcases ht with ⟨ht, -⟩ | ⟨ht, -⟩
    · rw [ht] at h
      exact absurd h (by decide)
    · rw [ht] at h
      exact absurd h (by decide)
  rw [if_neg hkey]
  cases hd : decryptSecret W (route.text .authValue) with
  | none => exact iff_of_false (by simp [admitted]) (by simp)
  | some value =>
    rw [only_text]
    by_cases hne : value = ""
    · subst hne
      rw [filter_empty]
      exact iff_of_false (by simp [admitted]) fun h => h.1 rfl
    rw [Option.filter_some, if_pos (by simpa using hne)]
    have hsent : ∀ (missing wrong : Err), admitted (match (req.header "authorization").bind (credentialsOf scheme) with
        | none => .error missing
        | some sent => if sent = value then (.ok none : Except Err (Option String)) else .error wrong) = true ↔
          value ≠ "" ∧ (req.header "authorization").bind (credentialsOf scheme) = some value := by
      intro missing wrong
      cases hs : (req.header "authorization").bind (credentialsOf scheme) with
      | none => exact iff_of_false (by simp [admitted]) (by simp)
      | some sent =>
        dsimp only
        by_cases he : sent = value
        · rw [if_pos he]
          exact iff_of_true rfl ⟨hne, congrArg some he⟩
        · rw [if_neg he]
          exact iff_of_false (by simp [admitted]) fun h => he (Option.some.inj h.2)
    dsimp only
    rcases ht with ⟨ht, rfl⟩ | ⟨ht, rfl⟩
    · rw [if_pos ht]
      exact hsent _ _
    · have hbasic : route.string .authType ≠ "BASIC" := by
        intro h
        rw [ht] at h
        exact absurd h (by decide)
      rw [if_neg hbasic, if_pos ht]
      exact hsent _ _

theorem credentials_header {scheme : String} (hs : scheme ≠ "") (header : Option String) :
    credentialsOf scheme (orText header "") = header.bind (credentialsOf scheme) := by
  have hempty : credentialsOf scheme "" = none := by
    refine if_neg ?_
    intro h
    have hpre := List.isPrefixOf_iff_prefix.1 h
    exact hs (String.toList_eq_nil_iff.1 (List.prefix_nil.1 hpre))
  cases header with
  | none => exact hempty
  | some text =>
    by_cases ht : text = ""
    · rw [ht]
      rfl
    · rw [orText, if_neg ht]
      rfl

theorem static_ws {scheme : String} (ht : StaticScheme route scheme) :
    isWsAuthorized W route req = true ↔ ∃ text, text ≠ "" ∧ route.text .authValue = some text ∧
      (req.header "authorization").bind (credentialsOf scheme) = some text := by
  have hscheme : scheme ≠ "" := by
    rcases ht with ⟨-, rfl⟩ | ⟨-, rfl⟩ <;> decide
  unfold isWsAuthorized
  dsimp only
  rw [← credentials_header hscheme]
  cases hv : route.text .authValue with
  | none => exact iff_of_false (by simp) (by simp)
  | some text =>
    rw [only_text]
    by_cases hne : text = ""
    · subst hne
      rw [filter_empty]
      exact iff_of_false (by simp) fun h => h.1 rfl
    rw [Option.filter_some, if_pos (by simpa using hne)]
    have hsame : credentialsOf scheme (orText (req.header "authorization") "") = some text ↔
        text ≠ "" ∧ credentialsOf scheme (orText (req.header "authorization") "") = some text :=
      ⟨fun h => ⟨hne, h⟩, fun h => h.2⟩
    dsimp only
    rcases ht with ⟨ht, rfl⟩ | ⟨ht, rfl⟩
    · rw [ht, if_neg (by decide), if_pos rfl, decide_eq_true_eq]
      exact hsame
    · rw [ht, if_neg (by decide), if_neg (by decide), if_pos rfl, decide_eq_true_eq]
      exact hsame

/-- A stored credential decides alike if what was sent does not tell its two readings apart. -/
theorem static_alike {scheme : String} (ht : StaticScheme route scheme) :
    admitted (validateRouteAuth W keys routeId route req) = isWsAuthorized W route req ↔ SentAlike W scheme route req := by
  rw [Bool.eq_iff_iff, static_http ht, static_ws ht]
  unfold SentAlike NotTold
  cases hv : route.text .authValue with
  | none =>
    refine iff_of_true (iff_of_false ?_ ?_) (fun _ _ _ h => by cases h)
    · intro h
      obtain ⟨v, -, h, -⟩ := h
      cases h
    · intro h
      obtain ⟨v, -, h, -⟩ := h
      cases h
  | some stored =>
    obtain ⟨opened, hopen⟩ : ∃ opened, decryptSecret W (some stored) = some opened := ⟨_, rfl⟩
    rw [hopen, only_text, only_text]
    cases hs : (req.header "authorization").bind (credentialsOf scheme) with
    | none => exact iff_of_true (iff_of_false (by simp) (by simp)) fun _ _ _ _ h => by cases h
    | some sent =>
      by_cases hempty : stored = ""
      · -- an empty credential is empty once it is opened
        subst hempty
        have hself : decryptSecret W (some "") = some "" := by
          rw [decryptSecret, Option.map_some, if_pos (by decide)]
        obtain rfl := Option.some.inj (hself.symm.trans hopen)
        refine iff_of_true (iff_of_false (fun h => h.1 rfl) fun h => h.1 rfl) ?_
        intro s _ hne h
        exact absurd (Option.some.inj h).symm hne
      · constructor
        · intro h stored' sent' hne hst hse
          obtain rfl := Option.some.inj hst
          obtain rfl := Option.some.inj hse
          by_cases hsent : sent = stored
          · left
            obtain ⟨-, hd⟩ := h.2 ⟨hempty, congrArg some hsent⟩
            rw [hopen, ← hsent, hd]
          · right
            refine ⟨hsent, ?_⟩
            intro hd
            obtain rfl := Option.some.inj (hopen.symm.trans hd.2)
            exact hsent (Option.some.inj (h.1 ⟨hd.1, rfl⟩).2)
        · intro h
          rcases h stored sent hempty rfl rfl with hself | ⟨hns, hno⟩
          · obtain rfl := Option.some.inj (hself.symm.trans hopen)
            exact Iff.rfl
          · refine iff_of_false ?_ fun h => hns (Option.some.inj h.2)
            intro h
            obtain rfl := Option.some.inj h.2
            exact hno ⟨h.1, hopen⟩

end Decisions

/-- A guarded route of no known kind takes nobody. -/
theorem unknown_refused (W : World) (keys : ApiKeys) (routeId : String) {route : Row} (req : Incoming)
    (hk : route.string .authType ≠ "API_KEY") (hb : route.string .authType ≠ "BASIC")
    (ht : route.string .authType ≠ "BEARER") :
    admitted (validateRouteAuth W keys routeId route req) = false ∧ isWsAuthorized W route req = false := by
  constructor
  · unfold validateRouteAuth
    dsimp only
    rw [if_neg hk]
    cases (decryptSecret W (route.text .authValue)).filter fun text => decide (text ≠ "") with
    | none => rfl
    | some value =>
      dsimp only
      rw [if_neg hb, if_neg ht]
      rfl
  · unfold isWsAuthorized
    dsimp only
    cases (route.text .authValue).filter fun text => decide (text ≠ "") with
    | none => rfl
    | some value =>
      dsimp only
      rw [if_neg hk, if_neg hb, if_neg ht]

/-- What HTTP takes: a managed key, or what the stored text opens to. -/
def HttpCredentials (W : World) (keys : ApiKeys) (routeId : String) (route : Row) (req : Incoming) : Prop :=
  (route.string .authType = "API_KEY" ∧ ManagedKey W keys routeId route req) ∨
    ∃ scheme value, StaticScheme route scheme ∧ value ≠ "" ∧ decryptSecret W (route.text .authValue) = some value ∧
      req.header "authorization" = some (scheme ++ value)

/-- What an upgrade takes: the stored text. -/
def WsCredentials (W : World) (route : Row) (req : Incoming) : Prop :=
  (route.string .authType = "API_KEY" ∧ StoredKey W route req) ∨
    ∃ scheme text, StaticScheme route scheme ∧ text ≠ "" ∧ route.text .authValue = some text ∧
      req.header "authorization" = some (scheme ++ text)

theorem StaticScheme.unique {route : Row} {scheme scheme' : String} (h : StaticScheme route scheme)
    (h' : StaticScheme route scheme') : scheme = scheme' := by
  rcases h with ⟨ht, rfl⟩ | ⟨ht, rfl⟩ <;> rcases h' with ⟨ht', rfl⟩ | ⟨ht', rfl⟩
  · rfl
  · exact absurd (ht.symm.trans ht') (by decide)
  · exact absurd (ht.symm.trans ht') (by decide)
  · rfl

theorem StaticScheme.no_key {route : Row} {scheme : String} (h : StaticScheme route scheme) :
    route.string .authType ≠ "API_KEY" := by
  rcases h with ⟨ht, -⟩ | ⟨ht, -⟩
  · rw [ht]
    decide
  · rw [ht]
    decide

theorem header_credentials {req : Incoming} {scheme value : String} :
    (req.header "authorization").bind (credentialsOf scheme) = some value ↔
      req.header "authorization" = some (scheme ++ value) := by
  rw [Option.bind_eq_some_iff]
  simp only [credentialsOf_eq_some, exists_eq_right]

/-- The kinds of credentials a route can ask for. -/
theorem authType_cases (route : Row) : route.string .authType = "API_KEY" ∨ (∃ scheme, StaticScheme route scheme) ∨
    (route.string .authType ≠ "API_KEY" ∧ route.string .authType ≠ "BASIC" ∧ route.string .authType ≠ "BEARER") := by
  by_cases hk : route.string .authType = "API_KEY"
  · exact .inl hk
  by_cases hb : route.string .authType = "BASIC"
  · exact .inr (.inl ⟨_, .inl ⟨hb, rfl⟩⟩)
  by_cases ht : route.string .authType = "BEARER"
  · exact .inr (.inl ⟨_, .inr ⟨ht, rfl⟩⟩)
  · exact .inr (.inr ⟨hk, hb, ht⟩)

section Credentials

variable {W : World} {keys : ApiKeys} {routeId : String} {route : Row} {req : Incoming}

theorem http_credentials (hget : req.method = "GET") :
    admitted (validateRouteAuth W keys routeId route req) = true ↔ HttpCredentials W keys routeId route req := by
  unfold HttpCredentials
  rcases authType_cases route with hk | ⟨scheme, hscheme⟩ | ⟨hk, hb, ht⟩
  · rw [api_key_http hk hget]
    exact ⟨fun h => .inl ⟨hk, h⟩, fun h => h.elim And.right fun ⟨_, _, hs, _⟩ => absurd hk hs.no_key⟩
  · rw [static_http hscheme]
    simp only [header_credentials]
    constructor
    · rintro ⟨value, h⟩
      exact .inr ⟨scheme, value, hscheme, h⟩
    · rintro (⟨hk, -⟩ | ⟨scheme', value, hs, h⟩)
      · exact absurd hk hscheme.no_key
      · obtain rfl := hscheme.unique hs
        exact ⟨value, h⟩
  · rw [(unknown_refused W keys routeId req hk hb ht).1]
    refine iff_of_false (by simp) ?_
    rintro (⟨he, -⟩ | ⟨_, _, ⟨he, -⟩ | ⟨he, -⟩, -⟩)
    · exact hk he
    · exact hb he
    · exact ht he

theorem ws_credentials : isWsAuthorized W route req = true ↔ WsCredentials W route req := by
  unfold WsCredentials
  rcases authType_cases route with hk | ⟨scheme, hscheme⟩ | ⟨hk, hb, ht⟩
  · rw [api_key_ws hk]
    exact ⟨fun h => .inl ⟨hk, h⟩, fun h => h.elim And.right fun ⟨_, _, hs, _⟩ => absurd hk hs.no_key⟩
  · rw [static_ws hscheme]
    simp only [header_credentials]
    constructor
    · rintro ⟨text, h⟩
      exact .inr ⟨scheme, text, hscheme, h⟩
    · rintro (⟨hk, -⟩ | ⟨scheme', text, hs, h⟩)
      · exact absurd hk hscheme.no_key
      · obtain rfl := hscheme.unique hs
        exact ⟨text, h⟩
  · rw [(unknown_refused W ⟨0, [], fun _ _ => none⟩ "" req hk hb ht).2]
    refine iff_of_false (by simp) ?_
    rintro (⟨he, -⟩ | ⟨_, _, ⟨he, -⟩ | ⟨he, -⟩, -⟩)
    · exact hk he
    · exact hb he
    · exact ht he

theorem authorized_alike (hget : req.method = "GET") (hg : route.guarded = true) :
    admitted (validateRouteAuth W keys routeId route req) = isWsAuthorized W route req ↔
      CredentialsAlike W keys routeId route req := by
  unfold CredentialsAlike
  rcases authType_cases route with hk | ⟨scheme, hscheme⟩ | ⟨hk, hb, ht⟩
  · have hb : route.string .authType ≠ "BASIC" := by rw [hk]; decide
    have ht : route.string .authType ≠ "BEARER" := by rw [hk]; decide
    have hkeys : (ManagedKey W keys routeId route req ↔ StoredKey W route req) ↔ KeysAlike W keys routeId route req :=
      iff_iff_and_or_not_and_not
    rw [Bool.eq_iff_iff, api_key_http hk hget, api_key_ws hk, hkeys]
    exact ⟨fun h _ => ⟨fun _ => h, fun e => absurd e hb, fun e => absurd e ht⟩, fun h => (h hg).1 hk⟩
  · rw [static_alike hscheme]
    constructor
    · intro h _
      refine ⟨fun e => absurd e hscheme.no_key, fun e => ?_, fun e => ?_⟩
      · rwa [← hscheme.unique (.inl ⟨e, rfl⟩)]
      · rwa [← hscheme.unique (.inr ⟨e, rfl⟩)]
    · intro h
      obtain ⟨-, hbasic, hbearer⟩ := h hg
      rcases hscheme with ⟨he, rfl⟩ | ⟨he, rfl⟩
      · exact hbasic he
      · exact hbearer he
  · obtain ⟨hhttp, hws⟩ := unknown_refused W keys routeId req hk hb ht
    rw [hhttp, hws]
    exact iff_of_true rfl fun _ => ⟨fun e => absurd e hk, fun e => absurd e hb, fun e => absurd e ht⟩

/-- The two handlers find the same of what the request carries. -/
theorem credentials_alike (hget : req.method = "GET") :
    (route.guarded = true → (HttpCredentials W keys routeId route req ↔ WsCredentials W route req)) ↔
      CredentialsAlike W keys routeId route req := by
  by_cases hg : route.guarded = true
  · have hauth := @authorized_alike W keys routeId route req hget hg
    rw [Bool.eq_iff_iff, http_credentials hget, ws_credentials] at hauth
    exact ⟨fun h => hauth.1 (h hg), fun h _ => hauth.2 h⟩
  · refine iff_of_true ?_ ?_
    · intro h
      exact absurd h hg
    · intro h
      exact absurd h hg

theorem admitted_http (hget : req.method = "GET")
    (hip : orText req.ip (orText req.remoteAddress "") = orText req.remoteAddress "") :
    admitted (proxyAdmission W keys routeId route req) = true ↔
      ¬IpRefused route (orText req.remoteAddress "") ∧ ¬PathRefused route req.path ∧
        (route.guarded = true → HttpCredentials W keys routeId route req) := by
  unfold proxyAdmission
  dsimp only
  rw [hip]
  split
  · rename_i hi
    exact iff_of_false (by simp [admitted]) fun h => h.1 hi
  rename_i hi
  split
  · rename_i hp
    exact iff_of_false (by simp [admitted]) fun h => h.2.1 hp
  rename_i hp
  split
  · rename_i hg
    rw [http_credentials hget]
    exact ⟨fun h => ⟨hi, hp, fun _ => h⟩, fun h => h.2.2 hg⟩
  · rename_i hg
    exact iff_of_true rfl ⟨hi, hp, fun h => absurd h hg⟩

theorem admitted_ws : wsAdmission W route req = true ↔
    ¬IpRefused route (orText req.remoteAddress "") ∧ ¬PathRefused route (upgradePath W req.url) ∧
      (route.guarded = true → WsCredentials W route req) := by
  unfold wsAdmission
  dsimp only
  split
  · rename_i hi
    exact iff_of_false (by simp) fun h => h.1 hi
  rename_i hi
  split
  · rename_i hp
    exact iff_of_false (by simp) fun h => h.2.1 hp
  rename_i hp
  split
  · rename_i hg
    rw [ws_credentials]
    exact ⟨fun h => ⟨hi, hp, fun _ => h⟩, fun h => h.2.2 hg⟩
  · rename_i hg
    exact iff_of_true rfl ⟨hi, hp, fun h => absurd h hg⟩

end Credentials

/-- The two handlers' paths are refused both, or neither and the credentials are alike, or one
    is and the other handler takes none of the request's credentials. -/
def PathsAlike (W : World) (keys : ApiKeys) (routeId : String) (route : Row) (req : Incoming) : Prop :=
  (PathRefused route req.path ∧ PathRefused route (upgradePath W req.url)) ∨
    (¬PathRefused route req.path ∧ ¬PathRefused route (upgradePath W req.url) ∧ CredentialsAlike W keys routeId route req) ∨
    (PathRefused route req.path ∧ ¬PathRefused route (upgradePath W req.url) ∧ route.guarded = true ∧
      ¬WsCredentials W route req) ∨
    (¬PathRefused route req.path ∧ PathRefused route (upgradePath W req.url) ∧ route.guarded = true ∧
      ¬HttpCredentials W keys routeId route req)

theorem admissions_agree (W : World) (keys : ApiKeys) (routeId : String) (route : Row) (req : Incoming)
    (hget : req.method = "GET") (hip : orText req.ip (orText req.remoteAddress "") = orText req.remoteAddress "") :
    admitted (proxyAdmission W keys routeId route req) = wsAdmission W route req ↔
      IpRefused route (orText req.remoteAddress "") ∨ PathsAlike W keys routeId route req := by
  unfold PathsAlike
  rw [Bool.eq_iff_iff, admitted_http hget hip, admitted_ws]
  rw [← credentials_alike hget]
  by_cases hi : IpRefused route (orText req.remoteAddress "")
  · simp [hi]
  by_cases hp : PathRefused route req.path <;> by_cases hu : PathRefused route (upgradePath W req.url)
  · simp [hp, hu]
  · simp [hi, hp, hu]
  · simp [hi, hp, hu]
  · by_cases hg : route.guarded = true
    · simp [hi, hp, hu, hg]
    · simp [hi, hp, hu, hg]

/-! ## A sealed bearer token -/

/-- The token as it is stored. -/
def sealedToken : String := SECRET_PREFIX ++ World.plain.cipher.sealText Nonce.zero (utf8Bytes "token")

/-- A published route that takes upgrades, guarded by a bearer token. -/
def tokenRoute : Row := Row.ofFields
  [(.name, .str "chat"), (.publicPath, .str "/r/chat/*"), (.targetUrl, .str "http://upstream"), (.isActive, .bool true),
   (.status, .str "PUBLISHED"), (.wsEnabled, .bool true), (.requireAuth, .bool true), (.authType, .str "BEARER"),
   (.authValue, .str sealedToken)]
  (by intro c; cases c <;> rfl)

/-- A request with an `Authorization` header. -/
def bearing (authorization : String) : Incoming where
  method := "GET"
  url := "/r/chat/room"
  path := "/chat/room"
  header name := if name = "authorization" then some authorization else none
  ip := some "10.0.0.1"
  remoteAddress := some "10.0.0.1"

def noKeys : ApiKeys := ⟨0, [], fun _ _ => none⟩

theorem admissions_agree_wrong_token :
    admitted (proxyAdmission World.plain noKeys "chat" tokenRoute (bearing "Bearer guess")) =
        wsAdmission World.plain tokenRoute (bearing "Bearer guess") ↔
      IpRefused tokenRoute "10.0.0.1" ∨ PathsAlike World.plain noKeys "chat" tokenRoute (bearing "Bearer guess") :=
  admissions_agree World.plain noKeys "chat" tokenRoute (bearing "Bearer guess") rfl (by decide)

theorem a_sealed_token_is_refused :
    ¬∀ (W : World) (keys : ApiKeys) (routeId : String) (route : Row) (req : Incoming), route.published = true →
      route.flag .wsEnabled = true → req.method = "GET" → upgradePath W req.url = req.path →
      orText req.ip (orText req.remoteAddress "") = orText req.remoteAddress "" →
        admitted (proxyAdmission W keys routeId route req) = wsAdmission W route req := by
  intro h
  have hsame := h World.plain noKeys "chat" tokenRoute (bearing "Bearer token") (by decide +kernel) (by decide +kernel) rfl
    (by decide +kernel) (by decide)
  have hscheme : StaticScheme tokenRoute "Bearer " := .inr ⟨by decide +kernel, rfl⟩
  have hstored : tokenRoute.text .authValue = some sealedToken := rfl
  have hsent : ((bearing "Bearer token").header "authorization").bind (credentialsOf "Bearer ") = some "token" := by
    decide +kernel
  have hguarded : tokenRoute.guarded = true := by decide +kernel
  have hlists : tokenRoute.strings .ipAllowlist = [] ∧ tokenRoute.strings .pathAllowlist = [] := by decide +kernel
  have hhttp : admitted (validateRouteAuth World.plain noKeys "chat" tokenRoute (bearing "Bearer token")) = true :=
    (static_http hscheme).2 ⟨"token", by decide, by rw [hstored]; exact decryptSecret_sealed (W := World.plain) Gcm.plain_ideal Nonce.zero "token", hsent⟩
  have hws : isWsAuthorized World.plain tokenRoute (bearing "Bearer token") ≠ true := by
    intro hws
    obtain ⟨text, -, ht, hs⟩ := (static_ws hscheme).1 hws
    rw [hstored] at ht
    rw [hsent] at hs
    injection ht with ht
    injection hs with hs
    rw [← hs] at ht
    have hstart := startsWith_prefixed (World.plain.cipher.sealText Nonce.zero (utf8Bytes "token"))
    have htoken : Text.startsWith sealedToken SECRET_PREFIX = true := hstart
    rw [ht] at htoken
    exact absurd htoken (by decide)
  have hopen : proxyAdmission World.plain noKeys "chat" tokenRoute (bearing "Bearer token") =
      validateRouteAuth World.plain noKeys "chat" tokenRoute (bearing "Bearer token") := by
    unfold proxyAdmission
    simp only [hlists.1, hlists.2, ne_eq, not_true_eq_false, false_and, if_false, hguarded, if_true]
  have hopenWs : wsAdmission World.plain tokenRoute (bearing "Bearer token") = isWsAuthorized World.plain tokenRoute (bearing "Bearer token") := by
    unfold wsAdmission
    simp only [hlists.1, hlists.2, ne_eq, not_true_eq_false, false_and, if_false, hguarded, if_true]
  rw [hopen, hopenWs, hhttp] at hsame
  exact hws hsame.symm

end ClusterGate
