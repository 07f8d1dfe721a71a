/-
  ClusterGate.Route.Schema — what a route body may be (`routeBodySchema` of
  `routes/routes.router.ts`), for creating and importing, and for updates its
  `partialUpdate`.

  A body is an object; only the members the schema names are looked at. Credentials of
  BASIC auth may come as `{ username, password }` and are encoded after the schema.
  - `routeBodySchema_sound`: what a field of the schema puts out, a value or its default,
    the field admits.
-/

import ClusterGate.Lib.Zod
import ClusterGate.World
import ClusterGate.Route.PathAllowlist

namespace ClusterGate

open Lib Lib.Zod

/-! ## Leaves of the schema -/

def minLength (n : Nat) (message : Option String := none) : (String → Bool) × Option String :=
  (fun s => n ≤ Text.utf16Length s, message)

def maxLength (n : Nat) (message : Option String := none) : (String → Bool) × Option String :=
  (fun s => Text.utf16Length s ≤ n, message)

def startsWithCheck (p : String) (message : Option String := none) : (String → Bool) × Option String :=
  (fun s => Text.startsWith s p, message)

/-- `string().url(message)`: the trimmed text, if it parses. -/
def urlLeaf (W : World) (message : Option String) : Leaf
  | .str s => if (W.url (Text.trim s)).isSome then .ok (.str (Text.trim s)) else .error [([], message)]
  | _ => .error [([], none)]

def strings : Leaf := array (string [])

def httpMethods : List String := ["GET", "POST", "PUT", "PATCH", "DELETE", "HEAD", "OPTIONS"]

def rewriteRule : Leaf := Zod.object [("from", string []), ("to", string [])]

/-- What is wrong with an entry of the path allowlist. -/
def patternIssues (v : String) : List Zod.Issue :=
  (if v = "" then [([], none)] else []) ++
    (match validatePathPattern v with
      | some err => [([], some (v ++ ": " ++ err))]
      | none => [])

/-- One entry of the path allowlist: trimmed, checked, and put in normal form. -/
def pathPattern : Leaf
  | .str s =>
    if patternIssues (Text.trim s) = [] then .ok (.str (normalizePathPattern (Text.trim s)))
    else .error (patternIssues (Text.trim s))
  | _ => .error [([], none)]

def dedupeJson : Json → Json
  | .arr xs => .arr (dedupe xs)
  | v => v

def pathAllowlistLeaf : Leaf :=
  transform (array pathPattern [(fun xs => xs.length ≤ PATH_ALLOWLIST_MAX_ENTRIES, none)]) dedupeJson

def basicCredentials : Leaf := Zod.object [("username", string [minLength 1 "Username is required"]), ("password", string [])]

def authValueInput : ZodType := .optional (.leaf (union (string []) basicCredentials))

/-- `z.coerce.number().int()` within bounds. -/
def coercedInt (lo : Int) (hi : Option Int) : Leaf := coerced (fun v => v.toNumber?.map .num) (int lo hi)

/-! ## The schema -/

def dflt (v : Json) (f : Leaf) : ZodType := .default v (.leaf f)
def flagField (b : Bool) : ZodType := dflt (.bool b) boolean
def textField (checks : List ((String → Bool) × Option String) := []) : ZodType := .leaf (string checks)
def enumField (values : List String) (d : String) : ZodType := dflt (.str d) (enum values)

def routeBodySchema (W : World) : Shape Column
  | .name => textField [minLength 1 "Name is required", maxLength 100]
  | .description => ZodType.optional (textField [maxLength 500])
  | .publicPath => textField [minLength 1 "Public path is required",
      startsWithCheck "/r/" "Public path must start with /r/"]
  | .targetUrl => ZodType.leaf (urlLeaf W "Target URL must be a valid URL")
  | .methods => ZodType.leaf (array (enum httpMethods) [(fun xs => 1 ≤ xs.length, none)])
  | .tags => dflt (.arr []) strings
  | .timeout => dflt (.num 120000) (int 1000 (some 120000))
  | .retryCount => dflt (.num 0) (int 0 (some 5))
  | .retryDelay => dflt (.num 1000) (int 100 (some 10000))
  | .stripPrefix => flagField false
  | .sslVerify => flagField true
  | .streamResponse => flagField false
  | .rewriteRedirects => flagField true
  | .sandbox => flagField false
  | .requestBodyLimit => dflt (.str "10mb") (string [])
  | .addHeaders => dflt (.obj []) (record (string []))
  | .removeHeaders => dflt (.arr []) strings
  | .rewriteRules => dflt (.arr []) (array rewriteRule)
  | .corsEnabled => flagField false
  | .corsOrigins => dflt (.arr []) strings
  | .ipAllowlist => dflt (.arr []) strings
  | .pathAllowlist => dflt (.arr []) pathAllowlistLeaf
  | .requireAuth => flagField false
  | .authType => enumField Column.authTypes "NONE"
  | .authValue => authValueInput
  | .upstreamAuthType => enumField Column.authTypes "NONE"
  | .upstreamAuthValue => authValueInput
  | .upstreamAuthHeader => dflt (.str "X-API-Key") (string [])
  | .targetType => enumField ["GENERIC", "N8N"] "GENERIC"
  | .environment => enumField ["NONE", "PRODUCTION", "STAGING", "DEVELOPMENT"] "NONE"
  | .healthCheckMethod => enumField ["HEAD", "GET", "POST"] "HEAD"
  | .healthCheckPath => ZodType.optional textField
  | .healthCheckBody => ZodType.optional textField
  | .healthCheckInterval => dflt (.num 5) (coercedInt 1 (some 10080))
  | .protected_ => flagField false
  | .webhookSecret => ZodType.optional textField
  | .rateLimitEnabled => flagField false
  | .rateLimitMax => dflt (.num 100) (coercedInt 1 (some 100000))
  | .rateLimitWindow => dflt (.num 60000) (coercedInt 1000 (some 3600000))
  | .maintenanceMode => flagField false
  | .maintenanceMessage => ZodType.optional textField
  | .wsEnabled => flagField false
  | .circuitBreakerEnabled => flagField false
  | .cbFailureThreshold => dflt (.num 5) (int 1 (some 100))
  | .cbRecoveryTimeout => dflt (.num 30000) (int 1000 (some 300000))
  | .lbStrategy => enumField ["ROUND_ROBIN", "WEIGHTED", "FAILOVER"] "ROUND_ROBIN"
  | .routeGroupId => ZodType.optional (.nullable textField)
  | .organizationId => ZodType.optional (.nullable textField)
  | _ => none

/-- The fields in the schema's order, which is that of the issues. -/
def routeBodyFields : List Column :=
  [.name, .description, .publicPath, .targetUrl, .methods, .tags, .timeout, .retryCount, .retryDelay, .stripPrefix,
   .sslVerify, .streamResponse, .rewriteRedirects, .sandbox, .requestBodyLimit, .addHeaders, .removeHeaders,
   .rewriteRules, .corsEnabled, .corsOrigins, .ipAllowlist, .pathAllowlist, .requireAuth, .authType, .authValue,
   .upstreamAuthType, .upstreamAuthValue, .upstreamAuthHeader, .targetType, .environment, .healthCheckMethod,
   .healthCheckPath, .healthCheckBody, .healthCheckInterval, .protected_, .webhookSecret, .rateLimitEnabled,
   .rateLimitMax, .rateLimitWindow, .maintenanceMode, .maintenanceMessage, .wsEnabled, .circuitBreakerEnabled,
   .cbFailureThreshold, .cbRecoveryTimeout, .lbStrategy, .routeGroupId, .organizationId]

/-- The list names every field of the schema. -/
theorem schema_field {W : World} {c : Column} {t : ZodType} (h : routeBodySchema W c = some t) : c ∈ routeBodyFields := by
  cases c <;> cases h <;> decide

/-- `encodeBasicAuthInputs`: `{ username, password }` becomes the base64 of the pair. -/
def encodeBasicAuth (W : World) (c : Column) (v : Json) : Json :=
  if c = .authValue ∨ c = .upstreamAuthValue then
    match v.get? "username" with
    | some u => .str (W.base64 (((u.str?).getD "") ++ ":" ++ (((v.get? "password").bind Json.str?).getD "")))
    | none => v
  else v

def encodeBasicAuthInputs (W : World) (data : Patch) : Patch := fun c => (data c).map (encodeBasicAuth W c)

/-! ## Soundness -/

theorem urlLeaf_ok {W : World} {m : Option String} {v w : Json} (h : urlLeaf W m v = .ok w) :
    ∃ s, v = .str s ∧ w = .str (Text.trim s) ∧ (W.url (Text.trim s)).isSome = true := by
  cases v with
  | str s =>
    simp only [urlLeaf] at h
    split at h
    · rename_i hs
      injection h with h
      exact ⟨s, rfl, h.symm, hs⟩
    · cases h
  | _ => cases h

theorem urlLeaf_fixes (W : World) (m : Option String) : Fixes (urlLeaf W m) := by
  intro v w h
  obtain ⟨s, rfl, rfl, hs⟩ := urlLeaf_ok h
  simp only [urlLeaf, Text.trim_trim, hs, if_true]

theorem rewriteRule_fixes : Fixes rewriteRule :=
  object_two_fixes (by decide) (string_fixes []) (string_fixes [])

theorem patternIssues_eq_nil {v : String} : patternIssues v = [] ↔ v ≠ "" ∧ validatePathPattern v = none := by
  unfold patternIssues
  rw [List.append_eq_nil_iff]
  refine and_congr ?_ ?_
  · split <;> simp_all
  · split <;> simp_all

theorem pathPattern_ok {v w : Json} (h : pathPattern v = .ok w) :
    ∃ p, w = .str (normalizePathPattern p) ∧ validatePathPattern p = none := by
  cases v with
  | str s =>
    simp only [pathPattern] at h
    split at h
    · rename_i hi
      injection h with h
      exact ⟨Text.trim s, h.symm, (patternIssues_eq_nil.1 hi).2⟩
    · cases h
  | _ => cases h

theorem normalizePathPattern_ne (p : String) : normalizePathPattern p ≠ "" := by
  intro h
  obtain ⟨t, ht⟩ := normalChars_eq (Text.trim p).toList
  have := congrArg String.toList h
  rw [normalizePathPattern, String.toList_ofList, ht] at this
  cases this

theorem pathPattern_fixes : Fixes pathPattern := by
  intro v w h
  obtain ⟨p, rfl, hp⟩ := pathPattern_ok h
  obtain ⟨ht, hn, hv⟩ := normalizePathPattern_valid hp
  simp only [pathPattern, ht, hn, patternIssues_eq_nil.2 ⟨normalizePathPattern_ne p, hv⟩, if_true]

theorem pathAllowlistLeaf_fixes : Fixes pathAllowlistLeaf := by
  intro v w h
  simp only [pathAllowlistLeaf, transform] at h ⊢
  cases ha : array pathPattern [(fun xs => xs.length ≤ PATH_ALLOWLIST_MAX_ENTRIES, none)] v with
  | error e => rw [ha] at h; cases h
  | ok u =>
    rw [ha] at h
    obtain ⟨xs, ys, rfl, rfl, hm, hc⟩ := array_ok ha
    cases h
    have hy := mapM_eq_self.1 (mapM_fixes pathPattern_fixes hm)
    have hlen : ys.length ≤ PATH_ALLOWLIST_MAX_ENTRIES := by simpa using hc
    have hm' : ((dedupe ys).mapM fun x => (pathPattern x).toOption) = some (dedupe ys) :=
      mapM_eq_self.2 fun x hx => hy x (mem_dedupe.1 hx)
    rw [dedupeJson, array_of_mapM hm' (by simpa using Nat.le_trans (length_dedupe_le ys) hlen)]
    simp only [Except.map, dedupeJson, dedupe_of_nodup (nodup_dedupe ys)]

theorem coercedInt_fixes (lo : Int) (hi : Option Int) : Fixes (coercedInt lo hi) := by
  refine coerced_fixes (int_fixes lo hi) fun {v w} h => ?_
  obtain ⟨rfl, n, hn, -⟩ := int_ok h
  cases w with
  | num q => rfl
  | _ => cases hn

theorem basicCredentials_fixes : Fixes basicCredentials :=
  object_two_fixes (by decide) (string_fixes _) (string_fixes [])

theorem authValue_fixes : Fixes (union (string []) basicCredentials) := by
  intro v w h
  simp only [union] at h
  split at h
  · rename_i w' hw
    injection h with h
    subst h
    simp only [union, string_fixes [] hw]
  · split at h
    · rename_i w' hw
      injection h with h
      subst h
      obtain ⟨x, y, a, b, -, -, rfl⟩ := object_two_ok hw
      simp only [union, string, basicCredentials_fixes hw]
    · cases h

theorem dflt_sound {d w : Json} {f : Leaf} (hd : f d = .ok w) (hf : Fixes f) : (dflt d f).Sound :=
  ⟨⟨w, by simp only [ZodType.parse, hd]; rfl⟩, hf⟩

theorem textField_sound (checks : List ((String → Bool) × Option String)) : (textField checks).Sound := string_fixes checks

theorem enumField_sound {values : List String} {d : String} (h : d ∈ values) : (enumField values d).Sound :=
  dflt_sound (w := .str d) (by simp only [enum, h, if_true]) (enum_fixes values)

theorem intField_sound {lo hi n : Int} (h : lo ≤ n ∧ n ≤ hi) : (dflt (.num n) (int lo (some hi))).Sound :=
  dflt_sound (w := .num n) (by simp [int, Json.int?, h]) (int_fixes lo (some hi))

theorem coercedField_sound {lo hi n : Int} (h : lo ≤ n ∧ n ≤ hi) : (dflt (.num n) (coercedInt lo (some hi))).Sound :=
  dflt_sound (w := .num n) (by simp [coercedInt, coerced, int, Json.toNumber?, Json.int?, h]) (coercedInt_fixes lo (some hi))

theorem listField_sound {elem : Leaf} (h : Fixes elem) : (dflt (.arr []) (array elem)).Sound :=
  dflt_sound (w := .arr []) rfl (array_fixes h [])

/-- Every leaf of the route schema fixes what it puts out, and every default passes its
    own field's check. -/
theorem routeBodySchema_sound (W : World) {c : Column} {t : ZodType} (h : routeBodySchema W c = some t) : t.Sound := by
  cases c <;> cases h
  case methods => exact array_fixes (enum_fixes httpMethods) _
  case targetUrl => exact urlLeaf_fixes W _
  case rewriteRules => exact listField_sound rewriteRule_fixes
  case pathAllowlist => exact dflt_sound (w := .arr []) rfl pathAllowlistLeaf_fixes
  case addHeaders => exact dflt_sound (w := .obj []) rfl record_string_fixes
  case tags | removeHeaders | corsOrigins | ipAllowlist => exact listField_sound (string_fixes [])
  case authValue | upstreamAuthValue => exact authValue_fixes
  case timeout | retryCount | retryDelay | cbFailureThreshold | cbRecoveryTimeout => exact intField_sound (by decide)
  case healthCheckInterval | rateLimitMax | rateLimitWindow => exact coercedField_sound (by decide)
  case authType | upstreamAuthType | targetType | environment | healthCheckMethod | lbStrategy =>
    exact enumField_sound (by decide)
  case requestBodyLimit | upstreamAuthHeader => exact dflt_sound rfl (string_fixes [])
  all_goals first | exact textField_sound _ | exact dflt_sound rfl boolean_fixes

/-! ## Its numbers -/

theorem int_admits {lo hi : Int} {v w : Json} (hlo : -2147483648 ≤ lo) (hhi : hi ≤ 2147483647)
    (h : int lo (some hi) v = .ok w) : ColType.int.admits v = true := by
  obtain ⟨-, n, hn, hl, hh⟩ := int_ok h
  have hb := hh hi rfl
  simp only [ColType.admits, hn, Bool.and_eq_true, decide_eq_true_eq]
  omega

/-- The numbers the schema takes are integers of their columns. -/
theorem admits_number {W : World} {c : Column} {t : ZodType} {q : Rat} (ht : routeBodySchema W c = some t) (h : t.Admits (.num q)) :
    c.admits (.num q) = true := by
  obtain ⟨w, hw⟩ := h
  have plain : ∀ {lo hi : Int} {d : Json}, -2147483648 ≤ lo → hi ≤ 2147483647 →
      (dflt d (int lo (some hi))).parse (some (.num q)) = .ok (some w) → ColType.int.admits (.num q) = true := by
    intro lo hi d hlo hhi hp
    obtain ⟨_, _, hv, -, hleaf⟩ := ZodType.parse_leaf (f := int lo (some hi)) hp
    rw [Option.some.inj hv]
    exact int_admits hlo hhi hleaf
  -- what is a number already is coerced to itself
  have coerced : ∀ {lo hi : Int} {d : Json}, -2147483648 ≤ lo → hi ≤ 2147483647 →
      (dflt d (coercedInt lo (some hi))).parse (some (.num q)) = .ok (some w) → ColType.int.admits (.num q) = true := by
    intro lo hi d hlo hhi hp
    obtain ⟨_, _, hv, -, hleaf⟩ := ZodType.parse_leaf (f := coercedInt lo (some hi)) hp
    rw [← Option.some.inj hv] at hleaf
    exact int_admits hlo hhi hleaf
  cases c <;> cases ht
  case timeout | retryCount | retryDelay | cbFailureThreshold | cbRecoveryTimeout => exact plain (by decide) (by decide) hw
  case healthCheckInterval | rateLimitMax | rateLimitWindow => exact coerced (by decide) (by decide) hw
  all_goals cases hw

/-- So a value of the schema is stored as it is. -/
theorem schema_coerced {W : World} {c : Column} {t : ZodType} {v : Json} (ht : routeBodySchema W c = some t)
    (h : t.Admits v) : c.coerce v = v := by
  cases v with
  | num q => exact Column.coerce_admitted (admits_number ht h)
  | _ => exact ColType.coerce_of_not_num (fun q e => by cases e) _

end ClusterGate
