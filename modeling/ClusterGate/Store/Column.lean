/-
  ClusterGate.Store.Column — the columns of the routes table (`model Route` of
  `schema.prisma`), their types and defaults, and what a write of a value does to one.

  The key `id` is not a column here: it is the key of the table. A row carries the proof
  that every value has its column's type. A patch is the `data` of a write: what it
  leaves out stays. The database client takes a field either as a value or as one
  operation on it (`{ set: v }`, for numbers `increment` and its kin, for lists `push`).
  For an `Int` it takes a number without its fraction (`ColType.coerce`).

  Texts are without NUL, which the database refuses, and a JSON value is read back as it was
  written, where the database may list its members in another order.
  - `writeField_admits`: a write that goes through leaves a value of the column's type.
  - `write_val`: what a written row holds, column by column.
-/

import ClusterGate.Lib.Json

namespace ClusterGate

open Lib

inductive Column
  | name | slug | description | publicPath | targetUrl | methods | isActive | status | tags | environment | version
  | timeout | retryCount | retryDelay | rateLimitEnabled | rateLimitMax | rateLimitWindow
  | stripPrefix | sslVerify | streamResponse | requestBodyLimit | rewriteRedirects | sandbox
  | addHeaders | removeHeaders | rewriteRules | corsEnabled | corsOrigins | ipAllowlist | pathAllowlist
  | requireAuth | authType | authValue | upstreamAuthType | upstreamAuthValue | upstreamAuthHeader | targetType
  | healthCheckMethod | healthCheckPath | healthCheckBody | healthCheckInterval | protected_ | webhookSecret
  | maintenanceMode | maintenanceMessage | wsEnabled
  | circuitBreakerEnabled | cbFailureThreshold | cbRecoveryTimeout | cbState | cbFailureCount | cbLastFailureAt
  | cbOpenedAt | lbStrategy | lbRrIndex | deletedAt | createdAt | updatedAt | createdById | updatedById
  | routeGroupId | folderId | organizationId
  deriving DecidableEq

inductive ColType
  | string | int | boolean | dateTime | json | strings
  | enum (values : List String)
  deriving DecidableEq

/-- Whether a value is one of the type; an `Int` of the schema has 32 bits. -/
def ColType.admits : ColType → Json → Bool
  | .string, v | .dateTime, v => v.isStr
  | .int, v => match v.int? with
    | some n => -2147483648 ≤ n && n ≤ 2147483647
    | none => false
  | .boolean, v => match v with
    | .bool _ => true
    | _ => false
  | .json, v => v ≠ .null
  | .strings, v => v.strList?.isSome
  | .enum values, v => match v with
    | .str s => values.contains s
    | _ => false

/-- A value as the client hands it on for the type: a number loses its fraction for an `Int`. -/
def ColType.coerce : ColType → Json → Json
  | .int, .num q => .num (q.num.tdiv q.den : Int)
  | _, v => v

theorem ColType.coerce_of_ne {t : ColType} (h : t ≠ .int) (v : Json) : t.coerce v = v := by
  unfold coerce
  split
  · exact absurd rfl h
  · rfl

theorem ColType.coerce_of_not_num {v : Json} (h : ∀ q, v ≠ .num q) (t : ColType) : t.coerce v = v := by
  unfold coerce
  split
  · exact absurd rfl (h _)
  · rfl

/-- A value of the type is handed on as it is. -/
theorem ColType.coerce_admitted {t : ColType} {v : Json} (h : t.admits v = true) : t.coerce v = v := by
  by_cases ht : t = .int
  · subst ht
    cases v with
    | num q =>
      cases hn : (Json.num q).int? with
      | none => simp [admits, hn] at h
      | some n =>
        have hden : q.den = 1 := by
          by_contra hne
          simp [Json.int?, hne] at hn
        have hq : ((q.num : Int) : Rat) = q := Rat.den_eq_one_iff q |>.1 hden
        simp [coerce, hden, hq]
    | _ => rfl
  · exact coerce_of_ne ht v

namespace Column

def all : List Column :=
  [.name, .slug, .description, .publicPath, .targetUrl, .methods, .isActive, .status, .tags, .environment, .version,
   .timeout, .retryCount, .retryDelay, .rateLimitEnabled, .rateLimitMax, .rateLimitWindow,
   .stripPrefix, .sslVerify, .streamResponse, .requestBodyLimit, .rewriteRedirects, .sandbox,
   .addHeaders, .removeHeaders, .rewriteRules, .corsEnabled, .corsOrigins, .ipAllowlist, .pathAllowlist,
   .requireAuth, .authType, .authValue, .upstreamAuthType, .upstreamAuthValue, .upstreamAuthHeader, .targetType,
   .healthCheckMethod, .healthCheckPath, .healthCheckBody, .healthCheckInterval, .protected_, .webhookSecret,
   .maintenanceMode, .maintenanceMessage, .wsEnabled,
   .circuitBreakerEnabled, .cbFailureThreshold, .cbRecoveryTimeout, .cbState, .cbFailureCount, .cbLastFailureAt,
   .cbOpenedAt, .lbStrategy, .lbRrIndex, .deletedAt, .createdAt, .updatedAt, .createdById, .updatedById,
   .routeGroupId, .folderId, .organizationId]

theorem mem_all (c : Column) : c ∈ all := by cases c <;> decide

instance decidableForall (p : Column → Prop) [∀ c, Decidable (p c)] : Decidable (∀ c, p c) :=
  decidable_of_iff (∀ c ∈ all, p c) ⟨fun h c => h c (mem_all c), fun h c _ => h c⟩

/-- The name of a column as a member of an object. -/
def key : Column → String
  | .name => "name" | .slug => "slug" | .description => "description" | .publicPath => "publicPath"
  | .targetUrl => "targetUrl" | .methods => "methods" | .isActive => "isActive" | .status => "status"
  | .tags => "tags" | .environment => "environment" | .version => "version" | .timeout => "timeout"
  | .retryCount => "retryCount" | .retryDelay => "retryDelay" | .rateLimitEnabled => "rateLimitEnabled"
  | .rateLimitMax => "rateLimitMax" | .rateLimitWindow => "rateLimitWindow" | .stripPrefix => "stripPrefix"
  | .sslVerify => "sslVerify" | .streamResponse => "streamResponse" | .requestBodyLimit => "requestBodyLimit"
  | .rewriteRedirects => "rewriteRedirects" | .sandbox => "sandbox" | .addHeaders => "addHeaders"
  | .removeHeaders => "removeHeaders" | .rewriteRules => "rewriteRules" | .corsEnabled => "corsEnabled"
  | .corsOrigins => "corsOrigins" | .ipAllowlist => "ipAllowlist" | .pathAllowlist => "pathAllowlist"
  | .requireAuth => "requireAuth" | .authType => "authType" | .authValue => "authValue"
  | .upstreamAuthType => "upstreamAuthType" | .upstreamAuthValue => "upstreamAuthValue"
  | .upstreamAuthHeader => "upstreamAuthHeader" | .targetType => "targetType"
  | .healthCheckMethod => "healthCheckMethod" | .healthCheckPath => "healthCheckPath"
  | .healthCheckBody => "healthCheckBody" | .healthCheckInterval => "healthCheckInterval"
  | .protected_ => "protected" | .webhookSecret => "webhookSecret" | .maintenanceMode => "maintenanceMode"
  | .maintenanceMessage => "maintenanceMessage" | .wsEnabled => "wsEnabled"
  | .circuitBreakerEnabled => "circuitBreakerEnabled" | .cbFailureThreshold => "cbFailureThreshold"
  | .cbRecoveryTimeout => "cbRecoveryTimeout" | .cbState => "cbState" | .cbFailureCount => "cbFailureCount"
  | .cbLastFailureAt => "cbLastFailureAt" | .cbOpenedAt => "cbOpenedAt" | .lbStrategy => "lbStrategy"
  | .lbRrIndex => "lbRrIndex" | .deletedAt => "deletedAt" | .createdAt => "createdAt" | .updatedAt => "updatedAt"
  | .createdById => "createdById" | .updatedById => "updatedById" | .routeGroupId => "routeGroupId"
  | .folderId => "folderId" | .organizationId => "organizationId"

def authTypes : List String := ["NONE", "API_KEY", "BASIC", "BEARER"]

def type : Column → ColType
  | .methods | .tags | .removeHeaders | .corsOrigins | .ipAllowlist | .pathAllowlist => .strings
  | .isActive | .rateLimitEnabled | .stripPrefix | .sslVerify | .streamResponse | .rewriteRedirects | .sandbox
  | .corsEnabled | .requireAuth | .protected_ | .maintenanceMode | .wsEnabled | .circuitBreakerEnabled => .boolean
  | .version | .timeout | .retryCount | .retryDelay | .rateLimitMax | .rateLimitWindow | .healthCheckInterval
  | .cbFailureThreshold | .cbRecoveryTimeout | .cbFailureCount | .lbRrIndex => .int
  | .addHeaders | .rewriteRules => .json
  | .status => .enum ["DRAFT", "PUBLISHED"]
  | .environment => .enum ["NONE", "PRODUCTION", "STAGING", "DEVELOPMENT"]
  | .authType | .upstreamAuthType => .enum authTypes
  | .targetType => .enum ["GENERIC", "N8N"]
  | .lbStrategy => .enum ["ROUND_ROBIN", "WEIGHTED", "FAILOVER"]
  | .cbLastFailureAt | .cbOpenedAt | .deletedAt | .createdAt | .updatedAt => .dateTime
  | _ => .string

def nullable : Column → Bool
  | .slug | .description | .authValue | .upstreamAuthValue | .upstreamAuthHeader | .healthCheckMethod
  | .healthCheckPath | .healthCheckBody | .webhookSecret | .maintenanceMessage | .cbLastFailureAt | .cbOpenedAt
  | .deletedAt | .createdById | .updatedById | .routeGroupId | .folderId | .organizationId => true
  | _ => false

/-- The value of a column that a create leaves out; a required column without a default
    has none. -/
def default : Column → Option Json
  | .methods => some (Json.ofStrList ["GET", "POST"])
  | .tags | .removeHeaders | .corsOrigins | .ipAllowlist | .pathAllowlist => some (.arr [])
  | .isActive | .rateLimitEnabled | .stripPrefix | .streamResponse | .sandbox | .corsEnabled | .requireAuth
  | .protected_ | .maintenanceMode | .wsEnabled | .circuitBreakerEnabled => some (.bool false)
  | .sslVerify | .rewriteRedirects => some (.bool true)
  | .status => some (.str "DRAFT")
  | .environment | .authType | .upstreamAuthType => some (.str "NONE")
  | .targetType => some (.str "GENERIC")
  | .lbStrategy => some (.str "ROUND_ROBIN")
  | .cbState => some (.str "CLOSED")
  | .version => some (.num 1)
  | .timeout => some (.num 120000)
  | .retryCount | .cbFailureCount | .lbRrIndex => some (.num 0)
  | .retryDelay => some (.num 1000)
  | .rateLimitMax => some (.num 100)
  | .rateLimitWindow => some (.num 60000)
  | .healthCheckInterval | .cbFailureThreshold => some (.num 5)
  | .cbRecoveryTimeout => some (.num 30000)
  | .requestBodyLimit => some (.str "10mb")
  | .addHeaders => some (.obj [])
  | .rewriteRules => some (.arr [])
  | .upstreamAuthHeader => some (.str "X-API-Key")
  | .healthCheckMethod => some (.str "HEAD")
  | .maintenanceMessage => some (.str "This service is temporarily unavailable.")
  | c => if c.nullable then some .null else none

/-- Whether a column may hold a value. -/
def admits (c : Column) (v : Json) : Bool := (c.nullable && v = .null) || c.type.admits v

/-- A value as a write of the column has it. -/
def coerce (c : Column) (v : Json) : Json := c.type.coerce v

theorem coerce_admitted {c : Column} {v : Json} (h : c.admits v = true) : c.coerce v = v := by
  rcases Bool.or_eq_true_iff.1 h with hnull | htype
  · obtain rfl : v = .null := by simpa using (Bool.and_eq_true_iff.1 hnull).2
    exact ColType.coerce_of_not_num (fun _ h => by cases h) _
  · exact ColType.coerce_admitted htype

/-- Every default passes its own column's check. -/
theorem default_admits : ∀ (c : Column) (v : Json), c.default = some v → c.admits v = true := by
  intro c v h
  cases c <;> cases h <;> decide

end Column

/-! ## Rows -/

structure Row where
  val : Column → Json
  typed : ∀ c : Column, c.admits (val c) = true

namespace Row

theorem ext {r r' : Row} (h : ∀ c, r.val c = r'.val c) : r = r' := by
  cases r; cases r'
  simp only [Row.mk.injEq]
  exact funext h

/-- The text of a column, absent if it is null. -/
def text (r : Row) (c : Column) : Option String := (r.val c).str?

/-- The text of a column that is never null. -/
def string (r : Row) (c : Column) : String := (r.text c).getD ""

/-- The texts of a list column. -/
def strings (r : Row) (c : Column) : List String := (r.val c).strList?.getD []

/-- Whether a flag is set. -/
def flag (r : Row) (c : Column) : Bool := r.val c = .bool true

/-- Not archived. -/
def live (r : Row) : Bool := r.val .deletedAt = .null

theorem string_val (r : Row) {c : Column} (ht : c.type = .string) (hn : c.nullable = false) :
    ∃ s, r.val c = .str s := by
  have h := r.typed c
  simp only [Column.admits, hn, Bool.false_and, ht, ColType.admits, Bool.false_or] at h
  exact Json.isStr_iff.1 h

end Row

/-! ## Writing -/

/-- The `data` of a write; a column it leaves out is absent. -/
abbrev Patch := Column → Option Json

namespace Patch

def empty : Patch := fun _ => none

def ofList (kvs : List (Column × Json)) : Patch := fun c => (kvs.find? fun p => p.1 = c).map Prod.snd

/-- `{ ...p, ...q }`. -/
def merge (p q : Patch) : Patch := fun c => (q c).or (p c)

def set (p : Patch) (c : Column) (v : Json) : Patch := fun c' => if c' = c then some v else p c'

def remove (p : Patch) (cs : List Column) : Patch := fun c => if c ∈ cs then none else p c

/-- The members of an object that are named as columns. -/
def ofMembers (kvs : List (String × Json)) : Patch := fun c => (Json.obj kvs).get? c.key

@[simp] theorem set_same (p : Patch) (c : Column) (v : Json) : p.set c v c = some v := by simp [set]

theorem mem_of_ofList {kvs : List (Column × Json)} {c : Column} {v : Json} (h : ofList kvs c = some v) : (c, v) ∈ kvs := by
  obtain ⟨⟨c', v'⟩, hf, rfl⟩ := Option.map_eq_some_iff.1 h
  obtain rfl : c' = c := by simpa using List.find?_some hf
  exact List.mem_of_find?_eq_some hf

theorem ofList_none {kvs : List (Column × Json)} {c : Column} (h : c ∉ kvs.map Prod.fst) : ofList kvs c = none := by
  cases hv : ofList kvs c with
  | none => rfl
  | some v => exact absurd (List.mem_map.2 ⟨(c, v), mem_of_ofList hv, rfl⟩) h

theorem set_ne (p : Patch) {c c' : Column} (v : Json) (h : c' ≠ c) : p.set c v c' = p c' := by simp [set, h]

end Patch

/-- One operation of the client on a field: `{ op: x }`. -/
def fieldOp (t : ColType) (op : String) (old x : Json) : Option Json :=
  match op, t with
  | "set", _ => some x
  | "increment", .int => (old.int?.bind fun a => x.int?.map (a + ·)).map fun n : Int => .num n
  | "decrement", .int => (old.int?.bind fun a => x.int?.map (a - ·)).map fun n : Int => .num n
  | "multiply", .int => (old.int?.bind fun a => x.int?.map (a * ·)).map fun n : Int => .num n
  | "divide", .int => (old.int?.bind fun a => (x.int?.filter (· ≠ 0)).map (a.tdiv ·)).map fun n : Int => .num n
  | "push", .strings => (old.strList?.bind fun xs => match x with
    | .str s => some (xs ++ [s])
    | v => v.strList?.map (xs ++ ·)).map Json.ofStrList
  | _, _ => none

/-- The value a field holds after a write of `v`, if the client and the database take it. -/
def writeField (c : Column) (old v : Json) : Option Json :=
  if c.admits (c.coerce v) then some (c.coerce v)
  else match c.type, v with
    | .json, _ => none
    | t, .obj [(op, x)] => (fieldOp t op old (t.coerce x)).filter fun w => c.admits w
    | _, _ => none

theorem writeField_admits {c : Column} {old v w : Json} (h : writeField c old v = some w) : c.admits w = true := by
  unfold writeField at h
  split at h
  · injection h with h; subst h; assumption
  · split at h
    · cases h
    · exact (Option.filter_eq_some_iff.1 h).2
    · cases h

theorem writeField_plain {c : Column} {v : Json} (old : Json) (h : c.admits v = true) : writeField c old v = some v := by
  simp [writeField, Column.coerce_admitted h, h]

/-- What is no object is stored as the column's value, or not at all. -/
theorem writeField_coerced {c : Column} {old v w : Json} (hv : ∀ kvs, v ≠ .obj kvs) (h : writeField c old v = some w) :
    w = c.coerce v := by
  unfold writeField at h
  split at h
  · injection h with h
    exact h.symm
  · split at h
    · cases h
    · exact absurd rfl (hv _)
    · cases h

/-- Neither an operation on a field nor a number. -/
def isFixed : Json → Bool
  | .obj _ | .num _ => false
  | _ => true

/-- Such a value is stored as it is, or not at all. -/
theorem writeField_value {c : Column} {old v w : Json} (hv : isFixed v = true) (h : writeField c old v = some w) : w = v := by
  refine (writeField_coerced ?_ h).trans (ColType.coerce_of_not_num ?_ _)
  · rintro kvs rfl
    cases hv
  · rintro q rfl
    cases hv

/-- A text column takes a text, or the operation that sets one. -/
theorem writeField_text {c : Column} {old v w : Json} (ht : c.type = .string) (hn : c.nullable = false)
    (h : writeField c old v = some w) : ∃ s, w = .str s ∧ (v = .str s ∨ v = .obj [("set", .str s)]) := by
  have hw := writeField_admits h
  simp only [Column.admits, hn, Bool.false_and, Bool.false_or, ht, ColType.admits, Json.isStr_iff] at hw
  obtain ⟨s, rfl⟩ := hw
  refine ⟨s, rfl, ?_⟩
  have hcoerce : ∀ x, c.coerce x = x := ColType.coerce_of_ne (by rw [ht]; decide)
  unfold writeField at h
  rw [hcoerce, ht] at h
  split at h
  · injection h with h
    exact Or.inl h
  · split at h
    · cases h
    · rename_i op x _
      obtain ⟨hf, -⟩ := Option.filter_eq_some_iff.1 h
      rw [ColType.coerce_of_ne (by decide)] at hf
      unfold fieldOp at hf
      split at hf <;> simp_all
    · cases h

/-- What a text is written over a field leaves: that text, or nothing. -/
theorem writeField_str {c : Column} {old w : Json} {s : String} (h : writeField c old (.str s) = some w) :
    w = .str s := writeField_value rfl h

/-- The value of a column after a write. -/
def written (r : Row) (p : Patch) (c : Column) : Option Json :=
  match p c with
  | none => some (r.val c)
  | some v => writeField c (r.val c) v

theorem written_admits {r : Row} {p : Patch} {c : Column} {w : Json} (h : written r p c = some w) :
    c.admits w = true := by
  unfold written at h
  split at h
  · injection h with h; subst h; exact r.typed c
  · exact writeField_admits h

/-- The row after a write of `p`, if every field of it is taken. -/
def Row.write (r : Row) (p : Patch) : Option Row :=
  if h : ∀ c, (written r p c).isSome then
    some ⟨fun c => (written r p c).get (h c), fun c => written_admits (Option.some_get (h c)).symm⟩
  else none

theorem write_val {r r' : Row} {p : Patch} (h : r.write p = some r') (c : Column) : written r p c = some (r'.val c) := by
  unfold Row.write at h
  split at h
  · rename_i hs
    injection h with h
    subst h
    exact (Option.some_get (hs c)).symm
  · cases h

theorem write_same {r r' : Row} {p : Patch} (h : r.write p = some r') {c : Column} (hc : p c = none) :
    r'.val c = r.val c := by
  have := write_val h c
  simp only [written, hc, Option.some.injEq] at this
  exact this.symm

theorem write_field {r r' : Row} {p : Patch} (h : r.write p = some r') {c : Column} {v : Json} (hc : p c = some v) :
    writeField c (r.val c) v = some (r'.val c) := by
  have := write_val h c
  simpa only [written, hc] using this

theorem write_plain {r r' : Row} {p : Patch} (h : r.write p = some r') {c : Column} {v : Json} (hc : p c = some v)
    (ha : c.admits v = true) : r'.val c = v := by
  have := write_field h hc
  rw [writeField_plain _ ha] at this
  injection this with this
  exact this.symm

theorem write_isSome {r : Row} {p : Patch} : (r.write p).isSome ↔ ∀ c, (written r p c).isSome = true := by
  unfold Row.write
  split <;> simp_all

/-! ## Creating -/

/-- The value of a column in a new row. -/
def createdField (p : Patch) (c : Column) : Option Json :=
  match p c with
  | some v => if c.admits (c.coerce v) then some (c.coerce v) else none
  | none => c.default

theorem createdField_admits {p : Patch} {c : Column} {w : Json} (h : createdField p c = some w) : c.admits w = true := by
  unfold createdField at h
  split at h
  · split at h
    · injection h with h; subst h; assumption
    · cases h
  · exact Column.default_admits c w h

/-- The new row of a create, if every required field is there and all are taken. -/
def Row.create (p : Patch) : Option Row :=
  if h : ∀ c, (createdField p c).isSome then
    some ⟨fun c => (createdField p c).get (h c), fun c => createdField_admits (Option.some_get (h c)).symm⟩
  else none

/-- The row of the given fields, with defaults elsewhere. -/
def Row.ofFields (fields : List (Column × Json))
    (h : ∀ c : Column, c.admits (((Patch.ofList fields c).or c.default).getD (.str "")) = true) : Row :=
  ⟨fun c => ((Patch.ofList fields c).or c.default).getD (.str ""), h⟩

theorem create_val {r : Row} {p : Patch} (h : Row.create p = some r) (c : Column) :
    createdField p c = some (r.val c) := by
  unfold Row.create at h
  split at h
  · rename_i hs
    injection h with h
    subst h
    exact (Option.some_get (hs c)).symm
  · cases h

theorem create_coerced {r : Row} {p : Patch} (h : Row.create p = some r) {c : Column} {v : Json} (hc : p c = some v) :
    r.val c = c.coerce v := by
  have := create_val h c
  simp only [createdField, hc] at this
  split at this
  · injection this with this; exact this.symm
  · cases this

theorem create_given {r : Row} {p : Patch} (h : Row.create p = some r) {c : Column} {v : Json} (hc : p c = some v)
    (hv : c.coerce v = v) : r.val c = v := (create_coerced h hc).trans hv

theorem create_default {r : Row} {p : Patch} (h : Row.create p = some r) {c : Column} (hc : p c = none) :
    c.default = some (r.val c) := by
  have := create_val h c
  simpa only [createdField, hc] using this

end ClusterGate
