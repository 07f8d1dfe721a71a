/-
  ClusterGate.Backup.Schema — all tables of `prisma/schema.prisma`: their columns, the
  columns that are unique, and what refers to what.

  A row is the record a query answers with, a time in it as the text JSON gives it. The
  columns of a route are those of `Store.Column`. A relation without `onDelete` sets an
  optional column to null and restricts a required one.
  - `schema`: the relations as a `Schema`, with the order in which a table comes after those
    it refers to.
  - `WellFormed`: rows fit their columns, and the keys and references hold.
-/

import ClusterGate.Lib.Relational
import ClusterGate.Store.Column

namespace ClusterGate

open Lib

/-! ## Times as texts -/

/-- The text begins as the template does, where a `0` stands for any digit. -/
def fitsTemplate : List Char → List Char → Bool
  | [], _ => true
  | _ :: _, [] => false
  | t :: ts, c :: cs => (if t = '0' then c.isDigit else c = t) && fitsTemplate ts cs

def DATE_SHAPE : List Char := "0000-00-00T00:00:00".toList

/-- `/^\d{4}-\d{2}-\d{2}T\d{2}:\d{2}:\d{2}/` -/
def dateShaped (s : String) : Bool := fitsTemplate DATE_SHAPE s.toList

/-- The number that `n` digits from the `i`th on are. -/
def digitsAt (cs : List Char) (i n : Nat) : Nat := ((cs.drop i).take n).foldl (fun a c => 10 * a + (c.toNat - 48)) 0

def daysInMonth (year month : Nat) : Nat :=
  if month = 2 then (if year % 4 = 0 ∧ (year % 100 ≠ 0 ∨ year % 400 = 0) then 29 else 28)
  else if month ∈ [4, 6, 9, 11] then 30 else 31

/-- What `toISOString` makes of a time before the year 10000, the only ones the database takes. -/
def isoDateTime (s : String) : Bool :=
  let cs := s.toList
  fitsTemplate (DATE_SHAPE ++ ".000Z".toList) cs && cs.length = 24 && 1 ≤ digitsAt cs 5 2 && digitsAt cs 5 2 ≤ 12 &&
    1 ≤ digitsAt cs 8 2 && digitsAt cs 8 2 ≤ daysInMonth (digitsAt cs 0 4) (digitsAt cs 5 2) && digitsAt cs 11 2 ≤ 23 &&
    digitsAt cs 14 2 ≤ 59 && digitsAt cs 17 2 ≤ 59

theorem fitsTemplate_append {ts us cs : List Char} (h : fitsTemplate (ts ++ us) cs = true) : fitsTemplate ts cs = true := by
  induction ts generalizing cs with
  | nil => rfl
  | cons t ts ih =>
    cases cs with
    | nil => cases h
    | cons c cs =>
      rw [List.cons_append, fitsTemplate, Bool.and_eq_true] at h
      rw [fitsTemplate, Bool.and_eq_true]
      exact ⟨h.1, ih h.2⟩

theorem isoDateTime_shaped {s : String} (h : isoDateTime s = true) : dateShaped s = true := by
  unfold isoDateTime at h
  simp only [Bool.and_eq_true] at h
  exact fitsTemplate_append h.1.1.1.1.1.1.1.1

/-! ## Columns -/

inductive FieldType
  | plain (t : ColType)
  | float
  /-- A list of the values. -/
  | enums (values : List String)
  deriving DecidableEq

def FieldType.admits : FieldType → Json → Bool
  | .plain .dateTime, v => v.str?.any isoDateTime
  | .plain t, v => t.admits v
  | .float, .num _ => true
  | .float, _ => false
  | .enums values, v => v.strList?.any fun xs => xs.all values.contains

structure ModelField where
  name : String
  type : FieldType
  nullable : Bool
  deriving DecidableEq

def ModelField.admits (f : ModelField) (v : Json) : Bool := (f.nullable && v = .null) || f.type.admits v

def Column.field (c : Column) : ModelField := ⟨c.key, .plain c.type, c.nullable⟩

inductive Model
  | systemSetting | user | session | organization | pathTemplate | routeFolder | orgMembership | team | teamMembership
  | routeGroup | route | routeTarget | transformRule | routeVersion | requestLog | apiKey | apiKeyFolder | apiKeyRoute
  | auditLog | healthCheck | notification | incident | incidentEvent | changeRequest | achievement | inviteToken | backup
  deriving DecidableEq

namespace ModelField

def text (name : String) : ModelField := ⟨name, .plain .string, false⟩
def text? (name : String) : ModelField := ⟨name, .plain .string, true⟩
def int (name : String) : ModelField := ⟨name, .plain .int, false⟩
def int? (name : String) : ModelField := ⟨name, .plain .int, true⟩
def float? (name : String) : ModelField := ⟨name, .float, true⟩
def flag (name : String) : ModelField := ⟨name, .plain .boolean, false⟩
def flag? (name : String) : ModelField := ⟨name, .plain .boolean, true⟩
def date (name : String) : ModelField := ⟨name, .plain .dateTime, false⟩
def date? (name : String) : ModelField := ⟨name, .plain .dateTime, true⟩
def json (name : String) : ModelField := ⟨name, .plain .json, false⟩
def json? (name : String) : ModelField := ⟨name, .plain .json, true⟩
def texts (name : String) : ModelField := ⟨name, .plain .strings, false⟩
def oneOf (values : List String) (name : String) : ModelField := ⟨name, .plain (.enum values), false⟩
def oneOf? (values : List String) (name : String) : ModelField := ⟨name, .plain (.enum values), true⟩
def someOf (values : List String) (name : String) : ModelField := ⟨name, .enums values, false⟩

end ModelField

namespace Model

open ModelField

def roles : List String := ["ADMIN", "OPERATOR", "VIEWER"]

def orgRoles : List String := ["OWNER", "ADMIN", "MEMBER"]

def name : Model → String
  | systemSetting => "systemSetting" | user => "user" | session => "session" | organization => "organization"
  | pathTemplate => "pathTemplate" | routeFolder => "routeFolder" | orgMembership => "orgMembership" | team => "team"
  | teamMembership => "teamMembership" | routeGroup => "routeGroup" | route => "route" | routeTarget => "routeTarget"
  | transformRule => "transformRule" | routeVersion => "routeVersion" | requestLog => "requestLog" | apiKey => "apiKey"
  | apiKeyFolder => "apiKeyFolder" | apiKeyRoute => "apiKeyRoute" | auditLog => "auditLog"
  | healthCheck => "healthCheck" | notification => "notification" | incident => "incident"
  | incidentEvent => "incidentEvent" | changeRequest => "changeRequest" | achievement => "achievement"
  | inviteToken => "inviteToken" | backup => "backup"

def fields : Model → List ModelField
  | systemSetting => [text "key", json "value", date "updatedAt"]
  | user =>
    [text "id", text "email", text "passwordHash", text "name", oneOf roles "role", flag "isActive",
     text? "twoFactorSecret", flag "twoFactorEnabled", texts "recoveryCodes", text? "twoFactorChallenge",
     int "twoFactorFailedAttempts", date? "twoFactorLockedUntil", int "tokenVersion", date? "lastLoginAt",
     date "createdAt", date "updatedAt"]
  | session =>
    [text "id", text "userId", text? "userAgent", text? "ip", date "createdAt", date "lastSeenAt", date "expiresAt",
     date? "revokedAt"]
  | organization =>
    [text "id", text "name", text "slug", text? "description", flag "isActive", date "createdAt", date "updatedAt",
     flag "changeRequestsEnabled", someOf orgRoles "crBypassRoles", someOf orgRoles "crApproverRoles",
     flag "restrictTargets", texts "allowedTargetNamespaces", texts "allowedTargetHosts"]
  | pathTemplate =>
    [text "id", text "name", text? "description", texts "paths", text? "organizationId", text? "createdById",
     date "createdAt", date "updatedAt"]
  | routeFolder =>
    [text "id", text "name", text? "organizationId", int "sortOrder", date "createdAt", date "updatedAt"]
  | orgMembership =>
    [text "id", text "userId", text "organizationId", oneOf orgRoles "role", date "createdAt", date "updatedAt"]
  | team =>
    [text "id", text "organizationId", text "name", text? "description", date "createdAt", date "updatedAt"]
  | teamMembership => [text "id", text "userId", text "teamId", date "createdAt"]
  | routeGroup =>
    [text "id", text "name", text? "slug", text? "description", text "pathPrefix", int? "defaultTimeout",
     int? "defaultRetryCount", flag? "defaultRateLimitEnabled", int? "defaultRateLimitMax",
     int? "defaultRateLimitWindow", oneOf? Column.authTypes "defaultAuthType", text? "defaultAuthValue",
     json? "defaultAddHeaders", texts "defaultRemoveHeaders", flag? "defaultCorsEnabled", texts "defaultCorsOrigins",
     texts "defaultIpAllowlist", flag "isActive", flag? "changeRequestsEnabled", someOf orgRoles "crBypassRoles",
     someOf orgRoles "crApproverRoles", date "createdAt", date "updatedAt", text? "teamId"]
  | route => text "id" :: Column.all.map Column.field
  | routeTarget =>
    [text "id", text "routeId", text "url", int "weight", int "priority", flag "isHealthy", text? "lastError",
     date "createdAt", date "updatedAt"]
  | transformRule =>
    [text "id", text "routeId", oneOf ["REQUEST", "RESPONSE"] "phase",
     oneOf ["SET_HEADER", "REMOVE_HEADER", "REWRITE_BODY_JSON", "SET_QUERY_PARAM", "REMOVE_QUERY_PARAM",
       "MAP_STATUS_CODE"] "type",
     text "name", json "config", int "order", flag "isActive", json? "condition", date "createdAt", date "updatedAt"]
  | routeVersion =>
    [text "id", text "routeId", int "version", json "snapshot", text? "createdById", date "createdAt"]
  | requestLog =>
    [text "id", text? "routeId", text "requestId", text "method", text "path", json "queryParams",
     json "requestHeaders", text? "requestBody", int? "responseStatus", json "responseHeaders", text? "responseBody",
     int? "duration", text "targetUrl", text? "error", text? "ip", text? "userAgent",
     oneOf ["TRAFFIC", "TEST", "HEALTH_CHECK"] "source", text? "geoCountry", text? "geoCity", float? "geoLatitude",
     float? "geoLongitude", date "createdAt"]
  | apiKey =>
    [text "id", text "routeId", text "name", text "keyHash", text? "keyHint", flag "isActive",
     oneOf ["READ", "FULL"] "scope", date? "lastUsedAt", text? "lastUsedIp", int "usageCount", date? "expiresAt",
     date "createdAt"]
  | apiKeyFolder => [text "apiKeyId", text "folderId"]
  | apiKeyRoute => [text "apiKeyId", text "routeId"]
  | auditLog =>
    [text "id", text? "userId", text "action", text "resource", text? "resourceId", json "details", text? "ip",
     text? "userAgent", date "createdAt"]
  | healthCheck =>
    [text "id", text "routeId", oneOf ["HEALTHY", "UNHEALTHY", "UNKNOWN"] "status", date "lastCheckedAt",
     int? "responseTime", text? "error", date "createdAt"]
  | notification =>
    [text "id", text? "userId", text "type", text "title", text "message", flag "isRead", text? "routeId",
     date "createdAt"]
  | incident =>
    [text "id", text "title", text? "description",
     oneOf ["ACTIVE", "INVESTIGATING", "RESOLVED", "DISMISSED"] "status",
     oneOf ["LOW", "MEDIUM", "HIGH", "CRITICAL"] "severity", text? "routeId", date "startedAt", date? "resolvedAt",
     date "createdAt", date "updatedAt"]
  | incidentEvent =>
    [text "id", text "incidentId", text "type", text "title", text? "description", json "metadata",
     text? "createdById", date "createdAt"]
  | changeRequest =>
    [text "id", text? "routeId", text "type", oneOf ["PENDING", "APPROVED", "REJECTED", "APPLIED"] "status",
     text "title", text? "description", json "payload", json? "diff", text "requestedById", text? "reviewedById",
     text? "reviewComment", date? "reviewedAt", date "createdAt", date "updatedAt"]
  | achievement => [text "id", text "userId", text "key", date "unlockedAt"]
  | inviteToken =>
    [text "id", text "email", oneOf roles "role", text "token", date "expiresAt", date? "usedAt", text? "createdById",
     date "createdAt"]
  | backup =>
    [text "id", text "filename", json "data", int "size", texts "tags", text? "note", date "createdAt"]

/-- The columns that are unique, alone or together. -/
def keys : Model → List (List String)
  | systemSetting => [["key"]]
  | user => [["id"], ["email"]]
  | organization => [["id"], ["slug"]]
  | orgMembership => [["id"], ["userId", "organizationId"]]
  | team => [["id"], ["organizationId", "name"]]
  | teamMembership => [["id"], ["userId", "teamId"]]
  | routeGroup => [["id"], ["slug"], ["pathPrefix"]]
  | route => [["id"], ["slug"], ["publicPath"]]
  | apiKey => [["id"], ["keyHash"]]
  | apiKeyFolder => [["apiKeyId", "folderId"]]
  | apiKeyRoute => [["apiKeyId", "routeId"]]
  | achievement => [["id"], ["userId", "key"]]
  | inviteToken => [["id"], ["token"]]
  | backup => [["id"], ["filename"]]
  | _ => [["id"]]

def relations : Model → List (Relation Model)
  | session => [⟨"userId", user, .cascade⟩]
  | pathTemplate | routeFolder | team => [⟨"organizationId", organization, .cascade⟩]
  | orgMembership => [⟨"userId", user, .cascade⟩, ⟨"organizationId", organization, .cascade⟩]
  | teamMembership => [⟨"userId", user, .cascade⟩, ⟨"teamId", team, .cascade⟩]
  | routeGroup => [⟨"teamId", team, .setNull⟩]
  | route =>
    [⟨"createdById", user, .setNull⟩, ⟨"updatedById", user, .setNull⟩, ⟨"routeGroupId", routeGroup, .setNull⟩,
     ⟨"folderId", routeFolder, .setNull⟩, ⟨"organizationId", organization, .setNull⟩]
  | routeTarget | transformRule | apiKey | healthCheck => [⟨"routeId", route, .cascade⟩]
  | routeVersion => [⟨"routeId", route, .cascade⟩, ⟨"createdById", user, .setNull⟩]
  | requestLog | incident => [⟨"routeId", route, .setNull⟩]
  | apiKeyFolder => [⟨"apiKeyId", apiKey, .cascade⟩, ⟨"folderId", routeFolder, .cascade⟩]
  | apiKeyRoute => [⟨"apiKeyId", apiKey, .cascade⟩, ⟨"routeId", route, .cascade⟩]
  | auditLog => [⟨"userId", user, .setNull⟩]
  | notification => [⟨"userId", user, .cascade⟩, ⟨"routeId", route, .setNull⟩]
  | incidentEvent => [⟨"incidentId", incident, .cascade⟩]
  | changeRequest => [⟨"routeId", route, .setNull⟩, ⟨"requestedById", user, .restrict⟩, ⟨"reviewedById", user, .setNull⟩]
  | achievement => [⟨"userId", user, .cascade⟩]
  | inviteToken => [⟨"createdById", user, .setNull⟩]
  | systemSetting | user | organization | backup => []

def all : List Model :=
  [systemSetting, user, session, organization, pathTemplate, routeFolder, orgMembership, team, teamMembership,
   routeGroup, route, routeTarget, transformRule, routeVersion, requestLog, apiKey, apiKeyFolder, apiKeyRoute,
   auditLog, healthCheck, notification, incident, incidentEvent, changeRequest, achievement, inviteToken, backup]

theorem mem_all (m : Model) : m ∈ all := by cases m <;> decide

end Model

def schema : Schema Model where
  keys := Model.keys
  relations := Model.relations
  order := Model.all
  complete := Model.mem_all
  nodup := by decide
  parentsFirst := by decide
  irreflexive := by
    intro m
    cases m <;> decide
  idKept := by
    intro m
    cases m <;> decide

/-! ## Well-formed states -/

/-- The row has the columns of its table, in their order, with values of their types. -/
def Fits (m : Model) (r : Record) : Prop :=
  r.map Prod.fst = m.fields.map ModelField.name ∧ ∀ f ∈ m.fields, f.admits (r.get f.name) = true

structure WellFormed (db : Rows Model) : Prop where
  valid : schema.Valid db
  fits : ∀ m, ∀ r ∈ db m, Fits m r

theorem wellFormed_iff {db : Rows Model} : WellFormed db ↔ ∀ m ∈ Model.all,
    (∀ r ∈ db m, schema.met db m r = true ∧ r.map Prod.fst = m.fields.map ModelField.name ∧
      ∀ f ∈ m.fields, f.admits (r.get f.name) = true) ∧
    (db m).Pairwise fun r r' => schema.collides m r r' = false := by
  constructor
  · intro h m _
    exact ⟨fun r hr => ⟨h.valid.met m r hr, h.fits m r hr⟩, h.valid.apart m⟩
  · intro h
    exact ⟨⟨fun m r hr => ((h m (Model.mem_all m)).1 r hr).1, fun m => (h m (Model.mem_all m)).2⟩,
      fun m r hr => ((h m (Model.mem_all m)).1 r hr).2⟩

instance decidableWellFormed (db : Rows Model) : Decidable (WellFormed db) := decidable_of_iff _ wellFormed_iff.symm

end ClusterGate
