/-
  ClusterGate.Body — request bodies, and the answers a handler gives without an error of
  the application's own.
-/

import ClusterGate.Errors
import ClusterGate.Lib.Act
import ClusterGate.Store.State
import ClusterGate.Route.Schema

namespace ClusterGate

open Lib Lib.Act Lib.Zod

/-- `res.status(n).json({ error: { message } })`. -/
def respond (statusCode : Nat) (message : String) : Err := .app ⟨statusCode, "", message, []⟩

/-- The findings of a schema with the names of their fields. -/
def zodError {κ : Type} (name : κ → String) (issues : List (κ × Zod.Issue)) : Err :=
  .zod (issues.map fun i => ⟨String.intercalate "." (name i.1 :: i.2.1), i.2.2⟩)

/-- `schema.parse(req.body)`; only an object has members. -/
def parsed (fields : List String) (schema : Shape String) (body : Json) : Except Err (String → Option Json) :=
  match body with
  | .obj kvs => (parseObject fields schema (Json.obj kvs).get?).mapError (zodError id)
  | _ => .error (.zod [⟨"", none⟩])

theorem parsed_field {fields : List String} {schema : Shape String} {body : Json} {data : String → Option Json} {f : String}
    {t : ZodType} (h : parsed fields schema body = .ok data) (hf : f ∈ fields) (hs : schema f = some t) :
    ∃ o, t.parse o = .ok (data f) := by
  unfold parsed at h
  cases body with
  | obj kvs =>
    cases hp : parseObject fields schema (Json.obj kvs).get? with
    | error e => simp only [hp] at h; cases h
    | ok out =>
      simp only [hp] at h
      cases h
      have := parseObject_ok hp hf
      rw [parseField, hs] at this
      exact ⟨_, this⟩
  | _ => cases h

def parseBody (fields : List String) (schema : Shape String) (body : Json) : Handler (String → Option Json) :=
  ofExcept (parsed fields schema body)

/-- A schema of route fields on a body. -/
def parsedRoute (schema : Shape Column) (body : Json) : Except Err Patch :=
  match body with
  | .obj kvs => (parseObject routeBodyFields schema (Patch.ofMembers kvs)).mapError (zodError Column.key)
  | _ => .error (.zod [⟨"", none⟩])

/-- `encodeBasicAuthInputs(schema.parse(req.body))`. -/
def routeData (W : World) (schema : Shape Column) (body : Json) : Except Err Patch :=
  (parsedRoute schema body).map (encodeBasicAuthInputs W)

theorem routeData_ok {W : World} {schema : Shape Column} {body : Json} {data : Patch}
    (h : routeData W schema body = .ok data) :
    ∃ members out, parseObject routeBodyFields schema members = .ok out ∧ data = encodeBasicAuthInputs W out := by
  unfold routeData at h
  cases body with
  | obj kvs =>
    rw [parsedRoute] at h
    cases hp : parseObject routeBodyFields schema (Patch.ofMembers kvs) with
    | error e => rw [hp] at h; cases h
    | ok out =>
      rw [hp] at h
      cases h
      exact ⟨_, out, hp, rfl⟩
  | _ => cases h

theorem encodeBasicAuthInputs_ne {W : World} {data : Patch} {c : Column} (ha : c ≠ .authValue) (hu : c ≠ .upstreamAuthValue) :
    encodeBasicAuthInputs W data c = data c := by
  rw [encodeBasicAuthInputs]
  cases data c with
  | none => rfl
  | some v => simp [encodeBasicAuth, ha, hu]

/-- Outside the credentials, what a route body puts out is what its schema does. -/
theorem routeData_field {W : World} {schema : Shape Column} {body : Json} {data : Patch} {c : Column} {t : ZodType}
    (h : routeData W schema body = .ok data) (hc : c ∈ routeBodyFields) (hs : schema c = some t)
    (ha : c ≠ .authValue) (hu : c ≠ .upstreamAuthValue) : ∃ o, t.parse o = .ok (data c) := by
  obtain ⟨members, out, hp, rfl⟩ := routeData_ok h
  have hf := parseObject_ok hp hc
  rw [parseField, hs] at hf
  rw [encodeBasicAuthInputs_ne ha hu]
  exact ⟨_, hf⟩

theorem routeData_noField {W : World} {schema : Shape Column} {body : Json} {data : Patch} {c : Column}
    (h : routeData W schema body = .ok data) (hs : schema c = none) : data c = none := by
  obtain ⟨members, out, hp, rfl⟩ := routeData_ok h
  rw [encodeBasicAuthInputs, parseObject_noField hp hs]
  rfl

/-! ## Values that are neither a number nor an operation on a field -/

theorem enum_value {values : List String} {o : Option Json} {v : Json}
    (h : (ZodType.optional (.leaf (enum values))).parse o = .ok (some v)) : isFixed v = true := by
  cases o with
  | none => cases h
  | some w =>
    change (enum values w).map some = _ at h
    cases he : enum values w with
    | error e => rw [he] at h; cases h
    | ok w' =>
      rw [he] at h
      cases h
      obtain ⟨s, -, -, rfl⟩ := enum_ok he
      rfl

theorem nullableText_value {o : Option Json} {v : Json}
    (h : (ZodType.optional (.nullable textField)).parse o = .ok (some v)) : isFixed v = true := by
  cases o with
  | none => cases h
  | some w =>
    cases w with
    | null =>
      cases h
      rfl
    | str s =>
      cases h
      rfl
    | _ => cases h

/-- The text of a parsed field. -/
def textField? (data : String → Option Json) (field : String) : Option String := (data field).bind Json.str?

/-- The texts of a parsed list. -/
def textList (data : String → Option Json) (field : String) : List String :=
  ((data field).bind Json.strList?).getD []

/-- `{}` where there is no body. -/
def orEmpty (body : Json) : Json := if body.truthy then body else .obj []

end ClusterGate
