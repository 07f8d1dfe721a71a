/-
  ClusterGate.Lib.ZodWrapped — object schemas whose fields are wrapped in any nesting of
  `optional`, `nullable`, `default`, pipes and transformations, as zod 4 parses them, and
  the schema of an update body.

  A pipe runs its second type on what the first puts out, an absent value included, and
  asks the first whether it answers for one. An optional field that is absent is no error.
  - `addsNothing_iff`: an update's body gets no key it did not have exactly if no field,
    stripped of its outer defaults, still answers for an absent value with one.
  - `fills_ofZod_iff`: without pipes and transformations, exactly if there is no default
    left, as there is under a nullable.
-/

import ClusterGate.Lib.Table
import ClusterGate.Lib.Zod

namespace ClusterGate.Lib.Zod

abbrev Outcome := Except (List Issue) (Option Json)

inductive Wrapped
  | leaf (f : Leaf)
  | transform (g : Option Json → Outcome)
  | optional (t : Wrapped)
  | nullable (t : Wrapped)
  | default (v : Json) (t : Wrapped)
  | pipe (t next : Wrapped)

namespace Wrapped

/-- Whether a type answers for an absent value. -/
def optin : Wrapped → Bool
  | leaf _ | transform _ => false
  | optional _ | default _ _ => true
  | nullable t | pipe t _ => t.optin

/-- Whether a field of the type may be left out of what is parsed. -/
def optout : Wrapped → Bool
  | leaf _ | transform _ | default _ _ => false
  | optional _ => true
  | nullable t => t.optout
  | pipe _ next => next.optout

def parse : Wrapped → Option Json → Outcome
  | leaf _, none => .error [([], none)]
  | leaf f, some v => (f v).map some
  | transform g, o => g o
  | optional t, none =>
    if t.optin then
      match t.parse none with
      | .ok o => .ok o
      | .error _ => .ok none
    else .ok none
  | optional t, some v => t.parse (some v)
  | nullable _, some .null => .ok (some .null)
  | nullable t, o => t.parse o
  | default d _, none => .ok (some d)
  | default d t, some v =>
    match t.parse (some v) with
    | .ok none => .ok (some d)
    | r => r
  | pipe t next, o =>
    match t.parse o with
    | .ok o' => next.parse o'
    | .error is => .error is

def stripDefault : Wrapped → Wrapped
  | default _ t | optional t => t.stripDefault
  | t => t

/-- A value is put out for an absent one. -/
def Fills (t : Wrapped) : Prop := t.optin = true ∧ ∃ v, t.parse none = .ok (some v)

theorem parse_optional_absent (t : Wrapped) : ∃ o, (optional t).parse none = .ok o := by
  rw [parse]
  split
  · split <;> exact ⟨_, rfl⟩
  · exact ⟨_, rfl⟩

theorem fills_optional_iff {t : Wrapped} {v : Json} :
    (optional t).parse none = .ok (some v) ↔ t.optin = true ∧ t.parse none = .ok (some v) := by
  rw [parse]
  by_cases hoptin : t.optin = true
  · rw [if_pos hoptin]
    cases hparse : t.parse none with
    | ok o => simp [hoptin]
    | error is => simp
  · rw [if_neg hoptin]
    simp [hoptin]

/-- What does not fill leaves an absent value out. -/
theorem optional_absent {t : Wrapped} (h : ¬t.Fills) : (optional t).parse none = .ok none := by
  obtain ⟨o, ho⟩ := parse_optional_absent t
  cases o with
  | none => exact ho
  | some v => exact absurd ⟨(fills_optional_iff.1 ho).1, v, (fills_optional_iff.1 ho).2⟩ h

end Wrapped

/-! ## Object schemas -/

abbrev ObjectSchema := Table String Wrapped

/-- The issues of a field that may be left out do not count where it is absent. -/
def fieldResult (t : Wrapped) (o : Option Json) : Outcome :=
  match t.parse o with
  | .ok r => .ok r
  | .error is => if t.optout = true ∧ o = none then .ok none else .error is

def issuesOf (name : String) : Outcome → List (String × Issue)
  | .ok _ => []
  | .error is => is.map fun i => (name, i)

def memberOf (name : String) : Outcome → Option (String × Json)
  | .ok (some v) => some (name, v)
  | _ => none

/-- `schema.parse(body)`: the members of what comes out. A member is looked up among the body's
    own, so that no field is to be named like one that every object inherits. -/
def ObjectSchema.parse (schema : ObjectSchema) (body : Json) : Except (List (String × Issue)) (List (String × Json)) :=
  match body with
  | .obj _ =>
    if schema.rows.all fun r => (fieldResult r.2 (body.get? r.1)).isOk then
      .ok (schema.rows.filterMap fun r => memberOf r.1 (fieldResult r.2 (body.get? r.1)))
    else .error (schema.rows.flatMap fun r => issuesOf r.1 (fieldResult r.2 (body.get? r.1)))
  | _ => .error [("", [], none)]

/-- `partialUpdate(schema)` -/
def ObjectSchema.partialUpdate (schema : ObjectSchema) : ObjectSchema := schema.mapRows fun _ t => .optional t.stripDefault

/-- Whatever body is accepted, what comes out has no key that the body has not. -/
def AddsNothing (schema : ObjectSchema) : Prop :=
  ∀ body out, schema.partialUpdate.parse body = .ok out → ∀ k v, (k, v) ∈ out → (body.get? k).isSome = true

theorem mem_partialUpdate {schema : ObjectSchema} {k : String} {t : Wrapped} :
    (k, t) ∈ schema.partialUpdate.rows ↔ ∃ s, schema.get? k = some s ∧ t = .optional s.stripDefault := by
  rw [Table.mem_rows_iff, ObjectSchema.partialUpdate, Table.get?_mapRows, Option.map_eq_some_iff]
  exact exists_congr fun s => and_congr_right fun _ => eq_comm

theorem memberOf_some {name k : String} {v : Json} {o : Outcome} : memberOf name o = some (k, v) ↔ k = name ∧ o = .ok (some v) := by
  unfold memberOf
  split
  · simp [eq_comm]
  · rename_i hnot
    refine iff_of_false nofun fun h => hnot v h.2

theorem fieldResult_optional_absent (t : Wrapped) : fieldResult (.optional t) none = (Wrapped.optional t).parse none := by
  obtain ⟨o, ho⟩ := t.parse_optional_absent
  rw [fieldResult, ho]

theorem addsNothing_iff (schema : ObjectSchema) :
    AddsNothing schema ↔ ∀ k t, schema.get? k = some t → ¬t.stripDefault.Fills := by
  constructor
  · intro h k t ht hfills
    -- An empty body is accepted, and the field is filled.
    obtain ⟨hoptin, v, hv⟩ := hfills
    have haccepted : (schema.partialUpdate.rows.all fun r => (fieldResult r.2 none).isOk) = true := by
      rw [List.all_eq_true]
      intro r hr
      obtain ⟨s, -, hs⟩ := mem_partialUpdate.1 hr
      obtain ⟨o, ho⟩ := s.stripDefault.parse_optional_absent
      rw [hs, fieldResult_optional_absent, ho]
      rfl
    have hparse : schema.partialUpdate.parse (.obj []) =
        .ok (schema.partialUpdate.rows.filterMap fun r => memberOf r.1 (fieldResult r.2 none)) := if_pos haccepted
    have hmem : (k, v) ∈ schema.partialUpdate.rows.filterMap fun r => memberOf r.1 (fieldResult r.2 none) := by
      rw [List.mem_filterMap]
      refine ⟨(k, .optional t.stripDefault), mem_partialUpdate.2 ⟨t, ht, rfl⟩, ?_⟩
      rw [memberOf_some, fieldResult_optional_absent]
      exact ⟨rfl, Wrapped.fills_optional_iff.2 ⟨hoptin, hv⟩⟩
    exact absurd (h _ _ hparse k v hmem) (by simp [Json.get?])
  · intro h body out hparse k v hmem
    unfold ObjectSchema.parse at hparse
    split at hparse
    · split at hparse
      · cases hparse
        obtain ⟨⟨name, t⟩, hrow, hmember⟩ := List.mem_filterMap.1 hmem
        obtain ⟨rfl, hresult⟩ := memberOf_some.1 hmember
        obtain ⟨s, hs, rfl⟩ := mem_partialUpdate.1 hrow
        by_contra hnone
        rw [Bool.not_eq_true, Option.isSome_eq_false_iff, Option.isNone_iff_eq_none] at hnone
        rw [hnone, fieldResult_optional_absent, Wrapped.optional_absent (h k s hs)] at hresult
        cases hresult
      · cases hparse
    · cases hparse

/-! ## Types without pipes -/

/-- A default is left on the way to the leaf. -/
def ZodType.hasDefault : ZodType → Bool
  | .leaf _ => false
  | .optional t | .nullable t => t.hasDefault
  | .default _ _ => true

def Wrapped.ofZod : ZodType → Wrapped
  | .leaf f => .leaf f
  | .optional t => .optional (ofZod t)
  | .nullable t => .nullable (ofZod t)
  | .default v t => .default v (ofZod t)

theorem optin_ofZod (t : ZodType) : (Wrapped.ofZod t).optin = t.optin := by
  induction t with
  | leaf f => rfl
  | optional t => rfl
  | nullable t ih => exact ih
  | default v t => rfl

/-- What answers for an absent value does so without an issue. -/
theorem ZodType.parse_absent {t : ZodType} (h : t.optin = true) : ∃ o, t.parse none = .ok o := by
  induction t with
  | leaf f => cases h
  | optional t ih =>
    rw [ZodType.parse]
    split
    · rename_i hoptin
      exact ih hoptin
    · exact ⟨none, rfl⟩
  | nullable t ih => exact ih h
  | default v t => exact ⟨some v, rfl⟩

/-- Without pipes, types are parsed as before. -/
theorem parse_ofZod (t : ZodType) (o : Option Json) : (Wrapped.ofZod t).parse o = t.parse o := by
  induction t generalizing o with
  | leaf f => cases o <;> rfl
  | optional t ih =>
    cases o with
    | none =>
      rw [Wrapped.ofZod, Wrapped.parse, ZodType.parse, optin_ofZod, ih]
      by_cases hoptin : t.optin = true
      · obtain ⟨o, ho⟩ := ZodType.parse_absent hoptin
        rw [if_pos hoptin, if_pos hoptin, ho]
      · rw [if_neg hoptin, if_neg hoptin]
    | some v => exact ih (some v)
  | nullable t ih =>
    cases o with
    | none => exact ih none
    | some v =>
      cases v with
      | null => rfl
      | bool b => exact ih _
      | num q => exact ih _
      | str s => exact ih _
      | arr xs => exact ih _
      | obj kvs => exact ih _
  | default d t ih =>
    cases o with
    | none => rfl
    | some v =>
      rw [Wrapped.ofZod, Wrapped.parse, ZodType.parse, ih]
      cases hparse : t.parse (some v) with
      | error is => rfl
      | ok o =>
        obtain ⟨w, rfl⟩ := ZodType.parse_present hparse
        rfl

theorem fills_ofZod_iff (t : ZodType) : (Wrapped.ofZod t).Fills ↔ t.hasDefault = true := by
  rw [Wrapped.Fills, optin_ofZod, parse_ofZod]
  induction t with
  | leaf f => simp [ZodType.optin, ZodType.hasDefault]
  | optional t ih =>
    rw [ZodType.hasDefault, ← ih, ZodType.parse]
    by_cases hoptin : t.optin = true
    · simp [ZodType.optin, hoptin]
    · simp [hoptin]
  | nullable t ih => exact ih
  | default v t => simp [ZodType.optin, ZodType.hasDefault, ZodType.parse]

/-- An update's field without a default left stays absent. -/
theorem ZodType.optional_absent {t : ZodType} (h : t.stripDefault.hasDefault = false) :
    (ZodType.optional t.stripDefault).parse none = .ok none := by
  have hfills : ¬(Wrapped.ofZod t.stripDefault).Fills := by
    rw [fills_ofZod_iff, h]
    exact Bool.false_ne_true
  rw [← parse_ofZod]
  exact Wrapped.optional_absent hfills

end ClusterGate.Lib.Zod
