/-
  ClusterGate.Lib.Zod — object schemas: leaf checks under `optional`, `nullable` and
  `default` wrappers, parsed as zod 4 parses them.

  A leaf takes a value that is there and gives the value it puts out or its issues, each
  with the path below the field and the schema's own message if it has one. A default
  answers for an absent value without a check; `optional` hands an absent value on to
  what it wraps if that answers for it (which is why a default inside an optional still
  applies). `partialUpdate` is the schema of an update body: every field optional, and
  no outer default left.
  - `parse_stripDefault`: on a value that is there, stripping changes nothing.
  - `parseObject_ok`: what an accepted body gives, field by field.
  - `array_fixes` and its kin: what a leaf puts out it admits again, unchanged; so what a
    sound type puts out, it admits (`Sound.admits`).
-/

import ClusterGate.Lib.Json
import ClusterGate.Lib.Text

namespace ClusterGate.Lib.Zod

/-- Path below the field, and the message (none: the library's own). -/
abbrev Issue := List String × Option String

abbrev Leaf := Json → Except (List Issue) Json

inductive ZodType
  | leaf (f : Leaf)
  | optional (t : ZodType)
  | nullable (t : ZodType)
  | default (v : Json) (t : ZodType)

namespace ZodType

/-- Whether a type answers for an absent value (`optin`). -/
def optin : ZodType → Bool
  | leaf _ => false
  | optional _ | default _ _ => true
  | nullable t => t.optin

def parse : ZodType → Option Json → Except (List Issue) (Option Json)
  | leaf _, none => .error [([], none)]
  | leaf f, some v => (f v).map some
  | optional t, none => if t.optin then t.parse none else .ok none
  | optional t, some v => t.parse (some v)
  | nullable _, some .null => .ok (some .null)
  | nullable t, o => t.parse o
  | default d _, none => .ok (some d)
  | default _ t, some v => t.parse (some v)

/-- `stripDefault`: the type under its outer defaults and optionals. -/
def stripDefault : ZodType → ZodType
  | default _ t | optional t => t.stripDefault
  | t => t

/-- A value the type admits where it is there. -/
def Admits (t : ZodType) (v : Json) : Prop := ∃ w, t.parse (some v) = .ok (some w)

instance (t : ZodType) (v : Json) : Decidable (t.Admits v) :=
  match h : t.parse (some v) with
  | .ok (some w) => isTrue ⟨w, h⟩
  | .ok none | .error _ => isFalse fun ⟨w, hw⟩ => by rw [h] at hw; cases hw

theorem parse_stripDefault (t : ZodType) (v : Json) : t.stripDefault.parse (some v) = t.parse (some v) := by
  induction t with
  | leaf f => rfl
  | optional t ih => exact ih
  | nullable t => rfl
  | default d t ih => exact ih

theorem admits_stripDefault (t : ZodType) (v : Json) : t.stripDefault.Admits v ↔ t.Admits v := by
  simp only [Admits, parse_stripDefault]

/-- A required leaf puts out what it made of the value that is there. -/
theorem parse_leaf {f : Leaf} {o r : Option Json} (h : (leaf f).parse o = .ok r) :
    ∃ v w, o = some v ∧ r = some w ∧ f v = .ok w := by
  cases o with
  | none => cases h
  | some v =>
    change (f v).map some = _ at h
    cases hf : f v with
    | error e => rw [hf] at h; cases h
    | ok w =>
      rw [hf] at h
      cases h
      exact ⟨v, w, rfl, rfl, hf⟩

/-- A value that is there puts out one. -/
theorem parse_present {t : ZodType} {v : Json} {o : Option Json} (h : t.parse (some v) = .ok o) : ∃ w, o = some w := by
  induction t with
  | leaf f =>
    obtain ⟨_, w, -, rfl, -⟩ := parse_leaf h
    exact ⟨w, rfl⟩
  | optional t ih => exact ih h
  | default d t ih => exact ih h
  | nullable t ih =>
    by_cases hv : v = .null
    · subst hv
      cases h
      exact ⟨.null, rfl⟩
    · refine ih ?_
      rw [← h]
      cases v with
      | null => exact absurd rfl hv
      | _ => rfl

theorem parse_optional_leaf {f : Leaf} {o r : Option Json} (h : (optional (leaf f)).parse o = .ok r) :
    r = none ∨ ∃ v w, o = some v ∧ r = some w ∧ f v = .ok w := by
  cases o with
  | none => cases h; exact Or.inl rfl
  | some v => exact Or.inr (parse_leaf (o := some v) h)

end ZodType

/-! ## Objects -/

section Objects

variable {κ : Type}

/-- The fields of an object schema; a key without a type is not in the schema. -/
abbrev Shape (κ : Type) := κ → Option ZodType

/-- `partialUpdate(schema)`. -/
def partialUpdate (shape : Shape κ) : Shape κ := fun k => (shape k).map fun t => .optional t.stripDefault

def parseField (shape : Shape κ) (body : κ → Option Json) (k : κ) : Except (List Issue) (Option Json) :=
  match shape k with
  | none => .ok none
  | some t => t.parse (body k)

def fieldIssues (shape : Shape κ) (body : κ → Option Json) (k : κ) : List (κ × Issue) :=
  match parseField shape body k with
  | .error is => is.map fun i => (k, i)
  | .ok _ => []

/-- The result of a field that parsed. -/
def fieldValue (shape : Shape κ) (body : κ → Option Json) (k : κ) : Option Json :=
  match parseField shape body k with
  | .ok o => o
  | .error _ => none

/-- Parse a body: unknown keys are dropped, and the issues of all fields reported. -/
def parseObject (keys : List κ) (shape : Shape κ) (body : κ → Option Json) :
    Except (List (κ × Issue)) (κ → Option Json) :=
  if keys.all fun k => (parseField shape body k).isOk then .ok (fieldValue shape body)
  else .error (keys.flatMap (fieldIssues shape body))

variable {keys : List κ} {shape : Shape κ} {body out : κ → Option Json}

theorem parseObject_ok (h : parseObject keys shape body = .ok out) {k : κ} (hk : k ∈ keys) :
    parseField shape body k = .ok (out k) := by
  unfold parseObject at h
  split at h
  · rename_i hall
    injection h with h
    have := List.all_eq_true.1 hall k hk
    rw [← h, fieldValue]
    cases hf : parseField shape body k with
    | ok o => rfl
    | error is => rw [hf] at this; cases this
  · cases h

/-- What the schema does not name does not come out of it. -/
theorem parseObject_noField (h : parseObject keys shape body = .ok out) {k : κ} (hs : shape k = none) : out k = none := by
  unfold parseObject at h
  split at h
  · injection h with h
    rw [← h, fieldValue, parseField, hs]
  · cases h

end Objects

/-! ## Leaves -/

/-- The issues of the checks a value fails. -/
def failed {α : Type} (checks : List ((α → Bool) × Option String)) (a : α) : List Issue :=
  (checks.filter fun c => !c.1 a).map fun c => ([], c.2)

def string (checks : List ((String → Bool) × Option String) := []) : Leaf
  | .str s => if failed checks s = [] then .ok (.str s) else .error (failed checks s)
  | _ => .error [([], none)]

def boolean : Leaf
  | .bool b => .ok (.bool b)
  | _ => .error [([], none)]

def enum (values : List String) : Leaf
  | .str s => if s ∈ values then .ok (.str s) else .error [([], none)]
  | _ => .error [([], none)]

/-- `number().int().min(lo).max(hi)`. -/
def int (lo : Int) (hi : Option Int) : Leaf := fun v => match v.int? with
  | some n => if lo ≤ n ∧ ∀ h ∈ hi, n ≤ h then .ok v else .error [([], none)]
  | none => .error [([], none)]

/-- An array whose elements all pass; their issues carry the index. -/
def array (elem : Leaf) (checks : List ((List Json → Bool) × Option String) := []) : Leaf
  | .arr xs =>
    match xs.mapM fun x => (elem x).toOption with
    | some ys => if failed checks ys = [] then .ok (.arr ys) else .error (failed checks ys)
    | none => .error (xs.zipIdx.flatMap fun (x, i) => match elem x with
      | .error is => is.map fun (p, m) => (toString i :: p, m)
      | .ok _ => [])
  | _ => .error [([], none)]

/-- An object of values that all pass. -/
def record (elem : Leaf) : Leaf
  | .obj kvs =>
    match kvs.mapM fun (k, x) => ((elem x).toOption).map fun y => (k, y) with
    | some ys => .ok (.obj ys)
    | none => .error (kvs.flatMap fun (k, x) => match elem x with
      | .error is => is.map fun (p, m) => (k :: p, m)
      | .ok _ => [])
  | _ => .error [([], none)]

/-- An object with the given fields, all required, in their order. -/
def object (fields : List (String × Leaf)) : Leaf
  | .obj kvs =>
    match fields.mapM fun (k, f) => (((Json.obj kvs).get? k).bind fun x => (f x).toOption).map fun y => (k, y) with
    | some ys => .ok (.obj ys)
    | none => .error (fields.flatMap fun (k, f) => match (Json.obj kvs).get? k with
      | none => [([k], none)]
      | some x => match f x with
        | .error is => is.map fun (p, m) => (k :: p, m)
        | .ok _ => [])
  | _ => .error [([], none)]

def union (a b : Leaf) : Leaf := fun v => match a v with
  | .ok w => .ok w
  | .error _ => match b v with
    | .ok w => .ok w
    | .error _ => .error [([], none)]

/-- A leaf after a conversion of the value that is there. -/
def coerced (conv : Json → Option Json) (f : Leaf) : Leaf := fun v => match conv v with
  | some w => f w
  | none => .error [([], none)]

/-- A leaf followed by a transformation of what it puts out. -/
def transform (f : Leaf) (g : Json → Json) : Leaf := fun v => (f v).map g

/-! ## What a leaf puts out it admits again, unchanged -/

def Fixes (f : Leaf) : Prop := ∀ {v w : Json}, f v = .ok w → f w = .ok w

/-- Every leaf of a type fixes what it puts out, and every default is admitted. -/
def ZodType.Sound : ZodType → Prop
  | .leaf f => Fixes f
  | .optional t | .nullable t => t.Sound
  | .default d t => t.Admits d ∧ t.Sound

/-- What a sound type puts out, a value or its default, it admits. -/
theorem ZodType.Sound.admits {t : ZodType} (ht : t.Sound) {o : Option Json} {v : Json} (h : t.parse o = .ok (some v)) :
    t.Admits v := by
  induction t generalizing o with
  | leaf f =>
    cases o with
    | none => cases h
    | some u =>
      simp only [parse] at h
      cases hf : f u with
      | error e => rw [hf] at h; cases h
      | ok w =>
        rw [hf] at h
        cases h
        exact ⟨v, by simp only [parse, ht hf]; rfl⟩
  | optional t ih =>
    cases o with
    | none =>
      simp only [parse] at h
      split at h
      · exact ih ht h
      · cases h
    | some u => exact ih ht h
  | nullable t ih =>
    by_cases hv : v = .null
    · subst hv; exact ⟨.null, rfl⟩
    · have hu : o ≠ some .null := by
        rintro rfl
        simp only [parse, Except.ok.injEq, Option.some.injEq] at h
        exact hv h.symm
      have hp : ∀ o', o' ≠ some Json.null → (ZodType.nullable t).parse o' = t.parse o' := by
        intro o' ho
        rcases o' with _ | j
        · rfl
        · cases j <;> first | rfl | exact absurd rfl ho
      obtain ⟨w, hw⟩ := ih ht (hp o hu ▸ h)
      exact ⟨w, by rw [hp _ (by simpa using hv)]; exact hw⟩
  | default d t ih =>
    cases o with
    | none =>
      simp only [parse, Except.ok.injEq, Option.some.injEq] at h
      exact h ▸ ht.1
    | some u => exact ih ht.2 h

/-- What a sound type made of a value it takes again as it is. -/
theorem ZodType.Sound.again {t : ZodType} (ht : t.Sound) {u v : Json} (h : t.parse (some u) = .ok (some v)) :
    t.parse (some v) = .ok (some v) := by
  induction t with
  | leaf f =>
    obtain ⟨_, w, -, hw, hleaf⟩ := ZodType.parse_leaf h
    obtain rfl := Option.some.inj hw
    rw [ZodType.parse, ht hleaf]
    rfl
  | optional t ih => exact ih ht h
  | default d t ih => exact ih ht.2 h
  | nullable t ih =>
    have under : ∀ x : Json, x ≠ .null → (ZodType.nullable t).parse (some x) = t.parse (some x) := by
      intro x hx
      cases x <;> first
        | exact absurd rfl hx
        | rfl
    by_cases hv : v = .null
    · subst hv
      rfl
    · rw [under v hv]
      by_cases hu : u = .null
      · subst hu
        cases h
        exact absurd rfl hv
      · rw [under u hu] at h
        exact ih ht h

theorem ZodType.Sound.stripDefault {t : ZodType} (h : t.Sound) : t.stripDefault.Sound := by
  induction t with
  | leaf f => exact h
  | optional t ih => exact ih h
  | nullable t => exact h
  | default d t ih => exact ih h.2

/-- What comes out of an update's schema the full schema admits. -/
theorem admits_of_partial {t : ZodType} (ht : t.Sound) {o : Option Json} {v : Json}
    (h : (ZodType.optional t.stripDefault).parse o = .ok (some v)) : t.Admits v := by
  have optional : (ZodType.optional t.stripDefault).Sound := ht.stripDefault
  have admitted : t.stripDefault.Admits v := optional.admits h
  exact (ZodType.admits_stripDefault t v).1 admitted

theorem failed_eq_nil {α : Type} {checks : List ((α → Bool) × Option String)} {a : α} :
    failed checks a = [] ↔ ∀ c ∈ checks, c.1 a = true := by
  simp [failed, List.filter_eq_nil_iff]

theorem string_ok {checks : List ((String → Bool) × Option String)} {v w : Json} (h : string checks v = .ok w) :
    ∃ s, v = .str s ∧ w = .str s ∧ ∀ c ∈ checks, c.1 s = true := by
  cases v with
  | str s =>
    simp only [string] at h
    split at h
    · rename_i hc
      injection h with h
      exact ⟨s, rfl, h.symm, failed_eq_nil.1 hc⟩
    · cases h
  | _ => cases h

theorem string_fixes (checks : List ((String → Bool) × Option String)) : Fixes (string checks) := by
  intro v w h
  obtain ⟨s, rfl, rfl, -⟩ := string_ok h
  exact h

theorem boolean_fixes : Fixes boolean := by
  intro v w h
  cases v <;> cases h
  rfl

theorem enum_ok {values : List String} {v w : Json} (h : enum values v = .ok w) :
    ∃ s ∈ values, v = .str s ∧ w = .str s := by
  cases v with
  | str s =>
    simp only [enum] at h
    split at h
    · rename_i hs
      injection h with h
      exact ⟨s, hs, rfl, h.symm⟩
    · cases h
  | _ => cases h

theorem enum_fixes (values : List String) : Fixes (enum values) := by
  intro v w h
  obtain ⟨s, -, rfl, rfl⟩ := enum_ok h
  exact h

theorem int_ok {lo : Int} {hi : Option Int} {v w : Json} (h : int lo hi v = .ok w) :
    w = v ∧ ∃ n, v.int? = some n ∧ lo ≤ n ∧ ∀ b ∈ hi, n ≤ b := by
  simp only [int] at h
  split at h
  · rename_i n hn
    split at h
    · rename_i hb
      injection h with h
      exact ⟨h.symm, n, hn, hb⟩
    · cases h
  · cases h

theorem int_fixes (lo : Int) (hi : Option Int) : Fixes (int lo hi) := by
  intro v w h
  obtain ⟨rfl, -⟩ := int_ok h
  exact h

theorem coerced_fixes {conv : Json → Option Json} {f : Leaf} (hf : Fixes f)
    (hc : ∀ {v w}, f v = .ok w → conv w = some w) : Fixes (coerced conv f) := by
  intro v w h
  simp only [coerced] at h ⊢
  split at h
  · rw [hc h]
    exact hf h
  · cases h

theorem toOption_some {f : Leaf} {v w : Json} : (f v).toOption = some w ↔ f v = .ok w := by
  cases f v <;> simp [Except.toOption]

theorem mapM_eq_self {elem : Leaf} {xs : List Json} :
    (xs.mapM fun x => (elem x).toOption) = some xs ↔ ∀ x ∈ xs, elem x = .ok x := by
  rw [mapM_some_iff, List.forall₂_same]
  exact forall₂_congr fun _ _ => toOption_some

/-- Elements that passed pass again. -/
theorem mapM_fixes {elem : Leaf} (he : Fixes elem) {xs ys : List Json}
    (h : (xs.mapM fun x => (elem x).toOption) = some ys) : (ys.mapM fun x => (elem x).toOption) = some ys := by
  refine mapM_eq_self.2 ?_
  have hall := mapM_some_iff.1 h
  clear h
  induction hall with
  | nil =>
    intro y hy
    cases hy
  | cons hx hrest ih =>
    intro y hy
    rcases List.mem_cons.1 hy with rfl | hy
    · exact he (toOption_some.1 hx)
    · exact ih y hy

theorem array_ok {elem : Leaf} {checks : List ((List Json → Bool) × Option String)} {v w : Json}
    (h : array elem checks v = .ok w) :
    ∃ xs ys, v = .arr xs ∧ w = .arr ys ∧ (xs.mapM fun x => (elem x).toOption) = some ys ∧ ∀ c ∈ checks, c.1 ys = true := by
  cases v with
  | arr xs =>
    simp only [array] at h
    split at h
    · rename_i ys hm
      split at h
      · rename_i hc
        injection h with h
        exact ⟨xs, ys, rfl, h.symm, hm, failed_eq_nil.1 hc⟩
      · cases h
    · cases h
  | _ => cases h

theorem array_of_mapM {elem : Leaf} {checks : List ((List Json → Bool) × Option String)} {xs ys : List Json}
    (hm : (xs.mapM fun x => (elem x).toOption) = some ys) (hc : ∀ c ∈ checks, c.1 ys = true) :
    array elem checks (.arr xs) = .ok (.arr ys) := by
  simp only [array, hm]
  rw [if_pos (failed_eq_nil.2 hc)]

theorem array_fixes {elem : Leaf} (he : Fixes elem) (checks : List ((List Json → Bool) × Option String)) :
    Fixes (array elem checks) := by
  intro v w h
  obtain ⟨xs, ys, rfl, rfl, hm, hc⟩ := array_ok h
  exact array_of_mapM (mapM_fixes he hm) hc

/-- What an object of two fields puts out. -/
theorem object_two_ok {k₁ k₂ : String} {f₁ f₂ : Leaf} {v w : Json} (h : object [(k₁, f₁), (k₂, f₂)] v = .ok w) :
    ∃ x y a b, f₁ x = .ok a ∧ f₂ y = .ok b ∧ w = .obj [(k₁, a), (k₂, b)] := by
  cases v with
  | obj kvs =>
    simp only [object] at h
    split at h
    · rename_i ys hm
      injection h with h
      subst h
      simp only [List.mapM_cons, List.mapM_nil, Option.bind_eq_bind, Option.bind_eq_some_iff, Option.pure_def,
        Option.map_eq_some_iff, Option.some.injEq] at hm
      obtain ⟨_, ⟨a, ⟨x, -, hx⟩, rfl⟩, _, ⟨_, ⟨b, ⟨y, -, hy⟩, rfl⟩, _, rfl, rfl⟩, rfl⟩ := hm
      exact ⟨x, y, a, b, toOption_some.1 hx, toOption_some.1 hy, rfl⟩
    · cases h
  | _ => cases h

theorem object_two_fixes {k₁ k₂ : String} {f₁ f₂ : Leaf} (hk : k₁ ≠ k₂) (h₁ : Fixes f₁) (h₂ : Fixes f₂) :
    Fixes (object [(k₁, f₁), (k₂, f₂)]) := by
  intro v w h
  obtain ⟨x, y, a, b, ha, hb, rfl⟩ := object_two_ok h
  simp [object, Json.get?, List.mapM_cons, hk, h₁ ha, h₂ hb, Except.toOption]

/-- A record of texts puts out what it took. -/
theorem record_string_ok {v w : Json} (h : record (string []) v = .ok w) : w = v ∧ record (string []) w = .ok w := by
  cases v with
  | obj kvs =>
    simp only [record] at h
    split at h
    · rename_i ys hm
      injection h with h
      subst h
      have hkept : ∀ (kv y : String × Json), ((string [] kv.2).toOption.map fun w => (kv.1, w)) = some y → kv = y := by
        intro kv y hy
        obtain ⟨w, hw, rfl⟩ := Option.map_eq_some_iff.1 hy
        obtain ⟨s, hs, rfl, -⟩ := string_ok (toOption_some.1 hw)
        rw [← hs]
      have hsame := (mapM_some_iff.1 hm).imp hkept
      rw [List.forall₂_eq_eq_eq] at hsame
      subst hsame
      exact ⟨rfl, by simp only [record, hm]⟩
    · cases h
  | _ => cases h

theorem record_string_fixes : Fixes (record (string [])) := fun h => (record_string_ok h).2

end Zod

end ClusterGate.Lib
