/-
  ClusterGate.Lib.JsValue — objects and arrays as a program of the source language holds them.

  Both are lists of properties by name; the name of an element is its index. An array has
  a length besides: a greater index moves it, and assigning it removes the elements from
  there on, or throws where the value is no length. What a value inherits is a function.
  An object a program makes with `{}` inherits more once `__proto__` is assigned to
  (`Ancestry`).
  - `own_put_same`, `elem_put_other`: what is read after a property is assigned.
-/

import ClusterGate.Lib.Json

namespace ClusterGate.Lib

inductive JsValue
  | null
  | bool (b : Bool)
  | num (q : Rat)
  | str (s : String)
  | arr (length : Nat) (props : List (String × JsValue))
  | obj (props : List (String × JsValue))

namespace JsValue

mutual

/-- A value as `JSON.parse` makes it. -/
def ofJson : Json → JsValue
  | .null => .null
  | .bool b => .bool b
  | .num q => .num q
  | .str s => .str s
  | .arr xs => .arr xs.length (ofElements 0 xs)
  | .obj kvs => .obj (ofMembers kvs)

def ofElements : Nat → List Json → List (String × JsValue)
  | _, [] => []
  | i, x :: xs => (toString i, ofJson x) :: ofElements (i + 1) xs

def ofMembers : List (String × Json) → List (String × JsValue)
  | [] => []
  | (k, v) :: kvs => (k, ofJson v) :: ofMembers kvs

end

theorem ofJson_num {j : Json} {q : Rat} (h : ofJson j = .num q) : j = .num q := by
  cases j <;> simp_all [ofJson]

/-! ## Properties -/

section Properties

variable {β : Type}

/-- The property of a name, new or in place of the one there is. -/
def assign (key : String) (v : β) : List (String × β) → List (String × β)
  | [] => [(key, v)]
  | (k, w) :: props => if k = key then (k, v) :: props else (k, w) :: assign key v props

theorem lookup_cons (key k : String) (w : β) (props : List (String × β)) :
    ((k, w) :: props).lookup key = if key = k then some w else props.lookup key := by
  by_cases h : key = k
  · simp [h]
  · rw [if_neg h, List.lookup_cons, beq_eq_false_iff_ne.2 h]

@[simp] theorem lookup_assign_same (key : String) (v : β) (props : List (String × β)) :
    (assign key v props).lookup key = some v := by
  induction props with
  | nil => simp [assign]
  | cons p props ih =>
    obtain ⟨k, w⟩ := p
    rw [assign]
    by_cases hk : k = key
    · simp [hk]
    · rw [if_neg hk, lookup_cons, if_neg (Ne.symm hk), ih]

theorem lookup_assign_other {key other : String} (h : other ≠ key) (v : β) (props : List (String × β)) :
    (assign key v props).lookup other = props.lookup other := by
  induction props with
  | nil => simp [assign, lookup_cons, h]
  | cons p props ih =>
    obtain ⟨k, w⟩ := p
    rw [assign]
    by_cases hk : k = key
    · subst hk
      simp [lookup_cons, h]
    · rw [if_neg hk, lookup_cons, lookup_cons, ih]

theorem lookup_filter (keep : String → Bool) (key : String) (props : List (String × β)) :
    (props.filter fun p => keep p.1).lookup key = if keep key then props.lookup key else none := by
  induction props with
  | nil => simp
  | cons p props ih =>
    obtain ⟨k, w⟩ := p
    rw [List.filter_cons, lookup_cons]
    by_cases hkey : key = k
    · subst hkey
      by_cases hkeep : keep key = true
      · simp [hkeep]
      · simp [hkeep, ih]
    · rw [if_neg hkey, ← ih]
      split
      · rw [lookup_cons, if_neg hkey]
      · rfl

end Properties

/-! ## Reading -/

/-- An array can be that long at most. -/
def maxLength : Nat := 2 ^ 32 - 1

/-- The index a name stands for. -/
def arrayIndex? (key : String) : Option Nat := (Text.digits? key).filter fun n => toString n = key ∧ n < maxLength

def props : JsValue → List (String × JsValue)
  | arr _ props => props
  | obj props => props
  | _ => []

/-- A member or an element. -/
def elem? (v : JsValue) (key : String) : Option JsValue := v.props.lookup key

/-- A property a value has itself. -/
def own? : JsValue → String → Option JsValue
  | arr length props, key => if key = "length" then some (.num length) else props.lookup key
  | v, key => v.elem? key

def objectMethods : List String :=
  ["hasOwnProperty", "isPrototypeOf", "propertyIsEnumerable", "toLocaleString", "toString", "valueOf",
    "constructor", "__defineGetter__", "__defineSetter__", "__lookupGetter__", "__lookupSetter__"]

def arrayMethods : List String :=
  ["at", "concat", "copyWithin", "entries", "every", "fill", "filter", "find", "findIndex", "findLast", "findLastIndex",
    "flat", "flatMap", "forEach", "includes", "indexOf", "join", "keys", "lastIndexOf", "map", "pop", "push", "reduce",
    "reduceRight", "reverse", "shift", "slice", "some", "sort", "splice", "toReversed", "toSorted", "toSpliced", "unshift",
    "values", "with"]

/-- What is read under a name: a value, what every object or array inherits, or nothing. -/
inductive Slot
  | own (v : JsValue)
  | method
  | undefined

def isArray : JsValue → Bool
  | arr _ _ => true
  | _ => false

def isObject : JsValue → Bool
  | arr _ _ | obj _ => true
  | _ => false

/-- `v[key]`, for a key other than `__proto__`. -/
def get (v : JsValue) (key : String) : Slot :=
  match v.own? key with
  | some w => .own w
  | none => if key ∈ objectMethods ∨ (v.isArray ∧ key ∈ arrayMethods) then .method else .undefined

def truthy : JsValue → Bool
  | null => false
  | bool b => b
  | num q => q ≠ 0
  | str s => s ≠ ""
  | arr _ _ | obj _ => true

def typeof : JsValue → String
  | null | arr _ _ | obj _ => "object"
  | bool _ => "boolean"
  | num _ => "number"
  | str _ => "string"

def Slot.truthy : Slot → Bool
  | own v => v.truthy
  | method => true
  | undefined => false

def Slot.typeof : Slot → String
  | own v => v.typeof
  | method => "function"
  | undefined => "undefined"

/-- What is no object, or nothing, is found out by its type and by whether it is truthy. -/
theorem truthy_typeof_iff (v : JsValue) (key : String) :
    ((v.get key).truthy = true ∧ (v.get key).typeof = "object") ↔ ∃ w, v.own? key = some w ∧ w.isObject = true := by
  rw [get]
  cases hown : v.own? key with
  | none =>
    refine iff_of_false (fun h => ?_) (fun h => by obtain ⟨w, hw, -⟩ := h; cases hw)
    dsimp only at h
    split at h
    · exact absurd h.2 (by decide)
    · exact absurd h.1 (by decide)
  | some w => cases w <;> simp [Slot.truthy, Slot.typeof, truthy, typeof, isObject]

/-- `===` with a value of a configuration: what is inherited is no such value, and two
    objects or lists are never one. -/
def Slot.is : Slot → Option Json → Bool
  | undefined, none => true
  | own null, some .null => true
  | own (bool a), some (.bool b) => a = b
  | own (num a), some (.num b) => a = b
  | own (str a), some (.str b) => a = b
  | _, _ => false

theorem Slot.is_method (value : Option Json) : Slot.method.is value = false := by
  cases value <;> rfl

/-! ## Prototypes -/

/-- What stands behind the entries of an object: what every object inherits, nothing, or
    the object or array that was assigned to `__proto__`. -/
inductive Prototype
  | standard
  | absent
  | given (v : JsValue)

namespace Prototype

/-- What `__proto__` names is the prototype, unless there is none or it has an entry of that name. -/
def accessible : Prototype → Bool
  | standard => true
  | absent => false
  | given v => (v.own? "__proto__").isNone

def read (p : Prototype) (key : String) : Slot :=
  if key = "__proto__" ∧ p.accessible then .method
  else match p with
    | standard => if key ∈ objectMethods then .method else .undefined
    | absent => .undefined
    | given v => v.get key

/-- Only an object, an array or null can be one. -/
def assign (p : Prototype) : Json → Prototype
  | .null => absent
  | .arr vs => given (ofJson (.arr vs))
  | .obj kvs => given (ofJson (.obj kvs))
  | _ => p

end Prototype

/-- The prototype of an object made with `{}`, and its own entry `__proto__`: it has one
    only where that name is not the prototype's. -/
structure Ancestry where
  prototype : Prototype
  entry : Option Json

namespace Ancestry

def plain : Ancestry := ⟨.standard, none⟩

/-- `o.__proto__ = value` -/
def assign (a : Ancestry) (value : Json) : Ancestry :=
  if a.entry.isNone && a.prototype.accessible then { a with prototype := a.prototype.assign value }
  else { a with entry := some value }

/-- `delete o.__proto__` -/
def delete (a : Ancestry) : Ancestry := { a with entry := none }

/-- `o[key]`, where the object's own entry of another name is given. -/
def read (a : Ancestry) (own : Option Json) (key : String) : Slot :=
  match if key = "__proto__" then a.entry else own with
  | some v => .own (ofJson v)
  | none => a.prototype.read key

/-- What every object inherits stands behind the entries of a plain one. -/
theorem read_plain {key : String} (h : key ≠ "__proto__") :
    plain.read none key = if key ∈ objectMethods then .method else .undefined := by
  rw [read, if_neg h]
  show Prototype.standard.read key = _
  rw [Prototype.read, if_neg fun hp => h hp.1]

end Ancestry

/-! ## Writing -/

/-- The length a value stands for, if any. -/
def lengthOf (value : Json) : Option Nat :=
  match value.toNumber? with
  | some q => if q.den = 1 ∧ 0 ≤ q.num ∧ q.num ≤ maxLength then some q.num.toNat else none
  | none => none

/-- The elements before an index, and what is no element. -/
def before (n : Nat) (key : String) : Bool :=
  match arrayIndex? key with
  | some i => i < n
  | none => true

/-- `v[key] = value`; none if it throws. -/
def put (v : JsValue) (key : String) (value : Json) : Option JsValue :=
  match v with
  | arr length props =>
    if key = "length" then (lengthOf value).map fun n => .arr n (props.filter fun p => before n p.1)
    else
      let length := match arrayIndex? key with
        | some i => max length (i + 1)
        | none => length
      some (.arr length (assign key (ofJson value) props))
  | obj props => some (.obj (assign key (ofJson value) props))
  | _ => none

/-- The value with what stands under a name changed in place. -/
def within (v : JsValue) (key : String) (child : JsValue) : JsValue :=
  match v with
  | arr length props => .arr length (assign key child props)
  | obj props => .obj (assign key child props)
  | v => v

section Written

variable {v v' : JsValue} {key : String} {value : Json}

/-- The name is the length of an array. -/
def isLength (v : JsValue) (key : String) : Bool := v.isArray && key == "length"

theorem own_elem (h : v.isLength key = false) : v.own? key = v.elem? key := by
  cases v with
  | arr length props =>
    have hne : key ≠ "length" := by simpa [isLength, isArray] using h
    simp [own?, hne, elem?, JsValue.props]
  | null | bool b | num q | str s | obj props => rfl

theorem put_props (h : v.isLength key = false) (hput : v.put key value = some v') :
    v'.props = assign key (ofJson value) v.props ∧ v'.isObject = true ∧ v'.isArray = v.isArray := by
  cases v with
  | arr length props =>
    have hne : key ≠ "length" := by simpa [isLength, isArray] using h
    rw [put, if_neg hne] at hput
    cases hput
    exact ⟨rfl, rfl, rfl⟩
  | obj props =>
    cases hput
    exact ⟨rfl, rfl, rfl⟩
  | null | bool b | num q | str s => cases hput

theorem put_some (hv : v.isObject = true) (h : v.isLength key = false) (value : Json) : ∃ v', v.put key value = some v' := by
  cases v with
  | arr length props =>
    have hne : key ≠ "length" := by simpa [isLength, isArray] using h
    exact ⟨_, by rw [put, if_neg hne]⟩
  | obj props => exact ⟨_, rfl⟩
  | null | bool b | num q | str s => cases hv

theorem own_put_same (h : v.isLength key = false) (hput : v.put key value = some v') :
    v'.own? key = some (ofJson value) := by
  obtain ⟨hprops, -, harray⟩ := put_props h hput
  have h' : v'.isLength key = false := by rwa [isLength, harray]
  rw [own_elem h', elem?, hprops, lookup_assign_same]

theorem elem_put_other (h : v.isLength key = false) (hput : v.put key value = some v') {other : String}
    (hother : other ≠ key) : v'.elem? other = v.elem? other := by
  rw [elem?, (put_props h hput).1, lookup_assign_other hother, elem?]

theorem put_length (h : v.isLength key = true) (value : Json) :
    ∃ length props, v = .arr length props ∧
      v.put key value = (lengthOf value).map fun n => .arr n (props.filter fun p => before n p.1) := by
  cases v with
  | arr length props =>
    have heq : key = "length" := by simpa [isLength, isArray] using h
    exact ⟨length, props, rfl, by rw [put, if_pos heq]⟩
  | null | bool b | num q | str s | obj props => cases h

theorem own_length (h : v.isLength key = true) : ∃ n : Nat, v.own? key = some (.num n) := by
  cases v with
  | arr length props =>
    have heq : key = "length" := by simpa [isLength, isArray] using h
    exact ⟨length, by rw [own?, if_pos heq]⟩
  | null | bool b | num q | str s | obj props => cases h

theorem within_props (hv : v.isObject = true) (key : String) (child : JsValue) :
    (v.within key child).props = assign key child v.props ∧ (v.within key child).isArray = v.isArray := by
  cases v with
  | arr length props => exact ⟨rfl, rfl⟩
  | obj props => exact ⟨rfl, rfl⟩
  | null | bool b | num q | str s => cases hv

theorem elem_within_same (hv : v.isObject = true) (key : String) (child : JsValue) :
    (v.within key child).elem? key = some child := by
  rw [elem?, (within_props hv key child).1, lookup_assign_same]

theorem elem_within_other (hv : v.isObject = true) {other : String} (hother : other ≠ key) (child : JsValue) :
    (v.within key child).elem? other = v.elem? other := by
  rw [elem?, (within_props hv key child).1, lookup_assign_other hother, elem?]

theorem isLength_within (hv : v.isObject = true) (key : String) (child : JsValue) (other : String) :
    (v.within key child).isLength other = v.isLength other := by
  rw [isLength, (within_props hv key child).2, isLength]

end Written

end JsValue

end ClusterGate.Lib
