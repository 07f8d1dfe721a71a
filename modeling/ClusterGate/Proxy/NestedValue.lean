/-
  ClusterGate.Proxy.NestedValue — a value set deep in a body (`setNestedValue` of
  `services/transformService.ts`).

  The loop walks down the path, puts an empty object wherever there is none, and assigns
  at the end. `setParts` is that walk on a tree: what stands under a name is changed in
  place. The one name that is no place for a value is the length of an array.
  - `setParts_lawful_iff`: the walk assigns and keeps the rest exactly if the path takes no
    length, or assigns one that removes no element.
  - `setNestedValue_lawful_iff`: so it is for paths; one with a forbidden key does nothing.
-/

import ClusterGate.Lib.JsValue

namespace ClusterGate.Proxy

open Lib

def FORBIDDEN_KEYS : List String := ["__proto__", "prototype", "constructor"]

/-- The loop from a value on, and the assignment behind it; none if an assignment throws. -/
def setParts (current : JsValue) (parts : List String) (value : Json) : Option JsValue :=
  match parts with
  | [] => some current
  | [lastKey] => if lastKey ∈ FORBIDDEN_KEYS then some current else current.put lastKey value
  | key :: next :: rest =>
    if key ∈ FORBIDDEN_KEYS then some current
    else
      let made := if (current.get key).truthy = false ∨ (current.get key).typeof ≠ "object" then current.put key (.obj [])
        else some current
      made.bind fun current => (current.own? key).bind fun child =>
        (setParts child (next :: rest) value).map fun child => current.within key child

def setNestedValue (obj : JsValue) (path : String) (value : Json) : Option JsValue :=
  let parts := Text.split path '.'
  if parts.any fun p => p ∈ FORBIDDEN_KEYS then some obj else setParts obj parts value

/-! ## What is asked of it -/

/-- What is read along a path. -/
def readAlong : JsValue → List String → Option JsValue
  | v, [] => some v
  | v, key :: keys => (v.own? key).bind fun child => readAlong child keys

/-- The member or element at a place of a body. -/
def position : JsValue → List String → Option JsValue
  | v, [] => some v
  | v, key :: keys => (v.elem? key).bind fun child => position child keys

/-- The value is read back along the path, and no other place is changed. -/
structure Assigned (before : JsValue) (parts : List String) (value : Json) (after : JsValue) : Prop where
  reads : readAlong after parts = some (.ofJson value)
  keeps : ∀ q, ¬q <+: parts → ¬parts <+: q → position after q = position before q

/-- The path takes no array's length, unless it ends there and assigns one that all elements are below. -/
def KeepsLengths : JsValue → List String → Json → Prop
  | _, [], _ => True
  | v, [key], value => v.isLength key = true → ∃ n : Nat, value = .num n ∧ n ≤ JsValue.maxLength ∧
      ∀ k i, JsValue.arrayIndex? k = some i → (v.elem? k).isSome → i < n
  | v, key :: next :: rest, value => v.isLength key = false ∧
      ∀ child, v.elem? key = some child → child.isObject = true → KeepsLengths child (next :: rest) value

/-! ## The walk -/

section Walk

variable {v : JsValue} {value : Json}

theorem lengthOf_num {n : Nat} (h : n ≤ JsValue.maxLength) : JsValue.lengthOf (.num n) = some n := by
  simp [JsValue.lengthOf, Json.toNumber?, h]

theorem lengthOf_le {n : Nat} (h : JsValue.lengthOf value = some n) : n ≤ JsValue.maxLength := by
  rw [JsValue.lengthOf] at h
  split at h
  · split at h
    · cases h
      omega
    · cases h
  · cases h

theorem readAlong_single (v : JsValue) (key : String) : readAlong v [key] = v.own? key := by
  rw [readAlong]
  cases v.own? key <;> rfl

theorem position_cons (v : JsValue) (key : String) (keys : List String) :
    position v (key :: keys) = (v.elem? key).bind fun child => position child keys := rfl

/-- A place beside the path begins with another key, or goes on beside the rest of it. -/
theorem beside_cons {key : String} {parts q : List String} (hq : ¬q <+: key :: parts) (hparts : ¬key :: parts <+: q) :
    ∃ k keys, q = k :: keys ∧ (k ≠ key ∨ k = key ∧ ¬keys <+: parts ∧ ¬parts <+: keys) := by
  cases q with
  | nil => exact absurd List.nil_prefix hq
  | cons k keys =>
    refine ⟨k, keys, rfl, ?_⟩
    by_cases hk : k = key
    · subst hk
      rw [List.prefix_cons_inj] at hq hparts
      exact .inr ⟨rfl, hq, hparts⟩
    · exact .inl hk

theorem not_forbidden {key : String} {parts : List String} (h : ∀ p ∈ key :: parts, p ∉ FORBIDDEN_KEYS) :
    key ∉ FORBIDDEN_KEYS ∧ ∀ p ∈ parts, p ∉ FORBIDDEN_KEYS :=
  List.forall_mem_cons.1 h

/-- The last key, where it is a place for a value. -/
theorem put_assigned (hv : v.isObject = true) {key : String} (h : v.isLength key = false) :
    ∃ after, v.put key value = some after ∧ Assigned v [key] value after := by
  obtain ⟨after, hput⟩ := JsValue.put_some hv h value
  refine ⟨after, hput, ?_, fun q hq hparts => ?_⟩
  · rw [readAlong_single, JsValue.own_put_same h hput]
  · obtain ⟨k, keys, rfl, hk | ⟨-, -, hnil⟩⟩ := beside_cons hq hparts
    · rw [position_cons, position_cons, JsValue.elem_put_other h hput hk]
    · exact absurd List.nil_prefix hnil

theorem length_no_index {key : String} (h : v.isLength key = true) : JsValue.arrayIndex? key = none := by
  rw [JsValue.isLength, Bool.and_eq_true, beq_iff_eq] at h
  rw [h.2]
  decide

/-- The last key, where it is the length of an array. -/
theorem put_length_assigned_iff {key : String} (h : v.isLength key = true) :
    (∃ after, v.put key value = some after ∧ Assigned v [key] value after) ↔
      ∃ n : Nat, value = .num n ∧ n ≤ JsValue.maxLength ∧
        ∀ k i, JsValue.arrayIndex? k = some i → (v.elem? k).isSome → i < n := by
  have hindex := length_no_index h
  have hown : ∀ n ps, (JsValue.arr n ps).own? key = some (.num n) := by
    rw [JsValue.isLength, Bool.and_eq_true, beq_iff_eq] at h
    intro n ps
    rw [JsValue.own?, if_pos h.2]
  obtain ⟨length, props, rfl, hput⟩ := JsValue.put_length h value
  rw [hput]
  have helem : ∀ n k, (JsValue.arr n (props.filter fun p => JsValue.before n p.1)).elem? k =
      if JsValue.before n k then (JsValue.arr length props).elem? k else none :=
    fun n k => JsValue.lookup_filter (JsValue.before n) k props
  constructor
  · intro hassigned
    obtain ⟨after, hafter, hreads, hkeeps⟩ := hassigned
    obtain ⟨n, hn, rfl⟩ := Option.map_eq_some_iff.1 hafter
    rw [readAlong_single, hown, Option.some.injEq] at hreads
    refine ⟨n, JsValue.ofJson_num hreads.symm, lengthOf_le hn, fun k i hk hsome => ?_⟩
    by_contra hle
    have hne : k ≠ key := by
      intro heq
      rw [heq, hindex] at hk
      cases hk
    have hsame := hkeeps [k] (by simpa using hne) (by simpa using Ne.symm hne)
    have hbefore : JsValue.before n k = false := by simpa [JsValue.before, hk] using hle
    rw [position_cons, position_cons, helem, hbefore] at hsame
    obtain ⟨x, hx⟩ := Option.isSome_iff_exists.1 hsome
    rw [hx] at hsame
    cases hsame
  · intro hkept
    obtain ⟨n, rfl, hn, hbelow⟩ := hkept
    refine ⟨_, by rw [lengthOf_num hn, Option.map_some], by rw [readAlong_single, hown, JsValue.ofJson], ?_⟩
    intro q hq hparts
    obtain ⟨k, keys, rfl, hk | ⟨-, -, hnil⟩⟩ := beside_cons hq hparts
    · rw [position_cons, position_cons, helem]
      split
      · rfl
      · rename_i hbefore
        cases hx : (JsValue.arr length props).elem? k with
        | none => rfl
        | some x =>
          rw [JsValue.before] at hbefore
          split at hbefore
          · rename_i i hi
            exact absurd (decide_eq_true (hbelow k i hi (by rw [hx]; rfl))) hbefore
          · exact absurd rfl hbefore
    · exact absurd List.nil_prefix hnil

/-- Under a name, what is assigned inside is assigned. -/
theorem assigned_within_iff (hv : v.isObject = true) {key : String} (h : v.isLength key = false) {child : JsValue}
    (hchild : v.elem? key = some child) (parts : List String) (after : JsValue) :
    Assigned v (key :: parts) value (v.within key after) ↔ Assigned child parts value after := by
  have hsame := JsValue.elem_within_same hv key after
  have hown : (v.within key after).own? key = some after := by
    rw [JsValue.own_elem (by rw [JsValue.isLength_within hv, h]), hsame]
  have hread : readAlong (v.within key after) (key :: parts) = readAlong after parts := by
    rw [readAlong, hown, Option.bind_some]
  constructor
  · intro hassigned
    refine ⟨hread ▸ hassigned.reads, fun q hq hparts => ?_⟩
    have hkeeps := hassigned.keeps (key :: q) (by rwa [List.prefix_cons_inj]) (by rwa [List.prefix_cons_inj])
    rwa [position_cons, position_cons, hsame, hchild] at hkeeps
  · intro hassigned
    refine ⟨hread.trans hassigned.reads, fun q hq hparts => ?_⟩
    obtain ⟨k, keys, rfl, hk | ⟨rfl, hkeys, hrest⟩⟩ := beside_cons hq hparts
    · rw [position_cons, position_cons, JsValue.elem_within_other hv hk]
    · rw [position_cons, position_cons, hsame, hchild, Option.bind_some, Option.bind_some]
      exact hassigned.keeps keys hkeys hrest

/-- There is no place in what is no object, nor in one that is empty. -/
theorem position_none {w : JsValue} (hw : w.props = []) {keys : List String} (hkeys : keys ≠ []) : position w keys = none := by
  obtain ⟨k, rest, rfl⟩ := List.exists_cons_of_ne_nil hkeys
  rw [position_cons, JsValue.elem?, hw]
  rfl

theorem props_nil {w : JsValue} (hw : w.isObject = false) : w.props = [] := by
  cases w <;> first | rfl | cases hw

/-- An empty object put in the place of what is no object, and the value assigned inside. -/
theorem assigned_made {key : String} (h : v.isLength key = false) {made : JsValue}
    (hmade : v.put key (.obj []) = some made) (hplace : ∀ w, v.elem? key = some w → w.isObject = false)
    {parts : List String} {after : JsValue} (hinside : Assigned (.obj []) parts value after) :
    Assigned v (key :: parts) value (made.within key after) := by
  obtain ⟨hprops, hobject, harray⟩ := JsValue.put_props h hmade
  have hmadeKey : made.isLength key = false := by rwa [JsValue.isLength, harray]
  have hsame := JsValue.elem_within_same hobject key after
  refine ⟨?_, fun q hq hparts => ?_⟩
  · rw [readAlong, JsValue.own_elem (by rw [JsValue.isLength_within hobject, hmadeKey]), hsame, Option.bind_some]
    exact hinside.reads
  · obtain ⟨k, keys, rfl, hk | ⟨rfl, hkeys, hrest⟩⟩ := beside_cons hq hparts
    · rw [position_cons, position_cons, JsValue.elem_within_other hobject hk, JsValue.elem_put_other h hmade hk]
    · have hne : keys ≠ [] := by
        intro hnil
        rw [hnil] at hkeys
        exact hkeys List.nil_prefix
      rw [position_cons, position_cons, hsame, Option.bind_some, hinside.keeps keys hkeys hrest, position_none rfl hne]
      cases hw : v.elem? k with
      | none => rfl
      | some w => exact (position_none (props_nil (hplace w hw)) hne).symm

/-- In a new object every path keeps the lengths. -/
theorem keepsLengths_empty (parts : List String) : KeepsLengths (.obj []) parts value := by
  cases parts with
  | nil => trivial
  | cons key rest =>
    cases rest with
    | nil => exact fun h => by cases h
    | cons next rest => exact ⟨rfl, fun child hchild => by cases hchild⟩

theorem setParts_assigned_iff (hv : v.isObject = true) {parts : List String} (hne : parts ≠ [])
    (hallowed : ∀ p ∈ parts, p ∉ FORBIDDEN_KEYS) :
    (∃ after, setParts v parts value = some after ∧ Assigned v parts value after) ↔ KeepsLengths v parts value := by
  induction parts generalizing v with
  | nil => exact absurd rfl hne
  | cons key rest ih =>
    obtain ⟨hkey, hrest⟩ := not_forbidden hallowed
    cases rest with
    | nil =>
      rw [setParts, if_neg hkey, KeepsLengths]
      by_cases h : v.isLength key = true
      · rw [put_length_assigned_iff h]
        exact ⟨fun hkept _ => hkept, fun hkept => hkept h⟩
      · rw [Bool.not_eq_true] at h
        refine iff_of_true (put_assigned hv h) fun h' => ?_
        rw [h] at h'
        cases h'
    | cons next rest =>
      rw [setParts, if_neg hkey, KeepsLengths]
      dsimp only
      by_cases hchild : ∃ w, v.own? key = some w ∧ w.isObject = true
      · have hslot := (JsValue.truthy_typeof_iff v key).2 hchild
        obtain ⟨w, hown, hw⟩ := hchild
        have h : v.isLength key = false := by
          by_contra h
          obtain ⟨n, hn⟩ := JsValue.own_length (Bool.not_eq_false _ ▸ h)
          rw [hown, Option.some.injEq] at hn
          rw [hn] at hw
          cases hw
        have helem : v.elem? key = some w := by rw [← JsValue.own_elem h, hown]
        rw [if_neg (by simp [hslot.1, hslot.2]), Option.bind_some, hown, Option.bind_some]
        have hinside := ih (v := w) hw (List.cons_ne_nil next rest) hrest
        constructor
        · intro hassigned
          obtain ⟨after, hafter, hassigned⟩ := hassigned
          obtain ⟨after, hset, rfl⟩ := Option.map_eq_some_iff.1 hafter
          refine ⟨h, fun child helem' _ => ?_⟩
          rw [helem, Option.some.injEq] at helem'
          subst helem'
          exact hinside.1 ⟨after, hset, (assigned_within_iff hv h helem _ after).1 hassigned⟩
        · intro hkept
          obtain ⟨after, hset, hassigned⟩ := hinside.2 (hkept.2 w helem hw)
          exact ⟨v.within key after, by rw [hset, Option.map_some], (assigned_within_iff hv h helem _ after).2 hassigned⟩
      · have hslot : (v.get key).truthy = false ∨ (v.get key).typeof ≠ "object" := by
          by_contra hboth
          rw [not_or, Bool.not_eq_false, not_not] at hboth
          exact hchild ((JsValue.truthy_typeof_iff v key).1 hboth)
        rw [if_pos hslot]
        by_cases h : v.isLength key = true
        · obtain ⟨length, props, hv', hput⟩ := JsValue.put_length h (.obj [])
          rw [hput, h]
          refine iff_of_false (fun hassigned => ?_) fun hkept => by cases hkept.1
          obtain ⟨after, hafter, -⟩ := hassigned
          cases hafter
        · rw [Bool.not_eq_true] at h
          have hplace : ∀ w, v.elem? key = some w → w.isObject = false := by
            intro w hw
            by_contra hobject
            exact hchild ⟨w, by rw [JsValue.own_elem h, hw], Bool.not_eq_false _ ▸ hobject⟩
          obtain ⟨made, hmade⟩ := JsValue.put_some hv h (.obj [])
          obtain ⟨after, hset, hassigned⟩ :=
            (ih (v := .obj []) rfl (List.cons_ne_nil next rest) hrest).2 (keepsLengths_empty _)
          have hown : made.own? key = some (.obj []) := JsValue.own_put_same h hmade
          refine iff_of_true ⟨made.within key after, ?_, assigned_made h hmade hplace hassigned⟩
            ⟨h, fun child helem hobject => ?_⟩
          · rw [hmade, Option.bind_some, hown, Option.bind_some, hset, Option.map_some]
          · rw [hplace child helem] at hobject
            cases hobject

end Walk

/-! ## Paths -/

/-- What the update is to do: nothing where a key is forbidden, and to assign the value elsewhere. -/
def Lawful (body : JsValue) (path : String) (value : Json) : Prop :=
  ∃ after, setNestedValue body path value = some after ∧
    ((∃ p ∈ Text.split path '.', p ∈ FORBIDDEN_KEYS) → after = body) ∧
    ((∀ p ∈ Text.split path '.', p ∉ FORBIDDEN_KEYS) → Assigned body (Text.split path '.') value after)

theorem split_ne_nil (path : String) : Text.split path '.' ≠ [] :=
  fun hnil => List.splitOn_ne_nil '.' path.toList (List.map_eq_nil_iff.1 hnil)

theorem setNestedValue_lawful_iff {body : JsValue} (hbody : body.isObject = true) (path : String) (value : Json) :
    Lawful body path value ↔
      ((∀ p ∈ Text.split path '.', p ∉ FORBIDDEN_KEYS) → KeepsLengths body (Text.split path '.') value) := by
  have hany : ((Text.split path '.').any fun p => p ∈ FORBIDDEN_KEYS) = true ↔
      ∃ p ∈ Text.split path '.', p ∈ FORBIDDEN_KEYS := by
    simp
  by_cases hforbidden : ∃ p ∈ Text.split path '.', p ∈ FORBIDDEN_KEYS
  · have hnot : ¬∀ p ∈ Text.split path '.', p ∉ FORBIDDEN_KEYS := by
      intro hall
      obtain ⟨p, hp, hmem⟩ := hforbidden
      exact hall p hp hmem
    refine iff_of_true ⟨body, ?_, fun _ => rfl, fun hall => absurd hall hnot⟩ fun hall => absurd hall hnot
    rw [setNestedValue, hany.2 hforbidden]
    rfl
  · have hallowed : ∀ p ∈ Text.split path '.', p ∉ FORBIDDEN_KEYS := fun p hp hmem => hforbidden ⟨p, hp, hmem⟩
    have hset : setNestedValue body path value = setParts body (Text.split path '.') value := by
      rw [setNestedValue, Bool.eq_false_iff.2 fun h => hforbidden (hany.1 h)]
      rfl
    rw [Lawful, hset, ← setParts_assigned_iff hbody (split_ne_nil path) hallowed]
    constructor
    · intro hlawful _
      obtain ⟨after, hafter, -, hassigned⟩ := hlawful
      exact ⟨after, hafter, hassigned hallowed⟩
    · intro hassigned
      obtain ⟨after, hafter, hassigned⟩ := hassigned hallowed
      exact ⟨after, hafter, fun h => absurd h hforbidden, fun _ => hassigned⟩

/-- `{"a":"x"}` -/
def oneMember : JsValue := .ofJson (.obj [("a", .str "x")])

theorem lawful_in_a_member : Lawful oneMember "a.b" (.num 1) := by
  have hsplit : Text.split "a.b" '.' = ["a", "b"] := by decide +kernel
  refine (setNestedValue_lawful_iff rfl "a.b" (.num 1)).2 fun _ => ?_
  rw [hsplit]
  refine ⟨rfl, fun child hchild hobject => ?_⟩
  cases hchild
  cases hobject

/-- `[1,2]` -/
def twoElements : JsValue := .ofJson (.arr [.num 1, .num 2])

/-- The length of an array is no place for a text, and a lesser length takes elements away. -/
theorem a_length_taken :
    twoElements.isObject = true ∧ (∀ p ∈ Text.split "length" '.', p ∉ FORBIDDEN_KEYS) ∧
      setNestedValue twoElements "length" (.str "x") = none ∧ ¬Lawful twoElements "length" (.str "x") ∧
      setNestedValue twoElements "length" (.num 0) = some (.arr 0 []) ∧ ¬Lawful twoElements "length" (.num 0) := by
  have hsplit : Text.split "length" '.' = ["length"] := by decide +kernel
  have hallowed : ∀ p ∈ Text.split "length" '.', p ∉ FORBIDDEN_KEYS := by
    rw [hsplit]
    simp [FORBIDDEN_KEYS]
  have hset : ∀ value, setNestedValue twoElements "length" value =
      (JsValue.lengthOf value).map fun n => .arr n ([("0", .num 1), ("1", .num 2)].filter fun p => JsValue.before n p.1) := by
    intro value
    rw [setNestedValue, hsplit]
    rfl
  have htext : setNestedValue twoElements "length" (.str "x") = none := by
    rw [hset]
    have hlength : JsValue.lengthOf (.str "x") = none := by decide +kernel
    rw [hlength]
    rfl
  have hzero : setNestedValue twoElements "length" (.num 0) = some (.arr 0 []) := by
    have hlength : JsValue.lengthOf (.num 0) = some 0 := by decide +kernel
    rw [hset, hlength, Option.map_some]
    have hfirst : JsValue.before 0 "0" = false := by decide +kernel
    have hsecond : JsValue.before 0 "1" = false := by decide +kernel
    simp [hfirst, hsecond]
  refine ⟨rfl, hallowed, htext, fun hlawful => ?_, hzero, fun hlawful => ?_⟩
  · obtain ⟨after, hafter, -⟩ := hlawful
    rw [htext] at hafter
    cases hafter
  · obtain ⟨after, hafter, -, hassigned⟩ := hlawful
    rw [hzero, Option.some.injEq] at hafter
    subst hafter
    have hkeeps := (hassigned hallowed).keeps ["0"]
    rw [hsplit] at hkeeps
    cases hkeeps (by simp) (by simp)

end ClusterGate.Proxy
