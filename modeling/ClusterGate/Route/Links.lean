/-
  ClusterGate.Route.Links — from a link to a route (`lib/slug.ts`, `getRouteById` of
  `services/routeService.ts`, `router.param` of `routes/routes.router.ts`; the link itself
  `frontend/src/lib/urls.ts`).

  A link names a route by its slug, or by its id if it has none. A slug that goes on after
  the name is cut in two, the rest in `?id=`, and the page puts it together again
  (`lookupKey_routeUrl`). The server takes a key for an id or for a slug by its looks: a
  slug is looked up and its id put in its place, and `getRouteById` looks at that again.

  A name can look like an id: `c` and twenty to thirty more letters or digits.
  - `route_link_resolves_iff`: a live route's link finds it exactly when its id looks like
    one and its slug does not, degenerate ids apart.
  - `a_slug_may_look_like_an_id`: the route named "Customersupportbackend" is not found
    under its own link. `resolveRouteId` goes on to the slug where no id matches, but
    such a key is not handed to it.
-/

import ClusterGate.Route.Answers
import ClusterGate.Route.Names

namespace ClusterGate

open Lib Lib.Act

/-! ## The frontend -/

/-- The parts of a route's URL that vary: `/routes/<pathId>`, then `?id=<queryId>`. -/
structure RouteLink where
  pathId : String
  queryId : Option String := none
  deriving DecidableEq

/-- What `slug` says after `friendly` and a dash. -/
def tailAfter (friendly slug : String) : Option String :=
  if Text.startsWith slug (friendly ++ "-") then
    some (Text.slice slug (friendly.toList.length + 1))
  else none

def truthyText (o : Option String) : Option String := o.filter (· ≠ "")

/-- Where a route's slug is cut: after the name, as the frontend's own `slugify` reads it. -/
def cutSlug (W : World) (name slug : Option String) : Option (String × String) :=
  (truthyText slug).bind fun slug => (truthyText name).bind fun name => (slugify W name).bind fun friendly =>
    (truthyText (tailAfter friendly slug)).map fun tail => (friendly, tail)

def routeUrl (W : World) (id : String) (name slug : Option String) : RouteLink :=
  match cutSlug W name slug with
  | some (friendly, tail) => ⟨friendly, some tail⟩
  | none => ⟨(truthyText slug).getD id, none⟩

def resolveRouteLookupKey (pathId : String) (queryId : Option String) : String :=
  match truthyText queryId with
  | some queryId => if pathId = "" then pathId else pathId ++ "-" ++ queryId
  | none => pathId

/-- What the page of a route's link asks the API for. -/
def lookupKey (W : World) (id : String) (r : Row) : String :=
  let link := routeUrl W id (r.text .name) (r.text .slug)
  resolveRouteLookupKey link.pathId link.queryId

/-! ## The backend -/

/-- `router.param('id')`: a slug's id in its place, if there is a route. -/
def routeParam (s : Store) (value : String) : String :=
  if value ≠ "" ∧ looksLikeCuid value = false then (truthyText (resolveRouteId s value)).getD value else value

def getRouteById (s : Store) (idOrSlug : String) : Option (String × Row) :=
  if looksLikeCuid idOrSlug then s.routes.find? fun k r => k = idOrSlug && r.live
  else s.routes.find? fun _ r => r.val .slug = .str idOrSlug && r.live

/-- What a route's link shows. -/
def followLink (W : World) (s : Store) (id : String) (r : Row) : Option (String × Row) :=
  getRouteById s (routeParam s (lookupKey W id r))

/-! ## The key -/

theorem truthyText_eq_some {o : Option String} {t : String} : truthyText o = some t ↔ o = some t ∧ t ≠ "" := by
  simp [truthyText, Option.filter_eq_some_iff]

/-- The two parts of a slug that was cut make it whole. -/
theorem tailAfter_glue {friendly slug tail : String} (h : tailAfter friendly slug = some tail) :
    friendly ++ "-" ++ tail = slug := by
  unfold tailAfter at h
  split at h
  · rename_i hp
    injection h with h
    rw [Text.startsWith, List.isPrefixOf_iff_prefix] at hp
    obtain ⟨rest, hrest⟩ := hp
    have hlen : (friendly ++ "-").toList.length = friendly.toList.length + 1 := by simp
    have hdrop : slug.toList.drop (friendly.toList.length + 1) = rest := by
      rw [← hrest, ← hlen]
      exact List.drop_left
    apply String.toList_inj.1
    rw [← h, Text.slice, hdrop, String.toList_append, String.toList_ofList, hrest]
  · cases h

theorem cutSlug_some {W : World} {name slug : Option String} {friendly tail : String}
    (h : cutSlug W name slug = some (friendly, tail)) :
    truthyText slug = some (friendly ++ "-" ++ tail) ∧ friendly ≠ "" ∧ tail ≠ "" := by
  obtain ⟨text, hslug, h⟩ := Option.bind_eq_some_iff.1 h
  obtain ⟨name, -, h⟩ := Option.bind_eq_some_iff.1 h
  obtain ⟨f, hf, h⟩ := Option.bind_eq_some_iff.1 h
  obtain ⟨t, ht, h⟩ := Option.map_eq_some_iff.1 h
  injection h with h₁ h₂
  subst h₁ h₂
  obtain ⟨hglue, hne⟩ := truthyText_eq_some.1 ht
  exact ⟨by rw [hslug, tailAfter_glue hglue], slugify_ne_empty hf, hne⟩

/-- The page asks for the slug, or else for the id. -/
theorem lookupKey_routeUrl (W : World) (id : String) (r : Row) :
    lookupKey W id r = (truthyText (r.text .slug)).getD id := by
  unfold lookupKey routeUrl
  cases hc : cutSlug W (r.text .name) (r.text .slug) with
  | none => rfl
  | some p =>
    obtain ⟨hslug, hf, ht⟩ := cutSlug_some hc
    have hkept : truthyText (some p.2) = some p.2 := truthyText_eq_some.2 ⟨rfl, ht⟩
    simp only [resolveRouteLookupKey, hkept, if_neg hf, hslug, Option.getD_some]

/-! ## Which links resolve -/

/-- `@unique` of the slug column. -/
def Store.SlugsUnique (s : Store) : Prop :=
  ∀ j k a b slug, s.routes.get? j = some a → s.routes.get? k = some b → a.val .slug = .str slug →
    b.val .slug = .str slug → j = k

/-- A route's id looks like one and its slug does not; or slug and id are one text; or the
    id is the empty text, which a slug's look-up takes for no id. -/
inductive Linkable (id : String) (slug : Option String) : Prop
  | looks (hid : looksLikeCuid id = true) (hslug : ∀ t, slug = some t → looksLikeCuid t = false)
  | same (h : slug = some id)
  | falsy (hid : id = "") (t : String) (hslug : slug = some t) (ht : looksLikeCuid t = false)

section Following

variable {W : World} {s : Store} {id : String} {r : Row}

theorem text_eq_some {c : Column} {t : String} : r.text c = some t ↔ r.val c = .str t := by
  unfold Row.text Json.str?
  cases r.val c <;> simp

/-- A row that is looked for by a property it has is found where no other row has it. -/
theorem find?_only {p : String → Row → Bool} (hr : s.routes.get? id = some r) (hp : p id r = true)
    (honly : ∀ k a, s.routes.get? k = some a → p k a = true → k = id) : s.routes.find? p = some (id, r) := by
  cases hf : s.routes.find? p with
  | none =>
    have hnone := List.find?_eq_none.1 hf (id, r) (Table.mem_rows_iff.2 hr)
    exact absurd hp hnone
  | some found =>
    obtain ⟨hget, hfound⟩ := Table.find?_some (k := found.1) (a := found.2) hf
    have hk : found.1 = id := honly _ _ hget hfound
    rw [hk, hr] at hget
    injection hget with hget
    exact congrArg some (Prod.ext hk hget.symm)

theorem getRouteById_id {key : String} (hr : s.routes.get? id = some r) (hl : r.live = true)
    (hkey : looksLikeCuid key = true) : getRouteById s key = some (id, r) ↔ key = id := by
  rw [getRouteById, if_pos hkey]
  constructor
  · intro h
    have hp := (Table.find?_some h).2
    simp only [Bool.and_eq_true, decide_eq_true_eq] at hp
    exact hp.1.symm
  · rintro rfl
    refine find?_only hr (by simp [hl]) ?_
    intro k a _ hp
    simp only [Bool.and_eq_true, decide_eq_true_eq] at hp
    exact hp.1

theorem getRouteById_slug {key : String} (hu : s.SlugsUnique) (hr : s.routes.get? id = some r) (hl : r.live = true)
    (hkey : looksLikeCuid key = false) : getRouteById s key = some (id, r) ↔ r.text .slug = some key := by
  rw [getRouteById, hkey, text_eq_some]
  simp only [Bool.false_eq_true, if_false]
  constructor
  · intro h
    have hp := (Table.find?_some h).2
    simp only [Bool.and_eq_true, decide_eq_true_eq] at hp
    exact hp.1
  · intro hslug
    refine find?_only hr (by simp [hslug, hl]) ?_
    intro k a ha hp
    simp only [Bool.and_eq_true, decide_eq_true_eq] at hp
    exact hu k id a r key ha hr hp.1 hslug

/-- A slug that does not look like an id is looked up as a slug. -/
theorem resolveRouteId_slug {slug : String} (hu : s.SlugsUnique) (hr : s.routes.get? id = some r)
    (hslug : r.text .slug = some slug) (hlooks : looksLikeCuid slug = false) : resolveRouteId s slug = some id := by
  have hval := text_eq_some.1 hslug
  rw [resolveRouteId, hlooks]
  simp only [Bool.false_eq_true, false_and, if_false]
  rw [find?_only hr (by simp [hval]) ?_]
  · rfl
  · intro k a ha hp
    exact hu k id a r slug ha hr (by simpa using hp) hval

theorem routeParam_looks {value : String} (h : looksLikeCuid value = true) : routeParam s value = value := by
  simp [routeParam, h]

theorem routeParam_ne_empty {value : String} (h : value ≠ "") : routeParam s value ≠ "" := by
  unfold routeParam
  split
  · cases ht : truthyText (resolveRouteId s value) with
    | none => exact h
    | some j => exact (truthyText_eq_some.1 ht).2
  · exact h

/-- By its slug. -/
theorem link_by_slug {slug : String} (hu : s.SlugsUnique) (hr : s.routes.get? id = some r) (hl : r.live = true)
    (hslug : r.text .slug = some slug) (hne : slug ≠ "") :
    getRouteById s (routeParam s slug) = some (id, r) ↔ Linkable id (r.text .slug) := by
  cases hlooks : looksLikeCuid slug with
  | true =>
    -- It goes through unchanged, and no id is like it but the route's own.
    rw [routeParam_looks hlooks, getRouteById_id hr hl hlooks]
    constructor
    · rintro rfl
      exact .same hslug
    · intro h
      cases h with
      | looks _ hno => exact absurd (hno slug hslug) (by simp [hlooks])
      | same h => exact Option.some.inj (hslug.symm.trans h)
      | falsy _ t ht hno =>
        rw [Option.some.inj (hslug.symm.trans ht), hno] at hlooks
        cases hlooks
  | false =>
    have hresolve := resolveRouteId_slug hu hr hslug hlooks
    by_cases hid : id = ""
    · -- The id that was found is falsy, and the slug stays.
      have hparam : routeParam s slug = slug := by simp [routeParam, hlooks, hresolve, truthyText, Option.filter, hid]
      rw [hparam, getRouteById_slug hu hr hl hlooks]
      exact ⟨fun _ => .falsy hid slug hslug hlooks, fun _ => hslug⟩
    · have hparam : routeParam s slug = id := by
        simp [routeParam, hne, hlooks, hresolve, truthyText, Option.filter, hid]
      rw [hparam]
      cases hidLooks : looksLikeCuid id with
      | true =>
        rw [getRouteById_id hr hl hidLooks]
        refine ⟨fun _ => .looks hidLooks ?_, fun _ => rfl⟩
        intro t ht
        rw [← Option.some.inj (hslug.symm.trans ht)]
        exact hlooks
      | false =>
        rw [getRouteById_slug hu hr hl hidLooks]
        constructor
        · exact .same
        · intro h
          cases h with
          | looks h _ => exact absurd h (by simp [hidLooks])
          | same h => exact h
          | falsy h => exact absurd h hid

/-- By its id. -/
theorem link_by_id (hu : s.SlugsUnique) (hr : s.routes.get? id = some r) (hl : r.live = true)
    (hslug : truthyText (r.text .slug) = none) :
    getRouteById s (routeParam s id) = some (id, r) ↔ Linkable id (r.text .slug) := by
  have hempty : ∀ t, r.text .slug = some t → t = "" := by
    intro t ht
    by_contra hne
    rw [truthyText_eq_some.2 ⟨ht, hne⟩] at hslug
    cases hslug
  cases hlooks : looksLikeCuid id with
  | true =>
    rw [routeParam_looks hlooks, getRouteById_id hr hl hlooks]
    refine ⟨fun _ => .looks hlooks ?_, fun _ => rfl⟩
    intro t ht
    rw [hempty t ht]
    decide
  | false =>
    by_cases hid : id = ""
    · subst hid
      have hparam : routeParam s "" = "" := by simp [routeParam]
      rw [hparam, getRouteById_slug hu hr hl hlooks]
      constructor
      · exact .same
      · intro h
        cases h with
        | looks h _ => exact absurd h (by simp [hlooks])
        | same h => exact h
        | falsy _ t ht _ => rw [ht, hempty t ht]
    · -- Whatever stands in its place, it is neither the route's id nor its slug.
      have hparam := routeParam_ne_empty (s := s) hid
      constructor
      · intro h
        cases hj : looksLikeCuid (routeParam s id) with
        | true =>
          rw [getRouteById_id hr hl hj] at h
          rw [h, hlooks] at hj
          cases hj
        | false => exact absurd (hempty _ ((getRouteById_slug hu hr hl hj).1 h)) hparam
      · intro h
        cases h with
        | looks h _ => exact absurd h (by simp [hlooks])
        | same h => exact absurd (hempty _ h) hid
        | falsy h => exact absurd h hid

/-- A live route's link shows that route. -/
theorem route_link_resolves_iff (hu : s.SlugsUnique) (hr : s.routes.get? id = some r) (hl : r.live = true) :
    followLink W s id r = some (id, r) ↔ Linkable id (r.text .slug) := by
  rw [followLink, lookupKey_routeUrl]
  cases hslug : truthyText (r.text .slug) with
  | none => exact link_by_id hu hr hl hslug
  | some slug =>
    obtain ⟨htext, hne⟩ := truthyText_eq_some.1 hslug
    exact link_by_slug hu hr hl htext hne

end Following

/-! ## Two names -/

namespace Linking

def named (name slug : String) : Row := Row.ofFields
  [(.name, .str name), (.slug, .str slug), (.publicPath, .str ("/" ++ slug)), (.targetUrl, .str "http://backend.svc"),
   (.createdAt, .str "2026-01-01T00:00:00.000Z"), (.updatedAt, .str "2026-01-01T00:00:00.000Z")] (by intro c; cases c <;> rfl)

def id : String := "cmf3x1q2r0000s6o1h9d8k2ab"

def storeOf (name slug : String) : Store := { Store.empty with routes := Table.empty.insert id (named name slug) }

theorem storeOf_unique (name slug : String) : (storeOf name slug).SlugsUnique := by
  intro j k a b _ ha hb _ _
  have key : ∀ {i c}, (storeOf name slug).routes.get? i = some c → i = id := by
    intro i c hi
    by_contra hne
    rw [storeOf, Table.get?_insert rfl, if_neg hne] at hi
    cases hi
  rw [key ha, key hb]

end Linking

theorem a_plain_slug_resolves :
    followLink World.plain (Linking.storeOf "Shop" "shop") Linking.id (Linking.named "Shop" "shop") =
      some (Linking.id, Linking.named "Shop" "shop") :=
  (route_link_resolves_iff (Linking.storeOf_unique _ _) rfl rfl).2
    (.looks (by decide) fun t ht => by cases ht; decide)

/-- The slug is what the name gives, and looks like an id. -/
theorem a_slug_may_look_like_an_id :
    slugify World.plain "Customersupportbackend" = some "customersupportbackend" ∧
      ¬∀ (W : World) (s : Store) (id : String) (r : Row), s.SlugsUnique → s.routes.get? id = some r → r.live = true →
        followLink W s id r = some (id, r) := by
  refine ⟨by decide, ?_⟩
  intro h
  let r := Linking.named "Customersupportbackend" "customersupportbackend"
  have hfound := h World.plain _ Linking.id r (Linking.storeOf_unique "Customersupportbackend" "customersupportbackend")
    rfl rfl
  have hlost : (followLink World.plain (Linking.storeOf "Customersupportbackend" "customersupportbackend") Linking.id
      r).isNone = true := by decide
  rw [hfound] at hlost
  cases hlost

end ClusterGate
