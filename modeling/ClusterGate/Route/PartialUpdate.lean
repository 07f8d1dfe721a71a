/-
  ClusterGate.Route.PartialUpdate — what an update writes that its body did not say
  (`lib/zodPartial.ts`: `partialUpdate`; `PUT /:id` of `routes/routes.router.ts`;
  `services/routeService.ts`: `updateRoute`).

  The schema of an update takes the outer defaults off every field. The route's own schema
  has no others, so what the body leaves out is left alone; another schema may keep one.
  - `routeBodySchema_noDefault`: no field of a route keeps a default.
  - `putRoute_frame`: an update changes no column its body does not name, but for the
    bookkeeping and the slug of a new name.
  - `partial_update_iff`: both, with what any schema has to be.
  - `a_nullable_default_is_filled_in`: `z.string().default('x').nullable()`.
-/

import ClusterGate.Lib.ZodWrapped
import ClusterGate.Route.Written

namespace ClusterGate

open Lib Lib.Act Lib.Table Lib.Zod

/-! ## The body -/

theorem routeBodySchema_noDefault {W : World} {c : Column} {t : ZodType} (h : routeBodySchema W c = some t) :
    t.stripDefault.hasDefault = false := by
  cases c <;> cases h <;> rfl

/-- A field the body leaves out is not in the data. -/
theorem updateBody_absent {W : World} {body : Json} {data : Patch}
    (h : routeData W (partialUpdate (routeBodySchema W)) body = .ok data) {c : Column} (hc : body.get? c.key = none) :
    data c = none := by
  cases hs : routeBodySchema W c with
  | none => exact routeData_noField h (by rw [partialUpdate, hs]; rfl)
  | some t =>
    unfold routeData at h
    cases body with
    | obj kvs =>
      rw [parsedRoute] at h
      cases hp : parseObject routeBodyFields (partialUpdate (routeBodySchema W)) (Patch.ofMembers kvs) with
      | error e =>
        rw [hp] at h
        cases h
      | ok out =>
        rw [hp] at h
        cases h
        have hout := parseObject_ok hp (schema_field hs)
        have habsent : Patch.ofMembers kvs c = none := hc
        rw [parseField, partialUpdate, hs, Option.map_some, habsent] at hout
        have hnone : out c = none := (Except.ok.inj (hout.symm.trans (ZodType.optional_absent (routeBodySchema_noDefault hs))))
        rw [encodeBasicAuthInputs, hnone]
        rfl
    | null | bool b | num q | str s | arr xs => cases h

/-! ## The row -/

/-- The columns an update writes by itself. -/
def STAMPED_BY_UPDATE : List Column := [.version, .updatedById, .updatedAt]

/-- A column is as before, or of the bookkeeping, or the slug of a route with a new name. -/
def LeftAlone (r r' : Row) (c : Column) : Prop :=
  r'.val c = r.val c ∨ c ∈ STAMPED_BY_UPDATE ∨ c = .slug ∧ r'.val .name ≠ r.val .name

theorem UpdatedRow.leftAlone {W : World} {s : Store} {d : Draw} {id userId : String} {data : Patch} {r r' : Row}
    (h : UpdatedRow W s d id data userId r r') {c : Column} (hc : data c = none) (hslug : data .slug = none) :
    LeftAlone r r' c := by
  by_cases hbook : c ∈ STAMPED_BY_UPDATE
  · exact .inr (.inl hbook)
  · simp only [STAMPED_BY_UPDATE, List.mem_cons, List.not_mem_nil, or_false, not_or] at hbook
    obtain ⟨hversion, hby, hat⟩ := hbook
    by_cases hs : c = .slug
    · subst hs
      by_cases hname : ∃ name, data .name = some (.str name) ∧ .str name ≠ r.val .name
      · obtain ⟨name, hname, hnew⟩ := hname
        refine .inr (.inr ⟨rfl, ?_⟩)
        rwa [h.value (by decide) hname rfl]
      · refine .inl (h.2.2.same ?_ hat)
        rw [updatePatch_ne hversion hby, updateData_slug, withSlug]
        cases hdata : data .name with
        | none => exact hslug
        | some v =>
          cases v with
          | str name =>
            dsimp only
            rw [if_neg fun hnew => hname ⟨name, hdata, hnew.1⟩, hslug]
          | null | bool b | num q | arr xs | obj kvs => exact hslug
    · refine .inl (h.2.2.same ?_ hat)
      rw [updatePatch_ne hversion hby]
      by_cases ht : c = .targetUrl
      · subst ht
        rw [updateData_target, hc]
        rfl
      · by_cases hk : c ∈ secretColumns
        · rw [updateData_secret hk, dropMasked, hc]
          simp
        · rw [updateData_ne hs ht hk, hc]

/-! ## The request -/

section Request

variable {W : World} {u : Caller} {d : Draw} {id : String} {body : Json} {s : Store}

/-- An update of a route that is not live writes no route. -/
theorem putRoute_notLive (h : liveRoute? s id = none) : Keeps (putRoute W u d id body) (fun s' => s'.routes = s.routes) s := by
  simp only [Keeps, putRoute, wp_bind, wp_ofExcept, wp_read, wp_require, wp_ite]
  refine ⟨fun data _ => ⟨fun _ => ⟨fun _ => ?_, fun _ => ?_⟩, fun _ => trivial⟩, fun _ _ => trivial⟩
  · simp only [updateRoute, wp_bind, wp_read, wp_orThrow, h]
    refine ⟨?_, fun _ => trivial⟩
    intro r hr
    cases hr
  · simp only [requestUpdate, findLive, wp_bind, wp_read, wp_orThrow, h]
    refine ⟨?_, fun _ => trivial⟩
    intro r hr
    cases hr

theorem putRoute_frame {r r' : Row} (hr : s.routes.get? id = some r)
    (hr' : (putRoute W u d id body s).2.routes.get? id = some r') {c : Column} (hc : body.get? c.key = none) :
    LeftAlone r r' c := by
  cases hlive : liveRoute? s id with
  | none =>
    have hsame := wp_final (show Keeps (putRoute W u d id body) _ s from putRoute_notLive hlive)
    rw [hsame, hr] at hr'
    cases hr'
    exact .inl rfl
  | some old =>
    obtain ⟨hget, hl⟩ := liveRoute?_iff.1 hlive
    rw [hr, Option.some.injEq] at hget
    subst hget
    have heffect := wp_final (show Keeps (putRoute W u d id body) _ s from putRoute_keeps)
    rcases heffect.routes.some hr hr' with rfl | hfreed | ⟨-, -, -, data, hdata, hupdated⟩
    · exact .inl rfl
    · rw [hfreed.1] at hl
      cases hl
    · exact hupdated.leftAlone (updateBody_absent hdata hc) (routeData_noField hdata rfl)

end Request

/-- Any update's body gets no key it did not have exactly if no field, stripped of its outer
    defaults, still answers for an absent value with one; and an update of a route leaves
    alone what its body does not name. -/
theorem partial_update_iff (schema : ObjectSchema) (W : World) (u : Caller) (d : Draw) (id : String) (body : Json) (s : Store) :
    (AddsNothing schema ↔ ∀ k t, schema.get? k = some t → ¬t.stripDefault.Fills) ∧
      ∀ r r', s.routes.get? id = some r → (putRoute W u d id body s).2.routes.get? id = some r' →
        ∀ c : Column, body.get? c.key = none → LeftAlone r r' c :=
  ⟨addsNothing_iff schema, fun _ _ hr hr' _ hc => putRoute_frame hr hr' hc⟩

/-- The schema with one field. -/
def singleField (t : Wrapped) : ObjectSchema := ⟨[("a", t)], List.nodup_singleton "a"⟩

/-- `z.string().default('x').nullable()` -/
def nullableDefault : Wrapped := .nullable (.default (.str "x") (.leaf (string [])))

theorem a_nullable_default_is_filled_in : ¬AddsNothing (singleField nullableDefault) ∧
    (singleField nullableDefault).partialUpdate.parse (.obj []) = .ok [("a", .str "x")] := by
  have hparse : (singleField nullableDefault).partialUpdate.parse (.obj []) = .ok [("a", .str "x")] := rfl
  refine ⟨fun h => ?_, hparse⟩
  cases h _ _ hparse "a" (.str "x") List.mem_cons_self

end ClusterGate
