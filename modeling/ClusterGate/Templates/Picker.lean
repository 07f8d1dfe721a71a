/-
  ClusterGate.Templates.Picker — templates in the route form
  (`components/routes/PathTemplatePicker.tsx`, `components/routes/RouteForm.tsx`).

  The form has a route's path allowlist as a text, one path to a line, and sends its lines. The
  picker writes a template's paths into it, in place of what is there or besides, and saves what
  is there as a template.
  - `splitLines_join`: lines that are joined are read back.
  - `storedPaths_iff`: what a route gets from the form's text.
  - `Loads`, `loads_curated`: what loading a curated list comes to.
  - `templates_load`: so it is for every template that anybody is ever shown; and a template that
    was saved from a form has what a route would have got from it.
-/

import ClusterGate.Templates.Router

namespace ClusterGate

open Lib Lib.Act Lib.Zod

/-! ## The form -/

/-- `split('\n').map((s) => s.trim()).filter(Boolean)` -/
def splitLines (value : String) : List String := ((Text.split value '\n').map Text.trim).filter fun s => s ≠ ""

/-- What the form sends for the text. -/
def formAllowlist (value : String) : List String := if value = "" then [] else splitLines value

inductive ApplyMode
  | replace | add
  deriving DecidableEq

/-- `apply` of the picker: the text after it. -/
def applyTemplate (mode : ApplyMode) (value : String) (paths : List String) : String :=
  let next := match mode with
    | .replace => paths
    | .add => dedupe (splitLines value ++ paths)
  Text.join next '\n'

/-- What the picker sends to save the text as a template. -/
def saveBody (name value : String) (organizationId : Option String) : Json := .obj [
  ("name", .str (Text.trim name)),
  ("paths", .ofStrList (splitLines value)),
  ("organizationId", ((organizationId.filter (· ≠ "")).map Json.str).getD .null)]

/-- The paths a route gets from the text, if its schema takes them. -/
def storedPaths (value : String) : Option (List String) :=
  (pathAllowlistLeaf (.ofStrList (formAllowlist value))).toOption.bind Json.strList?

/-! ## Lines -/

/-- A text that is a line of its own. -/
structure IsLine (text : String) : Prop where
  single : '\n' ∉ text.toList
  trimmed : Text.trim text = text
  ne_empty : text ≠ ""

section Lines

variable {value : String} {lines paths : List String}

theorem splitLines_empty : splitLines "" = [] := by decide

theorem formAllowlist_eq (value : String) : formAllowlist value = splitLines value := by
  rw [formAllowlist]
  split_ifs with h
  · rw [h, splitLines_empty]
  · rfl

theorem splitLines_isLine : ∀ text ∈ splitLines value, IsLine text := by
  intro text htext
  obtain ⟨hmem, hne⟩ := List.mem_filter.1 htext
  obtain ⟨part, hpart, rfl⟩ := List.mem_map.1 hmem
  refine ⟨fun h => ?_, Text.trim_trim part, of_decide_eq_true hne⟩
  exact Text.sep_not_mem_split part hpart ((Text.trim_infix part).subset h)

/-- Lines that are joined are read back. -/
theorem splitLines_join (h : ∀ text ∈ lines, IsLine text) : splitLines (Text.join lines '\n') = lines := by
  by_cases hne : lines = []
  · rw [hne]
    exact splitLines_empty
  · rw [splitLines, Text.split_of_join hne fun text htext => (h text htext).single]
    have htrim : lines.map Text.trim = lines :=
      (List.map_congr_left fun text htext => (h text htext).trimmed).trans (List.map_id _)
    rw [htrim]
    exact List.filter_eq_self.2 fun text htext => decide_eq_true (h text htext).ne_empty

theorem Curated.isLine (h : Curated paths) : ∀ p ∈ paths, IsLine p := by
  intro p hp
  refine ⟨fun hnl => ?_, h.trimmed hp, h.ne_empty hp⟩
  have hspace := h.clean hp '\n' hnl
  cases hspace

theorem storedPaths_iff : storedPaths value = some paths ↔ (∀ text ∈ splitLines value, Enterable text) ∧
    (splitLines value).length ≤ PATH_ALLOWLIST_MAX_ENTRIES ∧ paths = dedupe ((splitLines value).map entered) := by
  rw [storedPaths, formAllowlist_eq]
  constructor
  · intro h
    obtain ⟨w, hw, hpaths⟩ := Option.bind_eq_some_iff.1 h
    obtain ⟨texts, heq, htexts, hc, rfl⟩ := pathsLeaf_iff.1 (toOption_some.1 hw)
    obtain rfl := ofStrList_injective heq
    rw [Json.strList?_ofStrList] at hpaths
    exact ⟨htexts, by simpa using hc _ List.mem_cons_self, (Option.some.inj hpaths).symm⟩
  · intro h
    obtain ⟨htexts, hlen, rfl⟩ := h
    refine Option.bind_eq_some_iff.2 ⟨_, toOption_some.2 (pathsLeaf_iff.2 ⟨_, rfl, htexts, fun c hc => ?_, rfl⟩), ?_⟩
    · rw [List.mem_singleton.1 hc]
      simpa using hlen
    · exact Json.strList?_ofStrList _

/-- A route's own list, or a template's, in the form comes out of it as it is. -/
theorem storedPaths_join (h : Curated paths) : storedPaths (Text.join paths '\n') = some paths := by
  rw [storedPaths_iff, splitLines_join h.isLine]
  refine ⟨fun p hp => h.enterable hp, h.short, ?_⟩
  rw [h.map_entered, dedupe_of_nodup h.nodup]

end Lines

/-! ## Loading -/

/-- What it comes to to load the paths into a form with the text. -/
structure Loads (paths : List String) (value : String) : Prop where
  replace : storedPaths (applyTemplate .replace value paths) = some paths
  add_blank : storedPaths value = some [] → storedPaths (applyTemplate .add value paths) = some paths
  /-- With too many lines the route's schema refuses the text. -/
  add_taken : ∀ current, storedPaths value = some current →
    ((storedPaths (applyTemplate .add value paths)).isSome = true ↔
      (dedupe (splitLines value ++ paths)).length ≤ PATH_ALLOWLIST_MAX_ENTRIES)
  /-- The gateway lets through what it did, and what the template does. -/
  add_allows : ∀ current next, storedPaths value = some current → current ≠ [] →
    storedPaths (applyTemplate .add value paths) = some next →
    ∀ subPath, isPathAllowed subPath next = (isPathAllowed subPath current || isPathAllowed subPath paths)

section Loading

variable {paths : List String} {value : String}

theorem splitLines_add (h : Curated paths) :
    splitLines (applyTemplate .add value paths) = dedupe (splitLines value ++ paths) := by
  refine splitLines_join fun text htext => ?_
  rcases List.mem_append.1 (mem_dedupe.1 htext) with hline | hpath
  · exact splitLines_isLine text hline
  · exact h.isLine text hpath

theorem enterable_add (h : Curated paths) (hvalue : ∀ text ∈ splitLines value, Enterable text) :
    ∀ text ∈ dedupe (splitLines value ++ paths), Enterable text := by
  intro text htext
  rcases List.mem_append.1 (mem_dedupe.1 htext) with hline | hpath
  · exact hvalue text hline
  · exact h.enterable hpath

theorem blank_of_stored (h : storedPaths value = some []) : splitLines value = [] := by
  obtain ⟨-, -, hnil⟩ := storedPaths_iff.1 h
  by_contra hne
  exact dedupe_ne_nil (fun hmap => hne (List.map_eq_nil_iff.1 hmap)) hnil.symm

theorem add_blank (h : Curated paths) (hblank : storedPaths value = some []) :
    storedPaths (applyTemplate .add value paths) = some paths := by
  have happly : applyTemplate .add value paths = Text.join paths '\n' := by
    rw [applyTemplate, blank_of_stored hblank, List.nil_append, dedupe_of_nodup h.nodup]
  rw [happly]
  exact storedPaths_join h

theorem add_taken (h : Curated paths) (hvalue : ∀ text ∈ splitLines value, Enterable text) :
    (storedPaths (applyTemplate .add value paths)).isSome = true ↔
      (dedupe (splitLines value ++ paths)).length ≤ PATH_ALLOWLIST_MAX_ENTRIES := by
  rw [Option.isSome_iff_exists]
  constructor
  · intro htaken
    obtain ⟨next, hnext⟩ := htaken
    obtain ⟨-, hlen, -⟩ := storedPaths_iff.1 hnext
    rwa [splitLines_add h] at hlen
  · intro hlen
    refine ⟨dedupe ((dedupe (splitLines value ++ paths)).map entered), ?_⟩
    rw [storedPaths_iff, splitLines_add h]
    exact ⟨enterable_add h hvalue, hlen, rfl⟩

theorem add_allows {next : List String} (h : Curated paths) (hvalue : ∀ text ∈ splitLines value, Enterable text)
    (hne : splitLines value ≠ []) (hnext : storedPaths (applyTemplate .add value paths) = some next) (subPath : String) :
    isPathAllowed subPath next =
      (isPathAllowed subPath (dedupe ((splitLines value).map entered)) || isPathAllowed subPath paths) := by
  obtain ⟨-, -, hentries⟩ := storedPaths_iff.1 hnext
  have hboth : splitLines value ++ paths ≠ [] := List.append_ne_nil_of_left_ne_nil hne paths
  rw [hentries, splitLines_add h, allowed_entries (dedupe_ne_nil hboth) (enterable_add h hvalue), allowed_dedupe hboth,
    allowed_append hne h.nonempty, allowed_entries hne hvalue]

theorem loads_curated (h : Curated paths) : Loads paths value where
  replace := storedPaths_join h
  add_blank := add_blank h
  add_taken := fun _ hcurrent => add_taken h (storedPaths_iff.1 hcurrent).1
  add_allows := by
    intro current next hcurrent hne hnext subPath
    obtain ⟨hvalue, -, rfl⟩ := storedPaths_iff.1 hcurrent
    refine add_allows h hvalue (fun hnil => hne ?_) hnext subPath
    rw [hnil]
    rfl

end Loading

/-! ## Saving -/

namespace TemplateOp

/-- The request gives the template other paths, or takes it away. -/
def rewrites (id : String) : TemplateOp → Prop
  | .create _ _ => False
  | .update id' body => id' = id ∧
      ∃ data, parsed templateUpdateFields templateUpdateSchema body = .ok data ∧ (data "paths").isSome = true
  | .delete id' => id' = id

end TemplateOp

/-- The picker saves the text as the template. -/
def SavesAs (id value : String) (g : TemplateStore) : TemplateEvent → Prop
  | .request u op => (∃ name organizationId, op = .create id (saveBody name value organizationId)) ∧
      ∃ tpl, (op.perform u g).1 = .ok tpl
  | .other _ => False

/-- The template gets other paths, or is deleted, or its organization is removed. -/
def Rewrites (id : String) (g : TemplateStore) : TemplateEvent → Prop
  | .request u op => op.rewrites id ∧ ∃ tpl, (op.perform u g).1 = .ok tpl
  | .other s => ∃ t, g.pathTemplates.get? id = some t ∧ ∃ org ∈ t.organizationId, s.organizations.get? org = none

/-- The template has what a route would get from the text. -/
def TemplateStore.HasPathsOf (g : TemplateStore) (id value : String) : Prop :=
  ∃ t, g.pathTemplates.get? id = some t ∧ storedPaths value = some t.paths

section Saving

variable {g : TemplateStore} {id value : String}

theorem parsed_member {fields : List String} {schema : Shape String} {kvs : List (String × Json)}
    {data : String → Option Json} {f : String} {t : ZodType} (h : parsed fields schema (.obj kvs) = .ok data) (hf : f ∈ fields)
    (hs : schema f = some t) : t.parse ((Json.obj kvs).get? f) = .ok (data f) := by
  rw [parsed] at h
  cases hp : parseObject fields schema (Json.obj kvs).get? with
  | error e =>
    rw [hp] at h
    cases h
  | ok out =>
    rw [hp] at h
    obtain rfl := Except.ok.inj h
    have hfield := parseObject_ok hp hf
    rwa [parseField, hs] at hfield

theorem saveBody_paths {name : String} {organizationId : Option String} {data : String → Option Json}
    (h : parsed templateFields templateSchema (saveBody name value organizationId) = .ok data) :
    storedPaths value = some (textList data "paths") := by
  obtain ⟨v, w, hv, hw, hpaths⟩ := ZodType.parse_leaf (parsed_member h (f := "paths") (by decide) rfl)
  obtain rfl : Json.ofStrList (splitLines value) = v := Option.some.inj hv
  obtain ⟨paths, rfl, -, hstored⟩ := pathsSchema_ok hpaths
  rw [textList_ofStrList hw, storedPaths, formAllowlist_eq, hstored]
  exact Json.strList?_ofStrList paths

theorem saves_step {e : TemplateEvent} (h : SavesAs id value g e) : (templateStep g e).HasPathsOf id value := by
  cases e with
  | request u op =>
    obtain ⟨⟨name, organizationId, rfl⟩, tpl, htpl⟩ := h
    obtain ⟨-, heffect⟩ := wp_outcome_ok (TemplateOp.perform_spec (.create id (saveBody name value organizationId))) htpl
    generalize hrows : ((TemplateOp.create id (saveBody name value organizationId)).perform u g).2.pathTemplates = rows at heffect
    cases heffect with
    | created hdata hnew hpaths =>
      refine ⟨tpl, ?_, ?_⟩
      · rw [templateStep, hrows, Table.get?_insert hnew, if_pos rfl]
      · rw [hpaths]
        exact saveBody_paths hdata
  | other s => exact h.elim

theorem keeps_effect {u : Caller} {op : TemplateOp} {tpl : PathTemplate} {templates : Table String PathTemplate}
    (heffect : TemplateEffect g u op tpl templates) (h : g.HasPathsOf id value) (hkept : ¬op.rewrites id) :
    ∃ t, templates.get? id = some t ∧ storedPaths value = some t.paths := by
  obtain ⟨t, ht, hpaths⟩ := h
  cases heffect with
  | created hdata hnew _ =>
    rw [Table.get?_insert hnew]
    split_ifs with hid
    · rw [hid, hnew] at ht
      cases ht
    · exact ⟨t, ht, hpaths⟩
  | @updated id' body data tpl hdata htpl =>
    rw [Table.get?_modify]
    split_ifs with hid
    · subst hid
      refine ⟨t.withFields data, by rw [ht]; rfl, ?_⟩
      cases hgiven : data "paths" with
      | none => rwa [PathTemplate.withFields, hgiven]
      | some w => exact absurd ⟨rfl, data, hdata, by rw [hgiven]; rfl⟩ hkept
    · exact ⟨t, ht, hpaths⟩
  | @deleted id' tpl htpl =>
    rw [Table.get?_erase, if_neg fun hid => hkept hid.symm]
    exact ⟨t, ht, hpaths⟩

theorem keeps_step {e : TemplateEvent} (h : g.HasPathsOf id value) (hkept : ¬Rewrites id g e) :
    (templateStep g e).HasPathsOf id value := by
  cases e with
  | request u op =>
    have hspec := TemplateOp.perform_spec (g := g) (u := u) op
    cases hout : (op.perform u g).1 with
    | ok tpl => exact keeps_effect (wp_outcome_ok hspec hout).2 h fun hrewrites => hkept ⟨hrewrites, tpl, hout⟩
    | error err =>
      rw [templateStep, wp_outcome_error hspec hout]
      exact h
  | other s =>
    obtain ⟨t, ht, hpaths⟩ := h
    refine ⟨t, ?_, hpaths⟩
    rw [templateStep, Table.get?_filter, ht, Option.filter_some, if_pos]
    refine (Option.all_eq_true _ _).2 fun org horg => Option.isSome_iff_ne_none.2 fun hgone => ?_
    exact hkept ⟨t, ht, org, horg, hgone⟩

end Saving

/-! ## Any run -/

def noTemplates : TemplateStore := ⟨.empty, .empty⟩

/-- An admin saves a form's text, in which one path is written twice. -/
def savedModels : TemplateEvent :=
  .request ⟨"admin", .ADMIN⟩ (.create "models" (saveBody "Models" "v1/models/\n /v1/models" none))

/-- From no templates, over any requests by anybody and whatever else is done to the store: every
    template that anybody is then shown is loaded as it is listed, and added to a form's list lets
    through what either does; and a template that has been saved from a form's text, and not been
    given other paths or taken away since, has the paths that a route would have got from the text. -/
theorem templates_load {g₀ : TemplateStore} (hg₀ : ∀ id, g₀.pathTemplates.get? id = none) (es : List TemplateEvent) :
    (∀ u, ∀ t ∈ listTemplates (run templateStep g₀ es) u, ∀ value, Loads t.paths value) ∧
      ∀ id value, Since templateStep (SavesAs id value) (Rewrites id) g₀ es →
        ∃ t, (run templateStep g₀ es).pathTemplates.get? id = some t ∧ storedPaths value = some t.paths := by
  have hstart : g₀.Valid := by
    intro id t ht
    rw [hg₀ id] at ht
    cases ht
  constructor
  · intro u t ht value
    exact loads_curated (listed_curated (templateRun_valid hstart es) ht)
  · intro id value hsince
    exact holds_since (P := fun g => g.HasPathsOf id value) (fun _ _ h => saves_step h) (fun _ _ h hkept => keeps_step h hkept)
      hsince

theorem savedModels_loads :
    ∃ t, (run templateStep noTemplates [savedModels]).pathTemplates.get? "models" = some t ∧
      storedPaths "v1/models/\n /v1/models" = some t.paths := by
  have hsaved : SavesAs "models" "v1/models/\n /v1/models" noTemplates savedModels :=
    ⟨⟨"Models", none, rfl⟩, ⟨"Models", none, ["/v1/models"], none, "admin"⟩, by decide +kernel⟩
  exact (templates_load (fun _ => rfl) [savedModels]).2 "models" _ ⟨[], savedModels, [], rfl, hsaved, trivial⟩

end ClusterGate
