/-
  ClusterGate.Templates.Router — path allowlist templates (`lib/pathTemplates.ts`,
  `routes/pathTemplates.router.ts`).

  A template is a named list of path patterns to put into a route's allowlist. Some are built in;
  the others belong to an organization, whose managers write them, or to nobody, and are then the
  system admins'. Organizations and memberships change meanwhile, and with an organization the
  database removes its templates.
  - `TemplateOp.perform_spec`: what a request that is answered has done to the templates.
  - `templateRun_valid`: after any requests and whatever else is done, every stored list is curated.
  - `listed_curated`: so is every list that anybody is shown.
-/

import ClusterGate.Grouping.Folders
import ClusterGate.Lib.Since
import ClusterGate.Templates.Entries

namespace ClusterGate

open Lib Lib.Act Lib.Zod

/-! ## The built-in templates -/

inductive TemplateCategory
  | AI | Automation | Ops
  deriving DecidableEq

structure BuiltinPathTemplate where
  id : String
  name : String
  description : String
  category : TemplateCategory
  paths : List String
  deriving DecidableEq

def BUILTIN_PATH_TEMPLATES : List BuiltinPathTemplate := [
  { id := "builtin:openai-inference"
    name := "OpenAI – inference"
    description := "Chat, Responses, embeddings and model list. No files, fine-tuning or batches."
    category := .AI
    paths := ["/v1/chat/completions", "/v1/responses", "/v1/responses/*", "/v1/embeddings", "/v1/models/*"] },
  { id := "builtin:openai-full"
    name := "OpenAI – full API"
    description := "All public OpenAI API v1 endpoint groups."
    category := .AI
    paths := ["/v1/chat/completions/*", "/v1/completions", "/v1/responses/*", "/v1/conversations/*", "/v1/embeddings",
      "/v1/models/*", "/v1/moderations", "/v1/audio/*", "/v1/images/*", "/v1/files/*", "/v1/uploads/*",
      "/v1/batches/*", "/v1/fine_tuning/*", "/v1/vector_stores/*", "/v1/assistants/*", "/v1/threads/*",
      "/v1/realtime/*"] },
  { id := "builtin:openai-compatible"
    name := "OpenAI-compatible server"
    description := "vLLM, LiteLLM, LocalAI, LM Studio, llama.cpp server: completions, embeddings, models, health."
    category := .AI
    paths := ["/v1/chat/completions", "/v1/completions", "/v1/embeddings", "/v1/models/*", "/health"] },
  { id := "builtin:anthropic"
    name := "Anthropic Claude API"
    description := "Messages (incl. token counting and batches) and model list."
    category := .AI
    paths := ["/v1/messages", "/v1/messages/count_tokens", "/v1/messages/batches/*", "/v1/models/*"] },
  { id := "builtin:ollama-inference"
    name := "Ollama – inference only"
    description := "Generate, chat, embeddings, model list and the OpenAI-compatible API. No pull/push/delete/create."
    category := .AI
    paths := ["/api/generate", "/api/chat", "/api/embed", "/api/embeddings", "/api/tags", "/api/show", "/api/ps",
      "/api/version", "/v1/chat/completions", "/v1/completions", "/v1/embeddings", "/v1/models/*"] },
  { id := "builtin:gemini"
    name := "Google Gemini API"
    description := "generateContent, streamGenerateContent, embedContent and model list (v1 and v1beta)."
    category := .AI
    paths := ["/v1beta/models/*", "/v1/models/*"] },
  { id := "builtin:mistral"
    name := "Mistral AI"
    description := "Chat, FIM, embeddings, moderation, OCR and model list."
    category := .AI
    paths := ["/v1/chat/completions", "/v1/fim/completions", "/v1/embeddings", "/v1/moderations", "/v1/ocr",
      "/v1/models/*"] },
  { id := "builtin:hf-tgi"
    name := "Hugging Face TGI"
    description := "Text Generation Inference: generate, stream, OpenAI-compatible chat, info and health."
    category := .AI
    paths := ["/generate", "/generate_stream", "/v1/chat/completions", "/v1/completions", "/v1/models", "/info",
      "/health"] },
  { id := "builtin:hf-tei"
    name := "Hugging Face TEI"
    description := "Text Embeddings Inference: embed, rerank, OpenAI-compatible embeddings, info and health."
    category := .AI
    paths := ["/embed", "/rerank", "/v1/embeddings", "/info", "/health"] },
  { id := "builtin:n8n-webhooks"
    name := "n8n – webhooks & forms only"
    description := "Production webhooks and forms. Keeps the editor UI and REST API private."
    category := .Automation
    paths := ["/webhook/*", "/form/*"] },
  { id := "builtin:health"
    name := "Health endpoints only"
    description := "Common liveness/readiness paths for monitoring from outside."
    category := .Ops
    paths := ["/health", "/healthz", "/readyz", "/livez"] }]

/-! ## The router -/

structure PathTemplate where
  name : String
  description : Option String
  paths : List String
  organizationId : Option String
  createdById : String
  deriving DecidableEq

/-- The templates, and what the checks read of the rest. -/
structure TemplateStore where
  store : Store
  pathTemplates : Table String PathTemplate

abbrev TemplateHandler (α : Type) := Act TemplateStore Err α

def besideTemplates {α : Type} : Handler α → TemplateHandler α := zoom TemplateStore.store fun s g => { g with store := s }

def pathsSchema : Leaf :=
  transform (array pathPattern [(fun xs => 1 ≤ xs.length, none), (fun xs => xs.length ≤ PATH_ALLOWLIST_MAX_ENTRIES, none)])
    dedupeJson

def templateName : Leaf := trimmed (string [minLength 1, maxLength 100])

def templateDescription : Leaf := trimmed (string [maxLength 500])

def templateSchema : Shape String := fun field => match field with
  | "name" => ZodType.leaf templateName
  | "description" => ZodType.optional (.leaf templateDescription)
  | "paths" => ZodType.leaf pathsSchema
  | "organizationId" => ZodType.optional (.nullable textField)
  | _ => none

def templateFields : List String := ["name", "description", "paths", "organizationId"]

def templateUpdateSchema : Shape String := fun field => match field with
  | "name" => ZodType.optional (.leaf templateName)
  | "description" => ZodType.optional (.nullable (.leaf templateDescription))
  | "paths" => ZodType.optional (.leaf pathsSchema)
  | _ => none

def templateUpdateFields : List String := ["name", "description", "paths"]

/-- What a listed template is. -/
structure ListedTemplate where
  id : String
  name : String
  description : Option String
  category : Option TemplateCategory
  paths : List String
  organizationId : Option String
  builtin : Bool
  deriving DecidableEq

def BuiltinPathTemplate.listed (t : BuiltinPathTemplate) : ListedTemplate :=
  ⟨t.id, t.name, some t.description, some t.category, t.paths, none, true⟩

def PathTemplate.listed (id : String) (t : PathTemplate) : ListedTemplate :=
  ⟨id, t.name, t.description, none, t.paths, t.organizationId, false⟩

/-- `GET /`: the templates of nobody and of the caller's organizations. -/
def listTemplates (g : TemplateStore) (u : Caller) : List ListedTemplate :=
  let custom := g.pathTemplates.rows.filter fun t =>
    u.role = .ADMIN || (match t.2.organizationId with
      | none => true
      | some org => (getUserOrgRole g.store u.userId org).isSome)
  BUILTIN_PATH_TEMPLATES.map BuiltinPathTemplate.listed ++ custom.map fun t => t.2.listed t.1

def loadTemplate (id : String) : TemplateHandler PathTemplate := do
  let g ← read
  orThrow (g.pathTemplates.get? id) (.notFound "Template")

def assertTemplateManage (u : Caller) (tpl : PathTemplate) : TemplateHandler Unit := do
  let g ← read
  if u.role = .ADMIN then pure ()
  else match tpl.organizationId.filter (· ≠ "") with
    | none => Act.throw (.forbidden "Only admins can change global templates")
    | some org => do
      require (isOrgMember g.store u org) (.notFound "Template")
      require (canManageOrgRoutes g.store u org)
        (.forbidden "You need Owner or Admin role in this organization to manage templates")

/-- `POST /`. -/
def postTemplate (u : Caller) (id : String) (body : Json) : TemplateHandler PathTemplate := do
  besideTemplates (authorize u [.ADMIN, .OPERATOR])
  let data ← besideTemplates (parseBody templateFields templateSchema body)
  let organizationId := textField? data "organizationId"
  let named := organizationId.filter (· ≠ "")
  let g ← read
  require (u.role = .ADMIN ∨ named.isSome) (.badRequest "Organization is required")
  require (u.role = .ADMIN ∨ ∃ org ∈ named, canManageOrgRoutes g.store u org)
    (.forbidden "You need Owner or Admin role in this organization to create templates")
  require (u.role ≠ .ADMIN ∨ ∀ org ∈ named, (g.store.organizations.get? org).isSome) (.notFound "Organization")
  require (g.pathTemplates.get? id).isNone (.prisma "P2002")
  require (∀ org ∈ organizationId, (g.store.organizations.get? org).isSome) (.prisma "P2003")
  let tpl : PathTemplate := {
    name := (textField? data "name").getD ""
    description := (textField? data "description").filter (· ≠ "")
    paths := textList data "paths"
    organizationId
    createdById := u.userId }
  modify fun g => { g with pathTemplates := g.pathTemplates.insert id tpl }
  pure tpl

/-- The fields a parsed body gives; null takes the description away. -/
def PathTemplate.withFields (t : PathTemplate) (data : String → Option Json) : PathTemplate :=
  { t with
    name := (textField? data "name").getD t.name
    description := if (data "description").isSome then textField? data "description" else t.description
    paths := ((data "paths").bind Json.strList?).getD t.paths }

/-- `PUT /:id`. -/
def putTemplate (u : Caller) (id : String) (body : Json) : TemplateHandler PathTemplate := do
  besideTemplates (authorize u [.ADMIN, .OPERATOR])
  require (Text.startsWith id "builtin:" = false) (.badRequest "Built-in templates cannot be changed")
  let tpl ← loadTemplate id
  assertTemplateManage u tpl
  let data ← besideTemplates (parseBody templateUpdateFields templateUpdateSchema body)
  modify fun g => { g with pathTemplates := g.pathTemplates.modify id fun t => t.withFields data }
  pure (tpl.withFields data)

/-- `DELETE /:id`. -/
def deleteTemplate (u : Caller) (id : String) : TemplateHandler PathTemplate := do
  besideTemplates (authorize u [.ADMIN, .OPERATOR])
  require (Text.startsWith id "builtin:" = false) (.badRequest "Built-in templates cannot be deleted")
  let tpl ← loadTemplate id
  assertTemplateManage u tpl
  modify fun g => { g with pathTemplates := g.pathTemplates.erase id }
  pure tpl

inductive TemplateOp
  /-- With the id the row gets. -/
  | create (id : String) (body : Json)
  | update (id : String) (body : Json)
  | delete (id : String)

def TemplateOp.perform (u : Caller) : TemplateOp → TemplateHandler PathTemplate
  | .create id body => postTemplate u id body
  | .update id body => putTemplate u id body
  | .delete id => deleteTemplate u id

inductive TemplateEvent
  | request (caller : Caller) (op : TemplateOp)
  /-- Whatever else is done leaves this store. -/
  | other (store : Store)

def templateStep (g : TemplateStore) : TemplateEvent → TemplateStore
  | .request u op => (op.perform u g).2
  | .other s => {
      store := s
      pathTemplates := g.pathTemplates.filter fun _ t => t.organizationId.all fun org => (s.organizations.get? org).isSome }

/-! ## What a request does to the templates -/

/-- What an answered request has done. -/
inductive TemplateEffect (g : TemplateStore) (u : Caller) : TemplateOp → PathTemplate → Table String PathTemplate → Prop
  | created {id : String} {body : Json} {data : String → Option Json} {tpl : PathTemplate}
      (hdata : parsed templateFields templateSchema body = .ok data) (hnew : g.pathTemplates.get? id = none)
      (hpaths : tpl.paths = textList data "paths") :
      TemplateEffect g u (.create id body) tpl (g.pathTemplates.insert id tpl)
  | updated {id : String} {body : Json} {data : String → Option Json} {tpl : PathTemplate}
      (hdata : parsed templateUpdateFields templateUpdateSchema body = .ok data) (htpl : g.pathTemplates.get? id = some tpl) :
      TemplateEffect g u (.update id body) (tpl.withFields data) (g.pathTemplates.modify id fun t => t.withFields data)
  | deleted {id : String} {tpl : PathTemplate} (htpl : g.pathTemplates.get? id = some tpl) :
      TemplateEffect g u (.delete id) tpl (g.pathTemplates.erase id)

section Perform

variable {g : TemplateStore} {u : Caller} {α : Type}

theorem wp_besideTemplates {x : Handler α} {Q : α → TemplateStore → Prop} {E : Err → TemplateStore → Prop} :
    wp (besideTemplates x) Q E g ↔
      wp x (fun a s => Q a { g with store := s }) (fun e s => E e { g with store := s }) g.store := wp_zoom

theorem wp_loadTemplate {id : String} {Q : PathTemplate → TemplateStore → Prop} {E : Err → TemplateStore → Prop}
    (hQ : ∀ tpl, g.pathTemplates.get? id = some tpl → Q tpl g) (hE : ∀ e, E e g) : wp (loadTemplate id) Q E g := by
  simp only [loadTemplate, wp_bind, wp_read, wp_orThrow]
  exact ⟨hQ, fun _ => hE _⟩

theorem wp_assertTemplateManage {tpl : PathTemplate} {Q : Unit → TemplateStore → Prop} {E : Err → TemplateStore → Prop}
    (hQ : Q () g) (hE : ∀ e, E e g) : wp (assertTemplateManage u tpl) Q E g := by
  simp only [assertTemplateManage, wp_bind, wp_read, wp_ite, wp_pure]
  refine ⟨fun _ => hQ, fun _ => ?_⟩
  cases tpl.organizationId.filter (· ≠ "") with
  | none => exact hE _
  | some org =>
    simp only [wp_bind, wp_require]
    exact ⟨fun _ => ⟨fun _ => hQ, fun _ => hE _⟩, fun _ => hE _⟩

theorem TemplateOp.perform_spec (op : TemplateOp) :
    wp (op.perform u) (fun tpl g' => g'.store = g.store ∧ TemplateEffect g u op tpl g'.pathTemplates)
      (fun _ g' => g' = g) g := by
  cases op with
  | create id body =>
    simp only [TemplateOp.perform, postTemplate, authorize, parseBody, wp_bind, wp_besideTemplates, wp_require, wp_ofExcept,
      wp_read, wp_modify, wp_pure]
    refine ⟨fun _ => ⟨fun data hdata => ⟨fun _ => ⟨fun _ => ⟨fun _ => ⟨fun hnew => ⟨fun _ => ?_, ?_⟩, ?_⟩, ?_⟩, ?_⟩, ?_⟩, ?_⟩, ?_⟩
    · exact ⟨trivial, .created hdata (Option.isNone_iff_eq_none.1 hnew) rfl⟩
    all_goals intros; trivial
  | update id body =>
    simp only [TemplateOp.perform, putTemplate, authorize, wp_bind, wp_besideTemplates, wp_require]
    refine ⟨fun _ => ⟨fun _ => wp_loadTemplate (fun tpl htpl => ?_) fun _ => rfl, fun _ => trivial⟩, fun _ => trivial⟩
    simp only [wp_bind]
    refine wp_assertTemplateManage ?_ fun _ => rfl
    simp only [parseBody, wp_bind, wp_besideTemplates, wp_ofExcept, wp_modify, wp_pure]
    exact ⟨fun data hdata => ⟨trivial, .updated hdata htpl⟩, fun _ _ => trivial⟩
  | delete id =>
    simp only [TemplateOp.perform, deleteTemplate, authorize, wp_bind, wp_besideTemplates, wp_require]
    refine ⟨fun _ => ⟨fun _ => wp_loadTemplate (fun tpl htpl => ?_) fun _ => rfl, fun _ => trivial⟩, fun _ => trivial⟩
    simp only [wp_bind]
    exact wp_assertTemplateManage ⟨rfl, .deleted htpl⟩ fun _ => rfl

end Perform

/-! ## The lists -/

section Lists

variable {g : TemplateStore} {u : Caller} {data : String → Option Json}

theorem pathsSchema_ok {v w : Json} (h : pathsSchema v = .ok w) :
    ∃ paths, w = .ofStrList paths ∧ Curated paths ∧ pathAllowlistLeaf v = .ok w := by
  obtain ⟨texts, rfl, htexts, hchecks, rfl⟩ := pathsLeaf_iff.1 h
  have hne : 1 ≤ (texts.map fun text => Json.str (entered text)).length := of_decide_eq_true (hchecks _ List.mem_cons_self)
  have hlen := hchecks _ (List.mem_cons_of_mem _ List.mem_cons_self)
  have hshort : texts.length ≤ PATH_ALLOWLIST_MAX_ENTRIES := by simpa using hlen
  rw [List.length_map] at hne
  refine ⟨_, rfl, curated_entries (List.ne_nil_of_length_pos hne) hshort htexts, ?_⟩
  refine pathsLeaf_iff.2 ⟨texts, rfl, htexts, fun c hc => ?_, rfl⟩
  rw [List.mem_singleton.1 hc]
  exact hlen

theorem textList_ofStrList {field : String} {paths : List String} (h : data field = some (.ofStrList paths)) :
    textList data field = paths := by
  rw [textList, h, Option.bind_some, Json.strList?_ofStrList, Option.getD_some]

theorem created_curated {body : Json} (h : parsed templateFields templateSchema body = .ok data) :
    Curated (textList data "paths") := by
  obtain ⟨o, ho⟩ := parsed_field h (f := "paths") (by decide) rfl
  obtain ⟨v, w, -, hw, hpaths⟩ := ZodType.parse_leaf ho
  obtain ⟨paths, rfl, hcurated, -⟩ := pathsSchema_ok hpaths
  rwa [textList_ofStrList hw]

theorem updated_curated {body : Json} {tpl : PathTemplate} (h : parsed templateUpdateFields templateUpdateSchema body = .ok data)
    (htpl : Curated tpl.paths) : Curated (tpl.withFields data).paths := by
  obtain ⟨o, ho⟩ := parsed_field h (f := "paths") (by decide) rfl
  rcases ZodType.parse_optional_leaf ho with hnone | ⟨v, w, -, hw, hpaths⟩
  · rwa [PathTemplate.withFields, hnone]
  · obtain ⟨paths, rfl, hcurated, -⟩ := pathsSchema_ok hpaths
    rwa [PathTemplate.withFields, hw, Option.bind_some, Json.strList?_ofStrList, Option.getD_some]

/-- Every stored list is curated. -/
def TemplateStore.Valid (g : TemplateStore) : Prop := ∀ id t, g.pathTemplates.get? id = some t → Curated t.paths

theorem templateEffect_valid {op : TemplateOp} {tpl : PathTemplate} {templates : Table String PathTemplate} (hg : g.Valid)
    (h : TemplateEffect g u op tpl templates) {id : String} {t : PathTemplate} (ht : templates.get? id = some t) :
    Curated t.paths := by
  cases h with
  | created hdata hnew hpaths =>
    rw [Table.get?_insert hnew] at ht
    split_ifs at ht
    · obtain rfl := Option.some.inj ht
      rw [hpaths]
      exact created_curated hdata
    · exact hg id t ht
  | updated hdata htpl =>
    rw [Table.get?_modify] at ht
    split_ifs at ht with hid
    · obtain ⟨t₀, ht₀, rfl⟩ := Option.map_eq_some_iff.1 ht
      exact updated_curated hdata (hg _ t₀ ht₀)
    · exact hg id t ht
  | deleted htpl =>
    rw [Table.get?_erase] at ht
    split_ifs at ht
    exact hg id t ht

theorem templateStep_valid (hg : g.Valid) (e : TemplateEvent) : (templateStep g e).Valid := by
  cases e with
  | request u op =>
    intro id t ht
    have hspec := TemplateOp.perform_spec (g := g) (u := u) op
    cases hout : (op.perform u g).1 with
    | ok tpl => exact templateEffect_valid hg (wp_outcome_ok hspec hout).2 ht
    | error err =>
      rw [templateStep, wp_outcome_error hspec hout] at ht
      exact hg id t ht
  | other s =>
    intro id t ht
    obtain ⟨ht, -⟩ := Option.filter_eq_some_iff.1 ((Table.get?_filter _ _ _).symm.trans ht)
    exact hg id t ht

theorem templateRun_valid (hg : g.Valid) (es : List TemplateEvent) : (run templateStep g es).Valid :=
  run_stable (I := TemplateStore.Valid) (fun _ hg e => templateStep_valid hg e) hg es

theorem builtin_lists : ∀ t ∈ BUILTIN_PATH_TEMPLATES, t.paths ≠ [] ∧ t.paths.length ≤ PATH_ALLOWLIST_MAX_ENTRIES ∧ t.paths.Nodup := by
  decide +kernel

theorem builtin_plain : ∀ t ∈ BUILTIN_PATH_TEMPLATES, ∀ p ∈ t.paths, PlainPath p.toList := by
  decide +kernel

theorem builtin_curated : ∀ t ∈ BUILTIN_PATH_TEMPLATES, Curated t.paths := by
  intro t ht
  obtain ⟨hne, hshort, hnodup⟩ := builtin_lists t ht
  exact curated_of_plain hne hshort hnodup (builtin_plain t ht)

/-- Every list that anybody is shown is curated. -/
theorem listed_curated (hg : g.Valid) {t : ListedTemplate} (ht : t ∈ listTemplates g u) : Curated t.paths := by
  rcases List.mem_append.1 ht with hbuiltin | hcustom
  · obtain ⟨b, hb, rfl⟩ := List.mem_map.1 hbuiltin
    exact builtin_curated b hb
  · obtain ⟨⟨id, tpl⟩, htpl, rfl⟩ := List.mem_map.1 hcustom
    exact hg id tpl (Table.mem_rows_iff.1 (List.mem_filter.1 htpl).1)

end Lists

end ClusterGate
