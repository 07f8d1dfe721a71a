/-
  ClusterGate.Keys.Router — the endpoints of a route's API keys (`routes/apikeys.router.ts`,
  with `createApiKey` of `services/apiKeyService.ts` and the checks of
  `middleware/routeAccess.ts`), beside the endpoints that write the rest of the store.

  A key is issued and shared by those who manage its route and every route and folder it is to
  be good for; system admins revoke and delete it. Its text is in the answer that issues it, the
  database keeps the hash. A request is taken as a whole here, so the steps of the service follow
  each other.
  - `KeyOp.perform_spec`: what a request that is answered has done to the keys, and that a refused
    one leaves them as they were.
-/

import ClusterGate.Endpoint
import ClusterGate.Keys.Service

namespace ClusterGate

open Lib Lib.Act Lib.Zod

/-! ## The service -/

/-- What issuing a key draws. -/
structure KeyDraw where
  id : String
  /-- `randomBytes(32).toString('hex')` -/
  random : String

structure CreatedKey where
  id : String
  name : String
  row : ApiKey
  key : String

namespace KeyStore

/-- `route.findUnique({ where: { id, deletedAt: null } })` -/
def findLive (routeId : String) : Act KeyStore Err Bool := fun s =>
  (.ok ((s.db.routes.get? routeId).any fun r => !r.deleted), s)

/-- `apiKey.create`, with its shares and bindings. -/
def create (id : String) (k : ApiKey) : Act KeyStore Err Unit := fun s =>
  if (s.db.apiKeys.get? id).isSome = true ∨ s.db.apiKeys.any (fun _ k' => k'.keyHash = k.keyHash) = true then
    (.error (.prisma "P2002"), s)
  else if (s.db.routes.get? k.routeId).isSome = true ∧ (∀ r ∈ k.sharedRoutes, (s.db.routes.get? r).isSome = true) ∧
      ∀ f ∈ k.sharedFolders, f ∈ s.db.routeFolders then
    (.ok (), { s with db := { s.db with apiKeys := s.db.apiKeys.insert id k } })
  else (.error (.prisma "P2003"), s)

end KeyStore

open Async KeyStore in
def createApiKey (W : World) (d : KeyDraw) (routeId name : String) (expiresAt : Option Nat) (scope : ApiKeyScope)
    (routeIds folderIds : List String) : Async KeyStore Err CreatedKey := do
  let route ← await (KeyStore.findLive routeId)
  Async.require (route = true) (.notFound "Route")
  let targetIds := routeIds.eraseDups.filter fun id => id ≠ routeId
  let foundRoutes ← await (countRoutes targetIds)
  Async.require (foundRoutes = targetIds.length) (.badRequest "One or more routes do not exist")
  let folderTargetIds := folderIds.eraseDups
  let foundFolders ← await (countFolders folderTargetIds)
  Async.require (foundFolders = folderTargetIds.length) (.badRequest "One or more folders do not exist")
  let rawKey := "cgk_" ++ d.random
  let row : ApiKey := {
    routeId, keyHash := W.sha256 rawKey, isActive := true, scope, expiresAt,
    sharedRoutes := targetIds, sharedFolders := folderTargetIds }
  await (KeyStore.create d.id row)
  pure ⟨d.id, name, row, rawKey⟩

/-! ## The store with the keys -/

structure KeyRing where
  store : Store
  apiKeys : Table String ApiKey

/-- What the service's queries see. -/
def KeyRing.db (g : KeyRing) : KeyDb where
  apiKeys := g.apiKeys
  routes := g.store.routes.mapTo fun r => ⟨r.text .folderId, !r.live⟩
  routeFolders := g.store.routeFolders.rows.map Prod.fst

abbrev KeyHandler (α : Type) := Act KeyRing Err α

def onStore {α : Type} : Handler α → KeyHandler α := zoom KeyRing.store fun s g => { g with store := s }

/-- A call of the service, with nothing in between. -/
def onKeys {α : Type} (x : Async KeyStore Err α) : KeyHandler α := fun g =>
  let done := x.run ⟨0, g.db, .empty⟩
  (done.1, { g with apiKeys := done.2.db.apiKeys })

/-! ## The router -/

def canManageAllRoutes (s : Store) (u : Caller) (routeIds : List String) : Bool := (dedupe routeIds).all (canManageRoute s u)

def canManageFolder (s : Store) (u : Caller) (folderId : String) : Bool :=
  u.role = .ADMIN || (match (s.routeFolders.get? folderId).bind fun f => f.organizationId.filter (· ≠ "") with
    | some org => canManageOrgRoutes s u org
    | none => false)

def canManageAllFolders (s : Store) (u : Caller) (folderIds : List String) : Bool :=
  (dedupe folderIds).all (canManageFolder s u)

/-- What a key is to be good for is the caller's to manage. -/
def requireShareable (u : Caller) (routeIds folderIds : List String) : Handler Unit := do
  let s ← read
  require (routeIds = [] ∨ canManageAllRoutes s u routeIds = true) (.notFound "Route")
  require (folderIds = [] ∨ canManageAllFolders s u folderIds = true) (.notFound "Folder")

/-- `z.array(z.string()).max(100)` -/
def upTo100 : Leaf := array (string []) [(fun xs => xs.length ≤ 100, none)]

section Router

variable (W : World) (instant : String → Option Nat)

/-- `instant` is the time of a text that `z.string().datetime()` takes, in milliseconds. -/
def createKeySchema : Shape String := fun field => match field with
  | "name" => textField [minLength 1 "Name is required", maxLength 100]
  | "expiresAt" => ZodType.optional (textField [(fun s => (instant s).isSome, none)])
  | "scope" => enumField ["READ", "FULL"] "FULL"
  | "routeIds" => ZodType.optional (.leaf upTo100)
  | "folderIds" => ZodType.optional (.leaf upTo100)
  | _ => none

def createKeyFields : List String := ["name", "expiresAt", "scope", "routeIds", "folderIds"]

def keyRoutesSchema : Shape String := fun field => match field with
  | "routeIds" => ZodType.leaf upTo100
  | "folderIds" => ZodType.optional (.leaf upTo100)
  | _ => none

def keyRoutesFields : List String := ["routeIds", "folderIds"]

def keyScope (data : String → Option Json) : ApiKeyScope := if textField? data "scope" = some "READ" then .READ else .FULL

/-- `POST /:routeId/api-keys`. -/
def postApiKey (u : Caller) (d : KeyDraw) (routeId : String) (body : Json) : KeyHandler CreatedKey := do
  onStore (authorize u [.ADMIN, .OPERATOR])
  onStore (requireRouteManage u routeId)
  let data ← onStore (parseBody createKeyFields (createKeySchema instant) body)
  let routeIds := textList data "routeIds"
  let folderIds := textList data "folderIds"
  onStore (requireShareable u routeIds folderIds)
  onKeys (createApiKey W d routeId ((textField? data "name").getD "") ((textField? data "expiresAt").bind instant)
    (keyScope data) routeIds folderIds)

/-- `POST /:routeId/api-keys/:keyId/revoke`. -/
def postRevoke (u : Caller) (routeId keyId : String) : KeyHandler KeyAnswer := do
  onStore (authorize u [.ADMIN])
  onStore (requireRouteManage u routeId)
  onKeys (revokeApiKey keyId routeId)

/-- `PUT /:routeId/api-keys/:keyId/routes`. -/
def putKeyRoutes (u : Caller) (routeId keyId : String) (body : Json) : KeyHandler KeyAnswer := do
  onStore (authorize u [.ADMIN, .OPERATOR])
  onStore (requireRouteManage u routeId)
  let data ← onStore (parseBody keyRoutesFields keyRoutesSchema body)
  let routeIds := textList data "routeIds"
  let folderIds := textList data "folderIds"
  onStore (requireShareable u routeIds folderIds)
  onKeys (setApiKeyRoutes keyId routeId routeIds folderIds)

/-- `DELETE /:routeId/api-keys/:keyId/share`. -/
def deleteKeyShare (u : Caller) (routeId keyId : String) : KeyHandler KeyAnswer := do
  onStore (authorize u [.ADMIN, .OPERATOR])
  onStore (requireRouteManage u routeId)
  onKeys (detachApiKeyFromRoute keyId routeId)

/-- `DELETE /:routeId/api-keys/:keyId`. -/
def deleteKey (u : Caller) (routeId keyId : String) : KeyHandler KeyAnswer := do
  onStore (authorize u [.ADMIN])
  onStore (requireRouteManage u routeId)
  onKeys (deleteApiKey keyId routeId)

inductive KeyOp
  | create (routeId : String) (d : KeyDraw) (body : Json)
  | revoke (routeId keyId : String)
  | setRoutes (routeId keyId : String) (body : Json)
  | detach (routeId keyId : String)
  | delete (routeId keyId : String)

inductive KeyReply
  | created (key : CreatedKey)
  | changed (answer : KeyAnswer)

def KeyOp.perform (u : Caller) : KeyOp → KeyHandler KeyReply
  | .create routeId d body => KeyReply.created <$> postApiKey W instant u d routeId body
  | .revoke routeId keyId => KeyReply.changed <$> postRevoke u routeId keyId
  | .setRoutes routeId keyId body => KeyReply.changed <$> putKeyRoutes u routeId keyId body
  | .detach routeId keyId => KeyReply.changed <$> deleteKeyShare u routeId keyId
  | .delete routeId keyId => KeyReply.changed <$> deleteKey u routeId keyId

end Router

/-! ## What a request does to the keys -/

section Rules

variable {α β : Type} {g : KeyRing}

theorem wp_onStore {x : Handler α} {Q : α → KeyRing → Prop} {E : Err → KeyRing → Prop} :
    wp (onStore x) Q E g ↔
      wp x (fun a s => Q a { g with store := s }) (fun e s => E e { g with store := s }) g.store := wp_zoom

theorem wp_onKeys {x : Async KeyStore Err α} {Q : α → KeyRing → Prop} {E : Err → KeyRing → Prop} :
    wp (onKeys x) Q E g ↔
      wp x.run (fun a s => Q a { g with apiKeys := s.db.apiKeys }) (fun e s => E e { g with apiKeys := s.db.apiKeys })
        ⟨0, g.db, .empty⟩ := by
  unfold wp onKeys
  dsimp only
  rcases x.run ⟨0, g.db, .empty⟩ with ⟨_ | _, _⟩ <;> rfl

end Rules

/-- Every route and every folder is the caller's to manage. -/
structure Shareable (s : Store) (u : Caller) (routeIds folderIds : List String) : Prop where
  routes : ∀ r ∈ routeIds, canManageRoute s u r = true
  folders : ∀ f ∈ folderIds, canManageFolder s u f = true

theorem wp_requireShareable {s : Store} {u : Caller} {routeIds folderIds : List String} {Q : Unit → Store → Prop}
    {E : Err → Store → Prop} (hQ : Shareable s u routeIds folderIds → Q () s) (hE : ∀ e, E e s) :
    wp (requireShareable u routeIds folderIds) Q E s := by
  simp only [requireShareable, wp_bind, wp_read, wp_require]
  refine ⟨fun hroutes => ⟨fun hfolders => hQ ⟨fun r hr => ?_, fun f hf => ?_⟩, fun _ => hE _⟩, fun _ => hE _⟩
  · rcases hroutes with rfl | hall
    · exact (List.not_mem_nil hr).elim
    · exact List.all_eq_true.1 hall r (mem_dedupe.2 hr)
  · rcases hfolders with rfl | hall
    · exact (List.not_mem_nil hf).elim
    · exact List.all_eq_true.1 hall f (mem_dedupe.2 hf)

/-! ### The steps of a call that cannot fail -/

section Steps

variable {s : KeyStore} {E : Err → KeyStore → Prop}

theorem wp_findLive (routeId : String) {Q : Bool → KeyStore → Prop} :
    wp (KeyStore.findLive routeId) Q E s ↔ Q ((s.db.routes.get? routeId).any fun r => !r.deleted) s := Iff.rfl

theorem wp_countRoutes (ids : List String) {Q : Nat → KeyStore → Prop} :
    wp (KeyStore.countRoutes ids) Q E s ↔ Q (ids.countP fun id => (s.db.routes.get? id).any fun r => !r.deleted) s := Iff.rfl

theorem wp_countFolders (ids : List String) {Q : Nat → KeyStore → Prop} :
    wp (KeyStore.countFolders ids) Q E s ↔ Q (ids.countP fun id => s.db.routeFolders.contains id) s := Iff.rfl

theorem wp_findUnique (keyId : String) {Q : Option ApiKey → KeyStore → Prop} :
    wp (KeyStore.findUnique keyId) Q E s ↔ Q (s.db.apiKeys.get? keyId) s := Iff.rfl

theorem wp_invalidateCache {Q : Unit → KeyStore → Prop} :
    wp KeyStore.invalidateCache Q E s ↔ Q () { s with validCache := .empty } := Iff.rfl

theorem wp_deleteShare (keyId routeId : String) {Q : Nat → KeyStore → Prop} :
    wp (KeyStore.deleteShare keyId routeId) Q E s ↔
      Q (((s.db.apiKeys.get? keyId).map fun k => k.sharedRoutes.count routeId).getD 0)
        { s with db := { s.db with apiKeys := s.db.apiKeys.modify keyId fun k =>
            { k with sharedRoutes := k.sharedRoutes.filter fun r => r ≠ routeId } } } := Iff.rfl

end Steps

/-! ### The service's calls -/

section Service

variable {s : KeyStore} {keyId routeId : String}

theorem createApiKey_spec {W : World} {d : KeyDraw} {name : String} {expiresAt : Option Nat} {scope : ApiKeyScope}
    {routeIds folderIds : List String} :
    wp (createApiKey W d routeId name expiresAt scope routeIds folderIds).run
      (fun c s' => c.id = d.id ∧ c.key = "cgk_" ++ d.random ∧
        c.row = ⟨routeId, W.sha256 c.key, true, scope, expiresAt, routeIds.eraseDups.filter fun id => id ≠ routeId,
          folderIds.eraseDups⟩ ∧
        s.db.apiKeys.get? d.id = none ∧ (∀ id k, s.db.apiKeys.get? id = some k → k.keyHash ≠ c.row.keyHash) ∧
        s'.db.apiKeys = s.db.apiKeys.insert d.id c.row)
      (fun _ s' => s'.db.apiKeys = s.db.apiKeys) s := by
  simp only [createApiKey, Async.run_bind, Async.run_await, Async.run_require, Async.run_pure, wp_findLive,
    wp_countRoutes, wp_countFolders, wp_bind, wp_require]
  refine ⟨fun _ => ⟨fun _ => ⟨fun _ => ?_, fun _ => trivial⟩, fun _ => trivial⟩, fun _ => trivial⟩
  unfold wp KeyStore.create
  split_ifs with htaken hrefs
  · rfl
  · obtain ⟨hid, hhash⟩ := not_or.1 htaken
    refine ⟨rfl, rfl, rfl, Option.not_isSome_iff_eq_none.1 hid, fun id k hk => ?_, rfl⟩
    exact of_decide_eq_false (Table.any_eq_false.1 (Bool.eq_false_iff.2 hhash) id k hk)
  · rfl

theorem owned {apiKey : Option ApiKey} (h : owns routeId apiKey = true) : ∃ k, apiKey = some k ∧ k.routeId = routeId := by
  obtain ⟨k, rfl, hk⟩ := (Option.any_eq_true _ _).1 h
  exact ⟨k, rfl, of_decide_eq_true hk⟩

theorem revokeApiKey_spec :
    wp (revokeApiKey keyId routeId).run
      (fun _ s' => ∃ k, s.db.apiKeys.get? keyId = some k ∧ k.routeId = routeId ∧
        s'.db.apiKeys = s.db.apiKeys.modify keyId fun k => { k with isActive := false })
      (fun _ s' => s'.db.apiKeys = s.db.apiKeys) s := by
  simp only [revokeApiKey, Async.run_bind, Async.run_await, Async.run_require, Async.run_pure, wp_findUnique, wp_invalidateCache,
    wp_bind, wp_require]
  refine ⟨fun hown => ?_, fun _ => trivial⟩
  obtain ⟨k, hk, hroute⟩ := owned hown
  show wp (KeyStore.update keyId fun k => { k with isActive := false }) _ _ _
  unfold wp KeyStore.update
  dsimp only at hk ⊢
  rw [hk]
  exact ⟨k, rfl, hroute, rfl⟩

theorem deleteApiKey_spec :
    wp (deleteApiKey keyId routeId).run
      (fun _ s' => ∃ k, s.db.apiKeys.get? keyId = some k ∧ k.routeId = routeId ∧ s'.db.apiKeys = s.db.apiKeys.erase keyId)
      (fun _ s' => s'.db.apiKeys = s.db.apiKeys) s := by
  simp only [deleteApiKey, Async.run_bind, Async.run_await, Async.run_require, Async.run_pure, wp_findUnique, wp_invalidateCache,
    wp_bind, wp_require]
  refine ⟨fun hown => ?_, fun _ => trivial⟩
  obtain ⟨k, hk, hroute⟩ := owned hown
  show wp (KeyStore.delete keyId) _ _ _
  unfold wp KeyStore.delete
  dsimp only at hk ⊢
  rw [hk]
  exact ⟨k, rfl, hroute, rfl⟩

theorem setApiKeyRoutes_spec {routeIds folderIds : List String} :
    wp (setApiKeyRoutes keyId routeId routeIds folderIds).run
      (fun _ s' => ∃ k, s.db.apiKeys.get? keyId = some k ∧ k.routeId = routeId ∧
        s'.db.apiKeys = s.db.apiKeys.modify keyId fun k =>
          { k with sharedRoutes := routeIds.eraseDups.filter fun id => id ≠ routeId, sharedFolders := folderIds.eraseDups })
      (fun _ s' => s'.db.apiKeys = s.db.apiKeys) s := by
  simp only [setApiKeyRoutes, Async.run_bind, Async.run_await, Async.run_require, Async.run_pure, wp_findUnique, wp_countRoutes,
    wp_countFolders, wp_bind, wp_require]
  refine ⟨fun hown => ⟨fun _ => ⟨fun _ => ?_, fun _ => trivial⟩, fun _ => trivial⟩, fun _ => trivial⟩
  obtain ⟨k, hk, hroute⟩ := owned hown
  unfold wp KeyStore.replaceShares
  split_ifs with hrefs
  · exact ⟨k, hk, hroute, rfl⟩
  · rfl

/-- Where there is nothing to detach the keys are as they were. -/
theorem detachApiKeyFromRoute_spec :
    wp (detachApiKeyFromRoute keyId routeId).run
      (fun _ s' => (∃ k, s.db.apiKeys.get? keyId = some k ∧ routeId ∈ k.sharedRoutes) ∧
        s'.db.apiKeys = s.db.apiKeys.modify keyId fun k =>
          { k with sharedRoutes := k.sharedRoutes.filter fun r => r ≠ routeId })
      (fun _ s' => ∀ id, s'.db.apiKeys.get? id = s.db.apiKeys.get? id) s := by
  simp only [detachApiKeyFromRoute, Async.run_bind, Async.run_await, Async.run_require, Async.run_pure, wp_deleteShare,
    wp_invalidateCache, wp_bind, wp_require, wp_pure]
  constructor
  · intro hcount
    refine ⟨?_, trivial⟩
    cases hk : s.db.apiKeys.get? keyId with
    | none =>
      rw [hk] at hcount
      exact (hcount rfl).elim
    | some k =>
      rw [hk] at hcount
      exact ⟨k, rfl, List.count_pos_iff.1 (Nat.pos_of_ne_zero hcount)⟩
  · intro hcount id
    show (s.db.apiKeys.modify keyId _).get? id = _
    rw [Table.get?_modify]
    split_ifs with hid
    · subst hid
      cases hk : s.db.apiKeys.get? id with
      | none => rfl
      | some k =>
        rw [hk] at hcount
        have habsent : routeId ∉ k.sharedRoutes := List.count_eq_zero.1 (not_not.1 hcount)
        have hfilter : (k.sharedRoutes.filter fun r => r ≠ routeId) = k.sharedRoutes :=
          List.filter_eq_self.2 fun r hr => decide_eq_true fun heq => habsent (heq ▸ hr)
        rw [Option.map_some, hfilter]
    · rfl

end Service

/-! ### The endpoints -/

/-- What a request that is answered has done to the keys, and what its caller may do. -/
inductive KeyEffect (W : World) (instant : String → Option Nat) (g : KeyRing) (u : Caller) :
    KeyOp → KeyReply → Table String ApiKey → Prop
  | created {routeId : String} {d : KeyDraw} {body : Json} {data : String → Option Json} {c : CreatedKey}
      (hmay : MayWrite g.store u routeId) (hdata : parsed createKeyFields (createKeySchema instant) body = .ok data)
      (hshare : Shareable g.store u (textList data "routeIds") (textList data "folderIds"))
      (hid : c.id = d.id) (hkey : c.key = "cgk_" ++ d.random)
      (hrow : c.row = ⟨routeId, W.sha256 c.key, true, keyScope data, (textField? data "expiresAt").bind instant,
        (textList data "routeIds").eraseDups.filter fun id => id ≠ routeId, (textList data "folderIds").eraseDups⟩)
      (hnew : g.apiKeys.get? d.id = none) (hhash : ∀ id k, g.apiKeys.get? id = some k → k.keyHash ≠ c.row.keyHash) :
      KeyEffect W instant g u (.create routeId d body) (.created c) (g.apiKeys.insert d.id c.row)
  | revoked {routeId keyId : String} {a : KeyAnswer} {k : ApiKey} (hadmin : u.role = .ADMIN)
      (hk : g.apiKeys.get? keyId = some k) (howner : k.routeId = routeId) :
      KeyEffect W instant g u (.revoke routeId keyId) (.changed a) (g.apiKeys.modify keyId fun k => { k with isActive := false })
  | shared {routeId keyId : String} {body : Json} {data : String → Option Json} {a : KeyAnswer} {k : ApiKey}
      (hmay : MayWrite g.store u routeId) (hdata : parsed keyRoutesFields keyRoutesSchema body = .ok data)
      (hshare : Shareable g.store u (textList data "routeIds") (textList data "folderIds"))
      (hk : g.apiKeys.get? keyId = some k) (howner : k.routeId = routeId) :
      KeyEffect W instant g u (.setRoutes routeId keyId body) (.changed a) (g.apiKeys.modify keyId fun k =>
        { k with
          sharedRoutes := (textList data "routeIds").eraseDups.filter fun id => id ≠ routeId
          sharedFolders := (textList data "folderIds").eraseDups })
  | detached {routeId keyId : String} {a : KeyAnswer} {k : ApiKey} (hmay : MayWrite g.store u routeId)
      (hk : g.apiKeys.get? keyId = some k) (hin : routeId ∈ k.sharedRoutes) :
      KeyEffect W instant g u (.detach routeId keyId) (.changed a) (g.apiKeys.modify keyId fun k =>
        { k with sharedRoutes := k.sharedRoutes.filter fun r => r ≠ routeId })
  | deleted {routeId keyId : String} {a : KeyAnswer} {k : ApiKey} (hadmin : u.role = .ADMIN)
      (hk : g.apiKeys.get? keyId = some k) (howner : k.routeId = routeId) :
      KeyEffect W instant g u (.delete routeId keyId) (.changed a) (g.apiKeys.erase keyId)

/-- The keys are as they were. -/
def SameKeys (g g' : KeyRing) : Prop := g'.store = g.store ∧ ∀ id, g'.apiKeys.get? id = g.apiKeys.get? id

section Perform

variable {W : World} {instant : String → Option Nat} {g : KeyRing} {u : Caller}

theorem SameKeys.of_eq {t : Table String ApiKey} (h : t = g.apiKeys) : SameKeys g { g with apiKeys := t } :=
  ⟨rfl, fun id => by rw [h]⟩

theorem KeyOp.perform_spec (op : KeyOp) :
    wp (op.perform W instant u) (fun r g' => g'.store = g.store ∧ KeyEffect W instant g u op r g'.apiKeys)
      (fun _ g' => SameKeys g g') g := by
  have hsame : SameKeys g g := ⟨rfl, fun _ => rfl⟩
  cases op with
  | create routeId d body =>
    simp only [KeyOp.perform, wp_map, postApiKey, authorize, requireRouteManage, parseBody, wp_bind, wp_onStore, wp_require,
      wp_read, wp_ofExcept]
    refine ⟨fun hrole => ⟨fun hmanage => ⟨fun data hdata => ?_, fun _ _ => hsame⟩, fun _ => hsame⟩, fun _ => hsame⟩
    refine wp_requireShareable (fun hshare => ?_) fun _ => hsame
    refine wp_onKeys.2 (wp_mono createApiKey_spec (fun c s' h => ?_) fun _ s' h => .of_eq h)
    obtain ⟨hid, hkey, hrow, hnew, hhash, hkeys⟩ := h
    rw [hkeys]
    exact ⟨rfl, .created ⟨hrole, hmanage⟩ hdata hshare hid hkey hrow hnew hhash⟩
  | revoke routeId keyId =>
    simp only [KeyOp.perform, wp_map, postRevoke, authorize, requireRouteManage, wp_bind, wp_onStore, wp_require, wp_read]
    refine ⟨fun hrole => ⟨fun hmanage => ?_, fun _ => hsame⟩, fun _ => hsame⟩
    refine wp_onKeys.2 (wp_mono revokeApiKey_spec (fun a s' h => ?_) fun _ s' h => .of_eq h)
    obtain ⟨k, hk, howner, hkeys⟩ := h
    rw [hkeys]
    exact ⟨rfl, .revoked (List.mem_singleton.1 hrole) hk howner⟩
  | setRoutes routeId keyId body =>
    simp only [KeyOp.perform, wp_map, putKeyRoutes, authorize, requireRouteManage, parseBody, wp_bind, wp_onStore, wp_require,
      wp_read, wp_ofExcept]
    refine ⟨fun hrole => ⟨fun hmanage => ⟨fun data hdata => ?_, fun _ _ => hsame⟩, fun _ => hsame⟩, fun _ => hsame⟩
    refine wp_requireShareable (fun hshare => ?_) fun _ => hsame
    refine wp_onKeys.2 (wp_mono setApiKeyRoutes_spec (fun a s' h => ?_) fun _ s' h => .of_eq h)
    obtain ⟨k, hk, howner, hkeys⟩ := h
    rw [hkeys]
    exact ⟨rfl, .shared ⟨hrole, hmanage⟩ hdata hshare hk howner⟩
  | detach routeId keyId =>
    simp only [KeyOp.perform, wp_map, deleteKeyShare, authorize, requireRouteManage, wp_bind, wp_onStore, wp_require, wp_read]
    refine ⟨fun hrole => ⟨fun hmanage => ?_, fun _ => hsame⟩, fun _ => hsame⟩
    refine wp_onKeys.2 (wp_mono detachApiKeyFromRoute_spec (fun a s' h => ?_) fun _ s' h => ⟨rfl, h⟩)
    obtain ⟨⟨k, hk, hin⟩, hkeys⟩ := h
    rw [hkeys]
    exact ⟨rfl, .detached ⟨hrole, hmanage⟩ hk hin⟩
  | delete routeId keyId =>
    simp only [KeyOp.perform, wp_map, deleteKey, authorize, requireRouteManage, wp_bind, wp_onStore, wp_require, wp_read]
    refine ⟨fun hrole => ⟨fun hmanage => ?_, fun _ => hsame⟩, fun _ => hsame⟩
    refine wp_onKeys.2 (wp_mono deleteApiKey_spec (fun a s' h => ?_) fun _ s' h => .of_eq h)
    obtain ⟨k, hk, howner, hkeys⟩ := h
    rw [hkeys]
    exact ⟨rfl, .deleted (List.mem_singleton.1 hrole) hk howner⟩

end Perform

end ClusterGate
