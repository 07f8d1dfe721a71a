/-
  ClusterGate.Keys.Service — managed API keys on one replica
  (`services/apiKeyService.ts`: `verifyApiKey` and the withdrawals of a key).

  A verification looks into the replica's cache, or asks the database and keeps a positive
  answer for at most thirty seconds. A withdrawal writes the database and clears the cache,
  in the order the source has it: `revokeApiKey` and `deleteApiKey` clear first and write
  then. Each `await` is one step, each turn between two awaits that reads the clock or the
  cache is one. The batched usage counters and the epoch for the other replicas are left
  out.
  - `Verifying`: the states a verification can have taken its steps in, and so what is left
    of it.
  - `verify_step`: it changes nothing until it has read an answer, which it then keeps.
-/

import ClusterGate.Lib.Async
import ClusterGate.Proxy.Admission

namespace ClusterGate

open Lib Async

/-! ## The database and the cache -/

/-- What a route's row says of its folder, and whether it is archived. -/
structure RouteRef where
  folderId : Option String
  deleted : Bool
  deriving DecidableEq

/-- The keys with their shares and bindings, the routes and the folders. -/
structure KeyDb where
  apiKeys : Table String ApiKey
  routes : Table String RouteRef
  routeFolders : List String

structure CachedKey where
  id : String
  scope : ApiKeyScope
  cacheUntil : Nat
  deriving DecidableEq

structure KeyStore where
  now : Nat
  db : KeyDb
  validCache : Table String CachedKey

def POSITIVE_TTL_MS : Nat := 30000

def KeyDb.folderOf (db : KeyDb) (routeId : String) : Option String := (db.routes.get? routeId).bind RouteRef.folderId

/-- The condition of `verifyApiKey`'s query, but for the expiry. -/
def KeyDb.grants (db : KeyDb) (keyHash routeId : String) (k : ApiKey) : Bool :=
  k.keyHash = keyHash && k.isActive && k.covers routeId (db.folderOf routeId)

def cacheKey (keyHash routeId : String) : String := routeId ++ ":" ++ keyHash

namespace KeyStore

/-- The entry of the cache, if it is still good. -/
def good (s : KeyStore) (cacheKey : String) : Option CachedKey :=
  (s.validCache.get? cacheKey).filter fun cached => s.now < cached.cacheUntil

/-- The key the query finds, with the clock reading of its condition. -/
def found (s : KeyStore) (keyHash routeId : String) (date : Nat) : Option (String × ApiKey) :=
  s.db.apiKeys.find? fun _ k => s.db.grants keyHash routeId k && k.unexpired date

/-- `Date.now()`, and the look into the cache. -/
def lookup (cacheKey : String) : Act KeyStore Err (Nat × Option CachedKey) := fun s => (.ok (s.now, s.good cacheKey), s)

/-- `new Date()` -/
def clock : Act KeyStore Err Nat := fun s => (.ok s.now, s)

/-- `apiKey.findFirst` -/
def findFirst (keyHash routeId : String) (date : Nat) : Act KeyStore Err (Option (String × ApiKey)) := fun s =>
  (.ok (s.found keyHash routeId date), s)

/-- How long an answer is kept. -/
def ttl (k : ApiKey) (now : Nat) : Int :=
  match k.expiresAt with
  | none => POSITIVE_TTL_MS
  | some t => min (POSITIVE_TTL_MS : Int) (t - now)

def remember (cacheKey id : String) (k : ApiKey) (now : Nat) : Act KeyStore Err Unit := fun s =>
  (.ok (), if ttl k now > 0 then
      { s with validCache := s.validCache.upsert cacheKey ⟨id, k.scope, (now + ttl k now).toNat⟩ }
    else s)

def invalidateCache : Act KeyStore Err Unit := fun s => (.ok (), { s with validCache := .empty })

def findUnique (keyId : String) : Act KeyStore Err (Option ApiKey) := fun s => (.ok (s.db.apiKeys.get? keyId), s)

/-- `apiKey.update` -/
def update (keyId : String) (data : ApiKey → ApiKey) : Act KeyStore Err ApiKey := fun s =>
  match s.db.apiKeys.get? keyId with
  | none => (.error (.prisma "P2025"), s)
  | some k => (.ok (data k), { s with db := { s.db with apiKeys := s.db.apiKeys.modify keyId data } })

/-- `apiKey.delete` -/
def delete (keyId : String) : Act KeyStore Err ApiKey := fun s =>
  match s.db.apiKeys.get? keyId with
  | none => (.error (.prisma "P2025"), s)
  | some k => (.ok k, { s with db := { s.db with apiKeys := s.db.apiKeys.erase keyId } })

/-- `apiKeyRoute.deleteMany`, and how many it deletes. -/
def deleteShare (keyId routeId : String) : Act KeyStore Err Nat := fun s =>
  (.ok (((s.db.apiKeys.get? keyId).map fun k => k.sharedRoutes.count routeId).getD 0),
    { s with db := { s.db with apiKeys := s.db.apiKeys.modify keyId fun k =>
        { k with sharedRoutes := k.sharedRoutes.filter fun r => r ≠ routeId } } })

/-- `route.count`, of routes that are not archived. -/
def countRoutes (ids : List String) : Act KeyStore Err Nat := fun s =>
  (.ok (ids.countP fun id => (s.db.routes.get? id).any fun r => !r.deleted), s)

/-- `routeFolder.count` -/
def countFolders (ids : List String) : Act KeyStore Err Nat := fun s =>
  (.ok (ids.countP fun id => s.db.routeFolders.contains id), s)

/-- The transaction of `setApiKeyRoutes`. -/
def replaceShares (keyId : String) (targetIds folderIds : List String) : Act KeyStore Err Unit := fun s =>
  if (∀ id ∈ targetIds, (s.db.routes.get? id).isSome = true) ∧ (∀ id ∈ folderIds, id ∈ s.db.routeFolders) ∧
      ((s.db.apiKeys.get? keyId).isSome = true ∨ (targetIds = [] ∧ folderIds = [])) then
    (.ok (), { s with db := { s.db with apiKeys := s.db.apiKeys.modify keyId fun k =>
      { k with sharedRoutes := targetIds, sharedFolders := folderIds } } })
  else (.error (.prisma "P2003"), s)

def sharesOf (keyId : String) : Act KeyStore Err (List String × List String) := fun s =>
  (.ok (((s.db.apiKeys.get? keyId).map fun k => (k.sharedRoutes, k.sharedFolders)).getD ([], [])), s)

/-- Time passes. -/
def wait (d : Nat) (s : KeyStore) : KeyStore := { s with now := s.now + d }

end KeyStore

open KeyStore

/-! ## The service -/

/-- What a call returns. -/
inductive KeyAnswer
  | verified (result : Option (String × ApiKeyScope))
  | apiKey (k : ApiKey)
  | shares (routes folders : List String)
  | detached
  deriving DecidableEq

/-- `verifyApiKey`, from the row it found on. -/
def verifyFound (ck : String) (now : Nat) : Option (String × ApiKey) → Async KeyStore Err KeyAnswer
  | none => pure (.verified none)
  | some (id, k) => do
    await (remember ck id k now)
    pure (.verified (some (id, k.scope)))

/-- `verifyApiKey`, from its look into the cache on. -/
def verifyLooked (keyHash routeId : String) : Nat × Option CachedKey → Async KeyStore Err KeyAnswer
  | (_, some cached) => pure (.verified (some (cached.id, cached.scope)))
  | (now, none) => do
    let date ← await clock
    let apiKey ← await (findFirst keyHash routeId date)
    verifyFound (cacheKey keyHash routeId) now apiKey

def verifyKey (keyHash routeId : String) : Async KeyStore Err KeyAnswer := do
  let looked ← await (lookup (cacheKey keyHash routeId))
  verifyLooked keyHash routeId looked

def owns (routeId : String) (apiKey : Option ApiKey) : Bool := apiKey.any fun k => k.routeId = routeId

def revokeApiKey (keyId routeId : String) : Async KeyStore Err KeyAnswer := do
  let apiKey ← await (findUnique keyId)
  require (owns routeId apiKey = true) (.notFound "API Key")
  await invalidateCache
  let k ← await (update keyId fun k => { k with isActive := false })
  pure (.apiKey k)

def deleteApiKey (keyId routeId : String) : Async KeyStore Err KeyAnswer := do
  let apiKey ← await (findUnique keyId)
  require (owns routeId apiKey = true) (.notFound "API Key")
  await invalidateCache
  let k ← await (delete keyId)
  pure (.apiKey k)

def detachApiKeyFromRoute (keyId routeId : String) : Async KeyStore Err KeyAnswer := do
  let count ← await (deleteShare keyId routeId)
  require (count ≠ 0) (.notFound "Shared API Key")
  await invalidateCache
  pure .detached

/-- `setApiKeyRoutes`. With nothing to count a count is a turn that does nothing. -/
def setApiKeyRoutes (keyId ownerRouteId : String) (routeIds folderIds : List String) : Async KeyStore Err KeyAnswer := do
  let apiKey ← await (findUnique keyId)
  require (owns ownerRouteId apiKey = true) (.notFound "API Key")
  let targetIds := routeIds.eraseDups.filter fun id => id ≠ ownerRouteId
  let foundRoutes ← await (countRoutes targetIds)
  require (foundRoutes = targetIds.length) (.badRequest "One or more routes do not exist")
  let folderTargetIds := folderIds.eraseDups
  let foundFolders ← await (countFolders folderTargetIds)
  require (foundFolders = folderTargetIds.length) (.badRequest "One or more folders do not exist")
  await (replaceShares keyId targetIds folderTargetIds)
  await invalidateCache
  let shares ← await (sharesOf keyId)
  pure (.shares shares.1 shares.2)

inductive KeyRequest
  | verify (key routeId : String)
  | revoke (keyId routeId : String)
  | delete (keyId routeId : String)
  | detach (keyId routeId : String)
  | setRoutes (keyId ownerRouteId : String) (routeIds folderIds : List String)
  deriving DecidableEq

def KeyRequest.program (W : World) : KeyRequest → Async KeyStore Err KeyAnswer
  | .verify key routeId => verifyKey (W.sha256 key) routeId
  | .revoke keyId routeId => revokeApiKey keyId routeId
  | .delete keyId routeId => deleteApiKey keyId routeId
  | .detach keyId routeId => detachApiKeyFromRoute keyId routeId
  | .setRoutes keyId ownerRouteId routeIds folderIds => setApiKeyRoutes keyId ownerRouteId routeIds folderIds

abbrev KeyCall := Call KeyRequest KeyStore

/-! ## Where a verification is -/

/-- The states in which a verification has taken its steps. -/
inductive Verifying (keyHash routeId : String) : List KeyStore → Prop
  | start : Verifying keyHash routeId []
  | served (s₀ : KeyStore) (cached : CachedKey) (h : s₀.good (cacheKey keyHash routeId) = some cached) :
      Verifying keyHash routeId [s₀]
  | missed (s₀ : KeyStore) (h : s₀.good (cacheKey keyHash routeId) = none) : Verifying keyHash routeId [s₀]
  | dated (s₀ s₁ : KeyStore) (h : s₀.good (cacheKey keyHash routeId) = none) : Verifying keyHash routeId [s₀, s₁]
  | absent (s₀ s₁ s₂ : KeyStore) (h : s₀.good (cacheKey keyHash routeId) = none)
      (hf : s₂.found keyHash routeId s₁.now = none) : Verifying keyHash routeId [s₀, s₁, s₂]
  | found (s₀ s₁ s₂ : KeyStore) (id : String) (k : ApiKey) (h : s₀.good (cacheKey keyHash routeId) = none)
      (hf : s₂.found keyHash routeId s₁.now = some (id, k)) : Verifying keyHash routeId [s₀, s₁, s₂]
  | kept (s₀ s₁ s₂ s₃ : KeyStore) (id : String) (k : ApiKey) (h : s₀.good (cacheKey keyHash routeId) = none)
      (hf : s₂.found keyHash routeId s₁.now = some (id, k)) : Verifying keyHash routeId [s₀, s₁, s₂, s₃]

section Verify

variable {keyHash routeId : String}

theorem left_served {s₀ : KeyStore} {cached : CachedKey} (h : s₀.good (cacheKey keyHash routeId) = some cached) :
    (verifyKey keyHash routeId).after [s₀] = pure (.verified (some (cached.id, cached.scope))) := by
  show verifyLooked keyHash routeId (s₀.now, s₀.good (cacheKey keyHash routeId)) = _
  rw [h]
  rfl

theorem left_missed {s₀ : KeyStore} (h : s₀.good (cacheKey keyHash routeId) = none) :
    (verifyKey keyHash routeId).after [s₀] = verifyLooked keyHash routeId (s₀.now, none) := by
  show verifyLooked keyHash routeId (s₀.now, s₀.good (cacheKey keyHash routeId)) = _
  rw [h]

theorem left_dated {s₀ : KeyStore} (h : s₀.good (cacheKey keyHash routeId) = none) (s₁ : KeyStore) :
    (verifyKey keyHash routeId).after [s₀, s₁] =
      await (findFirst keyHash routeId s₁.now) >>= verifyFound (cacheKey keyHash routeId) s₀.now := by
  show (((verifyKey keyHash routeId).after [s₀]).advance s₁).1 = _
  rw [left_missed h]
  rfl

theorem left_found {s₀ : KeyStore} (h : s₀.good (cacheKey keyHash routeId) = none) (s₁ s₂ : KeyStore) :
    (verifyKey keyHash routeId).after [s₀, s₁, s₂] =
      verifyFound (cacheKey keyHash routeId) s₀.now (s₂.found keyHash routeId s₁.now) := by
  show (((verifyKey keyHash routeId).after [s₀, s₁]).advance s₂).1 = _
  rw [left_dated h]
  rfl

theorem left_kept {s₀ s₁ s₂ : KeyStore} {id : String} {k : ApiKey} (h : s₀.good (cacheKey keyHash routeId) = none)
    (hf : s₂.found keyHash routeId s₁.now = some (id, k)) (s₃ : KeyStore) :
    (verifyKey keyHash routeId).after [s₀, s₁, s₂, s₃] = pure (.verified (some (id, k.scope))) := by
  show (((verifyKey keyHash routeId).after [s₀, s₁, s₂]).advance s₃).1 = _
  rw [left_found h, hf]
  rfl

/-- What a step of a verification does: nothing, or it keeps the answer it has read. -/
theorem verify_step {seen : List KeyStore} (hv : Verifying keyHash routeId seen)
    (hg : ((verifyKey keyHash routeId).after seen).ended = false) (s : KeyStore) :
    Verifying keyHash routeId (seen ++ [s]) ∧
      ((((verifyKey keyHash routeId).after seen).advance s).2 = s ∨
        ∃ s₀ s₁ s₂ id k, seen = [s₀, s₁, s₂] ∧ s₂.found keyHash routeId s₁.now = some (id, k) ∧
          (((verifyKey keyHash routeId).after seen).advance s).2 = (remember (cacheKey keyHash routeId) id k s₀.now s).2) := by
  cases hv with
  | start =>
    refine ⟨?_, .inl rfl⟩
    cases h : s.good (cacheKey keyHash routeId) with
    | none => exact .missed s h
    | some cached => exact .served s cached h
  | served s₀ cached h =>
    rw [left_served h] at hg
    cases hg
  | missed s₀ h =>
    rw [left_missed h]
    exact ⟨.dated s₀ s h, .inl rfl⟩
  | dated s₀ s₁ h =>
    rw [left_dated h]
    refine ⟨?_, .inl rfl⟩
    cases hf : s.found keyHash routeId s₁.now with
    | none => exact .absent s₀ s₁ s h hf
    | some found =>
      obtain ⟨id, k⟩ := found
      exact .found s₀ s₁ s id k h hf
  | absent s₀ s₁ s₂ h hf =>
    rw [left_found h, hf] at hg
    cases hg
  | found s₀ s₁ s₂ id k h hf =>
    refine ⟨.kept s₀ s₁ s₂ s id k h hf, .inr ⟨s₀, s₁, s₂, id, k, rfl, hf, ?_⟩⟩
    rw [left_found h, hf]
    rfl
  | kept s₀ s₁ s₂ s₃ id k h hf =>
    rw [left_kept h hf] at hg
    cases hg

end Verify

end ClusterGate
