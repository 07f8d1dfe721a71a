/-
  ClusterGate.Route.Lifecycle — what else the route service does to routes
  (`services/routeService.ts`): publish and deactivate, archive and restore, delete for
  good, duplicate, and the bulk operations.

  An archived route keeps its row; its path and slug are mangled with its id so that
  others may take them, and unmangled when it comes back.
-/

import ClusterGate.Route.Service

namespace ClusterGate

open Lib Lib.Act

/-! ## Archive names -/

def mangleText (value id : String) : String :=
  if Text.includes value ARCHIVE_TAG then value else value ++ ARCHIVE_TAG ++ id

/-- `mangleForArchive`: null stays, and so does what is mangled already. -/
def mangleForArchive (value : Json) (id : String) : Json :=
  match value with
  | .str s => .str (mangleText s id)
  | v => v

def unmangleText (value id : String) : String :=
  match Text.indexOf value (ARCHIVE_TAG ++ id) with
  | some i => String.ofList (value.toList.take i)
  | none => value

/-- `unmangleArchive`. -/
def unmangleArchive (value : Json) (id : String) : Json :=
  match value with
  | .str s => .str (unmangleText s id)
  | v => v

/-! ## One route -/

/-- A live row, or `Route not found`. -/
def findLive (id : String) : Handler Row := do
  let s ← read
  orThrow (liveRoute? s id) (.notFound "Route")

/-- `findFirst({ where: { id, deletedAt: { not: null } } })`. -/
def archivedRoute? (s : Store) (id : String) : Option Row := (s.routes.get? id).filter fun r => !r.live

def findArchived (id : String) : Handler Row := do
  let s ← read
  orThrow (archivedRoute? s id) (.notFound "Archived route")

def publishData (userId : String) : Patch := Patch.ofList
  [(.status, .str "PUBLISHED"), (.isActive, .bool true), (.updatedById, .str userId)]

def publishRoute (now id userId : String) : Handler Row := do
  let _ ← findLive id
  routeUpdate now id (publishData userId)

def deactivateData (userId : String) : Patch := Patch.ofList [(.isActive, .bool false), (.updatedById, .str userId)]

def deactivateRoute (now id userId : String) : Handler Row := do
  let _ ← findLive id
  routeUpdate now id (deactivateData userId)

/-- What archiving a route writes. -/
def archiveData (now id : String) (r : Row) : Patch := Patch.ofList
  [(.deletedAt, .str now), (.isActive, .bool false), (.publicPath, mangleForArchive (r.val .publicPath) id),
   (.slug, mangleForArchive (r.val .slug) id)]

/-- `deleteRoute`: an active route is not deleted, a protected one only by its name. -/
def deleteRoute (now id : String) (confirmName : Option String) : Handler Unit := do
  let route ← findLive id
  require (¬ route.flag .isActive) (.badRequest "Deactivate this route before deleting it")
  require (¬ (route.flag .protected_ ∧ confirmName.map Json.str ≠ some (route.val .name)))
    (.badRequest "This route is protected — confirm the exact route name to delete it")
  let _ ← routeUpdate now id (archiveData now id route)

/-- Another live route has the value. -/
def liveClash (s : Store) (id : String) (c : Column) (v : Json) : Bool :=
  s.routes.any fun k r => k ≠ id && r.live && r.val c = v

/-- A path or slug that is taken comes back under a suffix. -/
def restoredText (s : Store) (id : String) (c : Column) (v : Json) : Json :=
  match v with
  | .str t =>
    if liveClash s id c (.str t) then .str (t ++ "-restored-" ++ String.ofList (id.toList.rtake 5)) else .str t
  | v => v

/-- What restoring a route writes; an empty slug is not looked for. -/
def restoreData (s : Store) (id userId : String) (r : Row) : Patch :=
  let path := unmangleArchive (r.val .publicPath) id
  let slug := unmangleArchive (r.val .slug) id
  Patch.ofList
    [(.deletedAt, .null), (.isActive, .bool false), (.status, .str "DRAFT"),
     (.publicPath, restoredText s id .publicPath path),
     (.slug, if slug.truthy then restoredText s id .slug slug else slug),
     (.updatedById, .str userId)]

def restoreRoute (now id userId : String) : Handler Row := do
  let route ← findArchived id
  let s ← read
  routeUpdate now id (restoreData s id userId route)

def permanentlyDeleteRoute (id : String) : Handler Unit := do
  let _ ← findArchived id
  routeDelete id

/-! ## Duplicates -/

/-- The search for a path no live route has; after the last round the path is taken as it is. -/
def copyPath (clash : String → Bool) (base : String) : (rounds attempts : Nat) → (path : String) → String
  | 0, _, path => path
  | rounds + 1, attempts, path =>
    if clash path then copyPath clash base rounds (attempts + 1) (base ++ "-copy-" ++ toString (attempts + 1))
    else path

/-- The columns a duplicate does not take over. -/
def NOT_COPIED : List Column := [.createdAt, .updatedAt, .deletedAt, .version, .createdById, .updatedById]

def duplicateData (s : Store) (userId : String) (r : Row) : Patch :=
  let base := (r.text .publicPath).getD ""
  let clash := fun p => s.routes.any fun _ r => r.live && r.val .publicPath = .str p
  (Patch.remove (fun c => some (r.val c)) NOT_COPIED).merge (Patch.ofList
    [(.name, .str ((r.text .name).getD "" ++ " (Copy)")), (.publicPath, .str (copyPath clash base 10 0 (base ++ "-copy"))),
     (.status, .str "DRAFT"), (.isActive, .bool false), (.version, .num 1),
     (.createdById, .str userId), (.updatedById, .str userId)])

/-- `duplicateRoute`: no version is stored of the new route. -/
def duplicateRoute (now newId id userId : String) : Handler Row := do
  let route ← findLive id
  let s ← read
  routeCreate now newId (duplicateData s userId route)

/-! ## Many routes -/

/-- `{ id: { in: ids }, deletedAt: null }`. -/
def liveAmong (ids : List String) (id : String) (r : Row) : Bool := ids.contains id && r.live

def bulkPublish (now : String) (ids : List String) (userId : String) : Handler Nat :=
  routeUpdateMany now (liveAmong ids) (publishData userId)

def bulkDeactivate (now : String) (ids : List String) (userId : String) : Handler Nat :=
  routeUpdateMany now (liveAmong ids) (deactivateData userId)

structure BulkPatch where
  environment : Option Json
  /-- Null takes the routes out of their group. -/
  routeGroupId : Option Json
  addTags : List String

def bulkBase (patch : BulkPatch) (userId : String) : Patch := fun c => match c with
  | .updatedById => some (.str userId)
  | .environment => patch.environment.filter Json.truthy
  | .routeGroupId => patch.routeGroupId
  | _ => none

def cleanTags (patch : BulkPatch) : List String := (patch.addTags.map Text.trim).filter (· ≠ "")

/-- A route's tags with more of them appended. -/
def withTags (r : Row) (tags : List String) : Json :=
  match r.val .tags with
  | .arr old => .arr (dedupe (old ++ tags.map .str))
  | v => v

/-- What the bulk update writes to a row. -/
def bulkData (patch : BulkPatch) (userId : String) (r : Row) : Patch :=
  if cleanTags patch = [] then bulkBase patch userId
  else (bulkBase patch userId).set .tags (withTags r (cleanTags patch))

/-- `bulkUpdate`: without tags one write of all rows, with tags a transaction of one
    write a row. -/
def bulkUpdate (now : String) (ids : List String) (patch : BulkPatch) (userId : String) : Handler Nat :=
  if cleanTags patch = [] then routeUpdateMany now (liveAmong ids) (bulkBase patch userId)
  else do
    let s ← read
    let routes := (s.routes.filter (liveAmong ids)).rows
    atomic (routes.forM fun r => do
      let _ ← routeUpdate now r.1 (bulkData patch userId r.2))
    pure routes.length

/-- What the bulk delete writes: the slug stays. -/
def bulkArchiveData (now id : String) (r : Row) : Patch := Patch.ofList
  [(.deletedAt, .str now), (.isActive, .bool false),
   (.publicPath, .str ((r.text .publicPath).getD "" ++ "__deleted_" ++ id))]

def bulkDelete (now : String) (ids : List String) : Handler Nat := do
  let s ← read
  let routes := (s.routes.filter (liveAmong ids)).rows
  atomic (routes.forM fun r => do
    let _ ← routeUpdate now r.1 (bulkArchiveData now r.1 r.2))
  pure routes.length

end ClusterGate
