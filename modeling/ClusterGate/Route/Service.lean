/-
  ClusterGate.Route.Service — creating and updating routes, and their versions
  (`services/routeService.ts`, with `lib/slug.ts`).

  The data a handler passes on is a patch. Both writers normalise the target, check it
  against the organization's policy, free the path of an archived route, check the
  rewrite rules and seal the secrets; an update also leaves a secret alone that comes as
  the mask, judges the load-balancing targets again when the route moves to another
  organization, and stores a version if anything but bookkeeping changes.
-/

import ClusterGate.Route.Access
import ClusterGate.Route.PathAllowlist
import ClusterGate.Secret

namespace ClusterGate

open Lib Lib.Act

/-! ## Slugs -/

def isSlugChar (c : Char) : Bool := ('a' ≤ c && c ≤ 'z') || ('0' ≤ c && c ≤ '9')

/-- Every run of other characters as one dash. -/
def dashRuns (inRun : Bool) : List Char → List Char
  | [] => []
  | c :: cs =>
    if isSlugChar c then c :: dashRuns false cs
    else if inRun then dashRuns true cs else '-' :: dashRuns true cs

def isCombining (c : Char) : Bool := 0x300 ≤ c.toNat && c.toNat ≤ 0x36F

/-- `slugify`: absent where nothing of the name is left. -/
def slugify (W : World) (input : String) : Option String :=
  let cs := dashRuns false ((W.foldName input).toList.filter fun c => !isCombining c)
  let cs := if cs.head? = some '-' then cs.tail else cs
  let cs := if cs.getLast? = some '-' then cs.dropLast else cs
  if cs = [] then none else some (String.ofList (cs.take 64))

/-- The search for a free slug: the loop's counter goes up twice a round. -/
def slugLoop (clash : String → Bool) (base : String) : (rounds i : Nat) → (candidate : String) → Option String
  | 0, _, _ => none
  | rounds + 1, i, candidate =>
    if clash candidate then slugLoop clash base rounds (i + 2) (base ++ "-" ++ toString (i + 1))
    else some candidate

/-- `pickRouteSlug`: counting from 1 below 100 by two is fifty rounds. -/
def pickRouteSlug (W : World) (s : Store) (name : String) (excludeId : Option String) : Option String :=
  (slugify W name).bind fun base =>
    slugLoop (fun c => s.routes.any fun k r => excludeId ≠ some k && r.val .slug = .str c) base 50 1 base

def slugJson (o : Option String) : Json := match o with
  | some s => .str s
  | none => .null

/-! ## What both writers do to the data -/

/-- A trailing wildcard, then a trailing slash, off a target. -/
def normalizeTarget (url : String) : String :=
  let url := if Text.endsWith url "/*" then Text.sliceEnd url 2 else url
  if Text.endsWith url "/" then Text.sliceEnd url 1 else url

def normalizeTargetJson : Json → Json
  | .str url => .str (normalizeTarget url)
  | v => v

def withTarget (data : Patch) : Patch := fun c => if c = .targetUrl then (data c).map normalizeTargetJson else data c

def secretColumns : List Column := [.authValue, .upstreamAuthValue, .webhookSecret]

def sealSecrets (W : World) (d : Draw) (data : Patch) : Patch := fun c =>
  if c ∈ secretColumns then (data c).map (encryptSecret W (d.nonce c)) else data c

/-- The placeholder a read shows instead of a secret. -/
def MASK : Json := .str "••••••••"

/-- A secret that comes as the mask is not written. -/
def dropMasked (data : Patch) : Patch := fun c => if c ∈ secretColumns ∧ data c = some MASK then none else data c

/-- `isSafeRegex`: what the platform accepts, up to 500 characters. -/
def isSafeRegex (W : World) (pattern : String) : Bool := W.regexAccepts pattern && Text.utf16Length pattern ≤ 500

/-- The texts of the `from` and `to` members of the rewrite rules. -/
def rewriteRulesOf (v : Json) : List (String × String) :=
  match v with
  | .arr rules => rules.map fun r =>
    ((((r.get? "from").bind Json.str?).getD ""), (((r.get? "to").bind Json.str?).getD ""))
  | _ => []

def checkRewriteRules (W : World) (rules : Option Json) : Handler Unit :=
  (rewriteRulesOf (rules.getD .null)).forM fun rule =>
    require (isSafeRegex W rule.1) (.badRequest ("Unsafe regex pattern in rewrite rule: " ++ rule.1))

def ARCHIVE_TAG : String := "__deleted_"

/-- `freeSoftDeletedPublicPath`: an archived route gives up the path. -/
def freeSoftDeletedPublicPath (now : String) (publicPath : Json) : Handler Unit := do
  let s ← read
  match s.routes.find? fun _ r => r.val .publicPath = publicPath && !r.live with
  | none => pure ()
  | some (staleId, stale) => do
    let _ ← routeUpdate now staleId (Patch.ofList
      [(.publicPath, .str (((stale.text .publicPath).getD "") ++ ARCHIVE_TAG ++ staleId))])

/-- The text a field was sent as; anything else reads as the empty text. -/
def textOf (o : Option Json) : String := (o.bind Json.str?).getD ""

/-! ## Creating -/

/-- What `createRoute` stores: target normalised, secrets sealed, slug derived. -/
def createData (W : World) (s : Store) (d : Draw) (data : Patch) (userId : String) : Patch :=
  let data := sealSecrets W d (withTarget data)
  let data := match data .name with
    | some (.str name) =>
      if ((data .slug).getD .null).truthy then data
      else data.set .slug (slugJson (pickRouteSlug W s name none))
    | _ => data
  (data.set .createdById (.str userId)).set .updatedById (.str userId)

def createRoute (W : World) (d : Draw) (data : Patch) (userId : String) : Handler Row := do
  assertRouteTargetAllowed W (textOf (withTarget data .targetUrl)) ((data .organizationId).getD .null)
  freeSoftDeletedPublicPath d.now ((data .publicPath).getD .null)
  require (Text.startsWith (textOf (data .publicPath)) "/") (.badRequest "Public path must start with /")
  checkRewriteRules W (data .rewriteRules)
  let s ← read
  let route ← routeCreate d.now d.routeId (createData W s d data userId)
  versionCreate d.versionId d.routeId (.num 1) route userId
  pure route

/-! ## Updating -/

/-- The organization a route is moved to, if the data moves it. -/
def movesTo (existing : Row) (data : Patch) : Option Json := (data .organizationId).filter (· ≠ existing.val .organizationId)

/-- The organization the data leaves a route in. -/
def effectiveOrg (existing : Row) (data : Patch) : Json := (movesTo existing data).getD (existing.val .organizationId)

/-- The target check of an update: the new target, or the old one under a new policy; and
    on a move the load-balancing targets too. -/
def checkTargets (W : World) (id : String) (existing : Row) (data : Patch) : Handler Unit := do
  if ((data .targetUrl).getD .null).truthy then
    assertRouteTargetAllowed W (textOf (withTarget data .targetUrl)) (effectiveOrg existing data)
  else
    when (movesTo existing data).isSome
      (assertRouteTargetAllowed W (textOf (some (existing.val .targetUrl))) (effectiveOrg existing data))
  let s ← read
  when (movesTo existing data).isSome
    ((s.routeTargets.filter fun _ t => t.routeId = id).rows.forM fun t =>
      assertRouteTargetAllowed W t.2.url (effectiveOrg existing data))

/-- A renamed route gets a slug for the new name, unless the data names one. -/
def withSlug (W : World) (s : Store) (id : String) (existing : Row) (data : Patch) : Patch :=
  match data .name with
  | some (.str name) =>
    if .str name ≠ existing.val .name ∧ ¬ ((data .slug).getD .null).truthy then
      data.set .slug (slugJson (pickRouteSlug W s name (some id)))
    else data
  | _ => data

def NON_VERSIONED : List Column :=
  [.createdAt, .updatedAt, .version, .deletedAt, .createdById, .updatedById, .cbState, .cbFailureCount,
   .cbLastFailureAt, .lbRrIndex]

/-- Whether a field outside the bookkeeping changes. -/
def hasChanges (existing : Row) (data : Patch) : Bool :=
  Column.all.any fun c => !NON_VERSIONED.contains c && (match data c with
    | some v => v ≠ existing.val c
    | none => false)

def increment : Json := .obj [("increment", .num 1)]

/-- What `updateRoute` makes of its data before it compares and writes. -/
def updateData (W : World) (s : Store) (d : Draw) (id : String) (existing : Row) (data : Patch) : Patch :=
  let data := withSlug W s id existing data
  let data := if ((data .targetUrl).getD .null).truthy then withTarget data else data
  sealSecrets W d (dropMasked data)

/-- What `updateRoute` writes in the end: the version goes up with a change. -/
def updatePatch (existing : Row) (data : Patch) (userId : String) : Patch :=
  (if hasChanges existing data then data.set .version increment else data).set .updatedById (.str userId)

def updateRoute (W : World) (d : Draw) (id : String) (data : Patch) (userId : String) : Handler Row := do
  let s ← read
  let existing ← orThrow (liveRoute? s id) (.notFound "Route")
  checkTargets W id existing data
  let data := updateData W s d id existing data
  when ((data .publicPath).getD .null).isStr
    (when (data .publicPath ≠ some (existing.val .publicPath))
      (freeSoftDeletedPublicPath d.now ((data .publicPath).getD .null)))
  checkRewriteRules W (data .rewriteRules)
  let route ← routeUpdate d.now id (updatePatch existing data userId)
  when (hasChanges existing data) (versionCreate d.versionId id (route.val .version) route userId)
  pure route

/-- A snapshot without its bookkeeping. -/
def snapshotData (version : RouteVersion) : Patch :=
  Patch.remove (fun c => some (version.snapshot c)) [.version, .createdAt, .updatedAt, .createdById, .updatedById]

/-- `restoreRouteVersion`: an update with the snapshot. -/
def restoreRouteVersion (W : World) (d : Draw) (routeId versionId userId : String) : Handler Row := do
  let s ← read
  let version ← orThrow ((s.routeVersions.get? versionId).filter fun v => v.routeId = routeId) (.notFound "Version")
  updateRoute W d routeId (snapshotData version) userId

/-- `importRoutes`: each body on its own; a refused one is counted by its error. -/
def importRoutes (W : World) (userId : String) : List (Draw × Patch) → Handler (Nat × List Err)
  | [] => pure (0, [])
  | (d, data) :: rest => do
    let result ← attempt (createRoute W d data userId)
    let (created, errors) ← importRoutes W userId rest
    pure (match result with
      | .ok _ => (created + 1, errors)
      | .error e => (created, e :: errors))

end ClusterGate
