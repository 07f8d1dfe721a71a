/-
  ClusterGate.Update.Service — the update check and the switch to newer images
  (`services/updateService.ts`).

  The check takes the latest release tag of each image and compares it with the running
  version, the backend's. The switch uses the result of a check, the last one's if there is
  one. It goes on if either image has an update, and then sets both to their latest tag, or
  to the backend's version where there is none.
  - `used_is_checked`: the result that is used is a check's, made for the running version.
  - `available_iff`, `switches_eq`: what the check reports and what the switch sets.
  - `updates_forward_iff`: exactly when both go forward only.
  - `an_update_of_one_sets_back_the_other`: the update of one image sets the other back.
-/

import ClusterGate.Lib.Run
import ClusterGate.Update.Version

namespace ClusterGate.Update

open Lib

/-! ## The check -/

inductive Component where
  | backend
  | frontend
  deriving DecidableEq

def Component.image : Component → String
  | .backend => "ghcr.io/no749ah/clustergate-backend"
  | .frontend => "ghcr.io/no749ah/clustergate-frontend"

structure ImageVersionInfo where
  image : String
  currentTag : String
  latestTag : Option String
  latestDigest : Option String
  updateAvailable : Bool
  checkedAt : String

structure UpdateCheckResult where
  currentVersion : String
  backend : ImageVersionInfo
  frontend : ImageVersionInfo
  updateAvailable : Bool
  releaseUrl : Option String
  checkedAt : String

def UpdateCheckResult.info (r : UpdateCheckResult) : Component → ImageVersionInfo
  | .backend => r.backend
  | .frontend => r.frontend

/-- What the registry answers at a time: whether there is a token for an image, its tags (none
    if they cannot be had), and the digests of them. -/
structure Registry where
  token : Component → Bool
  tags : Component → List String
  digest : Component → String → Option String
  now : String

def fetchedTags (R : Registry) (c : Component) : List String := if R.token c then R.tags c else []

def latestTag (R : Registry) (c : Component) : Option String := findLatestSemverTag (fetchedTags R c)

def imageInfo (current : String) (R : Registry) (c : Component) : ImageVersionInfo where
  image := c.image
  currentTag := current
  latestTag := latestTag R c
  latestDigest := if R.token c then (latestTag R c).bind (R.digest c) else none
  updateAvailable := match latestTag R c with
    | some tag => isNewerVersion current tag
    | none => false
  checkedAt := R.now

def checkForUpdates (current : String) (R : Registry) : UpdateCheckResult :=
  if !R.token .backend && !R.token .frontend then
    { currentVersion := current
      backend := ⟨Component.backend.image, current, none, none, false, R.now⟩
      frontend := ⟨Component.frontend.image, current, none, none, false, R.now⟩
      updateAvailable := false
      releaseUrl := none
      checkedAt := R.now }
  else
    let backend := imageInfo current R .backend
    let frontend := imageInfo current R .frontend
    { currentVersion := current
      backend := backend
      frontend := frontend
      updateAvailable := backend.updateAvailable || frontend.updateAvailable
      releaseUrl := ((latestTag R .backend).orElse fun _ => latestTag R .frontend).map fun tag =>
        "https://github.com/no749ah/ClusterGate/releases/tag/v" ++ clean tag
      checkedAt := R.now }

/-- Without a token there are no tags, so the first answer is a case of the second. -/
theorem check_info (current : String) (R : Registry) (c : Component) :
    (checkForUpdates current R).info c = imageInfo current R c := by
  by_cases hnone : (!R.token .backend && !R.token .frontend) = true
  · obtain ⟨hbackend, hfrontend⟩ : R.token .backend = false ∧ R.token .frontend = false := by simpa using hnone
    rw [checkForUpdates, if_pos hnone]
    cases c with
    | backend => simp [UpdateCheckResult.info, imageInfo, latestTag, fetchedTags, hbackend, findLatestSemverTag]
    | frontend => simp [UpdateCheckResult.info, imageInfo, latestTag, fetchedTags, hfrontend, findLatestSemverTag]
  · rw [checkForUpdates, if_neg hnone]
    cases c <;> rfl

theorem check_available (current : String) (R : Registry) :
    (checkForUpdates current R).updateAvailable =
      ((imageInfo current R .backend).updateAvailable || (imageInfo current R .frontend).updateAvailable) := by
  by_cases hnone : (!R.token .backend && !R.token .frontend) = true
  · obtain ⟨hbackend, hfrontend⟩ : R.token .backend = false ∧ R.token .frontend = false := by simpa using hnone
    rw [checkForUpdates, if_pos hnone]
    simp [imageInfo, latestTag, fetchedTags, hbackend, hfrontend, findLatestSemverTag]
  · rw [checkForUpdates, if_neg hnone]

theorem check_current (current : String) (R : Registry) : (checkForUpdates current R).currentVersion = current := by
  rw [checkForUpdates]
  split <;> rfl

/-! ## The last result -/

/-- A process of some version, with its last result in memory, and the one in the database. -/
structure State where
  current : String
  cached : Option UpdateCheckResult
  persisted : Option UpdateCheckResult

inductive Event where
  /-- A check; `saved` says whether the database took its result. -/
  | check (R : Registry) (saved : Bool)
  /-- The check of the schedule, which also remembers the answer without a token. -/
  | scheduled (R : Registry) (saved : Bool)
  /-- The status is asked for; `read` says whether the database answered. -/
  | status (read : Bool)
  /-- A process of another version takes over. -/
  | restart (version : String)

def hasToken (R : Registry) : Bool := R.token .backend || R.token .frontend

def remember (s : State) (R : Registry) (saved : Bool) : State :=
  let result := checkForUpdates s.current R
  { s with cached := some result, persisted := if saved then some result else s.persisted }

/-- `fresh`: a result for another version is forgotten. -/
def fresh (s : State) (r : UpdateCheckResult) : State :=
  { s with cached := if r.currentVersion ≠ s.current then none else some r }

def step (s : State) : Event → State
  | .check R saved => if hasToken R then remember s R saved else s
  | .scheduled R saved =>
    if hasToken R then remember s R saved else { s with cached := some (checkForUpdates s.current R) }
  | .status read =>
    match s.cached, s.persisted with
    | some r, _ => fresh s r
    | none, some r => if read then fresh s r else s
    | none, none => s
  | .restart version => { s with current := version, cached := none }

/-- A result is what a check gave, for the version in it. -/
def Checked (r : UpdateCheckResult) : Prop := ∃ R, r = checkForUpdates r.currentVersion R

structure Inv (s : State) : Prop where
  cached : ∀ r ∈ s.cached, Checked r ∧ r.currentVersion = s.current
  persisted : ∀ r ∈ s.persisted, Checked r

theorem checked_check (current : String) (R : Registry) : Checked (checkForUpdates current R) :=
  ⟨R, by rw [check_current]⟩

theorem remember_inv {s : State} (h : Inv s) (R : Registry) (saved : Bool) : Inv (remember s R saved) := by
  have hresult : ∀ r ∈ some (checkForUpdates s.current R), Checked r ∧ r.currentVersion = s.current := by
    rintro r ⟨⟩
    exact ⟨checked_check _ _, check_current _ _⟩
  refine ⟨hresult, ?_⟩
  rw [remember]
  cases saved with
  | true => exact fun r hr => (hresult r hr).1
  | false => exact h.persisted

theorem fresh_inv {s : State} (h : Inv s) {r : UpdateCheckResult} (hr : Checked r) : Inv (fresh s r) := by
  refine ⟨?_, h.persisted⟩
  rw [fresh]
  dsimp only
  split
  · simp
  · rename_i hsame
    rintro r' ⟨⟩
    exact ⟨hr, not_not.1 hsame⟩

theorem step_inv {s : State} (h : Inv s) (e : Event) : Inv (step s e) := by
  cases e with
  | check R saved =>
    rw [step]
    split
    · exact remember_inv h R saved
    · exact h
  | scheduled R saved =>
    rw [step]
    split
    · exact remember_inv h R saved
    · refine ⟨?_, h.persisted⟩
      rintro r ⟨⟩
      exact ⟨checked_check _ _, check_current _ _⟩
  | status read =>
    cases hcached : s.cached with
    | some r =>
      have hstep : step s (.status read) = fresh s r := by simp only [step, hcached]
      exact hstep ▸ fresh_inv h (h.cached r hcached).1
    | none =>
      cases hpersisted : s.persisted with
      | none =>
        have hstep : step s (.status read) = s := by simp only [step, hcached, hpersisted]
        rw [hstep]
        exact h
      | some r =>
        have hstep : step s (.status read) = if read then fresh s r else s := by simp only [step, hcached, hpersisted]
        rw [hstep]
        split
        · exact fresh_inv h (h.persisted r hpersisted)
        · exact h
  | restart version => exact ⟨by simp [step], h.persisted⟩

/-- The result `pullAndRestart` uses. -/
def usedResult (s : State) (R : Registry) : UpdateCheckResult := s.cached.getD (checkForUpdates s.current R)

def start (version : String) : State := ⟨version, none, none⟩

/-- After any run, it is what a check gave for the running version. -/
theorem used_is_checked (version : String) (events : List Event) (R : Registry) :
    ∃ R', usedResult (run step (start version) events) R =
      checkForUpdates (run step (start version) events).current R' := by
  have hinv : Inv (run step (start version) events) :=
    run_stable (I := Inv) (fun _ h e => step_inv h e) ⟨by simp [start], by simp [start]⟩ events
  rw [usedResult]
  cases hcached : (run step (start version) events).cached with
  | none => exact ⟨R, rfl⟩
  | some r =>
    obtain ⟨⟨R', hR'⟩, hcurrent⟩ := hinv.cached r hcached
    exact ⟨R', by rw [Option.getD_some, ← hcurrent]; exact hR'⟩

/-! ## The switch -/

inductive Environment where
  | kubernetes
  | docker
  | standalone
  deriving DecidableEq

structure Failure where
  status : Option Nat
  message : String

/-- What the cluster answers: whether the image of a deployment could be set, and how its
    rollout went. -/
structure Cluster where
  patch : Component → Except Failure Unit
  rollout : Component → Bool × String

inductive DockerAnswer where
  | pulled
  | noSocket
  | failed (message : String)

structure Outcome where
  success : Bool
  message : String
  environment : Environment
  /-- The images that were set, in order. -/
  switches : List (Component × String)

def failedUpdate (failure : Failure) (switches : List (Component × String)) : Outcome :=
  ⟨false, if failure.status = some 403 then
      "RBAC permission denied. Ensure the backend ServiceAccount has patch/get access to deployments."
    else "Update failed: " ++ failure.message, .kubernetes, switches⟩

def targetTag (current : String) (info : ImageVersionInfo) : String := info.latestTag.getD current

/-- The frontend is set first; the backend when it has rolled out. -/
def switchBoth (cluster : Cluster) (backendTag frontendTag : String) : Outcome :=
  match cluster.patch .frontend with
  | .error failure => failedUpdate failure []
  | .ok () =>
    if !(cluster.rollout .frontend).1 then
      ⟨false, (cluster.rollout .frontend).2, .kubernetes, [(.frontend, frontendTag)]⟩
    else
      match cluster.patch .backend with
      | .error failure => failedUpdate failure [(.frontend, frontendTag)]
      | .ok () =>
        ⟨true, "Update complete. Running backend:" ++ backendTag ++ " frontend:" ++ frontendTag ++ ".", .kubernetes,
          [(.frontend, frontendTag), (.backend, backendTag)]⟩

def pullAndRestart (env : Environment) (s : State) (R : Registry) (cluster : Cluster) (docker : DockerAnswer) : Outcome :=
  match env with
  | .kubernetes =>
    let updateInfo := usedResult s R
    let backendTag := targetTag s.current updateInfo.backend
    let frontendTag := targetTag s.current updateInfo.frontend
    if !updateInfo.updateAvailable then ⟨true, "Already up to date.", .kubernetes, []⟩
    else switchBoth cluster backendTag frontendTag
  | .docker =>
    match docker with
    | .pulled => ⟨true, "Images pulled. Run \"docker compose up -d\" to apply.", .docker, []⟩
    | .noSocket =>
      ⟨false, "Docker socket not mounted. Run \"docker compose pull && docker compose up -d\".", .docker, []⟩
    | .failed message => ⟨false, "Update failed: " ++ message, .docker, []⟩
  | .standalone => ⟨true, "Pull the latest images and restart the services manually.", .standalone, []⟩

/-- The tag an image is set to after a check. -/
def target (current : String) (R : Registry) (c : Component) : String := (latestTag R c).getD current

theorem mem_switchBoth {cluster : Cluster} {current : String} {R : Registry} {p : Component × String}
    (h : p ∈ (switchBoth cluster (target current R .backend) (target current R .frontend)).switches) :
    p.2 = target current R p.1 := by
  rw [switchBoth] at h
  split at h
  · simp [failedUpdate] at h
  · split at h
    · simp only [List.mem_singleton] at h
      rw [h]
    · split at h
      · simp only [failedUpdate, List.mem_singleton] at h
        rw [h]
      · simp only [List.mem_cons, List.not_mem_nil, or_false] at h
        rcases h with rfl | rfl <;> rfl

theorem switchBoth_mem (backendTag frontendTag : String) (c : Component) :
    (c, if c = .backend then backendTag else frontendTag) ∈
      (switchBoth ⟨fun _ => .ok (), fun _ => (true, "")⟩ backendTag frontendTag).switches := by
  cases c <;> simp [switchBoth]

variable {current : String} {R : Registry} {w x : Version}

theorem pull_elsewhere {env : Environment} (h : env ≠ .kubernetes) (s : State) (R' : Registry) (cluster : Cluster)
    (docker : DockerAnswer) : (pullAndRestart env s R' cluster docker).switches = [] := by
  cases env with
  | kubernetes => exact absurd rfl h
  | docker => cases docker <;> rfl
  | standalone => rfl

/-- What is switched after a check: nothing, or each image to its tag. -/
theorem pull_switches {s : State} {R' : Registry} (hcurrent : s.current = current)
    (hused : usedResult s R' = checkForUpdates current R) (cluster : Cluster) (docker : DockerAnswer) :
    (pullAndRestart .kubernetes s R' cluster docker).switches =
      if (checkForUpdates current R).updateAvailable then
        (switchBoth cluster (target current R .backend) (target current R .frontend)).switches
      else [] := by
  have hbackend : targetTag s.current (checkForUpdates current R).backend = target current R .backend := by
    have hinfo : (checkForUpdates current R).backend = imageInfo current R .backend := check_info current R .backend
    rw [hinfo, hcurrent]
    rfl
  have hfrontend : targetTag s.current (checkForUpdates current R).frontend = target current R .frontend := by
    have hinfo : (checkForUpdates current R).frontend = imageInfo current R .frontend := check_info current R .frontend
    rw [hinfo, hcurrent]
    rfl
  rw [pullAndRestart, hused, hbackend, hfrontend]
  cases (checkForUpdates current R).updateAvailable <;> rfl

/-! ## Forward only -/

/-- Some release tag of the image is newer than a version. -/
def SomeNewer (R : Registry) (w : Version) (c : Component) : Prop :=
  ∃ t ∈ fetchedTags R c, ∃ r, release? t = some r ∧ Older w r.version

/-- Some release tag of the image exceeds a version in doubles. -/
def SomeNewerInDoubles (R : Registry) (w : Version) (c : Component) : Prop :=
  ∃ t ∈ fetchedTags R c, ∃ r, release? t = some r ∧ NewerInDoubles w r

theorem latest_release {c : Component} {t : String} (h : latestTag R c = some t) :
    t ∈ fetchedTags R c ∧ ∃ r, release? t = some r := by
  obtain ⟨hmem, hsemver⟩ := (latest_iff.1 h).mem
  exact ⟨hmem, isSemverTag_iff.1 hsemver⟩

/-- An update is reported exactly if some release tag exceeds the version in doubles. -/
theorem available_iff (hw : version? current = some w) (c : Component) :
    ((checkForUpdates current R).info c).updateAvailable = true ↔ SomeNewerInDoubles R w c := by
  rw [check_info, imageInfo]
  dsimp only
  cases hlatest : latestTag R c with
  | none =>
    refine iff_of_false Bool.false_ne_true ?_
    rintro ⟨t, ht, r, hr, -⟩
    have hsemver := latest_none_iff.1 hlatest t ht
    rw [isSemverTag_iff.2 ⟨r, hr⟩] at hsemver
    cases hsemver
  | some t =>
    obtain ⟨hmem, r, hr⟩ := latest_release hlatest
    dsimp only
    rw [isNewer_iff hw hr]
    refine ⟨fun hnew => ⟨t, hmem, r, hr, hnew⟩, ?_⟩
    rintro ⟨u, hu, r', hr', hnew⟩
    have hle := (latest_iff.1 hlatest).greatest hu (isSemverTag_iff.2 ⟨r', hr'⟩)
    rw [doublesOf, doublesOf, hr, hr'] at hle
    exact newer_mono hle hnew

theorem any_available_iff (hw : version? current = some w) :
    (checkForUpdates current R).updateAvailable = true ↔ ∃ c, SomeNewerInDoubles R w c := by
  rw [check_available, ← check_info, ← check_info, Bool.or_eq_true, available_iff hw, available_iff hw]
  constructor
  · rintro (h | h)
    · exact ⟨.backend, h⟩
    · exact ⟨.frontend, h⟩
  · rintro ⟨c, h⟩
    cases c with
    | backend => exact .inl h
    | frontend => exact .inr h

/-- What the images run. -/
def runs (w x : Version) : Component → Version
  | .backend => w
  | .frontend => x

/-- An update is reported exactly if there is one, and nothing is set to a tag that is older than
    what it runs, whatever has happened before and whatever the cluster answers. -/
structure Forward (current : String) (w x : Version) (R : Registry) : Prop where
  reported : ∀ c, ((checkForUpdates current R).info c).updateAvailable = true ↔ SomeNewer R w c
  any : (checkForUpdates current R).updateAvailable = true ↔ ∃ c, SomeNewer R w c
  switches : ∀ env s R' cluster docker, s.current = current → usedResult s R' = checkForUpdates current R →
    ∀ p ∈ (pullAndRestart env s R' cluster docker).switches,
      ∃ v, version? p.2 = some v ∧ ¬Older v (runs w x p.1)

/-- The latest release tag of the image, if it has one, and else the backend's version, is not
    older than what the image runs. -/
def Keeps (R : Registry) (w x : Version) (c : Component) : Prop :=
  (∃ t r, Leads (fetchedTags R c) t ∧ release? t = some r ∧ ¬Older r.version (runs w x c)) ∨
    ((∀ t ∈ fetchedTags R c, release? t = none) ∧ ¬Older w (runs w x c))

theorem release_none_iff {c : Component} : latestTag R c = none ↔ ∀ t ∈ fetchedTags R c, release? t = none := by
  rw [latestTag, latest_none_iff]
  refine forall₂_congr fun t _ => ?_
  rw [← Bool.not_eq_true, isSemverTag_iff]
  cases release? t <;> simp

/-- The target of a switch is a version, and not older than what runs exactly if the tags keep it. -/
theorem target_iff (hw : version? current = some w) (c : Component) :
    (∃ v, version? (target current R c) = some v ∧ ¬Older v (runs w x c)) ↔ Keeps R w x c := by
  rw [target]
  cases hlatest : latestTag R c with
  | none =>
    rw [Option.getD_none, hw]
    constructor
    · rintro ⟨v, ⟨⟩, hv⟩
      exact .inr ⟨release_none_iff.1 hlatest, hv⟩
    · rintro (⟨t, r, hleads, -⟩ | ⟨-, hv⟩)
      · rw [latestTag, latest_iff.2 hleads] at hlatest
        cases hlatest
      · exact ⟨w, rfl, hv⟩
  | some t =>
    obtain ⟨hmem, r, hr⟩ := latest_release hlatest
    rw [Option.getD_some, version_of_release hr]
    constructor
    · rintro ⟨v, ⟨⟩, hv⟩
      exact .inl ⟨t, r, latest_iff.1 hlatest, hr, hv⟩
    · rintro (⟨u, r', hleads, hr', hv⟩ | ⟨hnone, -⟩)
      · obtain rfl := leads_unique (latest_iff.1 hlatest) hleads
        rw [hr] at hr'
        cases hr'
        exact ⟨_, rfl, hv⟩
      · rw [hnone t hmem] at hr
        cases hr

theorem Forward.keeps (h : Forward current w x R) (hw : version? current = some w)
    (hsome : ∃ c, SomeNewerInDoubles R w c) (c : Component) : Keeps R w x c := by
  have havailable : (checkForUpdates current R).updateAvailable = true := (any_available_iff hw).2 hsome
  have hswitches : (pullAndRestart .kubernetes ⟨current, none, none⟩ R ⟨fun _ => .ok (), fun _ => (true, "")⟩
      .pulled).switches = (switchBoth ⟨fun _ => .ok (), fun _ => (true, "")⟩ (target current R .backend)
        (target current R .frontend)).switches := by
    rw [pull_switches (s := ⟨current, none, none⟩) rfl rfl, if_pos havailable]
  have hmem := switchBoth_mem (target current R .backend) (target current R .frontend) c
  have htarget : (if c = .backend then target current R .backend else target current R .frontend) =
      target current R c := by cases c <;> rfl
  rw [htarget, ← hswitches] at hmem
  obtain ⟨v, hv, hkeep⟩ := h.switches _ _ _ _ _ rfl rfl _ hmem
  exact (target_iff hw c).1 ⟨v, hv, hkeep⟩

/-- For all tags, running versions and earlier checks: updates are reported exactly when there
    are some, and nothing goes back, if and only if doubles find a newer tag where there is one,
    and nothing is newer or each image's target keeps up with what it runs. -/
theorem updates_forward_iff (current : String) {w : Version} (hw : version? current = some w) (x : Version)
    (R : Registry) :
    Forward current w x R ↔
      (∀ c, SomeNewerInDoubles R w c ↔ SomeNewer R w c) ∧
        ((∀ c, ¬SomeNewerInDoubles R w c) ∨ ∀ c, Keeps R w x c) := by
  constructor
  · intro h
    refine ⟨fun c => (available_iff hw c).symm.trans (h.reported c), ?_⟩
    rw [or_iff_not_imp_left]
    exact fun hsome => h.keeps hw (not_forall_not.1 hsome)
  · rintro ⟨hdoubles, hkeep⟩
    refine ⟨fun c => (available_iff hw c).trans (hdoubles c), ?_, ?_⟩
    · rw [any_available_iff hw]
      exact exists_congr hdoubles
    · intro env s R' cluster docker hcurrent hused p hp
      by_cases henv : env = .kubernetes
      · rw [henv, pull_switches hcurrent hused] at hp
        split at hp
        · rename_i havailable
          obtain ⟨c, hc⟩ := (any_available_iff hw).1 havailable
          have hkeeps := hkeep.resolve_left fun hnone => hnone c hc
          rw [mem_switchBoth hp]
          exact (target_iff hw p.1).2 (hkeeps p.1)
        · cases hp
      · rw [pull_elsewhere henv] at hp
        cases hp

/-- A registry with some tags of each image. -/
def registryOf (backendTags frontendTags : List String) : Registry :=
  ⟨fun _ => true, fun | .backend => backendTags | .frontend => frontendTags, fun _ _ => none, ""⟩

theorem newer_1_13 : NewerInDoubles ⟨⟨1, 12, 9⟩, [], false⟩ ⟨1, 13, 0⟩ :=
  (newer_small rfl rfl (by decide) (by decide)).2 (by decide)

theorem updates_forward_1_13 :
    Forward "1.12.9" ⟨⟨1, 12, 9⟩, [], false⟩ ⟨⟨1, 12, 9⟩, [], false⟩ (registryOf ["latest", "1.13.0"] ["latest", "1.13.0"]) :=
  (updates_forward_iff "1.12.9" (by decide) _ _).2
    ⟨fun c => iff_of_true ⟨"1.13.0", by cases c <;> decide, ⟨1, 13, 0⟩, by decide, newer_1_13⟩
        ⟨"1.13.0", by cases c <;> decide, ⟨1, 13, 0⟩, by decide, by decide⟩,
      .inr fun c => .inl ⟨"1.13.0", ⟨1, 13, 0⟩, ⟨[], [], by cases c <;> decide, by simp, by simp⟩, by decide,
        by cases c <;> decide⟩⟩

/-- The backend's newest tag has been taken back, and the frontend has a newer one. -/
theorem an_update_of_one_sets_back_the_other :
    ¬Forward "1.12.9" ⟨⟨1, 12, 9⟩, [], false⟩ ⟨⟨1, 12, 9⟩, [], false⟩ (registryOf ["1.12.8"] ["1.13.0"]) := by
  intro h
  have hsome : SomeNewerInDoubles (registryOf ["1.12.8"] ["1.13.0"]) ⟨⟨1, 12, 9⟩, [], false⟩ .frontend :=
    ⟨"1.13.0", by decide, ⟨1, 13, 0⟩, by decide, newer_1_13⟩
  have hrelease : release? "1.12.8" = some ⟨1, 12, 8⟩ := by decide
  rcases h.keeps (by decide) ⟨.frontend, hsome⟩ .backend with ⟨t, r, hleads, hr, hnot⟩ | ⟨hnone, -⟩
  · obtain rfl : t = "1.12.8" := List.mem_singleton.1 hleads.mem.1
    rw [hrelease] at hr
    cases hr
    exact hnot (by decide)
  · have hno := hnone "1.12.8" List.mem_cons_self
    rw [hrelease] at hno
    cases hno

end ClusterGate.Update
