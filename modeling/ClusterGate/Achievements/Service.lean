/-
  ClusterGate.Achievements.Service — achievements are unlocked once
  (`services/achievementService.ts`: `unlock`).

  An unlock looks for the user's row, creates it and tells the user. Every check of the
  service, of a count, an hour or a report, ends in unlocks, and the same check runs on
  many requests and from the daily job at once. The intent is that a user is told of an
  achievement once. Nothing but the table's unique key stops the second of two calls that
  have both found no row.

  Every `await` is one step. Meanwhile users are made and deleted, their rows with them,
  and notifications are read or deleted. An id is not drawn twice, so that the users are
  the ids that were made and are not gone.
  - `unlock_step`: the second step of a call that has found no row creates it; no other step
    touches the rows.
  - `unlocked_once`: in every order of the steps, at most one call is answered with an
    achievement, the user keeps it, and when a call is over the user has the achievement, or
    was not there when the call wrote.
-/

import ClusterGate.Errors
import ClusterGate.Lib.Claims
import ClusterGate.Lib.Table

namespace ClusterGate.Achievements

open Lib Async

inductive Rarity
  | common | rare | epic | legendary
  deriving DecidableEq

structure AchievementDef where
  key : String
  title : String
  description : String
  icon : String
  rarity : Rarity
  deriving DecidableEq

def ACHIEVEMENTS : List AchievementDef :=
  [⟨"first_route", "First Steps", "Create your first route", "🚀", .common⟩,
   ⟨"ten_routes", "Route Builder", "Create 10 routes", "🛤️", .common⟩,
   ⟨"fifty_routes", "Highway System", "Create 50 routes", "🏗️", .rare⟩,
   ⟨"century", "Century", "Create 100 routes", "💯", .epic⟩,
   ⟨"first_publish", "Go Live", "Publish your first route", "📡", .common⟩,
   ⟨"websocket_master", "Socket Wizard", "Enable WebSocket on a route", "🔌", .rare⟩,
   ⟨"circuit_breaker", "Safety First", "Enable circuit breaker on a route", "⚡", .rare⟩,
   ⟨"api_key_master", "Key Master", "Generate an API key for a route", "🔑", .rare⟩,
   ⟨"night_owl", "Night Owl", "Make a change between 02:00 and 05:00", "🦉", .rare⟩,
   ⟨"speed_demon", "Speed Demon", "Route with under 10ms avg response time", "⚡", .epic⟩,
   ⟨"zero_downtime_7d", "Rock Solid", "7 days with zero downtime on all routes", "🪨", .epic⟩,
   ⟨"party_animal", "Party Animal", "Trigger party mode", "🎉", .rare⟩,
   ⟨"backup_hero", "Backup Hero", "Create your first backup", "💾", .common⟩,
   ⟨"team_player", "Team Player", "Join an organization", "🤝", .common⟩,
   ⟨"two_factor", "Fort Knox", "Enable two-factor authentication", "🔐", .common⟩,
   ⟨"first_incident_resolved", "Fire Fighter", "Resolve your first incident", "🧑‍🚒", .rare⟩,
   ⟨"reviewer", "Gatekeeper", "Review a change request", "🔍", .rare⟩,
   ⟨"globe_trotter", "Globe Trotter", "Receive traffic from 5 different countries", "🌍", .epic⟩]

def achievementDef (key : String) : Option AchievementDef := ACHIEVEMENTS.find? fun a => a.key = key

structure Notification where
  userId : String
  type : String
  title : String
  message : String
  deriving DecidableEq

/-- The rows of `achievements` are keyed by user and achievement, and hold `unlockedAt`. -/
structure AwardStore where
  now : Nat
  made : List String
  gone : List String
  achievements : Table (String × String) Nat
  notifications : List Notification

namespace AwardStore

/-- The user is there. -/
def Has (s : AwardStore) (id : String) : Prop := id ∈ s.made ∧ id ∉ s.gone

instance decidableHas (s : AwardStore) (id : String) : Decidable (s.Has id) := inferInstanceAs (Decidable (_ ∧ _))

/-- `achievement.findUnique` -/
def findUnique (userId key : String) : Act AwardStore Err (Option Nat) := fun s =>
  (.ok (s.achievements.get? (userId, key)), s)

/-- `achievement.create` -/
def createRow (userId key : String) : Act AwardStore Err Unit := fun s =>
  if (s.achievements.get? (userId, key)).isSome = true then (.error (.prisma "P2002"), s)
  else if s.Has userId then (.ok (), { s with achievements := s.achievements.insert (userId, key) s.now })
  else (.error (.prisma "P2003"), s)

/-- `notification.create` -/
def createNotification (userId : String) (achievement : AchievementDef) : Act AwardStore Err Unit := fun s =>
  if s.Has userId then
    (.ok (), { s with notifications := s.notifications ++
      [⟨userId, "achievement", "Achievement Unlocked: " ++ achievement.title,
        achievement.icon ++ " " ++ achievement.description⟩] })
  else (.error (.prisma "P2003"), s)

end AwardStore

open AwardStore

structure UnlockRequest where
  userId : String
  key : String
  deriving DecidableEq

/-- `unlock`, from the row it found on. -/
def unlockFound (r : UnlockRequest) (achievement : AchievementDef) :
    Option Nat → Async AwardStore Err (Option AchievementDef)
  | some _ => pure none
  | none => do
    await (createRow r.userId r.key)
    await (createNotification r.userId achievement)
    pure (some achievement)

def unlock (r : UnlockRequest) : Async AwardStore Err (Option AchievementDef) :=
  match achievementDef r.key with
  | none => pure none
  | some achievement => do
    let existing ← await (findUnique r.userId r.key)
    unlockFound r achievement existing

/-- Time passes, a user is made or deleted, notifications change. -/
inductive AwardWorld
  | wait (d : Nat)
  | userCreated (id : String)
  | userDeleted (id : String)
  | notified (notifications : List Notification)

def AwardWorld.apply : AwardWorld → AwardStore → AwardStore
  | .wait d, s => { s with now := s.now + d }
  | .userCreated id, s => { s with made := id :: s.made }
  | .userDeleted id, s =>
    { s with gone := id :: s.gone
             achievements := s.achievements.filter fun k _ => k.1 ≠ id
             notifications := s.notifications.filter fun n => n.userId ≠ id }
  | .notified notifications, s => { s with notifications }

abbrev UnlockCall := Call UnlockRequest AwardStore

abbrev AwardPool := Pool AwardStore UnlockCall

def awardStep : AwardPool → Move AwardWorld → AwardPool := Pool.step (Call.advance unlock) AwardWorld.apply

/-! ## What a step writes -/

def SameRows (s s' : AwardStore) : Prop :=
  (∀ k, s'.achievements.get? k = s.achievements.get? k) ∧ s'.made = s.made ∧ s'.gone = s.gone

theorem sameRows_refl (s : AwardStore) : SameRows s s := ⟨fun _ => rfl, rfl, rfl⟩

theorem tell_sameRows (userId : String) (achievement : AchievementDef) (s : AwardStore) :
    SameRows s (createNotification userId achievement s).2 := by
  unfold createNotification
  split <;> exact ⟨fun _ => rfl, rfl, rfl⟩

/-- Whether the row can be created: there is none, and the user is there. -/
def Creatable (r : UnlockRequest) (s : AwardStore) : Prop := s.achievements.get? (r.userId, r.key) = none ∧ s.Has r.userId

instance decidableCreatable (r : UnlockRequest) (s : AwardStore) : Decidable (Creatable r s) :=
  inferInstanceAs (Decidable (_ ∧ _))

theorem createRow_creatable {r : UnlockRequest} {s : AwardStore} (h : Creatable r s) :
    createRow r.userId r.key s = (.ok (), { s with achievements := s.achievements.insert (r.userId, r.key) s.now }) := by
  unfold createRow
  rw [if_neg (by rw [h.1]; decide), if_pos h.2]

theorem createRow_refused {r : UnlockRequest} {s : AwardStore} (h : ¬ Creatable r s) :
    ∃ e, createRow r.userId r.key s = (.error e, s) := by
  unfold createRow
  by_cases hrow : (s.achievements.get? (r.userId, r.key)).isSome = true
  · exact ⟨_, if_pos hrow⟩
  · have huser : ¬ s.Has r.userId := fun hu => h ⟨Option.not_isSome_iff_eq_none.1 hrow, hu⟩
    exact ⟨_, by rw [if_neg hrow, if_neg huser]⟩

theorem createRow_rows {r : UnlockRequest} {s : AwardStore} (h : Creatable r s) (k : String × String) :
    (createRow r.userId r.key s).2.achievements.get? k =
      if k = (r.userId, r.key) then some s.now else s.achievements.get? k := by
  rw [createRow_creatable h]
  exact Table.get?_insert h.1 s.now k

theorem tail_sameRows (r : UnlockRequest) (achievement : AchievementDef) (existing : Option Nat) (s : AwardStore) :
    EveryStep SameRows ((unlockFound r achievement existing).advance s).1 := by
  cases existing with
  | some unlockedAt => exact everyStep_pure none
  | none =>
    refine everyStep_rest ?_ s
    intro _
    exact everyStep_bind (everyStep_await (tell_sameRows r.userId achievement)) fun _ => everyStep_pure _

/-- The second step of a call that has found no row creates it. -/
theorem unlock_step {r : UnlockRequest} {seen : List AwardStore} (hg : ((unlock r).after seen).ended = false) (s : AwardStore) :
    (seen.length ≠ 1 ∧ SameRows s (((unlock r).after seen).advance s).2) ∨
      (∃ s₀, seen = [s₀] ∧ (((unlock r).after seen).advance s).2 = (createRow r.userId r.key s).2) := by
  cases hkey : achievementDef r.key with
  | none =>
    have hnone : unlock r = pure none := by
      unfold unlock
      rw [hkey]
    rw [hnone, show (pure none : Async AwardStore Err (Option AchievementDef)) = done (.ok none) from rfl, after_done] at hg
    cases hg
  | some achievement =>
    have hcall : unlock r = (await (findUnique r.userId r.key) >>= unlockFound r achievement) := by
      unfold unlock
      rw [hkey]
    rw [hcall] at hg ⊢
    rcases second_step sameRows_refl (tail_sameRows r achievement) hg s with h | ⟨s₀, existing, rfl, -, h⟩
    · exact .inl h
    · rw [h] at hg ⊢
      cases existing with
      | some unlockedAt => cases hg
      | none => exact .inr ⟨s₀, rfl, rfl⟩

/-! ## Once -/

/-- What a call's second step has created. -/
def created (c : UnlockCall) : Option (String × String) :=
  match c.seen with
  | _ :: s₁ :: _ => if Creatable c.request s₁ then some (c.request.userId, c.request.key) else none
  | _ => none

/-- The user has the achievement, or is gone. -/
def Lasting (s : AwardStore) (k : String × String) : Prop := (s.achievements.get? k).isSome = true ∨ k.1 ∈ s.gone

theorem Creatable.free {r : UnlockRequest} {s : AwardStore} (h : Creatable r s) : ¬ Lasting s (r.userId, r.key) := by
  rintro (hrow | hgone)
  · rw [h.1] at hrow
    cases hrow
  · exact h.2.2 hgone

theorem SameRows.lasting {s s' : AwardStore} (h : SameRows s s') {k : String × String} (hk : Lasting s k) : Lasting s' k := by
  unfold Lasting
  rw [h.1, h.2.2]
  exact hk

theorem createRow_lasting (r : UnlockRequest) (s : AwardStore) {k : String × String} (hk : Lasting s k) :
    Lasting (createRow r.userId r.key s).2 k := by
  by_cases h : Creatable r s
  · rw [Lasting, createRow_rows h, createRow_creatable h]
    by_cases hkey : k = (r.userId, r.key)
    · rw [if_pos hkey]
      exact .inl rfl
    · rw [if_neg hkey]
      exact hk
  · obtain ⟨e, he⟩ := createRow_refused h
    rw [he]
    exact hk

theorem world_lasting (e : AwardWorld) (s : AwardStore) (k : String × String) (hk : Lasting s k) : Lasting (e.apply s) k := by
  cases e with
  | wait d => exact hk
  | notified notifications => exact hk
  | userCreated id => exact hk
  | userDeleted id =>
    rcases hk with hrow | hgone
    · by_cases hid : k.1 = id
      · exact .inr (List.mem_cons.2 (.inl hid))
      · left
        show ((s.achievements.filter fun k _ => k.1 ≠ id).get? k).isSome = true
        rw [Table.get?_filter]
        obtain ⟨a, ha⟩ := Option.isSome_iff_exists.1 hrow
        simp [ha, hid]
    · exact .inr (List.mem_cons_of_mem id hgone)

theorem step_lasting (c : UnlockCall) (s : AwardStore) (k : String × String) (hg : c.ended unlock = false)
    (hk : Lasting s k) : Lasting ((c.left unlock).advance s).2 k := by
  rcases unlock_step hg s with ⟨-, h⟩ | ⟨s₀, -, h⟩
  · exact h.lasting hk
  · show Lasting (((unlock c.request).after c.seen).advance s).2 k
    rw [h]
    exact createRow_lasting c.request s hk

theorem created_length {c : UnlockCall} (s : AwardStore) (h : c.seen.length ≠ 1) :
    created ⟨c.request, c.seen ++ [s]⟩ = created c := by
  obtain ⟨request, seen⟩ := c
  match seen with
  | [] => rfl
  | [_] => exact absurd rfl h
  | _ :: _ :: _ => rfl

theorem step_claims (c : UnlockCall) (s : AwardStore) (hg : c.ended unlock = false) :
    Pool.ClaimsFree created Lasting c s ((c.left unlock).advance s).2 := by
  rcases unlock_step hg s with ⟨hlen, -⟩ | ⟨s₀, hseen, h⟩
  · exact .inl (created_length s hlen)
  · obtain ⟨request, seen⟩ := c
    obtain rfl : seen = [s₀] := hseen
    by_cases hc : Creatable request s
    · right
      refine ⟨rfl, (request.userId, request.key), if_pos hc, hc.free, ?_⟩
      show Lasting (((unlock request).after [s₀]).advance s).2 _
      rw [h, Lasting, createRow_rows hc, if_pos rfl]
      exact .inl rfl
    · exact .inl (if_neg hc)

/-! ## What a call is answered -/

/-- The call is answered with the achievement. -/
def answered (c : UnlockCall) : Bool := (c.returned unlock).any Option.isSome

/-- The call is one for `k`, and is answered with the achievement. -/
def answeredFor (k : String × String) (c : UnlockCall) : Bool := answered c && decide ((c.request.userId, c.request.key) = k)

/-- What is left of a call once its row has been looked for. -/
theorem unlock_found {r : UnlockRequest} {achievement : AchievementDef} (hkey : achievementDef r.key = some achievement)
    (s₀ : AwardStore) (seen : List AwardStore) :
    (unlock r).after (s₀ :: seen) = (unlockFound r achievement (s₀.achievements.get? (r.userId, r.key))).after seen := by
  rw [after_cons]
  unfold unlock
  rw [hkey]
  rfl

theorem unlock_created {r : UnlockRequest} {achievement : AchievementDef} (hkey : achievementDef r.key = some achievement)
    {s₀ : AwardStore} (hrow : s₀.achievements.get? (r.userId, r.key) = none) (s₁ : AwardStore) (seen : List AwardStore)
    (hc : ¬ Creatable r s₁) : ∃ e, (unlock r).after (s₀ :: s₁ :: seen) = throw e := by
  obtain ⟨e, he⟩ := createRow_refused hc
  refine ⟨e, ?_⟩
  rw [unlock_found hkey, hrow, after_cons, unlockFound, advance_throws he]
  exact after_done _ seen

theorem unlock_known {c : UnlockCall} {achievement : AchievementDef} (h : c.left unlock = pure (some achievement)) :
    ∃ a, achievementDef c.request.key = some a := by
  cases hkey : achievementDef c.request.key with
  | some a => exact ⟨a, rfl⟩
  | none =>
    have hnone : c.left unlock = pure none := by
      unfold Call.left unlock
      rw [hkey]
      exact after_done _ c.seen
    rw [hnone] at h
    cases h

/-- A call is answered with the achievement only if it has created the row. -/
theorem answered_created {c : UnlockCall} (h : answered c = true) : created c = some (c.request.userId, c.request.key) := by
  obtain ⟨result, hreturned, hsome⟩ := (Option.any_eq_true _ _).1 h
  obtain ⟨achievement, rfl⟩ := Option.isSome_iff_exists.1 hsome
  have hleft := Call.returned_iff.1 hreturned
  obtain ⟨a, hkey⟩ := unlock_known hleft
  obtain ⟨request, seen⟩ := c
  unfold Call.left at hleft
  match seen with
  | [] =>
    unfold unlock at hleft
    rw [hkey] at hleft
    cases hleft
  | s₀ :: seen =>
    cases hrow : s₀.achievements.get? (request.userId, request.key) with
    | some unlockedAt =>
      rw [unlock_found hkey, hrow] at hleft
      have hnone : (unlockFound request a (some unlockedAt)).after seen = pure none := after_done _ seen
      rw [hnone] at hleft
      cases hleft
    | none =>
      match seen with
      | [] =>
        rw [unlock_found hkey, hrow] at hleft
        cases hleft
      | s₁ :: seen =>
        refine if_pos ?_
        by_contra hc
        obtain ⟨e, he⟩ := unlock_created hkey hrow s₁ seen hc
        rw [he] at hleft
        cases hleft

/-- What a call has found, or has tried to create, lasts. -/
structure Settled (s : AwardStore) (c : UnlockCall) : Prop where
  found : ∀ s₀ ∈ c.seen[0]?, (s₀.achievements.get? (c.request.userId, c.request.key)).isSome = true →
    Lasting s (c.request.userId, c.request.key)
  tried : ∀ s₁ ∈ c.seen[1]?, s₁.Has c.request.userId → Lasting s (c.request.userId, c.request.key)

theorem Settled.later {s s' : AwardStore} {c : UnlockCall} (h : Settled s c)
    (hlasting : ∀ k, Lasting s k → Lasting s' k) : Settled s' c :=
  ⟨fun s₀ hs₀ hrow => hlasting _ (h.found s₀ hs₀ hrow), fun s₁ hs₁ huser => hlasting _ (h.tried s₁ hs₁ huser)⟩

theorem settled_fresh {s : AwardStore} {c : UnlockCall} (h : c.seen = []) : Settled s c := by
  constructor
  · intro s₀ hs₀
    rw [h] at hs₀
    cases hs₀
  · intro s₁ hs₁
    rw [h] at hs₁
    cases hs₁

/-- A creation leaves the row of a user who is there. -/
theorem createRow_settles {r : UnlockRequest} {s : AwardStore} (h : s.Has r.userId) :
    Lasting (createRow r.userId r.key s).2 (r.userId, r.key) := by
  by_cases hc : Creatable r s
  · rw [Lasting, createRow_rows hc, if_pos rfl]
    exact .inl rfl
  · refine createRow_lasting r s (.inl ?_)
    exact Option.isSome_iff_ne_none.2 fun hrow => hc ⟨hrow, h⟩

theorem step_settled (c : UnlockCall) (s : AwardStore) (hg : c.ended unlock = false) (h : Settled s c) :
    Settled ((c.left unlock).advance s).2 ⟨c.request, c.seen ++ [s]⟩ := by
  have hlater := h.later fun k => step_lasting c s k hg
  constructor
  · exact Pool.forall_seen_concat (fun _ hrow => step_lasting c s _ hg (.inl hrow)) hlater.found
  · refine Pool.forall_seen_concat ?_ hlater.tried
    intro hlen huser
    rcases unlock_step hg s with ⟨hne, -⟩ | ⟨s₀, -, hcreate⟩
    · exact absurd hlen hne
    · show Lasting (((unlock c.request).after c.seen).advance s).2 _
      rw [hcreate]
      exact createRow_settles huser

/-- When a call for a known key is over, the user has the achievement, is gone or was not there
    at the call's write. -/
theorem ended_settled {s : AwardStore} {c : UnlockCall} (h : Settled s c) (hg : c.ended unlock = true)
    {achievement : AchievementDef} (hkey : achievementDef c.request.key = some achievement) :
    Lasting s (c.request.userId, c.request.key) ∨ ∃ s₁ ∈ c.seen[1]?, ¬ s₁.Has c.request.userId := by
  obtain ⟨request, seen⟩ := c
  unfold Call.ended Call.left at hg
  match seen with
  | [] =>
    unfold unlock at hg
    rw [hkey] at hg
    cases hg
  | s₀ :: seen =>
    cases hrow : s₀.achievements.get? (request.userId, request.key) with
    | some unlockedAt => exact .inl (h.found s₀ rfl (by rw [hrow]; rfl))
    | none =>
      match seen with
      | [] =>
        rw [unlock_found hkey, hrow] at hg
        cases hg
      | s₁ :: seen =>
        by_cases huser : s₁.Has request.userId
        · exact .inl (h.tried s₁ rfl huser)
        · exact .inr ⟨s₁, rfl, huser⟩

/-! ## Every run -/

/-- A call's second step is its write. -/
structure AwardedOnce (P : AwardPool) : Prop where
  once : ∀ k, P.calls.countP (answeredFor k) ≤ 1
  kept : ∀ c ∈ P.calls, answered c = true → Lasting P.shared (c.request.userId, c.request.key)
  settled : ∀ c ∈ P.calls, c.ended unlock = true → ∀ achievement, achievementDef c.request.key = some achievement →
    Lasting P.shared (c.request.userId, c.request.key) ∨ ∃ s₁ ∈ c.seen[1]?, ¬ s₁.Has c.request.userId

theorem awarded_once {P : AwardPool} (h : P.ClaimedOnce created Lasting) (hs : ∀ c ∈ P.calls, Settled P.shared c) :
    AwardedOnce P := by
  constructor
  · intro k
    refine h.countP_le (k := k) ?_
    intro c _ hc
    rw [answeredFor, Bool.and_eq_true, decide_eq_true_eq] at hc
    rw [answered_created hc.1, hc.2]
  · intro c hc hanswered
    exact h.taken _ (List.mem_filterMap.2 ⟨c, hc, answered_created hanswered⟩)
  · intro c hc hg achievement hkey
    exact ended_settled (hs c hc) hg hkey

theorem unlocked_once (P : AwardPool) (h : ∀ c ∈ P.calls, c.seen = []) (ms : List (Move AwardWorld)) :
    AwardedOnce (run awardStep P ms) := by
  have hclaimed : (run awardStep P ms).ClaimedOnce created Lasting := by
    refine Pool.claimedOnce_run world_lasting step_lasting step_claims (Pool.claimedOnce_fresh ?_) ms
    intro c hc
    unfold created
    rw [h c hc]
  have hsettled : ∀ c ∈ (run awardStep P ms).calls, Settled (run awardStep P ms).shared c := by
    refine run_stable (I := fun P : AwardPool => ∀ c ∈ P.calls, Settled P.shared c) ?_ ?_ ms
    · intro P hP m
      refine Pool.calls_step ?_ ?_ step_settled hP m
      · exact fun e s c hc => hc.later fun k => world_lasting e s k
      · exact fun c s d hg hd => hd.later fun k => step_lasting c s k hg
    · exact fun c hc => settled_fresh (h c hc)
  exact awarded_once hclaimed hsettled

/-- Two requests that have both found no row. -/
def bothLooking : AwardPool :=
  ⟨⟨0, ["u"], [], Table.empty, []⟩, [Call.start ⟨"u", "first_route"⟩, Call.start ⟨"u", "first_route"⟩]⟩

/-- Both try to create the row; one is answered. -/
theorem bothLooking_unlocked :
    AwardedOnce (run awardStep bothLooking [.call 0, .call 1, .call 1, .other (.wait 5), .call 0, .call 1]) ∧
      (run awardStep bothLooking [.call 0, .call 1, .call 1, .other (.wait 5), .call 0, .call 1]).calls.map answered =
        [false, true] := by
  refine ⟨unlocked_once bothLooking ?_ _, by decide +kernel⟩
  intro c hc
  rcases List.mem_cons.1 hc with rfl | hc
  · rfl
  · obtain rfl := List.mem_singleton.1 hc
    rfl

end ClusterGate.Achievements
