/-
  ClusterGate.Accounts.Invites — invites step by step (`services/inviteService.ts`).

  Accepting an invite is one transaction: it finds the invite unused and unexpired, marks it
  used and creates the user. Revoking marks it used too, and nothing unmarks it. Creating
  one takes three steps: is there a user, mark the pending invites for the address as used,
  insert the new one.
  - `ages`: no step forgets an invite, or that it was used.
  - `InvitesSound`: a token has made at most one user, from an invite that was pending and
    with its address and role; and one pending invite at most is there for an address.
  - `invites_sound_iff`: it is so in every state of a run exactly if no invite for the
    address is inserted between another one's invalidation and its insert (`Superseding`).
    The half about users needs no condition.
  - `two_invites_pending`: two administrators invite the same address at once.
-/

import ClusterGate.Accounts.Sessions

namespace ClusterGate.Accounts

open Lib Lib.Act Async Auth

/-! ## The services -/

def INVITE_EXPIRY_HOURS : Nat := 72

/-- `findUnique({ where: { email } })` has to find nobody. -/
def addressFree (email : String) : Query Unit := do
  let s ← read
  require (s.users.any (fun _ u => u.email = email) = false) (.conflict "A user with this email already exists")

/-- `inviteToken.updateMany({ where: { email, usedAt: null }, data: { usedAt } })`. -/
def Store.invalidate (email : String) (s : Store) : Store :=
  { s with invites := s.invites.mapRows fun _ i =>
      if i.email = email ∧ i.usedAt = none then { i with usedAt := some s.now } else i }

def insertInvite (id token : String) (invite : InviteToken) : Query Unit := do
  let s ← read
  require ((s.inviteIds.get? id).isNone ∧ (s.invites.get? token).isNone) (.prisma "P2002")
  modify fun s => { s with invites := s.invites.insert token invite, inviteIds := s.inviteIds.insert id token }

def newInvite (email : String) (role : Role) (now : Nat) : InviteToken where
  email := email
  role := role
  expiresAt := now + INVITE_EXPIRY_HOURS * 60 * 60 * 1000

def createInvite (email : String) (role : Role) (id token : String) : Service Unit := do
  let normalizedEmail := normalizeEmail email
  await (addressFree normalizedEmail)
  await (modify (Store.invalidate normalizedEmail))
  let now ← await clock
  await (insertInvite id token (newInvite normalizedEmail role now))

/-- An invite is marked as used. -/
def Store.useInvite (token : String) (s : Store) : Store :=
  { s with invites := s.invites.modify token fun i => { i with usedAt := some s.now } }

/-- The account an invite is for. -/
def invitee (env : Env) (invite : InviteToken) (name password : String) : User :=
  { email := invite.email, passwordHash := env.bcryptHash password, name, role := invite.role, isActive := true }

/-- The transaction of `acceptInvite`. -/
def acceptance (env : Env) (token name password userId : String) : Query User :=
  atomic do
    let s ← read
    let invite ← orThrow (s.invites.get? token) (.notFound "Invite")
    require invite.usedAt.isNone (.badRequest "This invite has already been used")
    require (s.now ≤ invite.expiresAt) (.badRequest "This invite has expired")
    require (s.users.any (fun _ u => u.email = invite.email) = false) (.conflict "An account with this email already exists")
    modify (Store.useInvite token)
    require ((s.users.get? userId).isNone) (.prisma "P2002")
    modify fun s => { s with users := s.users.insert userId (invitee env invite name password) }
    pure (invitee env invite name password)

def acceptInvite (env : Env) (token name password : String) (ctx : SessionContext) (userId sessionId : String) :
    Service Unit := do
  require (validatePassword password = []) (.badRequest "Password does not meet requirements" (validatePassword password))
  let user ← await (acceptance env token name password userId)
  let _ ← issueSession env userId user ctx sessionId none

/-- The token of an invite that can be revoked. -/
def revocable (id : String) : Query String := do
  let s ← read
  let token ← orThrow (s.inviteIds.get? id) (.notFound "Invite")
  let invite ← orThrow (s.invites.get? token) (.notFound "Invite")
  require invite.usedAt.isNone (.badRequest "Invite already used")
  pure token

def revokeInvite (id : String) : Service Unit := do
  let token ← await (revocable id)
  await (modify (Store.useInvite token))

/-! ## The endpoints -/

inductive InviteRequest
  | create (caller : String) (email : String) (role : Role) (id token : String)
  | accept (token name password : String) (ctx : SessionContext) (userId sessionId : String)
  | revoke (caller : String) (id : String)

def inviteEndpoint (env : Env) : InviteRequest → Service Unit
  | .create caller email role id token => do
    let _ ← await (authorized caller [.ADMIN])
    require (env.isEmail email) (.zod [⟨"email", none⟩])
    createInvite email role id token
  | .accept token name password ctx userId sessionId => do
    require (token ≠ "") (.zod [⟨"token", some "Token is required"⟩])
    require (name ≠ "") (.zod [⟨"name", some "Name is required"⟩])
    require (12 ≤ Text.utf16Length password) (.zod [⟨"password", some "Password must be at least 12 characters"⟩])
    acceptInvite env token name password ctx userId sessionId
  | .revoke caller id => do
    let _ ← await (authorized caller [.ADMIN])
    revokeInvite id

/-! ## No step forgets an invite -/

/-- The invite of `token` is used. -/
def UsedIn (s : Store) (token : String) : Prop := ∃ i, s.invites.get? token = some i ∧ i.usedAt.isSome = true

/-- An invite is as it was, or used by now. -/
structure Later (i i' : InviteToken) : Prop where
  email : i'.email = i.email
  role : i'.role = i.role
  expiresAt : i'.expiresAt = i.expiresAt
  usedAt : i.usedAt.isSome = true → i'.usedAt.isSome = true

/-- The invites there are stay, used ones used. -/
def Ages (s s' : Store) : Prop := ∀ token i, s.invites.get? token = some i → ∃ i', s'.invites.get? token = some i' ∧ Later i i'

theorem Later.refl (i : InviteToken) : Later i i := ⟨rfl, rfl, rfl, id⟩

theorem ages_same {s s' : Store} (h : s'.invites = s.invites) : Ages s s' := by
  intro token i hi
  exact ⟨i, by rw [h, hi], .refl i⟩

theorem UsedIn.later {s s' : Store} {token : String} (h : UsedIn s token) (ha : Ages s s') : UsedIn s' token := by
  obtain ⟨i, hi, hu⟩ := h
  obtain ⟨i', hi', hl⟩ := ha token i hi
  exact ⟨i', hi', hl.usedAt hu⟩

theorem ages_useInvite (token : String) (s : Store) : Ages s (s.useInvite token) := by
  intro token' i hi
  show ∃ i', (s.invites.modify _ _).get? token' = some i' ∧ _
  rw [Table.get?_modify]
  by_cases ht : token' = token
  · rw [if_pos ht, ← ht, hi]
    exact ⟨_, rfl, rfl, rfl, rfl, fun _ => rfl⟩
  · rw [if_neg ht]
    exact ⟨i, hi, .refl i⟩

theorem ages_invalidate (email : String) (s : Store) : Ages s (s.invalidate email) := by
  intro token i hi
  show ∃ i', (s.invites.mapRows _).get? token = some i' ∧ _
  rw [Table.get?_mapRows, hi]
  refine ⟨_, rfl, ?_⟩
  dsimp only
  split
  · exact ⟨rfl, rfl, rfl, fun _ => rfl⟩
  · exact .refl i

theorem invalidate_used {email token : String} {s : Store} {i : InviteToken} (hi : s.invites.get? token = some i)
    (he : i.email = email) : UsedIn (s.invalidate email) token := by
  show ∃ i', (s.invites.mapRows _).get? token = some i' ∧ _
  rw [Table.get?_mapRows, hi]
  refine ⟨_, rfl, ?_⟩
  dsimp only
  split
  · rfl
  · rename_i h
    rw [Option.isSome_iff_ne_none]
    exact fun hn => h ⟨he, hn⟩

theorem insertInvite_state (id token : String) (invite : InviteToken) (s : Store) :
    (insertInvite id token invite s).2 =
      if (s.inviteIds.get? id).isNone ∧ (s.invites.get? token).isNone then
        { s with invites := s.invites.insert token invite, inviteIds := s.inviteIds.insert id token }
      else s := by
  unfold insertInvite
  rw [bind_run]
  show ((require _ _ >>= fun _ => modify _ : Query Unit) s).2 = _
  split
  · rename_i h
    rw [require_bind h]
    rfl
  · rename_i h
    rw [require_bind_not h]
    rfl

theorem ages_insertInvite (id token : String) (invite : InviteToken) (s : Store) :
    Ages s (insertInvite id token invite s).2 := by
  rw [insertInvite_state]
  split
  · rename_i h
    intro token' i hi
    refine ⟨i, ?_, .refl i⟩
    show (s.invites.insert token invite).get? token' = some i
    rw [Table.get?_insert (Option.isNone_iff_eq_none.1 h.2), if_neg ?_, hi]
    rintro rfl
    rw [hi] at h
    cases h.2
  · exact ages_same rfl

/-- What an acceptance that goes through has found, and what it leaves. -/
theorem acceptance_wp (env : Env) (token name password userId : String) (s : Store) :
    wp (acceptance env token name password userId)
      (fun user t => ∃ invite, s.invites.get? token = some invite ∧ invite.usedAt = none ∧ s.now ≤ invite.expiresAt ∧
        s.users.get? userId = none ∧ user = invitee env invite name password ∧
        t = { s.useInvite token with users := s.users.insert userId user })
      (fun _ t => t = s) s := by
  simp only [acceptance, wp_atomic, wp_bind, wp_read, wp_orThrow, wp_require, wp_modify, wp_pure, implies_true, and_true]
  rintro invite hi hu he - hid
  exact ⟨invite, hi, Option.isNone_iff_eq_none.1 hu, he, Option.isNone_iff_eq_none.1 hid, rfl, rfl⟩

theorem ages_acceptance (env : Env) (token name password userId : String) (s : Store) :
    Ages s (acceptance env token name password userId s).2 := by
  refine wp_final (P := Ages s) (wp_mono (acceptance_wp env token name password userId s) ?_ ?_)
  · rintro user t ⟨invite, -, -, -, -, -, rfl⟩
    exact ages_useInvite token s
  · rintro e t rfl
    exact ages_same rfl

theorem createSession_invites (env : Env) (userId : String) (user : User) (ctx : SessionContext) (sessionId : String)
    (now : Nat) (login : Option Login) (s : Store) :
    (createSession env userId user ctx sessionId now login s).2.invites = s.invites := by
  rw [createSession_state]
  split <;> rfl

theorem revocable_state (id : String) (s : Store) : (revocable id s).2 = s := by
  refine wp_final (P := fun t => t = s) ?_
  simp only [revocable, wp_bind, wp_read, wp_orThrow, wp_require, wp_pure, implies_true, and_self]

theorem addressFree_state (email : String) (s : Store) : (addressFree email s).2 = s := by
  refine wp_final (P := fun t => t = s) ?_
  simp only [addressFree, wp_bind, wp_read, wp_require, implies_true, and_self]

/-- Every step of every request. -/
theorem ages (env : Env) (r : InviteRequest) : EveryStep Ages (inviteEndpoint env r) := by
  have hauth : ∀ caller, EveryStep Ages (await (authorized caller [.ADMIN])) := fun caller =>
    everyStep_await fun s => ages_same (by rw [authorized_state])
  cases r with
  | create caller email role id token =>
    refine everyStep_bind (hauth caller) fun _ => everyStep_bind (everyStep_require _ _) fun _ => ?_
    refine everyStep_bind (everyStep_await fun s => ages_same (by rw [addressFree_state])) fun _ => ?_
    refine everyStep_bind (everyStep_await fun s => ages_invalidate _ s) fun _ => ?_
    refine everyStep_bind (everyStep_await fun s => ages_same rfl) fun now => ?_
    exact everyStep_await fun s => ages_insertInvite _ _ _ s
  | accept token name password ctx userId sessionId =>
    refine everyStep_bind (everyStep_require _ _) fun _ => everyStep_bind (everyStep_require _ _) fun _ => ?_
    refine everyStep_bind (everyStep_require _ _) fun _ => everyStep_bind (everyStep_require _ _) fun _ => ?_
    refine everyStep_bind (everyStep_await fun s => ages_acceptance _ _ _ _ _ s) fun user => ?_
    refine everyStep_bind ?_ fun _ => everyStep_pure _
    refine everyStep_bind (everyStep_await fun s => ages_same rfl) fun now => ?_
    exact everyStep_await fun s => ages_same (createSession_invites env userId user ctx sessionId now none s)
  | revoke caller id =>
    refine everyStep_bind (hauth caller) fun _ => ?_
    refine everyStep_bind (everyStep_await fun s => ages_same (by rw [revocable_state])) fun token => ?_
    exact everyStep_await fun s => ages_useInvite token s

/-! ## What is to hold -/

abbrev InviteCall := Call InviteRequest Store

/-- Unused and unexpired; a revoked invite counts as used. -/
def pendingAt (now : Nat) (i : InviteToken) : Bool := i.usedAt = none && now ≤ i.expiresAt

theorem pendingAt_iff {now : Nat} {i : InviteToken} : pendingAt now i = true ↔ i.usedAt = none ∧ now ≤ i.expiresAt := by
  rw [pendingAt, Bool.and_eq_true, decide_eq_true_iff, decide_eq_true_iff]

/-- A user made from an invite: the token, and the states its transaction found and left. -/
structure Acceptance where
  token : String
  found : Store
  left : Store
  userId : String
  user : User

def accepted (env : Env) (c : InviteCall) : Option Acceptance :=
  match c.request, c.seen with
  | .accept token name password _ userId _, s :: _ =>
    match acceptance env token name password userId s with
    | (.ok user, t) => some ⟨token, s, t, userId, user⟩
    | (.error _, _) => none
  | _, _ => none

/-- The call has made a user from `token`. -/
def hasAccepted (env : Env) (token : String) (c : InviteCall) : Bool := (accepted env c).any fun a => a.token = token

/-- The invite a call has revoked. -/
def revokedBy (c : InviteCall) : Option String :=
  match c.request, c.seen with
  | .revoke _ id, [_, found, _] => (revocable id found).1.toOption
  | _, _ => none

/-- The user is new, and is whom the invite is for; it was neither used, revoked nor expired. -/
structure Acceptance.AsInvited (a : Acceptance) : Prop where
  invite : ∃ i, a.found.invites.get? a.token = some i ∧ pendingAt a.found.now i = true ∧
    a.user.email = i.email ∧ a.user.role = i.role
  user : a.found.users.get? a.userId = none ∧ a.left.users = a.found.users.insert a.userId a.user

/-- At most one pending invite for an address. -/
def OnePending (s : Store) : Prop :=
  ∀ token token' i i', s.invites.get? token = some i → s.invites.get? token' = some i' → pendingAt s.now i = true →
    pendingAt s.now i' = true → i.email = i'.email → token = token'

structure InvitesSound (env : Env) (P : Pool Store InviteCall) : Prop where
  asInvited : ∀ c ∈ P.calls, ∀ a ∈ accepted env c, a.AsInvited
  once : ∀ token, P.calls.countP (hasAccepted env token) ≤ 1
  revoked : ∀ c ∈ P.calls, ∀ token ∈ revokedBy c, UsedIn P.shared token
  onePending : OnePending P.shared

/-! ## Where a call is -/

/-- What a call has done to the invites, of the states it has seen and the present one. -/
def InviteOk (env : Env) (s : Store) (c : InviteCall) : Prop :=
  match c.request with
  | .create _ email _ _ _ => ∀ t ∈ c.seen[2]?, ∀ token i, t.invites.get? token = some i →
      i.email = normalizeEmail email → UsedIn s token
  | .accept token name password _ userId _ => ∀ t ∈ c.seen[0]?, ∀ user,
      (acceptance env token name password userId t).1 = .ok user → UsedIn s token
  | .revoke _ id => ∀ t ∈ c.seen[1]?, ∀ token, (revocable id t).1 = .ok token →
      (∃ i, s.invites.get? token = some i) ∧ (2 < c.seen.length → UsedIn s token)

theorem inviteOk_later {env : Env} {s s' : Store} {c : InviteCall} (ha : Ages s s') (h : InviteOk env s c) :
    InviteOk env s' c := by
  obtain ⟨request, seen⟩ := c
  cases request with
  | create caller email role id token => exact fun t ht token i hi he => (h t ht token i hi he).later ha
  | accept token name password ctx userId sessionId => exact fun t ht user hu => (h t ht user hu).later ha
  | revoke caller id =>
    intro t ht token hok
    obtain ⟨⟨i, hi⟩, hused⟩ := h t ht token hok
    obtain ⟨i', hi', -⟩ := ha token i hi
    exact ⟨⟨i', hi'⟩, fun hlen => (hused hlen).later ha⟩

theorem revocable_ok {id token : String} {s : Store} (h : (revocable id s).1 = .ok token) :
    ∃ i, s.invites.get? token = some i ∧ i.usedAt = none := by
  have hwp : wp (revocable id) (fun token t => ∃ i, s.invites.get? token = some i ∧ i.usedAt = none) (fun _ _ => True) s := by
    simp only [revocable, wp_bind, wp_read, wp_orThrow, wp_require, wp_pure, implies_true, and_true]
    intro token _ i hi hu
    exact ⟨i, hi, Option.isNone_iff_eq_none.1 hu⟩
  exact wp_outcome_ok hwp h

theorem acceptance_ok {env : Env} {token name password userId : String} {s : Store} {user : User}
    (h : (acceptance env token name password userId s).1 = .ok user) :
    ∃ invite, s.invites.get? token = some invite ∧ invite.usedAt = none ∧ s.now ≤ invite.expiresAt ∧
      s.users.get? userId = none ∧ user = invitee env invite name password ∧
      (acceptance env token name password userId s).2 =
        { s.useInvite token with users := s.users.insert userId user } :=
  wp_outcome_ok (acceptance_wp env token name password userId s) h

theorem acceptance_used {env : Env} {token name password userId : String} {s : Store} {user : User}
    (h : (acceptance env token name password userId s).1 = .ok user) :
    UsedIn (acceptance env token name password userId s).2 token := by
  obtain ⟨i, hi, -, -, -, -, hleft⟩ := acceptance_ok h
  rw [hleft]
  show ∃ i', (s.invites.modify _ _).get? token = some i' ∧ _
  rw [Table.get?_modify, if_pos rfl, hi]
  exact ⟨_, rfl, rfl⟩

/-! ## One pending invite -/

section OnePending

variable {s s' : Store}

/-- A step after which every pending invite was one before. -/
theorem onePending_of_shrinks (h : OnePending s)
    (hs : ∀ token i', s'.invites.get? token = some i' → pendingAt s'.now i' = true →
      ∃ i, s.invites.get? token = some i ∧ pendingAt s.now i = true ∧ i.email = i'.email) : OnePending s' := by
  intro token token' i i' hi hi' hp hp' he
  obtain ⟨j, hj, hjp, hje⟩ := hs token i hi hp
  obtain ⟨j', hj', hjp', hje'⟩ := hs token' i' hi' hp'
  exact h token token' j j' hj hj' hjp hjp' (hje.trans (he.trans hje'.symm))

theorem onePending_same (hi : s'.invites = s.invites) (hn : s'.now = s.now) (h : OnePending s) : OnePending s' :=
  onePending_of_shrinks h fun token i' hi' hp => ⟨i', by rw [← hi, hi'], by rw [← hn, hp], rfl⟩

theorem onePending_elapse (ms : Nat) (h : OnePending s) : OnePending (s.elapse ms) := by
  refine onePending_of_shrinks h fun token i' hi' hp => ⟨i', hi', ?_, rfl⟩
  rw [pendingAt_iff, Store.elapse_now] at hp
  exact pendingAt_iff.2 ⟨hp.1, Nat.le_trans (Nat.le_add_right _ _) hp.2⟩

theorem onePending_useInvite (token : String) (h : OnePending s) : OnePending (s.useInvite token) := by
  refine onePending_of_shrinks h fun token' i' hi' hp => ?_
  replace hi' : (s.invites.modify token _).get? token' = some i' := hi'
  rw [Table.get?_modify] at hi'
  by_cases ht : token' = token
  · rw [if_pos ht] at hi'
    obtain ⟨i, -, rfl⟩ := Option.map_eq_some_iff.1 hi'
    cases hp
  · rw [if_neg ht] at hi'
    exact ⟨i', hi', hp, rfl⟩

theorem onePending_invalidate (email : String) (h : OnePending s) : OnePending (s.invalidate email) := by
  refine onePending_of_shrinks h fun token i' hi' hp => ?_
  replace hi' : (s.invites.mapRows _).get? token = some i' := hi'
  rw [Table.get?_mapRows] at hi'
  obtain ⟨i, hi, rfl⟩ := Option.map_eq_some_iff.1 hi'
  split at hp
  · cases hp
  · rename_i hn
    exact ⟨i, hi, hp, by rw [if_neg hn]⟩

theorem onePending_acceptance (env : Env) (token name password userId : String) (h : OnePending s) :
    OnePending (acceptance env token name password userId s).2 := by
  refine wp_final (P := OnePending) (wp_mono (acceptance_wp env token name password userId s) ?_ ?_)
  · rintro user t ⟨invite, -, -, -, -, -, rfl⟩
    exact onePending_same (s := s.useInvite token) rfl rfl (onePending_useInvite token h)
  · rintro e t rfl
    exact h

/-- A new invite, unless it is refused or has expired, is to be the only one pending for its address. -/
theorem onePending_insert_iff {id token : String} {invite : InviteToken} (h : OnePending s) :
    (s.inviteIds.get? id = none → s.invites.get? token = none → pendingAt s.now invite = true →
      ∀ token' i, s.invites.get? token' = some i → i.email = invite.email → pendingAt s.now i = true → False) ↔
      OnePending (insertInvite id token invite s).2 := by
  rw [insertInvite_state]
  split
  · rename_i hfree
    rw [Option.isNone_iff_eq_none, Option.isNone_iff_eq_none] at hfree
    have hget := fun k => Table.get?_insert hfree.2 invite k
    constructor
    · intro hnone k k' i i' hi hi' hp hp' he
      replace hi : (s.invites.insert token invite).get? k = some i := hi
      replace hi' : (s.invites.insert token invite).get? k' = some i' := hi'
      rw [hget] at hi hi'
      by_cases hk : k = token
      · by_cases hk' : k' = token
        · rw [hk, hk']
        · rw [if_pos hk] at hi
          rw [if_neg hk'] at hi'
          cases hi
          exact (hnone hfree.1 hfree.2 hp k' i' hi' he.symm hp').elim
      · by_cases hk' : k' = token
        · rw [if_neg hk] at hi
          rw [if_pos hk'] at hi'
          cases hi'
          exact (hnone hfree.1 hfree.2 hp' k i hi he hp).elim
        · rw [if_neg hk] at hi
          rw [if_neg hk'] at hi'
          exact h k k' i i' hi hi' hp hp' he
    · intro hone _ _ hp k i hi he hpi
      have hk : k ≠ token := by
        rintro rfl
        rw [hfree.2] at hi
        cases hi
      refine hk (hone k token i invite ?_ ?_ hpi hp he)
      · exact (hget k).trans ((if_neg hk).trans hi)
      · exact (hget token).trans (if_pos rfl)
  · rename_i hfree
    refine iff_of_true (fun h₁ h₂ => absurd ⟨?_, ?_⟩ hfree) h
    · rw [h₁]
      rfl
    · rw [h₂]
      rfl

end OnePending

/-! ## The condition -/

/-- An invite is about to be inserted that is not refused and has not expired: every invite
    then pending for its address was there when the address was cleared of them. -/
def Superseding (r : InviteRequest) (seen : List Store) (s : Store) : Prop :=
  match r, seen with
  | .create _ email role id token, [_, _, cleared, clocked] =>
    s.inviteIds.get? id = none → s.invites.get? token = none →
      pendingAt s.now (newInvite (normalizeEmail email) role clocked.now) = true →
        s.invites.any (fun t i => i.email = normalizeEmail email && pendingAt s.now i &&
          !(cleared.invites.get? t).any fun j => j.email = normalizeEmail email) = false
  | _, _ => True

instance (r : InviteRequest) (seen : List Store) (s : Store) : Decidable (Superseding r seen s) := by
  unfold Superseding
  split <;> infer_instance

/-- What a step does to the invites, by where its call is. -/
def InviteStep (env : Env) (r : InviteRequest) (seen : List Store) (s s' : Store) : Prop :=
  InviteOk env s ⟨r, seen⟩ →
    InviteOk env s' ⟨r, seen ++ [s]⟩ ∧ (OnePending s → (Superseding r seen s ↔ OnePending s'))

theorem tells_create (env : Env) (caller email : String) (role : Role) (id token : String) :
    Tells (InviteStep env (.create caller email role id token)) (fun _ _ => True) []
      (inviteEndpoint env (.create caller email role id token)) := by
  simp only [inviteEndpoint, createInvite, tells_bind, tells_await, tells_require, implies_true, and_true]
  intro s₀
  refine ⟨fun _ => ⟨by rintro t ⟨⟩, fun h => ?_⟩, fun _ _ _ s₁ => ?_⟩
  · rw [authorized_state]
    exact iff_of_true trivial h
  refine ⟨fun _ => ⟨by rintro t ⟨⟩, fun h => ?_⟩, fun _ _ s₂ => ?_⟩
  · rw [addressFree_state]
    exact iff_of_true trivial h
  refine ⟨fun _ => ⟨?_, fun h => iff_of_true trivial (onePending_invalidate _ h)⟩, fun _ _ s₃ => ?_⟩
  · rintro t ⟨⟩ k i hi he
    exact invalidate_used hi he
  refine ⟨fun hok => ⟨fun t ht => hok t ht, fun h => iff_of_true trivial h⟩, fun now hnow s => ?_⟩
  obtain rfl : s₃.now = now := Except.ok.inj hnow
  intro hok
  refine ⟨inviteOk_later (c := ⟨_, [s₀, s₁, s₂, s₃, s]⟩) (ages_insertInvite _ _ _ s) fun t ht => hok t ht, fun h => ?_⟩
  rw [← onePending_insert_iff h]
  show (_ → _ → _ → _) ↔ _
  refine forall_congr' fun _ => forall_congr' fun _ => forall_congr' fun _ => ?_
  rw [Table.any_eq_false]
  refine forall_congr' fun k => forall_congr' fun i => forall_congr' fun hi => ?_
  show _ ↔ (i.email = normalizeEmail email → pendingAt s.now i = true → False)
  constructor
  · intro hthere he hp
    -- An invite for the address that was there has been used since.
    have hwas : (s₂.invites.get? k).any (fun j => j.email = normalizeEmail email) = true := by
      simpa [he, hp] using hthere
    obtain ⟨j, hj, hje⟩ := (Option.any_eq_true _ _).1 hwas
    obtain ⟨i', hi', hu⟩ := hok s₂ rfl k j hj (of_decide_eq_true hje)
    obtain rfl := Option.some.inj (hi.symm.trans hi')
    rw [(pendingAt_iff.1 hp).1] at hu
    cases hu
  · intro hnone
    rw [Bool.and_eq_false_iff, Bool.and_eq_false_iff, decide_eq_false_iff_not, ← Bool.not_eq_true (pendingAt _ _)]
    by_cases he : i.email = normalizeEmail email
    · exact .inl (.inr fun hp => hnone he hp)
    · exact .inl (.inl he)

theorem tells_accept (env : Env) (token name password : String) (ctx : SessionContext) (userId sessionId : String) :
    Tells (InviteStep env (.accept token name password ctx userId sessionId)) (fun _ _ => True) []
      (inviteEndpoint env (.accept token name password ctx userId sessionId)) := by
  simp only [inviteEndpoint, acceptInvite, issueSession, tells_bind, tells_await, tells_require, tells_pure, implies_true,
    and_true]
  intro _ _ _ _ s₀
  refine ⟨fun _ => ⟨?_, fun h => iff_of_true trivial (onePending_acceptance _ _ _ _ _ h)⟩, fun user _ s₁ => ?_⟩
  · rintro t ⟨⟩ user hu
    exact acceptance_used hu
  refine ⟨fun hok => ⟨fun t ht => hok t ht, fun h => iff_of_true trivial h⟩, fun now _ s => ?_⟩
  have hsame := createSession_invites env userId user ctx sessionId now none s
  have hnow : (createSession env userId user ctx sessionId now none s).2.now = s.now := by
    rw [createSession_state]
    split <;> rfl
  exact fun hok => ⟨inviteOk_later (c := ⟨_, [s₀, s₁, s]⟩) (ages_same hsame) fun t ht => hok t ht,
    fun h => iff_of_true trivial (onePending_same hsame hnow h)⟩

theorem tells_revoke (env : Env) (caller id : String) :
    Tells (InviteStep env (.revoke caller id)) (fun _ _ => True) [] (inviteEndpoint env (.revoke caller id)) := by
  simp only [inviteEndpoint, revokeInvite, tells_bind, tells_await, implies_true, and_true]
  intro s₀
  refine ⟨fun _ => ⟨by rintro t ⟨⟩, fun h => ?_⟩, fun _ _ s₁ => ?_⟩
  · rw [authorized_state]
    exact iff_of_true trivial h
  refine ⟨fun _ => ⟨?_, fun h => ?_⟩, fun token htoken s => ?_⟩
  · rintro t ⟨⟩ token hok
    obtain ⟨i, hi, -⟩ := revocable_ok hok
    rw [revocable_state]
    exact ⟨⟨i, hi⟩, fun hlen => absurd hlen (Nat.lt_irrefl 2)⟩
  · rw [revocable_state]
    exact iff_of_true trivial h
  refine fun hok => ⟨?_, fun h => iff_of_true trivial (onePending_useInvite token h)⟩
  rintro t ⟨⟩ token' hok'
  obtain rfl : token = token' := by
    rw [htoken] at hok'
    exact Except.ok.inj hok'
  obtain ⟨⟨i, hi⟩, -⟩ := hok s₁ rfl token htoken
  have hused : (s.useInvite token).invites.get? token = some { i with usedAt := some s.now } := by
    show (s.invites.modify _ _).get? token = _
    rw [Table.get?_modify, if_pos rfl, hi]
    rfl
  exact ⟨⟨_, hused⟩, fun _ => ⟨_, hused, rfl⟩⟩

theorem tells_invites (env : Env) (r : InviteRequest) :
    Tells (InviteStep env r) (fun _ _ => True) [] (inviteEndpoint env r) := by
  cases r with
  | create caller email role id token => exact tells_create env caller email role id token
  | accept token name password ctx userId sessionId => exact tells_accept env token name password ctx userId sessionId
  | revoke caller id => exact tells_revoke env caller id

/-! ## Users made from an invite -/

theorem accepted_eq {env : Env} {c : InviteCall} {a : Acceptance} (h : accepted env c = some a) :
    ∃ name password ctx sessionId more, c.request = .accept a.token name password ctx a.userId sessionId ∧
      c.seen = a.found :: more ∧ acceptance env a.token name password a.userId a.found = (.ok a.user, a.left) := by
  obtain ⟨request, seen⟩ := c
  cases request with
  | accept token name password ctx userId sessionId =>
    cases seen with
    | nil => cases h
    | cons s more =>
      dsimp only [accepted] at h
      split at h
      · rename_i user t hacc
        cases h
        exact ⟨name, password, ctx, sessionId, more, rfl, rfl, hacc⟩
      · cases h
  | create caller email role id token => cases h
  | revoke caller id => cases h

theorem accepted_asInvited {env : Env} {c : InviteCall} {a : Acceptance} (h : accepted env c = some a) : a.AsInvited := by
  obtain ⟨name, password, -, -, -, -, -, hacc⟩ := accepted_eq h
  obtain ⟨i, hi, hu, he, hfree, huser, hleft⟩ := acceptance_ok (congrArg Prod.fst hacc)
  refine ⟨⟨i, hi, pendingAt_iff.2 ⟨hu, he⟩, ?_, ?_⟩, hfree, ?_⟩
  · rw [huser]
    rfl
  · rw [huser]
    rfl
  · rw [hacc] at hleft
    exact congrArg (fun t : Store => t.users) hleft

theorem hasAccepted_used {env : Env} {s : Store} {c : InviteCall} {token : String} (hok : InviteOk env s c)
    (h : hasAccepted env token c = true) : UsedIn s token := by
  obtain ⟨a, ha, htoken⟩ := (Option.any_eq_true _ _).1 h
  obtain ⟨name, password, ctx, sessionId, more, hr, hseen, hacc⟩ := accepted_eq ha
  obtain rfl : a.token = token := of_decide_eq_true htoken
  obtain ⟨request, seen⟩ := c
  cases hr
  cases hseen
  exact hok a.found rfl a.user (congrArg Prod.fst hacc)

theorem revokedBy_used {env : Env} {s : Store} {c : InviteCall} {token : String} (hok : InviteOk env s c)
    (h : revokedBy c = some token) : UsedIn s token := by
  obtain ⟨request, seen⟩ := c
  unfold revokedBy at h
  split at h
  · rename_i caller id s₀ found s₂ hr hseen
    cases hr
    cases hseen
    refine (hok found rfl token ?_).2 (Nat.lt_succ_self 2)
    revert h
    cases (revocable id found).1 with
    | error e => rintro ⟨⟩
    | ok t =>
      rintro ⟨⟩
      rfl
  · cases h

/-- A call that makes a user by its next step is about to take its first. -/
theorem hasAccepted_concat {env : Env} {token : String} {r : InviteRequest} {seen : List Store} {s : Store}
    (h : hasAccepted env token ⟨r, seen ++ [s]⟩ = true) (hbefore : hasAccepted env token ⟨r, seen⟩ = false) :
    ∃ i, s.invites.get? token = some i ∧ i.usedAt = none := by
  cases seen with
  | nil =>
    obtain ⟨a, ha, htoken⟩ := (Option.any_eq_true _ _).1 h
    obtain ⟨name, password, ctx, sessionId, more, hr, hseen, hacc⟩ := accepted_eq ha
    obtain rfl : a.token = token := of_decide_eq_true htoken
    obtain ⟨i, hi, hu, -⟩ := acceptance_ok (congrArg Prod.fst hacc)
    cases hseen
    exact ⟨i, hi, hu⟩
  | cons s₀ more =>
    have hsame : hasAccepted env token ⟨r, s₀ :: more ++ [s]⟩ = hasAccepted env token ⟨r, s₀ :: more⟩ := by
      cases r <;> rfl
    rw [hsame, hbefore] at h
    cases h

/-! ## Runs -/

def inviteStep (env : Env) : Pool Store InviteCall → Move Nat → Pool Store InviteCall :=
  Pool.step (Call.advance (inviteEndpoint env)) Store.elapse

def inviting (s : Store) (requests : List InviteRequest) : Pool Store InviteCall := ⟨s, requests.map Call.start⟩

section Step

variable {env : Env} {P : Pool Store InviteCall}

theorem inviteOk_step (h : ∀ c ∈ P.calls, InviteOk env P.shared c) (m : Move Nat) :
    ∀ c ∈ (inviteStep env P m).calls, InviteOk env (inviteStep env P m).shared c := by
  have hages : ∀ (c : InviteCall) s, c.ended (inviteEndpoint env) = false →
      Ages s ((c.left (inviteEndpoint env)).advance s).2 := fun c s hg =>
    everyStep_advance (everyStep_after c.seen (ages env c.request)) hg s
  have hother : ∀ ms s (c : InviteCall), InviteOk env s c → InviteOk env (Store.elapse ms s) c := fun ms s c =>
    inviteOk_later (ages_same rfl)
  refine Pool.calls_step hother ?_ ?_ h m
  · intro c s d hg
    exact inviteOk_later (hages c s hg)
  · intro c s hg hok
    exact (tells_step (tells_invites env c.request) hg s hok).1

/-- A token that has made a user makes no second one. -/
theorem once_step (h : ∀ c ∈ P.calls, InviteOk env P.shared c) (token : String)
    (honce : P.calls.countP (hasAccepted env token) ≤ 1) (m : Move Nat) :
    (inviteStep env P m).calls.countP (hasAccepted env token) ≤ 1 := by
  cases m with
  | other ms => exact honce
  | call i =>
    cases hc : P.calls[i]? with
    | none =>
      rw [inviteStep, Pool.step_none hc]
      exact honce
    | some c =>
      cases hg : c.ended (inviteEndpoint env) with
      | true =>
        rw [inviteStep, Pool.step_ended hc hg]
        exact honce
      | false =>
        have hcount := @Pool.count_going _ _ _ _ _ (inviteEndpoint env) Store.elapse P i c (hasAccepted env token) hc hg
        rw [inviteStep]
        cases hbefore : hasAccepted env token c with
        | true =>
          rw [hbefore, if_pos rfl] at hcount
          have hle : (if hasAccepted env token ⟨c.request, c.seen ++ [P.shared]⟩ = true then 1 else 0) ≤ 1 := by
            split <;> omega
          omega
        | false =>
          cases hafter : hasAccepted env token ⟨c.request, c.seen ++ [P.shared]⟩ with
          | false =>
            rw [hbefore, hafter] at hcount
            simp only [Bool.false_eq_true, if_false] at hcount
            omega
          | true =>
            obtain ⟨i', hi', hunused⟩ := hasAccepted_concat hafter hbefore
            have hnone : P.calls.countP (hasAccepted env token) = 0 := by
              refine List.countP_eq_zero.2 fun d hd hacc => ?_
              obtain ⟨j, hj, hused⟩ := hasAccepted_used (h d hd) hacc
              obtain rfl := Option.some.inj (hi'.symm.trans hj)
              rw [hunused] at hused
              cases hused
            rw [hbefore, hafter, hnone] at hcount
            simp only [Bool.false_eq_true, if_false, if_true] at hcount
            omega

theorem invites_sound_step (h : ∀ c ∈ P.calls, InviteOk env P.shared c) (hs : InvitesSound env P) (m : Move Nat) :
    Pool.AtStep (inviteEndpoint env) Superseding P m ↔ InvitesSound env (inviteStep env P m) := by
  have hone : Pool.AtStep (inviteEndpoint env) Superseding P m ↔ OnePending (inviteStep env P m).shared := by
    cases m with
    | other ms => exact iff_of_true trivial (onePending_elapse ms hs.onePending)
    | call i =>
      cases hc : P.calls[i]? with
      | none =>
        rw [inviteStep, Pool.step_none hc]
        exact iff_of_true (Pool.atStep_none hc) hs.onePending
      | some c =>
        cases hg : c.ended (inviteEndpoint env) with
        | true =>
          rw [inviteStep, Pool.step_ended hc hg]
          exact iff_of_true (Pool.atStep_ended hc hg) hs.onePending
        | false =>
          rw [inviteStep, Pool.atStep_going hc hg, Pool.step_going hc hg]
          exact (tells_step (tells_invites env c.request) hg P.shared (h c (List.mem_of_getElem? hc))).2 hs.onePending
  rw [hone]
  refine ⟨fun hp => ⟨?_, fun token => once_step h token (hs.once token) m, ?_, hp⟩, fun hs' => hs'.onePending⟩
  · intro c _ a ha
    exact accepted_asInvited ha
  · intro c hc token htoken
    exact revokedBy_used (inviteOk_step h m c hc) htoken

end Step

theorem inviting_start (env : Env) (s : Store) (hs : OnePending s) (requests : List InviteRequest) :
    (∀ c ∈ (inviting s requests).calls, InviteOk env s c) ∧ InvitesSound env (inviting s requests) := by
  have hok : ∀ c ∈ (inviting s requests).calls, InviteOk env s c := by
    intro c hc
    obtain ⟨r, -, rfl⟩ := List.mem_map.1 hc
    cases r <;> rintro t ⟨⟩
  refine ⟨hok, fun c _ a ha => accepted_asInvited ha, fun token => ?_, fun c hc token htoken =>
    revokedBy_used (hok c hc) htoken, hs⟩
  rw [List.countP_eq_zero.2]
  · exact Nat.zero_le 1
  · intro c hc hacc
    obtain ⟨r, -, rfl⟩ := List.mem_map.1 hc
    cases r <;> cases hacc

theorem invites_sound_iff (env : Env) (s : Store) (hs : OnePending s) (requests : List InviteRequest)
    (moves : List (Move Nat)) :
    (∀ pre post, moves = pre ++ post → InvitesSound env (run (inviteStep env) (inviting s requests) pre)) ↔
      Along (inviteStep env) (Pool.AtStep (inviteEndpoint env) Superseding) (inviting s requests) moves := by
  obtain ⟨hok, hsound⟩ := inviting_start env s hs requests
  rw [← throughout_iff]
  exact throughout_iff_along (I := fun P => ∀ c ∈ P.calls, InviteOk env P.shared c)
    (fun P m hi hq => invites_sound_step hi hq m) (fun P m hi _ _ => inviteOk_step hi m) hok hsound

/-! ## Two invites at once -/

/-- Every text with an `@` is an address. -/
def desk : Env where
  bcryptCompare password hash := password = hash
  bcryptHash password := password
  totpValidate _ _ _ _ := false
  deriveClientToken _ := "mac"
  isEmail email := Text.includes email "@"
  jwtExpiresIn := 604800
  tokenLifetimeMs := 604800000
  apiClientTokenRequired := none

/-- One administrator, no invites. -/
def frontDesk : Store where
  users := Table.empty.insert "ada" { email := "ada@corp.example", passwordHash := "hash", name := "Ada", role := .ADMIN, isActive := true }
  sessions := .empty
  invites := .empty
  lastTouch := .empty
  minted := []
  passed := []
  nextLogin := 0
  now := 1000

theorem frontDesk_onePending : OnePending frontDesk := by
  rintro token token' i i' ⟨⟩

/-- `POST /api/users/invite {"email":"cyd@corp.example"}`, twice. -/
def twice : List InviteRequest :=
  [.create "ada" "cyd@corp.example" .VIEWER "i1" "t1", .create "ada" "cyd@corp.example" .VIEWER "i2" "t2"]

/-- One after the other: the second supersedes the first. -/
theorem invites_one_after_the_other :
    InvitesSound desk (run (inviteStep desk) (inviting frontDesk twice)
      [.call 0, .call 0, .call 0, .call 0, .call 0, .other 5, .call 1, .call 1, .call 1, .call 1, .call 1]) := by
  have hall := (invites_sound_iff desk frontDesk frontDesk_onePending twice
    [.call 0, .call 0, .call 0, .call 0, .call 0, .other 5, .call 1, .call 1, .call 1, .call 1, .call 1]).2
    (by decide +kernel)
  exact hall _ [] (List.append_nil _).symm

/-- Both clear the address, then both insert. -/
theorem two_invites_pending :
    ¬∀ (env : Env) (s : Store), OnePending s → ∀ (requests : List InviteRequest) (moves : List (Move Nat)) pre post,
      moves = pre ++ post → InvitesSound env (run (inviteStep env) (inviting s requests) pre) := by
  intro h
  have hsound := h desk frontDesk frontDesk_onePending twice
    [.call 0, .call 1, .call 0, .call 1, .call 0, .call 1, .call 0, .call 1, .call 0, .call 1] _ []
    (List.append_nil _).symm
  have hone := hsound.onePending "t1" "t2" (newInvite "cyd@corp.example" .VIEWER 1000)
    (newInvite "cyd@corp.example" .VIEWER 1000) (by decide +kernel) (by decide +kernel) (by decide +kernel)
    (by decide +kernel) rfl
  exact absurd hone (by decide)

end ClusterGate.Accounts
