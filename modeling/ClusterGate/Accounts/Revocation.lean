/-
  ClusterGate.Accounts.Revocation — revoked tokens stay out (`services/sessionService.ts`,
  `services/authService.ts`, `services/userService.ts`, `middleware/authenticate.ts`).

  A token is good for as long as its session row is live and its version is its user's. The
  version in it comes from the row its login read: the one whose password was checked, or,
  after a second factor, the one read again afterwards. An operation that moves the version
  may come in between, and between the two reads of the middleware.
  - `RevocationFinal`: what a request is let through with has not been revoked since a state
    before: not its session, and, for a token issued by then or by a login that had checked
    its password by then, not its user's version.
  - `revocation_is_final`: so it is for every request let through in a run in which session
    ids are drawn afresh and no version moves in the two places (`InTime`).
  - `a_token_survives_the_password`: a password is changed between the code and the row
    that is read again.
-/

import ClusterGate.Accounts.Authenticate
import ClusterGate.Accounts.Challenge
import ClusterGate.Accounts.Users

namespace ClusterGate.Accounts

open Lib Lib.Act Async Auth

/-! ## The services that move a version -/

/-- `{ passwordHash, tokenVersion: { increment: 1 } }`. -/
def rehashed (passwordHash : String) (u : User) : User := { u with passwordHash, tokenVersion := u.tokenVersion + 1 }

def changePassword (env : Env) (userId currentPassword newPassword : String) : Service Unit := do
  let user ← await (userById userId)
  require (env.bcryptCompare currentPassword user.passwordHash) (.badRequest "Current password is incorrect")
  require (validatePassword newPassword = [])
    (.badRequest "Password does not meet requirements" (validatePassword newPassword))
  let _ ← await (updateUserRow userId (rehashed (env.bcryptHash newPassword)))

def adminResetPassword (env : Env) (id newPassword : String) : Service Unit := do
  let _ ← await (userById id)
  require (validatePassword newPassword = [])
    (.badRequest "Password does not meet requirements" (validatePassword newPassword))
  let _ ← await (updateUserRow id (rehashed (env.bcryptHash newPassword)))

/-! ## The requests -/

inductive AccountRequest
  | signIn (r : SignInRequest)
  | authenticate (options : AuthenticateOptions) (req : Request)
  | revokeSession (userId sessionId : String)
  | revokeOtherSessions (userId keepSessionId : String)
  | changePassword (userId currentPassword newPassword : String)
  | resetPassword (id newPassword : String)
  | deleteUser (id requestingUserId : String)
  | restoreUser (id : String)
  | cleanup

def account (env : Env) : AccountRequest → Service Unit
  | .signIn r => do let _ ← signIn env r
  | .authenticate options req => do let _ ← authenticateRequest env options req
  | .revokeSession userId sessionId => revokeSession userId sessionId
  | .revokeOtherSessions userId keepSessionId => revokeOtherSessions userId keepSessionId
  | .changePassword userId currentPassword newPassword => changePassword env userId currentPassword newPassword
  | .resetPassword id newPassword => adminResetPassword env id newPassword
  | .deleteUser id requestingUserId => deleteUser id requestingUserId
  | .restoreUser id => do let _ ← restoreUser id
  | .cleanup => cleanupSessions

abbrev AccountCall := Call AccountRequest Store

def accountStep (env : Env) : Pool Store AccountCall → Move Nat → Pool Store AccountCall :=
  Pool.step (Call.advance (account env)) Store.elapse

def accounts (s : Store) (requests : List AccountRequest) : Pool Store AccountCall := ⟨s, requests.map Call.start⟩

/-! ## What is to hold -/

def Store.versionOf (s : Store) (id : String) : Option Nat := (s.users.get? id).map User.tokenVersion

/-- The claims of a request's token. -/
def tokenClaims (req : Request) : Option Claims :=
  match requestToken req with
  | some (.signed claims) => some claims
  | _ => none

/-- Call `i` is a request with that token, and its next step lets it through. -/
def letsThrough (env : Env) (P : Pool Store AccountCall) (i : Nat) (claims : Claims) : Bool :=
  (P.calls[i]?).any fun c =>
    match c.request with
    | .authenticate _ req => tokenClaims req = some claims && !c.ended (account env) &&
        (Call.returned (account env) ⟨c.request, c.seen ++ [P.shared]⟩).isSome
    | _ => false

/-- A token that is accepted now has not been revoked since `before`. -/
structure RevocationFinal (before now : Store) (claims : Claims) : Prop where
  session : ∀ sid ∈ claims.sid, sid ∉ before.revokedIds
  version : ∀ m ∈ now.minted, m.claims = claims →
    (m ∈ before.minted ∨ ∃ l v, m.login = some l ∧ (l, v) ∈ before.checked) →
      before.versionOf claims.userId = now.versionOf claims.userId

theorem letsThrough_iff {env : Env} {P : Pool Store AccountCall} {i : Nat} {claims : Claims} :
    letsThrough env P i claims = true ↔ ∃ options req seen, P.calls[i]? = some ⟨.authenticate options req, seen⟩ ∧
      tokenClaims req = some claims ∧ Call.ended (account env) ⟨.authenticate options req, seen⟩ = false ∧
        Call.returned (account env) ⟨.authenticate options req, seen ++ [P.shared]⟩ = some () := by
  unfold letsThrough
  cases hc : P.calls[i]? with
  | none => exact iff_of_false (by rintro ⟨⟩) (by rintro ⟨_, _, _, ⟨⟩, _⟩)
  | some c =>
    obtain ⟨r, seen⟩ := c
    rw [Option.any_some]
    cases r with
    | authenticate options req =>
      simp only [Bool.and_eq_true, decide_eq_true_eq, Bool.not_eq_true', Option.isSome_iff_exists, and_assoc]
      constructor
      · rintro ⟨hclaims, hgoing, ⟨⟩, hthrough⟩
        exact ⟨options, req, seen, rfl, hclaims, hgoing, hthrough⟩
      · rintro ⟨options', req', seen', heq, hclaims, hgoing, hthrough⟩
        cases heq
        exact ⟨hclaims, hgoing, (), hthrough⟩
    | _ => exact iff_of_false (by rintro ⟨⟩) (by rintro ⟨_, _, _, ⟨⟩, _⟩)

/-! ## The conditions -/

def SignInRequest.sessionId : SignInRequest → String
  | .login _ _ _ sessionId _ => sessionId
  | .verify _ _ _ sessionId => sessionId

/-- The id a session is about to get is not empty, and none that was revoked. -/
def FreshSession (r : AccountRequest) (_ : List Store) (s : Store) : Prop :=
  match r with
  | .signIn r => r.sessionId ≠ "" ∧ r.sessionId ∉ s.revokedIds
  | _ => True

/-- A row is about to be read: the one read again for the session after a second factor is
    of the temp token's version, and the version has not moved between the reads of the
    middleware, if it finds the session live. -/
def InTime (env : Env) (r : AccountRequest) (seen : List Store) (s : Store) : Prop :=
  match r, seen with
  | .signIn (.verify tempToken code _ _), seen =>
    ∀ p ∈ past (confirmed env tempToken code) seen, p.2.isEmpty = true → ∀ user ∈ s.users.get? p.1.1.userId, user.isActive = true →
      p.1.1.tokenVersion = some user.tokenVersion
  | .authenticate _ req, [_, found] =>
    ∀ claims ∈ tokenClaims req, claims.sid.any s.live = true →
      s.versionOf claims.userId = found.versionOf claims.userId
  | _, _ => True

instance (r : AccountRequest) (seen : List Store) (s : Store) : Decidable (FreshSession r seen s) := by
  unfold FreshSession
  split <;> infer_instance

instance (env : Env) (r : AccountRequest) (seen : List Store) (s : Store) : Decidable (InTime env r seen s) :=
  match r, seen with
  | .signIn (.verify tempToken code _ _), seen =>
    inferInstanceAs (Decidable (∀ p ∈ past (confirmed env tempToken code) seen, p.2.isEmpty = true →
      ∀ user ∈ s.users.get? p.1.1.userId, user.isActive = true → p.1.1.tokenVersion = some user.tokenVersion))
  | .authenticate _ req, [_, found] =>
    inferInstanceAs (Decidable (∀ claims ∈ tokenClaims req, claims.sid.any s.live = true →
      s.versionOf claims.userId = found.versionOf claims.userId))
  | .signIn (.login _ _ _ _ _), _ => isTrue trivial
  | .authenticate _ _, [] => isTrue trivial
  | .authenticate _ _, [_] => isTrue trivial
  | .authenticate _ _, _ :: _ :: _ :: _ => isTrue trivial
  | .revokeSession _ _, _ => isTrue trivial
  | .revokeOtherSessions _ _, _ => isTrue trivial
  | .changePassword _ _ _, _ => isTrue trivial
  | .resetPassword _ _, _ => isTrue trivial
  | .deleteUser _ _, _ => isTrue trivial
  | .restoreUser _, _ => isTrue trivial
  | .cleanup, _ => isTrue trivial

/-! ## The records of a store -/

/-- A token carries a version its user's row is not behind, the one its login's password was
    checked with if it has a login, and a session that was revoked is not live. -/
structure TokensRecorded (s : Store) : Prop where
  minted : ∀ m ∈ s.minted, ∃ v, m.claims.tokenVersion = some v ∧ m.claims.sid ≠ some "" ∧
    (∃ w ∈ s.versionOf m.claims.userId, v ≤ w) ∧ ∀ l ∈ m.login, (l, v) ∈ s.checked ∧ l.userId = m.claims.userId
  checked : ∀ p ∈ s.checked, p.1.id < s.nextLogin ∧ ∃ v ∈ s.versionOf p.1.userId, p.2 ≤ v
  once : ∀ l v v', (l, v) ∈ s.checked → (l, v') ∈ s.checked → v = v'
  revoked : ∀ id ∈ s.revokedIds, ∀ r, s.sessions.get? id = some r → r.revokedAt.isSome = true

/-- The records grow, and so do the versions. -/
structure TokensGrow (s s' : Store) : Prop where
  minted : s.minted ⊆ s'.minted
  checked : s.checked ⊆ s'.checked
  revoked : s.revokedIds ⊆ s'.revokedIds
  versions : ∀ id, ∀ v ∈ s.versionOf id, ∃ v' ∈ s'.versionOf id, v ≤ v'

theorem TokensGrow.refl (s : Store) : TokensGrow s s :=
  ⟨List.Subset.refl _, List.Subset.refl _, List.Subset.refl _, fun _ v hv => ⟨v, hv, Nat.le_refl v⟩⟩

theorem TokensGrow.trans (s t u : Store) (h : TokensGrow s t) (h' : TokensGrow t u) : TokensGrow s u := by
  refine ⟨List.Subset.trans h.minted h'.minted, List.Subset.trans h.checked h'.checked,
    List.Subset.trans h.revoked h'.revoked, fun id v hv => ?_⟩
  obtain ⟨v', hv', hle⟩ := h.versions id v hv
  obtain ⟨v'', hv'', hle'⟩ := h'.versions id v' hv'
  exact ⟨v'', hv'', Nat.le_trans hle hle'⟩

/-- What a step does to the records. -/
abbrev KeepsTokens (s s' : Store) : Prop := TokensRecorded s → TokensRecorded s' ∧ TokensGrow s s'

section Writes

variable {s s' : Store}

theorem keepsTokens_refl (s : Store) : KeepsTokens s s := fun h => ⟨h, .refl s⟩

/-- A step that signs nothing, begins no login and revokes nothing: it keeps the versions from
    falling, and the sessions it leaves revoked if they were. -/
theorem keepsTokens_of (hm : s'.minted = s.minted) (hc : s'.checked = s.checked) (hn : s'.nextLogin = s.nextLogin)
    (hr : s'.revokedIds = s.revokedIds) (hv : ∀ id, ∀ v ∈ s.versionOf id, ∃ v' ∈ s'.versionOf id, v ≤ v')
    (hs : ∀ id r', s'.sessions.get? id = some r' → ∃ r, s.sessions.get? id = some r ∧
      (r.revokedAt.isSome = true → r'.revokedAt.isSome = true)) : KeepsTokens s s' := by
  intro h
  refine ⟨⟨fun m hmem => ?_, fun p hp => ⟨?_, ?_⟩, ?_, fun id hid r' hr' => ?_⟩, ?_⟩
  · obtain ⟨v, hversion, hsid, ⟨w, hw, hle⟩, hlogin⟩ := h.minted m (hm ▸ hmem)
    obtain ⟨w', hw', hle'⟩ := hv _ w hw
    refine ⟨v, hversion, hsid, ⟨w', hw', Nat.le_trans hle hle'⟩, ?_⟩
    rw [hc]
    exact hlogin
  · rw [hn]
    exact (h.checked p (hc ▸ hp)).1
  · obtain ⟨-, v, hv₀, hle⟩ := h.checked p (hc ▸ hp)
    obtain ⟨v', hv', hle'⟩ := hv _ v hv₀
    exact ⟨v', hv', Nat.le_trans hle hle'⟩
  · rw [hc]
    exact h.once
  · obtain ⟨r, hrow, himp⟩ := hs id r' hr'
    exact himp (h.revoked id (hr ▸ hid) r hrow)
  · exact ⟨by rw [hm]; exact List.Subset.refl _, by rw [hc]; exact List.Subset.refl _, by rw [hr]; exact List.Subset.refl _, hv⟩

theorem keepsTokens_writeUser {id : String} {f : User → User} (hf : ∀ u, u.tokenVersion ≤ (f u).tokenVersion) :
    KeepsTokens s (s.writeUser id f) := by
  refine keepsTokens_of rfl rfl rfl rfl (fun k v hv => ?_) fun k r hr => ⟨r, hr, fun h => h⟩
  obtain ⟨u, hu, rfl⟩ := Option.map_eq_some_iff.1 hv
  by_cases heq : k = id
  · refine ⟨(f u).tokenVersion, ?_, hf u⟩
    rw [Store.versionOf, Store.writeUser_users, Table.get?_modify, if_pos heq, ← heq, hu]
    rfl
  · refine ⟨u.tokenVersion, ?_, Nat.le_refl _⟩
    rw [Store.versionOf, Store.writeUser_users, Table.get?_modify, if_neg heq, hu]
    rfl

theorem keepsTokens_update {id : String} {f : User → User} (hf : ∀ u, u.tokenVersion ≤ (f u).tokenVersion) (s : Store) :
    KeepsTokens s (updateUserRow id f s).2 := by
  rw [updateUserRow_state]
  split
  · exact keepsTokens_writeUser hf
  · exact keepsTokens_refl s

theorem keepsTokens_same (hu : s'.users = s.users) (hm : s'.minted = s.minted) (hc : s'.checked = s.checked)
    (hn : s'.nextLogin = s.nextLogin) (hr : s'.revokedIds = s.revokedIds) (hs : s'.sessions = s.sessions) :
    KeepsTokens s s' := by
  refine keepsTokens_of hm hc hn hr (fun id v hv => ⟨v, ?_, Nat.le_refl v⟩) fun id r hr => ⟨r, hs ▸ hr, fun h => h⟩
  rw [Store.versionOf, hu]
  exact hv

/-- A login has checked a password. -/
theorem keepsTokens_begin {id : String} {user : User} (hrow : s.users.get? id = some user) : KeepsTokens s (s.begin id user) := by
  intro h
  refine ⟨⟨fun m hm => ?_, fun p hp => ?_, fun l v v' hl hl' => ?_, h.revoked⟩,
    List.Subset.refl _, List.subset_cons_self _ _, List.Subset.refl _, fun id v hv => ⟨v, hv, Nat.le_refl v⟩⟩
  · obtain ⟨v, hversion, hsid, hle, hlogin⟩ := h.minted m hm
    exact ⟨v, hversion, hsid, hle, fun l hl => ⟨List.mem_cons_of_mem _ (hlogin l hl).1, (hlogin l hl).2⟩⟩
  · rcases List.mem_cons.1 hp with rfl | hp
    · refine ⟨Nat.lt_succ_self _, user.tokenVersion, ?_, Nat.le_refl _⟩
      show (s.users.get? id).map User.tokenVersion = some user.tokenVersion
      rw [hrow]
      rfl
    · exact ⟨Nat.lt_succ_of_lt (h.checked p hp).1, (h.checked p hp).2⟩
  · -- The number of the new login is no other's.
    have hnew : ∀ w, (⟨s.nextLogin, id, user.twoFactorEnabled⟩, w) ∉ s.checked := fun w hmem =>
      Nat.lt_irrefl _ (h.checked _ hmem).1
    rcases List.mem_cons.1 hl with heq | hl <;> rcases List.mem_cons.1 hl' with heq' | hl'
    · exact (Prod.mk.inj (heq.trans heq'.symm)).2
    · exact absurd ((Prod.mk.inj heq).1 ▸ hl') (hnew v')
    · exact absurd ((Prod.mk.inj heq').1 ▸ hl) (hnew v)
    · exact h.once l v v' hl hl'

/-- A token is signed with a version that the row is not behind, and its login's. -/
theorem keepsTokens_sign {m : Mint} {v : Nat} (hversion : m.claims.tokenVersion = some v) (hsid : m.claims.sid ≠ some "")
    (hle : ∃ w ∈ s.versionOf m.claims.userId, v ≤ w) (hlogin : ∀ l ∈ m.login, (l, v) ∈ s.checked ∧ l.userId = m.claims.userId) :
    KeepsTokens s (s.sign m) := by
  intro h
  refine ⟨⟨fun m' hm' => ?_, h.checked, h.once, h.revoked⟩, List.subset_cons_self _ _, List.Subset.refl _,
    List.Subset.refl _, fun id v hv => ⟨v, hv, Nat.le_refl v⟩⟩
  rcases List.mem_cons.1 hm' with rfl | hm'
  · exact ⟨v, hversion, hsid, hle, hlogin⟩
  · exact h.minted m' hm'

theorem keepsTokens_startSession {env : Env} {userId : String} {user : User} {ctx : SessionContext} {sessionId : String}
    {startedAt : Nat} {login : Option Login} (hle : ∃ w ∈ s.versionOf userId, user.tokenVersion ≤ w)
    (hlogin : ∀ l ∈ login, (l, user.tokenVersion) ∈ s.checked ∧ l.userId = userId)
    (hid : sessionId ≠ "") (hfresh : sessionId ∉ s.revokedIds) (hfree : s.sessions.get? sessionId = none) :
    KeepsTokens s (s.startSession env userId user ctx sessionId startedAt login) := by
  intro h
  obtain ⟨h', hgrow⟩ := @keepsTokens_sign s ⟨sessionClaims env s.now userId user sessionId, login⟩ user.tokenVersion rfl
    (fun heq => hid (Option.some.inj heq)) hle hlogin h
  refine ⟨⟨h'.minted, h'.checked, h'.once, fun id hrevoked r hr => ?_⟩, hgrow.minted, hgrow.checked, hgrow.revoked, hgrow.versions⟩
  replace hr : (s.sessions.insert sessionId (newSession env startedAt userId ctx)).get? id = some r := hr
  rw [Table.get?_insert hfree, if_neg] at hr
  · exact h.revoked id hrevoked r hr
  · rintro rfl
    exact hfresh hrevoked

/-- Sessions are revoked. -/
theorem keepsTokens_revoke {p : String → Session → Bool} {ids : List String}
    (hp : ∀ id ∈ ids, ∀ r, s.sessions.get? id = some r → p id r = true) : KeepsTokens s (s.revokeSessions p ids) := by
  intro h
  refine ⟨⟨h.minted, h.checked, h.once, fun id hid r' hr' => ?_⟩, List.Subset.refl _, List.Subset.refl _,
    List.subset_append_right _ _, fun id v hv => ⟨v, hv, Nat.le_refl v⟩⟩
  replace hr' : (s.sessions.mapRows fun id r => if p id r then Session.revoked s.now r else r).get? id = some r' := hr'
  rw [Table.get?_mapRows] at hr'
  obtain ⟨r, hrow, rfl⟩ := Option.map_eq_some_iff.1 hr'
  have hrevoked : (Session.revoked s.now r).revokedAt.isSome = true := by
    unfold Session.revoked
    split
    · rfl
    · rename_i hnone
      exact Option.isSome_iff_ne_none.2 fun heq => hnone (Option.isNone_iff_eq_none.2 heq)
  split
  · exact hrevoked
  · rename_i hnot
    rcases List.mem_append.1 hid with hid | hid
    · exact absurd (hp id hid r hrow) hnot
    · exact h.revoked id hid r hrow

end Writes

theorem KeepsTokens.trans {s t u : Store} (h : KeepsTokens s t) (h' : KeepsTokens t u) : KeepsTokens s u := by
  intro hs
  obtain ⟨ht, hgrow⟩ := h hs
  obtain ⟨hu, hgrow'⟩ := h' ht
  exact ⟨hu, hgrow.trans s t u hgrow'⟩

/-- The login a token was minted for. -/
theorem loginOf_recorded {s : Store} {payload : Claims} (h : TokensRecorded s) (hm : ∃ m ∈ s.minted, m.claims = payload) :
    ∃ v, payload.tokenVersion = some v ∧ (∃ w ∈ s.versionOf payload.userId, v ≤ w) ∧
      ∀ l ∈ loginOf s.toState payload, (l, v) ∈ s.checked ∧ l.userId = payload.userId := by
  obtain ⟨m, hfind⟩ : ∃ m, (s.minted.find? fun m => m.claims = payload) = some m := by
    obtain ⟨m, hmem, hclaims⟩ := hm
    exact Option.isSome_iff_exists.1 (List.find?_isSome.2 ⟨m, hmem, decide_eq_true hclaims⟩)
  have hclaims := List.find?_some hfind
  obtain rfl : m.claims = payload := of_decide_eq_true hclaims
  obtain ⟨v, hversion, -, hle, hlogin⟩ := h.minted m (List.mem_of_find?_eq_some hfind)
  refine ⟨v, hversion, hle, fun l hl => hlogin l ?_⟩
  rw [loginOf, hfind] at hl
  exact hl

/-! ## Steps -/

/-- What a request's step does. -/
def AccountStep (env : Env) : AccountRequest → List Store → Store → Store → Prop
  | .signIn r => SignInStep env r
  | .authenticate _ _ => fun _ => AuthStep
  | _ => fun _ => KeepsTokens

section Programs

variable (env : Env)

theorem userById_keeps (id : String) : EveryStep KeepsTokens (await (userById id)) := by
  refine everyStep_await fun s => ?_
  rw [userById_state]
  exact keepsTokens_refl s

theorem guardLastAdmin_keeps (guarded : Bool) (message : String) : EveryStep KeepsTokens (guardLastAdmin guarded message) := by
  unfold guardLastAdmin
  split
  · exact everyStep_bind (everyStep_await keepsTokens_refl) fun _ => everyStep_require _ _
  · exact everyStep_pure _

theorem revokeSession_keeps (userId sessionId : String) : EveryStep KeepsTokens (revokeSession userId sessionId) := by
  refine everyStep_bind (everyStep_await fun s => ?_) fun _ => everyStep_bind (everyStep_await fun s => ?_) fun _ =>
    everyStep_await fun s => keepsTokens_same rfl rfl rfl rfl rfl rfl
  · rw [sessionOf_state]
    exact keepsTokens_refl s
  · refine keepsTokens_revoke fun id hid r _ => ?_
    rw [List.mem_singleton.1 hid]
    exact decide_eq_true rfl

theorem revokeOtherSessions_keeps (userId keepSessionId : String) :
    EveryStep KeepsTokens (revokeOtherSessions userId keepSessionId) := by
  refine everyStep_await fun s => keepsTokens_revoke fun id hid r hr => ?_
  obtain ⟨⟨id', r'⟩, hmem, rfl⟩ := List.mem_map.1 hid
  have hrow := Table.mem_rows_iff.1 hmem
  rw [Table.get?_filter, Option.filter_eq_some_iff] at hrow
  obtain rfl := Option.some.inj (hr.symm.trans hrow.1)
  exact hrow.2

/-- The last step of a service that moves a version. -/
theorem moveVersion_keeps {id : String} {f : User → User} (hf : ∀ u, u.tokenVersion ≤ (f u).tokenVersion) :
    EveryStep KeepsTokens (do let _ ← await (updateUserRow id f) : Service Unit) :=
  everyStep_bind (everyStep_await (keepsTokens_update hf)) fun _ => everyStep_pure _

theorem changePassword_keeps (userId currentPassword newPassword : String) :
    EveryStep KeepsTokens (changePassword env userId currentPassword newPassword) := by
  unfold changePassword
  -- the findings are compared, not worked out
  generalize validatePassword newPassword = findings
  refine everyStep_bind (userById_keeps userId) fun user => ?_
  refine everyStep_bind (everyStep_require _ _) fun _ => ?_
  refine everyStep_bind (everyStep_require _ _) fun _ => ?_
  exact moveVersion_keeps fun u => Nat.le_succ u.tokenVersion

theorem adminResetPassword_keeps (id newPassword : String) :
    EveryStep KeepsTokens (adminResetPassword env id newPassword) := by
  unfold adminResetPassword
  generalize validatePassword newPassword = findings
  refine everyStep_bind (userById_keeps id) fun _ => ?_
  refine everyStep_bind (everyStep_require _ _) fun _ => ?_
  exact moveVersion_keeps fun u => Nat.le_succ u.tokenVersion

theorem deleteUser_keeps (id requestingUserId : String) : EveryStep KeepsTokens (deleteUser id requestingUserId) := by
  unfold deleteUser
  refine everyStep_bind (everyStep_require _ _) fun _ => ?_
  refine everyStep_bind (userById_keeps id) fun user => ?_
  refine everyStep_bind (guardLastAdmin_keeps _ _) fun _ => ?_
  exact moveVersion_keeps fun u => Nat.le_succ u.tokenVersion

theorem restoreUser_keeps (id : String) : EveryStep KeepsTokens (restoreUser id) :=
  everyStep_bind (userById_keeps id) fun _ => everyStep_bind (everyStep_require _ _) fun _ =>
    everyStep_await (keepsTokens_update fun _ => Nat.le_refl _)

theorem cleanupSessions_keeps : EveryStep KeepsTokens cleanupSessions := by
  refine everyStep_bind (everyStep_await keepsTokens_refl) fun now => everyStep_await fun s => ?_
  refine keepsTokens_of rfl rfl rfl rfl (fun id v hv => ⟨v, hv, Nat.le_refl v⟩) fun id r hr => ⟨r, ?_, fun h => h⟩
  replace hr : (s.sessions.filter _).get? id = some r := hr
  rw [Table.get?_filter, Option.filter_eq_some_iff] at hr
  exact hr.1

theorem tells_account (r : AccountRequest) : Tells (AccountStep env r) (fun _ _ => True) [] (account env r) := by
  have hkeeps : ∀ {x : Service Unit}, EveryStep KeepsTokens x → Tells (fun _ => KeepsTokens) (fun _ _ => True) [] x :=
    fun h => tells_everyStep h
  cases r with
  | signIn r =>
    rw [account, tells_bind]
    exact tells_mono (tells_signIn env r) (fun _ _ _ h => h) fun _ _ _ => trivial
  | authenticate options req =>
    rw [account, tells_bind]
    exact tells_mono (tells_authenticateRequest env options req) (fun _ _ _ h => h) fun _ _ _ => trivial
  | revokeSession userId sessionId => exact hkeeps (revokeSession_keeps userId sessionId)
  | revokeOtherSessions userId keepSessionId => exact hkeeps (revokeOtherSessions_keeps userId keepSessionId)
  | changePassword userId currentPassword newPassword => exact hkeeps (changePassword_keeps env userId currentPassword newPassword)
  | resetPassword id newPassword => exact hkeeps (adminResetPassword_keeps env id newPassword)
  | deleteUser id requestingUserId => exact hkeeps (deleteUser_keeps id requestingUserId)
  | restoreUser id => exact hkeeps (everyStep_bind (restoreUser_keeps id) fun _ => everyStep_pure _)
  | cleanup => exact hkeeps cleanupSessions_keeps

end Programs

/-! ## Calls -/

/-- The login whose password a call has checked is recorded. -/
def LoginBegun (env : Env) (s : Store) (r : AccountRequest) (seen : List Store) : Prop :=
  match r, seen with
  | .signIn (.login email password _ _ _), s₀ :: _ =>
    ∀ id user, PasswordRight env email password s₀ id user → (loginAt s₀ id user, user.tokenVersion) ∈ s.checked
  | _, _ => True

structure TokenOk (env : Env) (s : Store) (c : AccountCall) : Prop where
  saw : c.Saw TokensRecorded TokensGrow s
  inTime : c.Under (InTime env)
  begun : LoginBegun env s c.request c.seen

section Calls

variable {env : Env} {seen : List Store} {s s' : Store}

theorem LoginBegun.later {r : AccountRequest} (h : LoginBegun env s r seen) (hgrow : TokensGrow s s') :
    LoginBegun env s' r seen := by
  unfold LoginBegun at h ⊢
  split at h
  · exact fun id user right => hgrow.checked (h id user right)
  · trivial

theorem keepsTokens_verify {userId token : String} {nonce : Option String}
    (step : VerifyStep env userId token nonce seen s s') : KeepsTokens s s' := by
  cases step with
  | read => exact keepsTokens_refl s
  | clock => exact keepsTokens_refl s
  | gone => exact keepsTokens_refl s
  | success _ _ _ user secret codes =>
    refine KeepsTokens.trans (t := s.writeUser userId (succeeded codes)) ?_ (keepsTokens_same rfl rfl rfl rfl rfl rfl)
    exact keepsTokens_writeUser fun _ => Nat.le_refl _
  | failure => exact keepsTokens_writeUser fun _ => Nat.le_refl _
  | again => exact keepsTokens_refl s
  | lockout => exact keepsTokens_writeUser fun _ => Nat.le_refl _

theorem keepsTokens_login {email password sessionId nonce : String} {ctx : SessionContext} (hs : TokensRecorded s)
    (hbegun : LoginBegun env s (.signIn (.login email password ctx sessionId nonce)) seen)
    (hfresh : FreshSession (.signIn (.login email password ctx sessionId nonce)) seen s)
    (step : LoginStep env email password ctx sessionId nonce seen s s') : KeepsTokens s s' := by
  have hlogin : ∀ {s₀ id user}, (loginAt s₀ id user, user.tokenVersion) ∈ s.checked →
      (∃ w ∈ s.versionOf id, user.tokenVersion ≤ w) ∧
        ∀ l ∈ some (loginAt s₀ id user), (l, user.tokenVersion) ∈ s.checked ∧ l.userId = id := by
    intro s₀ id user hmem
    refine ⟨(hs.checked _ hmem).2, fun l hl => ?_⟩
    obtain rfl := Option.some.inj hl
    exact ⟨hmem, rfl⟩
  cases step with
  | refused => exact keepsTokens_refl s
  | same => exact keepsTokens_refl s
  | password _ id user right => exact keepsTokens_begin (Table.find?_some right.found).1
  | loggedIn => exact keepsTokens_writeUser fun _ => Nat.le_refl _
  | session s₀ s₁ s₂ _ id user right free =>
    obtain ⟨hle, hl⟩ := hlogin (hbegun id user right)
    exact keepsTokens_startSession hle hl hfresh.1 hfresh.2 free
  | challenge _ _ id =>
    refine KeepsTokens.trans (t := s.writeUser id (challengedWith nonce)) ?_ (keepsTokens_same rfl rfl rfl rfl rfl rfl)
    exact keepsTokens_writeUser fun _ => Nat.le_refl _
  | signed s₀ s₁ _ id user right =>
    obtain ⟨hle, hl⟩ := hlogin (hbegun id user right)
    exact keepsTokens_sign rfl (by rintro ⟨⟩) hle hl

theorem keepsTokens_twoFactor {tempToken : Token} {code sessionId : String} {ctx : SessionContext}
    (hok : TokenOk env s ⟨.signIn (.verify tempToken code ctx sessionId), seen⟩)
    (hfresh : FreshSession (.signIn (.verify tempToken code ctx sessionId)) seen s)
    (step : TwoFactorStep env tempToken code ctx sessionId seen s s') : KeepsTokens s s' := by
  cases step with
  | confirm _ _ _ unconfirmed step =>
    cases step with
    | token => exact keepsTokens_refl s
    | check => exact keepsTokens_refl s
    | verify s₀ s₁ more _ _ payload login challenged step => exact keepsTokens_verify step
  | finish pre more _ _ payload login done hpast step =>
    cases step with
    | same => exact keepsTokens_refl s
    | passed => exact keepsTokens_same rfl rfl rfl rfl rfl rfl
    | loggedIn => exact keepsTokens_writeUser fun _ => Nat.le_refl _
    | session found touched clocked _ user row active free =>
      cases done with
      | right s₀ s₁ confirming _ _ challenged _ =>
        obtain ⟨hs₀, hgrow⟩ := hok.saw s₀ List.mem_cons_self
        obtain ⟨v, hversion, ⟨w, hw, hle⟩, hlogin⟩ := loginOf_recorded hs₀ challenged.minted
        obtain rfl := challenged.login_eq
        -- The row read again is of the temp token's version.
        have hread := hok.inTime (s₀ :: s₁ :: confirming) found ⟨[touched, clocked], List.append_assoc _ _ _⟩
        have hpre := hpast []
        rw [List.append_nil] at hpre
        have hagain := hread _ hpre rfl user row active
        obtain rfl : v = user.tokenVersion := Option.some.inj (hversion.symm.trans hagain)
        obtain ⟨w', hw', hle'⟩ := hgrow.versions _ w hw
        exact keepsTokens_startSession ⟨w', hw', Nat.le_trans hle hle'⟩
          (fun l hl => ⟨hgrow.checked (hlogin l hl).1, (hlogin l hl).2⟩) hfresh.1 hfresh.2 free

theorem keepsTokens_auth (step : AuthStep s s') : KeepsTokens s s' := by
  cases step with
  | same => exact keepsTokens_refl s
  | touch sid ip =>
    refine keepsTokens_of rfl rfl rfl rfl (fun id v hv => ⟨v, hv, Nat.le_refl v⟩) fun id r' hr' => ?_
    replace hr' : (s.sessions.modify sid fun r => r.seen s.now ip).get? id = some r' := hr'
    rw [Table.get?_modify] at hr'
    by_cases heq : id = sid
    · rw [if_pos heq] at hr'
      obtain ⟨r, hr, rfl⟩ := Option.map_eq_some_iff.1 hr'
      exact ⟨r, heq ▸ hr, fun h => h⟩
    · rw [if_neg heq] at hr'
      exact ⟨r', hr', fun h => h⟩

theorem keepsTokens_step {r : AccountRequest} (hs : TokensRecorded s) (hok : TokenOk env s ⟨r, seen⟩) (hfresh : FreshSession r seen s)
    (step : AccountStep env r seen s s') : KeepsTokens s s' := by
  cases r with
  | signIn r =>
    cases r with
    | login email password ctx sessionId nonce => exact keepsTokens_login hs hok.begun hfresh step
    | verify tempToken code ctx sessionId => exact keepsTokens_twoFactor hok hfresh step
  | authenticate options req => exact keepsTokens_auth step
  | revokeSession => exact step
  | revokeOtherSessions => exact step
  | changePassword => exact step
  | resetPassword => exact step
  | deleteUser => exact step
  | restoreUser => exact step
  | cleanup => exact step

/-- The step that checks a password records the login. -/
theorem loginBegun_step {r : AccountRequest} (h : LoginBegun env s r seen) (hgrow : TokensGrow s s')
    (step : AccountStep env r seen s s') : LoginBegun env s' r (seen ++ [s]) := by
  match r, seen, h, step with
  | .signIn (.login email password ctx sessionId nonce), [], _, step =>
    intro id user right
    cases step with
    | refused _ wrong => exact absurd right (wrong id user)
    | password _ id' user' right' =>
      obtain ⟨rfl, rfl⟩ := Prod.mk.inj (Option.some.inj (right.found.symm.trans right'.found))
      exact List.mem_cons_self
  | .signIn (.login email password ctx sessionId nonce), s₀ :: _, h, _ => exact fun id user right => hgrow.checked (h id user right)
  | .signIn (.verify ..), _, _, _ => trivial
  | .authenticate .., _, _, _ => trivial
  | .revokeSession .., _, _, _ => trivial
  | .revokeOtherSessions .., _, _, _ => trivial
  | .changePassword .., _, _, _ => trivial
  | .resetPassword .., _, _, _ => trivial
  | .deleteUser .., _, _, _ => trivial
  | .restoreUser .., _, _, _ => trivial
  | .cleanup, _, _, _ => trivial

theorem tokenOk_later {c : AccountCall} (hgrow : TokensGrow s s') (h : TokenOk env s c) : TokenOk env s' c :=
  ⟨h.saw.later TokensGrow.trans hgrow, h.inTime, h.begun.later hgrow⟩

/-- The conditions at the steps a call has taken are those at its steps up to now. -/
theorem tokenOk_concat {c : AccountCall} (hs : TokensRecorded s) (hok : TokenOk env s c) (hgrow : TokensGrow s s')
    (hin : InTime env c.request c.seen s) (step : AccountStep env c.request c.seen s s') :
    TokenOk env s' ⟨c.request, c.seen ++ [s]⟩ :=
  ⟨hok.saw.concat TokensGrow.trans hs hgrow, hok.inTime.concat hin, loginBegun_step hok.begun hgrow step⟩

end Calls

/-! ## Runs -/

section Runs

variable {env : Env} {P : Pool Store AccountCall}

/-- The conditions of both kinds. -/
abbrev Orderly (env : Env) : Pool Store AccountCall → Move Nat → Prop :=
  Pool.AtStep (account env) fun r seen s => FreshSession r seen s ∧ InTime env r seen s

theorem elapse_keeps (ms : Nat) (s : Store) : KeepsTokens s (s.elapse ms) := keepsTokens_same rfl rfl rfl rfl rfl rfl

theorem tokens_step (h : P.Holds TokensRecorded (TokenOk env)) (m : Move Nat) (hm : Orderly env P m) :
    (accountStep env P m).Holds TokensRecorded (TokenOk env) := by
  have hlater : ∀ s s' c, TokensGrow s s' → TokenOk env s c → TokenOk env s' c := fun _ _ _ => tokenOk_later
  refine Pool.holds_step hlater elapse_keeps ?_ h m hm
  intro c s hg hs hok hC
  have hstep := tells_step (tells_account env c.request) hg s
  obtain ⟨hs', hgrow⟩ := keepsTokens_step hs hok hC.1 hstep hs
  exact ⟨hs', hgrow, tokenOk_concat hs hok hgrow hC.2 hstep⟩

/-- The records of a run grow. -/
theorem tokens_grow (h : P.Holds TokensRecorded (TokenOk env)) {ms : List (Move Nat)}
    (hms : Along (accountStep env) (Orderly env) P ms) :
    (run (accountStep env) P ms).Holds TokensRecorded (TokenOk env) ∧
      TokensGrow P.shared (run (accountStep env) P ms).shared := by
  refine run_keeps (I := fun P' => P'.Holds TokensRecorded (TokenOk env) ∧ TokensGrow P.shared P'.shared) ?_ ⟨h, .refl _⟩ hms
  rintro P' m ⟨h', hgrow⟩ hm
  refine ⟨tokens_step h' m hm, hgrow.trans _ _ _ ?_⟩
  cases m with
  | other ms => exact (elapse_keeps ms P'.shared h'.shared).2
  | call i =>
    cases hc : P'.calls[i]? with
    | none =>
      rw [accountStep, Pool.step_none hc]
      exact .refl _
    | some c =>
      cases hg : c.ended (account env) with
      | true =>
        rw [accountStep, Pool.step_ended hc hg]
        exact .refl _
      | false =>
        have hstep := tells_step (tells_account env c.request) hg P'.shared
        rw [accountStep, Pool.step_going hc hg]
        exact (keepsTokens_step h'.shared (h'.at hc) ((Pool.atStep_going hc hg).1 hm).1 hstep h'.shared).2

/-- What a token says that is accepted while its session is live and its version its user's. -/
theorem final_of_current {before now : Store} {claims : Claims} (hb : TokensRecorded before) (hn : TokensRecorded now)
    (hgrow : TokensGrow before now) (hm : ∃ m ∈ now.minted, m.claims = claims)
    (hversion : ∀ v, claims.tokenVersion = some v → now.versionOf claims.userId = some v)
    (hsession : ∀ sid ∈ claims.sid, sid ≠ "" → now.live sid = true) : RevocationFinal before now claims := by
  refine ⟨fun sid hsid hrevoked => ?_, fun m hmem hclaims hsince => ?_⟩
  · obtain ⟨m, hmem, rfl⟩ := hm
    obtain ⟨-, -, hne, -⟩ := hn.minted m hmem
    obtain ⟨r, hr, hnone⟩ := live_row (hsession sid hsid fun heq => hne (heq ▸ hsid))
    have hsome := hn.revoked sid (hgrow.revoked hrevoked) r hr
    rw [hnone] at hsome
    cases hsome
  · obtain rfl := hclaims
    obtain ⟨v, hv, -, -, hlogin⟩ := hn.minted m hmem
    have hnow := hversion v hv
    -- The version was `v` before at the least, and is `v` now.
    have hbefore : ∃ w ∈ before.versionOf m.claims.userId, v ≤ w := by
      rcases hsince with hsince | ⟨l, v', hl, hlv'⟩
      · obtain ⟨v', hv', -, hle, -⟩ := hb.minted m hsince
        obtain rfl := Option.some.inj (hv.symm.trans hv')
        exact hle
      · obtain ⟨hlv, huser⟩ := hlogin l hl
        obtain rfl := hn.once l v v' hlv (hgrow.checked hlv')
        rw [← huser]
        exact (hb.checked _ hlv').2
    obtain ⟨w, hw, hle⟩ := hbefore
    obtain ⟨w', hw', hle'⟩ := hgrow.versions _ w hw
    obtain rfl : w' = v := Option.some.inj (hw'.symm.trans hnow)
    obtain rfl : w = w' := Nat.le_antisymm hle' hle
    exact hw.trans hnow.symm

end Runs

theorem revocation_is_final (env : Env) (s : Store) (hs : TokensRecorded s) (requests : List AccountRequest)
    (moves : List (Move Nat))
    (hfresh : Along (accountStep env) (Pool.AtStep (account env) FreshSession) (accounts s requests) moves)
    (htime : Along (accountStep env) (Pool.AtStep (account env) (InTime env)) (accounts s requests) moves) :
    ∀ earlier later i post claims, moves = earlier ++ later ++ .call i :: post →
      letsThrough env (run (accountStep env) (accounts s requests) (earlier ++ later)) i claims = true →
        RevocationFinal (run (accountStep env) (accounts s requests) earlier).shared
          (run (accountStep env) (accounts s requests) (earlier ++ later)).shared claims := by
  rintro earlier later i post claims rfl h
  have horderly : Along (accountStep env) (Orderly env) (accounts s requests) (earlier ++ later ++ .call i :: post) := by
    refine along_of (I := fun _ => True) (C := fun P m => Pool.AtStep (account env) FreshSession P m ∧
      Pool.AtStep (account env) (InTime env) P m) ?_ trivial (along_and.2 ⟨hfresh, htime⟩)
    rintro P m - ⟨hf, ht⟩
    refine ⟨?_, trivial⟩
    cases m with
    | other ms => trivial
    | call j => exact fun c hc hg => ⟨hf c hc hg, ht c hc hg⟩
  have hstart : (accounts s requests).Holds TokensRecorded (TokenOk env) := by
    refine ⟨hs, fun c hc => ?_⟩
    obtain ⟨r, -, rfl⟩ := List.mem_map.1 hc
    refine ⟨fun t ht => ?_, Call.under_start r, ?_⟩
    · cases ht
    · show LoginBegun env s r []
      unfold LoginBegun
      split
      · rename_i heq
        cases heq
      · trivial
  obtain ⟨hbefore, -⟩ := tokens_grow hstart (along_append.1 (along_append.1 horderly).1).1
  obtain ⟨hnow, hgrow⟩ := tokens_grow hbefore (along_append.1 (along_append.1 horderly).1).2
  rw [← run_append] at hnow hgrow
  generalize hP : run (accountStep env) (accounts s requests) (earlier ++ later) = P at *
  obtain ⟨options, req, seen, hcall, hclaims, hgoing, hthrough⟩ := letsThrough_iff.1 h
  have hin : InTime env (.authenticate options req) seen P.shared := by
    have hat := along_at htime
    rw [hP] at hat
    exact hat _ hcall hgoing
  have htells : Tells (fun _ => AuthStep) (fun seen _ => Authenticated req seen) [] (account env (.authenticate options req)) := by
    rw [account, tells_bind]
    exact tells_mono (tells_authenticateRequest env options req) (fun _ _ _ h => h) fun _ _ h => h
  have hdone := tells_returns htells hgoing (Call.returned_iff.1 hthrough)
  have hsaw := (hnow.at hcall).saw
  have hminted : ∀ s₀ ∈ seen, ∀ payload, Presented req s₀ payload → payload = claims ∧ ∃ m ∈ P.shared.minted, m.claims = claims := by
    intro s₀ hs₀ payload hpresented
    obtain rfl : payload = claims := by
      rw [tokenClaims, hpresented.token] at hclaims
      exact Option.some.inj hclaims
    obtain ⟨m, hm, hpayload⟩ := hpresented.minted
    exact ⟨rfl, m, (hsaw s₀ hs₀).2.minted hm, hpayload⟩
  have hversion : ∀ {s₁ : Store} {user : User}, Current claims s₁ user → ∀ v, claims.tokenVersion = some v →
      s₁.versionOf claims.userId = some v := by
    intro s₁ user hcurrent v hv
    have huser : some v = some user.tokenVersion := (hcurrent.version.resolve_left (by rw [hv]; rintro ⟨⟩)) ▸ hv.symm
    rw [Store.versionOf, hcurrent.row, huser]
    rfl
  generalize hall : seen ++ [P.shared] = all at hdone
  cases hdone with
  | bare s₀ s₁ payload user presented current unnamed =>
    obtain ⟨rfl, hlast⟩ := List.append_inj' (show seen ++ [P.shared] = [s₀] ++ [s₁] from hall) rfl
    obtain rfl : P.shared = s₁ := (List.cons.inj hlast).1
    obtain ⟨rfl, hm⟩ := hminted s₀ List.mem_cons_self payload presented
    refine final_of_current hbefore.shared hnow.shared hgrow hm (hversion current) fun sid hsid hne => ?_
    rw [hsid, Option.filter_some, if_pos (decide_eq_true hne)] at unnamed
    cases unnamed
  | session s₀ s₁ s₂ payload user sid presented current named live =>
    obtain ⟨rfl, hlast⟩ := List.append_inj' (show seen ++ [P.shared] = [s₀, s₁] ++ [s₂] from hall) rfl
    obtain rfl : P.shared = s₂ := (List.cons.inj hlast).1
    obtain ⟨rfl, hm⟩ := hminted s₀ List.mem_cons_self payload presented
    have hmoved := hin payload hclaims (by rw [named]; exact live)
    refine final_of_current hbefore.shared hnow.shared hgrow hm (fun v hv => ?_) fun sid' hsid _ => ?_
    · rw [hmoved]
      exact hversion current v hv
    · obtain rfl := Option.some.inj (named.symm.trans hsid)
      exact live

/-! ## A token that survives the password -/

theorem withBea_tokens : TokensRecorded withBea := by
  refine ⟨fun m hm => ?_, fun p hp => ?_, fun l v v' hl => ?_, fun id hid => ?_⟩
  · cases hm
  · cases hp
  · cases hl
  · cases hid

/-- The session token of the verification, with that version. -/
def beaToken (tokenVersion : Nat) : Claims :=
  sessionClaims authenticator 1000 "bea"
    { email := "bea@corp.example", passwordHash := "", name := "Bea", role := .VIEWER, isActive := true, tokenVersion } "s1"

/-- Bea signs in, her password is changed, and a request comes with the session token. -/
def changed (tokenVersion : Nat) : List AccountRequest :=
  [.signIn (.login "bea@corp.example" "secret" {} "s0" "n1"),
   .signIn (.verify (.signed (challengeClaims 1000 "bea" "n1" 0)) "123456" {} "s1"),
   .changePassword "bea" "secret" "Correct-Horse-7",
   .authenticate {} { method := "GET", authorization := some (.bearer (.signed (beaToken tokenVersion))) }]

/-- A request that is let through before the password is changed. -/
theorem a_token_before_the_password :
    RevocationFinal (run (accountStep authenticator) (accounts withBea (changed 0)) (List.replicate 3 (.call 0))).shared
      (run (accountStep authenticator) (accounts withBea (changed 0))
        (List.replicate 3 (.call 0) ++ (List.replicate 9 (.call 1) ++ [.call 3, .call 3]))).shared (beaToken 0) :=
  revocation_is_final authenticator withBea withBea_tokens (changed 0)
    (List.replicate 3 (.call 0) ++ (List.replicate 9 (.call 1) ++ [.call 3, .call 3]) ++ [.call 3, .call 2, .call 2])
    (by decide +kernel) (by decide +kernel) _ _ 3 [.call 2, .call 2] _ rfl (by decide +kernel)

theorem a_token_survives_the_password :
    ¬∀ (env : Env) (s : Store), TokensRecorded s → ∀ (requests : List AccountRequest) (moves : List (Move Nat)),
      Along (accountStep env) (Pool.AtStep (account env) FreshSession) (accounts s requests) moves →
        ∀ earlier later i post claims, moves = earlier ++ later ++ .call i :: post →
          letsThrough env (run (accountStep env) (accounts s requests) (earlier ++ later)) i claims = true →
            RevocationFinal (run (accountStep env) (accounts s requests) earlier).shared
              (run (accountStep env) (accounts s requests) (earlier ++ later)).shared claims := by
  intro h
  have hfinal := h authenticator withBea withBea_tokens (changed 1)
    (List.replicate 3 (.call 0) ++ (List.replicate 5 (.call 1) ++ [.call 2, .call 2] ++ List.replicate 4 (.call 1) ++
      [.call 3, .call 3]) ++ [.call 3]) (by decide +kernel) _ _ 3 [] (beaToken 1) rfl (by decide +kernel)
  have hversion := hfinal.version ⟨beaToken 1, some ⟨0, "bea", true⟩⟩ (by decide +kernel) rfl
    (.inr ⟨⟨0, "bea", true⟩, 0, rfl, by decide +kernel⟩)
  revert hversion
  decide +kernel

end ClusterGate.Accounts
