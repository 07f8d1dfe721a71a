/-
  ClusterGate.Accounts.TwoFactor — the second factor step by step
  (`services/twoFactorService.ts`).

  A code is checked against the row that was read first: the lock, the secret, the recovery
  codes and the number of failures are all from that moment, and so is what is written back.
  The comparisons in between take their time but no database step.
  - `verifies`: what each step of a call does, told from what it has seen.
-/

import ClusterGate.Accounts.Sessions

namespace ClusterGate.Accounts

open Lib Lib.Act Async Auth

/-- The row of a user who has the second factor enabled, and the secret. -/
def enrolled (userId : String) : Query (User × String) := do
  let user ← userById userId
  let secret ← orThrow (if user.twoFactorEnabled then user.twoFactorSecret.filter (· ≠ "") else none)
    (.badRequest "Two-factor authentication is not enabled")
  pure (user, secret)

/-- What a success leaves of a row. -/
def succeeded (recoveryCodes : List String) (u : User) : User :=
  { u with recoveryCodes, twoFactorFailedAttempts := 0, twoFactorLockedUntil := none, twoFactorChallenge := none }

/-- `onVerifySuccess`; `nonce` is the challenge the code answers, for the model's record. -/
def onVerifySuccess (userId : String) (recoveryCodes : List String) (nonce : Option String) : Service Unit :=
  await do
    let _ ← updateUserRow userId (succeeded recoveryCodes)
    modify fun s => { s with verified := nonce.toList ++ s.verified }

/-- What the failure after `currentAttempts` others leaves of a row. -/
def failed (currentAttempts : Nat) (u : User) : User := { u with twoFactorFailedAttempts := currentAttempts + 1 }

/-- The failure that locks. -/
def lockedOut (now : Nat) (u : User) : User :=
  { u with twoFactorFailedAttempts := 0, twoFactorLockedUntil := some (now + LOCKOUT_MS) }

def onVerifyFailure (userId : String) (currentAttempts : Nat) : Service Unit :=
  if currentAttempts + 1 ≥ MAX_2FA_ATTEMPTS then do
    let now ← await clock
    let _ ← await (updateUserRow userId (lockedOut now))
  else do
    let _ ← await (updateUserRow userId (failed currentAttempts))

def tooManyAttempts (lockedUntil now : Nat) : Err :=
  .tooManyRequests ("Too many failed 2FA attempts. Try again in " ++ toString ((lockedUntil - now + 59999) / 60000) ++
    " minute(s).")

/-- `twoFactorService.verifyToken`. -/
def verify2FAToken (env : Env) (userId token : String) (nonce : Option String) : Service Bool := do
  let (user, secret) ← await (enrolled userId)
  let now ← await clock
  require (user.twoFactorLockedUntil.getD 0 ≤ now) (tooManyAttempts (user.twoFactorLockedUntil.getD 0) now)
  if env.totpValidate secret user.email token now = true then do
    onVerifySuccess userId user.recoveryCodes nonce
    pure true
  else match useRecoveryCode env token user.recoveryCodes with
    | some codes => do
      onVerifySuccess userId codes nonce
      pure true
    | none => do
      onVerifyFailure userId user.twoFactorFailedAttempts
      pure false

/-! ## What each step does -/

theorem enrolled_state (id : String) (s : Store) : (enrolled id s).2 = s := by
  refine wp_final (P := fun t => t = s) ?_
  simp only [enrolled, userById, wp_bind, wp_findUser, wp_orThrow, wp_pure, implies_true, and_self]

/-- A user with the second factor enabled. -/
structure Enrolled (s : Store) (userId : String) (user : User) (secret : String) : Prop where
  row : s.users.get? userId = some user
  enabled : user.twoFactorEnabled = true
  stored : user.twoFactorSecret = some secret
  nonempty : secret ≠ ""

theorem enrolled_ok {id secret : String} {s : Store} {user : User} (h : (enrolled id s).1 = .ok (user, secret)) :
    Enrolled s id user secret := by
  have hwp : wp (enrolled id) (fun p t => Enrolled s id p.1 p.2) (fun _ _ => True) s := by
    simp only [enrolled, userById, wp_bind, wp_findUser, wp_orThrow, wp_pure, implies_true, and_true]
    intro user hu secret hsecret
    by_cases he : user.twoFactorEnabled = true
    · rw [if_pos he, Option.filter_eq_some_iff] at hsecret
      exact ⟨hu, he, hsecret.1, of_decide_eq_true hsecret.2⟩
    · rw [if_neg he] at hsecret
      cases hsecret
  exact wp_outcome_ok hwp h

/-- The list a success writes: all codes after a TOTP code, the others after a recovery code. -/
def codesAfter (env : Env) (user : User) (secret token : String) (now : Nat) : Option (List String) :=
  if env.totpValidate secret user.email token now = true then some user.recoveryCodes
  else useRecoveryCode env token user.recoveryCodes

/-- The code of a call is right, by the row it found and the time it was compared. -/
def codeRight (env : Env) (id token : String) (found clocked : Store) : Bool :=
  (found.users.get? id).any fun user =>
    (codesAfter env user (user.twoFactorSecret.getD "") token clocked.now).isSome

/-- What the write of a success leaves. -/
def Store.accept (userId : String) (codes : List String) (nonce : Option String) (s : Store) : Store :=
  { s.writeUser userId (succeeded codes) with verified := nonce.toList ++ s.verified }

/-- A code that is compared: the row is unlocked as it was read, at the time of the comparison. -/
structure Evaluated (userId : String) (found clocked : Store) (user : User) (secret : String) : Prop where
  enrolled : Enrolled found userId user secret
  unlocked : user.twoFactorLockedUntil.getD 0 ≤ clocked.now

/-- A step of `verify2FAToken`. The row that is written may be gone by then. -/
inductive VerifyStep (env : Env) (userId token : String) (nonce : Option String) : List Store → Store → Store → Prop
  | read (s : Store) : VerifyStep env userId token nonce [] s s
  | clock (s₀ s : Store) : VerifyStep env userId token nonce [s₀] s s
  | gone (seen : List Store) (s : Store) (none : s.users.get? userId = none) (late : 2 ≤ seen.length) :
      VerifyStep env userId token nonce seen s s
  | success (s₀ s₁ s : Store) (user : User) (secret : String) (codes : List String)
      (evaluated : Evaluated userId s₀ s₁ user secret) (right : codesAfter env user secret token s₁.now = some codes)
      (row : (s.users.get? userId).isSome) :
      VerifyStep env userId token nonce [s₀, s₁] s (s.accept userId codes nonce)
  | failure (s₀ s₁ s : Store) (user : User) (secret : String) (evaluated : Evaluated userId s₀ s₁ user secret)
      (wrong : codesAfter env user secret token s₁.now = none) (few : user.twoFactorFailedAttempts + 1 < MAX_2FA_ATTEMPTS)
      (row : (s.users.get? userId).isSome) :
      VerifyStep env userId token nonce [s₀, s₁] s (s.writeUser userId (failed user.twoFactorFailedAttempts))
  | again (s₀ s₁ s : Store) (user : User) (secret : String) (evaluated : Evaluated userId s₀ s₁ user secret)
      (wrong : codesAfter env user secret token s₁.now = none) (many : MAX_2FA_ATTEMPTS ≤ user.twoFactorFailedAttempts + 1) :
      VerifyStep env userId token nonce [s₀, s₁] s s
  | lockout (s₀ s₁ s₂ s : Store) (user : User) (secret : String) (evaluated : Evaluated userId s₀ s₁ user secret)
      (wrong : codesAfter env user secret token s₁.now = none) (many : MAX_2FA_ATTEMPTS ≤ user.twoFactorFailedAttempts + 1)
      (row : (s.users.get? userId).isSome) :
      VerifyStep env userId token nonce [s₀, s₁, s₂] s (s.writeUser userId (lockedOut s₂.now))

section Writes

variable {env : Env} {id : String}

theorem get?_writeUser (userId : String) (f : User → User) (s : Store) (id : String) :
    (s.writeUser userId f).users.get? id = if id = userId then (s.users.get? userId).map f else s.users.get? id :=
  Table.get?_modify _ _ _ _

theorem VerifyStep.now {userId token : String} {nonce : Option String} {seen : List Store} {s s' : Store}
    (h : VerifyStep env userId token nonce seen s s') : s'.now = s.now := by
  cases h <;> rfl

/-- A call for somebody else. -/
theorem VerifyStep.apart {userId token : String} {nonce : Option String} {seen : List Store} {s s' : Store}
    (h : VerifyStep env userId token nonce seen s s') (hid : userId ≠ id) : s'.users.get? id = s.users.get? id := by
  have hwrite : ∀ f, (s.writeUser userId f).users.get? id = s.users.get? id := fun f => by
    rw [get?_writeUser, if_neg (Ne.symm hid)]
  cases h with
  | read => rfl
  | clock => rfl
  | gone => rfl
  | success => exact hwrite _
  | failure => exact hwrite _
  | again => rfl
  | lockout => exact hwrite _

end Writes

/-- What a call that returns has seen. -/
inductive VerifyDone (env : Env) (userId token : String) : List Store → Bool → Prop
  | right (s₀ s₁ s₂ : Store) (user : User) (secret : String) (codes : List String)
      (evaluated : Evaluated userId s₀ s₁ user secret) (right : codesAfter env user secret token s₁.now = some codes)
      (row : (s₂.users.get? userId).isSome) : VerifyDone env userId token [s₀, s₁, s₂] true
  | wrong (s₀ s₁ s₂ : Store) (more : List Store) (user : User) (secret : String)
      (evaluated : Evaluated userId s₀ s₁ user secret) (wrong : codesAfter env user secret token s₁.now = none) :
      VerifyDone env userId token (s₀ :: s₁ :: s₂ :: more) false

theorem tells_success {env : Env} {userId token secret : String} {nonce : Option String} {s₀ s₁ : Store} {user : User}
    {codes : List String} (evaluated : Evaluated userId s₀ s₁ user secret)
    (right : codesAfter env user secret token s₁.now = some codes) :
    Tells (VerifyStep env userId token nonce) (VerifyDone env userId token) [s₀, s₁]
      (onVerifySuccess userId codes nonce >>= fun _ => pure true) := by
  simp only [onVerifySuccess, tells_bind, tells_await, tells_pure]
  intro s
  cases hrow : s.users.get? userId with
  | none =>
    have hgone : updateUserRow userId (succeeded codes) s = (.error (.prisma "P2025"), s) := by
      unfold updateUserRow
      rw [hrow]
    rw [bind_run, hgone]
    refine ⟨.gone _ s hrow (Nat.le_refl 2), ?_⟩
    rintro _ ⟨⟩
  | some u =>
    have hwrite : updateUserRow userId (succeeded codes) s = (.ok (succeeded codes u), s.writeUser userId (succeeded codes)) := by
      unfold updateUserRow
      rw [hrow]
    rw [bind_run, hwrite]
    have hsome : (s.users.get? userId).isSome = true := by rw [hrow]; rfl
    exact ⟨.success s₀ s₁ s user secret codes evaluated right hsome, fun _ _ =>
      .right s₀ s₁ s user secret codes evaluated right hsome⟩

theorem verifies (env : Env) (userId token : String) (nonce : Option String) :
    Tells (VerifyStep env userId token nonce) (VerifyDone env userId token) [] (verify2FAToken env userId token nonce) := by
  unfold verify2FAToken
  rw [tells_bind, tells_await]
  intro s₀
  rw [enrolled_state]
  refine ⟨.read s₀, ?_⟩
  rintro ⟨user, secret⟩ huser
  simp only [tells_bind, tells_await, tells_require]
  refine fun s₁ => ⟨.clock s₀ s₁, fun now hnow hlock => ?_⟩
  obtain rfl : s₁.now = now := Except.ok.inj hnow
  have evaluated : Evaluated userId s₀ s₁ user secret := ⟨enrolled_ok huser, hlock⟩
  rw [tells_ite]
  refine ⟨fun htotp => ?_, fun htotp => ?_⟩
  · exact tells_success evaluated (by rw [codesAfter, if_pos htotp])
  · have hcodes : codesAfter env user secret token s₁.now = useRecoveryCode env token user.recoveryCodes := by
      rw [codesAfter, if_neg htotp]
    cases hrecovery : useRecoveryCode env token user.recoveryCodes with
    | some codes => exact tells_success evaluated (hcodes.trans hrecovery)
    | none =>
      have wrong := hcodes.trans hrecovery
      simp only [onVerifyFailure, tells_bind, tells_ite, tells_await, tells_pure]
      refine ⟨fun many s₂ => ⟨.again s₀ s₁ s₂ user secret evaluated wrong many, fun now hnow s₃ => ?_⟩, fun few s₂ => ?_⟩
      · obtain rfl : s₂.now = now := Except.ok.inj hnow
        refine ⟨?_, fun _ _ => .wrong s₀ s₁ s₂ [s₃] user secret evaluated wrong⟩
        rw [updateUserRow_state]
        split
        · rename_i hrow
          exact .lockout s₀ s₁ s₂ s₃ user secret evaluated wrong many hrow
        · rename_i hrow
          exact .gone _ s₃ (Option.not_isSome_iff_eq_none.1 hrow) (Nat.le_succ 2)
      · refine ⟨?_, fun _ _ => .wrong s₀ s₁ s₂ [] user secret evaluated wrong⟩
        rw [updateUserRow_state]
        split
        · rename_i hrow
          exact .failure s₀ s₁ s₂ user secret evaluated wrong (Nat.lt_of_not_le few) hrow
        · rename_i hrow
          exact .gone _ s₂ (Option.not_isSome_iff_eq_none.1 hrow) (Nat.le_refl 2)

/-- The step with which a code is accepted. -/
theorem VerifyStep.accepted {env : Env} {userId token : String} {nonce : Option String} {seen : List Store} {s s' : Store}
    (h : VerifyStep env userId token nonce seen s s') (done : VerifyDone env userId token (seen ++ [s]) true) :
    ∃ found clocked codes, seen = [found, clocked] ∧ codeRight env userId token found clocked = true ∧
      (s.users.get? userId).isSome ∧ s' = s.accept userId codes nonce := by
  generalize hall : seen ++ [s] = all at done
  cases done with
  | right s₀ s₁ s₂ user secret codes evaluated right row =>
    obtain ⟨rfl, hs⟩ := List.append_inj' (show seen ++ [s] = [s₀, s₁] ++ [s₂] from hall) rfl
    obtain rfl : s = s₂ := (List.cons.inj hs).1
    have hright : codeRight env userId token s₀ s₁ = true := by
      rw [codeRight, evaluated.enrolled.row, Option.any_some, evaluated.enrolled.stored]
      exact Option.isSome_iff_exists.2 ⟨codes, right⟩
    have hnot : ∀ {user' secret'}, Evaluated userId s₀ s₁ user' secret' → codesAfter env user' secret' token s₁.now ≠ none := by
      intro user' secret' evaluated'
      obtain rfl : user = user' := Option.some.inj (evaluated.enrolled.row.symm.trans evaluated'.enrolled.row)
      obtain rfl : secret = secret' := Option.some.inj (evaluated.enrolled.stored.symm.trans evaluated'.enrolled.stored)
      rw [right]
      rintro ⟨⟩
    cases h with
    | gone _ _ hnone late =>
      rw [hnone] at row
      cases row
    | success _ _ _ user' secret' codes' evaluated' right' row' => exact ⟨s₀, s₁, codes', rfl, hright, row, rfl⟩
    | failure _ _ _ user' secret' evaluated' wrong few row' => exact absurd wrong (hnot evaluated')
    | again _ _ _ user' secret' evaluated' wrong many => exact absurd wrong (hnot evaluated')

/-! ## What is left of a call -/

section Left

variable {env : Env} {userId token secret : String} {nonce : Option String} {s₀ s₁ : Store} {user : User}

theorem enrolled_eq (h : Enrolled s₀ userId user secret) : enrolled userId s₀ = (.ok (user, secret), s₀) := by
  refine Prod.ext ?_ (enrolled_state userId s₀)
  have hwp : wp (enrolled userId) (fun p _ => p = (user, secret)) (fun _ _ => False) s₀ := by
    simp only [enrolled, userById, wp_bind, wp_findUser, wp_orThrow, wp_pure, h.row, Option.some.injEq, forall_eq',
      reduceCtorEq, false_implies, and_true, h.enabled, if_true, h.stored, Option.filter_some, h.nonempty, ne_eq,
      not_false_eq_true, decide_true]
  unfold wp at hwp
  split at hwp
  · rename_i hx
    rw [hx, hwp]
  · exact hwp.elim

/-- The code has been compared. -/
theorem left_evaluated (h : Evaluated userId s₀ s₁ user secret) :
    (verify2FAToken env userId token nonce).after [s₀, s₁] =
      match codesAfter env user secret token s₁.now with
      | some codes => onVerifySuccess userId codes nonce >>= fun _ => pure true
      | none => onVerifyFailure userId user.twoFactorFailedAttempts >>= fun _ => pure false := by
  rw [after_cons, after_cons, after_nil, verify2FAToken, advance_await (enrolled_eq h.enrolled)]
  dsimp only
  rw [advance_await (show clock s₁ = (.ok s₁.now, s₁) from rfl)]
  dsimp only
  rw [require_holds h.unlocked, codesAfter]
  by_cases htotp : env.totpValidate secret user.email token s₁.now = true
  · rw [if_pos htotp, if_pos htotp]
  · rw [if_neg htotp, if_neg htotp]

/-- A success that finds its row returns. -/
theorem left_right {codes : List String} {s : Store} (h : Evaluated userId s₀ s₁ user secret)
    (right : codesAfter env user secret token s₁.now = some codes) (row : (s.users.get? userId).isSome) :
    (verify2FAToken env userId token nonce).after [s₀, s₁, s] = pure true := by
  obtain ⟨u, hu⟩ := Option.isSome_iff_exists.1 row
  show ((verify2FAToken env userId token nonce).after ([s₀, s₁] ++ [s])) = _
  rw [after_concat, left_evaluated h, right]
  have hwrite : (do let _ ← updateUserRow userId (succeeded codes)
                    modify fun s => { s with verified := nonce.toList ++ s.verified } : Query Unit) s =
      (.ok (), s.accept userId codes nonce) := by
    rw [bind_run, updateUserRow, hu]
    rfl
  exact congrArg Prod.fst (advance_await hwrite)

/-- A failure that does not lock, where it finds its row. -/
theorem left_failed {s : Store} (h : Evaluated userId s₀ s₁ user secret) (wrong : codesAfter env user secret token s₁.now = none)
    (few : user.twoFactorFailedAttempts + 1 < MAX_2FA_ATTEMPTS) (row : (s.users.get? userId).isSome) :
    (verify2FAToken env userId token nonce).after [s₀, s₁, s] = pure false := by
  obtain ⟨u, hu⟩ := Option.isSome_iff_exists.1 row
  show ((verify2FAToken env userId token nonce).after ([s₀, s₁] ++ [s])) = _
  rw [after_concat, left_evaluated h, wrong]
  dsimp only
  rw [onVerifyFailure, if_neg (Nat.not_le_of_lt few)]
  have hwrite : updateUserRow userId (failed user.twoFactorFailedAttempts) s =
      (.ok (failed user.twoFactorFailedAttempts u), s.writeUser userId (failed user.twoFactorFailedAttempts)) := by
    rw [updateUserRow, hu]
  rw [Async.bind_assoc, advance_await hwrite]
  rfl

/-- One that does has read the clock, and then writes. -/
theorem left_locking {s₂ : Store} (h : Evaluated userId s₀ s₁ user secret)
    (wrong : codesAfter env user secret token s₁.now = none) (many : MAX_2FA_ATTEMPTS ≤ user.twoFactorFailedAttempts + 1) :
    (verify2FAToken env userId token nonce).after [s₀, s₁, s₂] =
      (await (updateUserRow userId (lockedOut s₂.now)) >>= fun _ => pure false) := by
  show ((verify2FAToken env userId token nonce).after ([s₀, s₁] ++ [s₂])) = _
  rw [after_concat, left_evaluated h, wrong]
  dsimp only
  rw [onVerifyFailure, if_pos many, Async.bind_assoc, advance_await (show clock s₂ = (.ok s₂.now, s₂) from rfl)]
  dsimp only
  rw [Async.bind_assoc]
  rfl

theorem left_locked {s₂ s : Store} (h : Evaluated userId s₀ s₁ user secret)
    (wrong : codesAfter env user secret token s₁.now = none) (many : MAX_2FA_ATTEMPTS ≤ user.twoFactorFailedAttempts + 1)
    (row : (s.users.get? userId).isSome) : (verify2FAToken env userId token nonce).after [s₀, s₁, s₂, s] = pure false := by
  obtain ⟨u, hu⟩ := Option.isSome_iff_exists.1 row
  show ((verify2FAToken env userId token nonce).after ([s₀, s₁, s₂] ++ [s])) = _
  rw [after_concat, left_locking h wrong many]
  have hwrite : updateUserRow userId (lockedOut s₂.now) s = (.ok (lockedOut s₂.now u), s.writeUser userId (lockedOut s₂.now)) := by
    rw [updateUserRow, hu]
  rw [advance_await hwrite]

/-- A call that finds the row locked is refused. -/
theorem left_refused (h : Enrolled s₀ userId user secret) (hlock : s₁.now < user.twoFactorLockedUntil.getD 0) :
    (verify2FAToken env userId token nonce).after [s₀, s₁] = Async.throw (tooManyAttempts (user.twoFactorLockedUntil.getD 0) s₁.now) := by
  rw [after_cons, after_cons, after_nil, verify2FAToken, advance_await (enrolled_eq h)]
  dsimp only
  rw [advance_await (show clock s₁ = (.ok s₁.now, s₁) from rfl)]
  dsimp only
  rw [require_fails (Nat.not_le_of_lt hlock)]

/-- A call that goes on after its first step has found its row. -/
theorem going_enrolled (hg : ((verify2FAToken env userId token nonce).after [s₀]).ended = false) :
    ∃ user secret, Enrolled s₀ userId user secret := by
  cases hfound : (enrolled userId s₀).1 with
  | ok p => exact ⟨p.1, p.2, enrolled_ok hfound⟩
  | error e =>
    have hx : enrolled userId s₀ = (.error e, s₀) := Prod.ext hfound (enrolled_state userId s₀)
    rw [after_cons, after_nil, verify2FAToken, advance_throws hx] at hg
    cases hg

end Left

end ClusterGate.Accounts
