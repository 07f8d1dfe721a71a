/-
  ClusterGate.Accounts.Lockout — wrong codes and the lock
  (`services/twoFactorService.ts`: `verifyToken`, `onVerifyFailure`).

  A failure writes the number it has read plus one, or, as the fifth, sets the number to
  zero and locks the row for LOCKOUT_MS. A call reads number and lock in its first step and
  compares its code later.
  - `Ledger`: what is so of the codes compared so far, the number and the lock, if one code
    is compared after the other: five at most in the LOCKOUT_MS from one that was compared
    with the number at zero, and none more before the lock is over.
  - `lockout_bounds_guessing`: in every run in which a code is compared only with the row as
    it was read, and with no other failure outstanding (`OneAtATime`), the codes compared
    obey that bound and every other call is refused for the lock.
  - `six_guesses_at_once`: six calls that read before any has written.
-/

import ClusterGate.Accounts.RecoveryCodes

namespace ClusterGate.Accounts

open Lib Lib.Act Async Auth

/-! ## The ledger -/

/-- A code that was compared: the number of failures its call had read, and when. -/
structure Attempt where
  counter : Nat
  time : Nat
  deriving DecidableEq

/-- How many codes were compared in the LOCKOUT_MS from `start`. -/
def within (attempts : List Attempt) (start : Nat) : Nat :=
  attempts.countP fun a => start ≤ a.time && a.time < start + LOCKOUT_MS

/-- The codes compared so far, `pending` of them not recorded yet, beside the row's number and lock. -/
structure Ledger (attempts : List Attempt) (pending counter lock : Nat) : Prop where
  rest : counter = 0 → pending = 0 → ∀ a ∈ attempts, a.time + LOCKOUT_MS ≤ lock
  windows : ∀ z ∈ attempts, z.counter = 0 →
    (z.time + LOCKOUT_MS ≤ lock ∧ within attempts z.time ≤ MAX_2FA_ATTEMPTS) ∨
      (within attempts z.time ≤ counter + pending ∧ counter < MAX_2FA_ATTEMPTS)

namespace Ledger

variable {attempts attempts' : List Attempt} {pending counter lock : Nat}

theorem within_cons (a : Attempt) (start : Nat) :
    within (a :: attempts) start = within attempts start + if start ≤ a.time ∧ a.time < start + LOCKOUT_MS then 1 else 0 := by
  unfold within
  rw [List.countP_cons]
  simp only [Bool.and_eq_true, decide_eq_true_eq]

theorem perm (h : Ledger attempts pending counter lock) (hp : attempts.Perm attempts') : Ledger attempts' pending counter lock := by
  have hwithin : ∀ start, within attempts' start = within attempts start := fun start => (hp.countP_eq _).symm
  refine ⟨fun h0 h1 a ha => h.rest h0 h1 a (hp.mem_iff.2 ha), fun z hz hzero => ?_⟩
  rw [hwithin]
  exact h.windows z (hp.mem_iff.2 hz) hzero

theorem empty : Ledger [] 0 counter lock := by
  refine ⟨fun _ _ a ha => ?_, fun z hz => ?_⟩
  · cases ha
  · cases hz

/-- A code is compared, the row being unlocked and nothing outstanding. -/
theorem evaluate {now : Nat} (h : Ledger attempts 0 counter lock) (hlock : lock ≤ now) :
    Ledger (⟨counter, now⟩ :: attempts) 1 counter lock := by
  refine ⟨fun _ h1 => (by cases h1), fun z hz hzero => ?_⟩
  rw [within_cons]
  rcases List.mem_cons.1 hz with rfl | hz
  · -- The window that starts now: whatever was compared before is over.
    right
    have hnone : within attempts now = 0 := by
      refine List.countP_eq_zero.2 fun a ha hin => ?_
      have hrest := h.rest hzero rfl a ha
      have hL : 0 < LOCKOUT_MS := by decide
      simp only [Bool.and_eq_true, decide_eq_true_eq] at hin
      omega
    have hM : 0 < MAX_2FA_ATTEMPTS := by decide
    dsimp only at hzero ⊢
    rw [hnone, hzero]
    refine ⟨?_, hM⟩
    split <;> omega
  · rcases h.windows z hz hzero with ⟨hclosed, hle⟩ | ⟨hle, hlt⟩
    · left
      refine ⟨hclosed, ?_⟩
      rw [if_neg (by dsimp only; omega)]
      exact hle
    · right
      refine ⟨?_, hlt⟩
      split <;> omega

/-- The failure is recorded, and it is not the fifth. -/
theorem record (h : Ledger attempts 1 counter lock) (few : counter + 1 < MAX_2FA_ATTEMPTS) :
    Ledger attempts 0 (counter + 1) lock := by
  refine ⟨fun h0 => (by cases h0), fun z hz hzero => ?_⟩
  rcases h.windows z hz hzero with hclosed | ⟨hle, -⟩
  · exact .inl hclosed
  · exact .inr ⟨hle, few⟩

/-- It is the fifth: the row is locked. -/
theorem lockout {now : Nat} (h : Ledger attempts 1 counter lock) (hpast : ∀ a ∈ attempts, a.time ≤ now) :
    Ledger attempts 0 0 (now + LOCKOUT_MS) := by
  refine ⟨fun _ _ a ha => Nat.add_le_add_right (hpast a ha) _, fun z hz hzero => .inl ⟨Nat.add_le_add_right (hpast z hz) _, ?_⟩⟩
  rcases h.windows z hz hzero with ⟨-, hle⟩ | ⟨hle, hlt⟩
  · exact hle
  · exact Nat.le_trans hle hlt

theorem bound (h : Ledger attempts pending counter lock) (hone : pending ≤ 1) {z : Attempt} (hz : z ∈ attempts)
    (hzero : z.counter = 0) : within attempts z.time ≤ MAX_2FA_ATTEMPTS := by
  rcases h.windows z hz hzero with ⟨-, hle⟩ | ⟨hle, hlt⟩
  · exact hle
  · omega

end Ledger

/-! ## What is to hold -/

/-- The token is no code of the user's, now or ever. -/
structure WrongCode (env : Env) (user : User) (token : String) : Prop where
  totp : ∀ secret, user.twoFactorSecret = some secret → ∀ now, env.totpValidate secret user.email token now = false
  recovery : ∀ code ∈ user.recoveryCodes, env.bcryptCompare token code = false

/-- The comparison of a call for `id`, once the lock has let it through. -/
def attempt (id : String) (c : VerifyCall) : Option Attempt :=
  match c.seen with
  | found :: clocked :: _ =>
    if c.request.userId = id then
      ((found.users.get? id).filter fun user => user.twoFactorLockedUntil.getD 0 ≤ clocked.now).map fun user =>
        ⟨user.twoFactorFailedAttempts, clocked.now⟩
    else none
  | _ => none

def attempts (id : String) (P : Pool Store VerifyCall) : List Attempt := P.calls.filterMap (attempt id)

/-- A comparison that has yet to be recorded. -/
def underWay (env : Env) (id : String) (c : VerifyCall) : Bool := (attempt id c).isSome && !c.ended (verifying env)

structure LockoutHolds (env : Env) (id : String) (P : Pool Store VerifyCall) : Prop where
  bounded : ∀ z ∈ attempts id P, z.counter = 0 → within (attempts id P) z.time ≤ MAX_2FA_ATTEMPTS
  /-- A call that has come to the lock and was not let through is refused for it. -/
  refused : ∀ c ∈ P.calls, c.request.userId = id → 2 ≤ c.seen.length → attempt id c = none →
    ∃ lockedUntil now, c.left (verifying env) = Async.throw (tooManyAttempts lockedUntil now)

/-! ## The condition -/

/-- The number and the lock of a row. -/
def Store.lockOf (s : Store) (id : String) : Option (Nat × Option Nat) :=
  (s.users.get? id).map fun u => (u.twoFactorFailedAttempts, u.twoFactorLockedUntil)

/-- The call is about to compare its code: by the row it has read the lock lets it through. -/
def comparing (id : String) (c : VerifyCall) (s : Store) : Bool :=
  match c.seen with
  | [found] => c.request.userId = id && (found.users.get? id).any fun user => user.twoFactorLockedUntil.getD 0 ≤ s.now
  | _ => false

/-- A code is compared with number and lock as its call has read them, and with no other
    failure outstanding. -/
def OneAtATime (env : Env) (id : String) (P : Pool Store VerifyCall) : Move Nat → Prop
  | .other _ => True
  | .call i => ∀ c ∈ P.calls[i]?, c.ended (verifying env) = false → comparing id c P.shared = true →
      P.shared.lockOf id = c.seen.head?.bind (·.lockOf id) ∧ P.calls.countP (underWay env id) = 0

instance (env : Env) (id : String) (P : Pool Store VerifyCall) : ∀ m, Decidable (OneAtATime env id P m)
  | .other _ => instDecidableTrue
  | .call i => inferInstanceAs (Decidable (∀ c ∈ P.calls[i]?, c.ended (verifying env) = false →
      comparing id c P.shared = true →
        P.shared.lockOf id = c.seen.head?.bind (·.lockOf id) ∧ P.calls.countP (underWay env id) = 0))

/-! ## Where a call is -/

section Calls

variable {env : Env} {id : String} {user : User}

theorem attempt_other {c : VerifyCall} (h : c.request.userId ≠ id) : attempt id c = none := by
  unfold attempt
  split
  · exact if_neg h
  · rfl

theorem attempt_evaluated {token secret : String} {s₀ s₁ : Store} {more : List Store} (h : Evaluated id s₀ s₁ user secret) :
    attempt id ⟨⟨id, token⟩, s₀ :: s₁ :: more⟩ = some ⟨user.twoFactorFailedAttempts, s₁.now⟩ := by
  show (if id = id then _ else _) = _
  rw [if_pos rfl, h.enrolled.row, Option.filter_some, if_pos (decide_eq_true h.unlocked)]
  rfl

theorem underWay_other {c : VerifyCall} (h : c.request.userId ≠ id) : underWay env id c = false := by
  rw [underWay, attempt_other h]
  rfl

theorem wrong_codesAfter {u : User} {secret token : String} {now : Nat} (h : WrongCode env user token)
    (hsecret : user.twoFactorSecret = some secret) (he : u.email = user.email) (hr : u.recoveryCodes = user.recoveryCodes) :
    codesAfter env u secret token now = none := by
  have hnone : ∀ codes : List String, (∀ code ∈ codes, env.bcryptCompare token code = false) →
      useRecoveryCode env token codes = none := by
    intro codes
    induction codes with
    | nil => exact fun _ => rfl
    | cons code codes ih =>
      intro hcodes
      rw [useRecoveryCode, if_neg (by rw [hcodes code List.mem_cons_self]; decide),
        ih fun c hc => hcodes c (List.mem_cons_of_mem _ hc)]
      rfl
  rw [codesAfter, he, h.totp secret hsecret now, if_neg Bool.false_ne_true, hr]
  exact hnone _ h.recovery

end Calls

/-! ## The invariant -/

/-- What a run of wrong codes leaves of a user's row. -/
structure SameCodes (user u : User) : Prop where
  email : u.email = user.email
  secret : u.twoFactorSecret = user.twoFactorSecret
  recoveryCodes : u.recoveryCodes = user.recoveryCodes

structure LockInv (env : Env) (id : String) (user : User) (P : Pool Store VerifyCall) (u : User) : Prop where
  row : P.shared.users.get? id = some u
  same : SameCodes user u
  wrong : ∀ c ∈ P.calls, c.request.userId = id → WrongCode env user c.request.token
  /-- The row a call has read. -/
  read : ∀ c ∈ P.calls, c.request.userId = id → ∀ t ∈ c.seen[0]?, ∃ u₀, t.users.get? id = some u₀ ∧ SameCodes user u₀
  past : ∀ a ∈ attempts id P, a.time ≤ P.shared.now
  one : P.calls.countP (underWay env id) ≤ 1
  /-- The failure that is outstanding has read the number there is, and the clock it may have read is the latest. -/
  outstanding : ∀ c ∈ P.calls, underWay env id c = true → (∀ a ∈ attempt id c, a.counter = u.twoFactorFailedAttempts) ∧
    ∀ t ∈ c.seen[2]?, ∀ a ∈ attempts id P, a.time ≤ t.now
  ledger : Ledger (attempts id P) (P.calls.countP (underWay env id)) u.twoFactorFailedAttempts (u.twoFactorLockedUntil.getD 0)

section Step

variable {env : Env} {id : String} {user u : User} {P : Pool Store VerifyCall} {i : Nat} {c : VerifyCall}

theorem wrong_after (h : LockInv env id user P u) (hc : P.calls[i]? = some c) (hg : c.ended (verifying env) = false) :
    ∀ d ∈ (verifyStep env P (.call i)).calls, d.request.userId = id → WrongCode env user d.request.token :=
  Pool.forall_going h.wrong hc hg (h.wrong c (List.mem_of_getElem? hc))

theorem read_after (h : LockInv env id user P u) (hc : P.calls[i]? = some c) (hg : c.ended (verifying env) = false) :
    ∀ d ∈ (verifyStep env P (.call i)).calls, d.request.userId = id →
      ∀ t ∈ d.seen[0]?, ∃ u₀, t.users.get? id = some u₀ ∧ SameCodes user u₀ :=
  Pool.forall_going h.read hc hg fun hid => Pool.forall_seen_concat (fun _ => ⟨u, h.row, h.same⟩)
    (h.read c (List.mem_of_getElem? hc) hid)

/-- The comparisons after a step of a call that had compared, or does not. -/
theorem attempts_after (hc : P.calls[i]? = some c) (hg : c.ended (verifying env) = false)
    (hsame : attempt id ⟨c.request, c.seen ++ [P.shared]⟩ = attempt id c) :
    (attempts id (verifyStep env P (.call i))).Perm (attempts id P) := by
  have hperm := @Pool.gather_going _ _ _ _ _ (verifying env) Store.elapse P i c _ (attempt id) hc hg
  rw [hsame] at hperm
  exact (List.perm_append_left_iff _).1 hperm

/-- The outstanding failures after a step. -/
theorem underWay_after (hc : P.calls[i]? = some c) (hg : c.ended (verifying env) = false) :
    (verifyStep env P (.call i)).calls.countP (underWay env id) + (if underWay env id c = true then 1 else 0) =
      P.calls.countP (underWay env id) + (if underWay env id ⟨c.request, c.seen ++ [P.shared]⟩ = true then 1 else 0) :=
  @Pool.count_going _ _ _ _ _ (verifying env) Store.elapse P i c (underWay env id) hc hg

/-- A step that neither compares nor records: row and time are as they were, too. -/
theorem lockInv_quiet (h : LockInv env id user P u) (hc : P.calls[i]? = some c) (hg : c.ended (verifying env) = false)
    (hrow : (verifyStep env P (.call i)).shared.users.get? id = some u)
    (hnow : (verifyStep env P (.call i)).shared.now = P.shared.now)
    (hattempt : attempt id ⟨c.request, c.seen ++ [P.shared]⟩ = attempt id c)
    (hunder : underWay env id ⟨c.request, c.seen ++ [P.shared]⟩ = underWay env id c) :
    LockInv env id user (verifyStep env P (.call i)) u := by
  have hperm := attempts_after hc hg hattempt
  have hcount : (verifyStep env P (.call i)).calls.countP (underWay env id) = P.calls.countP (underWay env id) := by
    have := @underWay_after env id P i c hc hg
    rw [hunder] at this
    omega
  have hmem := List.mem_of_getElem? hc
  refine ⟨hrow, h.same, wrong_after h hc hg, read_after h hc hg, fun a ha => ?_, hcount ▸ h.one, ?_, ?_⟩
  · rw [hnow]
    exact h.past a (hperm.mem_iff.1 ha)
  · refine Pool.forall_going (fun d hd hu => ?_) hc hg fun hu => ?_
    · obtain ⟨hcounter, hclock⟩ := h.outstanding d hd hu
      exact ⟨hcounter, fun t ht a ha => hclock t ht a (hperm.mem_iff.1 ha)⟩
    · rw [hunder] at hu
      obtain ⟨hcounter, hclock⟩ := h.outstanding c hmem hu
      refine ⟨fun a ha => hcounter a (hattempt ▸ ha), Pool.forall_seen_concat (fun _ a ha => ?_) fun t ht a ha => ?_⟩
      · exact h.past a (hperm.mem_iff.1 ha)
      · exact hclock t ht a (hperm.mem_iff.1 ha)
  · rw [hcount]
    exact h.ledger.perm hperm.symm

/-- A step that records the outstanding failure. -/
theorem lockInv_recorded {w : User} {counter lock : Nat} (h : LockInv env id user P u) (hc : P.calls[i]? = some c)
    (hg : c.ended (verifying env) = false)
    (hrow : (verifyStep env P (.call i)).shared.users.get? id = some w) (hsame : SameCodes user w)
    (hnow : (verifyStep env P (.call i)).shared.now = P.shared.now)
    (hattempt : attempt id ⟨c.request, c.seen ++ [P.shared]⟩ = attempt id c)
    (hbefore : underWay env id c = true) (hafter : underWay env id ⟨c.request, c.seen ++ [P.shared]⟩ = false)
    (hcounter : w.twoFactorFailedAttempts = counter) (hlock : w.twoFactorLockedUntil.getD 0 = lock)
    (hledger : Ledger (attempts id P) 1 u.twoFactorFailedAttempts (u.twoFactorLockedUntil.getD 0) →
      Ledger (attempts id P) 0 counter lock) :
    LockInv env id user (verifyStep env P (.call i)) w := by
  have hperm := attempts_after hc hg hattempt
  have hcount := @underWay_after env id P i c hc hg
  rw [hbefore, hafter, if_pos rfl, if_neg Bool.false_ne_true] at hcount
  have hone := h.one
  have hzero : (verifyStep env P (.call i)).calls.countP (underWay env id) = 0 := by omega
  refine ⟨hrow, hsame, wrong_after h hc hg, read_after h hc hg, fun a ha => ?_, hzero ▸ Nat.zero_le 1, ?_, ?_⟩
  · rw [hnow]
    exact h.past a (hperm.mem_iff.1 ha)
  · intro d hd hu
    exact absurd hu (List.countP_eq_zero.1 hzero d hd)
  · rw [hzero, hcounter, hlock]
    refine (hledger ?_).perm hperm.symm
    have hpending : P.calls.countP (underWay env id) = 1 := by omega
    exact hpending ▸ h.ledger

/-- A step that compares a code. -/
theorem lockInv_compared (h : LockInv env id user P u) (hc : P.calls[i]? = some c) (hg : c.ended (verifying env) = false)
    (hrow : (verifyStep env P (.call i)).shared = P.shared) (hbefore : attempt id c = none)
    (hattempt : attempt id ⟨c.request, c.seen ++ [P.shared]⟩ = some ⟨u.twoFactorFailedAttempts, P.shared.now⟩)
    (hseen : c.seen.length = 1) (hafter : underWay env id ⟨c.request, c.seen ++ [P.shared]⟩ = true)
    (hlock : u.twoFactorLockedUntil.getD 0 ≤ P.shared.now) (hnone : P.calls.countP (underWay env id) = 0) :
    LockInv env id user (verifyStep env P (.call i)) u := by
  have hunder : underWay env id c = false := by
    rw [underWay, hbefore]
    rfl
  have hperm := @Pool.gather_going _ _ _ _ _ (verifying env) Store.elapse P i c _ (attempt id) hc hg
  rw [hbefore, hattempt] at hperm
  replace hperm : (attempts id (verifyStep env P (.call i))).Perm (⟨u.twoFactorFailedAttempts, P.shared.now⟩ :: attempts id P) :=
    hperm
  have hcount := @underWay_after env id P i c hc hg
  rw [hunder, hafter, hnone, if_pos rfl, if_neg Bool.false_ne_true] at hcount
  have hone : (verifyStep env P (.call i)).calls.countP (underWay env id) = 1 := by omega
  refine ⟨by rw [hrow]; exact h.row, h.same, wrong_after h hc hg, read_after h hc hg, fun a ha => ?_, Nat.le_of_eq hone, ?_, ?_⟩
  · rw [hrow]
    rcases List.mem_cons.1 (hperm.mem_iff.1 ha) with rfl | ha
    · exact Nat.le_refl _
    · exact h.past a ha
  · refine Pool.forall_going (fun d hd hu => ?_) hc hg fun _ => ⟨fun a ha => ?_, fun t ht => ?_⟩
    · exact absurd hu (List.countP_eq_zero.1 hnone d hd)
    · rw [hattempt] at ha
      rw [← Option.some.inj ha]
    · rw [List.getElem?_eq_none (by rw [List.length_append, hseen, List.length_singleton])] at ht
      cases ht
  · rw [hone]
    have hledger := h.ledger
    rw [hnone] at hledger
    exact (hledger.evaluate hlock).perm hperm.symm

end Step

/-! ## One step -/

section Moves

variable {env : Env} {id : String} {user u : User} {P : Pool Store VerifyCall}

theorem failure_going (userId : String) (n : Nat) :
    (onVerifyFailure userId n >>= fun _ => pure false : Service Bool).ended = false := by
  unfold onVerifyFailure
  split <;> rfl

section Steps

variable {i : Nat} {token secret : String} {s₀ s₁ : Store} {user₀ : User}

/-- What a call has found of the row is what the run leaves of it: its code is wrong. -/
theorem LockInv.wrong_found {seen more : List Store} {clocked : Store} (h : LockInv env id user P u)
    (hc : P.calls[i]? = some ⟨⟨id, token⟩, seen⟩) (hseen : seen = s₀ :: more) (hev : Evaluated id s₀ clocked user₀ secret) :
    codesAfter env user₀ secret token clocked.now = none := by
  have hmem := List.mem_of_getElem? hc
  obtain ⟨u₀, hu₀, hsame⟩ := h.read _ hmem rfl s₀ (by rw [hseen]; rfl)
  obtain rfl : user₀ = u₀ := Option.some.inj (hev.enrolled.row.symm.trans hu₀)
  exact wrong_codesAfter (h.wrong _ hmem rfl) (hsame.secret ▸ hev.enrolled.stored) hsame.email hsame.recoveryCodes

/-- The clock is read and the lock lets the call through: its code is compared. -/
theorem lockInv_compares (h : LockInv env id user P u) (hc : P.calls[i]? = some ⟨⟨id, token⟩, [s₀]⟩)
    (hg : Call.ended (verifying env) ⟨⟨id, token⟩, [s₀]⟩ = false) (hm : OneAtATime env id P (.call i))
    (hshared : (verifyStep env P (.call i)).shared = P.shared) (hev : Evaluated id s₀ P.shared user₀ secret) :
    LockInv env id user (verifyStep env P (.call i)) u := by
  have hcomparing : comparing id ⟨⟨id, token⟩, [s₀]⟩ P.shared = true := by
    simp only [comparing, decide_true, Bool.true_and, hev.enrolled.row, Option.any_some, hev.unlocked]
  obtain ⟨hsame, hnone⟩ := hm _ hc hg hcomparing
  have hsame' : (u.twoFactorFailedAttempts, u.twoFactorLockedUntil) =
      (user₀.twoFactorFailedAttempts, user₀.twoFactorLockedUntil) := by
    simpa [Store.lockOf, h.row, hev.enrolled.row] using hsame
  obtain ⟨hcounter, hlocked⟩ := Prod.mk.inj hsame'
  have hattempt := @attempt_evaluated id user₀ token secret s₀ P.shared [] hev
  refine lockInv_compared h hc hg hshared rfl (hcounter ▸ hattempt) rfl ?_ (hlocked ▸ hev.unlocked) hnone
  show ((attempt id ⟨⟨id, token⟩, [s₀, P.shared]⟩).isSome &&
    !((verify2FAToken env id token none).after [s₀, P.shared]).ended) = true
  rw [hattempt, left_evaluated hev, h.wrong_found hc rfl hev]
  dsimp only
  rw [failure_going]
  rfl

/-- The clock is read and the row is locked. -/
theorem lockInv_refused (h : LockInv env id user P u) (hc : P.calls[i]? = some ⟨⟨id, token⟩, [s₀]⟩)
    (hg : Call.ended (verifying env) ⟨⟨id, token⟩, [s₀]⟩ = false)
    (hshared : (verifyStep env P (.call i)).shared = P.shared) (henrolled : Enrolled s₀ id user₀ secret)
    (hlock : ¬user₀.twoFactorLockedUntil.getD 0 ≤ P.shared.now) : LockInv env id user (verifyStep env P (.call i)) u := by
  have hattempt : attempt id ⟨⟨id, token⟩, [s₀] ++ [P.shared]⟩ = none := by
    show (if id = id then _ else _) = _
    rw [if_pos rfl, henrolled.row, Option.filter_some, if_neg (by rw [decide_eq_true_iff]; exact hlock)]
    rfl
  refine lockInv_quiet h hc hg (by rw [hshared]; exact h.row) (by rw [hshared]) hattempt ?_
  rw [underWay, hattempt]
  rfl

/-- A failure below the fifth is written. -/
theorem lockInv_failed (h : LockInv env id user P u) (hc : P.calls[i]? = some ⟨⟨id, token⟩, [s₀, s₁]⟩)
    (hg : Call.ended (verifying env) ⟨⟨id, token⟩, [s₀, s₁]⟩ = false) (evaluated : Evaluated id s₀ s₁ user₀ secret)
    (few : user₀.twoFactorFailedAttempts + 1 < MAX_2FA_ATTEMPTS)
    (hshared : (verifyStep env P (.call i)).shared = P.shared.writeUser id (failed user₀.twoFactorFailedAttempts)) :
    LockInv env id user (verifyStep env P (.call i)) (failed user₀.twoFactorFailedAttempts u) := by
  have hattempt := @attempt_evaluated id user₀ token secret s₀ s₁ [] evaluated
  have hbefore : underWay env id ⟨⟨id, token⟩, [s₀, s₁]⟩ = true := by
    rw [underWay, hattempt, hg]
    rfl
  have hcounter : user₀.twoFactorFailedAttempts = u.twoFactorFailedAttempts :=
    (h.outstanding _ (List.mem_of_getElem? hc) hbefore).1 _ hattempt
  refine lockInv_recorded h hc hg ?_ ⟨h.same.email, h.same.secret, h.same.recoveryCodes⟩ (by rw [hshared]; rfl) rfl
    hbefore ?_ rfl rfl ?_
  · rw [hshared, get?_writeUser, if_pos rfl, h.row]
    rfl
  · show ((attempt id _).isSome && !((verify2FAToken env id token none).after [s₀, s₁, P.shared]).ended) = false
    rw [left_failed evaluated (h.wrong_found hc rfl evaluated) few (Option.isSome_iff_exists.2 ⟨u, h.row⟩)]
    exact Bool.and_false _
  · rw [← hcounter]
    exact fun hledger => hledger.record few

/-- Before the fifth failure is written the clock is read once more. -/
theorem lockInv_again (h : LockInv env id user P u) (hc : P.calls[i]? = some ⟨⟨id, token⟩, [s₀, s₁]⟩)
    (hg : Call.ended (verifying env) ⟨⟨id, token⟩, [s₀, s₁]⟩ = false) (evaluated : Evaluated id s₀ s₁ user₀ secret)
    (many : MAX_2FA_ATTEMPTS ≤ user₀.twoFactorFailedAttempts + 1)
    (hshared : (verifyStep env P (.call i)).shared = P.shared) : LockInv env id user (verifyStep env P (.call i)) u := by
  refine lockInv_quiet h hc hg (by rw [hshared]; exact h.row) (by rw [hshared]) rfl ?_
  rw [underWay, underWay, hg]
  show ((attempt id _).isSome && !((verify2FAToken env id token none).after [s₀, s₁, P.shared]).ended) = _
  rw [left_locking evaluated (h.wrong_found hc rfl evaluated) many]
  rfl

/-- The fifth failure is written. -/
theorem lockInv_locked {s₂ : Store} (h : LockInv env id user P u) (hc : P.calls[i]? = some ⟨⟨id, token⟩, [s₀, s₁, s₂]⟩)
    (hg : Call.ended (verifying env) ⟨⟨id, token⟩, [s₀, s₁, s₂]⟩ = false) (evaluated : Evaluated id s₀ s₁ user₀ secret)
    (many : MAX_2FA_ATTEMPTS ≤ user₀.twoFactorFailedAttempts + 1)
    (hshared : (verifyStep env P (.call i)).shared = P.shared.writeUser id (lockedOut s₂.now)) :
    LockInv env id user (verifyStep env P (.call i)) (lockedOut s₂.now u) := by
  have hattempt := @attempt_evaluated id user₀ token secret s₀ s₁ [s₂] evaluated
  have hbefore : underWay env id ⟨⟨id, token⟩, [s₀, s₁, s₂]⟩ = true := by
    rw [underWay, hattempt, hg]
    rfl
  have hclock := (h.outstanding _ (List.mem_of_getElem? hc) hbefore).2 s₂ rfl
  refine lockInv_recorded h hc hg ?_ ⟨h.same.email, h.same.secret, h.same.recoveryCodes⟩ (by rw [hshared]; rfl) rfl
    hbefore ?_ rfl rfl ?_
  · rw [hshared, get?_writeUser, if_pos rfl, h.row]
    rfl
  · show ((attempt id _).isSome && !((verify2FAToken env id token none).after [s₀, s₁, s₂, P.shared]).ended) = false
    rw [left_locked evaluated (h.wrong_found hc rfl evaluated) many (Option.isSome_iff_exists.2 ⟨u, h.row⟩)]
    exact Bool.and_false _
  · exact fun hledger => hledger.lockout hclock

/-- A step of a call for somebody else. -/
theorem lockInv_other {c : VerifyCall} (h : LockInv env id user P u) (hc : P.calls[i]? = some c)
    (hg : c.ended (verifying env) = false) (hid : c.request.userId ≠ id)
    (hrow : (verifyStep env P (.call i)).shared.users.get? id = P.shared.users.get? id)
    (hnow : (verifyStep env P (.call i)).shared.now = P.shared.now) : LockInv env id user (verifyStep env P (.call i)) u := by
  refine lockInv_quiet h hc hg (hrow.trans h.row) hnow ?_ ?_
  · rw [attempt_other hid, attempt_other (c := ⟨c.request, c.seen ++ [P.shared]⟩) hid]
  · rw [underWay_other hid, underWay_other (c := ⟨c.request, c.seen ++ [P.shared]⟩) hid]

theorem lockInv_going {c : VerifyCall} (h : LockInv env id user P u) (hm : OneAtATime env id P (.call i))
    (hc : P.calls[i]? = some c) (hg : c.ended (verifying env) = false) :
    ∃ u', LockInv env id user (verifyStep env P (.call i)) u' := by
  have hshared : (verifyStep env P (.call i)).shared = ((c.left (verifying env)).advance P.shared).2 := by
    rw [verifyStep, Pool.step_going hc hg]
  have hstep := tells_step (verifies env c.request.userId c.request.token none) hg P.shared
  rw [show (verify2FAToken env c.request.userId c.request.token none).after c.seen = c.left (verifying env) from rfl,
    ← hshared] at hstep
  by_cases hid : c.request.userId = id
  · obtain ⟨⟨userId, token⟩, seen⟩ := c
    obtain rfl : userId = id := hid
    dsimp only at hstep
    generalize hs' : (verifyStep env P (.call i)).shared = s' at hstep
    cases hstep with
    | read => exact ⟨u, lockInv_quiet h hc hg (by rw [hs']; exact h.row) (by rw [hs']) rfl rfl⟩
    | clock s₀ =>
      obtain ⟨user₀, secret, henrolled⟩ := going_enrolled hg
      by_cases hlock : user₀.twoFactorLockedUntil.getD 0 ≤ P.shared.now
      · exact ⟨u, lockInv_compares h hc hg hm hs' ⟨henrolled, hlock⟩⟩
      · exact ⟨u, lockInv_refused h hc hg hs' henrolled hlock⟩
    | gone seen s hnone late =>
      rw [h.row] at hnone
      cases hnone
    | success s₀ s₁ s user₀ secret codes evaluated right row =>
      rw [h.wrong_found hc rfl evaluated] at right
      cases right
    | failure s₀ s₁ s user₀ secret evaluated wrong few row => exact ⟨_, lockInv_failed h hc hg evaluated few hs'⟩
    | again s₀ s₁ s user₀ secret evaluated wrong many => exact ⟨u, lockInv_again h hc hg evaluated many hs'⟩
    | lockout s₀ s₁ s₂ s user₀ secret evaluated wrong many row => exact ⟨_, lockInv_locked h hc hg evaluated many hs'⟩
  · exact ⟨u, lockInv_other h hc hg hid (hstep.apart hid) hstep.now⟩

end Steps

theorem lockInv_step (h : LockInv env id user P u) (m : Move Nat) (hm : OneAtATime env id P m) :
    ∃ u', LockInv env id user (verifyStep env P m) u' := by
  cases m with
  | other ms =>
    exact ⟨u, h.row, h.same, h.wrong, h.read, fun a ha => Nat.le_trans (h.past a ha) (Nat.le_add_right _ _), h.one,
      h.outstanding, h.ledger⟩
  | call i =>
    cases hc : P.calls[i]? with
    | none =>
      rw [verifyStep, Pool.step_none hc]
      exact ⟨u, h⟩
    | some c =>
      cases hg : c.ended (verifying env) with
      | true =>
        rw [verifyStep, Pool.step_ended hc hg]
        exact ⟨u, h⟩
      | false => exact lockInv_going h hm hc hg

end Moves

/-! ## Runs -/

/-- A call that has come to the lock has found its row. -/
def CameToLock (c : VerifyCall) : Prop :=
  2 ≤ c.seen.length → ∀ t ∈ c.seen[0]?, ∃ user secret, Enrolled t c.request.userId user secret

theorem cameToLock_step {env : Env} {P : Pool Store VerifyCall} (h : ∀ c ∈ P.calls, CameToLock c) (m : Move Nat) :
    ∀ c ∈ (verifyStep env P m).calls, CameToLock c := by
  refine @Pool.calls_step _ _ _ _ _ _ _ _ (fun _ => CameToLock) (fun _ _ _ hd => hd) (fun _ _ _ _ hd => hd) ?_ h m
  rintro ⟨r, seen⟩ s hg hok hlen t ht
  match seen, hg, hok, hlen, ht with
  | [], _, _, hlen, _ => exact absurd hlen (Nat.not_succ_le_self 1)
  | [s₀], hg, _, _, ht =>
    obtain rfl := Option.some.inj ht
    exact going_enrolled hg
  | s₀ :: s₁ :: more, _, hok, _, ht => exact hok (Nat.le_add_left 2 more.length) t ht

theorem refused_of_cameToLock {env : Env} {id : String} {c : VerifyCall} (h : CameToLock c) (hid : c.request.userId = id)
    (hlen : 2 ≤ c.seen.length) (hnone : attempt id c = none) :
    ∃ lockedUntil now, c.left (verifying env) = Async.throw (tooManyAttempts lockedUntil now) := by
  obtain ⟨⟨userId, token⟩, seen⟩ := c
  obtain rfl : userId = id := hid
  match seen, h, hlen, hnone with
  | s₀ :: s₁ :: more, h, hlen, hnone =>
    obtain ⟨user, secret, henrolled⟩ := h hlen s₀ rfl
    have hlock : s₁.now < user.twoFactorLockedUntil.getD 0 := by
      refine Nat.lt_of_not_le fun hle => ?_
      rw [attempt_evaluated ⟨henrolled, hle⟩] at hnone
      cases hnone
    refine ⟨user.twoFactorLockedUntil.getD 0, s₁.now, ?_⟩
    show ((verify2FAToken env userId token none).after [s₀, s₁]).after more = _
    rw [left_refused henrolled hlock]
    exact after_done _ _

theorem lockInv_start {env : Env} {s : Store} {id : String} {user : User} (hrow : s.users.get? id = some user)
    {requests : List VerifyRequest} (hwrong : ∀ r ∈ requests, r.userId = id → WrongCode env user r.token) :
    LockInv env id user (codeCalls s requests) user := by
  have hseen : ∀ c ∈ (codeCalls s requests).calls, c.seen = [] := by
    intro c hc
    obtain ⟨r, -, rfl⟩ := List.mem_map.1 hc
    rfl
  have hnone : attempts id (codeCalls s requests) = [] := by
    refine List.filterMap_eq_nil_iff.2 fun c hc => ?_
    rw [attempt, hseen c hc]
  have hunder : ∀ c ∈ (codeCalls s requests).calls, underWay env id c = false := by
    intro c hc
    rw [underWay, attempt, hseen c hc]
    rfl
  have hzero : (codeCalls s requests).calls.countP (underWay env id) = 0 :=
    List.countP_eq_zero.2 fun c hc => by rw [hunder c hc]; decide
  refine ⟨hrow, ⟨rfl, rfl, rfl⟩, fun c hc => ?_, fun c hc _ t ht => ?_, fun a ha => ?_, hzero ▸ Nat.zero_le 1, fun c hc hu => ?_, ?_⟩
  · obtain ⟨r, hr, rfl⟩ := List.mem_map.1 hc
    exact hwrong r hr
  · rw [hseen c hc] at ht
    cases ht
  · rw [hnone] at ha
    cases ha
  · rw [hunder c hc] at hu
    cases hu
  · rw [hnone, hzero]
    exact .empty

theorem lockout_bounds_guessing (env : Env) (s : Store) (id : String) (user : User) (hrow : s.users.get? id = some user)
    (requests : List VerifyRequest) (hwrong : ∀ r ∈ requests, r.userId = id → WrongCode env user r.token)
    (moves : List (Move Nat)) (hone : Along (verifyStep env) (OneAtATime env id) (codeCalls s requests) moves) :
    ∀ pre post, moves = pre ++ post → LockoutHolds env id (run (verifyStep env) (codeCalls s requests) pre) := by
  rintro pre post rfl
  have hinv : (∃ u, LockInv env id user (run (verifyStep env) (codeCalls s requests) pre) u) ∧
      ∀ c ∈ (run (verifyStep env) (codeCalls s requests) pre).calls, CameToLock c := by
    refine run_keeps (I := fun P => (∃ u, LockInv env id user P u) ∧ ∀ c ∈ P.calls, CameToLock c) ?_ ?_ (along_append.1 hone).1
    · rintro P m ⟨⟨u, h⟩, hlock⟩ hm
      exact ⟨lockInv_step h m hm, cameToLock_step hlock m⟩
    · refine ⟨⟨user, lockInv_start hrow hwrong⟩, fun c hc hlen => ?_⟩
      obtain ⟨r, -, rfl⟩ := List.mem_map.1 hc
      exact absurd hlen (Nat.not_succ_le_zero 1)
  obtain ⟨⟨u, h⟩, hlock⟩ := hinv
  exact ⟨fun z hz hzero => h.ledger.bound h.one hz hzero, fun c hc hid hlen hnone =>
    refused_of_cameToLock (hlock c hc) hid hlen hnone⟩

/-! ## Six guesses at once -/

def guesses (n : Nat) : List VerifyRequest := List.replicate n ⟨"ada", "000000"⟩

theorem guess_wrong : WrongCode codeBook ada "000000" := by
  refine ⟨fun _ _ _ => rfl, ?_⟩
  decide

theorem guesses_wrong (n : Nat) : ∀ r ∈ guesses n, r.userId = "ada" → WrongCode codeBook ada r.token := by
  intro r hr _
  rw [(List.mem_replicate.1 hr).2]
  exact guess_wrong

/-- A guess, from its first step to its last; the fifth has one step more. -/
def guess (i : Nat) : List (Move Nat) := [.call i, .call i, .call i]

/-- One after the other: the sixth is refused. -/
theorem guesses_one_after_the_other :
    LockoutHolds codeBook "ada" (run (verifyStep codeBook) (codeCalls withAda (guesses 6))
      (guess 0 ++ guess 1 ++ guess 2 ++ guess 3 ++ guess 4 ++ [.call 4, .other 5] ++ guess 5)) :=
  lockout_bounds_guessing codeBook withAda "ada" ada rfl (guesses 6) (guesses_wrong 6) _ (by decide +kernel) _ []
    (List.append_nil _).symm

theorem six_guesses_at_once :
    ¬∀ (env : Env) (s : Store) (id : String) (user : User), s.users.get? id = some user →
      ∀ (requests : List VerifyRequest), (∀ r ∈ requests, r.userId = id → WrongCode env user r.token) →
        ∀ (moves : List (Move Nat)) pre post, moves = pre ++ post →
          LockoutHolds env id (run (verifyStep env) (codeCalls s requests) pre) := by
  intro h
  have hholds := h codeBook withAda "ada" ada rfl (guesses 6) (guesses_wrong 6)
    [.call 0, .call 1, .call 2, .call 3, .call 4, .call 5, .call 0, .call 1, .call 2, .call 3, .call 4, .call 5] _ []
    (List.append_nil _).symm
  have hbound := hholds.bounded ⟨0, 1000⟩ (by decide +kernel) rfl
  revert hbound
  decide +kernel

end ClusterGate.Accounts
