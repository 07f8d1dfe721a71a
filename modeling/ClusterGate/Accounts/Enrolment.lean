/-
  ClusterGate.Accounts.Enrolment — the second factor is set up, enabled and disabled step by
  step (`services/twoFactorService.ts`: `generateSetup`, `verifyAndEnable`, `disable`;
  `adminDisable2FA` of `services/userService.ts`).

  A setup stores a secret of its own, and a code for the stored secret enables it. Each call
  decides by the row it has read and writes the columns it means, whatever the row has become.
  - `enrols`: what each step of a call does, told from what it has seen.
  - `stored_secret_origin`: a secret that is stored was there before or is a setup's that has
    written.
  - `enrolled_secret_proven_iff`: an enabled factor has a secret somebody has proven with a code,
    in every state of a run, exactly if each setup writes to a row that is not enabled and
    each enabling write finds a secret that was proven.
  - `a_late_setup_replaces_the_secret`: two tabs, and a user who is locked out.
-/

import ClusterGate.Accounts.TwoFactor
import ClusterGate.Lib.Claims

namespace ClusterGate.Accounts

open Lib Lib.Act Async Auth

/-! ## The services -/

def secretStored (secret : String) (u : User) : User := { u with twoFactorSecret := some secret }

/-- `generateSetup`; `secret` is the one that is drawn. -/
def generateSetup (userId secret : String) : Service String := do
  let user ← await (userById userId)
  require (user.twoFactorEnabled = false) (.badRequest "Two-factor authentication is already enabled")
  let _ ← await (updateUserRow userId (secretStored secret))
  pure secret

/-- The row of a user who may enable the second factor, and the secret. -/
def pendingSetup (userId : String) : Query (User × String) := do
  let user ← userById userId
  require (user.twoFactorEnabled = false) (.badRequest "Two-factor authentication is already enabled")
  let secret ← orThrow (user.twoFactorSecret.filter (· ≠ "")) (.badRequest "Two-factor setup has not been initiated")
  pure (user, secret)

def factorEnabled (hashedCodes : List String) (u : User) : User :=
  { u with twoFactorEnabled := true, recoveryCodes := hashedCodes }

/-- `verifyAndEnable`; `plaintextCodes` are the recovery codes that are drawn. -/
def verifyAndEnable (env : Env) (userId token : String) (plaintextCodes : List String) : Service (List String) := do
  let (user, secret) ← await (pendingSetup userId)
  let now ← await clock
  require (env.totpValidate secret user.email token now = true) (.badRequest "Invalid verification code")
  let _ ← await (updateUserRow userId (factorEnabled (plaintextCodes.map env.bcryptHash)))
  pure plaintextCodes

def factorDisabled (u : User) : User :=
  { u with twoFactorSecret := none, twoFactorEnabled := false, recoveryCodes := [] }

def disable (env : Env) (userId password : String) : Service Unit := do
  let user ← await (userById userId)
  require (user.twoFactorEnabled = true) (.badRequest "Two-factor authentication is not enabled")
  require (env.bcryptCompare password user.passwordHash = true) (.badRequest "Invalid password")
  let _ ← await (updateUserRow userId factorDisabled)

def adminDisable2FA (userId : String) : Service User := do
  let user ← await (userById userId)
  require (user.twoFactorEnabled = true) (.badRequest "Two-factor authentication is not enabled")
  await (updateUserRow userId factorDisabled)

inductive EnrolOp
  | setup (secret : String)
  | enable (token : String) (plaintextCodes : List String)
  | disable (password : String)
  | adminDisable
  deriving DecidableEq

structure EnrolRequest where
  userId : String
  op : EnrolOp
  deriving DecidableEq

def enrolling (env : Env) (r : EnrolRequest) : Service Unit :=
  match r.op with
  | .setup secret => do
    let _ ← generateSetup r.userId secret
  | .enable token plaintextCodes => do
    let _ ← verifyAndEnable env r.userId token plaintextCodes
  | .disable password => disable env r.userId password
  | .adminDisable => do
    let _ ← adminDisable2FA r.userId

/-! ## What else happens -/

/-- A write of other columns of a user row: a profile, a password, a login. -/
structure OtherColumns where
  write : User → User
  enabled : ∀ u, (write u).twoFactorEnabled = u.twoFactorEnabled
  secret : ∀ u, (write u).twoFactorSecret = u.twoFactorSecret

/-- A user who has just joined. -/
structure Newcomer where
  row : User
  enabled : row.twoFactorEnabled = false
  secret : row.twoFactorSecret = none

inductive Meanwhile
  | wait (ms : Nat)
  | write (id : String) (columns : OtherColumns)
  | join (id : String) (newcomer : Newcomer)

def Meanwhile.apply : Meanwhile → Store → Store
  | .wait ms, s => s.elapse ms
  | .write id columns, s => s.writeUser id columns.write
  | .join id newcomer, s =>
    if (s.users.get? id).isNone then { s with users := s.users.insert id newcomer.row } else s

abbrev EnrolCall := Call EnrolRequest Store
abbrev EnrolPool := Pool Store EnrolCall

def enrolStep (env : Env) : EnrolPool → Move Meanwhile → EnrolPool := Pool.step (Call.advance (enrolling env)) Meanwhile.apply

def enrolCalls (s : Store) (requests : List EnrolRequest) : EnrolPool := ⟨s, requests.map Call.start⟩

/-! ## What each step does -/

/-- A step of a call. The row that is written may be gone by then. -/
inductive EnrolStep (env : Env) (r : EnrolRequest) : List Store → Store → Store → Prop
  | read (s : Store) : EnrolStep env r [] s s
  | clock (found s : Store) (token : String) (plaintextCodes : List String) (op : r.op = .enable token plaintextCodes) :
      EnrolStep env r [found] s s
  | gone (found : Store) (seen : List Store) (s : Store) (none : s.users.get? r.userId = none) :
      EnrolStep env r (found :: seen) s s
  | setup (found s : Store) (secret : String) (op : r.op = .setup secret) (row : (s.users.get? r.userId).isSome) :
      EnrolStep env r [found] s (s.writeUser r.userId (secretStored secret))
  | enable (found clocked s : Store) (user : User) (secret token : String) (plaintextCodes : List String)
      (op : r.op = .enable token plaintextCodes) (read : found.users.get? r.userId = some user)
      (stored : user.twoFactorSecret = some secret) (right : env.totpValidate secret user.email token clocked.now = true)
      (row : (s.users.get? r.userId).isSome) :
      EnrolStep env r [found, clocked] s (s.writeUser r.userId (factorEnabled (plaintextCodes.map env.bcryptHash)))
  | disable (found s : Store) (op : r.op = .adminDisable ∨ ∃ password, r.op = .disable password)
      (row : (s.users.get? r.userId).isSome) : EnrolStep env r [found] s (s.writeUser r.userId factorDisabled)

theorem pendingSetup_state (id : String) (s : Store) : (pendingSetup id s).2 = s := by
  refine wp_final (P := fun t => t = s) ?_
  simp only [pendingSetup, userById, wp_bind, wp_findUser, wp_orThrow, wp_require, wp_pure, implies_true, and_self]

theorem pendingSetup_ok {id secret : String} {s : Store} {user : User} (h : (pendingSetup id s).1 = .ok (user, secret)) :
    s.users.get? id = some user ∧ user.twoFactorEnabled = false ∧ user.twoFactorSecret = some secret := by
  have hwp : wp (pendingSetup id) (fun p _ => s.users.get? id = some p.1 ∧ p.1.twoFactorEnabled = false ∧
      p.1.twoFactorSecret = some p.2) (fun _ _ => True) s := by
    simp only [pendingSetup, userById, wp_bind, wp_findUser, wp_orThrow, wp_require, wp_pure, implies_true, and_true]
    intro user hu hoff secret hsecret
    exact ⟨hu, hoff, (Option.filter_eq_some_iff.1 hsecret).1⟩
  exact wp_outcome_ok hwp h

/-- The write a call ends with. -/
theorem tells_write {env : Env} {r : EnrolRequest} {found : Store} {seen : List Store} {data : User → User}
    (hwrite : ∀ s, (s.users.get? r.userId).isSome → EnrolStep env r (found :: seen) s (s.writeUser r.userId data)) :
    Tells (EnrolStep env r) (fun _ _ => True) (found :: seen) (await (updateUserRow r.userId data)) := by
  rw [tells_await]
  intro s
  refine ⟨?_, fun _ _ => trivial⟩
  rw [updateUserRow_state]
  split
  · rename_i hrow
    exact hwrite s hrow
  · rename_i hrow
    exact .gone found seen s (Option.not_isSome_iff_eq_none.1 hrow)

theorem enrols (env : Env) (r : EnrolRequest) : Tells (EnrolStep env r) (fun _ _ => True) [] (enrolling env r) := by
  have hread : ∀ s, EnrolStep env r [] s (userById r.userId s).2 := by
    intro s
    rw [userById_state]
    exact .read s
  obtain ⟨userId, op⟩ := r
  cases op with
  | setup secret =>
    simp only [enrolling, generateSetup, tells_bind, tells_await (userById _), tells_require, tells_pure]
    intro found
    refine ⟨hread found, fun user _ _ => ?_⟩
    exact tells_write (r := ⟨userId, .setup secret⟩) fun s hrow => .setup found s secret rfl hrow
  | enable token plaintextCodes =>
    simp only [enrolling, verifyAndEnable, tells_bind, tells_await (pendingSetup _), tells_await clock, tells_require, tells_pure]
    intro found
    rw [pendingSetup_state]
    refine ⟨.read found, fun p hp clocked => ⟨.clock found clocked token plaintextCodes rfl, fun now hnow hright => ?_⟩⟩
    obtain ⟨user, secret⟩ := p
    obtain rfl : clocked.now = now := Except.ok.inj hnow
    obtain ⟨hrow, -, hstored⟩ := pendingSetup_ok hp
    exact tells_write (r := ⟨userId, .enable token plaintextCodes⟩) fun s hs =>
      .enable found clocked s user secret token plaintextCodes rfl hrow hstored hright hs
  | disable password =>
    simp only [enrolling, disable, tells_bind, tells_await (userById _), tells_require, tells_pure]
    intro found
    refine ⟨hread found, fun user _ _ _ => ?_⟩
    exact tells_write (r := ⟨userId, .disable password⟩) fun s hrow => .disable found s (.inr ⟨password, rfl⟩) hrow
  | adminDisable =>
    simp only [enrolling, adminDisable2FA, tells_bind, tells_await (userById _), tells_require, tells_pure]
    intro found
    refine ⟨hread found, fun user _ _ => ?_⟩
    exact tells_write (r := ⟨userId, .adminDisable⟩) fun s hrow => .disable found s (.inl rfl) hrow

/-! ## Secrets that were proven -/

def Store.storesSecret (s : Store) (id secret : String) : Bool :=
  (s.users.get? id).any fun u => u.twoFactorSecret = some secret

/-- Enabled, with that secret. -/
def Store.enrolledWith (s : Store) (id secret : String) : Bool :=
  (s.users.get? id).any fun u => u.twoFactorEnabled && u.twoFactorSecret = some secret

/-- The call has compared a code with the secret it has read, and the code was right. -/
def proves (env : Env) (id secret : String) (c : EnrolCall) : Bool :=
  match c.request.op, c.seen with
  | .enable token _, found :: clocked :: _ => c.request.userId = id && (found.users.get? id).any fun user =>
      user.twoFactorSecret = some secret && env.totpValidate secret user.email token clocked.now
  | _, _ => false

/-- The secret was the user's before, or a call has proven it. -/
def proven (env : Env) (s₀ : Store) (P : EnrolPool) (id secret : String) : Bool :=
  s₀.enrolledWith id secret || P.calls.any (proves env id secret)

/-- Who has the second factor enabled has a secret that was proven. -/
def SecretsProven (env : Env) (s₀ : Store) (P : EnrolPool) : Prop :=
  ∀ id user, P.shared.users.get? id = some user → user.twoFactorEnabled = true →
    user.twoFactorSecret.any (proven env s₀ P id) = true

/-- A setup is about to write to a row that is not enabled, an enabling call to one with a
    secret that was proven. -/
def timelyWrite (env : Env) (s₀ : Store) (P : EnrolPool) (c : EnrolCall) : Bool :=
  match c.request.op, c.seen with
  | .setup _, [_] => (P.shared.users.get? c.request.userId).all fun u => !u.twoFactorEnabled
  | .enable _ _, [_, _] =>
    (P.shared.users.get? c.request.userId).all fun u => u.twoFactorSecret.any (proven env s₀ P c.request.userId)
  | _, _ => true

def Timely (env : Env) (s₀ : Store) (P : EnrolPool) : Move Meanwhile → Prop
  | .other _ => True
  | .call i => ∀ c ∈ P.calls[i]?, c.ended (enrolling env) = false → timelyWrite env s₀ P c = true

instance (env : Env) (s₀ : Store) (P : EnrolPool) : ∀ m, Decidable (Timely env s₀ P m)
  | .other _ => instDecidableTrue
  | .call i => inferInstanceAs (Decidable (∀ c ∈ P.calls[i]?, c.ended (enrolling env) = false → timelyWrite env s₀ P c = true))

/-- The secret a setup draws. -/
def EnrolRequest.drawn (r : EnrolRequest) : Option String :=
  match r.op with
  | .setup secret => some secret
  | _ => none

section Lemmas

variable {env : Env} {s₀ : Store} {P : EnrolPool} {id secret : String} {c : EnrolCall}

theorem storesSecret_iff {s : Store} : s.storesSecret id secret = true ↔
    ∃ u, s.users.get? id = some u ∧ u.twoFactorSecret = some secret := by
  simp [Store.storesSecret, Option.any_eq_true]

theorem enrolledWith_stores {s : Store} (h : s.enrolledWith id secret = true) : s.storesSecret id secret = true := by
  simp only [Store.enrolledWith, Option.any_eq_true, Bool.and_eq_true, decide_eq_true_eq] at h
  obtain ⟨u, hu, -, hsecret⟩ := h
  exact storesSecret_iff.2 ⟨u, hu, hsecret⟩

/-- What was compared was read. -/
theorem proves_found (h : proves env id secret c = true) :
    ∃ found, c.seen.head? = some found ∧ found.storesSecret id secret = true := by
  unfold proves at h
  split at h
  · rename_i token codes found clocked more hop hseen
    simp only [Bool.and_eq_true, Option.any_eq_true, decide_eq_true_eq] at h
    obtain ⟨-, user, hu, hsecret, -⟩ := h
    exact ⟨found, by rw [hseen]; rfl, storesSecret_iff.2 ⟨user, hu, hsecret⟩⟩
  · cases h

theorem proves_later (s : Store) (h : proves env id secret c = true) :
    proves env id secret ⟨c.request, c.seen ++ [s]⟩ = true := by
  unfold proves at h
  split at h
  · rename_i token codes found clocked more hop hseen
    unfold proves
    rw [hop, hseen]
    exact h
  · cases h

/-- Only the second step of an enabling call compares. -/
theorem proves_concat (s : Store) (h : c.request.drawn ≠ none ∨ c.seen.length ≠ 1) :
    proves env id secret ⟨c.request, c.seen ++ [s]⟩ = proves env id secret c := by
  obtain ⟨⟨userId, op⟩, seen⟩ := c
  cases op with
  | enable token codes =>
    match seen with
    | [] => rfl
    | [found] => simp [EnrolRequest.drawn] at h
    | found :: clocked :: more => rfl
  | setup | disable | adminDisable => rfl

theorem proven_iff : proven env s₀ P id secret = true ↔
    s₀.enrolledWith id secret = true ∨ ∃ c ∈ P.calls, proves env id secret c = true := by
  simp [proven]

theorem proven_step (m : Move Meanwhile) (h : proven env s₀ P id secret = true) :
    proven env s₀ (enrolStep env P m) id secret = true := by
  rcases proven_iff.1 h with h | h
  · exact proven_iff.2 (.inl h)
  · exact proven_iff.2 (.inr (Pool.exists_step h (fun c s => proves_later s) m))

/-- A step that compares nothing proves nothing. -/
theorem proven_same {i : Nat} (hc : P.calls[i]? = some c) (hg : c.ended (enrolling env) = false)
    (h : c.request.drawn ≠ none ∨ c.seen.length ≠ 1) :
    proven env s₀ (enrolStep env P (.call i)) id secret = proven env s₀ P id secret := by
  rw [Bool.eq_iff_iff]
  refine ⟨fun hnew => ?_, proven_step _⟩
  rcases proven_iff.1 hnew with hold | ⟨d, hd, hproves⟩
  · exact proven_iff.2 (.inl hold)
  · refine proven_iff.2 (.inr ?_)
    rw [enrolStep, Pool.step_going hc hg] at hd
    rcases List.mem_or_eq_of_mem_set hd with hd | rfl
    · exact ⟨d, hd, hproves⟩
    · rw [proves_concat P.shared h] at hproves
      exact ⟨c, List.mem_of_getElem? hc, hproves⟩

end Lemmas

/-! ## Where a secret is from -/

/-- A setup that has written. -/
def wrote (id secret : String) (c : EnrolCall) : Prop := c.request = ⟨id, .setup secret⟩ ∧ 2 ≤ c.seen.length

/-- What is stored was so before, or is the secret of a setup that has written. -/
def FromSetup (s₀ : Store) (P : EnrolPool) (s : Store) : Prop :=
  ∀ id secret, s.storesSecret id secret = true → s₀.storesSecret id secret = true ∨ ∃ c ∈ P.calls, wrote id secret c

structure Origins (requests : List EnrolRequest) (s₀ : Store) (P : EnrolPool) : Prop where
  requests : P.calls.map Call.request = requests
  shared : FromSetup s₀ P P.shared
  seen : ∀ c ∈ P.calls, ∀ s ∈ c.seen, FromSetup s₀ P s

section Origins

variable {env : Env} {requests : List EnrolRequest} {s₀ : Store} {P : EnrolPool}

theorem fromSetup_step {s : Store} (h : FromSetup s₀ P s) (m : Move Meanwhile) : FromSetup s₀ (enrolStep env P m) s := by
  intro id secret hstored
  refine (h id secret hstored).imp_right fun hwrote => ?_
  refine Pool.exists_step hwrote (fun c s hc => ⟨hc.1, ?_⟩) m
  have := hc.2
  simp only [List.length_append, List.length_singleton]
  omega

/-- A write of a user row, seen in the secrets. -/
theorem storesSecret_write {s : Store} {userId id secret : String} {data : User → User}
    (h : (s.writeUser userId data).storesSecret id secret = true) :
    s.storesSecret id secret = true ∨ (id = userId ∧ ∃ u, (data u).twoFactorSecret = some secret ∧ s.users.get? userId = some u) := by
  obtain ⟨u, hu, hsecret⟩ := storesSecret_iff.1 h
  rw [Store.writeUser_users, Table.get?_modify] at hu
  split at hu
  · rename_i hid
    obtain ⟨u', hu', rfl⟩ := Option.map_eq_some_iff.1 hu
    exact .inr ⟨hid, u', hsecret, hid ▸ hu'⟩
  · exact .inl (storesSecret_iff.2 ⟨u, hu, hsecret⟩)

theorem storesSecret_meanwhile {e : Meanwhile} {s : Store} {id secret : String}
    (h : (e.apply s).storesSecret id secret = true) : s.storesSecret id secret = true := by
  cases e with
  | wait ms => exact h
  | write userId columns =>
    rcases storesSecret_write h with h | ⟨rfl, u, hsecret, hu⟩
    · exact h
    · rw [columns.secret] at hsecret
      exact storesSecret_iff.2 ⟨u, hu, hsecret⟩
  | join userId newcomer =>
    rw [Meanwhile.apply] at h
    split at h
    · rename_i hnone
      obtain ⟨u, hu, hsecret⟩ := storesSecret_iff.1 h
      rw [Table.get?_insert (Option.isNone_iff_eq_none.1 hnone)] at hu
      split at hu
      · obtain rfl := Option.some.inj hu
        rw [newcomer.secret] at hsecret
        cases hsecret
      · exact storesSecret_iff.2 ⟨u, hu, hsecret⟩
    · exact h

/-- A step that stores a secret is a setup's. -/
theorem EnrolStep.stored {r : EnrolRequest} {seen : List Store} {s s' : Store} {id secret : String}
    (step : EnrolStep env r seen s s') (h : s'.storesSecret id secret = true) :
    s.storesSecret id secret = true ∨ (r = ⟨id, .setup secret⟩ ∧ seen.length = 1) := by
  obtain ⟨userId, op⟩ := r
  cases step with
  | read | clock | gone => exact .inl h
  | setup found _ drawn op row =>
    obtain rfl := op
    rcases storesSecret_write h with h | ⟨rfl, u, hsecret, -⟩
    · exact .inl h
    · obtain rfl : drawn = secret := Option.some.inj hsecret
      exact .inr ⟨rfl, rfl⟩
  | enable found clocked _ user secret' token codes op read stored right row =>
    rcases storesSecret_write h with h | ⟨rfl, u, hsecret, hu⟩
    · exact .inl h
    · exact .inl (storesSecret_iff.2 ⟨u, hu, hsecret⟩)
  | disable found _ op row =>
    rcases storesSecret_write h with h | ⟨rfl, u, hsecret, -⟩
    · exact .inl h
    · cases hsecret

theorem stored_secret_origin (h : Origins requests s₀ P) (m : Move Meanwhile) : Origins requests s₀ (enrolStep env P m) := by
  have hrequests : (enrolStep env P m).calls.map Call.request = requests := (Pool.requests_step m).trans h.requests
  cases m with
  | other e =>
    refine ⟨hrequests, ?_, fun c hc s hs => fromSetup_step (h.seen c hc s hs) (.other e)⟩
    intro id secret hstored
    exact h.shared id secret (storesSecret_meanwhile hstored)
  | call i =>
    cases hc : P.calls[i]? with
    | none =>
      rw [enrolStep, Pool.step_none hc]
      exact h
    | some c =>
      cases hg : c.ended (enrolling env) with
      | true =>
        rw [enrolStep, Pool.step_ended hc hg]
        exact h
      | false =>
        refine ⟨hrequests, ?_, ?_⟩
        · intro id secret hstored
          have hmem : ⟨c.request, c.seen ++ [P.shared]⟩ ∈ (enrolStep env P (.call i)).calls := Pool.going_mem hc hg
          rw [enrolStep, Pool.step_going hc hg] at hstored
          rcases (tells_step (enrols env c.request) hg P.shared).stored hstored with hold | ⟨hrequest, hseen⟩
          · exact fromSetup_step h.shared (.call i) id secret hold
          · refine .inr ⟨_, hmem, hrequest, ?_⟩
            simp only [List.length_append, List.length_singleton, hseen]
            omega
        · intro d hd s hs
          refine fromSetup_step ?_ (.call i)
          rw [enrolStep, Pool.step_going hc hg] at hd
          rcases List.mem_or_eq_of_mem_set hd with hd | rfl
          · exact h.seen d hd s hs
          · rcases List.mem_append.1 hs with hs | hs
            · exact h.seen c (List.mem_of_getElem? hc) s hs
            · rw [List.mem_singleton.1 hs]
              exact h.shared

/-- A secret that is about to be stored has not been proven. -/
theorem unproven_setup (h : Origins requests s₀ P) (hdistinct : (requests.filterMap EnrolRequest.drawn).Nodup)
    (hnew : ∀ secret ∈ requests.filterMap EnrolRequest.drawn, ∀ id, s₀.storesSecret id secret = false)
    {c : EnrolCall} (hc : c ∈ P.calls) {secret : String} (hdrawn : c.request.drawn = some secret)
    (hseen : c.seen.length < 2) (id : String) : proven env s₀ P id secret = false := by
  have hmem : secret ∈ requests.filterMap EnrolRequest.drawn := by
    rw [← h.requests]
    exact List.mem_filterMap.2 ⟨c.request, List.mem_map_of_mem hc, hdrawn⟩
  have hbefore : s₀.storesSecret id secret = false := hnew secret hmem id
  rw [← Bool.not_eq_true]
  intro hproven
  rcases proven_iff.1 hproven with hproven | ⟨d, hd, hproven⟩
  · rw [enrolledWith_stores hproven] at hbefore
    cases hbefore
  · obtain ⟨found, hfound, hstored⟩ := proves_found hproven
    rcases h.seen d hd found (List.mem_of_mem_head? hfound) id secret hstored with hold | ⟨e, he, hwrote⟩
    · rw [hold] at hbefore
      cases hbefore
    · have hnodup : (P.calls.filterMap fun c => c.request.drawn).Nodup := by
        have hmap := List.filterMap_map (f := Call.request) (g := EnrolRequest.drawn) (l := P.calls)
        rw [h.requests] at hmap
        rwa [hmap] at hdistinct
      have hsame : c = e := Pool.eq_of_claims hnodup hc he hdrawn (by rw [hwrote.1]; rfl)
      have hlong := hwrote.2
      rw [← hsame] at hlong
      omega

end Origins

/-! ## Runs -/

section Runs

variable {env : Env} {requests : List EnrolRequest} {s₀ : Store} {P P' : EnrolPool}

/-- What was proven stays so. -/
theorem any_proven_step {id : String} {secret : Option String} (m : Move Meanwhile)
    (h : secret.any (proven env s₀ P id) = true) : secret.any (proven env s₀ (enrolStep env P m) id) = true := by
  obtain ⟨x, hx, hproven⟩ := (Option.any_eq_true _ _).1 h
  exact (Option.any_eq_true _ _).2 ⟨x, hx, proven_step m hproven⟩

/-- Rows whose factor is as it was. -/
theorem secretsProven_same (hP : SecretsProven env s₀ P) (m : Move Meanwhile)
    (hrows : ∀ id u', (enrolStep env P m).shared.users.get? id = some u' → u'.twoFactorEnabled = true →
      ∃ u, P.shared.users.get? id = some u ∧ u.twoFactorEnabled = true ∧ u.twoFactorSecret = u'.twoFactorSecret) :
    SecretsProven env s₀ (enrolStep env P m) := by
  intro id u' hu' henabled
  obtain ⟨u, hu, hon, hsecret⟩ := hrows id u' hu' henabled
  rw [← hsecret]
  exact any_proven_step m (hP id u hu hon)

/-- A write of a row decides about that row. -/
theorem secretsProven_write (hP : SecretsProven env s₀ P) (m : Move Meanwhile) {userId : String} (data : User → User) {u : User}
    (hshared : (enrolStep env P m).shared = P.shared.writeUser userId data) (hu : P.shared.users.get? userId = some u) :
    SecretsProven env s₀ (enrolStep env P m) ↔ ((data u).twoFactorEnabled = true →
      (data u).twoFactorSecret.any (proven env s₀ (enrolStep env P m) userId) = true) := by
  have hget : ∀ id, (enrolStep env P m).shared.users.get? id =
      if id = userId then (P.shared.users.get? userId).map data else P.shared.users.get? id := by
    intro id
    rw [hshared, Store.writeUser_users, Table.get?_modify]
  constructor
  · intro h
    refine h userId (data u) ?_
    rw [hget, if_pos rfl, hu, Option.map_some]
  · intro h id u' hu' henabled
    rw [hget] at hu'
    by_cases hid : id = userId
    · rw [if_pos hid, hu] at hu'
      obtain rfl : data u = u' := Option.some.inj hu'
      rw [hid]
      exact h henabled
    · rw [if_neg hid] at hu'
      exact any_proven_step m (hP id u' hu' henabled)

theorem timely_other (hP : SecretsProven env s₀ P) (e : Meanwhile) : SecretsProven env s₀ (enrolStep env P (.other e)) := by
  refine secretsProven_same hP (.other e) ?_
  intro id u' hu' henabled
  change (e.apply P.shared).users.get? id = some u' at hu'
  cases e with
  | wait ms => exact ⟨u', hu', henabled, rfl⟩
  | write userId columns =>
    rw [Meanwhile.apply, Store.writeUser_users, Table.get?_modify] at hu'
    split at hu'
    · rename_i hid
      obtain ⟨u, hu, rfl⟩ := Option.map_eq_some_iff.1 hu'
      exact ⟨u, hid ▸ hu, by rw [← columns.enabled]; exact henabled, (columns.secret u).symm⟩
    · exact ⟨u', hu', henabled, rfl⟩
  | join userId newcomer =>
    rw [Meanwhile.apply] at hu'
    split at hu'
    · rename_i hnone
      rw [Table.get?_insert (Option.isNone_iff_eq_none.1 hnone)] at hu'
      split at hu'
      · obtain rfl := Option.some.inj hu'
        rw [newcomer.enabled] at henabled
        cases henabled
      · exact ⟨u', hu', henabled, rfl⟩
    · exact ⟨u', hu', henabled, rfl⟩

/-- A step of a call keeps enabled secrets proven exactly if it is timely. -/
theorem timely_call (h : Origins requests s₀ P) (hdistinct : (requests.filterMap EnrolRequest.drawn).Nodup)
    (hnew : ∀ secret ∈ requests.filterMap EnrolRequest.drawn, ∀ id, s₀.storesSecret id secret = false)
    (hP : SecretsProven env s₀ P) {i : Nat} {c : EnrolCall} (hc : P.calls[i]? = some c) (hg : c.ended (enrolling env) = false) :
    timelyWrite env s₀ P c = true ↔ SecretsProven env s₀ (enrolStep env P (.call i)) := by
  have hmem := List.mem_of_getElem? hc
  have hstep : EnrolStep env c.request c.seen P.shared (enrolStep env P (.call i)).shared := by
    rw [enrolStep, Pool.step_going hc hg]
    exact tells_step (enrols env c.request) hg P.shared
  have hsame : (enrolStep env P (.call i)).shared = P.shared → SecretsProven env s₀ (enrolStep env P (.call i)) := by
    intro heq
    refine secretsProven_same hP (.call i) fun id u' hu' henabled => ⟨u', ?_, henabled, rfl⟩
    rw [← heq]
    exact hu'
  obtain ⟨⟨userId, op⟩, seen⟩ := c
  dsimp only at hstep
  generalize hs : P.shared = s, hs' : (enrolStep env P (.call i)).shared = s' at hstep
  cases hstep with
  | read =>
    refine iff_of_true ?_ (hsame (hs'.trans hs.symm))
    cases op <;> rfl
  | clock found _ token codes hop =>
    obtain rfl := hop
    exact iff_of_true rfl (hsame (hs'.trans hs.symm))
  | gone found more _ hnone =>
    refine iff_of_true ?_ (hsame (hs'.trans hs.symm))
    unfold timelyWrite
    split <;> simp [hs, hnone]
  | setup found _ secret hop row =>
    obtain rfl := hop
    obtain ⟨u, hu⟩ := Option.isSome_iff_exists.1 row
    have hunproven : proven env s₀ P userId secret = false :=
      unproven_setup h hdistinct hnew hmem rfl (by simp) userId
    have hnow : proven env s₀ (enrolStep env P (.call i)) userId secret = false :=
      (proven_same hc hg (.inl (by simp [EnrolRequest.drawn]))).trans hunproven
    rw [secretsProven_write hP (.call i) (secretStored secret) (by rw [hs', hs]) (hs ▸ hu)]
    simp [timelyWrite, secretStored, hs, hu, hnow]
  | enable found clocked _ user secret token codes hop read stored right row =>
    obtain rfl := hop
    obtain ⟨u, hu⟩ := Option.isSome_iff_exists.1 row
    have hnow : ∀ x, proven env s₀ (enrolStep env P (.call i)) userId x = proven env s₀ P userId x :=
      fun x => proven_same hc hg (.inr (by simp))
    rw [secretsProven_write hP (.call i) (factorEnabled (codes.map env.bcryptHash)) (by rw [hs', hs]) (hs ▸ hu)]
    simp [timelyWrite, factorEnabled, hs, hu, funext hnow]
  | disable found _ hop row =>
    obtain ⟨u, hu⟩ := Option.isSome_iff_exists.1 row
    rw [secretsProven_write hP (.call i) factorDisabled (by rw [hs', hs]) (hs ▸ hu)]
    refine iff_of_true ?_ (fun hon => by cases hon)
    rcases hop with rfl | ⟨password, rfl⟩ <;> rfl

theorem timely_step (h : Origins requests s₀ P) (hdistinct : (requests.filterMap EnrolRequest.drawn).Nodup)
    (hnew : ∀ secret ∈ requests.filterMap EnrolRequest.drawn, ∀ id, s₀.storesSecret id secret = false)
    (hP : SecretsProven env s₀ P) (m : Move Meanwhile) : Timely env s₀ P m ↔ SecretsProven env s₀ (enrolStep env P m) := by
  cases m with
  | other e => exact iff_of_true trivial (timely_other hP e)
  | call i =>
    cases hc : P.calls[i]? with
    | none =>
      rw [enrolStep, Pool.step_none hc]
      refine iff_of_true ?_ hP
      intro c hd
      rw [hc] at hd
      cases hd
    | some c =>
      cases hg : c.ended (enrolling env) with
      | true =>
        rw [enrolStep, Pool.step_ended hc hg]
        refine iff_of_true ?_ hP
        intro d hd hgd
        obtain rfl := Option.some.inj (hc.symm.trans hd)
        rw [hg] at hgd
        cases hgd
      | false =>
        rw [← timely_call h hdistinct hnew hP hc hg]
        constructor
        · exact fun htimely => htimely c hc hg
        · intro htimely d hd _
          obtain rfl := Option.some.inj (hc.symm.trans hd)
          exact htimely

end Runs

/-- The setups of the calls draw secrets that are new, each another one. -/
structure DrawsNew (s₀ : Store) (requests : List EnrolRequest) : Prop where
  distinct : (requests.filterMap EnrolRequest.drawn).Nodup
  new : ∀ secret ∈ requests.filterMap EnrolRequest.drawn, ∀ id, s₀.storesSecret id secret = false

theorem enrolled_secret_proven_iff (env : Env) (s₀ : Store) (requests : List EnrolRequest) (hdraws : DrawsNew s₀ requests)
    (h₀ : ∀ id user, s₀.users.get? id = some user → user.twoFactorEnabled = true → user.twoFactorSecret.isSome)
    (moves : List (Move Meanwhile)) :
    (∀ pre post, moves = pre ++ post → SecretsProven env s₀ (run (enrolStep env) (enrolCalls s₀ requests) pre)) ↔
      Along (enrolStep env) (Timely env s₀) (enrolCalls s₀ requests) moves := by
  have hfresh : ∀ c ∈ (enrolCalls s₀ requests).calls, c.seen = [] := by
    intro c hc
    obtain ⟨r, -, rfl⟩ := List.mem_map.1 hc
    rfl
  have horigins : Origins requests s₀ (enrolCalls s₀ requests) := by
    refine ⟨?_, fun id secret h => .inl h, fun c hc s hs => ?_⟩
    · simp [enrolCalls, Function.comp_def, Call.start]
    · rw [hfresh c hc] at hs
      cases hs
  have hproven : SecretsProven env s₀ (enrolCalls s₀ requests) := by
    intro id user hu henabled
    obtain ⟨secret, hsecret⟩ := Option.isSome_iff_exists.1 (h₀ id user hu henabled)
    refine (Option.any_eq_true _ _).2 ⟨secret, hsecret, proven_iff.2 (.inl ?_)⟩
    have hrow : s₀.users.get? id = some user := hu
    simp [Store.enrolledWith, hrow, henabled, hsecret]
  rw [← throughout_iff]
  exact throughout_iff_along (I := Origins requests s₀)
    (fun P m hI hQ => timely_step hI hdraws.distinct hdraws.new hQ m) (fun P m hI _ _ => stored_secret_origin hI m) horigins hproven

/-! ## Two tabs -/

/-- The code of a secret is the secret. -/
def pocketCodes : Env where
  bcryptCompare password hash := password = hash
  bcryptHash password := password
  totpValidate secret _ token _ := secret = token
  deriveClientToken _ := ""
  isEmail _ := true
  jwtExpiresIn := 604800
  tokenLifetimeMs := 604800000
  apiClientTokenRequired := none

def dora : User := { email := "dora@corp.example", passwordHash := "hash", name := "Dora", role := .VIEWER, isActive := true }

def withDora : Store where
  users := Table.empty.insert "dora" dora
  sessions := .empty
  invites := .empty
  lastTouch := .empty
  minted := []
  passed := []
  nextLogin := 0
  now := 1000

/-- A setup in each tab, and a code for the first secret. -/
def twoTabs : List EnrolRequest :=
  [⟨"dora", .setup "JBSWY3DPEHPK3PXP"⟩, ⟨"dora", .setup "KRSXG5CTMVRXEZLU"⟩, ⟨"dora", .enable "JBSWY3DPEHPK3PXP" ["1f2e3d4c"]⟩]

theorem twoTabs_new : DrawsNew withDora twoTabs := by
  refine ⟨by decide, ?_⟩
  intro secret _ id
  rw [← Bool.not_eq_true, storesSecret_iff]
  rintro ⟨u, hu, hsecret⟩
  obtain ⟨-, rfl⟩ : id = "dora" ∧ u = dora := by
    have hrow := Table.mem_rows_iff.2 hu
    simpa [withDora, Table.insert, Table.empty] using hrow
  cases hsecret

theorem nobody_enrolled : ∀ id user, withDora.users.get? id = some user → user.twoFactorEnabled = true →
    user.twoFactorSecret.isSome := by
  intro id user hu henabled
  have hrow := Table.mem_rows_iff.2 hu
  obtain ⟨-, rfl⟩ : id = "dora" ∧ user = dora := by
    simpa [withDora, Table.insert, Table.empty] using hrow
  cases henabled

/-- The second tab has yet to begin: the code proves the first one's secret, and the factor is enabled. -/
theorem one_tab_after_the_other :
    SecretsProven pocketCodes withDora (run (enrolStep pocketCodes) (enrolCalls withDora twoTabs)
      [.call 0, .call 0, .call 2, .call 2, .call 2]) := by
  have hall := (enrolled_secret_proven_iff pocketCodes withDora twoTabs twoTabs_new nobody_enrolled
    [.call 0, .call 0, .call 2, .call 2, .call 2]).2 (by decide)
  exact hall _ [] (List.append_nil _).symm

/-- The second setup has read its row before the code is accepted, and writes after. -/
theorem a_late_setup_replaces_the_secret :
    ¬SecretsProven pocketCodes withDora (run (enrolStep pocketCodes) (enrolCalls withDora twoTabs)
      [.call 0, .call 0, .call 1, .call 2, .call 2, .call 2, .call 1]) := by
  intro h
  have hunproven := h "dora" _ rfl rfl
  revert hunproven
  decide

end ClusterGate.Accounts
