/-
  ClusterGate.Accounts.Challenge — the temp token of a two-step login is used once
  (`routes/auth.router.ts`: `POST /2fa/verify`; `services/twoFactorService.ts`:
  `startLoginChallenge`, `onVerifySuccess`).

  A verification compares its token's nonce with the stored challenge in one step, and the
  write that clears the challenge is a later one: two that overlap may both have compared.
  - `SingleUseChallenges`: a nonce has got one session at most.
  - `single_use_challenges`: so it is in every state of a run in which nonces are drawn
    afresh and no code is accepted for a challenge another was accepted for since it was
    checked (`Unraced`).
  - `one_temp_token_two_sessions`: two verifications of one token.
-/

import ClusterGate.Accounts.Login

namespace ClusterGate.Accounts

open Lib Lib.Act Async Auth

inductive SignInRequest
  | login (email password : String) (ctx : SessionContext) (sessionId nonce : String)
  | verify (tempToken : Token) (code : String) (ctx : SessionContext) (sessionId : String)

/-- The nonce a verification comes with. -/
def SignInRequest.nonce : SignInRequest → Option String
  | .verify (.signed payload) _ _ _ => payload.nonce
  | _ => none

def signIn (env : Env) : SignInRequest → Service Token
  | .login email password ctx sessionId nonce => passwordLogin env email password ctx sessionId nonce
  | .verify tempToken code ctx sessionId => twoFactorVerify env tempToken code ctx sessionId

abbrev SignInCall := Call SignInRequest Store

def signInStep (env : Env) : Pool Store SignInCall → Move Nat → Pool Store SignInCall :=
  Pool.step (Call.advance (signIn env)) Store.elapse

def signingIn (s : Store) (requests : List SignInRequest) : Pool Store SignInCall := ⟨s, requests.map Call.start⟩

/-! ## What is to hold -/

/-- The call has got a session for the challenge. -/
def issuedFor (env : Env) (nonce : String) (c : SignInCall) : Bool :=
  c.request.nonce = some nonce && (c.returned (signIn env)).isSome

def SingleUseChallenges (env : Env) (P : Pool Store SignInCall) : Prop :=
  ∀ nonce, P.calls.countP (issuedFor env nonce) ≤ 1

/-! ## The conditions -/

/-- A login is about to store a challenge: its nonce is none there has been. -/
def FreshNonce (r : SignInRequest) (seen : List Store) (s : Store) : Prop :=
  match r, seen with
  | .login _ _ _ _ nonce, [_] => ∀ p ∈ s.challenged, p.1 ≠ nonce
  | _, _ => True

/-- A right code is about to be accepted: none was for the same challenge since it was checked. -/
def Unraced (env : Env) (r : SignInRequest) (seen : List Store) (s : Store) : Prop :=
  match r, seen with
  | .verify (.signed payload) code _ _, [_, checked, found, clocked] =>
    codeRight env payload.userId code found clocked = true → ∀ n ∈ payload.nonce, n ∈ s.verified → n ∈ checked.verified
  | _, _ => True

instance (r : SignInRequest) (seen : List Store) (s : Store) : Decidable (FreshNonce r seen s) :=
  match r, seen with
  | .login _ _ _ _ nonce, [_] => inferInstanceAs (Decidable (∀ p ∈ s.challenged, p.1 ≠ nonce))
  | .login _ _ _ _ _, [] => isTrue trivial
  | .login _ _ _ _ _, _ :: _ :: _ => isTrue trivial
  | .verify _ _ _ _, _ => isTrue trivial

instance (env : Env) (r : SignInRequest) (seen : List Store) (s : Store) : Decidable (Unraced env r seen s) :=
  match r, seen with
  | .verify (.signed payload) code _ _, [_, checked, found, clocked] =>
    inferInstanceAs (Decidable (codeRight env payload.userId code found clocked = true →
      ∀ n ∈ payload.nonce, n ∈ s.verified → n ∈ checked.verified))
  | .verify (.signed _) _ _ _, [] => isTrue trivial
  | .verify (.signed _) _ _ _, [_] => isTrue trivial
  | .verify (.signed _) _ _ _, [_, _] => isTrue trivial
  | .verify (.signed _) _ _ _, [_, _, _] => isTrue trivial
  | .verify (.signed _) _ _ _, _ :: _ :: _ :: _ :: _ :: _ => isTrue trivial
  | .verify (.text _) _ _ _, _ => isTrue trivial
  | .login _ _ _ _ _, _ => isTrue trivial

/-! ## The challenges of a store -/

/-- A stored challenge is its user's, and one that was met is stored no more. -/
structure ChallengesRecorded (s : Store) : Prop where
  stored : ∀ id u n, s.users.get? id = some u → u.twoFactorChallenge = some n → (n, id) ∈ s.challenged
  unique : ∀ n id id', (n, id) ∈ s.challenged → (n, id') ∈ s.challenged → id = id'
  met : ∀ n ∈ s.verified, (∃ id, (n, id) ∈ s.challenged) ∧
    ∀ id u, s.users.get? id = some u → u.twoFactorChallenge ≠ some n

/-- The records grow. -/
structure ChallengesGrow (s s' : Store) : Prop where
  challenged : s.challenged ⊆ s'.challenged
  verified : s.verified ⊆ s'.verified

theorem ChallengesGrow.refl (s : Store) : ChallengesGrow s s := ⟨List.Subset.refl _, List.Subset.refl _⟩

theorem ChallengesGrow.trans (s t u : Store) (h : ChallengesGrow s t) (h' : ChallengesGrow t u) : ChallengesGrow s u :=
  ⟨List.Subset.trans h.challenged h'.challenged, List.Subset.trans h.verified h'.verified⟩

section Writes

variable {s s' : Store}

/-- A step that leaves the challenges as they are. -/
theorem recorded_same (h : ChallengesRecorded s) (hc : s'.challenged = s.challenged) (hv : s'.verified = s.verified)
    (hu : ∀ id u', s'.users.get? id = some u' → ∃ u, s.users.get? id = some u ∧ u'.twoFactorChallenge = u.twoFactorChallenge) :
    ChallengesRecorded s' ∧ ChallengesGrow s s' := by
  refine ⟨⟨fun id u' n hid hn => ?_, ?_, fun n hn => ⟨?_, fun id u' hid => ?_⟩⟩, ?_⟩
  · obtain ⟨u, hrow, heq⟩ := hu id u' hid
    rw [hc]
    exact h.stored id u n hrow (heq ▸ hn)
  · rw [hc]
    exact h.unique
  · rw [hc]
    exact (h.met n (hv ▸ hn)).1
  · obtain ⟨u, hrow, heq⟩ := hu id u' hid
    rw [heq]
    exact (h.met n (hv ▸ hn)).2 id u hrow
  · exact ⟨by rw [hc]; exact List.Subset.refl _, by rw [hv]; exact List.Subset.refl _⟩

theorem recorded_users (h : ChallengesRecorded s) (hc : s'.challenged = s.challenged) (hv : s'.verified = s.verified)
    (hu : s'.users = s.users) : ChallengesRecorded s' ∧ ChallengesGrow s s' := by
  refine recorded_same h hc hv fun id u' hid => ⟨u', ?_, rfl⟩
  rwa [hu] at hid

theorem writeUser_get? {userId id : String} {f : User → User} {u' : User}
    (h : (s.writeUser userId f).users.get? id = some u') :
    ∃ u, s.users.get? id = some u ∧ u' = if id = userId then f u else u := by
  rw [Store.writeUser_users, Table.get?_modify] at h
  by_cases heq : id = userId
  · rw [if_pos heq] at h
    obtain ⟨u, hu, rfl⟩ := Option.map_eq_some_iff.1 h
    exact ⟨u, heq ▸ hu, (if_pos heq).symm⟩
  · rw [if_neg heq] at h
    exact ⟨u', h, (if_neg heq).symm⟩

/-- A write of another column. -/
theorem recorded_writeUser (h : ChallengesRecorded s) {userId : String} {f : User → User}
    (hf : ∀ u, (f u).twoFactorChallenge = u.twoFactorChallenge) :
    ChallengesRecorded (s.writeUser userId f) ∧ ChallengesGrow s (s.writeUser userId f) := by
  refine recorded_same h rfl rfl fun id u' hid => ?_
  obtain ⟨u, hrow, rfl⟩ := writeUser_get? hid
  refine ⟨u, hrow, ?_⟩
  split
  · exact hf u
  · rfl

theorem recorded_challenge (h : ChallengesRecorded s) {userId nonce : String} (hfresh : ∀ p ∈ s.challenged, p.1 ≠ nonce) :
    ChallengesRecorded (s.challenge userId nonce) ∧ ChallengesGrow s (s.challenge userId nonce) := by
  have hnew : ∀ id, (nonce, id) ∉ s.challenged := fun id hmem => hfresh _ hmem rfl
  refine ⟨⟨fun id u' n hid hn => ?_, fun n id id' hid hid' => ?_, fun n hn => ⟨?_, fun id u' hid hstored => ?_⟩⟩,
    List.subset_cons_self _ _, List.Subset.refl _⟩
  · obtain ⟨u, hrow, rfl⟩ := writeUser_get? hid
    by_cases heq : id = userId
    · rw [if_pos heq] at hn
      cases hn
      rw [heq]
      exact List.mem_cons_self
    · rw [if_neg heq] at hn
      exact List.mem_cons_of_mem _ (h.stored id u n hrow hn)
  · rcases List.mem_cons.1 hid with hid | hid <;> rcases List.mem_cons.1 hid' with hid' | hid'
    · cases hid
      cases hid'
      rfl
    · cases hid
      exact absurd hid' (hnew id')
    · cases hid'
      exact absurd hid (hnew id)
    · exact h.unique n id id' hid hid'
  · obtain ⟨id, hmem⟩ := (h.met n hn).1
    exact ⟨id, List.mem_cons_of_mem _ hmem⟩
  · obtain ⟨u, hrow, rfl⟩ := writeUser_get? hid
    by_cases heq : id = userId
    · rw [if_pos heq] at hstored
      cases hstored
      obtain ⟨id', hmem⟩ := (h.met nonce hn).1
      exact hnew id' hmem
    · rw [if_neg heq] at hstored
      exact (h.met n hn).2 id u hrow hstored

/-- A code is accepted for a challenge that was the user's. -/
theorem recorded_accept (h : ChallengesRecorded s) {userId : String} {codes : List String} {nonce : Option String}
    (hown : ∀ n ∈ nonce, (n, userId) ∈ s.challenged) :
    ChallengesRecorded (s.accept userId codes nonce) ∧ ChallengesGrow s (s.accept userId codes nonce) := by
  refine ⟨⟨fun id u' n hid hn => ?_, h.unique, fun n hn => ⟨?_, fun id u' hid hstored => ?_⟩⟩,
    List.Subset.refl _, List.subset_append_right _ _⟩
  · obtain ⟨u, hrow, rfl⟩ := writeUser_get? hid
    by_cases heq : id = userId
    · rw [if_pos heq] at hn
      cases hn
    · rw [if_neg heq] at hn
      exact h.stored id u n hrow hn
  · rcases List.mem_append.1 hn with hn | hn
    · exact ⟨userId, hown n (Option.mem_toList.1 hn)⟩
    · exact (h.met n hn).1
  · obtain ⟨u, hrow, rfl⟩ := writeUser_get? hid
    by_cases heq : id = userId
    · rw [if_pos heq] at hstored
      cases hstored
    · rw [if_neg heq] at hstored
      rcases List.mem_append.1 hn with hn | hn
      · exact heq (h.unique n id userId (h.stored id u n hrow hstored) (hown n (Option.mem_toList.1 hn)))
      · exact (h.met n hn).2 id u hrow hstored

end Writes

/-! ## Steps -/

/-- A step of a request. -/
def SignInStep (env : Env) : SignInRequest → List Store → Store → Store → Prop
  | .login email password ctx sessionId nonce => LoginStep env email password ctx sessionId nonce
  | .verify tempToken code ctx sessionId => TwoFactorStep env tempToken code ctx sessionId

theorem tells_signIn (env : Env) (r : SignInRequest) : Tells (SignInStep env r) (fun _ _ => True) [] (signIn env r) := by
  cases r with
  | login email password ctx sessionId nonce => exact tells_passwordLogin env email password ctx sessionId nonce
  | verify tempToken code ctx sessionId => exact tells_twoFactorVerify env tempToken code ctx sessionId

section Steps

variable {env : Env} {seen : List Store} {s s' : Store}

theorem recorded_login {email password sessionId nonce : String} {ctx : SessionContext} (h : ChallengesRecorded s)
    (hfresh : FreshNonce (.login email password ctx sessionId nonce) seen s)
    (step : LoginStep env email password ctx sessionId nonce seen s s') : ChallengesRecorded s' ∧ ChallengesGrow s s' := by
  cases step with
  | refused => exact ⟨h, .refl s⟩
  | same => exact ⟨h, .refl s⟩
  | password id user right => exact recorded_users h rfl rfl rfl
  | loggedIn s₀ id user right row => exact recorded_writeUser h fun _ => rfl
  | session s₀ s₁ s₂ id user right free => exact recorded_users h rfl rfl rfl
  | challenge s₀ id user right row => exact recorded_challenge h hfresh
  | signed s₀ s₁ id user right => exact recorded_users h rfl rfl rfl

theorem recorded_verify {userId token : String} {nonce : Option String} (h : ChallengesRecorded s)
    (hown : ∀ n ∈ nonce, (n, userId) ∈ s.challenged) (step : VerifyStep env userId token nonce seen s s') :
    ChallengesRecorded s' ∧ ChallengesGrow s s' := by
  cases step with
  | read => exact ⟨h, .refl s⟩
  | clock s₀ => exact ⟨h, .refl s⟩
  | gone => exact ⟨h, .refl s⟩
  | success => exact recorded_accept h hown
  | failure => exact recorded_writeUser h fun _ => rfl
  | again => exact ⟨h, .refl s⟩
  | lockout => exact recorded_writeUser h fun _ => rfl

theorem recorded_finish {payload : Claims} {login : Option Login} {ctx : SessionContext} {sessionId : String}
    (h : ChallengesRecorded s) (step : FinishStep env payload login ctx sessionId seen s s') :
    ChallengesRecorded s' ∧ ChallengesGrow s s' := by
  cases step with
  | same => exact ⟨h, .refl s⟩
  | passed => exact recorded_users h rfl rfl rfl
  | loggedIn => exact recorded_writeUser h fun _ => rfl
  | session => exact recorded_users h rfl rfl rfl

/-- The challenge that was checked is its user's. -/
theorem Challenged.own {tempToken : Token} {tokened checked : Store} {payload : Claims} {login : Option Login}
    (h : Challenged tempToken tokened checked payload login) (hr : ChallengesRecorded checked) :
    ∀ n ∈ payload.nonce, (n, payload.userId) ∈ checked.challenged ∧ n ∉ checked.verified := by
  intro n hn
  obtain ⟨u, hrow, hstored, -⟩ := h.row
  rw [hn] at hstored
  refine ⟨hr.stored _ u n hrow hstored, fun hmet => ?_⟩
  exact (hr.met n hmet).2 _ u hrow hstored

theorem recorded_step {r : SignInRequest} (hseen : Call.Saw ChallengesRecorded ChallengesGrow s (⟨r, seen⟩ : SignInCall))
    (h : ChallengesRecorded s) (hfresh : FreshNonce r seen s) (step : SignInStep env r seen s s') :
    ChallengesRecorded s' ∧ ChallengesGrow s s' := by
  cases r with
  | login email password ctx sessionId nonce => exact recorded_login h hfresh step
  | verify tempToken code ctx sessionId =>
    cases step with
    | confirm _ _ _ unconfirmed step =>
      cases step with
      | token => exact ⟨h, .refl s⟩
      | check => exact ⟨h, .refl s⟩
      | verify s₀ s₁ more _ _ payload login challenged step =>
        obtain ⟨hr, hgrow⟩ := hseen s₁ (List.mem_cons_of_mem _ List.mem_cons_self)
        exact recorded_verify h (fun n hn => hgrow.challenged (challenged.own hr n hn).1) step
    | finish pre more _ _ payload login done confirmed step => exact recorded_finish h step

end Steps

/-! ## Challenges that were met -/

/-- The code of the call was accepted, for the challenge. -/
def met (env : Env) (nonce : String) (c : SignInCall) : Bool :=
  c.request.nonce = some nonce &&
    match c.request with
    | .verify tempToken code _ _ => (past (confirmed env tempToken code) c.seen).isSome
    | .login .. => false

section Met

variable {env : Env} {nonce : String}

/-- A session is issued for a challenge that was met. -/
theorem met_of_issued {c : SignInCall} (h : issuedFor env nonce c = true) : met env nonce c = true := by
  obtain ⟨r, seen⟩ := c
  rw [issuedFor, Bool.and_eq_true] at h
  obtain ⟨hnonce, hret⟩ := h
  obtain ⟨token, htoken⟩ := Option.isSome_iff_exists.1 hret
  rw [met, Bool.and_eq_true]
  refine ⟨hnonce, ?_⟩
  cases r with
  | login email password ctx sessionId n => cases of_decide_eq_true hnonce
  | verify tempToken code ctx sessionId => exact past_of_returned (Call.returned_iff.1 htoken)

theorem met_concat {r : SignInRequest} {seen : List Store} (s : Store) (h : met env nonce ⟨r, seen⟩ = true) :
    met env nonce ⟨r, seen ++ [s]⟩ = true := by
  rw [met, Bool.and_eq_true] at h ⊢
  refine ⟨h.1, ?_⟩
  cases r with
  | login email password ctx sessionId n => exact h.2
  | verify tempToken code ctx sessionId =>
    obtain ⟨⟨b, rest⟩, hpast⟩ := Option.isSome_iff_exists.1 h.2
    show (past (confirmed env tempToken code) (seen ++ [s])).isSome = true
    rw [past_concat s hpast]
    rfl

/-- The step with which a challenge is met: nobody had met it when it was checked, and the
    record has it then. -/
theorem met_now {r : SignInRequest} {seen : List Store} {s s' : Store}
    (hseen : Call.Saw ChallengesRecorded ChallengesGrow s (⟨r, seen⟩ : SignInCall)) (hunraced : Unraced env r seen s)
    (step : SignInStep env r seen s s') (hbefore : met env nonce ⟨r, seen⟩ = false)
    (hafter : met env nonce ⟨r, seen ++ [s]⟩ = true) : nonce ∉ s.verified ∧ nonce ∈ s'.verified := by
  rw [met, Bool.and_eq_true] at hafter
  obtain ⟨hnonce, hpast⟩ := hafter
  rw [met, hnonce, Bool.true_and] at hbefore
  cases r with
  | login email password ctx sessionId n => cases hpast
  | verify tempToken code ctx sessionId =>
    obtain ⟨⟨⟨payload, login⟩, rest⟩, hpast⟩ := Option.isSome_iff_exists.1 hpast
    have hnone : past (confirmed env tempToken code) seen = none :=
      Option.isNone_iff_eq_none.1 (Option.isSome_eq_false_iff.1 hbefore)
    have hdone := (past_now (tells_confirmed env tempToken code) hnone hpast).2
    cases step with
    | finish pre more _ _ payload login done confirmed step =>
      rw [confirmed more] at hnone
      cases hnone
    | confirm _ _ _ unconfirmed step =>
      obtain ⟨s₀, s₁, found, clocked, codes, rfl, challenged, hright, rfl⟩ := step.accepted hdone
      obtain rfl := challenged.token
      have hmem : nonce ∈ payload.nonce := of_decide_eq_true hnonce
      obtain ⟨hr, -⟩ := hseen s₁ (List.mem_cons_of_mem _ List.mem_cons_self)
      refine ⟨fun hverified => ?_, List.mem_append_left _ (Option.mem_toList.2 hmem)⟩
      exact (challenged.own hr nonce hmem).2 (hunraced hright nonce hmem hverified)

end Met

/-! ## Runs -/

/-- What is so in every state of a run: a challenge that no call has met yet may be met by one. -/
structure ChallengesInv (env : Env) (P : Pool Store SignInCall) : Prop where
  holds : P.Holds ChallengesRecorded (Call.Saw ChallengesRecorded ChallengesGrow)
  once : ∀ nonce, P.calls.countP (met env nonce) ≤ 1
  unmet : ∀ nonce, nonce ∉ P.shared.verified → P.calls.countP (met env nonce) = 0

section Step

variable {env : Env} {P : Pool Store SignInCall} {i : Nat} {c : SignInCall}

/-- What is recorded of challenges is true of every state, and grows as a call goes on. -/
theorem holds_after (h : ChallengesInv env P) (m : Move Nat)
    (hm : Pool.AtStep (signIn env) (fun r seen s => FreshNonce r seen s ∧ Unraced env r seen s) P m) :
    (signInStep env P m).Holds ChallengesRecorded (Call.Saw ChallengesRecorded ChallengesGrow) := by
  have hother : ∀ ms s, ChallengesRecorded s → ChallengesRecorded (Store.elapse ms s) ∧ ChallengesGrow s (Store.elapse ms s) :=
    fun ms s hs => recorded_users hs rfl rfl rfl
  refine Pool.holds_step (fun _ _ _ hgrow hsaw => hsaw.later ChallengesGrow.trans hgrow) hother ?_ h.holds m hm
  intro c s hg hs hsaw hC
  obtain ⟨hs', hgrow⟩ := recorded_step hsaw hs hC.1 (tells_step (tells_signIn env c.request) hg s)
  exact ⟨hs', hgrow, hsaw.concat ChallengesGrow.trans hs hgrow⟩

/-- A challenge is met by this step, and by no call before, or the number of those that have met
    it stays as it is. -/
theorem met_count (h : ChallengesInv env P) (hc : P.calls[i]? = some c) (hg : c.ended (signIn env) = false)
    (hunraced : Unraced env c.request c.seen P.shared)
    (hstep : SignInStep env c.request c.seen P.shared (signInStep env P (.call i)).shared) (nonce : String) :
    (signInStep env P (.call i)).calls.countP (met env nonce) = P.calls.countP (met env nonce) ∨
      (P.calls.countP (met env nonce) = 0 ∧ (signInStep env P (.call i)).calls.countP (met env nonce) = 1 ∧
        nonce ∈ (signInStep env P (.call i)).shared.verified) := by
  have hcount := @Pool.count_going _ _ _ _ _ _ Store.elapse P i c (met env nonce) hc hg
  change (signInStep env P (.call i)).calls.countP (met env nonce) + _ = _ at hcount
  cases hbefore : met env nonce c with
  | true =>
    left
    rw [hbefore, met_concat P.shared hbefore] at hcount
    exact Nat.add_right_cancel hcount
  | false =>
    cases hafter : met env nonce ⟨c.request, c.seen ++ [P.shared]⟩ with
    | false =>
      left
      rw [hbefore, hafter] at hcount
      exact hcount
    | true =>
      right
      obtain ⟨hnot, hin⟩ := met_now (h.holds.at hc) hunraced hstep hbefore hafter
      have hzero := h.unmet nonce hnot
      rw [hbefore, hafter, hzero] at hcount
      exact ⟨hzero, hcount, hin⟩

theorem challengesInv_going (h : ChallengesInv env P) (hc : P.calls[i]? = some c) (hg : c.ended (signIn env) = false)
    (hm : Pool.AtStep (signIn env) (fun r seen s => FreshNonce r seen s ∧ Unraced env r seen s) P (.call i : Move Nat)) :
    ChallengesInv env (signInStep env P (.call i)) := by
  have hC := (Pool.atStep_going hc hg).1 hm
  have hshared : (signInStep env P (.call i)).shared = ((c.left (signIn env)).advance P.shared).2 := by
    rw [signInStep, Pool.step_going hc hg]
  have hstep : SignInStep env c.request c.seen P.shared (signInStep env P (.call i)).shared :=
    hshared ▸ tells_step (tells_signIn env c.request) hg P.shared
  have hgrow := (recorded_step (h.holds.at hc) h.holds.shared hC.1 hstep).2
  refine ⟨holds_after h (.call i) hm, fun nonce => ?_, fun nonce hnot => ?_⟩
  · rcases met_count h hc hg hC.2 hstep nonce with heq | ⟨-, hone, -⟩
    · rw [heq]
      exact h.once nonce
    · exact Nat.le_of_eq hone
  · rcases met_count h hc hg hC.2 hstep nonce with heq | ⟨-, -, hin⟩
    · rw [heq]
      exact h.unmet nonce fun hmet => hnot (hgrow.verified hmet)
    · exact absurd hin hnot

theorem challengesInv_step (h : ChallengesInv env P) (m : Move Nat)
    (hm : Pool.AtStep (signIn env) (fun r seen s => FreshNonce r seen s ∧ Unraced env r seen s) P m) :
    ChallengesInv env (signInStep env P m) := by
  cases m with
  | other ms => exact ⟨holds_after h (.other ms) hm, h.once, h.unmet⟩
  | call i =>
    cases hc : P.calls[i]? with
    | none =>
      rw [signInStep, Pool.step_none hc]
      exact h
    | some c =>
      cases hg : c.ended (signIn env) with
      | true =>
        rw [signInStep, Pool.step_ended hc hg]
        exact h
      | false => exact challengesInv_going h hc hg hm

end Step

theorem signingIn_start (env : Env) (s : Store) (hs : ChallengesRecorded s) (requests : List SignInRequest) :
    ChallengesInv env (signingIn s requests) := by
  have hzero : ∀ nonce, (signingIn s requests).calls.countP (met env nonce) = 0 := by
    refine fun nonce => List.countP_eq_zero.2 fun c hc hmet => ?_
    obtain ⟨r, -, rfl⟩ := List.mem_map.1 hc
    rw [met, Bool.and_eq_true] at hmet
    cases r with
    | login email password ctx sessionId n => cases hmet.2
    | verify tempToken code ctx sessionId =>
      obtain ⟨⟨⟨payload, login⟩, rest⟩, hpast⟩ := Option.isSome_iff_exists.1 hmet.2
      obtain ⟨pre, hpre, hdone⟩ := tells_of_past (tells_confirmed env tempToken code) hpast
      obtain ⟨rfl, -⟩ := List.append_eq_nil_iff.1 hpre.symm
      cases hdone
  refine ⟨⟨hs, fun c hc t ht => ?_⟩, fun nonce => ?_, fun nonce _ => hzero nonce⟩
  · obtain ⟨r, -, rfl⟩ := List.mem_map.1 hc
    cases ht
  · rw [hzero]
    exact Nat.zero_le 1

theorem single_use_challenges (env : Env) (s : Store) (hs : ChallengesRecorded s) (requests : List SignInRequest)
    (moves : List (Move Nat)) (hfresh : Along (signInStep env) (Pool.AtStep (signIn env) FreshNonce) (signingIn s requests) moves)
    (hunraced : Along (signInStep env) (Pool.AtStep (signIn env) (Unraced env)) (signingIn s requests) moves) :
    ∀ pre post, moves = pre ++ post → SingleUseChallenges env (run (signInStep env) (signingIn s requests) pre) := by
  rintro pre post rfl nonce
  have hboth := along_and.2 ⟨(along_append.1 hfresh).1, (along_append.1 hunraced).1⟩
  have hinv : ChallengesInv env (run (signInStep env) (signingIn s requests) pre) := by
    refine run_keeps (I := ChallengesInv env) (fun P m hP hm => challengesInv_step hP m ?_) (signingIn_start env s hs requests) hboth
    cases m with
    | other ms => trivial
    | call i => exact fun c hc hg => ⟨hm.1 c hc hg, hm.2 c hc hg⟩
  exact Nat.le_trans (List.countP_mono_left fun c _ => met_of_issued) (hinv.once nonce)

/-! ## One temp token, twice -/

/-- The code is 123456. -/
def authenticator : Env where
  bcryptCompare password hash := password = hash
  bcryptHash password := password
  totpValidate _ _ token _ := token = "123456"
  deriveClientToken _ := "mac"
  isEmail email := Text.includes email "@"
  jwtExpiresIn := 604800
  tokenLifetimeMs := 604800000
  apiClientTokenRequired := none

def withBea : Store where
  users := Table.empty.insert "bea" { email := "bea@corp.example", passwordHash := "secret", name := "Bea", role := .VIEWER,
                                      isActive := true, twoFactorSecret := some "JBSWY3DPEHPK3PXP", twoFactorEnabled := true }
  sessions := .empty
  invites := .empty
  lastTouch := .empty
  minted := []
  passed := []
  nextLogin := 0
  now := 1000

theorem withBea_recorded : ChallengesRecorded withBea := by
  refine ⟨fun id u n hid hn => ?_, fun n id id' hid => ?_, fun n hn => ?_⟩
  · obtain ⟨rfl, rfl⟩ : id = "bea" ∧ u = _ := by
      have hrow := Table.mem_rows_iff.2 hid
      exact Prod.mk.inj (List.mem_singleton.1 hrow)
    cases hn
  · cases hid
  · cases hn

/-- Bea's password, then her temp token and code, twice. -/
def twoVerifications : List SignInRequest :=
  [.login "bea@corp.example" "secret" {} "s0" "n1",
   .verify (.signed (challengeClaims 1000 "bea" "n1" 0)) "123456" {} "s1",
   .verify (.signed (challengeClaims 1000 "bea" "n1" 0)) "123456" {} "s2"]

def signInOnce : List (Move Nat) := List.replicate 3 (.call 0) ++ List.replicate 9 (.call 1)

/-- One after the other: the second finds the challenge cleared. -/
theorem a_temp_token_is_used_once :
    SingleUseChallenges authenticator (run (signInStep authenticator) (signingIn withBea twoVerifications)
      (signInOnce ++ [.other 5] ++ List.replicate 2 (.call 2))) :=
  single_use_challenges authenticator withBea withBea_recorded twoVerifications _ (by decide +kernel) (by decide +kernel)
    _ [] (List.append_nil _).symm

theorem one_temp_token_two_sessions :
    ¬∀ (env : Env) (s : Store), ChallengesRecorded s → ∀ (requests : List SignInRequest) (moves : List (Move Nat)),
      Along (signInStep env) (Pool.AtStep (signIn env) FreshNonce) (signingIn s requests) moves → ∀ pre post,
        moves = pre ++ post → SingleUseChallenges env (run (signInStep env) (signingIn s requests) pre) := by
  intro h
  have hsingle := h authenticator withBea withBea_recorded twoVerifications
    (List.replicate 3 (.call 0) ++ [.call 1, .call 1, .call 2, .call 2] ++ List.replicate 7 (.call 1) ++ List.replicate 7 (.call 2))
    (by decide +kernel) _ [] (List.append_nil _).symm "n1"
  revert hsingle
  decide +kernel

end ClusterGate.Accounts
