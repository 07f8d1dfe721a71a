/-
  ClusterGate.Accounts.RecoveryCodes — recovery codes are spent once
  (`services/twoFactorService.ts`: `verifyToken`, `onVerifySuccess`).

  A code is known by its stored hash. A success writes back a whole list, worked out from
  the row the call read: two calls that overlap may both find a code, and a success with a
  TOTP code writes one back that another call has spent.
  - `SingleUse`: a code has made at most one call return true, and one that has is not stored.
  - `recovery_codes_single_use_iff`: it is so in every state of a run exactly if every
    success finds, at its write, the list it has read (`WritesBack`).
  - `a_recovery_code_is_spent_twice`: two calls with one code.
-/

import ClusterGate.Accounts.TwoFactor

namespace ClusterGate.Accounts

open Lib Lib.Act Async Auth

structure VerifyRequest where
  userId : String
  token : String
  deriving DecidableEq

def verifying (env : Env) (r : VerifyRequest) : Service Bool := verify2FAToken env r.userId r.token none

abbrev VerifyCall := Call VerifyRequest Store

def verifyStep (env : Env) : Pool Store VerifyCall → Move Nat → Pool Store VerifyCall :=
  Pool.step (Call.advance (verifying env)) Store.elapse

def codeCalls (s : Store) (requests : List VerifyRequest) : Pool Store VerifyCall := ⟨s, requests.map Call.start⟩

/-! ## What is to hold -/

/-- The stored hashes of distinct codes: no text is two of the codes. -/
structure DistinctCodes (env : Env) (codes : List String) : Prop where
  nodup : codes.Nodup
  free : ∀ token, ∀ c ∈ codes, ∀ c' ∈ codes, env.bcryptCompare token c = true → env.bcryptCompare token c' = true → c = c'

/-- The token of a call is the recovery code `code`, and no TOTP code of the user's. -/
def isRecoveryCode (env : Env) (id code token : String) (found clocked : Store) : Bool :=
  (found.users.get? id).any fun user =>
    !env.totpValidate (user.twoFactorSecret.getD "") user.email token clocked.now && env.bcryptCompare token code

/-- The code has made the call return true. -/
def spends (env : Env) (id code : String) (c : VerifyCall) : Bool :=
  c.request.userId = id && c.returned (verifying env) = some true &&
    match c.seen with
    | found :: clocked :: _ => isRecoveryCode env id code c.request.token found clocked
    | _ => false

structure SingleUse (env : Env) (id : String) (codes : List String) (P : Pool Store VerifyCall) : Prop where
  once : ∀ code ∈ codes, P.calls.countP (spends env id code) ≤ 1
  gone : ∀ code ∈ codes, ∀ c ∈ P.calls, spends env id code c = true → ∀ user, P.shared.users.get? id = some user →
    code ∉ user.recoveryCodes

/-! ## The condition -/

def Store.codesOf (s : Store) (id : String) : Option (List String) := (s.users.get? id).map User.recoveryCodes

/-- A success is about to be written: the list is as the call has read it. -/
def WritesBack (env : Env) (id : String) (r : VerifyRequest) (seen : List Store) (s : Store) : Prop :=
  match seen with
  | [found, clocked] => r.userId = id → codeRight env id r.token found clocked = true → s.codesOf id = found.codesOf id
  | _ => True

instance (env : Env) (id : String) (r : VerifyRequest) : ∀ seen s, Decidable (WritesBack env id r seen s)
  | [found, clocked], s => inferInstanceAs (Decidable (r.userId = id → codeRight env id r.token found clocked = true →
      s.codesOf id = found.codesOf id))
  | [], _ => instDecidableTrue
  | [_], _ => instDecidableTrue
  | _ :: _ :: _ :: _, _ => instDecidableTrue

/-! ## Lists of codes -/

section Codes

variable {env : Env} {token : String}

/-- The codes that are left when one that matches is spent. -/
theorem useRecoveryCode_eq {codes all : List String} (hall : DistinctCodes env all) (hsub : codes ⊆ all) (hnodup : codes.Nodup) :
    useRecoveryCode env token codes =
      if codes.any (env.bcryptCompare token) = true then some (codes.filter fun c => !env.bcryptCompare token c) else none := by
  induction codes with
  | nil => rfl
  | cons c codes ih =>
    obtain ⟨hmem, hsub'⟩ := List.cons_subset.1 hsub
    obtain ⟨hc, hnodup'⟩ := List.nodup_cons.1 hnodup
    rw [useRecoveryCode]
    by_cases hmatch : env.bcryptCompare token c = true
    · have hrest : codes.filter (fun c => !env.bcryptCompare token c) = codes := by
        refine List.filter_eq_self.2 fun d hd => ?_
        rw [Bool.not_eq_true', Bool.eq_false_iff]
        intro hd'
        exact hc (hall.free token c hmem d (hsub' hd) hmatch hd' ▸ hd)
      rw [if_pos hmatch, List.any_cons, hmatch, Bool.true_or, if_pos rfl, List.filter_cons_of_neg (by rw [hmatch]; decide), hrest]
    · rw [if_neg hmatch, ih hsub' hnodup', List.any_cons, Bool.eq_false_iff.2 hmatch, Bool.false_or,
        List.filter_cons_of_pos (by rw [Bool.eq_false_iff.2 hmatch]; rfl)]
      by_cases hany : codes.any (env.bcryptCompare token) = true
      · rw [if_pos hany, if_pos hany]
        rfl
      · rw [if_neg hany, if_neg hany]
        rfl

/-- A list of some of `all`, in their order. -/
def Selects (all codes : List String) : Prop := codes = all.filter fun c => decide (c ∈ codes)

theorem Selects.subset {all codes : List String} (h : Selects all codes) : codes ⊆ all := by
  intro c hc
  rw [h] at hc
  exact List.mem_of_mem_filter hc

theorem Selects.nodup {all codes : List String} (h : Selects all codes) (hall : all.Nodup) : codes.Nodup := by
  rw [h]
  exact hall.filter _

theorem Selects.filter {all codes : List String} (h : Selects all codes) (p : String → Bool) :
    Selects all (codes.filter p) := by
  unfold Selects
  conv_lhs => rw [h, List.filter_filter]
  refine List.filter_congr fun c _ => ?_
  simp only [List.mem_filter, Bool.decide_and, Bool.decide_eq_true, Bool.and_comm]

theorem Selects.eq {all codes codes' : List String} (h : Selects all codes) (h' : Selects all codes')
    (hmem : ∀ c, c ∈ codes ↔ c ∈ codes') : codes = codes' := by
  rw [h, h']
  exact List.filter_congr fun c _ => decide_eq_decide.2 (hmem c)

theorem selects_self (all : List String) : Selects all all := by
  unfold Selects
  symm
  exact List.filter_eq_self.2 fun c hc => decide_eq_true hc

end Codes

/-! ## The invariant -/

/-- The codes that are stored are the unspent ones, and a call has read no fewer. -/
structure CodesInv (env : Env) (id : String) (codes : List String) (P : Pool Store VerifyCall) (stored : List String) :
    Prop where
  row : P.shared.codesOf id = some stored
  selects : Selects codes stored
  unspent : ∀ code ∈ codes, code ∈ stored ↔ P.calls.countP (spends env id code) = 0
  found : ∀ c ∈ P.calls, c.request.userId = id → ∀ t ∈ c.seen[0]?, ∃ had, t.codesOf id = some had ∧ Selects codes had ∧ stored ⊆ had

section Step

variable {env : Env} {id code : String}

/-- A call that has spent a code has compared it, and written. -/
theorem spends_seen {r : VerifyRequest} {seen : List Store} (h : spends env id code ⟨r, seen⟩ = true) :
    r.userId = id ∧ Call.returned (verifying env) ⟨r, seen⟩ = some true := by
  unfold spends at h
  rw [Bool.and_eq_true, Bool.and_eq_true, decide_eq_true_iff, decide_eq_true_iff] at h
  exact h.1

/-- A call spends nothing by a step that is no success. -/
theorem spends_concat {r : VerifyRequest} {seen : List Store} {s : Store}
    (hg : Call.ended (verifying env) ⟨r, seen⟩ = false) (h : spends env id code ⟨r, seen ++ [s]⟩ = true) :
    r.userId = id ∧ VerifyDone env r.userId r.token (seen ++ [s]) true := by
  obtain ⟨hid, hret⟩ := spends_seen h
  exact ⟨hid, tells_returns (verifies env r.userId r.token none) hg (Call.returned_iff.1 hret)⟩

theorem spends_going {r : VerifyRequest} {seen : List Store} (hg : Call.ended (verifying env) ⟨r, seen⟩ = false) :
    spends env id code ⟨r, seen⟩ = false := by
  rw [Bool.eq_false_iff]
  intro h
  have hleft := Call.returned_iff.1 (spends_seen h).2
  rw [Call.ended, hleft] at hg
  cases hg

/-- What a success spends: the codes its token is, unless it is a TOTP code. -/
theorem spends_success {token secret : String} {s₀ s₁ s : Store} {user : User} {left : List String}
    (evaluated : Evaluated id s₀ s₁ user secret) (right : codesAfter env user secret token s₁.now = some left)
    (row : (s.users.get? id).isSome) :
    spends env id code ⟨⟨id, token⟩, [s₀, s₁, s]⟩ =
      (!env.totpValidate secret user.email token s₁.now && env.bcryptCompare token code) := by
  have hret : Call.returned (verifying env) (⟨⟨id, token⟩, [s₀, s₁, s]⟩ : VerifyCall) = some true :=
    Call.returned_iff.2 (left_right evaluated right row)
  rw [spends, hret]
  show (decide (id = id) && decide (some true = some true) && isRecoveryCode env id code token s₀ s₁) = _
  rw [isRecoveryCode, evaluated.enrolled.row, decide_eq_true rfl, decide_eq_true rfl, Option.any_some,
    evaluated.enrolled.stored]
  rfl

/-- The list a success writes: the codes it read that it does not spend. -/
theorem left_of_success {token secret : String} {codes left : List String} {user : User} {now : Nat}
    (hcodes : DistinctCodes env codes) (hsel : Selects codes user.recoveryCodes)
    (right : codesAfter env user secret token now = some left) :
    left = user.recoveryCodes.filter (fun c => !(!env.totpValidate secret user.email token now && env.bcryptCompare token c)) ∧
      ∀ c ∈ codes, (!env.totpValidate secret user.email token now && env.bcryptCompare token c) = true → c ∈ user.recoveryCodes := by
  unfold codesAfter at right
  by_cases htotp : env.totpValidate secret user.email token now = true
  · rw [if_pos htotp] at right
    rw [htotp]
    refine ⟨?_, fun c _ h => ?_⟩
    · rw [← Option.some.inj right]
      exact (List.filter_eq_self.2 fun c _ => rfl).symm
    · cases h
  · rw [if_neg htotp, useRecoveryCode_eq hcodes hsel.subset (hsel.nodup hcodes.nodup)] at right
    rw [Bool.eq_false_iff.2 htotp]
    split at right
    · rename_i hany
      refine ⟨(Option.some.inj right).symm, fun c hc h => ?_⟩
      obtain ⟨d, hd, hmatch⟩ := List.any_eq_true.1 hany
      rw [hcodes.free token c hc d (hsel.subset hd) h hmatch]
      exact hd
    · cases right

end Step

/-! ## One step -/

section Moves

variable {env : Env} {id : String} {codes stored : List String} {P : Pool Store VerifyCall}

/-- The calls that have spent a code after a call that has spent none has taken a step. -/
theorem spent_after {i : Nat} {c : VerifyCall} {code : String} (hc : P.calls[i]? = some c)
    (hg : c.ended (verifying env) = false) :
    (verifyStep env P (.call i)).calls.countP (spends env id code) =
      P.calls.countP (spends env id code) + (if spends env id code ⟨c.request, c.seen ++ [P.shared]⟩ = true then 1 else 0) := by
  have hcount := @Pool.count_going _ _ _ _ _ (verifying env) Store.elapse P i c (spends env id code) hc hg
  rw [spends_going hg, if_neg Bool.false_ne_true] at hcount
  exact hcount

/-- A step that spends nothing and leaves the list alone. -/
theorem codesInv_quiet {i : Nat} {c : VerifyCall} (h : CodesInv env id codes P stored) (hc : P.calls[i]? = some c)
    (hg : c.ended (verifying env) = false) (hrow : (verifyStep env P (.call i)).shared.codesOf id = P.shared.codesOf id)
    (hquiet : ∀ code, spends env id code ⟨c.request, c.seen ++ [P.shared]⟩ = false) :
    CodesInv env id codes (verifyStep env P (.call i)) stored := by
  refine ⟨hrow.trans h.row, h.selects, fun code hcode => ?_, ?_⟩
  · rw [spent_after hc hg, hquiet code, if_neg Bool.false_ne_true, Nat.add_zero]
    exact h.unspent code hcode
  · refine Pool.forall_going h.found hc hg fun hid => Pool.forall_seen_concat (fun _ => ?_) ?_
    · exact ⟨stored, h.row, h.selects, fun c hc => hc⟩
    · exact h.found c (List.mem_of_getElem? hc) hid

/-- Such a step keeps what is to hold. -/
theorem singleUse_quiet {i : Nat} {c : VerifyCall} (hs : SingleUse env id codes P) (hc : P.calls[i]? = some c)
    (hg : c.ended (verifying env) = false) (hrow : (verifyStep env P (.call i)).shared.codesOf id = P.shared.codesOf id)
    (hquiet : ∀ code, spends env id code ⟨c.request, c.seen ++ [P.shared]⟩ = false) :
    SingleUse env id codes (verifyStep env P (.call i)) := by
  refine ⟨fun code hcode => ?_, fun code hcode => ?_⟩
  · rw [spent_after hc hg, hquiet code, if_neg Bool.false_ne_true, Nat.add_zero]
    exact hs.once code hcode
  · refine Pool.forall_going (fun d hd hspends user hu => ?_) hc hg fun hspends => ?_
    · replace hu : (verifyStep env P (.call i)).shared.codesOf id = some user.recoveryCodes := congrArg _ hu
      rw [hrow] at hu
      obtain ⟨u, hu', hcodes⟩ := Option.map_eq_some_iff.1 hu
      rw [← hcodes]
      exact hs.gone code hcode d hd hspends u hu'
    · rw [hquiet code] at hspends
      cases hspends

/-- Every code is unspent and stored, or spent and not. -/
theorem spent_iff (h : CodesInv env id codes P stored) {code : String} (hcode : code ∈ codes) :
    code ∉ stored ↔ ∃ c ∈ P.calls, spends env id code c = true := by
  rw [h.unspent code hcode, ← ne_eq, ← Nat.pos_iff_ne_zero, List.countP_pos_iff]

/-- A success by a call that has read `had`: it keeps what is to hold exactly if that is what is stored. -/
theorem singleUse_success {i : Nat} {c : VerifyCall} {had left : List String} (h : CodesInv env id codes P stored)
    (hs : SingleUse env id codes P) (hc : P.calls[i]? = some c) (hg : c.ended (verifying env) = false)
    (hhad : Selects codes had) (hsub : stored ⊆ had)
    (hfound : c.request.userId = id → ∀ t ∈ c.seen[0]?, t.codesOf id = some had) (hne : c.seen ≠ [])
    (hrow : (verifyStep env P (.call i)).shared.codesOf id = some left)
    (hleft : left = had.filter fun code => !spends env id code ⟨c.request, c.seen ++ [P.shared]⟩)
    (hspent : ∀ code ∈ codes, spends env id code ⟨c.request, c.seen ++ [P.shared]⟩ = true → code ∈ had) :
    (stored = had ↔ SingleUse env id codes (verifyStep env P (.call i))) ∧
      (stored = had → CodesInv env id codes (verifyStep env P (.call i)) left) := by
  have hmem : ∀ code, code ∈ left ↔ code ∈ had ∧ spends env id code ⟨c.request, c.seen ++ [P.shared]⟩ = false := by
    intro code
    rw [hleft, List.mem_filter, Bool.not_eq_true']
  have hself := @Pool.going_mem _ _ _ _ _ (verifying env) Store.elapse P i c hc hg
  -- Who has spent a code afterwards: the call that has taken the step, or one that had before.
  have hwho : ∀ code ∈ codes, ((∃ d ∈ (verifyStep env P (.call i)).calls, spends env id code d = true) ↔
      code ∉ stored ∨ spends env id code ⟨c.request, c.seen ++ [P.shared]⟩ = true) := by
    intro code hcode
    rw [spent_iff h hcode, ← List.countP_pos_iff, ← List.countP_pos_iff, spent_after hc hg]
    cases spends env id code ⟨c.request, c.seen ++ [P.shared]⟩ with
    | true =>
      rw [if_pos rfl]
      exact iff_of_true (Nat.succ_pos _) (.inr rfl)
    | false =>
      rw [if_neg Bool.false_ne_true, Nat.add_zero]
      exact ⟨.inl, fun h => h.resolve_right Bool.false_ne_true⟩
  constructor
  · constructor
    · intro hsame
      refine ⟨fun code hcode => ?_, fun code hcode d hd hspends user hu => ?_⟩
      · rw [spent_after hc hg]
        cases hσ : spends env id code ⟨c.request, c.seen ++ [P.shared]⟩ with
        | false =>
          have := hs.once code hcode
          simpa using this
        | true =>
          have hzero := (h.unspent code hcode).1 (hsame ▸ hspent code hcode hσ)
          simp [hzero]
      · replace hu : (verifyStep env P (.call i)).shared.codesOf id = some user.recoveryCodes := congrArg _ hu
        rw [hrow] at hu
        rw [← Option.some.inj hu, hmem, ← hsame]
        rcases (hwho code hcode).1 ⟨d, hd, hspends⟩ with hout | hσ
        · exact fun hin => hout hin.1
        · rw [hσ]
          rintro ⟨-, ⟨⟩⟩
    · intro hs'
      obtain ⟨user, hu, hcodes⟩ := Option.map_eq_some_iff.1 hrow
      refine h.selects.eq hhad fun code => ⟨fun hin => hsub hin, fun hin => ?_⟩
      have hcode := hhad.subset hin
      by_contra hout
      -- A code the call had read that was spent since: it is spent again, or written back.
      cases hσ : spends env id code ⟨c.request, c.seen ++ [P.shared]⟩ with
      | true =>
        have honce := hs'.once code hcode
        have hpos := List.countP_pos_iff.2 ((spent_iff h hcode).1 hout)
        rw [spent_after hc hg, if_pos hσ] at honce
        omega
      | false =>
        obtain ⟨d, hd, hspends⟩ := (hwho code hcode).2 (.inl hout)
        have hgone := hs'.gone code hcode d hd hspends user hu
        rw [hcodes, hmem] at hgone
        exact hgone ⟨hin, hσ⟩
  · intro hsame
    refine ⟨hrow, hleft ▸ hhad.filter _, fun code hcode => ?_, ?_⟩
    · rw [hmem, ← hsame, h.unspent code hcode, spent_after hc hg]
      split <;> rename_i hσ <;> simp [hσ]
    · refine Pool.forall_going (fun d hd hid t ht => ?_) hc hg fun hid => Pool.forall_seen_concat (fun hzero => ?_) ?_
      · obtain ⟨had', hhad', hsel, hsub'⟩ := h.found d hd hid t ht
        exact ⟨had', hhad', hsel, fun code hin => hsub' (hsame ▸ ((hmem code).1 hin).1)⟩
      · exact absurd (List.length_eq_zero_iff.1 hzero) hne
      · exact fun t ht => ⟨had, hfound hid t ht, hhad, fun code hin => ((hmem code).1 hin).1⟩

end Moves

section Runs

variable {env : Env} {id : String} {codes stored : List String} {P : Pool Store VerifyCall}

theorem codesOf_writeUser {s : Store} {userId : String} {f : User → User}
    (h : userId = id → ∀ u, (f u).recoveryCodes = u.recoveryCodes) : (s.writeUser userId f).codesOf id = s.codesOf id := by
  rw [Store.codesOf, get?_writeUser, Store.codesOf]
  by_cases hid : id = userId
  · rw [if_pos hid, hid]
    cases s.users.get? userId with
    | none => rfl
    | some u => exact congrArg some (h hid.symm u)
  · rw [if_neg hid]

theorem codesOf_accept {s : Store} {codes' : List String} {nonce : Option String} (row : (s.users.get? id).isSome) :
    (s.accept id codes' nonce).codesOf id = some codes' := by
  obtain ⟨u, hu⟩ := Option.isSome_iff_exists.1 row
  show ((s.users.modify id _).get? id).map _ = _
  rw [Table.get?_modify, if_pos rfl, hu]
  rfl

section Wrong

variable {userId token secret : String} {s₀ s₁ : Store} {user : User}

/-- A wrong code is not a right one. -/
theorem wrong_not_codeRight (evaluated : Evaluated userId s₀ s₁ user secret)
    (wrong : codesAfter env user secret token s₁.now = none) : ¬ codeRight env userId token s₀ s₁ = true := by
  intro hright
  rw [codeRight, evaluated.enrolled.row, Option.any_some, evaluated.enrolled.stored] at hright
  rw [show codesAfter env user ((some secret).getD "") token s₁.now = none from wrong] at hright
  cases hright

/-- Nor does a verification with it succeed. -/
theorem wrong_not_done (evaluated : Evaluated userId s₀ s₁ user secret)
    (wrong : codesAfter env user secret token s₁.now = none) (s : Store) : ¬ VerifyDone env userId token [s₀, s₁, s] true := by
  intro hdone
  cases hdone with
  | right _ _ _ user' secret' codes' evaluated' right' row' =>
    obtain rfl : user = user' := Option.some.inj (evaluated.enrolled.row.symm.trans evaluated'.enrolled.row)
    obtain rfl : secret = secret' := Option.some.inj (evaluated.enrolled.stored.symm.trans evaluated'.enrolled.stored)
    rw [wrong] at right'
    cases right'

end Wrong

section Calls

variable {i : Nat} {c : VerifyCall}

variable (env id codes P) in
/-- A step of the call keeps what is to hold exactly if it meets the condition, and then it
    keeps the invariant. -/
structure CodesKept (i : Nat) (c : VerifyCall) : Prop where
  single : WritesBack env id c.request c.seen P.shared ↔ SingleUse env id codes (verifyStep env P (.call i))
  inv : SingleUse env id codes (verifyStep env P (.call i)) → ∃ stored', CodesInv env id codes (verifyStep env P (.call i)) stored'

/-- A step that spends nothing and writes no list. -/
theorem codesKept_quiet (h : CodesInv env id codes P stored) (hs : SingleUse env id codes P) (hc : P.calls[i]? = some c)
    (hg : c.ended (verifying env) = false) (hback : WritesBack env id c.request c.seen P.shared)
    (hrow : (verifyStep env P (.call i)).shared.codesOf id = P.shared.codesOf id)
    (hnot : ¬(c.request.userId = id ∧ VerifyDone env c.request.userId c.request.token (c.seen ++ [P.shared]) true)) :
    CodesKept env id codes P i c := by
  have hquiet : ∀ code, spends env id code ⟨c.request, c.seen ++ [P.shared]⟩ = false := by
    intro code
    rw [Bool.eq_false_iff]
    exact fun hspends => hnot (spends_concat hg hspends)
  exact ⟨iff_of_true hback (singleUse_quiet hs hc hg hrow hquiet), fun _ => ⟨stored, codesInv_quiet h hc hg hrow hquiet⟩⟩

variable {token secret : String} {s₀ s₁ : Store} {user : User}

/-- A step of a call for somebody else. -/
theorem codesKept_other (h : CodesInv env id codes P stored) (hs : SingleUse env id codes P) (hc : P.calls[i]? = some c)
    (hg : c.ended (verifying env) = false) (hid : c.request.userId ≠ id)
    (hrow : (verifyStep env P (.call i)).shared.users.get? id = P.shared.users.get? id) : CodesKept env id codes P i c := by
  refine codesKept_quiet h hs hc hg ?_ (congrArg _ hrow) fun hdone => hid hdone.1
  unfold WritesBack
  split
  · exact fun hid' => absurd hid' hid
  · trivial

/-- A call that has read nothing yet, or the row only. -/
theorem codesKept_read (h : CodesInv env id codes P stored) (hs : SingleUse env id codes P) (hc : P.calls[i]? = some c)
    (hg : c.ended (verifying env) = false) (hseen : c.seen.length < 2)
    (hshared : (verifyStep env P (.call i)).shared = P.shared) : CodesKept env id codes P i c := by
  obtain ⟨r, seen⟩ := c
  match seen, hseen with
  | [], _ =>
    refine codesKept_quiet h hs hc hg trivial (by rw [hshared]) ?_
    rintro ⟨-, ⟨⟩⟩
  | [_], _ =>
    refine codesKept_quiet h hs hc hg trivial (by rw [hshared]) ?_
    rintro ⟨-, ⟨⟩⟩

/-- The step after a wrong code: a failure below the fifth is written, or the clock is read again. -/
theorem codesKept_wrong (h : CodesInv env id codes P stored) (hs : SingleUse env id codes P)
    (hc : P.calls[i]? = some ⟨⟨id, token⟩, [s₀, s₁]⟩) (hg : Call.ended (verifying env) ⟨⟨id, token⟩, [s₀, s₁]⟩ = false)
    (evaluated : Evaluated id s₀ s₁ user secret) (wrong : codesAfter env user secret token s₁.now = none)
    (hrow : (verifyStep env P (.call i)).shared.codesOf id = P.shared.codesOf id) :
    CodesKept env id codes P i ⟨⟨id, token⟩, [s₀, s₁]⟩ := by
  refine codesKept_quiet h hs hc hg ?_ hrow fun hdone => wrong_not_done evaluated wrong _ hdone.2
  exact fun _ hright => absurd hright (wrong_not_codeRight evaluated wrong)

/-- The fifth failure is written. -/
theorem codesKept_lockout {s₂ : Store} (h : CodesInv env id codes P stored) (hs : SingleUse env id codes P)
    (hc : P.calls[i]? = some ⟨⟨id, token⟩, [s₀, s₁, s₂]⟩) (hg : Call.ended (verifying env) ⟨⟨id, token⟩, [s₀, s₁, s₂]⟩ = false)
    (hrow : (verifyStep env P (.call i)).shared.codesOf id = P.shared.codesOf id) :
    CodesKept env id codes P i ⟨⟨id, token⟩, [s₀, s₁, s₂]⟩ := by
  refine codesKept_quiet h hs hc hg trivial hrow ?_
  rintro ⟨-, ⟨⟩⟩

/-- A success is written: the list its call has read, but for the code that is spent. -/
theorem codesKept_success {left : List String} (hcodes : DistinctCodes env codes) (h : CodesInv env id codes P stored)
    (hs : SingleUse env id codes P) (hc : P.calls[i]? = some ⟨⟨id, token⟩, [s₀, s₁]⟩)
    (hg : Call.ended (verifying env) ⟨⟨id, token⟩, [s₀, s₁]⟩ = false) (evaluated : Evaluated id s₀ s₁ user secret)
    (right : codesAfter env user secret token s₁.now = some left) (row : (P.shared.users.get? id).isSome)
    (hrow : (verifyStep env P (.call i)).shared.codesOf id = some left) :
    CodesKept env id codes P i ⟨⟨id, token⟩, [s₀, s₁]⟩ := by
  obtain ⟨had, hhad, hsel, hsub⟩ := h.found _ (List.mem_of_getElem? hc) rfl s₀ rfl
  have hcodesOf : s₀.codesOf id = some user.recoveryCodes := by rw [Store.codesOf, evaluated.enrolled.row]; rfl
  obtain rfl : user.recoveryCodes = had := Option.some.inj (hcodesOf.symm.trans hhad)
  obtain ⟨hleft, hin⟩ := left_of_success hcodes hsel right
  have hspends : ∀ code, spends env id code ⟨⟨id, token⟩, [s₀, s₁] ++ [P.shared]⟩ =
      (!env.totpValidate secret user.email token s₁.now && env.bcryptCompare token code) := fun code =>
    spends_success evaluated right row
  have hright : codeRight env id token s₀ s₁ = true := by
    rw [codeRight, evaluated.enrolled.row, Option.any_some, evaluated.enrolled.stored]
    exact congrArg Option.isSome right
  have hiff : WritesBack env id ⟨id, token⟩ [s₀, s₁] P.shared ↔ stored = user.recoveryCodes := by
    simp only [WritesBack, hright, forall_const, h.row, hhad, Option.some.injEq]
  obtain ⟨hsingle, hinv⟩ := singleUse_success h hs hc hg hsel hsub (fun _ t ht => Option.some.inj ht ▸ hhad)
    (List.cons_ne_nil _ _) hrow (by simp only [hspends]; exact hleft)
    (fun code hcode hspent => hin code hcode (hspends code ▸ hspent))
  exact ⟨hiff.trans hsingle, fun hs' => ⟨left, hinv (hsingle.2 hs')⟩⟩

/-- What a step of a call does to the codes of `id`: nothing, or a call for them succeeds. -/
theorem codesKept_step (hcodes : DistinctCodes env codes) (h : CodesInv env id codes P stored) (hs : SingleUse env id codes P)
    (hc : P.calls[i]? = some c) (hg : c.ended (verifying env) = false) : CodesKept env id codes P i c := by
  have hshared : (verifyStep env P (.call i)).shared = ((c.left (verifying env)).advance P.shared).2 := by
    rw [verifyStep, Pool.step_going hc hg]
  have hstep := tells_step (verifies env c.request.userId c.request.token none) hg P.shared
  rw [show (verify2FAToken env c.request.userId c.request.token none).after c.seen = c.left (verifying env) from rfl,
    ← hshared] at hstep
  by_cases hid : c.request.userId = id
  · obtain ⟨⟨userId, token⟩, seen⟩ := c
    obtain rfl : userId = id := hid
    dsimp only at hstep
    generalize hs' : (verifyStep env P (.call i)).shared = s' at hstep
    cases hstep with
    | read => exact codesKept_read h hs hc hg (Nat.zero_lt_succ 1) hs'
    | clock s₀ => exact codesKept_read h hs hc hg (Nat.lt_succ_self 1) hs'
    | gone seen s hnone late =>
      have hrow := h.row
      rw [Store.codesOf, hnone] at hrow
      cases hrow
    | success s₀ s₁ s user secret left evaluated right row =>
      exact codesKept_success hcodes h hs hc hg evaluated right row (hs' ▸ codesOf_accept row)
    | failure s₀ s₁ s user secret evaluated wrong few row =>
      exact codesKept_wrong h hs hc hg evaluated wrong (hs' ▸ codesOf_writeUser fun _ _ => rfl)
    | again s₀ s₁ s user secret evaluated wrong many => exact codesKept_wrong h hs hc hg evaluated wrong (by rw [hs'])
    | lockout s₀ s₁ s₂ s user secret evaluated wrong many row =>
      exact codesKept_lockout h hs hc hg (hs' ▸ codesOf_writeUser fun _ _ => rfl)
  · exact codesKept_other h hs hc hg hid (hstep.apart hid)

end Calls

theorem codes_step (hcodes : DistinctCodes env codes) (h : CodesInv env id codes P stored) (hs : SingleUse env id codes P)
    (m : Move Nat) :
    (Pool.AtStep (verifying env) (WritesBack env id) P m ↔ SingleUse env id codes (verifyStep env P m)) ∧
      (SingleUse env id codes (verifyStep env P m) → ∃ stored', CodesInv env id codes (verifyStep env P m) stored') := by
  cases m with
  | other ms => exact ⟨iff_of_true trivial ⟨hs.once, hs.gone⟩, fun _ => ⟨stored, h.row, h.selects, h.unspent, h.found⟩⟩
  | call i =>
    cases hc : P.calls[i]? with
    | none =>
      rw [verifyStep, Pool.step_none hc]
      exact ⟨iff_of_true (Pool.atStep_none hc) hs, fun _ => ⟨stored, h⟩⟩
    | some c =>
      cases hg : c.ended (verifying env) with
      | true =>
        rw [verifyStep, Pool.step_ended hc hg]
        exact ⟨iff_of_true (Pool.atStep_ended hc hg) hs, fun _ => ⟨stored, h⟩⟩
      | false =>
        rw [Pool.atStep_going hc hg]
        have hkept := codesKept_step hcodes h hs hc hg
        exact ⟨hkept.single, hkept.inv⟩

/-- At the start every code is stored and none is spent. -/
theorem codeCalls_start {s : Store} {user : User} (hrow : s.users.get? id = some user) (requests : List VerifyRequest) :
    CodesInv env id user.recoveryCodes (codeCalls s requests) user.recoveryCodes ∧
      SingleUse env id user.recoveryCodes (codeCalls s requests) := by
  have hnone : ∀ code, ∀ c ∈ (codeCalls s requests).calls, spends env id code c = false := by
    intro code c hc
    obtain ⟨r, -, rfl⟩ := List.mem_map.1 hc
    exact Bool.and_false _
  have hzero : ∀ code, (codeCalls s requests).calls.countP (spends env id code) = 0 := fun code =>
    List.countP_eq_zero.2 fun c hc => by rw [hnone code c hc]; decide
  refine ⟨⟨?_, selects_self _, fun code hcode => iff_of_true hcode (hzero code), ?_⟩, fun code _ => ?_, fun code _ c hc hsp => ?_⟩
  · show s.codesOf id = _
    rw [Store.codesOf, hrow]
    rfl
  · intro c hc _ t ht
    obtain ⟨r, -, rfl⟩ := List.mem_map.1 hc
    cases ht
  · rw [hzero]
    exact Nat.zero_le 1
  · rw [hnone code c hc] at hsp
    cases hsp

theorem recovery_codes_single_use_iff (env : Env) (s : Store) (id : String) (user : User)
    (hrow : s.users.get? id = some user) (hcodes : DistinctCodes env user.recoveryCodes) (requests : List VerifyRequest)
    (moves : List (Move Nat)) :
    (∀ pre post, moves = pre ++ post →
      SingleUse env id user.recoveryCodes (run (verifyStep env) (codeCalls s requests) pre)) ↔
      Along (verifyStep env) (Pool.AtStep (verifying env) (WritesBack env id)) (codeCalls s requests) moves := by
  obtain ⟨hi, hq⟩ := @codeCalls_start env id s user hrow requests
  rw [← throughout_iff]
  refine throughout_iff_along (I := fun P => ∃ stored, CodesInv env id user.recoveryCodes P stored) ?_ ?_ ⟨_, hi⟩ hq
  · rintro P m ⟨stored, hi⟩ hq
    exact (codes_step hcodes hi hq m).1
  · rintro P m ⟨stored, hi⟩ hq hq'
    exact (codes_step hcodes hi hq m).2 hq'

end Runs

/-! ## Two calls with one code -/

/-- No TOTP code is right, and a recovery code is its own hash. -/
def codeBook : Env where
  bcryptCompare password hash := password = hash
  bcryptHash password := password
  totpValidate _ _ _ _ := false
  deriveClientToken _ := "mac"
  isEmail _ := true
  jwtExpiresIn := 604800
  tokenLifetimeMs := 604800000
  apiClientTokenRequired := none

def ada : User where
  email := "ada@corp.example"
  passwordHash := "hash"
  name := "Ada"
  role := .ADMIN
  isActive := true
  twoFactorSecret := some "JBSWY3DPEHPK3PXP"
  twoFactorEnabled := true
  recoveryCodes := ["1f2e3d4c", "5b6a7988"]

def withAda : Store where
  users := Table.empty.insert "ada" ada
  sessions := .empty
  invites := .empty
  lastTouch := .empty
  minted := []
  passed := []
  nextLogin := 0
  now := 1000

theorem ada_codes : DistinctCodes codeBook ada.recoveryCodes := by
  refine ⟨by decide, ?_⟩
  intro token c _ c' _ hc hc'
  exact (of_decide_eq_true hc).symm.trans (of_decide_eq_true hc')

def sameCode : List VerifyRequest := [⟨"ada", "1f2e3d4c"⟩, ⟨"ada", "1f2e3d4c"⟩]

/-- One after the other: the second finds the code gone. -/
theorem a_code_one_after_the_other :
    SingleUse codeBook "ada" ada.recoveryCodes (run (verifyStep codeBook) (codeCalls withAda sameCode)
      [.call 0, .call 0, .call 0, .call 1, .call 1, .call 1]) := by
  have hall := (recovery_codes_single_use_iff codeBook withAda "ada" ada rfl ada_codes sameCode
    [.call 0, .call 0, .call 0, .call 1, .call 1, .call 1]).2 (by decide +kernel)
  exact hall _ [] (List.append_nil _).symm

theorem a_recovery_code_is_spent_twice :
    ¬∀ (env : Env) (s : Store) (id : String) (user : User), s.users.get? id = some user →
      DistinctCodes env user.recoveryCodes → ∀ (requests : List VerifyRequest) (moves : List (Move Nat)) pre post,
        moves = pre ++ post → SingleUse env id user.recoveryCodes (run (verifyStep env) (codeCalls s requests) pre) := by
  intro h
  have hsingle := h codeBook withAda "ada" ada rfl ada_codes sameCode
    [.call 0, .call 1, .call 0, .call 1, .call 0, .call 1] _ [] (List.append_nil _).symm
  have honce := hsingle.once "1f2e3d4c" (by decide)
  revert honce
  decide +kernel

end ClusterGate.Accounts
