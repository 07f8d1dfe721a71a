/-
  ClusterGate.Accounts.Users — user administration step by step
  (`services/userService.ts`, `routes/users.router.ts`): an active administrator remains.

  `updateUser` and `deleteUser` count the active administrators in one step and write the
  row in a later one; `restoreUser` has nothing to count. Any number of administrators call
  them, in any order of the steps.
  - `tells_remains`: what each step does to the administrators there are.
  - `an_admin_remains_iff`: one remains in every state of a run exactly if nobody becomes the
    only one between a call's check of them and its write (`NotMeanwhile`).
  - `two_admins_demote_each_other`: both count two, then both write.
-/

import ClusterGate.Accounts.Store

namespace ClusterGate.Accounts

open Lib Lib.Act Async Auth

/-! ## The services -/

structure UserUpdate where
  name : Option String := none
  role : Option Role := none
  isActive : Option Bool := none
  deriving DecidableEq

def UserUpdate.apply (data : UserUpdate) (u : User) : User :=
  { u with name := data.name.getD u.name, role := data.role.getD u.role, isActive := data.isActive.getD u.isActive }

/-- The data demotes or deactivates. -/
def UserUpdate.withdraws (data : UserUpdate) : Bool :=
  (data.role.isSome && data.role ≠ some .ADMIN) || data.isActive = some false

def activeAdmin (u : User) : Bool := u.role = .ADMIN && u.isActive

/-- `user.count({ where: { role: ADMIN, isActive: true } })`. -/
def Store.adminCount (s : Store) : Nat := s.users.count fun _ u => activeAdmin u

def countAdmins : Query Nat := fun s => (.ok s.adminCount, s)

/-- The guard of both services: asked of a user it is for, it wants another active administrator. -/
def guardLastAdmin (guarded : Bool) (message : String) : Service Unit :=
  if guarded = true then do
    let adminCount ← await countAdmins
    require (1 < adminCount) (.badRequest message)
  else pure ()

def updateUser (id : String) (data : UserUpdate) : Service User := do
  let user ← await (userById id)
  guardLastAdmin (user.role = .ADMIN && data.withdraws)
    "Cannot demote or deactivate the last admin. Promote another user first."
  await (updateUserRow id data.apply)

/-- `{ isActive: false, tokenVersion: { increment: 1 } }`. -/
def deactivated (u : User) : User := { u with isActive := false, tokenVersion := u.tokenVersion + 1 }

def deleteUser (id requestingUserId : String) : Service Unit := do
  require (id ≠ requestingUserId) (.badRequest "You cannot delete your own account")
  let user ← await (userById id)
  guardLastAdmin (activeAdmin user) "Cannot delete the last admin. Promote another user first."
  let _ ← await (updateUserRow id deactivated)

def reactivated (u : User) : User := { u with isActive := true }

def restoreUser (id : String) : Service User := do
  let user ← await (userById id)
  require (user.isActive = false) (.badRequest "User is already active")
  await (updateUserRow id reactivated)

/-! ## The endpoints -/

inductive UserOp
  | update (id : String) (data : UserUpdate)
  | delete (id : String)
  | restore (id : String)
  deriving DecidableEq

structure UserRequest where
  caller : String
  op : UserOp
  deriving DecidableEq

/-- The schema of `PUT /:id`. -/
def UserUpdate.nameFits (data : UserUpdate) : Bool :=
  data.name.all fun n => 1 ≤ Text.utf16Length n && Text.utf16Length n ≤ 100

def userEndpoint (r : UserRequest) : Service Unit := do
  let caller ← await (authorized r.caller [.ADMIN])
  match r.op with
  | .update id data => do
    require data.nameFits (.zod [⟨"name", none⟩])
    let _ ← updateUser id data
  | .delete id => deleteUser id caller.userId
  | .restore id => do
    let _ ← restoreUser id

/-! ## One step -/

def AdminRemains (s : Store) : Prop := s.users.any (fun _ u => activeAdmin u) = true

instance (s : Store) : Decidable (AdminRemains s) := inferInstanceAs (Decidable (_ = true))

/-- `id` is an active administrator, and nobody else is. -/
def Store.onlyAdmin (s : Store) (id : String) : Bool :=
  s.users.any (fun k u => k = id && activeAdmin u) && !s.users.any (fun k u => k ≠ id && activeAdmin u)

theorem remains_iff {s : Store} : AdminRemains s ↔ ∃ k u, s.users.get? k = some u ∧ activeAdmin u = true := Table.any_iff

theorem onlyAdmin_iff {s : Store} {id : String} (h : AdminRemains s) :
    s.onlyAdmin id = true ↔ ∀ k u, s.users.get? k = some u → activeAdmin u = true → k = id := by
  have hothers : s.users.any (fun k u => k ≠ id && activeAdmin u) = false ↔
      ∀ k u, s.users.get? k = some u → activeAdmin u = true → k = id := by
    rw [Table.any_eq_false]
    refine forall_congr' fun k => forall_congr' fun u => forall_congr' fun _ => ?_
    rw [Bool.and_eq_false_iff, decide_eq_false_iff_not, ne_eq, not_not, ← Bool.not_eq_true]
    exact ⟨fun h ha => h.resolve_right (not_not.2 ha), fun h => Classical.byCases .inr fun hn => .inl (h (not_not.1 hn))⟩
  unfold Store.onlyAdmin
  rw [Bool.and_eq_true, Bool.not_eq_true', hothers]
  refine ⟨fun h => h.2, fun honly => ⟨?_, honly⟩⟩
  obtain ⟨k, u, hu, ha⟩ := remains_iff.1 h
  refine Table.any_iff.2 ⟨k, u, hu, ?_⟩
  rw [honly k u hu ha, ha, Bool.and_true]
  exact decide_eq_true rfl

/-- A write that leaves active administrators what they are. -/
theorem remains_of_keeps {s : Store} {id : String} {f : User → User} (hf : ∀ u, activeAdmin u = true → activeAdmin (f u) = true)
    (h : AdminRemains s) : AdminRemains (updateUserRow id f s).2 := by
  rw [updateUserRow_state]
  split
  · obtain ⟨k, u, hu, ha⟩ := remains_iff.1 h
    refine Table.any_modify.2 ?_
    by_cases hk : k = id
    · exact .inr ⟨u, hk ▸ hu, hf u ha⟩
    · exact .inl ⟨k, u, hk, hu, ha⟩
  · exact h

/-- A write that makes its row no active administrator leaves one exactly if there is another. -/
theorem remains_iff_of_withdraws {s : Store} {id : String} {f : User → User} (hf : ∀ u, activeAdmin (f u) = false)
    (h : AdminRemains s) : s.onlyAdmin id = false ↔ AdminRemains (updateUserRow id f s).2 := by
  rw [← Bool.not_eq_true, onlyAdmin_iff h, updateUserRow_state]
  split
  · have hany : AdminRemains (s.writeUser id f) ↔ ∃ k u, k ≠ id ∧ s.users.get? k = some u ∧ activeAdmin u = true := by
      refine Table.any_modify.trans (or_iff_left ?_)
      rintro ⟨u, -, hu⟩
      rw [hf] at hu
      cases hu
    rw [hany]
    push Not
    exact exists_congr fun k => exists_congr fun u => by tauto
  · rename_i hnone
    refine iff_of_true ?_ h
    intro honly
    obtain ⟨k, u, hu, ha⟩ := remains_iff.1 h
    rw [← honly k u hu ha, hu] at hnone
    exact hnone rfl

theorem apply_withdraws {data : UserUpdate} (h : data.withdraws = true) (u : User) : activeAdmin (data.apply u) = false := by
  obtain ⟨name, role, isActive⟩ := data
  rcases role with _ | (_ | _ | _) <;> rcases isActive with _ | (_ | _) <;> simp_all [UserUpdate.withdraws, activeAdmin, UserUpdate.apply]

theorem apply_keeps {data : UserUpdate} (h : data.withdraws = false) (u : User) (hu : activeAdmin u = true) :
    activeAdmin (data.apply u) = true := by
  obtain ⟨name, role, isActive⟩ := data
  rcases role with _ | (_ | _ | _) <;> rcases isActive with _ | (_ | _) <;> simp_all [UserUpdate.withdraws, activeAdmin, UserUpdate.apply]

/-! ## The condition -/

namespace UserOp

def target : UserOp → String
  | .update id _ => id
  | .delete id => id
  | .restore id => id

/-- The write makes its user no active administrator. -/
def withdraws : UserOp → Bool
  | .update _ data => data.withdraws
  | .delete _ => true
  | .restore _ => false

/-- The check is made of such a user. -/
def guarded : UserOp → User → Bool
  | .update _ data, u => u.role = .ADMIN && data.withdraws
  | .delete _, u => activeAdmin u
  | .restore _, _ => false

end UserOp

/-- The row of the user in question, in the state in which the call read it. -/
def Store.guards (s : Store) (op : UserOp) : Bool := (s.users.get? op.target).any op.guarded

/-- A call that has read its row and, where the guard is for it, has counted. -/
def AboutToWrite (op : UserOp) : List Store → Prop
  | [_, found] => found.guards op = false
  | [_, _, _] => True
  | _ => False

/-- The check found the user to be the last administrator. -/
def FoundLast (op : UserOp) : List Store → Prop
  | [_, found, counted] => found.guards op = true ∧ counted.adminCount ≤ 1
  | _ => False

/-- If the user a call is about to demote, deactivate or delete is the only active
    administrator, then the check has found so. -/
def NotMeanwhile (r : UserRequest) (seen : List Store) (s : Store) : Prop :=
  r.op.withdraws = true → AboutToWrite r.op seen → s.onlyAdmin r.op.target = true → FoundLast r.op seen

instance (op : UserOp) : ∀ seen, Decidable (AboutToWrite op seen)
  | [_, found] => inferInstanceAs (Decidable (found.guards op = false))
  | [_, _, _] => instDecidableTrue
  | [] => instDecidableFalse
  | [_] => instDecidableFalse
  | _ :: _ :: _ :: _ :: _ => instDecidableFalse

instance (op : UserOp) : ∀ seen, Decidable (FoundLast op seen)
  | [_, found, counted] => inferInstanceAs (Decidable (found.guards op = true ∧ counted.adminCount ≤ 1))
  | [] => instDecidableFalse
  | [_] => instDecidableFalse
  | [_, _] => instDecidableFalse
  | _ :: _ :: _ :: _ :: _ => instDecidableFalse

instance (r : UserRequest) (seen : List Store) (s : Store) : Decidable (NotMeanwhile r seen s) :=
  inferInstanceAs (Decidable (_ → _ → _ → _))

/-- A step keeps an administrator exactly if the condition is met. -/
def KeepsIff (r : UserRequest) (seen : List Store) (s s' : Store) : Prop :=
  AdminRemains s → (NotMeanwhile r seen s ↔ AdminRemains s')

section Steps

variable {r : UserRequest} {seen : List Store} {s : Store}

/-- A step that only reads, by a call that is not about to write. -/
theorem keepsIff_read (h : r.op.withdraws = true → ¬AboutToWrite r.op seen) : KeepsIff r seen s s :=
  fun hs => iff_of_true (fun hw ha _ => absurd ha (h hw)) hs

/-- The write of a call. -/
theorem keepsIff_write {f : User → User} (hat : r.op.withdraws = true → AboutToWrite r.op seen)
    (hlast : ¬FoundLast r.op seen) (hkeeps : r.op.withdraws = false → ∀ u, activeAdmin u = true → activeAdmin (f u) = true)
    (htakes : r.op.withdraws = true → ∀ u, activeAdmin (f u) = false) :
    KeepsIff r seen s (updateUserRow r.op.target f s).2 := by
  intro hs
  cases hw : r.op.withdraws with
  | false =>
    refine iff_of_true (fun hw' => ?_) (remains_of_keeps (hkeeps hw) hs)
    rw [hw] at hw'
    cases hw'
  | true =>
    rw [← remains_iff_of_withdraws (htakes hw) hs, ← Bool.not_eq_true]
    exact ⟨fun h honly => hlast (h hw (hat hw) honly), fun h _ _ honly => absurd honly h⟩

end Steps

theorem guards_of_read {op : UserOp} {s : Store} {user : User} (h : (userById op.target s).1 = .ok user) :
    s.guards op = op.guarded user := by
  rw [Store.guards, userById_ok.1 h]
  rfl

/-- The guard, then the write. -/
theorem tells_guarded {r : UserRequest} {s₀ s₁ : Store} {user : User} {f : User → User} {message : String}
    (hread : (userById r.op.target s₁).1 = .ok user)
    (hkeeps : r.op.withdraws = false → ∀ u, activeAdmin u = true → activeAdmin (f u) = true)
    (htakes : r.op.withdraws = true → ∀ u, activeAdmin (f u) = false) :
    Tells (KeepsIff r) (fun seen _ => Tells (KeepsIff r) (fun _ _ => True) seen (await (updateUserRow r.op.target f)))
      [s₀, s₁] (guardLastAdmin (r.op.guarded user) message) := by
  have hguards := guards_of_read hread
  unfold guardLastAdmin
  rw [tells_ite]
  refine ⟨fun hg => ?_, fun hg => ?_⟩
  · simp only [tells_bind, tells_await, tells_require, implies_true, and_true]
    intro s₂
    refine ⟨keepsIff_read fun _ hat => ?_, ?_⟩
    · rw [AboutToWrite, hguards, hg] at hat
      cases hat
    · intro adminCount hcount hlt s₃
      obtain rfl : s₂.adminCount = adminCount := Except.ok.inj hcount
      refine keepsIff_write (fun _ => trivial) ?_ hkeeps htakes
      rintro ⟨-, hle⟩
      omega
  · simp only [tells_pure, tells_await, implies_true, and_true]
    intro s₂
    refine keepsIff_write (fun _ => ?_) (fun hlast => hlast) hkeeps htakes
    rw [AboutToWrite, hguards, Bool.eq_false_iff]
    exact hg

theorem tells_remains (r : UserRequest) : Tells (KeepsIff r) (fun _ _ => True) [] (userEndpoint r) := by
  obtain ⟨caller, op⟩ := r
  unfold userEndpoint
  rw [tells_bind, tells_await]
  intro s₀
  refine ⟨?_, fun admin hadmin => ?_⟩
  · rw [authorized_state]
    exact keepsIff_read fun _ hat => hat
  have hread : ∀ s₁ id, KeepsIff ⟨caller, op⟩ ([] ++ [s₀]) s₁ (userById id s₁).2 := by
    intro s₁ id
    rw [userById_state]
    exact keepsIff_read fun _ hat => hat
  cases op with
  | update id data =>
    simp only [updateUser, tells_bind, tells_require, tells_await, tells_pure, implies_true, and_true]
    intro _ s₁
    refine ⟨hread s₁ id, fun user huser => ?_⟩
    have hsteps := @tells_guarded ⟨caller, .update id data⟩ s₀ s₁ user data.apply
      "Cannot demote or deactivate the last admin. Promote another user first." huser
      (fun hw => apply_keeps hw) fun hw => apply_withdraws hw
    simp only [tells_await, implies_true, and_true] at hsteps
    exact hsteps
  | delete id =>
    simp only [deleteUser, tells_bind, tells_require, tells_await, tells_pure, implies_true, and_true]
    intro _ s₁
    refine ⟨hread s₁ id, fun user huser => ?_⟩
    have hsteps := @tells_guarded ⟨caller, .delete id⟩ s₀ s₁ user deactivated
      "Cannot delete the last admin. Promote another user first." huser (fun hw => by cases hw) fun _ u => by simp [activeAdmin, deactivated]
    simp only [tells_await, implies_true, and_true] at hsteps
    exact hsteps
  | restore id =>
    simp only [restoreUser, tells_bind, tells_require, tells_await, tells_pure, implies_true, and_true]
    intro s₁
    refine ⟨hread s₁ id, fun user huser _ s₂ => ?_⟩
    refine keepsIff_write (fun hw => by cases hw) (fun hlast => hlast) (fun _ u hu => ?_) fun hw => by cases hw
    simp_all [activeAdmin, reactivated]

/-! ## Runs -/

abbrev UserCall := Call UserRequest Store

/-- A call takes its next step, or time passes. -/
def userStep : Pool Store UserCall → Move Nat → Pool Store UserCall := Pool.step (Call.advance userEndpoint) Store.elapse

/-- The requests come in. -/
def calling (s : Store) (requests : List UserRequest) : Pool Store UserCall := ⟨s, requests.map Call.start⟩

theorem an_admin_remains_iff (s : Store) (hs : AdminRemains s) (requests : List UserRequest) (moves : List (Move Nat)) :
    (∀ pre post, moves = pre ++ post → AdminRemains (run userStep (calling s requests) pre).shared) ↔
      Along userStep (Pool.AtStep userEndpoint NotMeanwhile) (calling s requests) moves :=
  have hother : ∀ ms t, AdminRemains t → AdminRemains (Store.elapse ms t) := fun _ _ ht => ht
  have hcall : ∀ (c : UserCall) t, c.ended userEndpoint = false → AdminRemains t →
      (NotMeanwhile c.request c.seen t ↔ AdminRemains ((c.left userEndpoint).advance t).2) :=
    fun c t hg ht => tells_step (tells_remains c.request) hg t ht
  Pool.shared_iff hother hcall hs moves

/-! ## Two administrators -/

def person (email : String) (role : Role) : User := { email, passwordHash := "hash", name := email, role, isActive := true }

/-- Ada and Bob are administrators, Cyd is not. -/
def office : Store where
  users := ((Table.empty.insert "ada" (person "ada@corp.example" .ADMIN)).insert "bob"
    (person "bob@corp.example" .ADMIN)).insert "cyd" (person "cyd@corp.example" .VIEWER)
  sessions := .empty
  invites := .empty
  lastTouch := .empty
  minted := []
  passed := []
  nextLogin := 0
  now := 1000

/-- `PUT /api/users/bob {"role":"VIEWER"}` by Ada, `PUT /api/users/ada {"role":"VIEWER"}` by Bob. -/
def eachOther : List UserRequest :=
  [⟨"ada", .update "bob" { role := some .VIEWER }⟩, ⟨"bob", .update "ada" { role := some .VIEWER }⟩]

/-- One after the other: the second finds the last administrator. -/
theorem one_demotion_is_refused :
    AdminRemains (run userStep (calling office eachOther)
      [.call 0, .call 0, .call 0, .call 0, .other 5, .call 1, .call 1, .call 1, .call 1]).shared := by
  have hall := (an_admin_remains_iff office (by decide) eachOther
    [.call 0, .call 0, .call 0, .call 0, .other 5, .call 1, .call 1, .call 1, .call 1]).2 (by decide)
  exact hall _ [] (List.append_nil _).symm

theorem two_admins_demote_each_other :
    ¬∀ (s : Store), AdminRemains s → ∀ (requests : List UserRequest) (moves : List (Move Nat)) pre post,
      moves = pre ++ post → AdminRemains (run userStep (calling s requests) pre).shared := by
  intro h
  have hremains := h office (by decide) eachOther
    [.call 0, .call 1, .call 0, .call 1, .call 0, .call 1, .call 0, .call 1] _ [] (List.append_nil _).symm
  revert hremains
  decide

end ClusterGate.Accounts
