/-
  ClusterGate.Keys.Withdrawal — whether a withdrawn key is refused on the replica that
  withdrew it (`services/apiKeyService.ts`: `revokeApiKey`, `deleteApiKey`,
  `detachApiKeyFromRoute`, `setApiKeyRoutes`).

  A withdrawal writes the database with one step and clears the cache with another;
  verifications take their steps in between. The cache holds nothing of the withdrawn key
  after the clear, until a verification keeps an answer it has read before the write.
  `revokeApiKey` and `deleteApiKey` clear before they write, so a verification may even
  begin after the clear and keep an answer for thirty seconds.
  - `withdrawal_stages`: which step of a withdrawal writes, and which one clears.
  - `withdrawn_inv`: once cleared, the cache stays free of the key if no verification keeps
    an answer for it.
  - `withdrawal_takes_effect`: then whoever begins after the withdrawal is refused.
  - `an_answer_outlives_the_revocation`: a verification between the clear and the write.
-/

import ClusterGate.Keys.Staleness

namespace ClusterGate

open Lib Async KeyStore

/-! ## What a withdrawal withdraws -/

/-- Two keys have two hashes. -/
def KeyDb.UniqueHashes (db : KeyDb) : Prop :=
  ∀ id id' k k', db.apiKeys.get? id = some k → db.apiKeys.get? id' = some k' → k.keyHash = k'.keyHash → id = id'

/-- No key of the hash is good for the route. -/
def KeyDb.Refuses (db : KeyDb) (keyHash routeId : String) : Prop :=
  ∀ id k, db.apiKeys.get? id = some k → db.grants keyHash routeId k = false

namespace KeyRequest

/-- What a withdrawal writes. -/
def written : KeyRequest → KeyDb → KeyDb
  | .verify _ _, db => db
  | .revoke keyId _, db => { db with apiKeys := db.apiKeys.modify keyId fun k => { k with isActive := false } }
  | .delete keyId _, db => { db with apiKeys := db.apiKeys.erase keyId }
  | .detach keyId routeId, db =>
    { db with apiKeys := db.apiKeys.modify keyId fun k =>
        { k with sharedRoutes := k.sharedRoutes.filter fun r => r ≠ routeId } }
  | .setRoutes keyId ownerRouteId routeIds folderIds, db =>
    { db with apiKeys := db.apiKeys.modify keyId fun k =>
        { k with sharedRoutes := routeIds.eraseDups.filter fun id => id ≠ ownerRouteId,
                 sharedFolders := folderIds.eraseDups } }

/-- With which step it writes. -/
@[simp] def commits : KeyRequest → Nat
  | .verify _ _ => 0
  | .revoke _ _ => 3
  | .delete _ _ => 3
  | .detach _ _ => 1
  | .setRoutes _ _ _ _ => 4

/-- With which step it clears the cache. -/
@[simp] def clears : KeyRequest → Nat
  | .verify _ _ => 0
  | .revoke _ _ => 2
  | .delete _ _ => 2
  | .detach _ _ => 2
  | .setRoutes _ _ _ _ => 5

/-- The request takes a key of the hash from the route. -/
def Withdraws (db : KeyDb) (keyHash routeId : String) : KeyRequest → Prop
  | .verify _ _ => False
  | .revoke keyId _ => ∃ k, db.apiKeys.get? keyId = some k ∧ k.keyHash = keyHash
  | .delete keyId _ => ∃ k, db.apiKeys.get? keyId = some k ∧ k.keyHash = keyHash
  | .detach keyId r => ∃ k, db.apiKeys.get? keyId = some k ∧ k.keyHash = keyHash ∧ r = routeId ∧ k.routeId ≠ routeId ∧
      ∀ folder, db.folderOf routeId = some folder → folder ∉ k.sharedFolders
  | .setRoutes keyId _ routeIds folderIds => ∃ k, db.apiKeys.get? keyId = some k ∧ k.keyHash = keyHash ∧
      k.routeId ≠ routeId ∧ routeId ∉ routeIds ∧ ∀ folder, db.folderOf routeId = some folder → folder ∉ folderIds

end KeyRequest

theorem grants_hash {db : KeyDb} {keyHash routeId : String} {k : ApiKey} (h : k.keyHash ≠ keyHash) :
    db.grants keyHash routeId k = false := by
  simp [KeyDb.grants, h]

/-- Of a key that does not own the route. -/
theorem grants_shared {db : KeyDb} {keyHash routeId : String} {k : ApiKey} (ho : k.routeId ≠ routeId)
    (hr : routeId ∉ k.sharedRoutes) (hf : ∀ folder, db.folderOf routeId = some folder → folder ∉ k.sharedFolders) :
    db.grants keyHash routeId k = false := by
  have hcovers : k.covers routeId (db.folderOf routeId) = false := by
    unfold ApiKey.covers
    cases hfo : db.folderOf routeId with
    | none => simp [ho, hr]
    | some folder => simp [ho, hr, hf folder hfo]
  simp [KeyDb.grants, hcovers]

/-- A key is changed so that it is no longer good; the others have other hashes. -/
theorem modified_refuses {db : KeyDb} {keyHash routeId keyId : String} {f : ApiKey → ApiKey} {k₀ : ApiKey}
    (hu : db.UniqueHashes) (hk₀ : db.apiKeys.get? keyId = some k₀) (hh : k₀.keyHash = keyHash)
    (hf : { db with apiKeys := db.apiKeys.modify keyId f : KeyDb }.grants keyHash routeId (f k₀) = false) :
    { db with apiKeys := db.apiKeys.modify keyId f : KeyDb }.Refuses keyHash routeId := by
  intro id k hk
  dsimp only at hk
  rw [Table.get?_modify] at hk
  by_cases hid : id = keyId
  · rw [if_pos hid, hk₀] at hk
    obtain rfl := Option.some.inj hk
    exact hf
  · rw [if_neg hid] at hk
    refine grants_hash ?_
    intro he
    exact hid (hu id keyId k k₀ hk hk₀ (he.trans hh.symm))

theorem withdraws_refuses {db : KeyDb} {keyHash routeId : String} {q : KeyRequest} (hu : db.UniqueHashes)
    (h : q.Withdraws db keyHash routeId) : (q.written db).Refuses keyHash routeId := by
  cases q with
  | verify key r => exact h.elim
  | revoke keyId r =>
    obtain ⟨k, hk, hh⟩ := h
    refine modified_refuses hu hk hh ?_
    simp [KeyDb.grants]
  | delete keyId r =>
    obtain ⟨k₀, hk₀, hh⟩ := h
    intro id k hk
    dsimp only [KeyRequest.written] at hk
    rw [Table.get?_erase] at hk
    by_cases hid : id = keyId
    · rw [if_pos hid] at hk
      cases hk
    · rw [if_neg hid] at hk
      refine grants_hash ?_
      intro he
      exact hid (hu id keyId k k₀ hk hk₀ (he.trans hh.symm))
  | detach keyId r =>
    obtain ⟨k, hk, hh, rfl, ho, hf⟩ := h
    refine modified_refuses hu hk hh ?_
    exact grants_shared ho (by simp) hf
  | setRoutes keyId ownerRouteId routeIds folderIds =>
    obtain ⟨k, hk, hh, ho, hr, hf⟩ := h
    refine modified_refuses hu hk hh ?_
    refine grants_shared ho (by simp [hr]) ?_
    intro folder hfolder
    simpa using hf folder hfolder

/-! ## The stages of a withdrawal -/

/-- What is so after `n` steps: the database is as it was or as written, and the cache has
    nothing under `ck` once it has been cleared. -/
def KeyRequest.Stage (q : KeyRequest) (db : KeyDb) (ck : String) (n : Nat) (s : KeyStore) : Prop :=
  s.db = (if q.commits ≤ n then q.written db else db) ∧ (q.clears ≤ n → s.validCache.get? ck = none)

def KeyRequest.Complete (q : KeyRequest) (n : Nat) : Prop := q.commits ≤ n ∧ q.clears ≤ n

section Stages

variable {α : Type} {q : KeyRequest} {db : KeyDb} {ck : String} {n : Nat} {Q : Nat → α → Prop} {x : Act KeyStore Err α}

theorem stages_reads (hx : ∀ s, (x s).2 = s) (hc : q.commits ≠ n + 1) (hl : q.clears ≠ n + 1) (hQ : ∀ a, Q (n + 1) a) :
    Stages (q.Stage db ck) Q n (await x) := by
  refine stages_await ?_
  intro s a s' hs he
  have hsame : s' = s := by rw [← hx s, he]
  rw [hsame]
  refine ⟨⟨?_, ?_⟩, hQ a⟩
  · rw [hs.1]
    by_cases hle : q.commits ≤ n
    · rw [if_pos hle, if_pos (by omega)]
    · rw [if_neg hle, if_neg (by omega)]
  · intro hle
    exact hs.2 (by omega)

theorem stages_writes (hx : ∀ s a s', x s = (.ok a, s') → s' = { s with db := q.written s.db }) (hc : q.commits = n + 1)
    (hl : q.clears ≠ n + 1) (hQ : ∀ a, Q (n + 1) a) : Stages (q.Stage db ck) Q n (await x) := by
  refine stages_await ?_
  intro s a s' hs he
  obtain rfl := hx s a s' he
  refine ⟨⟨?_, ?_⟩, hQ a⟩
  · show q.written s.db = _
    rw [hs.1, if_neg (by omega), if_pos (by omega)]
  · intro hle
    exact hs.2 (by omega)

theorem stages_invalidates {Q : Nat → Unit → Prop} (hc : q.commits ≠ n + 1) (hQ : Q (n + 1) ()) :
    Stages (q.Stage db ck) Q n (await invalidateCache) := by
  refine stages_await ?_
  intro s a s' hs he
  obtain ⟨-, rfl⟩ := Prod.mk.inj he
  refine ⟨⟨?_, fun _ => Table.get?_empty ck⟩, hQ⟩
  show s.db = _
  rw [hs.1]
  by_cases hle : q.commits ≤ n
  · rw [if_pos hle, if_pos (by omega)]
  · rw [if_neg hle, if_neg (by omega)]

end Stages

theorem update_ok {keyId : String} {data : ApiKey → ApiKey} {s s' : KeyStore} {k : ApiKey}
    (h : update keyId data s = (.ok k, s')) : s' = { s with db := { s.db with apiKeys := s.db.apiKeys.modify keyId data } } := by
  unfold update at h
  cases hk : s.db.apiKeys.get? keyId with
  | none =>
    rw [hk] at h
    cases h
  | some k =>
    rw [hk] at h
    cases h
    rfl

theorem delete_ok {keyId : String} {s s' : KeyStore} {k : ApiKey} (h : KeyStore.delete keyId s = (.ok k, s')) :
    s' = { s with db := { s.db with apiKeys := s.db.apiKeys.erase keyId } } := by
  unfold KeyStore.delete at h
  cases hk : s.db.apiKeys.get? keyId with
  | none =>
    rw [hk] at h
    cases h
  | some k =>
    rw [hk] at h
    cases h
    rfl

theorem replaceShares_ok {keyId : String} {targetIds folderIds : List String} {s s' : KeyStore} {u : Unit}
    (h : replaceShares keyId targetIds folderIds s = (.ok u, s')) :
    s' = { s with db := { s.db with apiKeys := s.db.apiKeys.modify keyId fun k =>
      { k with sharedRoutes := targetIds, sharedFolders := folderIds } } } := by
  unfold replaceShares at h
  split at h
  · cases h
    rfl
  · cases h

theorem withdrawal_stages (W : World) (q : KeyRequest) (db : KeyDb) (ck : String)
    (hq : ∀ key routeId, q ≠ .verify key routeId) :
    Stages (q.Stage db ck) (fun n _ => q.Complete n) 0 (q.program W) := by
  cases q with
  | verify key routeId => exact absurd rfl (hq key routeId)
  | revoke keyId routeId =>
    refine stages_bind (stages_reads (fun s => rfl) (by simp) (by simp) fun apiKey => ?_)
    refine stages_bind (stages_require fun _ => ?_)
    refine stages_bind (stages_invalidates (by simp) ?_)
    refine stages_bind (stages_writes (fun s k s' h => update_ok h) rfl (by simp) fun k => ?_)
    exact stages_pure (by simp [KeyRequest.Complete])
  | delete keyId routeId =>
    refine stages_bind (stages_reads (fun s => rfl) (by simp) (by simp) fun apiKey => ?_)
    refine stages_bind (stages_require fun _ => ?_)
    refine stages_bind (stages_invalidates (by simp) ?_)
    refine stages_bind (stages_writes (fun s k s' h => delete_ok h) rfl (by simp) fun k => ?_)
    exact stages_pure (by simp [KeyRequest.Complete])
  | detach keyId routeId =>
    refine stages_bind (stages_writes ?_ rfl (by simp) fun count => ?_)
    · intro s count s' h
      cases h
      rfl
    refine stages_bind (stages_require fun _ => ?_)
    refine stages_bind (stages_invalidates (by simp) ?_)
    exact stages_pure (by simp [KeyRequest.Complete])
  | setRoutes keyId ownerRouteId routeIds folderIds =>
    refine stages_bind (stages_reads (fun s => rfl) (by simp) (by simp) fun apiKey => ?_)
    refine stages_bind (stages_require fun _ => ?_)
    refine stages_bind (stages_reads (fun s => rfl) (by simp) (by simp) fun foundRoutes => ?_)
    refine stages_bind (stages_require fun _ => ?_)
    refine stages_bind (stages_reads (fun s => rfl) (by simp) (by simp) fun foundFolders => ?_)
    refine stages_bind (stages_require fun _ => ?_)
    refine stages_bind (stages_writes (fun s u s' h => replaceShares_ok h) rfl (by simp) fun _ => ?_)
    refine stages_bind (stages_invalidates (by simp) ?_)
    refine stages_bind (stages_reads (fun s => rfl) (by simp) (by simp) fun shares => ?_)
    exact stages_pure (by simp [KeyRequest.Complete])

/-! ## Runs -/

/-- Calls take their steps, and time passes. -/
def withdrawalStep (W : World) : Pool KeyStore KeyCall → Move Nat → Pool KeyStore KeyCall :=
  Pool.step (Call.advance (KeyRequest.program W)) KeyStore.wait

/-- A withdrawal and verifications, none of which has begun. -/
def besides (q : KeyRequest) (verifies : List (String × String)) (s : KeyStore) : Pool KeyStore KeyCall :=
  ⟨s, Call.start q :: verifies.map fun v => Call.start (.verify v.1 v.2)⟩

/-- The withdrawal's promise is resolved. -/
def resolved (W : World) (P : Pool KeyStore KeyCall) : Bool := ((P.calls[0]?).bind (KeyCall.answer W)).isSome

/-- The withdrawal has cleared the cache. -/
def cleared (P : Pool KeyStore KeyCall) : Bool := (P.calls[0]?).any fun c => c.request.clears ≤ c.seen.length

/-- The call is a verification that has read an answer and will next keep it under `ck`. -/
def KeyCall.keeps (W : World) (ck : String) (c : KeyCall) : Bool :=
  match c.request with
  | .verify key routeId => cacheKey (W.sha256 key) routeId = ck && c.seen.length = 3 && !c.ended (KeyRequest.program W)
  | _ => false

/-- An answer is kept after the withdrawal has cleared the cache. -/
def keepsLate (W : World) (ck : String) (P : Pool KeyStore KeyCall) : Move Nat → Bool
  | .call i => cleared P && (P.calls[i]?).any (KeyCall.keeps W ck)
  | .other _ => false

/-- The withdrawal has failed or is at its stage, and the other calls are verifications. -/
structure WithdrawnInv (W : World) (q : KeyRequest) (db : KeyDb) (ck : String) (P : Pool KeyStore KeyCall) : Prop where
  withdrawal : ∃ c, P.calls[0]? = some c ∧ c.request = q ∧ ((∃ e, c.left (KeyRequest.program W) = .done (.error e)) ∨
    (q.Stage db ck c.seen.length P.shared ∧
      Stages (q.Stage db ck) (fun n _ => q.Complete n) c.seen.length (c.left (KeyRequest.program W))))
  verifying : ∀ i d, P.calls[i + 1]? = some d →
    ∃ key routeId, d.request = .verify key routeId ∧ Verifying (W.sha256 key) routeId d.seen

variable {W : World} {q : KeyRequest} {db : KeyDb} {ck : String}

theorem besides_inv (hq : ∀ key routeId, q ≠ .verify key routeId) (hc : 0 < q.commits) (hl : 0 < q.clears)
    (verifies : List (String × String)) (s : KeyStore) : WithdrawnInv W q s.db ck (besides q verifies s) := by
  refine ⟨⟨Call.start q, rfl, rfl, .inr ⟨⟨?_, ?_⟩, withdrawal_stages W q s.db ck hq⟩⟩, ?_⟩
  · show s.db = if q.commits ≤ 0 then _ else _
    rw [if_neg (by omega)]
  · intro hle
    exact absurd hle (Nat.not_le_of_gt hl)
  · intro i d hd
    have hmem := List.mem_of_getElem? (show (verifies.map fun v => Call.start (.verify v.1 v.2))[i]? = some d from hd)
    obtain ⟨v, -, rfl⟩ := List.mem_map.1 hmem
    exact ⟨v.1, v.2, rfl, .start⟩

theorem stage_remembered {n : Nat} {s : KeyStore} {ck' id : String} {k : ApiKey} {now : Nat} (h : q.Stage db ck n s)
    (hne : q.clears ≤ n → ck' ≠ ck) : q.Stage db ck n (remember ck' id k now s).2 := by
  have hdb : (remember ck' id k now s).2.db = s.db := by
    unfold remember
    dsimp only
    split <;> rfl
  refine ⟨hdb.trans h.1, ?_⟩
  intro hle
  cases hget : (remember ck' id k now s).2.validCache.get? ck with
  | none => rfl
  | some e =>
    rcases remember_cached hget with hold | ⟨he, -⟩
    · rw [h.2 hle] at hold
      cases hold
    · exact absurd he.symm (hne hle)

/-- The withdrawal takes a step. -/
theorem withdrawn_inv_first {P : Pool KeyStore KeyCall} {d : KeyCall} (h : WithdrawnInv W q db ck P)
    (hd : P.calls[0]? = some d) (hg : d.ended (KeyRequest.program W) = false) :
    WithdrawnInv W q db ck (withdrawalStep W P (.call 0)) := by
  obtain ⟨⟨c, hc, hcq, hstage⟩, hverifying⟩ := h
  have hi := (List.getElem?_eq_some_iff.1 hd).1
  rw [withdrawalStep, Pool.step_going hd hg]
  obtain rfl := Option.some.inj (hc.symm.trans hd)
  refine ⟨⟨_, List.getElem?_set_self hi, hcq, ?_⟩, ?_⟩
  · rcases hstage with ⟨e, he⟩ | ⟨hs, hst⟩
    · rw [Call.ended, he] at hg
      cases hg
    · rw [Call.left_concat]
      simp only [List.length_append, List.length_singleton]
      exact stages_advance hst hg hs
  · intro j d' hd'
    refine hverifying j d' ?_
    rw [← hd']
    exact (List.getElem?_set_ne (by omega)).symm

/-- A verification takes a step, and keeps nothing too late. -/
theorem withdrawn_inv_later {P : Pool KeyStore KeyCall} {j : Nat} {d : KeyCall} (h : WithdrawnInv W q db ck P)
    (hd : P.calls[j + 1]? = some d) (hg : d.ended (KeyRequest.program W) = false)
    (hm : keepsLate W ck P (.call (j + 1)) = false) : WithdrawnInv W q db ck (withdrawalStep W P (.call (j + 1))) := by
  obtain ⟨⟨c, hc, hcq, hstage⟩, hverifying⟩ := h
  have hi := (List.getElem?_eq_some_iff.1 hd).1
  rw [withdrawalStep, Pool.step_going hd hg]
  obtain ⟨key, routeId, hreq, hv⟩ := hverifying j d hd
  obtain ⟨request, seen⟩ := d
  obtain rfl : request = .verify key routeId := hreq
  obtain ⟨hv', hdoes⟩ := verify_step hv hg P.shared
  refine ⟨⟨c, (List.getElem?_set_ne (by omega)).trans hc, hcq, ?_⟩, ?_⟩
  · refine hstage.imp_right ?_
    intro ⟨hs, hst⟩
    refine ⟨?_, hst⟩
    show q.Stage db ck c.seen.length (((verifyKey (W.sha256 key) routeId).after seen).advance P.shared).2
    rcases hdoes with hsame | ⟨s₀, s₁, s₂, id, k, rfl, hf, hkeep⟩
    · rw [hsame]
      exact hs
    · rw [hkeep]
      refine stage_remembered hs ?_
      intro hle he
      have hkeeps : KeyCall.keeps W ck ⟨.verify key routeId, [s₀, s₁, s₂]⟩ = true := by
        simp [KeyCall.keeps, he, hg]
      have hcleared : cleared P = true := by
        unfold cleared
        rw [hc, Option.any_some, hcq]
        exact decide_eq_true hle
      rw [keepsLate, hcleared, hd, Option.any_some, hkeeps] at hm
      cases hm
  · intro l d' hd'
    by_cases hjl : j + 1 = l + 1
    · rw [← hjl] at hd'
      obtain rfl := Option.some.inj ((List.getElem?_set_self hi).symm.trans hd')
      exact ⟨key, routeId, rfl, hv'⟩
    · exact hverifying l d' ((List.getElem?_set_ne hjl).symm.trans hd')

theorem withdrawn_inv {P : Pool KeyStore KeyCall} {m : Move Nat} (h : WithdrawnInv W q db ck P)
    (hm : keepsLate W ck P m = false) : WithdrawnInv W q db ck (withdrawalStep W P m) := by
  cases m with
  | other d => exact ⟨h.withdrawal, h.verifying⟩
  | call i =>
    cases hd : P.calls[i]? with
    | none =>
      rw [withdrawalStep, Pool.step_none hd]
      exact h
    | some d =>
      cases hg : d.ended (KeyRequest.program W) with
      | true =>
        rw [withdrawalStep, Pool.step_ended hd hg]
        exact h
      | false =>
        cases i with
        | zero => exact withdrawn_inv_first h hd hg
        | succ j => exact withdrawn_inv_later h hd hg hm

/-- Once the withdrawal is through, its write is in the database, and the cache is free of
    the key. -/
theorem resolved_effect {P : Pool KeyStore KeyCall} (h : WithdrawnInv W q db ck P) (hr : resolved W P = true) :
    P.shared.db = q.written db ∧ P.shared.validCache.get? ck = none := by
  obtain ⟨⟨c, hc, -, hstage⟩, -⟩ := h
  rw [resolved, hc, Option.bind_some] at hr
  obtain ⟨a, ha⟩ := Option.isSome_iff_exists.1 hr
  have hleft : c.left (KeyRequest.program W) = pure a := Call.returned_iff.1 ha
  rw [hleft] at hstage
  rcases hstage with ⟨e, he⟩ | ⟨⟨hdb, hcache⟩, hcommits, hclears⟩
  · cases he
  · rw [if_pos hcommits] at hdb
    exact ⟨hdb, hcache hclears⟩

theorem resolved_stays {P : Pool KeyStore KeyCall} (hr : resolved W P = true) (ms : List (Move Nat)) :
    resolved W (run (withdrawalStep W) P ms) = true := by
  obtain ⟨a, ha⟩ := Option.isSome_iff_exists.1 hr
  obtain ⟨c, hc, hret⟩ := Option.bind_eq_some_iff.1 ha
  have hleft : c.left (KeyRequest.program W) = pure a := Call.returned_iff.1 hret
  obtain ⟨d, hd, rfl⟩ := @Pool.at_run _ _ _ _ _ (KeyRequest.program W) KeyStore.wait 0 P (fun d => d = c) ms c hc rfl
    (by
      intro pre post d he hdc hg
      rw [hdc, Call.ended, hleft] at hg
      cases hg)
  rw [resolved, withdrawalStep, hd, Option.bind_some, hret]
  rfl

/-- A verification that finds neither an entry nor a key is refused. -/
theorem verifying_refused {keyHash routeId : String} {seen : List KeyStore} (hv : Verifying keyHash routeId seen)
    (hdb : ∀ s ∈ seen, s.db.Refuses keyHash routeId) (hcache : ∀ s ∈ seen, s.validCache.get? (cacheKey keyHash routeId) = none)
    (he : ((verifyKey keyHash routeId).after seen).ended = true) :
    (verifyKey keyHash routeId).after seen = pure (.verified none) := by
  have hnone : ∀ s ∈ seen, ∀ date, s.found keyHash routeId date = none := by
    intro s hs date
    cases hf : s.found keyHash routeId date with
    | none => rfl
    | some found =>
      obtain ⟨id, k⟩ := found
      obtain ⟨hrow, hgrants, -⟩ := found_row hf
      rw [hdb s hs id k hrow] at hgrants
      cases hgrants
  cases hv with
  | start => cases he
  | served s₀ cached h =>
    obtain ⟨hget, -⟩ := good_entry h
    rw [hcache s₀ (by simp)] at hget
    cases hget
  | missed s₀ h =>
    rw [left_missed h] at he
    cases he
  | dated s₀ s₁ h =>
    rw [left_dated h] at he
    cases he
  | absent s₀ s₁ s₂ h hf =>
    rw [left_found h, hf]
    rfl
  | found s₀ s₁ s₂ id k h hf =>
    rw [hnone s₂ (by simp)] at hf
    cases hf
  | kept s₀ s₁ s₂ s₃ id k h hf =>
    rw [hnone s₂ (by simp)] at hf
    cases hf

theorem withdrawal_takes_effect (W : World) (q : KeyRequest) (verifies : List (String × String)) (s : KeyStore)
    (hu : s.db.UniqueHashes) (key routeId : String) (hw : q.Withdraws s.db (W.sha256 key) routeId)
    (pre post : List (Move Nat))
    (hkeep : Along (withdrawalStep W) (fun P m => keepsLate W (cacheKey (W.sha256 key) routeId) P m = false)
      (besides q verifies s) (pre ++ post))
    (hres : resolved W (run (withdrawalStep W) (besides q verifies s) pre) = true) (i : Nat)
    (hbegin : (run (withdrawalStep W) (besides q verifies s) pre).calls[i]? = some (Call.start (.verify key routeId)))
    (c : KeyCall) (hc : (run (withdrawalStep W) (besides q verifies s) (pre ++ post)).calls[i]? = some c)
    (hended : c.ended (KeyRequest.program W) = true) : c.answer W = some (.verified none) := by
  have hstart : WithdrawnInv W q s.db (cacheKey (W.sha256 key) routeId) (besides q verifies s) := by
    cases q with
    | verify key' r => exact hw.elim
    | revoke keyId r => exact besides_inv (by simp) (by simp) (by simp) verifies s
    | delete keyId r => exact besides_inv (by simp) (by simp) (by simp) verifies s
    | detach keyId r => exact besides_inv (by simp) (by simp) (by simp) verifies s
    | setRoutes keyId ownerRouteId routeIds folderIds => exact besides_inv (by simp) (by simp) (by simp) verifies s
  -- what every state after the withdrawal has
  have heffect : ∀ mid rest, post = mid ++ rest →
      (run (withdrawalStep W) (run (withdrawalStep W) (besides q verifies s) pre) mid).shared.db = q.written s.db ∧
        (run (withdrawalStep W) (run (withdrawalStep W) (besides q verifies s) pre) mid).shared.validCache.get?
          (cacheKey (W.sha256 key) routeId) = none := by
    intro mid rest hpost
    rw [hpost, ← List.append_assoc] at hkeep
    have hinv := run_keeps (fun P m hP hm => withdrawn_inv hP hm) hstart (along_append.1 hkeep).1
    rw [run_append] at hinv
    exact resolved_effect hinv (resolved_stays hres mid)
  rw [run_append] at hc
  obtain ⟨d, hd, ⟨hreq, hv, hseen⟩⟩ := @Pool.at_run _ _ _ _ _ (KeyRequest.program W) KeyStore.wait i _
    (fun d => d.request = .verify key routeId ∧ Verifying (W.sha256 key) routeId d.seen ∧
      ∀ s' ∈ d.seen, s'.db = q.written s.db ∧ s'.validCache.get? (cacheKey (W.sha256 key) routeId) = none)
    post _ hbegin ⟨rfl, .start, fun s' hs' => (List.not_mem_nil hs').elim⟩
    (by
      intro mid rest d hpost hR hg
      obtain ⟨hreq, hv, hseen⟩ := hR
      obtain ⟨request, seen⟩ := d
      obtain rfl : request = .verify key routeId := hreq
      refine ⟨rfl, (verify_step hv hg _).1, ?_⟩
      intro s' hs'
      rcases List.mem_append.1 hs' with hs' | hs'
      · exact hseen s' hs'
      · obtain rfl := List.mem_singleton.1 hs'
        exact heffect mid rest hpost)
  obtain rfl := Option.some.inj (hd.symm.trans hc)
  obtain ⟨request, seen⟩ := d
  obtain rfl : request = .verify key routeId := hreq
  refine Call.returned_iff.2 (verifying_refused hv ?_ (fun s' hs' => (hseen s' hs').2) hended)
  intro s' hs'
  rw [(hseen s' hs').1]
  exact withdraws_refuses hu hw

/-! ### A revocation -/

theorem keyShared_unique (sharedRoutes : List String) (expiresAt : Option Nat) : (keyShared sharedRoutes expiresAt).UniqueHashes := by
  intro id id' k k' h h' _
  have hone : ∀ {id : String} {k : ApiKey}, (keyShared sharedRoutes expiresAt).apiKeys.get? id = some k → id = "k" := by
    intro id k h
    dsimp only [keyShared] at h
    rw [Table.get?_insert (Table.get?_empty "k")] at h
    by_cases hid : id = "k"
    · exact hid
    · rw [if_neg hid] at h
      cases h
  rw [hone h, hone h']

/-- The key's revocation, and two verifications of it. -/
def revocation : Pool KeyStore KeyCall :=
  besides (.revoke "k" "a") [(givenKey, "a"), (givenKey, "a")] ⟨0, keyShared [] none, .empty⟩

theorem revocation_withdraws : KeyRequest.Withdraws (keyShared [] none) givenDigest "a" (.revoke "k" "a") :=
  ⟨⟨"a", givenDigest, true, .FULL, none, [], []⟩, by rfl, rfl⟩

/-- The first verification keeps its answer before the cache is cleared. -/
def keptBefore : List (Move Nat) := [.call 1, .call 1, .call 1, .call 1, .call 0, .call 0, .call 0]

/-- It begins after the clear, and ends before the write. -/
def keptBetween : List (Move Nat) := [.call 0, .call 0, .call 1, .call 1, .call 1, .call 1, .call 0]

theorem withdrawal_takes_effect_revoked :
    ((run (withdrawalStep keyWorld) revocation (keptBefore ++ [.call 2, .call 2, .call 2])).calls[2]?).bind
      (KeyCall.answer keyWorld) = some (.verified none) := by
  obtain ⟨c, hc⟩ : ∃ c, (run (withdrawalStep keyWorld) revocation (keptBefore ++ [.call 2, .call 2, .call 2])).calls[2]? =
      some c := Option.isSome_iff_exists.1 (by decide +kernel)
  have hended : ((run (withdrawalStep keyWorld) revocation (keptBefore ++ [.call 2, .call 2, .call 2])).calls[2]?).any
      (Call.ended (KeyRequest.program keyWorld)) = true := by
    decide +kernel
  rw [hc, Option.any_some] at hended
  rw [hc, Option.bind_some]
  exact withdrawal_takes_effect keyWorld (.revoke "k" "a") [(givenKey, "a"), (givenKey, "a")] ⟨0, keyShared [] none, .empty⟩
    (keyShared_unique [] none) givenKey "a" revocation_withdraws keptBefore [.call 2, .call 2, .call 2] (by decide +kernel)
    (by decide +kernel) 2 (by rfl) c hc hended

theorem an_answer_outlives_the_revocation :
    (keyShared [] none).UniqueHashes ∧ KeyRequest.Withdraws (keyShared [] none) givenDigest "a" (.revoke "k" "a") ∧
      resolved keyWorld (run (withdrawalStep keyWorld) revocation keptBetween) = true ∧
      (run (withdrawalStep keyWorld) revocation keptBetween).calls[2]? = some (Call.start (.verify givenKey "a")) ∧
      ((run (withdrawalStep keyWorld) revocation (keptBetween ++ [.call 2])).calls[2]?).bind (KeyCall.answer keyWorld) =
        some (.verified (some ("k", .FULL))) :=
  ⟨keyShared_unique [] none, revocation_withdraws, by decide +kernel, by rfl, by decide +kernel⟩

end ClusterGate
