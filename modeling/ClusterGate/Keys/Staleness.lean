/-
  ClusterGate.Keys.Staleness — how old an answer of `verifyApiKey` can be
  (`services/apiKeyService.ts`).

  Verifications and withdrawals take their steps in any order, the database changes in any
  way in between, the cache may be cleared, and the clock does not run backwards.
  - `KeyInv`: every entry of the cache is what a verification of its route and hash has kept
    of a row it read, for thirty seconds from its own start or until the row expires.
  - `staleness_bounded`: an answer is a row that was read in a state of the run at most
    thirty seconds before the verification began.
  - `the_query_dates_itself`: the clock reading in the query is older than the query. A row
    can have expired since, and not have covered the route before.
-/

import ClusterGate.Keys.Service

namespace ClusterGate

open Lib Async KeyStore

/-! ## Runs -/

inductive KeyEvent
  | wait (d : Nat)
  | change (db : KeyDb)
  | clear

def keyEvent : KeyEvent → KeyStore → KeyStore
  | .wait d, s => s.wait d
  | .change db, s => { s with db := db }
  | .clear, s => { s with validCache := .empty }

def keyStep (W : World) : Pool KeyStore KeyCall → Move KeyEvent → Pool KeyStore KeyCall :=
  Pool.step (Call.advance (KeyRequest.program W)) keyEvent

/-- A replica that has cached nothing, and calls that have not begun. -/
def freshReplica (now : Nat) (db : KeyDb) (requests : List KeyRequest) : Pool KeyStore KeyCall :=
  ⟨⟨now, db, .empty⟩, requests.map Call.start⟩

/-- What a call has returned. -/
def KeyCall.answer (W : World) (c : KeyCall) : Option KeyAnswer := c.returned (KeyRequest.program W)

/-- The clock reading in the query of a verification, and the state the query was run in. -/
def KeyCall.queried (c : KeyCall) : Option (Nat × KeyStore) :=
  match c.seen with
  | _ :: s₁ :: s₂ :: _ => some (s₁.now, s₂)
  | _ => none

/-! ## Keys of the cache -/

theorem last_separator {α : Type} {a a' b b' : List α} {x : α} (h : a ++ x :: b = a' ++ x :: b') (hb : x ∉ b) (hb' : x ∉ b') :
    a = a' ∧ b = b' := by
  rcases List.append_eq_append_iff.1 h with ⟨m, rfl, hm⟩ | ⟨m, rfl, hm⟩
  · cases m with
    | nil =>
      obtain ⟨-, rfl⟩ := List.cons.inj hm
      exact ⟨(List.append_nil a).symm, rfl⟩
    | cons y m =>
      obtain ⟨-, rfl⟩ := List.cons.inj hm
      exact absurd (by simp) hb
  · cases m with
    | nil =>
      obtain ⟨-, rfl⟩ := List.cons.inj hm
      exact ⟨List.append_nil a', rfl⟩
    | cons y m =>
      obtain ⟨-, rfl⟩ := List.cons.inj hm
      exact absurd (by simp) hb'

/-- A digest has no colon, so the last one tells the route from the hash. -/
theorem cacheKey_inj {keyHash keyHash' routeId routeId' : String} (hh : ':' ∉ keyHash.toList) (hh' : ':' ∉ keyHash'.toList)
    (h : cacheKey keyHash routeId = cacheKey keyHash' routeId') : keyHash = keyHash' ∧ routeId = routeId' := by
  have hl : routeId.toList ++ ':' :: keyHash.toList = routeId'.toList ++ ':' :: keyHash'.toList := by
    have := congrArg String.toList h
    simpa [cacheKey] using this
  obtain ⟨hr, hk⟩ := last_separator hl hh hh'
  exact ⟨String.toList_inj.1 hk, String.toList_inj.1 hr⟩

/-! ## What a step does to the clock and the cache -/

/-- The clock stands, and the cache is as it was or empty. -/
def Withdraws (s s' : KeyStore) : Prop := s'.now = s.now ∧ (s'.validCache = s.validCache ∨ s'.validCache = .empty)

theorem withdraws_read {s : KeyStore} : Withdraws s s := ⟨rfl, .inl rfl⟩

theorem update_withdraws (keyId : String) (data : ApiKey → ApiKey) (s : KeyStore) : Withdraws s (update keyId data s).2 := by
  unfold update
  cases s.db.apiKeys.get? keyId <;> exact ⟨rfl, .inl rfl⟩

theorem delete_withdraws (keyId : String) (s : KeyStore) : Withdraws s (KeyStore.delete keyId s).2 := by
  unfold KeyStore.delete
  cases s.db.apiKeys.get? keyId <;> exact ⟨rfl, .inl rfl⟩

theorem replaceShares_withdraws (keyId : String) (targetIds folderIds : List String) (s : KeyStore) :
    Withdraws s (replaceShares keyId targetIds folderIds s).2 := by
  unfold replaceShares
  split <;> exact ⟨rfl, .inl rfl⟩

/-- No call but a verification puts anything into the cache. -/
theorem program_withdraws (W : World) (q : KeyRequest) (hq : ∀ key routeId, q ≠ .verify key routeId) :
    EveryStep Withdraws (q.program W) := by
  have hread : ∀ {α : Type} (f : KeyStore → Except Err α), EveryStep Withdraws (await fun s => (f s, s)) :=
    fun f => everyStep_await fun s => withdraws_read
  have hclear : EveryStep Withdraws (await invalidateCache) := everyStep_await fun s => ⟨rfl, .inr rfl⟩
  cases q with
  | verify key routeId => exact absurd rfl (hq key routeId)
  | revoke keyId routeId =>
    refine everyStep_bind (hread _) fun apiKey => ?_
    refine everyStep_bind (everyStep_require _ _) fun _ => ?_
    refine everyStep_bind hclear fun _ => ?_
    exact everyStep_bind (everyStep_await (update_withdraws _ _)) fun _ => everyStep_pure _
  | delete keyId routeId =>
    refine everyStep_bind (hread _) fun apiKey => ?_
    refine everyStep_bind (everyStep_require _ _) fun _ => ?_
    refine everyStep_bind hclear fun _ => ?_
    exact everyStep_bind (everyStep_await (delete_withdraws _)) fun _ => everyStep_pure _
  | detach keyId routeId =>
    refine everyStep_bind (everyStep_await fun s => ⟨rfl, .inl rfl⟩) fun count => ?_
    refine everyStep_bind (everyStep_require _ _) fun _ => ?_
    exact everyStep_bind hclear fun _ => everyStep_pure _
  | setRoutes keyId ownerRouteId routeIds folderIds =>
    refine everyStep_bind (hread _) fun apiKey => ?_
    refine everyStep_bind (everyStep_require _ _) fun _ => ?_
    refine everyStep_bind (hread _) fun foundRoutes => ?_
    refine everyStep_bind (everyStep_require _ _) fun _ => ?_
    refine everyStep_bind (hread _) fun foundFolders => ?_
    refine everyStep_bind (everyStep_require _ _) fun _ => ?_
    refine everyStep_bind (everyStep_await (replaceShares_withdraws _ _ _)) fun _ => ?_
    refine everyStep_bind hclear fun _ => ?_
    exact everyStep_bind (hread _) fun _ => everyStep_pure _

/-! ## The invariant -/

/-- A call has taken its steps one after another, none later than `now`; a verification as
    it does. -/
structure KeyCall.Timely (W : World) (now : Nat) (c : KeyCall) : Prop where
  ordered : (c.seen.map KeyStore.now).Pairwise (· ≤ ·)
  past : ∀ s ∈ c.seen, s.now ≤ now
  verifying : ∀ key routeId, c.request = .verify key routeId → Verifying (W.sha256 key) routeId c.seen

/-- `c` is a verification that has kept `e` under `ck`. -/
def KeyCall.Kept (W : World) (ck : String) (e : CachedKey) (c : KeyCall) : Prop :=
  ∃ key routeId s₀ s₁ s₂ s₃ id k, c = ⟨.verify key routeId, [s₀, s₁, s₂, s₃]⟩ ∧ ck = cacheKey (W.sha256 key) routeId ∧
    s₂.found (W.sha256 key) routeId s₁.now = some (id, k) ∧ e = ⟨id, k.scope, (s₀.now + ttl k s₀.now).toNat⟩

structure KeyInv (W : World) (P : Pool KeyStore KeyCall) : Prop where
  calls : ∀ c ∈ P.calls, c.Timely W P.shared.now
  cached : ∀ ck e, P.shared.validCache.get? ck = some e → ∃ c ∈ P.calls, c.Kept W ck e

variable {W : World}

theorem freshReplica_inv (now : Nat) (db : KeyDb) (requests : List KeyRequest) : KeyInv W (freshReplica now db requests) := by
  constructor
  · intro c hc
    obtain ⟨q, -, rfl⟩ := List.mem_map.1 hc
    exact ⟨List.Pairwise.nil, fun s hs => (List.not_mem_nil hs).elim, fun key routeId h => .start⟩
  · intro ck e h
    cases h

theorem KeyCall.Timely.later {c : KeyCall} {now now' : Nat} (h : c.Timely W now) (hle : now ≤ now') : c.Timely W now' :=
  ⟨h.ordered, fun s hs => Nat.le_trans (h.past s hs) hle, h.verifying⟩

/-- A call that goes on stays timely. -/
theorem KeyCall.Timely.going {c : KeyCall} {S : KeyStore} (h : c.Timely W S.now)
    (hg : c.ended (KeyRequest.program W) = false) : KeyCall.Timely W S.now ⟨c.request, c.seen ++ [S]⟩ := by
  refine ⟨?_, ?_, ?_⟩
  · show ((c.seen ++ [S]).map KeyStore.now).Pairwise (· ≤ ·)
    rw [List.map_append]
    refine List.pairwise_append.2 ⟨h.ordered, List.pairwise_singleton _ _, ?_⟩
    intro a ha b hb
    obtain ⟨s, hs, rfl⟩ := List.mem_map.1 ha
    obtain rfl := List.mem_singleton.1 hb
    exact h.past s hs
  · intro s hs
    rcases List.mem_append.1 hs with hs | hs
    · exact h.past s hs
    · obtain rfl := List.mem_singleton.1 hs
      exact Nat.le_refl _
  · intro key routeId hq
    obtain ⟨request, seen⟩ := c
    obtain rfl : request = .verify key routeId := hq
    exact (verify_step (h.verifying key routeId rfl) hg S).1

/-- A call that has kept something has ended. -/
theorem KeyCall.Kept.ended {c : KeyCall} {ck : String} {e : CachedKey} {now : Nat} (h : c.Kept W ck e) (ht : c.Timely W now) :
    c.ended (KeyRequest.program W) = true := by
  obtain ⟨key, routeId, s₀, s₁, s₂, s₃, id, k, rfl, -, hf, -⟩ := h
  have hv : Verifying (W.sha256 key) routeId [s₀, s₁, s₂, s₃] := ht.verifying key routeId rfl
  have hgood : s₀.good (cacheKey (W.sha256 key) routeId) = none := by
    cases hv with
    | kept _ _ _ _ id k h hf => exact h
  show ((verifyKey (W.sha256 key) routeId).after [s₀, s₁, s₂, s₃]).ended = true
  rw [left_kept hgood hf]
  rfl

/-- What a call does with its next step: it may keep what it has read, and else puts
    nothing into the cache. -/
theorem going_withdraws {c : KeyCall} {S : KeyStore} (h : c.Timely W S.now) (hg : c.ended (KeyRequest.program W) = false) :
    Withdraws S ((c.left (KeyRequest.program W)).advance S).2 ∨
      ∃ key routeId s₀ s₁ s₂ id k, c = ⟨.verify key routeId, [s₀, s₁, s₂]⟩ ∧
        s₂.found (W.sha256 key) routeId s₁.now = some (id, k) ∧
        ((c.left (KeyRequest.program W)).advance S).2 = (remember (cacheKey (W.sha256 key) routeId) id k s₀.now S).2 := by
  obtain ⟨request, seen⟩ := c
  by_cases hq : ∃ key routeId, request = .verify key routeId
  · obtain ⟨key, routeId, rfl⟩ := hq
    rcases (verify_step (h.verifying key routeId rfl) hg S).2 with hs | ⟨s₀, s₁, s₂, id, k, rfl, hf, hs⟩
    · left
      show Withdraws S (((verifyKey (W.sha256 key) routeId).after seen).advance S).2
      rw [hs]
      exact withdraws_read
    · exact .inr ⟨key, routeId, s₀, s₁, s₂, id, k, rfl, hf, hs⟩
  · left
    have hall := program_withdraws W request fun key routeId he => hq ⟨key, routeId, he⟩
    exact everyStep_advance (everyStep_after seen hall) hg S

theorem remember_now (ck id : String) (k : ApiKey) (now : Nat) (S : KeyStore) : (remember ck id k now S).2.now = S.now := by
  unfold remember
  dsimp only
  split <;> rfl

theorem remember_cached {ck ck' id : String} {k : ApiKey} {now : Nat} {S : KeyStore} {e : CachedKey}
    (h : (remember ck id k now S).2.validCache.get? ck' = some e) :
    S.validCache.get? ck' = some e ∨ (ck' = ck ∧ e = ⟨id, k.scope, (now + ttl k now).toNat⟩) := by
  unfold remember at h
  dsimp only at h
  by_cases hp : ttl k now > 0
  · rw [if_pos hp] at h
    dsimp only at h
    rw [Table.get?_upsert] at h
    by_cases hk : ck' = ck
    · rw [if_pos hk] at h
      exact .inr ⟨hk, (Option.some.inj h).symm⟩
    · rw [if_neg hk] at h
      exact .inl h
  · rw [if_neg hp] at h
    exact .inl h

theorem keyStep_ended {P : Pool KeyStore KeyCall} {i : Nat} {c : KeyCall} (hc : P.calls[i]? = some c)
    (he : c.ended (KeyRequest.program W) = true) : keyStep W P (.call i) = P :=
  Pool.step_ended hc he

theorem keyStep_going {P : Pool KeyStore KeyCall} {i : Nat} {c : KeyCall} (hc : P.calls[i]? = some c)
    (hg : c.ended (KeyRequest.program W) = false) : keyStep W P (.call i) =
      ⟨((c.left (KeyRequest.program W)).advance P.shared).2, P.calls.set i ⟨c.request, c.seen ++ [P.shared]⟩⟩ :=
  Pool.step_going hc hg

theorem keyStep_inv {P : Pool KeyStore KeyCall} (h : KeyInv W P) (m : Move KeyEvent) : KeyInv W (keyStep W P m) := by
  obtain ⟨hcalls, hcached⟩ := h
  cases m with
  | other e =>
    cases e with
    | wait d => exact ⟨fun c hc => (hcalls c hc).later (Nat.le_add_right _ _), hcached⟩
    | change db => exact ⟨hcalls, hcached⟩
    | clear => exact ⟨hcalls, fun ck e he => by cases he⟩
  | call i =>
    cases hc : P.calls[i]? with
    | none =>
      rw [keyStep, Pool.step_none hc]
      exact ⟨hcalls, hcached⟩
    | some c =>
      have hcm : c ∈ P.calls := List.mem_of_getElem? hc
      cases hg : c.ended (KeyRequest.program W) with
      | true =>
        rw [keyStep_ended hc hg]
        exact ⟨hcalls, hcached⟩
      | false =>
        have hkept : ∀ ck e, P.shared.validCache.get? ck = some e → ∃ d ∈ (keyStep W P (.call i)).calls, d.Kept W ck e := by
          intro ck e he
          obtain ⟨d, hd, hk⟩ := hcached ck e he
          exact ⟨d, Pool.ended_mem hd (hk.ended (hcalls d hd)) hc hg, hk⟩
        have hlater : ∀ now, P.shared.now ≤ now → ∀ d ∈ (keyStep W P (.call i)).calls, d.Timely W now := by
          intro now hle
          refine Pool.forall_going (fun d hd => (hcalls d hd).later hle) hc hg ?_
          exact ((hcalls c hcm).going hg).later hle
        have hshared : (keyStep W P (.call i)).shared = ((c.left (KeyRequest.program W)).advance P.shared).2 := by
          rw [keyStep_going hc hg]
        rcases going_withdraws (hcalls c hcm) hg with ⟨hnow, hcache⟩ | ⟨key, routeId, s₀, s₁, s₂, id, k, rfl, hf, hs⟩
        · rw [← hshared] at hnow hcache
          refine ⟨hlater _ (by omega), ?_⟩
          intro ck e he
          rcases hcache with hsame | hempty
          · rw [hsame] at he
            exact hkept ck e he
          · rw [hempty] at he
            cases he
        · rw [← hshared] at hs
          have hnow : (keyStep W P (.call i)).shared.now = P.shared.now := by rw [hs, remember_now]
          refine ⟨hlater _ (by omega), ?_⟩
          intro ck e he
          rw [hs] at he
          rcases remember_cached he with hold | ⟨rfl, rfl⟩
          · exact hkept ck e hold
          · refine ⟨⟨.verify key routeId, [s₀, s₁, s₂, P.shared]⟩, ?_, ?_⟩
            · exact Pool.going_mem hc hg
            · exact ⟨key, routeId, s₀, s₁, s₂, P.shared, id, k, rfl, rfl, hf, rfl⟩

theorem keyRun_inv (now : Nat) (db : KeyDb) (requests : List KeyRequest) (ms : List (Move KeyEvent)) :
    KeyInv W (run (keyStep W) (freshReplica now db requests) ms) := by
  induction ms using List.reverseRecOn with
  | nil => exact freshReplica_inv now db requests
  | append_singleton ms m ih =>
    rw [run_append]
    exact keyStep_inv ih m

/-! ## Staleness -/

/-- `c` is a verification of the hash for the route that has read the row `k` in `S`: active,
    covering the route, and not expired at the clock reading in its query. -/
structure KeyCall.Read (W : World) (c : KeyCall) (keyHash routeId : String) (date : Nat) (S : KeyStore) (id : String)
    (k : ApiKey) : Prop where
  asked : ∃ key, c.request = .verify key routeId ∧ W.sha256 key = keyHash
  queried : c.queried = some (date, S)
  row : S.db.apiKeys.get? id = some k
  grants : S.db.grants keyHash routeId k = true
  unexpired : k.unexpired date = true

theorem found_row {S : KeyStore} {keyHash routeId id : String} {date : Nat} {k : ApiKey}
    (h : S.found keyHash routeId date = some (id, k)) :
    S.db.apiKeys.get? id = some k ∧ S.db.grants keyHash routeId k = true ∧ k.unexpired date = true := by
  obtain ⟨hrow, hcond⟩ := Table.find?_some h
  obtain ⟨hgrants, hexp⟩ := Bool.and_eq_true_iff.1 hcond
  exact ⟨hrow, hgrants, hexp⟩

/-- What an entry that is still good says of the row it was made from. -/
theorem good_until {k : ApiKey} {kept now : Nat} (h : now < (kept + ttl k kept).toNat) :
    now ≤ kept + POSITIVE_TTL_MS ∧ k.unexpired now = true := by
  unfold ttl at h
  unfold ApiKey.unexpired
  unfold POSITIVE_TTL_MS at h ⊢
  cases he : k.expiresAt with
  | none =>
    rw [he] at h
    dsimp only at h
    exact ⟨by omega, rfl⟩
  | some t =>
    rw [he] at h
    dsimp only at h ⊢
    exact ⟨by omega, decide_eq_true (by omega)⟩

theorem good_entry {S : KeyStore} {ck : String} {cached : CachedKey} (h : S.good ck = some cached) :
    S.validCache.get? ck = some cached ∧ S.now < cached.cacheUntil := by
  obtain ⟨hget, hlt⟩ := Option.filter_eq_some_iff.1 h
  exact ⟨hget, of_decide_eq_true hlt⟩

/-- What a verification has read whose answer the cache holds. -/
theorem KeyCall.Kept.read {r : KeyCall} {keyHash routeId : String} {cached : CachedKey} {now : Nat}
    (hhex : ∀ key, ':' ∉ (W.sha256 key).toList) (hhash : ':' ∉ keyHash.toList) (h : r.Kept W (cacheKey keyHash routeId) cached)
    (ht : r.Timely W now) (hlt : now < cached.cacheUntil) :
    ∃ date S k, S ∈ r.seen ∧ r.Read W keyHash routeId date S cached.id k ∧ k.scope = cached.scope ∧
      now ≤ S.now + POSITIVE_TTL_MS ∧ now ≤ date + POSITIVE_TTL_MS ∧ date ≤ S.now ∧ k.unexpired now = true := by
  obtain ⟨key, routeId', s₀, s₁, s₂, s₃, id, k, rfl, hck, hf, rfl⟩ := h
  obtain ⟨rfl, rfl⟩ := cacheKey_inj hhash (hhex key) hck
  obtain ⟨hrow, hgrants, hexp⟩ := found_row hf
  obtain ⟨hle, hunexp⟩ := good_until hlt
  have hord := ht.ordered
  simp only [List.map_cons, List.map_nil, List.pairwise_cons, List.mem_cons, List.not_mem_nil, or_false, forall_eq_or_imp,
    forall_eq] at hord
  obtain ⟨⟨h₀₁, h₀₂, -⟩, ⟨h₁₂, -⟩, -⟩ := hord
  refine ⟨s₁.now, s₂, k, by simp, ⟨⟨key, rfl, rfl⟩, rfl, hrow, hgrants, hexp⟩, rfl, ?_, ?_, h₁₂, hunexp⟩
  · exact Nat.le_trans hle (Nat.add_le_add_right h₀₂ _)
  · exact Nat.le_trans hle (Nat.add_le_add_right h₀₁ _)

/-- The row an answer comes from: the cache's, or the one the verification has read itself. -/
theorem answer_read (hhex : ∀ key, ':' ∉ (W.sha256 key).toList) {P : Pool KeyStore KeyCall} (h : KeyInv W P) {i : Nat}
    {key routeId id : String} {scope : ApiKeyScope} {seen : List KeyStore}
    (hc : P.calls[i]? = some ⟨.verify key routeId, seen⟩) (hg : ((verifyKey (W.sha256 key) routeId).after seen).ended = false)
    (hret : KeyCall.answer W ⟨.verify key routeId, seen ++ [P.shared]⟩ = some (.verified (some (id, scope)))) :
    ∃ r ∈ (keyStep W P (.call i)).calls, ∃ d ∈ P.calls, ∃ date S k, S ∈ d.seen ∧ r.Read W (W.sha256 key) routeId date S id k ∧
      k.scope = scope ∧ (seen.headD P.shared).now ≤ S.now + POSITIVE_TTL_MS ∧
      (seen.headD P.shared).now ≤ date + POSITIVE_TTL_MS ∧ date ≤ S.now ∧
      (seen = [] → k.unexpired (seen.headD P.shared).now = true) := by
  have hcm := List.mem_of_getElem? hc
  have hv : Verifying (W.sha256 key) routeId seen := (h.calls _ hcm).verifying key routeId rfl
  have hleft : (verifyKey (W.sha256 key) routeId).after (seen ++ [P.shared]) = pure (.verified (some (id, scope))) :=
    Call.returned_iff.1 hret
  cases hv with
  | start =>
    cases hgood : P.shared.good (cacheKey (W.sha256 key) routeId) with
    | none =>
      rw [List.nil_append, left_missed hgood] at hleft
      cases hleft
    | some cached =>
      rw [List.nil_append, left_served hgood] at hleft
      cases hleft
      obtain ⟨hget, hlt⟩ := good_entry hgood
      obtain ⟨r, hr, hk⟩ := h.cached _ cached hget
      obtain ⟨date, S, k, hS, hread, hscope, h₁, h₂, h₃, hexp⟩ := hk.read hhex (hhex key) (h.calls r hr) hlt
      exact ⟨r, Pool.ended_mem hr (hk.ended (h.calls r hr)) hc hg, r, hr, date, S, k, hS, hread, hscope, h₁, h₂, h₃,
        fun _ => hexp⟩
  | served s₀ cached hs =>
    rw [left_served hs] at hg
    cases hg
  | missed s₀ hs =>
    rw [List.singleton_append, left_dated hs] at hleft
    cases hleft
  | dated s₀ s₁ hs =>
    rw [List.cons_append, List.singleton_append, left_found hs] at hleft
    cases hf : P.shared.found (W.sha256 key) routeId s₁.now with
    | none =>
      rw [hf] at hleft
      cases hleft
    | some found =>
      rw [hf] at hleft
      cases hleft
  | absent s₀ s₁ s₂ hs hf =>
    rw [left_found hs, hf] at hg
    cases hg
  | found s₀ s₁ s₂ id' k hs hf =>
    rw [List.cons_append, List.cons_append, List.singleton_append, left_kept hs hf] at hleft
    cases hleft
    obtain ⟨hrow, hgrants, hexp⟩ := found_row hf
    have hord := (h.calls _ hcm).ordered
    simp only [List.map_cons, List.map_nil, List.pairwise_cons, List.mem_cons, List.not_mem_nil, or_false,
      forall_eq_or_imp, forall_eq] at hord
    obtain ⟨⟨h₀₁, h₀₂⟩, h₁₂, -⟩ := hord
    refine ⟨⟨.verify key routeId, [s₀, s₁, s₂, P.shared]⟩, Pool.going_mem hc hg, _, hcm, s₁.now, s₂, k, by simp,
      ⟨⟨key, rfl, rfl⟩, rfl, hrow, hgrants, hexp⟩, rfl, ?_, ?_, h₁₂, ?_⟩
    · exact Nat.le_trans h₀₂ (Nat.le_add_right _ _)
    · exact Nat.le_trans h₀₁ (Nat.le_add_right _ _)
    · intro hn
      cases hn
  | kept s₀ s₁ s₂ s₃ id' k hs hf =>
    rw [left_kept hs hf] at hg
    cases hg

theorem staleness_bounded (W : World) (hhex : ∀ key, ':' ∉ (W.sha256 key).toList) (now : Nat) (db : KeyDb)
    (requests : List KeyRequest) (ms : List (Move KeyEvent)) (i : Nat) (c : KeyCall) (key routeId id : String)
    (scope : ApiKeyScope) (hc : (run (keyStep W) (freshReplica now db requests) ms).calls[i]? = some c)
    (hq : c.request = .verify key routeId) (hbefore : c.answer W = none)
    (hreturn : ((run (keyStep W) (freshReplica now db requests) (ms ++ [.call i])).calls[i]?).bind (KeyCall.answer W) =
      some (.verified (some (id, scope)))) :
    ∃ pre post, ms = pre ++ post ∧
      ∃ S, S = (run (keyStep W) (freshReplica now db requests) pre).shared ∧
      ∃ t, t = (c.begun (run (keyStep W) (freshReplica now db requests) ms).shared).now ∧
      ∃ r ∈ (run (keyStep W) (freshReplica now db requests) (ms ++ [.call i])).calls,
      ∃ date k, r.Read W (W.sha256 key) routeId date S id k ∧ k.scope = scope ∧
        t ≤ S.now + POSITIVE_TTL_MS ∧ t ≤ date + POSITIVE_TTL_MS ∧ date ≤ S.now ∧
        (c.seen = [] → k.unexpired t = true) := by
  have hstates := @Pool.seen_state _ _ _ _ _ (KeyRequest.program W) keyEvent (freshReplica now db requests)
    (by
      intro d hd
      obtain ⟨q, -, rfl⟩ := List.mem_map.1 hd
      rfl) ms
  have hinv := @keyRun_inv W now db requests ms
  rw [run_append, run_cons, run_nil] at hreturn ⊢
  obtain ⟨request, seen⟩ := c
  obtain rfl : request = .verify key routeId := hq
  have hg : Call.ended (KeyRequest.program W) ⟨.verify key routeId, seen⟩ = false := by
    cases hg : Call.ended (KeyRequest.program W) (⟨.verify key routeId, seen⟩ : KeyCall) with
    | false => rfl
    | true =>
      rw [keyStep_ended hc hg, hc, Option.bind_some, hbefore] at hreturn
      cases hreturn
  have hi := (List.getElem?_eq_some_iff.1 hc).1
  have hmoved : (keyStep W (run (keyStep W) (freshReplica now db requests) ms) (.call i)).calls[i]? =
      some ⟨.verify key routeId, seen ++ [(run (keyStep W) (freshReplica now db requests) ms).shared]⟩ := by
    rw [keyStep_going hc hg]
    exact List.getElem?_set_self hi
  rw [hmoved] at hreturn
  obtain ⟨r, hr, d, hd, date, S, k, hS, hread, hscope, h₁, h₂, h₃, hexp⟩ := answer_read hhex hinv hc hg hreturn
  obtain ⟨pre, post, hms, hpre⟩ := hstates d hd S hS
  exact ⟨pre, post, hms, S, hpre.symm, _, rfl, r, hr, date, k, hread, hscope, h₁, h₂, h₃, hexp⟩

/-! ### A key of a route, and its runs -/

def givenKey : String := "cgk_5f5f5f5f5f5f5f5f5f5f5f5f5f5f5f5f5f5f5f5f5f5f5f5f5f5f5f5f5f5f5f5f"

def givenDigest : String := "9e6d1f7a49724022eafff0c8d358e75c9ffaf510736862a24567fd747c9a67e7"

/-- A world with the digest of the key. -/
def keyWorld : World := { World.plain with sha256 := fun _ => givenDigest }

/-- A key of route `a`, and what it is shared with. -/
def keyShared (sharedRoutes : List String) (expiresAt : Option Nat) : KeyDb where
  apiKeys := Table.empty.insert "k" ⟨"a", givenDigest, true, .FULL, expiresAt, sharedRoutes, []⟩
  routes := (Table.empty.insert "a" ⟨none, false⟩).insert "b" ⟨none, false⟩
  routeFolders := []

theorem keyWorld_hex : ∀ key, ':' ∉ (keyWorld.sha256 key).toList := by
  intro key
  show ':' ∉ givenDigest.toList
  decide

/-- The answer of the second verification is the first one's, 29999 ms old. -/
theorem staleness_bounded_served : ∃ pre post, [.call 0, .call 0, .call 0, .call 0, .other (.wait 29999)] = pre ++ post ∧
    ∃ S, S = (run (keyStep keyWorld) (freshReplica 0 (keyShared [] none) [.verify givenKey "a", .verify givenKey "a"]) pre).shared ∧
      29999 ≤ S.now + POSITIVE_TTL_MS ∧ ∃ k, S.db.apiKeys.get? "k" = some k ∧ k.unexpired 29999 = true := by
  obtain ⟨pre, post, hms, S, hS, t, ht, r, -, date, k, hread, -, hle, -, -, hexp⟩ :=
    staleness_bounded keyWorld keyWorld_hex 0 (keyShared [] none) [.verify givenKey "a", .verify givenKey "a"]
      [.call 0, .call 0, .call 0, .call 0, .other (.wait 29999)] 1 ⟨.verify givenKey "a", []⟩ givenKey "a" "k" .FULL
      (by rfl) rfl (by rfl) (by decide +kernel)
  obtain rfl : t = 29999 := ht.trans (by rfl)
  exact ⟨pre, post, hms, S, hS, hle, k, hread.row, hexp rfl⟩

/-- The row in the database, if it is good for the route at this moment. -/
def KeyStore.holdsNow (S : KeyStore) (keyHash routeId id : String) : Bool :=
  (S.db.apiKeys.get? id).any fun k => S.db.grants keyHash routeId k && k.unexpired S.now

/-- A verification that reads the clock at 999, and the database at 1004. -/
def lateQuery : List (Move KeyEvent) :=
  [.call 0, .call 0, .other (.wait 5), .other (.change (keyShared ["b"] (some 1000))), .call 0, .call 0]

theorem the_query_dates_itself :
    ((run (keyStep keyWorld) (freshReplica 999 (keyShared [] (some 1000)) [.verify givenKey "b"]) lateQuery).calls[0]?).bind
        (KeyCall.answer keyWorld) = some (.verified (some ("k", .FULL))) ∧
      ∀ pre post, lateQuery = pre ++ post →
        (run (keyStep keyWorld) (freshReplica 999 (keyShared [] (some 1000)) [.verify givenKey "b"]) pre).shared.holdsNow
          givenDigest "b" "k" = false := by
  refine ⟨by decide +kernel, ?_⟩
  intro pre post hms
  have hall : ∀ n ∈ List.range (lateQuery.length + 1),
      (run (keyStep keyWorld) (freshReplica 999 (keyShared [] (some 1000)) [.verify givenKey "b"])
        (lateQuery.take n)).shared.holdsNow givenDigest "b" "k" = false := by
    decide +kernel
  have htake : pre = lateQuery.take pre.length := by rw [hms, List.take_left]
  rw [htake]
  refine hall pre.length (List.mem_range.2 (Nat.lt_succ_of_le ?_))
  rw [hms, List.length_append]
  exact Nat.le_add_right _ _

end ClusterGate
