/-
  ClusterGate.Lib.Claims — what at most one of many calls gets.

  Calls over a shared state claim keys: a call's step claims a key that is free and takes it,
  and a key that is taken stays so. Whatever the order of the steps, no key is claimed twice.
  `claims` reads off the states a call has seen what it has claimed.
  - `Pool.ClaimedOnce`: the claimed keys are distinct, and each is taken.
  - `Pool.claimedOnce_run`: kept by any run, if a step claims nothing or a free key.
  - `Pool.ClaimedOnce.countP_le`: at most one call is such that it must have claimed a key.
-/

import ClusterGate.Lib.Async

namespace ClusterGate.Lib.Pool

variable {ρ σ ε α η κ : Type} {program : ρ → Async σ ε α} {env : η → σ → σ} {claims : Call ρ σ → Option κ}
  {Taken : σ → κ → Prop}

variable (claims Taken) in
/-- No key is claimed twice, and what is claimed is taken. -/
structure ClaimedOnce (P : Pool σ (Call ρ σ)) : Prop where
  nodup : (P.calls.filterMap claims).Nodup
  taken : ∀ k ∈ P.calls.filterMap claims, Taken P.shared k

theorem claimedOnce_fresh {P : Pool σ (Call ρ σ)} (h : ∀ c ∈ P.calls, claims c = none) : P.ClaimedOnce claims Taken := by
  have hnil : P.calls.filterMap claims = [] := List.filterMap_eq_nil_iff.2 h
  constructor
  · rw [hnil]
    exact List.nodup_nil
  · rw [hnil]
    intro k hk
    cases hk

/-- The step of a call claims nothing, or a key that is free and then taken. -/
def ClaimsFree (claims : Call ρ σ → Option κ) (Taken : σ → κ → Prop) (c : Call ρ σ) (s s' : σ) : Prop :=
  claims ⟨c.request, c.seen ++ [s]⟩ = claims c ∨
    (claims c = none ∧ ∃ k, claims ⟨c.request, c.seen ++ [s]⟩ = some k ∧ ¬Taken s k ∧ Taken s' k)

theorem claimedOnce_step (hother : ∀ e s k, Taken s k → Taken (env e s) k)
    (hkept : ∀ c s k, Call.ended program c = false → Taken s k → Taken ((c.left program).advance s).2 k)
    (hclaims : ∀ c s, Call.ended program c = false → ClaimsFree claims Taken c s ((c.left program).advance s).2)
    {P : Pool σ (Call ρ σ)} (h : P.ClaimedOnce claims Taken) (m : Move η) :
    (P.step (Call.advance program) env m).ClaimedOnce claims Taken := by
  cases m with
  | other e => exact ⟨h.nodup, fun k hk => hother e P.shared k (h.taken k hk)⟩
  | call i =>
    cases hc : P.calls[i]? with
    | none =>
      rw [step_none hc]
      exact h
    | some c =>
      cases hg : c.ended program with
      | true =>
        rw [step_ended hc hg]
        exact h
      | false =>
        have hgather := @gather_going ρ σ ε α η program env P i c κ claims hc hg
        have hshared : (P.step (Call.advance program) env (.call i)).shared = ((c.left program).advance P.shared).2 := by
          rw [step_going hc hg]
        rcases hclaims c P.shared hg with hsame | ⟨hnone, k, hk, hfree, htaken⟩
        · rw [hsame] at hgather
          have hperm := (List.perm_append_left_iff _).1 hgather
          refine ⟨hperm.nodup_iff.2 h.nodup, ?_⟩
          intro j hj
          rw [hshared]
          exact hkept c P.shared j hg (h.taken j (hperm.mem_iff.1 hj))
        · rw [hnone, hk] at hgather
          have hperm : ((P.step (Call.advance program) env (.call i)).calls.filterMap claims).Perm
              (k :: P.calls.filterMap claims) := hgather
          refine ⟨hperm.nodup_iff.2 (List.nodup_cons.2 ⟨fun hmem => hfree (h.taken k hmem), h.nodup⟩), ?_⟩
          intro j hj
          rw [hshared]
          rcases List.mem_cons.1 (hperm.mem_iff.1 hj) with rfl | hj
          · exact htaken
          · exact hkept c P.shared j hg (h.taken j hj)

theorem claimedOnce_run (hother : ∀ e s k, Taken s k → Taken (env e s) k)
    (hkept : ∀ c s k, Call.ended program c = false → Taken s k → Taken ((c.left program).advance s).2 k)
    (hclaims : ∀ c s, Call.ended program c = false → ClaimsFree claims Taken c s ((c.left program).advance s).2)
    {P : Pool σ (Call ρ σ)} (h : P.ClaimedOnce claims Taken) (ms : List (Move η)) :
    (run (step (Call.advance program) env) P ms).ClaimedOnce claims Taken :=
  run_stable (I := fun P : Pool σ (Call ρ σ) => P.ClaimedOnce claims Taken)
    (fun _ hP m => claimedOnce_step hother hkept hclaims hP m) h ms

/-- Of two calls that have claimed one key, both are the same. -/
theorem eq_of_claims {α κ : Type} {claims : α → Option κ} {l : List α} (h : (l.filterMap claims).Nodup) {a b : α} {k : κ}
    (ha : a ∈ l) (hb : b ∈ l) (hak : claims a = some k) (hbk : claims b = some k) : a = b := by
  induction l with
  | nil => cases ha
  | cons c l ih =>
    have hothers : ∀ d ∈ l, claims c = some k → claims d ≠ some k := by
      intro d hd hc hdk
      rw [List.filterMap_cons_some hc] at h
      exact (List.nodup_cons.1 h).1 (List.mem_filterMap.2 ⟨d, hd, hdk⟩)
    have hrest : (l.filterMap claims).Nodup :=
      h.sublist ((List.sublist_cons_self c l).filterMap claims)
    rcases List.mem_cons.1 ha with hac | hal
    · rcases List.mem_cons.1 hb with hbc | hbl
      · exact hac.trans hbc.symm
      · exact absurd hbk (hothers b hbl (hac ▸ hak))
    · rcases List.mem_cons.1 hb with hbc | hbl
      · exact absurd hak (hothers a hal (hbc ▸ hbk))
      · exact ih hrest hal hbl

/-- At most one call is such that it must have claimed `k`. -/
theorem ClaimedOnce.countP_le [DecidableEq κ] {P : Pool σ (Call ρ σ)} (h : P.ClaimedOnce claims Taken)
    {p : Call ρ σ → Bool} {k : κ} (hp : ∀ c ∈ P.calls, p c = true → claims c = some k) : P.calls.countP p ≤ 1 := by
  have hcount : P.calls.countP p ≤ (P.calls.filterMap claims).count k := by
    rw [List.count, List.countP_filterMap]
    apply List.countP_mono_left
    intro c hc hpc
    rw [hp c hc hpc]
    simp
  exact Nat.le_trans hcount (List.nodup_iff_count.1 h.nodup k)

end ClusterGate.Lib.Pool
