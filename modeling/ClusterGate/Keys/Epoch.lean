/-
  ClusterGate.Keys.Epoch — how a revocation reaches the other replicas
  (`services/apiKeyService.ts`: `bumpRevokeEpoch`, `pollRevokeEpoch`).

  A revocation writes its clock into a shared setting; every replica reads the setting now
  and then and clears its key cache if the text it finds is not the one it found last. A
  replica that found no setting, or an empty one, remembers the empty text, and an empty
  memory is taken for never having looked.
  - `poll_clears_iff`: after a bump, a replica's next poll clears its cache exactly if its
    latest poll found a text, and that text is not the one of the last bump's clock.
  - `the_first_revocation_is_missed`: nothing was revoked before the latest poll.
-/

import ClusterGate.Lib.Json
import ClusterGate.Lib.Run

namespace ClusterGate

open Lib

/-- The value of the setting `apiKeyRevokeEpoch`, if its row is there, and what each
    replica found at its latest poll. -/
structure Epochs (ρ : Type) where
  setting : Option Json
  lastSeenEpoch : ρ → String

inductive EpochEvent (ρ : Type)
  | bump (replica : ρ) (now : Nat)
  | poll (replica : ρ)
  deriving DecidableEq

/-- `row?.value ? String(row.value.v) : ''`, where `text` is `String` of what JSON holds. -/
def epochText (text : Json → String) (setting : Option Json) : String :=
  match setting with
  | none => ""
  | some value => if value.truthy = true then ((value.get? "v").map text).getD "undefined" else ""

section Replicas

variable {ρ : Type} [DecidableEq ρ] (text : Json → String)

/-- `bumpRevokeEpoch` -/
def bumpRevokeEpoch (now : Nat) (s : Epochs ρ) : Epochs ρ := { s with setting := some (.obj [("v", .num now)]) }

/-- `pollRevokeEpoch`: whether the cache is cleared. -/
def pollRevokeEpoch (replica : ρ) (s : Epochs ρ) : Bool × Epochs ρ :=
  let v := epochText text s.setting
  (s.lastSeenEpoch replica ≠ "" && v ≠ s.lastSeenEpoch replica,
    { s with lastSeenEpoch := fun r => if r = replica then v else s.lastSeenEpoch r })

def epochStep (s : Epochs ρ) : EpochEvent ρ → Bool × Epochs ρ
  | .bump _ now => (false, bumpRevokeEpoch now s)
  | .poll replica => pollRevokeEpoch text replica s

/-- The clock readings the bumps of a run write. -/
def bumps : List (EpochEvent ρ) → List Nat
  | [] => []
  | .bump _ now :: es => now :: bumps es
  | .poll _ :: es => bumps es

variable {text}

/-- A replica remembers what it found until it looks again. -/
theorem lastSeen_kept (r : ρ) {es : List (EpochEvent ρ)} (h : ∀ e ∈ es, e ≠ .poll r) (s : Epochs ρ) :
    (final (epochStep text) s es).lastSeenEpoch r = s.lastSeenEpoch r := by
  induction es generalizing s with
  | nil => rfl
  | cons e es ih =>
    have hrest := ih (fun d hd => h d (List.mem_cons_of_mem e hd)) (epochStep text s e).2
    have hstep : (epochStep text s e).2.lastSeenEpoch r = s.lastSeenEpoch r := by
      cases e with
      | bump q now => rfl
      | poll q =>
        have hne : r ≠ q := by
          intro he
          exact h (.poll q) List.mem_cons_self (by rw [he])
        show (if r = q then _ else s.lastSeenEpoch r) = _
        rw [if_neg hne]
    exact hrest.trans hstep

/-- The setting is the last bump's, or what it was. -/
theorem setting_after (es : List (EpochEvent ρ)) (s : Epochs ρ) :
    (final (epochStep text) s es).setting =
      ((bumps es).getLast?.map fun now => Json.obj [("v", .num now)]).or s.setting := by
  induction es generalizing s with
  | nil => rfl
  | cons e es ih =>
    show (final (epochStep text) (epochStep text s e).2 es).setting = _
    rw [ih]
    cases e with
    | poll q => rfl
    | bump q now =>
      rw [bumps, List.getLast?_cons]
      cases (bumps es).getLast? <;> rfl

theorem poll_clears_iff (s : Epochs ρ) (r : ρ) (pre mid : List (EpochEvent ρ)) (now : Nat)
    (hmid : ∀ e ∈ mid, e ≠ .poll r) (hnow : (bumps mid).getLast? = some now) :
    (epochStep text (final (epochStep text) s (pre ++ .poll r :: mid)) (.poll r)).1 = true ↔
      epochText text (final (epochStep text) s pre).setting ≠ "" ∧
        text (.num now) ≠ epochText text (final (epochStep text) s pre).setting := by
  obtain ⟨polled, hpolled⟩ : ∃ polled, polled = (epochStep text (final (epochStep text) s pre) (.poll r)).2 := ⟨_, rfl⟩
  have hrun : final (epochStep text) s (pre ++ .poll r :: mid) = final (epochStep text) polled mid := by
    rw [final_append, hpolled]
    rfl
  have hseen : (final (epochStep text) polled mid).lastSeenEpoch r =
      epochText text (final (epochStep text) s pre).setting := by
    rw [lastSeen_kept r hmid, hpolled]
    exact if_pos rfl
  have hfound : epochText text (final (epochStep text) polled mid).setting = text (.num now) := by
    rw [setting_after, hnow]
    simp [epochText, Json.truthy, Json.get?]
  rw [hrun]
  show (decide _ && decide _) = true ↔ _
  rw [Bool.and_eq_true, decide_eq_true_eq, decide_eq_true_eq, hseen, hfound]

end Replicas

/-! ## The first revocation -/

/-- `String` of a number of milliseconds. -/
def millisText : Json → String
  | .num q => Nat.repr q.num.toNat
  | _ => ""

theorem poll_clears_iff_second :
    (epochStep millisText (final (epochStep millisText) (⟨none, fun _ => ""⟩ : Epochs Bool)
      ([.bump false 1] ++ .poll true :: [.bump false 2])) (.poll true)).1 = true := by
  refine (@poll_clears_iff Bool _ millisText ⟨none, fun _ => ""⟩ true [.bump false 1] [.bump false 2] 2 ?_ rfl).2 ?_
  · decide
  · decide +kernel

theorem the_first_revocation_is_missed :
    ¬∀ (text : Json → String) (s : Epochs Bool) (r : Bool) (pre mid : List (EpochEvent Bool)) (now : Nat),
      (∀ e ∈ mid, e ≠ .poll r) → (bumps mid).getLast? = some now →
        (epochStep text (final (epochStep text) s (pre ++ .poll r :: mid)) (.poll r)).1 = true := by
  intro h
  have hclears := h millisText ⟨none, fun _ => ""⟩ true [] [.bump false 1] 1 (by decide) rfl
  exact absurd hclears (by decide +kernel)

end ClusterGate
