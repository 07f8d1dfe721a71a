/-
  ClusterGate.Backup.Retention — which backups are kept (`services/backupService.ts`:
  `listBackups`, `deleteBackup`, `enforceRetentionPolicy`; `cron/jobs.ts`).

  The scheduled job creates a backup and then deletes what is beyond a number of the newest
  ones, one file after another and each in two steps. Administrators create and delete
  backups meanwhile, and every replica runs the job. A file that is gone when its turn comes
  is passed over.

  `ever` is bookkeeping: every backup that was ever created, with its time. The order in
  which the database lists backups of one time is any (`Listing`). What a backup holds does
  not matter here.
  - `dropped_asNew`: what a listing has beyond its first `max` has `max` others as new.
  - `sweep_step`: a step of the deletions deletes one of the files, which is then gone.
  - `retention_holds`: in every order of the steps, a backup that nobody asked to delete and that
    has fewer than `n` others as new is there; and when a deletion of what is beyond `max` is
    over, `max` at most of the backups it found are there.
-/

import Mathlib.Data.List.Perm.Subperm
import Mathlib.Data.List.Sort
import ClusterGate.Backup.RoundTrip
import ClusterGate.Lib.Async
import ClusterGate.Lib.Table

namespace ClusterGate.Retention

open Lib Async Lib.Table

/-! ## The service -/

/-- The backups by their file's name, with `createdAt`. -/
structure Shelf where
  now : Nat
  backups : Table String Nat
  ever : List (String × Nat)

/-- `orderBy: { createdAt: 'desc' }` -/
structure Listing where
  arrange : List (String × Nat) → List (String × Nat)
  perm : ∀ rows, (arrange rows).Perm rows
  sorted : ∀ rows, (arrange rows).Pairwise fun a b => b.2 ≤ a.2

/-- An instant as `toISOString` writes it. -/
structure IsoTime where
  text : String
  iso : isoDateTime text = true

/-- The last step of `createBackup`. -/
def insertBackup (filename : String) : Act Shelf Err Unit := fun s =>
  if (s.backups.get? filename).isSome = true then (.error (.internal "Backup failed: Unique constraint failed"), s)
  else (.ok (), { s with backups := s.backups.insert filename s.now, ever := s.ever ++ [(filename, s.now)] })

def listBackups (listing : Listing) : Act Shelf Err (List (String × Nat)) := fun s =>
  (.ok (listing.arrange s.backups.rows), s)

def findUnique (filename : String) : Act Shelf Err (Option Nat) := fun s => (.ok (s.backups.get? filename), s)

/-- `backup.delete` -/
def deleteRow (filename : String) : Act Shelf Err Unit := fun s =>
  if (s.backups.get? filename).isSome = true then (.ok (), { s with backups := s.backups.erase filename })
  else (.error (.prisma "P2025"), s)

/-- `deleteBackup`, from the row it found on. -/
def deleteFound (filename : String) : Option Nat → Async Shelf Err Unit
  | none => throw (.notFound "Backup")
  | some _ => await (deleteRow filename)

def deleteBackup (filename : String) : Async Shelf Err Unit := do
  require (validFilename filename = true) (.badRequest "Invalid backup filename")
  let backup ← await (findUnique filename)
  deleteFound filename backup

/-- The loop of `enforceRetentionPolicy`. -/
def deleteEach : List String → Nat → Async Shelf Err Nat
  | [], deleted => pure deleted
  | filename :: rest, deleted => do
    let res ← attempt (deleteBackup filename)
    deleteEach rest (if res.isOk = true then deleted + 1 else deleted)

def enforceRetentionPolicy (listing : Listing) (maxBackups : Nat) : Async Shelf Err Nat := do
  let backups ← await (listBackups listing)
  if backups.length ≤ maxBackups then pure 0
  else deleteEach ((backups.drop maxBackups).map Prod.fst) 0

/-! ## Calls -/

inductive BackupRequest
  | create (now : IsoTime)
  | delete (filename : String)
  | retain (listing : Listing) (maxBackups : Nat)

def BackupRequest.program : BackupRequest → Async Shelf Err Nat
  | .create now => do
    await (insertBackup (backupFilename now.text))
    pure 0
  | .delete filename => do
    deleteBackup filename
    pure 0
  | .retain listing maxBackups => enforceRetentionPolicy listing maxBackups

abbrev BackupCall := Call BackupRequest Shelf

/-- The clock is set. -/
def Shelf.at (now : Nat) (s : Shelf) : Shelf := { s with now }

def backupStep : Pool Shelf BackupCall → Move Nat → Pool Shelf BackupCall :=
  Pool.step (Call.advance BackupRequest.program) Shelf.at

/-- A backup is created under a name no backup has had. -/
def NewName (request : BackupRequest) (_ : List Shelf) (s : Shelf) : Prop :=
  match request with
  | .create now => backupFilename now.text ∉ s.ever.map Prod.fst
  | _ => True

/-! ## What is beyond the newest -/

/-- How many others are as new. -/
def asNew (rows : List (String × Nat)) (filename : String) (createdAt : Nat) : Nat :=
  rows.countP fun r => r.1 ≠ filename ∧ createdAt ≤ r.2

theorem dropped_asNew (listing : Listing) {rows : List (String × Nat)} (hnodup : (rows.map Prod.fst).Nodup) {max : Nat}
    {filename : String} {createdAt : Nat} (h : (filename, createdAt) ∈ (listing.arrange rows).drop max) :
    max ≤ asNew rows filename createdAt := by
  have hsplit : (listing.arrange rows).take max ++ (listing.arrange rows).drop max = listing.arrange rows :=
    List.take_append_drop max _
  have hlen : ((listing.arrange rows).take max).length = max := by
    rw [List.length_take, Nat.min_eq_left]
    have hpos := List.length_pos_of_mem h
    rw [List.length_drop] at hpos
    omega
  have hnames : ((listing.arrange rows).map Prod.fst).Nodup := ((listing.perm rows).map Prod.fst).nodup_iff.2 hnodup
  have hfirst : ∀ r ∈ (listing.arrange rows).take max, r.1 ≠ filename ∧ createdAt ≤ r.2 := by
    intro r hr
    have hsorted := listing.sorted rows
    rw [← hsplit, List.pairwise_append] at hsorted
    rw [← hsplit, List.map_append, List.nodup_append] at hnames
    exact ⟨hnames.2.2 r.1 (List.mem_map_of_mem hr) filename (List.mem_map_of_mem h), hsorted.2.2 r hr _ h⟩
  calc max = ((listing.arrange rows).take max).length := hlen.symm
    _ = ((listing.arrange rows).take max).countP fun r => r.1 ≠ filename ∧ createdAt ≤ r.2 :=
      (List.countP_eq_length.2 fun r hr => decide_eq_true (hfirst r hr)).symm
    _ ≤ (listing.arrange rows).countP fun r => r.1 ≠ filename ∧ createdAt ≤ r.2 := (List.take_sublist max _).countP_le
    _ = asNew rows filename createdAt := (listing.perm rows).countP_eq _

/-- More are as new among more. -/
theorem asNew_le {rows ever : List (String × Nat)} (hnodup : (rows.map Prod.fst).Nodup) (hsub : ∀ r ∈ rows, r ∈ ever)
    (filename : String) (createdAt : Nat) : asNew rows filename createdAt ≤ asNew ever filename createdAt :=
  (List.subperm_of_subset (List.Nodup.of_map Prod.fst hnodup) hsub).countP_le _

/-! ## One deletion after another -/

/-- The files a call deletes, by what it listed. -/
def beyond (listing : Listing) (maxBackups : Nat) (s₀ : Shelf) : List String :=
  ((listing.arrange s₀.backups.rows).drop maxBackups).map Prod.fst

/-- What is left of the deletions of `names` once `pre` are over. -/
inductive Sweep (names : List String) : (pre : List String) → Async Shelf Err Nat → Prop
  | next {pre post : List String} (deleted : Nat) (h : names = pre ++ post) : Sweep names pre (deleteEach post deleted)
  | found {pre post : List String} {filename : String} (deleted : Nat) (h : names = pre ++ filename :: post) :
    Sweep names pre (attempt (await (deleteRow filename)) >>= fun res =>
      deleteEach post (if res.isOk = true then deleted + 1 else deleted))

theorem deleteRow_gone (filename : String) (s : Shelf) : (deleteRow filename s).2.backups.get? filename = none := by
  unfold deleteRow
  split
  · show (s.backups.erase filename).get? filename = none
    rw [get?_erase, if_pos rfl]
  · rename_i h
    exact Option.not_isSome_iff_eq_none.1 h

theorem deleteEach_cons {filename : String} (hvalid : validFilename filename = true) (rest : List String) (deleted : Nat)
    (s : Shelf) :
    (deleteEach (filename :: rest) deleted).advance s =
      (attempt (deleteFound filename (s.backups.get? filename)) >>= fun res =>
        deleteEach rest (if res.isOk = true then deleted + 1 else deleted), s) := by
  rw [deleteEach, deleteBackup, require_holds hvalid]
  rfl

/-- A step of the deletions deletes nothing or one of the files. What is over is gone. -/
theorem sweep_step {names pre : List String} {x : Async Shelf Err Nat} (h : Sweep names pre x)
    (hvalid : ∀ filename ∈ names, validFilename filename = true) (hg : x.ended = false) (s : Shelf) :
    ((x.advance s).2 = s ∨ ∃ filename ∈ names, (x.advance s).2 = (deleteRow filename s).2) ∧
      ∃ pre', Sweep names pre' (x.advance s).1 ∧
        ∀ filename ∈ pre', filename ∈ pre ∨ (filename ∈ names ∧ (x.advance s).2.backups.get? filename = none) := by
  cases h with
  | @next post deleted h =>
    cases post with
    | nil => cases hg
    | cons filename post =>
      have hmem : filename ∈ names := by
        rw [h]
        simp
      rw [deleteEach_cons (hvalid filename hmem)]
      refine ⟨.inl rfl, ?_⟩
      cases hrow : s.backups.get? filename with
      | some createdAt => exact ⟨pre, .found deleted h, fun f hf => .inl hf⟩
      | none =>
        refine ⟨pre ++ [filename], .next deleted (by rw [h, List.append_assoc]; rfl), ?_⟩
        intro f hf
        rcases List.mem_append.1 hf with hf | hf
        · exact .inl hf
        · obtain rfl := List.mem_singleton.1 hf
          exact .inr ⟨hmem, hrow⟩
  | @found post filename deleted h =>
    have hmem : filename ∈ names := by
      rw [h]
      simp
    refine ⟨.inr ⟨filename, hmem, rfl⟩, pre ++ [filename], ?_, ?_⟩
    · exact .next _ (by rw [h, List.append_assoc]; rfl)
    · intro f hf
      rcases List.mem_append.1 hf with hf | hf
      · exact .inl hf
      · obtain rfl := List.mem_singleton.1 hf
        exact .inr ⟨hmem, deleteRow_gone f s⟩

theorem sweep_sub {names pre : List String} {x : Async Shelf Err Nat} (h : Sweep names pre x) : pre ⊆ names := by
  cases h with
  | next deleted h =>
    rw [h]
    exact List.subset_append_left _ _
  | found deleted h =>
    rw [h]
    exact List.subset_append_left _ _

theorem sweep_ended {names pre : List String} {x : Async Shelf Err Nat} (h : Sweep names pre x)
    (hvalid : ∀ filename ∈ names, validFilename filename = true) (hg : x.ended = true) : pre = names := by
  cases h with
  | @next post deleted h =>
    cases post with
    | nil => rw [h, List.append_nil]
    | cons filename post =>
      have hmem : filename ∈ names := by
        rw [h]
        simp
      rw [deleteEach, deleteBackup, require_holds (hvalid filename hmem)] at hg
      cases hg
  | found deleted h => cases hg

/-- What is left of the call once it has listed the backups. -/
theorem enforce_listed (listing : Listing) (maxBackups : Nat) (s₀ : Shelf) :
    (enforceRetentionPolicy listing maxBackups).advance s₀ = (deleteEach (beyond listing maxBackups s₀) 0, s₀) := by
  have hlisted : (enforceRetentionPolicy listing maxBackups).advance s₀ =
      (if (listing.arrange s₀.backups.rows).length ≤ maxBackups then pure 0
        else deleteEach (beyond listing maxBackups s₀) 0, s₀) := rfl
  rw [hlisted]
  split
  · rename_i hle
    have hnil : beyond listing maxBackups s₀ = [] := by
      unfold beyond
      rw [List.drop_eq_nil_of_le hle]
      rfl
    rw [hnil]
    rfl
  · rfl

/-! ## What holds between the steps -/

section Invariant

variable (asked : String → Prop) (n : Nat)

/-- A backup nobody asks to delete, with fewer than `n` others as new, is there. -/
def Kept (s : Shelf) : Prop :=
  ∀ filename createdAt, (filename, createdAt) ∈ s.ever → ¬asked filename → asNew s.ever filename createdAt < n →
    s.backups.get? filename = some createdAt

structure Sound (s : Shelf) : Prop where
  recorded : ∀ r ∈ s.backups.rows, r ∈ s.ever
  names : (s.ever.map Prod.fst).Nodup
  valid : ∀ r ∈ s.ever, validFilename r.1 = true
  kept : Kept asked n s

/-- Backups are created only, under new names. -/
structure Later (s s' : Shelf) : Prop where
  ever : ∀ r ∈ s.ever, r ∈ s'.ever
  gone : ∀ filename ∈ s.ever.map Prod.fst, s.backups.get? filename = none → s'.backups.get? filename = none

/-- What a call is asked for, and where it is in its deletions. -/
def Progress (s : Shelf) (c : BackupCall) : Prop :=
  match c.request with
  | .create _ => True
  | .delete filename => asked filename
  | .retain listing maxBackups => n ≤ maxBackups ∧ ∀ s₀ ∈ c.seen.head?,
      (∀ r ∈ s₀.backups.rows, r ∈ s.ever) ∧ ∃ pre, Sweep (beyond listing maxBackups s₀) pre (c.left BackupRequest.program) ∧
        ∀ filename ∈ pre, s.backups.get? filename = none

end Invariant

section Steps

variable {asked : String → Prop} {n : Nat} {s : Shelf}

theorem later_refl (s : Shelf) : Later s s := ⟨fun _ hr => hr, fun _ _ hnone => hnone⟩

theorem deleteRow_get (filename : String) (s : Shelf) (other : String) :
    (deleteRow filename s).2.backups.get? other = if other = filename then none else s.backups.get? other := by
  by_cases ho : other = filename
  · rw [if_pos ho, ho]
    exact deleteRow_gone filename s
  · rw [if_neg ho]
    unfold deleteRow
    split
    · show (s.backups.erase filename).get? other = _
      rw [get?_erase, if_neg ho]
    · rfl

theorem deleteRow_ever (filename : String) (s : Shelf) : (deleteRow filename s).2.ever = s.ever := by
  unfold deleteRow
  split <;> rfl

/-- A backup is deleted that somebody asked to delete, or that has enough others as new. -/
theorem deleteRow_sound (h : Sound asked n s) {filename : String}
    (hfile : ∀ createdAt, (filename, createdAt) ∈ s.ever → ¬asked filename → n ≤ asNew s.ever filename createdAt) :
    Sound asked n (deleteRow filename s).2 ∧ Later s (deleteRow filename s).2 := by
  have hget := deleteRow_get filename s
  have hever := deleteRow_ever filename s
  refine ⟨⟨?_, ?_, ?_, ?_⟩, ?_, ?_⟩
  · rintro ⟨other, createdAt⟩ hr
    rw [mem_rows_iff, hget] at hr
    rw [hever]
    split at hr
    · cases hr
    · exact h.recorded _ (mem_rows_iff.2 hr)
  · rw [hever]
    exact h.names
  · rw [hever]
    exact h.valid
  · intro other createdAt hr hasked hnew
    rw [hever] at hr hnew
    have hne : other ≠ filename := by
      rintro rfl
      have := hfile createdAt hr hasked
      omega
    rw [hget, if_neg hne]
    exact h.kept other createdAt hr hasked hnew
  · rw [hever]
    exact fun _ hr => hr
  · intro other _ hnone
    rw [hget]
    split
    · rfl
    · exact hnone

theorem insertBackup_sound (h : Sound asked n s) {filename : String} (hvalid : validFilename filename = true)
    (hnew : filename ∉ s.ever.map Prod.fst) :
    Sound asked n (insertBackup filename s).2 ∧ Later s (insertBackup filename s).2 := by
  unfold insertBackup
  split
  · exact ⟨h, later_refl s⟩
  · rename_i hrow
    have hnone := Option.not_isSome_iff_eq_none.1 hrow
    have hget := fun other => get?_insert hnone s.now other
    have hne : ∀ other createdAt, (other, createdAt) ∈ s.ever → other ≠ filename := by
      rintro other createdAt hr rfl
      exact hnew (List.mem_map_of_mem hr)
    refine ⟨⟨?_, ?_, ?_, ?_⟩, fun _ hr => List.mem_append_left _ hr, ?_⟩
    · rintro ⟨other, createdAt⟩ hr
      have hr := mem_rows_iff.1 hr
      rw [hget] at hr
      by_cases ho : other = filename
      · rw [if_pos ho] at hr
        obtain rfl := Option.some.inj hr
        exact List.mem_append_right _ (List.mem_singleton.2 (by rw [ho]))
      · rw [if_neg ho] at hr
        exact List.mem_append_left _ (h.recorded _ (mem_rows_iff.2 hr))
    · show ((s.ever ++ [(filename, s.now)]).map Prod.fst).Nodup
      rw [List.map_append, List.nodup_append]
      refine ⟨h.names, List.nodup_singleton _, ?_⟩
      intro a ha b hb heq
      obtain rfl := List.mem_singleton.1 hb
      exact hnew (heq ▸ ha)
    · intro r hr
      rcases List.mem_append.1 hr with hr | hr
      · exact h.valid r hr
      · obtain rfl := List.mem_singleton.1 hr
        exact hvalid
    · intro other createdAt hr hasked hcount
      show (s.backups.insert filename s.now).get? other = some createdAt
      rw [hget]
      rcases List.mem_append.1 hr with hr | hr
      · have hle : asNew s.ever other createdAt ≤ asNew (s.ever ++ [(filename, s.now)]) other createdAt :=
          (List.sublist_append_left _ _).countP_le
        rw [if_neg (hne other createdAt hr)]
        exact h.kept other createdAt hr hasked (Nat.lt_of_le_of_lt hle hcount)
      · obtain ⟨rfl, rfl⟩ := Prod.mk.inj (List.mem_singleton.1 hr)
        rw [if_pos rfl]
    · intro other hother hother'
      obtain ⟨⟨other, createdAt⟩, hr, rfl⟩ := List.mem_map.1 hother
      show (s.backups.insert filename s.now).get? other = none
      rw [hget, if_neg (hne other createdAt hr)]
      exact hother'

/-- What a call that has listed the backups deletes is recorded, valid and has enough others as new. -/
theorem beyond_asNew (h : Sound asked n s) {listing : Listing} {maxBackups : Nat} (hmax : n ≤ maxBackups) {s₀ : Shelf}
    (hsub : ∀ r ∈ s₀.backups.rows, r ∈ s.ever) {filename : String} (hfile : filename ∈ beyond listing maxBackups s₀) :
    filename ∈ s.ever.map Prod.fst ∧ validFilename filename = true ∧
      ∀ createdAt, (filename, createdAt) ∈ s.ever → n ≤ asNew s.ever filename createdAt := by
  obtain ⟨⟨filename, listedAt⟩, hdropped, rfl⟩ := List.mem_map.1 hfile
  have hrow : (filename, listedAt) ∈ s₀.backups.rows := (listing.perm _).mem_iff.1 (List.mem_of_mem_drop hdropped)
  have hever := hsub _ hrow
  refine ⟨List.mem_map_of_mem hever, h.valid _ hever, ?_⟩
  intro createdAt hr
  obtain rfl : listedAt = createdAt :=
    congrArg Prod.snd (List.inj_on_of_nodup_map h.names hever hr rfl)
  calc n ≤ maxBackups := hmax
    _ ≤ asNew s₀.backups.rows filename listedAt := dropped_asNew listing s₀.backups.nodup hdropped
    _ ≤ asNew s.ever filename listedAt := asNew_le s₀.backups.nodup hsub filename listedAt

/-- What was listed has been recorded. -/
theorem beyond_recorded {listing : Listing} {maxBackups : Nat} {s₀ : Shelf} (hsub : ∀ r ∈ s₀.backups.rows, r ∈ s.ever) :
    beyond listing maxBackups s₀ ⊆ s.ever.map Prod.fst := by
  intro filename hfile
  obtain ⟨r, hdropped, rfl⟩ := List.mem_map.1 hfile
  exact List.mem_map_of_mem (hsub r ((listing.perm _).mem_iff.1 (List.mem_of_mem_drop hdropped)))

theorem progress_later (s s' : Shelf) (c : BackupCall) (hs : Later s s') (h : Progress asked n s c) :
    Progress asked n s' c := by
  obtain ⟨request, seen⟩ := c
  cases request with
  | create now => trivial
  | delete filename => exact h
  | retain listing maxBackups =>
    obtain ⟨hmax, h⟩ := h
    refine ⟨hmax, ?_⟩
    intro s₀ hs₀
    obtain ⟨hsub, pre, hsweep, hgone⟩ := h s₀ hs₀
    refine ⟨fun r hr => hs.ever r (hsub r hr), pre, hsweep, ?_⟩
    intro filename hfile
    exact hs.gone filename (beyond_recorded hsub (sweep_sub hsweep hfile)) (hgone filename hfile)

theorem create_step {now : IsoTime} {seen : List Shelf} (hg : ((BackupRequest.create now).program.after seen).ended = false)
    (s : Shelf) : (((BackupRequest.create now).program.after seen).advance s).2 = (insertBackup (backupFilename now.text) s).2 := by
  have hevery : EveryStep (fun s s' => s' = (insertBackup (backupFilename now.text) s).2) (BackupRequest.create now).program :=
    everyStep_bind (everyStep_await fun _ => rfl) fun _ => everyStep_pure 0
  exact everyStep_advance (everyStep_after seen hevery) hg s

theorem delete_step {filename : String} {seen : List Shelf}
    (hg : ((BackupRequest.delete filename).program.after seen).ended = false) (s : Shelf) :
    (((BackupRequest.delete filename).program.after seen).advance s).2 = s ∨
      (((BackupRequest.delete filename).program.after seen).advance s).2 = (deleteRow filename s).2 := by
  have hfound : ∀ row, EveryStep (fun s s' => s' = s ∨ s' = (deleteRow filename s).2) (deleteFound filename row) := by
    intro row
    cases row with
    | none => trivial
    | some createdAt => exact everyStep_await fun _ => .inr rfl
  have hevery : EveryStep (fun s s' => s' = s ∨ s' = (deleteRow filename s).2) (BackupRequest.delete filename).program := by
    refine everyStep_bind (everyStep_bind (everyStep_require _ _) fun _ => ?_) fun _ => everyStep_pure 0
    exact everyStep_bind (everyStep_await fun _ => .inl rfl) hfound
  exact everyStep_advance (everyStep_after seen hevery) hg s

theorem call_step (c : BackupCall) (s : Shelf) (hg : c.ended BackupRequest.program = false) (h : Sound asked n s)
    (hc : Progress asked n s c) (hnew : NewName c.request c.seen s) :
    Sound asked n ((c.left BackupRequest.program).advance s).2 ∧ Later s ((c.left BackupRequest.program).advance s).2 ∧
      Progress asked n ((c.left BackupRequest.program).advance s).2 ⟨c.request, c.seen ++ [s]⟩ := by
  obtain ⟨request, seen⟩ := c
  cases request with
  | create now =>
    have hstep : ((Call.left BackupRequest.program ⟨.create now, seen⟩).advance s).2 = _ := create_step hg s
    rw [hstep]
    obtain ⟨hsound, hlater⟩ := insertBackup_sound h (backupFilename_valid now.iso) hnew
    exact ⟨hsound, hlater, trivial⟩
  | delete filename =>
    have hasked : asked filename := hc
    rcases delete_step hg s with hstep | hstep
    · have hstep : ((Call.left BackupRequest.program ⟨.delete filename, seen⟩).advance s).2 = s := hstep
      rw [hstep]
      exact ⟨h, later_refl s, hasked⟩
    · have hstep : ((Call.left BackupRequest.program ⟨.delete filename, seen⟩).advance s).2 = (deleteRow filename s).2 := hstep
      rw [hstep]
      have hfile : ∀ createdAt, (filename, createdAt) ∈ s.ever → ¬asked filename → n ≤ asNew s.ever filename createdAt :=
        fun _ _ hn => absurd hasked hn
      obtain ⟨hsound, hlater⟩ := deleteRow_sound h hfile
      exact ⟨hsound, hlater, hasked⟩
  | retain listing maxBackups =>
    obtain ⟨hmax, hc⟩ := hc
    cases seen with
    | nil =>
      have hstep : (Call.left BackupRequest.program ⟨.retain listing maxBackups, []⟩).advance s = _ :=
        enforce_listed listing maxBackups s
      rw [hstep]
      refine ⟨h, later_refl s, hmax, ?_⟩
      intro s₀ hs₀
      obtain rfl := Option.some.inj hs₀
      refine ⟨h.recorded, [], ?_, fun _ hf => nomatch hf⟩
      show Sweep _ [] ((enforceRetentionPolicy listing maxBackups).advance s).1
      rw [enforce_listed]
      exact .next 0 rfl
    | cons s₀ rest =>
      obtain ⟨hsub, pre, hsweep, hgone⟩ := hc s₀ rfl
      have hbeyond := fun filename (hf : filename ∈ beyond listing maxBackups s₀) => beyond_asNew h hmax hsub hf
      obtain ⟨hstep, pre', hsweep', hgone'⟩ := sweep_step hsweep (fun f hf => (hbeyond f hf).2.1) hg s
      have hsound : Sound asked n ((Call.left BackupRequest.program ⟨.retain listing maxBackups, s₀ :: rest⟩).advance s).2 ∧
          Later s ((Call.left BackupRequest.program ⟨.retain listing maxBackups, s₀ :: rest⟩).advance s).2 := by
        rcases hstep with hstep | ⟨filename, hfile, hstep⟩
        · rw [hstep]
          exact ⟨h, later_refl s⟩
        · rw [hstep]
          exact deleteRow_sound h fun createdAt hr _ => (hbeyond filename hfile).2.2 createdAt hr
      refine ⟨hsound.1, hsound.2, hmax, ?_⟩
      intro s₁ hs₁
      obtain rfl : s₀ = s₁ := Option.some.inj hs₁
      refine ⟨fun r hr => hsound.2.ever r (hsub r hr), pre', ?_, ?_⟩
      · rw [Call.left_concat]
        exact hsweep'
      · intro filename hf
        rcases hgone' filename hf with hold | ⟨-, hnone⟩
        · exact hsound.2.gone filename (beyond_recorded hsub (sweep_sub hsweep hold)) (hgone filename hold)
        · exact hnone

end Steps

/-! ## Every run -/

/-- Nothing has begun, and the backups that are there are on record. `asked` is what the calls
    ask to delete, and they keep `n` at least. -/
structure Begins (asked : String → Prop) (n : Nat) (P : Pool Shelf BackupCall) : Prop where
  fresh : ∀ c ∈ P.calls, c.seen = []
  recorded : P.shared.ever = P.shared.backups.rows
  valid : ∀ r ∈ P.shared.ever, validFilename r.1 = true
  deletes : ∀ c ∈ P.calls, ∀ filename, c.request = .delete filename → asked filename
  retains : ∀ c ∈ P.calls, ∀ listing maxBackups, c.request = .retain listing maxBackups → n ≤ maxBackups

structure Retained (asked : String → Prop) (n : Nat) (P : Pool Shelf BackupCall) : Prop where
  kept : Kept asked n P.shared
  left : ∀ c ∈ P.calls, c.ended BackupRequest.program = true → ∀ listing maxBackups, c.request = .retain listing maxBackups →
    ∀ s₀ ∈ c.seen.head?, (P.shared.backups.rows.filter fun r => (s₀.backups.get? r.1).isSome).length ≤ maxBackups

section Runs

variable {asked : String → Prop} {n : Nat} {P : Pool Shelf BackupCall}

theorem begins_holds (h : Begins asked n P) : P.Holds (Sound asked n) (Progress asked n) := by
  constructor
  · refine ⟨?_, ?_, h.valid, ?_⟩
    · rw [h.recorded]
      exact fun _ hr => hr
    · rw [h.recorded]
      exact P.shared.backups.nodup
    · intro filename createdAt hr _ _
      rw [h.recorded] at hr
      exact mem_rows_iff.1 hr
  · intro c hc
    have hseen := h.fresh c hc
    have hdeletes := h.deletes c hc
    have hretains := h.retains c hc
    obtain ⟨request, seen⟩ := c
    obtain rfl : seen = [] := hseen
    cases request with
    | create now => trivial
    | delete filename => exact hdeletes filename rfl
    | retain listing maxBackups => exact ⟨hretains listing maxBackups rfl, fun _ hs₀ => nomatch hs₀⟩

/-- Of the backups a call has found, what is left once it is over was among the first it listed. -/
theorem swept (h : P.Holds (Sound asked n) (Progress asked n)) {c : BackupCall} (hc : c ∈ P.calls)
    (hg : c.ended BackupRequest.program = true) {listing : Listing} {maxBackups : Nat}
    (hrequest : c.request = .retain listing maxBackups) {s₀ : Shelf} (hs₀ : s₀ ∈ c.seen.head?) :
    (P.shared.backups.rows.filter fun r => (s₀.backups.get? r.1).isSome).length ≤ maxBackups := by
  have hprogress := h.calls c hc
  unfold Progress at hprogress
  rw [hrequest] at hprogress
  obtain ⟨hmax, hprogress⟩ := hprogress
  obtain ⟨hsub, pre, hsweep, hgone⟩ := hprogress s₀ hs₀
  have hall : pre = beyond listing maxBackups s₀ :=
    sweep_ended hsweep (fun f hf => (beyond_asNew h.shared hmax hsub hf).2.1) hg
  have hsplit : (listing.arrange s₀.backups.rows).take maxBackups ++ (listing.arrange s₀.backups.rows).drop maxBackups =
      listing.arrange s₀.backups.rows := List.take_append_drop maxBackups _
  have hfirst : (P.shared.backups.rows.filter fun r => (s₀.backups.get? r.1).isSome).map Prod.fst ⊆
      ((listing.arrange s₀.backups.rows).take maxBackups).map Prod.fst := by
    intro filename hf
    obtain ⟨⟨filename, createdAt⟩, hr, rfl⟩ := List.mem_map.1 hf
    obtain ⟨hr, hfound⟩ := List.mem_filter.1 hr
    obtain ⟨listedAt, hlisted⟩ := Option.isSome_iff_exists.1 hfound
    have hmem : (filename, listedAt) ∈ listing.arrange s₀.backups.rows := (listing.perm _).mem_iff.2 (mem_rows_iff.2 hlisted)
    rw [← hsplit] at hmem
    rcases List.mem_append.1 hmem with htake | hdrop
    · exact List.mem_map.2 ⟨_, htake, rfl⟩
    · have hnone := hgone filename (hall ▸ List.mem_map_of_mem hdrop)
      rw [mem_rows_iff.1 hr] at hnone
      cases hnone
  have hnodup : ((P.shared.backups.rows.filter fun r => (s₀.backups.get? r.1).isSome).map Prod.fst).Nodup :=
    P.shared.backups.nodup.sublist (List.filter_sublist.map _)
  have hlen := (List.subperm_of_subset hnodup hfirst).length_le
  rw [List.length_map, List.length_map, List.length_take] at hlen
  omega

end Runs

theorem retention_holds (asked : String → Prop) (n : Nat) (P : Pool Shelf BackupCall) (h : Begins asked n P)
    (ms : List (Move Nat)) (hnew : Along backupStep (Pool.AtStep BackupRequest.program NewName) P ms) :
    Retained asked n (run backupStep P ms) := by
  have hholds : (run backupStep P ms).Holds (Sound asked n) (Progress asked n) := by
    refine run_keeps (I := fun P : Pool Shelf BackupCall => P.Holds (Sound asked n) (Progress asked n)) ?_ (begins_holds h) hnew
    intro P m hP hm
    refine Pool.holds_step progress_later ?_ call_step hP m hm
    intro now s hs
    exact ⟨⟨hs.recorded, hs.names, hs.valid, hs.kept⟩, fun _ hr => hr, fun _ _ hnone => hnone⟩
  exact ⟨hholds.shared.kept, fun c hc hg _ _ hrequest s₀ hs₀ => swept hholds hc hg hrequest hs₀⟩

/-! ## Two replicas at night -/

def newestFirst : Listing where
  arrange rows := rows.insertionSort fun a b => b.2 ≤ a.2
  perm rows := List.perm_insertionSort _ rows
  sorted rows := by
    have htotal : Std.Total fun a b : String × Nat => b.2 ≤ a.2 := ⟨fun a b => Nat.le_total b.2 a.2⟩
    have htrans : IsTrans (String × Nat) fun a b => b.2 ≤ a.2 := ⟨fun a b c hab hbc => Nat.le_trans hbc hab⟩
    exact List.pairwise_insertionSort _ rows

/-- One old backup; both replicas create one and keep two. -/
def night : Pool Shelf BackupCall :=
  ⟨⟨0, Table.empty.insert "old.json" 0, [("old.json", 0)]⟩,
   [Call.start (.create ⟨"2026-01-02T03:00:00.000Z", by decide +kernel⟩),
    Call.start (.create ⟨"2026-01-02T03:00:01.000Z", by decide +kernel⟩),
    Call.start (.retain newestFirst 2), Call.start (.retain newestFirst 2)]⟩

def nightMoves : List (Move Nat) :=
  [.other 7, .call 0, .other 8, .call 1, .call 2, .call 3, .call 2, .call 3, .call 2, .call 3]

instance decidableNewName (request : BackupRequest) (seen : List Shelf) (s : Shelf) : Decidable (NewName request seen s) := by
  unfold NewName
  split <;> infer_instance

theorem night_retention :
    Retained (fun _ => False) 2 (run backupStep night nightMoves) ∧
      ((run backupStep night nightMoves).shared.backups.get? "old.json").isNone = true := by
  have hcalls : ∀ c ∈ night.calls, (∃ now, c = Call.start (.create now)) ∨ c = Call.start (.retain newestFirst 2) := by
    intro c hc
    simp only [night, List.mem_cons, List.not_mem_nil, or_false] at hc
    rcases hc with rfl | rfl | rfl | rfl
    · exact .inl ⟨_, rfl⟩
    · exact .inl ⟨_, rfl⟩
    · exact .inr rfl
    · exact .inr rfl
  refine ⟨retention_holds (fun _ => False) 2 night ⟨?_, rfl, ?_, ?_, ?_⟩ nightMoves ?_, by decide +kernel⟩
  · intro c hc
    rcases hcalls c hc with ⟨now, rfl⟩ | rfl
    · rfl
    · rfl
  · decide +kernel
  · intro c hc filename hrequest
    rcases hcalls c hc with ⟨now, rfl⟩ | rfl
    · cases hrequest
    · cases hrequest
  · intro c hc listing maxBackups hrequest
    rcases hcalls c hc with ⟨now, rfl⟩ | rfl
    · cases hrequest
    · cases hrequest
      exact Nat.le_refl 2
  · unfold backupStep
    decide +kernel

end ClusterGate.Retention
