/-
  ClusterGate.Lib.Relational — a database with references between its tables.

  A row is a list of columns with their values, and every row has a column `id` that other
  rows refer to. A schema says which columns tell the rows of a table apart, and which
  columns refer to which table. Its `order` lists all tables, those referred to before
  those that refer to them.
  - `deleteAll`: all rows of one table are deleted, and what refers to them is deleted too,
    or forgets the reference, or forbids the deletion. `doomed_fixed`: whose rows go, as the
    equation they satisfy; `deleted_valid`: no reference is left dangling.
  - `createMany`: rows are added, those that are there already are skipped, and every
    reference of a new row must be met.
  - `clear_spec`: tables deleted one after another, none before those that forbid it.
  - `fill_iff`: empty tables filled one after another, none before those it refers to.
-/

import Mathlib.Logic.Function.Basic
import Mathlib.Data.List.Pairwise
import ClusterGate.Lib.Json

namespace ClusterGate.Lib

/-! ## Rows and schemas -/

abbrev Record := List (String × Json)

/-- The value of a column, null where there is none. -/
def Record.get (r : Record) (column : String) : Json := ((Json.obj r).get? column).getD .null

theorem Record.get_cons (k : String) (v : Json) (r : Record) (column : String) :
    Record.get ((k, v) :: r) column = if k = column then v else r.get column := by
  by_cases h : k = column
  · simp [Record.get, Json.get?, h]
  · simp [Record.get, Json.get?, h]

/-- The columns that `p` picks are set to null. -/
theorem Record.get_nulled (p : String → Bool) (r : Record) (column : String) :
    Record.get (r.map fun kv => if p kv.1 = true then (kv.1, .null) else kv) column =
      if p column = true then .null else r.get column := by
  induction r with
  | nil => simp [Record.get, Json.get?]
  | cons kv r ih =>
    obtain ⟨k, v⟩ := kv
    rw [List.map_cons]
    by_cases hp : p k = true
    · rw [if_pos hp, Record.get_cons, Record.get_cons, ih]
      by_cases hk : k = column
      · subst hk
        rw [if_pos rfl, if_pos hp]
      · rw [if_neg hk, if_neg hk]
    · rw [if_neg hp, Record.get_cons, Record.get_cons, ih]
      by_cases hk : k = column
      · subst hk
        rw [if_pos rfl, if_pos rfl, if_neg hp]
      · rw [if_neg hk, if_neg hk]

inductive OnDelete
  | cascade | setNull | restrict
  deriving DecidableEq

/-- A column that holds the `id` of a row of `target`, or null. -/
structure Relation (μ : Type) where
  column : String
  target : μ
  onDelete : OnDelete

structure Schema (μ : Type) where
  keys : μ → List (List String)
  relations : μ → List (Relation μ)
  order : List μ
  complete : ∀ m, m ∈ order
  nodup : order.Nodup
  parentsFirst : order.Pairwise fun a b => ∀ rel ∈ relations a, rel.target ≠ b
  irreflexive : ∀ m, ∀ rel ∈ relations m, rel.target ≠ m
  idKept : ∀ m, ∀ rel ∈ relations m, rel.column ≠ "id"

/-- The rows of every table. -/
abbrev Rows (μ : Type) := μ → List Record

namespace Schema

variable {μ : Type} (S : Schema μ)

/-! ## What a state has to satisfy -/

/-- The row refers to one of the rows `ids` are of. -/
def refersTo (ids : List Json) (rel : Relation μ) (r : Record) : Bool :=
  r.get rel.column ≠ .null && ids.contains (r.get rel.column)

/-- Every reference of the row is to a row that is there. -/
def met (db : Rows μ) (m : μ) (r : Record) : Bool :=
  (S.relations m).all fun rel =>
    r.get rel.column = .null || (db rel.target).any fun p => p.get "id" = r.get rel.column

/-- Two rows that a key does not tell apart. -/
def collides (m : μ) (r r' : Record) : Bool :=
  (S.keys m).any fun columns => columns.all fun c => r.get c ≠ .null && r.get c = r'.get c

structure Valid (db : Rows μ) : Prop where
  met : ∀ m, ∀ r ∈ db m, S.met db m r = true
  apart : ∀ m, (db m).Pairwise fun r r' => S.collides m r r' = false

/-! ## Deleting -/

variable [DecidableEq μ]

/-- The row is deleted, if those of `m` are, and those that `gone` says of the others. -/
def dies (m : μ) (gone : μ → List Json) (c : μ) (r : Record) : Bool :=
  c = m || (S.relations c).any fun rel => rel.onDelete = .cascade && refersTo (gone rel.target) rel r

/-- The row forbids the deletion. -/
def forbids (gone : μ → List Json) (c : μ) (r : Record) : Bool :=
  (S.relations c).any fun rel => rel.onDelete = .restrict && refersTo (gone rel.target) rel r

/-- The row without its references to rows that are gone. -/
def forget (gone : μ → List Json) (c : μ) (r : Record) : Record :=
  r.map fun p =>
    if (S.relations c).any fun rel => rel.column = p.1 && rel.onDelete = .setNull && refersTo (gone rel.target) rel r then
      (p.1, .null)
    else p

/-- The ids of the rows of `c` that are deleted. -/
def dying (m : μ) (db : Rows μ) (gone : μ → List Json) (c : μ) : List Json :=
  ((db c).filter (S.dies m gone c)).map fun r => r.get "id"

/-- What is gone, table by table, from the tables that are referred to on. -/
def doomed (m : μ) (db : Rows μ) : List μ → (μ → List Json) → μ → List Json
  | [], gone => gone
  | c :: cs, gone => doomed m db cs (Function.update gone c (S.dying m db gone c))

/-- The ids of all rows that are deleted with those of `m`. -/
def gone (m : μ) (db : Rows μ) : μ → List Json := S.doomed m db S.order fun _ => []

def deleted (m : μ) (db : Rows μ) : Rows μ := fun c =>
  ((db c).filter fun r => !S.dies m (S.gone m db) c r).map (S.forget (S.gone m db) c)

/-- All rows of `m` are deleted, unless something forbids it. -/
def deleteAll (m : μ) (db : Rows μ) : Option (Rows μ) :=
  if S.order.any fun c => (db c).any (S.forbids (S.gone m db) c) then none else some (S.deleted m db)

/-! ## Creating -/

/-- The new rows one after another, without those that collide. -/
def addSkipping (m : μ) : List Record → List Record → List Record
  | rows, [] => rows
  | rows, r :: rs => addSkipping m (if rows.any (S.collides m r) then rows else rows ++ [r]) rs

def createMany (m : μ) (rs : List Record) (db : Rows μ) : Option (Rows μ) :=
  let db' := Function.update db m (S.addSkipping m (db m) rs)
  if rs.all (S.met db' m) then some db' else none

/-! ## One table after another -/

def clear : List μ → Rows μ → Option (Rows μ)
  | [], db => some db
  | m :: ms, db => (S.deleteAll m db).bind (clear ms)

/-- The rows of each table, which may not be had. -/
def fill (rows : μ → Option (List Record)) : List μ → Rows μ → Option (Rows μ)
  | [], db => some db
  | m :: ms, db => (rows m).bind fun rs => (S.createMany m rs db).bind (fill rows ms)

/-! ## What is gone -/

section Deleting

variable {S} {m c : μ} {db : Rows μ} {r : Record}

omit [DecidableEq μ] in
theorem refersTo_iff {ids : List Json} {rel : Relation μ} :
    refersTo ids rel r = true ↔ r.get rel.column ≠ .null ∧ r.get rel.column ∈ ids := by
  simp [refersTo]

omit [DecidableEq μ] in
theorem any_congr_mem {α : Type} {xs : List α} {p q : α → Bool} (h : ∀ x ∈ xs, p x = q x) : xs.any p = xs.any q := by
  induction xs with
  | nil => rfl
  | cons x xs ih =>
    rw [List.any_cons, List.any_cons, h x List.mem_cons_self, ih fun y hy => h y (List.mem_cons_of_mem x hy)]

theorem doomed_other {cs : List μ} (h : c ∉ cs) (gone : μ → List Json) : S.doomed m db cs gone c = gone c := by
  induction cs generalizing gone with
  | nil => rfl
  | cons d cs ih =>
    have hd : c ≠ d := List.ne_of_not_mem_cons h
    rw [doomed, ih (List.not_mem_of_not_mem_cons h), Function.update_of_ne hd]

theorem dying_congr {gone gone' : μ → List Json} (h : ∀ rel ∈ S.relations c, gone rel.target = gone' rel.target) :
    S.dying m db gone c = S.dying m db gone' c := by
  have hdies : S.dies m gone c = S.dies m gone' c := by
    funext r
    have hany : ∀ rel ∈ S.relations c, (rel.onDelete = .cascade && refersTo (gone rel.target) rel r) =
        (rel.onDelete = .cascade && refersTo (gone' rel.target) rel r) := by
      intro rel hrel
      rw [h rel hrel]
    rw [dies, dies, any_congr_mem hany]
  rw [dying, dying, hdies]

theorem doomed_dying {cs : List μ} (hn : cs.Nodup) (hp : cs.Pairwise fun a b => ∀ rel ∈ S.relations a, rel.target ≠ b)
    (hc : c ∈ cs) (gone : μ → List Json) : S.doomed m db cs gone c = S.dying m db (S.doomed m db cs gone) c := by
  induction cs generalizing gone with
  | nil => cases hc
  | cons d cs ih =>
    obtain ⟨hd, hn⟩ := List.nodup_cons.1 hn
    obtain ⟨hpd, hp⟩ := List.pairwise_cons.1 hp
    by_cases hcd : c = d
    · subst hcd
      -- what the first table refers to is not changed after it
      rw [doomed, doomed_other hd, Function.update_self]
      refine dying_congr ?_
      intro rel hrel
      have hself : rel.target ≠ c := S.irreflexive c rel hrel
      have hlater : rel.target ∉ cs := fun hmem => hpd rel.target hmem rel hrel rfl
      rw [doomed_other hlater, Function.update_of_ne hself]
    · exact ih hn hp (List.mem_of_ne_of_mem hcd hc) _

/-- The rows that go are those of `m`, and those whose reference goes with them. -/
theorem doomed_fixed (m : μ) (db : Rows μ) (c : μ) : S.gone m db c = S.dying m db (S.gone m db) c :=
  doomed_dying S.nodup S.parentsFirst (S.complete c) _

theorem mem_gone {id : Json} : id ∈ S.gone m db c ↔ ∃ p ∈ db c, S.dies m (S.gone m db) c p = true ∧ p.get "id" = id := by
  rw [doomed_fixed]
  simp only [dying, List.mem_map, List.mem_filter]
  constructor
  · intro ⟨p, ⟨hp, hd⟩, hid⟩
    exact ⟨p, hp, hd, hid⟩
  · intro ⟨p, hp, hd, hid⟩
    exact ⟨p, ⟨hp, hd⟩, hid⟩

/-- Nothing goes from a table that is not deleted and has no references that cascade. -/
theorem gone_root (hm : c ≠ m) (h : ∀ rel ∈ S.relations c, rel.onDelete ≠ .cascade) : S.gone m db c = [] := by
  have hdies : ∀ p, S.dies m (S.gone m db) c p = false := by
    intro p
    unfold dies
    rw [decide_eq_false hm, Bool.false_or, List.any_eq_false]
    intro rel hrel hcond
    obtain ⟨hcascade, -⟩ := Bool.and_eq_true_iff.1 hcond
    exact h rel hrel (of_decide_eq_true hcascade)
  refine List.eq_nil_iff_forall_not_mem.2 ?_
  intro id hid
  obtain ⟨p, -, hp, -⟩ := mem_gone.1 hid
  rw [hdies p] at hp
  cases hp

/-! ## What a deletion leaves -/

theorem mem_deleted {r' : Record} :
    r' ∈ S.deleted m db c ↔ ∃ r ∈ db c, S.dies m (S.gone m db) c r = false ∧ S.forget (S.gone m db) c r = r' := by
  unfold deleted
  simp only [List.mem_map, List.mem_filter, Bool.not_eq_true']
  constructor
  · intro ⟨r, ⟨hr, hd⟩, hf⟩
    exact ⟨r, hr, hd, hf⟩
  · intro ⟨r, hr, hd, hf⟩
    exact ⟨r, ⟨hr, hd⟩, hf⟩

theorem deleted_self (m : μ) (db : Rows μ) : S.deleted m db m = [] := by
  refine List.eq_nil_iff_forall_not_mem.2 ?_
  intro r' hr'
  obtain ⟨r, -, hd, -⟩ := mem_deleted.1 hr'
  simp [dies] at hd

theorem deleted_empty (h : db c = []) : S.deleted m db c = [] := by
  simp [deleted, h]

omit [DecidableEq μ] in
/-- A column of a row that forgets: null, or as it was. -/
theorem get_forget (gone : μ → List Json) (c : μ) (r : Record) (k : String) :
    (S.forget gone c r).get k =
      if ((S.relations c).any fun rel => rel.column = k && rel.onDelete = .setNull && refersTo (gone rel.target) rel r) = true
      then .null else r.get k :=
  Record.get_nulled
    (fun k => (S.relations c).any fun rel => rel.column = k && rel.onDelete = .setNull && refersTo (gone rel.target) rel r) r k

omit [DecidableEq μ] in
theorem get_forget_ne {gone : μ → List Json} {r : Record} {k : String} (h : (S.forget gone c r).get k ≠ .null) :
    (S.forget gone c r).get k = r.get k := by
  rw [get_forget] at h ⊢
  split
  · rename_i hcond
    rw [if_pos hcond] at h
    exact absurd rfl h
  · rfl

omit [DecidableEq μ] in
/-- A row without references has nothing to forget. -/
theorem forget_free {gone : μ → List Json} (h : ∀ rel ∈ S.relations c, r.get rel.column = .null) : S.forget gone c r = r := by
  have hnone : ∀ k, ((S.relations c).any fun rel =>
      rel.column = k && rel.onDelete = .setNull && refersTo (gone rel.target) rel r) = false := by
    intro k
    rw [List.any_eq_false]
    intro rel hrel hcond
    obtain ⟨-, hrefers⟩ := Bool.and_eq_true_iff.1 hcond
    exact (refersTo_iff.1 hrefers).1 (h rel hrel)
  unfold forget
  simp only [hnone, Bool.false_eq_true, if_false, List.map_id']

omit [DecidableEq μ] in
/-- Where nothing is set to null, a row forgets nothing. -/
theorem forget_kept {gone : μ → List Json} (h : ∀ rel ∈ S.relations c, rel.onDelete ≠ .setNull) (r : Record) :
    S.forget gone c r = r := by
  have hnone : ∀ k, ((S.relations c).any fun rel =>
      rel.column = k && rel.onDelete = .setNull && refersTo (gone rel.target) rel r) = false := by
    intro k
    rw [List.any_eq_false]
    intro rel hrel hcond
    obtain ⟨hset, -⟩ := Bool.and_eq_true_iff.1 hcond
    obtain ⟨-, hnull⟩ := Bool.and_eq_true_iff.1 hset
    exact h rel hrel (of_decide_eq_true hnull)
  unfold forget
  simp only [hnone, Bool.false_eq_true, if_false, List.map_id']

/-- A row without references stays, unless its table is deleted. -/
theorem free_stays (hm : c ≠ m) (h : ∀ rel ∈ S.relations c, r.get rel.column = .null) (hr : r ∈ db c) :
    r ∈ S.deleted m db c := by
  refine mem_deleted.2 ⟨r, hr, ?_, forget_free h⟩
  unfold dies
  rw [decide_eq_false hm, Bool.false_or, List.any_eq_false]
  intro rel hrel hcond
  obtain ⟨-, hrefers⟩ := Bool.and_eq_true_iff.1 hcond
  exact (refersTo_iff.1 hrefers).1 (h rel hrel)

omit [DecidableEq μ] in
theorem met_iff : S.met db c r = true ↔
    ∀ rel ∈ S.relations c, r.get rel.column ≠ .null → ∃ p ∈ db rel.target, p.get "id" = r.get rel.column := by
  simp only [Schema.met, List.all_eq_true, Bool.or_eq_true, decide_eq_true_eq, List.any_eq_true]
  constructor
  · intro h rel hrel hne
    rcases h rel hrel with hnull | hsome
    · exact absurd hnull hne
    · exact hsome
  · intro h rel hrel
    by_cases hnull : r.get rel.column = .null
    · exact .inl hnull
    · exact .inr (h rel hrel hnull)

omit [DecidableEq μ] in
theorem collides_forget {gone : μ → List Json} {r r' : Record}
    (h : S.collides c (S.forget gone c r) (S.forget gone c r') = true) : S.collides c r r' = true := by
  unfold collides at h ⊢
  obtain ⟨columns, hcolumns, hall⟩ := List.any_eq_true.1 h
  refine List.any_eq_true.2 ⟨columns, hcolumns, List.all_eq_true.2 ?_⟩
  intro k hk
  have hkey := List.all_eq_true.1 hall k hk
  simp only [Bool.and_eq_true, decide_eq_true_eq] at hkey ⊢
  obtain ⟨hne, heq⟩ := hkey
  have hne' := hne
  rw [heq] at hne'
  rw [get_forget_ne hne, get_forget_ne hne'] at heq
  rw [get_forget_ne hne] at hne
  exact ⟨hne, heq⟩

/-- No reference is left dangling, and rows stay apart. -/
theorem deleted_valid (hv : S.Valid db) (hf : ∀ c, ∀ r ∈ db c, S.forbids (S.gone m db) c r = false) :
    S.Valid (S.deleted m db) := by
  constructor
  · intro c r' hr'
    obtain ⟨r, hr, hd, rfl⟩ := mem_deleted.1 hr'
    refine met_iff.2 ?_
    intro rel hrel hne
    have hsame := get_forget_ne hne
    rw [hsame] at hne ⊢
    obtain ⟨p, hp, hid⟩ := met_iff.1 (hv.met c r hr) rel hrel hne
    refine ⟨S.forget (S.gone m db) rel.target p, ?_, ?_⟩
    · refine mem_deleted.2 ⟨p, hp, ?_, rfl⟩
      -- if the row referred to went, the reference would have gone one way or another
      cases hdp : S.dies m (S.gone m db) rel.target p with
      | false => rfl
      | true =>
        have hrefers : refersTo (S.gone m db rel.target) rel r = true := refersTo_iff.2 ⟨hne, mem_gone.2 ⟨p, hp, hdp, hid⟩⟩
        cases ho : rel.onDelete with
        | cascade =>
          have hdies : S.dies m (S.gone m db) c r = true := by
            unfold dies
            rw [Bool.or_eq_true, List.any_eq_true]
            exact .inr ⟨rel, hrel, by simp [ho, hrefers]⟩
          rw [hd] at hdies
          cases hdies
        | restrict =>
          have hforbids : S.forbids (S.gone m db) c r = true := by
            unfold forbids
            rw [List.any_eq_true]
            exact ⟨rel, hrel, by simp [ho, hrefers]⟩
          rw [hf c r hr] at hforbids
          cases hforbids
        | setNull =>
          have hcond : ((S.relations c).any fun rel' => rel'.column = rel.column && rel'.onDelete = .setNull &&
              refersTo (S.gone m db rel'.target) rel' r) = true :=
            List.any_eq_true.2 ⟨rel, hrel, by simp [ho, hrefers]⟩
          rw [get_forget, if_pos hcond] at hsame
          exact absurd hsame.symm hne
    · rw [get_forget]
      split
      · rename_i hcond
        obtain ⟨rel', hrel', hcol⟩ := List.any_eq_true.1 hcond
        simp only [Bool.and_eq_true, decide_eq_true_eq] at hcol
        exact absurd hcol.1.1 (S.idKept rel.target rel' hrel')
      · exact hid
  · intro c
    unfold deleted
    refine List.Pairwise.map _ ?_ ((hv.apart c).filter _)
    intro r₁ r₂ hapart
    cases hcollides : S.collides c (S.forget (S.gone m db) c r₁) (S.forget (S.gone m db) c r₂) with
    | false => rfl
    | true =>
      rw [collides_forget hcollides] at hapart
      cases hapart

/-! ### One table after another -/

/-- Nothing forbids the deletion of `m`, if whatever could is empty already. -/
theorem deleteAll_free (hroot : ∀ c, ∀ rel ∈ S.relations c, rel.onDelete = .restrict →
      ∀ rel' ∈ S.relations rel.target, rel'.onDelete ≠ .cascade)
    (hempty : ∀ c, ∀ rel ∈ S.relations c, rel.onDelete = .restrict → rel.target = m → db c = []) :
    (∀ c, ∀ r ∈ db c, S.forbids (S.gone m db) c r = false) ∧ S.deleteAll m db = some (S.deleted m db) := by
  have hfree : ∀ c, ∀ r ∈ db c, S.forbids (S.gone m db) c r = false := by
    intro c r hr
    unfold forbids
    rw [List.any_eq_false]
    intro rel hrel hcond
    obtain ⟨ho, hrefers⟩ := Bool.and_eq_true_iff.1 hcond
    have ho := of_decide_eq_true ho
    by_cases htarget : rel.target = m
    · rw [hempty c rel hrel ho htarget] at hr
      cases hr
    · have hmem := (refersTo_iff.1 hrefers).2
      rw [gone_root htarget (hroot c rel hrel ho)] at hmem
      cases hmem
  refine ⟨hfree, ?_⟩
  have hany : (S.order.any fun c => (db c).any (S.forbids (S.gone m db) c)) = false := by
    rw [List.any_eq_false]
    intro c _ hc
    obtain ⟨r, hr, hforbids⟩ := List.any_eq_true.1 hc
    rw [hfree c r hr] at hforbids
    cases hforbids
  rw [deleteAll, if_neg (by rw [hany]; decide)]

/-- Tables deleted one after another: they are empty then, no reference dangles, and of the
    other tables the rows without references stay. -/
theorem clear_spec (hroot : ∀ c, ∀ rel ∈ S.relations c, rel.onDelete = .restrict →
      ∀ rel' ∈ S.relations rel.target, rel'.onDelete ≠ .cascade) {ms : List μ}
    (horder : ms.Pairwise fun m m' => ∀ rel ∈ S.relations m', rel.onDelete = .restrict → rel.target ≠ m)
    (hrest : ∀ c ∉ ms, db c = [] ∨ ∀ rel ∈ S.relations c, rel.onDelete ≠ .restrict) (hv : S.Valid db) :
    ∃ db', S.clear ms db = some db' ∧ S.Valid db' ∧ (∀ m ∈ ms, db' m = []) ∧ (∀ c, db c = [] → db' c = []) ∧
      (∀ c ∉ ms, ∀ r ∈ db c, (∀ rel ∈ S.relations c, r.get rel.column = .null) → r ∈ db' c) ∧
      ∀ c, (∀ rel ∈ S.relations c, rel.onDelete ≠ .setNull) → ∀ r ∈ db' c, r ∈ db c := by
  induction ms generalizing db with
  | nil =>
    refine ⟨db, rfl, hv, ?_, fun c h => h, fun c _ r hr _ => hr, fun c _ r hr => hr⟩
    intro m hm
    cases hm
  | cons m ms ih =>
    obtain ⟨hm, horder⟩ := List.pairwise_cons.1 horder
    have hempty : ∀ c, ∀ rel ∈ S.relations c, rel.onDelete = .restrict → rel.target = m → db c = [] := by
      intro c rel hrel ho htarget
      by_cases hc : c ∈ m :: ms
      · rcases List.mem_cons.1 hc with rfl | hc
        · exact absurd htarget (S.irreflexive c rel hrel)
        · exact absurd htarget (hm c hc rel hrel ho)
      · rcases hrest c hc with hnil | hnone
        · exact hnil
        · exact absurd ho (hnone rel hrel)
    obtain ⟨hfree, hdeleted⟩ := deleteAll_free hroot hempty
    have hrest' : ∀ c ∉ ms, S.deleted m db c = [] ∨ ∀ rel ∈ S.relations c, rel.onDelete ≠ .restrict := by
      intro c hc
      by_cases hcm : c = m
      · rw [hcm]
        exact .inl (deleted_self m db)
      · exact (hrest c (List.not_mem_cons_of_ne_of_not_mem hcm hc)).imp_left deleted_empty
    obtain ⟨db', hclear, hvalid, hcleared, hstill, hfree', hold⟩ := ih horder hrest' (deleted_valid hv hfree)
    refine ⟨db', ?_, hvalid, ?_, fun c h => hstill c (deleted_empty h), ?_, ?_⟩
    · rw [clear, hdeleted]
      exact hclear
    · intro c hc
      rcases List.mem_cons.1 hc with rfl | hc
      · exact hstill c (deleted_self c db)
      · exact hcleared c hc
    · intro c hc r hr hnull
      have hcm : c ≠ m := List.ne_of_not_mem_cons hc
      exact hfree' c (List.not_mem_of_not_mem_cons hc) r (free_stays hcm hnull hr) hnull
    · intro c hset r hr
      obtain ⟨r₀, hr₀, -, hforget⟩ := mem_deleted.1 (hold c hset r hr)
      rw [forget_kept hset] at hforget
      rw [← hforget]
      exact hr₀

end Deleting

/-! ## What a creation adds -/

section Creating

variable {S} {m : μ} {db db' : Rows μ}

omit [DecidableEq μ] in
theorem collides_comm (m : μ) (r r' : Record) : S.collides m r r' = S.collides m r' r := by
  have hkey : ∀ c : String, (decide (r.get c ≠ .null) && decide (r.get c = r'.get c)) =
      (decide (r'.get c ≠ .null) && decide (r'.get c = r.get c)) := by
    intro c
    by_cases h : r.get c = r'.get c
    · simp [h]
    · simp [h, Ne.symm h]
  unfold collides
  simp only [hkey]

omit [DecidableEq μ] in
/-- Rows that are apart from each other are all added. -/
theorem addSkipping_apart {rows rs : List Record} (h : (rows ++ rs).Pairwise fun r r' => S.collides m r r' = false) :
    S.addSkipping m rows rs = rows ++ rs := by
  induction rs generalizing rows with
  | nil => exact (List.append_nil rows).symm
  | cons r rs ih =>
    have hnone : rows.any (S.collides m r) = false := by
      rw [List.any_eq_false]
      intro r' hr' hcollides
      rw [collides_comm, (List.pairwise_append.1 h).2.2 r' hr' r List.mem_cons_self] at hcollides
      cases hcollides
    rw [addSkipping, if_neg (by rw [hnone]; decide), ih]
    · rw [List.append_assoc, List.singleton_append]
    · rw [List.append_assoc, List.singleton_append]
      exact h

omit [DecidableEq μ] in
theorem addSkipping_sublist (m : μ) (rows rs : List Record) : (S.addSkipping m rows rs).Sublist (rows ++ rs) := by
  induction rs generalizing rows with
  | nil =>
    rw [List.append_nil]
    exact List.Sublist.refl rows
  | cons r rs ih =>
    rw [addSkipping]
    split
    · exact (ih rows).trans ((List.sublist_cons_self r rs).append_left rows)
    · have h := ih (rows ++ [r])
      rw [List.append_assoc, List.singleton_append] at h
      exact h

omit [DecidableEq μ] in
/-- If as many rows are there as were to be added, none was skipped. -/
theorem addSkipping_all {rs rs' : List Record} (h : S.addSkipping m [] rs = rs') (hl : rs'.length = rs.length) : rs = rs' := by
  have hsub : (S.addSkipping m [] rs).Sublist rs := addSkipping_sublist m [] rs
  rw [h] at hsub
  exact (hsub.eq_of_length hl).symm

theorem createMany_iff {rs : List Record} : S.createMany m rs db = some db' ↔
    db' = Function.update db m (S.addSkipping m (db m) rs) ∧ ∀ r ∈ rs, S.met db' m r = true := by
  unfold createMany
  dsimp only
  constructor
  · intro h
    split at h
    · rename_i hall
      obtain rfl := Option.some.inj h
      exact ⟨rfl, List.all_eq_true.1 hall⟩
    · cases h
  · intro ⟨he, hall⟩
    subst he
    rw [if_pos (List.all_eq_true.2 hall)]

omit [DecidableEq μ] in
theorem met_congr {c : μ} {r : Record} (h : ∀ rel ∈ S.relations c, db rel.target = db' rel.target) :
    S.met db c r = S.met db' c r := by
  unfold met
  rw [List.all_eq_not_any_not, List.all_eq_not_any_not]
  congr 1
  refine any_congr_mem ?_
  intro rel hrel
  rw [h rel hrel]

/-- Empty tables filled one after another: each then holds its rows, and all their
    references are met. -/
theorem fill_iff {rows : μ → Option (List Record)} {ms : List μ} (hn : ms.Nodup)
    (hp : ms.Pairwise fun a b => ∀ rel ∈ S.relations a, rel.target ≠ b) (he : ∀ m ∈ ms, db m = []) :
    S.fill rows ms db = some db' ↔
      (∀ m ∈ ms, ∃ rs, rows m = some rs ∧ db' m = S.addSkipping m [] rs ∧ ∀ r ∈ rs, S.met db' m r = true) ∧
        ∀ c ∉ ms, db' c = db c := by
  induction ms generalizing db with
  | nil =>
    constructor
    · intro h
      obtain rfl := Option.some.inj h
      exact ⟨fun m hm => (List.not_mem_nil hm).elim, fun c _ => rfl⟩
    · intro ⟨_, hother⟩
      rw [fill, funext fun c => hother c List.not_mem_nil]
  | cons m ms ih =>
    obtain ⟨hm, hn⟩ := List.nodup_cons.1 hn
    obtain ⟨hpm, hp⟩ := List.pairwise_cons.1 hp
    have hm₀ : db m = [] := he m List.mem_cons_self
    -- the table `m` refers to earlier ones only, so its references are not touched later
    have hlater : ∀ {db₁ : Rows μ}, (∀ c ∉ ms, db' c = db₁ c) → ∀ r, S.met db₁ m r = S.met db' m r := by
      intro db₁ hsame r
      refine met_congr ?_
      intro rel hrel
      exact (hsame rel.target fun hmem => hpm rel.target hmem rel hrel rfl).symm
    have hempty : ∀ (rs : List Record), ∀ c ∈ ms, Function.update db m (S.addSkipping m (db m) rs) c = [] := by
      intro rs c hc
      have hcm : c ≠ m := ne_of_mem_of_not_mem hc hm
      rw [Function.update_of_ne hcm]
      exact he c (List.mem_cons_of_mem m hc)
    rw [fill]
    constructor
    · intro h
      obtain ⟨rs, hrs, h⟩ := Option.bind_eq_some_iff.1 h
      obtain ⟨db₁, hcreate, h⟩ := Option.bind_eq_some_iff.1 h
      obtain ⟨rfl, hmet⟩ := createMany_iff.1 hcreate
      obtain ⟨hall, hother⟩ := (ih hn hp (hempty rs)).1 h
      have hdb'm : db' m = S.addSkipping m [] rs := by rw [hother m hm, Function.update_self, hm₀]
      refine ⟨?_, ?_⟩
      · intro c hc
        rcases List.mem_cons.1 hc with rfl | hc
        · exact ⟨rs, hrs, hdb'm, fun r hr => (hlater hother r).symm.trans (hmet r hr)⟩
        · exact hall c hc
      · intro c hc
        rw [hother c (List.not_mem_of_not_mem_cons hc), Function.update_of_ne (List.ne_of_not_mem_cons hc)]
    · intro ⟨hall, hother⟩
      obtain ⟨rs, hrs, hdb'm, hmet⟩ := hall m List.mem_cons_self
      have hsame : ∀ c ∉ ms, db' c = Function.update db m (S.addSkipping m (db m) rs) c := by
        intro c hc
        by_cases hcm : c = m
        · rw [hcm, Function.update_self, hm₀, hdb'm]
        · rw [Function.update_of_ne hcm]
          exact hother c (List.not_mem_cons_of_ne_of_not_mem hcm hc)
      rw [hrs, Option.bind_some, createMany_iff.2 ⟨rfl, fun r hr => (hlater hsame r).trans (hmet r hr)⟩, Option.bind_some]
      exact (ih hn hp (hempty rs)).2 ⟨fun c hc => hall c (List.mem_cons_of_mem m hc), hsame⟩

end Creating

end Schema

end ClusterGate.Lib
