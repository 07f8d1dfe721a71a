/-
  ClusterGate.Backup.RoundTrip — what a restore gives back (`services/backupService.ts`).

  A restore empties the tables a backup covers, which takes with it whatever refers to
  them by a cascade: the bindings of API keys, and the folders of organizations. Then the
  covered rows are created again, parents first, and every reference has to be met. The
  folders and the bindings are not covered.
  - `cleared_spec`: what is left when the covered tables are empty.
  - `createBackup_found`: a backup is found under its name, with the rows of the state.
  - `backup_round_trip_iff`: a restore succeeds and gives every covered row and binding
    back exactly if `ComesBack`.
  - `a_route_in_a_folder_is_not_restored`: its folder is not there.
-/

import Mathlib.Data.String.Basic
import ClusterGate.Backup.Service

namespace ClusterGate

open Lib Act

/-- Every row that is covered, and every binding of a key, is as in `s`. -/
def SameBackedUp (s t : Rows Model) : Prop :=
  (∀ m ∈ BACKUP_MODELS, t m = s m) ∧ t .apiKeyRoute = s .apiKeyRoute ∧ t .apiKeyFolder = s .apiKeyFolder

/-- The values come back as they were; the folder of a route is in the store that is
    restored into and belongs to no organization; and no key is shared or bound to a
    folder. -/
structure ComesBack (W : World) (E : Client) (s t : Rows Model) : Prop where
  values : ∀ m ∈ BACKUP_MODELS, ∀ r ∈ s m, ∀ f ∈ m.fields, Survives W E m f (r.get f.name)
  folders : ∀ r ∈ s .route, r.get "folderId" ≠ .null →
    ∃ p ∈ t .routeFolder, p.get "id" = r.get "folderId" ∧ p.get "organizationId" = .null
  bindings : s .apiKeyRoute = [] ∧ s .apiKeyFolder = []

/-! ## The covered tables in the schema -/

theorem covered_nodup : BACKUP_MODELS.Nodup := by decide

theorem covered_parentsFirst :
    BACKUP_MODELS.Pairwise fun a b => ∀ rel ∈ schema.relations a, rel.target ≠ b := by decide

/-- What restricts a deletion is deleted before. -/
theorem covered_restricts : BACKUP_MODELS.reverse.Pairwise fun m m' =>
    ∀ rel ∈ schema.relations m', rel.onDelete = .restrict → rel.target ≠ m := by decide

theorem restricts_roots : ∀ c, ∀ rel ∈ schema.relations c, rel.onDelete = .restrict →
    ∀ rel' ∈ schema.relations rel.target, rel'.onDelete ≠ .cascade := by
  intro c
  cases c <;> decide

theorem uncovered_restricts : ∀ c ∈ Model.all, c ∉ BACKUP_MODELS.reverse →
    ∀ rel ∈ schema.relations c, rel.onDelete ≠ .restrict := by decide

/-- One covered table refers to one that is not. -/
theorem covered_references : ∀ m ∈ BACKUP_MODELS, ∀ rel ∈ schema.relations m, rel.target ∉ BACKUP_MODELS →
    m = .route ∧ rel.column = "folderId" ∧ rel.target = .routeFolder := by decide

/-! ## The covered tables emptied -/

variable {W : World} {E : Client} {now : String} {s t : Rows Model}

theorem cleared_spec (ht : WellFormed t) : ∃ t₀, schema.clear BACKUP_MODELS.reverse t = some t₀ ∧
    (∀ m ∈ BACKUP_MODELS, t₀ m = []) ∧ t₀ .apiKeyRoute = [] ∧ t₀ .apiKeyFolder = [] ∧
      ∀ p, p ∈ t₀ .routeFolder ↔ p ∈ t .routeFolder ∧ p.get "organizationId" = .null := by
  obtain ⟨t₀, hclear, hvalid, hempty, -, hfree, hold⟩ := Schema.clear_spec restricts_roots covered_restricts
    (fun c hc => .inr (uncovered_restricts c (Model.mem_all c) hc)) ht.valid
  have hempty' : ∀ m ∈ BACKUP_MODELS, t₀ m = [] := fun m hm => hempty m (List.mem_reverse.2 hm)
  -- a binding refers to a key, and no key is left
  have hbinding : ∀ c, (⟨"apiKeyId", .apiKey, .cascade⟩ : Relation Model) ∈ schema.relations c →
      ModelField.text "apiKeyId" ∈ c.fields → (∀ rel ∈ schema.relations c, rel.onDelete ≠ .setNull) → t₀ c = [] := by
    intro c hrel hfield hset
    refine List.eq_nil_iff_forall_not_mem.2 ?_
    intro r hr
    have hadmits := (ht.fits c r (hold c hset r hr)).2 _ hfield
    have hnull : r.get "apiKeyId" ≠ .null := by
      intro he
      rw [show (ModelField.text "apiKeyId").name = "apiKeyId" from rfl, he] at hadmits
      cases hadmits
    obtain ⟨k, hk, -⟩ := Schema.met_iff.1 (hvalid.met c r hr) _ hrel hnull
    rw [hempty' .apiKey (by decide)] at hk
    cases hk
  refine ⟨t₀, hclear, hempty', hbinding _ List.mem_cons_self List.mem_cons_self (by decide),
    hbinding _ List.mem_cons_self List.mem_cons_self (by decide), ?_⟩
  intro p
  constructor
  · intro hp
    refine ⟨hold .routeFolder (by decide) p hp, ?_⟩
    by_cases hnull : p.get "organizationId" = .null
    · exact hnull
    · obtain ⟨o, ho, -⟩ := Schema.met_iff.1 (hvalid.met .routeFolder p hp) _ List.mem_cons_self hnull
      rw [hempty' .organization (by decide)] at ho
      cases ho
  · intro ⟨hp, hnull⟩
    refine hfree .routeFolder (by decide) p hp ?_
    intro rel hrel
    obtain rfl := List.mem_singleton.1 hrel
    exact hnull

/-! ## What is created again -/

/-- The rows of a table come back as they were. -/
theorem importRows_same (hs : WellFormed s) {m : Model} (hm : m ∈ BACKUP_MODELS) :
    importRows W E (backupData now s) m = some (s m) ↔
      ∀ r ∈ s m, ∀ f ∈ m.fields, Survives W E m f (r.get f.name) := by
  have hiff := @mapM_some_map _ _ (fun r => importRecord W E m (.obj r)) (fun r => r) (s m)
  rw [List.map_id'] at hiff
  rw [importRows_backup hm, hiff]
  exact forall₂_congr fun r hr => importRecord_iff (hs.fits m r hr)

/-- A reference of a covered row is met where the covered rows are those of `s`, if its
    folder is there. -/
theorem covered_met (hs : WellFormed s) {t' : Rows Model} (hsame : ∀ m ∈ BACKUP_MODELS, t' m = s m)
    (hfolders : ∀ r ∈ s .route, r.get "folderId" ≠ .null → ∃ p ∈ t' .routeFolder, p.get "id" = r.get "folderId") {m : Model}
    (hm : m ∈ BACKUP_MODELS) {r : Record} (hr : r ∈ s m) : schema.met t' m r = true := by
  refine Schema.met_iff.2 ?_
  intro rel hrel hnull
  by_cases htarget : rel.target ∈ BACKUP_MODELS
  · rw [hsame rel.target htarget]
    exact Schema.met_iff.1 (hs.valid.met m r hr) rel hrel hnull
  · obtain ⟨rfl, hcolumn, hfolder⟩ := covered_references m hm rel hrel htarget
    rw [hcolumn] at hnull ⊢
    rw [hfolder]
    exact hfolders r hr hnull

theorem restored_iff (hs : WellFormed s) (ht : WellFormed t) :
    (∃ t', restored W E (backupData now s) t = some t' ∧ SameBackedUp s t') ↔ ComesBack W E s t := by
  obtain ⟨t₀, hclear, hempty, hroutes, hkeyFolders, hfolders⟩ := cleared_spec ht
  rw [restored, hclear, Option.bind_some]
  constructor
  · intro ⟨t', ht', hsame, hsameRoutes, hsameFolders⟩
    obtain ⟨hcovered, hother⟩ := (Schema.fill_iff covered_nodup covered_parentsFirst hempty).1 ht'
    have himport : ∀ m ∈ BACKUP_MODELS, importRows W E (backupData now s) m = some (s m) ∧
        ∀ r ∈ s m, schema.met t' m r = true := by
      intro m hm
      obtain ⟨rs, hrs, hadded, hmet⟩ := hcovered m hm
      rw [hsame m hm] at hadded
      have hlength : (s m).length = rs.length := by
        rw [importRows_backup hm] at hrs
        exact (mapM_some_iff.1 hrs).length_eq
      obtain rfl := Schema.addSkipping_all hadded.symm hlength
      exact ⟨hrs, hmet⟩
    refine ⟨fun m hm => (importRows_same hs hm).1 (himport m hm).1, ?_, ?_, ?_⟩
    · intro r hr hnull
      have hroute : Model.route ∈ BACKUP_MODELS := by decide
      have hrel : (⟨"folderId", .routeFolder, .setNull⟩ : Relation Model) ∈ schema.relations .route := by
        simp [schema, Model.relations]
      obtain ⟨p, hp, hid⟩ := Schema.met_iff.1 ((himport .route hroute).2 r hr) _ hrel hnull
      rw [hother .routeFolder (by decide)] at hp
      obtain ⟨hp, horg⟩ := (hfolders p).1 hp
      exact ⟨p, hp, hid, horg⟩
    · rw [← hsameRoutes, hother .apiKeyRoute (by decide), hroutes]
    · rw [← hsameFolders, hother .apiKeyFolder (by decide), hkeyFolders]
  · intro ⟨hvalues, hfolder, hnoRoutes, hnoFolders⟩
    -- the covered tables are those of `s`, the others as the emptying left them
    obtain ⟨t', hsame, hother⟩ : ∃ t' : Rows Model, (∀ m ∈ BACKUP_MODELS, t' m = s m) ∧ ∀ m ∉ BACKUP_MODELS, t' m = t₀ m :=
      ⟨fun m => if m ∈ BACKUP_MODELS then s m else t₀ m, fun m hm => if_pos hm, fun m hm => if_neg hm⟩
    refine ⟨t', (Schema.fill_iff covered_nodup covered_parentsFirst hempty).2 ⟨?_, hother⟩, hsame, ?_, ?_⟩
    · intro m hm
      refine ⟨s m, (importRows_same hs hm).2 (hvalues m hm), ?_, ?_⟩
      · have hall : schema.addSkipping m [] (s m) = [] ++ s m := Schema.addSkipping_apart (hs.valid.apart m)
        rw [hsame m hm, hall, List.nil_append]
      · intro r hr
        refine covered_met hs hsame ?_ hm hr
        intro r hr hnull
        obtain ⟨p, hp, hid, horg⟩ := hfolder r hr hnull
        refine ⟨p, ?_, hid⟩
        rw [hother .routeFolder (by decide)]
        exact (hfolders p).2 ⟨hp, horg⟩
    · rw [hother .apiKeyRoute (by decide), hroutes, hnoRoutes]
    · rw [hother .apiKeyFolder (by decide), hkeyFolders, hnoFolders]

/-! ## A backup found again -/

theorem fitsTemplate_mem {ts cs : List Char} (h : fitsTemplate ts cs = true) (hl : cs.length = ts.length) :
    ∀ c ∈ cs, c.isDigit = true ∨ c ∈ ts := by
  induction ts generalizing cs with
  | nil =>
    intro c hc
    rw [List.eq_nil_of_length_eq_zero hl] at hc
    cases hc
  | cons t ts ih =>
    cases cs with
    | nil => cases h
    | cons d cs =>
      rw [fitsTemplate, Bool.and_eq_true] at h
      obtain ⟨hd, hcs⟩ := h
      intro c hc
      rcases List.mem_cons.1 hc with rfl | hc
      · by_cases ht : t = '0'
        · rw [if_pos ht] at hd
          exact .inl hd
        · rw [if_neg ht] at hd
          rw [of_decide_eq_true hd]
          exact .inr List.mem_cons_self
      · exact (ih hcs (Nat.succ.inj hl) c hc).imp_right (List.mem_cons_of_mem t)

theorem isoDateTime_mem {text : String} (h : isoDateTime text = true) :
    ∀ c ∈ text.toList, c.isDigit = true ∨ c ∈ DATE_SHAPE ++ ".000Z".toList := by
  unfold isoDateTime at h
  simp only [Bool.and_eq_true, decide_eq_true_eq] at h
  exact fitsTemplate_mem h.1.1.1.1.1.1.1.1 h.1.1.1.1.1.1.1.2

theorem shape_clean : ∀ c ∈ DATE_SHAPE ++ ".000Z".toList, c ≠ ':' → c ≠ '.' →
    (c.isAlphanum || c = '_' || c = '-') = true := by
  have hall : (DATE_SHAPE ++ ".000Z".toList).all
      (fun c => c = ':' || c = '.' || (c.isAlphanum || c = '_' || c = '-')) = true := by decide
  intro c hc hcolon hpoint
  have hone := List.all_eq_true.1 hall c hc
  rw [decide_eq_false hcolon, decide_eq_false hpoint] at hone
  exact hone

theorem validFilename_of {stem : String} (hne : stem ≠ "") (h : ∀ c ∈ stem.toList, (c.isAlphanum || c = '_' || c = '-') = true) :
    validFilename (stem ++ ".json") = true := by
  have hends : Text.endsWith (stem ++ ".json") ".json" = true := by
    rw [Text.endsWith, String.toList_append, List.isSuffixOf_iff_suffix]
    exact List.suffix_append _ _
  have hstem : Text.sliceEnd (stem ++ ".json") 5 = stem := by
    rw [Text.sliceEnd, String.toList_append, List.rdrop, List.length_append, show ".json".toList.length = 5 from rfl,
      Nat.add_sub_cancel, List.take_left' rfl, String.ofList_toList]
  unfold validFilename
  dsimp only
  rw [hends, hstem, decide_eq_true hne, List.all_eq_true.2 h]
  rfl

/-- The name of a backup is one that a restore takes. -/
theorem backupFilename_valid (h : isoDateTime now = true) : validFilename (backupFilename now) = true := by
  unfold backupFilename
  dsimp only
  refine validFilename_of ?_ ?_
  · intro he
    have hlist := congrArg String.toList he
    rw [String.toList_append] at hlist
    cases hlist
  intro c hc
  rw [String.toList_append, List.mem_append] at hc
  rcases hc with hc | hc
  · have hall : "clustergate_backup_".toList.all (fun c => c.isAlphanum || c = '_' || c = '-') = true := by decide
    exact List.all_eq_true.1 hall c hc
  rw [String.toList_ofList] at hc
  have hpoint : c ≠ '.' := by simpa using List.mem_takeWhile_imp hc
  obtain ⟨d, hd, rfl⟩ := List.mem_map.1 ((List.takeWhile_sublist _).subset hc)
  by_cases hcolon : d = ':'
  · rw [if_pos hcolon]
    rfl
  · rw [if_neg hcolon] at hpoint ⊢
    have hmem : d ∈ now.toList ∨ d = '_' := by
      rw [List.append_assoc, List.mem_append, List.mem_append] at hd
      rcases hd with hd | hd | hd
      · exact .inl ((List.takeWhile_sublist _).subset hd)
      · split at hd
        · exact .inr (List.mem_singleton.1 hd)
        · cases hd
      · exact .inl (List.mem_of_mem_drop (List.mem_of_mem_drop hd))
    rcases hmem with hmem | rfl
    · rcases isoDateTime_mem h d hmem with hdigit | hshape
      · rw [Char.isAlphanum, hdigit, Bool.or_true]
        rfl
      · exact shape_clean d hshape hcolon hpoint
    · rfl

/-- A backup is one row more, and no other has its name or its id. -/
theorem createBackup_spec {id createdAt : String} {tags : List String} {note : Option String} :
    wp (createBackup E now id createdAt tags note) (fun made s' =>
      made = ⟨backupFilename now, (Json.stringify E.numeral [] (backupData now s)).utf8ByteSize, tags, note, now⟩ ∧
      ∃ row : Record, row = [("id", .str id), ("filename", .str made.filename), ("data", backupData now s),
        ("size", .num made.size), ("tags", Json.ofStrList tags), ("note", (note.map Json.str).getD .null),
        ("createdAt", .str createdAt)] ∧
      (∀ r ∈ s .backup, schema.collides .backup row r = false) ∧
      s' = Function.update s .backup (s .backup ++ [row])) (fun _ _ => True) s := by
  unfold createBackup
  simp only [wp_bind, wp_read, wp_require, wp_modify, wp_pure]
  refine ⟨?_, fun _ => trivial⟩
  intro hapart
  refine ⟨trivial, _, rfl, ?_, rfl⟩
  intro r hr
  exact Bool.eq_false_of_not_eq_true (List.any_eq_false.1 hapart r hr)

/-- It is found under its name, with the rows of the state. -/
theorem createBackup_found {id createdAt : String} {tags : List String} {note : Option String} {made : BackupMeta}
    {s' : Rows Model} (h : createBackup E now id createdAt tags note s = (.ok made, s')) :
    ∃ row, findBackup made.filename s' = some row ∧ row.get "data" = backupData now s := by
  have hspec := wp_ok createBackup_spec h
  obtain ⟨-, row, hrow, hapart, rfl⟩ := hspec
  have hname : Record.get row "filename" = .str made.filename := by
    rw [hrow]
    rfl
  refine ⟨row, ?_, ?_⟩
  · rw [findBackup, Function.update_self, List.find?_append, List.find?_eq_none.2, Option.none_or]
    · rw [List.find?_cons_of_pos]
      exact decide_eq_true hname
    · intro r hr hsame
      have hcollides : schema.collides .backup row r = true := by
        refine List.any_eq_true.2 ⟨["filename"], List.mem_cons_of_mem _ List.mem_cons_self, ?_⟩
        simp only [decide_eq_true_eq] at hsame
        simp [hname, hsame]
      rw [hapart r hr] at hcollides
      cases hcollides
  · rw [hrow]
    rfl

/-- Its name is one that is taken. -/
theorem createBackup_valid {id createdAt : String} {tags : List String} {note : Option String} {made : BackupMeta}
    {s' : Rows Model} (hnow : isoDateTime now = true) (h : createBackup E now id createdAt tags note s = (.ok made, s')) :
    validFilename made.filename = true := by
  have hspec := wp_ok createBackup_spec h
  rw [hspec.1]
  exact backupFilename_valid hnow

/-- Nothing refers to a backup, so a state may hold other ones. -/
theorem backups_replaced {rows : List Record} (ht : WellFormed t) (hfits : ∀ r ∈ rows, Fits .backup r)
    (hapart : rows.Pairwise fun r r' => schema.collides .backup r r' = false) :
    WellFormed (Function.update t .backup rows) := by
  have htargets : ∀ c, ∀ rel ∈ schema.relations c, rel.target ≠ .backup := by
    intro c
    cases c <;> decide
  have hmet : ∀ c r, schema.met (Function.update t .backup rows) c r = schema.met t c r := by
    intro c r
    refine Schema.met_congr ?_
    intro rel hrel
    rw [Function.update_of_ne (htargets c rel hrel)]
  refine ⟨⟨?_, ?_⟩, ?_⟩
  · intro c r hr
    by_cases hc : c = .backup
    · rw [hc]
      rfl
    · rw [Function.update_of_ne hc] at hr
      rw [hmet]
      exact ht.valid.met c r hr
  · intro c
    by_cases hc : c = .backup
    · rw [hc, Function.update_self]
      exact hapart
    · rw [Function.update_of_ne hc]
      exact ht.valid.apart c
  · intro c r hr
    by_cases hc : c = .backup
    · subst hc
      rw [Function.update_self] at hr
      exact hfits r hr
    · rw [Function.update_of_ne hc] at hr
      exact ht.fits c r hr

/-- The state after a backup is well-formed, if its size is a number that the column takes. -/
theorem createBackup_wellFormed {id createdAt : String} {tags : List String} {note : Option String} {made : BackupMeta}
    {s' : Rows Model} (hs : WellFormed s) (hc : isoDateTime createdAt = true) (hsize : made.size ≤ 2147483647)
    (h : createBackup E now id createdAt tags note s = (.ok made, s')) : WellFormed s' := by
  have hspec := wp_ok createBackup_spec h
  obtain ⟨-, row, hrow, hapart, rfl⟩ := hspec
  refine backups_replaced hs ?_ ?_
  · intro r hr
    rcases List.mem_append.1 hr with hr | hr
    · exact hs.fits .backup r hr
    · obtain rfl := List.mem_singleton.1 hr
      subst hrow
      refine ⟨rfl, ?_⟩
      simp only [Model.fields, List.forall_mem_cons]
      refine ⟨rfl, rfl, rfl, ?_, ?_, ?_, hc, fun f hf => (List.not_mem_nil hf).elim⟩
      · show (ColType.admits .int (.num made.size)) = true
        simp [ColType.admits, Json.int?]
        omega
      · show (Json.ofStrList tags).strList?.isSome = true
        rw [Json.strList?_ofStrList]
        rfl
      · cases note with
        | none => rfl
        | some text => rfl
  · refine List.pairwise_append.2 ⟨hs.valid.apart .backup, List.pairwise_singleton _ _, ?_⟩
    intro r hr r' hr'
    obtain rfl := List.mem_singleton.1 hr'
    rw [Schema.collides_comm]
    exact hapart r hr

/-- Where a backup is found under a name that is taken, a restore of it is its transaction. -/
theorem restoreBackup_found {filename : String} {row : Record} (hname : validFilename filename = true)
    (hrow : findBackup filename t = some row) : restoreBackup W E filename t =
      match restored W E (row.get "data") t with
      | some t' => (.ok (), t')
      | none => (.error (.internal ("Restore failed: " ++ E.failure)), t) := by
  unfold restoreBackup
  rw [require_bind hname]
  show (orThrow (findBackup filename t) _ >>= _ : Act (Rows Model) Err Unit) t = _
  rw [hrow]
  show (orThrow (restored W E (row.get "data") t) _ >>= _ : Act (Rows Model) Err Unit) t = _
  cases restored W E (row.get "data") t with
  | some t' => rfl
  | none => rfl

theorem backup_round_trip_iff (W : World) (E : Client) {now id createdAt : String} {tags : List String}
    {note : Option String} {made : BackupMeta} {s s' t : Rows Model} (hnow : isoDateTime now = true) (hs : WellFormed s)
    (ht : WellFormed t) (hmade : createBackup E now id createdAt tags note s = (.ok made, s'))
    (hheld : findBackup made.filename t = findBackup made.filename s') :
    (∃ t', restoreBackup W E made.filename t = (.ok (), t') ∧ SameBackedUp s t') ↔ ComesBack W E s t := by
  obtain ⟨row, hrow, hdata⟩ := createBackup_found hmade
  rw [hrow] at hheld
  rw [restoreBackup_found (createBackup_valid hnow hmade) hheld, hdata, ← @restored_iff W E now s t hs ht]
  constructor
  · intro ⟨t', hrun, hsame⟩
    refine ⟨t', ?_, hsame⟩
    cases hrestored : restored W E (backupData now s) t with
    | some t'' =>
      rw [hrestored] at hrun
      exact congrArg some (Prod.mk.inj hrun).2
    | none =>
      rw [hrestored] at hrun
      cases (Prod.mk.inj hrun).1
  · intro ⟨t', hrestored, hsame⟩
    rw [hrestored]
    exact ⟨t', rfl, hsame⟩

/-! ### A route in a folder -/

def NEW_YEAR : String := "2026-01-01T00:00:00.000Z"

/-- An organization with a folder, and a route of it. -/
def folderStore (folderId : Json) : Rows Model
  | .organization => [[("id", .str "o"), ("name", .str "Shop"), ("slug", .str "shop"), ("description", .null),
      ("isActive", .bool true), ("createdAt", .str NEW_YEAR), ("updatedAt", .str NEW_YEAR),
      ("changeRequestsEnabled", .bool false), ("crBypassRoles", .arr []), ("crApproverRoles", .arr []),
      ("restrictTargets", .bool false), ("allowedTargetNamespaces", .arr []), ("allowedTargetHosts", .arr [])]]
  | .routeFolder => [[("id", .str "f"), ("name", .str "Orders"), ("organizationId", .str "o"), ("sortOrder", .num 0),
      ("createdAt", .str NEW_YEAR), ("updatedAt", .str NEW_YEAR)]]
  | .route =>
    let given := Patch.ofList [(.name, .str "Orders"), (.publicPath, .str "/orders"), (.targetUrl, .str "http://orders"),
      (.createdAt, .str NEW_YEAR), (.updatedAt, .str NEW_YEAR), (.folderId, folderId), (.organizationId, .str "o")]
    [("id", .str "r") :: Column.all.map fun c => (c.key, ((given c).or c.default).getD .null)]
  | _ => []

/-- The state after a backup of it. -/
def backedUp (folderId : Json) : Rows Model := (createBackup Client.plain NEW_YEAR "b" NEW_YEAR [] none (folderStore folderId)).2

def newYearBackup (folderId : Json) : BackupMeta :=
  ⟨"clustergate_backup_2026-01-01_00-00-00.json",
    (Json.stringify Client.plain.numeral [] (backupData NEW_YEAR (folderStore folderId))).utf8ByteSize, [], none, NEW_YEAR⟩

theorem backedUp_made (folderId : Json) : createBackup Client.plain NEW_YEAR "b" NEW_YEAR [] none (folderStore folderId) =
    (.ok (newYearBackup folderId), backedUp folderId) := by
  rfl

/-- A state without rows, but with that backup. -/
def onlyBackup (folderId : Json) : Rows Model := Function.update (fun _ => []) .backup (backedUp folderId .backup)

theorem onlyBackup_wellFormed {folderId : Json} (h : WellFormed (backedUp folderId)) : WellFormed (onlyBackup folderId) := by
  have hempty : WellFormed fun _ => [] := by decide
  exact backups_replaced hempty (h.fits .backup) (h.valid.apart .backup)

theorem backedUp_wellFormed {folderId : Json} (h : WellFormed (folderStore folderId))
    (hsize : 4 * Json.room Client.plain.numeral (backupData NEW_YEAR (folderStore folderId)) ≤ 2147483647) :
    WellFormed (backedUp folderId) := by
  refine createBackup_wellFormed h (by decide +kernel) ?_ (backedUp_made folderId)
  have hroom := Json.size_stringify Client.plain.numeral (backupData NEW_YEAR (folderStore folderId))
  rw [newYearBackup]
  dsimp only
  exact hroom.trans hsize

/-- A route outside any folder is there again. -/
theorem backup_round_trip_restored :
    ∃ t', restoreBackup World.plain Client.plain (newYearBackup .null).filename (onlyBackup .null) = (.ok (), t') ∧
      SameBackedUp (folderStore .null) t' := by
  have hs : WellFormed (folderStore .null) := by decide +kernel
  have ht : WellFormed (onlyBackup .null) := onlyBackup_wellFormed (backedUp_wellFormed hs (by decide +kernel))
  have hvalues : ∀ m ∈ BACKUP_MODELS, importRows World.plain Client.plain (backupData NEW_YEAR (folderStore .null)) m =
      some (folderStore .null m) := by
    decide +kernel
  refine (backup_round_trip_iff World.plain Client.plain (by decide +kernel) hs ht (backedUp_made .null) (by rfl)).2 ?_
  refine ⟨fun m hm => (importRows_same hs hm).1 (hvalues m hm), ?_, rfl, rfl⟩
  intro r hr hfolder
  obtain rfl := List.mem_singleton.1 hr
  exact absurd (by decide +kernel) hfolder

/-- A route in a folder: the folder goes with the organizations, and the route is not
    created again. -/
theorem a_route_in_a_folder_is_not_restored :
    WellFormed (folderStore (.str "f")) ∧ WellFormed (backedUp (.str "f")) ∧
      (restoreBackup World.plain Client.plain (newYearBackup (.str "f")).filename (backedUp (.str "f"))).1 =
        .error (.internal "Restore failed: Foreign key constraint violated") := by
  have hs : WellFormed (folderStore (.str "f")) := by decide +kernel
  refine ⟨hs, backedUp_wellFormed hs (by decide +kernel), ?_⟩
  decide +kernel

end ClusterGate
