/-
  ClusterGate.Backup.Service — backups in the database (`services/backupService.ts`:
  `createBackup`, `restoreBackup`, `downloadBackup`).

  A backup is one JSON value, with the rows of every table it covers. A restore empties
  these tables and creates the rows again, in one transaction: a text that begins like a
  time becomes one, and a route's secret that does not open is cleared. A download redacts
  some columns. The order in which the database lists the members of a JSON object is left
  out, and what the code takes from outside is a `Client`.
  - `importRecord_iff`: a row comes back as it was exactly if each of its values does.
-/

import ClusterGate.Backup.Schema
import ClusterGate.Errors
import ClusterGate.Lib.Act
import ClusterGate.Lib.JsonText
import ClusterGate.Secret

namespace ClusterGate

open Lib Act

/-- What the database client and the platform do. -/
structure Client where
  /-- `String(n)` -/
  numeral : Rat → String
  /-- `new Date(text)` of a text in another form than `toISOString` gives, as that gives it. -/
  parseDate : String → Option String
  /-- A plain null is taken for a JSON column that may be null. -/
  takesJsonNull : Bool
  /-- What a time given for a JSON column is stored as. -/
  dateAsJson : Option String → Option Json
  /-- What a column holds that a create leaves out. -/
  missing : Model → String → Option Json
  /-- `(err as Error).message` of a failed statement. -/
  failure : String

/-- A client that takes no null for a JSON column, and times only in the form it writes. -/
def Client.plain : Client where
  numeral q := toString q.num
  parseDate _ := none
  takesJsonNull := false
  dateAsJson iso := iso.map Json.str
  missing _ _ := none
  failure := "Foreign key constraint violated"

def BACKUP_MODELS : List Model :=
  [.systemSetting, .user, .organization, .orgMembership, .team, .teamMembership, .routeGroup, .route, .routeTarget,
   .transformRule, .routeVersion, .requestLog, .apiKey, .auditLog, .healthCheck, .notification, .incident, .incidentEvent,
   .changeRequest, .achievement, .inviteToken]

structure BackupMeta where
  filename : String
  size : Nat
  tags : List String
  note : Option String
  createdAt : String
  deriving DecidableEq

/-! ## Creating a backup -/

/-- The rows of a table, as `JSON.stringify` writes them. -/
def rowsJson (rows : List Record) : Json := .arr (rows.map Json.obj)

def backupMetaJson (now : String) : Json :=
  .arr [.obj [("version", .str "1.0"), ("createdAt", .str now), ("models", Json.ofStrList (BACKUP_MODELS.map Model.name))]]

def backupData (now : String) (db : Rows Model) : Json :=
  .obj (BACKUP_MODELS.map (fun m => (m.name, rowsJson (db m))) ++ [("_meta", backupMetaJson now)])

/-- The first `T` is replaced, every colon, and what follows the first point. -/
def backupFilename (now : String) : String :=
  let cs := now.toList
  let day := cs.takeWhile (· ≠ 'T')
  let time := (cs.drop day.length).drop 1
  let sep := if cs.contains 'T' then ['_'] else []
  "clustergate_backup_" ++
    String.ofList (((day ++ sep ++ time).map fun c => if c = ':' then '-' else c).takeWhile (· ≠ '.')) ++ ".json"

/-- `createBackup`, at `now`; `id` and `createdAt` are what the database draws for the row. -/
def createBackup (E : Client) (now id createdAt : String) (tags : List String) (note : Option String) :
    Act (Rows Model) Err BackupMeta := do
  let db ← read
  let data := backupData now db
  let size := (Json.stringify E.numeral [] data).utf8ByteSize
  let filename := backupFilename now
  let row : Record := [("id", .str id), ("filename", .str filename), ("data", data), ("size", .num size),
    ("tags", Json.ofStrList tags), ("note", (note.map Json.str).getD .null), ("createdAt", .str createdAt)]
  require ((db .backup).any (schema.collides .backup row) = false) (.internal ("Backup failed: " ++ E.failure))
  modify fun db => Function.update db .backup (db .backup ++ [row])
  pure ⟨filename, size, tags, note, now⟩

/-! ## Restoring one -/

/-- `/^[a-zA-Z0-9_\-]+\.json$/` -/
def validFilename (filename : String) : Bool :=
  let stem := Text.sliceEnd filename 5
  Text.endsWith filename ".json" && stem ≠ "" && stem.toList.all fun c => c.isAlphanum || c = '_' || c = '-'

/-- `backup.findUnique` -/
def findBackup (filename : String) (db : Rows Model) : Option Record :=
  (db .backup).find? fun r => r.get "filename" = .str filename

/-- A value on its way back: as JSON has it, or as a time, which may be invalid. -/
inductive Input
  | json (v : Json)
  | date (iso : Option String)
  deriving DecidableEq

/-- `new Date(text)` -/
def newDate (E : Client) (text : String) : Option String := if isoDateTime text then some text else E.parseDate text

def converted (E : Client) : Json → Input
  | .str s => if dateShaped s then .date (newDate E s) else .json (.str s)
  | v => .json v

def ROUTE_SECRETS : List String := ["authValue", "upstreamAuthValue", "webhookSecret"]

/-- A sealed text that does not open. -/
def undecryptable (W : World) (s : String) : Bool :=
  Text.startsWith s SECRET_PREFIX && decryptSecret W (some s) = some s

/-- What is left of a route's secret. -/
def cleared? (W : World) (m : Model) (key : String) : Input → Input
  | .json (.str s) => if m = .route ∧ key ∈ ROUTE_SECRETS ∧ undecryptable W s = true then .json .null else .json (.str s)
  | v => v

/-- What a column takes for a value. -/
def ModelField.takes (E : Client) (f : ModelField) : Input → Option Json
  | .date iso => match f.type with
    | .plain .dateTime => iso.map Json.str
    | .plain .json => E.dateAsJson iso
    | _ => none
  | .json .null => if f.nullable = true ∧ (f.type = .plain .json → E.takesJsonNull = true) then some .null else none
  | .json v => match f.type with
    | .plain .dateTime => none
    | t => if t.admits v = true then some v else none

/-- A value of a backup, as a column takes it. -/
def importValue (W : World) (E : Client) (m : Model) (f : ModelField) (v : Json) : Option Json :=
  f.takes E (cleared? W m f.name (converted E v))

def importField (W : World) (E : Client) (m : Model) (r : Record) (f : ModelField) : Option (String × Json) :=
  match (Json.obj r).get? f.name with
  | some v => (importValue W E m f v).map (f.name, ·)
  | none => (E.missing m f.name).map (f.name, ·)

/-- One record of a backup, as `createMany` takes it: it has no other members than columns. -/
def importRecord (W : World) (E : Client) (m : Model) : Json → Option Record
  | .obj r => if r.all (fun kv => (m.fields.map ModelField.name).contains kv.1) then m.fields.mapM (importField W E m r) else none
  | _ => none

/-- The rows of a table in a backup; a table that it lacks, or has no list for, gets none. -/
def importRows (W : World) (E : Client) (data : Json) (m : Model) : Option (List Record) :=
  match data.get? m.name with
  | some (.arr records) => records.mapM (importRecord W E m)
  | _ => some []

/-- The transaction of a restore. -/
def restored (W : World) (E : Client) (data : Json) (db : Rows Model) : Option (Rows Model) :=
  (schema.clear BACKUP_MODELS.reverse db).bind (schema.fill (importRows W E data) BACKUP_MODELS)

def restoreBackup (W : World) (E : Client) (filename : String) : Act (Rows Model) Err Unit := do
  require (validFilename filename = true) (.badRequest "Invalid backup filename")
  let db ← read
  let backup ← orThrow (findBackup filename db) (.notFound "Backup")
  let db' ← orThrow (restored W E (backup.get "data") db) (.internal ("Restore failed: " ++ E.failure))
  modify fun _ => db'

/-! ## Downloading one -/

def DOWNLOAD_REDACTED_FIELDS : List (String × List String) :=
  [("user", ["passwordHash", "twoFactorSecret", "recoveryCodes"]), ("apiKey", ["keyHash"])]

def redactValue : Json → Json
  | .null => .null
  | .arr _ => .arr []
  | _ => .str "[REDACTED]"

def redactRecord (fields : List String) : Json → Json
  | .obj r => .obj (r.map fun kv => if kv.1 ∈ fields then (kv.1, redactValue kv.2) else kv)
  | v => v

def redactMember (member : String × Json) : String × Json :=
  match DOWNLOAD_REDACTED_FIELDS.find? fun p => p.1 = member.1, member.2 with
  | some (_, fields), .arr records => (member.1, .arr (records.map (redactRecord fields)))
  | _, _ => member

def sanitizeBackupForDownload : Json → Json
  | .obj members => .obj (members.map redactMember)
  | v => v

def downloadBackup (E : Client) (filename : String) : Act (Rows Model) Err String := do
  require (validFilename filename = true) (.badRequest "Invalid backup filename")
  let db ← read
  let backup ← orThrow (findBackup filename db) (.notFound "Backup")
  pure (Json.stringify E.numeral [' ', ' '] (sanitizeBackupForDownload (backup.get "data")))

/-! ## What comes back as it was -/

/-- The values of an enumeration. -/
def FieldType.values : FieldType → List String
  | .plain (.enum values) => values
  | _ => []

/-- The value comes back as it was: a text that is not taken for a time, nor for a secret
    that does not open; for a JSON column, no null unless the client takes it, and no text
    that a time is stored back from as another. -/
def Survives (W : World) (E : Client) (m : Model) (f : ModelField) (v : Json) : Prop :=
  match f.type, v with
  | .plain .string, .str s =>
    dateShaped s = false ∧ (m = .route → f.name ∈ ROUTE_SECRETS → undecryptable W s = false)
  | .plain .json, .null => E.takesJsonNull = true
  | .plain .json, .str s => dateShaped s = true → E.dateAsJson (newDate E s) = some (.str s)
  | _, _ => True

theorem enum_not_shaped : ∀ m ∈ Model.all, ∀ f ∈ m.fields, ∀ s ∈ f.type.values, dateShaped s = false := by
  decide +kernel

theorem secrets_are_texts : ∀ f ∈ Model.route.fields, f.name ∈ ROUTE_SECRETS → f.type = .plain .string ∧ f.nullable = true := by
  decide +kernel

theorem names_nodup : ∀ m ∈ Model.all, (m.fields.map ModelField.name).Nodup := by
  decide +kernel

section Import

variable {W : World} {E : Client} {m : Model}

theorem admits_null (t : FieldType) : t.admits .null = false := by
  cases t with
  | plain t => cases t <;> rfl
  | float => rfl
  | enums values => rfl

theorem admits_typed {f : ModelField} {v : Json} (h : f.admits v = true) (hn : v ≠ .null) : f.type.admits v = true := by
  rw [ModelField.admits, decide_eq_false hn, Bool.and_false, Bool.false_or] at h
  exact h

/-- A value that is not null, of a column that is no time. -/
theorem takes_json {f : ModelField} {v : Json} (hn : v ≠ .null) (ht : f.type ≠ .plain .dateTime) :
    f.takes E (.json v) = if f.type.admits v = true then some v else none := by
  cases v with
  | null => exact absurd rfl hn
  | _ =>
    unfold ModelField.takes
    dsimp only
    split
    · rename_i hdate
      exact absurd hdate ht
    · rfl

/-- A value that is no text and not null. -/
theorem importValue_plain {f : ModelField} {v : Json} (hv : f.type.admits v = true) (hn : v ≠ .null) (hs : ∀ s, v ≠ .str s) :
    importValue W E m f v = some v := by
  have ht : f.type ≠ .plain .dateTime := by
    intro ht
    rw [ht] at hv
    cases v with
    | str s => exact hs s rfl
    | _ => cases hv
  have hconverted : cleared? W m f.name (converted E v) = .json v := by
    cases v with
    | str s => exact absurd rfl (hs s)
    | _ => rfl
  rw [importValue, hconverted, takes_json hn ht, if_pos hv]

/-- A text that looks like a time is taken for one. -/
theorem importValue_shaped {f : ModelField} {s : String} (hs : dateShaped s = true) :
    importValue W E m f (.str s) = f.takes E (.date (newDate E s)) := by
  have hconverted : converted E (.str s) = .date (newDate E s) := if_pos hs
  rw [importValue, hconverted]
  rfl

/-- Another text is cleared, or goes as it is. -/
theorem importValue_text {f : ModelField} {s : String} (hs : dateShaped s = false) :
    importValue W E m f (.str s) =
      f.takes E (if m = .route ∧ f.name ∈ ROUTE_SECRETS ∧ undecryptable W s = true then .json .null else .json (.str s)) := by
  have hconverted : converted E (.str s) = .json (.str s) := if_neg (by rw [hs]; decide)
  rw [importValue, hconverted]
  rfl

/-- A text that looks like a time comes back from a column of times, and from a JSON column
    if it is stored back as it was. -/
theorem importValue_date {f : ModelField} {s : String} (hf : f ∈ m.fields) (hv : f.type.admits (.str s) = true)
    (hs : dateShaped s = true) : importValue W E m f (.str s) = some (.str s) ↔ Survives W E m f (.str s) := by
  rw [importValue_shaped hs]
  cases ht : f.type with
  | float =>
    rw [ht] at hv
    cases hv
  | enums values =>
    rw [ht] at hv
    cases hv
  | plain t =>
    rw [ht] at hv
    cases t with
    | string => simp [ModelField.takes, Survives, ht, hs]
    | json => simp [ModelField.takes, Survives, ht, hs]
    | dateTime =>
      have hiso : isoDateTime s = true := hv
      simp [ModelField.takes, Survives, ht, newDate, hiso]
    | enum values =>
      have hmem : s ∈ f.type.values := by
        rw [ht]
        exact List.contains_iff_mem.1 hv
      rw [enum_not_shaped m (Model.mem_all m) f hf s hmem] at hs
      cases hs
    | _ => cases hv

/-- Another text comes back unless it is cleared. -/
theorem importValue_other {f : ModelField} {s : String} (hf : f ∈ m.fields) (hv : f.type.admits (.str s) = true)
    (hs : dateShaped s = false) : importValue W E m f (.str s) = some (.str s) ↔ Survives W E m f (.str s) := by
  rw [importValue_text hs]
  have ht : f.type ≠ .plain .dateTime := by
    intro ht
    rw [ht] at hv
    rw [isoDateTime_shaped hv] at hs
    cases hs
  by_cases hsecret : m = .route ∧ f.name ∈ ROUTE_SECRETS ∧ undecryptable W s = true
  · obtain ⟨rfl, hname, hopen⟩ := hsecret
    obtain ⟨htext, hnullable⟩ := secrets_are_texts f hf hname
    rw [if_pos ⟨rfl, hname, hopen⟩]
    simp [ModelField.takes, Survives, htext, hnullable, hname, hopen]
  · rw [if_neg hsecret, takes_json (by simp) ht, if_pos hv]
    refine iff_of_true rfl ?_
    unfold Survives
    split
    · rename_i he
      obtain rfl := Json.str.inj he
      refine ⟨hs, ?_⟩
      intro hm hname
      cases hopen : undecryptable W s with
      | false => rfl
      | true => exact absurd ⟨hm, hname, hopen⟩ hsecret
    · trivial
    · rename_i he
      obtain rfl := Json.str.inj he
      intro hshaped
      rw [hs] at hshaped
      cases hshaped
    · trivial

theorem importValue_iff {f : ModelField} {v : Json} (hf : f ∈ m.fields) (hv : f.admits v = true) :
    importValue W E m f v = some v ↔ Survives W E m f v := by
  by_cases hnull : v = .null
  · subst hnull
    have hnullable : f.nullable = true := by
      rw [ModelField.admits, admits_null, Bool.or_false] at hv
      exact (Bool.and_eq_true_iff.1 hv).1
    show (if f.nullable = true ∧ (f.type = .plain .json → E.takesJsonNull = true) then some Json.null else none) = _ ↔ _
    by_cases hjson : f.type = .plain .json
    · by_cases htakes : E.takesJsonNull = true
      · simp [Survives, hjson, hnullable, htakes]
      · simp [Survives, hjson, htakes]
    · rw [if_pos ⟨hnullable, fun h => absurd h hjson⟩]
      refine iff_of_true rfl ?_
      unfold Survives
      split
      · rename_i hs
        cases hs
      · rename_i hj _
        exact absurd hj hjson
      · rename_i hs
        cases hs
      · trivial
  · have hv := admits_typed hv hnull
    by_cases hstr : ∃ s, v = .str s
    · obtain ⟨s, rfl⟩ := hstr
      cases hs : dateShaped s with
      | true => exact importValue_date hf hv hs
      | false => exact importValue_other hf hv hs
    · have hs : ∀ s, v ≠ .str s := fun s he => hstr ⟨s, he⟩
      refine iff_of_true (importValue_plain hv hnull hs) ?_
      unfold Survives
      split
      · exact absurd rfl (hs _)
      · exact absurd rfl hnull
      · exact absurd rfl (hs _)
      · trivial

/-- A record by its columns. -/
theorem record_eq {r : Record} {names : List String} (hn : names.Nodup) (h : r.map Prod.fst = names) :
    r = names.map fun k => (k, r.get k) := by
  induction r generalizing names with
  | nil =>
    subst h
    rfl
  | cons kv r ih =>
    obtain ⟨k, v⟩ := kv
    subst h
    rw [List.map_cons, List.nodup_cons] at hn
    obtain ⟨hk, hn⟩ := hn
    rw [List.map_cons, List.map_cons, Record.get_cons, if_pos rfl]
    refine congrArg _ ((ih hn rfl).trans ?_)
    refine List.map_congr_left ?_
    intro k' hk'
    have hne : k ≠ k' := (ne_of_mem_of_not_mem hk' hk).symm
    rw [Record.get_cons, if_neg hne]

theorem record_fields {r : Record} (hr : Fits m r) : r = m.fields.map fun f => (f.name, r.get f.name) := by
  have h := record_eq (names_nodup m (Model.mem_all m)) hr.1
  rwa [List.map_map] at h

theorem get?_of_mem {r : Record} {k : String} (h : k ∈ r.map Prod.fst) : (Json.obj r).get? k = some (r.get k) := by
  unfold Record.get
  cases hk : (Json.obj r).get? k with
  | some v => rfl
  | none =>
    simp only [Json.get?, Option.map_eq_none_iff, List.find?_eq_none, decide_eq_true_eq] at hk
    obtain ⟨kv, hkv, hfst⟩ := List.mem_map.1 h
    exact absurd hfst (hk kv hkv)

theorem importRecord_iff {r : Record} (hr : Fits m r) :
    importRecord W E m (.obj r) = some r ↔ ∀ f ∈ m.fields, Survives W E m f (r.get f.name) := by
  have hrecord := record_fields hr
  obtain ⟨hnames, hadmits⟩ := hr
  have hknown : (r.all fun kv => (m.fields.map ModelField.name).contains kv.1) = true := by
    refine List.all_eq_true.2 ?_
    intro kv hkv
    rw [← hnames]
    exact List.contains_iff_mem.2 (List.mem_map_of_mem hkv)
  have hfield : ∀ f ∈ m.fields, importField W E m r f = (importValue W E m f (r.get f.name)).map (f.name, ·) := by
    intro f hf
    have hmem : f.name ∈ r.map Prod.fst := by
      rw [hnames]
      exact List.mem_map_of_mem hf
    rw [importField, get?_of_mem hmem]
  have hmapM : importRecord W E m (.obj r) = some r ↔
      ∀ f ∈ m.fields, importField W E m r f = some (f.name, r.get f.name) := by
    have hiff := @mapM_some_map _ _ (importField W E m r) (fun f : ModelField => (f.name, r.get f.name)) m.fields
    rw [← hrecord] at hiff
    rw [importRecord, if_pos hknown]
    exact hiff
  rw [hmapM]
  refine forall₂_congr ?_
  intro f hf
  rw [hfield f hf, ← importValue_iff hf (hadmits f hf), Option.map_eq_some_iff]
  constructor
  · intro ⟨v, hv, he⟩
    rw [hv, (Prod.mk.inj he).2]
  · intro hv
    exact ⟨_, hv, rfl⟩

/-! ## The backup of a state -/

theorem get?_members {α : Type} {key : α → String} (f : α → Json) {xs : List α} (rest : List (String × Json))
    (hn : (xs.map key).Nodup) {x : α} (hx : x ∈ xs) :
    (Json.obj (xs.map (fun x => (key x, f x)) ++ rest)).get? (key x) = some (f x) := by
  induction xs with
  | nil => cases hx
  | cons y xs ih =>
    rw [List.map_cons, List.nodup_cons] at hn
    by_cases hxy : x = y
    · subst hxy
      simp [Json.get?]
    · have hx := List.mem_of_ne_of_mem hxy hx
      have hne : key y ≠ key x := (ne_of_mem_of_not_mem (List.mem_map_of_mem hx) hn.1).symm
      have hrest := ih hn.2 hx
      simp only [Json.get?, List.map_cons, List.cons_append, List.find?_cons, decide_eq_false hne] at hrest ⊢
      exact hrest

theorem backupData_rows {now : String} {db : Rows Model} (hm : m ∈ BACKUP_MODELS) :
    (backupData now db).get? m.name = some (rowsJson (db m)) :=
  get?_members (fun m => rowsJson (db m)) _ (by decide) hm

theorem importRows_backup {now : String} {db : Rows Model} (hm : m ∈ BACKUP_MODELS) :
    importRows W E (backupData now db) m = (db m).mapM fun r => importRecord W E m (.obj r) := by
  rw [importRows, backupData_rows hm, rowsJson]
  exact List.mapM_map

end Import

end ClusterGate
