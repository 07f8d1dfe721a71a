/-
  ClusterGate.Backup.Download — what a downloaded backup tells (`services/backupService.ts`:
  `sanitizeBackupForDownload`, `downloadBackup`).

  A download is the backup as it was taken, less four columns of the users and the API
  keys. The tokens of invites are not among them, and an invite that is not used yet is
  all it takes to have an account with its role.
  - `SameButLogins`: two states that differ in nothing but what one logs in with.
  - `downloaded_rows`: the tables of a download, redacted row by row.
  - `downloads_same_iff`: downloads from two such states are the same text exactly if the
    unused invites have the same tokens.
  - `a_download_tells_an_invite`: two states that differ in one token.
-/

import ClusterGate.Backup.RoundTrip

namespace ClusterGate

open Lib Act

/-! ## States that differ in credentials only -/

def loginSecrets : Model → List String
  | .user => ["passwordHash", "twoFactorSecret", "recoveryCodes"]
  | .apiKey => ["keyHash"]
  | .inviteToken => ["token"]
  | _ => []

/-- The column of the row is something to log in with; of an invite, while it is not used. -/
def LoginSecret (m : Model) (r : Record) (column : String) : Prop :=
  column ∈ loginSecrets m ∧ (m = .inviteToken → r.get "usedAt" = .null)

def RowsAlike (m : Model) (r r' : Record) : Prop :=
  ∀ k, r.get k = r'.get k ∨ (LoginSecret m r k ∧ r.get k ≠ .null ∧ r'.get k ≠ .null)

/-- Row by row the same, but for credentials that are there in both. -/
def SameButLogins (s s' : Rows Model) : Prop := ∀ m, List.Forall₂ (RowsAlike m) (s m) (s' m)

/-- The tokens of the invites that are not used. -/
def unusedTokens (s : Rows Model) : List Json :=
  ((s .inviteToken).filter fun r => r.get "usedAt" = .null).map fun r => r.get "token"

/-! ## The tables of a download -/

/-- The columns that a download redacts. -/
def redactedFields (m : Model) : List String :=
  ((DOWNLOAD_REDACTED_FIELDS.find? fun p => p.1 = m.name).map Prod.snd).getD []

def redactRow (fields : List String) (r : Record) : Record :=
  r.map fun kv => if kv.1 ∈ fields then (kv.1, redactValue kv.2) else kv

/-- What a download says of a state. -/
def downloaded (now : String) (s : Rows Model) : Json :=
  .obj (BACKUP_MODELS.map (fun m => (m.name, rowsJson ((s m).map (redactRow (redactedFields m))))) ++
    [("_meta", backupMetaJson now)])

variable {E : Client} {now : String} {m : Model} {r r' : Record} {s s' t t' : Rows Model}

theorem redactRow_none (r : Record) : redactRow [] r = r := by
  simp [redactRow]

theorem redactMember_rows (m : Model) (rows : List Record) :
    redactMember (m.name, rowsJson rows) = (m.name, rowsJson (rows.map (redactRow (redactedFields m)))) := by
  unfold redactMember redactedFields
  cases DOWNLOAD_REDACTED_FIELDS.find? fun p => p.1 = m.name with
  | none =>
    have hrows : rows.map (redactRow []) = rows := List.map_id'' redactRow_none rows
    simp [hrows]
  | some p =>
    obtain ⟨k, fields⟩ := p
    simp [rowsJson, redactRecord, redactRow]

theorem downloaded_rows (now : String) (s : Rows Model) : sanitizeBackupForDownload (backupData now s) = downloaded now s := by
  have hmeta : redactMember ("_meta", backupMetaJson now) = ("_meta", backupMetaJson now) := rfl
  rw [backupData, sanitizeBackupForDownload, List.map_append, List.map_map, List.map_singleton, hmeta, downloaded]
  simp [redactMember_rows]

/-! ## Rows that are alike -/

theorem row_ext (hr : Fits m r) (hr' : Fits m r') (h : ∀ k, r.get k = r'.get k) : r = r' := by
  rw [record_fields hr, record_fields hr']
  refine List.map_congr_left ?_
  intro f _
  rw [h f.name]

/-- A redacted row, column by column. -/
theorem redactRow_eq (hr : Fits m r) (fields : List String) : redactRow fields r =
    m.fields.map fun f => (f.name, if f.name ∈ fields then redactValue (r.get f.name) else r.get f.name) := by
  have hrow : redactRow fields r = redactRow fields (m.fields.map fun f => (f.name, r.get f.name)) :=
    congrArg (redactRow fields) (record_fields hr)
  rw [hrow, redactRow, List.map_map]
  refine List.map_congr_left ?_
  intro f _
  dsimp only [Function.comp_apply]
  split <;> rfl

/-- Values of one column that are there look the same once redacted. -/
theorem redactValue_same {f : ModelField} {v v' : Json} (hf : f.type ≠ .plain .json) (hv : f.admits v = true)
    (hv' : f.admits v' = true) (hn : v ≠ .null) (hn' : v' ≠ .null) : redactValue v = redactValue v' := by
  have hv := admits_typed hv hn
  have hv' := admits_typed hv' hn'
  have hlist : ∀ {w : Json} {t : FieldType}, (t = .plain .strings ∨ ∃ values, t = .enums values) → t.admits w = true →
      redactValue w = .arr [] := by
    intro w t ht h
    cases w with
    | arr xs => rfl
    | _ =>
      rcases ht with rfl | ⟨values, rfl⟩
      · cases h
      · cases h
  have hother : ∀ {w : Json} {t : FieldType}, t ≠ .plain .strings → t ≠ .plain .json → (∀ values, t ≠ .enums values) →
      t.admits w = true → redactValue w = .str "[REDACTED]" := by
    intro w t h₁ h₂ h₃ h
    cases w with
    | null =>
      rw [admits_null] at h
      cases h
    | arr xs =>
      cases t with
      | plain t =>
        cases t with
        | strings => exact absurd rfl h₁
        | json => exact absurd rfl h₂
        | _ => cases h
      | float => cases h
      | enums values => exact absurd rfl (h₃ values)
    | _ => rfl
  by_cases hl : f.type = .plain .strings ∨ ∃ values, f.type = .enums values
  · rw [hlist hl hv, hlist hl hv']
  · obtain ⟨h₁, h₂⟩ := not_or.1 hl
    have h₂ : ∀ values, f.type ≠ .enums values := fun values h => h₂ ⟨values, h⟩
    rw [hother h₁ hf h₂ hv, hother h₁ hf h₂ hv']

/-- What one logs in with is redacted, but for the tokens. -/
theorem secrets_redacted : ∀ m ∈ Model.all, m ≠ .inviteToken → ∀ f ∈ m.fields, f.name ∈ loginSecrets m →
    f.name ∈ redactedFields m ∧ f.type ≠ .plain .json := by
  decide +kernel

/-- Rows of another table that are alike are downloaded as the same. -/
theorem redactRow_same (hm : m ≠ .inviteToken) (hr : Fits m r) (hr' : Fits m r') (h : RowsAlike m r r') :
    redactRow (redactedFields m) r = redactRow (redactedFields m) r' := by
  rw [redactRow_eq hr, redactRow_eq hr']
  refine List.map_congr_left ?_
  intro f hf
  rcases h f.name with hsame | ⟨⟨hsecret, -⟩, hn, hn'⟩
  · rw [hsame]
  · obtain ⟨hredacted, hjson⟩ := secrets_redacted m (Model.mem_all m) hm f hf hsecret
    rw [if_pos hredacted, if_pos hredacted, redactValue_same hjson (hr.2 f hf) (hr'.2 f hf) hn hn']

theorem row_shape (hr : Fits m r) : (Json.obj r).shape = .obj (m.fields.map fun f => (f.name, (r.get f.name).shape)) := by
  have hrow : (Json.obj r).shape = (Json.obj (m.fields.map fun f => (f.name, r.get f.name))).shape :=
    congrArg (fun r => (Json.obj r).shape) (record_fields hr)
  rw [hrow, Json.shape, Json.memberShapes_map, List.map_map]
  rfl

theorem tokens_are_texts : ∀ f ∈ Model.inviteToken.fields, f.name ∈ loginSecrets .inviteToken → f.type = .plain .string := by
  decide

theorem text_shape {f : ModelField} {v : Json} (ht : f.type = .plain .string) (hv : f.admits v = true) (hn : v ≠ .null) :
    v.shape = .str "" := by
  have hv := admits_typed hv hn
  rw [ht] at hv
  obtain ⟨s, rfl⟩ := Json.isStr_iff.1 hv
  rfl

/-- Invites that are alike are of one shape. -/
theorem invite_shape (hr : Fits .inviteToken r) (hr' : Fits .inviteToken r') (h : RowsAlike .inviteToken r r') :
    (Json.obj r).shape = (Json.obj r').shape := by
  rw [row_shape hr, row_shape hr']
  refine congrArg Json.obj (List.map_congr_left ?_)
  intro f hf
  rcases h f.name with hsame | ⟨⟨hsecret, -⟩, hn, hn'⟩
  · rw [hsame]
  · have ht := tokens_are_texts f hf hsecret
    rw [text_shape ht (hr.2 f hf) hn, text_shape ht (hr'.2 f hf) hn']

/-! ## Downloads of states that are alike -/

theorem map_same {α β : Type} {R : α → α → Prop} {f : α → β} {xs ys : List α} (h : List.Forall₂ R xs ys)
    (hf : ∀ x ∈ xs, ∀ y ∈ ys, R x y → f x = f y) : xs.map f = ys.map f := by
  induction h with
  | nil => rfl
  | cons hxy hrest ih =>
    rw [List.map_cons, List.map_cons, hf _ List.mem_cons_self _ List.mem_cons_self hxy,
      ih fun x hx y hy => hf x (List.mem_cons_of_mem _ hx) y (List.mem_cons_of_mem _ hy)]

/-- The invites are the same, if the tokens of those that are not used are. -/
theorem invites_same {rows rows' : List Record} (hr : ∀ r ∈ rows, Fits .inviteToken r)
    (hr' : ∀ r ∈ rows', Fits .inviteToken r) (h : List.Forall₂ (RowsAlike .inviteToken) rows rows')
    (ht : (rows.filter fun r => r.get "usedAt" = .null).map (Record.get · "token") =
      (rows'.filter fun r => r.get "usedAt" = .null).map (Record.get · "token")) : rows = rows' := by
  induction h with
  | nil => rfl
  | @cons r r' rows rows' hrow hrest ih =>
    have hother : ∀ k, k ≠ "token" → r.get k = r'.get k := by
      intro k hk
      rcases hrow k with hsame | ⟨⟨hsecret, -⟩, -, -⟩
      · exact hsame
      · exact absurd (List.mem_singleton.1 hsecret) hk
    have hused := hother "usedAt" (by decide)
    have hhead : r.get "token" = r'.get "token" ∧ (rows.filter fun r => r.get "usedAt" = .null).map (Record.get · "token") =
        (rows'.filter fun r => r.get "usedAt" = .null).map (Record.get · "token") := by
      by_cases hnull : r.get "usedAt" = .null
      · have hnull' : r'.get "usedAt" = .null := hused ▸ hnull
        simp only [List.filter_cons, hnull, hnull', decide_true, if_true, List.map_cons] at ht
        exact List.cons.inj ht
      · have hnull' : r'.get "usedAt" ≠ .null := hused ▸ hnull
        simp only [List.filter_cons, hnull, hnull', decide_false, Bool.false_eq_true, if_false] at ht
        refine ⟨?_, ht⟩
        rcases hrow "token" with hsame | ⟨⟨-, hunused⟩, -, -⟩
        · exact hsame
        · exact absurd (hunused rfl) hnull
    have hall : ∀ k, r.get k = r'.get k := by
      intro k
      by_cases hk : k = "token"
      · rw [hk]
        exact hhead.1
      · exact hother k hk
    rw [row_ext (hr r List.mem_cons_self) (hr' r' List.mem_cons_self) hall,
      ih (fun x hx => hr x (List.mem_cons_of_mem _ hx)) (fun x hx => hr' x (List.mem_cons_of_mem _ hx)) hhead.2]

/-- The redacted rows of every table but that of the invites are the same. -/
theorem tables_same (hs : WellFormed s) (hs' : WellFormed s') (h : SameButLogins s s') (hm : m ≠ .inviteToken) :
    (s m).map (redactRow (redactedFields m)) = (s' m).map (redactRow (redactedFields m)) :=
  map_same (h m) fun r hr r' hr' => redactRow_same hm (hs.fits m r hr) (hs'.fits m r' hr')

/-- Those of the invites are not redacted. -/
theorem invites_clear (rows : List Record) : rows.map (redactRow (redactedFields .inviteToken)) = rows := by
  have hfields : redactedFields .inviteToken = [] := by decide
  rw [hfields]
  exact List.map_id'' redactRow_none rows

theorem rowsJson_shape (rows : List Record) : (rowsJson rows).shape = .arr (rows.map fun r => (Json.obj r).shape) := by
  rw [rowsJson, Json.shape, Json.shapes_map, List.map_map]
  rfl

/-- Downloads of states that are alike are of one shape. -/
theorem downloaded_shape (hs : WellFormed s) (hs' : WellFormed s') (h : SameButLogins s s') :
    (downloaded now s).shape = (downloaded now s').shape := by
  rw [downloaded, downloaded, Json.shape, Json.shape, Json.memberShapes_map, Json.memberShapes_map, List.map_append,
    List.map_append, List.map_map, List.map_map]
  refine congrArg (fun members => Json.obj (members ++ _)) (List.map_congr_left ?_)
  intro m _
  refine congrArg (Prod.mk m.name) ?_
  show (rowsJson ((s m).map _)).shape = (rowsJson ((s' m).map _)).shape
  by_cases hm : m = .inviteToken
  · subst hm
    have hrows : (s .inviteToken).map (fun r => (Json.obj r).shape) = (s' .inviteToken).map fun r => (Json.obj r).shape :=
      map_same (h .inviteToken) fun r hr r' hr' => invite_shape (hs.fits _ r hr) (hs'.fits _ r' hr')
    rw [invites_clear, invites_clear, rowsJson_shape, rowsJson_shape, hrows]
  · rw [tables_same hs hs' h hm]

theorem downloaded_same_iff (hs : WellFormed s) (hs' : WellFormed s') (h : SameButLogins s s') :
    downloaded now s = downloaded now s' ↔ unusedTokens s = unusedTokens s' := by
  constructor
  · intro he
    have hinvites : ∀ s : Rows Model, (downloaded now s).get? Model.inviteToken.name = some (rowsJson (s .inviteToken)) := by
      intro s
      have hget := @get?_members _ Model.name (fun m => rowsJson ((s m).map (redactRow (redactedFields m)))) BACKUP_MODELS
        [("_meta", backupMetaJson now)] (by decide) .inviteToken (by decide)
      rw [invites_clear] at hget
      exact hget
    have hrows := (hinvites s).symm.trans ((congrArg (Json.get? · Model.inviteToken.name) he).trans (hinvites s'))
    have hmap : (s .inviteToken).map Json.obj = (s' .inviteToken).map Json.obj := Json.arr.inj (Option.some.inj hrows)
    have hsame := List.map_injective_iff.2 (fun _ _ => Json.obj.inj) hmap
    rw [unusedTokens, unusedTokens, hsame]
  · intro htokens
    have hsame := invites_same (hs.fits .inviteToken) (hs'.fits .inviteToken) (h .inviteToken) htokens
    rw [downloaded, downloaded]
    refine congrArg (fun members => Json.obj (members ++ _)) (List.map_congr_left ?_)
    intro m _
    by_cases hm : m = .inviteToken
    · rw [hm, hsame]
    · rw [tables_same hs hs' h hm]

/-! ## The endpoint -/

theorem downloadBackup_found {filename : String} {row : Record} (hname : validFilename filename = true)
    (hrow : findBackup filename t = some row) : (downloadBackup E filename t).1 =
      .ok (Json.stringify E.numeral [' ', ' '] (sanitizeBackupForDownload (row.get "data"))) := by
  unfold downloadBackup
  rw [require_bind hname]
  show ((orThrow (findBackup filename t) _ >>= _ : Act (Rows Model) Err String) t).1 = _
  rw [hrow]
  rfl

/-- What the download of a backup says. -/
theorem downloadBackup_text {id createdAt : String} {tags : List String} {note : Option String} {made : BackupMeta}
    {s₁ : Rows Model} (hnow : isoDateTime now = true) (hmade : createBackup E now id createdAt tags note s = (.ok made, s₁))
    (hheld : findBackup made.filename t = findBackup made.filename s₁) :
    (downloadBackup E made.filename t).1 = .ok (Json.stringify E.numeral [' ', ' '] (downloaded now s)) := by
  obtain ⟨row, hrow, hdata⟩ := createBackup_found hmade
  rw [downloadBackup_found (createBackup_valid hnow hmade) (hheld.trans hrow), hdata, downloaded_rows]

/-- Downloads of backups taken at one time from two states that are alike. -/
theorem downloads_same_iff (E : Client) {now id id' createdAt createdAt' : String} {tags tags' : List String}
    {note note' : Option String} {made made' : BackupMeta} {s s' s₁ s₁' t t' : Rows Model} (hnow : isoDateTime now = true)
    (hs : WellFormed s) (hs' : WellFormed s') (halike : SameButLogins s s')
    (hmade : createBackup E now id createdAt tags note s = (.ok made, s₁))
    (hmade' : createBackup E now id' createdAt' tags' note' s' = (.ok made', s₁'))
    (hheld : findBackup made.filename t = findBackup made.filename s₁)
    (hheld' : findBackup made'.filename t' = findBackup made'.filename s₁') :
    (downloadBackup E made.filename t).1 = (downloadBackup E made'.filename t').1 ↔ unusedTokens s = unusedTokens s' := by
  rw [downloadBackup_text hnow hmade hheld, downloadBackup_text hnow hmade' hheld',
    ← @downloaded_same_iff now s s' hs hs' halike]
  constructor
  · intro he
    exact Json.stringify_inj (downloaded_shape hs hs' halike) (Except.ok.inj he)
  · intro he
    rw [he]

/-! ### An invite -/

/-- A user, and an invite of theirs that is not used. -/
def invited (passwordHash token : String) : Rows Model
  | .user => [[("id", .str "u"), ("email", .str "a@b.c"), ("passwordHash", .str passwordHash), ("name", .str "A"),
      ("role", .str "ADMIN"), ("isActive", .bool true), ("twoFactorSecret", .null), ("twoFactorEnabled", .bool false),
      ("recoveryCodes", .arr []), ("twoFactorChallenge", .null), ("twoFactorFailedAttempts", .num 0),
      ("twoFactorLockedUntil", .null), ("tokenVersion", .num 0), ("lastLoginAt", .null), ("createdAt", .str NEW_YEAR),
      ("updatedAt", .str NEW_YEAR)]]
  | .inviteToken => [[("id", .str "i"), ("email", .str "d@e.f"), ("role", .str "ADMIN"), ("token", .str token),
      ("expiresAt", .str "2026-01-03T00:00:00.000Z"), ("usedAt", .null), ("createdById", .str "u"),
      ("createdAt", .str NEW_YEAR)]]
  | _ => []

theorem invited_alike (passwordHash passwordHash' token token' : String) :
    SameButLogins (invited passwordHash token) (invited passwordHash' token') := by
  intro m
  cases m with
  | user =>
    refine List.Forall₂.cons ?_ List.Forall₂.nil
    intro k
    by_cases hk : "passwordHash" = k
    · subst hk
      exact .inr ⟨⟨List.mem_cons_self, fun h => by cases h⟩, by simp [Record.get_cons], by simp [Record.get_cons]⟩
    · refine .inl ?_
      simp only [Record.get_cons, if_neg hk]
  | inviteToken =>
    refine List.Forall₂.cons ?_ List.Forall₂.nil
    intro k
    by_cases hk : "token" = k
    · subst hk
      exact .inr ⟨⟨List.mem_cons_self, fun _ => rfl⟩, by simp [Record.get_cons], by simp [Record.get_cons]⟩
    · refine .inl ?_
      simp only [Record.get_cons, if_neg hk]
  | _ => exact List.Forall₂.nil

def invitedBackup (passwordHash token : String) : BackupMeta × Rows Model :=
  (⟨"clustergate_backup_2026-01-01_00-00-00.json",
    (Json.stringify Client.plain.numeral [] (backupData NEW_YEAR (invited passwordHash token))).utf8ByteSize, [], none,
    NEW_YEAR⟩,
    (createBackup Client.plain NEW_YEAR "b" NEW_YEAR [] none (invited passwordHash token)).2)

theorem invitedBackup_made (passwordHash token : String) :
    createBackup Client.plain NEW_YEAR "b" NEW_YEAR [] none (invited passwordHash token) =
      (.ok (invitedBackup passwordHash token).1, (invitedBackup passwordHash token).2) := by
  rfl

/-- Another password hash is not seen. -/
theorem downloads_same_redacted :
    (downloadBackup Client.plain (invitedBackup "$2b$12$x" "4f").1.filename (invitedBackup "$2b$12$x" "4f").2).1 =
      (downloadBackup Client.plain (invitedBackup "$2b$12$y" "4f").1.filename (invitedBackup "$2b$12$y" "4f").2).1 :=
  (downloads_same_iff Client.plain (by decide +kernel) (by decide +kernel) (by decide +kernel)
    (invited_alike "$2b$12$x" "$2b$12$y" "4f" "4f") (invitedBackup_made "$2b$12$x" "4f") (invitedBackup_made "$2b$12$y" "4f")
    rfl rfl).2 rfl

/-- Another token is. -/
theorem a_download_tells_an_invite :
    WellFormed (invited "$2b$12$x" "4f") ∧ WellFormed (invited "$2b$12$x" "7a") ∧
      SameButLogins (invited "$2b$12$x" "4f") (invited "$2b$12$x" "7a") ∧
      (downloadBackup Client.plain (invitedBackup "$2b$12$x" "4f").1.filename (invitedBackup "$2b$12$x" "4f").2).1 ≠
        (downloadBackup Client.plain (invitedBackup "$2b$12$x" "7a").1.filename (invitedBackup "$2b$12$x" "7a").2).1 := by
  refine ⟨by decide +kernel, by decide +kernel, invited_alike "$2b$12$x" "$2b$12$x" "4f" "7a", ?_⟩
  rw [downloadBackup_text (by decide +kernel) (invitedBackup_made "$2b$12$x" "4f") rfl,
    downloadBackup_text (by decide +kernel) (invitedBackup_made "$2b$12$x" "7a") rfl]
  intro he
  have hchars := String.ofList_inj.1 (Except.ok.inj he)
  revert hchars
  decide +kernel

end ClusterGate
