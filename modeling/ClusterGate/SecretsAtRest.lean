/-
  ClusterGate.SecretsAtRest — what the store holds of a route's three secrets.

  A secret is meant to be held as nothing, as the empty text, or as an envelope
  `encryptSecret` made of a text, never as a client sent it and never as the mask a read
  shows instead (`AtRest`). The writers seal what comes in, but for a text that starts with
  the prefix of an envelope, which they take for one; copies and versions are made of rows,
  so they hold what rows hold. An approval writes its payload's `authValue` past the
  writers, as the database takes it.
  - `secrets_sealed`: on every run whose bodies send no text that only looks sealed, and
    whose approvals write only values at rest, every route and every version holds its
    secrets at rest.
  - `an_approval_stores_a_password`, `a_create_stores_a_password`: what any other leaves.
-/

import ClusterGate.StoredValidity

namespace ClusterGate

open Lib Lib.Act Lib.Base64 Lib.Table Lib.Zod

/-- What `encryptSecret` returns for a text it encrypts. -/
def Sealed (W : World) (v : Json) : Prop := ∃ (nonce : Nonce) (plain : String),
  plain ≠ "" ∧ Text.startsWith plain SECRET_PREFIX = false ∧ v = encryptSecret W nonce (.str plain)

/-- A secret as the store is meant to hold it: no mask, and no text in clear. -/
structure AtRest (W : World) (v : Json) : Prop where
  value : v = .null ∨ v = .str "" ∨ Sealed W v
  noMask : v ≠ MASK
  noPlaintext : ∀ p, p ≠ "" → Text.startsWith p SECRET_PREFIX = false → v ≠ .str p

theorem atRest_null (W : World) : AtRest W .null := ⟨.inl rfl, by decide, fun _ _ _ e => by cases e⟩

theorem atRest_empty (W : World) : AtRest W (.str "") :=
  ⟨.inr (.inl rfl), by decide, fun _ hne _ e => hne (Json.str.inj e).symm⟩

/-- An envelope is a text that starts with the prefix. -/
theorem Sealed.prefixed {W : World} {v : Json} (h : Sealed W v) :
    ∃ text, v = .str text ∧ Text.startsWith text SECRET_PREFIX = true := by
  obtain ⟨nonce, plain, hne, hp, rfl⟩ := h
  exact ⟨_, encryptSecret_sealed W nonce hne hp, startsWith_prefixed _⟩

theorem Sealed.atRest {W : World} {v : Json} (h : Sealed W v) : AtRest W v := by
  obtain ⟨text, rfl, htext⟩ := h.prefixed
  refine ⟨.inr (.inr h), ?_, ?_⟩
  · intro hm
    rw [Json.str.inj hm] at htext
    exact absurd htext (by decide +kernel)
  · intro p _ hp he
    rw [Json.str.inj he, hp] at htext
    cases htext

/-- What a writer may be given for a secret: null, or a text that is sealed if it looks so. -/
def Sealable (W : World) (v : Json) : Prop :=
  v = .null ∨ ∃ p, v = .str p ∧ (Text.startsWith p SECRET_PREFIX = true → Sealed W v)

/-- Such a value is at rest once it is sealed. -/
theorem Sealable.atRest {W : World} {v : Json} (h : Sealable W v) (nonce : Nonce) : AtRest W (encryptSecret W nonce v) := by
  rcases h with rfl | ⟨p, rfl, hp⟩
  · exact atRest_null W
  · by_cases hne : p = ""
    · rw [hne, encryptSecret, if_pos (.inl rfl)]
      exact atRest_empty W
    · cases hs : Text.startsWith p SECRET_PREFIX with
      | true =>
        rw [encryptSecret_prefixed W nonce hs]
        exact (hp hs).atRest
      | false => exact Sealed.atRest ⟨nonce, p, hne, hs, rfl⟩

/-- What is at rest may be given to a writer again. -/
theorem AtRest.sealable {W : World} {v : Json} (h : AtRest W v) : Sealable W v := by
  rcases h.value with rfl | rfl | hs
  · exact .inl rfl
  · exact .inr ⟨"", rfl, fun hp => absurd hp (by decide)⟩
  · obtain ⟨text, rfl, -⟩ := hs.prefixed
    exact .inr ⟨text, rfl, fun _ => hs⟩

/-! ## Bodies -/

/-- What the schemas take for a secret. -/
def secretLeaf (c : Column) : Leaf := if c = .webhookSecret then string [] else union (string []) basicCredentials

theorem secret_schema (W : World) {c : Column} (hc : c ∈ secretColumns) :
    routeBodySchema W c = some (.optional (.leaf (secretLeaf c))) ∧
      partialUpdate (routeBodySchema W) c = some (.optional (.leaf (secretLeaf c))) := by
  simp only [secretColumns, List.mem_cons, List.not_mem_nil, or_false] at hc
  rcases hc with rfl | rfl | rfl <;> exact ⟨rfl, rfl⟩

/-- A credential that comes as a name and a password is a text once it is encoded. -/
theorem secret_encoded (W : World) {c : Column} {x v : Json} (hc : c ∈ secretColumns) (h : secretLeaf c x = .ok v) :
    ∃ p, encodeBasicAuth W c v = .str p := by
  have text : ∀ s, encodeBasicAuth W c (.str s) = .str s := by
    intro s
    unfold encodeBasicAuth
    split <;> rfl
  have ofString : string [] x = .ok v → ∃ p, encodeBasicAuth W c v = .str p := by
    intro hs
    obtain ⟨s, -, rfl, -⟩ := string_ok hs
    exact ⟨s, text s⟩
  by_cases hw : c = .webhookSecret
  · rw [secretLeaf, if_pos hw] at h
    exact ofString h
  · rw [secretLeaf, if_neg hw, union] at h
    split at h
    · rename_i w hs
      injection h with h
      rw [h] at hs
      exact ofString hs
    · split at h
      · rename_i w hb
        injection h with h
        obtain ⟨-, -, a, b, -, -, rfl⟩ := object_two_ok hb
        rw [← h]
        have basic : c = .authValue ∨ c = .upstreamAuthValue := by
          simp only [secretColumns, List.mem_cons, List.not_mem_nil, or_false] at hc
          rcases hc with hc | hc | hc
          · exact .inl hc
          · exact .inr hc
          · exact absurd hc hw
        rw [encodeBasicAuth, if_pos basic]
        exact ⟨_, rfl⟩
      · cases h

/-- A body's secrets are texts. -/
theorem secret_text {W : World} {schema : Shape Column} {body : Json} {data : Patch} {c : Column} {v : Json}
    (hd : routeData W schema body = .ok data) (hc : c ∈ secretColumns)
    (hs : schema c = some (.optional (.leaf (secretLeaf c)))) (hv : data c = some v) : ∃ p, v = .str p := by
  obtain ⟨members, out, hp, rfl⟩ := routeData_ok hd
  have field : c ∈ routeBodyFields := by
    simp only [secretColumns, List.mem_cons, List.not_mem_nil, or_false] at hc
    rcases hc with rfl | rfl | rfl <;> decide
  have hf := parseObject_ok hp field
  rw [parseField, hs] at hf
  obtain ⟨x, hx, rfl⟩ := Option.map_eq_some_iff.1 hv
  rw [hx] at hf
  cases hm : members c with
  | none =>
    rw [hm] at hf
    cases hf
  | some y =>
    rw [hm] at hf
    change (secretLeaf c y).map some = _ at hf
    cases hy : secretLeaf c y with
    | error e =>
      rw [hy] at hf
      cases hf
    | ok w =>
      rw [hy] at hf
      injection hf with hf
      injection hf with hf
      rw [hf] at hy
      exact secret_encoded W hc hy

/-! ## The rows a request writes -/

section Rows

variable {W : World} {s : Store} {d : Draw} {id userId : String} {r r' : Row} {data : Patch} {c : Column}

/-- A row whose secrets are at rest. -/
def RowAtRest (W : World) (r : Row) : Prop := ∀ c ∈ secretColumns, AtRest W (r.val c)

/-- Data whose secrets a writer may be given. -/
def SealableSecrets (W : World) (data : Patch) : Prop := ∀ c ∈ secretColumns, ∀ v, data c = some v → Sealable W v

theorem secret_ne (hc : c ∈ secretColumns) :
    c ≠ .slug ∧ c ≠ .createdById ∧ c ≠ .updatedById ∧ c ≠ .createdAt ∧ c ≠ .updatedAt ∧ c ≠ .targetUrl ∧ c ≠ .version ∧
      c ∉ LIFECYCLE ∧ c ∉ OWN_OF_DUPLICATE ∧ c.default = some .null := by
  simp only [secretColumns, List.mem_cons, List.not_mem_nil, or_false] at hc
  rcases hc with rfl | rfl | rfl <;> decide

theorem secret_coerce (hc : c ∈ secretColumns) (v : Json) : c.coerce v = v := by
  simp only [secretColumns, List.mem_cons, List.not_mem_nil, or_false] at hc
  rcases hc with rfl | rfl | rfl <;> exact ColType.coerce_of_ne (by decide) v

theorem CreatedRow.atRest (h : CreatedRow W s d data userId r') (hp : SealableSecrets W data) : RowAtRest W r' := by
  intro c hc
  obtain ⟨-, -, t, hr⟩ := h
  obtain ⟨hslug, hcb, hub, hca, hua, ht, -, -, -, hdef⟩ := secret_ne hc
  have stored : stamped d.now ((createData W t d data userId).set .createdAt (.str d.now)) c =
      (data c).map (encryptSecret W (d.nonce c)) := by
    rw [stamped_ne hua, Patch.set_ne _ _ hca, createData_ne hslug hcb hub, sealSecrets, if_pos hc, withTarget, if_neg ht]
  cases hv : data c with
  | none =>
    have hdefault := create_default hr (stored.trans (by rw [hv]; rfl))
    rw [hdef, Option.some.injEq] at hdefault
    rw [← hdefault]
    exact atRest_null W
  | some v =>
    rw [create_given hr (stored.trans (by rw [hv]; rfl)) (secret_coerce hc _)]
    exact (hp c hc v hv).atRest _

theorem UpdatedRow.atRest (h : UpdatedRow W s d id data userId r r') (hr : RowAtRest W r) (hp : SealableSecrets W data) :
    RowAtRest W r' := by
  intro c hc
  obtain ⟨hslug, -, hub, -, hua, ht, hver, -, -, -⟩ := secret_ne hc
  have patch : updatePatch r (updateData W s d id r data) userId c =
      (if data c = some MASK then none else data c).map (encryptSecret W (d.nonce c)) := by
    rw [updatePatch_ne hver hub, updateData, sealSecrets, if_pos hc]
    refine congrArg _ ?_
    have inner : (if ((withSlug W s id r data .targetUrl).getD .null).truthy then withTarget (withSlug W s id r data)
        else withSlug W s id r data) c = data c := by
      split
      · rw [withTarget, if_neg ht, withSlug_ne hslug]
      · exact withSlug_ne hslug
    simp only [dropMasked, hc, true_and]
    rw [inner]
  cases hv : data c with
  | none =>
    rw [hv, if_neg (by simp)] at patch
    rw [h.2.2.same patch hua]
    exact hr c hc
  | some v =>
    rw [hv] at patch
    by_cases hm : some v = some MASK
    · rw [if_pos hm] at patch
      rw [h.2.2.same patch hua]
      exact hr c hc
    · rw [if_neg hm] at patch
      have written := h.2.2.field patch hua
      have fixed : isFixed (encryptSecret W (d.nonce c) v) = true := by
        rcases hp c hc v hv with rfl | ⟨p, rfl, -⟩
        · rfl
        · obtain ⟨text, htext⟩ := encryptSecret_text W (d.nonce c) p
          rw [htext]
          rfl
      rw [writeField_value fixed written]
      exact (hp c hc v hv).atRest _

theorem DuplicateOf.atRest (h : DuplicateOf s d userId r r') (hr : RowAtRest W r) : RowAtRest W r' := by
  intro c hc
  rw [h.copied (secret_ne hc).2.2.2.2.2.2.2.2.1]
  exact hr c hc

theorem LifecycleChange.atRest (h : LifecycleChange r r') (hr : RowAtRest W r) : RowAtRest W r' := by
  intro c hc
  rw [h.agree c (secret_ne hc).2.2.2.2.2.2.2.1]
  exact hr c hc

/-- A row whose secrets are at rest may be written back. -/
theorem snapshot_secrets {v : RouteVersion} {row : Row} (hs : v.snapshot = row.val) (hr : RowAtRest W row) :
    SealableSecrets W (snapshotData v) := by
  intro c hc x hx
  rw [snapshotData, Patch.remove] at hx
  split at hx
  · cases hx
  · rw [hs, Option.some.injEq] at hx
    exact hx ▸ (hr c hc).sealable

end Rows

/-! ## A step keeps it -/

/-- Routes, live and archived, hold their secrets at rest, and versions are of such rows. -/
structure SecretsAtRest (W : World) (s : Store) : Prop where
  route : ∀ k r, s.routes.get? k = some r → RowAtRest W r
  version : ∀ k v, s.routeVersions.get? k = some v → ∃ r : Row, v.snapshot = r.val ∧ RowAtRest W r

/-- The data of a body that a request writes into a row. -/
inductive Stores (W : World) (s : Store) (q : Request) : Patch → Prop
  | created {body : Json} {data : Patch} {k : String} {r' : Row} (he : q.endpoint = .route (.create body))
      (hd : routeData W (routeBodySchema W) body = .ok data) (ho : ownOrg s q.caller ((data .organizationId).getD .null))
      (h : createdBy W s q.draw data q.caller.userId k r') : Stores W s q data
  | imported {draws : Nat → Draw} {body : Json} {xs : List Patch} {x : Draw × Patch} {r' : Row}
      (he : q.endpoint = .route (.import draws body)) (ha : q.caller.role = .ADMIN) (hx : parseImport W body = .ok xs)
      (hm : x ∈ withDraws draws xs) (h : CreatedRow W s x.1 x.2 q.caller.userId r') : Stores W s q x.2
  | updated {body : Json} {data : Patch} {k : String} {r r' : Row} (he : q.endpoint = .route (.update k body))
      (hm : manages s q.caller r) (hb : canBypass s q.caller k = true) (hr : s.routes.get? k = some r)
      (hd : routeData W (partialUpdate (routeBodySchema W)) body = .ok data)
      (h : UpdatedRow W s q.draw k data q.caller.userId r r') : Stores W s q data

/-- No text a body sends for a secret only looks sealed: if it starts with the prefix, it is
    an envelope. -/
def SendsSealable (W : World) (s : Store) (q : Request) : Prop :=
  ∀ data, Stores W s q data → ∀ c ∈ secretColumns, ∀ p, data c = some (.str p) →
    Text.startsWith p SECRET_PREFIX = true → Sealed W (.str p)

/-- An approval writes only a null, empty or sealed credential. -/
def AppliesSealed (W : World) (s : Store) (q : Request) : Prop :=
  ∀ op cr k r, q.endpoint = .change op → op.applies W s q.caller q.draw cr k → s.routes.get? k = some r →
    ∀ v w, cr.payload .authValue = some v → writeField .authValue (r.val .authValue) v = some w → AtRest W w

section Step

variable {W : World} {s : Store} {q : Request} {k : String} {r r' : Row}

/-- A body's secrets are texts, and those that look sealed are. -/
theorem SendsSealable.secrets (hq : SendsSealable W s q) {schema : Shape Column} {b : Json} {data : Patch}
    (hs : Stores W s q data) (hd : routeData W schema b = .ok data)
    (hschema : ∀ c ∈ secretColumns, schema c = some (.optional (.leaf (secretLeaf c)))) : SealableSecrets W data := by
  intro c hc v hv
  obtain ⟨p, rfl⟩ := secret_text hd hc (hschema c hc) hv
  exact .inr ⟨p, rfl, hq data hs c hc p hv⟩

theorem adds_atRest (hi : SecretsAtRest W s) (hq : SendsSealable W s q) (h : q.adds W s k r') : RowAtRest W r' := by
  obtain ⟨u, d, e⟩ := q
  cases e with
  | route op =>
    cases op with
    | create b =>
      obtain ⟨data, hd, ho, hr⟩ := h
      exact hr.2.atRest (hq.secrets (.created rfl hd ho hr) hd fun c hc => (secret_schema W hc).1)
    | duplicate id =>
      obtain ⟨rfl, r, hr, -, hd⟩ := h
      exact hd.atRest (hi.route id r (liveRoute?_iff.1 hr).1)
    | «import» draws b =>
      obtain ⟨ha, xs, hx, x, hm, -, hr⟩ := h
      obtain ⟨b', hb⟩ := parseImport_mem hx (mem_withDraws hm)
      exact hr.atRest (hq.secrets (.imported rfl ha hx hm hr) hb fun c hc => (secret_schema W hc).1)
    | _ => exact h.elim
  | _ => exact h.elim

theorem changes_atRest (hi : SecretsAtRest W s) (hq : SendsSealable W s q ∧ AppliesSealed W s q) (hr : s.routes.get? k = some r)
    (h : q.changes W s k r r') : RowAtRest W r' := by
  have old := hi.route k r hr
  rcases changes_cases h with h | h
  · exact h.atRest old
  · cases h with
    | updated he hm hb hd h =>
      exact h.atRest old (hq.1.secrets (.updated he hm hb hr hd h) hd fun c hc => (secret_schema W hc).2)
    | restored he ha hv h =>
      obtain ⟨row, hs, hrow⟩ := hi.version _ _ hv
      exact h.atRest old (snapshot_secrets hs hrow)
    | approved he ha h =>
      intro c hc
      cases hv : appliedData _ c with
      | none =>
        rw [h.same hv (secret_ne hc).2.2.2.2.1]
        exact old c hc
      | some v =>
        have listed : c ∈ APPLIED_FIELDS := by
          unfold appliedData at hv
          split at hv
          · assumption
          · cases hv
        -- of the secrets, an approval takes one
        have auth : c = .authValue := by
          simp only [secretColumns, List.mem_cons, List.not_mem_nil, or_false] at hc
          rcases hc with rfl | rfl | rfl
          · rfl
          · exact absurd listed (by decide)
          · exact absurd listed (by decide)
        subst auth
        have hp := hv
        rw [appliedData, if_pos listed] at hp
        exact hq.2 _ _ k r he ha hr v _ hp (h.field hv (by decide))

theorem step_atRest (hi : SecretsAtRest W s) (hq : SendsSealable W s q ∧ AppliesSealed W s q) : SecretsAtRest W (step W s q) := by
  have f := step_footprint W s q
  refine ⟨fun k r' hr' => ?_, fun k v hv => ?_⟩
  · cases hr : s.routes.get? k with
    | none => exact adds_atRest hi hq.1 (f.routes.new hr hr')
    | some r =>
      rcases f.routes.some hr hr' with rfl | h
      · exact hi.route k r' hr
      · exact changes_atRest hi hq hr h
  · rcases f.versions k v hv with h | ⟨r', hr', h⟩
    · exact hi.version k v h
    · refine ⟨r', h, ?_⟩
      rcases hr' with hr' | ⟨r, hr, hr'⟩
      · exact adds_atRest hi hq.1 hr'
      · exact changes_atRest hi hq hr hr'

end Step

theorem Store.NoRoutes.atRest {W : World} {s : Store} (h : s.NoRoutes) : SecretsAtRest W s where
  route k r hr := by rw [h.routes] at hr; cases hr
  version k v hv := by rw [h.routeVersions] at hv; cases hv

/-- On every run whose bodies send no text that only looks sealed, and whose approvals write
    only values at rest, all secrets stay at rest. -/
theorem secrets_sealed {W : World} {s : Store} {qs : List Request} (hs : SecretsAtRest W s)
    (hq : Along (step W) (fun s q => SendsSealable W s q ∧ AppliesSealed W s q) s qs) : SecretsAtRest W (run (step W) s qs) :=
  run_keeps (fun _ _ hi hq => step_atRest hi hq) hs hq

/-! ## A password through an approval -/

def proposedSecret (p : String) : List Request := proposal (.obj [("authValue", .str p)])

/-- The body of the create sends no secret. -/
theorem createRequest_sealable (s : Store) : SendsSealable World.plain s createRequest := by
  intro data hs c hc p hv
  have none_sent : (routeData World.plain (routeBodySchema World.plain) createBody).toOption.all
      (fun data => decide (∀ c ∈ secretColumns, data c = none)) = true := by decide +kernel
  cases hs with
  | created he hd =>
    cases he
    rw [hd, Except.toOption, Option.all_some, decide_eq_true_eq] at none_sent
    rw [none_sent c hc] at hv
    cases hv
  | imported he => cases he
  | updated he => cases he

/-- An empty credential, proposed and approved. -/
theorem proposed_secret_sealed : SecretsAtRest World.plain (run (step World.plain) oneOrganization (proposedSecret "")) := by
  refine secrets_sealed oneOrganization_noRoutes.atRest
    ⟨⟨createRequest_sealable _, ?_⟩, ⟨fun data hs => ?_, ?_⟩, ⟨fun data hs => ?_, ?_⟩, trivial⟩
  · intro op cr k r he
    cases he
  · rcases hs with ⟨he, -⟩ | ⟨he, -⟩ | ⟨he, -⟩ <;> cases he
  · intro op cr k r he ha
    cases he
    obtain ⟨id, body, hop, -⟩ := ha
    cases hop
  · rcases hs with ⟨he, -⟩ | ⟨he, -⟩ | ⟨he, -⟩ <;> cases he
  · intro op cr k r he ha hr v w hv hw
    cases he
    obtain ⟨id, body, hop, -, hcr, -⟩ := ha
    cases hop
    have payload : ((run (step World.plain) oneOrganization ((proposedSecret "").take 2)).changeRequests.get? "row").all
        (fun cr => decide (cr.payload .authValue = some (.str ""))) = true := by decide +kernel
    have hcr : (run (step World.plain) oneOrganization ((proposedSecret "").take 2)).changeRequests.get? "row" = some cr := hcr
    rw [hcr, Option.all_some, decide_eq_true_eq, hv, Option.some.injEq] at payload
    subst payload
    rw [writeField_str hw]
    exact atRest_empty _

/-- A password goes through an approval as it was sent. -/
theorem an_approval_stores_a_password :
    ¬ ∀ (W : World) (s : Store) (qs : List Request), SecretsAtRest W s → SecretsAtRest W (run (step W) s qs) := by
  intro h
  have stored : ((run (step World.plain) oneOrganization (proposedSecret "hunter2")).routes.get? "route").map
      (fun r => r.val .authValue) = some (.str "hunter2") := by decide +kernel
  obtain ⟨r, hr, ha⟩ := Option.map_eq_some_iff.1 stored
  have atRest := (h _ _ (proposedSecret "hunter2") oneOrganization_noRoutes.atRest).route _ r hr .authValue (by decide)
  exact atRest.noPlaintext "hunter2" (by decide) (by decide) ha

/-! ## A password that looks sealed -/

/-- An envelope holds a nonce and a tag at least. -/
theorem Sealed.length {W : World} (hW : W.cipher.Ideal) {text : String} (h : Sealed W (.str text)) :
    28 ≤ (decode (Text.slice text SECRET_PREFIX.toList.length)).length := by
  obtain ⟨nonce, plain, hne, hp, he⟩ := h
  rw [encryptSecret_sealed W nonce hne hp] at he
  have hiv : nonce.1.length = 12 := nonce.2
  have htag := hW.tag nonce.1 (utf8Bytes plain)
  rw [Json.str.inj he, slice_prefixed, Gcm.sealText, decode_encode, List.length_append, List.length_append, hiv, htag]
  omega

def createWithSecret (p : String) : Request := ⟨owner, Draw.plain, .route (.create (.obj
  [("name", .str "route"), ("publicPath", .str "/r/route"), ("targetUrl", .str "http://upstream"),
   ("methods", .arr [.str "GET"]), ("organizationId", .str "org"), ("authValue", .str p)]))⟩

/-- A password that starts with the prefix is stored as it was sent, by a writer too. -/
theorem a_create_stores_a_password :
    ¬SecretsAtRest World.plain (run (step World.plain) oneOrganization [createWithSecret "enc:v1:hunter2"]) := by
  intro h
  have stored : ((run (step World.plain) oneOrganization [createWithSecret "enc:v1:hunter2"]).routes.get? "route").map
      (fun r => r.val .authValue) = some (.str "enc:v1:hunter2") := by decide +kernel
  obtain ⟨r, hr, ha⟩ := Option.map_eq_some_iff.1 stored
  have atRest := (h.route _ r hr .authValue (by decide)).value
  rw [ha] at atRest
  rcases atRest with he | he | he
  · cases he
  · exact absurd he (by decide)
  · exact absurd (he.length (W := World.plain) Gcm.plain_ideal) (by decide +kernel)

end ClusterGate
