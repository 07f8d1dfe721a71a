/-
  ClusterGate.Keys.Grants — by whose leave a key opens a route (`services/apiKeyService.ts`,
  `routes/apikeys.router.ts`), over any requests to the keys' endpoints and to the others.

  Other requests move routes between folders and organizations, change memberships and remove
  routes and folders, with which the database removes what refers to them. What the query of
  `verifyApiKey` finds is told by the past alone: who issued the key and who opened the route
  to it, and that nobody has taken it back since.
  - `issued_step`, `open_step`: what a request does to a key's terms and to one of its shares.
  - `hashes_step`: no two keys have one hash.
  - `accepted_iff_opened`: a key text is accepted on a route exactly if it was issued by a caller
    who could then manage the key's route, has not been withdrawn since, and the route is that one
    or has been opened to it by a caller who could then manage both.
-/

import ClusterGate.Keys.Router
import ClusterGate.Keys.Withdrawal
import ClusterGate.Lib.Since

namespace ClusterGate

open Lib Lib.Act

/-! ## The system -/

inductive RingEvent
  | api (q : Request)
  | key (caller : Caller) (op : KeyOp)

/-- What refers to a route or a folder that is gone goes with it. -/
def KeyRing.cascade (g : KeyRing) (s : Store) : KeyRing where
  store := s
  apiKeys := (g.apiKeys.filter fun _ k => (s.routes.get? k.routeId).isSome).mapRows fun _ k =>
    { k with
      sharedRoutes := k.sharedRoutes.filter fun r => (s.routes.get? r).isSome
      sharedFolders := k.sharedFolders.filter fun f => (s.routeFolders.get? f).isSome }

def ringStep (W : World) (instant : String → Option Nat) (g : KeyRing) : RingEvent → KeyRing
  | .api q => g.cascade (step W g.store q)
  | .key u op => (op.perform W instant u g).2

/-- The row the query of `verifyApiKey` finds. -/
def KeyRing.accepts (g : KeyRing) (keyHash routeId : String) (date : Nat) : Option (String × ApiKey) :=
  KeyStore.found ⟨date, g.db, .empty⟩ keyHash routeId date

/-! ## The past -/

/-- What a key is issued with, for good. -/
structure KeyTerms where
  keyHash : String
  routeId : String
  scope : ApiKeyScope
  expiresAt : Option Nat
  deriving DecidableEq

def ApiKey.terms (k : ApiKey) : KeyTerms := ⟨k.keyHash, k.routeId, k.scope, k.expiresAt⟩

def KeyTerms.unexpired (t : KeyTerms) (now : Nat) : Bool :=
  match t.expiresAt with
  | none => true
  | some expiresAt => now < expiresAt

/-- What a key can be opened to besides its own route. -/
inductive KeyPlace
  | route (id : String)
  | folder (id : String)
  deriving DecidableEq

namespace KeyPlace

def openTo (k : ApiKey) : KeyPlace → Prop
  | .route r => r ∈ k.sharedRoutes
  | .folder f => f ∈ k.sharedFolders

def isIn (s : Store) : KeyPlace → Prop
  | .route r => (s.routes.get? r).isSome = true
  | .folder f => (s.routeFolders.get? f).isSome = true

def managedBy (s : Store) (u : Caller) : KeyPlace → Prop
  | .route r => canManageRoute s u r = true
  | .folder f => canManageFolder s u f = true

def namedIn (data : String → Option Json) : KeyPlace → Prop
  | .route r => r ∈ textList data "routeIds"
  | .folder f => f ∈ textList data "folderIds"

/-- The route is it, or is in it. -/
def reaches (s : Store) (routeId : String) : KeyPlace → Prop
  | .route r => r = routeId
  | .folder f => (s.routes.get? routeId).bind (fun r => r.text .folderId) = some f

end KeyPlace

namespace KeyOp

/-- The route whose endpoint it is. -/
def routeId : KeyOp → String
  | .create routeId _ _ => routeId
  | .revoke routeId _ => routeId
  | .setRoutes routeId _ _ => routeId
  | .detach routeId _ => routeId
  | .delete routeId _ => routeId

/-- The request takes the key out of use. -/
def withdraws (id : String) : KeyOp → Prop
  | .revoke _ keyId => keyId = id
  | .delete _ keyId => keyId = id
  | _ => False

/-- The request names the place among those the key is to be good for, and it is not the key's own route. -/
def asks (instant : String → Option Nat) (id : String) (p : KeyPlace) : KeyOp → Prop
  | .create routeId d body => d.id = id ∧ p ≠ .route routeId ∧
      ∃ data, parsed createKeyFields (createKeySchema instant) body = .ok data ∧ p.namedIn data
  | .setRoutes routeId keyId body => keyId = id ∧ p ≠ .route routeId ∧
      ∃ data, parsed keyRoutesFields keyRoutesSchema body = .ok data ∧ p.namedIn data
  | _ => False

/-- The request takes the place from the key, or replaces all its places. -/
def shuts (id : String) (p : KeyPlace) : KeyOp → Prop
  | .setRoutes _ keyId _ => keyId = id
  | .detach routeId keyId => keyId = id ∧ p = .route routeId
  | .delete _ keyId => keyId = id
  | _ => False

end KeyOp

section Past

variable (W : World) (instant : String → Option Nat) (id : String)

def Answered (g : KeyRing) (u : Caller) (op : KeyOp) : Prop := ∃ r, (op.perform W instant u g).1 = .ok r

/-- A caller who may write the key's route has the key issued on these terms, and is told its text. -/
def IssuesKey (t : KeyTerms) (g : KeyRing) : RingEvent → Prop
  | .key u (.create routeId d body) => MayWrite g.store u routeId ∧
      ∃ c, (KeyOp.perform W instant u (.create routeId d body) g).1 = .ok (.created c) ∧ c.id = id ∧ c.row.terms = t ∧
        t.routeId = routeId ∧ t.keyHash = W.sha256 c.key
  | _ => False

/-- The key is revoked or deleted, or its route is removed. -/
def WithdrawsKey (t : KeyTerms) (g : KeyRing) : RingEvent → Prop
  | .api q => (step W g.store q).routes.get? t.routeId = none
  | .key u op => op.withdraws id ∧ Answered W instant g u op

/-- A caller who may write the key's route and manages the place has it opened to the key. -/
def OpensPlace (p : KeyPlace) (g : KeyRing) : RingEvent → Prop
  | .api _ => False
  | .key u op => op.asks instant id p ∧ Answered W instant g u op ∧ MayWrite g.store u op.routeId ∧ p.managedBy g.store u

/-- The place is taken from the key, or it or the key's route is removed. -/
def ShutsPlace (p : KeyPlace) (g : KeyRing) : RingEvent → Prop
  | .api q => ¬p.isIn (step W g.store q) ∨
      ∃ k, g.apiKeys.get? id = some k ∧ (step W g.store q).routes.get? k.routeId = none
  | .key u op => op.shuts id p ∧ Answered W instant g u op

end Past

/-! ## What a request does to a key -/

/-- The key is in use on these terms. -/
def KeyRing.Issued (g : KeyRing) (id : String) (t : KeyTerms) : Prop :=
  ∃ k, g.apiKeys.get? id = some k ∧ k.isActive = true ∧ k.terms = t

/-- The place is open to the key. -/
def KeyRing.IsOpen (g : KeyRing) (id : String) (p : KeyPlace) : Prop := ∃ k, g.apiKeys.get? id = some k ∧ p.openTo k

section Steps

variable {W : World} {instant : String → Option Nat} {g : KeyRing} {u : Caller} {op : KeyOp} {r : KeyReply}
  {keys : Table String ApiKey} {id : String} {t : KeyTerms} {p : KeyPlace}

theorem ringStep_key (g : KeyRing) (u : Caller) (op : KeyOp) :
    (∃ r, (op.perform W instant u g).1 = .ok r ∧ KeyEffect W instant g u op r (ringStep W instant g (.key u op)).apiKeys) ∨
      (¬Answered W instant g u op ∧ ∀ id, (ringStep W instant g (.key u op)).apiKeys.get? id = g.apiKeys.get? id) := by
  have hspec : wp (op.perform W instant u) _ _ g := KeyOp.perform_spec op
  cases hout : (op.perform W instant u g).1 with
  | ok r => exact .inl ⟨r, rfl, (wp_outcome_ok hspec hout).2⟩
  | error e =>
    refine .inr ⟨fun h => ?_, (wp_outcome_error hspec hout).2⟩
    obtain ⟨r, hr⟩ := h
    rw [hout] at hr
    cases hr

theorem get?_cascade (s : Store) : (g.cascade s).apiKeys.get? id =
    ((g.apiKeys.get? id).filter fun k => (s.routes.get? k.routeId).isSome).map fun k =>
      { k with
        sharedRoutes := k.sharedRoutes.filter fun r => (s.routes.get? r).isSome
        sharedFolders := k.sharedFolders.filter fun f => (s.routeFolders.get? f).isSome } := by
  rw [KeyRing.cascade, Table.get?_mapRows, Table.get?_filter]

theorem cascade_some {s : Store} {k' : ApiKey} (h : (g.cascade s).apiKeys.get? id = some k') :
    ∃ k, g.apiKeys.get? id = some k ∧ (s.routes.get? k.routeId).isSome = true ∧
      k' = { k with
        sharedRoutes := k.sharedRoutes.filter fun r => (s.routes.get? r).isSome
        sharedFolders := k.sharedFolders.filter fun f => (s.routeFolders.get? f).isSome } := by
  rw [get?_cascade] at h
  obtain ⟨k, hk, rfl⟩ := Option.map_eq_some_iff.1 h
  obtain ⟨hk, hroute⟩ := Option.filter_eq_some_iff.1 hk
  exact ⟨k, hk, hroute, rfl⟩

theorem cascade_kept {s : Store} {k : ApiKey} (hk : g.apiKeys.get? id = some k)
    (hroute : (s.routes.get? k.routeId).isSome = true) :
    (g.cascade s).apiKeys.get? id = some { k with
      sharedRoutes := k.sharedRoutes.filter fun r => (s.routes.get? r).isSome
      sharedFolders := k.sharedFolders.filter fun f => (s.routeFolders.get? f).isSome } := by
  rw [get?_cascade, hk, Option.filter_some, if_pos hroute, Option.map_some]

/-! ### Its terms -/

theorem issuesKey_answered (h : IssuesKey W instant id t g (.key u op)) : Answered W instant g u op := by
  cases op with
  | create routeId d body =>
    obtain ⟨-, c, hc, -⟩ := h
    exact ⟨_, hc⟩
  | _ => exact h.elim

/-- A write of one row that leaves its terms and its use alone. -/
theorem issued_modify {keyId : String} {f : ApiKey → ApiKey} (hterms : ∀ k, (f k).terms = k.terms)
    (hactive : ∀ k, (f k).isActive = k.isActive) :
    (∃ k, (g.apiKeys.modify keyId f).get? id = some k ∧ k.isActive = true ∧ k.terms = t) ↔ g.Issued id t := by
  rw [Table.get?_modify]
  split_ifs with hid
  · subst hid
    constructor
    · intro h
      obtain ⟨k', hk', ha, ht⟩ := h
      obtain ⟨k, hk, rfl⟩ := Option.map_eq_some_iff.1 hk'
      exact ⟨k, hk, (hactive k) ▸ ha, (hterms k) ▸ ht⟩
    · intro h
      obtain ⟨k, hk, ha, ht⟩ := h
      exact ⟨f k, by rw [hk]; rfl, (hactive k).trans ha, (hterms k).trans ht⟩
  · rfl

theorem issued_effect (hr : (op.perform W instant u g).1 = .ok r) (h : KeyEffect W instant g u op r keys) :
    (∃ k, keys.get? id = some k ∧ k.isActive = true ∧ k.terms = t) ↔
      IssuesKey W instant id t g (.key u op) ∨ (g.Issued id t ∧ ¬WithdrawsKey W instant id t g (.key u op)) := by
  cases h with
  | @created routeId d body data c hmay hdata hshare hid hkey hrow hnew hhash =>
    have hkept : ¬WithdrawsKey W instant id t g (.key u (.create routeId d body)) := fun h => h.1
    rw [Table.get?_insert hnew]
    split_ifs with hd
    · subst hd
      constructor
      · intro h
        obtain ⟨k, hk, -, ht⟩ := h
        obtain rfl := Option.some.inj hk
        subst ht
        exact .inl ⟨hmay, c, hr, hid, rfl, by rw [hrow]; rfl, by rw [hrow]; rfl⟩
      · intro h
        rcases h with ⟨-, c', hc', -, ht, -⟩ | ⟨⟨k, hk, -⟩, -⟩
        · obtain rfl : c = c' := KeyReply.created.inj (Except.ok.inj (hr.symm.trans hc'))
          exact ⟨c.row, rfl, by rw [hrow], ht⟩
        · rw [hnew] at hk
          cases hk
    · constructor
      · intro h
        exact .inr ⟨h, hkept⟩
      · intro h
        rcases h with ⟨-, c', hc', hc, -⟩ | ⟨h, -⟩
        · obtain rfl : c = c' := KeyReply.created.inj (Except.ok.inj (hr.symm.trans hc'))
          exact absurd (hc.symm.trans hid) hd
        · exact h
  | @revoked routeId keyId a k hadmin hk howner =>
    rw [Table.get?_modify]
    split_ifs with hid
    · subst hid
      refine iff_of_false ?_ ?_
      · intro h
        obtain ⟨k', hk', ha, -⟩ := h
        obtain ⟨k, -, rfl⟩ := Option.map_eq_some_iff.1 hk'
        cases ha
      · intro h
        rcases h with h | ⟨-, h⟩
        · exact h
        · exact h ⟨rfl, _, hr⟩
    · exact ⟨fun h => .inr ⟨h, fun hw => hid hw.1.symm⟩, fun h => h.elim False.elim And.left⟩
  | @shared routeId keyId body data a k hmay hdata hshare hk howner =>
    refine (issued_modify ?_ ?_).trans ⟨fun h => .inr ⟨h, fun hw => hw.1⟩, fun h => h.elim False.elim And.left⟩
    · exact fun _ => rfl
    · exact fun _ => rfl
  | @detached routeId keyId a k hmay hk hin =>
    refine (issued_modify ?_ ?_).trans ⟨fun h => .inr ⟨h, fun hw => hw.1⟩, fun h => h.elim False.elim And.left⟩
    · exact fun _ => rfl
    · exact fun _ => rfl
  | @deleted routeId keyId a k hadmin hk howner =>
    rw [Table.get?_erase]
    split_ifs with hid
    · subst hid
      refine iff_of_false ?_ ?_
      · intro h
        obtain ⟨k', hk', -⟩ := h
        cases hk'
      · intro h
        rcases h with h | ⟨-, h⟩
        · exact h
        · exact h ⟨rfl, _, hr⟩
    · exact ⟨fun h => .inr ⟨h, fun hw => hid hw.1.symm⟩, fun h => h.elim False.elim And.left⟩

theorem issued_step (g : KeyRing) (e : RingEvent) : (ringStep W instant g e).Issued id t ↔
    IssuesKey W instant id t g e ∨ (g.Issued id t ∧ ¬WithdrawsKey W instant id t g e) := by
  cases e with
  | api q =>
    constructor
    · intro h
      obtain ⟨k', hk', ha, ht⟩ := h
      obtain ⟨k, hk, hroute, rfl⟩ := cascade_some hk'
      subst ht
      refine .inr ⟨⟨k, hk, ha, rfl⟩, fun hgone => ?_⟩
      exact Option.isSome_iff_ne_none.1 hroute hgone
    · intro h
      rcases h with h | ⟨⟨k, hk, ha, rfl⟩, hkept⟩
      · exact h.elim
      · exact ⟨_, cascade_kept hk (Option.isSome_iff_ne_none.2 hkept), ha, rfl⟩
  | key u op =>
    rcases @ringStep_key W instant g u op with ⟨r, hr, heffect⟩ | ⟨hnone, hsame⟩
    · exact issued_effect hr heffect
    · have hiff : (ringStep W instant g (.key u op)).Issued id t ↔ g.Issued id t := by
        unfold KeyRing.Issued
        rw [hsame]
      rw [hiff]
      exact ⟨fun h => .inr ⟨h, fun hw => hnone hw.2⟩, fun h => h.elim (fun hi => absurd (issuesKey_answered hi) hnone) And.left⟩

/-! ### Its shares -/

theorem Shareable.managedBy {s : Store} {data : String → Option Json}
    (h : Shareable s u (textList data "routeIds") (textList data "folderIds")) (hp : p.namedIn data) : p.managedBy s u := by
  cases p with
  | route r => exact h.routes r hp
  | folder f => exact h.folders f hp

/-- A row with the places a request names. -/
theorem openTo_named {k : ApiKey} {data : String → Option Json} {routeId : String}
    (hroutes : k.sharedRoutes = (textList data "routeIds").eraseDups.filter fun id => id ≠ routeId)
    (hfolders : k.sharedFolders = (textList data "folderIds").eraseDups) :
    p.openTo k ↔ p ≠ .route routeId ∧ p.namedIn data := by
  cases p with
  | route r =>
    rw [KeyPlace.openTo, KeyPlace.namedIn, hroutes, List.mem_filter, List.mem_eraseDups, decide_eq_true_eq, and_comm]
    exact and_congr_left fun _ => not_congr (KeyPlace.route.injEq r routeId).to_iff.symm
  | folder f =>
    rw [KeyPlace.openTo, KeyPlace.namedIn, hfolders, List.mem_eraseDups]
    exact ⟨fun h => ⟨KeyPlace.noConfusion, h⟩, And.right⟩

/-- A write of one row that leaves the place as it is. -/
theorem isOpen_modify {keyId : String} {f : ApiKey → ApiKey} (h : id = keyId → ∀ k, p.openTo (f k) ↔ p.openTo k) :
    (∃ k, (g.apiKeys.modify keyId f).get? id = some k ∧ p.openTo k) ↔ g.IsOpen id p := by
  rw [Table.get?_modify]
  split_ifs with hid
  · subst hid
    constructor
    · intro hopen
      obtain ⟨k', hk', hp⟩ := hopen
      obtain ⟨k, hk, rfl⟩ := Option.map_eq_some_iff.1 hk'
      exact ⟨k, hk, (h rfl k).1 hp⟩
    · intro hopen
      obtain ⟨k, hk, hp⟩ := hopen
      exact ⟨f k, by rw [hk]; rfl, (h rfl k).2 hp⟩
  · rfl

theorem open_effect (hr : (op.perform W instant u g).1 = .ok r) (h : KeyEffect W instant g u op r keys) :
    (∃ k, keys.get? id = some k ∧ p.openTo k) ↔
      OpensPlace W instant id p g (.key u op) ∨ (g.IsOpen id p ∧ ¬ShutsPlace W instant id p g (.key u op)) := by
  have hanswered : Answered W instant g u op := ⟨r, hr⟩
  cases h with
  | @created routeId d body data c hmay hdata hshare hid hkey hrow hnew hhash =>
    have hrowOpen : p.openTo c.row ↔ p ≠ .route routeId ∧ p.namedIn data := openTo_named (by rw [hrow]) (by rw [hrow])
    rw [Table.get?_insert hnew]
    split_ifs with hd
    · subst hd
      constructor
      · intro h
        obtain ⟨k, hk, hp⟩ := h
        obtain rfl := Option.some.inj hk
        obtain ⟨hne, hnamed⟩ := hrowOpen.1 hp
        exact .inl ⟨⟨rfl, hne, data, hdata, hnamed⟩, hanswered, hmay, hshare.managedBy hnamed⟩
      · intro h
        rcases h with ⟨⟨-, hne, data', hdata', hnamed⟩, -⟩ | ⟨⟨k, hk, -⟩, -⟩
        · obtain rfl := Except.ok.inj (hdata.symm.trans hdata')
          exact ⟨c.row, rfl, hrowOpen.2 ⟨hne, hnamed⟩⟩
        · rw [hnew] at hk
          cases hk
    · exact ⟨fun h => .inr ⟨h, fun hs => hs.1⟩, fun h => h.elim (fun ho => absurd ho.1.1.symm hd) And.left⟩
  | @revoked routeId keyId a k hadmin hk howner =>
    refine (isOpen_modify fun _ k => ?_).trans ⟨fun h => .inr ⟨h, fun hs => hs.1⟩, fun h => h.elim (fun ho => ho.1.elim) And.left⟩
    cases p <;> exact Iff.rfl
  | @shared routeId keyId body data a k hmay hdata hshare hk howner =>
    by_cases hid : id = keyId
    · subst hid
      rw [Table.get?_modify, if_pos rfl, hk]
      constructor
      · intro h
        obtain ⟨k', hk', hp⟩ := h
        obtain rfl := Option.some.inj hk'
        obtain ⟨hne, hnamed⟩ := (openTo_named rfl rfl).1 hp
        exact .inl ⟨⟨rfl, hne, data, hdata, hnamed⟩, hanswered, hmay, hshare.managedBy hnamed⟩
      · intro h
        rcases h with ⟨⟨-, hne, data', hdata', hnamed⟩, -⟩ | ⟨-, hkept⟩
        · obtain rfl := Except.ok.inj (hdata.symm.trans hdata')
          exact ⟨_, rfl, (openTo_named rfl rfl).2 ⟨hne, hnamed⟩⟩
        · exact absurd ⟨rfl, hanswered⟩ hkept
    · refine (isOpen_modify fun heq => absurd heq hid).trans ?_
      exact ⟨fun h => .inr ⟨h, fun hs => hid hs.1.symm⟩, fun h => h.elim (fun ho => absurd ho.1.1.symm hid) And.left⟩
  | @detached routeId keyId a k hmay hk hin =>
    by_cases hshut : id = keyId ∧ p = .route routeId
    · obtain ⟨rfl, rfl⟩ := hshut
      refine iff_of_false ?_ ?_
      · intro h
        obtain ⟨k', hk', hp⟩ := h
        rw [Table.get?_modify, if_pos rfl, hk] at hk'
        obtain rfl := Option.some.inj hk'
        exact absurd rfl (of_decide_eq_true (List.mem_filter.1 hp).2)
      · intro h
        rcases h with ⟨hasks, -⟩ | ⟨-, hkept⟩
        · exact hasks
        · exact hkept ⟨⟨rfl, rfl⟩, hanswered⟩
    · refine (isOpen_modify fun hid k => ?_).trans ?_
      · cases p with
        | route r =>
          have hne : r ≠ routeId := fun hr => hshut ⟨hid, by rw [hr]⟩
          exact List.mem_filter.trans (and_iff_left (decide_eq_true hne))
        | folder f => exact Iff.rfl
      · exact ⟨fun h => .inr ⟨h, fun hs => hshut ⟨hs.1.1.symm, hs.1.2⟩⟩, fun h => h.elim (fun ho => ho.1.elim) And.left⟩
  | @deleted routeId keyId a k hadmin hk howner =>
    rw [Table.get?_erase]
    split_ifs with hid
    · subst hid
      refine iff_of_false ?_ ?_
      · intro h
        obtain ⟨k', hk', -⟩ := h
        cases hk'
      · intro h
        rcases h with ⟨hasks, -⟩ | ⟨-, hkept⟩
        · exact hasks
        · exact hkept ⟨rfl, hanswered⟩
    · exact ⟨fun h => .inr ⟨h, fun hs => hid hs.1.symm⟩, fun h => h.elim (fun ho => ho.1.elim) And.left⟩

theorem openTo_cascade {s : Store} {k : ApiKey} :
    p.openTo { k with
      sharedRoutes := k.sharedRoutes.filter fun r => (s.routes.get? r).isSome
      sharedFolders := k.sharedFolders.filter fun f => (s.routeFolders.get? f).isSome } ↔ p.openTo k ∧ p.isIn s := by
  cases p with
  | route r => exact List.mem_filter
  | folder f => exact List.mem_filter

theorem open_step (g : KeyRing) (e : RingEvent) : (ringStep W instant g e).IsOpen id p ↔
    OpensPlace W instant id p g e ∨ (g.IsOpen id p ∧ ¬ShutsPlace W instant id p g e) := by
  cases e with
  | api q =>
    constructor
    · intro h
      obtain ⟨k', hk', hp⟩ := h
      obtain ⟨k, hk, hroute, rfl⟩ := cascade_some hk'
      obtain ⟨hp, hin⟩ := openTo_cascade.1 hp
      refine .inr ⟨⟨k, hk, hp⟩, fun hshut => ?_⟩
      rcases hshut with hout | ⟨k', hk', hgone⟩
      · exact hout hin
      · obtain rfl := Option.some.inj (hk.symm.trans hk')
        exact Option.isSome_iff_ne_none.1 hroute hgone
    · intro h
      rcases h with h | ⟨⟨k, hk, hp⟩, hkept⟩
      · exact h.elim
      · obtain ⟨hin, hroute⟩ := not_or.1 hkept
        have hroute : ((step W g.store q).routes.get? k.routeId).isSome = true :=
          Option.isSome_iff_ne_none.2 fun hgone => hroute ⟨k, hk, hgone⟩
        exact ⟨_, cascade_kept hk hroute, openTo_cascade.2 ⟨hp, not_not.1 hin⟩⟩
  | key u op =>
    rcases @ringStep_key W instant g u op with ⟨r, hr, heffect⟩ | ⟨hnone, hsame⟩
    · exact open_effect hr heffect
    · have hiff : (ringStep W instant g (.key u op)).IsOpen id p ↔ g.IsOpen id p := by
        unfold KeyRing.IsOpen
        rw [hsame]
      rw [hiff]
      exact ⟨fun h => .inr ⟨h, fun hs => hnone hs.2⟩, fun h => h.elim (fun ho => absurd ho.2.1 hnone) And.left⟩

/-! ### Its hash -/

/-- Where every row has the hash that the row of its id had. -/
theorem uniqueHashes_of_rows {db db' : KeyDb} (h : db.UniqueHashes)
    (hrows : ∀ id k, db'.apiKeys.get? id = some k → ∃ k₀, db.apiKeys.get? id = some k₀ ∧ k₀.keyHash = k.keyHash) :
    db'.UniqueHashes := by
  intro id id' k k' hk hk' heq
  obtain ⟨k₀, hk₀, hhash⟩ := hrows id k hk
  obtain ⟨k₁, hk₁, hhash'⟩ := hrows id' k' hk'
  exact h id id' k₀ k₁ hk₀ hk₁ (hhash.trans (heq.trans hhash'.symm))

theorem rows_modify_hash {keyId : String} {f : ApiKey → ApiKey} (hkeys : keys = g.apiKeys.modify keyId f)
    (hf : ∀ k, (f k).keyHash = k.keyHash) {k : ApiKey} (hk : keys.get? id = some k) :
    ∃ k₀, g.db.apiKeys.get? id = some k₀ ∧ k₀.keyHash = k.keyHash := by
  rw [hkeys, Table.get?_modify] at hk
  split_ifs at hk with hid
  · obtain ⟨k₀, hk₀, rfl⟩ := Option.map_eq_some_iff.1 hk
    exact ⟨k₀, hid ▸ hk₀, (hf k₀).symm⟩
  · exact ⟨k, hk, rfl⟩

theorem hashes_effect {g' : KeyRing} (h : g.db.UniqueHashes) (heffect : KeyEffect W instant g u op r g'.apiKeys) :
    g'.db.UniqueHashes := by
  generalize hkeys : g'.apiKeys = keys at heffect
  cases heffect with
  | @created routeId d body data c hmay hdata hshare hid hkey hrow hnew hhash =>
    intro id id' k k' hk hk' heq
    change g'.apiKeys.get? id = some k at hk
    change g'.apiKeys.get? id' = some k' at hk'
    rw [hkeys, Table.get?_insert hnew] at hk hk'
    split_ifs at hk hk' with hd hd' hd'
    · exact hd.trans hd'.symm
    · obtain rfl := Option.some.inj hk
      exact absurd heq.symm (hhash id' k' hk')
    · obtain rfl := Option.some.inj hk'
      exact absurd heq (hhash id k hk)
    · exact h id id' k k' hk hk' heq
  | revoked => exact uniqueHashes_of_rows h fun id k hk => rows_modify_hash hkeys (fun _ => rfl) hk
  | shared => exact uniqueHashes_of_rows h fun id k hk => rows_modify_hash hkeys (fun _ => rfl) hk
  | detached => exact uniqueHashes_of_rows h fun id k hk => rows_modify_hash hkeys (fun _ => rfl) hk
  | deleted =>
    refine uniqueHashes_of_rows h fun id k hk => ?_
    change g'.apiKeys.get? id = some k at hk
    rw [hkeys, Table.get?_erase] at hk
    split_ifs at hk
    exact ⟨k, hk, rfl⟩

/-- No two keys have one hash. -/
theorem hashes_step (h : g.db.UniqueHashes) (e : RingEvent) : (ringStep W instant g e).db.UniqueHashes := by
  cases e with
  | api q =>
    refine uniqueHashes_of_rows h fun id k hk => ?_
    obtain ⟨k₀, hk₀, -, rfl⟩ := cascade_some hk
    exact ⟨k₀, hk₀, rfl⟩
  | key u op =>
    rcases @ringStep_key W instant g u op with ⟨r, hr, heffect⟩ | ⟨-, hsame⟩
    · exact hashes_effect h heffect
    · refine uniqueHashes_of_rows h fun id k hk => ?_
      change (ringStep W instant g (.key u op)).apiKeys.get? id = some k at hk
      rw [hsame] at hk
      exact ⟨k, hk, rfl⟩

end Steps

/-! ## What is accepted -/

section Accepted

variable {g : KeyRing} {keyHash routeId : String} {date : Nat} {id : String} {scope : ApiKeyScope}

theorem covers_iff {k : ApiKey} : k.covers routeId (g.db.folderOf routeId) = true ↔
    k.routeId = routeId ∨ ∃ p : KeyPlace, p.reaches g.store routeId ∧ p.openTo k := by
  have hfolder : g.db.folderOf routeId = (g.store.routes.get? routeId).bind fun r => r.text .folderId := by
    rw [KeyDb.folderOf, KeyRing.db, Table.get?_mapTo]
    cases g.store.routes.get? routeId <;> rfl
  simp only [ApiKey.covers, hfolder, Bool.or_eq_true, decide_eq_true_eq, List.contains_iff_mem, or_assoc]
  refine or_congr_right ?_
  constructor
  · intro h
    rcases h with hshared | hbound
    · exact ⟨.route routeId, rfl, hshared⟩
    · cases hin : (g.store.routes.get? routeId).bind fun r => r.text .folderId with
      | none =>
        rw [hin] at hbound
        cases hbound
      | some f =>
        rw [hin] at hbound
        exact ⟨.folder f, hin, List.contains_iff_mem.1 hbound⟩
  · intro h
    obtain ⟨p, hreach, hopen⟩ := h
    cases p with
    | route r =>
      obtain rfl : r = routeId := hreach
      exact .inl hopen
    | folder f =>
      change _ = some f at hreach
      rw [hreach]
      exact .inr (List.contains_iff_mem.2 hopen)

theorem accepts_iff (hu : g.db.UniqueHashes) :
    (g.accepts keyHash routeId date).map (fun found => (found.1, found.2.scope)) = some (id, scope) ↔
      ∃ t : KeyTerms, t.keyHash = keyHash ∧ t.scope = scope ∧ t.unexpired date = true ∧ g.Issued id t ∧
        (t.routeId = routeId ∨ ∃ p : KeyPlace, p.reaches g.store routeId ∧ g.IsOpen id p) := by
  have hgrants : ∀ k : ApiKey, (g.db.grants keyHash routeId k && k.unexpired date) = true ↔
      ((k.keyHash = keyHash ∧ k.isActive = true) ∧
        (k.routeId = routeId ∨ ∃ p : KeyPlace, p.reaches g.store routeId ∧ p.openTo k)) ∧ k.unexpired date = true := by
    intro k
    rw [Bool.and_eq_true, KeyDb.grants, Bool.and_eq_true, Bool.and_eq_true, decide_eq_true_eq, covers_iff]
  have haccepts : g.accepts keyHash routeId date =
      g.apiKeys.find? fun _ k => g.db.grants keyHash routeId k && k.unexpired date := rfl
  rw [haccepts]
  constructor
  · intro h
    obtain ⟨⟨id', k⟩, hfound, heq⟩ := Option.map_eq_some_iff.1 h
    obtain ⟨rfl, rfl⟩ := Prod.mk.inj heq
    obtain ⟨hk, hgood⟩ := Table.find?_some hfound
    obtain ⟨⟨⟨hhash, hactive⟩, hplace⟩, hdate⟩ := (hgrants k).1 hgood
    refine ⟨k.terms, hhash, rfl, hdate, ⟨k, hk, hactive, rfl⟩, hplace.imp_right fun h => ?_⟩
    obtain ⟨p, hreach, hopen⟩ := h
    exact ⟨p, hreach, k, hk, hopen⟩
  · intro h
    obtain ⟨t, hhash, rfl, hdate, ⟨k, hk, hactive, rfl⟩, hplace⟩ := h
    have hgood : (g.db.grants keyHash routeId k && k.unexpired date) = true := by
      refine (hgrants k).2 ⟨⟨⟨hhash, hactive⟩, hplace.imp_right fun h => ?_⟩, hdate⟩
      obtain ⟨p, hreach, k', hk', hopen⟩ := h
      obtain rfl := Option.some.inj (hk.symm.trans hk')
      exact ⟨p, hreach, hopen⟩
    cases hfound : g.apiKeys.find? fun _ k => g.db.grants keyHash routeId k && k.unexpired date with
    | none =>
      have hbad := Table.find?_none hfound hk
      rw [hgood] at hbad
      cases hbad
    | some found =>
      obtain ⟨id', k'⟩ := found
      obtain ⟨hk', hgood'⟩ := Table.find?_some hfound
      obtain ⟨⟨⟨hhash', -⟩, -⟩, -⟩ := (hgrants k').1 hgood'
      obtain rfl := hu id id' k k' hk hk' (hhash.trans hhash'.symm)
      obtain rfl := Option.some.inj (hk.symm.trans hk')
      rfl

end Accepted

/-! ## A shared key -/

/-- A caller who manages the organization. -/
def acmeManager : Caller := ⟨"user", .OPERATOR⟩

def acmeRoute (path : String) : Row := Row.ofFields
  [(.name, .str "route"), (.publicPath, .str path), (.targetUrl, .str "http://upstream"), (.organizationId, .str "acme")]
  (by intro c; cases c <;> rfl)

/-- Two routes of one organization, without keys. -/
def acme : KeyRing where
  store := { Store.empty with
    organizations := Table.empty.insert "acme" { name := "Acme" }
    orgMemberships := Table.empty.insert ("user", "acme") .ADMIN
    routes := (Table.empty.insert "orders" (acmeRoute "/r/orders")).insert "invoices" (acmeRoute "/r/invoices") }
  apiKeys := .empty

/-- A key of the one route that is good for the other too. -/
def agentKey : KeyOp :=
  .create "orders" ⟨"key", "5ec2e7"⟩ (.obj [("name", .str "agent"), ("routeIds", .arr [.str "invoices"])])

def agentRow : ApiKey := ⟨"orders", "cgk_5ec2e7", true, .FULL, none, ["invoices"], []⟩

theorem agentKey_answered : (agentKey.perform World.plain (fun _ => none) acmeManager acme).1 =
    .ok (.created ⟨"key", "agent", agentRow, "cgk_5ec2e7"⟩) := rfl

theorem acmeManager_writes : MayWrite acme.store acmeManager "orders" := ⟨by decide, by decide +kernel⟩

/-- The query of `verifyApiKey` answers a key's id and scope exactly if a caller who could then
    write the key's route had the key issued, and was told this text, nobody has revoked or deleted
    it since and its route has not been removed, it has not expired, and the route is the key's own
    or, since a caller who could then write the key's route and manage this one, or the folder it is
    in now, opened it to the key, nobody has taken it back and neither has been removed. -/
theorem accepted_iff_opened (W : World) (instant : String → Option Nat) {g₀ : KeyRing}
    (hg₀ : ∀ id, g₀.apiKeys.get? id = none) (es : List RingEvent) (key routeId : String) (date : Nat) (id : String)
    (scope : ApiKeyScope) :
    ((run (ringStep W instant) g₀ es).accepts (W.sha256 key) routeId date).map (fun found => (found.1, found.2.scope)) =
        some (id, scope) ↔
      ∃ t : KeyTerms, t.keyHash = W.sha256 key ∧ t.scope = scope ∧ t.unexpired date = true ∧
        Since (ringStep W instant) (IssuesKey W instant id t) (WithdrawsKey W instant id t) g₀ es ∧
        (t.routeId = routeId ∨ ∃ p : KeyPlace, p.reaches (run (ringStep W instant) g₀ es).store routeId ∧
          Since (ringStep W instant) (OpensPlace W instant id p) (ShutsPlace W instant id p) g₀ es) := by
  have hstart : g₀.db.UniqueHashes := fun id _ _ _ hk => by
    rw [KeyRing.db, hg₀ id] at hk
    cases hk
  have hunique : (run (ringStep W instant) g₀ es).db.UniqueHashes :=
    run_stable (I := fun g : KeyRing => g.db.UniqueHashes) (fun _ hg e => hashes_step hg e) hstart es
  have hissued : ∀ t, (run (ringStep W instant) g₀ es).Issued id t ↔
      Since (ringStep W instant) (IssuesKey W instant id t) (WithdrawsKey W instant id t) g₀ es := by
    intro t
    have hnone : ¬g₀.Issued id t := by
      intro h
      obtain ⟨k, hk, -⟩ := h
      rw [hg₀ id] at hk
      cases hk
    exact holds_iff_since (I := fun _ => True) (P := fun g => g.Issued id t) (fun _ _ _ => trivial)
      (fun g e _ => issued_step g e) trivial hnone es
  have hopen : ∀ p, (run (ringStep W instant) g₀ es).IsOpen id p ↔
      Since (ringStep W instant) (OpensPlace W instant id p) (ShutsPlace W instant id p) g₀ es := by
    intro p
    have hnone : ¬g₀.IsOpen id p := by
      intro h
      obtain ⟨k, hk, -⟩ := h
      rw [hg₀ id] at hk
      cases hk
    exact holds_iff_since (I := fun _ => True) (P := fun g => g.IsOpen id p) (fun _ _ _ => trivial)
      (fun g e _ => open_step g e) trivial hnone es
  rw [accepts_iff hunique]
  refine exists_congr fun t => and_congr_right fun _ => and_congr_right fun _ => and_congr_right fun _ => ?_
  exact and_congr (hissued t) (or_congr_right (exists_congr fun p => and_congr_right fun _ => hopen p))

theorem agentKey_opens_invoices :
    ((run (ringStep World.plain fun _ => none) acme [.key acmeManager agentKey]).accepts "cgk_5ec2e7" "invoices" 0).map
      (fun found => (found.1, found.2.scope)) = some ("key", .FULL) := by
  have hissued : IssuesKey World.plain (fun _ => none) "key" agentRow.terms acme (.key acmeManager agentKey) :=
    ⟨acmeManager_writes, _, agentKey_answered, rfl, rfl, rfl, rfl⟩
  have hopened : OpensPlace World.plain (fun _ => none) "key" (.route "invoices") acme (.key acmeManager agentKey) :=
    ⟨⟨rfl, by decide, _, rfl, List.mem_singleton_self "invoices"⟩, ⟨_, agentKey_answered⟩, acmeManager_writes, rfl⟩
  exact (accepted_iff_opened World.plain (fun _ => none) (fun _ => rfl) [.key acmeManager agentKey] "cgk_5ec2e7" "invoices" 0
    "key" .FULL).2 ⟨agentRow.terms, rfl, rfl, rfl, ⟨[], _, [], rfl, hissued, trivial⟩,
      .inr ⟨.route "invoices", rfl, [], _, [], rfl, hopened, trivial⟩⟩

end ClusterGate
