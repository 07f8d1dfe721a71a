/-
  ClusterGate.Keys.Usage — how the uses of a key are counted on one replica
  (`services/apiKeyService.ts`: `recordUsage`, `flushUsage`, `verifyApiKey`).

  A verification that returns a key counts its use in memory, in the turn it returns in.
  Every fifteen seconds a flush takes the counts, empties the map and sends one increment
  for each key; the increments land or fail on their own, in any order, while further uses
  are counted. A failed write is caught and what it carried is dropped.
  - `verifyApiKey_tallies`: a verification adds one to the key's account with the turn it
    returns the key in, and nothing with any other.
  - `event_balanced`: what else happens leaves the account as it is, but for a failed write.
  - `usage_accounted`: over a run, what is stored, pending and in flight, and what failed
    writes carried, make up what there was and the answers that returned the key.
  - `a_failed_write_is_dropped`: without the failed writes it is one short.
-/

import Mathlib.Data.List.Perm.Basic
import ClusterGate.Keys.Service
import ClusterGate.Lib.Tally

namespace ClusterGate.Usage

open Lib Async KeyStore

/-! ## The counters -/

/-- The columns of a key's row that are about its use. -/
structure KeyUsage where
  usageCount : Nat
  lastUsedAt : Option Nat
  lastUsedIp : Option String
  deriving DecidableEq

/-- An entry of `pendingUsage`. -/
structure PendingUsage where
  count : Nat
  ip : Option String
  deriving DecidableEq

/-- A write of a flush that is under way. -/
structure UsageWrite where
  id : String
  u : PendingUsage
  now : Nat
  deriving DecidableEq

structure UsageStore where
  keys : KeyStore
  usage : Table String KeyUsage
  pendingUsage : Table String PendingUsage
  writes : List UsageWrite

/-- `if (ip)`: an address that is there and not empty. -/
def givenIp (ip : Option String) : Option String := ip.filter fun ip => ip ≠ ""

def recordUsage (id : String) (ip : Option String) (s : UsageStore) : UsageStore :=
  let cur := (s.pendingUsage.get? id).getD ⟨0, none⟩
  { s with pendingUsage := s.pendingUsage.upsert id ⟨cur.count + 1, (givenIp ip).or cur.ip⟩ }

/-- `flushUsage`, up to its `Promise.all`. -/
def flushUsage (s : UsageStore) : UsageStore :=
  if s.pendingUsage.size = 0 then s
  else { s with pendingUsage := .empty
                writes := s.writes ++ s.pendingUsage.rows.map fun r => ⟨r.1, r.2, s.keys.now⟩ }

/-- The `data` of a flush's write. -/
def UsageWrite.data (w : UsageWrite) (k : KeyUsage) : KeyUsage :=
  ⟨k.usageCount + w.u.count, some w.now, (givenIp w.u.ip).or k.lastUsedIp⟩

/-! ## Verifications -/

def onKeys {α : Type} (x : Act KeyStore Err α) : Act UsageStore Err α := fun s =>
  ((x s.keys).1, { s with keys := (x s.keys).2 })

/-- The first turn: the look into the cache, and a hit is counted. -/
def lookupCounted (cacheKey : String) (ip : Option String) : Act UsageStore Err (Nat × Option CachedKey) := fun s =>
  match s.keys.good cacheKey with
  | some cached => (.ok (s.keys.now, some cached), recordUsage cached.id ip s)
  | none => (.ok (s.keys.now, none), s)

/-- The turn that keeps an answer and counts it. -/
def rememberCounted (cacheKey id : String) (k : ApiKey) (now : Nat) (ip : Option String) : Act UsageStore Err Unit := fun s =>
  (.ok (), recordUsage id ip { s with keys := (remember cacheKey id k now s.keys).2 })

/-- `verifyApiKey`, from the row it found on. -/
def verifyFound (ck : String) (now : Nat) (ip : Option String) :
    Option (String × ApiKey) → Async UsageStore Err (Option (String × ApiKeyScope))
  | none => pure none
  | some (id, k) => do
    await (rememberCounted ck id k now ip)
    pure (some (id, k.scope))

/-- `verifyApiKey`, from its look into the cache on. -/
def verifyLooked (keyHash routeId : String) (ip : Option String) :
    Nat × Option CachedKey → Async UsageStore Err (Option (String × ApiKeyScope))
  | (_, some cached) => pure (some (cached.id, cached.scope))
  | (now, none) => do
    let date ← await (onKeys clock)
    let apiKey ← await (onKeys (findFirst keyHash routeId date))
    verifyFound (cacheKey keyHash routeId) now ip apiKey

def verifyApiKey (keyHash routeId : String) (ip : Option String) : Async UsageStore Err (Option (String × ApiKeyScope)) := do
  let looked ← await (lookupCounted (cacheKey keyHash routeId) ip)
  verifyLooked keyHash routeId ip looked

structure VerifyRequest where
  key : String
  routeId : String
  ip : Option String
  deriving DecidableEq

def VerifyRequest.program (W : World) (r : VerifyRequest) : Async UsageStore Err (Option (String × ApiKeyScope)) :=
  verifyApiKey (W.sha256 r.key) r.routeId r.ip

/-! ## What else happens -/

/-- The timer, the database's answers to a flush's writes, and what others do: a key is
    deleted, or the clock, the cache, the routes and the keys change in any other way. -/
inductive UsageEvent
  | flush
  | landed (n : Nat)
  | failed (n : Nat)
  | deleted (keyId : String)
  | others (keys : KeyStore)

/-- A write lands. If its key is gone it fails with P2025, and is caught as every failure is. -/
def landWrite (n : Nat) (s : UsageStore) : UsageStore :=
  match s.writes[n]? with
  | none => s
  | some w => { s with usage := s.usage.modify w.id w.data, writes := s.writes.eraseIdx n }

def UsageEvent.apply : UsageEvent → UsageStore → UsageStore
  | .flush, s => flushUsage s
  | .landed n, s => landWrite n s
  | .failed n, s => { s with writes := s.writes.eraseIdx n }
  | .deleted keyId, s => { s with
      usage := s.usage.erase keyId
      keys := { s.keys with db := { s.keys.db with apiKeys := s.keys.db.apiKeys.erase keyId } } }
  | .others keys, s => { s with keys := keys }

/-! ## The account of a key -/

namespace UsageStore

def stored (id : String) (s : UsageStore) : Nat := ((s.usage.get? id).map KeyUsage.usageCount).getD 0

def pending (id : String) (s : UsageStore) : Nat := ((s.pendingUsage.get? id).map PendingUsage.count).getD 0

/-- What a write carries for the key. -/
def carried (id : String) (w : UsageWrite) : Nat := if w.id = id then w.u.count else 0

def inFlight (id : String) (s : UsageStore) : Nat := (s.writes.map (carried id)).sum

def accounted (id : String) (s : UsageStore) : Nat := s.stored id + s.pending id + s.inFlight id

/-- The key exists. -/
def HasKey (id : String) (s : UsageStore) : Prop := (s.usage.get? id).isSome = true

instance decidableHasKey (id : String) (s : UsageStore) : Decidable (HasKey id s) :=
  inferInstanceAs (Decidable ((s.usage.get? id).isSome = true))

/-- What a write that fails carries. -/
def lostBy (id : String) : UsageEvent → UsageStore → Nat
  | .failed n, s => ((s.writes[n]?).map (carried id)).getD 0
  | .flush, _ => 0
  | .landed _, _ => 0
  | .deleted _, _ => 0
  | .others _, _ => 0

end UsageStore

open UsageStore

/-- The answer is the key. -/
def isKey (id : String) (answer : Option (String × ApiKeyScope)) : Bool := answer.any fun k => k.1 = id

theorem accounted_recordUsage (id keyId : String) (ip : Option String) (s : UsageStore) :
    (recordUsage keyId ip s).accounted id = s.accounted id + (if keyId = id then 1 else 0) := by
  have hpending : (recordUsage keyId ip s).pending id = s.pending id + (if keyId = id then 1 else 0) := by
    simp only [pending, recordUsage, Table.get?_upsert]
    by_cases h : keyId = id
    · subst h
      simp only [if_true, Option.map_some, Option.getD_some]
      cases s.pendingUsage.get? keyId <;> simp
    · rw [if_neg (Ne.symm h), if_neg h, Nat.add_zero]
  show s.stored id + (recordUsage keyId ip s).pending id + s.inFlight id = _
  rw [hpending, accounted]
  omega

/-- A use is counted in the turn the key is returned in. -/
theorem verifyApiKey_tallies (keyHash routeId : String) (ip : Option String) (id : String) :
    Tallies (accounted id) (isKey id) (verifyApiKey keyHash routeId ip) := by
  have hfound : ∀ now found, Tallies (accounted id) (isKey id) (verifyFound (cacheKey keyHash routeId) now ip found) := by
    intro now found
    cases found with
    | none => exact tallies_pure none
    | some row =>
      obtain ⟨keyId, k⟩ := row
      refine tallies_await ?_ (fun s e he => by cases he)
      intro s b _
      refine ⟨?_, tallies_pure _⟩
      rw [gave_pure]
      show (recordUsage keyId ip _).accounted id = _
      rw [accounted_recordUsage]
      simp [isKey, accounted, stored, pending, inFlight]
  have hmissed : ∀ now, Tallies (accounted id) (isKey id) (verifyLooked keyHash routeId ip (now, none)) := by
    intro now
    refine tallies_await ?_ (fun s e he => by cases he)
    intro s date _
    refine ⟨rfl, tallies_await ?_ (fun s e he => by cases he)⟩
    intro t found _
    refine ⟨?_, hfound now found⟩
    cases found <;> rfl
  refine tallies_await ?_ ?_
  · intro s looked hl
    unfold lookupCounted at hl ⊢
    cases hg : s.keys.good (cacheKey keyHash routeId) with
    | none =>
      rw [hg] at hl
      obtain rfl := Except.ok.inj hl
      exact ⟨rfl, hmissed _⟩
    | some cached =>
      rw [hg] at hl
      obtain rfl := Except.ok.inj hl
      refine ⟨?_, tallies_pure _⟩
      show (recordUsage cached.id ip s).accounted id = s.accounted id + (if isKey id (some (cached.id, cached.scope)) then 1 else 0)
      rw [accounted_recordUsage]
      simp [isKey]
  · intro s e he
    unfold lookupCounted at he
    cases hg : s.keys.good (cacheKey keyHash routeId) <;> rw [hg] at he <;> cases he

/-! ## The balance -/

/-- No turn of a verification makes a key. -/
theorem verifyApiKey_keeps (keyHash routeId : String) (ip : Option String) (id : String) :
    EveryStep (fun s s' => HasKey id s' → HasKey id s) (verifyApiKey keyHash routeId ip) := by
  refine everyStep_bind (everyStep_await ?_) ?_
  · intro s
    unfold lookupCounted
    cases s.keys.good (cacheKey keyHash routeId) <;> exact fun h => h
  · intro looked
    obtain ⟨now, cached⟩ := looked
    cases cached with
    | some cached => exact everyStep_pure _
    | none =>
      refine everyStep_bind (everyStep_await fun s h => h) fun date => ?_
      refine everyStep_bind (everyStep_await fun s h => h) fun found => ?_
      cases found with
      | none => exact everyStep_pure _
      | some row => exact everyStep_bind (everyStep_await fun s h => h) fun _ => everyStep_pure _

/-- The counts a flush takes for a key are what was pending for it. -/
theorem sum_rows_carried (id : String) (now : Nat) (t : Table String PendingUsage) :
    ((t.rows.map fun r => (⟨r.1, r.2, now⟩ : UsageWrite)).map (carried id)).sum =
      ((t.get? id).map PendingUsage.count).getD 0 := by
  obtain ⟨rows, nodup⟩ := t
  unfold Table.get?
  induction rows with
  | nil => rfl
  | cons r rows ih =>
    rw [List.map_cons, List.nodup_cons] at nodup
    have hrest := ih nodup.2
    rw [List.map_cons, List.map_cons, List.sum_cons, hrest, List.find?_cons]
    by_cases hr : r.1 = id
    · have hnone : rows.find? (fun q => q.1 = id) = none := by
        rw [List.find?_eq_none]
        intro q hq hqid
        exact nodup.1 (List.mem_map.2 ⟨q, hq, (of_decide_eq_true hqid).trans hr.symm⟩)
      simp [carried, hr, hnone]
    · simp [carried, hr]

theorem sum_eraseIdx {α : Type} (f : α → Nat) {l : List α} {n : Nat} {a : α} (h : l[n]? = some a) :
    ((l.eraseIdx n).map f).sum + f a = (l.map f).sum := by
  obtain ⟨hn, rfl⟩ := List.getElem?_eq_some_iff.1 h
  have hsum := ((List.getElem_cons_eraseIdx_perm hn).map f).sum_nat
  rw [List.map_cons, List.sum_cons] at hsum
  omega

theorem usage_flushUsage (s : UsageStore) : (flushUsage s).usage = s.usage := by
  unfold flushUsage
  split <;> rfl

theorem accounted_flushUsage (id : String) (s : UsageStore) : (flushUsage s).accounted id = s.accounted id := by
  unfold flushUsage
  by_cases h : s.pendingUsage.size = 0
  · rw [if_pos h]
  · rw [if_neg h]
    simp only [accounted, stored, pending, inFlight, List.map_append, List.sum_append]
    rw [sum_rows_carried]
    simp
    omega

theorem landWrite_none {n : Nat} {s : UsageStore} (hw : s.writes[n]? = none) : landWrite n s = s := by
  unfold landWrite
  rw [hw]

theorem landWrite_some {n : Nat} {s : UsageStore} {w : UsageWrite} (hw : s.writes[n]? = some w) :
    landWrite n s = { s with usage := s.usage.modify w.id w.data, writes := s.writes.eraseIdx n } := by
  unfold landWrite
  rw [hw]

theorem landWrite_hasKey {id : String} {n : Nat} {s : UsageStore} : HasKey id (landWrite n s) ↔ HasKey id s := by
  unfold HasKey
  cases hw : s.writes[n]? with
  | none => rw [landWrite_none hw]
  | some w =>
    rw [landWrite_some hw, Table.get?_modify]
    by_cases hid : id = w.id
    · rw [if_pos hid, Option.isSome_map, hid]
    · rw [if_neg hid]

/-- A write that lands moves what it carries. -/
theorem accounted_landWrite {id : String} {n : Nat} {s : UsageStore} (h : HasKey id (landWrite n s)) :
    (landWrite n s).accounted id = s.accounted id := by
  cases hw : s.writes[n]? with
  | none => rw [landWrite_none hw]
  | some w =>
    obtain ⟨k, hk⟩ := Option.isSome_iff_exists.1 (landWrite_hasKey.1 h)
    have hrest := sum_eraseIdx (carried id) hw
    rw [landWrite_some hw]
    simp only [accounted, stored, pending, inFlight, Table.get?_modify]
    by_cases hid : id = w.id
    · have hc : carried id w = w.u.count := by
        rw [carried, if_pos hid.symm]
      subst hid
      simp only [if_true, hk, Option.map_some, Option.getD_some, UsageWrite.data]
      omega
    · have hc : carried id w = 0 := by
        rw [carried, if_neg (Ne.symm hid)]
      rw [if_neg hid]
      omega

/-- What else happens loses what a failed write carries, while the key exists. -/
theorem event_balanced (id : String) (e : UsageEvent) (s : UsageStore) (h : HasKey id (e.apply s)) :
    (e.apply s).accounted id + lostBy id e s = s.accounted id := by
  cases e with
  | flush => exact accounted_flushUsage id s
  | landed n => exact accounted_landWrite h
  | failed n =>
    show (UsageEvent.apply (.failed n) s).accounted id + ((s.writes[n]?).map (carried id)).getD 0 = _
    simp only [UsageEvent.apply, accounted, stored, pending, inFlight]
    cases hw : s.writes[n]? with
    | none =>
      rw [List.eraseIdx_of_length_le (List.getElem?_eq_none_iff.1 hw)]
      rfl
    | some w =>
      have hrest := sum_eraseIdx (carried id) hw
      simp only [Option.map_some, Option.getD_some]
      omega
  | deleted keyId =>
    have hne : id ≠ keyId := by
      rintro rfl
      simp [HasKey, UsageEvent.apply] at h
    show (UsageEvent.apply (.deleted keyId) s).accounted id = _
    simp [UsageEvent.apply, accounted, stored, pending, inFlight, hne]
  | others keys => rfl

theorem event_keeps (id : String) (e : UsageEvent) (s : UsageStore) (h : HasKey id (e.apply s)) : HasKey id s := by
  cases e with
  | flush =>
    unfold HasKey at h ⊢
    rw [← usage_flushUsage s]
    exact h
  | landed n => exact landWrite_hasKey.1 h
  | failed n => exact h
  | deleted keyId =>
    unfold HasKey UsageEvent.apply at h
    simp only [Table.get?_erase] at h
    by_cases hid : id = keyId
    · rw [if_pos hid] at h
      cases h
    · rw [if_neg hid] at h
      exact h
  | others keys => exact h

abbrev UsagePool := Pool UsageStore (Call VerifyRequest UsageStore)

def usageStep (W : World) : UsagePool → Move UsageEvent → UsagePool :=
  Pool.step (Call.advance (VerifyRequest.program W)) UsageEvent.apply

/-- How many verifications have returned the key. -/
def returned (W : World) (id : String) (P : UsagePool) : Nat := P.given (VerifyRequest.program W) (isKey id)

/-- What the failed writes of a run carried for the key. -/
def lost (W : World) (id : String) (P : UsagePool) (ms : List (Move UsageEvent)) : Nat :=
  P.lost (VerifyRequest.program W) UsageEvent.apply (lostBy id) ms

/-- Whatever the order, as long as the key exists: its stored count, what is pending, what is
    in flight and what failed writes carried are the account it had and the answers since. -/
theorem usage_accounted (W : World) (id : String) (P : UsagePool) (ms : List (Move UsageEvent))
    (h : HasKey id (run (usageStep W) P ms).shared) :
    (run (usageStep W) P ms).shared.accounted id + lost W id P ms + returned W id P =
      P.shared.accounted id + returned W id (run (usageStep W) P ms) :=
  Pool.tally_run (fun r => verifyApiKey_tallies (W.sha256 r.key) r.routeId r.ip id)
    (fun r => verifyApiKey_keeps (W.sha256 r.key) r.routeId r.ip id) (event_keeps id) (event_balanced id) h

/-- Key `k` of route `a` is not in the cache, and has been used seven times. -/
def usedKey : UsageStore where
  keys := ⟨0, ⟨Table.empty.insert "k" ⟨"a", "secret", true, .FULL, none, [], []⟩,
    Table.empty.insert "a" ⟨none, false⟩, []⟩, .empty⟩
  usage := Table.empty.insert "k" ⟨7, none, none⟩
  pendingUsage := .empty
  writes := []

/-- Two requests with the key. -/
def twoUses : UsagePool := ⟨usedKey, [.start ⟨"secret", "a", some "10.0.0.1"⟩, .start ⟨"secret", "a", none⟩]⟩

/-- The first is served from the database and flushed, the second from the cache; then the
    database answers. -/
def flushedBetween (answer : UsageEvent) : List (Move UsageEvent) :=
  [.call 0, .call 0, .call 0, .call 0, .other .flush, .call 1, .other answer]

theorem usage_accounted_landed :
    (run (usageStep World.plain) twoUses (flushedBetween (.landed 0))).shared.accounted "k" +
        lost World.plain "k" twoUses (flushedBetween (.landed 0)) + returned World.plain "k" twoUses =
      twoUses.shared.accounted "k" + returned World.plain "k" (run (usageStep World.plain) twoUses (flushedBetween (.landed 0))) :=
  usage_accounted World.plain "k" twoUses (flushedBetween (.landed 0)) (by decide +kernel)

/-- The write of the flush fails: two answers returned the key, one of them is accounted for. -/
theorem a_failed_write_is_dropped :
    HasKey "k" (run (usageStep World.plain) twoUses (flushedBetween (.failed 0))).shared ∧
      twoUses.shared = usedKey ∧ usedKey.accounted "k" = 7 ∧ returned World.plain "k" twoUses = 0 ∧
      returned World.plain "k" (run (usageStep World.plain) twoUses (flushedBetween (.failed 0))) = 2 ∧
      (run (usageStep World.plain) twoUses (flushedBetween (.failed 0))).shared.accounted "k" = 8 :=
  ⟨by decide +kernel, rfl, by decide +kernel, by decide +kernel, by decide +kernel, by decide +kernel⟩

end ClusterGate.Usage
