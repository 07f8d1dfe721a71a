/-
  ClusterGate.Duplicates — what the copy of a route is (`services/routeService.ts`:
  `duplicateRoute`).

  The copy is created with every column of the original that is not listed as left out,
  under the first of the paths `-copy`, `-copy-1` to `-copy-10` behind the original's that
  no live route has. The listed ones are ids, authors and times: the slug and the state of
  the circuit breaker go with the copy.
  - `copyPath_free_iff`: when the path the search ends at is free, archived routes included.
  - `duplicateRoute_returns`: when the database takes the copy; never if the route has a slug.
  - `duplicate_is_copy_iff`: no copy has a slug of its own, and which originals get one that
    is otherwise as it should be.
  - `a_slug_is_copied`: a route with a slug is not duplicated at all.
-/

import ClusterGate.Route.Names
import ClusterGate.StoredValidity

namespace ClusterGate

open Lib Lib.Act Lib.Table

/-! ## The path of a copy -/

/-- The paths the search goes through. -/
def copyName (base : String) : Nat → String
  | 0 => base ++ "-copy"
  | n + 1 => base ++ "-copy-" ++ toString (n + 1)

/-- The search ends at the first candidate without a clash, or at the last. -/
theorem copyPath_search (clash : String → Bool) (base : String) (rounds n : Nat) :
    ∃ k ≤ rounds, copyPath clash base rounds n (copyName base n) = copyName base (n + k) ∧
      (∀ m < k, clash (copyName base (n + m)) = true) ∧ (k = rounds ∨ clash (copyName base (n + k)) = false) := by
  induction rounds generalizing n with
  | zero => exact ⟨0, Nat.le_refl 0, rfl, fun m hm => absurd hm (Nat.not_lt_zero m), Or.inl rfl⟩
  | succ rounds ih =>
    unfold copyPath
    cases hc : clash (copyName base n) with
    | false =>
      refine ⟨0, by omega, by simp, fun m hm => absurd hm (Nat.not_lt_zero m), Or.inr ?_⟩
      exact hc
    | true =>
      obtain ⟨k, hk, hpath, hclash, hend⟩ := ih (n + 1)
      have shift : ∀ m, n + 1 + m = n + (m + 1) := fun m => by omega
      refine ⟨k + 1, by omega, ?_, ?_, ?_⟩
      · rw [if_pos rfl]
        exact hpath.trans (congrArg (copyName base) (shift k))
      · intro m hm
        cases m with
        | zero => exact hc
        | succ m =>
          rw [← shift]
          exact hclash m (by omega)
      · rw [← shift]
        exact hend.imp_left (congrArg (· + 1))

/-- A live route has the path. -/
def liveHolds (s : Store) (path : String) : Bool := s.routes.any fun _ r => r.live && r.val .publicPath = .str path

/-- Some route has the path, live or archived. -/
def Held (s : Store) (path : String) : Prop := ∃ k r, s.routes.get? k = some r ∧ r.val .publicPath = .str path

theorem Held.of_live {s : Store} {path : String} (h : liveHolds s path = true) : Held s path := by
  obtain ⟨k, r, hr, hp⟩ := any_iff.1 h
  simp only [Bool.and_eq_true, decide_eq_true_eq] at hp
  exact ⟨k, r, hr, hp.2⟩

/-- The first candidate that no live route has, or the eleventh, no route has. -/
def CopyNameFree (s : Store) (base : String) : Prop :=
  ∃ n ≤ 10, (∀ m < n, liveHolds s (copyName base m) = true) ∧ ¬Held s (copyName base n)

theorem copyPath_free_iff {s : Store} {base : String} :
    ¬Held s (copyPath (liveHolds s) base 10 0 (base ++ "-copy")) ↔ CopyNameFree s base := by
  obtain ⟨k, hk, hpath, hclash, hend⟩ := copyPath_search (liveHolds s) base 10 0
  simp only [Nat.zero_add] at hpath hclash hend
  have hsearch : copyPath (liveHolds s) base 10 0 (base ++ "-copy") = copyName base k := hpath
  rw [hsearch]
  constructor
  · intro h
    exact ⟨k, hk, hclash, h⟩
  · rintro ⟨n, hn, hlive, hfree⟩
    obtain hlt | rfl | hgt := Nat.lt_trichotomy n k
    · exact absurd (Held.of_live (hclash n hlt)) hfree
    · exact hfree
    · rcases hend with rfl | hend
      · omega
      · rw [hlive k hgt] at hend
        cases hend

/-- What stands behind the original's path. -/
theorem copyName_tail (base : String) (n : Nat) :
    ∃ c t, (copyName base n).toList = base.toList ++ '-' :: (t ++ [c]) ∧ c ≠ '*' := by
  cases n with
  | zero => exact ⟨'y', "cop".toList, by simp [copyName], by decide⟩
  | succ n =>
    have hne : Nat.toDigits 10 (n + 1) ≠ [] := Nat.toDigits_ne_nil
    refine ⟨(Nat.toDigits 10 (n + 1)).getLast hne, "copy-".toList ++ (Nat.toDigits 10 (n + 1)).dropLast, ?_, ?_⟩
    · simp [copyName, List.append_assoc, List.dropLast_append_getLast hne]
    · have hdigit := Nat.isDigit_of_mem_toDigits (by decide) (by decide) (List.getLast_mem hne)
      intro he
      rw [he] at hdigit
      cases hdigit

/-- No copy is a wildcard. -/
theorem copyName_exact (base : String) (n : Nat) : wildcard (copyName base n) = false := by
  obtain ⟨c, t, hlist, hc⟩ := copyName_tail base n
  rw [← List.cons_append, ← List.append_assoc] at hlist
  exact wildcard_of_last hlist hc

/-- A copy's path is one the schema takes if the original's is. -/
theorem copyName_underRoutes (base : String) (n : Nat) : UnderRoutes (copyName base n) ↔ UnderRoutes base := by
  obtain ⟨c, t, hlist, -⟩ := copyName_tail base n
  exact underRoutes_dash hlist

/-! ## The copy -/

section Copies

variable {s : Store} {now newId id userId : String} {r : Row}

/-- What the database is given for a copy. -/
def copyRow (s : Store) (now userId : String) (r : Row) : Patch :=
  stamped now ((duplicateData s userId r).set .createdAt (.str now))

theorem copyRow_copies {c : Column} (hc : c ∉ OWN_OF_DUPLICATE) : copyRow s now userId r c = some (r.val c) := by
  cases c <;> first | rfl | exact absurd (by decide) hc

/-- Every value of a copy is one its column takes. -/
theorem copyRow_created : ∃ r', Row.create (copyRow s now userId r) = some r' := by
  have field : ∀ c, (createdField (copyRow s now userId r) c).isSome = true := by
    intro c
    by_cases hc : c ∈ OWN_OF_DUPLICATE
    · simp only [OWN_OF_DUPLICATE, NOT_COPIED, List.cons_append, List.nil_append, List.mem_cons, List.not_mem_nil,
        or_false] at hc
      rcases hc with rfl | rfl | rfl | rfl | rfl | rfl | rfl | rfl | rfl | rfl <;> rfl
    · rw [createdField, copyRow_copies hc]
      simp [Column.coerce_admitted (r.typed c), r.typed c]
  unfold Row.create
  rw [dif_pos field]
  exact ⟨_, rfl⟩

/-- What a row refers to exists. -/
structure RefsExist (s : Store) (r : Row) : Prop where
  organization : refersTo s.organizations (r.val .organizationId) = true
  routeGroup : refersTo s.routeGroups (r.val .routeGroupId) = true
  folder : refersTo s.routeFolders (r.val .folderId) = true

theorem refsOk_iff : refsOk s (fun c => some (r.val c)) r = true ↔ RefsExist s r := by
  simp only [refsOk, Option.isNone_some, Bool.false_or, Bool.and_eq_true]
  exact ⟨fun h => ⟨h.1.1, h.1.2, h.2⟩, fun h => ⟨⟨h.organization, h.routeGroup⟩, h.folder⟩⟩

theorem taken_path (hnew : s.routes.get? newId = none) {p : String} :
    taken s newId .publicPath (.str p) = true ↔ Held s p := by
  rw [taken_iff]
  constructor
  · rintro ⟨-, k, q, -, hq, hp⟩
    exact ⟨k, q, hq, hp⟩
  · rintro ⟨k, q, hq, hp⟩
    refine ⟨nofun, k, q, ?_, hq, hp⟩
    rintro rfl
    rw [hnew] at hq
    cases hq

/-- The original has its slug already. -/
theorem taken_slug (hnew : s.routes.get? newId = none) (hr : s.routes.get? id = some r) :
    taken s newId .slug (r.val .slug) = false ↔ r.val .slug = .null := by
  constructor
  · intro h
    by_contra hne
    have hother : id ≠ newId := by
      rintro rfl
      rw [hnew] at hr
      cases hr
    rw [taken_iff.2 ⟨hne, id, r, hother, hr, rfl⟩] at h
    cases h
  · intro h
    rw [h]
    exact taken_null

/-- What a copy takes over. -/
theorem copyRow_val {r' : Row} (hrow : Row.create (copyRow s now userId r) = some r') {c : Column} (hc : c ∉ OWN_OF_DUPLICATE) :
    r'.val c = r.val c := create_given hrow (copyRow_copies hc) (Column.coerce_admitted (r.typed c))

theorem copyRow_path {r' : Row} (hrow : Row.create (copyRow s now userId r) = some r') :
    r'.val .publicPath = .str (copyPath (liveHolds s) (r.string .publicPath) 10 0 (r.string .publicPath ++ "-copy")) :=
  create_given hrow rfl rfl

theorem copyRow_unique (hr : s.routes.get? id = some r) (hnew : s.routes.get? newId = none) {r' : Row}
    (hrow : Row.create (copyRow s now userId r) = some r') :
    uniqueOk s newId (fun c => some (r'.val c)) r' = true ↔
      CopyNameFree s (r.string .publicPath) ∧ r.val .slug = .null := by
  rw [← copyPath_free_iff, ← taken_path hnew, ← taken_slug hnew hr, ← copyRow_path hrow, ← copyRow_val hrow (c := .slug) (by decide)]
  simp [uniqueOk]

theorem copyRow_refs {r' : Row} (hrow : Row.create (copyRow s now userId r) = some r') :
    refsOk s (fun c => some (r'.val c)) r' = true ↔ RefsExist s r := by
  rw [refsOk_iff]
  have horg := copyRow_val hrow (c := .organizationId) (by decide)
  have hgroup := copyRow_val hrow (c := .routeGroupId) (by decide)
  have hfolder := copyRow_val hrow (c := .folderId) (by decide)
  constructor <;>
  · intro h
    refine ⟨?_, ?_, ?_⟩
    · simpa only [horg] using h.organization
    · simpa only [hgroup] using h.routeGroup
    · simpa only [hfolder] using h.folder

/-- The database takes a copy of a route that has no slug, if the path it is to have is free
    and what it refers to exists. -/
theorem duplicateRoute_returns (hr : liveRoute? s id = some r) (hnew : s.routes.get? newId = none) {r' : Row}
    (hrow : Row.create (copyRow s now userId r) = some r') {a : Row} {s' : Store} :
    Returns (duplicateRoute now newId id userId) s a s' ↔
      (CopyNameFree s (r.string .publicPath) ∧ r.val .slug = .null) ∧ RefsExist s r ∧
        a = r' ∧ s' = { s with routes := s.routes.insert newId r' } := by
  have hcreate : Row.create (stamped now ((duplicateData s userId r).set .createdAt (.str now))) = some r' := hrow
  rw [← copyRow_unique (liveRoute?_iff.1 hr).1 hnew hrow, ← copyRow_refs hrow]
  unfold duplicateRoute routeCreate findLive
  simp only [bind_assoc, returns_read_bind, hr, hcreate, hnew, returns_orThrow_bind, returns_require_bind, Option.isNone_none,
    returns_modify_bind, returns_pure, Option.some.injEq, exists_eq_left', true_and]

/-! ## What a copy should be -/

/-- The columns a copy need not take over: those of its own, its slug, and what the proxy
    keeps of the traffic. -/
def OWN_OF_COPY : List Column :=
  OWN_OF_DUPLICATE ++ [.slug, .cbState, .cbFailureCount, .cbLastFailureAt, .cbOpenedAt, .lbRrIndex]

/-- A copy as it should be, but for its slug; everything else stays. -/
structure IsCopy (s s' : Store) (newId : String) (r r' : Row) : Prop where
  inactive : r'.val .isActive = .bool false
  draft : r'.val .status = .str "DRAFT"
  firstVersion : r'.val .version = .num 1
  unused : ¬Held s (r'.string .publicPath)
  sameKind : wildcard (r'.string .publicPath) = wildcard (r.string .publicPath)
  validPath : ∀ W, FieldOk W .publicPath (r'.val .publicPath)
  configuration : ∀ c, c ∉ OWN_OF_COPY → r'.val c = r.val c
  closed : r'.val .cbState = .str "CLOSED"
  noFailures : r'.val .cbFailureCount = .num 0
  added : ∀ k, s'.routes.get? k = if k = newId then some r' else s.routes.get? k
  others : s' = { s with routes := s'.routes }

/-- A slug that no other route has. -/
def OwnSlug (s : Store) (r' : Row) : Prop :=
  ∃ slug, r'.val .slug = .str slug ∧ ∀ k q, s.routes.get? k = some q → q.val .slug ≠ .str slug

/-- The routes that get a copy as it should be, but for the slug. -/
structure Copyable (s : Store) (r : Row) : Prop where
  noSlug : r.val .slug = .null
  exact : wildcard (r.string .publicPath) = false
  validPath : UnderRoutes (r.string .publicPath)
  free : CopyNameFree s (r.string .publicPath)
  closed : r.val .cbState = .str "CLOSED"
  noFailures : r.val .cbFailureCount = .num 0
  refs : RefsExist s r

theorem copyRow_name {r' : Row} (hrow : Row.create (copyRow s now userId r) = some r') :
    ∃ n, r'.string .publicPath = copyName (r.string .publicPath) n ∧ r'.val .publicPath = .str (r'.string .publicPath) := by
  obtain ⟨k, -, hpath, -⟩ := copyPath_search (liveHolds s) (r.string .publicPath) 10 0
  have hval : r'.val .publicPath = .str (copyName (r.string .publicPath) (0 + k)) :=
    (copyRow_path hrow).trans (congrArg Json.str hpath)
  have hstring : r'.string .publicPath = copyName (r.string .publicPath) (0 + k) := by
    rw [Row.string, Row.text, hval]
    rfl
  exact ⟨0 + k, hstring, hstring ▸ hval⟩

theorem Copyable.isCopy (h : Copyable s r) (hnew : s.routes.get? newId = none) {r' : Row}
    (hrow : Row.create (copyRow s now userId r) = some r') :
    IsCopy s { s with routes := s.routes.insert newId r' } newId r r' := by
  obtain ⟨n, hname, hval⟩ := copyRow_name hrow
  constructor
  case inactive => exact create_given hrow rfl rfl
  case draft => exact create_given hrow rfl rfl
  case firstVersion => exact create_given hrow rfl rfl
  case unused =>
    have hsearch := (copyRow_path hrow).symm.trans hval
    rw [Json.str.injEq] at hsearch
    rw [← hsearch]
    exact copyPath_free_iff.2 h.free
  case sameKind => rw [hname, copyName_exact, h.exact]
  case validPath =>
    intro W
    refine fieldOk_path.2 ⟨_, hval, ?_⟩
    rw [hname]
    exact (copyName_underRoutes _ _).2 h.validPath
  case configuration =>
    intro c hc
    exact copyRow_val hrow fun hown => hc (List.mem_append_left _ hown)
  case closed => exact (copyRow_val hrow (by decide)).trans h.closed
  case noFailures => exact (copyRow_val hrow (by decide)).trans h.noFailures
  case added => exact fun k => get?_insert hnew r' k
  case others => rfl

theorem IsCopy.copyable {s' : Store} {r' : Row} (h : IsCopy s s' newId r r')
    (hrow : Row.create (copyRow s now userId r) = some r') (hslug : r.val .slug = .null)
    (hfree : CopyNameFree s (r.string .publicPath)) (hrefs : RefsExist s r) : Copyable s r := by
  obtain ⟨n, hname, hval⟩ := copyRow_name hrow
  constructor
  case noSlug => exact hslug
  case exact =>
    rw [← h.sameKind, hname]
    exact copyName_exact _ _
  case validPath =>
    obtain ⟨p, hp, hvalid⟩ := fieldOk_path.1 (h.validPath World.plain)
    rw [hval, Json.str.injEq, hname] at hp
    rw [← hp] at hvalid
    exact (copyName_underRoutes _ _).1 hvalid
  case free => exact hfree
  case closed => exact (copyRow_val hrow (by decide)).symm.trans h.closed
  case noFailures => exact (copyRow_val hrow (by decide)).symm.trans h.noFailures
  case refs => exact hrefs

/-- No copy has a slug of its own. A copy is as it should be apart from that exactly if the
    original has no slug, is no wildcard, has a closed breaker without failures, and the
    search ends at a free path. -/
theorem duplicate_is_copy_iff (hr : liveRoute? s id = some r) (hnew : s.routes.get? newId = none) :
    (¬∃ r' s', Returns (duplicateRoute now newId id userId) s r' s' ∧ IsCopy s s' newId r r' ∧ OwnSlug s r') ∧
      ((∃ r' s', Returns (duplicateRoute now newId id userId) s r' s' ∧ IsCopy s s' newId r r') ↔ Copyable s r) := by
  obtain ⟨copy, hrow⟩ : ∃ r', Row.create (copyRow s now userId r) = some r' := copyRow_created
  have returns : ∀ a s', Returns (duplicateRoute now newId id userId) s a s' ↔ _ :=
    fun _ _ => duplicateRoute_returns hr hnew hrow
  refine ⟨?_, ?_, ?_⟩
  · rintro ⟨a, s', hret, -, slug, hslug, -⟩
    obtain ⟨⟨-, hnull⟩, -, rfl, -⟩ := (returns a s').1 hret
    rw [copyRow_val hrow (by decide), hnull] at hslug
    cases hslug
  · rintro ⟨a, s', hret, hcopy⟩
    obtain ⟨⟨hfree, hnull⟩, hrefs, rfl, -⟩ := (returns a s').1 hret
    exact hcopy.copyable hrow hnull hfree hrefs
  · intro h
    exact ⟨copy, _, (returns copy _).2 ⟨⟨h.free, h.noSlug⟩, h.refs, rfl, rfl⟩, h.isCopy hnew hrow⟩

end Copies

/-! ## Two routes -/

namespace Duplicating

/-- A route as it is created: no one has named it in letters a slug is made of. -/
def unnamed : Row := Row.ofFields
  [(.name, .str "店"), (.publicPath, .str "/r/shop"), (.targetUrl, .str "http://backend.svc"),
   (.createdAt, .str "2026-01-01T00:00:00.000Z"), (.updatedAt, .str "2026-01-01T00:00:00.000Z")] (by intro c; cases c <;> rfl)

def named : Row := shopRoute

def storeOf (r : Row) : Store := { Store.empty with routes := Table.empty.insert "original" r }

theorem storeOf_get (r : Row) {k : String} {q : Row} (h : (storeOf r).routes.get? k = some q) : k = "original" ∧ q = r := by
  rw [storeOf, get?_insert rfl, get?_empty] at h
  split at h
  · rename_i hk
    exact ⟨hk, (Option.some.inj h).symm⟩
  · cases h

theorem storeOf_unique (r : Row) : (storeOf r).NamesUnique := by
  intro j k a b ha hb hne
  rw [(storeOf_get r ha).1, (storeOf_get r hb).1] at hne
  exact absurd rfl hne

theorem unnamed_free : CopyNameFree (storeOf unnamed) (unnamed.string .publicPath) := by
  refine ⟨0, by decide, fun m hm => absurd hm (Nat.not_lt_zero m), ?_⟩
  rintro ⟨k, q, hq, hp⟩
  rw [(storeOf_get unnamed hq).2] at hp
  have hpath : unnamed.val .publicPath ≠ .str (copyName (unnamed.string .publicPath) 0) := by decide
  exact hpath hp

end Duplicating

theorem an_unnamed_route_is_copied :
    ∃ r' s', Returns (duplicateRoute "2026-01-02T00:00:00.000Z" "copy" "original" "admin")
      (Duplicating.storeOf Duplicating.unnamed) r' s' ∧
      IsCopy (Duplicating.storeOf Duplicating.unnamed) s' "copy" Duplicating.unnamed r' :=
  (duplicate_is_copy_iff (show liveRoute? (Duplicating.storeOf Duplicating.unnamed) "original" = some Duplicating.unnamed
    from rfl) rfl).2.2
    ⟨rfl, by decide, ⟨"shop".toList, rfl⟩, Duplicating.unnamed_free, rfl, rfl, ⟨rfl, rfl, rfl⟩⟩

/-- The copy comes with the slug of the original, which the database has already. -/
theorem a_slug_is_copied :
    ((duplicateRoute "2026-01-02T00:00:00.000Z" "copy" "original" "admin") (Duplicating.storeOf Duplicating.named)).1 =
        .error (.prisma "P2002") ∧
      ¬∀ (s : Store) (now newId id userId : String) (r : Row), s.NamesUnique → liveRoute? s id = some r →
        s.routes.get? newId = none →
          ∃ r' s', Returns (duplicateRoute now newId id userId) s r' s' ∧ IsCopy s s' newId r r' ∧ OwnSlug s r' := by
  have hrefused : ((duplicateRoute "2026-01-02T00:00:00.000Z" "copy" "original" "admin")
      (Duplicating.storeOf Duplicating.named)).1 = .error (.prisma "P2002") := rfl
  refine ⟨hrefused, ?_⟩
  intro h
  obtain ⟨r', s', hret, -, -⟩ := h (Duplicating.storeOf Duplicating.named) "2026-01-02T00:00:00.000Z" "copy"
    "original" "admin" Duplicating.named (Duplicating.storeOf_unique _) rfl rfl
  rw [Returns] at hret
  rw [hret] at hrefused
  cases hrefused

end ClusterGate
