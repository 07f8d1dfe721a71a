/-
  ClusterGate.Log.Listing — the request log, filtered and read page by page
  (`services/logService.ts`: `getRouteLogs`, `sourceWhere`).

  The filters are spread into one object, where a later key takes the place of an earlier one:
  the search writes the `OR` of the status filter over.
  - `selects_logWhere`: what the object asks of a row.
  - `log_pages_iff`: the pages show every row that meets the filters exactly once, however the
    database arranges rows of one time, exactly if no two of one time meet at a page boundary.
-/

import ClusterGate.Errors
import ClusterGate.Lib.Paging
import ClusterGate.Log.Buckets
import ClusterGate.Log.Stats

namespace ClusterGate.Log

open Lib Lib.Sql

/-! ## The filters -/

/-- What the listing reads of a row. -/
structure LogEntry extends LogRow where
  id : String
  routeId : Option String
  method : String
  path : String
  ip : Option String
  source : RequestSource
  /-- Milliseconds since the epoch. -/
  createdAt : Int
  deriving DecidableEq

inductive SourceFilter
  | traffic | all | test | health
  deriving DecidableEq

def SOURCE_FILTERS : SourceFilter → Option (List RequestSource)
  | .traffic => some [.TRAFFIC]
  | .all => none
  | .test => some [.TEST]
  | .health => some [.HEALTH_CHECK]

structure LogFilters where
  routeId : Option String := none
  method : Option String := none
  statusType : Option StatusType := none
  dateFrom : Option Int := none
  dateTo : Option Int := none
  search : Option String := none
  organizationIds : Option (List String) := none
  source : SourceFilter := .traffic

/-- The log, with the organization of each route that has one. -/
structure LogDb where
  logs : List LogEntry
  organizationOf : String → Option String

/-! ## The object -/

inductive WhereKey
  | routeId | route | method | responseStatus | error | createdAt | AND | OR
  deriving DecidableEq

/-- A condition on a row, as the database evaluates it. -/
abbrev Cond := LogEntry → Truth

abbrev Where := List (WhereKey × Cond)

/-- `{ ...w, ...v }` -/
def spread (w v : Where) : Where := w.filter (fun c => !v.any fun d => d.1 = c.1) ++ v

def Where.matches (w : Where) : Cond := fun e => Sql.all (w.map fun c => c.2 e)

/-- The values of a filter of one or several; the client drops a condition that is `undefined`. -/
def oneOrMany (column : LogEntry → Option String) : List String → Cond
  | [] => fun _ => some true
  | [value] => fun e => cmp (· = value) (column e)
  | values => fun e => cmp (fun v => decide (v ∈ values)) (column e)

/-- Where `statusTypeWhere` puts its condition. -/
def statusKey : StatusType → WhereKey
  | .success => .responseStatus
  | .client => .AND
  | .throttled => .OR
  | .maintenance => .error
  | .degraded => .error
  | .error => .OR

def sourceWhere (filter : SourceFilter) : Cond := fun e =>
  match SOURCE_FILTERS filter with
  | some sources => cmp (fun s => decide (s ∈ sources)) (some e.source)
  | none => some true

/-- An optional filter that is there and not empty. -/
def given (text : Option String) : Option String := text.filter (· ≠ "")

namespace LogFilters

variable (toUpperCase : String → String) (ilike : (text pattern : String) → Bool) (db : LogDb) (f : LogFilters)

/-- The items of a comma-separated list. -/
def items (list : String) : List String := ((Text.split list ',').map Text.trim).filter (· ≠ "")

def routeIds (list : String) : List String := items list

def methods (list : String) : List String := (((Text.split list ',').map Text.trim).map toUpperCase).filter (· ≠ "")

def routeWhere : Where := ((given f.routeId).map fun list => (WhereKey.routeId, oneOrMany LogEntry.routeId (routeIds list))).toList

def organizationWhere : Where := (f.organizationIds.map fun ids =>
  (WhereKey.route, fun e => cmp (fun org => decide (org ∈ ids)) (e.routeId.bind db.organizationOf))).toList

def methodWhere : Where := ((given f.method).map fun list =>
  (WhereKey.method, oneOrMany (fun e => some e.method) (methods toUpperCase list))).toList

def statusWhere : Where := (f.statusType.map fun t => (statusKey t, fun e => statusTypeWhere t e.toLogRow)).toList

def searchWhere : Where := ((given f.search).map fun text => (WhereKey.OR, fun e =>
  Sql.any [cmp (ilike · text) (some e.path), cmp (ilike · text) e.ip, cmp (ilike · text) e.error])).toList

def dateWhere : Where :=
  if f.dateFrom.isSome ∨ f.dateTo.isSome then
    [(.createdAt, fun e => Sql.all ((f.dateFrom.map fun gte => cmp (fun time => decide (gte ≤ time)) (some e.createdAt)).toList ++
      (f.dateTo.map fun lte => cmp (fun time => decide (time ≤ lte)) (some e.createdAt)).toList))]
  else []

def spreadWhere : Where :=
  spread (spread (spread (spread (spread (routeWhere f) (organizationWhere db f)) (methodWhere toUpperCase f)) (statusWhere f))
    (searchWhere ilike f)) (dateWhere f)

/-- `where`: the source is appended to `AND`. -/
def logWhere : Where :=
  let w := spreadWhere toUpperCase ilike db f
  let existingAnd := w.filter fun c => c.1 = .AND
  spread w [(.AND, fun e => Sql.all (existingAnd.map (fun c => c.2 e) ++ [sourceWhere f.source e]))]

end LogFilters

/-! ## A page -/

abbrev LogListing := Paging.Listing LogEntry.createdAt

structure LogPage where
  data : List LogEntry
  total : Nat
  page : Int
  pageSize : Nat
  totalPages : Nat

section Service

variable (toUpperCase : String → String) (ilike : (text pattern : String) → Bool) (db : LogDb) (f : LogFilters)

def found : List LogEntry := db.logs.filter fun e => decide (Selects (Where.matches (f.logWhere toUpperCase ilike db) e))

/-- `Math.ceil(total / pageSize)` -/
def totalPages (total pageSize : Nat) : Nat := (total + pageSize - 1) / pageSize

/-- `orderBy` leaves open how rows of one time are arranged: `listing` is how they are this time. -/
def getRouteLogs (listing : LogListing) (page : Int) (pageSize : Nat) : Except Err LogPage :=
  let skip := (page - 1) * pageSize
  let total := (found toUpperCase ilike db f).length
  if skip < 0 then .error (.prisma "P2019")
  else .ok {
    data := ((listing.arrange (found toUpperCase ilike db f)).drop skip.toNat).take pageSize
    total, page, pageSize
    totalPages := totalPages total pageSize }

def LogPage.shown : Except Err LogPage → List LogEntry
  | .ok answer => answer.data
  | .error _ => []

/-- All pages, each asked for on its own. -/
def browse (listing : Nat → LogListing) (pageSize : Nat) : List LogEntry :=
  (List.range (totalPages (found toUpperCase ilike db f).length pageSize)).flatMap fun k =>
    LogPage.shown (getRouteLogs toUpperCase ilike db f (listing k) (k + 1) pageSize)

end Service

/-! ## What the filters ask of a row -/

section Meets

variable (toUpperCase : String → String) (ilike : (text pattern : String) → Bool) (db : LogDb) (f : LogFilters)

structure Meets (e : LogEntry) : Prop where
  route : ∀ list, given f.routeId = some list → LogFilters.routeIds list = [] ∨ ∃ id, e.routeId = some id ∧ id ∈ LogFilters.routeIds list
  organization : ∀ ids, f.organizationIds = some ids → ∃ org, e.routeId.bind db.organizationOf = some org ∧ org ∈ ids
  method : ∀ list, given f.method = some list →
    LogFilters.methods toUpperCase list = [] ∨ e.method ∈ LogFilters.methods toUpperCase list
  /-- A search takes the place of the two filters that are an `OR`. -/
  status : ∀ t, f.statusType = some t → ((given f.search).isSome → statusKey t ≠ .OR) → Falls e.toLogRow t
  search : ∀ text, given f.search = some text →
    ilike e.path text = true ∨ (∃ ip, e.ip = some ip ∧ ilike ip text = true) ∨ ∃ error, e.error = some error ∧ ilike error text = true
  dateFrom : ∀ time, f.dateFrom = some time → time ≤ e.createdAt
  dateTo : ∀ time, f.dateTo = some time → e.createdAt ≤ time
  source : ∀ sources, SOURCE_FILTERS f.source = some sources → e.source ∈ sources

variable {toUpperCase ilike db f} {e : LogEntry}

theorem forall_spread {w v : Where} {P : WhereKey × Cond → Prop} :
    (∀ c ∈ spread w v, P c) ↔ (∀ c ∈ w, (∀ d ∈ v, d.1 ≠ c.1) → P c) ∧ ∀ c ∈ v, P c := by
  simp only [spread, List.mem_append, List.mem_filter, Bool.not_eq_true', List.any_eq_false, decide_eq_true_eq]
  constructor
  · intro h
    exact ⟨fun c hc hapart => h c (.inl ⟨hc, hapart⟩), fun c hc => h c (.inr hc)⟩
  · rintro ⟨hw, hv⟩ c (⟨hc, hapart⟩ | hc)
    · exact hw c hc hapart
    · exact hv c hc

theorem forall_optional {α : Type} {o : Option α} {g : α → WhereKey × Cond} {P : WhereKey × Cond → Prop} :
    (∀ c ∈ (o.map g).toList, P c) ↔ ∀ x, o = some x → P (g x) := by
  cases o <;> simp

theorem selects_matches {w : Where} : Selects (w.matches e) ↔ ∀ c ∈ w, Selects (c.2 e) := by
  rw [Where.matches, selects_all, List.forall_mem_map]

theorem selects_oneOrMany {column : LogEntry → Option String} {values : List String} :
    Selects (oneOrMany column values e) ↔ values = [] ∨ ∃ v, column e = some v ∧ v ∈ values := by
  match values with
  | [] => simp [oneOrMany]
  | [value] => simp [oneOrMany]
  | value :: other :: more => simp [oneOrMany]

theorem selects_source (source : SourceFilter) :
    Selects (sourceWhere source e) ↔ ∀ sources, SOURCE_FILTERS source = some sources → e.source ∈ sources := by
  cases source <;> simp [sourceWhere, SOURCE_FILTERS]

theorem selects_dates : (∀ c ∈ LogFilters.dateWhere f, Selects (c.2 e)) ↔
    (∀ time, f.dateFrom = some time → time ≤ e.createdAt) ∧ ∀ time, f.dateTo = some time → e.createdAt ≤ time := by
  unfold LogFilters.dateWhere
  cases hfrom : f.dateFrom <;> cases hto : f.dateTo <;> simp [selects_all]

/-- The keys of an object are among these. -/
def Keyed (w : Where) (keys : List WhereKey) : Prop := ∀ c ∈ w, c.1 ∈ keys

theorem keyed_spread {w v : Where} {ks js : List WhereKey} (hw : Keyed w ks) (hv : Keyed v js) : Keyed (spread w v) (ks ++ js) := by
  refine forall_spread.2 ⟨fun c hc _ => ?_, fun c hc => ?_⟩
  · exact List.mem_append_left _ (hw c hc)
  · exact List.mem_append_right _ (hv c hc)

/-- A key of its own is not written over. -/
theorem forall_spread_apart {w v : Where} {P : WhereKey × Cond → Prop} {ks js : List WhereKey} (hw : Keyed w ks) (hv : Keyed v js)
    (hapart : ∀ k ∈ ks, k ∉ js) : (∀ c ∈ spread w v, P c) ↔ (∀ c ∈ w, P c) ∧ ∀ c ∈ v, P c := by
  rw [forall_spread]
  refine and_congr_left fun _ => forall_congr' fun c => forall_congr' fun hc => ?_
  refine ⟨fun h => h fun d hd heq => ?_, fun h _ => h⟩
  exact hapart c.1 (hw c hc) (heq ▸ hv d hd)

theorem keyed_optional {α : Type} {o : Option α} {g : α → WhereKey × Cond} {keys : List WhereKey} (h : ∀ x, (g x).1 ∈ keys) :
    Keyed (o.map g).toList keys :=
  forall_optional.2 fun x _ => h x

/-- The filters before the status filter. -/
theorem keyed_first : Keyed (spread (spread f.routeWhere (f.organizationWhere db)) (f.methodWhere toUpperCase)) [.routeId, .route, .method] := by
  have hroute : Keyed f.routeWhere [.routeId] := keyed_optional fun _ => List.mem_singleton.2 rfl
  have horganization : Keyed (f.organizationWhere db) [.route] := keyed_optional fun _ => List.mem_singleton.2 rfl
  have hmethod : Keyed (f.methodWhere toUpperCase) [.method] := keyed_optional fun _ => List.mem_singleton.2 rfl
  exact keyed_spread (keyed_spread hroute horganization) hmethod

theorem keyed_status : Keyed f.statusWhere [.responseStatus, .error, .AND, .OR] := by
  refine keyed_optional fun t => ?_
  cases t <;> decide

theorem keyed_search : Keyed (f.searchWhere ilike) [.OR] := keyed_optional fun _ => List.mem_singleton.2 rfl

theorem keyed_dates : Keyed f.dateWhere [.createdAt] := by
  unfold LogFilters.dateWhere
  split <;> simp [Keyed]

theorem forall_first {P : WhereKey × Cond → Prop} :
    (∀ c ∈ spread (spread f.routeWhere (f.organizationWhere db)) (f.methodWhere toUpperCase), P c) ↔
      (∀ c ∈ f.routeWhere, P c) ∧ (∀ c ∈ f.organizationWhere db, P c) ∧ ∀ c ∈ f.methodWhere toUpperCase, P c := by
  have hroute : Keyed f.routeWhere [.routeId] := keyed_optional fun _ => List.mem_singleton.2 rfl
  have horganization : Keyed (f.organizationWhere db) [.route] := keyed_optional fun _ => List.mem_singleton.2 rfl
  have hmethod : Keyed (f.methodWhere toUpperCase) [.method] := keyed_optional fun _ => List.mem_singleton.2 rfl
  rw [forall_spread_apart (keyed_spread hroute horganization) hmethod (by decide),
    forall_spread_apart hroute horganization (by decide), and_assoc]

/-- The search takes the place of a status filter under `OR`. -/
theorem forall_search {w : Where} {P : WhereKey × Cond → Prop} (hw : Keyed w [.routeId, .route, .method]) :
    (∀ c ∈ spread (spread w f.statusWhere) (f.searchWhere ilike), P c) ↔
      (∀ c ∈ w, P c) ∧ (∀ c ∈ f.statusWhere, ((given f.search).isSome → c.1 ≠ .OR) → P c) ∧ ∀ c ∈ f.searchWhere ilike, P c := by
  have hwritten : ∀ k, (∀ d ∈ f.searchWhere ilike, d.1 ≠ k) ↔ ((given f.search).isSome → k ≠ .OR) := by
    intro k
    rw [LogFilters.searchWhere, forall_optional, Option.isSome_iff_exists]
    constructor
    · rintro h ⟨text, htext⟩ hk
      exact h text htext hk.symm
    · intro h text htext hk
      exact h ⟨text, htext⟩ hk.symm
  simp only [forall_spread (v := f.searchWhere ilike), hwritten, forall_spread_apart hw keyed_status (by decide), and_assoc]
  refine and_congr_left fun _ => forall_congr' fun c => forall_congr' fun hc => ?_
  refine ⟨fun h => h fun _ => ?_, fun h _ => h⟩
  intro hor
  have hkey := hw c hc
  rw [hor] at hkey
  revert hkey
  decide

theorem selects_logWhere : Selects (Where.matches (f.logWhere toUpperCase ilike db) e) ↔ Meets toUpperCase ilike db f e := by
  have hand : ∀ w : Where, Selects (Where.matches (spread w [(.AND, fun e => Sql.all ((w.filter fun c => c.1 = .AND).map (fun c => c.2 e) ++
      [sourceWhere f.source e]))]) e) ↔ (∀ c ∈ w, Selects (c.2 e)) ∧ Selects (sourceWhere f.source e) := by
    intro w
    simp only [selects_matches, forall_spread, List.forall_mem_singleton, selects_all, List.forall_mem_append, List.forall_mem_map,
      List.mem_filter, decide_eq_true_eq, ← and_assoc]
    refine and_congr_left fun _ => ?_
    constructor
    · rintro ⟨hothers, hands⟩ c hc
      by_cases hkey : c.1 = .AND
      · exact hands c ⟨hc, hkey⟩
      · exact hothers c hc fun h => hkey h.symm
    · intro h
      exact ⟨fun c hc _ => h c hc, fun c hc => h c hc.1⟩
  have hfirst := @keyed_first toUpperCase db f
  have hall := keyed_spread (keyed_spread hfirst (keyed_status (f := f))) (@keyed_search ilike f)
  rw [LogFilters.logWhere, hand, LogFilters.spreadWhere, forall_spread_apart hall keyed_dates (by decide), forall_search hfirst,
    forall_first, selects_dates, selects_source]
  simp only [LogFilters.routeWhere, LogFilters.organizationWhere, LogFilters.methodWhere, LogFilters.statusWhere, LogFilters.searchWhere,
    forall_optional, selects_oneOrMany, selects_cmp, selects_bucket, selects_any, Option.some.injEq]
  constructor
  · rintro ⟨⟨⟨⟨hroute, horganization, hmethod⟩, hstatus, hsearch⟩, hfrom, hto⟩, hsource⟩
    exact ⟨hroute, by simpa using horganization, by simpa using hmethod, hstatus, by simpa using hsearch, hfrom, hto, hsource⟩
  · rintro ⟨hroute, horganization, hmethod, hstatus, hsearch, hfrom, hto, hsource⟩
    exact ⟨⟨⟨⟨hroute, by simpa using horganization, by simpa using hmethod⟩, hstatus, by simpa using hsearch⟩, hfrom, hto⟩, hsource⟩

instance : Decidable (Meets toUpperCase ilike db f e) := decidable_of_iff _ selects_logWhere

end Meets

/-! ## All pages -/

section Pages

variable (toUpperCase : String → String) (ilike : (text pattern : String) → Bool) (db : LogDb) (f : LogFilters)

theorem found_eq : found toUpperCase ilike db f = db.logs.filter fun e => decide (Meets toUpperCase ilike db f e) := by
  simp only [found, selects_logWhere]

theorem shown_page (listing : LogListing) (k pageSize : Nat) :
    LogPage.shown (getRouteLogs toUpperCase ilike db f listing (k + 1) pageSize) =
      Paging.page pageSize k (listing.arrange (found toUpperCase ilike db f)) := by
  have hskip : ((k : Int) + 1 - 1) * pageSize = (k * pageSize : Nat) := by
    rw [Int.add_sub_cancel, Int.natCast_mul]
  simp only [getRouteLogs, hskip, if_neg (Int.not_lt.2 (Int.natCast_nonneg _)), Int.toNat_natCast]
  rfl

theorem browse_eq (listing : Nat → LogListing) (pageSize : Nat) : browse toUpperCase ilike db f listing pageSize =
    Paging.paged pageSize (totalPages (found toUpperCase ilike db f).length pageSize)
      fun k => (listing k).arrange (found toUpperCase ilike db f) := by
  simp only [browse, Paging.paged, shown_page]

theorem totalPages_enough {total pageSize : Nat} (h : 0 < pageSize) : total ≤ totalPages total pageSize * pageSize := by
  have hdiv := Nat.div_add_mod (total + pageSize - 1) pageSize
  have hmod := Nat.mod_lt (total + pageSize - 1) h
  rw [totalPages, Nat.mul_comm]
  omega

theorem log_pages_iff (hids : (db.logs.map LogEntry.id).Nodup) {pageSize : Nat} (hsize : 0 < pageSize) :
    (∀ listing : Nat → LogListing, (browse toUpperCase ilike db f listing pageSize).Perm
      (db.logs.filter fun e => decide (Meets toUpperCase ilike db f e))) ↔
      Paging.NoTieAcross LogEntry.createdAt pageSize (db.logs.filter fun e => decide (Meets toUpperCase ilike db f e)) := by
  have hnodup : (found toUpperCase ilike db f).Nodup := (List.Nodup.of_map LogEntry.id hids).filter _
  simp only [browse_eq, ← found_eq]
  exact Paging.browsed_perm_iff hsize hnodup (totalPages_enough hsize)

end Pages

/-- A request, two in one millisecond, and a probe. -/
def busyLog : LogDb where
  logs :=
    [⟨⟨"2024-01-01", some 200, none⟩, "a", some "orders", "GET", "/orders", none, .TRAFFIC, 1000⟩,
      ⟨⟨"2024-01-01", some 502, some "read ECONNRESET"⟩, "b", some "orders", "GET", "/orders", none, .TRAFFIC, 2000⟩,
      ⟨⟨"2024-01-01", some 200, none⟩, "c", some "orders", "POST", "/orders", none, .TRAFFIC, 2000⟩,
      ⟨⟨"2024-01-01", some 200, none⟩, "d", some "orders", "GET", "/orders", none, .HEALTH_CHECK, 3000⟩]
  organizationOf _ := some "acme"

/-- The requests of one method come page by page; of both in one millisecond, one may be shown
    twice and the other not at all. -/
theorem busyLog_pages :
    (∀ listing : Nat → LogListing, (browse id Text.includes busyLog { method := some "GET" } listing 1).Perm
      (busyLog.logs.filter fun e => decide (Meets id Text.includes busyLog { method := some "GET" } e))) ∧
    ¬∀ listing : Nat → LogListing, (browse id Text.includes busyLog {} listing 1).Perm
      (busyLog.logs.filter fun e => decide (Meets id Text.includes busyLog {} e)) := by
  constructor
  · refine (log_pages_iff id Text.includes busyLog { method := some "GET" } (by decide) (by decide)).2 ?_
    exact Paging.noTieAcross_of_nodup (by decide) (by decide)
  · rw [log_pages_iff id Text.includes busyLog {} (by decide) (by decide)]
    intro hties
    have hrows : busyLog.logs.filter (fun e => decide (Meets id Text.includes busyLog {} e)) = busyLog.logs.take 3 := by decide
    rw [hrows] at hties
    refine hties [busyLog.logs[2], busyLog.logs[1], busyLog.logs[0]] ⟨?_, ?_⟩ 0 _ _ rfl rfl rfl
    · decide
    · decide

end ClusterGate.Log
