/-
  ClusterGate.Log.Service — how a request-log row is classified (`services/logService.ts`:
  `statusTypeWhere`, `getDailyRequestCounts`; `services/analyticsService.ts`: the FILTER of
  `getOverview`, `getErrorRateTrend` and the comparison).

  The database evaluates the first and the last, in SQL's three-valued logic; the daily
  counts are made in memory. The lemmas read each of them off as a proposition about the
  status and the marks found in the error text, and `daily_counts` says what the loop over
  a log leaves behind for a day.
-/

import ClusterGate.Lib.Sql

namespace ClusterGate.Log

open Lib Lib.Sql

/-- What the counters read of a row. -/
structure LogRow where
  /-- The first ten characters of the creation time. -/
  day : String
  responseStatus : Option Int
  error : Option String
  deriving DecidableEq

inductive StatusType
  | success | error | client | throttled | maintenance | degraded
  deriving DecidableEq

def MARK_MAINT : String := "MAINTENANCE_MODE"
def MARK_CB : String := "Circuit breaker"
def MARK_RATE : String := "Rate limit"

/-- The filter `contains`. -/
def contains (mark : String) (column : Option String) : Truth := cmp (like ("%" ++ mark ++ "%")) column

def statusTypeWhere (t : StatusType) (row : LogRow) : Truth :=
  match t with
  | .success => all [cmp (200 ≤ ·) row.responseStatus, cmp (· < 400) row.responseStatus]
  | .client =>
    all [
      all [cmp (400 ≤ ·) row.responseStatus, cmp (· < 500) row.responseStatus],
      not_ (cmp (· = 429) row.responseStatus),
      any [isNull row.error, all [not_ (contains MARK_RATE row.error)]]]
  | .throttled => any [cmp (· = 429) row.responseStatus, contains MARK_RATE row.error]
  | .maintenance => cmp (· = MARK_MAINT) row.error
  | .degraded => contains MARK_CB row.error
  | .error =>
    any [
      all [
        cmp (500 ≤ ·) row.responseStatus,
        any [isNull row.error, all [not_ (cmp (· = MARK_MAINT) row.error), not_ (contains MARK_CB row.error)]]],
      all [
        not_ (isNull row.error),
        not_ (cmp (· = MARK_MAINT) row.error),
        not_ (contains MARK_CB row.error),
        not_ (contains MARK_RATE row.error)]]

/-- The FILTER of the error counts of the analytics queries. -/
def errorFilter (row : LogRow) : Truth :=
  and_
    (or_
      (and_ (cmp (500 ≤ ·) row.responseStatus)
        (or_ (isNull row.error)
          (and_ (not_ (cmp (· = "MAINTENANCE_MODE") row.error)) (not_ (cmp (like "%Circuit breaker%") row.error)))))
      (and_ (and_ (and_ (not_ (isNull row.error)) (not_ (cmp (· = "MAINTENANCE_MODE") row.error)))
        (not_ (cmp (like "%Circuit breaker%") row.error))) (not_ (cmp (like "%Rate limit%") row.error))))
    (not_ (cmp (· = 429) row.responseStatus))

/-! ## The daily counts -/

def isGate (log : LogRow) : Bool :=
  log.error = some MARK_MAINT || (log.error.map (Text.includes · MARK_CB)).getD false ||
    (log.error.map (Text.includes · MARK_RATE)).getD false || log.responseStatus = some 429

def isError (log : LogRow) : Bool :=
  !isGate log && ((log.responseStatus.map fun s => decide (500 ≤ s)).getD false ||
    (log.error.map fun e => decide (e ≠ "")).getD false)

structure DayCounts where
  date : String
  total : Nat
  errors : Nat
  deriving DecidableEq

/-- What one row does to the entries: nothing if its day has none. -/
def countRow (grouped : List DayCounts) (log : LogRow) : List DayCounts :=
  grouped.map fun c =>
    if c.date = log.day then { c with total := c.total + 1, errors := c.errors + if isError log then 1 else 0 } else c

/-- Over the days asked for, each entry starting at zero. -/
def getDailyRequestCounts (days : List String) (logs : List LogRow) : List DayCounts :=
  logs.foldl countRow (days.map fun d => ⟨d, 0, 0⟩)

/-- The entry of a day after some rows. -/
def tally (logs : List LogRow) (c : DayCounts) : DayCounts :=
  { c with
    total := c.total + logs.countP (·.day = c.date)
    errors := c.errors + logs.countP fun log => log.day = c.date ∧ isError log }

theorem countRow_tally (logs : List LogRow) (log : LogRow) (cs : List DayCounts) :
    (countRow cs log).map (tally logs) = cs.map (tally (log :: logs)) := by
  simp only [countRow, List.map_map]
  apply List.map_congr_left
  intro c _
  by_cases hd : c.date = log.day
  · have hd' : log.day = c.date := hd.symm
    by_cases he : isError log = true
    · simp [tally, hd, he]; omega
    · simp [tally, hd, he]; omega
  · have hd' : ¬log.day = c.date := fun h => hd h.symm
    simp [tally, hd, hd']

theorem foldl_countRow (logs : List LogRow) (cs : List DayCounts) :
    logs.foldl countRow cs = cs.map (tally logs) := by
  induction logs generalizing cs with
  | nil =>
    show cs = cs.map (tally [])
    rw [show tally [] = id from funext fun c => by simp [tally], List.map_id]
  | cons log logs ih =>
    rw [List.foldl_cons, ih, countRow_tally]

/-- Of each day asked for, the rows of the day and those among them that are errors. -/
theorem daily_counts (days : List String) (logs : List LogRow) :
    getDailyRequestCounts days logs = days.map fun d =>
      ⟨d, logs.countP (·.day = d), logs.countP fun log => log.day = d ∧ isError log⟩ := by
  unfold getDailyRequestCounts
  rw [foldl_countRow, List.map_map]
  apply List.map_congr_left
  intro d _
  simp [tally]

/-! ## What the filters say -/

/-- Whether a mark is found in a row's error text. -/
def Marked (mark : String) (row : LogRow) : Prop := ∃ e, row.error = some e ∧ Text.includes e mark = true

theorem like_mark {mark : String} (hl : isLiteral mark.toList = true) (text : String) :
    like ("%" ++ mark ++ "%") text = Text.includes text mark :=
  like_contains (by simp) hl text

theorem selects_contains {mark : String} (hl : isLiteral mark.toList = true) (row : LogRow) :
    Selects (contains mark row.error) ↔ Marked mark row := by
  simp only [contains, Marked, selects_cmp, like_mark hl]

theorem selects_not_contains {mark : String} (hl : isLiteral mark.toList = true) (row : LogRow) :
    Selects (not_ (contains mark row.error)) ↔ row.error ≠ none ∧ ¬Marked mark row := by
  rw [contains, selects_not_cmp, Marked]
  rcases row.error with - | e
  · simp
  · simp [like_mark hl]

end ClusterGate.Log
