/-
  ClusterGate.Log.Buckets — the three error counters against each other, and the six
  buckets of the log against each other.

  A row is judged by its status and by three marks in its error text: that it is the
  maintenance marker, and that it contains the circuit breaker's or the rate limiter's.
  `selects_bucket` reads every filter off as a proposition about these.

  As built, the counters differ on rows that happen:
  - `a_network_failure_is_counted_twice_of_three`: a request that got no response has no
    status, and the analytics' `"responseStatus" <> 429` is then unknown.
  - `errors_counted_alike`: the rows on which all three agree.

  And the buckets overlap wherever a response was started and then failed:
  - `an_aborted_stream_is_a_success_and_an_error`: status 200 with an error text.
  - `one_bucket_exactly`: the rows the proxy writes that fall in exactly one bucket.
-/

import ClusterGate.Log.Service

namespace ClusterGate.Log

open Lib Lib.Sql

/-! ## The filters, read off -/

def StatusIn (lo hi : Int) (row : LogRow) : Prop := ∃ s, row.responseStatus = some s ∧ lo ≤ s ∧ s < hi

def StatusFrom (lo : Int) (row : LogRow) : Prop := ∃ s, row.responseStatus = some s ∧ lo ≤ s

/-- No gate's mark. -/
def Unmarked (row : LogRow) : Prop :=
  row.error ≠ some MARK_MAINT ∧ ¬Marked MARK_CB row ∧ ¬Marked MARK_RATE row

/-- What each filter asks of a row. -/
def Falls (row : LogRow) : StatusType → Prop
  | .success => StatusIn 200 400 row
  | .client => StatusIn 400 500 row ∧ row.responseStatus ≠ some 429 ∧ ¬Marked MARK_RATE row
  | .throttled => row.responseStatus = some 429 ∨ Marked MARK_RATE row
  | .maintenance => row.error = some MARK_MAINT
  | .degraded => Marked MARK_CB row
  | .error =>
    StatusFrom 500 row ∧ row.error ≠ some MARK_MAINT ∧ ¬Marked MARK_CB row ∨ row.error ≠ none ∧ Unmarked row

theorem literal_cb : isLiteral MARK_CB.toList = true := by decide

theorem literal_rate : isLiteral MARK_RATE.toList = true := by decide

theorem selects_eq {α : Type} [DecidableEq α] (v : α) (column : Option α) :
    Selects (cmp (· = v) column) ↔ column = some v := by
  rw [selects_cmp]
  rcases column with - | w
  · simp
  · simp

theorem selects_ne {α : Type} [DecidableEq α] (v : α) (column : Option α) :
    Selects (not_ (cmp (· = v) column)) ↔ column ≠ none ∧ column ≠ some v := by
  rw [selects_not_cmp]
  rcases column with - | w
  · simp
  · simp

/-- An error text without the mark, or none: the way the filters allow for NULL. -/
theorem selects_unmarked {mark : String} (hl : isLiteral mark.toList = true) (row : LogRow) :
    Selects (any [isNull row.error, all [not_ (contains mark row.error)]]) ↔ ¬Marked mark row := by
  simp only [selects_any, selects_all, List.mem_cons, List.not_mem_nil, or_false, forall_eq, exists_eq_or_imp,
    exists_eq_left, selects_isNull, selects_not_contains hl]
  constructor
  · intro h hm
    obtain ⟨e, he, hin⟩ := hm
    rcases h with h | h
    · rw [h] at he
      cases he
    · exact h.2 ⟨e, he, hin⟩
  · intro h
    by_cases hn : row.error = none
    · exact .inl hn
    · exact .inr ⟨hn, h⟩

theorem selects_bucket (t : StatusType) (row : LogRow) : Selects (statusTypeWhere t row) ↔ Falls row t := by
  cases t with
  | success =>
    simp only [statusTypeWhere, Falls, StatusIn, selects_all, List.mem_cons, List.not_mem_nil, or_false,
      forall_eq_or_imp, forall_eq, selects_cmp, decide_eq_true_eq]
    rcases row.responseStatus with - | s <;> simp
  | client =>
    rw [Falls, ← selects_unmarked literal_rate]
    simp only [statusTypeWhere, StatusIn, selects_all, List.mem_cons, List.not_mem_nil, or_false,
      forall_eq_or_imp, forall_eq, selects_cmp, selects_ne, decide_eq_true_eq]
    rcases row.responseStatus with - | s <;> simp [and_assoc]
  | throttled =>
    simp only [statusTypeWhere, Falls, selects_any, List.mem_cons, List.not_mem_nil, or_false, exists_eq_or_imp,
      exists_eq_left, selects_eq, selects_contains literal_rate]
  | maintenance => exact selects_eq _ _
  | degraded => exact selects_contains literal_cb row
  | error =>
    simp only [statusTypeWhere, Falls, Unmarked, StatusFrom, selects_any, selects_all, List.mem_cons,
      List.not_mem_nil, or_false, forall_eq_or_imp, forall_eq, exists_eq_or_imp, exists_eq_left, selects_isNull,
      selects_not_isNull, selects_ne, selects_cmp, selects_not_contains literal_cb,
      selects_not_contains literal_rate, decide_eq_true_eq]
    by_cases hn : row.error = none
    · simp [hn, Marked]
    · simp only [hn, ne_eq, not_false_eq_true, true_and, false_or]

/-! ## The three error counters -/

/-- The row counts as an error for the log's filter, the daily counts and the analytics,
    or for none of them. -/
def CountersAgree (row : LogRow) : Prop :=
  (Selects (statusTypeWhere .error row) ↔ isError row = true) ∧
    (isError row = true ↔ Selects (errorFilter row))

/-- No error text; or the mark of maintenance or the circuit breaker; or the rate
    limiter's, on a status below 500 or none; or no mark, where an empty text stands on a
    status from 500 and any other on a status that is not 429. -/
def CountedAlike (row : LogRow) : Prop :=
  match row.error with
  | none => True
  | some e =>
    e = MARK_MAINT ∨ Text.includes e MARK_CB = true ∨
      if Text.includes e MARK_RATE = true then ¬StatusFrom 500 row
      else if e = "" then StatusFrom 500 row
      else row.responseStatus ≠ none ∧ row.responseStatus ≠ some 429

/-- The analytics ask of a row what the log's filter asks, and a status other than 429. -/
theorem selects_errorFilter (row : LogRow) :
    Selects (errorFilter row) ↔ Falls row .error ∧ row.responseStatus ≠ none ∧ row.responseStatus ≠ some 429 := by
  have hcb : ∀ text, like "%Circuit breaker%" text = Text.includes text MARK_CB := like_mark literal_cb
  have hrate : ∀ text, like "%Rate limit%" text = Text.includes text MARK_RATE := like_mark literal_rate
  have hncb : Selects (not_ (cmp (like "%Circuit breaker%") row.error)) ↔ row.error ≠ none ∧ ¬Marked MARK_CB row :=
    selects_not_contains literal_cb row
  have hnrate : Selects (not_ (cmp (like "%Rate limit%") row.error)) ↔ row.error ≠ none ∧ ¬Marked MARK_RATE row :=
    selects_not_contains literal_rate row
  simp only [errorFilter, Falls, Unmarked, StatusFrom, selects_and, selects_or, selects_isNull, selects_not_isNull,
    selects_ne, selects_cmp, hncb, hnrate, decide_eq_true_eq]
  by_cases hn : row.error = none
  · simp [hn, Marked, MARK_MAINT]
  · simp only [hn, ne_eq, not_false_eq_true, true_and, false_or, and_assoc, MARK_MAINT]

theorem isGate_iff (row : LogRow) :
    isGate row = true ↔
      row.error = some MARK_MAINT ∨ Marked MARK_CB row ∨ Marked MARK_RATE row ∨ row.responseStatus = some 429 := by
  unfold isGate Marked
  rcases row.error with - | e
  · simp
  · simp [or_assoc]

theorem isError_iff (row : LogRow) :
    isError row = true ↔
      (Unmarked row ∧ row.responseStatus ≠ some 429) ∧
        (StatusFrom 500 row ∨ ∃ e, row.error = some e ∧ e ≠ "") := by
  have hg : isGate row = false ↔ Unmarked row ∧ row.responseStatus ≠ some 429 := by
    rw [← Bool.not_eq_true, isGate_iff, Unmarked]
    tauto
  have hs : ((row.responseStatus.map fun s => decide (500 ≤ s)).getD false = true) ↔ StatusFrom 500 row := by
    unfold StatusFrom
    rcases row.responseStatus with - | s <;> simp
  have he : ((row.error.map fun e => decide (e ≠ "")).getD false = true) ↔ ∃ e, row.error = some e ∧ e ≠ "" := by
    rcases row.error with - | e <;> simp
  rw [isError, Bool.and_eq_true, Bool.not_eq_true', Bool.or_eq_true, hg, hs, he]

theorem statusFrom_ne {row : LogRow} (h : StatusFrom 500 row) :
    row.responseStatus ≠ none ∧ row.responseStatus ≠ some 429 := by
  obtain ⟨s, hs, hle⟩ := h
  rw [hs]
  refine ⟨by simp, ?_⟩
  intro h429
  injection h429 with h429
  omega

/-- With a text: each counter as it stands once the marks are known. -/
theorem errors_counted_alike (row : LogRow) : CountersAgree row ↔ CountedAlike row := by
  unfold CountersAgree
  rw [selects_bucket, selects_errorFilter, isError_iff]
  have hfrom : StatusFrom 500 row → row.responseStatus ≠ none ∧ row.responseStatus ≠ some 429 := statusFrom_ne
  rcases he : row.error with - | e
  · -- no text: all three ask for a status from 500
    simp only [CountedAlike, Falls, Unmarked, Marked, he]
    by_cases h5 : StatusFrom 500 row
    · simp [h5, hfrom h5]
    · simp [h5]
  · simp only [CountedAlike, Falls, Unmarked, Marked, he, Option.some.injEq, exists_eq_left']
    by_cases hm : e = MARK_MAINT
    · simp [hm]
    by_cases hc : Text.includes e MARK_CB = true
    · simp [hm, hc]
    by_cases hr : Text.includes e MARK_RATE = true
    · by_cases h5 : StatusFrom 500 row
      · simp [hm, hc, hr, h5]
      · simp [hm, hc, hr, h5]
    · by_cases h5 : StatusFrom 500 row
      · simp [hm, hc, hr, h5, hfrom h5]
      · by_cases h0 : e = ""
        · have hempty : (e = "") = True := eq_true h0
          simp [hm, hc, hr, h5, hempty]
        · by_cases h4 : row.responseStatus = some 429
          · simp [hm, hc, hr, h0, h4]
          · simp [hm, hc, hr, h5, h0, h4]

/-- A request whose upstream never answered: the analytics do not count it. -/
def networkFailure : LogRow := ⟨"2024-01-01", none, some "connect ECONNREFUSED"⟩

theorem a_network_failure_is_counted_twice_of_three : ¬∀ row : LogRow, CountersAgree row := by
  intro h
  have hrow := (errors_counted_alike networkFailure).1 (h networkFailure)
  revert hrow
  have hm : "connect ECONNREFUSED" ≠ MARK_MAINT := by decide
  have hc : Text.includes "connect ECONNREFUSED" MARK_CB = false := by decide
  have hr : Text.includes "connect ECONNREFUSED" MARK_RATE = false := by decide
  simp [CountedAlike, networkFailure, hm, hc, hr]

/-! ## The six buckets -/

/-- A status from 200 or an error text, or both. -/
def ProxyWrites (row : LogRow) : Prop :=
  (∀ s, row.responseStatus = some s → 200 ≤ s) ∧ (row.responseStatus = none → row.error ≠ none)

/-- No error text; or no status, and not both the circuit breaker's and the rate
    limiter's mark; or a 4xx whose only mark is the rate limiter's; or a status from 500
    without that mark. -/
def OneBucket (row : LogRow) : Prop :=
  match row.error with
  | none => True
  | some _ =>
    (row.responseStatus = none ∧ ¬(Marked MARK_CB row ∧ Marked MARK_RATE row)) ∨
      (StatusIn 400 500 row ∧ Marked MARK_RATE row ∧ ¬Marked MARK_CB row) ∨
        (StatusFrom 500 row ∧ ¬Marked MARK_RATE row)

theorem maintenance_unmarked {row : LogRow} (h : row.error = some MARK_MAINT) :
    ¬Marked MARK_CB row ∧ ¬Marked MARK_RATE row := by
  have hc : Text.includes MARK_MAINT MARK_CB = false := by decide
  have hr : Text.includes MARK_MAINT MARK_RATE = false := by decide
  simp [Marked, h, hc, hr]

/-- A text puts a row in a bucket of its own, whatever the status. -/
theorem text_bucket {row : LogRow} (h : row.error ≠ none) :
    Falls row .maintenance ∨ Falls row .degraded ∨ Marked MARK_RATE row ∨ Falls row .error := by
  by_cases hm : row.error = some MARK_MAINT
  · exact .inl hm
  by_cases hc : Marked MARK_CB row
  · exact .inr (.inl hc)
  by_cases hr : Marked MARK_RATE row
  · exact .inr (.inr (.inl hr))
  · exact .inr (.inr (.inr (.inr ⟨h, hm, hc, hr⟩)))

theorem two_buckets {row : LogRow} {t u : StatusType} (ht : Falls row t) (hu : Falls row u) (hne : t ≠ u) :
    ¬∃! t, Falls row t := fun h => hne (h.unique ht hu)

/-- The classes a status can be in. -/
inductive StatusClass (row : LogRow) : Prop
  | missing (h : row.responseStatus = none)
  | passed (s : Int) (h : row.responseStatus = some s) (hlo : 200 ≤ s) (hhi : s < 400)
  | refused (s : Int) (h : row.responseStatus = some s) (hlo : 400 ≤ s) (hhi : s < 500)
  | broken (s : Int) (h : row.responseStatus = some s) (hlo : 500 ≤ s)

theorem ProxyWrites.statusClass {row : LogRow} (h : ProxyWrites row) : StatusClass row := by
  rcases hs : row.responseStatus with - | s
  · exact .missing hs
  · have h200 := h.1 s hs
    by_cases h4 : s < 400
    · exact .passed s hs h200 h4
    by_cases h5 : s < 500
    · exact .refused s hs (by omega) h5
    · exact .broken s hs (by omega)

/-- Without a text the status alone decides. -/
theorem one_bucket_without_text {row : LogRow} (hw : ProxyWrites row) (hn : row.error = none) :
    ∃! t, Falls row t := by
  have hmark : ∀ m, ¬Marked m row := fun m ⟨e, he, _⟩ => by rw [hn] at he; cases he
  cases hw.statusClass with
  | missing h => exact absurd hn (hw.2 h)
  | passed s h hlo hhi =>
    refine ⟨.success, ⟨s, h, hlo, hhi⟩, ?_⟩
    intro u hu
    cases u <;> simp [Falls, Unmarked, StatusIn, StatusFrom, h, hn, hmark] at hu ⊢ <;> omega
  | refused s h hlo hhi =>
    by_cases h429 : s = 429
    · refine ⟨.throttled, .inl (by rw [h, h429]), ?_⟩
      intro u hu
      cases u <;> simp [Falls, Unmarked, StatusIn, StatusFrom, h, hn, hmark] at hu ⊢ <;> omega
    · refine ⟨.client, ⟨⟨s, h, hlo, hhi⟩, by simp [h, h429], hmark _⟩, ?_⟩
      intro u hu
      cases u <;> simp [Falls, Unmarked, StatusIn, StatusFrom, h, hn, hmark] at hu ⊢ <;> omega
  | broken s h hlo =>
    refine ⟨.error, .inl ⟨⟨s, h, hlo⟩, by simp [hn], hmark _⟩, ?_⟩
    intro u hu
    cases u <;> simp [Falls, Unmarked, StatusIn, StatusFrom, h, hn, hmark] at hu ⊢ <;> omega

/-- With a text and no status, the text decides: two marks are two buckets. -/
theorem one_bucket_of_text {row : LogRow} (hs : row.responseStatus = none) (hn : row.error ≠ none) :
    (∃! t, Falls row t) ↔ ¬(Marked MARK_CB row ∧ Marked MARK_RATE row) := by
  constructor
  · intro h hboth
    exact two_buckets (t := .degraded) (u := .throttled) hboth.1 (.inr hboth.2) (by decide) h
  · intro h
    rcases text_bucket hn with hm | hc | hr | he
    · have hno := maintenance_unmarked hm
      refine ⟨.maintenance, hm, ?_⟩
      intro v hv
      have hm' : row.error = some MARK_MAINT := hm
      cases v <;> simp [Falls, Unmarked, StatusIn, StatusFrom, hs, hm', hno] at hv ⊢
    · have hr : ¬Marked MARK_RATE row := fun hr => h ⟨hc, hr⟩
      have hm : row.error ≠ some MARK_MAINT := fun hm => (maintenance_unmarked hm).1 hc
      have hc' : Marked MARK_CB row := hc
      refine ⟨.degraded, hc, ?_⟩
      intro v hv
      cases v <;> simp [Falls, Unmarked, StatusIn, StatusFrom, hs, hm, hc', hr] at hv ⊢
    · have hc : ¬Marked MARK_CB row := fun hc => h ⟨hc, hr⟩
      have hm : row.error ≠ some MARK_MAINT := fun hm => (maintenance_unmarked hm).2 hr
      refine ⟨.throttled, .inr hr, ?_⟩
      intro v hv
      cases v <;> simp [Falls, Unmarked, StatusIn, StatusFrom, hs, hm, hc, hr] at hv ⊢
    · obtain ⟨-, hm, hc, hr⟩ : row.error ≠ none ∧ Unmarked row := by
        rcases he with ⟨⟨s, h5, -⟩, -⟩ | he
        · rw [hs] at h5
          cases h5
        · exact he
      refine ⟨.error, he, ?_⟩
      intro v hv
      cases v <;> simp [Falls, Unmarked, StatusIn, StatusFrom, hs, hm, hc, hr] at hv ⊢

/-- A 2xx or 3xx with a text is a success and whatever the text makes it. -/
theorem passed_with_text {row : LogRow} (hs : StatusIn 200 400 row) (hn : row.error ≠ none) :
    ¬∃! t, Falls row t := by
  have hsuccess : Falls row .success := hs
  rcases text_bucket hn with hm | hc | hr | he
  · exact two_buckets hsuccess hm (by decide)
  · exact two_buckets hsuccess hc (by decide)
  · exact two_buckets (u := .throttled) hsuccess (.inr hr) (by decide)
  · exact two_buckets hsuccess he (by decide)

/-- A 4xx with a text is in one bucket only as the rate limiter's. -/
theorem refused_with_text {row : LogRow} (hs : StatusIn 400 500 row) (hn : row.error ≠ none) :
    (∃! t, Falls row t) ↔ Marked MARK_RATE row ∧ ¬Marked MARK_CB row := by
  have hthrottled : Marked MARK_RATE row → Falls row .throttled := .inr
  constructor
  · intro h
    by_cases hr : Marked MARK_RATE row
    · exact ⟨hr, fun hc => two_buckets (hthrottled hr) (u := .degraded) hc (by decide) h⟩
    · exfalso
      have hclass : Falls row .client ∨ Falls row .throttled := by
        by_cases h429 : row.responseStatus = some 429
        · exact .inr (.inl h429)
        · exact .inl ⟨hs, h429, hr⟩
      have htwo : ∀ u, Falls row u → u ≠ .client → u ≠ .throttled → False := by
        intro u hu h1 h2
        rcases hclass with hc | hc
        · exact two_buckets hu hc h1 h
        · exact two_buckets hu hc h2 h
      rcases text_bucket hn with hm | hc | hr' | he
      · exact htwo _ hm (by decide) (by decide)
      · exact htwo _ hc (by decide) (by decide)
      · exact hr hr'
      · exact htwo _ he (by decide) (by decide)
  · intro h
    obtain ⟨hr, hc⟩ := h
    obtain ⟨s, h4, hlo, hhi⟩ := hs
    have hm : row.error ≠ some MARK_MAINT := fun hm => (maintenance_unmarked hm).2 hr
    refine ⟨.throttled, hthrottled hr, ?_⟩
    intro v hv
    cases v <;> simp [Falls, Unmarked, StatusIn, StatusFrom, h4, hm, hc, hr] at hv ⊢ <;> omega

/-- A status from 500 with a text is in one bucket unless the rate limiter marked it. -/
theorem broken_with_text {row : LogRow} (hs : StatusFrom 500 row) (hn : row.error ≠ none) :
    (∃! t, Falls row t) ↔ ¬Marked MARK_RATE row := by
  obtain ⟨s, h5, hlo⟩ := hs
  constructor
  · intro h hr
    have hm : row.error ≠ some MARK_MAINT := fun hm => (maintenance_unmarked hm).2 hr
    have hthrottled : Falls row .throttled := .inr hr
    by_cases hc : Marked MARK_CB row
    · exact two_buckets hthrottled (u := .degraded) hc (by decide) h
    · exact two_buckets hthrottled (u := .error) (.inl ⟨⟨s, h5, hlo⟩, hm, hc⟩) (by decide) h
  · intro hr
    rcases text_bucket hn with hm | hc | hr' | he
    · have hno := maintenance_unmarked hm
      have hm' : row.error = some MARK_MAINT := hm
      refine ⟨.maintenance, hm, ?_⟩
      intro v hv
      cases v <;> simp [Falls, Unmarked, StatusIn, StatusFrom, h5, hm', hno] at hv ⊢ <;> omega
    · have hm : row.error ≠ some MARK_MAINT := fun hm => (maintenance_unmarked hm).1 hc
      have hc' : Marked MARK_CB row := hc
      refine ⟨.degraded, hc, ?_⟩
      intro v hv
      cases v <;> simp [Falls, Unmarked, StatusIn, StatusFrom, h5, hm, hc', hr] at hv ⊢ <;> omega
    · exact absurd hr' hr
    · obtain ⟨hm, hc⟩ : row.error ≠ some MARK_MAINT ∧ ¬Marked MARK_CB row := by
        rcases he with he | he
        · exact he.2
        · exact ⟨he.2.1, he.2.2.1⟩
      refine ⟨.error, he, ?_⟩
      intro v hv
      cases v <;> simp [Falls, Unmarked, StatusIn, StatusFrom, h5, hm, hc, hr] at hv ⊢ <;> omega

theorem one_bucket_exactly (row : LogRow) (hw : ProxyWrites row) :
    (∃! t, Selects (statusTypeWhere t row)) ↔ OneBucket row := by
  simp only [selects_bucket]
  by_cases hn : row.error = none
  · simp only [one_bucket_without_text hw hn, OneBucket, hn]
  · obtain ⟨e, he⟩ := Option.ne_none_iff_exists'.1 hn
    cases hw.statusClass with
    | missing hs =>
      rw [one_bucket_of_text hs hn]
      simp [OneBucket, he, hs, StatusIn, StatusFrom]
    | passed s hs hlo hhi =>
      have hno := passed_with_text ⟨s, hs, hlo, hhi⟩ hn
      have h4 : ¬StatusIn 400 500 row := by simp [StatusIn, hs]; omega
      have h5 : ¬StatusFrom 500 row := by simp [StatusFrom, hs]; omega
      simp [OneBucket, he, hs, hno, h4, h5]
    | refused s hs hlo hhi =>
      rw [refused_with_text ⟨s, hs, hlo, hhi⟩ hn]
      have h4 : StatusIn 400 500 row := ⟨s, hs, hlo, hhi⟩
      have h5 : ¬StatusFrom 500 row := by simp [StatusFrom, hs]; omega
      simp [OneBucket, he, hs, h4, h5]
    | broken s hs hlo =>
      rw [broken_with_text ⟨s, hs, hlo⟩ hn]
      have h4 : ¬StatusIn 400 500 row := by simp [StatusIn, hs]; omega
      have h5 : StatusFrom 500 row := ⟨s, hs, hlo⟩
      simp [OneBucket, he, hs, h4, h5]

/-- A stream that broke off after its 200. -/
def abortedStream : LogRow := ⟨"2024-01-01", some 200, some "aborted"⟩

theorem one_bucket_exactly_aborted :
    ProxyWrites abortedStream ∧
      ((∃! t, Selects (statusTypeWhere t abortedStream)) ↔ OneBucket abortedStream) := by
  have hw : ProxyWrites abortedStream := by simp [ProxyWrites, abortedStream]
  exact ⟨hw, one_bucket_exactly abortedStream hw⟩

theorem an_aborted_stream_is_a_success_and_an_error :
    ¬∀ row : LogRow, ProxyWrites row → ∃! t, Selects (statusTypeWhere t row) := by
  intro h
  have hw : ProxyWrites abortedStream := by simp [ProxyWrites, abortedStream]
  have hsuccess : Selects (statusTypeWhere .success abortedStream) := by decide
  have herror : Selects (statusTypeWhere .error abortedStream) := by decide
  exact absurd ((h abortedStream hw).unique hsuccess herror) (by decide)

end ClusterGate.Log
