/-
  ClusterGate.Proxy.Routing — which route serves a path (`proxy/proxyHandler.ts` and
  `proxy/wsHandler.ts`: the lookup).

  Both handlers query the published routes by descending path and take the first that
  matches. A route's base is its path without `/r` and without an ending `/*`; a route
  covers a path if its base is empty or `/`, or the path itself, or a prefix of it up to a
  slash. The intent is that the longest base wins.

  A wildcard route `b/*` sorts above a longer base exactly where the longer base goes on
  with less than `*` after `b/`, or ends at `b/` and is registered without `/*`; and the
  route `/r//*`, whose base is `/`, above bases whose second character is below a slash.
  - `longest_base_routed`: the lookup answers with the longest base that covers the path
    exactly when no wildcard route is in such a place.
  - `a_wildcard_shadows_a_longer_route`: `/r/api/*` takes the requests of `/r/api/$batch`.
-/

import ClusterGate.Lib.Collate
import ClusterGate.Route.Path
import Mathlib.Data.Set.Finite.Lemmas

namespace ClusterGate

open Lib

def Row.publicPath (r : Row) : String := r.string .publicPath

/-- `where: { isActive: true, deletedAt: null, status: 'PUBLISHED' }`. -/
def Row.published (r : Row) : Bool := r.flag .isActive && r.live && decide (r.val .status = .str "PUBLISHED")

/-! ## The lookup -/

/-- The path of a route as the lookup compares it. -/
def routePath (publicPath : String) : String :=
  let p :=
    if Text.startsWith publicPath "/r/" then Text.slice publicPath 2
    else if Text.startsWith publicPath "/r" then
      if Text.slice publicPath 2 = "" then "/" else Text.slice publicPath 2
    else publicPath
  if Text.endsWith p "/*" then Text.sliceEnd p 2 else p

def matchesRoute (publicPath path : String) : Bool :=
  let p := routePath publicPath
  p = "/" || p = "" || path = p || Text.startsWith path (p ++ "/")

/-- The first match among routes by descending path. -/
def findRoute (rows : List (String × Row)) (path : String) : Option (String × Row) :=
  (descending (fun r => units r.2.publicPath.toList) rows).find? fun r => matchesRoute r.2.publicPath path

def publishedRoutes (s : Store) : List (String × Row) := s.routes.rows.filter fun r => r.2.published

def publishedWsRoutes (s : Store) : List (String × Row) :=
  s.routes.rows.filter fun r => r.2.published && r.2.flag .wsEnabled

/-- `proxyHandler`, of a path below the mount point. -/
def proxyRoute (s : Store) (path : String) : Option (String × Row) := findRoute (publishedRoutes s) path

/-- `handleWebSocketUpgrade`, likewise. -/
def wsRoute (s : Store) (path : String) : Option (String × Row) := findRoute (publishedWsRoutes s) path

/-! ## Bases -/

def wildcard (publicPath : String) : Bool := Text.endsWith publicPath "/*"

def routeBase (publicPath : String) : List Char :=
  if wildcard publicPath then (publicPath.toList.drop 2).rdrop 2 else publicPath.toList.drop 2

def Covers (base path : List Char) : Prop :=
  base = [] ∨ base = ['/'] ∨ base = path ∨ base ++ ['/'] <+: path

/-- A path under `/r/` is its base after `/r`, with `/*` behind it if it is a wildcard's. -/
theorem publicPath_shape {p : String} (h : UnderRoutes p) :
    (wildcard p = false ∧ p.toList = '/' :: 'r' :: routeBase p) ∨
      (wildcard p = true ∧ p.toList = '/' :: 'r' :: (routeBase p ++ ['/', '*'])) := by
  obtain ⟨rest, h⟩ := h
  unfold routeBase
  cases hw : wildcard p with
  | false => exact .inl ⟨rfl, by simp [h]⟩
  | true =>
    refine .inr ⟨rfl, ?_⟩
    have hs : ['/', '*'] <:+ p.toList := List.isSuffixOf_iff_suffix.1 hw
    obtain ⟨t, ht⟩ := hs
    have ht2 : ∃ t', p.toList.drop 2 = t' ++ ['/', '*'] := by
      rw [h] at ht ⊢
      match t, ht with
      | [], ht => simp at ht
      | [_], ht => simp at ht
      | _ :: _ :: t', ht => exact ⟨t', by simp_all⟩
    obtain ⟨t', ht'⟩ := ht2
    have hp : p.toList = '/' :: 'r' :: p.toList.drop 2 := by rw [h]; rfl
    rw [if_pos rfl, hp, List.drop_succ_cons, List.drop_succ_cons, List.drop_zero, ht']
    simp [List.rdrop]

/-- A base is empty or starts with a slash. -/
theorem routeBase_slash {p : String} (h : UnderRoutes p) : routeBase p = [] ∨ ∃ t, routeBase p = '/' :: t := by
  have hp := publicPath_shape h
  obtain ⟨rest, h⟩ := h
  rw [h] at hp
  rcases hp with ⟨-, hp⟩ | ⟨-, hp⟩
  · injection hp with _ hp
    injection hp with _ hp
    exact .inr ⟨rest, hp.symm⟩
  · injection hp with _ hp
    injection hp with _ hp
    cases hb : routeBase p with
    | nil => exact .inl rfl
    | cons c t =>
      rw [hb] at hp
      injection hp with hc _
      exact .inr ⟨t, by rw [hc]⟩

theorem routePath_base {p : String} (h : UnderRoutes p) : (routePath p).toList = routeBase p := by
  have hs : Text.startsWith p "/r/" = true := underRoutes_iff.1 h
  have hshape := publicPath_shape h
  unfold routePath
  rw [if_pos hs]
  dsimp only
  rcases hshape with ⟨hw, hp⟩ | ⟨hw, hp⟩
  · have hend : Text.endsWith (Text.slice p 2) "/*" = false := by
      rw [Bool.eq_false_iff]
      intro hend
      have hsuf : ['/', '*'] <:+ (Text.slice p 2).toList := List.isSuffixOf_iff_suffix.1 hend
      rw [Text.slice, String.toList_ofList] at hsuf
      have : wildcard p = true := List.isSuffixOf_iff_suffix.2 (hsuf.trans (List.drop_suffix 2 _))
      rw [hw] at this
      cases this
    rw [hend]
    simp [Text.slice, hp]
  · have hsuf : (Text.slice p 2).toList = routeBase p ++ ['/', '*'] := by simp [Text.slice, hp]
    have hend : Text.endsWith (Text.slice p 2) "/*" = true :=
      List.isSuffixOf_iff_suffix.2 ⟨routeBase p, hsuf.symm⟩
    rw [hend, if_pos rfl, Text.sliceEnd, String.toList_ofList, hsuf]
    simp [List.rdrop]

/-- The handlers' test is the cover of the base. -/
theorem matchesRoute_iff {p : String} (h : UnderRoutes p) (path : String) :
    matchesRoute p path = true ↔ Covers (routeBase p) path.toList := by
  have hb := routePath_base h
  have hempty : routePath p = "" ↔ routeBase p = [] := by rw [← hb]; exact String.toList_eq_nil_iff.symm
  have hslash : routePath p = "/" ↔ routeBase p = ['/'] := by
    rw [← hb, ← String.toList_inj]
    rfl
  have heq : path = routePath p ↔ routeBase p = path.toList := by
    rw [← hb, ← String.toList_inj, eq_comm]
  have hprefix : Text.startsWith path (routePath p ++ "/") = true ↔ routeBase p ++ ['/'] <+: path.toList := by
    rw [Text.startsWith, List.isPrefixOf_iff_prefix, String.toList_append, hb]
    rfl
  simp only [matchesRoute, Bool.or_eq_true, decide_eq_true_eq, hempty, hslash, heq, hprefix, or_assoc]
  exact or_left_comm

/-! ## Two bases of one path -/

section Bases

variable {b l path : List Char}

/-- Of two bases that cover a path the longer goes on after a slash, or the shorter is the
    slash itself. -/
theorem Covers.longer (hb : b = [] ∨ ∃ t, b = '/' :: t) (hl : l = [] ∨ ∃ t, l = '/' :: t) (cb : Covers b path)
    (cl : Covers l path) (hlt : b.length < l.length) :
    (∃ t, l = b ++ '/' :: t) ∨ (b = ['/'] ∧ ∃ c t, l = '/' :: c :: t) := by
  have hl' : ∃ t, l = '/' :: t := by
    rcases hl with hl | hl
    · rw [hl] at hlt
      exact absurd hlt (Nat.not_lt_zero _)
    · exact hl
  rcases cb with rfl | rfl | rfl | hpre
  · obtain ⟨t, ht⟩ := hl'
    exact .inl ⟨t, ht⟩
  · obtain ⟨t, rfl⟩ := hl'
    cases t with
    | nil => exact absurd hlt (Nat.lt_irrefl _)
    | cons c t => exact .inr ⟨rfl, c, t, rfl⟩
  · -- the shorter base is the whole path: only a slash could be longer, and that is no base of it
    rcases cl with rfl | rfl | rfl | hpre
    · exact absurd hlt (Nat.not_lt_zero _)
    · rcases hb with rfl | ⟨t, rfl⟩
      · exact .inl ⟨[], rfl⟩
      · simp only [List.length_cons, List.length_nil] at hlt
        omega
    · exact absurd hlt (Nat.lt_irrefl _)
    · have := hpre.length_le
      simp only [List.length_append, List.length_cons, List.length_nil] at this
      omega
  · have hslash : b ++ ['/'] <+: l := by
      rcases cl with rfl | rfl | rfl | hpre'
      · exact absurd hlt (Nat.not_lt_zero _)
      · rcases hb with rfl | ⟨t, rfl⟩
        · exact List.prefix_rfl
        · simp only [List.length_cons, List.length_nil] at hlt
          omega
      · exact hpre
      · refine List.prefix_of_prefix_length_le hpre ((List.prefix_append l ['/']).trans hpre') ?_
        simp only [List.length_append, List.length_cons, List.length_nil]
        omega
    obtain ⟨t, rfl⟩ := hslash
    exact .inl ⟨t, by simp⟩

theorem Covers.same (hb : b = [] ∨ ∃ t, b = '/' :: t) (hl : l = [] ∨ ∃ t, l = '/' :: t) (cb : Covers b path)
    (cl : Covers l path) (hlen : b.length = l.length) : b = l := by
  have slash : ∀ {x : List Char}, (x = [] ∨ ∃ t, x = '/' :: t) → x.length = 1 → x = ['/'] := by
    intro x hx hx1
    rcases hx with rfl | ⟨t, rfl⟩
    · cases hx1
    · rw [List.length_cons, Nat.add_eq_right, List.length_eq_zero_iff] at hx1
      rw [hx1]
  have within : ∀ {x : List Char}, Covers x path → x.length ≠ 0 → x.length ≠ 1 → x <+: path := by
    intro x hx h0 h1
    rcases hx with rfl | rfl | rfl | hx
    · exact absurd rfl h0
    · exact absurd rfl h1
    · exact List.prefix_rfl
    · exact (List.prefix_append x ['/']).trans hx
  by_cases h0 : b.length = 0
  · have hl0 : l.length = 0 := hlen ▸ h0
    rw [List.length_eq_zero_iff.1 h0, List.length_eq_zero_iff.1 hl0]
  by_cases h1 : b.length = 1
  · rw [slash hb h1, slash hl (hlen ▸ h1)]
  · exact (List.prefix_of_prefix_length_le (within cb h0 h1) (within cl (hlen ▸ h0) (hlen ▸ h1)) hlen.le).eq_of_length hlen

end Bases

/-! ## The longest base -/

/-- What the lookup is meant to answer. -/
def BestMatch (rows : List (String × Row)) (path : List Char) (chosen : Option (String × Row)) : Prop :=
  (∀ m, chosen = some m → m ∈ rows ∧ Covers (routeBase m.2.publicPath) path ∧
    ∀ r ∈ rows, Covers (routeBase r.2.publicPath) path →
      (routeBase r.2.publicPath).length ≤ (routeBase m.2.publicPath).length) ∧
  (chosen = none ↔ ∀ r ∈ rows, ¬Covers (routeBase r.2.publicPath) path)

/-- A route of the longest base that covers the path. -/
def Longest (rows : List (String × Row)) (path : List Char) (r : String × Row) : Prop :=
  r ∈ rows ∧ Covers (routeBase r.2.publicPath) path ∧
    ∀ t ∈ rows, Covers (routeBase t.2.publicPath) path →
      (routeBase t.2.publicPath).length ≤ (routeBase r.2.publicPath).length

/-- The longer base `l` goes on after `b/` with `*` or more; or it is `b/`, and registered
    with `/*`; or `b` is the slash, and `l` goes on after it with more than a slash. -/
def Outsorts (rows : List (String × Row)) (b l : List Char) : Prop :=
  (∃ c t, l = b ++ '/' :: c :: t ∧ '*'.toNat ≤ c.toNat) ∨
    (l = b ++ ['/'] ∧ ∃ t ∈ rows, t.2.publicPath.toList = '/' :: 'r' :: (l ++ ['/', '*'])) ∨
      (b = ['/'] ∧ ∃ c t, l = '/' :: c :: t ∧ '/'.toNat < c.toNat)

/-- No wildcard route that covers the path sorts above the longest base that does. -/
def Unshadowed (rows : List (String × Row)) (path : List Char) : Prop :=
  ∀ w ∈ rows, wildcard w.2.publicPath = true → Covers (routeBase w.2.publicPath) path →
    ∀ r, Longest rows path r → (routeBase w.2.publicPath).length < (routeBase r.2.publicPath).length →
      Outsorts rows (routeBase w.2.publicPath) (routeBase r.2.publicPath)

section Lookup

variable {rows : List (String × Row)} {path : String}

theorem exists_longest (h : ∃ r ∈ rows, Covers (routeBase r.2.publicPath) path.toList) :
    ∃ r, Longest rows path.toList r := by
  obtain ⟨r, hr, hc⟩ := h
  have hfin : {r | r ∈ rows ∧ Covers (routeBase r.2.publicPath) path.toList}.Finite :=
    rows.finite_toSet.subset fun r hr => hr.1
  obtain ⟨m, hm, hmax⟩ := Set.exists_max_image _ (fun r => (routeBase r.2.publicPath).length) hfin ⟨r, hr, hc⟩
  exact ⟨m, hm.1, hm.2, fun t ht htc => hmax t ⟨ht, htc⟩⟩

/-- A wildcard of base `b` sorts below a path that goes on after `b/` with `*` or more. -/
theorem wildcard_below {b t e : List Char} {c : Char} (hc : '*'.toNat ≤ c.toNat) (hne : c :: (t ++ e) ≠ ['*']) :
    units ('/' :: 'r' :: (b ++ ['/', '*'])) < units ('/' :: 'r' :: (b ++ '/' :: c :: t ++ e)) := by
  have hw : '/' :: 'r' :: (b ++ ['/', '*']) = ('/' :: 'r' :: (b ++ ['/'])) ++ '*' :: [] := by simp
  have hl : '/' :: 'r' :: (b ++ '/' :: c :: t ++ e) = ('/' :: 'r' :: (b ++ ['/'])) ++ c :: (t ++ e) := by simp
  rw [hl]
  by_cases heq : c = '*'
  · subst heq
    cases hte : t ++ e with
    | nil => rw [hte] at hne; exact absurd rfl hne
    | cons d u =>
      have hgo : '/' :: 'r' :: (b ++ ['/']) ++ '*' :: d :: u = '/' :: 'r' :: (b ++ ['/', '*']) ++ d :: u := by simp
      rw [hgo]
      exact collate_prefix d u
  · have hlt : '*'.toNat < c.toNat := by
      have : '*'.toNat ≠ c.toNat := fun h => heq (Char.toNat_inj.1 h).symm
      omega
    rw [hw]
    exact collate_branch _ _ _ (by decide) hlt

/-- And above one that goes on with less. -/
theorem wildcard_above {b t : List Char} {c : Char} (hc : c.toNat < '*'.toNat) :
    units ('/' :: 'r' :: (b ++ '/' :: c :: t)) < units ('/' :: 'r' :: (b ++ ['/', '*'])) := by
  have hw : '/' :: 'r' :: (b ++ ['/', '*']) = ('/' :: 'r' :: (b ++ ['/'])) ++ '*' :: [] := by simp
  have hl : '/' :: 'r' :: (b ++ '/' :: c :: t) = ('/' :: 'r' :: (b ++ ['/'])) ++ c :: t := by simp
  rw [hw, hl]
  refine collate_branch _ _ _ ?_ hc
  have : '*'.toNat = 42 := rfl
  omega

/-- A route of a base that goes on with `*` or more after a wildcard's sorts above it. -/
theorem longer_above {w r : String} (hw : UnderRoutes w) (hr : UnderRoutes r) (hwild : wildcard w = true) {c : Char}
    {t : List Char} (hl : routeBase r = routeBase w ++ '/' :: c :: t) (hc : '*'.toNat ≤ c.toNat) :
    units w.toList < units r.toList := by
  rcases publicPath_shape hw with ⟨hno, -⟩ | ⟨-, hwp⟩
  · rw [hwild] at hno
    cases hno
  rcases publicPath_shape hr with ⟨hno, hrp⟩ | ⟨-, hrp⟩
  · rw [hwp, hrp, hl, ← List.append_nil (routeBase w ++ '/' :: c :: t)]
    refine wildcard_below hc ?_
    intro heq
    rw [List.append_nil] at heq
    have hsuf : wildcard r = true := by
      refine List.isSuffixOf_iff_suffix.2 ⟨'/' :: 'r' :: routeBase w, ?_⟩
      rw [hrp, hl, heq]
      simp
    rw [hno] at hsuf
    cases hsuf
  · rw [hwp, hrp, hl]
    refine wildcard_below hc ?_
    simp

/-- An exact route sorts below every other whose base covers the same path and is longer. -/
theorem exact_below {m r : String} (hm : UnderRoutes m) (hr : UnderRoutes r) (hexact : wildcard m = false)
    {p : List Char} (cm : Covers (routeBase m) p) (cr : Covers (routeBase r) p)
    (hlt : (routeBase m).length < (routeBase r).length) : units m.toList < units r.toList := by
  have hmp : m.toList = '/' :: 'r' :: routeBase m := by
    rcases publicPath_shape hm with ⟨-, h⟩ | ⟨h, -⟩
    · exact h
    · rw [hexact] at h
      cases h
  have hext : ∃ d u, routeBase r = routeBase m ++ d :: u := by
    rcases Covers.longer (routeBase_slash hm) (routeBase_slash hr) cm cr hlt with ⟨t, ht⟩ | ⟨hb, c, t, ht⟩
    · exact ⟨'/', t, ht⟩
    · exact ⟨c, t, by rw [ht, hb]; rfl⟩
  obtain ⟨d, u, hext⟩ := hext
  rcases publicPath_shape hr with ⟨-, hrp⟩ | ⟨-, hrp⟩
  · have hgo : r.toList = m.toList ++ d :: u := by rw [hrp, hmp, hext]; rfl
    rw [hgo]
    exact collate_prefix d u
  · have hgo : r.toList = m.toList ++ d :: (u ++ ['/', '*']) := by rw [hrp, hmp, hext]; simp
    rw [hgo]
    exact collate_prefix d _

/-- `/r//*` sorts below what goes on after `/r/` with more than a slash. -/
theorem slash_below {w r : String} (hw : UnderRoutes w) (hr : UnderRoutes r) (hwild : wildcard w = true)
    (hb : routeBase w = ['/']) {c : Char} {t : List Char} (hl : routeBase r = '/' :: c :: t)
    (hc : '/'.toNat < c.toNat) : units w.toList < units r.toList := by
  have hwp : w.toList = ['/', 'r', '/'] ++ '/' :: ['*'] := by
    rcases publicPath_shape hw with ⟨hno, -⟩ | ⟨-, h⟩
    · rw [hwild] at hno
      cases hno
    · rw [h, hb]
      rfl
  have hrp : ∃ u, r.toList = ['/', 'r', '/'] ++ c :: u := by
    rcases publicPath_shape hr with ⟨-, h⟩ | ⟨-, h⟩
    · exact ⟨t, by rw [h, hl]; rfl⟩
    · exact ⟨t ++ ['/', '*'], by rw [h, hl]; simp⟩
  obtain ⟨u, hrp⟩ := hrp
  rw [hwp, hrp]
  exact collate_branch _ _ _ (by decide) hc

/-- If a wildcard does not sort above some route of the longest base, the longest base
    goes on as `Outsorts` says. -/
theorem outsorts_of {w m : String × Row} (hw : UnderRoutes w.2.publicPath) (hm : UnderRoutes m.2.publicPath)
    (hwild : wildcard w.2.publicPath = true) (hmem : m ∈ rows) {p : List Char}
    (cw : Covers (routeBase w.2.publicPath) p) (cm : Covers (routeBase m.2.publicPath) p)
    (hlt : (routeBase w.2.publicPath).length < (routeBase m.2.publicPath).length)
    (hnot : ¬units m.2.publicPath.toList < units w.2.publicPath.toList) :
    Outsorts rows (routeBase w.2.publicPath) (routeBase m.2.publicPath) := by
  have hwp : w.2.publicPath.toList = '/' :: 'r' :: (routeBase w.2.publicPath ++ ['/', '*']) := by
    rcases publicPath_shape hw with ⟨hno, -⟩ | ⟨-, h⟩
    · rw [hwild] at hno
      cases hno
    · exact h
  have after : ∀ t, routeBase m.2.publicPath = routeBase w.2.publicPath ++ '/' :: t →
      Outsorts rows (routeBase w.2.publicPath) (routeBase m.2.publicPath) := by
    intro t ht
    cases t with
    | nil =>
      refine .inr (.inl ⟨ht, m, hmem, ?_⟩)
      rcases publicPath_shape hm with ⟨-, hmp⟩ | ⟨-, hmp⟩
      · -- the exact route of base `b/` is a prefix of the wildcard's path
        refine absurd ?_ hnot
        have hgo : w.2.publicPath.toList = m.2.publicPath.toList ++ '*' :: [] := by rw [hwp, hmp, ht]; simp
        rw [hgo]
        exact collate_prefix _ _
      · exact hmp
    | cons c t =>
      by_cases hc : '*'.toNat ≤ c.toNat
      · exact .inl ⟨c, t, ht, hc⟩
      · refine absurd ?_ hnot
        rw [hwp]
        rcases publicPath_shape hm with ⟨-, hmp⟩ | ⟨-, hmp⟩
        · rw [hmp, ht]
          exact wildcard_above (by omega)
        · have hgo : m.2.publicPath.toList = '/' :: 'r' :: (routeBase w.2.publicPath ++ '/' :: c :: (t ++ ['/', '*'])) := by
            rw [hmp, ht]
            simp
          rw [hgo]
          exact wildcard_above (by omega)
  rcases Covers.longer (routeBase_slash hw) (routeBase_slash hm) cw cm hlt with ⟨t, ht⟩ | ⟨hb, c, t, ht⟩
  · exact after t ht
  · by_cases hc : c = '/'
    · exact after t (by rw [ht, hb, hc]; rfl)
    · by_cases hgt : '/'.toNat < c.toNat
      · exact .inr (.inr ⟨hb, c, t, ht, hgt⟩)
      · refine absurd ?_ hnot
        have hlt' : c.toNat < '/'.toNat := by
          have : c.toNat ≠ '/'.toNat := fun h => hc (Char.toNat_inj.1 h)
          omega
        have hwp' : w.2.publicPath.toList = ['/', 'r', '/'] ++ '/' :: ['*'] := by rw [hwp, hb]; rfl
        have hmp : ∃ u, m.2.publicPath.toList = ['/', 'r', '/'] ++ c :: u := by
          rcases publicPath_shape hm with ⟨-, h⟩ | ⟨-, h⟩
          · exact ⟨t, by rw [h, ht]; rfl⟩
          · exact ⟨t ++ ['/', '*'], by rw [h, ht]; simp⟩
        obtain ⟨u, hmp⟩ := hmp
        rw [hwp', hmp]
        refine collate_branch _ _ _ ?_ hlt'
        have : '/'.toNat = 47 := rfl
        omega

theorem findRoute_some {m : String × Row} (hm : findRoute rows path = some m) :
    m ∈ rows ∧ matchesRoute m.2.publicPath path = true := by
  unfold findRoute at hm
  have hp := List.find?_some hm
  exact ⟨mem_descending.1 (List.mem_of_find?_eq_some hm), hp⟩

theorem matches_covers (hu : ∀ r ∈ rows, UnderRoutes r.2.publicPath) {r : String × Row} (hr : r ∈ rows) :
    matchesRoute r.2.publicPath path = true ↔ Covers (routeBase r.2.publicPath) path.toList :=
  matchesRoute_iff (hu r hr) path

/-- What is found comes last in the order among all that match. -/
theorem findRoute_last (hu : ∀ r ∈ rows, UnderRoutes r.2.publicPath) {m : String × Row} (hm : findRoute rows path = some m) :
    (m ∈ rows ∧ Covers (routeBase m.2.publicPath) path.toList) ∧
      ∀ r ∈ rows, Covers (routeBase r.2.publicPath) path.toList →
        ¬units m.2.publicPath.toList < units r.2.publicPath.toList := by
  obtain ⟨hmem, hp⟩ := findRoute_some hm
  refine ⟨⟨hmem, (matches_covers hu hmem).1 hp⟩, ?_⟩
  intro r hr hc
  unfold findRoute at hm
  exact find?_descending hm hr ((matches_covers hu hr).2 hc)

theorem findRoute_none (hu : ∀ r ∈ rows, UnderRoutes r.2.publicPath) :
    findRoute rows path = none ↔ ∀ r ∈ rows, ¬Covers (routeBase r.2.publicPath) path.toList := by
  rw [findRoute, List.find?_eq_none]
  constructor
  · intro h r hr hc
    exact h r (mem_descending.2 hr) ((matches_covers hu hr).2 hc)
  · intro h r hr hm
    have hr' := mem_descending.1 hr
    exact h r hr' ((matches_covers hu hr').1 hm)

theorem findRoute_iff (hu : ∀ r ∈ rows, UnderRoutes r.2.publicPath) :
    BestMatch rows path.toList (findRoute rows path) ↔ Unshadowed rows path.toList := by
  constructor
  · intro hbest w hw hwild cw r hr hlt
    cases hf : findRoute rows path with
    | none => exact absurd cw ((findRoute_none hu).1 hf w hw)
    | some m =>
      obtain ⟨⟨hmem, cm⟩, hmax⟩ := findRoute_last hu hf
      have hge := (hbest.1 m hf).2.2 r hr.1 hr.2.1
      have hle := hr.2.2 m hmem cm
      have hbase : routeBase m.2.publicPath = routeBase r.2.publicPath :=
        Covers.same (routeBase_slash (hu m hmem)) (routeBase_slash (hu r hr.1)) cm hr.2.1 (by omega)
      rw [← hbase] at hlt ⊢
      exact outsorts_of (hu w hw) (hu m hmem) hwild hmem cw cm hlt (hmax w hw cw)
  · intro hun
    refine ⟨?_, findRoute_none hu⟩
    intro m hm
    obtain ⟨⟨hmem, cm⟩, hmax⟩ := findRoute_last hu hm
    refine ⟨hmem, cm, ?_⟩
    intro r hr cr
    obtain ⟨l, hl⟩ := exists_longest ⟨r, hr, cr⟩
    refine Nat.le_trans (hl.2.2 r hr cr) ?_
    by_contra hlt
    rw [not_le] at hlt
    have hnot := hmax l hl.1 hl.2.1
    cases hwild : wildcard m.2.publicPath with
    | false => exact hnot (exact_below (hu m hmem) (hu l hl.1) hwild cm hl.2.1 hlt)
    | true =>
      rcases hun m hmem hwild cm l hl hlt with ⟨c, t, ht, hc⟩ | ⟨ht, t, htm, htp⟩ | ⟨hb, c, t, ht, hc⟩
      · exact hnot (longer_above (hu m hmem) (hu l hl.1) hwild ht hc)
      · -- the longest base is registered as a wildcard too, and that one sorts above
        have htb : routeBase t.2.publicPath = routeBase l.2.publicPath := by
          have hend : wildcard t.2.publicPath = true := by
            refine List.isSuffixOf_iff_suffix.2 ⟨'/' :: 'r' :: routeBase l.2.publicPath, ?_⟩
            rw [htp]
            simp
          rw [routeBase, if_pos hend, htp]
          simp [List.rdrop]
        refine hmax t htm (htb ▸ hl.2.1) ?_
        rcases publicPath_shape (hu m hmem) with ⟨hno, -⟩ | ⟨-, hmp⟩
        · rw [hwild] at hno
          cases hno
        · rw [hmp, htp, ht]
          have hgo : routeBase m.2.publicPath ++ ['/'] ++ ['/', '*'] =
              routeBase m.2.publicPath ++ '/' :: '/' :: [] ++ ['*'] := by simp
          rw [hgo]
          exact wildcard_below (by decide) (by simp)
      · exact hnot (slash_below (hu m hmem) (hu l hl.1) hwild hb ht hc)

end Lookup

/-- Every path in the routes table is one the route schema takes. -/
def Store.PathsUnderRoutes (s : Store) : Prop :=
  ∀ id r, s.routes.get? id = some r → UnderRoutes r.publicPath

theorem longest_base_routed (s : Store) (hs : s.PathsUnderRoutes) (path : String) :
    (BestMatch (publishedRoutes s) path.toList (proxyRoute s path) ↔ Unshadowed (publishedRoutes s) path.toList) ∧
      (BestMatch (publishedWsRoutes s) path.toList (wsRoute s path) ↔
        Unshadowed (publishedWsRoutes s) path.toList) := by
  have hrows : ∀ r ∈ s.routes.rows, UnderRoutes r.2.publicPath := fun r hr => hs r.1 r.2 (Table.mem_rows_iff.1 hr)
  constructor
  · exact findRoute_iff fun r hr => hrows r (List.mem_filter.1 hr).1
  · exact findRoute_iff fun r hr => hrows r (List.mem_filter.1 hr).1

/-- A published route that takes upgrades, at a path. -/
def publishedRoute (path : String) : Row := Row.ofFields
  [(.name, .str "route"), (.publicPath, .str path), (.targetUrl, .str "http://upstream"), (.isActive, .bool true),
   (.status, .str "PUBLISHED"), (.wsEnabled, .bool true)]
  (by intro c; cases c <;> rfl)

def wildcardAndBatch : Store := { Store.empty with
  routes := (Table.empty.insert "api" (publishedRoute "/r/api/*")).insert "batch" (publishedRoute "/r/api/$batch") }

theorem wildcardAndBatch_paths : wildcardAndBatch.PathsUnderRoutes := by
  intro id r h
  have hmem := Table.mem_rows_iff.2 h
  have hall : ∀ p ∈ wildcardAndBatch.routes.rows, Text.startsWith p.2.publicPath "/r/" = true := by decide +kernel
  exact underRoutes_iff.2 (hall _ hmem)

theorem longest_base_routed_api :
    (BestMatch (publishedRoutes wildcardAndBatch) "/api/users".toList (proxyRoute wildcardAndBatch "/api/users") ↔
      Unshadowed (publishedRoutes wildcardAndBatch) "/api/users".toList) ∧
    (BestMatch (publishedWsRoutes wildcardAndBatch) "/api/users".toList (wsRoute wildcardAndBatch "/api/users") ↔
      Unshadowed (publishedWsRoutes wildcardAndBatch) "/api/users".toList) :=
  longest_base_routed wildcardAndBatch wildcardAndBatch_paths "/api/users"

/-- The dollar sign sorts below the asterisk. -/
theorem a_wildcard_shadows_a_longer_route :
    ¬∀ (s : Store) (path : String), s.PathsUnderRoutes →
      BestMatch (publishedRoutes s) path.toList (proxyRoute s path) ∧
        BestMatch (publishedWsRoutes s) path.toList (wsRoute s path) := by
  intro h
  obtain ⟨⟨hbest, -⟩, -⟩ := h wildcardAndBatch "/api/$batch" wildcardAndBatch_paths
  have hchosen : (proxyRoute wildcardAndBatch "/api/$batch").map Prod.fst = some "api" := by decide +kernel
  obtain ⟨⟨id, m⟩, hm, hid⟩ := Option.map_eq_some_iff.1 hchosen
  obtain ⟨hmem, -, hmax⟩ := hbest _ hm
  have hshort : ∀ p ∈ publishedRoutes wildcardAndBatch, p.1 = "api" → (routeBase p.2.publicPath).length = 4 := by
    decide +kernel
  have hlong : ∃ p ∈ publishedRoutes wildcardAndBatch,
      routeBase p.2.publicPath = "/api/$batch".toList ∧ (routeBase p.2.publicPath).length = 11 := by decide +kernel
  obtain ⟨p, hp, hbase, hlen⟩ := hlong
  have hle := hmax p hp (.inr (.inr (.inl hbase)))
  rw [hlen, hshort _ hmem hid] at hle
  omega

end ClusterGate
