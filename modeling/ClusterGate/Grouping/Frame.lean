/-
  ClusterGate.Grouping.Frame — what a call may do to route groups and folders, and to the
  routes in them.

  A call of a folder endpoint moves routes between folders and nothing else; one of a
  group endpoint writes a route's group, or a group's own row.
-/

import ClusterGate.Grouping.Folders
import ClusterGate.Route.Effects

namespace ClusterGate

open Lib Lib.Act Lib.Table Lib.Zod

/-- The rows agree outside the given columns. -/
def AgreeBut (cs : List Column) (r r' : Row) : Prop := ∀ c, c ∉ cs → r'.val c = r.val c

theorem WrittenRow.agreeBut {now : String} {c : Column} {v : Json} {r r' : Row}
    (h : WrittenRow now (Patch.ofList [(c, v)]) r r') : AgreeBut [c, .updatedAt] r r' := by
  intro c' hc
  simp only [List.mem_cons, List.not_mem_nil, or_false, not_or] at hc
  exact h.same (by simp [Patch.ofList, Ne.symm hc.1]) hc.2

/-! ## Groups -/

/-- The caller manages the organization of the group's team. -/
def managesGroup (s : Store) (u : Caller) (id : String) : Prop :=
  u.role = .ADMIN ∨ ∃ org ∈ groupOrg? s id, canManageOrgRoutes s u org = true

/-- How a call may change the rows of routes. -/
def GroupOp.changes (s : Store) (u : Caller) : GroupOp → RowChange
  | .assign id routeId => fun k r r' => k = routeId ∧ MayWrite s u routeId ∧ managesGroup s u id ∧
      r'.val .routeGroupId = .str id ∧ AgreeBut [.routeGroupId, .updatedAt] r r'
  | .remove id routeId => fun k r r' => k = routeId ∧ MayWrite s u routeId ∧ managesGroup s u id ∧
      r'.val .routeGroupId = .null ∧ AgreeBut [.routeGroupId, .updatedAt] r r'
  | .delete id => fun _ r r' => u.role = .ADMIN ∧ r.val .routeGroupId = .str id ∧
      AgreeBut [.routeGroupId, .updatedAt] r r'
  | _ => noChange

/-- How a call may change groups. -/
def GroupOp.regroups (W : World) (s : Store) (u : Caller) : GroupOp → String → RouteGroup → RouteGroup → Prop
  | .update id body => fun k g g' => k = id ∧ u.role ∈ [Role.ADMIN, .OPERATOR] ∧ managesGroup s u id ∧
      ∃ data, parsed routeGroupFields (partialUpdate routeGroupSchema) body = .ok data ∧ g' = g.withFields W s id data
  | _ => fun _ _ _ => False

/-- Which groups a call may remove. -/
def GroupOp.disbands (u : Caller) : GroupOp → String → Prop
  | .delete id => fun k => k = id ∧ u.role = .ADMIN
  | _ => fun _ => False

/-- Routes and groups differ, and only so; a new group has no change policy of its own. -/
def GroupEffect (W : World) (u : Caller) (op : GroupOp) (s s' : Store) : Prop :=
  ∃ t g, s' = { s with routes := t, routeGroups := g } ∧ Changes (op.changes s u) noRow noRow s.routes t ∧
    Changes (op.regroups W s u) (fun _ g => g.changeRequestsEnabled = none) (fun k _ => op.disbands u k)
      s.routeGroups g

section Perform

variable {W : World} {u : Caller} {d : Draw} {s : Store}

theorem GroupEffect.refl {op : GroupOp} (s : Store) : GroupEffect W u op s s := ⟨_, _, rfl, Changes.refl _, Changes.refl _⟩

theorem wp_groupWritable {id : Option String} {g : RouteGroup} {t : Store} {Q : Unit → Store → Prop}
    {E : Err → Store → Prop} (hQ : Q () s) (hE : ∀ e, E e s) : wp (groupWritable t id g) Q E s := by
  simp only [groupWritable, wp_bind, wp_require]
  exact ⟨fun _ => ⟨fun _ => hQ, fun _ => hE _⟩, fun _ => hE _⟩

theorem wp_assertTeamManageable {teamId : Option String} {Q : Unit → Store → Prop} {E : Err → Store → Prop}
    (hQ : Q () s) (hE : ∀ e, E e s) : wp (assertTeamManageable u teamId) Q E s := by
  simp only [assertTeamManageable, wp_bind, wp_require, wp_read]
  exact ⟨fun _ => ⟨fun _ => hQ, fun _ => hE _⟩, fun _ => hE _⟩

theorem postGroup_keeps {body : Json} : Keeps (postGroup W u d body) (GroupEffect W u (.create body) s) s := by
  simp only [Keeps, postGroup, authorize, parseBody, wp_bind, wp_require, wp_ofExcept]
  refine ⟨fun _ => ⟨fun data _ => ?_, fun _ _ => .refl s⟩, fun _ => .refl s⟩
  refine wp_assertTeamManageable ?_ fun _ => .refl s
  simp only [createRouteGroup, wp_bind, wp_require, wp_read]
  refine ⟨fun _ => ⟨fun _ => ⟨fun hn => ?_, fun _ => .refl s⟩, fun _ => .refl s⟩, fun _ => .refl s⟩
  refine wp_groupWritable ?_ fun _ => .refl s
  have hn : s.routeGroups.get? d.rowId = none := by simpa using hn
  exact ⟨_, _, rfl, Changes.refl _, (Changes.refl _).insert hn hn rfl⟩

theorem putGroup_keeps {id : String} {body : Json} : Keeps (putGroup W u id body) (GroupEffect W u (.update id body) s) s := by
  simp only [Keeps, putGroup, authorize, assertGroupManage, parseBody, wp_bind, wp_require, wp_read, wp_ofExcept]
  refine ⟨fun ha => ⟨fun hm => ⟨fun data hd => ?_, fun _ _ => .refl s⟩, fun _ => .refl s⟩, fun _ => .refl s⟩
  have update : Keeps (updateRouteGroup W id data) (GroupEffect W u (.update id body) s) s := by
    simp only [Keeps, updateRouteGroup, wp_bind, wp_require, wp_read, wp_orThrow]
    refine ⟨fun g hg => ⟨fun _ => ⟨fun _ => ?_, fun _ => .refl s⟩, fun _ => .refl s⟩, fun _ => .refl s⟩
    refine wp_groupWritable ?_ fun _ => .refl s
    exact ⟨_, _, rfl, Changes.refl _, (Changes.refl _).modify hg hg ⟨rfl, ha, hm, data, hd, rfl⟩⟩
  rw [wp_when]
  exact ⟨fun _ => wp_assertTeamManageable update fun _ => .refl s, fun _ => update⟩

theorem deleteGroup_keeps {id : String} : Keeps (deleteGroup u d id) (GroupEffect W u (.delete id) s) s := by
  simp only [Keeps, deleteGroup, deleteRouteGroup, authorize, wp_bind, wp_require, wp_read]
  refine ⟨fun ha => ⟨fun _ => ?_, fun _ => .refl s⟩, fun _ => .refl s⟩
  have ha : u.role = .ADMIN := by simpa using ha
  have routes : ∀ s', RoutesChange (fun k r r' => decide (r.val .routeGroupId = .str id) = true ∧
      refsOk s ungroup r' = true ∧ WrittenRow d.now ungroup r r') noRow noRow s s' → ∃ t, s' = { s with routes := t } ∧ Changes (GroupOp.changes s u (.delete id)) noRow noRow s.routes t := by
    intro s' h
    obtain ⟨t, rfl, hc⟩ := h
    refine ⟨t, rfl, hc.mono ?_ (fun _ _ _ h => h) fun _ _ _ h => h⟩
    intro k r r' _ h
    exact ⟨ha, by simpa using h.1, h.2.2.agreeBut⟩
  refine wp_mono routeUpdateMany_keeps ?_ ?_
  · intro _ s' h
    obtain ⟨t, rfl, hc⟩ := routes s' h
    exact ⟨t, _, rfl, hc, changes_filter fun k _ _ hp => ⟨by simpa using hp, ha⟩⟩
  · intro _ s' h
    obtain ⟨t, rfl, hc⟩ := routes s' h
    exact ⟨t, _, rfl, hc, Changes.refl _⟩

theorem groupId_admits {v : Json} (h : v.isStr = true ∨ v = .null) : Column.routeGroupId.admits v = true := by
  rcases h with h | rfl
  · simp only [Column.admits, Column.type, ColType.admits, h, Bool.or_true]
  · rfl

/-- Assigning a route of the caller's to a group, or to none. -/
theorem assignRoute_keeps {op : GroupOp} {routeId : String} {v : Json}
    (hv : v.isStr = true ∨ v = .null)
    (hop : ∀ r r', r'.val .routeGroupId = v → AgreeBut [.routeGroupId, .updatedAt] r r' → op.changes s u routeId r r') :
    Keeps (assignRouteToGroup d.now routeId v) (GroupEffect W u op s) s := by
  rw [Keeps, assignRouteToGroup, wp_bind]
  refine wp_mono routeUpdate_keeps ?_ ?_ <;>
  · intro _ s' h
    obtain ⟨t, rfl, hc⟩ := h
    refine ⟨t, _, rfl, hc.mono ?_ (fun _ _ _ h => h) (fun _ _ _ h => h), Changes.refl _⟩
    intro k r r' _ h
    obtain ⟨rfl, hw⟩ := h
    exact hop r r' (hw.plain (c := .routeGroupId) rfl (by decide) (groupId_admits hv)) hw.agreeBut

theorem postGroupRoute_keeps {id routeId : String} :
    Keeps (postGroupRoute u d id routeId) (GroupEffect W u (.assign id routeId) s) s := by
  simp only [Keeps, postGroupRoute, authorize, requireRouteManage, assertGroupManage, wp_bind, wp_require, wp_read]
  refine ⟨fun ha => ⟨fun hm => ⟨fun hg => ?_, fun _ => .refl s⟩, fun _ => .refl s⟩, fun _ => .refl s⟩
  exact assignRoute_keeps (Or.inl rfl) fun r r' hv h => ⟨rfl, ⟨ha, hm⟩, hg, hv, h⟩

theorem deleteGroupRoute_keeps {id routeId : String} :
    Keeps (deleteGroupRoute u d id routeId) (GroupEffect W u (.remove id routeId) s) s := by
  simp only [Keeps, deleteGroupRoute, authorize, requireRouteManage, assertGroupManage, wp_bind, wp_require, wp_read]
  refine ⟨fun ha => ⟨fun hm => ⟨fun hg => ?_, fun _ => .refl s⟩, fun _ => .refl s⟩, fun _ => .refl s⟩
  exact assignRoute_keeps (Or.inr rfl) fun r r' hv h => ⟨rfl, ⟨ha, hm⟩, hg, hv, h⟩

theorem GroupOp.perform_keeps (op : GroupOp) : Keeps (op.perform W u d) (GroupEffect W u op s) s := by
  cases op with
  | create body => exact postGroup_keeps
  | update id body => exact putGroup_keeps
  | delete id => exact deleteGroup_keeps
  | assign id routeId => exact postGroupRoute_keeps
  | remove id routeId => exact deleteGroupRoute_keeps

/-! ## Folders -/

/-- A route is in another folder, and otherwise as it was. -/
def FolderChange : RowChange := fun _ r r' => AgreeBut [.folderId, .updatedAt] r r'

def FolderEffect (s s' : Store) : Prop :=
  ∃ t f, s' = { s with routes := t, routeFolders := f } ∧ Changes FolderChange noRow noRow s.routes t

theorem FolderEffect.refl (s : Store) : FolderEffect s s := ⟨_, _, rfl, Changes.refl _⟩

theorem folderUpdateMany_keeps {now : String} {sel : String → Row → Bool} {v : Json} :
    Keeps (routeUpdateMany now sel (Patch.ofList [(.folderId, v)])) (FolderEffect s) s := by
  refine wp_mono routeUpdateMany_keeps ?_ ?_ <;>
  · intro _ s' h
    obtain ⟨t, rfl, hc⟩ := h
    exact ⟨t, _, rfl, hc.mono (fun _ _ _ _ h => h.2.2.agreeBut) (fun _ _ _ h => h) fun _ _ _ h => h⟩

theorem wp_requireFolderManage {id : String} {Q : RouteFolder → Store → Prop} {E : Err → Store → Prop}
    (hQ : ∀ f, s.routeFolders.get? id = some f → Q f s) (hE : ∀ e, E e s) : wp (requireFolderManage u id) Q E s := by
  simp only [requireFolderManage, wp_bind, wp_read, wp_orThrow, wp_require, wp_pure]
  exact ⟨fun f hf => ⟨fun _ => hQ f hf, fun _ => hE _⟩, fun _ => hE _⟩

/-- The database takes a deleted folder out of its routes. -/
theorem deleteFolder_keeps {id : String} : Keeps (deleteFolder u id) (FolderEffect s) s := by
  simp only [Keeps, deleteFolder, authorize, wp_bind, wp_require]
  refine ⟨fun _ => wp_requireFolderManage (fun _ _ => ?_) fun _ => .refl s, fun _ => .refl s⟩
  refine ⟨_, _, rfl, changes_mapRows fun k r _ => ?_⟩
  unfold writtenIf
  by_cases hs : decide (r.val .folderId = .str id) = true
  · rw [if_pos hs]
    cases hw : r.write unfold with
    | none => exact Or.inl rfl
    | some r' =>
      refine Or.inr fun c hc => write_same hw ?_
      simp only [List.mem_cons, List.not_mem_nil, or_false, not_or] at hc
      simp [unfold, Patch.ofList, Ne.symm hc.1]
  · rw [if_neg hs]
    exact Or.inl rfl

theorem FolderOp.perform_keeps (op : FolderOp) : Keeps (op.perform u d) (FolderEffect s) s := by
  cases op with
  | create body =>
    simp only [Keeps, FolderOp.perform, postFolder, authorize, parseBody, wp_bind, wp_require, wp_ofExcept, wp_read,
      wp_modify]
    refine ⟨fun _ => ⟨fun data _ => ⟨fun _ => ⟨fun _ => ⟨fun _ => ⟨fun _ => ⟨fun _ => ?_, fun _ => .refl s⟩,
      fun _ => .refl s⟩, fun _ => .refl s⟩, fun _ => .refl s⟩, fun _ => .refl s⟩, fun _ _ => .refl s⟩, fun _ => .refl s⟩
    exact ⟨_, _, rfl, Changes.refl _⟩
  | update id body =>
    simp only [Keeps, FolderOp.perform, putFolder, authorize, parseBody, wp_bind, wp_require]
    refine ⟨fun _ => wp_requireFolderManage (fun _ _ => ?_) fun _ => .refl s, fun _ => .refl s⟩
    simp only [wp_bind, wp_ofExcept, wp_modify]
    exact ⟨fun _ _ => ⟨_, _, rfl, Changes.refl _⟩, fun _ _ => .refl s⟩
  | delete id => exact deleteFolder_keeps
  | moveRoutes id body =>
    simp only [Keeps, FolderOp.perform, postFolderRoutes, authorize, parseBody, wp_bind, wp_require]
    refine ⟨fun _ => wp_requireFolderManage (fun _ _ => ?_) fun _ => .refl s, fun _ => .refl s⟩
    simp only [wp_bind, wp_require, wp_ofExcept, wp_read]
    exact ⟨fun data _ => ⟨fun _ => ⟨fun _ => ⟨fun _ => folderUpdateMany_keeps, fun _ => .refl s⟩, fun _ => .refl s⟩,
      fun _ => .refl s⟩, fun _ _ => .refl s⟩
  | removeRoute id routeId =>
    simp only [Keeps, FolderOp.perform, deleteFolderRoute, authorize, requireRouteManage, wp_bind, wp_require, wp_read]
    refine ⟨fun _ => ⟨fun _ => wp_requireFolderManage (fun _ _ => ?_) fun _ => .refl s, fun _ => .refl s⟩, fun _ => .refl s⟩
    rw [wp_bind]
    refine wp_mono folderUpdateMany_keeps (fun n s' h => ?_) fun _ _ h => h
    rw [wp_require]
    exact ⟨fun _ => h, fun _ => h⟩

end Perform

end ClusterGate
