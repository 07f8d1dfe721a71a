/-
  ClusterGate.Children.Frame — what a call may do to a route's load-balancing targets and
  to its transform rules.

  A target that is added or gets another URL passed the policy of the organization its
  route is in; both kinds of rows are reached through the route they hang on only.
-/

import ClusterGate.Children.Transforms
import ClusterGate.Route.Effects

namespace ClusterGate

open Lib Lib.Act Lib.Table Lib.Zod

/-! ## Targets -/

/-- A target of a route whose URL the policy of the route's organization allows. -/
def AllowedTarget (W : World) (s : Store) (routeId : String) (t : RouteTarget) : Prop :=
  t.routeId = routeId ∧ ∃ r, s.routes.get? routeId = some r ∧ targetRefused W s t.url (r.val .organizationId) = none

def TargetOp.adds (W : World) (s : Store) (u : Caller) : TargetOp → String → RouteTarget → Prop
  | .add routeId body => fun _ t => MayWrite s u routeId ∧ AllowedTarget W s routeId t ∧
      ∃ data, parsed targetFields (targetSchema W) body = .ok data
  | _ => fun _ _ => False

def TargetOp.changes (W : World) (s : Store) (u : Caller) : TargetOp → String → RouteTarget → RouteTarget → Prop
  | .update routeId targetId body => fun k t t' => MayWrite s u routeId ∧ k = targetId ∧ t.routeId = routeId ∧
      (t'.url = t.url ∨ AllowedTarget W s routeId t') ∧
      ∃ data, parsed targetFields (partialUpdate (targetSchema W)) body = .ok data ∧ t' = t.withFields data
  | _ => fun _ _ _ => False

def TargetOp.removes (u : Caller) : TargetOp → String → RouteTarget → Prop
  | .delete routeId targetId => fun k t => u.role = .ADMIN ∧ k = targetId ∧ t.routeId = routeId
  | _ => fun _ _ => False

section Perform

variable {W : World} {u : Caller} {d : Draw} {s : Store}

theorem url_empty (W : World) : W.url "" = none := rfl

/-- A parsed URL is not empty, so it is judged. -/
theorem urlLeaf_ne {m : Option String} {v w : Json} (h : urlLeaf W m v = .ok w) : ∃ url, w = .str url ∧ url ≠ "" := by
  obtain ⟨t, -, rfl, ht⟩ := urlLeaf_ok h
  refine ⟨Text.trim t, rfl, fun e => ?_⟩
  rw [e, url_empty] at ht
  cases ht

theorem wp_assertTargetUrl {url routeId : String} {Q : Unit → Store → Prop} {E : Err → Store → Prop}
    (hQ : ∀ r, s.routes.get? routeId = some r → targetRefused W s url (r.val .organizationId) = none → Q () s)
    (hE : ∀ e, E e s) : wp (assertTargetUrl W url routeId) Q E s := by
  simp only [assertTargetUrl, wp_bind, wp_read, wp_orThrow, wp_assertRouteTargetAllowed]
  exact ⟨fun r hr => ⟨fun ht => hQ r hr ht, fun _ _ => hE _⟩, fun _ => hE _⟩

/-- Only targets differ, and only so. -/
def TargetEffect (W : World) (u : Caller) (op : TargetOp) (s s' : Store) : Prop :=
  ∃ t, s' = { s with routeTargets := t } ∧
    Changes (op.changes W s u) (op.adds W s u) (op.removes u) s.routeTargets t

theorem TargetEffect.refl {op : TargetOp} (s : Store) : TargetEffect W u op s s := ⟨_, rfl, Changes.refl _⟩

theorem postTarget_keeps {routeId : String} {body : Json} :
    Keeps (postTarget W u d routeId body) (TargetEffect W u (.add routeId body) s) s := by
  simp only [Keeps, postTarget, authorize, requireRouteManage, parseBody, wp_bind, wp_require, wp_read, wp_ofExcept, wp_when]
  refine ⟨fun ha => ⟨fun hm => ⟨fun data hd => ?_, fun _ _ => .refl s⟩, fun _ => .refl s⟩, fun _ => .refl s⟩
  obtain ⟨o, ho⟩ := parsed_field (f := "url") hd (by decide) rfl
  obtain ⟨v, w, -, hw, hleaf⟩ := ZodType.parse_leaf ho
  obtain ⟨url, rfl, hne⟩ := urlLeaf_ne hleaf
  have hurl : (textField? data "url").getD "" = url := by rw [textField?, hw]; rfl
  rw [hurl]
  refine ⟨fun _ => wp_assertTargetUrl (fun r hr ht => ?_) fun _ => .refl s, fun h => absurd hne h⟩
  simp only [addTarget, wp_bind, wp_read, wp_require, wp_modify]
  refine ⟨fun _ => ⟨fun hn => ⟨fun _ => ?_, fun _ => .refl s⟩, fun _ => .refl s⟩, fun _ => .refl s⟩
  have hn : s.routeTargets.get? d.rowId = none := by simpa using hn
  exact ⟨_, rfl, (Changes.refl _).insert hn hn ⟨⟨ha, hm⟩, ⟨rfl, r, hr, ht⟩, data, hd⟩⟩

/-- The write of an update: a target of the route, at its old URL or at one that is allowed. -/
theorem updateTarget_keeps {routeId : String} (targetId : String) {body : Json} {data : String → Option Json}
    (hm : MayWrite s u routeId) (hd : parsed targetFields (partialUpdate (targetSchema W)) body = .ok data)
    (hu : ∀ url, textField? data "url" = some url →
      ∃ r, s.routes.get? routeId = some r ∧ targetRefused W s url (r.val .organizationId) = none) :
    Keeps (do assertTargetBelongsToRoute targetId routeId; updateTarget targetId data)
      (TargetEffect W u (.update routeId targetId body) s) s := by
  simp only [Keeps, assertTargetBelongsToRoute, updateTarget, wp_bind, wp_read, wp_require, wp_modify]
  refine ⟨fun hb => ⟨fun _ => ⟨fun _ => ?_, fun _ => .refl s⟩, fun _ => .refl s⟩, fun _ => .refl s⟩
  rw [Option.any_eq_true] at hb
  obtain ⟨t, ht, hid⟩ := hb
  have hid : t.routeId = routeId := by simpa using hid
  refine ⟨_, rfl, (Changes.refl _).modify ht ht ⟨hm, rfl, hid, ?_, data, hd, rfl⟩⟩
  rw [RouteTarget.withFields]
  cases hf : textField? data "url" with
  | none => exact Or.inl rfl
  | some url =>
    obtain ⟨r, hr, hallowed⟩ := hu url hf
    exact Or.inr ⟨hid, r, hr, hallowed⟩

theorem putTarget_keeps {routeId targetId : String} {body : Json} :
    Keeps (putTarget W u routeId targetId body) (TargetEffect W u (.update routeId targetId body) s) s := by
  simp only [Keeps, putTarget, authorize, requireRouteManage, parseBody]
  simp only [wp_bind, wp_require, wp_read, wp_ofExcept, wp_when]
  refine ⟨fun ha => ⟨fun hm => ⟨fun data hd => ?_, fun _ _ => .refl s⟩, fun _ => .refl s⟩, fun _ => .refl s⟩
  obtain ⟨o, ho⟩ := parsed_field (f := "url") hd (by decide) rfl
  rcases ZodType.parse_optional_leaf ho with hw | ⟨v, w, -, hw, hleaf⟩
  · have hurl : textField? data "url" = none := by rw [textField?, hw]; rfl
    have keeps := updateTarget_keeps targetId ⟨ha, hm⟩ hd fun url h => by
      rw [hurl] at h
      cases h
    rw [Keeps, wp_bind] at keeps
    rw [hurl]
    exact ⟨fun h => absurd rfl h, fun _ => keeps⟩
  · obtain ⟨url, rfl, hne⟩ := urlLeaf_ne hleaf
    have hurl : textField? data "url" = some url := by rw [textField?, hw]; rfl
    rw [hurl]
    refine ⟨fun _ => wp_assertTargetUrl (fun r hr ht => ?_) fun _ => .refl s, fun h => absurd hne h⟩
    have keeps := updateTarget_keeps targetId ⟨ha, hm⟩ hd fun url' h => by
      rw [hurl, Option.some.injEq] at h
      exact ⟨r, hr, h ▸ ht⟩
    exact keeps

theorem deleteTarget_keeps {routeId targetId : String} :
    Keeps (deleteTarget u routeId targetId) (TargetEffect W u (.delete routeId targetId) s) s := by
  simp only [Keeps, deleteTarget, authorize, requireRouteManage, assertTargetBelongsToRoute]
  simp only [wp_bind, wp_require, wp_read, wp_modify]
  refine ⟨fun ha => ⟨fun _ => ⟨fun hb => ?_, fun _ => .refl s⟩, fun _ => .refl s⟩, fun _ => .refl s⟩
  rw [Option.any_eq_true] at hb
  obtain ⟨t, ht, hid⟩ := hb
  refine ⟨_, rfl, changes_filter fun k a hk hp => ?_⟩
  obtain rfl : k = targetId := by simpa using hp
  obtain rfl : t = a := by simpa [ht] using hk
  exact ⟨by simpa using ha, rfl, by simpa using hid⟩

theorem TargetOp.perform_keeps (op : TargetOp) : Keeps (op.perform W u d) (TargetEffect W u op s) s := by
  cases op with
  | add routeId body => exact postTarget_keeps
  | update routeId targetId body => exact putTarget_keeps
  | delete routeId targetId => exact deleteTarget_keeps

end Perform

/-! ## Transform rules -/

def TransformOp.adds (s : Store) (u : Caller) : TransformOp → String → TransformRule → Prop
  | .create routeId body => fun _ t => MayWrite s u routeId ∧ t.routeId = routeId ∧
      ∃ data, parsed transformRuleFields transformRuleSchema body = .ok data
  | _ => fun _ _ => False

def TransformOp.changes (s : Store) (u : Caller) : TransformOp → String → TransformRule → TransformRule → Prop
  | .update routeId ruleId body => fun k t t' => MayWrite s u routeId ∧ k = ruleId ∧ t.routeId = routeId ∧
      ∃ data, parsed transformRuleFields (partialUpdate transformRuleSchema) body = .ok data ∧ t' = t.withFields data
  | _ => fun _ _ _ => False

def TransformOp.removes (u : Caller) : TransformOp → String → TransformRule → Prop
  | .delete routeId ruleId => fun k t => u.role = .ADMIN ∧ k = ruleId ∧ t.routeId = routeId
  | _ => fun _ _ => False

/-- Only transform rules differ, and only so. -/
def TransformEffect (u : Caller) (op : TransformOp) (s s' : Store) : Prop :=
  ∃ t, s' = { s with transformRules := t } ∧
    Changes (op.changes s u) (op.adds s u) (op.removes u) s.transformRules t

section Perform

variable {u : Caller} {d : Draw} {s : Store}

theorem TransformEffect.refl {op : TransformOp} (s : Store) : TransformEffect u op s s := ⟨_, rfl, Changes.refl _⟩

theorem TransformOp.perform_keeps (op : TransformOp) : Keeps (op.perform u d) (TransformEffect u op s) s := by
  cases op with
  | create routeId body =>
    simp only [Keeps, TransformOp.perform, postTransform, createTransformRule, authorize, requireRouteManage, parseBody]
    simp only [wp_bind, wp_require, wp_read, wp_ofExcept, wp_modify]
    refine ⟨fun ha => ⟨fun hm => ⟨fun data hd => ⟨fun _ => ⟨fun hn => ⟨fun _ => ?_, fun _ => .refl s⟩, fun _ => .refl s⟩,
      fun _ => .refl s⟩, fun _ _ => .refl s⟩, fun _ => .refl s⟩, fun _ => .refl s⟩
    have hn : s.transformRules.get? d.rowId = none := by simpa using hn
    exact ⟨_, rfl, (Changes.refl _).insert hn hn ⟨⟨ha, hm⟩, rfl, data, hd⟩⟩
  | update routeId ruleId body =>
    simp only [Keeps, TransformOp.perform, putTransform, updateTransformRule, assertRuleBelongsToRoute, authorize,
      requireRouteManage, parseBody]
    simp only [wp_bind, wp_require, wp_read, wp_ofExcept, wp_modify]
    refine ⟨fun ha => ⟨fun hm => ⟨fun data hd => ⟨fun hb => ⟨fun _ => ⟨fun _ => ?_, fun _ => .refl s⟩, fun _ => .refl s⟩,
      fun _ => .refl s⟩, fun _ _ => .refl s⟩, fun _ => .refl s⟩, fun _ => .refl s⟩
    rw [Option.any_eq_true] at hb
    obtain ⟨t, ht, hid⟩ := hb
    have hid : t.routeId = routeId := by simpa using hid
    exact ⟨_, rfl, (Changes.refl _).modify ht ht ⟨⟨ha, hm⟩, rfl, hid, data, hd, rfl⟩⟩
  | delete routeId ruleId =>
    simp only [Keeps, TransformOp.perform, deleteTransform, assertRuleBelongsToRoute, authorize, requireRouteManage]
    simp only [wp_bind, wp_require, wp_read, wp_modify]
    refine ⟨fun ha => ⟨fun _ => ⟨fun hb => ?_, fun _ => .refl s⟩, fun _ => .refl s⟩, fun _ => .refl s⟩
    rw [Option.any_eq_true] at hb
    obtain ⟨t, ht, hid⟩ := hb
    refine ⟨_, rfl, changes_filter fun k a hk hp => ?_⟩
    obtain rfl : k = ruleId := by simpa using hp
    obtain rfl : t = a := by simpa [ht] using hk
    exact ⟨by simpa using ha, rfl, by simpa using hid⟩

end Perform

end ClusterGate
