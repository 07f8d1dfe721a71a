/-
  ClusterGate.Children.Transforms — a route's transform rules
  (`routes/transforms.router.ts`, with the rows' operations of `transformService.ts`).
-/

import ClusterGate.Children.Targets

namespace ClusterGate

open Lib Lib.Act Lib.Zod

inductive TransformOp
  | create (routeId : String) (body : Json)
  | update (routeId ruleId : String) (body : Json)
  | delete (routeId ruleId : String)

def anyRecord : Leaf := record .ok

def transformTypes : List String :=
  ["SET_HEADER", "REMOVE_HEADER", "REWRITE_BODY_JSON", "SET_QUERY_PARAM", "REMOVE_QUERY_PARAM", "MAP_STATUS_CODE"]

def transformRuleSchema : Shape String := fun field => match field with
  | "phase" => ZodType.leaf (enum ["REQUEST", "RESPONSE"])
  | "type" => ZodType.leaf (enum transformTypes)
  | "name" => textField [minLength 1, maxLength 100]
  | "config" => ZodType.leaf anyRecord
  | "order" => dflt (.num 0) (int 0 none)
  | "isActive" => flagField true
  | "condition" => ZodType.optional (.nullable (.leaf anyRecord))
  | _ => none

def transformRuleFields : List String := ["phase", "type", "name", "config", "order", "isActive", "condition"]

def assertRuleBelongsToRoute (ruleId routeId : String) : Handler Unit := do
  let s ← read
  require ((s.transformRules.get? ruleId).any fun t => t.routeId = routeId) (.notFound "Transform rule")

/-- A rule of a route before its fields. -/
def TransformRule.blank (routeId : String) : TransformRule :=
  { routeId, phase := "", type := "", name := "", config := .null }

/-- A rule with the fields a parsed body gives; a null condition takes it away. -/
def TransformRule.withFields (rule : TransformRule) (data : String → Option Json) : TransformRule where
  routeId := rule.routeId
  phase := (textField? data "phase").getD rule.phase
  type := (textField? data "type").getD rule.type
  name := (textField? data "name").getD rule.name
  config := (data "config").getD rule.config
  order := (intField? data "order").getD rule.order
  isActive := ((data "isActive").map Json.truthy).getD rule.isActive
  condition := match data "condition" with
    | none => rule.condition
    | some .null => none
    | some v => some v

/-- `prisma.transformRule.create`. -/
def createTransformRule (id routeId : String) (data : String → Option Json) : Handler Unit := do
  let s ← read
  require ((intField? data "order").all isInt32) .prismaValidation
  require (s.transformRules.get? id).isNone (.prisma "P2002")
  require (s.routes.get? routeId).isSome (.prisma "P2003")
  modify fun s => { s with transformRules := s.transformRules.insert id ((TransformRule.blank routeId).withFields data) }

/-- `prisma.transformRule.update`. -/
def updateTransformRule (id : String) (data : String → Option Json) : Handler Unit := do
  let s ← read
  require ((intField? data "order").all isInt32) .prismaValidation
  require (s.transformRules.get? id).isSome (.prisma "P2025")
  modify fun s => { s with transformRules := s.transformRules.modify id fun rule => rule.withFields data }

/-- `POST /:routeId/transforms`. -/
def postTransform (u : Caller) (d : Draw) (routeId : String) (body : Json) : Handler Unit := do
  authorize u [.ADMIN, .OPERATOR]
  requireRouteManage u routeId
  let data ← parseBody transformRuleFields transformRuleSchema body
  createTransformRule d.rowId routeId data

/-- `PUT /:routeId/transforms/:ruleId`. -/
def putTransform (u : Caller) (routeId ruleId : String) (body : Json) : Handler Unit := do
  authorize u [.ADMIN, .OPERATOR]
  requireRouteManage u routeId
  let data ← parseBody transformRuleFields (partialUpdate transformRuleSchema) body
  assertRuleBelongsToRoute ruleId routeId
  updateTransformRule ruleId data

/-- `DELETE /:routeId/transforms/:ruleId`. -/
def deleteTransform (u : Caller) (routeId ruleId : String) : Handler Unit := do
  authorize u [.ADMIN]
  requireRouteManage u routeId
  assertRuleBelongsToRoute ruleId routeId
  modify fun s => { s with transformRules := s.transformRules.erase ruleId }

def TransformOp.perform (u : Caller) (d : Draw) : TransformOp → Handler Unit
  | .create routeId body => postTransform u d routeId body
  | .update routeId ruleId body => putTransform u routeId ruleId body
  | .delete routeId ruleId => deleteTransform u routeId ruleId

end ClusterGate
