import ChangeRules.Action.Kind
import ChangeRules.Condition.Basic
import ChangeRules.Fault
import ChangeRules.Rule
import ChangeRules.Text.Blank
import ChangeRules.Validation.Scalar
import ChangeRules.Value.JsonForm

/-!
# Rule drafts

A draft is what an editor sends to have a rule stored. Its conditions and actions have the right
shape; the parameters of actions are looked at only when they run.

* `RuleDraft.ofValue`: the draft that a payload holds, or every issue against it.
* `RuleDraft.toRule`: the rule of a draft. A rule that watches records names their table.
-/

namespace ChangeRules

/-- An action as it is sent: its parameters are not looked at. -/
structure ActionDraft where
  type : ActionType
  parameters : Fields

/-- A rule as it is sent. -/
structure RuleDraft where
  name : String
  description : Option String
  triggerType : TriggerType
  triggerTable : Option String
  groups : List (List Condition)
  actions : List ActionDraft
  isActive : Bool
  fieldTypes : List (String × String)

namespace RuleDraft

/-! ## Reading -/

def condition : Value → Check Condition :=
  Check.model "ConditionModel" fun fields =>
    .ok Condition.mk
    |> Check.also (Check.required fields ["field"] Check.nonemptyText)
    |> Check.also (Check.required fields ["operator"]
        (Check.named false (Operator.all.map Operator.name) Operator.ofName?))
    |> Check.also (Check.optional fields ["value"] .null .ok)

/-- A group of conditions: an object that may have a list of them. -/
def group : Value → Check (List Condition) :=
  Check.model "ConditionGroupModel" fun fields =>
    Check.optional fields ["conditions"] [] (Check.list condition)

/-- A bare list of conditions is a group too. -/
def wrapGroup : Value → Value
  | .list vs => .object [("conditions", .list vs)]
  | v => v

/-- The groups of a list. -/
def groupList : Value → Check (List (List Condition))
  | .list vs => Check.list group (.list (vs.map wrapGroup))
  | v => Check.list group v

def action : Value → Check ActionDraft :=
  Check.model "ActionSpecModel" fun fields =>
    .ok ActionDraft.mk
    |> Check.also (Check.required fields ["type"]
        (Check.named false ActionType.names ActionType.ofName?))
    |> Check.also (Check.optional fields ["parameters"] [] Check.object)

/-- A table's name without the blanks around it; a name of blanks only is none. -/
def tableName (v : Value) : Check (Option String) :=
  (Check.nullable Check.text v).map fun s =>
    (s.map Text.trim).filter (!·.isEmpty)

/-- The draft that the fields of a payload hold. -/
def ofFields (fields : Fields) : Check RuleDraft :=
  .ok RuleDraft.mk
  |> Check.also (Check.required fields ["name"] Check.nonemptyText)
  |> Check.also (Check.optional fields ["description"] none (Check.nullable Check.text))
  |> Check.also (Check.required fields ["trigger_type"]
      (Check.named false (TriggerType.all.map TriggerType.name) TriggerType.ofName?))
  |> Check.also (Check.optional fields ["trigger_table"] none tableName)
  |> Check.also (Check.optional fields ["trigger_conditions"] [] groupList)
  |> Check.also (Check.optional fields ["actions"] [] (Check.list action))
  |> Check.also (Check.optional fields ["is_active"] true Check.truth)
  |> Check.also (Check.optional fields ["field_types"] [] Check.textObject)

/-- The draft that a payload holds. -/
def ofValue : Value → Check RuleDraft := Check.model "RuleCreateRequest" ofFields

/-! ## Storing -/

/-- A condition as it is stored. -/
def storedCondition (c : Condition) : Value :=
  .object [("field", .text c.field), ("operator", .text c.operator.name), ("value", c.value.jsonForm)]

/-- A group as it is stored. -/
def storedGroup (cs : List Condition) : Value :=
  .object [("conditions", .list (cs.map storedCondition))]

/-- An action as it is stored. -/
def storedAction (a : ActionDraft) : Value :=
  .object [("type", .text a.type.name), ("parameters", (Value.object a.parameters).jsonForm)]

/-- The rule of a draft for a tenant, with an id and the time of its creation. -/
def toRule (d : RuleDraft) (tenant id : String) (now : DateTime) : Except Fault Rule :=
  if d.triggerType ≠ .timeBased ∧ d.triggerTable = none then .error (.misuse .tableRequired)
  else .ok {
    id := .text id
    tenant := .text tenant
    name := .text d.name
    triggerType := .text d.triggerType.name
    triggerTable := Value.ofText? d.triggerTable
    conditions := .list (d.groups.map storedGroup)
    actions := .list (d.actions.map storedAction)
    description := Value.ofText? d.description
    isActive := .bool d.isActive
    lastExecuted := none
    createdAt := now
    fieldTypes := .object (d.fieldTypes.map fun t => (t.1, .text t.2)) }

theorem toRule_eq_error_iff {d : RuleDraft} {tenant id : String} {now : DateTime} {f : Fault} :
    d.toRule tenant id now = .error f ↔
      f = .misuse .tableRequired ∧ d.triggerType ≠ .timeBased ∧ d.triggerTable = none := by
  unfold toRule
  split <;> simp_all [eq_comm]

end RuleDraft

end ChangeRules
