import ChangeRules.Value.Text

/-!
# Rules

A rule belongs to one tenant. It watches one kind of change of one table, and has conditions and
actions. What is stored of it is kept as it is and read only when the rule is matched or run, so a
malformed rule can be loaded beside the others.

* `TriggerType`: the kinds of change.
* `Rule.comesBefore`: the order in which rules fire, by creation and then by id.
* **`Rule.comesBefore_total`**: of two rules, one comes before the other or they tie.
-/

namespace ChangeRules

/-- The kinds of change that a rule can watch. -/
inductive TriggerType where
  | recordCreated
  | recordUpdated
  | recordDeleted
  | timeBased
  deriving DecidableEq, Inhabited

namespace TriggerType

def all : List TriggerType := [.recordCreated, .recordUpdated, .recordDeleted, .timeBased]

def name : TriggerType → String
  | .recordCreated => "record_created"
  | .recordUpdated => "record_updated"
  | .recordDeleted => "record_deleted"
  | .timeBased => "time_based"

def ofName? (s : String) : Option TriggerType := all.find? (·.name == s)

/-- The kind that a stored value names. -/
def ofValue? : Value → Option TriggerType
  | .text s => ofName? s
  | _ => none

theorem ofName?_name (t : TriggerType) : ofName? t.name = some t := by cases t <;> rfl

end TriggerType

/-- A stored rule. -/
structure Rule where
  id : Value
  tenant : Value
  name : Value
  triggerType : Value
  triggerTable : Value
  conditions : Value
  actions : Value
  description : Value
  isActive : Value
  lastExecuted : Option DateTime
  createdAt : DateTime
  /-- Column types of the watched table. -/
  fieldTypes : Value
  deriving Inhabited

namespace Rule

/-- Whether a rule comes no later than another one: by creation, then by the text of the id. -/
def comesBefore (r s : Rule) : Bool :=
  if r.createdAt.instant = s.createdAt.instant then r.id.display ≤ s.id.display
  else r.createdAt.instant < s.createdAt.instant

/-- Rules in firing order; rules that tie keep their order. -/
def inOrder (rules : List Rule) : List Rule := rules.mergeSort comesBefore

theorem comesBefore_total (r s : Rule) : r.comesBefore s = true ∨ s.comesBefore r = true := by
  unfold comesBefore
  by_cases h : r.createdAt.instant = s.createdAt.instant
  · simp only [h, if_true, decide_eq_true_eq]
    exact String.le_total _ _
  · simp only [h, Ne.symm h, if_false, decide_eq_true_eq]
    omega

/-- A rule as a value, both times as texts. -/
def toValue (r : Rule) : Value :=
  .object [("id", r.id), ("school_id", r.tenant), ("name", r.name),
    ("trigger_type", r.triggerType), ("trigger_table", r.triggerTable),
    ("trigger_conditions", r.conditions), ("actions", r.actions),
    ("description", r.description), ("is_active", r.isActive),
    ("last_executed", Value.ofText? (r.lastExecuted.map DateTime.text)),
    ("created_at", .text r.createdAt.text), ("field_types", r.fieldTypes)]

end Rule

end ChangeRules
