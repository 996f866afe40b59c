import ChangeRules.Event
import ChangeRules.Rule

/-!
# What actions know

An action knows the event it belongs to: the tenant, the record with its values before and after,
and the rule that fires.

* `ActionContext.ofFiring`: the context of a rule that fires for an event.
* `ActionContext.record`: the values that placeholders and field names refer to.
-/

namespace ChangeRules

/-- What an action knows of its firing. -/
structure ActionContext where
  tenant : Value
  table : Value
  recordId : Value
  before : Value
  after : Value
  ruleId : Value
  eventId : Value

namespace ActionContext

/-- The context of a rule that fires for an event about a record. -/
def ofFiring (r : Rule) (e : Event) (recordId : Option String) : ActionContext where
  tenant := e.tenant
  table := e.table
  recordId := Value.ofText? recordId
  before := e.oldRow
  after := e.newRow
  ruleId := r.id
  eventId := e.id

/-- The values behind the change, or else those before it. -/
def record (c : ActionContext) : Value :=
  if c.after.isNull then c.before.orElse (.object []) else c.after

end ActionContext

end ChangeRules
