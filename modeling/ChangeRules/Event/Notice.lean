import ChangeRules.Event
import ChangeRules.Validation.Moment

/-!
# Change notices

A notice is a change event as its source delivers it, before it is checked.

* `EventNotice.ofValue`: the notice that a payload holds, or every issue against it.
* `EventNotice.toEvent`: the event of a notice. What it leaves open is the present time and a new id.
-/

namespace ChangeRules

/-- A change event as it is delivered. -/
structure EventNotice where
  table : Option String
  operation : EventOperation
  tenant : String
  oldRow : Option Fields
  newRow : Option Fields
  occurredAt : Option DateTime
  id : Option String

namespace EventNotice

/-- The notice that the fields of a payload hold. Most fields have two names. -/
def ofFields (fields : Fields) : Check EventNotice :=
  let row := Check.nullable Check.object
  .ok EventNotice.mk
  |> Check.also (Check.optional fields ["table"] none (Check.nullable Check.text))
  |> Check.also (Check.required fields ["operation"]
      (Check.named false (EventOperation.all.map EventOperation.name) EventOperation.ofName?))
  |> Check.also (Check.required fields ["tenantId", "tenant_id"] Check.nonemptyText)
  |> Check.also (Check.optional fields ["oldRow", "old_row"] none row)
  |> Check.also (Check.optional fields ["newRow", "new_row"] none row)
  |> Check.also (Check.optional fields ["occurredAt", "occurred_at"] none
      (Check.nullable Check.moment))
  |> Check.also (Check.optional fields ["eventId", "event_id"] none (Check.nullable Check.text))

/-- The notice that a payload holds. -/
def ofValue : Value → Check EventNotice := Check.model "ChangeEventRequest" ofFields

/-- A row of a notice as a value. -/
def rowValue (row : Option Fields) : Value := (row.map Value.object).getD .null

/-- The event of a notice, given the present time and a new id. -/
def toEvent (n : EventNotice) (now : DateTime) (newId : String) : Event where
  table := Value.ofText? n.table
  operation := .text n.operation.name
  tenant := .text n.tenant
  oldRow := rowValue n.oldRow
  newRow := rowValue n.newRow
  id := .text ((n.id.filter (!·.isEmpty)).getD newId)
  occurredAt := n.occurredAt.getD now

end EventNotice

end ChangeRules
