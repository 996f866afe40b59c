import ChangeRules.Text.Find
import ChangeRules.Value.Basic

/-!
# Correlation

What is being worked on, so that each entry of a journal can tell: the request, the event with its
tenant, and the rule that fires.

* `Correlation.note`: an entry that tells what is being worked on.
* `noteService`: an entry that tells its service.
-/

namespace ChangeRules

/-- What is being worked on; null where nothing is. -/
structure Correlation where
  request : Value := .null
  tenant : Value := .null
  event : Value := .null
  rule : Value := .null

namespace Correlation

/-- A request begins. -/
def setRequest (id : Value) (c : Correlation) : Correlation := { c with request := id }

/-- An event begins. What counts as false changes nothing. -/
def setEvent (tenant event : Value) (c : Correlation) : Correlation :=
  { c with
    tenant := tenant.orElse c.tenant
    event := event.orElse c.event }

/-- A rule begins to fire, or none does. -/
def setRule (id : Value) (c : Correlation) : Correlation := { c with rule := id }

/-- A field that an entry has unless it tells something else. -/
def noteField (key : String) (v : Value) (entry : Fields) : Fields :=
  if v.truthy then entry.setDefault key v else entry

/-- An entry that tells what is being worked on. Only the request overrides what the entry says. -/
def note (c : Correlation) (entry : Fields) : Fields :=
  let entry := if c.request.truthy then entry.set "request_id" c.request else entry
  noteField "rule_id" c.rule (noteField "event_id" c.event (noteField "tenant_id" c.tenant entry))

theorem note_nothing (entry : Fields) : note {} entry = entry := by
  simp [note, noteField, Value.truthy]

end Correlation

/-- An entry that tells its service, which is the front of its writer's name. -/
def noteService (entry : Fields) : Fields :=
  match Value.get entry "logger" with
  | .text name =>
    match Text.pieces '.' name with
    | service :: _ :: _ => entry.set "service" (.text service)
    | _ => entry
  | _ => entry

end ChangeRules
