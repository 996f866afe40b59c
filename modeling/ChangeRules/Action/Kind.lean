/-!
# Kinds of action

* `ActionType`: what an action does.
* **`ActionType.ofName?_name`**: a kind is found by its name.
-/

namespace ChangeRules

/-- The kinds of action. -/
inductive ActionType where
  | sendEmail
  | updateRecord
  | createRecord
  | createTask
  | logEvent
  | webhook
  deriving DecidableEq, Inhabited

namespace ActionType

def all : List ActionType :=
  [.sendEmail, .updateRecord, .createRecord, .createTask, .logEvent, .webhook]

def name : ActionType → String
  | .sendEmail => "send_email"
  | .updateRecord => "update_record"
  | .createRecord => "create_record"
  | .createTask => "create_task"
  | .logEvent => "log_event"
  | .webhook => "webhook"

def ofName? (s : String) : Option ActionType := all.find? (·.name == s)

def names : List String := all.map name

theorem ofName?_name (t : ActionType) : ofName? t.name = some t := by cases t <;> rfl

end ActionType

end ChangeRules
