import ChangeRules.Action.Dispatch
import ChangeRules.Event
import ChangeRules.Store.Log

/-!
# What comes of a firing

A firing ends when its actions were run, or when they could not be run at all. Its log tells the
whole story and its report the essentials.

* `Ending`: the ways in which a firing ends.
* `Ending.details`, `Ending.error?`: what the log tells of it.
* `EventReport`: what the firings of one event came to.
* **`Ending.error?_eq_none_iff`**: a firing has no error exactly when it succeeded.
-/

namespace ChangeRules

/-- The states in which a firing ends. -/
inductive FiringState where
  | completed
  | failed
  deriving DecidableEq, Inhabited

def FiringState.name : FiringState → String
  | .completed => "COMPLETED"
  | .failed => "FAILED"

/-- The stages at which a firing can fail. -/
inductive FiringStage where
  | conditions
  | actions
  deriving DecidableEq

def FiringStage.name : FiringStage → String
  | .conditions => "CONDITIONS_EVALUATED"
  | .actions => "ACTIONS_DISPATCHED"

/-- How a firing ends. -/
inductive Ending where
  /-- The rule could not be judged. -/
  | unjudged (e : RuleError)
  /-- Actions were run, up to the first one that failed. -/
  | ran (results : List ActionResult)
  /-- Something kept the actions from being run. -/
  | broke (f : Fault)

namespace Ending

/-- The results of the actions that were run. -/
def results : Ending → List ActionResult
  | .ran results => results
  | _ => []

/-- The action that failed. -/
def failure? (e : Ending) : Option ActionResult := ChangeRules.failure? e.results

/-- What a failed action is reported as. -/
def actionError (r : ActionResult) : String :=
  "action[" ++ toString r.index ++ "] " ++ r.type ++ ": " ++
    ((r.error?.map (·.message)).getD (Value.display .null))

/-- What went wrong. -/
def error? : Ending → Option String
  | .unjudged e => some (e.code ++ ": " ++ e.message)
  | .ran results => (ChangeRules.failure? results).map actionError
  | .broke f => some f.describe

def isSuccess (e : Ending) : Bool := e.error?.isNone

theorem error?_eq_none_iff {e : Ending} : e.error? = none ↔ e.isSuccess = true := by
  simp [isSuccess]

def state (e : Ending) : FiringState := if e.isSuccess then .completed else .failed

/-- The stage at which the firing failed. -/
def failedStage? (e : Ending) : Option FiringStage :=
  match e with
  | .unjudged _ => some .conditions
  | e => if e.isSuccess then none else some .actions

/-- The code of what went wrong and what else is told about it. -/
def errorFields : Ending → Fields
  | .unjudged e => [("error_code", .text e.code), ("error_details", .object e.details)]
  | .ran results =>
    match (ChangeRules.failure? results).bind ActionResult.error? with
    | some e => [("error_code", .text e.code)]
    | none => []
  | .broke _ => []

/-- The details of the log. -/
def details (eventId : Value) (e : Ending) : Fields :=
  [("state", .text e.state.name),
    ("failed_stage", Value.ofText? (e.failedStage?.map FiringStage.name)),
    ("failed_action_index", (e.failure?.map fun r => Value.int r.index).getD .null),
    ("event_id", eventId),
    ("actions", .list (e.results.map ActionResult.toValue))] ++
  e.errorFields ++
  (match e.error? with
    | some error => [("error", .text error)]
    | none => [])

end Ending

/-! ## Reports -/

/-- What a firing came to. -/
structure FiringReport where
  ruleId : Value
  state : FiringState
  logId : Value
  error : Value
  deriving Inhabited

def FiringReport.toValue (r : FiringReport) : Value :=
  .object [("rule_id", r.ruleId), ("state", .text r.state.name), ("log_id", r.logId),
    ("error_message", r.error)]

/-- What an event came to. -/
structure EventReport where
  eventId : Value
  tenant : Value
  /-- So many rules were looked at. -/
  considered : Nat
  firings : List FiringReport

/-- The rules that fired. -/
def EventReport.ruleIds (r : EventReport) : List Value := r.firings.map (·.ruleId)

def EventReport.toValue (r : EventReport) : Value :=
  .object [("event_id", r.eventId), ("tenant_id", r.tenant),
    ("rules_considered", .int r.considered),
    ("firings", .list (r.firings.map FiringReport.toValue))]

end ChangeRules
