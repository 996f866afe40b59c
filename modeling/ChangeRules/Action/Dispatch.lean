import ChangeRules.Action.Context
import ChangeRules.Action.Spec
import ChangeRules.Action.Template
import ChangeRules.Condition.Evaluation
import ChangeRules.Sink.Outlets

/-!
# Dispatching actions

The actions of a rule run in their order, each within a time limit, and the first one that fails
ends the run. What earlier actions did stays done. The limit ends the action whose sink never answers;
the seconds that answers and waits between retries take pass on the clock and are not held against it.

* `Attempt.prepare`: an action made ready, its placeholders filled in and its parameters checked.
* `Attempt.perform`: what an action does.
* `dispatch`: a row of actions.
* **`dispatchFrom_cons_of_failed`**, **`dispatchFrom_cons_of_success`**: the first action decides
  whether the others run.
-/

namespace ChangeRules

/-- The result of an action. -/
structure ActionResult where
  /-- The place of the action in its rule. -/
  index : Nat
  type : String
  parameters : Fields
  outcome : Except RuleError Value
  milliseconds : Double

namespace ActionResult

def isSuccess (r : ActionResult) : Bool := r.outcome.isOk

/-- The error of an action that failed. -/
def error? (r : ActionResult) : Option RuleError :=
  match r.outcome with
  | .ok _ => none
  | .error e => some e

/-- A result as a value. -/
def toValue (r : ActionResult) : Value :=
  .object [("index", .int r.index), ("type", .text r.type), ("parameters", .object r.parameters),
    ("success", .bool r.isSuccess), ("result", r.outcome.toOption.getD .null),
    ("error", Value.ofText? (r.error?.map (·.message))),
    ("error_code", Value.ofText? (r.error?.map (·.code))),
    ("duration_ms", .double (r.milliseconds.roundPlaces 3))]

end ActionResult

/-! ## One action -/

/-- An action under way. -/
structure Attempt where
  index : Nat
  type : String
  parameters : Fields
  action : Except RuleError Action
  /-- The clock when it was begun. -/
  started : Double

/-- A fault of parameters that only the record of the event shows. -/
def invalidAction {α : Type} (message : String) (details : Fields) : Except Fault α :=
  .error (.error (.action .actionValidation message none none details))

namespace EmailParameters

/-- Whom an email goes to. -/
def resolve (p : EmailParameters) (record : Value) : Except Fault String :=
  match p.recipient, p.recipientField with
  | some recipient, _ => .ok recipient
  | none, none => invalidAction "Recipient field None is empty on the record" [("send_to_field", .null)]
  | none, some field => do
    let v ← recordField record field
    let recipient := Text.trim v.display
    if v.isNull || recipient.isEmpty then
      invalidAction ("Recipient field " ++ Text.quoted field ++ " is empty on the record")
        [("send_to_field", .text field)]
    else .ok recipient

end EmailParameters

namespace UpdateParameters

/-- The fields to set; the one that is named comes last. -/
def resolve (p : UpdateParameters) (record : Value) : Except Fault Fields :=
  match p.setField with
  | none => .ok p.fields
  | some field => do
    let v ← match p.source with
      | .given => .ok p.value
      | .sameAs => recordField record (p.value.text?.getD "")
    .ok (p.fields.set field v)

end UpdateParameters

namespace TaskParameters

/-- The fields of a new task. -/
def resolve (p : TaskParameters) (record : Value) : Except Fault Fields :=
  match p.assigneeField with
  | none => .ok [("title", .text p.title)]
  | some field => do
    let v ← recordField record field
    .ok [("title", .text p.title), ("assigned_to", v)]

end TaskParameters

namespace ActionContext

/-- What a request to any address carries unless the action says otherwise. -/
def payload (c : ActionContext) : Fields :=
  [("tenant_id", c.tenant), ("rule_id", c.ruleId), ("event_id", c.eventId), ("table", c.table),
    ("record_id", c.recordId), ("before", c.before), ("after", c.after)]

end ActionContext

namespace Action

open Outlets

/-- Read something off the record first, then reach a service. -/
def after {α : Type} (read : Except Fault α) (service : α → Service Value) : Service Value := fun o =>
  match read with
  | .ok a => service a o
  | .error f => (.error f, o)

/-- A service whose result is put into a value. -/
def giving {α : Type} (service : Service α) (result : α → Value) : Service Value := fun o =>
  let (outcome, o) := service o
  (outcome.map result, o)

/-- The value that names a table or a record: its own text, or else that of the event. -/
def nameOr (name : Option String) (default : Value) : Value := (name.map Value.text).getD default

def performEmail (p : EmailParameters) (c : ActionContext) : Service Value :=
  after (p.resolve c.record) fun recipient =>
    giving (enqueue ⟨c.tenant, .text p.template, .text recipient, c.table, c.recordId, c.ruleId⟩)
      fun id => .object [("queue_id", .text id), ("recipient", .text recipient)]

/-- The table, the record and the fields of an update. -/
def updateTarget (p : UpdateParameters) (c : ActionContext) : Except Fault (Value × Value × Fields) :=
  let table := nameOr p.table c.table
  let recordId := nameOr p.recordId c.recordId
  if !table.truthy || !recordId.truthy then
    invalidAction "update_record needs a table and record id and the event has none"
      [("table", table), ("record_id", recordId)]
  else do
    let fields ← p.resolve c.record
    .ok (table, recordId, fields)

def performUpdate (p : UpdateParameters) (c : ActionContext) : Service Value :=
  after (updateTarget p c) fun (table, recordId, fields) =>
    giving (Outlets.update c.tenant table recordId (.object fields)) fun count =>
      .object [("table", table), ("record_id", recordId), ("fields", .object fields),
        ("affected", .int count)]

def performCreate (p : CreateParameters) (c : ActionContext) : Service Value :=
  giving (Outlets.create c.tenant (.text p.table) (.object p.fields)) fun id =>
    .object [("table", .text p.table), ("record_id", .text id)]

def performTask (p : TaskParameters) (c : ActionContext) : Service Value :=
  after (p.resolve c.record) fun fields =>
    giving (Outlets.create c.tenant (.text "tasks") (.object fields)) fun id =>
      .object [("table", .text "tasks"), ("record_id", .text id),
        ("assigned_to", Value.get fields "assigned_to")]

def performWebhook (p : WebhookParameters) (c : ActionContext) : Service Value :=
  giving (deliver p.address p.method.name (.object (p.payload.getD c.payload))
      (.object (headerFields p.headers)))
    fun status => .object [("status_code", .int status)]

/-- What an action does and what comes of it. -/
def perform (c : ActionContext) : Action → Service Value
  | .sendEmail p => performEmail p c
  | .updateRecord p => performUpdate p c
  | .createRecord p => performCreate p c
  | .createTask p => performTask p c
  | .logEvent parameters => fun o => (.ok (.object parameters), o)
  | .webhook p => performWebhook p c

end Action

namespace Attempt

/-- An action made ready: placeholders are filled in, except in what is only shown. -/
def prepare (c : ActionContext) (started : Double) (index : Nat) (stored : Value) : Attempt :=
  let type := Action.storedType stored
  let raw := Action.storedParameters stored
  let parameters :=
    if type = ActionType.logEvent.name then raw else Template.renderFields c.record raw
  { index, type, parameters, started, action := Action.ofValue stored index parameters }

/-- The error that a fault of an action is recorded as. -/
def errorOf (limit : Number) (a : Attempt) (f : Fault) : RuleError :=
  let action (kind : ErrorClass) (message : String) (details : Fields) : RuleError :=
    .action kind message (some a.index) (some a.type) details
  if f.isTimeout then
    action .actionTimeout (a.type ++ " timed out after " ++ briefSeconds limit ++ "s") []
  else match f with
    | .error e =>
      if e.kind.isAction then e.bind (some a.index) (some a.type)
      else if e.kind.isService then
        action .action e.message (Fields.ofPairs (("cause_code", .text e.code) :: e.details))
      else action .action f.describe []
    | f => action .action f.describe []
where
  briefSeconds (limit : Number) : String := (limit.toDouble.toOption.getD .zero).brief

/-- An action performed within a time limit. -/
def perform (c : ActionContext) (action : Action) : Outlets.Service Value := fun o =>
  let (outcome, o) := action.perform c o
  (Fault.withinLimit outcome, o)

/-- The result of an action that is over. -/
def conclude (a : Attempt) (outcome : Except RuleError Value) (now : Double) : ActionResult where
  index := a.index
  type := a.type
  parameters := a.parameters
  outcome := outcome
  milliseconds := (now.sub a.started).mul (.ofInt 1000)

/-- The result of an action that could not be read. -/
def refuse (a : Attempt) (e : RuleError) (now : Double) : ActionResult :=
  a.conclude (.error (e.bind (some a.index) (some a.type))) now

end Attempt

/-! ## A row of actions -/

/-- One action from beginning to end. -/
def runAction (limit : Number) (c : ActionContext) (index : Nat) (stored : Value) (o : Outlets) :
    ActionResult × Outlets :=
  let a := Attempt.prepare c o.network.clock index stored
  match a.action with
  | .error e => (a.refuse e o.network.clock, o)
  | .ok action =>
    let (outcome, o) := Attempt.perform c action o
    (a.conclude (outcome.mapError (a.errorOf limit)) o.network.clock, o)

/-- A row of actions, the first one at place `index`, up to the first one that fails. -/
def dispatchFrom (limit : Number) (c : ActionContext) : (index : Nat) → List Value → Outlets →
    List ActionResult × Outlets
  | _, [], o => ([], o)
  | index, stored :: rest, o =>
    let (result, o) := runAction limit c index stored o
    if result.isSuccess then
      let (results, o) := dispatchFrom limit c (index + 1) rest o
      (result :: results, o)
    else ([result], o)

/-- The actions that a stored value holds. What counts as false holds none; an object and a text hold
their keys and characters, which are no actions. -/
def storedActions (v : Value) : Except Fault (List Value) :=
  if !v.truthy then .ok []
  else match v with
    | .list vs => .ok vs
    | .object fields => .ok (fields.map fun f => .text f.1)
    | .text s => .ok (s.toList.map fun ch => .text (String.singleton ch))
    | v => .error (.misuse (.notIterable v.typeName))

/-- The stored actions of a rule. -/
def dispatch (limit : Number) (c : ActionContext) (actions : Value) (o : Outlets) :
    Except Fault (List ActionResult) × Outlets :=
  match storedActions actions with
  | .ok vs =>
    let (results, o) := dispatchFrom limit c 0 vs o
    (.ok results, o)
  | .error f => (.error f, o)

/-- The first result that is a failure. -/
def failure? (results : List ActionResult) : Option ActionResult :=
  results.find? (!·.isSuccess)

section

variable {limit : Number} {c : ActionContext} {index : Nat} {stored : Value} {rest : List Value}
  {o : Outlets}

theorem dispatchFrom_cons_of_failed (h : (runAction limit c index stored o).1.isSuccess = false) :
    dispatchFrom limit c index (stored :: rest) o =
      ([(runAction limit c index stored o).1], (runAction limit c index stored o).2) := by
  simp [dispatchFrom, h]

theorem dispatchFrom_cons_of_success (h : (runAction limit c index stored o).1.isSuccess = true) :
    dispatchFrom limit c index (stored :: rest) o =
      let later := dispatchFrom limit c (index + 1) rest (runAction limit c index stored o).2
      ((runAction limit c index stored o).1 :: later.1, later.2) := by
  simp [dispatchFrom, h]

end

end ChangeRules
