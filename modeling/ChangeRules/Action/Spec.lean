import ChangeRules.Action.Kind
import ChangeRules.Fault
import ChangeRules.Text.Case
import ChangeRules.Validation.Scalar

/-!
# Actions

What a rule does when it fires. Stored actions have a type and parameters of any shape; they are
checked when they run. Names in parameters come without the blanks around them, and numbers may
stand for texts.

* `Action.ofParameters`: the action of a kind that parameters describe, or every issue against them.
* `Action.ofValue`: the action that a stored value describes.
* `Action.parameters`: the parameters of an action, those left out filled in.
-/

namespace ChangeRules

/-- What is done in a request. -/
inductive Method where
  | get
  | post
  | put
  | patch
  deriving DecidableEq, Inhabited

namespace Method

def all : List Method := [.get, .post, .put, .patch]

def name : Method → String
  | .get => "GET"
  | .post => "POST"
  | .put => "PUT"
  | .patch => "PATCH"

def ofName? (s : String) : Option Method := all.find? (·.name == s)

theorem ofName?_name (m : Method) : ofName? m.name = some m := by cases m <;> rfl

end Method

/-- Where the value of a field to set comes from. -/
inductive ValueSource where
  /-- The value that the action holds. -/
  | given
  /-- The field of the record that the action names. -/
  | sameAs
  deriving DecidableEq, Inhabited

namespace ValueSource

def name : ValueSource → String
  | .given => "to"
  | .sameAs => "same_as"

def ofName? (s : String) : Option ValueSource := [given, sameAs].find? (·.name == s)

end ValueSource

/-- Queue an email to a recipient, or to the one that a field of the record holds. -/
structure EmailParameters where
  template : String
  recipient : Option String
  recipientField : Option String

/-- Set fields of a record; left open, it is the record of the event. -/
structure UpdateParameters where
  table : Option String
  recordId : Option String
  fields : Fields
  setField : Option String
  source : ValueSource
  value : Value

/-- Insert a record. -/
structure CreateParameters where
  table : String
  fields : Fields

/-- Insert a task, assigned to whom a field of the record names. -/
structure TaskParameters where
  title : String
  assigneeField : Option String

/-- Send a request to an address. -/
structure WebhookParameters where
  address : String
  method : Method
  headers : List (String × String)
  payload : Option Fields

/-- What a rule does when it fires. -/
inductive Action where
  | sendEmail (p : EmailParameters)
  | updateRecord (p : UpdateParameters)
  | createRecord (p : CreateParameters)
  | createTask (p : TaskParameters)
  /-- Show the parameters. -/
  | logEvent (parameters : Fields)
  | webhook (p : WebhookParameters)

namespace Action

def kind : Action → ActionType
  | .sendEmail _ => .sendEmail
  | .updateRecord _ => .updateRecord
  | .createRecord _ => .createRecord
  | .createTask _ => .createTask
  | .logEvent _ => .logEvent
  | .webhook _ => .webhook

/-! ## Reading parameters -/

/-- Texts without the blanks around them, numbers as texts; a text of blanks only is null. -/
def tidy : Value → Value
  | .int n => .text (toString n)
  | .double x => .text x.text
  | .text s =>
    let body := Text.trim s
    if body.isEmpty then .null else .text body
  | v => v

/-- A tidy text with at least one character. -/
def tidyText (v : Value) : Check String := Check.nonemptyText (tidy v)

/-- A tidy text or null. -/
def tidyOption (v : Value) : Check (Option String) := Check.nullable Check.text (tidy v)

/-- A model whose parts are checked together once each of them is right. -/
def refuseUnless {α : Type} (c : Check α) (refusal : α → Option String) : Check α :=
  match c with
  | .ok a =>
    match refusal a with
    | some reason => Check.fail (.refused reason)
    | none => .ok a
  | .error issues => .error issues

def email (fields : Fields) : Check EmailParameters :=
  refuseUnless
    (.ok EmailParameters.mk
      |> Check.also (Check.required fields ["template_id", "templateId", "email_template"] tidyText)
      |> Check.also (Check.optional fields ["recipient", "custom_email", "to"] none tidyOption)
      |> Check.also (Check.optional fields ["send_to_field", "sendToField"] none tidyOption))
    fun p =>
      if p.recipient.isNone && p.recipientField.isNone then
        some "send_email needs a recipient or a send_to_field"
      else none

def source : Value → Check ValueSource :=
  Check.named true ["to", "same_as"] ValueSource.ofName?

/-- What is wrong with an update whose parts are right. -/
def updateRefusal (p : UpdateParameters) : Option String :=
  if p.fields.isEmpty && p.setField.isNone then
    some "update_record needs a fields map or a set_field"
  else if p.source = .sameAs && !(p.value.text?.any (!·.isEmpty)) then
    some "update_record with action_type 'same_as' needs the source field name as value"
  else none

def update (fields : Fields) : Check UpdateParameters :=
  refuseUnless
    (.ok UpdateParameters.mk
      |> Check.also (Check.optional fields ["table"] none tidyOption)
      |> Check.also (Check.optional fields ["record_id", "recordId"] none tidyOption)
      |> Check.also (Check.optional fields ["fields"] [] Check.object)
      |> Check.also (Check.optional fields ["set_field", "setField"] none tidyOption)
      |> Check.also (Check.optional fields ["action_type", "actionType"] .given source)
      |> Check.also (Check.optional fields ["value"] .null .ok))
    updateRefusal

/-- An object with at least one field. -/
def nonemptyObject (v : Value) : Check Fields := do
  let fields ← Check.object v
  if fields.isEmpty then Check.fail .emptyObject else .ok fields

def create (fields : Fields) : Check CreateParameters :=
  .ok CreateParameters.mk
  |> Check.also (Check.required fields ["table"] Check.nonemptyText)
  |> Check.also (Check.required fields ["fields"] nonemptyObject)

def task (fields : Fields) : Check TaskParameters :=
  .ok TaskParameters.mk
  |> Check.also (Check.required fields ["title"] tidyText)
  |> Check.also (Check.optional fields ["assign_to_field", "assignToField"] none tidyOption)

/-- An address that requests can be sent to. -/
def address (v : Value) : Check String := do
  let s ← Check.nonemptyText v
  if Text.startsWith s "http://" || Text.startsWith s "https://" then .ok s
  else Check.fail (.refused "webhook url must be http(s)")

/-- A method in small or capital letters. -/
def method (v : Value) : Check Method :=
  Check.named true (Method.all.map Method.name) (fun s => Method.ofName? (Text.upper s)) v

def webhookParameters (fields : Fields) : Check WebhookParameters :=
  .ok WebhookParameters.mk
  |> Check.also (Check.required fields ["url"] address)
  |> Check.also (Check.optional fields ["method"] .post method)
  |> Check.also (Check.optional fields ["headers"] [] Check.textObject)
  |> Check.also (Check.optional fields ["payload"] none (Check.nullable Check.object))

/-- The action of a kind that parameters describe. -/
def ofParameters (kind : ActionType) (fields : Fields) : Check Action :=
  match kind with
  | .sendEmail => (email fields).map .sendEmail
  | .updateRecord => (update fields).map .updateRecord
  | .createRecord => (create fields).map .createRecord
  | .createTask => (task fields).map .createTask
  | .logEvent => .ok (.logEvent fields)
  | .webhook => (webhookParameters fields).map .webhook

/-- The action that a type and parameters describe; issues are found below the type. -/
def ofTyped (type : Value) (fields : Fields) : Check Action :=
  match type.text?.bind ActionType.ofName? with
  | some kind =>
    Check.under (.field kind.name) (Check.under (.field "parameters") (ofParameters kind fields))
  | none => Check.fail (.unknownTag type.display ActionType.names)

/-! ## Stored actions -/

/-- The stored parameters of an action; none if they are no object. -/
def storedParameters : Value → Fields
  | .object fields =>
    match Value.get fields "parameters" with
    | .object parameters => parameters
    | _ => []
  | _ => []

/-- The stored type of an action, as results show it. -/
def storedType : Value → String
  | .object fields =>
    match Value.get fields "type" with
    | .null => "unknown"
    | v => v.display
  | _ => "unknown"

/-- The action that a stored value describes, with other parameters in place of its own. `index` is
the place of the action in its rule. -/
def ofValue (stored : Value) (index : Int) (parameters : Fields) : Except RuleError Action :=
  let refuse (message : String) (details : Fields) : Except RuleError Action :=
    .error (.action .actionValidation message (some index) (some (storedType stored)) details)
  match stored with
  | .object fields =>
    match ofTyped (Value.get fields "type") parameters with
    | .ok action => .ok action
    | .error issues =>
      refuse ("Invalid " ++ storedType stored ++ " action: " ++
          "; ".intercalate (issues.map Issue.summary))
        [("errors", .list (issues.map Issue.toValue))]
  | _ => refuse "Action must be an object with type and parameters" []

/-! ## Showing parameters -/

def headerFields (headers : List (String × String)) : Fields := headers.map fun h => (h.1, .text h.2)

/-- The parameters of an action, those left out filled in. -/
def parameters : Action → Fields
  | .sendEmail p =>
    [("template_id", .text p.template), ("recipient", Value.ofText? p.recipient),
      ("send_to_field", Value.ofText? p.recipientField)]
  | .updateRecord p =>
    [("table", Value.ofText? p.table), ("record_id", Value.ofText? p.recordId),
      ("fields", .object p.fields), ("set_field", Value.ofText? p.setField),
      ("action_type", .text p.source.name), ("value", p.value)]
  | .createRecord p => [("table", .text p.table), ("fields", .object p.fields)]
  | .createTask p =>
    [("title", .text p.title), ("assign_to_field", Value.ofText? p.assigneeField)]
  | .logEvent parameters => parameters
  | .webhook p =>
    [("url", .text p.address), ("method", .text p.method.name),
      ("headers", .object (headerFields p.headers)),
      ("payload", (p.payload.map Value.object).getD .null)]

end Action

end ChangeRules
