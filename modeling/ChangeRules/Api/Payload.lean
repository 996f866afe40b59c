import ChangeRules.Api.Refusal
import ChangeRules.Api.Request
import ChangeRules.Event.Notice
import ChangeRules.Json.Reader
import ChangeRules.Rule.Draft
import ChangeRules.Store.Log

/-!
# Payloads

What a request carries, in its body or in its arguments, is checked before anything else happens.
Every complaint names the place, which begins with the part of the request.

* `Api.Payload.ofBody`: what the body holds.
* `Api.Payload.notice`, `Api.Payload.draft`: an event, and a rule.
* `Api.Payload.logFilter`: which logs are asked for.
-/

namespace ChangeRules.Api

namespace Payload

/-! ## Complaints -/

/-- The value at the end of a path, as far as the path leads. -/
def valueAt : Value → List Step → Value
  | v, [] => v
  | .object fields, .field name :: path => valueAt (Value.get fields name) path
  | .list items, .item index :: path => valueAt ((items[index]?).getD .null) path
  | v, _ :: path => valueAt v path

/-- The value that an issue was found with; something that is missing is missing from an object. -/
def inputOf (payload : Value) (i : Issue) : Value :=
  valueAt payload (if i.flaw = .missing then i.path.dropLast else i.path)

/-- What is no object has no fields, whatever the fields are for. -/
def flawOf : Flaw → Flaw
  | .noModel _ => .noFields
  | flaw => flaw

/-- An issue of a payload in a part of a request. -/
def complaint (part : String) (payload : Value) (i : Issue) : Complaint :=
  ⟨⟨.field part :: i.path, flawOf i.flaw⟩, inputOf payload i⟩

/-- A payload in a part of a request that is checked. -/
def checked {α : Type} (part : String) (check : Value → Check α) (payload : Value) :
    Except Refusal α :=
  (check payload).mapError fun issues => .invalid (issues.map (complaint part payload))

theorem checked_eq_ok {α : Type} {part : String} {check : Value → Check α} {payload : Value}
    {a : α} : checked part check payload = .ok a ↔ check payload = .ok a := by
  unfold checked
  cases check payload with
  | error issues =>
    exact ⟨fun (h : @Except.error Refusal α _ = .ok a) => (nomatch h), fun h => (nomatch h)⟩
  | ok b => exact ⟨fun h => congrArg _ (Except.ok.inj h), fun h => congrArg _ (Except.ok.inj h)⟩

/-! ## Bodies -/

/-- A complaint about the body as a whole. -/
def bodyComplaint (path : List Step) (flaw : Flaw) (input : Value) : Refusal :=
  .invalid [⟨⟨.field "body" :: path, flaw⟩, input⟩]

/-- What the body holds. One that is not declared to be JSON is a text. -/
def ofBody (r : Request) : Except Refusal Value :=
  if r.body.isEmpty then .error (bodyComplaint [] .missing .null)
  else if r.isJson then
    match Json.readBytes r.body with
    | none => .error .unreadableBody
    | some (.ok v) => .ok v
    | some (.error e) =>
      if e.flaw = .oversizedInteger then .error .unreadableBody
      else .error (bodyComplaint [.item e.position] .notJson (.object []))
  else .ok (.text (String.ofList (Text.decodeLossy r.body)))

/-- The event that the body tells of. -/
def notice (r : Request) : Except Refusal EventNotice := do
  checked "body" EventNotice.ofValue (← ofBody r)

/-- The rule that the body drafts. -/
def draft (r : Request) : Except Refusal RuleDraft := do
  checked "body" RuleDraft.ofValue (← ofBody r)

/-! ## Arguments -/

/-- The statuses of logs. -/
def statuses : List (String × Bool) := [("success", true), ("failed", false)]

/-- Whether logs of successes are asked for, or of failures. -/
def status (v : Value) : Check Value := do
  let s ← Check.text v
  match statuses.lookup s with
  | some success => .ok (.bool success)
  | none => Check.fail (.patternMismatch "^(success|failed)$")

/-- How many logs are asked for at once. -/
def limit (v : Value) : Check Int := do
  let n ← Check.atLeast 1 (← Check.integer v)
  Check.atMost 1000 n

/-- How many logs are passed over. -/
def offset (v : Value) : Check Int := do
  Check.atLeast 0 (← Check.integer v)

/-- A text among arguments. -/
def text (v : Value) : Check Value := (Check.text v).map Value.text

/-- The filter that arguments describe. -/
def filterOf : Value → Check LogFilter :=
  Check.model "" fun arguments =>
    .ok LogFilter.mk
    |> Check.also (Check.optional arguments ["rule_id"] .null text)
    |> Check.also (Check.optional arguments ["table"] .null text)
    |> Check.also (Check.optional arguments ["status"] .null status)
    |> Check.also (Check.optional arguments ["search"] .null text)
    |> Check.also (Check.optional arguments ["limit"] 100 limit)
    |> Check.also (Check.optional arguments ["offset"] 0 offset)

/-- Which logs are asked for. -/
def logFilter (r : Request) : Except Refusal LogFilter :=
  checked "query" filterOf (.object r.arguments)

/-- The rule that is asked for, if one is. -/
def ruleId (r : Request) : Value := Value.get r.arguments "rule_id"

end Payload

end ChangeRules.Api
