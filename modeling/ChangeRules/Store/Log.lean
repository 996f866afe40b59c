import ChangeRules.Text.Case
import ChangeRules.Text.Find
import ChangeRules.Fault
import ChangeRules.Value.Equal

/-!
# Execution logs

One log is written for each firing of a rule, and is never changed. Whoever reads logs may ask for
those of a rule or of a table, for the successful or the failed ones, and for a text that occurs in
them.

* `LogFilter.accepts`: whether a log is asked for.
* **`LogFilter.accepts_of_open`**: a filter that asks for nothing accepts every log.
-/

namespace ChangeRules

/-- A log of one firing. What is stored of it is kept as it is. -/
structure ExecutionLog where
  id : Value
  ruleId : Value
  tenant : Value
  trigger : Value
  table : Value
  recordId : Value
  before : Value
  after : Value
  details : Value
  success : Value
  error : Value
  milliseconds : Value
  executedAt : DateTime
  deriving Inhabited

/-- A log as a value. -/
def ExecutionLog.toValue (l : ExecutionLog) : Value :=
  .object [("id", l.id), ("business_rule_id", l.ruleId), ("school_id", l.tenant),
    ("trigger_event", l.trigger), ("target_table", l.table), ("target_record_id", l.recordId),
    ("before_values", l.before), ("after_values", l.after), ("action_details", l.details),
    ("success", l.success), ("error_message", l.error), ("execution_time_ms", l.milliseconds),
    ("executed_at", .text l.executedAt.text)]

/-! ## Filters -/

/-- What is asked for. What counts as false asks for nothing, except that `success` does so only when
it is null. -/
structure LogFilter where
  ruleId : Value := .null
  table : Value := .null
  success : Value := .null
  search : Value := .null
  limit : Int := 100
  offset : Int := 0

namespace LogFilter

/-- A value in small letters; only texts have them. -/
def lowered : Value → Except Fault String
  | .text s => .ok (Text.lower s)
  | v => .error (.misuse (.noMember v.typeName "lower"))

/-- The types of the actions that a list holds; what is no object is passed over. -/
def actionTypes : List Value → List Value
  | [] => []
  | .object fields :: vs =>
    .text ((Fields.get? fields "type").getD (.text "")).display :: actionTypes vs
  | _ :: vs => actionTypes vs

/-- The types of the actions that the details of a log tell of. -/
def loggedTypes : Value → Except Fault (List Value)
  | .object fields =>
    match (Fields.get? fields "actions").getD (.list []) with
    | .list vs => .ok (actionTypes vs)
    | .object _ => .ok []
    | .text _ => .ok []
    | v => .error (.misuse (.notIterable v.typeName))
  | v => .error (.misuse (.noMember v.typeName "get"))

/-- Whether a text occurs in one of several values, capital and small letters being the same. -/
def occursIn (needle : String) : List Value → Except Fault Bool
  | [] => .ok false
  | v :: vs => do
    let s ← lowered v
    if Text.contains s needle then .ok true else occursIn needle vs

/-- Whether a log holds the text that is searched for. -/
def finds (search : Value) (l : ExecutionLog) : Except Fault Bool := do
  let needle ← lowered search
  let types ← loggedTypes l.details
  occursIn needle ([l.table.orElse (.text ""), l.trigger, l.error.orElse (.text "")] ++ types)

/-- Whether a log is asked for. -/
def accepts (f : LogFilter) (l : ExecutionLog) : Except Fault Bool :=
  if f.ruleId.truthy && !l.ruleId.same f.ruleId then .ok false
  else if f.table.truthy && !l.table.same f.table then .ok false
  else if !f.success.isNull && !l.success.same f.success then .ok false
  else if f.search.truthy then finds f.search l
  else .ok true

theorem accepts_of_open {f : LogFilter} (hr : f.ruleId.truthy = false)
    (ht : f.table.truthy = false) (hs : f.success.isNull = true) (hq : f.search.truthy = false)
    (l : ExecutionLog) : f.accepts l = .ok true := by
  simp [accepts, hr, ht, hs, hq]

end LogFilter

end ChangeRules
