import ChangeRules.Number.Reading
import ChangeRules.Store.Fault
import ChangeRules.Store.Logs
import ChangeRules.Rule
import ChangeRules.Value.Number
import ChangeRules.Value.Text

/-!
# Stores in a database

Rules and logs can also be kept in a database. Each call of a store makes one statement with its
arguments; rows come back and become rules and logs. A column that holds nothing usable where a list
or an object belongs is read as an empty one. What a statement does in the database is out of scope, as
are its connections: the answers are given.

* `Database.run`: one statement, within a time limit.
* `Database.listActive` and its like: the calls of the stores.
* **`Database.run_of_idle`**: a database that was not started is never asked.
-/

namespace ChangeRules

/-! ## Statements -/

/-- What a statement asks for. -/
inductive StatementKind where
  /-- All rows that there are. -/
  | rows
  /-- The first row, if there is one. -/
  | row
  /-- A change. -/
  | change
  deriving DecidableEq

/-- A statement's arguments, in their order. -/
structure Statement where
  kind : StatementKind
  arguments : List Value

/-- A database, and what it was asked. -/
structure Database where
  /-- What comes of a statement behind others. -/
  answer : List Statement → Statement → Except Fault Value
  started : Bool := true
  /-- So many seconds a statement may take. -/
  limit : Double := .ofInt 5
  asked : List Statement := []

/-! ## Rows -/

namespace Row

/-- A column of a row. -/
def column (row : Value) (name : String) : Except Fault Value :=
  match row with
  | .object fields =>
    match Fields.get? fields name with
    | some v => .ok v
    | none => .error (.misuse (.missingKey name))
  | v => .error (.misuse (.noEntries v.typeName))

/-- A time that may be missing. -/
def time? : Value → Except Fault (Option DateTime)
  | .null => .ok none
  | .time t => .ok (some t)
  | v => .error (.misuse (.noMember v.typeName "isoformat"))

/-- A time that has to be there. -/
def time : Value → Except Fault DateTime
  | .time t => .ok t
  | v => .error (.misuse (.noMember v.typeName "isoformat"))

/-- The rule of a row. -/
def rule (row : Value) : Except Fault Rule := do
  let id ← column row "id"
  let tenant ← column row "school_id"
  let name ← column row "name"
  let description ← column row "description"
  let triggerType ← column row "trigger_type"
  let triggerTable ← column row "trigger_table"
  let conditions ← column row "trigger_conditions"
  let actions ← column row "actions"
  let fieldTypes ← column row "field_types"
  let isActive ← column row "is_active"
  let lastExecuted ← column row "last_executed"
  let createdAt ← column row "created_at"
  .ok {
    id, tenant, name, triggerType, triggerTable, description, isActive
    conditions := conditions.orElse (.list [])
    actions := actions.orElse (.list [])
    fieldTypes := fieldTypes.orElse (.object [])
    lastExecuted := ← time? lastExecuted
    createdAt := ← time createdAt }

/-- The log of a row. -/
def log (row : Value) : Except Fault ExecutionLog := do
  let id ← column row "id"
  let ruleId ← column row "business_rule_id"
  let tenant ← column row "school_id"
  let trigger ← column row "trigger_event"
  let table ← column row "target_table"
  let recordId ← column row "target_record_id"
  let before ← column row "before_values"
  let after ← column row "after_values"
  let details ← column row "action_details"
  let success ← column row "success"
  let error ← column row "error_message"
  let milliseconds ← column row "execution_time_ms"
  let executedAt ← column row "executed_at"
  .ok {
    id, ruleId, tenant, trigger, table, recordId, before, after, success, error, milliseconds
    details := details.orElse (.object [])
    executedAt := ← time executedAt }

/-- The value of a count; what counts as false is none. -/
def countOf? (v : Value) : Option Int :=
  match v.orElse (.int 0) with
  | .int n => some n
  | .bool _ => some 1
  | _ => none

/-- A count of all and one of some of them, which is taken from the first. -/
def counts (total part : Value) : Except Fault (Int × Int) :=
  match countOf? total, countOf? part with
  | some n, some k => .ok (n, k)
  | _, _ =>
    .error (.misuse (.noDifference
      (total.orElse (.int 0)).typeName (part.orElse (.int 0)).typeName))

/-- The double that a column denotes. -/
def double (v : Value) : Except Fault Double :=
  match v.number?, v with
  | some n, _ => n.toDouble.mapError fun flaw => .misuse (.arithmetic flaw)
  | none, .text s =>
    match readDouble? s with
    | some x => .ok x
    | none => .error (.misuse (.doubleLiteral (Text.quoted s)))
  | none, v => .error (.misuse (.doubleArgument v.typeName))

/-- An average with three places; null is none. -/
def average : Value → Except Fault (Option Double)
  | .null => .ok none
  | v => (double v).map fun x => some (x.roundPlaces 3)

/-- The statistics of a row. -/
def stats (row : Value) : Except Fault ExecutionStats := do
  let total ← column row "total"
  let successful ← column row "successful"
  let milliseconds ← column row "average_ms"
  let (total, successful) ← counts total successful
  .ok {
    total, successful
    failed := total - successful
    averageMilliseconds := ← average milliseconds }

/-- What all rows hold. An object and a text are rows of their keys and characters. -/
def all {α : Type} (read : Value → Except Fault α) : Value → Except Fault (List α)
  | .list rows => rows.mapM read
  | .object fields => fields.mapM fun f => read (.text f.1)
  | .text s => s.toList.mapM fun c => read (.text (String.singleton c))
  | v => .error (.misuse (.notIterable v.typeName))

/-- What one row holds, if there is one. -/
def first? {α : Type} (read : Value → Except Fault α) (row : Value) : Except Fault (Option α) :=
  if row.truthy then (read row).map some else .ok none

theorem first?_null {α : Type} {read : Value → Except Fault α} : first? read .null = .ok none := rfl

end Row

namespace Database

variable {α : Type}

/-! ## Running statements -/

/-- A kind of fault that is known nowhere else is one of the database's own. -/
def isOwnKind (kind : String) : Bool :=
  Text.endsWith kind "Error" && (kindsAbove.lookup kind).isNone

/-- Whether a fault is the database's or lies on the way to it. -/
def isUnavailable (f : Fault) : Bool :=
  f.isA "OSError" || f.isA "PostgresError" || f.isA "InterfaceError" ||
    match f with
    | .outside kind _ => isOwnKind kind
    | _ => false

/-- What a fault of a statement is reported as. What is not the database's passes as it is. -/
def faultOf (s : Store) (limit : Double) (f : Fault) : Fault :=
  if f.isTimeout then s.timedOut limit
  else if isUnavailable f then s.fault f.message
  else f

/-- One statement. -/
def run (s : Store) (statement : Statement) (d : Database) : Except Fault Value × Database :=
  if d.started then
    let outcome := Fault.withinLimit (d.answer d.asked statement)
    (outcome.mapError (faultOf s d.limit), { d with asked := d.asked ++ [statement] })
  else (.error (s.fault Store.notStarted), d)

theorem run_of_idle {s : Store} {statement : Statement} {d : Database} (h : d.started = false) :
    d.run s statement = (.error (s.fault Store.notStarted), d) := by
  simp [run, h]

/-- One statement whose answer is read. -/
def ask (s : Store) (kind : StatementKind) (arguments : List Value)
    (read : Value → Except Fault α) (d : Database) : Except Fault α × Database :=
  let (outcome, d) := d.run s ⟨kind, arguments⟩
  (outcome.bind read, d)

/-! ## Rules -/

def listActive (tenant table : Value) : Database → Except Fault (List Rule) × Database :=
  ask .rules .rows [tenant, table] (Row.all Row.rule)

def listRules (tenant : Value) : Database → Except Fault (List Rule) × Database :=
  ask .rules .rows [tenant] (Row.all Row.rule)

def getRule (tenant id : Value) : Database → Except Fault (Option Rule) × Database :=
  ask .rules .row [id, tenant] (Row.first? Row.rule)

/-- The columns of a rule. -/
def columnsOf (r : Rule) : List Value :=
  [r.id, r.tenant, r.name, r.description, r.triggerType, r.triggerTable, r.conditions, r.actions,
    r.fieldTypes, r.isActive, (r.lastExecuted.map Value.time).getD .null, .time r.createdAt]

def saveRule (r : Rule) : Database → Except Fault Rule × Database :=
  ask .rules .change (columnsOf r) fun _ => .ok r

def setActive (tenant id active : Value) : Database → Except Fault (Option Rule) × Database :=
  ask .rules .row [id, tenant, active] (Row.first? Row.rule)

/-- A rule was executed at a time. -/
def touchRule (tenant id time : Value) : Database → Except Fault Unit × Database :=
  ask .rules .change [id, tenant, time] fun _ => .ok ()

/-! ## Logs -/

/-- Append a log; the result is its id. -/
def appendLog (l : ExecutionLog) : Database → Except Fault Value × Database :=
  ask .logs .change
    [l.id, l.ruleId, l.tenant, l.trigger, l.table, l.recordId, l.before, l.after, l.details,
      l.success, l.error, l.milliseconds, .time l.executedAt]
    fun _ => .ok l.id

/-- The pattern that a text which is searched for stands for. -/
def searchPattern (search : Value) : Value :=
  if search.truthy then .text ("%" ++ search.display ++ "%") else .null

def pageLogs (tenant : Value) (f : LogFilter) : Database → Except Fault Logs × Database :=
  ask .logs .rows
    [tenant, f.ruleId, f.table, f.success, searchPattern f.search, .int f.limit, .int f.offset]
    (Row.all Row.log)

def logStats (tenant ruleId : Value) : Database → Except Fault ExecutionStats × Database :=
  ask .logs .row [tenant, ruleId] Row.stats

end Database

end ChangeRules
