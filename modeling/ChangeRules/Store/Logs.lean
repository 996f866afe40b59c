import ChangeRules.Store.Log
import ChangeRules.Value.Number

/-!
# A store of logs

Logs are appended and read page by page, the newest first.

* `Logs.page`: the logs of a tenant that a filter asks for.
* `Logs.stats`: how often a tenant's rules succeeded and how long they took.
* **`Logs.mem_append_iff`**: appending adds one log and keeps the others.
-/

namespace ChangeRules

/-! ## Pages -/

/-- A place in a row of `n`; a negative one is counted from the end. -/
def placeIn (n : Nat) (i : Int) : Nat := (if i < 0 then i + n else i).toNat

/-- The part of a row between two places. -/
def between {α : Type} (start stop : Int) (row : List α) : List α :=
  (row.take (placeIn row.length stop)).drop (placeIn row.length start)

/-! ## Statistics -/

/-- How often rules fired, and how long it took on average. -/
structure ExecutionStats where
  total : Int := 0
  successful : Int := 0
  failed : Int := 0
  averageMilliseconds : Option Double := none

namespace ExecutionStats

/-- The share of successes in percent, with two places. -/
def successRate (s : ExecutionStats) : Double :=
  if s.total = 0 then .zero
  else ((Double.quotient s.successful s.total).mul (.ofInt 100)).roundPlaces 2

/-- Statistics as a value. -/
def toValue (s : ExecutionStats) : Value :=
  .object [("total_executions", .int s.total), ("successful_executions", .int s.successful),
    ("failed_executions", .int s.failed),
    ("average_execution_time_ms", (s.averageMilliseconds.map Value.double).getD .null),
    ("success_rate", .double s.successRate)]

end ExecutionStats

/-! ## The store -/

/-- Logs in the order in which they were appended. -/
abbrev Logs := List ExecutionLog

namespace Logs

def append (l : ExecutionLog) (logs : Logs) : Logs := logs ++ [l]

theorem mem_append_iff {l k : ExecutionLog} {logs : Logs} :
    k ∈ logs.append l ↔ k ∈ logs ∨ k = l := by
  simp [append]

/-- The logs of a tenant that a filter accepts, or the first fault of judging one. -/
def select (tenant : Value) (f : LogFilter) : Logs → Except Fault Logs
  | [] => .ok []
  | l :: logs =>
    if l.tenant.same tenant then do
      let accepted ← f.accepts l
      let rest ← select tenant f logs
      .ok (if accepted then l :: rest else rest)
    else select tenant f logs

/-- The newest logs first; logs of one instant keep their order. -/
def newestFirst (logs : Logs) : Logs :=
  logs.mergeSort fun k l => l.executedAt.instant ≤ k.executedAt.instant

/-- A page of the logs of a tenant that a filter asks for. -/
def page (tenant : Value) (f : LogFilter) (logs : Logs) : Except Fault Logs := do
  let selected ← logs.select tenant f
  .ok (between f.offset (f.offset + f.limit) selected.newestFirst)

/-- The logs of a tenant and, unless it is null, of a rule. -/
def ofRule (tenant ruleId : Value) (logs : Logs) : Logs :=
  logs.filter fun l => l.tenant.same tenant && (ruleId.isNull || l.ruleId.same ruleId)

/-- The sum of the times that logs tell of, added from left to right. -/
def totalTime (sum : Number) : Logs → Except Fault Number
  | [] => .ok sum
  | l :: logs =>
    match l.milliseconds.number? with
    | some n =>
      match sum.add n with
      | .ok sum => totalTime sum logs
      | .error flaw => .error (.misuse (.arithmetic flaw))
    | none => .error (.misuse (.noSum sum.typeName l.milliseconds.typeName))

/-- The statistics of a tenant and, unless it is null, of a rule. -/
def stats (tenant ruleId : Value) (logs : Logs) : Except Fault ExecutionStats :=
  let logs := logs.ofRule tenant ruleId
  let successful := logs.countP (·.success.truthy)
  if logs.isEmpty then .ok {}
  else do
    let sum ← totalTime (.int 0) logs
    .ok {
      total := logs.length
      successful := successful
      failed := (logs.length : Int) - successful
      averageMilliseconds := some ((sum.dividedBy logs.length).roundPlaces 3) }

end Logs

end ChangeRules
