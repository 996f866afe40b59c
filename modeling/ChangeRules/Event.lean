import ChangeRules.Fault
import ChangeRules.Rule

/-!
# Change events

An event tells that a row of a tenant's table was created, updated or deleted, or that a point in
time was reached. It carries the row before and after.

* `EventOperation.trigger`: the kind of change that an operation is.
* `Event.conditionRecord`: the row that conditions look at.
* `Event.recordId`: the id of the row.
-/

namespace ChangeRules

/-- What an event tells. -/
inductive EventOperation where
  | created
  | updated
  | deleted
  | timeBased
  deriving DecidableEq, Inhabited

namespace EventOperation

def all : List EventOperation := [.created, .updated, .deleted, .timeBased]

def name : EventOperation → String
  | .created => "created"
  | .updated => "updated"
  | .deleted => "deleted"
  | .timeBased => "time_based"

def ofName? (s : String) : Option EventOperation := all.find? (·.name == s)

/-- The operation that a value names, or that there is none. -/
def ofValue (v : Value) : Except Fault EventOperation :=
  match v with
  | .text s =>
    match ofName? s with
    | some o => .ok o
    | none => .error (.misuse (.unknownOperation v.shown))
  | v => .error (.misuse (.unknownOperation v.shown))

/-- The kind of change that an operation is. -/
def trigger : EventOperation → TriggerType
  | .created => .recordCreated
  | .updated => .recordUpdated
  | .deleted => .recordDeleted
  | .timeBased => .timeBased

theorem ofName?_name (o : EventOperation) : ofName? o.name = some o := by cases o <;> rfl

theorem trigger_injective {o p : EventOperation} (h : o.trigger = p.trigger) : o = p := by
  cases o <;> cases p <;> simp_all [trigger]

end EventOperation

/-- A change of a row. -/
structure Event where
  table : Value
  operation : Value
  tenant : Value
  oldRow : Value
  newRow : Value
  id : Value
  occurredAt : DateTime
  deriving Inhabited

namespace Event

/-- Whether the event tells that a row was deleted. -/
def isDeletion (e : Event) : Bool :=
  match e.operation with
  | .text s => s == EventOperation.deleted.name
  | _ => false

/-- The row that conditions look at: the new one, for a deletion the old one. -/
def conditionRecord (e : Event) : Value :=
  if !e.isDeletion && !e.newRow.isNull then e.newRow
  else e.oldRow.orElse (.object [])

/-- The id that a row carries, if the row is there and the id is not null. -/
def rowId (row : Value) : Except Fault (Option String) :=
  if !row.truthy then .ok none
  else match row with
    | .object fields =>
      let id := Value.get fields "id"
      .ok (if id.isNull then none else some id.display)
    | v => .error (.misuse (.noMember v.typeName "get"))

/-- The id of the row: the new row's, or else the old one's. -/
def recordId (e : Event) : Except Fault (Option String) := do
  match ← rowId e.newRow with
  | some id => .ok (some id)
  | none => rowId e.oldRow

end Event

end ChangeRules
