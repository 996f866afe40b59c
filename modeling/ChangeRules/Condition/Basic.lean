import ChangeRules.Fault

/-!
# Conditions

A condition compares one field of a record with a value. Stored conditions come in groups: all
conditions of a group have to hold, and one group is enough. A stored group is a list of conditions
or an object with such a list under `conditions`; groups without conditions are dropped.

* `Condition.Flaw`: what is wrong with a stored value; `Condition.Flaw.fault`: what this comes to.
* `Condition.ofValue`: the condition that a stored value denotes, or what is wrong with it.
* `Condition.groupsOf`: the groups that a stored value denotes.
* **`groupsOf_ne_nil`**: no group of the result is empty.
-/

namespace ChangeRules

/-- How a field is compared. -/
inductive Operator where
  | equals
  | notEquals
  | greaterThan
  | lessThan
  | contains
  | startsWith
  | endsWith
  | isNull
  | isNotNull
  deriving DecidableEq, Inhabited

namespace Operator

def all : List Operator :=
  [.equals, .notEquals, .greaterThan, .lessThan, .contains, .startsWith, .endsWith, .isNull,
    .isNotNull]

/-- The name of an operator in stored conditions. -/
def name : Operator → String
  | .equals => "equals"
  | .notEquals => "not_equals"
  | .greaterThan => "greater_than"
  | .lessThan => "less_than"
  | .contains => "contains"
  | .startsWith => "starts_with"
  | .endsWith => "ends_with"
  | .isNull => "is_null"
  | .isNotNull => "is_not_null"

/-- The operator of a name. -/
def ofName? (s : String) : Option Operator := all.find? (·.name == s)

/-- The operator that a stored value names. -/
def ofValue? : Value → Option Operator
  | .text s => ofName? s
  | _ => none

theorem ofName?_name (o : Operator) : ofName? o.name = some o := by cases o <;> rfl

end Operator

/-- A comparison of one field. -/
structure Condition where
  field : String
  operator : Operator
  value : Value

namespace Condition

/-! ## Flaws -/

/-- What is wrong with the shape of stored conditions. Groups are known by their places. -/
inductive Flaw where
  | noObject (v : Value)
  | noField (fields : Fields)
  | unknownOperator (fields : Fields)
  | noConditions (index : Nat)
  | noList (index : Nat)
  | noGroups (v : Value)

namespace Flaw

/-- The error that tells of a flaw. -/
def error : Flaw → RuleError
  | .noObject v => .matching "Condition must be an object with field, operator and value"
      [("condition", .text v.shown)]
  | .noField fields => .matching "Condition is missing a field name" [("condition", .object fields)]
  | .unknownOperator fields =>
    .matching ("Unknown condition operator: " ++ (Value.get fields "operator").shown)
      [("condition", .object fields)]
  | .noConditions index =>
    .matching ("Condition group " ++ toString index ++ " has no conditions list")
      [("group_index", .int index)]
  | .noList index =>
    .matching ("Condition group " ++ toString index ++ " must contain a list of conditions")
      [("group_index", .int index)]
  | .noGroups v => .matching "trigger_conditions must be a list of condition groups"
      [("trigger_conditions", .text v.shown)]

/-- A flaw as the error that tells of it. -/
instance : Coe Flaw RuleError := ⟨error⟩

/-- The value that this error writes out. -/
def written? : Flaw → Option Value
  | .noObject v | .noGroups v => some v
  | .unknownOperator fields => some (Value.get fields "operator")
  | _ => none

/-- Whether the error can be told: the value that it writes out can be written. -/
def isTellable (f : Flaw) : Bool := f.written?.all Value.isWritable

/-- What stored conditions with a flaw come to. -/
def fault (f : Flaw) : Fault := if f.isTellable then .error f else .misuse .unwritableInteger

end Flaw

/-! ## Reading conditions -/

/-- The condition that a stored value denotes. -/
def ofValue : Value → Except Flaw Condition
  | .object fields =>
    match Value.get fields "field" with
    | .text name =>
      if name.isEmpty then .error (.noField fields)
      else match Operator.ofValue? (Value.get fields "operator") with
        | some operator => .ok ⟨name, operator, Value.get fields "value"⟩
        | none => .error (.unknownOperator fields)
    | _ => .error (.noField fields)
  | v => .error (.noObject v)

/-- All conditions of a list, or the first flaw. -/
def listOf : List Value → Except Flaw (List Condition)
  | [] => .ok []
  | v :: vs => do
    let c ← ofValue v
    let cs ← listOf vs
    .ok (c :: cs)

/-- The stored conditions of a stored group; `index` is its place. -/
def groupItems (index : Nat) (v : Value) : Except Flaw (List Value) :=
  let items (w : Value) : Except Flaw (List Value) :=
    match w with
    | .null => .ok []
    | .list vs => .ok vs
    | _ => .error (.noList index)
  match v with
  | .object fields =>
    match Fields.get? fields "conditions" with
    | some w => items w
    | none => .error (.noConditions index)
  | w => items w

/-- The groups of a list from place `index` on, those without conditions dropped. -/
def groupsFrom : (index : Nat) → List Value → Except Flaw (List (List Condition))
  | _, [] => .ok []
  | index, v :: vs => do
    let items ← groupItems index v
    let group ← listOf items
    let groups ← groupsFrom (index + 1) vs
    .ok (if group.isEmpty then groups else group :: groups)

/-- The groups that a stored value denotes. -/
def groupsOf : Value → Except Flaw (List (List Condition))
  | .null => .ok []
  | .list vs => groupsFrom 0 vs
  | v => .error (.noGroups v)

theorem groupsFrom_ne_nil {vs : List Value} {index : Nat} {groups : List (List Condition)}
    (h : groupsFrom index vs = .ok groups) : ∀ g ∈ groups, g ≠ [] := by
  induction vs generalizing index groups with
  | nil =>
    simp only [groupsFrom, Except.ok.injEq] at h
    simp [← h]
  | cons v vs ih =>
    simp only [groupsFrom, bind, Except.bind] at h
    split at h
    · cases h
    · split at h
      · cases h
      · split at h
        · cases h
        · next hr =>
          injection h with h
          subst h
          have ih := ih hr
          split
          · exact ih
          · next hne => simpa using ⟨by simpa using hne, ih⟩

theorem groupsOf_ne_nil {v : Value} {groups : List (List Condition)} (h : groupsOf v = .ok groups) :
    ∀ g ∈ groups, g ≠ [] := by
  cases v <;> simp only [groupsOf, Except.ok.injEq, reduceCtorEq] at h
  · simp [← h]
  · exact groupsFrom_ne_nil h

end Condition

end ChangeRules
