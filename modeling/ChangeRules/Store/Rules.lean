import ChangeRules.Fault
import ChangeRules.Rule
import ChangeRules.Value.Equal

/-!
# A store of rules

Rules are kept by id. Whoever reads or changes a rule names its tenant, and the rules of other
tenants are out of reach.

* `Rules.save`, `Rules.setActive`, `Rules.touch`: changes.
* `Rules.get?`, `Rules.ofTenant`, `Rules.active`: what a tenant has.
-/

namespace ChangeRules

/-- Rules in the order in which their ids were first saved. -/
abbrev Rules := List Rule

namespace Rules

/-- Lists and objects name no rule. -/
def checkId : Value → Except Fault Unit
  | .list _ => .error (.misuse (.unhashable (Value.list []).typeName))
  | .object _ => .error (.misuse (.unhashable (Value.object []).typeName))
  | _ => .ok ()

/-- Whether a rule has an id. -/
def hasId (id : Value) (r : Rule) : Bool := r.id.same id

/-- Save a rule in place of the one with its id, or else behind the others. -/
def save (r : Rule) (rules : Rules) : Rules :=
  if rules.any (hasId r.id) then rules.map fun s => if hasId r.id s then r else s
  else rules ++ [r]

/-- Whether a rule is the one of an id and of a tenant. -/
def isOf (tenant id : Value) (r : Rule) : Bool := hasId id r && r.tenant.same tenant

/-- A tenant's rule. -/
def get? (tenant id : Value) (rules : Rules) : Option Rule :=
  (rules.find? (hasId id)).filter (·.tenant.same tenant)

/-- Change a tenant's rule. -/
def change (tenant id : Value) (f : Rule → Rule) (rules : Rules) : Rules :=
  rules.map fun r => if isOf tenant id r then f r else r

/-- Make a tenant's rule active or not. -/
def setActive (tenant id active : Value) (rules : Rules) : Rules :=
  rules.change tenant id fun r => { r with isActive := active }

/-- The later one of the last execution and a time; a time without a zone is read as UTC. -/
def laterExecution (last : Option DateTime) (time : DateTime) : DateTime :=
  match last with
  | none => time
  | some t => if t.isBefore time then time else t

/-- A tenant's rule was executed. An earlier time changes nothing. -/
def touch (tenant id : Value) (time : DateTime) (rules : Rules) : Rules :=
  rules.change tenant id fun r => { r with lastExecuted := some (laterExecution r.lastExecuted time) }

/-- A tenant's rules in firing order. -/
def ofTenant (tenant : Value) (rules : Rules) : List Rule :=
  Rule.inOrder (rules.filter (·.tenant.same tenant))

/-- Whether a rule may concern a table: it names this one or none. Null stands for any table. -/
def concerns (table : Value) (r : Rule) : Bool :=
  table.isNull || r.triggerTable.same table || r.triggerTable.isNull

/-- A tenant's active rules that may concern a table, in firing order. -/
def active (tenant table : Value) (rules : Rules) : List Rule :=
  Rule.inOrder (rules.filter fun r =>
    r.tenant.same tenant && r.isActive.truthy && concerns table r)

section

variable {tenant other id : Value} {f : Rule → Rule} {rules : Rules} {r : Rule}

theorem mem_ofTenant : r ∈ rules.ofTenant tenant ↔ r ∈ rules ∧ r.tenant.same tenant = true := by
  simp [ofTenant, Rule.inOrder, List.mem_mergeSort, List.mem_filter]

theorem mem_active {table : Value} : r ∈ rules.active tenant table ↔
    r ∈ rules ∧ r.tenant.same tenant = true ∧ r.isActive.truthy = true ∧
      concerns table r = true := by
  simp [active, Rule.inOrder, List.mem_mergeSort, List.mem_filter, and_assoc]

theorem length_change : (rules.change tenant id f).length = rules.length := by
  simp [change]

end

end Rules

end ChangeRules
