import ChangeRules.Condition.Evaluation
import ChangeRules.Event

/-!
# Matching rules with an event

A rule matches an event if it is active, belongs to the event's tenant, watches that kind of change
of that table, and its conditions hold for the row. A rule that cannot be judged is reported beside
the matching ones, and never affects the others.

* `Rule.accepts`: whether a rule matches an event.
* `matchRules`: the rules that match or cannot be judged, in firing order.
* **`mem_matchRules`**: exactly the rules that `judge` keeps are among them.
-/

namespace ChangeRules

/-- A rule that matches an event, or one that could not be judged and why. -/
structure RuleMatch where
  rule : Rule
  error : Option RuleError

/-- The kind of change that a rule watches. -/
def Rule.trigger (r : Rule) : Except Fault TriggerType :=
  match TriggerType.ofValue? r.triggerType with
  | some t => .ok t
  | none => .error (.error (.configuration
      ("Rule " ++ r.id.display ++ " has unknown trigger type " ++ r.triggerType.shown)
      [("rule_id", r.id), ("trigger_type", r.triggerType)]))

/-- Whether a rule watches the table of an event. Points in time belong to no table. -/
def Rule.watches (r : Rule) (trigger : TriggerType) (e : Event) : Except Fault Bool :=
  if trigger = .timeBased then .ok true
  else if !r.triggerTable.truthy then .error (.error (.configuration
    ("Rule " ++ r.id.display ++ " has trigger " ++ trigger.name ++ " but no trigger_table")
    [("rule_id", r.id), ("trigger_type", .text trigger.name)]))
  else .ok (r.triggerTable.same e.table)

/-- An error of matching names the rule in its details. -/
def noteRule (r : Rule) : Fault → Fault
  | .error e => .error (if e.kind.isMatching then
      { e with details := e.details.setDefault "rule_id" r.id } else e)
  | f => f

/-- Whether the conditions of a rule hold for an event. -/
def Rule.conditionsHold (r : Rule) (e : Event) : Except Fault Bool := do
  let types ← fieldTypesOf r.fieldTypes
  (evaluate types r.conditions e.conditionRecord).mapError (noteRule r)

/-- Whether a rule matches an event. -/
def Rule.accepts (r : Rule) (e : Event) : Except Fault Bool :=
  if !r.isActive.truthy then .ok false
  else if !r.tenant.same e.tenant then .ok false
  else do
    let trigger ← r.trigger
    let operation ← EventOperation.ofValue e.operation
    if operation.trigger != trigger then .ok false
    else if ← r.watches trigger e then r.conditionsHold e
    else .ok false

/-- The error of matching that a fault becomes. -/
def matchingError (r : Rule) : Fault → RuleError
  | .error e =>
    if e.kind.isMatching then e else wrap (.error e)
  | f => wrap f
where
  wrap (f : Fault) : RuleError :=
    .matching ("Rule " ++ r.id.display ++ " could not be evaluated: " ++ f.describe)
      [("rule_id", r.id), ("cause", .text f.kind)]

/-- What becomes of one rule. -/
def judge (e : Event) (r : Rule) : Option RuleMatch :=
  match r.accepts e with
  | .ok true => some ⟨r, none⟩
  | .ok false => none
  | .error f => some ⟨r, some (matchingError r f)⟩

/-- The rules that match an event or cannot be judged, in firing order. -/
def matchRules (e : Event) (rules : List Rule) : List RuleMatch :=
  (Rule.inOrder rules).filterMap (judge e)

/-- The rules that match an event, in firing order. -/
def candidates (found : List RuleMatch) : List Rule :=
  (found.filter (·.error.isNone)).map (·.rule)

theorem mem_matchRules {e : Event} {rules : List Rule} {m : RuleMatch} :
    m ∈ matchRules e rules ↔ ∃ r ∈ rules, judge e r = some m := by
  simp [matchRules, Rule.inOrder, List.mem_filterMap, List.mem_mergeSort]

end ChangeRules
