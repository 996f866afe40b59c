import ChangeRules.Number.Mixed
import ChangeRules.Value.Basic

/-!
# Values as numbers

* `Value.number?`: the number that a value is; true and false are one and zero.
* `Number.toValue`: a number as a value.
* **`Value.number?_toValue`**: a number as a value is that number.
-/

namespace ChangeRules

/-- The number that a value is. -/
def Value.number? : Value → Option Number
  | .bool b => some (.int (if b then 1 else 0))
  | .int n => some (.int n)
  | .double x => some (.double x)
  | _ => none

namespace Number

def toValue : Number → Value
  | .int n => .int n
  | .double x => .double x

/-- The name of a number's type. -/
def typeName (n : Number) : String := n.toValue.typeName

end Number

theorem Value.number?_toValue (n : Number) : n.toValue.number? = some n := by cases n <;> rfl

end ChangeRules
