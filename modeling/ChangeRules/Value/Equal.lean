import ChangeRules.Value.Basic

/-!
# Equality of values

Numbers are equal by value, true and false being one and zero; integers and doubles are compared
exactly. Objects are equal when they have the same keys with equal values, in any order. Times are
equal as instants, and never across times with and without a zone.

* `Value.same`: whether two values are equal.
-/

namespace ChangeRules

namespace Value

/-- The integer behind a truth value or an integer. -/
def asInt? : Value → Option Int
  | .bool b => some (if b then 1 else 0)
  | .int n => some n
  | _ => none

/-- Whether two values that are no containers are equal. -/
def sameScalar (v w : Value) : Bool :=
  match v, w with
  | .null, .null => true
  | .text s, .text t => s == t
  | .date d, .date e => d == e
  | .time s, .time t => s.same t
  | .double x, .double y => x.same y
  | .double x, w => w.asInt?.any (x.toInt? == some ·)
  | v, .double y => v.asInt?.any (y.toInt? == some ·)
  | v, w => match v.asInt?, w.asInt? with
    | some m, some n => m == n
    | _, _ => false

mutual

/-- Whether two values are equal. -/
def same : Value → Value → Bool
  | .list xs, .list ys => sameItems xs ys
  | .object fs, .object gs => fs.length == gs.length && sameFields fs gs
  | v, w => sameScalar v w

def sameItems : List Value → List Value → Bool
  | [], [] => true
  | x :: xs, y :: ys => same x y && sameItems xs ys
  | _, _ => false

/-- Whether every field of the first object is a field of the second one, with an equal value. -/
def sameFields : List (String × Value) → List (String × Value) → Bool
  | [], _ => true
  | (k, v) :: fs, gs =>
    (match gs.lookup k with
      | some w => same v w
      | none => false) && sameFields fs gs

end

instance : BEq Value := ⟨same⟩

end Value

end ChangeRules
