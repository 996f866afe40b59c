import ChangeRules.Number.Double
import ChangeRules.Time.DateTime

/-!
# Values

The dynamic values that records, stored rules and messages are made of: JSON values, with integers
of any size kept apart from doubles, and calendar days and times beside them. An object keeps its
fields in the order in which they were first set, and they have texts for keys. A text holds characters
only, no halves of pairs.

* `Value.get`: a field of an object, null when there is none.
* `Value.truthy`: null, false, zero and everything empty count as false.
-/

namespace ChangeRules

/-- A dynamic value. -/
inductive Value where
  | null
  | bool (b : Bool)
  | int (n : Int)
  | double (x : Double)
  | text (s : String)
  | list (items : List Value)
  | object (fields : List (String × Value))
  | date (d : Date)
  | time (t : DateTime)
  deriving Inhabited

/-- The fields of an object, in order. -/
abbrev Fields := List (String × Value)

namespace Fields

/-- The value of a field, if it is set. -/
def get? (fields : Fields) (key : String) : Option Value := fields.lookup key

def has (fields : Fields) (key : String) : Bool := (fields.get? key).isSome

/-- Set a field: in its place if it is there, at the end otherwise. -/
def set (fields : Fields) (key : String) (v : Value) : Fields :=
  if fields.has key then fields.map fun f => if f.1 == key then (key, v) else f
  else fields ++ [(key, v)]

/-- Set a field unless it is there. -/
def setDefault (fields : Fields) (key : String) (v : Value) : Fields :=
  if fields.has key then fields else fields ++ [(key, v)]

/-- The fields of a row of pairs, of which a later one replaces an earlier one. -/
def ofPairs (pairs : List (String × Value)) : Fields :=
  pairs.foldl (fun fields p => fields.set p.1 p.2) []

end Fields

namespace Value

/-- A field of an object; null when it is missing. -/
def get (fields : Fields) (key : String) : Value := (fields.get? key).getD .null

def isNull : Value → Bool
  | .null => true
  | _ => false

/-- The text or null. -/
def ofText? : Option String → Value
  | some s => .text s
  | none => .null

/-- What counts as true in a test. -/
def truthy : Value → Bool
  | .null => false
  | .bool b => b
  | .int n => n != 0
  | .double x => !x.isZero
  | .text s => !s.isEmpty
  | .list items => !items.isEmpty
  | .object fields => !fields.isEmpty
  | .date _ => true
  | .time _ => true

/-- The first value if it counts as true, the second one otherwise. -/
def orElse (v w : Value) : Value := if v.truthy then v else w

/-- The name of a value's type, as messages give it. -/
def typeName : Value → String
  | .null => "NoneType"
  | .bool _ => "bool"
  | .int _ => "int"
  | .double _ => "float"
  | .text _ => "str"
  | .list _ => "list"
  | .object _ => "dict"
  | .date _ => "datetime.date"
  | .time _ => "datetime.datetime"

/-- The text of a text value. -/
def text? : Value → Option String
  | .text s => some s
  | _ => none

/-- The fields of an object. -/
def fields? : Value → Option Fields
  | .object fields => some fields
  | _ => none

end Value

end ChangeRules
