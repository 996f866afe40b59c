import ChangeRules.Condition.Basic
import ChangeRules.Condition.Reading
import ChangeRules.Value.Equal

/-!
# Evaluating conditions

Conditions compare a field of a record with a value: as instants where the column type is temporal
and both are instants, as numbers where both are numbers, as texts otherwise. Numbers have to fit into
a double, and texts have to be such as can be written.

* `Condition.holds`: whether a condition holds for a record.
* `evaluateGroups`: one group all of whose conditions hold, or no group at all.
* `evaluate`: the same for stored groups. All of them are read before any is evaluated.
-/

namespace ChangeRules

/-! ## Field types -/

/-- The two parts of a pair in a row of pairs. Whatever has exactly two parts will do. -/
def pairOf (index : Nat) (v : Value) : Except Fault (Value × Value) :=
  let parts : Option (List Value) := match v with
    | .list vs => some vs
    | .text s => some (s.toList.map fun c => .text (String.singleton c))
    | .object fields => some (fields.map fun f => .text f.1)
    | _ => none
  match parts with
  | none => .error (.misuse (.pairShape index))
  | some [a, b] => .ok (a, b)
  | some vs => .error (.misuse (.pairLength index vs.length))

/-- The fields that a row of pairs sets. Keys that are no texts set nothing. -/
def fieldsOfPairs (fields : Fields) : (index : Nat) → List Value → Except Fault Fields
  | _, [] => .ok fields
  | index, v :: vs => do
    let (key, value) ← pairOf index v
    match key with
    | .text k => fieldsOfPairs (fields.set k value) (index + 1) vs
    | .list _ | .object _ => .error (.misuse (.unhashable key.typeName))
    | _ => fieldsOfPairs fields (index + 1) vs

/-- The column types that a stored value gives: an object, or a row of pairs. What counts as false
gives none. -/
def fieldTypesOf (v : Value) : Except Fault Fields :=
  if !v.truthy then .ok []
  else match v with
    | .object fields => .ok fields
    | .list vs => fieldsOfPairs [] 0 vs
    | .text s => fieldsOfPairs [] 0 (s.toList.map fun c => .text (String.singleton c))
    | v => .error (.misuse (.notIterable v.typeName))

/-! ## Comparisons -/

/-- The order of two texts by code points. -/
def textOrder (s t : String) : Ordering :=
  if s < t then .lt else if s = t then .eq else .gt

namespace Value

/-- Whether a value is an integer or a double. -/
def isNumeric : Value → Bool
  | .int _ => true
  | .double _ => true
  | _ => false

def isBool : Value → Bool
  | .bool _ => true
  | _ => false

/-- Whether a value is a text, a number or a truth value. -/
def isPlain : Value → Bool
  | .text _ => true
  | .bool _ => true
  | v => v.isNumeric

/-- Both values as instants. -/
def instants? (v w : Value) : Option (DateTime × DateTime) := do
  let s ← v.toInstant?
  let t ← w.toInstant?
  some (s, t)

/-- Both values as numbers. The second one is read in any case. -/
def numbers? (v w : Value) : Except Fault (Option (Double × Double)) := do
  let x ← v.toNumber
  let y ← w.toNumber
  .ok (match x, y with
    | some x, some y => some (x, y)
    | _, _ => none)

/-- Two values in a relation as texts. Both have to be written. -/
def asTexts {α : Type} (relation : String → String → α) (v w : Value) : Except Fault α := do
  let s ← v.written
  let t ← w.written
  .ok (relation s t)

/-- Whether two values that are not null are equal as plain values, lists or objects. -/
def equalsPlainly (v w : Value) : Except Fault Bool :=
  if v.isPlain && w.isPlain then asTexts (· == ·) v w else .ok (v.same w)

/-- Whether the value of a field equals an expected one. -/
def equals (v w : Value) (temporal : Bool) : Except Fault Bool :=
  if v.isNull || w.isNull then .ok (v.isNull && w.isNull)
  else match (if temporal then instants? v w else none) with
    | some (s, t) => .ok (s.instant == t.instant)
    | none =>
      if v.isBool || w.isBool then asTexts (fun s t => Text.lower s == Text.lower t) v w
      else if v.isNumeric || w.isNumeric then do
        match ← numbers? v w with
        | some (x, y) => .ok (x.same y)
        | none => equalsPlainly v w
      else equalsPlainly v w

/-- The order of the value of a field and an expected one; a null equals everything here. -/
def order (v w : Value) (temporal : Bool) : Except Fault Ordering :=
  if v.isNull || w.isNull then .ok .eq
  else match (if temporal then instants? v w else none) with
    | some (s, t) => .ok (compare s.instant t.instant)
    | none => do
      match ← numbers? v w with
      | some (x, y) => .ok ((x.compare? y).getD .eq)
      | none => asTexts textOrder v w

/-- Whether an item of a list is an expected value or has its text. Nulls are passed over. -/
def isItem (w : Value) (text : String) (item : Value) : Except Fault Bool :=
  if item.isNull then .ok false
  else if item.same w then .ok true
  else item.written.map (· == text)

/-- Whether some item of a list is an expected value or has its text; the first such item settles it. -/
def hasItem (w : Value) (text : String) : List Value → Except Fault Bool
  | [] => .ok false
  | item :: items => do
    if ← isItem w text item then .ok true else hasItem w text items

/-- Whether the value of a field contains an expected one: a part of a text, a key of an object, an
item of a list. -/
def contains (v w : Value) : Except Fault Bool :=
  if v.isNull || w.isNull then .ok false
  else match v with
    | .text s => w.written.map (Text.contains s)
    | .object fields => w.written.map fun text => fields.any fun f => f.1 == text
    | .list items => do hasItem w (← w.written) items
    | v => asTexts Text.contains v w

/-- Whether two values that are not null stand in a relation as texts. -/
def textually (relation : String → String → Bool) (v w : Value) : Except Fault Bool :=
  if v.isNull || w.isNull then .ok false else asTexts relation v w

end Value

/-! ## Conditions and groups -/

/-- A field of a record. Only objects have fields. -/
def recordField (record : Value) (name : String) : Except Fault Value :=
  match record with
  | .object fields => .ok (Value.get fields name)
  | v => .error (.misuse (.noMember v.typeName "get"))

namespace Operator

/-- Whether an operator accepts the value of a field beside an expected one. -/
def accepts (o : Operator) (actual expected : Value) (temporal : Bool) : Except Fault Bool :=
  match o with
  | .isNull => .ok actual.isNull
  | .isNotNull => .ok !actual.isNull
  | .equals => actual.equals expected temporal
  | .notEquals => (actual.equals expected temporal).map not
  | .greaterThan => (actual.order expected temporal).map (· == .gt)
  | .lessThan => (actual.order expected temporal).map (· == .lt)
  | .contains => actual.contains expected
  | .startsWith => actual.textually Text.startsWith expected
  | .endsWith => actual.textually Text.endsWith expected

end Operator

/-- Whether a condition holds for a record, given the column types. -/
def Condition.holds (types : Fields) (record : Value) (c : Condition) : Except Fault Bool := do
  let actual ← recordField record c.field
  c.operator.accepts actual c.value (isTemporal (Value.get types c.field))

/-- Whether all conditions hold; the first one that does not settles it. -/
def allHold (types : Fields) (record : Value) : List Condition → Except Fault Bool
  | [] => .ok true
  | c :: cs => do
    if ← c.holds types record then allHold types record cs else .ok false

/-- Whether the conditions of some group all hold; the first such group settles it. -/
def anyHolds (types : Fields) (record : Value) : List (List Condition) → Except Fault Bool
  | [] => .ok false
  | g :: gs => do
    if ← allHold types record g then .ok true else anyHolds types record gs

/-- The truth of groups for a record; what counts as false has no fields set. -/
def evaluateGroups (types : Fields) (groups : List (List Condition)) (record : Value) :
    Except Fault Bool :=
  if groups.isEmpty then .ok true
  else anyHolds types (if record.truthy then record else .object []) groups

/-- The truth of stored groups for a record. -/
def evaluate (types : Fields) (stored record : Value) : Except Fault Bool :=
  match Condition.groupsOf stored with
  | .error flaw => .error flaw.fault
  | .ok groups => evaluateGroups types groups record

end ChangeRules
