import ChangeRules.Time.Iso
import ChangeRules.Value.JsonForm

/-!
# Values with tags

JSON has no notation for days, for times, or for numbers that are not finite. With tags it holds
them all the same: as objects whose only field has a name with a dollar sign in front.

* `Value.tagged`: a value with tags.
* `Value.untagged`: the value behind tags.
* **`Value.isFinite_tagged`**: with tags, only finite numbers are left.
-/

namespace ChangeRules

namespace Value

/-- A number that is not finite, with a tag. -/
def taggedDouble : Double → Value
  | .nan => .object [("$float", .text "nan")]
  | .infinity negative => .object [("$float", .text (if negative then "-inf" else "inf"))]
  | x => .double x

mutual

/-- A value with tags. -/
def tagged : Value → Value
  | .double x => taggedDouble x
  | .date d => .object [("$date", .text d.text)]
  | .time t => .object [("$datetime", .text t.text)]
  | .list items => .list (taggedItems items)
  | .object fields => .object (taggedFields fields)
  | v => v

def taggedItems : List Value → List Value
  | [] => []
  | v :: vs => tagged v :: taggedItems vs

def taggedFields : List (String × Value) → List (String × Value)
  | [] => []
  | (k, v) :: fs => (k, tagged v) :: taggedFields fs

end

/-- The value behind a tag, if these fields are one. -/
def behindTag? : List (String × Value) → Option Value
  | [("$float", .text "nan")] => some (.double .nan)
  | [("$float", .text "inf")] => some (.double (.infinity false))
  | [("$float", .text "-inf")] => some (.double (.infinity true))
  | [("$datetime", .text s)] => (DateTime.ofIso? s).map .time
  | [("$date", .text s)] => (Date.ofIso? s).map .date
  | _ => none

mutual

/-- The value behind tags. -/
def untagged : Value → Value
  | .list items => .list (untaggedItems items)
  | .object fields => (behindTag? fields).getD (.object (untaggedFields fields))
  | v => v

def untaggedItems : List Value → List Value
  | [] => []
  | v :: vs => untagged v :: untaggedItems vs

def untaggedFields : List (String × Value) → List (String × Value)
  | [] => []
  | (k, v) :: fs => (k, untagged v) :: untaggedFields fs

end

theorem isFinite_taggedDouble (x : Double) : (taggedDouble x).isFinite = true := by
  cases x <;> rfl

mutual

theorem isFinite_tagged (v : Value) : v.tagged.isFinite = true := by
  cases v with
  | double x => simp [tagged, isFinite_taggedDouble]
  | list items => simp [tagged, isFinite, areFinite_taggedItems items]
  | object fields => simp [tagged, isFinite, fieldsAreFinite_taggedFields fields]
  | _ => simp [tagged, isFinite, fieldsAreFinite]

theorem areFinite_taggedItems (items : List Value) : areFinite (taggedItems items) = true := by
  cases items with
  | nil => simp [taggedItems, areFinite]
  | cons v vs => simp [taggedItems, areFinite, isFinite_tagged v, areFinite_taggedItems vs]

theorem fieldsAreFinite_taggedFields (fields : List (String × Value)) :
    fieldsAreFinite (taggedFields fields) = true := by
  cases fields with
  | nil => simp [taggedFields, fieldsAreFinite]
  | cons f fs =>
    simp [taggedFields, fieldsAreFinite, isFinite_tagged f.2, fieldsAreFinite_taggedFields fs]

end

end Value

end ChangeRules
