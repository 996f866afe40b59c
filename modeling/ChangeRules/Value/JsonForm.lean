import ChangeRules.Value.Basic

/-!
# Values that JSON can hold

JSON holds neither infinities nor undefined numbers, which become null, nor days and times, which
become texts.

* `Value.jsonForm`: a value made fit for JSON.
* `Value.isFinite`: whether all numbers inside a value are finite.
* **`Value.jsonForm_jsonForm`**: which is settled in one pass.
* **`Value.isFinite_jsonForm`**: and leaves only finite numbers.
-/

namespace ChangeRules

namespace Value

mutual

/-- A value made fit for JSON. -/
def jsonForm : Value → Value
  | .double x => if x.isFinite then .double x else .null
  | .date d => .text d.text
  | .time t => .text t.zuluText
  | .list items => .list (jsonItems items)
  | .object fields => .object (jsonFields fields)
  | v => v

def jsonItems : List Value → List Value
  | [] => []
  | v :: vs => jsonForm v :: jsonItems vs

def jsonFields : List (String × Value) → List (String × Value)
  | [] => []
  | (k, v) :: fs => (k, jsonForm v) :: jsonFields fs

end

mutual

/-- Whether all numbers inside are finite. -/
def isFinite : Value → Bool
  | .double x => x.isFinite
  | .list items => areFinite items
  | .object fields => fieldsAreFinite fields
  | _ => true

def areFinite : List Value → Bool
  | [] => true
  | v :: vs => isFinite v && areFinite vs

def fieldsAreFinite : List (String × Value) → Bool
  | [] => true
  | (_, v) :: fs => isFinite v && fieldsAreFinite fs

end

mutual

theorem jsonForm_jsonForm (v : Value) : v.jsonForm.jsonForm = v.jsonForm := by
  cases v with
  | double x => by_cases h : x.isFinite <;> simp [jsonForm, h]
  | list items => simp [jsonForm, jsonItems_jsonItems items]
  | object fields => simp [jsonForm, jsonFields_jsonFields fields]
  | _ => simp [jsonForm]

theorem jsonItems_jsonItems (items : List Value) : jsonItems (jsonItems items) = jsonItems items := by
  cases items with
  | nil => simp [jsonItems]
  | cons v vs => simp [jsonItems, jsonForm_jsonForm v, jsonItems_jsonItems vs]

theorem jsonFields_jsonFields (fields : List (String × Value)) :
    jsonFields (jsonFields fields) = jsonFields fields := by
  cases fields with
  | nil => simp [jsonFields]
  | cons f fs => simp [jsonFields, jsonForm_jsonForm f.2, jsonFields_jsonFields fs]

end

mutual

theorem isFinite_jsonForm (v : Value) : v.jsonForm.isFinite = true := by
  cases v with
  | double x => by_cases h : x.isFinite <;> simp [jsonForm, isFinite, h]
  | list items => simp [jsonForm, isFinite, areFinite_jsonItems items]
  | object fields => simp [jsonForm, isFinite, fieldsAreFinite_jsonFields fields]
  | _ => simp [jsonForm, isFinite]

theorem areFinite_jsonItems (items : List Value) : areFinite (jsonItems items) = true := by
  cases items with
  | nil => simp [jsonItems, areFinite]
  | cons v vs => simp [jsonItems, areFinite, isFinite_jsonForm v, areFinite_jsonItems vs]

theorem fieldsAreFinite_jsonFields (fields : List (String × Value)) :
    fieldsAreFinite (jsonFields fields) = true := by
  cases fields with
  | nil => simp [jsonFields, fieldsAreFinite]
  | cons f fs =>
    simp [jsonFields, fieldsAreFinite, isFinite_jsonForm f.2, fieldsAreFinite_jsonFields fs]

end

end Value

end ChangeRules
