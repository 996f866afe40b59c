import ChangeRules.Number.Notation
import ChangeRules.Text.Digit
import ChangeRules.Text.Quoted
import ChangeRules.Value.Basic

/-!
# The text of a value

A value inside a sentence. A text stands for itself; inside a list or an object, and wherever a
message shows a value, it is quoted.

* `Value.display`: the form inside a sentence.
* `Value.shown`: the form in which texts are quoted, times are spelled out and everything can be told
  apart.
* `Value.isWritable`: whether a value has these forms, in which integers are not written beyond a
  number of digits.

Both forms are given for every value. Conditions meet values of any size and ask `Value.isWritable`
first; messages, addresses and rendered templates are made of values that came out of JSON, where
integers have no more digits than can be written.
-/

namespace ChangeRules

namespace DateTime

/-- The parts of a span of microseconds that are not zero: days, and seconds and microseconds of a
day. -/
def spanShown (micros : Int) : String :=
  let days := micros / microsPerDay
  let rest := micros % microsPerDay
  let parts := [("days", days), ("seconds", rest / microsPerSecond),
    ("microseconds", rest % microsPerSecond)].filter (·.2 != 0)
  let body := ", ".intercalate (parts.map fun p => p.1 ++ "=" ++ toString p.2)
  "datetime.timedelta(" ++ (if body.isEmpty then "0" else body) ++ ")"

/-- A zone spelled out. -/
def zoneShown (offset : Int) : String :=
  if offset = 0 then "datetime.timezone.utc" else "datetime.timezone(" ++ spanShown offset ++ ")"

/-- A time spelled out; seconds and microseconds only as far as they are not zero. -/
def shown (t : DateTime) : String :=
  let fine := if t.microsecond ≠ 0 then [t.second, t.microsecond]
    else if t.second ≠ 0 then [t.second] else []
  let parts := [t.date.year, t.date.month, t.date.day, t.hour, t.minute] ++ fine
  "datetime.datetime(" ++ ", ".intercalate (parts.map toString) ++
    (match t.offset with
      | none => ""
      | some o => ", tzinfo=" ++ zoneShown o) ++ ")"

end DateTime

namespace Value

mutual

/-- A value with texts quoted. -/
def shown : Value → String
  | .null => "None"
  | .bool b => if b then "True" else "False"
  | .int n => toString n
  | .double x => x.text
  | .text s => Text.quoted s
  | .list items => "[" ++ ", ".intercalate (shownItems items) ++ "]"
  | .object fields => "\x7b" ++ ", ".intercalate (shownFields fields) ++ "\x7d"
  | .date d => "datetime.date(" ++ ", ".intercalate ([d.year, d.month, d.day].map toString) ++ ")"
  | .time t => t.shown

def shownItems : List Value → List String
  | [] => []
  | v :: vs => shown v :: shownItems vs

def shownFields : List (String × Value) → List String
  | [] => []
  | (k, v) :: fs => (Text.quoted k ++ ": " ++ shown v) :: shownFields fs

end

mutual

/-- Whether a value can be written: none of its integers has too many digits. -/
def isWritable : Value → Bool
  | .int n => (Nat.toDigits 10 n.natAbs).length ≤ Text.integerDigits
  | .list items => areWritable items
  | .object fields => fieldsWritable fields
  | _ => true

def areWritable : List Value → Bool
  | [] => true
  | v :: vs => isWritable v && areWritable vs

def fieldsWritable : List (String × Value) → Bool
  | [] => true
  | (_, v) :: fs => isWritable v && fieldsWritable fs

end

@[simp]
theorem areWritable_iff {items : List Value} :
    areWritable items = true ↔ ∀ v ∈ items, v.isWritable = true := by
  induction items with
  | nil => simp [areWritable]
  | cons v vs ih => rw [areWritable, Bool.and_eq_true, ih, List.forall_mem_cons]

@[simp]
theorem fieldsWritable_iff {fields : Fields} :
    fieldsWritable fields = true ↔ ∀ f ∈ fields, f.2.isWritable = true := by
  induction fields with
  | nil => simp [fieldsWritable]
  | cons f fs ih => rw [fieldsWritable, Bool.and_eq_true, ih, List.forall_mem_cons]

theorem isWritable_get {fields : Fields} (h : (object fields).isWritable = true) (key : String) :
    (get fields key).isWritable = true := by
  rw [isWritable, fieldsWritable_iff] at h
  unfold get Fields.get?
  cases hv : fields.lookup key with
  | none => rfl
  | some v =>
    obtain ⟨before, behind, rfl, -⟩ := List.lookup_eq_some_iff.mp hv
    exact h (key, v) (List.mem_append_right before List.mem_cons_self)

/-- A value inside a sentence. -/
def display : Value → String
  | .text s => s
  | .date d => d.text
  | .time t => t.spacedText
  | v => shown v

end Value

end ChangeRules
