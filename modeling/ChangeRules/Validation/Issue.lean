import ChangeRules.Value.Text

/-!
# Issues of a payload

Checking a payload against a model yields either the model or every issue found, each with the path
to the place where it was found.

* `Issue.message`: the sentence for an issue.
* `Check`: a checked value or the issues against it.
* **`Check.pair_eq_ok`**: two checks pass together when both pass.
-/

namespace ChangeRules

/-- What can be wrong with a part of a payload. -/
inductive Flaw where
  | missing
  | noText
  | noObject
  | noList
  | noTruth
  | unreadableTruth
  | noNumber
  | unreadableNumber
  | noInteger
  | unreadableInteger
  | oversizedInteger
  | fractionalInteger
  | noFinite
  | emptyText
  | emptyObject
  /-- None of the named values; `closed` if they are listed with the field and not a type's own. -/
  | unlisted (closed : Bool) (expected : List String)
  | notAbove (bound : String)
  | below (bound : String)
  | above (bound : String)
  | patternMismatch (pattern : String)
  | noModel (model : String)
  | noFields
  | unknownTag (tag : String) (expected : List String)
  | refused (reason : String)
  | noTime
  | unreadableTime (reason : String)
  | unreadableDate (reason : String)
  | notJson
  deriving DecidableEq

/-- One step of a path. -/
inductive Step where
  | field (name : String)
  | item (index : Nat)
  deriving DecidableEq

/-- A flaw and where it is. -/
structure Issue where
  path : List Step
  flaw : Flaw
  deriving DecidableEq

namespace Step

def text : Step → String
  | .field name => name
  | .item index => toString index

def toValue : Step → Value
  | .field name => .text name
  | .item index => .int index

end Step

namespace Flaw

/-- Quoted alternatives: commas between them, and `or` before the last one. -/
def alternatives : List String → String
  | [] => ""
  | [a] => Text.quoted a
  | [a, b] => Text.quoted a ++ " or " ++ Text.quoted b
  | a :: rest => Text.quoted a ++ ", " ++ alternatives rest

/-- The short name of a flaw. -/
def code : Flaw → String
  | .missing => "missing"
  | .noText => "string_type"
  | .noObject => "dict_type"
  | .noList => "list_type"
  | .noTruth => "bool_type"
  | .unreadableTruth => "bool_parsing"
  | .noNumber => "float_type"
  | .unreadableNumber => "float_parsing"
  | .noInteger => "int_type"
  | .unreadableInteger => "int_parsing"
  | .oversizedInteger => "int_parsing_size"
  | .fractionalInteger => "int_from_float"
  | .noFinite => "finite_number"
  | .emptyText => "string_too_short"
  | .emptyObject => "too_short"
  | .unlisted closed _ => if closed then "literal_error" else "enum"
  | .notAbove _ => "greater_than"
  | .below _ => "greater_than_equal"
  | .above _ => "less_than_equal"
  | .patternMismatch _ => "string_pattern_mismatch"
  | .noModel _ => "model_type"
  | .noFields => "model_attributes_type"
  | .unknownTag _ _ => "union_tag_invalid"
  | .refused _ => "value_error"
  | .noTime => "datetime_type"
  | .unreadableTime _ => "datetime_parsing"
  | .unreadableDate _ => "datetime_from_date_parsing"
  | .notJson => "json_invalid"

/-- The sentence for a flaw. -/
def message : Flaw → String
  | .missing => "Field required"
  | .noText => "Input should be a valid string"
  | .noObject => "Input should be a valid dictionary"
  | .noList => "Input should be a valid list"
  | .noTruth => "Input should be a valid boolean"
  | .unreadableTruth => "Input should be a valid boolean, unable to interpret input"
  | .noNumber => "Input should be a valid number"
  | .unreadableNumber => "Input should be a valid number, unable to parse string as a number"
  | .noInteger => "Input should be a valid integer"
  | .unreadableInteger => "Input should be a valid integer, unable to parse string as an integer"
  | .oversizedInteger => "Unable to parse input string as an integer, exceeded maximum size"
  | .fractionalInteger => "Input should be a valid integer, got a number with a fractional part"
  | .noFinite => "Input should be a finite number"
  | .emptyText => "String should have at least 1 character"
  | .emptyObject => "Dictionary should have at least 1 item after validation, not 0"
  | .unlisted _ expected => "Input should be " ++ alternatives expected
  | .notAbove bound => "Input should be greater than " ++ bound
  | .below bound => "Input should be greater than or equal to " ++ bound
  | .above bound => "Input should be less than or equal to " ++ bound
  | .patternMismatch pattern => "String should match pattern '" ++ pattern ++ "'"
  | .noModel model => "Input should be a valid dictionary or instance of " ++ model
  | .noFields => "Input should be a valid dictionary or object to extract fields from"
  | .unknownTag tag expected =>
    "Input tag '" ++ tag ++
      "' found using 'type' does not match any of the expected tags: " ++
      ", ".intercalate (expected.map fun e => "'" ++ e ++ "'")
  | .refused reason => "Value error, " ++ reason
  | .noTime => "Input should be a valid datetime"
  | .unreadableTime reason => "Input should be a valid datetime, " ++ reason
  | .unreadableDate reason => "Input should be a valid datetime or date, " ++ reason
  | .notJson => "JSON decode error"

end Flaw

namespace Issue

/-- The path with dots between its steps, and the sentence. -/
def summary (i : Issue) : String :=
  ".".intercalate (i.path.map Step.text) ++ ": " ++ i.flaw.message

/-- An issue as a value. -/
def toValue (i : Issue) : Value :=
  .object [("type", .text i.flaw.code), ("loc", .list (i.path.map Step.toValue)),
    ("msg", .text i.flaw.message)]

/-- The issue seen from one level further out. -/
def under (s : Step) (i : Issue) : Issue := { i with path := s :: i.path }

end Issue

/-! ## Checks -/

/-- A checked value, or the issues against the payload. -/
abbrev Check (α : Type) := Except (List Issue) α

namespace Check

variable {α β γ : Type}

/-- A check that fails at this place. -/
def fail (flaw : Flaw) : Check α := .error [⟨[], flaw⟩]

/-- The same check, seen from one level further out. -/
def under (s : Step) (c : Check α) : Check α :=
  match c with
  | .ok a => .ok a
  | .error issues => .error (issues.map (Issue.under s))

/-- Both checks; the issues of both are kept. -/
def pair (c : Check α) (d : Check β) : Check (α × β) :=
  match c, d with
  | .ok a, .ok b => .ok (a, b)
  | .ok _, .error issues => .error issues
  | .error issues, .ok _ => .error issues
  | .error issues, .error more => .error (issues ++ more)

/-- A function of checks so far and one more argument for it. -/
def also (c : Check α) (f : Check (α → β)) : Check β :=
  match pair f c with
  | .ok (f, a) => .ok (f a)
  | .error issues => .error issues

theorem pair_eq_ok {c : Check α} {d : Check β} {p : α × β} :
    pair c d = .ok p ↔ c = .ok p.1 ∧ d = .ok p.2 := by
  cases c <;> cases d <;> cases p <;> simp [pair]

theorem also_eq_ok {c : Check α} {f : Check (α → β)} {b : β} :
    also c f = .ok b ↔ ∃ g a, f = .ok g ∧ c = .ok a ∧ g a = b := by
  cases f <;> cases c <;> simp [also, pair]

/-- All items of a list, each checked at its place. -/
def items (check : Value → Check α) : (index : Nat) → List Value → Check (List α)
  | _, [] => .ok []
  | index, v :: vs =>
    match pair (under (.item index) (check v)) (items check (index + 1) vs) with
    | .ok (a, as) => .ok (a :: as)
    | .error issues => .error issues

end Check

end ChangeRules
