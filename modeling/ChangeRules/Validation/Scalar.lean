import ChangeRules.Number.Mixed
import ChangeRules.Number.Reading
import ChangeRules.Validation.Issue

/-!
# Checking plain values

What a payload may hold where a text, a truth value, a number or a named value is expected. Truth
values and numbers may also be written as texts.

* `Check.text`, `Check.truth`, `Check.number`, `Check.integer`: the plain values.
* `Check.named`: one of several names.
* `Check.required`, `Check.optional`: a field of an object, by any of its names.
-/

namespace ChangeRules

namespace Check

variable {α : Type}

/-! ## Texts and names -/

def text : Value → Check String
  | .text s => .ok s
  | _ => fail .noText

/-- A text with at least one character. -/
def nonemptyText (v : Value) : Check String := do
  let s ← text v
  if s.isEmpty then fail .emptyText else .ok s

/-- Null or something checked. -/
def nullable (check : Value → Check α) : Value → Check (Option α)
  | .null => .ok none
  | v => (check v).map some

def object : Value → Check Fields
  | .object fields => .ok fields
  | _ => fail .noObject

/-- An object whose fields are all texts. -/
def textFields : Fields → Check (List (String × String))
  | [] => .ok []
  | (k, v) :: rest =>
    match pair (under (.field k) (text v)) (textFields rest) with
    | .ok (s, more) => .ok ((k, s) :: more)
    | .error issues => .error issues

def textObject : Value → Check (List (String × String))
  | .object fields => textFields fields
  | _ => fail .noObject

/-- A list of checked items. -/
def list (check : Value → Check α) : Value → Check (List α)
  | .list vs => items check 0 vs
  | _ => fail .noList

/-- One of the named values of a type; `closed` if the names are listed with the field. -/
def named (closed : Bool) (names : List String) (ofName? : String → Option α) (v : Value) : Check α :=
  match v.text?.bind ofName? with
  | some a => .ok a
  | none => fail (.unlisted closed names)

/-! ## Truth values -/

/-- The words for false and for true, in small letters. -/
def falseWords : List String := ["0", "off", "f", "n", "no", "false"]

def trueWords : List String := ["1", "on", "t", "y", "yes", "true"]

/-- The truth value that a word denotes, in small or capital letters. -/
def truthText? (s : String) : Option Bool :=
  let word := String.ofList (s.toList.map Char.toLower)
  if falseWords.contains word then some false
  else if trueWords.contains word then some true
  else none

/-- Whether an integer fits into a word of 64 bits. -/
def fitsWord (n : Int) : Bool := -9223372036854775808 ≤ n && n ≤ 9223372036854775807

/-- The integer that a double is equal to, if it fits into a word. -/
def wordOf? (x : Double) : Option Int := x.toInt?.filter fitsWord

/-- Zero or one as a truth value. -/
def truthNumber (n : Int) : Check Bool :=
  if n = 0 then .ok false else if n = 1 then .ok true else fail .unreadableTruth

/-- A truth value, one of its words, or zero or one. -/
def truth : Value → Check Bool
  | .bool b => .ok b
  | .text s =>
    match truthText? s with
    | some b => .ok b
    | none => fail .unreadableTruth
  | .int n => if fitsWord n then truthNumber n else fail .noTruth
  | .double x =>
    match wordOf? x with
    | some n => truthNumber n
    | none => fail .noTruth
  | _ => fail .noTruth

/-! ## Numbers -/

/-- White space; the information separators are none here. -/
def isSpace (c : Char) : Bool := Text.isBlank c && !(28 ≤ c.toNat && c.toNat ≤ 31)

/-- A text without the white space around it. -/
def trimmed (s : String) : List Char := Text.trimWhile isSpace s.toList

/-- Whether two underscores follow each other. -/
def hasUnderscorePair : List Char → Bool
  | '_' :: '_' :: _ => true
  | _ :: cs => hasUnderscorePair cs
  | [] => false

/-- A text without its underscores, which may stand one at a time anywhere but at the ends. -/
def withoutUnderscores? (cs : List Char) : Option (List Char) :=
  if cs.head? == some '_' || cs.getLast? == some '_' || hasUnderscorePair cs then none
  else some (cs.filter (· != '_'))

/-- The double that a text denotes. What stands between white space has no underscores. -/
def readNumber? (s : String) : Option Double :=
  match readPlainDouble? (trimmed s) with
  | some x => some x
  | none => (withoutUnderscores? s.toList).bind readPlainDouble?

/-- A number, also in text. An integer too large for a double is none. -/
def number : Value → Check Double
  | .bool b => .ok (.ofInt (if b then 1 else 0))
  | .int n =>
    match (Number.int n).toDouble with
    | .ok x => .ok x
    | .error _ => fail .noNumber
  | .double x => .ok x
  | .text s =>
    match readNumber? s with
    | some x => .ok x
    | none => fail .unreadableNumber
  | _ => fail .noNumber

/-- A number that is not zero or less. -/
def positive (v : Value) : Check Double := do
  let x ← number v
  if x.le .zero then fail (.notAbove "0") else .ok x

/-- What is left behind the zeros in front, among which underscores may stand: digits, perhaps behind
a minus, or the last zero and a fraction. -/
def behindZeros? (last : Char) : List Char → Option (List Char)
  | [] => some [last]
  | c :: cs =>
    if c = '0' || c = '_' then behindZeros? c cs
    else if Text.isAsciiDigit c || c = '-' then some (c :: cs)
    else if c = '.' then some (last :: c :: cs)
    else none

/-- An integer's text without zeros in front. -/
def withoutZeros? : List Char → Option (List Char)
  | [] => none
  | c :: cs =>
    if c = '0' then behindZeros? c cs
    else if Text.isAsciiDigit c || c = '-' then some (c :: cs)
    else none

/-- An integer's text without a fraction that consists of zeros. -/
def withoutZeroFraction (cs : List Char) : List Char :=
  let whole := cs.takeWhile (· != '.')
  let zeros := cs.drop (whole.length + 1)
  if zeros.isEmpty || !zeros.all (· == '0') then cs else whole

/-- An integer's text in its plain form: a plus and zeros in front, a fraction of zeros and
underscores are left out. -/
def plainInteger? (cs : List Char) : Option (List Char) :=
  (withoutZeros? (match cs with
    | '+' :: '-' :: _ => []
    | '+' :: rest => rest
    | cs => cs)).map fun cs =>
      let cs := withoutZeroFraction cs
      (withoutUnderscores? cs).getD cs

/-- The integer that a plain text denotes, in which no zero stands in front of other digits. A minus
counts as a digit. -/
def readPlainInteger (cs : List Char) : Check Int :=
  let (negative, body) := match cs with
    | '-' :: body => (true, body)
    | cs => (false, cs)
  let digits := body.takeWhile Text.isAsciiDigit
  if digits.isEmpty || (digits.head? == some '0' && digits != ['0']) then fail .unreadableInteger
  else if Text.integerDigits < cs.length - body.length + digits.length then fail .oversizedInteger
  else if digits.length < body.length then fail .unreadableInteger
  else .ok (if negative then -(Text.digitsValue digits : Int) else Text.digitsValue digits)

/-- An integer, also in text. A double has to be integral and to fit into a word. -/
def integer : Value → Check Int
  | .bool b => .ok (if b then 1 else 0)
  | .int n => .ok n
  | .double x =>
    match x.toInt? with
    | some n => if fitsWord n then .ok n else fail .oversizedInteger
    | none => fail (if x.isFinite then .fractionalInteger else .noFinite)
  | .text s =>
    match plainInteger? (trimmed s) with
    | some cs => readPlainInteger cs
    | none => fail .unreadableInteger
  | _ => fail .noInteger

/-- An integer no less than a bound. -/
def atLeast (bound : Int) (n : Int) : Check Int :=
  if n < bound then fail (.below (toString bound)) else .ok n

/-- An integer no greater than a bound. -/
def atMost (bound : Int) (n : Int) : Check Int :=
  if bound < n then fail (.above (toString bound)) else .ok n

/-! ## Fields -/

/-- The first of several names that an object has a field of, with the field. -/
def findField (fields : Fields) : List String → Option (String × Value)
  | [] => none
  | name :: names =>
    match Fields.get? fields name with
    | some v => some (name, v)
    | none => findField fields names

/-- A field that has to be there, under any of its names. -/
def required (fields : Fields) (names : List String) (check : Value → Check α) : Check α :=
  match findField fields names with
  | some (name, v) => under (.field name) (check v)
  | none => under (.field (names.headD "")) (fail .missing)

/-- A field that may be left out. -/
def optional (fields : Fields) (names : List String) (default : α) (check : Value → Check α) :
    Check α :=
  match findField fields names with
  | some (name, v) => under (.field name) (check v)
  | none => .ok default

/-- A model that only objects can be read as. -/
def model (name : String) (check : Fields → Check α) : Value → Check α
  | .object fields => check fields
  | _ => fail (.noModel name)

theorem required_of_findField_eq_none {fields : Fields} {names : List String}
    {check : Value → Check α} (h : findField fields names = none) :
    required fields names check = .error [⟨[.field (names.headD "")], .missing⟩] := by
  simp [required, h, fail, under, Issue.under]

theorem optional_of_findField_eq_none {fields : Fields} {names : List String} {default : α}
    {check : Value → Check α} (h : findField fields names = none) :
    optional fields names default check = .ok default := by
  simp [optional, h]

end Check

end ChangeRules
