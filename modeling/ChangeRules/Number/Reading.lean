import ChangeRules.Number.Double
import ChangeRules.Text.Digit
import ChangeRules.Text.Find

/-!
# Numbers in text

Digits and blanks of any script are accepted, blanks at both ends are skipped, and an underscore
may stand between two digits.

* `readDouble?`: a double, written with or without point and exponent, or by name.
* `readInt`: an integer, of which only so many digits are read.
* `readPlainDouble?`: a double in ASCII with no blanks and underscores.
-/

namespace ChangeRules

open Text

/-- The characters without the underscores between digits; nothing if an underscore stands anywhere
else. -/
def dropUnderscores (behindDigit : Bool) : List Char → Option (List Char)
  | [] => some []
  | c :: cs =>
    if c = '_' then
      if behindDigit && cs.head?.any isAsciiDigit then dropUnderscores false cs else none
    else (dropUnderscores (isAsciiDigit c) cs).map (c :: ·)

/-- The sign in front, true for a minus, and what follows it. -/
def takeSign : List Char → Bool × List Char
  | '+' :: cs => (false, cs)
  | '-' :: cs => (true, cs)
  | cs => (false, cs)

/-- A whole run of ASCII digits, signed, read to the end. -/
def readSigned? (cs : List Char) : Option Int :=
  let (negative, digits) := takeSign cs
  if digits.isEmpty || !digits.all isAsciiDigit then none
  else some (if negative then -(digitsValue digits : Int) else digitsValue digits)

/-- The exponent behind a number: none at all, or a marker with a signed run of digits. -/
def readExponent? : List Char → Option Int
  | [] => some 0
  | c :: cs => if c = 'e' || c = 'E' then readSigned? cs else none

/-- An unsigned number: digits with a point anywhere among them or none, and an exponent. -/
def readMagnitude? (cs : List Char) : Option (Nat × Int) :=
  let (whole, rest) := cs.span isAsciiDigit
  let (fraction, rest) := match rest with
    | '.' :: rest => rest.span isAsciiDigit
    | rest => ([], rest)
  if whole.isEmpty && fraction.isEmpty then none
  else (readExponent? rest).map fun exponent =>
    (digitsValue (whole ++ fraction), exponent - fraction.length)

/-- The names of what is no finite number, in small letters. -/
def readNamed? (negative : Bool) (cs : List Char) : Option Double :=
  match String.ofList (cs.map Char.toLower) with
  | "inf" | "infinity" => some (.infinity negative)
  | "nan" => some .nan
  | _ => none

/-- The double that a text in ASCII denotes which holds nothing else. -/
def readPlainDouble? (cs : List Char) : Option Double :=
  let (negative, body) := takeSign cs
  match readNamed? negative body with
  | some x => some x
  | none => (readMagnitude? body).map fun (digits, exponent) =>
      .ofDecimal negative digits exponent

/-- A double in text. -/
def readDouble? (s : String) : Option Double :=
  (dropUnderscores false (trimWhile isAsciiBlank (asciiForm s.toList))).bind readPlainDouble?

/-- Why a text is no integer. -/
inductive IntegerFlaw where
  | malformed
  /-- It has more digits than are read. -/
  | oversized (digits : Nat)
  deriving DecidableEq

/-- An integer in text. Its digits are counted before anything behind them is looked at. -/
def readInt (s : String) : Except IntegerFlaw Int :=
  let (negative, body) := takeSign (trimWhile isAsciiBlank (asciiForm s.toList))
  let (run, behind) := body.span fun c => isAsciiDigit c || c = '_'
  match dropUnderscores false run with
  | none => .error .malformed
  | some digits =>
    if integerDigits < digits.length then .error (.oversized digits.length)
    else if digits.isEmpty || !behind.isEmpty then .error .malformed
    else .ok (if negative then -(digitsValue digits : Int) else digitsValue digits)

end ChangeRules
