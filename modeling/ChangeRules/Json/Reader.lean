import ChangeRules.Number.Reading
import ChangeRules.Text.Utf
import ChangeRules.Value.Basic

/-!
# Reading JSON

A reader of JSON texts. An integer literal is an integer, unless it has more digits than integers are
read with; a literal with a point or an exponent is a double; `NaN`, `Infinity` and `-Infinity` are
accepted. Of equal keys in an object the last one wins, in the place of the first one. A text that is
not JSON is refused with the place, counted in characters, where reading stopped. Texts are made of
characters: an escape that is half of a pair and stands alone is read as the replacement character. How
deep lists and objects are nested is not limited.

* `Json.read`: the value of a text.
* `Json.readBytes`: the value of bytes.
-/

namespace ChangeRules

namespace Json

open Text

/-- What is wrong with a text. -/
inductive Flaw where
  | expectedValue
  | expectedName
  | expectedColon
  | expectedComma
  | unterminatedText
  | controlCharacter
  | badEscape
  | badUnicodeEscape
  | extraData
  | byteOrderMark
  | oversizedInteger
  deriving DecidableEq

/-- Where a text stops to be JSON. -/
structure Error where
  flaw : Flaw
  position : Nat

/-- What is left of a text, and the place where that begins. -/
structure Rest where
  chars : List Char
  position : Nat

namespace Rest

/-- The rest behind `n` characters. -/
def skip (r : Rest) (n : Nat) : Rest := ⟨r.chars.drop n, r.position + n⟩

def isSpace (c : Char) : Bool := c == ' ' || c == '\t' || c == '\n' || c == '\r'

/-- The rest behind the blanks at its front. -/
def skipSpaces (r : Rest) : Rest := r.skip (r.chars.takeWhile isSpace).length

end Rest

/-! ## Texts -/

/-- The character that an escape of one letter stands for. -/
def simpleEscape? : Char → Option Char
  | '"' => some '"'
  | '\\' => some '\\'
  | '/' => some '/'
  | 'b' => some '\x08'
  | 'f' => some '\x0c'
  | 'n' => some '\n'
  | 'r' => some '\r'
  | 't' => some '\t'
  | _ => none

def hexValue? (c : Char) : Option Nat :=
  if '0' ≤ c ∧ c ≤ '9' then some (c.toNat - 48)
  else if 'a' ≤ c ∧ c ≤ 'f' then some (c.toNat - 87)
  else if 'A' ≤ c ∧ c ≤ 'F' then some (c.toNat - 55)
  else none

/-- The number of four hexadecimal digits at the front. -/
def hex4? : List Char → Option Nat
  | a :: b :: c :: d :: _ => do
    let a ← hexValue? a
    let b ← hexValue? b
    let c ← hexValue? c
    let d ← hexValue? d
    some (((a * 16 + b) * 16 + c) * 16 + d)
  | _ => none

/-- The code point of a `\u` escape whose digits are at the front, and how many characters it takes:
four, or ten where the escape of the other half of a pair follows. `place` is the place of the digits. -/
def unicodeEscape (place : Nat) (cs : List Char) : Except Error (Nat × Nat) :=
  if cs.length ≤ 4 then .error ⟨.badUnicodeEscape, place - 1⟩
  else match hex4? cs with
    | none => .error ⟨.badUnicodeEscape, place - 1⟩
    | some u =>
      match cs.drop 4 with
      | '\\' :: 'u' :: rest =>
        if 0xD800 ≤ u ∧ u < 0xDC00 ∧ 4 < rest.length then
          match hex4? rest with
          | none => .error ⟨.badUnicodeEscape, place + 5⟩
          | some v =>
            if 0xDC00 ≤ v ∧ v < 0xE000 then
              .ok (0x10000 + (u - 0xD800) * 1024 + (v - 0xDC00), 10)
            else .ok (u, 4)
        else .ok (u, 4)
      | _ => .ok (u, 4)

/-- The characters up to the closing quote. `start` is the place of the opening one; `fuel` bounds
the number of characters. -/
def readChars (start : Nat) : (fuel : Nat) → Rest → Except Error (List Char × Rest)
  | 0, _ => .error ⟨.unterminatedText, start⟩
  | fuel + 1, r =>
    match r.chars with
    | [] => .error ⟨.unterminatedText, start⟩
    | '"' :: _ => .ok ([], r.skip 1)
    | '\\' :: [] => .error ⟨.unterminatedText, start⟩
    | '\\' :: 'u' :: cs => do
      let (n, taken) ← unicodeEscape (r.position + 2) cs
      let (tail, rest) ← readChars start fuel (r.skip (2 + taken))
      .ok (characterOf n :: tail, rest)
    | '\\' :: e :: _ =>
      match simpleEscape? e with
      | none => .error ⟨.badEscape, r.position⟩
      | some c => do
        let (tail, rest) ← readChars start fuel (r.skip 2)
        .ok (c :: tail, rest)
    | c :: _ =>
      if c.toNat < 32 then .error ⟨.controlCharacter, r.position⟩
      else do
        let (tail, rest) ← readChars start fuel (r.skip 1)
        .ok (c :: tail, rest)

/-- A text behind its opening quote. -/
def readText (r : Rest) : Except Error (String × Rest) := do
  let (cs, rest) ← readChars (r.position - 1) (r.chars.length + 1) r
  .ok (String.ofList cs, rest)

/-! ## Numbers -/

/-- The characters of the fraction at the front: a point with at least one digit. -/
def fractionLength : List Char → Nat
  | '.' :: cs =>
    let n := (cs.takeWhile isAsciiDigit).length
    if n = 0 then 0 else n + 1
  | _ => 0

/-- The characters of the exponent at the front: a marker, a sign or none, at least one digit. -/
def exponentLength : List Char → Nat
  | c :: cs =>
    if c = 'e' || c = 'E' then
      let signed := match cs with
        | s :: _ => if s = '+' || s = '-' then 1 else 0
        | [] => 0
      let n := ((cs.drop signed).takeWhile isAsciiDigit).length
      if n = 0 then 0 else 1 + signed + n
    else 0
  | [] => 0

/-- A number. -/
def readNumber (r : Rest) : Except Error (Value × Rest) :=
  let negative := r.chars.head? == some '-'
  let body := if negative then r.chars.tail else r.chars
  let whole := match body with
    | '0' :: _ => 1
    | cs => (cs.takeWhile isAsciiDigit).length
  if whole = 0 then .error ⟨.expectedValue, r.position⟩
  else
    let behind := body.drop whole
    let fraction := fractionLength behind
    let exponent := exponentLength (behind.drop fraction)
    let length := (if negative then 1 else 0) + whole + fraction + exponent
    if fraction + exponent = 0 then
      if integerDigits < whole then .error ⟨.oversizedInteger, r.position⟩
      else
        let n := digitsValue (body.take whole)
        .ok (.int (if negative then -(n : Int) else n), r.skip length)
    else
      let digits := body.take whole ++ (behind.take fraction).drop 1
      let e := (readExponent? ((behind.drop fraction).take exponent)).getD 0
      .ok (.double (.ofDecimal negative (digitsValue digits) (e - (fraction - 1 : Nat))),
        r.skip length)

/-- The values with a name. -/
def names : List (List Char × Value) :=
  [ ("null".toList, .null), ("true".toList, .bool true), ("false".toList, .bool false),
    ("NaN".toList, .double .nan), ("Infinity".toList, .double (.infinity false)),
    ("-Infinity".toList, .double (.infinity true)) ]

/-- A name or a number. -/
def readAtom (r : Rest) : Except Error (Value × Rest) :=
  match names.find? fun n => n.1.isPrefixOf r.chars with
  | some (name, v) => .ok (v, r.skip name.length)
  | none => readNumber r

/-! ## Values -/

mutual

/-- A value at the front. `fuel` bounds the steps; twice the number of characters is enough. -/
def readValue : (fuel : Nat) → Rest → Except Error (Value × Rest)
  | 0, r => .error ⟨.expectedValue, r.position⟩
  | fuel + 1, r =>
    match r.chars with
    | '"' :: _ => do
      let (s, rest) ← readText (r.skip 1)
      .ok (.text s, rest)
    | '[' :: _ =>
      let r := (r.skip 1).skipSpaces
      match r.chars with
      | ']' :: _ => .ok (.list [], r.skip 1)
      | _ => do
        let (items, rest) ← readItems fuel r
        .ok (.list items, rest)
    | '\x7b' :: _ =>
      let r := (r.skip 1).skipSpaces
      match r.chars with
      | '\x7d' :: _ => .ok (.object [], r.skip 1)
      | _ => do
        let (pairs, rest) ← readFields fuel r
        .ok (.object (Fields.ofPairs pairs), rest)
    | _ => readAtom r

/-- The items of a list up to its end. -/
def readItems : (fuel : Nat) → Rest → Except Error (List Value × Rest)
  | 0, r => .error ⟨.expectedValue, r.position⟩
  | fuel + 1, r => do
    let (v, r) ← readValue fuel r
    let r := r.skipSpaces
    match r.chars with
    | ']' :: _ => .ok ([v], r.skip 1)
    | ',' :: _ =>
      let (vs, rest) ← readItems fuel (r.skip 1).skipSpaces
      .ok (v :: vs, rest)
    | _ => .error ⟨.expectedComma, r.position⟩

/-- The fields of an object up to its end. -/
def readFields : (fuel : Nat) → Rest → Except Error (List (String × Value) × Rest)
  | 0, r => .error ⟨.expectedName, r.position⟩
  | fuel + 1, r => do
    if r.chars.head? != some '"' then .error ⟨.expectedName, r.position⟩
    let (key, r) ← readText (r.skip 1)
    let r := r.skipSpaces
    if r.chars.head? != some ':' then .error ⟨.expectedColon, r.position⟩
    let (v, r) ← readValue fuel (r.skip 1).skipSpaces
    let r := r.skipSpaces
    match r.chars with
    | '\x7d' :: _ => .ok ([(key, v)], r.skip 1)
    | ',' :: _ =>
      let (pairs, rest) ← readFields fuel (r.skip 1).skipSpaces
      .ok ((key, v) :: pairs, rest)
    | _ => .error ⟨.expectedComma, r.position⟩

end

/-- The value of a row of characters. -/
def readDocument (cs : List Char) : Except Error Value := do
  let (v, rest) ← readValue (2 * cs.length + 2) (Rest.skipSpaces ⟨cs, 0⟩)
  let rest := rest.skipSpaces
  if rest.chars.isEmpty then .ok v else .error ⟨.extraData, rest.position⟩

/-- The value of a text. A byte order mark in front of it is no part of JSON. -/
def read (s : String) : Except Error Value :=
  let cs := s.toList
  if cs.head? == some (Char.ofNat 0xFEFF) then .error ⟨.byteOrderMark, 0⟩ else readDocument cs

/-- The value of bytes; nothing if they are no text. -/
def readBytes (bytes : List Nat) : Option (Except Error Value) :=
  (decodeBytes? bytes).map readDocument

end Json

end ChangeRules
