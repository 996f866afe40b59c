import ChangeRules.Text.CaseTable
import ChangeRules.Text.Printable

/-!
# Capitals and small letters

Case is changed letter by letter with the tables of Unicode 14. A capital sigma becomes the closing
small sigma where it ends a word: a cased letter stands before it and none behind it, the ignorable
characters between them passed over.

* `lower`, `upper`: a text in small letters, in capitals.
-/

namespace ChangeRules.Text

/-- The letter a case table gives for a code point. -/
def shiftCase? (ranges : List CaseRange) (n : Nat) : Option Char :=
  (ranges.findSome? (·.shifted? n)).map Char.ofNat

/-- Whether the nearest character that is not passed over has case. -/
def nextIsCased (cs : List Char) : Bool :=
  match cs.dropWhile fun c => inRanges caseIgnorableRanges c.toNat with
  | [] => false
  | c :: _ => inRanges casedRanges c.toNat

/-- The small letters of one character between those before it, nearest first, and those behind. -/
def lowerCharacter (before : List Char) (c : Char) (behind : List Char) : List Char :=
  if c.toNat < 128 then [c.toLower]
  else if c.toNat == 0x3A3 then
    [if nextIsCased before && !nextIsCased behind then 'ς' else 'σ']
  else if c.toNat == 0x130 then ['i', Char.ofNat 0x307]
  else [(shiftCase? lowerRanges c.toNat).getD c]

/-- Small letters, given the characters already passed, nearest first. -/
def lowerAfter (before : List Char) : List Char → List Char
  | [] => []
  | c :: cs => lowerCharacter before c cs ++ lowerAfter (c :: before) cs

/-- A text in small letters. -/
def lower (s : String) : String := String.ofList (lowerAfter [] s.toList)

/-- The capitals of one character. -/
def upperCharacter (c : Char) : List Char :=
  if c.toNat < 128 then [c.toUpper]
  else match upperExpansions.lookup c.toNat with
    | some ns => ns.map Char.ofNat
    | none => [(shiftCase? upperRanges c.toNat).getD c]

/-- A text in capitals. -/
def upper (s : String) : String := String.ofList (s.toList.flatMap upperCharacter)

end ChangeRules.Text
