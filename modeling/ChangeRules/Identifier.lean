import ChangeRules.Text.Quoted

/-!
# Generated identifiers

Identifiers are numbered and written in the form of random UUIDs, so that no two numbers share a
text.

* `Identifier.text`: the identifier of a number.
* `Identifier.named`: a text in which identifiers are named in the order in which they appear.
-/

namespace ChangeRules

namespace Identifier

/-- The front that all identifiers share. -/
def front : List Char := "5eed0000-0000-4000-8000-".toList

/-- The identifier of a number. -/
def text (n : Nat) : String := String.ofList (front ++ Text.hexDigits 12 n)

/-! ## Names in place of identifiers -/

/-- How many characters an identifier has. -/
def length : Nat := front.length + 12

/-- The name of an identifier that is one of those known, the latest of which comes first. -/
def nameOf (known : List (List Char)) (id : List Char) : List Char :=
  "gen-".toList ++ (toString (known.length - known.idxOf id)).toList

/-- Characters with identifiers named. The first `skip` ones belong to an identifier. -/
def namesFrom (known : List (List Char)) (skip : Nat) : List Char → List Char
  | [] => []
  | c :: cs =>
    if 0 < skip then namesFrom known (skip - 1) cs
    else if c = '5' ∧ front.isPrefixOf (c :: cs) then
      let id := (c :: cs).take length
      let known := if known.contains id then known else id :: known
      nameOf known id ++ namesFrom known (length - 1) cs
    else c :: namesFrom known 0 cs

/-- A text with identifiers named. -/
def named (s : String) : String := String.ofList (namesFrom [] 0 s.toList)

end Identifier

end ChangeRules
