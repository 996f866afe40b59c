import ChangeRules.Text.Utf

/-!
# Percent escapes

In an address, a percent sign and two hexadecimal digits stand for a byte. A percent sign that two
such digits do not follow stands for itself.

* `Percent.decode`: the text that an escaped one denotes.
-/

namespace ChangeRules

namespace Percent

/-- The value of a hexadecimal digit. -/
def digit? (c : Char) : Option Nat :=
  if '0' ≤ c ∧ c ≤ '9' then some (c.toNat - 48)
  else if 'a' ≤ c ∧ c ≤ 'f' then some (c.toNat - 87)
  else if 'A' ≤ c ∧ c ≤ 'F' then some (c.toNat - 55)
  else none

/-- The byte that two digits at the front denote. -/
def byte? : List Char → Option Nat
  | a :: b :: _ => do
    let x ← digit? a
    let y ← digit? b
    some (x * 16 + y)
  | _ => none

/-- The bytes of a character in UTF-8. -/
def characterBytes (c : Char) : List Nat := (String.utf8EncodeChar c).map (·.toNat)

/-- The bytes that an escaped text denotes. The first `skip` characters belong to an escape. -/
def bytesFrom (skip : Nat) : List Char → List Nat
  | [] => []
  | c :: cs =>
    if 0 < skip then bytesFrom (skip - 1) cs
    else match (if c = '%' then byte? cs else none) with
      | some b => b :: bytesFrom 2 cs
      | none => characterBytes c ++ bytesFrom 0 cs

/-- The bytes that an escaped text denotes. -/
def bytes (cs : List Char) : List Nat := bytesFrom 0 cs

/-- The text that an escaped one denotes; bytes that are no text are replaced. -/
def decode (s : String) : String := String.ofList (Text.decodeLossy (bytes s.toList))

end Percent

end ChangeRules
