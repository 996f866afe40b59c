/-!
# Bytes in base 64

A character stands for six bits; four characters stand for three bytes. At the end there may be
fewer of both.

* `Base64.decode`: the bytes that a text denotes. Characters that stand for no bits are passed over.
-/

namespace ChangeRules

namespace Base64

/-- The six bits of a character. -/
def bits? (c : Char) : Option Nat :=
  if 'A' ≤ c ∧ c ≤ 'Z' then some (c.toNat - 65)
  else if 'a' ≤ c ∧ c ≤ 'z' then some (c.toNat - 71)
  else if '0' ≤ c ∧ c ≤ '9' then some (c.toNat + 4)
  else if c = '+' then some 62
  else if c = '/' then some 63
  else none

/-- The bytes of groups of six bits. -/
def bytesOf : List Nat → List Nat
  | a :: b :: c :: d :: rest =>
    let n := ((a * 64 + b) * 64 + c) * 64 + d
    n / 65536 :: n / 256 % 256 :: n % 256 :: bytesOf rest
  | [a, b, c] =>
    let n := (a * 64 + b) * 64 + c
    [n / 1024, n / 4 % 256]
  | [a, b] => [(a * 64 + b) / 16]
  | _ => []

/-- The bytes that a text denotes. -/
def decode (s : String) : List Nat := bytesOf (s.toList.filterMap bits?)

end Base64

end ChangeRules
