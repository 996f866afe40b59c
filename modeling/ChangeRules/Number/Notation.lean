import ChangeRules.Number.Shortest

/-!
# Written doubles

A layout says when a double is written positionally and when with an exponent.

* `Double.text`: the shortest digits that read back, positional from `10⁻⁴` up to `10¹⁶`, a whole
  number marked by `.0`.
* `Double.brief`: six significant digits, positional from `10⁻⁴` up to `10⁶`, no trailing zeros.
-/

namespace ChangeRules

/-- When positional notation is used, and whether a whole number keeps its point. -/
structure Layout where
  /-- The least exponent of the leading digit that is written positionally. -/
  least : Int
  /-- The greatest one. -/
  greatest : Int
  /-- `.0` follows a whole number in positional notation. -/
  keepsPoint : Bool

namespace Layout

/-- The decimal digits of a number, leading digit first. -/
def digitsOf (n : Nat) : List Char := Nat.toDigits 10 n

/-- Digits without the zeros at their end. -/
def dropTrailingZeros (ds : List Char) : List Char :=
  (ds.reverse.dropWhile (· == '0')).reverse

/-- An exponent with its sign and at least two digits. -/
def exponentText (e : Int) : List Char :=
  let ds := digitsOf e.natAbs
  'e' :: (if e < 0 then '-' else '+') :: (if ds.length < 2 then '0' :: ds else ds)

/-- Digits with the point behind the leading digit's place `lead`, for `0 ≤ lead`, or zeros before
them. -/
def positional (keepsPoint : Bool) (ds : List Char) (lead : Int) : List Char :=
  if lead < 0 then
    '0' :: '.' :: List.replicate (-lead - 1).toNat '0' ++ ds
  else
    let whole := lead.toNat + 1
    let front := ds.take whole ++ List.replicate (whole - ds.length) '0'
    let back := ds.drop whole
    if back.isEmpty then front ++ (if keepsPoint then ['.', '0'] else []) else front ++ '.' :: back

/-- A positive decimal with nonzero last digit, written out. No digits stand for zero. -/
def write (layout : Layout) (ds : List Char) (lead : Int) : List Char :=
  if layout.least ≤ lead ∧ lead ≤ layout.greatest then positional layout.keepsPoint ds lead
  else match ds with
    | [] => ['0']
    | [d] => d :: exponentText lead
    | d :: rest => d :: '.' :: rest ++ exponentText lead

end Layout

namespace Double

/-- The layout of a double among other values. -/
def plainLayout : Layout := ⟨-4, 15, true⟩

/-- The layout of a duration in a sentence. -/
def briefLayout : Layout := ⟨-4, 5, false⟩

/-- A double by its digits and the exponent of the leading one, given for its magnitude. -/
def written (layout : Layout) (digits : Nat → List Char × Int) (x : Double) : String :=
  match x with
  | .nan => "nan"
  | .infinity negative => if negative then "-inf" else "inf"
  | x =>
    let body :=
      if x.isZero then (if layout.keepsPoint then ['0', '.', '0'] else ['0'])
      else
        let (ds, lead) := digits x.magnitude
        layout.write ds lead
    String.ofList (if x.isNegative then '-' :: body else body)

/-- The shortest digits of a magnitude and the exponent of the leading one. -/
def shortestDigits (units : Nat) : List Char × Int :=
  let d := shortest units
  let ds := Layout.digitsOf d.digits
  (Layout.dropTrailingZeros ds, d.exponent + ds.length - 1)

/-- Six significant digits of a magnitude, zeros at the end dropped, and the exponent of the leading
one. -/
def sixDigits (units : Nat) : List Char × Int :=
  let (num, den) := decimalUnits ⟨1, leadingExponent units - 5⟩
  let ds := Layout.digitsOf (roundHalfEven (units * den) num)
  (Layout.dropTrailingZeros ds, leadingExponent units - 5 + ds.length - 1)

/-- The text of a double. -/
def text (x : Double) : String := x.written plainLayout shortestDigits

/-- The text of a double at six significant digits. -/
def brief (x : Double) : String := x.written briefLayout sixDigits

end Double

end ChangeRules
