import ChangeRules.Number.Double

/-!
# Numbers of two kinds

A number is an integer of any size or a double. Integers stay integers as long as an operation on
them yields one; beside a double they are turned into one first, which fails for those too large.

* `Number.mul`, `Number.add`, `Number.power`: arithmetic, or what stands against it.
* `Number.compare?`: the exact order of two numbers.
* `Double.power`: a double raised to an integer, the exact power rounded once.
-/

namespace ChangeRules

/-- What stands against an operation on numbers. -/
inductive ArithmeticFlaw where
  | integerTooLarge
  | powerTooLarge
  | zeroToNegativePower
  | infinityToInteger
  | undefinedToInteger
  deriving DecidableEq

namespace ArithmeticFlaw

def message : ArithmeticFlaw → String
  | .integerTooLarge => "int too large to convert to float"
  | .powerTooLarge => "(34, 'Numerical result out of range')"
  | .zeroToNegativePower => "0.0 cannot be raised to a negative power"
  | .infinityToInteger => "cannot convert float infinity to integer"
  | .undefinedToInteger => "cannot convert float NaN to integer"

end ArithmeticFlaw

namespace Double

/-! ## Powers -/

/-- The double nearest to the power of `± num / den`. Powers far outside the range of doubles are
settled by the size of the 64th power and not multiplied out. -/
def ratioPower (negative : Bool) (num den n : Nat) : Double :=
  let above : Int := (Nat.pow num 64).log2
  let below : Int := (Nat.pow den 64).log2
  let times : Int := n / 64
  if 4000 < times * (above - below - 1) then .infinity negative
  else if 4000 < times * (below - above - 1) then (if negative then .negZero else .zero)
  else if num = den then ofRatio negative 1 1
  else ofRatio negative (Nat.pow num n) (Nat.pow den n)

/-- A double raised to an integer that is a double. -/
def powerOfDouble (x : Double) (n : Int) : Except ArithmeticFlaw Double :=
  let negative := x.isNegative && n % 2 == 1
  if n = 0 then .ok (ofInt 1)
  else match x with
    | .nan => .ok .nan
    | .infinity _ =>
      .ok (if 0 < n then .infinity negative else if negative then .negZero else .zero)
    | x =>
      if x.isZero then
        if n < 0 then .error .zeroToNegativePower
        else .ok (if negative then .negZero else .zero)
      else
        let shared := Nat.gcd x.magnitude unitsPerOne
        let num := x.magnitude / shared
        let den := unitsPerOne / shared
        let p := if 0 < n then ratioPower negative num den n.natAbs
          else ratioPower negative den num n.natAbs
        if p.isFinite then .ok p else .error .powerTooLarge

/-- A double raised to an integer, which is rounded to a double first. -/
def power (x : Double) (n : Int) : Except ArithmeticFlaw Double :=
  match (ofInt n).truncate? with
  | some n => x.powerOfDouble n
  | none => .error .integerTooLarge

/-! ## Integers -/

/-- The double nearest to the quotient of two integers. -/
def quotient (m n : Int) : Double := ofRatio (decide (m < 0) != decide (n < 0)) m.natAbs n.natAbs

/-- A rounded number, unless it was too large. -/
def unlessInfinite : Double → Except ArithmeticFlaw Double
  | .infinity _ => .error .integerTooLarge
  | x => .ok x

/-- The whole part of a double, towards zero. -/
def toInteger (x : Double) : Except ArithmeticFlaw Int :=
  match x with
  | .nan => .error .undefinedToInteger
  | .infinity _ => .error .infinityToInteger
  | x => .ok (x.truncate?.getD 0)

end Double

/-- An integer of any size or a double. -/
inductive Number where
  | int (n : Int)
  | double (x : Double)
  deriving DecidableEq, Inhabited

namespace Number

/-- The double nearest to a number, unless an integer is too large. -/
def toDouble : Number → Except ArithmeticFlaw Double
  | .int n => (Double.ofInt n).unlessInfinite
  | .double x => .ok x

/-- An operation on two numbers, by that on integers or that on doubles. -/
def combine (onInts : Int → Int → Int) (onDoubles : Double → Double → Double) (a b : Number) :
    Except ArithmeticFlaw Number :=
  match a, b with
  | .int m, .int n => .ok (.int (onInts m n))
  | a, b => do
    let x ← a.toDouble
    let y ← b.toDouble
    .ok (.double (onDoubles x y))

def add : Number → Number → Except ArithmeticFlaw Number := combine (· + ·) Double.add

def mul : Number → Number → Except ArithmeticFlaw Number := combine (· * ·) Double.mul

/-- A number divided by a count. -/
def dividedBy (count : Nat) : Number → Double
  | .int n => Double.quotient n count
  | .double x => x.div (.ofInt count)

/-- A number raised to an integer: an integer as long as the exponent is not negative. -/
def power (a : Number) (n : Int) : Except ArithmeticFlaw Number :=
  match a with
  | .int m =>
    if 0 ≤ n then .ok (.int (Int.pow m n.toNat))
    else do
      let x ← (Number.int m).toDouble
      (x.power n).map .double
  | .double x => (x.power n).map .double

/-- The exact order of two numbers; there is none beside the undefined one. -/
def compare? (a b : Number) : Option Ordering :=
  match a, b with
  | .int m, .int n => some (compare m n)
  | .double x, .double y => x.compare? y
  | .int m, .double y => integerToDouble m y
  | .double x, .int n => (integerToDouble n x).map Ordering.swap
where
  integerToDouble (m : Int) (y : Double) : Option Ordering :=
    match y with
    | .nan => none
    | .infinity negative => some (if negative then .gt else .lt)
    | y => some (compare (m * (Double.unitsPerOne : Int)) (y.units?.getD 0))

def lt (a b : Number) : Bool := a.compare? b == some .lt

/-- The least of two, the first one when they are not ordered. -/
def min (a b : Number) : Number := if b.lt a then b else a

/-- The greatest of two, the first one when they are not ordered. -/
def max (a b : Number) : Number := if a.lt b then b else a

end Number

end ChangeRules
