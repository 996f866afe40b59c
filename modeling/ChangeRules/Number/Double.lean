/-!
# Double-precision numbers, exactly

A finite double is a whole multiple of `2⁻¹⁰⁷⁴`, the least positive one, so it is kept as that
multiple: order and equality of finite doubles are those of integers, and an operation is the exact
result rounded once. Negative zero, the infinities and the undefined number stand beside them.

* `roundHalfEven`: the whole number nearest to a quotient, a tie going to the even one.
* `Double.ofUnits`: the double nearest to a quotient of units, at 53 significant bits.
* `Double.compare?`: the order, undefined exactly beside `nan` (**`compare?_eq_none_iff`**).
* **`compare?_swap`**: turning the operands round turns the order round.
-/

namespace ChangeRules

/-- The whole number nearest to `num / den`; a tie goes to the even neighbour. -/
def roundHalfEven (num den : Nat) : Nat :=
  let q := num / den
  let r := num % den
  if 2 * r < den then q
  else if den < 2 * r then q + 1
  else if q % 2 = 0 then q else q + 1

/-- A double-precision number. -/
inductive Double where
  /-- `units · 2⁻¹⁰⁷⁴`. -/
  | finite (units : Int)
  | negZero
  | infinity (negative : Bool)
  | nan
  deriving DecidableEq, Inhabited

namespace Double

/-! ## Rounding to a double -/

/-- How many units make one. -/
def unitsPerOne : Nat := Nat.pow 2 1074

/-- The first magnitude, in units, that is too large for a finite double. -/
def overflowUnits : Nat := Nat.pow 2 2098

/-- The nearest whole number of units with at most 53 significant bits. -/
def roundUnits (num den : Nat) : Nat :=
  let bits := (num / den).log2 + 1
  if bits ≤ 53 then roundHalfEven num den
  else
    let step := Nat.pow 2 (bits - 53)
    roundHalfEven num (den * step) * step

/-- The double nearest to `± num / den` units. -/
def ofUnits (negative : Bool) (num den : Nat) : Double :=
  let units := roundUnits num den
  if overflowUnits ≤ units then .infinity negative
  else if units = 0 then (if negative then .negZero else .finite 0)
  else .finite (if negative then -units else units)

/-- The double nearest to `± num / den`. -/
def ofRatio (negative : Bool) (num den : Nat) : Double :=
  ofUnits negative (num * unitsPerOne) den

/-- The double nearest to an integer. -/
def ofInt (n : Int) : Double :=
  ofRatio (n < 0) n.natAbs 1

/-- Positive zero. -/
def zero : Double := .finite 0

/-- The double nearest to `± digits · 10 ^ exponent`. Exponents far outside the range of doubles are
settled without raising ten to them. -/
def ofDecimal (negative : Bool) (digits : Nat) (exponent : Int) : Double :=
  if digits = 0 then (if negative then .negZero else .zero)
  else if 4000 < exponent then .infinity negative
  else if exponent + digits.log2 < -4000 then (if negative then .negZero else .zero)
  else if 0 ≤ exponent then ofRatio negative (digits * Nat.pow 10 exponent.toNat) 1
  else ofRatio negative digits (Nat.pow 10 (-exponent).toNat)

/-! ## Parts and signs -/

/-- The exact value in units, if finite. -/
def units? : Double → Option Int
  | .finite u => some u
  | .negZero => some 0
  | _ => none

/-- The magnitude in units; zero when there is none. -/
def magnitude (x : Double) : Nat :=
  (x.units?.getD 0).natAbs

/-- Whether a minus sign is written before it. -/
def isNegative : Double → Bool
  | .finite u => u < 0
  | .negZero => true
  | .infinity negative => negative
  | .nan => false

def isFinite (x : Double) : Bool := x.units?.isSome

def isZero (x : Double) : Bool := x.units? == some 0

def neg : Double → Double
  | .finite u => if u = 0 then .negZero else .finite (-u)
  | .negZero => .zero
  | .infinity negative => .infinity !negative
  | .nan => .nan

/-! ## Order -/

/-- The place on the line of doubles: infinities lie just beyond the finite ones. -/
def position? : Double → Option Int
  | .finite u => some u
  | .negZero => some 0
  | .infinity negative => some (if negative then -(overflowUnits : Int) else overflowUnits)
  | .nan => none

/-- The order of two doubles; there is none beside `nan`. -/
def compare? (x y : Double) : Option Ordering :=
  match x.position?, y.position? with
  | some a, some b => some (compare a b)
  | _, _ => none

/-- Numerical equality: the two zeros are equal, `nan` equals nothing. -/
def same (x y : Double) : Bool := x.compare? y == some .eq

def lt (x y : Double) : Bool := x.compare? y == some .lt

def le (x y : Double) : Bool := x.lt y || x.same y

theorem position?_eq_none_iff {x : Double} : x.position? = none ↔ x = .nan := by
  cases x with
  | nan => exact iff_of_true rfl rfl
  | _ => exact iff_of_false (fun h => Option.some_ne_none _ h) (fun h => Double.noConfusion h)

theorem compare?_eq_none_iff {x y : Double} : x.compare? y = none ↔ x = .nan ∨ y = .nan := by
  rw [← position?_eq_none_iff, ← position?_eq_none_iff]
  unfold compare?
  cases x.position? <;> cases y.position? <;> simp

theorem compare?_swap (x y : Double) : y.compare? x = (x.compare? y).map Ordering.swap := by
  unfold compare?
  cases hx : x.position? <;> cases hy : y.position? <;> simp [Int.compare_swap]

/-! ## Arithmetic -/

/-- The double nearest to the exact sum. -/
def add : Double → Double → Double
  | .nan, _ => .nan
  | _, .nan => .nan
  | .infinity s, .infinity t => if s = t then .infinity s else .nan
  | .infinity s, _ => .infinity s
  | _, .infinity s => .infinity s
  | .negZero, .negZero => .negZero
  | x, y =>
    let sum := x.units?.getD 0 + y.units?.getD 0
    ofUnits (sum < 0) sum.natAbs 1

def sub (x y : Double) : Double := x.add y.neg

/-- The double nearest to the exact product. -/
def mul : Double → Double → Double
  | .nan, _ => .nan
  | _, .nan => .nan
  | .infinity s, y => if y.isZero then .nan else .infinity (s != y.isNegative)
  | x, .infinity s => if x.isZero then .nan else .infinity (s != x.isNegative)
  | x, y => ofUnits (x.isNegative != y.isNegative) (x.magnitude * y.magnitude) unitsPerOne

/-- The double nearest to the exact quotient. -/
def div : Double → Double → Double
  | .nan, _ => .nan
  | _, .nan => .nan
  | .infinity _, .infinity _ => .nan
  | .infinity s, y => .infinity (s != y.isNegative)
  | x, .infinity s => if s != x.isNegative then .negZero else .zero
  | x, y =>
    if y.isZero then (if x.isZero then .nan else .infinity (x.isNegative != y.isNegative))
    else ofRatio (x.isNegative != y.isNegative) x.magnitude y.magnitude

/-- The least of two, the first one when they are not ordered. -/
def min (x y : Double) : Double := if y.lt x then y else x

/-- The greatest of two, the first one when they are not ordered. -/
def max (x y : Double) : Double := if x.lt y then y else x

/-! ## Rounding to decimal places -/

/-- The double nearest to the value rounded to `places` decimal places; exact ties go to the even
last digit. -/
def roundPlaces (x : Double) (places : Nat) : Double :=
  match x.units? with
  | none => x
  | some _ =>
    let steps := Nat.pow 10 places
    ofRatio x.isNegative (roundHalfEven (x.magnitude * steps) unitsPerOne) steps

/-- The whole part of a finite double, towards zero. -/
def truncate? (x : Double) : Option Int :=
  x.units?.map fun u => u.tdiv unitsPerOne

/-- The integer a double is equal to, if there is one. -/
def toInt? (x : Double) : Option Int :=
  x.units?.bind fun u => if u % unitsPerOne = 0 then some (u / unitsPerOne) else none

end Double

end ChangeRules
