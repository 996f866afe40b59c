import ChangeRules.Number.Double

/-!
# The shortest decimal that reads back

A positive double stands for the interval of real numbers that round to it. `shortest` looks for a
decimal with as few digits as possible in that interval: for one digit, two digits, and so on, the
two neighbours of the value on that decimal grid are tested in exact arithmetic, and of two hits
the nearer one is taken.

* `Double.Interval.holds`: whether a decimal rounds to the double.
* **`shortest_holds`**: what `shortest` gives by way of a grid lies in the interval.
-/

namespace ChangeRules

/-- `digits · 10 ^ exponent`. -/
structure Decimal where
  digits : Nat
  exponent : Int
  deriving DecidableEq, Inhabited

namespace Double

/-- Numerator and denominator of `digits · 10 ^ exponent`, in units. -/
def decimalUnits (d : Decimal) : Nat × Nat :=
  if 0 ≤ d.exponent then (d.digits * Nat.pow 10 d.exponent.toNat * unitsPerOne, 1)
  else (d.digits * unitsPerOne, Nat.pow 10 (-d.exponent).toNat)

/-- The numbers that round to a positive double, in quarters of a unit. -/
structure Interval where
  low : Nat
  high : Nat
  /-- The ends belong to it. -/
  closed : Bool

/-- The interval of the positive double of `units` units. Just above a power of two the gap below is
half the gap above; the ends round to the double iff its last significant bit is even. -/
def interval (units : Nat) : Interval :=
  let shift := units.log2 + 1 - 53
  let gap := Nat.pow 2 shift
  let narrow := 0 < shift && units == Nat.pow 2 units.log2
  { low := 4 * units - (if narrow then gap else 2 * gap)
    high := 4 * units + 2 * gap
    closed := units / gap % 2 == 0 }

/-- Whether a decimal lies in the interval. -/
def Interval.holds (i : Interval) (d : Decimal) : Bool :=
  let (num, den) := decimalUnits d
  if i.closed then i.low * den ≤ 4 * num && 4 * num ≤ i.high * den
  else i.low * den < 4 * num && 4 * num < i.high * den

/-- Whether `10 ^ exponent` is at most the double of `units` units. -/
def reaches (units : Nat) (exponent : Int) : Bool :=
  let (num, den) := decimalUnits ⟨1, exponent⟩
  num ≤ units * den

/-- The exponent of the leading decimal digit: an estimate from the binary size, mended by one. -/
def leadingExponent (units : Nat) : Int :=
  let estimate := ((units.log2 : Int) - 1074) * 30103 / 100000
  if reaches units (estimate + 1) then estimate + 1
  else if reaches units estimate then estimate
  else estimate - 1

/-- The number of steps of `10 ^ exponent` in the double, rounded down. -/
def stepsBelow (units : Nat) (exponent : Int) : Nat :=
  let (num, den) := decimalUnits ⟨1, exponent⟩
  units * den / num

/-- Whether the lower neighbour on the grid is at most as far from the double as the upper one; at
equal distance the even one counts as nearer. -/
def lowerIsNearer (units : Nat) (lower : Decimal) : Bool :=
  let (num, den) := decimalUnits lower
  let (step, _) := decimalUnits ⟨1, lower.exponent⟩
  let below := units * den - num
  2 * below < step || (2 * below == step && lower.digits % 2 == 0)

/-- The neighbour of the double on the grid of `10 ^ exponent` that rounds to it, the nearer one of
two. -/
def gridPoint? (units : Nat) (exponent : Int) : Option Decimal :=
  let lower : Decimal := ⟨stepsBelow units exponent, exponent⟩
  let upper : Decimal := ⟨lower.digits + 1, exponent⟩
  match (interval units).holds lower, (interval units).holds upper with
  | true, true => some (if lowerIsNearer units lower then lower else upper)
  | true, false => some lower
  | false, true => some upper
  | false, false => none

/-- The shortest decimal that rounds to the positive double of `units` units, the nearest of those. -/
def shortest (units : Nat) : Decimal :=
  let lead := leadingExponent units
  ((List.range 17).findSome? fun n : Nat => gridPoint? units (lead - n)).getD
    ⟨stepsBelow units (lead - 16), lead - 16⟩

theorem gridPoint?_holds {units : Nat} {exponent : Int} {d : Decimal}
    (h : gridPoint? units exponent = some d) : (interval units).holds d = true := by
  simp only [gridPoint?] at h
  split at h
  · split at h <;> simp_all
  all_goals simp_all

/-- A decimal that was found on a grid rounds to the double. -/
theorem shortest_holds {units n : Nat} {d : Decimal} (hn : n < 17)
    (h : gridPoint? units (leadingExponent units - n) = some d) :
    (interval units).holds (shortest units) = true := by
  simp only [shortest]
  cases hf : (List.range 17).findSome? fun n : Nat => gridPoint? units (leadingExponent units - n) with
  | none =>
    rw [List.findSome?_eq_none_iff] at hf
    simp [hf n (List.mem_range.2 hn)] at h
  | some e =>
    obtain ⟨k, -, hk⟩ := List.exists_of_findSome?_eq_some hf
    simpa [hf] using gridPoint?_holds hk

end Double

end ChangeRules
