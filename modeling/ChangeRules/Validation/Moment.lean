import ChangeRules.Validation.Scalar

/-!
# Checking times

Where a payload tells a time, it is a date and a time of day in text, a day, or seconds since 1970 as
a number or in text; large numbers count milliseconds. A text that is no time is read as a day, and
what is wrong with it as a day is reported.

* `Moment.readTime?`: a date and a time of day.
* `Moment.readDay`: a day, or what is wrong with it.
* `Check.moment`: the time that a value tells.
-/

namespace ChangeRules

open Text

namespace Moment

/-! ## Days -/

def tooLate : String := "dates after 9999 are not supported as unix timestamps"

def tooEarly : String := "dates before 0000 are not supported as unix timestamps"

/-- The year, month and day at the front of a text. -/
structure Day where
  year : Nat
  month : Nat
  day : Nat

/-- `n` digits at the front, and the rest. -/
def digits (n : Nat) (part : String) (cs : List Char) : Except String (Nat × List Char) :=
  let ds := cs.take n
  if ds.length = n ∧ ds.all isAsciiDigit then .ok (digitsValue ds, cs.drop n)
  else .error ("invalid character in " ++ part)

def hyphen : List Char → Except String (List Char)
  | '-' :: cs => .ok cs
  | _ => .error "invalid date separator, expected `-`"

/-- The day at the front of a text, and the rest. The year may be zero here. -/
def readDayFront (cs : List Char) : Except String (Day × List Char) := do
  if (String.ofList cs).utf8ByteSize < 10 then .error "input is too short"
  let (year, cs) ← digits 4 "year" cs
  let cs ← hyphen cs
  let (month, cs) ← digits 2 "month" cs
  let cs ← hyphen cs
  let (day, cs) ← digits 2 "day" cs
  if month < 1 ∨ 12 < month then .error "month value is outside expected range of 1-12"
  if day < 1 ∨ Date.daysInMonth year month < day then
    .error "day value is outside expected range"
  .ok (⟨year, month, day⟩, cs)

/-- A day and nothing else. -/
def readDay (cs : List Char) : Except String Day := do
  let (day, rest) ← readDayFront cs
  if rest.isEmpty then .ok day
  else .error "unexpected extra characters at the end of the input"

/-! ## Times of day -/

/-- Two digits with a value below `bound` at the front, and the rest. -/
def pair? (bound : Nat) (cs : List Char) : Option (Nat × List Char) := do
  let (n, rest) ← (digits 2 "" cs).toOption
  if n < bound then some (n, rest) else none

/-- The microseconds of a fraction at the front, cut to six digits, and the rest. -/
def fraction? (cs : List Char) : Option (Nat × List Char) :=
  let ds := cs.takeWhile isAsciiDigit
  if ds.isEmpty then none
  else
    let six := ds.take 6
    some (digitsValue six * Nat.pow 10 (6 - six.length), cs.drop ds.length)

/-- Seconds in microseconds, if there are any, and the rest. -/
def seconds? (cs : List Char) : Option (Nat × List Char) :=
  match cs with
  | ':' :: cs => do
    let (second, cs) ← pair? 60 cs
    match cs with
    | c :: behind =>
      if c = '.' || c = ',' then
        let (micros, rest) ← fraction? behind
        some (second * microsPerSecond + micros, rest)
      else some (second * microsPerSecond, c :: behind)
    | [] => some (second * microsPerSecond, [])
  | cs => some (0, cs)

/-- The signed distance from UTC in microseconds, if one is given; nothing may follow it. -/
def zone? (cs : List Char) : Option (Option Int) :=
  match cs with
  | [] => some none
  | c :: cs =>
    if c = 'Z' || c = 'z' then (if cs.isEmpty then some (some 0) else none)
    else do
      let sign : Int ← if c = '+' then some 1 else if c = '-' || c = '−' then some (-1) else none
      let (hour, cs) ← pair? 24 cs
      let (minute, cs) ← pair? 60 (match cs with
        | ':' :: cs => cs
        | cs => cs)
      if cs.isEmpty then
        some (some (sign * ((hour * microsPerHour + minute * microsPerMinute : Nat) : Int)))
      else none

/-- A day, a time of day and a zone or none. -/
def readTime? (cs : List Char) : Option (Day × Nat × Option Int) := do
  let (day, cs) ← (readDayFront cs).toOption
  match cs with
  | separator :: cs =>
    if !(['T', 't', ' ', '_'].contains separator) then none
    else
      let (hour, cs) ← pair? 24 cs
      match cs with
      | ':' :: cs =>
        let (minute, cs) ← pair? 60 cs
        let (micros, cs) ← seconds? cs
        let offset ← zone? cs
        some (day, hour * microsPerHour + minute * microsPerMinute + micros, offset)
      | _ => none
  | [] => none

/-! ## Timestamps -/

/-- Beyond this magnitude a timestamp counts milliseconds. -/
def watershed : Int := 20000000000

/-- Microseconds since 1970, unless they are out of range. -/
def inRange (total : Int) : Except String Int :=
  let second := total / microsPerSecond
  if 253402300799 < second then .error tooLate
  else if second < -62167219200 then .error tooEarly
  else .ok total

/-- The microseconds of a whole timestamp, or why they are out of range. -/
def ofWhole (t : Int) : Except String Int :=
  inRange (t * (if t.natAbs ≤ watershed.natAbs then microsPerSecond else 1000 : Nat))

/-- How many microseconds one of what a timestamp counts has. -/
def unitOf (x : Double) : Nat :=
  if (Double.ofInt watershed).lt (if x.isNegative then x.neg else x) then 1000
  else microsPerSecond

/-- The greatest integer not above a finite double. -/
def floor (x : Double) : Int := (x.units?.getD 0) / (Double.unitsPerOne : Int)

/-- A fraction of a unit in whole microseconds, halves rounded up. -/
def fractionMicros (unit : Nat) (fraction : Double) : Nat :=
  let scaled := (fraction.mul (.ofInt unit)).magnitude
  (2 * scaled + Double.unitsPerOne) / (2 * Double.unitsPerOne)

/-- The microseconds of a finite timestamp, whose part beyond the integer below it is given. -/
def ofParts (x fraction : Double) : Except String Int :=
  inRange (floor x * unitOf x + fractionMicros (unitOf x) fraction)

/-- The microseconds of a timestamp. One before 1970 has the same fraction as the one that lies as
far behind. -/
def ofDouble (x : Double) : Except String Int :=
  match x with
  | .nan => .error "NaN values not permitted"
  | .infinity negative => .error (if negative then tooEarly else tooLate)
  | x => ofParts x (.ofUnits false (x.magnitude % Double.unitsPerOne) 1)

/-- A timestamp in text. -/
inductive Timestamp where
  | whole (n : Int)
  | fractional (x : Double)

/-- The timestamp that a text denotes: a sign or none and digits that fit into a word, or a double
with a point and an exponent or none. -/
def readTimestamp? (cs : List Char) : Option Timestamp :=
  let (negative, body) := takeSign cs
  let whole := body.takeWhile isAsciiDigit
  match body.drop whole.length with
  | [] =>
    let n : Int := digitsValue whole
    if whole.isEmpty || !Check.fitsWord n then none
    else some (.whole (if negative then -n else n))
  | '.' :: _ => (readMagnitude? body).map fun (digits, exponent) =>
      .fractional (.ofDecimal negative digits exponent)
  | _ => none

/-- The microseconds of a timestamp in text. -/
def ofReadTimestamp : Timestamp → Except String Int
  | .whole n => ofWhole n
  | .fractional x =>
    if x.isFinite then ofParts x (x.sub (.ofInt (floor x)))
    else .error tooLate

/-! ## Texts -/

/-- What is wrong with a time before the year 1. -/
def yearZero : Flaw := .unreadableTime "year 0 is out of range"

/-- A time from its parts, unless its year is zero. -/
def assemble (d : Day) (micros : Nat) (offset : Option Int) : Check DateTime :=
  match Date.of? d.year d.month d.day with
  | some date => .ok ⟨date, micros, offset⟩
  | none => Check.fail yearZero

/-- A time from its microseconds, unless its year is zero. -/
def ofMicros (total : Int) : Check DateTime :=
  match DateTime.ofUnixMicros? total with
  | some t => .ok t
  | none => Check.fail yearZero

/-- The time that a text tells. -/
def ofText (s : String) : Check DateTime :=
  let cs := s.toList
  match readTime? cs with
  | some (day, micros, offset) => assemble day micros offset
  | none =>
    let stamp := readTimestamp? cs
    match stamp.map ofReadTimestamp with
    | some (.ok total) => ofMicros total
    | late =>
      match readDay cs with
      | .ok day => assemble day 0 none
      | .error reason =>
        Check.fail (.unreadableDate (match late, stamp with
          | some (.error reason), some (.whole _) => reason
          | _, _ => reason))

/-- The time of a timestamp in numbers. -/
def ofNumber (micros : Except String Int) : Check DateTime :=
  match micros with
  | .ok total => ofMicros total
  | .error reason => Check.fail (.unreadableTime reason)

end Moment

/-- The time that a value tells. An integer too large for a double tells none. -/
def Check.moment : Value → Check DateTime
  | .time t => .ok t
  | .date d => .ok (.midnight d)
  | .text s => Moment.ofText s
  | .int n =>
    if fitsWord n then Moment.ofNumber (Moment.ofWhole n)
    else match (Number.int n).toDouble with
      | .ok x => Moment.ofNumber (Moment.ofDouble x)
      | .error _ => fail .noTime
  | .double x => Moment.ofNumber (Moment.ofDouble x)
  | _ => fail .noTime

end ChangeRules
