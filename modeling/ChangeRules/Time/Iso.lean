import ChangeRules.Text.Digit
import ChangeRules.Time.DateTime

/-!
# Reading dates and times

The standard notations for a date (year, month and day, or year, week and weekday, with hyphens or
without), one character of any kind between date and time, a time of day down to the microsecond,
and the distance from UTC.

The text is read as the row of its UTF-8 bytes; a reader behind the end sees the character `\0`.

* `DateTime.ofIso?`: the time that a text denotes.
-/

namespace ChangeRules

open Text

namespace Iso

/-- The bytes of a text in UTF-8, each as the character of that code. -/
def bytesOf (s : String) : List Char :=
  s.toUTF8.toList.map fun b => Char.ofNat b.toNat

/-- The character at the front, `\0` at the end. -/
def front (cs : List Char) : Char := cs.headD '\x00'

/-- `n` digits and what follows them. -/
def digits? (n : Nat) (cs : List Char) : Option (Nat × List Char) :=
  let ds := cs.take n
  if ds.length = n ∧ ds.all isAsciiDigit then some (digitsValue ds, cs.drop n) else none

/-! ## Dates -/

/-- Where the date ends. A week date without hyphens may have a weekday or none: the time behind it
is written in pairs of digits, which tells the two apart. -/
def dateLength? (cs : List Char) : Option Nat :=
  let n := cs.length
  let char := fun i => cs[i]?.getD '\x00'
  if n < 7 then none
  else if n = 7 then some 7
  else if char 4 = '-' then
    if char 5 = 'W' then
      if 8 < n ∧ char 8 = '-' then
        if n = 9 then none
        else if 10 < n ∧ isAsciiDigit (char 10) then some 8
        else some 10
      else some 8
    else some 10
  else if char 4 = 'W' then
    let run := 7 + ((cs.drop 7).takeWhile isAsciiDigit).length
    if run < 9 then some run else if run % 2 = 0 then some 7 else some 8
  else some 8

/-- Skip a hyphen, if dates are written with hyphens here. -/
def skipHyphen? (hyphens : Bool) (cs : List Char) : Option (List Char) :=
  if !hyphens then some cs else if front cs = '-' then some cs.tail else none

/-- The date at the front of a text, where it is known to take `length` characters. -/
def date? (length : Nat) (cs : List Char) : Option Date := do
  let (year, rest) ← digits? 4 cs
  let hyphens := front rest == '-'
  let rest := if hyphens then rest.tail else rest
  if front rest = 'W' then
    let (week, rest) ← digits? 2 rest.tail
    let done := cs.length - rest.length
    let day ← if done < length then do
        let rest ← skipHyphen? hyphens rest
        let (day, _) ← digits? 1 rest
        pure day
      else pure 1
    Date.ofWeek? year week day
  else
    let (month, rest) ← digits? 2 rest
    let rest ← skipHyphen? hyphens rest
    let (day, _) ← digits? 2 rest
    Date.of? year month day

/-! ## Times of day -/

/-- Hours, minutes, seconds and microseconds as they were read. -/
structure Clock where
  hour : Nat
  minute : Nat
  second : Nat
  micro : Nat

/-- The parts of a second behind the point, cut to six digits. `before` counts the characters up to
the end of the clock. Nothing but digits may follow. -/
def fraction? (before : Nat) (cs : List Char) : Option (Nat × Bool) := do
  let n := Nat.min before 6
  let (value, rest) ← digits? n cs
  let rest := rest.dropWhile isAsciiDigit
  some (value * Nat.pow 10 (6 - n), front rest != '\x00')

/-- The two-digit parts of a clock from part `index` on, collected in `parts`. `before` counts the
characters up to the end of the clock. The flag tells that more text follows. -/
def parts? (colons : Bool) (parts : List Nat) : (index before : Nat) → List Char →
    Option (List Nat × Nat × Bool)
  | 0, before, cs => do
    let (micro, more) ← fraction? before cs
    some (parts, micro, more)
  | index + 1, before, cs => do
    let (value, rest) ← digits? 2 cs
    let parts := parts ++ [value]
    let c := front rest
    let colons := if parts.length = 1 then c == ':' else colons
    if before ≤ 3 then some (parts, 0, c != '\x00')
    else if colons && c == ':' then parts? colons parts index (before - 3) rest.tail
    else if c == '.' || c == ',' then do
      let (micro, more) ← fraction? (before - 3) rest.tail
      some (parts, micro, more)
    else if !colons then parts? colons parts index (before - 2) rest
    else none

/-- A clock of `length` characters at the front of a text, and whether more text follows it. -/
def clock? (length : Nat) (cs : List Char) : Option (Clock × Bool) := do
  let (parts, micro, more) ← parts? false [] 3 length cs
  some (⟨parts[0]?.getD 0, parts[1]?.getD 0, parts[2]?.getD 0, micro⟩, more)

/-- Whether a character starts the distance from UTC. -/
def startsZone (c : Char) : Bool := c == '+' || c == '-' || c == 'Z'

/-- The distance from UTC that a text denotes: strictly less than a day. A distance below a second
counts as none. -/
def offset? (cs : List Char) : Option Int := do
  match cs with
  | 'Z' :: rest => if front rest = '\x00' then some 0 else none
  | sign :: rest =>
    let (c, more) ← clock? rest.length rest
    if more then none
    else
      let seconds := c.hour * 3600 + c.minute * 60 + c.second
      let micros := seconds * microsPerSecond + c.micro
      if seconds = 0 then some 0
      else if micros < microsPerDay then some (if sign = '-' then -(micros : Int) else micros)
      else none
  | [] => none

/-- A time of day with or without a distance from UTC. -/
def time? (cs : List Char) : Option (Clock × Option Int) := do
  let length := (cs.takeWhile (!startsZone ·)).length
  let (clock, more) ← clock? (Nat.max length 1) cs
  match cs.drop length with
  | [] => if more then none else some (clock, none)
  | zone => (offset? zone).map fun o => (clock, some o)

/-- The bytes behind the character that stands between date and time. -/
def skipSeparator (cs : List Char) : List Char :=
  match cs with
  | [] => []
  | c :: rest =>
    let lead := c.toNat
    if lead < 0x80 then rest
    else if lead / 16 = 0xE then rest.drop 2
    else if lead / 16 = 0xF then rest.drop 3
    else rest.drop 1

end Iso

/-- The time that a text denotes. -/
def DateTime.ofIso? (s : String) : Option DateTime := do
  let cs := Iso.bytesOf s
  let length ← Iso.dateLength? cs
  let date ← Iso.date? length cs
  let rest := cs.drop length
  if rest.isEmpty then some ⟨date, 0, none⟩
  else
    let (clock, offset) ← Iso.time? (Iso.skipSeparator rest)
    let micros ← DateTime.timeOfDay? clock.hour clock.minute clock.second clock.micro
    some ⟨date, micros, offset⟩

/-- The day that a text denotes, in the form with hyphens. -/
def Date.ofIso? (s : String) : Option Date := do
  let cs := s.toList
  if cs.length = 10 then Iso.date? 10 cs else none

end ChangeRules
