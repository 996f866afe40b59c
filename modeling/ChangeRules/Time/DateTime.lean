import ChangeRules.Time.Date

/-!
# Dates with a time of day

A time of day to the microsecond on a calendar day, with the distance of its zone from UTC or with
no zone. A time without zone is read as UTC wherever instants are compared.

* `DateTime.toUtc?`: the same instant in UTC, unless it falls off the calendar.
* `DateTime.instant`: the place of an instant on the time line; order is the order of instants.
* `DateTime.text`: date, separator, time and offset, parts of a second only when there are any.
-/

namespace ChangeRules

/-- Microseconds of a second, a minute, an hour and a day. -/
def microsPerSecond : Nat := 1000000

def microsPerMinute : Nat := 60 * microsPerSecond

def microsPerHour : Nat := 60 * microsPerMinute

def microsPerDay : Nat := 24 * microsPerHour

/-- A calendar day, a time of day, and the zone's distance from UTC. -/
structure DateTime where
  date : Date
  /-- Microseconds since midnight. -/
  micros : Nat
  /-- Microseconds by which the zone is ahead of UTC. -/
  offset : Option Int
  deriving DecidableEq, Inhabited

namespace DateTime

/-- Midnight of a day, in no zone. -/
def midnight (d : Date) : DateTime := ⟨d, 0, none⟩

/-- A time of day from its parts, if they are in range. -/
def timeOfDay? (hour minute second micro : Nat) : Option Nat :=
  if hour < 24 ∧ minute < 60 ∧ second < 60 then
    some (hour * microsPerHour + minute * microsPerMinute + second * microsPerSecond + micro)
  else none

def isValid (t : DateTime) : Bool :=
  t.date.isValid && decide (t.micros < microsPerDay)

/-! ## Instants -/

/-- A time without zone is read as UTC. -/
def assumeUtc (t : DateTime) : DateTime := { t with offset := some (t.offset.getD 0) }

/-- The same instant in UTC; none if it falls off the calendar. -/
def toUtc? (t : DateTime) : Option DateTime :=
  let shifted : Int := t.micros - t.offset.getD 0
  if shifted < 0 then
    t.date.previous?.map fun d => ⟨d, (shifted + microsPerDay).toNat, some 0⟩
  else if (microsPerDay : Int) ≤ shifted then
    t.date.next?.map fun d => ⟨d, (shifted - microsPerDay).toNat, some 0⟩
  else some ⟨t.date, shifted.toNat, some 0⟩

/-- Microseconds of the instant on the time line of UTC. -/
def instant (t : DateTime) : Int :=
  (t.date.ordinal * microsPerDay + t.micros : Nat) - t.offset.getD 0

def isBefore (s t : DateTime) : Bool := s.instant < t.instant

/-- Two times are the same moment when both have a zone and their instants agree, or neither has one
and they read the same. -/
def same (s t : DateTime) : Bool :=
  s.offset.isSome == t.offset.isSome && s.instant == t.instant

/-- The instant some microseconds after 1 January 1970 in UTC; none off the calendar. -/
def ofUnixMicros? (n : Int) : Option DateTime :=
  let day : Int := n / microsPerDay + 719163
  if 1 ≤ day ∧ day ≤ Date.lastOrdinal then
    some ⟨Date.ofOrdinal day.toNat, (n % microsPerDay).toNat, some 0⟩
  else none

/-! ## Text -/

def hour (t : DateTime) : Nat := t.micros / microsPerHour

def minute (t : DateTime) : Nat := t.micros / microsPerMinute % 60

def second (t : DateTime) : Nat := t.micros / microsPerSecond % 60

def microsecond (t : DateTime) : Nat := t.micros % microsPerSecond

/-- Hours and minutes, and seconds with six places as far as they are wanted. -/
def clockChars (micros : Nat) (withSeconds : Bool) : List Char :=
  let second := micros / microsPerSecond % 60
  let micro := micros % microsPerSecond
  Date.padded 2 (micros / microsPerHour) ++ ':' ::
    Date.padded 2 (micros / microsPerMinute % 60) ++
    (if withSeconds || second != 0 || micro != 0 then ':' :: Date.padded 2 second else []) ++
    (if micro != 0 then '.' :: Date.padded 6 micro else [])

/-- The offset with its sign. -/
def offsetChars : Option Int → List Char
  | none => []
  | some o => (if o < 0 then '-' else '+') :: clockChars o.natAbs false

/-- Date and time with `separator` between them, and the offset. -/
def textChars (separator : Char) (t : DateTime) : List Char :=
  t.date.textChars ++ separator :: clockChars t.micros true ++ offsetChars t.offset

/-- The standard form, `T` between date and time. -/
def text (t : DateTime) : String := String.ofList (t.textChars 'T')

/-- The form for readers, a space between date and time. -/
def spacedText (t : DateTime) : String := String.ofList (t.textChars ' ')

/-- The standard form with `Z` for UTC. -/
def zuluText (t : DateTime) : String :=
  if t.offset = some 0 then
    String.ofList ({ t with offset := none }.textChars 'T' ++ ['Z'])
  else t.text

end DateTime

end ChangeRules
