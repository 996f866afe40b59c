import ChangeRules.Fault
import ChangeRules.Number.Reading
import ChangeRules.Text.Case
import ChangeRules.Text.Find
import ChangeRules.Time.Iso

/-!
# How conditions read values

The same value can be a number, an instant or a text to a condition.

* `Value.toNumber`: the finite number that a value denotes.
* `Value.toInstant?`: the instant that a value denotes, in UTC.
* `Value.plainText`: the text of a value, truth values in small letters; `Value.written`: the same, if
  the value can be written.
* `isTemporal`: whether a column type holds dates or times.
-/

namespace ChangeRules

namespace Value

/-- The finite number that a value denotes; truth values denote none. An integer has to fit into a
double. -/
def toNumber : Value → Except Fault (Option Double)
  | .int n => ((Number.int n).toDouble.mapError fun flaw => .misuse (.arithmetic flaw)).map some
  | .double x => .ok (if x.isFinite then some x else none)
  | .text s => .ok ((readDouble? (Text.trim s)).filter Double.isFinite)
  | _ => .ok none

/-- A text without the `Z` at its end, which is written as a distance from UTC instead. -/
def spellZulu (cs : List Char) : List Char :=
  match cs.reverse with
  | c :: rest => if c = 'Z' || c = 'z' then rest.reverse ++ "+00:00".toList else cs
  | [] => cs

/-- The instant that a value denotes, in UTC. A time without zone is read as UTC, a day as its
midnight. -/
def toInstant? : Value → Option DateTime
  | .time t => t.toUtc?
  | .date d => (DateTime.midnight d).toUtc?
  | .text s => (DateTime.ofIso? (String.ofList (spellZulu (Text.trimChars s.toList)))).bind (·.toUtc?)
  | _ => none

/-- The text of a value; truth values are written in small letters. -/
def plainText : Value → String
  | .bool b => if b then "true" else "false"
  | v => v.display

/-- The text of a value, if it can be written. -/
def written (v : Value) : Except Fault String :=
  if v.isWritable then .ok v.plainText else .error (.misuse .unwritableInteger)

end Value

/-- Whether a column type holds dates or times: its name mentions one of them. -/
def isTemporal : Value → Bool
  | .text s =>
    let name := Text.lower s
    ["date", "timestamp", "time"].any (Text.contains name)
  | _ => false

end ChangeRules
