import ChangeRules.Number.Notation
import ChangeRules.Text.Quoted
import ChangeRules.Value.Basic

/-!
# Writing JSON

Values as JSON. In ASCII, characters beyond it are written as escapes of their UTF-16 units. Days and
times are written as texts, and the keys of an object may be sorted.

* `Json.write`: the JSON text of a value.
-/

namespace ChangeRules

namespace Json

/-- How a JSON text is laid out. -/
structure Style where
  comma : String
  colon : String
  /-- Fields come in the order of their keys. -/
  sorted : Bool
  /-- Characters beyond ASCII are escaped. -/
  ascii : Bool

/-- A blank behind commas and colons, keys sorted. -/
def Style.spaced : Style := ⟨", ", ": ", true, true⟩

/-- No blanks, keys sorted. -/
def Style.compact : Style := ⟨",", ":", true, true⟩

/-- No blanks, keys as they are, no escapes beyond what is needed. -/
def Style.plain : Style := ⟨",", ":", false, false⟩

/-- The escape of a 16-bit unit. -/
def unitEscape (n : Nat) : List Char := '\\' :: 'u' :: Text.hexDigits 4 n

/-- A character between quotes. -/
def escapedChar (ascii : Bool) (c : Char) : List Char :=
  if c = '"' then ['\\', '"']
  else if c = '\\' then ['\\', '\\']
  else if c = '\n' then ['\\', 'n']
  else if c = '\r' then ['\\', 'r']
  else if c = '\t' then ['\\', 't']
  else if c = '\x08' then ['\\', 'b']
  else if c = '\x0c' then ['\\', 'f']
  else if 32 ≤ c.toNat ∧ (c.toNat < 127 ∨ !ascii) then [c]
  else if c.toNat < 0x10000 then unitEscape c.toNat
  else
    let n := c.toNat - 0x10000
    unitEscape (0xD800 + n / 1024) ++ unitEscape (0xDC00 + n % 1024)

def writeText (ascii : Bool) (s : String) : String :=
  String.ofList ('"' :: s.toList.flatMap (escapedChar ascii) ++ ['"'])

/-- A double, the ones that are not finite by name. -/
def writeDouble : Double → String
  | .nan => "NaN"
  | .infinity negative => if negative then "-Infinity" else "Infinity"
  | x => x.text

/-- Written fields in the order of the style. -/
def arrange (style : Style) (fields : List (String × String)) : List (String × String) :=
  if style.sorted then fields.mergeSort fun f g => f.1 ≤ g.1 else fields

mutual

/-- The JSON text of a value. -/
def write (style : Style) : Value → String
  | .null => "null"
  | .bool b => if b then "true" else "false"
  | .int n => toString n
  | .double x => writeDouble x
  | .text s => writeText style.ascii s
  | .list items => "[" ++ style.comma.intercalate (writeItems style items) ++ "]"
  | .object fields =>
    "\x7b" ++ style.comma.intercalate
      ((arrange style (writeFields style fields)).map fun f =>
        writeText style.ascii f.1 ++ style.colon ++ f.2) ++ "\x7d"
  | .date d => writeText style.ascii d.text
  | .time t => writeText style.ascii t.text

def writeItems (style : Style) : List Value → List String
  | [] => []
  | v :: vs => write style v :: writeItems style vs

def writeFields (style : Style) : List (String × Value) → List (String × String)
  | [] => []
  | (k, v) :: fs => (k, write style v) :: writeFields style fs

end

/-- Values in the order of their texts. -/
def inTextOrder (style : Style) (vs : List Value) : List Value :=
  ((vs.map fun v => (write style v, v)).mergeSort fun a b => a.1 ≤ b.1).map (·.2)

end Json

end ChangeRules
