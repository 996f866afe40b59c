import ChangeRules.Text.Blank
import ChangeRules.Text.Digit
import ChangeRules.Text.Find
import ChangeRules.Text.Quoted

/-!
# Addresses

Names become segments of an address by percent escapes; the host of an address is what stands
between the two slashes behind the scheme and the next delimiter.

* `Address.segment`: a name as a segment.
* `Address.host`: the host of an address, or what is wrong with it.
* **`Address.segment_unreserved`**: a name of letters, digits and `_.-~` is left as it is.
-/

namespace ChangeRules

namespace Address

open Text

/-! ## Segments -/

/-- The bytes that stand for themselves in a segment. -/
def isUnreserved (c : Char) : Bool :=
  c.isAlphanum || c == '_' || c == '.' || c == '-' || c == '~'

/-- One byte of a segment. -/
def escapeByte (n : Nat) : List Char :=
  let c := Char.ofNat n
  if n < 128 && isUnreserved c then [c]
  else ['%', (Nat.digitChar (n / 16)).toUpper, (Nat.digitChar (n % 16)).toUpper]

/-- The bytes of a character in UTF-8. -/
def bytesOf (c : Char) : List Nat := (String.utf8EncodeChar c).map (·.toNat)

/-- A character in a segment. -/
def escape (c : Char) : List Char :=
  if isUnreserved c then [c] else (bytesOf c).flatMap escapeByte

/-- A name as a segment of an address. -/
def segment (s : String) : String := String.ofList (s.toList.flatMap escape)

theorem flatMap_escape_unreserved {cs : List Char} (h : ∀ c ∈ cs, isUnreserved c = true) :
    cs.flatMap escape = cs := by
  induction cs with
  | nil => rfl
  | cons c cs ih =>
    rw [List.flatMap_cons, ih fun d hd => h d (List.mem_cons_of_mem c hd)]
    simp [escape, h c List.mem_cons_self]

theorem segment_unreserved {s : String} (h : ∀ c ∈ s.toList, isUnreserved c = true) :
    segment s = s := by
  rw [segment, flatMap_escape_unreserved h, String.ofList_toList]

/-- An address without the slashes at its end. -/
def withoutSlashes (s : String) : String :=
  String.ofList ((s.toList.reverse.dropWhile (· == '/')).reverse)

/-! ## Numeric hosts -/

/-- A byte in decimal without a zero in front. -/
def isDecimalByte (cs : List Char) : Bool :=
  !cs.isEmpty && cs.all isAsciiDigit && cs.length ≤ 3 && (cs.length = 1 || cs.head? != some '0') &&
    digitsValue cs ≤ 255

/-- Four bytes in decimal with points between them. -/
def isFourBytes (cs : List Char) : Bool :=
  let parts := splitAt '.' cs
  parts.length = 4 && parts.all isDecimalByte

def isHexDigit (c : Char) : Bool :=
  isAsciiDigit c || ('a' ≤ c && c ≤ 'f') || ('A' ≤ c && c ≤ 'F')

/-- A 16-bit group in hexadecimal. -/
def isGroup (cs : List Char) : Bool := !cs.isEmpty && cs.length ≤ 4 && cs.all isHexDigit

/-- Groups of which one row of zeros may be left out, or eight of them. -/
def areGroups (parts : List (List Char)) : Bool :=
  let inner := (parts.drop 1).dropLast
  match inner.length - (inner.filter (!·.isEmpty)).length with
  | 0 => parts.length = 8 && parts.all isGroup
  | 1 =>
    let place := 1 + (inner.takeWhile (!·.isEmpty)).length
    let high := parts.take place
    let low := parts.drop (place + 1)
    let ok (side : List (List Char)) (outer : Option (List Char)) : Bool :=
      if outer == some [] then side.length = 1 else side.all isGroup
    let count (side : List (List Char)) (outer : Option (List Char)) : Nat :=
      if outer == some [] then 0 else side.length
    ok high high.head? && ok low low.getLast? &&
      count high high.head? + count low low.getLast? < 8
  | _ => false

/-- Groups with colons between them; the last two may be written as four bytes, and a zone may follow. -/
def isGroupAddress (cs : List Char) : Bool :=
  let (body, zoned) := match splitAt '%' cs with
    | [body] => (body, true)
    | [body, zone] => (body, !zone.isEmpty)
    | _ => ([], false)
  let parts := splitAt ':' body
  let parts := match parts.getLast? with
    | some last =>
      if last.contains '.' then
        if isFourBytes last then parts.dropLast ++ [['0'], ['0']] else []
      else parts
    | none => parts
  zoned && !cs.contains '/' && 3 ≤ (splitAt ':' body).length && parts.length ≤ 9 && areGroups parts

/-- A host in brackets that names its own version. -/
def isFutureHost (cs : List Char) : Bool :=
  let digits := (cs.drop 1).takeWhile isHexDigit
  let rest := cs.drop (1 + digits.length)
  !digits.isEmpty && rest.head? == some '.' && 2 ≤ rest.length && !(rest.drop 1).contains '\n'

/-- What is wrong with a host in brackets. -/
def bracketedFlaw (cs : List Char) : Option String :=
  if cs.head? == some 'v' then
    if isFutureHost cs then none else some "IPvFuture address is invalid"
  else if isFourBytes cs then some "An IPv4 address cannot be in brackets"
  else if isGroupAddress cs then none
  else some (Text.quoted (String.ofList cs) ++ " does not appear to be an IPv4 or IPv6 address")

/-! ## Hosts -/

/-- Characters whose compatibility form holds a delimiter of addresses. -/
def disguised : List Nat :=
  [ 0x2100, 0x2101, 0x2105, 0x2106, 0xFF0F, 0x2047, 0x2048, 0x2049, 0xFE16, 0xFE56, 0xFF1F, 0xFE5F,
    0xFF03, 0xFE6B, 0xFF20, 0x2A74, 0xFE13, 0xFE55, 0xFF1A ]

def isSchemeChar (c : Char) : Bool := c.isAlphanum || c == '+' || c == '-' || c == '.'

/-- What is left of an address behind its scheme. -/
def withoutScheme (cs : List Char) : List Char :=
  let scheme := cs.takeWhile (· != ':')
  match cs.drop scheme.length with
  | ':' :: rest =>
    if scheme.head?.any Char.isAlpha && scheme.all isSchemeChar then rest else cs
  | _ => cs

/-- An address without the control characters that readers of addresses skip. -/
def cleaned (cs : List Char) : List Char :=
  (cs.dropWhile fun c => c.toNat ≤ 32).filter fun c => c != '\t' && c != '\r' && c != '\n'

/-- The characters between two slashes and the next delimiter. -/
def authority : List Char → List Char
  | '/' :: '/' :: rest => rest.takeWhile fun c => c != '/' && c != '?' && c != '#'
  | _ => []

/-- What stands behind the last occurrence of a character. -/
def behindLast (separator : Char) (cs : List Char) : List Char :=
  (cs.reverse.takeWhile (· != separator)).reverse

/-- What is wrong with a host and its port in an address with brackets. Brackets hold the whole host,
and only a port may follow them. -/
def bracketFlaw (cs : List Char) : Option String :=
  let before := cs.takeWhile (· != '[')
  if before.length = cs.length then bracketedFlaw (cs.takeWhile (· != ':'))
  else
    let inside := cs.drop (before.length + 1)
    let name := inside.takeWhile (· != ']')
    let behind := inside.drop (name.length + 1)
    if !before.isEmpty || (!behind.isEmpty && behind.head? != some ':') then
      some "Invalid IPv6 URL"
    else bracketedFlaw name

/-- The host of an address, with user and port, or what is wrong with it. -/
def host (address : String) : Except String String :=
  let cs := authority (withoutScheme (cleaned address.toList))
  let opens := cs.contains '['
  let closes := cs.contains ']'
  if opens != closes then .error "Invalid IPv6 URL"
  else match if opens then bracketFlaw (behindLast '@' cs) else none with
    | some flaw => .error flaw
    | none =>
      if cs.any fun c => disguised.contains c.toNat then
        .error ("netloc '" ++ String.ofList cs ++
          "' contains invalid characters under NFKC normalization")
      else .ok (String.ofList cs)

end Address

end ChangeRules
