/-!
# Text in bytes

Text comes in UTF-8, UTF-16 or UTF-32, with a byte order mark or without one: then the zero bytes at
the front tell which encoding it is, as the first character is ASCII. A code point that stands for
no character, half of a pair, is kept as the replacement character.

* `decodeBytes?`: the characters that the bytes denote.
* `decodeLossy`: the characters of bytes in UTF-8, whatever stands between them replaced.
-/

namespace ChangeRules.Text

/-- An encoding of text in bytes. -/
inductive Encoding where
  | utf8
  | utf16 (bigEndian : Bool)
  | utf32 (bigEndian : Bool)
  deriving DecidableEq

/-- The encoding of the bytes, and how many bytes of a byte order mark stand in front. -/
def detectEncoding (bytes : List Nat) : Encoding × Nat :=
  match bytes with
  | 0x00 :: 0x00 :: 0xFE :: 0xFF :: _ => (.utf32 true, 4)
  | 0xFF :: 0xFE :: 0x00 :: 0x00 :: _ => (.utf32 false, 4)
  | 0xFE :: 0xFF :: _ => (.utf16 true, 2)
  | 0xFF :: 0xFE :: _ => (.utf16 false, 2)
  | 0xEF :: 0xBB :: 0xBF :: _ => (.utf8, 3)
  | a :: b :: c :: d :: _ =>
    if a = 0 then (if b = 0 then .utf32 true else .utf16 true, 0)
    else if b = 0 then (if c = 0 ∧ d = 0 then .utf32 false else .utf16 false, 0)
    else (.utf8, 0)
  | [a, b] => if a = 0 then (.utf16 true, 0) else if b = 0 then (.utf16 false, 0) else (.utf8, 0)
  | _ => (.utf8, 0)

/-- The character of a code point, the replacement character for half of a pair. -/
def characterOf (n : Nat) : Char :=
  if 0xD800 ≤ n ∧ n < 0xE000 then Char.ofNat 0xFFFD else Char.ofNat n

/-- The six bits of a byte behind the first one of a character. -/
def continuation? (b : Nat) : Option Nat :=
  if 0x80 ≤ b ∧ b < 0xC0 then some (b - 0x80) else none

/-- The characters of bytes in UTF-8; only the shortest form of a character is accepted. -/
def decodeUtf8? : List Nat → Option (List Char)
  | [] => some []
  | a :: rest =>
    if a < 0x80 then (decodeUtf8? rest).map (Char.ofNat a :: ·)
    else match rest with
      | [] => none
      | b :: rest => do
        let x ← continuation? b
        if a < 0xE0 then
          if 0xC2 ≤ a then (decodeUtf8? rest).map (Char.ofNat ((a - 0xC0) * 64 + x) :: ·) else none
        else match rest with
          | [] => none
          | c :: rest =>
            let y ← continuation? c
            if a < 0xF0 then
              let n := ((a - 0xE0) * 64 + x) * 64 + y
              if 0x800 ≤ n then (decodeUtf8? rest).map (characterOf n :: ·) else none
            else match rest with
              | [] => none
              | d :: rest =>
                let z ← continuation? d
                let n := (((a - 0xF0) * 64 + x) * 64 + y) * 64 + z
                if a < 0xF5 ∧ 0x10000 ≤ n ∧ n < 0x110000 then
                  (decodeUtf8? rest).map (Char.ofNat n :: ·)
                else none

/-- The 16-bit units of bytes. -/
def units16? (bigEndian : Bool) : List Nat → Option (List Nat)
  | [] => some []
  | [_] => none
  | a :: b :: rest =>
    (units16? bigEndian rest).map ((if bigEndian then a * 256 + b else b * 256 + a) :: ·)

/-- The characters of 16-bit units, pairs joined. -/
def joinUnits16 : List Nat → List Char
  | [] => []
  | [u] => [characterOf u]
  | u :: v :: rest =>
    if 0xD800 ≤ u ∧ u < 0xDC00 ∧ 0xDC00 ≤ v ∧ v < 0xE000 then
      Char.ofNat (0x10000 + (u - 0xD800) * 1024 + (v - 0xDC00)) :: joinUnits16 rest
    else characterOf u :: joinUnits16 (v :: rest)

/-- The characters of bytes in UTF-32. -/
def decodeUtf32? (bigEndian : Bool) : List Nat → Option (List Char)
  | [] => some []
  | a :: b :: c :: d :: rest =>
    let n := if bigEndian then ((a * 256 + b) * 256 + c) * 256 + d
      else ((d * 256 + c) * 256 + b) * 256 + a
    if n < 0x110000 then (decodeUtf32? bigEndian rest).map (characterOf n :: ·) else none
  | _ => none

/-- The characters that bytes denote, in the encoding that is found in them. -/
def decodeBytes? (bytes : List Nat) : Option (List Char) :=
  let (encoding, mark) := detectEncoding bytes
  let body := bytes.drop mark
  match encoding with
  | .utf8 => decodeUtf8? body
  | .utf16 bigEndian => (units16? bigEndian body).map joinUnits16
  | .utf32 bigEndian => decodeUtf32? bigEndian body

/-! ## Replacing what is malformed -/

/-- How many bytes follow the first one of a character, and the bounds of the next one. -/
def followers? (b : Nat) : Option (Nat × Nat × Nat) :=
  if 0xC2 ≤ b ∧ b < 0xE0 then some (1, 0x80, 0xBF)
  else if b = 0xE0 then some (2, 0xA0, 0xBF)
  else if b = 0xED then some (2, 0x80, 0x9F)
  else if 0xE0 < b ∧ b < 0xF0 then some (2, 0x80, 0xBF)
  else if b = 0xF0 then some (3, 0x90, 0xBF)
  else if 0xF0 < b ∧ b < 0xF4 then some (3, 0x80, 0xBF)
  else if b = 0xF4 then some (3, 0x80, 0x8F)
  else none

/-- The bytes that go on with a character: at most `count`, the first one within bounds. -/
def takeFollowers : (count low high : Nat) → List Nat → List Nat
  | count + 1, low, high, b :: bs =>
    if low ≤ b ∧ b ≤ high then b :: takeFollowers count 0x80 0xBF bs else []
  | _, _, _, _ => []

/-- The bits of the first byte of a character that `count` bytes follow. -/
def leadingBits (b count : Nat) : Nat :=
  if count = 1 then b - 0xC0 else if count = 2 then b - 0xE0 else b - 0xF0

/-- The character that a byte begins, and how many more bytes it takes. What breaks off is replaced
as a whole. -/
def characterAt (b : Nat) (rest : List Nat) : Char × Nat :=
  if b < 0x80 then (Char.ofNat b, 0)
  else match followers? b with
    | none => (Char.ofNat 0xFFFD, 0)
    | some (count, low, high) =>
      let taken := takeFollowers count low high rest
      if taken.length = count then
        (Char.ofNat (taken.foldl (fun n x => n * 64 + (x - 0x80)) (leadingBits b count)), count)
      else (Char.ofNat 0xFFFD, taken.length)

/-- The characters of bytes, of which `skip` belong to the character before. -/
def decodeLossyFrom (skip : Nat) : List Nat → List Char
  | [] => []
  | b :: bs =>
    if 0 < skip then decodeLossyFrom (skip - 1) bs
    else
      let (c, more) := characterAt b bs
      c :: decodeLossyFrom more bs

/-- The characters of bytes in UTF-8; malformed ones are replaced. -/
def decodeLossy (bytes : List Nat) : List Char := decodeLossyFrom 0 bytes

/-- The bytes of a text in UTF-8. -/
def utf8Bytes (s : String) : List Nat := s.toUTF8.toList.map (·.toNat)

end ChangeRules.Text
