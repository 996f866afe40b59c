import ChangeRules.Text.Blank

/-!
# Decimal digits of all scripts

Unicode 14 holds the ten decimal digits of every script in one run that starts at its zero.

* `digitValue?`: the value of a decimal digit.
* `asciiForm`: a text with its digits and blanks written in ASCII, as number readers want it.
* `integerDigits`: the most digits with which an integer is read or written.
* **`digitsValue_lt`**: a number has no more digits than the run that denotes it.
-/

namespace ChangeRules.Text

/-- The code points of the zeros. The mathematical digits are five runs, one behind the other. -/
def digitZeros : List Nat :=
  [ 48, 1632, 1776, 1984, 2406, 2534, 2662, 2790, 2918, 3046, 3174, 3302, 3430, 3558, 3664, 3792,
    3872, 4160, 4240, 6112, 6160, 6470, 6608, 6784, 6800, 6992, 7088, 7232, 7248, 42528, 43216,
    43264, 43472, 43504, 43600, 44016, 65296, 66720, 68912, 69734, 69872, 69942, 70096, 70384,
    70736, 70864, 71248, 71360, 71472, 71904, 72016, 72784, 73040, 73120, 92768, 92864, 93008,
    120782, 120792, 120802, 120812, 120822, 123200, 123632, 125264, 130032 ]

/-- The value of a decimal digit of any script. -/
def digitValue? (c : Char) : Option Nat :=
  digitZeros.findSome? fun start =>
    if start ≤ c.toNat && c.toNat < start + 10 then some (c.toNat - start) else none

/-- The value of a digit `0` to `9`. -/
def asciiDigit? (c : Char) : Option Nat :=
  if '0' ≤ c ∧ c ≤ '9' then some (c.toNat - '0'.toNat) else none

def isAsciiDigit (c : Char) : Bool := (asciiDigit? c).isSome

def isAscii (c : Char) : Bool := c.toNat < 128

/-- One character of a number in ASCII; a character that can stand in no number becomes a question
mark. -/
def asciiCharacter (c : Char) : Char :=
  if isBlank c then ' '
  else match digitValue? c with
    | some d => Char.ofNat ('0'.toNat + d)
    | none => if isAscii c then c else '?'

/-- A text with digits and blanks written in ASCII. A text that is ASCII already is left as it is. -/
def asciiForm (cs : List Char) : List Char :=
  if cs.all isAscii then cs else cs.map asciiCharacter

/-- The most decimal digits that an integer has where it is read or written. -/
def integerDigits : Nat := 4300

/-- The number that a run of ASCII digits denotes. -/
def digitsValue (cs : List Char) : Nat :=
  cs.foldl (fun n c => 10 * n + (asciiDigit? c).getD 0) 0

theorem digitsValue_append (as bs : List Char) :
    digitsValue (as ++ bs) = digitsValue as * Nat.pow 10 bs.length + digitsValue bs := by
  have shift : ∀ (cs : List Char) (n : Nat),
      cs.foldl (fun n c => 10 * n + (asciiDigit? c).getD 0) n =
        n * Nat.pow 10 cs.length + digitsValue cs := by
    intro cs
    induction cs with
    | nil => intro n; simp [digitsValue]
    | cons c cs ih =>
      intro n
      have h := ih ((asciiDigit? c).getD 0)
      simp only [digitsValue, List.foldl_cons, List.length_cons, Nat.pow, Nat.mul_zero,
        Nat.zero_add] at *
      rw [ih, h]
      simp only [Nat.add_mul, Nat.mul_comm 10 n, Nat.mul_assoc, Nat.mul_comm 10 (Nat.pow 10 _),
        Nat.add_assoc]
      rfl
  rw [digitsValue, List.foldl_append, shift]
  rfl

theorem asciiDigit?_lt {c : Char} {d : Nat} (h : asciiDigit? c = some d) : d < 10 := by
  unfold asciiDigit? at h
  split at h
  · next hc =>
    have hle : c.toNat ≤ '9'.toNat := hc.2
    have hsub : d = c.toNat - '0'.toNat := (Option.some.inj h).symm
    have hnine : '9'.toNat = 57 := rfl
    have hzero : '0'.toNat = 48 := rfl
    omega
  · exact absurd h (by simp)

/-- A run of digits denotes a number with no more of them. -/
theorem digitsValue_lt (cs : List Char) : digitsValue cs < Nat.pow 10 cs.length := by
  induction cs with
  | nil => simp [digitsValue]
  | cons c cs ih =>
    have hsplit := digitsValue_append [c] cs
    have hdigit : (asciiDigit? c).getD 0 < 10 := by
      cases h : asciiDigit? c with
      | none => exact Nat.zero_lt_succ 9
      | some d => exact asciiDigit?_lt h
    have hone : digitsValue [c] = (asciiDigit? c).getD 0 := by simp [digitsValue]
    have hpow : Nat.pow 10 (c :: cs).length = Nat.pow 10 cs.length * 10 := rfl
    rw [List.singleton_append] at hsplit
    rw [hsplit, hone, hpow]
    have hle : (asciiDigit? c).getD 0 * Nat.pow 10 cs.length ≤ 9 * Nat.pow 10 cs.length :=
      Nat.mul_le_mul_right _ (Nat.le_of_lt_succ hdigit)
    omega

end ChangeRules.Text
