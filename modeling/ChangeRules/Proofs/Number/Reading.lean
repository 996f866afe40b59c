import ChangeRules.Number.Reading
import ChangeRules.Proofs.Number.Rounding
import ChangeRules.Proofs.Text.Tidy
import Mathlib.Data.List.TakeDrop
import Mathlib.Data.List.TakeWhile

/-!
# Integers written and read

An integer that is written in digits and read as a double comes back as the double nearest to it: the
same double that the integer itself is turned into, too large or not.

* `digitsValue_toDigits`: digits that are written out denote the number that was written.
* `readPlainDouble?_digits`: a row of digits is read as a number without point and exponent.
* **`readDouble?_int`**: the text of an integer is read as the double of the integer.
-/

namespace ChangeRules

open Text

/-! ## Digits -/

theorem asciiDigit?_of_isDigit {c : Char} (h : c.isDigit = true) :
    asciiDigit? c = some (c.toNat - '0'.toNat) := by
  simp only [Char.isDigit, Bool.and_eq_true, decide_eq_true_eq] at h
  exact if_pos h

theorem isAsciiDigit_of_isDigit {c : Char} (h : c.isDigit = true) : isAsciiDigit c = true := by
  rw [isAsciiDigit, asciiDigit?_of_isDigit h]
  rfl

theorem digitsValue_toDigits (n : Nat) : digitsValue (Nat.toDigits 10 n) = n := by
  have hfold : ∀ (cs : List Char), (∀ c ∈ cs, c.isDigit = true) → ∀ m,
      cs.foldl (fun m c => 10 * m + (asciiDigit? c).getD 0) m = Nat.ofDigitChars 10 cs m := by
    intro cs
    induction cs with
    | nil => exact fun _ _ => rfl
    | cons c cs ih =>
      intro hdigits m
      obtain ⟨hc, hcs⟩ := List.forall_mem_cons.mp hdigits
      rw [List.foldl_cons, asciiDigit?_of_isDigit hc, ih hcs]
      rfl
  have hdigits : ∀ c ∈ Nat.toDigits 10 n, c.isDigit = true := fun c hc =>
    Nat.isDigit_of_mem_toDigits (by decide) (by decide) hc
  rw [digitsValue, hfold _ hdigits, Nat.ofDigitChars_ten_toDigits]

/-! ## Rows of digits -/

theorem span_eq_self {p : Char → Bool} {cs : List Char} (h : ∀ c ∈ cs, p c = true) :
    cs.span p = (cs, []) := by
  rw [List.span_eq_takeWhile_dropWhile, List.takeWhile_eq_self_iff.mpr h,
    List.dropWhile_eq_nil_iff.mpr h]

theorem dropUnderscores_eq_self {cs : List Char} (h : '_' ∉ cs) (behindDigit : Bool) :
    dropUnderscores behindDigit cs = some cs := by
  induction cs generalizing behindDigit with
  | nil => rfl
  | cons c cs ih =>
    rw [List.mem_cons, not_or] at h
    rw [dropUnderscores, if_neg (Ne.symm h.1), ih h.2]
    rfl

/-- Visible characters of ASCII are read as they stand, if no underscore is among them. -/
theorem readDouble?_of_isVisible {s : String} (h : ∀ c ∈ s.toList, isVisible c = true)
    (hunderscore : '_' ∉ s.toList) : readDouble? s = readPlainDouble? s.toList := by
  have hascii : s.toList.all isAscii = true := by
    refine List.all_eq_true.mpr fun c hc => decide_eq_true ?_
    have hvisible := h c hc
    simp only [isVisible, Bool.and_eq_true, decide_eq_true_eq] at hvisible
    omega
  have hblank : ∀ c ∈ s.toList, isAsciiBlank c = false := fun c hc =>
    Bool.eq_false_iff.mpr fun hblank =>
      absurd (isBlank_of_isAsciiBlank hblank) (by simp [not_isBlank_of_isVisible (h c hc)])
  rw [readDouble?, asciiForm, if_pos hascii, trimWhile_eq_self hblank,
    dropUnderscores_eq_self hunderscore, Option.bind_some]

section

variable {cs : List Char}

theorem takeSign_digits (h : ∀ c ∈ cs, c.isDigit = true) : takeSign cs = (false, cs) := by
  unfold takeSign
  split
  · exact absurd (h '+' List.mem_cons_self) (by decide)
  · exact absurd (h '-' List.mem_cons_self) (by decide)
  · rfl

/-- No name begins with a digit. -/
theorem readNamed?_digits (negative : Bool) (hne : cs ≠ []) (h : ∀ c ∈ cs, c.isDigit = true) :
    readNamed? negative cs = none := by
  cases cs with
  | nil => exact absurd rfl hne
  | cons c cs =>
    have hc := (List.forall_mem_cons.mp h).1
    have hsmall : c.toLower = c := by
      have hnine : c.toNat ≤ '9'.toNat := (Char.isDigit_iff_toNat.mp hc).2
      refine dif_neg fun hupper => ?_
      have hletter : 'A'.toNat ≤ c.toNat := UInt32.le_iff_toNat_le.mp hupper.1
      exact absurd (Nat.le_trans hletter hnine) (by decide)
    have hnot : ∀ {name : String} {d : Char} {ds : List Char}, name.toList = d :: ds →
        d.isDigit = false → String.ofList ((c :: cs).map Char.toLower) ≠ name := by
      rintro _ d ds hname hd rfl
      rw [String.toList_ofList, List.map_cons, hsmall] at hname
      rw [← (List.cons.inj hname).1, hc] at hd
      exact absurd hd (by decide)
    unfold readNamed?
    split
    · next heq => exact absurd heq (hnot (show "inf".toList = ['i', 'n', 'f'] from rfl) rfl)
    · next heq =>
      exact absurd heq
        (hnot (show "infinity".toList = ['i', 'n', 'f', 'i', 'n', 'i', 't', 'y'] from rfl) rfl)
    · next heq => exact absurd heq (hnot (show "nan".toList = ['n', 'a', 'n'] from rfl) rfl)
    · rfl

theorem readMagnitude?_digits (hne : cs ≠ []) (h : ∀ c ∈ cs, c.isDigit = true) :
    readMagnitude? cs = some (digitsValue cs, 0) := by
  have hspan := span_eq_self fun c hc => isAsciiDigit_of_isDigit (h c hc)
  have hempty : cs.isEmpty = false := List.isEmpty_eq_false_iff.mpr hne
  unfold readMagnitude?
  rw [hspan]
  dsimp only
  rw [hempty, Bool.false_and, if_neg Bool.false_ne_true, List.append_nil]
  rfl

/-- A row of digits, behind a minus or not, is read as a number without point and exponent. -/
theorem readPlainDouble?_digits (hne : cs ≠ []) (h : ∀ c ∈ cs, c.isDigit = true) :
    readPlainDouble? cs = some (.ofDecimal false (digitsValue cs) 0) ∧
      readPlainDouble? ('-' :: cs) = some (.ofDecimal true (digitsValue cs) 0) := by
  have hminus : takeSign ('-' :: cs) = (true, cs) := rfl
  constructor
  · simp only [readPlainDouble?, takeSign_digits h, readNamed?_digits _ hne h,
      readMagnitude?_digits hne h, Option.map_some]
  · simp only [readPlainDouble?, hminus, readNamed?_digits _ hne h,
      readMagnitude?_digits hne h, Option.map_some]

end

/-! ## Integers -/

/-- Digits without point and exponent are rounded as integers are. -/
theorem Double.ofDecimal_natAbs (n : Int) : Double.ofDecimal (decide (n < 0)) n.natAbs 0 = .ofInt n := by
  by_cases hzero : n = 0
  · subst hzero
    decide +kernel
  · unfold Double.ofDecimal Double.ofInt
    rw [if_neg (by omega), if_neg (by decide), if_neg (by omega), if_pos (by decide)]
    simp

/-- **The text of an integer is read as its double.** -/
theorem readDouble?_int (n : Int) : readDouble? (toString n) = some (.ofInt n) := by
  have hread := readPlainDouble?_digits Nat.toDigits_ne_nil fun c hc =>
    Nat.isDigit_of_mem_toDigits (b := 10) (n := n.natAbs) (by decide) (by decide) hc
  rw [digitsValue_toDigits] at hread
  have hvisible : ∀ c ∈ Nat.toDigits 10 n.natAbs, isVisible c = true := fun c hc => isVisible_digits hc
  have hunderscore : '_' ∉ Nat.toDigits 10 n.natAbs := not_mem_toDigits (by decide) _
  have hdecimal := Double.ofDecimal_natAbs n
  have hchars := toList_int n
  by_cases hneg : n < 0
  · rw [if_pos hneg] at hchars
    rw [decide_eq_true hneg] at hdecimal
    rw [readDouble?_of_isVisible, hchars, hread.2, hdecimal]
    · rw [hchars]
      exact List.forall_mem_cons.mpr ⟨by decide, hvisible⟩
    · rw [hchars, List.mem_cons, not_or]
      exact ⟨by decide, hunderscore⟩
  · rw [if_neg hneg] at hchars
    rw [decide_eq_false hneg] at hdecimal
    rw [readDouble?_of_isVisible, hchars, hread.1, hdecimal]
    · rwa [hchars]
    · rwa [hchars]

end ChangeRules
