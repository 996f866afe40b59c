/-!
# Blank characters

The characters that separate words: the Unicode white space, and with it the four information
separators of ASCII.

* `trim`: a text without the blanks at its ends.
* **`trimChars_trimChars`**: trimming is settled in one pass.
-/

namespace ChangeRules.Text

/-- A blank: white space or an information separator. -/
def isBlank (c : Char) : Bool :=
  let n := c.toNat
  (9 ≤ n && n ≤ 13) || (28 ≤ n && n ≤ 32) || n == 0x85 || n == 0xA0 || n == 0x1680 ||
    (0x2000 ≤ n && n ≤ 0x200A) || n == 0x2028 || n == 0x2029 || n == 0x202F || n == 0x205F ||
    n == 0x3000

/-- A blank of ASCII, the information separators left out. -/
def isAsciiBlank (c : Char) : Bool :=
  c == ' ' || (9 ≤ c.toNat && c.toNat ≤ 13)

/-- The characters between the first and the last that fail `p`. -/
def trimWhile (p : Char → Bool) (cs : List Char) : List Char :=
  ((cs.dropWhile p).reverse.dropWhile p).reverse

/-- The characters without the blanks at both ends. -/
def trimChars (cs : List Char) : List Char := trimWhile isBlank cs

/-- A text without the blanks at both ends. -/
def trim (s : String) : String := String.ofList (trimChars s.toList)

@[simp] theorem toList_trim (s : String) : (trim s).toList = trimChars s.toList := by
  simp [trim]

/-- Whether a text holds nothing but blanks. -/
def isAllBlank (s : String) : Bool := (trim s).isEmpty

/-! ## Trimming is settled -/

section

variable (p : Char → Bool) (cs : List Char)

theorem dropWhile_eq_self_of_head (h : ∀ c, cs.head? = some c → p c = false) :
    cs.dropWhile p = cs := by
  cases cs with
  | nil => rfl
  | cons c cs => simp [h c rfl]

theorem head_dropWhile {c : Char} (h : (cs.dropWhile p).head? = some c) : p c = false := by
  have := List.head?_dropWhile_not p cs
  rw [h] at this
  simpa using this

/-- What is left of a text begins with no blank. -/
theorem head_trimWhile {c : Char} (h : (trimWhile p cs).head? = some c) : p c = false := by
  have sub : trimWhile p cs <+: cs.dropWhile p := by
    rw [← List.reverse_suffix]
    simpa [trimWhile] using List.dropWhile_suffix p
  obtain ⟨rest, hrest⟩ := sub
  refine head_dropWhile p cs ?_
  rw [← hrest]
  cases ht : trimWhile p cs with
  | nil => simp [ht] at h
  | cons d ds => simpa [ht] using h

/-- Trimming a second time changes nothing. -/
theorem trimWhile_trimWhile : trimWhile p (trimWhile p cs) = trimWhile p cs := by
  have front := dropWhile_eq_self_of_head p (trimWhile p cs) fun c h => head_trimWhile p cs h
  have back : (trimWhile p cs).reverse.dropWhile p = (trimWhile p cs).reverse := by
    refine dropWhile_eq_self_of_head p _ fun c h => ?_
    rw [trimWhile, List.reverse_reverse] at h
    exact head_dropWhile p _ h
  rw [trimWhile, front, back, List.reverse_reverse]

end

theorem trimChars_trimChars (cs : List Char) : trimChars (trimChars cs) = trimChars cs :=
  trimWhile_trimWhile isBlank cs

theorem isBlank_of_isAsciiBlank {c : Char} (h : isAsciiBlank c = true) : isBlank c = true := by
  simp only [isAsciiBlank, Bool.or_eq_true, beq_iff_eq, Bool.and_eq_true, decide_eq_true_eq] at h
  rcases h with rfl | ⟨lo, hi⟩
  · rfl
  · simp [isBlank, lo, hi]

end ChangeRules.Text
