/-!
# Parts of a text

* `hasPart`: whether a text occurs in another one.
* **`hasPart_iff`**: it does exactly when the other one is the text between two more.
-/

namespace ChangeRules.Text

/-- Whether the characters of `part` stand somewhere in a row. -/
def hasPart (part : List Char) : List Char → Bool
  | [] => part.isEmpty
  | c :: cs => part.isPrefixOf (c :: cs) || hasPart part cs

theorem hasPart_iff {part cs : List Char} :
    hasPart part cs = true ↔ ∃ before behind, cs = before ++ part ++ behind := by
  induction cs with
  | nil =>
    simp only [hasPart, List.isEmpty_iff]
    constructor
    · rintro rfl; exact ⟨[], [], rfl⟩
    · rintro ⟨before, behind, h⟩
      simp at h
      exact h.2.1
  | cons c cs ih =>
    simp only [hasPart, Bool.or_eq_true, List.isPrefixOf_iff_prefix, ih]
    constructor
    · rintro (⟨behind, h⟩ | ⟨before, behind, rfl⟩)
      · exact ⟨[], behind, by simpa using h.symm⟩
      · exact ⟨c :: before, behind, rfl⟩
    · rintro ⟨before, behind, h⟩
      cases before with
      | nil => exact .inl ⟨behind, by simpa using h.symm⟩
      | cons d before =>
        simp only [List.cons_append, List.cons.injEq] at h
        exact .inr ⟨before, behind, by simpa using h.2⟩

/-- Whether `part` occurs in `s`. -/
def contains (s part : String) : Bool := hasPart part.toList s.toList

def startsWith (s part : String) : Bool := part.toList.isPrefixOf s.toList

def endsWith (s part : String) : Bool := part.toList.isSuffixOf s.toList

/-- The pieces between the occurrences of a character: one more than there are occurrences. -/
def splitAt (separator : Char) : List Char → List (List Char)
  | [] => [[]]
  | c :: cs =>
    if c = separator then [] :: splitAt separator cs
    else match splitAt separator cs with
      | [] => [[c]]
      | piece :: pieces => (c :: piece) :: pieces

theorem splitAt_ne_nil (separator : Char) (cs : List Char) : splitAt separator cs ≠ [] := by
  cases cs with
  | nil => simp [splitAt]
  | cons c cs =>
    unfold splitAt
    split
    · simp
    · split <;> simp

/-- The pieces of a text. -/
def pieces (separator : Char) (s : String) : List String :=
  (splitAt separator s.toList).map String.ofList

end ChangeRules.Text
