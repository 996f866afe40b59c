import Mathlib.Logic.ExistsUnique
import ChangeRules.Action.Template
import ChangeRules.Proofs.Text.Tidy

/-!
# Cutting texts at placeholders

A placeholder is two braces, a path between blanks, and two braces. Two placeholders in a text never
overlap: the second brace of one is no first brace of another, and there is no opening brace behind it.
So a text is cut at its placeholders in one way, and how the braces around them are arranged, or in
which order one looks for them, makes no difference.

* `Placeholder.WellFormed`: what a placeholder is.
* **`Placeholder.front?_eq_some_iff`**: what is found at the front of a text.
* `Cut`: a literal, and placeholders each with the literal behind it.
* `Cut.Clean`: nothing is left to be cut.
* **`Cut.existsUnique_clean`**: every text is cut clean in one way.
* **`Cut.mem_of_clean`**: a clean cut is made at every placeholder of the text.
* **`Cut.filled_of_clean`**: the pieces that a text is filled in by are those of its clean cut.
-/

namespace ChangeRules

/-! ## Rows of one kind of characters -/

section

variable {α : Type} {p : α → Bool} {front rest : List α}

theorem takeWhile_append_of_head (hfront : ∀ c ∈ front, p c = true)
    (hrest : ∀ d, rest.head? = some d → p d = false) : (front ++ rest).takeWhile p = front := by
  have hnothing : rest.takeWhile p = [] := by
    cases rest with
    | nil => rfl
    | cons d rest => exact List.takeWhile_cons_of_neg (by rw [hrest d rfl]; exact Bool.false_ne_true)
  rw [List.takeWhile_append_of_pos hfront, hnothing, List.append_nil]

theorem dropWhile_append_of_head (hfront : ∀ c ∈ front, p c = true)
    (hrest : ∀ d, rest.head? = some d → p d = false) : (front ++ rest).dropWhile p = rest := by
  rw [List.dropWhile_append_of_pos hfront]
  cases rest with
  | nil => rfl
  | cons d rest => exact List.dropWhile_cons_of_neg (by rw [hrest d rfl]; exact Bool.false_ne_true)

theorem mem_or_eq_of_head? {c d : α} (h : (front ++ c :: rest).head? = some d) :
    d ∈ front ∨ d = c := by
  cases front with
  | nil => exact Or.inr (Option.some.inj h).symm
  | cons e front =>
    rw [← Option.some.inj h]
    exact Or.inl List.mem_cons_self

end

namespace Placeholder

/-! ## Well-formed placeholders -/

/-- Blanks, a path with at least one character, and blanks. -/
structure WellFormed (p : Placeholder) : Prop where
  before : ∀ c ∈ p.before, Text.isBlank c = true
  path : ∀ c ∈ p.path, isPathChar c = true
  named : p.path ≠ []
  behind : ∀ c ∈ p.behind, Text.isBlank c = true

/-- What follows the two opening braces. -/
def body (p : Placeholder) : List Char := p.before ++ p.path ++ p.behind ++ ['\x7d', '\x7d']

variable {p q : Placeholder} {cs rest : List Char}

theorem chars_eq (p : Placeholder) : p.chars = '\x7b' :: '\x7b' :: p.body := rfl

theorem isVisible_of_isAlpha {c : Char} (h : c.isAlpha = true) : Text.isVisible c = true := by
  have hletters : c.isAlpha = (decide ('A'.val ≤ c.val ∧ c.val ≤ 'Z'.val) ||
      (decide ('a'.val ≤ c.val) && decide (c.val ≤ 'z'.val))) := rfl
  have hbounds : 'A'.val.toNat = 65 ∧ 'Z'.val.toNat = 90 ∧ 'a'.val.toNat = 97 ∧
      'z'.val.toNat = 122 := by decide
  simp only [hletters, Bool.or_eq_true, Bool.and_eq_true, decide_eq_true_eq,
    UInt32.le_iff_toNat_le] at h
  simp only [Text.isVisible, Char.toNat, Bool.and_eq_true, decide_eq_true_eq]
  omega

theorem isVisible_of_isPathChar {c : Char} (h : isPathChar c = true) : Text.isVisible c = true := by
  simp only [isPathChar, Char.isAlphanum, Bool.or_eq_true, beq_iff_eq] at h
  rcases h with ((hletter | hdigit) | rfl) | rfl
  · exact isVisible_of_isAlpha hletter
  · exact isVisible_of_isDigit hdigit
  · decide
  · decide

theorem not_isBlank_of_isPathChar {c : Char} (h : isPathChar c = true) : Text.isBlank c = false :=
  Text.not_isBlank_of_isVisible (isVisible_of_isPathChar h)

theorem not_isPathChar_of_isBlank {c : Char} (h : Text.isBlank c = true) : isPathChar c = false := by
  cases hpath : isPathChar c with
  | false => rfl
  | true =>
    rw [not_isBlank_of_isPathChar hpath] at h
    exact absurd h Bool.false_ne_true

theorem body_ne_nil (p : Placeholder) : p.body ≠ [] :=
  List.append_ne_nil_of_right_ne_nil _ (List.cons_ne_nil _ _)

/-- Behind its first two characters a placeholder has no opening brace. -/
theorem WellFormed.brace_not_mem_body (h : p.WellFormed) : '\x7b' ∉ p.body := by
  intro hmem
  simp only [body, List.mem_append] at hmem
  rcases hmem with ((hmem | hmem) | hmem) | hmem
  · exact absurd (h.before _ hmem) (by decide)
  · exact absurd (h.path _ hmem) (by decide)
  · exact absurd (h.behind _ hmem) (by decide)
  · exact absurd hmem (by decide)

/-! ## At the front of a text -/

/-- The three rows of characters between the braces are told apart. -/
theorem WellFormed.front?_chars_append (h : p.WellFormed) (rest : List Char) :
    front? (p.chars ++ rest) = some (p, rest) := by
  have hbehind : ∀ d, ('\x7d' :: '\x7d' :: rest).head? = some d → Text.isBlank d = false := by
    intro d hd
    obtain rfl := Option.some.inj hd
    rfl
  have hpath : ∀ d, (p.behind ++ '\x7d' :: '\x7d' :: rest).head? = some d → isPathChar d = false := by
    intro d hd
    rcases mem_or_eq_of_head? hd with hmem | rfl
    · exact not_isPathChar_of_isBlank (h.behind d hmem)
    · rfl
  have hbefore : ∀ d, (p.path ++ (p.behind ++ '\x7d' :: '\x7d' :: rest)).head? = some d →
      Text.isBlank d = false := by
    intro d hd
    obtain ⟨c, cs, hp⟩ := List.exists_cons_of_ne_nil h.named
    rw [hp] at hd
    obtain rfl := Option.some.inj hd
    exact not_isBlank_of_isPathChar (h.path c (by rw [hp]; exact List.mem_cons_self))
  have hchars : p.chars ++ rest =
      '\x7b' :: '\x7b' :: (p.before ++ (p.path ++ (p.behind ++ '\x7d' :: '\x7d' :: rest))) := by
    simp [chars]
  rw [hchars, front?]
  rw [takeWhile_append_of_head h.before hbefore, dropWhile_append_of_head h.before hbefore,
    takeWhile_append_of_head h.path hpath, dropWhile_append_of_head h.path hpath,
    takeWhile_append_of_head h.behind hbehind, dropWhile_append_of_head h.behind hbehind]
  exact if_neg fun hempty => h.named (List.isEmpty_iff.mp hempty)

theorem wellFormed_of_front? (h : front? cs = some (p, rest)) : p.WellFormed := by
  unfold front? at h
  split at h
  · next cs =>
    dsimp only at h
    split at h
    · split at h
      · cases h
      · next hnamed =>
        simp only [Option.some.injEq, Prod.mk.injEq] at h
        obtain ⟨rfl, -⟩ := h
        constructor
        · exact List.all_eq_true.mp List.all_takeWhile
        · exact List.all_eq_true.mp List.all_takeWhile
        · exact fun hnil => hnamed (List.isEmpty_iff.mpr hnil)
        · exact List.all_eq_true.mp List.all_takeWhile
    · cases h
  · cases h

/-- **What is found at the front of a text**: the placeholder that it begins with, if there is one. -/
theorem front?_eq_some_iff :
    front? cs = some (p, rest) ↔ p.WellFormed ∧ p.chars ++ rest = cs := by
  constructor
  · exact fun h => ⟨wellFormed_of_front? h, chars_append_of_front? h⟩
  · rintro ⟨h, rfl⟩
    exact h.front?_chars_append rest

/-- **Placeholders do not overlap**: two opening braces in a text that begins with a placeholder are
its own or stand behind it. -/
theorem WellFormed.eq_nil_or_inside (h : q.WellFormed) {front behind : List Char}
    (happend : q.chars ++ rest = front ++ '\x7b' :: '\x7b' :: behind) :
    front = [] ∨ q.chars <+: front := by
  rw [chars_eq, List.cons_append, List.cons_append] at happend
  match front, happend with
  | [], _ => exact Or.inl rfl
  | [c], happend =>
    -- The second brace would be a first one, and the body would begin with a brace.
    have hbody : q.body ++ rest = '\x7b' :: behind := (List.cons.inj (List.cons.inj happend).2).2
    obtain ⟨d, ds, hd⟩ := List.exists_cons_of_ne_nil q.body_ne_nil
    rw [hd, List.cons_append] at hbody
    have hmem : '\x7b' ∈ q.body := by
      rw [hd, (List.cons.inj hbody).1]
      exact List.mem_cons_self
    exact absurd hmem h.brace_not_mem_body
  | c :: d :: front, happend =>
    obtain ⟨rfl, hrest⟩ := List.cons.inj happend
    obtain ⟨rfl, hbody⟩ := List.cons.inj hrest
    refine Or.inr ?_
    rw [chars_eq]
    rcases List.append_eq_append_iff.mp hbody with ⟨more, rfl, -⟩ | ⟨more, hmore, hbehind⟩
    · exact ⟨more, rfl⟩
    · cases more with
      | nil =>
        rw [List.append_nil] at hmore
        subst hmore
        exact List.prefix_rfl
      | cons e more =>
        have hmem : '\x7b' ∈ q.body := by
          rw [hmore, (List.cons.inj hbehind).1]
          exact List.mem_append_right _ List.mem_cons_self
        exact absurd hmem h.brace_not_mem_body

end Placeholder

namespace Template

/-- A text without placeholders. -/
def Plain (cs : List Char) : Prop := ∀ p : Placeholder, p.WellFormed → ¬ p.chars <:+: cs

variable {cs ds rest : List Char} {p : Placeholder}

theorem plain_nil : Plain [] := fun p _ h => by
  have hnil : p.chars = [] := List.infix_nil.mp h
  exact absurd hnil (List.cons_ne_nil _ _)

theorem Plain.of_part (h : Plain cs) (hds : ds <:+: cs) : Plain ds :=
  fun p hp hpart => h p hp (hpart.trans hds)

/-- At the front of a plain text there is no placeholder, also not one that ends behind it, be it at
the end of all text or before a placeholder. -/
theorem Plain.front?_eq_none {c : Char} (h : Plain (c :: cs)) {tail : List Char}
    (htail : tail = [] ∨ ∃ behind, tail = '\x7b' :: '\x7b' :: behind) :
    Placeholder.front? (c :: cs ++ tail) = none := by
  cases hfront : Placeholder.front? (c :: cs ++ tail) with
  | none => rfl
  | some found =>
    obtain ⟨q, rest⟩ := found
    obtain ⟨hq, hchars⟩ := Placeholder.front?_eq_some_iff.mp hfront
    have hinside : q.chars <+: c :: cs := by
      rcases htail with rfl | ⟨behind, rfl⟩
      · rw [List.append_nil] at hchars
        exact ⟨rest, hchars⟩
      · exact (hq.eq_nil_or_inside hchars).resolve_left (List.cons_ne_nil _ _)
    exact absurd hinside.isInfix (h q hq)

theorem ofChars_of_front? (h : Placeholder.front? cs = some (p, rest)) :
    ofChars cs = .placeholder p :: ofChars rest := by
  rw [ofChars]
  split
  · next p' rest' h' =>
    rw [h] at h'
    obtain ⟨rfl, rfl⟩ := Prod.mk.inj (Option.some.inj h')
    rfl
  · next h' =>
    rw [h] at h'
    exact absurd h' (by simp)

theorem ofChars_cons {c : Char} (h : Placeholder.front? (c :: cs) = none) :
    ofChars (c :: cs) = .literal c :: ofChars cs := by
  rw [ofChars]
  split
  · next h' =>
    rw [h] at h'
    exact absurd h' (by simp)
  · rfl

end Template

/-! ## Cuts -/

/-- A text cut at placeholders: a literal, and placeholders each with the literal behind it. -/
structure Cut where
  first : List Char
  more : List (Placeholder × List Char)

namespace Cut

open Template

/-- The text that was cut. -/
def chars (c : Cut) : List Char := c.first ++ c.more.flatMap fun m => m.1.chars ++ m.2

/-- What takes the place of a placeholder: nothing for null, else the text of the value. -/
def shown (record : Value) (p : Placeholder) : List Char :=
  if (value record p).isNull then [] else (value record p).display.toList

/-- The text with the values of a record in the places of the placeholders. -/
def filled (record : Value) (c : Cut) : List Char :=
  c.first ++ c.more.flatMap fun m => shown record m.1 ++ m.2

/-- Nothing is left to be cut: there are no placeholders in the literals. -/
structure Clean (c : Cut) : Prop where
  first : Plain c.first
  more : ∀ m ∈ c.more, m.1.WellFormed ∧ Plain m.2

/-- A cut with more of a literal in front. -/
def afterLiteral (cs : List Char) (c : Cut) : Cut := ⟨cs ++ c.first, c.more⟩

/-- A cut with a placeholder in front. -/
def afterPlaceholder (p : Placeholder) (c : Cut) : Cut := ⟨[], (p, c.first) :: c.more⟩

/-- The pieces of a text put together to literals. -/
def ofPieces : List Piece → Cut
  | [] => ⟨[], []⟩
  | .literal d :: pieces => (ofPieces pieces).afterLiteral [d]
  | .placeholder p :: pieces => (ofPieces pieces).afterPlaceholder p

variable {c d : Cut} {cs : List Char} {p : Placeholder} {record : Value}

@[simp] theorem chars_afterLiteral : (c.afterLiteral cs).chars = cs ++ c.chars := List.append_assoc _ _ _

@[simp] theorem chars_afterPlaceholder : (c.afterPlaceholder p).chars = p.chars ++ c.chars := by
  simp [afterPlaceholder, chars]

@[simp] theorem filled_afterLiteral : (c.afterLiteral cs).filled record = cs ++ c.filled record :=
  List.append_assoc _ _ _

@[simp] theorem filled_afterPlaceholder :
    (c.afterPlaceholder p).filled record = shown record p ++ c.filled record := by
  simp [afterPlaceholder, filled]

theorem insertion_value (record : Value) (p : Placeholder) :
    insertion (value record p) = shown record p := by
  unfold shown
  cases value record p <;> rfl

theorem chars_ofPieces (pieces : List Piece) :
    (ofPieces pieces).chars = pieces.flatMap Piece.chars := by
  induction pieces with
  | nil => rfl
  | cons piece pieces ih =>
    cases piece with
    | literal d => simp [ofPieces, ih, Piece.chars]
    | placeholder p => simp [ofPieces, ih, Piece.chars]

theorem filled_ofPieces (record : Value) (pieces : List Piece) :
    (ofPieces pieces).filled record = pieces.flatMap (fill record) := by
  induction pieces with
  | nil => rfl
  | cons piece pieces ih =>
    cases piece with
    | literal d => simp [ofPieces, ih, fill]
    | placeholder p => simp [ofPieces, ih, fill, insertion_value]

theorem chars_ofPieces_ofChars (cs : List Char) : (ofPieces (ofChars cs)).chars = cs := by
  rw [chars_ofPieces, chars_ofChars]

/-- **Cutting at the leftmost placeholder again and again leaves none.** -/
theorem clean_ofPieces (cs : List Char) : (ofPieces (ofChars cs)).Clean := by
  fun_induction ofChars cs with
  | case1 cs p rest h ih =>
    refine ⟨plain_nil, List.forall_mem_cons.mpr ⟨?_, ih.more⟩⟩
    exact ⟨Placeholder.wellFormed_of_front? h, ih.first⟩
  | case2 h => exact ⟨plain_nil, fun m hm => absurd hm List.not_mem_nil⟩
  | case3 d cs h ih =>
    refine ⟨fun p hp hpart => ?_, ih.more⟩
    rcases List.infix_cons_iff.mp hpart with ⟨rest, hfront⟩ | hpart
    · -- It would have been found in front.
      have hcs : cs = (ofPieces (ofChars cs)).chars := (chars_ofPieces_ofChars cs).symm
      have hchars : p.chars ++ (rest ++ (ofPieces (ofChars cs)).more.flatMap
          fun m => m.1.chars ++ m.2) = d :: cs := by
        rw [← List.append_assoc, hfront]
        exact congrArg (d :: ·) hcs.symm
      rw [← hchars, hp.front?_chars_append] at h
      exact absurd h (by simp)
    · exact ih.first p hp hpart

/-- A plain literal is not cut, whether it ends the text or a placeholder follows. -/
theorem ofPieces_append {first tail : List Char} (hfirst : Plain first)
    (htail : tail = [] ∨ ∃ behind, tail = '\x7b' :: '\x7b' :: behind) :
    ofPieces (ofChars (first ++ tail)) = (ofPieces (ofChars tail)).afterLiteral first := by
  induction first with
  | nil => rfl
  | cons d first ih =>
    have hfront := hfirst.front?_eq_none htail
    rw [List.cons_append] at hfront ⊢
    rw [ofChars_cons hfront, ofPieces, ih (hfirst.of_part (List.suffix_cons d first).isInfix)]
    rfl

/-- A clean cut is the one that is found. -/
theorem ofPieces_of_clean (h : c.Clean) : ofPieces (ofChars c.chars) = c := by
  obtain ⟨first, more⟩ := c
  induction more generalizing first with
  | nil =>
    have hnil : ofPieces (ofChars []) = ⟨[], []⟩ := by
      rw [ofChars]
      rfl
    show ofPieces (ofChars (first ++ [])) = ⟨first, []⟩
    rw [ofPieces_append h.first (Or.inl rfl), hnil, afterLiteral, List.append_nil]
  | cons m more ih =>
    obtain ⟨⟨hp, hl⟩, hmore⟩ := List.forall_mem_cons.mp h.more
    have htail : ofChars (m.1.chars ++ (Cut.mk m.2 more).chars) =
        .placeholder m.1 :: ofChars (Cut.mk m.2 more).chars :=
      ofChars_of_front? (hp.front?_chars_append _)
    have hchars : (Cut.mk first (m :: more)).chars =
        first ++ (m.1.chars ++ (Cut.mk m.2 more).chars) := by
      simp [chars]
    have hfirst := ofPieces_append h.first
      (Or.inr ⟨m.1.body ++ (Cut.mk m.2 more).chars, rfl⟩ : m.1.chars ++ (Cut.mk m.2 more).chars = [] ∨ _)
    rw [hchars, hfirst, htail, ofPieces, ih m.2 ⟨hl, hmore⟩, afterLiteral, afterPlaceholder,
      List.append_nil]

/-- **Every text is cut clean in one way.** -/
theorem existsUnique_clean (cs : List Char) : ∃! c : Cut, c.Clean ∧ c.chars = cs := by
  refine ⟨ofPieces (ofChars cs), ⟨clean_ofPieces cs, chars_ofPieces_ofChars cs⟩, ?_⟩
  rintro c ⟨hclean, rfl⟩
  exact (ofPieces_of_clean hclean).symm

theorem eq_of_clean (hc : c.Clean) (hd : d.Clean) (h : c.chars = d.chars) : c = d :=
  (existsUnique_clean d.chars).unique ⟨hc, h⟩ ⟨hd, rfl⟩

/-- **A clean cut is made at every placeholder of the text.** -/
theorem mem_of_clean (hc : c.Clean) (hp : p.WellFormed) {front rest : List Char}
    (h : c.chars = front ++ p.chars ++ rest) :
    ∃ before literal behind, c.more = before ++ (p, literal) :: behind ∧
      front = (Cut.mk c.first before).chars ∧ rest = (Cut.mk literal behind).chars := by
  obtain ⟨x, ⟨hx, rfl⟩, -⟩ := existsUnique_clean front
  obtain ⟨y, ⟨hy, rfl⟩, -⟩ := existsUnique_clean rest
  have hwhole : c = ⟨x.first, x.more ++ (p, y.first) :: y.more⟩ := by
    refine eq_of_clean hc ⟨hx.first, ?_⟩ (h.trans (by simp [chars]))
    refine List.forall_mem_append.mpr ⟨hx.more, List.forall_mem_cons.mpr ⟨⟨hp, hy.first⟩, hy.more⟩⟩
  rw [hwhole]
  exact ⟨x.more, y.first, y.more, rfl, rfl, rfl⟩

/-- **The pieces that a text is filled in by are those of its clean cut.** -/
theorem filled_of_clean (h : c.Clean) (record : Value) :
    (ofChars c.chars).flatMap (fill record) = c.filled record := by
  rw [← filled_ofPieces, ofPieces_of_clean h]

end Cut

end ChangeRules
