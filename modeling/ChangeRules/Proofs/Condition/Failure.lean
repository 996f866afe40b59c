import ChangeRules.Proofs.Condition.Oversized

/-!
# Comparisons that fail

What is compared neither as an instant nor as a number is compared as a text, and has to be written
for that. An integer of more digits than are ever written stops the comparison, as an integer without
a double stops the other one. Integers with a double are far from the number of digits: so equality
comes to it beside truth values alone, and an order only where it does not find two numbers.

* `written_eq_error_iff`, `asTexts_eq_error_iff`: the values that are not written.
* `isWritable_of_isPlain`, `isWritable_of_toInstant?`: what is compared otherwise could be.
* `equals_eq_error_iff`, `order_eq_error_iff`: where two values are not compared.
* `Value.isFound`, `contains_eq_error_iff`: a list is searched up to the first item that is found.
* `Operator.Overflows`, `Operator.Overwrites`: the comparisons that fail.
* **`Operator.accepts_eq_error_iff`**: an operator's failures.
-/

namespace ChangeRules

/-- An integer had too many digits to be written. -/
def Fault.unwritable : Fault := .misuse .unwritableInteger

/-- What fails with a fault fails with no other one. -/
theorem error_eq_error_iff {α : Type} {f g : Fault} :
    (.error g : Except Fault α) = .error f ↔ f = g := by
  rw [Except.error.injEq, eq_comm]

theorem map_eq_error_iff {α β : Type} {outcome : Except Fault α} {g : α → β} {f : Fault} :
    outcome.map g = .error f ↔ outcome = .error f := by
  cases outcome <;> simp [Except.map]

namespace Value

variable {v w : Value} {temporal : Bool} {f : Fault}

/-! ## Writing -/

theorem written_of_isWritable (h : v.isWritable = true) : v.written = .ok v.plainText := by
  rw [written, if_pos h]

theorem written_of_not_isWritable (h : v.isWritable = false) : v.written = .error .unwritable := by
  rw [written, h]
  rfl

/-- A value is written or it is not. -/
theorem written_cases (v : Value) : v.written = .ok v.plainText ∨ v.written = .error .unwritable := by
  cases h : v.isWritable with
  | true => exact .inl (written_of_isWritable h)
  | false => exact .inr (written_of_not_isWritable h)

theorem written_eq_error_iff : v.written = .error f ↔ f = .unwritable ∧ v.isWritable = false := by
  cases h : v.isWritable with
  | true => simp [written_of_isWritable h]
  | false =>
    rw [written_of_not_isWritable h, error_eq_error_iff]
    simp

theorem asTexts_eq_error_iff {α : Type} {relation : String → String → α} :
    asTexts relation v w = .error f ↔ f = .unwritable ∧ ∃ u ∈ [v, w], u.isWritable = false := by
  unfold asTexts
  cases hv : v.isWritable with
  | false =>
    rw [written_of_not_isWritable hv]
    refine error_eq_error_iff.trans ?_
    simp [hv]
  | true =>
    cases hw : w.isWritable with
    | false =>
      rw [written_of_isWritable hv, written_of_not_isWritable hw]
      refine error_eq_error_iff.trans ?_
      simp [hw]
    | true =>
      simp [written_of_isWritable hv, written_of_isWritable hw, hv, hw, bind, Except.bind]

/-- An integer with a double has at most 309 digits. -/
theorem isWritable_of_fits {n : Int} (h : Double.Fits n) : (int n).isWritable = true := by
  have hlimit : Double.integerLimit ≤ 10 ^ Text.integerDigits := by decide +kernel
  have hdigits := (Nat.length_toDigits_le_iff (by decide) (by decide)).mpr
    (Nat.lt_of_lt_of_le h hlimit)
  rw [isWritable]
  exact decide_eq_true hdigits

theorem isWritable_of_isPlain (h : v.isPlain = true) (hfits : ¬ v.IsOversized) :
    v.isWritable = true := by
  cases v with
  | int n => exact isWritable_of_fits (Decidable.of_not_not fun hlarge => hfits ⟨n, rfl, hlarge⟩)
  | text _ => rfl
  | bool _ => rfl
  | double _ => rfl
  | _ => exact absurd h (by simp [isPlain, isNumeric])

theorem isWritable_of_toInstant? {t : DateTime} (h : v.toInstant? = some t) :
    v.isWritable = true := by
  cases v with
  | time _ => rfl
  | date _ => rfl
  | text _ => rfl
  | _ => exact absurd h (by simp [toInstant?])

theorem isWritable_of_toNumber {x : Double} (h : v.toNumber = .ok (some x)) :
    v.isWritable = true := by
  have hfits : ¬ v.IsOversized := by
    rcases v.toNumber_cases with ⟨-, herr⟩ | ⟨hfits, -⟩
    · exact absurd (h.symm.trans herr) (by simp)
    · exact hfits
  refine isWritable_of_isPlain ?_ hfits
  cases v <;> first | rfl | exact absurd h (by simp [toNumber])

/-! ## Comparing -/

theorem isWritable_of_instants {s t : DateTime}
    (h : (if temporal then instants? v w else none) = some (s, t)) :
    v.isWritable = true ∧ w.isWritable = true := by
  have hinstants : instants? v w = some (s, t) := by
    cases temporal with
    | true => exact h
    | false => exact absurd h (by simp)
  unfold instants? at hinstants
  cases hv : v.toInstant? with
  | none => simp [hv] at hinstants
  | some s' =>
    cases hw : w.toInstant? with
    | none => simp [hv, hw] at hinstants
    | some t' => exact ⟨isWritable_of_toInstant? hv, isWritable_of_toInstant? hw⟩

theorem isWritable_of_numbers? {x y : Double} (h : v.numbers? w = .ok (some (x, y))) :
    v.isWritable = true ∧ w.isWritable = true := by
  unfold numbers? at h
  cases hv : v.toNumber with
  | error f => simp [hv, bind, Except.bind] at h
  | ok x' =>
    cases hw : w.toNumber with
    | error f => simp [hv, hw, bind, Except.bind] at h
    | ok y' =>
      rw [hv, hw] at h
      cases x' with
      | none => exact absurd h (by simp [bind, Except.bind])
      | some _ =>
        cases y' with
        | none => exact absurd h (by simp [bind, Except.bind])
        | some _ => exact ⟨isWritable_of_toNumber hv, isWritable_of_toNumber hw⟩

/-- Plain values that are not too large for a double are written. -/
theorem exists_equalsPlainly (h : ¬ (v.IsOversized ∨ w.IsOversized)) :
    ∃ b, v.equalsPlainly w = .ok b := by
  obtain ⟨hv, hw⟩ := not_or.mp h
  unfold equalsPlainly
  split
  · next hplain =>
    rw [Bool.and_eq_true] at hplain
    rw [asTexts, written_of_isWritable (isWritable_of_isPlain hplain.1 hv),
      written_of_isWritable (isWritable_of_isPlain hplain.2 hw)]
    exact ⟨_, rfl⟩
  · exact ⟨_, rfl⟩

/-- An order fails for numbers that are too large, and for texts that cannot be written. -/
theorem order_eq_error_iff (hv : v.isNull = false) (hw : w.isNull = false) :
    v.order w temporal = .error f ↔ f = .oversized ∧ (v.IsOversized ∨ w.IsOversized) ∨
      f = .unwritable ∧ ¬ (v.IsOversized ∨ w.IsOversized) ∧ ∃ u ∈ [v, w], u.isWritable = false := by
  unfold order
  rw [hv, hw, Bool.or_false, if_neg Bool.false_ne_true]
  split
  · next s t hinstants =>
    obtain ⟨hwv, hww⟩ := isWritable_of_instants hinstants
    simp [not_isOversized_of_instants hinstants, hwv, hww]
  · cases hnumbers : v.numbers? w with
    | error f' =>
      obtain ⟨rfl, hlarge⟩ := numbers?_eq_error_iff.mp hnumbers
      refine error_eq_error_iff.trans ?_
      simp [hlarge]
    | ok numbers =>
      have hfits : ¬ (v.IsOversized ∨ w.IsOversized) := by
        intro hlarge
        exact absurd (hnumbers.symm.trans (numbers?_eq_error_iff.mpr ⟨rfl, hlarge⟩)) (by simp)
      cases numbers with
      | some pair =>
        obtain ⟨hwv, hww⟩ := isWritable_of_numbers? hnumbers
        simp [hfits, hwv, hww, bind, Except.bind]
      | none =>
        refine asTexts_eq_error_iff.trans ?_
        simp [hfits]

/-- Equality fails for numbers that are too large, or beside a truth value for texts that cannot be
written. -/
theorem equals_eq_error_iff (hv : v.isNull = false) (hw : w.isNull = false) :
    v.equals w temporal = .error f ↔
      f = .oversized ∧ (v.IsOversized ∨ w.IsOversized) ∧ v.isBool = false ∧ w.isBool = false ∨
      f = .unwritable ∧ (v.isBool || w.isBool) = true ∧ ∃ u ∈ [v, w], u.isWritable = false := by
  unfold equals
  rw [hv, hw, Bool.or_false, if_neg Bool.false_ne_true]
  split
  · next s t hinstants =>
    obtain ⟨hwv, hww⟩ := isWritable_of_instants hinstants
    simp [not_isOversized_of_instants hinstants, hwv, hww]
  · split
    · next hbool =>
      refine asTexts_eq_error_iff.trans ?_
      simp only [hbool, true_and]
      refine (or_iff_right ?_).symm
      rintro ⟨-, -, hvb, hwb⟩
      simp [hvb, hwb] at hbool
    · next hbool =>
      rw [Bool.or_eq_true, not_or, Bool.not_eq_true, Bool.not_eq_true] at hbool
      simp only [hbool, Bool.or_false, Bool.false_eq_true, false_and, and_false, or_false, and_true]
      by_cases hlarge : v.IsOversized ∨ w.IsOversized
      · rw [if_pos (isNumeric_of_isOversized hlarge), numbers?_eq_error_iff.mpr ⟨rfl, hlarge⟩]
        refine error_eq_error_iff.trans ?_
        simp [hlarge]
      · obtain ⟨b, hb⟩ := exists_equalsPlainly hlarge
        rw [hb]
        split
        · cases hnumbers : v.numbers? w with
          | error f' => exact absurd (numbers?_eq_error_iff.mp hnumbers).2 hlarge
          | ok numbers => cases numbers <;> simp [hlarge, bind, Except.bind]
        · simp [hlarge]

/-! ## Searching -/

/-- An item of a list is found in it: it is the value that is looked for, or has its text. -/
def isFound (w item : Value) : Bool :=
  !item.isNull && (item.same w || item.isWritable && item.plainText == w.plainText)

theorem hasItem_eq_error_iff {items : List Value} : hasItem w w.plainText items = .error f ↔
    f = .unwritable ∧ ∃ u ∈ items.takeWhile (!w.isFound ·), u.isWritable = false := by
  induction items with
  | nil => simp [hasItem]
  | cons item items ih =>
    rw [hasItem, List.takeWhile_cons, isItem]
    cases hnull : item.isNull with
    | true =>
      have hitem : item = .null := by
        cases item <;> first | rfl | exact absurd hnull (by simp [isNull])
      subst hitem
      simpa [isFound, isNull, isWritable, bind, Except.bind] using ih
    | false =>
      cases hsame : item.same w with
      | true => simp [isFound, hnull, hsame, bind, Except.bind]
      | false =>
        cases hwritable : item.isWritable with
        | false =>
          rw [written_of_not_isWritable hwritable]
          refine error_eq_error_iff.trans ?_
          simp [isFound, hsame, hwritable]
        | true =>
          cases htext : item.plainText == w.plainText with
          | true =>
            simp [isFound, hnull, hsame, hwritable, htext, written_of_isWritable hwritable,
              Except.map, bind, Except.bind]
          | false =>
            simpa [isFound, hnull, hsame, hwritable, htext, written_of_isWritable hwritable,
              Except.map, bind, Except.bind] using ih

/-- The values whose texts a search compares: the one that is looked for, and what it is looked for in,
of a list up to the first item that is found. -/
def searched (v w : Value) : List Value :=
  match v with
  | .text _ | .object _ => [w]
  | .list items => w :: items.takeWhile (!w.isFound ·)
  | v => [v, w]

/-- A search fails for texts that cannot be written. -/
theorem contains_eq_error_iff (hv : v.isNull = false) (hw : w.isNull = false) :
    v.contains w = .error f ↔ f = .unwritable ∧ ∃ u ∈ v.searched w, u.isWritable = false := by
  unfold contains
  rw [hv, hw, Bool.or_false, if_neg Bool.false_ne_true]
  cases v with
  | text s => simp [map_eq_error_iff, written_eq_error_iff, searched]
  | object fields => simp [map_eq_error_iff, written_eq_error_iff, searched]
  | list items =>
    cases hwritable : w.isWritable with
    | false =>
      rw [written_of_not_isWritable hwritable]
      refine error_eq_error_iff.trans ?_
      simp [searched, hwritable]
    | true =>
      rw [written_of_isWritable hwritable]
      refine hasItem_eq_error_iff.trans ?_
      simp [searched, hwritable]
  | _ => exact asTexts_eq_error_iff

end Value

/-! ## Operators -/

namespace Operator

/-- An operator compares two values as numbers, and one of them is too large for a double. -/
def Overflows (o : Operator) (v w : Value) : Prop :=
  v.isNull = false ∧ w.isNull = false ∧ (v.IsOversized ∨ w.IsOversized) ∧
    match o with
    | .greaterThan | .lessThan => True
    | .equals | .notEquals => v.isBool = false ∧ w.isBool = false
    | _ => False

/-- The values that an operator compares by their texts, unless it compares them otherwise. -/
def texts (o : Operator) (v w : Value) : List Value :=
  match o with
  | .equals | .notEquals => if v.isBool || w.isBool then [v, w] else []
  | .greaterThan | .lessThan | .startsWith | .endsWith => [v, w]
  | .contains => v.searched w
  | .isNull | .isNotNull => []

/-- An operator compares the texts of two values, and one that it compares cannot be written. -/
def Overwrites (o : Operator) (v w : Value) : Prop :=
  v.isNull = false ∧ w.isNull = false ∧ ¬ o.Overflows v w ∧ ∃ u ∈ o.texts v w, u.isWritable = false

variable {o : Operator} {v w : Value} {temporal : Bool} {f : Fault}

/-- Beside null every operator comes to something. -/
theorem exists_accepts_of_isNull (h : (v.isNull || w.isNull) = true) :
    ∃ b, o.accepts v w temporal = .ok b := by
  cases o with
  | equals => exact ⟨_, by rw [accepts, Value.equals, if_pos h]⟩
  | notEquals => exact ⟨_, by rw [accepts, Value.equals, if_pos h]; rfl⟩
  | greaterThan => exact ⟨_, by rw [accepts, Value.order, if_pos h]; rfl⟩
  | lessThan => exact ⟨_, by rw [accepts, Value.order, if_pos h]; rfl⟩
  | contains => exact ⟨_, by unfold accepts Value.contains; exact if_pos h⟩
  | startsWith => exact ⟨_, by rw [accepts, Value.textually, if_pos h]⟩
  | endsWith => exact ⟨_, by rw [accepts, Value.textually, if_pos h]⟩
  | isNull => exact ⟨_, rfl⟩
  | isNotNull => exact ⟨_, rfl⟩

theorem textually_eq_error_iff {relation : String → String → Bool} (hv : v.isNull = false)
    (hw : w.isNull = false) : v.textually relation w = .error f ↔
      f = .unwritable ∧ ∃ u ∈ [v, w], u.isWritable = false := by
  rw [Value.textually, hv, hw, Bool.or_false, if_neg Bool.false_ne_true]
  exact Value.asTexts_eq_error_iff

/-- **An operator fails for integers that are too large**, for the one or the other comparison. -/
theorem accepts_eq_error_iff : o.accepts v w temporal = .error f ↔
    f = .oversized ∧ o.Overflows v w ∨ f = .unwritable ∧ o.Overwrites v w := by
  by_cases hnull : (v.isNull || w.isNull) = true
  · obtain ⟨b, hb⟩ : ∃ b, o.accepts v w temporal = .ok b := exists_accepts_of_isNull hnull
    rw [hb]
    refine iff_of_false (by simp) ?_
    rintro (⟨-, hv, hw, -⟩ | ⟨-, hv, hw, -⟩) <;> simp [hv, hw] at hnull
  · rw [Bool.or_eq_true, not_or, Bool.not_eq_true, Bool.not_eq_true] at hnull
    obtain ⟨hv, hw⟩ := hnull
    have hequals : v.equals w temporal = .error f ↔
        f = .oversized ∧ Overflows .equals v w ∨ f = .unwritable ∧ Overwrites .equals v w := by
      refine (Value.equals_eq_error_iff hv hw).trans ?_
      cases hbool : v.isBool || w.isBool with
      | true =>
        have hnot : ¬ (v.isBool = false ∧ w.isBool = false) := by
          rintro ⟨hvb, hwb⟩
          simp [hvb, hwb] at hbool
        simp [Overflows, Overwrites, texts, hv, hw, hbool, hnot]
      | false =>
        rw [Bool.or_eq_false_iff] at hbool
        simp [Overflows, Overwrites, texts, hv, hw, hbool]
    have horder : v.order w temporal = .error f ↔
        f = .oversized ∧ Overflows .greaterThan v w ∨
          f = .unwritable ∧ Overwrites .greaterThan v w := by
      refine (Value.order_eq_error_iff hv hw).trans ?_
      simp [Overflows, Overwrites, texts, hv, hw]
    cases o with
    | equals => exact hequals
    | notEquals => exact map_eq_error_iff.trans hequals
    | greaterThan => exact map_eq_error_iff.trans horder
    | lessThan => exact map_eq_error_iff.trans horder
    | contains =>
      refine (Value.contains_eq_error_iff hv hw).trans ?_
      simp [Overflows, Overwrites, texts, hv, hw]
    | startsWith =>
      refine (textually_eq_error_iff hv hw).trans ?_
      simp [Overflows, Overwrites, texts, hv, hw]
    | endsWith =>
      refine (textually_eq_error_iff hv hw).trans ?_
      simp [Overflows, Overwrites, texts, hv, hw]
    | isNull => simp [accepts, Overflows, Overwrites, texts]
    | isNotNull => simp [accepts, Overflows, Overwrites, texts]

end Operator

end ChangeRules
