import ChangeRules.Proofs.Condition.Comparison
import ChangeRules.Proofs.Number.Reading

/-!
# Integers in conditions

Beside a number an integer is compared as the double nearest to it, and so is its text. Rounding keeps
the order of integers, so two of them are never put in the wrong order. But it does not keep them
apart: those with one double are equal here, and those without a double cannot be compared.

* `Value.order_int`: two integers are in the order of their doubles.
* `Condition.ComparesExactly`: two integers are compared as they are.
* **`comparesExactly_iff`**: they are, unless one has no double or both have the same.
* **`compared_of_integers`**: what comparing two integers comes to.
* `Value.Alike`: two values with one number and one text; **`accepts_of_alike`**: no operator tells them
  apart beside a number.
* **`answer_of_text`**: every number is compared with an integer as with the text of it.
-/

namespace ChangeRules

namespace Value

variable {v w : Value} {temporal : Bool}

/-- Beside a number there are no two instants. -/
theorem grounds?_of_isNumeric (h : v.isNumeric = true) : grounds? v w temporal = none := by
  cases temporal
  · rfl
  · cases v <;> first | exact absurd h Bool.false_ne_true | rfl

theorem isNull_of_isNumeric (h : v.isNumeric = true) : v.isNull = false := by
  cases v <;> first | exact absurd h Bool.false_ne_true | rfl

/-- What a number contains, its text contains. -/
theorem contains_of_isNumeric (h : v.isNumeric = true) (hw : w.isNull = false) :
    v.contains w = asTexts Text.contains v w := by
  unfold contains
  rw [isNull_of_isNumeric h, hw]
  cases v <;> first | exact absurd h Bool.false_ne_true | rfl

theorem Settled.of_isNumeric (h : v.isNumeric = true) (hw : w.isNull = false) :
    Settled v w temporal :=
  .inl ⟨isNull_of_isNumeric h, hw, by rw [h, Bool.true_or]⟩

/-! ## Two integers -/

section

variable {a e : Int}

/-- Two integers are in the order of their doubles. -/
theorem order_int (ha : Double.Fits a) (he : Double.Fits e) : (Value.int a).order (.int e) temporal =
    .ok (compare (Double.unitsOf a) (Double.unitsOf e)) := by
  have hnumbers : numbers? (.int a) (.int e) =
      .ok (some (.finite (Double.unitsOf a), .finite (Double.unitsOf e))) := by
    rw [numbers?, toNumber_int, toNumber_int, if_pos ha, if_pos he]
    rfl
  rw [order_eq rfl, grounds?_of_isNumeric rfl, hnumbers]
  rfl

/-- Rounding keeps the order of integers that it keeps apart. -/
theorem compare_unitsOf (h : Double.unitsOf a = Double.unitsOf e → a = e) :
    compare (Double.unitsOf a) (Double.unitsOf e) = compare a e := by
  rcases Int.lt_trichotomy a e with hlt | rfl | hgt
  · have hle := Double.unitsOf_mono (Int.le_of_lt hlt)
    have hne := mt h (Int.ne_of_lt hlt)
    rw [Int.compare_eq_lt.mpr hlt, Int.compare_eq_lt.mpr (by omega)]
  · rw [Int.compare_eq_eq.mpr rfl, Int.compare_eq_eq.mpr rfl]
  · have hle := Double.unitsOf_mono (Int.le_of_lt hgt)
    have hne := mt h (Int.ne_of_gt hgt)
    rw [Int.compare_eq_gt.mpr hgt, Int.compare_eq_gt.mpr (by omega)]

end

end Value

namespace Condition

/-- The operators that compare two values. -/
def comparisons : List Operator := [.equals, .notEquals, .greaterThan, .lessThan]

theorem mem_comparisons_iff {o : Operator} :
    o ∈ comparisons ↔ o = .notEquals ∨ ∃ r, o = .ofOrdering r := by
  constructor
  · intro ho
    simp only [comparisons, List.mem_cons, List.not_mem_nil, or_false] at ho
    rcases ho with rfl | rfl | rfl | rfl
    · exact .inr ⟨.eq, rfl⟩
    · exact .inl rfl
    · exact .inr ⟨.gt, rfl⟩
    · exact .inr ⟨.lt, rfl⟩
  · rintro (rfl | ⟨r, rfl⟩)
    · decide
    · cases r <;> decide

/-- A condition compares two integers as they are. -/
structure ComparesExactly (types : Fields) (field : String) (a e : Int) : Prop where
  equals : answer types field .equals (.int a) (.int e) = .ok (decide (a = e))
  notEquals : answer types field .notEquals (.int a) (.int e) = .ok (decide (a ≠ e))
  greaterThan : answer types field .greaterThan (.int a) (.int e) = .ok (decide (a > e))
  lessThan : answer types field .lessThan (.int a) (.int e) = .ok (decide (a < e))

section

variable {types : Fields} {field : String} {a e : Int}

/-- What is said of two integers follows from the order of their doubles. -/
theorem answer_int (types : Fields) (field : String) (ha : Double.Fits a) (he : Double.Fits e)
    (r : Ordering) : answer types field (.ofOrdering r) (.int a) (.int e) =
      .ok (compare (Double.unitsOf a) (Double.unitsOf e) == r) := by
  rw [answer_eq]
  exact Operator.accepts_of_order (Value.comparable_int.mpr ha) (Value.comparable_int.mpr he)
    (.of_isNumeric rfl rfl) (Value.order_int ha he) r

/-- Two values are said to differ exactly if they are not said to be equal. -/
theorem notEquals_eq (types : Fields) (field : String) (v w : Value) :
    answer types field .notEquals v w = (answer types field .equals v w).map not := by
  rw [answer_eq, answer_eq]
  rfl

/-- Integers without a double are not compared. -/
theorem answer_int_of_not_fits (types : Fields) (field : String)
    (h : ¬ (Double.Fits a ∧ Double.Fits e)) {o : Operator} (ho : o ∈ comparisons) :
    answer types field o (.int a) (.int e) = .error .oversized := by
  have hlarge : (Value.int a).IsOversized ∨ (Value.int e).IsOversized := by
    rcases not_and_or.mp h with ha | he
    · exact .inl ⟨a, rfl, ha⟩
    · exact .inr ⟨e, rfl, he⟩
  rw [answer_eq, Operator.accepts_eq_error_iff]
  refine .inl ⟨rfl, rfl, rfl, hlarge, ?_⟩
  rcases mem_comparisons_iff.mp ho with rfl | ⟨r, rfl⟩
  · exact ⟨rfl, rfl⟩
  · cases r with
    | eq => exact ⟨rfl, rfl⟩
    | lt => trivial
    | gt => trivial

/-- Two integers are never put in the wrong order. -/
theorem compare_of_answer {r : Ordering} (hr : r ≠ .eq)
    (h : answer types field (.ofOrdering r) (.int a) (.int e) = .ok true) : compare a e = r := by
  by_cases hfits : Double.Fits a ∧ Double.Fits e
  · rw [answer_int types field hfits.1 hfits.2] at h
    have hunits := eq_of_beq (Except.ok.inj h)
    rw [← hunits, Value.compare_unitsOf]
    intro hsame
    exact absurd (hunits.symm.trans (Int.compare_eq_eq.mpr hsame)) hr
  · have hfailed := answer_int_of_not_fits types field hfits (o := .ofOrdering r)
      (mem_comparisons_iff.mpr (.inr ⟨r, rfl⟩))
    exact absurd (h.symm.trans hfailed) (by simp)

theorem comparesExactly_of_apart (ha : Double.Fits a) (he : Double.Fits e)
    (hapart : Double.ofInt a = Double.ofInt e → a = e) : ComparesExactly types field a e := by
  rw [Double.ofInt_eq_iff ha he] at hapart
  have hanswer := answer_int types field ha he
  rw [Value.compare_unitsOf hapart] at hanswer
  have hequal : (compare a e == .eq) = decide (a = e) := by
    rw [Bool.eq_iff_iff, beq_iff_eq, Int.compare_eq_eq, decide_eq_true_iff]
  refine ⟨?_, ?_, ?_, ?_⟩
  · rw [← hequal]
    exact hanswer .eq
  · rw [notEquals_eq, decide_not, ← hequal]
    exact congrArg (Except.map not) (hanswer .eq)
  · refine (hanswer .gt).trans (congrArg Except.ok ?_)
    rw [Bool.eq_iff_iff, beq_iff_eq, Int.compare_eq_gt, decide_eq_true_iff]
  · refine (hanswer .lt).trans (congrArg Except.ok ?_)
    rw [Bool.eq_iff_iff, beq_iff_eq, Int.compare_eq_lt, decide_eq_true_iff]

/-- **Two integers are compared as they are**, unless one has no double or both have the same. -/
theorem comparesExactly_iff : ComparesExactly types field a e ↔
    Double.Fits a ∧ Double.Fits e ∧ (Double.ofInt a = Double.ofInt e → a = e) := by
  refine ⟨fun h => ?_, fun ⟨ha, he, hapart⟩ => comparesExactly_of_apart ha he hapart⟩
  have hfits : Double.Fits a ∧ Double.Fits e := by
    by_contra hnot
    have hfailed := answer_int_of_not_fits types field hnot (o := .equals) (by decide)
    exact absurd (h.equals.symm.trans hfailed) (by simp)
  refine ⟨hfits.1, hfits.2, fun hsame => ?_⟩
  have hequal := answer_int types field hfits.1 hfits.2 .eq
  rw [Int.compare_eq_eq.mpr ((Double.ofInt_eq_iff hfits.1 hfits.2).mp hsame)] at hequal
  exact of_decide_eq_true (Except.ok.inj (h.equals.symm.trans hequal))

theorem comparesExactly_of_small (ha : a.natAbs ≤ 2 ^ 53) (he : e.natAbs ≤ 2 ^ 53) :
    ComparesExactly types field a e := by
  obtain ⟨hafits, haunits⟩ := Double.unitsOf_of_small ha
  obtain ⟨hefits, heunits⟩ := Double.unitsOf_of_small he
  refine comparesExactly_of_apart hafits hefits fun hsame => ?_
  have hone : (Double.unitsPerOne : Int) ≠ 0 := by
    have hpos : Double.unitsPerOne ≠ 0 := by decide +kernel
    omega
  rw [Double.ofInt_eq_iff hafits hefits, haunits, heunits] at hsame
  exact Int.eq_of_mul_eq_mul_right hone hsame

/-- Integers with one double are compared as one integer. -/
theorem answer_int_of_same (types : Fields) (field : String) (ha : Double.Fits a)
    (he : Double.Fits e) (hsame : Double.ofInt a = Double.ofInt e) {o : Operator}
    (ho : o ∈ comparisons) :
    answer types field o (.int a) (.int e) = answer types field o (.int a) (.int a) := by
  have hanswer : ∀ r, answer types field (.ofOrdering r) (.int a) (.int e) =
      answer types field (.ofOrdering r) (.int a) (.int a) := by
    intro r
    rw [answer_int types field ha he, answer_int types field ha ha,
      (Double.ofInt_eq_iff ha he).mp hsame]
  rcases mem_comparisons_iff.mp ho with rfl | ⟨r, rfl⟩
  · rw [notEquals_eq, notEquals_eq]
    exact congrArg (Except.map not) (hanswer .eq)
  · exact hanswer r

end

/-- What comparing two integers comes to. -/
structure IntegersCompared (types : Fields) (field : String) (a e : Int) : Prop where
  exactly_iff : ComparesExactly types field a e ↔
    Double.Fits a ∧ Double.Fits e ∧ (Double.ofInt a = Double.ofInt e → a = e)
  exactly_of_small : a.natAbs ≤ 2 ^ 53 → e.natAbs ≤ 2 ^ 53 → ComparesExactly types field a e
  ordered : ∀ r, r ≠ .eq → answer types field (.ofOrdering r) (.int a) (.int e) = .ok true →
    compare a e = r
  merged : Double.Fits a → Double.Fits e → Double.ofInt a = Double.ofInt e → ∀ o ∈ comparisons,
    answer types field o (.int a) (.int e) = answer types field o (.int a) (.int a)
  failed : ¬ (Double.Fits a ∧ Double.Fits e) → ∀ o ∈ comparisons,
    answer types field o (.int a) (.int e) = .error .oversized

/-- **Two integers are compared as their doubles are**: as they are themselves if they are small, never
the wrong way round, as one integer if they have one double, and not at all if one has none. -/
theorem compared_of_integers (types : Fields) (field : String) (a e : Int) :
    IntegersCompared types field a e where
  exactly_iff := comparesExactly_iff
  exactly_of_small := comparesExactly_of_small
  ordered _ hr h := compare_of_answer hr h
  merged ha he hsame _ ho := answer_int_of_same types field ha he hsame ho
  failed hlarge _ ho := answer_int_of_not_fits types field hlarge ho

/-- **Two integers that count as equal**: the first one without a double of its own, and the one before. -/
theorem not_comparesExactly_neighbours :
    answer [] "id" .equals (.int 9007199254740993) (.int 9007199254740992) = .ok true ∧
      ¬ ComparesExactly [] "id" 9007199254740993 9007199254740992 := by
  have hsame : Double.ofInt 9007199254740993 = Double.ofInt 9007199254740992 := by decide +kernel
  have hfits : Double.Fits 9007199254740993 ∧ Double.Fits 9007199254740992 := by decide +kernel
  refine ⟨?_, fun hexact => ?_⟩
  · rw [answer_int_of_same [] "id" hfits.1 hfits.2 hsame (by decide)]
    exact answer_equals_self [] "id" (Value.comparable_int.mpr hfits.1)
  · exact absurd ((comparesExactly_iff.mp hexact).2.2 hsame) (by decide)

end Condition

/-! ## The text of an integer -/

namespace Value

/-- The text of an integer denotes the same number. -/
theorem toNumber_text_int {n : Int} (h : Double.Fits n) :
    (Value.text (toString n)).toNumber = (Value.int n).toNumber := by
  have hread : readDouble? (Text.trim (toString n)) = some (.finite (Double.unitsOf n)) := by
    rw [(isTidy_int n).trim_eq, readDouble?_int, Double.ofInt_of_fits h]
  rw [toNumber_int, if_pos h, toNumber, hread]
  rfl

/-- Two values denote the same number and have the same text. -/
structure Alike (w w' : Value) : Prop where
  left : w.Comparable ∧ w.isNull = false
  right : w'.Comparable ∧ w'.isNull = false
  number : w.toNumber = w'.toNumber
  text : w.plainText = w'.plainText

theorem alike_int {n : Int} (h : Double.Fits n) : Alike (.int n) (.text (toString n)) where
  left := ⟨h, rfl⟩
  right := ⟨trivial, rfl⟩
  number := (toNumber_text_int h).symm
  text := rfl

section

variable {v w w' : Value}

/-- What has the same text stands in the same relations as a text. -/
theorem Alike.asTexts {α : Type} (h : Alike w w') (relation : String → String → α) (v : Value) :
    asTexts relation v w = asTexts relation v w' := by
  unfold Value.asTexts
  rw [written_of_isWritable h.left.1.isWritable, written_of_isWritable h.right.1.isWritable, h.text]

theorem Alike.order (h : Alike w w') (hv : v.isNumeric = true) (temporal : Bool) :
    v.order w temporal = v.order w' temporal := by
  have hnull := isNull_of_isNumeric hv
  have hby : orderBy v w = orderBy v w' := by
    funext numbers
    cases numbers with
    | none => exact h.asTexts textOrder v
    | some pair => rfl
  have hnumbers : numbers? v w = numbers? v w' := by rw [numbers?, numbers?, h.number]
  rw [order_eq (by rw [hnull, h.left.2]; rfl), order_eq (by rw [hnull, h.right.2]; rfl),
    grounds?_of_isNumeric hv, grounds?_of_isNumeric hv, hnumbers, hby]

end

end Value

/-- **No operator tells two values apart** beside a number, if they denote the same one and have the
same text. -/
theorem Operator.accepts_of_alike {v w w' : Value} (h : w.Alike w') (hv : v.Comparable)
    (hnumeric : v.isNumeric = true) (o : Operator) (temporal : Bool) :
    o.accepts v w temporal = o.accepts v w' temporal := by
  have horder := h.order hnumeric temporal
  have hequals : v.equals w temporal = v.equals w' temporal := by
    rw [Value.equals_of_settled hv h.left.1 (.of_isNumeric hnumeric h.left.2),
      Value.equals_of_settled hv h.right.1 (.of_isNumeric hnumeric h.right.2), horder]
  cases o with
  | equals => exact hequals
  | notEquals => exact congrArg (Except.map not) hequals
  | greaterThan => exact congrArg (Except.map (· == .gt)) horder
  | lessThan => exact congrArg (Except.map (· == .lt)) horder
  | contains =>
    rw [accepts, accepts, Value.contains_of_isNumeric hnumeric h.left.2,
      Value.contains_of_isNumeric hnumeric h.right.2, h.asTexts]
  | startsWith => rw [accepts, accepts, Value.textually, Value.textually, h.left.2, h.right.2, h.asTexts]
  | endsWith => rw [accepts, accepts, Value.textually, Value.textually, h.left.2, h.right.2, h.asTexts]
  | isNull => rfl
  | isNotNull => rfl

namespace Condition

/-- **Every number is compared with an integer as with the text of it.** -/
theorem answer_of_text (types : Fields) (field : String) {v : Value} {n : Int}
    (hv : v.Comparable) (hnumeric : v.isNumeric = true) (hn : Double.Fits n) (o : Operator) :
    ∃ b, answer types field o v (.int n) = .ok b ∧
      answer types field o v (.text (toString n)) = .ok b := by
  obtain ⟨b, hb⟩ := o.exists_accepts hv (Value.comparable_int.mpr hn)
    (isTemporal (Value.get types field))
  refine ⟨b, by rw [answer_eq, hb], ?_⟩
  rw [answer_eq, ← o.accepts_of_alike (Value.alike_int hn) hv hnumeric, hb]

/-- The undefined number beside an integer without an exact double. -/
theorem answer_of_text_nan : Value.Comparable (.double .nan) ∧
    Value.isNumeric (.double .nan) = true ∧ Double.Fits 9007199254740993 ∧
    ∃ b, answer [] "mean" .lessThan (.double .nan) (.int 9007199254740993) = .ok b ∧
      answer [] "mean" .lessThan (.double .nan) (.text "9007199254740993") = .ok b := by
  have hfits : Double.Fits 9007199254740993 := by decide +kernel
  have htext : toString (9007199254740993 : Int) = "9007199254740993" := by decide +kernel
  have hsame := answer_of_text [] "mean" (v := .double .nan) trivial rfl hfits .lessThan
  rw [htext] at hsame
  exact ⟨trivial, rfl, hfits, hsame⟩

end Condition

end ChangeRules
