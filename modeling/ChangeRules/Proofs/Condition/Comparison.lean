import ChangeRules.Proofs.Condition.Failure

/-!
# Equality and order of values

Two values are compared as instants, as numbers or as texts, and equality and order choose between
these on their own: two texts are put in order as numbers where both denote one, but they are equal
only as texts. The two agree all the same. Where both choose alike, values are equal exactly if neither
comes before the other; elsewhere only a value itself is equal to it.

* **`Value.order_swap`**: turning two values round turns their order round, whatever they are.
* `Value.Comparable`: null, texts, doubles, and integers that have a double.
* `Value.Settled`: equality and order choose alike.
* **`Value.equals_of_settled`**, **`Value.equals_of_not_settled`**: equality beside the order.
* `Condition.answer`: a condition on one value; **`holds_object`**: that is all of a condition.
* **`consistent_of_comparable`**: equal, greater and less of values that can be compared.
-/

namespace ChangeRules

theorem textOrder_swap (s t : String) : textOrder t s = (textOrder s t).swap :=
  Std.OrientedOrd.eq_swap (a := t)

theorem textOrder_eq_iff {s t : String} : textOrder s t = .eq ↔ s = t :=
  Std.LawfulEqOrd.compare_eq_iff_eq (a := s)

/-- Finite doubles are equal exactly if neither comes before the other. -/
theorem Double.same_of_isFinite {x y : Double} (hx : x.isFinite = true) (hy : y.isFinite = true) :
    x.same y = ((x.compare? y).getD .eq == .eq) := by
  have hsome : x.compare? y ≠ none := by
    rw [Ne, compare?_eq_none_iff]
    rintro (rfl | rfl)
    · exact absurd hx Bool.false_ne_true
    · exact absurd hy Bool.false_ne_true
  obtain ⟨r, hr⟩ := Option.ne_none_iff_exists'.mp hsome
  rw [same, hr]
  cases r <;> rfl

namespace Value

variable {v w : Value} {temporal : Bool}

/-! ## Order -/

/-- The instants that two values are compared by, if they are. -/
def grounds? (v w : Value) (temporal : Bool) : Option (DateTime × DateTime) :=
  if temporal then instants? v w else none

/-- The order of two values by their numbers, or by their texts where there are none. -/
def orderBy (v w : Value) : Option (Double × Double) → Except Fault Ordering
  | some (x, y) => .ok ((x.compare? y).getD .eq)
  | none => asTexts textOrder v w

/-- Values are put in order as instants, as numbers or as texts, whichever they are first. -/
theorem order_eq (hnull : (v.isNull || w.isNull) = false) : v.order w temporal =
    match grounds? v w temporal with
    | some (s, t) => .ok (compare s.instant t.instant)
    | none => numbers? v w >>= orderBy v w := by
  unfold order
  rw [hnull, if_neg Bool.false_ne_true, grounds?]
  cases (if temporal then instants? v w else none) with
  | some _ => rfl
  | none =>
    refine bind_congr fun numbers => ?_
    cases numbers <;> rfl

theorem grounds?_swap (v w : Value) (temporal : Bool) :
    grounds? w v temporal = (grounds? v w temporal).map Prod.swap := by
  cases temporal
  · rfl
  · unfold grounds? instants?
    cases v.toInstant? <;> cases w.toInstant? <;> rfl

/-- Two numbers are read in either order: what stands against it is the same. -/
theorem numbers?_swap (v w : Value) :
    numbers? w v = (numbers? v w).map (Option.map Prod.swap) := by
  unfold numbers?
  rcases v.toNumber_cases with ⟨-, hx⟩ | ⟨-, x, hx, -⟩ <;>
    rcases w.toNumber_cases with ⟨-, hy⟩ | ⟨-, y, hy, -⟩ <;> rw [hx, hy]
  · rfl
  · rfl
  · rfl
  · cases x <;> cases y <;> rfl

theorem orderBy_swap (numbers : Option (Double × Double)) :
    orderBy w v (numbers.map Prod.swap) = (orderBy v w numbers).map Ordering.swap := by
  cases numbers with
  | none =>
    rcases v.written_cases with hv | hv <;> rcases w.written_cases with hw | hw <;>
      simp only [orderBy, Option.map_none, asTexts, hv, hw, bind, Except.bind, Except.map]
    rw [textOrder_swap]
  | some pair =>
    have hswap : (pair.2.compare? pair.1).getD .eq = ((pair.1.compare? pair.2).getD .eq).swap := by
      rw [Double.compare?_swap pair.1 pair.2]
      cases pair.1.compare? pair.2 <;> rfl
    exact congrArg Except.ok hswap

/-- **Turning two values round turns their order round.** -/
theorem order_swap (v w : Value) (temporal : Bool) :
    w.order v temporal = (v.order w temporal).map Ordering.swap := by
  cases hnull : v.isNull || w.isNull with
  | true => simp [order, hnull, Bool.or_comm w.isNull, Except.map]
  | false =>
    rw [order_eq hnull, order_eq (Bool.or_comm _ _ ▸ hnull), grounds?_swap v w]
    cases grounds? v w temporal with
    | some _ => exact congrArg Except.ok Std.OrientedOrd.eq_swap
    | none =>
      dsimp only [Option.map_none]
      rw [numbers?_swap v w]
      cases numbers? v w with
      | error f => rfl
      | ok numbers => exact orderBy_swap numbers

/-! ## Values that can be compared -/

/-- A value is null, a text or a number that is not too large for a double. -/
def Comparable : Value → Prop
  | .null => True
  | .int n => Double.Fits n
  | .double _ => True
  | .text _ => True
  | _ => False

theorem comparable_int {n : Int} : (Value.int n).Comparable ↔ Double.Fits n := Iff.rfl

theorem not_isOversized_of_comparable (hv : v.Comparable) (hw : w.Comparable) :
    ¬ (v.IsOversized ∨ w.IsOversized) := by
  rintro (⟨n, rfl, hlarge⟩ | ⟨n, rfl, hlarge⟩)
  · exact hlarge hv
  · exact hlarge hw

theorem Comparable.isBool (h : v.Comparable) : v.isBool = false := by
  cases v with
  | bool b => exact h.elim
  | _ => rfl

theorem isNull_iff : v.isNull = true ↔ v = .null := by
  cases v <;> simp [isNull]

theorem Comparable.exists_text (h : v.Comparable) (hnull : v.isNull = false)
    (hnumeric : v.isNumeric = false) : ∃ s, v = .text s := by
  cases v with
  | null => exact absurd hnull.symm Bool.false_ne_true
  | int n => exact absurd hnumeric.symm Bool.false_ne_true
  | double x => exact absurd hnumeric.symm Bool.false_ne_true
  | text s => exact ⟨s, rfl⟩
  | _ => exact h.elim

theorem Comparable.isPlain (h : v.Comparable) (hnull : v.isNull = false) : v.isPlain = true := by
  cases hnumeric : v.isNumeric with
  | true => cases v <;> first | rfl | exact absurd hnumeric Bool.false_ne_true
  | false =>
    obtain ⟨s, rfl⟩ := h.exists_text hnull hnumeric
    rfl

/-- A value that can be compared can be written. -/
theorem Comparable.isWritable (h : v.Comparable) : v.isWritable = true := by
  cases v with
  | null => rfl
  | int n => exact isWritable_of_fits h
  | double x => rfl
  | text s => rfl
  | _ => exact h.elim

theorem exists_order (hv : v.Comparable) (hw : w.Comparable) (temporal : Bool) :
    ∃ r, v.order w temporal = .ok r := by
  cases hnull : v.isNull || w.isNull with
  | true => exact ⟨.eq, if_pos hnull⟩
  | false =>
    obtain ⟨hvnull, hwnull⟩ := Bool.or_eq_false_iff.mp hnull
    cases h : v.order w temporal with
    | ok r => exact ⟨r, rfl⟩
    | error f =>
      rcases (order_eq_error_iff hvnull hwnull).mp h with ⟨-, hlarge⟩ | ⟨-, -, hlarge⟩
      · exact absurd hlarge (not_isOversized_of_comparable hv hw)
      · exact absurd hlarge (by simp [hv.isWritable, hw.isWritable])

/-- No value comes before itself: turning it round with itself changes nothing. -/
theorem order_self (hv : v.Comparable) : v.order v temporal = .ok .eq := by
  obtain ⟨r, hr⟩ := exists_order hv hv temporal
  have hswap := order_swap v v temporal
  rw [hr] at hswap ⊢
  cases r with
  | eq => rfl
  | lt => exact absurd (Except.ok.inj hswap) (by decide)
  | gt => exact absurd (Except.ok.inj hswap) (by decide)

/-! ## Equality -/

/-- Equality and order choose alike: one of two values is a number and neither is null, or both are
instants in a field of dates or times. -/
def Settled (v w : Value) (temporal : Bool) : Prop :=
  (v.isNull = false ∧ w.isNull = false ∧ (v.isNumeric || w.isNumeric) = true) ∨
    (grounds? v w temporal).isSome = true

theorem Settled.symm (h : Settled v w temporal) : Settled w v temporal := by
  rcases h with ⟨hv, hw, hnumeric⟩ | hgrounds
  · exact .inl ⟨hw, hv, Bool.or_comm _ _ ▸ hnumeric⟩
  · refine .inr ?_
    rwa [grounds?_swap v w, Option.isSome_map]

theorem Settled.isNull (h : Settled v w temporal) : (v.isNull || w.isNull) = false := by
  rcases h with ⟨hv, hw, -⟩ | hgrounds
  · rw [hv, hw]
    rfl
  · obtain ⟨-, h⟩ : temporal = true ∧ (instants? v w).isSome = true := by
      cases temporal
      · exact absurd hgrounds Bool.false_ne_true
      · exact ⟨rfl, hgrounds⟩
    cases v with
    | null => exact absurd h Bool.false_ne_true
    | _ =>
      cases w with
      | null => simp [instants?, toInstant?] at h
      | _ => rfl

/-- The equality of two values by their numbers, or by their texts where there are none. -/
def equalBy (v w : Value) : Option (Double × Double) → Except Fault Bool
  | some (x, y) => .ok (x.same y)
  | none => asTexts (· == ·) v w

/-- Equality asks for a number among the two values before it looks for two numbers. -/
theorem equals_eq (hv : v.Comparable) (hw : w.Comparable)
    (hnull : (v.isNull || w.isNull) = false) : v.equals w temporal =
    match grounds? v w temporal with
    | some (s, t) => .ok (s.instant == t.instant)
    | none =>
      if v.isNumeric || w.isNumeric then numbers? v w >>= equalBy v w
      else equalBy v w none := by
  obtain ⟨hvnull, hwnull⟩ := Bool.or_eq_false_iff.mp hnull
  have hplain : v.equalsPlainly w = asTexts (· == ·) v w :=
    if_pos (Bool.and_eq_true_iff.mpr ⟨hv.isPlain hvnull, hw.isPlain hwnull⟩)
  unfold equals
  rw [hnull, if_neg Bool.false_ne_true, grounds?, hv.isBool, hw.isBool, hplain]
  cases (if temporal then instants? v w else none) with
  | some _ => rfl
  | none =>
    cases v.isNumeric || w.isNumeric with
    | false => rfl
    | true =>
      refine bind_congr fun numbers => ?_
      cases numbers <;> rfl

/-- By finite numbers, or by texts, values are equal exactly if neither comes before the other. -/
theorem equalBy_eq {numbers : Option (Double × Double)}
    (h : ∀ pair ∈ numbers, pair.1.isFinite = true ∧ pair.2.isFinite = true) :
    equalBy v w numbers = (orderBy v w numbers).map (· == .eq) := by
  cases numbers with
  | some pair =>
    exact congrArg Except.ok (Double.same_of_isFinite (h pair rfl).1 (h pair rfl).2)
  | none =>
    rcases v.written_cases with hv | hv <;> rcases w.written_cases with hw | hw <;>
      simp only [equalBy, orderBy, asTexts, hv, hw, bind, Except.bind, Except.map]
    rw [Except.ok.injEq, Bool.eq_iff_iff, beq_iff_eq, beq_iff_eq, textOrder_eq_iff]

theorem isFinite_of_numbers {numbers : Option (Double × Double)} (h : numbers? v w = .ok numbers) :
    ∀ pair ∈ numbers, pair.1.isFinite = true ∧ pair.2.isFinite = true := by
  rintro ⟨x, y⟩ rfl
  unfold numbers? at h
  rcases v.toNumber_cases with ⟨-, hv⟩ | ⟨-, _ | x', hv, hx⟩ <;>
    rcases w.toNumber_cases with ⟨-, hw⟩ | ⟨-, _ | y', hw, hy⟩ <;>
    simp [hv, hw, bind, Except.bind] at h
  obtain ⟨rfl, rfl⟩ := h
  exact ⟨hx x' rfl, hy y' rfl⟩

/-- **Where equality and order choose alike**, values are equal exactly if neither comes first. -/
theorem equals_of_settled (hv : v.Comparable) (hw : w.Comparable) (h : Settled v w temporal) :
    v.equals w temporal = (v.order w temporal).map (· == .eq) := by
  rw [equals_eq hv hw h.isNull, order_eq h.isNull]
  cases hgrounds : grounds? v w temporal with
  | some grounds =>
    refine congrArg Except.ok ?_
    rw [Bool.eq_iff_iff, beq_iff_eq, beq_iff_eq, Std.LawfulEqOrd.compare_eq_iff_eq]
  | none =>
    have hnumeric : (v.isNumeric || w.isNumeric) = true := by
      rcases h with ⟨-, -, hnumeric⟩ | hsome
      · exact hnumeric
      · exact absurd hsome (by simp [hgrounds])
    dsimp only
    rw [if_pos hnumeric]
    cases hnumbers : numbers? v w with
    | error f => rfl
    | ok numbers => exact equalBy_eq (isFinite_of_numbers hnumbers)

/-- **Elsewhere a value is equal to itself alone**: both are texts, or one of them is null. -/
theorem equals_of_not_settled (hv : v.Comparable) (hw : w.Comparable) (h : ¬ Settled v w temporal) :
    ∃ b, v.equals w temporal = .ok b ∧ (b = true ↔ v = w) := by
  cases hnull : v.isNull || w.isNull with
  | true =>
    refine ⟨v.isNull && w.isNull, if_pos hnull, ?_⟩
    rw [Bool.and_eq_true, isNull_iff, isNull_iff]
    rw [Bool.or_eq_true, isNull_iff, isNull_iff] at hnull
    rcases hnull with rfl | rfl <;> simp [eq_comm]
  | false =>
    have hgrounds : grounds? v w temporal = none := by
      rw [Option.eq_none_iff_forall_ne_some]
      intro grounds hsome
      exact h (.inr (by rw [hsome, Option.isSome_some]))
    obtain ⟨hvnull, hwnull⟩ := Bool.or_eq_false_iff.mp hnull
    have hnumeric : (v.isNumeric || w.isNumeric) = false :=
      Bool.eq_false_iff.mpr fun hnumeric => h (.inl ⟨hvnull, hwnull, hnumeric⟩)
    -- Neither null nor a number, both are texts.
    obtain ⟨s, rfl⟩ := hv.exists_text hvnull (Bool.or_eq_false_iff.mp hnumeric).1
    obtain ⟨t, rfl⟩ := hw.exists_text hwnull (Bool.or_eq_false_iff.mp hnumeric).2
    refine ⟨s == t, ?_, ?_⟩
    · rw [equals_eq hv hw hnull, hgrounds, hnumeric]
      rfl
    · rw [Value.text.injEq]
      exact beq_iff_eq

theorem equals_comm (hv : v.Comparable) (hw : w.Comparable) :
    w.equals v temporal = v.equals w temporal := by
  by_cases h : Settled v w temporal
  · rw [equals_of_settled hv hw h, equals_of_settled hw hv h.symm, order_swap v w]
    cases v.order w temporal with
    | error f => rfl
    | ok r => cases r <;> rfl
  · obtain ⟨b, hb, hiff⟩ := equals_of_not_settled hv hw h
    obtain ⟨c, hc, hiff'⟩ := equals_of_not_settled hw hv (mt Settled.symm h)
    rw [hb, hc, Bool.eq_iff_iff.mpr ((hiff'.trans eq_comm).trans hiff.symm)]

theorem equals_self (hv : v.Comparable) : v.equals v temporal = .ok true := by
  by_cases h : Settled v v temporal
  · rw [equals_of_settled hv hv h, order_self hv]
    rfl
  · obtain ⟨b, hb, hiff⟩ := equals_of_not_settled hv hv h
    rw [hb, hiff.mpr rfl]

/-- Of equal values neither comes before the other. -/
theorem order_of_equals (hv : v.Comparable) (hw : w.Comparable)
    (h : v.equals w temporal = .ok true) : v.order w temporal = .ok .eq := by
  by_cases hsettled : Settled v w temporal
  · obtain ⟨r, hr⟩ := exists_order hv hw temporal
    rw [equals_of_settled hv hw hsettled, hr] at h
    rw [hr, eq_of_beq (Except.ok.inj h)]
  · obtain ⟨b, hb, hiff⟩ := equals_of_not_settled hv hw hsettled
    rw [← hiff.mp (Except.ok.inj (hb.symm.trans h))]
    exact order_self hv

end Value

/-! ## Conditions on one value -/

namespace Operator

variable {v w : Value} {temporal : Bool} {r : Ordering}

/-- The operator that asks whether two values are in a given order. -/
def ofOrdering : Ordering → Operator
  | .eq => .equals
  | .gt => .greaterThan
  | .lt => .lessThan

theorem order_of_accepts (hv : v.Comparable) (hw : w.Comparable)
    (h : (ofOrdering r).accepts v w temporal = .ok true) : v.order w temporal = .ok r := by
  obtain ⟨q, hq⟩ := Value.exists_order hv hw temporal
  cases r with
  | eq => exact Value.order_of_equals hv hw h
  | lt =>
    rw [ofOrdering, accepts, hq] at h
    rw [hq, eq_of_beq (Except.ok.inj h)]
  | gt =>
    rw [ofOrdering, accepts, hq] at h
    rw [hq, eq_of_beq (Except.ok.inj h)]

theorem accepts_of_order (hv : v.Comparable) (hw : w.Comparable) (hsettled : v.Settled w temporal)
    (h : v.order w temporal = .ok r) (q : Ordering) :
    (ofOrdering q).accepts v w temporal = .ok (r == q) := by
  cases q with
  | eq =>
    rw [ofOrdering, accepts, Value.equals_of_settled hv hw hsettled, h]
    rfl
  | lt =>
    rw [ofOrdering, accepts, h]
    rfl
  | gt =>
    rw [ofOrdering, accepts, h]
    rfl

/-- What is greater than a value has this value less than itself. -/
theorem greaterThan_swap (v w : Value) (temporal : Bool) :
    greaterThan.accepts v w temporal = lessThan.accepts w v temporal := by
  rw [accepts, accepts, Value.order_swap v w]
  cases v.order w temporal with
  | error f => rfl
  | ok r => cases r <;> rfl

/-- Of two values that can be compared, their own texts are compared and no others. -/
theorem isWritable_of_mem_texts (hv : v.Comparable) (hw : w.Comparable) {o : Operator} {u : Value}
    (h : u ∈ o.texts v w) : u.isWritable = true := by
  have hmem : u = v ∨ u = w := by
    cases o with
    | contains =>
      cases v with
      | list items => exact hv.elim
      | object fields => exact hv.elim
      | text s => exact .inr (List.mem_singleton.mp h)
      | _ => simpa [texts, Value.searched] using h
    | equals | notEquals => exact absurd h (by simp [texts, hv.isBool, hw.isBool])
    | isNull | isNotNull => exact absurd h List.not_mem_nil
    | _ => simpa [texts] using h
  rcases hmem with rfl | rfl
  · exact hv.isWritable
  · exact hw.isWritable

theorem exists_accepts (hv : v.Comparable) (hw : w.Comparable) (o : Operator) (temporal : Bool) :
    ∃ b, o.accepts v w temporal = .ok b := by
  cases h : o.accepts v w temporal with
  | ok b => exact ⟨b, rfl⟩
  | error f =>
    rcases accepts_eq_error_iff.mp h with ⟨-, -, -, hlarge, -⟩ | ⟨-, -, -, -, u, hu, hlarge⟩
    · exact absurd hlarge (Value.not_isOversized_of_comparable hv hw)
    · exact absurd (isWritable_of_mem_texts hv hw hu) (by simp [hlarge])

end Operator

namespace Condition

/-- What a condition on a field says of one value of this field. -/
def answer (types : Fields) (field : String) (o : Operator) (actual expected : Value) :
    Except Fault Bool :=
  Condition.holds types (.object [(field, actual)]) ⟨field, o, expected⟩

theorem answer_eq (types : Fields) (field : String) (o : Operator) (v w : Value) :
    answer types field o v w = o.accepts v w (isTemporal (Value.get types field)) := by
  have hvalue : Value.get [(field, v)] field = v := by simp [Value.get, Fields.get?]
  show o.accepts (Value.get [(field, v)] field) w (isTemporal (Value.get types field)) = _
  rw [hvalue]

/-- **A condition comes to what it says of the value of its field**, whatever else a record holds. -/
theorem holds_object (types fields : Fields) (c : Condition) : c.holds types (.object fields) =
    answer types c.field c.operator (Value.get fields c.field) c.value :=
  (answer_eq ..).symm

theorem answer_equals_self (types : Fields) (field : String) {v : Value} (h : v.Comparable) :
    answer types field .equals v v = .ok true := by
  rw [answer_eq]
  exact Value.equals_self h

/-- Equal, greater and less fit together for two values of a field. -/
structure Consistent (types : Fields) (field : String) (v w : Value) : Prop where
  answered : ∀ o, ∃ b, answer types field o v w = .ok b
  mirrored : answer types field .greaterThan v w = answer types field .lessThan w v
  symmetric : answer types field .equals v w = answer types field .equals w v
  reflexive : answer types field .equals v v = .ok true
  exclusive : ∀ r q, answer types field (.ofOrdering r) v w = .ok true →
    answer types field (.ofOrdering q) v w = .ok true → r = q
  decided : v.Settled w (isTemporal (Value.get types field)) →
    ∃ r, answer types field (.ofOrdering r) v w = .ok true

/-- **Equal, greater and less fit together** for all values that can be compared. -/
theorem consistent_of_comparable (types : Fields) (field : String) {v w : Value}
    (hv : v.Comparable) (hw : w.Comparable) : Consistent types field v w where
  answered o := by
    rw [answer_eq]
    exact o.exists_accepts hv hw _
  mirrored := by
    rw [answer_eq, answer_eq]
    exact Operator.greaterThan_swap v w _
  symmetric := by
    rw [answer_eq, answer_eq]
    exact Value.equals_comm hw hv
  reflexive := answer_equals_self types field hv
  exclusive r q hr hq := by
    rw [answer_eq] at hr hq
    have horder := Operator.order_of_accepts hv hw hr
    exact Except.ok.inj (horder.symm.trans (Operator.order_of_accepts hv hw hq))
  decided hsettled := by
    obtain ⟨r, hr⟩ := Value.exists_order hv hw (isTemporal (Value.get types field))
    refine ⟨r, ?_⟩
    rw [answer_eq, Operator.accepts_of_order hv hw hsettled hr, beq_self_eq_true]

/-- An integer without an exact double, beside the undefined number: they are compared as texts. -/
theorem consistent_of_comparable_nan : Value.Comparable (.int 9007199254740993) ∧
    Value.Comparable (.double .nan) ∧
    Consistent [] "id" (.int 9007199254740993) (.double .nan) ∧
    Value.Settled (.int 9007199254740993) (.double .nan) (isTemporal (Value.get [] "id")) := by
  have hfits : Double.Fits 9007199254740993 := by decide +kernel
  exact ⟨hfits, trivial, consistent_of_comparable [] "id" hfits trivial, .inl ⟨rfl, rfl, rfl⟩⟩

end Condition

end ChangeRules
