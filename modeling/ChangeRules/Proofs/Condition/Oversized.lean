import ChangeRules.Condition.Evaluation
import ChangeRules.Proofs.Number.Rounding

/-!
# Integers that are too large for conditions

Conditions compare numbers as doubles, and an integer half a step beyond the greatest double has none.
It is the only value that is not read as a number or as none.

* `Value.IsOversized`: the integers without a double.
* **`toNumber_cases`**, **`toNumber_eq_ok_iff`**: they alone are not read.
* `numbers?_eq_error_iff`: two numbers, of which both are read.
-/

namespace ChangeRules

/-- An integer was too large for a double. -/
def Fault.oversized : Fault := .misuse (.arithmetic .integerTooLarge)

namespace Value

/-! ## Numbers -/

/-- A value is an integer without a double. -/
def IsOversized (v : Value) : Prop := ∃ n, v = .int n ∧ ¬ Double.Fits n

theorem toNumber_int (n : Int) : (Value.int n).toNumber =
    if Double.Fits n then .ok (some (.finite (Double.unitsOf n))) else .error .oversized := by
  rw [toNumber, Number.toDouble_int]
  split <;> rfl

/-- **A value has a finite number or none**, or it is too large for one. -/
theorem toNumber_cases (v : Value) : v.IsOversized ∧ v.toNumber = .error .oversized ∨
    ¬ v.IsOversized ∧ ∃ x, v.toNumber = .ok x ∧ ∀ y ∈ x, y.isFinite = true := by
  have hother : (∀ n, v ≠ .int n) → ¬ v.IsOversized := by
    rintro hne ⟨n, hn, -⟩
    exact hne n hn
  cases v with
  | int n =>
    rw [toNumber_int]
    by_cases h : Double.Fits n
    · refine .inr ⟨?_, _, if_pos h, ?_⟩
      · rintro ⟨m, hm, hlarge⟩
        exact hlarge (Value.int.inj hm ▸ h)
      · rintro _ ⟨⟩
        rfl
    · exact .inl ⟨⟨n, rfl, h⟩, if_neg h⟩
  | double x =>
    refine .inr ⟨hother (by simp), _, rfl, fun y hy => ?_⟩
    by_cases hx : x.isFinite = true
    · rw [if_pos hx, Option.mem_some_iff] at hy
      exact hy ▸ hx
    · rw [if_neg hx] at hy
      exact absurd hy (by simp)
  | text s =>
    exact .inr ⟨hother (by simp), _, rfl, fun y hy => (Option.mem_filter_iff.mp hy).2⟩
  | _ => exact .inr ⟨hother (by simp), none, rfl, by simp⟩

/-- A number is read, finite or missing, exactly if it is not too large. -/
theorem toNumber_eq_ok_iff {v : Value} :
    (∃ x, v.toNumber = .ok x ∧ ∀ y ∈ x, y.isFinite = true) ↔ ¬ v.IsOversized := by
  rcases v.toNumber_cases with ⟨hlarge, herr⟩ | ⟨hfits, hread⟩
  · simp [hlarge, herr]
  · exact iff_of_true hread hfits

/-- Two numbers cannot be read exactly if one of them is too large. -/
theorem numbers?_eq_error_iff {v w : Value} {f : Fault} :
    v.numbers? w = .error f ↔ f = .oversized ∧ (v.IsOversized ∨ w.IsOversized) := by
  unfold numbers?
  rcases v.toNumber_cases with ⟨hv, hx⟩ | ⟨hv, x, hx, -⟩
  · simp [hx, hv, bind, Except.bind, eq_comm]
  · rcases w.toNumber_cases with ⟨hw, hy⟩ | ⟨hw, y, hy, -⟩
    · simp [hx, hy, hw, bind, Except.bind, eq_comm]
    · simp [hx, hy, hv, hw, bind, Except.bind]

/-- Beside an integer there are no two instants. -/
theorem instants?_of_isOversized {v w : Value} (h : v.IsOversized ∨ w.IsOversized) :
    instants? v w = none := by
  rcases h with ⟨n, rfl, -⟩ | ⟨n, rfl, -⟩
  · rfl
  · simp [instants?, toInstant?]

theorem not_isOversized_of_instants {v w : Value} {temporal : Bool} {grounds : DateTime × DateTime}
    (h : (if temporal then instants? v w else none) = some grounds) :
    ¬ (v.IsOversized ∨ w.IsOversized) := by
  intro hlarge
  rw [instants?_of_isOversized hlarge] at h
  exact absurd h (by simp)

theorem isNumeric_of_isOversized {v w : Value} (h : v.IsOversized ∨ w.IsOversized) :
    (v.isNumeric || w.isNumeric) = true := by
  rcases h with ⟨n, rfl, -⟩ | ⟨n, rfl, -⟩
  · rfl
  · exact Bool.or_true _

end Value

end ChangeRules
