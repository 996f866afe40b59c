import ChangeRules.Number.Mixed
import Mathlib.Algebra.Group.Nat.Defs

/-!
# Integers as doubles

An integer beside a double is turned into the double nearest to it. Rounding keeps the order, and it
changes nothing about integers of at most 53 significant bits. Half a step beyond the greatest finite
double it stops: an integer of that magnitude has no double.

* `roundHalfEven_mono`, `Double.roundUnits_mono`: rounding keeps the order.
* `Double.roundUnits_of_multiple`: what has 53 significant bits is left as it is.
* **`Double.overflowUnits_le_roundUnits_iff`**: where rounding leaves the finite doubles.
* `Double.Fits`: the integers that have a double; **`Number.toDouble_int`**: they and no others.
* **`Double.unitsOf_mono`**, **`Double.unitsOf_of_exact`**: the doubles of integers.
-/

namespace ChangeRules

/-! ## Rounding to a whole number -/

/-- A quotient is rounded down or up, to the nearer side. -/
theorem roundHalfEven_cases (num den : Nat) :
    roundHalfEven num den = num / den ∧ 2 * (num % den) ≤ den ∨
      roundHalfEven num den = num / den + 1 ∧ den ≤ 2 * (num % den) := by
  unfold roundHalfEven
  dsimp only
  split
  · exact .inl ⟨rfl, by omega⟩
  · split
    · exact .inr ⟨rfl, by omega⟩
    · split
      · exact .inl ⟨rfl, by omega⟩
      · exact .inr ⟨rfl, by omega⟩

theorem roundHalfEven_of_dvd {num den : Nat} (hden : 0 < den) (h : den ∣ num) :
    roundHalfEven num den = num / den := by
  have hrest : num % den = 0 := Nat.mod_eq_zero_of_dvd h
  rcases roundHalfEven_cases num den with ⟨heq, -⟩ | ⟨-, hup⟩
  · exact heq
  · omega

theorem roundHalfEven_mono {m n : Nat} (den : Nat) (h : m ≤ n) :
    roundHalfEven m den ≤ roundHalfEven n den := by
  rcases Nat.lt_or_eq_of_le (Nat.div_le_div_right (c := den) h) with hlt | heq
  · have hm := roundHalfEven_cases m den
    have hn := roundHalfEven_cases n den
    omega
  · -- Between the same neighbours only the rest decides, and it is no less.
    have hrest : m % den ≤ n % den := by
      have hm := Nat.div_add_mod m den
      have hn := Nat.div_add_mod n den
      rw [heq] at hm
      omega
    unfold roundHalfEven
    dsimp only
    rw [heq]
    repeat' split
    all_goals omega

namespace Double

/-! ## Rounding to 53 significant bits -/

/-- The binary places that a whole number of units loses when it is rounded. -/
def lostPlaces (n : Nat) : Nat := n.log2 + 1 - 53

theorem roundUnits_one (n : Nat) :
    roundUnits n 1 = roundHalfEven n (2 ^ lostPlaces n) * 2 ^ lostPlaces n := by
  unfold roundUnits lostPlaces
  rw [Nat.div_one]
  dsimp only
  split
  · next h => rw [Nat.sub_eq_zero_of_le h, Nat.pow_zero, Nat.mul_one]
  · rw [Nat.one_mul]
    rfl

/-- What is rounded keeps its leading power of two, or reaches the next one. -/
theorem roundUnits_bounds {n : Nat} (h : n ≠ 0) :
    2 ^ n.log2 ≤ roundUnits n 1 ∧ roundUnits n 1 ≤ 2 ^ (n.log2 + 1) := by
  have hlow := Nat.log2_self_le h
  have hhigh := Nat.lt_log2_self (n := n)
  rw [roundUnits_one]
  rcases Nat.eq_zero_or_pos (lostPlaces n) with hnone | hsome
  · rw [hnone, Nat.pow_zero, Nat.mul_one, roundHalfEven_of_dvd Nat.one_pos (Nat.one_dvd n),
      Nat.div_one]
    omega
  · -- Both powers are whole numbers of steps, so rounding to steps cannot pass them.
    have hstep : 0 < 2 ^ lostPlaces n := Nat.two_pow_pos _
    have hplaces : n.log2 = 52 + lostPlaces n := by
      unfold lostPlaces at hsome ⊢
      omega
    have hdown : 2 ^ 52 ≤ n / 2 ^ lostPlaces n := by
      rw [Nat.le_div_iff_mul_le hstep, ← Nat.pow_add, ← hplaces]
      exact hlow
    have hup : n / 2 ^ lostPlaces n < 2 ^ 53 := by
      rw [Nat.div_lt_iff_lt_mul hstep, ← Nat.pow_add]
      rwa [show 53 + lostPlaces n = n.log2 + 1 by omega]
    have hcases := roundHalfEven_cases n (2 ^ lostPlaces n)
    constructor
    · rw [hplaces, Nat.pow_add]
      exact Nat.mul_le_mul_right _ (by omega)
    · rw [show n.log2 + 1 = 53 + lostPlaces n by omega, Nat.pow_add]
      exact Nat.mul_le_mul_right _ (by omega)

theorem roundUnits_mono {m n : Nat} (h : m ≤ n) : roundUnits m 1 ≤ roundUnits n 1 := by
  rcases Nat.eq_zero_or_pos m with rfl | hm
  · have hzero : roundUnits 0 1 = 0 := by simp [roundUnits, roundHalfEven]
    rw [hzero]
    exact Nat.zero_le _
  · have hm0 : m ≠ 0 := by omega
    have hn0 : n ≠ 0 := by omega
    rcases Nat.lt_or_ge m.log2 n.log2 with hlt | hge
    · calc roundUnits m 1 ≤ 2 ^ (m.log2 + 1) := (roundUnits_bounds hm0).2
        _ ≤ 2 ^ n.log2 := Nat.pow_le_pow_right Nat.two_pos hlt
        _ ≤ roundUnits n 1 := (roundUnits_bounds hn0).1
    · -- Of one size, both are rounded to the same steps.
      have hsize : m.log2 = n.log2 := by
        refine Nat.le_antisymm ?_ hge
        rw [Nat.le_log2 hn0]
        exact Nat.le_trans (Nat.log2_self_le hm0) h
      have hplaces : lostPlaces m = lostPlaces n := by rw [lostPlaces, lostPlaces, hsize]
      rw [roundUnits_one, roundUnits_one, hplaces]
      exact Nat.mul_le_mul_right _ (roundHalfEven_mono _ h)

/-- A multiple of a power of two by less than 53 bits is left as it is. -/
theorem roundUnits_of_multiple {k : Nat} (places : Nat) (h : k < 2 ^ 53) :
    roundUnits (k * 2 ^ places) 1 = k * 2 ^ places := by
  rw [roundUnits_one]
  rcases Nat.eq_zero_or_pos k with rfl | hk
  · rw [Nat.zero_mul, roundHalfEven_of_dvd (Nat.two_pow_pos _) (Nat.dvd_zero _), Nat.zero_div,
      Nat.zero_mul]
  · have hne : k * 2 ^ places ≠ 0 := Nat.mul_ne_zero (by omega) (Nat.ne_of_gt (Nat.two_pow_pos _))
    have hsize : (k * 2 ^ places).log2 < 53 + places := by
      rw [Nat.log2_lt hne, Nat.pow_add]
      exact Nat.mul_lt_mul_of_pos_right h (Nat.two_pow_pos _)
    have hdvd : 2 ^ lostPlaces (k * 2 ^ places) ∣ k * 2 ^ places := by
      refine Nat.dvd_trans (Nat.pow_dvd_pow 2 ?_) (Nat.dvd_mul_left _ k)
      unfold lostPlaces
      omega
    rw [roundHalfEven_of_dvd (Nat.two_pow_pos _) hdvd, Nat.div_mul_cancel hdvd]

/-- Rounding leaves the finite doubles half a step beyond the greatest one. -/
theorem overflowUnits_le_roundUnits_iff {n : Nat} :
    overflowUnits ≤ roundUnits n 1 ↔ 2 ^ 2098 - 2 ^ 2044 ≤ n := by
  have hat : roundUnits (2 ^ 2098 - 2 ^ 2044) 1 = overflowUnits := by decide +kernel
  have hbelow : roundUnits (2 ^ 2098 - 2 ^ 2044 - 1) 1 < overflowUnits := by decide +kernel
  constructor
  · intro h
    refine Nat.le_of_not_lt fun hlt => ?_
    have hle := roundUnits_mono (Nat.le_sub_one_of_lt hlt)
    omega
  · intro h
    rw [← hat]
    exact roundUnits_mono h

/-! ## Doubles of integers -/

/-- The least magnitude of an integer without a double: half a step beyond the greatest one. -/
def integerLimit : Nat := 2 ^ 1024 - 2 ^ 970

/-- An integer has a finite double. -/
def Fits (n : Int) : Prop := n.natAbs < integerLimit

instance (n : Int) : Decidable (Fits n) := inferInstanceAs (Decidable (_ < _))

/-- The double of an integer, in units. -/
def unitsOf (n : Int) : Int :=
  if n < 0 then -(roundUnits (n.natAbs * unitsPerOne) 1 : Int)
  else roundUnits (n.natAbs * unitsPerOne) 1

theorem unitsPerOne_eq_pow : ∃ places, unitsPerOne = 2 ^ places := by
  have hpow : ∀ k, ∃ places, Nat.pow 2 k = 2 ^ places := fun k => ⟨k, Nat.pow_eq⟩
  unfold unitsPerOne
  apply hpow

theorem fits_iff {n : Int} : Fits n ↔ roundUnits (n.natAbs * unitsPerOne) 1 < overflowUnits := by
  have hlimit : 2 ^ 2098 - 2 ^ 2044 = integerLimit * unitsPerOne := by decide +kernel
  have hone : 0 < unitsPerOne := by decide +kernel
  rw [← Nat.not_le, overflowUnits_le_roundUnits_iff, hlimit, Nat.mul_le_mul_right_iff hone,
    Nat.not_le, Fits]

theorem ofInt_of_fits {n : Int} (h : Fits n) : ofInt n = .finite (unitsOf n) := by
  have hround := fits_iff.mp h
  unfold ofInt ofRatio ofUnits unitsOf
  dsimp only
  rw [if_neg (Nat.not_le.mpr hround)]
  by_cases hzero : roundUnits (n.natAbs * unitsPerOne) 1 = 0
  · -- Only zero itself is rounded to zero, and zero has no sign.
    have hpos : ¬ n < 0 := by
      intro hneg
      have hone : 1 ≤ n.natAbs * unitsPerOne :=
        Nat.mul_pos (by omega) (by decide +kernel)
      have hle := roundUnits_mono hone
      have hkept : roundUnits 1 1 = 1 := by decide +kernel
      omega
    rw [if_pos hzero, decide_eq_false hpos, if_neg hpos, hzero]
    rfl
  · rw [if_neg hzero]
    by_cases hneg : n < 0
    · rw [if_pos (decide_eq_true hneg), if_pos hneg]
    · rw [if_neg (by simpa using hneg), if_neg hneg]

/-- Two integers have the same double exactly if they have the same number of units. -/
theorem ofInt_eq_iff {m n : Int} (hm : Fits m) (hn : Fits n) :
    ofInt m = ofInt n ↔ unitsOf m = unitsOf n := by
  rw [ofInt_of_fits hm, ofInt_of_fits hn, finite.injEq]

theorem ofInt_of_not_fits {n : Int} (h : ¬ Fits n) : ofInt n = .infinity (decide (n < 0)) := by
  rw [fits_iff, Nat.not_lt] at h
  unfold ofInt ofRatio ofUnits
  dsimp only
  rw [if_pos h]

/-- **Rounding keeps the order of integers.** -/
theorem unitsOf_mono {m n : Int} (h : m ≤ n) : unitsOf m ≤ unitsOf n := by
  unfold unitsOf
  by_cases hm : m < 0
  · rw [if_pos hm]
    by_cases hn : n < 0
    · have hle : roundUnits (n.natAbs * unitsPerOne) 1 ≤ roundUnits (m.natAbs * unitsPerOne) 1 :=
        roundUnits_mono (Nat.mul_le_mul_right _ (by omega))
      rw [if_pos hn]
      omega
    · rw [if_neg hn]
      omega
  · have hle : roundUnits (m.natAbs * unitsPerOne) 1 ≤ roundUnits (n.natAbs * unitsPerOne) 1 :=
      roundUnits_mono (Nat.mul_le_mul_right _ (by omega))
    rw [if_neg hm, if_neg (by omega)]
    omega

/-- **Integers of 53 significant bits are doubles.** -/
theorem unitsOf_of_exact {n : Int} {k : Nat} (places : Nat) (hk : k < 2 ^ 53)
    (h : n.natAbs = k * 2 ^ places) : unitsOf n = n * unitsPerOne := by
  have hkept : roundUnits (n.natAbs * unitsPerOne) 1 = n.natAbs * unitsPerOne := by
    obtain ⟨more, hone⟩ := unitsPerOne_eq_pow
    rw [h, hone, Nat.mul_assoc, ← Nat.pow_add, roundUnits_of_multiple _ hk]
  unfold unitsOf
  rw [hkept, Int.natCast_mul]
  split
  · rw [← Int.neg_mul, show -(n.natAbs : Int) = n by omega]
  · rw [show (n.natAbs : Int) = n by omega]

/-- Integers of at most 53 bits, and the next one, are doubles. -/
theorem unitsOf_of_small {n : Int} (h : n.natAbs ≤ 2 ^ 53) :
    Fits n ∧ unitsOf n = n * unitsPerOne := by
  have hlimit : 2 ^ 53 < integerLimit := by decide +kernel
  refine ⟨Nat.lt_of_le_of_lt h hlimit, ?_⟩
  rcases Nat.lt_or_eq_of_le h with hlt | heq
  · exact unitsOf_of_exact 0 hlt (by rw [Nat.pow_zero, Nat.mul_one])
  · exact unitsOf_of_exact (k := 1) 53 (by decide) (by rw [heq, Nat.one_mul])

end Double

/-- **An integer has a double exactly if it fits.** -/
theorem Number.toDouble_int (n : Int) : (Number.int n).toDouble =
    if Double.Fits n then .ok (.finite (Double.unitsOf n)) else .error .integerTooLarge := by
  have hdouble : (Number.int n).toDouble = (Double.ofInt n).unlessInfinite := rfl
  rw [hdouble]
  by_cases h : Double.Fits n
  · rw [if_pos h, Double.ofInt_of_fits h]
    rfl
  · rw [if_neg h, Double.ofInt_of_not_fits h]
    rfl

end ChangeRules
