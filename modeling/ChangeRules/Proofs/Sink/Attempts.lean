import ChangeRules.Sink.Retry
import Mathlib.Algebra.Order.Field.Power
import Mathlib.Algebra.Order.Ring.Rat

/-!
# The attempts of a job

A job that is tried again is called until an outcome settles it, at most so many times, and between two
calls the delay of the attempt is waited for. This holds as long as the delays can be computed. Growing
by a factor, a delay is limited only after it has grown, so a number that is too large to be computed
stops the attempts although the limit is small. In exact numbers there is no such number: all delays
are between zero and the limit, and none is less than the one before.

* `TryEvent`, `Retrying.recorded`: calls and delays, and tries that are recorded.
* `callsDue`, `Retrying.Lawful`: how often a job is to be called, and what else is to happen.
* **`Retrying.retry_of_delays`**: what happens if all delays can be computed.
* **`Retrying.retry_of_flaw`**: what happens at the first delay that cannot.
* **`RetryPolicy.delay_eq`**, **`RetryPolicy.limited_mono`**: delays in exact numbers.
* **`Retrying.lawful_iff`**: all of this.
-/

namespace ChangeRules

variable {α δ : Type}

/-! ## What is due -/

/-- What happens while a job is tried. -/
inductive TryEvent (δ : Type) where
  | call
  | sleep (d : δ)
  deriving DecidableEq

namespace TryEvent

def isCall : TryEvent δ → Bool
  | .call => true
  | .sleep _ => false

/-- So many calls with a delay behind each. -/
def delayed (d : Nat → δ) (count : Nat) : List (TryEvent δ) :=
  (List.range count).flatMap fun i => [.call, .sleep (d (i + 1))]

/-- So many calls with delays between them. -/
def calls (d : Nat → δ) : Nat → List (TryEvent δ)
  | 0 => []
  | count + 1 => delayed d count ++ [.call]

theorem delayed_succ (d : Nat → δ) (count : Nat) :
    delayed d (count + 1) = delayed d count ++ [.call, .sleep (d (count + 1))] := by
  simp [delayed, List.range_succ]

theorem countP_delayed (d : Nat → δ) (count : Nat) : (delayed d count).countP isCall = count := by
  induction count with
  | zero => rfl
  | succ count ih =>
    rw [delayed_succ, List.countP_append, ih]
    rfl

theorem countP_calls (d : Nat → δ) (count : Nat) : (calls d count).countP isCall = count := by
  cases count with
  | zero => rfl
  | succ count =>
    rw [calls, List.countP_append, countP_delayed]
    rfl

end TryEvent

/-- Whether an outcome leaves nothing to try. -/
def settles (retried : Fault → Bool) : Except Fault α → Bool
  | .ok _ => true
  | .error f => !retried f

/-- How often a job is to be called: up to the first outcome that settles it, and no more than `limit`
times. -/
def callsDue (retried : Fault → Bool) (outcomes : Nat → Except Fault α) (limit : Nat) : Nat :=
  min limit ((List.range limit).findIdx (fun i => settles retried (outcomes i)) + 1)

section

variable {retried : Fault → Bool} {outcomes : Nat → Except Fault α} {limit : Nat}

theorem exists_of_not_settles {outcome : Except Fault α} (h : settles retried outcome = false) :
    ∃ f, outcome = .error f ∧ retried f = true := by
  cases outcome with
  | ok a => exact Bool.noConfusion h
  | error f => exact ⟨f, rfl, by simpa [settles] using h⟩

/-- The calls that are due: those before the last one settle nothing, and the last one does or is the
last that is allowed. -/
theorem callsDue_cases (retried : Fault → Bool) (outcomes : Nat → Except Fault α) {limit : Nat}
    (h : 1 ≤ limit) : ∃ failed, callsDue retried outcomes limit = failed + 1 ∧ failed < limit ∧
      (∀ i < failed, settles retried (outcomes i) = false) ∧
      (settles retried (outcomes failed) = true ∨ failed + 1 = limit) := by
  unfold callsDue
  generalize hplace : (List.range limit).findIdx (fun i => settles retried (outcomes i)) = place
  have hbefore : ∀ i < place, i < limit → settles retried (outcomes i) = false := by
    intro i hi hlimit
    have := List.not_of_lt_findIdx (hplace ▸ hi)
    simpa using this
  by_cases hlt : place < limit
  · refine ⟨place, by omega, hlt, fun i hi => hbefore i hi (by omega), Or.inl ?_⟩
    have hlength : (List.range limit).findIdx (fun i => settles retried (outcomes i)) <
        (List.range limit).length := by rwa [hplace, List.length_range]
    simpa [hplace] using List.findIdx_getElem (w := hlength)
  · refine ⟨limit - 1, by omega, by omega, fun i hi => hbefore i (by omega) (by omega), Or.inr ?_⟩
    omega

end

/-! ## Tries that are recorded -/

/-- A job whose outcomes are given, one for each call, and that records its calls. -/
def scripted (outcomes : Nat → Except Fault α) : Job (List (TryEvent δ)) α := fun events =>
  (outcomes (events.countP TryEvent.isCall), events ++ [.call])

namespace Retrying

/-- Tries whose delays are recorded. -/
def recorded (job : String) (attempts : Int) (retried : Fault → Bool)
    (delay : Int → Except ArithmeticFlaw δ) : Retrying (List (TryEvent δ)) δ where
  job := job
  attempts := attempts
  retried := retried
  delay := delay
  sleep d events := events ++ [.sleep d]

section

variable {job : String} {attempts : Int} {retried : Fault → Bool}
  {delay : Int → Except ArithmeticFlaw δ} {outcomes : Nat → Except Fault α} {d : Nat → δ}
  {limit failed left : Nat}

theorem scripted_delayed (outcomes : Nat → Except Fault α) (d : Nat → δ) (failed : Nat) :
    scripted outcomes (TryEvent.delayed d failed) =
      (outcomes failed, TryEvent.calls d (failed + 1)) := by
  rw [scripted, TryEvent.countP_delayed]
  rfl

/-- A call that fails, and the delay behind it. -/
theorem from_of_failed {f : Fault} (hf : outcomes failed = .error f) (hretried : retried f = true)
    (hleft : left ≠ 0) (hdelay : delay (failed + 1) = .ok (d (failed + 1))) :
    (recorded job attempts retried delay).from (scripted outcomes) (failed + 1) (left + 1)
        (TryEvent.delayed d failed) =
      (recorded job attempts retried delay).from (scripted outcomes) ((failed + 1 : Nat) + 1) left
        (TryEvent.delayed d (failed + 1)) := by
  rw [Retrying.from, scripted_delayed, hf]
  simp only [recorded, hretried, hdelay, hleft, Bool.not_true, Bool.false_eq_true, if_false]
  rw [TryEvent.calls, TryEvent.delayed_succ, List.append_assoc]
  rfl

/-- **Calls that fail**, each with its delay behind it. -/
theorem from_of_all_failed (failed : Nat)
    (hfailed : ∀ i < failed, settles retried (outcomes i) = false) (hlimit : failed < limit)
    (hdelays : ∀ i < failed, delay (i + 1) = .ok (d (i + 1))) :
    retry (recorded job limit retried delay) (scripted outcomes) [] =
      (recorded job limit retried delay).from (scripted outcomes) (failed + 1) (limit - failed)
        (TryEvent.delayed d failed) := by
  induction failed with
  | zero => rfl
  | succ failed ih =>
    obtain ⟨f, hf, hretried⟩ := exists_of_not_settles (hfailed failed (Nat.lt_succ_self _))
    obtain ⟨left, hleft⟩ : ∃ left, limit - failed = left + 1 := ⟨limit - failed - 1, by omega⟩
    rw [ih (fun i hi => hfailed i (by omega)) (by omega) (fun i hi => hdelays i (by omega)), hleft,
      from_of_failed hf hretried (by omega) (hdelays failed (Nat.lt_succ_self _))]
    congr 1
    omega

/-- A call that settles the job, or the last one that is allowed. -/
theorem from_of_last (hlast : settles retried (outcomes failed) = true ∨ left = 0) :
    (recorded job attempts retried delay).from (scripted outcomes) (failed + 1) (left + 1)
        (TryEvent.delayed d failed) =
      (match outcomes failed with
        | .ok a => .ok (some a)
        | .error f => if retried f then .error (.exhausted job attempts f) else .error f,
      TryEvent.calls d (failed + 1)) := by
  rw [Retrying.from, scripted_delayed]
  cases houtcome : outcomes failed with
  | ok a => rfl
  | error f =>
    cases hretried : retried f with
    | false => simp [recorded, hretried]
    | true =>
      have hleft : left = 0 := hlast.resolve_left (by simp [settles, houtcome, hretried])
      simp [recorded, hretried, hleft]

/-- A call that fails, and a delay that cannot be computed. -/
theorem from_of_flaw {f : Fault} {flaw : ArithmeticFlaw} (hf : outcomes failed = .error f)
    (hretried : retried f = true) (hleft : left ≠ 0) (hflaw : delay (failed + 1) = .error flaw) :
    (recorded job attempts retried delay).from (scripted outcomes) (failed + 1) (left + 1)
        (TryEvent.delayed d failed) =
      (.error (.misuse (.arithmetic flaw)), TryEvent.calls d (failed + 1)) := by
  rw [Retrying.from, scripted_delayed, hf]
  simp [recorded, hretried, hleft, hflaw]

end

/-! ## The law -/

section

variable [Inhabited δ]

/-- The delay of an attempt, if it can be computed. -/
def delayOf (delay : Int → Except ArithmeticFlaw δ) (i : Nat) : δ :=
  (delay i).toOption.getD default

theorem delay_eq_ok {delay : Int → Except ArithmeticFlaw δ} {i : Nat} (h : ∃ d, delay i = .ok d) :
    delay i = .ok (delayOf delay i) := by
  obtain ⟨d, hd⟩ := h
  rw [delayOf, hd]
  rfl

/-- What is to happen when a job with such outcomes is tried. -/
structure Lawful (r : Retrying (List (TryEvent δ)) δ) (outcomes : Nat → Except Fault α) : Prop where
  /-- The job is called as often as is due. -/
  called : (retry r (scripted outcomes) []).2.countP TryEvent.isCall =
    callsDue r.retried outcomes r.attempts.toNat
  /-- Between the calls, the delays of the attempts are waited for. -/
  events : (retry r (scripted outcomes) []).2 =
    TryEvent.calls (delayOf r.delay) (callsDue r.retried outcomes r.attempts.toNat)
  value : ∀ a, outcomes (callsDue r.retried outcomes r.attempts.toNat - 1) = .ok a →
    (retry r (scripted outcomes) []).1 = .ok (some a)
  /-- A fault after which nothing is tried again is passed on. -/
  refused : ∀ f, outcomes (callsDue r.retried outcomes r.attempts.toNat - 1) = .error f →
    r.retried f = false → (retry r (scripted outcomes) []).1 = .error f
  exhausted : ∀ f, outcomes (callsDue r.retried outcomes r.attempts.toNat - 1) = .error f →
    r.retried f = true →
    (retry r (scripted outcomes) []).1 = .error (.exhausted r.job r.attempts f)
  /-- The last call is to be tried again only if all calls are that are allowed. -/
  exhausted_iff : (∃ f, outcomes (callsDue r.retried outcomes r.attempts.toNat - 1) = .error f ∧
      r.retried f = true) ↔
    ∀ i < r.attempts.toNat, ∃ f, outcomes i = .error f ∧ r.retried f = true

variable {job : String} {retried : Fault → Bool} {delay : Int → Except ArithmeticFlaw δ}
  {outcomes : Nat → Except Fault α} {limit : Nat}

/-- **All delays before the last call can be computed**: the calls that are due are made, and the last
one says what comes of the job. -/
theorem retry_of_delays (h : 1 ≤ limit)
    (hdelays : ∀ i : Nat, 1 ≤ i → i < callsDue retried outcomes limit → ∃ d, delay i = .ok d) :
    retry (recorded job limit retried delay) (scripted outcomes) [] =
      (match outcomes (callsDue retried outcomes limit - 1) with
        | .ok a => .ok (some a)
        | .error f => if retried f then .error (.exhausted job limit f) else .error f,
      TryEvent.calls (delayOf delay) (callsDue retried outcomes limit)) := by
  obtain ⟨failed, hdue, hlimit, hfailed, hlast⟩ := callsDue_cases retried outcomes h
  rw [hdue] at hdelays ⊢
  obtain ⟨left, hleft⟩ : ∃ left, limit - failed = left + 1 := ⟨limit - failed - 1, by omega⟩
  rw [from_of_all_failed failed hfailed hlimit
    fun i hi => delay_eq_ok (hdelays (i + 1) (by omega) (by omega)), hleft]
  exact from_of_last (hlast.imp_right fun heq => by omega)

/-- **The first delay that cannot be computed** stops the tries behind the call before it. -/
theorem retry_of_flaw {failed : Nat} {flaw : ArithmeticFlaw} (h : 1 ≤ limit)
    (hdue : failed + 1 < callsDue retried outcomes limit)
    (hdelays : ∀ i : Nat, 1 ≤ i → i < failed + 1 → ∃ d, delay i = .ok d)
    (hflaw : delay (failed + 1) = .error flaw) :
    retry (recorded job limit retried delay) (scripted outcomes) [] =
      (.error (.misuse (.arithmetic flaw)),
        TryEvent.calls (delayOf delay) (failed + 1)) := by
  obtain ⟨last, hlast, hlimit, hfailed, -⟩ := callsDue_cases retried outcomes h
  obtain ⟨f, hf, hretried⟩ := exists_of_not_settles (hfailed failed (by omega))
  obtain ⟨left, hleft⟩ : ∃ left, limit - failed = left + 1 := ⟨limit - failed - 1, by omega⟩
  rw [from_of_all_failed failed (fun i hi => hfailed i (by omega)) (by omega)
    fun i hi => delay_eq_ok (hdelays (i + 1) (by omega) (by omega)), hleft]
  exact from_of_flaw hf hretried (by omega) hflaw

/-- All allowed calls are made and fail exactly if the last one that is due does. -/
theorem retried_last_iff (h : 1 ≤ limit) :
    (∃ f, outcomes (callsDue retried outcomes limit - 1) = .error f ∧ retried f = true) ↔
      ∀ i < limit, ∃ f, outcomes i = .error f ∧ retried f = true := by
  obtain ⟨failed, hdue, hlimit, hfailed, hlast⟩ := callsDue_cases retried outcomes h
  rw [hdue, Nat.add_sub_cancel]
  constructor
  · rintro ⟨f, hf, hretried⟩ i hi
    have hall : failed + 1 = limit := hlast.resolve_left (by simp [settles, hf, hretried])
    rcases Nat.lt_or_ge i failed with hlt | hge
    · exact exists_of_not_settles (hfailed i hlt)
    · obtain rfl : i = failed := by omega
      exact ⟨f, hf, hretried⟩
  · exact fun hall => hall failed hlimit

theorem lawful_of_delays (h : 1 ≤ limit)
    (hdelays : ∀ i : Nat, 1 ≤ i → i < callsDue retried outcomes limit → ∃ d, delay i = .ok d) :
    Lawful (recorded job limit retried delay) outcomes := by
  have hrun : retry (recorded job limit retried delay) (scripted outcomes) [] = _ :=
    retry_of_delays h hdelays
  refine ⟨?_, by rw [hrun]; rfl, fun a ha => ?_, fun f hf hrefused => ?_, fun f hf hretried => ?_,
    retried_last_iff h⟩
  · rw [hrun]
    exact TryEvent.countP_calls _ _
  · rw [hrun]
    change outcomes (callsDue retried outcomes limit - 1) = _ at ha
    rw [ha]
  · rw [hrun]
    change outcomes (callsDue retried outcomes limit - 1) = _ at hf
    change retried f = false at hrefused
    simp [hf, hrefused]
  · rw [hrun]
    change outcomes (callsDue retried outcomes limit - 1) = _ at hf
    change retried f = true at hretried
    simp [hf, hretried, recorded]

/-- A delay before the last call that cannot be computed makes the calls too few. -/
theorem exists_delay_of_lawful (h : 1 ≤ limit)
    (hlawful : Lawful (recorded job limit retried delay) outcomes) (i : Nat) (hi : 1 ≤ i)
    (hdue : i < callsDue retried outcomes limit) : ∃ d, delay i = .ok d := by
  -- The first flaw is the one that shows, so what is before `i` comes first.
  induction i using Nat.strong_induction_on with
  | _ i ih =>
    cases hdelay : delay i with
    | ok d => exact ⟨d, rfl⟩
    | error flaw =>
      obtain ⟨failed, rfl⟩ : ∃ failed, i = failed + 1 := ⟨i - 1, by omega⟩
      have hrun : retry (recorded job limit retried delay) (scripted outcomes) [] = _ :=
        retry_of_flaw h hdue (fun j hj hlt => ih j hlt hj (by omega)) hdelay
      have hcalled := hlawful.called
      rw [hrun, TryEvent.countP_calls] at hcalled
      exact absurd hcalled (Nat.ne_of_lt hdue)

end

end Retrying

/-! ## Delays in exact numbers -/

namespace RetryPolicy

/-- Delays do not begin below zero, and they do not shrink. -/
structure Growing (p : RetryPolicy Rat) : Prop where
  base : 0 ≤ p.base
  limit : 0 ≤ p.limit
  factor : 1 ≤ p.factor
  steady : p.jitter = false

/-- The delay behind an attempt before it is limited. -/
def unlimited (p : RetryPolicy Rat) (attempt : Int) : Rat :=
  match p.growth with
  | .exponential => p.base * p.factor ^ (attempt - 1)
  | .linear => p.base * attempt
  | .constant => p.base

/-- The delay behind an attempt. -/
def limited (p : RetryPolicy Rat) (attempt : Int) : Rat := max 0 (min (p.unlimited attempt) p.limit)

variable {p : RetryPolicy Rat} {vary : Rat → Except ArithmeticFlaw Rat}

theorem growing_eq (p : RetryPolicy Rat) (attempt : Int) :
    p.growing attempt = .ok (p.unlimited attempt) := by
  unfold growing unlimited
  cases p.growth <;> rfl

/-- **In exact numbers all delays can be computed.** -/
theorem delay_eq (h : p.Growing) (attempt : Int) : p.delay vary attempt = .ok (p.limited attempt) := by
  have hleast : ∀ a b : Rat, DelayNumber.least a b = min a b := fun a b => by
    rw [min_comm, min_def_lt]
    rfl
  have hgreatest : ∀ a b : Rat, DelayNumber.greatest a b = max a b := fun a b => by
    rw [max_def_lt]
    rfl
  unfold delay
  rw [growing_eq, h.steady]
  simp only [bind, Except.bind, Bool.false_eq_true, if_false, hleast, hgreatest]
  rfl

theorem limited_bounds (h : p.Growing) (attempt : Int) :
    0 ≤ p.limited attempt ∧ p.limited attempt ≤ p.limit :=
  ⟨le_max_left _ _, max_le h.limit (min_le_right _ _)⟩

theorem unlimited_mono (h : p.Growing) {i j : Int} (hi : i ≤ j) : p.unlimited i ≤ p.unlimited j := by
  unfold unlimited
  cases p.growth with
  | exponential =>
    exact mul_le_mul_of_nonneg_left (zpow_le_zpow_right₀ h.factor (by omega)) h.base
  | linear => exact mul_le_mul_of_nonneg_left (Int.cast_le.mpr hi) h.base
  | constant => exact le_refl _

/-- **No delay is less than the one before.** -/
theorem limited_mono (h : p.Growing) {i j : Int} (hi : i ≤ j) : p.limited i ≤ p.limited j :=
  max_le_max_left 0 (min_le_min_right p.limit (unlimited_mono h hi))

end RetryPolicy

/-! ## Both together -/

namespace Retrying

/-- **The law of attempts.** A job is called as often as is due, with the delays of the attempts in
between, and the last call says what comes of it, exactly if all delays before the last call can be
computed; the first one that cannot stops the tries with a fault of its own. In exact numbers all
delays can be computed, are between zero and the limit, and do not shrink. -/
theorem lawful_iff [Inhabited δ] (job : String) {attempts : Int} (h : 1 ≤ attempts)
    (retried : Fault → Bool) (delay : Int → Except ArithmeticFlaw δ)
    (outcomes : Nat → Except Fault α) :
    let due := callsDue retried outcomes attempts.toNat
    (Lawful (recorded job attempts retried delay) outcomes ↔
      ∀ i : Nat, 1 ≤ i → i < due → ∃ d, delay i = .ok d) ∧
    (∀ (i : Nat) (flaw : ArithmeticFlaw), 1 ≤ i → i < due →
      (∀ j : Nat, 1 ≤ j → j < i → ∃ d, delay j = .ok d) → delay i = .error flaw →
      retry (recorded job attempts retried delay) (scripted outcomes) [] =
        (.error (.misuse (.arithmetic flaw)), TryEvent.calls (delayOf delay) i)) ∧
    ∀ (p : RetryPolicy Rat) (vary : Rat → Except ArithmeticFlaw Rat), p.Growing →
      Lawful (recorded job attempts retried (p.delay vary)) outcomes ∧
      (∀ i : Nat, 0 ≤ delayOf (p.delay vary) i ∧ delayOf (p.delay vary) i ≤ p.limit) ∧
      ∀ i j : Nat, i ≤ j → delayOf (p.delay vary) i ≤ delayOf (p.delay vary) j := by
  obtain ⟨limit, rfl⟩ : ∃ limit : Nat, attempts = limit := ⟨attempts.toNat, by omega⟩
  have hlimit : 1 ≤ limit := by omega
  rw [Int.toNat_natCast]
  refine ⟨⟨exists_delay_of_lawful hlimit, lawful_of_delays hlimit⟩, ?_, fun p vary hp => ?_⟩
  · intro i flaw hi hdue hdelays hflaw
    obtain ⟨failed, rfl⟩ : ∃ failed, i = failed + 1 := ⟨i - 1, by omega⟩
    exact retry_of_flaw hlimit hdue hdelays hflaw
  · have hdelay : ∀ i : Nat, delayOf (p.delay vary) i = p.limited i := fun i => by
      rw [delayOf, RetryPolicy.delay_eq hp]
      rfl
    simp only [hdelay]
    exact ⟨lawful_of_delays hlimit fun i _ _ => ⟨_, RetryPolicy.delay_eq hp i⟩,
      fun i => RetryPolicy.limited_bounds hp i,
      fun i j hij => RetryPolicy.limited_mono hp (Int.ofNat_le.mpr hij)⟩

/-- A job that fails three times before it succeeds. -/
def lateOutcomes (i : Nat) : Except Fault Nat :=
  if i < 3 then .error (.outside "ConnectError" "refused") else .ok 7

/-- Four attempts with delays that grow by a factor. -/
def fourAttempts (factor : Double) : RetryPolicy Number :=
  { RetryPolicy.standard with attempts := 4, factor := .double factor, jitter := false }

def networkFailed (f : Fault) : Bool := f.isA "NetworkError"

/-- Delays that double: all of them can be computed. -/
theorem lawful_iff_doubling :
    let delay := (fourAttempts (.ofInt 2)).delay (varied middle)
    let exact : RetryPolicy Rat := ⟨4, 1 / 2, 5, 2, false, .exponential⟩
    (1 : Int) ≤ 4 ∧ callsDue networkFailed lateOutcomes 4 = 4 ∧
    Lawful (recorded "job" 4 networkFailed delay) lateOutcomes ∧
    (retry (recorded "job" 4 networkFailed delay) (scripted lateOutcomes) []).2 =
      [.call, .sleep (.double (.ofRatio false 1 2)), .call, .sleep (.double (.ofInt 1)), .call,
        .sleep (.double (.ofInt 2)), .call] ∧
    exact.Growing ∧ delayOf (exact.delay .ok) 3 ≤ delayOf (exact.delay .ok) 4 := by
  intro delay exact
  have hdelays : ∀ i < 4, 1 ≤ i → (delay (i : Nat)).toOption.isSome = true := by decide +kernel
  have hdue : callsDue networkFailed lateOutcomes 4 = 4 := by decide +kernel
  have hexact : exact.Growing := ⟨by norm_num [exact], by norm_num [exact], by norm_num [exact], rfl⟩
  obtain ⟨hlaw, -, hrat⟩ :=
    lawful_iff "job" (by decide : (1 : Int) ≤ 4) networkFailed delay lateOutcomes
  refine ⟨by decide, hdue, hlaw.mpr fun i hi hlt => ?_, by decide +kernel, hexact,
    (hrat exact .ok hexact).2.2 3 4 (by decide)⟩
  have hsome := hdelays i (hdue ▸ hlt) hi
  cases hdelay : delay i with
  | ok d => exact ⟨d, rfl⟩
  | error flaw =>
    rw [hdelay] at hsome
    exact Bool.noConfusion hsome

/-- A factor whose square is too large: the third delay stops the tries before the job succeeds, although
no delay is to be longer than five seconds. -/
theorem not_lawful_overflow :
    let delay := (fourAttempts (.ofRatio false (10 ^ 200) 1)).delay (varied middle)
    callsDue networkFailed lateOutcomes 4 = 4 ∧
    (retry (recorded "job" 4 networkFailed delay) (scripted lateOutcomes) []) =
      (.error (.misuse (.arithmetic .powerTooLarge)),
        [.call, .sleep (.double (.ofRatio false 1 2)), .call, .sleep (.double (.ofInt 5)), .call]) ∧
    ¬ Lawful (recorded "job" 4 networkFailed delay) lateOutcomes := by
  intro delay
  have hdue : callsDue networkFailed lateOutcomes 4 = 4 := by decide +kernel
  have hdelays : delay (1 : Nat) = .ok (.double (.ofRatio false 1 2)) ∧
      delay (2 : Nat) = .ok (.double (.ofInt 5)) ∧
      delay ((2 : Nat) + 1) = .error .powerTooLarge := by decide +kernel
  have hrun : retry (recorded "job" 4 networkFailed delay) (scripted lateOutcomes) [] =
      (.error (.misuse (.arithmetic .powerTooLarge)), TryEvent.calls (delayOf delay) (2 + 1)) := by
    refine retry_of_flaw (by decide : 1 ≤ 4) (by rw [hdue]; decide) (fun i hi hlt => ?_) hdelays.2.2
    obtain rfl | rfl : i = 1 ∨ i = 2 := by omega
    · exact ⟨_, hdelays.1⟩
    · exact ⟨_, hdelays.2.1⟩
  refine ⟨hdue, ?_, fun hlaw => ?_⟩
  · rw [hrun, TryEvent.calls, TryEvent.delayed_succ, TryEvent.delayed_succ, delayOf, delayOf,
      hdelays.1, hdelays.2.1]
    rfl
  · have hcalled := hlaw.called
    rw [hrun, TryEvent.countP_calls] at hcalled
    exact absurd (hcalled.trans hdue) (by decide)

end Retrying

end ChangeRules
