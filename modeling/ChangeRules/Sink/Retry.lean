import ChangeRules.Fault

/-!
# Trying again

A job that fails in certain ways is tried again after a delay, up to a number of attempts. Delays
grow from attempt to attempt up to a limit; they are computed in any numbers that can be multiplied
and compared.

* `RetryPolicy.delay`: the delay behind an attempt.
* `retry`: a job tried until it succeeds, fails for good or runs out of attempts.
-/

namespace ChangeRules

/-! ## Delays -/

/-- How delays grow. -/
inductive Growth where
  /-- By a factor for each attempt. -/
  | exponential
  /-- By the first delay for each attempt. -/
  | linear
  | constant
  deriving DecidableEq, Inhabited

/-- The growth of a name; an unknown name means none. -/
def Growth.ofName (s : String) : Growth :=
  if s = "exponential" then .exponential else if s = "linear" then .linear else .constant

/-- Numbers that delays can be computed in. -/
class DelayNumber (α : Type) where
  ofInt : Int → α
  mul : α → α → Except ArithmeticFlaw α
  power : α → Int → Except ArithmeticFlaw α
  /-- The least of two, the first one if they tie. -/
  least : α → α → α
  /-- The greatest of two, the first one if they tie. -/
  greatest : α → α → α
  /-- No delay at all. -/
  zero : α

instance : DelayNumber Number where
  ofInt := .int
  mul := Number.mul
  power := Number.power
  least := Number.min
  greatest := Number.max
  zero := .double .zero

instance : DelayNumber Rat where
  ofInt n := n
  mul a b := .ok (a * b)
  power a n := .ok (a ^ n)
  least a b := if b < a then b else a
  greatest a b := if a < b then b else a
  zero := 0

/-- How a job is tried again. -/
structure RetryPolicy (α : Type) where
  attempts : Int
  base : α
  limit : α
  factor : α
  /-- Delays are varied at random. -/
  jitter : Bool
  growth : Growth

namespace RetryPolicy

variable {α : Type} [DelayNumber α]

/-- The delay behind an attempt before it is limited. -/
def growing (p : RetryPolicy α) (attempt : Int) : Except ArithmeticFlaw α :=
  match p.growth with
  | .exponential => do DelayNumber.mul p.base (← DelayNumber.power p.factor (attempt - 1))
  | .linear => DelayNumber.mul p.base (DelayNumber.ofInt attempt)
  | .constant => .ok p.base

/-- The delay behind an attempt, where `vary` varies a delay. -/
def delay (vary : α → Except ArithmeticFlaw α) (p : RetryPolicy α) (attempt : Int) :
    Except ArithmeticFlaw α := do
  let d := DelayNumber.least (← p.growing attempt) p.limit
  let d ← if p.jitter then vary d else .ok d
  .ok (DelayNumber.greatest DelayNumber.zero d)

end RetryPolicy

/-- A delay varied by up to a tenth; `part` says how far between the least and the greatest. -/
def varied (part : Double) (d : Number) : Except ArithmeticFlaw Number := do
  let x ← d.toDouble
  let tenth := x.mul (.ofRatio false 1 10)
  d.add (.double (tenth.neg.add ((tenth.sub tenth.neg).mul part)))

/-- Half of the way: a delay that is drawn there is not varied at all. -/
def middle : Double := .ofRatio false 1 2

/-- The policy where none is given. -/
def RetryPolicy.standard : RetryPolicy Number where
  attempts := 3
  base := .double (.ofRatio false 1 2)
  limit := .double (.ofInt 5)
  factor := .double (.ofInt 2)
  jitter := true
  growth := .exponential

/-! ## Attempts -/

/-- What a job does to a state, and what comes of it. -/
abbrev Job (σ α : Type) := σ → Except Fault α × σ

section

variable {σ α δ : Type}

/-- How a job is tried. -/
structure Retrying (σ δ : Type) where
  /-- The name of the job. -/
  job : String
  attempts : Int
  /-- The faults after which the job is tried again. -/
  retried : Fault → Bool
  delay : Int → Except ArithmeticFlaw δ
  sleep : δ → σ → σ

/-- A job tried `left` more times, the next one being attempt `attempt`. -/
def Retrying.from (r : Retrying σ δ) (job : Job σ α) : (attempt : Int) → (left : Nat) →
    Job σ (Option α)
  | _, 0, s => (.ok none, s)
  | attempt, left + 1, s =>
    match job s with
    | (.ok a, s) => (.ok (some a), s)
    | (.error f, s) =>
      if !r.retried f then (.error f, s)
      else if left = 0 then (.error (.exhausted r.job r.attempts f), s)
      else match r.delay attempt with
        | .ok d => Retrying.from r job (attempt + 1) left (r.sleep d s)
        | .error flaw => (.error (.misuse (.arithmetic flaw)), s)

/-- A job tried as often as it is allowed to. With no attempt allowed nothing comes of it. -/
def retry (r : Retrying σ δ) (job : Job σ α) : Job σ (Option α) :=
  r.from job 1 r.attempts.toNat

theorem retry_of_attempts_nonpos {r : Retrying σ δ} {job : Job σ α} (h : r.attempts ≤ 0) (s : σ) :
    retry r job s = (.ok none, s) := by
  have : r.attempts.toNat = 0 := by omega
  simp [retry, this, Retrying.from]

end

end ChangeRules
