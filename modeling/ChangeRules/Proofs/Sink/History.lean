import ChangeRules.Sink.Breaker
import Mathlib.Data.List.Induction

/-!
# The history of a breaker

Calls through a breaker overlap. Each one asks to be let through and is heard of again when its
outcome is noted, unless it was given up; by then others may have opened the breaker, put it on trial
or closed it. Whatever the order, a breaker is what its history makes it.

* `BreakerEvent`, `BreakerWatch.run`: what happens at a breaker, and where this leads.
* **`BreakerWatch.Told.step`**, **`BreakerWatch.Told.run`**: the counts of a breaker are those of its
  history.
* `BreakerWatch.Told.call`: a call is heard of once when it asks and at most once afterwards.
* **`state_of_history`**: the counts decide whether a breaker is closed, and only a call that asks
  long enough behind the last failure puts an open breaker on trial.
-/

namespace ChangeRules

/-- What happens at a breaker. -/
inductive BreakerEvent where
  /-- A call asks to be let through. -/
  | ask
  | success
  | failure
  /-- A call was given up, and nothing is noted of it. -/
  | abandoned
  /-- The clock moves, forth or back. -/
  | clock (reading : Double)

namespace BreakerEvent

def isSuccess : BreakerEvent → Bool
  | .success => true
  | _ => false

def isFailure : BreakerEvent → Bool
  | .failure => true
  | _ => false

/-- What is noted of a call with an outcome. -/
def ofOutcome {α : Type} (ignored : Fault → Bool) : Except Fault α → BreakerEvent
  | .ok _ => .success
  | .error .stuck => .abandoned
  | .error f => if ignored f then .success else .failure

/-- So many events of one kind behind the last one of another. -/
def since (last counted : BreakerEvent → Bool) (history : List BreakerEvent) : Nat :=
  (history.reverse.takeWhile fun ev => !last ev).countP counted

theorem since_concat (last counted : BreakerEvent → Bool) (history : List BreakerEvent)
    (ev : BreakerEvent) : since last counted (history ++ [ev]) =
      if last ev then 0 else since last counted history + if counted ev then 1 else 0 := by
  unfold since
  rw [List.reverse_concat, List.takeWhile_cons]
  cases last ev with
  | true => rfl
  | false => simp [List.countP_cons]

/-- The failures behind the last success. -/
def failuresSinceSuccess : List BreakerEvent → Nat := since isSuccess isFailure

/-- The successes behind the last failure. -/
def successesSinceFailure : List BreakerEvent → Nat := since isFailure isSuccess

/-- Whatever comes last, a failure or a success, there is none of the other kind behind it. -/
theorem eq_zero_or_eq_zero (history : List BreakerEvent) :
    failuresSinceSuccess history = 0 ∨ successesSinceFailure history = 0 := by
  induction history using List.reverseRecOn with
  | nil => exact Or.inl rfl
  | append_singleton history ev ih =>
    rw [failuresSinceSuccess, successesSinceFailure, since_concat, since_concat]
    cases ev with
    | success => exact Or.inl rfl
    | failure => exact Or.inr rfl
    | _ => exact ih

end BreakerEvent

/-- A breaker and the clock that it reads. -/
structure BreakerWatch where
  now : Double
  breaker : Breaker

namespace BreakerWatch

open BreakerEvent

def step (s : BreakerWatch) : BreakerEvent → BreakerWatch
  | .ask => { s with breaker := s.breaker.admitted s.now }
  | .success => { s with breaker := s.breaker.noteSuccess }
  | .failure => { s with breaker := s.breaker.noteFailure s.now }
  | .abandoned => s
  | .clock reading => { s with now := reading }

def run (s : BreakerWatch) (history : List BreakerEvent) : BreakerWatch := history.foldl step s

theorem run_concat (s : BreakerWatch) (history : List BreakerEvent) (ev : BreakerEvent) :
    s.run (history ++ [ev]) = (s.run history).step ev := by
  simp [run]

/-! ## Counts -/

/-- What the history of a breaker that opens after `limit` failures says about it. -/
structure Told (limit : Int) (history : List BreakerEvent) (b : Breaker) : Prop where
  threshold : b.threshold = limit
  failures : b.failures = failuresSinceSuccess history
  successes : b.successes = successesSinceFailure history
  closed : b.state = .closed ↔ (b.failures : Int) < limit

section

variable {limit : Int} {history : List BreakerEvent} {s : BreakerWatch}

/-- An event that nothing is noted of tells nothing new. -/
theorem Told.quiet {b b' : Breaker} {ev : BreakerEvent} (h : Told limit history b)
    (hsuccess : ev.isSuccess = false) (hfailure : ev.isFailure = false)
    (hstate : b'.state = .closed ↔ b.state = .closed)
    (hb : b' = { b with state := b'.state }) : Told limit (history ++ [ev]) b' where
  threshold := by
    rw [hb]
    exact h.threshold
  failures := by
    rw [hb, failuresSinceSuccess, since_concat, hsuccess, hfailure]
    exact h.failures
  successes := by
    rw [hb, successesSinceFailure, since_concat, hsuccess, hfailure]
    exact h.successes
  closed := by
    rw [hstate, hb]
    exact h.closed

/-- **Every event keeps the counts right.** -/
theorem Told.step (h : Told limit history s.breaker) (hlimit : 1 ≤ limit) (ev : BreakerEvent) :
    Told limit (history ++ [ev]) (s.step ev).breaker := by
  cases ev with
  | ask =>
    refine h.quiet rfl rfl ?_ ?_ <;> simp only [BreakerWatch.step, Breaker.admitted] <;> split
    · next hopen => simp_all [Breaker.isOpen]
    · rfl
    · rfl
    · rfl
  | success =>
    refine ⟨h.threshold, ?_, ?_, ?_⟩
    · rw [failuresSinceSuccess, since_concat]
      rfl
    · rw [successesSinceFailure, since_concat]
      exact congrArg (· + 1) h.successes
    · simp only [BreakerWatch.step, Breaker.noteSuccess, true_iff]
      omega
  | failure =>
    refine ⟨h.threshold, ?_, ?_, ?_⟩
    · rw [failuresSinceSuccess, since_concat]
      exact congrArg (· + 1) h.failures
    · rw [successesSinceFailure, since_concat]
      rfl
    · have hclosed := h.closed
      simp only [BreakerWatch.step, Breaker.noteFailure, h.threshold]
      -- A breaker that was not closed had failed often enough before.
      cases hs : s.breaker.state <;> simp only [hs, reduceCtorEq, true_iff, false_iff] at hclosed <;>
        simp <;> omega
  | abandoned => exact h.quiet rfl rfl Iff.rfl rfl
  | clock reading => exact h.quiet rfl rfl Iff.rfl rfl

/-- **The counts of a breaker are those of its history.** -/
theorem Told.run (h : Told limit history s.breaker) (hlimit : 1 ≤ limit)
    (more : List BreakerEvent) : Told limit (history ++ more) (s.run more).breaker := by
  induction more using List.reverseRecOn with
  | nil =>
    rw [List.append_nil]
    exact h
  | append_singleton more ev ih =>
    rw [run_concat, ← List.append_assoc]
    exact ih.step hlimit ev

/-- A breaker that was never used has no history. -/
theorem told_fresh (name : String) (recovery : Number) (hlimit : 1 ≤ limit) :
    Told limit [] { name, threshold := limit, recovery } := by
  refine ⟨rfl, rfl, rfl, ?_⟩
  simp only [true_iff]
  omega

end

/-! ## Calls -/

section

variable {σ α : Type} {ignored : Fault → Bool} {clock : σ → Double} {job : σ → Except Fault α × σ}
  {limit : Int} {history : List BreakerEvent} {b : Breaker} {s : σ}

theorem settle_eq_step (ignored : Fault → Bool) (now : Double) (outcome : Except Fault α)
    (b : Breaker) :
    b.settle ignored now outcome = (step ⟨now, b⟩ (ofOutcome ignored outcome)).breaker := by
  cases outcome with
  | ok a => rfl
  | error f =>
    cases f with
    | stuck => rfl
    | _ =>
      dsimp only [Breaker.settle, ofOutcome]
      split <;> rfl

/-- A call that is let through asks, and is heard of again when its job is done. -/
theorem run_call (h : b.admits (clock s) = true) :
    (Breaker.call ignored clock job b s).2.1 = (run ⟨clock s, b⟩
      [.ask, .clock (clock (job s).2), ofOutcome ignored (job s).1]).breaker := by
  simp only [Breaker.call, h, if_true, settle_eq_step]
  rfl

/-- A call that is not let through only asks. -/
theorem run_call_of_not_admits (h : b.admits (clock s) = false) :
    (Breaker.call ignored clock job b s).2.1 = (run ⟨clock s, b⟩ [.ask]).breaker := by
  rw [Breaker.call_of_not_admits h]
  have hask : (b.isOpen && b.hasRecovered (clock s)) = false := by
    unfold Breaker.admits at h
    cases b.isOpen <;> simp_all
  simp [run, step, Breaker.admitted, hask]

/-- **A call goes on with the history of its breaker.** -/
theorem Told.call (h : Told limit history b) (hlimit : 1 ≤ limit) :
    ∃ more, Told limit (history ++ more) (Breaker.call ignored clock job b s).2.1 := by
  cases hadmits : b.admits (clock s) with
  | true =>
    rw [run_call hadmits]
    exact ⟨_, Told.run (s := ⟨clock s, b⟩) h hlimit _⟩
  | false =>
    rw [run_call_of_not_admits hadmits]
    exact ⟨_, Told.run (s := ⟨clock s, b⟩) h hlimit _⟩

end

/-! ## Trials -/

variable {s : BreakerWatch}

/-- The time since the last failure is at least the recovery time. -/
def HasRested (s : BreakerWatch) : Prop :=
  ∃ order, (Number.double (s.now.sub s.breaker.lastFailure)).compare? s.breaker.recovery =
    some order ∧ order ≠ .lt

theorem hasRested_iff : s.HasRested ↔ s.breaker.hasRecovered s.now = true := by
  unfold HasRested Breaker.hasRecovered
  rcases (Number.double (s.now.sub s.breaker.lastFailure)).compare? s.breaker.recovery with
    - | (- | - | -) <;> simp

/-- A breaker is put on trial by a call that asks, and only if it is open and has rested. -/
theorem step_halfOpen_iff (ev : BreakerEvent) :
    s.breaker.state ≠ .halfOpen ∧ (s.step ev).breaker.state = .halfOpen ↔
      ev = .ask ∧ s.breaker.state = .opened ∧ s.HasRested := by
  rw [hasRested_iff]
  cases ev with
  | ask =>
    cases hs : s.breaker.state <;> cases hrest : s.breaker.hasRecovered s.now <;>
      simp [step, Breaker.admitted, Breaker.isOpen, hs, hrest]
  | failure =>
    simp only [step, Breaker.noteFailure]
    split <;> simp_all
  | _ => simp [step, Breaker.noteSuccess]

/-! ## Breakers -/

/-- **What a breaker is after any history of calls**: it is closed exactly while it failed less often
than its threshold; it counts the failures since the last success and the successes since the last
failure, which are never both there; and it is put on trial exactly by a call that asks while it is
open and has rested. -/
theorem state_of_history (name : String) (threshold : Int) (recovery : Number)
    (h : 1 ≤ threshold) (now : Double) (history : List BreakerEvent) :
    let s := run ⟨now, { name, threshold, recovery }⟩ history
    (s.breaker.state = .closed ↔ (s.breaker.failures : Int) < threshold) ∧
    s.breaker.failures = failuresSinceSuccess history ∧
    s.breaker.successes = successesSinceFailure history ∧
    (s.breaker.failures = 0 ∨ s.breaker.successes = 0) ∧
    ∀ ev, s.breaker.state ≠ .halfOpen ∧ (s.step ev).breaker.state = .halfOpen ↔
      ev = .ask ∧ s.breaker.state = .opened ∧ s.HasRested := by
  have htold := (told_fresh name recovery h).run (s := ⟨now, _⟩) h history
  refine ⟨htold.closed, htold.failures, htold.successes, ?_, fun ev => step_halfOpen_iff ev⟩
  rw [htold.failures, htold.successes]
  exact eq_zero_or_eq_zero history

/-- Three calls that overlap: two fail, and much later another one asks before the third is heard of. -/
def overlappingCalls : List BreakerEvent :=
  [.ask, .ask, .ask, .failure, .failure, .clock (.ofInt 40), .ask]

theorem state_of_history_overlappingCalls :
    let s := run ⟨.zero, { name := "b", threshold := 2, recovery := .int 30 }⟩ overlappingCalls
    (1 : Int) ≤ 2 ∧ s.breaker.state = .halfOpen ∧ failuresSinceSuccess overlappingCalls = 2 ∧
      (s.breaker.state = .closed ↔ (s.breaker.failures : Int) < 2) ∧
      s.breaker.failures = failuresSinceSuccess overlappingCalls :=
  have h := state_of_history "b" 2 (.int 30) (by decide) .zero overlappingCalls
  ⟨by decide, by decide +kernel, by decide, h.1, h.2.1⟩

end BreakerWatch

end ChangeRules
