import ChangeRules.Action.Dispatch
import Mathlib.Data.List.Forall2

/-!
# Actions up to the first failure

A row of actions always comes to results, one for each action up to the first that fails. What a row
does is what its parts do one after the other: if the first part fails, the second one does not
happen, and otherwise it happens where the first one left the services. The place of an action is the
only thing in its result that tells where in the row it stood.

* `Dispatched`: the results of a row of actions.
* **`Dispatched.failure?_eq_none_iff`**: there is no failure exactly where every action succeeded.
* `ActionResult.Displaced`: the same result at a later place.
* **`dispatchFrom_append`**, **`dispatchFrom_displaced`**: a row in two parts, and a row at a later
  place.
* **`dispatch_append`**: both together, for the stored actions of a rule.
-/

namespace ChangeRules

/-! ## Results of a row -/

/-- The result of the action that is stored at a place. -/
structure ActionResult.Of (index : Nat) (stored : Value) (r : ActionResult) : Prop where
  index : r.index = index
  type : r.type = Action.storedType stored

/-- The results of a row of actions, the first one at place `index`, up to the first failure. -/
inductive Dispatched : (index : Nat) → List Value → List ActionResult → Prop
  | done (index : Nat) : Dispatched index [] []
  | failed {index : Nat} {stored : Value} {rest : List Value} {r : ActionResult}
      (hr : r.Of index stored) (hfailed : r.isSuccess = false) :
      Dispatched index (stored :: rest) [r]
  | next {index : Nat} {stored : Value} {rest : List Value} {r : ActionResult}
      {results : List ActionResult} (hr : r.Of index stored) (hok : r.isSuccess = true)
      (hrest : Dispatched (index + 1) rest results) : Dispatched index (stored :: rest) (r :: results)

namespace Dispatched

variable {index : Nat} {actions rest : List Value} {results more : List ActionResult}

theorem indices (h : Dispatched index actions results) :
    results.map (·.index) = List.range' index results.length := by
  induction h with
  | done => rfl
  | failed hr => simp [hr.index]
  | next hr _ _ ih => simp [hr.index, ih, List.range'_succ]

/-- Only the last action can have failed. -/
theorem isSuccess_of_mem_dropLast (h : Dispatched index actions results) :
    ∀ r ∈ results.dropLast, r.isSuccess = true := by
  induction h with
  | done => simp
  | failed => simp
  | @next _ _ _ r results _ hok _ ih =>
    intro s hs
    cases results with
    | nil => simp at hs
    | cons r' results =>
      rw [List.dropLast_cons_cons] at hs
      rcases List.mem_cons.mp hs with rfl | hs
      · exact hok
      · exact ih s hs

/-- **There is no failure exactly where every action has a result, and each one succeeded.** -/
theorem failure?_eq_none_iff (h : Dispatched index actions results) : failure? results = none ↔
    results.length = actions.length ∧ ∀ r ∈ results, r.isSuccess = true := by
  unfold failure?
  induction h with
  | done => simp
  | failed hr hfailed => simp [hfailed]
  | next hr hok _ ih => simp [hok, ih]

/-- A row without a failure is gone on with. -/
theorem append (h : Dispatched index actions results) (hnone : failure? results = none)
    (hrest : Dispatched (index + actions.length) rest more) :
    Dispatched index (actions ++ rest) (results ++ more) := by
  induction h with
  | done => exact hrest
  | failed hr hfailed => simp [failure?, hfailed] at hnone
  | @next index stored actions r results hr hok _ ih =>
    refine .next hr hok (ih ?_ ?_)
    · simpa [failure?, hok] using hnone
    · rwa [List.length_cons, ← Nat.add_assoc, Nat.add_right_comm] at hrest

end Dispatched

/-! ## Dispatching -/

theorem of_runAction (limit : Number) (c : ActionContext) (index : Nat) (stored : Value)
    (o : Outlets) : (runAction limit c index stored o).1.Of index stored := by
  unfold runAction
  dsimp only
  split <;> exact ⟨rfl, rfl⟩

/-- A row of actions comes to its results. -/
theorem dispatched_dispatchFrom (limit : Number) (c : ActionContext) (index : Nat)
    (actions : List Value) (o : Outlets) :
    Dispatched index actions (dispatchFrom limit c index actions o).1 := by
  induction actions generalizing index o with
  | nil => exact .done index
  | cons stored rest ih =>
    have hr := of_runAction limit c index stored o
    cases hok : (runAction limit c index stored o).1.isSuccess with
    | false =>
      rw [dispatchFrom_cons_of_failed hok]
      exact .failed hr hok
    | true =>
      rw [dispatchFrom_cons_of_success hok]
      exact .next hr hok (ih _ _)

/-- **A row in two parts**: the second one happens if the first one did not fail, and goes on where it
ended. -/
theorem dispatchFrom_append (limit : Number) (c : ActionContext) (index : Nat) (xs ys : List Value)
    (o : Outlets) :
    dispatchFrom limit c index (xs ++ ys) o =
      let first := dispatchFrom limit c index xs o
      if failure? first.1 = none then
        let second := dispatchFrom limit c (index + xs.length) ys first.2
        (first.1 ++ second.1, second.2)
      else first := by
  induction xs generalizing index o with
  | nil => simp [dispatchFrom, failure?]
  | cons stored rest ih =>
    rw [List.cons_append]
    cases hok : (runAction limit c index stored o).1.isSuccess with
    | false => simp [dispatchFrom_cons_of_failed hok, failure?, hok]
    | true =>
      have hplace : index + 1 + rest.length = index + (rest.length + 1) := by omega
      rw [dispatchFrom_cons_of_success hok, dispatchFrom_cons_of_success hok, ih]
      simp only [failure?, List.find?_cons, hok, Bool.not_true, List.length_cons, hplace]
      split <;> rfl

/-! ## Later places -/

/-- What the result of an action tells of an error. -/
def RuleError.told (e : RuleError) : String × String := (e.code, e.message)

/-- The same result, `n` places later. -/
structure ActionResult.Displaced (n : Nat) (r s : ActionResult) : Prop where
  index : s.index = r.index + n
  type : s.type = r.type
  parameters : s.parameters = r.parameters
  outcome : s.outcome.mapError RuleError.told = r.outcome.mapError RuleError.told
  milliseconds : s.milliseconds = r.milliseconds

@[simp]
theorem RuleError.told_bind (e : RuleError) (index : Option Int) (type : Option String) :
    (e.bind index type).told = e.told := rfl

theorem ActionResult.Displaced.isSuccess {n : Nat} {r s : ActionResult} (h : r.Displaced n s) :
    s.isSuccess = r.isSuccess := by
  have := h.outcome
  unfold ActionResult.isSuccess
  cases hr : r.outcome <;> cases hs : s.outcome <;> rw [hr, hs] at this <;> first | rfl | cases this

namespace Attempt

/-- Where an action stands matters only to what is attached to an error. -/
theorem told_errorOf {a b : Attempt} (h : b.type = a.type) (limit : Number) (f : Fault) :
    (b.errorOf limit f).told = (a.errorOf limit f).told := by
  unfold errorOf
  rw [h]
  split
  · rfl
  · split
    · split
      · rfl
      · split <;> rfl
    · rfl

/-- Whether an action can be read does not depend on where it stands. -/
theorem told_action_prepare (c : ActionContext) (started : Double) (i j : Nat) (stored : Value) :
    (prepare c started i stored).action.mapError RuleError.told =
      (prepare c started j stored).action.mapError RuleError.told := by
  unfold prepare Action.ofValue
  dsimp only
  split
  · split <;> rfl
  · rfl

end Attempt

theorem runAction_displaced (limit : Number) (c : ActionContext) (n index : Nat) (stored : Value)
    (o : Outlets) :
    (runAction limit c index stored o).1.Displaced n (runAction limit c (index + n) stored o).1 ∧
      (runAction limit c (index + n) stored o).2 = (runAction limit c index stored o).2 := by
  have htold := Attempt.told_action_prepare c o.network.clock index (index + n) stored
  unfold runAction
  dsimp only
  cases hi : (Attempt.prepare c o.network.clock index stored).action with
  | error e =>
    cases hj : (Attempt.prepare c o.network.clock (index + n) stored).action with
    | error e' =>
      rw [hi, hj] at htold
      refine ⟨⟨rfl, rfl, rfl, ?_, rfl⟩, rfl⟩
      exact congrArg Except.error (Except.error.inj htold).symm
    | ok action =>
      rw [hi, hj] at htold
      cases htold
  | ok action =>
    cases hj : (Attempt.prepare c o.network.clock (index + n) stored).action with
    | error e' =>
      rw [hi, hj] at htold
      cases htold
    | ok action' =>
      rw [hi, hj] at htold
      obtain rfl := Except.ok.inj htold
      dsimp only
      generalize Attempt.perform c action o = performed
      obtain ⟨outcome, o'⟩ := performed
      refine ⟨⟨rfl, rfl, rfl, ?_, rfl⟩, rfl⟩
      cases outcome with
      | ok v => rfl
      | error f =>
        have htype : (Attempt.prepare c o.network.clock (index + n) stored).type =
          (Attempt.prepare c o.network.clock index stored).type := rfl
        exact congrArg Except.error (Attempt.told_errorOf htype limit f)

/-- **A row at a later place** does the same. -/
theorem dispatchFrom_displaced (limit : Number) (c : ActionContext) (n index : Nat)
    (actions : List Value) (o : Outlets) :
    List.Forall₂ (ActionResult.Displaced n) (dispatchFrom limit c index actions o).1
        (dispatchFrom limit c (index + n) actions o).1 ∧
      (dispatchFrom limit c (index + n) actions o).2 = (dispatchFrom limit c index actions o).2 := by
  induction actions generalizing index o with
  | nil => exact ⟨.nil, rfl⟩
  | cons stored rest ih =>
    obtain ⟨hr, ho⟩ := runAction_displaced limit c n index stored o
    cases hok : (runAction limit c index stored o).1.isSuccess with
    | false =>
      rw [dispatchFrom_cons_of_failed hok, dispatchFrom_cons_of_failed (hr.isSuccess.trans hok)]
      exact ⟨.cons hr .nil, ho⟩
    | true =>
      rw [dispatchFrom_cons_of_success hok, dispatchFrom_cons_of_success (hr.isSuccess.trans hok), ho,
        Nat.add_right_comm]
      obtain ⟨hrest, ho'⟩ := ih (index + 1) (runAction limit c index stored o).2
      exact ⟨.cons hr hrest, ho'⟩

/-! ## Stored actions -/

theorem dispatch_list (limit : Number) (c : ActionContext) (actions : List Value) (o : Outlets) :
    dispatch limit c (.list actions) o =
      (.ok (dispatchFrom limit c 0 actions o).1, (dispatchFrom limit c 0 actions o).2) := by
  cases actions <;> rfl

/-- **What stored actions do.** They always come to results, which are numbered from zero, and of
which only the last one can be a failure; none of them is exactly where each action has a result that
is a success. Where there is a failure, more actions behind them change nothing at all. Where there is
none, the others do behind them what they do by themselves, at places that are later by as many. -/
theorem dispatch_append (limit : Number) (c : ActionContext) (xs ys : List Value) (o : Outlets) :
    ∃ results o', dispatch limit c (.list xs) o = (.ok results, o') ∧
      results.map (·.index) = List.range results.length ∧
      (∀ r ∈ results.dropLast, r.isSuccess = true) ∧
      (failure? results = none ↔
        results.length = xs.length ∧ ∀ r ∈ results, r.isSuccess = true) ∧
      (failure? results ≠ none → dispatch limit c (.list (xs ++ ys)) o = (.ok results, o')) ∧
      (failure? results = none → ∃ later displaced o'',
        dispatch limit c (.list ys) o' = (.ok later, o'') ∧
        dispatch limit c (.list (xs ++ ys)) o = (.ok (results ++ displaced), o'') ∧
        List.Forall₂ (ActionResult.Displaced xs.length) later displaced) := by
  have hfirst := dispatched_dispatchFrom limit c 0 xs o
  refine ⟨_, _, dispatch_list limit c xs o, ?_, hfirst.isSuccess_of_mem_dropLast,
    hfirst.failure?_eq_none_iff, fun hfailed => ?_, fun hnone => ?_⟩
  · rw [hfirst.indices, List.range_eq_range']
  · rw [dispatch_list, dispatchFrom_append]
    simp only [hfailed, if_false]
  · obtain ⟨hdisplaced, ho⟩ := dispatchFrom_displaced limit c xs.length 0 ys
      (dispatchFrom limit c 0 xs o).2
    refine ⟨_, _, _, dispatch_list limit c ys _, ?_, hdisplaced⟩
    rw [dispatch_list, dispatchFrom_append]
    simp only [hnone, if_true, ho]

end ChangeRules
