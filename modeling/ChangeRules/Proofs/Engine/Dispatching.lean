import ChangeRules.Engine.Firing

/-!
# Dispatching turn by turn

The actions of a rule can be dispatched in one go, or turn by turn as the actions of a firing. A
firing that is left alone comes to the same: the same results, the same calls of sinks, the same
breakers and the same clock.

* `Firing.turns`: so many turns of a firing.
* **`Firing.turns_next`**: left alone, the actions of a firing come to what dispatching them comes to.
* **`Firing.turns_begin`**: so a firing that begins comes to what dispatching the stored actions of its
  rule comes to.
-/

namespace ChangeRules

/-! ## One action -/

section

variable {limit : Number} {c : ActionContext} {index : Nat} {stored : Value} {o : Outlets}

theorem runAction_of_unread {err : RuleError}
    (h : (Attempt.prepare c o.network.clock index stored).action = .error err) :
    runAction limit c index stored o =
      ((Attempt.prepare c o.network.clock index stored).refuse err o.network.clock, o) := by
  unfold runAction
  dsimp only
  rw [h]

theorem runAction_of_read {action : Action}
    (h : (Attempt.prepare c o.network.clock index stored).action = .ok action) :
    runAction limit c index stored o =
      let a := Attempt.prepare c o.network.clock index stored
      let performed := Attempt.perform c action o
      (a.conclude (performed.1.mapError (a.errorOf limit)) performed.2.network.clock,
        performed.2) := by
  unfold runAction
  dsimp only
  rw [h]

end

/-- The world behind actions that came to results and left the outlets so. -/
def World.behind (results : List ActionResult) (outlets : Outlets) (w : World) : World :=
  { w with
    outlets
    metrics := results.foldl (fun m r => m.countAction r.type r.isSuccess) w.metrics }

/-! ## The actions of a firing -/

namespace Firing

variable {e : Engine} {f : Firing}

/-- So many turns of a firing. -/
def turns (e : Engine) : Nat → Firing → World → Firing × World
  | 0, f, w => (f, w)
  | k + 1, f, w => turns e k (f.turn e w).1 (f.turn e w).2

/-- How a firing goes on does not depend on the point where it is. -/
theorem next_moved (f : Firing) (p : FiringProgress) (c : Course) (w : World) :
    (f.moved p).next c w = f.next c w := by
  unfold next
  split <;> rfl

theorem proceed_moved (limit : Number) (f : Firing) (p : FiringProgress) (c : Course) (a : Attempt)
    (outcome : Except Fault Value) (w : World) :
    (f.moved p).proceed limit c a outcome w = f.proceed limit c a outcome w := by
  unfold proceed
  simp only [next_moved]
  rfl

/-- Two turns perform an action and go on behind it. -/
theorem turns_acting (k : Nat) (f : Firing) (c : Course) (a : Attempt) (action : Action)
    (w : World) : turns e (k + 2) (f.moved (.acting c a action)) w =
      let performed := Attempt.perform f.context action w.outlets
      let ended := f.proceed e.actionLimit c a performed.1 { w with outlets := performed.2 }
      turns e k ended.1 ended.2 := by
  have hacting : (f.moved (.acting c a action)).turn e w =
      (f.moved (.acted c a (Attempt.perform f.context action w.outlets).1),
        { w with outlets := (Attempt.perform f.context action w.outlets).2 }) := rfl
  have hacted : ∀ outcome (w : World), (f.moved (.acted c a outcome)).turn e w =
      f.proceed e.actionLimit c a outcome w :=
    fun outcome w => proceed_moved e.actionLimit f (.acted c a outcome) c a outcome w
  simp only [turns, hacting, hacted]

/-- **Left alone, the actions of a firing come to what dispatching them comes to.** -/
theorem turns_next (e : Engine) (f : Firing) (c : Course) (w : World) :
    ∃ k, turns e k (f.next c w).1 (f.next c w).2 =
      let dispatched := dispatchFrom e.actionLimit f.context c.results.length c.rest w.outlets
      f.endActions { c with results := c.results ++ dispatched.1 }
        (w.behind dispatched.1 dispatched.2) := by
  obtain ⟨started, results, rest⟩ := c
  induction rest generalizing results w with
  | nil => exact ⟨0, by simp [turns, next, dispatchFrom, World.behind, endActions]⟩
  | cons stored later ih =>
    cases haction : (Attempt.prepare f.context w.clock results.length stored).action with
    | error err =>
      -- An action that cannot be read ends the actions at once.
      have hrun : runAction e.actionLimit f.context results.length stored w.outlets = _ :=
        runAction_of_unread haction
      refine ⟨0, ?_⟩
      simp only [turns, next, haction]
      rw [dispatchFrom_cons_of_failed (by rw [hrun]; rfl), hrun]
      rfl
    | ok action =>
      have hrun : runAction e.actionLimit f.context results.length stored w.outlets = _ :=
        runAction_of_read haction
      have hnext : f.next ⟨started, results, stored :: later⟩ w =
          (f.moved (.acting ⟨started, results, later⟩
            (Attempt.prepare f.context w.clock results.length stored) action), w) := by
        simp only [next, haction]
      generalize hr : (runAction e.actionLimit f.context results.length stored w.outlets).1 = r
      generalize ho : (runAction e.actionLimit f.context results.length stored w.outlets).2 = o
      -- Two turns later the result is there.
      have hturns : ∀ k, turns e (k + 2) (f.next ⟨started, results, stored :: later⟩ w).1
          (f.next ⟨started, results, stored :: later⟩ w).2 =
          let ended := if r.isSuccess then f.next ⟨started, results ++ [r], later⟩ (w.behind [r] o)
            else f.endActions ⟨started, results ++ [r], later⟩ (w.behind [r] o)
          turns e k ended.1 ended.2 := by
        intro k
        rw [hnext, turns_acting, ← hr, ← ho, hrun]
        rfl
      cases hok : r.isSuccess with
      | false =>
        refine ⟨2, ?_⟩
        rw [hturns, hok, dispatchFrom_cons_of_failed (hr ▸ hok), hr, ho]
        rfl
      | true =>
        obtain ⟨k, hk⟩ := ih (w.behind [r] o) (results ++ [r])
        refine ⟨k + 2, ?_⟩
        rw [hturns, hok, dispatchFrom_cons_of_success (hr ▸ hok), hr, ho]
        refine hk.trans ?_
        simp only [List.length_append, List.length_singleton, List.append_assoc,
          List.singleton_append]
        rfl

/-- **Left alone, a firing comes to what dispatching the stored actions of its rule comes to.** -/
theorem turns_begin {actions : List Value} (hjudged : f.found.error = none)
    (hworking : e.broken = none) (hactions : storedActions f.rule.actions = .ok actions)
    (w : World) : ∃ k results o,
      dispatch e.actionLimit f.context f.rule.actions w.outlets = (.ok results, o) ∧
      turns e k (f.begin e w).1 (f.begin e w).2 =
        f.endActions ⟨w.clock, results, actions⟩ (w.behind results o) := by
  have hbegin : f.begin e w = f.next ⟨w.clock, [], actions⟩ w := by
    unfold begin
    rw [hjudged, actions_of_stored hactions, hworking]
  obtain ⟨k, hk⟩ := turns_next e f ⟨w.clock, [], actions⟩ w
  refine ⟨k, _, _, ?_, by rw [hbegin]; exact hk⟩
  unfold dispatch
  rw [hactions]
  rfl

end Firing

end ChangeRules
