import ChangeRules.Proofs.Engine.Dispatching
import ChangeRules.Proofs.Sink.Calm

/-!
# Alike but for times

The result of an action tells how long it took, and the log of a firing tells this of all its actions,
of itself, and when it was written. Otherwise an action comes to the same in all calm outlets, and so
do a row of actions, the ending of a firing and its log.

* `ActionResult.timeless`, `Ending.timeless`, `ExecutionLog.timeless`: without identifiers and times.
* **`Outlets.Calm.perform`**: what an action comes to in calm outlets.
* **`Outlets.Calm.timeless_dispatchFrom`**: a row of actions comes to the same in all calm outlets but
  for times.
* **`Firing.timeless_log`**: endings that differ in times have logs that differ in times.
-/

namespace ChangeRules

/-! ## Results -/

namespace ActionResult

/-- The same result without the time that the action took. -/
def timeless (r : ActionResult) : ActionResult := { r with milliseconds := .zero }

@[simp] theorem isSuccess_timeless (r : ActionResult) : r.timeless.isSuccess = r.isSuccess := rfl

@[simp] theorem error?_timeless (r : ActionResult) : r.timeless.error? = r.error? := rfl

@[simp] theorem index_timeless (r : ActionResult) : r.timeless.index = r.index := rfl

@[simp] theorem type_timeless (r : ActionResult) : r.timeless.type = r.type := rfl

@[simp] theorem parameters_timeless (r : ActionResult) : r.timeless.parameters = r.parameters := rfl

@[simp] theorem outcome_timeless (r : ActionResult) : r.timeless.outcome = r.outcome := rfl

end ActionResult

/-! ## Actions in calm outlets -/

/-- What a plan comes to if its request gets the answer that is due. -/
def Plan.due (s : OutletSettings) (answer : Request → Response) : Plan → Except Fault Value
  | .settled outcome => outcome
  | .errand x => x.read (x.outlet.due s answer x.request)

namespace Outlets.Calm

variable {s : OutletSettings} {answer : Request → Response} {o o' : Outlets}

/-- **What an action comes to in calm outlets.** -/
theorem perform (h : o.Calm s answer) (c : ActionContext) (action : Action) :
    (Attempt.perform c action o).2.Calm s answer ∧
      (Attempt.perform c action o).1 = Fault.withinLimit ((action.plan c o).due s answer) := by
  unfold Attempt.perform
  dsimp only
  rw [Action.perform_eq_plan]
  cases action.plan c o with
  | settled outcome => exact ⟨h, rfl⟩
  | errand x =>
    obtain ⟨hcalm, hanswer⟩ := h.request x.request x.outlet
    exact ⟨hcalm, by simp only [Plan.perform, Plan.due, hanswer]⟩

theorem perform_eq (h : o.Calm s answer) (h' : o'.Calm s answer) (c : ActionContext)
    (action : Action) : (Attempt.perform c action o').1 = (Attempt.perform c action o).1 := by
  rw [(h'.perform c action).2, (h.perform c action).2,
    Action.plan_congr (h'.settings.trans h.settings.symm)]

variable {limit : Number} {c : ActionContext} {index : Nat} {stored : Value}

/-- **An action comes to the same in all calm outlets but for its time.** -/
theorem timeless_runAction (h : o.Calm s answer) (h' : o'.Calm s answer) :
    (runAction limit c index stored o').1.timeless = (runAction limit c index stored o).1.timeless := by
  cases haction : (Attempt.prepare c o.network.clock index stored).action with
  | error err =>
    have haction' : (Attempt.prepare c o'.network.clock index stored).action = .error err := haction
    rw [runAction_of_unread haction, runAction_of_unread haction']
    rfl
  | ok action =>
    have haction' : (Attempt.prepare c o'.network.clock index stored).action = .ok action := haction
    rw [runAction_of_read haction, runAction_of_read haction']
    dsimp only
    rw [h.perform_eq h']
    rfl

theorem calm_runAction (h : o.Calm s answer) :
    (runAction limit c index stored o).2.Calm s answer := by
  unfold runAction
  dsimp only
  split
  · exact h
  · exact (h.perform c _).1

theorem isSuccess_runAction (h : o.Calm s answer) (h' : o'.Calm s answer) :
    (runAction limit c index stored o').1.isSuccess =
      (runAction limit c index stored o).1.isSuccess := by
  rw [← ActionResult.isSuccess_timeless, h.timeless_runAction h', ActionResult.isSuccess_timeless]

/-- **So does a row of actions.** -/
theorem timeless_dispatchFrom (h : o.Calm s answer) (h' : o'.Calm s answer) {rest : List Value} :
    (dispatchFrom limit c index rest o').1.map ActionResult.timeless =
      (dispatchFrom limit c index rest o).1.map ActionResult.timeless := by
  induction rest generalizing index o o' with
  | nil => rfl
  | cons stored rest ih =>
    have hsame : (runAction limit c index stored o').1.isSuccess =
        (runAction limit c index stored o).1.isSuccess := h.isSuccess_runAction h'
    cases hok : (runAction limit c index stored o).1.isSuccess with
    | false =>
      rw [dispatchFrom_cons_of_failed hok, dispatchFrom_cons_of_failed (hsame.trans hok)]
      simp only [List.map_cons, List.map_nil, h.timeless_runAction h']
    | true =>
      rw [dispatchFrom_cons_of_success hok, dispatchFrom_cons_of_success (hsame.trans hok)]
      rw [List.map_cons, List.map_cons, h.timeless_runAction h']
      exact congrArg _ (ih h.calm_runAction h'.calm_runAction)

end Outlets.Calm

/-! ## Endings -/

theorem failure?_timeless (results : List ActionResult) :
    failure? (results.map ActionResult.timeless) = (failure? results).map ActionResult.timeless := by
  unfold failure?
  rw [List.find?_map]
  rfl

namespace Ending

/-- The same ending without the times that its actions took. -/
def timeless : Ending → Ending
  | .ran results => .ran (results.map ActionResult.timeless)
  | ending => ending

theorem error?_timeless (ending : Ending) : ending.timeless.error? = ending.error? := by
  cases ending with
  | ran results =>
    simp only [timeless, error?, failure?_timeless, Option.map_map]
    rfl
  | _ => rfl

theorem isSuccess_timeless (ending : Ending) : ending.timeless.isSuccess = ending.isSuccess := by
  unfold isSuccess
  rw [error?_timeless]

theorem state_timeless (ending : Ending) : ending.timeless.state = ending.state := by
  unfold state
  rw [isSuccess_timeless]

theorem errorFields_timeless (ending : Ending) : ending.timeless.errorFields = ending.errorFields := by
  cases ending with
  | ran results =>
    simp only [timeless, errorFields, failure?_timeless]
    cases ChangeRules.failure? results <;> rfl
  | _ => rfl

theorem failedStage?_timeless (ending : Ending) :
    ending.timeless.failedStage? = ending.failedStage? := by
  have hsuccess := ending.isSuccess_timeless
  cases ending with
  | ran results =>
    simp only [failedStage?, timeless] at hsuccess ⊢
    rw [hsuccess]
  | _ => rfl

theorem failureIndex_timeless (ending : Ending) :
    (ending.timeless.failure?.map fun r => Value.int r.index) =
      ending.failure?.map fun r => Value.int r.index := by
  cases ending with
  | ran results =>
    change (ChangeRules.failure? (results.map ActionResult.timeless)).map _ =
      (ChangeRules.failure? results).map _
    rw [failure?_timeless, Option.map_map]
    rfl
  | _ => rfl

end Ending

/-! ## Logs -/

namespace Value

/-- An object without one of its fields. -/
def without (key : String) : Value → Value
  | .object fields => .object (fields.filter (·.1 != key))
  | v => v

/-- A list with each value changed. -/
def mapEach (change : Value → Value) : Value → Value
  | .list vs => .list (vs.map change)
  | v => v

/-- An object with one of its fields changed. -/
def mapField (key : String) (change : Value → Value) : Value → Value
  | .object fields => .object (fields.map fun f => if f.1 == key then (f.1, change f.2) else f)
  | v => v

end Value

/-- What a log tells of itself and of time is left out: its identifier, when it was written, how long
the firing took and how long each action took. -/
def ExecutionLog.timeless (l : ExecutionLog) : ExecutionLog :=
  { l with
    id := .null
    details := l.details.mapField "actions" (Value.mapEach (Value.without "duration_ms"))
    milliseconds := .null
    executedAt := default }

theorem without_toValue (r : ActionResult) :
    r.timeless.toValue.without "duration_ms" = r.toValue.without "duration_ms" := by
  simp [ActionResult.toValue, Value.without]

theorem Ending.timeless_details (eventId : Value) (ending : Ending) :
    (Value.object (ending.timeless.details eventId)).mapField "actions"
        (Value.mapEach (Value.without "duration_ms")) =
      (Value.object (ending.details eventId)).mapField "actions"
        (Value.mapEach (Value.without "duration_ms")) := by
  have hactions : (Value.list (ending.timeless.results.map ActionResult.toValue)).mapEach
      (Value.without "duration_ms") =
        (Value.list (ending.results.map ActionResult.toValue)).mapEach
          (Value.without "duration_ms") := by
    cases ending with
    | ran results =>
      simp only [timeless, Ending.results, Value.mapEach, List.map_map]
      exact congrArg Value.list (List.map_congr_left fun r _ => without_toValue r)
    | _ => rfl
  simp only [details, state_timeless, failedStage?_timeless, failureIndex_timeless,
    errorFields_timeless, error?_timeless, Value.mapField, List.map_append, List.map_cons]
  simp [hactions]

/-- **The logs of endings that differ in times differ in nothing else.** -/
theorem Firing.timeless_log (f : Firing) {ending ending' : Ending}
    (h : ending.timeless = ending'.timeless) (milliseconds milliseconds' : Double) (id id' : String)
    (now now' : DateTime) : (f.log ending milliseconds id now).timeless =
      (f.log ending' milliseconds' id' now').timeless := by
  have hdetails := ending.timeless_details f.occasion.event.id
  rw [h, Ending.timeless_details] at hdetails
  have hsuccess := ending.isSuccess_timeless
  rw [h, Ending.isSuccess_timeless] at hsuccess
  have herror := ending.error?_timeless
  rw [h, Ending.error?_timeless] at herror
  simp only [ExecutionLog.timeless, log, hdetails, hsuccess, herror]

end ChangeRules
