import ChangeRules.Engine.Report
import ChangeRules.Engine.World
import ChangeRules.Matching

/-!
# Firings

A rule that matches an event fires: it waits for its lock, runs its actions one after the other,
writes its log, and notes when it was executed. A firing takes turns; between two of them others may
take theirs. Whatever the actions do, there is a log.

* `Firing.turn`: one turn of a firing.
* `Firing.weight`: how many turns a firing still takes at most, once the lock is its own.
* **`Firing.turn_of_outcome`**: a firing that has an outcome stays as it is.
-/

namespace ChangeRules

/-- An event that is being processed, with what is known of it. -/
structure Occasion where
  event : Event
  operation : EventOperation
  /-- The id of the row. -/
  recordId : Option String

/-- The actions of a firing under way. -/
structure Course where
  /-- The clock when the first action was begun. -/
  started : Double
  results : List ActionResult
  /-- The actions that are not begun yet. -/
  rest : List Value

/-- How far a firing is. -/
inductive FiringProgress where
  | ready
  /-- The lock of the rule is awaited. -/
  | queued
  /-- An action is about to be performed. -/
  | acting (c : Course) (a : Attempt) (action : Action)
  /-- An action was performed. -/
  | acted (c : Course) (a : Attempt) (outcome : Except Fault Value)
  /-- The log is about to be appended. -/
  | logging (state : FiringState) (log : ExecutionLog)
  /-- The log was appended, or not. -/
  | logged (state : FiringState) (log : ExecutionLog) (outcome : Except Fault Value)
  /-- The execution is about to be noted at the rule. -/
  | touching (state : FiringState) (log : ExecutionLog)
  /-- The execution was noted, or not. -/
  | touched (state : FiringState) (log : ExecutionLog) (outcome : Except Fault Unit)
  | ended (outcome : Except Fault FiringReport)

/-- A rule that fires for an event. -/
structure Firing where
  found : RuleMatch
  occasion : Occasion
  ticket : Ticket := {}
  progress : FiringProgress := .ready

namespace Firing

def rule (f : Firing) : Rule := f.found.rule

def context (f : Firing) : ActionContext :=
  .ofFiring f.rule f.occasion.event f.occasion.recordId

/-- The same firing at another point. -/
def moved (f : Firing) (p : FiringProgress) : Firing := { f with progress := p }

/-- What a firing came to, once it is over. -/
def outcome? (f : Firing) : Option (Except Fault FiringReport) :=
  match f.progress with
  | .ended outcome => some outcome
  | _ => none

/-! ## Steps of a turn -/

/-- The firing is over and the lock is given back. -/
def finish (f : Firing) (outcome : Except Fault FiringReport) (w : World) : Firing × World :=
  (f.moved (.ended outcome), { w with locks := w.locks.leave f.rule.id f.ticket })

/-- The log of a firing with an ending that took some milliseconds. -/
def log (f : Firing) (e : Ending) (milliseconds : Double) (id : String) (now : DateTime) :
    ExecutionLog where
  id := .text id
  ruleId := f.rule.id
  tenant := f.occasion.event.tenant
  trigger := .text f.occasion.operation.trigger.name
  table := f.occasion.event.table
  recordId := Value.ofText? f.occasion.recordId
  before := f.occasion.event.oldRow
  after := f.occasion.event.newRow
  details := .object (e.details f.occasion.event.id)
  success := .bool e.isSuccess
  error := Value.ofText? e.error?
  milliseconds := .double (milliseconds.roundPlaces 3)
  executedAt := now

/-- The firing ended; its log is to be appended. -/
def conclude (f : Firing) (e : Ending) (milliseconds : Double) (w : World) : Firing × World :=
  let (id, w) := w.freshId
  (f.moved (.logging e.state (f.log e milliseconds id w.now)), w)

/-- The milliseconds since the clock read `started`. -/
def elapsed (started : Double) (w : World) : Double := (w.clock.sub started).mul (.ofInt 1000)

/-- The actions are over. -/
def endActions (f : Firing) (c : Course) (w : World) : Firing × World :=
  f.conclude (.ran c.results) (elapsed c.started w) w

/-- An action is over; the metrics count it. -/
def note (c : Course) (r : ActionResult) (w : World) : Course × World :=
  ({ c with results := c.results ++ [r] },
    { w with metrics := w.metrics.countAction r.type r.isSuccess })

/-- Begin the next action. One that cannot be read ends the actions at once. -/
def next (f : Firing) (c : Course) (w : World) : Firing × World :=
  match c.rest with
  | [] => f.endActions c w
  | stored :: later =>
    let c := { c with rest := later }
    let a := Attempt.prepare f.context w.clock c.results.length stored
    match a.action with
    | .ok action => (f.moved (.acting c a action), w)
    | .error e =>
      let (c, w) := note c (a.refuse e w.clock) w
      f.endActions c w

/-- Go on behind an action. -/
def proceed (limit : Number) (f : Firing) (c : Course) (a : Attempt)
    (outcome : Except Fault Value) (w : World) : Firing × World :=
  let r := a.conclude (outcome.mapError (a.errorOf limit)) w.clock
  let (c, w) := note c r w
  if r.isSuccess then f.next c w else f.endActions c w

/-- The stored actions of a rule; they are to be countable. -/
def actions (f : Firing) : Except Fault (List Value) :=
  (storedActions f.rule.actions).mapError fun _ => .misuse (.noLength f.rule.actions.typeName)

theorem actions_of_stored {f : Firing} {actions : List Value}
    (h : storedActions f.rule.actions = .ok actions) : f.actions = .ok actions := by
  unfold Firing.actions
  rw [h]
  rfl

/-- The lock is the firing's own: begin. -/
def begin (e : Engine) (f : Firing) (w : World) : Firing × World :=
  match f.found.error with
  | some err => f.conclude (.unjudged err) .zero w
  | none =>
    match f.actions with
    | .error fault => f.finish (.error fault) w
    | .ok actions =>
      match e.broken with
      | some fault => f.conclude (.broke fault) (elapsed w.clock w) w
      | none => f.next ⟨w.clock, [], actions⟩ w

/-- Begin if the lock is the firing's own, or wait for it. -/
def await (e : Engine) (f : Firing) (w : World) : Firing × World :=
  if w.locks.holds f.ticket then f.begin e w else (f.moved .queued, w)

/-- What is reported of a firing whose log is written. -/
def report (f : Firing) (state : FiringState) (log : ExecutionLog) : FiringReport :=
  ⟨f.rule.id, state, log.id, log.error⟩

/-- How long a firing took, as its log tells. -/
def loggedTime (log : ExecutionLog) : Double :=
  match log.milliseconds with
  | .double x => x
  | _ => .zero

/-! ## Turns -/

/-- One turn of a firing. -/
def turn (e : Engine) (f : Firing) (w : World) : Firing × World :=
  match f.progress with
  | .ready =>
    let (ticket, locks) := w.locks.enter f.rule.id
    { f with ticket }.await e { w with locks }
  | .queued => f.await e w
  | .acting c a action =>
    let (outcome, outlets) := Attempt.perform f.context action w.outlets
    (f.moved (.acted c a outcome), { w with outlets })
  | .acted c a outcome => f.proceed e.actionLimit c a outcome w
  | .logging state log =>
    let (outcome, w) := e.guarded .logs (World.appendLog log) w
    (f.moved (.logged state log outcome), w)
  | .logged state log (.ok _) => (f.moved (.touching state log), w)
  | .logged _ _ (.error fault) => f.finish (.error fault) w
  | .touching state log =>
    let (outcome, w) := e.guarded .rules
      (World.touchRule f.rule.tenant f.rule.id log.executedAt) w
    (f.moved (.touched state log outcome), w)
  | .touched state log (.ok _) =>
    let (f', w) := f.finish (.ok (f.report state log)) w
    (f', { w with metrics := w.metrics.countFiring state.name (loggedTime log) })
  | .touched _ _ (.error fault) => f.finish (.error fault) w
  | .ended _ => (f, w)

theorem turn_of_outcome {e : Engine} {f : Firing} {w : World} {outcome : Except Fault FiringReport}
    (h : f.outcome? = some outcome) : f.turn e w = (f, w) := by
  unfold outcome? at h
  unfold turn
  split at h <;> simp_all

/-- How many actions a firing has. -/
def actionCount (f : Firing) : Nat := (f.actions.toOption.getD []).length

/-- How many turns a firing still takes at most, once the lock is its own. -/
def weight (f : Firing) : Nat :=
  match f.progress with
  | .ready => 2 * f.actionCount + 6
  | .queued => 2 * f.actionCount + 5
  | .acting c _ _ => 2 * c.rest.length + 6
  | .acted c _ _ => 2 * c.rest.length + 5
  | .logging _ _ => 4
  | .logged _ _ _ => 3
  | .touching _ _ => 2
  | .touched _ _ _ => 1
  | .ended _ => 0

end Firing

end ChangeRules
