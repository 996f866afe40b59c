import ChangeRules.Engine.Firing

/-!
# Processing events

An event is checked, the tenant's rules are listed and matched with it, and those that match fire,
side by side or one after the other. A store that fails makes the event fail, but only when all its
firings are over.

* `EventRun.turn`: one turn of an event, in which its firings take theirs.
* `Engine.processAll`: events from beginning to end, all begun together.
* `Engine.process`: a single event.
-/

namespace ChangeRules

/-- How far an event is. -/
inductive EventProgress where
  | arrived
  /-- The rules are about to be listed. -/
  | listing (o : Occasion)
  /-- The rules were listed, or not. -/
  | listed (o : Occasion) (outcome : Except Fault (List Rule))
  /-- Rules fire; so many were looked at. -/
  | firing (considered : Nat) (firings : List Firing)
  | ended (outcome : Except Fault EventReport)

/-- An event under way. -/
structure EventRun where
  event : Event
  progress : EventProgress := .arrived

/-- Everybody in a row takes a turn. -/
def takeTurns {α σ : Type} (turn : α → σ → α × σ) : List α → σ → List α × σ
  | [], s => ([], s)
  | a :: as, s =>
    let (a, s) := turn a s
    let (as, s) := takeTurns turn as s
    (a :: as, s)

namespace EventRun

/-- The same event at another point. -/
def moved (r : EventRun) (p : EventProgress) : EventRun := { r with progress := p }

/-- What an event came to, once it is over. -/
def outcome? (r : EventRun) : Option (Except Fault EventReport) :=
  match r.progress with
  | .ended outcome => some outcome
  | _ => none

/-! ## Steps of a turn -/

/-- An event whose operation is known is counted, whatever its rows. -/
def arrive (r : EventRun) (w : World) : EventRun × World :=
  match EventOperation.ofValue r.event.operation with
  | .error f => (r.moved (.ended (.error f)), w)
  | .ok operation =>
    let w := { w with metrics := w.metrics.countEvent operation.name }
    match r.event.recordId with
    | .error f => (r.moved (.ended (.error f)), w)
    | .ok recordId => (r.moved (.listing ⟨r.event, operation, recordId⟩), w)

/-- The firings of the rules that match. -/
def firings (o : Occasion) (rules : List Rule) : List Firing :=
  (matchRules o.event rules).map fun found => { found, occasion := o }

/-- A fault that ends an event at once, without the firings that are still to begin. -/
def isFatal : Except Fault FiringReport → Bool
  | .error (.error e) => e.kind != .store
  | .error _ => true
  | .ok _ => false

/-- The first firing that is not over takes a turn. -/
def firstTurn (e : Engine) : List Firing → World → List Firing × World
  | [], w => ([], w)
  | f :: fs, w =>
    if f.outcome?.isSome then
      let (fs, w) := firstTurn e fs w
      (f :: fs, w)
    else
      let (f, w) := f.turn e w
      (f :: fs, w)

/-- What several firings came to together: all reports, or the first fault. -/
def gather : List (Except Fault FiringReport) → Except Fault (List FiringReport)
  | [] => .ok []
  | .ok report :: outcomes => (gather outcomes).map (report :: ·)
  | .error f :: _ => .error f

/-- The outcome of an event whose firings are over. One that fires its rules one after the other is
over with the first fault that is not a store's. -/
def firingsOutcome? (e : Engine) (r : EventRun) (considered : Nat) (firings : List Firing) :
    Option (Except Fault EventReport) :=
  let outcomes := firings.filterMap Firing.outcome?
  match (if e.parallel then none else outcomes.find? isFatal) with
  | some (.error f) => some (.error f)
  | _ =>
    if outcomes.length = firings.length then
      some ((gather outcomes).map fun reports => ⟨r.event.id, r.event.tenant, considered, reports⟩)
    else none

/-- The rules fire, or did. -/
def settle (e : Engine) (r : EventRun) (considered : Nat) (firings : List Firing) : EventRun :=
  match r.firingsOutcome? e considered firings with
  | some outcome => r.moved (.ended outcome)
  | none => r.moved (.firing considered firings)

/-! ## Turns -/

/-- One turn of an event. -/
def turn (e : Engine) (r : EventRun) (w : World) : EventRun × World :=
  match r.progress with
  | .arrived => r.arrive w
  | .listing o =>
    let (outcome, w) := e.guarded .rules
      (World.listActive o.event.tenant o.event.table) w
    (r.moved (.listed o outcome), w)
  | .listed _ (.error f) => (r.moved (.ended (.error f)), w)
  | .listed o (.ok rules) => (r.settle e rules.length (firings o rules), w)
  | .firing considered firings =>
    let (firings, w) := if e.parallel then takeTurns (Firing.turn e) firings w
      else firstTurn e firings w
    (r.settle e considered firings, w)
  | .ended _ => (r, w)

theorem turn_of_outcome {e : Engine} {r : EventRun} {w : World} {outcome : Except Fault EventReport}
    (h : r.outcome? = some outcome) : r.turn e w = (r, w) := by
  unfold outcome? at h
  unfold turn
  split at h <;> simp_all

/-- How many turns the firings of an event still take at most. -/
def weight (r : EventRun) : Nat :=
  match r.progress with
  | .firing _ firings => (firings.map Firing.weight).foldl Nat.add 0
  | _ => 0

/-- What an event came to; one that is not over never ends. -/
def outcome (r : EventRun) : Except Fault EventReport := r.outcome?.getD (.error .stuck)

end EventRun

namespace Engine

/-- A number of rounds in which every event takes a turn. -/
def rounds (e : Engine) : Nat → List EventRun → World → List EventRun × World
  | 0, runs, w => (runs, w)
  | n + 1, runs, w =>
    let (runs, w) := takeTurns (EventRun.turn e) runs w
    e.rounds n runs w

/-- An event fires its rules from its fourth turn on. -/
def roundsToFire : Nat := 3

/-- Events from beginning to end. In every round at least one firing gets on. -/
def processAll (e : Engine) (events : List Event) (w : World) :
    List (Except Fault EventReport) × World :=
  let (runs, w) := e.rounds roundsToFire (events.map fun event => { event }) w
  let (runs, w) := e.rounds ((runs.map EventRun.weight).foldl Nat.add 0) runs w
  (runs.map EventRun.outcome, w)

/-- A single event from beginning to end. -/
def process (e : Engine) (event : Event) (w : World) : Except Fault EventReport × World :=
  let (outcomes, w) := e.processAll [event] w
  (outcomes.headD (.error .stuck), w)

end Engine

end ChangeRules
