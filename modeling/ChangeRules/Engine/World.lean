import ChangeRules.Engine.Lock
import ChangeRules.Identifier
import ChangeRules.Metrics
import ChangeRules.Sink.Outlets
import ChangeRules.Store.Fault
import ChangeRules.Store.Logs
import ChangeRules.Store.Rules

/-!
# The world of the engine

What the engine works on: the outlets, the two stores, the locks of rules, the metrics, the present
time and fresh identifiers. Any call of a store may fail, and one that never ends fails by its time
limit; no call of a store takes time otherwise.

* `World.call`: a call of a store, unless it fails or the store was never started.
* `Engine.guarded`: the engine's view of such a call, within its time limit.
* **`World.call_of_working`**: where no failure is due, a call works.
-/

namespace ChangeRules

/-! ## Stores -/

/-- The calls of the stores. -/
inductive StoreCall where
  | listActive
  | touch
  | save
  | get
  | list
  | setActive
  | append
  | page
  | stats
  deriving DecidableEq

/-- The store that is called. -/
def StoreCall.store : StoreCall → Store
  | .append | .page | .stats => .logs
  | _ => .rules

/-- Where the stores keep what they hold. -/
inductive Backend where
  | memory
  /-- A database that was never reached. -/
  | idleDatabase
  deriving DecidableEq

/-- What becomes of the next calls of each kind: each one works or fails. Those behind them work. -/
abbrev Outages := StoreCall → List (Option Fault)

namespace Outages

/-- Everything works. -/
def none : Outages := fun _ => []

/-- The calls of a kind fail a number of times, before what was due for them so far. -/
def add (call : StoreCall) (times : Nat) (f : Fault) (o : Outages) : Outages :=
  fun c => if c = call then List.replicate times (some f) ++ o c else o c

/-- One call of a kind was made. -/
def advance (call : StoreCall) (o : Outages) : Outages :=
  fun c => if c = call then (o c).tail else o c

theorem advance_none (call : StoreCall) : none.advance call = none := by
  funext c
  simp [advance, none]

end Outages

/-! ## The world -/

/-- What the engine works on. -/
structure World where
  outlets : Outlets
  now : DateTime
  backend : Backend := .memory
  metrics : Metrics := { service := "business_rules" }
  rules : Rules := []
  logs : Logs := []
  outages : Outages := Outages.none
  locks : RuleLocks := {}
  /-- So many identifiers were given out. -/
  ids : Nat := 0

namespace World

variable {α : Type}

/-- The reading of the clock. -/
def clock (w : World) : Double := w.outlets.network.clock

/-- A fresh identifier. -/
def freshId (w : World) : String × World := (Identifier.text w.ids, { w with ids := w.ids + 1 })

/-- A call of a store, which works as `job` says unless it fails. -/
def call (c : StoreCall) (job : World → Except Fault α × World) (w : World) :
    Except Fault α × World :=
  let later := { w with outages := w.outages.advance c }
  match (w.outages c).head?, w.backend with
  | some (some f), _ => (.error f, later)
  | _, .memory => job later
  | _, .idleDatabase => (.error (c.store.fault Store.notStarted), later)

theorem call_of_working {c : StoreCall} {job : World → Except Fault α × World} {w : World}
    (h : w.outages = Outages.none) (hb : w.backend = .memory) : w.call c job = job w := by
  have later : { w with outages := w.outages.advance c } = w := by
    rw [h, Outages.advance_none, ← h]
  unfold call
  rw [later, h, hb]
  rfl

/-! ## Calls -/

/-- Read something that needs an id which can be looked up. -/
def lookUp (id : Value) (c : StoreCall) (read : World → α) : World → Except Fault α × World :=
  call c fun w => ((Rules.checkId id).map fun _ => read w, w)

def listActive (tenant table : Value) : World → Except Fault (List Rule) × World :=
  call .listActive fun w => (.ok (w.rules.active tenant table), w)

def listRules (tenant : Value) : World → Except Fault (List Rule) × World :=
  call .list fun w => (.ok (w.rules.ofTenant tenant), w)

def getRule (tenant id : Value) : World → Except Fault (Option Rule) × World :=
  lookUp id .get fun w => w.rules.get? tenant id

/-- Change the rules, given an id that can be looked up. -/
def changeRules (id : Value) (c : StoreCall) (change : Rules → Rules) (result : Rules → α) :
    World → Except Fault α × World :=
  call c fun w =>
    match Rules.checkId id with
    | .ok () =>
      let rules := change w.rules
      (.ok (result rules), { w with rules })
    | .error f => (.error f, w)

def saveRule (r : Rule) : World → Except Fault Rule × World :=
  changeRules r.id .save (Rules.save r) fun _ => r

def setActive (tenant id active : Value) : World → Except Fault (Option Rule) × World :=
  changeRules id .setActive (Rules.setActive tenant id active) (Rules.get? tenant id)

def touchRule (tenant id : Value) (time : DateTime) : World → Except Fault Unit × World :=
  changeRules id .touch (Rules.touch tenant id time) fun _ => ()

/-- Append a log; the result is its id. -/
def appendLog (l : ExecutionLog) : World → Except Fault Value × World :=
  call .append fun w => (.ok l.id, { w with logs := w.logs.append l })

def pageLogs (tenant : Value) (f : LogFilter) : World → Except Fault Logs × World :=
  call .page fun w => (w.logs.page tenant f, w)

def logStats (tenant ruleId : Value) : World → Except Fault ExecutionStats × World :=
  call .stats fun w => (w.logs.stats tenant ruleId, w)

end World

/-! ## The engine's view -/

/-- How the engine works. -/
structure Engine where
  /-- The rules that match an event fire side by side, not one after the other. -/
  parallel : Bool := true
  /-- So many seconds an action may take. -/
  actionLimit : Number := .double (.ofInt 10)
  /-- So many seconds a call of a store may take. -/
  storeLimit : Number := .double (.ofInt 5)
  /-- What keeps actions from being run at all. -/
  broken : Option Fault := none

namespace Engine

variable {α : Type}

/-- The fault that the engine reports for one of a store. -/
def storeFault (e : Engine) (s : Store) (f : Fault) : Fault :=
  match f with
  | .error err => if err.kind = .store then f else s.fault f.describe
  | f => if f.isTimeout then s.timedOut (e.storeLimit.toDouble.toOption.getD .zero)
    else s.fault f.describe

/-- A call of a store within the time limit; whatever goes wrong is the store's fault. -/
def guarded (e : Engine) (s : Store) (call : World → Except Fault α × World) :
    World → Except Fault α × World := fun w =>
  let (outcome, w) := call w
  ((Fault.withinLimit outcome).mapError (e.storeFault s), w)

end Engine

end ChangeRules
