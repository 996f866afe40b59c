import ChangeRules.Fault

/-!
# Circuit breakers

A breaker stands before a service. After a number of failures in a row it blocks all calls; when
some time has passed, it lets calls through again, and the first outcome closes or opens it.

* `Breaker.admitted`: whether a call is let through.
* `Breaker.settle`: what the outcome of a call means for the breaker.
* `Breaker.call`: a call through a breaker.
* `BreakerRegistry`: breakers by name.
-/

namespace ChangeRules

/-- Whether calls are let through. -/
inductive BreakerState where
  | closed
  | opened
  /-- Calls are let through on trial. -/
  | halfOpen
  deriving DecidableEq, Inhabited

def BreakerState.name : BreakerState → String
  | .closed => "closed"
  | .opened => "open"
  | .halfOpen => "half_open"

/-- A breaker. -/
structure Breaker where
  name : String := "default"
  /-- So many failures in a row open the breaker. -/
  threshold : Int := 5
  /-- So many seconds behind the last failure calls are let through again. -/
  recovery : Number := .double (.ofInt 60)
  state : BreakerState := .closed
  /-- Failures since the last success. -/
  failures : Nat := 0
  /-- Successes since the last failure. -/
  successes : Nat := 0
  lastFailure : Double := .zero
  deriving Inhabited

namespace Breaker

variable {σ α : Type}

def isOpen (b : Breaker) : Bool := b.state == .opened

/-- Whether enough time has passed since the last failure. -/
def hasRecovered (now : Double) (b : Breaker) : Bool :=
  match (Number.double (now.sub b.lastFailure)).compare? b.recovery with
  | some .gt => true
  | some .eq => true
  | _ => false

/-- Whether a call is let through now. -/
def admits (now : Double) (b : Breaker) : Bool := !b.isOpen || b.hasRecovered now

/-- The breaker behind a call that asked to be let through. -/
def admitted (now : Double) (b : Breaker) : Breaker :=
  if b.isOpen && b.hasRecovered now then { b with state := .halfOpen } else b

/-- The service answered. -/
def noteSuccess (b : Breaker) : Breaker :=
  { b with state := .closed, failures := 0, successes := b.successes + 1 }

/-- The service failed. -/
def noteFailure (now : Double) (b : Breaker) : Breaker :=
  let opens := b.state == .halfOpen || b.threshold ≤ (b.failures + 1 : Nat)
  { b with
    state := if opens then .opened else b.state
    failures := b.failures + 1
    successes := 0
    lastFailure := now }

/-- The breaker behind a call with an outcome. Faults in `ignored` come from a service that answered,
and a call that never ended tells nothing. -/
def settle (ignored : Fault → Bool) (now : Double) (outcome : Except Fault α) (b : Breaker) :
    Breaker :=
  match outcome with
  | .ok _ => b.noteSuccess
  | .error .stuck => b
  | .error f => if ignored f then b.noteSuccess else b.noteFailure now

/-- A call through a breaker. `clock` tells the time before and behind it. -/
def call (ignored : Fault → Bool) (clock : σ → Double) (job : σ → Except Fault α × σ) (b : Breaker)
    (s : σ) : Except Fault α × Breaker × σ :=
  if b.admits (clock s) then
    let (outcome, s') := job s
    (outcome, (b.admitted (clock s)).settle ignored (clock s') outcome, s')
  else (.error (.blocked b.name), b, s)

theorem admitted_eq_self_of_not_isOpen {now : Double} {b : Breaker} (h : b.isOpen = false) :
    b.admitted now = b := by
  simp [admitted, h]

theorem call_of_not_admits {ignored : Fault → Bool} {clock : σ → Double}
    {job : σ → Except Fault α × σ} {b : Breaker} {s : σ} (h : b.admits (clock s) = false) :
    call ignored clock job b s = (.error (.blocked b.name), b, s) := by
  simp [call, h]

end Breaker

/-- Breakers by name, in the order in which they were made. -/
structure BreakerRegistry where
  breakers : List Breaker := []

namespace BreakerRegistry

/-- The breaker of a name, made from `fresh` if there is none. -/
def get (r : BreakerRegistry) (fresh : Breaker) : Breaker × BreakerRegistry :=
  match r.breakers.find? (·.name == fresh.name) with
  | some b => (b, r)
  | none => (fresh, ⟨r.breakers ++ [fresh]⟩)

/-- A breaker is made once. -/
theorem get_get (r : BreakerRegistry) (fresh : Breaker) :
    (r.get fresh).2.get fresh = r.get fresh := by
  unfold get
  cases h : r.breakers.find? (·.name == fresh.name) with
  | some b => simp [h]
  | none => simp [List.find?_append, h]

end BreakerRegistry

end ChangeRules
