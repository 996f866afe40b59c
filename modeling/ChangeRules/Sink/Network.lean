import ChangeRules.Fault

/-!
# The network

Requests go out to sinks, which answer, fail or never answer, and time passes meanwhile. How the
sinks behave may depend on every request that came before. A limit of the connection to a sink is a
way for it to fail.

* `Network.send`: a request and what comes of it.
* `Network.sleep`: waiting.
-/

namespace ChangeRules

/-- A request. Null stands for no body and no headers. -/
structure Request where
  method : String
  address : String
  body : Value := .null
  headers : Value := .null

/-- An answer. -/
structure Response where
  status : Int
  body : String

/-- What a sink does with a request. -/
inductive Delivery where
  | answered (r : Response)
  | failed (f : Fault)
  | unanswered

/-- What a sink does with a request, and the seconds that pass before. -/
structure Reply where
  seconds : Double
  delivery : Delivery

/-- The sinks, what was sent to them, and the time. -/
structure Network where
  /-- The reply to a request behind others. -/
  sinks : List Request → Request → Reply
  sent : List Request := []
  /-- Seconds since the start. -/
  clock : Double := .zero
  /-- The delays that were waited for. -/
  slept : List Number := []

namespace Network

/-- Send a request. -/
def send (r : Request) (n : Network) : Except Fault Response × Network :=
  let reply := n.sinks n.sent r
  let n := { n with sent := n.sent ++ [r], clock := n.clock.add reply.seconds }
  match reply.delivery with
  | .answered response => (.ok response, n)
  | .failed f => (.error f, n)
  | .unanswered => (.error .stuck, n)

/-- Let time pass. -/
def advance (seconds : Double) (n : Network) : Network :=
  { n with clock := n.clock.add seconds }

/-- Wait. -/
def sleep (d : Number) (n : Network) : Network :=
  { n with slept := n.slept ++ [d], clock := n.clock.add (d.toDouble.toOption.getD .zero) }

theorem sent_send (r : Request) (n : Network) : (n.send r).2.sent = n.sent ++ [r] := by
  simp only [send]
  split <;> rfl

theorem sent_sleep (d : Number) (n : Network) : (n.sleep d).sent = n.sent := rfl

end Network

end ChangeRules
