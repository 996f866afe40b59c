import ChangeRules.Fault

/-!
# The broker

Change events are delivered by a broker, in partitions of numbered messages. Whoever reads them tells
the broker where to go on, and that everything delivered so far is done with. Any call of the broker
may fail.

* `Broker.perform`: a call, which is made even if it fails.
* `Broker.seekAll`: a row of seeks, up to the first one that fails.
* **`Broker.failing_seekAll`**: seeking changes nothing about which calls fail.
-/

namespace ChangeRules

/-- A call of the broker. -/
inductive BrokerCall where
  | subscribe (topics : List String)
  /-- Everything delivered so far is done with. -/
  | commit
  /-- Go on with this message of a partition. -/
  | seek (partition : Value) (offset : Int)
  | close

/-- The broker and the calls that were made. -/
structure Broker where
  /-- What a call fails with, if it does. -/
  failing : BrokerCall → Option Fault
  made : List BrokerCall := []

/-- Where to go on in a partition. -/
structure Position where
  part : Value
  offset : Int

namespace Broker

/-- Make a call. -/
def perform (c : BrokerCall) (b : Broker) : Except Fault Unit × Broker :=
  (match b.failing c with
    | some f => .error f
    | none => .ok (),
    { b with made := b.made ++ [c] })

/-- Go on at several positions. -/
def seekAll : List Position → Broker → Except Fault Unit × Broker
  | [], b => (.ok (), b)
  | p :: ps, b =>
    match b.perform (.seek p.part p.offset) with
    | (.ok _, b) => seekAll ps b
    | (.error f, b) => (.error f, b)

/-- The fault of a broker that says something. -/
def fault (text : String) : Fault := .outside "KafkaError" ("KafkaError: " ++ text)

/-- Seeking changes nothing about which calls fail. -/
theorem failing_seekAll (positions : List Position) (b : Broker) :
    (seekAll positions b).2.failing = b.failing := by
  induction positions generalizing b with
  | nil => rfl
  | cons k ks ih =>
    unfold seekAll perform
    cases b.failing (.seek k.part k.offset) with
    | none => exact ih _
    | some f => rfl

end Broker

end ChangeRules
