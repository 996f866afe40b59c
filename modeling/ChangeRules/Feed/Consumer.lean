import ChangeRules.Engine.Process
import ChangeRules.Event.Notice
import ChangeRules.Feed.Broker
import ChangeRules.Json.Reader

/-!
# Consuming change events

Messages come in batches. A message that holds no change event is passed over; an event that cannot
be processed is delivered again, and so is everything behind it. A batch is committed when all of it
is done with.

The loop of the consumer is a row of polls here. The pauses behind a failed one, the waiting for
messages and the connection to the broker are out of scope.

* `Message.event?`: the change event in a message.
* `handleBatch`: the messages of a batch, up to the first one that fails.
* `Feed.processBatchBy`, `Feed.consume`: batches and the broker.
* **`handleBatch_nil`**: an empty batch is done with.
-/

namespace ChangeRules

/-! ## Messages -/

/-- What a message holds. -/
inductive MessageBody where
  | empty
  | bytes (bs : List Nat)
  | text (s : String)

/-- A message with its number in its partition. -/
structure Message where
  offset : Int
  body : MessageBody

/-- The messages of one partition in a batch. -/
structure Portion where
  part : Value
  messages : List Message

namespace Message

/-- The JSON value in a message. -/
def json? (m : Message) : Option Value :=
  match m.body with
  | .empty => none
  | .bytes bs => (Json.readBytes bs).bind Except.toOption
  | .text s => (Json.read s).toOption

/-- The notice of a change in a message. -/
def notice? (m : Message) : Option EventNotice :=
  m.json?.bind fun v => (EventNotice.ofValue v).toOption

/-- The change event in a message, given the present time and a fresh identifier. -/
def event? (m : Message) (now : DateTime) (newId : String) : Option Event :=
  m.notice?.map fun n => n.toEvent now newId

end Message

/-! ## Batches -/

/-- What processes events, as an engine does. -/
abbrev Processor := Event → World → Except Fault EventReport × World

/-- Process the event in a message; a message without one is passed over. -/
def handleMessage (process : Processor) (m : Message) (w : World) :
    Except Fault (Option EventReport) × World :=
  let (id, later) := w.freshId
  match m.event? w.now id with
  | none => (.ok none, w)
  | some event =>
    let (outcome, w) := process event later
    (outcome.map some, w)

/-- Messages of a partition, up to the first one that fails; that one's number. -/
def handleMessages (process : Processor) : List Message → World → Option Int × World
  | [], w => (none, w)
  | m :: ms, w =>
    match handleMessage process m w with
    | (.ok _, w) => handleMessages process ms w
    | (.error _, w) => (some m.offset, w)

/-- Where partitions begin in a batch. -/
def Portion.starts (portions : List Portion) : List Position :=
  portions.filterMap fun p => p.messages.head?.map fun m => ⟨p.part, m.offset⟩

/-- The messages of a batch, up to the first one that fails. Nothing is left to do, or it is to go on
at that message and, in the partitions behind it, at the beginning. -/
def handleBatch (process : Processor) : List Portion → World → List Position × World
  | [], w => ([], w)
  | p :: ps, w =>
    match handleMessages process p.messages w with
    | (none, w) => handleBatch process ps w
    | (some offset, w) => (⟨p.part, offset⟩ :: Portion.starts ps, w)

theorem handleBatch_nil (process : Processor) (w : World) :
    handleBatch process [] w = ([], w) := rfl

/-! ## The consumer -/

/-- What a poll yields. -/
inductive Poll where
  | batch (portions : List Portion)
  | failed (f : Fault)

/-- A consumer of a topic. -/
structure Feed where
  topic : String
  broker : Broker
  world : World
  running : Bool := false

namespace Feed

/-- A call of the broker. -/
def perform (c : BrokerCall) (f : Feed) : Except Fault Unit × Feed :=
  let (outcome, broker) := f.broker.perform c
  (outcome, { f with broker })

/-- Subscribe to the topic. -/
def start (f : Feed) : Except Fault Unit × Feed :=
  match f.perform (.subscribe [f.topic]) with
  | (.ok _, f) => (.ok (), { f with running := true })
  | (.error fault, f) =>
    (.error (if fault.isA "KafkaError" then
      .error (.general "KAFKA_CONSUMER_START_FAILED" fault.message []) else fault), f)

/-- Take leave of the broker. -/
def stop (f : Feed) : Except Fault Unit × Feed := { f with running := false }.perform .close

/-- Process one message. -/
def handle (e : Engine) (m : Message) (f : Feed) : Except Fault (Option EventReport) × Feed :=
  let (outcome, world) := handleMessage e.process m f.world
  (outcome, { f with world })

/-- Process a batch: it is committed, or what is left of it is to be delivered again. -/
def processBatchBy (process : Processor) (portions : List Portion) (f : Feed) :
    Except Fault Bool × Feed :=
  match handleBatch process portions f.world with
  | ([], world) =>
    let (outcome, f) := { f with world }.perform .commit
    (outcome.map fun _ => true, f)
  | (positions, world) =>
    let (outcome, broker) := f.broker.seekAll positions
    (outcome.map fun _ => false, { f with world, broker })

/-- The engine processes a batch. -/
def processBatch (e : Engine) (portions : List Portion) (f : Feed) : Except Fault Bool × Feed :=
  f.processBatchBy e.process portions

/-- One poll. Whatever goes wrong, the next one follows. -/
def poll (e : Engine) (f : Feed) : Poll → Feed
  | .batch [] => f
  | .batch portions => (f.processBatch e portions).2
  | .failed _ => f

/-- Polls one after the other; then the consumer is told to stop. -/
def consume (e : Engine) (polls : List Poll) (f : Feed) : Feed :=
  { polls.foldl (poll e) f with running := false }

end Feed

end ChangeRules
