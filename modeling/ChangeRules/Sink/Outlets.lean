import ChangeRules.Number.Reading
import ChangeRules.Sink.Address
import ChangeRules.Sink.Client
import ChangeRules.Value.Text

/-!
# Outlets

The services that actions reach: the queue of emails, the records of tenants, and any address. The
first two have one breaker each; addresses have one for each host, of which the most recently used
ones are kept.

* `Outlets.enqueue`: an email is queued.
* `Outlets.update`, `Outlets.create`: a record is changed or inserted.
* `Outlets.deliver`: a request is sent to an address.
-/

namespace ChangeRules

/-- How the services are reached. -/
structure OutletSettings where
  emailAddress : String := "http://email"
  recordsAddress : String := "http://data"
  policy : RetryPolicy Number := { RetryPolicy.standard with jitter := false }
  /-- Where delays are drawn that are varied at random. -/
  draw : Int → Double := fun _ => middle
  threshold : Int := 5
  recovery : Number := .double (.ofInt 30)
  /-- So many hosts have a breaker at most. -/
  maxHosts : Int := 256

/-- The breakers of hosts, the least recently used first. -/
structure Hosts where
  breakers : List (String × Breaker) := []

namespace Hosts

/-- A host's breaker that was never used. -/
def fresh (host : String) : Breaker :=
  { name := "webhook:" ++ host, threshold := 5, recovery := .double (.ofInt 30) }

/-- The breaker of a host. -/
def breaker (h : Hosts) (host : String) : Breaker := (h.breakers.lookup host).getD (fresh host)

/-- The hosts with one of them moved to the end, and the least recently used beyond `limit` dropped
when it is a new one. -/
def touch (limit : Nat) (host : String) (h : Hosts) : Hosts :=
  let others := h.breakers.filter (·.1 != host)
  let all := others ++ [(host, h.breaker host)]
  if (h.breakers.lookup host).isSome then ⟨all⟩ else ⟨all.drop (all.length - limit)⟩

/-- The hosts with the breaker of one of them replaced. -/
def replace (host : String) (b : Breaker) (h : Hosts) : Hosts :=
  ⟨h.breakers.map fun p => if p.1 == host then (host, b) else p⟩

end Hosts

/-- The services and the breakers before them. -/
structure Outlets where
  settings : OutletSettings
  network : Network
  email : Breaker
  records : Breaker
  hosts : Hosts := {}

namespace Outlets

/-- Outlets whose breakers were never used. -/
def start (settings : OutletSettings) (network : Network) : Outlets :=
  let breaker (name : String) : Breaker :=
    { name, threshold := settings.threshold, recovery := settings.recovery }
  { settings, network, email := breaker "email_queue", records := breaker "data_mutation" }

/-- What a service does with the outlets, and what comes of it. -/
abbrev Service (α : Type) := Outlets → Except Fault α × Outlets

def emailClient (o : Outlets) : Client := ⟨"email_queue", o.settings.policy, o.settings.draw⟩

def recordsClient (o : Outlets) : Client := ⟨"data_mutation", o.settings.policy, o.settings.draw⟩

/-- Requests to any address are sent once. -/
def hookClient : Client where
  service := "webhook"
  policy := { RetryPolicy.standard with attempts := 1 }

/-! ## Requests -/

/-- A request to the queue of emails. -/
def requestEmail (r : Request) : Service (Option Response) := fun o =>
  let (outcome, line) := o.emailClient.request r ⟨o.network, o.email⟩
  (outcome, { o with network := line.network, email := line.breaker })

/-- A request to the records. -/
def requestRecords (r : Request) : Service (Option Response) := fun o =>
  let (outcome, line) := o.recordsClient.request r ⟨o.network, o.records⟩
  (outcome, { o with network := line.network, records := line.breaker })

/-- A request to a host. Below zero, no number of hosts is small enough. -/
def requestHost (host : String) (r : Request) : Service (Option Response) := fun o =>
  if o.settings.maxHosts < 0 ∧ (o.hosts.breakers.lookup host).isNone then
    (.error (.outside "KeyError" "dictionary is empty"), { o with hosts := {} })
  else
    let (outcome, line) := hookClient.request r ⟨o.network, o.hosts.breaker host⟩
    let hosts := o.hosts.touch o.settings.maxHosts.toNat host
    (outcome, { o with network := line.network, hosts := hosts.replace host line.breaker })

/-! ## Emails -/

/-- An email to queue. -/
structure Email where
  tenant : Value
  template : Value
  recipient : Value
  table : Value
  recordId : Value
  ruleId : Value

def Email.body (e : Email) : Value :=
  .object [("school_id", e.tenant), ("template_id", e.template), ("recipient_email", e.recipient),
    ("source_table", e.table), ("record_id", e.recordId), ("rule_id", e.ruleId)]

/-- An error of a service whose answer lacks a field. -/
def lacking (service what : String) (details : Fields) : Fault :=
  .error (.service service ("response did not include " ++ what) details)

/-- Queue an email; the result is the id of the entry. -/
def enqueue (e : Email) : Service String := fun o =>
  let address := Address.withoutSlashes o.settings.emailAddress ++ "/email-queue"
  let (outcome, o') := requestEmail { method := "POST", address, body := e.body } o
  let result := do
    let response ← outcome
    let fields ← o.emailClient.fields response
    match (Value.get fields "id").orElse (Value.get fields "queue_id") with
    | .null => .error (lacking o.emailClient.service "a queue id"
        [("status_code", (response.map fun r => Value.int r.status).getD .null)])
    | v => .ok v.display
  (result, o')

/-! ## Records -/

/-- A name as a segment of an address; only texts can be one. -/
def segment (v : Value) : Except Fault String :=
  match v with
  | .text s => .ok (Address.segment s)
  | _ => .error (.misuse .encodingOfNonText)

/-- The address of a tenant's records of a table. -/
def recordsAddress (o : Outlets) (tenant table : Value) : Except Fault String := do
  let tenant ← segment tenant
  let table ← segment table
  .ok (Address.withoutSlashes o.settings.recordsAddress ++ "/tenants/" ++ tenant ++ "/tables/" ++
    table ++ "/records")

/-- A quoted text is cut off in a sentence. -/
def shownStart (v : Value) : String := String.ofList (v.shown.toList.take 200)

/-- The integer that a value denotes. -/
def integerOf : Value → Except Fault Int
  | .bool b => .ok (if b then 1 else 0)
  | .int n => .ok n
  | .double x => x.toInteger.mapError fun flaw => .misuse (.arithmetic flaw)
  | .text s =>
    match readInt s with
    | .ok n => .ok n
    | .error .malformed => .error (.misuse (.integerLiteral (shownStart (.text s))))
    | .error (.oversized digits) => .error (.misuse (.unreadableInteger digits))
  | v => .error (.misuse (.integerArgument v.typeName))

/-- Set fields of a record; the result is the number of records that changed. -/
def update (tenant table recordId fields : Value) : Service Int := fun o =>
  match o.recordsAddress tenant table with
  | .error f => (.error f, o)
  | .ok address =>
    let address := address ++ "/" ++ Address.segment recordId.display
    let (outcome, o') := requestRecords
      { method := "PATCH", address, body := .object [("fields", fields)] } o
    let result := do
      let response ← outcome
      let answer ← o.recordsClient.fields response
      match (Fields.get? answer "affected").getD (Value.get answer "affected_rows") with
      | .null => .error (lacking o.recordsClient.service "an affected-row count"
          [("table", table), ("record_id", recordId)])
      | v => integerOf v
    (result, o')

/-- Insert a record; the result is its id. -/
def create (tenant table fields : Value) : Service String := fun o =>
  match o.recordsAddress tenant table with
  | .error f => (.error f, o)
  | .ok address =>
    let (outcome, o') := requestRecords
      { method := "POST", address, body := .object [("fields", fields)] } o
    let result := do
      let answer ← o.recordsClient.fields (← outcome)
      match Value.get answer "id" with
      | .null => .error (lacking o.recordsClient.service "the new record id" [("table", table)])
      | v => .ok v.display
    (result, o')

/-! ## Any address -/

/-- Send a request to an address; the result is the status of the answer. A request that only asks
carries no body. -/
def deliver (address method : String) (payload headers : Value) : Service Int := fun o =>
  match Address.host address with
  | .error flaw => (.error (.misuse (.badAddress flaw)), o)
  | .ok host =>
    let body := if method = "GET" then .null else payload
    let (outcome, o') := requestHost host { method, address, body, headers } o
    (outcome.bind fun response => match response with
      | some r => .ok r.status
      | none => .error (Client.noAnswer "status_code"), o')

end Outlets

end ChangeRules
