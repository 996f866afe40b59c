import ChangeRules.Json.Reader
import ChangeRules.Sink.Breaker
import ChangeRules.Sink.Network
import ChangeRules.Sink.Retry

/-!
# Clients of sinks

A client sends requests to one service through a breaker and tries again when the network fails. An
answer that refuses a request tells that the service works; any other answer that is no success
counts against it. Delays are varied at random: where they are drawn is a parameter of the client, one
place for each attempt, and nothing but the length of a wait depends on it.

* `Client.request`: a request and the answer to it.
* `Client.fields`: the fields of an answer.
-/

namespace ChangeRules

/-- A client of a service. -/
structure Client where
  service : String
  policy : RetryPolicy Number
  /-- Where a delay is drawn that is varied at random: so far between the least and the greatest one
  behind an attempt. -/
  draw : Int → Double := fun _ => middle

namespace Client

/-- The network behind a breaker. -/
structure Line where
  network : Network
  breaker : Breaker

/-- The first characters of a body that an error shows. -/
def excerpt (body : String) : String := String.ofList (body.toList.take 500)

/-- What an error tells of an answer. -/
def answerDetails (r : Request) (response : Response) : Fields :=
  [("status_code", .int response.status), ("method", .text r.method), ("url", .text r.address),
    ("body", .text (excerpt response.body))]

/-- A successful answer, or the fault that another one is. -/
def judge (c : Client) (r : Request) (response : Response) : Except Fault Response :=
  let status := toString response.status
  if 200 ≤ response.status ∧ response.status < 300 then .ok response
  else if 400 ≤ response.status ∧ response.status < 500 then
    .error (.error (.rejection c.service ("rejected with HTTP " ++ status) (answerDetails r response)))
  else .error (.error (.service c.service ("HTTP " ++ status) (answerDetails r response)))

/-- A fault of a service that answered. -/
def isRejection : Fault → Bool
  | .error e => e.kind == .rejection
  | _ => false

/-- A request sent once, whatever the breaker. -/
def sendOnce (c : Client) (r : Request) (n : Network) : Except Fault Response × Network :=
  match n.send r with
  | (.ok response, n) => (c.judge r response, n)
  | (.error f, n) => (.error f, n)

/-- A request sent once through the breaker. -/
def attempt (c : Client) (r : Request) (line : Line) : Except Fault Response × Line :=
  let (outcome, breaker, network) :=
    line.breaker.call isRejection Network.clock (c.sendOnce r) line.network
  (outcome, ⟨network, breaker⟩)

/-- Failures of the network, after which a request is sent again. -/
def isTransport (f : Fault) : Bool := f.isA "TransportError"

/-- How a client tries again. -/
def retrying (c : Client) : Retrying Line Number where
  job := "_call"
  attempts := c.policy.attempts
  retried := isTransport
  delay attempt := c.policy.delay (varied (c.draw attempt)) attempt
  sleep d line := { line with network := line.network.sleep d }

/-- The fault that a client reports for one that stopped a request. -/
def report (c : Client) (r : Request) (f : Fault) : Fault :=
  let service (message : String) (details : Fields) : Fault :=
    .error (.service c.service message (("url", .text r.address) :: details))
  match f with
  | .exhausted _ attempts last =>
    service ("unreachable after " ++ toString attempts ++ " attempts: " ++ last.message)
      [("attempts", .int attempts)]
  | .blocked breaker => service "circuit breaker open" [("circuit_breaker", .text breaker)]
  | f => if f.isA "HTTPError" then service ("HTTP error: " ++ f.message) [] else f

/-- A request and the answer to it, if there was an attempt at all. -/
def request (c : Client) (r : Request) (line : Line) : Except Fault (Option Response) × Line :=
  let (outcome, line) := retry c.retrying (c.attempt r) line
  (outcome.mapError (c.report r), line)

/-- The fault of using an answer that never came. -/
def noAnswer (member : String) : Fault := .misuse (.noMember Value.null.typeName member)

/-- The fields of an answer: those of the object in its body, or its only value. -/
def fields (c : Client) (response : Option Response) : Except Fault Fields :=
  match response with
  | none => .error (noAnswer "content")
  | some response =>
    if response.body.isEmpty then .ok []
    else match Json.readBytes (Text.utf8Bytes response.body) with
      | some (.ok (.object fields)) => .ok fields
      | some (.ok v) => .ok [("value", v)]
      | _ => .error (.error (.service c.service "response body is not JSON"
          [("status_code", .int response.status)]))

end Client

end ChangeRules
