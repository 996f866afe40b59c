import ChangeRules.Api.Payload
import ChangeRules.Api.Resource
import ChangeRules.Engine.Process
import ChangeRules.Engine.Toggle
import ChangeRules.Settings

/-!
# The service

The service takes events, and lets tenants draft, list, read and toggle rules and look into the logs.
Every request has an id, its own or a fresh one, and is counted when it was answered.

* `Server.start?`: a service with settings.
* `Server.perform`: what an operation does.
* `Server.handle`: a request and its answer.
* **`Server.handle_of_unknownPath`**: nothing happens where nothing is.
-/

namespace ChangeRules.Api

/-! ## Starting -/

/-- A running service. -/
structure Server where
  engine : Engine
  world : World

namespace Server

/-- The service's name. -/
def name : String := "business_rules"

/-- The port that the service listens at unless told otherwise. -/
def port : Int := 8030

def version : String := "1.0.0"

/-- The levels that a journal can be kept at. -/
def journalLevels : List String :=
  ["NOTSET", "DEBUG", "INFO", "WARN", "WARNING", "ERROR", "FATAL", "CRITICAL", "BASIC_FORMAT"]

/-- Where the stores keep what they hold, by name. -/
def backends : List (String × Backend) := [("memory", .memory), ("postgres", .idleDatabase)]

/-- The engine that settings ask for. -/
def engineOf (s : Settings) : Engine where
  actionLimit := .double s.actionTimeout
  storeLimit := .double s.storeTimeout

/-- The outlets that settings ask for. -/
def outletsOf (s : Settings) : OutletSettings :=
  { emailAddress := s.emailAddress, recordsAddress := s.recordsAddress }

/-- A service with settings, which has to know the level of the journal and where the stores are. -/
def ofSettings (s : Settings) (network : Network) (now : DateTime) : Except Fault Server :=
  let level := Text.upper s.logLevel
  if !journalLevels.contains level then .error (.misuse (.unknownLevel level))
  else match backends.lookup (Text.lower s.storageBackend) with
    | none => .error (.misuse (.unknownBackend s.storageBackend))
    | some backend =>
      .ok {
        engine := engineOf s
        world := { outlets := .start (outletsOf s) network, now, backend } }

/-- A service with the settings that are given, or why it cannot start. -/
def start? (overrides : Fields) (environment : List (String × String)) (network : Network)
    (now : DateTime) : Except Fault Server :=
  match Settings.read (.text name) (.int port) overrides environment with
  | .ok s => ofSettings s network now
  | .error issues => .error (.invalid issues)

/-! ## Replies -/

def json (status : Nat) (v : Value) : Reply := ⟨status, .json v⟩

def homeReply : Reply :=
  json 200 (.object [("service", .text name), ("message", .text "Business Rule Engine"),
    ("version", .text version),
    ("capabilities", .list [.text "rule_matching", .text "action_dispatch",
      .text "execution_logs"])])

/-- Whether the service works: its stores have to be there. -/
def healthReply (w : World) : Reply :=
  match w.backend with
  | .memory =>
    json 200 (.object [("service", .text name), ("status", .text "ok"),
      ("dependencies", .object [("storage", .text "memory")]), ("version", .text version)])
  | .idleDatabase =>
    json 503 (.object [("service", .text name), ("status", .text "error"),
      ("error", .text (RuleError.store "postgres" Store.notStarted []).message)])

def metricsReply (w : World) : Reply := ⟨200, .text ("\n".intercalate w.metrics.lines)⟩

/-- A rule as clients see it. -/
def ruleView (r : Rule) : Value :=
  .object [("id", r.id), ("school_id", r.tenant), ("name", r.name),
    ("description", r.description), ("trigger_type", r.triggerType),
    ("trigger_table", r.triggerTable), ("trigger_conditions", r.conditions),
    ("actions", r.actions), ("is_active", r.isActive),
    ("last_executed", Value.ofText? (r.lastExecuted.map DateTime.zuluText)),
    ("created_at", .text r.createdAt.zuluText)]

def ruleReply (status : Nat) (r : Rule) : Reply := json status (ruleView r)

/-- A rule that may be missing. -/
def foundReply : Option Rule → Except Refusal Reply
  | some r => .ok (ruleReply 200 r)
  | none => .error .unknownRule

def logsReply (logs : Logs) : Reply :=
  json 200 (.object [("logs", .list (logs.map ExecutionLog.toValue)),
    ("count", .int logs.length)])

/-! ## Operations -/

/-- What comes of an operation. -/
abbrev Outcome := Except Refusal Reply × World

/-- Go on with what a call came to. -/
def following {α : Type} (call : Except Fault α × World) (next : α → Except Refusal Reply) :
    Outcome :=
  ((call.1.mapError Refusal.failed).bind next, call.2)

/-- Go on with a payload that passed its checks. -/
def having {α : Type} (payload : Except Refusal α) (w : World) (next : α → Outcome) : Outcome :=
  match payload with
  | .ok a => next a
  | .error refusal => (.error refusal, w)

def takeEvent (e : Engine) (n : EventNotice) (w : World) : Outcome :=
  let (id, w) := w.freshId
  following (e.process (n.toEvent w.now id) w) fun report => .ok (json 200 report.toValue)

/-- The fault of a draft, which the client is told. -/
def draftFault (tenant : String) : Fault → Fault
  | .misuse .tableRequired =>
    .error (.validation Misuse.tableRequired.message [("tenant_id", .text tenant)])
  | f => f

def createRule (tenant : String) (d : RuleDraft) (w : World) : Outcome :=
  let (id, w) := w.freshId
  match d.toRule tenant id w.now with
  | .ok r => following (w.saveRule r) fun r => .ok (ruleReply 201 r)
  | .error f => (.error (.failed (draftFault tenant f)), w)

/-- What an operation does. -/
def perform (e : Engine) (r : Request) (w : World) : Operation → Outcome
  | .home => (.ok homeReply, w)
  | .health => (.ok (healthReply w), w)
  | .metrics => (.ok (metricsReply w), w)
  | .takeEvent => having (Payload.notice r) w fun n => takeEvent e n w
  | .createRule tenant => having (Payload.draft r) w fun d => createRule tenant d w
  | .listRules tenant =>
    following (w.listRules (.text tenant)) fun rules => .ok (json 200 (.list (rules.map ruleView)))
  | .readRule tenant id => following (w.getRule (.text tenant) (.text id)) foundReply
  | .toggleRule tenant id =>
    following (Toggle.run { tenant := .text tenant, id := .text id } w) foundReply
  | .listLogs tenant =>
    having (Payload.logFilter r) w fun f =>
      following (w.pageLogs (.text tenant) f) fun logs => .ok (logsReply logs)
  | .readStats tenant =>
    following (w.logStats (.text tenant) (Payload.ruleId r)) fun stats =>
      .ok (json 200 stats.toValue)

/-- What a request asks for. -/
def operation (r : Request) : Except Refusal Operation :=
  match Resource.ofPath? r.path with
  | some resource =>
    match resource.operation? r.method with
    | some operation => .ok operation
    | none => .error .unknownMethod
  | none => .error (if (Resource.elsewhere? r.path).isSome then .otherPath else .unknownPath)

/-- What comes of a request. -/
def outcome (e : Engine) (r : Request) (w : World) : Outcome :=
  match operation r with
  | .ok operation => perform e r w operation
  | .error refusal => (.error refusal, w)

end Server

/-! ## Answers -/

/-- An answer to a request. One to a request that broke the service carries no id. -/
structure Answer where
  reply : Reply
  requestId : Option String

namespace Server

/-- The reply to a request that broke the service. -/
def brokenReply : Reply :=
  json 500 (.object [("code", .text "INTERNAL_ERROR"), ("message", .text "Internal server error"),
    ("details", .object [])])

/-- The reply to a request, if there is one that can be written. -/
def reply? (id : String) (outcome : Except Refusal Reply) : Option Reply :=
  (match outcome with
    | .ok reply => some reply
    | .error refusal => refusal.reply? id).filter Reply.isWritable

/-- The engine's error that a request ended with is counted. -/
def countRefusal (outcome : Except Refusal Reply) (m : Metrics) : Metrics :=
  match outcome with
  | .error (.failed (.error e)) => m.countError e.code ""
  | _ => m

/-- The id of a request: its own, or a fresh one. -/
def requestId (r : Request) (w : World) : String × World :=
  match r.header? "x-request-id" with
  | some id => (id, w)
  | none => w.freshId

/-- A request that was answered is counted. -/
def countRequest (r : Request) (status : Nat) (began : Double) (w : World) : World :=
  { w with
    metrics := w.metrics.countRequest r.method r.endpoint (toString status) (w.clock.sub began) }

/-- The answer to a request that came to an outcome. -/
def conclude (r : Request) (id : String) (began : Double) (outcome : Outcome) : Answer × World :=
  let w := { outcome.2 with metrics := countRefusal outcome.1 outcome.2.metrics }
  match reply? id outcome.1 with
  | some reply => (⟨reply, some id⟩, countRequest r reply.status began w)
  | none =>
    (⟨brokenReply, none⟩, { w with metrics := w.metrics.countError "INTERNAL_ERROR" "" })

/-- A request and its answer. -/
def handle (r : Request) (s : Server) : Answer × Server :=
  let (id, w) := requestId r s.world
  let (answer, w) := conclude r id w.clock (outcome s.engine r w)
  (answer, { s with world := w })

theorem handle_of_unknownPath {r : Request} {s : Server} (h : operation r = .error .unknownPath) :
    (s.handle r).1.reply = .telling 404 (.text "Not Found") ∧
      (s.handle r).2.world.rules = s.world.rules ∧ (s.handle r).2.world.logs = s.world.logs := by
  have fresh : ∀ w : World, (requestId r w).2.rules = w.rules ∧ (requestId r w).2.logs = w.logs := by
    intro w
    unfold requestId
    split <;> simp [World.freshId]
  refine ⟨?_, ?_, ?_⟩ <;>
    simp [handle, conclude, outcome, h, reply?, Refusal.reply?, Reply.isWritable, Reply.telling,
      Option.filter, Value.isFinite, Value.fieldsAreFinite, countRequest, (fresh s.world).1,
      (fresh s.world).2]

end Server

end ChangeRules.Api
