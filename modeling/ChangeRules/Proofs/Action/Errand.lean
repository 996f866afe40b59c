import ChangeRules.Action.Dispatch
import ChangeRules.Proofs.Sink.Traffic

/-!
# Errands

Whatever an action does outside, it does by one request to one service, and all else it needs is at
hand before. So an action is settled at once, or it is an errand: a request and a way to read its
answer.

* `Outlet`, `Errand`: a service, and a request to it with the reading of its answer.
* `Action.plan`: what an action comes to, before anything is sent.
* **`perform_eq_plan`**: an action does what its plan says.
* **`Outlets.SendsOnly.perform`**: an action sends nothing but the request of its errand.
-/

namespace ChangeRules

/-- The services that requests go to. -/
inductive Outlet where
  | email
  | records
  | host (name : String)
  deriving DecidableEq

namespace Outlet

/-- A request to a service. -/
def request (r : Request) : Outlet → Outlets.Service (Option Response)
  | .email => Outlets.requestEmail r
  | .records => Outlets.requestRecords r
  | .host name => Outlets.requestHost name r

end Outlet

/-- A request to a service, and the reading of its answer. -/
structure Errand where
  outlet : Outlet
  request : Request
  read : Except Fault (Option Response) → Except Fault Value

/-- What an action comes to. -/
inductive Plan where
  | settled (outcome : Except Fault Value)
  | errand (x : Errand)

namespace Plan

/-- What is done about a plan. -/
def perform : Plan → Outlets.Service Value
  | .settled outcome => fun o => (outcome, o)
  | .errand x => fun o => (x.read (x.outlet.request x.request o).1, (x.outlet.request x.request o).2)

end Plan

/-! ## Readings -/

namespace Outlets

variable (o : Outlets)

/-- The id of a queued email. -/
def queueId (answer : Except Fault (Option Response)) : Except Fault String := do
  let response ← answer
  let fields ← o.emailClient.fields response
  match (Value.get fields "id").orElse (Value.get fields "queue_id") with
  | .null => .error (lacking o.emailClient.service "a queue id"
      [("status_code", (response.map fun r => Value.int r.status).getD .null)])
  | v => .ok v.display

/-- The number of records that changed. -/
def affected (table recordId : Value) (answer : Except Fault (Option Response)) : Except Fault Int := do
  let response ← answer
  let fields ← o.recordsClient.fields response
  match (Fields.get? fields "affected").getD (Value.get fields "affected_rows") with
  | .null => .error (lacking o.recordsClient.service "an affected-row count"
      [("table", table), ("record_id", recordId)])
  | v => integerOf v

/-- The id of a new record. -/
def newId (table : Value) (answer : Except Fault (Option Response)) : Except Fault String := do
  let fields ← o.recordsClient.fields (← answer)
  match Value.get fields "id" with
  | .null => .error (lacking o.recordsClient.service "the new record id" [("table", table)])
  | v => .ok v.display

/-- The status of an answer. -/
def statusOf (answer : Except Fault (Option Response)) : Except Fault Int :=
  answer.bind fun response => match response with
    | some r => .ok r.status
    | none => .error (Client.noAnswer "status_code")

/-! ## Requests -/

/-- The request that queues an email. -/
def emailRequest (e : Email) : Request where
  method := "POST"
  address := Address.withoutSlashes o.settings.emailAddress ++ "/email-queue"
  body := e.body

/-- The request that changes a record. -/
def updateRequest (records : String) (recordId fields : Value) : Request where
  method := "PATCH"
  address := records ++ "/" ++ Address.segment recordId.display
  body := .object [("fields", fields)]

/-- The request that inserts a record. -/
def createRequest (records : String) (fields : Value) : Request where
  method := "POST"
  address := records
  body := .object [("fields", fields)]

/-- A request to any address. One that only asks carries no body. -/
def hookRequest (address method : String) (payload headers : Value) : Request where
  method := method
  address := address
  body := if method = "GET" then .null else payload
  headers := headers

theorem update_eq (tenant table recordId fields : Value) :
    update tenant table recordId fields o = match o.recordsAddress tenant table with
      | .error f => (.error f, o)
      | .ok records =>
        (o.affected table recordId (requestRecords (updateRequest records recordId fields) o).1,
          (requestRecords (updateRequest records recordId fields) o).2) := by
  unfold update
  cases o.recordsAddress tenant table <;> rfl

theorem create_eq (tenant table fields : Value) :
    create tenant table fields o = match o.recordsAddress tenant table with
      | .error f => (.error f, o)
      | .ok records =>
        (o.newId table (requestRecords (createRequest records fields) o).1,
          (requestRecords (createRequest records fields) o).2) := by
  unfold create
  cases o.recordsAddress tenant table <;> rfl

theorem deliver_eq (address method : String) (payload headers : Value) :
    deliver address method payload headers o = match Address.host address with
      | .error flaw => (.error (.misuse (.badAddress flaw)), o)
      | .ok host =>
        (statusOf (requestHost host (hookRequest address method payload headers) o).1,
          (requestHost host (hookRequest address method payload headers) o).2) := by
  unfold deliver
  cases Address.host address <;> rfl

end Outlets

/-! ## Plans -/

namespace Action

open Outlets

/-- What inserting a record comes to. -/
def createPlan (o : Outlets) (tenant table fields : Value) (result : String → Value) : Plan :=
  match o.recordsAddress tenant table with
  | .error f => .settled (.error f)
  | .ok records =>
    .errand ⟨.records, createRequest records fields, fun answer => (o.newId table answer).map result⟩

/-- What an action comes to, before anything is sent. -/
def plan (c : ActionContext) (o : Outlets) : Action → Plan
  | .sendEmail p =>
    match p.resolve c.record with
    | .error f => .settled (.error f)
    | .ok recipient =>
      .errand ⟨.email, o.emailRequest ⟨c.tenant, .text p.template, .text recipient, c.table,
          c.recordId, c.ruleId⟩,
        fun answer => (o.queueId answer).map fun id =>
          .object [("queue_id", .text id), ("recipient", .text recipient)]⟩
  | .updateRecord p =>
    match updateTarget p c with
    | .error f => .settled (.error f)
    | .ok (table, recordId, fields) =>
      match o.recordsAddress c.tenant table with
      | .error f => .settled (.error f)
      | .ok records =>
        .errand ⟨.records, updateRequest records recordId (.object fields),
          fun answer => (o.affected table recordId answer).map fun count =>
            .object [("table", table), ("record_id", recordId), ("fields", .object fields),
              ("affected", .int count)]⟩
  | .createRecord p =>
    createPlan o c.tenant (.text p.table) (.object p.fields) fun id =>
      .object [("table", .text p.table), ("record_id", .text id)]
  | .createTask p =>
    match p.resolve c.record with
    | .error f => .settled (.error f)
    | .ok fields =>
      createPlan o c.tenant (.text "tasks") (.object fields) fun id =>
        .object [("table", .text "tasks"), ("record_id", .text id),
          ("assigned_to", Value.get fields "assigned_to")]
  | .logEvent parameters => .settled (.ok (.object parameters))
  | .webhook p =>
    match Address.host p.address with
    | .error flaw => .settled (.error (.misuse (.badAddress flaw)))
    | .ok host =>
      .errand ⟨.host host, hookRequest p.address p.method.name (.object (p.payload.getD c.payload))
          (.object (headerFields p.headers)),
        fun answer => (statusOf answer).map fun status => .object [("status_code", .int status)]⟩

/-- A plan depends on how the services are reached, and on nothing else about them. -/
theorem plan_congr {o o' : Outlets} (h : o'.settings = o.settings) (c : ActionContext) (a : Action) :
    a.plan c o' = a.plan c o := by
  have hemail : o'.emailClient = o.emailClient := by unfold emailClient; rw [h]
  have hrecords : o'.recordsClient = o.recordsClient := by unfold recordsClient; rw [h]
  cases a <;>
    simp only [plan, createPlan, queueId, affected, newId, emailRequest, Outlets.recordsAddress, hemail,
      hrecords, h]

theorem perform_createPlan (o : Outlets) (tenant table fields : Value) (result : String → Value) :
    giving (Outlets.create tenant table fields) result o =
      (createPlan o tenant table fields result).perform o := by
  unfold giving createPlan
  rw [create_eq]
  cases o.recordsAddress tenant table <;> rfl

/-- **An action does what its plan says.** -/
theorem perform_eq_plan (c : ActionContext) (a : Action) (o : Outlets) :
    a.perform c o = (a.plan c o).perform o := by
  cases a with
  | sendEmail p =>
    simp only [perform, performEmail, after, plan]
    cases p.resolve c.record with
    | error f => rfl
    | ok recipient => rfl
  | updateRecord p =>
    simp only [perform, performUpdate, after, plan]
    cases updateTarget p c with
    | error f => rfl
    | ok target =>
      obtain ⟨table, recordId, fields⟩ := target
      dsimp only
      unfold giving
      rw [update_eq]
      cases o.recordsAddress c.tenant table <;> rfl
  | createRecord p => exact perform_createPlan o _ _ _ _
  | createTask p =>
    simp only [perform, performTask, after, plan]
    cases p.resolve c.record with
    | error f => rfl
    | ok fields => exact perform_createPlan o _ _ _ _
  | logEvent parameters => rfl
  | webhook p =>
    simp only [perform, performWebhook, plan]
    unfold giving
    rw [deliver_eq]
    cases Address.host p.address <;> rfl

end Action

/-! ## What is sent -/

/-- The settings are kept, and only certain requests were sent. -/
structure Outlets.SendsOnly (p : Request → Prop) (o o' : Outlets) : Prop where
  settings : o'.settings = o.settings
  sent : ∃ rs, (∀ r ∈ rs, p r) ∧ o'.network.sent = o.network.sent ++ rs

namespace Outlets.SendsOnly

variable {p q : Request → Prop} {o o' o'' : Outlets}

theorem refl (p : Request → Prop) (o : Outlets) : SendsOnly p o o := ⟨rfl, [], by simp, by simp⟩

theorem trans (h : SendsOnly p o o') (h' : SendsOnly p o' o'') : SendsOnly p o o'' := by
  obtain ⟨rs, hrs, hsent⟩ := h.sent
  obtain ⟨rs', hrs', hsent'⟩ := h'.sent
  refine ⟨h'.settings.trans h.settings, rs ++ rs', List.forall_mem_append.mpr ⟨hrs, hrs'⟩, ?_⟩
  rw [hsent', hsent, List.append_assoc]

/-- A client sends nothing but its request. -/
theorem of_client (c : Client) (r : Request) (l : Client.Line) :
    ∃ rs, (∀ r' ∈ rs, r' = r) ∧ (c.request r l).2.network.sent = l.network.sent ++ rs := by
  refine ⟨_, fun r' hr' => ?_, (Traffic.traffic_request c r l).sent⟩
  obtain ⟨t, ht, rfl⟩ := List.mem_map.mp hr'
  obtain ⟨line, -, rfl⟩ := List.mem_map.mp (List.mem_filter.mp ht).1
  rfl

theorem request (r : Request) (outlet : Outlet) (o : Outlets) :
    SendsOnly (· = r) o (outlet.request r o).2 := by
  cases outlet with
  | email => exact ⟨rfl, of_client o.emailClient r ⟨o.network, o.email⟩⟩
  | records => exact ⟨rfl, of_client o.recordsClient r ⟨o.network, o.records⟩⟩
  | host name =>
    unfold Outlet.request Outlets.requestHost
    dsimp only
    split
    · exact ⟨rfl, [], by simp, by simp⟩
    · exact ⟨rfl, of_client hookClient r ⟨o.network, o.hosts.breaker name⟩⟩

/-- **An action sends nothing but the request of its errand.** -/
theorem perform {c : ActionContext} {a : Action}
    (h : ∀ x, a.plan c o = .errand x → p x.request) : SendsOnly p o (a.perform c o).2 := by
  rw [Action.perform_eq_plan]
  cases hplan : a.plan c o with
  | settled outcome => exact refl p o
  | errand x =>
    obtain ⟨hsettings, rs, hrs, hsent⟩ := request x.request x.outlet o
    refine ⟨hsettings, rs, fun r hr => ?_, hsent⟩
    rw [hrs r hr]
    exact h x hplan

end Outlets.SendsOnly

end ChangeRules
